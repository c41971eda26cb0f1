import Autolean.Benchmarks.Harness

/-! Concurrent, repeated and restarted benchmark runs. Each execution is paid for by a start
of the same invocation, and a trial is started once; a report is a function of the stored
run, its final results and its one manifest binding. -/
namespace Autolean.Benchmarks
open Contracts Machine Machine.Raising

variable {rt : Runtime} {t : Tables}

/-! Executions are paid for -/

/-- A successful start earns the one execution of its trial. -/
def executionTariff : Tariff benchmarkInterface BenchmarkError Coordinates where
  earns
    | .markTrialExecutionStarted reservation, .ok _ => some reservation.coordinates
    | _, _ => none
  spends
    | .execute k _ => some k
    | _ => none

/-- The method calls no executor. -/
abbrev Idle {α : Type} (m : Method α) : Prop := m.Issues fun op => executionTariff.spends op = none

abbrev Paid {α : Type} (m : Method α) : Prop := m.Solvent executionTariff fun _ => 0

section Idle
variable {α β : Type}

theorem idle_bind {m : Method α} {f : α → Method β} (hm : Idle m) (hf : ∀ a, Idle (f a)) : Idle (m >>= f) := hm.bind hf

theorem idle_ofExcept (x : Outcome α) : Idle (Prog.ofExcept x) := .ofExcept x

theorem idle_issue {op : BenchmarkOp} (h : executionTariff.spends op = none) : Idle (issue op) := Prog.Issues.perform h

end Idle

theorem loadResults_idle (runId : String) : Idle (rt.loadResults runId) := by
  refine idle_bind (idle_issue rfl) fun _ => ?_
  refine idle_bind (idle_issue rfl) fun _ => ?_
  exact idle_ofExcept _

theorem createRun_idle (run : RoleBenchmarkRun) : Idle (rt.createRun run) := by
  refine idle_bind (idle_ofExcept _) fun _ => ?_
  exact idle_issue rfl

theorem claimTrial_idle (run : RoleBenchmarkRun) (cellId caseId : String) (repetition : Int) (ownerId : String) (ttlMs : Int) :
    Idle (Runtime.claimTrial run cellId caseId repetition ownerId ttlMs) := by
  refine idle_bind (idle_ofExcept _) fun _ => ?_
  refine idle_bind (idle_ofExcept _) fun _ => ?_
  refine idle_bind (idle_ofExcept _) fun _ => ?_
  refine idle_bind (idle_issue rfl) fun _ => ?_
  refine idle_bind (idle_ofExcept _) fun _ => ?_
  exact idle_issue rfl

theorem recordClaimedTrial_idle (reservation : RoleBenchmarkTrialReservation) (result : RoleBenchmarkTrialResult) :
    Idle (rt.recordClaimedTrial reservation result) := by
  refine idle_bind (idle_ofExcept _) fun _ => ?_
  refine idle_bind (idle_ofExcept _) fun _ => ?_
  refine idle_bind (idle_ofExcept _) fun _ => ?_
  refine idle_bind (idle_issue rfl) fun _ => ?_
  refine idle_bind (idle_ofExcept _) fun _ => ?_
  exact idle_issue rfl

theorem bindRawArtifactManifest_idle (runId manifestHash : String) : Idle (rt.bindRawArtifactManifest runId manifestHash) := by
  refine idle_bind (idle_ofExcept _) fun _ => ?_
  refine idle_bind (idle_issue rfl) fun _ => ?_
  refine idle_bind (loadResults_idle runId) fun _ => ?_
  refine idle_bind (idle_ofExcept _) fun _ => ?_
  exact idle_issue rfl

theorem report_idle (runId : String) : Idle (rt.report runId) := by
  refine idle_bind (idle_issue rfl) fun _ => ?_
  refine idle_bind (loadResults_idle runId) fun _ => ?_
  refine idle_bind (idle_ofExcept _) fun _ => ?_
  refine idle_bind (idle_issue rfl) fun _ => ?_
  exact idle_ofExcept _

theorem putOutput_idle (output : Json) : Idle (rt.putOutput output) := by
  refine idle_bind (idle_ofExcept _) fun _ => ?_
  refine idle_bind (idle_issue rfl) fun _ => ?_
  refine idle_bind (idle_ofExcept _) fun _ => ?_
  exact .pure _

theorem verifyOutput_idle (outputHash : Digest) : Idle (rt.verifyOutput outputHash) := by
  refine idle_bind (idle_issue rfl) fun _ => ?_
  refine idle_bind (idle_ofExcept _) fun _ => ?_
  refine idle_bind (idle_ofExcept _) fun _ => ?_
  exact idle_ofExcept _

theorem rawOutputEntries_idle (results : List RoleBenchmarkTrialResult) : Idle (rt.rawOutputEntries results) := by
  induction results with
  | nil => exact .pure _
  | cons result rest ih =>
    refine idle_bind (verifyOutput_idle _) fun _ => ?_
    refine idle_bind (idle_issue rfl) fun _ => ?_
    refine idle_bind (idle_ofExcept _) fun _ => ?_
    refine idle_bind ih fun _ => ?_
    exact .pure _

theorem buildManifest_idle (run : RoleBenchmarkRun) (results : List RoleBenchmarkTrialResult) :
    Idle (rt.buildManifest run results) := by
  refine idle_bind (idle_ofExcept _) fun _ => ?_
  refine idle_bind (rawOutputEntries_idle _) fun _ => ?_
  exact idle_ofExcept _

theorem finish_idle (manifest : RoleBenchmarkRun) : Idle (rt.finish manifest) := by
  refine idle_bind (loadResults_idle _) fun _ => ?_
  refine idle_bind (idle_ofExcept _) fun _ => ?_
  refine idle_bind (buildManifest_idle _ _) fun _ => ?_
  refine idle_bind (bindRawArtifactManifest_idle _ _) fun _ => ?_
  refine idle_bind (report_idle _) fun _ => ?_
  refine idle_bind (idle_ofExcept _) fun _ => ?_
  exact .pure _

theorem claimUntilFree_idle (run : RoleBenchmarkRun) (cellId caseId : String) (repetition : Int) (ownerId : String) (ttlMs : Int)
    (patience : Nat) : Idle (Runtime.claimUntilFree run cellId caseId repetition ownerId ttlMs patience) := by
  induction patience with
  | zero => exact .ofExcept _
  | succ patience ih =>
    refine Prog.Issues.handle (claimTrial_idle _ _ _ _ _ _) fun e => ?_
    cases e with
    | roleBenchmarkTrialBusy message => exact ih
    | _ => exact .ofExcept _

/-- The execution of a reserved trial follows its own start. -/
theorem executeTrial_paid (run : RoleBenchmarkRun) (cell : RoleBenchmarkCell) (case : RoleBenchmarkCase)
    (binding : RoleBenchmarkCaseBinding) (trial : RoleBenchmarkTrialBinding) (reservation : RoleBenchmarkTrialReservation) :
    Paid (rt.executeTrial run cell case binding trial reservation) := by
  have hstart : ∀ f : RoleBenchmarkTrialReservation → Method Unit,
      (∀ a, (f a).Solvent executionTariff fun k => if k = reservation.coordinates then 1 else 0) →
      Paid (Runtime.markTrialExecutionStarted reservation >>= f) := by
    intro f hf
    unfold Runtime.markTrialExecutionStarted
    cases ensure (reservation.executionStarted = false)
        (BenchmarkError.roleBenchmarkStoreError "trial reservation is already marked started") with
    | error e => trivial
    | ok u =>
      exact Prog.Solvent.earn (I := benchmarkInterface) (.markTrialExecutionStarted reservation) rfl (fun _ => rfl) hf
  apply hstart
  intro started
  refine Prog.Solvent.spend (I := benchmarkInterface) (.execute reservation.coordinates (rt.workItemOf case cell trial)) rfl ?_
  intro outcome
  apply Prog.Solvent.ofIssues
  exact idle_bind (idle_ofExcept _) fun _ => idle_bind (putOutput_idle _) fun _ => recordClaimedTrial_idle _ _

theorem runTrial_paid (run : RoleBenchmarkRun) (ownerId : String) (patience : Nat) (cell : RoleBenchmarkCell)
    (case : RoleBenchmarkCase) (binding : RoleBenchmarkCaseBinding) (trial : RoleBenchmarkTrialBinding) :
    Paid (rt.runTrial run ownerId patience cell case binding trial) := by
  refine Prog.Solvent.bind (claimUntilFree_idle _ _ _ _ _ _ _) fun claim => ?_
  cases claim with
  | terminal result => exact .ofIssues (verifyOutput_idle _)
  | reserved reservation => exact executeTrial_paid _ _ _ _ _ _

theorem runCell_paid (matrix : RoleBenchmarkMatrix) (run : RoleBenchmarkRun) (ownerId : String) (patience : Nat)
    (snapshot : RoleBenchmarkRunCell) : Paid (rt.runCell matrix run ownerId patience snapshot) := by
  unfold Runtime.runCell
  split
  · trivial
  · refine Prog.Solvent.forM fun binding _ => ?_
    unfold Runtime.runCase
    split
    · trivial
    · exact Prog.Solvent.forM fun trial _ => runTrial_paid _ _ _ _ _ _ _

/-- An invocation executes a trial only after it started it. -/
theorem program_paid (v : Invocation) : Paid (v.program rt) := by
  refine Prog.Solvent.bind (idle_ofExcept _) fun manifest => ?_
  refine Prog.Solvent.bind (createRun_idle manifest) fun _ => ?_
  refine Prog.Solvent.seq (Prog.Solvent.forM fun snapshot _ => runCell_paid _ _ _ _ _) fun _ => ?_
  exact .ofIssues (finish_idle manifest)

/-! What an invocation promises -/

theorem private_promises {op : BenchmarkOp} (h : ∀ t, Allowed rt t op) : Promises rt (fun _ _ => True) (issue op) t :=
  transaction_promises fun s _ _ => h s

theorem putOutput_promises (ht : Kept rt t) (output : Json) : Promises rt (fun _ _ => True) (rt.putOutput output) t := by
  refine Prog.Yields.bind ht ofExcept_promises fun _ t₁ _ ht₁ _ => ?_
  refine Prog.Yields.bind ht₁ (private_promises fun _ => trivial) fun digest t₂ _ ht₂ _ => ?_
  refine Prog.Yields.bind ht₂ ofExcept_promises fun _ t₃ _ _ _ => ?_
  exact Prog.Yields.pure fun _ _ _ => trivial

theorem verifyOutput_promises (ht : Kept rt t) (outputHash : Digest) :
    Promises rt (fun _ _ => True) (rt.verifyOutput outputHash) t := by
  refine Prog.Yields.bind ht (private_promises fun _ => trivial) fun payload t₁ _ ht₁ _ => ?_
  refine Prog.Yields.bind ht₁ ofExcept_promises fun output t₂ _ ht₂ _ => ?_
  refine Prog.Yields.bind ht₂ ofExcept_promises fun _ t₃ _ _ _ => ?_
  exact Prog.Yields.ofExcept fun _ _ _ _ _ => trivial

theorem rawOutputEntries_promises (ht : Kept rt t) (results : List RoleBenchmarkTrialResult) :
    Promises rt (fun _ _ => True) (rt.rawOutputEntries results) t := by
  induction results generalizing t with
  | nil => exact Prog.Yields.pure fun _ _ _ => trivial
  | cons result rest ih =>
    refine Prog.Yields.bind ht (verifyOutput_promises ht _) fun _ t₁ _ ht₁ _ => ?_
    refine Prog.Yields.bind ht₁ (private_promises fun _ => trivial) fun payload t₂ _ ht₂ _ => ?_
    refine Prog.Yields.bind ht₂ ofExcept_promises fun entry t₃ _ ht₃ _ => ?_
    refine Prog.Yields.bind ht₃ (ih ht₃) fun entries t₄ _ _ _ => ?_
    exact Prog.Yields.pure fun _ _ _ => trivial

theorem buildManifest_promises (ht : Kept rt t) (run : RoleBenchmarkRun) (results : List RoleBenchmarkTrialResult) :
    Promises rt (fun _ _ => True) (rt.buildManifest run results) t := by
  refine Prog.Yields.bind ht ofExcept_promises fun _ t₁ _ ht₁ _ => ?_
  refine Prog.Yields.bind ht₁ (rawOutputEntries_promises ht₁ _) fun entries t₂ _ _ _ => ?_
  exact Prog.Yields.ofExcept fun _ _ _ _ _ => trivial

theorem claimUntilFree_promises (ht : Kept rt t) (run : RoleBenchmarkRun) (cellId caseId : String) (repetition : Int)
    (ownerId : String) (ttlMs : Int) (patience : Nat) :
    Promises rt (fun _ _ => True) (Runtime.claimUntilFree run cellId caseId repetition ownerId ttlMs patience) t := by
  induction patience generalizing t with
  | zero => exact Prog.Yields.ofExcept fun _ _ _ _ _ => trivial
  | succ patience ih =>
    refine Prog.Yields.handle ht (claimTrial_promises ht _ _ _ _ _ _) fun e u _ hu => ?_
    cases e with
    | roleBenchmarkTrialBusy message => exact ih hu
    | _ => exact Prog.Yields.ofExcept fun _ _ _ _ _ => trivial

theorem executeTrial_promises (ht : Kept rt t) (run : RoleBenchmarkRun) (cell : RoleBenchmarkCell) (case : RoleBenchmarkCase)
    (binding : RoleBenchmarkCaseBinding) (trial : RoleBenchmarkTrialBinding) (reservation : RoleBenchmarkTrialReservation) :
    Promises rt (fun _ _ => True) (rt.executeTrial run cell case binding trial reservation) t := by
  refine Prog.Yields.bind ht (markTrialExecutionStarted_promises ht _) fun started t₁ _ ht₁ _ => ?_
  refine Prog.Yields.bind ht₁ (private_promises fun _ => trivial) fun outcome t₂ _ ht₂ _ => ?_
  refine Prog.Yields.bind ht₂ ofExcept_promises fun _ t₃ _ ht₃ _ => ?_
  refine Prog.Yields.bind ht₃ (putOutput_promises ht₃ _) fun outputHash t₄ _ ht₄ _ => ?_
  exact recordClaimedTrial_promises ht₄ _ _

theorem runTrial_promises (ht : Kept rt t) (run : RoleBenchmarkRun) (ownerId : String) (patience : Nat) (cell : RoleBenchmarkCell)
    (case : RoleBenchmarkCase) (binding : RoleBenchmarkCaseBinding) (trial : RoleBenchmarkTrialBinding) :
    Promises rt (fun _ _ => True) (rt.runTrial run ownerId patience cell case binding trial) t := by
  refine Prog.Yields.bind ht (claimUntilFree_promises ht _ _ _ _ _ _ _) fun claim t₁ _ ht₁ _ => ?_
  cases claim with
  | terminal result => exact verifyOutput_promises ht₁ _
  | reserved reservation => exact executeTrial_promises ht₁ _ _ _ _ _ _

theorem runCell_promises (ht : Kept rt t) (matrix : RoleBenchmarkMatrix) (run : RoleBenchmarkRun) (ownerId : String)
    (patience : Nat) (snapshot : RoleBenchmarkRunCell) :
    Promises rt (fun _ _ => True) (rt.runCell matrix run ownerId patience snapshot) t := by
  unfold Runtime.runCell
  split
  · exact Prog.Yields.ofExcept fun _ _ _ _ _ => trivial
  · refine Prog.Yields.forM ht fun binding _ t₁ ht₁ => ?_
    unfold Runtime.runCase
    split
    · exact Prog.Yields.ofExcept fun _ _ _ _ _ => trivial
    · exact Prog.Yields.forM ht₁ fun trial _ t₂ ht₂ => runTrial_promises ht₂ _ _ _ _ _ _ _

/-- A report once made stays the one its store holds. -/
theorem Reported.evolve {runId : String} {report : RoleBenchmarkReport} {u : Tables} (h : Reported rt runId report t)
    (ht : Kept rt t) (hu : Kept rt u) (he : Evolves t u) : Reported rt runId report u := by
  obtain ⟨run, bound, metrics, hrun, hm, hbound, hreport⟩ := h
  have hfinal := ht.results_final hu he hrun hm
  exact ⟨run, bound, metrics, he.runs _ _ hrun, by rw [hfinal]; exact hm, he.artifacts _ _ hbound, by rw [hfinal]; exact hreport⟩

/-- The report of a stored run is about that run. -/
theorem Reported.run_eq {runId : String} {report : RoleBenchmarkReport} (h : Reported rt runId report t) {run : RoleBenchmarkRun}
    (hrun : t.runs.lookup runId = some run) : report.run = run ∧ rt.validateReport report = .ok () := by
  obtain ⟨stored, bound, metrics, hstored, -, -, hreport⟩ := h
  cases hstored.symm.trans hrun
  unfold Runtime.reportOf at hreport
  simp only at hreport
  split at hreport
  · obtain ⟨metrics', -, hreport⟩ := bind_eq_ok.mp hreport
    obtain ⟨_, hvalid, hreport⟩ := bind_eq_ok.mp hreport
    cases hreport
    exact ⟨rfl, hvalid⟩
  · cases hreport

/-- What an invocation returns: the report its store holds of the manifest of its arguments. -/
def Returned (rt : Runtime) (v : Invocation) (report : RoleBenchmarkReport) (t : Tables) : Prop :=
  rt.manifestOf v.matrix v.readiness v.runId = .ok report.run ∧ Reported rt v.runId.value report t ∧
    rt.validateReport report = .ok ()

theorem manifestOf_runId {matrix : RoleBenchmarkMatrix} {readiness : RoleBenchmarkReadinessReport} {runId : Identifier}
    {manifest : RoleBenchmarkRun} (h : rt.manifestOf matrix readiness runId = .ok manifest) : manifest.runId = runId := by
  obtain ⟨preflight, -, h⟩ := bind_eq_ok.mp h
  obtain ⟨-, h⟩ := ensure_bind_eq_ok.mp h
  obtain ⟨-, h⟩ := ensure_bind_eq_ok.mp h
  obtain ⟨cells, -, h⟩ := bind_eq_ok.mp h
  unfold Runtime.runOf at h
  split at h
  · cases h
    rfl
  · cases h

theorem program_promises (ht : Kept rt t) (v : Invocation) : Promises rt (Returned rt v) (v.program rt) t := by
  refine Prog.Yields.bind ht ofExcept_promises fun manifest t₁ _ ht₁ hmanifest => ?_
  refine Prog.Yields.bind ht₁ (createRun_promises ht₁ manifest) fun _ t₂ _ ht₂ hrun => ?_
  refine Prog.Yields.bind ht₂ (Prog.Yields.forM ht₂ fun snapshot _ u hu => runCell_promises hu _ _ _ _ _) fun _ t₃ he₃ ht₃ _ => ?_
  refine Prog.Yields.bind ht₃ (loadResults_promises ht₃ _) fun results t₄ he₄ ht₄ _ => ?_
  refine Prog.Yields.bind ht₄ ofExcept_promises fun _ t₅ he₅ ht₅ _ => ?_
  refine Prog.Yields.bind ht₅ (buildManifest_promises ht₅ _ _) fun rawManifest t₆ he₆ ht₆ _ => ?_
  refine Prog.Yields.bind ht₆ (bindRawArtifactManifest_promises ht₆ _ _) fun _ t₇ he₇ ht₇ _ => ?_
  refine Prog.Yields.bind ht₇ (report_promises ht₇ _) fun report t₈ he₈ ht₈ hreport => ?_
  refine Prog.Yields.bind ht₈ ofExcept_promises fun _ t₉ he₉ ht₉ _ => ?_
  refine Prog.Yields.pure fun u hu hku => ?_
  have hevolves : Evolves t₂ u :=
    (he₃.trans he₄).trans ((he₅.trans he₆).trans ((he₇.trans he₈).trans (he₉.trans hu)))
  have hreported := hreport.evolve ht₈ hku (he₉.trans hu)
  obtain ⟨hreportRun, hvalid⟩ := hreported.run_eq (hevolves.runs _ _ hrun)
  rw [manifestOf_runId hmanifest] at hreported
  exact ⟨by rw [hreportRun]; exact hmanifest, hreported, hvalid⟩

/-! One result for each coordinate -/

/-- The loop over the results takes each coordinate once, and only frozen ones. -/
theorem checkResults_spec {run : RoleBenchmarkRun} {observed : List TrialKey} {results : List RoleBenchmarkTrialResult}
    (h : rt.checkResults run observed results = .ok ()) : (results.map (·.key)).Nodup ∧
      ∀ result ∈ results, result.key ∉ observed ∧ ∃ entry ∈ run.expected, entry.1 = result.key := by
  induction results generalizing observed with
  | nil => simp
  | cons result rest ih =>
    obtain ⟨hnew, h⟩ := ensure_bind_eq_ok.mp h
    obtain ⟨_, hbinding, h⟩ := bind_eq_ok.mp h
    obtain ⟨hnodup, hrest⟩ := ih h
    refine ⟨?_, ?_⟩
    · rw [List.map_cons, List.nodup_cons]
      refine ⟨?_, hnodup⟩
      intro hmem
      obtain ⟨other, hother, hkey⟩ := List.mem_map.mp hmem
      exact (hrest other hother).1 (hkey ▸ List.mem_cons_self)
    · intro other hother
      rcases List.mem_cons.mp hother with rfl | hother
      · refine ⟨hnew, ?_⟩
        unfold Runtime.checkFrozenBinding at hbinding
        split at hbinding
        · cases hbinding
        · next cell case trial hlookup =>
          obtain ⟨front, back, hexpected, -⟩ := List.lookup_eq_some_iff.mp hlookup
          exact ⟨(other.key, cell, case, trial), by simp [hexpected], rfl⟩
      · obtain ⟨hfresh, hfrozen⟩ := hrest other hother
        exact ⟨fun hmem => hfresh (List.mem_cons_of_mem _ hmem), hfrozen⟩

/-- A report has exactly one result for each frozen trial, and no other. -/
def OneResultEach (report : RoleBenchmarkReport) : Prop :=
  (∀ entry ∈ report.run.expected, report.results.countP (fun result => result.key = entry.1) = 1) ∧
    ∀ result ∈ report.results, ∃ entry ∈ report.run.expected, entry.1 = result.key

theorem oneResultEach_of_valid {report : RoleBenchmarkReport} (h : rt.validateReport report = .ok ()) : OneResultEach report := by
  have ha := accepted_of_validateReport h
  have hm := ha.metrics
  obtain ⟨-, hchecked⟩ := ensure_bind_eq_ok.mp hm
  obtain ⟨_, hchecked, -⟩ := bind_eq_ok.mp hchecked
  rw [← ha.ordered] at hchecked
  obtain ⟨hnodup, hfrozen⟩ := checkResults_spec hchecked
  refine ⟨?_, fun result hr => (hfrozen result hr).2⟩
  intro entry he
  obtain ⟨result, hr, hkey⟩ := validatedReportMetrics_covers hm he
  have hcount : (report.results.map (·.key)).count entry.1 = 1 :=
    List.count_eq_one_of_mem hnodup (hkey ▸ List.mem_map_of_mem hr)
  rw [List.count, List.countP_map] at hcount
  rw [← hcount]
  apply List.countP_congr
  intro x _
  simp

/-! All invocations of one store -/

variable {θ : Type} [DecidableEq θ]

/-- Any number of invocations of `run` on a new store, after the steps of a schedule. -/
def afterInvocations (rt : Runtime) (invocations : θ → Invocation) (labels : List (θ × Reading)) :
    Pool benchmarkInterface BenchmarkError Tables θ RoleBenchmarkReport :=
  run (Pool.step rt.exec) ⟨.empty, fun i => (invocations i).program rt⟩ labels

/-- The operations of those steps, with the replies to them. -/
def traceOf (rt : Runtime) (invocations : θ → Invocation) (labels : List (θ × Reading)) :
    List (Event benchmarkInterface BenchmarkError θ) :=
  Pool.trace rt.exec ⟨.empty, fun i => (invocations i).program rt⟩ labels

/-- How often the executor was called for the trial. -/
def executionsOf (k : Coordinates) (trace : List (Event benchmarkInterface BenchmarkError θ)) : Nat :=
  trace.countP fun e => executionTariff.spends e.op = some k

omit [DecidableEq θ] in
theorem starts_eq_earned (k : Coordinates) (trace : List (Event benchmarkInterface BenchmarkError θ)) :
    startsOf k (trialHistory trace) = trace.countP fun e => executionTariff.earns e.op e.reply = some k := by
  induction trace with
  | nil => rfl
  | cons e trace ih =>
    unfold trialHistory startsOf at ih ⊢
    rw [List.filterMap_cons, List.countP_cons, ← ih]
    obtain ⟨thread, op, reply⟩ := e
    cases op with
    | markTrialExecutionStarted reservation =>
      cases reply with
      | error e => simp [trialEvent, executionTariff]
      | ok a => simp [trialEvent, executionTariff, List.countP_cons, TrialEvent.startsAt]
    | claimTrial run k' ownerId ttlMs =>
      rcases reply with e | (result | reservation) <;>
        simp [trialEvent, executionTariff, TrialEvent.startsAt]
    | abandonTrial reservation =>
      rcases reply with e | a <;> simp [trialEvent, executionTariff, TrialEvent.startsAt]
    | recordClaimedTrial reservation result =>
      rcases reply with e | a <;> simp [trialEvent, executionTariff, TrialEvent.startsAt]
    | _ => simp [trialEvent, executionTariff]

omit [DecidableEq θ] in
theorem invocations_sound (rt : Runtime) (invocations : θ → Invocation) :
    (⟨.empty, fun i => (invocations i).program rt⟩ : Pool benchmarkInterface BenchmarkError Tables θ RoleBenchmarkReport).Sound
      (protocol rt) fun i r t => ∀ report, r = .ok report → Returned rt (invocations i) report t :=
  ⟨kept_empty, fun i => program_promises kept_empty (invocations i)⟩

/-- However invocations interleave, wherever they stop and whatever the executors answer: two
that return under one run identifier return one report, no trial is executed twice, and a
returned report is the manifest's own with one result for each frozen trial. -/
theorem invocations_agree (rt : Runtime) (invocations : θ → Invocation) (labels : List (θ × Reading)) :
    let threads := (afterInvocations rt invocations labels).threads
    (∀ i j r s, threads i = .done (.ok r) → threads j = .done (.ok s) → (invocations i).runId = (invocations j).runId → r = s) ∧
    (∀ k, executionsOf k (traceOf rt invocations labels) ≤ 1) ∧
    ∀ i r, threads i = .done (.ok r) →
      rt.manifestOf (invocations i).matrix (invocations i).readiness (invocations i).runId = .ok r.run ∧ OneResultEach r := by
  intro threads
  have hsound := ((invocations_sound rt invocations).run (always_admitted rt _ labels)).1
  have hreturned : ∀ i r, threads i = .done (.ok r) →
    Returned rt (invocations i) r (afterInvocations rt invocations labels).state :=
    fun i r hr => hsound.result hr r rfl
  refine ⟨?_, ?_, ?_⟩
  · intro i j r s hr hs hid
    obtain ⟨-, ⟨run, bound, -, hrun, -, hbound, hreport⟩, -⟩ := hreturned i r hr
    obtain ⟨-, ⟨run', bound', -, hrun', -, hbound', hreport'⟩, -⟩ := hreturned j s hs
    rw [← hid] at hrun' hbound' hreport'
    cases hrun.symm.trans hrun'
    cases hbound.symm.trans hbound'
    exact Except.ok.inj (hreport.symm.trans hreport')
  · intro k
    have htracked : Tracked (afterInvocations rt invocations labels).state (trialHistory (traceOf rt invocations labels)) :=
      sound_traced (invocations_sound rt invocations) (T := fun history t => Tracked t history) tracked_empty
        (fun j i hs ha ht => exec_tracked hs ha i ht j) labels
    refine spent_once executionTariff (fun i => ?_) ?_
    · have hspent := spent_le_earned executionTariff rt.exec ⟨.empty, fun i => (invocations i).program rt⟩ (fun _ _ => 0)
        (fun i => program_paid (invocations i)) labels i k
      simpa [traceOf] using hspent
    · rw [← starts_eq_earned, htracked.starts k]
      exact Bool.toNat_le _
  · intro i r hr
    obtain ⟨hmanifest, -, hvalid⟩ := hreturned i r hr
    exact ⟨hmanifest, oneResultEach_of_valid hvalid⟩

end Autolean.Benchmarks
