import Autolean.Benchmarks.Trials

/-! What every method of the store promises: it issues a transaction only after the checks
that make its rows lawful, and whatever other callers do meanwhile those checks stay true. -/
namespace Autolean.Benchmarks
open Contracts Machine Machine.Raising

variable {rt : Runtime} {t t' : Tables} {k : Coordinates}

/-! One transaction -/

theorem Kept.createRun (h : Kept rt t) {run : RoleBenchmarkRun} (hv : rt.RunValid run)
    (hx : Runtime.createRunTransaction run t = .ok ((), t')) : Kept rt t' ∧ Evolves t t' := by
  rcases Runtime.createRun_cases hx with ⟨hnone, rfl⟩ | ⟨-, rfl⟩
  · have hlookup : ∀ runId stored, t.runs.lookup runId = some stored →
        (t.runs.insert run.runId.value run).lookup runId = some stored := by
      intro runId stored hs
      have hne : runId ≠ run.runId.value := by
        rintro rfl
        rw [hnone] at hs
        cases hs
      rwa [AList.lookup_insert_ne hne]
    have he : Evolves t { t with runs := t.runs.insert run.runId.value run } :=
      ⟨hlookup, List.suffix_refl _, fun _ _ hs => hs⟩
    refine ⟨⟨?_, ?_, ?_, ?_⟩, he⟩
    · intro runId stored hs
      by_cases hid : runId = run.runId.value
      · subst hid
        rw [AList.lookup_insert] at hs
        cases hs
        exact ⟨hv, rfl⟩
      · rw [AList.lookup_insert_ne hid] at hs
        exact h.runs runId stored hs
    · intro k result hs
      obtain ⟨hk, hr, stored, hstored, hb⟩ := h.trials k result hs
      exact ⟨hk, hr, stored, hlookup _ _ hstored, hb⟩
    · intro runId manifestHash hs
      obtain ⟨hhash, stored, metrics, hstored, hm⟩ := h.artifacts runId manifestHash hs
      exact ⟨hhash, stored, metrics, hlookup _ _ hstored, hm⟩
    · intro k row hs
      obtain ⟨hshape, hterminal, stored, binding, hstored, hb⟩ := h.claims k row hs
      exact ⟨hshape, hterminal, stored, binding, hlookup _ _ hstored, hb⟩
  · exact ⟨h, .refl _⟩

/-- A claim is written for a frozen trial that has no result. -/
theorem Kept.setClaim (h : Kept rt t) {row : ClaimRow} (hshape : Runtime.ClaimShaped row) (hterminal : t.trials.lookup k = none)
    (hrun : ∃ run binding, t.runs.lookup k.runId = some run ∧ run.findTrial k.cellId k.caseId k.repetition = some binding) :
    Kept rt (t.setClaim k row) ∧ Evolves t (t.setClaim k row) := by
  refine ⟨⟨h.runs, h.trials, h.artifacts, ?_⟩, fun _ _ hs => hs, List.suffix_refl _, fun _ _ hs => hs⟩
  intro k' row' hs
  by_cases hk : k' = k
  · subst hk
    rw [Tables.setClaim, AList.lookup_insert] at hs
    cases hs
    exact ⟨hshape, hterminal, hrun⟩
  · rw [Tables.setClaim, AList.lookup_insert_ne hk] at hs
    exact h.claims k' row' hs

theorem lookup_of_erase {claims : AList fun _ : Coordinates => ClaimRow} {k' : Coordinates} {row : ClaimRow}
    (h : (claims.erase k).lookup k' = some row) : k' ≠ k ∧ claims.lookup k' = some row := by
  have hne : k' ≠ k := by
    rintro rfl
    rw [AList.lookup_erase] at h
    cases h
  exact ⟨hne, by rwa [AList.lookup_erase_ne hne] at h⟩

theorem Kept.eraseClaim (h : Kept rt t) : Kept rt { t with claims := t.claims.erase k } ∧
    Evolves t { t with claims := t.claims.erase k } := by
  refine ⟨⟨h.runs, h.trials, h.artifacts, ?_⟩, fun _ _ hs => hs, List.suffix_refl _, fun _ _ hs => hs⟩
  exact fun k' row hs => h.claims k' row (lookup_of_erase hs).2

theorem Tables.resultsOf_insert {result : RoleBenchmarkTrialResult} (hnone : t.trials.lookup k = none) {runId : String}
    (hid : k.runId ≠ runId) : ({ t with trials := t.trials.insert k result } : Tables).resultsOf runId = t.resultsOf runId := by
  have hk : k ∉ t.trials := AList.lookup_eq_none.mp hnone
  have hentries : (t.trials.insert k result).entries = ⟨k, result⟩ :: t.trials.entries :=
    AList.entries_insert_of_notMem hk
  simp only [Tables.resultsOf, hentries, List.filter_cons, hid, decide_false, Bool.false_eq_true, if_false]

/-- The terminal result of a claimed trial takes the place of its claim. -/
theorem Kept.terminate (h : Kept rt t) {result : RoleBenchmarkTrialResult} {row : ClaimRow}
    (hclaim : t.claims.lookup result.coordinates = some row) (hv : rt.ResultValid result) {run : RoleBenchmarkRun}
    (hrun : t.runs.lookup result.runId.value = some run) (hb : rt.validateResultBinding run result = .ok ()) :
    Kept rt { t with trials := t.trials.insert result.coordinates result, claims := t.claims.erase result.coordinates } ∧
      Evolves t { t with trials := t.trials.insert result.coordinates result, claims := t.claims.erase result.coordinates } := by
  obtain ⟨-, hnone, -⟩ := h.claims _ row hclaim
  have hk : result.coordinates ∉ t.trials := AList.lookup_eq_none.mp hnone
  refine ⟨⟨h.runs, ?_, ?_, ?_⟩, fun _ _ hs => hs, ?_, fun _ _ hs => hs⟩
  · intro k' result' hs
    by_cases hk' : k' = result.coordinates
    · subst hk'
      rw [AList.lookup_insert] at hs
      cases hs
      exact ⟨rfl, hv, run, hrun, hb⟩
    · rw [AList.lookup_insert_ne hk'] at hs
      exact h.trials k' result' hs
  · intro runId manifestHash hs
    obtain ⟨hhash, stored, metrics, hstored, hm⟩ := h.artifacts runId manifestHash hs
    refine ⟨hhash, stored, metrics, hstored, ?_⟩
    have hid : result.coordinates.runId ≠ runId := by
      rintro rfl
      cases hstored.symm.trans hrun
      obtain ⟨binding, hbinding, -⟩ := bind_eq_ok.mp hb
      obtain ⟨old, hold⟩ := h.terminal hm (trialBinding_eq_ok.mp hbinding)
      rw [hnone] at hold
      cases hold
    rw [← hm]
    exact congrArg _ (Tables.resultsOf_insert hnone hid)
  · intro k' row' hs
    obtain ⟨hne, hlookup⟩ := lookup_of_erase hs
    rw [AList.lookup_insert_ne hne]
    exact h.claims k' row' hlookup
  · rw [AList.entries_insert_of_notMem hk]
    exact List.suffix_cons _ _

theorem Kept.bind (h : Kept rt t) {runId manifestHash : String} (hhash : IsSha256 manifestHash) (hc : Complete rt t runId)
    (hx : Runtime.bindTransaction runId manifestHash t = .ok ((), t')) : Kept rt t' ∧ Evolves t t' := by
  rcases Runtime.bind_cases hx with ⟨hnone, rfl⟩ | ⟨-, rfl⟩
  · refine ⟨⟨h.runs, h.trials, ?_, h.claims⟩, fun _ _ hs => hs, List.suffix_refl _, ?_⟩
    · intro id stored hs
      by_cases hid : id = runId
      · subst hid
        rw [AList.lookup_insert] at hs
        cases hs
        exact ⟨hhash, hc⟩
      · rw [AList.lookup_insert_ne hid] at hs
        exact h.artifacts id stored hs
    · intro id stored hs
      have hne : id ≠ runId := by
        rintro rfl
        rw [hnone] at hs
        cases hs
      rwa [AList.lookup_insert_ne hne]
  · exact ⟨h, .refl _⟩

/-! The protocol -/

/-- What a method has checked before it issues a transaction. -/
def Allowed (rt : Runtime) (t : Tables) : BenchmarkOp → Prop
  | .createRun run => rt.RunValid run
  | .claimTrial run k ownerId _ => Runtime.OwnerShaped ownerId ∧ t.runs.lookup k.runId = some run ∧
    ∃ binding, run.findTrial k.cellId k.caseId k.repetition = some binding
  | .recordClaimedTrial reservation result => reservation.coordinates = result.coordinates ∧ rt.ResultValid result ∧
    ∃ run, t.runs.lookup result.runId.value = some run ∧ rt.validateResultBinding run result = .ok ()
  | .bindRawArtifactManifest runId manifestHash => IsSha256 manifestHash ∧ Complete rt t runId
  | _ => True

/-- A transaction either raises and leaves the tables, or commits what it returned. -/
theorem commit_cases {α : Type} (x : Outcome (α × Tables)) (t : Tables) :
    (∃ e, commit x t = (.error e, t)) ∨ ∃ a t', x = .ok (a, t') ∧ commit x t = (.ok a, t') := by
  cases x with
  | error e => exact .inl ⟨e, rfl⟩
  | ok r => exact .inr ⟨r.1, r.2, rfl, rfl⟩

theorem claimShaped_start {row : ClaimRow} {ns : Int} (h : Runtime.ClaimShaped row) (hns : 1 ≤ ns) :
    Runtime.ClaimShaped (row.start ns) := by
  obtain ⟨howner, htoken, hexpires, -, -⟩ := h
  exact ⟨howner, htoken, hexpires, fun hs => by simp [ClaimRow.start] at hs, fun _ => ⟨ns, rfl, hns⟩⟩

/-- Every allowed operation keeps the rows lawful and what is stored in place. -/
theorem exec_keeps (h : Kept rt t) {op : BenchmarkOp} (ha : Allowed rt t op) (i : Reading) :
    Kept rt (rt.exec op i t).2 ∧ Evolves t (rt.exec op i t).2 := by
  have hstay : Kept rt t ∧ Evolves t t := ⟨h, .refl t⟩
  cases op with
  | selectRun | selectResults | selectArtifact | execute | putBytes | getBytes => exact hstay
  | createRun run =>
    simp only [Runtime.exec]
    rcases commit_cases (Runtime.createRunTransaction run t) t with ⟨e, he⟩ | ⟨a, t', hx, he⟩
    · rw [he]; exact hstay
    · rw [he]; exact h.createRun ha hx
  | claimTrial run k ownerId ttlMs =>
    simp only [Runtime.exec]
    rcases commit_cases (rt.claimTrialTransaction run k ownerId ttlMs i.timeNs t) t with ⟨e, he⟩ | ⟨a, t', hx, he⟩
    · rw [he]; exact hstay
    · rw [he]
      obtain ⟨howner, hrun, binding, hb⟩ := ha
      rcases Runtime.claimTrial_cases hx with ⟨result, -, -, rfl⟩ | ⟨hnone, -, htoken, expires, hexpires, -, rfl⟩
      · exact hstay
      · exact h.setClaim ⟨howner, htoken, hexpires, fun _ => rfl, fun hs => by cases hs⟩ hnone ⟨run, binding, hrun, hb⟩
  | markTrialExecutionStarted reservation =>
    simp only [Runtime.exec]
    rcases commit_cases (Runtime.markTransaction reservation i.timeNs t) t with ⟨e, he⟩ | ⟨a, t', hx, he⟩
    · rw [he]; exact hstay
    · rw [he]
      obtain ⟨row, hrow, -, -, hns, -, rfl⟩ := Runtime.mark_cases hx
      obtain ⟨hshape, hnone, hrun⟩ := h.claims _ row hrow
      exact h.setClaim (claimShaped_start hshape hns) hnone hrun
  | abandonTrial reservation =>
    simp only [Runtime.exec]
    rcases commit_cases (Runtime.abandonTransaction reservation t) t with ⟨e, he⟩ | ⟨a, t', hx, he⟩
    · rw [he]; exact hstay
    · rw [he]
      obtain ⟨row, -, -, -, rfl⟩ := Runtime.abandon_cases hx
      exact h.eraseClaim
  | recordClaimedTrial reservation result =>
    simp only [Runtime.exec]
    rcases commit_cases (Runtime.recordTransaction reservation result i.timeNs t) t with ⟨e, he⟩ | ⟨a, t', hx, he⟩
    · rw [he]; exact hstay
    · rw [he]
      obtain ⟨hk, hv, run, hrun, hb⟩ := ha
      obtain ⟨row, stored, hrow, -, -, hstored, rfl⟩ := Runtime.record_cases hx
      rw [hk] at hrow ⊢
      rcases Runtime.storeResult_cases hstored with ⟨-, rfl⟩ | ⟨hsome, -⟩
      · exact h.terminate hrow hv hrun hb
      · rw [(h.claims _ row hrow).2.1] at hsome
        cases hsome
  | bindRawArtifactManifest runId manifestHash =>
    simp only [Runtime.exec]
    rcases commit_cases (Runtime.bindTransaction runId manifestHash t) t with ⟨e, he⟩ | ⟨a, t', hx, he⟩
    · rw [he]; exact hstay
    · rw [he]; exact h.bind ha.1 ha.2 hx

/-- Callers of the store, at any clock readings. -/
def protocol (rt : Runtime) : Protocol benchmarkInterface BenchmarkError Reading Tables where
  exec := rt.exec
  Inv := Kept rt
  Evolves := Evolves
  Allowed := Allowed rt
  may _ _ _ := True
  refl := Evolves.refl
  trans := Evolves.trans
  step h ha _ := exec_keeps h ha _

/-! The methods -/

variable {α : Type}

/-- The method keeps the protocol, and `Q` holds of what it returns from then on. -/
abbrev Promises (rt : Runtime) (Q : α → Tables → Prop) (m : Method α) (t : Tables) : Prop := m.Yields (protocol rt) Q t

theorem ofExcept_promises {x : Outcome α} : Promises rt (fun a _ => x = .ok a) (Prog.ofExcept x) t :=
  Prog.Yields.ofExcept fun _ ha _ _ _ => ha

theorem ensure_promises {c : Prop} [Decidable c] {e : BenchmarkError} :
    Promises rt (fun _ _ => c) (Prog.ofExcept (ensure c e)) t :=
  Prog.Yields.ofExcept fun _ ha _ _ _ => ensure_eq_ok.mp ha

/-- Issue a transaction whose checks hold from now on. -/
theorem issue_promises {op : BenchmarkOp} {Q : op.Res → Tables → Prop}
    (ha : ∀ s, Evolves t s → Kept rt s → Allowed rt s op)
    (hq : ∀ s i a, Evolves t s → Kept rt s → (rt.exec op i s).1 = .ok a → ∀ u, Evolves (rt.exec op i s).2 u → Kept rt u → Q a u) :
    Promises rt Q (issue op) t :=
  Prog.Yields.perform (I := benchmarkInterface) ha fun s i a he hi _ hr => hq s i a he hi hr

theorem transaction_promises {op : BenchmarkOp} (ha : ∀ s, Evolves t s → Kept rt s → Allowed rt s op) :
    Promises rt (fun _ _ => True) (issue op) t :=
  issue_promises ha fun _ _ _ _ _ _ _ _ _ => trivial

theorem loadRun_promises (runId : String) :
    Promises rt (fun run s => s.runs.lookup runId = some run ∧ rt.RunValid run) (Runtime.loadRun runId) t := by
  refine issue_promises (fun _ _ _ => trivial) ?_
  intro s i run _ hs hr u hu _
  simp only [Runtime.exec, Runtime.selectRun] at hr
  cases hlookup : s.runs.lookup runId with
  | none => simp [hlookup] at hr
  | some stored =>
    simp only [hlookup] at hr
    obtain ⟨hv, hstored⟩ := ensure_bind_eq_ok.mp hr
    cases hstored
    exact ⟨hu.runs _ _ hlookup, hv⟩

/-- The results are those some earlier state held for the run. -/
def Loaded (rt : Runtime) (runId : String) (results : List RoleBenchmarkTrialResult) (t : Tables) : Prop :=
  ∃ s, Kept rt s ∧ Evolves s t ∧ results = s.resultsOf runId ∧ ∃ run, s.runs.lookup runId = some run

theorem checkedResult_eq {runId : String} {run : RoleBenchmarkRun} {stored result : RoleBenchmarkTrialResult}
    (h : rt.checkedResult runId run stored = .ok result) : result = stored := by
  obtain ⟨parsed, hparse, h⟩ := bind_eq_ok.mp h
  obtain ⟨-, h⟩ := ensure_bind_eq_ok.mp h
  obtain ⟨-, -, h⟩ := bind_eq_ok.mp h
  obtain ⟨-, hparsed⟩ := ensure_bind_eq_ok.mp hparse
  cases h
  cases hparsed
  rfl

theorem mapM_checkedResult {runId : String} {run : RoleBenchmarkRun} {rows results : List RoleBenchmarkTrialResult}
    (h : rows.mapM (rt.checkedResult runId run) = .ok results) : results = rows := by
  induction rows generalizing results with
  | nil =>
    cases h
    rfl
  | cons row rows ih =>
    rw [List.mapM_cons] at h
    obtain ⟨result, hrow, h⟩ := bind_eq_ok.mp h
    obtain ⟨rest, hrest, h⟩ := bind_eq_ok.mp h
    cases h
    rw [checkedResult_eq hrow, ih hrest]

theorem loadResults_promises (ht : Kept rt t) (runId : String) : Promises rt (Loaded rt runId) (rt.loadResults runId) t := by
  unfold Runtime.loadResults
  refine Prog.Yields.bind ht (loadRun_promises runId) ?_
  intro run t₁ _ ht₁ hrun
  refine Prog.Yields.bind ht₁ (Q := Loaded rt runId) (issue_promises (fun _ _ _ => trivial) ?_) ?_
  · intro s i rows he hs hr u hu _
    simp only [Runtime.exec, Except.ok.injEq] at hr
    exact ⟨s, hs, hu, hr.symm, run, he.runs _ _ hrun.1⟩
  · intro rows t₂ _ _ hrows
    refine Prog.Yields.ofExcept ?_
    intro results hresults u hu _
    obtain ⟨s, hs, he, hr, hrun'⟩ := hrows
    exact ⟨s, hs, he.trans hu, (mapM_checkedResult hresults).trans hr, hrun'⟩

/-- Metrics computed from loaded results show the run complete. -/
theorem Loaded.complete {runId : String} {results : List RoleBenchmarkTrialResult}
    (h : Loaded rt runId results t) (ht : Kept rt t)
    {run : RoleBenchmarkRun} (hrun : t.runs.lookup runId = some run) {metrics : List RoleBenchmarkCellMetrics}
    (hm : rt.validatedReportMetrics run results = .ok metrics) : t.resultsOf runId = results ∧ Complete rt t runId := by
  obtain ⟨s, hs, he, rfl, stored, hstored⟩ := h
  rw [he.runs _ _ hstored] at hrun
  cases hrun
  exact ⟨hs.results_final ht he hstored hm, hs.complete ht he ⟨_, metrics, hstored, hm⟩⟩

/-- After `create_run` the store holds the run for good. -/
theorem createRun_promises (ht : Kept rt t) (run : RoleBenchmarkRun) :
    Promises rt (fun _ s => s.runs.lookup run.runId.value = some run) (rt.createRun run) t := by
  refine Prog.Yields.bind ht ensure_promises fun _ _ _ _ hv => ?_
  refine issue_promises (fun _ _ _ => hv) ?_
  intro s i a _ _ hr u hu _
  simp only [Runtime.exec] at hr hu
  rcases commit_cases (Runtime.createRunTransaction run s) s with ⟨e, he⟩ | ⟨b, s', hx, he⟩
  · rw [he] at hr
    cases hr
  · rw [he] at hu
    apply hu.runs
    rcases Runtime.createRun_cases hx with ⟨-, rfl⟩ | ⟨hsome, rfl⟩
    · exact AList.lookup_insert _
    · exact hsome

theorem claimTrial_promises (ht : Kept rt t) (run : RoleBenchmarkRun) (cellId caseId : String) (repetition : Int)
    (ownerId : String) (ttlMs : Int) :
    Promises rt (fun _ _ => True) (Runtime.claimTrial run cellId caseId repetition ownerId ttlMs) t := by
  refine Prog.Yields.bind ht ensure_promises fun _ t₁ _ ht₁ _ => ?_
  refine Prog.Yields.bind ht₁ ensure_promises fun _ t₂ _ ht₂ howner => ?_
  refine Prog.Yields.bind ht₂ ofExcept_promises fun binding t₃ _ ht₃ hb => ?_
  refine Prog.Yields.bind ht₃ (loadRun_promises _) fun stored t₄ _ ht₄ hrun => ?_
  refine Prog.Yields.bind ht₄ ensure_promises fun _ t₅ he₅ _ hstored => ?_
  apply transaction_promises
  intro s hs _
  subst hstored
  exact ⟨howner, hs.runs _ _ (he₅.runs _ _ hrun.1), binding, trialBinding_eq_ok.mp hb⟩

theorem markTrialExecutionStarted_promises (ht : Kept rt t) (reservation : RoleBenchmarkTrialReservation) :
    Promises rt (fun _ _ => True) (Runtime.markTrialExecutionStarted reservation) t :=
  Prog.Yields.bind ht ensure_promises fun _ _ _ _ _ => transaction_promises fun _ _ _ => trivial

theorem abandonTrial_promises (ht : Kept rt t) (reservation : RoleBenchmarkTrialReservation) :
    Promises rt (fun _ _ => True) (Runtime.abandonTrial reservation) t :=
  Prog.Yields.bind ht ensure_promises fun _ _ _ _ _ => transaction_promises fun _ _ _ => trivial

theorem recordClaimedTrial_promises (ht : Kept rt t) (reservation : RoleBenchmarkTrialReservation)
    (result : RoleBenchmarkTrialResult) :
    Promises rt (fun _ _ => True) (rt.recordClaimedTrial reservation result) t := by
  refine Prog.Yields.bind ht ensure_promises fun _ t₁ _ ht₁ _ => ?_
  refine Prog.Yields.bind ht₁ ensure_promises fun _ t₂ _ ht₂ hv => ?_
  refine Prog.Yields.bind ht₂ ensure_promises fun _ t₃ _ ht₃ hk => ?_
  refine Prog.Yields.bind ht₃ (loadRun_promises _) fun run t₄ _ ht₄ hrun => ?_
  refine Prog.Yields.bind ht₄ ofExcept_promises fun _ t₅ he₅ _ hb => ?_
  apply transaction_promises
  intro s hs _
  exact ⟨hk, hv, run, hs.runs _ _ (he₅.runs _ _ hrun.1), hb⟩

/-- After `bind_raw_artifact_manifest` the run is bound to the hash for good. -/
theorem bindRawArtifactManifest_promises (ht : Kept rt t) (runId manifestHash : String) :
    Promises rt (fun _ s => s.artifacts.lookup runId = some manifestHash) (rt.bindRawArtifactManifest runId manifestHash) t := by
  refine Prog.Yields.bind ht ensure_promises fun _ t₁ _ ht₁ hhash => ?_
  refine Prog.Yields.bind ht₁ (loadRun_promises _) fun run t₂ _ ht₂ hrun => ?_
  refine Prog.Yields.bind ht₂ (loadResults_promises ht₂ _) fun results t₃ he₃ ht₃ hloaded => ?_
  refine Prog.Yields.bind ht₃ ofExcept_promises fun metrics t₄ he₄ ht₄ hm => ?_
  obtain ⟨-, hc⟩ := hloaded.complete ht₃ (he₃.runs _ _ hrun.1) hm
  refine issue_promises (fun s hs hs' => ⟨hhash, ht₃.complete hs' (he₄.trans hs) hc⟩) ?_
  intro s i a _ _ hr u hu _
  simp only [Runtime.exec] at hr hu
  rcases commit_cases (Runtime.bindTransaction runId manifestHash s) s with ⟨e, he⟩ | ⟨b, s', hx, he⟩
  · rw [he] at hr
    cases hr
  · rw [he] at hu
    apply hu.artifacts
    rcases Runtime.bind_cases hx with ⟨-, rfl⟩ | ⟨hsome, rfl⟩
    · exact AList.lookup_insert _
    · exact hsome

/-- The report is the one of the stored run, its complete results and its bound manifest. -/
def Reported (rt : Runtime) (runId : String) (report : RoleBenchmarkReport) (t : Tables) : Prop :=
  ∃ run bound metrics, t.runs.lookup runId = some run ∧
    rt.validatedReportMetrics run (t.resultsOf runId) = .ok metrics ∧ t.artifacts.lookup runId = some bound ∧
    rt.reportOf run (t.resultsOf runId) (some bound) = .ok report

theorem report_promises (ht : Kept rt t) (runId : String) : Promises rt (Reported rt runId) (rt.report runId) t := by
  unfold Runtime.report
  refine Prog.Yields.bind ht (loadRun_promises _) fun run t₁ _ ht₁ hrun => ?_
  refine Prog.Yields.bind ht₁ (loadResults_promises ht₁ _) fun results t₂ he₂ ht₂ hloaded => ?_
  refine Prog.Yields.bind ht₂ ofExcept_promises fun metrics t₃ he₃ ht₃ hm => ?_
  refine Prog.Yields.bind ht₃ (Q := fun bound s => ∀ manifestHash, bound = some manifestHash →
    s.artifacts.lookup runId = some manifestHash) (issue_promises (fun _ _ _ => trivial) ?_) fun bound t₄ he₄ ht₄ hbound => ?_
  · intro s i bound _ _ hr u hu _ manifestHash hsome
    simp only [Runtime.exec, Except.ok.injEq] at hr
    exact hu.artifacts _ _ (hr.trans hsome)
  · refine Prog.Yields.ofExcept fun report hreport u hu hku => ?_
    have hrun₂ := he₂.runs _ _ hrun.1
    obtain ⟨hresults, -⟩ := hloaded.complete ht₂ hrun₂ hm
    have heu := (he₃.trans he₄).trans hu
    have hfinal : u.resultsOf runId = results := by
      rw [ht₂.results_final hku heu hrun₂ (by rw [hresults]; exact hm), hresults]
    cases bound with
    | none => simp [Runtime.reportOf] at hreport
    | some manifestHash =>
      exact ⟨run, manifestHash, metrics, heu.runs _ _ hrun₂, by rw [hfinal]; exact hm, hu.artifacts _ _ (hbound _ rfl),
        by rw [hfinal]; exact hreport⟩

/-! A reopened store -/

theorem storedRun_eq_ok {runId : String} {e : BenchmarkError} {run : RoleBenchmarkRun} :
    Runtime.storedRun t runId e = .ok run ↔ t.runs.lookup runId = some run := by
  unfold Runtime.storedRun
  cases t.runs.lookup runId <;> simp

/-- The validator of a reopened store takes every state the transactions leave. -/
theorem Kept.reopens (h : Kept rt t) : rt.validateExistingRows t = .ok () := by
  refine bind_eq_ok.mpr ⟨(), forM_eq_ok.mpr ?_, ?_⟩
  · rintro ⟨runId, run⟩ hmem
    obtain ⟨hv, hid⟩ := h.runs runId run (AList.mem_lookup_iff.mpr hmem)
    exact bind_eq_ok.mpr ⟨run, ensure_bind_eq_ok.mpr ⟨hv, rfl⟩, ensure_eq_ok.mpr hid.symm⟩
  refine bind_eq_ok.mpr ⟨(), forM_eq_ok.mpr ?_, ?_⟩
  · rintro ⟨k, result⟩ hmem
    obtain ⟨hk, hv, run, hrun, hb⟩ := h.trials k result (AList.mem_lookup_iff.mpr hmem)
    refine bind_eq_ok.mpr ⟨result, ensure_bind_eq_ok.mpr ⟨hv, rfl⟩, ensure_bind_eq_ok.mpr ⟨hk.symm, ?_⟩⟩
    exact bind_eq_ok.mpr ⟨run, storedRun_eq_ok.mpr (by rw [← hk] at hrun; exact hrun), hb⟩
  refine bind_eq_ok.mpr ⟨(), forM_eq_ok.mpr ?_, ?_⟩
  · rintro ⟨runId, manifestHash⟩ hmem
    obtain ⟨hhash, run, metrics, hrun, hm⟩ := h.artifacts runId manifestHash (AList.mem_lookup_iff.mpr hmem)
    refine bind_eq_ok.mpr ⟨run, storedRun_eq_ok.mpr hrun, ensure_bind_eq_ok.mpr ⟨hhash, ?_⟩⟩
    exact bind_eq_ok.mpr ⟨metrics, hm, rfl⟩
  refine bind_eq_ok.mpr ⟨(), forM_eq_ok.mpr ?_, ensure_eq_ok.mpr ?_⟩
  · rintro ⟨k, row⟩ hmem
    obtain ⟨hshape, -, run, binding, hrun, hb⟩ := h.claims k row (AList.mem_lookup_iff.mpr hmem)
    refine bind_eq_ok.mpr ⟨run, storedRun_eq_ok.mpr hrun, ensure_bind_eq_ok.mpr ⟨hshape, ?_⟩⟩
    exact bind_eq_ok.mpr ⟨binding, trialBinding_eq_ok.mpr hb, rfl⟩
  · rintro ⟨k, row⟩ hmem
    obtain ⟨-, hnone, -⟩ := h.claims k row (AList.mem_lookup_iff.mpr hmem)
    exact AList.lookup_eq_none.mp hnone

end Autolean.Benchmarks
