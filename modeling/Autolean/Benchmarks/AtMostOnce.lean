import Autolean.Benchmarks.StoreProtocol
import Autolean.Machine.History

/-! At most one execution of each trial. Over every interleaving of callers a trial is
started at most once, recorded at most once and only after its start, and once started it is
granted to nobody. -/
namespace Autolean.Benchmarks
open Contracts Machine Machine.Raising

/-- A method call on the store with arbitrary arguments. -/
inductive StoreCall where
  | createRun (run : RoleBenchmarkRun)
  | claimTrial (run : RoleBenchmarkRun) (cellId caseId : String) (repetition : Int) (ownerId : String) (ttlMs : Int)
  | markTrialExecutionStarted (reservation : RoleBenchmarkTrialReservation)
  | abandonTrial (reservation : RoleBenchmarkTrialReservation)
  | recordClaimedTrial (reservation : RoleBenchmarkTrialReservation) (result : RoleBenchmarkTrialResult)
  | bindRawArtifactManifest (runId manifestHash : String)

/-- The method the call runs; what it returns shows in the history. -/
def StoreCall.method (rt : Runtime) : StoreCall → Method Unit
  | createRun run => rt.createRun run
  | claimTrial run cellId caseId repetition ownerId ttlMs => do
    let _ ← Runtime.claimTrial run cellId caseId repetition ownerId ttlMs
    pure ()
  | markTrialExecutionStarted reservation => do
    let _ ← Runtime.markTrialExecutionStarted reservation
    pure ()
  | abandonTrial reservation => Runtime.abandonTrial reservation
  | recordClaimedTrial reservation result => rt.recordClaimedTrial reservation result
  | bindRawArtifactManifest runId manifestHash => rt.bindRawArtifactManifest runId manifestHash

/-- A transaction on a trial that returned, with what it was given or returned. -/
inductive TrialEvent where
  | claimed (reservation : RoleBenchmarkTrialReservation)
  | returned (k : Coordinates) (result : RoleBenchmarkTrialResult)
  | started (reservation : RoleBenchmarkTrialReservation)
  | abandoned (reservation : RoleBenchmarkTrialReservation)
  | recorded (reservation : RoleBenchmarkTrialReservation) (result : RoleBenchmarkTrialResult)

section Histories
variable {θ : Type}

/-- The trial event of one operation; a refused operation is none. -/
def trialEvent : Event benchmarkInterface BenchmarkError θ → Option TrialEvent
  | ⟨_, .claimTrial .., .ok (.reserved reservation)⟩ => some (.claimed reservation)
  | ⟨_, .claimTrial _ k _ _, .ok (.terminal result)⟩ => some (.returned k result)
  | ⟨_, .markTrialExecutionStarted reservation, .ok _⟩ => some (.started reservation)
  | ⟨_, .abandonTrial reservation, .ok _⟩ => some (.abandoned reservation)
  | ⟨_, .recordClaimedTrial reservation result, .ok _⟩ => some (.recorded reservation result)
  | _ => none

/-- The successful transactions on trials, oldest first. -/
def trialHistory (trace : List (Event benchmarkInterface BenchmarkError θ)) : List TrialEvent := trace.filterMap trialEvent

theorem trialHistory_snoc (trace : List (Event benchmarkInterface BenchmarkError θ))
    (e : Event benchmarkInterface BenchmarkError θ) :
    trialHistory (trace ++ [e]) = trialHistory trace ++ (trialEvent e).toList := by
  unfold trialHistory
  rw [List.filterMap_append]
  cases h : trialEvent e <;> simp [h]

end Histories

def TrialEvent.startsAt (k : Coordinates) : TrialEvent → Bool
  | started reservation => reservation.coordinates = k
  | _ => false

def TrialEvent.resultAt (k : Coordinates) : TrialEvent → Option RoleBenchmarkTrialResult
  | recorded reservation result => if reservation.coordinates = k then some result else none
  | _ => none

/-- How often the trial was started. -/
def startsOf (k : Coordinates) (history : List TrialEvent) : Nat := history.countP (·.startsAt k)

/-- The results recorded for the trial. -/
def recordsOf (k : Coordinates) (history : List TrialEvent) : List RoleBenchmarkTrialResult :=
  history.filterMap (·.resultAt k)

/-- What the events before it say of the trial an event is about. -/
def Justified (before : List TrialEvent) : TrialEvent → Prop
  | .claimed reservation => startsOf reservation.coordinates before = 0
  | .returned k result => recordsOf k before = [result]
  | .started reservation => startsOf reservation.coordinates before = 0
  | .abandoned reservation => startsOf reservation.coordinates before = 0
  | .recorded reservation _ => startsOf reservation.coordinates before = 1 ∧ recordsOf reservation.coordinates before = []

/-- The trial is terminal or its claim has started. -/
def Tables.begun (t : Tables) (k : Coordinates) : Bool :=
  (t.trials.lookup k).isSome || (t.claims.lookup k).any (·.executionStarted)

/-- The tables say of each trial what its history says. -/
structure Tracked (t : Tables) (history : List TrialEvent) : Prop where
  records : ∀ k, recordsOf k history = (t.trials.lookup k).toList
  starts : ∀ k, startsOf k history = (t.begun k).toNat
  order : History Justified history

variable {rt : Runtime} {t t' : Tables} {k : Coordinates} {history : List TrialEvent}

theorem tracked_empty : Tracked .empty [] := ⟨fun _ => rfl, fun _ => rfl, history_nil⟩

/-- One more event, and what it changes of its trial. -/
theorem Tracked.snoc (h : Tracked t history) {e : TrialEvent} (hj : Justified history e)
    (hr : ∀ k, (t'.trials.lookup k).toList = (t.trials.lookup k).toList ++ recordsOf k [e])
    (hs : ∀ k, (t'.begun k).toNat = (t.begun k).toNat + startsOf k [e]) : Tracked t' (history ++ [e]) := by
  refine ⟨?_, ?_, (history_concat e).mpr ⟨h.order, hj⟩⟩
  · intro k
    rw [hr, ← h.records k, recordsOf, List.filterMap_append]
    rfl
  · intro k
    rw [hs, ← h.starts k, startsOf, List.countP_append]
    rfl

/-- No event, and no trial changes its phase. -/
theorem Tracked.still (h : Tracked t history) (htrials : t'.trials = t.trials) (hs : ∀ k, t'.begun k = t.begun k) :
    Tracked t' history :=
  ⟨fun k => by rw [htrials]; exact h.records k, fun k => by rw [hs]; exact h.starts k, h.order⟩

theorem begun_setClaim {row : ClaimRow} (hnone : t.trials.lookup k = none) (k' : Coordinates) :
    (t.setClaim k row).begun k' = if k' = k then row.executionStarted else t.begun k' := by
  unfold Tables.begun Tables.setClaim
  by_cases hk : k' = k
  · subst hk
    simp [hnone]
  · simp [hk]

theorem not_begun (hnone : t.trials.lookup k = none) (hu : t.Unstarted k) : t.begun k = false := by
  unfold Tables.begun
  rw [hnone]
  cases hclaim : t.claims.lookup k with
  | none => rfl
  | some row => simpa using hu row hclaim

theorem unstarted_of_lookup {row : ClaimRow} (hrow : t.claims.lookup k = some row) (hs : row.executionStarted = false) :
    t.Unstarted k := by
  intro row' hrow'
  cases hrow.symm.trans hrow'
  exact hs

theorem Tracked.claimed (h : Tracked t history) (hnone : t.trials.lookup k = none) (hu : t.Unstarted k)
    {reservation : RoleBenchmarkTrialReservation} (hk : reservation.coordinates = k) {row : ClaimRow}
    (hrow : row.executionStarted = false) : Tracked (t.setClaim k row) (history ++ [.claimed reservation]) := by
  have hbegun := not_begun hnone hu
  refine h.snoc ?_ ?_ ?_
  · show startsOf reservation.coordinates history = 0
    rw [hk, h.starts k, hbegun]
    rfl
  · intro k'
    simp [Tables.setClaim, recordsOf, TrialEvent.resultAt]
  · intro k'
    rw [begun_setClaim hnone]
    split
    · next hk' => simp [hk', hbegun, hrow, startsOf, TrialEvent.startsAt]
    · simp [startsOf, TrialEvent.startsAt]

theorem Tracked.started (h : Tracked t history) {reservation : RoleBenchmarkTrialReservation}
    (hnone : t.trials.lookup reservation.coordinates = none) (hu : t.Unstarted reservation.coordinates) {row : ClaimRow}
    (hrow : row.executionStarted = true) :
    Tracked (t.setClaim reservation.coordinates row) (history ++ [.started reservation]) := by
  have hbegun := not_begun hnone hu
  refine h.snoc ?_ ?_ ?_
  · show startsOf reservation.coordinates history = 0
    rw [h.starts, hbegun]
    rfl
  · intro k'
    simp [Tables.setClaim, recordsOf, TrialEvent.resultAt]
  · intro k'
    rw [begun_setClaim hnone]
    by_cases hk' : k' = reservation.coordinates
    · simp [hk', hbegun, hrow, startsOf, TrialEvent.startsAt]
    · simp [hk', Ne.symm hk', startsOf, TrialEvent.startsAt]

theorem Tracked.abandoned (h : Tracked t history) {reservation : RoleBenchmarkTrialReservation}
    (hnone : t.trials.lookup reservation.coordinates = none) (hu : t.Unstarted reservation.coordinates) :
    Tracked { t with claims := t.claims.erase reservation.coordinates } (history ++ [.abandoned reservation]) := by
  have hbegun := not_begun hnone hu
  refine h.snoc ?_ ?_ ?_
  · show startsOf reservation.coordinates history = 0
    rw [h.starts, hbegun]
    rfl
  · intro k'
    simp [recordsOf, TrialEvent.resultAt]
  · intro k'
    by_cases hk' : k' = reservation.coordinates
    · rw [hk', hbegun]
      simp [Tables.begun, hnone, startsOf, TrialEvent.startsAt]
    · simp [Tables.begun, hk', startsOf, TrialEvent.startsAt]

theorem Tracked.recorded (h : Tracked t history) {reservation : RoleBenchmarkTrialReservation} {result : RoleBenchmarkTrialResult}
    {row : ClaimRow} (hnone : t.trials.lookup reservation.coordinates = none)
    (hrow : t.claims.lookup reservation.coordinates = some row) (hs : row.executionStarted = true) :
    Tracked { t with trials := t.trials.insert reservation.coordinates result, claims := t.claims.erase reservation.coordinates }
      (history ++ [.recorded reservation result]) := by
  have hbegun : t.begun reservation.coordinates = true := by simp [Tables.begun, hrow, hs]
  refine h.snoc ⟨?_, ?_⟩ ?_ ?_
  · rw [h.starts, hbegun]
    rfl
  · rw [h.records, hnone]
    rfl
  · intro k'
    by_cases hk' : k' = reservation.coordinates
    · subst hk'
      simp [hnone, recordsOf, TrialEvent.resultAt]
    · simp [hk', Ne.symm hk', recordsOf, TrialEvent.resultAt]
  · intro k'
    by_cases hk' : k' = reservation.coordinates
    · rw [hk', hbegun]
      simp [Tables.begun, startsOf, TrialEvent.startsAt]
    · simp [Tables.begun, hk', startsOf, TrialEvent.startsAt]

/-- Every allowed operation keeps the tables and the history in step. -/
theorem exec_tracked {θ : Type} (h : Kept rt t) {op : BenchmarkOp} (ha : Allowed rt t op) (i : Reading)
    (ht : Tracked t history) (j : θ) :
    Tracked (rt.exec op i t).2 (history ++ (trialEvent ⟨j, op, (rt.exec op i t).1⟩).toList) := by
  have hstay : Tracked t (history ++ (none : Option TrialEvent).toList) := by simpa using ht
  cases op with
  | selectRun | selectResults | selectArtifact | execute | putBytes | getBytes => exact hstay
  | createRun run =>
    simp only [Runtime.exec]
    rcases commit_cases (Runtime.createRunTransaction run t) t with ⟨e, he⟩ | ⟨a, t', hx, he⟩
    · rw [he]; exact hstay
    · rw [he]
      rcases Runtime.createRun_cases hx with ⟨-, rfl⟩ | ⟨-, rfl⟩
      · exact hstay.still rfl fun _ => rfl
      · exact hstay
  | claimTrial run k ownerId ttlMs =>
    simp only [Runtime.exec]
    rcases commit_cases (rt.claimTrialTransaction run k ownerId ttlMs i.timeNs t) t with ⟨e, he⟩ | ⟨a, t', hx, he⟩
    · rw [he]; exact hstay
    · rw [he]
      rcases Runtime.claimTrial_cases hx with ⟨result, hsome, rfl, rfl⟩ | ⟨hnone, hu, -, expires, -, rfl, rfl⟩
      · refine ht.snoc ?_ (fun k' => by simp [recordsOf, TrialEvent.resultAt]) (fun k' => by simp [startsOf, TrialEvent.startsAt])
        show recordsOf k history = [result]
        rw [ht.records, hsome]
        rfl
      · exact ht.claimed hnone hu rfl rfl
  | markTrialExecutionStarted reservation =>
    simp only [Runtime.exec]
    rcases commit_cases (Runtime.markTransaction reservation i.timeNs t) t with ⟨e, he⟩ | ⟨a, t', hx, he⟩
    · rw [he]; exact hstay
    · rw [he]
      obtain ⟨row, hrow, -, hs, -, -, rfl⟩ := Runtime.mark_cases hx
      exact ht.started (h.claims _ row hrow).2.1 (unstarted_of_lookup hrow hs) rfl
  | abandonTrial reservation =>
    simp only [Runtime.exec]
    rcases commit_cases (Runtime.abandonTransaction reservation t) t with ⟨e, he⟩ | ⟨a, t', hx, he⟩
    · rw [he]; exact hstay
    · rw [he]
      obtain ⟨row, hrow, -, hs, rfl⟩ := Runtime.abandon_cases hx
      exact ht.abandoned (h.claims _ row hrow).2.1 (unstarted_of_lookup hrow hs)
  | recordClaimedTrial reservation result =>
    simp only [Runtime.exec]
    rcases commit_cases (Runtime.recordTransaction reservation result i.timeNs t) t with ⟨e, he⟩ | ⟨a, t', hx, he⟩
    · rw [he]; exact hstay
    · rw [he]
      obtain ⟨row, stored, hrow, -, hs, hstored, rfl⟩ := Runtime.record_cases hx
      have hnone := (h.claims _ row hrow).2.1
      rw [← ha.1] at hstored
      rcases Runtime.storeResult_cases hstored with ⟨-, rfl⟩ | ⟨hsome, -⟩
      · exact ht.recorded hnone hrow hs
      · rw [hnone] at hsome
        cases hsome
  | bindRawArtifactManifest runId manifestHash =>
    simp only [Runtime.exec]
    rcases commit_cases (Runtime.bindTransaction runId manifestHash t) t with ⟨e, he⟩ | ⟨a, t', hx, he⟩
    · rw [he]; exact hstay
    · rw [he]
      rcases Runtime.bind_cases hx with ⟨-, rfl⟩ | ⟨-, rfl⟩
      · exact hstay.still rfl fun _ => rfl
      · exact hstay

/-! Whole runs -/

section Pools
variable {θ α : Type} [DecidableEq θ]

theorem always_admitted (rt : Runtime) (c : Pool benchmarkInterface BenchmarkError Tables θ α) (labels : List (θ × Reading)) :
    StepsMeet (Pool.step rt.exec) (Pool.Admits (protocol rt).may) c labels := by
  apply stepsMeet_of_forall
  intro c l
  unfold Pool.Admits
  split <;> trivial

/-- What every allowed operation keeps of the history, every interleaving of lawful clients keeps. -/
theorem sound_traced {post : θ → Outcome α → Tables → Prop} {c : Pool benchmarkInterface BenchmarkError Tables θ α}
    (hc : c.Sound (protocol rt) post) {T : List TrialEvent → Tables → Prop} (h0 : T [] c.state)
    (hT : ∀ {history t} {op : BenchmarkOp} (j : θ) (i : Reading), Kept rt t → Allowed rt t op → T history t →
      T (history ++ (trialEvent ⟨j, op, (rt.exec op i t).1⟩).toList) (rt.exec op i t).2) (labels : List (θ × Reading)) :
    T (trialHistory (c.trace rt.exec labels)) (run (Pool.step rt.exec) c labels).state := by
  have htraces : (protocol rt).Traces
      (fun (trace : List (Event benchmarkInterface BenchmarkError θ)) t => T (trialHistory trace) t) := by
    intro trace s j op i hs ha _ ht
    rw [trialHistory_snoc]
    exact hT j i hs ha ht
  exact Pool.Sound.traced htraces hc (h := []) h0 (always_admitted rt c labels)

end Pools

theorem method_promises (h : Kept rt t) (call : StoreCall) : Promises rt (fun _ _ => True) (call.method rt) t := by
  cases call with
  | createRun run => exact (createRun_promises h run).mono fun _ _ _ _ => trivial
  | claimTrial run cellId caseId repetition ownerId ttlMs =>
    exact Prog.Yields.bind h (claimTrial_promises h run cellId caseId repetition ownerId ttlMs) fun _ _ _ _ _ =>
      Prog.Yields.pure fun _ _ _ => trivial
  | markTrialExecutionStarted reservation =>
    exact Prog.Yields.bind h (markTrialExecutionStarted_promises h reservation) fun _ _ _ _ _ =>
      Prog.Yields.pure fun _ _ _ => trivial
  | abandonTrial reservation => exact abandonTrial_promises h reservation
  | recordClaimedTrial reservation result => exact recordClaimedTrial_promises h reservation result
  | bindRawArtifactManifest runId manifestHash =>
    exact (bindRawArtifactManifest_promises h runId manifestHash).mono fun _ _ _ _ => trivial

variable {θ : Type}

/-- Any number of callers of a new store, before any of them has run. -/
def callers (rt : Runtime) (calls : θ → StoreCall) : Pool benchmarkInterface BenchmarkError Tables θ Unit :=
  ⟨.empty, fun i => (calls i).method rt⟩

theorem callers_sound (rt : Runtime) (calls : θ → StoreCall) :
    (callers rt calls).Sound (protocol rt) fun _ r _ => ∀ a, r = .ok a → True :=
  ⟨kept_empty, fun i => method_promises kept_empty (calls i)⟩

variable [DecidableEq θ]

/-- The state after the steps a schedule takes, each with its readings. -/
def afterCalls (rt : Runtime) (calls : θ → StoreCall) (labels : List (θ × Reading)) :
    Pool benchmarkInterface BenchmarkError Tables θ Unit :=
  run (Pool.step rt.exec) (callers rt calls) labels

/-- The successful transactions on trials in those steps. -/
def historyOf (rt : Runtime) (calls : θ → StoreCall) (labels : List (θ × Reading)) : List TrialEvent :=
  trialHistory ((callers rt calls).trace rt.exec labels)

theorem calls_sound (rt : Runtime) (calls : θ → StoreCall) (labels : List (θ × Reading)) :
    (afterCalls rt calls labels).Sound (protocol rt) fun _ r _ => ∀ a, r = .ok a → True :=
  ((callers_sound rt calls).run (always_admitted rt _ labels)).1

theorem calls_evolve (rt : Runtime) (calls : θ → StoreCall) (earlier later : List (θ × Reading)) :
    Evolves (afterCalls rt calls earlier).state (afterCalls rt calls (earlier ++ later)).state := by
  unfold afterCalls
  rw [run_append]
  exact ((calls_sound rt calls earlier).run (always_admitted rt _ later)).2

theorem calls_tracked (rt : Runtime) (calls : θ → StoreCall) (labels : List (θ × Reading)) :
    Tracked (afterCalls rt calls labels).state (historyOf rt calls labels) :=
  sound_traced (callers_sound rt calls) (T := fun history t => Tracked t history) tracked_empty
    (fun j i hs ha ht => exec_tracked hs ha i ht j) labels

/-- Whatever callers do with whatever reservations, at whatever clock readings, and wherever
they stop: a trial is started at most once and recorded at most once, after its start; its
result never changes and excludes a claim; a started trial is only ever answered with its
result; and a store reopened on the rows takes them. -/
theorem trials_executed_at_most_once (rt : Runtime) (calls : θ → StoreCall) (labels : List (θ × Reading)) :
    let t := (afterCalls rt calls labels).state
    let history := historyOf rt calls labels
    (∀ k, startsOf k history ≤ 1) ∧
    (∀ k, (recordsOf k history).length ≤ 1) ∧
    (∀ before reservation result after, history = before ++ .recorded reservation result :: after →
      startsOf reservation.coordinates before = 1) ∧
    (∀ k, recordsOf k history = (t.trials.lookup k).toList) ∧
    (∀ earlier later k result, labels = earlier ++ later →
      (afterCalls rt calls earlier).state.trials.lookup k = some result → t.trials.lookup k = some result) ∧
    (∀ k, t.trials.lookup k = none ∨ t.claims.lookup k = none) ∧
    (∀ before reservation after, history = before ++ .claimed reservation :: after →
      startsOf reservation.coordinates before = 0) ∧
    (∀ before k result after, history = before ++ .returned k result :: after → recordsOf k before = [result]) ∧
    rt.validateExistingRows t = .ok () := by
  intro t history
  have ht : Tracked t history := calls_tracked rt calls labels
  have hk : Kept rt t := (calls_sound rt calls labels).inv
  refine ⟨?_, ?_, ?_, ht.records, ?_, ?_, ?_, ?_, hk.reopens⟩
  · intro k
    rw [ht.starts k]
    exact Bool.toNat_le _
  · intro k
    rw [ht.records k]
    cases t.trials.lookup k <;> simp
  · exact fun before reservation result after h => (ht.order before _ after h).1
  · rintro earlier later k result rfl hs
    exact (calls_evolve rt calls earlier later).result hs
  · intro k
    cases hc : t.claims.lookup k with
    | none => exact .inr rfl
    | some row => exact .inl (hk.claims k row hc).2.1
  · exact fun before reservation after h => ht.order before _ after h
  · exact fun before k result after h => ht.order before _ after h

end Autolean.Benchmarks
