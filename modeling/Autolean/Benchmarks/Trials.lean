import Autolean.Benchmarks.Store

/-! What the transactions of the store can do, and what holds of the tables they leave:
every row is one the validator of a reopened store takes, a terminal trial has no claim,
and runs, results and bound manifests stay. -/
namespace Autolean.Benchmarks
open Contracts Machine Machine.Raising

variable {rt : Runtime} {t t' : Tables} {k : Coordinates}

/-! One specification for each transaction -/

/-- The token the next claim of the trial gets. -/
def Tables.nextToken (t : Tables) (k : Coordinates) : Int :=
  match t.claims.lookup k with
  | none => 1
  | some row => row.fencingToken + 1

/-- A claim of the trial, if there is one, has not started. -/
def Tables.Unstarted (t : Tables) (k : Coordinates) : Prop := ∀ row, t.claims.lookup k = some row → row.executionStarted = false

/-- The tables with the claim of one trial replaced. -/
def Tables.setClaim (t : Tables) (k : Coordinates) (row : ClaimRow) : Tables := { t with claims := t.claims.insert k row }

namespace Runtime

theorem createRun_cases {run : RoleBenchmarkRun} (h : createRunTransaction run t = .ok ((), t')) :
    (t.runs.lookup run.runId.value = none ∧ t' = { t with runs := t.runs.insert run.runId.value run }) ∨
      (t.runs.lookup run.runId.value = some run ∧ t' = t) := by
  unfold createRunTransaction at h
  split at h
  · next hnone =>
    cases h
    exact .inl ⟨hnone, rfl⟩
  · next stored hsome =>
    obtain ⟨hstored, h⟩ := ensure_bind_eq_ok.mp h
    cases h
    exact .inr ⟨hstored ▸ hsome, rfl⟩

theorem grant_cases {ownerId : String} {token expiresNs : Int} {claimed : Claimed}
    (h : grant k ownerId token expiresNs t = .ok (claimed, t')) :
    claimed = .reserved ⟨k, ownerId, token, expiresNs, false, none⟩ ∧
      t' = t.setClaim k ⟨ownerId, token, expiresNs, false, none⟩ ∧ 1 ≤ token ∧ 1 ≤ expiresNs := by
  unfold grant at h
  obtain ⟨-, h⟩ := ensure_bind_eq_ok.mp h
  obtain ⟨⟨-, htoken, hexpires, -⟩, h⟩ := ensure_bind_eq_ok.mp h
  cases h
  exact ⟨rfl, rfl, htoken, hexpires⟩

/-- A claim answers with the terminal result, or grants a trial that has none and whose
execution has not started, under the next token. -/
theorem claimTrial_cases {run : RoleBenchmarkRun} {ownerId : String} {ttlMs nowNs : Int} {claimed : Claimed}
    (h : rt.claimTrialTransaction run k ownerId ttlMs nowNs t = .ok (claimed, t')) :
    (∃ result, t.trials.lookup k = some result ∧ claimed = .terminal result ∧ t' = t) ∨
      (t.trials.lookup k = none ∧ t.Unstarted k ∧ 1 ≤ t.nextToken k ∧ ∃ expiresNs, 1 ≤ expiresNs ∧
        claimed = .reserved ⟨k, ownerId, t.nextToken k, expiresNs, false, none⟩ ∧
        t' = t.setClaim k ⟨ownerId, t.nextToken k, expiresNs, false, none⟩) := by
  unfold claimTrialTransaction at h
  split at h
  · next stored hstored =>
    obtain ⟨result, hparse, h⟩ := bind_eq_ok.mp h
    obtain ⟨-, hresult⟩ := ensure_bind_eq_ok.mp hparse
    obtain ⟨-, -, h⟩ := bind_eq_ok.mp h
    cases h
    cases hresult
    exact .inl ⟨_, hstored, rfl, rfl⟩
  · next hnone =>
    refine .inr ⟨hnone, ?_⟩
    unfold claimOpenTrial at h
    split at h
    · next hclaim =>
      obtain ⟨hc, ht, htoken, hexpires⟩ := grant_cases h
      have hnext : t.nextToken k = 1 := by simp [Tables.nextToken, hclaim]
      rw [hnext]
      exact ⟨by simp [Tables.Unstarted, hclaim], htoken, _, hexpires, hc, ht⟩
    · next row hclaim =>
      obtain ⟨-, h⟩ := ensure_bind_eq_ok.mp h
      obtain ⟨hstarted, h⟩ := ensure_bind_eq_ok.mp h
      obtain ⟨hc, ht, htoken, hexpires⟩ := grant_cases h
      have hnext : t.nextToken k = row.fencingToken + 1 := by simp [Tables.nextToken, hclaim]
      rw [hnext]
      refine ⟨?_, htoken, _, hexpires, hc, ht⟩
      intro r hr
      cases hclaim.symm.trans hr
      exact hstarted

theorem currentClaim_eq_ok {e : BenchmarkError} {row : ClaimRow} :
    currentClaim t k e = .ok row ↔ t.claims.lookup k = some row := by
  unfold currentClaim
  cases t.claims.lookup k <;> simp

/-- A start finds the claim of its reservation, not yet started. -/
theorem mark_cases {reservation reply : RoleBenchmarkTrialReservation} {startedNs : Int}
    (h : markTransaction reservation startedNs t = .ok (reply, t')) :
    ∃ row, t.claims.lookup reservation.coordinates = some row ∧ Holds row reservation ∧ row.executionStarted = false ∧
      1 ≤ startedNs ∧ reply = { reservation with executionStarted := true, executionStartedNs := some startedNs } ∧
      t' = t.setClaim reservation.coordinates (row.start startedNs) := by
  unfold markTransaction at h
  obtain ⟨-, h⟩ := ensure_bind_eq_ok.mp h
  obtain ⟨row, hrow, h⟩ := bind_eq_ok.mp h
  obtain ⟨⟨hheld, -, hstarted⟩, h⟩ := ensure_bind_eq_ok.mp h
  obtain ⟨-, h⟩ := ensure_bind_eq_ok.mp h
  obtain ⟨⟨-, -, hns⟩, h⟩ := ensure_bind_eq_ok.mp h
  have hpos : 1 ≤ startedNs := by simpa [ClaimRow.start] using hns
  cases h
  exact ⟨row, currentClaim_eq_ok.mp hrow, hheld, hstarted, hpos, rfl, rfl⟩

/-- An abandonment removes the claim of its reservation, not yet started. -/
theorem abandon_cases {reservation : RoleBenchmarkTrialReservation} (h : abandonTransaction reservation t = .ok ((), t')) :
    ∃ row, t.claims.lookup reservation.coordinates = some row ∧ Holds row reservation ∧ row.executionStarted = false ∧
      t' = { t with claims := t.claims.erase reservation.coordinates } := by
  unfold abandonTransaction at h
  obtain ⟨-, h⟩ := ensure_bind_eq_ok.mp h
  obtain ⟨row, hrow, h⟩ := bind_eq_ok.mp h
  obtain ⟨⟨hheld, hstarted⟩, h⟩ := ensure_bind_eq_ok.mp h
  cases h
  exact ⟨row, currentClaim_eq_ok.mp hrow, hheld, hstarted, rfl⟩

theorem storeResult_cases {result : RoleBenchmarkTrialResult} (h : storeResult k result t = .ok t') :
    (t.trials.lookup k = none ∧ t' = { t with trials := t.trials.insert k result }) ∨
      (t.trials.lookup k = some result ∧ t' = t) := by
  unfold storeResult at h
  split at h
  · next hnone =>
    obtain ⟨-, h⟩ := ensure_bind_eq_ok.mp h
    cases h
    exact .inl ⟨hnone, rfl⟩
  · next existing hsome =>
    obtain ⟨hexisting, h⟩ := ensure_bind_eq_ok.mp h
    cases h
    exact .inr ⟨hexisting ▸ hsome, rfl⟩

/-- A result is recorded under a started claim of its reservation, which goes with it. -/
theorem record_cases {reservation : RoleBenchmarkTrialReservation} {result : RoleBenchmarkTrialResult} {nowNs : Int}
    (h : recordTransaction reservation result nowNs t = .ok ((), t')) :
    ∃ row stored, t.claims.lookup reservation.coordinates = some row ∧ Holds row reservation ∧ row.executionStarted = true ∧
      storeResult result.coordinates result t = .ok stored ∧
      t' = { stored with claims := stored.claims.erase reservation.coordinates } := by
  unfold recordTransaction at h
  obtain ⟨-, h⟩ := ensure_bind_eq_ok.mp h
  obtain ⟨row, hrow, h⟩ := bind_eq_ok.mp h
  obtain ⟨⟨hheld, -, hstarted, -⟩, h⟩ := ensure_bind_eq_ok.mp h
  obtain ⟨stored, hstored, h⟩ := bind_eq_ok.mp h
  cases h
  exact ⟨row, stored, currentClaim_eq_ok.mp hrow, hheld, hstarted, hstored, rfl⟩

theorem bind_cases {runId manifestHash : String} (h : bindTransaction runId manifestHash t = .ok ((), t')) :
    (t.artifacts.lookup runId = none ∧ t' = { t with artifacts := t.artifacts.insert runId manifestHash }) ∨
      (t.artifacts.lookup runId = some manifestHash ∧ t' = t) := by
  unfold bindTransaction at h
  split at h
  · next hnone =>
    obtain ⟨-, h⟩ := ensure_bind_eq_ok.mp h
    cases h
    exact .inl ⟨hnone, rfl⟩
  · next bound hsome =>
    obtain ⟨hbound, h⟩ := ensure_bind_eq_ok.mp h
    cases h
    exact .inr ⟨hbound ▸ hsome, rfl⟩

end Runtime

/-! Frozen coordinates -/

theorem RoleBenchmarkRun.findTrial_expected {run : RoleBenchmarkRun} {cellId caseId : String} {repetition : Int}
    {binding : RoleBenchmarkRunCell × RoleBenchmarkCaseBinding × RoleBenchmarkTrialBinding}
    (h : run.findTrial cellId caseId repetition = some binding) : ((cellId, caseId, repetition), binding) ∈ run.expected := by
  obtain ⟨cell, hcell, h⟩ := List.exists_of_findSome?_eq_some h
  split at h
  · next hcellId =>
    obtain ⟨case, hcase, h⟩ := List.exists_of_findSome?_eq_some h
    split at h
    · next hcaseId =>
      obtain ⟨trial, htrial, rfl⟩ := Option.map_eq_some_iff.mp h
      have hrepetition : trial.repetition = repetition := by simpa using List.find?_some htrial
      unfold RoleBenchmarkRun.expected
      refine List.mem_flatMap.mpr ⟨cell, hcell, List.mem_flatMap.mpr ⟨case, hcase, List.mem_map.mpr ⟨trial, ?_, ?_⟩⟩⟩
      · exact List.mem_of_find?_eq_some htrial
      · rw [hcellId, hcaseId, hrepetition]
    · cases h
  · cases h

theorem trialBinding_eq_ok {run : RoleBenchmarkRun} {cellId caseId : String} {repetition : Int}
    {binding : RoleBenchmarkRunCell × RoleBenchmarkCaseBinding × RoleBenchmarkTrialBinding} :
    trialBinding run cellId caseId repetition = .ok binding ↔ run.findTrial cellId caseId repetition = some binding := by
  unfold trialBinding
  cases run.findTrial cellId caseId repetition <;> simp

theorem mem_canonicalOrder {results : List RoleBenchmarkTrialResult} {r : RoleBenchmarkTrialResult} :
    r ∈ canonicalOrder results ↔ r ∈ results := (List.perm_insertionSort _ results).mem_iff

theorem Tables.mem_resultsOf {runId : String} {result : RoleBenchmarkTrialResult} :
    result ∈ t.resultsOf runId ↔ ∃ k, t.trials.lookup k = some result ∧ k.runId = runId := by
  unfold Tables.resultsOf
  simp only [mem_canonicalOrder, List.mem_map, List.mem_filter, decide_eq_true_eq]
  constructor
  · rintro ⟨⟨k, r⟩, ⟨hmem, hrun⟩, rfl⟩
    exact ⟨k, AList.mem_lookup_iff.mpr hmem, hrun⟩
  · rintro ⟨k, hlookup, hrun⟩
    exact ⟨⟨k, result⟩, ⟨AList.mem_lookup_iff.mp hlookup, hrun⟩, rfl⟩

/-- The results of a run are complete: the metrics of its report can be computed. -/
def Complete (rt : Runtime) (t : Tables) (runId : String) : Prop :=
  ∃ run metrics, t.runs.lookup runId = some run ∧ rt.validatedReportMetrics run (t.resultsOf runId) = .ok metrics

theorem validatedReportMetrics_covers {run : RoleBenchmarkRun} {results : List RoleBenchmarkTrialResult}
    {metrics : List RoleBenchmarkCellMetrics} (h : rt.validatedReportMetrics run results = .ok metrics)
    {entry : TrialKey × RoleBenchmarkRunCell × RoleBenchmarkCaseBinding × RoleBenchmarkTrialBinding}
    (he : entry ∈ run.expected) : ∃ result ∈ results, result.key = entry.1 := by
  unfold Runtime.validatedReportMetrics at h
  obtain ⟨-, h⟩ := ensure_bind_eq_ok.mp h
  obtain ⟨-, -, h⟩ := bind_eq_ok.mp h
  obtain ⟨hcover, -⟩ := ensure_bind_eq_ok.mp h
  obtain ⟨result, hmem, hkey⟩ := List.mem_map.mp (hcover entry he)
  exact ⟨result, mem_canonicalOrder.mp hmem, hkey⟩

/-! The invariant -/

/-- Every row is one a reopened store takes, and no terminal trial keeps a claim. -/
structure Kept (rt : Runtime) (t : Tables) : Prop where
  runs : ∀ runId run, t.runs.lookup runId = some run → rt.RunValid run ∧ run.runId.value = runId
  trials : ∀ k result, t.trials.lookup k = some result → result.coordinates = k ∧ rt.ResultValid result ∧
    ∃ run, t.runs.lookup k.runId = some run ∧ rt.validateResultBinding run result = .ok ()
  artifacts : ∀ runId manifestHash, t.artifacts.lookup runId = some manifestHash → IsSha256 manifestHash ∧ Complete rt t runId
  claims : ∀ k row, t.claims.lookup k = some row → Runtime.ClaimShaped row ∧ t.trials.lookup k = none ∧
    ∃ run binding, t.runs.lookup k.runId = some run ∧ run.findTrial k.cellId k.caseId k.repetition = some binding

theorem kept_empty : Kept rt .empty := by
  constructor <;> intro _ _ h <;> cases h

/-- Runs, results and bound manifests are never changed or removed. -/
structure Evolves (t t' : Tables) : Prop where
  runs : ∀ runId run, t.runs.lookup runId = some run → t'.runs.lookup runId = some run
  trials : t.trials.entries <:+ t'.trials.entries
  artifacts : ∀ runId manifestHash, t.artifacts.lookup runId = some manifestHash → t'.artifacts.lookup runId = some manifestHash

theorem Evolves.refl (t : Tables) : Evolves t t := ⟨fun _ _ h => h, List.suffix_refl _, fun _ _ h => h⟩

theorem Evolves.trans {a b c : Tables} (h : Evolves a b) (h' : Evolves b c) : Evolves a c :=
  ⟨fun _ _ hr => h'.runs _ _ (h.runs _ _ hr), h.trials.trans h'.trials, fun _ _ hr => h'.artifacts _ _ (h.artifacts _ _ hr)⟩

theorem Evolves.result (h : Evolves t t') {result : RoleBenchmarkTrialResult} (hr : t.trials.lookup k = some result) :
    t'.trials.lookup k = some result :=
  AList.mem_lookup_iff.mpr (h.trials.subset (AList.mem_lookup_iff.mp hr))

/-- A complete run has a terminal result for each of its coordinates. -/
theorem Kept.terminal (h : Kept rt t) {run : RoleBenchmarkRun} {metrics : List RoleBenchmarkCellMetrics}
    (hm : rt.validatedReportMetrics run (t.resultsOf k.runId) = .ok metrics)
    {binding : RoleBenchmarkRunCell × RoleBenchmarkCaseBinding × RoleBenchmarkTrialBinding}
    (hb : run.findTrial k.cellId k.caseId k.repetition = some binding) : ∃ result, t.trials.lookup k = some result := by
  obtain ⟨result, hmem, hkey⟩ := validatedReportMetrics_covers hm (RoleBenchmarkRun.findTrial_expected hb)
  obtain ⟨k', hlookup, hrun⟩ := Tables.mem_resultsOf.mp hmem
  obtain ⟨hk', -⟩ := h.trials k' result hlookup
  have heq : k' = k := by
    cases k
    rw [← hk'] at hrun ⊢
    simp only [RoleBenchmarkTrialResult.key, Prod.mk.injEq] at hkey
    simp only [RoleBenchmarkTrialResult.coordinates] at hrun
    simp [RoleBenchmarkTrialResult.coordinates, hrun, hkey]
  exact ⟨result, heq ▸ hlookup⟩

/-- The results of a complete run are final. -/
theorem Kept.results_final (h : Kept rt t) (h' : Kept rt t') (he : Evolves t t') {runId : String} {run : RoleBenchmarkRun}
    {metrics : List RoleBenchmarkCellMetrics} (hrun : t.runs.lookup runId = some run)
    (hm : rt.validatedReportMetrics run (t.resultsOf runId) = .ok metrics) : t'.resultsOf runId = t.resultsOf runId := by
  obtain ⟨new, hnew⟩ := he.trials
  have hnone : new.filter (fun row => row.1.runId = runId) = [] := by
    apply List.filter_eq_nil_iff.mpr
    rintro ⟨k, result⟩ hmem hk
    have hk : k.runId = runId := by simpa using hk
    subst hk
    have hlookup : t'.trials.lookup k = some result :=
      AList.mem_lookup_iff.mpr (hnew ▸ List.mem_append_left _ hmem)
    obtain ⟨hcoordinates, -, run', hrun', hbinding⟩ := h'.trials k result hlookup
    rw [he.runs _ _ hrun] at hrun'
    cases hrun'
    obtain ⟨binding, hb, -⟩ := bind_eq_ok.mp hbinding
    rw [← hcoordinates] at hm
    obtain ⟨old, hold⟩ := h.terminal hm (trialBinding_eq_ok.mp hb)
    rw [hcoordinates] at hold
    have hnodup : (t'.trials.entries.map Sigma.fst).Nodup := t'.trials.nodupKeys
    rw [← hnew, List.map_append] at hnodup
    have hkey : k ∈ t.trials.entries.map Sigma.fst :=
      List.mem_map.mpr ⟨⟨k, old⟩, AList.mem_lookup_iff.mp hold, rfl⟩
    exact List.disjoint_of_nodup_append hnodup (List.mem_map.mpr ⟨⟨k, result⟩, hmem, rfl⟩) hkey
  unfold Tables.resultsOf
  rw [← hnew, List.filter_append, hnone, List.nil_append]

theorem Kept.complete (h : Kept rt t) (h' : Kept rt t') (he : Evolves t t') {runId : String} (hc : Complete rt t runId) :
    Complete rt t' runId := by
  obtain ⟨run, metrics, hrun, hm⟩ := hc
  exact ⟨run, metrics, he.runs _ _ hrun, by rw [h.results_final h' he hrun hm]; exact hm⟩

end Autolean.Benchmarks
