import Autolean.Benchmarks.FateManifest

/-! The pinned selections of FATE problems. Each but the smoke selection has a problem in
every tier. -/
namespace Autolean.Benchmarks.Fate.Reporting
open Text Machine Machine.Raising
variable {F : Type}

inductive ReportError where
  /-- `FateReportError`. -/
  | report (message : String)
  /-- `FateReportError` on the problems of a report. -/
  | selection (missing unexpected : Nat)
  | valueError (message : String)
  | keyError
  | zeroDivision
  deriving DecidableEq

/-- The problem numbers of a selection, by tier. -/
abbrev Targets := Tier → List Nat

def canary : Targets
  | .M => [3, 15, 134]
  | .H => [31, 51, 93]
  | .X => [11, 15, 62, 72, 77, 86]

def smoke : Targets
  | .M => [1, 3, 4, 7, 10, 40, 79, 150]
  | .H => []
  | .X => []

def regressionQuota : Tier → Nat
  | .M => 24
  | .H => 12
  | .X => 12

/-- `_stable_key`: the hexadecimal form of a digest sorts as its bytes do. -/
def stableKey (py : Python F) (p : FateProblemId) : PyText :=
  py.sha256 ("autolean-fate-split-v1" ++ "\x00" ++ p.tier.letter ++ ":" ++ toString p.number).toUTF8

def candidates (tier : Tier) (excluded : List Nat) : List FateProblemId :=
  ((List.range' 1 tier.count).filter fun number => number ∉ excluded).map fun number => ⟨tier, number⟩

/-- Select IDs without depending on source ordering or global RNG state. -/
def stableSample (py : Python F) (tier : Tier) (count : Nat) (excluded : List Nat) : Except ReportError (List Nat) := do
  ensure (count + excluded.length ≤ tier.count) (.valueError "requested sample does not fit the tier")
  let ordered := (candidates tier excluded).insertionSort fun a b => stableKey py a ≤ stableKey py b
  pure (((ordered.take count).map (·.number)).insertionSort (· ≤ ·))

/-- The regression and the comparison numbers of one tier. -/
def splitTargets (py : Python F) (tier : Tier) : Except ReportError (List Nat × List Nat) := do
  let fill ← stableSample py tier (regressionQuota tier - (canary tier).length) (canary tier)
  let regression := (canary tier ++ fill).dedup.insertionSort (· ≤ ·)
  let comparison ← stableSample py tier 30 regression
  pure (regression, comparison)

def byTier (m h x : List Nat) : Targets
  | .M => m
  | .H => h
  | .X => x

def benchmarkSplits (py : Python F) : Except ReportError (List (PyText × Targets)) := do
  let m ← splitTargets py .M
  let h ← splitTargets py .H
  let x ← splitTargets py .X
  pure [(PyText.of "compile-canary-12", canary), (PyText.of "agent-smoke-8", smoke),
    (PyText.of "regression-48", byTier m.1 h.1 x.1), (PyText.of "model-compare-90", byTier m.2 h.2 x.2)]

/-- `_suite_targets`. -/
def suiteTargets (py : Python F) (suite : PyText) : Except ReportError Targets :=
  if suite = PyText.of "FATE-350" then .ok fun tier => List.range' 1 tier.count
  else do
    let splits ← benchmarkSplits py
    match splits.lookup suite with
    | some targets => pure targets
    | none => throw .keyError

/-! The selections exist -/

theorem length_candidates (tier : Tier) (excluded : List Nat) :
    tier.count ≤ (candidates tier excluded).length + excluded.length := by
  have hdropped : ((List.range' 1 tier.count).filter fun number => number ∈ excluded).length ≤ excluded.length := by
    apply List.Subperm.length_le
    apply List.subperm_of_subset ((List.nodup_range' ..).filter _)
    intro number h
    simpa using (List.mem_filter.mp h).2
  have hsplit := @List.length_eq_length_filter_add _ (List.range' 1 tier.count) fun number => decide (number ∈ excluded)
  simp only [List.length_range'] at hsplit
  simp only [candidates, List.length_map, decide_not]
  omega

theorem stableSample_ok (py : Python F) {tier : Tier} {count : Nat} {excluded : List Nat}
    (h : count + excluded.length ≤ tier.count) :
    ∃ numbers, stableSample py tier count excluded = .ok numbers ∧ numbers.length = count := by
  refine ⟨_, ensure_bind_eq_ok.mpr ⟨h, rfl⟩, ?_⟩
  have hcandidates := length_candidates tier excluded
  rw [List.length_insertionSort, List.length_map, List.length_take, List.length_insertionSort]
  omega

theorem splitTargets_ok (py : Python F) (tier : Tier) :
    ∃ targets, splitTargets py tier = .ok targets ∧ targets.1 ≠ [] ∧ targets.2 ≠ [] := by
  have hquota : (canary tier).length ≤ regressionQuota tier ∧ regressionQuota tier + 30 ≤ tier.count := by
    cases tier <;> decide
  obtain ⟨fill, hfill, hfilled⟩ :=
    @stableSample_ok _ py tier (regressionQuota tier - (canary tier).length) (canary tier) (by omega)
  have hregression : ((canary tier ++ fill).dedup.insertionSort (· ≤ ·)).length ≤ regressionQuota tier := by
    rw [List.length_insertionSort]
    have hdedup := (List.dedup_sublist (canary tier ++ fill)).length_le
    rw [List.length_append] at hdedup
    omega
  obtain ⟨comparison, hcomparison, hcompared⟩ :=
    @stableSample_ok _ py tier 30 ((canary tier ++ fill).dedup.insertionSort (· ≤ ·)) (by omega)
  refine ⟨_, bind_eq_ok.mpr ⟨fill, hfill, bind_eq_ok.mpr ⟨comparison, hcomparison, rfl⟩⟩, ?_, ?_⟩
  · obtain ⟨number, hnumber⟩ : ∃ number, number ∈ canary tier := by
      cases tier <;> exact ⟨_, List.mem_cons_self⟩
    apply List.ne_nil_of_mem (a := number)
    rw [List.mem_insertionSort, List.mem_dedup]
    exact List.mem_append_left _ hnumber
  · rintro rfl
    cases hcompared

/-- The four splits; those that are sampled leave no tier empty. -/
theorem benchmarkSplits_ok (py : Python F) :
    ∃ regression comparison : Targets, benchmarkSplits py = .ok [(PyText.of "compile-canary-12", canary),
      (PyText.of "agent-smoke-8", smoke), (PyText.of "regression-48", regression),
      (PyText.of "model-compare-90", comparison)] ∧ ∀ tier, regression tier ≠ [] ∧ comparison tier ≠ [] := by
  obtain ⟨m, hm, hm1, hm2⟩ := splitTargets_ok py .M
  obtain ⟨h, hh, hh1, hh2⟩ := splitTargets_ok py .H
  obtain ⟨x, hx, hx1, hx2⟩ := splitTargets_ok py .X
  refine ⟨byTier m.1 h.1 x.1, byTier m.2 h.2 x.2, ?_, ?_⟩
  · exact bind_eq_ok.mpr ⟨m, hm, bind_eq_ok.mpr ⟨h, hh, bind_eq_ok.mpr ⟨x, hx, rfl⟩⟩⟩
  · intro tier
    cases tier with
    | M => exact ⟨hm1, hm2⟩
    | H => exact ⟨hh1, hh2⟩
    | X => exact ⟨hx1, hx2⟩

attribute [irreducible] benchmarkSplits

/-- Only the smoke selection leaves a tier empty. -/
theorem suiteTargets_nonempty {py : Python F} {suite : PyText} {targets : Targets} (h : suiteTargets py suite = .ok targets) :
    (∀ tier, targets tier ≠ []) ↔ suite ≠ PyText.of "agent-smoke-8" := by
  unfold suiteTargets at h
  split_ifs at h with hfull
  · cases h
    subst hfull
    refine iff_of_true (fun tier => ?_) (by simp)
    cases tier <;> simp [Tier.count]
  · obtain ⟨regression, comparison, hsplits, hsampled⟩ := benchmarkSplits_ok py
    rw [hsplits, ok_bind] at h
    simp only [Keyed.lookup_cons, List.lookup_nil] at h
    split_ifs at h with hcanary hsmoke hregression hcomparison
    · cases h
      subst hcanary
      exact iff_of_true (fun tier => by cases tier <;> simp [canary]) (by simp)
    · cases h
      exact iff_of_false (fun hall => hall .H rfl) (fun hne => hne hsmoke)
    · cases h
      subst hregression
      exact iff_of_true (fun tier => (hsampled tier).1) (by simp)
    · cases h
      subst hcomparison
      exact iff_of_true (fun tier => (hsampled tier).2) (by simp)

theorem suiteTargets_smoke (py : Python F) : suiteTargets py (PyText.of "agent-smoke-8") = .ok smoke := by
  obtain ⟨regression, comparison, hsplits, -⟩ := benchmarkSplits_ok py
  rw [suiteTargets, if_neg (by simp), hsplits, ok_bind]
  simp only [Keyed.lookup_cons, PyText.of_inj]
  rfl

end Autolean.Benchmarks.Fate.Reporting
