import Autolean.Benchmarks.FateSplits
import Autolean.Benchmarks.FateRoundTrip
import Autolean.Contracts.Json
import Autolean.Text.Trimming

/-! Answer-free, deterministic aggregation for verified FATE attempts: a report over one pinned
selection, its metrics for each tier and the bytes it is exchanged as. -/
namespace Autolean.Benchmarks.Fate.Reporting
open Text Machine Machine.Raising
open Contracts (PyFloat)

/-- Python's floats and how a quotient is rounded to one. -/
structure FloatRuntime extends Python PyFloat where
  nearest : ℚ → ℚ

def isFinite : PyFloat → Bool
  | .finite _ => true
  | _ => false

/-- `value <= 0`; nothing holds of `nan`. -/
def nonpositive : PyFloat → Bool
  | .finite q => q ≤ 0
  | .negInf => true
  | _ => false

def failure (message : String) : ReportError := .report message

/-- `_require_identifier`. -/
def requireIdentifier (label : String) (value : PyText) : Except ReportError Unit := do
  ensure (value ≠ [] ∧ value = value.strip ∧ value.length ≤ 512) (failure (label ++ " must be a trimmed, bounded identifier"))
  ensure (value.all (fun c => !(c.isSpace || c.val < 32)) = true)
    (failure (label ++ " must not contain whitespace or control characters"))

/-! The setup -/

structure ConfigFields where
  runId : PyText
  suite : PyText
  fateManifestHash : PyText
  environmentHash : PyText
  providerId : PyText
  modelId : PyText
  modelRevision : PyText
  promptHash : PyText
  toolsHash : PyText
  retrievalScopeHash : PyText
  attemptBudget : Int
  timeoutSeconds : PyFloat

namespace ConfigFields

def identifiers (c : ConfigFields) : List (String × PyText) :=
  [("run_id", c.runId), ("provider_id", c.providerId), ("model_id", c.modelId), ("model_revision", c.modelRevision)]

def hashes (c : ConfigFields) : List (String × PyText) :=
  [("fate_manifest_hash", c.fateManifestHash), ("environment_hash", c.environmentHash), ("prompt_hash", c.promptHash),
    ("tools_hash", c.toolsHash), ("retrieval_scope_hash", c.retrievalScopeHash)]

def postInit (rt : FloatRuntime) (c : ConfigFields) : Except ReportError Unit := do
  c.identifiers.forM fun (label, value) => requireIdentifier label value
  let splits ← benchmarkSplits rt.toPython
  ensure (c.suite ∈ splits.map Prod.fst ++ [PyText.of "FATE-350"]) (failure "report suite is not a pinned FATE selection")
  c.hashes.forM fun (label, value) => ensure (IsHex 64 value) (failure (label ++ " must be a lowercase SHA-256 digest"))
  ensure (1 ≤ c.attemptBudget) (failure "attempt_budget must be positive")
  ensure (nonpositive c.timeoutSeconds = false) (failure "timeout_seconds must be positive")

def publicDict (c : ConfigFields) : JsonDict PyFloat := JsonDict.of [
  ("schema_version", .text "autolean.fate-evaluation-config.v1"), ("run_id", .str c.runId), ("suite", .str c.suite),
  ("fate_manifest_hash", .str c.fateManifestHash), ("environment_hash", .str c.environmentHash),
  ("provider_id", .str c.providerId), ("model_id", .str c.modelId), ("model_revision", .str c.modelRevision),
  ("prompt_hash", .str c.promptHash), ("tools_hash", .str c.toolsHash), ("retrieval_scope_hash", .str c.retrievalScopeHash),
  ("attempt_budget", .int c.attemptBudget), ("timeout_seconds", .float c.timeoutSeconds)]

end ConfigFields

abbrev FateEvaluationConfigV1 (rt : FloatRuntime) := Checked (ConfigFields.postInit rt)

/-! Attempts and results -/

structure AttemptFields where
  problemId : FateProblemId
  attemptNumber : Int
  verificationEventId : PyText
  accepted : Bool
  elapsedMs : Int
  inputTokens : Int
  outputTokens : Int
  costMicrousd : Int

namespace AttemptFields

def counts (a : AttemptFields) : List (String × Int) :=
  [("elapsed_ms", a.elapsedMs), ("input_tokens", a.inputTokens), ("output_tokens", a.outputTokens),
    ("cost_microusd", a.costMicrousd)]

def postInit (a : AttemptFields) : Except ReportError Unit := do
  ensure (1 ≤ a.attemptNumber) (failure "attempt_number must be positive")
  requireIdentifier "verification_event_id" a.verificationEventId
  a.counts.forM fun (label, value) => ensure (0 ≤ value) (failure (label ++ " must be a non-negative integer"))

def publicDict (a : AttemptFields) : JsonDict PyFloat := JsonDict.of [
  ("problem_id", .str a.problemId.canonical), ("attempt_number", .int a.attemptNumber),
  ("verification_event_id", .str a.verificationEventId), ("accepted", .bool a.accepted), ("elapsed_ms", .int a.elapsedMs),
  ("input_tokens", .int a.inputTokens), ("output_tokens", .int a.outputTokens), ("cost_microusd", .int a.costMicrousd)]

end AttemptFields

abbrev FateVerifiedAttemptV1 := Checked AttemptFields.postInit

inductive TerminalStatus where
  | success
  | budgetExhausted
  deriving DecidableEq

def TerminalStatus.text : TerminalStatus → String
  | .success => "success"
  | .budgetExhausted => "budget_exhausted"

structure FateProblemResultV1 where
  problemId : FateProblemId
  terminalStatus : TerminalStatus
  attempts : List FateVerifiedAttemptV1

namespace FateProblemResultV1

def acceptedPositions (r : FateProblemResultV1) : List Nat :=
  (r.attempts.zipIdx.filter fun a => a.1.value.accepted).map Prod.snd

def validateForBudget (attemptBudget : Int) (r : FateProblemResultV1) : Except ReportError Unit := do
  ensure (r.attempts ≠ []) (failure "every selected FATE problem needs a terminal attempt record")
  ensure (∀ a ∈ r.attempts, a.value.problemId = r.problemId)
    (failure "a problem result cannot contain another FATE problem's attempt")
  ensure (r.attempts.map (·.value.attemptNumber) = (List.range' 1 r.attempts.length).map Int.ofNat)
    (failure "attempt numbers must be contiguous and begin at one")
  ensure ((r.attempts.length : Int) ≤ attemptBudget) (failure "problem result exceeds the configured attempt budget")
  match r.terminalStatus with
  | .success => do
    ensure (r.acceptedPositions.length = 1) (failure "a successful problem result requires exactly one acceptance")
    ensure (r.acceptedPositions.head? = some (r.attempts.length - 1))
      (failure "attempts after an accepted proof are not permitted")
  | .budgetExhausted => do
    ensure (r.acceptedPositions = []) (failure "a budget-exhausted problem result cannot contain acceptance")
    ensure ((r.attempts.length : Int) = attemptBudget) (failure "a failed problem must exhaust the configured attempt budget")

def publicDict (r : FateProblemResultV1) : JsonDict PyFloat := JsonDict.of [
  ("problem_id", .str r.problemId.canonical), ("terminal_status", .text r.terminalStatus.text),
  ("attempts", .list (r.attempts.map fun a => .dict a.value.publicDict))]

end FateProblemResultV1

/-! Metrics -/

/-- Counts and accounting for exactly one FATE tier, never a cross-tier aggregate. -/
structure FateTierMetricsV1 where
  tier : Tier
  problems : Nat
  passAt1 : Nat
  passAt4 : Nat
  successAtBudget : Nat
  attempts : Nat
  elapsedMs : Int
  inputTokens : Int
  outputTokens : Int
  costMicrousd : Int

namespace FateTierMetricsV1

/-- The division of two counts. -/
def rate (rt : FloatRuntime) (count problems : Nat) : Except ReportError PyFloat :=
  if problems = 0 then .error .zeroDivision else .ok (.finite (rt.nearest (count / problems)))

def publicDict (rt : FloatRuntime) (m : FateTierMetricsV1) : Except ReportError (JsonDict PyFloat) := do
  let passAt1Rate ← rate rt m.passAt1 m.problems
  let passAt4Rate ← rate rt m.passAt4 m.problems
  let successRate ← rate rt m.successAtBudget m.problems
  pure (JsonDict.of [
    ("tier", .str m.tier.text), ("problems", .int m.problems), ("pass_at_1", .int m.passAt1),
    ("pass_at_1_rate", .float passAt1Rate), ("pass_at_4", .int m.passAt4), ("pass_at_4_rate", .float passAt4Rate),
    ("success_at_budget", .int m.successAtBudget), ("success_at_budget_rate", .float successRate),
    ("attempts", .int m.attempts), ("elapsed_ms", .int m.elapsedMs), ("input_tokens", .int m.inputTokens),
    ("output_tokens", .int m.outputTokens), ("cost_microusd", .int m.costMicrousd)])

end FateTierMetricsV1

/-- `_tier_metrics`. -/
def tierMetrics (tier : Tier) (results : List FateProblemResultV1) : FateTierMetricsV1 :=
  let attempts := results.flatMap (·.attempts)
  { tier := tier
    problems := results.length
    passAt1 := results.countP fun r => r.attempts.head?.any (·.value.accepted)
    passAt4 := results.countP fun r => (r.attempts.take 4).any (·.value.accepted)
    successAtBudget := results.countP (·.terminalStatus = .success)
    attempts := attempts.length
    elapsedMs := (attempts.map (·.value.elapsedMs)).sum
    inputTokens := (attempts.map (·.value.inputTokens)).sum
    outputTokens := (attempts.map (·.value.outputTokens)).sum
    costMicrousd := (attempts.map (·.value.costMicrousd)).sum }

/-! Reports -/

structure ReportFields (rt : FloatRuntime) where
  config : FateEvaluationConfigV1 rt
  results : List FateProblemResultV1

/-- The key the results are sorted by in the exchange record. -/
def FateProblemResultV1.sortKey (r : FateProblemResultV1) : PyText ×ₗ Nat := toLex (r.problemId.tier.text, r.problemId.number)

mutual
/-- Every float in the value passes. -/
def floatsPass (p : PyFloat → Bool) : JsonValue PyFloat → Bool
  | .float x => p x
  | .list items => floatsPassItems p items
  | .dict fields => floatsPassFields p fields
  | _ => true

def floatsPassItems (p : PyFloat → Bool) : List (JsonValue PyFloat) → Bool
  | [] => true
  | v :: items => floatsPass p v && floatsPassItems p items

def floatsPassFields (p : PyFloat → Bool) : List (PyText × JsonValue PyFloat) → Bool
  | [] => true
  | (_, v) :: fields => floatsPass p v && floatsPassFields p fields
end

namespace ReportFields
variable {rt : FloatRuntime}

def expected (targets : Targets) : List FateProblemId :=
  fateTiers.flatMap fun tier => (targets tier).map fun number => ⟨tier, number⟩

def observed (r : ReportFields rt) : List FateProblemId := r.results.map (·.problemId)

def postInit (r : ReportFields rt) : Except ReportError Unit := do
  let targets ← suiteTargets rt.toPython r.config.value.suite
  ensure r.observed.Nodup (failure "FATE report has duplicate problem results")
  ensure ((∀ id ∈ r.observed, id ∈ expected targets) ∧ ∀ id ∈ expected targets, id ∈ r.observed)
    (.selection ((expected targets).filter fun id => id ∉ r.observed).dedup.length
      (r.observed.filter fun id => id ∉ expected targets).dedup.length)
  r.results.forM (·.validateForBudget r.config.value.attemptBudget)

def metrics (r : ReportFields rt) : List FateTierMetricsV1 :=
  fateTiers.map fun tier => tierMetrics tier (r.results.filter (·.problemId.tier = tier))

def sortedResults (r : ReportFields rt) : List FateProblemResultV1 :=
  r.results.insertionSort fun a b => a.sortKey ≤ b.sortKey

def publicDict (r : ReportFields rt) : Except ReportError (JsonDict PyFloat) := do
  let tiers ← r.metrics.mapM (·.publicDict rt)
  pure (JsonDict.of [
    ("schema_version", .text "autolean.fate-evaluation-report.v1"), ("config", .dict r.config.value.publicDict),
    ("tiers", .list (tiers.map .dict)), ("results", .list (r.sortedResults.map fun x => .dict x.publicDict))])

/-- Render a stable, answer-free exchange record suitable for content addressing. -/
def canonicalJsonBytes (r : ReportFields rt) : Except ReportError ByteArray := do
  let d ← r.publicDict
  ensure (floatsPass isFinite (.dict d) = true) (.valueError "Out of range float values are not JSON compliant")
  pure (String.ofList ((JsonTree.dict d).dumps rt.floatText ++ ['\n'])).toUTF8

end ReportFields

abbrev FateEvaluationReportV1 (rt : FloatRuntime) := Checked (@ReportFields.postInit rt)

/-! The order of the results -/

section
variable {rt : FloatRuntime}

theorem sortKey_inj {a b : FateProblemResultV1} (h : a.sortKey = b.sortKey) : a.problemId = b.problemId := by
  obtain ⟨htier, hnumber⟩ := Prod.ext_iff.mp (toLex.injective h)
  cases ha : a.problemId
  cases hb : b.problemId
  simp only [ha, hb] at htier hnumber
  rw [TierMapping.text_injective htier, hnumber]

namespace ReportFields

theorem sortedResults_eq {r s : ReportFields rt} (hdistinct : r.observed.Nodup) (h : r.results.Perm s.results) :
    r.sortedResults = s.sortedResults := by
  have hsorted (x : ReportFields rt) : x.sortedResults.Pairwise fun a b => a.sortKey ≤ b.sortKey :=
    List.pairwise_insertionSort _ _
  have hperm : r.sortedResults.Perm s.sortedResults :=
    (List.perm_insertionSort _ _).trans (h.trans (List.perm_insertionSort _ _).symm)
  refine hperm.eq_of_pairwise (fun a b ha hb hab hba => ?_) (hsorted r) (hsorted s)
  have hmem : ∀ x ∈ r.sortedResults, x ∈ r.results := fun x hx => (List.perm_insertionSort _ _).mem_iff.mp hx
  exact List.inj_on_of_nodup_map hdistinct (hmem a ha) (hmem b (hperm.mem_iff.mpr hb)) (sortKey_inj (le_antisymm hab hba))

theorem tierMetrics_perm (tier : Tier) {l l' : List FateProblemResultV1} (h : l.Perm l') :
    tierMetrics tier l = tierMetrics tier l' := by
  have hattempts := h.flatMap_right fun r => r.attempts
  simp only [tierMetrics, h.length_eq, h.countP_eq, hattempts.length_eq, (hattempts.map _).sum_eq]

theorem metrics_perm {r s : ReportFields rt} (h : r.results.Perm s.results) : r.metrics = s.metrics := by
  apply List.map_congr_left
  intro tier _
  exact tierMetrics_perm tier (h.filter _)

theorem canonicalJsonBytes_perm {r s : ReportFields rt} (hconfig : r.config = s.config) (hdistinct : r.observed.Nodup)
    (h : r.results.Perm s.results) : r.canonicalJsonBytes = s.canonicalJsonBytes := by
  rw [canonicalJsonBytes, canonicalJsonBytes, publicDict, publicDict, metrics_perm h, sortedResults_eq hdistinct h, hconfig]

end ReportFields
end

/-! Results that passed the check -/

section
variable {rt : FloatRuntime}

namespace FateProblemResultV1

theorem acceptedPositions_eq_nil {r : FateProblemResultV1} :
    r.acceptedPositions = [] ↔ ∀ a ∈ r.attempts, a.value.accepted = false := by
  rw [acceptedPositions, List.map_eq_nil_iff, List.filter_eq_nil_iff]
  constructor
  · intro h a ha
    obtain ⟨i, hi⟩ := List.mem_iff_getElem?.mp ha
    simpa using h (a, i) (List.mem_zipIdx_iff_getElem?.mpr hi)
  · rintro h ⟨a, i⟩ hi
    simpa using h a (List.fst_mem_of_mem_zipIdx hi)

/-- What the counts rest on in a result that passed its check. -/
structure Terminal (attemptBudget : Int) (r : FateProblemResultV1) : Prop where
  attempted : r.attempts ≠ []
  bounded : (r.attempts.length : Int) ≤ attemptBudget
  accepted : r.terminalStatus = .success ↔ ∃ a ∈ r.attempts, a.value.accepted = true

theorem terminal_of_validate {attemptBudget : Int} {r : FateProblemResultV1}
    (h : r.validateForBudget attemptBudget = .ok ()) : r.Terminal attemptBudget := by
  rw [validateForBudget] at h
  obtain ⟨hattempted, h⟩ := ensure_bind_eq_ok.mp h
  obtain ⟨-, h⟩ := ensure_bind_eq_ok.mp h
  obtain ⟨-, h⟩ := ensure_bind_eq_ok.mp h
  obtain ⟨hbounded, h⟩ := ensure_bind_eq_ok.mp h
  refine ⟨hattempted, hbounded, ?_⟩
  cases hstatus : r.terminalStatus with
  | success =>
    rw [hstatus] at h
    obtain ⟨hone, -⟩ := ensure_bind_eq_ok.mp h
    refine iff_of_true rfl ?_
    by_contra hnone
    have hnil : r.acceptedPositions = [] := acceptedPositions_eq_nil.mpr fun a ha => by
      simpa using fun haccepted => hnone ⟨a, ha, haccepted⟩
    rw [hnil] at hone
    cases hone
  | budgetExhausted =>
    rw [hstatus] at h
    obtain ⟨hnil, -⟩ := ensure_bind_eq_ok.mp h
    refine iff_of_false nofun ?_
    rintro ⟨a, ha, haccepted⟩
    rw [acceptedPositions_eq_nil.mp hnil a ha] at haccepted
    cases haccepted

end FateProblemResultV1

/-- The counts of one tier are ordered as the attempts they are taken over are nested. -/
structure FateTierMetricsV1.Nested (attemptBudget : Int) (m : FateTierMetricsV1) : Prop where
  first : m.passAt1 ≤ m.passAt4
  four : m.passAt4 ≤ m.successAtBudget
  all : m.successAtBudget ≤ m.problems
  exhausted : attemptBudget ≤ 4 → m.passAt4 = m.successAtBudget

theorem tierMetrics_nested {attemptBudget : Int} {tier : Tier} {results : List FateProblemResultV1}
    (h : ∀ r ∈ results, r.Terminal attemptBudget) : (tierMetrics tier results).Nested attemptBudget where
  first := by
    apply List.countP_mono_left
    intro r _ hfirst
    cases hattempts : r.attempts with
    | nil => simp [hattempts] at hfirst
    | cons a rest =>
      rw [hattempts, List.head?_cons, Option.any_some] at hfirst
      rw [List.take_succ_cons, List.any_cons, hfirst, Bool.true_or]
  four := by
    apply List.countP_mono_left
    intro r hr hfour
    obtain ⟨a, ha, haccepted⟩ := List.any_eq_true.mp hfour
    exact decide_eq_true ((h r hr).accepted.mpr ⟨a, List.mem_of_mem_take ha, haccepted⟩)
  all := List.countP_le_length
  exhausted hbudget := by
    apply List.countP_congr
    intro r hr
    have hshort : r.attempts.take 4 = r.attempts := by
      apply List.take_of_length_le
      have hbounded := (h r hr).bounded
      omega
    rw [hshort, List.any_eq_true, decide_eq_true_eq, (h r hr).accepted]

/-! What is rendered -/

@[simp] theorem floatsPassItems_eq (p : PyFloat → Bool) (items : List (JsonValue PyFloat)) :
    floatsPassItems p items = items.all (floatsPass p) := by
  induction items with
  | nil => rfl
  | cons v items ih => rw [floatsPassItems, ih, List.all_cons]

theorem AttemptFields.publicDict_finite (a : AttemptFields) : floatsPassFields isFinite a.publicDict = true := by
  simp [publicDict, JsonDict.of, floatsPass, floatsPassFields]

theorem FateProblemResultV1.publicDict_finite (r : FateProblemResultV1) :
    floatsPassFields isFinite r.publicDict = true := by
  simp [publicDict, JsonDict.of, JsonTree.text, floatsPass, floatsPassFields, AttemptFields.publicDict_finite]

theorem ConfigFields.publicDict_finite (c : ConfigFields) :
    floatsPassFields isFinite c.publicDict = isFinite c.timeoutSeconds := by
  simp [publicDict, JsonDict.of, JsonTree.text, floatsPass, floatsPassFields]

namespace FateTierMetricsV1

theorem publicDict_of {m : FateTierMetricsV1} (h : m.problems ≠ 0) :
    ∃ d, m.publicDict rt = .ok d ∧ floatsPassFields isFinite d = true := by
  have hrate (count : Nat) : rate rt count m.problems = .ok (.finite (rt.nearest (count / m.problems))) := if_neg h
  refine ⟨_, bind_eq_ok.mpr ⟨_, hrate _, bind_eq_ok.mpr ⟨_, hrate _, bind_eq_ok.mpr ⟨_, hrate _, rfl⟩⟩⟩, ?_⟩
  simp [JsonDict.of, floatsPass, floatsPassFields, isFinite]

theorem publicDict_zero {m : FateTierMetricsV1} (h : m.problems = 0) : m.publicDict rt = .error .zeroDivision := by
  rw [publicDict, rate, if_pos h, error_bind]

end FateTierMetricsV1

namespace ReportFields

/-- Every tier of a rendered report has a problem, and its timeout is finite. -/
theorem publicDict_ok {r : ReportFields rt} {d : JsonDict PyFloat} (h : r.publicDict = .ok d) :
    (∀ m ∈ r.metrics, m.problems ≠ 0) ∧ floatsPassFields isFinite d = isFinite r.config.value.timeoutSeconds := by
  obtain ⟨tiers, htiers, h⟩ := bind_eq_ok.mp h
  cases h
  obtain ⟨hmetrics, hrendered⟩ := mapM_ok htiers
  have hproblems : ∀ m ∈ r.metrics, m.problems ≠ 0 := by
    intro m hm hzero
    obtain ⟨d, -, hd⟩ := hmetrics m hm
    rw [FateTierMetricsV1.publicDict_zero hzero] at hd
    cases hd
  refine ⟨hproblems, ?_⟩
  have hfinite : ∀ d ∈ tiers, floatsPassFields isFinite d = true := by
    intro d hd
    obtain ⟨m, hm, hmd⟩ := hrendered d hd
    obtain ⟨d', hd', hpass⟩ := @FateTierMetricsV1.publicDict_of rt m (hproblems m hm)
    rw [hd'] at hmd
    cases hmd
    exact hpass
  simp only [JsonDict.of, JsonTree.text, List.map_cons, List.map_nil, floatsPass, floatsPassFields, floatsPassItems_eq,
    List.all_map, Function.comp_def, ConfigFields.publicDict_finite, FateProblemResultV1.publicDict_finite,
    List.all_eq_true.mpr hfinite, Bool.true_and, Bool.and_true]
  simp

theorem canonicalJsonBytes_returns_iff {r : ReportFields rt} :
    (∃ bytes, r.canonicalJsonBytes = .ok bytes) ↔
      (∀ m ∈ r.metrics, m.problems ≠ 0) ∧ isFinite r.config.value.timeoutSeconds = true := by
  constructor
  · rintro ⟨bytes, h⟩
    obtain ⟨d, hd, h⟩ := bind_eq_ok.mp h
    obtain ⟨hfinite, -⟩ := ensure_bind_eq_ok.mp h
    obtain ⟨hproblems, heq⟩ := publicDict_ok hd
    exact ⟨hproblems, heq.symm.trans hfinite⟩
  · rintro ⟨hproblems, hfinite⟩
    obtain ⟨tiers, htiers⟩ := mapM_returns fun m hm => (@FateTierMetricsV1.publicDict_of rt m (hproblems m hm)).imp fun _ h => h.1
    have hd : r.publicDict = .ok _ := bind_eq_ok.mpr ⟨tiers, htiers, rfl⟩
    exact ⟨_, bind_eq_ok.mpr ⟨_, hd, ensure_bind_eq_ok.mpr ⟨(publicDict_ok hd).2.trans hfinite, rfl⟩⟩⟩

theorem mem_expected {targets : Targets} {id : FateProblemId} : id ∈ expected targets ↔ id.number ∈ targets id.tier := by
  simp only [expected, List.mem_flatMap, List.mem_map]
  constructor
  · rintro ⟨tier, -, number, hnumber, rfl⟩
    exact hnumber
  · intro h
    exact ⟨id.tier, Tier.mem_fateTiers _, id.number, h, rfl⟩

/-- A tier of a complete report has a problem exactly if the suite selects one. -/
theorem problems_iff {r : ReportFields rt} {targets : Targets} (hexpected : ∀ id, id ∈ r.observed ↔ id ∈ expected targets) :
    (∀ m ∈ r.metrics, m.problems ≠ 0) ↔ ∀ tier, targets tier ≠ [] := by
  have htier (tier : Tier) : (tierMetrics tier (r.results.filter (·.problemId.tier = tier))).problems ≠ 0 ↔
      targets tier ≠ [] := by
    change (r.results.filter _).length ≠ 0 ↔ _
    rw [Ne, List.length_eq_zero_iff, List.filter_eq_nil_iff, Ne, List.eq_nil_iff_forall_not_mem]
    refine not_congr ⟨fun h number hnumber => ?_, fun h x hx htier => ?_⟩
    · have hid : (⟨tier, number⟩ : FateProblemId) ∈ r.observed := (hexpected _).mpr (mem_expected.mpr hnumber)
      obtain ⟨x, hx, hxid⟩ := List.mem_map.mp hid
      exact h x hx (by simp [hxid])
    · have hid := mem_expected.mp ((hexpected x.problemId).mp (List.mem_map_of_mem hx))
      rw [of_decide_eq_true htier] at hid
      exact h _ hid
  simp only [metrics, List.forall_mem_map, htier]
  exact ⟨fun h tier => h tier (Tier.mem_fateTiers tier), fun h tier _ => h tier⟩

end ReportFields

/-- What a validated report is checked for. -/
structure ReportFields.Complete (r : ReportFields rt) (targets : Targets) : Prop where
  suite : suiteTargets rt.toPython r.config.value.suite = .ok targets
  distinct : r.observed.Nodup
  selected : ∀ id, id ∈ r.observed ↔ id ∈ ReportFields.expected targets
  terminal : ∀ x ∈ r.results, x.Terminal r.config.value.attemptBudget

theorem FateEvaluationReportV1.complete (report : FateEvaluationReportV1 rt) : ∃ targets, report.value.Complete targets := by
  have h := report.passed
  rw [ReportFields.postInit] at h
  obtain ⟨targets, hsuite, h⟩ := bind_eq_ok.mp h
  obtain ⟨hdistinct, h⟩ := ensure_bind_eq_ok.mp h
  obtain ⟨⟨hknown, hall⟩, h⟩ := ensure_bind_eq_ok.mp h
  exact ⟨targets, hsuite, hdistinct, fun id => ⟨hknown id, hall id⟩,
    fun x hx => FateProblemResultV1.terminal_of_validate (forM_eq_ok.mp h x hx)⟩

/-- The exchange record of a report exists, depends on no order of the results, and the counts
of each of its tiers are nested. -/
structure FateEvaluationReportV1.Lawful (report : FateEvaluationReportV1 rt) : Prop where
  rendered : ∃ bytes, ∀ other : FateEvaluationReportV1 rt, other.value.config = report.value.config →
    (∀ x, x ∈ other.value.results ↔ x ∈ report.value.results) → other.value.canonicalJsonBytes = .ok bytes
  nested : ∀ m ∈ report.value.metrics, m.Nested report.value.config.value.attemptBudget

theorem report_lawful_iff (report : FateEvaluationReportV1 rt) :
    report.Lawful ↔ report.value.config.value.suite ≠ PyText.of "agent-smoke-8" ∧
      isFinite report.value.config.value.timeoutSeconds = true := by
  obtain ⟨targets, hcomplete⟩ := report.complete
  rw [← suiteTargets_nonempty hcomplete.suite, ← ReportFields.problems_iff hcomplete.selected,
    ← ReportFields.canonicalJsonBytes_returns_iff]
  constructor
  · rintro ⟨⟨bytes, h⟩, -⟩
    exact ⟨bytes, h report rfl fun _ => Iff.rfl⟩
  · rintro ⟨bytes, hbytes⟩
    refine ⟨⟨bytes, fun other hconfig hresults => ?_⟩, ?_⟩
    · obtain ⟨targets', hcomplete'⟩ := other.complete
      have hperm : other.value.results.Perm report.value.results :=
        (List.perm_ext_iff_of_nodup hcomplete'.distinct.of_map hcomplete.distinct.of_map).mpr hresults
      rw [ReportFields.canonicalJsonBytes_perm hconfig hcomplete'.distinct hperm, hbytes]
    · intro m hm
      obtain ⟨tier, -, rfl⟩ := List.mem_map.mp hm
      exact tierMetrics_nested fun x hx => hcomplete.terminal x (List.mem_of_mem_filter hx)

end

/-! A smoke report -/

def sampleFloats : FloatRuntime := ⟨⟨fun _ => [], fun _ => [], fun _ => .nan⟩, id⟩

theorem requireIdentifier_of {value : PyText} (label : String) (hne : value ≠ []) (hlength : value.length ≤ 512)
    (h : value.all (fun c => !(c.isSpace || c.val < 32)) = true) : requireIdentifier label value = .ok () := by
  have hplain : ∀ c ∈ value, (c.isSpace || c.val < 32) = false := by
    simpa using h
  have htrimmed : Trimmed CodePoint.isSpace value :=
    ⟨fun c hc => (Bool.or_eq_false_iff.mp (hplain c (List.mem_of_mem_head? hc))).1,
      fun c hc => (Bool.or_eq_false_iff.mp (hplain c (List.mem_of_mem_getLast? hc))).1⟩
  exact ensure_bind_eq_ok.mpr ⟨⟨hne, htrimmed.trim_eq.symm, hlength⟩, ensure_of _ h⟩

def sampleFields : ConfigFields where
  runId := PyText.of "run"
  suite := PyText.of "agent-smoke-8"
  fateManifestHash := List.replicate 64 (.ofChar 'a')
  environmentHash := List.replicate 64 (.ofChar 'b')
  providerId := PyText.of "provider"
  modelId := PyText.of "model"
  modelRevision := PyText.of "1"
  promptHash := List.replicate 64 (.ofChar 'c')
  toolsHash := List.replicate 64 (.ofChar 'd')
  retrievalScopeHash := List.replicate 64 (.ofChar 'e')
  attemptBudget := 4
  timeoutSeconds := .finite 60

theorem sampleFields_passes : sampleFields.postInit sampleFloats = .ok () := by
  obtain ⟨regression, comparison, hsplits, -⟩ := benchmarkSplits_ok sampleFloats.toPython
  have hidentifiers : ∀ x ∈ sampleFields.identifiers, requireIdentifier x.1 x.2 = .ok () := by
    simp only [ConfigFields.identifiers, sampleFields, List.forall_mem_cons, List.not_mem_nil, false_imp_iff, implies_true,
      and_true]
    refine ⟨?_, ?_, ?_, ?_⟩ <;> exact requireIdentifier_of _ (by decide) (by decide) (by decide +kernel)
  refine seq_eq_ok.mpr ⟨forM_eq_ok.mpr hidentifiers, ?_⟩
  rw [hsplits, ok_bind]
  refine ensure_bind_eq_ok.mpr ⟨?_, by decide +kernel⟩
  simp [sampleFields]

theorem sampleEvent_passes (label : String) : requireIdentifier label (PyText.of "event") = .ok () :=
  requireIdentifier_of label (by decide) (by decide) (by decide +kernel)

def sampleAttempt (id : FateProblemId) : FateVerifiedAttemptV1 where
  value := ⟨id, 1, PyText.of "event", true, 0, 0, 0, 0⟩
  passed := ensure_bind_eq_ok.mpr ⟨le_refl (1 : Int), seq_eq_ok.mpr ⟨sampleEvent_passes _, rfl⟩⟩

/-- Every problem of the smoke selection is solved at the first attempt. -/
def sampleReport : ReportFields sampleFloats where
  config := ⟨sampleFields, sampleFields_passes⟩
  results := (smoke .M).map fun number => ⟨⟨.M, number⟩, .success, [sampleAttempt ⟨.M, number⟩]⟩

theorem sampleReport_passes : sampleReport.postInit = .ok () := by
  have hsuite : suiteTargets sampleFloats.toPython sampleReport.config.value.suite = .ok smoke := suiteTargets_smoke _
  rw [ReportFields.postInit, hsuite, ok_bind]
  decide +kernel

theorem smoke_report_divides_by_zero :
    ∃ report : FateEvaluationReportV1 sampleFloats, report.value.canonicalJsonBytes = .error .zeroDivision ∧ ¬ report.Lawful := by
  have hzero : sampleReport.canonicalJsonBytes = .error .zeroDivision := rfl
  refine ⟨⟨sampleReport, sampleReport_passes⟩, hzero, ?_⟩
  rintro ⟨⟨bytes, h⟩, -⟩
  have hbytes := (h _ rfl fun _ => Iff.rfl).symm.trans hzero
  cases hbytes

end Autolean.Benchmarks.Fate.Reporting
