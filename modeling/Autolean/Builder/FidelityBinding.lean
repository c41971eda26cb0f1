import Autolean.Builder.FidelityHarness
import Autolean.Builder.BoundaryPins
import Autolean.Machine.Keyed

/-! What the harness emits against its own checker: the evidence of a run reproduces from the
contract, and the report agrees with the verdicts as long as no text of theirs is cut short. -/
namespace Autolean.Builder.Fidelity
open Contracts Machine Machine.Raising Text

/-! Texts under the contract models -/

section Texts
variable (w : WhiteSpace) {text : PyText} {value : String}

theorem not_blank_of_mem {text : String} {c : Char} (hc : c ∈ text.toList) (hspace : (CodePoint.ofChar c).isSpace = false) :
    ¬ (PyText.of text).Blank :=
  PyText.not_blank_of_mem (List.mem_map_of_mem hc) hspace

theorem textField_eq_ok : textField w text = .ok value ↔ w.strip text = PyText.of value := by
  rw [← asString_eq_some, textField, WhiteSpace.fieldText]
  cases asString (w.strip text) with
  | none =>
    constructor
    · intro h
      cases h
    · intro h
      cases h
  | some found => rw [Except.ok.injEq, Option.some.injEq]

theorem nonemptyField_eq_ok (h : ¬ text.Blank) : nonemptyField w text = .ok value ↔ w.strip text = PyText.of value := by
  rw [← textField_eq_ok, nonemptyField]
  constructor
  · intro hfield
    obtain ⟨found, hfound, hfield⟩ := bind_eq_ok.mp hfield
    obtain ⟨-, hsame⟩ := ensure_bind_eq_ok.mp hfield
    cases hsame
    exact hfound
  · intro hfield
    have hne : value ≠ "" := by
      rintro rfl
      exact w.strip_ne_nil h ((textField_eq_ok w).mp hfield)
    exact bind_eq_ok.mpr ⟨value, hfield, ensure_bind_eq_ok.mpr ⟨hne, rfl⟩⟩

/-- A field takes every text but one with a lone surrogate. -/
theorem nonemptyField_returns_iff (h : ¬ text.Blank) : (∃ value, nonemptyField w text = .ok value) ↔ text.IsScalar := by
  constructor
  · rintro ⟨value, hvalue⟩
    apply w.strip_isScalar.mp
    rw [(nonemptyField_eq_ok w h).mp hvalue]
    exact PyText.isScalar_of value
  · intro hscalar
    obtain ⟨value, -, hstrip⟩ := w.exists_fieldText hscalar
    exact ⟨value, (nonemptyField_eq_ok w h).mpr hstrip⟩

/-- A trimmed text stands in a field as it is. -/
theorem nonemptyField_trimmed (h : Trimmed text) : nonemptyField w text = .ok value ↔ text = PyText.of value := by
  rw [nonemptyField_eq_ok w h.1, w.strip_of_trimmed h.2]

theorem textField_trimmed (h : Trimmed text) : textField w text = .ok value ↔ text = PyText.of value := by
  rw [textField_eq_ok, w.strip_of_trimmed h.2]

theorem marked_cons (hash : Digest) (text : PyText) : ∃ rest, marked hash text = CodePoint.ofChar 'h' :: (rest ++ text) := by
  have hfirst : PyText.of ("harness_evidence_sha256=" ++ hash.value) =
      CodePoint.ofChar 'h' :: (PyText.of ("harness_evidence_sha256=" ++ hash.value)).tail := by
    rw [PyText.of, String.toList_append]
    rfl
  refine ⟨(PyText.of ("harness_evidence_sha256=" ++ hash.value)).tail ++ PyText.of "; ", ?_⟩
  rw [marked, hfirst]
  rfl

theorem marked_not_blank (hash : Digest) (text : PyText) : ¬ (marked hash text).Blank := by
  obtain ⟨rest, hrest⟩ := marked_cons hash text
  rw [hrest]
  exact PyText.not_blank_of_mem List.mem_cons_self (by decide)

theorem marked_isScalar (hash : Digest) : (marked hash text).IsScalar ↔ text.IsScalar := by
  rw [marked, PyText.isScalar_append, PyText.isScalar_append]
  exact and_iff_right ⟨PyText.isScalar_of _, PyText.isScalar_of _⟩

/-- A marked text is kept when and only when its own end is. -/
theorem strip_marked (hash : Digest) (h : ¬ text.Blank) : w.strip (marked hash text) = marked hash text ↔ w.Keeps text := by
  obtain ⟨rest, hrest⟩ := marked_cons hash text
  have hne : text ≠ [] := by
    rintro rfl
    exact h rfl
  have hlast : (CodePoint.ofChar 'h' :: (rest ++ text)).getLast? = text.getLast? := by
    rw [← List.cons_append, List.getLast?_append_of_ne_nil _ hne]
  have hfirst : w.white (CodePoint.ofChar 'h') = false := w.not_white (by decide)
  rw [WhiteSpace.strip, trim_eq_self, hrest, Text.Trimmed, hlast]
  exact ⟨fun hboth => hboth.2, fun hkeeps => ⟨by simpa using hfirst, hkeeps⟩⟩

/-- The field of a marked text holds that text when and only when its end is kept. -/
theorem markedField_iff {hash : Digest} (h : ¬ text.Blank) (hfield : nonemptyField w (marked hash text) = .ok value) :
    PyText.of value = marked hash text ↔ w.Keeps text := by
  rw [← (nonemptyField_eq_ok w (marked_not_blank hash text)).mp hfield]
  exact strip_marked w hash h

end Texts

/-! The evidence reproduces -/

section Reproduction
variable {runtime : Runtime} {gate : CanonicalTypeGate} {call : HarnessCall} {e : Evidence gate}

theorem asHarnessError_eq_ok {α : Type} {outcome : Outcome α} {a : α} : asHarnessError outcome = .ok a ↔ outcome = .ok a := by
  cases outcome with
  | ok b => rfl
  | error error => cases error <;> simp [asHarnessError]

theorem fromContract_eq_ok {contract : StatementContract} {obligations : List SemanticObligation}
    {sourceClaims : Option (List SourceClaimSpan)} {task : TranslationTask}
    (h : TranslationTask.fromContract runtime contract obligations sourceClaims = .ok task) :
    assertSourceClaimsBindContract contract task.sourceSpans = .ok () ∧ task.validateObligations contract = .ok () ∧
      task = ⟨contract.contractId, contract.revision, runtime.semanticHash contract.toContractSemantics,
        contract.source.contentHash,
        task.sourceSpans, contract.mathematics.informalStatement.value, contract.mathematics.normalizedStatement.value,
        runtime.sha256Text contract.mathematics.normalizedStatement.value, contract.formal.leanStatementSource.value,
        contract.formal.statementSourceHash, obligations⟩ := by
  unfold TranslationTask.fromContract at h
  cases sourceClaims with
  | none =>
    obtain ⟨spans, -, h⟩ := bind_eq_ok.mp h
    obtain ⟨hclaims, h⟩ := seq_eq_ok.mp h
    obtain ⟨hobligations, h⟩ := seq_eq_ok.mp h
    cases h
    exact ⟨hclaims, hobligations, rfl⟩
  | some claims =>
    obtain ⟨hclaims, h⟩ := seq_eq_ok.mp h
    obtain ⟨hobligations, h⟩ := seq_eq_ok.mp h
    cases h
    exact ⟨hclaims, hobligations, rfl⟩

/-- A task made from a contract is made again from its own spans and obligations. -/
theorem fromContract_reproduces {contract : StatementContract} {obligations : List SemanticObligation}
    {sourceClaims : Option (List SourceClaimSpan)} {task : TranslationTask}
    (h : TranslationTask.fromContract runtime contract obligations sourceClaims = .ok task) :
    (task.contractId = contract.contractId ∧ task.revision = contract.revision) ∧
      task.draftContractHash = runtime.semanticHash contract.toContractSemantics ∧
      TranslationTask.fromContract runtime contract task.obligations (some task.sourceSpans) = .ok task := by
  obtain ⟨hclaims, hobligations, htask⟩ := fromContract_eq_ok h
  rw [htask] at hobligations
  refine ⟨⟨congrArg (·.contractId) htask, congrArg (·.revision) htask⟩, congrArg (·.draftContractHash) htask, ?_⟩
  have hsame : task.obligations = obligations := congrArg (·.obligations) htask
  unfold TranslationTask.fromContract
  simp only []
  rw [pure_bind, hclaims, ok_bind, hsame, hobligations, ok_bind]
  exact congrArg Except.ok htask.symm

/-- What a run that reaches the construction of the report has established. -/
structure Collected (runtime : Runtime) (call : HarnessCall) (e : Evidence gate) : Prop where
  reproduces : e.assertReproduces runtime call.contract = .ok ()
  reviewed : assertReviewStructure runtime ⟨e.task, e.candidates, e.mutationProbes⟩ e.review = .ok ()
  reviewer_trimmed : Trimmed e.review.reviewerId
  review_given : e.review = call.reviewer.review ⟨e.task, e.candidates, e.mutationProbes⟩

theorem collect_collected (h : call.collect runtime gate = .ok e) : Collected runtime call e := by
  obtain ⟨-, h⟩ := seq_eq_ok.mp h
  obtain ⟨-, h⟩ := seq_eq_ok.mp h
  obtain ⟨htrimmed, h⟩ := seq_eq_ok.mp h
  obtain ⟨task, htask, h⟩ := bind_eq_ok.mp h
  obtain ⟨generation, hgeneration, h⟩ := bind_eq_ok.mp h
  obtain ⟨-, h⟩ := seq_eq_ok.mp h
  obtain ⟨-, h⟩ := seq_eq_ok.mp h
  obtain ⟨candidateChecks, hcandidates, h⟩ := bind_eq_ok.mp h
  obtain ⟨⟨binding, reference, requests⟩, hinputs, h⟩ := bind_eq_ok.mp h
  obtain ⟨evidence, hgate, h⟩ := bind_eq_ok.mp h
  obtain ⟨baseline, -, h⟩ := bind_eq_ok.mp h
  obtain ⟨mutationChecks, hmutations, h⟩ := bind_eq_ok.mp h
  obtain ⟨hreviewer, h⟩ := seq_eq_ok.mp h
  obtain ⟨-, h⟩ := seq_eq_ok.mp h
  obtain ⟨hreview, h⟩ := seq_eq_ok.mp h
  obtain ⟨hseparation, h⟩ := seq_eq_ok.mp h
  cases h
  obtain ⟨hids, hhash, hagain⟩ := fromContract_reproduces htask
  refine ⟨?_, hreview, ?_, rfl⟩
  · rw [Evidence.assertReproduces, require, ensure_of _ hids, ok_bind, require, ensure_of _ hhash, ok_bind, hagain, ok_bind,
      require, ensure_of _ rfl, ok_bind, hgeneration, ok_bind, require, ensure_of _ rfl, ok_bind, hinputs, ok_bind]
    simp only []
    rw [asHarnessError_eq_ok.mpr (gate.run_binds _ _ _ _ (asHarnessError_eq_ok.mp hgate)), ok_bind, hcandidates, ok_bind,
      hmutations, ok_bind, require, ensure_of _ rfl, ok_bind, hreview, ok_bind, hseparation]
  · rw [ensure_eq_ok.mp hreviewer]
    exact ensure_eq_ok.mp htrimmed

end Reproduction

/-! The report -/

/-- The texts of a verdict that end a text of the report. -/
def reportedTexts (review : SemanticReviewVerdict) : List PyText :=
  [review.sourceToNormalizedEvidence, review.positiveExampleEvidence, review.negativeExampleEvidence, review.nonVacuityEvidence,
    review.rationale] ++ review.mutationVerdicts.map (·.rationale)

theorem forall_reportedTexts (review : SemanticReviewVerdict) (P : PyText → Prop) :
    (∀ text ∈ reportedTexts review, P text) ↔
      (∀ text ∈ [review.sourceToNormalizedEvidence, review.positiveExampleEvidence, review.negativeExampleEvidence,
        review.nonVacuityEvidence], P text) ∧ P review.rationale ∧ ∀ verdict ∈ review.mutationVerdicts, P verdict.rationale := by
  rw [reportedTexts, List.forall_mem_append, List.forall_mem_map]
  simp only [List.forall_mem_cons]
  tauto

section Report
variable (runtime : Runtime) (w : WhiteSpace) {gate : CanonicalTypeGate} {call : HarnessCall} {e : Evidence gate} {hash : Digest}
  {review : SemanticReviewVerdict}

/-! One check -/

theorem fidelityCheck_eq_ok {c : FidelityCheckKind × Bool × PyText} {check : FidelityCheck} :
    fidelityCheck runtime w hash review c.1 c.2.1 c.2.2 = .ok check ↔ ∃ evidence reviewerId,
      nonemptyField w (marked hash c.2.2) = .ok evidence ∧ textField w review.reviewerId = .ok reviewerId ∧
        check = ⟨checkId runtime hash c.1, c.1, c.2.1, evidence, reviewerId, review.independent⟩ := by
  constructor
  · intro h
    obtain ⟨evidence, hevidence, h⟩ := bind_eq_ok.mp h
    obtain ⟨reviewerId, hreviewerId, h⟩ := bind_eq_ok.mp h
    cases h
    exact ⟨evidence, reviewerId, hevidence, hreviewerId, rfl⟩
  · rintro ⟨evidence, reviewerId, hevidence, hreviewerId, rfl⟩
    exact bind_eq_ok.mpr ⟨evidence, hevidence, bind_eq_ok.mpr ⟨reviewerId, hreviewerId, rfl⟩⟩

theorem forall_expectedChecks (e : Evidence gate) (P : PyText → Prop)
    (hreverse : P (.of "expert reviewed every reverse rendering"))
    (hindependent : P (.of "expert compared candidates from separately declared registrations")) :
    (∀ c ∈ expectedChecks e, P c.2.2) ↔ ∀ text ∈ [e.review.sourceToNormalizedEvidence, e.review.positiveExampleEvidence,
      e.review.negativeExampleEvidence, e.review.nonVacuityEvidence], P text := by
  simp only [expectedChecks, List.forall_mem_cons]
  tauto

theorem expectedChecks_present (e : Evidence gate) : ∀ c ∈ expectedChecks e, ¬ c.2.2.Blank := by
  have hreverse : ¬ (PyText.of "expert reviewed every reverse rendering").Blank :=
    not_blank_of_mem (c := 'e') (by simp) (by decide)
  have hindependent : ¬ (PyText.of "expert compared candidates from separately declared registrations").Blank :=
    not_blank_of_mem (c := 'e') (by simp) (by decide)
  apply (forall_expectedChecks e (fun text => ¬ text.Blank) hreverse hindependent).mpr
  intro text htext
  apply e.review.texts_present text
  simp only [List.mem_cons] at htext ⊢
  tauto

/-- The texts that the harness writes itself end in a letter. -/
theorem keeps_of_last {text : String} {c : Char} (hlast : text.toList.getLast? = some c)
    (hc : (CodePoint.ofChar c).isSpace = false) :
    w.Keeps (.of text) := by
  intro d hd
  rw [PyText.of, PyText.ofChars, List.getLast?_map, hlast] at hd
  cases hd
  exact w.not_white hc

theorem forall_expectedChecks_keeps (e : Evidence gate) :
    (∀ c ∈ expectedChecks e, w.Keeps c.2.2) ↔ ∀ text ∈ [e.review.sourceToNormalizedEvidence, e.review.positiveExampleEvidence,
      e.review.negativeExampleEvidence, e.review.nonVacuityEvidence], w.Keeps text := by
  apply forall_expectedChecks e w.Keeps
  · exact keeps_of_last w (c := 'g') (by simp) (by decide)
  · exact keeps_of_last w (c := 's') (by simp) (by decide)

theorem forall_expectedChecks_scalar (e : Evidence gate) :
    (∀ c ∈ expectedChecks e, c.2.2.IsScalar) ↔ ∀ text ∈ [e.review.sourceToNormalizedEvidence, e.review.positiveExampleEvidence,
      e.review.negativeExampleEvidence, e.review.nonVacuityEvidence], text.IsScalar :=
  forall_expectedChecks e PyText.IsScalar (PyText.isScalar_of _) (PyText.isScalar_of _)

theorem expectedChecks_kinds (e : Evidence gate) : ((expectedChecks e).map (·.1)).Nodup := by
  have hkinds : (expectedChecks e).map (·.1) =
      [.sourcePreservation, .reverseRender, .independentTranslation, .positiveExample, .negativeExample, .nonVacuity] := rfl
  rw [hkinds]
  decide

theorem checks_kinds {checks : List FidelityCheck}
    (hchecks : (expectedChecks e).mapM (fun c => fidelityCheck runtime w hash review c.1 c.2.1 c.2.2) = .ok checks) :
    checks.map (·.kind) = (expectedChecks e).map (·.1) := by
  apply mapM_map_eq hchecks
  intro c _ check hcheck
  obtain ⟨_, _, -, -, rfl⟩ := (fidelityCheck_eq_ok runtime w).mp hcheck
  rfl

/-- The checker finds the check of each expectation, and accepts it when its text was kept. -/
theorem assertCheck_iff {report : FidelityReport}
    (hchecks : (expectedChecks e).mapM (fun c => fidelityCheck runtime w hash review c.1 c.2.1 c.2.2) = .ok report.checks)
    (hreviewer : Trimmed review.reviewerId) {c : FidelityCheckKind × Bool × PyText} (hc : c ∈ expectedChecks e) :
    assertCheck runtime hash review report c = .ok () ↔ w.Keeps c.2.2 := by
  obtain ⟨check, hmem, hcheck⟩ := (mapM_ok hchecks).1 c hc
  obtain ⟨evidence, reviewerId, hevidence, hname, rfl⟩ := (fidelityCheck_eq_ok runtime w).mp hcheck
  have hnodup : (report.checks.map (·.kind)).Nodup := by
    rw [checks_kinds runtime w hchecks]
    exact expectedChecks_kinds e
  have hfound := (Keyed.find?_eq_some hnodup).mpr ⟨hmem, rfl⟩
  have hsame := (textField_trimmed w hreviewer).mp hname
  rw [assertCheck, hfound, ← markedField_iff w (expectedChecks_present e c hc) hevidence]
  simp only [require, ensure_eq_ok]
  exact ⟨fun h => h.2.2.1, fun h => ⟨trivial, trivial, h, hsame.symm, trivial⟩⟩

/-! One mutation result -/

theorem mutationResult_eq_ok {probe : MutationProbe} {result : MutationResult} :
    mutationResult w hash review probe = .ok result ↔
      ∃ verdict, review.mutationVerdicts.find? (fun v => v.probeId = probe.probeId) = some verdict ∧ ∃ evidence executedBy,
        nonemptyField w (marked hash verdict.rationale) = .ok evidence ∧ nonemptyField w review.reviewerId = .ok executedBy ∧
          result = ⟨probe, verdict.detected, evidence, executedBy⟩ := by
  unfold mutationResult
  cases hfound : review.mutationVerdicts.find? (fun v => v.probeId = probe.probeId) with
  | none => exact ⟨nofun, by rintro ⟨_, ⟨⟩, -⟩⟩
  | some verdict =>
    constructor
    · intro h
      obtain ⟨evidence, hevidence, h⟩ := bind_eq_ok.mp h
      obtain ⟨executedBy, hexecutedBy, h⟩ := bind_eq_ok.mp h
      cases h
      exact ⟨verdict, rfl, evidence, executedBy, hevidence, hexecutedBy, rfl⟩
    · rintro ⟨_, ⟨⟩, evidence, executedBy, hevidence, hexecutedBy, rfl⟩
      exact bind_eq_ok.mpr ⟨evidence, hevidence, bind_eq_ok.mpr ⟨executedBy, hexecutedBy, rfl⟩⟩

/-- The checker accepts the result of a probe when the rationale of its verdict was kept. -/
theorem assertMutationResult_iff {probe : MutationProbe} {result : MutationResult}
    (h : mutationResult w hash review probe = .ok result)
    (hreviewer : Trimmed review.reviewerId) : assertMutationResult hash review result = .ok () ↔
      ∃ verdict, review.mutationVerdicts.find? (fun v => v.probeId = probe.probeId) = some verdict ∧
        w.Keeps verdict.rationale := by
  obtain ⟨verdict, hfound, evidence, executedBy, hevidence, hname, rfl⟩ := (mutationResult_eq_ok w).mp h
  have hsame := (nonemptyField_trimmed w hreviewer).mp hname
  have hkept := markedField_iff w verdict.rationale_present hevidence
  rw [assertMutationResult]
  simp only [hfound, require, ensure_eq_ok, Option.some.injEq, exists_eq_left', hkept]
  exact ⟨fun h => h.2.1, fun h => ⟨trivial, h, hsame.symm⟩⟩

/-- The verdicts stand for the probes, one for each. -/
theorem Collected.forall_probes (h : Collected runtime call e) (P : MutationReviewVerdict → Prop) :
    (∀ probe ∈ e.mutationProbes, ∃ verdict, e.review.mutationVerdicts.find? (fun v => v.probeId = probe.probeId) = some verdict ∧
      P verdict) ↔ ∀ verdict ∈ e.review.mutationVerdicts, P verdict := by
  have hreview := h.reviewed
  simp only [assertReviewStructure, require, seq_eq_ok, ensure_eq_ok] at hreview
  obtain ⟨-, -, -, -, hnodup, hset⟩ := hreview
  have hsame (probeId : StableIdentifier) :
      probeId ∈ e.review.mutationVerdicts.map (·.probeId) ↔ probeId ∈ e.mutationProbes.map (·.probeId) := by
    rw [← List.mem_toFinset, hset, List.mem_toFinset]
  constructor
  · intro hall verdict hverdict
    obtain ⟨probe, hprobe, hid⟩ := List.mem_map.mp ((hsame verdict.probeId).mp (List.mem_map_of_mem hverdict))
    obtain ⟨found, hfound, hP⟩ := hall probe hprobe
    have hself := (Keyed.find?_eq_some hnodup).mpr ⟨hverdict, hid.symm⟩
    rw [hfound] at hself
    cases hself
    exact hP
  · intro hall probe hprobe
    obtain ⟨verdict, hverdict, hid⟩ := List.mem_map.mp ((hsame probe.probeId).mpr (List.mem_map_of_mem hprobe))
    exact ⟨verdict, (Keyed.find?_eq_some hnodup).mpr ⟨hverdict, hid⟩, hall verdict hverdict⟩

/-! The whole report -/

theorem identifierOf_eq_ok {space : String} {key : PyText} {identifier : StableIdentifier} :
    runtime.identifierOf space key = .ok identifier ↔ ∃ text, key = PyText.of text ∧
      runtime.stableIdentifier space text = identifier := by
  unfold Runtime.identifierOf
  cases htext : asString key with
  | none =>
    refine ⟨nofun, ?_⟩
    rintro ⟨text, hkey, -⟩
    rw [asString_eq_some.mpr hkey] at htext
    cases htext
  | some text =>
    have hkey := asString_eq_some.mp htext
    simp [hkey]

theorem evaluate_eq_ok {evaluation : Evaluation gate} : call.evaluate runtime w e = .ok evaluation ↔
    ∃ checks results signoffId reviewerId rationale,
      (expectedChecks e).mapM (fun c => fidelityCheck runtime w (e.hash runtime) e.review c.1 c.2.1 c.2.2) = .ok checks ∧
      e.mutationProbes.mapM (mutationResult w (e.hash runtime) e.review) = .ok results ∧
      runtime.identifierOf "builder-semantic-signoff" (PyText.of ((e.hash runtime).value ++ ":") ++ e.review.reviewId) =
        .ok signoffId ∧
      nonemptyField w e.review.reviewerId = .ok reviewerId ∧
      nonemptyField w (marked (e.hash runtime) e.review.rationale) = .ok rationale ∧
      evaluation = ⟨e, e.hash runtime, {
        reportId := runtime.stableIdentifier "builder-fidelity-report" (e.hash runtime).value
        evidenceHash := e.hash runtime
        riskLevel := call.contract.policy.fidelityRisk
        checks
        mutationResults := results
        signoffs := ⟨signoffId, reviewerId, .semanticReviewer, e.review.decision, e.review.independent, rationale,
          call.now.astimezoneUtc⟩ :: e.additionalSignoffs
        generatedAt := call.now.astimezoneUtc }⟩ := by
  constructor
  · intro h
    obtain ⟨report, hreport, h⟩ := bind_eq_ok.mp h
    cases h
    obtain ⟨checks, hchecks, hreport⟩ := bind_eq_ok.mp hreport
    obtain ⟨results, hresults, hreport⟩ := bind_eq_ok.mp hreport
    obtain ⟨signoffId, hsignoffId, hreport⟩ := bind_eq_ok.mp hreport
    obtain ⟨reviewerId, hreviewerId, hreport⟩ := bind_eq_ok.mp hreport
    obtain ⟨rationale, hrationale, hreport⟩ := bind_eq_ok.mp hreport
    cases hreport
    exact ⟨checks, results, signoffId, reviewerId, rationale, hchecks, hresults, hsignoffId, hreviewerId, hrationale, rfl⟩
  · rintro ⟨checks, results, signoffId, reviewerId, rationale, hchecks, hresults, hsignoffId, hreviewerId, hrationale, rfl⟩
    refine bind_eq_ok.mpr ⟨_, bind_eq_ok.mpr ⟨checks, hchecks, ?_⟩, rfl⟩
    rw [hresults, ok_bind, hsignoffId, ok_bind, hreviewerId, ok_bind, hrationale, ok_bind]
    rfl

/-- The report of collected evidence is built when and only when no text of the verdict that goes into
it holds a lone surrogate. -/
theorem evaluate_returns_iff (h : Collected runtime call e) : (∃ evaluation, call.evaluate runtime w e = .ok evaluation) ↔
    ∀ text ∈ e.review.reviewId :: e.review.reviewerId :: reportedTexts e.review, text.IsScalar := by
  have hreviewer := h.reviewer_trimmed
  have hrationale : ¬ e.review.rationale.Blank := e.review.texts_present _ (by simp)
  rw [List.forall_mem_cons, List.forall_mem_cons, forall_reportedTexts, ← forall_expectedChecks_scalar]
  constructor
  · rintro ⟨evaluation, hevaluation⟩
    obtain ⟨checks, results, signoffId, reviewerId, rationale, hchecks, hresults, hsignoffId, hreviewerId, hrationale, -⟩ :=
      (evaluate_eq_ok runtime w).mp hevaluation
    obtain ⟨key, hkey, -⟩ := (identifierOf_eq_ok runtime).mp hsignoffId
    have hscalar := (nonemptyField_returns_iff w (marked_not_blank _ _)).mp ⟨rationale, hrationale⟩
    refine ⟨?_, (nonemptyField_returns_iff w hreviewer.1).mp ⟨reviewerId, hreviewerId⟩, ?_, (marked_isScalar _).mp hscalar, ?_⟩
    · have hjoined := PyText.isScalar_of key
      rw [← hkey, PyText.isScalar_append] at hjoined
      exact hjoined.2
    · intro c hc
      obtain ⟨check, -, hcheck⟩ := (mapM_ok hchecks).1 c hc
      obtain ⟨evidence, -, hevidence, -⟩ := (fidelityCheck_eq_ok runtime w).mp hcheck
      exact (marked_isScalar _).mp ((nonemptyField_returns_iff w (marked_not_blank _ _)).mp ⟨evidence, hevidence⟩)
    · apply (h.forall_probes runtime fun verdict => verdict.rationale.IsScalar).mp
      intro probe hprobe
      obtain ⟨result, -, hresult⟩ := (mapM_ok hresults).1 probe hprobe
      obtain ⟨verdict, hfound, evidence, -, hevidence, -⟩ := (mutationResult_eq_ok w).mp hresult
      exact ⟨verdict, hfound,
        (marked_isScalar _).mp ((nonemptyField_returns_iff w (marked_not_blank _ _)).mp ⟨evidence, hevidence⟩)⟩
  · rintro ⟨hreview, hname, hfields, hlast, hverdicts⟩
    obtain ⟨key, -, hkey⟩ := exists_asString (PyText.isScalar_append.mpr
      ⟨PyText.isScalar_of ((e.hash runtime).value ++ ":"), hreview⟩)
    obtain ⟨reviewerId, hreviewerId⟩ := (nonemptyField_returns_iff w hreviewer.1).mpr hname
    have hfield (text : PyText) (hscalar : text.IsScalar) : ∃ value, nonemptyField w (marked (e.hash runtime) text) = .ok value :=
      (nonemptyField_returns_iff w (marked_not_blank _ _)).mpr ((marked_isScalar _).mpr hscalar)
    obtain ⟨rationale, hrationale⟩ := hfield _ hlast
    have hsame := (nonemptyField_trimmed w hreviewer).mp hreviewerId
    obtain ⟨checks, hchecks⟩ : ∃ checks,
        (expectedChecks e).mapM (fun c => fidelityCheck runtime w (e.hash runtime) e.review c.1 c.2.1 c.2.2) = .ok checks := by
      apply mapM_returns
      intro c hc
      obtain ⟨evidence, hevidence⟩ := hfield _ (hfields c hc)
      exact ⟨_, (fidelityCheck_eq_ok runtime w).mpr ⟨evidence, reviewerId, hevidence,
        (textField_trimmed w hreviewer).mpr hsame, rfl⟩⟩
    obtain ⟨results, hresults⟩ : ∃ results, e.mutationProbes.mapM (mutationResult w (e.hash runtime) e.review) = .ok results := by
      apply mapM_returns
      intro probe hprobe
      obtain ⟨verdict, hfound, hscalar⟩ :=
        (h.forall_probes runtime fun verdict => verdict.rationale.IsScalar).mpr hverdicts probe hprobe
      obtain ⟨evidence, hevidence⟩ := hfield _ hscalar
      exact ⟨_, (mutationResult_eq_ok w).mpr ⟨verdict, hfound, evidence, reviewerId, hevidence, hreviewerId, rfl⟩⟩
    exact ⟨_, (evaluate_eq_ok runtime w).mpr ⟨checks, results, _, reviewerId, rationale, hchecks, hresults,
      (identifierOf_eq_ok runtime).mpr ⟨key, hkey, rfl⟩, hreviewerId, hrationale, rfl⟩⟩

theorem assertReport_eq_ok {evaluation : Evaluation gate} {contract : StatementContract} :
    evaluation.assertReport runtime contract = .ok () ↔
      evaluation.evidenceHash = evaluation.hash runtime ∧
      evaluation.report.reportId = runtime.stableIdentifier "builder-fidelity-report" (evaluation.hash runtime).value ∧
      evaluation.report.riskLevel = contract.policy.fidelityRisk ∧
      ((evaluation.report.checks.map (·.kind)).Nodup ∧
        (evaluation.report.checks.map (·.kind)).toFinset = ((expectedChecks evaluation.toEvidence).map (·.1)).toFinset) ∧
      (∀ c ∈ expectedChecks evaluation.toEvidence,
        assertCheck runtime (evaluation.hash runtime) evaluation.review evaluation.report c = .ok ()) ∧
      evaluation.report.mutationResults.map (·.probe) = evaluation.mutationProbes ∧
      (∀ result ∈ evaluation.report.mutationResults,
        assertMutationResult (evaluation.hash runtime) evaluation.review result = .ok ()) ∧
      evaluation.report.signoffs.length = 1 + evaluation.additionalSignoffs.length ∧
      ∃ expectedSignoffId, runtime.identifierOf "builder-semantic-signoff"
          (PyText.of ((evaluation.hash runtime).value ++ ":") ++ evaluation.review.reviewId) = .ok expectedSignoffId ∧
        (∀ signoff ∈ evaluation.report.signoffs.head?,
          signoff.signoffId = expectedSignoffId ∧ PyText.of signoff.reviewerId = evaluation.review.reviewerId ∧
          signoff.role = .semanticReviewer ∧ signoff.decision = evaluation.review.decision ∧
          signoff.independent = evaluation.review.independent ∧
          PyText.of signoff.rationale = marked (evaluation.hash runtime) evaluation.review.rationale) ∧
        evaluation.report.signoffs.tail = evaluation.additionalSignoffs := by
  simp only [Evaluation.assertReport, require, seq_eq_ok, forM_eq_ok, ensure_eq_ok]
  simp only [bind_eq_ok, ensure_eq_ok]

/-- The report of collected evidence passes when and only when no text was cut short. -/
theorem assertReport_iff (h : Collected runtime call e) {evaluation : Evaluation gate}
    (hevaluation : call.evaluate runtime w e = .ok evaluation) :
    evaluation.assertReport runtime call.contract = .ok () ↔ ∀ text ∈ reportedTexts e.review, w.Keeps text := by
  have hreviewer := h.reviewer_trimmed
  have hpresent : ¬ e.review.rationale.Blank := e.review.texts_present _ (by simp)
  obtain ⟨checks, results, signoffId, reviewerId, rationale, hchecks, hresults, hsignoffId, hreviewerId, hrationale, rfl⟩ :=
    (evaluate_eq_ok runtime w).mp hevaluation
  have hlast := markedField_iff w hpresent hrationale
  have hname := (nonemptyField_trimmed w hreviewer).mp hreviewerId
  have hkinds := checks_kinds runtime w hchecks
  have hprobes : results.map (·.probe) = e.mutationProbes := by
    refine (mapM_map_eq hresults ?_).trans (List.map_id e.mutationProbes)
    intro probe _ result hresult
    obtain ⟨_, -, _, _, -, -, rfl⟩ := (mutationResult_eq_ok w).mp hresult
    rfl
  have hpassed : (∀ result ∈ results, assertMutationResult (e.hash runtime) e.review result = .ok ()) ↔
      ∀ verdict ∈ e.review.mutationVerdicts, w.Keeps verdict.rationale := by
    rw [← h.forall_probes runtime fun verdict => w.Keeps verdict.rationale]
    constructor
    · intro hall probe hprobe
      obtain ⟨result, hmem, hresult⟩ := (mapM_ok hresults).1 probe hprobe
      exact (assertMutationResult_iff w hresult hreviewer).mp (hall result hmem)
    · intro hall result hmem
      obtain ⟨probe, hprobe, hresult⟩ := (mapM_ok hresults).2 result hmem
      exact (assertMutationResult_iff w hresult hreviewer).mpr (hall probe hprobe)
  rw [assertReport_eq_ok, forall_reportedTexts, ← forall_expectedChecks_keeps, ← hpassed]
  constructor
  · rintro ⟨-, -, -, -, hcompared, -, hmutations, -, _, -, hsignoff, -⟩
    refine ⟨?_, hlast.mp (hsignoff _ rfl).2.2.2.2.2, hmutations⟩
    exact fun c hc => (assertCheck_iff runtime w hchecks hreviewer hc).mp (hcompared c hc)
  · rintro ⟨hfields, hkept, hmutations⟩
    refine ⟨rfl, rfl, rfl, ⟨?_, ?_⟩, ?_, hprobes, hmutations, ?_, signoffId, hsignoffId, ?_, rfl⟩
    · rw [hkinds]
      exact expectedChecks_kinds e
    · rw [hkinds]
    · exact fun c hc => (assertCheck_iff runtime w hchecks hreviewer hc).mpr (hfields c hc)
    · rw [List.length_cons, Nat.add_comm]
    · rintro signoff ⟨⟩
      exact ⟨rfl, hname.symm, rfl, rfl, rfl, hlast.mpr hkept⟩

theorem assertBinds_iff (h : Collected runtime call e) {evaluation : Evaluation gate}
    (hevaluation : call.evaluate runtime w e = .ok evaluation) :
    evaluation.toEvidence = e ∧
      (evaluation.assertBinds runtime call.contract = .ok () ↔ ∀ text ∈ reportedTexts e.review, w.Keeps text) := by
  rw [← assertReport_iff runtime w h hevaluation]
  obtain ⟨_, _, _, _, _, -, -, -, -, -, rfl⟩ := (evaluate_eq_ok runtime w).mp hevaluation
  rw [Evaluation.assertBinds, h.reproduces, ok_bind]
  exact ⟨rfl, Iff.rfl⟩

/-- A run that reaches the construction of the report ends as the model fields and the checker say. -/
theorem run_eq_ok (h : call.collect runtime gate = .ok e) {evaluation : Evaluation gate} :
    call.run runtime w gate = .ok evaluation ↔
      call.evaluate runtime w e = .ok evaluation ∧ evaluation.assertBinds runtime call.contract = .ok () := by
  rw [HarnessCall.run, h, ok_bind]
  constructor
  · intro hrun
    obtain ⟨built, hbuilt, hrun⟩ := bind_eq_ok.mp hrun
    obtain ⟨hbound, hsame⟩ := seq_eq_ok.mp hrun
    cases hsame
    exact ⟨hbuilt, hbound⟩
  · rintro ⟨hbuilt, hbound⟩
    exact bind_eq_ok.mpr ⟨evaluation, hbuilt, seq_eq_ok.mpr ⟨hbound, rfl⟩⟩

theorem reported_of_run (h : call.collect runtime gate = .ok e) {evaluation : Evaluation gate}
    (hrun : call.run runtime w gate = .ok evaluation) :
    (∀ text ∈ e.review.reviewId :: e.review.reviewerId :: reportedTexts e.review, text.IsScalar) ∧
      ∀ text ∈ reportedTexts e.review, w.Keeps text := by
  obtain ⟨hbuilt, hbound⟩ := (run_eq_ok runtime w h).mp hrun
  have hcollected := collect_collected h
  exact ⟨(evaluate_returns_iff runtime w hcollected).mp ⟨evaluation, hbuilt⟩,
    (assertBinds_iff runtime w hcollected hbuilt).2.mp hbound⟩

/-- A run that reaches the construction of the report returns an evaluation, and so one that its own
checker accepts, when and only when no text of the verdict that goes into the report holds a lone
surrogate and none of those that end a text of it ends in white space. -/
theorem run_returns_iff (h : call.collect runtime gate = .ok e) :
    (∃ evaluation, call.run runtime w gate = .ok evaluation ∧ evaluation.toEvidence = e ∧
      evaluation.assertBinds runtime call.contract = .ok ()) ↔
      (∀ text ∈ e.review.reviewId :: e.review.reviewerId :: reportedTexts e.review, text.IsScalar) ∧
        ∀ text ∈ reportedTexts e.review, w.Keeps text := by
  constructor
  · rintro ⟨evaluation, hrun, -, -⟩
    exact reported_of_run runtime w h hrun
  · rintro ⟨hscalar, hkept⟩
    have hcollected := collect_collected h
    obtain ⟨evaluation, hbuilt⟩ := (evaluate_returns_iff runtime w hcollected).mpr hscalar
    obtain ⟨hsame, hbinds⟩ := assertBinds_iff runtime w hcollected hbuilt
    have hbound := hbinds.mpr hkept
    exact ⟨evaluation, (run_eq_ok runtime w h).mpr ⟨hbuilt, hbound⟩, hsame, hbound⟩

end Report

/-! A run over a verdict with a given rationale -/

theorem draftLocator_nonempty : "Theorem 1" ≠ "" := by decide

def draftSpan : SourceSpan := ⟨sampleId, ⟨"Theorem 1", draftLocator_nonempty⟩, .repeated 0, some "One and one make two."⟩

theorem draftSpans_distinct : ([draftSpan].map (·.spanId)).Nodup := List.nodup_singleton _

theorem draftRights_source : sampleRights.sourceId = sampleId := rfl

def draftContract : StatementContract where
  contractId := sampleId
  revision := 1
  taskKind := .knownTheorem
  source := ⟨sampleId, .repeated 0, [draftSpan], [], draftSpans_distinct⟩
  rights := sampleRights
  mathematics := (sampleContract []).mathematics
  formal := sampleFormal ["Mathlib.Data.Nat.Basic"]
  alignments := []
  policy := (sampleContract []).policy
  fidelity := none
  remaining := []
  revision_pos := sampleRevision_pos
  rights_source := draftRights_source
  alignments_known := List.forall_mem_nil _
  conjecture_quarantined := (sampleContract []).conjecture_quarantined
  status := .draft
  freeze := none
  frozen_recorded := ⟨Bool.noConfusion, StatementStatus.noConfusion⟩

theorem draftIds_present : ∀ kind : SemanticObligationKind, ¬ (PyText.of kind.value).Blank := by
  intro kind
  cases kind <;> decide

theorem draftCites_present : [sampleId] ≠ [] := List.cons_ne_nil _ _

theorem draftCites_distinct : [sampleId].Nodup := List.nodup_singleton _

theorem draftTargets_present : ¬ (PyText.of "Two").Blank ∧ ¬ (PyText.of "two").Blank := by decide

def draftObligation (kind : SemanticObligationKind) : SemanticObligation :=
  ⟨.of kind.value, kind, .of kind.value, [sampleId], .of "Two", .of "two", draftIds_present kind,
    draftIds_present kind, draftCites_present,
    draftCites_distinct, draftTargets_present⟩

def draftKinds : List SemanticObligationKind := [.quantifierOrder, .conclusion, .nonVacuity]

def numbered (front : String) {n : Nat} (number : Fin n) : PyText := PyText.of front ++ PyText.of (toString number)

theorem draftProposal_present (number : Fin 2) : ¬ (numbered "candidate-" number).Blank ∧
    ¬ (PyText.of "theorem two : 1 + 1 = 2").Blank ∧ ¬ (PyText.of "One and one make two.").Blank :=
  ⟨PyText.not_blank_append (by decide) _, by decide, by decide⟩

theorem draftCoverage_present : (draftKinds.map fun kind => PyText.of kind.value) ≠ [] := List.cons_ne_nil _ _

def draftTranslator (number : Fin 2) : TranslationAgent where
  actorId := numbered "translator-" number
  independenceGroup := numbered "group-" number
  translate _ := ⟨numbered "candidate-" number, .of "theorem two : 1 + 1 = 2", .of "One and one make two.",
    draftKinds.map fun kind => .of kind.value, draftProposal_present number, draftCoverage_present⟩

theorem draftProbeId_shaped (number : Fin 9) : IsStableIdentifier
    (String.ofList ("urn:autolean:v1:probe:00000000-0000-0000-0000-00000000000".toList ++ [Nat.digitChar number])) := by
  rw [IsStableIdentifier, String.toList_ofList]
  revert number
  decide +kernel

def draftProbeId (number : Fin 9) : StableIdentifier :=
  ⟨String.ofList ("urn:autolean:v1:probe:00000000-0000-0000-0000-00000000000".toList ++ [Nat.digitChar number]),
    draftProbeId_shaped number⟩

theorem draftPath_nonempty : "formal.lean_statement_source" ≠ "" := by decide

theorem draftFailure_nonempty : "rejected" ≠ "" := by decide

theorem draftMutation_nonempty (number : Fin 9) : "theorem two : 1 + 2 = " ++ toString number ≠ "" := by
  revert number
  decide

def draftProbe (kind : MutationKind) (number : Fin 9) : MutationProbe :=
  ⟨draftProbeId number, kind, ⟨"formal.lean_statement_source", draftPath_nonempty⟩, ⟨"rejected", draftFailure_nonempty⟩,
    ⟨_, draftMutation_nonempty number⟩⟩

theorem accepted_present : ¬ (PyText.of "accepted").Blank := by decide

theorem draftVerdict_present (number : Fin 2) : ¬ (numbered "candidate-" number).Blank ∧ ¬ (PyText.of "accepted").Blank :=
  ⟨(draftProposal_present number).1, accepted_present⟩

theorem draftObligationVerdict_present (kind : SemanticObligationKind) : ¬ (PyText.of kind.value).Blank ∧
    ¬ (PyText.of "accepted").Blank :=
  ⟨draftIds_present kind, accepted_present⟩

theorem draftTexts_present {rationale : PyText} (h : ¬ rationale.Blank) :
    ∀ text ∈ [PyText.of "review", .of "reviewer", .of "accepted", .of "accepted", .of "accepted", .of "accepted", rationale],
      ¬ text.Blank := by
  have hothers : ∀ text ∈ ["review", "reviewer", "accepted"], ¬ (PyText.of text).Blank := by decide
  simp only [List.forall_mem_cons, List.not_mem_nil, false_implies, implies_true, and_true] at hothers ⊢
  exact ⟨hothers.1, hothers.2.1, hothers.2.2, hothers.2.2, hothers.2.2, hothers.2.2, h⟩

def draftReview (rationale : PyText) (h : ¬ rationale.Blank) : SemanticReviewVerdict where
  reviewId := .of "review"
  reviewerId := .of "reviewer"
  independent := true
  decision := .accept
  sourceToNormalizedEquivalent := true
  sourceToNormalizedEvidence := .of "accepted"
  candidateVerdicts := (List.finRange 2).map fun number => ⟨numbered "candidate-" number, .repeated 0, .accept, true,
    draftKinds.map fun kind => ⟨.of kind.value, .accept, .of "accepted", draftObligationVerdict_present kind⟩, .of "accepted",
    draftVerdict_present number⟩
  mutationVerdicts := (List.finRange 9).map fun number => ⟨draftProbeId number, true, .of "accepted", accepted_present⟩
  positiveExampleValid := true
  positiveExampleEvidence := .of "accepted"
  negativeExampleValid := true
  negativeExampleEvidence := .of "accepted"
  nonVacuous := true
  nonVacuityEvidence := .of "accepted"
  rationale
  texts_present := draftTexts_present h

def draftCall (rationale : PyText) (h : ¬ rationale.Blank) : HarnessCall where
  contract := draftContract
  obligations := draftKinds.map draftObligation
  sourceClaims := none
  translators := (List.finRange 2).map draftTranslator
  mutationAgent := ⟨.of "mutator", fun _ _ => requiredMutations.zipWith draftProbe (List.finRange 9)⟩
  reviewer := ⟨.of "reviewer", fun _ => draftReview rationale h⟩
  additionalSignoffs := []
  now := ⟨0, 0⟩

def draftGate : CanonicalTypeGate where
  Evidence := Unit
  run _ _ _ := .ok ()
  assertBinds _ _ _ _ := .ok ()
  automaticEvidence _ := .of "canonical types agree"
  run_binds _ _ _ _ _ := rfl

/-- What an outcome raised. -/
def raised {α : Type} : Outcome α → Option BuilderError
  | .ok _ => none
  | .error error => some error

theorem returned_of_raised {α : Type} {outcome : Outcome α} (h : raised outcome = none) : ∃ a, outcome = .ok a := by
  cases outcome with
  | ok a => exact ⟨a, rfl⟩
  | error error => cases h

/-- The rationale `"accepted"` with one more code point. -/
def acceptedWith (c : CodePoint) : PyText := PyText.of "accepted" ++ [c]

theorem acceptedWith_present (c : CodePoint) : ¬ (acceptedWith c).Blank := PyText.not_blank_append accepted_present _

/-- A space, and a surrogate without its other half. -/
def space : CodePoint := .ofChar ' '

def loneSurrogate : CodePoint := ⟨0xd800, by decide⟩

theorem spaced_collected :
    ∃ e, (draftCall (acceptedWith space) (acceptedWith_present space)).collect sampleRuntime draftGate = .ok e :=
  returned_of_raised (by decide +kernel)

theorem surrogate_collected :
    ∃ e, (draftCall (acceptedWith loneSurrogate) (acceptedWith_present loneSurrogate)).collect sampleRuntime draftGate = .ok e :=
  returned_of_raised (by decide +kernel)

theorem unspaced_collected : ∃ e, (draftCall (.of "accepted") accepted_present).collect sampleRuntime draftGate = .ok e :=
  returned_of_raised (by decide +kernel)

theorem accepted_reported {text : PyText} (packet : SemanticReviewPacket)
    (h : text ∈ reportedTexts ((draftCall (.of "accepted") accepted_present).reviewer.review packet)) :
      text = .of "accepted" := by
  revert text
  apply (forall_reportedTexts _ fun text => text = .of "accepted").mpr
  refine ⟨?_, rfl, ?_⟩
  · simp only [List.forall_mem_cons, List.not_mem_nil, false_implies, implies_true, and_true]
    exact ⟨rfl, rfl, rfl, rfl⟩
  · intro verdict hverdict
    obtain ⟨number, -, rfl⟩ := List.mem_map.mp hverdict
    rfl

theorem unspaced_returned :
    ∃ evaluation, (draftCall (.of "accepted") accepted_present).run sampleRuntime modelSpace draftGate = .ok evaluation := by
  obtain ⟨e, he⟩ := unspaced_collected
  have hgiven := (collect_collected he).review_given
  have htexts : ∀ text ∈ reportedTexts e.review, text = PyText.of "accepted" := by
    rw [hgiven]
    exact fun text htext => accepted_reported _ htext
  have hscalar : ∀ text ∈ e.review.reviewId :: e.review.reviewerId :: reportedTexts e.review, text.IsScalar := by
    rw [List.forall_mem_cons, List.forall_mem_cons]
    refine ⟨?_, ?_, fun text htext => ?_⟩
    · rw [hgiven]
      exact PyText.isScalar_of "review"
    · rw [hgiven]
      exact PyText.isScalar_of "reviewer"
    · rw [htexts text htext]
      exact PyText.isScalar_of "accepted"
  have hkept : ∀ text ∈ reportedTexts e.review, modelSpace.Keeps text := by
    intro text htext
    rw [htexts text htext]
    exact keeps_of_last modelSpace (c := 'd') (by simp) (by decide)
  obtain ⟨evaluation, hrun, -⟩ := (run_returns_iff sampleRuntime modelSpace he).mpr ⟨hscalar, hkept⟩
  exact ⟨evaluation, hrun⟩

theorem last_reported (rationale : PyText) (h : ¬ rationale.Blank) (packet : SemanticReviewPacket) :
    rationale ∈ reportedTexts ((draftCall rationale h).reviewer.review packet) := by
  apply List.mem_append_left
  exact List.mem_cons_of_mem _ (List.mem_cons_of_mem _ (List.mem_cons_of_mem _ (List.mem_cons_of_mem _ List.mem_cons_self)))

theorem not_returned {c : CodePoint} (hbad : modelSpace.white c = true ∨ ¬ c.IsScalar)
    (hcollected : ∃ e, (draftCall (acceptedWith c) (acceptedWith_present c)).collect sampleRuntime draftGate = .ok e) :
    ¬ ∃ evaluation, (draftCall (acceptedWith c) (acceptedWith_present c)).run sampleRuntime modelSpace draftGate =
      .ok evaluation := by
  rintro ⟨evaluation, hrun⟩
  obtain ⟨e, he⟩ := hcollected
  have hreported : acceptedWith c ∈ reportedTexts e.review := by
    rw [(collect_collected he).review_given]
    exact last_reported _ (acceptedWith_present c) _
  obtain ⟨hscalar, hkept⟩ := reported_of_run sampleRuntime modelSpace he hrun
  cases hbad with
  | inl hwhite =>
    have hlast : modelSpace.white c = false := hkept _ hreported c List.getLast?_concat
    rw [hlast] at hwhite
    cases hwhite
  | inr hlone =>
    exact hlone (hscalar _ (List.mem_cons_of_mem _ (List.mem_cons_of_mem _ hreported)) c (List.mem_append_right _ (by simp)))

/-- A trailing space in the rationale is taken off in the report, and the checker then rejects it; of a
rationale with a lone surrogate the report is not even built. -/
theorem spaced_rejected :
    ((∃ e, (draftCall (acceptedWith space) (acceptedWith_present space)).collect sampleRuntime draftGate = .ok e) ∧
      ¬ ∃ evaluation, (draftCall (acceptedWith space) (acceptedWith_present space)).run sampleRuntime modelSpace draftGate =
        .ok evaluation) ∧
    (∃ e, (draftCall (acceptedWith loneSurrogate) (acceptedWith_present loneSurrogate)).collect sampleRuntime draftGate = .ok e) ∧
      ¬ ∃ evaluation, (draftCall (acceptedWith loneSurrogate) (acceptedWith_present loneSurrogate)).run sampleRuntime modelSpace
        draftGate = .ok evaluation := by
  refine ⟨⟨spaced_collected, ?_⟩, surrogate_collected, ?_⟩
  · exact not_returned (.inl (by decide)) spaced_collected
  · exact not_returned (.inr (by decide)) surrogate_collected

end Autolean.Builder.Fidelity
