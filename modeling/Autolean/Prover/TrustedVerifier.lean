import Autolean.Prover.Axioms
import Autolean.Prover.Candidate
import Autolean.Text.Fields
import Autolean.Text.JsonRoundTrip

/-! `TrustedLeanVerifier.observe`: the report on one run of Lean, whatever the runner returns,
raises or leaves in the workspace. The control plane finds no fault in it exactly when the
run was complete, clean and within the frozen axioms. -/
namespace Autolean.Prover
open Contracts Machine Machine.Raising Text ControlPlane

/-! The texts of a contract model -/

/-- A text field of a contract model: it cannot hold a lone surrogate, and loses the white
space at its ends. -/
def fieldText (s : PyText) : Outcome String :=
  match modelSpace.fieldText s with
  | some text => .ok text
  | none => .error (.valueError "Input should be a valid string")

/-- A text field with `min_length=1`. -/
def requiredFieldText (s : PyText) : Outcome Text := do
  let text ← fieldText s
  if h : text ≠ "" then pure ⟨text, h⟩ else throw (.valueError "String should have at least 1 character")

/-! What a runner returns -/

structure ElaboratedTypeEvidence where
  declaration : PyText
  canonicalType : PyText
  formatId : PyText

/-- An entry of `observed_axioms`, whose type nothing enforces. -/
inductive AxiomEntry where
  | str (name : PyText)
  | other
  deriving DecidableEq

structure OciExecutionEvidence where
  authorityStatus : PyText

structure LeanRunEvidence where
  returncode : Option Int
  timedOut : Bool
  stdout : PyText
  stderr : PyText
  cleanEnvironment : Bool
  observedAxioms : Option (List AxiomEntry)
  elaboratedTypeEvidence : Option ElaboratedTypeEvidence
  ociExecutionEvidence : Option OciExecutionEvidence

/-- What can be raised between the binding check and the report. -/
inductive RunFailure where
  /-- A `ValidationError`, as `str` prints it. -/
  | validation (text : PyText)
  /-- Any other `Exception`. -/
  | exception
  /-- A `BaseException` that is no `Exception`. -/
  | interrupt

/-- A run of Lean: what it returns or raises, and the workspace it leaves. -/
abbrev LeanRunner := Files → Except RunFailure LeanRunEvidence × Files

def validationError (message : String) : RunFailure := .validation (PyText.of ("validation_error: " ++ message))

/-- Integrity errors are validation errors. -/
def RunFailure.of : ProverError → RunFailure
  | .validationError code message => .validation (PyText.of (code ++ ": " ++ message))
  | .workspaceIntegrityError message => validationError message
  | _ => .exception

def caught {α : Type} (outcome : Outcome α) : Except RunFailure α := outcome.mapError RunFailure.of

namespace ElaboratedTypeEvidence

def OneLine (text : PyText) : Prop :=
  (0 : CodePoint) ∉ text ∧ CodePoint.ofChar '\n' ∉ text ∧ CodePoint.ofChar '\r' ∉ text

instance (text : PyText) : Decidable (OneLine text) := inferInstanceAs (Decidable (_ ∧ _))

def validate (evidence : ElaboratedTypeEvidence) : Outcome Unit := do
  ensure (evidence.formatId = PyText.of "autolean.lean-pp-expr.v1")
    (.valueError "unsupported elaborated-type evidence format")
  ensure (evidence.declaration ≠ [] ∧ evidence.declaration = evidence.declaration.strip)
    (.valueError "elaborated-type evidence declaration must be canonical")
  ensure (OneLine evidence.declaration)
    (.valueError "elaborated-type evidence declaration contains a control character")
  ensure (evidence.canonicalType ≠ [] ∧ evidence.canonicalType = evidence.canonicalType.strip)
    (.valueError "canonical elaborated type must be nonempty and trimmed")
  ensure (OneLine evidence.canonicalType) (.valueError "canonical elaborated type must be a single line")
  ensure (evidence.canonicalType.length ≤ 1000000) (.valueError "canonical elaborated type exceeds the verifier limit")

end ElaboratedTypeEvidence

/-- `ElaboratedTypeComparator.verify`. -/
def ElaboratedTypeComparator.verify (hashing : Hashing) (boundary : ProofBoundary) :
    Option ElaboratedTypeEvidence → Except RunFailure Unit
  | none => .error (validationError "Lean elaborated-type evidence was absent")
  | some evidence => do
    ensure (evidence.validate = .ok ()) (validationError "Lean elaborated-type evidence is malformed")
    ensure (evidence.declaration = PyText.of boundary.expectedDeclaration.value)
      (validationError "Lean elaborated-type helper resolved a different declaration")
    match asString evidence.canonicalType with
    | none => throw .exception
    | some text =>
      ensure (hashing.sha256Text text = boundary.expectedElaboratedTypeHash)
        (validationError "Lean elaborated-type hash differs from the frozen statement contract")

/-! The verifier -/

/-- A verifier, with the identifiers and the clock of its reports. -/
structure TrustedLeanVerifier where
  verifierId : String
  independent : Bool
  /-- `stable_identifier`. -/
  stableIdentifier : String → String → StableIdentifier
  utcNow : Datetime
  named : ¬ Blank verifierId

namespace TrustedLeanVerifier

/-- The name of an entry `_observed_axioms` admits. -/
def entryName : AxiomEntry → Option PyText
  | .str name => if OciLeanRunner.Admitted name then some name else none
  | .other => none

/-- `_observed_axioms`. -/
def observedAxioms (evidence : LeanRunEvidence) : Option (List PyText) :=
  match evidence.observedAxioms with
  | none => parseAxioms evidence.stdout
  | some entries =>
    if entries.Nodup then (entries.mapM entryName).map (·.insertionSort (· ≤ ·)) else none

def unapprovedNames (contract : StatementContract) (axioms : List PyText) : List PyText :=
  (axioms.filter fun name => name ∉ contract.formal.axiomsAllowlist.map PyText.of).dedup.insertionSort (· ≤ ·)

/-- `_axiom_failures`. -/
def axiomFailures (contract : StatementContract) (axioms : List PyText) : List PyText :=
  (if PyText.of "sorryAx" ∈ axioms then [PyText.of "sorryAx is prohibited"] else []) ++
  (if unapprovedNames contract axioms = [] then []
    else [PyText.of "unapproved axiom(s): " ++ List.intercalate (PyText.of ", ") (unapprovedNames contract axioms)]) ++
  (if contract.axiomProfile = .strict ∧ axioms ≠ [] then [PyText.of "strict axiom profile observed axioms"] else [])

/-- The workspace a runner is given: the proof written, the candidate rendered, the query appended. -/
def prepare (runtime : Runtime) (workspace : MaterializedWorkspace) (submission : ProofSubmission) (files : Files) :
    Outcome Files := do
  ensure (runtime.hasPlaceholder none submission.proofSource.value.toList = false)
    (.validationError "validation_error" "proof source contains a prohibited placeholder")
  let files ← runtime.writeProof workspace submission.proofSource.value files
  let files ← runtime.renderCandidate workspace files
  pure (Runtime.appendAxiomQuery workspace.bundle.proofBoundary.expectedDeclaration.value files)

/-- What is asked of a run that returned: the workspace as it left it, the elaborated type and the axioms. -/
def inspect (runtime : Runtime) (workspace : MaterializedWorkspace) (evidence : LeanRunEvidence) (files : Files) :
    Except RunFailure (List PyText) := do
  caught (runtime.validateIntegrity workspace files)
  ElaboratedTypeComparator.verify runtime.hashing workspace.bundle.proofBoundary evidence.elaboratedTypeEvidence
  match observedAxioms evidence with
  | none => throw (validationError "Lean axiom query output was absent or malformed")
  | some axioms => pure axioms

/-- The guarded part of `observe`: the evidence that was returned, and what became of it. -/
def attempt (runtime : Runtime) (workspace : MaterializedWorkspace) (submission : ProofSubmission) (runner : LeanRunner)
    (files : Files) : Option LeanRunEvidence × Except RunFailure (List PyText) :=
  match prepare runtime workspace submission files with
  | .error e => (none, .error (.of e))
  | .ok prepared =>
    match runner prepared with
    | (.error e, _) => (none, .error e)
    | (.ok evidence, left) => (some evidence, inspect runtime workspace evidence left)

/-- The reasons a run leaves, where it leaves any to report. -/
def reasons (contract : StatementContract) (evidence : Option LeanRunEvidence) :
    Except RunFailure (List PyText) → List PyText
  | .error (.validation text) => [text]
  | .error _ => [PyText.of "Lean runner failed before producing verification evidence"]
  | .ok axioms =>
    axiomFailures contract axioms ++
      match evidence with
      | none => []
      | some evidence =>
        if evidence.timedOut then [PyText.of "Lean execution timed out"]
        else if evidence.returncode = some 0 then [] else [PyText.of "Lean exited unsuccessfully"]

/-- The prefixes of the reasons that are about axioms. -/
def axiomPrefixes : List PyText := ["Lean axiom", "unapproved axiom", "strict axiom", "sorryAx"].map PyText.of

def aboutAxioms (reason : PyText) : Bool := axiomPrefixes.any (·.isPrefixOf reason)

/-- `str` of a return code. -/
def returncodeText : Option Int → String
  | none => "None"
  | some n => toString n

/-- `_details`. -/
def details (evidence : Option LeanRunEvidence) (reasons : List PyText) : PyText :=
  match evidence with
  | none => PyText.of "verification did not start: " ++ List.intercalate (PyText.of "; ") reasons
  | some evidence =>
    PyText.of ("Lean worker " ++ if evidence.timedOut then "timed out" else "returned " ++ returncodeText evidence.returncode) ++
      PyText.of "; OCI authority=" ++ (evidence.ociExecutionEvidence.elim (PyText.of "non-OCI") (·.authorityStatus)) ++
      PyText.of "; " ++ if reasons = [] then PyText.of "all local verifier gates passed"
        else List.intercalate (PyText.of "; ") reasons

/-- `verification_evidence_valid` and the two conditions on the process. -/
def kernelPassed (evidence : Option LeanRunEvidence) (result : Except RunFailure (List PyText)) : Bool :=
  result.isOk && evidence.any fun e => !e.timedOut && e.returncode = some 0

/-- A transient verifier result plus safe OCI facts, before authority promotion. -/
structure Observation where
  report : VerificationObservation
  ociExecutionEvidence : Option OciExecutionEvidence

/-- The report on what the guarded part left. -/
def reportOn (verifier : TrustedLeanVerifier) (runtime : Runtime) (contract : StatementContract) (submission : ProofSubmission)
    (evidence : Option LeanRunEvidence) (result : Except RunFailure (List PyText)) : Outcome VerificationObservation := do
  let reasons := reasons contract evidence result
  let axioms ← (result.toOption.getD []).mapM fieldText
  let details ← requiredFieldText (details evidence reasons)
  let verifierId ← requiredFieldText (PyText.of verifier.verifierId)
  pure {
    reportId := verifier.stableIdentifier "verification"
      (submission.proofId.value ++ ":" ++ verifier.verifierId ++ ":" ++
        (runtime.hashing.sha256Text submission.proofSource.value).value)
    proofId := submission.proofId
    contractHash := submission.contractHash
    proofBoundaryHash := submission.proofBoundaryHash
    verifierId := verifierId
    independent := verifier.independent
    kernelPassed := kernelPassed evidence result
    buildPassed := kernelPassed evidence result
    dependencyCheckPassed := kernelPassed evidence result && !reasons.any aboutAxioms
    cleanEnvironment := evidence.any (·.cleanEnvironment)
    environmentHash := submission.environmentHash
    axiomProfile := contract.axiomProfile
    observedAxioms := axioms
    details := details
    verifiedAt := verifier.utcNow
    evidence := none }

/-- What `observe` raises: an error of a check, or the interruption of a run. -/
inductive ObserveError where
  | prover (e : ProverError)
  | interrupt

def observe (verifier : TrustedLeanVerifier) (runtime : Runtime) (workspace : MaterializedWorkspace)
    (submission : ProofSubmission) (runner : LeanRunner) (files : Files) : Except ObserveError Observation := do
  (runtime.validateBinding workspace.bundle submission).mapError .prover
  match attempt runtime workspace submission runner files with
  | (_, .error .interrupt) => throw .interrupt
  | (evidence, result) =>
    let report ← (reportOn verifier runtime workspace.bundle.contract submission evidence result).mapError .prover
    pure ⟨report, evidence.bind (·.ociExecutionEvidence)⟩

/-! Texts -/

end TrustedLeanVerifier

/-- A text whose ends are no white space is a field as it stands. -/
theorem fieldText_of {text : String} (h : Trimmed isWhite (PyText.of text)) : fieldText (PyText.of text) = .ok text := by
  have hfield : modelSpace.fieldText (PyText.of text) = some text := asString_eq_some.mpr h.trim_eq
  rw [fieldText, hfield]

namespace TrustedLeanVerifier

/-! The reasons that are about axioms -/

/-- The names a run observed are what the contract allows. -/
structure WithinFrozen (contract : StatementContract) (axioms : List PyText) : Prop where
  allowed : ∀ name ∈ axioms, name ∈ contract.formal.axiomsAllowlist.map PyText.of
  complete : PyText.of "sorryAx" ∉ axioms
  strict : contract.axiomProfile = .strict → axioms = []

theorem unapprovedNames_eq_nil {contract : StatementContract} {axioms : List PyText} :
    unapprovedNames contract axioms = [] ↔ ∀ name ∈ axioms, name ∈ contract.formal.axiomsAllowlist.map PyText.of := by
  simp only [List.eq_nil_iff_forall_not_mem, unapprovedNames, List.mem_insertionSort, List.mem_dedup, List.mem_filter,
    decide_eq_true_eq, not_and, not_not]

theorem axiomFailures_eq_nil {contract : StatementContract} {axioms : List PyText} :
    axiomFailures contract axioms = [] ↔ WithinFrozen contract axioms := by
  simp only [axiomFailures, List.append_eq_nil_iff, ite_eq_left_iff, ite_eq_right_iff, List.cons_ne_nil, imp_false,
    not_not, not_and, unapprovedNames_eq_nil]
  exact ⟨fun ⟨⟨hcomplete, hallowed⟩, hstrict⟩ => ⟨hallowed, hcomplete, hstrict⟩,
    fun h => ⟨⟨h.complete, h.allowed⟩, h.strict⟩⟩

theorem aboutAxioms_of {start : PyText} (h : start ∈ axiomPrefixes) (rest : PyText) : aboutAxioms (start ++ rest) = true :=
  List.any_eq_true.mpr ⟨start, h, List.isPrefixOf_iff_prefix.mpr ⟨rest, rfl⟩⟩

theorem aboutAxioms_axiomFailures {contract : StatementContract} {axioms : List PyText} {reason : PyText}
    (h : reason ∈ axiomFailures contract axioms) : aboutAxioms reason = true := by
  have hstarts : ∀ start ∈ ["Lean axiom", "unapproved axiom", "strict axiom", "sorryAx"], PyText.of start ∈ axiomPrefixes :=
    fun start hstart => List.mem_map_of_mem hstart
  rw [axiomFailures, List.mem_append, List.mem_append] at h
  rcases h with (h | h) | h
  · split_ifs at h
    · rw [List.mem_singleton.mp h]
      exact aboutAxioms_of (hstarts "sorryAx" (by simp)) (PyText.of " is prohibited")
    · cases h
  · split_ifs at h
    · cases h
    · rw [List.mem_singleton.mp h]
      exact aboutAxioms_of (hstarts "unapproved axiom" (by simp)) (PyText.of "(s): " ++ _)
  · split_ifs at h
    · rw [List.mem_singleton.mp h]
      exact aboutAxioms_of (hstarts "strict axiom" (by simp)) (PyText.of " profile observed axioms")
    · cases h

/-! What a run left -/

section
variable {runtime : Runtime} {workspace : MaterializedWorkspace} {submission : ProofSubmission} {runner : LeanRunner}
  {files left : Files} {evidence : LeanRunEvidence} {axioms : List PyText} {verifier : TrustedLeanVerifier}
  {observation : Observation}

/-- The runner was given the candidate, returned the evidence and left the workspace so. -/
def Returned (runtime : Runtime) (workspace : MaterializedWorkspace) (submission : ProofSubmission) (runner : LeanRunner)
    (files : Files) (evidence : LeanRunEvidence) (left : Files) : Prop :=
  ∃ prepared, prepare runtime workspace submission files = .ok prepared ∧ runner prepared = (.ok evidence, left)

/-- The evidence is of the frozen declaration and its frozen type. -/
structure TypeMatches (hashing : Hashing) (boundary : ProofBoundary) (e : ElaboratedTypeEvidence) : Prop where
  valid : e.validate = .ok ()
  declaration : e.declaration = PyText.of boundary.expectedDeclaration.value
  hash : ∃ text, e.canonicalType = PyText.of text ∧ hashing.sha256Text text = boundary.expectedElaboratedTypeHash

theorem verify_eq_ok {hashing : Hashing} {boundary : ProofBoundary} {e : Option ElaboratedTypeEvidence} :
    ElaboratedTypeComparator.verify hashing boundary e = .ok () ↔ ∃ t, e = some t ∧ TypeMatches hashing boundary t := by
  cases e with
  | none => simp [ElaboratedTypeComparator.verify]
  | some t =>
    rw [ElaboratedTypeComparator.verify]
    constructor
    · intro h
      obtain ⟨hvalid, h⟩ := ensure_bind_eq_ok.mp h
      obtain ⟨hdeclaration, h⟩ := ensure_bind_eq_ok.mp h
      cases htext : asString t.canonicalType with
      | none => simp [htext] at h
      | some text =>
        rw [htext] at h
        exact ⟨t, rfl, hvalid, hdeclaration, text, asString_eq_some.mp htext, ensure_eq_ok.mp h⟩
    · rintro ⟨_, ⟨⟩, hvalid, hdeclaration, text, htext, hhash⟩
      rw [htext, asString_of]
      exact ensure_bind_eq_ok.mpr ⟨hvalid, ensure_bind_eq_ok.mpr ⟨hdeclaration, ensure_of _ hhash⟩⟩

/-- What the evidence of a run must say for its report to be accepted. -/
structure AcceptableEvidence (runtime : Runtime) (bundle : FormalizationTaskBundle) (verifier : TrustedLeanVerifier)
    (evidence : LeanRunEvidence) : Prop where
  typed : ∃ e, evidence.elaboratedTypeEvidence = some e ∧ TypeMatches runtime.hashing bundle.proofBoundary e
  observed : ∃ axioms, observedAxioms evidence = some axioms ∧ WithinFrozen bundle.contract axioms
  exited : evidence.returncode = some 0
  inTime : evidence.timedOut = false
  clean : evidence.cleanEnvironment = true
  independent : verifier.independent = true

theorem caught_eq_ok {α : Type} {outcome : Outcome α} {x : α} : caught outcome = .ok x ↔ outcome = .ok x := by
  cases outcome <;> simp [caught, Except.mapError]

theorem inspect_eq_ok : inspect runtime workspace evidence left = .ok axioms ↔
    runtime.validateIntegrity workspace left = .ok () ∧
      (∃ e, evidence.elaboratedTypeEvidence = some e ∧ TypeMatches runtime.hashing workspace.bundle.proofBoundary e) ∧
        observedAxioms evidence = some axioms := by
  rw [inspect, seq_eq_ok, caught_eq_ok, seq_eq_ok, verify_eq_ok]
  refine and_congr_right fun _ => and_congr_right fun _ => ?_
  cases observedAxioms evidence with
  | none => simp
  | some parsed => simp [pure, Except.pure]

theorem attempt_eq_ok : attempt runtime workspace submission runner files = (some evidence, .ok axioms) ↔
    ∃ left, Returned runtime workspace submission runner files evidence left ∧
      inspect runtime workspace evidence left = .ok axioms := by
  unfold attempt Returned
  constructor
  · intro h
    split at h
    · cases h
    · rename_i prepared hprepared
      split at h
      · cases h
      · rename_i returned left hrun
        rw [Prod.mk.injEq, Option.some.injEq] at h
        obtain ⟨rfl, h⟩ := h
        exact ⟨left, ⟨prepared, hprepared, hrun⟩, h⟩
  · rintro ⟨left, ⟨prepared, hprepared, hrun⟩, h⟩
    rw [hprepared]
    simp only [hrun, h]

theorem observe_ok (h : verifier.observe runtime workspace submission runner files = .ok observation) :
    ∃ evidence result, attempt runtime workspace submission runner files = (evidence, result) ∧
      reportOn verifier runtime workspace.bundle.contract submission evidence result = .ok observation.report := by
  rw [observe] at h
  obtain ⟨_, -, h⟩ := bind_eq_ok.mp h
  split at h
  · cases h
  · rename_i evidence result _ hattempt
    obtain ⟨report, hreport, h⟩ := bind_eq_ok.mp h
    cases h
    refine ⟨evidence, result, hattempt, ?_⟩
    cases hr : reportOn verifier runtime workspace.bundle.contract submission evidence result with
    | error e => simp [hr, Except.mapError] at hreport
    | ok r => simpa [hr, Except.mapError] using hreport

theorem observe_of {evidence : Option LeanRunEvidence} {result : Except RunFailure (List PyText)}
    {report : VerificationObservation} (hbinding : runtime.validateBinding workspace.bundle submission = .ok ())
    (hattempt : attempt runtime workspace submission runner files = (evidence, result)) (hcaught : result ≠ .error .interrupt)
    (hreport : reportOn verifier runtime workspace.bundle.contract submission evidence result = .ok report) :
    verifier.observe runtime workspace submission runner files = .ok ⟨report, evidence.bind (·.ociExecutionEvidence)⟩ := by
  rw [observe, hbinding, hattempt]
  split
  · rename_i he
    rw [Prod.mk.injEq] at he
    exact absurd he.2 hcaught
  · rename_i he
    rw [Prod.mk.injEq] at he
    obtain ⟨rfl, rfl⟩ := he
    rw [hreport]
    rfl

/-- The gates of a report, and where its axioms come from. -/
structure ReportOf (contract : StatementContract) (verifier : TrustedLeanVerifier) (evidence : Option LeanRunEvidence)
    (result : Except RunFailure (List PyText)) (report : VerificationObservation) : Prop where
  independent : report.independent = verifier.independent
  kernel : report.kernelPassed = kernelPassed evidence result
  build : report.buildPassed = kernelPassed evidence result
  dependencies : report.dependencyCheckPassed =
    (kernelPassed evidence result && !(reasons contract evidence result).any aboutAxioms)
  environment : report.cleanEnvironment = evidence.any (·.cleanEnvironment)
  axioms : (result.toOption.getD []).mapM fieldText = .ok report.observedAxioms

theorem reportOn_ok {contract : StatementContract} {evidence : Option LeanRunEvidence}
    {result : Except RunFailure (List PyText)} {report : VerificationObservation}
    (h : reportOn verifier runtime contract submission evidence result = .ok report) :
    ReportOf contract verifier evidence result report := by
  obtain ⟨axioms, haxioms, h⟩ := bind_eq_ok.mp h
  obtain ⟨_, -, h⟩ := bind_eq_ok.mp h
  obtain ⟨_, -, h⟩ := bind_eq_ok.mp h
  cases h
  exact ⟨rfl, rfl, rfl, rfl, rfl, haxioms⟩

/-- A report that passes every gate has no failures. -/
theorem verificationFailures_of_passes {binding : TaskBinding} {report : VerificationObservation}
    (h : PassesGates report binding.axiomsAllowlist binding.axiomProfile) : verificationFailures binding report = [] := by
  have hstrict : ¬ (binding.axiomProfile = AxiomProfile.strict.value ∧ report.observedAxioms ≠ []) :=
    fun ⟨hprofile, hne⟩ => hne (h.strict hprofile)
  simp only [verificationFailures, h.independent, h.kernel, h.build, h.dependencies, h.environment, if_neg h.complete,
    unapprovedAxioms_eq_nil.mpr h.approved, if_neg hstrict, if_true, List.append_nil]

theorem kernelPassed_eq_true {evidence : Option LeanRunEvidence} {result : Except RunFailure (List PyText)}
    (h : kernelPassed evidence result = true) : ∃ e axioms, evidence = some e ∧ result = .ok axioms ∧
      e.timedOut = false ∧ e.returncode = some 0 := by
  cases evidence with
  | none => simp [kernelPassed] at h
  | some e =>
    cases result with
    | error f => simp [kernelPassed, Except.isOk, Except.toBool] at h
    | ok axioms =>
      obtain ⟨htime, hcode⟩ : e.timedOut = false ∧ e.returncode = some 0 := by
        simpa [kernelPassed, Except.isOk, Except.toBool] using h
      exact ⟨e, axioms, rfl, rfl, htime, hcode⟩

theorem reasons_of_finished {contract : StatementContract} (htime : evidence.timedOut = false)
    (hcode : evidence.returncode = some 0) :
    reasons contract (some evidence) (.ok axioms) = axiomFailures contract axioms := by
  simp only [reasons, htime, hcode, Bool.false_eq_true, if_false, if_true, List.append_nil]

/-- A report without failures is about a run whose evidence is acceptable. -/
theorem acceptable_of_passes {allowlist : List String} {profile : String}
    (h : verifier.observe runtime workspace submission runner files = .ok observation)
    (hgates : PassesGates observation.report allowlist profile) :
    ∃ evidence left, Returned runtime workspace submission runner files evidence left ∧
      runtime.validateIntegrity workspace left = .ok () ∧
        AcceptableEvidence runtime workspace.bundle verifier evidence := by
  obtain ⟨evidence, result, hattempt, hreport⟩ := observe_ok h
  have hreport := reportOn_ok hreport
  obtain ⟨evidence, axioms, rfl, rfl, htime, hcode⟩ := kernelPassed_eq_true (hreport.kernel.symm.trans hgates.kernel)
  obtain ⟨left, hreturned, hinspect⟩ := attempt_eq_ok.mp hattempt
  obtain ⟨hintact, htyped, hobserved⟩ := inspect_eq_ok.mp hinspect
  have hnone : (axiomFailures workspace.bundle.contract axioms).any aboutAxioms = false := by
    have hdependencies := hreport.dependencies.symm.trans hgates.dependencies
    rw [reasons_of_finished htime hcode, Bool.and_eq_true, Bool.not_eq_true'] at hdependencies
    exact hdependencies.2
  have hfrozen : WithinFrozen workspace.bundle.contract axioms := by
    rw [← axiomFailures_eq_nil, List.eq_nil_iff_forall_not_mem]
    intro reason hreason
    exact List.any_eq_false.mp hnone reason hreason (aboutAxioms_axiomFailures hreason)
  refine ⟨evidence, left, hreturned, hintact, htyped, ⟨axioms, hobserved, hfrozen⟩, hcode, htime, ?_, ?_⟩
  · exact hreport.environment.symm.trans hgates.environment
  · exact hreport.independent.symm.trans hgates.independent

/-- The control plane finds no failure in the report of a run exactly when the runner returned
acceptable evidence and left the protected files of the workspace as they were. -/
theorem report_accepted_iff (svc : Service) (assurance : Option CanonicalTypeAssurance)
    (hallowlist : ∀ name ∈ workspace.bundle.contract.formal.axiomsAllowlist, Trimmed isWhite (PyText.of name))
    (h : verifier.observe runtime workspace submission runner files = .ok observation) :
    verificationFailures (svc.binding workspace.bundle assurance) observation.report = [] ↔
      ∃ evidence left, Returned runtime workspace submission runner files evidence left ∧
        runtime.validateIntegrity workspace left = .ok () ∧
          AcceptableEvidence runtime workspace.bundle verifier evidence := by
  constructor
  · exact fun hfailures => acceptable_of_passes h (verificationFailures_eq_nil hfailures)
  · rintro ⟨evidence, left, hreturned, hintact, hacceptable⟩
    obtain ⟨axioms, hobserved, hfrozen⟩ := hacceptable.observed
    have hattempt := attempt_eq_ok.mpr ⟨left, hreturned, inspect_eq_ok.mpr ⟨hintact, hacceptable.typed, hobserved⟩⟩
    obtain ⟨evidence', result, hattempt', hreport⟩ := observe_ok h
    obtain ⟨rfl, rfl⟩ := Prod.ext_iff.mp (hattempt.symm.trans hattempt')
    have hreport := reportOn_ok hreport
    have hkernel : kernelPassed (some evidence) (.ok axioms) = true := by
      simp [kernelPassed, Except.isOk, Except.toBool, hacceptable.inTime, hacceptable.exited]
    have hreasons : reasons workspace.bundle.contract (some evidence) (.ok axioms) = [] :=
      (reasons_of_finished hacceptable.inTime hacceptable.exited).trans (axiomFailures_eq_nil.mpr hfrozen)
    have hreported : ∀ name ∈ observation.report.observedAxioms,
        name ∈ workspace.bundle.contract.formal.axiomsAllowlist ∧ PyText.of name ∈ axioms := by
      intro name hname
      obtain ⟨text, htext, hfield⟩ := (mapM_ok hreport.axioms).2 name hname
      obtain ⟨allowed, hallowed, rfl⟩ := List.mem_map.mp (hfrozen.allowed text htext)
      rw [fieldText_of (hallowlist allowed hallowed)] at hfield
      cases hfield
      exact ⟨hallowed, htext⟩
    apply verificationFailures_of_passes
    refine ⟨?_, ?_, ?_, ?_, ?_, ?_, ?_, ?_⟩
    · exact hreport.independent.trans hacceptable.independent
    · exact hreport.kernel.trans hkernel
    · exact hreport.build.trans hkernel
    · rw [hreport.dependencies, hkernel, hreasons]
      rfl
    · exact hreport.environment.trans hacceptable.clean
    · exact fun hname => hfrozen.complete (hreported _ hname).2
    · exact fun name hname => mem_frozenset.mpr (hreported name hname).1
    · intro hprofile
      have hstrict : workspace.bundle.contract.axiomProfile = .strict := by
        cases hp : workspace.bundle.contract.axiomProfile <;> simp_all [Service.binding, bindingFromBundle, AxiomProfile.value]
      rw [List.eq_nil_iff_forall_not_mem]
      intro name hname
      have hmem := (hreported name hname).2
      rw [hfrozen.strict hstrict] at hmem
      cases hmem

end

/-! Two runs of one candidate -/

section
variable {runtime : Runtime} {bundle : FormalizationTaskBundle} {submission : ProofSubmission} {files : Files}

theorem TrustedIn.appendText {boundary : ProofBoundary} {name : String} (h : TrustedIn runtime boundary files)
    (hname : name ∉ ["TrustedStatement.lean", "bundle-manifest.json"]) (text : String) :
    TrustedIn runtime boundary (files.appendText name text) := by
  unfold Files.appendText
  split
  · intro f hf
    have hne : f.1 ≠ name := by
      rintro rfl
      exact hname (List.mem_map_of_mem (f := Prod.fst) hf)
    rw [Function.update_of_ne hne, h f hf]
  · exact h.writeText hname text

/-- On the directory as it was materialized, a readable proof is prepared for the runner. -/
theorem prepare_materialized (hplaceholder : runtime.hasPlaceholder none submission.proofSource.value.toList = false)
    (hproof : ¬ Blank submission.proofSource.value) :
    ∃ prepared, prepare runtime (runtime.materialize bundle) submission (runtime.materializedFiles bundle) = .ok prepared ∧
      TrustedIn runtime bundle.proofBoundary prepared := by
  have htrusted := materializedFiles_trusted runtime bundle
  have hwritten := htrusted.writeText (by decide : "Proof.lean" ∉ _) (rstrip submission.proofSource.value ++ "\n")
  have hwrite := writeProof_of hproof htrusted rfl
  have hnonblank : ¬ Blank (String.ofList
      (universalNewlines (rstrip submission.proofSource.value ++ "\n").toList)) := by
    rw [blank_iff, rstrip_readBack, String.toList_ofList, universalNewlines_eq_nil, ← blank_iff]
    exact hproof
  have hrender := renderCandidate_of hwritten (Files.readText_writeText _ _ _) hnonblank rfl
  refine ⟨_, ensure_bind_eq_ok.mpr ⟨hplaceholder, bind_eq_ok.mpr ⟨_, hwrite, bind_eq_ok.mpr ⟨_, hrender, rfl⟩⟩⟩, ?_⟩
  exact TrustedIn.appendText (hwritten.writeText (by decide : "Candidate.lean" ∉ _) _) (by decide) _

theorem requiredFieldText_of {s : PyText} (hscalar : s.IsScalar) (h : ¬ s.Blank) : ∃ text, requiredFieldText s = .ok text := by
  obtain ⟨text, htext, hstrip⟩ := modelSpace.exists_fieldText hscalar
  have hne : text ≠ "" := by
    rintro rfl
    exact modelSpace.strip_ne_nil h hstrip
  have hfield : fieldText s = .ok text := by
    rw [fieldText, htext]
  exact ⟨⟨text, hne⟩, bind_eq_ok.mpr ⟨_, hfield, dif_pos hne⟩⟩

/-- A run without OCI facts is reported whatever became of it, where its axioms and reasons are text. -/
theorem reportOn_returns {verifier : TrustedLeanVerifier} {contract : StatementContract} {evidence : LeanRunEvidence}
    {result : Except RunFailure (List PyText)} (hoci : evidence.ociExecutionEvidence = none)
    (haxioms : ∀ name ∈ result.toOption.getD [], name.IsScalar) (hverifier : verifier.verifierId = "verifier")
    (hreasons : ∀ reason ∈ reasons contract (some evidence) result, reason.IsScalar) :
    ∃ report, reportOn verifier runtime contract submission (some evidence) result = .ok report := by
  obtain ⟨names, hnames⟩ : ∃ names, (result.toOption.getD []).mapM fieldText = .ok names := by
    refine mapM_returns fun name hname => ?_
    obtain ⟨text, htext, -⟩ := modelSpace.exists_fieldText (haxioms name hname)
    exact ⟨text, by rw [fieldText, htext]⟩
  have hjoined : PyText.IsScalar (List.intercalate (PyText.of "; ") (reasons contract (some evidence) result)) := by
    intro c hc
    rcases mem_of_mem_intercalate hc with hc | ⟨reason, hreason, hc⟩
    · exact PyText.isScalar_of _ c hc
    · exact hreasons reason hreason c hc
  have hdetails : PyText.IsScalar (details (some evidence) (reasons contract (some evidence) result)) := by
    intro c hc
    simp only [details, hoci, Option.elim_none, List.mem_append] at hc
    rcases hc with ((((hc | hc) | hc) | hc) | hc)
    all_goals try exact PyText.isScalar_of _ c hc
    split_ifs at hc
    · exact PyText.isScalar_of _ c hc
    · exact hjoined c hc
  have hworker : ¬ PyText.Blank (details (some evidence) (reasons contract (some evidence) result)) := by
    have hletter : CodePoint.ofChar 'L' ∈ details (some evidence) (reasons contract (some evidence) result) := by
      simp [details, PyText.of, PyText.ofChars]
    exact PyText.not_blank_of_mem hletter (by decide)
  obtain ⟨text, htext⟩ := requiredFieldText_of hdetails hworker
  obtain ⟨id, hid⟩ : ∃ id, requiredFieldText (PyText.of verifier.verifierId) = .ok id := by
    rw [hverifier]
    exact requiredFieldText_of (PyText.isScalar_of _) (by decide)
  simp only [reportOn, hnames, htext, hid, ok_bind]
  exact ⟨_, rfl⟩

end

def sampleVerifier : TrustedLeanVerifier where
  verifierId := "verifier"
  independent := true
  stableIdentifier _ _ := sampleId
  utcNow := ⟨0, 0⟩
  named := by decide +kernel

/-- Lean accepts the theorem, which uses an axiom. -/
def sampleRun : LeanRunEvidence where
  returncode := some 0
  timedOut := false
  stdout := []
  stderr := []
  cleanEnvironment := true
  observedAxioms := some [.str (PyText.of "propext")]
  elaboratedTypeEvidence := some ⟨PyText.of "t", PyText.of "True", PyText.of "autolean.lean-pp-expr.v1"⟩
  ociExecutionEvidence := none

def honestRunner : LeanRunner := fun files => (.ok sampleRun, files)

/-- A runner that rewrites the trusted statement while Lean runs. -/
def tamperingRunner : LeanRunner := fun files => (.ok sampleRun, files.writeText "TrustedStatement.lean" "theorem t : False")

def sampleWorkspace : MaterializedWorkspace := sampleRuntime.materialize (sampleBundle ["propext"])

theorem sampleRun_acceptable : AcceptableEvidence sampleRuntime sampleWorkspace.bundle sampleVerifier sampleRun where
  typed := ⟨_, rfl, by decide +kernel, rfl, "True", rfl, rfl⟩
  observed := ⟨[PyText.of "propext"], rfl, fun _ hname => hname, by decide, nofun⟩
  exited := rfl
  inTime := rfl
  clean := rfl
  independent := rfl

theorem samplePrepared : ∃ prepared, prepare sampleRuntime sampleWorkspace sampleSubmission
    (sampleRuntime.materializedFiles (sampleBundle ["propext"])) = .ok prepared ∧
      TrustedIn sampleRuntime (sampleBundle ["propext"]).proofBoundary prepared :=
  prepare_materialized (by decide +kernel) (by decide +kernel)

/-- A run that returned the sample evidence is observed. -/
theorem sample_observed {runner : LeanRunner} {left : Files} {result : Except RunFailure (List PyText)}
    (hreturned : Returned sampleRuntime sampleWorkspace sampleSubmission runner
      (sampleRuntime.materializedFiles (sampleBundle ["propext"])) sampleRun left)
    (hinspect : inspect sampleRuntime sampleWorkspace sampleRun left = result)
    (haxioms : ∀ name ∈ result.toOption.getD [], name.IsScalar) (hcaught : result ≠ .error .interrupt)
    (hreasons : ∀ reason ∈ reasons (sampleBundle ["propext"]).contract (some sampleRun) result, reason.IsScalar) :
    ∃ observation, sampleVerifier.observe sampleRuntime sampleWorkspace sampleSubmission runner
        (sampleRuntime.materializedFiles (sampleBundle ["propext"])) = .ok observation ∧
      ReportOf (sampleBundle ["propext"]).contract sampleVerifier (some sampleRun) result observation.report := by
  obtain ⟨prepared, hprepared, hrun⟩ := hreturned
  have hattempt : attempt sampleRuntime sampleWorkspace sampleSubmission runner
      (sampleRuntime.materializedFiles (sampleBundle ["propext"])) = (some sampleRun, result) := by
    unfold attempt
    rw [hprepared]
    simp only [hrun, hinspect]
  obtain ⟨report, hreport⟩ := @reportOn_returns sampleRuntime sampleSubmission sampleVerifier (sampleBundle ["propext"]).contract
    sampleRun result rfl haxioms rfl hreasons
  exact ⟨_, observe_of rfl hattempt hcaught hreport, reportOn_ok hreport⟩

/-- A run that used the axiom its contract allows is reported with it and accepted. -/
theorem report_accepted_iff_sample :
    ∃ observation, sampleVerifier.observe sampleRuntime sampleWorkspace sampleSubmission honestRunner
        (sampleRuntime.materializedFiles (sampleBundle ["propext"])) = .ok observation ∧
      observation.report.observedAxioms = ["propext"] ∧
      verificationFailures (sampleService.binding (sampleBundle ["propext"]) none) observation.report = [] := by
  obtain ⟨prepared, hprepared, htrusted⟩ := samplePrepared
  have hreturned : Returned sampleRuntime sampleWorkspace sampleSubmission honestRunner
      (sampleRuntime.materializedFiles (sampleBundle ["propext"])) sampleRun prepared := ⟨prepared, hprepared, rfl⟩
  have hintact : sampleRuntime.validateIntegrity sampleWorkspace prepared = .ok () := validateIntegrity_of htrusted
  have hinspect := inspect_eq_ok.mpr
    ⟨hintact, sampleRun_acceptable.typed, (rfl : observedAxioms sampleRun = some [PyText.of "propext"])⟩
  have hallowlist : ∀ name ∈ sampleWorkspace.bundle.contract.formal.axiomsAllowlist, Trimmed isWhite (PyText.of name) :=
    List.forall_mem_singleton.mpr (by decide)
  have hnames : ∀ name ∈ [PyText.of "propext"], name.IsScalar := List.forall_mem_singleton.mpr (PyText.isScalar_of _)
  have hreasons : reasons (sampleBundle ["propext"]).contract (some sampleRun) (.ok [PyText.of "propext"]) = [] := by
    decide +kernel
  obtain ⟨observation, hobserved, hreport⟩ := sample_observed hreturned hinspect hnames nofun (by simp [hreasons])
  have hobservedAxioms : observation.report.observedAxioms = ["propext"] := by
    have haxioms := hreport.axioms
    have hmapped : [PyText.of "propext"].mapM fieldText = .ok ["propext"] := by
      rw [List.mapM_cons, fieldText_of (by decide)]
      rfl
    exact Except.ok.inj (haxioms.symm.trans hmapped)
  exact ⟨observation, hobserved, hobservedAxioms, (report_accepted_iff sampleService none hallowlist hobserved).mpr
    ⟨sampleRun, prepared, hreturned, hintact, sampleRun_acceptable⟩⟩

theorem statement_changed (files : Files) :
    sampleRuntime.validateIntegrity sampleWorkspace (files.writeText "TrustedStatement.lean" "theorem t : False") =
      .error (.workspaceIntegrityError "protected workspace file changed: TrustedStatement.lean") := by
  have hinput : sampleRuntime.validateInput sampleWorkspace.taskInput = .ok () := rfl
  have hne : "theorem t : False".toUTF8 ≠ "theorem t : True".toUTF8 := by
    rw [String.toUTF8_eq_toByteArray, String.toUTF8_eq_toByteArray, Ne, String.toByteArray_inj]
    decide
  have hdigest : sampleSha256 "theorem t : False".toUTF8 ≠ sampleSha256 "theorem t : True".toUTF8 := by
    rw [sampleSha256, sampleSha256, if_neg hne, if_pos rfl]
    decide
  have hchanged : sampleRuntime.validateProtected (files.writeText "TrustedStatement.lean" "theorem t : False")
      ⟨"TrustedStatement.lean", sampleSha256 "theorem t : True".toUTF8⟩ =
        .error (.workspaceIntegrityError "protected workspace file changed: TrustedStatement.lean") := by
    have hresolve : (files.writeText "TrustedStatement.lean" "theorem t : False").resolve "TrustedStatement.lean" = .ok () := by
      simp [Files.resolve, Files.writeText]
    rw [Runtime.validateProtected, hresolve, ok_bind, Files.readBytes_writeText]
    exact if_neg hdigest
  rw [Runtime.validateIntegrity, hinput, ok_bind]
  change (sampleRuntime.validateProtected _ ⟨"TrustedStatement.lean", sampleSha256 "theorem t : True".toUTF8⟩ >>= _) = _
  rw [hchanged, Raising.error_bind]

/-- The evidence is acceptable and its report is not: a protected file was changed during the run. -/
theorem tampered_run_refused :
    ∃ observation left, sampleVerifier.observe sampleRuntime sampleWorkspace sampleSubmission tamperingRunner
        (sampleRuntime.materializedFiles (sampleBundle ["propext"])) = .ok observation ∧
      Returned sampleRuntime sampleWorkspace sampleSubmission tamperingRunner
        (sampleRuntime.materializedFiles (sampleBundle ["propext"])) sampleRun left ∧
      AcceptableEvidence sampleRuntime sampleWorkspace.bundle sampleVerifier sampleRun ∧
      verificationFailures (sampleService.binding (sampleBundle ["propext"]) none) observation.report ≠ [] := by
  obtain ⟨prepared, hprepared, htrusted⟩ := samplePrepared
  have hreturned : Returned sampleRuntime sampleWorkspace sampleSubmission tamperingRunner
      (sampleRuntime.materializedFiles (sampleBundle ["propext"])) sampleRun
        (prepared.writeText "TrustedStatement.lean" "theorem t : False") := ⟨prepared, hprepared, rfl⟩
  have hinspect : inspect sampleRuntime sampleWorkspace sampleRun
      (prepared.writeText "TrustedStatement.lean" "theorem t : False") =
        .error (validationError "protected workspace file changed: TrustedStatement.lean") := by
    rw [inspect, statement_changed]
    rfl
  obtain ⟨observation, hobserved, hreport⟩ := sample_observed hreturned hinspect (List.forall_mem_nil _) nofun
    (by simp [reasons, validationError, PyText.isScalar_of])
  refine ⟨observation, _, hobserved, hreturned, sampleRun_acceptable, fun hfailures => ?_⟩
  have hkernel := (verificationFailures_eq_nil hfailures).kernel
  rw [hreport.kernel] at hkernel
  cases hkernel

end TrustedLeanVerifier
end Autolean.Prover
