import Autolean.ControlPlane.Claims

/-! Soundness of accepted verdicts. The link from a proof to its bundle is checked nowhere:
it follows from the hash of the contract both bind and from the uniqueness of
registrations. -/
namespace Autolean.ControlPlane
open Contracts Machine Raising

/-- The report passes every gate against a frozen allowlist and profile. -/
structure PassesGates (report : VerificationObservation) (axioms : List String) (profile : String) : Prop where
  independent : report.independent = true
  kernel : report.kernelPassed = true
  build : report.buildPassed = true
  dependencies : report.dependencyCheckPassed = true
  environment : report.cleanEnvironment = true
  complete : "sorryAx" ∉ report.observedAxioms
  approved : ∀ a ∈ report.observedAxioms, a ∈ axioms
  strict : profile = AxiomProfile.strict.value → report.observedAxioms = []

theorem unapprovedAxioms_eq_nil {binding : TaskBinding} {report : VerificationObservation} :
    unapprovedAxioms binding report = [] ↔ ∀ a ∈ report.observedAxioms, a ∈ binding.axiomsAllowlist := by
  simp only [List.eq_nil_iff_forall_not_mem, unapprovedAxioms, mem_frozenset, List.mem_filter, decide_eq_true_eq, not_and,
    not_not]

/-- A report without failures passes every gate. -/
theorem verificationFailures_eq_nil {binding : TaskBinding} {report : VerificationObservation}
    (h : verificationFailures binding report = []) : PassesGates report binding.axiomsAllowlist binding.axiomProfile := by
  simp only [verificationFailures, List.append_eq_nil_iff, ite_eq_left_iff, ite_eq_right_iff, List.cons_ne_nil, imp_false,
    not_not] at h
  obtain ⟨⟨⟨⟨⟨⟨⟨hindependent, hkernel⟩, hbuild⟩, hdependencies⟩, henvironment⟩, hcomplete⟩, happroved⟩, hstrict⟩ := h
  refine ⟨hindependent, hkernel, hbuild, hdependencies, henvironment, hcomplete,
    unapprovedAxioms_eq_nil.mp happroved, fun hp => ?_⟩
  by_contra hne
  exact hstrict ⟨hp, hne⟩

theorem verdictType_accepted {reasons : List String} (h : verdictType reasons = "verification.accepted") :
    reasons = [] := by
  unfold verdictType at h
  split at h
  · assumption
  · simp at h

theorem validateVerificationBinding_ok {binding : TaskBinding} {report : VerificationReport} {proof : JsonObject}
    (h : validateVerificationBinding binding report proof = .ok ()) :
    proof.get "contract_hash" = some (.str report.contractHash.value) ∧
      proof.get "proof_boundary_hash" = some (.str report.proofBoundaryHash.value) ∧
      report.contractHash.value = binding.contractHash ∧ report.proofBoundaryHash.value = binding.proofBoundaryHash ∧
      report.environmentHash.value = binding.environmentHash := by
  unfold validateVerificationBinding at h
  obtain ⟨contractHash, hch, h⟩ := bind_eq_ok.mp h
  obtain ⟨hc, h⟩ := ensure_bind_eq_ok.mp h
  obtain ⟨boundaryHash, hbh, h⟩ := bind_eq_ok.mp h
  obtain ⟨hb, h⟩ := ensure_bind_eq_ok.mp h
  obtain ⟨hbc, h⟩ := ensure_bind_eq_ok.mp h
  obtain ⟨hbb, h⟩ := ensure_bind_eq_ok.mp h
  obtain ⟨hbe, -⟩ := ensure_bind_eq_ok.mp h
  exact ⟨hc ▸ (requiredText_ok hch).1, hb ▸ (requiredText_ok hbh).1, hbc, hbb, hbe⟩

theorem validateReportBinding_ok {binding : TaskBinding} {contractId : StableIdentifier} {revision : Int}
    {contractHash : Digest} {u : Unit} (h : Service.validateReportBinding binding contractId revision contractHash = .ok u) :
    contractId.value = binding.contractId ∧ revision = binding.revision ∧ contractHash.value = binding.contractHash := by
  unfold Service.validateReportBinding at h
  obtain ⟨hi, h⟩ := ensure_bind_eq_ok.mp h
  obtain ⟨hr, h⟩ := ensure_bind_eq_ok.mp h
  exact ⟨hi, hr, ensure_eq_ok.mp h⟩

theorem validateProofBinding_ok {binding : TaskBinding} {submission : ProofSubmission}
    (h : Service.validateProofBinding binding submission = .ok ()) :
    submission.contractId.value = binding.contractId ∧ submission.revision = binding.revision ∧
      submission.contractHash.value = binding.contractHash := by
  obtain ⟨_, hreport, -⟩ := bind_eq_ok.mp h
  exact validateReportBinding_ok hreport

section
variable {θ : Type} {svc : Service} {commands : θ → Command} {w : World} {e : StoredEvent}

/-- The contracts of the handoffs the clients present. -/
def presentedContracts (commands : θ → Command) : Set ContractSemantics :=
  { s | ∃ i bundle key, commands i = .registerBundle bundle key ∧ s = bundle.contract.toContractSemantics }

/-- Everything an accepted verdict on a proof rests on. -/
structure AcceptedOn (svc : Service) (commands : θ → Command) (w : World) (before : List StoredEvent) (e : StoredEvent)
    (bundle : FormalizationTaskBundle) (proof : StoredEvent) (report : VerificationReport) (attestation : Attestation) :
    Prop where
  presented : ∃ i lease key, commands i = .verifySubmission bundle.bundleId.value lease report key ∧
    e.payload = verificationPayload svc bundle.bundleId.value lease report [] attestation
      (svc.reference (.verificationReport report))
  entityId : e.entityId = report.proofId.value
  registered : ∃ r assurance, RegisteredAs svc commands before bundle assurance r
  contractHash : report.contractHash = svc.hashing.semanticHash bundle.contract.toContractSemantics
  boundaryHash : report.proofBoundaryHash = bundle.proofBoundary.boundaryHash
  environmentHash : report.environmentHash = bundle.contract.formal.environment.environmentHash
  submitted : Submitted before report.proofId.value proof
  only_submission : ∀ p ∈ w.database.events, p.eventType = "proof.submitted" → p.entityId = report.proofId.value → p = proof
  proof_bundle : proof.payload.get "bundle_id" = some (.str bundle.bundleId.value)
  proof_contract : proof.payload.get "contract_id" = some (.str bundle.contract.contractId.value) ∧
    proof.payload.get "revision" = some (.int bundle.contract.revision) ∧
    proof.payload.get "contract_hash" = some (.str report.contractHash.value) ∧
    proof.payload.get "proof_boundary_hash" = some (.str report.proofBoundaryHash.value)
  gates : PassesGates report.toVerificationObservation bundle.contract.formal.axiomsAllowlist bundle.contract.axiomProfile.value
  signed : report.verifierAttestation = some attestation
  consumed : Consumed svc commands w e (attestationNonce attestation)
  only_consumer : ∀ e' ∈ w.database.events, ∀ n, Consumed svc commands w e' n →
    n.primaryKey = (attestationNonce attestation).primaryKey → e' = e

/-- A terminal verdict on a proof. -/
def StoredEvent.IsVerdict (e : StoredEvent) : Prop :=
  e.eventType = "verification.accepted" ∨ e.eventType = "verification.rejected"

theorem Lawful.entityType_of_verdict (h : Lawful svc commands w) (he : e ∈ w.database.events) (hv : e.IsVerdict) :
    e.entityType = "verification" := by
  have hk := h.kind he
  rcases hv with hv | hv <;> simpa [eventKinds, hv] using hk

theorem Lawful.entityType_of_submission (h : Lawful svc commands w) (he : e ∈ w.database.events)
    (ht : e.eventType = "proof.submitted") : e.entityType = "proof" := by
  have hk := h.kind he
  simpa [eventKinds, ht] using hk

theorem Digest.eq_of_value {a b : Digest} (h : a.value = b.value) : a = b := by
  cases a
  cases b
  cases h
  rfl

/-- Two bindings of one contract hash come from one registration, where the hash tells the
presented contracts apart. -/
theorem Lawful.registered_same_contract (h : Lawful svc commands w)
    (hinj : Set.InjOn svc.hashing.semanticHash (presentedContracts commands)) {log log' : List StoredEvent}
    (hl : log ⊆ w.database.events) (hl' : log' ⊆ w.database.events) {r r' : StoredEvent}
    {bundle bundle' : FormalizationTaskBundle} {a a' : Option CanonicalTypeAssurance}
    (hr : RegisteredAs svc commands log bundle a r) (hr' : RegisteredAs svc commands log' bundle' a' r')
    (hc : (svc.binding bundle a).contractHash = (svc.binding bundle' a').contractHash) :
    bundle.contract.toContractSemantics = bundle'.contract.toContractSemantics ∧ r = r' := by
  obtain ⟨i, key, hcmd⟩ := hr.presented
  obtain ⟨i', key', hcmd'⟩ := hr'.presented
  have hsem : bundle.contract.toContractSemantics = bundle'.contract.toContractSemantics :=
    hinj ⟨i, bundle, key, hcmd, rfl⟩ ⟨i', bundle', key', hcmd', rfl⟩ (Digest.eq_of_value hc)
  refine ⟨hsem, h.registration_unique_revision hl hl' hr hr' ?_ ?_⟩
  · exact congrArg ContractSemantics.contractId hsem
  · exact congrArg ContractSemantics.revision hsem

/-- An accepted verdict of a lawful log rests on its bundle, its proof and its gates. -/
theorem Lawful.accepted (h : Lawful svc commands w) (hinj : Set.InjOn svc.hashing.semanticHash (presentedContracts commands))
    {before after : List StoredEvent} (hl : w.database.events = before ++ e :: after)
    (ht : e.eventType = "verification.accepted") :
    ∃ bundle proof report attestation, AcceptedOn svc commands w before e bundle proof report attestation := by
  have he : e ∈ w.database.events := by simp [hl]
  have hbefore : before ⊆ w.database.events := by
    rw [hl]
    exact List.subset_append_left _ _
  have hty := h.entityType_of_verdict he (.inl ht)
  obtain ⟨i, bundleId, lease, report, key, binding, proof, attestation, hcmd, hreg, hsub, hbound, hsigned, -, hid, hverdict,
    hp, hconsumed⟩ := h.verdict hl hty
  have hreasons := verdictType_accepted (hverdict.symm.trans ht)
  obtain ⟨r, bundle, assurance, hr, rfl, -, rfl⟩ := h.registered hbefore hreg
  obtain ⟨hch, hbh, hbc, hbb, hbe⟩ := validateVerificationBinding_ok hbound
  obtain ⟨hproof, hpt, hpid, hpe⟩ := hsub
  obtain ⟨front, back, hsplit⟩ := List.append_of_mem (hbefore hproof)
  obtain ⟨i', bundleId', lease', submission, key', binding', -, hreg', hbound', -, -, hpp⟩ := h.submission hsplit hpt
  have hfront : front ⊆ w.database.events := by
    rw [hsplit]
    exact List.subset_append_left _ _
  obtain ⟨r', bundle', assurance', hr', rfl, -, rfl⟩ := h.registered hfront hreg'
  obtain ⟨hsi, hsr, hsc⟩ := validateProofBinding_ok hbound'
  have hpc : submission.contractHash.value = report.contractHash.value := by
    rw [hpp] at hch
    simpa [Service.proofPayload, JsonObject.get, List.lookup] using hch
  obtain ⟨hsem, hrr⟩ := h.registered_same_contract hinj hbefore hfront hr hr'
    (hbc.symm.trans (hpc.symm.trans hsc))
  have hbundle : bundle.bundleId.value = bundle'.bundleId.value := by rw [← hr.entityId, ← hr'.entityId, hrr]
  rw [hreasons] at hp
  refine ⟨bundle, proof, report, attestation, ?_⟩
  exact {
    presented := ⟨i, lease, key, hcmd, hp⟩
    entityId := hid
    registered := ⟨r, assurance, hr⟩
    contractHash := Digest.eq_of_value hbc
    boundaryHash := Digest.eq_of_value hbb
    environmentHash := Digest.eq_of_value hbe
    submitted := ⟨hproof, hpt, hpid, hpe⟩
    only_submission := fun p hp' hpt' hpid' =>
      h.alone hp' (hbefore hproof) ((h.entityType_of_submission hp' hpt').trans hpt.symm) (hpid'.trans hpid.symm)
        (by rw [h.entityType_of_submission hp' hpt']; decide)
    proof_bundle := by
      rw [hpp, hbundle]
      rfl
    proof_contract := by
      have hcid : submission.contractId.value = bundle.contract.contractId.value :=
        hsi.trans (congrArg (fun c => c.contractId.value) hsem.symm)
      have hrev : submission.revision = bundle.contract.revision :=
        hsr.trans (congrArg ContractSemantics.revision hsem.symm)
      refine ⟨?_, ?_, hch, hbh⟩
      · rw [hpp, ← hcid]
        rfl
      · rw [hpp, ← hrev]
        rfl
    gates := by
      have hgates := verificationFailures_eq_nil hreasons
      exact { hgates with approved := fun a ha => mem_frozenset.mp (hgates.approved a ha) }
    signed := hsigned
    consumed := hconsumed
    only_consumer := fun e' he' n hn hkey =>
      have hstream := hn.stream hconsumed hkey
      h.alone he' he hstream.1 hstream.2 (by rw [hstream.1, hty]; decide) }

/-- Each accepted verdict rests on the one submission of its proof, for the registered bundle
whose contract it names, passes every gate and alone consumes its nonce; and a proof has at
most one terminal verdict. -/
def VerdictsSound (svc : Service) (commands : θ → Command) (w : World) : Prop :=
  (∀ before e after, w.database.events = before ++ e :: after → e.eventType = "verification.accepted" →
    ∃ bundle proof report attestation, AcceptedOn svc commands w before e bundle proof report attestation) ∧
  ∀ e ∈ w.database.events, ∀ e' ∈ w.database.events, e.IsVerdict → e'.IsVerdict → e.entityId = e'.entityId → e = e'

/-- Every reachable log is sound, where the semantic hash tells the presented contracts apart. -/
theorem accepted_verdict_sound [DecidableEq θ] (svc : Service) (commands : θ → Command) (labels : List (θ × ServiceInput))
    (hinj : Set.InjOn svc.hashing.semanticHash (presentedContracts commands)) :
    VerdictsSound svc commands (run (CommandPool.step svc) (CommandPool.start svc commands) labels).state := by
  have hw := (run_sound_any svc commands labels).inv
  refine ⟨fun before e after hl ht => hw.accepted hinj hl ht, fun e he e' he' hv hv' hid => ?_⟩
  have ht := hw.entityType_of_verdict he hv
  have ht' := hw.entityType_of_verdict he' hv'
  exact hw.alone he he' (ht.trans ht'.symm) hid (by rw [ht]; decide)

end

/-! One accepted proof -/

def sampleLeaseOf : Lease :=
  ⟨sampleId.value, "worker", 1, ⟨60000000, 0⟩, sampleId.not_blank, sampleLease.holderId_nonblank, sampleLease.token_pos⟩

def sampleProtocol : Text := ⟨"autolean.oci-lean-wrapper.v1", by decide⟩

def sampleSubmission : ProofSubmission where
  proofId := sampleId
  contractId := sampleId
  revision := 1
  contractHash := sampleDigest
  proofBoundaryHash := sampleDigest
  proofSource := ⟨"by trivial", by decide⟩
  environmentHash := sampleDigest
  dependencyManifest := []
  provenance := []
  metrics := ⟨0, 0, 0, .finite 0, 0⟩
  remaining := []

def sampleEvidence : VerificationEvidence where
  evidenceId := sampleId
  environmentHash := sampleDigest
  workerImageDigest := sampleImage
  wrapperProtocol := sampleProtocol
  leanVersion := sampleVersion
  mathlibRevision := sampleRevision
  lakeManifestHash := none
  dependencyManifestHash := sampleDigest
  commandPolicyHash := sampleDigest
  commandHash := sampleDigest
  evidenceArtifactDigest := sampleEvidenceDigest
  capturedAt := ⟨0, 0⟩

/-- A report that observed the given axioms. -/
def sampleReport (axioms : List String) : VerificationReport where
  reportId := sampleId
  proofId := sampleId
  contractHash := sampleDigest
  proofBoundaryHash := sampleDigest
  verifierId := ⟨"verifier", by decide⟩
  independent := true
  kernelPassed := true
  buildPassed := true
  dependencyCheckPassed := true
  cleanEnvironment := true
  environmentHash := sampleDigest
  axiomProfile := .mathlib
  observedAxioms := axioms
  details := ⟨"checked", by decide⟩
  verifiedAt := ⟨0, 0⟩
  evidence := some sampleEvidence
  verifierAttestation := some (sampleAttestation .verification "nonce-9876543210" (by decide +kernel))
  attestation_purpose := by rintro _ ⟨rfl⟩; rfl

def sampleEvidenceArtifact : VerificationEvidenceArtifact where
  evidenceId := sampleId
  bundleId := sampleId
  bundleHash := sampleDigest
  contractId := sampleId
  revision := 1
  contractHash := sampleDigest
  proofId := sampleId
  proofBoundaryHash := sampleDigest
  proofSubmissionArtifactDigest := sampleProofDigest
  dependencyManifestHash := sampleDigest
  verificationReportId := sampleId
  verificationObservationHash := sampleDigest
  environment := ⟨sampleDigest, sampleVersion, sampleRevision, none⟩
  oci := ⟨sampleImage, sampleProtocol, sampleDigest, sampleDigest, sampleDigest, sampleDigest,
    sampleDigest, some ⟨"worker", 1, ⟨60000000, 0⟩⟩⟩
  remaining := []

def verifyingCommands : Fin 5 → Command
  | 0 => .registerBundle (sampleBundle ["propext"]) "register"
  | 1 => .claimLease sampleId.value "worker" 60
  | 2 => .submitProof sampleId.value sampleLeaseOf sampleSubmission "submit"
  | 3 => .putArtifact (.verificationEvidence sampleEvidenceArtifact)
  | 4 => .verifySubmission sampleId.value sampleLeaseOf (sampleReport ["propext"]) "verify"

/-- Each command in turn, to its end. -/
def verifyingRun : List (Fin 5 × ServiceInput) :=
  List.replicate 4 (stepOf 0 0 'a') ++ [stepOf 1 0 'b'] ++ List.replicate 5 (stepOf 2 0 'c') ++ [stepOf 3 0 'd'] ++
    List.replicate 11 (stepOf 4 0 'e')

theorem accepted_verdict_sound_verifyingRun :
    let w := (run (CommandPool.step sampleService) (CommandPool.start sampleService verifyingCommands) verifyingRun).state
    VerdictsSound sampleService verifyingCommands w ∧
      w.database.events.map (·.eventType) = ["task.registered", "proof.submitted", "verification.accepted"] := by
  refine ⟨accepted_verdict_sound sampleService verifyingCommands verifyingRun ?_, by decide +kernel⟩
  have only (i : Fin 5) (bundle : FormalizationTaskBundle) (key : String)
      (h : verifyingCommands i = .registerBundle bundle key) : bundle = sampleBundle ["propext"] := by
    fin_cases i
    · exact (Command.registerBundle.inj h).1.symm
    all_goals cases h
  rintro _ ⟨i, bundle, key, hi, rfl⟩ _ ⟨j, bundle', key', hj, rfl⟩ -
  rw [only i bundle key hi, only j bundle' key' hj]

end Autolean.ControlPlane
