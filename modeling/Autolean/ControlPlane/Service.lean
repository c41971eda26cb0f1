import Autolean.ControlPlane.TaskBinding
import Autolean.ControlPlane.Events

/-! The control plane's commands. Each is a program over the shared database, the
artifact store and the attestation verifier, and each operation it issues is a step of
its own, with whatever others do in between. -/
namespace Autolean.ControlPlane
open Contracts Machine Raising

/-- The stable command input a retry is bound to. A lease is named without its expiry. -/
inductive SemanticRequest where
  | registerBundle (bundleId : String) (bundleHash : Digest) (builderAttestationSignature : Option Digest)
  | claim (bundleId workerId : String) (ttlSeconds : PyFloat)
  | submitProof (bundleId : String) (lease : String × String × Nat) (submission : ProofSubmission)
  | reportGap (bundleId : String) (lease : String × String × Nat) (report : GapReport)
  | requestContractChange (bundleId : String) (lease : String × String × Nat) (request : ContractChangeRequest)
  | verifySubmission (bundleId : String) (lease : String × String × Nat) (report : VerificationReport)

/-- The request has a canonical JSON text. -/
def SemanticRequest.encodable : SemanticRequest → Bool
  | claim _ _ ttlSeconds => Json.encodable (.float ttlSeconds)
  | submitProof _ _ submission =>
    Json.encodable (.float submission.metrics.costUsd) && Json.encodableFields submission.remaining
  | reportGap _ _ report => Json.encodableFields report.remaining
  | requestContractChange _ _ request => Json.encodableFields request.remaining
  | registerBundle .. | verifySubmission .. => true

/-- What the control plane is deployed with: digests, text formats, the attestation
verifier, the review of a Builder fidelity artifact and the configuration flags. -/
structure Service where
  hashing : Hashing
  requestHash : SemanticRequest → Digest
  /-- `datetime.isoformat`. -/
  isoformat : Datetime → String
  /-- `datetime.fromisoformat(text.replace("Z", "+00:00"))`. -/
  fromIsoformat : String → Option Datetime
  /-- A datetime in the JSON of a contract model. -/
  jsonText : Datetime → String
  /-- `\w` of the `re` module. -/
  isWordChar : Char → Bool
  /-- `attestation_verifier.verify` accepts at this clock reading. -/
  verifies : Instant → Attestation → AttestationPurpose → AttestationPayload → Bool
  /-- The checks of a fidelity artifact's content against its bundle, past its schema. -/
  reviewFidelityArtifact : Handoff → JsonObject → Raises CanonicalTypeAssurance
  allowTestOnlyDirectVerifierAttestations : Bool
  allowTestOnlyUnreviewedBundles : Bool

/-! The operations a command issues -/

/-- The database file and the content-addressed blobs. -/
structure World where
  database : Database
  blobs : String → Option Artifact

inductive ServiceOp where
  | store (op : StoreOp)
  | verify (attestation : Attestation) (purpose : AttestationPurpose) (payload : AttestationPayload)
  | putArtifact (content : Artifact)
  | getArtifact (digest : String)
  | verifyArtifact (reference : ArtifactRef)

abbrev ServiceOp.Res : ServiceOp → Type
  | .store op => op.Res
  | .verify .. | .verifyArtifact _ => Unit
  | .putArtifact _ => ArtifactRef
  | .getArtifact _ => Artifact

abbrev serviceInterface : Interface := ⟨ServiceOp, ServiceOp.Res⟩

/-- What the environment supplies to one operation: the readings of a transaction, and
whether the file of a blob is found as it was written. -/
structure ServiceInput where
  readings : Readings
  intact : Bool

namespace Service

/-- The reference of a content: its digest and its length. -/
def reference (svc : Service) (content : Artifact) : ArtifactRef :=
  ⟨svc.hashing.artifactDigest content, svc.hashing.artifactSize content⟩

/-- The bytes of a blob, checked against the digest that names them. -/
def readBlob (svc : Service) (world : World) (intact : Bool) (digest : String) : Raises Artifact := do
  ensure (IsSha256 digest) (.valueError "digest must be 64 lowercase hexadecimal characters")
  match world.blobs digest with
  | none => .error (.artifactNotFound ("artifact sha256:" ++ digest ++ " does not exist"))
  | some content => do
    ensure (intact = true ∧ (svc.hashing.artifactDigest content).value = digest)
      (.artifactCorruption ("artifact sha256:" ++ digest ++ " failed integrity verification"))
    pure content

/-- `ArtifactStore.verify`: the blob has the digest and the length of its reference. -/
def verifyBlob (svc : Service) (world : World) (intact : Bool) (r : ArtifactRef) : Raises Unit :=
  match world.blobs r.digest.value with
  | none => .error (.artifactNotFound ("artifact sha256:" ++ r.digest.value ++ " does not exist"))
  | some content =>
    ensure (intact = true ∧ svc.reference content = r)
      (.artifactCorruption ("artifact sha256:" ++ r.digest.value ++ " failed integrity verification"))

/-- A blob is written once; a second content of the same digest leaves it as it is. -/
def storeBlob (svc : Service) (world : World) (content : Artifact) : World :=
  match world.blobs (svc.hashing.artifactDigest content).value with
  | some _ => world
  | none => { world with
      blobs := Function.update world.blobs (svc.hashing.artifactDigest content).value (some content) }

/-- One atomic operation. -/
def exec (svc : Service) : Semantics serviceInterface ControlPlaneError ServiceInput World
  | .store op, i, world => ((op.exec i.readings world.database).1,
      { world with database := (op.exec i.readings world.database).2 })
  | .verify attestation purpose payload, i, world =>
    (ensure (svc.verifies i.readings.now attestation purpose payload = true)
      (.attestationError "attestation was rejected"), world)
  | .putArtifact content, i, world =>
    ((do
      svc.verifyBlob (svc.storeBlob world content) i.intact (svc.reference content)
      pure (svc.reference content)), svc.storeBlob world content)
  | .getArtifact digest, i, world => (svc.readBlob world i.intact digest, world)
  | .verifyArtifact r, i, world => (svc.verifyBlob world i.intact r, world)

end Service

abbrev Call := Prog serviceInterface ControlPlaneError

/-- Issue one operation of the database. -/
def issue (op : StoreOp) : Call op.Res := Prog.perform (I := serviceInterface) (.store op)

def verifyAttestation (attestation : Attestation) (purpose : AttestationPurpose) (payload : AttestationPayload) :
    Call Unit := Prog.perform (I := serviceInterface) (.verify attestation purpose payload)

/-- `_put_model`. -/
def putModel (content : Artifact) : Call ArtifactRef := Prog.perform (I := serviceInterface) (.putArtifact content)

def getArtifact (digest : String) : Call Artifact := Prog.perform (I := serviceInterface) (.getArtifact digest)

def verifyArtifact (reference : ArtifactRef) : Call Unit := Prog.perform (I := serviceInterface) (.verifyArtifact reference)

def raising {α : Type} (x : Raises α) : Call α := Prog.ofExcept x

/-! Command keys -/

def Idempotency.make (scope key : String) (requestHash : Digest) : Raises Idempotency :=
  if hs : ¬ Blank scope then
    if hk : ¬ Blank key then .ok ⟨scope, key, requestHash.value, hs, hk, requestHash.isSha256.length⟩
    else .error (.valueError "idempotency key must not be empty")
  else .error (.valueError "idempotency scope must not be empty")

def Service.idempotency (svc : Service) (scope key : String) (request : SemanticRequest) : Raises Idempotency := do
  ensure (request.encodable = true) (.valueError "Out of range float values are not JSON compliant")
  Idempotency.make scope key (svc.requestHash request)

/-- `events[0]`. -/
def firstEvent : List StoredEvent → Raises StoredEvent
  | event :: _ => .ok event
  | [] => .error (.runtimeError "tuple index out of range")

def singleEvent : Option (List StoredEvent) → Raises (Option StoredEvent)
  | none => .ok none
  | some [event] => .ok (some event)
  | some _ => .error (.invalidTransition "corrupt idempotency record references multiple command events")

def replayedEvent (value : Idempotency) : Call (Option StoredEvent) := do
  let events ← issue (.lookupIdempotency value)
  raising (singleEvent events)

def Lease.identity (lease : Lease) : String × String × Nat := (lease.jobId, lease.holderId, lease.fencingToken)

/-! Bindings -/

/-- The first registration event of a task stream, read back. -/
def registeredBinding (bundleId : String) (events : List StoredEvent) : Raises TaskBinding :=
  match events.find? fun e => e.eventType = "task.registered" with
  | none => .error (.taskNotFound ("bundle '" ++ bundleId ++ "' is not registered"))
  | some registered => bindingFromPayload registered.payload

def getBinding (bundleId : String) : Call TaskBinding := do
  let events ← issue (.readStream "task" bundleId)
  raising (registeredBinding bundleId events)

def assertLease (bundleId : String) (lease : Lease) : Call Unit := do
  raising (ensure (lease.jobId = bundleId) (.invalidTransition "lease belongs to a different bundle"))
  issue (.assertCurrent lease)

def attestationNonce (attestation : Attestation) : AttestationNonce where
  purpose := attestation.purpose.value
  keyId := attestation.keyId
  nonce := attestation.nonce
  payloadHash := attestation.payloadHash.value
  purpose_bounded := by cases attestation.purpose <;> decide
  keyId_bounded := attestation.keyId_safe.bounded
  nonce_safe := attestation.nonce_safe
  payloadHash_sha256 := attestation.payloadHash.isSha256

namespace Service

/-! `register_bundle` -/

def requirePreparation (bundle : Handoff) : Raises Unit :=
  ensure ((bundle.contract.freeze.bind (·.sourcePreparation)).isSome = true)
    (.invalidTransition "Builder handoff requires committed source-preparation evidence")

def registerRequest (svc : Service) (bundle : FormalizationTaskBundle) : SemanticRequest :=
  .registerBundle bundle.bundleId.value (svc.hashing.handoffHash bundle.toHandoff)
    (bundle.builderAttestation.map (·.signature))

/-- An attestation error is reported as a rejected transition. -/
def rejectAttestation {α : Type} (message : String) : ControlPlaneError → Call α
  | .attestationError _ => throw (.invalidTransition message)
  | e => throw e

def verifyBuilderAttestation (svc : Service) (bundle : FormalizationTaskBundle) : Call Attestation := do
  match bundle.builderAttestation with
  | none => throw (.invalidTransition "a trusted Builder attestation is required before registration")
  | some attestation => do
    tryCatch (verifyAttestation attestation .builderFreeze (builderAttestationPayload svc.hashing bundle.toHandoff))
      (rejectAttestation "Builder attestation was rejected")
    pure attestation

/-- An artifact that cannot be read is reported as a rejected transition. -/
def rejectArtifact {α : Type} (message : String) : ControlPlaneError → Call α
  | .artifactCorruption _ | .artifactNotFound _ => throw (.invalidTransition message)
  | e => throw e

def jsonDefectMessage (label : String) : JsonDefect → String
  | .notStrict => label ++ " artifact is not strict JSON"
  | .notObject => label ++ " artifact must contain a JSON object"
  | .notCanonical => label ++ " artifact is not canonically serialized"

def canonicalJson (label : String) : Artifact → Raises Artifact
  | .other _ defect => .error (.invalidTransition (jsonDefectMessage label defect))
  | content => .ok content

/-- `_read_canonical_json_artifact`. -/
def readCanonicalJsonArtifact (digest label : String) : Call Artifact := do
  let content ← tryCatch (getArtifact digest) (rejectArtifact (label ++ " artifact is unavailable or corrupt"))
  raising (canonicalJson label content)

/-- The fields of a fidelity artifact; the other models' documents have another schema. -/
def fidelityFields : Artifact → Raises JsonObject
  | .json fields => do
    ensure (fields.get "schema_version" = some (.str "autolean.builder-fidelity-evidence.v1"))
      (.invalidTransition "Builder fidelity artifact has an unexpected schema")
    pure fields
  | _ => .error (.invalidTransition "Builder fidelity artifact has an unexpected schema")

def verifyBuilderFidelityArtifact (svc : Service) (bundle : Handoff) :
    Call (Option ArtifactRef × Option CanonicalTypeAssurance) := do
  match bundle.fidelityEvidence with
  | none => do
    raising (ensure (svc.allowTestOnlyUnreviewedBundles = true)
      (.invalidTransition "a canonical Builder fidelity artifact is required before registration"))
    pure (none, none)
  | some reference => do
    let artifact : ArtifactRef := ⟨reference.digest, reference.size⟩
    tryCatch (verifyArtifact artifact) (rejectArtifact "Builder fidelity artifact is unavailable or corrupt")
    let content ← readCanonicalJsonArtifact artifact.digest.value "Builder fidelity"
    let payload ← raising (fidelityFields content)
    let assurance ← raising (svc.reviewFidelityArtifact bundle payload)
    pure (some artifact, some assurance)

/-- The contract-revision binding of a bundle. -/
def revisionBinding (svc : Service) (bundle : Handoff) : ContractRevisionBinding where
  contractId := bundle.contract.contractId.value
  revision := bundle.contract.revision
  bundleId := bundle.bundleId.value
  bundleHash := (svc.hashing.handoffHash bundle).value
  contractHash := (svc.hashing.semanticHash bundle.contract.toContractSemantics).value
  ids_nonblank := ⟨bundle.contract.contractId.not_blank, bundle.bundleId.not_blank⟩
  revision_pos := bundle.contract.revision_pos
  bundleHash_sha256 := (svc.hashing.handoffHash bundle).isSha256
  contractHash_sha256 := (svc.hashing.semanticHash _).isSha256

/-- A lost race for the nonce or the slot is reported as a rejected transition. -/
def registrationError {α : Type} : ControlPlaneError → Call α
  | .attestationReplay _ => throw (.invalidTransition "Builder attestation nonce was replayed")
  | .contractRevisionConflict _ => throw (.invalidTransition
      "contract revision or bundle ID is already bound to a different frozen bundle")
  | e => throw e

/-- The stored binding is read back and compared with the requested one. -/
def storedBinding (binding : TaskBinding) (events : List StoredEvent) : Raises TaskBinding := do
  let event ← firstEvent events
  let stored ← bindingFromPayload event.payload
  ensure (SameLogicalBinding stored binding)
    (.projectionError "canonical registration event disagrees with the requested immutable bundle")
  pure stored

/-- `register_bundle` past its replay check. -/
def registerNew (svc : Service) (bundle : FormalizationTaskBundle) (idempotency : Idempotency) : Call TaskBinding := do
  let attestation ← svc.verifyBuilderAttestation bundle
  let (_, assurance) ← svc.verifyBuilderFidelityArtifact bundle.toHandoff
  let artifact ← putModel (.bundle bundle)
  let binding := bindingFromBundle svc.hashing bundle.toHandoff assurance artifact
  let payload ← raising (jsonObject (registrationPayload binding (attestationSummary svc.isoformat attestation)))
  let events ← tryCatch
    (issue (.write (.registration (svc.revisionBinding bundle.toHandoff) ⟨"task.registered", payload, []⟩ idempotency
      (attestationNonce attestation))))
    registrationError
  raising (storedBinding binding events)

/-- Register an immutable Builder handoff before any worker can claim it. -/
def registerBundle (svc : Service) (bundle : FormalizationTaskBundle) (idempotencyKey : String) : Call TaskBinding := do
  raising (requirePreparation bundle.toHandoff)
  let idempotency ← raising (svc.idempotency "register_bundle" idempotencyKey (svc.registerRequest bundle))
  match ← replayedEvent idempotency with
  | some replayed => raising (bindingFromPayload replayed.payload)
  | none => svc.registerNew bundle idempotency

/-! `claim` -/

structure ClaimReceipt where
  lease : Lease
  event : StoredEvent

def claimReceiptFromEvent (svc : Service) (bundleId : String) (event : StoredEvent) : Raises ClaimReceipt := do
  let text ← requiredText event.payload "expires_at"
  match svc.fromIsoformat text with
  | none => .error (.invalidTransition "corrupt claimed-task expiry timestamp")
  | some expiresAt => do
    let holderId ← requiredText event.payload "worker_id"
    let fencingToken ← requiredInt event.payload "fencing_token"
    ensure (0 < fencingToken) (.valueError "fencing_token must be positive")
    let lease ← Lease.make bundleId holderId fencingToken.toNat expiresAt
    pure ⟨lease, event⟩

def claimPayload (svc : Service) (workerId : String) (lease : Lease) : JsonObject :=
  [("worker_id", .str workerId), ("fencing_token", .int lease.fencingToken),
    ("expires_at", .str (svc.isoformat lease.expiresAt))]

/-- `timedelta(seconds=...)` takes finite numbers. -/
def finiteSeconds : PyFloat → Raises ℚ
  | .finite q => .ok q
  | _ => .error .overflowError

/-- `claim` past its replay check. -/
def claimNew (svc : Service) (bundleId workerId : String) (ttlSeconds : PyFloat) (idempotency : Idempotency) :
    Call ClaimReceipt := do
  let _ ← getBinding bundleId
  let ttl ← raising (finiteSeconds ttlSeconds)
  let lease ← issue (.claimLease bundleId workerId ttl)
  let payload ← raising (jsonObject (svc.claimPayload workerId lease))
  let expected ← issue (.currentSequence "task" bundleId)
  let events ← issue (.write (.append ⟨"task", bundleId, [⟨"task.claimed", payload, []⟩], some idempotency, none⟩
    (expected : Int)))
  let event ← raising (firstEvent events)
  pure ⟨lease, event⟩

/-- Acquire a fenced worker lease for a registered bundle. -/
def claim (svc : Service) (bundleId workerId : String) (ttlSeconds : PyFloat) (idempotencyKey : String) :
    Call ClaimReceipt := do
  let idempotency ← raising (svc.idempotency "claim" idempotencyKey (.claim bundleId workerId ttlSeconds))
  match ← replayedEvent idempotency with
  | some replayed => raising (svc.claimReceiptFromEvent bundleId replayed)
  | none => svc.claimNew bundleId workerId ttlSeconds idempotency

/-! The fenced commands -/

/-- A fenced command's own batch: one event of a fresh stream. -/
def fencedWrite (entityType entityId bundleId : String) (lease : Lease) (eventType : String) (payload : JsonObject)
    (idempotency : Idempotency) (nonce : Option AttestationNonce) : AppendCall :=
  .appendFenced ⟨entityType, entityId, [⟨eventType, payload, []⟩], some idempotency, nonce⟩ bundleId lease 0

def validateReportBinding (binding : TaskBinding) (contractId : StableIdentifier) (revision : Int)
    (contractHash : Digest) : Raises Unit := do
  ensure (contractId.value = binding.contractId) (.invalidTransition "report binds a different stable contract ID")
  ensure (revision = binding.revision) (.invalidTransition "report binds a different contract revision")
  ensure (contractHash.value = binding.contractHash)
    (.invalidTransition "report binds a different frozen contract hash")

def validateProofBinding (binding : TaskBinding) (submission : ProofSubmission) : Raises Unit := do
  validateReportBinding binding submission.contractId submission.revision submission.contractHash
  ensure (submission.environmentHash.value = binding.environmentHash)
    (.invalidTransition "proof submission environment does not match the frozen bundle")
  ensure (submission.proofBoundaryHash.value = binding.proofBoundaryHash)
    (.invalidTransition "proof submission does not bind the frozen proof boundary")

/-- `\b(?:sorry|admit)\b|sorryAx` matches at this place of the text. -/
def placeholderAt (svc : Service) (before : Option Char) (rest : List Char) : Bool :=
  "sorryAx".toList.isPrefixOf rest || ["sorry", "admit"].any fun word =>
    word.toList.isPrefixOf rest && !before.any svc.isWordChar && !(rest.drop word.length).head?.any svc.isWordChar

def hasPlaceholder (svc : Service) : Option Char → List Char → Bool
  | _, [] => false
  | before, c :: rest => svc.placeholderAt before (c :: rest) || svc.hasPlaceholder (some c) rest

/-- The provider and model of the last complete model trace. -/
def modelAttribution (submission : ProofSubmission) : String × String :=
  let traces := submission.provenance.filterMap fun trace =>
    match trace.actorKind, trace.provider, trace.modelName with
    | .model, some provider, some modelName =>
      if provider ≠ "" ∧ modelName ≠ "" then some (provider, modelName) else none
    | _, _, _ => none
  traces.getLast?.getD ("unattributed", "unattributed")

def proofPayload (svc : Service) (bundleId : String) (lease : Lease) (submission : ProofSubmission)
    (artifact : ArtifactRef) : JsonObject :=
  [("bundle_id", .str bundleId), ("proof_id", .str submission.proofId.value),
    ("contract_id", .str submission.contractId.value), ("revision", .int submission.revision),
    ("contract_hash", .str submission.contractHash.value),
    ("proof_boundary_hash", .str submission.proofBoundaryHash.value),
    ("environment_hash", .str submission.environmentHash.value),
    ("dependency_manifest_hash",
      .str (svc.hashing.proofDependencyManifestHash submission.proofId submission.dependencyManifest).value),
    ("provider", .str (modelAttribution submission).1), ("model", .str (modelAttribution submission).2),
    ("input_tokens", .int submission.metrics.inputTokens), ("output_tokens", .int submission.metrics.outputTokens),
    ("cached_input_tokens", .int submission.metrics.cachedInputTokens),
    ("cost_usd", .float submission.metrics.costUsd), ("duration_ms", .int submission.metrics.elapsedMs),
    ("proof_artifact", .dict (artifactPayload artifact "proof_submission")), ("fencing_token", .int lease.fencingToken)]

/-- `submit_proof` past its replay check. -/
def submitNew (svc : Service) (bundleId : String) (lease : Lease) (submission : ProofSubmission)
    (idempotency : Idempotency) : Call StoredEvent := do
  let binding ← getBinding bundleId
  assertLease bundleId lease
  raising (validateProofBinding binding submission)
  raising (ensure (¬ svc.hasPlaceholder none submission.proofSource.value.toList = true)
    (.invalidTransition "proof submissions may not contain sorry, admit, or sorryAx"))
  let artifact ← putModel (.proofSubmission submission)
  let payload ← raising (jsonObject (svc.proofPayload bundleId lease submission artifact))
  let events ← issue (.write
    (fencedWrite "proof" submission.proofId.value bundleId lease "proof.submitted" payload idempotency none))
  raising (firstEvent events)

/-- Record a Prover candidate without granting it any verification status. -/
def submitProof (svc : Service) (bundleId : String) (lease : Lease) (submission : ProofSubmission)
    (idempotencyKey : String) : Call StoredEvent := do
  let idempotency ← raising
    (svc.idempotency "submit_proof" idempotencyKey (.submitProof bundleId lease.identity submission))
  match ← replayedEvent idempotency with
  | some replayed => pure replayed
  | none => svc.submitNew bundleId lease submission idempotency

def gapPayload (bundleId : String) (lease : Lease) (report : GapReport) (artifact : ArtifactRef) : JsonObject :=
  [("bundle_id", .str bundleId), ("report_id", .str report.reportId.value), ("kind", .str report.kind.value),
    ("contract_hash", .str report.contractHash.value), ("gap_artifact", .dict (artifactPayload artifact "gap_report")),
    ("fencing_token", .int lease.fencingToken)]

/-- `report_gap` past its replay check. -/
def reportNew (bundleId : String) (lease : Lease) (report : GapReport) (idempotency : Idempotency) :
    Call StoredEvent := do
  let binding ← getBinding bundleId
  assertLease bundleId lease
  raising (validateReportBinding binding report.contractId report.revision report.contractHash)
  let artifact ← putModel (.gapReport report)
  let payload ← raising (jsonObject (gapPayload bundleId lease report artifact))
  let events ← issue (.write
    (fencedWrite "gap" report.reportId.value bundleId lease "gap.reported" payload idempotency none))
  raising (firstEvent events)

/-- Persist evidence of a gap without changing the frozen statement. -/
def reportGap (svc : Service) (bundleId : String) (lease : Lease) (report : GapReport) (idempotencyKey : String) :
    Call StoredEvent := do
  let idempotency ← raising (svc.idempotency "report_gap" idempotencyKey (.reportGap bundleId lease.identity report))
  match ← replayedEvent idempotency with
  | some replayed => pure replayed
  | none => reportNew bundleId lease report idempotency

def changePayload (bundleId : String) (lease : Lease) (request : ContractChangeRequest) (artifact : ArtifactRef) :
    JsonObject :=
  [("bundle_id", .str bundleId), ("request_id", .str request.requestId.value),
    ("contract_id", .str request.contractId.value), ("old_revision", .int request.oldRevision),
    ("old_contract_hash", .str request.oldContractHash.value),
    ("request_artifact", .dict (artifactPayload artifact "contract_change_request")),
    ("fencing_token", .int lease.fencingToken)]

/-- `request_contract_change` past its replay check. -/
def requestNew (bundleId : String) (lease : Lease) (request : ContractChangeRequest) (idempotency : Idempotency) :
    Call StoredEvent := do
  let binding ← getBinding bundleId
  assertLease bundleId lease
  raising (validateReportBinding binding request.contractId request.oldRevision request.oldContractHash)
  let artifact ← putModel (.contractChangeRequest request)
  let payload ← raising (jsonObject (changePayload bundleId lease request artifact))
  let events ← issue (.write (fencedWrite "contract_change_request" request.requestId.value bundleId lease
    "contract_change.requested" payload idempotency none))
  raising (firstEvent events)

/-- Record a request for Builder review; the statement stays as it is. -/
def requestContractChange (svc : Service) (bundleId : String) (lease : Lease) (request : ContractChangeRequest)
    (idempotencyKey : String) : Call StoredEvent := do
  let idempotency ← raising (svc.idempotency "request_contract_change" idempotencyKey
    (.requestContractChange bundleId lease.identity request))
  match ← replayedEvent idempotency with
  | some replayed => pure replayed
  | none => requestNew bundleId lease request idempotency

end Service
end Autolean.ControlPlane
