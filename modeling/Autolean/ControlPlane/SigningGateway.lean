import Autolean.ControlPlane.Verification

/-! The verifier signing gateway. `issue` re-reads the control plane, has the run repeated by
an independent verifier, reserves the request in a ledger, signs, and records what it signed;
each operation is a step of its own, and a crash is a call that takes no further step. -/
namespace Autolean.ControlPlane
open Contracts Machine Raising

/-! Requests and receipts -/

/-- One replay-protected request, as its validators leave it. -/
@[ext]
structure VerificationSigningRequest (svc : Service) where
  requestId : StableIdentifier
  requestNonce : String
  idempotencyKey : String
  requestedAt : Datetime
  expiresAt : Datetime
  lease : VerificationSigningLeaseBinding
  context : VerificationSigningContext
  canonicalPayloadHash : Digest
  nonce_shaped : IsAttestationNonce requestNonce
  key_safe : IsSafeId idempotencyKey
  expires_after_request : requestedAt.instant < expiresAt.instant
  within_lease : expiresAt.instant ≤ lease.expiresAt.instant
  same_bundle : lease.bundleId = context.bundleId
  payload_bound : canonicalPayloadHash =
    svc.hashing.attestationPayloadHash .verification (gatewayAttestationPayload svc lease context)

/-- The payload the signature of a request covers. -/
def VerificationSigningRequest.payload {svc : Service}
    (request : VerificationSigningRequest svc) : AttestationPayload :=
  gatewayAttestationPayload svc request.lease request.context

structure IndependentExecutionReceiptAuthentication where
  keyId : String
  algorithm : String
  authenticatedReceiptHash : String
  signature : String

/-- What the hash of a receipt covers. A naive timestamp is `none`. -/
structure ReceiptFacts where
  receiptId : String
  verifierId : String
  checkedAt : Option Instant
  requestHash : String
  evidenceArtifactDigest : String
  evidenceDigest : String
  executionClaimHash : String

/-- The record of a second verifier's execution check. -/
structure IndependentExecutionReceipt extends ReceiptFacts where
  receiptHash : String
  authentication : Option IndependentExecutionReceiptAuthentication

/-- `^[0-9a-f]{64,512}$`. -/
def IsReceiptSignature (s : String) : Prop :=
  64 ≤ s.toList.length ∧ s.toList.length ≤ 512 ∧
    s.toList.all (fun c => ('0' ≤ c && c ≤ '9') || ('a' ≤ c && c ≤ 'f')) = true

instance decidableIsReceiptSignature (s : String) : Decidable (IsReceiptSignature s) :=
  inferInstanceAs (Decidable (_ ∧ _ ∧ _))

inductive IndependentExecutionClass where
  | production
  | testOnly
  deriving DecidableEq

/-- The trusted verifiers by identity, each with the key its receipts are authenticated under. -/
structure IndependentExecutionTrustPolicy where
  gatewaySigningKeyId : String
  executionClass : IndependentExecutionClass
  trustedVerifiers : String → Option String

/-- What the gateway raises. A foreign error comes out of the signer, a verifier or the
authenticator; one that is no `Exception` passes every handler. -/
inductive GatewayError where
  | control (e : ControlPlaneError)
  | rejected (message : String)
  | replay (message : String)
  | unavailable (message : String)
  | productionUnavailable (message : String)
  | foreign (isException : Bool)

abbrev GatewayRaises := Except GatewayError

/-- The construction arguments of the gateway, with the text formats it stores. -/
structure VerifierSigningGateway where
  control : Service
  trustPolicy : IndependentExecutionTrustPolicy
  approvedImageIdentities : String → Option String
  maxTtlSeconds : ℚ
  /-- `VerificationSigningRequestV1.request_hash`. -/
  requestHash : VerificationSigningRequest control → Digest
  /-- The hash `IndependentExecutionReceiptV1.create` computes. -/
  receiptHash : ReceiptFacts → String
  /-- `timedelta.total_seconds`, over microseconds. -/
  totalSeconds : Int → ℚ
  /-- `_timestamp` of an aware datetime, and `datetime.fromisoformat` of such a text. -/
  timestamp : Instant → String
  fromTimestamp : String → Option (Option Instant)
  /-- `canonical_json(attestation.model_dump(mode="json"))` and `AttestationV1.model_validate_json`. -/
  dumpAttestation : Attestation → String
  parseAttestation : String → Option Attestation
  /-- The wrapper identity and the execution claim a version 2 artifact names. -/
  wrapperIdentityHash : VerificationEvidenceArtifact → String
  executionClaimHash : VerificationEvidenceArtifact → String
  /-- An object that validates as a version 2 artifact although its JSON is another. -/
  normalizedEvidence : JsonObject → Bool
  ttl_bounded : 0 < maxTtlSeconds ∧ maxTtlSeconds ≤ 900
  local_authority : trustPolicy.executionClass ≠ .production

/-! The ledger -/

inductive SigningState where
  | pending
  | issued
  | failed
  deriving DecidableEq

/-- The receipt columns of a row. -/
structure ReceiptColumns where
  receiptId : String
  receiptHash : String
  verifierId : String
  checkedAt : String
  claimHash : String
  authenticationKeyId : String
  authenticationAlgorithm : String
  authenticationSignature : String

/-- A row of `verifier_signing_requests`. One from before the receipt columns has no receipt. -/
structure SigningRow where
  requestId : String
  requestNonce : String
  idempotencyKey : String
  requestHash : String
  canonicalPayloadHash : String
  bundleId : String
  proofId : String
  fencingToken : Nat
  evidenceArtifactDigest : String
  receipt : Option ReceiptColumns
  state : SigningState
  attestationJson : Option String
  failureCode : Option String
  reservedAt : String
  completedAt : Option String

/-- Two rows agree in one of the columns the table keeps unique. -/
def SigningRow.Clashes (row row' : SigningRow) : Prop :=
  row.requestId = row'.requestId ∨ row.requestNonce = row'.requestNonce ∨ row.idempotencyKey = row'.idempotencyKey ∨
    row.canonicalPayloadHash = row'.canonicalPayloadHash

instance decidableClashes (row row' : SigningRow) : Decidable (row.Clashes row') := inferInstanceAs (Decidable (_ ∨ _))

/-- What a call writes into its row in the end. -/
inductive SigningOutcome where
  | issued (attestationJson : String)
  | failed (failureCode : String)

def SigningRow.complete (row : SigningRow) (outcome : SigningOutcome) (completedAt : String) : SigningRow :=
  match outcome with
  | .issued attestationJson =>
    { row with state := .issued, attestationJson := some attestationJson, completedAt := some completedAt }
  | .failed failureCode =>
    { row with state := .failed, failureCode := some failureCode, completedAt := some completedAt }

/-- The table, under its unique columns. -/
structure SigningTable where
  rows : List SigningRow
  unique : rows.Pairwise fun row row' => ¬ row.Clashes row'

namespace SigningTable
variable (t : SigningTable)

theorem unique_append {row : SigningRow} (h : ∀ existing ∈ t.rows, ¬ existing.Clashes row) :
    (t.rows ++ [row]).Pairwise fun row row' => ¬ row.Clashes row' := by
  refine List.pairwise_append.mpr ⟨t.unique, List.pairwise_singleton _ _, ?_⟩
  intro existing he row' hrow
  rw [List.mem_singleton.mp hrow]
  exact h existing he

/-- Insert a row that clashes with none. -/
def insert (row : SigningRow) (h : ∀ existing ∈ t.rows, ¬ existing.Clashes row) : SigningTable :=
  ⟨t.rows ++ [row], t.unique_append h⟩

/-- The pending row of a request ID. -/
def IsPending (requestId : String) (row : SigningRow) : Prop := row.requestId = requestId ∧ row.state = .pending

instance decidableIsPending (requestId : String) (row : SigningRow) : Decidable (IsPending requestId row) :=
  inferInstanceAs (Decidable (_ ∧ _))

/-- A row of the request ID that is still pending is completed; every other row stays. -/
def completeRow (requestId : String) (outcome : SigningOutcome) (completedAt : String)
    (row : SigningRow) : SigningRow :=
  if IsPending requestId row then row.complete outcome completedAt else row

section
variable {requestId : String} {outcome : SigningOutcome} {completedAt : String}

theorem complete_clashes (row row' : SigningRow) :
    (row.complete outcome completedAt).Clashes row' ↔ row.Clashes row' := by
  cases outcome <;> rfl

theorem clashes_complete (row row' : SigningRow) :
    row.Clashes (row'.complete outcome completedAt) ↔ row.Clashes row' := by
  cases outcome <;> rfl

theorem completeRow_clashes (row row' : SigningRow) :
    (completeRow requestId outcome completedAt row).Clashes (completeRow requestId outcome completedAt row') ↔
      row.Clashes row' := by
  unfold completeRow
  split <;> split <;> simp only [complete_clashes, clashes_complete]

theorem unique_completed :
    (t.rows.map (completeRow requestId outcome completedAt)).Pairwise fun row row' => ¬ row.Clashes row' := by
  apply List.pairwise_map.mpr
  apply t.unique.imp
  intro row row' h
  rwa [completeRow_clashes]

end

/-- `UPDATE ... WHERE request_id = ? AND state = 'pending'`. -/
def updatePending (requestId : String) (outcome : SigningOutcome) (completedAt : String) : SigningTable :=
  ⟨t.rows.map (completeRow requestId outcome completedAt), t.unique_completed⟩

/-- How many rows such an update finds. -/
def pendingCount (requestId : String) : Nat := t.rows.countP fun row => IsPending requestId row

/-- The row an idempotency key selects. -/
def rowWithKey (idempotencyKey : String) : Option SigningRow :=
  t.rows.find? fun row => row.idempotencyKey = idempotencyKey

end SigningTable

structure IssuedRequestReplay where
  attestation : Attestation
  receipt : IndependentExecutionReceipt

namespace VerifierSigningGateway
variable (gw : VerifierSigningGateway)

abbrev Request := VerificationSigningRequest gw.control

/-- `if not condition: raise error`. -/
def demand (condition : Prop) [Decidable condition] (e : GatewayError) : GatewayRaises Unit :=
  if condition then .ok () else .error e

/-- The first check of a list that fails, under the label of what it compares. -/
def firstDifference (subject : String) : List (Bool × String) → GatewayRaises Unit
  | [] => .ok ()
  | (passed, label) :: rest =>
    if passed then firstDifference subject rest else .error (.rejected (subject ++ " has a different " ++ label))

/-- `_receipt_from_ledger`, of the receipt columns of a row. -/
def receiptFromLedger (request : gw.Request) (row : SigningRow) : Option IndependentExecutionReceipt := do
  let columns ← row.receipt
  guard (row.evidenceArtifactDigest = request.context.evidenceArtifactDigest.value)
  let checkedAt ← gw.fromTimestamp columns.checkedAt
  pure {
    receiptId := columns.receiptId, verifierId := columns.verifierId, checkedAt := checkedAt
    requestHash := (gw.requestHash request).value
    evidenceArtifactDigest := request.context.evidenceArtifactDigest.value
    evidenceDigest := request.context.verificationEvidenceHash.value
    executionClaimHash := columns.claimHash, receiptHash := columns.receiptHash
    authentication := some ⟨columns.authenticationKeyId, columns.authenticationAlgorithm, columns.receiptHash,
      columns.authenticationSignature⟩ }

/-- The stored answer of an issued row. -/
def storedReplay (request : gw.Request) (row : SigningRow) : Option IssuedRequestReplay := do
  let text ← row.attestationJson
  let attestation ← gw.parseAttestation text
  let receipt ← gw.receiptFromLedger request row
  pure ⟨attestation, receipt⟩

/-- What a row found under the idempotency key answers. -/
def replayOf (request : gw.Request) (row : SigningRow) : GatewayRaises IssuedRequestReplay := do
  demand (row.requestHash = (gw.requestHash request).value)
    (.replay "verification signing idempotency key was reused for another request")
  demand (row.state = .issued ∧ row.attestationJson.isSome = true)
    (.unavailable "verification signing request did not reach an issued state")
  match gw.storedReplay request row with
  | some replay => pure replay
  | none => .error (.unavailable "stored verification attestation or execution receipt is malformed")

/-- `_load_issued_replay`. -/
def loadIssuedReplay (request : gw.Request) (t : SigningTable) : GatewayRaises (Option IssuedRequestReplay) :=
  match t.rowWithKey request.idempotencyKey with
  | none => .ok none
  | some row => do
    let replay ← gw.replayOf request row
    pure (some replay)

/-- The receipt columns of an authenticated receipt. -/
def receiptColumns (receipt : IndependentExecutionReceipt) : GatewayRaises ReceiptColumns :=
  match receipt.checkedAt, receipt.authentication with
  | some checkedAt, some authentication => .ok ⟨receipt.receiptId, receipt.receiptHash, receipt.verifierId,
      gw.timestamp checkedAt, receipt.executionClaimHash, authentication.keyId, authentication.algorithm,
      authentication.signature⟩
  | _, _ => .error (.control (.valueError "cannot reserve an unauthenticated execution receipt"))

/-- The row a reservation inserts. -/
def reservedRow (request : gw.Request) (columns : ReceiptColumns) (now : Instant) : SigningRow where
  requestId := request.requestId.value
  requestNonce := request.requestNonce
  idempotencyKey := request.idempotencyKey
  requestHash := (gw.requestHash request).value
  canonicalPayloadHash := request.canonicalPayloadHash.value
  bundleId := request.context.bundleId.value
  proofId := request.context.proofId.value
  fencingToken := request.lease.fencingToken
  evidenceArtifactDigest := request.context.evidenceArtifactDigest.value
  receipt := some columns
  state := .pending
  attestationJson := none
  failureCode := none
  reservedAt := gw.timestamp now
  completedAt := none

/-- `INSERT`, under the unique columns. -/
def insertRow (row : SigningRow) (t : SigningTable) : GatewayRaises SigningTable :=
  if h : ∀ existing ∈ t.rows, ¬ existing.Clashes row then .ok (t.insert row h)
  else .error (.replay "verification signing request, nonce, or canonical payload was replayed")

/-- `_reserve_request`. -/
def reserveRequest (request : gw.Request) (receipt : IndependentExecutionReceipt) (now : Instant) (t : SigningTable) :
    GatewayRaises (Option IssuedRequestReplay × SigningTable) :=
  match t.rowWithKey request.idempotencyKey with
  | some row => do
    let replay ← gw.replayOf request row
    pure (some replay, t)
  | none => do
    let columns ← gw.receiptColumns receipt
    let t ← insertRow (gw.reservedRow request columns now) t
    pure (none, t)

/-- `_record_issued`. -/
def recordIssued (request : gw.Request) (attestation : Attestation) (now : Instant) (t : SigningTable) :
    GatewayRaises (Unit × SigningTable) := do
  demand (t.pendingCount request.requestId.value = 1)
    (.unavailable "verification signing ledger changed before issuance completed")
  pure ((), t.updatePending request.requestId.value (.issued (gw.dumpAttestation attestation)) (gw.timestamp now))

/-- `_mark_failed`. -/
def markFailed (request : gw.Request) (reason : String) (now : Instant) (t : SigningTable) : SigningTable :=
  t.updatePending request.requestId.value (.failed reason) (gw.timestamp now)

end VerifierSigningGateway

/-! The operations a call issues -/

/-- The control plane's stores and the ledger beside them. -/
structure GatewayWorld where
  world : World
  requests : SigningTable

inductive GatewayOp (gw : VerifierSigningGateway) where
  | service (op : ServiceOp)
  | now
  | verifyExecution (request : gw.Request) (artifact : VerificationEvidenceArtifact)
  | authenticate (receipt : IndependentExecutionReceipt)
  | loadIssuedReplay (request : gw.Request)
  | reserveRequest (request : gw.Request) (receipt : IndependentExecutionReceipt) (now : Instant)
  | sign (request : gw.Request) (ttlSeconds : ℚ)
  | verifySignature (request : gw.Request) (attestation : Attestation)
  | recordIssued (request : gw.Request) (attestation : Attestation)
  | markFailed (request : gw.Request) (reason : String)

/-- What each operation returns. The independent verifier may return an object that is no receipt. -/
abbrev GatewayOp.Res {gw : VerifierSigningGateway} : GatewayOp gw → Type
  | .service op => op.Res
  | .now => Instant
  | .verifyExecution .. => Option IndependentExecutionReceipt
  | .loadIssuedReplay _ | .reserveRequest .. => Option IssuedRequestReplay
  | .sign .. => Attestation
  | .authenticate _ | .verifySignature .. | .recordIssued .. | .markFailed .. => Unit

abbrev gatewayInterface (gw : VerifierSigningGateway) : Interface := ⟨GatewayOp gw, GatewayOp.Res⟩

/-- What the environment supplies to one operation: the readings of the stores, the clock,
naive or aware, and the answers of the parties outside. -/
structure GatewayInput where
  service : ServiceInput
  clock : Option Instant
  execution : GatewayRaises (Option IndependentExecutionReceipt)
  authentication : GatewayRaises Unit
  signature : GatewayRaises Attestation
  verification : GatewayRaises Unit

namespace VerifierSigningGateway
variable (gw : VerifierSigningGateway)

/-- `_now`. -/
def readClock : Option Instant → GatewayRaises Instant
  | some now => .ok now
  | none => .error (.unavailable "verifier signing gateway clock returned a naive timestamp")

/-- Commit the rows of a transaction that returned. -/
def settle {α : Type} (x : GatewayRaises (α × SigningTable)) (w : GatewayWorld) : GatewayRaises α × GatewayWorld :=
  match x with
  | .ok (a, requests) => (.ok a, { w with requests := requests })
  | .error e => (.error e, w)

/-- One atomic operation. -/
def exec : Semantics (gatewayInterface gw) GatewayError GatewayInput GatewayWorld
  | .service op, i, w => ((gw.control.exec op i.service w.world).1.mapError .control,
      { w with world := (gw.control.exec op i.service w.world).2 })
  | .now, i, w => (readClock i.clock, w)
  | .verifyExecution .., i, w => (i.execution, w)
  | .authenticate _, i, w => (i.authentication, w)
  | .loadIssuedReplay request, _, w => (gw.loadIssuedReplay request w.requests, w)
  | .reserveRequest request receipt now, _, w => settle (gw.reserveRequest request receipt now w.requests) w
  | .sign .., i, w => (i.signature, w)
  | .verifySignature .., i, w => (i.verification, w)
  | .recordIssued request attestation, i, w =>
    settle (do
      let now ← readClock i.clock
      gw.recordIssued request attestation now w.requests) w
  | .markFailed request reason, i, w =>
    settle (do
      let now ← readClock i.clock
      pure ((), gw.markFailed request reason now w.requests)) w

abbrev GatewayCall := Prog (gatewayInterface gw) GatewayError

variable {gw}

def perform (op : GatewayOp gw) : GatewayCall gw op.Res := Prog.perform (I := gatewayInterface gw) op

def raising {α : Type} (x : GatewayRaises α) : GatewayCall gw α := Prog.ofExcept x

/-- A pure computation of the control plane. -/
def controlled {α : Type} (x : Raises α) : GatewayCall gw α := Prog.ofExcept (x.mapError .control)

variable (gw)

/-! Checks -/

def validateRequestTime (request : gw.Request) (now : Instant) : GatewayRaises Unit := do
  demand (request.requestedAt.instant ≤ now) (.rejected "verification signing request is from future")
  demand (now < request.expiresAt.instant) (.rejected "verification signing request has expired")
  demand (gw.totalSeconds (request.expiresAt.instant - request.requestedAt.instant) ≤ gw.maxTtlSeconds)
    (.rejected "verification signing request exceeds the gateway TTL policy")

/-- The lease a request names is the one recorded, to the instant of its expiry. -/
def NamesLease (request : gw.Request) (current : Lease) : Prop :=
  current.holderId = request.lease.workerId ∧ current.fencingToken = request.lease.fencingToken ∧
    current.expiresAt.instant = request.lease.expiresAt.instant

instance decidableNamesLease (request : gw.Request) (current : Lease) : Decidable (gw.NamesLease request current) :=
  inferInstanceAs (Decidable (_ ∧ _ ∧ _))

def validateLease (request : gw.Request) : Option Lease → GatewayRaises Unit
  | none => .error (.rejected "verification signing lease is not current")
  | some current => do
    demand (gw.NamesLease request current)
      (.rejected "verification signing lease holder, fence, or expiry does not match")
    demand (request.expiresAt.instant ≤ current.expiresAt.instant)
      (.rejected "verification signing request outlives the authoritative lease")

def validateTaskBinding (binding : TaskBinding) (context : VerificationSigningContext) : GatewayRaises Unit :=
  firstDifference "verification signing context" [
    (binding.bundleId = context.bundleId.value, "bundle ID"),
      (binding.bundleHash = context.bundleHash.value, "bundle hash"),
    (binding.contractId = context.contractId.value, "contract ID"),
      (binding.revision = context.revision, "contract revision"),
    (binding.contractHash = context.contractHash.value, "contract hash"),
    (binding.proofBoundaryHash = context.proofBoundaryHash.value, "proof boundary"),
    (binding.environmentHash = context.environmentHash.value, "environment")]

def submittedEvent (events : List StoredEvent) : GatewayRaises StoredEvent :=
  match events.find? fun e => e.eventType = "proof.submitted" with
  | none => .error (.rejected "verification signing proof has not been submitted")
  | some event => .ok event

/-- `value == n`, which holds of a boolean and of a float as well. -/
def equalsInt (value : Option Json) (n : Int) : Bool :=
  match value with
  | some (.int m) => m = n
  | some (.bool b) => (if b then 1 else 0) = n
  | some (.float (.finite q)) => q = n
  | _ => false

/-- The digest inside `proof_artifact`, when that is an object. -/
def proofDigest (payload : JsonObject) : Option Json :=
  match payload.get "proof_artifact" with
  | some (.dict fields) => JsonObject.get fields "digest"
  | _ => none

def validateProofBinding (context : VerificationSigningContext) (payload : JsonObject) : GatewayRaises Unit :=
  firstDifference "verification signing proof" [
    (payload.text "bundle_id" = some context.bundleId.value, "bundle ID"),
    (payload.text "proof_id" = some context.proofId.value, "proof ID"),
    (payload.text "contract_id" = some context.contractId.value, "contract ID"),
    (equalsInt (payload.get "revision") context.revision, "contract revision"),
    (payload.text "contract_hash" = some context.contractHash.value, "contract hash"),
    (payload.text "proof_boundary_hash" = some context.proofBoundaryHash.value, "proof boundary"),
    (payload.text "environment_hash" = some context.environmentHash.value, "environment"),
    (payload.text "dependency_manifest_hash" = some context.dependencyManifestHash.value, "dependency manifest"),
    (proofDigest payload = some (.str context.proofSubmissionArtifactDigest.value), "proof artifact digest")]

def unavailableEvidence : GatewayError → GatewayCall gw Artifact
  | .control (.artifactCorruption _) | .control (.artifactNotFound _) =>
    throw (.rejected "verification signing evidence artifact is unavailable or corrupt")
  | e => throw e

/-- The version 2 artifact a blob holds, with its execution authority. -/
def evidenceV2 : Artifact → GatewayRaises (VerificationEvidenceArtifact × OciExecutionAuthority)
  | .verificationEvidence artifact =>
    match artifact.oci.executionAuthority with
    | some authority => .ok (artifact, authority)
    | none => .error (.rejected "verification signing evidence artifact is not canonical V2 JSON")
  | .json fields =>
    if gw.normalizedEvidence fields then
      .error (.rejected "verification signing evidence artifact was normalized during validation")
    else .error (.rejected "verification signing evidence artifact is not canonical V2 JSON")
  | _ => .error (.rejected "verification signing evidence artifact is not canonical V2 JSON")

def validateEvidenceBinding (binding : TaskBinding) (context : VerificationSigningContext)
    (lease : VerificationSigningLeaseBinding) (artifact : VerificationEvidenceArtifact)
      (authority : OciExecutionAuthority) :
    GatewayRaises Unit :=
  let approvedIdentity := gw.approvedImageIdentities binding.workerImageDigest
  firstDifference "verification signing evidence" [
    (artifact.evidenceId = context.evidenceIdentity, "evidence identity"),
    (artifact.bundleId = context.bundleId, "bundle ID"), (artifact.bundleHash = context.bundleHash, "bundle hash"),
    (artifact.contractId = context.contractId, "contract ID"),
      (artifact.revision = context.revision, "contract revision"),
    (artifact.contractHash = context.contractHash, "contract hash"), (artifact.proofId = context.proofId, "proof ID"),
    (artifact.proofBoundaryHash = context.proofBoundaryHash, "proof boundary"),
    (artifact.proofSubmissionArtifactDigest = context.proofSubmissionArtifactDigest, "proof artifact digest"),
    (artifact.dependencyManifestHash = context.dependencyManifestHash, "dependency manifest"),
    (artifact.verificationReportId = context.reportId, "report ID"),
    (artifact.environment.environmentHash = context.environmentHash, "environment"),
    (artifact.oci.workerImageDigest.value = binding.workerImageDigest, "worker image"),
    (artifact.oci.wrapperProtocol.value = binding.wrapperProtocol, "wrapper protocol"),
    (artifact.oci.commandPolicyHash.value = binding.commandPolicyHash, "command policy"),
    (authority.workerId = lease.workerId, "execution lease holder"),
    (authority.fencingToken = lease.fencingToken, "execution lease fence"),
    (authority.expiresAt.instant = lease.expiresAt.instant, "execution lease expiry"),
    (approvedIdentity.isSome, "approved image identity"),
    (approvedIdentity = some (gw.wrapperIdentityHash artifact), "image-owned verifier identity")]

/-- The registered task, the submitted proof and the stored evidence are the ones requested. -/
def assertStoredBinding (request : gw.Request) : GatewayCall gw VerificationEvidenceArtifact := do
  let events ← perform (.service (.store (.readStream "task" request.context.bundleId.value)))
  let binding ← controlled (registeredBinding request.context.bundleId.value events)
  raising (validateTaskBinding binding request.context)
  let events ← perform (.service (.store (.readStream "proof" request.context.proofId.value)))
  let event ← raising (submittedEvent events)
  raising (validateProofBinding request.context event.payload)
  let content ← tryCatch (perform (.service (.getArtifact request.context.evidenceArtifactDigest.value)))
    gw.unavailableEvidence
  let (artifact, authority) ← raising (gw.evidenceV2 content)
  raising (gw.validateEvidenceBinding binding request.context request.lease artifact authority)
  pure artifact

/-- `_assert_authoritative_binding`. -/
def assertAuthoritativeBinding (request : gw.Request) : GatewayCall gw VerificationEvidenceArtifact := do
  raising (demand (request.lease.bundleId = request.context.bundleId)
    (.rejected "verification signing lease and context name different bundles"))
  let current ← perform (.service (.store (.currentLease request.context.bundleId.value)))
  raising (gw.validateLease request current)
  gw.assertStoredBinding request

/-! Receipts -/

/-- `IndependentExecutionReceiptAuthenticationV1.validate`. -/
def authenticationShaped (a : IndependentExecutionReceiptAuthentication) : Bool :=
  IsSafeId a.keyId ∧ IsKeyId a.algorithm ∧ IsSha256 a.authenticatedReceiptHash ∧ IsReceiptSignature a.signature

/-- `IndependentExecutionReceiptV1.validate`. -/
def receiptShaped (receipt : IndependentExecutionReceipt) : Bool :=
  receipt.checkedAt.isSome ∧ IsSafeId receipt.receiptId ∧ IsSafeId receipt.verifierId ∧ IsSha256 receipt.requestHash ∧
    IsSha256 receipt.evidenceArtifactDigest ∧ IsSha256 receipt.evidenceDigest ∧ IsSha256 receipt.executionClaimHash ∧
    IsSha256 receipt.receiptHash ∧ receipt.receiptHash = gw.receiptHash receipt.toReceiptFacts ∧
    receipt.authentication.all (fun a => authenticationShaped a && a.authenticatedReceiptHash = receipt.receiptHash)

def untrustedReceipt : GatewayError :=
  .rejected "independent execution receipt is malformed, unauthenticated, or untrusted"

/-- The key an allowlisted verifier's receipts are authenticated under is the one used. -/
def trustsKey (receipt : IndependentExecutionReceipt) : Bool :=
  receipt.authentication.any fun a => gw.trustPolicy.trustedVerifiers receipt.verifierId = some a.keyId

/-- A `ValueError` of the authenticator is a refusal of the receipt. -/
def refuseReceipt : GatewayError → GatewayCall gw Unit
  | .control (.valueError _) | .control (.attestationError _) => throw untrustedReceipt
  | e => throw e

def validateReceiptTime (request : gw.Request) (checkedAt now : Instant) : GatewayRaises Unit := do
  demand (request.requestedAt.instant ≤ checkedAt)
    (.rejected "independent execution receipt predates its signing request")
  demand (checkedAt ≤ request.lease.expiresAt.instant)
    (.rejected "independent execution receipt outlives its execution lease")
  demand (checkedAt ≤ now) (.rejected "independent execution receipt is from the future")

def validateReceiptBinding (request : gw.Request) (artifact : VerificationEvidenceArtifact)
    (receipt : IndependentExecutionReceipt) : GatewayRaises Unit :=
  firstDifference "independent execution receipt" [
    (receipt.requestHash = (gw.requestHash request).value, "request hash"),
    (receipt.evidenceArtifactDigest = request.context.evidenceArtifactDigest.value, "evidence artifact digest"),
    (receipt.evidenceDigest = request.context.verificationEvidenceHash.value, "evidence digest"),
    (receipt.executionClaimHash = gw.executionClaimHash artifact, "execution claim hash")]

/-- `_validate_execution_receipt`, of a receipt. -/
def validateExecutionReceipt (request : gw.Request) (artifact : VerificationEvidenceArtifact)
    (receipt : IndependentExecutionReceipt) : GatewayCall gw Unit := do
  raising (demand (gw.receiptShaped receipt = true ∧ gw.trustsKey receipt = true) untrustedReceipt)
  tryCatch (perform (.authenticate receipt)) gw.refuseReceipt
  match receipt.checkedAt with
  | none => throw untrustedReceipt
  | some checkedAt => do
    let now ← perform .now
    raising (gw.validateReceiptTime request checkedAt now)
    raising (gw.validateReceiptBinding request artifact receipt)

/-- The errors `VerificationSigningGatewayError` is a base of. -/
def isGatewayError : GatewayError → Bool
  | .rejected _ | .replay _ | .unavailable _ | .productionUnavailable _ => true
  | .control _ | .foreign _ => false

def isException : GatewayError → Bool
  | .foreign isException => isException
  | _ => true

def executionUnavailable (e : GatewayError) : GatewayCall gw (Option IndependentExecutionReceipt) :=
  if isGatewayError e then throw e
  else if isException e then throw (.unavailable "independent execution verifier is unavailable")
  else throw e

/-- `_independently_verify_execution`. -/
def independentlyVerifyExecution (request : gw.Request) (artifact : VerificationEvidenceArtifact) :
    GatewayCall gw IndependentExecutionReceipt := do
  let reply ← tryCatch (perform (.verifyExecution request artifact)) gw.executionUnavailable
  match reply with
  | none => throw (.rejected "independent execution verifier returned an invalid receipt")
  | some receipt => do
    gw.validateExecutionReceipt request artifact receipt
    pure receipt

/-! Signatures -/

def validateIssuedAttestation (request : gw.Request) (attestation : Attestation) : GatewayRaises Unit := do
  demand (attestation.purpose = .verification)
    (.unavailable "verifier gateway returned a different attestation purpose")
  demand (attestation.keyId = gw.trustPolicy.gatewaySigningKeyId)
    (.unavailable "verifier gateway returned an attestation from another signing key")
  demand (attestation.evidenceIdentity.value = request.context.evidenceIdentity.value)
    (.unavailable "verifier gateway returned a different evidence identity")
  demand (attestation.payloadHash.value = request.canonicalPayloadHash.value)
    (.unavailable "verifier gateway returned a different canonical payload hash")
  demand (attestation.expiresAt.instant ≤ request.expiresAt.instant)
    (.unavailable "verifier gateway attestation outlives its request or lease")

/-- Only an attestation error says that a stored attestation no longer validates. -/
def staleReplay : GatewayError → GatewayCall gw Unit
  | .control (.attestationError _) => throw (.unavailable "stored verification attestation no longer validates")
  | e => throw e

/-- `_validate_issued_replay`. -/
def validateIssuedReplay (request : gw.Request) (artifact : VerificationEvidenceArtifact)
    (replay : IssuedRequestReplay) :
    GatewayCall gw Unit := do
  tryCatch (perform (.verifySignature request replay.attestation)) gw.staleReplay
  raising (gw.validateIssuedAttestation request replay.attestation)
  gw.validateExecutionReceipt request artifact replay.receipt

/-- The errors the handler of the signing step names first. -/
def bindingChanged : GatewayError → Bool
  | .control (.valueError _) | .control (.attestationError _) | .control (.staleFence _) => true
  | e => isGatewayError e

/-- The handlers of the signing step: the reservation fails, whatever `Exception` it was. -/
def signingFailed (request : gw.Request) (e : GatewayError) : GatewayCall gw Attestation :=
  if bindingChanged e then do
    perform (.markFailed request "authority_unavailable_or_binding_changed")
    throw (.unavailable "verifier signing authority did not issue a usable attestation")
  else if isException e then do
    perform (.markFailed request "signer_unavailable")
    throw (.unavailable "verifier signing authority is unavailable")
  else throw e

def signAndCheck (request : gw.Request) (ttlSeconds : ℚ) : GatewayCall gw Attestation := do
  let _ ← gw.assertAuthoritativeBinding request
  let attestation ← perform (.sign request ttlSeconds)
  perform (.verifySignature request attestation)
  raising (gw.validateIssuedAttestation request attestation)
  let _ ← gw.assertAuthoritativeBinding request
  pure attestation

/-- A request that expired before it was signed fails its reservation. -/
def expiredBeforeSigning (request : gw.Request) : GatewayError → GatewayCall gw Unit
  | .rejected message => do
    perform (.markFailed request "request_expired_before_signing")
    throw (.rejected message)
  | e => throw e

def signingMargin : ℚ := 1

/-- `issue` past its reservation. -/
def signReserved (request : gw.Request) : GatewayCall gw Attestation := do
  let signingNow ← perform .now
  tryCatch (raising (gw.validateRequestTime request signingNow)) (gw.expiredBeforeSigning request)
  let ttlSeconds := gw.totalSeconds (request.expiresAt.instant - signingNow) - signingMargin
  if ttlSeconds ≤ 0 then do
    perform (.markFailed request "insufficient_signing_ttl")
    throw (.rejected "verification signing request has insufficient remaining authority")
  else do
    let attestation ← tryCatch (gw.signAndCheck request ttlSeconds) (gw.signingFailed request)
    perform (.recordIssued request attestation)
    pure attestation

/-- A stored answer that still validates is returned again. -/
def replayed (request : gw.Request) (artifact : VerificationEvidenceArtifact) (replay : IssuedRequestReplay) :
    GatewayCall gw Attestation := do
  gw.validateIssuedReplay request artifact replay
  pure replay.attestation

/-- `issue` of a request the ledger does not know yet. -/
def issueNew (request : gw.Request) (now : Instant)
    (artifact : VerificationEvidenceArtifact) : GatewayCall gw Attestation := do
  let receipt ← gw.independentlyVerifyExecution request artifact
  let artifact ← gw.assertAuthoritativeBinding request
  gw.validateExecutionReceipt request artifact receipt
  match ← perform (.reserveRequest request receipt now) with
  | some replay => gw.replayed request artifact replay
  | none => gw.signReserved request

/-- Return one lease-bound signature or fail closed. -/
def issue (request : gw.Request) : GatewayCall gw Attestation := do
  raising (demand (gw.trustPolicy.executionClass ≠ .production)
    (.productionUnavailable "local verifier signing gateway cannot issue production authority"))
  let now ← perform .now
  raising (gw.validateRequestTime request now)
  let artifact ← gw.assertAuthoritativeBinding request
  match ← perform (.loadIssuedReplay request) with
  | some replay => gw.replayed request artifact replay
  | none => gw.issueNew request now artifact

end VerifierSigningGateway
end Autolean.ControlPlane
