import Autolean.ControlPlane.Leases
import Autolean.Machine.Interleaving

/-! The append-only event store: its tables and the transactions over them. A
transaction that raises is rolled back, so it is a function from the tables to
either an error or a result with the tables it leaves. -/
namespace Autolean.ControlPlane
open Contracts Machine Raising

structure NewEvent where
  eventType : String
  payload : JsonObject
  metadata : JsonObject
  deriving DecidableEq

structure StoredEvent where
  globalPosition : Nat
  eventId : String
  entityType : String
  entityId : String
  entitySequence : Nat
  eventType : String
  payload : JsonObject
  metadata : JsonObject
  recordedAt : Instant
  deriving DecidableEq

/-- A command key and the hash of the request it stands for. -/
structure Idempotency where
  scope : String
  key : String
  requestHash : String
  scope_nonblank : ¬ Blank scope
  key_nonblank : ¬ Blank key
  hash_length : requestHash.toList.length = 64

/-- One public nonce consumed together with a state transition. -/
@[ext]
structure AttestationNonce where
  purpose : String
  keyId : String
  nonce : String
  payloadHash : String
  purpose_bounded : ¬ Blank purpose ∧ purpose.toList.length ≤ 128
  keyId_bounded : ¬ Blank keyId ∧ keyId.toList.length ≤ 128
  nonce_safe : IsAttestationNonce nonce
  payloadHash_sha256 : IsSha256 payloadHash

instance : DecidableEq AttestationNonce := fun _ _ => decidable_of_iff _ AttestationNonce.ext_iff.symm

/-- The immutable cross-stream identity of one Builder handoff. -/
@[ext]
structure ContractRevisionBinding where
  contractId : String
  revision : Int
  bundleId : String
  bundleHash : String
  contractHash : String
  ids_nonblank : ¬ Blank contractId ∧ ¬ Blank bundleId
  revision_pos : 1 ≤ revision
  bundleHash_sha256 : IsSha256 bundleHash
  contractHash_sha256 : IsSha256 contractHash

instance : DecidableEq ContractRevisionBinding := fun _ _ => decidable_of_iff _ ContractRevisionBinding.ext_iff.symm

def ContractRevisionBinding.make (contractId : String) (revision : Int) (bundleId bundleHash contractHash : String) :
    Option ContractRevisionBinding :=
  if h : (¬ Blank contractId ∧ ¬ Blank bundleId) ∧ 1 ≤ revision ∧ IsSha256 bundleHash ∧ IsSha256 contractHash then
    some ⟨contractId, revision, bundleId, bundleHash, contractHash, h.1, h.2.1, h.2.2.1, h.2.2.2⟩
  else none

/-- `str(uuid.uuid4())`: never the empty text. -/
structure Uuid where
  text : String
  text_ne_empty : text ≠ ""

/-- What one transaction reads from outside the database: the clock at its three
reading points and the random identifiers it draws. -/
structure Readings where
  now : Instant
  consumedAt : Instant
  recordedAt : Instant
  uuid : Nat → Uuid

structure IdempotencyRow where
  requestHash : String
  eventIds : List String
  createdAt : Instant
  deriving DecidableEq

structure NonceUse where
  payloadHash : String
  entityType : String
  entityId : String
  consumedAt : Instant
  deriving DecidableEq

structure RevisionBindingRow where
  binding : ContractRevisionBinding
  registrationEventId : String
  deriving DecidableEq

/-- The tables of the shared SQLite file. A table read only through its primary key
is a function of that key. -/
structure Database where
  events : List StoredEvent
  entityVersions : String × String → Option Nat
  idempotencyRecords : String × String → Option IdempotencyRow
  attestationNonceUses : String × String × String → Option NonceUse
  contractRevisionBindings : List RevisionBindingRow
  leases : LeaseTables

def Idempotency.primaryKey (value : Idempotency) : String × String := (value.scope, value.key)

def AttestationNonce.primaryKey (value : AttestationNonce) : String × String × String :=
  (value.purpose, value.keyId, value.nonce)

/-- The largest integer SQLite stores. -/
def sqliteIntegerMax : Int := 9223372036854775807

namespace Database

def empty : Database := ⟨[], fun _ => none, fun _ => none, fun _ => none, [], .empty⟩

/-- The stream version; a stream without a row is at zero. -/
def currentSequence (db : Database) (entityType entityId : String) : Nat :=
  (db.entityVersions (entityType, entityId)).getD 0

def eventById (db : Database) (eventId : String) : Raises StoredEvent :=
  match db.events.find? (·.eventId = eventId) with
  | some event => .ok event
  | none => .error (.runtimeError ("idempotency record references missing event " ++ eventId))

def eventsByIds (db : Database) : List String → Raises (List StoredEvent)
  | [] => .ok []
  | eventId :: rest => do
    let event ← db.eventById eventId
    let events ← db.eventsByIds rest
    pure (event :: events)

def resolveIdempotency (db : Database) (row : IdempotencyRow) (value : Idempotency) : Raises (List StoredEvent) := do
  ensure (row.requestHash = value.requestHash)
    (.idempotencyConflict ("idempotency key " ++ value.scope ++ "/" ++ value.key ++ " was reused for another request"))
  ensure (row.eventIds ≠ [] ∧ "" ∉ row.eventIds ∧ row.eventIds.Nodup)
    (.projectionError "idempotency event IDs must be a unique non-empty string list")
  db.eventsByIds row.eventIds

def lookupIdempotency (db : Database) (value : Idempotency) : Raises (Option (List StoredEvent)) :=
  match db.idempotencyRecords value.primaryKey with
  | none => .ok none
  | some row => do
    let events ← db.resolveIdempotency row value
    pure (some events)

def existingIdempotency (db : Database) : Option Idempotency → Raises (Option (List StoredEvent))
  | none => .ok none
  | some value => db.lookupIdempotency value

/-- `SELECT ... ORDER BY entity_sequence`. -/
def readStream (db : Database) (entityType entityId : String) : List StoredEvent :=
  (db.events.filter fun e => e.entityType = entityType ∧ e.entityId = entityId).insertionSort
    fun a b => a.entitySequence ≤ b.entitySequence

def consumeAttestationNonce (db : Database) (value : AttestationNonce) (entityType entityId : String)
    (r : Readings) : Raises Database :=
  match db.attestationNonceUses value.primaryKey with
  | some _ => .error (.attestationReplay "attestation nonce was already consumed")
  | none => .ok { db with
      attestationNonceUses := Function.update db.attestationNonceUses value.primaryKey
        (some ⟨value.payloadHash, entityType, entityId, r.consumedAt⟩) }

def recordIdempotency (db : Database) (value : Idempotency) (eventIds : List String) (recordedAt : Instant) :
    Raises Database := do
  ensure (db.idempotencyRecords value.primaryKey = none) .integrityError
  pure { db with
    idempotencyRecords := Function.update db.idempotencyRecords value.primaryKey
      (some ⟨value.requestHash, eventIds, recordedAt⟩) }

/-- `AUTOINCREMENT`: rows are never deleted, so the next key follows the last one. -/
def nextPosition (db : Database) : Nat :=
  match db.events.getLast? with
  | none => 1
  | some e => e.globalPosition + 1

/-- One row of `events`, under its two uniqueness constraints. -/
def insertEvent (db : Database) (eventId entityType entityId : String) (sequence : Nat) (event : NewEvent)
    (recordedAt : Instant) : Raises Database := do
  ensure (Json.encodableFields event.payload = true ∧ Json.encodableFields event.metadata = true)
    (.valueError "Out of range float values are not JSON compliant")
  ensure (∀ e ∈ db.events, e.eventId ≠ eventId ∧
    ¬ (e.entityType = entityType ∧ e.entityId = entityId ∧ e.entitySequence = sequence)) .integrityError
  pure { db with
    events := db.events ++ [⟨db.nextPosition, eventId, entityType, entityId, sequence, event.eventType,
      event.payload, event.metadata, recordedAt⟩] }

/-- The insert loop: the `n`-th event of the batch takes the `n`-th identifier. -/
def insertEvents (r : Readings) (entityType entityId : String) (start : Nat) :
    Nat → List NewEvent → Database → Raises Database
  | _, [], db => .ok db
  | n, event :: rest, db => do
    let db ← db.insertEvent (r.uuid n).text entityType entityId (start + n + 1) event r.recordedAt
    insertEvents r entityType entityId start (n + 1) rest db

/-- The identifiers drawn for a batch. -/
def batchIds (r : Readings) (events : List NewEvent) : List String :=
  (List.range events.length).map fun n => (r.uuid n).text

def setVersion (db : Database) (entityType entityId : String) (sequence : Nat) : Database :=
  { db with entityVersions := Function.update db.entityVersions (entityType, entityId) (some sequence) }

def consumeOptionalNonce (db : Database) (value : Option AttestationNonce) (entityType entityId : String)
    (r : Readings) : Raises Database :=
  match value with
  | none => .ok db
  | some value => db.consumeAttestationNonce value entityType entityId r

def recordOptionalIdempotency (db : Database) (value : Option Idempotency) (eventIds : List String)
    (recordedAt : Instant) : Raises Database :=
  match value with
  | none => .ok db
  | some value => db.recordIdempotency value eventIds recordedAt

/-- `EventStore._append_locked` past its replay check: consume the nonce, compare and
advance the stream version, write the batch and bind the key. -/
def appendNew (db : Database) (entityType entityId : String) (expectedSequence : Int) (events : List NewEvent)
    (idempotency : Option Idempotency) (nonce : Option AttestationNonce) (r : Readings) :
    Raises (List StoredEvent × Database) := do
  let db ← db.consumeOptionalNonce nonce entityType entityId r
  let actual := db.currentSequence entityType entityId
  ensure ((actual : Int) = expectedSequence) (.concurrencyError entityType entityId expectedSequence actual)
  let db ← insertEvents r entityType entityId actual 0 events
    (db.setVersion entityType entityId (actual + events.length))
  let db ← db.recordOptionalIdempotency idempotency (batchIds r events) r.recordedAt
  let stored ← db.eventsByIds (batchIds r events)
  pure (stored, db)

def validateAppendRequest (entityType entityId : String) (expectedSequence : Int) (events : List NewEvent) :
    Raises Unit := do
  ensure (¬ Blank entityType ∧ ¬ Blank entityId) (.valueError "entity_type and entity_id must not be empty")
  ensure (0 ≤ expectedSequence) (.valueError "expected_sequence must be non-negative")
  ensure (events ≠ []) (.valueError "at least one event is required")
  ensure (∀ e ∈ events, ¬ Blank e.eventType) (.valueError "event_type must not be empty")

def append (db : Database) (entityType entityId : String) (expectedSequence : Int) (events : List NewEvent)
    (idempotency : Option Idempotency) (nonce : Option AttestationNonce) (r : Readings) :
    Raises (List StoredEvent × Database) := do
  validateAppendRequest entityType entityId expectedSequence events
  ensure (¬ (entityType = "task" ∧ ∃ e ∈ events, e.eventType = "task.registered"))
    (.valueError "task.registered must use append_contract_revision_registration")
  match ← db.existingIdempotency idempotency with
  | some replayed => pure (replayed, db)
  | none => db.appendNew entityType entityId expectedSequence events idempotency nonce r

def validateFencedTaskBinding (taskId : String) : List NewEvent → Raises Unit
  | [] => .ok ()
  | event :: rest => do
    match event.payload.text "bundle_id" with
    | none => .error (.valueError "fenced event payload must include a non-empty bundle_id")
    | some bundleId => ensure (bundleId = taskId) (.valueError "fenced event payload bundle_id must match task_id")
    validateFencedTaskBinding taskId rest

def assertFencedReplayTaskBinding (taskId : String) (events : List StoredEvent) : Raises Unit :=
  ensure (∀ e ∈ events, e.payload.get "bundle_id" = some (.str taskId))
    (.idempotencyConflict "idempotency replay does not belong to the requested fenced task")

def assertCurrentFence (db : Database) (taskId : String) (lease : Lease) (r : Readings) : Raises Unit := do
  ensure (lease.jobId = taskId) (.staleFence "lease belongs to a different task")
  db.leases.assertCurrent lease r.now

def appendFenced (db : Database) (entityType entityId taskId : String) (lease : Lease) (expectedSequence : Int)
    (events : List NewEvent) (idempotency : Option Idempotency) (nonce : Option AttestationNonce) (r : Readings) :
    Raises (List StoredEvent × Database) := do
  validateAppendRequest entityType entityId expectedSequence events
  ensure (¬ Blank taskId) (.valueError "task_id must not be empty")
  validateFencedTaskBinding taskId events
  match ← db.existingIdempotency idempotency with
  | some replayed => do
    assertFencedReplayTaskBinding taskId replayed
    pure (replayed, db)
  | none => do
    db.assertCurrentFence taskId lease r
    db.appendNew entityType entityId expectedSequence events idempotency nonce r

/-! Contract-revision bindings -/

def registrationText (payload : JsonObject) (key : String) : Raises String :=
  match payload.text key with
  | some value => .ok value
  | none => .error (.projectionError ("task.registered event has invalid " ++ key))

def registrationRevision (payload : JsonObject) : Raises Int :=
  match payload.int "revision" with
  | some revision => .ok revision
  | none => .error (.projectionError "task.registered event has invalid revision")

def registrationBindingFromPayload (payload : JsonObject) : Raises ContractRevisionBinding := do
  let revision ← registrationRevision payload
  let contractId ← registrationText payload "contract_id"
  let bundleId ← registrationText payload "bundle_id"
  let bundleHash ← registrationText payload "bundle_hash"
  let contractHash ← registrationText payload "contract_hash"
  match ContractRevisionBinding.make contractId revision bundleId bundleHash contractHash with
  | some binding => .ok binding
  | none => .error (.projectionError "task.registered event has invalid binding fields")

def registrationBindingFromEventRow (e : StoredEvent) : Raises ContractRevisionBinding := do
  let binding ← registrationBindingFromPayload e.payload
  ensure (e.entityId = binding.bundleId)
    (.projectionError "task.registered event stream ID does not match its bundle ID")
  pure binding

/-- The projection row of a contract revision; a revision SQLite cannot hold raises. -/
def contractRevisionProjectionRow (db : Database) (contractId : String) (revision : Int) :
    Raises (Option RevisionBindingRow) := do
  ensure (revision ≤ sqliteIntegerMax) .overflowError
  pure (db.contractRevisionBindings.find? fun row =>
    row.binding.contractId = contractId ∧ row.binding.revision = revision)

def projectionRowForBundle (db : Database) (bundleId : String) : Option RevisionBindingRow :=
  db.contractRevisionBindings.find? fun row => row.binding.bundleId = bundleId

/-- One row of `contract_revision_bindings`, under its three uniqueness constraints. -/
def insertContractRevisionBinding (db : Database) (binding : ContractRevisionBinding) (eventId : String) :
    Raises Database := do
  ensure (binding.revision ≤ sqliteIntegerMax) .overflowError
  ensure (∀ row ∈ db.contractRevisionBindings,
    ¬ (row.binding.contractId = binding.contractId ∧ row.binding.revision = binding.revision) ∧
      row.binding.bundleId ≠ binding.bundleId ∧ row.registrationEventId ≠ eventId) .integrityError
  pure { db with contractRevisionBindings := db.contractRevisionBindings ++ [⟨binding, eventId⟩] }

def assertRegistrationEventsMatch (db : Database) (binding : ContractRevisionBinding) :
    List StoredEvent → Raises Unit
  | [event] => do
    let mismatch := ControlPlaneError.projectionError
      "registration replay does not match the requested contract-revision binding"
    ensure (event.entityType = "task" ∧ event.entityId = binding.bundleId ∧ event.eventType = "task.registered") mismatch
    let recorded ← registrationBindingFromPayload event.payload
    ensure (recorded = binding) mismatch
    match ← db.contractRevisionProjectionRow binding.contractId binding.revision with
    | none => .error (.projectionError "registration replay has no canonical contract-revision projection")
    | some row =>
      ensure (row.binding = binding ∧ row.registrationEventId = event.eventId)
        (.projectionError "registration replay disagrees with the canonical contract-revision projection")
  | _ => .error (.projectionError "registration idempotency record must reference exactly one event")

def revisionConflict : ControlPlaneError :=
  .contractRevisionConflict
    "contract revision or bundle ID is already bound to a different immutable Builder handoff"

/-- An insert that violates a constraint is reported as a revision conflict. -/
def asRevisionConflict (x : Raises Database) : Raises Database :=
  match x with
  | .error .integrityError => .error revisionConflict
  | x => x

def appendContractRevisionRegistration (db : Database) (binding : ContractRevisionBinding) (event : NewEvent)
    (idempotency : Idempotency) (nonce : AttestationNonce) (r : Readings) :
    Raises (List StoredEvent × Database) := do
  ensure (event.eventType = "task.registered") (.valueError "registration event must have type task.registered")
  validateAppendRequest "task" binding.bundleId 0 [event]
  match ← db.existingIdempotency (some idempotency) with
  | some replayed => do
    db.assertRegistrationEventsMatch binding replayed
    pure (replayed, db)
  | none => do
    let existing ← db.contractRevisionProjectionRow binding.contractId binding.revision
    match existing <|> db.projectionRowForBundle binding.bundleId with
    | some row =>
      if row.binding = binding then do
        let replayed ← db.eventsByIds [row.registrationEventId]
        db.assertRegistrationEventsMatch binding replayed
        let db ← db.recordIdempotency idempotency [row.registrationEventId] r.recordedAt
        pure (replayed, db)
      else do
        let _ ← db.consumeAttestationNonce nonce "task" binding.bundleId r
        .error revisionConflict
    | none => do
      let (registered, db) ← db.appendNew "task" binding.bundleId 0 [event] (some idempotency) (some nonce) r
      match registered with
      | [] => .error (.runtimeError "tuple index out of range")
      | first :: _ => do
        let db ← asRevisionConflict (db.insertContractRevisionBinding binding first.eventId)
        pure (registered, db)

end Database

/-! The atomic operations of the shared database -/

/-- One request to write a batch to a stream. -/
structure Batch where
  entityType : String
  entityId : String
  events : List NewEvent
  idempotency : Option Idempotency
  nonce : Option AttestationNonce

/-- A call of one of the three append transactions. -/
inductive AppendCall where
  | append (b : Batch) (expectedSequence : Int)
  | appendFenced (b : Batch) (taskId : String) (lease : Lease) (expectedSequence : Int)
  | registration (binding : ContractRevisionBinding) (event : NewEvent) (idempotency : Idempotency)
      (nonce : AttestationNonce)

namespace AppendCall

def transaction (db : Database) (r : Readings) : AppendCall → Raises (List StoredEvent × Database)
  | append b expectedSequence =>
    db.append b.entityType b.entityId expectedSequence b.events b.idempotency b.nonce r
  | appendFenced b taskId lease expectedSequence =>
    db.appendFenced b.entityType b.entityId taskId lease expectedSequence b.events b.idempotency b.nonce r
  | registration binding event idempotency nonce =>
    db.appendContractRevisionRegistration binding event idempotency nonce r

/-- The batch the call asks to write. -/
def batch : AppendCall → Batch
  | append b _ | appendFenced b _ _ _ => b
  | registration binding event idempotency nonce => ⟨"task", binding.bundleId, [event], some idempotency, some nonce⟩

end AppendCall

/-- Every transaction and read the control plane issues against its database. -/
inductive StoreOp where
  | write (call : AppendCall)
  | lookupIdempotency (value : Idempotency)
  | currentSequence (entityType entityId : String)
  | readStream (entityType entityId : String)
  | readAll
  | claimLease (jobId holderId : String) (ttlSeconds : ℚ)
  | renewLease (lease : Lease) (ttlSeconds : ℚ)
  | releaseRow (lease : Lease)
  | assertCurrent (lease : Lease)
  | currentLease (jobId : String)

/-- What each operation returns. -/
abbrev StoreOp.Res : StoreOp → Type
  | .write _ | .readStream .. | .readAll => List StoredEvent
  | .lookupIdempotency _ => Option (List StoredEvent)
  | .currentSequence .. => Nat
  | .claimLease .. | .renewLease .. => Lease
  | .releaseRow _ | .assertCurrent _ => Unit
  | .currentLease _ => Option Lease

/-- Commit the tables of a transaction that returned; roll back one that raised. -/
def commit {α : Type} (x : Raises (α × Database)) (db : Database) : Raises α × Database :=
  match x with
  | .ok (a, db') => (.ok a, db')
  | .error e => (.error e, db)

/-- A transaction over the lease tables alone. -/
def onLeases {α : Type} (x : Raises (α × LeaseTables)) (db : Database) : Raises α × Database :=
  match x with
  | .ok (a, leases) => (.ok a, { db with leases := leases })
  | .error e => (.error e, db)

/-- One atomic operation of the store. -/
def StoreOp.exec : (op : StoreOp) → Readings → Database → Raises op.Res × Database
  | .write call, r, db => commit (call.transaction db r) db
  | .lookupIdempotency value, _, db => (db.lookupIdempotency value, db)
  | .currentSequence entityType entityId, _, db => (.ok (db.currentSequence entityType entityId), db)
  | .readStream entityType entityId, _, db => (.ok (db.readStream entityType entityId), db)
  | .readAll, _, db => (.ok db.events, db)
  | .claimLease jobId holderId ttlSeconds, r, db => onLeases (db.leases.claim jobId holderId ttlSeconds r.now) db
  | .renewLease lease ttlSeconds, r, db => onLeases (db.leases.renew lease ttlSeconds r.now) db
  | .releaseRow lease, _, db => onLeases (do let leases ← db.leases.releaseRow lease; pure ((), leases)) db
  | .assertCurrent lease, r, db => (db.leases.assertCurrent lease r.now, db)
  | .currentLease jobId, r, db => (db.leases.current jobId r.now, db)

/-- The tables after one operation, whatever it returned. -/
def storeStep (db : Database) (l : StoreOp × Readings) : Database := (l.1.exec l.2 db).2

end Autolean.ControlPlane
