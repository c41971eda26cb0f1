import Autolean.ControlPlane.Events

/-! What a transaction of the event store can do. Every call that returns either wrote
nothing, wrote one batch of events with its side tables, or linked a command key to
an event recorded before. -/
namespace Autolean.ControlPlane
open Contracts Machine Raising

/-- The rows a batch becomes: the `n`-th event follows the stream at `start` and takes
the `n`-th identifier drawn. -/
def stampEvents (r : Readings) (entityType entityId : String) (start : Nat) : Nat → Nat → List NewEvent → List StoredEvent
  | _, _, [] => []
  | n, position, event :: rest =>
    ⟨position, (r.uuid n).text, entityType, entityId, start + n + 1, event.eventType, event.payload, event.metadata,
      r.recordedAt⟩ :: stampEvents r entityType entityId start (n + 1) (position + 1) rest

namespace Batch

/-- The rows the batch becomes in a given database. -/
def stored (b : Batch) (db : Database) (r : Readings) : List StoredEvent :=
  stampEvents r b.entityType b.entityId (db.currentSequence b.entityType b.entityId) 0 db.nextPosition b.events

/-- The tables after the batch is written. -/
def written (b : Batch) (db : Database) (r : Readings) : Database where
  events := db.events ++ b.stored db r
  entityVersions := Function.update db.entityVersions (b.entityType, b.entityId)
    (some (db.currentSequence b.entityType b.entityId + b.events.length))
  idempotencyRecords := match b.idempotency with
    | none => db.idempotencyRecords
    | some v => Function.update db.idempotencyRecords v.primaryKey
        (some ⟨v.requestHash, (b.stored db r).map (·.eventId), r.recordedAt⟩)
  attestationNonceUses := match b.nonce with
    | none => db.attestationNonceUses
    | some v => Function.update db.attestationNonceUses v.primaryKey
        (some ⟨v.payloadHash, b.entityType, b.entityId, r.consumedAt⟩)
  contractRevisionBindings := db.contractRevisionBindings
  leases := db.leases

@[simp] theorem written_events (b : Batch) (db : Database) (r : Readings) :
    (b.written db r).events = db.events ++ b.stored db r := rfl
@[simp] theorem written_entityVersions (b : Batch) (db : Database) (r : Readings) :
    (b.written db r).entityVersions = Function.update db.entityVersions (b.entityType, b.entityId)
      (some (db.currentSequence b.entityType b.entityId + b.events.length)) := rfl
@[simp] theorem written_contractRevisionBindings (b : Batch) (db : Database) (r : Readings) :
    (b.written db r).contractRevisionBindings = db.contractRevisionBindings := rfl
@[simp] theorem written_leases (b : Batch) (db : Database) (r : Readings) : (b.written db r).leases = db.leases := rfl

theorem written_records_none {b : Batch} (h : b.idempotency = none) (db : Database) (r : Readings) :
    (b.written db r).idempotencyRecords = db.idempotencyRecords := by simp [written, h]

theorem written_records_some {b : Batch} {v : Idempotency} (h : b.idempotency = some v) (db : Database) (r : Readings) :
    (b.written db r).idempotencyRecords = Function.update db.idempotencyRecords v.primaryKey
      (some ⟨v.requestHash, (b.stored db r).map (·.eventId), r.recordedAt⟩) := by simp [written, h]

theorem written_nonces_none {b : Batch} (h : b.nonce = none) (db : Database) (r : Readings) :
    (b.written db r).attestationNonceUses = db.attestationNonceUses := by simp [written, h]

theorem written_nonces_some {b : Batch} {v : AttestationNonce} (h : b.nonce = some v) (db : Database) (r : Readings) :
    (b.written db r).attestationNonceUses = Function.update db.attestationNonceUses v.primaryKey
      (some ⟨v.payloadHash, b.entityType, b.entityId, r.consumedAt⟩) := by simp [written, h]

/-- What the database must satisfy for the batch to be written. -/
structure Writable (b : Batch) (db : Database) (r : Readings) : Prop where
  nonempty : b.events ≠ []
  key_unused : ∀ v, b.idempotency = some v → db.idempotencyRecords v.primaryKey = none
  nonce_unused : ∀ v, b.nonce = some v → db.attestationNonceUses v.primaryKey = none
  encodable : ∀ e ∈ b.events, Json.encodableFields e.payload = true ∧ Json.encodableFields e.metadata = true
  ids_distinct : ((b.stored db r).map (·.eventId)).Nodup
  ids_fresh : ∀ e ∈ b.stored db r, ∀ e' ∈ db.events, e'.eventId ≠ e.eventId

end Batch

section
variable {r : Readings} {entityType entityId : String} {start : Nat}

@[simp] theorem stampEvents_length (n position : Nat) (events : List NewEvent) :
    (stampEvents r entityType entityId start n position events).length = events.length := by
  induction events generalizing n position with
  | nil => rfl
  | cons e rest ih => simp [stampEvents, ih]

/-- A stamped row keeps the stream of its batch and the content of one of its events. -/
theorem mem_stampEvents {n position : Nat} {events : List NewEvent} {e : StoredEvent}
    (he : e ∈ stampEvents r entityType entityId start n position events) :
    e.entityType = entityType ∧ e.entityId = entityId ∧ position ≤ e.globalPosition ∧ start + n < e.entitySequence ∧
      (∃ m, e.eventId = (r.uuid m).text) ∧
      ∃ event ∈ events, e.eventType = event.eventType ∧ e.payload = event.payload ∧ e.metadata = event.metadata := by
  induction events generalizing n position with
  | nil => simp [stampEvents] at he
  | cons event rest ih =>
    simp only [stampEvents, List.mem_cons] at he
    rcases he with rfl | he
    · exact ⟨rfl, rfl, le_rfl, by simp, ⟨n, rfl⟩, event, by simp, rfl, rfl, rfl⟩
    · obtain ⟨ht, hi, hp, hs, hu, ev, hev, hc⟩ := ih he
      exact ⟨ht, hi, by omega, by omega, hu, ev, by simp [hev], hc⟩

theorem stampEvents_sequences (n position : Nat) (events : List NewEvent) :
    (stampEvents r entityType entityId start n position events).map (·.entitySequence) =
      List.range' (start + n + 1) events.length := by
  induction events generalizing n position with
  | nil => rfl
  | cons e rest ih =>
    simp only [stampEvents, List.map_cons, ih, List.length_cons, List.range'_succ]
    congr 1

theorem stampEvents_positions (n position : Nat) (events : List NewEvent) :
    (stampEvents r entityType entityId start n position events).map (·.globalPosition) =
      List.range' position events.length := by
  induction events generalizing n position with
  | nil => rfl
  | cons e rest ih => simp only [stampEvents, List.map_cons, ih, List.length_cons, List.range'_succ]

theorem stampEvents_ids (n position : Nat) (events : List NewEvent) :
    (stampEvents r entityType entityId start n position events).map (·.eventId) =
      (List.range' n events.length).map fun m => (r.uuid m).text := by
  induction events generalizing n position with
  | nil => rfl
  | cons e rest ih => simp only [stampEvents, List.map_cons, ih, List.length_cons, List.range'_succ]

end

namespace Database

theorem batchIds_eq (b : Batch) (db : Database) (r : Readings) :
    batchIds r b.events = (b.stored db r).map (·.eventId) := by
  simp only [Batch.stored, stampEvents_ids, batchIds, List.range_eq_range']

theorem nextPosition_append (db : Database) (e : StoredEvent) (events : List StoredEvent) (h : events = db.events ++ [e]) :
    ({ db with events := events } : Database).nextPosition = e.globalPosition + 1 := by
  simp [nextPosition, h]

/-- The insert loop appends the stamped rows, under identifiers no earlier row has. -/
private theorem insertEvents_cases {r : Readings} {entityType entityId : String} {start n : Nat}
    {events : List NewEvent} {db db' : Database}
    (h : insertEvents r entityType entityId start n events db = .ok db') :
    let stored := stampEvents r entityType entityId start n db.nextPosition events
    db' = { db with events := db.events ++ stored } ∧
      (∀ e ∈ events, Json.encodableFields e.payload = true ∧ Json.encodableFields e.metadata = true) ∧
      (stored.map (·.eventId)).Nodup ∧ ∀ e ∈ stored, ∀ e' ∈ db.events, e'.eventId ≠ e.eventId := by
  induction events generalizing db n with
  | nil =>
    simp only [insertEvents, Except.ok.injEq] at h
    subst h
    simp [stampEvents]
  | cons event rest ih =>
    obtain ⟨mid, hmid, h⟩ := bind_eq_ok.mp h
    unfold insertEvent at hmid
    obtain ⟨henc, hmid⟩ := ensure_bind_eq_ok.mp hmid
    obtain ⟨hfresh, hmid⟩ := ensure_bind_eq_ok.mp hmid
    simp only [pure_eq_ok] at hmid
    subst hmid
    have hrest := ih h
    rw [nextPosition_append db _ _ rfl] at hrest
    obtain ⟨hdb, hencs, hnodup, hids⟩ := hrest
    refine ⟨?_, ?_, ?_, ?_⟩
    · rw [hdb]
      simp [stampEvents, List.append_assoc]
    · intro e he
      rcases List.mem_cons.mp he with rfl | he
      · exact henc
      · exact hencs e he
    · simp only [stampEvents, List.map_cons, List.nodup_cons]
      refine ⟨fun hm => ?_, hnodup⟩
      obtain ⟨e, he, heq⟩ := List.mem_map.mp hm
      exact hids e he _ (List.mem_append_right _ List.mem_cons_self) heq.symm
    · intro e he e' he'
      rcases List.mem_cons.mp he with rfl | he
      · exact (hfresh e' he').1
      · exact hids e he e' (by simp [he'])

/-- A lookup by identifier among appended rows whose identifiers are new and distinct. -/
theorem eventsByIds_append {db : Database} {old new : List StoredEvent} (hdb : db.events = old ++ new)
    (hnodup : (new.map (·.eventId)).Nodup) (hfresh : ∀ e ∈ new, ∀ e' ∈ old, e'.eventId ≠ e.eventId)
    {part : List StoredEvent} (hpart : part <:+ new) : db.eventsByIds (part.map (·.eventId)) = .ok part := by
  induction part with
  | nil => rfl
  | cons e rest ih =>
    have hmem : e ∈ new := hpart.subset (by simp)
    have hfind : db.events.find? (fun x => decide (x.eventId = e.eventId)) = some e := by
      rw [hdb, List.find?_append, List.find?_eq_none.mpr (fun x hx => by simpa using hfresh e hmem x hx)]
      simp only [Option.none_or]
      obtain ⟨before, rfl⟩ := hpart
      rw [List.find?_append, List.find?_eq_none.mpr]
      · simp
      · intro x hx hxe
        simp only [List.map_append, List.map_cons] at hnodup
        have hd := (List.nodup_append.mp hnodup).2.2 x.eventId (List.mem_map_of_mem hx) e.eventId (by simp)
        exact hd (by simpa using hxe)
    have htail : rest <:+ new := (List.suffix_cons e rest).trans hpart
    simp [eventsByIds, eventById, hfind, ih htail]

/-- The write half of a transaction either fails or writes exactly its batch. -/
theorem appendNew_cases {db db' : Database} {b : Batch} {expectedSequence : Int} {r : Readings}
    {stored : List StoredEvent} (hne : b.events ≠ [])
    (h : db.appendNew b.entityType b.entityId expectedSequence b.events b.idempotency b.nonce r = .ok (stored, db')) :
    b.Writable db r ∧ expectedSequence = db.currentSequence b.entityType b.entityId ∧
      stored = b.stored db r ∧ db' = b.written db r := by
  obtain ⟨entityType, entityId, events, idempotency, nonce⟩ := b
  unfold appendNew at h
  obtain ⟨db1, h1, h⟩ := bind_eq_ok.mp h
  obtain ⟨hnonce, hdb1⟩ : (∀ v, nonce = some v → db.attestationNonceUses v.primaryKey = none) ∧
      db1 = { db with
        attestationNonceUses :=
          (Batch.written ⟨entityType, entityId, events, idempotency, nonce⟩ db r).attestationNonceUses } := by
    cases nonce with
    | none =>
      simp only [consumeOptionalNonce, Except.ok.injEq] at h1
      exact ⟨by simp, h1.symm⟩
    | some v =>
      simp only [consumeOptionalNonce, consumeAttestationNonce] at h1
      cases hu : db.attestationNonceUses v.primaryKey with
      | some use => simp [hu] at h1
      | none =>
        simp only [hu, Except.ok.injEq] at h1
        exact ⟨by rintro _ ⟨rfl⟩; exact hu, h1.symm⟩
  have hseq : db1.currentSequence entityType entityId = db.currentSequence entityType entityId := by rw [hdb1]; rfl
  obtain ⟨hexp, h⟩ := ensure_bind_eq_ok.mp h
  obtain ⟨db2, h2, h⟩ := bind_eq_ok.mp h
  obtain ⟨hdb2, henc, hnodup, hfresh⟩ := insertEvents_cases h2
  have hpos : (db1.setVersion entityType entityId
      (db1.currentSequence entityType entityId + events.length)).nextPosition = db.nextPosition := by rw [hdb1]; rfl
  rw [hpos, hseq] at hdb2 hnodup hfresh
  have hstored : stampEvents r entityType entityId (db.currentSequence entityType entityId) 0 db.nextPosition events =
      Batch.stored ⟨entityType, entityId, events, idempotency, nonce⟩ db r := rfl
  rw [hstored] at hdb2 hnodup hfresh
  obtain ⟨db3, h3, h⟩ := bind_eq_ok.mp h
  have hids := batchIds_eq ⟨entityType, entityId, events, idempotency, nonce⟩ db r
  simp only at hids
  rw [hids] at h3 h
  obtain ⟨hkey, hdb3⟩ : (∀ v, idempotency = some v → db.idempotencyRecords v.primaryKey = none) ∧
      db3 = Batch.written ⟨entityType, entityId, events, idempotency, nonce⟩ db r := by
    cases idempotency with
    | none =>
      simp only [recordOptionalIdempotency, Except.ok.injEq] at h3
      refine ⟨by simp, ?_⟩
      rw [← h3, hdb2, hdb1]
      rfl
    | some v =>
      simp only [recordOptionalIdempotency, recordIdempotency] at h3
      obtain ⟨hk, h3⟩ := ensure_bind_eq_ok.mp h3
      simp only [pure_eq_ok] at h3
      have hk' : db.idempotencyRecords v.primaryKey = none := by rw [hdb2, hdb1] at hk; exact hk
      refine ⟨by rintro _ ⟨rfl⟩; exact hk', ?_⟩
      rw [← h3, hdb2, hdb1]
      rfl
  obtain ⟨found, h4, h⟩ := bind_eq_ok.mp h
  simp only [pure_eq_ok, Prod.mk.injEq] at h
  obtain ⟨rfl, rfl⟩ := h
  have hfresh' : ∀ e ∈ Batch.stored ⟨entityType, entityId, events, idempotency, nonce⟩ db r, ∀ e' ∈ db.events,
      e'.eventId ≠ e.eventId := by
    intro e he e' he'
    exact hfresh e he e' (by rw [hdb1]; exact he')
  have hdb3' : db3.events = db.events ++ Batch.stored ⟨entityType, entityId, events, idempotency, nonce⟩ db r := by
    rw [hdb3]
    rfl
  have hby := eventsByIds_append hdb3' hnodup hfresh' (List.suffix_refl _)
  rw [hby, Except.ok.injEq] at h4
  exact ⟨⟨hne, hkey, hnonce, henc, hnodup, hfresh'⟩, by rw [← hexp, hseq], h4.symm, hdb3⟩

/-- A lookup of an unrecorded key, or the recorded events of the same request. -/
theorem existingIdempotency_cases {db : Database} {idempotency : Option Idempotency} {found : Option (List StoredEvent)}
    (h : db.existingIdempotency idempotency = .ok found) :
    (found = none ∧ ∀ v, idempotency = some v → db.idempotencyRecords v.primaryKey = none) ∨
      ∃ v row events, idempotency = some v ∧ db.idempotencyRecords v.primaryKey = some row ∧
        row.requestHash = v.requestHash ∧ db.eventsByIds row.eventIds = .ok events ∧ found = some events := by
  cases idempotency with
  | none =>
    simp only [existingIdempotency, Except.ok.injEq] at h
    exact .inl ⟨h.symm, by simp⟩
  | some v =>
    simp only [existingIdempotency, lookupIdempotency] at h
    cases hrow : db.idempotencyRecords v.primaryKey with
    | none =>
      simp only [hrow, Except.ok.injEq] at h
      exact .inl ⟨h.symm, by rintro _ ⟨rfl⟩; exact hrow⟩
    | some row =>
      simp only [hrow] at h
      obtain ⟨events, hres, h⟩ := bind_eq_ok.mp h
      simp only [pure_eq_ok] at h
      unfold resolveIdempotency at hres
      obtain ⟨hhash, hres⟩ := ensure_bind_eq_ok.mp hres
      obtain ⟨-, hres⟩ := ensure_bind_eq_ok.mp hres
      exact .inr ⟨v, row, events, rfl, hrow, hhash, hres, h.symm⟩

/-- The recorded events a key and its request resolve to. -/
def Replays (db : Database) (idempotency : Option Idempotency) (events : List StoredEvent) : Prop :=
  ∃ v row, idempotency = some v ∧ db.idempotencyRecords v.primaryKey = some row ∧
    row.requestHash = v.requestHash ∧ db.eventsByIds row.eventIds = .ok events

theorem validateAppendRequest_ok {entityType entityId : String} {expectedSequence : Int} {events : List NewEvent}
    {u : Unit} (h : validateAppendRequest entityType entityId expectedSequence events = .ok u) :
    (¬ Blank entityType ∧ ¬ Blank entityId) ∧ events ≠ [] := by
  unfold validateAppendRequest at h
  obtain ⟨hids, h⟩ := ensure_bind_eq_ok.mp h
  obtain ⟨-, h⟩ := ensure_bind_eq_ok.mp h
  obtain ⟨hne, -⟩ := ensure_bind_eq_ok.mp h
  exact ⟨hids, hne⟩

/-- `append` replays the recorded events or writes its batch. -/
theorem append_cases {db db' : Database} {b : Batch} {expectedSequence : Int} {r : Readings} {stored : List StoredEvent}
    (h : db.append b.entityType b.entityId expectedSequence b.events b.idempotency b.nonce r = .ok (stored, db')) :
    ¬ (b.entityType = "task" ∧ ∃ e ∈ b.events, e.eventType = "task.registered") ∧
      ((db.Replays b.idempotency stored ∧ db' = db) ∨
        (b.Writable db r ∧ expectedSequence = db.currentSequence b.entityType b.entityId ∧
          stored = b.stored db r ∧ db' = b.written db r)) := by
  unfold append at h
  obtain ⟨_, hvalid, h⟩ := bind_eq_ok.mp h
  obtain ⟨hguard, h⟩ := ensure_bind_eq_ok.mp h
  obtain ⟨found, hfound, h⟩ := bind_eq_ok.mp h
  refine ⟨hguard, ?_⟩
  rcases existingIdempotency_cases hfound with ⟨rfl, -⟩ | ⟨v, row, events, hv, hrow, hhash, hby, rfl⟩
  · exact .inr (appendNew_cases (validateAppendRequest_ok hvalid).2 h)
  · simp only [pure_eq_ok, Prod.mk.injEq] at h
    obtain ⟨rfl, rfl⟩ := h
    exact .inl ⟨⟨v, row, hv, hrow, hhash, hby⟩, rfl⟩

theorem validateFencedTaskBinding_ok {taskId : String} {events : List NewEvent} {u : Unit}
    (h : validateFencedTaskBinding taskId events = .ok u) : ∀ e ∈ events, e.payload.text "bundle_id" = some taskId := by
  induction events with
  | nil => simp
  | cons event rest ih =>
    unfold validateFencedTaskBinding at h
    cases hb : event.payload.text "bundle_id" with
    | none => simp [hb] at h
    | some bundleId =>
      simp only [hb] at h
      obtain ⟨heq, h⟩ := ensure_bind_eq_ok.mp h
      intro e he
      rcases List.mem_cons.mp he with rfl | he
      · rw [hb, heq]
      · exact ih h e he

/-- The lease row of the task is live and is the one the lease was taken from. -/
def FenceHeld (db : Database) (taskId : String) (lease : Lease) (now : Instant) : Prop :=
  lease.jobId = taskId ∧ ∃ row, db.leases.workerLeases taskId = some row ∧ LeaseTables.Held row lease ∧
    now < row.expiresAt

theorem assertCurrentFence_ok {db : Database} {taskId : String} {lease : Lease} {r : Readings} {u : Unit}
    (h : db.assertCurrentFence taskId lease r = .ok u) : db.FenceHeld taskId lease r.now := by
  unfold assertCurrentFence at h
  obtain ⟨hjob, h⟩ := ensure_bind_eq_ok.mp h
  obtain ⟨row, hrow, hheld, hlive⟩ := LeaseTables.assertCurrent_ok h
  exact ⟨hjob, row, hjob ▸ hrow, hheld, hlive⟩

/-- `append_fenced` replays recorded events of the same task, or writes its batch
while the lease is current. -/
theorem appendFenced_cases {db db' : Database} {b : Batch} {taskId : String} {lease : Lease} {expectedSequence : Int}
    {r : Readings} {stored : List StoredEvent}
    (h : db.appendFenced b.entityType b.entityId taskId lease expectedSequence b.events b.idempotency b.nonce r =
      .ok (stored, db')) :
    (∀ e ∈ b.events, e.payload.text "bundle_id" = some taskId) ∧
      ((db.Replays b.idempotency stored ∧ (∀ e ∈ stored, e.payload.get "bundle_id" = some (.str taskId)) ∧ db' = db) ∨
        (db.FenceHeld taskId lease r.now ∧ b.Writable db r ∧
          expectedSequence = db.currentSequence b.entityType b.entityId ∧
          stored = b.stored db r ∧ db' = b.written db r)) := by
  unfold appendFenced at h
  obtain ⟨_, hvalid, h⟩ := bind_eq_ok.mp h
  obtain ⟨-, h⟩ := ensure_bind_eq_ok.mp h
  obtain ⟨_, hbound, h⟩ := bind_eq_ok.mp h
  obtain ⟨found, hfound, h⟩ := bind_eq_ok.mp h
  refine ⟨validateFencedTaskBinding_ok hbound, ?_⟩
  rcases existingIdempotency_cases hfound with ⟨rfl, -⟩ | ⟨v, row, events, hv, hrow, hhash, hby, rfl⟩
  · obtain ⟨_, hfence, h⟩ := bind_eq_ok.mp h
    exact .inr ⟨assertCurrentFence_ok hfence, appendNew_cases (validateAppendRequest_ok hvalid).2 h⟩
  · obtain ⟨_, htask, h⟩ := bind_eq_ok.mp h
    simp only [pure_eq_ok, Prod.mk.injEq] at h
    obtain ⟨rfl, rfl⟩ := h
    exact .inl ⟨⟨v, row, hv, hrow, hhash, hby⟩, ensure_eq_ok.mp htask, rfl⟩

/-- The events are the one registration of the binding, as its projection row says. -/
def RegistrationOf (db : Database) (binding : ContractRevisionBinding) (events : List StoredEvent) : Prop :=
  ∃ e, events = [e] ∧ e.entityType = "task" ∧ e.entityId = binding.bundleId ∧ e.eventType = "task.registered" ∧
    registrationBindingFromPayload e.payload = .ok binding ∧
    db.contractRevisionBindings.find? (fun row => row.binding.contractId = binding.contractId ∧
      row.binding.revision = binding.revision) = some ⟨binding, e.eventId⟩

theorem contractRevisionProjectionRow_ok {db : Database} {contractId : String} {revision : Int}
    {row : Option RevisionBindingRow} (h : db.contractRevisionProjectionRow contractId revision = .ok row) :
    revision ≤ sqliteIntegerMax ∧ row = db.contractRevisionBindings.find? (fun row =>
      row.binding.contractId = contractId ∧ row.binding.revision = revision) := by
  unfold contractRevisionProjectionRow at h
  obtain ⟨hle, h⟩ := ensure_bind_eq_ok.mp h
  simp only [pure_eq_ok] at h
  exact ⟨hle, h.symm⟩

theorem assertRegistrationEventsMatch_ok {db : Database} {binding : ContractRevisionBinding} {events : List StoredEvent}
    {u : Unit} (h : db.assertRegistrationEventsMatch binding events = .ok u) : db.RegistrationOf binding events := by
  rcases events with _ | ⟨e, _ | ⟨e', rest⟩⟩
  · simp [assertRegistrationEventsMatch] at h
  · unfold assertRegistrationEventsMatch at h
    obtain ⟨hstream, h⟩ := ensure_bind_eq_ok.mp h
    obtain ⟨recorded, hrec, h⟩ := bind_eq_ok.mp h
    obtain ⟨rfl, h⟩ := ensure_bind_eq_ok.mp h
    obtain ⟨row, hrow, h⟩ := bind_eq_ok.mp h
    obtain ⟨-, hrow⟩ := contractRevisionProjectionRow_ok hrow
    cases row with
    | none => simp at h
    | some row =>
      obtain ⟨hb, he⟩ := ensure_eq_ok.mp h
      obtain ⟨binding, eventId⟩ := row
      simp only at hb he
      subst hb he
      exact ⟨e, rfl, hstream.1, hstream.2.1, hstream.2.2, hrec, hrow.symm⟩
  · simp [assertRegistrationEventsMatch] at h

/-- The record that links a fresh key to an earlier event. -/
def linked (db : Database) (v : Idempotency) (eventId : String) (recordedAt : Instant) : Database :=
  { db with
    idempotencyRecords := Function.update db.idempotencyRecords v.primaryKey
      (some ⟨v.requestHash, [eventId], recordedAt⟩) }

/-- The tables with one more projection row. -/
def withBinding (db : Database) (binding : ContractRevisionBinding) (eventId : String) : Database :=
  { db with contractRevisionBindings := db.contractRevisionBindings ++ [⟨binding, eventId⟩] }

private theorem eventsByIds_singleton_id {db : Database} {eventId : String} {e : StoredEvent}
    (h : db.eventsByIds [eventId] = .ok [e]) : eventId = e.eventId := by
  unfold eventsByIds at h
  obtain ⟨found, hfound, h⟩ := bind_eq_ok.mp h
  obtain ⟨rest, hrest, h⟩ := bind_eq_ok.mp h
  simp only [pure_eq_ok, List.cons.injEq] at h
  obtain ⟨rfl, -⟩ := h
  unfold eventById at hfound
  cases hf : db.events.find? (fun x => decide (x.eventId = eventId)) with
  | none => simp [hf] at hfound
  | some e' =>
    simp only [hf, Except.ok.injEq] at hfound
    subst hfound
    have hid : e'.eventId = eventId := by simpa using List.find?_some hf
    exact hid.symm

private theorem insertContractRevisionBinding_cases {db db' : Database} {binding : ContractRevisionBinding} {eventId : String}
    (h : asRevisionConflict (db.insertContractRevisionBinding binding eventId) = .ok db') :
    (∀ row ∈ db.contractRevisionBindings,
      ¬ (row.binding.contractId = binding.contractId ∧ row.binding.revision = binding.revision) ∧
        row.binding.bundleId ≠ binding.bundleId ∧ row.registrationEventId ≠ eventId) ∧
      db' = db.withBinding binding eventId := by
  have hins : db.insertContractRevisionBinding binding eventId = .ok db' := by
    unfold asRevisionConflict at h
    split at h
    · cases h
    · exact h
  unfold insertContractRevisionBinding at hins
  obtain ⟨-, hins⟩ := ensure_bind_eq_ok.mp hins
  obtain ⟨hu, hins⟩ := ensure_bind_eq_ok.mp hins
  simp only [pure_eq_ok] at hins
  exact ⟨hu, hins.symm⟩

/-- A registration replays its key, links a redelivery to the recorded event, or writes
the event together with its projection row. -/
theorem appendContractRevisionRegistration_cases {db db' : Database} {binding : ContractRevisionBinding}
    {event : NewEvent} {idempotency : Idempotency} {nonce : AttestationNonce} {r : Readings} {stored : List StoredEvent}
    (h : db.appendContractRevisionRegistration binding event idempotency nonce r = .ok (stored, db')) :
    event.eventType = "task.registered" ∧
      ((db.Replays (some idempotency) stored ∧ db.RegistrationOf binding stored ∧ db' = db) ∨
        (∃ e, stored = [e] ∧ db.idempotencyRecords idempotency.primaryKey = none ∧
          db.eventsByIds [e.eventId] = .ok [e] ∧ db.RegistrationOf binding stored ∧
          db' = db.linked idempotency e.eventId r.recordedAt) ∨
        (∃ e, stored = [e] ∧ (AppendCall.registration binding event idempotency nonce).batch.Writable db r ∧
          db.currentSequence "task" binding.bundleId = 0 ∧ binding.revision ≤ sqliteIntegerMax ∧
          (∀ row ∈ db.contractRevisionBindings,
            ¬ (row.binding.contractId = binding.contractId ∧ row.binding.revision = binding.revision) ∧
              row.binding.bundleId ≠ binding.bundleId ∧ row.registrationEventId ≠ e.eventId) ∧
          stored = (AppendCall.registration binding event idempotency nonce).batch.stored db r ∧
          db' = ((AppendCall.registration binding event idempotency nonce).batch.written db r).withBinding binding
            e.eventId)) := by
  unfold appendContractRevisionRegistration at h
  obtain ⟨htype, h⟩ := ensure_bind_eq_ok.mp h
  obtain ⟨-, -, h⟩ := bind_eq_ok.mp h
  obtain ⟨found, hfound, h⟩ := bind_eq_ok.mp h
  refine ⟨htype, ?_⟩
  rcases existingIdempotency_cases hfound with ⟨rfl, hkey⟩ | ⟨v, row, events, hv, hrow, hhash, hby, rfl⟩
  · obtain ⟨existing, hexisting, h⟩ := bind_eq_ok.mp h
    obtain ⟨hbound, -⟩ := contractRevisionProjectionRow_ok hexisting
    cases hsel : existing <|> db.projectionRowForBundle binding.bundleId with
    | some row =>
      simp only [hsel] at h
      split at h
      · rename_i heq
        obtain ⟨replayed, hby, h⟩ := bind_eq_ok.mp h
        obtain ⟨_, hmatch, h⟩ := bind_eq_ok.mp h
        obtain ⟨linkedDb, hlink, h⟩ := bind_eq_ok.mp h
        unfold recordIdempotency at hlink
        obtain ⟨hk, hlink⟩ := ensure_bind_eq_ok.mp hlink
        simp only [pure_eq_ok, Prod.mk.injEq] at h hlink
        obtain ⟨rfl, rfl⟩ := h
        have hreg := assertRegistrationEventsMatch_ok hmatch
        obtain ⟨e, rfl, -, -, -, -, hproj⟩ := id hreg
        have hid : row.registrationEventId = e.eventId := eventsByIds_singleton_id hby
        rw [hid] at hby hlink
        exact .inr (.inl ⟨e, rfl, hk, hby, hreg, hlink.symm⟩)
      · obtain ⟨_, -, h⟩ := bind_eq_ok.mp h
        cases h
    | none =>
      simp only [hsel] at h
      obtain ⟨⟨registered, mid⟩, hnew, h⟩ := bind_eq_ok.mp h
      obtain ⟨hw, hseq, hst, hmid⟩ :=
        appendNew_cases (b := (AppendCall.registration binding event idempotency nonce).batch)
          (by simp [AppendCall.batch]) hnew
      cases registered with
      | nil => simp at h
      | cons first rest =>
        obtain ⟨full, hins, h⟩ := bind_eq_ok.mp h
        simp only [pure_eq_ok, Prod.mk.injEq] at h
        obtain ⟨rfl, rfl⟩ := h
        have hrest : rest = [] := by
          have hlen := congrArg List.length hst
          simp [Batch.stored, AppendCall.batch] at hlen
          exact hlen
        subst hrest
        obtain ⟨hu, hfull⟩ := insertContractRevisionBinding_cases hins
        rw [hmid] at hu hfull
        exact .inr (.inr ⟨first, rfl, hw, by exact_mod_cast hseq.symm, hbound, hu, hst, hfull⟩)
  · obtain ⟨_, hmatch, h⟩ := bind_eq_ok.mp h
    simp only [pure_eq_ok, Prod.mk.injEq] at h
    obtain ⟨rfl, rfl⟩ := h
    exact .inl ⟨⟨v, row, hv, hrow, hhash, hby⟩, assertRegistrationEventsMatch_ok hmatch, rfl⟩

end Database

namespace AppendCall

/-- The stream version the caller expects. -/
def expectedSequence : AppendCall → Int
  | append _ expected | appendFenced _ _ _ expected => expected
  | registration .. => 0

/-- What the recorded events must satisfy for the call to return them again. -/
def AcceptsReplay (db : Database) (events : List StoredEvent) : AppendCall → Prop
  | append .. => True
  | appendFenced _ taskId _ _ => ∀ e ∈ events, e.payload.get "bundle_id" = some (.str taskId)
  | registration binding _ _ _ => db.RegistrationOf binding events

/-- What a new write requires of its own kind of call. -/
def Admits (db : Database) (r : Readings) : AppendCall → Prop
  | append b _ => ¬ (b.entityType = "task" ∧ ∃ e ∈ b.events, e.eventType = "task.registered")
  | appendFenced b taskId lease _ =>
    db.FenceHeld taskId lease r.now ∧ ∀ e ∈ b.events, e.payload.text "bundle_id" = some taskId
  | registration binding event _ _ => event.eventType = "task.registered" ∧ binding.revision ≤ sqliteIntegerMax ∧
    ∀ row ∈ db.contractRevisionBindings,
      ¬ (row.binding.contractId = binding.contractId ∧ row.binding.revision = binding.revision) ∧
        row.binding.bundleId ≠ binding.bundleId ∧ row.registrationEventId ≠ (r.uuid 0).text

/-- The tables after the call writes. -/
def written (db : Database) (r : Readings) : AppendCall → Database
  | call@(registration binding _ _ _) => (call.batch.written db r).withBinding binding (r.uuid 0).text
  | call => call.batch.written db r

/-- Everything an append transaction that returned can have done. -/
inductive Outcome (db : Database) (r : Readings) : AppendCall → List StoredEvent → Database → Prop
  | replayed {call : AppendCall} {events : List StoredEvent} : db.Replays call.batch.idempotency events →
      call.AcceptsReplay db events →
      Outcome db r call events db
  | linked {binding event idempotency nonce e} : db.idempotencyRecords idempotency.primaryKey = none →
      db.eventsByIds [e.eventId] = .ok [e] → db.RegistrationOf binding [e] →
      Outcome db r (registration binding event idempotency nonce) [e] (db.linked idempotency e.eventId r.recordedAt)
  | written (call : AppendCall) : call.batch.Writable db r → call.Admits db r →
      call.expectedSequence = db.currentSequence call.batch.entityType call.batch.entityId →
      Outcome db r call (call.batch.stored db r) (call.written db r)

/-- The one spec lemma of the three append transactions. -/
theorem transaction_outcome {db db' : Database} {r : Readings} {call : AppendCall} {events : List StoredEvent}
    (h : call.transaction db r = .ok (events, db')) : Outcome db r call events db' := by
  cases call with
  | append b expected =>
    obtain ⟨hguard, ⟨hrep, rfl⟩ | ⟨hw, hexp, rfl, rfl⟩⟩ := Database.append_cases h
    · exact .replayed hrep trivial
    · exact .written (append b expected) hw hguard hexp
  | appendFenced b taskId lease expected =>
    obtain ⟨hbound, ⟨hrep, htask, rfl⟩ | ⟨hfence, hw, hexp, rfl, rfl⟩⟩ := Database.appendFenced_cases h
    · exact .replayed hrep htask
    · exact .written (appendFenced b taskId lease expected) hw ⟨hfence, hbound⟩ hexp
  | registration binding event idempotency nonce =>
    obtain ⟨htype, ⟨hrep, hreg, rfl⟩ | ⟨e, rfl, hkey, hby, hreg, rfl⟩ | ⟨e, rfl, hw, hseq, hle, hfree, hst, rfl⟩⟩ :=
      Database.appendContractRevisionRegistration_cases h
    · exact .replayed hrep hreg
    · exact .linked hkey hby hreg
    · have hid : e.eventId = (r.uuid 0).text := by
        have hhead := congrArg (List.map (·.eventId)) hst
        simpa [Batch.stored, batch, stampEvents] using hhead
      rw [hid] at hfree ⊢
      rw [hst]
      exact .written (registration binding event idempotency nonce) hw ⟨htype, hle, hfree⟩
        (by simp [expectedSequence, batch, hseq])

end AppendCall
end Autolean.ControlPlane
