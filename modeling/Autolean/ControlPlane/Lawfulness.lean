import Autolean.ControlPlane.CommandReads
import Autolean.ControlPlane.Justification

/-! The invariant of the control plane under any number of concurrent commands, and the
protocol through which commands rely on it. -/
namespace Autolean.ControlPlane
open Contracts Machine Raising

variable {θ : Type}

/-- The event is the record of the call: its stream and place, its content, and the nonce
consumed with it. -/
structure Recorded (db : Database) (call : AppendCall) (e : StoredEvent) : Prop where
  entityType : e.entityType = call.batch.entityType
  entityId : e.entityId = call.batch.entityId
  content : call.batch.events = [⟨e.eventType, e.payload, e.metadata⟩]
  sequence : (e.entitySequence : Int) = call.expectedSequence + 1
  nonce : ∀ n, call.batch.nonce = some n → ∃ use, db.attestationNonceUses n.primaryKey = some use ∧
    use.entityType = e.entityType ∧ use.entityId = e.entityId

/-- The event records a command that the events before it justify. -/
def Justified (svc : Service) (commands : θ → Command) (w : World) (before : List StoredEvent) (e : StoredEvent) : Prop :=
  ∃ i call, svc.Commits before w.blobs (commands i) call ∧ Recorded w.database call e

/-- The event is on the stream the call writes to and has the type it writes. -/
structure Answers (call : AppendCall) (e : StoredEvent) : Prop where
  entityType : e.entityType = call.batch.entityType
  entityId : e.entityId = call.batch.entityId
  eventType : ∃ new, call.batch.events = [new] ∧ new.eventType = e.eventType

/-- The row binds the key of some command's call to one event that answers it. -/
def Keyed (svc : Service) (commands : θ → Command) (w : World) (key : String × String) (row : IdempotencyRow) : Prop :=
  ∃ i call v e, svc.Commits w.database.events w.blobs (commands i) call ∧ call.batch.idempotency = some v ∧
    v.primaryKey = key ∧ v.requestHash = row.requestHash ∧ row.eventIds = [e.eventId] ∧ e ∈ w.database.events ∧
    Answers call e

structure Lawful (svc : Service) (commands : θ → Command) (w : World) : Prop where
  coherent : Coherent w.database
  image : w.database.RevisionImage
  history : History (Justified svc commands w) w.database.events
  keyed : ∀ key row, w.database.idempotencyRecords key = some row → Keyed svc commands w key row

/-- Nothing a later world has lost. -/
structure Evolves (w w' : World) : Prop where
  database : Extends w.database w'.database
  blobs : BlobsKept w.blobs w'.blobs

namespace Evolves

theorem refl (w : World) : Evolves w w := ⟨.refl _, fun _ _ h => h⟩

theorem trans {a b c : World} (h : Evolves a b) (h' : Evolves b c) : Evolves a c :=
  ⟨h.database.trans h'.database, fun d x hx => h'.blobs d x (h.blobs d x hx)⟩

theorem log {w w' : World} (h : Evolves w w') : w.database.events ⊆ w'.database.events := h.database.events.subset

end Evolves

variable {svc : Service} {commands : θ → Command}

theorem Recorded.extends {db db' : Database} {call : AppendCall} {e : StoredEvent} (h : Recorded db call e)
    (he : Extends db db') : Recorded db' call e where
  entityType := h.entityType
  entityId := h.entityId
  content := h.content
  sequence := h.sequence
  nonce n hn := by
    obtain ⟨use, huse, hs⟩ := h.nonce n hn
    exact ⟨use, he.nonces _ _ huse, hs⟩

theorem Justified.evolves {w w' : World} {before : List StoredEvent} {e : StoredEvent}
    (h : Justified svc commands w before e) (he : Evolves w w') : Justified svc commands w' before e := by
  obtain ⟨i, call, hc, hr⟩ := h
  exact ⟨i, call, hc.mono (List.Subset.refl _) he.blobs, hr.extends he.database⟩

theorem Keyed.evolves {w w' : World} {key : String × String} {row : IdempotencyRow} (h : Keyed svc commands w key row)
    (he : Evolves w w') : Keyed svc commands w' key row := by
  obtain ⟨i, call, v, e, hc, hv, hk, hh, hid, hmem, ha⟩ := h
  exact ⟨i, call, v, e, hc.mono he.log he.blobs, hv, hk, hh, hid, he.log hmem, ha⟩

/-- A step that writes no event and no key record keeps the invariant. -/
theorem Lawful.frame {w w' : World} (h : Lawful svc commands w) (he : Evolves w w') (hc : Coherent w'.database)
    (hi : w'.database.RevisionImage) (hev : w'.database.events = w.database.events)
    (hrec : w'.database.idempotencyRecords = w.database.idempotencyRecords) : Lawful svc commands w' where
  coherent := hc
  image := hi
  history := by
    rw [hev]
    exact h.history.imp fun _ _ hj => hj.evolves he
  keyed key row hrow := by
    rw [hrec] at hrow
    exact (h.keyed key row hrow).evolves he

/-! Registrations of a command project onto the bindings they are called with -/

theorem registrationBindingFromPayload_registrationPayload (svc : Service) (bundle : FormalizationTaskBundle)
    (assurance : Option CanonicalTypeAssurance) (attestation : JsonObject) :
    Database.registrationBindingFromPayload (registrationPayload (svc.binding bundle assurance) attestation) =
      .ok (svc.revisionBinding bundle.toHandoff) := by
  have htext {key value : String} (hk : (registrationPayload (svc.binding bundle assurance) attestation).get key =
      some (.str value)) (hne : value ≠ "") :
      Database.registrationText (registrationPayload (svc.binding bundle assurance) attestation) key = .ok value := by
    simp [Database.registrationText, JsonObject.text, hk, hne]
  have hrev : Database.registrationRevision (registrationPayload (svc.binding bundle assurance) attestation) =
      .ok bundle.contract.revision := rfl
  have hb := bindingFromBundle_presentable svc.hashing bundle.toHandoff assurance (svc.reference (.bundle bundle))
  unfold Database.registrationBindingFromPayload
  rw [hrev, ok_bind, htext rfl hb.contractId, ok_bind, htext rfl hb.bundleId, ok_bind, htext rfl hb.bundleHash, ok_bind,
    htext rfl hb.contractHash, ok_bind]
  unfold ContractRevisionBinding.make
  rw [dif_pos ⟨(svc.revisionBinding bundle.toHandoff).ids_nonblank, (svc.revisionBinding bundle.toHandoff).revision_pos,
    (svc.revisionBinding bundle.toHandoff).bundleHash_sha256, (svc.revisionBinding bundle.toHandoff).contractHash_sha256⟩]
  rfl

theorem Service.Commits.projects {log : List StoredEvent} {blobs : String → Option Artifact} {command : Command}
    {call : AppendCall} (h : svc.Commits log blobs command call) (db : Database) (r : Readings) :
    ¬ call.MisregistersTask db r := by
  cases h with
  | registered =>
    rintro ⟨hne, -⟩
    exact hne (registrationBindingFromPayload_registrationPayload svc _ _ _)
  | claimed => exact fun h => h
  | submitted | gap | change | verdict =>
    rintro ⟨⟨ht, -⟩, -⟩
    simp at ht

/-! One write -/

/-- The row a one-event batch becomes. -/
private theorem stored_singleton {b : Batch} {new : NewEvent} (h : b.events = [new]) (db : Database) (r : Readings) :
    ∃ e, b.stored db r = [e] ∧ e.entityType = b.entityType ∧ e.entityId = b.entityId ∧
      b.events = [⟨e.eventType, e.payload, e.metadata⟩] ∧
      e.entitySequence = db.currentSequence b.entityType b.entityId + 1 := by
  refine ⟨⟨db.nextPosition, (r.uuid 0).text, b.entityType, b.entityId, db.currentSequence b.entityType b.entityId + 0 + 1,
    new.eventType, new.payload, new.metadata, r.recordedAt⟩, ?_, rfl, rfl, h, rfl⟩
  simp only [Batch.stored, h, stampEvents]

/-- A one-event write appends the record of its call. -/
theorem written_records {call : AppendCall} {new : NewEvent} (hnew : call.batch.events = [new]) {db : Database}
    (r : Readings) (hs : call.expectedSequence = db.currentSequence call.batch.entityType call.batch.entityId) :
    ∃ e, call.batch.stored db r = [e] ∧ (call.written db r).events = db.events ++ [e] ∧
      Recorded (call.written db r) call e := by
  obtain ⟨e, hst, hty, hid, hcontent, hseq⟩ := stored_singleton hnew db r
  refine ⟨e, hst, by rw [AppendCall.written_events, hst], hty, hid, hcontent, ?_, ?_⟩
  · rw [hs, hseq]
    push_cast
    rfl
  · intro n hn
    rw [AppendCall.written_nonces, Batch.written_nonces_some hn, Function.update_self]
    exact ⟨_, rfl, hty.symm, hid.symm⟩

theorem RegistrationOf.answers {db : Database} {binding : ContractRevisionBinding} {event : NewEvent}
    {idempotency : Idempotency} {nonce : AttestationNonce} {e : StoredEvent} (h : db.RegistrationOf binding [e])
    (ht : event.eventType = "task.registered") : Answers (.registration binding event idempotency nonce) e := by
  obtain ⟨e', he, hty, hid, het, -, -⟩ := h
  simp only [List.cons.injEq, and_true] at he
  subst he
  exact ⟨hty, hid, event, rfl, ht.trans het.symm⟩

/-- A write a command may make keeps the invariant. -/
theorem Lawful.write {w : World} (h : Lawful svc commands w) {i : θ} {call : AppendCall}
    (hc : svc.Commits w.database.events w.blobs (commands i) call) {r : Readings} {events : List StoredEvent}
    {db : Database} (ht : call.transaction w.database r = .ok (events, db)) :
    Lawful svc commands ⟨db, w.blobs⟩ ∧ Evolves w ⟨db, w.blobs⟩ := by
  obtain ⟨hcoh, hext⟩ := AppendCall.transaction_keeps h.coherent ht
  have himage := AppendCall.transaction_keeps_image h.image ht (hc.projects _ _)
  have hev : Evolves w ⟨db, w.blobs⟩ := ⟨hext, fun _ _ hb => hb⟩
  obtain ⟨⟨new, hnew, -⟩, v, hv⟩ := hc.batch
  refine ⟨?_, hev⟩
  cases AppendCall.transaction_outcome ht with
  | replayed _ _ => exact h
  | @linked binding event idempotency nonce e hk hby hreg =>
    refine ⟨hcoh, himage, h.history.imp fun _ _ hj => hj.evolves hev, ?_⟩
    intro key row hrow
    by_cases hkey : key = idempotency.primaryKey
    · subst hkey
      simp only [Database.linked, Function.update_self, Option.some.injEq] at hrow
      subst hrow
      have htype : event.eventType = "task.registered" := (Database.appendContractRevisionRegistration_cases ht).1
      exact ⟨i, _, idempotency, e, hc.mono hev.log hev.blobs, rfl, rfl, rfl, rfl,
        Database.eventsByIds_mem hby e (List.mem_singleton_self _), RegistrationOf.answers hreg htype⟩
    · simp only [Database.linked, Function.update_of_ne hkey] at hrow
      exact (h.keyed key row hrow).evolves hev
  | written _ hw ha hs =>
    obtain ⟨e, hst, hevents, hrec⟩ := written_records hnew r hs
    have hrecords : (call.written w.database r).idempotencyRecords =
        (call.batch.written w.database r).idempotencyRecords := by cases call <;> rfl
    refine ⟨hcoh, himage, ?_, ?_⟩
    · simp only [hevents]
      exact (history_concat e).mpr ⟨h.history.imp fun _ _ hj => hj.evolves hev, i, call, hc, hrec⟩
    · intro key row hrow
      rw [hrecords, Batch.written_records_some hv] at hrow
      by_cases hkey : key = v.primaryKey
      · subst hkey
        simp only [Function.update_self, Option.some.injEq] at hrow
        subst hrow
        refine ⟨i, call, v, e, hc.mono hev.log hev.blobs, hv, rfl, rfl, by simp [hst], by simp [hevents], ?_⟩
        exact ⟨hrec.entityType, hrec.entityId, _, hrec.content, rfl⟩
      · rw [Function.update_of_ne hkey] at hrow
        exact (h.keyed key row hrow).evolves hev

/-- What one step of the world adds to the log: the record of a write its checks allowed. -/
structure Appends (svc : Service) (commands : θ → Command) (w w' : World) (r : Readings) (call : AppendCall)
    (e : StoredEvent) : Prop where
  commits : ∃ i, svc.Commits w.database.events w.blobs (commands i) call
  writable : call.batch.Writable w.database r
  admits : call.Admits w.database r
  place : call.expectedSequence = w.database.currentSequence call.batch.entityType call.batch.entityId
  database : w'.database = call.written w.database r
  events : w'.database.events = w.database.events ++ [e]
  recorded : Recorded w'.database call e

/-! The protocol -/

/-- A command promises that each write is one its checks allow. -/
def Allowed (svc : Service) (commands : θ → Command) (w : World) : ServiceOp → Prop
  | .store (.write call) => ∃ i, svc.Commits w.database.events w.blobs (commands i) call
  | _ => True

private theorem storeBlob_evolves (svc : Service) (w : World) (content : Artifact) : Evolves w (svc.storeBlob w content) := by
  unfold Service.storeBlob
  cases hb : w.blobs (svc.hashing.artifactDigest content).value with
  | some _ => exact .refl w
  | none =>
    refine ⟨.refl _, fun d a ha => ?_⟩
    by_cases hd : d = (svc.hashing.artifactDigest content).value
    · subst hd
      rw [hb] at ha
      cases ha
    · simpa [Function.update_of_ne hd] using ha

theorem onLeases_frame {α : Type} (x : Raises (α × LeaseTables)) (db : Database) :
    (onLeases x db).2.events = db.events ∧ (onLeases x db).2.idempotencyRecords = db.idempotencyRecords := by
  cases x <;> exact ⟨rfl, rfl⟩

/-- One operation a command may issue keeps the invariant and loses nothing. -/
theorem Lawful.step {w : World} (h : Lawful svc commands w) {op : ServiceOp} (ha : Allowed svc commands w op)
    (i : ServiceInput) : Lawful svc commands (svc.exec op i w).2 ∧ Evolves w (svc.exec op i w).2 := by
  cases op with
  | store op =>
    have lease (hop : ∀ call, op ≠ .write call)
        (hf : (op.exec i.readings w.database).2.events = w.database.events ∧
          (op.exec i.readings w.database).2.idempotencyRecords = w.database.idempotencyRecords) :
        Lawful svc commands (svc.exec (.store op) i w).2 ∧ Evolves w (svc.exec (.store op) i w).2 := by
      obtain ⟨hc, hext⟩ := storeStep_keeps h.coherent (op, i.readings)
      have hi := storeStep_keeps_image (l := (op, i.readings)) h.image fun call hcall => absurd hcall (hop call)
      have hev : Evolves w (svc.exec (.store op) i w).2 := ⟨hext, fun _ _ hb => hb⟩
      exact ⟨h.frame hev hc hi hf.1 hf.2, hev⟩
    cases op with
    | write call =>
      obtain ⟨j, hj⟩ := ha
      simp only [Service.exec, StoreOp.exec]
      cases ht : call.transaction w.database i.readings with
      | error e => exact ⟨h, .refl w⟩
      | ok res => exact h.write hj ht
    | claimLease _ _ _ | renewLease _ _ | releaseRow _ => exact lease (by simp) (onLeases_frame _ _)
    | lookupIdempotency _ | currentSequence _ _ | readStream _ _ | readAll | assertCurrent _ | currentLease _ =>
      exact lease (by simp) ⟨rfl, rfl⟩
  | putArtifact content =>
    have hev := storeBlob_evolves svc w content
    have hdb := storeBlob_database svc w content
    have hl : Lawful svc commands (svc.storeBlob w content) :=
      h.frame hev (hdb ▸ h.coherent) (hdb ▸ h.image) (by rw [hdb]) (by rw [hdb])
    exact ⟨hl, hev⟩
  | verify _ _ _ | getArtifact _ | verifyArtifact _ => exact ⟨h, .refl w⟩

/-- An operation a command may issue leaves the log as it is or records one write. -/
theorem step_appends {w : World} {op : ServiceOp} (ha : Allowed svc commands w op) (i : ServiceInput) :
    (svc.exec op i w).2.database.events = w.database.events ∨
      ∃ call e, op = .store (.write call) ∧ Appends svc commands w (svc.exec op i w).2 i.readings call e := by
  cases op with
  | store op =>
    cases op with
    | write call =>
      obtain ⟨j, hj⟩ := ha
      simp only [Service.exec, StoreOp.exec]
      cases ht : call.transaction w.database i.readings with
      | error e => exact .inl rfl
      | ok res =>
        obtain ⟨events, db⟩ := res
        cases AppendCall.transaction_outcome ht with
        | replayed _ _ => exact .inl rfl
        | linked _ _ _ => exact .inl rfl
        | written _ hw had hs =>
          obtain ⟨⟨new, hnew, -⟩, -⟩ := hj.batch
          obtain ⟨e, -, hevents, hrec⟩ := written_records hnew i.readings hs
          exact .inr ⟨call, e, rfl, ⟨j, hj⟩, hw, had, hs, rfl, hevents, hrec⟩
    | claimLease _ _ _ | renewLease _ _ | releaseRow _ => exact .inl (onLeases_frame _ _).1
    | lookupIdempotency _ | currentSequence _ _ | readStream _ _ | readAll | assertCurrent _ | currentLease _ =>
      exact .inl rfl
  | putArtifact content => exact .inl (congrArg Database.events (storeBlob_database svc w content))
  | verify _ _ _ | getArtifact _ | verifyArtifact _ => exact .inl rfl

/-- The contract between the world and its commands, for the steps `may` selects. -/
def protocol (svc : Service) (commands : θ → Command) (may : World → (op : ServiceOp) → ServiceInput → Prop) :
    Protocol serviceInterface ControlPlaneError ServiceInput World where
  exec := svc.exec
  Inv := Lawful svc commands
  Evolves := Evolves
  Allowed := Allowed svc commands
  may := may
  refl := .refl
  trans := .trans
  step h ha _ := h.step ha _

theorem empty_lawful : Lawful svc commands ⟨.empty, fun _ => none⟩ where
  coherent := empty_coherent
  image := .nil
  history := history_nil
  keyed := by simp [Database.empty]

end Autolean.ControlPlane
