import Autolean.ControlPlane.Claims
import Autolean.Machine.Progress

/-! `register_bundle` on its own, from any state of the store: what its transaction commits,
and when what it has committed cannot be read back. -/
namespace Autolean.ControlPlane
open Contracts Machine Raising

/-! A transaction whose conditions are met commits -/

namespace Database

private theorem insertEvents_of {r : Readings} {entityType entityId : String} {start n : Nat} {events : List NewEvent}
    {db : Database} (henc : ∀ e ∈ events, Json.encodableFields e.payload = true ∧ Json.encodableFields e.metadata = true)
    (hnodup : ((stampEvents r entityType entityId start n db.nextPosition events).map (·.eventId)).Nodup)
    (hfresh : ∀ e ∈ stampEvents r entityType entityId start n db.nextPosition events, ∀ e' ∈ db.events,
      e'.eventId ≠ e.eventId)
    (hplace : ∀ e' ∈ db.events, e'.entityType = entityType → e'.entityId = entityId → e'.entitySequence ≤ start + n) :
    insertEvents r entityType entityId start n events db =
      .ok { db with events := db.events ++ stampEvents r entityType entityId start n db.nextPosition events } := by
  induction events generalizing db n with
  | nil => simp [insertEvents, stampEvents]
  | cons event rest ih =>
    have hfirst : ∀ e' ∈ db.events, e'.eventId ≠ (r.uuid n).text ∧
        ¬ (e'.entityType = entityType ∧ e'.entityId = entityId ∧ e'.entitySequence = start + n + 1) := by
      intro e' he'
      refine ⟨hfresh _ List.mem_cons_self e' he', ?_⟩
      rintro ⟨ht, hi, hs⟩
      have := hplace e' he' ht hi
      omega
    have hinsert : db.insertEvent (r.uuid n).text entityType entityId (start + n + 1) event r.recordedAt =
        .ok { db with events := db.events ++ [⟨db.nextPosition, (r.uuid n).text, entityType, entityId, start + n + 1,
          event.eventType, event.payload, event.metadata, r.recordedAt⟩] } := by
      unfold insertEvent
      exact ensure_bind_eq_ok.mpr ⟨henc event List.mem_cons_self, ensure_bind_eq_ok.mpr ⟨hfirst, rfl⟩⟩
    simp only [stampEvents, List.map_cons, List.nodup_cons] at hnodup
    unfold insertEvents
    rw [hinsert, ok_bind, ih]
    · rw [nextPosition_append db _ _ rfl]
      simp [stampEvents, List.append_assoc]
    · exact fun e he => henc e (List.mem_cons_of_mem _ he)
    · rw [nextPosition_append db _ _ rfl]
      exact hnodup.2
    · rw [nextPosition_append db _ _ rfl]
      intro e he e' he'
      rcases List.mem_append.mp he' with he' | he'
      · exact hfresh e (List.mem_cons_of_mem _ he) e' he'
      · rw [List.mem_singleton.mp he']
        exact fun heq => hnodup.1 (List.mem_map.mpr ⟨e, he, heq.symm⟩)
    · intro e' he' ht hi
      rcases List.mem_append.mp he' with he' | he'
      · have := hplace e' he' ht hi
        omega
      · rw [List.mem_singleton.mp he']
        exact le_of_eq (by simp [Nat.add_assoc])

/-- The last event of a stream stands at the stream's version. -/
theorem sequence_le_current {db : Database} (hc : Coherent db) {e : StoredEvent} (he : e ∈ db.events) :
    e.entitySequence ≤ db.currentSequence e.entityType e.entityId := by
  have hm : e.entitySequence ∈ (db.stream e.entityType e.entityId).map (·.entitySequence) :=
    List.mem_map_of_mem (List.mem_filter.mpr ⟨he, by simp⟩)
  rw [hc.streams, List.mem_range'_1] at hm
  omega

/-- A batch the database has room for is written. -/
theorem appendNew_of_writable {db : Database} (hc : Coherent db) {b : Batch} {r : Readings} (hw : b.Writable db r) :
    db.appendNew b.entityType b.entityId (db.currentSequence b.entityType b.entityId) b.events b.idempotency b.nonce r =
      .ok (b.stored db r, b.written db r) := by
  have hnonce : db.consumeOptionalNonce b.nonce b.entityType b.entityId r =
      .ok { db with attestationNonceUses := (b.written db r).attestationNonceUses } := by
    cases hn : b.nonce with
    | none => simp only [consumeOptionalNonce, Batch.written_nonces_none hn]
    | some n =>
      simp only [consumeOptionalNonce, consumeAttestationNonce, hw.nonce_unused n hn, Batch.written_nonces_some hn]
  have hplace : ∀ e' ∈ db.events, e'.entityType = b.entityType → e'.entityId = b.entityId →
      e'.entitySequence ≤ db.currentSequence b.entityType b.entityId + 0 := by
    intro e' he' ht hi
    rw [← ht, ← hi]
    exact sequence_le_current hc he'
  have hinsert := @insertEvents_of r b.entityType b.entityId _ 0 b.events
    (({ db with attestationNonceUses := (b.written db r).attestationNonceUses } : Database).setVersion
      b.entityType b.entityId (db.currentSequence b.entityType b.entityId + b.events.length))
    hw.encodable hw.ids_distinct hw.ids_fresh hplace
  have hrecord : recordOptionalIdempotency
      { db with
        events := db.events ++ b.stored db r
        entityVersions := (b.written db r).entityVersions
        attestationNonceUses := (b.written db r).attestationNonceUses } b.idempotency (batchIds r b.events) r.recordedAt =
      .ok (b.written db r) := by
    rw [batchIds_eq b db r]
    cases hv : b.idempotency with
    | none =>
      have hrec := Batch.written_records_none hv db r
      simp only [recordOptionalIdempotency, Except.ok.injEq]
      rw [← hrec]
      rfl
    | some v =>
      have hrec := Batch.written_records_some hv db r
      refine ensure_bind_eq_ok.mpr ⟨hw.key_unused v hv, ?_⟩
      rw [pure_eq_ok, ← hrec]
      rfl
  have hby : (b.written db r).eventsByIds (batchIds r b.events) = .ok (b.stored db r) := by
    rw [batchIds_eq b db r]
    exact eventsByIds_append rfl hw.ids_distinct hw.ids_fresh (List.suffix_refl _)
  refine bind_eq_ok.mpr ⟨_, hnonce, ensure_bind_eq_ok.mpr ⟨rfl, ?_⟩⟩
  refine bind_eq_ok.mpr ⟨_, hinsert, ?_⟩
  refine bind_eq_ok.mpr ⟨_, hrecord, ?_⟩
  exact bind_eq_ok.mpr ⟨_, hby, rfl⟩

theorem eventsByIds_of_mem {db : Database} (hc : Coherent db) {e : StoredEvent} (he : e ∈ db.events) :
    db.eventsByIds [e.eventId] = .ok [e] := by
  have hfind : db.eventById e.eventId = .ok e := by
    unfold eventById
    cases hf : db.events.find? (fun x => decide (x.eventId = e.eventId)) with
    | none => exact absurd (List.find?_eq_none.mp hf e he) (by simp)
    | some e' =>
      have hid : e'.eventId = e.eventId := by simpa using List.find?_some hf
      rw [List.inj_on_of_nodup_map hc.ids (List.mem_of_find?_eq_some hf) he hid]
  simp only [eventsByIds, hfind, ok_bind]
  rfl

/-- A fresh key of an identical revision binding is linked to its registration event. -/
structure Links (db : Database) (binding : ContractRevisionBinding) (v : Idempotency) (e : StoredEvent) : Prop where
  unused : db.idempotencyRecords v.primaryKey = none
  mem : e ∈ db.events
  registration : db.RegistrationOf binding [e]

variable {db : Database} {binding : ContractRevisionBinding} {event : NewEvent} {v : Idempotency} {nonce : AttestationNonce}
  {r : Readings} {e : StoredEvent}

private theorem lookup_unused (hk : db.idempotencyRecords v.primaryKey = none) :
    db.existingIdempotency (some v) = .ok none := by
  simp only [existingIdempotency, lookupIdempotency, hk]

theorem registration_of_link (hc : Coherent db) (hargs : (AppendCall.registration binding event v nonce).ArgumentsValid)
    (h : db.Links binding v e) :
    (AppendCall.registration binding event v nonce).transaction db r = .ok ([e], db.linked v e.eventId r.recordedAt) := by
  obtain ⟨e', he', -, -, -, -, hrow⟩ := id h.registration
  simp only [List.cons.injEq, and_true] at he'
  subst he'
  have hle := hc.bindings_revision _ (List.mem_of_find?_eq_some hrow)
  have hexisting : db.contractRevisionProjectionRow binding.contractId binding.revision = .ok (some ⟨binding, e.eventId⟩) :=
    ensure_bind_eq_ok.mpr ⟨hle, by rw [hrow]; rfl⟩
  have hmatch := assertRegistrationEventsMatch_of hc h.registration
  have hrecord : db.recordIdempotency v [e.eventId] r.recordedAt = .ok (db.linked v e.eventId r.recordedAt) :=
    ensure_bind_eq_ok.mpr ⟨h.unused, rfl⟩
  have hselect : ((some ⟨binding, e.eventId⟩ : Option RevisionBindingRow) <|> db.projectionRowForBundle binding.bundleId) =
      some ⟨binding, e.eventId⟩ := rfl
  simp only [AppendCall.transaction, appendContractRevisionRegistration, hargs.2, lookup_unused h.unused, hexisting, ok_bind,
    hselect, if_true, eventsByIds_of_mem hc h.mem, hmatch, hrecord]
  exact ensure_bind_eq_ok.mpr ⟨hargs.1, rfl⟩

theorem registration_of_writes (hc : Coherent db) (hargs : (AppendCall.registration binding event v nonce).ArgumentsValid)
    (h : (AppendCall.registration binding event v nonce).Writes db r) :
    (AppendCall.registration binding event v nonce).transaction db r =
      .ok ((AppendCall.registration binding event v nonce).batch.stored db r,
        (AppendCall.registration binding event v nonce).written db r) := by
  obtain ⟨hw, ⟨-, hle, hfree⟩, hs⟩ := h
  have hexisting : db.contractRevisionProjectionRow binding.contractId binding.revision = .ok none := by
    refine ensure_bind_eq_ok.mpr ⟨hle, ?_⟩
    rw [pure_eq_ok, List.find?_eq_none]
    exact fun row hrow => by simpa using (hfree row hrow).1
  have hbundle : db.projectionRowForBundle binding.bundleId = none := by
    unfold projectionRowForBundle
    rw [List.find?_eq_none]
    exact fun row hrow => by simpa using (hfree row hrow).2.1
  have hselect : ((none : Option RevisionBindingRow) <|> db.projectionRowForBundle binding.bundleId) = none := hbundle
  have hzero : db.currentSequence "task" binding.bundleId = 0 := by
    have : (0 : Int) = db.currentSequence "task" binding.bundleId := hs
    omega
  have hnew : db.appendNew "task" binding.bundleId 0 [event] (some v) (some nonce) r =
      .ok ((AppendCall.registration binding event v nonce).batch.stored db r,
        (AppendCall.registration binding event v nonce).batch.written db r) := by
    have h := appendNew_of_writable hc hw
    simp only [AppendCall.batch, hzero, Nat.cast_zero] at h
    exact h
  simp only [AppendCall.transaction, appendContractRevisionRegistration, hargs.2,
    lookup_unused (hw.key_unused v rfl), hexisting, ok_bind, hselect, hnew]
  have hinsert : asRevisionConflict (((AppendCall.registration binding event v nonce).batch.written db
      r).insertContractRevisionBinding binding (r.uuid 0).text) =
      .ok ((AppendCall.registration binding event v nonce).written db r) := by
    have h : ((AppendCall.registration binding event v nonce).batch.written db r).insertContractRevisionBinding binding
        (r.uuid 0).text = .ok ((AppendCall.registration binding event v nonce).written db r) :=
      ensure_bind_eq_ok.mpr ⟨hle, ensure_bind_eq_ok.mpr ⟨hfree, rfl⟩⟩
    rw [h]
    rfl
  exact ensure_bind_eq_ok.mpr ⟨hargs.1, bind_eq_ok.mpr ⟨_, hinsert, rfl⟩⟩

end Database

/-! The command alone -/

section
variable {svc : Service} {α : Type} {inputs rest : Nat → ServiceInput} {w w' : World}

theorem execute_database {p : Call α} (h : p.Issues ReadsOnly) (inputs : Nat → ServiceInput) (w : World) :
    (p.execute svc.exec inputs w).2.2.database = w.database := by
  induction p generalizing inputs w with
  | done r => rfl
  | call op k ih => exact (ih _ (h.2 _) _ _).trans (h.1.database svc _ w)

/-! What the checks before the transaction have found -/

/-- The fidelity evidence of a handoff is accepted: there is none, where that is allowed, or
its artifact is intact and passes its review. `n` operations are issued. -/
inductive Service.FidelityAccepted (svc : Service) (w : World) (bundle : Handoff) (inputs : Nat → ServiceInput) :
    Option CanonicalTypeAssurance → Nat → Prop
  | absent (none_given : bundle.fidelityEvidence = none) (allowed : svc.allowTestOnlyUnreviewedBundles = true) :
      FidelityAccepted svc w bundle inputs none 0
  | reviewed {r : FidelityEvidenceArtifactRef} {fields : JsonObject} {assurance : CanonicalTypeAssurance}
      (given : bundle.fidelityEvidence = some r) (verified : svc.verifyBlob w (inputs 0).intact ⟨r.digest, r.size⟩ = .ok ())
      (read : svc.readBlob w (inputs 1).intact r.digest.value = .ok (.json fields))
      (schema : fidelityFields (.json fields) = .ok fields)
      (review : svc.reviewFidelityArtifact bundle fields = .ok assurance) :
      FidelityAccepted svc w bundle inputs (some assurance) 2

/-- Every check of `register_bundle` before its transaction passes. -/
structure Service.Reaches (svc : Service) (w : World) (inputs : Nat → ServiceInput) (bundle : FormalizationTaskBundle)
    (key : String) (v : Idempotency) (attestation : Attestation) (assurance : Option CanonicalTypeAssurance) (n : Nat) :
    Prop where
  prepared : Service.requirePreparation bundle.toHandoff = .ok ()
  keyed : svc.idempotency "register_bundle" key (svc.registerRequest bundle) = .ok v
  unused : w.database.idempotencyRecords v.primaryKey = none
  signed : bundle.builderAttestation = some attestation
  accepted : svc.verifies (inputs 1).readings.now attestation .builderFreeze
    (builderAttestationPayload svc.hashing bundle.toHandoff) = true
  reviewed : svc.FidelityAccepted w bundle.toHandoff (fun m => inputs (m + 2)) assurance n
  stored : svc.verifyBlob (svc.storeBlob w (.bundle bundle)) (inputs (n + 2)).intact (svc.reference (.bundle bundle)) = .ok ()

/-- One operation, alone. -/
theorem perform_ok {op : ServiceOp} {a : op.Res} :
    (Prog.perform (I := serviceInterface) op : Call op.Res).execute svc.exec inputs w = (.ok a, rest, w') ↔
      (svc.exec op (inputs 0) w).1 = .ok a ∧ (fun n => inputs (n + 1)) = rest ∧ (svc.exec op (inputs 0) w).2 = w' :=
  Prog.execute_perform_eq_ok (I := serviceInterface)

theorem raising_ok {x : Raises α} {a : α} :
    (raising x).execute svc.exec inputs w = (.ok a, rest, w') ↔ x = .ok a ∧ inputs = rest ∧ w = w' :=
  Prog.execute_ofExcept_eq_ok

theorem verifyAttestation_ok {a : Attestation} {purpose : AttestationPurpose} {payload : AttestationPayload} {u : Unit} :
    (verifyAttestation a purpose payload).execute svc.exec inputs w = (.ok u, rest, w') ↔
      svc.verifies (inputs 0).readings.now a purpose payload = true ∧ (fun n => inputs (n + 1)) = rest ∧ w = w' := by
  unfold verifyAttestation
  rw [perform_ok]
  simp only [Service.exec, ensure_eq_ok]

theorem verifyArtifact_ok {r : ArtifactRef} {u : Unit} :
    (verifyArtifact r).execute svc.exec inputs w = (.ok u, rest, w') ↔
      svc.verifyBlob w (inputs 0).intact r = .ok () ∧ (fun n => inputs (n + 1)) = rest ∧ w = w' := perform_ok

theorem getArtifact_ok {digest : String} {content : Artifact} :
    (getArtifact digest).execute svc.exec inputs w = (.ok content, rest, w') ↔
      svc.readBlob w (inputs 0).intact digest = .ok content ∧ (fun n => inputs (n + 1)) = rest ∧ w = w' := perform_ok

theorem putModel_ok {content : Artifact} {r : ArtifactRef} :
    (putModel content).execute svc.exec inputs w = (.ok r, rest, w') ↔
      svc.verifyBlob (svc.storeBlob w content) (inputs 0).intact (svc.reference content) = .ok () ∧
        svc.reference content = r ∧ (fun n => inputs (n + 1)) = rest ∧ svc.storeBlob w content = w' := by
  unfold putModel
  rw [perform_ok]
  simp only [Service.exec, bind_eq_ok, pure_eq_ok]
  constructor
  · rintro ⟨⟨_, hv, rfl⟩, rfl, rfl⟩
    exact ⟨hv, rfl, rfl, rfl⟩
  · rintro ⟨hv, rfl, rfl, rfl⟩
    exact ⟨⟨_, hv, rfl⟩, rfl, rfl⟩

theorem lookup_ok {v : Idempotency} {found : Option (List StoredEvent)} :
    (issue (.lookupIdempotency v)).execute svc.exec inputs w = (.ok found, rest, w') ↔
      w.database.lookupIdempotency v = .ok found ∧ (fun n => inputs (n + 1)) = rest ∧ w = w' := perform_ok

theorem verifyBuilderAttestation_ok {bundle : FormalizationTaskBundle} {attestation : Attestation} :
    (svc.verifyBuilderAttestation bundle).execute svc.exec inputs w = (.ok attestation, rest, w') ↔
      bundle.builderAttestation = some attestation ∧ svc.verifies (inputs 0).readings.now attestation .builderFreeze
        (builderAttestationPayload svc.hashing bundle.toHandoff) = true ∧ (fun n => inputs (n + 1)) = rest ∧ w = w' := by
  unfold Service.verifyBuilderAttestation
  cases ha : bundle.builderAttestation with
  | none => simp [Prog.execute]
  | some a =>
    simp only [Prog.execute_bind_eq_ok, Prog.execute_guarded_eq_ok (rejectAttestation_throws _), verifyAttestation_ok,
      Prog.execute_pure_eq_ok, Option.some.injEq]
    constructor
    · rintro ⟨_, _, _, ⟨hv, rfl, rfl⟩, rfl, rfl, rfl⟩
      exact ⟨rfl, hv, rfl, rfl⟩
    · rintro ⟨rfl, hv, rfl, rfl⟩
      exact ⟨(), _, _, ⟨hv, rfl, rfl⟩, rfl, rfl, rfl⟩

theorem fidelityFields_ok {content : Artifact} {fields : JsonObject} (h : Service.fidelityFields content = .ok fields) :
    content = .json fields := by
  cases content with
  | json fields' =>
    have hf := (pure_eq_ok _ _).mp (ensure_bind_eq_ok.mp h).2
    rw [hf]
  | _ => cases h

/-- The review of the fidelity evidence returns when it is accepted. -/
theorem verifyBuilderFidelityArtifact_ok {bundle : Handoff} {p : Option ArtifactRef × Option CanonicalTypeAssurance} :
    (svc.verifyBuilderFidelityArtifact bundle).execute svc.exec inputs w = (.ok p, rest, w') ↔
      ∃ n, svc.FidelityAccepted w bundle inputs p.2 n ∧ bundle.fidelityEvidence.map (fun r => ⟨r.digest, r.size⟩) = p.1 ∧
        (fun m => inputs (m + n)) = rest ∧ w = w' := by
  obtain ⟨reference, assurance⟩ := p
  unfold Service.verifyBuilderFidelityArtifact
  cases hf : bundle.fidelityEvidence with
  | none =>
    simp only [Prog.execute_bind_eq_ok, raising_ok, Prog.execute_pure_eq_ok, ensure_eq_ok]
    constructor
    · rintro ⟨_, _, _, ⟨hallow, rfl, rfl⟩, hp, rfl, rfl⟩
      cases hp
      exact ⟨0, .absent hf hallow, rfl, rfl, rfl⟩
    · rintro ⟨n, h, hp, rfl, rfl⟩
      cases hp
      cases h with
      | absent _ hallow => exact ⟨(), _, _, ⟨hallow, rfl, rfl⟩, rfl, rfl, rfl⟩
      | reviewed given => rw [hf] at given; cases given
  | some r =>
    simp only [Service.readCanonicalJsonArtifact, Prog.execute_bind_eq_ok, raising_ok, Prog.execute_pure_eq_ok,
      Prog.execute_guarded_eq_ok (rejectArtifact_throws _), verifyArtifact_ok, getArtifact_ok]
    constructor
    · rintro ⟨_, _, _, ⟨hverified, rfl, rfl⟩, content, _, _, ⟨stored, _, _, ⟨hread, rfl, rfl⟩, hjson, rfl, rfl⟩, fields, _, _,
        ⟨hfields, rfl, rfl⟩, a, _, _, ⟨hreview, rfl, rfl⟩, hp, rfl, rfl⟩
      cases hp
      cases fidelityFields_ok hfields
      have hstored : stored = .json fields := by
        cases stored <;> simp [Service.canonicalJson] at hjson ⊢
        exact hjson
      subst hstored
      exact ⟨2, .reviewed hf hverified hread hfields hreview, rfl, rfl, rfl⟩
    · rintro ⟨n, h, hp, rfl, rfl⟩
      cases hp
      cases h with
      | absent given => rw [hf] at given; cases given
      | @reviewed r' fields a given hverified hread hschema hreview =>
        rw [hf, Option.some.injEq] at given
        subst given
        exact ⟨(), _, _, ⟨hverified, rfl, rfl⟩, .json fields, _, _, ⟨.json fields, _, _, ⟨hread, rfl, rfl⟩, rfl, rfl, rfl⟩,
          fields, _, _, ⟨hschema, rfl, rfl⟩, a, _, _, ⟨hreview, rfl, rfl⟩, rfl, rfl, rfl⟩

/-! The transaction and what follows it -/

theorem attestationSummary_encodable (isoformat : Datetime → String) (attestation : Attestation) :
    Json.encodableFields (attestationSummary isoformat attestation) = true := by
  simp [attestationSummary, Json.encodableFields, Json.encodable]

theorem registration_payload_encodes (bundle : FormalizationTaskBundle) (assurance : Option CanonicalTypeAssurance)
    (attestation : Attestation) :
    jsonObject (registrationPayload (svc.binding bundle assurance) (attestationSummary svc.isoformat attestation)) =
      .ok (registrationPayload (svc.binding bundle assurance) (attestationSummary svc.isoformat attestation)) :=
  ensure_bind_eq_ok.mpr ⟨registrationPayload_encodable (bindingFromBundle_presentable svc.hashing bundle.toHandoff assurance
    (svc.reference (.bundle bundle))) (attestationSummary_encodable _ _), rfl⟩

theorem registrationCall_argumentsValid (bundle : FormalizationTaskBundle) (assurance : Option CanonicalTypeAssurance)
    (attestation : Attestation) (v : Idempotency) : (svc.registrationCall bundle assurance attestation v).ArgumentsValid := by
  refine ⟨rfl, ensure_bind_eq_ok.mpr ⟨⟨by decide, bundle.bundleId.not_blank⟩, ?_⟩⟩
  refine ensure_bind_eq_ok.mpr ⟨le_rfl, ensure_bind_eq_ok.mpr ⟨by simp, ensure_eq_ok.mpr ?_⟩⟩
  intro e he
  rw [List.mem_singleton.mp he]
  show ¬ Blank "task.registered"
  decide

/-- `register_bundle` from its transaction on. -/
def Service.commitRegistration (svc : Service) (bundle : FormalizationTaskBundle) (assurance : Option CanonicalTypeAssurance)
    (attestation : Attestation) (v : Idempotency) : Call TaskBinding := do
  let events ← tryCatch (issue (.write (svc.registrationCall bundle assurance attestation v))) Service.registrationError
  raising (Service.storedBinding (svc.binding bundle assurance) events)

variable {bundle : FormalizationTaskBundle} {key : String} {v : Idempotency} {attestation : Attestation}
  {assurance : Option CanonicalTypeAssurance}

theorem commitRegistration_of_ok {events : List StoredEvent} {db : Database}
    (h : (svc.registrationCall bundle assurance attestation v).transaction w.database (inputs 0).readings = .ok (events, db)) :
    (svc.commitRegistration bundle assurance attestation v).execute svc.exec inputs w =
      (Service.storedBinding (svc.binding bundle assurance) events, fun n => inputs (n + 1), { w with database := db }) := by
  have hwrite : (issue (.write (svc.registrationCall bundle assurance attestation v))).execute svc.exec inputs w =
      (.ok events, fun n => inputs (n + 1), { w with database := db }) := by
    rw [show (issue (.write (svc.registrationCall bundle assurance attestation v))).execute svc.exec inputs w =
      ((commit ((svc.registrationCall bundle assurance attestation v).transaction w.database (inputs 0).readings)
        w.database).1, fun n => inputs (n + 1), { w with database :=
      (commit ((svc.registrationCall bundle assurance attestation v).transaction w.database (inputs 0).readings)
        w.database).2 }) from rfl, h]
    rfl
  exact Prog.execute_bind_ok (Prog.execute_handle_ok hwrite)

theorem commitRegistration_of_error {e : ControlPlaneError}
    (h : (svc.registrationCall bundle assurance attestation v).transaction w.database (inputs 0).readings = .error e) :
    ((svc.commitRegistration bundle assurance attestation v).execute svc.exec inputs w).2.2.database = w.database := by
  have hwrite : (issue (.write (svc.registrationCall bundle assurance attestation v))).execute svc.exec inputs w =
      (.error e, fun n => inputs (n + 1), w) := by
    rw [show (issue (.write (svc.registrationCall bundle assurance attestation v))).execute svc.exec inputs w =
      ((commit ((svc.registrationCall bundle assurance attestation v).transaction w.database (inputs 0).readings)
        w.database).1, fun n => inputs (n + 1), { w with database :=
      (commit ((svc.registrationCall bundle assurance attestation v).transaction w.database (inputs 0).readings)
        w.database).2 }) from rfl, h]
    rfl
  obtain ⟨e', he⟩ := registrationError_throws (α := List StoredEvent) e
  have hhandled := Prog.execute_handle_error (f := Service.registrationError) hwrite
  rw [he] at hhandled
  rw [show (svc.commitRegistration bundle assurance attestation v).execute svc.exec inputs w = _ from
    Prog.execute_bind_error hhandled]

/-- A program whose first part leaves the database either leaves it or goes on. -/
theorem execute_bind_quiet {β : Type} {p : Call α} {f : α → Call β} {P : Raises β × (Nat → ServiceInput) × World → Prop}
    (hp : p.Issues ReadsOnly) (hquiet : ∀ out, out.2.2.database = w.database → P out)
    (hf : ∀ a rest w', p.execute svc.exec inputs w = (.ok a, rest, w') → P ((f a).execute svc.exec rest w')) :
    P ((p >>= f).execute svc.exec inputs w) := by
  rcases hx : p.execute svc.exec inputs w with ⟨r, rest, w'⟩
  have hdb : (p.execute svc.exec inputs w).2.2.database = w.database := execute_database hp inputs w
  cases r with
  | ok a =>
    rw [Prog.execute_bind_ok hx]
    exact hf a rest w' hx
  | error e =>
    rw [Prog.execute_bind_error hx]
    rw [hx] at hdb
    exact hquiet _ hdb

theorem replayedEvent_ok {found : Option StoredEvent} :
    (replayedEvent v).execute svc.exec inputs w = (.ok found, rest, w') ↔
      (∃ events, w.database.lookupIdempotency v = .ok events ∧ singleEvent events = .ok found) ∧
        (fun n => inputs (n + 1)) = rest ∧ w = w' := by
  unfold replayedEvent
  rw [Prog.execute_bind_eq_ok]
  constructor
  · rintro ⟨events, _, _, hlookup, hraising⟩
    obtain ⟨hl, rfl, rfl⟩ := lookup_ok.mp hlookup
    obtain ⟨hs, rfl, rfl⟩ := raising_ok.mp hraising
    exact ⟨⟨events, hl, hs⟩, rfl, rfl⟩
  · rintro ⟨⟨events, hl, hs⟩, rfl, rfl⟩
    exact ⟨events, _, _, lookup_ok.mpr ⟨hl, rfl, rfl⟩, raising_ok.mpr ⟨hs, rfl, rfl⟩⟩

/-- Nothing is recorded under the key when its lookup finds nothing. -/
theorem unused_of_lookup {db : Database} {events : Option (List StoredEvent)} (h : db.lookupIdempotency v = .ok events)
    (hs : singleEvent events = .ok none) : db.idempotencyRecords v.primaryKey = none := by
  cases hk : db.idempotencyRecords v.primaryKey with
  | none => rfl
  | some row =>
    simp only [Database.lookupIdempotency, hk] at h
    obtain ⟨found, -, h⟩ := bind_eq_ok.mp h
    cases h
    cases found with
    | nil => cases hs
    | cons e tail => cases tail <;> cases hs

/-- Alone, `register_bundle` leaves the database as it is unless it reaches its transaction. -/
theorem registerBundle_alone (svc : Service) (inputs : Nat → ServiceInput) (w : World) (bundle : FormalizationTaskBundle)
    (key : String) :
    ((svc.registerBundle bundle key).execute svc.exec inputs w).2.2.database = w.database ∨
      ∃ v attestation assurance n, svc.Reaches w inputs bundle key v attestation assurance n ∧
        (svc.registerBundle bundle key).execute svc.exec inputs w =
          (svc.commitRegistration bundle assurance attestation v).execute svc.exec (fun m => inputs (m + (n + 3)))
            (svc.storeBlob w (.bundle bundle)) := by
  let P (out : Raises TaskBinding × (Nat → ServiceInput) × World) : Prop := out.2.2.database = w.database ∨
    ∃ v attestation assurance n, svc.Reaches w inputs bundle key v attestation assurance n ∧
      out = (svc.commitRegistration bundle assurance attestation v).execute svc.exec (fun m => inputs (m + (n + 3)))
        (svc.storeBlob w (.bundle bundle))
  show P _
  have quiet (out : Raises TaskBinding × (Nat → ServiceInput) × World) (h : out.2.2.database = w.database) : P out := .inl h
  refine execute_bind_quiet (.ofExcept _) quiet fun _ _ _ h => ?_
  obtain ⟨hprepared, rfl, rfl⟩ := raising_ok.mp h
  refine execute_bind_quiet (.ofExcept _) quiet fun v _ _ h => ?_
  obtain ⟨hkeyed, rfl, rfl⟩ := raising_ok.mp h
  refine execute_bind_quiet (replayedEvent_reads v) quiet fun found _ _ h => ?_
  obtain ⟨⟨events, hlookup, hsingle⟩, rfl, rfl⟩ := replayedEvent_ok.mp h
  cases found with
  | some replayed => exact quiet _ rfl
  | none =>
    have hunused := unused_of_lookup hlookup hsingle
    refine execute_bind_quiet (verifyBuilderAttestation_reads bundle) quiet fun attestation _ _ h => ?_
    obtain ⟨hsigned, haccepted, rfl, rfl⟩ := verifyBuilderAttestation_ok.mp h
    refine execute_bind_quiet (verifyBuilderFidelityArtifact_reads _) quiet fun evidence _ _ h => ?_
    obtain ⟨n, hreviewed, -, rfl, rfl⟩ := verifyBuilderFidelityArtifact_ok.mp h
    refine execute_bind_quiet (putModel_reads _) quiet fun artifact _ _ h => ?_
    obtain ⟨hstored, rfl, rfl, rfl⟩ := putModel_ok.mp h
    have hreaches : svc.Reaches w inputs bundle key v attestation evidence.2 n := {
      prepared := hprepared
      keyed := hkeyed
      unused := hunused
      signed := hsigned
      accepted := haccepted
      reviewed := hreviewed
      stored := by simpa using hstored }
    have hpayload : jsonObject (registrationPayload (svc.binding bundle evidence.2)
        (attestationSummary svc.isoformat attestation)) = .ok _ := registration_payload_encodes bundle evidence.2 attestation
    have hshift : (fun m => inputs (m + 1 + n + 1 + 1)) = fun m => inputs (m + (n + 3)) :=
      funext fun m => congrArg inputs (by omega)
    refine .inr ⟨v, attestation, evidence.2, n, hreaches, ?_⟩
    rw [← hshift]
    exact Prog.execute_bind_ok (raising_ok.mpr ⟨hpayload, rfl, rfl⟩)

/-- What passes its checks reaches its transaction. -/
theorem Service.Reaches.execute {n : Nat} (h : svc.Reaches w inputs bundle key v attestation assurance n) :
    (svc.registerBundle bundle key).execute svc.exec inputs w =
      (svc.commitRegistration bundle assurance attestation v).execute svc.exec (fun m => inputs (m + (n + 3)))
        (svc.storeBlob w (.bundle bundle)) := by
  have hlookup : (replayedEvent v).execute svc.exec inputs w = (.ok none, fun n => inputs (n + 1), w) := by
    refine replayedEvent_ok.mpr ⟨⟨none, ?_, rfl⟩, rfl, rfl⟩
    simp only [Database.lookupIdempotency, h.unused]
  have hattestation : (svc.verifyBuilderAttestation bundle).execute svc.exec (fun m => inputs (m + 1)) w =
      (.ok attestation, fun m => inputs (m + 2), w) := verifyBuilderAttestation_ok.mpr ⟨h.signed, h.accepted, rfl, rfl⟩
  have hfidelity : (svc.verifyBuilderFidelityArtifact bundle.toHandoff).execute svc.exec (fun m => inputs (m + 2)) w =
      (.ok (bundle.fidelityEvidence.map fun r => ⟨r.digest, r.size⟩, assurance), fun m => inputs (m + n + 2), w) :=
    verifyBuilderFidelityArtifact_ok.mpr ⟨n, h.reviewed, rfl, rfl, rfl⟩
  have hput : (putModel (.bundle bundle)).execute svc.exec (fun m => inputs (m + n + 2)) w =
      (.ok (svc.reference (.bundle bundle)), fun m => inputs (m + 1 + n + 2), svc.storeBlob w (.bundle bundle)) :=
    putModel_ok.mpr ⟨by simpa using h.stored, rfl, rfl, rfl⟩
  have hpayload : jsonObject (registrationPayload (svc.binding bundle assurance)
      (attestationSummary svc.isoformat attestation)) = .ok _ := registration_payload_encodes bundle assurance attestation
  have hshift : (fun m => inputs (m + 1 + n + 2)) = fun m => inputs (m + (n + 3)) :=
    funext fun m => congrArg inputs (by omega)
  refine (Prog.execute_bind_ok (raising_ok.mpr ⟨h.prepared, rfl, rfl⟩)).trans ?_
  refine (Prog.execute_bind_ok (raising_ok.mpr ⟨h.keyed, rfl, rfl⟩)).trans ?_
  refine (Prog.execute_bind_ok hlookup).trans ?_
  refine (Prog.execute_bind_ok hattestation).trans ?_
  refine (Prog.execute_bind_ok hfidelity).trans ?_
  refine (Prog.execute_bind_ok hput).trans ?_
  refine (Prog.execute_bind_ok (raising_ok.mpr ⟨hpayload, rfl, rfl⟩)).trans ?_
  exact congrArg (fun rest => (svc.commitRegistration bundle assurance attestation v).execute svc.exec rest _) hshift

end
end Autolean.ControlPlane
