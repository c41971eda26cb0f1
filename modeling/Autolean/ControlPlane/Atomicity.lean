import Autolean.ControlPlane.Registration

/-! `register_bundle` commits its event before it reads it back. It raises without having
committed anything except where the event it has committed cannot be read back. -/
namespace Autolean.ControlPlane
open Contracts Machine Raising

/-- The event reads back as the binding of the bundle, up to the stored bundle artifact. -/
def Service.ReadsBack (svc : Service) (bundle : FormalizationTaskBundle) (assurance : Option CanonicalTypeAssurance)
    (e : StoredEvent) : Prop :=
  ∃ stored, bindingFromPayload e.payload = .ok stored ∧ SameLogicalBinding stored (svc.binding bundle assurance)

/-- The command passes its checks, and its transaction either writes a registration with an empty
text in its axiom allowlist or links the key to an earlier registration that does not read back. -/
def Service.CommitsUnreadable (svc : Service) (w : World) (inputs : Nat → ServiceInput) (bundle : FormalizationTaskBundle)
    (key : String) : Prop :=
  ∃ v attestation assurance n, svc.Reaches w inputs bundle key v attestation assurance n ∧
    ((svc.registrationCall bundle assurance attestation v).Writes w.database (inputs (n + 3)).readings ∧
        "" ∈ bundle.contract.formal.axiomsAllowlist ∨
      ∃ e, w.database.Links (svc.revisionBinding bundle.toHandoff) v e ∧ ¬ svc.ReadsBack bundle assurance e)

/-- A registration event the command has committed is decoded to the binding it encodes, and the
bundle can be claimed: `get_binding` returns it. -/
structure Service.Claimable (svc : Service) (world : World) (e : StoredEvent) : Prop where
  decodes : ∃ binding attestation stored, e.payload = registrationPayload binding attestation ∧
    bindingFromPayload e.payload = .ok stored ∧ SameLogicalBinding stored binding ∧
      ∀ more, ((getBinding e.entityId).execute svc.exec more world).1 = .ok stored

/-- `register_bundle` commits nothing when it raises, and every event it commits reads back. -/
structure Service.RegistersAtomically (svc : Service) (w : World) (inputs : Nat → ServiceInput)
    (bundle : FormalizationTaskBundle) (key : String) : Prop where
  raises : ∀ e, ((svc.registerBundle bundle key).execute svc.exec inputs w).1 = .error e →
    ((svc.registerBundle bundle key).execute svc.exec inputs w).2.2.database = w.database
  invertible : ∀ e ∈ ((svc.registerBundle bundle key).execute svc.exec inputs w).2.2.database.events,
    e ∉ w.database.events → svc.Claimable ((svc.registerBundle bundle key).execute svc.exec inputs w).2.2 e

variable {svc : Service} {w : World} {inputs : Nat → ServiceInput} {bundle : FormalizationTaskBundle} {key : String}
  {v : Idempotency} {attestation : Attestation} {assurance : Option CanonicalTypeAssurance} {n : Nat} {e : StoredEvent}

theorem storedBinding_ok {binding b : TaskBinding} :
    Service.storedBinding binding [e] = .ok b ↔ bindingFromPayload e.payload = .ok b ∧ SameLogicalBinding b binding := by
  unfold Service.storedBinding
  rw [firstEvent, ok_bind, bind_eq_ok]
  constructor
  · rintro ⟨stored, hd, h⟩
    obtain ⟨hs, h⟩ := ensure_bind_eq_ok.mp h
    cases h
    exact ⟨hd, hs⟩
  · rintro ⟨hd, hs⟩
    exact ⟨b, hd, ensure_bind_eq_ok.mpr ⟨hs, rfl⟩⟩

/-- The read-back succeeds on what reads back. -/
theorem storedBinding_returns : (∃ b, Service.storedBinding (svc.binding bundle assurance) [e] = .ok b) ↔
    svc.ReadsBack bundle assurance e :=
  exists_congr fun _ => storedBinding_ok

/-- A registration reads back unless its allowlist holds the empty text. -/
theorem readsBack_iff {summary : JsonObject} (hp : e.payload = registrationPayload (svc.binding bundle assurance) summary) :
    svc.ReadsBack bundle assurance e ↔ "" ∉ bundle.contract.formal.axiomsAllowlist := by
  unfold Service.ReadsBack
  rw [hp, svc.binding_decodes]
  split
  · rename_i h
    simp [h]
  · rename_i h
    exact ⟨fun _ => h, fun _ => ⟨_, rfl, rfl⟩⟩

/-- The first event of a stream is all that is read from it. -/
theorem readStream_of_empty {db db' : Database} (hc : Coherent db) (hzero : db.currentSequence e.entityType e.entityId = 0)
    (hev : db'.events = db.events ++ [e]) : db'.readStream e.entityType e.entityId = [e] := by
  have hempty : db.stream e.entityType e.entityId = [] := by
    have h := hc.streams e.entityType e.entityId
    rw [hzero] at h
    exact List.map_eq_nil_iff.mp h
  have hfilter : (db.events.filter fun x => decide (x.entityType = e.entityType ∧ x.entityId = e.entityId)) = [] := hempty
  unfold Database.readStream
  rw [hev, List.filter_append, hfilter]
  simp

private theorem registrationCall_events (svc : Service) (bundle : FormalizationTaskBundle)
    (assurance : Option CanonicalTypeAssurance) (attestation : Attestation) (v : Idempotency) :
    (svc.registrationCall bundle assurance attestation v).batch.events = [⟨"task.registered", registrationPayload
      (svc.binding bundle assurance) (attestationSummary svc.isoformat attestation), []⟩] := rfl

theorem commitRegistration_commits (hr : svc.Reaches w inputs bundle key v attestation assurance n)
    {events : List StoredEvent} {db : Database}
    (ht : (svc.registrationCall bundle assurance attestation v).transaction w.database (inputs (n + 3)).readings =
      .ok (events, db)) :
    (svc.registerBundle bundle key).execute svc.exec inputs w =
      (Service.storedBinding (svc.binding bundle assurance) events, fun m => inputs (m + 1 + (n + 3)),
        { svc.storeBlob w (.bundle bundle) with database := db }) := by
  rw [hr.execute]
  refine commitRegistration_of_ok ?_
  rw [storeBlob_database, Nat.zero_add]
  exact ht

/-- An event the registration of the bundle has just written can be claimed when it reads back. -/
theorem claimable_of_written (hc : Coherent w.database) {r : Readings} {world : World}
    (hw : (svc.registrationCall bundle assurance attestation v).Writes w.database r)
    (hworld : world.database = (svc.registrationCall bundle assurance attestation v).written w.database r)
    (hb : "" ∉ bundle.contract.formal.axiomsAllowlist) (he : e ∈ world.database.events) (hnew : e ∉ w.database.events) :
    svc.Claimable world e := by
  obtain ⟨e', -, hevents, hrec⟩ := written_records (registrationCall_events svc bundle assurance attestation v) r hw.2.2
  rw [← hworld] at hevents
  obtain hold | hlast := List.mem_append.mp (hevents ▸ he)
  · exact absurd hold hnew
  rw [List.mem_singleton] at hlast
  subst hlast
  obtain ⟨htype, hpayload⟩ := hrec.event rfl
  have hdecodes : bindingFromPayload e.payload = .ok (svc.binding bundle assurance) := by
    rw [hpayload, svc.binding_decodes, if_neg hb]
  have hzero : w.database.currentSequence e.entityType e.entityId = 0 := by
    have h : (0 : Int) = _ := hw.2.2
    rw [← hrec.entityType, ← hrec.entityId] at h
    omega
  have hstream := readStream_of_empty hc hzero hevents
  rw [show e.entityType = "task" from hrec.entityType] at hstream
  refine ⟨svc.binding bundle assurance, _, _, hpayload, hdecodes, rfl, fun more => ?_⟩
  have hread : (issue (.readStream "task" e.entityId)).execute svc.exec more world =
      (.ok [e], fun m => more (m + 1), world) := perform_ok.mpr ⟨congrArg Except.ok hstream, rfl, rfl⟩
  unfold getBinding
  rw [Prog.execute_bind_ok hread]
  simp [raising, Prog.ofExcept, Prog.execute, registeredBinding, htype, hdecodes]

/-- The transaction of an unreadable registration changes the database, and the command raises. -/
theorem Service.CommitsUnreadable.raises (h : svc.CommitsUnreadable w inputs bundle key) (hc : Coherent w.database) :
    (∃ e, ((svc.registerBundle bundle key).execute svc.exec inputs w).1 = .error e) ∧
      ((svc.registerBundle bundle key).execute svc.exec inputs w).2.2.database ≠ w.database := by
  obtain ⟨v, attestation, assurance, n, hr, hcommit⟩ := h
  have hargs := @registrationCall_argumentsValid svc bundle assurance attestation v
  have unreadable {e : StoredEvent} (he : ¬ svc.ReadsBack bundle assurance e) :
      ∃ error, Service.storedBinding (svc.binding bundle assurance) [e] = .error error := by
    cases hs : Service.storedBinding (svc.binding bundle assurance) [e] with
    | ok b => exact absurd (storedBinding_returns.mp ⟨b, hs⟩) he
    | error error => exact ⟨error, rfl⟩
  obtain ⟨hw, hb⟩ | ⟨e, hl, he⟩ := hcommit
  · obtain ⟨e, hstored, hevents, hrec⟩ := written_records (registrationCall_events svc bundle assurance attestation v) _ hw.2.2
    have ht := Database.registration_of_writes hc hargs hw
    have hunread : ¬ svc.ReadsBack bundle assurance e := by
      rw [readsBack_iff (hrec.event rfl).2, not_not]
      exact hb
    rw [commitRegistration_commits hr ht, show (AppendCall.registration _ _ _ _).batch.stored w.database _ = [e] from hstored]
    refine ⟨unreadable hunread, fun heq => ?_⟩
    have hlen : (AppendCall.written w.database _ (svc.registrationCall bundle assurance attestation v)).events.length =
      w.database.events.length := congrArg (fun db : Database => db.events.length) heq
    rw [hevents] at hlen
    simp at hlen
  · rw [commitRegistration_commits hr (Database.registration_of_link hc hargs hl)]
    refine ⟨unreadable he, fun heq => ?_⟩
    have hkey := congrArg (fun db : Database => db.idempotencyRecords v.primaryKey) heq
    simp [Database.linked, hl.unused] at hkey

/-- Otherwise what the command commits reads back. -/
theorem registersAtomically_of_readable (h : ¬ svc.CommitsUnreadable w inputs bundle key) (hc : Coherent w.database) :
    svc.RegistersAtomically w inputs bundle key := by
  have unchanged (hdb : ((svc.registerBundle bundle key).execute svc.exec inputs w).2.2.database = w.database) :
      svc.RegistersAtomically w inputs bundle key :=
    ⟨fun _ _ => hdb, fun e he hnew => absurd (hdb ▸ he) hnew⟩
  obtain hdb | ⟨v, attestation, assurance, n, hr, hexec⟩ := registerBundle_alone svc inputs w bundle key
  · exact unchanged hdb
  cases ht : (svc.registrationCall bundle assurance attestation v).transaction w.database (inputs (n + 3)).readings with
  | error e =>
    refine unchanged ?_
    rw [hexec]
    refine (commitRegistration_of_error (e := e) ?_).trans (storeBlob_database svc w _)
    rw [storeBlob_database, Nat.zero_add]
    exact ht
  | ok res =>
    obtain ⟨events, db⟩ := res
    have hout := commitRegistration_commits hr ht
    have returns {e : StoredEvent} (hreads : svc.ReadsBack bundle assurance e) :
        ∃ b, Service.storedBinding (svc.binding bundle assurance) [e] = .ok b := storedBinding_returns.mpr hreads
    cases AppendCall.transaction_outcome ht with
    | replayed hrep =>
      refine unchanged ?_
      rw [hout]
    | @linked _ _ _ _ e hkey hby hreg =>
      have hl : w.database.Links (svc.revisionBinding bundle.toHandoff) v e :=
        ⟨hkey, Database.eventsByIds_mem hby e (List.mem_singleton_self e), hreg⟩
      obtain ⟨b, hb⟩ := returns (not_not.mp fun hne => h ⟨v, attestation, assurance, n, hr, .inr ⟨e, hl, hne⟩⟩)
      constructor
      · intro error herror
        rw [hout, hb] at herror
        cases herror
      · intro e' he' hnew
        rw [hout] at he'
        exact absurd he' hnew
    | written _ hw ha hs =>
      have hwrites : (svc.registrationCall bundle assurance attestation v).Writes w.database (inputs (n + 3)).readings :=
        ⟨hw, ha, hs⟩
      have hb : "" ∉ bundle.contract.formal.axiomsAllowlist := fun hmem =>
        h ⟨v, attestation, assurance, n, hr, .inl ⟨hwrites, hmem⟩⟩
      obtain ⟨e, hstored, -, hrec⟩ := written_records (registrationCall_events svc bundle assurance attestation v) _ hs
      obtain ⟨b, hread⟩ := returns ((readsBack_iff (hrec.event rfl).2).mpr hb)
      rw [hstored] at hout
      constructor
      · intro error herror
        rw [hout, hread] at herror
        cases herror
      · intro e' he' hnew
        rw [hout] at he' ⊢
        exact claimable_of_written hc hwrites rfl hb he' hnew

theorem register_bundle_atomic (svc : Service) (labels : List (StoreOp × Readings)) (blobs : String → Option Artifact)
    (inputs : Nat → ServiceInput) (bundle : FormalizationTaskBundle) (key : String) :
    svc.RegistersAtomically ⟨run storeStep .empty labels, blobs⟩ inputs bundle key ↔
      ¬ svc.CommitsUnreadable ⟨run storeStep .empty labels, blobs⟩ inputs bundle key := by
  have hc : Coherent (run storeStep .empty labels) := (run_coherent empty_coherent labels).1
  constructor
  · intro hatomic hunreadable
    obtain ⟨⟨e, he⟩, hchanged⟩ := hunreadable.raises hc
    exact hchanged (hatomic.raises e he)
  · exact fun h => registersAtomically_of_readable h hc

def sampleInputs (n : Nat) : ServiceInput := ⟨.sample n 'a', true⟩

/-- A handoff whose allowlist holds the empty text is registered and cannot be read back. -/
theorem unreadable_registration_committed :
    ¬ ∀ (svc : Service) (labels : List (StoreOp × Readings)) (blobs : String → Option Artifact) (inputs : Nat → ServiceInput)
      (bundle : FormalizationTaskBundle) (key : String),
      svc.RegistersAtomically ⟨run storeStep .empty labels, blobs⟩ inputs bundle key := by
  intro h
  have hatomic := h sampleService [] (fun _ => none) sampleInputs (sampleBundle [""]) "register"
  have hraises : ((sampleService.registerBundle (sampleBundle [""]) "register").execute sampleService.exec sampleInputs
      ⟨.empty, fun _ => none⟩).1 = .error (corruptPayload "axioms_allowlist") := by decide +kernel
  have hcommits : ((sampleService.registerBundle (sampleBundle [""]) "register").execute sampleService.exec sampleInputs
      ⟨.empty, fun _ => none⟩).2.2.database.events.length = 1 := by decide +kernel
  rw [show ((sampleService.registerBundle (sampleBundle [""]) "register").execute sampleService.exec sampleInputs
    ⟨.empty, fun _ => none⟩).2.2.database = .empty from hatomic.raises _ hraises] at hcommits
  cases hcommits

end Autolean.ControlPlane
