import Autolean.ControlPlane.Lawfulness

/-! What the events of a lawful log say. Each kind of event is read back to the command
it records and to the checks that command passed. -/
namespace Autolean.ControlPlane
open Contracts Machine Raising

variable {θ : Type} {svc : Service} {commands : θ → Command} {w : World} {e e' : StoredEvent}
  {before after : List StoredEvent}

/-- Two events at one place of one stream are the same event. -/
theorem Coherent.eq_of_place {db : Database} (hc : Coherent db) (he : e ∈ db.events) (he' : e' ∈ db.events)
    (ht : e.entityType = e'.entityType) (hid : e.entityId = e'.entityId) (hs : e.entitySequence = e'.entitySequence) :
    e = e' := by
  have hnodup : ((db.stream e.entityType e.entityId).map (·.entitySequence)).Nodup := by
    rw [hc.streams]
    exact List.nodup_range' ..
  refine List.inj_on_of_nodup_map hnodup ?_ ?_ hs
  · exact List.mem_filter.mpr ⟨he, by simp⟩
  · exact List.mem_filter.mpr ⟨he', by simp [ht, hid]⟩

/-- Every event records some command, justified by the events before it. -/
theorem Lawful.origin (h : Lawful svc commands w) (hl : w.database.events = before ++ e :: after) :
    ∃ i call, svc.Commits before w.blobs (commands i) call ∧ Recorded w.database call e :=
  h.history before e after hl

/-- The command whose write an event records writes to the event's kind of stream. -/
theorem Recorded.entityType_eq {db : Database} {log : List StoredEvent} {blobs : String → Option Artifact}
    {command : Command} {call : AppendCall} (hr : Recorded db call e) (hc : svc.Commits log blobs command call) :
    command.entityType = some e.entityType := by
  rw [hc.entityType, hr.entityType]

theorem Recorded.event {db : Database} {call : AppendCall} {new : NewEvent} (h : Recorded db call e)
    (hnew : call.batch.events = [new]) : e.eventType = new.eventType ∧ e.payload = new.payload := by
  have hc := h.content
  rw [hnew] at hc
  simp only [List.cons.injEq, and_true] at hc
  rw [hc]
  exact ⟨rfl, rfl⟩

/-- The kinds of events commands write, by stream and type. -/
def eventKinds : List (String × String) :=
  [("task", "task.registered"), ("task", "task.claimed"), ("proof", "proof.submitted"), ("gap", "gap.reported"),
    ("contract_change_request", "contract_change.requested"), ("verification", "verification.accepted"),
    ("verification", "verification.rejected")]

theorem Lawful.kind (h : Lawful svc commands w) (he : e ∈ w.database.events) :
    (e.entityType, e.eventType) ∈ eventKinds := by
  obtain ⟨_, _, hl⟩ := List.append_of_mem he
  obtain ⟨i, call, hc, hr⟩ := h.origin hl
  have hty := hr.entityType_eq hc
  generalize commands i = command at hc hty
  cases hc with
  | registered | claimed | submitted | gap | change =>
    rw [← Option.some.inj hty, (hr.event rfl).1]
    simp [eventKinds]
  | @verdict _ _ report _ _ binding =>
    rw [← Option.some.inj hty, (hr.event rfl).1]
    simp only [verdictType]
    split <;> simp [eventKinds]

/-! Registrations -/

/-- The event is the one a `register_bundle` command wrote for its bundle. -/
structure RegisteredAs (svc : Service) (commands : θ → Command) (log : List StoredEvent) (bundle : FormalizationTaskBundle)
    (assurance : Option CanonicalTypeAssurance) (e : StoredEvent) : Prop where
  presented : ∃ i key, commands i = .registerBundle bundle key
  mem : e ∈ log
  entityType : e.entityType = "task"
  eventType : e.eventType = "task.registered"
  entityId : e.entityId = bundle.bundleId.value
  payload : ∃ attestation, bundle.builderAttestation = some attestation ∧
    e.payload = registrationPayload (svc.binding bundle assurance) (attestationSummary svc.isoformat attestation)

theorem Lawful.registration (h : Lawful svc commands w) {log : List StoredEvent} (hl : log ⊆ w.database.events) (he : e ∈ log)
    (ht : e.entityType = "task") (het : e.eventType = "task.registered") :
    ∃ bundle assurance, RegisteredAs svc commands log bundle assurance e ∧ e.entitySequence = 1 ∧
      svc.Reviewed w.blobs bundle.toHandoff assurance := by
  obtain ⟨_, _, hsplit⟩ := List.append_of_mem (hl he)
  obtain ⟨i, call, hc, hr⟩ := h.origin hsplit
  have hty := hr.entityType_eq hc
  rw [ht] at hty
  generalize hcmd : commands i = command at hc hty
  cases hc with
  | registered keyed signed accepted reviewed =>
    refine ⟨_, _, ⟨⟨i, _, hcmd⟩, he, ht, het, hr.entityId, _, signed, (hr.event rfl).2⟩, ?_, reviewed⟩
    have hs : (e.entitySequence : Int) = 0 + 1 := hr.sequence
    omega
  | claimed =>
    have hev := (hr.event rfl).1
    rw [het] at hev
    simp at hev
  | submitted | gap | change | verdict => simp [Command.entityType] at hty

/-- What the payload of a registration reads back as. -/
theorem Service.binding_decodes (svc : Service) (bundle : FormalizationTaskBundle) (assurance : Option CanonicalTypeAssurance)
    (attestation : JsonObject) :
    bindingFromPayload (registrationPayload (svc.binding bundle assurance) attestation) =
      if "" ∈ bundle.contract.formal.axiomsAllowlist then .error (corruptPayload "axioms_allowlist")
      else .ok (svc.binding bundle assurance) := by
  have hpres := bindingFromBundle_presentable svc.hashing bundle.toHandoff assurance (svc.reference (.bundle bundle))
  have hround := bindingFromPayload_registrationPayload hpres attestation
  have hiff : "" ∈ frozenset bundle.contract.formal.axiomsAllowlist ↔ "" ∈ bundle.contract.formal.axiomsAllowlist :=
    mem_frozenset
  unfold Service.binding
  rw [hround]
  simp only [bindingFromBundle, hiff]

theorem RegisteredAs.decodes {log : List StoredEvent} {bundle : FormalizationTaskBundle}
    {assurance : Option CanonicalTypeAssurance} (h : RegisteredAs svc commands log bundle assurance e) :
    bindingFromPayload e.payload = if "" ∈ bundle.contract.formal.axiomsAllowlist
      then .error (corruptPayload "axioms_allowlist") else .ok (svc.binding bundle assurance) := by
  obtain ⟨attestation, -, hp⟩ := h.payload
  rw [hp, svc.binding_decodes]

/-- A binding read back from a lawful log is the one its bundle was registered with. -/
theorem Lawful.registered (h : Lawful svc commands w) {log : List StoredEvent} (hl : log ⊆ w.database.events)
    {bundleId : String} {b : TaskBinding} (hb : Registered log bundleId b) :
    ∃ e bundle assurance, RegisteredAs svc commands log bundle assurance e ∧ bundleId = bundle.bundleId.value ∧
      "" ∉ bundle.contract.formal.axiomsAllowlist ∧ b = svc.binding bundle assurance := by
  obtain ⟨e, he, ht, hid, het, hdec⟩ := hb
  obtain ⟨bundle, assurance, hr, -, -⟩ := h.registration hl he ht het
  rw [hr.decodes] at hdec
  split at hdec
  · cases hdec
  · rename_i hne
    cases hdec
    exact ⟨e, bundle, assurance, hr, hid.symm.trans hr.entityId, hne, rfl⟩

/-- Two registrations of one bundle ID are the same event. -/
theorem Lawful.registration_unique (h : Lawful svc commands w) (he : e ∈ w.database.events)
    (he' : e' ∈ w.database.events) (ht : e.entityType = "task") (ht' : e'.entityType = "task")
    (het : e.eventType = "task.registered") (het' : e'.eventType = "task.registered")
    (hid : e.entityId = e'.entityId) : e = e' := by
  obtain ⟨_, _, -, hs, -⟩ := h.registration (List.Subset.refl _) he ht het
  obtain ⟨_, _, -, hs', -⟩ := h.registration (List.Subset.refl _) he' ht' het'
  exact h.coherent.eq_of_place he he' (ht.trans ht'.symm) hid (hs.trans hs'.symm)

theorem RevisionBindingRow.apart_symm {a b : RevisionBindingRow} (h : a.Apart b) : b.Apart a :=
  ⟨fun hk => h.1 ⟨hk.1.symm, hk.2.symm⟩, h.2.1.symm, h.2.2.symm⟩

/-- The projection row of a registration event. -/
theorem Database.RevisionImage.row {db : Database} (hi : db.RevisionImage) (he : e ∈ db.events)
    (ht : e.entityType = "task") (het : e.eventType = "task.registered") :
    ∃ row ∈ db.contractRevisionBindings, Database.Projects e row := by
  have hm : e ∈ db.registrationEvents := List.mem_filter.mpr ⟨he, by simp [ht, het]⟩
  unfold Database.RevisionImage at hi
  generalize db.registrationEvents = events at hm hi
  generalize db.contractRevisionBindings = rows at hi
  induction hi with
  | nil => simp at hm
  | cons hrow _ ih =>
    rcases List.mem_cons.mp hm with rfl | hm
    · exact ⟨_, List.mem_cons_self, hrow⟩
    · obtain ⟨row, hr, hp⟩ := ih hm
      exact ⟨row, List.mem_cons_of_mem _ hr, hp⟩

/-- The row of a lawful registration carries the revision binding of its bundle. -/
theorem Lawful.registration_row (h : Lawful svc commands w) {log : List StoredEvent} (hl : log ⊆ w.database.events)
    {bundle : FormalizationTaskBundle} {assurance : Option CanonicalTypeAssurance}
    (hr : RegisteredAs svc commands log bundle assurance e) :
    ⟨svc.revisionBinding bundle.toHandoff, e.eventId⟩ ∈ w.database.contractRevisionBindings := by
  obtain ⟨row, hrow, hdec, hid⟩ := h.image.row (hl hr.mem) hr.entityType hr.eventType
  obtain ⟨binding, eventId⟩ := row
  obtain ⟨attestation, -, hp⟩ := hr.payload
  unfold Database.registrationBindingFromEventRow at hdec
  rw [hp, registrationBindingFromPayload_registrationPayload, ok_bind] at hdec
  have hb := (pure_eq_ok _ _).mp (ensure_bind_eq_ok.mp hdec).2
  simp only at hb hid
  rwa [hb, ← hid]

/-- Two registrations of one contract revision are the same event. -/
theorem Lawful.registration_unique_revision (h : Lawful svc commands w) {log log' : List StoredEvent}
    (hl : log ⊆ w.database.events) (hl' : log' ⊆ w.database.events) {bundle bundle' : FormalizationTaskBundle}
    {assurance assurance' : Option CanonicalTypeAssurance} (hr : RegisteredAs svc commands log bundle assurance e)
    (hr' : RegisteredAs svc commands log' bundle' assurance' e')
    (hc : bundle.contract.contractId = bundle'.contract.contractId)
    (hrev : bundle.contract.revision = bundle'.contract.revision) : e = e' := by
  have hrow := h.registration_row hl hr
  have hrow' := h.registration_row hl' hr'
  have hid : e.eventId = e'.eventId := by
    by_contra hne
    have : Std.Symm RevisionBindingRow.Apart := ⟨fun _ _ => RevisionBindingRow.apart_symm⟩
    have happ := h.coherent.bindings.forall hrow hrow' (by simp [hne])
    exact happ.1 ⟨by simp [Service.revisionBinding, hc], by simp [Service.revisionBinding, hrev]⟩
  exact List.inj_on_of_nodup_map h.coherent.ids (hl hr.mem) (hl' hr'.mem) hid

/-! The other streams hold one event each -/

theorem Lawful.first_of_stream (h : Lawful svc commands w) (he : e ∈ w.database.events) (ht : e.entityType ≠ "task") :
    e.entitySequence = 1 := by
  obtain ⟨_, _, hl⟩ := List.append_of_mem he
  obtain ⟨i, call, hc, hr⟩ := h.origin hl
  have hty := hr.entityType
  generalize commands i = command at hc
  cases hc with
  | registered | claimed => exact absurd hty ht
  | submitted | gap | change | verdict =>
    have hs : (e.entitySequence : Int) = 0 + 1 := hr.sequence
    omega

theorem Lawful.alone (h : Lawful svc commands w) (he : e ∈ w.database.events) (he' : e' ∈ w.database.events)
    (ht : e.entityType = e'.entityType) (hid : e.entityId = e'.entityId) (hne : e.entityType ≠ "task") : e = e' := by
  have hs := h.first_of_stream he hne
  have hs' := h.first_of_stream he' (ht ▸ hne)
  exact h.coherent.eq_of_place he he' ht hid (hs.trans hs'.symm)

theorem Lawful.submission (h : Lawful svc commands w) (hl : w.database.events = before ++ e :: after)
    (ht : e.entityType = "proof") :
    ∃ i bundleId lease submission key binding, commands i = .submitProof bundleId lease submission key ∧
      Registered before bundleId binding ∧ Service.validateProofBinding binding submission = .ok () ∧
      e.entityId = submission.proofId.value ∧ e.eventType = "proof.submitted" ∧
      e.payload = svc.proofPayload bundleId lease submission (svc.reference (.proofSubmission submission)) := by
  obtain ⟨i, call, hc, hr⟩ := h.origin hl
  have hty := hr.entityType_eq hc
  rw [ht] at hty
  generalize hcmd : commands i = command at hc hty
  cases hc with
  | submitted keyed registered bound complete =>
    exact ⟨i, _, _, _, _, _, hcmd, registered, bound, hr.entityId, (hr.event rfl).1, (hr.event rfl).2⟩
  | registered | claimed | gap | change | verdict => simp [Command.entityType] at hty

/-- The event records a write that consumed the nonce. -/
def Consumed (svc : Service) (commands : θ → Command) (w : World) (e : StoredEvent) (n : AttestationNonce) : Prop :=
  ∃ before after i call, w.database.events = before ++ e :: after ∧ svc.Commits before w.blobs (commands i) call ∧
    Recorded w.database call e ∧ call.batch.nonce = some n

theorem Lawful.verdict (h : Lawful svc commands w) (hl : w.database.events = before ++ e :: after)
    (ht : e.entityType = "verification") :
    ∃ i bundleId lease report key binding proof attestation, commands i = .verifySubmission bundleId lease report key ∧
      Registered before bundleId binding ∧ Submitted before report.proofId.value proof ∧
      validateVerificationBinding binding report proof.payload = .ok () ∧ report.verifierAttestation = some attestation ∧
      svc.Attested binding report proof.payload lease attestation ∧ e.entityId = report.proofId.value ∧
      e.eventType = verdictType (verificationFailures binding report.toVerificationObservation) ∧
      e.payload = verificationPayload svc bundleId lease report
        (verificationFailures binding report.toVerificationObservation) attestation
        (svc.reference (.verificationReport report)) ∧ Consumed svc commands w e (attestationNonce attestation) := by
  obtain ⟨i, call, hc, hr⟩ := h.origin hl
  have hty := hr.entityType_eq hc
  rw [ht] at hty
  have consumed (n : AttestationNonce) (hn : call.batch.nonce = some n) : Consumed svc commands w e n :=
    ⟨before, after, i, call, hl, hc, hr, hn⟩
  generalize hcmd : commands i = command at hc hty
  cases hc with
  | verdict keyed registered submitted bound signed attested =>
    exact ⟨i, _, _, _, _, _, _, _, hcmd, registered, submitted, bound, signed, attested, hr.entityId, (hr.event rfl).1,
      (hr.event rfl).2, consumed _ rfl⟩
  | registered | claimed | submitted | gap | change => simp [Command.entityType] at hty

/-- A nonce is consumed by the events of one stream. -/
theorem Consumed.stream {n n' : AttestationNonce} (h : Consumed svc commands w e n) (h' : Consumed svc commands w e' n')
    (hn : n.primaryKey = n'.primaryKey) : e.entityType = e'.entityType ∧ e.entityId = e'.entityId := by
  obtain ⟨_, _, _, call, -, -, hr, hb⟩ := h
  obtain ⟨_, _, _, call', -, -, hr', hb'⟩ := h'
  obtain ⟨use, huse, ht, hid⟩ := hr.nonce n hb
  obtain ⟨use', huse', ht', hid'⟩ := hr'.nonce n' hb'
  rw [hn, huse', Option.some.injEq] at huse
  subst huse
  exact ⟨ht.symm.trans ht', hid.symm.trans hid'⟩

theorem Lawful.gap (h : Lawful svc commands w) (hl : w.database.events = before ++ e :: after)
    (ht : e.entityType = "gap") :
    ∃ i bundleId lease report key binding, commands i = .reportGap bundleId lease report key ∧
      Registered before bundleId binding ∧ e.entityId = report.reportId.value ∧ e.eventType = "gap.reported" ∧
      e.payload = Service.gapPayload bundleId lease report (svc.reference (.gapReport report)) := by
  obtain ⟨i, call, hc, hr⟩ := h.origin hl
  have hty := hr.entityType_eq hc
  rw [ht] at hty
  generalize hcmd : commands i = command at hc hty
  cases hc with
  | gap keyed registered bound =>
    exact ⟨i, _, _, _, _, _, hcmd, registered, hr.entityId, (hr.event rfl).1, (hr.event rfl).2⟩
  | registered | claimed | submitted | change | verdict => simp [Command.entityType] at hty

theorem Lawful.change (h : Lawful svc commands w) (hl : w.database.events = before ++ e :: after)
    (ht : e.entityType = "contract_change_request") :
    ∃ i bundleId lease request key binding, commands i = .requestContractChange bundleId lease request key ∧
      Registered before bundleId binding ∧ e.entityId = request.requestId.value ∧
      e.eventType = "contract_change.requested" ∧
      e.payload = Service.changePayload bundleId lease request (svc.reference (.contractChangeRequest request)) := by
  obtain ⟨i, call, hc, hr⟩ := h.origin hl
  have hty := hr.entityType_eq hc
  rw [ht] at hty
  generalize hcmd : commands i = command at hc hty
  cases hc with
  | change keyed registered bound =>
    exact ⟨i, _, _, _, _, _, hcmd, registered, hr.entityId, (hr.event rfl).1, (hr.event rfl).2⟩
  | registered | claimed | submitted | gap | verdict => simp [Command.entityType] at hty

end Autolean.ControlPlane
