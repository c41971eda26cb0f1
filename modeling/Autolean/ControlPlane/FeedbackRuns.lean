import Autolean.ControlPlane.FeedbackReplay

/-! The phase feedback of reachable logs: when it returns, and what it reports. -/
namespace Autolean.ControlPlane.Projection
open Contracts Machine Raising

variable {θ : Type} {svc : Service} {commands : θ → Command} {w : World} {e e' : StoredEvent}
  {before after : List StoredEvent}

/-- A gap report and a contract change request of one bundle under one identifier. -/
def ReviewsCollide (e e' : StoredEvent) : Prop :=
  e.eventType = "gap.reported" ∧ e'.eventType = "contract_change.requested" ∧ eventTaskId e = eventTaskId e' ∧
    e.entityId = e'.entityId

/-- What the code relies on outside the log: times have a text, and the hash tells the presented contracts apart. -/
structure Presents (svc : Service) (commands : θ → Command) : Prop where
  isoformat : ∀ d, svc.isoformat d ≠ ""
  contracts : Set.InjOn svc.hashing.semanticHash (presentedContracts commands)

/-! Registrations -/

/-- What the feedback on a registered bundle says of its fidelity. -/
def fidelityOf (svc : Service) (bundle : FormalizationTaskBundle) (assurance : Option CanonicalTypeAssurance)
    (e : StoredEvent) : BuilderFidelity :=
  let evidenceDigest := artifactDigest e.payload "fidelity_evidence_artifact"
  ⟨if evidenceDigest.isSome then "frozen_attested_with_evidence" else "frozen_attested_without_public_evidence",
    (svc.binding bundle assurance).contractId, bundle.contract.revision.toNat,
    (svc.binding bundle assurance).contractHash, (svc.binding bundle assurance).bundleHash,
    e.globalPosition, e.eventId, e.recordedAt, evidenceDigest⟩

/-- A registration opens an accumulator of its bundle. -/
theorem lawful_registeredState (h : Lawful svc commands w) (hp : Presents svc commands) (he : e ∈ w.database.events)
    (het : e.eventType = "task.registered") :
    ∃ bundle assurance s, RegisteredAs svc commands w.database.events bundle assurance e ∧ registeredState e = some s ∧
      s.taskId = bundle.bundleId.value ∧ eventTaskId e = some s.taskId ∧ s.registrationEvent = e ∧
      s.builderFidelity = fidelityOf svc bundle assurance e ∧ Observed [] s := by
  obtain ⟨bundle, assurance, hr, -⟩ := lawful_declared h he het
  obtain ⟨attestation, -, hpayload⟩ := hr.payload
  obtain ⟨htask, -⟩ := registeredNodes_registration svc bundle assurance _ hpayload
  have hb := bindingFromBundle_presentable svc.hashing bundle.toHandoff assurance (svc.reference (.bundle bundle))
  have hrevision : 0 ≤ bundle.contract.revision ∧ 1 ≤ bundle.contract.revision.toNat := by
    have hpos := bundle.contract.revision_pos
    omega
  have htext {key value : String} (hk : e.payload.get key = some (.str value)) (hne : value ≠ "") :
      e.payload.text key = some value := by
    simp [JsonObject.text, hk, hne]
  have hattested : ∀ key ∈ attestationKeys,
      (JsonObject.text (attestationSummary svc.isoformat attestation) key).isSome := by
    have hkey : attestation.keyId ≠ "" := by
      intro hempty
      have hbounded := attestation.keyId_safe.bounded
      rw [hempty] at hbounded
      exact absurd hbounded (by decide)
    have hpurpose : attestation.purpose.value ≠ "" := by cases attestation.purpose <;> decide
    simp [attestationKeys, attestationSummary, JsonObject.text, JsonObject.get, List.lookup, hkey, hpurpose,
      attestation.payloadHash.isSha256.ne_empty, attestation.evidenceIdentity.nonempty, hp.isoformat]
  have hopened : registeredState e =
      some ⟨bundle.bundleId.value, e, fidelityOf svc bundle assurance e, [], [], [], [], ∅, [], []⟩ := by
    have hcontract : e.payload.text "contract_id" = some (svc.binding bundle assurance).contractId :=
      htext (by rw [hpayload]; rfl) hb.contractId
    have hhash : e.payload.text "contract_hash" = some (svc.binding bundle assurance).contractHash :=
      htext (by rw [hpayload]; rfl) hb.contractHash
    have hbundle : e.payload.text "bundle_hash" = some (svc.binding bundle assurance).bundleHash :=
      htext (by rw [hpayload]; rfl) hb.bundleHash
    have hint : optionalInt e.payload "revision" = some bundle.contract.revision.toNat := by
      rw [hpayload]
      exact if_pos hrevision.1
    have hobj : e.payload.obj "builder_attestation" = some (attestationSummary svc.isoformat attestation) := by
      rw [hpayload]
      rfl
    rw [registeredState, if_pos het, htask, phaseFeedbackRegistration, hcontract, hint, hhash, hbundle, hobj]
    exact if_pos ⟨hrevision.2, hattested⟩
  refine ⟨bundle, assurance, _, hr, hopened, rfl, htask, rfl, rfl, ?_⟩
  constructor <;> simp

/-- The accumulators of a lawful log are opened one for each bundle. -/
theorem lawful_opened_distinct (h : Lawful svc commands w) (hp : Presents svc commands) :
    ((w.database.events.filterMap registeredState).map (·.taskId)).Nodup := by
  have hnodup : w.database.events.Nodup := h.coherent.ids.of_map _
  rw [List.Nodup, List.pairwise_map, List.pairwise_filterMap]
  refine hnodup.imp_of_mem fun {e e'} he he' hne => ?_
  intro s hs s' hs' htask
  have registered {e : StoredEvent} {s : PhaseFeedbackState} (hs : registeredState e = some s) :
      e.eventType = "task.registered" := by
    unfold registeredState at hs
    split at hs
    · assumption
    · cases hs
  have het := registered hs
  have het' := registered hs'
  obtain ⟨bundle, _, opened, hr, hopened, hid, -⟩ := lawful_registeredState h hp he het
  obtain ⟨bundle', _, opened', hr', hopened', hid', -⟩ := lawful_registeredState h hp he' het'
  rw [hs, Option.some.injEq] at hopened
  rw [hs', Option.some.injEq] at hopened'
  subst hopened hopened'
  refine hne (h.registration_unique he he' hr.entityType hr'.entityType het het' ?_)
  rw [hr.entityId, hr'.entityId, ← hid, ← hid', htask]

/-! Events about a bundle -/

theorem subset_before (hl : w.database.events = before ++ e :: after) : before ⊆ w.database.events := by
  rw [hl]
  exact List.subset_append_left _ _

/-- The payload of every other event names a bundle that was registered before. -/
theorem lawful_about (h : Lawful svc commands w) (hl : w.database.events = before ++ e :: after) :
    e.eventType = "task.registered" ∨ ∃ bundleId binding, Registered before bundleId binding ∧
      eventTaskId e = some bundleId := by
  have he : e ∈ w.database.events := by simp [hl]
  have named {bundleId : String} {binding : TaskBinding} (hr : Registered before bundleId binding)
      (hget : e.payload.get "bundle_id" = some (.str bundleId)) :
      ∃ bundleId binding, Registered before bundleId binding ∧ eventTaskId e = some bundleId :=
    ⟨bundleId, binding, hr, eventTaskId_of_payload hget (registered_nonempty h (subset_before hl) hr)⟩
  have hkind := h.kind he
  simp only [eventKinds, List.mem_cons, List.not_mem_nil, or_false, Prod.mk.injEq] at hkind
  rcases hkind with ⟨-, het⟩ | ⟨-, het⟩ | ⟨ht, -⟩ | ⟨ht, -⟩ | ⟨ht, -⟩ | ⟨ht, -⟩ | ⟨ht, -⟩
  · exact .inl het
  · exact .inr (lawful_claim h hl het)
  · obtain ⟨_, _, _, _, _, _, -, hr, -, -, -, hpayload⟩ := h.submission hl ht
    exact .inr (named hr (by rw [hpayload]; rfl))
  · obtain ⟨_, _, _, _, _, _, -, hr, -, -, hpayload⟩ := h.gap hl ht
    exact .inr (named hr (by rw [hpayload]; rfl))
  · obtain ⟨_, _, _, _, _, _, -, hr, -, -, hpayload⟩ := h.change hl ht
    exact .inr (named hr (by rw [hpayload]; rfl))
  all_goals
    obtain ⟨_, _, _, _, _, _, _, _, -, hr, -, -, -, -, -, -, hpayload, -⟩ := h.verdict hl ht
    exact .inr (named hr (by rw [hpayload]; rfl))

/-- An earlier event of a stream that holds one event is not a later one. -/
theorem lawful_first (h : Lawful svc commands w) (hl : w.database.events = before ++ e :: after) (he' : e' ∈ before)
    (ht : e'.entityType = e.entityType) (hne : e.entityType ≠ "task") : e'.entityId ≠ e.entityId := by
  intro hid
  have heq := h.alone (subset_before hl he') (by simp [hl]) ht hid (ht ▸ hne)
  have hnodup : w.database.events.Nodup := h.coherent.ids.of_map _
  rw [hl] at hnodup
  exact (List.nodup_append.mp hnodup).2.2 e' he' e List.mem_cons_self heq

/-- A review is known by its own identifier. -/
theorem lawful_review (h : Lawful svc commands w) (he : e ∈ w.database.events) (hr : IsReview e) :
    (unresolvedReviewAssumption e).id = e.entityId ∧
      e.entityType = if e.eventType = "gap.reported" then "gap" else "contract_change_request" := by
  obtain ⟨front, back, hl⟩ := List.append_of_mem he
  have hkind := h.kind he
  rcases hr with het | het
  · have ht : e.entityType = "gap" := by
      rw [het] at hkind
      simpa [eventKinds] using hkind
    obtain ⟨_, _, _, report, _, _, -, -, hid, -, hpayload⟩ := h.gap hl ht
    refine ⟨?_, by rw [ht, if_pos het]⟩
    have htext : e.payload.text "report_id" = some report.reportId.value := by
      rw [hpayload]
      exact if_neg (ne_empty_of_not_blank report.reportId.not_blank)
    simp only [unresolvedReviewAssumption, if_pos het]
    rw [htext, hid]
    rfl
  · have ht : e.entityType = "contract_change_request" := by
      rw [het] at hkind
      simpa [eventKinds] using hkind
    obtain ⟨_, _, _, request, _, _, -, -, hid, -, hpayload⟩ := h.change hl ht
    have hne : ¬ e.eventType = "gap.reported" := by
      rw [het]
      decide
    refine ⟨?_, by rw [ht, if_neg hne]⟩
    have htext : e.payload.text "request_id" = some request.requestId.value := by
      rw [hpayload]
      exact if_neg (ne_empty_of_not_blank request.requestId.not_blank)
    simp only [unresolvedReviewAssumption, if_neg hne]
    rw [htext, hid]
    rfl

/-- A submission is known by its proof. -/
theorem lawful_submitted (h : Lawful svc commands w) (he : e ∈ w.database.events)
    (het : e.eventType = "proof.submitted") : proofIdOf e = e.entityId ∧ e.entityType = "proof" := by
  obtain ⟨front, back, hl⟩ := List.append_of_mem he
  have ht := h.entityType_of_submission he het
  obtain ⟨_, _, _, submission, _, _, -, -, -, hid, -, hpayload⟩ := h.submission hl ht
  refine ⟨?_, ht⟩
  have htext : e.payload.text "proof_id" = some submission.proofId.value := by
    rw [hpayload]
    exact if_neg (ne_empty_of_not_blank submission.proofId.not_blank)
  rw [proofIdOf, htext, hid]
  rfl

theorem lawful_verification (h : Lawful svc commands w) (he : e ∈ w.database.events) (hv : IsVerification e) :
    e.entityType = "verification" ∧ e.payload.text "proof_id" = some e.entityId := by
  have ht : e.entityType = "verification" := by
    have hkind := h.kind he
    simp only [eventKinds, List.mem_cons, List.not_mem_nil, or_false, Prod.mk.injEq] at hkind
    rcases hkind with h | h | h | h | h | h | h
    all_goals first | exact h.1 | (unfold IsVerification at hv; rw [h.2] at hv; exact absurd hv (by decide))
  obtain ⟨front, back, hl⟩ := List.append_of_mem he
  obtain ⟨_, _, _, report, _, _, _, _, -, -, -, -, -, -, hid, -, hpayload, -⟩ := h.verdict hl ht
  refine ⟨ht, ?_⟩
  rw [hid, hpayload]
  exact if_neg (ne_empty_of_not_blank report.proofId.not_blank)

/-- A verdict of a bundle is on a proof that was submitted for it. -/
theorem lawful_verdict_submission (h : Lawful svc commands w) (hp : Presents svc commands)
    (hl : w.database.events = before ++ e :: after) (hv : IsVerification e) :
    ∃ p ∈ before, p.eventType = "proof.submitted" ∧ p.entityId = e.entityId ∧ eventTaskId p = eventTaskId e := by
  have he : e ∈ w.database.events := by simp [hl]
  have hbefore := subset_before hl
  obtain ⟨i, bundleId, lease, report, key, binding, proof, attestation, -, hreg, hsub, hbound, -, -, hid, -, hpayload, -⟩ :=
    h.verdict hl (lawful_verification h he hv).1
  have hne := registered_nonempty h hbefore hreg
  have htask : eventTaskId e = some bundleId := eventTaskId_of_payload (by rw [hpayload]; rfl) hne
  obtain ⟨r, bundle, assurance, hr, rfl, -, rfl⟩ := h.registered hbefore hreg
  obtain ⟨hch, -, hbc, -, -⟩ := validateVerificationBinding_ok hbound
  obtain ⟨hproof, hpt, hpid, hpe⟩ := hsub
  obtain ⟨front, back, hsplit⟩ := List.append_of_mem (hbefore hproof)
  obtain ⟨i', bundleId', lease', submission, key', binding', -, hreg', hbound', -, -, hpp⟩ := h.submission hsplit hpt
  have hfront := subset_before hsplit
  have hne' := registered_nonempty h hfront hreg'
  obtain ⟨r', bundle', assurance', hr', rfl, -, rfl⟩ := h.registered hfront hreg'
  obtain ⟨-, -, hsc⟩ := validateProofBinding_ok hbound'
  have hpc : submission.contractHash.value = report.contractHash.value := by
    rw [hpp] at hch
    simpa [Service.proofPayload, JsonObject.get, List.lookup] using hch
  obtain ⟨-, hrr⟩ := h.registered_same_contract hp.contracts hbefore hfront hr hr' (hbc.symm.trans (hpc.symm.trans hsc))
  have hbundle : bundle.bundleId.value = bundle'.bundleId.value := by rw [← hr.entityId, ← hr'.entityId, hrr]
  refine ⟨proof, hproof, hpe, hpid.trans hid.symm, ?_⟩
  rw [htask, hbundle]
  exact eventTaskId_of_payload (by rw [hpp]; rfl) hne'

/-! The replay of a lawful log -/

/-- The accumulators that the registrations of a world open. -/
def openedStates (w : World) : List PhaseFeedbackState := w.database.events.filterMap registeredState

theorem registered_of_opened {s : PhaseFeedbackState} (hs : registeredState e = some s) :
    e.eventType = "task.registered" := by
  unfold registeredState at hs
  split at hs
  · assumption
  · cases hs

theorem opened_replayed (h : Lawful svc commands w) (hp : Presents svc commands) :
    Replayed (openedStates w) [] (openedStates w) := by
  refine ⟨rfl, fun s hs => ?_, lawful_opened_distinct h hp⟩
  obtain ⟨e, he, hopened⟩ := List.mem_filterMap.mp hs
  obtain ⟨_, _, s', -, hopened', -, -, -, -, hobserved⟩ := lawful_registeredState h hp he (registered_of_opened hopened)
  rw [hopened, Option.some.injEq] at hopened'
  exact hopened' ▸ hobserved

section Replay
variable {seen : List StoredEvent} {states : List PhaseFeedbackState} {s : PhaseFeedbackState}

/-- Each accumulator is that of a registration. -/
theorem Replayed.registration (h : Lawful svc commands w) (hp : Presents svc commands)
    (hrep : Replayed (openedStates w) seen states) (hs : s ∈ states) :
    ∃ bundle assurance, RegisteredAs svc commands w.database.events bundle assurance s.registrationEvent ∧
      s.taskId = bundle.bundleId.value ∧ eventTaskId s.registrationEvent = some s.taskId ∧
      s.builderFidelity = fidelityOf svc bundle assurance s.registrationEvent := by
  have hmem : (s.taskId, s.registrationEvent, s.builderFidelity) ∈
      (openedStates w).map fun s => (s.taskId, s.registrationEvent, s.builderFidelity) := by
    rw [← hrep.same]
    exact List.mem_map_of_mem hs
  obtain ⟨opened, hopened, heq⟩ := List.mem_map.mp hmem
  obtain ⟨e, he, hstate⟩ := List.mem_filterMap.mp hopened
  obtain ⟨bundle, assurance, s', hr, hstate', hid, htask, hregistration, hopenedFidelity, -⟩ :=
    lawful_registeredState h hp he (registered_of_opened hstate)
  rw [hstate, Option.some.injEq] at hstate'
  subst hstate'
  rw [Prod.mk.injEq, Prod.mk.injEq] at heq
  obtain ⟨hid', hregistration', hfidelity⟩ := heq
  rw [← hregistration', ← hid', ← hfidelity, hregistration]
  exact ⟨bundle, assurance, hr, hid, htask, hopenedFidelity⟩

/-- Each registration has its accumulator. -/
theorem Replayed.state (h : Lawful svc commands w) (hp : Presents svc commands)
    (hrep : Replayed (openedStates w) seen states) {bundle : FormalizationTaskBundle}
    {assurance : Option CanonicalTypeAssurance} (hr : RegisteredAs svc commands w.database.events bundle assurance e) :
    ∃ s ∈ states, s.taskId = bundle.bundleId.value ∧ s.registrationEvent = e := by
  obtain ⟨bundle', _, opened, hr', hopened, hid, -, hregistration, -⟩ := lawful_registeredState h hp hr.mem hr.eventType
  have hmem : (opened.taskId, opened.registrationEvent, opened.builderFidelity) ∈
      states.map fun s => (s.taskId, s.registrationEvent, s.builderFidelity) := by
    rw [hrep.same]
    exact List.mem_map_of_mem (List.mem_filterMap.mpr ⟨e, hr.mem, hopened⟩)
  obtain ⟨s, hs, heq⟩ := List.mem_map.mp hmem
  rw [Prod.mk.injEq, Prod.mk.injEq] at heq
  refine ⟨s, hs, ?_, heq.2.1.trans hregistration⟩
  rw [heq.1, hid, ← hr'.entityId, hr.entityId]

theorem position_before (h : Lawful svc commands w) (hl : w.database.events = before ++ e :: after)
    (he' : e' ∈ before) : e'.globalPosition < e.globalPosition := by
  have hpositions := List.pairwise_map.mp h.coherent.positions
  rw [hl] at hpositions
  exact (List.pairwise_append.mp hpositions).2.2 e' he' e List.mem_cons_self

/-- The registration of a bundle stands before the other events about it. -/
theorem registration_first (h : Lawful svc commands w) (hl : w.database.events = before ++ e :: after)
    {r : StoredEvent} {bundle : FormalizationTaskBundle} {assurance : Option CanonicalTypeAssurance}
    (hr : RegisteredAs svc commands w.database.events bundle assurance r)
    (htask : eventTaskId e = some bundle.bundleId.value) : r = e ∨ r ∈ before := by
  have he : e ∈ w.database.events := by simp [hl]
  rcases lawful_about h hl with het | ⟨bundleId, binding, hreg, htask'⟩
  · obtain ⟨bundle', assurance', hr', -⟩ := lawful_declared h he het
    obtain ⟨attestation, -, hpayload⟩ := hr'.payload
    obtain ⟨htask', -⟩ := registeredNodes_registration svc bundle' assurance' _ hpayload
    rw [htask, Option.some.injEq] at htask'
    refine .inl (h.registration_unique hr.mem he hr.entityType hr'.entityType hr.eventType het ?_)
    rw [hr.entityId, hr'.entityId, htask']
  · obtain ⟨r', bundle', _, hr', hid, -⟩ := h.registered (subset_before hl) hreg
    rw [htask, Option.some.injEq] at htask'
    have heq : r = r' := by
      refine h.registration_unique hr.mem (subset_before hl hr'.mem) hr.entityType hr'.entityType hr.eventType
        hr'.eventType ?_
      rw [hr.entityId, hr'.entityId, htask', hid]
    exact .inr (heq ▸ hr'.mem)

theorem mem_aboutTask {taskId : String} {events : List StoredEvent} :
    e ∈ aboutTask taskId events ↔ e ∈ events ∧ eventTaskId e = some taskId := by
  simp [aboutTask]

/-- A proof on which an event is a verdict. -/
theorem verdictOn_eq_some {b : Bool} {x : String} (hv : verdictOn b e = some x) :
    IsVerification e ∧ e.payload.text "proof_id" = some x := by
  unfold verdictOn at hv
  split at hv
  · rename_i hverification
    refine ⟨hverification, ?_⟩
    split at hv
    · split at hv
      · exact hv
      · cases hv
    · cases hv
  · cases hv

/-- An event about the bundle of an accumulator is taken up, unless it collides with an earlier review. -/
theorem lawful_observes (h : Lawful svc commands w) (hp : Presents svc commands)
    (hl : w.database.events = before ++ e :: after) (hrep : Replayed (openedStates w) before states) (hs : s ∈ states)
    (htask : eventTaskId e = some s.taskId) (hapart : ∀ e' ∈ before, ¬ ReviewsCollide e e' ∧ ¬ ReviewsCollide e' e) :
    ∃ s', s.observe e = .ok s' := by
  have he : e ∈ w.database.events := by simp [hl]
  have hobserved := hrep.observed s hs
  have mem {e' : StoredEvent} (he' : e' ∈ aboutTask s.taskId before) : e' ∈ w.database.events :=
    subset_before hl (mem_aboutTask.mp he').1
  apply observe_returns
  · obtain ⟨bundle, assurance, hr, hid, -⟩ := Replayed.registration h hp hrep hs
    rcases registration_first h hl hr (htask.trans (congrArg some hid)) with heq | hbefore
    · exact le_of_eq (congrArg _ heq)
    · exact (position_before h hl hbefore).le
  · intro het hmem
    obtain ⟨hid, ht⟩ := lawful_submitted h he het
    rw [hobserved.submitted, List.mem_filterMap] at hmem
    obtain ⟨e', he', hsubmitted⟩ := hmem
    unfold submittedProof at hsubmitted
    split at hsubmitted
    · rename_i het'
      obtain ⟨hid', ht'⟩ := lawful_submitted h (mem he') het'
      refine lawful_first h hl (mem_aboutTask.mp he').1 (ht'.trans ht.symm) (by rw [ht]; decide) ?_
      rw [← hid', ← hid, Option.some.inj hsubmitted]
    · cases hsubmitted
  · intro hv
    obtain ⟨ht, htext⟩ := lawful_verification h he hv
    obtain ⟨accepted, haccepted⟩ := lawful_replayable h he hv
    refine ⟨e.entityId, accepted, htext, ?_, ?_, haccepted⟩
    · obtain ⟨p, hpmem, hpt, hpid, hptask⟩ := lawful_verdict_submission h hp hl hv
      rw [hobserved.submitted, List.mem_filterMap]
      refine ⟨p, mem_aboutTask.mpr ⟨hpmem, hptask.trans htask⟩, ?_⟩
      rw [submittedProof, if_pos hpt, (lawful_submitted h (subset_before hl hpmem) hpt).1, hpid]
    · intro hmem
      have hearlier : ∃ e' ∈ aboutTask s.taskId before, ∃ b, verdictOn b e' = some e.entityId := by
        rw [List.mem_append, hobserved.accepted, hobserved.rejected, List.mem_filterMap, List.mem_filterMap] at hmem
        rcases hmem with ⟨e', he', hverdict⟩ | ⟨e', he', hverdict⟩
        · exact ⟨e', he', true, hverdict⟩
        · exact ⟨e', he', false, hverdict⟩
      obtain ⟨e', he', b, hverdict⟩ := hearlier
      obtain ⟨hv', htext'⟩ := verdictOn_eq_some hverdict
      obtain ⟨ht', hid'⟩ := lawful_verification h (mem he') hv'
      rw [htext', Option.some.injEq] at hid'
      exact lawful_first h hl (mem_aboutTask.mp he').1 (ht'.trans ht.symm) (by rw [ht]; decide) hid'.symm
  · intro hreview hmem
    obtain ⟨hid, ht⟩ := lawful_review h he hreview
    rw [hobserved.review_ids, hobserved.reviews, List.mem_map] at hmem
    obtain ⟨review, hopened, heq⟩ := hmem
    obtain ⟨e', he', hopened⟩ := List.mem_filterMap.mp hopened
    unfold openedReview at hopened
    split at hopened
    · rename_i hreview'
      cases hopened
      obtain ⟨hid', ht'⟩ := lawful_review h (mem he') hreview'
      obtain ⟨hbefore, htask'⟩ := mem_aboutTask.mp he'
      have hentity : e'.entityId = e.entityId := by rw [← hid', ← hid, heq]
      have hsame : e'.entityType ≠ e.entityType := fun htype =>
        lawful_first h hl hbefore htype (by rw [ht]; split <;> decide) hentity
      obtain ⟨hcollide, hcollide'⟩ := hapart e' hbefore
      rcases hreview with het | het <;> rcases hreview' with het' | het'
      · exact hsame (by rw [ht, ht', het, het'])
      · exact hcollide ⟨het, het', htask.trans htask'.symm, hentity.symm⟩
      · exact hcollide' ⟨het', het, htask'.trans htask.symm, hentity⟩
      · exact hsame (by rw [ht, ht', het, het'])
    · cases hopened

/-- The accumulator of a bundle is the one found under its ID. -/
theorem Replayed.find {opened : List PhaseFeedbackState} (hrep : Replayed opened seen states) (hs : s ∈ states) :
    states.find? (fun state => state.taskId = s.taskId) = some s := by
  have hsome : (states.find? fun state => state.taskId = s.taskId).isSome :=
    List.find?_isSome.mpr ⟨s, hs, decide_eq_true rfl⟩
  obtain ⟨s', hs'⟩ := Option.isSome_iff_exists.mp hsome
  have hid : s'.taskId = s.taskId := by simpa using List.find?_some hs'
  rw [hs', List.inj_on_of_nodup_map hrep.distinct (List.mem_of_find?_eq_some hs') hs hid]

/-- A replay that returns has met no review under the identifier of an earlier one. -/
theorem lawful_refuses (h : Lawful svc commands w) (hp : Presents svc commands)
    (hl : w.database.events = before ++ e :: after)
    (hrun : w.database.events.foldlM observeState (openedStates w) = .ok states) (he' : e' ∈ before) (hr' : IsReview e')
    (hr : IsReview e) (htask : eventTaskId e' = eventTaskId e) : e'.entityId ≠ e.entityId := by
  intro hentity
  have he : e ∈ w.database.events := by simp [hl]
  rw [hl] at hrun
  obtain ⟨mid, next, hbefore, hstep⟩ := foldlM_observeState_split hrun
  have hmid : Replayed (openedStates w) before mid := by simpa using (opened_replayed h hp).run hbefore
  have hkind {t : String} (ht : e.eventType = t) : t = "gap.reported" ∨ t = "contract_change.requested" := ht ▸ hr
  obtain ⟨bundleId, binding, hreg, htaske⟩ : ∃ bundleId binding, Registered before bundleId binding ∧
      eventTaskId e = some bundleId := by
    rcases lawful_about h hl with hregistered | hfound
    · exact absurd (hkind hregistered) (by decide)
    · exact hfound
  obtain ⟨r, bundle, assurance, hregistered, hid, -⟩ := h.registered (subset_before hl) hreg
  obtain ⟨s, hs, hsid, -⟩ := Replayed.state h hp hmid { hregistered with mem := subset_before hl hregistered.mem }
  have htasks : eventTaskId e = some s.taskId := by rw [htaske, hsid, hid]
  rw [observeState, htasks, Option.bind_some, hmid.find hs] at hstep
  obtain ⟨observed, hobserved, -⟩ := bind_eq_ok.mp hstep
  have hmem : (unresolvedReviewAssumption e).id ∈ s.unresolvedReviewIds := by
    rw [(hmid.observed s hs).review_ids, (hmid.observed s hs).reviews, (lawful_review h he hr).1, ← hentity,
      ← (lawful_review h (subset_before hl he') hr').1]
    exact List.mem_map_of_mem (List.mem_filterMap.mpr ⟨e', mem_aboutTask.mpr ⟨he', htask.trans htasks⟩, if_pos hr'⟩)
  obtain ⟨-, ⟨ht, -⟩ | ⟨ht, -⟩ | ⟨ht, -⟩ | ⟨-, hreviewed⟩ | ⟨ht, -⟩⟩ := observe_cases hobserved
  · exact absurd (hkind ht) (by decide)
  · exact absurd (hkind ht) (by decide)
  · unfold IsVerification at ht
    rcases hr with hgap | hchange
    · exact absurd (hgap ▸ ht) (by decide)
    · exact absurd (hchange ▸ ht) (by decide)
  · exact (reviewed_ok hreviewed).1 hmem
  · exact ht (kinds_review hr).2.2.2

theorem lawful_feedbackStates (h : Lawful svc commands w) (hp : Presents svc commands) :
    feedbackStates w.database.events = w.database.events.foldlM observeState (openedStates w) := by
  have hregister : w.database.events.foldlM registerState [] = .ok (openedStates w) :=
    foldlM_registerState (by simpa using lawful_opened_distinct h hp)
  rw [feedbackStates, hregister, ok_bind]

/-- The replay of a lawful log returns exactly when no two reviews of it collide. -/
theorem lawful_replay_iff (h : Lawful svc commands w) (hp : Presents svc commands) :
    (∃ states, feedbackStates w.database.events = .ok states) ↔
      ∀ e ∈ w.database.events, ∀ e' ∈ w.database.events, ¬ ReviewsCollide e e' := by
  rw [lawful_feedbackStates h hp]
  constructor
  · rintro ⟨states, hrun⟩ e he e' he' ⟨het, het', htask, hentity⟩
    obtain ⟨front, back, hl⟩ := List.append_of_mem he'
    rcases List.mem_append.mp (hl ▸ he) with hbefore | hafter
    · exact lawful_refuses h hp hl hrun hbefore (.inl het) (.inr het') htask hentity
    rcases List.mem_cons.mp hafter with rfl | hback
    · rw [het] at het'
      exact absurd het' (by decide)
    · obtain ⟨mid, tail, rfl⟩ := List.append_of_mem hback
      have hl' : w.database.events = (front ++ e' :: mid) ++ e :: tail := by
        rw [hl, List.append_assoc, List.cons_append]
      exact lawful_refuses h hp hl' hrun (by simp) (.inr het') (.inl het) htask.symm hentity.symm
  · intro hapart
    apply (opened_replayed h hp).returns
    intro front e back mid hl hmid s hs htask
    have he : e ∈ w.database.events := by simp [hl]
    refine lawful_observes h hp hl hmid hs htask fun e' he' => ?_
    exact ⟨hapart e he e' (subset_before hl he'), hapart e' (subset_before hl he') e he⟩

end Replay

end Autolean.ControlPlane.Projection
