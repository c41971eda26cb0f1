import Autolean.ControlPlane.Records

/-! What every command promises: each write is one its checks allow against the present
log, and what it returns is what the log records. One specification for each part of a
command; the parts that only read need none of their own. -/
namespace Autolean.ControlPlane
open Contracts Machine Raising

variable {θ α : Type} {svc : Service} {commands : θ → Command} {may : World → (op : ServiceOp) → ServiceInput → Prop}
  {w : World} {i : θ}

/-- The operation writes no event. -/
def WritesNothing (op : ServiceOp) : Prop := ∀ call, op ≠ .store (.write call)

theorem WritesNothing.allowed {op : ServiceOp} (h : WritesNothing op) (t : World) : Allowed svc commands t op := by
  cases op with
  | store op =>
    cases op with
    | write call => exact absurd rfl (h call)
    | _ => trivial
  | _ => trivial

theorem ReadsOnly.writesNothing {op : ServiceOp} (h : ReadsOnly op) : WritesNothing op := by
  rintro call rfl
  exact h

/-- The program keeps the commands' protocol, and `Q` holds of what it returns. -/
abbrev Promises (svc : Service) (commands : θ → Command) (may : World → (op : ServiceOp) → ServiceInput → Prop)
    (Q : α → World → Prop) (p : Call α) (w : World) : Prop :=
  p.Yields (protocol svc commands may) Q w

theorem promises_of_issues {p : Call α} (h : p.Issues WritesNothing) : Promises svc commands may (fun _ _ => True) p w :=
  Prog.Yields.ofIssues (P := protocol svc commands may) (fun t _ hop => hop.allowed t) h

theorem promises_of_reads {p : Call α} (h : p.Issues ReadsOnly) : Promises svc commands may (fun _ _ => True) p w :=
  promises_of_issues (h.imp fun _ => ReadsOnly.writesNothing)

theorem raising_promises {x : Raises α} : Promises svc commands may (fun a _ => x = .ok a) (raising x) w :=
  Prog.Yields.ofExcept fun _ ha _ _ _ => ha

/-- An operation that writes no event may be issued at any time. -/
theorem perform_promises {op : ServiceOp} {Q : op.Res → World → Prop} (hop : WritesNothing op)
    (hq : ∀ t input a, Lawful svc commands t → Evolves w t → (svc.exec op input t).1 = .ok a →
      ∀ u, Evolves (svc.exec op input t).2 u → Q a u) :
    Promises svc commands may Q (Prog.perform (I := serviceInterface) op) w :=
  Prog.Yields.perform (I := serviceInterface) (fun t _ _ => hop.allowed t)
    fun t input a ht hi _ ha u hu _ => hq t input a hi ht ha u hu

/-- A write may be issued once its checks have passed. -/
theorem write_promises {call : AppendCall} {Q : List StoredEvent → World → Prop}
    (hc : svc.Commits w.database.events w.blobs (commands i) call)
    (hq : ∀ t input events db, Lawful svc commands t → Evolves w t → may t (.store (.write call)) input →
      call.transaction t.database input.readings = .ok (events, db) → ∀ u, Evolves ⟨db, t.blobs⟩ u →
      Lawful svc commands u → Q events u) :
    Promises svc commands may Q (issue (.write call)) w := by
  refine Prog.Yields.perform (I := serviceInterface) (fun t ht _ => ⟨i, hc.mono ht.log ht.blobs⟩) ?_
  intro t input events ht hi hm he u hu hiu
  cases hx : call.transaction t.database input.readings with
  | error e => simp [protocol, Service.exec, StoreOp.exec, commit, hx] at he
  | ok res =>
    obtain ⟨events', db⟩ := res
    have hu' : Evolves ⟨db, t.blobs⟩ u := by simpa [protocol, Service.exec, StoreOp.exec, commit, hx] using hu
    simp only [protocol, Service.exec, StoreOp.exec, commit, hx, Except.ok.injEq] at he
    subst he
    exact hq t input events' db hi ht hm hx u hu' hiu

/-! Keys -/

/-- A recorded key stands for one command's request and one event that answers it. -/
theorem Lawful.bound (h : Lawful svc commands w) {key : String × String} {hash : String} {events : List StoredEvent}
    (hb : w.database.BoundTo key hash events) :
    ∃ i call e request, events = [e] ∧ e ∈ w.database.events ∧
      svc.Commits w.database.events w.blobs (commands i) call ∧ Answers call e ∧ (commands i).scope = some key.1 ∧
      (commands i).request svc = some (key.2, request) ∧ hash = (svc.requestHash request).value := by
  obtain ⟨row, hrow, hhash, hby⟩ := hb
  obtain ⟨i, call, v, e, hc, hv, rfl, hh, hid, hmem, ha⟩ := h.keyed key row hrow
  obtain ⟨hscope, request, hreq, hvh⟩ := hc.key hv
  refine ⟨i, call, e, request, ?_, hmem, hc, ha, hscope, hreq, hhash.symm.trans (hh.symm.trans hvh)⟩
  rw [hid] at hby
  unfold Database.eventsByIds at hby
  obtain ⟨found, hfound, hby⟩ := bind_eq_ok.mp hby
  obtain ⟨hfm, hfid⟩ := Database.eventById_mem hfound
  simp only [Database.eventsByIds, ok_bind, pure_eq_ok] at hby
  have heq : found = e := List.inj_on_of_nodup_map h.coherent.ids hfm hmem hfid
  rw [← hby, heq]

theorem replayedEvent_promises (hw : Lawful svc commands w) (v : Idempotency) :
    Promises svc commands may (fun o t => ∀ e, o = some e → t.database.BoundTo v.primaryKey v.requestHash [e])
      (replayedEvent v) w := by
  unfold replayedEvent
  refine Prog.Yields.bind hw (Q := fun found t => ∀ events, found = some events →
    t.database.BoundTo v.primaryKey v.requestHash events) (perform_promises (by simp [WritesNothing]) ?_) ?_
  · intro t input found _ _ hf u hu events hev
    subst hev
    have hlook : t.database.existingIdempotency (some v) = .ok (some events) := hf
    obtain ⟨h, -⟩ | ⟨v', row, events', hv', hrow, hhash, hby, h⟩ := Database.existingIdempotency_cases hlook
    · cases h
    · cases hv'
      cases h
      exact Database.BoundTo.extends ⟨row, hrow, hhash, hby⟩ hu.database
  · intro found t _ _ hfound
    refine Prog.Yields.ofExcept fun o ho u hu _ e he => ?_
    subst he
    unfold singleEvent at ho
    split at ho
    · cases ho
    · cases ho
      exact (hfound _ rfl).extends hu.database
    · cases ho

/-! Reads -/

theorem mem_readStream {db : Database} {t id : String} {e : StoredEvent} :
    e ∈ db.readStream t id ↔ e ∈ db.events ∧ e.entityType = t ∧ e.entityId = id := by
  unfold Database.readStream
  rw [(List.perm_insertionSort _ _).mem_iff]
  simp

theorem readStream_promises (t id : String) :
    Promises svc commands may (fun events u => ∀ e ∈ events, e ∈ u.database.events ∧ e.entityType = t ∧ e.entityId = id)
      (issue (.readStream t id)) w := by
  refine perform_promises (by simp [WritesNothing]) ?_
  intro u _ events _ _ hev u' hu e he
  simp only [Service.exec, StoreOp.exec, Except.ok.injEq] at hev hu
  subst hev
  obtain ⟨hm, hs⟩ := mem_readStream.mp he
  exact ⟨hu.log hm, hs⟩

theorem getBinding_promises (hw : Lawful svc commands w) (bundleId : String) :
    Promises svc commands may (fun b t => Registered t.database.events bundleId b) (getBinding bundleId) w := by
  refine Prog.Yields.bind hw (readStream_promises "task" bundleId) fun events t _ _ hev => ?_
  refine Prog.Yields.ofExcept fun b hb u hu _ => ?_
  unfold registeredBinding at hb
  cases hf : events.find? (fun e => decide (e.eventType = "task.registered")) with
  | none => simp [hf] at hb
  | some e =>
    simp only [hf] at hb
    obtain ⟨hm, ht, hid⟩ := hev e (List.mem_of_find?_eq_some hf)
    exact ⟨e, hu.log hm, ht, hid, by simpa using List.find?_some hf, hb⟩

theorem proofEvent_promises (hw : Lawful svc commands w) (proofId : String) :
    Promises svc commands may (fun e t => Submitted t.database.events proofId e) (proofEvent proofId) w := by
  refine Prog.Yields.bind hw (readStream_promises "proof" proofId) fun events t _ _ hev => ?_
  refine Prog.Yields.ofExcept fun e he u hu _ => ?_
  unfold submittedProof at he
  cases hf : events.find? (fun e => decide (e.eventType = "proof.submitted")) with
  | none => simp [hf] at he
  | some e' =>
    simp only [hf, Except.ok.injEq] at he
    subst he
    obtain ⟨hm, ht, hid⟩ := hev e' (List.mem_of_find?_eq_some hf)
    exact ⟨hu.log hm, ht, hid, by simpa using List.find?_some hf⟩

theorem assertLease_promises (bundleId : String) (lease : Lease) :
    Promises svc commands may (fun _ _ => True) (assertLease bundleId lease) w :=
  promises_of_reads (assertLease_reads bundleId lease)

theorem putModel_promises (content : Artifact) :
    Promises svc commands may (fun r _ => r = svc.reference content) (putModel content) w := by
  refine perform_promises (by simp [WritesNothing]) ?_
  intro t input r _ _ hr u _
  simp only [Service.exec] at hr
  obtain ⟨_, -, hr⟩ := bind_eq_ok.mp hr
  exact ((pure_eq_ok _ _).mp hr).symm

theorem jsonObject_promises (fields : JsonObject) :
    Promises svc commands may (fun payload _ => payload = fields) (raising (jsonObject fields)) w :=
  raising_promises.mono fun _ _ _ h => ((pure_eq_ok _ _).mp (ensure_bind_eq_ok.mp h).2).symm

theorem verifyAttestation_promises (attestation : Attestation) (purpose : AttestationPurpose)
    (payload : AttestationPayload) :
    Promises svc commands may (fun _ _ => ∃ now, svc.verifies now attestation purpose payload = true)
      (verifyAttestation attestation purpose payload) w := by
  refine perform_promises (by simp [WritesNothing]) ?_
  intro t input a _ _ ha u _
  exact ⟨input.readings.now, ensure_eq_ok.mp ha⟩

/-- A handler that only raises leaves what the guarded part returns. -/
theorem rethrow_promises {p : Call α} {f : ControlPlaneError → Call α} {Q : α → World → Prop} (hw : Lawful svc commands w)
    (h : Promises svc commands may Q p w) (hf : ∀ e, ∃ e', f e = throw e') :
    Promises svc commands may Q (tryCatch p f) w := by
  refine Prog.Yields.handle hw h fun e t _ _ => ?_
  obtain ⟨e', he⟩ := hf e
  rw [he]
  exact Prog.Yields.throw

theorem readCanonicalJsonArtifact_promises (hw : Lawful svc commands w) (digest label : String) :
    Promises svc commands may (fun content t => t.blobs digest = some content)
      (Service.readCanonicalJsonArtifact digest label) w := by
  unfold Service.readCanonicalJsonArtifact
  refine Prog.Yields.bind hw (Q := fun content t => t.blobs digest = some content)
    (rethrow_promises hw (perform_promises (by simp [WritesNothing]) ?_) (rejectArtifact_throws _)) ?_
  · intro t input content _ _ hc u hu
    simp only [Service.exec] at hc hu
    unfold Service.readBlob at hc
    obtain ⟨-, hc⟩ := ensure_bind_eq_ok.mp hc
    cases hb : t.blobs digest with
    | none => simp [hb] at hc
    | some found =>
      simp only [hb] at hc
      obtain ⟨-, hc⟩ := ensure_bind_eq_ok.mp hc
      cases (pure_eq_ok _ _).mp hc
      exact hu.blobs _ _ hb
  · intro content t _ _ hcontent
    refine Prog.Yields.ofExcept fun content' hc u hu _ => ?_
    unfold Service.canonicalJson at hc
    split at hc
    · cases hc
    · cases hc
      exact hu.blobs _ _ hcontent

/-! Writes -/

/-- A batch found under a key of the present log is one recorded event. -/
theorem firstEvent_bound (hw : Lawful svc commands w) {v : Idempotency} {events : List StoredEvent} {e : StoredEvent}
    (hb : w.database.BoundTo v.primaryKey v.requestHash events) (he : firstEvent events = .ok e) : events = [e] := by
  obtain ⟨_, _, e', _, rfl, -⟩ := hw.bound hb
  cases he
  rfl

/-- A write's result is what its key stands for from then on. -/
theorem keyedWrite_promises {call : AppendCall} {v : Idempotency} (hv : call.batch.idempotency = some v)
    (hc : svc.Commits w.database.events w.blobs (commands i) call) :
    Promises svc commands may (fun events t => t.database.BoundTo v.primaryKey v.requestHash events)
      (issue (.write call)) w := by
  refine write_promises hc ?_
  intro t input events db _ _ _ hx u hu _
  exact (AppendCall.transaction_binds hx hv).extends hu.database

/-- The tail of every command that writes: the first event of what its key stands for. -/
theorem firstEvent_promises (hw : Lawful svc commands w) {p : Call (List StoredEvent)} {v : Idempotency}
    (hp : Promises svc commands may (fun events t => t.database.BoundTo v.primaryKey v.requestHash events) p w) :
    Promises svc commands may (fun e t => t.database.BoundTo v.primaryKey v.requestHash [e])
      (do let events ← p; raising (firstEvent events)) w := by
  refine Prog.Yields.bind hw hp fun events t _ hi hb => ?_
  refine Prog.Yields.ofExcept fun e he u hu hiu => ?_
  have hb' := hb.extends hu.database
  rwa [firstEvent_bound hiu hb' he] at hb'

/-! `register_bundle` -/

theorem verifyBuilderAttestation_promises (hw : Lawful svc commands w) (bundle : FormalizationTaskBundle) :
    Promises svc commands may (fun a _ => bundle.builderAttestation = some a ∧ ∃ now,
        svc.verifies now a .builderFreeze (builderAttestationPayload svc.hashing bundle.toHandoff) = true)
      (svc.verifyBuilderAttestation bundle) w := by
  unfold Service.verifyBuilderAttestation
  cases ha : bundle.builderAttestation with
  | none => exact Prog.Yields.throw
  | some attestation =>
    refine Prog.Yields.bind hw (rethrow_promises hw (verifyAttestation_promises _ _ _) (rejectAttestation_throws _)) ?_
    intro _ _ _ _ hv
    exact Prog.Yields.pure fun _ _ _ => ⟨rfl, hv⟩

theorem verifyBuilderFidelityArtifact_promises (hw : Lawful svc commands w) (bundle : Handoff) :
    Promises svc commands may (fun p t => svc.Reviewed t.blobs bundle p.2) (svc.verifyBuilderFidelityArtifact bundle) w := by
  unfold Service.verifyBuilderFidelityArtifact
  cases hf : bundle.fidelityEvidence with
  | none =>
    refine Prog.Yields.bind hw raising_promises fun _ _ _ _ _ => ?_
    exact Prog.Yields.pure fun _ _ _ => ⟨hf, ensure_eq_ok.mp ‹_›⟩
  | some r =>
    refine Prog.Yields.bind hw (rethrow_promises hw (promises_of_reads (.perform trivial))
      (rejectArtifact_throws _)) fun _ t₁ _ h₁ _ => ?_
    refine Prog.Yields.bind h₁ (readCanonicalJsonArtifact_promises h₁ _ _) fun content t₂ _ h₂ hcontent => ?_
    refine Prog.Yields.bind h₂ raising_promises fun payload t₃ e₃ h₃ hpayload => ?_
    refine Prog.Yields.bind h₃ raising_promises fun assurance t₄ e₄ _ hreview => ?_
    refine Prog.Yields.pure fun u hu _ => ⟨r, payload, hf, ?_, hreview⟩
    cases content with
    | json fields =>
      cases (pure_eq_ok _ _).mp (ensure_bind_eq_ok.mp hpayload).2
      exact hu.blobs _ _ (e₄.blobs _ _ (e₃.blobs _ _ hcontent))
    | _ => cases hpayload

/-- A key of `register_bundle` stands for a registration event. -/
theorem registration_of_bound (hw : Lawful svc commands w) {v : Idempotency} {e : StoredEvent}
    (hb : w.database.BoundTo v.primaryKey v.requestHash [e]) (hscope : v.scope = "register_bundle") :
    e ∈ w.database.events ∧ e.entityType = "task" ∧ e.eventType = "task.registered" := by
  obtain ⟨j, call, e', _, he, hmem, hc, ha, hs, -⟩ := hw.bound hb
  cases he
  rw [show v.primaryKey.1 = "register_bundle" from hscope] at hs
  generalize commands j = command at hc hs
  cases hc with
  | registered =>
    obtain ⟨new, hnew, hnt⟩ := ha.eventType
    cases hnew
    exact ⟨hmem, ha.entityType, hnt.symm⟩
  | claimed | submitted | gap | change | verdict => simp [Command.scope] at hs

/-- What a registration event reads back as is registered under its own bundle ID. -/
theorem Lawful.registered_of_event (hw : Lawful svc commands w) {e : StoredEvent} (he : e ∈ w.database.events)
    (ht : e.entityType = "task") (het : e.eventType = "task.registered") {b : TaskBinding}
    (hdec : bindingFromPayload e.payload = .ok b) : Registered w.database.events b.bundleId b := by
  obtain ⟨_, bundle, assurance, -, hid, -, hb⟩ := hw.registered (List.Subset.refl _) ⟨e, he, ht, rfl, het, hdec⟩
  refine ⟨e, he, ht, ?_, het, hdec⟩
  rw [hid, hb]
  rfl

theorem registerNew_promises (hw : Lawful svc commands w) {bundle : FormalizationTaskBundle} {key : String}
    {v : Idempotency} (hcmd : commands i = .registerBundle bundle key)
    (hv : svc.idempotency "register_bundle" key (svc.registerRequest bundle) = .ok v) :
    Promises svc commands may (fun b t => Registered t.database.events b.bundleId b) (svc.registerNew bundle v) w := by
  unfold Service.registerNew
  refine Prog.Yields.bind hw (verifyBuilderAttestation_promises hw bundle) fun attestation t₁ _ h₁ hsigned => ?_
  obtain ⟨hsigned, now, haccepted⟩ := hsigned
  refine Prog.Yields.bind h₁ (verifyBuilderFidelityArtifact_promises h₁ _) fun p t₂ _ h₂ hreview => ?_
  obtain ⟨r, assurance⟩ := p
  refine Prog.Yields.bind h₂ (putModel_promises _) fun artifact t₃ e₃ h₃ hartifact => ?_
  refine Prog.Yields.bind h₃ (jsonObject_promises _) fun payload t₄ e₄ h₄ hpayload => ?_
  subst hartifact hpayload
  have hc : svc.Commits t₄.database.events t₄.blobs (commands i) (svc.registrationCall bundle assurance attestation v) := by
    rw [hcmd]
    exact .registered hv hsigned haccepted ((hreview.mono e₃.blobs).mono e₄.blobs)
  refine Prog.Yields.bind h₄ (rethrow_promises h₄ (keyedWrite_promises rfl hc) registrationError_throws)
    fun events t₅ _ h₅ hbound => ?_
  refine Prog.Yields.ofExcept fun b hb u hu hi => ?_
  unfold Service.storedBinding at hb
  obtain ⟨event, hevent, hb⟩ := bind_eq_ok.mp hb
  obtain ⟨stored, hstored, hb⟩ := bind_eq_ok.mp hb
  have heq := (pure_eq_ok _ _).mp (ensure_bind_eq_ok.mp hb).2
  subst heq
  have hbound' := hbound.extends hu.database
  rw [firstEvent_bound hi hbound' hevent] at hbound'
  obtain ⟨hmem, ht, het⟩ := registration_of_bound hi hbound' (Service.idempotency_ok hv).1
  exact hi.registered_of_event hmem ht het hstored

theorem registerBundle_promises (hw : Lawful svc commands w) {bundle : FormalizationTaskBundle} {key : String}
    (hcmd : commands i = .registerBundle bundle key) :
    Promises svc commands may (fun b t => Registered t.database.events b.bundleId b) (svc.registerBundle bundle key) w := by
  unfold Service.registerBundle
  refine Prog.Yields.bind hw raising_promises fun _ t₁ _ h₁ _ => ?_
  refine Prog.Yields.bind h₁ raising_promises fun v t₂ _ h₂ hv => ?_
  refine Prog.Yields.bind h₂ (replayedEvent_promises h₂ v) fun o t₃ _ h₃ ho => ?_
  cases o with
  | none => exact registerNew_promises h₃ hcmd hv
  | some e =>
    refine Prog.Yields.ofExcept fun b hb u hu hi => ?_
    obtain ⟨hmem, ht, het⟩ := registration_of_bound hi ((ho e rfl).extends hu.database) (Service.idempotency_ok hv).1
    exact hi.registered_of_event hmem ht het hb

/-! `claim` -/

/-- A claim that is about to append finds, where its key and request are recorded already,
the holder and the token it is about to record. -/
def ReplaysOwnLease (w : World) (op : ServiceOp) (_ : ServiceInput) : Prop :=
  ∀ bundleId payload v expected e,
    op = .store (.write (.append ⟨"task", bundleId, [⟨"task.claimed", payload, []⟩], some v, none⟩ expected)) →
    w.database.BoundTo v.primaryKey v.requestHash [e] →
    e.payload.get "worker_id" = payload.get "worker_id" ∧ e.payload.get "fencing_token" = payload.get "fencing_token"

/-- The lease of a receipt is the one its event records. -/
structure Service.ClaimReceipt.Matches (r : Service.ClaimReceipt) : Prop where
  eventType : r.event.eventType = "task.claimed"
  holder : r.event.payload.get "worker_id" = some (.str r.lease.holderId)
  token : r.event.payload.get "fencing_token" = some (.int r.lease.fencingToken)

/-- A key of `claim` stands for a claim event. -/
theorem claimed_of_bound (hw : Lawful svc commands w) {v : Idempotency} {e : StoredEvent}
    (hb : w.database.BoundTo v.primaryKey v.requestHash [e]) (hscope : v.scope = "claim") :
    e.eventType = "task.claimed" := by
  obtain ⟨j, call, e', _, he, -, hc, ha, hs, -⟩ := hw.bound hb
  cases he
  rw [show v.primaryKey.1 = "claim" from hscope] at hs
  generalize commands j = command at hc hs
  cases hc with
  | claimed =>
    obtain ⟨new, hnew, hnt⟩ := ha.eventType
    cases hnew
    exact hnt.symm
  | registered | submitted | gap | change | verdict => simp [Command.scope] at hs

theorem claimReceiptFromEvent_matches {bundleId : String} {e : StoredEvent} {r : Service.ClaimReceipt}
    (hr : svc.claimReceiptFromEvent bundleId e = .ok r) (ht : e.eventType = "task.claimed") : r.event = e ∧ r.Matches := by
  unfold Service.claimReceiptFromEvent at hr
  obtain ⟨text, -, hr⟩ := bind_eq_ok.mp hr
  cases hd : svc.fromIsoformat text with
  | none => simp [hd] at hr
  | some expiresAt =>
    simp only [hd] at hr
    obtain ⟨holder, hholder, hr⟩ := bind_eq_ok.mp hr
    obtain ⟨token, htoken, hr⟩ := bind_eq_ok.mp hr
    obtain ⟨hpos, hr⟩ := ensure_bind_eq_ok.mp hr
    obtain ⟨lease, hlease, hr⟩ := bind_eq_ok.mp hr
    cases (pure_eq_ok _ _).mp hr
    obtain ⟨-, hh, hn, -⟩ := LeaseTables.make_fields hlease
    refine ⟨rfl, ht, ?_, ?_⟩
    · rw [hh]
      exact (requiredText_ok hholder).1
    · rw [hn]
      have hint := requiredInt_ok htoken
      rw [Int.toNat_of_nonneg (le_of_lt hpos)]
      exact hint

/-- The operation returns the lease of the job and the holder it was asked for. -/
theorem claimLease_promises (jobId holderId : String) (ttl : ℚ) :
    Promises svc commands may (fun l _ => l.jobId = jobId ∧ l.holderId = holderId)
      (issue (.claimLease jobId holderId ttl)) w := by
  refine perform_promises (by simp [WritesNothing]) ?_
  intro t input l _ _ hl _ _
  simp only [Service.exec, StoreOp.exec] at hl
  cases hx : t.database.leases.claim jobId holderId ttl input.readings.now with
  | error e => simp [hx, onLeases] at hl
  | ok res =>
    obtain ⟨l', tables⟩ := res
    simp only [hx, onLeases, Except.ok.injEq] at hl
    subst hl
    obtain ⟨hj, hh, -⟩ := LeaseTables.claim_cases hx
    exact ⟨hj, hh⟩

/-- What a claim returns: the event its key stands for, under the lease it records if
every claim replays its own. -/
def ClaimHolds (may : World → (op : ServiceOp) → ServiceInput → Prop) (v : Idempotency) (r : Service.ClaimReceipt)
    (w : World) : Prop :=
  w.database.BoundTo v.primaryKey v.requestHash [r.event] ∧
    ((∀ t op input, may t op input → ReplaysOwnLease t op input) → r.Matches)

/-- A claim's append returns its own event, or a recorded one of the same request. -/
theorem claimWrite_promises {bundleId workerId : String} {lease : Lease} {v : Idempotency} {expected : Nat}
    (hc : svc.Commits w.database.events w.blobs (commands i) (svc.claimCall bundleId workerId lease v expected)) :
    Promises svc commands may (fun events t => t.database.BoundTo v.primaryKey v.requestHash events ∧
        ((∀ t op input, may t op input → ReplaysOwnLease t op input) → ∀ e, events = [e] →
          e.payload.get "worker_id" = some (.str workerId) ∧
          e.payload.get "fencing_token" = some (.int lease.fencingToken)))
      (issue (.write (svc.claimCall bundleId workerId lease v expected))) w := by
  refine write_promises hc ?_
  intro t input events db hi _ hm hx u hu _
  refine ⟨(AppendCall.transaction_binds hx rfl).extends hu.database, fun hmay e he => ?_⟩
  generalize hcall : svc.claimCall bundleId workerId lease v expected = call at hx
  cases AppendCall.transaction_outcome hx with
  | replayed hrep _ =>
    obtain ⟨v', hv', hb⟩ := Database.replays_iff.mp hrep
    subst hcall he
    cases hv'
    exact hmay _ _ _ hm bundleId _ v expected e rfl hb
  | linked _ _ _ => cases hcall
  | written _ hw _ _ =>
    subst hcall
    cases he
    exact ⟨rfl, rfl⟩

theorem claimNew_promises (hw : Lawful svc commands w) {bundleId workerId key : String} {ttlSeconds : PyFloat}
    {v : Idempotency} (hcmd : commands i = .claim bundleId workerId ttlSeconds key)
    (hv : svc.idempotency "claim" key (.claim bundleId workerId ttlSeconds) = .ok v) :
    Promises svc commands may (ClaimHolds may v) (svc.claimNew bundleId workerId ttlSeconds v) w := by
  unfold Service.claimNew
  refine Prog.Yields.bind hw (getBinding_promises hw bundleId) fun binding t₁ _ h₁ hreg => ?_
  refine Prog.Yields.bind h₁ raising_promises fun ttl t₂ e₂ h₂ _ => ?_
  refine Prog.Yields.bind h₂ (claimLease_promises _ _ _) fun lease t₃ e₃ h₃ hlease => ?_
  refine Prog.Yields.bind h₃ (jsonObject_promises _) fun payload t₄ e₄ h₄ hpayload => ?_
  refine Prog.Yields.bind h₄ (promises_of_reads (.perform trivial)) fun expected t₅ e₅ h₅ _ => ?_
  subst hpayload
  have hc : svc.Commits t₅.database.events t₅.blobs (commands i) (svc.claimCall bundleId workerId lease v expected) := by
    rw [hcmd]
    exact .claimed hv (hreg.mono ((e₂.trans (e₃.trans (e₄.trans e₅))).log)) hlease.1 hlease.2
  refine Prog.Yields.bind h₅ (claimWrite_promises hc) fun events t₆ _ h₆ hbound => ?_
  refine Prog.Yields.bind h₆ raising_promises fun e t₇ e₇ h₇ hfirst => ?_
  refine Prog.Yields.pure fun u hu hi => ?_
  have hb := hbound.1.extends (e₇.trans hu).database
  have hevents := firstEvent_bound hi hb hfirst
  rw [hevents] at hb
  refine ⟨hb, fun hmay => ?_⟩
  obtain ⟨hholder, htoken⟩ := hbound.2 hmay e hevents
  exact ⟨claimed_of_bound hi hb (Service.idempotency_ok hv).1, by rw [hholder, hlease.2], htoken⟩

theorem claim_promises (hw : Lawful svc commands w) {bundleId workerId key : String} {ttlSeconds : PyFloat}
    (hcmd : commands i = .claim bundleId workerId ttlSeconds key) :
    Promises svc commands may (fun r t => ∃ v, svc.idempotency "claim" key (.claim bundleId workerId ttlSeconds) = .ok v ∧
      ClaimHolds may v r t) (svc.claim bundleId workerId ttlSeconds key) w := by
  unfold Service.claim
  refine Prog.Yields.bind hw raising_promises fun v t₁ _ h₁ hv => ?_
  refine Prog.Yields.bind h₁ (replayedEvent_promises h₁ v) fun o t₂ _ h₂ ho => ?_
  cases o with
  | none => exact (claimNew_promises h₂ hcmd hv).mono fun r t _ h => ⟨v, hv, h⟩
  | some e =>
    refine Prog.Yields.ofExcept fun r hr u hu hi => ?_
    have hb := (ho e rfl).extends hu.database
    obtain ⟨he, hmatch⟩ := claimReceiptFromEvent_matches hr (claimed_of_bound hi hb (Service.idempotency_ok hv).1)
    exact ⟨v, hv, by rwa [he], fun _ => hmatch⟩

/-! The fenced commands -/

/-- What a fenced command returns is the event its key stands for. -/
abbrev AnswersKey (x : Raises Idempotency) (e : StoredEvent) (t : World) : Prop :=
  ∃ v, x = .ok v ∧ t.database.BoundTo v.primaryKey v.requestHash [e]

/-- A fenced command answers a recorded key with the recorded event. -/
theorem replayOr_promises (hw : Lawful svc commands w) {x : Raises Idempotency} {p : Idempotency → Call StoredEvent}
    (hp : ∀ v t, Lawful svc commands t → x = .ok v →
      Promises svc commands may (fun e u => u.database.BoundTo v.primaryKey v.requestHash [e]) (p v) t) :
    Promises svc commands may (AnswersKey x)
      (do
        let v ← raising x
        match ← replayedEvent v with
        | some replayed => pure replayed
        | none => p v) w := by
  refine Prog.Yields.bind hw raising_promises fun v t₁ _ h₁ hv => ?_
  refine Prog.Yields.bind h₁ (replayedEvent_promises h₁ v) fun o t₂ _ h₂ ho => ?_
  cases o with
  | none => exact (hp v t₂ h₂ hv).mono fun _ _ _ hb => ⟨v, hv, hb⟩
  | some e => exact Prog.Yields.pure fun u hu hi => ⟨v, hv, (ho e rfl).extends hu.database⟩

theorem submitProof_promises (hw : Lawful svc commands w) {bundleId key : String} {lease : Lease}
    {submission : ProofSubmission} (hcmd : commands i = .submitProof bundleId lease submission key) :
    Promises svc commands may
      (AnswersKey (svc.idempotency "submit_proof" key (.submitProof bundleId lease.identity submission)))
      (svc.submitProof bundleId lease submission key) w := by
  refine replayOr_promises hw fun v t ht hv => ?_
  unfold Service.submitNew
  refine Prog.Yields.bind ht (getBinding_promises ht bundleId) fun binding t₁ _ h₁ hreg => ?_
  refine Prog.Yields.bind h₁ (assertLease_promises _ _) fun _ t₂ e₂ h₂ _ => ?_
  refine Prog.Yields.bind h₂ raising_promises fun _ t₃ e₃ h₃ hbound => ?_
  refine Prog.Yields.bind h₃ raising_promises fun _ t₄ e₄ h₄ hcomplete => ?_
  refine Prog.Yields.bind h₄ (putModel_promises _) fun artifact t₅ e₅ h₅ hartifact => ?_
  refine Prog.Yields.bind h₅ (jsonObject_promises _) fun payload t₆ e₆ h₆ hpayload => ?_
  subst hartifact hpayload
  refine firstEvent_promises h₆ (keyedWrite_promises (i := i) (v := v) rfl ?_)
  rw [hcmd]
  exact .submitted hv (hreg.mono (e₂.trans (e₃.trans (e₄.trans (e₅.trans e₆)))).log) hbound (ensure_eq_ok.mp hcomplete)

theorem reportGap_promises (hw : Lawful svc commands w) {bundleId key : String} {lease : Lease} {report : GapReport}
    (hcmd : commands i = .reportGap bundleId lease report key) :
    Promises svc commands may (AnswersKey (svc.idempotency "report_gap" key (.reportGap bundleId lease.identity report)))
      (svc.reportGap bundleId lease report key) w := by
  refine replayOr_promises hw fun v t ht hv => ?_
  unfold Service.reportNew
  refine Prog.Yields.bind ht (getBinding_promises ht bundleId) fun binding t₁ _ h₁ hreg => ?_
  refine Prog.Yields.bind h₁ (assertLease_promises _ _) fun _ t₂ e₂ h₂ _ => ?_
  refine Prog.Yields.bind h₂ raising_promises fun _ t₃ e₃ h₃ hbound => ?_
  refine Prog.Yields.bind h₃ (putModel_promises _) fun artifact t₄ e₄ h₄ hartifact => ?_
  refine Prog.Yields.bind h₄ (jsonObject_promises _) fun payload t₅ e₅ h₅ hpayload => ?_
  subst hartifact hpayload
  refine firstEvent_promises h₅ (keyedWrite_promises (i := i) (v := v) rfl ?_)
  rw [hcmd]
  exact .gap hv (hreg.mono (e₂.trans (e₃.trans (e₄.trans e₅))).log) hbound

theorem requestContractChange_promises (hw : Lawful svc commands w) {bundleId key : String} {lease : Lease}
    {request : ContractChangeRequest} (hcmd : commands i = .requestContractChange bundleId lease request key) :
    Promises svc commands may
      (AnswersKey (svc.idempotency "request_contract_change" key (.requestContractChange bundleId lease.identity request)))
      (svc.requestContractChange bundleId lease request key) w := by
  refine replayOr_promises hw fun v t ht hv => ?_
  unfold Service.requestNew
  refine Prog.Yields.bind ht (getBinding_promises ht bundleId) fun binding t₁ _ h₁ hreg => ?_
  refine Prog.Yields.bind h₁ (assertLease_promises _ _) fun _ t₂ e₂ h₂ _ => ?_
  refine Prog.Yields.bind h₂ raising_promises fun _ t₃ e₃ h₃ hbound => ?_
  refine Prog.Yields.bind h₃ (putModel_promises _) fun artifact t₄ e₄ h₄ hartifact => ?_
  refine Prog.Yields.bind h₄ (jsonObject_promises _) fun payload t₅ e₅ h₅ hpayload => ?_
  subst hartifact hpayload
  refine firstEvent_promises h₅ (keyedWrite_promises (i := i) (v := v) rfl ?_)
  rw [hcmd]
  exact .change hv (hreg.mono (e₂.trans (e₃.trans (e₄.trans e₅))).log) hbound

/-! `verify_submission` -/

theorem attested_promises (hw : Lawful svc commands w) (attestation : Attestation) (payload : AttestationPayload) :
    Promises svc commands may (fun b _ => b = true → ∃ now, svc.verifies now attestation .verification payload = true)
      (attested attestation payload) w := by
  unfold attested
  refine Prog.Yields.handle hw (Prog.Yields.bind hw (verifyAttestation_promises _ _ _) ?_) ?_
  · exact fun _ _ _ _ hv => Prog.Yields.pure fun _ _ _ _ => hv
  · intro e t _ _
    split
    · exact Prog.Yields.pure fun _ _ _ h => by cases h
    · exact Prog.Yields.throw

theorem verifySignature_promises (hw : Lawful svc commands w) (binding : TaskBinding) (report : VerificationReport)
    (attestation : Attestation) (context : VerificationSigningContext) (gateway : VerificationSigningLeaseBinding)
    (lease : Lease) :
    Promises svc commands may (fun _ _ => ∃ now,
        svc.verifies now attestation .verification (gatewayAttestationPayload svc gateway context) = true ∨
        svc.allowTestOnlyDirectVerifierAttestations = true ∧
        svc.verifies now attestation .verification (verificationAttestationPayload svc.hashing binding.bundleId
          binding.bundleHash context.proofSubmissionArtifactDigest binding.contractId binding.revision report) = true)
      (verifySignature svc binding report attestation context gateway lease) w := by
  unfold verifySignature
  refine Prog.Yields.bind hw (attested_promises hw _ _) fun b t₁ _ h₁ hb => ?_
  cases b with
  | true =>
    obtain ⟨now, hnow⟩ := hb rfl
    refine Prog.Yields.bind h₁ raising_promises fun _ _ _ _ _ => ?_
    exact Prog.Yields.pure fun _ _ _ => ⟨now, .inl hnow⟩
  | false =>
    refine Prog.Yields.bind h₁ raising_promises fun _ t₂ _ h₂ hallow => ?_
    refine Prog.Yields.bind h₂ (rethrow_promises h₂ (verifyAttestation_promises _ _ _) (rejectAttestation_throws _)) ?_
    intro _ _ _ _ hv
    obtain ⟨now, hnow⟩ := hv
    exact Prog.Yields.pure fun _ _ _ => ⟨now, .inr ⟨ensure_eq_ok.mp hallow, hnow⟩⟩

theorem requireAttestation_ok {report : VerificationReport} {p : Attestation × VerificationEvidence}
    (h : requireAttestation report = .ok p) : report.verifierAttestation = some p.1 ∧ report.evidence = some p.2 := by
  unfold requireAttestation at h
  split at h
  · cases h
  · cases h
  · rename_i attestation evidence ha he
    cases h
    exact ⟨ha, he⟩

theorem verifyVerificationAttestation_promises (hw : Lawful svc commands w) (binding : TaskBinding)
    (report : VerificationReport) (proof : JsonObject) (lease : Lease) :
    Promises svc commands may (fun a _ => report.verifierAttestation = some a ∧ svc.Attested binding report proof lease a)
      (verifyVerificationAttestation svc binding report proof lease) w := by
  unfold verifyVerificationAttestation
  refine Prog.Yields.bind hw raising_promises fun p t₁ _ h₁ hp => ?_
  obtain ⟨attestation, evidence⟩ := p
  obtain ⟨ha, he⟩ := requireAttestation_ok hp
  refine Prog.Yields.bind h₁ raising_promises fun q t₂ _ h₂ hq => ?_
  obtain ⟨digest, dependencyHash⟩ := q
  refine Prog.Yields.bind h₂ raising_promises fun _ t₃ _ h₃ _ => ?_
  refine Prog.Yields.bind h₃ raising_promises fun _ t₄ _ h₄ _ => ?_
  refine Prog.Yields.bind h₄ raising_promises fun context t₅ _ h₅ hcontext => ?_
  refine Prog.Yields.bind h₅ raising_promises fun gateway t₆ _ h₆ hgateway => ?_
  refine Prog.Yields.bind h₆ (verifySignature_promises h₆ _ _ _ _ _ _) fun authoritative t₇ _ h₇ hsig => ?_
  obtain ⟨now, hsig⟩ := hsig
  refine Prog.Yields.bind h₇ (promises_of_reads (readVerificationEvidenceArtifact_reads _)) fun artifact t₈ _ h₈ _ => ?_
  refine Prog.Yields.bind h₈ (promises_of_reads
    (validateVerificationEvidenceArtifact_reads _ _ _ _ _ _ _ _)) fun _ t₉ _ _ _ => ?_
  exact Prog.Yields.pure fun _ _ _ =>
    ⟨ha, now, evidence, digest, dependencyHash, context, gateway, he, hq, hcontext, hgateway, hsig⟩

theorem verifyNew_promises (hw : Lawful svc commands w) {bundleId key : String} {lease : Lease}
    {report : VerificationReport} {v : Idempotency} (hcmd : commands i = .verifySubmission bundleId lease report key)
    (hv : svc.idempotency "verify_submission" key (.verifySubmission bundleId lease.identity report) = .ok v) :
    Promises svc commands may (fun o t => t.database.BoundTo v.primaryKey v.requestHash [o.event])
      (svc.verifyNew bundleId lease report v) w := by
  unfold Service.verifyNew
  refine Prog.Yields.bind hw (getBinding_promises hw bundleId) fun binding t₁ _ h₁ hreg => ?_
  refine Prog.Yields.bind h₁ (assertLease_promises _ _) fun _ t₂ e₂ h₂ _ => ?_
  refine Prog.Yields.bind h₂ (proofEvent_promises h₂ _) fun proof t₃ e₃ h₃ hproof => ?_
  refine Prog.Yields.bind h₃ raising_promises fun _ t₄ e₄ h₄ hbound => ?_
  refine Prog.Yields.bind h₄ (verifyVerificationAttestation_promises h₄ _ _ _ _) fun attestation t₅ e₅ h₅ hatt => ?_
  refine Prog.Yields.bind h₅ (putModel_promises _) fun artifact t₆ e₆ h₆ hartifact => ?_
  refine Prog.Yields.bind h₆ (jsonObject_promises _) fun payload t₇ e₇ h₇ hpayload => ?_
  subst hartifact hpayload
  have e₄₇ := e₄.trans (e₅.trans (e₆.trans e₇))
  have hc : svc.Commits t₇.database.events t₇.blobs (commands i) (svc.verdictCall bundleId lease report
      (verificationFailures binding report.toVerificationObservation) attestation v) := by
    rw [hcmd]
    exact .verdict hv (hreg.mono (e₂.trans (e₃.trans e₄₇)).log) (hproof.mono e₄₇.log) hbound hatt.1 hatt.2
  refine Prog.Yields.bind h₇ (rethrow_promises h₇ (keyedWrite_promises (v := v) rfl hc) verdictError_throws)
    fun events t₈ _ h₈ hevents => ?_
  refine Prog.Yields.bind h₈ raising_promises fun e t₉ e₉ h₉ hfirst => ?_
  refine Prog.Yields.pure fun u hu hi => ?_
  have hb := hevents.extends (e₉.trans hu).database
  rwa [firstEvent_bound hi hb hfirst] at hb

theorem verifySubmission_promises (hw : Lawful svc commands w) {bundleId key : String} {lease : Lease}
    {report : VerificationReport} (hcmd : commands i = .verifySubmission bundleId lease report key) :
    Promises svc commands may
      (fun o => AnswersKey (svc.idempotency "verify_submission" key (.verifySubmission bundleId lease.identity report)) o.event)
      (svc.verifySubmission bundleId lease report key) w := by
  unfold Service.verifySubmission
  refine Prog.Yields.bind hw raising_promises fun v t₁ _ h₁ hv => ?_
  refine Prog.Yields.bind h₁ (replayedEvent_promises h₁ v) fun o t₂ _ h₂ ho => ?_
  cases o with
  | none => exact (verifyNew_promises h₂ hcmd hv).mono fun _ _ _ hb => ⟨v, hv, hb⟩
  | some e =>
    refine Prog.Yields.ofExcept fun r hr u hu hi => ?_
    have hevent : r.event = e := by
      unfold verificationOutcomeFromEvent at hr
      split at hr
      · obtain ⟨_, -, hr⟩ := bind_eq_ok.mp hr
        obtain ⟨_, -, hr⟩ := bind_eq_ok.mp hr
        obtain ⟨_, -, hr⟩ := bind_eq_ok.mp hr
        cases (pure_eq_ok _ _).mp hr
        rfl
      · cases hr
    rw [hevent]
    exact ⟨v, hv, (ho e rfl).extends hu.database⟩

/-! Every command -/

/-- What a command's reply means in every later world. -/
def ReplyHolds (svc : Service) (may : World → (op : ServiceOp) → ServiceInput → Prop) (command : Command) :
    Reply → World → Prop
  | .binding b, t => Registered t.database.events b.bundleId b
  | .receipt r, t => ∃ bundleId workerId ttlSeconds key v, command = .claim bundleId workerId ttlSeconds key ∧
      svc.idempotency "claim" key (.claim bundleId workerId ttlSeconds) = .ok v ∧ ClaimHolds may v r t
  | .event e, t => ∃ v, command.KeyedBy svc v ∧ t.database.BoundTo v.primaryKey v.requestHash [e]
  | .outcome o, t => ∃ v, command.KeyedBy svc v ∧ t.database.BoundTo v.primaryKey v.requestHash [o.event]
  | .lease _, _ | .artifact _, _ | .released, _ => True

private theorem then_reply (hw : Lawful svc commands w) {command : Command} {p : Call α} {Q : α → World → Prop}
    (f : α → Reply) (hp : Promises svc commands may Q p w)
    (hq : ∀ a t u, Q a t → Evolves t u → Lawful svc commands u → ReplyHolds svc may command (f a) u) :
    Promises svc commands may (ReplyHolds svc may command) (do let a ← p; pure (f a)) w :=
  Prog.Yields.bind hw hp fun a t _ _ ha => Prog.Yields.pure fun u hu hi => hq a t u ha hu hi

/-- Every command keeps the protocol, whatever the others do. -/
theorem program_promises (hw : Lawful svc commands w) {command : Command} (hcmd : commands i = command) :
    Promises svc commands may (ReplyHolds svc may command) (command.program svc) w := by
  have reads (op : ServiceOp) (hop : WritesNothing op) :
      Promises svc commands may (fun _ _ => True) (Prog.perform (I := serviceInterface) op) w :=
    promises_of_issues (.perform hop)
  have answered {x : Raises Idempotency} {e : StoredEvent} {scope key : String} {request : SemanticRequest} {t u : World}
      (hx : x = svc.idempotency scope key request) (hs : command.scope = some scope)
      (hr : command.request svc = some (key, request)) (h : AnswersKey x e t) (hu : Evolves t u) :
      ∃ v, command.KeyedBy svc v ∧ u.database.BoundTo v.primaryKey v.requestHash [e] := by
    obtain ⟨v, hv, hb⟩ := h
    exact ⟨v, ⟨scope, key, request, hs, hr, hx ▸ hv⟩, hb.extends hu.database⟩
  cases command with
  | registerBundle bundle key =>
    exact then_reply hw .binding (registerBundle_promises hw hcmd) fun b t u hb hu _ => hb.mono hu.log
  | claim bundleId workerId ttlSeconds key =>
    refine then_reply hw .receipt (claim_promises hw hcmd) ?_
    rintro r t u ⟨v, hv, hb, hm⟩ hu _
    exact ⟨_, _, _, _, v, rfl, hv, hb.extends hu.database, hm⟩
  | submitProof bundleId lease submission key =>
    exact then_reply hw .event (submitProof_promises hw hcmd) fun _ _ _ h hu _ => answered rfl rfl rfl h hu
  | reportGap bundleId lease report key =>
    exact then_reply hw .event (reportGap_promises hw hcmd) fun _ _ _ h hu _ => answered rfl rfl rfl h hu
  | requestContractChange bundleId lease request key =>
    exact then_reply hw .event (requestContractChange_promises hw hcmd) fun _ _ _ h hu _ => answered rfl rfl rfl h hu
  | verifySubmission bundleId lease report key =>
    exact then_reply hw .outcome (verifySubmission_promises hw hcmd) fun _ _ _ h hu _ => answered rfl rfl rfl h hu
  | getBinding bundleId =>
    refine then_reply hw .binding (getBinding_promises hw bundleId) fun b t u hb hu hi => ?_
    obtain ⟨e, he, ht, -, het, hdec⟩ := hb
    exact hi.registered_of_event (hu.log he) ht het hdec
  | claimLease jobId holderId ttlSeconds =>
    exact then_reply hw .lease (claimLease_promises _ _ _) fun _ _ _ _ _ _ => trivial
  | renewLease lease ttlSeconds =>
    exact then_reply hw .lease (reads (.store (.renewLease lease ttlSeconds)) (by simp [WritesNothing]))
      fun _ _ _ _ _ _ => trivial
  | releaseLease lease =>
    have hp : (releaseLease lease).Issues WritesNothing :=
      .bind (.perform (by simp [WritesNothing])) fun _ => .perform (by simp [WritesNothing])
    exact then_reply hw (fun _ => .released) (promises_of_issues hp) fun _ _ _ _ _ _ => trivial
  | putArtifact content =>
    exact then_reply hw .artifact (putModel_promises content) fun _ _ _ _ _ _ => trivial

/-- What holds of a thread's result once it has one. -/
def ThreadHolds (svc : Service) (commands : θ → Command) (may : World → (op : ServiceOp) → ServiceInput → Prop) (i : θ)
    (r : Raises Reply) (t : World) : Prop :=
  ∀ reply, r = .ok reply → ReplyHolds svc may (commands i) reply t

/-- Every pool of commands starts sound. -/
theorem start_sound (svc : Service) (commands : θ → Command) (may : World → (op : ServiceOp) → ServiceInput → Prop) :
    (CommandPool.start svc commands).Sound (protocol svc commands may) (ThreadHolds svc commands may) where
  inv := empty_lawful
  meets _ := program_promises empty_lawful rfl

/-- Every run of admitted steps stays sound and loses nothing. -/
theorem run_sound [DecidableEq θ] {labels : List (θ × ServiceInput)}
    (hs : StepsMeet (CommandPool.step svc) (Pool.Admits may) (CommandPool.start svc commands) labels) :
    (run (CommandPool.step svc) (CommandPool.start svc commands) labels).Sound (protocol svc commands may)
      (ThreadHolds svc commands may) :=
  ((start_sound svc commands may).run hs).1

/-- Every step is admitted. -/
def AnyStep (_ : World) (_ : ServiceOp) (_ : ServiceInput) : Prop := True

theorem run_sound_any [DecidableEq θ] (svc : Service) (commands : θ → Command) (labels : List (θ × ServiceInput)) :
    (run (CommandPool.step svc) (CommandPool.start svc commands) labels).Sound (protocol svc commands AnyStep)
      (ThreadHolds svc commands AnyStep) := by
  refine run_sound (stepsMeet_of_forall (fun c l => ?_) _ labels)
  unfold Pool.Admits
  split <;> trivial

/-- Later worlds of a run lose nothing. -/
theorem run_evolves [DecidableEq θ] {c : CommandPool θ}
    (h : c.Sound (protocol svc commands AnyStep) (ThreadHolds svc commands AnyStep)) (labels : List (θ × ServiceInput)) :
    Evolves c.state (run (CommandPool.step svc) c labels).state := by
  refine (h.run (stepsMeet_of_forall (fun c l => ?_) _ labels)).2
  unfold Pool.Admits
  split <;> trivial

/-- A step of a sound pool leaves the log as it is or records one write of the thread that
moves. -/
theorem pool_step_appends [DecidableEq θ] {post : θ → Raises Reply → World → Prop} {c : CommandPool θ}
    (h : c.Sound (protocol svc commands may) post) (l : θ × ServiceInput) :
    (CommandPool.step svc c l).state.database.events = c.state.database.events ∨
      ∃ call e k, c.threads l.1 = .call (.store (.write call)) k ∧
        Appends svc commands c.state (CommandPool.step svc c l).state l.2.readings call e := by
  cases hc : c.threads l.1 with
  | done r =>
    rw [show CommandPool.step svc c l = c from Pool.step_done svc.exec hc]
    exact .inl rfl
  | call op k =>
    have hstate : (CommandPool.step svc c l).state = (svc.exec op l.2 c.state).2 := by
      rw [show CommandPool.step svc c l = _ from Pool.step_call svc.exec hc]
    rw [hstate]
    obtain heq | ⟨call, e, rfl, happ⟩ := step_appends (h.allowed hc) l.2
    · exact .inl heq
    · exact .inr ⟨call, e, k, rfl, happ⟩

end Autolean.ControlPlane
