import Autolean.ControlPlane.Projection
import Autolean.ControlPlane.Registration
import Autolean.ControlPlane.Verdicts

/-! Registrations under every interleaving of commands: a slot is bound once, and every
client that is given a binding is given the one its slot holds. -/
namespace Autolean.ControlPlane
open Contracts Machine Raising

variable {θ : Type} {svc : Service} {commands : θ → Command} {w : World}

/-- One bundle ID, or one revision of one contract. -/
def TaskBinding.SharesSlot (b b' : TaskBinding) : Prop :=
  b.bundleId = b'.bundleId ∨ b.contractId = b'.contractId ∧ b.revision = b'.revision

/-- The hash of a request tells the commands' registrations apart. -/
def RequestsDiffer (svc : Service) (commands : θ → Command) : Prop :=
  ∀ i j bundle bundle' key key', commands i = .registerBundle bundle key → commands j = .registerBundle bundle' key' →
    svc.requestHash (svc.registerRequest bundle) = svc.requestHash (svc.registerRequest bundle') →
    svc.registerRequest bundle = svc.registerRequest bundle'

/-- The binding is one of the bundle. -/
def Service.BindsBundle (svc : Service) (bundle : FormalizationTaskBundle) (b : TaskBinding) : Prop :=
  b.bundleId = bundle.bundleId.value ∧ b.bundleHash = (svc.hashing.handoffHash bundle.toHandoff).value

/-! The keys of `register_bundle` -/

/-- The key stands for the registration of a bundle that its request names. -/
def NamesRegistration (svc : Service) (commands : θ → Command) (db : Database) (row : IdempotencyRow) : Prop :=
  ∃ i bundle key e, commands i = .registerBundle bundle key ∧
    row.requestHash = (svc.requestHash (svc.registerRequest bundle)).value ∧ row.eventIds = [e.eventId] ∧
    e ∈ db.events ∧ Database.registrationBindingFromPayload e.payload = .ok (svc.revisionBinding bundle.toHandoff)

/-- Every key of `register_bundle` does. -/
def KeysRegister (svc : Service) (commands : θ → Command) (db : Database) : Prop :=
  ∀ key row, db.idempotencyRecords key = some row → key.1 = "register_bundle" → NamesRegistration svc commands db row

theorem NamesRegistration.mono {db db' : Database} {row : IdempotencyRow} (h : NamesRegistration svc commands db row)
    (hl : db.events ⊆ db'.events) : NamesRegistration svc commands db' row := by
  obtain ⟨i, bundle, key, e, hcmd, hhash, hid, he, hp⟩ := h
  exact ⟨i, bundle, key, e, hcmd, hhash, hid, hl he, hp⟩

/-- The write of a command whose scope is `register_bundle` registers its bundle. -/
theorem Service.Commits.registers {log : List StoredEvent} {blobs : String → Option Artifact} {command : Command}
    {call : AppendCall} (h : svc.Commits log blobs command call) {v : Idempotency}
    (hv : call.batch.idempotency = some v) (hs : v.scope = "register_bundle") :
    ∃ bundle key assurance attestation, command = .registerBundle bundle key ∧
      call = svc.registrationCall bundle assurance attestation v ∧
      v.requestHash = (svc.requestHash (svc.registerRequest bundle)).value := by
  cases h with
  | registered keyed =>
    cases hv
    exact ⟨_, _, _, _, rfl, rfl, (idempotency_ok keyed).2.2⟩
  | claimed keyed | submitted keyed | gap keyed | change keyed | verdict keyed =>
    cases hv
    rw [(idempotency_ok keyed).1] at hs
    simp at hs

/-- A write that a command may make keeps the keys. -/
theorem KeysRegister.write (h : KeysRegister svc commands w.database) {i : θ} {call : AppendCall}
    (hc : svc.Commits w.database.events w.blobs (commands i) call) {r : Readings} {events : List StoredEvent}
    {db : Database} (ht : call.transaction w.database r = .ok (events, db)) : KeysRegister svc commands db := by
  cases AppendCall.transaction_outcome ht with
  | replayed _ _ => exact h
  | @linked binding event v nonce e _ hby hreg =>
    intro key row hrow hkey
    by_cases hsame : key = v.primaryKey
    · subst hsame
      simp only [Database.linked, Function.update_self, Option.some.injEq] at hrow
      subst hrow
      obtain ⟨bundle, k, _, _, hcmd, hcall, hhash⟩ := hc.registers rfl hkey
      obtain ⟨e', he', -, -, -, hp, -⟩ := hreg
      cases he'
      cases hcall
      exact ⟨i, bundle, k, e, hcmd, hhash, rfl, Database.eventsByIds_mem hby e (List.mem_singleton_self e), hp⟩
    · simp only [Database.linked, Function.update_of_ne hsame] at hrow
      exact h key row hrow hkey
  | written _ _ _ hs =>
    obtain ⟨⟨new, hnew, -⟩, v, hv⟩ := hc.batch
    obtain ⟨e, hst, hevents, hrec⟩ := written_records hnew r hs
    have hrecords : (call.written w.database r).idempotencyRecords =
        (call.batch.written w.database r).idempotencyRecords := by cases call <;> rfl
    intro key row hrow hkey
    rw [hrecords, Batch.written_records_some hv] at hrow
    by_cases hsame : key = v.primaryKey
    · subst hsame
      simp only [Function.update_self, Option.some.injEq] at hrow
      subst hrow
      obtain ⟨bundle, k, assurance, attestation, hcmd, rfl, hhash⟩ := hc.registers hv hkey
      refine ⟨i, bundle, k, e, hcmd, hhash, by simp [hst], by simp [hevents], ?_⟩
      rw [(hrec.event rfl).2]
      exact registrationBindingFromPayload_registrationPayload svc bundle assurance _
    · rw [Function.update_of_ne hsame] at hrow
      apply (h key row hrow hkey).mono
      rw [hevents]
      exact List.subset_append_left _ _

theorem KeysRegister.frame {db : Database} (h : KeysRegister svc commands w.database)
    (hl : w.database.events ⊆ db.events)
    (hr : db.idempotencyRecords = w.database.idempotencyRecords) : KeysRegister svc commands db := by
  intro key row hrow hkey
  rw [hr] at hrow
  exact (h key row hrow hkey).mono hl

/-- Every operation that a command may issue keeps the keys. -/
theorem KeysRegister.step (h : KeysRegister svc commands w.database) {op : ServiceOp} (ha : Allowed svc commands w op)
    {input : ServiceInput} (he : Evolves w (svc.exec op input w).2) :
    KeysRegister svc commands (svc.exec op input w).2.database := by
  cases op with
  | store op =>
    cases op with
    | write call =>
      obtain ⟨j, hj⟩ := ha
      simp only [Service.exec, StoreOp.exec]
      cases ht : call.transaction w.database input.readings with
      | error e => exact h
      | ok res => exact h.write hj ht
    | claimLease _ _ _ | renewLease _ _ | releaseRow _ => exact h.frame he.log (onLeases_frame _ _).2
    | lookupIdempotency _ | currentSequence _ _ | readStream _ _ | readAll | assertCurrent _ | currentLease _ => exact h
  | putArtifact content => exact h.frame he.log (congrArg _ (storeBlob_database svc w content))
  | verify _ _ _ | getArtifact _ | verifyArtifact _ => exact h

theorem empty_keysRegister : KeysRegister svc commands .empty := by
  intro key row hrow
  simp [Database.empty] at hrow

/-- The commands' protocol, with the keys in its invariant. -/
def registrationProtocol (svc : Service) (commands : θ → Command) :
    Protocol serviceInterface ControlPlaneError ServiceInput World :=
  { protocol svc commands AnyStep with
    Inv := fun t => Lawful svc commands t ∧ KeysRegister svc commands t.database
    step := fun h ha _ => ⟨⟨(h.1.step ha _).1, h.2.step ha (h.1.step ha _).2⟩, (h.1.step ha _).2⟩ }

theorem promises_registration {α : Type} {Q : α → World → Prop} {p : Call α}
    (h : Promises svc commands AnyStep Q p w) : p.Yields (registrationProtocol svc commands) Q w := by
  have hexec : (registrationProtocol svc commands).exec = (protocol svc commands AnyStep).exec := rfl
  exact Prog.Meets.strengthen hexec (fun _ hi => hi.1) (fun _ _ he => he) (fun _ _ ha => ha) (fun _ _ _ hm => hm) h

/-! What `register_bundle` returns is a binding of its bundle -/

theorem ensures_trivial {α : Type} (p : Call α) : p.Ensures fun _ _ => True := by
  induction p with
  | done r => trivial
  | call op k ih => exact fun reply => ih reply

/-- What a part hands on to the rest, the rest answers for. -/
theorem ensures_rest {α β : Type} {p : Call α} {f : α → Call β} {Q : β → Prop}
    (h : ∀ a, (f a).Ensures fun _ r => ∀ b, r = .ok b → Q b) : (p >>= f).Ensures fun _ r => ∀ b, r = .ok b → Q b := by
  apply Prog.Ensures.bind (ensures_trivial p)
  · exact fun _ a _ => h a
  · rintro _ _ - _ ⟨⟩

theorem ensures_raising {α : Type} {x : Raises α} {Q : α → Prop} (h : ∀ a, x = .ok a → Q a) :
    (raising x).Ensures fun _ r => ∀ a, r = .ok a → Q a := h

theorem registerNew_ensures (bundle : FormalizationTaskBundle) (v : Idempotency) :
    (svc.registerNew bundle v).Ensures fun _ r => ∀ b, r = .ok b → svc.BindsBundle bundle b := by
  unfold Service.registerNew
  refine ensures_rest fun attestation => ensures_rest fun p => ensures_rest fun artifact => ensures_rest fun payload =>
    ensures_rest fun events => ensures_raising fun b hb => ?_
  unfold Service.storedBinding at hb
  obtain ⟨event, -, hb⟩ := bind_eq_ok.mp hb
  obtain ⟨stored, -, hb⟩ := bind_eq_ok.mp hb
  obtain ⟨hsame, hb⟩ := ensure_bind_eq_ok.mp hb
  cases (pure_eq_ok _ _).mp hb
  exact ⟨(congrArg TaskBinding.bundleId hsame :), (congrArg TaskBinding.bundleHash hsame :)⟩

/-- The binding that a replayed key stands for is one of the bundle that is delivered again. -/
theorem bindsBundle_of_replay {i : θ} {bundle : FormalizationTaskBundle} {key : String} {v : Idempotency}
    {e : StoredEvent}
    {b : TaskBinding} (hw : Lawful svc commands w) (hk : KeysRegister svc commands w.database)
    (hdiffer : RequestsDiffer svc commands) (hcmd : commands i = .registerBundle bundle key)
    (hv : svc.idempotency "register_bundle" key (svc.registerRequest bundle) = .ok v)
    (hbound : w.database.BoundTo v.primaryKey v.requestHash [e]) (hb : bindingFromPayload e.payload = .ok b) :
    svc.BindsBundle bundle b := by
  obtain ⟨hscope, -, hhash⟩ := Service.idempotency_ok hv
  obtain ⟨hmem, ht, het⟩ := registration_of_bound hw hbound hscope
  obtain ⟨row, hrow, hrowhash, hby⟩ := hbound
  obtain ⟨j, bundle', key', e', hcmd', hhash', hid, hmem', hp⟩ := hk _ row hrow hscope
  have heq : e' = e := by
    rw [hid, Database.eventsByIds_of_mem hw.coherent hmem'] at hby
    cases hby
    rfl
  subst heq
  obtain ⟨bundle₁, assurance, hregistered, -, -⟩ := hw.registration (List.Subset.refl _) hmem ht het
  obtain ⟨attestation, -, hpayload⟩ := hregistered.payload
  have hdec := hregistered.decodes
  rw [hb] at hdec
  split at hdec
  · cases hdec
  cases hdec
  rw [hpayload, registrationBindingFromPayload_registrationPayload, Except.ok.injEq] at hp
  have hrequest : svc.registerRequest bundle' = svc.registerRequest bundle := by
    apply hdiffer j i bundle' bundle key' key hcmd' hcmd
    exact Digest.eq_of_value (hhash'.symm.trans (hrowhash.trans hhash))
  unfold Service.registerRequest at hrequest
  injection hrequest with hbundleId hbundleHash
  constructor
  · exact (congrArg ContractRevisionBinding.bundleId hp :).trans hbundleId
  · exact (congrArg ContractRevisionBinding.bundleHash hp :).trans (congrArg Digest.value hbundleHash)

/-- A registration returns a binding of its own bundle. -/
theorem registerBundle_own (hw : (registrationProtocol svc commands).Inv w) {i : θ} {bundle : FormalizationTaskBundle}
    {key : String} (hcmd : commands i = .registerBundle bundle key) :
    (svc.registerBundle bundle key).Yields (registrationProtocol svc commands)
      (fun b _ => RequestsDiffer svc commands → svc.BindsBundle bundle b) w := by
  unfold Service.registerBundle
  refine Prog.Yields.bind hw (promises_registration raising_promises) fun _ t₁ _ h₁ _ => ?_
  refine Prog.Yields.bind h₁ (promises_registration raising_promises) fun v t₂ _ h₂ hv => ?_
  refine Prog.Yields.bind h₂ (promises_registration (replayedEvent_promises h₂.1 v)) fun found t₃ _ h₃ hfound => ?_
  cases found with
  | none =>
    have hnew := (promises_registration (registerNew_promises h₃.1 hcmd hv)).ensures (registerNew_ensures bundle v)
    apply Prog.Meets.mono hnew
    intro r t _ hr b hb _
    exact hr.2 b hb
  | some e =>
    refine Prog.Yields.ofExcept fun b hb u hu hi hdiffer => ?_
    exact bindsBundle_of_replay hi.1 hi.2 hdiffer hcmd hv ((hfound e rfl).extends hu.database) hb

/-- What a command's reply means beside the log: a registration's is of its own bundle. -/
def OwnReply (svc : Service) (commands : θ → Command) (i : θ) (r : Raises Reply) (t : World) : Prop :=
  ThreadHolds svc commands AnyStep i r t ∧ ∀ bundle key b, commands i = .registerBundle bundle key →
    r = .ok (.binding b) → RequestsDiffer svc commands → svc.BindsBundle bundle b

theorem program_own (hw : (registrationProtocol svc commands).Inv w) (i : θ) :
    ((commands i).program svc).Meets (registrationProtocol svc commands) (OwnReply svc commands i) w := by
  have hplain : ((commands i).program svc).Yields (registrationProtocol svc commands)
      (ReplyHolds svc AnyStep (commands i)) w := promises_registration (program_promises hw.1 rfl)
  cases hcmd : commands i with
  | registerBundle bundle key =>
    rw [hcmd] at hplain
    have hown : (Command.program svc (.registerBundle bundle key)).Yields (registrationProtocol svc commands)
        (fun reply _ => ∀ b, reply = .binding b → RequestsDiffer svc commands → svc.BindsBundle bundle b) w := by
      refine Prog.Yields.bind hw (registerBundle_own hw hcmd) fun b t _ _ hb => Prog.Yields.pure fun _ _ _ b' hb' => ?_
      cases hb'
      exact hb
    apply Prog.Meets.mono (hplain.and hown)
    intro r t _ hr
    refine ⟨?_, fun bundle' key' b hcmd' hb => ?_⟩
    · rw [ThreadHolds, hcmd]
      exact hr.1
    · rw [hcmd] at hcmd'
      cases hcmd'
      exact hr.2 _ hb b rfl
  | _ =>
    rw [hcmd] at hplain
    apply Prog.Meets.mono hplain
    intro r t _ hr
    refine ⟨?_, fun _ _ _ h => ?_⟩
    · rw [ThreadHolds, hcmd]
      exact hr
    · rw [hcmd] at h
      cases h

/-! Slots -/

/-- The registration of a bundle is what `get_binding` reads back. -/
theorem getBinding_of_registered (hw : Lawful svc commands w) {bundleId : String} {b : TaskBinding}
    (hb : Registered w.database.events bundleId b) (inputs : Nat → ServiceInput) :
    ((getBinding bundleId).execute svc.exec inputs w).1 = .ok b := by
  obtain ⟨e, he, ht, hid, het, hdec⟩ := hb
  have hread : (issue (.readStream "task" bundleId)).execute svc.exec inputs w =
      (.ok (w.database.readStream "task" bundleId), fun n => inputs (n + 1), w) := perform_ok.mpr ⟨rfl, rfl, rfl⟩
  have hfind : (w.database.readStream "task" bundleId).find? (fun e => decide (e.eventType = "task.registered")) =
      some e := by
    have hsome : ((w.database.readStream "task" bundleId).find?
        fun e => decide (e.eventType = "task.registered")).isSome := by
      rw [List.find?_isSome]
      exact ⟨e, mem_readStream.mpr ⟨he, ht, hid⟩, by simp [het]⟩
    obtain ⟨e', hfound⟩ := Option.isSome_iff_exists.mp hsome
    obtain ⟨hmem, ht', hid'⟩ := mem_readStream.mp (List.mem_of_find?_eq_some hfound)
    have het' : e'.eventType = "task.registered" := by simpa using List.find?_some hfound
    rw [hfound, hw.registration_unique hmem he ht' ht het' het (hid'.trans hid.symm)]
  unfold getBinding
  rw [Prog.execute_bind_ok hread]
  simp [raising, Prog.ofExcept, Prog.execute, registeredBinding, hfind, hdec]

/-- Two registrations that share a slot are one event. -/
theorem registrations_once (hw : Lawful svc commands w) {e e' : StoredEvent} {bundle bundle' : FormalizationTaskBundle}
    {assurance assurance' : Option CanonicalTypeAssurance}
    (h : RegisteredAs svc commands w.database.events bundle assurance e)
    (h' : RegisteredAs svc commands w.database.events bundle' assurance' e')
    (hshared : (svc.binding bundle assurance).SharesSlot (svc.binding bundle' assurance')) : e = e' := by
  rcases hshared with hid | ⟨hcontract, hrevision⟩
  · exact hw.registration_unique h.mem h'.mem h.entityType h'.entityType h.eventType h'.eventType
      (h.entityId.trans (Eq.trans hid h'.entityId.symm))
  · exact hw.registration_unique_revision (List.Subset.refl _) (List.Subset.refl _) h h'
      (Projection.identifier_injective hcontract) hrevision

/-- Bindings read back from one lawful log that share a slot are equal. -/
theorem registered_sharing (hw : Lawful svc commands w) {b b' : TaskBinding}
    (hb : Registered w.database.events b.bundleId b) (hb' : Registered w.database.events b'.bundleId b')
    (hshared : b.SharesSlot b') : b = b' := by
  obtain ⟨e, bundle, assurance, hr, -, hne, rfl⟩ := hw.registered (List.Subset.refl _) hb
  obtain ⟨e', bundle', assurance', hr', -, hne', rfl⟩ := hw.registered (List.Subset.refl _) hb'
  have heq := registrations_once hw hr hr' hshared
  subst heq
  have hdec := hr.decodes.symm.trans hr'.decodes
  rw [if_neg hne, if_neg hne', Except.ok.injEq] at hdec
  exact hdec

/-- The rows of one slot hold one binding. -/
theorem row_of_slot (hc : Coherent w.database) {binding : ContractRevisionBinding} {row row' : RevisionBindingRow}
    (hrow : row ∈ w.database.contractRevisionBindings) (hrow' : row' ∈ w.database.contractRevisionBindings)
    (hbinding : row'.binding = binding) (htaken : row.binding.bundleId = binding.bundleId ∨
      row.binding.contractId = binding.contractId ∧ row.binding.revision = binding.revision) :
    row.binding = binding := by
  have hsymm : Std.Symm RevisionBindingRow.Apart := ⟨fun _ _ => RevisionBindingRow.apart_symm⟩
  by_cases hne : row = row'
  · rw [hne, hbinding]
  · have hapart := hc.bindings.forall hrow hrow' hne
    rw [RevisionBindingRow.Apart, hbinding] at hapart
    rcases htaken with hid | hrevision
    · exact absurd hid hapart.2.1
    · exact absurd hrevision hapart.1

/-- A registration write for a taken slot adds no event and uses no nonce, and one for another
bundle changes nothing. -/
theorem taken_slot (svc : Service) (hc : Coherent w.database) {binding : ContractRevisionBinding} {event : NewEvent}
    {v : Idempotency}
    {nonce : AttestationNonce} {row : RevisionBindingRow} (hrow : row ∈ w.database.contractRevisionBindings)
    (htaken : row.binding.bundleId = binding.bundleId ∨
      row.binding.contractId = binding.contractId ∧ row.binding.revision = binding.revision) (input : ServiceInput) :
    let next := (svc.exec (.store (.write (.registration binding event v nonce))) input w).2.database
    next.events = w.database.events ∧ next.attestationNonceUses = w.database.attestationNonceUses ∧
      next.contractRevisionBindings = w.database.contractRevisionBindings ∧
      (row.binding ≠ binding → next = w.database) := by
  simp only [Service.exec, StoreOp.exec]
  cases ht : (AppendCall.registration binding event v nonce).transaction w.database input.readings with
  | error e => exact ⟨rfl, rfl, rfl, fun _ => rfl⟩
  | ok res =>
    obtain ⟨events, db⟩ := res
    cases AppendCall.transaction_outcome ht with
    | replayed _ _ => exact ⟨rfl, rfl, rfl, fun _ => rfl⟩
    | linked _ _ hreg =>
      refine ⟨rfl, rfl, rfl, fun hne => ?_⟩
      obtain ⟨e, -, -, -, -, -, hfound⟩ := hreg
      exact absurd (row_of_slot hc hrow (List.mem_of_find?_eq_some hfound) rfl htaken) hne
    | written _ _ hadmits _ =>
      obtain ⟨hrevision, hid, -⟩ := hadmits.2.2 row hrow
      rcases htaken with h | h
      · exact absurd h hid
      · exact absurd h hrevision

/-! Runs -/

section Runs
variable [DecidableEq θ] (svc : Service) (commands : θ → Command)

def commandRun (labels : List (θ × ServiceInput)) : CommandPool θ :=
  run (CommandPool.step svc) (CommandPool.start svc commands) labels

theorem commandRun_sound (labels : List (θ × ServiceInput)) :
    (commandRun svc commands labels).Sound (registrationProtocol svc commands) (OwnReply svc commands) := by
  have hstart : (CommandPool.start svc commands).Sound (registrationProtocol svc commands) (OwnReply svc commands) :=
    ⟨⟨empty_lawful, empty_keysRegister⟩, program_own ⟨empty_lawful, empty_keysRegister⟩⟩
  refine (hstart.run (stepsMeet_of_forall (fun c l => ?_) _ labels)).1
  unfold Pool.Admits
  split <;> trivial

theorem commandRun_extends (front back : List (θ × ServiceInput)) :
    Evolves (commandRun svc commands front).state (commandRun svc commands (front ++ back)).state := by
  unfold commandRun
  rw [run_append]
  exact run_evolves (run_sound_any svc commands front) back

/-- How registrations at one moment of a run stand to those at a later one. -/
structure RegistrationsAgree (svc : Service) (commands : θ → Command) (now later : CommandPool θ) : Prop where
  /-- Events that share a slot are one event. -/
  once : ∀ e e' bundle bundle' assurance assurance',
    RegisteredAs svc commands later.state.database.events bundle assurance e →
    RegisteredAs svc commands later.state.database.events bundle' assurance' e' →
    (svc.binding bundle assurance).SharesSlot (svc.binding bundle' assurance') → e = e'
  /-- A binding that was returned is that of a reviewed bundle, and it is read back from then on. -/
  kept : ∀ i b, now.threads i = .done (.ok (.binding b)) → (∃ e bundle assurance,
      RegisteredAs svc commands now.state.database.events bundle assurance e ∧ b = svc.binding bundle assurance ∧
      svc.Reviewed now.state.blobs bundle.toHandoff assurance) ∧
    ∀ inputs, ((getBinding b.bundleId).execute svc.exec inputs later.state).1 = .ok b
  /-- Two that share a slot are equal. -/
  agree : ∀ i j b b', now.threads i = .done (.ok (.binding b)) → later.threads j = .done (.ok (.binding b')) →
    b.SharesSlot b' → b = b'
  /-- Each is one of the bundle that was delivered. -/
  own : RequestsDiffer svc commands → ∀ i bundle key b, commands i = .registerBundle bundle key →
    now.threads i = .done (.ok (.binding b)) → svc.BindsBundle bundle b
  /-- A write for a taken slot adds no event and uses no nonce, and one for another bundle changes nothing. -/
  taken : ∀ i binding event v nonce k row input, now.threads i = .call
    (.store (.write (.registration binding event v nonce))) k →
    row ∈ now.state.database.contractRevisionBindings → (row.binding.bundleId = binding.bundleId ∨
      row.binding.contractId = binding.contractId ∧ row.binding.revision = binding.revision) →
    let next := (CommandPool.step svc now (i, input)).state.database
    next.events = now.state.database.events ∧ next.attestationNonceUses = now.state.database.attestationNonceUses ∧
      next.contractRevisionBindings = now.state.database.contractRevisionBindings ∧
      (row.binding ≠ binding → next = now.state.database)

/-- Over every interleaving of the commands, crashes included, each bundle ID and each contract
revision is registered once, whoever is given its binding is given the same one from then on,
and what is delivered for a taken slot adds no event and uses no nonce. -/
theorem registrations_agree (svc : Service) (commands : θ → Command) (front back : List (θ × ServiceInput)) :
    RegistrationsAgree svc commands (commandRun svc commands front) (commandRun svc commands (front ++ back)) := by
  have hnow := commandRun_sound svc commands front
  have hlater := commandRun_sound svc commands (front ++ back)
  have hevolves := commandRun_extends svc commands front back
  have returned {c : CommandPool θ} (hc : c.Sound (registrationProtocol svc commands) (OwnReply svc commands)) {i : θ}
      {b : TaskBinding} (hdone : c.threads i = .done (.ok (.binding b))) :
      Registered c.state.database.events b.bundleId b := (hc.result hdone).1 _ rfl
  constructor
  · intro e e' bundle bundle' assurance assurance' h h' hshared
    exact registrations_once hlater.inv.1 h h' hshared
  · intro i b hdone
    have hb := returned hnow hdone
    refine ⟨?_, getBinding_of_registered hlater.inv.1 (hb.mono hevolves.log)⟩
    obtain ⟨e, he, ht, -, het, hdec⟩ := hb
    obtain ⟨bundle, assurance, hr, -, hreviewed⟩ := hnow.inv.1.registration (List.Subset.refl _) he ht het
    rw [hr.decodes] at hdec
    split at hdec
    · cases hdec
    · cases hdec
      exact ⟨e, bundle, assurance, hr, rfl, hreviewed⟩
  · intro i j b b' hdone hdone' hshared
    exact registered_sharing hlater.inv.1 ((returned hnow hdone).mono hevolves.log) (returned hlater hdone') hshared
  · intro hdiffer i bundle key b hcmd hdone
    exact (hnow.result hdone).2 bundle key b hcmd rfl hdiffer
  · intro i binding event v nonce k row input hcall hrow htaken
    rw [show CommandPool.step svc (commandRun svc commands front) (i, input) = _ from Pool.step_call svc.exec hcall]
    exact taken_slot svc hnow.inv.1.coherent hrow htaken input

end Runs

/-! Two registrations of one bundle under different keys -/

def registeringCommands : Bool → Command
  | true => .registerBundle (sampleBundle ["propext"]) "register"
  | false => .registerBundle (sampleBundle ["propext"]) "again"

def firstRegistration : List (Bool × ServiceInput) := List.replicate 4 (stepOf true 0 'a')

def secondRegistration : List (Bool × ServiceInput) := List.replicate 4 (stepOf false 0 'b')

/-- The binding a thread has returned. -/
def CommandPool.binding (c : CommandPool θ) (i : θ) : Option TaskBinding :=
  match c.threads i with
  | .done (.ok (.binding b)) => some b
  | _ => none

theorem CommandPool.binding_eq_some {c : CommandPool θ} {i : θ} {b : TaskBinding} (h : c.binding i = some b) :
    c.threads i = .done (.ok (.binding b)) := by
  unfold CommandPool.binding at h
  split at h
  · rename_i b' hb
    cases h
    exact hb
  · cases h

theorem registeringCommands_differ : RequestsDiffer sampleService registeringCommands := by
  have only (i : Bool) (bundle : FormalizationTaskBundle) (key : String)
      (h : registeringCommands i = .registerBundle bundle key) : bundle = sampleBundle ["propext"] := by
    cases i <;> exact (Command.registerBundle.inj h).1.symm
  intro i j bundle bundle' key key' hi hj _
  rw [only i bundle key hi, only j bundle' key' hj]

theorem registrations_bindings :
    let now := commandRun sampleService registeringCommands firstRegistration
    let later := commandRun sampleService registeringCommands (firstRegistration ++ secondRegistration)
    (now.binding true).map (·.bundleId) = some sampleId.value ∧
      (later.binding false).map (·.bundleId) = some sampleId.value := by
  decide +kernel

/-- The second registration is answered with the binding of the first, and it is read back. -/
theorem registrations_agree_sample :
    let now := commandRun sampleService registeringCommands firstRegistration
    let later := commandRun sampleService registeringCommands (firstRegistration ++ secondRegistration)
    ∃ b, now.threads true = .done (.ok (.binding b)) ∧ later.threads false = .done (.ok (.binding b)) ∧
      sampleService.BindsBundle (sampleBundle ["propext"]) b ∧
      ∀ inputs, ((getBinding b.bundleId).execute sampleService.exec inputs later.state).1 = .ok b := by
  obtain ⟨hnow, hlater⟩ := registrations_bindings
  obtain ⟨b, hb, hid⟩ := Option.map_eq_some_iff.mp hnow
  obtain ⟨b', hb', hid'⟩ := Option.map_eq_some_iff.mp hlater
  have hagree := registrations_agree sampleService registeringCommands firstRegistration secondRegistration
  have hfirst := CommandPool.binding_eq_some hb
  have hsecond := CommandPool.binding_eq_some hb'
  have hsame := hagree.agree true false b b' hfirst hsecond (Or.inl (hid.trans hid'.symm))
  refine ⟨b, hfirst, hsame ▸ hsecond, ?_, (hagree.kept true b hfirst).2⟩
  exact hagree.own registeringCommands_differ true _ _ b rfl hfirst

end Autolean.ControlPlane
