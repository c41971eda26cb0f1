import Autolean.ControlPlane.StreamDiscipline

/-! Command keys and nonces across whole runs of the store: a key stands for one
request and one batch, a nonce for one transition, and a call that raises is
as if it had never been made. -/
namespace Autolean.ControlPlane
open Contracts Machine Raising

namespace Database

theorem lookup_boundTo {db : Database} (hc : Coherent db) {v : Idempotency} {events : List StoredEvent}
    (h : db.BoundTo v.primaryKey v.requestHash events) : db.existingIdempotency (some v) = .ok (some events) := by
  obtain ⟨row, hrow, hhash, hby⟩ := h
  have hshape := (hc.records _ row hrow).1
  have hres : db.resolveIdempotency row v = .ok events := by
    unfold resolveIdempotency
    exact ensure_bind_eq_ok.mpr ⟨hhash, ensure_bind_eq_ok.mpr ⟨hshape, hby⟩⟩
  simp only [existingIdempotency, lookupIdempotency, hrow, hres, ok_bind]
  rfl

theorem assertRegistrationEventsMatch_of {db : Database} (hc : Coherent db) {binding : ContractRevisionBinding}
    {events : List StoredEvent} (h : db.RegistrationOf binding events) :
    db.assertRegistrationEventsMatch binding events = .ok () := by
  obtain ⟨e, rfl, ht, hi, hty, hdec, hrow⟩ := h
  have hle := hc.bindings_revision _ (List.mem_of_find?_eq_some hrow)
  have hproj : db.contractRevisionProjectionRow binding.contractId binding.revision = .ok (some ⟨binding, e.eventId⟩) := by
    unfold contractRevisionProjectionRow
    exact ensure_bind_eq_ok.mpr ⟨hle, by rw [hrow]; rfl⟩
  unfold assertRegistrationEventsMatch
  refine ensure_bind_eq_ok.mpr ⟨⟨ht, hi, hty⟩, ?_⟩
  rw [hdec, ok_bind]
  refine ensure_bind_eq_ok.mpr ⟨rfl, ?_⟩
  rw [hproj, ok_bind]
  exact ensure_eq_ok.mpr ⟨rfl, rfl⟩

end Database

namespace AppendCall

/-- The arguments pass the checks a call makes before it opens its transaction. -/
def ArgumentsValid : AppendCall → Prop
  | append b expected => Database.validateAppendRequest b.entityType b.entityId expected b.events = .ok () ∧
    ¬ (b.entityType = "task" ∧ ∃ e ∈ b.events, e.eventType = "task.registered")
  | appendFenced b taskId _ expected =>
    Database.validateAppendRequest b.entityType b.entityId expected b.events = .ok () ∧
    ¬ Blank taskId ∧ Database.validateFencedTaskBinding taskId b.events = .ok ()
  | registration binding event _ _ => event.eventType = "task.registered" ∧
    Database.validateAppendRequest "task" binding.bundleId 0 [event] = .ok ()

/-- A repeated key and request returns the recorded events and writes nothing. -/
theorem transaction_replays {db : Database} (hc : Coherent db) {call : AppendCall} {r : Readings} {v : Idempotency}
    {events : List StoredEvent} (hargs : call.ArgumentsValid) (hv : call.batch.idempotency = some v)
    (hb : db.BoundTo v.primaryKey v.requestHash events) (ha : call.AcceptsReplay db events) :
    call.transaction db r = .ok (events, db) := by
  have hlook := Database.lookup_boundTo hc hb
  cases call with
  | append b expected =>
    simp only [batch] at hv
    simp only [transaction, Database.append, hargs.1, ok_bind, hv, hlook]
    exact ensure_bind_eq_ok.mpr ⟨hargs.2, rfl⟩
  | appendFenced b taskId lease expected =>
    simp only [batch] at hv
    simp only [transaction, Database.appendFenced, hargs.1, ok_bind, hargs.2.2, hv, hlook,
      Database.assertFencedReplayTaskBinding]
    exact ensure_bind_eq_ok.mpr ⟨hargs.2.1, ensure_bind_eq_ok.mpr ⟨ha, rfl⟩⟩
  | registration binding event idempotency nonce =>
    simp only [batch, Option.some.injEq] at hv
    subst hv
    simp only [transaction, Database.appendContractRevisionRegistration, hargs.2, ok_bind, hlook,
      Database.assertRegistrationEventsMatch_of hc ha]
    exact ensure_bind_eq_ok.mpr ⟨hargs.1, rfl⟩

/-- A call that returned under a recorded key found its own request and accepted the
recorded events. -/
theorem transaction_under_key {db db' : Database} {call : AppendCall} {r : Readings} {v : Idempotency}
    {row : IdempotencyRow} {events : List StoredEvent} (h : call.transaction db r = .ok (events, db'))
    (hv : call.batch.idempotency = some v) (hrow : db.idempotencyRecords v.primaryKey = some row) :
    db.BoundTo v.primaryKey v.requestHash events ∧ call.AcceptsReplay db events ∧ db' = db := by
  cases transaction_outcome h with
  | replayed hrep ha =>
    obtain ⟨v', hv', hb⟩ := Database.replays_iff.mp hrep
    rw [hv, Option.some.injEq] at hv'
    subst hv'
    exact ⟨hb, ha, rfl⟩
  | linked hk _ _ =>
    simp only [batch, Option.some.injEq] at hv
    subst hv
    rw [hk] at hrow
    cases hrow
  | written _ hw _ _ =>
    rw [hw.key_unused v hv] at hrow
    cases hrow

/-- A write that changed the event log wrote the batch of its call. -/
theorem transaction_wrote {db db' : Database} {call : AppendCall} {r : Readings} {events : List StoredEvent}
    (h : call.transaction db r = .ok (events, db')) (hne : db'.events ≠ db.events) :
    call.batch.Writable db r ∧ call.Admits db r ∧ events = call.batch.stored db r ∧ db' = call.written db r ∧
      call.expectedSequence = db.currentSequence call.batch.entityType call.batch.entityId := by
  cases transaction_outcome h with
  | replayed _ _ => exact absurd rfl hne
  | linked _ _ _ => exact absurd rfl hne
  | written _ hw ha hs => exact ⟨hw, ha, rfl, rfl, hs⟩

theorem written_nonces (db : Database) (r : Readings) (call : AppendCall) :
    (call.written db r).attestationNonceUses = (call.batch.written db r).attestationNonceUses := by
  cases call <;> rfl

theorem written_events (db : Database) (r : Readings) (call : AppendCall) :
    (call.written db r).events = db.events ++ call.batch.stored db r := by
  cases call <;> rfl

end AppendCall

/-- The step is an append call that committed a transition under the nonce. -/
def Consumes (db : Database) (l : StoreOp × Readings) (key : String × String × String) : Prop :=
  ∃ call n, l.1 = .write call ∧ call.batch.nonce = some n ∧ n.primaryKey = key ∧ (storeStep db l).events ≠ db.events

/-- A consumed nonce was unused before the step and is used from then on. -/
private theorem consumes_use {db : Database} {l : StoreOp × Readings} {key : String × String × String}
    (h : Consumes db l key) :
    db.attestationNonceUses key = none ∧ ∃ use, (storeStep db l).attestationNonceUses key = some use := by
  obtain ⟨op, r⟩ := l
  obtain ⟨call, n, rfl, hn, rfl, hne⟩ := h
  rw [storeStep_write] at hne ⊢
  cases hx : call.transaction db r with
  | error e => simp [hx, commit] at hne
  | ok res =>
    obtain ⟨events, db'⟩ := res
    simp only [hx, commit] at hne ⊢
    obtain ⟨hw, -, -, rfl, -⟩ := AppendCall.transaction_wrote hx hne
    refine ⟨hw.nonce_unused n hn, ?_⟩
    rw [AppendCall.written_nonces, Batch.written_nonces_some hn, Function.update_self]
    exact ⟨_, rfl⟩

private theorem consumed_once {db : Database} (hc : Coherent db) {l l' : StoreOp × Readings}
    {mid : List (StoreOp × Readings)} {key : String × String × String} (h : Consumes db l key) :
    ¬ Consumes (run storeStep db (l :: mid)) l' key := by
  intro h'
  obtain ⟨-, use, huse⟩ := consumes_use h
  have hext := (run_coherent (storeStep_keeps hc l).1 mid).2
  have hlater := hext.nonces key use huse
  rw [← run_cons] at hlater
  rw [(consumes_use h').1] at hlater
  cases hlater

private theorem write_error {db : Database} {call : AppendCall} {r : Readings}
    (h : ∀ events db', call.transaction db r ≠ .ok (events, db')) :
    ∃ e, (StoreOp.write call).exec r db = (.error e, db) := by
  cases hx : call.transaction db r with
  | error e => exact ⟨e, by simp [StoreOp.exec, commit, hx]⟩
  | ok res => exact absurd hx (h res.1 res.2)

private theorem onLeases_error {α : Type} {db : Database} {x : Raises (α × LeaseTables)} {e : ControlPlaneError}
    (h : (onLeases x db).1 = .error e) : (onLeases x db).2 = db := by
  cases x with
  | ok at' => cases h
  | error e' => rfl

/-- An operation that raises leaves every table as it was. -/
theorem exec_error {db : Database} {op : StoreOp} {r : Readings} {e : ControlPlaneError}
    (h : (op.exec r db).1 = .error e) : (op.exec r db).2 = db := by
  cases op with
  | write call =>
    simp only [StoreOp.exec] at h ⊢
    cases hx : call.transaction db r with
    | error e' => rfl
    | ok res => simp [hx, commit] at h
  | claimLease _ _ _ | renewLease _ _ | releaseRow _ => exact onLeases_error h
  | lookupIdempotency _ | currentSequence _ _ | readStream _ _ | readAll | assertCurrent _ | currentLease _ => rfl

/-- In every state a run reaches, each stream is numbered 1..n in global order and its
version is n; each key stays bound to one request hash and one batch; a repeated key
and request returns that batch or, where the call refuses it, raises, and writes
nothing either way; another request under the key raises; each nonce is consumed by at
most one committed transition; and a call that raises leaves every table as it was. -/
theorem append_discipline (labels : List (StoreOp × Readings)) :
    let db := run storeStep .empty labels
    (∀ t i, (db.stream t i).length = db.currentSequence t i ∧
      (db.stream t i).map (·.entitySequence) = List.range' 1 (db.currentSequence t i) ∧
      ((db.stream t i).map (·.globalPosition)).Pairwise (· < ·)) ∧
    (∀ k row, db.idempotencyRecords k = some row →
      ∃ events, events ≠ [] ∧ ∀ later, (run storeStep db later).BoundTo k row.requestHash events) ∧
    (∀ (call : AppendCall) (r : Readings) (v : Idempotency) (events : List StoredEvent),
      ((StoreOp.write call).exec r db).1 = .ok events → call.batch.idempotency = some v →
      (storeStep db (.write call, r)).BoundTo v.primaryKey v.requestHash events) ∧
    (∀ (call : AppendCall) (r : Readings) (v : Idempotency) (events : List StoredEvent),
      call.ArgumentsValid → call.batch.idempotency = some v →
      db.BoundTo v.primaryKey v.requestHash events →
      (call.AcceptsReplay db events → (StoreOp.write call).exec r db = (.ok events, db)) ∧
      (¬ call.AcceptsReplay db events → ∃ e, (StoreOp.write call).exec r db = (.error e, db))) ∧
    (∀ (call : AppendCall) (r : Readings) (v : Idempotency) (row : IdempotencyRow), call.batch.idempotency = some v →
      db.idempotencyRecords v.primaryKey = some row → row.requestHash ≠ v.requestHash →
      ∃ e, (StoreOp.write call).exec r db = (.error e, db)) ∧
    (∀ before l mid l' after key, labels = before ++ l :: mid ++ l' :: after →
      Consumes (run storeStep .empty before) l key →
      ¬ Consumes (run storeStep .empty (before ++ l :: mid)) l' key) ∧
    (∀ (op : StoreOp) (r : Readings) e, (op.exec r db).1 = .error e → (op.exec r db).2 = db) := by
  intro db
  have hc : Coherent db := (run_coherent empty_coherent labels).1
  refine ⟨?_, ?_, ?_, ?_, ?_, ?_, ?_⟩
  · intro t i
    have hs := hc.streams t i
    refine ⟨by simpa using congrArg List.length hs, hs, ?_⟩
    exact hc.positions.sublist (List.filter_sublist.map _)
  · intro k row hrow
    obtain ⟨⟨hne, -, -⟩, events, hby⟩ := hc.records k row hrow
    refine ⟨events, ?_, fun later => ?_⟩
    · rintro rfl
      exact hne (Database.eventsByIds_nil hby)
    · exact Database.BoundTo.extends ⟨row, hrow, rfl, hby⟩ (run_coherent hc later).2
  · intro call r v events hx hv
    rw [storeStep_write]
    cases ht : call.transaction db r with
    | error e => simp [StoreOp.exec, commit, ht] at hx
    | ok res =>
      obtain ⟨events', db'⟩ := res
      simp only [StoreOp.exec, commit, ht, Except.ok.injEq] at hx ⊢
      subst hx
      exact AppendCall.transaction_binds ht hv
  · intro call r v events hargs hv hb
    constructor
    · intro ha
      simp only [StoreOp.exec, AppendCall.transaction_replays hc hargs hv hb ha, commit]
    · intro ha
      obtain ⟨row, hrow, -, -⟩ := id hb
      refine write_error fun events' db' hx => ha ?_
      obtain ⟨hb', ha', -⟩ := AppendCall.transaction_under_key hx hv hrow
      rwa [(hb.unique hb').2]
  · intro call r v row hv hrow hne
    refine write_error fun events db' hx => ?_
    obtain ⟨⟨row', hrow', hhash, -⟩, -, -⟩ := AppendCall.transaction_under_key hx hv hrow
    rw [hrow, Option.some.injEq] at hrow'
    subst hrow'
    exact hne hhash
  · intro before l mid l' after key hl h
    rw [run_append]
    exact consumed_once (run_coherent empty_coherent before).1 h
  · intro op r e he
    exact exec_error he

/-- Clock readings and identifiers of one illustrative transaction. -/
def Readings.sample (now : Instant) (c : Char) : Readings where
  now := now
  consumedAt := now
  recordedAt := now
  uuid n := ⟨String.ofList (List.replicate (n + 1) c), by simp [List.replicate_succ]⟩

def sampleDigest : Digest := .repeated 10

def sampleHash : String := sampleDigest.value

def sampleKey : Idempotency where
  scope := "submit_proof"
  key := "k1"
  requestHash := sampleHash
  scope_nonblank := by decide
  key_nonblank := by decide
  hash_length := by decide

def sampleLease : Lease := ⟨"bundle", "worker", 1, ⟨60000000, 0⟩, by decide, by decide, by decide⟩

/-- A command recorded for one task and presented again, under the same key and
request hash, for another. -/
def sampleRun : List (StoreOp × Readings) :=
  [(.write (.append ⟨"note", "n1", [⟨"noted", [("bundle_id", .str "task-1")], []⟩], some sampleKey, none⟩ 0),
    .sample 0 'a')]

theorem fenced_replay_refused :
    ¬ ∀ (labels : List (StoreOp × Readings)) (call : AppendCall) (r : Readings) (v : Idempotency)
      (events : List StoredEvent), call.ArgumentsValid → call.batch.idempotency = some v →
      (run storeStep .empty labels).BoundTo v.primaryKey v.requestHash events →
      ((StoreOp.write call).exec r (run storeStep .empty labels)).1 = .ok events := by
  intro h
  have hcall := h sampleRun
    (.appendFenced ⟨"note", "n2", [⟨"noted", [("bundle_id", .str "bundle")], []⟩], some sampleKey, none⟩ "bundle"
      sampleLease 0) (.sample 1 'b') sampleKey
    [⟨1, "a", "note", "n1", 1, "noted", [("bundle_id", .str "task-1")], [], 0⟩]
    ⟨by rfl, by decide, by rfl⟩ rfl ⟨_, rfl, rfl, rfl⟩
  cases hcall

end Autolean.ControlPlane
