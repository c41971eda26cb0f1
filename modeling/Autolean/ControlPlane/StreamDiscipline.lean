import Autolean.ControlPlane.Transactions
import Autolean.Machine.Runs

/-! The invariant that couples the tables of the event store, and what every run of
append transactions and lease transactions keeps: streams are numbered without gaps,
keys and nonces are bound once, and nothing written is ever lost. -/
namespace Autolean.ControlPlane
open Contracts Machine Raising

/-- The events of one stream, in the order they were written. -/
def Database.stream (db : Database) (entityType entityId : String) : List StoredEvent :=
  db.events.filter fun e => e.entityType = entityType ∧ e.entityId = entityId

/-- Two projection rows that no uniqueness constraint separates. -/
def RevisionBindingRow.Apart (a b : RevisionBindingRow) : Prop :=
  ¬ (a.binding.contractId = b.binding.contractId ∧ a.binding.revision = b.binding.revision) ∧
    a.binding.bundleId ≠ b.binding.bundleId ∧ a.registrationEventId ≠ b.registrationEventId

/-- The tables agree with each other. -/
structure Coherent (db : Database) : Prop where
  positions : (db.events.map (·.globalPosition)).Pairwise (· < ·)
  ids : (db.events.map (·.eventId)).Nodup
  ids_nonempty : ∀ e ∈ db.events, e.eventId ≠ ""
  streams : ∀ t i, (db.stream t i).map (·.entitySequence) = List.range' 1 (db.currentSequence t i)
  records : ∀ k row, db.idempotencyRecords k = some row →
    (row.eventIds ≠ [] ∧ "" ∉ row.eventIds ∧ row.eventIds.Nodup) ∧ ∃ events, db.eventsByIds row.eventIds = .ok events
  bindings : db.contractRevisionBindings.Pairwise RevisionBindingRow.Apart
  bindings_event : ∀ row ∈ db.contractRevisionBindings, ∃ e ∈ db.events, e.eventId = row.registrationEventId
  bindings_revision : ∀ row ∈ db.contractRevisionBindings, row.binding.revision ≤ sqliteIntegerMax
  leases : db.leases.WellFormed

/-- Nothing a later state has lost. -/
structure Extends (db db' : Database) : Prop where
  events : db.events <+: db'.events
  records : ∀ k row, db.idempotencyRecords k = some row → db'.idempotencyRecords k = some row
  nonces : ∀ k use, db.attestationNonceUses k = some use → db'.attestationNonceUses k = some use
  bindings : db.contractRevisionBindings <+: db'.contractRevisionBindings
  leases : db.leases.Advances db'.leases

namespace Extends

theorem refl (db : Database) : Extends db db :=
  ⟨List.prefix_rfl, fun _ _ h => h, fun _ _ h => h, List.prefix_rfl, .refl _⟩

theorem trans {a b c : Database} (h : Extends a b) (h' : Extends b c) : Extends a c where
  events := h.events.trans h'.events
  records k row hk := h'.records k row (h.records k row hk)
  nonces k use hk := h'.nonces k use (h.nonces k use hk)
  bindings := h.bindings.trans h'.bindings
  leases := h.leases.trans h'.leases

/-- A batch found by identifiers is found unchanged in every later state. -/
theorem eventsByIds {db db' : Database} (h : Extends db db') {eventIds : List String} {events : List StoredEvent}
    (hby : db.eventsByIds eventIds = .ok events) : db'.eventsByIds eventIds = .ok events := by
  induction eventIds generalizing events with
  | nil => exact hby
  | cons eventId rest ih =>
    unfold Database.eventsByIds at hby ⊢
    obtain ⟨e, he, hby⟩ := bind_eq_ok.mp hby
    obtain ⟨tail, htail, hby⟩ := bind_eq_ok.mp hby
    have he' : db'.eventById eventId = .ok e := by
      unfold Database.eventById at he ⊢
      obtain ⟨new, hnew⟩ := h.events
      cases hf : db.events.find? (fun x => decide (x.eventId = eventId)) with
      | none => simp [hf] at he
      | some found =>
        simp only [hf] at he
        rw [← hnew, List.find?_append, hf]
        exact he
    rw [he', ok_bind, ih htail, ok_bind]
    exact hby

end Extends

namespace Batch

theorem written_currentSequence (b : Batch) (db : Database) (r : Readings) (t i : String) :
    (b.written db r).currentSequence t i =
      if t = b.entityType ∧ i = b.entityId then db.currentSequence t i + b.events.length else db.currentSequence t i := by
  unfold Database.currentSequence
  rw [written_entityVersions]
  by_cases h : t = b.entityType ∧ i = b.entityId
  · obtain ⟨rfl, rfl⟩ := h
    simp [Database.currentSequence]
  · rw [Function.update_of_ne (by simpa using h), if_neg h]

theorem written_stream (b : Batch) (db : Database) (r : Readings) (t i : String) :
    (b.written db r).stream t i =
      if t = b.entityType ∧ i = b.entityId then db.stream t i ++ b.stored db r else db.stream t i := by
  unfold Database.stream
  rw [written_events, List.filter_append]
  by_cases h : t = b.entityType ∧ i = b.entityId
  · rw [if_pos h]
    congr 1
    refine List.filter_eq_self.mpr fun e he => ?_
    obtain ⟨ht, hi, -⟩ := mem_stampEvents he
    simp [ht, hi, h.1, h.2]
  · rw [if_neg h]
    refine (congrArg _ (List.filter_eq_nil_iff.mpr fun e he => ?_)).trans (List.append_nil _)
    obtain ⟨ht, hi, -⟩ := mem_stampEvents he
    simp only [ht, hi, decide_eq_true_eq]
    exact fun hc => h ⟨hc.1.symm, hc.2.symm⟩

/-- The next position is past every position in use. -/
private theorem lt_nextPosition {db : Database} (hp : (db.events.map (·.globalPosition)).Pairwise (· < ·))
    {e : StoredEvent} (he : e ∈ db.events) : e.globalPosition < db.nextPosition := by
  unfold Database.nextPosition
  rcases List.eq_nil_or_concat db.events with hnil | ⟨before, last, hlast⟩
  · rw [hnil] at he
    simp at he
  · rw [hlast] at hp he ⊢
    simp only [List.concat_eq_append, List.getLast?_append, List.getLast?_singleton, Option.some_or]
    simp only [List.concat_eq_append, List.map_append, List.map_cons, List.map_nil, List.pairwise_append] at hp
    simp only [List.concat_eq_append, List.mem_append, List.mem_singleton] at he
    rcases he with he | rfl
    · have := hp.2.2 _ (List.mem_map_of_mem he) last.globalPosition (by simp)
      omega
    · omega

theorem resolve_written {b : Batch} {db : Database} {r : Readings} (hw : b.Writable db r) :
    (b.written db r).eventsByIds ((b.stored db r).map (·.eventId)) = .ok (b.stored db r) :=
  Database.eventsByIds_append rfl hw.ids_distinct hw.ids_fresh (List.suffix_refl _)

theorem stored_ne_nil {b : Batch} {db : Database} {r : Readings} (hw : b.Writable db r) : b.stored db r ≠ [] := by
  intro h
  have hlen := congrArg List.length h
  simp only [stored, stampEvents_length, List.length_nil] at hlen
  exact hw.nonempty (List.length_eq_zero_iff.mp hlen)

theorem written_extends {b : Batch} {db : Database} {r : Readings} (hw : b.Writable db r) :
    Extends db (b.written db r) where
  events := List.prefix_append _ _
  records k row hk := by
    cases hv : b.idempotency with
    | none => rwa [written_records_none hv]
    | some v =>
      have hne : k ≠ v.primaryKey := by
        rintro rfl
        rw [hw.key_unused v hv] at hk
        cases hk
      rwa [written_records_some hv, Function.update_of_ne hne]
  nonces k use hk := by
    cases hv : b.nonce with
    | none => rwa [written_nonces_none hv]
    | some v =>
      have hne : k ≠ v.primaryKey := by
        rintro rfl
        rw [hw.nonce_unused v hv] at hk
        cases hk
      rwa [written_nonces_some hv, Function.update_of_ne hne]
  bindings := List.prefix_rfl
  leases := .refl _

/-- Writing a batch keeps the tables in agreement. -/
theorem written_coherent {b : Batch} {db : Database} {r : Readings} (hc : Coherent db) (hw : b.Writable db r) :
    Coherent (b.written db r) where
  positions := by
    simp only [written_events, List.map_append, stored, stampEvents_positions, List.pairwise_append]
    refine ⟨hc.positions, List.pairwise_lt_range', ?_⟩
    intro p hp q hq
    obtain ⟨e, he, rfl⟩ := List.mem_map.mp hp
    have hlt := lt_nextPosition hc.positions he
    have hle := (List.mem_range'_1.mp hq).1
    omega
  ids := by
    simp only [written_events, List.map_append, List.nodup_append]
    refine ⟨hc.ids, hw.ids_distinct, ?_⟩
    intro x hx y hy
    obtain ⟨e', he', rfl⟩ := List.mem_map.mp hx
    obtain ⟨e, he, rfl⟩ := List.mem_map.mp hy
    exact hw.ids_fresh e he e' he'
  ids_nonempty := by
    intro e he
    rcases List.mem_append.mp he with he | he
    · exact hc.ids_nonempty e he
    · obtain ⟨-, -, -, -, ⟨m, hm⟩, -⟩ := mem_stampEvents he
      rw [hm]
      exact (r.uuid m).text_ne_empty
  streams := by
    intro t i
    rw [written_stream, written_currentSequence]
    by_cases h : t = b.entityType ∧ i = b.entityId
    · obtain ⟨rfl, rfl⟩ := h
      simp only [and_self, if_true, List.map_append, hc.streams, stored, stampEvents_sequences]
      rw [show db.currentSequence b.entityType b.entityId + 0 + 1 = 1 + db.currentSequence b.entityType b.entityId by omega]
      exact List.range'_append_1
    · rw [if_neg h, if_neg h]
      exact hc.streams t i
  records := by
    intro k row hk
    have old {row : IdempotencyRow} (hrow : db.idempotencyRecords k = some row) :
        (row.eventIds ≠ [] ∧ "" ∉ row.eventIds ∧ row.eventIds.Nodup) ∧
          ∃ events, (b.written db r).eventsByIds row.eventIds = .ok events := by
      obtain ⟨hshape, events, hby⟩ := hc.records k row hrow
      exact ⟨hshape, events, (written_extends hw).eventsByIds hby⟩
    cases hv : b.idempotency with
    | none =>
      rw [written_records_none hv] at hk
      exact old hk
    | some v =>
      rw [written_records_some hv] at hk
      by_cases hkey : k = v.primaryKey
      · subst hkey
        simp only [Function.update_self, Option.some.injEq] at hk
        subst hk
        refine ⟨⟨?_, ?_, hw.ids_distinct⟩, _, resolve_written hw⟩
        · simpa using stored_ne_nil hw
        · intro hm
          obtain ⟨e, he, hid⟩ := List.mem_map.mp hm
          obtain ⟨-, -, -, -, ⟨m, hm⟩, -⟩ := mem_stampEvents he
          exact (r.uuid m).text_ne_empty (hm.symm.trans hid)
      · rw [Function.update_of_ne hkey] at hk
        exact old hk
  bindings := hc.bindings
  bindings_event row hrow := by
    obtain ⟨e, he, hid⟩ := hc.bindings_event row hrow
    exact ⟨e, List.mem_append_left _ he, hid⟩
  bindings_revision := hc.bindings_revision
  leases := hc.leases

end Batch

namespace Database

/-- The key stands for this request and resolves to these events. -/
def BoundTo (db : Database) (key : String × String) (requestHash : String) (events : List StoredEvent) : Prop :=
  ∃ row, db.idempotencyRecords key = some row ∧ row.requestHash = requestHash ∧ db.eventsByIds row.eventIds = .ok events

theorem BoundTo.extends {db db' : Database} {key : String × String} {requestHash : String} {events : List StoredEvent}
    (h : db.BoundTo key requestHash events) (he : Extends db db') : db'.BoundTo key requestHash events := by
  obtain ⟨row, hrow, hhash, hby⟩ := h
  exact ⟨row, he.records key row hrow, hhash, he.eventsByIds hby⟩

theorem BoundTo.unique {db : Database} {key : String × String} {h h' : String} {events events' : List StoredEvent}
    (hb : db.BoundTo key h events) (hb' : db.BoundTo key h' events') : h = h' ∧ events = events' := by
  obtain ⟨row, hrow, rfl, hby⟩ := hb
  obtain ⟨row', hrow', rfl, hby'⟩ := hb'
  rw [hrow, Option.some.injEq] at hrow'
  subst hrow'
  rw [hby, Except.ok.injEq] at hby'
  exact ⟨rfl, hby'⟩

theorem replays_iff {db : Database} {idempotency : Option Idempotency} {events : List StoredEvent} :
    db.Replays idempotency events ↔
      ∃ v, idempotency = some v ∧ db.BoundTo v.primaryKey v.requestHash events := by
  constructor
  · rintro ⟨v, row, hv, hrow, hhash, hby⟩
    exact ⟨v, hv, row, hrow, hhash, hby⟩
  · rintro ⟨v, hv, row, hrow, hhash, hby⟩
    exact ⟨v, row, hv, hrow, hhash, hby⟩

private theorem linked_extends {db : Database} {v : Idempotency} {eventId : String} {recordedAt : Instant}
    (hk : db.idempotencyRecords v.primaryKey = none) : Extends db (db.linked v eventId recordedAt) where
  events := List.prefix_rfl
  records k row hrow := by
    have hne : k ≠ v.primaryKey := by
      rintro rfl
      rw [hk] at hrow
      cases hrow
    simpa [linked, Function.update_of_ne hne] using hrow
  nonces _ _ h := h
  bindings := List.prefix_rfl
  leases := .refl _

private theorem linked_coherent {db : Database} {v : Idempotency} {e : StoredEvent} {recordedAt : Instant}
    (hc : Coherent db) (hk : db.idempotencyRecords v.primaryKey = none) (he : e ∈ db.events)
    (hby : db.eventsByIds [e.eventId] = .ok [e]) : Coherent (db.linked v e.eventId recordedAt) where
  positions := hc.positions
  ids := hc.ids
  ids_nonempty := hc.ids_nonempty
  streams := hc.streams
  records k row hrow := by
    by_cases hkey : k = v.primaryKey
    · subst hkey
      simp only [linked, Function.update_self, Option.some.injEq] at hrow
      subst hrow
      refine ⟨⟨by simp, ?_, by simp⟩, [e], (linked_extends hk).eventsByIds hby⟩
      simpa using (hc.ids_nonempty e he).symm
    · simp only [linked, Function.update_of_ne hkey] at hrow
      obtain ⟨hshape, events, hev⟩ := hc.records k row hrow
      exact ⟨hshape, events, (linked_extends hk).eventsByIds hev⟩
  bindings := hc.bindings
  bindings_event := hc.bindings_event
  bindings_revision := hc.bindings_revision
  leases := hc.leases

private theorem withBinding_extends (db : Database) (binding : ContractRevisionBinding) (eventId : String) :
    Extends db (db.withBinding binding eventId) :=
  ⟨List.prefix_rfl, fun _ _ h => h, fun _ _ h => h, List.prefix_append _ _, .refl _⟩

private theorem withBinding_coherent {db : Database} {binding : ContractRevisionBinding} {e : StoredEvent}
    (hc : Coherent db) (he : e ∈ db.events) (hle : binding.revision ≤ sqliteIntegerMax)
    (hfree : ∀ row ∈ db.contractRevisionBindings, row.Apart ⟨binding, e.eventId⟩) :
    Coherent (db.withBinding binding e.eventId) where
  positions := hc.positions
  ids := hc.ids
  ids_nonempty := hc.ids_nonempty
  streams := hc.streams
  records k row hrow := by
    obtain ⟨hshape, events, hev⟩ := hc.records k row hrow
    exact ⟨hshape, events, (withBinding_extends db binding e.eventId).eventsByIds hev⟩
  bindings := by
    refine List.pairwise_append.mpr ⟨hc.bindings, List.pairwise_singleton _ _, ?_⟩
    intro row hrow new hnew
    rw [List.mem_singleton.mp hnew]
    exact hfree row hrow
  bindings_event row hrow := by
    rcases List.mem_append.mp hrow with hrow | hrow
    · exact hc.bindings_event row hrow
    · rw [List.mem_singleton.mp hrow]
      exact ⟨e, he, rfl⟩
  bindings_revision row hrow := by
    rcases List.mem_append.mp hrow with hrow | hrow
    · exact hc.bindings_revision row hrow
    · rw [List.mem_singleton.mp hrow]
      exact hle
  leases := hc.leases

theorem eventById_mem {db : Database} {eventId : String} {e : StoredEvent} (h : db.eventById eventId = .ok e) :
    e ∈ db.events ∧ e.eventId = eventId := by
  unfold eventById at h
  cases hf : db.events.find? (fun x => decide (x.eventId = eventId)) with
  | none => simp [hf] at h
  | some found =>
    simp only [hf, Except.ok.injEq] at h
    subst h
    exact ⟨List.mem_of_find?_eq_some hf, by simpa using List.find?_some hf⟩

theorem eventsByIds_nil {db : Database} {eventIds : List String} (h : db.eventsByIds eventIds = .ok []) :
    eventIds = [] := by
  cases eventIds with
  | nil => rfl
  | cons eventId rest =>
    unfold eventsByIds at h
    obtain ⟨first, -, h⟩ := bind_eq_ok.mp h
    obtain ⟨tail, -, h⟩ := bind_eq_ok.mp h
    cases (pure_eq_ok _ _).mp h

theorem eventsByIds_mem {db : Database} {eventIds : List String} {events : List StoredEvent}
    (h : db.eventsByIds eventIds = .ok events) : ∀ e ∈ events, e ∈ db.events := by
  induction eventIds generalizing events with
  | nil =>
    simp only [eventsByIds, Except.ok.injEq] at h
    simp [← h]
  | cons eventId rest ih =>
    unfold eventsByIds at h
    obtain ⟨first, hfirst, h⟩ := bind_eq_ok.mp h
    obtain ⟨tail, htail, h⟩ := bind_eq_ok.mp h
    simp only [pure_eq_ok] at h
    subst h
    intro e he
    rcases List.mem_cons.mp he with rfl | he
    · exact (eventById_mem hfirst).1
    · exact ih htail e he

end Database

namespace AppendCall

/-- The first row of a registration carries the first identifier drawn. -/
private theorem registration_stored (db : Database) (r : Readings) (binding : ContractRevisionBinding) (event : NewEvent)
    (idempotency : Idempotency) (nonce : AttestationNonce) :
    ∃ e, (registration binding event idempotency nonce).batch.stored db r = [e] ∧ e.eventId = (r.uuid 0).text :=
  ⟨_, rfl, rfl⟩

/-- An append transaction keeps the tables in agreement and loses nothing. -/
theorem transaction_keeps {db db' : Database} {r : Readings} {call : AppendCall} {events : List StoredEvent}
    (hc : Coherent db) (h : call.transaction db r = .ok (events, db')) : Coherent db' ∧ Extends db db' := by
  cases transaction_outcome h with
  | replayed _ _ => exact ⟨hc, .refl _⟩
  | linked hk hby _ =>
    have he := Database.eventsByIds_mem hby _ (List.mem_singleton_self _)
    exact ⟨Database.linked_coherent hc hk he hby, Database.linked_extends hk⟩
  | written _ hw ha _ =>
    have hcoh := Batch.written_coherent hc hw
    have hext := Batch.written_extends hw
    cases call with
    | append b expected => exact ⟨hcoh, hext⟩
    | appendFenced b taskId lease expected => exact ⟨hcoh, hext⟩
    | registration binding event idempotency nonce =>
      obtain ⟨-, hle, hfree⟩ := ha
      obtain ⟨e, hst, hid⟩ := registration_stored db r binding event idempotency nonce
      have he : e ∈ ((registration binding event idempotency nonce).batch.written db r).events := by
        simp [hst]
      rw [← hid] at hfree
      simp only [written, ← hid]
      exact ⟨Database.withBinding_coherent hcoh he hle hfree, hext.trans (Database.withBinding_extends _ _ _)⟩

/-- A returned call leaves its key bound to its request and to the events it returned. -/
theorem transaction_binds {db db' : Database} {r : Readings} {call : AppendCall} {events : List StoredEvent}
    (h : call.transaction db r = .ok (events, db')) {v : Idempotency} (hv : call.batch.idempotency = some v) :
    db'.BoundTo v.primaryKey v.requestHash events := by
  cases transaction_outcome h with
  | replayed hrep _ =>
    obtain ⟨v', hv', hb⟩ := Database.replays_iff.mp hrep
    rw [hv, Option.some.injEq] at hv'
    rwa [hv']
  | linked hk hby _ =>
    simp only [batch, Option.some.injEq] at hv
    subst hv
    exact ⟨_, Function.update_self .., rfl, (Database.linked_extends hk).eventsByIds hby⟩
  | written _ hw _ _ =>
    have hb : (call.batch.written db r).BoundTo v.primaryKey v.requestHash (call.batch.stored db r) :=
      ⟨_, by rw [Batch.written_records_some hv, Function.update_self], rfl, Batch.resolve_written hw⟩
    cases call with
    | append b expected => exact hb
    | appendFenced b taskId lease expected => exact hb
    | registration binding event idempotency nonce => exact hb.extends (Database.withBinding_extends _ _ _)

end AppendCall

/-! Whole runs -/

private theorem onLeases_keeps {α : Type} {db : Database} {x : Raises (α × LeaseTables)} (hc : Coherent db)
    (hx : ∀ a t, x = .ok (a, t) → t.WellFormed ∧ db.leases.Advances t) :
    Coherent (onLeases x db).2 ∧ Extends db (onLeases x db).2 := by
  cases x with
  | error e => exact ⟨hc, .refl _⟩
  | ok at' =>
    obtain ⟨a, t⟩ := at'
    obtain ⟨hw, ha⟩ := hx a t rfl
    have hext : Extends db { db with leases := t } :=
      ⟨List.prefix_rfl, fun _ _ h => h, fun _ _ h => h, List.prefix_rfl, ha⟩
    refine ⟨⟨hc.positions, hc.ids, hc.ids_nonempty, hc.streams, ?_, hc.bindings, hc.bindings_event,
      hc.bindings_revision, hw⟩, hext⟩
    intro k row hk
    obtain ⟨hshape, events, hby⟩ := hc.records k row hk
    exact ⟨hshape, events, hext.eventsByIds hby⟩

theorem storeStep_write (db : Database) (call : AppendCall) (r : Readings) :
    storeStep db (.write call, r) = (commit (call.transaction db r) db).2 := rfl

/-- One operation of the store keeps the tables in agreement and loses nothing. -/
theorem storeStep_keeps {db : Database} (hc : Coherent db) (l : StoreOp × Readings) :
    Coherent (storeStep db l) ∧ Extends db (storeStep db l) := by
  obtain ⟨op, r⟩ := l
  cases op with
  | write call =>
    rw [storeStep_write]
    cases hx : call.transaction db r with
    | error e => exact ⟨hc, .refl _⟩
    | ok res => exact AppendCall.transaction_keeps hc hx
  | claimLease j h ttl => exact onLeases_keeps hc fun _ _ hx => LeaseTables.claim_keeps hc.leases hx
  | renewLease l ttl => exact onLeases_keeps hc fun _ _ hx => LeaseTables.renew_keeps hc.leases hx
  | releaseRow l =>
    refine onLeases_keeps hc fun a t hx => ?_
    obtain ⟨t', ht', hx⟩ := bind_eq_ok.mp hx
    simp only [pure_eq_ok, Prod.mk.injEq] at hx
    obtain ⟨-, rfl⟩ := hx
    exact LeaseTables.releaseRow_keeps hc.leases ht'
  | lookupIdempotency _ | currentSequence _ _ | readStream _ _ | readAll | assertCurrent _ | currentLease _ =>
    exact ⟨hc, .refl _⟩

theorem empty_coherent : Coherent .empty where
  positions := List.Pairwise.nil
  ids := List.Pairwise.nil
  ids_nonempty := by simp [Database.empty]
  streams _ _ := rfl
  records := by simp [Database.empty]
  bindings := List.Pairwise.nil
  bindings_event := by simp [Database.empty]
  bindings_revision := by simp [Database.empty]
  leases := LeaseTables.empty_wellFormed

theorem run_coherent {db : Database} (hc : Coherent db) (labels : List (StoreOp × Readings)) :
    Coherent (run storeStep db labels) ∧ Extends db (run storeStep db labels) :=
  run_keeps Coherent Extends Extends.refl Extends.trans storeStep_keeps hc labels

end Autolean.ControlPlane
