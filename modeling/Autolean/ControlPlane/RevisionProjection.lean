import Autolean.ControlPlane.CommandKeys

/-! The contract-revision projection: its rebuild when a database is opened, and the
runs in which it stays the image of the registration events. -/
namespace Autolean.ControlPlane
open Contracts Machine Raising

namespace Database

/-- `WHERE entity_type = 'task' AND event_type = 'task.registered' ORDER BY global_position`. -/
def registrationEvents (db : Database) : List StoredEvent :=
  db.events.filter fun e => e.entityType = "task" ∧ e.eventType = "task.registered"

/-- The rows have one primary key. -/
def SameRevision (a b : RevisionBindingRow) : Prop :=
  a.binding.contractId = b.binding.contractId ∧ a.binding.revision = b.binding.revision

instance (a b : RevisionBindingRow) : Decidable (SameRevision a b) := inferInstanceAs (Decidable (_ ∧ _))

/-- The projection the registration events call for. -/
def expectedBindings : List StoredEvent → List RevisionBindingRow → Raises (List RevisionBindingRow)
  | [], expected => .ok expected
  | e :: rest, expected => do
    let binding ← registrationBindingFromEventRow e
    ensure (∀ row ∈ expected, ¬ SameRevision row ⟨binding, e.eventId⟩)
      (.projectionError ("legacy registration events contain a duplicate contract revision " ++
        binding.contractId ++ "@" ++ toString binding.revision))
    ensure (∀ row ∈ expected, row.binding.bundleId ≠ binding.bundleId)
      (.projectionError ("legacy registration events bind one bundle ID to multiple contract revisions: " ++
        binding.bundleId))
    expectedBindings rest (expected ++ [⟨binding, e.eventId⟩])

/-- `sorted(keys)[0]`. -/
def firstRevision (rows : List RevisionBindingRow) : Option (String × Int) :=
  ((rows.map fun row => (row.binding.contractId, row.binding.revision)).insertionSort
    fun a b => a.1 < b.1 ∨ (a.1 = b.1 ∧ a.2 ≤ b.2)).head?

/-- Compare each expected row with the projection read at the start; insert the missing ones. -/
def reconcileBindings (projected : List RevisionBindingRow) : List RevisionBindingRow → Database → Raises Database
  | [], db => .ok db
  | value :: rest, db =>
    match projected.find? fun row => SameRevision row value with
    | some existing => do
      ensure (existing = value)
        (.projectionError ("contract revision projection disagrees with its canonical registration event for " ++
          value.binding.contractId ++ "@" ++ toString value.binding.revision))
      reconcileBindings projected rest db
    | none =>
      match db.insertContractRevisionBinding value.binding value.registrationEventId with
      | .error .integrityError =>
        .error (.projectionError
          "legacy registration events violate the unique contract-revision or bundle-ID binding")
      | .error e => .error e
      | .ok db => reconcileBindings projected rest db

/-- What `EventStore(path)` does to a database it opens. -/
def initializeContractRevisionBindings (db : Database) : Raises Database := do
  let expected ← expectedBindings db.registrationEvents []
  let unexpected := db.contractRevisionBindings.filter fun row => ∀ value ∈ expected, ¬ SameRevision value row
  match firstRevision unexpected with
  | some (contractId, revision) =>
    .error (.projectionError ("contract revision projection contains no canonical registration event for " ++
      contractId ++ "@" ++ toString revision))
  | none => reconcileBindings db.contractRevisionBindings expected db

/-- The row a registration event calls for. -/
def Projects (e : StoredEvent) (row : RevisionBindingRow) : Prop :=
  registrationBindingFromEventRow e = .ok row.binding ∧ row.registrationEventId = e.eventId

/-- The projection is the image of the registration events, row by row. -/
def RevisionImage (db : Database) : Prop :=
  List.Forall₂ Projects db.registrationEvents db.contractRevisionBindings

private theorem expectedBindings_image {events : List StoredEvent} {rows acc : List RevisionBindingRow}
    (h : List.Forall₂ Projects events rows) (hp : (acc ++ rows).Pairwise RevisionBindingRow.Apart) :
    expectedBindings events acc = .ok (acc ++ rows) := by
  induction h generalizing acc with
  | nil => simp [expectedBindings]
  | @cons e row events rows hrow _ ih =>
    obtain ⟨hdec, hid⟩ := hrow
    have hacc := (List.pairwise_append.mp hp).2.2
    have happ : acc ++ row :: rows = (acc ++ [row]) ++ rows := by simp
    obtain ⟨binding, eventId⟩ := row
    simp only at hdec hid
    subst hid
    unfold expectedBindings
    rw [hdec, ok_bind]
    refine ensure_bind_eq_ok.mpr ⟨fun r hr => (hacc r hr _ List.mem_cons_self).1, ?_⟩
    refine ensure_bind_eq_ok.mpr ⟨fun r hr => (hacc r hr _ List.mem_cons_self).2.1, ?_⟩
    rw [happ] at hp ⊢
    exact ih hp

private theorem find_self {rows : List RevisionBindingRow} (hp : rows.Pairwise RevisionBindingRow.Apart)
    {row : RevisionBindingRow} (hrow : row ∈ rows) :
    rows.find? (fun other => decide (SameRevision other row)) = some row := by
  induction rows with
  | nil => simp at hrow
  | cons first rest ih =>
    obtain ⟨hfirst, hrest⟩ := List.pairwise_cons.mp hp
    rcases List.mem_cons.mp hrow with rfl | hmem
    · simp [SameRevision]
    · have hne : ¬ SameRevision first row := (hfirst row hmem).1
      rw [List.find?_cons_of_neg (by simpa using hne)]
      exact ih hrest hmem

private theorem reconcileBindings_self {projected rows : List RevisionBindingRow} {db : Database}
    (hp : projected.Pairwise RevisionBindingRow.Apart) (hsub : ∀ row ∈ rows, row ∈ projected) :
    reconcileBindings projected rows db = .ok db := by
  induction rows with
  | nil => rfl
  | cons row rest ih =>
    have hfind := find_self hp (hsub row List.mem_cons_self)
    unfold reconcileBindings
    rw [hfind]
    exact ensure_bind_eq_ok.mpr ⟨rfl, ih fun r hr => hsub r (List.mem_cons_of_mem _ hr)⟩

/-- Opening a database whose projection is the image of its events changes nothing. -/
theorem reopen_unchanged {db : Database} (hc : Coherent db) (hi : db.RevisionImage) :
    db.initializeContractRevisionBindings = .ok db := by
  have hexp : expectedBindings db.registrationEvents [] = .ok ([] ++ db.contractRevisionBindings) :=
    expectedBindings_image hi (by simpa using hc.bindings)
  have hun : db.contractRevisionBindings.filter
      (fun row => decide (∀ value ∈ db.contractRevisionBindings, ¬ SameRevision value row)) = [] := by
    refine List.filter_eq_nil_iff.mpr fun row hrow => ?_
    simp only [decide_eq_true_eq, not_forall, not_not]
    exact ⟨row, hrow, rfl, rfl⟩
  unfold initializeContractRevisionBindings
  rw [hexp, ok_bind]
  simp only [List.nil_append, hun, firstRevision, List.map_nil, List.insertionSort_nil, List.head?_nil]
  exact reconcileBindings_self hc.bindings fun _ hr => hr

theorem registrationEvents_append {db db' : Database} {new : List StoredEvent} (h : db'.events = db.events ++ new) :
    db'.registrationEvents =
      db.registrationEvents ++ new.filter fun e => e.entityType = "task" ∧ e.eventType = "task.registered" := by
  simp [registrationEvents, h]

end Database

namespace AppendCall

/-- The call finds everything its new write needs. -/
def Writes (db : Database) (r : Readings) (call : AppendCall) : Prop :=
  call.batch.Writable db r ∧ call.Admits db r ∧
    call.expectedSequence = db.currentSequence call.batch.entityType call.batch.entityId

/-- A write that puts a registration event on a task stream without its projection row:
a fenced append of such an event, or a registration whose payload does not decode to the
binding it is called with. -/
def MisregistersTask (db : Database) (r : Readings) : AppendCall → Prop
  | append .. => False
  | call@(appendFenced b _ _ _) =>
    (b.entityType = "task" ∧ ∃ e ∈ b.events, e.eventType = "task.registered") ∧ call.Writes db r
  | call@(registration binding event _ _) =>
    Database.registrationBindingFromPayload event.payload ≠ .ok binding ∧ call.Writes db r

private theorem stored_not_registered {b : Batch} {db : Database} {r : Readings}
    (h : ¬ (b.entityType = "task" ∧ ∃ e ∈ b.events, e.eventType = "task.registered")) :
    (b.stored db r).filter (fun e => decide (e.entityType = "task" ∧ e.eventType = "task.registered")) = [] := by
  refine List.filter_eq_nil_iff.mpr fun e he => ?_
  obtain ⟨ht, -, -, -, -, event, hev, hty, -⟩ := mem_stampEvents he
  simp only [decide_eq_true_eq]
  rintro ⟨ht', hty'⟩
  exact h ⟨ht ▸ ht', event, hev, hty ▸ hty'⟩

/-- One append transaction keeps the projection an image unless it misregisters a task. -/
theorem transaction_keeps_image {db db' : Database} {r : Readings} {call : AppendCall} {events : List StoredEvent}
    (hi : db.RevisionImage) (h : call.transaction db r = .ok (events, db')) (hok : ¬ call.MisregistersTask db r) :
    db'.RevisionImage := by
  cases transaction_outcome h with
  | replayed _ _ => exact hi
  | linked _ _ _ => exact hi
  | written _ hw ha hs =>
    have hevents := written_events db r call
    have unregistered (hb : ¬ (call.batch.entityType = "task" ∧
        ∃ e ∈ call.batch.events, e.eventType = "task.registered"))
        (hrows : (call.written db r).contractRevisionBindings = db.contractRevisionBindings) :
        (call.written db r).RevisionImage := by
      unfold Database.RevisionImage
      rw [Database.registrationEvents_append hevents, stored_not_registered hb, List.append_nil, hrows]
      exact hi
    cases call with
    | append b expected => exact unregistered ha rfl
    | appendFenced b taskId lease expected => exact unregistered (fun hb => hok ⟨hb, hw, ha, hs⟩) rfl
    | registration binding event idempotency nonce =>
      have hdec : Database.registrationBindingFromPayload event.payload = .ok binding :=
        not_not.mp fun hne => hok ⟨hne, hw, ha, hs⟩
      unfold Database.RevisionImage
      rw [Database.registrationEvents_append hevents]
      refine List.rel_append hi ?_
      simp only [batch, Batch.stored, stampEvents, ha.1, and_self, decide_true, List.filter_cons_of_pos, List.filter_nil]
      refine List.Forall₂.cons ⟨?_, rfl⟩ .nil
      unfold Database.registrationBindingFromEventRow
      rw [hdec, ok_bind]
      exact ensure_bind_eq_ok.mpr ⟨rfl, rfl⟩

end AppendCall

/-- The step is not a write that misregisters a task. -/
def KeepsProjection (db : Database) (l : StoreOp × Readings) : Prop :=
  ∀ call, l.1 = .write call → ¬ call.MisregistersTask db l.2

theorem storeStep_keeps_image {db : Database} {l : StoreOp × Readings} (hi : db.RevisionImage)
    (hok : KeepsProjection db l) : (storeStep db l).RevisionImage := by
  obtain ⟨op, r⟩ := l
  have frame {α : Type} (x : Raises (α × LeaseTables)) : (onLeases x db).2.RevisionImage := by
    cases x with
    | ok at' => exact hi
    | error e => exact hi
  cases op with
  | write call =>
    rw [storeStep_write]
    cases hx : call.transaction db r with
    | error e => exact hi
    | ok res => exact AppendCall.transaction_keeps_image hi hx (hok call rfl)
  | claimLease _ _ _ | renewLease _ _ | releaseRow _ => exact frame _
  | lookupIdempotency _ | currentSequence _ _ | readStream _ _ | readAll | assertCurrent _ | currentLease _ => exact hi

/-- In every run whose steps misregister no task, the projection is the image of the
registration events in the state reached, and opening that database again succeeds and
changes nothing. -/
theorem revision_projection_exact (labels : List (StoreOp × Readings))
    (h : StepsMeet storeStep KeepsProjection .empty labels) :
    (run storeStep .empty labels).RevisionImage ∧
      (run storeStep .empty labels).initializeContractRevisionBindings = .ok (run storeStep .empty labels) := by
  have hi : (run storeStep .empty labels).RevisionImage :=
    run_invariant Database.RevisionImage (fun _ _ hi hok => storeStep_keeps_image hi hok) .nil h
  exact ⟨hi, Database.reopen_unchanged (run_coherent empty_coherent labels).1 hi⟩

def sampleBinding : ContractRevisionBinding :=
  ⟨"contract", 1, "bundle", sampleHash, sampleHash, by decide, by decide, by decide, by decide⟩

def sampleNonce : AttestationNonce :=
  ⟨"builder", "key", "nonce-0123456789", sampleHash, by decide, by decide, by decide, by decide⟩

/-- A registration event of the sample bundle for the given revision. -/
def sampleRegistration (revision : Int) : NewEvent :=
  ⟨"task.registered", [("bundle_id", .str "bundle"), ("bundle_hash", .str sampleHash),
    ("contract_id", .str "contract"), ("revision", .int revision), ("contract_hash", .str sampleHash)], []⟩

theorem revision_projection_exact_registered :
    (run storeStep .empty [(.write (.registration sampleBinding (sampleRegistration 1) sampleKey sampleNonce),
      .sample 0 'a')]).RevisionImage := by
  refine (revision_projection_exact _ ?_).1
  exact ⟨by rintro _ ⟨rfl⟩ ⟨hne, -⟩; exact hne rfl, trivial⟩

/-- A fenced append of a registration event under a current lease. -/
def fencedMisregistration : List (StoreOp × Readings) :=
  [(.claimLease "bundle" "worker" 60, .sample 0 'a'),
    (.write (.appendFenced ⟨"task", "bundle", [sampleRegistration 1], none, none⟩ "bundle" sampleLease 0),
      .sample 1 'b')]

/-- A registration whose payload names another revision than its binding. -/
def payloadMisregistration : List (StoreOp × Readings) :=
  [(.write (.registration sampleBinding (sampleRegistration 2) sampleKey sampleNonce), .sample 0 'a')]

theorem misregistered_task_breaks_projection :
    (∃ e, (run storeStep .empty payloadMisregistration).initializeContractRevisionBindings = .error e) ∧
      ¬ (run storeStep .empty fencedMisregistration).RevisionImage ∧
      ¬ ∀ labels : List (StoreOp × Readings), (run storeStep .empty labels).RevisionImage ∧
        (run storeStep .empty labels).initializeContractRevisionBindings = .ok (run storeStep .empty labels) := by
  have hfenced : ¬ (run storeStep .empty fencedMisregistration).RevisionImage := by
    intro h
    have hlen := List.Forall₂.length_eq h
    have hevents : (run storeStep .empty fencedMisregistration).registrationEvents.length = 1 := by decide +kernel
    have hrows : (run storeStep .empty fencedMisregistration).contractRevisionBindings.length = 0 := by decide +kernel
    omega
  exact ⟨⟨_, rfl⟩, hfenced, fun h => hfenced (h _).1⟩

end Autolean.ControlPlane
