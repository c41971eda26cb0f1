import Autolean.Builder.Contract
import Autolean.Machine.Checked
import Autolean.Machine.Keyed
import Autolean.Machine.Runs
import Autolean.Text.JsonRoundTrip

/-! The ledger of source preparations: one row for each preparation and for each revision of a
contract, recorded once and read back as the authority. -/
namespace Autolean.Builder.Ledger
open Contracts Machine Machine.Raising

inductive LedgerError where
  /-- `SourcePreparationError`. -/
  | sourcePreparationError (message : String)
  /-- `OverflowError`: the integer does not fit a column of the database. -/
  | overflowError
  /-- `sqlite3.IntegrityError`. -/
  | integrityError
  deriving DecidableEq

abbrev Raises := Except LedgerError

/-! Records -/

structure RecordFields where
  preparationId : StableIdentifier
  contractId : StableIdentifier
  revision : Int
  packetSha256 : String
  contractSha256 : String
  rightsSha256 : String
  spansSha256 : String
  manifestSha256 : String
  artifactSha256 : String
  parentArtifactSha256 : String

namespace RecordFields

def digests (r : RecordFields) : List (String × String) := [
  ("packet_sha256", r.packetSha256), ("contract_sha256", r.contractSha256), ("rights_sha256", r.rightsSha256),
  ("spans_sha256", r.spansSha256), ("manifest_sha256", r.manifestSha256), ("artifact_sha256", r.artifactSha256),
  ("parent_artifact_sha256", r.parentArtifactSha256)]

/-- `SourcePreparationRecordV1.__post_init__`. -/
def postInit (r : RecordFields) : Raises Unit := do
  ensure (namespaceOf r.preparationId = "source-preparation")
    (.sourcePreparationError "preparation_id must use the source-preparation namespace")
  ensure (1 ≤ r.revision) (.sourcePreparationError "source-preparation revision must be positive")
  r.digests.forM fun item => ensure (IsSha256 item.2) (.sourcePreparationError (item.1 ++ " must be a lowercase SHA-256 digest"))

end RecordFields

abbrev SourcePreparationRecordV1 := Checked RecordFields.postInit

/-! Rows -/

inductive SqlValue where
  | text (value : String)
  | integer (value : Int)
  deriving DecidableEq

/-- `str(value)`. -/
def SqlValue.str : SqlValue → List Char
  | text value => value.toList
  | integer value => Text.printInt value

/-- A row of `source_preparations`. -/
structure Row where
  preparationId : String
  contractId : String
  revision : Int
  packetSha256 : String
  contractSha256 : String
  rightsSha256 : String
  spansSha256 : String
  manifestSha256 : String
  artifactSha256 : String
  parentArtifactSha256 : String
  deriving DecidableEq

namespace Row

/-- The columns in the order they are selected in. -/
def columns (row : Row) : List SqlValue := [
  .text row.preparationId, .text row.contractId, .integer row.revision, .text row.packetSha256, .text row.contractSha256,
  .text row.rightsSha256, .text row.spansSha256, .text row.manifestSha256, .text row.artifactSha256,
  .text row.parentArtifactSha256]

/-- The columns of the second uniqueness constraint. -/
def contractRevision (row : Row) : String × Int := (row.contractId, row.revision)

end Row

/-- `database_values`. -/
def RecordFields.databaseValues (r : RecordFields) : Row where
  preparationId := r.preparationId.value
  contractId := r.contractId.value
  revision := r.revision
  packetSha256 := r.packetSha256
  contractSha256 := r.contractSha256
  rightsSha256 := r.rightsSha256
  spansSha256 := r.spansSha256
  manifestSha256 := r.manifestSha256
  artifactSha256 := r.artifactSha256
  parentArtifactSha256 := r.parentArtifactSha256

/-- `_row_matches`. -/
def rowMatches (row : Row) (r : RecordFields) : Bool :=
  row.columns.length = r.databaseValues.columns.length &&
    (row.columns.zip r.databaseValues.columns).all fun pair => pair.1.str = pair.2.str

/-! The table -/

abbrev Table := List Row

namespace Table

/-- `SELECT ... WHERE condition ORDER BY preparation_id`. -/
def select (table : Table) (condition : Row → Bool) : List Row :=
  (table.filter condition).insertionSort fun a b => a.preparationId ≤ b.preparationId

/-- `INSERT INTO source_preparations`, under the constraints of the table. -/
def insert (table : Table) (row : Row) : Raises Table :=
  if row.preparationId ∈ table.map Row.preparationId ∨ row.contractRevision ∈ table.map Row.contractRevision ∨ row.revision < 1
  then .error .integrityError
  else .ok (table ++ [row])

end Table

/-- Python passes the database 64-bit integers. -/
def bindInteger (value : Int) : Raises Unit := ensure (-2 ^ 63 ≤ value ∧ value < 2 ^ 63) .overflowError

/-- The transaction of `SourcePreparationLedger.record`, up to its commit. -/
def record (table : Table) (r : SourcePreparationRecordV1) : Raises Table := do
  bindInteger r.value.revision
  let row := r.value.databaseValues
  match table.select fun other => other.preparationId = row.preparationId ∨ other.contractRevision = row.contractRevision with
  | [] => table.insert row
  | [existing] =>
    if rowMatches existing r.value then .ok table
    else .error (.sourcePreparationError "source preparation conflicts with the append-only contract revision")
  | _ => .error (.sourcePreparationError "source preparation conflicts with the append-only contract revision")

/-- `SourcePreparationLedger.require`. -/
def require (table : Table) (r : SourcePreparationRecordV1) : Raises Unit :=
  match table.select fun other => other.preparationId = r.value.preparationId.value with
  | [row] => ensure (rowMatches row r.value) (.sourcePreparationError "source preparation differs from the authority ledger")
  | _ => .error (.sourcePreparationError "source preparation is absent from the authority ledger")

/-! Sequences of calls -/

inductive Call where
  | record (r : SourcePreparationRecordV1)
  | require (r : SourcePreparationRecordV1)

/-- The table after a call: a call that raises rolls its transaction back. -/
def step (table : Table) : Call → Table
  | .record r =>
    match record table r with
    | .ok table' => table'
    | .error _ => table
  | .require _ => table

/-- The table after a sequence of calls on a new ledger. -/
def tableAfter (calls : List Call) : Table := run step [] calls

/-- Some call of the sequence recorded the record and returned. -/
def RecordedBy (calls : List Call) (r : SourcePreparationRecordV1) : Prop :=
  ∃ before after table, calls = before ++ .record r :: after ∧ record (tableAfter before) r = .ok table

/-- A stored row with one of the record's keys. -/
def Conflicts (table : Table) (r : SourcePreparationRecordV1) : Prop :=
  ∃ row ∈ table, row ≠ r.value.databaseValues ∧
    (row.preparationId = r.value.preparationId.value ∨ row.contractRevision = r.value.databaseValues.contractRevision)

/-! What is matched and selected -/

theorem str_text {a b : String} : (SqlValue.text a).str = (SqlValue.text b).str ↔ a = b := String.toList_inj

theorem str_integer {m n : Int} : (SqlValue.integer m).str = (SqlValue.integer n).str ↔ m = n := Text.printInt_injective.eq_iff

/-- A row matches a record just when it is the record's row. -/
theorem rowMatches_iff {row : Row} {r : RecordFields} : rowMatches row r = true ↔ row = r.databaseValues := by
  simp only [rowMatches, Row.columns, List.length_cons, List.length_nil, decide_true, Bool.true_and, List.zip_cons_cons,
    List.zip_nil_right, List.all_cons, List.all_nil, Bool.and_true, Bool.and_eq_true, decide_eq_true_eq, str_text, str_integer]
  constructor
  · rintro ⟨h1, h2, h3, h4, h5, h6, h7, h8, h9, h10⟩
    cases row
    simp_all only
  · rintro rfl
    exact ⟨rfl, rfl, rfl, rfl, rfl, rfl, rfl, rfl, rfl, rfl⟩

theorem identifier_ext {a b : StableIdentifier} (h : a.value = b.value) : a = b := by
  cases a
  cases b
  cases h
  rfl

theorem databaseValues_injective : Function.Injective RecordFields.databaseValues := by
  intro a b h
  have hpreparation : a.preparationId = b.preparationId := identifier_ext (congrArg Row.preparationId h)
  have hcontract : a.contractId = b.contractId := identifier_ext (congrArg Row.contractId h)
  cases a
  cases b
  simp only [RecordFields.databaseValues, Row.mk.injEq] at h
  simp_all only

/-- No two rows share a preparation, or a revision of a contract. -/
structure Distinct (table : Table) : Prop where
  preparations : (table.map Row.preparationId).Nodup
  contractRevisions : (table.map Row.contractRevision).Nodup

theorem Distinct.nodup {table : Table} (h : Distinct table) : table.Nodup := h.preparations.of_map

theorem mem_select {table : Table} {condition : Row → Bool} {row : Row} :
    row ∈ table.select condition ↔ row ∈ table ∧ condition row = true := by
  rw [Table.select, (List.perm_insertionSort _ _).mem_iff, List.mem_filter]

theorem select_of_one {table : Table} {condition : Row → Bool} {row : Row} (h : table.Nodup) (hrow : row ∈ table)
    (hone : ∀ other ∈ table, condition other = true ↔ other = row) : table.select condition = [row] := by
  rw [Table.select, Keyed.filter_eq_singleton h hrow hone]
  rfl

/-! One call -/

/-- A stored record is required, and recorded again, without an effect. -/
theorem require_of_mem {table : Table} (h : Distinct table) {r : SourcePreparationRecordV1}
    (hr : r.value.databaseValues ∈ table) :
    require table r = .ok () := by
  have hone : table.select (fun other => other.preparationId = r.value.preparationId.value) = [r.value.databaseValues] := by
    refine select_of_one h.nodup hr fun other hother => ?_
    rw [decide_eq_true_eq]
    constructor
    · exact fun hsame => List.inj_on_of_nodup_map h.preparations hother hr hsame
    · rintro rfl
      rfl
  rw [require, hone]
  exact ensure_of _ (rowMatches_iff.mpr rfl)

theorem mem_of_require {table : Table} {r : SourcePreparationRecordV1} (h : require table r = .ok ()) :
    r.value.databaseValues ∈ table := by
  unfold require at h
  split at h
  · rename_i row hselect
    have hrow : row ∈ table := (mem_select.mp (hselect ▸ List.mem_singleton.mpr rfl)).1
    rw [ensure_eq_ok, rowMatches_iff] at h
    exact h ▸ hrow
  · cases h

theorem record_of_mem {table : Table} (h : Distinct table) {r : SourcePreparationRecordV1} (hr : r.value.databaseValues ∈ table)
    (hfits : bindInteger r.value.revision = .ok ()) : record table r = .ok table := by
  have hone : (table.select fun other => other.preparationId = r.value.databaseValues.preparationId ∨
      other.contractRevision = r.value.databaseValues.contractRevision) = [r.value.databaseValues] := by
    refine select_of_one h.nodup hr fun other hother => ?_
    rw [decide_eq_true_eq]
    constructor
    · rintro (hsame | hsame)
      · exact List.inj_on_of_nodup_map h.preparations hother hr hsame
      · exact List.inj_on_of_nodup_map h.contractRevisions hother hr hsame
    · rintro rfl
      exact .inl rfl
  simp only [record, hfits, ok_bind, hone]
  rw [if_pos (rowMatches_iff.mpr rfl)]

theorem record_conflict {table : Table} {r : SourcePreparationRecordV1} (h : Conflicts table r) :
    ∃ e, record table r = .error e := by
  obtain ⟨row, hrow, hne, hkey⟩ := h
  cases hfits : bindInteger r.value.revision with
  | error e => exact ⟨e, by rw [record, hfits, error_bind]⟩
  | ok u =>
    simp only [record, hfits, ok_bind]
    have hselected : row ∈ table.select fun other => other.preparationId = r.value.databaseValues.preparationId ∨
        other.contractRevision = r.value.databaseValues.contractRevision :=
      mem_select.mpr ⟨hrow, decide_eq_true hkey⟩
    split
    · rename_i hselect
      rw [hselect] at hselected
      cases hselected
    · rename_i existing hselect
      rw [hselect, List.mem_singleton] at hselected
      have hmismatch : ¬ rowMatches existing r.value = true := fun hmatch => hne (hselected.trans (rowMatches_iff.mp hmatch))
      rw [if_neg hmismatch]
      exact ⟨_, rfl⟩
    · exact ⟨_, rfl⟩

/-- A record that fits the database and conflicts with no row is stored: it was there, or it is
the new last row. -/
theorem record_fresh {table : Table} (h : Distinct table) {r : SourcePreparationRecordV1}
    (hfits : bindInteger r.value.revision = .ok ()) (hfree : ¬ Conflicts table r) :
    ∃ table', record table r = .ok table' ∧ r.value.databaseValues ∈ table' := by
  by_cases hr : r.value.databaseValues ∈ table
  · exact ⟨table, record_of_mem h hr hfits, hr⟩
  · -- Every row with a key of the record would be its own row or a conflict.
    have hapart : ∀ row ∈ table, row.preparationId ≠ r.value.databaseValues.preparationId ∧
        row.contractRevision ≠ r.value.databaseValues.contractRevision := by
      intro row hrow
      have hne : row ≠ r.value.databaseValues := fun hsame => hr (hsame ▸ hrow)
      exact ⟨fun hkey => hfree ⟨row, hrow, hne, .inl hkey⟩, fun hkey => hfree ⟨row, hrow, hne, .inr hkey⟩⟩
    have hnone : (table.select fun other => other.preparationId = r.value.databaseValues.preparationId ∨
        other.contractRevision = r.value.databaseValues.contractRevision) = [] := by
      refine List.eq_nil_iff_forall_not_mem.mpr fun row hselected => ?_
      obtain ⟨hrow, hkey⟩ := mem_select.mp hselected
      obtain ⟨hp, hc⟩ := hapart row hrow
      exact (of_decide_eq_true hkey).elim hp hc
    have hpreparation : r.value.databaseValues.preparationId ∉ table.map Row.preparationId := by
      intro hmem
      obtain ⟨row, hrow, hkey⟩ := List.mem_map.mp hmem
      exact (hapart row hrow).1 hkey
    have hcontract : r.value.databaseValues.contractRevision ∉ table.map Row.contractRevision := by
      intro hmem
      obtain ⟨row, hrow, hkey⟩ := List.mem_map.mp hmem
      exact (hapart row hrow).2 hkey
    have hpositive : ¬ r.value.databaseValues.revision < 1 := by
      obtain ⟨-, hpassed⟩ := seq_eq_ok.mp r.passed
      obtain ⟨hrevision, -⟩ := seq_eq_ok.mp hpassed
      exact not_lt.mpr (ensure_eq_ok.mp hrevision)
    refine ⟨table ++ [r.value.databaseValues], ?_, List.mem_append_right _ (List.mem_singleton.mpr rfl)⟩
    simp only [record, hfits, ok_bind, hnone]
    rw [Table.insert, if_neg (by simp only [hpreparation, hcontract, hpositive, or_self, not_false_eq_true])]

/-- A call that returned has stored the record: it was there, or it is the new last row. -/
theorem record_ok {table table' : Table} {r : SourcePreparationRecordV1} (h : record table r = .ok table') :
    bindInteger r.value.revision = .ok () ∧
      (table' = table ∧ r.value.databaseValues ∈ table ∨
        table' = table ++ [r.value.databaseValues] ∧ r.value.databaseValues.preparationId ∉ table.map Row.preparationId ∧
          r.value.databaseValues.contractRevision ∉ table.map Row.contractRevision) := by
  obtain ⟨_, hfits, h⟩ := bind_eq_ok.mp h
  refine ⟨hfits, ?_⟩
  dsimp only at h
  split at h
  · unfold Table.insert at h
    split_ifs at h with hkeys
    cases h
    simp only [not_or] at hkeys
    exact .inr ⟨rfl, hkeys.1, hkeys.2.1⟩
  · rename_i existing hselect
    split_ifs at h with hmatch
    cases h
    have hmem : existing ∈ table := (mem_select.mp (hselect ▸ List.mem_singleton.mpr rfl)).1
    exact .inl ⟨rfl, rowMatches_iff.mp hmatch ▸ hmem⟩
  · cases h

/-! Sequences of calls -/

theorem Distinct.concat {table : Table} (h : Distinct table) {row : Row}
    (hp : row.preparationId ∉ table.map Row.preparationId) (hc : row.contractRevision ∉ table.map Row.contractRevision) :
    Distinct (table ++ [row]) where
  preparations := by
    rw [List.map_append]
    exact List.nodup_append_comm.mp (List.nodup_cons.mpr ⟨hp, h.preparations⟩)
  contractRevisions := by
    rw [List.map_append]
    exact List.nodup_append_comm.mp (List.nodup_cons.mpr ⟨hc, h.contractRevisions⟩)

/-- A call only adds a row with new keys, at the end. -/
theorem step_keeps {table : Table} (h : Distinct table) (c : Call) : Distinct (step table c) ∧ table <+: step table c := by
  cases c with
  | require r => exact ⟨h, List.prefix_refl _⟩
  | record r =>
    cases hr : record table r with
    | error e => simpa only [step, hr] using ⟨h, List.prefix_refl _⟩
    | ok table' =>
      simp only [step, hr]
      rcases (record_ok hr).2 with ⟨rfl, -⟩ | ⟨rfl, hp, hc⟩
      · exact ⟨h, List.prefix_refl _⟩
      · exact ⟨h.concat hp hc, List.prefix_append _ _⟩

theorem distinct_nil : Distinct [] := ⟨List.nodup_nil, List.nodup_nil⟩

theorem tableAfter_distinct (calls : List Call) : Distinct (tableAfter calls) :=
  (run_keeps Distinct (· <+: ·) List.prefix_refl List.IsPrefix.trans step_keeps distinct_nil calls).1

theorem tableAfter_append (calls more : List Call) : tableAfter calls <+: tableAfter (calls ++ more) := by
  rw [tableAfter, tableAfter, run_append]
  exact (run_keeps Distinct (· <+: ·) List.prefix_refl List.IsPrefix.trans step_keeps (tableAfter_distinct calls) more).2

/-- The rows are those of the records whose calls returned. -/
theorem mem_tableAfter (calls : List Call) (r : SourcePreparationRecordV1) :
    r.value.databaseValues ∈ tableAfter calls ↔ RecordedBy calls r := by
  constructor
  · intro h
    induction calls using List.reverseRecOn with
    | nil => cases h
    | append_singleton calls c ih =>
      have hearlier : r.value.databaseValues ∈ tableAfter calls → RecordedBy (calls ++ [c]) r := by
        intro hmem
        obtain ⟨before, after, table, rfl, hr⟩ := ih hmem
        exact ⟨before, after ++ [c], table, by simp, hr⟩
      rw [tableAfter, run_append] at h
      change r.value.databaseValues ∈ step (tableAfter calls) c at h
      cases c with
      | require s => exact hearlier h
      | record s =>
        cases hs : record (tableAfter calls) s with
        | error e =>
          simp only [step, hs] at h
          exact hearlier h
        | ok table' =>
          simp only [step, hs] at h
          rcases (record_ok hs).2 with ⟨rfl, -⟩ | ⟨rfl, -, -⟩
          · exact hearlier h
          · rcases List.mem_append.mp h with h | h
            · exact hearlier h
            · have hsame : r = s := Checked.ext_value (databaseValues_injective (List.mem_singleton.mp h))
              subst hsame
              exact ⟨calls, [], _, rfl, hs⟩
  · rintro ⟨before, after, table, rfl, hr⟩
    have hstored : r.value.databaseValues ∈ tableAfter (before ++ [.record r]) := by
      rw [tableAfter, run_append]
      change r.value.databaseValues ∈ step (tableAfter before) (.record r)
      simp only [step, hr]
      rcases (record_ok hr).2 with ⟨rfl, hmem⟩ | ⟨rfl, -, -⟩
      · exact hmem
      · exact List.mem_append_right _ (List.mem_singleton.mpr rfl)
    have hfront := tableAfter_append (before ++ [.record r]) after
    rw [List.append_assoc, List.singleton_append] at hfront
    exact hfront.subset hstored

/-- What a recorded record says fits the database. -/
theorem RecordedBy.fits {calls : List Call} {r : SourcePreparationRecordV1} (h : RecordedBy calls r) :
    bindInteger r.value.revision = .ok () := by
  obtain ⟨before, after, table, -, hr⟩ := h
  exact (record_ok hr).1

/-- The ledger holds one row for each key and keeps it, requires exactly what was recorded, takes the
same record again without an effect, stores one that fits the database and conflicts with no row,
and refuses one that conflicts. -/
theorem ledger_keeps_records (calls : List Call) :
    ((tableAfter calls).map Row.preparationId).Nodup ∧ ((tableAfter calls).map Row.contractRevision).Nodup ∧
    (∀ more, tableAfter calls <+: tableAfter (calls ++ more)) ∧
    (∀ r, require (tableAfter calls) r = .ok () ↔ RecordedBy calls r) ∧
    (∀ r, RecordedBy calls r → record (tableAfter calls) r = .ok (tableAfter calls)) ∧
    (∀ r, bindInteger r.value.revision = .ok () → ¬ Conflicts (tableAfter calls) r →
      ∃ table, record (tableAfter calls) r = .ok table ∧ r.value.databaseValues ∈ table) ∧
    ∀ r, Conflicts (tableAfter calls) r →
      (∃ e, record (tableAfter calls) r = .error e) ∧ step (tableAfter calls) (.record r) = tableAfter calls := by
  have hdistinct := tableAfter_distinct calls
  refine ⟨hdistinct.preparations, hdistinct.contractRevisions, tableAfter_append calls, fun r => ?_,
    fun r hr => ?_, fun r hfits hfree => record_fresh hdistinct hfits hfree, fun r hr => ?_⟩
  · rw [← mem_tableAfter]
    exact ⟨mem_of_require, require_of_mem hdistinct⟩
  · exact record_of_mem hdistinct ((mem_tableAfter calls r).mpr hr) hr.fits
  · obtain ⟨e, he⟩ := record_conflict hr
    refine ⟨⟨e, he⟩, ?_⟩
    simp only [step, he]

/-! One record, a second revision and a conflict -/

def sampleContract : StableIdentifier := ⟨"urn:autolean:v1:contract:00000000-0000-0000-0000-000000000001", by decide +kernel⟩

def sampleHash : String := (Digest.repeated 10).value

theorem sampleHash_sha256 : IsSha256 sampleHash := Digest.isSha256 _

def sampleFields (preparationId : StableIdentifier) (revision : Int) : RecordFields :=
  ⟨preparationId, sampleContract, revision, sampleHash, sampleHash, sampleHash, sampleHash, sampleHash, sampleHash, sampleHash⟩

theorem sampleFields_passes {preparationId : StableIdentifier} {revision : Int}
    (hnamespace : namespaceOf preparationId = "source-preparation") (hrevision : 1 ≤ revision) :
    (sampleFields preparationId revision).postInit = .ok () := by
  refine seq_eq_ok.mpr ⟨ensure_of _ hnamespace, seq_eq_ok.mpr ⟨ensure_of _ hrevision, forM_eq_ok.mpr ?_⟩⟩
  simp only [RecordFields.digests, sampleFields, List.forall_mem_cons, List.not_mem_nil, false_imp_iff, implies_true, and_true]
  exact ⟨ensure_of _ sampleHash_sha256, ensure_of _ sampleHash_sha256, ensure_of _ sampleHash_sha256,
    ensure_of _ sampleHash_sha256, ensure_of _ sampleHash_sha256, ensure_of _ sampleHash_sha256, ensure_of _ sampleHash_sha256⟩

def sampleFirst : SourcePreparationRecordV1 :=
  ⟨sampleFields ⟨"urn:autolean:v1:source-preparation:00000000-0000-0000-0000-000000000001", by decide +kernel⟩ 1,
    sampleFields_passes (by decide +kernel) (by decide)⟩

def sampleSecond : SourcePreparationRecordV1 :=
  ⟨sampleFields ⟨"urn:autolean:v1:source-preparation:00000000-0000-0000-0000-000000000002", by decide +kernel⟩ 2,
    sampleFields_passes (by decide +kernel) (by decide)⟩

/-- The revision of the first record under another preparation. -/
def sampleConflict : SourcePreparationRecordV1 :=
  ⟨sampleFields ⟨"urn:autolean:v1:source-preparation:00000000-0000-0000-0000-000000000003", by decide +kernel⟩ 1,
    sampleFields_passes (by decide +kernel) (by decide)⟩

/-- The first record is stored and taken again, a second revision is stored beside it, and a record
of the same revision is refused and never required. -/
theorem ledger_keeps_records_sample :
    let calls : List Call := [.record sampleFirst, .record sampleConflict, .require sampleConflict]
    require (tableAfter calls) sampleFirst = .ok () ∧ record (tableAfter calls) sampleFirst = .ok (tableAfter calls) ∧
    (∃ table, record (tableAfter calls) sampleSecond = .ok table ∧ sampleSecond.value.databaseValues ∈ table) ∧
    (∃ e, record (tableAfter calls) sampleConflict = .error e) ∧ require (tableAfter calls) sampleConflict ≠ .ok () ∧
    tableAfter calls <+: tableAfter (calls ++ [.record sampleSecond]) := by
  intro calls
  obtain ⟨-, -, hkept, hrequire, hagain, hfresh, hrefused⟩ := ledger_keeps_records calls
  have hstored : tableAfter calls = [sampleFirst.value.databaseValues] := by decide +kernel
  have hfirst : RecordedBy calls sampleFirst :=
    ⟨[], [.record sampleConflict, .require sampleConflict], [sampleFirst.value.databaseValues], rfl, by decide +kernel⟩
  have hconflict : Conflicts (tableAfter calls) sampleConflict := by
    rw [hstored]
    exact ⟨_, List.mem_singleton.mpr rfl, by decide +kernel, .inr rfl⟩
  have hfree : ¬ Conflicts (tableAfter calls) sampleSecond := by
    rw [hstored]
    rintro ⟨row, hrow, -, hkey⟩
    obtain rfl := List.mem_singleton.mp hrow
    revert hkey
    decide +kernel
  have hfits : bindInteger sampleSecond.value.revision = .ok () := ensure_of _ (by decide)
  refine ⟨(hrequire _).mpr hfirst, hagain _ hfirst, hfresh _ hfits hfree, (hrefused _ hconflict).1, ?_, hkept _⟩
  intro hrequired
  exact absurd (mem_of_require hrequired) (by rw [hstored]; decide +kernel)

end Autolean.Builder.Ledger
