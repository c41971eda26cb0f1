import Autolean.Text.CodePoints
import Autolean.Machine.Keyed

/-! JSON values as a program holds them, and the order `sort_keys` puts their keys in.
Texts and floats are any types: a source that decodes what it did not write holds texts with lone
surrogates, and one that writes what it validated holds strings. -/
namespace Autolean.Text
open Machine

inductive JsonTree (S F : Type) where
  | null
  | bool (b : Bool)
  | int (n : Int)
  | float (x : F)
  | str (s : S)
  | list (items : List (JsonTree S F))
  | dict (fields : List (S × JsonTree S F))

/-- What `json.loads` may return. -/
abbrev JsonValue (F : Type) := JsonTree PyText F

/-- A `dict` with text keys, in the order it was filled. -/
abbrev JsonDict (F : Type) := List (PyText × JsonValue F)

variable {S F : Type}

namespace JsonDict

def keys (d : JsonDict F) : List PyText := d.map Prod.fst

/-- `d.get(key)`. -/
def get (d : JsonDict F) (key : String) : Option (JsonValue F) := d.lookup (PyText.of key)

/-- A dict the source writes out. -/
def of (fields : List (String × JsonValue F)) : JsonDict F := fields.map fun f => (PyText.of f.1, f.2)

theorem keys_of (fields : List (String × JsonValue F)) : keys (of fields) = (fields.map Prod.fst).map PyText.of := by
  simp [keys, of]

@[simp] theorem get_of_nil (key : String) : get (of ([] : List (String × JsonValue F))) key = none := rfl

@[simp] theorem get_of_cons (k key : String) (v : JsonValue F) (fields : List (String × JsonValue F)) :
    get (of ((k, v) :: fields)) key = if k = key then some v else get (of fields) key := by
  simp only [get, of, List.map_cons, Keyed.lookup_cons, PyText.of_inj, eq_comm]

theorem of_append (a b : List (String × JsonValue F)) : of a ++ of b = of (a ++ b) := by
  simp [of]

end JsonDict

/-- A `dict` filled with the pairs: a later value takes the place of an earlier one. -/
def dictOf : JsonDict F → JsonDict F
  | [] => []
  | (k, v) :: rest =>
    match (dictOf rest).lookup k with
    | some w => (k, w) :: (dictOf rest).filter fun f => f.1 ≠ k
    | none => (k, v) :: dictOf rest

theorem dictOf_of_nodup {d : JsonDict F} (h : d.keys.Nodup) : dictOf d = d := by
  induction d with
  | nil => rfl
  | cons f d ih =>
    obtain ⟨hnot, hnodup⟩ := List.nodup_cons.mp h
    have hnone : d.lookup f.1 = none := by
      rw [List.lookup_eq_none_iff]
      rintro g hg
      exact bne_iff_ne.mpr fun e => hnot (e ▸ List.mem_map_of_mem hg)
    rw [dictOf, ih hnodup, hnone]

namespace JsonTree

/-- A text the source writes out. -/
def text (s : String) : JsonValue F := .str (PyText.of s)

/-- A value built from its parts satisfies what each list and each dict hands on from its parts. -/
@[elab_as_elim]
theorem induct {motive : JsonTree S F → Prop} (null : motive .null) (bool : ∀ b, motive (.bool b))
    (int : ∀ n, motive (.int n)) (float : ∀ x, motive (.float x)) (str : ∀ s, motive (.str s))
    (list : ∀ items, (∀ v ∈ items, motive v) → motive (.list items))
    (dict : ∀ fields, (∀ f ∈ fields, motive f.2) → motive (.dict fields)) (v : JsonTree S F) : motive v :=
  @JsonTree.rec S F motive (fun items => ∀ v ∈ items, motive v) (fun fields => ∀ f ∈ fields, motive f.2) (fun f => motive f.2)
    null bool int float str list dict (by simp) (fun _ _ hv hvs => List.forall_mem_cons.mpr ⟨hv, hvs⟩) (by simp)
    (fun _ _ hf hfs => List.forall_mem_cons.mpr ⟨hf, hfs⟩) (fun _ _ h => h) v

section DecidableEq
variable [DecidableEq S] [DecidableEq F]

mutual
def decEq : (a b : JsonTree S F) → Decidable (a = b)
  | .null, .null => .isTrue rfl
  | .bool a, .bool b => if h : a = b then .isTrue (by rw [h]) else .isFalse (by simpa using h)
  | .int a, .int b => if h : a = b then .isTrue (by rw [h]) else .isFalse (by simpa using h)
  | .float a, .float b => if h : a = b then .isTrue (by rw [h]) else .isFalse (by simpa using h)
  | .str a, .str b => if h : a = b then .isTrue (by rw [h]) else .isFalse (by simpa using h)
  | .list xs, .list ys => match decEqItems xs ys with
    | .isTrue h => .isTrue (by rw [h])
    | .isFalse h => .isFalse (by simpa using h)
  | .dict xs, .dict ys => match decEqFields xs ys with
    | .isTrue h => .isTrue (by rw [h])
    | .isFalse h => .isFalse (by simpa using h)
  | .null, .bool _ | .null, .int _ | .null, .float _ | .null, .str _ | .null, .list _ | .null, .dict _
  | .bool _, .null | .bool _, .int _ | .bool _, .float _ | .bool _, .str _ | .bool _, .list _ | .bool _, .dict _
  | .int _, .null | .int _, .bool _ | .int _, .float _ | .int _, .str _ | .int _, .list _ | .int _, .dict _
  | .float _, .null | .float _, .bool _ | .float _, .int _ | .float _, .str _ | .float _, .list _ | .float _, .dict _
  | .str _, .null | .str _, .bool _ | .str _, .int _ | .str _, .float _ | .str _, .list _ | .str _, .dict _
  | .list _, .null | .list _, .bool _ | .list _, .int _ | .list _, .float _ | .list _, .str _ | .list _, .dict _
  | .dict _, .null | .dict _, .bool _ | .dict _, .int _ | .dict _, .float _ | .dict _, .str _ | .dict _, .list _ =>
    .isFalse (by simp)

def decEqItems : (a b : List (JsonTree S F)) → Decidable (a = b)
  | [], [] => .isTrue rfl
  | [], _ :: _ | _ :: _, [] => .isFalse (by simp)
  | x :: xs, y :: ys => match decEq x y, decEqItems xs ys with
    | .isTrue h, .isTrue h' => .isTrue (by rw [h, h'])
    | .isFalse h, _ => .isFalse (by simp [h])
    | _, .isFalse h => .isFalse (by simp [h])

def decEqFields : (a b : List (S × JsonTree S F)) → Decidable (a = b)
  | [], [] => .isTrue rfl
  | [], _ :: _ | _ :: _, [] => .isFalse (by simp)
  | (k, x) :: xs, (l, y) :: ys =>
    if hk : k = l then
      match decEq x y, decEqFields xs ys with
      | .isTrue h, .isTrue h' => .isTrue (by rw [hk, h, h'])
      | .isFalse h, _ => .isFalse (by simp [h])
      | _, .isFalse h => .isFalse (by simp [h])
    else .isFalse (by simp [hk])
end

instance : DecidableEq (JsonTree S F) := decEq

end DecidableEq

mutual
/-- The property holds of the value and of all values inside it. -/
def Everywhere (P : JsonTree S F → Prop) : JsonTree S F → Prop
  | .list items => P (.list items) ∧ EverywhereItems P items
  | .dict fields => P (.dict fields) ∧ EverywhereFields P fields
  | v => P v

def EverywhereItems (P : JsonTree S F → Prop) : List (JsonTree S F) → Prop
  | [] => True
  | v :: items => Everywhere P v ∧ EverywhereItems P items

def EverywhereFields (P : JsonTree S F → Prop) : List (S × JsonTree S F) → Prop
  | [] => True
  | (_, v) :: fields => Everywhere P v ∧ EverywhereFields P fields
end

variable {P : JsonTree S F → Prop}

theorem everywhereItems_iff {items : List (JsonTree S F)} : EverywhereItems P items ↔ ∀ v ∈ items, Everywhere P v := by
  induction items with
  | nil => simp [EverywhereItems]
  | cons v items ih => simp [EverywhereItems, ih]

theorem everywhereFields_iff {fields : List (S × JsonTree S F)} : EverywhereFields P fields ↔ ∀ f ∈ fields, Everywhere P f.2 := by
  induction fields with
  | nil => simp [EverywhereFields]
  | cons f fields ih => simp [EverywhereFields, ih]

theorem everywhere_list {items : List (JsonTree S F)} :
    Everywhere P (.list items) ↔ P (.list items) ∧ ∀ v ∈ items, Everywhere P v := by
  rw [Everywhere, everywhereItems_iff]

theorem everywhere_dict {fields : List (S × JsonTree S F)} :
    Everywhere P (.dict fields) ↔ P (.dict fields) ∧ ∀ f ∈ fields, Everywhere P f.2 := by
  rw [Everywhere, everywhereFields_iff]

mutual
/-- The value with the keys of each dict in order. -/
def sortKeys : JsonValue F → JsonValue F
  | .list items => .list (sortItems items)
  | .dict fields => .dict ((sortFields fields).insertionSort fun a b => a.1 ≤ b.1)
  | v => v

def sortItems : List (JsonValue F) → List (JsonValue F)
  | [] => []
  | v :: items => sortKeys v :: sortItems items

def sortFields : List (PyText × JsonValue F) → List (PyText × JsonValue F)
  | [] => []
  | (k, v) :: fields => (k, sortKeys v) :: sortFields fields
end

theorem sortItems_eq_map (items : List (JsonValue F)) : sortItems items = items.map sortKeys := by
  induction items with
  | nil => rfl
  | cons v items ih => rw [sortItems, ih, List.map_cons]

theorem sortFields_eq_map (fields : JsonDict F) : sortFields fields = fields.map fun f => (f.1, sortKeys f.2) := by
  induction fields with
  | nil => rfl
  | cons f fields ih => rw [sortFields, ih, List.map_cons]

/-- The keys of the dict itself are in order. -/
def KeysAscend : JsonValue F → Prop
  | .dict fields => (JsonDict.keys fields).Pairwise (· ≤ ·)
  | _ => True

/-- A value whose keys are in order everywhere is its own sorting. -/
theorem sortKeys_eq_self {v : JsonValue F} (h : v.Everywhere KeysAscend) : v.sortKeys = v := by
  induction v using induct with
  | list items ih =>
    rw [everywhere_list] at h
    rw [sortKeys, sortItems_eq_map, List.map_congr_left fun v hv => ih v hv (h.2 v hv), List.map_id']
  | dict fields ih =>
    rw [everywhere_dict] at h
    have hsame : sortFields fields = fields := by
      rw [sortFields_eq_map, List.map_congr_left fun f hf => by rw [ih f hf (h.2 f hf)]]
      simp
    have hascend : (JsonDict.keys fields).Pairwise (· ≤ ·) := h.1
    rw [sortKeys, hsame, List.Pairwise.insertionSort_eq]
    exact List.pairwise_map.mp hascend
  | _ => rfl

end JsonTree

namespace JsonDict

/-- The dict with its keys in order, and the keys of all dicts inside it. -/
def sortKeys (d : JsonDict F) : JsonDict F := (d.map fun f => (f.1, f.2.sortKeys)).insertionSort fun a b => a.1 ≤ b.1

theorem sortKeys_perm (d : JsonDict F) : (sortKeys d).Perm (d.map fun f => (f.1, f.2.sortKeys)) :=
  List.perm_insertionSort _ _

theorem keys_sortKeys_perm (d : JsonDict F) : (keys (sortKeys d)).Perm (keys d) := by
  have h := (sortKeys_perm d).map Prod.fst
  rwa [List.map_map] at h

theorem lookup_map (g : JsonValue F → JsonValue F) (d : JsonDict F) (k : PyText) :
    List.lookup k (d.map fun f => (f.1, g f.2)) = (d.lookup k).map g := by
  induction d with
  | nil => rfl
  | cons f d ih =>
    rw [List.map_cons, Keyed.lookup_cons, Keyed.lookup_cons, ih]
    split_ifs <;> rfl

/-- Sorting keys moves no value to another key. -/
theorem get_sortKeys {d : JsonDict F} (h : d.keys.Nodup) (key : String) :
    (sortKeys d).get key = (d.get key).map JsonTree.sortKeys := by
  have hnodup := (keys_sortKeys_perm d).nodup_iff.mpr h
  rw [get, Keyed.lookup_perm (sortKeys_perm d) hnodup, lookup_map, get]

end JsonDict

namespace JsonTree

@[simp] theorem sortKeys_null : (null : JsonValue F).sortKeys = .null := rfl
@[simp] theorem sortKeys_bool (b : Bool) : (bool b : JsonValue F).sortKeys = .bool b := rfl
@[simp] theorem sortKeys_int (n : Int) : (int n : JsonValue F).sortKeys = .int n := rfl
@[simp] theorem sortKeys_str (s : PyText) : (str s : JsonValue F).sortKeys = .str s := rfl
@[simp] theorem sortKeys_text (s : String) : (text s : JsonValue F).sortKeys = text s := rfl

@[simp] theorem sortKeys_list (items : List (JsonValue F)) : (list items).sortKeys = .list (items.map sortKeys) := by
  rw [sortKeys, sortItems_eq_map]

@[simp] theorem sortKeys_dict (fields : JsonDict F) : (dict fields).sortKeys = .dict fields.sortKeys := by
  rw [sortKeys, sortFields_eq_map, JsonDict.sortKeys]

theorem everywhere_keysAscend_sortKeys (v : JsonValue F) : v.sortKeys.Everywhere KeysAscend := by
  induction v using induct with
  | list items ih =>
    rw [sortKeys_list, everywhere_list]
    exact ⟨trivial, List.forall_mem_map.mpr ih⟩
  | dict fields ih =>
    rw [sortKeys_dict, everywhere_dict]
    refine ⟨?_, fun f hf => ?_⟩
    · exact List.pairwise_map.mpr (List.pairwise_insertionSort (fun a b : PyText × JsonValue F => a.1 ≤ b.1) _)
    · obtain ⟨g, hg, rfl⟩ := List.mem_map.mp ((JsonDict.sortKeys_perm fields).mem_iff.mp hf)
      exact ih g hg
  | _ => trivial

@[simp] theorem sortKeys_sortKeys (v : JsonValue F) : v.sortKeys.sortKeys = v.sortKeys :=
  sortKeys_eq_self (everywhere_keysAscend_sortKeys v)

end JsonTree
end Autolean.Text
