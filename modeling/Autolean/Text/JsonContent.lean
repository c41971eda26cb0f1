import Autolean.Text.JsonRoundTrip

/-! What the text of a JSON value depends on, and what it tells: a text is made of the texts of
the parts, and values with one text have parts that read the same. -/
namespace Autolean.Text.JsonTree
open Machine
variable {F ε : Type} (floatText : F → List Char)

/-! A text is made of the texts of its parts -/

theorem printItems_congr {a b : List (JsonValue F)} (h : a.map (print floatText) = b.map (print floatText)) :
    printItems floatText a = printItems floatText b := by
  induction a generalizing b with
  | nil =>
    cases b with
    | nil => rfl
    | cons w b => cases h
  | cons v a ih =>
    cases b with
    | nil => cases h
    | cons w b =>
      obtain ⟨hhead, htail⟩ := List.cons_eq_cons.mp h
      rw [printItems, printItems, hhead, ih htail]

/-- A field's key and the text of its value. -/
def fieldText (f : PyText × JsonValue F) : PyText × List Char := (f.1, f.2.print floatText)

theorem printFields_congr {a b : JsonDict F} (h : a.map (fieldText floatText) = b.map (fieldText floatText)) :
    printFields floatText a = printFields floatText b := by
  induction a generalizing b with
  | nil =>
    cases b with
    | nil => rfl
    | cons g b => cases h
  | cons f a ih =>
    cases b with
    | nil => cases h
    | cons g b =>
      obtain ⟨hhead, htail⟩ := List.cons_eq_cons.mp h
      obtain ⟨hkey, hvalue⟩ := Prod.mk.inj hhead
      rw [printFields, printFields, hkey, hvalue, ih htail]

theorem print_list_congr {a b : List (JsonValue F)} (h : a.map (print floatText) = b.map (print floatText)) :
    (list a).print floatText = (list b).print floatText := by
  cases a with
  | nil =>
    cases b with
    | nil => rfl
    | cons w b => cases h
  | cons v a =>
    cases b with
    | nil => cases h
    | cons w b =>
      obtain ⟨hhead, htail⟩ := List.cons_eq_cons.mp h
      rw [print, print, hhead, printItems_congr floatText htail]

theorem print_dict_congr {a b : JsonDict F} (h : a.map (fieldText floatText) = b.map (fieldText floatText)) :
    (dict a).print floatText = (dict b).print floatText := by
  cases a with
  | nil =>
    cases b with
    | nil => rfl
    | cons g b => cases h
  | cons f a =>
    cases b with
    | nil => cases h
    | cons g b =>
      obtain ⟨hhead, htail⟩ := List.cons_eq_cons.mp h
      obtain ⟨hkey, hvalue⟩ := Prod.mk.inj hhead
      rw [print, print, hkey, hvalue, printFields_congr floatText htail]

theorem dumps_list_congr {a b : List (JsonValue F)} (h : a.map (dumps floatText) = b.map (dumps floatText)) :
    (list a).dumps floatText = (list b).dumps floatText := by
  rw [dumps, dumps, sortKeys_list, sortKeys_list]
  apply print_list_congr
  rw [List.map_map, List.map_map]
  exact h

/-- The keys in order, each with the text of its value. -/
theorem map_fieldText_sortKeys (d : JsonDict F) :
    d.sortKeys.map (fieldText floatText) =
      (d.map fun f => (f.1, f.2.dumps floatText)).insertionSort fun a b => a.1 ≤ b.1 := by
  have hsort := List.map_insertionSort (fun a b : PyText × JsonValue F => a.1 ≤ b.1)
    (fun a b : PyText × List Char => a.1 ≤ b.1) (fieldText floatText) (d.map fun f => (f.1, f.2.sortKeys))
    fun _ _ _ _ => Iff.rfl
  rw [JsonDict.sortKeys, hsort, List.map_map]
  rfl

theorem dumps_dict_congr {a b : JsonDict F}
    (h : (a.map fun f => (f.1, f.2.dumps floatText)) = b.map fun f => (f.1, f.2.dumps floatText)) :
    (dict a).dumps floatText = (dict b).dumps floatText := by
  rw [dumps, dumps, sortKeys_dict, sortKeys_dict]
  apply print_dict_congr
  rw [map_fieldText_sortKeys, map_fieldText_sortKeys, h]

/-! What a text tells -/

/-- The value a reader of the text gets. -/
def content (v : JsonValue F) : JsonValue F := v.sortKeys.rejoined

theorem content_eq_of_dumps_eq {hooks : JsonHooks F ε} (hkeeps : hooks.Keeps) {v w : JsonValue F}
    (hv : v.Everywhere Legible) (hw : w.Everywhere Legible)
    (h : v.dumps floatText = w.dumps floatText) : v.content = w.content := by
  have hspace : ∀ c ∈ ([] : List Char), c = ' ' ∨ c = '\t' ∨ c = '\n' ∨ c = '\r' := by simp
  have hreadv := JsonHooks.loads_dumps_legible hkeeps floatText hv hspace
  have hreadw := JsonHooks.loads_dumps_legible hkeeps floatText hw hspace
  rw [h, hreadw] at hreadv
  exact (Except.ok.inj hreadv).symm

theorem content_str {s : PyText} (h : s.IsScalar) : (str s : JsonValue F).content = .str s := by
  rw [content, sortKeys_str, rejoined, PyText.rejoined_eq_self h]

theorem content_list (items : List (JsonValue F)) : (list items).content = .list (items.map content) := by
  rw [content, sortKeys_list, rejoined_list, List.map_map]
  rfl

theorem content_dict (d : JsonDict F) :
    (dict d).content = .dict (d.sortKeys.map fun f => (f.1, f.2.rejoined)) := by
  rw [content, sortKeys_dict, rejoined_dict]

/-- Dicts that read the same read the same under each key. -/
theorem get_content {d e : JsonDict F} (hd : d.keys.Nodup) (he : e.keys.Nodup) (h : (dict d).content = (dict e).content)
    (key : String) : (d.get key).map content = (e.get key).map content := by
  have hread : ∀ {d : JsonDict F}, d.keys.Nodup →
      JsonDict.get (d.sortKeys.map fun f => (f.1, f.2.rejoined)) key = (d.get key).map content := by
    intro d hd
    have hsorted := JsonDict.get_sortKeys hd key
    rw [JsonDict.get] at hsorted ⊢
    rw [JsonDict.lookup_map, hsorted, Option.map_map]
    rfl
  rw [content_dict, content_dict] at h
  rw [← hread hd, ← hread he, JsonTree.dict.inj h]

theorem content_of_get {d e : JsonDict F} (hd : d.keys.Nodup) (he : e.keys.Nodup)
    (h : (dict d).content = (dict e).content) (key : String) {v w : JsonValue F}
    (hv : d.get key = some v) (hw : e.get key = some w) : v.content = w.content := by
  have hread := get_content hd he h key
  rw [hv, hw] at hread
  exact Option.some.inj hread

/-- Lists of scalar texts that read the same are the same. -/
theorem texts_of_content {a b : List PyText} (ha : ∀ s ∈ a, s.IsScalar) (hb : ∀ s ∈ b, s.IsScalar)
    (h : (list (a.map str) : JsonValue F).content = (list (b.map str)).content) : a = b := by
  have hread : ∀ {a : List PyText}, (∀ s ∈ a, s.IsScalar) →
      (a.map str).map content = (a.map str : List (JsonValue F)) := by
    intro a ha
    rw [List.map_map]
    exact List.map_congr_left fun s hs => content_str (ha s hs)
  rw [content_list, content_list, hread ha, hread hb] at h
  exact List.map_injective_iff.mpr (fun _ _ he => JsonTree.str.inj he) (JsonTree.list.inj h)

theorem length_of_content {a b : List PyText}
    (h : (list (a.map str) : JsonValue F).content = (list (b.map str)).content) :
    a.length = b.length := by
  rw [content_list, content_list] at h
  simpa only [List.length_map] using congrArg List.length (JsonTree.list.inj h)

end Autolean.Text.JsonTree
