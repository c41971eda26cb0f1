import Autolean.Builder.ExperienceDecoder

/-! Each part of a context pack is rebuilt from its payload with its collections in order, and
has the same payload as before. -/
namespace Autolean.Builder.Experience
open Text Machine Machine.Raising
variable {F : Type} {py : Python F}

/-! Collections in order -/

theorem sorted_perm (values : List PyText) : (sorted values).Perm values := List.perm_insertionSort _ _

@[simp] theorem sorted_sorted (values : List PyText) : sorted (sorted values) = sorted values :=
  (List.pairwise_insertionSort _ _).insertionSort_eq

/-- The elements in the order of their texts. -/
def sortedBy {α : Type} (text : α → PyText) (values : List α) : List α := values.insertionSort fun a b => text a ≤ text b

theorem sortedBy_perm {α : Type} (text : α → PyText) (values : List α) : (sortedBy text values).Perm values :=
  List.perm_insertionSort _ _

theorem map_sortedBy {α : Type} (text : α → PyText) (values : List α) :
    (sortedBy text values).map text = sorted (values.map text) :=
  List.map_insertionSort _ _ _ _ fun _ _ _ _ => Iff.rfl

/-! Reading what was written -/

@[simp] theorem string_str (s : PyText) (label : String) : string (some (.str s : JsonValue F)) label = .ok s := rfl
@[simp] theorem integer_int (n : Int) (label : String) : integer (some (.int n : JsonValue F)) label = .ok n := rfl
@[simp] theorem mapping_dict (d : JsonDict F) (label : String) : mapping (some (.dict d)) label = .ok d := rfl
@[simp] theorem list_list (items : List (JsonValue F)) (label : String) : list (some (.list items)) label = .ok items := rfl

@[simp] theorem optionalString_optionalText (s : Option PyText) (label : String) :
    optionalString (some (optionalText s : JsonValue F)) label = .ok s := by
  cases s <;> rfl

@[simp] theorem sortKeys_optionalText (s : Option PyText) :
    (optionalText s : JsonValue F).sortKeys = optionalText s := by
  cases s <;> rfl

@[simp] theorem sortKeys_texts (values : List PyText) : (texts values : JsonValue F).sortKeys = texts values := by
  simp [texts]

@[simp] theorem stringTuple_texts (values : List PyText) (label : String) :
    stringTuple (some (texts values : JsonValue F)) label = .ok values := by
  rw [stringTuple, texts, list_list, ok_bind, List.mapM_map]
  exact (mapM_of fun _ _ => rfl).trans (congrArg _ (List.map_id _))

theorem enumMember_value {E : Type} {all : List E} {value : E → PyText} (hall : ∀ e, e ∈ all)
    (hvalue : Function.Injective value) (e : E) : enumMember all value (value e) = .ok e := by
  unfold enumMember
  cases hfind : all.find? fun x => value x = value e with
  | none =>
    have hnone := List.find?_eq_none.mp hfind e (hall e)
    simp at hnone
  | some x =>
    have hx := List.find?_some hfind
    rw [hvalue (of_decide_eq_true hx)]

theorem ExperienceOutcome.value_injective : Function.Injective ExperienceOutcome.value := by
  intro a b h
  cases a <;> cases b <;> first | rfl | exact absurd (PyText.of_injective h) (by decide)

theorem ExperienceEndpoint.value_injective : Function.Injective ExperienceEndpoint.value := by
  intro a b h
  cases a <;> cases b <;> first | rfl | exact absurd (PyText.of_injective h) (by decide)

theorem FailureEvidenceKind.value_injective : Function.Injective FailureEvidenceKind.value := by
  intro a b h
  cases a <;> cases b <;> first | rfl | exact absurd (PyText.of_injective h) (by decide)

@[simp] theorem enumMember_outcome (o : ExperienceOutcome) :
    enumMember ExperienceOutcome.all ExperienceOutcome.value o.value = .ok o :=
  enumMember_value (by rintro (_ | _ | _) <;> simp [ExperienceOutcome.all]) ExperienceOutcome.value_injective o

@[simp] theorem enumMember_endpoint (e : ExperienceEndpoint) :
    enumMember ExperienceEndpoint.all ExperienceEndpoint.value e.value = .ok e :=
  enumMember_value (by rintro (_ | _) <;> simp [ExperienceEndpoint.all]) ExperienceEndpoint.value_injective e

@[simp] theorem enumMember_kind (k : FailureEvidenceKind) :
    enumMember FailureEvidenceKind.all FailureEvidenceKind.value k.value = .ok k :=
  enumMember_value (by rintro (_ | _ | _ | _) <;> simp [FailureEvidenceKind.all]) FailureEvidenceKind.value_injective k

/-- Members read from their values, one by one. -/
theorem mapM_enumMember {E : Type} {all : List E} {value : E → PyText} (h : ∀ e, enumMember all value (value e) = .ok e)
    (es : List E) : (es.map value).mapM (enumMember all value) = .ok es := by
  rw [List.mapM_map]
  exact (mapM_of fun e _ => h e).trans (congrArg _ (List.map_id _))

/-! Checks that do not depend on order -/

theorem validateUnique_eq_ok {values : List PyText} {label : String} :
    validateUnique values label = .ok () ↔ (values ≠ [] ∧ values.Nodup) ∧ ∀ v ∈ values, IsIdentifier v := by
  simp only [validateUnique, ensure_bind_eq_ok, forM_eq_ok, validateIdentifier, ensure_eq_ok]

theorem perm_ne_nil {α : Type} {a b : List α} (h : a.Perm b) : a ≠ [] ↔ b ≠ [] := by
  constructor
  · rintro ha rfl
    exact ha (List.perm_nil.mp h)
  · rintro hb rfl
    exact hb (List.nil_perm.mp h)

theorem validateUnique_sorted {values : List PyText} {label : String} :
    validateUnique (sorted values) label = .ok () ↔ validateUnique values label = .ok () := by
  have h := sorted_perm values
  rw [validateUnique_eq_ok, validateUnique_eq_ok, h.nodup_iff, perm_ne_nil h]
  simp only [h.mem_iff]

theorem forM_perm {α : Type} {a b : List α} (h : a.Perm b) {f : α → Raises Unit} : a.forM f = .ok () ↔ b.forM f = .ok () := by
  rw [forM_eq_ok, forM_eq_ok]
  simp only [h.mem_iff]

/-! The source -/

namespace SourceFields

def inOrder (s : SourceFields) : SourceFields := { s with spanIds := sorted s.spanIds }

theorem postInit_inOrder {s : SourceFields} (h : s.postInit = .ok ()) : s.inOrder.postInit = .ok () := by
  simp only [postInit, seq_eq_ok] at h ⊢
  exact ⟨h.1, h.2.1, h.2.2.1, validateUnique_sorted.mpr h.2.2.2⟩

theorem payload_inOrder (s : SourceFields) : (s.inOrder.payload : JsonDict F) = s.payload := by
  simp only [payload, inOrder, sorted_sorted]

theorem payload_keys (s : SourceFields) : (s.payload : JsonDict F).keys.Nodup := by
  rw [payload, JsonDict.keys_of]
  exact List.Nodup.map PyText.of_injective (by simp)

end SourceFields

def ExperienceSource.inOrder (s : ExperienceSource) : ExperienceSource :=
  ⟨s.value.inOrder, SourceFields.postInit_inOrder s.passed⟩

theorem sourceFromPayload_payload (s : ExperienceSource) :
    sourceFromPayload (s.value.payload : JsonDict F).sortKeys = .ok s.inOrder := by
  simp only [sourceFromPayload, JsonDict.get_sortKeys (SourceFields.payload_keys s.value)]
  simp only [SourceFields.payload, JsonDict.get_of_cons, String.reduceEq, if_true, if_false, Option.map_some,
    JsonTree.sortKeys_str, sortKeys_texts, string_str, stringTuple_texts, ok_bind]
  exact Checked.make_of (SourceFields.postInit_inOrder s.passed)

/-! The rights -/

namespace RightsFields

def inOrder (r : RightsFields) : RightsFields :=
  { r with allowedEndpoints := sortedBy ExperienceEndpoint.value r.allowedEndpoints }

theorem postInit_inOrder {r : RightsFields} (h : r.postInit = .ok ()) : r.inOrder.postInit = .ok () := by
  have hperm : r.inOrder.allowedEndpoints.Perm r.allowedEndpoints := sortedBy_perm _ _
  simp only [postInit, seq_eq_ok, ensure_eq_ok] at h ⊢
  obtain ⟨hscope, hversion, hendpoints, hlocal, hreview⟩ := h
  refine ⟨hscope, hversion, ⟨(perm_ne_nil hperm).mpr hendpoints.1, hperm.nodup_iff.mpr hendpoints.2⟩,
    hperm.mem_iff.mpr hlocal, ?_⟩
  by_cases hexternal : ExperienceEndpoint.approvedExternal ∈ r.allowedEndpoints
  · rw [if_pos hexternal] at hreview
    rw [if_pos (hperm.mem_iff.mpr hexternal)]
    exact hreview
  · rw [if_neg hexternal] at hreview
    rw [if_neg fun h => hexternal (hperm.mem_iff.mp h)]
    exact hreview

theorem payload_inOrder (r : RightsFields) : (r.inOrder.payload : JsonDict F) = r.payload := by
  simp only [payload, inOrder, map_sortedBy, sorted_sorted]

theorem payload_keys (r : RightsFields) : (r.payload : JsonDict F).keys.Nodup := by
  rw [payload, JsonDict.keys_of]
  exact List.Nodup.map PyText.of_injective (by simp)

end RightsFields

def RightsEgressPolicy.inOrder (r : RightsEgressPolicy) : RightsEgressPolicy :=
  ⟨r.value.inOrder, RightsFields.postInit_inOrder r.passed⟩

theorem allowedEndpoints_payload (r : RightsEgressPolicy) (label : String) :
    stringTuple ((r.value.payload : JsonDict F).sortKeys.get "allowed_endpoints") label =
      .ok ((sortedBy ExperienceEndpoint.value r.value.allowedEndpoints).map ExperienceEndpoint.value) := by
  rw [JsonDict.get_sortKeys (RightsFields.payload_keys r.value), map_sortedBy]
  simp only [RightsFields.payload, JsonDict.get_of_cons, if_true, Option.map_some, sortKeys_texts, stringTuple_texts]

theorem rightsFromPayload_payload (r : RightsEgressPolicy) :
    rightsFromPayload (r.value.payload : JsonDict F).sortKeys (sortedBy ExperienceEndpoint.value r.value.allowedEndpoints) =
      .ok r.inOrder := by
  simp only [rightsFromPayload, JsonDict.get_sortKeys (RightsFields.payload_keys r.value)]
  simp only [RightsFields.payload, JsonDict.get_of_cons, String.reduceEq, if_true, if_false, Option.map_some,
    JsonTree.sortKeys_str, sortKeys_optionalText, string_str, optionalString_optionalText, ok_bind]
  exact Checked.make_of (RightsFields.postInit_inOrder r.passed)

/-! The applicability -/

namespace ApplicabilityFields

def inOrder (a : ApplicabilityFields) : ApplicabilityFields :=
  { a with
    roles := sorted a.roles
    requiredGraphFrontier := sorted a.requiredGraphFrontier
    conditions := sorted a.conditions }

theorem postInit_inOrder {a : ApplicabilityFields} (h : a.postInit py = .ok ()) : a.inOrder.postInit py = .ok () := by
  have hfrontier := sorted_perm a.requiredGraphFrontier
  have hconditions := sorted_perm a.conditions
  simp only [postInit, seq_eq_ok, ensure_eq_ok] at h ⊢
  obtain ⟨hroles, hpath, hnodup, hnodes, hunique, hsafe⟩ := h
  exact ⟨validateUnique_sorted.mpr hroles, hpath, hfrontier.nodup_iff.mpr hnodup, (forM_perm hfrontier).mpr hnodes,
    ⟨(perm_ne_nil hconditions).mpr hunique.1, hconditions.nodup_iff.mpr hunique.2⟩, (forM_perm hconditions).mpr hsafe⟩

theorem payload_inOrder (a : ApplicabilityFields) : (a.inOrder.payload : JsonDict F) = a.payload := by
  simp only [payload, inOrder, sorted_sorted]

theorem payload_keys (a : ApplicabilityFields) : (a.payload : JsonDict F).keys.Nodup := by
  rw [payload, JsonDict.keys_of]
  exact List.Nodup.map PyText.of_injective (by simp)

end ApplicabilityFields

def ExperienceApplicability.inOrder (a : ExperienceApplicability py) : ExperienceApplicability py :=
  ⟨a.value.inOrder, ApplicabilityFields.postInit_inOrder a.passed⟩

theorem applicabilityFromPayload_payload (a : ExperienceApplicability py) :
    applicabilityFromPayload py (a.value.payload : JsonDict F).sortKeys = .ok (ExperienceApplicability.inOrder a) := by
  simp only [applicabilityFromPayload, JsonDict.get_sortKeys (ApplicabilityFields.payload_keys a.value)]
  simp only [ApplicabilityFields.payload, JsonDict.get_of_cons, String.reduceEq, if_true, if_false, Option.map_some,
    sortKeys_texts, stringTuple_texts, ok_bind]
  exact Checked.make_of (ApplicabilityFields.postInit_inOrder a.passed)

/-! The evidence -/

theorem EvidenceFields.payload_keys (e : EvidenceFields) : (e.payload : JsonDict F).keys.Nodup := by
  rw [payload, JsonDict.keys_of]
  exact List.Nodup.map PyText.of_injective (by simp)

theorem evidenceFromPayload_payload (e : FailureEvidence py) :
    evidenceFromPayload py (JsonTree.sortKeys (.dict e.value.payload) : JsonValue F) = .ok e := by
  rw [JsonTree.sortKeys_dict]
  simp only [evidenceFromPayload, mapping_dict, ok_bind, JsonDict.get_sortKeys (EvidenceFields.payload_keys e.value)]
  simp only [EvidenceFields.payload, JsonDict.get_of_cons, String.reduceEq, if_true, if_false, Option.map_some,
    JsonTree.sortKeys_str, string_str, enumMember_kind, rephrase, ok_bind]
  exact Checked.make_of e.passed

/-! The record -/

namespace RecordFields

def inOrder (r : RecordFields py) : RecordFields py :=
  { r with
    source := ExperienceSource.inOrder r.source
    applicability := ExperienceApplicability.inOrder r.applicability
    rights := RightsEgressPolicy.inOrder r.rights
    failureEvidence := r.sortedEvidence }

theorem sortedEvidence_perm (r : RecordFields py) : r.sortedEvidence.Perm r.failureEvidence := List.perm_insertionSort _ _

theorem sortedEvidence_inOrder (r : RecordFields py) : r.inOrder.sortedEvidence = r.sortedEvidence :=
  (List.pairwise_insertionSort _ _).insertionSort_eq

theorem postInit_inOrder {r : RecordFields py} (h : r.postInit = .ok ()) : r.inOrder.postInit = .ok () := by
  have hperm := sortedEvidence_perm r
  simp only [postInit, seq_eq_ok, ensure_eq_ok] at h ⊢
  obtain ⟨hversion, hrole, htitle, hobservation, hunique, hneeded⟩ := h
  refine ⟨hversion, hrole, htitle, hobservation, (hperm.map _).nodup_iff.mpr hunique, fun hnone => hneeded ⟨hnone.1, ?_⟩⟩
  exact not_not.mp fun hne => (perm_ne_nil hperm).mpr hne hnone.2

theorem payload_inOrder (r : RecordFields py) : r.inOrder.payload = r.payload := by
  simp only [payload, sortedEvidence_inOrder]
  simp only [inOrder, ExperienceSource.inOrder, ExperienceApplicability.inOrder, RightsEgressPolicy.inOrder,
    SourceFields.payload_inOrder, ApplicabilityFields.payload_inOrder, RightsFields.payload_inOrder]

theorem contentSha256_inOrder (r : RecordFields py) : r.inOrder.contentSha256 = r.contentSha256 := by
  rw [contentSha256, payload_inOrder, contentSha256]

theorem payload_keys (r : RecordFields py) : r.payload.keys.Nodup := by
  rw [payload, JsonDict.keys_of]
  exact List.Nodup.map PyText.of_injective (by simp)

end RecordFields

def ExperienceRecord.inOrder (r : ExperienceRecord py) : ExperienceRecord py :=
  ⟨r.value.inOrder, RecordFields.postInit_inOrder r.passed⟩

@[simp] theorem isText_text (s : String) : isText (some (.text s : JsonValue F)) (.of s) = true := by
  simp [isText, JsonTree.text]

@[simp] theorem isText_str (s : PyText) : isText (some (.str s : JsonValue F)) s = true := by
  simp [isText]

theorem recordFromPayload_payload (r : ExperienceRecord py) :
    recordFromPayload py r.value.payload.sortKeys = .ok (ExperienceRecord.inOrder r) := by
  have hevidence : ((r.value.sortedEvidence.map fun e => JsonTree.dict e.value.payload).map JsonTree.sortKeys).mapM
      (evidenceFromPayload py) = .ok r.value.sortedEvidence := by
    rw [List.mapM_map, List.mapM_map]
    exact (mapM_of fun e _ => evidenceFromPayload_payload e).trans (congrArg _ (List.map_id _))
  simp only [recordFromPayload, JsonDict.get_sortKeys (RecordFields.payload_keys r.value)]
  simp only [RecordFields.payload, JsonDict.get_of_cons, String.reduceEq, if_true, if_false, Option.map_some,
    JsonTree.sortKeys_str, JsonTree.sortKeys_text, JsonTree.sortKeys_dict, JsonTree.sortKeys_list, isText_text,
    mapping_dict, ok_bind, string_str, list_list, enumMember_outcome, allowedEndpoints_payload,
    mapM_enumMember enumMember_endpoint]
  rw [ensure_of _ trivial, ok_bind]
  simp only [rephrase, pure, Except.pure, ok_bind, hevidence, sourceFromPayload_payload, applicabilityFromPayload_payload,
    rightsFromPayload_payload]
  exact Checked.make_of (RecordFields.postInit_inOrder r.passed)

/-! The query -/

namespace QueryFields

def inOrder (q : QueryFields) : QueryFields :=
  { q with graphFrontier := sorted q.graphFrontier, outcomes := sortedBy ExperienceOutcome.value q.outcomes }

theorem postInit_inOrder {q : QueryFields} (h : q.postInit = .ok ()) : q.inOrder.postInit = .ok () := by
  have hfrontier := sorted_perm q.graphFrontier
  have houtcomes := sortedBy_perm ExperienceOutcome.value q.outcomes
  simp only [postInit, seq_eq_ok, ensure_eq_ok] at h ⊢
  obtain ⟨hrole, hpath, hscope, hnodup, hnodes, hunique, hbounds⟩ := h
  exact ⟨hrole, hpath, hscope, hfrontier.nodup_iff.mpr hnodup, (forM_perm hfrontier).mpr hnodes,
    ⟨(perm_ne_nil houtcomes).mpr hunique.1, houtcomes.nodup_iff.mpr hunique.2⟩, hbounds⟩

theorem payload_inOrder (q : QueryFields) : (q.inOrder.payload : JsonDict F) = q.payload := by
  simp only [payload, inOrder, sorted_sorted, map_sortedBy]

theorem payload_keys (q : QueryFields) : (q.payload : JsonDict F).keys.Nodup := by
  rw [payload, JsonDict.keys_of]
  exact List.Nodup.map PyText.of_injective (by simp)

end QueryFields

def ExperienceQuery.inOrder (q : ExperienceQuery) : ExperienceQuery :=
  ⟨q.value.inOrder, QueryFields.postInit_inOrder q.passed⟩

theorem queryFromPayload_payload (q : ExperienceQuery) :
    queryFromPayload (q.value.payload : JsonDict F).sortKeys = .ok (ExperienceQuery.inOrder q) := by
  simp only [queryFromPayload, JsonDict.get_sortKeys (QueryFields.payload_keys q.value)]
  simp only [QueryFields.payload, JsonDict.get_of_cons, String.reduceEq, if_true, if_false, Option.map_some,
    JsonTree.sortKeys_str, JsonTree.sortKeys_int, sortKeys_texts, ok_bind, string_str, integer_int, stringTuple_texts,
    enumMember_endpoint, ← map_sortedBy, mapM_enumMember enumMember_outcome, rephrase, pure, Except.pure]
  exact Checked.make_of (QueryFields.postInit_inOrder q.passed)

/-! The pack -/

namespace PackFields

def inOrder (p : PackFields py) : PackFields py :=
  { p with query := ExperienceQuery.inOrder p.query, records := p.records.map ExperienceRecord.inOrder }

theorem selected_inOrder (p : PackFields py) : p.inOrder.selected = p.selected := by
  simp only [selected, inOrder, List.map_map]
  exact List.map_congr_left fun r _ => RecordFields.contentSha256_inOrder r.value

theorem payloadWithoutEstimate_inOrder (p : PackFields py) : p.inOrder.payloadWithoutEstimate = p.payloadWithoutEstimate := by
  simp only [payloadWithoutEstimate, inOrder, List.map_map, Function.comp_def, ExperienceQuery.inOrder,
    QueryFields.payload_inOrder, ExperienceRecord.inOrder, RecordFields.payload_inOrder, RecordFields.contentSha256_inOrder]

theorem payload_inOrder (p : PackFields py) : p.inOrder.payload = p.payload := by
  rw [payload, payloadWithoutEstimate_inOrder, payload]
  rfl

theorem render_inOrder (p : PackFields py) : p.inOrder.render = p.render := by
  rw [render, payload_inOrder, render]

theorem postInit_inOrder {p : PackFields py} (h : p.postInit = .ok ()) : p.inOrder.postInit = .ok () := by
  have hquery : p.inOrder.query.value.contentSha256 py = p.query.value.contentSha256 py := by
    simp only [QueryFields.contentSha256, inOrder, ExperienceQuery.inOrder, QueryFields.payload_inOrder]
  simp only [postInit, seq_eq_ok, ensure_eq_ok, selected_inOrder, payloadWithoutEstimate_inOrder, hquery] at h ⊢
  simpa only [inOrder, ExperienceQuery.inOrder, QueryFields.inOrder, List.length_map] using h

theorem payload_keys (p : PackFields py) : p.payload.keys.Nodup := by
  rw [payload, withEstimate, payloadWithoutEstimate, JsonDict.of_append, JsonDict.keys_of]
  exact List.Nodup.map PyText.of_injective (by simp)

end PackFields

end Autolean.Builder.Experience
