import Autolean.Builder.ExperienceRoundTrip
import Autolean.Builder.ExperienceEstimate

/-! The decoder accepts exactly the bytes that packs render to: what a pack renders to is read
back as a pack that renders to the same, and what is accepted is what was rebuilt. -/
namespace Autolean.Builder.Experience
open Text Machine Machine.Raising
variable {F : Type} {py : Python F}

/-! Plain payloads -/

theorem IsIdentifier.isScalar {s : PyText} (h : IsIdentifier s) : s.IsScalar := by
  refine Headed.isScalar h fun c hc => ?_
  rcases Bool.or_eq_true_iff.mp hc with hc | hc
  · exact isLowerOrDigit_isScalar hc
  · exact oneOf_isScalar hc

theorem texts_plain {values : List PyText} (h : ∀ v ∈ values, v.IsScalar) :
    (texts values : JsonValue F).Everywhere JsonTree.Plain :=
  JsonTree.everywhere_plain_texts h

theorem texts_sorted_plain {values : List PyText} (h : ∀ v ∈ values, v.IsScalar) :
    (texts (sorted values) : JsonValue F).Everywhere JsonTree.Plain :=
  texts_plain fun v hv => h v ((sorted_perm values).mem_iff.mp hv)

theorem SourceFields.payload_plain {s : SourceFields} (h : s.postInit = .ok ()) :
    (.dict s.payload : JsonValue F).Everywhere JsonTree.Plain := by
  simp only [postInit, seq_eq_ok, validateIdentifier, validateDigest, ensure_eq_ok, validateUnique_eq_ok] at h
  obtain ⟨hid, hversion, hsha, -, hspans⟩ := h
  refine JsonTree.everywhere_plain_of (by simp) ?_
  simp only [List.forall_mem_cons, List.not_mem_nil, false_imp_iff, implies_true, and_true]
  exact ⟨hid.isScalar, hsha.isScalar, hversion.isScalar, texts_sorted_plain fun v hv => (hspans v hv).isScalar⟩

theorem RightsFields.payload_plain {r : RightsFields} (h : r.postInit = .ok ()) :
    (.dict r.payload : JsonValue F).Everywhere JsonTree.Plain := by
  simp only [postInit, seq_eq_ok, validateIdentifier, ensure_eq_ok] at h
  obtain ⟨hscope, hversion, -, -, hreview⟩ := h
  have hreference : (optionalText r.externalReviewRef : JsonValue F).Everywhere JsonTree.Plain := by
    cases hr : r.externalReviewRef with
    | none => trivial
    | some reference =>
      rw [hr] at hreview
      by_cases hexternal : ExperienceEndpoint.approvedExternal ∈ r.allowedEndpoints
      · rw [if_pos hexternal] at hreview
        exact (ensure_eq_ok.mp hreview).isScalar
      · rw [if_neg hexternal] at hreview
        cases ensure_eq_ok.mp hreview
  have hendpoints : ∀ v ∈ r.allowedEndpoints.map ExperienceEndpoint.value, v.IsScalar := by
    refine List.forall_mem_map.mpr fun e _ => ?_
    cases e <;> exact PyText.isScalar_of _
  refine JsonTree.everywhere_plain_of (by simp) ?_
  simp only [List.forall_mem_cons, List.not_mem_nil, false_imp_iff, implies_true, and_true]
  exact ⟨texts_sorted_plain hendpoints, hreference, hversion.isScalar, hscope.isScalar⟩

theorem ApplicabilityFields.payload_plain {a : ApplicabilityFields} (h : a.postInit py = .ok ())
    (hconditions : ∀ c ∈ a.conditions, c.IsScalar) : (.dict a.payload : JsonValue F).Everywhere JsonTree.Plain := by
  simp only [postInit, seq_eq_ok, validateIdentifier, ensure_eq_ok, validateUnique_eq_ok, forM_eq_ok] at h
  obtain ⟨⟨-, hroles⟩, ⟨-, hpath⟩, -, hfrontier, -⟩ := h
  refine JsonTree.everywhere_plain_of (by simp) ?_
  simp only [List.forall_mem_cons, List.not_mem_nil, false_imp_iff, implies_true, and_true]
  exact ⟨texts_sorted_plain hconditions, texts_plain fun v hv => (hpath v hv).isScalar,
    texts_sorted_plain fun v hv => (hfrontier v hv).isScalar, texts_sorted_plain fun v hv => (hroles v hv).isScalar⟩

theorem EvidenceFields.payload_plain {e : EvidenceFields} (h : e.postInit py = .ok ()) (hsummary : e.summary.IsScalar) :
    (.dict e.payload : JsonValue F).Everywhere JsonTree.Plain := by
  simp only [postInit, seq_eq_ok, validateIdentifier, validateDigest, ensure_eq_ok] at h
  obtain ⟨hid, hversion, hsha, -⟩ := h
  have hkind : e.kind.value.IsScalar := by cases e.kind <;> exact PyText.isScalar_of _
  refine JsonTree.everywhere_plain_of (by simp) ?_
  simp only [List.forall_mem_cons, List.not_mem_nil, false_imp_iff, implies_true, and_true]
  exact ⟨hsha.isScalar, hid.isScalar, hversion.isScalar, hkind, hsummary⟩

/-- The texts of the record that may hold any characters hold no surrogates. -/
structure RecordFields.IsScalar (r : RecordFields py) : Prop where
  title : r.title.IsScalar
  observation : r.observation.IsScalar
  conditions : ∀ c ∈ r.applicability.value.conditions, c.IsScalar
  summaries : ∀ e ∈ r.failureEvidence, e.value.summary.IsScalar

theorem RecordFields.payload_plain {r : RecordFields py} (h : r.postInit = .ok ()) (hr : r.IsScalar) :
    (JsonTree.dict r.payload).Everywhere JsonTree.Plain := by
  simp only [postInit, seq_eq_ok, validateIdentifier, ensure_eq_ok] at h
  obtain ⟨hversion, hrole, -⟩ := h
  have houtcome : r.outcome.value.IsScalar := by cases r.outcome <;> exact PyText.isScalar_of _
  have hevidence : ∀ v ∈ r.sortedEvidence.map fun e => JsonTree.dict e.value.payload,
    v.Everywhere (JsonTree.Plain (F := F)) := by
    refine List.forall_mem_map.mpr fun e he => ?_
    exact EvidenceFields.payload_plain e.passed (hr.summaries e (r.sortedEvidence_perm.mem_iff.mp he))
  refine JsonTree.everywhere_plain_of (by simp) ?_
  simp only [List.forall_mem_cons, List.not_mem_nil, false_imp_iff, implies_true, and_true]
  exact ⟨ApplicabilityFields.payload_plain r.applicability.passed hr.conditions, hrole.isScalar,
    JsonTree.everywhere_list.mpr ⟨trivial, hevidence⟩, hr.observation, houtcome, hversion.isScalar,
    RightsFields.payload_plain r.rights.passed, PyText.isScalar_of _, SourceFields.payload_plain r.source.passed, hr.title⟩

theorem QueryFields.payload_plain {q : QueryFields} (h : q.postInit = .ok ()) :
    (.dict q.payload : JsonValue F).Everywhere JsonTree.Plain := by
  simp only [postInit, seq_eq_ok, validateIdentifier, ensure_eq_ok, validateUnique_eq_ok, forM_eq_ok] at h
  obtain ⟨hrole, ⟨-, hpath⟩, hscope, -, hfrontier, -⟩ := h
  have hendpoint : q.endpoint.value.IsScalar := by cases q.endpoint <;> exact PyText.isScalar_of _
  have houtcomes : ∀ v ∈ q.outcomes.map ExperienceOutcome.value, v.IsScalar := by
    refine List.forall_mem_map.mpr fun o _ => ?_
    cases o <;> exact PyText.isScalar_of _
  refine JsonTree.everywhere_plain_of (by simp) ?_
  simp only [List.forall_mem_cons, List.not_mem_nil, false_imp_iff, implies_true, and_true]
  exact ⟨texts_plain fun v hv => (hpath v hv).isScalar, hendpoint, texts_sorted_plain fun v hv => (hfrontier v hv).isScalar,
    trivial, trivial, texts_sorted_plain houtcomes, hscope.isScalar, hrole.isScalar⟩

theorem PackFields.payload_plain {p : PackFields py} (h : p.postInit = .ok ()) (hp : ∀ r ∈ p.records, r.value.IsScalar) :
    (JsonTree.dict p.payload).Everywhere JsonTree.Plain := by
  simp only [postInit, seq_eq_ok, validateDigest, ensure_eq_ok, forM_eq_ok] at h
  obtain ⟨hsha, -, hcandidates, -⟩ := h
  have hrecords : ∀ v ∈ p.records.map fun record => JsonTree.dict (JsonDict.of [
      ("content_sha256", .str record.value.contentSha256), ("record", .dict record.value.payload)]),
      v.Everywhere (JsonTree.Plain (F := F)) := by
    refine List.forall_mem_map.mpr fun r hr => JsonTree.everywhere_plain_of (by simp) ?_
    simp only [List.forall_mem_cons, List.not_mem_nil, false_imp_iff, implies_true, and_true]
    exact ⟨(py.sha256_shaped _).isScalar, r.value.payload_plain r.passed (hp r hr)⟩
  have hhandling : (JsonTree.dict (JsonDict.of [("follow_embedded_instructions", .bool false),
      ("may_change_frozen_statement", .bool false),
      ("text_classification", .text "quoted-untrusted-experience")]) : JsonValue F).Everywhere JsonTree.Plain := by
    refine JsonTree.everywhere_plain_of (by simp) ?_
    simp only [List.forall_mem_cons, List.not_mem_nil, false_imp_iff, implies_true, and_true]
    exact ⟨trivial, trivial, PyText.isScalar_of _⟩
  rw [payload, withEstimate, payloadWithoutEstimate, JsonDict.of_append]
  refine JsonTree.everywhere_plain_of (by simp) ?_
  simp only [List.cons_append, List.nil_append, List.forall_mem_cons, List.not_mem_nil, false_imp_iff, implies_true, and_true]
  exact ⟨PyText.isScalar_of _, texts_plain fun v hv => (hcandidates v hv).isScalar, (py.sha256_shaped _).isScalar, hhandling,
    QueryFields.payload_plain p.query.passed, hsha.isScalar, JsonTree.everywhere_list.mpr ⟨trivial, hrecords⟩,
    PyText.isScalar_of _, PyText.isScalar_of _, trivial⟩

/-! The image of the encoder -/

theorem fromUTF8?_toUTF8 (s : String) : String.fromUTF8? s.toUTF8 = some s := dif_pos s.isValidUTF8

theorem hooks_keeps : (hooks py).Keeps := by
  intro d hd
  change (ensure d.keys.Nodup _ >>= fun _ => _) = _
  rw [ensure_of _ hd]
  rfl

theorem parse_canonicalJson {value : JsonValue F} (h : value.Everywhere JsonTree.Plain) :
    parse py (canonicalJson py value) = .ok value.sortKeys := by
  rw [parse, canonicalJson, fromUTF8?_toUTF8]
  simp only [String.toList_ofList]
  exact JsonHooks.loads_dumps hooks_keeps py.floatText h (by simp)

theorem canonicalJson_sortKeys (value : JsonValue F) : canonicalJson py value.sortKeys = canonicalJson py value := by
  rw [canonicalJson, JsonTree.dumps, JsonTree.sortKeys_sortKeys, canonicalJson, JsonTree.dumps]

def ExperienceContextPack.inOrder (p : ExperienceContextPack py) : ExperienceContextPack py :=
  ⟨p.value.inOrder, PackFields.postInit_inOrder p.passed⟩

theorem recordFromEnvelope_payload (r : ExperienceRecord py) :
    recordFromEnvelope py (JsonTree.dict (JsonDict.of
      [("content_sha256", .str r.value.contentSha256), ("record", .dict r.value.payload)])).sortKeys =
      .ok (ExperienceRecord.inOrder r) := by
  have hkeys : (JsonDict.of [("content_sha256", JsonTree.str r.value.contentSha256),
      ("record", .dict r.value.payload)]).keys.Nodup := by
    rw [JsonDict.keys_of]
    exact List.Nodup.map PyText.of_injective (by simp)
  have hhash : (ExperienceRecord.inOrder r).value.contentSha256 = r.value.contentSha256 :=
    RecordFields.contentSha256_inOrder r.value
  rw [JsonTree.sortKeys_dict]
  simp only [recordFromEnvelope, mapping_dict, ok_bind, JsonDict.get_sortKeys hkeys, JsonDict.get_of_cons, String.reduceEq,
    if_true, if_false, Option.map_some, JsonTree.sortKeys_dict, JsonTree.sortKeys_str, recordFromPayload_payload, hhash,
    isText_str]
  rw [ensure_true]
  rfl

/-- The handling a pack states. -/
abbrev handling : JsonDict F := JsonDict.of [("follow_embedded_instructions", .bool false),
  ("may_change_frozen_statement", .bool false), ("text_classification", .text "quoted-untrusted-experience")]

theorem isHandling_handling : isHandling py (some (.dict handling.sortKeys)) = true := by
  have hkeys : (handling : JsonDict F).keys.Nodup := by
    rw [JsonDict.keys_of]
    exact List.Nodup.map PyText.of_injective (by simp)
  have hlength : (handling : JsonDict F).sortKeys.length = 3 := by
    rw [(JsonDict.sortKeys_perm _).length_eq]
    rfl
  simp only [isHandling, hlength, JsonDict.get_sortKeys hkeys, JsonDict.get_of_cons, String.reduceEq, if_true, if_false,
    Option.map_some, JsonTree.sortKeys_bool, JsonTree.sortKeys_text, isFalse, isText_text]
  rfl

/-- What a pack renders to is read back as the pack with its collections in order. -/
theorem fromBytes_render {p : ExperienceContextPack py} (hp : ∀ r ∈ p.value.records, r.value.IsScalar) :
    fromBytes py p.value.render = .ok (ExperienceContextPack.inOrder p) := by
  have hrecords : ((p.value.records.map fun record => JsonTree.dict (JsonDict.of
      [("content_sha256", .str record.value.contentSha256), ("record", .dict record.value.payload)])).map
      JsonTree.sortKeys).mapM (recordFromEnvelope py) = .ok (p.value.records.map ExperienceRecord.inOrder) := by
    rw [List.mapM_map, List.mapM_map]
    exact mapM_of fun r _ => recordFromEnvelope_payload r
  have hcanonical : canonicalJson py (.dict p.value.payload.sortKeys) = canonicalJson py (.dict p.value.payload) := by
    rw [← JsonTree.sortKeys_dict, canonicalJson_sortKeys]
  rw [fromBytes, PackFields.render, parse_canonicalJson (p.value.payload_plain p.passed hp), ok_bind,
    JsonTree.sortKeys_dict, mapping_dict, ok_bind, ensure_of _ hcanonical, ok_bind]
  simp only [JsonDict.get_sortKeys p.value.payload_keys]
  have hget : ∀ key, JsonDict.get p.value.payload key = _ := fun key => by
    rw [PackFields.payload, withEstimate, PackFields.payloadWithoutEstimate, JsonDict.of_append]
  simp only [hget, List.cons_append, List.nil_append, JsonDict.get_of_cons, String.reduceEq, if_true, if_false,
    Option.map_some, JsonTree.sortKeys_str, JsonTree.sortKeys_text, sortKeys_texts, JsonTree.sortKeys_list,
    JsonTree.sortKeys_int, JsonTree.sortKeys_dict, isText_text, isText_str, string_str, list_list, stringTuple_texts,
    integer_int, mapping_dict, and_self, isHandling_handling, ensure_true, ok_bind, queryFromPayload_payload, hrecords]
  have hmake := Checked.make_of (PackFields.postInit_inOrder p.passed)
  have hrender : p.value.inOrder.render = canonicalJson py (.dict p.value.payload) := p.value.render_inOrder
  exact bind_eq_ok.mpr ⟨_, hmake, bind_eq_ok.mpr ⟨(), ensure_of _ hrender, rfl⟩⟩

/-- What the decoder returns renders to the bytes it was given. -/
theorem render_of_fromBytes {content : ByteArray} {p : ExperienceContextPack py} (h : fromBytes py content = .ok p) :
    p.value.render = content := by
  iterate 15 obtain ⟨_, -, h⟩ := bind_eq_ok.mp h
  obtain ⟨hrender, h⟩ := ensure_bind_eq_ok.mp h
  cases h
  exact hrender

/-- The decoder accepts exactly what packs render to. -/
theorem fromBytes_accepts_image (py : Python F) :
    (∀ p : ExperienceContextPack py, (∀ r ∈ p.value.records, r.value.IsScalar) →
      ∃ q, fromBytes py p.value.render = .ok q ∧ q.value.render = p.value.render) ∧
    ∀ content p, fromBytes py content = .ok p → p.value.render = content := by
  constructor
  · intro p hp
    exact ⟨ExperienceContextPack.inOrder p, fromBytes_render hp, p.value.render_inOrder⟩
  · intro content p h
    exact render_of_fromBytes h

def samplePython : Python Unit where
  isSpace c := c == .ofChar ' '
  isWord c := Python.isAlnum c || oneOf "_" c
  bidirectional _ := "L"
  folded value := value
  sha256 _ := repeated 64 '0'
  sha256_shaped _ := isHex_repeated 64 (by decide)
  floatText _ := []
  readFloat _ := ()
  floatIsZero _ := false

/-- A negative experience, its spans and conditions out of order. -/
def sampleRecord : RecordFields samplePython where
  source := ⟨⟨.of "notes", .of "1", repeated 64 '0', [.of "b", .of "a"]⟩, by decide +kernel⟩
  recordVersion := .of "1"
  authorRole := .of "reviewer"
  applicability := ⟨⟨[.of "formalizer"], [.of "algebra"], [], [.of "Rings", .of "Fields"]⟩, by decide +kernel⟩
  rights := ⟨⟨.of "team", .of "1", [.local], none⟩, by decide +kernel⟩
  outcome := .negativeEvidence
  title := .of "Units"
  observation := .of "Zero is no unit"
  failureEvidence := [⟨⟨.gapReport, .of "gap", .of "1", repeated 64 '0', .of "No proof"⟩, by decide +kernel⟩]

def sampleQuery : QueryFields where
  role := .of "formalizer"
  domainPath := [.of "algebra"]
  graphFrontier := []
  rightsScopeId := .of "team"
  endpoint := .local
  outcomes := [.negativeEvidence]
  maxItems := 8
  maxTokens := 4096

def samplePack : PackFields samplePython where
  query := ⟨sampleQuery, by decide +kernel⟩
  querySha256 := repeated 64 '0'
  candidateRecordSha256 := [repeated 64 '0']
  records := [⟨sampleRecord, by decide +kernel⟩]
  estimatedTokens := 410

set_option maxRecDepth 20000 in
theorem samplePack_estimate : estimatePackTokens samplePython samplePack.payloadWithoutEstimate = some 410 := by
  apply estimatePackTokens_of_settle 3
  rw [tokensAt_eq_width]
  decide +kernel

theorem samplePack_passes : samplePack.postInit = .ok () := by
  simp only [PackFields.postInit, seq_eq_ok, ensure_eq_ok, samplePack_estimate]
  refine ⟨?_, rfl, ?_, ?_, ?_, ?_, ?_, rfl, ?_⟩
  all_goals decide +kernel

theorem sampleRecord_isScalar : sampleRecord.IsScalar where
  title := PyText.isScalar_of _
  observation := PyText.isScalar_of _
  conditions := List.forall_mem_cons.mpr ⟨PyText.isScalar_of _, List.forall_mem_singleton.mpr (PyText.isScalar_of _)⟩
  summaries := List.forall_mem_singleton.mpr (PyText.isScalar_of _)

theorem fromBytes_accepts_sample :
    ∃ q, fromBytes samplePython samplePack.render = .ok q ∧ q.value.render = samplePack.render :=
  (fromBytes_accepts_image samplePython).1 ⟨samplePack, samplePack_passes⟩
    (List.forall_mem_singleton.mpr sampleRecord_isScalar)

end Autolean.Builder.Experience
