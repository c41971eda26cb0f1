import Autolean.Builder.ExperienceImage
import Autolean.Text.JsonContent
import Autolean.Machine.Selection
import Mathlib

/-! Retrieval: the records that apply to a query are ranked, and quoted one by one while the
budgets of the query hold. The pack depends on what the records say, and on no order of them. -/
namespace Autolean.Builder.Experience
open Text Machine Machine.Raising Machine.Selection
variable {F : Type} (py : Python F)

inductive RetrievalError where
  | experience (error : ExperienceError)
  /-- `ExperienceBudgetError`. -/
  | budget (message : String)

/-- Records under their digests. -/
structure ExperienceCatalog where
  byDigest : List (PyText × ExperienceRecord py)
  distinct : (byDigest.map Prod.fst).Nodup
  addressed : ∀ f ∈ byDigest, f.1 = f.2.value.contentSha256

variable {py}

namespace ExperienceCatalog

/-- `ExperienceCatalog(records)`. -/
def ofRecords (records : List (ExperienceRecord py)) : ExperienceCatalog py where
  byDigest := firstOf (fun record => record.value.contentSha256) records
  distinct := nodup_firstOf _ _
  addressed f hf := (mem_firstOf _ _ f hf).2

def records (catalog : ExperienceCatalog py) : List (ExperienceRecord py) :=
  (sorted (catalog.byDigest.map Prod.fst)).filterMap fun digest => catalog.byDigest.lookup digest

end ExperienceCatalog

/-- `ExperienceRetriever._eligible`. -/
def Eligible (record : ExperienceRecord py) (query : ExperienceQuery) : Prop :=
  query.value.role ∈ record.value.applicability.value.roles ∧
  record.value.applicability.value.domainPath.length ≤ query.value.domainPath.length ∧
  query.value.domainPath.take record.value.applicability.value.domainPath.length =
    record.value.applicability.value.domainPath ∧
  (∀ node ∈ record.value.applicability.value.requiredGraphFrontier, node ∈ query.value.graphFrontier) ∧
  record.value.rights.value.rightsScopeId = query.value.rightsScopeId ∧
  query.value.endpoint ∈ record.value.rights.value.allowedEndpoints ∧
  record.value.outcome ∈ query.value.outcomes

instance decidableEligible (record : ExperienceRecord py) (query : ExperienceQuery) :
    Decidable (Eligible record query) :=
  inferInstanceAs (Decidable (_ ∧ _ ∧ _ ∧ _ ∧ _ ∧ _ ∧ _))

/-- `ExperienceRetriever._rank_key`. -/
def rankKey (record : ExperienceRecord py) : Int ×ₗ Int ×ₗ Int ×ₗ PyText :=
  toLex (-record.value.applicability.value.domainPath.length,
    toLex (-record.value.applicability.value.requiredGraphFrontier.length,
      toLex (-record.value.applicability.value.conditions.length, record.value.contentSha256)))

def ExperienceCatalog.candidates (catalog : ExperienceCatalog py) (query : ExperienceQuery) :
    List (ExperienceRecord py) :=
  (catalog.records.filter fun record => Eligible record query).insertionSort fun a b => rankKey a ≤ rankKey b

theorem estimatePackTokens_returns (d : JsonDict F) : (estimatePackTokens py d).isSome := by
  obtain ⟨n, hn, -⟩ := @estimatePackTokens_isSome F py d
  rw [hn]
  rfl

variable (py) in
/-- What the loop of `_estimate_pack_tokens` returns. -/
def packTokens (d : JsonDict F) : Nat := (estimatePackTokens py d).get (estimatePackTokens_returns d)

def candidateHashes (candidates : List (ExperienceRecord py)) : List PyText :=
  candidates.map fun record => record.value.contentSha256

/-- The pack of the records, before its tokens are estimated. -/
def envelope (query : ExperienceQuery) (hashes : List PyText) (records : List (ExperienceRecord py)) : PackFields py where
  query := query
  querySha256 := query.value.contentSha256 py
  candidateRecordSha256 := hashes
  records := records
  estimatedTokens := 0

def tokensOf (query : ExperienceQuery) (hashes : List PyText) (records : List (ExperienceRecord py)) : Nat :=
  packTokens py (envelope query hashes records).payloadWithoutEstimate

/-- The tokens of the pack that quotes none of its candidates. -/
def emptyTokens (query : ExperienceQuery) (candidates : List (ExperienceRecord py)) : Nat :=
  tokensOf query (candidateHashes candidates) ([] : List (ExperienceRecord py))

/-- `len(selected) >= query.max_items`. -/
def isFull (query : ExperienceQuery) (selected : List (ExperienceRecord py)) : Bool :=
  query.value.maxItems ≤ selected.length

/-- `_estimate_pack_tokens(trial_payload) <= query.max_tokens`. -/
def fits (query : ExperienceQuery) (hashes : List PyText) (trial : List (ExperienceRecord py)) : Bool :=
  tokensOf query hashes trial ≤ query.value.maxTokens

def select (query : ExperienceQuery) (candidates : List (ExperienceRecord py)) : List (ExperienceRecord py) :=
  takeFitting (isFull query) (fits query (candidateHashes candidates)) [] candidates

def packOf (query : ExperienceQuery) (hashes : List PyText) (records : List (ExperienceRecord py)) : PackFields py :=
  { envelope query hashes records with estimatedTokens := tokensOf query hashes records }

/-- What is handed to the constructor of the pack. -/
def selectedPack (query : ExperienceQuery) (candidates : List (ExperienceRecord py)) : PackFields py :=
  packOf query (candidateHashes candidates) (select query candidates)

/-- `ExperienceRetriever.retrieve`. -/
def retrieve (catalog : ExperienceCatalog py) (query : ExperienceQuery) :
    Except RetrievalError (ExperienceContextPack py) := do
  ensure (emptyTokens query (catalog.candidates query) ≤ query.value.maxTokens)
    (.budget "token budget cannot hold the empty experience envelope")
  (Checked.make PackFields.postInit (selectedPack query (catalog.candidates query))).mapError .experience

/-! The catalog -/

namespace ExperienceCatalog
variable (catalog : ExperienceCatalog py)

theorem mem_records {record : ExperienceRecord py} :
    record ∈ catalog.records ↔ (record.value.contentSha256, record) ∈ catalog.byDigest := by
  rw [records, List.mem_filterMap]
  constructor
  · rintro ⟨digest, -, hlookup⟩
    have hmem := (Keyed.lookup_eq_some catalog.distinct).mp hlookup
    have haddressed : digest = record.value.contentSha256 := catalog.addressed _ hmem
    rwa [haddressed] at hmem
  · intro hmem
    exact ⟨_, (sorted_perm _).mem_iff.mpr (List.mem_map_of_mem hmem), (Keyed.lookup_eq_some catalog.distinct).mpr hmem⟩

/-- Each digest stands for one record. -/
theorem nodup_records : (candidateHashes catalog.records).Nodup := by
  have hsorted : (sorted (catalog.byDigest.map Prod.fst)).Nodup := (sorted_perm _).nodup_iff.mpr catalog.distinct
  rw [candidateHashes, records, List.map_filterMap]
  refine hsorted.filterMap fun a b digest ha hb => ?_
  have hdigest : ∀ {k},
      digest ∈ (catalog.byDigest.lookup k).map (fun record => record.value.contentSha256) → k = digest := by
    intro k hk
    obtain ⟨record, hrecord, rfl⟩ := Option.mem_map.mp hk
    exact catalog.addressed _ ((Keyed.lookup_eq_some catalog.distinct).mp hrecord)
  rw [hdigest ha, hdigest hb]

theorem mem_candidates {query : ExperienceQuery} {record : ExperienceRecord py} :
    record ∈ catalog.candidates query ↔ record ∈ catalog.records ∧ Eligible record query := by
  rw [candidates, (List.perm_insertionSort _ _).mem_iff, List.mem_filter, decide_eq_true_eq]

theorem nodup_candidates (query : ExperienceQuery) : (candidateHashes (catalog.candidates query)).Nodup := by
  have hperm : (candidateHashes (catalog.candidates query)).Perm
      (candidateHashes (catalog.records.filter fun record => Eligible record query)) :=
    (List.perm_insertionSort _ _).map _
  exact hperm.nodup_iff.mpr (catalog.nodup_records.sublist (List.filter_sublist.map _))

theorem mem_of_mem_ofRecords {records : List (ExperienceRecord py)} {record : ExperienceRecord py}
    (h : record ∈ (ofRecords records).records) : record ∈ records :=
  (mem_firstOf _ _ _ ((mem_records _).mp h)).1

theorem exists_mem_ofRecords {records : List (ExperienceRecord py)} {record : ExperienceRecord py}
    (h : record ∈ records) :
    ∃ kept ∈ (ofRecords records).records, kept.value.contentSha256 = record.value.contentSha256 := by
  have hkey : record.value.contentSha256 ∈ (ofRecords records).byDigest.map Prod.fst :=
    (mem_keys_firstOf _ _).mpr (List.mem_map_of_mem h)
  obtain ⟨f, hf, hdigest⟩ := List.mem_map.mp hkey
  have haddressed := (ofRecords records).addressed f hf
  refine ⟨f.2, (mem_records _).mpr ?_, haddressed.symm.trans hdigest⟩
  rwa [← haddressed]

end ExperienceCatalog

/-! The selection -/

theorem estimatePackTokens_envelope (query : ExperienceQuery) (hashes : List PyText)
    (records : List (ExperienceRecord py)) :
    estimatePackTokens py (envelope query hashes records).payloadWithoutEstimate =
      some (tokensOf query hashes records) :=
  (Option.some_get _).symm

section
variable (query : ExperienceQuery) (candidates : List (ExperienceRecord py))

theorem select_sublist : (select query candidates).Sublist candidates := by
  obtain ⟨more, he, hsub⟩ := takeFitting_extends (isFull query) (fits query (candidateHashes candidates)) [] candidates
  rw [select, he, List.nil_append]
  exact hsub

theorem length_select : ((select query candidates).length : Int) ≤ query.value.maxItems := by
  have hpassed := query.passed
  simp only [QueryFields.postInit, seq_eq_ok, ensure_eq_ok] at hpassed
  obtain ⟨-, -, -, -, -, -, ⟨hitems, -⟩, -⟩ := hpassed
  apply takeFitting_induct (P := fun selected => (selected.length : Int) ≤ query.value.maxItems)
  · intro taken c hfull _ _
    have hroom := of_decide_eq_false hfull
    rw [List.length_append, List.length_singleton]
    omega
  · rw [List.length_nil]
    omega

variable {query candidates}

theorem tokens_select (h : emptyTokens query candidates ≤ query.value.maxTokens) :
    tokensOf query (candidateHashes candidates) (select query candidates) ≤ query.value.maxTokens := by
  have hfits : fits query (candidateHashes candidates) [] = true := decide_eq_true h
  exact of_decide_eq_true (takeFitting_fits (isFull query) hfits candidates)

theorem selectedPack_passes (hdistinct : (candidateHashes candidates).Nodup)
    (h : emptyTokens query candidates ≤ query.value.maxTokens) : (selectedPack query candidates).postInit = .ok () := by
  have hsub : (selectedPack query candidates).selected.Sublist (candidateHashes candidates) :=
    (select_sublist query candidates).map _
  have hestimate : (estimatePackTokens py (selectedPack query candidates).payloadWithoutEstimate).map Int.ofNat =
      some (selectedPack query candidates).estimatedTokens :=
    congrArg (Option.map Int.ofNat) (estimatePackTokens_envelope _ _ _)
  simp only [PackFields.postInit, seq_eq_ok, ensure_eq_ok, validateDigest, forM_eq_ok]
  refine ⟨py.sha256_shaped _, rfl, ?_, hdistinct, hdistinct.sublist hsub, hsub.subset, length_select query candidates,
    hestimate, tokens_select h⟩
  intro digest hdigest
  obtain ⟨record, -, rfl⟩ := List.mem_map.mp hdigest
  exact py.sha256_shaped _

end

theorem retrieve_eq_ok {catalog : ExperienceCatalog py} {query : ExperienceQuery} {pack : ExperienceContextPack py} :
    retrieve catalog query = .ok pack ↔ emptyTokens query (catalog.candidates query) ≤ query.value.maxTokens ∧
      selectedPack query (catalog.candidates query) = pack.value := by
  rw [retrieve, ensure_bind_eq_ok]
  apply and_congr_right
  intro hfits
  rw [Checked.make_of (selectedPack_passes (catalog.nodup_candidates query) hfits)]
  constructor
  · intro h
    cases h
    rfl
  · intro h
    exact congrArg Except.ok (Checked.ext_value h)

/-- The only error is that of the empty pack. -/
theorem retrieve_eq_error {catalog : ExperienceCatalog py} {query : ExperienceQuery} {error : RetrievalError} :
    retrieve catalog query = .error error ↔ ¬ emptyTokens query (catalog.candidates query) ≤ query.value.maxTokens ∧
      error = .budget "token budget cannot hold the empty experience envelope" := by
  by_cases hfits : emptyTokens query (catalog.candidates query) ≤ query.value.maxTokens
  · have hmake := Checked.make_of (selectedPack_passes (catalog.nodup_candidates query) hfits)
    rw [retrieve, ensure_of _ hfits, ok_bind, hmake]
    constructor
    · intro h
      cases h
    · intro h
      exact absurd hfits h.1
  · rw [retrieve, ensure, if_neg hfits, error_bind]
    exact ⟨fun h => ⟨hfits, (Except.error.inj h).symm⟩, fun h => congrArg Except.error h.2.symm⟩

/-! What a record says -/

theorem dumps_eq_of_canonicalJson {v w : JsonValue F} (h : canonicalJson py v = canonicalJson py w) :
    v.dumps py.floatText = w.dumps py.floatText := by
  have hread := congrArg String.fromUTF8? h
  rw [canonicalJson, canonicalJson, fromUTF8?_toUTF8, fromUTF8?_toUTF8] at hread
  exact List.append_cancel_right (String.ofList_injective (Option.some.inj hread))

theorem texts_legible (values : List PyText) : (texts values : JsonValue F).Everywhere JsonTree.Legible :=
  JsonTree.everywhere_list.mpr ⟨trivial, List.forall_mem_map.mpr fun _ _ => trivial⟩

/-! Collections that read the same -/

theorem texts_eq_of_content {a b : List PyText} (ha : ∀ s ∈ a, s.IsScalar) (hb : ∀ s ∈ b, s.IsScalar)
    (h : (texts a : JsonValue F).content = (texts b).content) : a = b :=
  JsonTree.texts_of_content ha hb h

theorem sorted_eq_of_content {a b : List PyText} (ha : ∀ s ∈ a, s.IsScalar) (hb : ∀ s ∈ b, s.IsScalar)
    (h : (texts (sorted a) : JsonValue F).content = (texts (sorted b)).content) : sorted a = sorted b :=
  JsonTree.texts_of_content (fun s hs => ha s ((sorted_perm a).mem_iff.mp hs))
    (fun s hs => hb s ((sorted_perm b).mem_iff.mp hs)) h

theorem length_eq_of_content {a b : List PyText}
    (h : (texts (sorted a) : JsonValue F).content = (texts (sorted b)).content) :
    a.length = b.length := by
  rw [← (sorted_perm a).length_eq, ← (sorted_perm b).length_eq]
  exact JsonTree.length_of_content h

theorem mem_iff_of_sorted {a b : List PyText} (h : sorted a = sorted b) {s : PyText} : s ∈ a ↔ s ∈ b := by
  rw [← (sorted_perm a).mem_iff, h, (sorted_perm b).mem_iff]

/-! Payloads are legible -/

theorem SourceFields.payload_legible (s : SourceFields) :
    (.dict s.payload : JsonValue F).Everywhere JsonTree.Legible := by
  refine JsonTree.everywhere_legible_of (by simp) ?_
  simp only [List.forall_mem_cons, List.not_mem_nil, false_imp_iff, implies_true, and_true]
  exact ⟨trivial, trivial, trivial, texts_legible _⟩

theorem RightsFields.payload_legible (r : RightsFields) :
    (.dict r.payload : JsonValue F).Everywhere JsonTree.Legible := by
  have hreference : (optionalText r.externalReviewRef : JsonValue F).Everywhere JsonTree.Legible := by
    cases r.externalReviewRef <;> trivial
  refine JsonTree.everywhere_legible_of (by simp) ?_
  simp only [List.forall_mem_cons, List.not_mem_nil, false_imp_iff, implies_true, and_true]
  exact ⟨texts_legible _, hreference, trivial, trivial⟩

theorem ApplicabilityFields.payload_legible (a : ApplicabilityFields) :
    (.dict a.payload : JsonValue F).Everywhere JsonTree.Legible := by
  refine JsonTree.everywhere_legible_of (by simp) ?_
  simp only [List.forall_mem_cons, List.not_mem_nil, false_imp_iff, implies_true, and_true]
  exact ⟨texts_legible _, texts_legible _, texts_legible _, texts_legible _⟩

theorem ApplicabilityFields.scalars {a : ApplicabilityFields} (h : a.postInit py = .ok ()) :
    (∀ s ∈ a.roles, s.IsScalar) ∧ (∀ s ∈ a.domainPath, s.IsScalar) ∧ ∀ s ∈ a.requiredGraphFrontier, s.IsScalar := by
  simp only [postInit, seq_eq_ok, validateIdentifier, ensure_eq_ok, validateUnique_eq_ok, forM_eq_ok] at h
  obtain ⟨⟨-, hroles⟩, ⟨-, hpath⟩, -, hfrontier, -⟩ := h
  exact ⟨fun s hs => (hroles s hs).isScalar, fun s hs => (hpath s hs).isScalar, fun s hs => (hfrontier s hs).isScalar⟩

theorem RightsFields.scope_scalar {r : RightsFields} (h : r.postInit = .ok ()) : r.rightsScopeId.IsScalar := by
  simp only [postInit, seq_eq_ok, validateIdentifier, ensure_eq_ok] at h
  exact h.1.isScalar

theorem EvidenceFields.payload_legible (e : EvidenceFields) :
    (.dict e.payload : JsonValue F).Everywhere JsonTree.Legible := by
  refine JsonTree.everywhere_legible_of (by simp) ?_
  simp only [List.forall_mem_cons, List.not_mem_nil, false_imp_iff, implies_true, and_true]
  exact ⟨trivial, trivial, trivial, trivial, trivial⟩

theorem RecordFields.payload_legible (r : RecordFields py) :
    (JsonTree.dict r.payload).Everywhere JsonTree.Legible := by
  have hevidence : ∀ v ∈ r.sortedEvidence.map fun e => JsonTree.dict e.value.payload,
      v.Everywhere (JsonTree.Legible (F := F)) :=
    List.forall_mem_map.mpr fun e _ => e.value.payload_legible
  refine JsonTree.everywhere_legible_of (by simp) ?_
  simp only [List.forall_mem_cons, List.not_mem_nil, false_imp_iff, implies_true, and_true]
  exact ⟨r.applicability.value.payload_legible, trivial, JsonTree.everywhere_list.mpr ⟨trivial, hevidence⟩, trivial,
    trivial, trivial, r.rights.value.payload_legible, trivial, r.source.value.payload_legible, trivial⟩

/-- The bytes a record is known by. -/
def canonical (record : ExperienceRecord py) : ByteArray := canonicalJson py (.dict record.value.payload)

/-- The records say the same, whatever order they hold it in. -/
def SameContent (a b : ExperienceRecord py) : Prop := canonical a = canonical b

namespace SameContent
variable {a b : ExperienceRecord py} (h : SameContent a b)
include h

theorem contentSha256_eq : a.value.contentSha256 = b.value.contentSha256 := congrArg py.sha256 h

theorem payload : (JsonTree.dict a.value.payload).content = (JsonTree.dict b.value.payload).content :=
  JsonTree.content_eq_of_dumps_eq py.floatText (@hooks_keeps F py) a.value.payload_legible b.value.payload_legible
    (dumps_eq_of_canonicalJson h)

theorem field (key : String) {v w : JsonValue F} (hv : a.value.payload.get key = some v)
    (hw : b.value.payload.get key = some w) : v.content = w.content :=
  JsonTree.content_of_get a.value.payload_keys b.value.payload_keys h.payload key hv hw

theorem outcome_eq : a.value.outcome = b.value.outcome := by
  have hscalar : ∀ o : ExperienceOutcome, o.value.IsScalar := by
    rintro (_ | _ | _) <;> exact PyText.isScalar_of _
  have hcontent : (JsonTree.str a.value.outcome.value : JsonValue F).content =
      (JsonTree.str b.value.outcome.value).content :=
    h.field "outcome" (by simp [RecordFields.payload]) (by simp [RecordFields.payload])
  rw [JsonTree.content_str (hscalar _), JsonTree.content_str (hscalar _)] at hcontent
  exact ExperienceOutcome.value_injective (JsonTree.str.inj hcontent)

/-- The parts of the applicability that decide where a record is used. -/
theorem applicability_eq :
    sorted a.value.applicability.value.roles = sorted b.value.applicability.value.roles ∧
      a.value.applicability.value.domainPath = b.value.applicability.value.domainPath ∧
      sorted a.value.applicability.value.requiredGraphFrontier =
        sorted b.value.applicability.value.requiredGraphFrontier ∧
      a.value.applicability.value.conditions.length = b.value.applicability.value.conditions.length := by
  have hcontent : (JsonTree.dict a.value.applicability.value.payload : JsonValue F).content =
      (JsonTree.dict b.value.applicability.value.payload).content :=
    h.field "applicability" (by simp [RecordFields.payload]) (by simp [RecordFields.payload])
  have hfield := JsonTree.content_of_get (ApplicabilityFields.payload_keys a.value.applicability.value)
    (ApplicabilityFields.payload_keys b.value.applicability.value) hcontent
  obtain ⟨hroles, hpath, hfrontier⟩ := ApplicabilityFields.scalars a.value.applicability.passed
  obtain ⟨hroles', hpath', hfrontier'⟩ := ApplicabilityFields.scalars b.value.applicability.passed
  refine ⟨?_, ?_, ?_, ?_⟩
  · exact sorted_eq_of_content hroles hroles'
      (hfield "roles" (by simp [ApplicabilityFields.payload]) (by simp [ApplicabilityFields.payload]))
  · exact texts_eq_of_content hpath hpath'
      (hfield "domain_path" (by simp [ApplicabilityFields.payload]) (by simp [ApplicabilityFields.payload]))
  · exact sorted_eq_of_content hfrontier hfrontier'
      (hfield "required_graph_frontier" (by simp [ApplicabilityFields.payload]) (by simp [ApplicabilityFields.payload]))
  · exact length_eq_of_content
      (hfield "conditions" (by simp [ApplicabilityFields.payload]) (by simp [ApplicabilityFields.payload]))

/-- The parts of the rights that decide who may be shown a record. -/
theorem rights_eq :
    a.value.rights.value.rightsScopeId = b.value.rights.value.rightsScopeId ∧
      ∀ endpoint,
        endpoint ∈ a.value.rights.value.allowedEndpoints ↔ endpoint ∈ b.value.rights.value.allowedEndpoints := by
  have hcontent : (JsonTree.dict a.value.rights.value.payload : JsonValue F).content =
      (JsonTree.dict b.value.rights.value.payload).content :=
    h.field "rights" (by simp [RecordFields.payload]) (by simp [RecordFields.payload])
  have hfield := JsonTree.content_of_get (RightsFields.payload_keys a.value.rights.value)
    (RightsFields.payload_keys b.value.rights.value) hcontent
  constructor
  · have hscope : (JsonTree.str a.value.rights.value.rightsScopeId : JsonValue F).content =
        (JsonTree.str b.value.rights.value.rightsScopeId).content :=
      hfield "rights_scope_id" (by simp [RightsFields.payload]) (by simp [RightsFields.payload])
    rw [JsonTree.content_str (RightsFields.scope_scalar a.value.rights.passed),
      JsonTree.content_str (RightsFields.scope_scalar b.value.rights.passed)] at hscope
    exact JsonTree.str.inj hscope
  · have hscalar : ∀ endpoints : List ExperienceEndpoint, ∀ s ∈ endpoints.map ExperienceEndpoint.value, s.IsScalar := by
      refine fun endpoints => List.forall_mem_map.mpr fun endpoint _ => ?_
      cases endpoint <;> exact PyText.isScalar_of _
    have hsorted := sorted_eq_of_content (hscalar a.value.rights.value.allowedEndpoints)
      (hscalar b.value.rights.value.allowedEndpoints)
      (hfield "allowed_endpoints" (by simp [RightsFields.payload]) (by simp [RightsFields.payload]))
    intro endpoint
    rw [← List.mem_map_of_injective ExperienceEndpoint.value_injective, mem_iff_of_sorted hsorted,
      List.mem_map_of_injective ExperienceEndpoint.value_injective]

theorem eligible_iff (query : ExperienceQuery) : Eligible a query ↔ Eligible b query := by
  obtain ⟨hroles, hpath, hfrontier, -⟩ := h.applicability_eq
  obtain ⟨hscope, hendpoints⟩ := h.rights_eq
  simp only [Eligible, mem_iff_of_sorted hroles, hpath, mem_iff_of_sorted hfrontier, hscope, hendpoints, h.outcome_eq]

theorem rankKey_eq : rankKey a = rankKey b := by
  obtain ⟨-, hpath, hfrontier, hconditions⟩ := h.applicability_eq
  have hlength : a.value.applicability.value.requiredGraphFrontier.length =
      b.value.applicability.value.requiredGraphFrontier.length := by
    rw [← (sorted_perm _).length_eq, hfrontier, (sorted_perm _).length_eq]
  rw [rankKey, hpath, hlength, hconditions, h.contentSha256_eq, rankKey]

end SameContent

/-! The candidates of a catalog -/

/-- What the records say. -/
def contents (records : List (ExperienceRecord py)) : Set ByteArray :=
  {content | ∃ record ∈ records, canonical record = content}

/-- What the records say that the query may be shown. -/
def eligibleContents (query : ExperienceQuery) (records : List (ExperienceRecord py)) : Set ByteArray :=
  {content | ∃ record ∈ records, Eligible record query ∧ canonical record = content}

/-- The digests tell apart what the records say. -/
def CollisionFree (records : List (ExperienceRecord py)) : Prop := Set.InjOn py.sha256 (contents records)

theorem CollisionFree.sameContent {records : List (ExperienceRecord py)} (hfree : CollisionFree records)
    {a b : ExperienceRecord py} (ha : canonical a ∈ contents records) (hb : canonical b ∈ contents records)
    (h : a.value.contentSha256 = b.value.contentSha256) : SameContent a b :=
  hfree ha hb h

namespace ExperienceCatalog
variable {records records' : List (ExperienceRecord py)} {query : ExperienceQuery}

/-- Of the records that say the same, one is kept. -/
theorem exists_kept (hfree : CollisionFree records) {record : ExperienceRecord py} (h : record ∈ records) :
    ∃ kept ∈ (ofRecords records).records, SameContent kept record := by
  obtain ⟨kept, hkept, hdigest⟩ := exists_mem_ofRecords h
  exact ⟨kept, hkept, hfree.sameContent ⟨kept, mem_of_mem_ofRecords hkept, rfl⟩ ⟨record, h, rfl⟩ hdigest⟩

theorem contents_candidates (hfree : CollisionFree records) (query : ExperienceQuery) :
    contents ((ofRecords records).candidates query) = eligibleContents query records := by
  ext content
  constructor
  · rintro ⟨record, hrecord, rfl⟩
    obtain ⟨hkept, heligible⟩ := (mem_candidates _).mp hrecord
    exact ⟨record, mem_of_mem_ofRecords hkept, heligible, rfl⟩
  · rintro ⟨record, hrecord, heligible, rfl⟩
    obtain ⟨kept, hkept, hsame⟩ := exists_kept hfree hrecord
    exact ⟨kept, (mem_candidates _).mpr ⟨hkept, (hsame.eligible_iff query).mpr heligible⟩, hsame⟩

/-- No two records of a catalog have one rank. -/
theorem nodup_ranks (catalog : ExperienceCatalog py) (query : ExperienceQuery) :
    ((catalog.candidates query).map rankKey).Nodup := by
  have hdigests := catalog.nodup_candidates query
  apply List.Nodup.of_map fun rank => (ofLex (ofLex (ofLex rank).2).2).2
  rw [List.map_map]
  exact hdigests

theorem mem_ranks (hfree : CollisionFree records) {rank : Int ×ₗ Int ×ₗ Int ×ₗ PyText} :
    rank ∈ ((ofRecords records).candidates query).map rankKey ↔
      ∃ record : ExperienceRecord py, canonical record ∈ eligibleContents query records ∧ rankKey record = rank := by
  rw [List.mem_map]
  constructor
  · rintro ⟨record, hrecord, rfl⟩
    exact ⟨record, contents_candidates hfree query ▸ ⟨record, hrecord, rfl⟩, rfl⟩
  · rintro ⟨record, hrecord, rfl⟩
    rw [← contents_candidates hfree query] at hrecord
    obtain ⟨candidate, hcandidate, hsame⟩ := hrecord
    exact ⟨candidate, hcandidate, SameContent.rankKey_eq hsame⟩

/-- Catalogs whose eligible records say the same have candidates that do, one by one. -/
theorem candidates_sameContent (hfree : CollisionFree records) (hfree' : CollisionFree records')
    (h : eligibleContents query records = eligibleContents query records') :
    List.Forall₂ SameContent ((ofRecords records).candidates query) ((ofRecords records').candidates query) := by
  have hmem : ∀ rank, rank ∈ ((ofRecords records).candidates query).map rankKey ↔
      rank ∈ ((ofRecords records').candidates query).map rankKey := by
    intro rank
    rw [mem_ranks hfree, mem_ranks hfree', h]
  have hsorted : ∀ catalog : ExperienceCatalog py,
      (catalog.candidates query).insertionSort (fun a b => rankKey a ≤ rankKey b) = catalog.candidates query :=
    fun catalog => (List.pairwise_insertionSort _ _).insertionSort_eq
  have hranks := ranks_eq rankKey rankKey (nodup_ranks (ofRecords records) query)
    (nodup_ranks (ofRecords records') query) hmem
  rw [hsorted, hsorted] at hranks
  apply forall₂_of_ranks hranks
  intro a ha b hb hrank
  have hcontents : eligibleContents query records ⊆ contents records := by
    rintro content ⟨record, hrecord, -, rfl⟩
    exact ⟨record, hrecord, rfl⟩
  have hacontent : canonical a ∈ eligibleContents query records := contents_candidates hfree query ▸ ⟨a, ha, rfl⟩
  have hbcontent : canonical b ∈ eligibleContents query records := h ▸ contents_candidates hfree' query ▸ ⟨b, hb, rfl⟩
  apply hfree.sameContent (hcontents hacontent) (hcontents hbcontent)
  exact congrArg (fun rank => (ofLex (ofLex (ofLex rank).2).2).2) hrank

end ExperienceCatalog

/-! Records that say the same take the same room -/

theorem candidateHashes_eq {records records' : List (ExperienceRecord py)}
    (h : List.Forall₂ SameContent records records') :
    candidateHashes records = candidateHashes records' := by
  induction h with
  | nil => rfl
  | cons hsame _ ih => exact congrArg₂ List.cons hsame.contentSha256_eq ih

/-- A record as a pack quotes it. -/
def quoted (record : ExperienceRecord py) : JsonValue F :=
  .dict (JsonDict.of [("content_sha256", .str record.value.contentSha256), ("record", .dict record.value.payload)])

theorem SameContent.quoted_dumps {a b : ExperienceRecord py} (h : SameContent a b) :
    (quoted a).dumps py.floatText = (quoted b).dumps py.floatText := by
  apply JsonTree.dumps_dict_congr
  simp only [JsonDict.of, List.map_cons, List.map_nil, h.contentSha256_eq, dumps_eq_of_canonicalJson h]

theorem map_quoted_dumps {records records' : List (ExperienceRecord py)}
    (h : List.Forall₂ SameContent records records') :
    (records.map quoted).map (JsonTree.dumps py.floatText) =
      (records'.map quoted).map (JsonTree.dumps py.floatText) := by
  induction h with
  | nil => rfl
  | cons hsame _ ih => exact congrArg₂ List.cons hsame.quoted_dumps ih

/-- The other fields of a pack say nothing of the records it quotes. -/
theorem payload_envelope (query : ExperienceQuery) (hashes : List PyText) :
    ∃ front back : JsonDict F, ∀ records : List (ExperienceRecord py),
      (envelope query hashes records).payloadWithoutEstimate =
        front ++ (PyText.of "records", .list (records.map quoted)) :: back :=
  ⟨(envelope query hashes ([] : List (ExperienceRecord py))).payloadWithoutEstimate.take 6,
    (envelope query hashes ([] : List (ExperienceRecord py))).payloadWithoutEstimate.drop 7, fun _ => rfl⟩

theorem canonicalJson_envelope (query : ExperienceQuery) (hashes : List PyText)
    {records records' : List (ExperienceRecord py)} (h : List.Forall₂ SameContent records records') (estimate : Int) :
    canonicalJson py (.dict (withEstimate (envelope query hashes records).payloadWithoutEstimate estimate)) =
      canonicalJson py (.dict (withEstimate (envelope query hashes records').payloadWithoutEstimate estimate)) := by
  have hrecords : (JsonTree.list (records.map quoted)).dumps py.floatText =
      (JsonTree.list (records'.map quoted)).dumps py.floatText :=
    JsonTree.dumps_list_congr _ (map_quoted_dumps h)
  obtain ⟨front, back, he⟩ := @payload_envelope F py query hashes
  have hfields : (withEstimate (envelope query hashes records).payloadWithoutEstimate estimate).map
        (fun f => (f.1, f.2.dumps py.floatText)) =
      (withEstimate (envelope query hashes records').payloadWithoutEstimate estimate).map
        fun f => (f.1, f.2.dumps py.floatText) := by
    rw [he, he, withEstimate, withEstimate]
    simp only [List.map_append, List.map_cons, hrecords]
  rw [canonicalJson, canonicalJson, JsonTree.dumps_dict_congr py.floatText hfields]

section
variable {query : ExperienceQuery} {records records' : List (ExperienceRecord py)}

theorem tokensOf_eq (query : ExperienceQuery) (hashes : List PyText) (h : List.Forall₂ SameContent records records') :
    tokensOf query hashes records = tokensOf query hashes records' := by
  have htext := canonicalJson_envelope query hashes h
  have htokens : tokensAt py (envelope query hashes records).payloadWithoutEstimate =
      tokensAt py (envelope query hashes records').payloadWithoutEstimate := by
    funext estimate
    rw [tokensAt, htext, tokensAt]
  have hestimate : estimatePackTokens py (envelope query hashes records).payloadWithoutEstimate =
      estimatePackTokens py (envelope query hashes records').payloadWithoutEstimate := by
    rw [estimatePackTokens, htokens, htext, estimatePackTokens]
  rw [estimatePackTokens_envelope, estimatePackTokens_envelope] at hestimate
  exact Option.some.inj hestimate

theorem select_sameContent (query : ExperienceQuery) (h : List.Forall₂ SameContent records records') :
    List.Forall₂ SameContent (select query records) (select query records') := by
  rw [select, select, candidateHashes_eq h]
  apply takeFitting_forall₂ _ _ .nil h
  · intro a b hab
    rw [isFull, isFull, hab.length_eq]
  · intro a b hab
    rw [fits, fits, tokensOf_eq query _ hab]

/-- The packs agree in all but the order that their records hold their collections in. -/
structure SamePack (a b : PackFields py) : Prop where
  query : a.query = b.query
  querySha256 : a.querySha256 = b.querySha256
  candidates : a.candidateRecordSha256 = b.candidateRecordSha256
  records : List.Forall₂ SameContent a.records b.records
  estimatedTokens : a.estimatedTokens = b.estimatedTokens
  render : a.render = b.render

theorem render_packOf (query : ExperienceQuery) (hashes : List PyText) (records : List (ExperienceRecord py)) :
    (packOf query hashes records).render = canonicalJson py (.dict
      (withEstimate (envelope query hashes records).payloadWithoutEstimate (tokensOf query hashes records))) :=
  rfl

theorem samePack_packOf (query : ExperienceQuery) (hashes : List PyText)
    (h : List.Forall₂ SameContent records records') :
    SamePack (packOf query hashes records) (packOf query hashes records') where
  query := rfl
  querySha256 := rfl
  candidates := rfl
  records := h
  estimatedTokens := congrArg Int.ofNat (tokensOf_eq query hashes h)
  render := by rw [render_packOf, render_packOf, tokensOf_eq query hashes h, canonicalJson_envelope query hashes h]

theorem samePack_selectedPack (query : ExperienceQuery) (h : List.Forall₂ SameContent records records') :
    SamePack (selectedPack query records) (selectedPack query records') := by
  rw [selectedPack, selectedPack, candidateHashes_eq h]
  exact samePack_packOf query _ (select_sameContent query h)

/-- What is owed of a pack that quotes from ranked candidates. -/
structure Quotes (query : ExperienceQuery) (candidates : List (ExperienceRecord py)) (pack : PackFields py) : Prop where
  query_eq : pack.query = query
  hashes_eq : pack.candidateRecordSha256 = candidateHashes candidates
  ranked : pack.records.Sublist candidates
  items : pack.records.length ≤ query.value.maxItems
  tokens : pack.estimatedTokens ≤ query.value.maxTokens
  bytes : pack.render.size ≤ 4 * query.value.maxTokens
  skipped : ∀ front candidate back, candidates = front ++ candidate :: back → candidate ∉ pack.records →
    ∃ before after, pack.records = before ++ after ∧ before.Sublist front ∧ after.Sublist back ∧
      (query.value.maxItems < (before ++ [candidate]).length ∨
        query.value.maxTokens < tokensOf query (candidateHashes candidates) (before ++ [candidate]))

/-- The text of a pack is no longer than its estimate says. -/
theorem size_packOf (query : ExperienceQuery) (hashes : List PyText) (records : List (ExperienceRecord py)) :
    (packOf query hashes records).render.size ≤ 4 * tokensOf query hashes records := by
  obtain ⟨n, hn, hfixed⟩ := @estimatePackTokens_isSome F py (envelope query hashes records).payloadWithoutEstimate
  rw [estimatePackTokens_envelope] at hn
  cases Option.some.inj hn
  rw [tokensAt] at hfixed
  rw [render_packOf]
  omega

theorem select_skipped {candidates front back : List (ExperienceRecord py)} {candidate : ExperienceRecord py}
    (hcandidates : candidates = front ++ candidate :: back) (hnot : candidate ∉ select query candidates) :
    ∃ before after, select query candidates = before ++ after ∧ before.Sublist front ∧ after.Sublist back ∧
      (query.value.maxItems < (before ++ [candidate]).length ∨
        query.value.maxTokens < tokensOf query (candidateHashes candidates) (before ++ [candidate])) := by
  rw [select] at hnot ⊢
  generalize candidateHashes candidates = hashes at hnot ⊢
  rw [hcandidates] at hnot ⊢
  obtain ⟨before, after, he, hfront, hback, hover⟩ := takeFitting_skipped hnot
  refine ⟨before, after, he, hfront, hback, hover.imp ?_ ?_⟩
  · intro hfull
    have hitems := of_decide_eq_true hfull
    rw [List.length_append, List.length_singleton]
    omega
  · intro hfits
    exact not_le.mp (of_decide_eq_false hfits)

theorem quotes_selectedPack {candidates : List (ExperienceRecord py)}
    (hfits : emptyTokens query candidates ≤ query.value.maxTokens) :
    Quotes query candidates (selectedPack query candidates) := by
  have htokens := tokens_select hfits
  have hsize := size_packOf query (candidateHashes candidates) (select query candidates)
  exact {
    query_eq := rfl
    hashes_eq := rfl
    ranked := select_sublist query candidates
    items := length_select query candidates
    tokens := htokens
    bytes := by
      rw [selectedPack]
      omega
    skipped := fun _ _ _ => select_skipped }

end

theorem ExperienceCatalog.candidates_ascend (catalog : ExperienceCatalog py) (query : ExperienceQuery) :
    (catalog.candidates query).Pairwise fun a b => rankKey a < rankKey b := by
  have hsorted : (catalog.candidates query).Pairwise fun a b => rankKey a ≤ rankKey b := List.pairwise_insertionSort _ _
  have hdistinct := List.pairwise_map.mp (catalog.nodup_ranks query)
  exact (hsorted.and hdistinct).imp fun h => lt_of_le_of_ne h.1 h.2

/-! The envelope is the smallest of its packs -/

@[simp] theorem width_cons (c : Char) (cs : List Char) : width (c :: cs) = c.utf8Size + width cs := by
  rw [width, List.map_cons, List.sum_cons, width]

theorem width_printFields (floatText : F → List Char) (d : JsonDict F) :
    width (JsonTree.printFields floatText d) =
      1 + (d.map fun f => width (printText f.1) + width (f.2.print floatText) + 2).sum := by
  induction d with
  | nil => rfl
  | cons f d ih =>
    have hcomma : ','.utf8Size = 1 := rfl
    have hcolon : ':'.utf8Size = 1 := rfl
    simp only [JsonTree.printFields, width_cons, width_append, ih, hcomma, hcolon, List.map_cons, List.sum_cons]
    omega

/-- The fields of a dict take their room in any order. -/
theorem width_dumps_dict (floatText : F → List Char) {d : JsonDict F} (hd : d ≠ []) :
    width ((JsonTree.dict d).dumps floatText) =
      1 + (d.map fun f => width (printText f.1) + width (f.2.dumps floatText) + 2).sum := by
  have hperm := d.sortKeys_perm
  have hprint : ∀ e : JsonDict F, e ≠ [] →
      width ((JsonTree.dict e).print floatText) = width (JsonTree.printFields floatText e) := by
    intro e he
    cases e with
    | nil => exact absurd rfl he
    | cons f e =>
      rw [JsonTree.print, JsonTree.printFields, width_cons, width_cons]
      rfl
  have hsorted : d.sortKeys ≠ [] := by
    intro hnil
    rw [hnil] at hperm
    exact hd (List.map_eq_nil_iff.mp (List.nil_perm.mp hperm))
  rw [JsonTree.dumps, JsonTree.sortKeys_dict, hprint _ hsorted, width_printFields, (hperm.map _).sum_eq, List.map_map]
  rfl

theorem width_nil_le (floatText : F → List Char) (items : List (JsonValue F)) :
    width ((JsonTree.list ([] : List (JsonValue F))).dumps floatText) ≤
      width ((JsonTree.list items).dumps floatText) := by
  have hclosed : ∀ items : List (JsonValue F), 1 ≤ width (JsonTree.printItems floatText items) := by
    intro items
    cases items with
    | nil => exact le_rfl
    | cons v items =>
      have hcomma : ','.utf8Size = 1 := rfl
      rw [JsonTree.printItems, width_cons]
      omega
  cases items with
  | nil => exact le_rfl
  | cons v items =>
    have hempty : width ((JsonTree.list ([] : List (JsonValue F))).dumps floatText) = 2 := by
      rw [JsonTree.dumps, JsonTree.sortKeys_list, List.map_nil, JsonTree.print]
      rfl
    have hopen : '['.utf8Size = 1 := rfl
    have hrest := hclosed (items.map JsonTree.sortKeys)
    rw [hempty, JsonTree.dumps, JsonTree.sortKeys_list, List.map_cons, JsonTree.print, width_cons, width_append]
    omega

/-- A pack that quotes nothing is estimated to be no longer than one that does. -/
theorem tokensOf_nil_le (query : ExperienceQuery) (hashes : List PyText) (records : List (ExperienceRecord py)) :
    tokensOf query hashes ([] : List (ExperienceRecord py)) ≤ tokensOf query hashes records := by
  obtain ⟨n, hn, hfixed⟩ := @estimatePackTokens_isSome F py (envelope query hashes records).payloadWithoutEstimate
  rw [estimatePackTokens_envelope] at hn
  cases Option.some.inj hn
  have hnil := estimatePackTokens_envelope query hashes ([] : List (ExperienceRecord py))
  apply settle_le (tokensAt_mono _) hnil _ (Nat.zero_le _)
  refine le_trans ?_ hfixed.le
  obtain ⟨front, back, he⟩ := @payload_envelope F py query hashes
  have hlist := width_nil_le py.floatText (records.map quoted)
  have hfields : ∀ items : List (JsonValue F), withEstimate (front ++ (PyText.of "records", .list items) :: back)
      (tokensOf query hashes records) ≠ [] := by
    intro items
    rw [withEstimate]
    simp
  rw [tokensAt_eq_width, tokensAt_eq_width, he, he, List.map_nil]
  beta_reduce
  rw [width_append, width_append, width_dumps_dict py.floatText (hfields []),
    width_dumps_dict py.floatText (hfields (records.map quoted))]
  simp only [withEstimate, List.map_append, List.sum_append, List.map_cons, List.sum_cons]
  omega

/-! Catalogs whose eligible records say the same -/

section
variable {query : ExperienceQuery} {records records' : List (ExperienceRecord py)}

theorem emptyTokens_eq (query : ExperienceQuery) (h : List.Forall₂ SameContent records records') :
    emptyTokens query records = emptyTokens query records' := by
  rw [emptyTokens, emptyTokens, candidateHashes_eq h]

theorem retrieve_sameContent (hfree : CollisionFree records) (hfree' : CollisionFree records')
    (heligible : eligibleContents query records = eligibleContents query records') {pack : ExperienceContextPack py}
    (hpack : retrieve (.ofRecords records) query = .ok pack) :
    ∃ pack', retrieve (.ofRecords records') query = .ok pack' ∧ SamePack pack.value pack'.value := by
  have hsame := ExperienceCatalog.candidates_sameContent hfree hfree' heligible
  obtain ⟨hfits, he⟩ := retrieve_eq_ok.mp hpack
  rw [emptyTokens_eq query hsame] at hfits
  refine ⟨⟨_, selectedPack_passes (ExperienceCatalog.nodup_candidates _ query) hfits⟩,
    retrieve_eq_ok.mpr ⟨hfits, rfl⟩, ?_⟩
  rw [← he]
  exact samePack_selectedPack query hsame

/-- `ExperienceRetriever.replay`. -/
def replay (catalog : ExperienceCatalog py) (previous : ExperienceContextPack py) :
    Except RetrievalError (ExperienceContextPack py) := do
  let replayed ← retrieve catalog previous.value.query
  ensure (replayed.value.render = previous.value.render)
    (.experience ⟨"experience ContextPack replay does not match recorded bytes"⟩)
  pure replayed

/-- A pack is replayed from every catalog whose eligible records say the same. -/
theorem replay_retrieved (hfree : CollisionFree records) (hfree' : CollisionFree records')
    (heligible : eligibleContents query records = eligibleContents query records') {pack : ExperienceContextPack py}
    (hpack : retrieve (.ofRecords records) query = .ok pack) :
    ∃ pack', replay (.ofRecords records') pack = .ok pack' ∧ SamePack pack.value pack'.value := by
  obtain ⟨pack', hpack', hsame⟩ := retrieve_sameContent hfree hfree' heligible hpack
  obtain ⟨-, he⟩ := retrieve_eq_ok.mp hpack
  have hquery : pack.value.query = query := by
    rw [← he]
    rfl
  refine ⟨pack', ?_, hsame⟩
  rw [replay, hquery, hpack', ok_bind, ensure_of _ hsame.render.symm]
  rfl

end

/-- A pack is returned once the empty envelope fits. It quotes the eligible records in the order
of their ranks where the budgets hold, and is the same for catalogs whose eligible records say
the same. -/
theorem retrieve_spec (py : Python F) (query : ExperienceQuery) (records : List (ExperienceRecord py)) :
    let catalog := ExperienceCatalog.ofRecords records
    let candidates := catalog.candidates query
    ((∃ pack, retrieve catalog query = .ok pack) ↔ emptyTokens query candidates ≤ query.value.maxTokens) ∧
    (∀ pack, retrieve catalog query = .ok pack → Quotes query candidates pack.value) ∧
    (∀ candidate ∈ candidates, candidate ∈ records ∧ Eligible candidate query) ∧
    (candidates.Pairwise fun a b => rankKey a < rankKey b) ∧
    (CollisionFree records → contents candidates = eligibleContents query records ∧
      ∀ records', CollisionFree records' → eligibleContents query records = eligibleContents query records' →
        (∀ error, retrieve catalog query = .error error → retrieve (.ofRecords records') query = .error error) ∧
        ∀ pack, retrieve catalog query = .ok pack →
          ∃ pack', retrieve (.ofRecords records') query = .ok pack' ∧ SamePack pack.value pack'.value) := by
  intro catalog candidates
  refine ⟨?_, ?_, ?_, catalog.candidates_ascend query, ?_⟩
  · constructor
    · rintro ⟨pack, hpack⟩
      exact (retrieve_eq_ok.mp hpack).1
    · intro hfits
      exact ⟨⟨_, selectedPack_passes (catalog.nodup_candidates query) hfits⟩, retrieve_eq_ok.mpr ⟨hfits, rfl⟩⟩
  · intro pack hpack
    obtain ⟨hfits, he⟩ := retrieve_eq_ok.mp hpack
    exact he ▸ quotes_selectedPack hfits
  · intro candidate hcandidate
    obtain ⟨hrecord, heligible⟩ := (ExperienceCatalog.mem_candidates _).mp hcandidate
    exact ⟨ExperienceCatalog.mem_of_mem_ofRecords hrecord, heligible⟩
  · intro hfree
    refine ⟨ExperienceCatalog.contents_candidates hfree query, fun records' hfree' heligible => ⟨?_, ?_⟩⟩
    · intro error herror
      have hempty := emptyTokens_eq query (ExperienceCatalog.candidates_sameContent hfree hfree' heligible)
      rw [retrieve_eq_error] at herror ⊢
      rwa [← hempty]
    · intro pack hpack
      exact retrieve_sameContent hfree hfree' heligible hpack

/-! The order of a record's own collections -/

section
variable {query : ExperienceQuery} {a b : ExperienceRecord py}

/-- Of two records under one digest the first is kept. -/
theorem records_pair (h : a.value.contentSha256 = b.value.contentSha256) :
    (ExperienceCatalog.ofRecords [a, b]).records = [a] := by
  have hkept : (ExperienceCatalog.ofRecords [a, b]).byDigest = [(a.value.contentSha256, a)] := by
    simp [ExperienceCatalog.ofRecords, firstOf, setDefault, h]
  rw [ExperienceCatalog.records, hkept]
  simp [sorted]

theorem retrieve_pair (h : a.value.contentSha256 = b.value.contentSha256) (heligible : Eligible a query)
    (hfits : tokensOf query (candidateHashes [a]) [a] ≤ query.value.maxTokens) :
    ∃ pack, retrieve (.ofRecords [a, b]) query = .ok pack ∧ pack.value.records = [a] := by
  have hcandidates : (ExperienceCatalog.ofRecords [a, b]).candidates query = [a] := by
    simp [ExperienceCatalog.candidates, records_pair h, heligible]
  have hempty : emptyTokens query [a] ≤ query.value.maxTokens := by
    have hle := tokensOf_nil_le query (candidateHashes [a]) [a]
    rw [emptyTokens]
    omega
  have hpassed := query.passed
  simp only [QueryFields.postInit, seq_eq_ok, ensure_eq_ok] at hpassed
  obtain ⟨-, -, -, -, -, -, ⟨hitems, -⟩, -⟩ := hpassed
  have hroom : isFull query ([] : List (ExperienceRecord py)) = false := by
    rw [isFull, decide_eq_false_iff_not, List.length_nil]
    omega
  have htrial : fits query (candidateHashes [a]) [a] = true := decide_eq_true hfits
  have hselect : select query [a] = [a] := by
    rw [select, takeFitting, hroom, List.nil_append, htrial]
    rfl
  refine ⟨⟨selectedPack query [a], selectedPack_passes (List.nodup_singleton _) hempty⟩, retrieve_eq_ok.mpr ?_, hselect⟩
  rw [hcandidates]
  exact ⟨hempty, rfl⟩

end

def sampleExperience : ExperienceRecord samplePython := samplePack.records.head (List.cons_ne_nil _ _)

theorem tokensOf_sample : tokensOf samplePack.query (candidateHashes [sampleExperience]) [sampleExperience] = 410 :=
  Option.some.inj ((estimatePackTokens_envelope _ _ _).symm.trans samplePack_estimate)

theorem sample_sameContent : SameContent (ExperienceRecord.inOrder sampleExperience) sampleExperience :=
  congrArg (fun d => canonicalJson samplePython (.dict d)) sampleExperience.value.payload_inOrder

theorem sample_eligible : Eligible sampleExperience samplePack.query := by
  refine ⟨.head _, le_rfl, rfl, ?_, rfl, .head _, .head _⟩
  intro node hnode
  cases hnode

/-- Records that say the same cannot collide. -/
theorem collisionFree_of_sameContent {records : List (ExperienceRecord samplePython)}
    (h : ∀ record ∈ records, SameContent record sampleExperience) : CollisionFree records := by
  rintro _ ⟨a, ha, rfl⟩ _ ⟨b, hb, rfl⟩ -
  exact (h a ha).trans (h b hb).symm

/-- A record and the same record with its spans in order, delivered either way: one of them is
quoted, and the packs agree. -/
theorem retrieve_spec_sample : ∃ pack pack',
    retrieve (.ofRecords [sampleExperience, ExperienceRecord.inOrder sampleExperience]) samplePack.query = .ok pack ∧
      pack.value.records = [sampleExperience] ∧
      Quotes samplePack.query ((ExperienceCatalog.ofRecords
        [sampleExperience, ExperienceRecord.inOrder sampleExperience]).candidates samplePack.query) pack.value ∧
      retrieve (.ofRecords [ExperienceRecord.inOrder sampleExperience, sampleExperience]) samplePack.query = .ok pack' ∧
      SamePack pack.value pack'.value := by
  obtain ⟨pack, hpack, hrecords⟩ :=
    retrieve_pair sample_sameContent.contentSha256_eq.symm sample_eligible (tokensOf_sample ▸ by decide)
  obtain ⟨-, hquotes, -, -, hsame⟩ :=
    retrieve_spec samplePython samplePack.query [sampleExperience, ExperienceRecord.inOrder sampleExperience]
  have hfree : CollisionFree [sampleExperience, ExperienceRecord.inOrder sampleExperience] :=
    collisionFree_of_sameContent (by simpa [SameContent] using sample_sameContent)
  have hfree' : CollisionFree [ExperienceRecord.inOrder sampleExperience, sampleExperience] :=
    collisionFree_of_sameContent (by simpa [SameContent] using sample_sameContent)
  have heligible : eligibleContents samplePack.query [sampleExperience, ExperienceRecord.inOrder sampleExperience] =
      eligibleContents samplePack.query [ExperienceRecord.inOrder sampleExperience, sampleExperience] := by
    have hperm := List.Perm.swap (ExperienceRecord.inOrder sampleExperience) sampleExperience []
    simp only [eligibleContents, hperm.mem_iff]
  obtain ⟨-, hpacks⟩ := (hsame hfree).2 _ hfree' heligible
  obtain ⟨pack', hpack', hagree⟩ := hpacks pack hpack
  exact ⟨pack, pack', hpack, hrecords, hquotes pack hpack, hpack', hagree⟩

/-- A record and the same record with its spans in order: the pack quotes the one that came first. -/
theorem retrieve_keeps_first :
    [sampleExperience, ExperienceRecord.inOrder sampleExperience].Perm
        [ExperienceRecord.inOrder sampleExperience, sampleExperience] ∧
      retrieve (.ofRecords [sampleExperience, ExperienceRecord.inOrder sampleExperience]) samplePack.query ≠
        retrieve (.ofRecords [ExperienceRecord.inOrder sampleExperience, sampleExperience]) samplePack.query := by
  refine ⟨.swap _ _ _, fun heq => ?_⟩
  have htokens : tokensOf samplePack.query (candidateHashes [ExperienceRecord.inOrder sampleExperience])
      [ExperienceRecord.inOrder sampleExperience] = 410 := by
    have hpair : List.Forall₂ SameContent [ExperienceRecord.inOrder sampleExperience] [sampleExperience] :=
      .cons sample_sameContent .nil
    rw [candidateHashes_eq hpair, tokensOf_eq _ _ hpair, tokensOf_sample]
  obtain ⟨pack, hpack, hrecords⟩ :=
    retrieve_pair sample_sameContent.contentSha256_eq.symm sample_eligible (tokensOf_sample ▸ by decide)
  obtain ⟨pack', hpack', hrecords'⟩ := retrieve_pair sample_sameContent.contentSha256_eq
    ((sample_sameContent.eligible_iff _).mpr sample_eligible) (htokens ▸ by decide)
  rw [hpack, hpack'] at heq
  have hfirst : [sampleExperience] = [ExperienceRecord.inOrder sampleExperience] := by
    rw [← hrecords, Except.ok.inj heq, hrecords']
  have hspans := congrArg (fun record => record.value.source.value.spanIds) (List.cons_eq_cons.mp hfirst).1
  exact absurd hspans (by decide +kernel)

end Autolean.Builder.Experience
