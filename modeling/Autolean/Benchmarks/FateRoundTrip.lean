import Autolean.Benchmarks.FateManifest
import Autolean.Text.Lines
import Mathlib.Data.Finset.Dedup
import Mathlib.Data.Finset.Card

/-! A FATE manifest is read back from its JSON with its tasks in the order of their
identifiers, and the JSON says everything the manifest pins. -/
namespace Autolean.Benchmarks.Fate
open Text Machine Machine.Raising
variable {F : Type}

/-! Reading what was written -/

@[simp] theorem rawText_str (s : PyText) (e : FateError) : rawText (some (.str s : JsonValue F)) e = .ok s := rfl
@[simp] theorem rawInteger_int (n : Int) (e : FateError) : rawInteger (some (.int n : JsonValue F)) e = .ok n := rfl
@[simp] theorem rawDict_dict (d : JsonDict F) (e : FateError) : rawDict (some (.dict d)) e = .ok d := rfl
@[simp] theorem rawList_list (items : List (JsonValue F)) (e : FateError) : rawList (some (.list items)) e = .ok items := rfl

theorem SlotFields.toDict_keys (s : SlotFields) : (s.toDict : JsonDict F).keys.Nodup := by
  rw [toDict, JsonDict.keys_of]
  exact List.Nodup.map PyText.of_injective (by simp)

theorem TargetFields.toDict_keys (t : TargetFields) : (t.toDict : JsonDict F).keys.Nodup := by
  rw [toDict, JsonDict.keys_of]
  exact List.Nodup.map PyText.of_injective (by simp)

theorem TaskFields.toDict_keys (t : TaskFields) : (t.toDict : JsonDict F).keys.Nodup := by
  rw [toDict, JsonDict.keys_of]
  exact List.Nodup.map PyText.of_injective (by simp)

theorem ManifestFields.toDict_keys (m : ManifestFields) : (m.toDict : JsonDict F).keys.Nodup := by
  rw [toDict, JsonDict.keys_of]
  exact List.Nodup.map PyText.of_injective (by simp)

theorem slotFromDict_toDict (s : FateProofSlotV1) :
    slotFromDict (some (.dict (s.value.toDict : JsonDict F).sortKeys)) = .ok s := by
  have hmode : s.value.mode = .of "tactic" ∨ s.value.mode = .of "term" := by
    have h := s.passed
    simp only [SlotFields.postInit, seq_eq_ok, ensure_eq_ok] at h
    exact h.2.2.2.2.2.1
  simp only [slotFromDict, rawDict_dict, ok_bind, JsonDict.get_sortKeys s.value.toDict_keys]
  simp only [SlotFields.toDict, List.forall_mem_cons, List.not_mem_nil, false_imp_iff, implies_true, JsonDict.get_of_cons,
    String.reduceEq, if_true, if_false, Option.map_some, Option.isSome_some, and_true, ensure_true, ok_bind,
    JsonTree.sortKeys_str, JsonTree.sortKeys_int, rawText_str, rawInteger_int]
  rw [ensure_of _ hmode, ok_bind]
  exact Checked.make_of s.passed

theorem targetFromDict_toDict (t : FateTargetV1) :
    targetFromDict (some (.dict (t.value.toDict : JsonDict F).sortKeys)) = .ok t := by
  simp only [targetFromDict, rawDict_dict, ok_bind, JsonDict.get_sortKeys t.value.toDict_keys]
  simp only [TargetFields.toDict, JsonDict.get_of_cons, String.reduceEq, if_true, if_false, Option.map_some, ok_bind,
    JsonTree.sortKeys_str, JsonTree.sortKeys_int, rawText_str, rawInteger_int]
  exact Checked.make_of t.passed

theorem Tier.mem_fateTiers (tier : Tier) : tier ∈ fateTiers := by
  cases tier <;> decide

theorem taskFromDict_toDict (t : FateFixtureTaskV1) :
    taskFromDict (JsonTree.dict (t.value.toDict : JsonDict F)).sortKeys = .ok t := by
  have hsplit : ∃ tier ∈ fateTiers, t.value.split = tier.text := by
    obtain ⟨problem, -, h⟩ := bind_eq_ok.mp t.passed
    obtain ⟨htier, -⟩ := ensure_bind_eq_ok.mp h
    exact ⟨problem.tier, problem.tier.mem_fateTiers, htier.symm⟩
  rw [JsonTree.sortKeys_dict]
  simp only [taskFromDict, rawDict_dict, ok_bind, JsonDict.get_sortKeys t.value.toDict_keys]
  simp only [TaskFields.toDict, JsonDict.get_of_cons, String.reduceEq, if_true, if_false, Option.map_some, ok_bind,
    JsonTree.sortKeys_str, JsonTree.sortKeys_dict, rawText_str, slotFromDict_toDict, targetFromDict_toDict]
  rw [ensure_of _ hsplit, ok_bind]
  exact Checked.make_of t.passed

/-! Mappings of the three tiers -/

namespace TierMapping

/-- The mapping in the order the tiers are declared in. -/
def inOrder (m : TierMapping) : TierMapping := fateTiers.map fun tier => (tier, (m.lookup tier).getD [])

theorem text_injective : Function.Injective Tier.text := by
  intro a b h
  have hletter := PyText.of_injective h
  cases a <;> cases b <;> first | rfl | exact absurd hletter (by decide)

theorem fateTiers_nodup : fateTiers.Nodup := by decide

theorem keys_nodup {m : TierMapping} (h : m.keys.Perm fateTiers) : m.keys.Nodup := h.nodup_iff.mpr fateTiers_nodup

theorem inOrder_perm {m : TierMapping} (h : m.keys.Perm fateTiers) : m.inOrder.Perm m := by
  have hnodup : m.keys.Nodup := keys_nodup h
  have hperm := h.symm.map fun tier => (tier, (m.lookup tier).getD [])
  exact hperm.trans (List.Perm.of_eq (Keyed.map_lookup hnodup []))

/-- The items as fields of a dict. -/
def fields (m : TierMapping) : JsonDict F := m.map fun item => (item.1.text, JsonTree.str item.2)

theorem keys_fields (m : TierMapping) : (m.fields : JsonDict F).keys = m.keys.map Tier.text := by
  simp only [JsonDict.keys, fields, keys, List.map_map]
  rfl

theorem lookup_fields (m : TierMapping) (tier : Tier) :
    (m.fields : JsonDict F).lookup tier.text = (m.lookup tier).map JsonTree.str := by
  induction m with
  | nil => rfl
  | cons item m ih =>
    rw [fields, List.map_cons, Keyed.lookup_cons, Keyed.lookup_cons, ← fields, ih]
    simp only [text_injective.eq_iff]
    split_ifs <;> rfl

theorem toDict_perm (m : TierMapping) : (m.toDict : JsonDict F).Perm m.fields := List.perm_insertionSort _ _

theorem sortKeys_toDict_perm (m : TierMapping) : ((m.toDict : JsonDict F).sortKeys).Perm m.fields := by
  have hstr : ∀ f ∈ (m.toDict : JsonDict F), (f.1, f.2.sortKeys) = f := by
    intro f hf
    obtain ⟨item, -, rfl⟩ := List.mem_map.mp ((toDict_perm m).mem_iff.mp hf)
    rfl
  have hperm := JsonDict.sortKeys_perm (m.toDict : JsonDict F)
  rw [List.map_congr_left hstr, List.map_id'] at hperm
  exact hperm.trans (toDict_perm m)

theorem toDict_eq_of_perm {m n : TierMapping} (h : m.Perm n) (hkeys : m.keys.Nodup) : (m.toDict : JsonDict F) = n.toDict := by
  refine Keyed.insertionSort_perm Prod.fst (h.map _) ?_
  have hnodup := hkeys.map text_injective
  rwa [← keys_fields (F := F)] at hnodup

end TierMapping

theorem mappingFromDict_toDict {raw : JsonDict F} {name : String} {m : TierMapping} (hkeys : m.keys.Perm fateTiers)
    (hget : raw.get name = some (.dict (m.toDict : JsonDict F).sortKeys)) : mappingFromDict raw name = .ok m.inOrder := by
  have hperm := m.sortKeys_toDict_perm (F := F)
  have hnodup : (m.toDict : JsonDict F).sortKeys.keys.Nodup := by
    rw [JsonDict.keys, (hperm.map Prod.fst).nodup_iff]
    have hfields := (hkeys.nodup_iff.mpr TierMapping.fateTiers_nodup).map TierMapping.text_injective
    rwa [← TierMapping.keys_fields (F := F)] at hfields
  have hhas : HasKeys (m.toDict : JsonDict F).sortKeys (fateTiers.map Tier.text) := by
    have hsame : (m.toDict : JsonDict F).sortKeys.keys.Perm (fateTiers.map Tier.text) := by
      have hmap := hperm.map Prod.fst
      exact hmap.trans (by rw [← JsonDict.keys, TierMapping.keys_fields]; exact hkeys.map _)
    exact ⟨fun k hk => hsame.mem_iff.mp hk, fun k hk => hsame.mem_iff.mpr hk⟩
  have hlookup : ∀ tier, (m.toDict : JsonDict F).sortKeys.lookup tier.text = some (.str ((m.lookup tier).getD [])) := by
    intro tier
    have hmem : tier ∈ m.keys := hkeys.mem_iff.mpr tier.mem_fateTiers
    obtain ⟨v, hv⟩ := Keyed.lookup_of_mem hmem
    rw [Keyed.lookup_perm hperm hnodup, TierMapping.lookup_fields, hv]
    rfl
  rw [mappingFromDict, hget, rawDict_dict, ok_bind, ensure_of _ hhas, ok_bind]
  exact mapM_of fun tier _ => by rw [hlookup, rawText_str]; rfl

/-! The manifest -/

namespace ManifestFields

def inOrder (m : ManifestFields) : ManifestFields :=
  { m with
    submodules := m.submodules.inOrder
    lakeManifestSha256 := m.lakeManifestSha256.inOrder
    metadataJsonSha256 := m.metadataJsonSha256.inOrder
    tasks := m.sortedTasks }

theorem sortedTasks_perm (m : ManifestFields) : m.sortedTasks.Perm m.tasks := List.perm_insertionSort _ _

/-- What a manifest is checked for. -/
structure Valid (m : ManifestFields) : Prop where
  rootCommit : IsHex 40 m.rootCommit
  toolchain : m.toolchain = .of "v4.28.0" ∨ m.toolchain = .of "leanprover/lean4:v4.28.0"
  mathlibCommit : IsHex 40 m.mathlibCommit
  submodules : m.submodules.keys.Perm fateTiers
  metadataJsonSha256 : m.metadataJsonSha256.keys.Perm fateTiers
  lakeManifestSha256 : m.lakeManifestSha256.keys.Perm fateTiers
  submoduleHashes : ∀ item ∈ m.submodules, IsHex 40 item.2
  metadataHashes : ∀ item ∈ m.metadataJsonSha256, IsHex 64 item.2
  lakeHashes : ∀ item ∈ m.lakeManifestSha256, IsHex 64 item.2
  schemaVersion : m.schemaVersion = .of "FateFixtureManifestV1"
  benchmark : m.benchmark = .of "FATE"
  release : m.release = .of "v4.28.0"
  known : ∀ id ∈ m.ids, id ∈ expectedIds
  complete : ∀ id ∈ expectedIds, id ∈ m.ids
  size : m.tasks.length = expectedIds.dedup.length

theorem checkHashes_eq_ok {m : TierMapping} {name : String} {length : Nat} :
    checkHashes m name length = .ok () ↔ ∀ item ∈ m, IsHex length item.2 := by
  simp only [checkHashes, forM_eq_ok, ensure_eq_ok]

theorem postInit_eq_ok {m : ManifestFields} : m.postInit = .ok () ↔ m.Valid := by
  simp only [postInit, LockFields.postInit, seq_eq_ok, ensure_eq_ok, checkHashes_eq_ok]
  constructor
  · rintro ⟨⟨hroot, htoolchain, hmathlib, hsub, ⟨hmeta, hlake⟩, hsubs, hmetas, hlakes⟩, ⟨hschema, hname⟩, hrelease,
      ⟨hknown, hall⟩, hsize⟩
    exact ⟨hroot, htoolchain, hmathlib, hsub, hmeta, hlake, hsubs, hmetas, hlakes, hschema, hname, hrelease, hknown, hall, hsize⟩
  · intro h
    exact ⟨⟨h.rootCommit, h.toolchain, h.mathlibCommit, h.submodules, ⟨h.metadataJsonSha256, h.lakeManifestSha256⟩,
      h.submoduleHashes, h.metadataHashes, h.lakeHashes⟩, ⟨h.schemaVersion, h.benchmark⟩, h.release,
        ⟨h.known, h.complete⟩, h.size⟩

/-- A valid manifest holds each task once. -/
theorem Valid.ids_nodup {m : ManifestFields} (h : m.Valid) : m.ids.Nodup := by
  have hsame : m.ids.toFinset = expectedIds.toFinset := by
    ext id
    rw [List.mem_toFinset, List.mem_toFinset]
    exact ⟨h.known id, h.complete id⟩
  have hcard : m.ids.dedup.length = m.ids.length := by
    rw [← List.card_toFinset, hsame, List.card_toFinset, ← h.size, ids, List.length_map]
  rw [← List.dedup_eq_self]
  exact (List.dedup_sublist _).eq_of_length hcard

end ManifestFields

/-- The manifests pin the same, in any order. -/
structure SamePins (m n : ManifestFields) : Prop where
  schemaVersion : m.schemaVersion = n.schemaVersion
  benchmark : m.benchmark = n.benchmark
  release : m.release = n.release
  rootCommit : m.rootCommit = n.rootCommit
  toolchain : m.toolchain = n.toolchain
  mathlibCommit : m.mathlibCommit = n.mathlibCommit
  submodules : m.submodules.Perm n.submodules
  lakeManifestSha256 : m.lakeManifestSha256.Perm n.lakeManifestSha256
  metadataJsonSha256 : m.metadataJsonSha256.Perm n.metadataJsonSha256
  tasks : m.tasks.Perm n.tasks

namespace SamePins
variable {m n k : ManifestFields}

theorem ids (h : SamePins m n) : m.ids.Perm n.ids := h.tasks.map _

theorem symm (h : SamePins m n) : SamePins n m :=
  ⟨h.schemaVersion.symm, h.benchmark.symm, h.release.symm, h.rootCommit.symm, h.toolchain.symm, h.mathlibCommit.symm,
    h.submodules.symm, h.lakeManifestSha256.symm, h.metadataJsonSha256.symm, h.tasks.symm⟩

theorem trans (h : SamePins m n) (h' : SamePins n k) : SamePins m k :=
  ⟨h.schemaVersion.trans h'.schemaVersion, h.benchmark.trans h'.benchmark, h.release.trans h'.release,
    h.rootCommit.trans h'.rootCommit, h.toolchain.trans h'.toolchain, h.mathlibCommit.trans h'.mathlibCommit,
    h.submodules.trans h'.submodules, h.lakeManifestSha256.trans h'.lakeManifestSha256,
    h.metadataJsonSha256.trans h'.metadataJsonSha256, h.tasks.trans h'.tasks⟩

/-- The order of the tasks and of the mappings is nothing a manifest checks. -/
theorem valid (h : SamePins m n) (hm : m.Valid) : n.Valid where
  rootCommit := by
    rw [← h.rootCommit]
    exact hm.rootCommit
  toolchain := by
    rw [← h.toolchain]
    exact hm.toolchain
  mathlibCommit := by
    rw [← h.mathlibCommit]
    exact hm.mathlibCommit
  submodules := (h.submodules.map Prod.fst).symm.trans hm.submodules
  metadataJsonSha256 := (h.metadataJsonSha256.map Prod.fst).symm.trans hm.metadataJsonSha256
  lakeManifestSha256 := (h.lakeManifestSha256.map Prod.fst).symm.trans hm.lakeManifestSha256
  submoduleHashes item hitem := hm.submoduleHashes item (h.submodules.mem_iff.mpr hitem)
  metadataHashes item hitem := hm.metadataHashes item (h.metadataJsonSha256.mem_iff.mpr hitem)
  lakeHashes item hitem := hm.lakeHashes item (h.lakeManifestSha256.mem_iff.mpr hitem)
  schemaVersion := h.schemaVersion.symm.trans hm.schemaVersion
  benchmark := h.benchmark.symm.trans hm.benchmark
  release := h.release.symm.trans hm.release
  known id hid := hm.known id (h.ids.mem_iff.mpr hid)
  complete id hid := h.ids.mem_iff.mp (hm.complete id hid)
  size := h.tasks.length_eq.symm.trans hm.size

theorem toDict_eq (h : SamePins m n) (hm : m.Valid) : (m.toDict : JsonDict F) = n.toDict := by
  have htasks : m.sortedTasks = n.sortedTasks :=
    Keyed.insertionSort_perm (fun task : FateFixtureTaskV1 => task.value.taskId) h.tasks hm.ids_nodup
  simp only [ManifestFields.toDict, h.schemaVersion, h.benchmark, h.release, h.rootCommit, h.toolchain, h.mathlibCommit, htasks,
    TierMapping.toDict_eq_of_perm h.submodules (TierMapping.keys_nodup hm.submodules),
    TierMapping.toDict_eq_of_perm h.lakeManifestSha256 (TierMapping.keys_nodup hm.lakeManifestSha256),
    TierMapping.toDict_eq_of_perm h.metadataJsonSha256 (TierMapping.keys_nodup hm.metadataJsonSha256)]

variable (py : Python F)

theorem toJson_eq (h : SamePins m n) (hm : m.Valid) : m.toJson py = n.toJson py := by
  rw [ManifestFields.toJson, h.toDict_eq hm, ManifestFields.toJson]

theorem contentHash_eq (h : SamePins m n) (hm : m.Valid) : m.contentHash py = n.contentHash py := by
  rw [ManifestFields.contentHash, h.toJson_eq py hm, ManifestFields.contentHash]

/-- One task answers to each identifier, whatever the order. -/
theorem task_eq (h : SamePins m n) (hm : m.Valid) (id : PyText) : m.task id = n.task id := by
  have hfind : ∀ name : PyText, (m.tasks.find? fun task => task.value.taskId = name) =
      n.tasks.find? fun task => task.value.taskId = name := by
    intro name
    exact Keyed.find?_perm (fun task : FateFixtureTaskV1 => task.value.taskId) h.tasks hm.ids_nodup name
  simp only [ManifestFields.task, hfind]

end SamePins

theorem ManifestFields.Valid.samePins_inOrder {m : ManifestFields} (h : m.Valid) : SamePins m.inOrder m :=
  ⟨rfl, rfl, rfl, rfl, rfl, rfl, TierMapping.inOrder_perm h.submodules, TierMapping.inOrder_perm h.lakeManifestSha256,
    TierMapping.inOrder_perm h.metadataJsonSha256, sortedTasks_perm m⟩

namespace FateFixtureManifestV1

theorem valid (m : FateFixtureManifestV1) : m.value.Valid := ManifestFields.postInit_eq_ok.mp m.passed

/-- The manifest with its mappings and tasks in order. -/
def inOrder (m : FateFixtureManifestV1) : FateFixtureManifestV1 :=
  ⟨m.value.inOrder, ManifestFields.postInit_eq_ok.mpr (m.valid.samePins_inOrder.symm.valid m.valid)⟩

end FateFixtureManifestV1

theorem fromDict_toDict (m : FateFixtureManifestV1) :
    fromDict (JsonTree.dict (m.value.toDict : JsonDict F)).sortKeys = .ok (FateFixtureManifestV1.inOrder m) := by
  have hkeys := m.value.toDict_keys (F := F)
  have hhas : HasKeys (m.value.toDict : JsonDict F).sortKeys (["schema_version", "benchmark", "release", "root_commit",
      "submodules", "toolchain", "mathlib_commit", "lake_manifest_sha256", "metadata_json_sha256", "tasks"].map PyText.of) := by
    have hperm := JsonDict.keys_sortKeys_perm (m.value.toDict : JsonDict F)
    rw [ManifestFields.toDict, JsonDict.keys_of] at hperm
    exact ⟨fun k hk => hperm.mem_iff.mp hk, fun k hk => hperm.mem_iff.mpr hk⟩
  have htasks : ((m.value.sortedTasks.map fun task => JsonTree.dict (task.value.toDict : JsonDict F)).map
      JsonTree.sortKeys).mapM taskFromDict = .ok m.value.sortedTasks := by
    rw [List.mapM_map, List.mapM_map]
    exact (mapM_of fun task _ => taskFromDict_toDict task).trans (congrArg _ (List.map_id _))
  have hmapping : ∀ (name : String) {mapping : TierMapping}, mapping.keys.Perm fateTiers →
      (m.value.toDict : JsonDict F).get name = some (.dict mapping.toDict) →
      mappingFromDict (m.value.toDict : JsonDict F).sortKeys name = .ok mapping.inOrder := by
    intro name mapping hperm hname
    refine mappingFromDict_toDict hperm ?_
    rw [JsonDict.get_sortKeys hkeys, hname, Option.map_some, JsonTree.sortKeys_dict]
  have hsubmodules := hmapping "submodules" m.valid.submodules (by simp [ManifestFields.toDict])
  have hlake := hmapping "lake_manifest_sha256" m.valid.lakeManifestSha256 (by simp [ManifestFields.toDict])
  have hmetadata := hmapping "metadata_json_sha256" m.valid.metadataJsonSha256 (by simp [ManifestFields.toDict])
  rw [JsonTree.sortKeys_dict]
  simp only [fromDict, rawDict_dict, ok_bind]
  rw [ensure_of _ hhas, ok_bind]
  simp only [hsubmodules, hlake, hmetadata, JsonDict.get_sortKeys hkeys]
  simp only [ManifestFields.toDict, JsonDict.get_of_cons, String.reduceEq, if_true, if_false, Option.map_some, ok_bind,
    JsonTree.sortKeys_str, JsonTree.sortKeys_list, rawText_str, rawList_list, htasks]
  exact Checked.make_of (FateFixtureManifestV1.inOrder m).passed

/-! Every text of a manifest is made of scalars -/

theorem isScalar_append {s t : PyText} (hs : s.IsScalar) (ht : t.IsScalar) : PyText.IsScalar (s ++ t) := by
  intro c hc
  rcases List.mem_append.mp hc with hc | hc
  · exact hs c hc
  · exact ht c hc

theorem isScalar_ofChars (cs : List Char) : (PyText.ofChars cs).IsScalar :=
  List.forall_mem_map.mpr fun c _ => CodePoint.isScalar_ofChar c

theorem Tier.text_isScalar (tier : Tier) : tier.text.IsScalar := PyText.isScalar_of _

theorem isNumeral_isScalar {s : PyText} (h : isNumeral s = true) : s.IsScalar := by
  cases s with
  | nil => exact List.forall_mem_nil _
  | cons c rest =>
    obtain ⟨hc, hrest⟩ := Bool.and_eq_true_iff.mp h
    exact List.forall_mem_cons.mpr ⟨between_isScalar (by decide) hc, fun d hd =>
      isDigit_isScalar (List.all_eq_true.mp hrest d hd)⟩

theorem readTier_eq_some {text : PyText} {tier : Tier} (h : readTier text = some tier) : tier.text = text := by
  simpa using List.find?_some h

theorem taskId_isScalar {value : PyText} {problem : FateProblemId} (h : taskId value = .ok problem) : value.IsScalar := by
  unfold taskId at h
  split at h
  · rename_i tier htier
    split at h
    · rename_i hshape
      obtain ⟨hfate, hdash, hnumber⟩ := hshape
      have hparts : value = value.take 5 ++ ((value.drop 5).take 1 ++ ((value.drop 6).take 1 ++ value.drop 7)) := by
        rw [← List.drop_drop (i := 1) (j := 6), List.take_append_drop, ← List.drop_drop (i := 1) (j := 5),
          List.take_append_drop, List.take_append_drop]
      rw [hparts, hfate, hdash, ← readTier_eq_some htier]
      exact isScalar_append (PyText.isScalar_of _)
        (isScalar_append tier.text_isScalar (isScalar_append (PyText.isScalar_of _) (isNumeral_isScalar hnumber)))
    · cases h
  · cases h

theorem isNamePart_isScalar {c : CodePoint} (h : isNamePart c = true) : c.IsScalar := by
  simp only [isNamePart, isNameStart, Bool.or_eq_true, beq_iff_eq] at h
  rcases h with (((h | h) | rfl) | h) | rfl
  · exact between_isScalar (by decide) h
  · exact between_isScalar (by decide) h
  · exact CodePoint.isScalar_ofChar _
  · exact isDigit_isScalar h
  · exact CodePoint.isScalar_ofChar _

theorem isQualifiedName_isScalar {start : Bool} {s : PyText} (h : isQualifiedName start s = true) : s.IsScalar := by
  induction s generalizing start with
  | nil => exact List.forall_mem_nil _
  | cons c rest ih =>
    cases start with
    | true =>
      obtain ⟨hc, hrest⟩ := Bool.and_eq_true_iff.mp h
      exact List.forall_mem_cons.mpr ⟨isNamePart_isScalar (by simp [isNamePart, hc]), ih hrest⟩
    | false =>
      rw [isQualifiedName] at h
      split_ifs at h with hdot
      · rw [hdot]
        exact List.forall_mem_cons.mpr ⟨CodePoint.isScalar_ofChar _, ih h⟩
      · obtain ⟨hc, hrest⟩ := Bool.and_eq_true_iff.mp h
        exact List.forall_mem_cons.mpr ⟨isNamePart_isScalar hc, ih hrest⟩

theorem stripBlanks_isScalar {s : PyText} (h : stripBlanks s = []) : s.IsScalar := by
  have hrest := List.rdropWhile_eq_nil_iff.mp h
  have hnone : s.dropWhile isBlank = [] := by
    cases hdrop : s.dropWhile isBlank with
    | nil => rfl
    | cons c rest =>
      have hhead := List.head_dropWhile_not isBlank (l := s) (by simp [hdrop])
      simp only [hdrop, List.head_cons] at hhead
      exact absurd (hrest c (by simp [hdrop])) (by simp [hhead])
  intro c hc
  have hblank := List.dropWhile_eq_nil_iff.mp hnone c hc
  simp only [isBlank, Bool.or_eq_true, beq_iff_eq] at hblank
  rcases hblank with rfl | rfl
  · exact CodePoint.isScalar_ofChar _
  · exact CodePoint.isScalar_ofChar _

theorem SlotFields.toDict_plain {s : SlotFields} (h : s.postInit = .ok ()) :
    (.dict s.toDict : JsonValue F).Everywhere JsonTree.Plain := by
  simp only [postInit, requireSha256, seq_eq_ok, ensure_eq_ok] at h
  obtain ⟨htoken, -, hhash, hprefix, hsuffix, hmode, hindentation, -⟩ := h
  have hmodeText : s.mode.IsScalar := by
    rcases hmode with h | h
    all_goals
      rw [h]
      exact PyText.isScalar_of _
  have htokenText : s.originalToken.IsScalar := by
    rw [htoken]
    exact PyText.isScalar_of _
  refine JsonTree.everywhere_plain_of (by simp) ?_
  simp only [List.forall_mem_cons, List.not_mem_nil, false_imp_iff, implies_true, and_true]
  exact ⟨htokenText, trivial, trivial, hhash.isScalar, hprefix.isScalar, hsuffix.isScalar, hmodeText,
    stripBlanks_isScalar hindentation⟩

theorem TargetFields.toDict_plain {t : TargetFields} (h : t.postInit = .ok ()) :
    (.dict t.toDict : JsonValue F).Everywhere JsonTree.Plain := by
  simp only [postInit, requireSha256, seq_eq_ok, ensure_eq_ok] at h
  obtain ⟨hname, -, hhash⟩ := h
  refine JsonTree.everywhere_plain_of (by simp) ?_
  simp only [List.forall_mem_cons, List.not_mem_nil, false_imp_iff, implies_true, and_true]
  exact ⟨isQualifiedName_isScalar hname, trivial, hhash.isScalar⟩

theorem fatePath_isScalar {tier number : PyText} (ht : tier.IsScalar) (hn : number.IsScalar) : (fatePath tier number).IsScalar :=
  isScalar_append (isScalar_append (isScalar_append (isScalar_append (isScalar_append (isScalar_append (PyText.isScalar_of _) ht)
    (PyText.isScalar_of _)) ht) (PyText.isScalar_of _)) hn) (PyText.isScalar_of _)

theorem TaskFields.toDict_plain {t : TaskFields} (h : t.postInit = .ok ()) :
    (.dict t.toDict : JsonValue F).Everywhere JsonTree.Plain := by
  obtain ⟨problem, hid, h⟩ := bind_eq_ok.mp h
  simp only [requireSha256, seq_eq_ok, ensure_eq_ok] at h
  obtain ⟨hsplit, hpath, -, hhash⟩ := h
  have hsplitText : t.split.IsScalar := by
    rw [← hsplit]
    exact problem.tier.text_isScalar
  have hpathText : t.sourcePath.IsScalar := by
    rw [hpath]
    exact fatePath_isScalar hsplitText (isScalar_ofChars _)
  refine JsonTree.everywhere_plain_of (by simp) ?_
  simp only [List.forall_mem_cons, List.not_mem_nil, false_imp_iff, implies_true, and_true]
  exact ⟨taskId_isScalar hid, hsplitText, hpathText, hhash.isScalar, t.proofSlot.value.toDict_plain t.proofSlot.passed,
    t.target.value.toDict_plain t.target.passed⟩

theorem TierMapping.toDict_plain {m : TierMapping} {n : Nat} (hkeys : m.keys.Perm fateTiers) (h : ∀ item ∈ m, IsHex n item.2) :
    (.dict m.toDict : JsonValue F).Everywhere JsonTree.Plain := by
  have hperm := m.toDict_perm (F := F)
  have hnames : (m.toDict : JsonDict F).keys.Perm (m.keys.map Tier.text) := by
    have hfields := m.keys_fields (F := F)
    have hmap := hperm.map Prod.fst
    rw [JsonDict.keys] at hfields
    rwa [hfields] at hmap
  refine JsonTree.everywhere_dict.mpr ⟨⟨hnames.nodup_iff.mpr ((keys_nodup hkeys).map text_injective),
    fun k hk => ?_⟩, fun f hf => ?_⟩
  · obtain ⟨tier, -, rfl⟩ := List.mem_map.mp (hnames.mem_iff.mp hk)
    exact tier.text_isScalar
  · obtain ⟨item, hitem, rfl⟩ := List.mem_map.mp (hperm.mem_iff.mp hf)
    exact (h item hitem).isScalar

theorem ManifestFields.toDict_plain {m : ManifestFields} (h : m.Valid) :
    (.dict m.toDict : JsonValue F).Everywhere JsonTree.Plain := by
  have hof : ∀ {s : PyText} {text : String}, s = .of text → s.IsScalar := by
    rintro _ text rfl
    exact PyText.isScalar_of text
  have hversion : m.toolchain.IsScalar := h.toolchain.elim hof hof
  have htasks : (JsonTree.list (m.sortedTasks.map fun task =>
    .dict task.value.toDict) : JsonValue F).Everywhere JsonTree.Plain :=
    JsonTree.everywhere_list.mpr ⟨trivial, List.forall_mem_map.mpr fun task _ => task.value.toDict_plain task.passed⟩
  refine JsonTree.everywhere_plain_of (by simp) ?_
  simp only [List.forall_mem_cons, List.not_mem_nil, false_imp_iff, implies_true, and_true]
  exact ⟨hof h.schemaVersion, hof h.benchmark, hof h.release, h.rootCommit.isScalar,
    TierMapping.toDict_plain h.submodules h.submoduleHashes, hversion, h.mathlibCommit.isScalar,
    TierMapping.toDict_plain h.lakeManifestSha256 h.lakeHashes, TierMapping.toDict_plain h.metadataJsonSha256 h.metadataHashes,
    htasks⟩

theorem hooks_keeps (py : Python F) : (hooks py).Keeps := fun _ h => congrArg Except.ok (dictOf_of_nodup h)

/-! The JSON of a manifest -/

namespace FateFixtureManifestV1
variable (py : Python F)

theorem loads_toJson (m : FateFixtureManifestV1) :
    (hooks py).loads (m.value.toJson py) = .ok (JsonTree.dict m.value.toDict).sortKeys :=
  JsonHooks.loads_dumps (hooks_keeps py) py.floatText (ManifestFields.toDict_plain m.valid) (by simp)

/-- Manifests with the same JSON pin the same. -/
theorem samePins_of_toJson_eq {m n : FateFixtureManifestV1} (h : m.value.toJson py = n.value.toJson py) :
    SamePins m.value n.value := by
  have hvalue := (loads_toJson py m).symm.trans ((congrArg (hooks py).loads h).trans (loads_toJson py n))
  have horder : inOrder m = inOrder n := by
    have hdict := (fromDict_toDict (F := F) m).symm.trans ((congrArg fromDict (Except.ok.inj hvalue)).trans (fromDict_toDict n))
    exact Except.ok.inj hdict
  have hm := m.valid.samePins_inOrder
  have hn := n.valid.samePins_inOrder
  rw [show m.value.inOrder = n.value.inOrder from congrArg Checked.value horder] at hm
  exact hm.symm.trans hn

theorem samePins_of_contentHash_eq {m n : FateFixtureManifestV1}
    (hsha : Set.InjOn py.sha256 {(String.ofList (m.value.toJson py)).toUTF8, (String.ofList (n.value.toJson py)).toUTF8})
    (h : m.value.contentHash py = n.value.contentHash py) : SamePins m.value n.value := by
  have hbytes := hsha (Set.mem_insert _ _) (Set.mem_insert_of_mem _ rfl) h
  exact samePins_of_toJson_eq py (String.ofList_injective (String.toByteArray_inj.mp hbytes))

end FateFixtureManifestV1

/-- The JSON of a manifest is read back as the same pins under the same hash, the hash does not
depend on the order of the tasks, and it fixes everything the manifest pins. -/
theorem manifest_hash_pins (py : Python F) (m : FateFixtureManifestV1) :
    (∃ value n, (hooks py).loads (m.value.toJson py) = .ok value ∧ fromDict value = .ok n ∧
      n.value.contentHash py = m.value.contentHash py ∧ ∀ id, n.value.task id = m.value.task id) ∧
    (∀ tasks, tasks.Perm m.value.tasks → ∃ n, Checked.make ManifestFields.postInit { m.value with tasks } = .ok n ∧
      n.value.contentHash py = m.value.contentHash py) ∧
    ∀ raw n, fromDict (F := F) raw = .ok n →
      Set.InjOn py.sha256 {(String.ofList (n.value.toJson py)).toUTF8, (String.ofList (m.value.toJson py)).toUTF8} →
      n.value.contentHash py = m.value.contentHash py →
      SamePins n.value m.value ∧ ∀ id, n.value.task id = m.value.task id := by
  refine ⟨⟨_, FateFixtureManifestV1.inOrder m, FateFixtureManifestV1.loads_toJson py m, fromDict_toDict m, ?_⟩, ?_, ?_⟩
  · have hsame := m.valid.samePins_inOrder
    have hvalid := (FateFixtureManifestV1.inOrder m).valid
    exact ⟨hsame.contentHash_eq py hvalid, hsame.task_eq hvalid⟩
  · intro tasks hperm
    have hsame : SamePins { m.value with tasks } m.value :=
      ⟨rfl, rfl, rfl, rfl, rfl, rfl, .refl _, .refl _, .refl _, hperm⟩
    have hvalid := hsame.symm.valid m.valid
    exact ⟨_, Checked.make_of (ManifestFields.postInit_eq_ok.mpr hvalid), hsame.contentHash_eq py hvalid⟩
  · intro raw n _ hsha hhash
    have hsame := FateFixtureManifestV1.samePins_of_contentHash_eq py hsha hhash
    exact ⟨hsame, hsame.task_eq n.valid⟩

/-! Identifiers and paths of the suite -/

theorem ofChar_digit {c : Char} (h : c.isDigit = true) : isDigit (.ofChar c) = true := by
  simp only [Char.isDigit, Bool.and_eq_true, decide_eq_true_eq, ge_iff_le] at h
  simp only [isDigit, between, Bool.and_eq_true, decide_eq_true_eq]
  exact h

theorem numeral_cons {n : Nat} (h : 0 < n) :
    ∃ d rest, numeral n = d :: rest ∧ between '1' '9' d = true ∧ ∀ c ∈ rest, isDigit c = true := by
  obtain ⟨d, digits, he, hd, hdigit, hdigits⟩ := toDigits_head h
  have hrest : ∀ c ∈ PyText.ofChars digits, isDigit c = true := List.forall_mem_map.mpr fun c hc => ofChar_digit (hdigits c hc)
  refine ⟨.ofChar d, PyText.ofChars digits, by rw [numeral, he]; rfl, ?_, hrest⟩
  have hzero := ofChar_digit hdigit
  simp only [isDigit, between, Bool.and_eq_true, decide_eq_true_eq] at hzero ⊢
  refine ⟨?_, hzero.2⟩
  have hlt : CodePoint.ofChar '0' < CodePoint.ofChar d :=
    lt_of_le_of_ne hzero.1 fun e => hd (CodePoint.ofChar_injective e.symm)
  exact Nat.succ_le_of_lt (Fin.lt_def.mp hlt)

theorem isNumeral_numeral {n : Nat} (h : 0 < n) : isNumeral (numeral n) = true := by
  obtain ⟨d, rest, he, hd, hrest⟩ := numeral_cons h
  rw [he, isNumeral, hd, List.all_eq_true.mpr hrest]
  rfl

theorem readNumeral_numeral (n : Nat) : readNumeral (numeral n) = n := by
  have hback : (fun c : CodePoint => Char.ofNat c.val) ∘ CodePoint.ofChar = id := funext fun c => Char.ofNat_toNat c
  rw [readNumeral, numeral, PyText.ofChars, List.map_map, hback, List.map_id, Nat.ofDigitChars_ten_toDigits]

theorem window_append {α : Type} {front : List α} (rest : List α) {i k : Nat} (h : i + k ≤ front.length) :
    ((front ++ rest).drop i).take k = (front.drop i).take k := by
  rw [List.drop_append_of_le_length (by omega), List.take_append_of_le_length]
  rw [List.length_drop]
  omega

/-- The identifier of a problem is read back. -/
theorem taskId_canonical {p : FateProblemId} (h : 1 ≤ p.number ∧ p.number ≤ p.tier.count) : Fate.taskId p.canonical = .ok p := by
  obtain ⟨tier, n⟩ := p
  obtain ⟨front, hfront, hlength, htier, hfirst, hdash⟩ : ∃ front : PyText,
    FateProblemId.canonical ⟨tier, n⟩ = front ++ numeral n ∧
      front.length = 7 ∧ readTier ((front.drop 5).take 1) = some tier ∧ (front.drop 0).take 5 = PyText.of "FATE-" ∧
        (front.drop 6).take 1 = PyText.of "-" :=
    ⟨PyText.of "FATE-" ++ tier.text ++ PyText.of "-", rfl, by cases tier <;> decide⟩
  have hfirst' := window_append (numeral n) (hlength ▸ (by omega) : 0 + 5 ≤ front.length)
  rw [List.drop_zero] at hfirst'
  rw [Fate.taskId, hfront, window_append _ (by omega), htier, hfirst', hfirst, window_append _ (by omega), hdash,
    List.drop_left' hlength]
  simp only [isNumeral_numeral h.1, readNumeral_numeral, and_self, if_true]
  rw [if_pos h]

/-- The source path of a problem is safe. -/
theorem safeSourcePath_fatePath (tier : Tier) {n : Nat} (h : 0 < n) :
    safeSourcePath (fatePath tier.text (numeral n)) = .ok () := by
  obtain ⟨front, hpath, hlength, hhead, hdots, hfirst, htier, hsecond, htier', hslash⟩ : ∃ front : PyText,
      fatePath tier.text (numeral n) = front ++ (numeral n ++ PyText.of ".lean") ∧ front.length = 13 ∧
        (front.head? ≠ some (.ofChar '/')) ∧ front.count (.ofChar '.') = 0 ∧ (front.drop 0).take 5 = PyText.of "FATE-" ∧
        readTier ((front.drop 5).take 1) = some tier ∧ (front.drop 6).take 5 = PyText.of "/FATE" ∧
        readTier ((front.drop 11).take 1) = some tier ∧ (front.drop 12).take 1 = PyText.of "/" :=
    ⟨PyText.of "FATE-" ++ tier.text ++ PyText.of "/FATE" ++ tier.text ++ PyText.of "/", List.append_assoc _ _ _,
      by cases tier <;> decide⟩
  have hsource : isSourcePath (fatePath tier.text (numeral n)) = true := by
    have hfirst' := window_append (numeral n ++ PyText.of ".lean") (hlength ▸ (by omega) : 0 + 5 ≤ front.length)
    rw [List.drop_zero] at hfirst'
    rw [isSourcePath, hpath, hfirst', hfirst, window_append _ (by omega), htier, window_append _ (by omega), hsecond,
      window_append _ (by omega), htier', window_append _ (by omega), hslash, List.drop_left' hlength]
    have hlean : (PyText.of ".lean").length = 5 := by decide
    have hend : (numeral n ++ PyText.of ".lean").length - 5 = (numeral n).length := by
      rw [List.length_append, hlean, Nat.add_sub_cancel]
    rw [List.rdrop, List.rtake, hend, List.take_left, List.drop_left, isNumeral_numeral h]
    simp only [Option.isSome_some, beq_self_eq_true, Bool.and_self]
  have hdigits : (numeral n).count (.ofChar '.') = 0 := by
    obtain ⟨d, rest, he, hd, hrest⟩ := numeral_cons h
    rw [he]
    apply List.count_eq_zero.mpr
    rintro hmem
    rcases List.mem_cons.mp hmem with rfl | hmem
    · exact absurd hd (by decide)
    · exact absurd (hrest _ hmem) (by decide)
  have hcount : (fatePath tier.text (numeral n)).count (.ofChar '.') = 1 := by
    rw [hpath, List.count_append, List.count_append, hdots, hdigits]
    decide
  have hsafe : (fatePath tier.text (numeral n)).head? ≠ some (.ofChar '/') ∧
      PyText.of "." ∉ pathParts (fatePath tier.text (numeral n)) ∧
        PyText.of ".." ∉ pathParts (fatePath tier.text (numeral n)) := by
    refine ⟨?_, ?_, ?_⟩
    · rw [hpath, List.head?_append_of_ne_nil _ (List.ne_nil_of_length_pos (by omega))]
      exact hhead
    · intro hmem
      exact absurd (List.mem_filter.mp hmem).2 (by decide)
    · intro hmem
      have hle := (sublist_of_mem_splitOn (List.mem_filter.mp hmem).1).count_le (.ofChar '.')
      rw [hcount] at hle
      exact absurd hle (by decide)
  rw [safeSourcePath, ensure_of _ hsource, ok_bind, ensure_of _ hsafe]

def fatePython : Python Unit where
  sha256 _ := repeated 64 '0'
  floatText _ := []
  readFloat _ := ()

def sampleTask (problem : FateProblemId) : TaskFields where
  taskId := problem.canonical
  split := problem.tier.text
  sourcePath := fatePath problem.tier.text (numeral problem.number)
  sourceSha256 := repeated 64 '0'
  proofSlot :=
    ⟨⟨.of "sorry", 40, 45, repeated 64 '0', repeated 64 '0', repeated 64 '0', .of "tactic", .of "  "⟩, by decide +kernel⟩
  target := ⟨⟨.of "Fate.main", 20, repeated 64 '0'⟩, by decide +kernel⟩

/-- The problems of the suite. -/
def problems : List FateProblemId := fateTiers.flatMap fun tier => (List.range' 1 tier.count).map fun number => ⟨tier, number⟩

theorem sampleTask_passes : ∀ problem ∈ problems, (sampleTask problem).postInit = .ok () := by
  intro problem hproblem
  obtain ⟨tier, -, hmem⟩ := List.mem_flatMap.mp hproblem
  obtain ⟨number, hnumber, rfl⟩ := List.mem_map.mp hmem
  obtain ⟨hpos, hle⟩ := List.mem_range'_1.mp hnumber
  have hsha : requireSha256 (repeated 64 '0') "source_sha256" = .ok () := by decide
  have hread : Fate.taskId (FateProblemId.canonical ⟨tier, number⟩) = .ok ⟨tier, number⟩ :=
    taskId_canonical ⟨hpos, by change number ≤ tier.count; omega⟩
  refine bind_eq_ok.mpr ⟨_, hread, ?_⟩
  refine seq_eq_ok.mpr ⟨ensure_of _ rfl, seq_eq_ok.mpr ⟨ensure_of _ rfl, ?_⟩⟩
  exact seq_eq_ok.mpr ⟨safeSourcePath_fatePath tier hpos, hsha⟩

theorem numeral_injective : Function.Injective numeral := by
  intro a b h
  have hdigits := congrArg (fun digits => Nat.ofDigitChars 10 digits 0) (PyText.ofChars_injective h)
  simpa only [Nat.ofDigitChars_ten_toDigits] using hdigits

theorem canonical_injective : Function.Injective FateProblemId.canonical := by
  rintro ⟨t, a⟩ ⟨u, b⟩ h
  have hlength : ∀ tier : Tier, (PyText.of "FATE-" ++ tier.text ++ PyText.of "-").length = 7 := fun tier => by cases tier <;> rfl
  obtain ⟨hhead, hnumber⟩ := List.append_inj h ((hlength t).trans (hlength u).symm)
  obtain ⟨htier, -⟩ := List.append_inj' hhead rfl
  have htext : t = u := TierMapping.text_injective (List.append_cancel_left htier)
  have hnumbers : a = b := numeral_injective hnumber
  rw [htext, hnumbers]

theorem problems_nodup : problems.Nodup := by
  refine List.nodup_flatMap.mpr ⟨fun tier _ => ?_, ?_⟩
  · exact List.Nodup.map (fun _ _ h => congrArg FateProblemId.number h) List.nodup_range'
  · refine TierMapping.fateTiers_nodup.imp ?_
    intro t u hne
    apply List.disjoint_left.mpr
    intro problem ht hu
    obtain ⟨a, -, rfl⟩ := List.mem_map.mp ht
    obtain ⟨b, -, h⟩ := List.mem_map.mp hu
    exact hne (congrArg FateProblemId.tier h).symm

theorem expectedIds_eq : expectedIds = problems.map FateProblemId.canonical := by
  rw [expectedIds, problems, List.map_flatMap]
  simp only [List.map_map]
  rfl

def sampleMapping (length : Nat) : TierMapping := fateTiers.reverse.map fun tier => (tier, List.replicate length (.ofChar 'a'))

/-- All tasks, the last first. -/
def sampleManifest : ManifestFields where
  rootCommit := List.replicate 40 (.ofChar 'b')
  submodules := sampleMapping 40
  toolchain := .of "leanprover/lean4:v4.28.0"
  mathlibCommit := List.replicate 40 (.ofChar 'c')
  lakeManifestSha256 := sampleMapping 64
  metadataJsonSha256 := sampleMapping 64
  tasks := (problems.attach.map fun problem => ⟨sampleTask problem.1, sampleTask_passes problem.1 problem.2⟩).reverse
  schemaVersion := .of "FateFixtureManifestV1"
  benchmark := .of "FATE"
  release := .of "v4.28.0"

theorem sampleManifest_ids : sampleManifest.ids = expectedIds.reverse := by
  rw [expectedIds_eq, ManifestFields.ids, sampleManifest, List.map_reverse, List.map_map]
  exact congrArg List.reverse (List.attach_map_val (f := FateProblemId.canonical))

theorem sampleManifest_valid : sampleManifest.Valid where
  rootCommit := by decide +kernel
  toolchain := .inr rfl
  mathlibCommit := by decide +kernel
  submodules := List.reverse_perm fateTiers
  metadataJsonSha256 := List.reverse_perm fateTiers
  lakeManifestSha256 := List.reverse_perm fateTiers
  submoduleHashes := by decide +kernel
  metadataHashes := by decide +kernel
  lakeHashes := by decide +kernel
  schemaVersion := rfl
  benchmark := rfl
  release := rfl
  known id hid := by
    rw [sampleManifest_ids] at hid
    exact List.mem_reverse.mp hid
  complete id hid := by
    rw [sampleManifest_ids]
    exact List.mem_reverse.mpr hid
  size := by
    have hlength := congrArg List.length sampleManifest_ids
    rw [ManifestFields.ids, List.length_map, List.length_reverse] at hlength
    rw [hlength, expectedIds_eq, (problems_nodup.map canonical_injective).dedup]

/-- What is read back from the JSON of a manifest pins the same as the manifest. -/
theorem manifest_hash_pins_sample : ∃ n, fromDict (JsonTree.dict (sampleManifest.toDict : JsonDict Unit)).sortKeys = .ok n ∧
    SamePins n.value sampleManifest := by
  let m : FateFixtureManifestV1 := ⟨sampleManifest, ManifestFields.postInit_eq_ok.mpr sampleManifest_valid⟩
  let n := FateFixtureManifestV1.inOrder m
  have hread := fromDict_toDict (F := Unit) m
  have hsame := m.valid.samePins_inOrder
  have hjson : n.value.toJson fatePython = m.value.toJson fatePython := hsame.toJson_eq fatePython n.valid
  have hsha : Set.InjOn fatePython.sha256
      {(String.ofList (n.value.toJson fatePython)).toUTF8, (String.ofList (m.value.toJson fatePython)).toUTF8} := by
    rw [hjson, Set.pair_eq_singleton]
    exact Set.injOn_singleton _ _
  have hhash : n.value.contentHash fatePython = m.value.contentHash fatePython := hsame.contentHash_eq fatePython n.valid
  exact ⟨n, hread, ((manifest_hash_pins fatePython m).2.2 _ n hread hsha hhash).1⟩

end Autolean.Benchmarks.Fate
