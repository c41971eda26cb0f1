import Autolean.ControlPlane.Basic
import Autolean.Contracts.Hashing

/-! The task binding the control plane derives from a Builder handoff, its encoding in
the registration event and the decoder every later command reads it back with. -/
namespace Autolean.ControlPlane
open Contracts Machine Raising

/-- `frozenset(values)` in its canonical order, which is also `sorted(frozenset(values))`. -/
def frozenset (values : List String) : List String := values.dedup.insertionSort (· ≤ ·)

structure ArtifactRef where
  digest : Digest
  size : Nat
  deriving DecidableEq

def ArtifactRef.make (digest : String) (size : Int) : Raises ArtifactRef :=
  if h : IsSha256 digest then
    if 0 ≤ size then .ok ⟨⟨digest, h⟩, size.toNat⟩
    else .error (.valueError "artifact size must be non-negative")
  else .error (.valueError "digest must be 64 lowercase hexadecimal characters")

inductive CanonicalTypeAssurance where
  | scriptedFake
  | localOciPrefreeze
  deriving DecidableEq

def CanonicalTypeAssurance.value : CanonicalTypeAssurance → String
  | scriptedFake => "scripted_fake"
  | localOciPrefreeze => "local_oci_prefreeze"

structure TaskBinding where
  bundleId : String
  bundleHash : String
  contractId : String
  revision : Int
  contractHash : String
  proofBoundaryHash : String
  environmentHash : String
  leanVersion : String
  mathlibRevision : String
  lakeManifestHash : Option String
  workerImageDigest : String
  wrapperProtocol : String
  commandPolicyHash : String
  axiomProfile : String
  axiomsAllowlist : List String
  canonicalTypeAssurance : Option CanonicalTypeAssurance
  canonicalTypePromotionAuthority : Bool
  bundleArtifact : ArtifactRef
  fidelityEvidenceArtifact : Option ArtifactRef
  graphNodes : List JsonObject
  deriving DecidableEq

/-! Reading event payloads -/

def corruptPayload (key : String) : ControlPlaneError :=
  .invalidTransition ("corrupt control-plane payload: " ++ key)

def requiredText (payload : JsonObject) (key : String) : Raises String :=
  match payload.text key with
  | some value => .ok value
  | none => .error (corruptPayload key)

def optionalText (payload : JsonObject) (key : String) : Raises (Option String) :=
  match payload.get key with
  | none | some .null => .ok none
  | some _ => some <$> requiredText payload key

def requiredInt (payload : JsonObject) (key : String) : Raises Int :=
  match payload.int key with
  | some value => .ok value
  | none => .error (corruptPayload key)

def requiredObject (payload : JsonObject) (key : String) : Raises JsonObject :=
  match payload.obj key with
  | some value => .ok value
  | none => .error (corruptPayload key)

def requiredList (payload : JsonObject) (key : String) : Raises (List Json) :=
  match payload.list key with
  | some value => .ok value
  | none => .error (corruptPayload key)

/-- The entries of a list of nonempty texts. -/
def textItems : List Json → Option (List String)
  | [] => some []
  | .str s :: rest => if s = "" then none else (s :: ·) <$> textItems rest
  | _ :: _ => none

def requiredTexts (payload : JsonObject) (key : String) : Raises (List String) := do
  let values ← requiredList payload key
  match textItems values with
  | some texts => .ok texts
  | none => .error (corruptPayload key)

/-- `json.loads(canonical_json(value))` of an object: the object itself when it can be encoded. -/
def jsonObject (fields : JsonObject) : Raises JsonObject := do
  ensure (Json.encodableFields fields = true) (.valueError "Out of range float values are not JSON compliant")
  pure fields

def jsonObjectItem : Json → Raises JsonObject
  | .dict fields => jsonObject fields
  | _ => .error (.typeError "event payload must be a JSON object")

/-- `_json_object` of each item of a list. -/
def jsonObjects : List Json → Raises (List JsonObject)
  | [] => .ok []
  | item :: rest => do
    let fields ← jsonObjectItem item
    let objects ← jsonObjects rest
    pure (fields :: objects)

/-! Encoding -/

def artifactPayload (reference : ArtifactRef) (kind : String) : JsonObject :=
  [("digest", .str reference.digest.value), ("size", .int reference.size),
    ("uri", .str ("sha256:" ++ reference.digest.value)), ("kind", .str kind), ("media_type", .str "application/json")]

/-- Public audit metadata of an attestation. -/
def attestationSummary (isoformat : Datetime → String) (attestation : Attestation) : JsonObject :=
  [("purpose", .str attestation.purpose.value), ("key_id", .str attestation.keyId),
    ("payload_hash", .str attestation.payloadHash.value),
    ("evidence_identity", .str attestation.evidenceIdentity.value),
    ("expires_at", .str (isoformat attestation.expiresAt))]

/-- The sources of the edges into a node, sorted. -/
def graphDependencies (graph : Graph) (node : GraphNode) : List String :=
  ((graph.edges.filter fun edge => edge.target = node.nodeId).map fun edge => edge.source.value).insertionSort (· ≤ ·)

def graphNodesOf (bundle : Handoff) (graphName : String) (graph : Graph) : List JsonObject :=
  graph.nodes.map fun node =>
    [("id", .str node.nodeId.value), ("bundle_id", .str bundle.bundleId.value), ("label", .str node.label.value),
      ("graph", .str graphName), ("status", .str "frozen"), ("revision", .int bundle.contract.revision),
      ("kind", .str node.kind.value), ("dependencies", .list ((graphDependencies graph node).map .str))]

def graphNodes (bundle : Handoff) : List JsonObject :=
  graphNodesOf bundle "mathematical" bundle.graphs.mathematical ++ graphNodesOf bundle "formal" bundle.graphs.formal ++
    graphNodesOf bundle "execution" bundle.graphs.execution

/-- An optional text or object as JSON. -/
def orNull : Option Json → Json
  | none => .null
  | some value => value

/-- The payload of `task.registered`. -/
def registrationPayload (binding : TaskBinding) (attestation : JsonObject) : JsonObject :=
  [("bundle_id", .str binding.bundleId), ("bundle_hash", .str binding.bundleHash),
    ("contract_id", .str binding.contractId), ("revision", .int binding.revision),
    ("contract_hash", .str binding.contractHash), ("proof_boundary_hash", .str binding.proofBoundaryHash),
    ("environment_hash", .str binding.environmentHash), ("lean_version", .str binding.leanVersion),
    ("mathlib_revision", .str binding.mathlibRevision),
    ("lake_manifest_hash", orNull (binding.lakeManifestHash.map .str)),
    ("worker_image_digest", .str binding.workerImageDigest), ("wrapper_protocol", .str binding.wrapperProtocol),
    ("command_policy_hash", .str binding.commandPolicyHash), ("axiom_profile", .str binding.axiomProfile),
    ("axioms_allowlist", .list (binding.axiomsAllowlist.map .str)),
    ("canonical_type_assurance", orNull (binding.canonicalTypeAssurance.map fun a => .str a.value)),
    ("canonical_type_promotion_authority", .bool binding.canonicalTypePromotionAuthority),
    ("bundle_artifact", .dict (artifactPayload binding.bundleArtifact "bundle")),
    ("fidelity_evidence_artifact",
      orNull (binding.fidelityEvidenceArtifact.map fun r => .dict (artifactPayload r "builder_fidelity_evidence"))),
    ("builder_attestation", .dict attestation), ("graph_nodes", .list (binding.graphNodes.map .dict))]

/-! Decoding -/

def canonicalTypeAssuranceFromPayload (payload : JsonObject) : Raises (Option CanonicalTypeAssurance) :=
  match payload.get "canonical_type_assurance" with
  | none | some .null => .ok none
  | some (.str "scripted_fake") => .ok (some .scriptedFake)
  | some (.str "local_oci_prefreeze") => .ok (some .localOciPrefreeze)
  | some _ => .error (corruptPayload "canonical_type_assurance")

def fidelityPayload (payload : JsonObject) : Raises (Option JsonObject) :=
  match payload.get "fidelity_evidence_artifact" with
  | none | some .null => .ok none
  | some (.dict fields) => .ok (some fields)
  | some _ => .error (corruptPayload "fidelity_evidence_artifact")

def artifactRefFromPayload (payload : JsonObject) : Raises ArtifactRef := do
  let digest ← requiredText payload "digest"
  let size ← requiredInt payload "size"
  ArtifactRef.make digest size

def optionalArtifactRef : Option JsonObject → Raises (Option ArtifactRef)
  | none => .ok none
  | some payload => some <$> artifactRefFromPayload payload

def assertNoPromotionAuthority (payload : JsonObject) : Raises Unit :=
  match payload.get "canonical_type_promotion_authority" with
  | none | some (.bool false) => .ok ()
  | some _ => .error (.invalidTransition "canonical type registration event claims promotion authority")

/-- `_binding_from_event`, from the payload alone. -/
def bindingFromPayload (payload : JsonObject) : Raises TaskBinding := do
  let artifact ← requiredObject payload "bundle_artifact"
  let fidelity ← fidelityPayload payload
  let canonicalTypeAssurance ← canonicalTypeAssuranceFromPayload payload
  assertNoPromotionAuthority payload
  let nodes ← requiredList payload "graph_nodes"
  let bundleId ← requiredText payload "bundle_id"
  let bundleHash ← requiredText payload "bundle_hash"
  let contractId ← requiredText payload "contract_id"
  let revision ← requiredInt payload "revision"
  let contractHash ← requiredText payload "contract_hash"
  let proofBoundaryHash ← requiredText payload "proof_boundary_hash"
  let environmentHash ← requiredText payload "environment_hash"
  let leanVersion ← requiredText payload "lean_version"
  let mathlibRevision ← requiredText payload "mathlib_revision"
  let lakeManifestHash ← optionalText payload "lake_manifest_hash"
  let workerImageDigest ← requiredText payload "worker_image_digest"
  let wrapperProtocol ← requiredText payload "wrapper_protocol"
  let commandPolicyHash ← requiredText payload "command_policy_hash"
  let axiomProfile ← requiredText payload "axiom_profile"
  let axioms ← requiredTexts payload "axioms_allowlist"
  let bundleArtifact ← artifactRefFromPayload artifact
  let fidelityEvidenceArtifact ← optionalArtifactRef fidelity
  let graphNodes ← jsonObjects nodes
  pure ⟨bundleId, bundleHash, contractId, revision, contractHash, proofBoundaryHash, environmentHash, leanVersion,
    mathlibRevision, lakeManifestHash, workerImageDigest, wrapperProtocol, commandPolicyHash, axiomProfile,
    frozenset axioms, canonicalTypeAssurance, false, bundleArtifact, fidelityEvidenceArtifact, graphNodes⟩

/-! The binding of a bundle -/

/-- `_binding_from_bundle`, completed with the artifacts and the assurance of its registration. -/
def bindingFromBundle (h : Hashing) (bundle : Handoff) (assurance : Option CanonicalTypeAssurance) (artifact : ArtifactRef) :
    TaskBinding where
  bundleId := bundle.bundleId.value
  bundleHash := (h.handoffHash bundle).value
  contractId := bundle.contract.contractId.value
  revision := bundle.contract.revision
  contractHash := (h.semanticHash bundle.contract.toContractSemantics).value
  proofBoundaryHash := bundle.proofBoundary.boundaryHash.value
  environmentHash := bundle.contract.formal.environment.environmentHash.value
  leanVersion := bundle.contract.formal.environment.leanVersion.value
  mathlibRevision := bundle.contract.formal.environment.mathlibRevision.value
  lakeManifestHash := bundle.contract.formal.environment.lakeManifestHash.map (·.value)
  workerImageDigest := bundle.contract.formal.environment.verifierExecutionPolicy.workerImageDigest.value
  wrapperProtocol := bundle.contract.formal.environment.verifierExecutionPolicy.wrapperProtocol
  commandPolicyHash := (h.commandPolicyHash bundle.contract.formal.environment.verifierExecutionPolicy.version).value
  axiomProfile := bundle.contract.axiomProfile.value
  axiomsAllowlist := frozenset bundle.contract.formal.axiomsAllowlist
  canonicalTypeAssurance := assurance
  canonicalTypePromotionAuthority := false
  bundleArtifact := artifact
  fidelityEvidenceArtifact := bundle.fidelityEvidence.map fun r => ⟨r.digest, r.size⟩
  graphNodes := graphNodes bundle

/-- `_same_logical_binding`: every field but the stored bundle artifact. -/
def SameLogicalBinding (left right : TaskBinding) : Prop :=
  { left with bundleArtifact := right.bundleArtifact } = right

instance (left right : TaskBinding) : Decidable (SameLogicalBinding left right) := inferInstanceAs (Decidable (_ = _))

/-! What the decoder makes of an encoded binding -/

theorem mem_frozenset {values : List String} {x : String} : x ∈ frozenset values ↔ x ∈ values := by
  unfold frozenset
  rw [(List.perm_insertionSort _ _).mem_iff, List.mem_dedup]

/-- Building a set from a set again changes nothing. -/
theorem frozenset_frozenset (values : List String) : frozenset (frozenset values) = frozenset values := by
  have hnodup : (frozenset values).Nodup :=
    (List.perm_insertionSort _ _).nodup_iff.mpr values.nodup_dedup
  have hsorted : (frozenset values).Pairwise (· ≤ ·) := List.pairwise_insertionSort (· ≤ ·) values.dedup
  calc frozenset (frozenset values)
      = (frozenset values).dedup.insertionSort (· ≤ ·) := rfl
    _ = (frozenset values).insertionSort (· ≤ ·) := by rw [hnodup.dedup]
    _ = frozenset values := hsorted.insertionSort_eq

section
variable {payload : JsonObject} {key s : String}

theorem requiredText_of (h : payload.get key = some (.str s)) (hs : s ≠ "") : requiredText payload key = .ok s := by
  simp [requiredText, JsonObject.text, h, hs]

theorem requiredInt_of {n : Int} (h : payload.get key = some (.int n)) : requiredInt payload key = .ok n := by
  simp [requiredInt, JsonObject.int, h]

theorem requiredObject_of {o : JsonObject} (h : payload.get key = some (.dict o)) :
    requiredObject payload key = .ok o := by
  simp [requiredObject, JsonObject.obj, h]

theorem requiredList_of {l : List Json} (h : payload.get key = some (.list l)) : requiredList payload key = .ok l := by
  simp [requiredList, JsonObject.list, h]

theorem optionalText_of {o : Option String} (h : payload.get key = some (orNull (o.map .str)))
    (ho : ∀ s, o = some s → s ≠ "") : optionalText payload key = .ok o := by
  cases o with
  | none => simp only [optionalText, h, Option.map_none, orNull]
  | some s =>
    simp only [optionalText, h, Option.map_some, orNull, requiredText_of (s := s) h (ho s rfl)]
    rfl

theorem requiredText_ok (h : requiredText payload key = .ok s) : payload.get key = some (.str s) ∧ s ≠ "" := by
  unfold requiredText JsonObject.text at h
  cases hg : payload.get key with
  | none => simp [hg] at h
  | some value =>
    cases value with
    | str text =>
      by_cases ht : text = ""
      · simp [hg, ht] at h
      · simp only [hg, ht, if_false, Except.ok.injEq] at h
        exact ⟨by rw [h], h ▸ ht⟩
    | _ => simp [hg] at h

theorem requiredInt_ok {n : Int} (h : requiredInt payload key = .ok n) : payload.get key = some (.int n) := by
  unfold requiredInt JsonObject.int at h
  cases hg : payload.get key with
  | none => simp [hg] at h
  | some value =>
    cases value with
    | int m =>
      simp only [hg, Except.ok.injEq] at h
      rw [h]
    | _ => simp [hg] at h

theorem textItems_map (xs : List String) : textItems (xs.map .str) = if "" ∈ xs then none else some xs := by
  induction xs with
  | nil => rfl
  | cons x xs ih =>
    by_cases hx : x = ""
    · simp [textItems, hx]
    · simp only [List.map_cons, textItems, hx, if_false, ih, List.mem_cons, Ne.symm hx, false_or]
      split <;> rfl

theorem requiredTexts_of {l : List String} (h : payload.get key = some (.list (l.map .str))) :
    requiredTexts payload key = if "" ∈ l then .error (corruptPayload key) else .ok l := by
  simp only [requiredTexts, requiredList_of h, ok_bind, textItems_map]
  by_cases hx : "" ∈ l
  · simp only [hx, if_true]
  · simp only [hx, if_false]

end

theorem artifactRefFromPayload_artifactPayload (reference : ArtifactRef) (kind : String) :
    artifactRefFromPayload (artifactPayload reference kind) = .ok reference := by
  have hd : requiredText (artifactPayload reference kind) "digest" = .ok reference.digest.value :=
    requiredText_of rfl reference.digest.isSha256.ne_empty
  have hs : requiredInt (artifactPayload reference kind) "size" = .ok (reference.size : Int) := requiredInt_of rfl
  simp only [artifactRefFromPayload, hd, hs, ok_bind, ArtifactRef.make, reference.digest.isSha256, dite_true,
    Int.natCast_nonneg, if_true, Int.toNat_natCast]

theorem optionalArtifactRef_of (r : Option ArtifactRef) (kind : String) :
    optionalArtifactRef (r.map (artifactPayload · kind)) = .ok r := by
  cases r with
  | none => rfl
  | some r =>
    simp only [Option.map_some, optionalArtifactRef, artifactRefFromPayload_artifactPayload]
    rfl

private theorem encodableList_str (xs : List String) : Json.encodableList (xs.map .str) = true := by
  induction xs with
  | nil => rfl
  | cons x xs ih => simp [Json.encodableList, Json.encodable, ih]

private theorem jsonObjects_of {nodes : List JsonObject} (h : ∀ n ∈ nodes, Json.encodableFields n = true) :
    jsonObjects (nodes.map .dict) = .ok nodes := by
  induction nodes with
  | nil => rfl
  | cons n nodes ih =>
    have hn : jsonObjectItem (.dict n) = .ok n :=
      ensure_bind_eq_ok.mpr ⟨h n List.mem_cons_self, rfl⟩
    simp only [List.map_cons, jsonObjects, hn, ok_bind, ih fun m hm => h m (List.mem_cons_of_mem _ hm)]
    rfl

private theorem encodableList_obj {nodes : List JsonObject} (h : ∀ n ∈ nodes, Json.encodableFields n = true) :
    Json.encodableList (nodes.map .dict) = true := by
  induction nodes with
  | nil => rfl
  | cons n nodes ih =>
    simp only [List.map_cons, Json.encodableList, Json.encodable, h n List.mem_cons_self, Bool.true_and]
    exact ih fun m hm => h m (List.mem_cons_of_mem _ hm)

theorem graphNodes_encodable (bundle : Handoff) : ∀ n ∈ graphNodes bundle, Json.encodableFields n = true := by
  have one (name : String) (graph : Graph) : ∀ n ∈ graphNodesOf bundle name graph, Json.encodableFields n = true := by
    intro n hn
    obtain ⟨node, -, rfl⟩ := List.mem_map.mp hn
    simp [Json.encodableFields, Json.encodable, encodableList_str]
  intro n hn
  simp only [graphNodes, List.mem_append] at hn
  obtain (hn | hn) | hn := hn
  · exact one _ _ n hn
  · exact one _ _ n hn
  · exact one _ _ n hn

/-- What every binding made from a bundle satisfies. -/
structure TaskBinding.Presentable (b : TaskBinding) : Prop where
  bundleId : b.bundleId ≠ ""
  bundleHash : b.bundleHash ≠ ""
  contractId : b.contractId ≠ ""
  contractHash : b.contractHash ≠ ""
  proofBoundaryHash : b.proofBoundaryHash ≠ ""
  environmentHash : b.environmentHash ≠ ""
  leanVersion : b.leanVersion ≠ ""
  mathlibRevision : b.mathlibRevision ≠ ""
  lakeManifestHash : ∀ s, b.lakeManifestHash = some s → s ≠ ""
  workerImageDigest : b.workerImageDigest ≠ ""
  wrapperProtocol : b.wrapperProtocol ≠ ""
  commandPolicyHash : b.commandPolicyHash ≠ ""
  axiomProfile : b.axiomProfile ≠ ""
  axioms_set : frozenset b.axiomsAllowlist = b.axiomsAllowlist
  no_promotion : b.canonicalTypePromotionAuthority = false
  nodes_encodable : ∀ n ∈ b.graphNodes, Json.encodableFields n = true

private theorem ImageDigest.ne_empty (d : ImageDigest) : d.value ≠ "" := by
  intro h
  have hs := d.shaped.1
  rw [h] at hs
  exact absurd hs (by decide)

theorem bindingFromBundle_presentable (h : Hashing) (bundle : Handoff) (assurance : Option CanonicalTypeAssurance)
    (artifact : ArtifactRef) : (bindingFromBundle h bundle assurance artifact).Presentable where
  bundleId := ne_empty_of_not_blank bundle.bundleId.not_blank
  bundleHash := (h.handoffHash bundle).isSha256.ne_empty
  contractId := ne_empty_of_not_blank bundle.contract.contractId.not_blank
  contractHash := (h.semanticHash _).isSha256.ne_empty
  proofBoundaryHash := bundle.proofBoundary.boundaryHash.isSha256.ne_empty
  environmentHash := bundle.contract.formal.environment.environmentHash.isSha256.ne_empty
  leanVersion := bundle.contract.formal.environment.leanVersion.nonempty
  mathlibRevision := bundle.contract.formal.environment.mathlibRevision.nonempty
  lakeManifestHash s hs := by
    obtain ⟨d, -, rfl⟩ := Option.map_eq_some_iff.mp hs
    exact d.isSha256.ne_empty
  workerImageDigest := ImageDigest.ne_empty _
  wrapperProtocol := by
    simp only [bindingFromBundle, OciVerifierExecutionPolicy.wrapperProtocol]
    split <;> decide
  commandPolicyHash := (h.commandPolicyHash _).isSha256.ne_empty
  axiomProfile := by
    simp only [bindingFromBundle]
    cases bundle.contract.axiomProfile <;> decide
  axioms_set := frozenset_frozenset _
  no_promotion := rfl
  nodes_encodable := graphNodes_encodable bundle

private theorem canonicalTypeAssuranceFromPayload_of {payload : JsonObject} {a : Option CanonicalTypeAssurance}
    (h : payload.get "canonical_type_assurance" = some (orNull (a.map fun a => .str a.value))) :
    canonicalTypeAssuranceFromPayload payload = .ok a := by
  cases a with
  | none => simp only [canonicalTypeAssuranceFromPayload, h, Option.map_none, orNull]
  | some a => cases a <;> simp only [canonicalTypeAssuranceFromPayload, h, Option.map_some, orNull, CanonicalTypeAssurance.value]

private theorem fidelityPayload_of {payload : JsonObject} {o : Option JsonObject}
    (h : payload.get "fidelity_evidence_artifact" = some (orNull (o.map .dict))) : fidelityPayload payload = .ok o := by
  cases o <;> simp only [fidelityPayload, h, Option.map_none, Option.map_some, orNull]

/-- The decoder returns an encoded binding, unless its allowlist has an empty entry. -/
theorem bindingFromPayload_registrationPayload {b : TaskBinding} (hb : b.Presentable) (attestation : JsonObject) :
    bindingFromPayload (registrationPayload b attestation) =
      if "" ∈ b.axiomsAllowlist then .error (corruptPayload "axioms_allowlist") else .ok b := by
  have hfid : fidelityPayload (registrationPayload b attestation) =
      .ok (b.fidelityEvidenceArtifact.map (artifactPayload · "builder_fidelity_evidence")) :=
    fidelityPayload_of (by simp only [Option.map_map]; rfl)
  have hassure : canonicalTypeAssuranceFromPayload (registrationPayload b attestation) = .ok b.canonicalTypeAssurance :=
    canonicalTypeAssuranceFromPayload_of rfl
  have hpromo : assertNoPromotionAuthority (registrationPayload b attestation) = .ok () := by
    have hget : (registrationPayload b attestation).get "canonical_type_promotion_authority" =
        some (.bool b.canonicalTypePromotionAuthority) := rfl
    simp only [assertNoPromotionAuthority, hget, hb.no_promotion]
  unfold bindingFromPayload
  rw [requiredObject_of (o := artifactPayload b.bundleArtifact "bundle") rfl, ok_bind, hfid, ok_bind, hassure, ok_bind,
    hpromo, ok_bind, requiredList_of (l := b.graphNodes.map .dict) rfl, ok_bind,
    requiredText_of rfl hb.bundleId, ok_bind, requiredText_of rfl hb.bundleHash, ok_bind,
    requiredText_of rfl hb.contractId, ok_bind, requiredInt_of (n := b.revision) rfl, ok_bind,
    requiredText_of rfl hb.contractHash, ok_bind, requiredText_of rfl hb.proofBoundaryHash, ok_bind,
    requiredText_of rfl hb.environmentHash, ok_bind, requiredText_of rfl hb.leanVersion, ok_bind,
    requiredText_of rfl hb.mathlibRevision, ok_bind, optionalText_of rfl hb.lakeManifestHash, ok_bind,
    requiredText_of rfl hb.workerImageDigest, ok_bind, requiredText_of rfl hb.wrapperProtocol, ok_bind,
    requiredText_of rfl hb.commandPolicyHash, ok_bind, requiredText_of rfl hb.axiomProfile, ok_bind,
    requiredTexts_of (l := b.axiomsAllowlist) rfl]
  by_cases haxioms : "" ∈ b.axiomsAllowlist
  · simp only [haxioms, if_true, error_bind]
  · simp only [haxioms, if_false, ok_bind, artifactRefFromPayload_artifactPayload, optionalArtifactRef_of,
      jsonObjects_of hb.nodes_encodable, hb.axioms_set, ← hb.no_promotion]
    rfl

theorem registrationPayload_encodable {b : TaskBinding} (hb : b.Presentable) {attestation : JsonObject}
    (ha : Json.encodableFields attestation = true) : Json.encodableFields (registrationPayload b attestation) = true := by
  have horNull (o : Option Json) (ho : ∀ v, o = some v → v.encodable = true) : (orNull o).encodable = true := by
    cases o with
    | none => rfl
    | some v => exact ho v rfl
  have hartifact (r : ArtifactRef) (kind : String) : Json.encodableFields (artifactPayload r kind) = true := by
    simp [artifactPayload, Json.encodableFields, Json.encodable]
  have hfid := horNull (b.fidelityEvidenceArtifact.map fun r => .dict (artifactPayload r "builder_fidelity_evidence"))
    (by rintro v hv; obtain ⟨r, -, rfl⟩ := Option.map_eq_some_iff.mp hv; exact hartifact r _)
  have hlake := horNull (b.lakeManifestHash.map .str)
    (by rintro v hv; obtain ⟨s, -, rfl⟩ := Option.map_eq_some_iff.mp hv; rfl)
  have hassure := horNull (b.canonicalTypeAssurance.map fun a => .str a.value)
    (by rintro v hv; obtain ⟨s, -, rfl⟩ := Option.map_eq_some_iff.mp hv; rfl)
  simp only [registrationPayload, Json.encodableFields, Json.encodable, encodableList_str, ha, hfid, hlake, hassure,
    hartifact, encodableList_obj hb.nodes_encodable, Bool.and_self]

end Autolean.ControlPlane
