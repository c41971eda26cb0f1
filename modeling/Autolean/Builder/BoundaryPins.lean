import Autolean.Builder.ProofBoundary

/-! The boundary built for a contract is the one the bundle validator accepts with it, and the
only one. -/
namespace Autolean.Builder
open Contracts Machine Machine.Raising
variable {runtime : Runtime} {stripping : Stripping}

/-! Names hold no white space -/

theorem isIdentifierPart_of_start {c : Char} (h : isIdentifierStart c = true) : isIdentifierPart c = true := by
  rcases Bool.or_eq_true_iff.mp h with h | h
  · simp [isIdentifierPart, Char.isAlphanum, h]
  · simp [isIdentifierPart, h]

theorem not_isSpace_of_part {c : Char} (h : isIdentifierPart c = true) : isSpace c = false := by
  rcases Bool.or_eq_true_iff.mp h with h | h
  · exact not_isSpace_of_isAlphanum h
  · rw [of_decide_eq_true h]
    decide

theorem isDeclaration_parts {s : List Char} (h : isDeclaration s = true) : ∀ c ∈ s, isIdentifierPart c = true := by
  cases s with
  | nil => cases h
  | cons c rest =>
    obtain ⟨hc, hrest⟩ := Bool.and_eq_true_iff.mp h
    exact List.forall_mem_cons.mpr ⟨isIdentifierPart_of_start hc, List.all_eq_true.mp hrest⟩

theorem isNamespace_parts {start : Bool} {s : List Char} (h : isNamespace start s = true) :
    ∀ c ∈ s, isIdentifierPart c = true ∨ c = '.' := by
  induction s generalizing start with
  | nil => exact List.forall_mem_nil _
  | cons c rest ih =>
    cases start with
    | true =>
      obtain ⟨hc, hrest⟩ := Bool.and_eq_true_iff.mp h
      exact List.forall_mem_cons.mpr ⟨.inl (isIdentifierPart_of_start hc), ih hrest⟩
    | false =>
      rw [isNamespace] at h
      split_ifs at h with hdot
      · exact List.forall_mem_cons.mpr ⟨.inr hdot, ih h⟩
      · obtain ⟨hc, hrest⟩ := Bool.and_eq_true_iff.mp h
        exact List.forall_mem_cons.mpr ⟨.inl hc, ih hrest⟩

theorem renderTrustedStatement_ok {contract : StatementContract} {source : String}
    (h : renderTrustedStatement contract = .ok source) :
    isNamespace true contract.formal.namespaceName.value.toList = true ∧
      isDeclaration contract.formal.declarationName.value.toList = true ∧
      source = "\n".intercalate (trustedLines contract.formal) := by
  simp only [renderTrustedStatement, seq_eq_ok, ensure_eq_ok] at h
  obtain ⟨-, hnamespace, hdeclaration, hsource⟩ := h
  exact ⟨hnamespace, hdeclaration, (Except.ok.inj hsource).symm⟩

theorem strip_qualifiedName (stripping : Stripping) {contract : StatementContract} {source : String}
    (h : renderTrustedStatement contract = .ok source) : stripping.strip contract.qualifiedName = contract.qualifiedName := by
  obtain ⟨hnamespace, hdeclaration, -⟩ := renderTrustedStatement_ok h
  apply stripping.strip_of
  intro c hc
  rw [StatementContract.qualifiedName, String.toList_append, String.toList_append] at hc
  rcases List.mem_append.mp hc with hc | hc
  · rcases List.mem_append.mp hc with hc | hc
    · rcases isNamespace_parts hnamespace c hc with hc | rfl
      · exact not_isSpace_of_part hc
      · decide
    · rw [List.mem_singleton.mp hc]
      decide
  · exact not_isSpace_of_part (isDeclaration_parts hdeclaration c hc)

/-! The two encoders agree -/

theorem dumps_perm {d e : JsonFields} (h : d.Perm e) (hkeys : d.keys.Nodup) : dumps d = dumps e := by
  have hmap := h.map fun f => (f.1, f.2.sortKeys)
  have hsorted : d.sortKeys = e.sortKeys := by
    refine Keyed.insertionSort_perm Prod.fst hmap ?_
    rwa [List.map_map]
  rw [dumps, dumps, Text.JsonTree.dumps, Text.JsonTree.dumps, Text.JsonTree.sortKeys_dict,
    Text.JsonTree.sortKeys_dict, hsorted]

theorem dump_keys (b : BoundaryFields) : b.dump.keys.Nodup := by
  rw [BoundaryFields.dump, Text.JsonDict.keys_of]
  exact List.Nodup.map Text.PyText.of_injective (by simp)

/-- The payload that is hashed is the model that is checked, its fields in another order. -/
theorem dumps_boundaryPayload (contract : StatementContract) (elaborated : Digest) (source : String) :
    dumps (runtime.boundaryFields contract elaborated source).dump =
      dumps (runtime.boundaryPayload contract elaborated source) := by
  refine dumps_perm ?_ (dump_keys _)
  have hmoved := List.perm_append_singleton
    ("solver_manifest_hash", (runtime.solverManifestHash contract elaborated source).dump)
    [("allowed_write_paths", Text.JsonTree.list [Text.JsonTree.text "Proof.lean"]),
      ("candidate_path", .text "Candidate.lean"), ("comparator_id", .text "lean-exact-declaration-boundary.v1"),
      ("expected_declaration", .text contract.qualifiedName),
      ("expected_elaborated_type_hash", (KindedDigest.mk .elaboratedType elaborated).dump)]
  exact ((hmoved.symm.append_left
    [("schema_version", .text "1.0"), ("contract_hash", (runtime.contractHash contract).dump),
      ("environment_hash", (KindedDigest.mk .environment contract.formal.environment.environmentHash).dump),
      ("trusted_statement_path", .text "TrustedStatement.lean"), ("trusted_statement_source", .text source),
      ("trusted_statement_hash",
        (runtime.digestText .trustedStatement source).dump)]).map fun f : String × Json => (Text.PyText.of f.1, f.2))

/-! What is built and what is accepted -/

theorem modelValidate_eq_ok {payload : BoundaryFields} {b : ProofBoundaryV1 runtime stripping} :
    ProofBoundaryV1.modelValidate runtime stripping payload = .ok b ↔ stripping.fields payload = b.value := by
  constructor
  · intro h
    unfold ProofBoundaryV1.modelValidate at h
    split at h
    · cases h
      rfl
    · cases h
  · intro h
    unfold ProofBoundaryV1.modelValidate
    split
    · exact congrArg Except.ok (ProofBoundaryV1.ext_value h)
    · rename_i he
      rw [h, b.passed] at he
      cases he

theorem buildProofBoundary_eq_ok {contract : StatementContract} {b : ProofBoundaryV1 runtime stripping} :
    runtime.buildProofBoundary stripping contract = .ok b ↔ contract.status = .frozen ∧
      ∃ text elaborated source, contract.formal.elaborated = some (text, elaborated) ∧
        renderTrustedStatement contract = .ok source ∧
        stripping.fields (runtime.boundaryFields contract elaborated source) = b.value := by
  rw [Runtime.buildProofBoundary, ensure_bind_eq_ok, bind_eq_ok]
  simp only [bind_eq_ok, modelValidate_eq_ok]
  refine and_congr_right fun _ => ?_
  constructor
  · rintro ⟨elaborated, helaborated, source, hsource, hb⟩
    unfold Runtime.requireElaborated at helaborated
    split at helaborated
    · rename_i text hash hformal
      cases helaborated
      exact ⟨text, elaborated, source, hformal, hsource, hb⟩
    · cases helaborated
  · rintro ⟨text, elaborated, source, hformal, hsource, hb⟩
    exact ⟨elaborated, by rw [Runtime.requireElaborated, hformal], source, hsource, hb⟩

/-- What the checks of a boundary say of its fields. -/
theorem validate_ok {b : BoundaryFields} (h : b.validate runtime = .ok ()) :
    b.schemaVersion = "1.0" ∧ b.trustedStatementPath = "TrustedStatement.lean" ∧ b.candidatePath = "Candidate.lean" ∧
      b.comparatorId = "lean-exact-declaration-boundary.v1" ∧ b.allowedWritePaths = ["Proof.lean"] ∧
      b.trustedStatementHash = runtime.digestText .trustedStatement b.trustedStatementSource ∧
      b.solverManifestHash = runtime.digestText .workspaceManifest b.renderSolverManifest ∧
      b.boundaryHash = runtime.digestPayload .proofBoundary b.dump := by
  simp only [BoundaryFields.validate, BoundaryFields.checkFields, BoundaryFields.validateBoundary, requireDigestKind, seq_eq_ok,
    ensure_eq_ok] at h
  obtain ⟨⟨hschema, hpath, -, -, hcandidate, hcomparator, -⟩, -, -, -, -, -, -, hallowed, -, -, -, hstatement, hmanifest,
    hboundary⟩ := h
  exact ⟨hschema, hpath, hcandidate, hcomparator, hallowed, hstatement, hmanifest, hboundary⟩

theorem checkBoundary_eq_ok {contract : StatementContract} {b : BoundaryFields} :
    runtime.checkBoundary contract b = .ok () ↔ contract.status = .frozen ∧ b.contractHash = runtime.contractHash contract ∧
      b.environmentHash = ⟨.environment, contract.formal.environment.environmentHash⟩ ∧
      some b.expectedElaboratedTypeHash = contract.formal.elaborated.map (fun e => ⟨.elaboratedType, e.2⟩) ∧
      b.expectedDeclaration = contract.qualifiedName ∧ renderTrustedStatement contract = .ok b.trustedStatementSource := by
  simp only [Runtime.checkBoundary, ensure_bind_eq_ok]
  simp only [bind_eq_ok, ensure_eq_ok]
  constructor
  · rintro ⟨hfrozen, hcontract, henvironment, helaborated, hdeclaration, source, hsource, hsame⟩
    exact ⟨hfrozen, hcontract, henvironment, helaborated, hdeclaration, hsame ▸ hsource⟩
  · rintro ⟨hfrozen, hcontract, henvironment, helaborated, hdeclaration, hsource⟩
    exact ⟨hfrozen, hcontract, henvironment, helaborated, hdeclaration, _, hsource, rfl⟩

/-- A boundary that the bundle validator accepts with a contract is the contract's own, field by field. -/
theorem fields_of_accepted {contract : StatementContract} {b : ProofBoundaryV1 runtime stripping} {text : String}
    {elaborated : Digest} (hformal : contract.formal.elaborated = some (text, elaborated))
    (h : runtime.checkBoundary contract b.value = .ok ()) :
    runtime.boundaryFields contract elaborated b.value.trustedStatementSource = b.value := by
  obtain ⟨-, hcontract, henvironment, helaborated, hdeclaration, -⟩ := checkBoundary_eq_ok.mp h
  obtain ⟨hschema, hpath, hcandidate, hcomparator, hallowed, hstatement, hmanifest, hboundary⟩ := validate_ok b.passed
  rw [hformal] at helaborated
  have helaborated' := Option.some.inj helaborated
  have hpayload : dumps (runtime.boundaryFields contract elaborated b.value.trustedStatementSource).dump =
      dumps (runtime.boundaryPayload contract elaborated b.value.trustedStatementSource) := dumps_boundaryPayload ..
  generalize b.value = value at *
  obtain ⟨schemaVersion, contractHash, environmentHash, trustedStatementPath, trustedStatementSource, trustedStatementHash,
    solverManifestHash, allowedWritePaths, candidatePath, comparatorId, expectedDeclaration, expectedElaboratedTypeHash,
    boundaryHash⟩ := value
  dsimp only at *
  subst hschema hcontract henvironment hpath hstatement hallowed hcandidate hcomparator hdeclaration helaborated'
  have hsolver : solverManifestHash = runtime.solverManifestHash contract elaborated trustedStatementSource := hmanifest
  subst hsolver
  have hself : boundaryHash = runtime.digestPayload .proofBoundary
      (runtime.boundaryFields contract elaborated trustedStatementSource).dump := hboundary
  rw [Runtime.digestPayload, hpayload, ← Runtime.digestPayload] at hself
  rw [hself]
  rfl

/-- A boundary built for a contract passes the bundle validator with it, and a boundary that passes
is the one that is built. -/
theorem checkBoundary_iff_built (runtime : Runtime) (stripping : Stripping) (contract : StatementContract) :
    (∀ b, runtime.buildProofBoundary stripping contract = .ok b →
      (∀ source, renderTrustedStatement contract = .ok source →
        Set.InjOn runtime.sha256Text {source, b.value.trustedStatementSource}) →
      runtime.checkBoundary contract b.value = .ok ()) ∧
    ∀ b : ProofBoundaryV1 runtime stripping, runtime.checkBoundary contract b.value = .ok () →
      runtime.buildProofBoundary stripping contract = .ok b := by
  constructor
  · intro b hb hsha
    obtain ⟨hfrozen, text, elaborated, source, hformal, hsource, hfields⟩ := buildProofBoundary_eq_ok.mp hb
    obtain ⟨-, -, -, -, -, hstatement, -, -⟩ := validate_ok b.passed
    have hhash : runtime.sha256Text source = runtime.sha256Text b.value.trustedStatementSource := by
      have hstored : b.value.trustedStatementHash = runtime.digestText .trustedStatement source := by
        rw [← hfields]
        rfl
      exact congrArg KindedDigest.digest (hstored.symm.trans hstatement)
    have hsame : source = b.value.trustedStatementSource :=
      hsha source hsource (Set.mem_insert _ _) (Set.mem_insert_of_mem _ rfl) hhash
    refine checkBoundary_eq_ok.mpr ⟨hfrozen, ?_, ?_, ?_, ?_, hsame ▸ hsource⟩
    · rw [← hfields]
      rfl
    · rw [← hfields]
      rfl
    · rw [hformal, ← hfields]
      rfl
    · rw [← hfields]
      exact strip_qualifiedName stripping hsource
  · intro b hb
    obtain ⟨hfrozen, -, -, helaborated, -, hsource⟩ := checkBoundary_eq_ok.mp hb
    obtain ⟨⟨text, elaborated⟩, hformal, -⟩ := Option.map_eq_some_iff.mp helaborated.symm
    refine buildProofBoundary_eq_ok.mpr ⟨hfrozen, text, elaborated, _, hformal, hsource, ?_⟩
    rw [fields_of_accepted hformal hb]
    exact b.stripped

/-! A contract -/

theorem sampleUrn_stable : IsStableIdentifier "urn:autolean:v1:sample:00000000-0000-0000-0000-000000000001" := by
  decide +kernel

def sampleId : StableIdentifier := ⟨"urn:autolean:v1:sample:00000000-0000-0000-0000-000000000001", sampleUrn_stable⟩

theorem sampleRights_licensed : PermissionDecision.restricted = .allow → (none : Option String).any (· ≠ "") = true := by
  decide

theorem sampleRights_reviewed : PermissionDecision.restricted = .allow →
    (none : Option String).any (· ≠ "") = true ∧ (none : Option Datetime).isSome = true := by
  decide

theorem sampleRevision_nonempty : "main" ≠ "" := by decide

theorem sampleLimit_pos : 1 ≤ 1 := le_rfl

theorem sampleRevision_pos : (1 : Int) ≤ 1 := le_rfl

def sampleRights : RightsRecord where
  rightsId := sampleId
  sourceId := sampleId
  sourceLicense := none
  overallDecision := .restricted
  modelEgress := .deny
  allowedEndpointClasses := []
  reviewedBy := none
  reviewedAt := none
  licensed := sampleRights_licensed
  reviewed := sampleRights_reviewed
  egress_explicit := by decide

def sampleFormal (imports : List String) : FormalSpecification where
  environment := ⟨⟨"4.28.0", by decide⟩, ⟨"main", sampleRevision_nonempty⟩,
    ⟨.v2, ⟨"sha256:" ++ (Digest.repeated 0).value, by decide +kernel⟩⟩, none,
    .repeated 0⟩
  axiomsAllowlist := []
  declarationName := ⟨"two", by decide⟩
  namespaceName := ⟨"Sample.Numbers", by decide⟩
  leanStatementSource := ⟨"theorem two : 1 + 1 = 2", by decide⟩
  statementSourceHash := .repeated 0
  elaborated := some ("1 + 1 = 2", .repeated 0)
  importsAllowlist := imports

def sampleContract (imports : List String) : StatementContract where
  contractId := sampleId
  revision := 1
  taskKind := .knownTheorem
  source := ⟨sampleId, .repeated 0, [], [], by decide⟩
  rights := sampleRights
  mathematics := ⟨⟨"Two", by decide⟩, ⟨"Two", by decide⟩, [], [], [], [], [], [], []⟩
  formal := sampleFormal imports
  alignments := []
  policy := ⟨.sandbox, .l1Simple, ⟨false, 1, 1, sampleLimit_pos, sampleLimit_pos⟩, []⟩
  fidelity := none
  remaining := []
  revision_pos := sampleRevision_pos
  rights_source := rfl
  alignments_known := by simp
  conjecture_quarantined := nofun
  status := .frozen
  freeze := some ⟨.repeated 0, .repeated 0, none, .repeated 0, some (.repeated 0), "builder", ⟨0, 0⟩⟩
  frozen_recorded := by simp

def sampleRuntime : Runtime where
  sha256Text _ := .repeated 0
  stableIdentifier _ _ := sampleId
  semanticHash _ := .repeated 0
  isoformat _ := ""
  isWordChar := Char.isAlphanum

def sampleStripping : Stripping := ⟨id, fun _ => rfl, fun _ _ => rfl⟩

def sampleSource : String := "import Mathlib.Data.Nat.Basic\n\nnamespace Sample.Numbers\n\ntheorem two : 1 + 1 = 2"

theorem sampleSource_rendered : renderTrustedStatement (sampleContract ["Mathlib.Data.Nat.Basic"]) = .ok sampleSource := by
  decide +kernel

def sampleBoundary : ProofBoundaryV1 sampleRuntime sampleStripping where
  value := sampleRuntime.boundaryFields (sampleContract ["Mathlib.Data.Nat.Basic"]) (.repeated 0) sampleSource
  stripped := rfl
  passed := by decide +kernel

theorem checkBoundary_iff_built_sample :
    sampleRuntime.checkBoundary (sampleContract ["Mathlib.Data.Nat.Basic"]) sampleBoundary.value = .ok () := by
  have hbuilt : sampleRuntime.buildProofBoundary sampleStripping (sampleContract ["Mathlib.Data.Nat.Basic"]) =
      .ok sampleBoundary :=
    buildProofBoundary_eq_ok.mpr ⟨rfl, _, _, _, rfl, sampleSource_rendered, rfl⟩
  refine (checkBoundary_iff_built sampleRuntime sampleStripping _).1 sampleBoundary hbuilt fun source hsource => ?_
  rw [sampleSource_rendered] at hsource
  rw [← Except.ok.inj hsource]
  exact (Set.pair_eq_singleton sampleSource).symm ▸ Set.injOn_singleton _ _

end Autolean.Builder
