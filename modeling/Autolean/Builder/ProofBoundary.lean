import Autolean.Builder.Contract
import Autolean.Machine.Checked
import Autolean.Text.JsonRoundTrip

/-! The proof boundary of a frozen contract: the declaration header a solver may compile, the
manifest of its workspace, and their digests. -/
namespace Autolean.Builder
open Contracts Machine Machine.Raising

inductive ContractError where
  /-- `ValueError`, raised by a function or by a model validator. -/
  | valueError (message : String)
  /-- A field that its annotation refuses. -/
  | fieldError (field : String)
  deriving DecidableEq

abbrev Accepts := Except ContractError

/-! Digests with their kind -/

/-- `require_digest_kind`. -/
def requireDigestKind (d : KindedDigest) (expected : HashKind) (fieldName : String) : Accepts Unit :=
  ensure (d.kind = expected) (.valueError (fieldName ++ " must use digest kind " ++ expected.value))

/-! Identifiers -/

def isIdentifierStart (c : Char) : Bool := c.isAlpha || c = '_'

def isIdentifierPart (c : Char) : Bool := c.isAlphanum || c = '_'

/-- `_LEAN_DECLARATION`: `[A-Za-z_][A-Za-z0-9_]*`. -/
def isDeclaration : List Char → Bool
  | [] => false
  | c :: rest => isIdentifierStart c && rest.all isIdentifierPart

/-- `_LEAN_NAMESPACE`, from the start of a component or from inside one: declarations with dots between them. -/
def isNamespace : Bool → List Char → Bool
  | start, [] => !start
  | true, c :: rest => isIdentifierStart c && isNamespace false rest
  | false, c :: rest => if c = '.' then isNamespace true rest else isIdentifierPart c && isNamespace false rest

/-- `value.rpartition(".")` without the separator. -/
def rpartitionDot (value : String) : String × String :=
  (String.ofList (value.toList.rdropWhile (· ≠ '.')).dropLast, String.ofList (value.toList.rtakeWhile (· ≠ '.')))

/-! The boundary -/

structure BoundaryFields where
  schemaVersion : String
  contractHash : KindedDigest
  environmentHash : KindedDigest
  trustedStatementPath : String
  trustedStatementSource : String
  trustedStatementHash : KindedDigest
  solverManifestHash : KindedDigest
  allowedWritePaths : List String
  candidatePath : String
  comparatorId : String
  expectedDeclaration : String
  expectedElaboratedTypeHash : KindedDigest
  boundaryHash : KindedDigest

namespace BoundaryFields

def solverManifestPayload (b : BoundaryFields) : JsonFields := Text.JsonDict.of [
  ("schema_version", .text "autolean.solver-workspace-manifest.v1"), ("contract_hash", .text b.contractHash.value),
  ("environment_hash", .text b.environmentHash.value), ("trusted_statement_path", .text b.trustedStatementPath),
  ("trusted_statement_hash", .text b.trustedStatementHash.value),
  ("allowed_write_paths", .list (b.allowedWritePaths.map .text)), ("candidate_path", .text b.candidatePath),
  ("comparator_id", .text b.comparatorId), ("expected_declaration", .text b.expectedDeclaration),
  ("expected_elaborated_type_hash", .text b.expectedElaboratedTypeHash.value)]

def renderSolverManifest (b : BoundaryFields) : String := dumps b.solverManifestPayload ++ "\n"

/-- `model_dump(mode="json", exclude={"boundary_hash"})`. -/
def dump (b : BoundaryFields) : JsonFields := Text.JsonDict.of [
  ("schema_version", .text b.schemaVersion), ("contract_hash", b.contractHash.dump),
  ("environment_hash", b.environmentHash.dump), ("trusted_statement_path", .text b.trustedStatementPath),
  ("trusted_statement_source", .text b.trustedStatementSource), ("trusted_statement_hash", b.trustedStatementHash.dump),
  ("solver_manifest_hash", b.solverManifestHash.dump), ("allowed_write_paths", .list (b.allowedWritePaths.map .text)),
  ("candidate_path", .text b.candidatePath), ("comparator_id", .text b.comparatorId),
  ("expected_declaration", .text b.expectedDeclaration),
  ("expected_elaborated_type_hash", b.expectedElaboratedTypeHash.dump)]

/-- The literals and lengths the annotations require. -/
def checkFields (b : BoundaryFields) : Accepts Unit := do
  ensure (b.schemaVersion = "1.0") (.fieldError "schema_version")
  ensure (b.trustedStatementPath = "TrustedStatement.lean") (.fieldError "trusted_statement_path")
  ensure (b.trustedStatementSource ≠ "") (.fieldError "trusted_statement_source")
  ensure (∀ path ∈ b.allowedWritePaths, path = "Proof.lean") (.fieldError "allowed_write_paths")
  ensure (b.candidatePath = "Candidate.lean") (.fieldError "candidate_path")
  ensure (b.comparatorId = "lean-exact-declaration-boundary.v1") (.fieldError "comparator_id")
  ensure (b.expectedDeclaration ≠ "") (.fieldError "expected_declaration")

/-- `ProofBoundaryV1.validate_boundary`. -/
def validateBoundary (runtime : Runtime) (b : BoundaryFields) : Accepts Unit := do
  requireDigestKind b.contractHash .contract "contract_hash"
  requireDigestKind b.environmentHash .environment "environment_hash"
  requireDigestKind b.trustedStatementHash .trustedStatement "trusted_statement_hash"
  requireDigestKind b.solverManifestHash .workspaceManifest "solver_manifest_hash"
  requireDigestKind b.expectedElaboratedTypeHash .elaboratedType "expected_elaborated_type_hash"
  requireDigestKind b.boundaryHash .proofBoundary "boundary_hash"
  ensure (b.allowedWritePaths = ["Proof.lean"]) (.valueError "V1 proof boundaries permit only the Proof.lean proof slot")
  ensure (¬ (Occurs "\n:= " b.trustedStatementSource ∨ Occurs ":=" b.trustedStatementSource))
    (.valueError "trusted statement source must not contain a proof body")
  ensure (isNamespace true (rpartitionDot b.expectedDeclaration).1.toList)
    (.valueError "proof boundary declaration namespace is invalid")
  ensure (isDeclaration (rpartitionDot b.expectedDeclaration).2.toList)
    (.valueError "proof boundary declaration name is invalid")
  ensure (b.trustedStatementHash = runtime.digestText .trustedStatement b.trustedStatementSource)
    (.valueError "trusted statement source does not match trusted_statement_hash")
  ensure (b.solverManifestHash = runtime.digestText .workspaceManifest b.renderSolverManifest)
    (.valueError "solver manifest does not match solver_manifest_hash")
  ensure (b.boundaryHash = runtime.digestPayload .proofBoundary b.dump)
    (.valueError "proof boundary does not match boundary_hash")

def validate (runtime : Runtime) (b : BoundaryFields) : Accepts Unit := do
  b.checkFields
  b.validateBoundary runtime

end BoundaryFields

/-- How the models take white space off the ends of a text field. -/
structure Stripping where
  strip : String → String
  strip_strip : ∀ s, strip (strip s) = strip s
  /-- Nothing but white space is taken off. -/
  strip_of : ∀ s, (∀ c ∈ s.toList, isSpace c = false) → strip s = s

def Stripping.fields (stripping : Stripping) (b : BoundaryFields) : BoundaryFields :=
  { b with
    trustedStatementSource := stripping.strip b.trustedStatementSource
    expectedDeclaration := stripping.strip b.expectedDeclaration }

theorem Stripping.fields_fields (stripping : Stripping) (b : BoundaryFields) :
    stripping.fields (stripping.fields b) = stripping.fields b := by
  simp only [fields, stripping.strip_strip]

/-- A boundary model: stripped texts, and every check passed. -/
structure ProofBoundaryV1 (runtime : Runtime) (stripping : Stripping) where
  value : BoundaryFields
  stripped : stripping.fields value = value
  passed : value.validate runtime = .ok ()

variable {runtime : Runtime} {stripping : Stripping}

theorem ProofBoundaryV1.ext_value {a b : ProofBoundaryV1 runtime stripping} (h : a.value = b.value) : a = b := by
  cases a
  cases b
  cases h
  rfl

/-- `ProofBoundaryV1.model_validate(payload)`. -/
def ProofBoundaryV1.modelValidate (runtime : Runtime) (stripping : Stripping) (payload : BoundaryFields) :
    Accepts (ProofBoundaryV1 runtime stripping) :=
  match h : (stripping.fields payload).validate runtime with
  | .ok () => .ok ⟨stripping.fields payload, stripping.fields_fields payload, h⟩
  | .error e => .error e

/-! The boundary of a contract -/

/-- The lines that `render_trusted_statement` joins. -/
def trustedLines (formal : FormalSpecification) : List String :=
  let imports := formal.importsAllowlist.map fun item => "import " ++ item
  (if imports = [] then imports else imports ++ [""]) ++
    ["namespace " ++ formal.namespaceName.value, "", rstrip formal.leanStatementSource.value]

/-- `render_trusted_statement`. -/
def renderTrustedStatement (contract : StatementContract) : Accepts String := do
  ensure (¬ Occurs ":=" (rstrip contract.formal.leanStatementSource.value))
    (.valueError "frozen Lean statement must be a declaration signature without a proof body")
  ensure (isNamespace true contract.formal.namespaceName.value.toList)
    (.valueError "frozen Lean namespace is not a safe qualified identifier")
  ensure (isDeclaration contract.formal.declarationName.value.toList)
    (.valueError "frozen Lean declaration name is not a safe identifier")
  return "\n".intercalate (trustedLines contract.formal)

def StatementContract.qualifiedName (contract : StatementContract) : String :=
  contract.formal.namespaceName.value ++ "." ++ contract.formal.declarationName.value

namespace Runtime
variable (runtime : Runtime)

/-- `contract.semantic_hash()`. -/
def contractHash (contract : StatementContract) : KindedDigest := ⟨.contract, runtime.semanticHash contract.toContractSemantics⟩

/-- The manifest `build_proof_boundary` writes. -/
def manifestPayload (contract : StatementContract) (elaborated : Digest) (source : String) : JsonFields := Text.JsonDict.of [
  ("schema_version", .text "autolean.solver-workspace-manifest.v1"),
  ("contract_hash", .text (runtime.contractHash contract).value),
  ("environment_hash", .text contract.formal.environment.environmentHash.value),
  ("trusted_statement_path", .text "TrustedStatement.lean"),
  ("trusted_statement_hash", .text (runtime.digestText .trustedStatement source).value),
  ("allowed_write_paths", .list [.text "Proof.lean"]), ("candidate_path", .text "Candidate.lean"),
  ("comparator_id", .text "lean-exact-declaration-boundary.v1"),
  ("expected_declaration", .text contract.qualifiedName), ("expected_elaborated_type_hash", .text elaborated.value)]

def solverManifestHash (contract : StatementContract) (elaborated : Digest) (source : String) : KindedDigest :=
  runtime.digestText .workspaceManifest (dumps (runtime.manifestPayload contract elaborated source) ++ "\n")

/-- The payload `build_proof_boundary` hashes. -/
def boundaryPayload (contract : StatementContract) (elaborated : Digest) (source : String) : JsonFields := Text.JsonDict.of [
  ("schema_version", .text "1.0"), ("contract_hash", (runtime.contractHash contract).dump),
  ("environment_hash", (KindedDigest.mk .environment contract.formal.environment.environmentHash).dump),
  ("trusted_statement_path", .text "TrustedStatement.lean"), ("trusted_statement_source", .text source),
  ("trusted_statement_hash", (runtime.digestText .trustedStatement source).dump),
  ("allowed_write_paths", .list [.text "Proof.lean"]), ("candidate_path", .text "Candidate.lean"),
  ("comparator_id", .text "lean-exact-declaration-boundary.v1"), ("expected_declaration", .text contract.qualifiedName),
  ("expected_elaborated_type_hash", (KindedDigest.mk .elaboratedType elaborated).dump),
  ("solver_manifest_hash", (runtime.solverManifestHash contract elaborated source).dump)]

/-- The fields that are then validated. -/
def boundaryFields (contract : StatementContract) (elaborated : Digest) (source : String) : BoundaryFields where
  schemaVersion := "1.0"
  contractHash := runtime.contractHash contract
  environmentHash := ⟨.environment, contract.formal.environment.environmentHash⟩
  trustedStatementPath := "TrustedStatement.lean"
  trustedStatementSource := source
  trustedStatementHash := runtime.digestText .trustedStatement source
  solverManifestHash := runtime.solverManifestHash contract elaborated source
  allowedWritePaths := ["Proof.lean"]
  candidatePath := "Candidate.lean"
  comparatorId := "lean-exact-declaration-boundary.v1"
  expectedDeclaration := contract.qualifiedName
  expectedElaboratedTypeHash := ⟨.elaboratedType, elaborated⟩
  boundaryHash := runtime.digestPayload .proofBoundary (runtime.boundaryPayload contract elaborated source)

/-- `contract.formal.elaborated_type_hash`, which a boundary requires. -/
def requireElaborated (contract : StatementContract) : Accepts Digest :=
  match contract.formal.elaborated with
  | some (_, hash) => .ok hash
  | none => .error (.valueError "a proof boundary requires an elaborated declaration type")

/-- `build_proof_boundary`. -/
def buildProofBoundary (stripping : Stripping) (contract : StatementContract) :
    Accepts (ProofBoundaryV1 runtime stripping) := do
  ensure (contract.status = .frozen) (.valueError "only a frozen contract can create a proof boundary")
  let elaborated ← requireElaborated contract
  let source ← renderTrustedStatement contract
  ProofBoundaryV1.modelValidate runtime stripping (runtime.boundaryFields contract elaborated source)

/-- What `validate_frozen_snapshot` of a bundle checks of its contract and boundary. -/
def checkBoundary (contract : StatementContract) (boundary : BoundaryFields) : Accepts Unit := do
  ensure (contract.status = .frozen) (.valueError "only a frozen statement contract can be bridged")
  ensure (boundary.contractHash = runtime.contractHash contract)
    (.valueError "proof boundary does not bind the frozen contract")
  ensure (boundary.environmentHash = ⟨.environment, contract.formal.environment.environmentHash⟩)
    (.valueError "proof boundary does not bind the contract environment")
  ensure (some boundary.expectedElaboratedTypeHash = contract.formal.elaborated.map fun e => ⟨.elaboratedType, e.2⟩)
    (.valueError "proof boundary does not bind the elaborated declaration type")
  ensure (boundary.expectedDeclaration = contract.qualifiedName)
    (.valueError "proof boundary comparator targets a different declaration")
  let source ← renderTrustedStatement contract
  ensure (boundary.trustedStatementSource = source)
    (.valueError "proof boundary trusted statement differs from the frozen contract")

end Runtime

end Autolean.Builder
