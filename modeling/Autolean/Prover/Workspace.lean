import Autolean.Machine.Raising
import Autolean.Text.Newlines
import Autolean.ControlPlane.Verification

/-! The attempt workspace: protected files, the proof slot a worker may fill, and the
candidate rendered from the frozen header and that slot. -/
namespace Autolean.Prover
open Contracts Machine Machine.Raising Text ControlPlane

/-- What the Prover's verification path can raise. -/
inductive ProverError where
  | validationError (code message : String)
  | workspaceIntegrityError (message : String)
  | executionPolicyError (message : String)
  | configurationError (message : String)
  | valueError (message : String)
  | osError
  | unicodeDecodeError
  deriving DecidableEq

abbrev Outcome := Except ProverError

/-! The files of an attempt directory -/

/-- Where a symbolic link leads: to a name of the workspace, or out of it. -/
inductive LinkTarget where
  | inside (name : String)
  | outside (content : Option ByteArray)

inductive Entry where
  | file (content : ByteArray)
  | directory
  | link (target : LinkTarget)

abbrev Files := String → Option Entry

namespace Files

/-- `Path.read_bytes`. -/
def readBytes (files : Files) (name : String) : Outcome ByteArray :=
  match files name with
  | some (.file content) => .ok content
  | some (.link (.inside target)) =>
    match files target with
    | some (.file content) => .ok content
    | _ => .error .osError
  | some (.link (.outside (some content))) => .ok content
  | _ => .error .osError

/-- `MaterializedWorkspace._resolve` of a plain name. -/
def resolve (files : Files) (name : String) : Outcome Unit :=
  match files name with
  | some (.link (.outside _)) => .error (.workspaceIntegrityError "workspace path escaped its root")
  | _ => .ok ()

/-- Text mode translates the line ends it reads. -/
def decode (content : ByteArray) : Outcome String :=
  match String.fromUTF8? content with
  | some text => .ok (String.ofList (universalNewlines text.toList))
  | none => .error .unicodeDecodeError

/-- `Path.read_text(encoding="utf-8")`. -/
def readText (files : Files) (name : String) : Outcome String :=
  files.readBytes name >>= decode

/-- `Path.write_text(text, encoding="utf-8", newline="\n")` on a slot found safe to write. -/
def writeText (files : Files) (name text : String) : Files :=
  Function.update files name (some (.file text.toUTF8))

/-- `open("a", encoding="utf-8", newline="\n")` and one write, on a slot found safe to write. -/
def appendText (files : Files) (name text : String) : Files :=
  match files name with
  | some (.file content) => Function.update files name (some (.file (content ++ text.toUTF8)))
  | _ => files.writeText name text

end Files

/-! The materialized workspace -/

structure ProtectedFile where
  path : String
  sha256 : String

/-- A hash-bound projection of one Builder handoff. -/
structure FrozenTaskBundleInput where
  bundle : FormalizationTaskBundle
  bundleHash : String
  contractHash : String
  proofBoundaryHash : String
  environmentHash : String

/-- The workspace keeps the bundle of its frozen input. -/
structure MaterializedWorkspace where
  taskInput : FrozenTaskBundleInput
  protectedFiles : List ProtectedFile

def MaterializedWorkspace.bundle (workspace : MaterializedWorkspace) : FormalizationTaskBundle :=
  workspace.taskInput.bundle

/-- The digests and the canonical manifest text the Prover computes. -/
structure Runtime where
  hashing : Hashing
  /-- `hashlib.sha256(content).hexdigest()`. -/
  sha256 : ByteArray → String
  /-- `ProofBoundaryV1.render_solver_manifest`. -/
  renderSolverManifest : ProofBoundary → String
  /-- `\w` of `re`, which word boundaries are about. -/
  isWordChar : Char → Bool

namespace Runtime

/-- `FrozenTaskBundleInput.from_bundle`. -/
def fromBundle (runtime : Runtime) (bundle : FormalizationTaskBundle) : FrozenTaskBundleInput where
  bundle := bundle
  bundleHash := (runtime.hashing.handoffHash bundle.toHandoff).value
  contractHash := (runtime.hashing.semanticHash bundle.contract.toContractSemantics).value
  proofBoundaryHash := bundle.proofBoundary.boundaryHash.value
  environmentHash := bundle.contract.formal.environment.environmentHash.value

/-- `FrozenTaskBundleInput.validate`. -/
def validateInput (runtime : Runtime) (input : FrozenTaskBundleInput) : Outcome Unit := do
  ensure ((runtime.hashing.handoffHash input.bundle.toHandoff).value = input.bundleHash)
    (.validationError "oci_execution_bundle_mutated" "execution input bundle no longer matches its frozen handoff hash")
  ensure ((runtime.hashing.semanticHash input.bundle.contract.toContractSemantics).value = input.contractHash)
    (.validationError "oci_execution_contract_mutated" "execution input contract no longer matches its frozen hash")
  ensure (input.bundle.proofBoundary.boundaryHash.value = input.proofBoundaryHash)
    (.validationError "oci_execution_boundary_mutated"
      "execution input proof boundary no longer matches its frozen hash")
  ensure (input.bundle.contract.formal.environment.environmentHash.value = input.environmentHash)
    (.validationError "oci_execution_environment_mutated"
      "execution input Lean environment no longer matches its frozen hash")

/-- The files `WorkspaceMaterializer.materialize` protects, with their contents. -/
def trustedFiles (runtime : Runtime) (boundary : ProofBoundary) : List (String × ByteArray) :=
  [("TrustedStatement.lean", boundary.trustedStatementSource.value.toUTF8),
    ("bundle-manifest.json", (runtime.renderSolverManifest boundary).toUTF8)]

/-- The workspace of `WorkspaceMaterializer.materialize`. -/
def materialize (runtime : Runtime) (bundle : FormalizationTaskBundle) : MaterializedWorkspace where
  taskInput := runtime.fromBundle bundle
  protectedFiles := (runtime.trustedFiles bundle.proofBoundary).map fun f => ⟨f.1, runtime.sha256 f.2⟩

/-- The directory `WorkspaceMaterializer.materialize` leaves. -/
def materializedFiles (runtime : Runtime) (bundle : FormalizationTaskBundle) : Files :=
  Files.writeText (fun name => ((runtime.trustedFiles bundle.proofBoundary).lookup name).map .file) "Proof.lean" ""

def validateProtected (runtime : Runtime) (files : Files) (f : ProtectedFile) : Outcome Unit := do
  files.resolve f.path
  match files.readBytes f.path with
  | .error _ => throw (.workspaceIntegrityError ("protected workspace file was removed: " ++ f.path))
  | .ok content =>
    ensure (runtime.sha256 content = f.sha256)
      (.workspaceIntegrityError ("protected workspace file changed: " ++ f.path))

def validateIntegrity (runtime : Runtime) (workspace : MaterializedWorkspace) (files : Files) : Outcome Unit := do
  runtime.validateInput workspace.taskInput
  workspace.protectedFiles.forM (runtime.validateProtected files)

end Runtime

/-- Reject worker-created links or non-files before a host-side write. -/
def safeAttemptWritePath (files : Files) (relative : String) : Outcome Unit :=
  match files relative with
  | some (.link _) => .error (.workspaceIntegrityError "attempt write path must not be a symbolic link")
  | some .directory => .error (.workspaceIntegrityError "attempt write path must be a regular file")
  | _ => .ok ()

namespace Runtime

def writeProof (runtime : Runtime) (workspace : MaterializedWorkspace) (proofSource : String) (files : Files) :
    Outcome Files := do
  ensure (¬ Blank proofSource) (.validationError "validation_error" "proof source must not be empty")
  runtime.validateIntegrity workspace files
  safeAttemptWritePath files "Proof.lean"
  runtime.validateIntegrity workspace (files.writeText "Proof.lean" (rstrip proofSource ++ "\n"))
  pure (files.writeText "Proof.lean" (rstrip proofSource ++ "\n"))

/-- Generate the sole compilable theorem file from trusted header bytes and proof slot. -/
def renderCandidate (runtime : Runtime) (workspace : MaterializedWorkspace) (files : Files) : Outcome Files := do
  runtime.validateIntegrity workspace files
  let proof ← files.readText "Proof.lean"
  ensure (¬ Blank proof) (.validationError "validation_error" "proof slot is empty")
  files.resolve "TrustedStatement.lean"
  let header ← files.readText "TrustedStatement.lean"
  safeAttemptWritePath files "Candidate.lean"
  runtime.validateIntegrity workspace (files.writeText "Candidate.lean" (header ++ " := " ++ rstrip proof ++ "\n"))
  pure (files.writeText "Candidate.lean" (header ++ " := " ++ rstrip proof ++ "\n"))

end Runtime
end Autolean.Prover
