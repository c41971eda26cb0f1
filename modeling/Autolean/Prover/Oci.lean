import Autolean.Prover.Workspace

/-! The fixed container invocation: the worker specification, the request built from it, and
the frozen policy the request is held against. -/
namespace Autolean.Prover
open Contracts Machine Machine.Raising Text ControlPlane

/-! Requests -/

/-- `value <= 0` of a float. -/
def nonPositive : PyFloat → Bool
  | .finite q => q ≤ 0
  | .negInf => true
  | .inf | .nan => false

structure ProcessRequest where
  argv : List String
  cwd : String
  timeoutSeconds : PyFloat
  maxOutputBytes : Int

/-- `"\x00" in arg`: in UTF-8 only this character has a zero byte. -/
def hasNul (arg : String) : Bool := arg.toUTF8.data.toList.contains 0

/-- The constructor's checks. -/
def processRequest (argv : List String) (cwd : String) (timeoutSeconds : PyFloat) (maxOutputBytes : Int) :
    Outcome ProcessRequest := do
  ensure (argv.head?.any (· ≠ "") = true) (.configurationError "process argv must contain an executable")
  ensure (nonPositive timeoutSeconds = false) (.configurationError "process timeout must be positive")
  ensure (0 < maxOutputBytes) (.configurationError "max_output_bytes must be positive")
  ensure (argv.all (!hasNul ·) = true)
    (.configurationError "process argv cannot contain NUL bytes")
  pure ⟨argv, cwd, timeoutSeconds, maxOutputBytes⟩

/-- `^.+@sha256:[0-9a-f]{64}$`. -/
def IsPinnedImage (image : String) : Prop :=
  let reference := image.toList.take (image.toList.length - 72)
  let digest := image.toList.drop (image.toList.length - 72)
  reference ≠ [] ∧ '\n' ∉ reference ∧ digest.take 8 = "@sha256:".toList ∧ IsSha256 (String.ofList (digest.drop 8))

instance (image : String) : Decidable (IsPinnedImage image) := inferInstanceAs (Decidable (_ ∧ _ ∧ _ ∧ _))

/-- `[1-9][0-9]*:[0-9]+`. -/
def IsNumericUser (user : String) : Prop :=
  let uid := user.toList.takeWhile (· ≠ ':')
  let gid := user.toList.drop (uid.length + 1)
  uid.head?.any (fun c => '1' ≤ c && c ≤ '9') = true ∧ uid.all Char.isDigit = true ∧ gid ≠ [] ∧
    gid.all Char.isDigit = true ∧ user.toList = uid ++ ':' :: gid

instance (user : String) : Decidable (IsNumericUser user) := inferInstanceAs (Decidable (_ ∧ _ ∧ _ ∧ _ ∧ _))

/-- The worker configuration as its constructor accepts it. -/
structure OciWorkerSpec where
  runtime : String
  image : String
  dependencyRoot : String
  memoryLimit : String
  pidsLimit : Int
  timeoutSeconds : PyFloat
  maxOutputBytes : Int
  runtimeUser : String
  runtime_nonblank : ¬ Blank runtime
  image_pinned : IsPinnedImage image
  limits_positive : 0 < pidsLimit ∧ nonPositive timeoutSeconds = false ∧ 0 < maxOutputBytes
  user_numeric : IsNumericUser runtimeUser

/-- What the host's file system answers about paths. -/
structure HostFiles where
  /-- `Path.resolve(strict=True)`. -/
  resolve : String → Option String
  isSymlink : String → Bool
  isFile : String → Bool
  isDir : String → Bool

namespace HostFiles

def resolveStrict (host : HostFiles) (path : String) : Outcome String :=
  match host.resolve path with
  | some resolved => .ok resolved
  | none => .error .osError

/-- A candidate mount: a regular file that is not a link. -/
def resolveFile (host : HostFiles) (path linkMessage fileMessage : String) : Outcome String := do
  ensure (host.isSymlink path = false) (.executionPolicyError linkMessage)
  let resolved ← host.resolveStrict path
  ensure (host.isFile resolved = true) (.executionPolicyError fileMessage)
  pure resolved

def resolveDirectory (host : HostFiles) (path linkMessage directoryMessage : String) : Outcome String := do
  ensure (host.isSymlink path = false) (.executionPolicyError linkMessage)
  let resolved ← host.resolveStrict path
  ensure (host.isDir resolved = true) (.executionPolicyError directoryMessage)
  pure resolved

end HostFiles

def modeField : Bool → String
  | true => ",readonly"
  | false => ""

/-- `type=bind,src=...,dst=...[,readonly]`. -/
def bindMount (source destination : String) (readonly : Bool) : String :=
  "type=bind,src=" ++ source ++ ",dst=" ++ destination ++ modeField readonly

/-- The keyword arguments of `OciWorkerHarness.build_request`. -/
structure RequestArguments where
  immutableSource : String
  workspace : String
  command : List String
  immutableCandidate : Option String
  compiledOutputDirectory : Option String
  immutableCompiledCandidate : Option String
  containerName : Option String

/-- `[a-z0-9][a-z0-9_.-]{0,62}`. -/
def IsContainerName (name : String) : Prop :=
  let alphanumeric (c : Char) : Bool := ('a' ≤ c && c ≤ 'z') || c.isDigit
  Text.Headed alphanumeric (fun c => alphanumeric c || c = '_' || c = '.' || c = '-') 63 name.toList

instance (name : String) : Decidable (IsContainerName name) := inferInstanceAs (Decidable (Text.Headed ..))

/-- The value of an optional argument, once it has been resolved. -/
def resolveOptional (resolve : String → Outcome String) : Option String → Outcome (Option String)
  | none => .ok none
  | some path => (resolve path).map some

def OciWorkerSpec.buildRequest (spec : OciWorkerSpec) (host : HostFiles) (a : RequestArguments) :
    Outcome ProcessRequest := do
  ensure (a.command ≠ []) (.executionPolicyError "OCI worker command must not be empty")
  let source ← host.resolveStrict a.immutableSource
  let attempt ← host.resolveStrict a.workspace
  let dependencies ← host.resolveStrict spec.dependencyRoot
  ensure (¬ (a.immutableCandidate.isSome ∧ a.immutableCompiledCandidate.isSome))
    (.executionPolicyError "OCI phase cannot mount source and compiled candidates")
  ensure (¬ (a.compiledOutputDirectory.isSome ∧ a.immutableCandidate = none))
    (.executionPolicyError "OCI compiled output requires a source candidate")
  ensure (∀ name ∈ a.containerName, IsContainerName name)
    (.executionPolicyError "OCI container name is not a safe fixed identifier")
  let candidate ← resolveOptional (host.resolveFile · "immutable OCI candidate must not be a symbolic link"
    "immutable OCI candidate must be a regular file") a.immutableCandidate
  let output ← resolveOptional (host.resolveDirectory · "OCI compiled output directory must not be a link"
    "OCI compiled output must be a directory") a.compiledOutputDirectory
  let compiled ← resolveOptional (host.resolveFile · "sealed OCI candidate must not be a symbolic link"
    "sealed OCI candidate must be a regular file") a.immutableCompiledCandidate
  let mount (path : Option String) (destination : String) (readonly : Bool) : List String :=
    path.elim [] fun p => ["--mount", bindMount p destination readonly]
  processRequest
    ([spec.runtime, "run", "--rm"] ++ a.containerName.elim [] (fun name => ["--name", name]) ++
      ["--network", "none", "--read-only", "--cap-drop", "ALL", "--security-opt", "no-new-privileges",
        "--pids-limit", toString spec.pidsLimit, "--memory", spec.memoryLimit,
        "--tmpfs", "/tmp:rw,noexec,nosuid,size=512m", "--user", spec.runtimeUser,
        "--mount", bindMount source "/source" true, "--mount", bindMount dependencies "/deps" true] ++
      mount candidate "/input/Candidate.lean" true ++ mount output "/output" false ++
      mount compiled "/compiled/Candidate.olean" true ++ ["--workdir", "/work", spec.image] ++ a.command)
    attempt spec.timeoutSeconds spec.maxOutputBytes

/-! The frozen policy -/

/-- `OciVerifierExecutionPolicyV2`. Every field but the digest is a literal. -/
structure OciVerifierExecutionPolicyV2 where
  workerImageDigest : ImageDigest

namespace OciVerifierExecutionPolicyV2

def wrapperProtocol : String := "autolean.oci-lean-wrapper.v2"
def wrapperExecutable : String := "/opt/autolean/bin/autolean-lean-wrapper"
def candidatePath : String := "/input/Candidate.lean"
def compilerOutputPath : String := "/output/Candidate.olean"
def compiledCandidatePath : String := "/compiled/Candidate.olean"
def typeFormat : String := "autolean.lean-pp-expr.v1"
def networkMode : String := "none"
def readOnlyRoot : Bool := true
def dropAllCapabilities : Bool := true
def noNewPrivileges : Bool := true
def sourceMountPath : String := "/source"
def dependenciesMountPath : String := "/deps"
def sourceMountReadOnly : Bool := true
def dependenciesMountReadOnly : Bool := true
def candidateMountReadOnly : Bool := true
def workdir : String := "/work"

def compileWrapperArgv : List String :=
  [wrapperExecutable, "--protocol", wrapperProtocol, "--phase", "compile", "--candidate", candidatePath,
    "--output", compilerOutputPath]

def wrapperArgv (expectedDeclaration : String) : Outcome (List String) := do
  ensure (expectedDeclaration ≠ "" ∧ expectedDeclaration.toList.head?.all (!isSpace ·) = true ∧
      expectedDeclaration.toList.getLast?.all (!isSpace ·) = true)
    (.valueError "expected declaration must be a nonempty canonical identifier")
  ensure ('\x00' ∉ expectedDeclaration.toList ∧ '\n' ∉ expectedDeclaration.toList)
    (.valueError "expected declaration contains a control character")
  pure [wrapperExecutable, "--protocol", wrapperProtocol, "--phase", "query", "--compiled", compiledCandidatePath,
    "--declaration", expectedDeclaration, "--type-format", typeFormat]

end OciVerifierExecutionPolicyV2

/-! The runner's phases -/

/-- A phase with the host paths it mounts beside the source and the dependencies. -/
inductive Phase where
  | compile (candidate output : String)
  | query (sealedCandidate : String)

/-- `OciLeanRunner._compile_wrapper_command`. -/
def compileWrapperCommand : List String :=
  ["/opt/autolean/bin/autolean-lean-wrapper", "--protocol", "autolean.oci-lean-wrapper.v2", "--phase", "compile",
    "--candidate", "/input/Candidate.lean", "--output", "/output/Candidate.olean"]

/-- `OciLeanRunner._wrapper_command`. -/
def wrapperCommand (declaration : String) : List String :=
  ["/opt/autolean/bin/autolean-lean-wrapper", "--protocol", "autolean.oci-lean-wrapper.v2", "--phase", "query",
    "--compiled", "/compiled/Candidate.olean", "--declaration", declaration, "--type-format",
    "autolean.lean-pp-expr.v1"]

def Phase.command (declaration : String) : Phase → List String
  | .compile _ _ => compileWrapperCommand
  | .query _ => wrapperCommand declaration

/-- How the runner calls `build_request` in a phase. -/
def Phase.arguments (source workspace declaration : String) (containerName : Option String) (phase : Phase) :
    RequestArguments :=
  match phase with
  | .compile candidate output =>
    ⟨source, workspace, phase.command declaration, some candidate, some output, none, containerName⟩
  | .query sealedCandidate =>
    ⟨source, workspace, phase.command declaration, none, none, some sealedCandidate, containerName⟩

end Autolean.Prover
