import Autolean.Prover.Oci
import Autolean.Text.CommandLine
import Autolean.Text.Records

/-! The check of an invocation against the frozen policy, and what a container runtime makes
of the invocation that passes it. -/
namespace Autolean.Prover
open Contracts Machine Machine.Raising Text ControlPlane

/-! The check -/

/-- `OciLeanRunner._require_v2_policy`. -/
def requireV2Policy (bundle : FormalizationTaskBundle) : Outcome OciVerifierExecutionPolicyV2 :=
  match bundle.contract.formal.environment.verifierExecutionPolicy.version with
  | .v2 => .ok ⟨bundle.contract.formal.environment.verifierExecutionPolicy.workerImageDigest⟩
  | .v1 => .error (.validationError "oci_execution_policy_version_unsupported"
      "the two-phase OCI runner requires an explicit V2 policy and a new statement-contract revision")

/-- `image.rsplit("@", maxsplit=1)[1]`. -/
def imageDigest (image : String) : String :=
  String.ofList (image.toList.rtakeWhile (· ≠ '@'))

/-- `path.rpartition("/")[0]`. -/
def parentPath (path : String) : String :=
  String.ofList (path.toList.rdropWhile (· ≠ '/')).dropLast

def adjacent (argv : List String) : List (String × String) := argv.zip argv.tail

def hasOption (argv : List String) (option expected : String) : Bool :=
  (adjacent argv).any fun p => p.1 = option && p.2 = expected

/-- `value.split(",")`. -/
def commaFields (value : String) : List (List Char) := value.toList.splitOn ','

def hasMount (argv : List String) (destination : String) (readonly : Bool) : Bool :=
  (adjacent argv).any fun p => p.1 = "--mount" && (commaFields p.2).contains ("dst=" ++ destination).toList &&
    (commaFields p.2).contains "readonly".toList == readonly

def mountDestinations (argv : List String) : List String :=
  ((adjacent argv).filter (·.1 = "--mount")).flatMap fun p =>
    (commaFields p.2).filterMap fun field =>
      if "dst=".toList.isPrefixOf field then some (String.ofList (field.drop 4)) else none

def imageOwnedPaths : List String :=
  ["/opt", "/opt/autolean", "/opt/autolean/bin", "/opt/autolean/bin/autolean-lean-wrapper", "/opt/autolean/lib",
    "/opt/autolean/lib/AutoleanLeanQuery.lean"]

section
open OciVerifierExecutionPolicyV2

def Phase.expectedWrapper (declaration : String) : Phase → Outcome (List String)
  | .compile _ _ => .ok compileWrapperArgv
  | .query _ => wrapperArgv declaration

/-- The destinations a phase mounts, and whether each is read-only. -/
def Phase.requiredMounts (phase : Phase) : List (String × Bool) :=
  [(sourceMountPath, sourceMountReadOnly), (dependenciesMountPath, dependenciesMountReadOnly)] ++
    match phase with
    | .compile _ _ => [(candidatePath, candidateMountReadOnly), (parentPath compilerOutputPath, false)]
    | .query _ => [(compiledCandidatePath, true)]

/-- Refuse to run unless the frozen OCI policy matches the actual fixed invocation. -/
def OciWorkerSpec.validateExecutionPolicy (spec : OciWorkerSpec) (bundle : FormalizationTaskBundle)
    (request : ProcessRequest) (phase : Phase) : Outcome Unit := do
  let policy ← requireV2Policy bundle
  ensure (imageDigest spec.image = policy.workerImageDigest.value)
    (.validationError "oci_worker_image_policy_mismatch"
      "OCI worker image digest differs from the frozen verifier policy")
  let declaration := bundle.proofBoundary.expectedDeclaration.value
  let expected ← phase.expectedWrapper declaration
  ensure (phase.command declaration = expected)
    (.validationError "oci_wrapper_command_policy_mismatch"
      "OCI wrapper command differs from the frozen verifier policy")
  ensure (hasOption request.argv "--network" networkMode = true)
    (.validationError "oci_network_policy_mismatch"
      "OCI invocation does not satisfy the frozen no-network policy")
  ensure (readOnlyRoot = true → "--read-only" ∈ request.argv)
    (.validationError "oci_read_only_root_policy_mismatch"
      "OCI invocation does not satisfy the frozen read-only-root policy")
  ensure (dropAllCapabilities = true → hasOption request.argv "--cap-drop" "ALL" = true)
    (.validationError "oci_capability_policy_mismatch"
      "OCI invocation does not satisfy the frozen capability policy")
  ensure (noNewPrivileges = true → hasOption request.argv "--security-opt" "no-new-privileges" = true)
    (.validationError "oci_privilege_policy_mismatch"
      "OCI invocation does not satisfy the frozen privilege policy")
  ensure (hasOption request.argv "--user" spec.runtimeUser = true)
    (.validationError "oci_runtime_user_policy_mismatch"
      "OCI invocation does not use the configured numeric non-root host identity")
  phase.requiredMounts.forM fun m => ensure (hasMount request.argv m.1 m.2 = true)
    (.validationError "oci_mount_policy_mismatch" "OCI invocation does not satisfy the frozen mount policy")
  ensure (hasOption request.argv "--workdir" workdir = true)
    (.validationError "oci_workdir_policy_mismatch"
      "OCI invocation does not satisfy the frozen working-directory policy")
  ensure (spec.image ∈ request.argv)
    (.validationError "oci_worker_image_missing" "OCI invocation does not contain the configured worker image")
  ensure (request.argv.drop (request.argv.idxOf spec.image + 1) = expected)
    (.validationError "oci_wrapper_command_policy_mismatch"
      "OCI invocation wrapper suffix differs from the frozen verifier policy")
  imageOwnedPaths.forM fun path => ensure (hasMount request.argv path false = false)
    (.validationError "oci_image_owned_mount" "OCI invocation may not host-mount an image-owned verifier path")
  let allowed := phase.requiredMounts.map (·.1)
  ensure ((∀ d ∈ mountDestinations request.argv, d ∈ allowed) ∧ ∀ d ∈ allowed, d ∈ mountDestinations request.argv)
    (.validationError "oci_mount_policy_mismatch" "OCI invocation contains an unexpected phase mount")
  ensure (hasMount request.argv workdir false = false)
    (.validationError "oci_workspace_mount_forbidden"
      "OCI compile/query phases may not mount the attempt workspace")

/-- The host paths of a phase, each with the destination and the mode the policy gives it. -/
def Phase.binds (spec : OciWorkerSpec) (source : String) (phase : Phase) : List (String × String × Bool) :=
  [(source, sourceMountPath, sourceMountReadOnly), (spec.dependencyRoot, dependenciesMountPath, dependenciesMountReadOnly)] ++
    match phase with
    | .compile candidate output =>
      [(candidate, candidatePath, candidateMountReadOnly), (output, parentPath compilerOutputPath, false)]
    | .query sealedCandidate => [(sealedCandidate, compiledCandidatePath, true)]

end

/-! The container runtime -/

structure Mount where
  type : String
  source : String
  target : String
  readonly : Bool
  others : List String
  deriving DecidableEq

def flagOptions : List String := ["--rm", "--read-only"]

def valuedOptions : List String :=
  ["--name", "--network", "--cap-drop", "--security-opt", "--pids-limit", "--memory", "--tmpfs", "--user", "--mount",
    "--workdir"]

/-- The options the harness writes. -/
def optionNames : List String := flagOptions ++ valuedOptions

/-- What a runtime documents of its command line: the options it knows, and the fields of a
mount it takes beside the ones that are read here. -/
structure RunGrammar where
  arity : String → Option Arity
  otherField : String → Bool
  flags : ∀ o ∈ flagOptions, arity o = some .flag
  valued : ∀ o ∈ valuedOptions, arity o = some .valued

def parseBool (value : String) : Option Bool :=
  if value ∈ ["1", "t", "T", "TRUE", "true", "True"] then some true
  else if value ∈ ["0", "f", "F", "FALSE", "false", "False"] then some false
  else none

namespace RunGrammar

/-- A field that is one word. -/
def setWord (g : RunGrammar) (m : Mount) (word : String) : Option Mount :=
  if word ∈ ["readonly", "ro"] then some { m with readonly := true }
  else if g.otherField word then some { m with others := m.others ++ [word] }
  else none

/-- A later value of a field overrides an earlier one. -/
def setValue (g : RunGrammar) (m : Mount) (key value : String) : Option Mount :=
  if key = "type" then some { m with type := value }
  else if key ∈ ["src", "source"] then some { m with source := value }
  else if key ∈ ["dst", "destination", "target"] then some { m with target := value }
  else if key ∈ ["readonly", "ro"] then (parseBool value).map fun b => { m with readonly := b }
  else if g.otherField key then some { m with others := m.others ++ [key ++ "=" ++ value] }
  else none

def setField (g : RunGrammar) (m : Mount) (field : List Char) : Option Mount :=
  match field.dropWhile (· ≠ '=') with
  | [] => g.setWord m (String.ofList field)
  | _ :: value => g.setValue m (String.ofList (field.takeWhile (· ≠ '='))) (String.ofList value)

def parseMount (g : RunGrammar) (value : String) : Option Mount :=
  (readRecord value.toList).bind fun fields => fields.foldlM g.setField ⟨"volume", "", "", false, []⟩

/-- `RUNTIME run OPTIONS IMAGE COMMAND`. -/
def parseRun (g : RunGrammar) : List String → Option CommandLine
  | _ :: "run" :: rest => parseOptions g.arity rest
  | _ => none

end RunGrammar

def optionValues (line : CommandLine) (name : String) : List (Option String) :=
  (line.options.filter (·.1 = name)).map (·.2)

end Autolean.Prover
