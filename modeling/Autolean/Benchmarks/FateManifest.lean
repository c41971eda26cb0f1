import Autolean.Text.JsonRoundTrip
import Autolean.Machine.Checked
import Mathlib.Data.List.DropRight
import Mathlib.Data.List.Dedup

/-! The manifest that pins a FATE checkout: for each problem its source file, the one proof
slot in it and the declaration it belongs to, under the hashes of the release. -/
namespace Autolean.Benchmarks.Fate
open Text Machine

inductive FateError where
  /-- `FateFixtureIntegrityError`. -/
  | integrity (message : String)
  /-- `FateFixtureIntegrityError`, its message followed by the value. -/
  | integrityAbout (message : String) (value : PyText)
  /-- `ValueError`. -/
  | outsideSuite (problem : PyText)
  deriving DecidableEq

abbrev Raises := Except FateError

/-- SHA-256, and how Python reads and writes floats. -/
structure Python (F : Type) where
  /-- `hashlib.sha256(payload).hexdigest()`. -/
  sha256 : ByteArray → PyText
  /-- `float.__repr__`. -/
  floatText : F → List Char
  /-- `float`, of a number or of `NaN`, `Infinity` and `-Infinity`. -/
  readFloat : List Char → F

/-! Problem identifiers -/

inductive Tier where
  | M
  | H
  | X
  deriving DecidableEq

/-- `FATE_TIERS`. -/
def fateTiers : List Tier := [.M, .H, .X]

def Tier.letter : Tier → String
  | .M => "M"
  | .H => "H"
  | .X => "X"

def Tier.text (tier : Tier) : PyText := .of tier.letter

/-- `TIER_COUNTS`. -/
def Tier.count : Tier → Nat
  | .M => 150
  | .H => 100
  | .X => 100

structure FateProblemId where
  tier : Tier
  number : Nat
  deriving DecidableEq

def numeral (n : Nat) : PyText := .ofChars (Nat.toDigits 10 n)

def FateProblemId.canonical (p : FateProblemId) : PyText :=
  PyText.of "FATE-" ++ p.tier.text ++ PyText.of "-" ++ numeral p.number

/-- `[1-9][0-9]*`. -/
def isNumeral : PyText → Bool
  | [] => false
  | c :: rest => between '1' '9' c && rest.all isDigit

/-- `int(digits)`. -/
def readNumeral (digits : PyText) : Nat := Nat.ofDigitChars 10 (digits.map fun c => Char.ofNat c.val) 0

def readTier (text : PyText) : Option Tier := fateTiers.find? fun tier => tier.text = text

/-- `_task_id`. -/
def taskId (value : PyText) : Raises FateProblemId :=
  match readTier ((value.drop 5).take 1) with
  | some tier =>
    if value.take 5 = PyText.of "FATE-" ∧ (value.drop 6).take 1 = PyText.of "-" ∧ isNumeral (value.drop 7) then
      let number := readNumeral (value.drop 7)
      if 1 ≤ number ∧ number ≤ tier.count then .ok ⟨tier, number⟩
      else .error (.outsideSuite (FateProblemId.canonical ⟨tier, number⟩))
    else .error (.integrityAbout "invalid FATE task id" value)
  | none => .error (.integrityAbout "invalid FATE task id" value)

/-! Validation -/

def requireSha256 (value : PyText) (fieldName : String) : Raises Unit :=
  ensure (IsHex 64 value) (.integrity (fieldName ++ " must be a lowercase SHA-256 digest"))

def fatePath (tier : PyText) (number : PyText) : PyText :=
  PyText.of "FATE-" ++ tier ++ PyText.of "/FATE" ++ tier ++ PyText.of "/" ++ number ++ PyText.of ".lean"

/-- `_SAFE_SOURCE_PATH`: `FATE-[MHX]/FATE[MHX]/[1-9][0-9]*\.lean`. -/
def isSourcePath (value : PyText) : Bool :=
  value.take 5 == PyText.of "FATE-" && (readTier ((value.drop 5).take 1)).isSome && (value.drop 6).take 5 == PyText.of "/FATE" &&
    (readTier ((value.drop 11).take 1)).isSome && (value.drop 12).take 1 == PyText.of "/" &&
    isNumeral ((value.drop 13).rdrop 5) && (value.drop 13).rtake 5 == PyText.of ".lean"

/-- The parts of a `PurePosixPath`. -/
def pathParts (value : PyText) : List PyText := (value.splitOn (.ofChar '/')).filter fun part => part ≠ [] ∧ part ≠ .of "."

/-- `_safe_source_path`. -/
def safeSourcePath (value : PyText) : Raises Unit := do
  ensure (isSourcePath value) (.integrityAbout "unsafe or unsupported FATE source path" value)
  ensure (value.head? ≠ some (.ofChar '/') ∧ PyText.of "." ∉ pathParts value ∧ PyText.of ".." ∉ pathParts value)
    (.integrityAbout "FATE source path escapes its checkout" value)

def isNameStart (c : CodePoint) : Bool := between 'A' 'Z' c || between 'a' 'z' c || c == .ofChar '_'

def isNamePart (c : CodePoint) : Bool := isNameStart c || isDigit c || c == .ofChar '\''

/-- `[A-Za-z_][A-Za-z0-9_']*(?:\.[A-Za-z_][A-Za-z0-9_']*)*`, from the start of a component or from inside one. -/
def isQualifiedName : Bool → PyText → Bool
  | start, [] => !start
  | true, c :: rest => isNameStart c && isQualifiedName false rest
  | false, c :: rest => if c = .ofChar '.' then isQualifiedName true rest else isNamePart c && isQualifiedName false rest

def isBlank (c : CodePoint) : Bool := c == .ofChar ' ' || c == .ofChar '\t'

/-- `value.strip(" \t")`. -/
def stripBlanks (value : PyText) : PyText := (value.dropWhile isBlank).rdropWhile isBlank

/-! Slots, targets and tasks -/

structure SlotFields where
  originalToken : PyText
  byteStart : Int
  byteEnd : Int
  tokenSha256 : PyText
  prefixSha256 : PyText
  suffixSha256 : PyText
  mode : PyText
  indentation : PyText

def SlotFields.postInit (s : SlotFields) : Raises Unit := do
  ensure (s.originalToken = .of "sorry") (.integrity "FATE proof slots must originate from exactly 'sorry'")
  ensure (0 ≤ s.byteStart ∧ s.byteEnd = s.byteStart + s.originalToken.length)
    (.integrity "FATE proof slot offsets do not delimit the original token")
  requireSha256 s.tokenSha256 "token_sha256"
  requireSha256 s.prefixSha256 "prefix_sha256"
  requireSha256 s.suffixSha256 "suffix_sha256"
  ensure (s.mode = .of "tactic" ∨ s.mode = .of "term") (.integrity "FATE proof slot mode is unsupported")
  ensure (stripBlanks s.indentation = []) (.integrity "FATE proof slot indentation must contain only spaces or tabs")
  ensure (¬ (s.mode = .of "term" ∧ s.indentation ≠ []))
    (.integrity "term FATE proof slots must not record tactic indentation")

abbrev FateProofSlotV1 := Checked SlotFields.postInit

structure TargetFields where
  qualifiedName : PyText
  declarationStart : Int
  signatureSha256 : PyText

def TargetFields.postInit (t : TargetFields) : Raises Unit := do
  ensure (isQualifiedName true t.qualifiedName) (.integrity "FATE target has an unsafe Lean declaration name")
  ensure (0 ≤ t.declarationStart) (.integrity "FATE target declaration offset is negative")
  requireSha256 t.signatureSha256 "signature_sha256"

abbrev FateTargetV1 := Checked TargetFields.postInit

structure TaskFields where
  taskId : PyText
  split : PyText
  sourcePath : PyText
  sourceSha256 : PyText
  proofSlot : FateProofSlotV1
  target : FateTargetV1

def TaskFields.postInit (t : TaskFields) : Raises Unit := do
  let problem ← Fate.taskId t.taskId
  ensure (problem.tier.text = t.split) (.integrity "FATE task ID and split disagree")
  ensure (t.sourcePath = fatePath t.split (numeral problem.number))
    (.integrity "FATE task source path does not match its stable task ID")
  safeSourcePath t.sourcePath
  requireSha256 t.sourceSha256 "source_sha256"

abbrev FateFixtureTaskV1 := Checked TaskFields.postInit

/-! The manifest -/

/-- The items of a `Mapping[Tier, str]`. -/
abbrev TierMapping := List (Tier × PyText)

def TierMapping.keys (m : TierMapping) : List Tier := m.map Prod.fst

structure LockFields where
  rootCommit : PyText
  leanVersion : PyText
  mathlibRevision : PyText
  submodules : TierMapping
  metadataJsonSha256 : TierMapping
  lakeManifestSha256 : TierMapping

def checkHashes (m : TierMapping) (name : String) (length : Nat) : Raises Unit :=
  m.forM fun item => ensure (IsHex length item.2) (.integrity ("FATE " ++ item.1.letter ++ " " ++ name ++ " has an invalid hash"))

/-- `FateFixtureLockV1.__post_init__`. -/
def LockFields.postInit (l : LockFields) : Raises Unit := do
  ensure (IsHex 40 l.rootCommit) (.integrity "FATE root commit is not a full Git SHA")
  ensure (l.leanVersion = .of "v4.28.0" ∨ l.leanVersion = .of "leanprover/lean4:v4.28.0")
    (.integrity "AutoLean only supports the pinned FATE Lean v4.28.0")
  ensure (IsHex 40 l.mathlibRevision) (.integrity "FATE mathlib revision is not a full Git SHA")
  ensure (l.submodules.keys.Perm fateTiers) (.integrity "FATE lock must declare M, H, and X submodules")
  ensure (l.metadataJsonSha256.keys.Perm fateTiers ∧ l.lakeManifestSha256.keys.Perm fateTiers)
    (.integrity "FATE lock must hash metadata and lake manifests for every split")
  checkHashes l.submodules "submodule" 40
  checkHashes l.metadataJsonSha256 "metadata JSON" 64
  checkHashes l.lakeManifestSha256 "lake manifest" 64

structure ManifestFields where
  rootCommit : PyText
  submodules : TierMapping
  toolchain : PyText
  mathlibCommit : PyText
  lakeManifestSha256 : TierMapping
  metadataJsonSha256 : TierMapping
  tasks : List FateFixtureTaskV1
  schemaVersion : PyText
  benchmark : PyText
  release : PyText

def expectedIds : List PyText :=
  fateTiers.flatMap fun tier => (List.range' 1 tier.count).map fun number => FateProblemId.canonical ⟨tier, number⟩

namespace ManifestFields

def lock (m : ManifestFields) : LockFields where
  rootCommit := m.rootCommit
  leanVersion := m.toolchain
  mathlibRevision := m.mathlibCommit
  submodules := m.submodules
  metadataJsonSha256 := m.metadataJsonSha256
  lakeManifestSha256 := m.lakeManifestSha256

def ids (m : ManifestFields) : List PyText := m.tasks.map fun task => task.value.taskId

def postInit (m : ManifestFields) : Raises Unit := do
  m.lock.postInit
  ensure (m.schemaVersion = .of "FateFixtureManifestV1" ∧ m.benchmark = .of "FATE")
    (.integrity "unsupported FATE fixture manifest schema")
  ensure (m.release = .of "v4.28.0") (.integrity "FATE fixture manifest release must be v4.28.0")
  ensure (((∀ id ∈ m.ids, id ∈ expectedIds) ∧ ∀ id ∈ expectedIds, id ∈ m.ids) ∧ m.tasks.length = expectedIds.dedup.length)
    (.integrity "FATE fixture manifest must contain all 350 unique tasks")

end ManifestFields

abbrev FateFixtureManifestV1 := Checked ManifestFields.postInit

/-! Writing -/

variable {F : Type}

def SlotFields.toDict (s : SlotFields) : JsonDict F := JsonDict.of [
  ("original_token", .str s.originalToken), ("byte_start", .int s.byteStart), ("byte_end", .int s.byteEnd),
  ("token_sha256", .str s.tokenSha256), ("prefix_sha256", .str s.prefixSha256), ("suffix_sha256", .str s.suffixSha256),
  ("mode", .str s.mode), ("indentation", .str s.indentation)]

def TargetFields.toDict (t : TargetFields) : JsonDict F := JsonDict.of [
  ("qualified_name", .str t.qualifiedName), ("declaration_start", .int t.declarationStart),
  ("signature_sha256", .str t.signatureSha256)]

def TaskFields.toDict (t : TaskFields) : JsonDict F := JsonDict.of [
  ("id", .str t.taskId), ("split", .str t.split), ("source_path", .str t.sourcePath), ("source_sha256", .str t.sourceSha256),
  ("proof_slot", .dict t.proofSlot.value.toDict), ("target", .dict t.target.value.toDict)]

/-- `dict(sorted(mapping.items()))`. -/
def TierMapping.toDict (m : TierMapping) : JsonDict F :=
  (m.map fun item => (item.1.text, JsonTree.str item.2)).insertionSort fun a b => a.1 ≤ b.1

namespace ManifestFields

def sortedTasks (m : ManifestFields) : List FateFixtureTaskV1 :=
  m.tasks.insertionSort fun a b => a.value.taskId ≤ b.value.taskId

def toDict (m : ManifestFields) : JsonDict F := JsonDict.of [
  ("schema_version", .str m.schemaVersion), ("benchmark", .str m.benchmark), ("release", .str m.release),
  ("root_commit", .str m.rootCommit), ("submodules", .dict m.submodules.toDict), ("toolchain", .str m.toolchain),
  ("mathlib_commit", .str m.mathlibCommit), ("lake_manifest_sha256", .dict m.lakeManifestSha256.toDict),
  ("metadata_json_sha256", .dict m.metadataJsonSha256.toDict),
  ("tasks", .list (m.sortedTasks.map fun task => .dict task.value.toDict))]

variable (py : Python F)

def toJson (m : ManifestFields) : List Char := (JsonTree.dict m.toDict).dumps py.floatText ++ ['\n']

def contentHash (m : ManifestFields) : PyText := py.sha256 (String.ofList (m.toJson py)).toUTF8

/-- `FateFixtureManifestV1.task`. -/
def task (m : ManifestFields) (id : PyText) : Raises FateFixtureTaskV1 := do
  let problem ← Fate.taskId id
  match m.tasks.find? fun task => task.value.taskId = problem.canonical with
  | some task => .ok task
  | none => .error (.integrityAbout "FATE task is absent from the immutable manifest" problem.canonical)

end ManifestFields

/-! Reading -/

inductive LoadError where
  | jsonDecodeError
  deriving DecidableEq

/-- `json.loads` without hooks. -/
def hooks (py : Python F) : JsonHooks F LoadError where
  malformed := .jsonDecodeError
  pairs d := .ok (dictOf d)
  constant c := .ok (.float (py.readFloat c))
  float := py.readFloat

def rawText (value : Option (JsonValue F)) (e : FateError) : Raises PyText :=
  match value with
  | some (.str s) => .ok s
  | _ => .error e

def rawInteger (value : Option (JsonValue F)) (e : FateError) : Raises Int :=
  match value with
  | some (.int n) => .ok n
  | _ => .error e

def rawDict (value : Option (JsonValue F)) (e : FateError) : Raises (JsonDict F) :=
  match value with
  | some (.dict d) => .ok d
  | _ => .error e

def rawList (value : Option (JsonValue F)) (e : FateError) : Raises (List (JsonValue F)) :=
  match value with
  | some (.list items) => .ok items
  | _ => .error e

/-- `set(raw) == set(names)`. -/
def HasKeys (d : JsonDict F) (names : List PyText) : Prop := (∀ k ∈ d.keys, k ∈ names) ∧ ∀ k ∈ names, k ∈ d.keys

instance (d : JsonDict F) (names : List PyText) : Decidable (HasKeys d names) := inferInstanceAs (Decidable (_ ∧ _))

/-- `FateProofSlotV1.from_dict`. -/
def slotFromDict (value : Option (JsonValue F)) : Raises FateProofSlotV1 := do
  let raw ← rawDict value (.integrity "proof_slot must be an object")
  ensure (∀ name ∈ ["original_token", "byte_start", "byte_end", "token_sha256", "prefix_sha256", "suffix_sha256", "mode",
      "indentation"], (raw.get name).isSome) (.integrity "proof_slot is missing required fields")
  let invalid := FateError.integrity "proof_slot fields have invalid types"
  let originalToken ← rawText (raw.get "original_token") invalid
  let byteStart ← rawInteger (raw.get "byte_start") invalid
  let byteEnd ← rawInteger (raw.get "byte_end") invalid
  let tokenSha256 ← rawText (raw.get "token_sha256") invalid
  let prefixSha256 ← rawText (raw.get "prefix_sha256") invalid
  let suffixSha256 ← rawText (raw.get "suffix_sha256") invalid
  let mode ← rawText (raw.get "mode") invalid
  ensure (mode = .of "tactic" ∨ mode = .of "term") invalid
  let indentation ← rawText (raw.get "indentation") invalid
  Checked.make SlotFields.postInit
    { originalToken, byteStart, byteEnd, tokenSha256, prefixSha256, suffixSha256, mode, indentation }

/-- `FateTargetV1.from_dict`. -/
def targetFromDict (value : Option (JsonValue F)) : Raises FateTargetV1 := do
  let raw ← rawDict value (.integrity "target must be an object")
  let invalid := FateError.integrity "target fields have invalid types"
  let qualifiedName ← rawText (raw.get "qualified_name") invalid
  let declarationStart ← rawInteger (raw.get "declaration_start") invalid
  let signatureSha256 ← rawText (raw.get "signature_sha256") invalid
  Checked.make TargetFields.postInit { qualifiedName, declarationStart, signatureSha256 }

/-- `FateFixtureTaskV1.from_dict`. -/
def taskFromDict (value : JsonValue F) : Raises FateFixtureTaskV1 := do
  let raw ← rawDict (some value) (.integrity "FATE task must be an object")
  let invalid := FateError.integrity "FATE task fields have invalid types"
  let taskId ← rawText (raw.get "id") invalid
  let split ← rawText (raw.get "split") invalid
  ensure (∃ tier ∈ fateTiers, split = tier.text) invalid
  let sourcePath ← rawText (raw.get "source_path") invalid
  let sourceSha256 ← rawText (raw.get "source_sha256") invalid
  let proofSlot ← slotFromDict (raw.get "proof_slot")
  let target ← targetFromDict (raw.get "target")
  Checked.make TaskFields.postInit { taskId, split, sourcePath, sourceSha256, proofSlot, target }

def mappingFromDict (raw : JsonDict F) (name : String) : Raises TierMapping := do
  let value ← rawDict (raw.get name) (.integrity ("FATE fixture manifest has invalid " ++ name))
  ensure (HasKeys value (fateTiers.map Tier.text)) (.integrity ("FATE fixture manifest has invalid " ++ name))
  fateTiers.mapM fun tier => do
    let item ← rawText (value.lookup tier.text)
      (.integrity ("FATE fixture manifest " ++ name ++ "." ++ tier.letter ++ " must be text"))
    return (tier, item)

/-- `FateFixtureManifestV1.from_dict`. -/
def fromDict (value : JsonValue F) : Raises FateFixtureManifestV1 := do
  let raw ← rawDict (some value) (.integrity "FATE fixture manifest root must be an object")
  ensure (HasKeys raw (["schema_version", "benchmark", "release", "root_commit", "submodules", "toolchain", "mathlib_commit",
      "lake_manifest_sha256", "metadata_json_sha256", "tasks"].map PyText.of))
    (.integrity "FATE fixture manifest has unexpected fields")
  let missing := FateError.integrity "FATE fixture manifest has missing scalar fields"
  let schemaVersion ← rawText (raw.get "schema_version") missing
  let benchmark ← rawText (raw.get "benchmark") missing
  let release ← rawText (raw.get "release") missing
  let rootCommit ← rawText (raw.get "root_commit") missing
  let toolchain ← rawText (raw.get "toolchain") missing
  let mathlibCommit ← rawText (raw.get "mathlib_commit") missing
  let submodules ← mappingFromDict raw "submodules"
  let lakeManifestSha256 ← mappingFromDict raw "lake_manifest_sha256"
  let metadataJsonSha256 ← mappingFromDict raw "metadata_json_sha256"
  let tasksRaw ← rawList (raw.get "tasks") (.integrity "FATE fixture manifest tasks must be a list")
  let tasks ← tasksRaw.mapM taskFromDict
  Checked.make ManifestFields.postInit
    { rootCommit, submodules, toolchain, mathlibCommit, lakeManifestSha256, metadataJsonSha256, tasks, schemaVersion,
      benchmark, release }

end Autolean.Benchmarks.Fate
