import Autolean.Contracts.Values
import Autolean.Machine.Checked
import Autolean.Machine.Files
import Autolean.Text.JsonRoundTrip
import Autolean.Text.Newlines

/-! The Lake build inputs of a Library root: which files they are, their digest, a copy of
them, and the lock they carry. The functions are the same for a checkout that others edit
and for a private copy. -/
namespace Autolean.Library
open Machine Machine.Raising Text Contracts

inductive VerifyError where
  | systemExit (message : String)
  | osError (e : OsError)
  | unicodeDecodeError
  | jsonDecodeError
  deriving DecidableEq

structure Hashing where
  /-- `hashlib.sha256(payload).digest()`. -/
  sha256 : Bytes → Bytes

section
variable {m : Type → Type} [Monad m] [MonadExcept VerifyError m] {α : Type}

def fail (message : String) : m α := throw (.systemExit ("Library verification failed: " ++ message))

def raise : Except VerifyError α → m α
  | .ok a => pure a
  | .error e => throw e

end

/-- `if not condition: fail(message)`. -/
def require (condition : Prop) [Decidable condition] (message : String) : Except VerifyError Unit :=
  ensure condition (.systemExit ("Library verification failed: " ++ message))

/-! Texts and digests -/

def encode (text : String) : Bytes := text.toUTF8.data.toList

/-- `read_text(encoding="utf-8")` of a file's bytes. -/
def decode (payload : Bytes) : Except VerifyError (List Char) :=
  match String.fromUTF8? ⟨payload.toArray⟩ with
  | some text => .ok (universalNewlines text.toList)
  | none => .error .unicodeDecodeError

def strip (text : List Char) : List Char := trim isSpace text

theorem fromUTF8?_encode (text : String) : String.fromUTF8? ⟨(encode text).toArray⟩ = some text := by
  change String.fromUTF8? ⟨text.toUTF8.data.toList.toArray⟩ = _
  rw [Array.toArray_toList]
  exact dif_pos text.isValidUTF8

theorem decode_encode (text : String) : decode (encode text) = .ok (universalNewlines text.toList) := by
  rw [decode, fromUTF8?_encode]

theorem strip_eq_self {text : List Char} (h : ∀ c ∈ text, isSpace c = false) : strip text = text :=
  Trimmed.trim_eq ⟨fun c hc => h c (List.mem_of_mem_head? hc), fun c hc => h c (List.mem_of_mem_getLast? hc)⟩

def hexByte (b : UInt8) : List Char := [Nat.digitChar (b.toNat / 16), Nat.digitChar (b.toNat % 16)]

def hexdigest (h : Hashing) (payload : Bytes) : String := String.ofList ((h.sha256 payload).flatMap hexByte)

/-! The files of a root -/

def expectedToolchain : String := "leanprover/lean4:v4.28.0"

def expectedPackageRevisions : List (String × String) := [
  ("mathlib", "8f9d9cff6bd728b17a24e163c9402775d9e6a365"),
  ("plausible", "55c8532eb21ec9f6d565d51d96b8ca50bd1fbef3"),
  ("LeanSearchClient", "c5d5b8fe6e5158def25cd28eb94e4141ad97c843"),
  ("importGraph", "85b59af46828c029a9168f2f9c35119bd0721e6e"),
  ("proofwidgets", "be3b2e63b1bbf496c478cef98b86972a37c1417d"),
  ("aesop", "f642a64c76df8ba9cb53dba3b919425a0c2aeaf1"),
  ("Qq", "b8f98e9087e02c8553945a2c5abf07cec8e798c3"),
  ("batteries", "495c008c3e3f4fb4256ff5582ddb3abf3198026f"),
  ("Cli", "4f10f47646cb7d5748d6f423f4a07f98f7bbcc9e")]

def buildInputSchema : String := "autolean.library-build-input-tree.v2"
def buildInputRootFiles : List String := ["lean-toolchain", "lakefile.lean", "lake-manifest.json", "AutoLeanLibrary.lean"]
def dependencyCacheSchema : String := "autolean.library-dependency-cache.v3"
def dependencyTreeSchema : String := "autolean.library-dependency-tree.v1"

/-- A path below the module root that `rglob("*.lean")` yields. -/
def IsModulePath (relative : String) : Prop :=
  "AutoLeanLibrary/".toList <+: relative.toList ∧ ".lean".toList <:+ relative.toList

instance (relative : String) : Decidable (IsModulePath relative) := inferInstanceAs (Decidable (_ ∧ _))

/-- What a walk of a root finds. -/
structure InputListing where
  /-- The path is a file, and no link. -/
  regular : String → Bool
  /-- The module root is a directory, and no link. -/
  moduleRoot : Bool
  leanFiles : List String
  modules : ∀ relative ∈ leanFiles, IsModulePath relative

/-- A directory with the Library's files, read one file at a time. -/
structure Root (m : Type → Type) where
  readBytes : String → m Bytes
  inputs : m InputListing

/-- `_input_relative_paths`, of what the walk finds. UTF-8 keeps the order of the texts. -/
def inputRelativePaths (l : InputListing) : Except VerifyError (List String) := do
  buildInputRootFiles.forM fun relative =>
    require (l.regular relative) ("required build input is missing, linked, or not a file (" ++ relative ++ ")")
  require l.moduleRoot "AutoLeanLibrary module root is missing, linked, or not a directory"
  l.leanFiles.forM fun relative => require (l.regular relative) ("Lean build input is linked or not a file (" ++ relative ++ ")")
  require (buildInputRootFiles ++ l.leanFiles).Nodup "build input allowlist contains a duplicate path"
  pure ((buildInputRootFiles ++ l.leanFiles).insertionSort (· ≤ ·))

/-- The files copied out of a root. -/
abbrev SourceTree := List (String × Bytes)

namespace Root
variable {m : Type → Type} [Monad m] [MonadExcept VerifyError m] (root : Root m)

def readText (relative : String) : m (List Char) := do
  let payload ← root.readBytes relative
  raise (decode payload)

def relativePaths : m (List String) := do
  let found ← root.inputs
  raise (inputRelativePaths found)

/-- The files at the paths, one after the other. -/
def readAll : List String → m SourceTree
  | [] => pure []
  | relative :: rest => do
    let payload ← root.readBytes relative
    let others ← readAll rest
    pure ((relative, payload) :: others)

/-- `_copy_input_tree`. -/
def copyInputTree : m SourceTree := do
  let paths ← root.relativePaths
  root.readAll paths

/-- One line of the digest of a tree. -/
def inputLine (h : Hashing) (f : String × Bytes) : Bytes := encode f.1 ++ [0] ++ h.sha256 f.2 ++ encode "\n"

/-- `input_tree_sha256`. -/
def inputTreeSha256 (h : Hashing) : m String := do
  let paths ← root.relativePaths
  let files ← root.readAll paths
  pure (hexdigest h (encode buildInputSchema ++ encode "\n" ++ (files.map (inputLine h)).flatten))

/-- `_manifest_sha256`. -/
def manifestSha256 (h : Hashing) : m String := do
  let payload ← root.readBytes "lake-manifest.json"
  pure (hexdigest h payload)

/-- `_dependency_cache_key`. -/
def dependencyCacheKey (h : Hashing) : m String := do
  let toolchain ← root.readBytes "lean-toolchain"
  let manifest ← root.readBytes "lake-manifest.json"
  let lakefile ← root.readBytes "lakefile.lean"
  pure (hexdigest h
    ([encode dependencyCacheSchema, encode dependencyTreeSchema, toolchain, manifest, lakefile].intersperse [0]).flatten)

end Root

/-! The lock -/

/-- `json.loads`; a float is never looked at. -/
def jsonHooks : JsonHooks Unit VerifyError where
  malformed := .jsonDecodeError
  pairs d := .ok (dictOf d)
  constant _ := .ok (.float ())
  float _ := ()

/-- The package of one entry of a Lake manifest. -/
def packageRecord (records : JsonDict Unit) : JsonValue Unit → Except VerifyError (JsonDict Unit)
  | .dict package =>
    match JsonDict.get package "name", JsonDict.get package "rev" with
    | some (.str name), some (.str revision) => do
      require (IsHex 40 revision) "every manifest package needs a name and full SHA-1 revision"
      require (name ∉ records.keys) "duplicate package"
      pure (records ++ [(name, .dict package)])
    | _, _ => fail "every manifest package needs a name and full SHA-1 revision"
  | _ => fail "manifest package entry must be an object"

/-- A field of the record of a package. -/
def recordField (records : JsonDict Unit) (name field : String) : Option (JsonValue Unit) :=
  match records.get name with
  | some (.dict package) => JsonDict.get package field
  | _ => none

def isText (value : Option (JsonValue Unit)) (text : String) : Bool :=
  match value with
  | some (.str s) => s = PyText.of text
  | _ => false

def isFalse : Option (JsonValue Unit) → Bool
  | some (.bool b) => !b
  | _ => false

/-- What `check_lock` requires of the manifest. -/
def checkManifest (payload : JsonDict Unit) : Except VerifyError Unit := do
  require (isText (payload.get "version") "1.1.0" ∧ isText (payload.get "name") "AutoLeanLibrary")
    "manifest identity or version changed"
  let packages ← match payload.get "packages" with
    | some (.list packages) => pure packages
    | _ => fail "manifest packages must be an array"
  let records ← packages.foldlM packageRecord []
  require (records.keys.Perm (expectedPackageRevisions.map fun p => PyText.of p.1))
    "manifest package set differs from the reviewed dependency closure"
  expectedPackageRevisions.forM fun p =>
    require (isText (recordField records p.1 "rev") p.2) ("package '" ++ p.1 ++ "' has an unreviewed resolved revision")
  require (isText (recordField records "mathlib" "inputRev") "v4.28.0" ∧ isFalse (recordField records "mathlib" "inherited"))
    "mathlib direct dependency shape changed"

/-- `read_manifest`, of the bytes read. -/
def readManifest (payload : Bytes) : Except VerifyError (JsonDict Unit) := do
  let text ← decode payload
  match jsonHooks.loads text with
  | .ok (.dict d) => pure d
  | .ok _ => fail "manifest root must be an object"
  | .error _ => fail "invalid lake-manifest.json"

def requiredDeclaration : String := "\"https://github.com/leanprover-community/mathlib4.git\" @ \"v4.28.0\""

namespace Root
variable {m : Type → Type} [Monad m] [MonadExcept VerifyError m] (root : Root m)

/-- `except OSError`. -/
def orUnavailable {α : Type} (body : m α) (message : String) : m α :=
  tryCatch body fun e =>
    match e with
    | .osError _ => fail message
    | e => throw e

/-- `check_lock`. -/
def checkLock : m Unit := do
  let texts ← orUnavailable (do
    let toolchain ← root.readText "lean-toolchain"
    let lakefile ← root.readText "lakefile.lean"
    pure (strip toolchain, lakefile)) "required Lake input is unavailable"
  raise (require (texts.1 = expectedToolchain.toList) ("lean-toolchain must be '" ++ expectedToolchain ++ "'"))
  raise (require (requiredDeclaration.toList <:+: texts.2) "lakefile does not declare the pinned mathlib v4.28.0 input")
  let payload ← orUnavailable (root.readBytes "lake-manifest.json") "invalid lake-manifest.json"
  let manifest ← raise (readManifest payload)
  raise (checkManifest manifest)

end Root

/-! A private copy -/

namespace SourceTree
variable (tree : SourceTree)

def paths : List String := tree.map Prod.fst

def listing : InputListing where
  regular relative := relative ∈ tree.map Prod.fst
  moduleRoot := tree.any fun f => "AutoLeanLibrary/".toList.isPrefixOf f.1.toList
  leanFiles := (tree.map Prod.fst).filter fun relative => IsModulePath relative
  modules _ h := of_decide_eq_true (List.mem_filter.mp h).2

def root : Root (Except VerifyError) where
  readBytes relative :=
    match tree.lookup relative with
    | some payload => .ok payload
    | none => .error (.osError .fileNotFound)
  inputs := .ok tree.listing

end SourceTree
end Autolean.Library
