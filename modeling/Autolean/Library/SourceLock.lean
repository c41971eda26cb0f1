import Autolean.Text.JsonRoundTrip
import Autolean.Machine.Crashes
import Autolean.Machine.Files

/-! The lock of the source archives of the Lake dependencies: the packages of a manifest, the lock
document, the check of an archive, and the update that resumes from what is cached. -/
namespace Autolean.Library.SourceLock
open Machine Machine.Raising Text

/-- What the functions raise. -/
inductive LockFault where
  | sourceLock (message : PyText)
  | indexError
  | osError
  deriving DecidableEq

abbrev Raises := Except LockFault

/-- `raise SourceLockError(f"{before}{name}{after}")`. -/
def lockErrorFor {α : Type} (before : String) (name : PyText) (after : String) : Raises α :=
  .error (.sourceLock (PyText.of before ++ name ++ PyText.of after))

/-- `raise SourceLockError(message)`. -/
def lockError {α : Type} (message : String) : Raises α := lockErrorFor message [] ""

/-- `if not condition: raise SourceLockError(f"{before}{name}{after}")`. -/
def requireFor (condition : Prop) [Decidable condition] (before : String) (name : PyText)
    (after : String) : Raises Unit :=
  ensure condition (.sourceLock (PyText.of before ++ name ++ PyText.of after))

/-- `if not condition: raise SourceLockError(message)`. -/
def require (condition : Prop) [Decidable condition] (message : String) : Raises Unit :=
    requireFor condition message [] ""

/-- What `urlsplit` makes of a text. -/
structure SplitUrl where
  scheme : PyText
  hostname : Option PyText
  hasPort : Bool
  hasUsername : Bool
  hasPassword : Bool
  path : PyText
  query : PyText
  fragment : PyText

inductive MemberKind where
  | file
  | directory
  | symlink (linkname : PyText)
  | hardLink
  | special

structure TarMember where
  name : PyText
  kind : MemberKind
  size : Int

/-- What the code calls. -/
structure Tools where
  /-- `urlsplit`, with its authority; `none` when it raises `ValueError`. -/
  urlsplit : PyText → Option SplitUrl
  casefold : PyText → PyText
  sha256 : Bytes → PyText
  sha256_hex : ∀ content, IsHex 64 (sha256 content)
  /-- The members `tarfile` yields, and whether it comes to the end of the archive. -/
  members : Bytes → List TarMember × Bool

/-! Paths -/

def slash : CodePoint := CodePoint.ofChar '/'

/-- The components of `PurePosixPath(text)`. -/
def components (text : PyText) : List PyText :=
  (text.splitOn slash).filter fun part => part ≠ [] ∧ part ≠ PyText.of "."

def isAbsolute (text : PyText) : Bool := text.head? = some slash

/-- `path.as_posix()` of components. -/
def asPosix (parts : List PyText) : PyText := [slash].intercalate parts

def isAlphanumeric (c : CodePoint) : Bool := between 'A' 'Z' c || between 'a' 'z' c || between '0' '9' c

/-- `SAFE_PACKAGE_NAME_RE.fullmatch` and `SAFE_REPOSITORY_COMPONENT_RE.fullmatch`. -/
def IsSafeName (text : PyText) : Prop :=
  (text.all fun c => isAlphanumeric c || oneOf "_.-" c) ∧ text.head?.any isAlphanumeric ∧
    text.getLast?.any isAlphanumeric

instance IsSafeName.decidable (text : PyText) : Decidable (IsSafeName text) := inferInstanceAs (Decidable (_ ∧ _ ∧ _))

/-- `re.fullmatch(r"[A-Za-z]:", part)`. -/
def IsDrive (part : PyText) : Prop :=
  part.length = 2 ∧ part.head?.any (fun c => between 'A' 'Z' c || between 'a' 'z' c) ∧
    part.getLast? = some (CodePoint.ofChar ':')

instance IsDrive.decidable (part : PyText) : Decidable (IsDrive part) := inferInstanceAs (Decidable (_ ∧ _ ∧ _))

/-! The packages of a manifest -/

structure GitPackage where
  name : PyText
  url : PyText
  rev : PyText
  owner : PyText
  repository : PyText
  archiveUrl : PyText
  deriving DecidableEq

def expectedGitPackages : Nat := 9

/-- `_github_coordinates`. -/
def githubCoordinates (tools : Tools) (url : PyText) : Raises (PyText × PyText) :=
  match tools.urlsplit url with
  | none => lockError "git package URL has an invalid HTTPS authority"
  | some parsed => do
    require (parsed.scheme = PyText.of "https" ∧ parsed.hostname.map tools.casefold = some (PyText.of "github.com") ∧
        parsed.hasPort = false ∧ parsed.hasUsername = false ∧ parsed.hasPassword = false ∧ parsed.query = [] ∧
        parsed.fragment = [] ∧ CodePoint.ofChar '%' ∉ parsed.path)
      "git package URL must be credential-free HTTPS github.com"
    let singleRoot := isAbsolute parsed.path ∧ (parsed.path[1]? ≠ some slash ∨ parsed.path[2]? = some slash)
    match components parsed.path with
    | [owner, named] => do
      require singleRoot "git package URL must name one GitHub owner and repository"
      let repository := if PyText.of ".git" <:+ named then named.dropLast.dropLast.dropLast.dropLast else named
      require (IsSafeName owner ∧ IsSafeName repository ∧ owner ≠ PyText.of "." ∧ owner ≠ PyText.of ".." ∧
          repository ≠ PyText.of "." ∧ repository ≠ PyText.of "..")
        "git package URL contains an invalid repository component"
      pure (owner, repository)
    | _ => lockError "git package URL must name one GitHub owner and repository"

/-- `value == text` for a value of a JSON document. -/
def isText (value : Option (JsonValue Unit)) (text : PyText) : Bool :=
  match value with
  | some (.str s) => s = text
  | _ => false

/-- One entry of the manifest; `seen` are the folded names before it. -/
def readGitPackage (tools : Tools) (seen : List PyText) (index : Nat) : JsonValue Unit → Raises GitPackage
  | .dict package => do
    let label := "Lake package " ++ toString index
    require (isText (JsonDict.get package "type") (PyText.of "git"))
      (label ++ " is not a git dependency")
    match JsonDict.get package "name" with
    | some (.str name) => do
      require (IsSafeName name) (label ++ " has an invalid name")
      requireFor (tools.casefold name ∉ seen) "Lake package name is not unique: " name ""
      match JsonDict.get package "url", JsonDict.get package "rev" with
      | some (.str url), some (.str rev) => do
        requireFor (IsHex 40 rev) "Lake package " name " rev must be a lowercase 40-hex commit"
        let (owner, repository) ← githubCoordinates tools url
        pure ⟨name, url, rev, owner, repository,
          PyText.of "https://codeload.github.com/" ++ owner ++ [slash] ++ repository ++ PyText.of "/tar.gz/" ++ rev⟩
      | some (.str _), _ => lockErrorFor "Lake package " name " rev must be a lowercase 40-hex commit"
      | _, _ => lockErrorFor "Lake package " name " has no URL"
    | _ => lockError (label ++ " has an invalid name")
  | _ => lockError ("Lake package " ++ toString index ++ " must be a JSON object")

def readPackages (tools : Tools) : List PyText → Nat → List (JsonValue Unit) → Raises (List GitPackage)
  | _, _, [] => pure []
  | seen, index, raw :: rest => do
    let package ← readGitPackage tools seen index raw
    let others ← readPackages tools (tools.casefold package.name :: seen) (index + 1) rest
    pure (package :: others)

/-- A file with JSON: what it reads as, or nothing when it cannot be read. -/
abbrev JsonFile := Option (JsonValue Unit)

/-- `_read_json`, of what the file reads as. -/
def readJson (label : String) : JsonFile → Raises (JsonDict Unit)
  | none => lockError (label ++ " is not readable canonical JSON")
  | some (.dict document) => .ok document
  | some _ => lockError (label ++ " must be a JSON object")

structure Manifest where
  json : JsonFile
  sha256 : PyText

/-- `read_git_packages`. -/
def readGitPackages (tools : Tools) (manifest : Manifest) : Raises (List GitPackage) := do
  let document ← readJson "Lake manifest" manifest.json
  match JsonDict.get document "packages" with
  | some (.list raw) => do
    require (raw.length = expectedGitPackages) "Lake manifest must contain exactly 9 git packages"
    readPackages tools [] 0 raw
  | _ => lockError "Lake manifest must contain exactly 9 git packages"

/-! The lock document -/

/-- The archive digest of each package; a missing entry and `None` are the same. -/
abbrev Hashes := PyText → Option PyText

def schemaVersion : String := "autolean.mathlib-source-lock.v1"

def archiveRecord (package : GitPackage) (archiveSha256 : Option PyText) : JsonValue Unit :=
  .dict (JsonDict.of [("archive_sha256", archiveSha256.elim .null .str), ("archive_url", .str package.archiveUrl),
    ("name", .str package.name), ("rev", .str package.rev), ("url", .str package.url)])

def lockRecord (hashes : Hashes) (package : GitPackage) : Raises (JsonValue Unit) := do
  requireFor (∀ digest ∈ hashes package.name, IsHex 64 digest) "invalid archive SHA-256 for package " package.name ""
  pure (archiveRecord package (hashes package.name))

def IsComplete (packages : List GitPackage) (hashes : Hashes) : Prop := ∀ p ∈ packages, (hashes p.name).isSome

instance IsComplete.decidable (packages : List GitPackage) (hashes : Hashes) : Decidable (IsComplete packages hashes) :=
  inferInstanceAs (Decidable (∀ p ∈ packages, _))

def stateOf (packages : List GitPackage) (hashes : Hashes) : String :=
  if IsComplete packages hashes then "complete" else "incomplete"

/-- `lock_document`. -/
def lockDocument (manifestSha256 : PyText) (packages : List GitPackage) (hashes : Hashes) : Raises (JsonDict Unit) := do
  let records ← packages.mapM (lockRecord hashes)
  pure (JsonDict.of [("manifest_path", .text "Library/lake-manifest.json"), ("manifest_sha256", .str manifestSha256),
    ("packages", .list records), ("schema_version", .text schemaVersion), ("state", .text (stateOf packages hashes))])

/-- `_expect_exact_keys`. -/
def expectExactKeys (document : JsonDict Unit) (expected : List String) (label : PyText) : Raises Unit :=
  requireFor (document.keys ⊆ expected.map PyText.of ∧ expected.map PyText.of ⊆ document.keys) "" label
    " has unexpected or missing fields"

/-- One record of the lock, against its package. -/
def validateRecord (package : GitPackage) : JsonValue Unit → Raises (Option PyText)
  | .dict record => do
    expectExactKeys record ["archive_sha256", "archive_url", "name", "rev", "url"]
      (PyText.of "source lock record " ++ package.name)
    requireFor (isText (JsonDict.get record "archive_url") package.archiveUrl ∧ isText
      (JsonDict.get record "name") package.name ∧
        isText (JsonDict.get record "rev") package.rev ∧ isText (JsonDict.get record "url") package.url)
      "source lock record does not match package " package.name ""
    match JsonDict.get record "archive_sha256" with
    | some .null => pure none
    | some (.str digest) => do
      requireFor (IsHex 64 digest) "source lock archive SHA-256 is invalid for " package.name ""
      pure (some digest)
    | _ => lockErrorFor "source lock archive SHA-256 is invalid for " package.name ""
  | _ => lockErrorFor "source lock record for " package.name " is not an object"

def validateRecords : List (GitPackage × JsonValue Unit) → Hashes → Raises Hashes
  | [], hashes => pure hashes
  | (package, raw) :: rest, hashes => do
    let digest ← validateRecord package raw
    validateRecords rest (Function.update hashes package.name digest)

/-- `validate_lock_document`. -/
def validateLockDocument (document : JsonDict Unit) (manifestSha256 : PyText) (packages : List GitPackage)
    (requireComplete : Bool) : Raises Hashes := do
  expectExactKeys document ["manifest_path", "manifest_sha256", "packages", "schema_version", "state"]
    (PyText.of "source lock")
  require (isText (document.get "schema_version") (PyText.of schemaVersion)) "source lock schema version is unsupported"
  require (isText (document.get "manifest_path") (PyText.of "Library/lake-manifest.json"))
    "source lock manifest path is not canonical"
  require (isText (document.get "manifest_sha256") manifestSha256) "source lock manifest SHA-256 does not match"
  match document.get "packages" with
  | some (.list raw) => do
    require (raw.length = packages.length) "source lock package count does not match the Lake manifest"
    let hashes ← validateRecords (packages.zip raw) fun _ => none
    require (isText (document.get "state") (PyText.of (stateOf packages hashes)))
      "source lock state does not match its archive hashes"
    require (requireComplete → IsComplete packages hashes)
      "source lock is incomplete; an explicit --update is required"
    pure hashes
  | _ => lockError "source lock package count does not match the Lake manifest"

/-! The check of an archive -/

def lakeState : List PyText := [PyText.of "build", PyText.of "config"]

/-- A directory of generated output below `.lake`. -/
def HoldsLakeState : List PyText → Prop
  | part :: next :: rest => (part = PyText.of ".lake" ∧ next ∈ lakeState) ∨ HoldsLakeState (next :: rest)
  | _ => False

instance HoldsLakeState.decidable : (parts : List PyText) → Decidable (HoldsLakeState parts)
  | [] | [_] => .isFalse id
  | part :: next :: rest =>
    have := HoldsLakeState.decidable (next :: rest)
    inferInstanceAs (Decidable ((part = PyText.of ".lake" ∧ next ∈ lakeState) ∨ HoldsLakeState (next :: rest)))

/-- A text that is no path. -/
def IsMalformed (text : PyText) : Prop := text = [] ∨ CodePoint.ofChar '\\' ∈ text ∨ (0 : CodePoint) ∈ text

instance IsMalformed.decidable (text : PyText) : Decidable (IsMalformed text) := inferInstanceAs (Decidable (_ ∨ _ ∨ _))

/-- `_validate_archive_name`. -/
def validateArchiveName (tools : Tools) (name expectedRoot label : PyText) : Raises (List PyText) := do
  requireFor (¬ IsMalformed name) "" label " has an invalid path"
  requireFor (isAbsolute name = false ∧ PyText.of ".." ∉ components name) "" label " has an unsafe path"
  match components name with
  | [] => .error .indexError
  | root :: below => do
    requireFor (¬ IsDrive root) "" label " has an unsafe path"
    requireFor (root = expectedRoot) "" label " is outside the canonical archive root"
    let folded := (root :: below).map tools.casefold
    requireFor (PyText.of ".git" ∉ folded) "" label " contains Git metadata"
    requireFor (¬ HoldsLakeState folded) "" label " contains generated Lake state"
    requireFor (∀ last ∈ folded.getLast?, ¬ PyText.of ".olean" <:+ last ∧ ¬ PyText.of ".ilean" <:+ last) "" label
      " contains generated Lean output"
    pure (root :: below)

/-- One part of a link's target, against the parts so far. -/
def targetPart (label : PyText) (parts : List PyText) (part : PyText) : Raises (List PyText) :=
  if part = [] ∨ part = PyText.of "." then pure parts
  else if part = PyText.of ".." then do
    requireFor (parts.length ≠ 1) "" label " escapes the canonical archive root"
    pure parts.dropLast
  else pure (parts ++ [part])

/-- `_validate_symlink_target`. -/
def validateSymlinkTarget (tools : Tools) (linkname : PyText) (memberPath : List PyText) (expectedRoot label : PyText) :
    Raises Unit := do
  requireFor (¬ IsMalformed linkname) "" label " has an invalid path"
  requireFor (isAbsolute linkname = false ∧ ∀ part ∈ linkname.splitOn slash,
    ¬ IsDrive part) "" label " has an unsafe path"
  requireFor (memberPath.dropLast.head? = some expectedRoot) "" label " has an unsafe parent"
  let normalized ← (linkname.splitOn slash).foldlM (targetPart label) memberPath.dropLast
  let _ ← validateArchiveName tools (asPosix normalized) expectedRoot label
  pure ()

def maxArchiveBytes : Nat := 2 * 1024 * 1024 * 1024
def maxArchiveMembers : Nat := 2000000
def maxUnpackedBytes : Int := 20 * 1024 * 1024 * 1024

/-- What the walk over the members counts. -/
structure Walk where
  memberCount : Nat
  seenNames : List PyText
  unpackedBytes : Int
  regularFiles : Nat

def Walk.start : Walk := ⟨0, [], 0, 0⟩

/-- One member. -/
def Walk.visit (tools : Tools) (expectedRoot name : PyText) (w : Walk) (member : TarMember) : Raises Walk := do
  requireFor (w.memberCount + 1 ≤ maxArchiveMembers) "source archive has too many members for " name ""
  let parts ← validateArchiveName tools member.name expectedRoot (PyText.of "archive member for " ++ name)
  requireFor (asPosix parts ∉ w.seenNames) "source archive has duplicate members for " name ""
  let seen : Walk := { w with memberCount := w.memberCount + 1, seenNames := w.seenNames ++ [asPosix parts] }
  match member.kind with
  | .file => do
    requireFor (0 ≤ member.size) "source archive has an invalid file size for " name ""
    requireFor (w.unpackedBytes + member.size ≤ maxUnpackedBytes) "source archive expands beyond its limit for " name ""
    pure { seen with unpackedBytes := w.unpackedBytes + member.size, regularFiles := w.regularFiles + 1 }
  | .directory => pure seen
  | .symlink linkname => do
    validateSymlinkTarget tools linkname parts expectedRoot (PyText.of "archive symlink target for " ++ name)
    pure seen
  | .hardLink => lockErrorFor "source archive contains a hard link for " name ""
  | .special => lockErrorFor "source archive contains a special file for " name ""

/-- What is at a path of the cache. -/
inductive CacheEntry where
  | missing
  | file (content : Bytes)
  | other

/-- `validate_source_archive`, of what is at the path. -/
def validateSourceArchive (tools : Tools) (entry : CacheEntry) (package : GitPackage) : Raises PyText :=
  match entry with
  | .missing => lockErrorFor "source archive is unavailable for " package.name ""
  | .other => lockErrorFor "source archive is not a regular file for " package.name ""
  | .file content => do
    requireFor
      (0 < content.length ∧ content.length ≤ maxArchiveBytes) "source archive size is invalid for " package.name ""
    let expectedRoot := package.repository ++ PyText.of "-" ++ package.rev
    let walked ← (tools.members content).1.foldlM (Walk.visit tools expectedRoot package.name) Walk.start
    requireFor ((tools.members content).2 = true) "source archive is not a valid tar file for " package.name ""
    requireFor (walked.regularFiles ≠ 0) "source archive has no source files for " package.name ""
    pure (tools.sha256 content)

end Autolean.Library.SourceLock
