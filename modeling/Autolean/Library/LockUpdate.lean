import Autolean.Library.SourceLock

/-! `update_source_lock` over the lock and the archive cache. A run may be killed anywhere, and the
next one resumes from what is locked and cached. -/
namespace Autolean.Library.SourceLock
open Machine Machine.Raising Text

/-- The part of a cache path that tells packages apart. -/
structure CachePath where
  owner : PyText
  repository : PyText
  rev : PyText
  deriving DecidableEq

/-- `cache_archive_path`. -/
def GitPackage.cachePath (package : GitPackage) : CachePath := ⟨package.owner, package.repository, package.rev⟩

inductive LockFile where
  | missing
  | file (json : JsonFile)

def LockFile.isFile : LockFile → Bool
  | missing => false
  | file _ => true

def LockFile.json : LockFile → JsonFile
  | missing => none
  | file json => json

structure World where
  lock : LockFile
  cache : CachePath → CacheEntry
  /-- The packages whose archives were asked for. -/
  requests : List GitPackage

inductive LockOp where
  | lockIsFile
  | readLock
  | readArchive (path : CachePath)
  | makeDirectory (path : CachePath)
  | download (package : GitPackage) (url : PyText)
  | placeArchive (path : CachePath) (content : Bytes)
  | placeLock (document : JsonDict Unit)

def LockOp.Reply : LockOp → Type
  | lockIsFile => Bool
  | readLock => JsonFile
  | readArchive _ => CacheEntry
  | download _ _ => Bytes
  | _ => Unit

abbrev lockInterface : Interface := ⟨LockOp, LockOp.Reply⟩

abbrev LockProg := Prog lockInterface LockFault

/-- What a write or a download comes to. -/
structure Outcome where
  failure : Option LockFault
  downloaded : Bytes

/-- A write that happens whole or fails. -/
def World.write (w w' : World) (outcome : Outcome) : Raises Unit × World :=
  match outcome.failure with
  | none => (.ok (), w')
  | some e => (.error e, w)

def exec : Semantics lockInterface LockFault Outcome World
  | .lockIsFile, _, w => (.ok w.lock.isFile, w)
  | .readLock, _, w => (.ok w.lock.json, w)
  | .readArchive path, _, w => (.ok (w.cache path), w)
  | .makeDirectory _, outcome, w => w.write w outcome
  | .download package _, outcome, w =>
    (match outcome.failure with
      | none => .ok outcome.downloaded
      | some e => .error e, { w with requests := w.requests ++ [package] })
  | .placeArchive path content, outcome, w =>
    w.write { w with cache := Function.update w.cache path (.file content) } outcome
  | .placeLock document, outcome, w => w.write { w with lock := .file (some (.dict document)) } outcome

/-! The programs -/

def issue (op : LockOp) : LockProg op.Reply := Prog.perform (I := lockInterface) op

structure Options where
  sourceUrls : PyText → Option PyText
  allowFileSources : Bool

section Programs
variable (tools : Tools) (manifest : Manifest) (options : Options) (packages : List GitPackage)

/-- The hashes that a lock file states for the packages. -/
def statedHashes (json : JsonFile) (requireComplete : Bool) : Raises Hashes := do
  let document ← readJson "source lock" json
  validateLockDocument document manifest.sha256 packages requireComplete

/-- `except SourceLockError`. -/
def orElse {α : Type} (attempt : Raises α) (fallback : α) : LockProg α :=
  match attempt with
  | .ok a => pure a
  | .error (.sourceLock _) => pure fallback
  | .error e => throw e

/-- The candidates whose cached archive has the stated digest. -/
def verifyCandidates (candidates : Hashes) : List GitPackage → Hashes → LockProg Hashes
  | [], verified => pure verified
  | package :: rest, verified =>
    match candidates package.name with
    | none => verifyCandidates candidates rest (Function.update verified package.name none)
    | some expected => do
      let entry ← issue (.readArchive package.cachePath)
      let actual ← orElse ((validateSourceArchive tools entry package).map some) none
      verifyCandidates candidates rest
        (Function.update verified package.name (if actual = some expected then some expected else none))

/-- `_resume_archive_hashes`. -/
def resumeArchiveHashes : LockProg Hashes := do
  let isFile : Bool ← issue .lockIsFile
  if isFile then do
    let json ← issue .readLock
    let candidates ← orElse (statedHashes manifest packages json false) fun _ => none
    verifyCandidates tools candidates packages fun _ => none
  else verifyCandidates tools (fun _ => none) packages fun _ => none

/-- `cache_source_archive`. -/
def cacheSourceArchive (package : GitPackage) : LockProg PyText := do
  issue (.makeDirectory package.cachePath)
  let sourceUrl := options.sourceUrls package.name
  Prog.ofExcept (require (options.allowFileSources ∨ ∀ url ∈ sourceUrl, url = package.archiveUrl)
    "production source override is not allowed")
  let content ← issue (.download package (sourceUrl.getD package.archiveUrl))
  let digest ← Prog.ofExcept (validateSourceArchive tools (.file content) package)
  issue (.placeArchive package.cachePath content)
  pure digest

/-- The loop of `update_source_lock`. -/
def downloadMissing : List GitPackage → Hashes → LockProg Hashes
  | [], hashes => pure hashes
  | package :: rest, hashes =>
    if (hashes package.name).isSome then downloadMissing rest hashes
    else do
      let digest ← cacheSourceArchive tools options package
      let hashes := Function.update hashes package.name (some digest)
      let document ← Prog.ofExcept (lockDocument manifest.sha256 packages hashes)
      issue (.placeLock document)
      downloadMissing rest hashes

/-- `update_source_lock`. -/
def updateSourceLock : LockProg (List GitPackage) := do
  let packages ← Prog.ofExcept (readGitPackages tools manifest)
  let resumed ← resumeArchiveHashes tools manifest packages
  let hashes ← downloadMissing tools manifest options packages packages resumed
  let document ← Prog.ofExcept (lockDocument manifest.sha256 packages hashes)
  let _ ← Prog.ofExcept (validateLockDocument document manifest.sha256 packages true)
  issue (.placeLock document)
  pure packages

/-- `verify_cached_archives`. -/
def verifyCachedArchives (w : World) : Raises (List GitPackage) := do
  let packages ← readGitPackages tools manifest
  let hashes ← statedHashes manifest packages w.lock.json true
  packages.forM fun package => do
    let actual ← validateSourceArchive tools (w.cache package.cachePath) package
    requireFor (hashes package.name = some actual) "cached source archive SHA-256 differs for " package.name ""
  pure packages

end Programs

end Autolean.Library.SourceLock
