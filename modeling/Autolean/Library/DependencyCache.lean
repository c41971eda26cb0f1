import Autolean.Library.DependencyTree
import Autolean.Machine.Interleaving

/-! The dependency cache of the Library verifier: published entries, the check every use
makes of one, and the call that builds a missing entry in private and publishes it by a
rename. -/
namespace Autolean.Library
open Machine Text

/-- The fields of `identity.json`. A stored JSON text is represented by its value. -/
structure CacheIdentity where
  schemaVersion : String
  toolchain : List Char
  lakeManifestSha256 : String
  packageRevisions : List (String × String)
  dependencyManifest : String
  dependencyTree : DependencyTreeBinding
  deriving DecidableEq

structure CacheEntry where
  identity : CacheIdentity
  manifest : DependencyManifest
  packages : DependencyNode

/-- The directory in which Lake prepares the packages of an entry. -/
structure Seed where
  tree : SourceTree
  packages : Option DependencyNode

def Seed.packagesRoot (seed : Seed) : DependencyNode := seed.packages.getD (.directory [])

/-- A checkout as one read of it finds it. -/
structure Checkout where
  file : String → Except OsError Bytes
  listing : InputListing

/-! The operations -/

inductive VerifyOp where
  | readSource (relative : String)
  | listSource
  | cacheExists (key : String)
  | readIdentity (key : String)
  | readManifest (key : String)
  | readPackages (key : String)
  /-- A Lake command in the private directory. -/
  | lake (arguments : List String) (seed : Seed)
  /-- `os.rename(candidate, cache_entry)`. -/
  | rename (entry : CacheEntry) (key : String)
  | requireExt4
  /-- A Lake command in a copy of the sources, on the packages of an entry. -/
  | lakeIn (arguments : List String) (worktree : SourceTree) (key : String)
  | writeEvidence (path : String)

abbrev VerifyOp.Res : VerifyOp → Type
  | readSource _ => Bytes
  | listSource => InputListing
  | cacheExists _ => Bool
  | readIdentity _ => CacheIdentity
  | readManifest _ => DependencyManifest
  | readPackages _ => DependencyNode
  | lake _ _ => Seed
  | lakeIn _ _ _ => String
  | rename _ _ | requireExt4 | writeEvidence _ => Unit

abbrev verifierInterface : Interface := ⟨VerifyOp, VerifyOp.Res⟩

/-- What the outside supplies to one operation. -/
structure Surroundings where
  checkout : Checkout
  /-- What a command leaves in the private directory, when it succeeds. -/
  lake : List String → Seed → Option Seed
  ext4 : Bool
  /-- The output of a command on an entry's packages, and the packages afterwards. -/
  lakeIn : List String → SourceTree → DependencyNode → Option (String × DependencyNode)
  evidenceWritten : Bool

/-- The published entries. -/
structure Cache where
  entries : String → Option CacheEntry

namespace Cache

def publish (s : Cache) (key : String) (entry : CacheEntry) : Cache := ⟨Function.update s.entries key (some entry)⟩

/-- A file of an entry. -/
def readEntry {α : Type} (s : Cache) (key : String) (part : CacheEntry → α) : Except VerifyError α :=
  match s.entries key with
  | some entry => .ok (part entry)
  | none => .error (.osError .fileNotFound)

def orFailed {α : Type} : Option α → Except VerifyError α
  | some a => .ok a
  | none => fail "command failed: lake"

/-- A command on the packages of an entry. -/
def runIn (s : Cache) (w : Surroundings) (arguments : List String) (worktree : SourceTree) (key : String) :
    Except VerifyError String × Cache :=
  match s.entries key with
  | none => (fail "command failed: lake", s)
  | some entry =>
    match w.lakeIn arguments worktree entry.packages with
    | some (stdout, packages) => (.ok stdout, s.publish key { entry with packages := packages })
    | none => (fail "command failed: lake", s)

/-- Renaming a directory onto one that is not empty fails with `ENOTEMPTY`, which is no `FileExistsError`. -/
def renameOnto (s : Cache) (entry : CacheEntry) (key : String) : Except VerifyError Unit × Cache :=
  match s.entries key with
  | none => (.ok (), s.publish key entry)
  | some _ => (.error (.osError .directoryNotEmpty), s)

def semantics : Semantics verifierInterface VerifyError Surroundings Cache
  | .readSource relative, w, s => ((w.checkout.file relative).mapError .osError, s)
  | .listSource, w, s => (.ok w.checkout.listing, s)
  | .cacheExists key, _, s => (.ok (s.entries key).isSome, s)
  | .readIdentity key, _, s => (s.readEntry key CacheEntry.identity, s)
  | .readManifest key, _, s => (s.readEntry key CacheEntry.manifest, s)
  | .readPackages key, _, s => (s.readEntry key CacheEntry.packages, s)
  | .lake arguments seed, w, s => (orFailed (w.lake arguments seed), s)
  | .rename entry key, _, s => s.renameOnto entry key
  | .requireExt4, w, s => (require w.ext4 "cache root is not ext4", s)
  | .lakeIn arguments worktree key, w, s => s.runIn w arguments worktree key
  | .writeEvidence _, w, s =>
    (require w.evidenceWritten "evidence output already exists; immutable evidence must use a new filename", s)

end Cache

/-! The programs -/

abbrev VerifierProgram (α : Type) := Prog verifierInterface VerifyError α

def issue (op : VerifyOp) : VerifierProgram op.Res := Prog.perform (I := verifierInterface) op

/-- The live checkout. -/
def source : Root (Prog verifierInterface VerifyError) where
  readBytes relative := issue (.readSource relative)
  inputs := issue .listSource

def dependencyManifestFilename : String := "dependency-manifest.v1.json"

/-- `_cache_identity`. -/
def cacheIdentity {m : Type → Type} [Monad m] [MonadExcept VerifyError m] (h : Hashing) (root : Root m)
    (dependencyTree : DependencyTreeBinding) : m CacheIdentity := do
  let toolchain ← root.readText "lean-toolchain"
  let lakeManifest ← root.manifestSha256 h
  pure ⟨dependencyCacheSchema, strip toolchain, lakeManifest, expectedPackageRevisions, dependencyManifestFilename,
    dependencyTree⟩

variable (h : Hashing) (git : Git)

/-- What `_validate_dependency_cache` requires of the manifest file. -/
def checkStoredManifest (stored : DependencyTreeBinding) (manifest : DependencyManifest) : Except VerifyError Unit := do
  require (manifest.schemaVersion = dependencyTreeSchema) "dependency cache manifest schema drifted"
  require (manifest.root = dependencyTreeRoot) "dependency cache manifest root drifted"
  require (manifest.excluded = [dependencyTreeExclusion]) "dependency cache manifest exclusion boundary drifted"
  require (stored.manifestSha256 = hexdigest h (manifestBytes manifest)) "dependency cache manifest file digest drifted"

/-- What it requires of the packages as it finds them, against the manifest and the binding. -/
def checkCurrentTree (stored : DependencyTreeBinding) (manifest : DependencyManifest) (packages : DependencyNode) :
    Except VerifyError DependencyTreeBinding := do
  let current ← dependencyTreeManifest h packages
  require (current = manifest) "dependency cache bytes differ from the recorded manifest"
  require (dependencyTreeBinding h current (hexdigest h (manifestBytes manifest)) = stored)
    "dependency cache tree binding drifted"
  pure (dependencyTreeBinding h current (hexdigest h (manifestBytes manifest)))

/-- `_validate_dependency_cache`. -/
def validateDependencyCache (key : String) : VerifierProgram DependencyTreeBinding := do
  let identity ← Root.orUnavailable (issue (.readIdentity key)) "dependency cache identity is invalid"
  raise (require (identity.schemaVersion = dependencyCacheSchema) "dependency cache identity schema drifted")
  let toolchain ← source.readText "lean-toolchain"
  raise (require (identity.toolchain = strip toolchain) "dependency cache toolchain identity drifted")
  let lakeManifest ← source.manifestSha256 h
  raise (require (identity.lakeManifestSha256 = lakeManifest) "dependency cache Lake manifest identity drifted")
  raise (require (identity.packageRevisions = expectedPackageRevisions) "dependency cache package revision identity drifted")
  raise (require (identity.dependencyManifest = dependencyManifestFilename) "dependency cache manifest path drifted")
  let stored ← raise (validateDependencyTreeBinding identity.dependencyTree)
  let manifest ← Root.orUnavailable (issue (.readManifest key)) "dependency cache manifest is invalid"
  raise (checkStoredManifest h stored manifest)
  let packages ← issue (.readPackages key)
  raise (verifyPackageDirectory git packages)
  let packages ← issue (.readPackages key)
  let binding ← raise (checkCurrentTree h stored manifest packages)
  let expected ← cacheIdentity h source binding
  raise (require (identity = expected) "dependency cache identity drifted")
  pure binding

def buildTargets : List String :=
  ["AutoLeanLibrary", "AutoLeanLibrary.Fixtures.Dag.Certificate", "AutoLeanLibrary.Fixtures.ModelTheory.Packet"]

/-- The private build of an entry. -/
def buildSeed : VerifierProgram Seed := do
  let tree ← source.copyInputTree
  raise (tree.root.checkLock)
  let updated ← issue (.lake ["update"] ⟨tree, none⟩)
  raise (updated.tree.root.checkLock)
  raise (verifyPackageDirectory git updated.packagesRoot)
  let fetched ← issue (.lake ["exe", "cache", "get"] updated)
  raise (verifyPackageDirectory git fetched.packagesRoot)
  let built ← buildTargets.foldlM (fun seed target => issue (.lake ["build", target] seed)) fetched
  raise (verifyPackageDirectory git built.packagesRoot)
  pure built

/-- The entry made of built packages: `_write_dependency_manifest` and `identity.json`. -/
def makeEntry (packages : DependencyNode) : VerifierProgram CacheEntry := do
  let manifest ← raise (dependencyTreeManifest h packages)
  let identity ← cacheIdentity h source (dependencyTreeBinding h manifest (hexdigest h (manifestBytes manifest)))
  pure ⟨identity, manifest, packages⟩

/-- The rename that publishes an entry; with `FileExistsError` the winner's entry is used. -/
def publishEntry (entry : CacheEntry) (key : String) : VerifierProgram Unit :=
  tryCatch (issue (.rename entry key)) fun e => if e = .osError .fileExists then pure () else throw e

/-- `_ensure_dependency_cache`: the key of the entry and its binding. -/
def ensureDependencyCache : VerifierProgram (String × DependencyTreeBinding) := do
  let key ← source.dependencyCacheKey h
  let found ← issue (.cacheExists key)
  if found then do
    let binding ← validateDependencyCache h git key
    pure (key, binding)
  else do
    let seed ← buildSeed git
    let entry ← makeEntry h seed.packagesRoot
    publishEntry entry key
    let binding ← validateDependencyCache h git key
    pure (key, binding)

end Autolean.Library
