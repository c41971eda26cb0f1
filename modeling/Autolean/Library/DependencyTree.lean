import Autolean.Library.Inputs
import Autolean.Text.JsonRoundTrip

/-! The tree of built packages: the walk that lists its entries, the manifest of the list
and the binding that sums it up. -/
namespace Autolean.Library
open Machine Machine.Raising Text

inductive DependencyNode where
  | file (content : Bytes)
  | symlink (target : String)
  | directory (children : List (String × DependencyNode))
  | special

/-- What Git says about the root of a package; `none` when the command fails. -/
structure Git where
  /-- `git rev-parse HEAD`. -/
  revision : DependencyNode → Option String
  /-- `git status --porcelain --untracked-files=no`. -/
  status : DependencyNode → Option String

inductive TreeEntry where
  | symlink (path target : String)
  | directory (path : String)
  | file (path sha256 : String) (size : Nat)
  deriving DecidableEq

namespace DependencyNode

/-- A child of a directory, not through a link. -/
def child (node : DependencyNode) (name : String) : Option DependencyNode :=
  match node with
  | directory children => children.lookup name
  | _ => none

def find (node : DependencyNode) : List String → Option DependencyNode
  | [] => some node
  | name :: rest => (node.child name).bind fun next => next.find rest

def isSymlink : Option DependencyNode → Bool
  | some (symlink _) => true
  | _ => false

def isFile : Option DependencyNode → Bool
  | some (file _) => true
  | _ => false

def isDirectory : Option DependencyNode → Bool
  | some (directory _) => true
  | _ => false

mutual
/-- The tree with the children of each directory in the order of their names. -/
def sorted : DependencyNode → DependencyNode
  | directory children => directory ((sortedChildren children).insertionSort fun a b => a.1 ≤ b.1)
  | node => node

def sortedChildren : List (String × DependencyNode) → List (String × DependencyNode)
  | [] => []
  | (name, node) :: rest => (name, sorted node) :: sortedChildren rest
end

end DependencyNode

/-! Checks of names and links -/

/-- `_safe_dependency_name`. -/
def safeDependencyName (name : String) : Except VerifyError Unit :=
  require (name ≠ "" ∧ name ≠ "." ∧ name ≠ ".." ∧ '\\' ∉ name.toList ∧ ∀ c ∈ name.toList, 32 ≤ c.toNat ∧ c.toNat ≠ 127)
    "dependency cache contains an unsafe path component"

/-- The parts of a `PurePosixPath`. -/
def posixParts (path : String) : List String :=
  ((path.toList.splitOn '/').map String.ofList).filter fun part => part ≠ "" ∧ part ≠ "."

theorem safeDependencyName_of {name : String} (hname : name ≠ "" ∧ name ≠ "." ∧ name ≠ ".." ∧ '\\' ∉ name.toList ∧
    ∀ c ∈ name.toList, 32 ≤ c.toNat ∧ c.toNat ≠ 127) : safeDependencyName name = .ok () := ensure_of _ hname

/-- One part of a link's target; the parts so far have their last one first. -/
def normalizePart (parts : List String) (part : String) : Except VerifyError (List String) :=
  if part = ".." then
    match parts with
    | [] => fail "dependency cache symlink escapes the cache tree"
    | _ :: parent => pure parent
  else do
    safeDependencyName part
    pure (part :: parts)

/-- `part.casefold() == ".git"`. -/
def isGitName (part : String) : Bool := part.toList.map Char.toLower = ".git".toList

/-- `_normalize_dependency_symlink`. -/
def normalizeDependencySymlink (parent : List String) (target : String) : Except VerifyError (List String) := do
  require (target.toList.head? ≠ some '/' ∧
    posixParts target ≠ []) "dependency cache contains an absolute or empty symlink"
  let parts ← (posixParts target).foldlM normalizePart parent.reverse
  require (parts ≠ []) "dependency cache symlink resolves outside the cache tree"
  require (∀ part ∈ parts, ¬ isGitName part) "dependency cache symlink targets excluded Git metadata"
  pure parts.reverse

def joinPath (parts : List String) : String := "/".intercalate parts

/-- The path lies in a directory of generated output. -/
def IsGenerated (relative : List String) : Prop :=
  "/.lake/build/".toList <:+: ("/" ++ joinPath relative ++ "/").toList ∨
    "/.lake/config/".toList <:+: ("/" ++ joinPath relative ++ "/").toList

instance (relative : List String) : Decidable (IsGenerated relative) := inferInstanceAs (Decidable (_ ∨ _))

/-- What the walk checks of a link. -/
def checkSymlink (root : DependencyNode) (relative : List String) (target : String) : Except VerifyError Unit := do
  require (¬ IsGenerated relative)
    ("dependency generated build/config output must not be a symlink (" ++ joinPath relative ++ ")")
  let normalized ← normalizeDependencySymlink relative.dropLast target
  (normalized.dropLast.inits.drop 1).forM fun above =>
    require (¬ DependencyNode.isSymlink (root.find above))
      ("dependency cache symlink traverses another link (" ++ joinPath relative ++ ")")
  require (DependencyNode.isFile (root.find normalized))
    ("dependency cache contains a dangling, chained, or non-file symlink (" ++ joinPath relative ++ ")")

/-! The walk -/

mutual
/-- One entry of a directory and what is below it. -/
def visit (h : Hashing) (root : DependencyNode) (relative : List String) (name : String) :
    DependencyNode → Except VerifyError (List TreeEntry)
  | .symlink target => do
    require (name ≠ ".git") "dependency Git metadata boundary is linked or not a directory"
    checkSymlink root relative target
    pure [.symlink (joinPath relative) target]
  | .directory children => do
    if name = ".git" then pure []
    else do
      let below ← visitChildren h root relative children
      pure (.directory (joinPath relative) :: below)
  | .file content => do
    require (name ≠ ".git") "dependency Git metadata boundary is linked or not a directory"
    pure [.file (joinPath relative) (hexdigest h content) content.length]
  | .special => do
    require (name ≠ ".git") "dependency Git metadata boundary is linked or not a directory"
    fail ("dependency cache contains an unsupported file type (" ++ joinPath relative ++ ")")

def visitChildren (h : Hashing) (root : DependencyNode) (parent : List String) :
    List (String × DependencyNode) → Except VerifyError (List TreeEntry)
  | [] => pure []
  | (name, node) :: rest => do
    safeDependencyName name
    let entries ← visit h root (parent ++ [name]) name node
    let others ← visitChildren h root parent rest
    pure (entries ++ others)
end

/-- The entries of `_dependency_tree_manifest`; its other fields are fixed. -/
def dependencyTreeEntries (h : Hashing) (packages : DependencyNode) : Except VerifyError (List TreeEntry) :=
  match packages.sorted with
  | .directory children => visitChildren h packages.sorted [] children
  | _ => fail "dependency package tree is missing, linked, or not a directory"

/-! The manifest and its binding -/

/-- The file that lists a tree. -/
structure DependencyManifest where
  schemaVersion : String
  root : String
  excluded : List String
  entries : List TreeEntry
  deriving DecidableEq

def dependencyTreeRoot : String := "packages"
def dependencyTreeExclusion : String := "git-metadata-directories"

/-- `_dependency_tree_manifest`. -/
def dependencyTreeManifest (h : Hashing) (packages : DependencyNode) : Except VerifyError DependencyManifest := do
  let entries ← dependencyTreeEntries h packages
  pure ⟨dependencyTreeSchema, dependencyTreeRoot, [dependencyTreeExclusion], entries⟩

def TreeEntry.json : TreeEntry → JsonValue Unit
  | .symlink path target =>
      .dict (JsonDict.of [("kind", .text "symlink"), ("path", .text path), ("target", .text target)])
  | .directory path => .dict (JsonDict.of [("kind", .text "directory"), ("path", .text path)])
  | .file path sha256 size =>
    .dict (JsonDict.of [("kind", .text "file"), ("path", .text path), ("sha256", .text sha256), ("size", .int size)])

def DependencyManifest.json (manifest : DependencyManifest) : JsonValue Unit :=
  .dict (JsonDict.of [("schema_version", .text manifest.schemaVersion), ("root", .text manifest.root),
    ("excluded", .list (manifest.excluded.map .text)), ("entries", .list (manifest.entries.map TreeEntry.json))])

/-- `_canonical_json_bytes`. -/
def canonicalJsonBytes (value : JsonValue Unit) : Bytes := encode (String.ofList (value.dumps fun _ => []))

theorem jsonHooks_keeps : jsonHooks.Keeps := by
  intro d hd
  change Except.ok (dictOf d) = _
  rw [dictOf_of_nodup hd]

/-- A manifest in canonical form is read back. -/
theorem readManifest_canonicalJsonBytes {d : JsonDict Unit} (hplain : (JsonTree.dict d).Everywhere JsonTree.Plain) :
    ∃ read, (JsonTree.dict d).sortKeys = .dict read ∧ readManifest (canonicalJsonBytes (.dict d)) = .ok read := by
  obtain ⟨read, hread⟩ : ∃ read, (JsonTree.dict d).sortKeys = .dict read := ⟨_, JsonTree.sortKeys_dict d⟩
  have hreturn : '\r' ∉ (JsonTree.dict d).dumps (fun _ : Unit => []) := JsonTree.return_not_mem_print (by simp) _
  have hloads := @JsonHooks.loads_dumps _ _ _ jsonHooks_keeps (fun _ => []) _ hplain [] (by simp)
  rw [List.append_nil, hread] at hloads
  refine ⟨read, hread, ?_⟩
  rw [readManifest, canonicalJsonBytes, decode_encode, String.toList_ofList,
    universalNewlines_eq_self.mpr hreturn, ok_bind, hloads]
  rfl

structure DependencyTreeBinding where
  schemaVersion : String
  treeSha256 : String
  manifestSha256 : String
  entryCount : Nat
  directoryCount : Nat
  regularFileCount : Nat
  symlinkCount : Nat
  totalFileBytes : Nat
  deriving DecidableEq

def TreeEntry.isDirectory : TreeEntry → Bool
  | .directory _ => true
  | _ => false

def TreeEntry.isSymlink : TreeEntry → Bool
  | .symlink _ _ => true
  | _ => false

/-- The size of a regular file. -/
def TreeEntry.fileSize : TreeEntry → Option Nat
  | .file _ _ size => some size
  | _ => none

/-- `_dependency_tree_binding`. -/
def dependencyTreeBinding (h : Hashing) (manifest : DependencyManifest) (manifestSha256 : String) :
    DependencyTreeBinding where
  schemaVersion := dependencyTreeSchema
  treeSha256 := hexdigest h (canonicalJsonBytes manifest.json)
  manifestSha256 := manifestSha256
  entryCount := manifest.entries.length
  directoryCount := manifest.entries.countP TreeEntry.isDirectory
  regularFileCount := (manifest.entries.filterMap TreeEntry.fileSize).length
  symlinkCount := manifest.entries.countP TreeEntry.isSymlink
  totalFileBytes := (manifest.entries.filterMap TreeEntry.fileSize).sum

/-- The bytes of the manifest file. -/
def manifestBytes (manifest : DependencyManifest) : Bytes := canonicalJsonBytes manifest.json ++ encode "\n"

/-- `_validate_dependency_tree_binding`; that digests have their shape is left to their type. -/
def validateDependencyTreeBinding (binding : DependencyTreeBinding) : Except VerifyError DependencyTreeBinding := do
  require (binding.schemaVersion = dependencyTreeSchema) "dependency tree binding schema drifted"
  require (binding.entryCount = binding.directoryCount + binding.regularFileCount + binding.symlinkCount)
    "dependency tree binding entry counts are inconsistent"
  pure binding

/-- `_git_revision`. -/
def gitRevision (git : Git) (package : DependencyNode) : Except VerifyError String :=
  match git.revision package with
  | some stdout =>
    let line := strip stdout.toList
    do
      require (line ≠ [] ∧ '\n' ∉ line ∧ '\r' ∉ line) "dependency revision probe failed"
      pure (String.ofList line)
  | none => fail "command failed: /usr/bin/git"

/-- `_verify_package_directory` for one package. -/
def verifyPackage (git : Git) (packages : DependencyNode) (name expectedRevision : String) : Except VerifyError Unit :=
  match packages.child name with
  | some (.directory children) => do
    let revision ← gitRevision git (.directory children)
    require (revision = expectedRevision) ("dependency package '" ++ name ++ "' revision drifted")
    match git.status (.directory children) with
    | some stdout => require (stdout = "") ("dependency package '" ++ name ++ "' has tracked modifications")
    | none => fail "command failed: /usr/bin/git"
  | _ => fail ("dependency package '" ++ name ++ "' is missing or linked")

/-- `_verify_package_directory`. -/
def verifyPackageDirectory (git : Git) (packages : DependencyNode) : Except VerifyError Unit :=
  expectedPackageRevisions.forM fun p => verifyPackage git packages p.1 p.2

/-- Every entry is of one of the three kinds that the binding counts. -/
theorem counts_add (entries : List TreeEntry) : entries.length = entries.countP TreeEntry.isDirectory +
    (entries.filterMap TreeEntry.fileSize).length + entries.countP TreeEntry.isSymlink := by
  induction entries with
  | nil => rfl
  | cons entry rest ih =>
    cases entry <;>
      simp only [List.length_cons, List.countP_cons, List.filterMap_cons, TreeEntry.isDirectory, TreeEntry.isSymlink,
        TreeEntry.fileSize, ih, if_true, Bool.false_eq_true, if_false] <;> omega

/-- The binding of a tree passes its own check. -/
theorem validate_binding (h : Hashing) (manifest : DependencyManifest) (manifestSha256 : String) :
    validateDependencyTreeBinding (dependencyTreeBinding h manifest manifestSha256) =
      .ok (dependencyTreeBinding h manifest manifestSha256) := by
  refine seq_eq_ok.mpr ⟨ensure_of _ rfl, seq_eq_ok.mpr ⟨ensure_of _ ?_, rfl⟩⟩
  exact counts_add manifest.entries

end Autolean.Library
