import Autolean.ControlPlane.TaskBinding
import Autolean.Machine.Files

/-! The artifact store: blobs under the digest of their content, published by linking a
finished temporary file, and the calls that put and get them. -/
namespace Autolean.ControlPlane.ArtifactStore
open Contracts Machine Raising

inductive ArtifactError where
  | artifactCorruption (message : String)
  | artifactNotFound (message : String)
  | valueError (message : String)
  | osError (e : OsError)
  deriving DecidableEq

/-- `ArtifactRef.uri`. -/
def uri (r : ArtifactRef) : String := "sha256:" ++ r.digest.value

/-- A program of the store, issuing file-system calls in the name of its caller. -/
abbrev StoreProgram (θ α : Type) := Prog (fileSystem θ) ArtifactError α

variable {θ α : Type}

def issue (op : FileOp θ) : StoreProgram θ op.Res := Prog.perform (I := fileSystem θ) op

/-- `blob_root / digest[:2] / digest[2:4] / digest`. -/
def blobPath (digest : String) : Path :=
  [digest, String.ofList ((digest.toList.drop 2).take 2), String.ofList (digest.toList.take 2), "sha256"]

/-- The source of `put_file`, which the store only reads. -/
inductive Source where
  | link
  | absent
  | file (content : Bytes)

/-! The methods of `pathlib.Path` that the store uses -/

def pathExists (p : Path) : StoreProgram θ Bool := do
  let node ← issue (.stat p)
  pure node.isSome

def isFile (p : Path) : StoreProgram θ Bool := do
  match ← issue (.stat p) with
  | some (.file _) => pure true
  | _ => pure false

def isDirectory (p : Path) : StoreProgram θ Bool := do
  let node ← issue (.stat p)
  pure (node = some .directory)

/-- `mkdir(exist_ok=True)`. -/
def mkdir (p : Path) : StoreProgram θ Unit :=
  tryCatch (issue (.mkdir p)) fun e => do
    if e = .osError .fileNotFound then throw e
    if ← isDirectory p then pure () else throw e

/-- `mkdir(parents=True, exist_ok=True)`. -/
def makeDirectories : Path → StoreProgram θ Unit
  | [] => mkdir []
  | name :: parent =>
    tryCatch (issue (.mkdir (name :: parent))) fun e => do
      if e = .osError .fileNotFound then do
        makeDirectories parent
        mkdir (name :: parent)
      else if ← isDirectory (name :: parent) then pure () else throw e

/-- `unlink(missing_ok=True)`. -/
def unlink (p : Path) : StoreProgram θ Unit :=
  tryCatch (issue (.unlink p)) fun e => if e = .osError .fileNotFound then pure () else throw e

/-- `os.link` with `FileExistsError` suppressed. -/
def linkSuppressed (source target : Path) : StoreProgram θ Unit :=
  tryCatch (issue (.link source target)) fun e => if e = .osError .fileExists then pure () else throw e

/-! Checks of paths and contents -/

/-- `_assert_no_link_or_reparse_point`. -/
def assertNoLink (p : Path) : StoreProgram θ Unit := do
  let node ← issue (.lstat p)
  if node = some .link then throw (.artifactCorruption "artifact store must not follow symbolic links or reparse points")

/-- `_assert_safe_store_path`, from the root down. -/
def assertSafeStorePath : Path → StoreProgram θ Unit
  | [] => assertNoLink []
  | name :: parent => do
    assertSafeStorePath parent
    assertNoLink (name :: parent)

/-- `_path_for_digest`. -/
def pathForDigest (digest : String) : StoreProgram θ Path := do
  if ¬ IsSha256 digest then throw (.valueError "digest must be 64 lowercase hexadecimal characters")
  assertSafeStorePath (blobPath digest)
  pure (blobPath digest)

variable (sha256 : Bytes → Digest)

def verify (reference : ArtifactRef) : StoreProgram θ Unit := do
  let path ← pathForDigest reference.digest.value
  if ← isFile path then
    let data ← issue (.read path)
    if data.length ≠ reference.size ∨ sha256 data ≠ reference.digest then
      throw (.artifactCorruption ("artifact " ++ uri reference ++ " failed integrity verification"))
  else throw (.artifactNotFound ("artifact " ++ uri reference ++ " does not exist"))

/-- `get_bytes`; a reference fixes the size as well. -/
def getBytes (digest : String) (size : Option Nat) : StoreProgram θ Bytes := do
  let path ← pathForDigest digest
  if ← isFile path then
    let data ← issue (.read path)
    if data.length ≠ size.getD data.length ∨ (sha256 data).value ≠ digest then
      throw (.artifactCorruption ("artifact sha256:" ++ digest ++ " failed integrity verification"))
    pure data
  else throw (.artifactNotFound ("artifact sha256:" ++ digest ++ " does not exist"))

/-! Putting -/

/-- `try: ... finally: temp_path.unlink(missing_ok=True)`, unless the body has removed the
file and says so. -/
def withTemporary (tempPath : Path) (body : StoreProgram θ (α × Bool)) : StoreProgram θ α := do
  let (value, removed) ← tryCatch body fun e => do
    unlink tempPath
    throw e
  if removed then pure value
  else do
    unlink tempPath
    pure value

def putBytes (caller : θ) (data : Bytes) : StoreProgram θ ArtifactRef := do
  let target ← pathForDigest (sha256 data).value
  if ← pathExists target then
    verify sha256 ⟨sha256 data, data.length⟩
    pure ⟨sha256 data, data.length⟩
  else do
    makeDirectories target.tail
    let (tempPath, handle) ← issue (.mkstemp caller target.tail ".incoming-")
    withTemporary tempPath do
      issue (.write caller handle data)
      linkSuppressed tempPath target
      pure ((), false)
    verify sha256 ⟨sha256 data, data.length⟩
    pure ⟨sha256 data, data.length⟩

/-- What `read(size)` returns until the end of the content. -/
def chunks (size : Nat) (content : Bytes) : List Bytes :=
  if _h : content = [] ∨ size = 0 then [] else content.take size :: chunks size (content.drop size)
termination_by content.length
decreasing_by
  have hlength : 0 < content.length := List.length_pos_iff.mpr fun hc => _h (.inl hc)
  have hsize : 0 < size := Nat.pos_of_ne_zero fun hz => _h (.inr hz)
  rw [List.length_drop]
  omega

/-- The copying loop: the bytes hashed and their number. -/
def copyChunks (caller : θ) (handle : Nat) : List Bytes → Bytes → Nat → StoreProgram θ (Bytes × Nat)
  | [], hashed, size => pure (hashed, size)
  | chunk :: rest, hashed, size => do
    issue (.write caller handle chunk)
    copyChunks caller handle rest (hashed ++ chunk) (size + chunk.length)

def putFile (caller : θ) (source : Source) (chunkSize : Int) : StoreProgram θ ArtifactRef := do
  if chunkSize ≤ 0 then throw (.valueError "chunk_size must be positive")
  match source with
  | .link => throw (.artifactCorruption "artifact source must not be a symbolic link or reparse point")
  | .absent => throw (.artifactNotFound "artifact source does not exist")
  | .file content => do
    makeDirectories [".incoming"]
    let (tempPath, handle) ← issue (.mkstemp caller [".incoming"] "blob-")
    withTemporary tempPath do
      let (hashed, size) ← copyChunks caller handle (chunks chunkSize.toNat content) [] 0
      let target ← pathForDigest (sha256 hashed).value
      makeDirectories target.tail
      if ← pathExists target then
        verify sha256 ⟨sha256 hashed, size⟩
        unlink tempPath
        pure (⟨sha256 hashed, size⟩, true)
      else do
        linkSuppressed tempPath target
        verify sha256 ⟨sha256 hashed, size⟩
        pure (⟨sha256 hashed, size⟩, false)

/-- A call that stores content. -/
inductive PutCall where
  | putBytes (data : Bytes)
  | putFile (source : Source) (chunkSize : Int)

namespace PutCall

def program (sha256 : Bytes → Digest) (caller : θ) : PutCall → StoreProgram θ ArtifactRef
  | putBytes data => ArtifactStore.putBytes sha256 caller data
  | putFile source chunkSize => ArtifactStore.putFile sha256 caller source chunkSize

/-- The bytes a call is given to store. -/
def payload : PutCall → Option Bytes
  | putBytes data => some data
  | putFile (.file content) _ => some content
  | putFile _ _ => none

/-- The error a call raises for its own arguments. -/
def refusal : PutCall → Option ArtifactError
  | putBytes _ => none
  | putFile source chunkSize =>
    if chunkSize ≤ 0 then some (.valueError "chunk_size must be positive")
    else match source with
      | .link => some (.artifactCorruption "artifact source must not be a symbolic link or reparse point")
      | .absent => some (.artifactNotFound "artifact source does not exist")
      | .file _ => none

end PutCall

theorem chunks_flatten {size : Nat} (h : 0 < size) (content : Bytes) : (chunks size content).flatten = content := by
  induction content using chunks.induct size with
  | case1 content hc =>
    have hnil : content = [] := hc.resolve_right (by omega)
    subst hnil
    simp [chunks]
  | case2 content hc ih =>
    rw [chunks, dif_neg hc, List.flatten_cons, ih, List.take_append_drop]

end Autolean.ControlPlane.ArtifactStore
