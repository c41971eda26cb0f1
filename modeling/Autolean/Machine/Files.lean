import Autolean.Machine.Interleaving

/-! A file system as its clients see it: names, the contents of files apart from their
names, and the atomic calls on both. A file can be written through the descriptor of the
client that created it. -/
namespace Autolean.Machine

abbrev Bytes := List UInt8

/-- The components of a path below the root, the last one first. -/
abbrev Path := List String

/-- What a name stands for. A symbolic link leads nowhere. -/
inductive Node where
  | directory
  | link
  | file (inode : Nat)
  deriving DecidableEq

structure Inode (θ : Type) where
  writer : θ
  content : Bytes

structure Files (θ : Type) where
  nodes : Path → Option Node
  inodes : List (Inode θ)

inductive OsError where
  | fileExists
  | fileNotFound
  | notADirectory
  | isADirectory
  | notPermitted
  | badDescriptor
  | directoryNotEmpty
  deriving DecidableEq

inductive FileOp (θ : Type) where
  | lstat (p : Path)
  | stat (p : Path)
  | read (p : Path)
  | mkdir (p : Path)
  /-- Create and open a file under a name with the prefix. -/
  | mkstemp (caller : θ) (dir : Path) (namePrefix : String)
  | write (caller : θ) (inode : Nat) (chunk : Bytes)
  | link (source target : Path)
  | unlink (p : Path)

abbrev FileOp.Res {θ : Type} : FileOp θ → Type
  | lstat _ | stat _ => Option Node
  | read _ => Bytes
  | mkstemp _ _ _ => Path × Nat
  | mkdir _ | write _ _ _ | link _ _ | unlink _ => Unit

abbrev fileSystem (θ : Type) : Interface := ⟨FileOp θ, FileOp.Res⟩

namespace Files
variable {θ : Type}

def setName (s : Files θ) (p : Path) (node : Option Node) : Files θ := { s with nodes := Function.update s.nodes p node }

@[simp] theorem setName_inodes (s : Files θ) (p : Path) (node : Option Node) : (s.setName p node).inodes = s.inodes := rfl
@[simp] theorem setName_self (s : Files θ) (p : Path) (node : Option Node) : (s.setName p node).nodes p = node :=
  Function.update_self ..
theorem setName_of_ne (s : Files θ) {p q : Path} (node : Option Node) (h : q ≠ p) : (s.setName p node).nodes q = s.nodes q :=
  Function.update_of_ne h ..

/-- The directory a new name goes to. -/
def parentError (s : Files θ) (p : Path) : Option OsError :=
  match s.nodes p.tail with
  | some .directory => none
  | none => some .fileNotFound
  | some _ => some .notADirectory

/-- Create a name that is not in use. -/
def create (s : Files θ) (p : Path) (node : Node) : Except OsError Unit × Files θ :=
  match s.nodes p, s.parentError p with
  | some _, _ => (.error .fileExists, s)
  | none, some e => (.error e, s)
  | none, none => (.ok (), s.setName p (some node))

def readFile (s : Files θ) (p : Path) : Except OsError Bytes :=
  match s.nodes p with
  | some (.file n) =>
    match s.inodes[n]? with
    | some inode => .ok inode.content
    | none => .error .badDescriptor
  | some .directory => .error .isADirectory
  | some .link | none => .error .fileNotFound

def append [DecidableEq θ] (s : Files θ) (caller : θ) (n : Nat) (chunk : Bytes) : Except OsError Unit × Files θ :=
  match s.inodes[n]? with
  | some inode =>
    if inode.writer = caller then (.ok (), { s with inodes := s.inodes.set n ⟨caller, inode.content ++ chunk⟩ })
    else (.error .badDescriptor, s)
  | none => (.error .badDescriptor, s)

def openTemporary (s : Files θ) (caller : θ) (p : Path) : Except OsError (Path × Nat) × Files θ :=
  match s.create p (.file s.inodes.length) with
  | (.ok (), t) => (.ok (p, s.inodes.length), { t with inodes := s.inodes ++ [⟨caller, []⟩] })
  | (.error e, _) => (.error e, s)

def linkFile (s : Files θ) (source target : Path) : Except OsError Unit × Files θ :=
  match s.nodes source with
  | some (.file n) => s.create target (.file n)
  | some _ => (.error .notPermitted, s)
  | none => (.error .fileNotFound, s)

def removeFile (s : Files θ) (p : Path) : Except OsError Unit × Files θ :=
  match s.nodes p with
  | none => (.error .fileNotFound, s)
  | some .directory => (.error .isADirectory, s)
  | some _ => (.ok (), s.setName p none)

/-- What `stat` finds at the end of a link. -/
def follow : Option Node → Option Node
  | some .link => none
  | node => node

/-- The calls. The input is the random part of a temporary name. -/
def call [DecidableEq θ] : (op : FileOp θ) → String → Files θ → Except OsError op.Res × Files θ
  | .lstat p, _, s => (.ok (s.nodes p), s)
  | .stat p, _, s => (.ok (follow (s.nodes p)), s)
  | .read p, _, s => (s.readFile p, s)
  | .mkdir p, _, s => s.create p .directory
  | .mkstemp caller dir namePrefix, random, s => s.openTemporary caller ((namePrefix ++ random) :: dir)
  | .write caller n chunk, _, s => s.append caller n chunk
  | .link source target, _, s => s.linkFile source target
  | .unlink p, _, s => s.removeFile p

/-- The file system, its errors raised as those of the program. -/
def semantics {ε : Type} [DecidableEq θ] (raise : OsError → ε) : Semantics (fileSystem θ) ε String (Files θ) := fun op input s =>
  ((call op input s).1.mapError raise, (call op input s).2)

/-- A temporary name that no file has. -/
def Unused (s : Files θ) : FileOp θ → String → Prop
  | .mkstemp _ dir namePrefix, random => s.nodes ((namePrefix ++ random) :: dir) = none
  | _, _ => True

/-! What each call can do -/

theorem create_cases (s : Files θ) (p : Path) (node : Node) :
    (∃ e, s.create p node = (.error e, s)) ∨
      s.create p node = (.ok (), s.setName p (some node)) ∧ s.nodes p = none ∧ s.nodes p.tail = some .directory := by
  unfold create parentError
  cases hp : s.nodes p with
  | some _ => exact .inl ⟨_, rfl⟩
  | none =>
    cases hd : s.nodes p.tail with
    | none => exact .inl ⟨_, rfl⟩
    | some node' =>
      cases node' with
      | directory => exact .inr ⟨rfl, rfl, rfl⟩
      | link | file _ => exact .inl ⟨_, rfl⟩

/-- A new name in a directory is created. -/
theorem create_new {s : Files θ} {p : Path} {node : Node} (hp : s.nodes p = none) (hd : s.nodes p.tail = some .directory) :
    s.create p node = (.ok (), s.setName p (some node)) := by
  simp [create, parentError, hp, hd]

/-- A name in use is reported, whatever has it. -/
theorem create_taken {s : Files θ} {p : Path} {node taken : Node} (hp : s.nodes p = some taken) :
    s.create p node = (.error .fileExists, s) := by
  simp [create, hp]

theorem append_cases [DecidableEq θ] (s : Files θ) (caller : θ) (n : Nat) (chunk : Bytes) :
    (∃ e, s.append caller n chunk = (.error e, s)) ∨
      ∃ inode, s.inodes[n]? = some inode ∧ inode.writer = caller ∧
        s.append caller n chunk = (.ok (), { s with inodes := s.inodes.set n ⟨caller, inode.content ++ chunk⟩ }) := by
  unfold append
  cases hn : s.inodes[n]? with
  | none => exact .inl ⟨_, rfl⟩
  | some inode =>
    by_cases hw : inode.writer = caller
    · exact .inr ⟨inode, rfl, hw, if_pos hw⟩
    · exact .inl ⟨_, if_neg hw⟩

theorem openTemporary_cases (s : Files θ) (caller : θ) (p : Path) :
    (∃ e, s.openTemporary caller p = (.error e, s)) ∨
      s.openTemporary caller p = (.ok (p, s.inodes.length),
        { s.setName p (some (.file s.inodes.length)) with inodes := s.inodes ++ [⟨caller, []⟩] }) ∧
      s.nodes p = none ∧ s.nodes p.tail = some .directory := by
  unfold openTemporary
  obtain ⟨e, he⟩ | ⟨hc, hp, hd⟩ := s.create_cases p (.file s.inodes.length)
  · rw [he]
    exact .inl ⟨e, rfl⟩
  · rw [hc]
    exact .inr ⟨rfl, hp, hd⟩

theorem removeFile_cases (s : Files θ) (p : Path) :
    (∃ e, s.removeFile p = (.error e, s)) ∨ s.removeFile p = (.ok (), s.setName p none) ∧ s.nodes p ≠ some .directory := by
  unfold removeFile
  cases hp : s.nodes p with
  | none => exact .inl ⟨_, rfl⟩
  | some node =>
    cases node with
    | directory => exact .inl ⟨_, rfl⟩
    | link | file _ => exact .inr ⟨rfl, by simp⟩

end Files
end Autolean.Machine
