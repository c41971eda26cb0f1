import Autolean.ControlPlane.ArtifactStore
import Autolean.Machine.Ownership

/-! What the calls on one artifact store keep of each other: published blobs and directories
stay, and a temporary file belongs to the call that created it. -/
namespace Autolean.ControlPlane.ArtifactStore
open Contracts Machine Raising

variable {θ : Type}

/-- The places where the store makes directories. -/
def StoreDirectory : Path → Prop
  | [] => True
  | [name] => name = "sha256" ∨ name = ".incoming"
  | [_, top] => top = "sha256"
  | [_, _, top] => top = "sha256"
  | _ => False

/-- A name for a temporary file that is no directory of the store and no blob. -/
def Scratch (p : Path) : Prop := ¬ StoreDirectory p ∧ ∀ d : Digest, p ≠ blobPath d.value

theorem blobPath_not_directory (digest : String) : ¬ StoreDirectory (blobPath digest) := id

theorem blobPath_injective {a b : String} (h : blobPath a = blobPath b) : a = b := (List.cons.inj h).1

theorem not_sha256_of_head {c : Char} {rest : List Char} {s : String} (hs : s.toList = c :: rest)
    (hc : Text.isHexadecimal (.ofChar c) = false) (d : Digest) : s ≠ d.value := by
  intro he
  have hmem : c ∈ d.value.toList := by
    rw [← he, hs]
    exact List.mem_cons_self
  rw [d.isSha256.hexadecimal hmem] at hc
  cases hc

/-- A temporary file beside the blobs. -/
theorem scratch_incoming (random : String) (a b : String) : Scratch [".incoming-" ++ random, a, b, "sha256"] := by
  refine ⟨id, fun d h => ?_⟩
  have hhead : (".incoming-" ++ random).toList = '.' :: "incoming-".toList ++ random.toList := String.toList_append
  exact not_sha256_of_head hhead (by decide) d (List.cons.inj h).1

/-- A temporary file of `put_file`. -/
theorem scratch_staging (random : String) : Scratch ["blob-" ++ random, ".incoming"] := by
  refine ⟨fun h => absurd (show ".incoming" = "sha256" from h) (by decide), fun d h => ?_⟩
  have hlength := congrArg List.length h
  simp [blobPath] at hlength

variable (sha256 : Bytes → Digest) (known : Set Bytes)

/-- A store in order: every blob holds known bytes that hash to its name. -/
structure Intact (s : Files θ) : Prop where
  root : s.nodes [] = some .directory
  noLink : ∀ p, s.nodes p ≠ some .link
  bounded : ∀ p n, s.nodes p = some (.file n) → n < s.inodes.length
  directories : ∀ p node, StoreDirectory p → s.nodes p = some node → node = .directory
  blobs : ∀ (d : Digest) node, s.nodes (blobPath d.value) = some node → ∃ n inode, node = .file n ∧
    s.inodes[n]? = some inode ∧ sha256 inode.content = d ∧ inode.content ∈ known

/-- What a call may find changed by the others. -/
structure Rely (i : θ) (s t : Files θ) : Prop where
  directories : ∀ p, s.nodes p = some .directory → t.nodes p = some .directory
  blobs : ∀ (d : Digest) n, s.nodes (blobPath d.value) = some (.file n) →
    t.nodes (blobPath d.value) = some (.file n) ∧ t.inodes[n]? = s.inodes[n]?
  own : ∀ (n : Nat) (inode : Inode θ), s.inodes[n]? = some inode → inode.writer = i → t.inodes[n]? = some inode
  names : ∀ (n : Nat) (inode : Inode θ), s.inodes[n]? = some inode → inode.writer = i →
    ∀ p, t.nodes p = some (.file n) ↔ s.nodes p = some (.file n)

theorem Rely.refl (i : θ) (s : Files θ) : Rely i s s :=
  ⟨fun _ h => h, fun _ _ h => ⟨h, rfl⟩, fun _ _ h _ => h, fun _ _ _ _ _ => Iff.rfl⟩

theorem Rely.trans {i : θ} {s t u : Files θ} (h : Rely i s t) (h' : Rely i t u) : Rely i s u := by
  refine ⟨fun p hp => h'.directories p (h.directories p hp), fun d n hn => ?_, fun n inode hn hi => ?_, ?_⟩
  · obtain ⟨ht, hinode⟩ := h.blobs d n hn
    obtain ⟨hu, hinode'⟩ := h'.blobs d n ht
    exact ⟨hu, hinode'.trans hinode⟩
  · exact h'.own n inode (h.own n inode hn hi) hi
  · intro n inode hn hi p
    exact (h'.names n inode (h.own n inode hn hi) hi p).trans (h.names n inode hn hi p)

/-- What a call promises of an operation: it makes the store's directories, writes only a
file of its own that is not published, and publishes only finished content. -/
def Allowed (i : θ) (s : Files θ) : FileOp θ → Prop
  | .lstat _ | .stat _ | .read _ => True
  | .mkdir p => StoreDirectory p
  | .mkstemp caller dir namePrefix => caller = i ∧ ∀ random, Scratch ((namePrefix ++ random) :: dir)
  | .write caller n _ => caller = i ∧ ∀ d : Digest, s.nodes (blobPath d.value) ≠ some (.file n)
  | .link source target => ∃ n data, s.nodes source = some (.file n) ∧ s.inodes[n]? = some ⟨i, data⟩ ∧
      target = blobPath (sha256 data).value ∧ data ∈ known
  | .unlink p => Scratch p ∧ ∀ n inode, s.nodes p = some (.file n) → s.inodes[n]? = some inode → inode.writer = i

variable {sha256 known}

/-! Each way the files change -/

section
variable {s : Files θ} {p : Path} {node : Option Node} {j : θ}

theorem Intact.setName (h : Intact sha256 known s) (hroot : p ≠ []) (hlink : node ≠ some .link)
    (hbounded : ∀ n, node = some (.file n) → n < s.inodes.length)
    (hdirectory : StoreDirectory p → ∀ m, node = some m → m = .directory)
    (hblob : ∀ d : Digest, p = blobPath d.value → ∀ m, node = some m → ∃ n inode, m = .file n ∧
      s.inodes[n]? = some inode ∧ sha256 inode.content = d ∧ inode.content ∈ known) :
    Intact sha256 known (s.setName p node) := by
  have cases_at : ∀ q m, (s.setName p node).nodes q = some m → (q = p ∧ node = some m) ∨ s.nodes q = some m := by
    intro q m hq
    by_cases hqp : q = p
    · subst hqp
      exact .inl ⟨rfl, by rwa [Files.setName_self] at hq⟩
    · exact .inr (by rwa [Files.setName_of_ne _ _ hqp] at hq)
  refine ⟨?_, fun q hq => ?_, fun q n hq => ?_, fun q m hd hq => ?_, fun d m hq => ?_⟩
  · rw [Files.setName_of_ne _ _ (Ne.symm hroot)]
    exact h.root
  · obtain ⟨-, hnode⟩ | hold := cases_at q .link hq
    · exact hlink hnode
    · exact h.noLink q hold
  · obtain ⟨-, hnode⟩ | hold := cases_at q _ hq
    · exact hbounded n hnode
    · exact h.bounded q n hold
  · obtain ⟨rfl, hnode⟩ | hold := cases_at q m hq
    · exact hdirectory hd m hnode
    · exact h.directories q m hd hold
  · obtain ⟨hp, hnode⟩ | hold := cases_at _ m hq
    · exact hblob d hp.symm m hnode
    · exact h.blobs d m hold

theorem Rely.setName (hkept : s.nodes p ≠ some .directory) (hblob : ∀ d : Digest, p = blobPath d.value → s.nodes p = none)
    (hnames : ∀ (n : Nat) (inode : Inode θ), s.inodes[n]? = some inode → inode.writer = j →
      (node = some (.file n) ↔ s.nodes p = some (.file n))) : Rely j s (s.setName p node) := by
  refine ⟨fun q hq => ?_, fun d n hn => ⟨?_, rfl⟩, fun n inode hn _ => hn, fun n inode hn hj q => ?_⟩
  · rw [Files.setName_of_ne _ _ (by rintro rfl; exact hkept hq)]
    exact hq
  · rw [Files.setName_of_ne _ _ (by rintro rfl; rw [hblob d rfl] at hn; cases hn)]
    exact hn
  · by_cases hqp : q = p
    · subst hqp
      rw [Files.setName_self]
      exact hnames n inode hn hj
    · rw [Files.setName_of_ne _ _ hqp]

theorem inode_kept {n : Nat} {inode : Inode θ} (h : s.inodes[n]? = some inode) (added : Inode θ) :
    (s.inodes ++ [added])[n]? = some inode := by
  rw [List.getElem?_append_left (List.getElem?_eq_some_iff.mp h).1]
  exact h

theorem Intact.grow (h : Intact sha256 known s) (inode : Inode θ) :
    Intact sha256 known { s with inodes := s.inodes ++ [inode] } := by
  refine ⟨h.root, h.noLink, fun q n hq => ?_, h.directories, fun d m hq => ?_⟩
  · rw [List.length_append]
    exact Nat.lt_add_right _ (h.bounded q n hq)
  · obtain ⟨n, inode', hm, hn, hsha⟩ := h.blobs d m hq
    exact ⟨n, inode', hm, inode_kept hn inode, hsha⟩

theorem Rely.grow (h : Intact sha256 known s) (inode : Inode θ) : Rely j s { s with inodes := s.inodes ++ [inode] } := by
  refine ⟨fun _ hq => hq, fun d n hn => ⟨hn, ?_⟩, fun n inode' hn _ => inode_kept hn inode,
    fun _ _ _ _ _ => Iff.rfl⟩
  exact List.getElem?_append_left (h.bounded _ n hn)

theorem Intact.rewrite (h : Intact sha256 known s) {n : Nat} (inode : Inode θ)
    (hn : ∀ d : Digest, s.nodes (blobPath d.value) ≠ some (.file n)) :
    Intact sha256 known { s with inodes := s.inodes.set n inode } := by
  refine ⟨h.root, h.noLink, fun q m hq => ?_, h.directories, fun d m hq => ?_⟩
  · rw [List.length_set]
    exact h.bounded q m hq
  · obtain ⟨k, inode', rfl, hk, hsha⟩ := h.blobs d m hq
    have hne : n ≠ k := by
      rintro rfl
      exact hn d hq
    exact ⟨k, inode', rfl, by rwa [List.getElem?_set_ne hne], hsha⟩

theorem Rely.rewrite {n : Nat} {old : Inode θ} (inode : Inode θ) (hold : s.inodes[n]? = some old) (hj : old.writer ≠ j)
    (hn : ∀ d : Digest, s.nodes (blobPath d.value) ≠ some (.file n)) :
    Rely j s { s with inodes := s.inodes.set n inode } := by
  refine ⟨fun _ hq => hq, fun d m hm => ⟨hm, ?_⟩, fun m inode' hm hw => ?_, fun _ _ _ _ _ => Iff.rfl⟩
  · have hne : n ≠ m := by
      rintro rfl
      exact hn d hm
    exact List.getElem?_set_ne hne
  · have hne : n ≠ m := by
      rintro rfl
      rw [hold] at hm
      cases hm
      exact hj hw
    rwa [List.getElem?_set_ne hne]

end

/-! The protocol -/

/-- What an operation of call `i` must bring about. -/
def Respects (sha256 : Bytes → Digest) (known : Set Bytes) (i : θ) (s t : Files θ) : Prop :=
  Intact sha256 known t ∧ ∀ j, j ≠ i → Rely j s t

variable {s : Files θ} {i : θ}

theorem Respects.unchanged (h : Intact sha256 known s) : Respects sha256 known i s s := ⟨h, fun j _ => Rely.refl j s⟩

theorem create_directory_rely (s : Files θ) (p : Path) (j : θ) : Rely j s (s.create p .directory).2 := by
  obtain ⟨e, he⟩ | ⟨hc, hfree, -⟩ := s.create_cases p .directory
  · rw [he]
    exact Rely.refl j s
  · rw [hc]
    exact Rely.setName (by simp [hfree]) (fun _ _ => hfree) (by simp [hfree])

theorem mkdir_step (h : Intact sha256 known s) {p : Path} (hp : StoreDirectory p) :
    Respects sha256 known i s (s.create p .directory).2 := by
  refine ⟨?_, fun j _ => create_directory_rely s p j⟩
  obtain ⟨e, he⟩ | ⟨hc, hfree, -⟩ := s.create_cases p .directory
  · rw [he]
    exact h
  · rw [hc]
    refine h.setName ?_ (by simp) (by simp) (fun _ m hm => by simpa using hm.symm) ?_
    · rintro rfl
      rw [h.root] at hfree
      cases hfree
    · rintro d rfl
      exact absurd hp (blobPath_not_directory _)

theorem mkstemp_step (h : Intact sha256 known s) {p : Path} (hp : Scratch p) :
    Respects sha256 known i s (s.openTemporary i p).2 := by
  obtain ⟨e, he⟩ | ⟨hc, hfree, -⟩ := s.openTemporary_cases i p
  · rw [he]
    exact Respects.unchanged h
  · rw [hc]
    refine ⟨?_, fun j hne => ?_⟩
    · refine (h.grow (⟨i, []⟩ : Inode θ)).setName ?_ (by simp) ?_ (fun hd => absurd hd hp.1) (fun d hd => absurd hd (hp.2 d))
      · rintro rfl
        exact hp.1 trivial
      · rintro n ⟨⟩
        simp
    · refine (Rely.grow h (⟨i, []⟩ : Inode θ)).trans (Rely.setName (by simp [hfree]) (fun _ _ => hfree) ?_)
      intro n inode hn hj
      simp only [hfree, reduceCtorEq, Option.some.injEq, Node.file.injEq, iff_false]
      rintro rfl
      rw [List.getElem?_concat_length] at hn
      cases hn
      exact hne hj.symm

theorem write_step [DecidableEq θ] (h : Intact sha256 known s) {n : Nat}
    (hn : ∀ d : Digest, s.nodes (blobPath d.value) ≠ some (.file n)) (chunk : Bytes) :
    Respects sha256 known i s (s.append i n chunk).2 := by
  obtain ⟨e, he⟩ | ⟨inode, hinode, hw, hc⟩ := s.append_cases i n chunk
  · rw [he]
    exact Respects.unchanged h
  · rw [hc]
    exact ⟨h.rewrite _ hn, fun j hne => Rely.rewrite _ hinode (by rw [hw]; exact hne.symm) hn⟩

theorem linkFile_of_file {source target : Path} {n : Nat} (hsource : s.nodes source = some (.file n)) :
    s.linkFile source target = s.create target (.file n) := by
  simp only [Files.linkFile, hsource]

theorem link_step (h : Intact sha256 known s) {n : Nat} {source : Path} {data : Bytes} (hsource : s.nodes source = some (.file n))
    (hinode : s.inodes[n]? = some ⟨i, data⟩) (hdata : data ∈ known) :
    Respects sha256 known i s (s.linkFile source (blobPath (sha256 data).value)).2 := by
  rw [linkFile_of_file hsource]
  obtain ⟨e, he⟩ | ⟨hc, hfree, -⟩ := s.create_cases (blobPath (sha256 data).value) (.file n)
  · rw [he]
    exact Respects.unchanged h
  · rw [hc]
    refine ⟨?_, fun j hne => ?_⟩
    · refine h.setName (List.cons_ne_nil _ _) (by simp) ?_ (fun hd => absurd hd (blobPath_not_directory _)) ?_
      · rintro m ⟨⟩
        exact h.bounded source n hsource
      · rintro ⟨value, shaped⟩ hd m ⟨⟩
        obtain rfl := blobPath_injective hd
        exact ⟨n, _, rfl, hinode, rfl, hdata⟩
    · refine Rely.setName (by simp [hfree]) (fun _ _ => hfree) ?_
      intro m inode hm hj
      simp only [hfree, reduceCtorEq, Option.some.injEq, Node.file.injEq, iff_false]
      rintro rfl
      rw [hinode] at hm
      cases hm
      exact hne hj.symm

theorem unlink_step (h : Intact sha256 known s) {p : Path} (hp : Scratch p)
    (hown : ∀ (n : Nat) (inode : Inode θ), s.nodes p = some (.file n) → s.inodes[n]? = some inode → inode.writer = i) :
    Respects sha256 known i s (s.removeFile p).2 := by
  obtain ⟨e, he⟩ | ⟨hc, hkept⟩ := s.removeFile_cases p
  · rw [he]
    exact Respects.unchanged h
  · rw [hc]
    refine ⟨?_, fun j hne => ?_⟩
    · refine h.setName ?_ (by simp) (by simp) (fun hd => absurd hd hp.1) (fun d hd => absurd hd (hp.2 d))
      rintro rfl
      exact hp.1 trivial
    · refine Rely.setName hkept (fun d hd => absurd hd (hp.2 d)) ?_
      intro n inode hn hj
      simp only [reduceCtorEq, false_iff]
      intro hname
      exact hne (hj.symm.trans (hown n inode hname hn))

/-- Looking and making directories are within what every call relies on. -/
def Quiet : FileOp θ → Prop
  | .lstat _ | .stat _ | .read _ | .mkdir _ => True
  | _ => False

theorem assertSafeStorePath_quiet (p : Path) : (assertSafeStorePath p : StoreProgram θ Unit).Issues Quiet := by
  have hone : ∀ q, (assertNoLink q : StoreProgram θ Unit).Issues Quiet := by
    intro q
    apply Prog.Issues.bind (Prog.Issues.perform trivial)
    intro node
    split
    · exact Prog.Issues.throw _
    · exact Prog.Issues.pure _
  induction p with
  | nil => exact hone []
  | cons name parent ih => exact Prog.Issues.bind ih fun _ => hone _

theorem pathForDigest_quiet (digest : String) : (pathForDigest digest : StoreProgram θ Path).Issues Quiet := by
  unfold pathForDigest
  split
  · exact Prog.Issues.throw _
  · exact Prog.Issues.bind (assertSafeStorePath_quiet _) fun _ => Prog.Issues.pure _

theorem pathExists_quiet (p : Path) : (pathExists p : StoreProgram θ Bool).Issues Quiet :=
  Prog.Issues.bind (Prog.Issues.perform trivial) fun _ => Prog.Issues.pure _

theorem isFile_quiet (p : Path) : (isFile p : StoreProgram θ Bool).Issues Quiet := by
  apply Prog.Issues.bind (Prog.Issues.perform trivial)
  intro node
  split <;> exact Prog.Issues.pure _

theorem isDirectory_quiet (p : Path) : (isDirectory p : StoreProgram θ Bool).Issues Quiet :=
  Prog.Issues.bind (Prog.Issues.perform trivial) fun _ => Prog.Issues.pure _

theorem mkdir_quiet (p : Path) : (mkdir p : StoreProgram θ Unit).Issues Quiet := by
  apply Prog.Issues.handle (Prog.Issues.perform trivial)
  intro e
  split
  · exact Prog.Issues.throw _
  · apply Prog.Issues.bind (isDirectory_quiet p)
    intro found
    split
    · exact Prog.Issues.pure _
    · exact Prog.Issues.throw _

theorem makeDirectories_quiet (p : Path) : (makeDirectories p : StoreProgram θ Unit).Issues Quiet := by
  induction p with
  | nil => exact mkdir_quiet []
  | cons name parent ih =>
    apply Prog.Issues.handle (Prog.Issues.perform trivial)
    intro e
    split
    · exact Prog.Issues.bind ih fun _ => mkdir_quiet _
    · apply Prog.Issues.bind (isDirectory_quiet _)
      intro found
      split
      · exact Prog.Issues.pure _
      · exact Prog.Issues.throw _

theorem verify_quiet (sha256 : Bytes → Digest) (reference : ArtifactRef) :
    (verify sha256 reference : StoreProgram θ Unit).Issues Quiet := by
  apply Prog.Issues.bind (pathForDigest_quiet _)
  intro path
  apply Prog.Issues.bind (isFile_quiet _)
  intro found
  split
  · apply Prog.Issues.bind (Prog.Issues.perform trivial)
    intro data
    split
    · exact Prog.Issues.throw _
    · exact Prog.Issues.pure _
  · exact Prog.Issues.throw _

theorem getBytes_quiet (sha256 : Bytes → Digest) (digest : String) (size : Option Nat) :
    (getBytes sha256 digest size : StoreProgram θ Bytes).Issues Quiet := by
  apply Prog.Issues.bind (pathForDigest_quiet _)
  intro path
  apply Prog.Issues.bind (isFile_quiet _)
  intro found
  split
  · apply Prog.Issues.bind (Prog.Issues.perform trivial)
    intro data
    split
    · exact Prog.Issues.throw _
    · exact Prog.Issues.pure _
  · exact Prog.Issues.throw _

variable [DecidableEq θ]

/-- One allowed call keeps the store in order and stays within what the others rely on. -/
theorem call_respects (h : Intact sha256 known s) {op : FileOp θ} (ha : Allowed sha256 known i s op) (random : String) :
    Respects sha256 known i s (Files.call op random s).2 := by
  cases op with
  | lstat p | stat p | read p => exact Respects.unchanged h
  | mkdir p => exact mkdir_step h ha
  | mkstemp caller dir namePrefix =>
    obtain ⟨rfl, hscratch⟩ := ha
    exact mkstemp_step h (hscratch random)
  | write caller n chunk =>
    obtain ⟨rfl, hn⟩ := ha
    exact write_step h hn chunk
  | link source target =>
    obtain ⟨n, data, hsource, hinode, rfl, hdata⟩ := ha
    exact link_step h hsource hinode hdata
  | unlink p => exact unlink_step h ha.1 ha.2

abbrev storeSemantics : Semantics (fileSystem θ) ArtifactError String (Files θ) := Files.semantics .osError

variable (sha256 known) in
/-- The calls on one store, under the temporary names that `tempfile` finds unused. -/
def protocol : Shared (fileSystem θ) ArtifactError String (Files θ) θ where
  exec := storeSemantics
  Inv := Intact sha256 known
  Rely := Rely
  Allowed := Allowed sha256 known
  may s op random := Files.Unused s op random
  refl := Rely.refl
  trans := Rely.trans
  step h ha _ := call_respects h ha _

theorem quiet_rely {op : FileOp θ} {random : String} (hq : Quiet op) : Rely i s (storeSemantics op random s).2 := by
  cases op with
  | lstat p | stat p | read p => exact Rely.refl i s
  | mkdir p => exact create_directory_rely s p i
  | mkstemp _ _ _ | write _ _ _ | link _ _ | unlink _ => exact hq.elim

end Autolean.ControlPlane.ArtifactStore
