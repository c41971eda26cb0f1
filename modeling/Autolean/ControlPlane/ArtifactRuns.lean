import Autolean.ControlPlane.ArtifactProtocol

/-! Runs of an artifact store: any number of calls in any interleaving, each of which may
stop for good at any point. -/
namespace Autolean.ControlPlane.ArtifactStore
open Contracts Machine Raising

variable {θ : Type} {sha256 : Bytes → Digest} {known : Set Bytes} {i : θ} {s t : Files θ}

/-- The content is published under the digest. -/
def Holds (d : Digest) (data : Bytes) (s : Files θ) : Prop :=
  ∃ n inode, s.nodes (blobPath d.value) = some (.file n) ∧ s.inodes[n]? = some inode ∧ inode.content = data

theorem Holds.stable {d : Digest} {data : Bytes} (h : Holds d data s) (hst : Rely i s t) : Holds d data t := by
  obtain ⟨n, inode, hname, hinode, hdata⟩ := h
  obtain ⟨hname', hinode'⟩ := hst.blobs d n hname
  exact ⟨n, inode, hname', hinode'.trans hinode, hdata⟩

/-- A blob under the digest of known bytes holds those bytes. -/
theorem Intact.holds (h : Intact sha256 known s) (hsha : Set.InjOn sha256 known) {data : Bytes} (hdata : data ∈ known)
    (hname : s.nodes (blobPath (sha256 data).value) ≠ none) : Holds (sha256 data) data s := by
  obtain ⟨node, hnode⟩ := Option.ne_none_iff_exists'.mp hname
  obtain ⟨n, inode, rfl, hinode, hdigest, hknown⟩ := h.blobs _ _ hnode
  exact ⟨n, inode, hnode, hinode, hsha hknown hdata hdigest⟩

/-- An unfinished file of the caller: its only name is the temporary one. -/
structure Mine (i : θ) (tempPath : Path) (n : Nat) (data : Bytes) (s : Files θ) : Prop where
  scratch : Scratch tempPath
  inode : s.inodes[n]? = some ⟨i, data⟩
  names : ∀ q, s.nodes q = some (.file n) ↔ q = tempPath

theorem Mine.unpublished {tempPath : Path} {n : Nat} {data : Bytes} (h : Mine i tempPath n data s) (d : Digest) :
    s.nodes (blobPath d.value) ≠ some (.file n) :=
  fun hd => h.scratch.2 d ((h.names _).mp hd).symm

theorem Mine.stable {tempPath : Path} {n : Nat} {data : Bytes} (h : Mine i tempPath n data s) (hst : Rely i s t) :
    Mine i tempPath n data t :=
  ⟨h.scratch, hst.own n _ h.inode rfl, fun q => (hst.names n _ h.inode rfl q).trans (h.names q)⟩

/-- The caller's temporary name. -/
def Named (i : θ) (tempPath : Path) (s : Files θ) : Prop :=
  Scratch tempPath ∧ ∃ n data, s.nodes tempPath = some (.file n) ∧ s.inodes[n]? = some ⟨i, data⟩

theorem Named.stable {tempPath : Path} (h : Named i tempPath s) (hst : Rely i s t) : Named i tempPath t := by
  obtain ⟨hscratch, n, data, hname, hinode⟩ := h
  exact ⟨hscratch, n, data, (hst.names n _ hinode rfl tempPath).mpr hname, hst.own n _ hinode rfl⟩

theorem Mine.named {tempPath : Path} {n : Nat} {data : Bytes} (h : Mine i tempPath n data s) : Named i tempPath s :=
  ⟨h.scratch, n, data, (h.names tempPath).mpr rfl, h.inode⟩

theorem StoreDirectory.parent {p : Path} (h : StoreDirectory p) : StoreDirectory p.tail := by
  match p, h with
  | [], _ => trivial
  | [_], _ => trivial
  | [_, _], h => exact .inl h
  | [_, _, _], h => exact h

/-- `os.mkdir` of a directory of the store fails only when it is there or its parent is not. -/
theorem create_directory_cases (h : Intact sha256 known s) {p : Path} (hp : StoreDirectory p) :
    ((s.create p .directory).1 ≠ .error .fileNotFound ∧ (s.create p .directory).2.nodes p = some .directory) ∨
      s.create p .directory = (.error .fileNotFound, s) ∧ p ≠ [] ∧ s.nodes p.tail ≠ some .directory := by
  cases hnode : s.nodes p with
  | some node =>
    rw [Files.create_taken hnode, hnode, h.directories p node hp hnode]
    exact .inl ⟨by simp, rfl⟩
  | none =>
    by_cases hparent : s.nodes p.tail = some .directory
    · rw [Files.create_new hnode hparent]
      exact .inl ⟨by simp, Files.setName_self ..⟩
    · have hmissing : s.nodes p.tail = none := by
        by_contra hne
        obtain ⟨node, htail⟩ := Option.ne_none_iff_exists'.mp hne
        rw [h.directories _ node hp.parent htail] at htail
        exact hparent htail
      refine .inr ⟨by simp [Files.create, Files.parentError, hnode, hmissing], ?_, hparent⟩
      rintro rfl
      rw [h.root] at hnode
      cases hnode

/-! Looking -/

variable [DecidableEq θ]

/-- A program that returns a value, from a store in order. -/
abbrev Returns (sha256 : Bytes → Digest) (known : Set Bytes) (i : θ) {α : Type} (Q : α → Files θ → Prop)
    (p : StoreProgram θ α) (s : Files θ) : Prop :=
  p.Delivers (protocol sha256 known) i Q s

/-- A call of the file system, by what it does. -/
theorem call_keeps {op : FileOp θ} {post : Except ArtifactError op.Res → Files θ → Prop}
    (h : ∀ t, Rely i s t → Intact sha256 known t → Allowed sha256 known i t op ∧ ∀ random, Files.Unused t op random →
      ∀ v, Rely i (Files.call op random t).2 v → post ((Files.call op random t).1.mapError .osError) v) :
    (issue op).Keeps (protocol sha256 known) i post s :=
  Prog.Keeps.perform fun t ht hi => ⟨(h t ht hi).1, fun random hr v hv _ => (h t ht hi).2 random hr v hv⟩

theorem call_returns {op : FileOp θ} {Q : op.Res → Files θ → Prop}
    (h : ∀ t, Rely i s t → Intact sha256 known t → Allowed sha256 known i t op ∧ ∀ random, Files.Unused t op random →
      ∃ a u, Files.call op random t = (.ok a, u) ∧ ∀ v, Rely i u v → Q a v) : Returns sha256 known i Q (issue op) s := by
  refine call_keeps fun t ht hi => ⟨(h t ht hi).1, fun random hr v hv => ?_⟩
  obtain ⟨a, u, hcall, hq⟩ := (h t ht hi).2 random hr
  rw [hcall] at hv ⊢
  exact ⟨a, rfl, hq v hv⟩

/-- A quiet program leaves what the caller relies on. -/
theorem Returns.quiet {α : Type} {Q : α → Files θ → Prop} {p : StoreProgram θ α} (h : Returns sha256 known i Q p s)
    (hp : p.Issues Quiet) : Returns sha256 known i (fun a t => Q a t ∧ Rely i s t) p s := by
  have hq := Prog.Keeps.quiet (fun _ hok _ _ => quiet_rely hok) hp h
  exact hq.mono fun r t _ ⟨⟨a, ha, hqa⟩, hst⟩ => ⟨a, ha, hqa, hst⟩

/-- The reply was true of a store that others may have changed since. -/
def Seen (sha256 : Bytes → Digest) (known : Set Bytes) (i : θ) (s : Files θ) (p : Path) (node : Option Node)
    (t : Files θ) : Prop :=
  ∃ u, Rely i s u ∧ Intact sha256 known u ∧ Rely i u t ∧ node = u.nodes p

theorem lstat_returns (p : Path) : Returns sha256 known i (Seen sha256 known i s p) (issue (.lstat p)) s :=
  call_returns fun t ht hi => ⟨trivial, fun _ _ => ⟨_, t, rfl, fun _ hv => ⟨t, ht, hi, hv, rfl⟩⟩⟩

theorem stat_returns (p : Path) : Returns sha256 known i (Seen sha256 known i s p) (issue (.stat p)) s := by
  refine call_returns fun t ht hi => ⟨trivial, fun _ _ => ⟨_, t, rfl, fun _ hv => ⟨t, ht, hi, hv, ?_⟩⟩⟩
  have hlink := hi.noLink p
  unfold Files.follow
  split
  · contradiction
  · rfl

theorem read_returns {d : Digest} {data : Bytes} (h : Holds d data s) :
    Returns sha256 known i (fun content _ => content = data) (issue (.read (blobPath d.value))) s := by
  refine call_returns fun t ht _ => ⟨trivial, fun _ _ => ⟨data, t, ?_, fun _ _ => rfl⟩⟩
  obtain ⟨n, inode, hname, hinode, rfl⟩ := h.stable ht
  simp only [Files.call, Files.readFile, hname, hinode]

theorem assertNoLink_returns (hs : Intact sha256 known s) (p : Path) :
    Returns sha256 known i (fun _ _ => True) (assertNoLink p) s := by
  refine Prog.Delivers.bind hs (lstat_returns p) fun node t _ ⟨u, _, hu, _, hnode⟩ => ?_
  rw [hnode, if_neg (hu.noLink p)]
  exact Prog.Delivers.pure fun _ _ _ => trivial

theorem assertSafeStorePath_returns (hs : Intact sha256 known s) (p : Path) :
    Returns sha256 known i (fun _ _ => True) (assertSafeStorePath p) s := by
  induction p generalizing s with
  | nil => exact assertNoLink_returns hs []
  | cons name parent ih => exact Prog.Delivers.bind hs (ih hs) fun _ t ht _ => assertNoLink_returns ht _

theorem pathForDigest_returns (hs : Intact sha256 known s) (d : Digest) :
    Returns sha256 known i (fun p t => p = blobPath d.value ∧ Rely i s t) (pathForDigest d.value) s := by
  apply Returns.quiet _ (pathForDigest_quiet d.value)
  unfold pathForDigest
  rw [if_neg (not_not.mpr d.isSha256)]
  refine Prog.Delivers.bind hs (assertSafeStorePath_returns hs _) fun _ t _ _ => ?_
  exact Prog.Delivers.pure fun _ _ _ => rfl

theorem isFile_returns (hs : Intact sha256 known s) {d : Digest} {data : Bytes} (h : Holds d data s) :
    Returns sha256 known i (fun found t => found = true ∧ Rely i s t) (isFile (blobPath d.value)) s := by
  apply Returns.quiet _ (isFile_quiet _)
  refine Prog.Delivers.bind hs (stat_returns _) fun node t _ ⟨u, hsu, _, _, hnode⟩ => ?_
  obtain ⟨n, -, hname, -⟩ := h.stable hsu
  rw [hnode, hname]
  exact Prog.Delivers.pure fun _ _ _ => rfl

/-- The checks of `verify` pass on a blob that holds the content. -/
theorem verify_returns (hs : Intact sha256 known s) {data : Bytes} (h : Holds (sha256 data) data s) :
    Returns sha256 known i (fun _ t => Rely i s t) (verify sha256 ⟨sha256 data, data.length⟩) s := by
  refine Prog.Delivers.mono (Q := fun _ t => True ∧ Rely i s t) ?_ fun _ _ _ h => h.2
  apply Returns.quiet _ (verify_quiet sha256 _)
  refine Prog.Delivers.bind hs (pathForDigest_returns hs _) ?_
  rintro _ t ht ⟨rfl, hst⟩
  refine Prog.Delivers.bind ht (isFile_returns ht (h.stable hst)) ?_
  rintro _ u hu ⟨rfl, htu⟩
  rw [if_pos rfl]
  refine Prog.Delivers.bind hu (read_returns ((h.stable hst).stable htu)) ?_
  intro content v _ hcontent
  rw [if_neg (by simp [hcontent])]
  exact Prog.Delivers.pure fun _ _ _ => trivial

/-- A reference to content the store holds gets that content. -/
theorem getBytes_returns (hs : Intact sha256 known s) {data : Bytes} (h : Holds (sha256 data) data s) :
    Returns sha256 known i (fun content _ => content = data) (getBytes sha256 (sha256 data).value (some data.length)) s := by
  refine Prog.Delivers.bind hs (pathForDigest_returns hs _) ?_
  rintro _ t ht ⟨rfl, hst⟩
  refine Prog.Delivers.bind ht (isFile_returns ht (h.stable hst)) ?_
  rintro _ u hu ⟨rfl, htu⟩
  rw [if_pos rfl]
  refine Prog.Delivers.bind hu (read_returns ((h.stable hst).stable htu)) ?_
  intro content v _ hcontent
  rw [if_neg (by simp [hcontent])]
  exact Prog.Delivers.pure fun _ _ _ => hcontent

/-- Content found under its name is held. -/
theorem pathExists_returns (hs : Intact sha256 known s) (hsha : Set.InjOn sha256 known) {data : Bytes} (hdata : data ∈ known) :
    Returns sha256 known i (fun found t => (found = true → Holds (sha256 data) data t) ∧ Rely i s t)
      (pathExists (blobPath (sha256 data).value)) s := by
  apply Returns.quiet _ (pathExists_quiet _)
  refine Prog.Delivers.bind hs (stat_returns _) fun node t _ ⟨u, _, hu, hut, hnode⟩ => ?_
  refine Prog.Delivers.pure fun v htv _ hfound => ?_
  have hname : u.nodes (blobPath (sha256 data).value) ≠ none := by
    rw [← hnode]
    exact Option.isSome_iff_ne_none.mp hfound
  exact ((hu.holds hsha hdata hname).stable hut).stable htv

/-! Making directories -/

theorem isDirectory_returns (hs : Intact sha256 known s) {p : Path} (h : s.nodes p = some .directory) :
    Returns sha256 known i (fun found _ => found = true) (isDirectory p) s := by
  refine Prog.Delivers.bind hs (stat_returns _) fun node t _ ⟨u, hsu, _, _, hnode⟩ => ?_
  rw [hnode, hsu.directories p h]
  exact Prog.Delivers.pure fun _ _ _ => rfl

theorem mkdir_call {p : Path} (hp : StoreDirectory p) :
    (issue (.mkdir p)).Keeps (protocol sha256 known) i (fun r t =>
      (r ≠ .error (.osError .fileNotFound) ∧ t.nodes p = some .directory) ∨
      (r = .error (.osError .fileNotFound) ∧ p ≠ [] ∧ s.nodes p.tail ≠ some .directory)) s := by
  refine call_keeps fun t ht hi => ⟨hp, fun _ _ u hu => ?_⟩
  simp only [Files.call] at hu ⊢
  obtain ⟨hreply, hthere⟩ | ⟨hcall, hne, hparent⟩ := create_directory_cases hi hp
  · refine .inl ⟨?_, hu.directories p hthere⟩
    cases hr : (t.create p .directory).1 with
    | ok a => exact nofun
    | error e =>
      rw [hr] at hreply
      simpa [Except.mapError] using hreply
  · rw [hcall]
    exact .inr ⟨rfl, hne, fun h => hparent (ht.directories _ h)⟩

/-- A name that is in use is fine when it is a directory. -/
theorem existing_returns (hs : Intact sha256 known s) {p : Path} (h : s.nodes p = some .directory) (e : ArtifactError) :
    Returns sha256 known i (fun _ t => t.nodes p = some .directory)
      (do if ← isDirectory p then pure () else throw e) s := by
  refine Prog.Delivers.bind hs ((isDirectory_returns hs h).quiet (isDirectory_quiet p)) ?_
  rintro _ t _ ⟨rfl, hst⟩
  exact Prog.Delivers.pure fun u htu _ => htu.directories p (hst.directories p h)

theorem mkdir_returns (hs : Intact sha256 known s) {p : Path} (hp : StoreDirectory p)
    (hparent : p = [] ∨ s.nodes p.tail = some .directory) :
    Returns sha256 known i (fun _ t => t.nodes p = some .directory) (mkdir p) s := by
  refine Prog.Keeps.handle hs (mkdir_call hp) ?_ ?_
  · rintro a t _ (⟨-, hthere⟩ | ⟨⟨⟩, -⟩)
    exact ⟨a, rfl, hthere⟩
  · rintro e t ht (⟨hne, hthere⟩ | ⟨-, hroot, hmissing⟩)
    · rw [if_neg fun he => hne (congrArg _ he)]
      exact existing_returns ht hthere e
    · exact absurd hparent (not_or.mpr ⟨hroot, hmissing⟩)

theorem makeDirectories_returns (hs : Intact sha256 known s) {p : Path} (hp : StoreDirectory p) :
    Returns sha256 known i (fun _ t => t.nodes p = some .directory ∧ Rely i s t) (makeDirectories p) s := by
  apply Returns.quiet _ (makeDirectories_quiet p)
  induction p generalizing s with
  | nil => exact mkdir_returns hs hp (.inl rfl)
  | cons name parent ih =>
    refine Prog.Keeps.handle hs (mkdir_call hp) ?_ ?_
    · rintro a t _ (⟨-, hthere⟩ | ⟨⟨⟩, -⟩)
      exact ⟨a, rfl, hthere⟩
    · rintro e t ht (⟨hne, hthere⟩ | ⟨he, -, -⟩)
      · rw [if_neg fun he => hne (congrArg _ he)]
        exact existing_returns ht hthere e
      · rw [if_pos (Except.error.inj he)]
        refine Prog.Delivers.bind ht (ih ht hp.parent) fun _ u hu hparent => ?_
        exact mkdir_returns hu hp (.inr hparent)

/-! The temporary file -/

theorem mkstemp_returns {dir : Path} {namePrefix : String} (hscratch : ∀ random, Scratch ((namePrefix ++ random) :: dir))
    (hdir : s.nodes dir = some .directory) :
    Returns sha256 known i (fun r t => Mine i r.1 r.2 [] t ∧ t.nodes dir = some .directory)
      (issue (.mkstemp i dir namePrefix)) s := by
  refine call_returns fun t ht hi => ⟨⟨rfl, hscratch⟩, fun random hfree => ?_⟩
  have hdir' := ht.directories dir hdir
  refine ⟨((namePrefix ++ random) :: dir, t.inodes.length),
    { t.setName ((namePrefix ++ random) :: dir) (some (.file t.inodes.length)) with inodes := t.inodes ++ [⟨i, []⟩] }, ?_,
    fun v hv => ⟨Mine.stable ⟨hscratch random, List.getElem?_concat_length .., fun q => ?_⟩ hv, hv.directories dir ?_⟩⟩
  · simp only [Files.call, Files.openTemporary, Files.create_new (show t.nodes _ = none from hfree) hdir']
  · change Function.update t.nodes _ _ q = _ ↔ _
    by_cases hq : q = (namePrefix ++ random) :: dir
    · simp [hq]
    · rw [Function.update_of_ne hq]
      exact iff_of_false (fun h => absurd (hi.bounded q _ h) (lt_irrefl _)) hq
  · change Function.update t.nodes _ _ dir = _
    rw [Function.update_of_ne (by simp)]
    exact hdir'

theorem write_returns {tempPath dir : Path} {n : Nat} {data : Bytes} (h : Mine i tempPath n data s)
    (hdir : s.nodes dir = some .directory) (chunk : Bytes) :
    Returns sha256 known i (fun _ t => Mine i tempPath n (data ++ chunk) t ∧ t.nodes dir = some .directory)
      (issue (.write i n chunk)) s := by
  refine call_returns fun t ht _ => ⟨⟨rfl, (h.stable ht).unpublished⟩, fun random _ => ?_⟩
  have hmine := h.stable ht
  refine ⟨(), { t with inodes := t.inodes.set n ⟨i, data ++ chunk⟩ }, ?_, fun v hv => ?_⟩
  · simp only [Files.call, Files.append, hmine.inode, if_true]
  · refine ⟨Mine.stable ?_ hv, hv.directories dir (ht.directories dir hdir)⟩
    exact ⟨h.scratch, List.getElem?_set_self (List.getElem?_eq_some_iff.mp hmine.inode).1, hmine.names⟩

/-- Linking a finished file under its digest finds it published, by whomever. -/
theorem link_call (hsha : Set.InjOn sha256 known) {data : Bytes} (hdata : data ∈ known)
    {tempPath : Path} {n : Nat} (h : Mine i tempPath n data s)
    (hdir : s.nodes (blobPath (sha256 data).value).tail = some .directory) :
    (issue (.link tempPath (blobPath (sha256 data).value))).Keeps (protocol sha256 known) i (fun r t =>
      (r = .ok () ∨ r = .error (.osError .fileExists)) ∧ Named i tempPath t ∧ Holds (sha256 data) data t) s := by
  refine call_keeps fun t ht hi => ?_
  have hmine := h.stable ht
  have hname := (hmine.names tempPath).mpr rfl
  refine ⟨⟨n, data, hname, hmine.inode, rfl, hdata⟩, fun random _ u hu => ?_⟩
  simp only [Files.call, linkFile_of_file hname] at hu ⊢
  cases hnode : t.nodes (blobPath (sha256 data).value) with
  | some node =>
    rw [Files.create_taken hnode] at hu ⊢
    have hholds := hi.holds hsha hdata (by rw [hnode]; exact Option.some_ne_none _)
    exact ⟨.inr rfl, hmine.named.stable hu, hholds.stable hu⟩
  | none =>
    rw [Files.create_new hnode (ht.directories _ hdir)] at hu ⊢
    refine ⟨.inl rfl, Named.stable ?_ hu, Holds.stable ?_ hu⟩
    · refine ⟨h.scratch, n, data, ?_, hmine.inode⟩
      rw [Files.setName_of_ne _ _ (h.scratch.2 _)]
      exact hname
    · exact ⟨n, _, Files.setName_self .., hmine.inode, rfl⟩

theorem linkSuppressed_returns (hs : Intact sha256 known s) (hsha : Set.InjOn sha256 known) {data : Bytes} (hdata : data ∈ known)
    {tempPath : Path} {n : Nat} (h : Mine i tempPath n data s)
    (hdir : s.nodes (blobPath (sha256 data).value).tail = some .directory) :
    Returns sha256 known i (fun _ t => Named i tempPath t ∧ Holds (sha256 data) data t)
      (linkSuppressed tempPath (blobPath (sha256 data).value)) s := by
  refine Prog.Keeps.handle hs (link_call hsha hdata h hdir) ?_ ?_
  · rintro a t _ ⟨-, hpost⟩
    exact ⟨a, rfl, hpost⟩
  · rintro e t _ ⟨⟨⟨⟩⟩ | ⟨⟨⟩⟩, hnamed, hholds⟩
    rw [if_pos rfl]
    exact Prog.Delivers.pure fun u hu _ => ⟨hnamed.stable hu, hholds.stable hu⟩

theorem unlink_returns (hs : Intact sha256 known s) {tempPath : Path} (h : Named i tempPath s) {d : Digest} {data : Bytes}
    (hdata : Holds d data s) : Returns sha256 known i (fun _ t => Holds d data t) (unlink tempPath) s := by
  apply Prog.Delivers.handle hs
  refine call_returns fun t ht _ => ?_
  obtain ⟨hscratch, n, content, hname, hinode⟩ := h.stable ht
  refine ⟨⟨hscratch, fun m inode hm hn => ?_⟩, fun random _ => ⟨(), t.setName tempPath none, ?_, fun v hv => ?_⟩⟩
  · rw [hname] at hm
    cases hm
    rw [hinode] at hn
    cases hn
    rfl
  · simp only [Files.call, Files.removeFile, hname]
  · obtain ⟨m, inode, hblob, hm, hc⟩ := hdata.stable ht
    refine Holds.stable ?_ hv
    refine ⟨m, inode, ?_, hm, hc⟩
    rw [Files.setName_of_ne _ _ (hscratch.2 d).symm]
    exact hblob

/-! The calls -/

theorem withTemporary_returns {α : Type} (hs : Intact sha256 known s) {tempPath : Path} {body : StoreProgram θ (α × Bool)}
    {Q : α → Prop} {d : Digest} {v : Bytes}
    (h : Returns sha256 known i (fun r t => Q r.1 ∧ Holds d v t ∧ (r.2 = false → Named i tempPath t)) body s) :
    Returns sha256 known i (fun a t => Q a ∧ Holds d v t) (withTemporary tempPath body) s := by
  refine Prog.Delivers.bind hs (Prog.Delivers.handle hs h) ?_
  rintro ⟨value, removed⟩ t ht ⟨hq, hholds, hnamed⟩
  cases removed with
  | true => exact Prog.Delivers.pure fun u hu _ => ⟨hq, hholds.stable hu⟩
  | false =>
    refine Prog.Delivers.bind ht (unlink_returns ht (hnamed rfl) hholds) fun _ u hu hholds' => ?_
    exact Prog.Delivers.pure fun v hv _ => ⟨hq, hholds'.stable hv⟩

/-- The reference to content that is stored from then on. -/
def Stored (sha256 : Bytes → Digest) (data : Bytes) (r : ArtifactRef) (s : Files θ) : Prop :=
  r = ⟨sha256 data, data.length⟩ ∧ Holds (sha256 data) data s

theorem blob_parent (digest : String) : StoreDirectory (blobPath digest).tail := rfl

theorem putBytes_returns (hs : Intact sha256 known s) (hsha : Set.InjOn sha256 known) {data : Bytes} (hdata : data ∈ known) :
    Returns sha256 known i (Stored sha256 data) (putBytes sha256 i data) s := by
  have hverified : ∀ {t : Files θ}, Intact sha256 known t → Holds (sha256 data) data t →
    Returns sha256 known i (Stored sha256 data)
      (do verify sha256 ⟨sha256 data, data.length⟩; pure ⟨sha256 data, data.length⟩) t := by
    intro t ht hholds
    refine Prog.Delivers.bind ht (verify_returns ht hholds) fun _ u _ htu => ?_
    exact Prog.Delivers.pure fun v huv _ => ⟨rfl, (hholds.stable htu).stable huv⟩
  refine Prog.Delivers.bind hs (pathForDigest_returns hs _) ?_
  rintro _ t ht ⟨rfl, -⟩
  refine Prog.Delivers.bind ht (pathExists_returns ht hsha hdata) ?_
  rintro found u hu ⟨hfound, -⟩
  cases found with
  | true => exact hverified hu (hfound rfl)
  | false =>
    refine Prog.Delivers.bind hu (makeDirectories_returns hu (blob_parent _)) ?_
    rintro _ v hv ⟨hdir, -⟩
    refine Prog.Delivers.bind hv (mkstemp_returns (fun random => scratch_incoming random _ _) hdir) ?_
    rintro ⟨tempPath, handle⟩ w hw ⟨hmine, hdir'⟩
    refine Prog.Delivers.bind hw (withTemporary_returns (Q := fun _ => True) (d := sha256 data) (v := data) hw ?_) ?_
    · refine Prog.Delivers.bind hw (write_returns hmine hdir' data) ?_
      rintro _ x hx ⟨hmine', hdir''⟩
      refine Prog.Delivers.bind hx (linkSuppressed_returns hx hsha hdata hmine' hdir'') ?_
      rintro _ y _ ⟨hnamed, hholds⟩
      exact Prog.Delivers.pure fun z hz _ => ⟨trivial, hholds.stable hz, fun _ => hnamed.stable hz⟩
    · rintro _ x hx ⟨-, hholds⟩
      exact hverified hx hholds

theorem copyChunks_returns (hs : Intact sha256 known s) {tempPath dir : Path} {n : Nat} {chunks : List Bytes} {hashed : Bytes}
    (h : Mine i tempPath n hashed s) (hdir : s.nodes dir = some .directory) :
    Returns sha256 known i (fun r t => r = (hashed ++ chunks.flatten, (hashed ++ chunks.flatten).length) ∧
      Mine i tempPath n (hashed ++ chunks.flatten) t) (copyChunks i n chunks hashed hashed.length) s := by
  induction chunks generalizing hashed s with
  | nil =>
    refine Prog.Delivers.pure fun t ht _ => ?_
    rw [List.flatten_nil, List.append_nil]
    exact ⟨rfl, h.stable ht⟩
  | cons chunk rest ih =>
    refine Prog.Delivers.bind hs (write_returns h hdir chunk) ?_
    rintro _ t ht ⟨hmine, hdir'⟩
    rw [← List.length_append, List.flatten_cons, ← List.append_assoc]
    exact ih ht hmine hdir'

theorem putFile_returns (hs : Intact sha256 known s) (hsha : Set.InjOn sha256 known) {data : Bytes} (hdata : data ∈ known)
    {chunkSize : Int} (hsize : 0 < chunkSize) :
    Returns sha256 known i (Stored sha256 data) (putFile sha256 i (.file data) chunkSize) s := by
  have hflatten : (chunks chunkSize.toNat data).flatten = data := chunks_flatten (by omega) data
  unfold putFile
  rw [if_neg (by omega)]
  refine Prog.Delivers.bind hs (makeDirectories_returns hs (.inr rfl)) ?_
  rintro _ t ht ⟨hdir, -⟩
  refine Prog.Delivers.bind ht (mkstemp_returns scratch_staging hdir) ?_
  rintro ⟨tempPath, handle⟩ u hu ⟨hmine, hdir'⟩
  refine (withTemporary_returns (Q := fun r =>
    r = (⟨sha256 data, data.length⟩ : ArtifactRef)) (d := sha256 data) (v := data) hu ?_)
  refine Prog.Delivers.bind hu (copyChunks_returns hu hmine hdir') ?_
  rintro ⟨hashed, size⟩ v hv ⟨hcopied, hmine'⟩
  rw [hflatten, List.nil_append] at hcopied hmine'
  obtain ⟨rfl, rfl⟩ := Prod.mk.inj hcopied
  refine Prog.Delivers.bind hv (pathForDigest_returns hv _) ?_
  rintro _ w hw ⟨rfl, hvw⟩
  refine Prog.Delivers.bind hw (makeDirectories_returns hw (blob_parent _)) ?_
  rintro _ x hx ⟨hparent, hwx⟩
  refine Prog.Delivers.bind hx (pathExists_returns hx hsha hdata) ?_
  rintro found y hy ⟨hfound, hxy⟩
  have hmine'' := ((hmine'.stable hvw).stable hwx).stable hxy
  cases found with
  | true =>
    refine Prog.Delivers.bind hy (verify_returns hy (hfound rfl)) fun _ z hz hyz => ?_
    refine Prog.Delivers.bind hz (unlink_returns hz (hmine''.named.stable hyz) ((hfound rfl).stable hyz)) fun _ z' _ hholds => ?_
    exact Prog.Delivers.pure fun z'' hz'' _ => ⟨rfl, hholds.stable hz'', nofun⟩
  | false =>
    refine Prog.Delivers.bind hy (linkSuppressed_returns hy hsha hdata hmine'' (hxy.directories _ hparent)) ?_
    rintro _ z hz ⟨hnamed, hholds⟩
    refine Prog.Delivers.bind hz (verify_returns hz hholds) fun _ z' _ hzz' => ?_
    exact Prog.Delivers.pure fun z'' hz'' _ => ⟨rfl, (hholds.stable hzz').stable hz'', fun _ => (hnamed.stable hzz').stable hz''⟩

/-! Runs -/

/-- The bytes the calls are given and those the store holds from the start. -/
def Contents (calls : θ → PutCall) (start : Files θ) : Set Bytes :=
  {data | (∃ i, (calls i).payload = some data) ∨ ∃ d, Holds d data start}

/-- The calls, none of which has begun. -/
def pool (sha256 : Bytes → Digest) (calls : θ → PutCall) (start : Files θ) :
    Pool (fileSystem θ) ArtifactError (Files θ) θ ArtifactRef :=
  ⟨start, fun i => (calls i).program sha256 i⟩

/-- What a call that has returned or raised is about. -/
def Outcome (sha256 : Bytes → Digest) (call : PutCall) : Except ArtifactError ArtifactRef → Files θ → Prop
  | .ok r, s => ∃ data, call.payload = some data ∧ Stored sha256 data r s
  | .error e, _ => call.refusal = some e

omit [DecidableEq θ] in
theorem Intact.of_univ (h : Intact sha256 Set.univ s) (calls : θ → PutCall) : Intact sha256 (Contents calls s) s := by
  refine ⟨h.root, h.noLink, h.bounded, h.directories, fun d node hnode => ?_⟩
  obtain ⟨n, inode, rfl, hinode, hdigest, -⟩ := h.blobs d node hnode
  exact ⟨n, inode, rfl, hinode, hdigest, .inr ⟨d, n, inode, hnode, hinode, rfl⟩⟩

omit [DecidableEq θ] in
theorem putFile_refused {source : Source} {chunkSize : Int} {e : ArtifactError}
    (h : (PutCall.putFile source chunkSize).refusal = some e) : putFile sha256 i source chunkSize = throw e := by
  unfold putFile
  by_cases hsize : chunkSize ≤ 0
  · simp only [PutCall.refusal, if_pos hsize, Option.some.injEq] at h
    rw [if_pos hsize, h]
    rfl
  · cases source with
    | link | absent =>
      simp only [PutCall.refusal, if_neg hsize, Option.some.injEq] at h
      rw [if_neg hsize, ← h]
    | file content => simp [PutCall.refusal, hsize] at h

theorem program_keeps (hs : Intact sha256 known s) (hsha : Set.InjOn sha256 known) {call : PutCall}
    (hknown : ∀ data, call.payload = some data → data ∈ known) :
    (call.program sha256 i).Keeps (protocol sha256 known) i (Outcome sha256 call) s := by
  have hreturns : ∀ {p : StoreProgram θ ArtifactRef} {data : Bytes}, call.payload = some data →
      Returns sha256 known i (Stored sha256 data) p s → p.Keeps (protocol sha256 known) i (Outcome sha256 call) s := by
    intro p data hdata h
    refine Prog.Keeps.mono h ?_
    rintro _ t _ ⟨a, rfl, hstored⟩
    exact ⟨data, hdata, hstored⟩
  cases call with
  | putBytes data => exact hreturns rfl (putBytes_returns hs hsha (hknown data rfl))
  | putFile source chunkSize =>
    cases hrefusal : (PutCall.putFile source chunkSize).refusal with
    | some e =>
      simp only [PutCall.program, putFile_refused hrefusal]
      exact fun t _ _ => hrefusal
    | none =>
      have hsize : ¬ chunkSize ≤ 0 := fun hle => by simp [PutCall.refusal, hle] at hrefusal
      cases source with
      | file data => exact hreturns rfl (putFile_returns hs hsha (hknown data rfl) (by omega))
      | link | absent => simp [PutCall.refusal, hsize] at hrefusal

/-- At every moment of every run each blob holds bytes with its digest; a reference that a
call returned gets the bytes put at every later moment; and a call raises only for its own
arguments. -/
theorem store_is_immutable (sha256 : Bytes → Digest) (calls : θ → PutCall) (start : Files θ)
    (hstart : Intact sha256 Set.univ start) (hsha : Set.InjOn sha256 (Contents calls start)) (labels more : List (θ × String))
    (hnames : StepsMeet (Pool.step storeSemantics) (Pool.Admits Files.Unused) (pool sha256 calls start) (labels ++ more)) :
    let now := run (Pool.step storeSemantics) (pool sha256 calls start) labels
    let later := run (Pool.step storeSemantics) (pool sha256 calls start) (labels ++ more)
    (∀ (d : Digest) n, now.state.nodes (blobPath d.value) = some (.file n) →
      ∃ inode, now.state.inodes[n]? = some inode ∧ sha256 inode.content = d) ∧
    (∀ i r, now.threads i = .done (.ok r) → ∃ data, (calls i).payload = some data ∧
      ∀ inputs, ((getBytes sha256 r.digest.value (some r.size)).execute storeSemantics inputs later.state).1 = .ok data) ∧
    ∀ i e, now.threads i = .done (.error e) → (calls i).refusal = some e := by
  intro now later
  have hintact := hstart.of_univ calls
  have hbegin : (pool sha256 calls start).Fair (protocol sha256 (Contents calls start)) fun i => Outcome sha256 (calls i) :=
    ⟨hintact, fun i => program_keeps hintact hsha fun data hdata => .inl ⟨i, hdata⟩⟩
  have hnow : now.Fair (protocol sha256 (Contents calls start)) _ := hbegin.run ((stepsMeet_append _ _ _).mp hnames).1
  have hlater : later.Fair (protocol sha256 (Contents calls start)) _ := hbegin.run hnames
  refine ⟨fun d n hn => ?_, fun i r hr => ?_, fun i e he => hnow.result he⟩
  · obtain ⟨m, inode, hm, hinode, hdigest, -⟩ := hnow.inv.blobs d _ hn
    cases hm
    exact ⟨inode, hinode, hdigest⟩
  · have hkept : later.threads i = .done (.ok r) := by
      have happend : later = run (Pool.step storeSemantics) now more := run_append ..
      rw [happend]
      exact Pool.run_kept hr more
    obtain ⟨data, hdata, rfl, hholds⟩ := hlater.result hkept
    refine ⟨data, hdata, fun inputs => ?_⟩
    have hmay : ∀ t (op : FileOp θ) random, Quiet op → (protocol sha256 (Contents calls start)).may t op random := by
      intro t op random hq
      cases op <;> trivial
    obtain ⟨content, hcontent, rfl⟩ := (getBytes_returns (i := i) hlater.inv hholds).execute hmay (getBytes_quiet sha256 _ _)
      hlater.inv inputs
    exact hcontent

/-- A store as its constructor leaves it. -/
def freshStore {θ : Type} : Files θ := ⟨fun p => if p = [] ∨ p = ["sha256"] then some .directory else none, []⟩

omit [DecidableEq θ] in
theorem freshStore_intact (sha256 : Bytes → Digest) : Intact sha256 Set.univ (freshStore : Files θ) := by
  have hnode : ∀ {p node}, (freshStore : Files θ).nodes p = some node → node = .directory ∧ (p = [] ∨ p = ["sha256"]) := by
    intro p node h
    simp only [freshStore, Option.ite_none_right_eq_some, Option.some.injEq] at h
    exact ⟨h.2.symm, h.1⟩
  refine ⟨rfl, fun p hp => ?_, fun p n hp => ?_, fun p node _ hp => (hnode hp).1, fun d node hp => ?_⟩
  · cases (hnode hp).1
  · cases (hnode hp).1
  · obtain ⟨-, h | h⟩ := hnode hp <;> simp [blobPath] at h

omit [DecidableEq θ] in
theorem contents_freshStore (calls : θ → PutCall) : Contents calls freshStore = {data | ∃ i, (calls i).payload = some data} := by
  ext data
  constructor
  · rintro (h | ⟨d, n, inode, hname, hinode, -⟩)
    · exact h
    · simp [freshStore] at hinode
  · exact .inl

instance (c : Pool (fileSystem θ) ArtifactError (Files θ) θ ArtifactRef) (l : θ × String) :
    Decidable (c.Admits Files.Unused l) := by
  unfold Pool.Admits
  split
  · exact .isTrue trivial
  · rename_i op _ _
    cases op <;> (unfold Files.Unused; infer_instance)

/-- The reference a call has returned. -/
def returned (c : Pool (fileSystem θ) ArtifactError (Files θ) θ ArtifactRef) (i : θ) : Option ArtifactRef :=
  match c.threads i with
  | .done (.ok r) => some r
  | _ => none

omit [DecidableEq θ] in
theorem returned_eq_some {c : Pool (fileSystem θ) ArtifactError (Files θ) θ ArtifactRef} {i : θ} {r : ArtifactRef}
    (h : returned c i = some r) : c.threads i = .done (.ok r) := by
  unfold returned at h
  split at h
  · cases h
    assumption
  · cases h

/-! Two calls that store one content and a third that stores another, in turns -/

def sampleCalls : Fin 3 → PutCall
  | 0 => .putBytes [1, 2]
  | 1 => .putFile (.file [1, 2]) 1
  | 2 => .putFile (.file [7, 8, 9]) 2

def pairDigest : Digest := ⟨String.ofList (List.replicate 64 'a'), by decide⟩

def tripleDigest : Digest := ⟨String.ofList (List.replicate 64 'b'), by decide⟩

def lengthDigest (data : Bytes) : Digest := if data.length = 2 then pairDigest else tripleDigest

theorem lengthDigest_injOn : Set.InjOn lengthDigest (Contents sampleCalls freshStore) := by
  have hpayload {data : Bytes} (h : data ∈ Contents sampleCalls freshStore) : data = [1, 2] ∨ data = [7, 8, 9] := by
    rw [contents_freshStore] at h
    obtain ⟨i, hi⟩ := h
    fin_cases i <;> simp_all [sampleCalls, PutCall.payload]
  intro a ha b hb
  obtain rfl | rfl := hpayload ha <;> obtain rfl | rfl := hpayload hb <;> decide

def storeRounds (n : Nat) : List (Fin 3 × String) :=
  (List.replicate n ((List.finRange 3).zip ["x", "y", "z"])).flatten

theorem storeRounds_returned :
    let start := pool lengthDigest sampleCalls freshStore
    StepsMeet (Pool.step storeSemantics) (Pool.Admits Files.Unused) start (storeRounds 20 ++ storeRounds 5) ∧
      returned (run (Pool.step storeSemantics) start (storeRounds 20)) 0 = some ⟨pairDigest, 2⟩ ∧
      returned (run (Pool.step storeSemantics) start (storeRounds 20)) 2 = none ∧
      returned (run (Pool.step storeSemantics) start (storeRounds 20 ++ storeRounds 5)) 1 = some ⟨pairDigest, 2⟩ ∧
      returned (run (Pool.step storeSemantics) start (storeRounds 20 ++ storeRounds 5)) 2 = some ⟨tripleDigest, 3⟩ := by
  decide +kernel

/-- The first content is read back while the other is still being copied, and both at the end. -/
theorem store_is_immutable_sample :
    let start := pool lengthDigest sampleCalls freshStore
    let now := run (Pool.step storeSemantics) start (storeRounds 20)
    let later := run (Pool.step storeSemantics) start (storeRounds 20 ++ storeRounds 5)
    let get := fun (r : ArtifactRef) inputs (s : Files (Fin 3)) =>
      ((getBytes lengthDigest r.digest.value (some r.size)).execute storeSemantics inputs s).1
    returned now 2 = none ∧ (∀ inputs, get ⟨pairDigest, 2⟩ inputs now.state = .ok [1, 2]) ∧
      (∀ inputs, get ⟨pairDigest, 2⟩ inputs later.state = .ok [1, 2]) ∧
      ∀ inputs, get ⟨tripleDigest, 3⟩ inputs later.state = .ok [7, 8, 9] := by
  intro start now later get
  obtain ⟨hnames, hfirst, hcopying, -, hthird⟩ := storeRounds_returned
  have hnow := ((stepsMeet_append _ _ _).mp hnames).1
  have himmutable := store_is_immutable lengthDigest sampleCalls freshStore (freshStore_intact _) lengthDigest_injOn
  obtain ⟨_, ⟨⟩, hread⟩ := (himmutable (storeRounds 20) [] (by rwa [List.append_nil])).2.1 0 _ (returned_eq_some hfirst)
  obtain ⟨_, ⟨⟩, hkept⟩ := (himmutable (storeRounds 20) (storeRounds 5) hnames).2.1 0 _ (returned_eq_some hfirst)
  obtain ⟨_, ⟨⟩, hlast⟩ := (himmutable (storeRounds 20 ++ storeRounds 5) [] (by rwa [List.append_nil])).2.1 2 _
    (returned_eq_some hthird)
  rw [List.append_nil] at hread hlast
  exact ⟨hcopying, hread, hkept, hlast⟩

end Autolean.ControlPlane.ArtifactStore
