import Autolean.Library.DependencyLinks

/-! The build inputs in the directory tree of a Library root: what the walk selects, the map
from their paths to their contents, and a digest that tells two maps apart. -/
namespace Autolean.Library
open Machine Machine.Raising Text

/-! The bytes of texts -/

theorem encode_eq (text : String) : encode text = text.toList.flatMap String.utf8EncodeChar := by
  obtain ⟨chars, rfl⟩ : ∃ chars, text = String.ofList chars := ⟨text.toList, String.ofList_toList.symm⟩
  rw [encode, String.toUTF8_eq_toByteArray, String.toByteArray_ofList, String.toList_ofList]
  simp [List.utf8Encode]

theorem encode_append (a b : String) : encode (a ++ b) = encode a ++ encode b := by
  rw [encode_eq, encode_eq, encode_eq, String.toList_append, List.flatMap_append]

theorem encode_injective : Function.Injective encode := by
  intro a b h
  have hsome := fromUTF8?_encode a
  rw [h, fromUTF8?_encode] at hsome
  exact (Option.some.inj hsome).symm

theorem hexByte_inj {a b : UInt8} (h : hexByte a = hexByte b) : a = b := by
  have hdigit : ∀ m < 16, ∀ n < 16, Nat.digitChar m = Nat.digitChar n → m = n := by decide
  have ha := a.toNat_lt
  have hb := b.toNat_lt
  simp only [hexByte, List.cons.injEq, and_true] at h
  have hhigh := hdigit (a.toNat / 16) (by omega) (b.toNat / 16) (by omega) h.1
  have hlow := hdigit (a.toNat % 16) (by omega) (b.toNat % 16) (by omega) h.2
  apply UInt8.toNat_inj.mp
  omega

theorem hexdigest_inj {h : Hashing} {p q : Bytes} (heq : hexdigest h p = hexdigest h q) : h.sha256 p = h.sha256 q := by
  have hchars : (h.sha256 p).flatMap hexByte = (h.sha256 q).flatMap hexByte := String.ofList_injective heq
  generalize h.sha256 p = a at hchars
  generalize h.sha256 q = b at hchars
  induction a generalizing b with
  | nil =>
    cases b with
    | nil => rfl
    | cons y b => cases hchars
  | cons x a ih =>
    cases b with
    | nil => cases hchars
    | cons y b =>
      rw [List.flatMap_cons, List.flatMap_cons] at hchars
      obtain ⟨hhead, htail⟩ := List.append_inj hchars rfl
      rw [hexByte_inj hhead, ih b htail]

/-! Records of a name and a digest -/

section Records
variable {α : Type} {separator : α} {close : List α} {width : Nat}

/-- A name, the separator, a digest and what closes the record. -/
def frame (separator : α) (close : List α) (r : List α × List α) : List α := r.1 ++ separator :: (r.2 ++ close)

theorem append_separator_inj {x y u v : List α} (hx : separator ∉ x) (hy : separator ∉ y)
    (h : x ++ separator :: u = y ++ separator :: v) : x = y ∧ u = v := by
  induction x generalizing y with
  | nil =>
    cases y with
    | nil => exact ⟨rfl, (List.cons.inj h).2⟩
    | cons c y => exact absurd ((List.cons.inj h).1 ▸ List.mem_cons_self) hy
  | cons c x ih =>
    cases y with
    | nil => exact absurd ((List.cons.inj h).1 ▸ List.mem_cons_self) hx
    | cons d y =>
      obtain ⟨hhead, htail⟩ := List.cons.inj h
      obtain ⟨hname, hrest⟩ := ih (fun hmem => hx (.tail _ hmem)) (fun hmem => hy (.tail _ hmem)) htail
      exact ⟨congrArg₂ List.cons hhead hname, hrest⟩

/-- Records whose names hold no separator and whose digests are of one width are read back. -/
theorem frames_injective {a b : List (List α × List α)} (ha : ∀ r ∈ a, separator ∉ r.1 ∧ r.2.length = width)
    (hb : ∀ r ∈ b, separator ∉ r.1 ∧ r.2.length = width)
    (h : a.flatMap (frame separator close) = b.flatMap (frame separator close)) : a = b := by
  induction a generalizing b with
  | nil =>
    cases b with
    | nil => rfl
    | cons r b => simp [frame] at h
  | cons q a ih =>
    cases b with
    | nil => simp [frame] at h
    | cons r b =>
      obtain ⟨hq, ha⟩ := List.forall_mem_cons.mp ha
      obtain ⟨hr, hb⟩ := List.forall_mem_cons.mp hb
      simp only [List.flatMap_cons, frame, List.append_assoc, List.cons_append] at h
      obtain ⟨hname, hrest⟩ := append_separator_inj hq.1 hr.1 h
      obtain ⟨hdigest, hrest⟩ := List.append_inj hrest (hq.2.trans hr.2.symm)
      rw [ih ha hb (List.append_cancel_left hrest), Prod.ext hname hdigest]

theorem map_inj_of_injOn {β : Type} {f : α → β} {s : Set α} (hf : Set.InjOn f s) {a b : List α} (ha : ∀ x ∈ a, x ∈ s)
    (hb : ∀ x ∈ b, x ∈ s) (h : a.map f = b.map f) : a = b := by
  induction a generalizing b with
  | nil => exact (List.map_eq_nil_iff.mp h.symm).symm
  | cons x a ih =>
    cases b with
    | nil => cases h
    | cons y b =>
      obtain ⟨hhead, htail⟩ := List.cons.inj h
      rw [List.forall_mem_cons] at ha hb
      exact congrArg₂ List.cons (hf ha.1 hb.1 hhead) (ih ha.2 hb.2 htail)

end Records

/-! The walk -/

/-- A name that the pattern `*.lean` matches. -/
def IsLeanName (name : String) : Prop := ".lean".toList <:+ name.toList

instance decidableIsLeanName (name : String) : Decidable (IsLeanName name) := inferInstanceAs (Decidable (_ <:+ _))

namespace DependencyNode

mutual
/-- `rglob("*.lean")`, which enters no link. -/
def leanBelow : DependencyNode → List (List String)
  | directory children => leanBelowChildren children
  | _ => []

def leanBelowChildren : List (String × DependencyNode) → List (List String)
  | [] => []
  | (name, node) :: rest =>
    (if IsLeanName name then [[name]] else []) ++ (leanBelow node).map (name :: ·) ++ leanBelowChildren rest
end

variable {node : DependencyNode} {children : List (String × DependencyNode)} {path : List String}

theorem mem_leanBelowChildren : path ∈ leanBelowChildren children ↔
    ∃ c ∈ children, path = [c.1] ∧ IsLeanName c.1 ∨ ∃ rest ∈ leanBelow c.2, path = c.1 :: rest := by
  induction children with
  | nil => simp [leanBelowChildren]
  | cons c children ih =>
    obtain ⟨name, node⟩ := c
    have hhere : path ∈ (if IsLeanName name then [[name]] else []) ↔ path = [name] ∧ IsLeanName name := by
      split_ifs with hname <;> simp [hname]
    rw [leanBelowChildren, List.mem_append, List.mem_append, ih, hhere, List.mem_map]
    simp only [List.mem_cons, exists_eq_or_imp, eq_comm]

/-- The walk yields every path whose last name matches. -/
theorem mem_leanBelow (hwell : node.WellFormed) : path ∈ node.leanBelow ↔
    ∃ dirs name, path = dirs ++ [name] ∧ IsLeanName name ∧ ∃ found, node.find path = some found := by
  have hleaf : ∀ leaf : DependencyNode, (∀ children, leaf ≠ directory children) → ∀ path,
      (∃ dirs name, path = dirs ++ [name] ∧ IsLeanName name ∧ ∃ found, leaf.find path = some found) → False := by
    rintro leaf hleaf path ⟨dirs, name, rfl, -, found, hfound⟩
    cases leaf with
    | directory children => exact hleaf children rfl
    | _ => cases dirs <;> cases hfound
  induction node using induct generalizing path with
  | file content => exact ⟨fun h => absurd h List.not_mem_nil, fun h => (hleaf _ (fun _ => by simp) path h).elim⟩
  | symlink target => exact ⟨fun h => absurd h List.not_mem_nil, fun h => (hleaf _ (fun _ => by simp) path h).elim⟩
  | special => exact ⟨fun h => absurd h List.not_mem_nil, fun h => (hleaf _ (fun _ => by simp) path h).elim⟩
  | directory children ih =>
    rw [leanBelow, mem_leanBelowChildren]
    constructor
    · rintro ⟨⟨name, next⟩, hc, ⟨rfl, hname⟩ | ⟨rest, hrest, rfl⟩⟩
      · refine ⟨[], name, rfl, hname, next, ?_⟩
        rw [find_cons, hwell.lookup_eq_some.mpr hc]
        rfl
      · obtain ⟨dirs, last, rfl, hlast, found, hfound⟩ := (ih _ hc (hwell.of_mem hc)).mp hrest
        refine ⟨name :: dirs, last, rfl, hlast, found, ?_⟩
        rw [find_cons, hwell.lookup_eq_some.mpr hc]
        exact hfound
    · rintro ⟨dirs, last, rfl, hlast, found, hfound⟩
      cases dirs with
      | nil =>
        rw [List.nil_append, find_cons] at hfound
        obtain ⟨next, hnext, -⟩ := Option.bind_eq_some_iff.mp hfound
        exact ⟨(last, next), hwell.lookup_eq_some.mp hnext, .inl ⟨rfl, hlast⟩⟩
      | cons name dirs =>
        rw [List.cons_append, find_cons] at hfound
        obtain ⟨next, hnext, hfound⟩ := Option.bind_eq_some_iff.mp hfound
        have hc := hwell.lookup_eq_some.mp hnext
        exact ⟨(name, next), hc, .inr ⟨_, (ih _ hc (hwell.of_mem hc)).mpr ⟨dirs, last, rfl, hlast, found, hfound⟩, rfl⟩⟩

end DependencyNode

/-! The inputs -/

open DependencyNode

/-- The path of a build input: one of the root files, or a Lean file below the module root. -/
def IsInputPath (path : List String) : Prop :=
  (∃ file ∈ buildInputRootFiles, path = [file]) ∨
    ∃ dirs name, path = "AutoLeanLibrary" :: (dirs ++ [name]) ∧ IsLeanName name

/-- The map from the paths of the build inputs to their contents. -/
def BuildInput (root : DependencyNode) (path : List String) (content : Bytes) : Prop :=
  IsInputPath path ∧ root.find path = some (.file content)

/-- The module root. -/
def moduleRoot (root : DependencyNode) : Option DependencyNode := root.find ["AutoLeanLibrary"]

/-- The Lean files that the walk of the module root yields, relative to the root. -/
def walkedFiles (root : DependencyNode) : List (List String) :=
  match moduleRoot root with
  | some node => node.leanBelow.map ("AutoLeanLibrary" :: ·)
  | none => []

theorem suffix_intercalate {α : Type} {separator : List α} {parts : List (List α)} {last : List α} :
    last <:+ separator.intercalate (parts ++ [last]) := by
  induction parts with
  | nil => simp
  | cons first rest ih =>
    obtain ⟨second, others, hrest⟩ : ∃ second others, rest ++ [last] = second :: others :=
      List.exists_cons_of_ne_nil (by simp)
    rw [List.cons_append, hrest, List.intercalate_cons_cons, ← hrest]
    exact ih.trans (List.suffix_append _ _)

theorem isModulePath_of {dirs : List String} {name : String} (hname : IsLeanName name) :
    IsModulePath (joinPath ("AutoLeanLibrary" :: (dirs ++ [name]))) := by
  have hlist : (joinPath ("AutoLeanLibrary" :: (dirs ++ [name]))).toList =
      "AutoLeanLibrary/".toList ++ "/".toList.intercalate ((dirs ++ [name]).map String.toList) := by
    obtain ⟨second, others, hrest⟩ : ∃ second others, (dirs ++ [name]).map String.toList = second :: others :=
      List.exists_cons_of_ne_nil (by simp)
    rw [joinPath, String.toList_intercalate, List.map_cons, hrest, List.intercalate_cons_cons]
    rfl
  refine ⟨hlist ▸ List.prefix_append _ _, ?_⟩
  rw [hlist, List.map_append]
  exact (hname.trans suffix_intercalate).trans (List.suffix_append _ _)

/-- No file name holds a NUL. -/
def DependencyNode.NoNul (node : DependencyNode) : Prop :=
  ∀ path found, node.find path = some found → ∀ name ∈ path, 0 ∉ encode name

/-- The tree of a Library root. -/
structure LibraryRoot where
  node : DependencyNode
  wellFormed : node.WellFormed
  noNul : node.NoNul

namespace LibraryRoot
variable {root : LibraryRoot} {path : List String} {relative d : String} {content : Bytes} {h : Hashing}

theorem mem_walkedFiles : path ∈ walkedFiles root.node ↔
    ∃ dirs name, path = "AutoLeanLibrary" :: (dirs ++ [name]) ∧ IsLeanName name ∧
      ∃ found, root.node.find path = some found := by
  have hfind : ∀ rest,
      root.node.find ("AutoLeanLibrary" :: rest) = (moduleRoot root.node).bind fun node => node.find rest :=
    find_append root.node ["AutoLeanLibrary"]
  unfold walkedFiles
  cases hmodule : moduleRoot root.node with
  | none =>
    simp only [List.not_mem_nil, false_iff]
    rintro ⟨dirs, name, rfl, -, found, hfound⟩
    rw [hfind, hmodule] at hfound
    cases hfound
  | some node =>
    have hwell : node.WellFormed := root.wellFormed.find hmodule
    simp only [List.mem_map, mem_leanBelow hwell]
    constructor
    · rintro ⟨_, ⟨dirs, name, rfl, hname, found, hfound⟩, rfl⟩
      refine ⟨dirs, name, rfl, hname, found, ?_⟩
      rw [hfind, hmodule]
      exact hfound
    · rintro ⟨dirs, name, rfl, hname, found, hfound⟩
      rw [hfind, hmodule] at hfound
      exact ⟨_, ⟨dirs, name, rfl, hname, found, hfound⟩, rfl⟩

theorem walked_modules (root : LibraryRoot) :
    ∀ relative ∈ (walkedFiles root.node).map joinPath, IsModulePath relative := by
  intro relative hrelative
  obtain ⟨path, hpath, rfl⟩ := List.mem_map.mp hrelative
  obtain ⟨dirs, name, rfl, hname, -⟩ := mem_walkedFiles.mp hpath
  exact isModulePath_of hname

/-- What a walk of the tree finds. -/
def listing (root : LibraryRoot) : InputListing where
  regular relative := isFile (root.node.find (posixParts relative))
  moduleRoot := isDirectory (moduleRoot root.node)
  leanFiles := (walkedFiles root.node).map joinPath
  modules := root.walked_modules

def contentAt (root : LibraryRoot) (relative : String) : Option Bytes :=
  match root.node.find (posixParts relative) with
  | some (.file content) => some content
  | _ => none

def files (root : LibraryRoot) : Root (Except VerifyError) where
  readBytes relative :=
    match root.contentAt relative with
    | some content => .ok content
    | none => .error (.osError .fileNotFound)
  inputs := .ok root.listing

/-- The relative paths in the order of their bytes. -/
def relativePaths (root : LibraryRoot) : List String :=
  (buildInputRootFiles ++ (walkedFiles root.node).map joinPath).insertionSort (· ≤ ·)

/-- The build inputs with their contents, in the order of their paths. -/
def inputTree (root : LibraryRoot) : SourceTree :=
  root.relativePaths.filterMap fun relative => (root.contentAt relative).map fun content => (relative, content)

/-- The bytes whose digest sums the inputs up. -/
def inputPayload (h : Hashing) (root : LibraryRoot) : Bytes :=
  encode buildInputSchema ++ encode "\n" ++ (root.inputTree.map (Root.inputLine h)).flatten

theorem contentAt_joinPath (hnames : ∀ name ∈ path, IsFileName name) :
    root.contentAt (joinPath path) = some content ↔ root.node.find path = some (.file content) := by
  unfold contentAt
  rw [posixParts_joinPath hnames]
  split
  · next found hfound => simp [hfound]
  · next hother =>
    constructor
    · intro h
      cases h
    · exact fun h => absurd h (hother content)

theorem rootFile_name {file : String} (hfile : file ∈ buildInputRootFiles) : IsFileName file := by
  have hall : ∀ file ∈ buildInputRootFiles, file ≠ "" ∧ file ≠ "." ∧ file ≠ ".." ∧ '/' ∉ file.toList := by decide
  exact hall file hfile

theorem joinPath_singleton (name : String) : joinPath [name] = name := String.intercalate_singleton

/-- The list of the inputs is the map. -/
theorem mem_inputTree : (relative, content) ∈ root.inputTree ↔
    ∃ path, relative = joinPath path ∧ BuildInput root.node path content := by
  unfold inputTree relativePaths
  simp only [List.mem_filterMap, (List.perm_insertionSort _ _).mem_iff, List.mem_append, List.mem_map,
    Option.map_eq_some_iff, Prod.mk.injEq]
  constructor
  · rintro ⟨_, hlisted, _, hcontent, rfl, rfl⟩
    rcases hlisted with hfile | ⟨path, hpath, rfl⟩
    · rename_i relative content
      rw [← joinPath_singleton relative, contentAt_joinPath (by simpa using rootFile_name hfile)] at hcontent
      exact ⟨[relative], (joinPath_singleton relative).symm, .inl ⟨relative, hfile, rfl⟩, hcontent⟩
    · obtain ⟨dirs, name, hshape, hname, found, hfound⟩ := mem_walkedFiles.mp hpath
      rw [contentAt_joinPath (root.wellFormed.isFileName hfound)] at hcontent
      exact ⟨path, rfl, .inr ⟨dirs, name, hshape, hname⟩, hcontent⟩
  · rintro ⟨path, rfl, hinput, hfound⟩
    refine ⟨joinPath path, ?_, content, (contentAt_joinPath (root.wellFormed.isFileName hfound)).mpr hfound, rfl, rfl⟩
    rcases hinput with ⟨file, hfile, rfl⟩ | ⟨dirs, name, hshape, hname⟩
    · exact .inl ((joinPath_singleton file).symm ▸ hfile)
    · exact .inr ⟨path, mem_walkedFiles.mpr ⟨dirs, name, hshape, hname, _, hfound⟩, rfl⟩

theorem inputTree_paths (root : LibraryRoot) : (root.inputTree.map Prod.fst).Sublist root.relativePaths := by
  unfold inputTree
  generalize root.relativePaths = paths
  induction paths with
  | nil => exact .slnil
  | cons relative paths ih =>
    rw [List.filterMap_cons]
    cases root.contentAt relative with
    | none => exact ih.cons relative
    | some content => exact ih.cons_cons relative

/-- Two roots with the same map have the same list of inputs. -/
theorem inputTree_eq {root' : LibraryRoot} (hpaths : root.relativePaths.Nodup) (hpaths' : root'.relativePaths.Nodup)
    (hsame : ∀ path content, BuildInput root.node path content ↔ BuildInput root'.node path content) :
    root.inputTree = root'.inputTree := by
  have hkeys : (root.inputTree.map Prod.fst).Nodup := root.inputTree_paths.nodup hpaths
  have hkeys' : (root'.inputTree.map Prod.fst).Nodup := root'.inputTree_paths.nodup hpaths'
  have hperm : root.inputTree.Perm root'.inputTree := by
    apply (List.perm_ext_iff_of_nodup (.of_map _ hkeys) (.of_map _ hkeys')).mpr
    rintro ⟨relative, content⟩
    simp only [mem_inputTree, hsame]
  have hsorted : ∀ r : LibraryRoot, r.inputTree.Pairwise fun x y => x.1 ≤ y.1 :=
    fun r => List.pairwise_map.mp ((List.pairwise_insertionSort _ _).sublist r.inputTree_paths)
  calc root.inputTree = root'.inputTree.insertionSort fun x y => x.1 ≤ y.1 :=
        Keyed.eq_insertionSort Prod.fst hperm hkeys (hsorted root)
    _ = root'.inputTree := (hsorted root').insertionSort_eq

/-! What the digest says -/

theorem encode_joinPath (hnul : ∀ name ∈ path, 0 ∉ encode name) : 0 ∉ encode (joinPath path) := by
  rw [encode_eq, joinPath, String.toList_intercalate]
  intro hzero
  obtain ⟨c, hc, hbyte⟩ := List.mem_flatMap.mp hzero
  rcases mem_of_mem_intercalate hc with hslash | ⟨_, hname, hchar⟩
  · obtain rfl : c = '/' := List.mem_singleton.mp hslash
    exact absurd hbyte (by decide)
  · obtain ⟨name, hmem, rfl⟩ := List.mem_map.mp hname
    exact hnul name hmem (encode_eq name ▸ List.mem_flatMap.mpr ⟨c, hchar, hbyte⟩)

/-- What a run of the digest hashes: the contents and the lines made of their digests. -/
def hashed (h : Hashing) (root : LibraryRoot) : Set Bytes :=
  fun payload => payload = root.inputPayload h ∨ ∃ path, BuildInput root.node path payload

theorem inputPayload_inj {root' : LibraryRoot} (hlength : ∀ payload, (h.sha256 payload).length = 32)
    (hinj : Set.InjOn h.sha256 (root.hashed h ∪ root'.hashed h)) (heq : root.inputPayload h = root'.inputPayload h) :
    root.inputTree = root'.inputTree := by
  have hframe : ∀ r : LibraryRoot, (r.inputTree.map (Root.inputLine h)).flatten =
      (r.inputTree.map fun f => (encode f.1, h.sha256 f.2)).flatMap (frame 0 (encode "\n")) := by
    intro r
    rw [List.flatMap_map, List.flatMap_def]
    congr 2
    funext f
    simp [Root.inputLine, frame]
  have hshape : ∀ r : LibraryRoot, ∀ q ∈ r.inputTree.map fun f => (encode f.1, h.sha256 f.2),
      0 ∉ q.1 ∧ q.2.length = 32 := by
    intro r q hq
    obtain ⟨⟨relative, content⟩, hmem, rfl⟩ := List.mem_map.mp hq
    obtain ⟨path, rfl, -, hfound⟩ := mem_inputTree.mp hmem
    exact ⟨encode_joinPath (r.noNul path _ hfound), hlength content⟩
  have hlines := List.append_cancel_left heq
  rw [hframe, hframe] at hlines
  have hrecords := frames_injective (hshape root) (hshape root') hlines
  have hcontent : ∀ r : LibraryRoot, ∀ f ∈ r.inputTree, f.2 ∈ r.hashed h := by
    rintro r ⟨relative, content⟩ hf
    obtain ⟨path, -, hinput⟩ := mem_inputTree.mp hf
    exact .inr ⟨path, hinput⟩
  refine map_inj_of_injOn (s := fun f => f.2 ∈ root.hashed h ∪ root'.hashed h) ?_
    (fun f hf => .inl (hcontent root f hf)) (fun f hf => .inr (hcontent root' f hf)) hrecords
  intro f hf g hg hfg
  obtain ⟨hname, hdigest⟩ := Prod.mk.inj hfg
  exact Prod.ext (encode_injective hname) (hinj hf hg hdigest)

/-- Equal digests come from equal maps. -/
theorem buildInput_iff {root' : LibraryRoot} (hlength : ∀ payload, (h.sha256 payload).length = 32)
    (hinj : Set.InjOn h.sha256 (root.hashed h ∪ root'.hashed h))
    (heq : hexdigest h (root.inputPayload h) = hexdigest h (root'.inputPayload h)) (path : List String)
    (content : Bytes) :
    BuildInput root.node path content ↔ BuildInput root'.node path content := by
  have htree := inputPayload_inj hlength hinj (hinj (.inl (.inl rfl)) (.inr (.inl rfl)) (hexdigest_inj heq))
  have hone : ∀ r r' : LibraryRoot, r.inputTree = r'.inputTree →
      BuildInput r.node path content → BuildInput r'.node path content := by
    intro r r' hsame hinput
    have hmem : (joinPath path, content) ∈ r'.inputTree := hsame ▸ mem_inputTree.mpr ⟨path, rfl, hinput⟩
    obtain ⟨path', hjoin, hinput'⟩ := mem_inputTree.mp hmem
    rwa [joinPath_inj (r.wellFormed.isFileName hinput.2) (r'.wellFormed.isFileName hinput'.2) hjoin]
  exact ⟨hone root root' htree, hone root' root htree.symm⟩

/-! The Library's digest -/

theorem readAll_files {paths : List String} {tree : SourceTree} (hread : root.files.readAll paths = .ok tree) :
    tree = paths.filterMap fun relative => (root.contentAt relative).map fun content => (relative, content) := by
  induction paths generalizing tree with
  | nil =>
    cases hread
    rfl
  | cons relative paths ih =>
    obtain ⟨content, hcontent, hread⟩ := bind_eq_ok.mp hread
    obtain ⟨others, hothers, hread⟩ := bind_eq_ok.mp hread
    cases hread
    rw [List.filterMap_cons, ih hothers]
    simp only [files] at hcontent
    split at hcontent
    · next hfound =>
      cases hcontent
      rw [hfound]
      rfl
    · cases hcontent

theorem relativePaths_files {paths : List String} (hpaths : root.files.relativePaths = .ok paths) :
    paths = root.relativePaths ∧ root.relativePaths.Nodup ∧ isDirectory (moduleRoot root.node) = true := by
  replace hpaths : inputRelativePaths root.listing = .ok paths := by
    change raise (inputRelativePaths root.listing) = _ at hpaths
    cases hfound : inputRelativePaths root.listing with
    | ok found => rwa [hfound] at hpaths
    | error e =>
      rw [hfound] at hpaths
      cases hpaths
  obtain ⟨-, hpaths⟩ := seq_eq_ok.mp hpaths
  obtain ⟨hmodule, hpaths⟩ := ensure_bind_eq_ok.mp hpaths
  obtain ⟨-, hpaths⟩ := seq_eq_ok.mp hpaths
  obtain ⟨hnodup, hpaths⟩ := ensure_bind_eq_ok.mp hpaths
  cases hpaths
  exact ⟨rfl, (List.perm_insertionSort _ _).nodup_iff.mpr hnodup, hmodule⟩

theorem inputTreeSha256_files (hdigest : root.files.inputTreeSha256 h = .ok d) :
    d = hexdigest h (root.inputPayload h) ∧ root.relativePaths.Nodup := by
  obtain ⟨paths, hpaths, hrest⟩ := bind_eq_ok.mp hdigest
  obtain ⟨tree, htree, hd⟩ := bind_eq_ok.mp hrest
  obtain ⟨hsorted, hnodup, -⟩ := relativePaths_files hpaths
  rw [hsorted] at htree
  cases hd
  rw [readAll_files htree]
  exact ⟨rfl, hnodup⟩

end LibraryRoot
end Autolean.Library
