import Autolean.Library.InputTree

/-! The copy of the build inputs into a new directory, file by file with the directories on the way. -/
namespace Autolean.Library
open Machine Machine.Raising Text

namespace DependencyNode

/-- The entries of a directory with one of them replaced or added. -/
def put (children : List (String × DependencyNode)) (name : String) (node : DependencyNode) :
    List (String × DependencyNode) := (name, node) :: children.filter fun c => c.1 ≠ name

/-- Nothing is there, or a file that can be written over. -/
def isWritable : Option DependencyNode → Bool
  | some (file _) => true
  | some _ => false
  | none => true

/-- The directory with the content written under the name. -/
def writeFile (children : List (String × DependencyNode)) (name : String) (content : Bytes) :
    Except VerifyError DependencyNode :=
  if isWritable (children.lookup name) then .ok (directory (put children name (file content)))
  else .error (.osError .isADirectory)

/-- `shutil.copy2`: what is copied to a directory goes into it. -/
def copyFile (children : List (String × DependencyNode)) (name : String) (content : Bytes) :
    Except VerifyError DependencyNode :=
  match children.lookup name with
  | some (directory inner) => do
    let next ← writeFile inner name content
    pure (directory (put children name next))
  | _ => writeFile children name content

/-- The directories of the path are made, and the file is copied to its end. -/
def placeFile (content : Bytes) : List String → DependencyNode → Except VerifyError DependencyNode
  | name :: rest, directory children =>
    if rest = [] then copyFile children name content
    else do
      let next ← placeFile content rest ((children.lookup name).getD (directory []))
      pure (directory (put children name next))
  | _, _ => .error (.osError .fileExists)

end DependencyNode

/-- `_copy_input_tree`; the destination is new. -/
def LibraryRoot.copyInputTree (root : LibraryRoot) : Except VerifyError DependencyNode := do
  let paths ← root.files.relativePaths
  paths.foldlM (fun destination relative => do
    let content ← root.files.readBytes relative
    destination.placeFile content (posixParts relative)) (.directory [])

namespace DependencyNode
variable {source dest dest' node next : DependencyNode} {children : List (String × DependencyNode)} {name : String}
  {path rest : List String} {content : Bytes}

theorem lookup_put (k : String) :
    (put children name node).lookup k = if k = name then some node else children.lookup k := by
  rw [put, Keyed.lookup_cons]
  split_ifs with hk
  · rfl
  · rw [Keyed.lookup_filter fun k => decide (k ≠ name), if_pos (decide_eq_true hk)]

theorem find_put (k : String) (rest : List String) : (directory (put children name node)).find (k :: rest) =
    if k = name then node.find rest else (directory children).find (k :: rest) := by
  rw [find_cons, find_cons, lookup_put]
  split_ifs <;> rfl

/-- What stands in the tree stands in the source: the same files, and directories. -/
def Mirrors (source dest : DependencyNode) : Prop :=
  ∀ path found, dest.find path = some found →
    (∃ content, found = file content ∧ source.find path = some (file content)) ∨
      ∃ children original, found = directory children ∧ source.find path = some (directory original)

/-- One more file stands in the tree. -/
def Adds (dest : DependencyNode) (path : List String) (content : Bytes) (dest' : DependencyNode) : Prop :=
  ∀ q c, dest'.find q = some (file c) ↔ (q = path ∧ c = content) ∨ dest.find q = some (file c)

theorem Mirrors.below {original : List (String × DependencyNode)}
    (h : Mirrors (directory original) (directory children)) (hnext : original.lookup name = some node)
    {below : DependencyNode} (hbelow : children.lookup name = some below) :
    Mirrors node below := by
  intro path found hfound
  have hup := h (name :: path) found
  rw [find_cons, find_cons, hbelow, hnext] at hup
  exact hup hfound

theorem mirrors_empty {original : List (String × DependencyNode)} : Mirrors (directory original) (directory []) := by
  intro path found hfound
  cases path with
  | nil =>
    cases hfound
    exact .inr ⟨[], original, rfl, rfl⟩
  | cons name path => cases hfound

/-- The directory stays a mirror when one entry is put that mirrors its own. -/
theorem Mirrors.put {original : List (String × DependencyNode)} (h : Mirrors (directory original) (directory children))
    (hnext : original.lookup name = some node) (hbelow : Mirrors node next) :
    Mirrors (directory original) (directory (put children name next)) := by
  intro path found hfound
  cases path with
  | nil =>
    cases hfound
    exact .inr ⟨_, original, rfl, rfl⟩
  | cons k path =>
    rw [find_put] at hfound
    split_ifs at hfound with hk
    · subst hk
      rw [find_cons, hnext]
      exact hbelow path found hfound
    · exact h (k :: path) found hfound

theorem Mirrors.directories (h : Mirrors source dest) (hfound : source.find (name :: rest) = some node) :
    ∃ original children, source = directory original ∧ dest = directory children := by
  rcases h [] dest rfl with ⟨content, rfl, hsource⟩ | ⟨children, original, rfl, hsource⟩
  · cases Option.some.inj hsource
    cases hfound
  · exact ⟨original, children, Option.some.inj hsource, rfl⟩

theorem Mirrors.getD {original : List (String × DependencyNode)} (h : Mirrors (directory original) (directory children))
    (hnext : original.lookup name = some node) (hdirectory : ∃ inner, node = .directory inner) :
    Mirrors node ((children.lookup name).getD (.directory [])) := by
  obtain ⟨inner, rfl⟩ := hdirectory
  cases hlookup : children.lookup name with
  | none => exact mirrors_empty
  | some below => exact h.below hnext hlookup

theorem mirrors_file : Mirrors (file content) (file content) := by
  intro path found hfound
  cases path with
  | nil =>
    cases hfound
    exact .inl ⟨content, rfl, rfl⟩
  | cons name path => cases hfound

theorem empty_find {q : List String} {c : Bytes} : (directory []).find q ≠ some (file c) := by
  cases q with
  | nil =>
    intro h
    cases h
  | cons name q =>
    intro h
    cases h

theorem file_find {q : List String} {c : Bytes} : (file content).find q = some (file c) ↔ q = [] ∧ c = content := by
  cases q with
  | nil =>
    constructor
    · rintro ⟨⟩
      exact ⟨rfl, rfl⟩
    · rintro ⟨-, rfl⟩
      rfl
  | cons name q =>
    constructor
    · intro h
      cases h
    · rintro ⟨⟨⟩, -⟩

/-- What is added below an entry is added below its directory. -/
theorem Adds.put (h : Adds ((children.lookup name).getD (directory [])) rest content next) :
    Adds (directory children) (name :: rest) content (directory (put children name next)) := by
  intro q c
  cases q with
  | nil => simp [find]
  | cons k q =>
    rw [find_put]
    split_ifs with hk
    · subst hk
      rw [h q c, find_cons, List.cons.injEq, eq_self_iff_true, true_and]
      cases children.lookup k with
      | none => simp [empty_find]
      | some below => rfl
    · simp [hk]

/-- A file of the source is placed beside those that are there. -/
theorem placeFile_spec (hmirror : Mirrors source dest) (hfound : source.find path = some (file content))
    (hplaced : dest.placeFile content path = .ok dest') : Mirrors source dest' ∧ Adds dest path content dest' := by
  induction path generalizing source dest dest' with
  | nil => cases hplaced
  | cons name rest ih =>
    obtain ⟨original, children, rfl, rfl⟩ := hmirror.directories hfound
    obtain ⟨node, hnode, hfound⟩ := Option.bind_eq_some_iff.mp hfound
    replace hnode : original.lookup name = some node := hnode
    rw [placeFile] at hplaced
    split_ifs at hplaced with hrest
    · subst hrest
      cases Option.some.inj hfound
      have hbelow : ∀ below, children.lookup name = some below → below = file content := by
        intro below hlookup
        rcases hmirror.below hnode hlookup [] below rfl with ⟨c, rfl, hc⟩ | ⟨_, _, rfl, hc⟩
        · cases Option.some.inj hc
          rfl
        · cases Option.some.inj hc
      have hwritten : copyFile children name content =
          .ok (directory (DependencyNode.put children name (file content))) := by
        cases hlookup : children.lookup name with
        | none => simp [copyFile, writeFile, hlookup, isWritable]
        | some below => simp [copyFile, writeFile, hlookup, hbelow below hlookup, isWritable]
      cases hwritten.symm.trans hplaced
      refine ⟨hmirror.put hnode mirrors_file, Adds.put ?_⟩
      intro q c
      cases hlookup : children.lookup name with
      | none => simp [empty_find, file_find]
      | some below => simp [hbelow below hlookup, file_find]
    · obtain ⟨next, hnext, hplaced⟩ := bind_eq_ok.mp hplaced
      cases hplaced
      have hdirectory : ∃ inner, node = .directory inner := by
        obtain ⟨second, others, rfl⟩ := List.exists_cons_of_ne_nil hrest
        cases node with
        | directory inner => exact ⟨inner, rfl⟩
        | _ => cases hfound
      obtain ⟨hbelow, hadds⟩ := ih (hmirror.getD hnode hdirectory) hfound hnext
      exact ⟨hmirror.put hnode hbelow, hadds.put⟩

end DependencyNode

namespace LibraryRoot
open DependencyNode
variable {root : LibraryRoot} {copy dest : DependencyNode} {paths : List String}

theorem placeAll_spec (hdest : Mirrors root.node dest) (hcopy : paths.foldlM (fun destination relative => do
    let content ← root.files.readBytes relative
    destination.placeFile content (posixParts relative)) dest = .ok copy) : Mirrors root.node copy ∧
      ∀ q c, copy.find q = some (.file c) ↔
        (∃ relative ∈ paths, posixParts relative = q ∧ root.contentAt relative = some c) ∨
          dest.find q = some (.file c) := by
  induction paths generalizing dest with
  | nil =>
    cases hcopy
    exact ⟨hdest, by simp⟩
  | cons relative paths ih =>
    rw [List.foldlM_cons] at hcopy
    obtain ⟨next, hnext, hcopy⟩ := bind_eq_ok.mp hcopy
    obtain ⟨content, hcontent, hplaced⟩ := bind_eq_ok.mp hnext
    have hat : root.contentAt relative = some content := by
      simp only [files] at hcontent
      split at hcontent
      · next hfound => rw [hfound, Except.ok.inj hcontent]
      · cases hcontent
    have hfound : root.node.find (posixParts relative) = some (.file content) := by
      unfold contentAt at hat
      split at hat
      · next hfile => rw [hfile, Option.some.inj hat]
      · cases hat
    obtain ⟨hmirror, hadds⟩ := placeFile_spec hdest hfound hplaced
    obtain ⟨hfinal, hfiles⟩ := ih hmirror hcopy
    refine ⟨hfinal, fun q c => ?_⟩
    have hthis : (q = posixParts relative ∧ c = content) ↔ posixParts relative = q ∧ content = c :=
      and_congr eq_comm eq_comm
    rw [hfiles q c, hadds q c, List.exists_mem_cons_iff, hat, Option.some.injEq, hthis,
      or_left_comm, ← or_assoc]

/-- The copy holds the build inputs, the directories on their paths, and nothing else. -/
theorem copyInputTree_spec (hcopy : root.copyInputTree = .ok copy) :
    (∀ path content, copy.find path = some (.file content) ↔ BuildInput root.node path content) ∧
      ∀ path found, copy.find path = some found → isFile (some found) = true ∨ isDirectory (some found) = true := by
  obtain ⟨paths, hpaths, hplaced⟩ := bind_eq_ok.mp hcopy
  obtain ⟨hsorted, -, hmodule⟩ := relativePaths_files hpaths
  have hroot : Mirrors root.node (directory []) := by
    obtain ⟨node, _, _⟩ := root
    cases node with
    | directory original => exact mirrors_empty
    | _ => cases hmodule
  obtain ⟨hmirror, hfiles⟩ := placeAll_spec hroot hplaced
  constructor
  · intro path content
    rw [hfiles path content, hsorted, or_iff_left empty_find]
    constructor
    · rintro ⟨relative, hrelative, rfl, hcontent⟩
      have hmem : (relative, content) ∈ root.inputTree :=
        List.mem_filterMap.mpr ⟨relative, hrelative, by rw [hcontent]; rfl⟩
      obtain ⟨path, rfl, hinput⟩ := mem_inputTree.mp hmem
      rwa [posixParts_joinPath (root.wellFormed.isFileName hinput.2)]
    · intro hinput
      have hnames := root.wellFormed.isFileName hinput.2
      have hmem : (joinPath path, content) ∈ root.inputTree := mem_inputTree.mpr ⟨path, rfl, hinput⟩
      refine ⟨joinPath path, ?_, posixParts_joinPath hnames, (contentAt_joinPath hnames).mpr hinput.2⟩
      exact root.inputTree_paths.subset (List.mem_map_of_mem (f := Prod.fst) hmem)
  · intro path found hfound
    rcases hmirror path found hfound with ⟨content, rfl, -⟩ | ⟨children, original, rfl, -⟩
    · exact .inl rfl
    · exact .inr rfl

end LibraryRoot
end Autolean.Library
