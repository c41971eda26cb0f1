import Autolean.Library.DependencyListing
import Autolean.Machine.PathResolution
import Autolean.Text.Lines

/-! What the operating system reads through the links of a recorded tree of packages. The
record fixes it exactly when every place that a link's target passes is a recorded directory. -/
namespace Autolean.Library
open Machine Machine.Raising Machine.PathResolution Text

/-- A tree of packages with the manifest that records it. -/
structure RecordedTree (h : Hashing) where
  node : DependencyNode
  wellFormed : node.WellFormed
  manifest : DependencyManifest
  recorded : dependencyTreeManifest h node = .ok manifest

/-! The tree in a file system -/

/-- The components of a path, separated by slashes. -/
def components (path : String) : List String := (path.toList.splitOn '/').map String.ofList

def DependencyNode.content : Option DependencyNode → Option Bytes
  | some (file content) => some content
  | _ => none

def DependencyNode.entry : DependencyNode → PathEntry
  | .file _ | .special => .file
  | .directory _ => .directory
  | .symlink target => .link (target.toList.head? = some '/') (components target)

/-- A file system that holds the tree at some place. -/
structure Host (node : DependencyNode) where
  fs : DependencyNode
  base : List String
  placed : fs.find base = some node

/-- The number of links that a resolution may follow. -/
def symloopMax : Nat := 40

namespace Host
variable {node : DependencyNode} (host : Host node)

def entry (place : List String) : Option PathEntry := (host.fs.find place).map DependencyNode.entry

/-- The place that a path below the tree resolves to. -/
def opens (path : List String) : Option (List String) := resolve host.entry symloopMax host.base path

/-- The bytes that a path below the tree gives. -/
def read (path : List String) : Option Bytes :=
  (host.opens path).bind fun place => DependencyNode.content (host.fs.find place)

end Host

/-! What the record says -/

/-- Every place that the target of a recorded link passes is a recorded directory. -/
def LinksTraversable (manifest : DependencyManifest) : Prop :=
  ∀ path target, .symlink path target ∈ manifest.entries →
    Traversable (fun place => place = [] ∨ .directory (joinPath place) ∈ manifest.entries)
      (posixParts path).dropLast (components target)

/-- No file has been replaced by another one with its digest. -/
def NoCollision (h : Hashing) (node node' : DependencyNode) : Prop :=
  ∀ path content content', node.find path = some (.file content) → node'.find path = some (.file content') →
    hexdigest h content = hexdigest h content' → content = content'

/-- Both file systems resolve the link to the file at its normalized target, with the same bytes. -/
def LinkFixed {node node' : DependencyNode} (a : Host node) (b : Host node') (path target : String) : Prop :=
  ∃ normalized content, normalizeDependencySymlink (posixParts path).dropLast target = .ok normalized ∧
    a.opens (posixParts path) = some (a.base ++ normalized) ∧ b.opens (posixParts path) = some (b.base ++ normalized) ∧
    node.find normalized = some (.file content) ∧ node'.find normalized = some (.file content)

/-- The record of the tree fixes what its links lead to and what its paths give, whatever the
metadata directories hold and wherever the tree stands. -/
def FixesContents {h : Hashing} (t : RecordedTree h) : Prop :=
  ∀ t' : RecordedTree h, t'.manifest = t.manifest → NoCollision h t.node t'.node → ∀ (a : Host t.node) (b : Host t'.node),
    (∀ path target, .symlink path target ∈ t.manifest.entries → LinkFixed a b path target) ∧
      ∀ path, (∀ name ∈ path, IsFileName name ∧ name ≠ ".git") → a.read path = b.read path

/-! Spellings -/

section Spelling
variable {here parts names : List String} {path target : String}

theorem components_not_slash (path : String) : ∀ component ∈ components path, '/' ∉ component.toList := by
  intro component hmem
  obtain ⟨part, hpart, rfl⟩ := List.mem_map.mp hmem
  rw [String.toList_ofList]
  exact not_mem_of_mem_splitOn hpart

/-- The lexical normalization goes by the spelling and never above the tree. -/
theorem foldlM_normalizePart
    (h : ((parts.filter fun part => part ≠ "" ∧ part ≠ ".").foldlM normalizePart here.reverse) = .ok names) :
    names.reverse = spelled here parts ∧ Stays here parts := by
  induction parts generalizing here with
  | nil =>
    cases h
    exact ⟨List.reverse_reverse here, trivial⟩
  | cons part rest ih =>
    rw [List.filter_cons] at h
    by_cases hskip : part = "" ∨ part = "."
    · have hstay : descend here part = here := if_pos hskip
      have hdropped : ¬ decide (part ≠ "" ∧ part ≠ ".") = true := by
        rw [decide_eq_true_eq]
        exact fun h => hskip.elim h.1 h.2
      rw [if_neg hdropped] at h
      obtain ⟨hspelled, hstays⟩ := ih h
      refine ⟨?_, fun hup => ?_, ?_⟩
      · rw [hspelled, spelled, spelled, List.foldl_cons, hstay]
      · subst hup
        exact absurd hskip (by decide)
      · rwa [hstay]
    · rw [if_pos (decide_eq_true (not_or.mp hskip)), List.foldlM_cons] at h
      obtain ⟨next, hnext, h⟩ := bind_eq_ok.mp h
      have hstep : next = (descend here part).reverse ∧ (part = ".." → here ≠ []) := by
        unfold normalizePart at hnext
        split at hnext
        · next hup =>
          subst hup
          rcases List.eq_nil_or_concat here with rfl | ⟨init, last, rfl⟩
          · cases hnext
          · rw [List.concat_eq_append, List.reverse_concat] at hnext
            cases hnext
            simp [descend]
        · next hup =>
          obtain ⟨_, -, hnext⟩ := bind_eq_ok.mp hnext
          cases hnext
          refine ⟨?_, fun h => absurd h hup⟩
          rw [descend, if_neg hskip, if_neg hup, List.reverse_append]
          rfl
      rw [hstep.1] at h
      obtain ⟨hspelled, hstays⟩ := ih h
      exact ⟨hspelled, hstep.2, hstays⟩

/-- A link that is let through is relative, and normalized by its spelling. -/
theorem normalize_spelled (h : normalizeDependencySymlink here target = .ok names) :
    target.toList.head? ≠ some '/' ∧ names = spelled here (components target) ∧ Stays here (components target) := by
  unfold normalizeDependencySymlink at h
  obtain ⟨⟨hrelative, -⟩, h⟩ := ensure_bind_eq_ok.mp h
  obtain ⟨parts, hparts, h⟩ := bind_eq_ok.mp h
  obtain ⟨-, h⟩ := ensure_bind_eq_ok.mp h
  obtain ⟨-, h⟩ := ensure_bind_eq_ok.mp h
  cases h
  obtain ⟨hspelled, hstays⟩ := foldlM_normalizePart hparts
  exact ⟨hrelative, hspelled, hstays⟩

/-- The parts of a joined path. -/
theorem posixParts_joinPath (h : ∀ name ∈ names, IsFileName name) : posixParts (joinPath names) = names := by
  rcases eq_or_ne names [] with rfl | hne
  · decide +kernel
  · have hsplit : (joinPath names).toList.splitOn '/' = names.map String.toList := by
      rw [joinPath, String.toList_intercalate]
      apply List.splitOn_intercalate
      · intro l hl
        obtain ⟨name, hname, rfl⟩ := List.mem_map.mp hl
        exact (h name hname).2.2.2
      · simpa using hne
    rw [posixParts, hsplit, List.map_map, List.filter_eq_self.mpr]
    · exact List.map_id'' (fun name => String.ofList_toList) names
    · intro part hpart
      obtain ⟨name, hname, rfl⟩ := List.mem_map.mp hpart
      rw [Function.comp_apply, String.ofList_toList, decide_eq_true_eq]
      exact ⟨(h name hname).1, (h name hname).2.1⟩

theorem joinPath_inj {names' : List String} (h : ∀ name ∈ names, IsFileName name) (h' : ∀ name ∈ names', IsFileName name)
    (heq : joinPath names = joinPath names') : names = names' := by
  rw [← posixParts_joinPath h, ← posixParts_joinPath h', heq]

end Spelling

/-! Recorded trees -/

def TreeEntry.path : TreeEntry → String
  | .symlink path _ | .directory path | .file path _ _ => path

namespace RecordedTree
variable {h : Hashing} {t t' : RecordedTree h} {path : List String} {found : DependencyNode} {p target : String}

theorem describing_sorted (path : List String) (node : DependencyNode) :
    TreeEntry.describing h path node.sorted = TreeEntry.describing h path node := by
  cases node <;> rfl

theorem describing_path {entry : TreeEntry} (hentry : TreeEntry.describing h path found = some entry) :
    entry.path = joinPath path := by
  cases found with
  | special => cases hentry
  | _ =>
    cases hentry
    rfl

/-- An entry tells the kind and the target of a link. -/
theorem entry_of_describing {found' : DependencyNode}
    (hsame : TreeEntry.describing h path found = TreeEntry.describing h path found')
    (hsome : (TreeEntry.describing h path found).isSome) : found.entry = found'.entry := by
  cases found with
  | symlink target =>
    cases found' with
    | symlink target' => rw [(TreeEntry.symlink.inj (Option.some.inj hsame)).2]
    | _ => cases hsame
  | special => cases hsome
  | _ =>
    cases found' with
    | file content' => first | rfl | cases hsame
    | directory children' => first | rfl | cases hsame
    | _ => cases hsame

/-- A recorded tree is a directory, and the manifest lists it. -/
theorem listed (t : RecordedTree h) : (∃ children, t.node = .directory children) ∧
    Lists h t.node.sorted [] (fun path found => path ≠ [] ∧ t.node.sorted.find path = some found) t.manifest.entries := by
  obtain ⟨entries, hentries, hmanifest⟩ := bind_eq_ok.mp t.recorded
  have hsame : t.manifest.entries = entries := by rw [← Except.ok.inj hmanifest]
  rw [hsame]
  have hsorted := t.wellFormed.sorted
  unfold dependencyTreeEntries at hentries
  split at hentries
  · next children hchildren =>
    rw [hchildren] at hsorted hentries ⊢
    have hlists := visitChildren_lists (fun c hc entries hok => visit_lists (hsorted.of_mem hc) hok) hentries
    simp only [foundBelow_directory hsorted] at hlists
    refine ⟨?_, hlists⟩
    cases hnode : t.node with
    | directory original => exact ⟨original, rfl⟩
    | _ =>
      rw [hnode] at hchildren
      cases hchildren
  · cases hentries

theorem isDirectory (t : RecordedTree h) : t.node.find [] = some t.node ∧ t.node.entry = .directory := by
  obtain ⟨⟨children, hchildren⟩, -⟩ := t.listed
  exact ⟨rfl, by rw [hchildren]; rfl⟩

/-- The entries are those of what is found at the paths without metadata directories. -/
theorem mem_entries (t : RecordedTree h) {entry : TreeEntry} : entry ∈ t.manifest.entries ↔
    ∃ path found, ".git" ∉ path ∧ path ≠ [] ∧ t.node.find path = some found ∧ TreeEntry.describing h path found = some entry := by
  rw [t.listed.2.mem]
  simp only [DependencyNode.find_sorted t.wellFormed, Option.map_eq_some_iff, List.nil_append]
  constructor
  · rintro ⟨path, _, hgit, ⟨hne, found, hfound, rfl⟩, hentry⟩
    rw [describing_sorted] at hentry
    exact ⟨path, found, hgit, hne, hfound, hentry⟩
  · rintro ⟨path, found, hgit, hne, hfound, hentry⟩
    exact ⟨path, found.sorted, hgit, ⟨hne, found, hfound, rfl⟩, (describing_sorted path found).trans hentry⟩

/-- Nothing special is recorded, and every link has been let through. -/
theorem admitted (t : RecordedTree h) (hgit : ".git" ∉ path) (hne : path ≠ []) (hfound : t.node.find path = some found) :
    Admitted t.node.sorted path found := by
  have hsorted := t.listed.2.admitted path found.sorted hgit
    ⟨hne, by rw [DependencyNode.find_sorted t.wellFormed, hfound]; rfl⟩
  cases found with
  | directory children => trivial
  | _ => exact hsorted

/-- What is found at a path without metadata directories has an entry. -/
theorem described (t : RecordedTree h) (hgit : ".git" ∉ path) (hne : path ≠ []) (hfound : t.node.find path = some found) :
    ∃ entry ∈ t.manifest.entries, TreeEntry.describing h path found = some entry := by
  have hadmitted := t.admitted hgit hne hfound
  have hentry : ∃ entry, TreeEntry.describing h path found = some entry := by
    cases found with
    | special => exact hadmitted.elim
    | _ => exact ⟨_, rfl⟩
  obtain ⟨entry, hentry⟩ := hentry
  exact ⟨entry, t.mem_entries.mpr ⟨path, found, hgit, hne, hfound, hentry⟩, hentry⟩

/-- Two trees with one manifest have the same at every path without metadata directories. -/
theorem described_alike (hmanifest : t'.manifest = t.manifest) (hgit : ".git" ∉ path) (hne : path ≠ [])
    (hfound : t.node.find path = some found) :
    ∃ found', t'.node.find path = some found' ∧ TreeEntry.describing h path found = TreeEntry.describing h path found' ∧
      (TreeEntry.describing h path found).isSome := by
  obtain ⟨entry, hentry, hdescribing⟩ := t.described hgit hne hfound
  rw [← hmanifest] at hentry
  obtain ⟨path', found', -, -, hfound', hdescribing'⟩ := t'.mem_entries.mp hentry
  have hpath : path = path' := joinPath_inj (t.wellFormed.isFileName hfound) (t'.wellFormed.isFileName hfound')
    ((describing_path hdescribing).symm.trans (describing_path hdescribing'))
  subst hpath
  exact ⟨found', hfound', hdescribing.trans hdescribing'.symm, hdescribing ▸ rfl⟩

/-- The kind of what is at a path. -/
def kindAt (t : RecordedTree h) (path : List String) : Option PathEntry := (t.node.find path).map DependencyNode.entry

theorem kindAt_alike (hmanifest : t'.manifest = t.manifest) (hgit : ".git" ∉ path) : t.kindAt path = t'.kindAt path := by
  rcases eq_or_ne path [] with rfl | hne
  · rw [kindAt, kindAt, t.isDirectory.1, t'.isDirectory.1, Option.map_some, Option.map_some, t.isDirectory.2, t'.isDirectory.2]
  · have hkind (s s' : RecordedTree h) (hsame : s'.manifest = s.manifest) {found : DependencyNode}
        (hfound : s.node.find path = some found) : s.kindAt path = s'.kindAt path := by
      obtain ⟨found', hfound', hdescribing, hsome⟩ := described_alike hsame hgit hne hfound
      rw [kindAt, kindAt, hfound, hfound', Option.map_some, Option.map_some, entry_of_describing hdescribing hsome]
    cases hfound : t.node.find path with
    | some found => exact hkind t t' hmanifest hfound
    | none =>
      cases hfound' : t'.node.find path with
      | some found' => exact (hkind t' t hmanifest.symm hfound').symm
      | none => rw [kindAt, kindAt, hfound, hfound']

/-- A place that is recorded as a directory is one. -/
theorem directory_mem_iff (hnames : ∀ name ∈ path, IsFileName name) :
    .directory (joinPath path) ∈ t.manifest.entries ↔ path ≠ [] ∧ ".git" ∉ path ∧ t.kindAt path = some .directory := by
  rw [t.mem_entries]
  constructor
  · rintro ⟨path', found, hgit, hne, hfound, hentry⟩
    have hpath : path' = path := joinPath_inj (t.wellFormed.isFileName hfound) hnames (describing_path hentry).symm
    subst hpath
    refine ⟨hne, hgit, ?_⟩
    rw [kindAt, hfound]
    cases found with
    | directory children => rfl
    | _ => cases hentry
  · rintro ⟨hne, hgit, hkind⟩
    obtain ⟨found, hfound, hentry⟩ := Option.map_eq_some_iff.mp hkind
    refine ⟨path, found, hgit, hne, hfound, ?_⟩
    cases found with
    | directory children => rfl
    | _ => cases hentry

/-- A recorded link has been let through. -/
theorem symlink_mem (hmem : .symlink p target ∈ t.manifest.entries) :
    ∃ path, posixParts p = path ∧ path ≠ [] ∧ ".git" ∉ path ∧ t.node.find path = some (.symlink target) ∧
      checkSymlink t.node.sorted path target = .ok () := by
  obtain ⟨path, found, hgit, hne, hfound, hentry⟩ := t.mem_entries.mp hmem
  have hadmitted := t.admitted hgit hne hfound
  cases found with
  | symlink target =>
    cases hentry
    exact ⟨path, posixParts_joinPath (t.wellFormed.isFileName hfound), hne, hgit, hfound, hadmitted⟩
  | _ => cases hentry

/-- What has been checked of a recorded link. -/
theorem link_checked {path : List String} (hgit : ".git" ∉ path) (hne : path ≠ [])
    (hfound : t.node.find path = some (.symlink target)) :
    ∃ normalized content, normalizeDependencySymlink path.dropLast target = .ok normalized ∧ ".git" ∉ normalized ∧
      t.node.find normalized = some (.file content) := by
  obtain ⟨-, normalized, hnormalized, -, hfile⟩ := checkSymlink_eq_ok.mp (t.admitted hgit hne hfound)
  rw [DependencyNode.find_sorted t.wellFormed] at hfile
  cases hend : t.node.find normalized with
  | none =>
    rw [hend] at hfile
    cases hfile
  | some found =>
    rw [hend] at hfile
    cases found with
    | file content => exact ⟨normalized, content, hnormalized, normalize_not_git hnormalized, hend⟩
    | _ => cases hfile

end RecordedTree

/-! Resolution below a tree -/

section Resolution
variable {h : Hashing} {t t' : RecordedTree h} {node found : DependencyNode} {place path names : List String}
    {name target : String}

theorem Host.entry_base (host : Host node) (place : List String) :
    host.entry (host.base ++ place) = (node.find place).map DependencyNode.entry := by
  rw [Host.entry, DependencyNode.find_append, host.placed, Option.bind_some]

theorem parent_directory (hfound : node.find (place ++ name :: path) = some found) :
    (node.find place).map DependencyNode.entry = some .directory := by
  rw [DependencyNode.find_append] at hfound
  obtain ⟨parent, hparent, hchild⟩ := Option.bind_eq_some_iff.mp hfound
  rw [hparent]
  cases parent with
  | directory children => rfl
  | _ => cases hchild

/-- The way to what a tree holds leads through directories. -/
theorem found_traversable (hnames : ∀ name ∈ names, IsName name)
    (hfound : node.find (place ++ names ++ name :: path) = some found) :
    Traversable (fun place => (node.find place).map DependencyNode.entry = some .directory) place names := by
  induction names generalizing place with
  | nil => trivial
  | cons first rest ih =>
    obtain ⟨hfirst, hrest⟩ := List.forall_mem_cons.mp hnames
    rw [List.append_assoc, List.cons_append] at hfound
    refine ⟨parent_directory hfound, ?_⟩
    rw [descend_name hfirst]
    apply ih hrest
    rwa [List.append_assoc, List.append_assoc, List.singleton_append]

theorem IsFileName.isName {name : String} (h : IsFileName name) : IsName name := ⟨h.1, h.2.1, h.2.2.1⟩

/-- The walk from the top of the tree to the directory of what the tree holds. -/
theorem Host.resolve_parent (host : Host t.node) (hfound : t.node.find (place ++ [name]) = some found) (links : Nat) :
    resolve host.entry links host.base (place ++ [name]) = resolve host.entry links (host.base ++ place) [name] ∧
      host.entry (host.base ++ place) = some .directory ∧ IsFileName name := by
  have hfile := t.wellFormed.isFileName hfound
  have hnames : ∀ part ∈ place, IsName part := fun part hpart => (hfile part (List.mem_append_left _ hpart)).isName
  have hdirectory : host.entry (host.base ++ place) = some .directory := (host.entry_base place).trans (parent_directory hfound)
  have htraversable : Traversable (host.entry · = some .directory) (host.base ++ []) place := by
    rw [traversable_append host.base (stays_names hnames [])]
    simp only [host.entry_base]
    exact found_traversable hnames hfound
  have hspelled : spelled host.base place = host.base ++ place := spelled_names hnames host.base
  rw [List.append_nil] at htraversable
  refine ⟨?_, hdirectory, hfile name (List.mem_append_right _ List.mem_cons_self)⟩
  rw [resolve_spelled htraversable (.inr (hspelled ▸ hdirectory)), hspelled]

/-- Opening a link goes on with its target in its directory. -/
theorem Host.resolve_symlink (host : Host t.node) (hfound : t.node.find (place ++ [name]) = some (.symlink target))
    (hrelative : target.toList.head? ≠ some '/') (links : Nat) :
    resolve host.entry (links + 1) host.base (place ++ [name]) =
      resolve host.entry links (host.base ++ place) (components target) := by
  obtain ⟨hparent, hdirectory, hname⟩ := host.resolve_parent hfound (links + 1)
  have hlink : host.entry (descend (host.base ++ place) name) = some (.link false (components target)) := by
    rw [descend_name hname.isName, List.append_assoc, host.entry_base, hfound, Option.map_some, DependencyNode.entry,
      decide_eq_false hrelative]
  rw [hparent, resolve_link hdirectory hlink, List.append_nil]
  rfl

/-- Places made of file names stay so. -/
theorem descend_isFileName (hplace : ∀ part ∈ place, IsFileName part) {component : String} (hslash : '/' ∉ component.toList) :
    ∀ part ∈ descend place component, IsFileName part := by
  intro part hpart
  unfold descend at hpart
  split_ifs at hpart with hskip hup
  · exact hplace part hpart
  · exact hplace part (List.dropLast_subset _ hpart)
  · rcases List.mem_append.mp hpart with hpart | hpart
    · exact hplace part hpart
    · rw [List.mem_singleton.mp hpart]
      exact ⟨(not_or.mp hskip).1, (not_or.mp hskip).2, hup, hslash⟩

/-- A target that passes recorded directories leads to the file at the normalized target, and no further. -/
theorem resolve_target (host : Host t.node) (hgit : ".git" ∉ place ++ [name])
    (hfound : t.node.find (place ++ [name]) = some (.symlink target))
    (htraversable : Traversable (fun place => place = [] ∨
      .directory (joinPath place) ∈ t.manifest.entries) place (components target))
    {normalized : List String} (hnormalized : normalizeDependencySymlink place target = .ok normalized) (links : Nat) :
    resolve host.entry links (host.base ++ place) (components target) = some (host.base ++ normalized) ∧
      ∀ rest ≠ [], resolve host.entry links (host.base ++ place) (components target ++ rest) = none := by
  obtain ⟨normalized', content, hnormalized', -, hfile⟩ := t.link_checked hgit (by simp) hfound
  rw [List.dropLast_concat, hnormalized] at hnormalized'
  cases hnormalized'
  obtain ⟨hrelative, hspelled, hstays⟩ := normalize_spelled hnormalized
  have hplace : ∀ part ∈ place, IsFileName part := fun part hpart =>
    t.wellFormed.isFileName hfound part (List.mem_append_left _ hpart)
  have hwalk : Traversable (host.entry · = some .directory) (host.base ++ place) (components target) := by
    rw [traversable_append host.base hstays]
    simp only [host.entry_base]
    refine htraversable.imp (fun place => ∀ part ∈ place, IsFileName part) (fun place hnames hrecorded => ?_)
      (fun place component hcomponent hnames =>
        descend_isFileName hnames (components_not_slash target component hcomponent)) hplace
    rcases hrecorded with rfl | hrecorded
    · rw [t.isDirectory.1, Option.map_some, t.isDirectory.2]
    · exact ((t.directory_mem_iff hnames).mp hrecorded).2.2
  have hend : host.entry (spelled (host.base ++ place) (components target)) = some .file := by
    rw [spelled_append host.base hstays, ← hspelled, host.entry_base, hfile]
    rfl
  constructor
  · rw [← List.append_nil (components target), resolve_spelled hwalk (.inl hend), resolve_nil, spelled_append host.base hstays,
      ← hspelled]
  · intro rest hrest
    rw [resolve_spelled hwalk (.inl hend), resolve_file hend hrest]

/-- A recorded link with what the record says of its target. -/
theorem LinksTraversable.of_found (hcond : LinksTraversable t.manifest) (hgit : ".git" ∉ place ++ [name])
    (hfound : t.node.find (place ++ [name]) = some (.symlink target)) :
    Traversable (fun place => place = [] ∨ .directory (joinPath place) ∈ t.manifest.entries) place (components target) := by
  have hmem : .symlink (joinPath (place ++ [name])) target ∈ t.manifest.entries :=
    t.mem_entries.mpr ⟨_, _, hgit, by simp, hfound, rfl⟩
  have htraversable := hcond _ _ hmem
  rwa [posixParts_joinPath (t.wellFormed.isFileName hfound), List.dropLast_concat] at htraversable

/-- The same tree elsewhere holds the same link. -/
theorem symlink_alike (hmanifest : t'.manifest = t.manifest) (hgit : ".git" ∉ path) (hne : path ≠ [])
    (hfound : t.node.find path = some (.symlink target)) : t'.node.find path = some (.symlink target) := by
  obtain ⟨found', hfound', hdescribing, -⟩ := RecordedTree.described_alike hmanifest hgit hne hfound
  cases found' with
  | symlink target' => rw [hfound', (TreeEntry.symlink.inj (Option.some.inj hdescribing)).2]
  | _ => cases hdescribing

/-- The target of the recorded link in both trees. -/
theorem target_alike (hmanifest : t'.manifest = t.manifest) (hcond : LinksTraversable t.manifest)
    (a : Host t.node) (b : Host t'.node)
    (hgit : ".git" ∉ place ++ [name]) (hfound : t.node.find (place ++ [name]) = some (.symlink target)) (links : Nat)
    (rest : List String) :
    ∃ opened : Option (List String), (∀ goal ∈ opened, ".git" ∉ goal) ∧
      resolve a.entry links (a.base ++ place) (components target ++ rest) = opened.map (a.base ++ ·) ∧
      resolve b.entry links (b.base ++ place) (components target ++ rest) = opened.map (b.base ++ ·) := by
  have hfound' := symlink_alike hmanifest hgit (by simp) hfound
  obtain ⟨normalized, content, hnormalized, hclean, -⟩ := t.link_checked hgit (by simp) hfound
  rw [List.dropLast_concat] at hnormalized
  obtain ⟨ha, haRest⟩ := resolve_target a hgit hfound (hcond.of_found hgit hfound) hnormalized links
  obtain ⟨hb, hbRest⟩ := resolve_target b hgit hfound' ((hmanifest ▸ hcond).of_found hgit hfound') hnormalized links
  rcases eq_or_ne rest [] with rfl | hrest
  · rw [List.append_nil]
    refine ⟨some normalized, ?_, ha, hb⟩
    rintro _ ⟨⟩
    exact hclean
  · exact ⟨none, by simp, haRest rest hrest, hbRest rest hrest⟩

/-- Two trees with one manifest open the same for every path of file names. -/
theorem resolve_alike (hmanifest : t'.manifest = t.manifest) (hcond : LinksTraversable t.manifest)
    (a : Host t.node) (b : Host t'.node)
    (links : Nat) (hpath : ∀ name ∈ path, IsFileName name ∧ name ≠ ".git") (hgit : ".git" ∉ place)
    (hplace : t.kindAt place = some .directory ∨ path = []) :
    ∃ opened : Option (List String), (∀ goal ∈ opened, ".git" ∉ goal) ∧
      resolve a.entry (links + 1) (a.base ++ place) path = opened.map (a.base ++ ·) ∧
      resolve b.entry (links + 1) (b.base ++ place) path = opened.map (b.base ++ ·) := by
  induction path generalizing place with
  | nil =>
    refine ⟨some place, ?_, resolve_nil _ _, resolve_nil _ _⟩
    rintro _ ⟨⟩
    exact hgit
  | cons name rest ih =>
    obtain ⟨⟨hname, hnotgit⟩, hrest⟩ := List.forall_mem_cons.mp hpath
    have hnext : ".git" ∉ place ++ [name] := by simp [hgit, Ne.symm hnotgit]
    have hdirectory := hplace.resolve_right (List.cons_ne_nil _ _)
    have ha : a.entry (a.base ++ place) = some .directory := (a.entry_base place).trans hdirectory
    have hb : b.entry (b.base ++ place) = some .directory :=
      (b.entry_base place).trans ((RecordedTree.kindAt_alike hmanifest hgit).symm.trans hdirectory)
    have haNext : a.entry (descend (a.base ++ place) name) = t.kindAt (place ++ [name]) := by
      rw [descend_name hname.isName, List.append_assoc]
      exact a.entry_base _
    have hbNext : b.entry (descend (b.base ++ place) name) = t.kindAt (place ++ [name]) := by
      rw [descend_name hname.isName, List.append_assoc, RecordedTree.kindAt_alike hmanifest hnext]
      exact b.entry_base _
    rcases hkind : t.kindAt (place ++ [name]) with _ | _ | _ | ⟨fromRoot, target⟩
    · exact ⟨none, by simp, resolve_missing (haNext.trans hkind) _, resolve_missing (hbNext.trans hkind) _⟩
    · rcases eq_or_ne rest [] with rfl | hne
      · rw [resolve_plain ha (.inl (haNext.trans hkind)), resolve_plain hb (.inl (hbNext.trans hkind)), descend_name hname.isName,
          descend_name hname.isName, List.append_assoc, List.append_assoc]
        exact ih hrest hnext (.inr rfl)
      · refine ⟨none, by simp, ?_, ?_⟩
        · rw [resolve_plain ha (.inl (haNext.trans hkind)), resolve_file (haNext.trans hkind) hne]
          rfl
        · rw [resolve_plain hb (.inl (hbNext.trans hkind)), resolve_file (hbNext.trans hkind) hne]
          rfl
    · rw [resolve_plain ha (.inr (haNext.trans hkind)), resolve_plain hb (.inr (hbNext.trans hkind)), descend_name hname.isName,
        descend_name hname.isName, List.append_assoc, List.append_assoc]
      exact ih hrest hnext (.inl hkind)
    · obtain ⟨found, hfound, hentry⟩ := Option.map_eq_some_iff.mp hkind
      cases found with
      | symlink text =>
        obtain ⟨normalized, -, hnormalized, -⟩ := t.link_checked hnext (by simp) hfound
        obtain ⟨hrelative, -⟩ := normalize_spelled hnormalized
        cases hentry
        rw [resolve_link ha (haNext.trans hkind), resolve_link hb (hbNext.trans hkind), decide_eq_false hrelative]
        exact target_alike hmanifest hcond a b hnext hfound links rest
      | _ => cases hentry

/-- Files at one place without metadata directories have the same bytes. -/
theorem content_alike (hmanifest : t'.manifest = t.manifest) (hcollision : NoCollision h t.node t'.node) (hgit : ".git" ∉ path)
    (hne : path ≠ []) {content : Bytes} (hfound : t.node.find path = some (.file content)) :
    t'.node.find path = some (.file content) := by
  obtain ⟨found', hfound', hdescribing, -⟩ := RecordedTree.described_alike hmanifest hgit hne hfound
  cases found' with
  | file content' =>
    have hdigest := (TreeEntry.file.inj (Option.some.inj hdescribing)).2.1
    rw [hfound', hcollision path content content' hfound hfound' hdigest]
  | _ => cases hdescribing

theorem NoCollision.symm (hcollision : NoCollision h t.node t'.node) : NoCollision h t'.node t.node := by
  intro path content content' hfound hfound' hdigest
  exact (hcollision path content' content hfound' hfound hdigest.symm).symm

/-- Two trees with one manifest give the same bytes at every place without metadata directories. -/
theorem content_eq (hmanifest : t'.manifest = t.manifest) (hcollision : NoCollision h t.node t'.node) (hgit : ".git" ∉ path) :
    DependencyNode.content (t.node.find path) = DependencyNode.content (t'.node.find path) := by
  have hfile (s s' : RecordedTree h) (hsame : s'.manifest = s.manifest) (hno : NoCollision h s.node s'.node) {content : Bytes}
      (hfound : s.node.find path = some (.file content)) : s'.node.find path = some (.file content) := by
    rcases eq_or_ne path [] with rfl | hne
    · have hroot := s.isDirectory
      rw [hroot.1] at hfound
      rw [Option.some.inj hfound] at hroot
      cases hroot.2
    · exact content_alike hsame hno hgit hne hfound
  have hcontent {node : Option DependencyNode} {content : Bytes} (h : DependencyNode.content node = some content) :
      node = some (.file content) := by
    unfold DependencyNode.content at h
    split at h
    · cases h
      rfl
    · cases h
  apply Option.ext
  intro content
  constructor
  · intro h
    rw [hfile t t' hmanifest hcollision (hcontent h)]
    rfl
  · intro h
    rw [hfile t' t hmanifest.symm hcollision.symm (hcontent h)]
    rfl

end Resolution

/-! The tree without its metadata directories -/

section WithoutGit
variable {h : Hashing}

theorem withoutGit_recorded (t : RecordedTree h) : dependencyTreeManifest h t.node.withoutGit = .ok t.manifest := by
  obtain ⟨entries, hentries, hmanifest⟩ := bind_eq_ok.mp t.recorded
  refine bind_eq_ok.mpr ⟨entries, ?_, hmanifest⟩
  unfold dependencyTreeEntries at hentries ⊢
  rw [DependencyNode.withoutGit_sorted t.wellFormed]
  split at hentries
  · next children hchildren =>
    rw [hchildren] at hentries
    have hwalk : visitChildren h (DependencyNode.directory children).withoutGit []
        (DependencyNode.childrenWithoutGit children) = .ok entries :=
      visitChildren_withoutGit (fun c _ entries hname hok => visit_withoutGit (fun path target =>
        checkSymlink_withoutGit) hname hok)
        hentries
    rw [hchildren]
    exact hwalk
  · cases hentries

/-- The tree that the same manifest records without metadata directories. -/
def RecordedTree.withoutGit (t : RecordedTree h) : RecordedTree h where
  node := t.node.withoutGit
  wellFormed := t.wellFormed.withoutGit
  manifest := t.manifest
  recorded := withoutGit_recorded t

variable {t : RecordedTree h} {place path : List String} {name target : String}

theorem withoutGit_noCollision (node : DependencyNode) : NoCollision h node node.withoutGit := by
  intro path content content' hfound hfound' _
  rw [DependencyNode.find_withoutGit] at hfound'
  split at hfound'
  · cases hfound'
  · rw [hfound] at hfound'
    exact DependencyNode.file.inj (Option.some.inj hfound')

theorem withoutGit_clean {found : DependencyNode} (hfound : t.withoutGit.node.find path = some found) : ".git" ∉ path := by
  change t.node.withoutGit.find path = _ at hfound
  rw [DependencyNode.find_withoutGit] at hfound
  intro hmem
  rw [if_pos hmem] at hfound
  cases hfound

/-- Without metadata directories every link that there is has been let through. -/
theorem withoutGit_links (host : Host t.withoutGit.node) (hbase : host.base = []) : LinksSpellFiles host.entry := by
  intro here component fromRoot target hhere hlink
  have hentry (place : List String) : host.entry place = t.withoutGit.kindAt place := by
    have hplaced := host.entry_base place
    rwa [hbase, List.nil_append] at hplaced
  rw [hentry] at hhere hlink
  obtain ⟨found, hfound, hkind⟩ := Option.map_eq_some_iff.mp hlink
  have hgit := withoutGit_clean hfound
  cases found with
  | symlink text =>
    have hplace : ∃ name, descend here component = here ++ [name] := by
      unfold descend at hlink ⊢
      split_ifs at hlink ⊢ with hskip hup
      · rw [hhere] at hlink
        cases hlink
      · rcases List.eq_nil_or_concat here with rfl | ⟨init, last, rfl⟩
        · rw [List.dropLast_nil, hhere] at hlink
          cases hlink
        · obtain ⟨parent, hparent, -⟩ := Option.map_eq_some_iff.mp hhere
          rw [List.concat_eq_append] at hparent hlink
          rw [List.dropLast_concat, RecordedTree.kindAt, parent_directory hparent] at hlink
          cases hlink
      · exact ⟨component, rfl⟩
    obtain ⟨name, hplace⟩ := hplace
    rw [hplace] at hfound hgit
    obtain ⟨normalized, content, hnormalized, -, hfile⟩ := t.withoutGit.link_checked hgit (by simp) hfound
    rw [List.dropLast_concat] at hnormalized
    obtain ⟨hrelative, hspelled, -⟩ := normalize_spelled hnormalized
    cases hkind
    refine ⟨decide_eq_false hrelative, ?_⟩
    rw [hentry, ← hspelled, RecordedTree.kindAt, hfile]
    rfl
  | _ => cases hkind

/-- A target that resolves without metadata directories passes recorded directories. -/
theorem traversable_of_opens (host : Host t.withoutGit.node) (hbase : host.base = []) {goal : List String}
    (hgit : ".git" ∉ place ++ [name]) (hfound : t.withoutGit.node.find (place ++ [name]) = some (.symlink target))
    (hopens : host.opens (place ++ [name]) = some goal) :
    Traversable (fun place => place = [] ∨ .directory (joinPath place) ∈ t.manifest.entries) place (components target) := by
  obtain ⟨normalized, content, hnormalized, -, hfile⟩ := t.withoutGit.link_checked hgit (by simp) hfound
  rw [List.dropLast_concat] at hnormalized
  obtain ⟨hrelative, hspelled, -⟩ := normalize_spelled hnormalized
  have hentry (place : List String) : host.entry place = t.withoutGit.kindAt place := by
    have hplaced := host.entry_base place
    rwa [hbase, List.nil_append] at hplaced
  have hend : host.entry (spelled place (components target)) = some .file := by
    rw [hentry, ← hspelled, RecordedTree.kindAt, hfile]
    rfl
  rw [Host.opens, symloopMax, host.resolve_symlink hfound hrelative, hbase, List.nil_append,
    ← List.append_nil (components target)] at hopens
  obtain ⟨htraversable, -⟩ := traversable_of_resolve (withoutGit_links host hbase) _ hend hopens
  refine htraversable.imp (fun place => ∀ part ∈ place, IsFileName part) (fun place hnames hdirectory => ?_)
    (fun place component hcomponent hnames => descend_isFileName hnames (components_not_slash target component hcomponent))
    fun part hpart => t.withoutGit.wellFormed.isFileName hfound part (List.mem_append_left _ hpart)
  rcases eq_or_ne place [] with hnil | hne
  · exact .inl hnil
  · rw [hentry] at hdirectory
    obtain ⟨found, hplace, -⟩ := Option.map_eq_some_iff.mp hdirectory
    exact .inr ((t.withoutGit.directory_mem_iff hnames).mpr ⟨hne, withoutGit_clean hplace, hdirectory⟩)

end WithoutGit

/-! The record and what is read -/

/-- The record of a tree fixes what is read through its links and paths exactly when the targets
of its links pass recorded directories only. -/
theorem record_fixes_iff (h : Hashing) (t : RecordedTree h) : FixesContents t ↔ LinksTraversable t.manifest := by
  constructor
  · intro hfixes path target hmem
    obtain ⟨parts, hparts, hne, hgit, hfound, -⟩ := t.symlink_mem hmem
    obtain ⟨place, name, rfl⟩ := (List.eq_nil_or_concat parts).resolve_left hne
    rw [List.concat_eq_append] at hparts hgit hfound
    rw [hparts, List.dropLast_concat]
    have hsame : t.withoutGit.manifest = t.manifest := rfl
    have hfound' := symlink_alike hsame hgit (by simp) hfound
    obtain ⟨hlinks, -⟩ := hfixes t.withoutGit rfl (withoutGit_noCollision t.node) ⟨t.node, [], rfl⟩ ⟨t.withoutGit.node, [], rfl⟩
    obtain ⟨normalized, content, -, -, hopens, -, -⟩ := hlinks path target hmem
    rw [hparts] at hopens
    exact traversable_of_opens _ rfl hgit hfound' hopens
  · intro hcond t' hmanifest hcollision a b
    constructor
    · intro path target hmem
      obtain ⟨parts, hparts, hne, hgit, hfound, -⟩ := t.symlink_mem hmem
      obtain ⟨place, name, rfl⟩ := (List.eq_nil_or_concat parts).resolve_left hne
      rw [List.concat_eq_append] at hparts hgit hfound
      have hfound' := symlink_alike hmanifest hgit (by simp) hfound
      obtain ⟨normalized, content, hnormalized, hclean, hfile⟩ := t.link_checked hgit (by simp) hfound
      rw [List.dropLast_concat] at hnormalized
      obtain ⟨hrelative, -⟩ := normalize_spelled hnormalized
      have ha := (resolve_target a hgit hfound (hcond.of_found hgit hfound) hnormalized 39).1
      have hb := (resolve_target b hgit hfound' ((hmanifest ▸ hcond).of_found hgit hfound') hnormalized 39).1
      have hnormal : normalized ≠ [] := by
        rintro rfl
        have hroot := t.isDirectory
        rw [hroot.1] at hfile
        rw [Option.some.inj hfile] at hroot
        cases hroot.2
      refine ⟨normalized, content, ?_, ?_, ?_, hfile, content_alike hmanifest hcollision hclean hnormal hfile⟩
      · rw [hparts, List.dropLast_concat]
        exact hnormalized
      · rw [hparts, Host.opens, symloopMax, a.resolve_symlink hfound hrelative, ha]
      · rw [hparts, Host.opens, symloopMax, b.resolve_symlink hfound' hrelative, hb]
    · intro path hpath
      have hroot : t.kindAt [] = some .directory := by
        rw [RecordedTree.kindAt, t.isDirectory.1, Option.map_some, t.isDirectory.2]
      obtain ⟨opened, hclean, ha, hb⟩ := resolve_alike hmanifest hcond a b 39 hpath List.not_mem_nil (.inl hroot)
      rw [List.append_nil] at ha hb
      rw [Host.read, Host.read, Host.opens, Host.opens, symloopMax, ha, hb]
      cases opened with
      | none => rfl
      | some goal =>
        have hcontent := content_eq hmanifest hcollision (hclean goal rfl)
        rw [Option.map_some, Option.map_some, Option.bind_some, Option.bind_some, DependencyNode.find_append,
          DependencyNode.find_append, a.placed, b.placed]
        exact hcontent

/-- The digest of the empty file, where only empty files are hashed. -/
def emptyFileHashing : Hashing :=
    ⟨fun _ => [227, 176, 196, 66, 152, 252, 28, 20, 154, 251, 244, 200, 153, 111, 185, 36, 39, 174, 65, 228,
    100, 155, 147, 76, 164, 149, 153, 27, 120, 82, 184, 85]⟩

/-- A link through a metadata directory. -/
def linkedEntries : List (String × DependencyNode) := [("f", .file []), ("link", .symlink ".git/../f")]

def treeWithGit : DependencyNode := .directory ((".git", .directory []) :: linkedEntries)

def treeWithoutGit : DependencyNode := .directory linkedEntries

def linkedManifest : DependencyManifest :=
  ⟨dependencyTreeSchema, dependencyTreeRoot, [dependencyTreeExclusion],
    [.file "f" (hexdigest emptyFileHashing []) 0, .symlink "link" ".git/../f"]⟩

theorem linkedEntries_wellFormed : ∀ c ∈ linkedEntries, c.2.WellFormed := by
  intro c hc
  apply DependencyNode.wellFormed_leaf
  intro children hchildren
  simp only [linkedEntries, List.mem_cons, List.not_mem_nil, or_false] at hc
  rcases hc with rfl | rfl <;> cases hchildren

theorem treeWithGit_wellFormed : treeWithGit.WellFormed := by
  refine DependencyNode.wellFormed_directory (by decide +kernel) ?_ (List.forall_mem_cons.mpr ⟨?_, linkedEntries_wellFormed⟩)
  · simp [linkedEntries, IsFileName]
  · exact DependencyNode.wellFormed_directory (by simp) (by simp) (by simp)

theorem treeWithoutGit_wellFormed : treeWithoutGit.WellFormed := by
  refine DependencyNode.wellFormed_directory (by decide +kernel) ?_ linkedEntries_wellFormed
  simp [linkedEntries, IsFileName]

theorem linkedTarget_normalized : normalizeDependencySymlink [] ".git/../f" = .ok ["f"] := by
  have hparts : posixParts ".git/../f" = [".git", "..", "f"] := by decide +kernel
  have hgit : safeDependencyName ".git" = .ok () := safeDependencyName_of (by simp)
  have hfile : safeDependencyName "f" = .ok () := safeDependencyName_of (by simp)
  rw [normalizeDependencySymlink, hparts]
  refine ensure_bind_eq_ok.mpr ⟨⟨by decide +kernel, by simp⟩, bind_eq_ok.mpr ⟨["f"], ?_, ?_⟩⟩
  · simp [normalizePart, hgit, hfile, pure, Except.pure]
  · refine ensure_bind_eq_ok.mpr ⟨by simp, ensure_bind_eq_ok.mpr ⟨?_, rfl⟩⟩
    simp only [List.forall_mem_singleton]
    decide +kernel

/-- The link passes the check of any tree that holds the file. -/
theorem linkedTarget_checked {root : DependencyNode} (hfile : root.find ["f"] = some (.file [])) :
    checkSymlink root ["link"] ".git/../f" = .ok () := by
  refine checkSymlink_eq_ok.mpr ⟨by decide +kernel, ["f"], linkedTarget_normalized, by simp, ?_⟩
  rw [hfile]
  rfl

theorem linkedEntries_listed {root : DependencyNode} (hfile : root.find ["f"] = some (.file [])) :
    visitChildren emptyFileHashing root [] linkedEntries = .ok linkedManifest.entries := by
  have hname : safeDependencyName "f" = .ok () := safeDependencyName_of (by simp)
  have hlink : safeDependencyName "link" = .ok () := safeDependencyName_of (by simp)
  have hchecked := linkedTarget_checked hfile
  simp [visitChildren, visit, linkedEntries, linkedManifest, hname, hlink, hchecked, require, ensure, pure, Except.pure, joinPath]

theorem treeWithGit_recorded : dependencyTreeManifest emptyFileHashing treeWithGit = .ok linkedManifest := by
  have hsorted : treeWithGit.sorted = treeWithGit := by rfl
  have hgit : safeDependencyName ".git" = .ok () := safeDependencyName_of (by simp)
  have hlisted := linkedEntries_listed (show treeWithGit.find ["f"] = some (.file []) from rfl)
  refine bind_eq_ok.mpr ⟨linkedManifest.entries, ?_, rfl⟩
  rw [dependencyTreeEntries, hsorted]
  change visitChildren emptyFileHashing treeWithGit [] ((".git", .directory []) :: linkedEntries) = _
  rw [visitChildren, hgit, ok_bind, visit, if_pos rfl, hlisted]
  rfl

theorem treeWithoutGit_recorded : dependencyTreeManifest emptyFileHashing treeWithoutGit = .ok linkedManifest := by
  have hsorted : treeWithoutGit.sorted = treeWithoutGit := by rfl
  refine bind_eq_ok.mpr ⟨linkedManifest.entries, ?_, rfl⟩
  rw [dependencyTreeEntries, hsorted]
  exact linkedEntries_listed (show treeWithoutGit.find ["f"] = some (.file []) from rfl)

def gitHost : Host treeWithGit := ⟨treeWithGit, [], rfl⟩

def plainHost : Host treeWithoutGit := ⟨treeWithoutGit, [], rfl⟩

/-- Two trees have one manifest, but only in one of them the link leads anywhere. -/
theorem link_through_git :
    dependencyTreeManifest emptyFileHashing treeWithGit = .ok linkedManifest ∧
      dependencyTreeManifest emptyFileHashing treeWithoutGit = .ok linkedManifest ∧
      gitHost.opens ["link"] = some ["f"] ∧ plainHost.opens ["link"] = none ∧
      ¬ ∀ t : RecordedTree emptyFileHashing, FixesContents t := by
  have hopens : plainHost.opens ["link"] = none := by decide +kernel
  refine ⟨treeWithGit_recorded, treeWithoutGit_recorded, by decide +kernel, hopens, fun h => ?_⟩
  have hcollision : NoCollision emptyFileHashing treeWithGit treeWithoutGit := withoutGit_noCollision treeWithGit
  obtain ⟨hlinks, -⟩ := h ⟨treeWithGit, treeWithGit_wellFormed, linkedManifest, treeWithGit_recorded⟩
    ⟨treeWithoutGit, treeWithoutGit_wellFormed, linkedManifest, treeWithoutGit_recorded⟩ rfl hcollision gitHost plainHost
  obtain ⟨_, _, -, -, hplain, -⟩ := hlinks "link" ".git/../f" (by simp [linkedManifest])
  have hparts : posixParts "link" = ["link"] := by decide +kernel
  rw [hparts, hopens] at hplain
  cases hplain

end Autolean.Library
