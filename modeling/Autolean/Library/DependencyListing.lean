import Autolean.Library.DependencyTree
import Autolean.Machine.Keyed

/-! What the listing of a tree of built packages says about the tree: exactly the kinds, the
link targets and the digests at the paths that no metadata directory is on. -/
namespace Autolean.Library
open Machine Machine.Raising Text

/-- A name that a directory can hold. -/
def IsFileName (name : String) : Prop := name ≠ "" ∧ name ≠ "." ∧ name ≠ ".." ∧ '/' ∉ name.toList

namespace DependencyNode

/-- Each directory holds file names, and each name once. -/
def WellFormed (node : DependencyNode) : Prop :=
  ∀ path children, node.find path = some (directory children) →
    (children.map Prod.fst).Nodup ∧ ∀ name ∈ children.map Prod.fst, IsFileName name

mutual
/-- The tree without the metadata directories. -/
def withoutGit : DependencyNode → DependencyNode
  | directory children => directory (childrenWithoutGit children)
  | node => node

def childrenWithoutGit : List (String × DependencyNode) → List (String × DependencyNode)
  | [] => []
  | (name, node) :: rest =>
    if name = ".git" then childrenWithoutGit rest else (name, withoutGit node) :: childrenWithoutGit rest
end

variable {node next found : DependencyNode} {children : List (String × DependencyNode)} {name : String} {path rest : List String}

/-- A property of every tree, from the trees in a directory to the directory. -/
@[elab_as_elim]
theorem induct {motive : DependencyNode → Prop} (file : ∀ content, motive (.file content))
    (symlink : ∀ target, motive (.symlink target))
    (special : motive .special) (directory : ∀ children, (∀ c ∈ children, motive c.2) → motive (.directory children)) :
    ∀ node, motive node
  | .file content => file content
  | .symlink target => symlink target
  | .special => special
  | .directory children => directory children fun c _ => induct file symlink special directory c.2
termination_by node => sizeOf node
decreasing_by
  have hsize := List.sizeOf_lt_of_mem ‹c ∈ children›
  obtain ⟨name, node⟩ := c
  simp only [Prod.mk.sizeOf_spec, DependencyNode.directory.sizeOf_spec] at hsize ⊢
  omega

/-! Paths -/

theorem find_append (node : DependencyNode) (path rest : List String) :
    node.find (path ++ rest) = (node.find path).bind fun found => found.find rest := by
  induction path generalizing node with
  | nil => rfl
  | cons name path ih =>
    rw [List.cons_append, find, find]
    cases node.child name with
    | none => rfl
    | some next => exact ih next

theorem find_cons : (directory children).find (name :: path) = (children.lookup name).bind fun next => next.find path := rfl

theorem WellFormed.find (h : node.WellFormed) (hfound : node.find path = some found) : found.WellFormed := by
  intro rest children hchildren
  apply h (path ++ rest) children
  rw [find_append, hfound]
  exact hchildren

theorem WellFormed.lookup_eq_some (h : (directory children).WellFormed) : children.lookup name = some next ↔
    (name, next) ∈ children :=
  Keyed.lookup_eq_some (h [] children rfl).1

theorem WellFormed.of_lookup (h : (directory children).WellFormed)
    (hnext : children.lookup name = some next) : next.WellFormed := by
  have hfound : (directory children).find [name] = some next := by
    rw [find_cons, hnext]
    rfl
  exact h.find hfound

theorem WellFormed.of_mem (h : (directory children).WellFormed) (hnext : (name, next) ∈ children) : next.WellFormed :=
  h.of_lookup (h.lookup_eq_some.mpr hnext)

theorem WellFormed.isFileName (h : node.WellFormed) (hfound : node.find path = some found) : ∀ name ∈ path, IsFileName name := by
  induction path generalizing node with
  | nil => simp
  | cons name path ih =>
    cases node with
    | directory children =>
      rw [find_cons] at hfound
      obtain ⟨next, hnext, hfound⟩ := Option.bind_eq_some_iff.mp hfound
      have hname : name ∈ children.map Prod.fst := List.mem_map_of_mem (h.lookup_eq_some.mp hnext)
      exact List.forall_mem_cons.mpr ⟨(h [] children rfl).2 name hname, ih (h.of_lookup hnext) hfound⟩
    | _ => cases hfound

theorem wellFormed_directory (hnodup : (children.map Prod.fst).Nodup) (hnames : ∀ name ∈ children.map Prod.fst, IsFileName name)
    (hchildren : ∀ c ∈ children, c.2.WellFormed) : (directory children).WellFormed := by
  intro path found hfound
  cases path with
  | nil =>
    cases hfound
    exact ⟨hnodup, hnames⟩
  | cons name path =>
    rw [find_cons] at hfound
    obtain ⟨next, hnext, hfound⟩ := Option.bind_eq_some_iff.mp hfound
    exact hchildren _ ((Keyed.lookup_eq_some hnodup).mp hnext) path found hfound

theorem wellFormed_leaf (hleaf : ∀ children, node ≠ directory children) : node.WellFormed := by
  intro path children hfound
  cases path with
  | nil => exact absurd (Option.some.inj hfound) (hleaf children)
  | cons name path =>
    cases node with
    | directory original => exact absurd rfl (hleaf original)
    | _ => cases hfound

/-! Sorted trees and trees without metadata directories -/

theorem sortedChildren_eq (children : List (String × DependencyNode)) :
    sortedChildren children = children.map fun c => (c.1, c.2.sorted) := by
  induction children with
  | nil => rfl
  | cons c rest ih => rw [sortedChildren, ih, List.map_cons]

theorem childrenWithoutGit_eq (children : List (String × DependencyNode)) :
    childrenWithoutGit children = (children.filter fun c => c.1 ≠ ".git").map fun c => (c.1, c.2.withoutGit) := by
  induction children with
  | nil => rfl
  | cons c rest ih =>
    rw [childrenWithoutGit, ih, List.filter_cons]
    by_cases hc : c.1 = ".git" <;> simp [hc]

theorem find_sorted (h : node.WellFormed) (path : List String) : node.sorted.find path = (node.find path).map sorted := by
  induction path generalizing node with
  | nil => rfl
  | cons name path ih =>
    cases node with
    | directory children =>
      have hkeys : (((sortedChildren children).insertionSort fun a b => a.1 ≤ b.1).map Prod.fst).Nodup := by
        have hsame : (sortedChildren children).map Prod.fst = children.map Prod.fst := by
          rw [sortedChildren_eq, List.map_map]
          rfl
        rw [((List.perm_insertionSort _ _).map Prod.fst).nodup_iff, hsame]
        exact (h [] children rfl).1
      have hlookup : ((sortedChildren children).insertionSort fun a b =>
        a.1 ≤ b.1).lookup name = (children.lookup name).map sorted := by
        rw [Keyed.lookup_perm (List.perm_insertionSort _ _) hkeys, sortedChildren_eq, Keyed.lookup_map]
      rw [sorted, find_cons, find_cons, hlookup]
      cases hnext : children.lookup name with
      | none => rfl
      | some next => exact ih (h.of_lookup hnext)
    | _ => rfl

theorem find_withoutGit (node : DependencyNode) (path : List String) :
    node.withoutGit.find path = if ".git" ∈ path then none else (node.find path).map withoutGit := by
  induction path generalizing node with
  | nil => rfl
  | cons name path ih =>
    cases node with
    | directory children =>
      have hlookup : (childrenWithoutGit children).lookup name =
          if name ≠ ".git" then (children.lookup name).map withoutGit else none := by
        rw [childrenWithoutGit_eq, Keyed.lookup_map, Keyed.lookup_filter fun name => decide (name ≠ ".git")]
        simp only [decide_eq_true_eq]
        split <;> rfl
      rw [withoutGit, find_cons, find_cons, hlookup]
      by_cases hname : name = ".git"
      · simp [hname]
      · rw [if_pos hname]
        cases children.lookup name with
        | none => simp
        | some next =>
          rw [Option.map_some, Option.bind_some, Option.bind_some, ih]
          simp [Ne.symm hname]
    | _ => simp [withoutGit, find, child]

theorem withoutGit_sorted (h : node.WellFormed) : node.withoutGit.sorted = node.sorted.withoutGit := by
  induction node using induct with
  | directory children ih =>
    have hmap : ((children.map fun c => (c.1, c.2.sorted)).filter fun c => c.1 ≠ ".git").map (fun c => (c.1, c.2.withoutGit)) =
        ((children.filter fun c => c.1 ≠ ".git").map fun c => (c.1, c.2.withoutGit)).map fun c => (c.1, c.2.sorted) := by
      rw [List.filter_map, List.map_map, List.map_map]
      apply List.map_congr_left
      intro c hc
      have hmem : (c.1, c.2) ∈ children := (List.mem_filter.mp hc).1
      exact congrArg (Prod.mk c.1) (ih c hmem (h.of_mem hmem)).symm
    rw [sorted, withoutGit, withoutGit, sorted, sortedChildren_eq, childrenWithoutGit_eq, sortedChildren_eq,
      childrenWithoutGit_eq,
      ← hmap]
    congr 1
    symm
    apply Keyed.eq_insertionSort Prod.fst
    · exact ((List.perm_insertionSort _ _).filter _).map _
    · have hkeys : ((children.map fun c => (c.1, c.2.sorted)).map Prod.fst).Nodup := by
        rw [List.map_map]
        exact (h [] children rfl).1
      rw [List.map_map]
      refine List.Nodup.sublist (List.filter_sublist.map _) ?_
      exact ((List.perm_insertionSort _ _).map Prod.fst).nodup_iff.mpr hkeys
    · rw [List.pairwise_map]
      exact (List.pairwise_insertionSort _ _).filter _
  | _ => rfl

theorem WellFormed.sorted (h : node.WellFormed) : node.sorted.WellFormed := by
  intro path children hchildren
  rw [find_sorted h] at hchildren
  obtain ⟨found, hfound, heq⟩ := Option.map_eq_some_iff.mp hchildren
  cases found with
  | directory original =>
    obtain ⟨hnodup, hnames⟩ := h path original hfound
    have hkeys : (children.map Prod.fst).Perm (original.map Prod.fst) := by
      rw [← directory.inj heq, sortedChildren_eq]
      refine ((List.perm_insertionSort _ _).map Prod.fst).trans ?_
      rw [List.map_map]
      exact .refl _
    exact ⟨hkeys.nodup_iff.mpr hnodup, fun name hname => hnames name (hkeys.mem_iff.mp hname)⟩
  | _ => cases heq

theorem WellFormed.withoutGit (h : node.WellFormed) : node.withoutGit.WellFormed := by
  intro path children hchildren
  rw [find_withoutGit] at hchildren
  split at hchildren
  · cases hchildren
  · obtain ⟨found, hfound, heq⟩ := Option.map_eq_some_iff.mp hchildren
    cases found with
    | directory original =>
      obtain ⟨hnodup, hnames⟩ := h path original hfound
      have hkeys : children.map Prod.fst = (original.filter fun c => c.1 ≠ ".git").map Prod.fst := by
        rw [← directory.inj heq, childrenWithoutGit_eq, List.map_map]
        rfl
      have hsub : (children.map Prod.fst).Sublist (original.map Prod.fst) := hkeys ▸ List.filter_sublist.map _
      exact ⟨hnodup.sublist hsub, fun name hname => hnames name (hsub.subset hname)⟩
    | _ => cases heq

end DependencyNode

/-! The listing -/

/-- The entry for what is found at a path. -/
def TreeEntry.describing (h : Hashing) (path : List String) : DependencyNode → Option TreeEntry
  | .file content => some (.file (joinPath path) (hexdigest h content) content.length)
  | .symlink target => some (.symlink (joinPath path) target)
  | .directory _ => some (.directory (joinPath path))
  | .special => none

/-- What the walk has checked of what it found at a path. -/
def Admitted (root : DependencyNode) (path : List String) : DependencyNode → Prop
  | .symlink target => checkSymlink root path target = .ok ()
  | .special => False
  | _ => True

/-- The entries are those of what is found below the paths, and all of it has been checked. -/
structure Lists (h : Hashing) (root : DependencyNode) (relative : List String) (found : List String → DependencyNode → Prop)
    (entries : List TreeEntry) : Prop where
  mem : ∀ entry, entry ∈ entries ↔ ∃ path node, ".git" ∉ path ∧ found path node ∧
    TreeEntry.describing h (relative ++ path) node = some entry
  admitted : ∀ path node, ".git" ∉ path → found path node → Admitted root (relative ++ path) node

variable {h : Hashing} {root root' node : DependencyNode} {relative : List String} {name : String}
  {children : List (String × DependencyNode)} {entries : List TreeEntry}

/-- What an entry of a directory leads to. -/
def FoundBelow (name : String) (node : DependencyNode) (path : List String) (found : DependencyNode) : Prop :=
  ∃ rest, path = name :: rest ∧ node.find rest = some found

/-- A leaf has its own entry alone. -/
theorem Lists.leaf {entry : TreeEntry} (hname : name ≠ ".git") (hleaf : ∀ next rest, node.find (next :: rest) = none)
    (hentry : TreeEntry.describing h (relative ++ [name]) node = some entry)
    (hadmitted : Admitted root (relative ++ [name]) node) :
    Lists h root relative (FoundBelow name node) [entry] := by
  have hpath : ∀ path found, FoundBelow name node path found → path = [name] ∧ found = node := by
    rintro _ found ⟨rest, rfl, hfound⟩
    cases rest with
    | nil => exact ⟨rfl, (Option.some.inj hfound).symm⟩
    | cons next rest =>
      rw [hleaf] at hfound
      cases hfound
  constructor
  · intro other
    rw [List.mem_singleton]
    constructor
    · rintro rfl
      exact ⟨[name], node, by simpa using Ne.symm hname, ⟨[], rfl, rfl⟩, hentry⟩
    · rintro ⟨path, found, -, hfound, hother⟩
      obtain ⟨rfl, rfl⟩ := hpath path found hfound
      exact Option.some.inj (hother.symm.trans hentry)
  · intro path found _ hfound
    obtain ⟨rfl, rfl⟩ := hpath path found hfound
    exact hadmitted

theorem visitChildren_lists (hvisit : ∀ c ∈ children, ∀ entries, visit h root (relative ++ [c.1]) c.1 c.2 = .ok entries →
      Lists h root relative (FoundBelow c.1 c.2) entries) (hok : visitChildren h root relative children = .ok entries) :
    Lists h root relative (fun path found => ∃ c ∈ children, FoundBelow c.1 c.2 path found) entries := by
  induction children generalizing entries with
  | nil =>
    cases hok
    constructor
    · simp
    · simp
  | cons c rest ih =>
    rw [visitChildren] at hok
    obtain ⟨_, -, hok⟩ := bind_eq_ok.mp hok
    obtain ⟨first, hfirst, hok⟩ := bind_eq_ok.mp hok
    obtain ⟨others, hothers, hok⟩ := bind_eq_ok.mp hok
    cases hok
    obtain ⟨hhead, htail⟩ := List.forall_mem_cons.mp hvisit
    have hc := hhead first hfirst
    have hrest := ih htail hothers
    constructor
    · intro entry
      rw [List.mem_append, hc.mem, hrest.mem]
      constructor
      · rintro (⟨path, found, hgit, hfound, hentry⟩ | ⟨path, found, hgit, ⟨d, hd, hfound⟩, hentry⟩)
        · exact ⟨path, found, hgit, ⟨c, List.mem_cons_self, hfound⟩, hentry⟩
        · exact ⟨path, found, hgit, ⟨d, List.mem_cons_of_mem _ hd, hfound⟩, hentry⟩
      · rintro ⟨path, found, hgit, ⟨d, hd, hfound⟩, hentry⟩
        rcases List.mem_cons.mp hd with rfl | hd
        · exact .inl ⟨path, found, hgit, hfound, hentry⟩
        · exact .inr ⟨path, found, hgit, ⟨d, hd, hfound⟩, hentry⟩
    · rintro path found hgit ⟨d, hd, hfound⟩
      rcases List.mem_cons.mp hd with rfl | hd
      · exact hc.admitted path found hgit hfound
      · exact hrest.admitted path found hgit ⟨d, hd, hfound⟩

/-- What a directory of a tree with distinct names leads to. -/
theorem foundBelow_directory (hwell : (DependencyNode.directory children).WellFormed) {path : List String}
    {found : DependencyNode} :
    (∃ c ∈ children, FoundBelow c.1 c.2 path found) ↔
      path ≠ [] ∧ (DependencyNode.directory children).find path = some found := by
  constructor
  · rintro ⟨⟨name, next⟩, hc, rest, rfl, hfound⟩
    refine ⟨List.cons_ne_nil _ _, ?_⟩
    rw [DependencyNode.find_cons, hwell.lookup_eq_some.mpr hc]
    exact hfound
  · rintro ⟨hne, hfound⟩
    obtain ⟨name, rest, rfl⟩ := List.exists_cons_of_ne_nil hne
    rw [DependencyNode.find_cons] at hfound
    obtain ⟨next, hnext, hfound⟩ := Option.bind_eq_some_iff.mp hfound
    exact ⟨(name, next), hwell.lookup_eq_some.mp hnext, rest, rfl, hfound⟩

/-- The walk lists what is below an entry. -/
theorem visit_lists (hwell : node.WellFormed) (hok : visit h root (relative ++ [name]) name node = .ok entries) :
    Lists h root relative (FoundBelow name node) entries := by
  induction node using DependencyNode.induct generalizing relative name entries with
  | file content =>
    rw [visit] at hok
    obtain ⟨hname, hok⟩ := ensure_bind_eq_ok.mp hok
    cases hok
    exact .leaf hname (fun _ _ => rfl) rfl trivial
  | symlink target =>
    rw [visit] at hok
    obtain ⟨hname, hok⟩ := ensure_bind_eq_ok.mp hok
    obtain ⟨hchecked, hok⟩ := seq_eq_ok.mp hok
    cases hok
    exact .leaf hname (fun _ _ => rfl) rfl hchecked
  | special =>
    rw [visit] at hok
    obtain ⟨-, hok⟩ := ensure_bind_eq_ok.mp hok
    cases hok
  | directory children ih =>
    rw [visit] at hok
    split at hok
    · next hname =>
      subst hname
      cases hok
      constructor
      · intro entry
        simp [FoundBelow]
      · rintro path found hgit ⟨rest, rfl, -⟩
        exact absurd List.mem_cons_self hgit
    · next hname =>
      obtain ⟨below, hbelow, hok⟩ := bind_eq_ok.mp hok
      cases hok
      have hlists := visitChildren_lists (fun c hc entries hentries => ih c hc (hwell.of_mem hc) hentries) hbelow
      simp only [foundBelow_directory hwell] at hlists
      constructor
      · intro entry
        rw [List.mem_cons, hlists.mem]
        constructor
        · rintro (rfl | ⟨path, found, hgit, ⟨-, hfound⟩, hentry⟩)
          · exact ⟨[name], _, by simpa using Ne.symm hname, ⟨[], rfl, rfl⟩, rfl⟩
          · rw [List.append_assoc] at hentry
            exact ⟨name :: path, found, by simp [Ne.symm hname, hgit], ⟨path, rfl, hfound⟩, hentry⟩
        · rintro ⟨_, found, hgit, ⟨rest, rfl, hfound⟩, hentry⟩
          rcases eq_or_ne rest [] with rfl | hrest
          · cases hfound
            exact .inl (Option.some.inj hentry).symm
          · refine .inr ⟨rest, found, fun hmem => hgit (List.mem_cons_of_mem _ hmem), ⟨hrest, hfound⟩, ?_⟩
            rwa [List.append_assoc]
      · rintro _ found hgit ⟨rest, rfl, hfound⟩
        rcases eq_or_ne rest [] with rfl | hrest
        · cases hfound
          trivial
        · have hadmitted := hlists.admitted rest found (fun hmem => hgit (List.mem_cons_of_mem _ hmem)) ⟨hrest, hfound⟩
          rwa [List.append_assoc] at hadmitted

theorem visit_git (hok : visit h root relative ".git" node = .ok entries) : entries = [] := by
  cases node with
  | directory children =>
    rw [visit, if_pos rfl] at hok
    cases hok
    rfl
  | _ =>
    rw [visit] at hok
    exact absurd rfl (ensure_bind_eq_ok.mp hok).1

theorem visitChildren_withoutGit
    (hvisit : ∀ c ∈ children, ∀ entries, c.1 ≠ ".git" → visit h root (relative ++ [c.1]) c.1 c.2 = .ok entries →
      visit h root' (relative ++ [c.1]) c.1 c.2.withoutGit = .ok entries)
    (hok : visitChildren h root relative children = .ok entries) :
    visitChildren h root' relative (DependencyNode.childrenWithoutGit children) = .ok entries := by
  induction children generalizing entries with
  | nil => exact hok
  | cons c rest ih =>
    obtain ⟨hhead, htail⟩ := List.forall_mem_cons.mp hvisit
    obtain ⟨name, node⟩ := c
    rw [visitChildren] at hok
    obtain ⟨_, hsafe, hok⟩ := bind_eq_ok.mp hok
    obtain ⟨first, hfirst, hok⟩ := bind_eq_ok.mp hok
    obtain ⟨others, hothers, hok⟩ := bind_eq_ok.mp hok
    cases hok
    rw [DependencyNode.childrenWithoutGit]
    split
    · next hgit =>
      subst hgit
      rw [visit_git hfirst]
      exact ih htail hothers
    · next hgit =>
      rw [visitChildren, hsafe, ok_bind, hhead first hgit hfirst, ok_bind, ih htail hothers]
      rfl

/-- The walk lists the same entries without the metadata directories. -/
theorem visit_withoutGit (hchecks : ∀ path target, checkSymlink root path target = .ok () →
    checkSymlink root' path target = .ok ())
    (hname : name ≠ ".git") (hok : visit h root relative name node = .ok entries) :
    visit h root' relative name node.withoutGit = .ok entries := by
  induction node using DependencyNode.induct generalizing relative name entries with
  | symlink target =>
    change visit h root' relative name (.symlink target) = .ok entries
    rw [visit] at hok ⊢
    obtain ⟨_, hok⟩ := ensure_bind_eq_ok.mp hok
    obtain ⟨hchecked, hok⟩ := seq_eq_ok.mp hok
    exact ensure_bind_eq_ok.mpr ⟨hname, seq_eq_ok.mpr ⟨hchecks _ _ hchecked, hok⟩⟩
  | directory children ih =>
    rw [visit, if_neg hname] at hok
    obtain ⟨below, hbelow, hok⟩ := bind_eq_ok.mp hok
    have hchildren := visitChildren_withoutGit (fun c hc entries hgit hentries => ih c hc hgit hentries) hbelow
    rw [DependencyNode.withoutGit, visit, if_neg hname, hchildren]
    exact hok
  | file content => exact hok
  | special => exact hok

/-! Links -/

theorem isSymlink_withoutGit (found : Option DependencyNode) :
    DependencyNode.isSymlink (found.map DependencyNode.withoutGit) = DependencyNode.isSymlink found := by
  rcases found with _ | _ | _ | _ | _ <;> rfl

theorem isFile_withoutGit (found : Option DependencyNode) :
    DependencyNode.isFile (found.map DependencyNode.withoutGit) = DependencyNode.isFile found := by
  rcases found with _ | _ | _ | _ | _ <;> rfl

/-- What a link that was let through has: a spelling without metadata directories, no link on
the way and a file at the end. -/
theorem checkSymlink_eq_ok {target : String} : checkSymlink root relative target = .ok () ↔ ¬ IsGenerated relative ∧
    ∃ normalized, normalizeDependencySymlink relative.dropLast target = .ok normalized ∧
      (∀ above ∈ normalized.dropLast.inits.drop 1, ¬ DependencyNode.isSymlink (root.find above)) ∧
      DependencyNode.isFile (root.find normalized) := by
  unfold checkSymlink require
  rw [ensure_bind_eq_ok, bind_eq_ok]
  refine and_congr_right fun _ => exists_congr fun normalized => and_congr_right fun _ => ?_
  rw [seq_eq_ok, forM_eq_ok, ensure_eq_ok]
  simp only [ensure_eq_ok]

theorem normalize_not_git {parent normalized : List String} {target : String}
    (h : normalizeDependencySymlink parent target = .ok normalized) : ".git" ∉ normalized := by
  unfold normalizeDependencySymlink at h
  obtain ⟨-, h⟩ := ensure_bind_eq_ok.mp h
  obtain ⟨parts, -, h⟩ := bind_eq_ok.mp h
  obtain ⟨-, h⟩ := ensure_bind_eq_ok.mp h
  obtain ⟨hgit, h⟩ := ensure_bind_eq_ok.mp h
  cases h
  intro hmem
  exact hgit ".git" (List.mem_reverse.mp hmem) (by decide +kernel)

theorem checkSymlink_withoutGit {target : String} (hok : checkSymlink root relative target = .ok ()) :
    checkSymlink root.withoutGit relative target = .ok () := by
  obtain ⟨hgenerated, normalized, hnormalized, habove, hfile⟩ := checkSymlink_eq_ok.mp hok
  have hgit := normalize_not_git hnormalized
  refine checkSymlink_eq_ok.mpr ⟨hgenerated, normalized, hnormalized, fun above hmem => ?_, ?_⟩
  · have hsub : above ⊆ normalized := by
      have hfront := (List.mem_inits _ _).mp (List.mem_of_mem_drop hmem)
      exact fun _ hname => List.dropLast_subset _ (hfront.subset hname)
    rw [DependencyNode.find_withoutGit, if_neg fun h => hgit (hsub h), isSymlink_withoutGit]
    exact habove above hmem
  · rw [DependencyNode.find_withoutGit, if_neg hgit, isFile_withoutGit]
    exact hfile

end Autolean.Library
