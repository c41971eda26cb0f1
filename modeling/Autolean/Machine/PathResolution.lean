import Mathlib.Data.List.Basic
import Mathlib.Tactic

/-! Resolution of a path by an operating system, component by component and through the links
on the way. It ends where the components lead by their spelling as long as every place that
is left is a directory. -/
namespace Autolean.Machine.PathResolution

inductive PathEntry where
  | file
  | directory
  | link (fromRoot : Bool) (target : List String)
  deriving DecidableEq

/-- The place a component leads to by its spelling. -/
def descend (here : List String) (component : String) : List String :=
  if component = "" ∨ component = "." then here
  else if component = ".." then here.dropLast
  else here ++ [component]

/-- The place the components lead to by their spelling. -/
def spelled (here components : List String) : List String := components.foldl descend here

/-- Every place that the components leave is a directory. -/
def Traversable (directory : List String → Prop) : List String → List String → Prop
  | _, [] => True
  | here, component :: rest => directory here ∧ Traversable directory (descend here component) rest

section Resolution
variable (entry : List String → Option PathEntry)

/-- The walk along the components; `follow` goes on behind a link. -/
def walk (follow : List String → List String → Option (List String)) : List String → List String → Option (List String)
  | here, [] => some here
  | here, component :: rest =>
    if entry here = some .directory then
      match entry (descend here component) with
      | none => none
      | some (.link fromRoot target) => follow (if fromRoot then [] else here) (target ++ rest)
      | some _ => walk follow (descend here component) rest
    else none

/-- The resolution that follows no more than the given number of links. -/
def resolve : Nat → List String → List String → Option (List String)
  | 0 => walk entry fun _ _ => none
  | links + 1 => walk entry (resolve links)

end Resolution

variable {entry : List String → Option PathEntry} {follow : List String → List String → Option (List String)}

/-- Something other than a link stands at the place. -/
def IsPlain (place : Option PathEntry) : Prop := place = some .file ∨ place = some .directory

theorem Traversable.imp {directory directory' : List String → Prop} (keeps : List String → Prop)
    {here components : List String} (hdirectory : ∀ place, keeps place → directory place → directory' place)
    (hkeeps : ∀ place, ∀ component ∈ components, keeps place → keeps (descend place component))
    (hhere : keeps here) (h : Traversable directory here components) : Traversable directory' here components := by
  induction components generalizing here with
  | nil => trivial
  | cons component rest ih =>
    refine ⟨hdirectory here hhere h.1, ih (fun place c hc => hkeeps place c (List.mem_cons_of_mem _ hc)) ?_ h.2⟩
    exact hkeeps here component List.mem_cons_self hhere

/-- Where only directories are left, the walk goes by the spelling. -/
theorem walk_spelled {here components : List String} (h : Traversable (entry · = some .directory) here components)
    (hend : IsPlain (entry (spelled here components))) (rest : List String) :
    walk entry follow here (components ++ rest) = walk entry follow (spelled here components) rest := by
  induction components generalizing here with
  | nil => rfl
  | cons component others ih =>
    have hplace : IsPlain (entry (descend here component)) := by
      cases others with
      | nil => exact hend
      | cons => exact .inr h.2.1
    rw [List.cons_append, walk, if_pos h.1]
    rcases hplace with hplace | hplace
    · rw [hplace]
      exact ih h.2 hend
    · rw [hplace]
      exact ih h.2 hend

theorem walk_file {here rest : List String} (h : entry here = some .file) (hrest : rest ≠ []) :
    walk entry follow here rest = none := by
  cases rest with
  | nil => exact absurd rfl hrest
  | cons component rest =>
    rw [walk, if_neg]
    rw [h]
    decide

theorem resolve_spelled {here components : List String} (h : Traversable (entry · = some .directory) here components)
    (hend : IsPlain (entry (spelled here components))) (links : Nat) (rest : List String) :
    resolve entry links here (components ++ rest) = resolve entry links (spelled here components) rest := by
  cases links with
  | zero => exact walk_spelled h hend rest
  | succ links => exact walk_spelled h hend rest

theorem resolve_file {here rest : List String} (h : entry here = some .file) (hrest : rest ≠ []) (links : Nat) :
    resolve entry links here rest = none := by
  cases links with
  | zero => exact walk_file h hrest
  | succ links => exact walk_file h hrest

theorem resolve_nil (links : Nat) (here : List String) : resolve entry links here [] = some here := by
  cases links <;> rfl

theorem resolve_link {here rest target : List String} {component : String} {fromRoot : Bool}
    (hhere : entry here = some .directory)
    (hlink : entry (descend here component) = some (.link fromRoot target)) (links : Nat) :
    resolve entry (links + 1) here (component :: rest) =
      resolve entry links (if fromRoot then [] else here) (target ++ rest) := by
  rw [resolve, walk, if_pos hhere, hlink]

theorem resolve_missing {here rest : List String} {component : String}
    (hplace : entry (descend here component) = none) (links : Nat) :
    resolve entry links here (component :: rest) = none := by
  cases links <;> rw [resolve, walk, hplace, ite_self]

theorem resolve_plain {here rest : List String} {component : String} (hhere : entry here = some .directory)
    (hplace : IsPlain (entry (descend here component))) (links : Nat) :
    resolve entry links here (component :: rest) = resolve entry links (descend here component) rest := by
  have hone : Traversable (entry · = some .directory) here [component] := ⟨hhere, trivial⟩
  exact resolve_spelled hone hplace links rest

/-- Every link is relative, and its target's spelling leads to a file. -/
def LinksSpellFiles (entry : List String → Option PathEntry) : Prop :=
  ∀ here component fromRoot target, entry here = some .directory → entry (descend here component) = some (.link fromRoot target) →
    fromRoot = false ∧ entry (spelled here target) = some .file

/-- Where the spelling leads to a file, a resolution that ends leaves only directories: behind a link
there is nothing but the file at its target, and no place further. -/
theorem traversable_of_walk (hlinks : LinksSpellFiles entry)
    (hfollow : ∀ here target rest place, entry (spelled here target) = some .file → follow here (target ++ rest) = some place →
      rest = []) {here components rest place : List String} (hend : entry (spelled here components) = some .file)
    (h : walk entry follow here (components ++ rest) = some place) :
    Traversable (entry · = some .directory) here components ∧ rest = [] := by
  induction components generalizing here with
  | nil =>
    refine ⟨trivial, ?_⟩
    by_contra hrest
    have hfile : entry here = some .file := hend
    rw [List.nil_append, walk_file hfile hrest] at h
    cases h
  | cons component others ih =>
    rw [List.cons_append, walk] at h
    split at h
    · next hhere =>
      split at h
      · cases h
      · next fromRoot target hplace =>
        obtain ⟨rfl, htarget⟩ := hlinks here component fromRoot target hhere hplace
        have hothers := hfollow here target (others ++ rest) place htarget h
        obtain ⟨rfl, -⟩ := List.append_eq_nil_iff.mp hothers
        rw [spelled, List.foldl_cons, List.foldl_nil, hplace] at hend
        cases hend
      · obtain ⟨htraversable, hrest⟩ := ih hend h
        exact ⟨⟨hhere, htraversable⟩, hrest⟩
    · cases h

theorem traversable_of_resolve (hlinks : LinksSpellFiles entry) (links : Nat) {here components rest place : List String}
    (hend : entry (spelled here components) = some .file) (h : resolve entry links here (components ++ rest) = some place) :
    Traversable (entry · = some .directory) here components ∧ rest = [] := by
  induction links generalizing here components rest place with
  | zero =>
    apply traversable_of_walk hlinks _ hend h
    intro _ _ _ _ _ hfollow
    cases hfollow
  | succ links ih =>
    apply traversable_of_walk hlinks _ hend h
    intro here target rest place htarget hfollow
    exact (ih htarget hfollow).2

/-! Places below a place -/

/-- The components never go above the place they start from. -/
def Stays : List String → List String → Prop
  | _, [] => True
  | here, component :: rest => (component = ".." → here ≠ []) ∧ Stays (descend here component) rest

theorem descend_append {here : List String} {component : String} (base : List String) (h : component = ".." → here ≠ []) :
    descend (base ++ here) component = base ++ descend here component := by
  unfold descend
  split_ifs with _ hup
  · rfl
  · exact List.dropLast_append_of_ne_nil (h hup)
  · exact List.append_assoc ..

theorem spelled_append {here components : List String} (base : List String) (h : Stays here components) :
    spelled (base ++ here) components = base ++ spelled here components := by
  induction components generalizing here with
  | nil => rfl
  | cons component rest ih =>
    rw [spelled, List.foldl_cons, descend_append base h.1]
    exact ih h.2

theorem traversable_append {directory : List String → Prop} {here components : List String} (base : List String)
    (h : Stays here components) :
    Traversable directory (base ++ here) components ↔ Traversable (fun place => directory (base ++ place)) here components := by
  induction components generalizing here with
  | nil => rfl
  | cons component rest ih =>
    rw [Traversable, Traversable, descend_append base h.1, ih h.2]

/-- A component that is a name. -/
def IsName (component : String) : Prop := component ≠ "" ∧ component ≠ "." ∧ component ≠ ".."

theorem descend_name {component : String} (h : IsName component) (here : List String) :
    descend here component = here ++ [component] := by
  rw [descend, if_neg (not_or.mpr ⟨h.1, h.2.1⟩), if_neg h.2.2]

theorem spelled_names {names : List String} (h : ∀ name ∈ names, IsName name) (here : List String) :
    spelled here names = here ++ names := by
  induction names generalizing here with
  | nil => exact (List.append_nil here).symm
  | cons name rest ih =>
    obtain ⟨hname, hrest⟩ := List.forall_mem_cons.mp h
    rw [spelled, List.foldl_cons, descend_name hname]
    exact (ih hrest _).trans (List.append_assoc ..)

theorem stays_names {names : List String} (h : ∀ name ∈ names, IsName name) (here : List String) : Stays here names := by
  induction names generalizing here with
  | nil => trivial
  | cons name rest ih =>
    obtain ⟨hname, hrest⟩ := List.forall_mem_cons.mp h
    exact ⟨fun hup => absurd hup hname.2.2, ih hrest _⟩

end Autolean.Machine.PathResolution
