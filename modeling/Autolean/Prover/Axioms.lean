import Autolean.Machine.Raising
import Autolean.Text.JsonValues
import Autolean.Text.Lines
import Autolean.Text.Trimming
import Mathlib.Data.List.Dedup
import Mathlib.Data.List.Sort

/-! The axiom names of a Lean run: how the OCI runner takes them from the wrapper's JSON,
how it prints them, and how the trusted verifier reads a printed list. -/
namespace Autolean.Prover
open Machine Machine.Raising Text

/-! Printing -/

namespace OciLeanRunner

inductive AxiomsError where
  | axiomsShape
  | axiomsInvalid
  deriving DecidableEq

/-- The text of a JSON string. -/
def asText {F : Type} : JsonValue F → Option PyText
  | .str s => some s
  | _ => none

/-- A name `_parse_axioms` admits. -/
def Admitted (name : PyText) : Prop :=
  name ≠ [] ∧ name = name.strip ∧ (0 : CodePoint) ∉ name ∧ CodePoint.ofChar '\n' ∉ name ∧ CodePoint.ofChar '\r' ∉ name

instance (name : PyText) : Decidable (Admitted name) := inferInstanceAs (Decidable (_ ∧ _))

/-- `OciLeanRunner._parse_axioms`. -/
def parseAxioms {F : Type} : JsonValue F → Except AxiomsError (List PyText)
  | .list items =>
    match items.mapM asText with
    | some axioms => do
      ensure (axioms.Nodup ∧ ∀ name ∈ axioms, Admitted name) .axiomsInvalid
      pure (axioms.insertionSort (· ≤ ·))
    | none => .error .axiomsShape
  | _ => .error .axiomsShape

/-- `_axiom_stdout`. -/
def axiomStdout (axioms : List PyText) : PyText :=
  PyText.of "axioms: [" ++ List.intercalate (PyText.of ", ") axioms ++ PyText.of "]\n"

end OciLeanRunner

/-! Reading -/

namespace TrustedLeanVerifier

/-- The characters of `axioms:` as the pattern matches them without regard to case. -/
def axiomsLabel : List String := ["aA", "xX", "iI\u0130\u0131", "oO", "mM", "sS\u017f", ":"]

def matchLabel : List String → PyText → Option PyText
  | [], text => some text
  | characters :: rest, c :: text => if oneOf characters c then matchLabel rest text else none
  | _ :: _, [] => none

/-- `axioms:\s*\[(?P<items>[^\]]*)\]` at the start of a text: the items and what follows. -/
def matchAxioms (text : PyText) : Option (PyText × PyText) :=
  match matchLabel axiomsLabel text with
  | none => none
  | some afterLabel =>
    match afterLabel.dropWhile CodePoint.isSpace with
    | [] => none
    | c :: rest =>
      if c = .ofChar '[' then
        match rest.dropWhile (· ≠ .ofChar ']') with
        | [] => none
        | _ :: after => some (rest.takeWhile (· ≠ .ofChar ']'), after)
      else none

/-- The items of the matches of `_AXIOMS_RE.finditer`; a text has at most as many as characters. -/
def findItems : Nat → PyText → List PyText
  | 0, _ => []
  | _ + 1, [] => []
  | fuel + 1, c :: rest =>
    match matchAxioms (c :: rest) with
    | some (items, after) => items :: findItems fuel after
    | none => findItems fuel rest

def isQuote (c : CodePoint) : Bool := oneOf "'\"" c

/-- `item.strip().strip("'\"")`. -/
def cleanItem (item : PyText) : PyText := trim isQuote item.strip

/-- `TrustedLeanVerifier._parse_axioms`. -/
def parseAxioms (stdout : PyText) : Option (List PyText) :=
  match (findItems stdout.length stdout).getLast? with
  | none => none
  | some items =>
    if items.strip = [] then some []
    else
      let names := (items.strip.splitOn (.ofChar ',')).map cleanItem
      if [] ∈ names then none else some (names.dedup.insertionSort (· ≤ ·))

end TrustedLeanVerifier

open OciLeanRunner TrustedLeanVerifier

/-- A name that is read as it was printed. -/
def PrintsItself (name : PyText) : Prop :=
  CodePoint.ofChar ',' ∉ name ∧ CodePoint.ofChar ']' ∉ name ∧ Trimmed isQuote name

/-! What is read -/

theorem matchAxioms_items {text items after : PyText} (h : matchAxioms text = some (items, after)) :
    CodePoint.ofChar ']' ∉ items := by
  unfold matchAxioms at h
  split at h
  · cases h
  · split at h
    · cases h
    · split_ifs at h with hopen
      split at h
      · cases h
      · cases h
        intro hmem
        simpa using List.mem_takeWhile_imp hmem

theorem mem_findItems {fuel : Nat} {text items : PyText} (h : items ∈ findItems fuel text) : CodePoint.ofChar ']' ∉ items := by
  induction fuel generalizing text with
  | zero => cases h
  | succ fuel ih =>
    cases text with
    | nil => cases h
    | cons c rest =>
      rw [findItems] at h
      cases hmatch : matchAxioms (c :: rest) with
      | none =>
        rw [hmatch] at h
        exact ih h
      | some found =>
        rw [hmatch] at h
        rcases List.mem_cons.mp h with rfl | h
        · exact matchAxioms_items hmatch
        · exact ih h

theorem cleanItem_sublist (item : PyText) : (cleanItem item).Sublist item :=
  (trim_sublist isQuote item.strip).trans (trim_sublist CodePoint.isSpace item)

/-- Every name that is read prints itself. -/
theorem printsItself_of_read {stdout : PyText} {names : List PyText} (h : TrustedLeanVerifier.parseAxioms stdout = some names)
    {name : PyText} (hname : name ∈ names) : PrintsItself name := by
  unfold TrustedLeanVerifier.parseAxioms at h
  split at h
  · cases h
  · rename_i items hlast
    have hitems : CodePoint.ofChar ']' ∉ items.strip := fun hmem =>
      mem_findItems (List.mem_of_getLast? hlast) ((trim_sublist _ items).subset hmem)
    split_ifs at h with hblank
    · cases h
      cases hname
    · dsimp only at h
      split_ifs at h
      cases h
      have hmem := List.mem_dedup.mp ((List.mem_insertionSort _).mp hname)
      obtain ⟨item, hitem, rfl⟩ := List.mem_map.mp hmem
      have hcomma := not_mem_of_mem_splitOn hitem
      have hsub : item.Sublist items.strip := sublist_of_mem_splitOn hitem
      refine ⟨fun hc => hcomma ((cleanItem_sublist item).subset hc), fun hb => ?_, trimmed_trim _ _⟩
      exact hitems (hsub.subset ((cleanItem_sublist item).subset hb))

/-! What is printed -/

theorem cleanItem_eq {name : PyText} (hname : Admitted name) (hprints : PrintsItself name) : cleanItem name = name := by
  rw [cleanItem, ← hname.2.1]
  exact hprints.2.2.trim_eq

/-- The names after the first one, each with the blank before it. -/
theorem joined_eq (first : PyText) (rest : List PyText) : List.intercalate (PyText.of ", ") (first :: rest) =
    List.intercalate [.ofChar ','] (first :: rest.map (.ofChar ' ' :: ·)) := by
  have hseparator : PyText.of ", " = [.ofChar ',', .ofChar ' '] := by decide
  induction rest generalizing first with
  | nil => rfl
  | cons second rest ih =>
    rw [List.map_cons, List.intercalate_cons_cons, List.intercalate_cons_cons, ih, hseparator]
    cases rest <;> simp [List.intercalate_cons_cons]

theorem joined_trimmed {names : List PyText} (h : ∀ name ∈ names, Admitted name) (hne : names ≠ []) :
    List.intercalate (PyText.of ", ") names ≠ [] ∧ Trimmed CodePoint.isSpace (List.intercalate (PyText.of ", ") names) := by
  have htrimmed : ∀ name ∈ names, name ≠ [] ∧ Trimmed CodePoint.isSpace name := fun name hname =>
    ⟨(h name hname).1, trim_eq_self.mp (h name hname).2.1.symm⟩
  induction names with
  | nil => exact absurd rfl hne
  | cons first rest ih =>
    obtain ⟨⟨hfirst, hhead, hlast⟩, hrest⟩ := List.forall_mem_cons.mp htrimmed
    cases rest with
    | nil =>
      rw [List.intercalate_singleton]
      exact ⟨hfirst, hhead, hlast⟩
    | cons second rest =>
      obtain ⟨hjoined, -, hend⟩ := ih (fun name hname => h name (List.mem_cons_of_mem first hname)) (by simp) hrest
      rw [List.intercalate_cons_cons]
      refine ⟨by simp [hfirst], fun c hc => hhead c ?_, fun c hc => hend c ?_⟩
      · cases first with
        | nil => exact absurd rfl hfirst
        | cons d ds => simpa using hc
      · rwa [List.getLast?_append_of_ne_nil _ hjoined] at hc

theorem matchAxioms_stdout {items : PyText} (h : CodePoint.ofChar ']' ∉ items) :
    matchAxioms (PyText.of "axioms: [" ++ items ++ PyText.of "]\n") = some (items, [.ofChar '\n']) := by
  have hlabel : ∀ rest, matchLabel axiomsLabel (PyText.of "axioms: [" ++ rest) = some (.ofChar ' ' :: .ofChar '[' :: rest) :=
    fun rest => rfl
  have hopen : ∀ rest, (CodePoint.ofChar ' ' :: .ofChar '[' :: rest).dropWhile CodePoint.isSpace = .ofChar '[' :: rest := by
    intro rest
    rw [List.dropWhile_cons_of_pos (by decide), List.dropWhile_cons_of_neg (by decide)]
  have hclose : PyText.of "]\n" = [.ofChar ']', .ofChar '\n'] := by decide
  have hitems : ∀ c ∈ items, decide (c ≠ CodePoint.ofChar ']') = true := by
    intro c hc
    exact decide_eq_true fun e => h (e ▸ hc)
  rw [matchAxioms, List.append_assoc, hlabel]
  dsimp only
  rw [hopen]
  dsimp only
  rw [if_pos rfl, hclose, List.dropWhile_append_of_pos hitems, List.takeWhile_append_of_pos hitems]
  simp

theorem findItems_stdout {items : PyText} (h : CodePoint.ofChar ']' ∉ items) :
    findItems (PyText.of "axioms: [" ++ items ++ PyText.of "]\n").length (PyText.of "axioms: [" ++ items ++ PyText.of "]\n") =
      [items] := by
  have hmatch := matchAxioms_stdout h
  obtain ⟨c, rest, hcons⟩ : ∃ c rest, PyText.of "axioms: [" ++ items ++ PyText.of "]\n" = c :: rest := ⟨_, _, rfl⟩
  have hend : ∀ fuel, findItems fuel [.ofChar '\n'] = [] := by
    intro fuel
    rcases fuel with _ | _ | fuel <;> rfl
  rw [hcons] at hmatch ⊢
  rw [List.length_cons, findItems, hmatch]
  dsimp only
  rw [hend]

theorem parseAxioms_ok {F : Type} {value : JsonValue F} {axioms : List PyText}
    (h : OciLeanRunner.parseAxioms value = .ok axioms) :
    axioms.Nodup ∧ axioms.Pairwise (· ≤ ·) ∧ ∀ name ∈ axioms, Admitted name := by
  unfold OciLeanRunner.parseAxioms at h
  split at h
  · split at h
    · rename_i names _
      obtain ⟨⟨hnodup, hadmitted⟩, hsorted⟩ := seq_eq_ok.mp h |>.imp_left ensure_eq_ok.mp
      cases hsorted
      have hperm := List.perm_insertionSort (· ≤ ·) names
      exact ⟨hperm.nodup_iff.mpr hnodup, List.pairwise_insertionSort _ names, fun name hname =>
        hadmitted name (hperm.mem_iff.mp hname)⟩
    · cases h
  · cases h

/-- The items of a printed list, cleaned, are its names. -/
theorem items_read {first : PyText} {rest : List PyText} (h : ∀ name ∈ first :: rest, Admitted name ∧ PrintsItself name) :
    ((List.intercalate (PyText.of ", ") (first :: rest)).splitOn (.ofChar ',')).map cleanItem = first :: rest := by
  obtain ⟨⟨hfirst, hfirstPrints⟩, hrest⟩ := List.forall_mem_cons.mp h
  have hcomma : ∀ item ∈ first :: rest.map (.ofChar ' ' :: ·), CodePoint.ofChar ',' ∉ item := by
    refine List.forall_mem_cons.mpr ⟨hfirstPrints.1, List.forall_mem_map.mpr fun name hname hmem => ?_⟩
    rcases List.mem_cons.mp hmem with hblank | hmem
    · exact absurd hblank (by decide)
    · exact (hrest name hname).2.1 hmem
  have hclean : ∀ name ∈ rest, cleanItem (.ofChar ' ' :: name) = name := by
    intro name hname
    rw [cleanItem, PyText.strip, trim_cons (by decide)]
    exact cleanItem_eq (hrest name hname).1 (hrest name hname).2
  rw [joined_eq, List.splitOn_intercalate _ hcomma (by simp), List.map_cons, cleanItem_eq hfirst hfirstPrints, List.map_map]
  exact congrArg (first :: ·) ((List.map_congr_left hclean).trans (List.map_id rest))

/-- The verifier reads the axioms that the runner observed exactly when each of their names prints itself. -/
theorem axioms_read_back_iff {F : Type} {value : JsonValue F} {axioms : List PyText}
    (h : OciLeanRunner.parseAxioms value = .ok axioms) :
    TrustedLeanVerifier.parseAxioms (axiomStdout axioms) = some axioms ↔ ∀ name ∈ axioms, PrintsItself name := by
  obtain ⟨hnodup, hsorted, hadmitted⟩ := parseAxioms_ok h
  refine ⟨fun hread name hname => printsItself_of_read hread hname, fun hprints => ?_⟩
  have hbracket : CodePoint.ofChar ']' ∉ List.intercalate (PyText.of ", ") axioms := by
    intro hmem
    rcases mem_of_mem_intercalate hmem with hseparator | ⟨name, hname, hc⟩
    · exact absurd hseparator (by decide)
    · exact (hprints name hname).2.1 hc
  have hlast := congrArg List.getLast? (findItems_stdout hbracket)
  unfold TrustedLeanVerifier.parseAxioms axiomStdout
  rw [hlast]
  cases axioms with
  | nil => rfl
  | cons first rest =>
    obtain ⟨hne, htrimmed⟩ := joined_trimmed hadmitted (by simp)
    have hstrip : PyText.strip (List.intercalate (PyText.of ", ") (first :: rest)) =
        List.intercalate (PyText.of ", ") (first :: rest) := htrimmed.trim_eq
    have hitems : ((List.intercalate (PyText.of ", ") (first :: rest)).splitOn (.ofChar ',')).map cleanItem = first :: rest := by
      exact items_read (fun name hname => ⟨hadmitted name hname, hprints name hname⟩)
    simp only [List.getLast?_singleton]
    rw [if_neg (by rwa [hstrip]), hstrip, hitems, if_neg, hnodup.dedup, List.Pairwise.insertionSort_eq hsorted]
    exact fun hmem => (hadmitted [] hmem).1 rfl

/-- The names Lean's own axioms have. -/
def standardAxioms : JsonValue Unit := .list [.text "propext", .text "Classical.choice", .text "Quot.sound"]

theorem axioms_read_back_iff_standard : ∃ axioms, OciLeanRunner.parseAxioms standardAxioms = .ok axioms ∧
    (TrustedLeanVerifier.parseAxioms (axiomStdout axioms) = some axioms ↔ ∀ name ∈ axioms, PrintsItself name) := by
  have hparsed : OciLeanRunner.parseAxioms standardAxioms =
      .ok [PyText.of "Classical.choice", PyText.of "Quot.sound", PyText.of "propext"] := by decide +kernel
  exact ⟨_, hparsed, axioms_read_back_iff hparsed⟩

/-- An axiom whose name ends with a prime is read as the axiom without it. -/
theorem primed_axiom_renamed : ¬ ∀ (value : JsonValue Unit) (axioms : List PyText),
    OciLeanRunner.parseAxioms value = .ok axioms → TrustedLeanVerifier.parseAxioms (axiomStdout axioms) = some axioms := by
  intro h
  have hread := h (.list [.text "propext'"]) [PyText.of "propext'"] (by decide +kernel)
  have hrenamed : TrustedLeanVerifier.parseAxioms (axiomStdout [PyText.of "propext'"]) = some [PyText.of "propext"] := by
    decide +kernel
  rw [hrenamed] at hread
  exact absurd hread (by decide +kernel)

end Autolean.Prover
