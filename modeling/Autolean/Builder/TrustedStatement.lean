import Autolean.Builder.BoundaryPins
import Autolean.Text.Lines

/-! The header rendered for a contract: import lines that hold no line feed stay one line
each, and then no two contracts share a header. -/
namespace Autolean.Builder
open Contracts Machine Machine.Raising Text

/-- The lines a header shall have before its namespace line. -/
def importLines (formal : FormalSpecification) : List String :=
  let imports := formal.importsAllowlist.map fun item => "import " ++ item
  if imports = [] then imports else imports ++ [""]

/-- The header's first lines are one import line for each entry, and the namespace line follows. -/
def Framed (formal : FormalSpecification) (text : String) : Prop :=
  ∃ rest, linesOf text = (importLines formal ++ ["namespace " ++ formal.namespaceName.value]).map String.toList ++ rest

/-- The headers say the same, up to white space after the statement. -/
structure SameHeader (a b : FormalSpecification) : Prop where
  imports : a.importsAllowlist = b.importsAllowlist
  namespaceName : a.namespaceName.value = b.namespaceName.value
  statement : rstrip a.leanStatementSource.value = rstrip b.leanStatementSource.value

theorem oneLine_append {s t : String} : OneLine (s ++ t) ↔ OneLine s ∧ OneLine t := by
  rw [OneLine, String.toList_append, List.mem_append, not_or]
  rfl

theorem mem_importLines {formal : FormalSpecification} {item : String} (h : item ∈ formal.importsAllowlist) :
    "import " ++ item ∈ importLines formal := by
  have hmem := List.mem_map_of_mem (f := fun item => "import " ++ item) h
  rw [importLines]
  split_ifs
  · exact hmem
  · exact List.mem_append_left _ hmem

theorem importLines_oneLine {formal : FormalSpecification} (h : ∀ item ∈ formal.importsAllowlist, OneLine item) :
    ∀ line ∈ importLines formal, OneLine line := by
  have himports : ∀ line ∈ formal.importsAllowlist.map (fun item => "import " ++ item), OneLine line :=
    List.forall_mem_map.mpr fun item hitem => oneLine_append.mpr ⟨by decide, h item hitem⟩
  rw [importLines]
  split_ifs
  · exact himports
  · exact List.forall_mem_append.mpr ⟨himports, List.forall_mem_singleton.mpr (by decide)⟩

theorem namespace_oneLine {name : String} (h : isNamespace true name.toList = true) : OneLine ("namespace " ++ name) := by
  refine oneLine_append.mpr ⟨by decide, fun hmem => ?_⟩
  rcases isNamespace_parts h '\n' hmem with h | h
  · exact absurd h (by decide)
  · exact absurd h (by decide)

theorem trustedLines_eq (formal : FormalSpecification) : trustedLines formal =
    (importLines formal ++ ["namespace " ++ formal.namespaceName.value]) ++ ["", rstrip formal.leanStatementSource.value] := by
  rw [trustedLines, importLines, List.append_assoc]
  rfl

/-- The lines of a header whose entries hold no line feed. -/
theorem linesOf_rendered {contract : StatementContract} {text : String} (h : renderTrustedStatement contract = .ok text)
    (hitems : ∀ item ∈ contract.formal.importsAllowlist, OneLine item) :
    linesOf text = (importLines contract.formal ++ ["namespace " ++ contract.formal.namespaceName.value]).map String.toList ++
      [] :: linesOf (rstrip contract.formal.leanStatementSource.value) := by
  obtain ⟨hnamespace, -, rfl⟩ := renderTrustedStatement_ok h
  have hlines : ∀ line ∈ importLines contract.formal ++ ["namespace " ++ contract.formal.namespaceName.value], OneLine line :=
    List.forall_mem_append.mpr ⟨importLines_oneLine hitems, List.forall_mem_singleton.mpr (namespace_oneLine hnamespace)⟩
  rw [trustedLines_eq, linesOf_intercalate hlines (by simp), linesOf_intercalate_cons (by decide) (by simp),
    String.intercalate_singleton]
  rfl

/-- A header is framed just when no entry of the allowlist holds a line feed. -/
theorem framed_iff {contract : StatementContract} {text : String} (h : renderTrustedStatement contract = .ok text) :
    Framed contract.formal text ↔ ∀ item ∈ contract.formal.importsAllowlist, OneLine item := by
  constructor
  · rintro ⟨rest, hrest⟩ item hitem
    have hmem : ("import " ++ item).toList ∈ linesOf text := by
      rw [hrest]
      exact List.mem_append_left _ (List.mem_map_of_mem (List.mem_append_left _ (mem_importLines hitem)))
    exact (oneLine_append.mp (not_mem_of_mem_splitOn hmem)).2
  · intro hitems
    exact ⟨_, linesOf_rendered h hitems⟩

/-! The header determines what was rendered -/

def isImportLine (line : List Char) : Bool := "import ".toList.isPrefixOf line

theorem isImportLine_import (item : String) : isImportLine ("import " ++ item).toList = true := by
  rw [isImportLine, String.toList_append, List.isPrefixOf_iff_prefix]
  exact List.prefix_append _ _

theorem isImportLine_namespace (name : String) : isImportLine ("namespace " ++ name).toList = false := by
  rw [isImportLine, String.toList_append]
  rfl

/-- The import lines are where the header stops importing. -/
theorem takeWhile_isImportLine (formal : FormalSpecification) (rest : List (List Char)) :
    ((importLines formal ++ ["namespace " ++ formal.namespaceName.value]).map String.toList ++ rest).takeWhile isImportLine =
      formal.importsAllowlist.map fun item => ("import " ++ item).toList := by
  have himports : ∀ line ∈ formal.importsAllowlist.map (fun item => ("import " ++ item).toList), isImportLine line = true :=
    List.forall_mem_map.mpr fun item _ => isImportLine_import item
  have hsplit : ∃ line others, isImportLine line = false ∧
      (importLines formal ++ ["namespace " ++ formal.namespaceName.value]).map String.toList ++ rest =
        (formal.importsAllowlist.map fun item => ("import " ++ item).toList) ++ line :: others := by
    rw [importLines]
    split_ifs
    · refine ⟨_, rest, isImportLine_namespace formal.namespaceName.value, ?_⟩
      simp
    · refine ⟨[], ("namespace " ++ formal.namespaceName.value).toList :: rest, rfl, ?_⟩
      simp
  obtain ⟨line, others, hline, hall⟩ := hsplit
  rw [hall, List.takeWhile_append_of_pos himports, List.takeWhile_cons_of_neg (by rw [hline]; exact Bool.false_ne_true),
    List.append_nil]

theorem importLine_injective : Function.Injective fun item : String => ("import " ++ item).toList := by
  intro a b h
  simp only [String.toList_append] at h
  exact String.toList_injective (List.append_cancel_left h)

theorem sameHeader_of_rendered {a b : StatementContract} {text : String} (ha : renderTrustedStatement a = .ok text)
    (hb : renderTrustedStatement b = .ok text) (haone : ∀ item ∈ a.formal.importsAllowlist, OneLine item)
    (hbone : ∀ item ∈ b.formal.importsAllowlist, OneLine item) : SameHeader a.formal b.formal := by
  have hlines := (linesOf_rendered ha haone).symm.trans (linesOf_rendered hb hbone)
  have himports : a.formal.importsAllowlist = b.formal.importsAllowlist := by
    have htaken := congrArg (List.takeWhile isImportLine) hlines
    rw [takeWhile_isImportLine, takeWhile_isImportLine] at htaken
    exact List.map_injective_iff.mpr importLine_injective htaken
  have hbefore : importLines a.formal = importLines b.formal := by
    rw [importLines, importLines, himports]
  rw [hbefore, List.map_append, List.map_append, List.append_assoc, List.append_assoc] at hlines
  obtain ⟨hnamespace, hrest⟩ := List.cons_eq_cons.mp (List.append_cancel_left hlines)
  rw [String.toList_append, String.toList_append] at hnamespace
  have hname : a.formal.namespaceName.value = b.formal.namespaceName.value :=
    String.toList_injective (List.append_cancel_left hnamespace)
  have hstatement : rstrip a.formal.leanStatementSource.value = rstrip b.formal.leanStatementSource.value :=
    linesOf_injective (List.cons_eq_cons.mp hrest).2
  exact ⟨himports, hname, hstatement⟩

/-- The headers of two contracts frame their imports, and differ where the contracts do, just when no
entry of either allowlist holds a line feed. -/
theorem trusted_statement_faithful_iff {a b : StatementContract} {text other : String}
    (ha : renderTrustedStatement a = .ok text) (hb : renderTrustedStatement b = .ok other) :
    (Framed a.formal text ∧ Framed b.formal other ∧ (text = other → SameHeader a.formal b.formal)) ↔
      ∀ item ∈ a.formal.importsAllowlist ++ b.formal.importsAllowlist, OneLine item := by
  rw [framed_iff ha, framed_iff hb, List.forall_mem_append]
  constructor
  · rintro ⟨haone, hbone, -⟩
    exact ⟨haone, hbone⟩
  · rintro ⟨haone, hbone⟩
    refine ⟨haone, hbone, ?_⟩
    rintro rfl
    exact sameHeader_of_rendered ha hb haone hbone

/-- Two contracts that differ in one import have different headers. -/
theorem trusted_statement_faithful_sample : ∃ text other,
    renderTrustedStatement (sampleContract ["Init", "Mathlib"]) = .ok text ∧
    renderTrustedStatement (sampleContract ["Mathlib"]) = .ok other ∧
    Framed (sampleFormal ["Init", "Mathlib"]) text ∧ Framed (sampleFormal ["Mathlib"]) other ∧ text ≠ other := by
  have hfirst : renderTrustedStatement (sampleContract ["Init", "Mathlib"]) =
      .ok "import Init\nimport Mathlib\n\nnamespace Sample.Numbers\n\ntheorem two : 1 + 1 = 2" := by decide +kernel
  have hsecond : renderTrustedStatement (sampleContract ["Mathlib"]) =
      .ok "import Mathlib\n\nnamespace Sample.Numbers\n\ntheorem two : 1 + 1 = 2" := by decide +kernel
  obtain ⟨hframed, hframed', hsame⟩ := (trusted_statement_faithful_iff hfirst hsecond).mpr (by decide +kernel)
  refine ⟨_, _, hfirst, hsecond, hframed, hframed', fun heq => ?_⟩
  exact absurd (hsame heq).imports (by decide)

/-- An entry with a line feed renders like two entries, and is not framed. -/
theorem injected_import : ∃ text, renderTrustedStatement (sampleContract ["Init\nimport Mathlib"]) = .ok text ∧
    renderTrustedStatement (sampleContract ["Init", "Mathlib"]) = .ok text ∧
    ¬ Framed (sampleFormal ["Init\nimport Mathlib"]) text ∧
    ¬ SameHeader (sampleFormal ["Init\nimport Mathlib"]) (sampleFormal ["Init", "Mathlib"]) := by
  have hinjected : renderTrustedStatement (sampleContract ["Init\nimport Mathlib"]) =
      .ok "import Init\nimport Mathlib\n\nnamespace Sample.Numbers\n\ntheorem two : 1 + 1 = 2" := by decide +kernel
  refine ⟨_, hinjected, by decide +kernel, ?_, ?_⟩
  · intro hframed
    have hone := (framed_iff hinjected).mp hframed "Init\nimport Mathlib" (List.mem_singleton.mpr rfl)
    exact absurd hone (by decide)
  · intro hsame
    exact absurd hsame.imports (by decide)

end Autolean.Builder
