import Mathlib.Data.List.Basic

/-! One record of comma-separated values. A field that is quoted may hold separators, line
feeds and doubled quotes; any other field may hold none of them. -/
namespace Autolean.Text

inductive FieldState where
  | start
  | plain
  | quoted
  | closed
  deriving DecidableEq

/-- The fields from here to the end of the record, where `acc` is the one under way, reversed. -/
def readFields : FieldState → List Char → List Char → Option (List (List Char))
  | .quoted, _, [] => none
  | _, acc, [] => some [acc.reverse]
  | .quoted, acc, c :: rest =>
    if c = '"' then readFields .closed acc rest else readFields .quoted (c :: acc) rest
  | state, acc, c :: rest =>
    if c = ',' then (readFields .start [] rest).map (acc.reverse :: ·)
    else if c = '\n' then some [acc.reverse]
    else match state with
      | .start => if c = '"' then readFields .quoted [] rest else readFields .plain [c] rest
      | .plain => if c = '"' then none else readFields .plain (c :: acc) rest
      | _ => if c = '"' then readFields .quoted (c :: acc) rest else none

def readRecord (text : List Char) : Option (List (List Char)) := readFields .start [] text

/-- The text holds a character that only a quoted field can hold. -/
def NeedsQuotes (field : List Char) : Prop := ',' ∈ field ∨ '"' ∈ field ∨ '\n' ∈ field

instance (field : List Char) : Decidable (NeedsQuotes field) := inferInstanceAs (Decidable (_ ∨ _ ∨ _))

theorem needsQuotes_cons {c : Char} {field : List Char} :
    NeedsQuotes (c :: field) ↔ (c = ',' ∨ c = '"' ∨ c = '\n') ∨ NeedsQuotes field := by
  simp only [NeedsQuotes, List.mem_cons, eq_comm]
  tauto

theorem needsQuotes_append {a b : List Char} : NeedsQuotes (a ++ b) ↔ NeedsQuotes a ∨ NeedsQuotes b := by
  simp only [NeedsQuotes, List.mem_append]
  tauto

theorem NeedsQuotes.of_suffix {a b : List Char} (h : a <:+ b) (ha : NeedsQuotes a) : NeedsQuotes b := by
  obtain ⟨before, rfl⟩ := h
  exact needsQuotes_append.mpr (.inr ha)

/-! Plain fields read back -/

private theorem readFields_plain (acc field rest : List Char) (h : ¬ NeedsQuotes field) :
    readFields .plain acc (field ++ rest) = readFields .plain (field.reverse ++ acc) rest := by
  induction field generalizing acc with
  | nil => rfl
  | cons c field ih =>
    rw [needsQuotes_cons] at h
    obtain ⟨hc, hfield⟩ := not_or.mp h
    simp only [not_or] at hc
    rw [List.cons_append, readFields, if_neg hc.1, if_neg hc.2.2]
    simp only [if_neg hc.2.1]
    rw [ih _ hfield, List.reverse_cons, List.append_assoc]
    rfl

private theorem readFields_start (field rest : List Char) (h : ¬ NeedsQuotes field) (hrest : rest.head? ≠ some '"') :
    readFields .start [] (field ++ rest) = readFields .plain field.reverse rest := by
  cases field with
  | nil =>
    cases rest with
    | nil => rfl
    | cons c rest =>
      have hc : c ≠ '"' := fun hc => hrest (by rw [hc]; rfl)
      simp only [List.nil_append, List.reverse_nil, readFields, if_neg hc]
  | cons c field =>
    rw [needsQuotes_cons] at h
    obtain ⟨hc, hfield⟩ := not_or.mp h
    simp only [not_or] at hc
    rw [List.cons_append, readFields, if_neg hc.1, if_neg hc.2.2]
    simp only [if_neg hc.2.1]
    rw [readFields_plain _ _ _ hfield, List.reverse_cons]

/-- Plain fields with commas between them read back as they were. -/
theorem readRecord_intercalate {field : List Char} {fields : List (List Char)}
    (h : ∀ f ∈ field :: fields, ¬ NeedsQuotes f) :
    readRecord ([','].intercalate (field :: fields)) = some (field :: fields) := by
  induction fields generalizing field with
  | nil =>
    have hread := readFields_start field [] (h field List.mem_cons_self) (by simp)
    rw [List.append_nil] at hread
    rw [List.intercalate_singleton, readRecord, hread, readFields, List.reverse_reverse]
    rintro ⟨⟩
  | cons next fields ih =>
    have hrest := ih fun f hf => h f (List.mem_cons_of_mem _ hf)
    rw [List.intercalate_cons_cons, readRecord, List.append_assoc,
      readFields_start _ _ (h field List.mem_cons_self) (by simp), List.singleton_append, readFields, if_pos rfl,
      ← readRecord, hrest, List.reverse_reverse]
    · rfl

/-! Quotes in the text pay for what fields hold -/

/-- What the quotes left in the text bound of the field under way. -/
def HeadBound (acc text head : List Char) : FieldState → Prop
  | .start => acc = [] → NeedsQuotes head → 2 * head.count '"' + 2 ≤ text.count '"'
  | .plain => ¬ NeedsQuotes acc → ¬ NeedsQuotes head
  | .quoted => 2 * head.count '"' + 1 ≤ text.count '"' + 2 * acc.count '"'
  | .closed => 2 * head.count '"' ≤ text.count '"' + 2 * acc.count '"'

private theorem needsQuotes_reverse {a : List Char} : NeedsQuotes a.reverse ↔ NeedsQuotes a := by
  simp only [NeedsQuotes, List.mem_reverse]

private theorem headBound_reverse (acc text : List Char) {state : FieldState} (h : state ≠ .quoted) :
    HeadBound acc text acc.reverse state := by
  cases state with
  | quoted => exact absurd rfl h
  | start =>
    rintro rfl hq
    simp [NeedsQuotes] at hq
  | plain => exact fun hacc hq => hacc (needsQuotes_reverse.mp hq)
  | closed =>
    simp only [HeadBound, List.count_reverse]
    omega

/-- The bounds hold of the fields from here on. -/
def FieldsBounded (state : FieldState) (acc text : List Char) : List (List Char) → Prop
  | [] => False
  | head :: tail => HeadBound acc text head state ∧ ∀ f ∈ tail, NeedsQuotes f → 2 * f.count '"' + 2 ≤ text.count '"'

private theorem FieldsBounded.step {state state' : FieldState} {acc acc' text text' : List Char}
    {fields : List (List Char)} (h : FieldsBounded state acc text fields)
    (hhead : ∀ head, HeadBound acc text head state → HeadBound acc' text' head state')
    (hcount : text.count '"' ≤ text'.count '"') : FieldsBounded state' acc' text' fields := by
  cases fields with
  | nil => cases h
  | cons head tail => exact ⟨hhead head h.1, fun f hf hq => Nat.le_trans (h.2 f hf hq) hcount⟩

private theorem FieldsBounded.separated {state : FieldState} {acc rest : List Char} {fields : List (List Char)} (c : Char)
    (hstate : state ≠ .quoted) (h : FieldsBounded .start [] rest fields) :
    FieldsBounded state acc (c :: rest) (acc.reverse :: fields) := by
  refine ⟨headBound_reverse _ _ hstate, fun f hf hq => ?_⟩
  have hmono : rest.count '"' ≤ (c :: rest).count '"' := List.count_le_count_cons
  cases fields with
  | nil => cases hf
  | cons head tail =>
    rcases List.mem_cons.mp hf with rfl | hf
    · exact Nat.le_trans (h.1 rfl hq) hmono
    · exact Nat.le_trans (h.2 f hf hq) hmono

private theorem readFields_bounded {state : FieldState} {acc text : List Char} {fields : List (List Char)}
    (h : readFields state acc text = some fields) : FieldsBounded state acc text fields := by
  induction text generalizing state acc fields with
  | nil =>
    cases state with
    | quoted => simp [readFields] at h
    | start | plain | closed =>
      simp only [readFields, Option.some.injEq] at h
      subst h
      exact ⟨headBound_reverse _ _ (by decide), by simp⟩
  | cons c rest ih =>
    have hmono : rest.count '"' ≤ (c :: rest).count '"' := List.count_le_count_cons
    by_cases hstate : state = .quoted
    · subst hstate
      rw [readFields] at h
      split at h
      · next hc =>
        subst hc
        refine (ih h).step (fun head hhead => ?_) hmono
        simp only [HeadBound, List.count_cons_self] at hhead ⊢
        omega
      · next hc =>
        refine (ih h).step (fun head hhead => ?_) hmono
        simpa [HeadBound, List.count_cons, hc] using hhead
    by_cases hcomma : c = ','
    · have hread : (readFields .start [] rest).map (acc.reverse :: ·) = some fields := by
        cases state <;> simp_all [readFields]
      obtain ⟨later, hlater, rfl⟩ := Option.map_eq_some_iff.mp hread
      exact (ih hlater).separated c hstate
    by_cases hline : c = '\n'
    · have hread : fields = [acc.reverse] := by
        cases state <;> simp_all [readFields]
      subst hread
      exact ⟨headBound_reverse _ _ hstate, by simp⟩
    by_cases hquote : c = '"'
    · subst hquote
      cases state with
      | quoted => exact absurd rfl hstate
      | plain => simp [readFields] at h
      | start =>
        have hread : readFields .quoted [] rest = some fields := by simpa [readFields] using h
        refine (ih hread).step (fun head hhead _ _ => ?_) hmono
        simp only [HeadBound, List.count_cons_self, List.count_nil] at hhead ⊢
        omega
      | closed =>
        have hread : readFields .quoted ('"' :: acc) rest = some fields := by simpa [readFields] using h
        refine (ih hread).step (fun head hhead => ?_) hmono
        simp only [HeadBound, List.count_cons_self] at hhead ⊢
        omega
    · cases state with
      | quoted => exact absurd rfl hstate
      | closed => simp [readFields, hcomma, hline, hquote] at h
      | start =>
        have hread : readFields .plain [c] rest = some fields := by
          simpa [readFields, hcomma, hline, hquote] using h
        refine (ih hread).step (fun head hhead _ hq => ?_) hmono
        exact absurd hq (hhead (by simp [NeedsQuotes, Ne.symm hcomma, Ne.symm hline, Ne.symm hquote]))
      | plain =>
        have hread : readFields .plain (c :: acc) rest = some fields := by
          simpa [readFields, hcomma, hline, hquote] using h
        refine (ih hread).step (fun head hhead hacc => hhead ?_) hmono
        rw [needsQuotes_cons]
        exact not_or.mpr ⟨by simp [hcomma, hline, hquote], hacc⟩

/-- A field that needs its quotes is paid for by quotes of the text: two around it and two
for each quote it holds. -/
theorem readRecord_quotes {text : List Char} {fields : List (List Char)} (h : readRecord text = some fields)
    {f : List Char} (hf : f ∈ fields) (hq : NeedsQuotes f) : 2 * f.count '"' + 2 ≤ text.count '"' := by
  have hbounded := readFields_bounded h
  cases fields with
  | nil => cases hf
  | cons head tail =>
    rcases List.mem_cons.mp hf with rfl | hf
    · exact hbounded.1 rfl hq
    · exact hbounded.2 f hf hq

end Autolean.Text
