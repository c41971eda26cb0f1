import Autolean.Text.JsonRoundTrip

/-! Reading JSON looks at nothing behind the value it returns: what was read is read again
before any other rest of the text, but for a number that the rest goes on with. -/
namespace Autolean.Text
open Machine.Raising
variable {F ε : Type}

theorem span_append {p : Char → Bool} {run rest : List Char} (hrun : ∀ c ∈ run, p c = true)
    (hrest : ∀ c ∈ rest.head?, p c = false) : (run ++ rest).takeWhile p = run ∧ (run ++ rest).dropWhile p = rest := by
  induction run with
  | nil =>
    cases rest with
    | nil => exact ⟨rfl, rfl⟩
    | cons c rest => simp [hrest c rfl]
  | cons c run ih =>
    obtain ⟨hc, hrun⟩ := List.forall_mem_cons.mp hrun
    obtain ⟨htake, hdrop⟩ := ih hrun
    simp [hc, htake, hdrop]

theorem span_digits {cs other : List Char} (h : ∀ c ∈ other.head?, c.isDigit = false) :
    (cs.takeWhile Char.isDigit ++ other).takeWhile Char.isDigit = cs.takeWhile Char.isDigit ∧
      (cs.takeWhile Char.isDigit ++ other).dropWhile Char.isDigit = other :=
  span_append (fun _ hc => List.mem_takeWhile_imp hc) h

theorem forall_head_append {P : Char → Prop} {x y : List Char} (hx : ∀ c ∈ x.head?, P c) (hy : ∀ c ∈ y.head?, P c) :
    ∀ c ∈ (x ++ y).head?, P c := by
  cases x with
  | nil => exact hy
  | cons d x => exact hx

theorem getLast?_append_right {x y : List Char} {c : Char} (h : y.getLast? = some c) : (x ++ y).getLast? = some c := by
  rw [List.getLast?_append, h]
  rfl

/-! Texts -/

theorem scanUnits_local {cs : List Char} {r : List CodeUnit × List Char} (h : scanUnits cs = some r) :
    ∃ read, cs = read ++ r.2 ∧ ∀ other, scanUnits (read ++ other) = some (r.1, other) := by
  fun_induction scanUnits cs generalizing r with
  | case1 => cases h
  | case2 rest =>
    cases h
    exact ⟨['"'], rfl, fun _ => rfl⟩
  | case3 a b c d rest ih =>
    obtain ⟨n, hn, h⟩ := Option.bind_eq_some_iff.mp h
    obtain ⟨r', hr', rfl⟩ := Option.map_eq_some_iff.mp h
    obtain ⟨read, rfl, hread⟩ := ih hr'
    exact ⟨'\\' :: 'u' :: a :: b :: c :: d :: read, rfl, fun other => by simp [scanUnits, hn, hread]⟩
  | case4 letter rest hu ih =>
    obtain ⟨n, hn, h⟩ := Option.bind_eq_some_iff.mp h
    obtain ⟨r', hr', rfl⟩ := Option.map_eq_some_iff.mp h
    obtain ⟨read, rfl, hread⟩ := ih hr'
    have hletter : letter ≠ 'u' := by
      rintro rfl
      cases hn
    exact ⟨'\\' :: letter :: read, rfl, fun other => by simp [scanUnits, hn, hread, hletter]⟩
  | case5 => cases h
  | case6 c rest hquote _ _ hc ih =>
    obtain ⟨r', hr', rfl⟩ := Option.map_eq_some_iff.mp h
    obtain ⟨read, rfl, hread⟩ := ih hr'
    refine ⟨c :: read, rfl, fun other => ?_⟩
    simp_all [scanUnits]

theorem scanText_local {cs : List Char} {r : PyText × List Char} (h : scanText cs = some r) :
    ∃ read, cs = read ++ r.2 ∧ ∀ other, scanText (read ++ other) = some (r.1, other) := by
  obtain ⟨r', hr', rfl⟩ := Option.map_eq_some_iff.mp h
  obtain ⟨read, hcs, hread⟩ := scanUnits_local hr'
  refine ⟨read, hcs, fun other => ?_⟩
  rw [scanText, hread]
  rfl

/-! Numbers -/

/-- The text goes on with no digit. -/
def NoDigit (rest : List Char) : Prop := ∀ c ∈ rest.head?, c.isDigit = false

theorem scanDigits_local {cs : List Char} {r : List Char × List Char} (h : scanDigits cs = some r) :
    cs = r.1 ++ r.2 ∧ (∃ d ∈ r.1.head?, d.isDigit = true) ∧
      ∀ other, NoDigit other → scanDigits (r.1 ++ other) = some (r.1, other) := by
  unfold scanDigits at h
  split at h
  · cases h
    exact ⟨rfl, ⟨_, rfl, rfl⟩, fun _ _ => rfl⟩
  · rename_i d rest hzero
    split_ifs at h with hd
    cases h
    refine ⟨by simp, ⟨d, rfl, hd⟩, fun other hother => ?_⟩
    obtain ⟨htake, hdrop⟩ := @span_digits rest other hother
    simp [scanDigits, hd, htake, hdrop]
  · cases h

theorem scanFraction_none {cs : List Char} (h : cs.head? ≠ some '.') : scanFraction cs = ([], cs) := by
  unfold scanFraction
  split
  · exact absurd rfl h
  · rfl

theorem scanFraction_local (cs : List Char) :
    cs = (scanFraction cs).1 ++ (scanFraction cs).2 ∧ (∀ c ∈ (scanFraction cs).1.head?, c = '.') ∧
      ∀ other, NoDigit other → other.head? ≠ some '.' →
        scanFraction ((scanFraction cs).1 ++ other) = ((scanFraction cs).1, other) := by
  by_cases hpoint : ∃ d rest, cs = '.' :: d :: rest ∧ d.isDigit = true
  · obtain ⟨d, rest, rfl, hd⟩ := hpoint
    have hscan : scanFraction ('.' :: d :: rest) = ('.' :: d :: rest.takeWhile Char.isDigit, rest.dropWhile Char.isDigit) :=
      if_pos hd
    rw [hscan]
    refine ⟨by simp, fun c hc => (Option.some.inj hc).symm, fun other hother _ => ?_⟩
    obtain ⟨htake, hdrop⟩ := @span_digits rest other hother
    simp [scanFraction, hd, htake, hdrop]
  · have hscan : scanFraction cs = ([], cs) := by
      unfold scanFraction
      split
      · rename_i d rest
        rw [if_neg fun hd => hpoint ⟨d, rest, rfl, hd⟩]
      · rfl
    rw [hscan]
    exact ⟨rfl, (by intro c hc; cases hc), fun other _ hdot => scanFraction_none hdot⟩

theorem scanSign_local (cs : List Char) (h : cs ≠ []) :
    cs = (scanSign cs).1 ++ (scanSign cs).2 ∧
      ∀ d other, d.isDigit = true → scanSign ((scanSign cs).1 ++ d :: other) = ((scanSign cs).1, d :: other) := by
  have hplain : ∀ (d : Char) (other : List Char), d.isDigit = true → scanSign (d :: other) = ([], d :: other) := by
    intro d other hd
    unfold scanSign
    split
    · rename_i he
      cases he
      cases hd
    · rename_i he
      cases he
      cases hd
    · rfl
  unfold scanSign
  split
  · exact ⟨rfl, fun _ _ _ => rfl⟩
  · exact ⟨rfl, fun _ _ _ => rfl⟩
  · exact ⟨rfl, hplain⟩

theorem scanExponent_local (cs : List Char) :
    cs = (scanExponent cs).1 ++ (scanExponent cs).2 ∧ (∀ c ∈ (scanExponent cs).1.head?, c = 'e' ∨ c = 'E') ∧
      ∀ other, Delimited other → scanExponent ((scanExponent cs).1 ++ other) = ((scanExponent cs).1, other) := by
  by_cases hexponent : ∃ e rest, cs = e :: rest ∧ (e = 'e' ∨ e = 'E') ∧ (scanSign rest).2.takeWhile Char.isDigit ≠ []
  · obtain ⟨e, rest, rfl, he, hdigits⟩ := hexponent
    have hscan : scanExponent (e :: rest) = (e :: (scanSign rest).1 ++ (scanSign rest).2.takeWhile Char.isDigit,
        (scanSign rest).2.dropWhile Char.isDigit) := if_pos ⟨he, hdigits⟩
    have hrest : rest ≠ [] := by
      rintro rfl
      exact hdigits rfl
    obtain ⟨hsign, hsigned⟩ := scanSign_local rest hrest
    rw [hscan]
    refine ⟨?_, ?_, ?_⟩
    · simp only [List.cons_append, List.append_assoc, List.takeWhile_append_dropWhile]
      rw [← hsign]
    · intro c hc
      cases hc
      exact he
    · intro other hother
      obtain ⟨htake, hdrop⟩ := @span_digits (scanSign rest).2 other fun c hc => (hother c hc).1
      obtain ⟨d, digits, hd⟩ := List.exists_cons_of_ne_nil hdigits
      have hdigit : d.isDigit = true := by
        have hmem : d ∈ (scanSign rest).2.takeWhile Char.isDigit := by rw [hd]; exact List.mem_cons_self
        exact List.mem_takeWhile_imp hmem
      have hsigned' := hsigned d (digits ++ other) hdigit
      rw [← List.cons_append, ← hd] at hsigned'
      simp only [scanExponent, List.cons_append, List.append_assoc, hsigned', htake, hdrop]
      rw [if_pos ⟨he, hdigits⟩]
  · have hscan : scanExponent cs = ([], cs) := by
      cases cs with
      | nil => rfl
      | cons e rest => exact if_neg fun h => hexponent ⟨e, rest, rfl, h⟩
    rw [hscan]
    exact ⟨rfl, (by intro c hc; cases hc), fun other hother => scanExponent_delimited hother⟩

theorem scanMagnitude_local {float : List Char → F} {sign cs : List Char} {r : JsonValue F × List Char}
    (h : scanMagnitude float sign cs = some r) :
    ∃ read, cs = read ++ r.2 ∧ (∃ d ∈ read.head?, d.isDigit = true) ∧
      ∀ other, Delimited other → scanMagnitude float sign (read ++ other) = some (r.1, other) := by
  obtain ⟨whole, hwhole, rfl⟩ := Option.map_eq_some_iff.mp h
  obtain ⟨hcs, hhead, hdigits⟩ := scanDigits_local hwhole
  obtain ⟨hfraction, hpoint, hfractions⟩ := scanFraction_local whole.2
  obtain ⟨hexponent, he, hexponents⟩ := scanExponent_local (scanFraction whole.2).2
  refine ⟨whole.1 ++ ((scanFraction whole.2).1 ++ (scanExponent (scanFraction whole.2).2).1), ?_, ?_, ?_⟩
  · have hrest : whole.2 = (scanFraction whole.2).1 ++
        ((scanExponent (scanFraction whole.2).2).1 ++ (scanExponent (scanFraction whole.2).2).2) :=
      hfraction.trans (congrArg _ hexponent)
    calc cs = whole.1 ++ whole.2 := hcs
      _ = _ := by
        rw [List.append_assoc, List.append_assoc, apply_ite Prod.snd, ite_self]
        exact congrArg _ hrest
  · obtain ⟨d, hd, hdigit⟩ := hhead
    refine ⟨d, ?_, hdigit⟩
    cases hwhole1 : whole.1 with
    | nil =>
      rw [hwhole1] at hd
      cases hd
    | cons c tail =>
      rw [hwhole1] at hd
      exact hd
  · intro other hother
    have hexponentHead : ∀ c ∈ ((scanExponent (scanFraction whole.2).2).1 ++ other).head?, c.isDigit = false ∧ c ≠ '.' := by
      apply forall_head_append
      · intro c hc
        rcases he c hc with rfl | rfl <;> decide
      · exact fun c hc => ⟨(hother c hc).1, (hother c hc).2.1⟩
    have hfractionHead : NoDigit ((scanFraction whole.2).1 ++ ((scanExponent (scanFraction whole.2).2).1 ++ other)) := by
      apply forall_head_append
      · intro c hc
        rw [hpoint c hc]
        decide
      · exact fun c hc => (hexponentHead c hc).1
    have hdot : ((scanExponent (scanFraction whole.2).2).1 ++ other).head? ≠ some '.' :=
      fun hc => (hexponentHead '.' hc).2 rfl
    rw [scanMagnitude, List.append_assoc, List.append_assoc, hdigits _ hfractionHead]
    simp only [Option.map_some, hfractions _ (fun c hc => (hexponentHead c hc).1) hdot, hexponents other hother]
    split_ifs <;> rfl

theorem scanNumber_local {float : List Char → F} {cs : List Char} {r : JsonValue F × List Char}
    (h : scanNumber float cs = some r) :
    ∃ read, cs = read ++ r.2 ∧
      ((∃ d tail, read = d :: tail ∧ d.isDigit = true) ∨ ∃ d tail, read = '-' :: d :: tail ∧ d.isDigit = true) ∧
      ∀ other, Delimited other → scanNumber float (read ++ other) = some (r.1, other) := by
  unfold scanNumber at h
  split at h
  · obtain ⟨read, rfl, ⟨d, hd, hdigit⟩, hread⟩ := scanMagnitude_local h
    obtain ⟨tail, rfl⟩ : ∃ tail, read = d :: tail := List.head?_eq_some_iff.mp hd
    exact ⟨'-' :: d :: tail, rfl, .inr ⟨d, tail, rfl, hdigit⟩, hread⟩
  · obtain ⟨read, rfl, ⟨d, hd, hdigit⟩, hread⟩ := scanMagnitude_local h
    obtain ⟨tail, rfl⟩ : ∃ tail, read = d :: tail := List.head?_eq_some_iff.mp hd
    refine ⟨d :: tail, rfl, .inl ⟨d, tail, rfl, hdigit⟩, fun other hother => ?_⟩
    rw [scanNumber]
    · exact hread other hother
    · intro rest he
      cases he
      cases hdigit

/-! White space -/

def isJsonSpace (c : Char) : Bool := c = ' ' || c = '\t' || c = '\n' || c = '\r'

theorem skipSpace_eq_self {cs : List Char} (h : ∀ c ∈ cs.head?, isJsonSpace c = false) : skipSpace cs = cs := by
  cases cs with
  | nil => rfl
  | cons c cs => exact List.dropWhile_cons_of_neg (Bool.eq_false_iff.mp (h c rfl))

theorem skipSpace_head {cs tail : List Char} {c : Char} (h : skipSpace cs = c :: tail) : isJsonSpace c = false := by
  have hnot := List.head?_dropWhile_not isJsonSpace cs
  have hdrop : cs.dropWhile isJsonSpace = c :: tail := h
  rw [hdrop] at hnot
  exact hnot

/-- The space that was skipped, before any text that begins with no space. -/
theorem skipSpace_local (cs : List Char) :
    ∃ space, cs = space ++ skipSpace cs ∧ (∀ c ∈ space, isJsonSpace c = true) ∧
      ∀ other, (∀ c ∈ other.head?, isJsonSpace c = false) → skipSpace (space ++ other) = other :=
  ⟨cs.takeWhile isJsonSpace, (List.takeWhile_append_dropWhile ..).symm, fun _ hc => List.mem_takeWhile_imp hc,
    fun _ hother => (span_append (fun _ hc => List.mem_takeWhile_imp hc) hother).2⟩

theorem delimited_space_cons {space rest : List Char} {c : Char} (hspace : ∀ d ∈ space, isJsonSpace d = true)
    (hc : c = ',' ∨ c = ']' ∨ c = '}') : Delimited (space ++ c :: rest) := by
  cases space with
  | nil => exact JsonHooks.delimited_cons hc rest
  | cons d space =>
    intro e he
    cases he
    have hd : isJsonSpace d = true := hspace d List.mem_cons_self
    simp only [isJsonSpace, Bool.or_eq_true, decide_eq_true_eq] at hd
    rcases hd with ((rfl | rfl) | rfl) | rfl <;> decide

/-! Values -/

namespace JsonHooks
variable {hooks : JsonHooks F ε}

theorem unbraced {c : Char} {cs : List Char} {P : Prop} (h : c ≠ '{') : (c :: cs).head? = some '{' → P :=
  fun he => absurd (Option.some.inj he) h

theorem scan_local (fuel : Nat) :
    (∀ cs v r, hooks.scanValue fuel cs = .ok (v, r) → ∃ read, cs = read ++ r ∧ read ≠ [] ∧
      (read.head? = some '{' → read.getLast? = some '}') ∧ ∀ other, Delimited other ∨
        read.head? = some '{' → hooks.scanValue fuel (read ++ other) = .ok (v, other)) ∧
    (∀ cs v r, hooks.scanItems fuel cs = .ok (v, r) → ∃ read, cs = read ++ r ∧ (∀ other, Delimited (read ++ other)) ∧
      ∀ other, hooks.scanItems fuel (read ++ other) = .ok (v, other)) ∧
    (∀ cs v r, hooks.scanField fuel cs = .ok (v, r) → ∃ read, cs = read ++ r ∧ read ≠ [] ∧
      ∀ other, Delimited other → hooks.scanField fuel (read ++ other) = .ok (v, other)) ∧
    ∀ cs v r, hooks.scanFields fuel cs = .ok (v, r) → ∃ read, cs = read ++ r ∧ (∀ other, Delimited (read ++ other)) ∧
      read.getLast? = some '}' ∧ ∀ other, hooks.scanFields fuel (read ++ other) = .ok (v, other) := by
  induction fuel with
  | zero =>
    refine ⟨?_, ?_, ?_, ?_⟩
    all_goals intro cs v r h; cases h
  | succ fuel ih =>
    obtain ⟨hvalue, hitems, hfield, hfields⟩ := ih
    refine ⟨?_, ?_, ?_, ?_⟩
    · intro cs v r h
      unfold scanValue at h
      split at h
      · rename_i rest
        obtain ⟨s, hs, h⟩ := bind_eq_ok.mp h
        cases h
        obtain ⟨read, rfl, hread⟩ := scanText_local (require_eq_ok.mp hs)
        refine ⟨'"' :: read, rfl, List.cons_ne_nil _ _, unbraced (by decide), fun other _ => ?_⟩
        simp [scanValue, hread, require, ok_bind, pure, Except.pure]
      · rename_i rest
        obtain ⟨space, hrest, -, hspace⟩ := skipSpace_local rest
        cases hskip : skipSpace rest with
        | nil =>
          rw [hskip] at h
          obtain ⟨field, hf, -⟩ := bind_eq_ok.mp h
          cases fuel <;> cases hf
        | cons c tail =>
          rw [hskip] at h hrest
          have hc : isJsonSpace c = false := skipSpace_head hskip
          by_cases hclose : c = '}'
          · subst hclose
            obtain ⟨fields, hf, h⟩ := bind_eq_ok.mp h
            cases h
            refine ⟨'{' :: (space ++ ['}']), by simp [hrest], List.cons_ne_nil _ _,
              fun _ => @getLast?_append_right ('{' :: space) _ _ rfl, fun other _ => ?_⟩
            have hother := hspace ('}' :: other) fun d hd => by cases hd; decide
            simp [scanValue, hother, hf, ok_bind, pure, Except.pure]
          · split at h
            · rename_i he
              cases he
              exact absurd rfl hclose
            obtain ⟨⟨field, afterField⟩, hf, h⟩ := bind_eq_ok.mp h
            obtain ⟨⟨fields, afterFields⟩, hfs, h⟩ := bind_eq_ok.mp h
            obtain ⟨fields', hpairs, h⟩ := bind_eq_ok.mp h
            cases h
            obtain ⟨readFirst, hfirst, hne, hfield'⟩ := hfield _ _ _ hf
            obtain ⟨readOthers, rfl, hdelimited, hclosed, hfields'⟩ := hfields _ _ _ hfs
            obtain ⟨d, first, rfl⟩ := List.exists_cons_of_ne_nil hne
            obtain ⟨rfl, rfl⟩ := List.cons.inj hfirst
            refine ⟨'{' :: (space ++ c :: first ++ readOthers), by simp [hrest], List.cons_ne_nil _ _,
              fun _ => @getLast?_append_right ('{' :: (space ++ c :: first)) _ _ hclosed, fun other _ => ?_⟩
            have hother := hspace (c :: (first ++ (readOthers ++ other))) fun d hd => by cases hd; exact hc
            have hscan := hfield' (readOthers ++ other) (hdelimited other)
            rw [List.cons_append] at hscan
            simp [scanValue, hother, hclose, hscan, hfields', hpairs, ok_bind, pure, Except.pure]
      · rename_i rest
        obtain ⟨space, hrest, -, hspace⟩ := skipSpace_local rest
        cases hskip : skipSpace rest with
        | nil =>
          rw [hskip] at h
          obtain ⟨item, hi, -⟩ := bind_eq_ok.mp h
          cases fuel <;> cases hi
        | cons c tail =>
          rw [hskip] at h hrest
          have hc : isJsonSpace c = false := skipSpace_head hskip
          by_cases hclose : c = ']'
          · subst hclose
            cases h
            refine ⟨'[' :: (space ++ [']']), by simp [hrest], List.cons_ne_nil _ _, unbraced (by decide), fun other _ => ?_⟩
            have hother := hspace (']' :: other) fun d hd => by cases hd; decide
            simp [scanValue, hother, pure, Except.pure]
          · split at h
            · rename_i he
              cases he
              exact absurd rfl hclose
            obtain ⟨⟨item, afterItem⟩, hi, h⟩ := bind_eq_ok.mp h
            obtain ⟨⟨items, afterItems⟩, his, h⟩ := bind_eq_ok.mp h
            cases h
            obtain ⟨readFirst, hfirst, hne, -, hvalue'⟩ := hvalue _ _ _ hi
            obtain ⟨readOthers, rfl, hdelimited, hitems'⟩ := hitems _ _ _ his
            obtain ⟨d, first, rfl⟩ := List.exists_cons_of_ne_nil hne
            obtain ⟨rfl, rfl⟩ := List.cons.inj hfirst
            refine ⟨'[' :: (space ++ c :: first ++ readOthers), by simp [hrest], List.cons_ne_nil _ _, unbraced (by decide),
              fun other _ => ?_⟩
            have hother := hspace (c :: (first ++ (readOthers ++ other))) fun d hd => by cases hd; exact hc
            have hscan := hvalue' (readOthers ++ other) (.inl (hdelimited other))
            rw [List.cons_append] at hscan
            simp [scanValue, hother, hclose, hscan, hitems', ok_bind, pure, Except.pure]
      · cases h
        exact ⟨['n', 'u', 'l', 'l'], rfl, List.cons_ne_nil _ _, unbraced (by decide), fun _ _ => rfl⟩
      · cases h
        exact ⟨['t', 'r', 'u', 'e'], rfl, List.cons_ne_nil _ _, unbraced (by decide), fun _ _ => rfl⟩
      · cases h
        exact ⟨['f', 'a', 'l', 's', 'e'], rfl, List.cons_ne_nil _ _, unbraced (by decide), fun _ _ => rfl⟩
      · obtain ⟨v, hv, h⟩ := bind_eq_ok.mp h
        cases h
        refine ⟨['N', 'a', 'N'], rfl, List.cons_ne_nil _ _, unbraced (by decide), fun other _ => ?_⟩
        simp [scanValue, hv, ok_bind, pure, Except.pure]
      · obtain ⟨v, hv, h⟩ := bind_eq_ok.mp h
        cases h
        refine ⟨['I', 'n', 'f', 'i', 'n', 'i', 't', 'y'], rfl, List.cons_ne_nil _ _, unbraced (by decide), fun other _ => ?_⟩
        simp [scanValue, hv, ok_bind, pure, Except.pure]
      · obtain ⟨v, hv, h⟩ := bind_eq_ok.mp h
        cases h
        refine ⟨['-', 'I', 'n', 'f', 'i', 'n', 'i', 't', 'y'], rfl, List.cons_ne_nil _ _, unbraced (by decide), fun other _ => ?_⟩
        simp [scanValue, hv, ok_bind, pure, Except.pure]
      · obtain ⟨read, rfl, hhead, hread⟩ := scanNumber_local (require_eq_ok.mp h)
        rcases hhead with ⟨d, tail, rfl, hd⟩ | ⟨d, tail, rfl, hd⟩
        · have hbrace : (d :: tail).head? ≠ some '{' := by
            rintro he
            cases he
            cases hd
          refine ⟨d :: tail, rfl, List.cons_ne_nil _ _, fun he => absurd he hbrace, fun other hother => ?_⟩
          have hother' : Delimited other := hother.resolve_right hbrace
          rw [List.cons_append, hooks.scanValue_digit hd, ← List.cons_append, hread other hother', require]
        · refine ⟨'-' :: d :: tail, rfl, List.cons_ne_nil _ _, unbraced (by decide), fun other hother => ?_⟩
          have hother' : Delimited other := hother.resolve_right (unbraced (by decide))
          rw [List.cons_append, List.cons_append, hooks.scanValue_minus hd, ← List.cons_append, ← List.cons_append,
            hread other hother', require]
    · intro cs v r h
      rw [scanItems] at h
      obtain ⟨space, hcs, hspaces, hspace⟩ := skipSpace_local cs
      split at h
      · rename_i rest he
        cases h
        rw [he] at hcs
        refine ⟨space ++ [']'], by simp [hcs], fun other => ?_, fun other => ?_⟩
        · rw [List.append_assoc]
          exact delimited_space_cons hspaces (.inr (.inl rfl))
        · have hother := hspace (']' :: other) fun d hd => by cases hd; decide
          simp [scanItems, hother, pure, Except.pure]
      · rename_i rest he
        obtain ⟨⟨item, afterItem⟩, hi, h⟩ := bind_eq_ok.mp h
        obtain ⟨⟨items, afterItems⟩, his, h⟩ := bind_eq_ok.mp h
        cases h
        rw [he] at hcs
        obtain ⟨inner, hinner, -, hinnerSpace⟩ := skipSpace_local rest
        obtain ⟨readFirst, hfirst, hne, -, hvalue'⟩ := hvalue _ _ _ hi
        obtain ⟨readOthers, rfl, hdelimited, hitems'⟩ := hitems _ _ _ his
        obtain ⟨d, first, rfl⟩ := List.exists_cons_of_ne_nil hne
        have hd : isJsonSpace d = false := skipSpace_head hfirst
        refine ⟨space ++ ',' :: (inner ++ d :: first ++ readOthers), ?_, fun other => ?_, fun other => ?_⟩
        · rw [hcs, hinner, hfirst]
          simp
        · rw [List.append_assoc]
          exact delimited_space_cons hspaces (.inl rfl)
        · have hother := hspace (',' :: (inner ++ (d :: (first ++ (readOthers ++ other))))) fun d hd => by cases hd; decide
          have hother' := hinnerSpace (d :: (first ++ (readOthers ++ other))) fun e he => by cases he; exact hd
          have hscan := hvalue' (readOthers ++ other) (.inl (hdelimited other))
          rw [List.cons_append] at hscan
          simp [scanItems, hother, hother', hscan, hitems', ok_bind, pure, Except.pure]
      · cases h
    · intro cs v r h
      unfold scanField at h
      split at h
      · rename_i rest
        obtain ⟨⟨key, afterKey⟩, hk, hvalued⟩ := bind_eq_ok.mp h
        obtain ⟨readKey, hrest, hkey⟩ := scanText_local (require_eq_ok.mp hk)
        obtain ⟨space, hcs, -, hspace⟩ := skipSpace_local afterKey
        dsimp only at hvalued hrest
        split at hvalued
        · rename_i rest' he
          obtain ⟨⟨value, afterValue⟩, hv, hvalued⟩ := bind_eq_ok.mp hvalued
          cases hvalued
          rw [he] at hcs
          obtain ⟨inner, hinner, -, hinnerSpace⟩ := skipSpace_local rest'
          obtain ⟨readValue, hread, hne, -, hvalue'⟩ := hvalue _ _ _ hv
          obtain ⟨d, first, rfl⟩ := List.exists_cons_of_ne_nil hne
          have hd : isJsonSpace d = false := skipSpace_head hread
          refine ⟨'"' :: (readKey ++ space ++ ':' :: (inner ++ d :: first)), ?_, List.cons_ne_nil _ _, fun other hother => ?_⟩
          · rw [hrest, hcs, hinner, hread]
            simp
          · have hafter := hspace (':' :: (inner ++ (d :: (first ++ other)))) fun d hd => by cases hd; decide
            have hafter' := hinnerSpace (d :: (first ++ other)) fun e he => by cases he; exact hd
            have hscan := hvalue' other (.inl hother)
            rw [List.cons_append] at hscan
            simp [scanField, hkey, require, hafter, hafter', hscan, ok_bind, pure, Except.pure]
        · cases hvalued
      · cases h
    · intro cs v r h
      rw [scanFields] at h
      obtain ⟨space, hcs, hspaces, hspace⟩ := skipSpace_local cs
      split at h
      · rename_i rest he
        cases h
        rw [he] at hcs
        refine ⟨space ++ ['}'], by simp [hcs], fun other => ?_, getLast?_append_right rfl, fun other => ?_⟩
        · rw [List.append_assoc]
          exact delimited_space_cons hspaces (.inr (.inr rfl))
        · have hother := hspace ('}' :: other) fun d hd => by cases hd; decide
          simp [scanFields, hother, pure, Except.pure]
      · rename_i rest he
        obtain ⟨⟨field, afterField⟩, hf, h⟩ := bind_eq_ok.mp h
        obtain ⟨⟨fields, afterFields⟩, hfs, h⟩ := bind_eq_ok.mp h
        cases h
        rw [he] at hcs
        obtain ⟨inner, hinner, -, hinnerSpace⟩ := skipSpace_local rest
        obtain ⟨readFirst, hfirst, hne, hfield'⟩ := hfield _ _ _ hf
        obtain ⟨readOthers, rfl, hdelimited, hclosed, hfields'⟩ := hfields _ _ _ hfs
        obtain ⟨d, first, rfl⟩ := List.exists_cons_of_ne_nil hne
        have hd : isJsonSpace d = false := skipSpace_head hfirst
        refine ⟨space ++ ',' :: (inner ++ d :: first ++ readOthers), ?_, fun other => ?_,
          getLast?_append_right (@getLast?_append_right (',' :: (inner ++ d :: first)) _ _ hclosed), fun other => ?_⟩
        · rw [hcs, hinner, hfirst]
          simp
        · rw [List.append_assoc]
          exact delimited_space_cons hspaces (.inl rfl)
        · have hother := hspace (',' :: (inner ++ (d :: (first ++ (readOthers ++ other))))) fun d hd => by cases hd; decide
          have hother' := hinnerSpace (d :: (first ++ (readOthers ++ other))) fun e he => by cases he; exact hd
          have hscan := hfield' (readOthers ++ other) (hdelimited other)
          rw [List.cons_append] at hscan
          simp [scanFields, hother, hother', hscan, hfields', ok_bind, pure, Except.pure]
      · cases h

/-! Whole texts -/

theorem loads_eq_ok {cs : List Char} {v : JsonValue F} {fuel : Nat} (hfuel : cs.length < fuel) :
    hooks.loads cs = .ok v ↔ ∃ r, hooks.scanValue fuel (skipSpace cs) = .ok (v, r) ∧ skipSpace r = [] := by
  have hlength := skipSpace_length_le cs
  have hscan : hooks.scanValue fuel (skipSpace cs) = hooks.scanValue (cs.length + 1) (skipSpace cs) := by
    rw [scanValue_fuel (by omega), ← scanValue_fuel (Nat.lt_succ_of_le hlength)]
  rw [hscan, loads]
  constructor
  · intro h
    obtain ⟨⟨w, r⟩, hscan, h⟩ := bind_eq_ok.mp h
    split_ifs at h with hr
    cases h
    exact ⟨r, hscan, hr⟩
  · rintro ⟨r, hscan, hr⟩
    rw [hscan, ok_bind, if_pos hr]
    rfl

theorem skipSpace_spaces {space : List Char} (hspace : ∀ c ∈ space, isJsonSpace c = true) (cs : List Char) :
    skipSpace (space ++ cs) = skipSpace cs := List.dropWhile_append_of_pos hspace

theorem spaces_of_skipSpace {cs : List Char} (h : skipSpace cs = []) : ∀ c ∈ cs, isJsonSpace c = true :=
  List.dropWhile_eq_nil_iff.mp h

/-- The text from an opening brace on, before which there may be white space. -/
theorem skipSpace_object {space cs : List Char} (hspace : ∀ c ∈ space, isJsonSpace c = true) (hopen : cs.head? = some '{') :
    skipSpace (space ++ cs) = cs := by
  rw [skipSpace_spaces hspace]
  apply skipSpace_eq_self
  intro c hc
  rw [hopen] at hc
  cases hc
  rfl

theorem head?_append_left {x y : List Char} {c : Char} (h : x.head? = some c) : (x ++ y).head? = some c := by
  rw [List.head?_append, h]
  rfl

/-- What is read of a text that opens an object. -/
theorem object_local {fuel : Nat} {cs r : List Char} {v : JsonValue F} (hopen : cs.head? = some '{')
    (h : hooks.scanValue fuel cs = .ok (v, r)) :
    ∃ read, cs = read ++ r ∧ read.getLast? = some '}' ∧ ∀ other, hooks.scanValue fuel (read ++ other) = .ok (v, other) := by
  obtain ⟨read, rfl, hne, hclose, hread⟩ := (scan_local fuel).1 _ _ _ h
  obtain ⟨c, tail, rfl⟩ := List.exists_cons_of_ne_nil hne
  cases hopen
  exact ⟨_, rfl, hclose rfl, fun other => hread other (.inr rfl)⟩

theorem scanValue_dict (hconstant : ∀ name fields, hooks.constant name ≠ .ok (.dict fields)) {fuel : Nat} {cs r : List Char}
    {fields : JsonDict F} (h : hooks.scanValue fuel cs = .ok (.dict fields, r)) : cs.head? = some '{' := by
  cases fuel with
  | zero => cases h
  | succ fuel =>
    unfold scanValue at h
    split at h
    · obtain ⟨s, -, h⟩ := bind_eq_ok.mp h
      cases h
    · rfl
    · split at h
      · cases h
      · obtain ⟨item, -, h⟩ := bind_eq_ok.mp h
        obtain ⟨items, -, h⟩ := bind_eq_ok.mp h
        cases h
    iterate 3 cases h
    iterate 3
      · obtain ⟨v, hv, h⟩ := bind_eq_ok.mp h
        cases h
        exact absurd hv (hconstant _ _)
    · have hnumber := require_eq_ok.mp h
      obtain ⟨v, hv⟩ : ∃ sign cs, scanMagnitude hooks.float sign cs = some (.dict fields, r) := by
        unfold scanNumber at hnumber
        split at hnumber
        · exact ⟨_, _, hnumber⟩
        · exact ⟨_, _, hnumber⟩
      obtain ⟨cs, hv⟩ := hv
      obtain ⟨whole, -, hv⟩ := Option.map_eq_some_iff.mp hv
      dsimp only at hv
      split_ifs at hv <;> cases hv

/-- A text that is read as a dict begins with a brace, after white space. -/
theorem head_of_loads (hconstant : ∀ name fields, hooks.constant name ≠ .ok (.dict fields)) {cs : List Char}
    {fields : JsonDict F} (h : hooks.loads cs = .ok (.dict fields)) : (skipSpace cs).head? = some '{' := by
  obtain ⟨r, hscan, -⟩ := (loads_eq_ok (Nat.lt_succ_self cs.length)).mp h
  exact scanValue_dict hconstant hscan

/-- An object is read the same whatever white space surrounds it. -/
theorem loads_object {front core back front' back' : List Char} {v : JsonValue F}
    (hfront : ∀ c ∈ front, isJsonSpace c = true) (hback : ∀ c ∈ back, isJsonSpace c = true)
    (hfront' : ∀ c ∈ front', isJsonSpace c = true) (hback' : ∀ c ∈ back', isJsonSpace c = true)
    (hopen : core.head? = some '{') (hclose : ∀ c ∈ core.getLast?, isJsonSpace c = false)
    (h : hooks.loads (front ++ (core ++ back)) = .ok v) : hooks.loads (front' ++ (core ++ back')) = .ok v := by
  let fuel := (front ++ (core ++ back)).length + (front' ++ (core ++ back')).length + 1
  obtain ⟨r, hscan, hr⟩ := (loads_eq_ok (by omega : _ < fuel)).mp h
  rw [skipSpace_object hfront (head?_append_left hopen)] at hscan
  obtain ⟨read, hcs, hlast, hread⟩ := object_local (head?_append_left hopen) hscan
  have hcore : read = core := by
    obtain ⟨s, rfl, rfl⟩ | ⟨s, rfl, rfl⟩ := List.append_eq_append_iff.mp hcs
    · cases hs : s.getLast? with
      | none => rw [List.getLast?_eq_none_iff.mp hs, List.append_nil]
      | some c =>
        rw [getLast?_append_right hs] at hlast
        cases hlast
        exact absurd (hback _ (List.mem_append_left _ (List.mem_of_getLast? hs))) (by decide)
    · cases hs : s.getLast? with
      | none => rw [List.getLast?_eq_none_iff.mp hs, List.append_nil]
      | some c =>
        have hspace := spaces_of_skipSpace hr c (List.mem_append_left _ (List.mem_of_getLast? hs))
        rw [hclose c (getLast?_append_right hs)] at hspace
        cases hspace
  subst hcore
  refine (loads_eq_ok (by omega : _ < fuel)).mpr ⟨back', ?_, List.dropWhile_eq_nil_iff.mpr hback'⟩
  rw [skipSpace_object hfront' (head?_append_left hopen)]
  exact hread back'

/-- A part of an object that stops before its end is no JSON. -/
theorem loads_part {front part rest front' : List Char} {v w : JsonValue F}
    (hfront : ∀ c ∈ front, isJsonSpace c = true) (hfront' : ∀ c ∈ front', isJsonSpace c = true)
    (hopen : part.head? = some '{') (hrest : ∃ c ∈ rest, isJsonSpace c = false)
    (h : hooks.loads (front ++ (part ++ rest)) = .ok v) : hooks.loads (front' ++ part) ≠ .ok w := by
  intro h'
  let fuel := (front ++ (part ++ rest)).length + (front' ++ part).length + 1
  obtain ⟨r, hscan, hr⟩ := (loads_eq_ok (by omega : _ < fuel)).mp h
  obtain ⟨r', hscan', -⟩ := (loads_eq_ok (by omega : _ < fuel)).mp h'
  rw [skipSpace_object hfront (head?_append_left hopen)] at hscan
  rw [skipSpace_object hfront' hopen] at hscan'
  obtain ⟨read, rfl, -, hread⟩ := object_local hopen hscan'
  rw [List.append_assoc, hread] at hscan
  cases hscan
  obtain ⟨c, hc, hspace⟩ := hrest
  rw [spaces_of_skipSpace hr c (List.mem_append_right _ hc)] at hspace
  cases hspace

end JsonHooks

/-! Texts that are written as they are -/

/-- A character a JSON text may hold as it is. -/
def isPlainChar (c : Char) : Bool := c ≠ '"' && c ≠ '\\' && 0x20 ≤ c.toNat

theorem scanUnits_plain {text : List Char} (h : text.all isPlainChar = true) (rest : List Char) :
    scanUnits (text ++ '"' :: rest) = some (text.map fun c => .char (.ofChar c), rest) := by
  induction text with
  | nil => rfl
  | cons c text ih =>
    rw [List.all_cons, Bool.and_eq_true] at h
    obtain ⟨hc, htext⟩ := h
    simp only [isPlainChar, Bool.and_eq_true, decide_eq_true_eq] at hc
    rw [List.cons_append, scanUnits_char hc.1.1 hc.1.2 hc.2, ih htext]
    rfl

theorem joinUnits_plain (text : List Char) : joinUnits (text.map fun c => .char (.ofChar c)) = PyText.ofChars text := by
  induction text with
  | nil => rfl
  | cons c text ih => exact congrArg (CodePoint.ofChar c :: ·) ih

theorem scanText_plain {text : List Char} (h : text.all isPlainChar = true) (rest : List Char) :
    scanText (text ++ '"' :: rest) = some (PyText.ofChars text, rest) := by
  rw [scanText, scanUnits_plain h, Option.map_some, joinUnits_plain]

theorem skipSpace_cons_of {c : Char} (h : isJsonSpace c = false) (cs : List Char) : skipSpace (c :: cs) = c :: cs :=
  skipSpace_eq_self fun d hd => by cases hd; exact h

namespace JsonHooks
variable (hooks : JsonHooks F ε)

theorem scanField_plain {key value : List Char} (hkey : key.all isPlainChar = true) (hvalue : value.all isPlainChar = true)
    (fuel : Nat) (rest : List Char) :
    hooks.scanField (fuel + 2) ('"' :: (key ++ '"' :: ':' :: '"' :: (value ++ '"' :: rest))) =
      .ok ((PyText.ofChars key, .str (PyText.ofChars value)), rest) := by
  have hcolon : skipSpace (':' :: '"' :: (value ++ '"' :: rest)) = ':' :: '"' :: (value ++ '"' :: rest) := skipSpace_cons_of rfl _
  have hquote : skipSpace ('"' :: (value ++ '"' :: rest)) = '"' :: (value ++ '"' :: rest) := skipSpace_cons_of rfl _
  have hscan : hooks.scanValue (fuel + 1) ('"' :: (value ++ '"' :: rest)) = .ok (.str (PyText.ofChars value), rest) := by
    rw [scanValue, scanText_plain hvalue]
    rfl
  rw [scanField, scanText_plain hkey, require, ok_bind]
  simp only [hcolon, hquote, hscan, ok_bind]
  rfl

/-- An object of two texts. -/
theorem loads_plain {key value key' value' : List Char} (hkey : key.all isPlainChar = true)
    (hvalue : value.all isPlainChar = true) (hkey' : key'.all isPlainChar = true) (hvalue' : value'.all isPlainChar = true)
    {fields : JsonDict F} (hpairs : hooks.pairs [(PyText.ofChars key, .str (PyText.ofChars value)),
      (PyText.ofChars key', .str (PyText.ofChars value'))] = .ok fields) :
    hooks.loads ('{' :: '"' :: (key ++ '"' :: ':' :: '"' :: (value ++ '"' :: ',' :: '"' :: (key' ++ '"' :: ':' :: '"' ::
      (value' ++ ['"', '}']))))) = .ok (.dict fields) := by
  set second := '"' :: (key' ++ '"' :: ':' :: '"' :: (value' ++ ['"', '}'])) with hsecond
  set first := '"' :: (key ++ '"' :: ':' :: '"' :: (value ++ '"' :: ',' :: second)) with hfirst
  obtain ⟨n, hn⟩ := Nat.exists_eq_add_of_le' (show 6 ≤ ('{' :: first).length + 1 by simp [hfirst, hsecond]; omega)
  have hfield : hooks.scanField (n + 5) first = .ok ((PyText.ofChars key, .str (PyText.ofChars value)), ',' :: second) :=
    hooks.scanField_plain hkey hvalue (n + 3) (',' :: second)
  have hfield' : hooks.scanField (n + 4) second = .ok ((PyText.ofChars key', .str (PyText.ofChars value')), ['}']) :=
    hooks.scanField_plain hkey' hvalue' (n + 2) ['}']
  have hskip : skipSpace first = first := skipSpace_cons_of rfl _
  have hskip' : skipSpace second = second := skipSpace_cons_of rfl _
  have hclosed : hooks.scanFields (n + 4) ['}'] = .ok ([], []) := rfl
  have hfields : hooks.scanFields (n + 5) (',' :: second) =
      .ok ([(PyText.ofChars key', .str (PyText.ofChars value'))], []) := by
    rw [scanFields, skipSpace_cons_of rfl]
    simp only [hskip', hfield', hclosed, ok_bind]
    rfl
  have hvalue : hooks.scanValue (n + 6) ('{' :: first) = .ok (.dict fields, []) := by
    rw [scanValue, hskip]
    change (hooks.scanField (n + 5) first >>= fun field => hooks.scanFields (n + 5) field.2 >>= fun fields =>
      hooks.pairs (field.1 :: fields.1) >>= fun fields' => .ok (JsonTree.dict fields', fields.2)) = _
    rw [hfield, ok_bind, hfields, ok_bind, hpairs, ok_bind]
  rw [loads, hn, skipSpace_cons_of rfl, hvalue]
  rfl

end JsonHooks

end Autolean.Text
