import Mathlib.Data.List.Basic

/-! `str.splitlines`: a text is cut at every boundary Python knows, of which a line feed is one. -/
namespace Autolean.Text

/-- The characters `str.splitlines` cuts at. -/
def isLineBoundary (c : Char) : Bool :=
  c = '\n' || c = '\r' || c.toNat = 0x0b || c.toNat = 0x0c || (0x1c ≤ c.toNat && c.toNat ≤ 0x1e) ||
    c.toNat = 0x85 || c.toNat = 0x2028 || c.toNat = 0x2029

/-- Put a character in front of the first line. -/
def prependChar (c : Char) : List (List Char) → List (List Char)
  | [] => [[c]]
  | line :: lines => (c :: line) :: lines

/-- `text.splitlines()`. A carriage return and a line feed are one boundary. -/
def splitlines : List Char → List (List Char)
  | [] => []
  | '\r' :: '\n' :: rest => [] :: splitlines rest
  | c :: rest => if isLineBoundary c then [] :: splitlines rest else prependChar c (splitlines rest)

theorem splitlines_cons {c : Char} (h : isLineBoundary c = false) (rest : List Char) :
    splitlines (c :: rest) = prependChar c (splitlines rest) := by
  rw [splitlines, h]
  · rfl
  · rintro _ rfl _
    cases h

theorem splitlines_crlf (rest : List Char) : splitlines ('\r' :: '\n' :: rest) = [] :: splitlines rest := rfl

theorem splitlines_boundary {c : Char} (h : isLineBoundary c = true) {rest : List Char}
    (hcrlf : c = '\r' → rest.head? ≠ some '\n') : splitlines (c :: rest) = [] :: splitlines rest := by
  rw [splitlines, h]
  · rfl
  · rintro _ rfl rfl
    exact hcrlf rfl rfl

/-- The lines of a text are made of its characters. -/
theorem mem_of_mem_splitlines {text line : List Char} (h : line ∈ splitlines text) : ∀ c ∈ line, c ∈ text := by
  fun_induction splitlines text generalizing line with
  | case1 => cases h
  | case2 rest ih =>
    rcases List.mem_cons.mp h with rfl | h
    · exact List.forall_mem_nil _
    · intro c hc
      exact List.mem_cons_of_mem _ (List.mem_cons_of_mem _ (ih h c hc))
  | case3 c rest _ hc ih =>
    rcases List.mem_cons.mp h with rfl | h
    · exact List.forall_mem_nil _
    · intro d hd
      exact List.mem_cons_of_mem _ (ih h d hd)
  | case4 c rest _ hc ih =>
    cases hlines : splitlines rest with
    | nil =>
      rw [hlines] at h
      rw [List.mem_singleton.mp h]
      exact List.forall_mem_singleton.mpr List.mem_cons_self
    | cons first others =>
      rw [hlines] at h ih
      rcases List.mem_cons.mp h with rfl | h
      · intro d hd
        rcases List.mem_cons.mp hd with rfl | hd
        · exact List.mem_cons_self
        · exact List.mem_cons_of_mem _ (ih List.mem_cons_self d hd)
      · intro d hd
        exact List.mem_cons_of_mem _ (ih (List.mem_cons_of_mem _ h) d hd)

theorem splitlines_newline_ne_nil (text : List Char) : splitlines (text ++ ['\n']) ≠ [] := by
  fun_induction splitlines text with
  | case1 => exact List.cons_ne_nil _ _
  | case2 tail => exact List.cons_ne_nil _ _
  | case3 c tail hcr hc ih =>
    cases tail with
    | nil =>
      by_cases hreturn : c = '\r'
      · rw [hreturn]
        exact List.cons_ne_nil _ _
      · rw [List.cons_append, splitlines_boundary hc fun he => absurd he hreturn]
        exact List.cons_ne_nil _ _
    | cons d tail =>
      rw [List.cons_append, splitlines_boundary hc]
      · exact List.cons_ne_nil _ _
      · rintro rfl hhead
        cases hhead
        exact hcr tail rfl rfl
  | case4 c tail hcr hc ih =>
    rw [Bool.not_eq_true] at hc
    rw [List.cons_append, splitlines_cons hc]
    cases splitlines (tail ++ ['\n']) <;> exact List.cons_ne_nil _ _

/-- A line feed ends the lines of what stands before it. -/
theorem splitlines_append_newline (text rest : List Char) :
    splitlines (text ++ '\n' :: rest) = splitlines (text ++ ['\n']) ++ splitlines rest := by
  fun_induction splitlines text with
  | case1 => rfl
  | case2 tail ih => simp only [List.cons_append, splitlines_crlf, ih]
  | case3 c tail hcr hc ih =>
    by_cases hreturn : c = '\r' ∧ tail = []
    · obtain ⟨rfl, rfl⟩ := hreturn
      rfl
    · have hhead : ∀ more : List Char, c = '\r' → (tail ++ '\n' :: more).head? ≠ some '\n' := by
        rintro more rfl hfeed
        cases tail with
        | nil => exact hreturn ⟨rfl, rfl⟩
        | cons d tail =>
          cases hfeed
          exact hcr tail rfl rfl
      simp only [List.cons_append, splitlines_boundary hc (hhead rest), splitlines_boundary hc (hhead []), ih]
  | case4 c tail hcr hc ih =>
    rw [Bool.not_eq_true] at hc
    simp only [List.cons_append, splitlines_cons hc, ih]
    cases hlines : splitlines (tail ++ ['\n']) with
    | nil => exact absurd hlines (splitlines_newline_ne_nil tail)
    | cons first others => rfl

/-- A line feed at the end of a text adds no line but an empty one. -/
theorem splitlines_concat_newline (text : List Char) :
    splitlines (text ++ ['\n']) = splitlines text ∨ splitlines (text ++ ['\n']) = splitlines text ++ [[]] := by
  fun_induction splitlines text with
  | case1 => exact .inr rfl
  | case2 tail ih =>
    rw [List.cons_append, List.cons_append, splitlines_crlf]
    exact ih.imp (congrArg _) (congrArg _)
  | case3 c tail hcr hc ih =>
    by_cases hreturn : c = '\r' ∧ tail = []
    · obtain ⟨rfl, rfl⟩ := hreturn
      exact .inl rfl
    · have hhead : c = '\r' → (tail ++ ['\n']).head? ≠ some '\n' := by
        rintro rfl hfeed
        cases tail with
        | nil => exact hreturn ⟨rfl, rfl⟩
        | cons d tail =>
          cases hfeed
          exact hcr tail rfl rfl
      rw [List.cons_append, splitlines_boundary hc hhead]
      exact ih.imp (congrArg _) (congrArg _)
  | case4 c tail hcr hc ih =>
    rw [Bool.not_eq_true] at hc
    rw [List.cons_append, splitlines_cons hc]
    rcases ih with ih | ih
    · exact .inl (congrArg _ ih)
    · rw [ih]
      cases hlines : splitlines tail with
      | nil => exact .inl rfl
      | cons first others => exact .inr rfl

/-- Every text with a boundary has a first one. -/
theorem exists_boundary {text : List Char} (h : text.all (!isLineBoundary ·) = false) :
    ∃ line c rest, text = line ++ c :: rest ∧ line.all (!isLineBoundary ·) = true ∧ isLineBoundary c = true := by
  induction text with
  | nil => cases h
  | cons d text ih =>
    cases hd : isLineBoundary d with
    | true => exact ⟨[], d, text, rfl, rfl, hd⟩
    | false =>
      rw [List.all_cons, hd] at h
      obtain ⟨line, c, rest, rfl, hline, hc⟩ := ih h
      exact ⟨d :: line, c, rest, rfl, by simp [hd, hline], hc⟩

/-- The text before the first boundary is the first line. -/
theorem splitlines_first {line : List Char} (hline : line.all (!isLineBoundary ·) = true) {c : Char}
    (hc : isLineBoundary c = true) (rest : List Char) :
    ∃ lines, splitlines (line ++ c :: rest) = line :: lines ∧ ∀ other ∈ lines, ∀ d ∈ other, d ∈ rest := by
  induction line with
  | nil =>
    by_cases hcrlf : c = '\r' ∧ rest.head? = some '\n'
    · obtain ⟨rfl, hhead⟩ := hcrlf
      cases rest with
      | nil => cases hhead
      | cons d rest =>
        cases hhead
        refine ⟨splitlines rest, splitlines_crlf rest, ?_⟩
        exact fun other hother d hd => List.mem_cons_of_mem _ (mem_of_mem_splitlines hother d hd)
    · refine ⟨splitlines rest, splitlines_boundary hc fun he hhead => hcrlf ⟨he, hhead⟩, ?_⟩
      exact fun other hother => mem_of_mem_splitlines hother
  | cons d line ih =>
    simp only [List.all_cons, Bool.and_eq_true, Bool.not_eq_true'] at hline
    obtain ⟨lines, hlines, hothers⟩ := ih (by simpa using hline.2)
    exact ⟨lines, by rw [List.cons_append, splitlines_cons hline.1, hlines, prependChar], hothers⟩

/-- White space before a text makes lines of its own, or stands at the head of the text's first line. -/
theorem splitlines_space {space text : List Char} (hfeed : '\n' ∉ space) (htext : text.head? ≠ some '\n') :
    ∃ lines inline, splitlines (space ++ text) = lines ++ splitlines (inline ++ text) ∧
      (∀ line ∈ lines, ∀ c ∈ line, c ∈ space) ∧ (∀ c ∈ inline, c ∈ space) ∧ inline.all (!isLineBoundary ·) = true := by
  induction space with
  | nil => exact ⟨[], [], rfl, List.forall_mem_nil _, List.forall_mem_nil _, rfl⟩
  | cons c space ih =>
    have hspace : '\n' ∉ space := fun h => hfeed (List.mem_cons_of_mem c h)
    obtain ⟨lines, inline, hlines, hmem, hinline, hplain⟩ := ih hspace
    have hinherit : ∀ {line : List Char}, (∀ d ∈ line, d ∈ space) → ∀ d ∈ line, d ∈ c :: space :=
      fun h d hd => List.mem_cons_of_mem _ (h d hd)
    cases hboundary : isLineBoundary c with
    | true =>
      have hhead : c = '\r' → (space ++ text).head? ≠ some '\n' := by
        rintro - hfirst
        cases space with
        | nil => exact htext hfirst
        | cons d space =>
          cases hfirst
          exact hspace List.mem_cons_self
      refine ⟨[] :: lines, inline, ?_, ?_, hinherit hinline, hplain⟩
      · rw [List.cons_append, splitlines_boundary hboundary hhead, hlines, List.cons_append]
      · exact List.forall_mem_cons.mpr ⟨List.forall_mem_nil _, fun line hline => hinherit (hmem line hline)⟩
    | false =>
      have hfirst : ∀ d ∈ [c], d ∈ c :: space := List.forall_mem_singleton.mpr List.mem_cons_self
      cases lines with
      | nil =>
        refine ⟨[], c :: inline, ?_, List.forall_mem_nil _, ?_, by simp [hboundary, hplain]⟩
        · rw [List.cons_append, splitlines_cons hboundary, hlines, List.nil_append, List.nil_append, List.cons_append,
            splitlines_cons hboundary]
        · exact List.forall_mem_cons.mpr ⟨List.mem_cons_self, hinherit hinline⟩
      | cons first lines =>
        obtain ⟨hfirstline, hothers⟩ := List.forall_mem_cons.mp hmem
        refine ⟨(c :: first) :: lines, inline, ?_, ?_, hinherit hinline, hplain⟩
        · rw [List.cons_append, splitlines_cons hboundary, hlines]
          rfl
        · exact List.forall_mem_cons.mpr ⟨List.forall_mem_cons.mpr ⟨List.mem_cons_self, hinherit hfirstline⟩,
            fun line hline => hinherit (hothers line hline)⟩

end Autolean.Text
