import Autolean.Text.JsonReader
import Mathlib.Tactic.IntervalCases

/-! A value without floats and with each key once is read back from its text with the
surrogates of its texts joined; one with scalar texts is read back as it was written. -/
namespace Autolean.Text
open Machine.Raising
variable {F ε : Type}

/-! Texts -/

theorem hexValue?_digitChar {d : Nat} (h : d < 16) : hexValue? (Nat.digitChar d) = some d := by
  interval_cases d <;> rfl

theorem readHex4_hex4 {n : Nat} (h : n < 0x10000) :
    readHex4 (Nat.digitChar (n / 4096 % 16)) (Nat.digitChar (n / 256 % 16)) (Nat.digitChar (n / 16 % 16))
      (Nat.digitChar (n % 16)) = some n := by
  have hd : ∀ m, hexValue? (Nat.digitChar (m % 16)) = some (m % 16) := fun m => hexValue?_digitChar (Nat.mod_lt _ (by omega))
  simp only [readHex4, hd, Option.bind_eq_bind, Option.bind_some, pure, Option.some.injEq]
  omega

/-- The units a code point is written as. -/
def unitsOf (c : CodePoint) : List CodeUnit :=
  if (escapeLetter c).isSome ∨ (0x20 ≤ c.val ∧ c.val ≤ 0x7e) then [.char c]
  else if c.val < 0x10000 then [.escape c.val]
  else [.escape (highSurrogate c), .escape (lowSurrogate c)]

theorem readLetter_escapeLetter {c : CodePoint} {letter : Char} (h : escapeLetter c = some letter) :
    readLetter letter = some c ∧ letter ≠ 'u' := by
  unfold escapeLetter at h
  split_ifs at h with h1 h2 h3 h4 h5 h6 h7
  all_goals cases h
  · exact ⟨by rw [h1]; rfl, by decide⟩
  · exact ⟨by rw [h2]; rfl, by decide⟩
  all_goals refine ⟨?_, by decide⟩
  · exact congrArg some (Fin.ext h3.symm)
  · exact congrArg some (Fin.ext h4.symm)
  · exact congrArg some (Fin.ext h5.symm)
  · exact congrArg some (Fin.ext h6.symm)
  · exact congrArg some (Fin.ext h7.symm)

theorem scanUnits_letter {letter : Char} {c : CodePoint} (h : readLetter letter = some c) (hu : letter ≠ 'u')
    (rest : List Char) : scanUnits ('\\' :: letter :: rest) = (scanUnits rest).map fun r => (.char c :: r.1, r.2) := by
  rw [scanUnits, h, Option.bind_some]
  rintro _ _ _ _ _ rfl
  exact absurd rfl hu

theorem scanUnits_unicodeEscape {n : Nat} (h : n < 0x10000) (rest : List Char) :
    scanUnits (unicodeEscape n ++ rest) = (scanUnits rest).map fun r => (.escape n :: r.1, r.2) := by
  simp only [unicodeEscape, hex4, List.cons_append, List.nil_append]
  rw [scanUnits, readHex4_hex4 h, Option.bind_some]

theorem scanUnits_char {c : Char} (hq : c ≠ '"') (hb : c ≠ '\\') (hc : 0x20 ≤ c.toNat) (rest : List Char) :
    scanUnits (c :: rest) = (scanUnits rest).map fun r => (.char (.ofChar c) :: r.1, r.2) := by
  rw [scanUnits, if_neg]
  · simp only [not_or, not_lt]
    exact ⟨hb, hc⟩
  · exact hq
  · rintro _ _ _ _ _ rfl
    exact absurd rfl hb
  · rintro _ _ rfl
    exact absurd rfl hb

theorem highSurrogate_high {c : CodePoint} (h : 0x10000 ≤ c.val) : IsHigh (highSurrogate c) := by
  have := c.isLt
  simp only [IsHigh, highSurrogate]
  omega

theorem lowSurrogate_low (c : CodePoint) : IsLow (lowSurrogate c) := by
  simp only [IsLow, lowSurrogate]
  omega

theorem escapeLetter_eq_none {c : CodePoint} (h : escapeLetter c = none) : c ≠ .ofChar '"' ∧ c ≠ .ofChar '\\' := by
  unfold escapeLetter at h
  split_ifs at h with h1 h2
  exact ⟨h1, h2⟩

theorem scanUnits_escapeCodePoint (c : CodePoint) (rest : List Char) :
    scanUnits (escapeCodePoint c ++ rest) = (scanUnits rest).map fun r => (unitsOf c ++ r.1, r.2) := by
  unfold escapeCodePoint unitsOf
  cases hl : escapeLetter c with
  | some letter =>
    obtain ⟨hread, hu⟩ := readLetter_escapeLetter hl
    simpa using scanUnits_letter hread hu rest
  | none =>
    obtain ⟨hq, hb⟩ := escapeLetter_eq_none hl
    by_cases hprint : 0x20 ≤ c.val ∧ c.val ≤ 0x7e
    · have hscalar : c.IsScalar := .inl (by omega)
      have hback := ofChar_ofNat hscalar
      have hnat : (Char.ofNat c.val).toNat = c.val := congrArg (fun x : CodePoint => x.val) hback
      have hscan := scanUnits_char (c := Char.ofNat c.val) (fun e => hq (by rw [← hback, e])) (fun e => hb (by rw [← hback, e]))
        (by rw [hnat]; exact hprint.1) rest
      rw [hback] at hscan
      simpa [hprint] using hscan
    · by_cases hsmall : c.val < 0x10000
      · simpa [hprint, hsmall] using scanUnits_unicodeEscape hsmall rest
      · obtain ⟨-, hhigh⟩ := highSurrogate_high (c := c) (by omega)
        obtain ⟨-, hlow⟩ := lowSurrogate_low c
        simp only [Option.isSome_none, Bool.false_eq_true, hprint, or_self, hsmall, if_false, List.append_assoc]
        rw [scanUnits_unicodeEscape (by omega), scanUnits_unicodeEscape (by omega), Option.map_map]
        rfl

theorem joinUnits_unitsOf {c : CodePoint} (h : c.IsScalar) (units : List CodeUnit) :
    joinUnits (unitsOf c ++ units) = c :: joinUnits units := by
  have hlt := c.isLt
  unfold unitsOf
  split_ifs with hchar hsmall
  · rfl
  · have hhigh : ¬ IsHigh c.val := by
      simp only [CodePoint.IsScalar, IsHigh] at h ⊢
      omega
    cases units with
    | nil => simp [joinUnits]
    | cons u units => cases u <;> simp [joinUnits, hhigh]
  · have hbig : 0x10000 ≤ c.val := by omega
    have hpair : IsHigh (highSurrogate c) ∧ IsLow (lowSurrogate c) := ⟨highSurrogate_high hbig, lowSurrogate_low c⟩
    have hself : Fin.ofNat 0x110000 (0x10000 + ((highSurrogate c - 0xd800) * 1024 + (lowSurrogate c - 0xdc00))) = c := by
      apply Fin.ext
      simp only [highSurrogate, lowSurrogate, Fin.ofNat]
      omega
    simp only [List.cons_append, List.nil_append, joinUnits, hpair, and_self, if_true, hself]

theorem scanUnits_flatMap (s : PyText) (rest : List Char) :
    scanUnits (s.flatMap escapeCodePoint ++ '"' :: rest) = some (s.flatMap unitsOf, rest) := by
  induction s with
  | nil => simp [scanUnits]
  | cons c s ih => rw [List.flatMap_cons, List.append_assoc, scanUnits_escapeCodePoint, ih, List.flatMap_cons, Option.map_some]

theorem joinUnits_flatMap {s : PyText} (h : s.IsScalar) : joinUnits (s.flatMap unitsOf) = s := by
  induction s with
  | nil => rfl
  | cons c s ih =>
    obtain ⟨hc, hs⟩ := List.forall_mem_cons.mp h
    rw [List.flatMap_cons, joinUnits_unitsOf hc, ih hs]

/-- A text as it is read back: a high and a low surrogate side by side are one code point. -/
def PyText.rejoined (s : PyText) : PyText := joinUnits (s.flatMap unitsOf)

theorem PyText.rejoined_eq_self {s : PyText} (h : s.IsScalar) : s.rejoined = s := joinUnits_flatMap h

theorem scanText_printText (s : PyText) (rest : List Char) :
    scanText (s.flatMap escapeCodePoint ++ '"' :: rest) = some (s.rejoined, rest) := by
  rw [scanText, scanUnits_flatMap, Option.map_some, PyText.rejoined]

/-! Numbers -/

/-- What may follow a whole number without being read as part of it. -/
def Delimited (rest : List Char) : Prop := ∀ c ∈ rest.head?, c.isDigit = false ∧ c ≠ '.' ∧ c ≠ 'e' ∧ c ≠ 'E'

theorem takeWhile_digits {digits rest : List Char} (hd : ∀ c ∈ digits, c.isDigit = true) (hr : Delimited rest) :
    (digits ++ rest).takeWhile Char.isDigit = digits ∧ (digits ++ rest).dropWhile Char.isDigit = rest := by
  induction digits with
  | nil =>
    cases rest with
    | nil => exact ⟨rfl, rfl⟩
    | cons c rest => simp [(hr c rfl).1]
  | cons d digits ih =>
    obtain ⟨hd, hdigits⟩ := List.forall_mem_cons.mp hd
    obtain ⟨htake, hdrop⟩ := ih hdigits
    simp [hd, htake, hdrop]

theorem scanFraction_delimited {rest : List Char} (h : Delimited rest) : scanFraction rest = ([], rest) := by
  unfold scanFraction
  split
  · exact absurd rfl (h _ rfl).2.1
  · rfl

theorem scanExponent_delimited {rest : List Char} (h : Delimited rest) : scanExponent rest = ([], rest) := by
  cases rest with
  | nil => rfl
  | cons c rest =>
    obtain ⟨-, -, he, hE⟩ := h c rfl
    simp [scanExponent, he, hE]

/-- The digits of a number above zero start with one that is not zero. -/
theorem toDigits_head {n : Nat} (h : 0 < n) :
    ∃ d digits, Nat.toDigits 10 n = d :: digits ∧ d ≠ '0' ∧ d.isDigit = true ∧ ∀ c ∈ digits, c.isDigit = true := by
  induction n using Nat.strong_induction_on with
  | _ n ih =>
    by_cases hn : n < 10
    · refine ⟨n.digitChar, [], Nat.toDigits_of_lt_base hn, ?_, ?_, by simp⟩
      all_goals interval_cases n <;> decide
    · obtain ⟨d, digits, he, hd, hdigit, hdigits⟩ := ih (n / 10) (by omega) (by omega)
      refine ⟨d, digits ++ [(n % 10).digitChar], ?_, hd, hdigit, ?_⟩
      · rw [Nat.toDigits_of_base_le (by omega) (by omega), he, List.cons_append]
      · intro c hc
        rcases List.mem_append.mp hc with hc | hc
        · exact hdigits c hc
        · rw [List.mem_singleton.mp hc]
          have hlt : n % 10 < 10 := Nat.mod_lt _ (by omega)
          interval_cases n % 10 <;> decide

theorem scanDigits_toDigits (n : Nat) {rest : List Char} (h : Delimited rest) :
    scanDigits (Nat.toDigits 10 n ++ rest) = some (Nat.toDigits 10 n, rest) := by
  rcases Nat.eq_zero_or_pos n with rfl | hn
  · rfl
  · obtain ⟨d, digits, he, hd, hdigit, hdigits⟩ := toDigits_head hn
    obtain ⟨htake, hdrop⟩ := takeWhile_digits hdigits h
    rw [he, List.cons_append, scanDigits, if_pos hdigit, htake, hdrop]
    rintro rfl
    exact absurd rfl hd

theorem scanMagnitude_toDigits (float : List Char → F) (sign : List Char) (n : Nat) {rest : List Char} (h : Delimited rest) :
    scanMagnitude float sign (Nat.toDigits 10 n ++ rest) = some (.int (if sign = [] then n else -n), rest) := by
  simp [scanMagnitude, scanDigits_toDigits n h, scanFraction_delimited h, scanExponent_delimited h,
    Nat.ofDigitChars_ten_toDigits]

theorem toDigits_head_isDigit (n : Nat) : ∃ d digits, Nat.toDigits 10 n = d :: digits ∧ d.isDigit = true := by
  rcases Nat.eq_zero_or_pos n with rfl | hn
  · exact ⟨'0', [], rfl, rfl⟩
  · obtain ⟨d, digits, he, -, hd, -⟩ := toDigits_head hn
    exact ⟨d, digits, he, hd⟩

theorem scanNumber_printInt (float : List Char → F) (n : Int) {rest : List Char} (h : Delimited rest) :
    scanNumber float (printInt n ++ rest) = some (.int n, rest) := by
  unfold printInt
  split_ifs with hn
  · rw [List.cons_append, scanNumber, scanMagnitude_toDigits float _ _ h, if_neg (by simp)]
    congr 3
    omega
  · obtain ⟨d, digits, he, hd⟩ := toDigits_head_isDigit n.natAbs
    have hscan := scanMagnitude_toDigits float [] n.natAbs h
    rw [he, List.cons_append] at hscan ⊢
    rw [scanNumber, hscan, if_pos rfl]
    · congr 3
      omega
    · intro _ he
      cases he
      exact absurd hd (by decide)

theorem printInt_injective : Function.Injective printInt := by
  intro m n h
  have hnil : Delimited [] := by
    intro c hc
    cases hc
  have hm := scanNumber_printInt (fun _ => ()) m hnil
  rw [h, scanNumber_printInt _ n hnil] at hm
  simpa using hm.symm

/-! Values -/

namespace JsonTree

/-- No float, scalar texts, and each key once. -/
def Plain : JsonValue F → Prop
  | .float _ => False
  | .str s => s.IsScalar
  | .dict fields => (JsonDict.keys fields).Nodup ∧ ∀ k ∈ JsonDict.keys fields, k.IsScalar
  | _ => True

/-- No float, and each key once, a scalar text. -/
def Legible : JsonValue F → Prop
  | .float _ => False
  | .dict fields => (JsonDict.keys fields).Nodup ∧ ∀ k ∈ JsonDict.keys fields, k.IsScalar
  | _ => True

theorem legible_of_plain {v : JsonValue F} (h : v.Everywhere Plain) : v.Everywhere Legible := by
  induction v using induct with
  | list items ih =>
    obtain ⟨-, hitems⟩ := everywhere_list.mp h
    exact everywhere_list.mpr ⟨trivial, fun v hv => ih v hv (hitems v hv)⟩
  | dict fields ih =>
    obtain ⟨hkeys, hfields⟩ := everywhere_dict.mp h
    exact everywhere_dict.mpr ⟨hkeys, fun f hf => ih f hf (hfields f hf)⟩
  | float x => exact absurd h id
  | _ => trivial

mutual
/-- The value as it is read back. -/
def rejoined : JsonValue F → JsonValue F
  | .str s => .str s.rejoined
  | .list items => .list (rejoinedItems items)
  | .dict fields => .dict (rejoinedFields fields)
  | v => v

def rejoinedItems : List (JsonValue F) → List (JsonValue F)
  | [] => []
  | v :: items => rejoined v :: rejoinedItems items

def rejoinedFields : List (PyText × JsonValue F) → List (PyText × JsonValue F)
  | [] => []
  | (k, v) :: fields => (k, rejoined v) :: rejoinedFields fields
end

theorem rejoinedItems_eq_map (items : List (JsonValue F)) : rejoinedItems items = items.map rejoined := by
  induction items with
  | nil => rfl
  | cons v items ih => rw [rejoinedItems, ih, List.map_cons]

theorem rejoinedFields_eq_map (fields : JsonDict F) : rejoinedFields fields = fields.map fun f => (f.1, f.2.rejoined) := by
  induction fields with
  | nil => rfl
  | cons f fields ih => rw [rejoinedFields, ih, List.map_cons]

@[simp] theorem rejoined_list (items : List (JsonValue F)) : (list items).rejoined = .list (items.map rejoined) := by
  rw [rejoined, rejoinedItems_eq_map]

@[simp] theorem rejoined_dict (fields : JsonDict F) :
    (dict fields).rejoined = .dict (fields.map fun f => (f.1, f.2.rejoined)) := by
  rw [rejoined, rejoinedFields_eq_map]

theorem rejoined_eq_self {v : JsonValue F} (h : v.Everywhere Plain) : v.rejoined = v := by
  induction v using induct with
  | str s => exact congrArg str (PyText.rejoined_eq_self h)
  | list items ih =>
    obtain ⟨-, hitems⟩ := everywhere_list.mp h
    rw [rejoined_list, List.map_congr_left fun v hv => ih v hv (hitems v hv), List.map_id']
  | dict fields ih =>
    obtain ⟨-, hfields⟩ := everywhere_dict.mp h
    rw [rejoined_dict, List.map_congr_left fun f hf => by rw [ih f hf (hfields f hf)]]
    simp
  | _ => rfl

theorem everywhere_plain_texts {texts : List PyText} (h : ∀ s ∈ texts, s.IsScalar) :
    (list (texts.map str) : JsonValue F).Everywhere Plain :=
  everywhere_list.mpr ⟨trivial, List.forall_mem_map.mpr h⟩

theorem keys_legible {fields : List (String × JsonValue F)} (hkeys : (fields.map Prod.fst).Nodup) :
    (JsonDict.keys (JsonDict.of fields)).Nodup ∧ ∀ k ∈ JsonDict.keys (JsonDict.of fields), k.IsScalar := by
  rw [JsonDict.keys_of]
  exact ⟨hkeys.map PyText.of_injective, List.forall_mem_map.mpr fun k _ => PyText.isScalar_of k⟩

/-- A dict the source writes out is plain when it repeats no key and its values are plain. -/
theorem everywhere_plain_of {fields : List (String × JsonValue F)} (hkeys : (fields.map Prod.fst).Nodup)
    (h : ∀ f ∈ fields, f.2.Everywhere Plain) : (dict (JsonDict.of fields)).Everywhere Plain :=
  everywhere_dict.mpr ⟨keys_legible hkeys, List.forall_mem_map.mpr h⟩

theorem everywhere_legible_of {fields : List (String × JsonValue F)} (hkeys : (fields.map Prod.fst).Nodup)
    (h : ∀ f ∈ fields, f.2.Everywhere Legible) : (dict (JsonDict.of fields)).Everywhere Legible :=
  everywhere_dict.mpr ⟨keys_legible hkeys, List.forall_mem_map.mpr h⟩

theorem everywhere_sortKeys {P : JsonValue F → Prop} (hlist : ∀ items, P (list items) → P (list (items.map sortKeys)))
    (hdict : ∀ fields, P (dict fields) → P (dict (JsonDict.sortKeys fields))) {v : JsonValue F} (h : v.Everywhere P) :
    v.sortKeys.Everywhere P := by
  induction v using induct with
  | list items ih =>
    obtain ⟨hP, hitems⟩ := everywhere_list.mp h
    rw [sortKeys_list]
    exact everywhere_list.mpr ⟨hlist items hP, List.forall_mem_map.mpr fun v hv => ih v hv (hitems v hv)⟩
  | dict fields ih =>
    obtain ⟨hP, hfields⟩ := everywhere_dict.mp h
    rw [sortKeys_dict]
    refine everywhere_dict.mpr ⟨hdict fields hP, fun f hf => ?_⟩
    obtain ⟨g, hg, rfl⟩ := List.mem_map.mp ((JsonDict.sortKeys_perm fields).mem_iff.mp hf)
    exact ih g hg (hfields g hg)
  | _ => exact h

theorem keys_sortKeys_legible (fields : JsonDict F)
    (h : (JsonDict.keys fields).Nodup ∧ ∀ k ∈ JsonDict.keys fields, k.IsScalar) :
    (JsonDict.keys fields.sortKeys).Nodup ∧ ∀ k ∈ JsonDict.keys fields.sortKeys, k.IsScalar := by
  have hperm := JsonDict.keys_sortKeys_perm fields
  exact ⟨hperm.nodup_iff.mpr h.1, fun k hk => h.2 k (hperm.mem_iff.mp hk)⟩

theorem everywhere_plain_sortKeys {v : JsonValue F} (h : v.Everywhere Plain) : v.sortKeys.Everywhere Plain :=
  everywhere_sortKeys (fun _ _ => trivial) keys_sortKeys_legible h

theorem everywhere_legible_sortKeys {v : JsonValue F} (h : v.Everywhere Legible) : v.sortKeys.Everywhere Legible :=
  everywhere_sortKeys (fun _ _ => trivial) keys_sortKeys_legible h

theorem keys_rejoined (fields : JsonDict F) : JsonDict.keys (fields.map fun f => (f.1, f.2.rejoined)) = JsonDict.keys fields := by
  simp [JsonDict.keys]

end JsonTree

/-- The caller takes the fields of a dict as they are when no key repeats. -/
def JsonHooks.Keeps (hooks : JsonHooks F ε) : Prop := ∀ d : JsonDict F, d.keys.Nodup → hooks.pairs d = .ok d

theorem skipSpace_cons {c : Char} (h : c ≠ ' ' ∧ c ≠ '\t' ∧ c ≠ '\n' ∧ c ≠ '\r') (cs : List Char) :
    skipSpace (c :: cs) = c :: cs := by
  simp [skipSpace, h]

/-- A value's text starts with none of the characters that end or separate values. -/
def Opens (c : Char) : Prop := c = '"' ∨ c = '{' ∨ c = '[' ∨ c = 'n' ∨ c = 't' ∨ c = 'f' ∨ c = '-' ∨ c.isDigit = true

theorem Opens.not_space {c : Char} (h : Opens c) : c ≠ ' ' ∧ c ≠ '\t' ∧ c ≠ '\n' ∧ c ≠ '\r' ∧ c ≠ ']' ∧ c ≠ '}' := by
  rcases h with rfl | rfl | rfl | rfl | rfl | rfl | rfl | hd
  iterate 7 decide
  refine ⟨?_, ?_, ?_, ?_, ?_, ?_⟩
  all_goals rintro rfl; exact absurd hd (by decide)

namespace JsonTree
variable (floatText : F → List Char)

theorem print_head {v : JsonValue F} (h : v.Everywhere Legible) : ∃ c cs, v.print floatText = c :: cs ∧ Opens c := by
  cases v with
  | null => exact ⟨'n', _, by rw [print], by simp [Opens]⟩
  | bool b => cases b <;> exact ⟨_, _, by rw [print], by simp [Opens]⟩
  | int n =>
    rw [print, printInt]
    split_ifs
    · exact ⟨'-', _, rfl, by simp [Opens]⟩
    · obtain ⟨d, digits, he, hd⟩ := toDigits_head_isDigit n.natAbs
      exact ⟨d, digits, he, by simp [Opens, hd]⟩
  | float x => exact absurd h id
  | str s => exact ⟨'"', _, by rw [print, printText], by simp [Opens]⟩
  | list items => cases items <;> exact ⟨'[', _, by rw [print], by simp [Opens]⟩
  | dict fields => rcases fields with _ | ⟨⟨k, v⟩, fields⟩ <;> exact ⟨'{', _, by rw [print], by simp [Opens]⟩

end JsonTree

namespace JsonHooks
variable (hooks : JsonHooks F ε)

theorem scanValue_digit {d : Char} (h : d.isDigit = true) (fuel : Nat) (cs : List Char) :
    hooks.scanValue (fuel + 1) (d :: cs) = hooks.require (scanNumber hooks.float (d :: cs)) := by
  rw [scanValue]
  all_goals
    intro _ he
    cases he
    exact absurd h (by decide)

theorem scanValue_minus {d : Char} (h : d.isDigit = true) (fuel : Nat) (cs : List Char) :
    hooks.scanValue (fuel + 1) ('-' :: d :: cs) = hooks.require (scanNumber hooks.float ('-' :: d :: cs)) := by
  rw [scanValue]
  all_goals
    intro _ he
    cases he
  exact absurd h (by decide)

theorem scanValue_printInt (fuel : Nat) (n : Int) {rest : List Char} (h : Delimited rest) :
    hooks.scanValue (fuel + 1) (printInt n ++ rest) = .ok (.int n, rest) := by
  have hscan := scanNumber_printInt hooks.float n h
  obtain ⟨d, digits, he, hd⟩ := toDigits_head_isDigit n.natAbs
  unfold printInt at hscan ⊢
  split_ifs at hscan ⊢
  · rw [he] at hscan ⊢
    rw [List.cons_append, List.cons_append, scanValue_minus hooks hd]
    rw [List.cons_append, List.cons_append] at hscan
    rw [hscan]
    rfl
  · rw [he] at hscan ⊢
    rw [List.cons_append, scanValue_digit hooks hd]
    rw [List.cons_append] at hscan
    rw [hscan]
    rfl

theorem scanValue_str (fuel : Nat) (s : PyText) (rest : List Char) :
    hooks.scanValue (fuel + 1) (printText s ++ rest) = .ok (.str s.rejoined, rest) := by
  rw [printText, List.cons_append, List.append_assoc, List.singleton_append, scanValue, scanText_printText]
  rfl

variable {hooks} (floatText : F → List Char)

/-- The reader returns the value with its surrogates joined, whatever follows it, given more
fuel than its text is long. -/
def ReadsBack (hooks : JsonHooks F ε) (floatText : F → List Char) (v : JsonValue F) : Prop :=
  ∀ fuel rest, Delimited rest → (v.print floatText).length < fuel →
    hooks.scanValue fuel (v.print floatText ++ rest) = .ok (v.rejoined, rest)

theorem delimited_cons {c : Char} (h : c = ',' ∨ c = ']' ∨ c = '}') (rest : List Char) : Delimited (c :: rest) := by
  intro d hd
  cases hd
  rcases h with rfl | rfl | rfl <;> decide

theorem delimited_printItems (items : List (JsonValue F)) (rest : List Char) :
    Delimited (JsonTree.printItems floatText items ++ rest) := by
  cases items with
  | nil => exact delimited_cons (by simp) _
  | cons v items => exact delimited_cons (by simp) _

theorem delimited_printFields (fields : JsonDict F) (rest : List Char) :
    Delimited (JsonTree.printFields floatText fields ++ rest) := by
  cases fields with
  | nil => exact delimited_cons (by simp) _
  | cons f fields => exact delimited_cons (by simp) _

theorem skipSpace_print {v : JsonValue F} (h : v.Everywhere JsonTree.Legible) (rest : List Char) :
    skipSpace (v.print floatText ++ rest) = v.print floatText ++ rest := by
  obtain ⟨c, cs, he, hc⟩ := JsonTree.print_head floatText h
  obtain ⟨h1, h2, h3, h4, -, -⟩ := hc.not_space
  rw [he, List.cons_append, skipSpace_cons ⟨h1, h2, h3, h4⟩]

theorem scanItems_printItems {items : List (JsonValue F)} (hplain : ∀ v ∈ items, v.Everywhere JsonTree.Legible)
    (h : ∀ v ∈ items, ReadsBack hooks floatText v) (fuel : Nat) (rest : List Char)
    (hfuel : (JsonTree.printItems floatText items).length < fuel) :
    hooks.scanItems fuel (JsonTree.printItems floatText items ++ rest) = .ok (items.map JsonTree.rejoined, rest) := by
  induction items generalizing fuel with
  | nil =>
    cases fuel with
    | zero => omega
    | succ fuel =>
      rw [JsonTree.printItems, scanItems, List.singleton_append, skipSpace_cons (by decide)]
      rfl
  | cons v items ih =>
    cases fuel with
    | zero => omega
    | succ fuel =>
      obtain ⟨hv, hitems⟩ := List.forall_mem_cons.mp h
      obtain ⟨hpv, hpitems⟩ := List.forall_mem_cons.mp hplain
      simp only [JsonTree.printItems, List.length_cons, List.length_append] at hfuel
      rw [JsonTree.printItems, scanItems, List.cons_append, skipSpace_cons (by decide), List.append_assoc]
      simp only [skipSpace_print floatText hpv]
      rw [hv fuel _ (delimited_printItems floatText items rest) (by omega), ok_bind, ih hpitems hitems fuel (by omega), ok_bind]
      rfl

theorem scanField_print {k : PyText} {v : JsonValue F} (hk : k.IsScalar) (hplain : v.Everywhere JsonTree.Legible)
    (h : ReadsBack hooks floatText v) (fuel : Nat) {rest : List Char} (hrest : Delimited rest)
    (hfuel : (v.print floatText).length < fuel) :
    hooks.scanField (fuel + 1) (printText k ++ ':' :: (v.print floatText ++ rest)) = .ok ((k, v.rejoined), rest) := by
  rw [printText, List.cons_append, List.append_assoc, List.singleton_append, scanField, scanText_printText,
    PyText.rejoined_eq_self hk]
  simp only [require, ok_bind]
  rw [skipSpace_cons (by decide)]
  simp only [skipSpace_print floatText hplain]
  rw [h fuel _ hrest hfuel, ok_bind]
  rfl

theorem printText_length (s : PyText) : 2 ≤ (printText s).length := by
  simp [printText]

theorem scanFields_printFields {fields : JsonDict F} (hkeys : ∀ f ∈ fields, PyText.IsScalar f.1)
    (hplain : ∀ f ∈ fields, f.2.Everywhere JsonTree.Legible) (h : ∀ f ∈ fields, ReadsBack hooks floatText f.2)
    (fuel : Nat) (rest : List Char) (hfuel : (JsonTree.printFields floatText fields).length < fuel) :
    hooks.scanFields fuel (JsonTree.printFields floatText fields ++ rest) =
      .ok (fields.map fun f => (f.1, f.2.rejoined), rest) := by
  induction fields generalizing fuel with
  | nil =>
    cases fuel with
    | zero => omega
    | succ fuel =>
      rw [JsonTree.printFields, scanFields, List.singleton_append, skipSpace_cons (by decide)]
      rfl
  | cons f fields ih =>
    obtain ⟨k, v⟩ := f
    obtain ⟨hk, hkeys⟩ := List.forall_mem_cons.mp hkeys
    have hv : ReadsBack hooks floatText v := h _ List.mem_cons_self
    have hfields := fun f hf => h f (List.mem_cons_of_mem (k, v) hf)
    obtain ⟨hpv, hpfields⟩ := List.forall_mem_cons.mp hplain
    have hlength := printText_length k
    simp only [JsonTree.printFields, List.length_cons, List.length_append] at hfuel
    obtain ⟨fuel, rfl⟩ : ∃ n, fuel = n + 2 := ⟨fuel - 2, by omega⟩
    rw [JsonTree.printFields, scanFields, List.cons_append, skipSpace_cons (by decide), List.append_assoc, List.cons_append,
      List.append_assoc]
    have hskip : ∀ more, skipSpace (printText k ++ more) = printText k ++ more := fun more => skipSpace_cons (by decide) _
    simp only [hskip]
    rw [scanField_print (v := v) floatText hk hpv hv fuel (delimited_printFields floatText fields rest) (by omega), ok_bind,
      ih hkeys hpfields hfields (fuel + 1) (by omega), ok_bind]
    rfl

/-- A legible value is read back from its text. -/
theorem readsBack (hkeeps : hooks.Keeps) {v : JsonValue F} (h : v.Everywhere JsonTree.Legible) :
    ReadsBack hooks floatText v := by
  induction v using JsonTree.induct with
  | null =>
    intro fuel rest hrest hfuel
    cases fuel with
    | zero => omega
    | succ fuel => rfl
  | bool b =>
    intro fuel rest hrest hfuel
    cases fuel with
    | zero => omega
    | succ fuel => cases b <;> rfl
  | int n =>
    intro fuel rest hrest hfuel
    cases fuel with
    | zero => omega
    | succ fuel => exact scanValue_printInt hooks fuel n hrest
  | float x => exact absurd h id
  | str s =>
    intro fuel rest hrest hfuel
    cases fuel with
    | zero => omega
    | succ fuel => exact scanValue_str hooks fuel s rest
  | list items ih =>
    intro fuel rest hrest hfuel
    obtain ⟨-, hitems⟩ := JsonTree.everywhere_list.mp h
    cases fuel with
    | zero => omega
    | succ fuel =>
      cases items with
      | nil => rfl
      | cons v items =>
        obtain ⟨hpv, hpitems⟩ := List.forall_mem_cons.mp hitems
        obtain ⟨hv, hih⟩ := List.forall_mem_cons.mp ih
        simp only [JsonTree.print, List.length_cons, List.length_append] at hfuel
        obtain ⟨c, cs, hcs, hopens⟩ := JsonTree.print_head floatText hpv
        have hread := hv hpv fuel _ (delimited_printItems floatText items rest) (by omega)
        have hmore := scanItems_printItems floatText hpitems (fun v hv => hih v hv (hpitems v hv)) fuel rest (by omega)
        have hskip := skipSpace_print floatText hpv (JsonTree.printItems floatText items ++ rest)
        rw [JsonTree.print, List.cons_append, List.append_assoc, scanValue]
        rw [hcs, List.cons_append] at hread hskip ⊢
        simp only [hskip]
        split
        · rename_i he
          cases he
          exact absurd rfl hopens.not_space.2.2.2.2.1
        · rw [hread, ok_bind, hmore, ok_bind, JsonTree.rejoined_list]
          rfl
  | dict fields ih =>
    intro fuel rest hrest hfuel
    obtain ⟨⟨hnodup, hscalar⟩, hfields⟩ := JsonTree.everywhere_dict.mp h
    cases fuel with
    | zero => omega
    | succ fuel =>
      cases fields with
      | nil =>
        have hnil := hkeeps [] (by simp [JsonDict.keys])
        rw [JsonTree.print, List.cons_append, List.singleton_append, scanValue, skipSpace_cons (by decide)]
        simp only [hnil, ok_bind]
        rfl
      | cons f fields =>
        obtain ⟨k, v⟩ := f
        obtain ⟨hpv, hpfields⟩ := List.forall_mem_cons.mp hfields
        have hv : ReadsBack hooks floatText v := ih _ List.mem_cons_self hpv
        have hih := fun f hf => ih f (List.mem_cons_of_mem (k, v) hf)
        obtain ⟨hk, hkeys⟩ := List.forall_mem_cons.mp (List.forall_mem_map.mp hscalar)
        have hlength := printText_length k
        simp only [JsonTree.print, List.length_cons, List.length_append] at hfuel
        obtain ⟨fuel, rfl⟩ : ∃ n, fuel = n + 1 := ⟨fuel - 1, by omega⟩
        have hread := scanField_print (v := v) floatText hk hpv hv fuel (delimited_printFields floatText fields rest) (by omega)
        have hmore := scanFields_printFields floatText hkeys hpfields (fun f hf =>
          hih f hf (hpfields f hf)) (fuel + 1) rest (by omega)
        rw [JsonTree.print, List.cons_append, List.append_assoc, List.cons_append, List.append_assoc, scanValue]
        have hskip : ∀ more, skipSpace (printText k ++ more) = printText k ++ more := fun more => skipSpace_cons (by decide) _
        simp only [hskip]
        split
        · rename_i he
          cases he
        · have hkept := hkeeps _ (JsonTree.keys_rejoined ((k, v) :: fields) ▸ hnodup)
          rw [hread, ok_bind, hmore, ok_bind, JsonTree.rejoined_dict]
          rw [List.map_cons] at hkept ⊢
          rw [hkept, ok_bind]
          rfl

end JsonHooks

theorem skipSpace_eq_nil {cs : List Char} (h : ∀ c ∈ cs, c = ' ' ∨ c = '\t' ∨ c = '\n' ∨ c = '\r') : skipSpace cs = [] := by
  rw [skipSpace, List.dropWhile_eq_nil_iff]
  simpa [or_assoc] using h

theorem delimited_space {space : List Char} (hspace : ∀ c ∈ space, c = ' ' ∨ c = '\t' ∨ c = '\n' ∨ c = '\r') :
    Delimited space := by
  intro c hc
  rcases hspace c (List.mem_of_mem_head? hc) with rfl | rfl | rfl | rfl <;> decide

/-- Reading a value's text, with white space after it, gives the value with its keys in order
and its surrogates joined. -/
theorem JsonHooks.loads_dumps_legible {hooks : JsonHooks F ε} (hkeeps : hooks.Keeps) (floatText : F → List Char)
    {v : JsonValue F} (hlegible : v.Everywhere JsonTree.Legible) {space : List Char}
    (hspace : ∀ c ∈ space, c = ' ' ∨ c = '\t' ∨ c = '\n' ∨ c = '\r') :
    hooks.loads (v.dumps floatText ++ space) = .ok v.sortKeys.rejoined := by
  have h := JsonTree.everywhere_legible_sortKeys hlegible
  have hlength : (v.sortKeys.print floatText).length < (v.sortKeys.print floatText ++ space).length + 1 := by
    rw [List.length_append]
    omega
  rw [JsonTree.dumps, loads, skipSpace_print floatText h,
    readsBack floatText hkeeps h _ _ (delimited_space hspace) hlength, ok_bind, if_pos (skipSpace_eq_nil hspace)]
  rfl

/-- A plain value is read back with its keys in order. -/
theorem JsonHooks.loads_dumps {hooks : JsonHooks F ε} (hkeeps : hooks.Keeps) (floatText : F → List Char) {v : JsonValue F}
    (hplain : v.Everywhere JsonTree.Plain) {space : List Char}
    (hspace : ∀ c ∈ space, c = ' ' ∨ c = '\t' ∨ c = '\n' ∨ c = '\r') :
    hooks.loads (v.dumps floatText ++ space) = .ok v.sortKeys := by
  have hself : v.sortKeys.rejoined = v.sortKeys := JsonTree.rejoined_eq_self (JsonTree.everywhere_plain_sortKeys hplain)
  rw [loads_dumps_legible hkeeps floatText (JsonTree.legible_of_plain hplain) hspace, hself]

/-! The text of a value and line ends -/

theorem digitChar_ne_return (n : Nat) : Nat.digitChar (n % 16) ≠ '\r' := by
  have h : n % 16 < 16 := Nat.mod_lt _ (by omega)
  generalize n % 16 = d at h
  interval_cases d <;> decide

theorem return_not_mem_unicodeEscape (n : Nat) : '\r' ∉ unicodeEscape n := by
  simp [unicodeEscape, hex4, (digitChar_ne_return _).symm]

theorem return_not_mem_escapeCodePoint (c : CodePoint) : '\r' ∉ escapeCodePoint c := by
  unfold escapeCodePoint
  split
  · rename_i letter hletter
    have hne : letter ≠ '\r' := by
      rintro rfl
      unfold escapeLetter at hletter
      split_ifs at hletter <;> exact absurd hletter (by decide)
    simpa using hne.symm
  · split_ifs with hprint hsmall
    · have hval : (Char.ofNat c.val).toNat = c.val := by
        rw [Char.ofNat, dif_pos (.inl (by omega))]
        rfl
      intro hmem
      rw [← List.mem_singleton.mp hmem] at hval
      have : c.val = 13 := hval.symm
      omega
    · exact return_not_mem_unicodeEscape _
    · exact fun h => (List.mem_append.mp h).elim (return_not_mem_unicodeEscape _) (return_not_mem_unicodeEscape _)

theorem return_not_mem_printText (s : PyText) : '\r' ∉ printText s := by
  simp [printText, return_not_mem_escapeCodePoint]

theorem return_not_mem_printInt (n : Int) : '\r' ∉ printInt n := by
  have h : ∀ m : Nat, '\r' ∉ Nat.toDigits 10 m :=
    fun m hm => absurd (Nat.isDigit_of_mem_toDigits (by omega) (by omega) hm) (by decide)
  unfold printInt
  split_ifs <;> simp [h]

namespace JsonTree

/-- No carriage return is written where no float writes one. -/
theorem return_not_mem_print {floatText : F → List Char} (hfloat : ∀ x, '\r' ∉ floatText x) (v : JsonValue F) :
    '\r' ∉ v.print floatText := by
  induction v using induct with
  | null => simp [print]
  | bool b => cases b <;> simp [print]
  | int n => exact return_not_mem_printInt n
  | float x => exact hfloat x
  | str s => exact return_not_mem_printText s
  | list items ih =>
    have hrest : ∀ rest : List (JsonValue F), (∀ v ∈ rest, '\r' ∉ v.print floatText) → '\r' ∉ printItems floatText rest := by
      intro rest hr
      induction rest with
      | nil => simp [printItems]
      | cons v rest ihr => simp [printItems, hr v List.mem_cons_self, ihr fun w hw => hr w (List.mem_cons_of_mem v hw)]
    cases items with
    | nil => simp [print]
    | cons v items => simp [print, ih v List.mem_cons_self, hrest items fun w hw => ih w (List.mem_cons_of_mem v hw)]
  | dict fields ih =>
    have hrest : ∀ rest : List (PyText × JsonValue F), (∀ f ∈ rest, '\r' ∉ f.2.print floatText) →
        '\r' ∉ printFields floatText rest := by
      intro rest hr
      induction rest with
      | nil => simp [printFields]
      | cons f rest ihr =>
        simp [printFields, return_not_mem_printText, hr f List.mem_cons_self, ihr fun g hg => hr g (List.mem_cons_of_mem f hg)]
    cases fields with
    | nil => simp [print]
    | cons f fields =>
      simp [print, return_not_mem_printText, ih f List.mem_cons_self, hrest fields fun g hg => ih g (List.mem_cons_of_mem f hg)]

end JsonTree

end Autolean.Text
