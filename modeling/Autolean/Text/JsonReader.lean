import Autolean.Text.JsonPrinter
import Autolean.Machine.Raising
import Mathlib.Data.List.TakeWhile

/-! Reading JSON: white space, texts with their escapes, numbers, lists and dicts. The caller
says what becomes of the fields of a dict, of a number with a point or an exponent, and of
the constants that are no JSON. -/
namespace Autolean.Text
open Machine.Raising
variable {F ε : Type}

structure JsonHooks (F ε : Type) where
  /-- `JSONDecodeError`. -/
  malformed : ε
  /-- `object_pairs_hook`. -/
  pairs : JsonDict F → Except ε (JsonDict F)
  /-- `parse_constant`. -/
  constant : List Char → Except ε (JsonValue F)
  /-- `parse_float`. -/
  float : List Char → F

def skipSpace (cs : List Char) : List Char := cs.dropWhile fun c => c = ' ' || c = '\t' || c = '\n' || c = '\r'

/-- What a text holds between its quotes: a character, or the number an escape gives. -/
inductive CodeUnit where
  | char (c : CodePoint)
  | escape (n : Nat)

def hexValue? (c : Char) : Option Nat :=
  if '0' ≤ c ∧ c ≤ '9' then some (c.toNat - '0'.toNat)
  else if 'a' ≤ c ∧ c ≤ 'f' then some (c.toNat - 'a'.toNat + 10)
  else if 'A' ≤ c ∧ c ≤ 'F' then some (c.toNat - 'A'.toNat + 10)
  else none

def readHex4 (a b c d : Char) : Option Nat := do
  let a ← hexValue? a
  let b ← hexValue? b
  let c ← hexValue? c
  let d ← hexValue? d
  return a * 4096 + b * 256 + c * 16 + d

/-- The code point a letter stands for after a backslash. -/
def readLetter : Char → Option CodePoint
  | '"' => some (.ofChar '"')
  | '\\' => some (.ofChar '\\')
  | '/' => some (.ofChar '/')
  | 'b' => some 0x08
  | 'f' => some 0x0c
  | 'n' => some 0x0a
  | 'r' => some 0x0d
  | 't' => some 0x09
  | _ => none

/-- The units up to the closing quote, and what follows it. -/
def scanUnits : List Char → Option (List CodeUnit × List Char)
  | [] => none
  | '"' :: rest => some ([], rest)
  | '\\' :: 'u' :: a :: b :: c :: d :: rest =>
    (readHex4 a b c d).bind fun n => (scanUnits rest).map fun r => (.escape n :: r.1, r.2)
  | '\\' :: letter :: rest => (readLetter letter).bind fun c => (scanUnits rest).map fun r => (.char c :: r.1, r.2)
  | c :: rest =>
    if c = '\\' ∨ c.toNat < 0x20 then none else (scanUnits rest).map fun r => (.char (.ofChar c) :: r.1, r.2)

def IsHigh (n : Nat) : Prop := 0xd800 ≤ n ∧ n ≤ 0xdbff
def IsLow (n : Nat) : Prop := 0xdc00 ≤ n ∧ n ≤ 0xdfff

instance (n : Nat) : Decidable (IsHigh n) := inferInstanceAs (Decidable (_ ∧ _))
instance (n : Nat) : Decidable (IsLow n) := inferInstanceAs (Decidable (_ ∧ _))

/-- The code points of the units: two escapes that are a surrogate pair are one. -/
def joinUnits : List CodeUnit → PyText
  | [] => []
  | .char c :: units => c :: joinUnits units
  | .escape n :: .escape m :: units =>
    if IsHigh n ∧ IsLow m then Fin.ofNat _ (0x10000 + ((n - 0xd800) * 1024 + (m - 0xdc00))) :: joinUnits units
    else Fin.ofNat _ n :: joinUnits (.escape m :: units)
  | .escape n :: units => Fin.ofNat _ n :: joinUnits units

/-- `scanstring`, from after the opening quote. -/
def scanText (cs : List Char) : Option (PyText × List Char) := (scanUnits cs).map fun r => (joinUnits r.1, r.2)

def scanFraction : List Char → List Char × List Char
  | '.' :: d :: rest =>
    if d.isDigit then ('.' :: d :: rest.takeWhile Char.isDigit, rest.dropWhile Char.isDigit) else ([], '.' :: d :: rest)
  | cs => ([], cs)

def scanSign : List Char → List Char × List Char
  | '+' :: rest => (['+'], rest)
  | '-' :: rest => (['-'], rest)
  | cs => ([], cs)

def scanExponent : List Char → List Char × List Char
  | [] => ([], [])
  | e :: rest =>
    if (e = 'e' ∨ e = 'E') ∧ (scanSign rest).2.takeWhile Char.isDigit ≠ [] then
      (e :: (scanSign rest).1 ++ (scanSign rest).2.takeWhile Char.isDigit, (scanSign rest).2.dropWhile Char.isDigit)
    else ([], e :: rest)

/-- The digits of a whole number: none follow a leading zero. -/
def scanDigits : List Char → Option (List Char × List Char)
  | '0' :: rest => some (['0'], rest)
  | d :: rest => if d.isDigit then some (d :: rest.takeWhile Char.isDigit, rest.dropWhile Char.isDigit) else none
  | [] => none

/-- A number without its sign. -/
def scanMagnitude (float : List Char → F) (sign : List Char) (cs : List Char) : Option (JsonValue F × List Char) :=
  (scanDigits cs).map fun whole =>
    let fraction := scanFraction whole.2
    let exponent := scanExponent fraction.2
    let magnitude : Int := Nat.ofDigitChars 10 whole.1 0
    if fraction.1 = [] ∧ exponent.1 = [] then (.int (if sign = [] then magnitude else -magnitude), exponent.2)
    else (.float (float (sign ++ whole.1 ++ fraction.1 ++ exponent.1)), exponent.2)

def scanNumber (float : List Char → F) : List Char → Option (JsonValue F × List Char)
  | '-' :: rest => scanMagnitude float ['-'] rest
  | cs => scanMagnitude float [] cs

namespace JsonHooks
variable (hooks : JsonHooks F ε)

def require {α : Type} : Option α → Except ε α
  | some a => .ok a
  | none => .error hooks.malformed

mutual
/-- `scan_once`. -/
def scanValue : Nat → List Char → Except ε (JsonValue F × List Char)
  | 0, _ => .error hooks.malformed
  | fuel + 1, cs =>
    match cs with
    | '"' :: rest => do
      let s ← hooks.require (scanText rest)
      return (.str s.1, s.2)
    | '{' :: rest =>
      match skipSpace rest with
      | '}' :: rest => do
        let fields ← hooks.pairs []
        return (.dict fields, rest)
      | rest => do
        let field ← scanField fuel rest
        let fields ← scanFields fuel field.2
        let fields' ← hooks.pairs (field.1 :: fields.1)
        return (.dict fields', fields.2)
    | '[' :: rest =>
      match skipSpace rest with
      | ']' :: rest => return (.list [], rest)
      | rest => do
        let item ← scanValue fuel rest
        let items ← scanItems fuel item.2
        return (.list (item.1 :: items.1), items.2)
    | 'n' :: 'u' :: 'l' :: 'l' :: rest => return (.null, rest)
    | 't' :: 'r' :: 'u' :: 'e' :: rest => return (.bool true, rest)
    | 'f' :: 'a' :: 'l' :: 's' :: 'e' :: rest => return (.bool false, rest)
    | 'N' :: 'a' :: 'N' :: rest => do
      let v ← hooks.constant ['N', 'a', 'N']
      return (v, rest)
    | 'I' :: 'n' :: 'f' :: 'i' :: 'n' :: 'i' :: 't' :: 'y' :: rest => do
      let v ← hooks.constant ['I', 'n', 'f', 'i', 'n', 'i', 't', 'y']
      return (v, rest)
    | '-' :: 'I' :: 'n' :: 'f' :: 'i' :: 'n' :: 'i' :: 't' :: 'y' :: rest => do
      let v ← hooks.constant ['-', 'I', 'n', 'f', 'i', 'n', 'i', 't', 'y']
      return (v, rest)
    | cs => hooks.require (scanNumber hooks.float cs)

/-- The items after the first one, to the closing bracket. -/
def scanItems : Nat → List Char → Except ε (List (JsonValue F) × List Char)
  | 0, _ => .error hooks.malformed
  | fuel + 1, cs =>
    match skipSpace cs with
    | ']' :: rest => return ([], rest)
    | ',' :: rest => do
      let item ← scanValue fuel (skipSpace rest)
      let items ← scanItems fuel item.2
      return (item.1 :: items.1, items.2)
    | _ => .error hooks.malformed

/-- A key and its value. -/
def scanField : Nat → List Char → Except ε ((PyText × JsonValue F) × List Char)
  | 0, _ => .error hooks.malformed
  | fuel + 1, cs =>
    match cs with
    | '"' :: rest => do
      let key ← hooks.require (scanText rest)
      match skipSpace key.2 with
      | ':' :: rest => do
        let value ← scanValue fuel (skipSpace rest)
        return ((key.1, value.1), value.2)
      | _ => .error hooks.malformed
    | _ => .error hooks.malformed

/-- The fields after the first one, to the closing brace. -/
def scanFields : Nat → List Char → Except ε (JsonDict F × List Char)
  | 0, _ => .error hooks.malformed
  | fuel + 1, cs =>
    match skipSpace cs with
    | '}' :: rest => return ([], rest)
    | ',' :: rest => do
      let field ← scanField fuel (skipSpace rest)
      let fields ← scanFields fuel field.2
      return (field.1 :: fields.1, fields.2)
    | _ => .error hooks.malformed
end

/-- `json.loads`. -/
def loads (cs : List Char) : Except ε (JsonValue F) := do
  let v ← scanValue hooks (cs.length + 1) (skipSpace cs)
  if skipSpace v.2 = [] then return v.1 else .error hooks.malformed

end JsonHooks

/-! Reading shortens the text, so that fuel for each of its characters is enough. -/

theorem skipSpace_length_le (cs : List Char) : (skipSpace cs).length ≤ cs.length :=
  (List.dropWhile_sublist _).length_le

theorem scanUnits_shortens {cs : List Char} {r : List CodeUnit × List Char} (h : scanUnits cs = some r) :
    r.2.length < cs.length := by
  fun_induction scanUnits cs generalizing r with
  | case1 => cases h
  | case2 rest =>
    cases h
    simp
  | case3 a b c d rest ih =>
    obtain ⟨n, -, h⟩ := Option.bind_eq_some_iff.mp h
    obtain ⟨r', hr', rfl⟩ := Option.map_eq_some_iff.mp h
    have := ih hr'
    simp only [List.length_cons]
    omega
  | case4 letter rest _ ih =>
    obtain ⟨n, -, h⟩ := Option.bind_eq_some_iff.mp h
    obtain ⟨r', hr', rfl⟩ := Option.map_eq_some_iff.mp h
    have := ih hr'
    simp only [List.length_cons]
    omega
  | case5 => cases h
  | case6 c rest _ _ _ _ ih =>
    obtain ⟨r', hr', rfl⟩ := Option.map_eq_some_iff.mp h
    have := ih hr'
    simp only [List.length_cons]
    omega

theorem scanText_shortens {cs : List Char} {r : PyText × List Char} (h : scanText cs = some r) : r.2.length < cs.length := by
  obtain ⟨r', hr', rfl⟩ := Option.map_eq_some_iff.mp h
  exact scanUnits_shortens hr'

theorem scanFraction_length_le (cs : List Char) : (scanFraction cs).2.length ≤ cs.length := by
  unfold scanFraction
  split
  · split
    · rename_i rest _
      have hdrop := (List.dropWhile_sublist Char.isDigit (l := rest)).length_le
      simp only [List.length_cons]
      omega
    · exact le_rfl
  · exact le_rfl

theorem scanSign_length_le (cs : List Char) : (scanSign cs).2.length ≤ cs.length := by
  unfold scanSign
  split <;> simp

theorem scanExponent_length_le (cs : List Char) : (scanExponent cs).2.length ≤ cs.length := by
  unfold scanExponent
  split
  · exact le_rfl
  · rename_i e rest
    split
    · have hsign := scanSign_length_le rest
      have hdrop := (List.dropWhile_sublist Char.isDigit (l := (scanSign rest).2)).length_le
      simp only [List.length_cons]
      omega
    · exact le_rfl

theorem scanDigits_shortens {cs : List Char} {r : List Char × List Char} (h : scanDigits cs = some r) :
    r.2.length < cs.length := by
  unfold scanDigits at h
  split at h
  · cases h
    simp
  · split at h
    · cases h
      exact Nat.lt_succ_of_le (List.dropWhile_sublist _).length_le
    · cases h
  · cases h

theorem scanMagnitude_shortens {float : List Char → F} {sign cs : List Char} {r : JsonValue F × List Char}
    (h : scanMagnitude float sign cs = some r) : r.2.length < cs.length := by
  obtain ⟨whole, hwhole, rfl⟩ := Option.map_eq_some_iff.mp h
  have hdigits := scanDigits_shortens hwhole
  have hfraction := scanFraction_length_le whole.2
  have hexponent := scanExponent_length_le (scanFraction whole.2).2
  dsimp only
  split <;> (dsimp only; omega)

theorem scanNumber_shortens {float : List Char → F} {cs : List Char} {r : JsonValue F × List Char}
    (h : scanNumber float cs = some r) : r.2.length < cs.length := by
  unfold scanNumber at h
  split at h
  · exact Nat.lt_succ_of_lt (scanMagnitude_shortens h)
  · exact scanMagnitude_shortens h

namespace JsonHooks
variable {hooks : JsonHooks F ε}

theorem require_eq_ok {α : Type} {x : Option α} {a : α} : hooks.require x = .ok a ↔ x = some a := by
  cases x <;> simp [require]

theorem scan_shortens (fuel : Nat) :
    (∀ cs r, hooks.scanValue fuel cs = .ok r → r.2.length < cs.length) ∧
    (∀ cs r, hooks.scanItems fuel cs = .ok r → r.2.length < cs.length) ∧
    (∀ cs r, hooks.scanField fuel cs = .ok r → r.2.length < cs.length) ∧
    ∀ cs r, hooks.scanFields fuel cs = .ok r → r.2.length < cs.length := by
  induction fuel with
  | zero =>
    refine ⟨?_, ?_, ?_, ?_⟩
    all_goals intro cs r h; cases h
  | succ fuel ih =>
    obtain ⟨hvalue, hitems, hfield, hfields⟩ := ih
    refine ⟨?_, ?_, ?_, ?_⟩
    · intro cs r h
      unfold scanValue at h
      split at h
      · obtain ⟨s, hs, h⟩ := bind_eq_ok.mp h
        cases h
        exact Nat.lt_succ_of_lt (scanText_shortens (require_eq_ok.mp hs))
      · rename_i rest
        have hskip := skipSpace_length_le rest
        split at h
        · rename_i he
          obtain ⟨fields, -, h⟩ := bind_eq_ok.mp h
          cases h
          rw [he] at hskip
          simp only [List.length_cons] at hskip ⊢
          omega
        · obtain ⟨field, hf, h⟩ := bind_eq_ok.mp h
          obtain ⟨fields, hfs, h⟩ := bind_eq_ok.mp h
          obtain ⟨fields', -, h⟩ := bind_eq_ok.mp h
          cases h
          have hfirst := hfield _ _ hf
          have hrest := hfields _ _ hfs
          simp only [List.length_cons]
          omega
      · rename_i rest
        have hskip := skipSpace_length_le rest
        split at h
        · rename_i he
          cases h
          rw [he] at hskip
          simp only [List.length_cons] at hskip ⊢
          omega
        · obtain ⟨item, hi, h⟩ := bind_eq_ok.mp h
          obtain ⟨items, his, h⟩ := bind_eq_ok.mp h
          cases h
          have hfirst := hvalue _ _ hi
          have hrest := hitems _ _ his
          simp only [List.length_cons]
          omega
      iterate 3
        · cases h
          simp only [List.length_cons]
          omega
      iterate 3
        · obtain ⟨v, -, h⟩ := bind_eq_ok.mp h
          cases h
          simp only [List.length_cons]
          omega
      · exact scanNumber_shortens (require_eq_ok.mp h)
    · intro cs r h
      rw [scanItems] at h
      have hskip := skipSpace_length_le cs
      split at h
      · rename_i he
        cases h
        rw [he] at hskip
        exact hskip
      · rename_i rest he
        obtain ⟨item, hi, h⟩ := bind_eq_ok.mp h
        obtain ⟨items, his, h⟩ := bind_eq_ok.mp h
        cases h
        have hfirst := hvalue _ _ hi
        have hrest := hitems _ _ his
        have hinner := skipSpace_length_le rest
        rw [he, List.length_cons] at hskip
        dsimp only
        omega
      · cases h
    · intro cs r h
      unfold scanField at h
      split at h
      · rename_i rest
        obtain ⟨key, hk, h⟩ := bind_eq_ok.mp h
        have hkey := scanText_shortens (require_eq_ok.mp hk)
        have hskip := skipSpace_length_le key.2
        split at h
        · rename_i rest' he
          obtain ⟨value, hv, h⟩ := bind_eq_ok.mp h
          cases h
          have hrest := hvalue _ _ hv
          have hinner := skipSpace_length_le rest'
          rw [he, List.length_cons] at hskip
          simp only [List.length_cons]
          omega
        · cases h
      · cases h
    · intro cs r h
      rw [scanFields] at h
      have hskip := skipSpace_length_le cs
      split at h
      · rename_i he
        cases h
        rw [he] at hskip
        exact hskip
      · rename_i rest he
        obtain ⟨field, hf, h⟩ := bind_eq_ok.mp h
        obtain ⟨fields, hfs, h⟩ := bind_eq_ok.mp h
        cases h
        have hfirst := hfield _ _ hf
        have hrest := hfields _ _ hfs
        have hinner := skipSpace_length_le rest
        rw [he, List.length_cons] at hskip
        dsimp only
        omega
      · cases h

/-- One step more of fuel changes nothing once there is a step for each character. -/
theorem scan_succ (fuel : Nat) :
    (∀ cs, cs.length < fuel → hooks.scanValue (fuel + 1) cs = hooks.scanValue fuel cs) ∧
    (∀ cs, cs.length < fuel → hooks.scanItems (fuel + 1) cs = hooks.scanItems fuel cs) ∧
    (∀ cs, cs.length < fuel → hooks.scanField (fuel + 1) cs = hooks.scanField fuel cs) ∧
    ∀ cs, cs.length < fuel → hooks.scanFields (fuel + 1) cs = hooks.scanFields fuel cs := by
  induction fuel with
  | zero =>
    refine ⟨?_, ?_, ?_, ?_⟩
    all_goals intro cs h; omega
  | succ fuel ih =>
    obtain ⟨hvalue, hitems, hfield, hfields⟩ := ih
    obtain ⟨svalue, -, sfield, -⟩ := @scan_shortens F ε hooks fuel
    refine ⟨?_, ?_, ?_, ?_⟩
    · intro cs hlength
      unfold scanValue
      split
      · rfl
      · rename_i rest
        have hskip := skipSpace_length_le rest
        rw [List.length_cons] at hlength
        split
        · rfl
        · refine bind_congr_ok (hfield _ (by omega)) fun field hf => ?_
          have hfirst := sfield _ _ hf
          exact bind_congr_ok (hfields _ (by omega)) fun _ _ => rfl
      · rename_i rest
        have hskip := skipSpace_length_le rest
        rw [List.length_cons] at hlength
        split
        · rfl
        · refine bind_congr_ok (hvalue _ (by omega)) fun item hi => ?_
          have hfirst := svalue _ _ hi
          exact bind_congr_ok (hitems _ (by omega)) fun _ _ => rfl
      all_goals rfl
    · intro cs hlength
      unfold scanItems
      have hskip := skipSpace_length_le cs
      split
      · rfl
      · rename_i rest he
        have hinner := skipSpace_length_le rest
        rw [he, List.length_cons] at hskip
        refine bind_congr_ok (hvalue _ (by omega)) fun item hi => ?_
        have hfirst := svalue _ _ hi
        exact bind_congr_ok (hitems _ (by omega)) fun _ _ => rfl
      · rfl
    · intro cs hlength
      unfold scanField
      split
      · rename_i rest
        refine bind_congr_ok rfl fun key hk => ?_
        have hkey := scanText_shortens (require_eq_ok.mp hk)
        have hskip := skipSpace_length_le key.2
        rw [List.length_cons] at hlength
        split
        · rename_i rest' he
          have hinner := skipSpace_length_le rest'
          rw [he, List.length_cons] at hskip
          exact bind_congr_ok (hvalue _ (by omega)) fun _ _ => rfl
        · rfl
      · rfl
    · intro cs hlength
      unfold scanFields
      have hskip := skipSpace_length_le cs
      split
      · rfl
      · rename_i rest he
        have hinner := skipSpace_length_le rest
        rw [he, List.length_cons] at hskip
        refine bind_congr_ok (hfield _ (by omega)) fun field hf => ?_
        have hfirst := sfield _ _ hf
        exact bind_congr_ok (hfields _ (by omega)) fun _ _ => rfl
      · rfl

/-- Reading never stops for want of fuel: any more of it gives the same. -/
theorem scanValue_fuel {fuel : Nat} {cs : List Char} (h : cs.length < fuel) :
    hooks.scanValue fuel cs = hooks.scanValue (cs.length + 1) cs := by
  induction fuel, h using Nat.le_induction with
  | base => rfl
  | succ fuel h ih => rw [(scan_succ fuel).1 cs h, ih]

end JsonHooks
end Autolean.Text
