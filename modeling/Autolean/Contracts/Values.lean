import Autolean.Contracts.Json
import Autolean.Text.Trimming

/-! The field types the contract models share: texts under their validators, digests,
durable identifiers and points in time. -/
namespace Autolean.Contracts
open Text

/-- `str.isspace` of one character. -/
def isSpace (c : Char) : Bool := (CodePoint.ofChar c).isSpace

theorem not_isSpace_of_isAlphanum {c : Char} (h : c.isAlphanum = true) : isSpace c = false := by
  have hA : 'A'.toNat = 65 := rfl
  have hZ : 'Z'.toNat = 90 := rfl
  have ha : 'a'.toNat = 97 := rfl
  have hz : 'z'.toNat = 122 := rfl
  have h0 : '0'.toNat = 48 := rfl
  have h9 : '9'.toNat = 57 := rfl
  simp only [Char.isAlphanum, Char.isAlpha, Char.isUpper, Char.isLower, Char.isDigit, Bool.or_eq_true,
    Bool.and_eq_true, decide_eq_true_eq, ge_iff_le, UInt32.le_iff_toNat_le, Char.toNat_val] at h
  unfold isSpace CodePoint.isSpace
  simp only [Bool.or_eq_false_iff, Bool.and_eq_false_iff, decide_eq_false_iff_not]
  rw [CodePoint.ofChar_val]
  omega

/-- `not value.strip()`. -/
def Blank (s : String) : Prop := s.toList.all isSpace = true

instance (s : String) : Decidable (Blank s) := inferInstanceAs (Decidable (_ = true))

/-- `value.rstrip()`. -/
def rstrip (value : String) : String := String.ofList (value.toList.rdropWhile isSpace)

/-- `^[0-9a-f]{64}$`. -/
def IsSha256 (s : String) : Prop := IsHex 64 (PyText.of s)

instance (s : String) : Decidable (IsSha256 s) := inferInstanceAs (Decidable (IsHex ..))

theorem IsSha256.length {s : String} (h : IsSha256 s) : s.toList.length = 64 := by
  have hlength := h.1
  rwa [PyText.of, PyText.ofChars, List.length_map] at hlength

theorem IsSha256.hexadecimal {s : String} (h : IsSha256 s) {c : Char} (hc : c ∈ s.toList) :
    isHexadecimal (CodePoint.ofChar c) = true :=
  List.all_eq_true.mp h.2 _ (List.mem_map_of_mem hc)

theorem ne_empty_of_not_blank {s : String} (h : ¬ Blank s) : s ≠ "" := by
  rintro rfl
  exact h rfl

theorem IsSha256.ne_empty {s : String} (h : IsSha256 s) : s ≠ "" := by
  rintro rfl
  exact absurd h.length (by decide)

/-- A text field with `min_length=1`. -/
structure Text where
  value : String
  nonempty : value ≠ ""
  deriving DecidableEq

/-- A SHA-256 digest. The kind of a `DigestV1` field is fixed by the validator of the
model it stands in, so digests that the code compares always have one kind. -/
structure Digest where
  value : String
  isSha256 : IsSha256 value
  deriving DecidableEq

theorem isHexadecimal_digitChar (n : Nat) : isHexadecimal (CodePoint.ofChar (Nat.digitChar (n % 16))) = true := by
  have hall : ∀ d : Fin 16, isHexadecimal (CodePoint.ofChar (Nat.digitChar d)) = true := by decide
  exact hall ⟨n % 16, Nat.mod_lt n (by decide)⟩

/-- The digest that repeats one hexadecimal digit. -/
def Digest.repeated (n : Nat) : Digest where
  value := String.ofList (List.replicate 64 (Nat.digitChar (n % 16)))
  isSha256 := by
    rw [IsSha256, PyText.of, PyText.ofChars, String.toList_ofList, List.map_replicate]
    exact isHex_repeated 64 (isHexadecimal_digitChar n)

/-- `^urn:autolean:v1:[a-z0-9_.-]+:[0-9a-f-]{36}$`, the namespace at most 128 long. -/
def IsStableIdentifier (s : String) : Prop :=
  let embedded := s.toList.drop 16
  let namespaceLength := embedded.length - 37
  s.toList.take 16 = "urn:autolean:v1:".toList ∧ 37 < embedded.length ∧ namespaceLength ≤ 128 ∧
    (embedded.take namespaceLength).all
      (fun c => ('a' ≤ c && c ≤ 'z') || c.isDigit || c = '_' || c = '.' || c = '-') = true ∧
    (embedded.drop namespaceLength).head? = some ':' ∧
    (embedded.drop (namespaceLength + 1)).all
      (fun c => c.isDigit || ('a' ≤ c && c ≤ 'f') || c = '-') = true

instance (s : String) : Decidable (IsStableIdentifier s) := by
  unfold IsStableIdentifier
  infer_instance

/-- A durable identity. Its namespace is the one embedded in the value. -/
structure StableIdentifier where
  value : String
  shaped : IsStableIdentifier value
  deriving DecidableEq

theorem StableIdentifier.not_blank (i : StableIdentifier) : ¬ Blank i.value := by
  intro h
  obtain ⟨hp, -⟩ := i.shaped
  have hu : 'u' ∈ i.value.toList := List.mem_of_mem_take (i := 16) (by rw [hp]; decide)
  exact absurd (List.all_eq_true.mp h 'u' hu) (by decide)

/-- `^sha256:[0-9a-f]{64}$`. -/
def IsImageDigest (s : String) : Prop :=
  s.toList.take 7 = "sha256:".toList ∧ IsSha256 (String.ofList (s.toList.drop 7))

instance (s : String) : Decidable (IsImageDigest s) := inferInstanceAs (Decidable (_ ∧ _))

structure ImageDigest where
  value : String
  shaped : IsImageDigest value
  deriving DecidableEq

/-- A point in time, in microseconds since the epoch. -/
abbrev Instant := Int

/-- A timezone-aware `datetime`: the instant it denotes and its offset from UTC in seconds. -/
structure Datetime where
  instant : Instant
  utcOffset : Int
  deriving DecidableEq

/-- `value.astimezone(UTC)`. -/
def Datetime.astimezoneUtc (d : Datetime) : Datetime := ⟨d.instant, 0⟩

/-- `^[A-Za-z0-9][A-Za-z0-9._-]{0,127}$`. -/
def IsKeyId (s : String) : Prop :=
  Headed Char.isAlphanum (fun c => c.isAlphanum || c = '.' || c = '_' || c = '-') 128 s.toList

instance (s : String) : Decidable (IsKeyId s) := inferInstanceAs (Decidable (Headed ..))

theorem IsKeyId.bounded {s : String} (h : IsKeyId s) : ¬ Blank s ∧ s.toList.length ≤ 128 := by
  refine ⟨fun hb => ?_, h.1⟩
  obtain ⟨-, hhead, -⟩ := h
  unfold Blank at hb
  cases hs : s.toList with
  | nil => simp [hs] at hhead
  | cons c rest =>
    rw [hs] at hb hhead
    have hc : isSpace c = true := List.all_eq_true.mp hb c List.mem_cons_self
    rw [not_isSpace_of_isAlphanum (by simpa using hhead)] at hc
    cases hc

/-- `^[A-Za-z0-9._-]{16,256}$`. -/
def IsAttestationNonce (s : String) : Prop :=
  16 ≤ s.toList.length ∧ s.toList.length ≤ 256 ∧
    s.toList.all (fun c => c.isAlphanum || c = '.' || c = '_' || c = '-') = true

instance (s : String) : Decidable (IsAttestationNonce s) := inferInstanceAs (Decidable (_ ∧ _ ∧ _))

/-- `^[A-Za-z0-9][A-Za-z0-9._:-]{0,255}$`. -/
def IsSafeId (s : String) : Prop :=
  Headed Char.isAlphanum (fun c => c.isAlphanum || c = '.' || c = '_' || c = ':' || c = '-') 256 s.toList

instance (s : String) : Decidable (IsSafeId s) := inferInstanceAs (Decidable (Headed ..))

end Autolean.Contracts
