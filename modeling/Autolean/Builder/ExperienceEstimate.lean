import Autolean.Builder.Experience

/-! The token estimate of a context pack: the loop ends, for the text that states an estimate
grows with it, and no faster than its digits. -/
namespace Autolean.Builder.Experience
open Text
variable {F : Type} {py : Python F}

theorem settle_fixed {estimate : Nat → Nat} {fuel e n : Nat} (h : settle estimate fuel e = some n) : estimate n = n := by
  induction fuel generalizing e with
  | zero => cases h
  | succ fuel ih =>
    rw [settle] at h
    split_ifs at h with hfixed
    · cases h
      exact hfixed
    · exact ih h

/-- From below, a growing estimate that stays under a bound settles before its fuel is spent. -/
theorem settle_isSome {estimate : Nat → Nat} (hmono : Monotone estimate) {bound : Nat} (hbound : estimate bound ≤ bound)
    {fuel e : Nat} (he : e ≤ estimate e) (hle : e ≤ bound) (hfuel : bound < fuel + e) :
    (settle estimate fuel e).isSome := by
  induction fuel generalizing e with
  | zero => omega
  | succ fuel ih =>
    rw [settle]
    split_ifs with hfixed
    · rfl
    · have hnext : estimate e ≤ bound := (hmono hle).trans hbound
      exact ih (hmono he) hnext (by omega)

/-- A loop that ended ends with the same when there is more fuel. -/
theorem settle_more {estimate : Nat → Nat} {fuel e n : Nat} (h : settle estimate fuel e = some n) (more : Nat) :
    settle estimate (fuel + more) e = some n := by
  induction fuel generalizing e with
  | zero => cases h
  | succ fuel ih =>
    rw [Nat.succ_add, settle]
    rw [settle] at h
    split_ifs at h ⊢
    · exact h
    · exact ih h

/-- How much fuel there is makes no difference to what the loop ends with. -/
theorem settle_unique {estimate : Nat → Nat} {fuel fuel' e m n : Nat} (hm : settle estimate fuel e = some m)
    (hn : settle estimate fuel' e = some n) : m = n := by
  have hlong := settle_more hm fuel'
  rw [Nat.add_comm, settle_more hn fuel] at hlong
  exact (Option.some_inj.mp hlong).symm

/-- No estimate that is enough is passed over on the way up to the one the loop ends with. -/
theorem settle_le {estimate : Nat → Nat} (hmono : Monotone estimate) {fuel e m n : Nat} (h : settle estimate fuel e = some n)
    (hm : estimate m ≤ m) (hle : e ≤ m) : n ≤ m := by
  induction fuel generalizing e with
  | zero => cases h
  | succ fuel ih =>
    rw [settle] at h
    split_ifs at h with hfixed
    · cases h
      exact hle
    · apply ih h
      calc
        estimate e ≤ estimate m := hmono hle
        _ ≤ m := hm

/-! How long the text is -/

theorem orderedInsert_hole (key : PyText) (f : PyText × JsonValue F) (front back : JsonDict F) :
    ∃ front' back' : JsonDict F, ∀ v, (front ++ (key, v) :: back).orderedInsert (fun a b => a.1 ≤ b.1) f =
      front' ++ (key, v) :: back' := by
  induction front with
  | nil =>
    by_cases h : f.1 ≤ key
    · exact ⟨[f], back, fun v => by simp [h]⟩
    · exact ⟨[], back.orderedInsert (fun a b => a.1 ≤ b.1) f, fun v => by simp [h]⟩
  | cons g front ih =>
    by_cases h : f.1 ≤ g.1
    · exact ⟨f :: g :: front, back, fun v => by simp [h]⟩
    · obtain ⟨front', back', he⟩ := ih
      refine ⟨g :: front', back', fun v => ?_⟩
      rw [List.cons_append, List.orderedInsert_cons, if_neg h, he, List.cons_append]

/-- The last field of a dict has a place among the others that its value has no part in. -/
theorem insertionSort_hole (key : PyText) (d : JsonDict F) :
    ∃ front back : JsonDict F, ∀ v, (d ++ [(key, v)]).insertionSort (fun a b => a.1 ≤ b.1) = front ++ (key, v) :: back := by
  induction d with
  | nil => exact ⟨[], [], fun v => rfl⟩
  | cons f d ih =>
    obtain ⟨front, back, he⟩ := ih
    obtain ⟨front', back', he'⟩ := orderedInsert_hole key f front back
    exact ⟨front', back', fun v => by rw [List.cons_append, List.insertionSort_cons, he, he']⟩

theorem printFields_hole (floatText : F → List Char) (key : PyText) (front back : JsonDict F) :
    ∃ before after : List Char, ∀ v, JsonTree.printFields floatText (front ++ (key, v) :: back) =
      before ++ (v.print floatText ++ after) := by
  induction front with
  | nil => exact ⟨',' :: (printText key ++ [':']), JsonTree.printFields floatText back, fun v => by simp [JsonTree.printFields]⟩
  | cons f front ih =>
    obtain ⟨before, after, he⟩ := ih
    exact ⟨',' :: (printText f.1 ++ ':' :: (f.2.print floatText ++ before)), after, fun v => by simp [JsonTree.printFields, he]⟩

theorem print_hole (floatText : F → List Char) (key : PyText) (front back : JsonDict F) :
    ∃ before after : List Char, ∀ v, (JsonTree.dict (front ++ (key, v) :: back)).print floatText =
      before ++ (v.print floatText ++ after) := by
  cases front with
  | nil => exact ⟨'{' :: (printText key ++ [':']), JsonTree.printFields floatText back, fun v => by simp [JsonTree.print]⟩
  | cons f front =>
    obtain ⟨before, after, he⟩ := printFields_hole floatText key front back
    exact ⟨'{' :: (printText f.1 ++ ':' :: (f.2.print floatText ++ before)), after, fun v => by simp [JsonTree.print, he]⟩

/-- All but the digits of the estimate stays as it is. -/
theorem dumps_withEstimate (floatText : F → List Char) (d : JsonDict F) :
    ∃ before after : List Char, ∀ e : Nat, (JsonTree.dict (withEstimate d e)).dumps floatText =
      before ++ (Nat.toDigits 10 e ++ after) := by
  obtain ⟨front, back, he⟩ := insertionSort_hole (PyText.of "estimated_tokens") (d.map fun f => (f.1, f.2.sortKeys))
  obtain ⟨before, after, hprint⟩ := print_hole floatText (PyText.of "estimated_tokens") front back
  refine ⟨before, after, fun e => ?_⟩
  have hsort : JsonDict.sortKeys (withEstimate d e) = front ++ (PyText.of "estimated_tokens", .int e) :: back := by
    rw [JsonDict.sortKeys, withEstimate, List.map_append, ← he]
    simp [JsonDict.of]
  have hint : printInt (e : Int) = Nat.toDigits 10 e := by simp [printInt]
  rw [JsonTree.dumps, JsonTree.sortKeys_dict, hsort, hprint, JsonTree.print, hint]

/-- The bytes a text takes. -/
def width (cs : List Char) : Nat := (cs.map Char.utf8Size).sum

theorem width_append (a b : List Char) : width (a ++ b) = width a + width b := by
  rw [width, List.map_append, List.sum_append, width, width]

theorem width_digits {digits : List Char} (h : ∀ c ∈ digits, c.isDigit = true) : width digits = digits.length := by
  have hone : ∀ c ∈ digits, c.utf8Size = 1 := by
    intro c hc
    have hdigit := h c hc
    rw [Char.isDigit, Bool.and_eq_true, decide_eq_true_eq, decide_eq_true_eq] at hdigit
    have hle : c.val ≤ 57 := hdigit.2
    rw [Char.utf8Size_eq_one_iff, UInt32.le_iff_toNat_le]
    exact (UInt32.le_iff_toNat_le.mp hle).trans (by decide)
  rw [width, List.map_congr_left hone, List.map_const', List.sum_replicate_nat, Nat.mul_one]

theorem size_utf8Encode (cs : List Char) : cs.utf8Encode.size = width cs := by
  induction cs with
  | nil => rfl
  | cons c cs ih =>
    rw [List.utf8Encode_cons, ByteArray.size_append, ih, List.utf8Encode_singleton]
    simp [width]

theorem size_canonicalJson (value : JsonValue F) :
    (canonicalJson py value).size = width (value.dumps py.floatText ++ ['\n']) := by
  rw [canonicalJson, String.toUTF8_eq_toByteArray, String.toByteArray_ofList, size_utf8Encode]

theorem length_toDigits_mono {m n : Nat} (h : m ≤ n) : (Nat.toDigits 10 m).length ≤ (Nat.toDigits 10 n).length := by
  have hten : 1 < 10 := by decide
  have hn := (Nat.length_toDigits_le_iff (n := n) hten Nat.length_toDigits_pos).mp le_rfl
  exact (Nat.length_toDigits_le_iff hten Nat.length_toDigits_pos).mpr (h.trans_lt hn)

theorem length_toDigits_le {n : Nat} (h : 0 < n) : (Nat.toDigits 10 n).length ≤ n :=
  (Nat.length_toDigits_le_iff (by decide) h).mpr (Nat.lt_pow_self (by decide))

/-- The size of the text is that of its digits and a constant. -/
theorem size_withEstimate (d : JsonDict F) :
    ∃ rest, ∀ e : Nat, (canonicalJson py (.dict (withEstimate d e))).size = rest + (Nat.toDigits 10 e).length := by
  obtain ⟨before, after, he⟩ := dumps_withEstimate py.floatText d
  refine ⟨width before + width after + width ['\n'], fun e => ?_⟩
  have hdigits : width (Nat.toDigits 10 e) = (Nat.toDigits 10 e).length :=
    width_digits fun c hc => Nat.isDigit_of_mem_toDigits (by decide) (by decide) hc
  rw [size_canonicalJson, he]
  simp only [width_append, hdigits]
  omega

theorem tokensAt_mono (d : JsonDict F) : Monotone (tokensAt py d) := by
  obtain ⟨rest, hsize⟩ := @size_withEstimate F py d
  intro m n h
  have hdigits := length_toDigits_mono h
  simp only [tokensAt, hsize]
  omega

/-- The loop ends with an estimate, and it is that of the text that states it. -/
theorem estimatePackTokens_isSome (d : JsonDict F) : ∃ n, estimatePackTokens py d = some n ∧ tokensAt py d n = n := by
  obtain ⟨rest, hsize⟩ := @size_withEstimate F py d
  have hmono : Monotone (tokensAt py d) := tokensAt_mono d
  have hzero := hsize 0
  have hsome : (estimatePackTokens py d).isSome := by
    have hbound : tokensAt py d (rest + 1) ≤ rest + 1 := by
      have hlength := length_toDigits_le (n := rest + 1) (by omega)
      simp only [tokensAt, hsize]
      omega
    refine settle_isSome hmono hbound (Nat.zero_le _) (Nat.zero_le _) ?_
    rw [← Nat.cast_zero (R := Int), hzero]
    simp
  obtain ⟨n, hn⟩ := Option.isSome_iff_exists.mp hsome
  exact ⟨n, hn, settle_fixed hn⟩

theorem estimatePackTokens_of_settle (fuel : Nat) {d : JsonDict F} {n : Nat} (h : settle (tokensAt py d) fuel 0 = some n) :
    estimatePackTokens py d = some n := by
  obtain ⟨m, hm, -⟩ := @estimatePackTokens_isSome F py d
  rw [hm, settle_unique hm h]

/-- The loop ends, with the least estimate that is a quarter of the length of the pack that
states it, rounded up. -/
theorem estimatePackTokens_least (p : PackFields py) :
    ∃ n, (∃ fuel, ∀ more, settle (tokensAt py p.payloadWithoutEstimate) (fuel + more) 0 = some n) ∧
      estimatePackTokens py p.payloadWithoutEstimate = some n ∧
      IsLeast {e : Nat | e = ({ p with estimatedTokens := (e : Int) }.render.size + 3) / 4} n := by
  obtain ⟨n, hn, hfixed⟩ := @estimatePackTokens_isSome F py p.payloadWithoutEstimate
  refine ⟨n, ⟨_, fun more => settle_more hn more⟩, hn, hfixed.symm, ?_⟩
  intro m hm
  have hstated : tokensAt py p.payloadWithoutEstimate m = m := hm.symm
  exact settle_le (tokensAt_mono _) hn hstated.le (Nat.zero_le m)

theorem tokensAt_eq_width (d : JsonDict F) :
    tokensAt py d = fun e : Nat => (width ((JsonTree.dict (withEstimate d e)).dumps py.floatText ++ ['\n']) + 3) / 4 := by
  funext e
  rw [tokensAt, size_canonicalJson]

end Autolean.Builder.Experience
