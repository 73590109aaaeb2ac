import PyGridGain.Lib.Decimal
import PyGridGain.Utils.JavaHash

/-! The hash code of a decimal number. The server takes it from the 32-bit words of the
coefficient; the client splits a large coefficient into words itself, and stops at a word
that is not larger than one. -/

namespace PyGridGain

def MAX_LONG : ℕ := 9223372036854775807

def LONG_MASK : ℤ := 0xffffffff

/-- `ctypes.c_int(value).value`. -/
def cInt (value : ℤ) : ℤ := signed 4 (twos 4 value)

/-- The list `magnitude`: `elem` is the value shifted right by `order`, and the loop goes on
while it is larger than one. -/
def magnitudeWords : ℕ → ℕ → List ℤ
  | 0, _ => []
  | n + 1, elem => if 1 < elem then magnitudeWords n (elem >>> 32) ++ [cInt elem] else []

/-- The variable `int_hash` of `decimal_hashcode`. -/
def intHash (value : ℕ) : ℤ :=
  if value < MAX_LONG then
    Int.land ((unsignedLong value >>> 32 : ℕ) * 31 + Int.land value LONG_MASK) LONG_MASK
  else
    (magnitudeWords (Nat.log2 value + 1) value).foldl
      (fun h v => Int.land (31 * h + Int.land v LONG_MASK) LONG_MASK) 0

/-- `decimal_hashcode`; normalizing raises where the number is out of range. -/
def decimalHashcode (value : Decimal) : Except DecimalError ℤ := do
  let n ← DecimalContext.default.normalize value
  let sign : ℤ := if n.negative then -1 else 1
  return cInt (31 * intHash (intOfDigits n.digits) * sign - n.exp)

/-! ### `BigDecimal.hashCode` -/

/-- The 32-bit words of a magnitude, the most significant first. -/
def bigIntegerWords (u : ℕ) : List ℤ := (Nat.digits (2 ^ 32) u).reverse.map Nat.cast

/-- `BigDecimal.hashCode` of a normalized number. -/
def javaDecimalHashCode (d : Decimal) : ℤ :=
  (31 * (if d.negative then -1 else 1) * poly31 0 (bigIntegerWords d.coeff) - d.exp).bmod (2 ^ 32)

/-! ### Word by word -/

theorem cInt_eq (v : ℤ) : cInt v = v.bmod (2 ^ 32) := by
  have hlt : twos 4 v < 2 ^ 32 := twos_lt 4 v
  have htwos : (BitVec.ofInt 32 v).toNat = twos 4 v := by
    rw [BitVec.toNat_ofInt]
    rfl
  rw [← BitVec.toInt_ofInt, BitVec.toInt_eq_toNat_cond, htwos, cInt, signed]
  norm_num

theorem ofInt_land_mask (x : ℤ) : BitVec.ofInt 32 (Int.land x LONG_MASK) = BitVec.ofInt 32 x := by
  apply BitVec.eq_of_getLsbD_eq
  intro i hi
  have hmask : (Int.land x LONG_MASK).testBit i = x.testBit i := testBit_land_mask x (n := 32) hi
  rw [getLsbD_ofInt, getLsbD_ofInt, hmask]

theorem foldl_mask_modEq (words : List ℤ) :
    words.foldl (fun h v => Int.land (31 * h + Int.land v LONG_MASK) LONG_MASK) 0 ≡
      poly31 0 words [ZMOD 2 ^ 32] := by
  rw [← ofInt_eq_iff, ofInt_poly31, poly31Register, List.foldl_map]
  symm
  apply List.foldl_hom
  intro h v
  rw [ofInt_land_mask, BitVec.ofInt_add, BitVec.ofInt_mul, ofInt_land_mask]
  rfl

theorem poly31_bigIntegerWords {u : ℕ} (h : 0 < u) :
    poly31 0 (bigIntegerWords u) =
      31 * poly31 0 (bigIntegerWords (u / 2 ^ 32)) + (u % 2 ^ 32 : ℕ) := by
  unfold bigIntegerWords
  rw [Nat.digits_def' (by norm_num) h, List.reverse_cons, List.map_append, poly31_append]
  rfl

/-- A factor prime to the modulus is cancelled. -/
theorem modEq_mul_left_iff {m c x y : ℤ} (hc : IsCoprime m c) :
    c * x ≡ c * y [ZMOD m] ↔ x ≡ y [ZMOD m] := by
  rw [Int.modEq_iff_dvd, Int.modEq_iff_dvd, ← mul_sub]
  exact ⟨hc.dvd_of_dvd_mul_left, fun h => h.mul_left c⟩

theorem isCoprime_31 : IsCoprime ((2 : ℤ) ^ 32) 31 := by norm_num [Int.isCoprime_iff_gcd_eq_one]

theorem exists_word_eq_one_iff {u : ℕ} (h : 1 < u) :
    (∃ k, u / 2 ^ (32 * k) = 1) ↔ ∃ k, u / 2 ^ 32 / 2 ^ (32 * k) = 1 := by
  have hsucc (k : ℕ) : u / 2 ^ 32 / 2 ^ (32 * k) = u / 2 ^ (32 * (k + 1)) := by
    rw [Nat.div_div_eq_div_mul, ← pow_add, mul_add, mul_one, add_comm]
  constructor
  · rintro ⟨k, hk⟩
    cases k with
    | zero => simp at hk; omega
    | succ k => exact ⟨k, by rw [hsucc, hk]⟩
  · rintro ⟨k, hk⟩
    exact ⟨k + 1, by rw [← hsucc, hk]⟩

/-- The loop of the client leaves out a top word of one, and no other. -/
theorem magnitudeWords_iff {n u : ℕ} (hn : u < 2 ^ n) :
    poly31 0 (magnitudeWords n u) ≡ poly31 0 (bigIntegerWords u) [ZMOD 2 ^ 32] ↔
      ¬∃ k, u / 2 ^ (32 * k) = 1 := by
  induction n generalizing u with
  | zero =>
    obtain rfl : u = 0 := by simpa using hn
    exact iff_of_true rfl (by simp)
  | succ n ih =>
    by_cases h1 : 1 < u
    · have hquot : u / 2 ^ 32 < 2 ^ n := by
        rw [pow_succ] at hn
        omega
      have hclient : poly31 0 (magnitudeWords (n + 1) u) =
          31 * poly31 0 (magnitudeWords n (u / 2 ^ 32)) + cInt u := by
        rw [magnitudeWords, if_pos h1, Nat.shiftRight_eq_div_pow, poly31_append]
        rfl
      have hword : cInt u ≡ (u % 2 ^ 32 : ℕ) [ZMOD 2 ^ 32] := by
        have hmod : ((u : ℤ).bmod (2 ^ 32)) % (2 ^ 32 : ℕ) = (u : ℤ) % (2 ^ 32 : ℕ) := Int.bmod_emod
        rw [cInt_eq, Int.ModEq]
        push_cast at hmod ⊢
        rw [hmod, Int.emod_emod_of_dvd _ (dvd_refl _)]
      have hcancel := modEq_mul_left_iff (x := poly31 0 (magnitudeWords n (u / 2 ^ 32)))
        (y := poly31 0 (bigIntegerWords (u / 2 ^ 32))) isCoprime_31
      rw [hclient, poly31_bigIntegerWords (by omega), exists_word_eq_one_iff h1, ← ih hquot,
        ← hcancel]
      constructor
      · exact fun h => Int.ModEq.add_right_cancel hword h
      · exact fun h => h.add hword
    · have hcases : u = 0 ∨ u = 1 := by omega
      rcases hcases with rfl | rfl
      · exact iff_of_true rfl (by simp)
      · have hnil : magnitudeWords (n + 1) 1 = [] := if_neg h1
        have hone : ¬(0 : ℤ) ≡ 1 [ZMOD 2 ^ 32] := by decide
        rw [hnil]
        exact iff_of_false hone (not_not.mpr ⟨0, by simp⟩)

theorem poly31_small {v : ℕ} (hv : v < 2 ^ 32) : poly31 0 (bigIntegerWords v) = v := by
  by_cases h0 : v = 0
  · subst h0
    rfl
  · rw [poly31_bigIntegerWords (by omega), Nat.div_eq_of_lt hv, Nat.mod_eq_of_lt hv]
    simp [bigIntegerWords, poly31]

theorem intHash_compact {u : ℕ} (h : u < MAX_LONG) :
    intHash u ≡ poly31 0 (bigIntegerWords u) [ZMOD 2 ^ 32] := by
  have hlt : u < 9223372036854775807 := h
  have hunsigned : unsignedLong u = u := twos_of_nonneg (by norm_num; omega)
  rw [intHash, if_pos h, ← ofInt_eq_iff, ofInt_land_mask, BitVec.ofInt_add, ofInt_land_mask,
    ← BitVec.ofInt_add, hunsigned, Nat.shiftRight_eq_div_pow, ofInt_eq_iff]
  by_cases h0 : u = 0
  · subst h0
    rfl
  · rw [poly31_bigIntegerWords (by omega), poly31_small (by omega)]
    have hword : (u : ℤ) ≡ (u % 2 ^ 32 : ℕ) [ZMOD 2 ^ 32] := by
      push_cast
      exact (Int.mod_modEq _ _).symm
    rw [mul_comm]
    exact hword.add_left _

theorem intHash_modEq_iff (u : ℕ) :
    intHash u ≡ poly31 0 (bigIntegerWords u) [ZMOD 2 ^ 32] ↔
      ¬(MAX_LONG ≤ u ∧ ∃ k, u / 2 ^ (32 * k) = 1) := by
  by_cases h : u < MAX_LONG
  · exact iff_of_true (intHash_compact h) fun hcon => absurd h (not_lt.mpr hcon.1)
  · have hlog : u < 2 ^ (Nat.log2 u + 1) := Nat.lt_log2_self
    have hfold := foldl_mask_modEq (magnitudeWords (Nat.log2 u + 1) u)
    rw [intHash, if_neg h, and_iff_right (not_lt.mp h), ← magnitudeWords_iff hlog]
    exact ⟨fun hhash => hfold.symm.trans hhash, fun hwords => hfold.trans hwords⟩

/-- Of the coefficients of 28 digits, those of 65 bits have a top word of one. -/
theorem top_word_one_iff {u : ℕ} (hu : u < 10 ^ 28) :
    (MAX_LONG ≤ u ∧ ∃ k, u / 2 ^ (32 * k) = 1) ↔ 2 ^ 64 ≤ u ∧ u < 2 ^ 65 := by
  unfold MAX_LONG
  constructor
  · rintro ⟨hle, k, hk⟩
    have hpos : 0 < 2 ^ (32 * k) := by positivity
    have hlow : 2 ^ (32 * k) ≤ u := by
      by_contra hlt
      rw [Nat.div_eq_of_lt (not_le.mp hlt)] at hk
      omega
    have hhigh : u < 2 * 2 ^ (32 * k) := (Nat.div_lt_iff_lt_mul hpos).mp (by omega)
    have hk2 : k = 2 := by
      have hlt3 : k < 3 := by
        by_contra hge
        have : 2 ^ (32 * 3) ≤ 2 ^ (32 * k) := Nat.pow_le_pow_right (by norm_num) (by omega)
        norm_num at this hu
        omega
      interval_cases k <;> omega
    subst hk2
    omega
  · rintro ⟨hlow, hhigh⟩
    exact ⟨by omega, 2, by omega⟩

/-- The hash code of a decimal number is that of Java exactly where the normalized
coefficient is not one of those of 65 bits. -/
theorem decimal_hashcode_is_java_iff {d n : Decimal}
    (h : DecimalContext.default.normalize d = .ok n) :
    decimalHashcode d = .ok (javaDecimalHashCode n) ↔ ¬(2 ^ 64 ≤ n.coeff ∧ n.coeff < 2 ^ 65) := by
  have hfits : n.coeff < 10 ^ 28 := (DecimalContext.normalize_normalized h).1.coeff
  have hcode : decimalHashcode d =
      .ok ((31 * intHash n.coeff * (if n.negative then -1 else 1) - n.exp).bmod (2 ^ 32)) := by
    unfold decimalHashcode
    rw [h]
    show Except.ok (cInt _) = _
    rw [cInt_eq, intOfDigits_digits]
  have hfactor : IsCoprime ((2 : ℤ) ^ 32) (31 * if n.negative then -1 else 1) := by
    split_ifs
    · simpa using isCoprime_31.neg_right
    · simpa using isCoprime_31
  have hcancel := modEq_mul_left_iff (x := intHash n.coeff)
    (y := poly31 0 (bigIntegerWords n.coeff)) hfactor
  have hcomm : 31 * intHash n.coeff * (if n.negative then -1 else 1) =
      31 * (if n.negative then -1 else 1) * intHash n.coeff := by ring
  rw [hcode, javaDecimalHashCode, Except.ok.injEq, bmod_eq_iff, ← top_word_one_iff hfits,
    ← intHash_modEq_iff, ← hcancel, hcomm]
  constructor
  · intro hsub
    rw [sub_eq_add_neg, sub_eq_add_neg] at hsub
    exact Int.ModEq.add_right_cancel' _ hsub
  · exact fun hmul => hmul.sub_right n.exp

/-- The number `10 ^ 27 + 1` is beyond the compact form and has three words. -/
theorem decimal_hashcode_is_java_iff_words :
    decimalHashcode ⟨false, 10 ^ 27 + 1, 0⟩ = .ok (javaDecimalHashCode ⟨false, 10 ^ 27 + 1, 0⟩) ↔
      ¬(2 ^ 64 ≤ 10 ^ 27 + 1 ∧ 10 ^ 27 + 1 < 2 ^ 65) :=
  decimal_hashcode_is_java_iff (d := ⟨false, 10 ^ 27 + 1, 0⟩) (n := ⟨false, 10 ^ 27 + 1, 0⟩)
    (by decide +kernel)

/-- Of `2 ^ 64`, which has the words 1, 0 and 0, the client hashes the two zeros alone. -/
theorem decimal_hashcode_drops_word :
    DecimalContext.default.normalize ⟨false, 2 ^ 64, 0⟩ = .ok ⟨false, 2 ^ 64, 0⟩ ∧
      decimalHashcode ⟨false, 2 ^ 64, 0⟩ = .ok 0 ∧
      javaDecimalHashCode ⟨false, 2 ^ 64, 0⟩ = 29791 := by
  decide +kernel

end PyGridGain
