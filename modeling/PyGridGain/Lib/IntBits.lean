import Mathlib.Data.Int.Bitwise
import Mathlib.Data.Nat.Bitwise
import PyGridGain.Lib.LittleEndian

/-! The bits of unbounded signed integers, and what is left of them when they are cut to a
width. -/

namespace PyGridGain

/-- Cutting an integer to `k` bytes keeps its first bits. -/
theorem testBit_twos (k : ℕ) (x : ℤ) (i : ℕ) :
    (twos k x).testBit i = (decide (i < 8 * k) && x.testBit i) := by
  have hpow : 256 ^ k = 2 ^ (8 * k) := by rw [pow_mul]; norm_num
  unfold twos
  rw [hpow]
  cases x with
  | ofNat n =>
    have hmod : ((Int.ofNat n) % ((2 ^ (8 * k) : ℕ) : ℤ)).toNat = n % 2 ^ (8 * k) := by
      rw [Int.ofNat_eq_natCast, ← Int.natCast_mod, Int.toNat_natCast]
    rw [hmod, Nat.testBit_mod_two_pow]
    rfl
  | negSucc n =>
    have hlt : n % 2 ^ (8 * k) < 2 ^ (8 * k) := Nat.mod_lt _ (by positivity)
    have hmod : ((Int.negSucc n) % ((2 ^ (8 * k) : ℕ) : ℤ)).toNat =
        2 ^ (8 * k) - (n % 2 ^ (8 * k) + 1) := by
      rw [Int.negSucc_emod _ (by positivity), ← Int.natCast_mod]
      omega
    rw [hmod, Nat.testBit_two_pow_sub_succ hlt, Nat.testBit_mod_two_pow]
    by_cases hi : i < 8 * k <;> simp [hi, Int.testBit]

/-- A mask of `k` bytes sees only what cutting to `k` bytes keeps. -/
theorem land_natCast {k m : ℕ} (x : ℤ) (hm : m < 2 ^ (8 * k)) :
    Int.land x m = ((twos k x &&& m : ℕ) : ℤ) := by
  obtain ⟨n, hn⟩ : ∃ n : ℕ, Int.land x m = n := by
    cases x <;> exact ⟨_, rfl⟩
  rw [hn, Nat.cast_inj]
  apply Nat.eq_of_testBit_eq
  intro i
  have hbit : n.testBit i = (Int.land x m).testBit i := by
    rw [hn]
    rfl
  have hmask : (m : ℤ).testBit i = m.testBit i := rfl
  rw [hbit, Int.testBit_land, Nat.testBit_and, testBit_twos, hmask]
  by_cases hi : i < 8 * k
  · simp [hi]
  · have hzero : m.testBit i = false :=
      Nat.testBit_eq_false_of_lt (hm.trans_le (Nat.pow_le_pow_right (by norm_num) (not_lt.mp hi)))
    simp [hzero]

theorem twos_xor_natCast {k v : ℕ} (x : ℤ) (hv : v < 2 ^ (8 * k)) :
    twos k (Int.xor x v) = twos k x ^^^ v := by
  apply Nat.eq_of_testBit_eq
  intro i
  have hmask : (v : ℤ).testBit i = v.testBit i := rfl
  rw [testBit_twos, Int.testBit_lxor, Nat.testBit_xor, testBit_twos, hmask]
  by_cases hi : i < 8 * k
  · simp [hi]
  · have hzero : v.testBit i = false :=
      Nat.testBit_eq_false_of_lt (hv.trans_le (Nat.pow_le_pow_right (by norm_num) (not_lt.mp hi)))
    simp [hi, hzero]

end PyGridGain
