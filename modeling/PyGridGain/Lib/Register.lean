import Mathlib.Data.BitVec
import PyGridGain.Lib.IntBits

/-! Registers of a fixed width: what is kept of an unbounded integer, and loops that reduce
at each step, at the end, or never. -/

namespace PyGridGain

theorem getLsbD_ofInt (w : ℕ) (x : ℤ) (i : ℕ) :
    (BitVec.ofInt w x).getLsbD i = (decide (i < w) && x.testBit i) := by
  cases x with
  | ofNat n =>
    rw [Int.ofNat_eq_natCast, BitVec.ofInt_natCast, BitVec.getLsbD_ofNat]
    rfl
  | negSucc n =>
    rw [BitVec.ofInt_negSucc_eq_not_ofNat, BitVec.getLsbD_not, BitVec.getLsbD_ofNat]
    by_cases hi : i < w <;> simp [hi, Int.testBit]

theorem ofInt_lxor (w : ℕ) (x y : ℤ) :
    BitVec.ofInt w (Int.xor x y) = BitVec.ofInt w x ^^^ BitVec.ofInt w y := by
  apply BitVec.eq_of_getLsbD_eq
  intro i hi
  rw [BitVec.getLsbD_xor, getLsbD_ofInt, getLsbD_ofInt, getLsbD_ofInt, Int.testBit_lxor]
  simp [hi]

theorem ofInt_land (w : ℕ) (x y : ℤ) :
    BitVec.ofInt w (Int.land x y) = BitVec.ofInt w x &&& BitVec.ofInt w y := by
  apply BitVec.eq_of_getLsbD_eq
  intro i hi
  rw [BitVec.getLsbD_and, getLsbD_ofInt, getLsbD_ofInt, getLsbD_ofInt, Int.testBit_land]
  simp [hi]

/-- A right shift of an unbounded integer drops its low bits. -/
theorem testBit_shiftRight (x : ℤ) (k i : ℕ) : (x >>> k).testBit i = x.testBit (k + i) := by
  cases x with
  | ofNat n => exact Nat.testBit_shiftRight n
  | negSucc n =>
    show (Int.negSucc (n >>> k)).testBit i = _
    simp [Int.testBit, Nat.testBit_shiftRight]

/-- The sign of a register is shifted in as that of an unbounded integer is. -/
theorem ofInt_toInt_shiftRight {w : ℕ} (x : BitVec w) (k : ℕ) :
    BitVec.ofInt w (x.toInt >>> k) = x.sshiftRight k := by
  rw [← BitVec.toInt_sshiftRight, BitVec.ofInt_toInt]

theorem bmod_eq_iff {w : ℕ} {x y : ℤ} :
    x.bmod (2 ^ w) = y.bmod (2 ^ w) ↔ x ≡ y [ZMOD 2 ^ w] := by
  have hw : (2 : ℤ) ^ w = (2 ^ w : ℕ) := by push_cast; rfl
  rw [hw, Int.ModEq]
  constructor
  · intro h
    rw [← Int.bmod_emod (x := x), h, Int.bmod_emod]
  · intro h
    rw [← Int.emod_bmod x, h, Int.emod_bmod]

theorem ofInt_eq_iff {w : ℕ} {x y : ℤ} :
    BitVec.ofInt w x = BitVec.ofInt w y ↔ x ≡ y [ZMOD 2 ^ w] := by
  rw [← BitVec.toInt_inj, BitVec.toInt_ofInt, BitVec.toInt_ofInt, bmod_eq_iff]

/-- Flipping the top bit of a residue adds or takes half of the modulus. -/
theorem xor_two_pow {n t : ℕ} (h : t < 2 ^ (n + 1)) :
    t ^^^ 2 ^ n = if t < 2 ^ n then t + 2 ^ n else t - 2 ^ n := by
  have hpos : 0 < 2 ^ n := by positivity
  have hmod : (t ^^^ 2 ^ n) % 2 ^ n = t % 2 ^ n := by
    rw [Nat.xor_mod_two_pow, Nat.mod_self, Nat.xor_zero]
  have hdiv : (t ^^^ 2 ^ n) / 2 ^ n = t / 2 ^ n ^^^ 1 := by
    rw [Nat.xor_div_two_pow, Nat.div_self hpos]
  rw [← Nat.div_add_mod (t ^^^ 2 ^ n) (2 ^ n), hmod, hdiv]
  split_ifs with ht
  · rw [Nat.div_eq_of_lt ht, Nat.mod_eq_of_lt ht, Nat.zero_xor, mul_one, add_comm]
  · have hone : t / 2 ^ n = 1 := by
      rw [Nat.div_eq_iff hpos]
      omega
    rw [hone, Nat.xor_self, mul_zero, zero_add, Nat.mod_eq_sub_mod (by omega),
      Nat.mod_eq_of_lt (by omega)]

/-! ### Polynomials -/

/-- `((start * 31 + u₀) * 31 + u₁) * 31 + …`. -/
def poly31 (start : ℤ) (units : List ℤ) : ℤ := units.foldl (fun h u => 31 * h + u) start

/-- The polynomial in a register. -/
def poly31Register (w : ℕ) (start : BitVec w) (units : List (BitVec w)) : BitVec w :=
  units.foldl (fun h u => 31 * h + u) start

/-- It does not matter whether a register is reduced at each step or at the end. -/
theorem ofInt_poly31 (w : ℕ) (start : ℤ) (units : List ℤ) :
    BitVec.ofInt w (poly31 start units) =
      poly31Register w (BitVec.ofInt w start) (units.map (BitVec.ofInt w)) := by
  unfold poly31 poly31Register
  rw [List.foldl_map]
  symm
  apply List.foldl_hom
  intro h u
  rw [BitVec.ofInt_add, BitVec.ofInt_mul]
  rfl

theorem poly31_append (start : ℤ) (us vs : List ℤ) :
    poly31 start (us ++ vs) = poly31 (poly31 start us) vs := by
  rw [poly31, List.foldl_append]
  rfl

end PyGridGain
