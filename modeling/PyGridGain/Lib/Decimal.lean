import Mathlib.Algebra.Order.Field.Power
import Mathlib.Data.Nat.Log
import Mathlib.Data.Nat.Digits.Lemmas
import Mathlib.Tactic

/-! Decimal floating point of a bounded precision: the numbers, the contexts in which they
are computed, rounding to the nearest with ties to the even, and the results that need no
rounding. -/

namespace PyGridGain

/-- A finite decimal number: `coeff * 10 ^ exp`, with a sign. -/
structure Decimal where
  negative : Bool
  coeff : ℕ
  exp : ℤ
  deriving DecidableEq

/-- The precision and the range of the exponent of a leading digit; ties go to the even, and
an exponent is not clamped. -/
structure DecimalContext where
  prec : ℕ
  emin : ℤ
  emax : ℤ
  prec_pos : 0 < prec
  emin_le : emin ≤ 0
  emax_ge : 0 ≤ emax

/-- The signals that are trapped, and raise. -/
inductive DecimalError
  | overflow | divisionByZero | invalidOperation
  deriving DecidableEq

/-- The number of decimal digits; one for zero. -/
def numDigits (u : ℕ) : ℕ := Nat.log 10 u + 1

/-- `u / 10 ^ k`, rounded to the nearest integer, ties to the even. -/
def roundHalfEven (u k : ℕ) : ℕ :=
  let q := u / 10 ^ k
  let r := u % 10 ^ k
  if 10 ^ k < 2 * r ∨ 2 * r = 10 ^ k ∧ q % 2 = 1 then q + 1 else q

namespace Decimal

/-- The magnitude of a number. -/
def magnitude (d : Decimal) : ℚ := d.coeff * 10 ^ d.exp

def value (d : Decimal) : ℚ := if d.negative then -d.magnitude else d.magnitude

/-- The digits of the coefficient, as `as_tuple` gives them; zero has one. -/
def digits (d : Decimal) : List ℕ :=
  if d.coeff = 0 then [0] else (Nat.digits 10 d.coeff).reverse

/-- Zeros are taken off the end of the coefficient while the exponent is below `limit`, at
most `n` of them. -/
def stripZeros (limit : ℤ) : ℕ → Decimal → Decimal
  | 0, d => d
  | n + 1, d =>
    if d.coeff % 10 = 0 ∧ d.exp < limit then
      stripZeros limit n { d with coeff := d.coeff / 10, exp := d.exp + 1 }
    else d

end Decimal

/-- `int(''.join(str(d) for d in digits))`. -/
def intOfDigits (digits : List ℕ) : ℕ := digits.foldl (fun n d => 10 * n + d) 0

namespace DecimalContext

variable (ctx : DecimalContext)

/-- The least exponent of all. -/
def etiny : ℤ := ctx.emin - ctx.prec + 1

/-- The largest exponent of a coefficient of full length. -/
def etop : ℤ := ctx.emax - ctx.prec + 1

/-- The exponent of the last digit that is kept. -/
def expMin (d : Decimal) : ℤ := max (numDigits d.coeff + d.exp - ctx.prec) ctx.etiny

/-- Rounding to a given exponent; where the coefficient grows to a power of ten, its last zero
goes. -/
def roundTo (d : Decimal) (exp : ℤ) : Decimal :=
  let coeff := roundHalfEven d.coeff (exp - d.exp).toNat
  if ctx.prec < numDigits coeff then ⟨d.negative, coeff / 10, exp + 1⟩
  else ⟨d.negative, coeff, exp⟩

/-- `_fix`: a number is rounded to the precision, or to the least exponent. -/
def fix (d : Decimal) : Except DecimalError Decimal :=
  if d.coeff = 0 then .ok { d with exp := min (max d.exp ctx.etiny) ctx.emax }
  else if ctx.etop < numDigits d.coeff + d.exp - ctx.prec then .error .overflow
  else if d.exp < ctx.expMin d then
    if ctx.etop < (ctx.roundTo d (ctx.expMin d)).exp then .error .overflow
    else .ok (ctx.roundTo d (ctx.expMin d))
  else .ok d

/-- `normalize`. -/
def normalize (d : Decimal) : Except DecimalError Decimal :=
  (ctx.fix d).map fun dup =>
    if dup.coeff = 0 then ⟨dup.negative, 0, 0⟩
    else dup.stripZeros ctx.emax (numDigits dup.coeff)

/-- `a / b`. -/
def divide (a b : Decimal) : Except DecimalError Decimal :=
  let negative := a.negative != b.negative
  if b.coeff = 0 then .error (if a.coeff = 0 then .invalidOperation else .divisionByZero)
  else if a.coeff = 0 then ctx.fix ⟨negative, 0, a.exp - b.exp⟩
  else
    let shift : ℤ := numDigits b.coeff - numDigits a.coeff + ctx.prec + 1
    let num := a.coeff * 10 ^ shift.toNat
    let den := b.coeff * 10 ^ (-shift).toNat
    let quotient : Decimal := ⟨negative, num / den, a.exp - b.exp - shift⟩
    if num % den ≠ 0 then
      -- a last digit that keeps the quotient off every tie
      ctx.fix { quotient with
        coeff := if quotient.coeff % 5 = 0 then quotient.coeff + 1 else quotient.coeff }
    else ctx.fix (quotient.stripZeros (a.exp - b.exp) shift.toNat)

/-- `Decimal('10') ** n`, exact before it is fixed to the context. -/
def powerOfTen (n : ℤ) : Except DecimalError Decimal := ctx.fix ⟨false, 10 ^ n.toNat, min n 0⟩

/-- `-a`; the sign of a zero is dropped. -/
def negate (a : Decimal) : Except DecimalError Decimal :=
  ctx.fix { a with negative := if a.coeff = 0 then false else !a.negative }

end DecimalContext

/-! ### Digits -/

theorem lt_pow_numDigits (u : ℕ) : u < 10 ^ numDigits u := Nat.lt_pow_succ_log_self (by norm_num) u

theorem pow_numDigits_le {u : ℕ} (h : u ≠ 0) : 10 ^ (numDigits u - 1) ≤ u :=
  Nat.pow_log_le_self 10 h

theorem numDigits_pos (u : ℕ) : 0 < numDigits u := Nat.succ_pos _

theorem numDigits_le_iff {u n : ℕ} (hn : 0 < n) : numDigits u ≤ n ↔ u < 10 ^ n := by
  constructor
  · exact fun h => (lt_pow_numDigits u).trans_le (Nat.pow_le_pow_right (by norm_num) h)
  · intro h
    by_cases hu : u = 0
    · subst hu
      simpa [numDigits] using Nat.one_le_iff_ne_zero.mpr hn.ne'
    · have hlt : 10 ^ (numDigits u - 1) < 10 ^ n := (pow_numDigits_le hu).trans_lt h
      have := (Nat.pow_lt_pow_iff_right (by norm_num)).mp hlt
      omega

@[simp] theorem intOfDigits_digits (d : Decimal) : intOfDigits d.digits = d.coeff := by
  unfold intOfDigits Decimal.digits
  split_ifs with h
  · simp [h]
  · rw [List.foldl_reverse]
    conv_rhs => rw [← Nat.ofDigits_digits 10 d.coeff, Nat.ofDigits_eq_foldr]
    simp [add_comm]

theorem roundHalfEven_of_dvd {u k : ℕ} (h : 10 ^ k ∣ u) : roundHalfEven u k = u / 10 ^ k := by
  have hr : u % 10 ^ k = 0 := Nat.mod_eq_zero_of_dvd h
  have hpos : 0 < 10 ^ k := by positivity
  simp only [roundHalfEven, hr]
  rw [if_neg (by omega)]

theorem roundHalfEven_le (u k : ℕ) : roundHalfEven u k ≤ u / 10 ^ k + 1 := by
  simp only [roundHalfEven]
  split_ifs <;> omega

/-! ### Magnitudes -/

theorem zpow_ten_pos (e : ℤ) : (0 : ℚ) < 10 ^ e := zpow_pos (by norm_num) e

theorem zpow_ten_add (e f : ℤ) : (10 : ℚ) ^ (e + f) = 10 ^ e * 10 ^ f := zpow_add₀ (by norm_num) e f

/-- A magnitude of at most `p` digits from the exponent `e` on bounds the leading digit of
every other way to write it. -/
theorem numDigits_add_le {u u' p : ℕ} {e e' : ℤ} (hu : u ≠ 0)
    (heq : (u : ℚ) * 10 ^ e = u' * 10 ^ e') (hu' : u' < 10 ^ p) : numDigits u + e ≤ p + e' := by
  have hlow : (10 : ℚ) ^ ((numDigits u - 1 : ℕ) : ℤ) ≤ u := by
    rw [zpow_natCast]
    exact_mod_cast pow_numDigits_le hu
  have hhigh : (u' : ℚ) < 10 ^ (p : ℤ) := by
    rw [zpow_natCast]
    exact_mod_cast hu'
  have hlt : (10 : ℚ) ^ (((numDigits u - 1 : ℕ) : ℤ) + e) < 10 ^ ((p : ℤ) + e') := by
    calc (10 : ℚ) ^ (((numDigits u - 1 : ℕ) : ℤ) + e)
        = 10 ^ ((numDigits u - 1 : ℕ) : ℤ) * 10 ^ e := zpow_ten_add _ _
      _ ≤ u * 10 ^ e := mul_le_mul_of_nonneg_right hlow (zpow_ten_pos e).le
      _ = u' * 10 ^ e' := heq
      _ < 10 ^ (p : ℤ) * 10 ^ e' := mul_lt_mul_of_pos_right hhigh (zpow_ten_pos e')
      _ = 10 ^ ((p : ℤ) + e') := (zpow_ten_add _ _).symm
  have := (zpow_lt_zpow_iff_right₀ (by norm_num : (1 : ℚ) < 10)).mp hlt
  have := numDigits_pos u
  omega

/-- Two ways to write a magnitude differ by a power of ten. -/
theorem eq_mul_pow_of_magnitude {u u' k : ℕ} {e : ℤ}
    (heq : (u : ℚ) * 10 ^ e = u' * 10 ^ (e + k)) : u = u' * 10 ^ k := by
  rw [zpow_ten_add, zpow_natCast, mul_comm (10 ^ e : ℚ), ← mul_assoc] at heq
  have := mul_right_cancel₀ (zpow_ten_pos e).ne' heq
  exact_mod_cast this

/-! ### Stripping zeros -/

namespace Decimal

theorem stripZeros_magnitude (limit : ℤ) (n : ℕ) (d : Decimal) :
    (d.stripZeros limit n).magnitude = d.magnitude := by
  induction n generalizing d with
  | zero => rfl
  | succ n ih =>
    rw [stripZeros]
    split_ifs with h
    · rw [ih]
      have hcoeff : d.coeff = d.coeff / 10 * 10 := by omega
      unfold magnitude
      rw [zpow_ten_add, zpow_one]
      conv_rhs => rw [hcoeff]
      push_cast
      ring
    · rfl

@[simp] theorem stripZeros_negative (limit : ℤ) (n : ℕ) (d : Decimal) :
    (d.stripZeros limit n).negative = d.negative := by
  induction n generalizing d with
  | zero => rfl
  | succ n ih =>
    rw [stripZeros]
    split_ifs with h
    · rw [ih]
    · rfl

theorem stripZeros_le (limit : ℤ) (n : ℕ) (d : Decimal) :
    (d.stripZeros limit n).coeff ≤ d.coeff ∧ d.exp ≤ (d.stripZeros limit n).exp := by
  induction n generalizing d with
  | zero => exact ⟨le_rfl, le_rfl⟩
  | succ n ih =>
    rw [stripZeros]
    split_ifs with h
    · obtain ⟨hcoeff, hexp⟩ := ih { d with coeff := d.coeff / 10, exp := d.exp + 1 }
      exact ⟨hcoeff.trans (Nat.div_le_self _ _), by simp only at hexp; omega⟩
    · exact ⟨le_rfl, le_rfl⟩

/-- The loop ends at a digit that is no zero, or at the limit. -/
theorem stripZeros_stripped (limit : ℤ) {n : ℕ} {d : Decimal} (h0 : d.coeff ≠ 0)
    (hn : d.coeff < 10 ^ n) :
    (d.stripZeros limit n).coeff ≠ 0 ∧
      ((d.stripZeros limit n).coeff % 10 ≠ 0 ∨ limit ≤ (d.stripZeros limit n).exp) := by
  induction n generalizing d with
  | zero => simp at hn; exact absurd hn h0
  | succ n ih =>
    rw [stripZeros]
    split_ifs with h
    · rw [pow_succ] at hn
      exact ih (d := { d with coeff := d.coeff / 10, exp := d.exp + 1 }) (by simp only; omega)
        (by simp only; omega)
    · refine ⟨h0, ?_⟩
      by_contra hcon
      push Not at hcon
      exact h hcon

end Decimal

/-! ### Results that need no rounding -/

namespace DecimalContext

variable {ctx : DecimalContext} {d r : Decimal}

theorem etiny_le_zero : ctx.etiny ≤ 0 := by
  have := ctx.prec_pos
  have := ctx.emin_le
  unfold etiny
  omega

/-- What a context lets pass. -/
structure Fits (ctx : DecimalContext) (d : Decimal) : Prop where
  coeff : d.coeff < 10 ^ ctx.prec
  etiny : ctx.etiny ≤ d.exp
  emax : d.coeff ≠ 0 → numDigits d.coeff + d.exp ≤ ctx.emax + 1

theorem roundTo_fits {e : ℤ} (hexp : d.exp ≤ e) (hcut : numDigits d.coeff + d.exp - ctx.prec ≤ e)
    (hetiny : ctx.etiny ≤ e) (htop : (ctx.roundTo d e).exp ≤ ctx.etop) :
    ctx.Fits (ctx.roundTo d e) := by
  have hprec := ctx.prec_pos
  have hbound : roundHalfEven d.coeff (e - d.exp).toNat ≤ 10 ^ ctx.prec := by
    have hsplit : d.coeff < 10 ^ ctx.prec * 10 ^ (e - d.exp).toNat := by
      rw [← pow_add]
      exact (lt_pow_numDigits _).trans_le (Nat.pow_le_pow_right (by norm_num) (by omega))
    have hquot : d.coeff / 10 ^ (e - d.exp).toNat < 10 ^ ctx.prec :=
      Nat.div_lt_of_lt_mul (by rwa [mul_comm])
    exact (roundHalfEven_le _ _).trans hquot
  unfold etop at htop
  unfold roundTo at htop ⊢
  simp only at htop ⊢
  split_ifs at htop ⊢ with hcarry
  · have hlt : roundHalfEven d.coeff (e - d.exp).toNat / 10 < 10 ^ ctx.prec := by
      have : 0 < 10 ^ ctx.prec := by positivity
      omega
    have hdigits := (numDigits_le_iff hprec).mpr hlt
    exact ⟨hlt, by simp only; omega, fun _ => by simp only at htop ⊢; omega⟩
  · have hlt := (numDigits_le_iff hprec).mp (not_lt.mp hcarry)
    exact ⟨hlt, hetiny, fun _ => by simp only at htop ⊢; omega⟩

theorem fix_fits (h : ctx.fix d = .ok r) : ctx.Fits r ∧ r.negative = d.negative := by
  have hprec := ctx.prec_pos
  have htiny := ctx.etiny_le_zero
  have hemax := ctx.emax_ge
  unfold fix at h
  split_ifs at h with h0 htop hlt hover
  · obtain rfl := Except.ok.inj h
    exact ⟨⟨by simp only [h0]; positivity, by simp only; omega, fun hne => absurd h0 hne⟩, rfl⟩
  · obtain rfl := Except.ok.inj h
    refine ⟨roundTo_fits hlt.le (le_max_left _ _) (le_max_right _ _) (not_lt.mp hover), ?_⟩
    simp only [roundTo]
    split_ifs <;> rfl
  · obtain rfl := Except.ok.inj h
    have hcut := (le_max_left _ _).trans (not_lt.mp hlt)
    have hetiny := (le_max_right _ _).trans (not_lt.mp hlt)
    unfold etop at htop
    exact ⟨⟨(numDigits_le_iff hprec).mp (by omega), hetiny, fun _ => by omega⟩, rfl⟩

/-- A magnitude that the precision and the least exponent allow for is not rounded. -/
theorem roundTo_exact {u : ℕ} {e : ℤ} (h0 : d.coeff ≠ 0) (hu : u < 10 ^ ctx.prec)
    (he : ctx.etiny ≤ e) (heq : d.magnitude = u * 10 ^ e) (hlt : d.exp < ctx.expMin d) :
    (ctx.roundTo d (ctx.expMin d)).magnitude = d.magnitude ∧
      (ctx.roundTo d (ctx.expMin d)).exp = ctx.expMin d := by
  have hprec := ctx.prec_pos
  have hmin : ctx.expMin d ≤ e := by
    have := numDigits_add_le h0 heq hu
    unfold expMin
    omega
  obtain ⟨k, hk⟩ : ∃ k : ℕ, e = ctx.expMin d + k := ⟨(e - ctx.expMin d).toNat, by omega⟩
  obtain ⟨j, hj⟩ : ∃ j : ℕ, ctx.expMin d = d.exp + j := ⟨(ctx.expMin d - d.exp).toNat, by omega⟩
  have hcoeff : d.coeff = u * 10 ^ (j + k) := by
    apply eq_mul_pow_of_magnitude (e := d.exp)
    rw [← Decimal.magnitude, heq, hk, hj]
    push_cast
    ring_nf
  have hround : roundHalfEven d.coeff (ctx.expMin d - d.exp).toNat = u * 10 ^ k := by
    have htoNat : (ctx.expMin d - d.exp).toNat = j := by omega
    rw [htoNat, roundHalfEven_of_dvd ⟨u * 10 ^ k, by rw [hcoeff]; ring⟩, hcoeff, pow_add]
    apply Nat.div_eq_of_eq_mul_right (by positivity)
    ring
  have hdigits : numDigits (u * 10 ^ k) ≤ ctx.prec := by
    have hne : u * 10 ^ k ≠ 0 := by
      intro hzero
      apply h0
      rw [hcoeff, pow_add, mul_comm (10 ^ j), ← mul_assoc, hzero, zero_mul]
    have hsame : ((u * 10 ^ k : ℕ) : ℚ) * 10 ^ (ctx.expMin d) = d.coeff * 10 ^ d.exp := by
      rw [hcoeff, hj, zpow_ten_add, zpow_natCast]
      push_cast
      ring
    have := numDigits_add_le hne hsame (lt_pow_numDigits _)
    have : numDigits d.coeff + d.exp - ctx.prec ≤ ctx.expMin d := le_max_left _ _
    omega
  unfold roundTo
  simp only [hround, not_lt.mpr hdigits, if_false, and_true]
  rw [heq, Decimal.magnitude, hk, zpow_ten_add, zpow_natCast]
  push_cast
  ring

theorem fix_exact {u : ℕ} {e : ℤ} (hu : u < 10 ^ ctx.prec) (he : ctx.etiny ≤ e)
    (heq : d.magnitude = u * 10 ^ e) (h : ctx.fix d = .ok r) : r.magnitude = d.magnitude := by
  unfold fix at h
  split_ifs at h with h0 htop hlt hover
  · obtain rfl := Except.ok.inj h
    simp [Decimal.magnitude, h0]
  · obtain rfl := Except.ok.inj h
    exact (roundTo_exact h0 hu he heq hlt).1
  · obtain rfl := Except.ok.inj h
    rfl

theorem fix_ok {u : ℕ} {e : ℤ} (hu : u < 10 ^ ctx.prec) (he : ctx.etiny ≤ e)
    (heq : d.magnitude = u * 10 ^ e) (hmax : d.coeff ≠ 0 → numDigits d.coeff + d.exp ≤ ctx.emax + 1) :
    ∃ r, ctx.fix d = .ok r ∧ r.magnitude = d.magnitude ∧ r.negative = d.negative := by
  have hok : ∃ r, ctx.fix d = .ok r := by
    unfold fix
    split_ifs with h0 htop hlt hover
    · exact ⟨_, rfl⟩
    · have := hmax h0
      unfold etop at htop
      omega
    · have := hmax h0
      rw [(roundTo_exact h0 hu he heq hlt).2] at hover
      have := ctx.etiny_le_zero
      have := ctx.emin_le
      have := ctx.emax_ge
      unfold expMin etop etiny at *
      omega
    · exact ⟨_, rfl⟩
    · exact ⟨_, rfl⟩
  obtain ⟨r, hr⟩ := hok
  exact ⟨r, hr, fix_exact hu he heq hr, (fix_fits hr).2⟩

/-- A normalized number: it fits, and its coefficient ends in no zero that could go. -/
structure Normalized (ctx : DecimalContext) (d : Decimal) : Prop extends ctx.Fits d where
  stripped : d.coeff = 0 ∧ d.exp = 0 ∨ d.coeff ≠ 0 ∧ (d.coeff % 10 ≠ 0 ∨ ctx.emax ≤ d.exp)

theorem normalize_normalized (h : ctx.normalize d = .ok r) :
    ctx.Normalized r ∧ r.negative = d.negative := by
  unfold normalize at h
  obtain ⟨dup, hfix, rfl⟩ : ∃ dup, ctx.fix d = .ok dup ∧ _ = r := by
    cases hfix : ctx.fix d with
    | error e => rw [hfix] at h; cases h
    | ok dup => rw [hfix] at h; exact ⟨dup, rfl, Except.ok.inj h⟩
  obtain ⟨hfits, hneg⟩ := fix_fits hfix
  split_ifs with h0
  · exact ⟨⟨⟨by positivity, ctx.etiny_le_zero, fun hne => absurd rfl hne⟩, Or.inl ⟨rfl, rfl⟩⟩, hneg⟩
  · obtain ⟨hle, hexp⟩ := Decimal.stripZeros_le ctx.emax (numDigits dup.coeff) dup
    have hstripped := Decimal.stripZeros_stripped ctx.emax h0 (lt_pow_numDigits _)
    refine ⟨⟨⟨hle.trans_lt hfits.coeff, hfits.etiny.trans hexp, fun hne => ?_⟩,
      Or.inr hstripped⟩, by rw [Decimal.stripZeros_negative, hneg]⟩
    have hsame := Decimal.stripZeros_magnitude ctx.emax (numDigits dup.coeff) dup
    have := numDigits_add_le hne hsame (lt_pow_numDigits _)
    have := hfits.emax h0
    omega

/-- Normalizing keeps a magnitude that needs no rounding. -/
theorem normalize_exact {u : ℕ} {e : ℤ} (hu : u < 10 ^ ctx.prec) (he : ctx.etiny ≤ e)
    (heq : d.magnitude = u * 10 ^ e) (h : ctx.normalize d = .ok r) :
    r.magnitude = d.magnitude := by
  unfold normalize at h
  cases hfix : ctx.fix d with
  | error e => rw [hfix] at h; cases h
  | ok dup =>
    rw [hfix] at h
    obtain rfl := Except.ok.inj h
    rw [← fix_exact hu he heq hfix]
    simp only
    split_ifs with h0
    · simp [Decimal.magnitude, h0]
    · exact Decimal.stripZeros_magnitude _ _ _

theorem powerOfTen_ok {n : ℤ} (hlo : ctx.etiny ≤ n) (hhi : n ≤ ctx.emax) :
    ∃ p, ctx.powerOfTen n = .ok p ∧ p.magnitude = 10 ^ n ∧ p.negative = false := by
  have hmag : Decimal.magnitude ⟨false, 10 ^ n.toNat, min n 0⟩ = (1 : ℕ) * 10 ^ n := by
    have hsplit : n = (n.toNat : ℤ) + min n 0 := by omega
    unfold Decimal.magnitude
    conv_rhs => rw [hsplit, zpow_ten_add, zpow_natCast]
    push_cast
    ring
  have hu : 1 < 10 ^ ctx.prec := Nat.one_lt_pow ctx.prec_pos.ne' (by norm_num)
  obtain ⟨p, hp, hval, hneg⟩ := fix_ok hu hlo hmag fun h0 => by
    have := numDigits_add_le (p := 1) h0 hmag (by norm_num)
    omega
  exact ⟨p, hp, by rw [hval, hmag, Nat.cast_one, one_mul], hneg⟩

theorem powerOfTen_overflow {n : ℤ} (h : ctx.emax < n) : ctx.powerOfTen n = .error .overflow := by
  have hpos : 10 ^ n.toNat ≠ 0 := by positivity
  have hdigits : numDigits (10 ^ n.toNat) = n.toNat + 1 := by
    rw [numDigits, Nat.log_pow (by norm_num)]
  have hemax := ctx.emax_ge
  unfold powerOfTen fix
  simp only [hpos, if_false, hdigits]
  rw [if_pos]
  unfold etop
  push_cast
  omega

/-- A quotient by a power of ten that needs no rounding. -/
theorem divide_powerOfTen {u : ℕ} {n : ℤ} {p : Decimal} (hu : u < 10 ^ ctx.prec)
    (hp : ctx.powerOfTen n = .ok p) (hmag : p.magnitude = 10 ^ n) (hn : ctx.etiny ≤ -n)
    (hmax : u ≠ 0 → numDigits u - n ≤ ctx.emax + 1) :
    ∃ r, ctx.divide ⟨false, u, 0⟩ p = .ok r ∧ ctx.Fits r ∧ r.magnitude = u * 10 ^ (-n) ∧
      r.negative = p.negative := by
  have hprec := ctx.prec_pos
  obtain ⟨hfits, -⟩ := fix_fits hp
  have h0 : p.coeff ≠ 0 := by
    intro h0
    rw [Decimal.magnitude, h0, Nat.cast_zero, zero_mul] at hmag
    exact (zpow_ten_pos n).ne hmag
  have hle : p.exp ≤ n := by
    have hone : (1 : ℚ) ≤ p.coeff := by exact_mod_cast Nat.one_le_iff_ne_zero.mpr h0
    have : (10 : ℚ) ^ p.exp ≤ 10 ^ n := by
      rw [← hmag, Decimal.magnitude]
      exact le_mul_of_one_le_left (zpow_ten_pos _).le hone
    exact (zpow_le_zpow_iff_right₀ (by norm_num)).mp this
  obtain ⟨j, hj⟩ : ∃ j : ℕ, n = p.exp + j := ⟨(n - p.exp).toNat, by omega⟩
  have hcoeff : p.coeff = 10 ^ j := by
    have heq : (p.coeff : ℚ) * 10 ^ p.exp = (1 : ℕ) * 10 ^ (p.exp + j) := by
      rw [Nat.cast_one, one_mul, ← hj, ← hmag, Decimal.magnitude]
    rw [eq_mul_pow_of_magnitude heq, one_mul]
  unfold divide
  simp only [h0, if_false]
  by_cases hzero : u = 0
  · subst hzero
    obtain ⟨r, hr⟩ : ∃ r, ctx.fix ⟨false != p.negative, 0, 0 - p.exp⟩ = .ok r := by
      rw [fix, if_pos rfl]
      exact ⟨_, rfl⟩
    have hrmag := fix_exact (u := 0) (e := 0) (by positivity) ctx.etiny_le_zero
      (by simp [Decimal.magnitude]) hr
    obtain ⟨hfits', hrneg⟩ := fix_fits hr
    rw [if_pos rfl]
    exact ⟨r, hr, hfits', by rw [hrmag]; simp [Decimal.magnitude], by simpa using hrneg⟩
  · -- the shift covers the zeros of the divisor
    obtain ⟨m, hm⟩ : ∃ m : ℕ, (numDigits p.coeff : ℤ) - numDigits u + ctx.prec + 1 = (j + m : ℕ) := by
      have hdigits : numDigits p.coeff = j + 1 := by
        rw [hcoeff, numDigits, Nat.log_pow (by norm_num)]
      have := (numDigits_le_iff hprec).mpr hu
      exact ⟨ctx.prec + 2 - numDigits u, by omega⟩
    have hneg : (-((j + m : ℕ) : ℤ)).toNat = 0 := by omega
    have hquot : u * 10 ^ (j + m) = 10 ^ j * (u * 10 ^ m) := by ring
    rw [if_neg hzero, hm, Int.toNat_natCast, hneg, hcoeff, pow_zero, mul_one, hquot,
      Nat.mul_mod_right, Nat.mul_div_cancel_left _ (by positivity), if_neg (by simp)]
    have hvalue : (Decimal.stripZeros (0 - p.exp) (j + m)
        ⟨false != p.negative, u * 10 ^ m, 0 - p.exp - (j + m : ℕ)⟩).magnitude = u * 10 ^ (-n) := by
      have hexp : -n = (m : ℤ) + (0 - p.exp - (j + m : ℕ)) := by omega
      rw [Decimal.stripZeros_magnitude, Decimal.magnitude, hexp, zpow_ten_add, zpow_natCast]
      push_cast
      ring
    obtain ⟨r, hr, hrmag, hrneg⟩ := fix_ok hu hn hvalue fun hne => by
      have := numDigits_add_le hne hvalue (lt_pow_numDigits u)
      have := hmax hzero
      omega
    exact ⟨r, hr, (fix_fits hr).1, hrmag.trans hvalue, by simpa using hrneg⟩

theorem negate_ok (h : ctx.Fits d) :
    ∃ r, ctx.negate d = .ok r ∧ r.value = -d.value := by
  have hmag : ({ d with negative := if d.coeff = 0 then false else !d.negative } : Decimal).magnitude =
      d.coeff * 10 ^ d.exp := rfl
  obtain ⟨r, hr, hrmag, hrneg⟩ := fix_ok h.coeff h.etiny hmag h.emax
  refine ⟨r, hr, ?_⟩
  unfold Decimal.value
  rw [hrneg, hrmag, hmag, Decimal.magnitude]
  by_cases h0 : d.coeff = 0
  · simp [h0]
  · cases hneg : d.negative <;> simp [h0]

end DecimalContext

/-! ### Overflow -/

/-- Rounding reaches an even number half a unit below it. -/
theorem le_roundHalfEven_iff {u k n : ℕ} (hn : n % 2 = 0) (h0 : 0 < n) :
    n ≤ roundHalfEven u k ↔ (2 * n - 1) * 10 ^ k ≤ 2 * u := by
  have hdiv : 10 ^ k * (u / 10 ^ k) + u % 10 ^ k = u := Nat.div_add_mod u (10 ^ k)
  have hr : u % 10 ^ k < 10 ^ k := Nat.mod_lt _ (by positivity)
  simp only [roundHalfEven]
  generalize u / 10 ^ k = q at *
  generalize u % 10 ^ k = r at *
  generalize 10 ^ k = t at *
  subst hdiv
  rcases lt_trichotomy (q + 1) n with hlt | rfl | hgt
  · have hmul : t * (2 * q + 3) ≤ t * (2 * n - 1) := Nat.mul_le_mul_left _ (by omega)
    have hexpand : t * (2 * q + 3) = 2 * (t * q) + 3 * t := by ring
    rw [mul_comm (2 * n - 1)]
    refine iff_of_false ?_ (by omega)
    split_ifs <;> omega
  · have hexpand : (2 * (q + 1) - 1) * t = 2 * (t * q) + t := by
      rw [show 2 * (q + 1) - 1 = 2 * q + 1 from rfl]
      ring
    have hodd : q % 2 = 1 := by omega
    rw [hexpand]
    split_ifs with hup
    · exact iff_of_true le_rfl (by omega)
    · exact iff_of_false (by omega) (by omega)
  · have hmul : t * (2 * n - 1) ≤ t * (2 * q) := Nat.mul_le_mul_left _ (by omega)
    have hexpand : t * (2 * q) = 2 * (t * q) := by ring
    rw [mul_comm (2 * n - 1)]
    refine iff_of_true ?_ (by omega)
    split_ifs <;> omega

namespace DecimalContext

variable {ctx : DecimalContext} {d : Decimal}

/-- Numbers from half a unit below the first one without a representation on. -/
def Overflows (ctx : DecimalContext) (d : Decimal) : Prop :=
  (2 * 10 ^ ctx.prec - 1) * 10 ^ ctx.etop ≤ 2 * d.magnitude

theorem not_overflows {w : ℕ} (hw : w < 10 ^ ctx.prec) (h : d.magnitude ≤ w * 10 ^ ctx.etop) :
    ¬ctx.Overflows d := by
  have hle : (w : ℚ) ≤ 10 ^ ctx.prec - 1 := by
    rw [le_sub_iff_add_le]
    exact_mod_cast hw
  have hpos := zpow_ten_pos ctx.etop
  rw [Overflows, not_le]
  calc 2 * d.magnitude ≤ 2 * (w * 10 ^ ctx.etop) := by linarith
    _ ≤ 2 * ((10 ^ ctx.prec - 1) * 10 ^ ctx.etop) := by gcongr
    _ < (2 * 10 ^ ctx.prec - 1) * 10 ^ ctx.etop := by linarith

theorem overflows_of_digits (h0 : d.coeff ≠ 0)
    (htop : ctx.etop < numDigits d.coeff + d.exp - ctx.prec) : ctx.Overflows d := by
  have hdigits := numDigits_pos d.coeff
  have hlow : (10 : ℚ) ^ (ctx.prec + ctx.etop) ≤ d.magnitude := by
    calc (10 : ℚ) ^ ((ctx.prec : ℤ) + ctx.etop)
        ≤ 10 ^ (((numDigits d.coeff - 1 : ℕ) : ℤ) + d.exp) :=
          zpow_le_zpow_right₀ (by norm_num) (by omega)
      _ = (10 ^ (numDigits d.coeff - 1) : ℕ) * 10 ^ d.exp := by
          rw [zpow_ten_add, zpow_natCast]
          norm_cast
      _ ≤ d.magnitude := by
          unfold Decimal.magnitude
          have hpow : ((10 ^ (numDigits d.coeff - 1) : ℕ) : ℚ) ≤ d.coeff := by
            exact_mod_cast pow_numDigits_le h0
          exact mul_le_mul_of_nonneg_right hpow (zpow_ten_pos _).le
  rw [zpow_ten_add, zpow_natCast] at hlow
  have hpos := zpow_ten_pos ctx.etop
  rw [Overflows]
  linarith

/-- A number whose exponent has to rise below the largest one. -/
theorem not_overflows_of_lt {e : ℤ} (hcut : numDigits d.coeff + d.exp - ctx.prec ≤ e)
    (he : e < ctx.etop) : ¬ctx.Overflows d := by
  have hprec := ctx.prec_pos
  refine not_overflows (w := 10 ^ (ctx.prec - 1)) (Nat.pow_lt_pow_right (by norm_num) (by omega)) ?_
  have hcoeff : (d.coeff : ℚ) ≤ 10 ^ (numDigits d.coeff : ℤ) := by
    rw [zpow_natCast]
    exact_mod_cast (lt_pow_numDigits d.coeff).le
  calc d.magnitude ≤ 10 ^ (numDigits d.coeff : ℤ) * 10 ^ d.exp :=
        mul_le_mul_of_nonneg_right hcoeff (zpow_ten_pos _).le
    _ = 10 ^ (numDigits d.coeff + d.exp) := (zpow_ten_add _ _).symm
    _ ≤ 10 ^ (((ctx.prec - 1 : ℕ) : ℤ) + ctx.etop) :=
        zpow_le_zpow_right₀ (by norm_num) (by omega)
    _ = ((10 ^ (ctx.prec - 1) : ℕ) : ℚ) * 10 ^ ctx.etop := by
        rw [zpow_ten_add, zpow_natCast]
        norm_cast

/-- A number that is kept as it is. -/
theorem not_overflows_of_ge (hcut : numDigits d.coeff + d.exp - ctx.prec ≤ ctx.etop)
    (hlen : numDigits d.coeff ≤ ctx.prec) : ¬ctx.Overflows d := by
  have hprec := ctx.prec_pos
  have hle : d.exp ≤ ctx.etop + (d.exp - ctx.etop).toNat := by omega
  have hlt : d.coeff * 10 ^ (d.exp - ctx.etop).toNat < 10 ^ ctx.prec :=
    calc d.coeff * 10 ^ (d.exp - ctx.etop).toNat
        < 10 ^ numDigits d.coeff * 10 ^ (d.exp - ctx.etop).toNat :=
          Nat.mul_lt_mul_of_pos_right (lt_pow_numDigits _) (by positivity)
      _ = 10 ^ (numDigits d.coeff + (d.exp - ctx.etop).toNat) := (pow_add _ _ _).symm
      _ ≤ 10 ^ ctx.prec := Nat.pow_le_pow_right (by norm_num) (by omega)
  refine not_overflows hlt ?_
  calc d.magnitude ≤ d.coeff * 10 ^ (((d.exp - ctx.etop).toNat : ℤ) + ctx.etop) :=
        mul_le_mul_of_nonneg_left (zpow_le_zpow_right₀ (by norm_num) (by omega)) (by positivity)
    _ = ((d.coeff * 10 ^ (d.exp - ctx.etop).toNat : ℕ) : ℚ) * 10 ^ ctx.etop := by
        rw [zpow_ten_add, zpow_natCast]
        push_cast
        ring

/-- A number rounded to the largest exponent. -/
theorem overflows_iff_round (hexp : d.exp ≤ ctx.etop) :
    ctx.Overflows d ↔ ctx.etop < (ctx.roundTo d ctx.etop).exp := by
  have hprec := ctx.prec_pos
  have hround : ctx.etop < (ctx.roundTo d ctx.etop).exp ↔
      10 ^ ctx.prec ≤ roundHalfEven d.coeff (ctx.etop - d.exp).toNat := by
    rw [← not_lt, ← numDigits_le_iff hprec, not_le]
    unfold roundTo
    simp only
    split_ifs with hcarry
    · exact iff_of_true (by simp only; omega) hcarry
    · exact iff_of_false (lt_irrefl _) hcarry
  have heven : 10 ^ ctx.prec % 2 = 0 := by
    obtain ⟨n, hn⟩ := Nat.exists_eq_succ_of_ne_zero hprec.ne'
    rw [hn, pow_succ]
    omega
  have hpow : 0 < 10 ^ ctx.prec := by positivity
  have hsplit : ctx.etop = ((ctx.etop - d.exp).toNat : ℤ) + d.exp := by omega
  have hscaled : (2 * 10 ^ ctx.prec - 1 : ℚ) * 10 ^ ctx.etop =
      ((2 * 10 ^ ctx.prec - 1) * 10 ^ (ctx.etop - d.exp).toNat : ℕ) * 10 ^ d.exp := by
    conv_lhs => rw [hsplit, zpow_ten_add, zpow_natCast]
    rw [Nat.cast_mul, Nat.cast_sub (by omega)]
    push_cast
    ring
  rw [hround, le_roundHalfEven_iff heven hpow, Overflows, hscaled, Decimal.magnitude, ← mul_assoc,
    mul_le_mul_iff_left₀ (zpow_ten_pos _)]
  norm_cast

theorem etiny_le_etop : ctx.etiny ≤ ctx.etop := by
  have := ctx.emin_le
  have := ctx.emax_ge
  unfold etiny etop
  omega

theorem fix_overflow_iff : ctx.fix d = .error .overflow ↔ ctx.Overflows d := by
  have htiny := ctx.etiny_le_etop
  unfold fix
  split_ifs with h0 htop hlt hover
  · refine iff_of_false (by simp) (not_overflows (w := 0) (by positivity) ?_)
    simp [Decimal.magnitude, h0]
  · exact iff_of_true rfl (overflows_of_digits h0 htop)
  · refine iff_of_true rfl ?_
    have hmin : ctx.expMin d = ctx.etop := by
      by_contra hne
      have hstep : (ctx.roundTo d (ctx.expMin d)).exp ≤ ctx.expMin d + 1 := by
        unfold roundTo
        simp only
        split_ifs <;> simp
      unfold expMin at *
      omega
    rw [hmin] at hlt hover
    exact (overflows_iff_round hlt.le).mpr hover
  · refine iff_of_false (by simp) ?_
    rcases lt_or_ge (ctx.expMin d) ctx.etop with hbelow | hat
    · exact not_overflows_of_lt (le_max_left _ _) hbelow
    · have hmin : ctx.expMin d = ctx.etop := by
        unfold expMin at *
        omega
      rw [hmin] at hlt hover
      rwa [overflows_iff_round hlt.le]
  · refine iff_of_false (by simp) (not_overflows_of_ge (not_lt.mp htop) ?_)
    have := (le_max_left _ _).trans (not_lt.mp hlt)
    omega

theorem normalize_overflow_iff : ctx.normalize d = .error .overflow ↔ ctx.Overflows d := by
  rw [← fix_overflow_iff, normalize]
  cases ctx.fix d <;> simp [Except.map]

/-- The arithmetic of Python when nothing else is asked for. -/
def default : DecimalContext where
  prec := 28
  emin := -999999
  emax := 999999
  prec_pos := by norm_num
  emin_le := by norm_num
  emax_ge := by norm_num

end DecimalContext

end PyGridGain
