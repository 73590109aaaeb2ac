import Mathlib.Tactic

/-! Fixed-width little-endian integers: `int.to_bytes` and `int.from_bytes` of
Python, signed and unsigned, over lists of bytes. Every width is a parameter; a
width of `k` bytes holds the residues modulo `256 ^ k`. -/

namespace PyGridGain

abbrev Bytes := List UInt8

/-- The `k` low bytes of `v`, least significant first. -/
def leBytes : ℕ → ℕ → Bytes
  | 0, _ => []
  | k + 1, v => UInt8.ofNat (v % 256) :: leBytes k (v / 256)

/-- `int.from_bytes(b, 'little')`. -/
def leNat : Bytes → ℕ
  | [] => 0
  | b :: bs => b.toNat + 256 * leNat bs

/-- The residue of `i` modulo `256 ^ k`: its two's complement in `k` bytes. -/
def twos (k : ℕ) (i : ℤ) : ℕ := (i % (256 ^ k : ℕ)).toNat

/-- The signed reading of a residue of `k` bytes. -/
def signed (k u : ℕ) : ℤ := if 2 * u < 256 ^ k then u else u - (256 ^ k : ℕ)

/-- `int.from_bytes(b, 'little', signed=True)`. -/
def leInt (b : Bytes) : ℤ := signed b.length (leNat b)

/-- `i` is a signed integer of `k` bytes. -/
def SignedRange (k : ℕ) (i : ℤ) : Prop := -(256 ^ k : ℕ) ≤ 2 * i ∧ 2 * i < (256 ^ k : ℕ)

instance (k : ℕ) (i : ℤ) : Decidable (SignedRange k i) := by
  unfold SignedRange; exact inferInstance

@[simp] theorem leBytes_length (k v : ℕ) : (leBytes k v).length = k := by
  induction k generalizing v with
  | zero => rfl
  | succ k ih => simp [leBytes, ih]

theorem leNat_leBytes (k v : ℕ) : leNat (leBytes k v) = v % 256 ^ k := by
  induction k generalizing v with
  | zero => simp [leBytes, leNat, Nat.mod_one]
  | succ k ih =>
    have hb : (UInt8.ofNat (v % 256)).toNat = v % 256 := by
      simp [UInt8.toNat_ofNat']
    simp only [leBytes, leNat, ih, hb]
    rw [pow_succ', Nat.mod_mul]

theorem leNat_leBytes_of_lt {k v : ℕ} (h : v < 256 ^ k) : leNat (leBytes k v) = v := by
  rw [leNat_leBytes, Nat.mod_eq_of_lt h]

theorem leNat_lt (b : Bytes) : leNat b < 256 ^ b.length := by
  induction b with
  | nil => simp [leNat]
  | cons x b ih =>
    have hx : x.toNat < 256 := x.toNat_lt
    simp only [leNat, List.length_cons, pow_succ]
    omega

theorem leBytes_leNat (b : Bytes) : leBytes b.length (leNat b) = b := by
  induction b with
  | nil => rfl
  | cons x b ih =>
    have hx : x.toNat < 256 := x.toNat_lt
    have hm : (x.toNat + 256 * leNat b) % 256 = x.toNat := by omega
    have hd : (x.toNat + 256 * leNat b) / 256 = leNat b := by omega
    simp [leBytes, leNat, hm, hd, ih]

theorem twos_lt (k : ℕ) (i : ℤ) : twos k i < 256 ^ k := by
  have hp : (0 : ℤ) < (256 ^ k : ℕ) := by positivity
  have h0 := Int.emod_nonneg i hp.ne'
  have h1 := Int.emod_lt_of_pos i hp
  unfold twos
  omega

theorem signed_twos {k : ℕ} {i : ℤ} (h : SignedRange k i) : signed k (twos k i) = i := by
  obtain ⟨hlo, hhi⟩ := h
  have hp : (0 : ℤ) < (256 ^ k : ℕ) := by positivity
  unfold signed twos
  generalize hN : (256 ^ k : ℕ) = N at *
  by_cases hi : 0 ≤ i
  · have : i % (N : ℤ) = i := Int.emod_eq_of_lt hi (by omega)
    rw [this]
    split_ifs <;> omega
  · have : i % (N : ℤ) = i + N := by
      rw [← Int.add_emod_right]
      exact Int.emod_eq_of_lt (by omega) (by omega)
    rw [this]
    split_ifs <;> omega

theorem signed_range {k u : ℕ} (hu : u < 256 ^ k) : SignedRange k (signed k u) := by
  unfold SignedRange signed
  generalize (256 ^ k : ℕ) = N at *
  split_ifs <;> omega

theorem twos_of_nonneg {k : ℕ} {v : ℕ} (h : v < 256 ^ k) : twos k v = v := by
  unfold twos
  rw [← Int.natCast_mod, Nat.mod_eq_of_lt h]
  rfl

theorem twos_signed {k u : ℕ} (hu : u < 256 ^ k) : twos k (signed k u) = u := by
  have hp : (0 : ℤ) < (256 ^ k : ℕ) := by positivity
  unfold twos signed
  generalize (256 ^ k : ℕ) = N at *
  split_ifs with h
  · rw [Int.emod_eq_of_lt (by omega) (by omega)]; omega
  · rw [Int.sub_emod_right, Int.emod_eq_of_lt (by omega) (by omega)]; omega

theorem leInt_leBytes {k : ℕ} {i : ℤ} (h : SignedRange k i) :
    leInt (leBytes k (twos k i)) = i := by
  rw [leInt, leBytes_length, leNat_leBytes_of_lt (twos_lt k i), signed_twos h]

theorem leInt_range (b : Bytes) : SignedRange b.length (leInt b) := signed_range (leNat_lt b)

/-- A count below `2 ^ (8 k - 1)` reads the same signed and unsigned. -/
theorem signed_of_half {k u : ℕ} (h : 2 * u < 256 ^ k) : signed k u = u := by
  simp [signed, h]

theorem leBytes_append (j k v : ℕ) :
    leBytes (j + k) v = leBytes j v ++ leBytes k (v / 256 ^ j) := by
  induction j generalizing v with
  | zero => simp [leBytes]
  | succ j ih =>
    rw [Nat.succ_add]
    simp only [leBytes, ih, List.cons_append, Nat.div_div_eq_div_mul, pow_succ']

end PyGridGain
