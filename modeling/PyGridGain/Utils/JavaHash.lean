import PyGridGain.Client.Partition
import PyGridGain.Utils.Cutils

/-! The hash codes of keys against those of Java, by which the server places them. Numbers,
identifiers and dates agree modulo `2 ^ 32`. For strings, the client reads code points where
Java reads UTF-16 code units. -/

namespace PyGridGain

/-! ### Strings -/

/-- The UTF-16 code units of a code point; a surrogate stands for itself. -/
def utf16 (c : CodePoint) : List ℤ :=
  if c.val < 0x10000 then [(c.val : ℤ)]
  else [(0xd800 + (c.val - 0x10000) / 0x400 : ℕ), (0xdc00 + (c.val - 0x10000) % 0x400 : ℕ)]

/-- `String.hashCode`. -/
def javaStringHashCode (s : PyUnicode) : ℤ := (poly31 0 (s.flatMap utf16)).bmod (2 ^ 32)

/-- What each code point adds to the polynomial over code units and not to the one over code
points, after a text of the polynomial `h`: a character outside the Basic Multilingual Plane
multiplies once more by 31. -/
def surplus (h : ℤ) : PyUnicode → List ℤ
  | [] => []
  | c :: s =>
    (if c.val < 0x10000 then 0 else 930 * h + (poly31 0 (utf16 c) - c.val)) ::
      surplus (poly31 h (utf16 c)) s

theorem poly31_utf16 (h : ℤ) (c : CodePoint) :
    poly31 h (utf16 c) = 31 * h + c.val +
      if c.val < 0x10000 then 0 else 930 * h + (poly31 0 (utf16 c) - c.val) := by
  unfold utf16
  split_ifs with hc
  · simp [poly31]
  · simp only [poly31, List.foldl_cons, List.foldl_nil]
    ring

theorem poly31_sub (s : PyUnicode) (h h' : ℤ) :
    poly31 h (s.flatMap utf16) - poly31 h' (codePoints s) = poly31 (h - h') (surplus h s) := by
  induction s generalizing h h' with
  | nil => rfl
  | cons c s ih =>
    have hcons : poly31 h' (codePoints (c :: s)) = poly31 (31 * h' + c.val) (codePoints s) := rfl
    rw [List.flatMap_cons, poly31_append, hcons, ih]
    have hstep : poly31 h (utf16 c) - (31 * h' + c.val) = 31 * (h - h') +
        if c.val < 0x10000 then 0 else 930 * h + (poly31 0 (utf16 c) - c.val) := by
      rw [poly31_utf16]
      ring
    rw [hstep]
    rfl

theorem poly31_surplus_eq_zero {s : PyUnicode} (hs : ∀ c ∈ s, c.val < 0x10000) (h : ℤ) :
    poly31 0 (surplus h s) = 0 := by
  induction s generalizing h with
  | nil => rfl
  | cons c s ih =>
    have hc : c.val < 0x10000 := hs c (List.mem_cons_self)
    simp only [surplus, hc, if_true]
    exact ih (fun d hd => hs d (List.mem_cons_of_mem c hd)) _

theorem hashcodeFallback_eq_javaStringHashCode_iff (exact : Bool) (s : PyUnicode) :
    hashcodeFallback (.str exact s) = javaStringHashCode s ↔
      poly31 0 (surplus 0 s) ≡ 0 [ZMOD 2 ^ 32] := by
  rw [hashcodeFallback_str, javaStringHashCode, ← BitVec.toInt_ofInt, BitVec.toInt_inj,
    ofInt_eq_iff, Int.modEq_iff_dvd, Int.modEq_zero_iff_dvd, poly31_sub, sub_self]

/-- The hash code of a string is that of Java exactly within the Basic Multilingual Plane,
and where the surplus of the other characters cancels modulo `2 ^ 32`. -/
theorem string_hashcode_is_java_iff [UnicodeData] (s : PyUnicode) :
    (hashcodeFallback (.str true s) = javaStringHashCode s ∧
      Cutils.hashcode (.str true s) = .ok (javaStringHashCode s)) ↔
      (∀ c ∈ s, c.val < 0x10000) ∨ poly31 0 (surplus 0 s) ≡ 0 [ZMOD 2 ^ 32] := by
  have hboth : (hashcodeFallback (.str true s) = javaStringHashCode s ∧
      Cutils.hashcode (.str true s) = .ok (javaStringHashCode s)) ↔
      hashcodeFallback (.str true s) = javaStringHashCode s := by
    rw [Cutils.hashcode_str, Except.ok.injEq, and_self]
  rw [hboth, hashcodeFallback_eq_javaStringHashCode_iff]
  constructor
  · exact Or.inr
  · rintro (hs | hsurplus)
    · rw [poly31_surplus_eq_zero hs]
    · exact hsurplus

/-- A single character outside the plane has the hash code 128512 in place of 1772899. -/
theorem supplementary_hashcode_differs :
    hashcodeFallback (.str true [0x1f600]) ≠ javaStringHashCode [0x1f600] := by
  decide +kernel

/-! ### Numbers, identifiers and dates -/

/-- `unsigned(value, ctypes.c_ulonglong)`. -/
def unsignedLong (value : ℤ) : ℕ := twos 8 value

/-- `unsigned(value, ctypes.c_longlong)`, which keeps the sign. -/
def signedLong (value : ℤ) : ℤ := signed 8 (twos 8 value)

/-- `LongObject.hashcode`. -/
def LongObject.hashcode (value : ℤ) : ℤ := Int.xor value (unsignedLong value >>> 32 : ℕ)

/-- `DoubleObject.hashcode`, with the bits of the number read as a `c_longlong`. -/
def DoubleObject.hashcode (bits : ℤ) : ℤ :=
  Int.xor (Int.land bits 0xffffffff) (signedLong bits >>> (32 : ℕ))

/-- `UUIDObject.hashcode` of `value.int`. -/
def UUIDObject.hashcode (int : ℤ) : ℤ :=
  let msb := int >>> (64 : ℕ)
  let lsb := Int.land int 0xffffffffffffffff
  let hilo := Int.xor msb lsb
  Int.xor (hilo >>> (32 : ℕ)) (Int.land hilo 0xffffffff)

def datetimeHashcode (value : ℤ) : ℤ :=
  Int.xor (Int.land value 0xffffffff) (unsignedLong value >>> 32 : ℕ)

/-- `Long.hashCode`, of the bits of a number or of a date: `(int) (v ^ (v >>> 32))`. -/
def javaLongHashCode (v : BitVec 64) : BitVec 32 := (v ^^^ (v >>> 32)).setWidth 32

/-- `UUID.hashCode`: the exclusive or of the four words. -/
def javaUuidHashCode (u : BitVec 128) : BitVec 32 :=
  u.extractLsb' 96 32 ^^^ u.extractLsb' 64 32 ^^^ u.extractLsb' 32 32 ^^^ u.extractLsb' 0 32

/-- An integer of any size routes a key as a hash code of Java does. -/
structure Routes (hashcode : ℤ) (java : BitVec 32) : Prop where
  congruent : hashcode ≡ java.toInt [ZMOD 2 ^ 32]
  partition : ∀ k ≤ 30, partition hashcode (2 ^ k) =
    ((java ^^^ (java >>> 16)) &&& BitVec.ofNat 32 (2 ^ k - 1)).toNat

theorem routes_of_ofInt {hashcode : ℤ} {java : BitVec 32} (h : BitVec.ofInt 32 hashcode = java) :
    Routes hashcode java := by
  constructor
  · rw [← ofInt_eq_iff, BitVec.ofInt_toInt, h]
  · intro k hk
    have hlt : 2 ^ k < 2 ^ 31 := Nat.pow_lt_pow_right (by norm_num) (by omega)
    have hpow : (2 ^ k).isPowerOfTwo := ⟨k, rfl⟩
    rw [partition_of_isPowerOfTwo Nat.one_le_two_pow hlt hpow, rendezvousPartition]
    simp only [hpow, if_true, h]
    have hle : ((java ^^^ (java >>> 16)) &&& BitVec.ofNat 32 (2 ^ k - 1)).toNat ≤ 2 ^ k - 1 := by
      rw [BitVec.toNat_and, BitVec.toNat_ofNat, Nat.mod_eq_of_lt (by omega)]
      exact Nat.and_le_right
    rw [BitVec.toInt_eq_toNat_of_lt (by omega)]

theorem testBit_toInt {w : ℕ} (v : BitVec w) {i : ℕ} (hi : i < w) :
    v.toInt.testBit i = v.getLsbD i := by
  have h := getLsbD_ofInt w v.toInt i
  rw [BitVec.ofInt_toInt] at h
  simpa [hi] using h.symm

theorem testBit_unsignedLong_shiftRight (v : BitVec 64) {i : ℕ} (hi : i < 32) :
    ((unsignedLong v.toInt >>> 32 : ℕ) : ℤ).testBit i = v.getLsbD (32 + i) := by
  have hcast : ((unsignedLong v.toInt >>> 32 : ℕ) : ℤ).testBit i =
      (unsignedLong v.toInt >>> 32).testBit i := rfl
  rw [hcast, Nat.testBit_shiftRight, unsignedLong, testBit_twos, testBit_toInt v (by omega)]
  simp [show 32 + i < 8 * 8 by omega]

theorem testBit_land_mask (x : ℤ) {n i : ℕ} (hi : i < n) :
    (Int.land x (2 ^ n - 1 : ℕ)).testBit i = x.testBit i := by
  have hmask : ((2 ^ n - 1 : ℕ) : ℤ).testBit i = (2 ^ n - 1).testBit i := rfl
  rw [Int.testBit_land, hmask, Nat.testBit_two_pow_sub_one]
  simp [hi]

theorem getLsbD_javaLongHashCode (v : BitVec 64) {i : ℕ} (hi : i < 32) :
    (javaLongHashCode v).getLsbD i = (v.getLsbD i ^^ v.getLsbD (32 + i)) := by
  rw [javaLongHashCode, BitVec.getLsbD_setWidth, BitVec.getLsbD_xor, BitVec.getLsbD_ushiftRight]
  simp [hi]

theorem ofInt_long_hashcode (v : BitVec 64) :
    BitVec.ofInt 32 (LongObject.hashcode v.toInt) = javaLongHashCode v := by
  apply BitVec.eq_of_getLsbD_eq
  intro i hi
  rw [getLsbD_ofInt, LongObject.hashcode, Int.testBit_lxor, testBit_toInt v (by omega),
    testBit_unsignedLong_shiftRight v hi, getLsbD_javaLongHashCode v hi]
  simp [hi]

theorem ofInt_datetimeHashcode (t : BitVec 64) :
    BitVec.ofInt 32 (datetimeHashcode t.toInt) = javaLongHashCode t := by
  apply BitVec.eq_of_getLsbD_eq
  intro i hi
  have hmask := testBit_land_mask t.toInt (n := 32) hi
  rw [getLsbD_ofInt, datetimeHashcode, Int.testBit_lxor, testBit_unsignedLong_shiftRight t hi,
    getLsbD_javaLongHashCode t hi]
  rw [testBit_toInt t (by omega)] at hmask
  simp [hi, ← hmask]

theorem signedLong_toInt (v : BitVec 64) : signedLong v.toInt = v.toInt := by
  refine signed_twos ⟨?_, ?_⟩
  · have := v.le_toInt
    norm_num at *
    omega
  · have := v.toInt_lt
    norm_num at *
    omega

theorem ofInt_double_hashcode (b : BitVec 64) :
    BitVec.ofInt 32 (DoubleObject.hashcode b.toInt) = javaLongHashCode b := by
  apply BitVec.eq_of_getLsbD_eq
  intro i hi
  have hmask := testBit_land_mask b.toInt (n := 32) hi
  rw [getLsbD_ofInt, DoubleObject.hashcode, Int.testBit_lxor, signedLong_toInt,
    testBit_shiftRight, testBit_toInt b (by omega), getLsbD_javaLongHashCode b hi]
  rw [testBit_toInt b (by omega)] at hmask
  simp [hi, ← hmask]

theorem ofInt_uuid_hashcode (u : BitVec 128) :
    BitVec.ofInt 32 (UUIDObject.hashcode u.toNat) = javaUuidHashCode u := by
  have hbit (i : ℕ) : ((u.toNat : ℕ) : ℤ).testBit i = u.getLsbD i := rfl
  apply BitVec.eq_of_getLsbD_eq
  intro i hi
  have hmask (x : ℤ) : (Int.land x 0xffffffff).testBit i = x.testBit i :=
    testBit_land_mask x (n := 32) hi
  have hlow (x : ℤ) : (Int.land x 0xffffffffffffffff).testBit i = x.testBit i :=
    testBit_land_mask x (n := 64) (by omega)
  have hhigh (x : ℤ) : (Int.land x 0xffffffffffffffff).testBit (32 + i) = x.testBit (32 + i) :=
    testBit_land_mask x (n := 64) (by omega)
  have hleft : (BitVec.ofInt 32 (UUIDObject.hashcode u.toNat)).getLsbD i =
      ((u.getLsbD (64 + (32 + i)) ^^ u.getLsbD (32 + i)) ^^
        (u.getLsbD (64 + i) ^^ u.getLsbD i)) := by
    simp only [getLsbD_ofInt, UUIDObject.hashcode, Int.testBit_lxor, testBit_shiftRight, hmask,
      hlow, hhigh, hbit, hi, decide_true, Bool.true_and]
  have hright : (javaUuidHashCode u).getLsbD i = (((u.getLsbD (96 + i) ^^ u.getLsbD (64 + i)) ^^
      u.getLsbD (32 + i)) ^^ u.getLsbD (0 + i)) := by
    simp only [javaUuidHashCode, BitVec.getLsbD_xor, BitVec.getLsbD_extractLsb', hi, decide_true,
      Bool.true_and]
  rw [hleft, hright, ← Nat.add_assoc, Nat.zero_add]
  grind

/-- The hash codes of numbers, dates and identifiers route keys as those of Java do. -/
theorem fixed_size_hashcodes_route :
    (∀ v : BitVec 64, Routes (LongObject.hashcode v.toInt) (javaLongHashCode v)) ∧
    (∀ b : BitVec 64, Routes (DoubleObject.hashcode b.toInt) (javaLongHashCode b)) ∧
    (∀ u : BitVec 128, Routes (UUIDObject.hashcode u.toNat) (javaUuidHashCode u)) ∧
    ∀ t : BitVec 64, Routes (datetimeHashcode t.toInt) (javaLongHashCode t) :=
  ⟨fun v => routes_of_ofInt (ofInt_long_hashcode v),
    fun b => routes_of_ofInt (ofInt_double_hashcode b),
    fun u => routes_of_ofInt (ofInt_uuid_hashcode u),
    fun t => routes_of_ofInt (ofInt_datetimeHashcode t)⟩

end PyGridGain
