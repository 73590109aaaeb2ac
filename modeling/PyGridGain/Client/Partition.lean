import PyGridGain.Client.Affinity
import PyGridGain.Lib.IntBits

/-! The partition of a key and the node that is primary for it. For a number of partitions
that is no power of two, the code divides where the affinity function of the server takes
the remainder. -/

namespace PyGridGain

/-- A connection: the node that it leads to, once it has been opened. -/
structure ClientNode where
  uuid : Option NodeUuid
  alive : Bool

/-- `unsigned(value)`, a `c_uint`. -/
def unsigned (value : ℤ) : ℕ := twos 4 value

/-- The variable `part` of `_get_node_by_hashcode`; `//` rounds down. -/
def partition (hashcode : ℤ) (parts : ℕ) : ℤ :=
  let mask : ℤ := parts - 1
  if Int.land parts mask = 0 then
    Int.land (Int.xor hashcode (unsigned hashcode >>> 16 : ℕ)) mask
  else |Int.fdiv hashcode parts|

structure AssertionError where
  deriving DecidableEq

namespace Affinity

/-- The end of `_get_node_by_hashcode`: an alive connection to the node that is primary for
the partition. -/
def primaryNode (s : Affinity) (nodes : List ClientNode) (cacheId part : ℤ) :
    Option ClientNode := do
  let received ← (s.partitionMapping.lookup cacheId).getD none
  let nodeMapping ← received.mapping.nodeMapping
  let (nodeUuid, _) ← nodeMapping.find? fun p => p.2.contains part
  let bestConn ← nodes.find? fun n => n.uuid == some nodeUuid
  if bestConn.alive then some bestConn else none

/-- `_get_node_by_hashcode`. -/
def getNodeByHashcode (s : Affinity) (nodes : List ClientNode) (cacheId hashcode : ℤ)
    (parts : ℕ) : Except AssertionError (Option ClientNode) :=
  let part := partition hashcode parts
  if 0 ≤ part ∧ part < parts then .ok (s.primaryNode nodes cacheId part) else .error ⟨⟩

end Affinity

/-! ### The affinity function of the server -/

/-- `RendezvousAffinityFunction`, on integers of 32 bits. -/
def rendezvousPartition (hashcode : ℤ) (parts : ℕ) : ℤ :=
  let h := BitVec.ofInt 32 hashcode
  if parts.isPowerOfTwo then ((h ^^^ (h >>> 16)) &&& BitVec.ofNat 32 (parts - 1)).toInt
  else |h.toInt.tmod parts|

/-- With `r` the partition that the remainder gives, the hash code is one of the `parts`
integers from `r * parts` on, or from `-r * parts` on. -/
def InRemainderBlock (hashcode : ℤ) (parts : ℕ) : Prop :=
  let r := |(BitVec.ofInt 32 hashcode).toInt.tmod parts|
  (r * parts ≤ hashcode ∧ hashcode < (r + 1) * parts) ∨
    (-r * parts ≤ hashcode ∧ hashcode < (1 - r) * parts)

variable {hashcode : ℤ} {parts : ℕ}

theorem land_mask_eq_zero_iff (h1 : 1 ≤ parts) (h2 : parts < 2 ^ 31) :
    Int.land parts (parts - 1) = 0 ↔ parts.isPowerOfTwo := by
  have hmask : (parts : ℤ) - 1 = (parts - 1 : ℕ) := by omega
  have htwos : twos 4 parts = parts := twos_of_nonneg (by omega)
  rw [hmask, land_natCast (k := 4) _ (by omega), htwos, Nat.cast_eq_zero,
    Nat.and_sub_one_eq_zero_iff_isPowerOfTwo (by omega)]

theorem toNat_ofInt_hashcode : (BitVec.ofInt 32 hashcode).toNat = twos 4 hashcode := by
  rw [BitVec.toNat_ofInt]
  rfl

/-- With a power of two the code does what the server does. -/
theorem partition_of_isPowerOfTwo (h1 : 1 ≤ parts) (h2 : parts < 2 ^ 31)
    (hp : parts.isPowerOfTwo) : partition hashcode parts = rendezvousPartition hashcode parts := by
  have hmask : (parts : ℤ) - 1 = (parts - 1 : ℕ) := by omega
  have hshift : unsigned hashcode >>> 16 < 2 ^ (8 * 4) :=
    (Nat.shiftRight_le _ _).trans_lt (twos_lt 4 hashcode)
  unfold partition rendezvousPartition
  simp only [(land_mask_eq_zero_iff h1 h2).mpr hp, if_true, hp]
  rw [hmask, land_natCast (k := 4) _ (by omega), twos_xor_natCast _ hshift]
  have hnat : ((BitVec.ofInt 32 hashcode ^^^ BitVec.ofInt 32 hashcode >>> 16) &&&
      BitVec.ofNat 32 (parts - 1)).toNat =
      (twos 4 hashcode ^^^ unsigned hashcode >>> 16) &&& (parts - 1) := by
    rw [BitVec.toNat_and, BitVec.toNat_xor, BitVec.toNat_ushiftRight, toNat_ofInt_hashcode,
      BitVec.toNat_ofNat, Nat.mod_eq_of_lt (by omega)]
    rfl
  have hle : (twos 4 hashcode ^^^ unsigned hashcode >>> 16) &&& (parts - 1) ≤ parts - 1 :=
    Nat.and_le_right
  rw [BitVec.toInt_eq_toNat_of_lt (by omega), hnat]

/-- The affinity function gives a partition. -/
theorem rendezvousPartition_range (hashcode : ℤ) (h1 : 1 ≤ parts) (h2 : parts < 2 ^ 31) :
    0 ≤ rendezvousPartition hashcode parts ∧ rendezvousPartition hashcode parts < parts := by
  by_cases hp : parts.isPowerOfTwo
  · rw [← partition_of_isPowerOfTwo h1 h2 hp]
    have hmask : (parts : ℤ) - 1 = (parts - 1 : ℕ) := by omega
    unfold partition
    simp only [(land_mask_eq_zero_iff h1 h2).mpr hp, if_true]
    rw [hmask, land_natCast (k := 4) _ (by omega)]
    have hle := Nat.and_le_right (n := twos 4 (Int.xor hashcode (unsigned hashcode >>> 16 : ℕ)))
      (m := parts - 1)
    omega
  · unfold rendezvousPartition
    simp only [hp, if_false]
    refine ⟨abs_nonneg _, ?_⟩
    have hlt := Int.natAbs_tmod (BitVec.ofInt 32 hashcode).toInt parts
    rw [Int.abs_eq_natAbs, hlt, Int.natAbs_natCast]
    exact_mod_cast Nat.mod_lt _ (by omega)

theorem fdiv_eq_iff {q : ℤ} (h1 : 1 ≤ parts) :
    Int.fdiv hashcode parts = q ↔ q * parts ≤ hashcode ∧ hashcode < (q + 1) * parts := by
  have hpos : (0 : ℤ) < parts := by omega
  rw [Int.fdiv_eq_ediv_of_nonneg _ hpos.le, ← Int.le_ediv_iff_mul_le hpos,
    ← Int.ediv_lt_iff_lt_mul hpos]
  omega

/-- Otherwise it does so for two blocks of hash codes. -/
theorem partition_eq_iff (h1 : 1 ≤ parts) (h2 : parts < 2 ^ 31) (hp : ¬parts.isPowerOfTwo) :
    partition hashcode parts = rendezvousPartition hashcode parts ↔
      InRemainderBlock hashcode parts := by
  unfold partition rendezvousPartition InRemainderBlock
  simp only [(land_mask_eq_zero_iff h1 h2).not.mpr hp, hp, if_false]
  rw [abs_eq (abs_nonneg _), fdiv_eq_iff h1, fdiv_eq_iff h1]
  refine or_congr_right ?_
  rw [show -|(BitVec.ofInt 32 hashcode).toInt.tmod parts| + 1 =
    1 - |(BitVec.ofInt 32 hashcode).toInt.tmod parts| by ring]

/-- The partition is the one of the affinity function, and the assertion holds, exactly for
a power of two and for the hash codes of the two blocks. -/
theorem partition_correct_iff (hashcode : ℤ) {parts : ℕ} (h1 : 1 ≤ parts) (h2 : parts < 2 ^ 31) :
    (0 ≤ partition hashcode parts ∧ partition hashcode parts < parts ∧
      partition hashcode parts = rendezvousPartition hashcode parts ∧
      ∀ (s : Affinity) (nodes : List ClientNode) (cacheId : ℤ),
        s.getNodeByHashcode nodes cacheId hashcode parts =
          .ok (s.primaryNode nodes cacheId (rendezvousPartition hashcode parts))) ↔
      parts.isPowerOfTwo ∨ InRemainderBlock hashcode parts := by
  have hrange := rendezvousPartition_range hashcode h1 h2
  constructor
  · rintro ⟨-, -, heq, -⟩
    by_cases hp : parts.isPowerOfTwo
    · exact Or.inl hp
    · exact Or.inr ((partition_eq_iff h1 h2 hp).mp heq)
  · intro h
    have heq : partition hashcode parts = rendezvousPartition hashcode parts := by
      by_cases hp : parts.isPowerOfTwo
      · exact partition_of_isPowerOfTwo h1 h2 hp
      · exact (partition_eq_iff h1 h2 hp).mpr (h.resolve_left hp)
    refine ⟨heq ▸ hrange.1, heq ▸ hrange.2, heq, fun s nodes cacheId => ?_⟩
    unfold Affinity.getNodeByHashcode
    rw [heq, if_pos hrange]

/-- The hash code 11 of ten partitions is in the block of its remainder. -/
theorem partition_correct_iff_ten :
    (0 ≤ partition 11 10 ∧ partition 11 10 < 10 ∧ partition 11 10 = rendezvousPartition 11 10 ∧
      ∀ (s : Affinity) (nodes : List ClientNode) (cacheId : ℤ),
        s.getNodeByHashcode nodes cacheId 11 10 =
          .ok (s.primaryNode nodes cacheId (rendezvousPartition 11 10))) ↔
      (10).isPowerOfTwo ∨ InRemainderBlock 11 10 :=
  @partition_correct_iff 11 10 (by decide) (by decide)

/-- Of ten partitions, the hash code 107 gives partition 10, and the assertion fails. -/
theorem partition_out_of_range :
    rendezvousPartition 107 10 = 7 ∧ partition 107 10 = 10 ∧
      Affinity.init.getNodeByHashcode [] 1 107 10 = .error ⟨⟩ :=
  ⟨by decide, by decide, rfl⟩

end PyGridGain
