import PyGridGain.Datatypes.Hashcode
import PyGridGain.Lib.Register

/-! The hash codes and schema ids of the C extension `_cutils`, and of the code of
`pygridgain.utils` that stands in for it. The two reduce to 32 bits at different places,
and they lower the case of a field name by different functions. -/

namespace PyGridGain

/-- `str` holds code points, surrogates among them. -/
abbrev CodePoint := Fin 0x110000

abbrev PyUnicode := List CodePoint

/-- The tables of the Python runtime: `str.lower`, which sees the whole text and may
lengthen it, and `Py_UNICODE_TOLOWER`. -/
class UnicodeData where
  lower : PyUnicode → PyUnicode
  toLower : CodePoint → CodePoint

/-- The argument of `hashcode`; `exact` is false for an instance of a subclass. -/
inductive HashData
  | none
  | str (exact : Bool) (s : PyUnicode)
  | bytes (exact : Bool) (b : Bytes)
  | bytearray (exact : Bool) (b : Bytes)
  | memoryview (b : Bytes)

/-- A key of a schema, with the same flag. -/
structure SchemaKey where
  exact : Bool
  name : PyUnicode
  deriving DecidableEq

/-- The argument of `schema_id`; of a mapping only the keys are read. A dictionary has them in
the order of its entries, which `PyDict_Next` follows, and `keys()` may give them in another
one (an `OrderedDict` after `move_to_end`). -/
inductive SchemaData
  | none
  | int (i : ℤ)
  | dict (entries keys : List SchemaKey)
  | mapping (keys : List SchemaKey)

structure ValueError where
  message : String
  deriving DecidableEq

/-! ### The C extension -/

namespace Cutils

def FNV1_OFFSET_BASIS : BitVec 32 := 0x811c9dc5

def FNV1_PRIME : BitVec 32 := 0x01000193

def hashcode_input_err := "supported only strings, bytearrays, bytes and memoryview"

def schema_id_input_err := "input argument must be dict or int"

def schema_field_type_err := "schema keys must be strings"

section
variable [UnicodeData]

/-- `str_hashcode_`; `lower` is an `int` that is tested for truth. -/
def strHashcode_ (str : PyUnicode) (lower : Bool) : BitVec 32 :=
  str.foldl (fun res c =>
    let ch := if lower then UnicodeData.toLower c else c
    31 * res + BitVec.ofNat 32 ch) 0

/-- The loop of `b_hashcode`: `31 * res + (signed char)buf[i]`. -/
def bufferHashcode (buf : Bytes) : BitVec 32 :=
  buf.foldl (fun res c => 31 * res + c.toBitVec.signExtend 32) 1

def bHashcode (data : HashData) : Except ValueError ℤ :=
  match data with
  | .bytes true b | .bytearray true b | .memoryview b => .ok (bufferHashcode b).toInt
  | _ => .error ⟨hashcode_input_err⟩

def hashcode (data : HashData) : Except ValueError ℤ :=
  match data with
  | .none => .ok 0
  | .str true s => .ok (strHashcode_ s false).toInt
  | _ => bHashcode data

/-- The four rounds of a field: `s_id ^= (field_id >> 8 * i) & 0xff; s_id *= FNV1_PRIME`. -/
def rounds (sId fieldId : BitVec 32) : BitVec 32 :=
  [0, 8, 16, 24].foldl (fun s k => (s ^^^ (fieldId.sshiftRight k &&& 0xff)) * FNV1_PRIME) sId

def schemaId (data : SchemaData) : Except ValueError ℤ :=
  match data with
  | .int i => .ok i
  | .none => .ok 0
  | .dict entries _ => do
    if entries.length = 0 then return 0
    let sId ← entries.foldlM (fun sId key =>
      if key.exact then .ok (rounds sId (strHashcode_ key.name true))
      else .error ⟨schema_field_type_err⟩) FNV1_OFFSET_BASIS
    return sId.toInt
  | .mapping _ => .error ⟨schema_id_input_err⟩

end

end Cutils

/-! ### The code that stands in for it -/

/-- `__hashcode_fallback`. -/
def hashcodeFallback (data : HashData) : ℤ :=
  match data with
  | .none => 0
  | .str _ s => s.foldl (fun result (char : CodePoint) => intOverflow (31 * result + char.val)) 0
  | .bytes _ b | .bytearray _ b | .memoryview b => hashcodeBytes b

/-- The four rounds of a field: `s_id ^= ((field_id >> 8 * i) & 0xff);
s_id = int_overflow(s_id * FNV1_PRIME)`. -/
def fallbackRounds (sId fieldId : ℤ) : ℤ :=
  [0, 8, 16, 24].foldl (fun s (k : ℕ) =>
    intOverflow (Int.xor s (Int.land (fieldId >>> k) 0xff) * FNV1_PRIME)) sId

/-- The loop of `__schema_id_fallback`; a mapping is true if it is not empty. -/
def fallbackLoop [UnicodeData] (size : ℕ) (keys : List SchemaKey) : ℤ :=
  keys.foldl (fun sId key =>
      fallbackRounds sId (hashcodeFallback (.str true (UnicodeData.lower key.name))))
    (if size ≠ 0 then FNV1_OFFSET_BASIS else 0)

/-- `__schema_id_fallback`. -/
def schemaIdFallback [UnicodeData] (schema : SchemaData) : ℤ :=
  match schema with
  | .int i => i
  | .none => 0
  | .dict entries keys => fallbackLoop entries.length keys
  | .mapping keys => fallbackLoop keys.length keys

/-! ### One register -/

theorem intOverflow_eq (v : ℤ) : intOverflow v = (BitVec.ofInt 32 v).toInt := by
  have hlt : twos 4 v < 2 ^ 32 := twos_lt 4 v
  have htwos : (BitVec.ofInt 32 v).toNat = twos 4 v := by
    rw [BitVec.toNat_ofInt]
    rfl
  have hxor : twos 4 v ^^^ 0x80000000 =
      if twos 4 v < 2 ^ 31 then twos 4 v + 2 ^ 31 else twos 4 v - 2 ^ 31 := xor_two_pow hlt
  rw [BitVec.toInt_eq_toNat_cond, htwos]
  unfold intOverflow
  rw [hxor]
  split_ifs <;> push_cast <;> omega

/-- `int_overflow` as the source has it. -/
theorem intOverflow_eq_land (v : ℤ) :
    intOverflow v = Int.land (Int.xor v 0x80000000) 0xffffffff - 0x80000000 := by
  have hmask : Int.land (Int.xor v (0x80000000 : ℕ)) (0xffffffff : ℕ) = _ :=
    land_natCast (k := 4) _ (by norm_num)
  rw [twos_xor_natCast (k := 4) v (by norm_num)] at hmask
  have hall : (twos 4 v ^^^ 0x80000000) &&& 0xffffffff = twos 4 v ^^^ 0x80000000 :=
    Nat.and_two_pow_sub_one_of_lt_two_pow (n := 32)
      (Nat.xor_lt_two_pow (twos_lt 4 v) (by norm_num))
  rw [hall] at hmask
  rw [intOverflow]
  exact congrArg (· - _) hmask.symm

@[simp] theorem ofInt_intOverflow (v : ℤ) : BitVec.ofInt 32 (intOverflow v) = BitVec.ofInt 32 v := by
  rw [intOverflow_eq, BitVec.ofInt_toInt]

/-- The loops that reduce each sum compute in a register. -/
theorem foldl_intOverflow {α : Type} (unit : α → ℤ) (start : BitVec 32) (l : List α) :
    l.foldl (fun r a => intOverflow (31 * r + unit a)) start.toInt =
      (poly31Register 32 start (l.map fun a => BitVec.ofInt 32 (unit a))).toInt := by
  unfold poly31Register
  rw [List.foldl_map]
  apply List.foldl_hom
  intro h a
  rw [intOverflow_eq, BitVec.ofInt_add, BitVec.ofInt_mul, BitVec.ofInt_toInt]
  rfl

/-- The code points of a string, as integers. -/
def codePoints (s : PyUnicode) : List ℤ := s.map fun c : CodePoint => (c.val : ℤ)

/-- The bytes of a buffer, as signed integers. -/
def signedUnits (b : Bytes) : List ℤ := b.map fun c : UInt8 => c.toBitVec.toInt

theorem leInt_singleton (c : UInt8) : leInt [c] = c.toBitVec.toInt := by
  rw [BitVec.toInt_eq_toNat_cond]
  simp [leInt, leNat, signed]

theorem hashcodeFallback_str (exact : Bool) (s : PyUnicode) :
    hashcodeFallback (.str exact s) = (BitVec.ofInt 32 (poly31 0 (codePoints s))).toInt := by
  rw [ofInt_poly31, codePoints, List.map_map]
  have h := foldl_intOverflow (fun c : CodePoint => (c.val : ℤ)) 0#32 s
  rw [BitVec.toInt_zero] at h
  exact h

theorem hashcodeBytes_eq (b : Bytes) :
    hashcodeBytes b = (BitVec.ofInt 32 (poly31 1 (signedUnits b))).toInt := by
  rw [ofInt_poly31, signedUnits, List.map_map]
  simp only [hashcodeBytes, leInt_singleton]
  exact foldl_intOverflow (fun c : UInt8 => c.toBitVec.toInt) 1 b

theorem Cutils.strHashcode_eq [UnicodeData] (s : PyUnicode) (lower : Bool) :
    Cutils.strHashcode_ s lower = BitVec.ofInt 32 (poly31 0 (codePoints
      (if lower then s.map UnicodeData.toLower else s))) := by
  rw [ofInt_poly31, codePoints, List.map_map]
  unfold Cutils.strHashcode_ poly31Register
  cases lower with
  | true =>
    rw [if_pos rfl, List.foldl_map, List.foldl_map]
    simp
  | false =>
    rw [if_neg (by simp), List.foldl_map]
    simp

theorem Cutils.bufferHashcode_eq (b : Bytes) :
    Cutils.bufferHashcode b = BitVec.ofInt 32 (poly31 1 (signedUnits b)) := by
  rw [ofInt_poly31, signedUnits, List.map_map]
  unfold Cutils.bufferHashcode poly31Register
  rw [List.foldl_map]
  rfl

/-- The buffers whose hash code the extension computes. -/
inductive IsBuffer : HashData → Bytes → Prop
  | bytes (b : Bytes) : IsBuffer (.bytes true b) b
  | bytearray (b : Bytes) : IsBuffer (.bytearray true b) b
  | memoryview (b : Bytes) : IsBuffer (.memoryview b) b

theorem Cutils.hashcode_str [UnicodeData] (s : PyUnicode) :
    Cutils.hashcode (.str true s) = .ok (hashcodeFallback (.str true s)) := by
  have hnative : Cutils.hashcode (.str true s) = .ok (Cutils.strHashcode_ s false).toInt := rfl
  rw [hnative, Cutils.strHashcode_eq, hashcodeFallback_str, if_neg (by simp)]

theorem hashcodeFallback_buffer {data : HashData} {b : Bytes} (h : IsBuffer data b) :
    hashcodeFallback data = (BitVec.ofInt 32 (poly31 1 (signedUnits b))).toInt := by
  rw [← hashcodeBytes_eq]
  cases h <;> rfl

theorem Cutils.hashcode_buffer [UnicodeData] {data : HashData} {b : Bytes} (h : IsBuffer data b) :
    Cutils.hashcode data = .ok (hashcodeFallback data) := by
  have hnative : Cutils.hashcode data = .ok (Cutils.bufferHashcode b).toInt := by
    cases h <;> rfl
  rw [hnative, hashcodeFallback_buffer h, Cutils.bufferHashcode_eq]

/-- The two hash codes are the polynomial, reduced to a signed integer of 32 bits. -/
theorem hashcodes_agree [UnicodeData] :
    (∀ s : PyUnicode,
      Cutils.hashcode (.str true s) = .ok (hashcodeFallback (.str true s)) ∧
      hashcodeFallback (.str true s) = (poly31 0 (codePoints s)).bmod (2 ^ 32)) ∧
    ∀ data b, IsBuffer data b →
      Cutils.hashcode data = .ok (hashcodeFallback data) ∧
      hashcodeFallback data = (poly31 1 (signedUnits b)).bmod (2 ^ 32) := by
  constructor
  · intro s
    refine ⟨Cutils.hashcode_str s, ?_⟩
    rw [hashcodeFallback_str, BitVec.toInt_ofInt]
  · intro data b hdata
    refine ⟨Cutils.hashcode_buffer hdata, ?_⟩
    rw [hashcodeFallback_buffer hdata, BitVec.toInt_ofInt]

/-! ### Schema ids -/

/-- The FNV1 digest of a sequence of field ids, for a schema of this size. -/
def Cutils.digest (size : ℕ) (ids : List (BitVec 32)) : BitVec 32 :=
  ids.foldl Cutils.rounds (if size ≠ 0 then Cutils.FNV1_OFFSET_BASIS else 0)

/-- Two sequences of field ids that FNV1 does not tell apart. -/
structure Collision (size : ℕ) (ids ids' : List (BitVec 32)) : Prop where
  ne : ids ≠ ids'
  ne_nil : ids' ≠ []
  digest : Cutils.digest size ids = Cutils.digest size ids'

theorem ofInt_fallbackRounds (sId : ℤ) (fieldId : BitVec 32) :
    BitVec.ofInt 32 (fallbackRounds sId fieldId.toInt) =
      Cutils.rounds (BitVec.ofInt 32 sId) fieldId := by
  unfold fallbackRounds Cutils.rounds
  symm
  apply List.foldl_hom
  intro s k
  rw [ofInt_intOverflow, BitVec.ofInt_mul, ofInt_lxor, ofInt_land, ofInt_toInt_shiftRight]
  rfl

theorem toInt_ofInt_fallbackRounds (sId fieldId : ℤ) :
    (BitVec.ofInt 32 (fallbackRounds sId fieldId)).toInt = fallbackRounds sId fieldId := by
  unfold fallbackRounds
  simp only [List.foldl_cons, List.foldl_nil, ofInt_intOverflow]
  exact (intOverflow_eq _).symm

theorem toNat_lt_codePoints (c : Char) : c.toNat < 0x110000 := by
  rcases c.valid with h | ⟨-, h⟩
  · exact h.trans (by norm_num)
  · exact h

/-- The code points of a text without surrogates. -/
def unicode (s : PyStr) : PyUnicode :=
  s.map fun c => ⟨c.toNat, toNat_lt_codePoints c⟩

theorem hashcodeFallback_unicode (s : PyStr) :
    hashcodeFallback (.str true (unicode s)) = hashcodeStr s := by
  simp only [hashcodeFallback, unicode, List.foldl_map, hashcodeStr]

theorem intOverflow_lxor (sId : ℤ) {b : ℕ} (hb : b < 2 ^ 32) :
    intOverflow (Int.xor sId b * FNV1_PRIME) = fnvStep sId b := by
  have htwos : BitVec.ofInt 32 (Int.xor sId b) = BitVec.ofInt 32 (twos 4 sId ^^^ b : ℕ) := by
    apply BitVec.eq_of_toNat_eq
    have h := twos_xor_natCast (k := 4) sId hb
    have hlt : twos 4 (Int.xor sId b) < 2 ^ 32 := twos_lt 4 _
    rw [BitVec.toNat_ofInt, BitVec.ofInt_natCast, BitVec.toNat_ofNat, ← h, Nat.mod_eq_of_lt hlt]
    rfl
  rw [fnvStep, intOverflow_eq, intOverflow_eq, BitVec.ofInt_mul, BitVec.ofInt_mul, htwos]

theorem fallbackRounds_eq (sId fieldId : ℤ) :
    fallbackRounds sId fieldId = (fieldIdBytes fieldId).foldl fnvStep sId := by
  unfold fallbackRounds fieldIdBytes
  rw [List.foldl_map]
  apply List.foldl_ext
  intro s k _
  have hbyte : Int.land (fieldId >>> k) 0xff = ((fieldId >>> k) % 256).toNat := by
    have h := land_natCast (k := 1) (m := 0xff) (fieldId >>> k) (by norm_num)
    have hlt := twos_lt 1 (fieldId >>> k)
    rw [Nat.and_two_pow_sub_one_of_lt_two_pow (n := 8) hlt] at h
    exact h
  rw [hbyte]
  exact intOverflow_lxor s (by omega)

section
variable [UnicodeData]

/-- The id of a field, as the extension and as the fallback compute it. -/
def nativeFieldId (key : SchemaKey) : BitVec 32 := Cutils.strHashcode_ key.name true

def fallbackFieldId (key : SchemaKey) : BitVec 32 :=
  BitVec.ofInt 32 (hashcodeFallback (.str true (UnicodeData.lower key.name)))

/-- Lowering the one name code point by code point and the other one whole leads to one hash
code. -/
def SameFieldId (entry key : SchemaKey) : Prop :=
  poly31 0 (codePoints (entry.name.map UnicodeData.toLower)) ≡
    poly31 0 (codePoints (UnicodeData.lower key.name)) [ZMOD 2 ^ 32]

theorem sameFieldId_iff (entry key : SchemaKey) :
    SameFieldId entry key ↔ nativeFieldId entry = fallbackFieldId key := by
  rw [nativeFieldId, fallbackFieldId, Cutils.strHashcode_eq, hashcodeFallback_str,
    BitVec.ofInt_toInt, ofInt_eq_iff, if_pos rfl]
  rfl

/-- Entry by entry and key by key, the field ids are the same. -/
theorem forall₂_sameFieldId_iff (entries keys : List SchemaKey) :
    List.Forall₂ SameFieldId entries keys ↔
      entries.map nativeFieldId = keys.map fallbackFieldId := by
  have hids : SameFieldId = fun entry key => nativeFieldId entry = fallbackFieldId key :=
    funext₂ fun entry key => propext (sameFieldId_iff entry key)
  rw [← List.forall₂_eq_eq_eq, List.forall₂_map_left_iff, List.forall₂_map_right_iff, hids]

theorem foldl_fallbackRounds (keys : List SchemaKey) (sId : ℤ) :
    BitVec.ofInt 32 (keys.foldl (fun sId key =>
      fallbackRounds sId (hashcodeFallback (.str true (UnicodeData.lower key.name)))) sId) =
      (keys.map fallbackFieldId).foldl Cutils.rounds (BitVec.ofInt 32 sId) := by
  rw [List.foldl_map]
  symm
  apply List.foldl_hom
  intro s key
  have hid : hashcodeFallback (.str true (UnicodeData.lower key.name)) =
      (fallbackFieldId key).toInt := by
    rw [fallbackFieldId, hashcodeFallback_str, BitVec.ofInt_toInt]
  rw [hid, ofInt_fallbackRounds]

theorem fallbackLoop_eq {size : ℕ} {keys : List SchemaKey} (h : keys ≠ [] ∨ size = 0) :
    fallbackLoop size keys = (Cutils.digest size (keys.map fallbackFieldId)).toInt := by
  have hstart : BitVec.ofInt 32 (if size ≠ 0 then (FNV1_OFFSET_BASIS : ℤ) else 0) =
      if size ≠ 0 then Cutils.FNV1_OFFSET_BASIS else 0 := by
    split_ifs <;> rfl
  have hdigest : BitVec.ofInt 32 (fallbackLoop size keys) =
      Cutils.digest size (keys.map fallbackFieldId) := by
    rw [fallbackLoop, foldl_fallbackRounds, hstart, Cutils.digest]
  rw [← hdigest]
  rcases List.eq_nil_or_concat keys with rfl | ⟨init, last, rfl⟩
  · obtain rfl := h.resolve_left (not_not.mpr rfl)
    rfl
  · -- the last round ends in `int_overflow`
    rw [fallbackLoop, List.concat_eq_append, List.foldl_append, List.foldl_cons, List.foldl_nil]
    exact (toInt_ofInt_fallbackRounds _ _).symm

/-- Without keys, a schema that is not empty has an id that is no signed integer. -/
theorem fallbackLoop_nil {size : ℕ} (h : size ≠ 0) : fallbackLoop size [] = FNV1_OFFSET_BASIS :=
  if_pos h

theorem Cutils.foldlM_rounds (keys : List SchemaKey) (sId : BitVec 32) :
    (keys.foldlM (fun sId key =>
      if key.exact then .ok (Cutils.rounds sId (Cutils.strHashcode_ key.name true))
      else .error ⟨Cutils.schema_field_type_err⟩) sId : Except ValueError (BitVec 32)) =
      if ∀ key ∈ keys, key.exact then .ok ((keys.map nativeFieldId).foldl Cutils.rounds sId)
      else .error ⟨Cutils.schema_field_type_err⟩ := by
  induction keys generalizing sId with
  | nil => rfl
  | cons key keys ih =>
    rw [List.foldlM_cons]
    cases hkey : key.exact with
    | false =>
      simp [hkey]
      rfl
    | true =>
      have hstep := ih (Cutils.rounds sId (Cutils.strHashcode_ key.name true))
      simp only [List.mem_cons, forall_eq_or_imp, hkey, true_and]
      exact hstep

theorem Cutils.schemaId_dict (entries keys : List SchemaKey) :
    Cutils.schemaId (.dict entries keys) = if ∀ key ∈ entries, key.exact
      then .ok (Cutils.digest entries.length (entries.map nativeFieldId)).toInt
      else .error ⟨Cutils.schema_field_type_err⟩ := by
  cases entries with
  | nil => rfl
  | cons key entries =>
    unfold Cutils.schemaId
    simp only [List.length_eq_zero_iff, List.cons_ne_nil, if_false, Cutils.foldlM_rounds]
    split_ifs <;> rfl

/-- The fallback gives the schema ids of the binary objects. -/
theorem schemaIdFallback_unicode [Python]
    (hlower : ∀ s : PyStr, UnicodeData.lower (unicode s) = unicode (Python.lower s))
    (schema : List (PyStr × DataType)) :
    let keys : List SchemaKey := schema.map fun f => ⟨true, unicode f.1⟩
    schemaIdFallback (.dict keys keys) = schemaId schema := by
  intro keys
  unfold schemaIdFallback fallbackLoop schemaId
  by_cases h : schema = []
  · simp [keys, h]
  · simp only [keys, h, if_false, List.length_map, ne_eq, List.length_eq_zero_iff,
      not_false_eq_true, if_true, List.foldl_map, hlower, hashcodeFallback_unicode,
      fallbackRounds_eq]
    rfl

/-- The two schema ids agree exactly for dictionaries with keys of type `str`, which `keys()`
gives in the order of the entries, up to names whose case the two functions lower to texts of
one hash code, and collisions of FNV1; and for no other mapping. -/
theorem schema_ids_agree_iff :
    (∀ entries keys : List SchemaKey,
      (Cutils.schemaId (.dict entries keys) = .ok (schemaIdFallback (.dict entries keys)) ∧
        SignedRange 4 (schemaIdFallback (.dict entries keys))) ↔
        (∀ key ∈ entries, key.exact) ∧ (List.Forall₂ SameFieldId entries keys ∨
          Collision entries.length (entries.map nativeFieldId) (keys.map fallbackFieldId))) ∧
    ∀ keys : List SchemaKey,
      Cutils.schemaId (.mapping keys) ≠ .ok (schemaIdFallback (.mapping keys)) := by
  refine ⟨fun entries keys => ?_, fun keys => nofun⟩
  rw [forall₂_sameFieldId_iff, Cutils.schemaId_dict]
  have hfallback : schemaIdFallback (.dict entries keys) = fallbackLoop entries.length keys := rfl
  rw [hfallback]
  by_cases hkeys : keys ≠ [] ∨ entries.length = 0
  · have hrange : SignedRange 4 (fallbackLoop entries.length keys) := by
      rw [fallbackLoop_eq hkeys, ← BitVec.ofInt_toInt (x := Cutils.digest _ _), ← intOverflow_eq]
      exact intOverflow_range _
    rw [and_iff_left hrange, fallbackLoop_eq hkeys]
    split_ifs with hexact
    · rw [Except.ok.injEq, BitVec.toInt_inj, and_iff_right hexact]
      constructor
      · intro hdigest
        by_cases heq : entries.map nativeFieldId = keys.map fallbackFieldId
        · exact Or.inl heq
        · refine Or.inr ⟨heq, fun hnil => ?_, hdigest⟩
          obtain rfl := List.map_eq_nil_iff.mp hnil
          obtain rfl := List.eq_nil_of_length_eq_zero (hkeys.resolve_left (not_not.mpr rfl))
          exact heq rfl
      · rintro (heq | hcoll)
        · rw [heq]
        · exact hcoll.digest
    · exact iff_of_false (by simp) fun h => hexact h.1
  · obtain ⟨hnil, hsize⟩ := not_or.mp hkeys
    obtain rfl := not_not.mp hnil
    have hbasis : ¬SignedRange 4 (FNV1_OFFSET_BASIS : ℤ) := by decide
    rw [fallbackLoop_nil hsize]
    refine iff_of_false (fun h => hbasis h.2) fun h => ?_
    rcases h.2 with heq | hcoll
    · exact hsize (by simpa using congrArg List.length heq)
    · exact hcoll.ne_nil rfl

end

/-- Lower-casing of ASCII, and of U+0130, whose lower case is an `i` with a combining dot. -/
abbrev dottedI : UnicodeData where
  lower s := s.flatMap fun c =>
    if c = 0x130 then [0x69, 0x307] else if 0x41 ≤ c ∧ c ≤ 0x5a then [c + 0x20] else [c]
  toLower c := if c = 0x130 then 0x69 else if 0x41 ≤ c ∧ c ≤ 0x5a then c + 0x20 else c

/-- A field named `İ`. -/
theorem dotted_name_ids_differ :
    @Cutils.schemaId dottedI (.dict [⟨true, [0x130]⟩] [⟨true, [0x130]⟩]) ≠
      .ok (@schemaIdFallback dottedI (.dict [⟨true, [0x130]⟩] [⟨true, [0x130]⟩])) := by
  decide +kernel

/-- The fields `a` and `b` of an `OrderedDict`, of which `a` has been moved to the end. -/
example :
    let a : SchemaKey := ⟨true, [0x61]⟩
    let b : SchemaKey := ⟨true, [0x62]⟩
    @Cutils.schemaId dottedI (.dict [a, b] [b, a]) ≠
      .ok (@schemaIdFallback dottedI (.dict [a, b] [b, a])) := by
  decide +kernel

end PyGridGain
