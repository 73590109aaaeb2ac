import PyGridGain.Datatypes.Value

/-! `pygridgain.utils`: hash codes of strings and byte buffers, and the type,
field and schema ids made of them. -/

namespace PyGridGain

def FNV1_OFFSET_BASIS : ℕ := 0x811c9dc5

def FNV1_PRIME : ℕ := 0x01000193

/-- `str.lower` of the Python runtime: full Unicode lower-casing. -/
class Python where
  lower : PyStr → PyStr

/-- `((value ^ 0x80000000) & 0xffffffff) - 0x80000000`; the mask is taken first,
which the exclusive or with a bit inside it does not see. -/
def intOverflow (value : ℤ) : ℤ := ((twos 4 value ^^^ 0x80000000 : ℕ) : ℤ) - 0x80000000

/-- `__hashcode_fallback` of a `str`. -/
def hashcodeStr (s : PyStr) : ℤ :=
  s.foldl (fun result char => intOverflow (31 * result + char.toNat)) 0

/-- `__hashcode_fallback` of a byte buffer: bytes count as signed. -/
def hashcodeBytes (b : Bytes) : ℤ :=
  b.foldl (fun result byte => intOverflow (31 * result + leInt [byte])) 1

/-- One step of the FNV1 hash: `int_overflow((s_id ^ byte) * FNV1_PRIME)`. -/
def fnvStep (sId : ℤ) (byte : ℕ) : ℤ := intOverflow ((twos 4 sId ^^^ byte : ℕ) * FNV1_PRIME)

/-- The four bytes of a field id, `(field_id >> 8 * i) & 0xff`. -/
def fieldIdBytes (fieldId : ℤ) : List ℕ :=
  [0, 8, 16, 24].map fun i : ℕ => ((fieldId >>> i) % 256).toNat

section Ids
variable [Python]

/-- `entity_id(name)`. -/
def entityId (name : PyStr) : ℤ := hashcodeStr (Python.lower name)

/-- `__schema_id_fallback(schema)`. -/
def schemaId (schema : List (PyStr × DataType)) : ℤ :=
  if schema = [] then 0
  else schema.foldl (fun sId f => (fieldIdBytes (entityId f.1)).foldl fnvStep sId)
    FNV1_OFFSET_BASIS

def DataClass.typeId (c : DataClass) : ℤ := entityId c.typeName

def DataClass.schemaId (c : DataClass) : ℤ := PyGridGain.schemaId c.schema

end Ids

theorem intOverflow_range (v : ℤ) : SignedRange 4 (intOverflow v) := by
  have h : twos 4 v ^^^ 0x80000000 < 2 ^ 32 :=
    Nat.xor_lt_two_pow (twos_lt 4 v) (by norm_num)
  unfold intOverflow SignedRange
  norm_num at *
  omega

/-- A non-empty fold of wrapped steps ends wrapped. -/
theorem foldl_range {α : Type} {f : ℤ → α → ℤ} (hf : ∀ r a, SignedRange 4 (f r a))
    {r : ℤ} {l : List α} (h : l ≠ [] ∨ SignedRange 4 r) : SignedRange 4 (l.foldl f r) := by
  induction l generalizing r with
  | nil => exact h.resolve_left (by simp)
  | cons a l ih => exact ih (Or.inr (hf r a))

theorem hashcodeStr_range (s : PyStr) : SignedRange 4 (hashcodeStr s) :=
  foldl_range (fun _ _ => intOverflow_range _) (Or.inr (by decide))

theorem hashcodeBytes_range (b : Bytes) : SignedRange 4 (hashcodeBytes b) :=
  foldl_range (fun _ _ => intOverflow_range _) (Or.inr (by decide))

theorem schemaId_range [Python] (schema : List (PyStr × DataType)) :
    SignedRange 4 (schemaId schema) := by
  unfold schemaId
  split_ifs with h
  · decide
  · exact foldl_range (fun r f => foldl_range (fun _ _ => intOverflow_range _)
      (Or.inl (by simp [fieldIdBytes]))) (Or.inl h)

end PyGridGain
