import PyGridGain.Lib.ByteStream

/-! Packed little-endian structures in the manner of Python's `ctypes`: layouts
built at run time out of integer fields, arrays and nested structures, and
objects that are a layout together with the bytes copied under it. Field names
are any type with decidable equality. -/

namespace PyGridGain

inductive Scalar
  | byte | ubyte | short | ushort | int | uint | longlong
  deriving DecidableEq, Repr

namespace Scalar

def size : Scalar → ℕ
  | byte | ubyte => 1
  | short | ushort => 2
  | int | uint => 4
  | longlong => 8

def isSigned : Scalar → Bool
  | byte | short | int | longlong => true
  | ubyte | ushort | uint => false

/-- Assigning an `int` to a field keeps its low bits without an error. -/
def store (s : Scalar) (i : ℤ) : Bytes := leBytes s.size (twos s.size i)

def load (s : Scalar) (b : Bytes) : ℤ := if s.isSigned then leInt b else leNat b

/-- The integers that a field of this type holds unaltered. -/
def Range (s : Scalar) (i : ℤ) : Prop :=
  if s.isSigned then SignedRange s.size i else 0 ≤ i ∧ i < (256 ^ s.size : ℕ)

instance (s : Scalar) (i : ℤ) : Decidable (s.Range i) := by
  unfold Range; exact inferInstance

@[simp] theorem store_length (s : Scalar) (i : ℤ) : (s.store i).length = s.size := by
  simp [store]

theorem load_store {s : Scalar} {i : ℤ} (h : s.Range i) : s.load (s.store i) = i := by
  unfold load store Range at *
  split_ifs at * with hs
  · exact leInt_leBytes h
  · obtain ⟨hlo, hhi⟩ := h
    obtain ⟨n, rfl⟩ := Int.eq_ofNat_of_zero_le hlo
    have hn : n < 256 ^ s.size := by exact_mod_cast hhi
    rw [twos_of_nonneg hn, leNat_leBytes_of_lt hn]

theorem load_range {s : Scalar} {b : Bytes} (hb : b.length = s.size) : s.Range (s.load b) := by
  unfold load Range
  split_ifs with hs
  · rw [← hb]; exact leInt_range b
  · have := leNat_lt b
    rw [hb] at this
    omega

theorem store_load {s : Scalar} {b : Bytes} (hb : b.length = s.size) : s.store (s.load b) = b := by
  have hlt := leNat_lt b
  unfold load store
  rw [← hb]
  split_ifs with hs
  · rw [leInt, twos_signed hlt, leBytes_leNat]
  · rw [twos_of_nonneg hlt, leBytes_leNat]

/-- What reading a field gives back after `i` was assigned to it. -/
def wrap (s : Scalar) (i : ℤ) : ℤ := s.load (s.store i)

theorem wrap_range (s : Scalar) (i : ℤ) : s.Range (s.wrap i) := load_range (store_length s i)

theorem wrap_eq_iff {s : Scalar} {i : ℤ} : s.wrap i = i ↔ s.Range i :=
  ⟨fun h => h ▸ wrap_range s i, load_store⟩

/-- A number of the upper half comes back as negative. -/
theorem wrap_of_half {s : Scalar} {n : ℕ} (hs : s.isSigned = true) (h : 256 ^ s.size ≤ 2 * n)
    (hn : n < 256 ^ s.size) : s.wrap n = n - (256 ^ s.size : ℕ) := by
  rw [wrap, load, if_pos hs, store, twos_of_nonneg hn, leInt, leBytes_length,
    leNat_leBytes_of_lt hn, signed, if_neg (by omega)]

end Scalar

variable {ν : Type}

inductive CType (ν : Type)
  | scalar (s : Scalar)
  | chars (n : ℕ)
  | array (c : CType ν) (n : ℕ)
  | struct (fields : List (ν × CType ν))

namespace CType

/- `ctypes.sizeof`, with `_pack_ = 1`. -/
mutual
def size : CType ν → ℕ
  | .scalar s => s.size
  | .chars n => n
  | .array c n => n * c.size
  | .struct fields => sizeFields fields
def sizeFields : List (ν × CType ν) → ℕ
  | [] => 0
  | (_, c) :: fields => c.size + sizeFields fields
end

theorem sizeFields_append (a b : List (ν × CType ν)) :
    sizeFields (a ++ b) = sizeFields a + sizeFields b := by
  induction a with
  | nil => simp [sizeFields]
  | cons p a ih =>
    obtain ⟨n, c⟩ := p
    simp only [List.cons_append, sizeFields, ih, Nat.add_assoc]

end CType

/-- A run-time structure class together with the memory of one instance. -/
structure CObj (ν : Type) where
  ctype : CType ν
  mem : Bytes

namespace CObj

/-- `ctype.from_buffer_copy(buf)`; `none` is the `ValueError` of a short buffer. -/
def fromBufferCopy (c : CType ν) (buf : Bytes) : Option (CObj ν) :=
  if c.size ≤ buf.length then some ⟨c, buf.take c.size⟩ else none

theorem fromBufferCopy_of_length {c : CType ν} {buf : Bytes} (h : buf.length = c.size) :
    fromBufferCopy c buf = some ⟨c, buf⟩ := by
  unfold fromBufferCopy
  rw [if_pos h.ge, ← h, List.take_length]

/-- The integer in a field of a simple type. -/
def value (o : CObj ν) : Option ℤ :=
  match o.ctype with
  | .scalar s => some (s.load o.mem)
  | _ => none

/-- The items of an array of a simple type, in one pass. -/
def items (s : Scalar) (mem : Bytes) : ℕ → List ℤ
  | 0 => []
  | n + 1 => s.load (mem.take s.size) :: items s (mem.drop s.size) n

theorem items_wrap (s : Scalar) (xs : List ℤ) :
    items s (xs.flatMap s.store) xs.length = xs.map s.wrap := by
  induction xs with
  | nil => rfl
  | cons x xs ih =>
    simp only [List.flatMap_cons, List.length_cons, List.map_cons, items]
    rw [List.take_left' (Scalar.store_length s x), List.drop_left' (Scalar.store_length s x), ih]
    rfl

/-- The object whose fields are laid out and filled by `parts`. -/
def ofParts (parts : List (ν × CType ν × Bytes)) : CObj ν :=
  ⟨.struct (parts.map fun p => (p.1, p.2.1)), parts.flatMap fun p => p.2.2⟩

/-- Every part fills its field. -/
def Filled (parts : List (ν × CType ν × Bytes)) : Prop :=
  ∀ p ∈ parts, p.2.2.length = p.2.1.size

theorem ofParts_length {parts : List (ν × CType ν × Bytes)} (h : Filled parts) :
    (ofParts parts).mem.length = (ofParts parts).ctype.size := by
  induction parts with
  | nil => rfl
  | cons p parts ih =>
    have hp := h p (by simp)
    have hi := ih fun q hq => h q (by simp [hq])
    simp only [ofParts, List.map_cons, List.flatMap_cons, List.length_append, CType.size,
      CType.sizeFields] at hi ⊢
    rw [hp, hi]

theorem Filled.append {a b : List (ν × CType ν × Bytes)} (ha : Filled a) (hb : Filled b) :
    Filled (a ++ b) := fun p hp => (List.mem_append.mp hp).elim (ha p) (hb p)

/-- Parts under consecutive numbered names. -/
def numbered (name : ℕ → ν) (parts : List (CType ν × Bytes)) : List (ν × CType ν × Bytes) :=
  parts.mapIdx fun i p => (name i, p.1, p.2)

section Numbered
variable {name : ℕ → ν} {parts : List (CType ν × Bytes)}

theorem numbered_names : (numbered name parts).map (·.1) = (List.range parts.length).map name := by
  apply List.ext_getElem <;> simp [numbered]

theorem numbered_nodup (hname : Function.Injective name) :
    ((numbered name parts).map (·.1)).Nodup := by
  rw [numbered_names]
  exact List.nodup_range.map hname

theorem mem_numbered {i : ℕ} {p : CType ν × Bytes} (h : parts[i]? = some p) :
    (name i, p.1, p.2) ∈ numbered name parts := by
  obtain ⟨hi, rfl⟩ := List.getElem?_eq_some_iff.mp h
  exact List.mem_mapIdx.mpr ⟨i, hi, rfl⟩

theorem filled_numbered (h : ∀ p ∈ parts, p.2.length = p.1.size) :
    Filled (numbered name parts) := by
  intro p hp
  obtain ⟨i, hi, rfl⟩ := List.mem_mapIdx.mp hp
  exact h _ (List.getElem_mem hi)

theorem numbered_flatMap : (numbered name parts).flatMap (fun p => p.2.2) =
    parts.flatMap fun p => p.2 := by
  have h : (numbered name parts).map (fun p => p.2.2) = parts.map fun p => p.2 := by
    apply List.ext_getElem <;> simp [numbered]
  rw [List.flatMap_def, h, List.flatMap_def]

/-- Named parts before numbered ones, with no name in common. -/
theorem append_numbered_nodup {header : List (ν × CType ν × Bytes)}
    (hname : Function.Injective name) (hh : (header.map (·.1)).Nodup)
    (hne : ∀ p ∈ header, ∀ i, p.1 ≠ name i) :
    ((header ++ numbered name parts).map (·.1)).Nodup := by
  rw [List.map_append, List.nodup_append]
  refine ⟨hh, numbered_nodup hname, fun a ha b hb => ?_⟩
  obtain ⟨p, hp, rfl⟩ := List.mem_map.mp ha
  rw [numbered_names] at hb
  obtain ⟨i, -, rfl⟩ := List.mem_map.mp hb
  exact hne p hp i

end Numbered

section Getattr
variable [DecidableEq ν]

/-- Offset and layout of the field `n`, counting from `off`. -/
def fieldAt (n : ν) : List (ν × CType ν) → ℕ → Option (ℕ × CType ν)
  | [], _ => none
  | (m, c) :: fields, off => if m = n then some (off, c) else fieldAt n fields (off + c.size)

/-- `getattr(obj, name)`. -/
def getattr (o : CObj ν) (n : ν) : Option (CObj ν) :=
  match o.ctype with
  | .struct fields => (fieldAt n fields 0).map fun p => ⟨p.2, sliceAt o.mem p.1 p.2.size⟩
  | _ => none

/-- `getattr(obj, name)` of a field that holds an integer. -/
def getInt (o : CObj ν) (n : ν) : Option ℤ := (o.getattr n).bind value

theorem fieldAt_parts {parts : List (ν × CType ν × Bytes)} (h : Filled parts)
    (hnd : (parts.map (·.1)).Nodup) {n : ν} {c : CType ν} {b : Bytes} (hp : (n, c, b) ∈ parts)
    (off : ℕ) :
    ∃ k, fieldAt n (parts.map fun p => (p.1, p.2.1)) off = some (off + k, c) ∧
      sliceAt (parts.flatMap fun p => p.2.2) k c.size = b := by
  induction parts generalizing off with
  | nil => simp at hp
  | cons q parts ih =>
    obtain ⟨m, cq, bq⟩ := q
    have hq : bq.length = cq.size := h (m, cq, bq) (by simp)
    rw [List.map_cons, List.nodup_cons] at hnd
    rcases List.mem_cons.mp hp with heq | hmem
    · obtain ⟨rfl, rfl, rfl⟩ : n = m ∧ c = cq ∧ b = bq := by simpa using heq
      refine ⟨0, by simp [fieldAt], ?_⟩
      rw [sliceAt, List.drop_zero, List.flatMap_cons, List.take_left' hq]
    · have hne : m ≠ n := by
        rintro rfl
        exact hnd.1 (List.mem_map.mpr ⟨_, hmem, rfl⟩)
      obtain ⟨k, hk, hs⟩ := ih (fun p hp => h p (by simp [hp])) hnd.2 hmem (off + cq.size)
      refine ⟨cq.size + k, ?_, ?_⟩
      · simp only [List.map_cons, fieldAt, if_neg hne, hk, Nat.add_assoc]
      · rw [List.flatMap_cons, sliceAt, ← List.drop_drop, List.drop_left' hq]
        exact hs

/-- Reading a field of a filled structure gives that part. -/
theorem getattr_ofParts {parts : List (ν × CType ν × Bytes)} (h : Filled parts)
    (hnd : (parts.map (·.1)).Nodup) {n : ν} {c : CType ν} {b : Bytes} (hp : (n, c, b) ∈ parts) :
    (ofParts parts).getattr n = some ⟨c, b⟩ := by
  obtain ⟨k, hk, hs⟩ := fieldAt_parts h hnd hp 0
  rw [Nat.zero_add] at hk
  simp only [getattr, ofParts, hk, Option.map_some, hs]

theorem getInt_ofParts {parts : List (ν × CType ν × Bytes)} (h : Filled parts)
    (hnd : (parts.map (·.1)).Nodup) {n : ν} {s : Scalar} {b : Bytes}
    (hp : (n, .scalar s, b) ∈ parts) : (ofParts parts).getInt n = some (s.load b) := by
  rw [getInt, getattr_ofParts h hnd hp]
  rfl

theorem fieldAt_of_notMem {parts : List (ν × CType ν × Bytes)} {n : ν}
    (h : n ∉ parts.map (·.1)) (off : ℕ) :
    fieldAt n (parts.map fun p => (p.1, p.2.1)) off = none := by
  induction parts generalizing off with
  | nil => rfl
  | cons p parts ih =>
    rw [List.map_cons, List.mem_cons, not_or] at h
    rw [List.map_cons, fieldAt, if_neg (Ne.symm h.1)]
    exact ih h.2 _

/-- A field that a structure does not have. -/
theorem getattr_of_notMem {parts : List (ν × CType ν × Bytes)} {n : ν}
    (h : n ∉ parts.map (·.1)) : (ofParts parts).getattr n = none := by
  rw [getattr, ofParts]
  simp only [fieldAt_of_notMem h, Option.map_none]

end Getattr

end CObj

end PyGridGain
