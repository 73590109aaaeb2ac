import Mathlib.Tactic
import Mathlib.Data.List.TakeWhile

/-! UTF-8 between lists of characters and lists of bytes. -/

namespace PyGridGain

/-- `value.encode('utf-8')`. -/
def utf8Encode (s : List Char) : List UInt8 := s.flatMap String.utf8EncodeChar

/-- `bytes.decode('utf-8')`; `none` is the `UnicodeDecodeError`. -/
def utf8Decode (b : List UInt8) : Option (List Char) :=
  (ByteArray.utf8Decode? ⟨b.toArray⟩).map Array.toList

theorem utf8Decode_utf8Encode (s : List Char) : utf8Decode (utf8Encode s) = some s := by
  have h : (⟨(utf8Encode s).toArray⟩ : ByteArray) = s.utf8Encode :=
    ByteArray.ext (by rw [List.utf8Encode, List.data_toByteArray, utf8Encode])
  rw [utf8Decode, h, List.utf8Decode?_utf8Encode, Option.map_some]

theorem utf8Encode_of_utf8Decode {b : List UInt8} {s : List Char} (h : utf8Decode b = some s) :
    utf8Encode s = b := by
  obtain ⟨a, ha, rfl⟩ := Option.map_eq_some_iff.mp h
  have hsome : (ByteArray.utf8Decode? ⟨b.toArray⟩).isSome := by
    rw [ha]
    rfl
  have hget := ByteArray.utf8Encode_get_utf8Decode? (h := hsome)
  simp only [ha, Option.get_some] at hget
  have hlist := congrArg (fun x : ByteArray => x.data.toList) hget
  simpa [List.utf8Encode, List.data_toByteArray, utf8Encode] using hlist

/-- Only U+0000 has a zero byte in its encoding. -/
theorem utf8EncodeChar_ne_zero {c : Char} (hc : c ≠ '\x00') :
    ∀ x ∈ String.utf8EncodeChar c, x ≠ 0 := by
  have hpos : c.val.toNat ≠ 0 := fun h => hc (Char.ext (UInt32.toNat_inj.mp h))
  intro x hx
  simp only [String.utf8EncodeChar] at hx
  split_ifs at hx with h1 h2 h3 <;>
    simp only [List.mem_cons, List.not_mem_nil, or_false] at hx <;>
    rcases hx with rfl | rfl | rfl | rfl <;>
    simp only [ne_eq, ← UInt8.toNat_inj, UInt8.toNat_ofNat', UInt8.toNat_zero] <;> omega

theorem utf8Encode_ne_zero {s : List Char} (hs : '\x00' ∉ s) : ∀ x ∈ utf8Encode s, x ≠ 0 := by
  intro x hx
  obtain ⟨c, hc, hx⟩ := List.mem_flatMap.mp hx
  exact utf8EncodeChar_ne_zero (fun h => hs (h ▸ hc)) x hx

/-- A text without U+0000 is not cut short by a reader that stops at a zero byte. -/
theorem takeWhile_utf8Encode {s : List Char} (hs : '\x00' ∉ s) :
    (utf8Encode s).takeWhile (· ≠ 0) = utf8Encode s :=
  List.takeWhile_eq_self_iff.mpr fun x hx => by simpa using utf8Encode_ne_zero hs x hx

theorem utf8Encode_eq_nil {s : List Char} : utf8Encode s = [] ↔ s = [] := by
  cases s with
  | nil => simp [utf8Encode]
  | cons c s => simp [utf8Encode, String.utf8EncodeChar_ne_nil]

/-- Every character takes at least one byte. -/
theorem length_le_utf8Encode (s : List Char) : s.length ≤ (utf8Encode s).length := by
  induction s with
  | nil => exact le_rfl
  | cons c s ih =>
    have hpos := List.length_pos_iff.mpr (String.utf8EncodeChar_ne_nil (c := c))
    have hcons : utf8Encode (c :: s) = String.utf8EncodeChar c ++ utf8Encode s := List.flatMap_cons
    rw [hcons, List.length_append, List.length_cons]
    omega

theorem utf8EncodeChar_length_eq_one {c : Char} :
    (String.utf8EncodeChar c).length = 1 ↔ c.toNat < 128 := by
  have hval : c.toNat = c.val.toNat := rfl
  rw [hval]
  simp only [String.utf8EncodeChar]
  split_ifs with h1 h2 h3 <;> simp <;> omega

/-- A text has as many bytes as characters if it is ASCII, and more otherwise. -/
theorem utf8Encode_length_eq_iff {s : List Char} :
    (utf8Encode s).length = s.length ↔ ∀ c ∈ s, c.toNat < 128 := by
  induction s with
  | nil => simp [utf8Encode]
  | cons c s ih =>
    have hpos := List.length_pos_iff.mpr (String.utf8EncodeChar_ne_nil (c := c))
    have hle := length_le_utf8Encode s
    have hcons : utf8Encode (c :: s) = String.utf8EncodeChar c ++ utf8Encode s := List.flatMap_cons
    rw [hcons, List.length_append, List.length_cons, List.forall_mem_cons, ← ih,
      ← utf8EncodeChar_length_eq_one]
    omega

end PyGridGain
