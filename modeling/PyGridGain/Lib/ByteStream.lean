import PyGridGain.Lib.LittleEndian

/-! A seekable byte buffer, as `io.BytesIO` keeps one: writing at a position
overwrites, grows the buffer, and fills a gap past the end with zeros. What a
reader needs of a buffer is only which bytes stand at a position. -/

namespace PyGridGain

/-- `BytesIO.write(data)` at position `pos`; writing nothing changes nothing. -/
def writeAt (buf : Bytes) (pos : ℕ) (data : Bytes) : Bytes :=
  if data = [] then buf
  else (buf ++ List.replicate (pos - buf.length) 0).take pos ++ data ++ buf.drop (pos + data.length)

/-- `buf[pos:pos + n]`. -/
def sliceAt (buf : Bytes) (pos n : ℕ) : Bytes := (buf.drop pos).take n

/-- A slice index of Python: negative ones count from the end, and both ends are
clipped to the sequence. -/
def clipIndex (n : ℕ) (i : ℤ) : ℕ := if i < 0 then (n + i).toNat else min n i.toNat

/-- `buf[i:j]` with Python's indices. -/
def pySlice (buf : Bytes) (i j : ℤ) : Bytes :=
  sliceAt buf (clipIndex buf.length i) (clipIndex buf.length j - clipIndex buf.length i)

theorem pySlice_of_nonneg {buf : Bytes} {i j : ℕ} (hij : i ≤ j) :
    pySlice buf i j = sliceAt buf i (j - i) := by
  simp only [pySlice, clipIndex, Int.toNat_natCast, if_neg (Int.not_lt.mpr (Int.natCast_nonneg _))]
  by_cases hi : i ≤ buf.length
  · by_cases hj : j ≤ buf.length
    · rw [Nat.min_eq_right hi, Nat.min_eq_right hj]
    · rw [Nat.min_eq_right hi, Nat.min_eq_left (by omega), sliceAt, sliceAt,
        List.take_of_length_le (by rw [List.length_drop]),
        List.take_of_length_le (by rw [List.length_drop]; omega)]
  · rw [Nat.min_eq_left (by omega), sliceAt, sliceAt, List.drop_length,
      List.drop_eq_nil_of_le (by omega), List.take_nil, List.take_nil]

theorem pySlice_zero (b : Bytes) (j : ℤ) : pySlice b 0 j = b.take (clipIndex b.length j) := by
  simp [pySlice, clipIndex, sliceAt]

theorem pySlice_length (b : Bytes) (i : ℤ) :
    pySlice b i b.length = b.drop (clipIndex b.length i) := by
  have hend : clipIndex b.length (b.length : ℤ) = b.length := by
    rw [clipIndex, if_neg (by omega), Int.toNat_natCast, Nat.min_self]
  rw [pySlice, hend, sliceAt, List.take_of_length_le (by rw [List.length_drop])]

/-- The bytes `data` stand at `pos`. -/
def At (buf : Bytes) (pos : ℕ) (data : Bytes) : Prop := data <+: buf.drop pos

theorem At.slice {buf : Bytes} {pos : ℕ} {data : Bytes} (h : At buf pos data) :
    sliceAt buf pos data.length = data := by
  obtain ⟨t, ht⟩ := h
  rw [sliceAt, ← ht, List.take_left]

theorem at_append {buf : Bytes} {pos : ℕ} {a b : Bytes} :
    At buf pos (a ++ b) ↔ At buf pos a ∧ At buf (pos + a.length) b := by
  constructor
  · rintro ⟨t, ht⟩
    refine ⟨⟨b ++ t, by rw [← ht, List.append_assoc]⟩, t, ?_⟩
    rw [← List.drop_drop, ← ht, List.append_assoc, List.drop_left]
  · rintro ⟨⟨t, ht⟩, u, hu⟩
    refine ⟨u, ?_⟩
    rw [← List.drop_drop, ← ht, List.drop_left] at hu
    rw [← ht, List.append_assoc, hu]

theorem At.left {buf : Bytes} {pos : ℕ} {a b : Bytes} (h : At buf pos (a ++ b)) :
    At buf pos a := (at_append.mp h).1

theorem At.right {buf : Bytes} {pos : ℕ} {a b : Bytes} (h : At buf pos (a ++ b)) :
    At buf (pos + a.length) b := (at_append.mp h).2

theorem At.length_le {buf : Bytes} {pos : ℕ} {data : Bytes} (h : At buf pos data)
    (hne : data ≠ []) : pos + data.length ≤ buf.length := by
  have hl := List.IsPrefix.length_le h
  have : 0 < data.length := List.length_pos_iff.mpr hne
  rw [List.length_drop] at hl
  omega

theorem at_of_eq (pre data suffix : Bytes) : At (pre ++ data ++ suffix) pre.length data :=
  ⟨suffix, by rw [List.append_assoc, List.drop_left]⟩

/-- The buffer up to `pos`, filled with zeros where it is shorter. -/
def padTo (buf : Bytes) (pos : ℕ) : Bytes :=
  (buf ++ List.replicate (pos - buf.length) 0).take pos

@[simp] theorem padTo_length (buf : Bytes) (pos : ℕ) : (padTo buf pos).length = pos := by
  simp only [padTo, List.length_take, List.length_append, List.length_replicate]
  omega

theorem writeAt_of_ne {data : Bytes} (hne : data ≠ []) (buf : Bytes) (pos : ℕ) :
    writeAt buf pos data = padTo buf pos ++ data ++ buf.drop (pos + data.length) := by
  simp [writeAt, padTo, hne]

@[simp] theorem writeAt_nil (buf : Bytes) (pos : ℕ) : writeAt buf pos [] = buf := by
  simp [writeAt]

theorem padTo_of_le {buf : Bytes} {pos : ℕ} (h : pos ≤ buf.length) :
    padTo buf pos = buf.take pos := by
  rw [padTo, Nat.sub_eq_zero_of_le h, List.replicate_zero, List.append_nil]

theorem padTo_append {p x : Bytes} {n : ℕ} (h : n ≤ p.length) : padTo (p ++ x) n = p.take n := by
  rw [padTo_of_le (by rw [List.length_append]; omega), List.take_append_of_le_length h]

theorem at_writeAt (buf : Bytes) (pos : ℕ) (data : Bytes) : At (writeAt buf pos data) pos data := by
  by_cases hne : data = []
  · subst hne; exact List.nil_prefix
  · rw [writeAt_of_ne hne]
    simpa using at_of_eq (padTo buf pos) data (buf.drop (pos + data.length))

theorem drop_writeAt (buf : Bytes) (pos : ℕ) (data : Bytes) :
    (writeAt buf pos data).drop (pos + data.length) = buf.drop (pos + data.length) := by
  by_cases hne : data = []
  · simp [hne]
  · rw [writeAt_of_ne hne]
    exact List.drop_left' (by simp)

theorem take_writeAt {buf : Bytes} {pos : ℕ} {data : Bytes} (hne : data ≠ []) :
    (writeAt buf pos data).take (pos + data.length) = padTo buf pos ++ data := by
  rw [writeAt_of_ne hne]
  exact List.take_left' (by simp)

/-- Two writes in a row are one write of both. -/
theorem writeAt_writeAt (buf : Bytes) (pos : ℕ) (a b : Bytes) :
    writeAt (writeAt buf pos a) (pos + a.length) b = writeAt buf pos (a ++ b) := by
  by_cases ha : a = []
  · simp [ha]
  by_cases hb : b = []
  · simp [hb]
  have hab : a ++ b ≠ [] := by simp [ha]
  have hpad : padTo (writeAt buf pos a) (pos + a.length) = padTo buf pos ++ a := by
    rw [writeAt_of_ne ha, padTo_append (by simp), List.take_of_length_le (by simp)]
  rw [writeAt_of_ne hb, hpad, writeAt_of_ne hab, ← List.drop_drop, drop_writeAt, List.drop_drop,
    List.length_append]
  simp only [List.append_assoc, Nat.add_assoc]

/-- Writing the tail first and its head afterwards is one write of both: the
head fills the gap that the tail left. -/
theorem writeAt_back {buf : Bytes} {pos : ℕ} {a b : Bytes} (ha : a ≠ []) :
    writeAt (writeAt buf (pos + a.length) b) pos a = writeAt buf pos (a ++ b) := by
  by_cases hb : b = []
  · simp [hb]
  have hab : a ++ b ≠ [] := by simp [ha]
  have hlen : 0 < a.length := List.length_pos_iff.mpr ha
  have hpad : padTo (writeAt buf (pos + a.length) b) pos = padTo buf pos := by
    rw [writeAt_of_ne hb, List.append_assoc, padTo_append (by simp)]
    simp only [padTo, List.take_take, Nat.min_eq_left (Nat.le_add_right _ _)]
    by_cases h : pos ≤ buf.length
    · rw [List.take_append_of_le_length h, List.take_append_of_le_length h]
    · rw [List.take_append, List.take_append, List.take_of_length_le (by omega)]
      congr 1
      simp only [List.take_replicate]
      congr 1
      omega
  have hrest : (writeAt buf (pos + a.length) b).drop (pos + a.length) =
      b ++ buf.drop (pos + a.length + b.length) := by
    rw [writeAt_of_ne hb, List.append_assoc]
    exact List.drop_left' (padTo_length _ _)
  rw [writeAt_of_ne ha, hpad, hrest, writeAt_of_ne hab, List.length_append]
  simp only [List.append_assoc, Nat.add_assoc]

end PyGridGain
