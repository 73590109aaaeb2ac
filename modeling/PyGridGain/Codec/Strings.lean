import PyGridGain.Codec.Leaves

/-! Texts of any length and content: the bytes that stand for them, and what is read back from
a field that ends at its first zero byte. -/

namespace PyGridGain

open CObj StreamM

/-- What `String.from_python` writes. -/
def stringBytes (x : PyStr) : Bytes :=
  DataType.string.typeCode :: (Scalar.int.store (utf8Encode x).length ++
    charsStore (utf8Encode x).length (utf8Encode x))

/-- The text up to its first U+0000; a length that counts as negative reads as no text. -/
def stringRead (x : PyStr) : PyStr :=
  if (utf8Encode x).length < 2 ^ 31 then x.takeWhile (· ≠ '\x00') else []

/-- A length past the largest one counts as negative. -/
theorem wrap_of_ge {n : ℕ} (h : 2 ^ 31 ≤ n) (hn : n < 2 ^ 32) : Scalar.int.wrap n = n - 2 ^ 32 :=
  Scalar.wrap_of_half rfl (by simp only [Scalar.size]; omega) (by simp only [Scalar.size]; omega)

theorem takeWhile_utf8Encode_isPrefix (x : PyStr) :
    (utf8Encode x).takeWhile (· ≠ 0) = utf8Encode (x.takeWhile (· ≠ '\x00')) := by
  induction x with
  | nil => rfl
  | cons c x ih =>
    by_cases hc : c = '\x00'
    · subst hc
      have hzero : utf8Encode ('\x00' :: x) = 0 :: utf8Encode x := rfl
      rw [hzero, List.takeWhile_cons_of_neg (by simp), List.takeWhile_cons_of_neg (by simp)]
      rfl
    · have hcons : ∀ y : PyStr, utf8Encode (c :: y) = String.utf8EncodeChar c ++ utf8Encode y :=
        fun y => List.flatMap_cons
      have hhead : ∀ b ∈ String.utf8EncodeChar c, decide (b ≠ 0) = true := fun b hb => by
        simpa using utf8EncodeChar_ne_zero hc b hb
      rw [List.takeWhile_cons_of_pos (by simpa using hc), hcons, hcons,
        List.takeWhile_append_of_pos hhead, ih]

theorem charsStore_length {n : ℕ} {b : Bytes} (h : b.length ≤ n) : (charsStore n b).length = n := by
  have hle : (b.takeWhile (· ≠ 0)).length ≤ b.length := (List.takeWhile_sublist _).length_le
  rw [charsStore, List.length_append, List.length_replicate]
  omega

theorem takeWhile_charsStore (n : ℕ) (b : Bytes) :
    (charsStore n b).takeWhile (· ≠ 0) = b.takeWhile (· ≠ 0) := by
  have hcopied : ∀ x ∈ b.takeWhile (· ≠ 0), decide (x ≠ 0) = true := fun x hx =>
    List.mem_takeWhile_imp (p := fun x => decide (x ≠ 0)) hx
  rw [charsStore, List.takeWhile_append_of_pos hcopied]
  cases n - (b.takeWhile (· ≠ 0)).length with
  | zero => simp
  | succ k => rw [List.replicate_succ, List.takeWhile_cons_of_neg (by simp), List.append_nil]

theorem takeWhile_eq_self_iff {x : PyStr} : x.takeWhile (· ≠ '\x00') = x ↔ '\x00' ∉ x := by
  rw [List.takeWhile_eq_self_iff]
  constructor
  · exact fun h hmem => absurd (h _ hmem) (by simp)
  · exact fun h c hc => by simpa using fun heq : c = '\x00' => h (heq ▸ hc)

theorem stringRead_eq_iff {x : PyStr} :
    stringRead x = x ↔ '\x00' ∉ x ∧ (utf8Encode x).length < 2 ^ 31 := by
  unfold stringRead
  split_ifs with hlen
  · rw [takeWhile_eq_self_iff, and_iff_left hlen]
  · refine iff_of_false (fun h => ?_) fun h => hlen h.2
    rw [← h] at hlen
    exact hlen (by decide)

theorem stringBytes_of_notMem {x : PyStr} (hx : '\x00' ∉ x) :
    stringBytes x = DataType.string.typeCode ::
      (Scalar.int.store (utf8Encode x).length ++ utf8Encode x) := by
  rw [stringBytes, charsStore_of_takeWhile (takeWhile_utf8Encode hx)]

/-- The fields of a text of `n` bytes, `k` of which are its own. -/
def stringParts (n k : ℕ) (b : Bytes) : List (FieldName × Layout × Bytes) :=
  [codePart DataType.string.typeCode, scalarPart .length .int n, (.data, .chars k, b)]

theorem stringParts_filled {n k : ℕ} {b : Bytes} (hb : b.length = k) :
    Filled (stringParts n k b) :=
  (codePart_filled _).append ((scalarPart_filled _ _ _).append (by simp [Filled, CType.size, hb]))

theorem stringParts_nodup (n k : ℕ) (b : Bytes) : ((stringParts n k b).map (·.1)).Nodup := by
  simp [stringParts, codePart, scalarPart]

/-- A length that counts as negative is that of no text. -/
theorem stringToPython_parts {n k : ℕ} {b : Bytes} (hb : b.length = k) :
    stringToPython (ofParts (stringParts n k b)) =
      if Scalar.int.wrap n > 0 then
        match utf8Decode (b.takeWhile (· ≠ 0)) with
        | some s => .ok (.str s)
        | none => PyGridGain.raise .unicodeError
      else .ok (.str []) := by
  have hlength := intAttr_wrap (stringParts_filled (n := n) hb) (stringParts_nodup n k b)
    (n := .length) (s := .int) (i := n) (by simp [stringParts])
  have hdata := attr_part (stringParts_filled (n := n) hb) (stringParts_nodup n k b)
    (n := .data) (c := .chars k) (b := b) (by simp [stringParts])
  rw [stringToPython, hlength, except_bind, hdata]
  rfl

section Strings
variable [Python] [OtherCodecs]

theorem writesAs_str (x : PyStr) : WritesAs (wireClass .string) (.str x) (stringBytes x) := by
  refine writesAs_of_write (by simp) fun s hs => ?_
  have hwrite : writeString (.str x) s = .ok ((), s.put (stringBytes x)) := by
    simp only [writeString, pure_bind, write_ok hs, stringBytes]
  exact bind_ok hwrite

theorem parse_str {x : PyStr} {s : BinaryStream} (hs : s.emptyView = false)
    (hat : At s.buf s.pos (stringBytes x)) :
    (wireClass .string).parse s =
      .ok (stringLayout ((utf8Encode x).length % 2 ^ 32),
        s.skip (stringLayout ((utf8Encode x).length % 2 ^ 32)).size) := by
  have hpeek : peek 1 s = .ok ([DataType.string.typeCode], s) :=
    peek_at hs (At.left (a := [DataType.string.typeCode]) hat) (by simp)
  have hlength : peekLength 1 s = .ok ((utf8Encode x).length % 2 ^ 32, s) :=
    peekLength_mod hs (At.right (a := [DataType.string.typeCode]) hat).left
  exact (bind_ok hpeek).trans (bind_ok hlength)

theorem recovers_str {x : PyStr} (hlen : (utf8Encode x).length < 2 ^ 32) :
    Recovers (classReader .string) (stringBytes x) (.ok (.str (stringRead x))) ∧
      Recovers anyReader (stringBytes x) (.ok (.str (stringRead x))) := by
  have hb := charsStore_length (b := utf8Encode x) le_rfl
  refine recovers_of_parts [scalarPart .length .int (utf8Encode x).length,
    (.data, .chars (utf8Encode x).length, charsStore (utf8Encode x).length (utf8Encode x))]
    (by simp) (stringParts_filled hb) (stringParts_nodup _ _ _)
    (by simp [codePart, scalarPart, stringBytes]) (fun n s hs hat => ?_) fun client n => ?_
  · have hpeek : peekLength 1 s = .ok ((utf8Encode x).length, s) := by
      rw [stringBytes] at hat
      have hmod : peekLength 1 s = .ok ((utf8Encode x).length % 2 ^ 32, s) :=
        peekLength_mod hs (At.right (a := [DataType.string.typeCode]) hat).left
      rwa [Nat.mod_eq_of_lt hlen] at hmod
    exact bind_ok hpeek
  · refine (stringToPython_parts hb).trans ?_
    rw [takeWhile_charsStore, takeWhile_utf8Encode_isPrefix, utf8Decode_utf8Encode, stringRead]
    by_cases hsmall : (utf8Encode x).length < 2 ^ 31
    · rw [Scalar.wrap_eq_iff.mpr (range_of_lt hsmall), if_pos hsmall]
      split_ifs with hpos
      · rfl
      · have hnil : x = [] := utf8Encode_eq_nil.mp (List.length_eq_zero_iff.mp (by omega))
        rw [hnil]
        rfl
    · rw [wrap_of_ge (not_lt.mp hsmall) hlen, if_neg (by omega), if_neg hsmall]

theorem raisesOrReads_str_iff (x : PyStr) :
    RaisesOrReads (wireClass .string) (.str x) (· = .str x) ↔
      '\x00' ∉ x ∧ (utf8Encode x).length < 2 ^ 31 := by
  by_cases hlen : (utf8Encode x).length < 2 ^ 32
  · rw [raisesOrReads_iff (writesAs_str x) (by simp [stringBytes])
      ((recovers_str hlen).1.classReadsAs (by simp [stringBytes])), ← stringRead_eq_iff]
    simp
  · refine iff_of_false ?_ fun h => hlen (by omega)
    refine not_raisesOrReads_of_size (writesAs_str x) (by simp [stringBytes]) ?_
      fun s hs hat => parse_str hs hat
    have hdata := charsStore_length (b := utf8Encode x) le_rfl
    simp only [stringLayout, CType.size, CType.sizeFields, Scalar.size, stringBytes,
      List.length_cons, List.length_append, Scalar.store_length, hdata]
    omega

omit [Python] [OtherCodecs] in
/-- A text without U+0000 shares its bytes with no other text. -/
theorem stringBytes_inj {x y : PyStr} (hx : '\x00' ∉ x) (h : stringBytes y = stringBytes x) :
    y = x := by
  have htail : charsStore (utf8Encode y).length (utf8Encode y) = utf8Encode x := by
    rw [stringBytes_of_notMem hx, stringBytes] at h
    exact (List.append_inj (List.cons.inj h).2 (by simp)).2
  have hzero : ∀ b ∈ charsStore (utf8Encode y).length (utf8Encode y), b ≠ 0 :=
    htail ▸ utf8Encode_ne_zero hx
  have hcopied : (utf8Encode y).takeWhile (· ≠ 0) = utf8Encode x := by
    rw [← htail, ← takeWhile_charsStore (utf8Encode y).length]
    exact (List.takeWhile_eq_self_iff.mpr fun b hb => by simpa using hzero b hb)
  have hsame : utf8Encode y = utf8Encode x := by
    have hlen := congrArg List.length htail
    rw [charsStore_length le_rfl] at hlen
    rw [← hcopied]
    exact ((List.takeWhile_prefix _).eq_of_length (by rw [hcopied, hlen])).symm
  have hdecode := congrArg utf8Decode hsame
  rw [utf8Decode_utf8Encode, utf8Decode_utf8Encode] at hdecode
  exact Option.some.inj hdecode

/-- A text is written as the number of its bytes and these bytes, comes back, and shares its
encoding with no other text, exactly where it has no U+0000 and its length fits the field. -/
theorem string_round_trip_iff (x : PyStr) :
    ((∃ size : Bytes, size.length = 4 ∧ leNat size = (utf8Encode x).length ∧
        WritesAs (wireClass .string) (.str x)
          (DataType.string.typeCode :: (size ++ utf8Encode x))) ∧
      RaisesOrReads (wireClass .string) (.str x) (· = .str x) ∧
      ∀ (y : PyStr) (data : Bytes), WritesAs (wireClass .string) (.str x) data →
        WritesAs (wireClass .string) (.str y) data → y = x) ↔
      '\x00' ∉ x ∧ (utf8Encode x).length < 2 ^ 31 := by
  constructor
  · exact fun ⟨_, h, _⟩ => (raisesOrReads_str_iff x).mp h
  · rintro ⟨hx, hlen⟩
    have hwrite := writesAs_str x
    refine ⟨⟨Scalar.int.store (utf8Encode x).length, Scalar.store_length _ _, ?_, ?_⟩,
      (raisesOrReads_str_iff x).mpr ⟨hx, hlen⟩, fun y data hxd hyd => ?_⟩
    · rw [store_of_lt (by omega), leNat_leBytes_of_lt (by omega)]
    · rwa [← stringBytes_of_notMem hx]
    · have hxdata := hwrite.unique hxd (by simp [stringBytes])
      have hydata := (writesAs_str y).unique hyd (by simp [stringBytes])
      exact stringBytes_inj hx (hydata.trans hxdata.symm)

end Strings

/-- Two keys that differ behind a U+0000 have one encoding, which is read as neither. -/
theorem keys_share_encoding :
    let _ := asciiLower
    let _ := noOtherCodecs
    let a : PyStr := ['a', '\x00', 'b']
    let b : PyStr := ['a', '\x00', 'c']
    (∃ data, WritesAs (wireClass .string) (.str a) data ∧ WritesAs (wireClass .string) (.str b) data) ∧
      ¬RaisesOrReads (wireClass .string) (.str a) (· = .str a) := by
  intro _ _ a b
  have hsame : stringBytes ['a', '\x00', 'b'] = stringBytes ['a', '\x00', 'c'] := by decide +kernel
  refine ⟨⟨stringBytes a, writesAs_str a, ?_⟩, ?_⟩
  · exact hsame ▸ writesAs_str b
  · rw [raisesOrReads_str_iff]
    exact fun h => h.1 (by decide)

end PyGridGain
