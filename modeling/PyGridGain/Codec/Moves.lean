import PyGridGain.Datatypes.Parse
import PyGridGain.Codec.Follows

/-! Parsers leave the buffer alone and move past the structure that they return, whatever
stands there. -/

namespace PyGridGain

open StreamM

section Advances
variable {α β : Type}

/-- Where the action succeeds the buffer is what it was, and the position has moved forward as
`Q` says. -/
def Advances (p : StreamM α) (Q : α → ℕ → Prop) : Prop :=
  ∀ ⦃s a r⦄, p s = .ok (a, r) → r.buf = s.buf ∧ ∃ n, r.pos = s.pos + n ∧ Q a n

/-- The action does not move. -/
abbrev Stays (p : StreamM α) : Prop := Advances p fun _ n => n = 0

/-- The parser moves past the structure that it returns. -/
abbrev Moves (p : StreamM Layout) : Prop := Advances p fun c n => n = c.size

variable {p : StreamM α} {f : α → StreamM β} {P Q : α → ℕ → Prop} {R : β → ℕ → Prop}

theorem Advances.bind (hp : Advances p P)
    (hf : ∀ a n, P a n → Advances (f a) fun b m => R b (n + m)) : Advances (p >>= f) R := by
  intro s b r h
  obtain ⟨a, u, ha, h⟩ := bind_eq_ok h
  obtain ⟨hbuf, n, hpos, hP⟩ := hp ha
  obtain ⟨hbuf', m, hpos', hR⟩ := hf a n hP h
  exact ⟨hbuf'.trans hbuf, n + m, by rw [hpos', hpos, Nat.add_assoc], hR⟩

theorem Stays.bind (hp : Stays p) (hf : ∀ a, Advances (f a) R) : Advances (p >>= f) R := by
  refine Advances.bind hp fun a n hn => ?_
  subst hn
  simpa using hf a

theorem Stays.eq (hp : Stays p) {s t : BinaryStream} {a : α} (h : p s = .ok (a, t)) :
    t.buf = s.buf ∧ t.pos = s.pos := by
  obtain ⟨hbuf, n, hpos, rfl⟩ := hp h
  exact ⟨hbuf, hpos⟩

theorem advances_pure {a : α} (h : Q a 0) : Advances (pure a) Q := by
  intro s b r hb
  obtain ⟨rfl, rfl⟩ := Prod.mk.inj (Except.ok.inj hb)
  exact ⟨rfl, 0, rfl, h⟩

theorem advances_raise {exc : Exc} {message : String} :
    Advances (StreamM.raise exc message : StreamM α) Q := by
  intro s b r hb
  cases hb

theorem stays_ofOption (x : Option α) (exc : Exc) : Stays (ofOption x exc) := by
  cases x with
  | none => exact advances_raise
  | some a => exact advances_pure rfl

theorem stays_peek (n : ℕ) : Stays (peek n) := by
  intro s b r hb
  obtain ⟨rfl, rfl⟩ := Prod.mk.inj (Except.ok.inj hb)
  exact ⟨rfl, 0, rfl, rfl⟩

theorem stays_peekLength (n : ℕ) : Stays (peekLength n) := by
  intro s b r hb
  obtain ⟨rfl, rfl⟩ := Prod.mk.inj (Except.ok.inj hb)
  exact ⟨rfl, 0, rfl, rfl⟩

theorem stays_readForward (c : Layout) : Stays (readForward c) := by
  intro s b r hb
  unfold readForward at hb
  split at hb
  · obtain ⟨rfl, rfl⟩ := Prod.mk.inj (Except.ok.inj hb)
    exact ⟨rfl, 0, rfl, rfl⟩
  · cases hb

theorem stays_readBackward (c : Layout) : Stays (readBackward c) := by
  intro s b r hb
  unfold readBackward at hb
  split at hb
  · obtain ⟨rfl, rfl⟩ := Prod.mk.inj (Except.ok.inj hb)
    exact ⟨rfl, 0, rfl, rfl⟩
  · cases hb

theorem stays_setCompactFooter (b : Bool) : Stays (setCompactFooter b) := by
  intro s u r hb
  unfold setCompactFooter at hb
  split at hb
  · obtain ⟨rfl, rfl⟩ := Prod.mk.inj (Except.ok.inj hb)
    exact ⟨rfl, 0, rfl, rfl⟩
  · split_ifs at hb
    · obtain ⟨rfl, rfl⟩ := Prod.mk.inj (Except.ok.inj hb)
      exact ⟨rfl, 0, rfl, rfl⟩
    · cases hb

theorem stays_getDataclass [Python] (typeId schemaId : ℤ) : Stays (getDataclass typeId schemaId) := by
  have hquery : Stays (queryBinaryType typeId schemaId) := by
    intro s b r hb
    obtain ⟨rfl, rfl⟩ := Prod.mk.inj (Except.ok.inj hb)
    exact ⟨rfl, 0, rfl, rfl⟩
  refine hquery.bind fun result => ?_
  split_ifs
  · exact advances_raise
  · cases result with
    | dataClass c => exact advances_pure rfl
    | _ => exact advances_raise

theorem advances_seekCur (n : ℕ) : Advances (seekCur n) fun _ m => m = n := by
  intro s b r hb
  obtain ⟨rfl, rfl⟩ := Prod.mk.inj (Except.ok.inj hb)
  exact ⟨rfl, n, rfl, rfl⟩

end Advances

/-! ### Parsers -/

section Parsers
variable {p : StreamM Layout} {rec : DataType → StreamM Layout}

theorem moves_seekPast (c : Layout) : Moves (seekPast c) :=
  (advances_seekCur c.size).bind fun _ n hn => advances_pure (by rw [hn, Nat.add_zero])

theorem moves_parseString : Moves parseString := (stays_peekLength 1).bind fun _ => moves_seekPast _

theorem moves_parsePrimitiveArray (s : Scalar) : Moves (parsePrimitiveArray s) :=
  (stays_peekLength 1).bind fun _ => moves_seekPast _

theorem advances_parseElements (hp : Moves p) (i n : ℕ) :
    Advances (parseElements p i n) fun cs m => m = CType.sizeFields cs := by
  induction n generalizing i with
  | zero => exact advances_pure rfl
  | succ n ih =>
    refine Advances.bind hp fun c m hm => (ih (i + 1)).bind fun cs k hk => advances_pure ?_
    rw [CType.sizeFields, hm, hk, Nat.add_zero]

theorem moves_parseArray (off : ℕ) (header : List (FieldName × Layout)) (count : ℕ → ℕ)
    (hp : Moves p) : Moves (parseArray off header count p) := by
  refine (stays_peekLength off).bind fun length => (advances_seekCur _).bind fun _ n hn =>
    (advances_parseElements hp 0 _).bind fun cs m hm => advances_pure ?_
  rw [CType.size, CType.sizeFields_append, hn, hm, Nat.add_zero]

theorem moves_anyParse (hrec : ∀ t, Moves (rec t)) : Moves (anyParse rec) := by
  refine (stays_peek 1).bind fun typeCode => ?_
  split
  · split
    · exact hrec _
    · exact advances_raise
  · exact advances_raise

theorem advances_parseFields (hrec : ∀ t, Moves (rec t)) (fields : List (PyStr × DataType)) :
    Advances (parseFields rec fields) fun cs m => m = CType.sizeFields cs := by
  induction fields with
  | nil => exact advances_pure rfl
  | cons field fields ih =>
    refine Advances.bind (hrec field.2) fun c m hm => ih.bind fun cs k hk => advances_pure ?_
    rw [CType.sizeFields, hm, hk, Nat.add_zero]

theorem moves_parseBinary [Python] (hrec : ∀ t, Moves (rec t)) : Moves (parseBinary rec) := by
  refine (stays_readForward _).bind fun header => (advances_seekCur _).bind fun _ n hn => ?_
  subst hn
  refine (stays_ofOption _ _).bind fun flags => (stays_ofOption _ _).bind fun typeId =>
    (stays_ofOption _ _).bind fun schemaId => (stays_getDataclass _ _).bind fun cls =>
    (advances_parseFields hrec _).bind fun fields m hm => ?_
  subst hm
  split
  · refine (advances_seekCur _).bind fun _ k hk => (stays_setCompactFooter _).bind fun _ =>
      advances_pure ?_
    have hsize := CType.sizeFields_append ((FieldName.typeCode, (.scalar .byte : Layout)) ::
      headerFields.map fun f => (f.1, .scalar f.2)) [(.objectFields, .struct fields),
        (.schema, .array (schemaType flags) cls.schema.length)]
    rw [CType.size, hsize, hk, Nat.add_zero, headerSize]
    rfl
  · refine (stays_setCompactFooter _).bind fun _ => advances_pure ?_
    have hsize := CType.sizeFields_append ((FieldName.typeCode, (.scalar .byte : Layout)) ::
      headerFields.map fun f => (f.1, .scalar f.2)) [(.objectFields, .struct fields)]
    rw [CType.size, hsize, headerSize]
    rfl

variable [Python] [OtherCodecs]

/-- The parsers that the model does not spell out move past their structures as well. -/
def OthersMove : Prop := ∀ t, Moves (OtherCodecs.codec t).parseNotNull

theorem moves_parseNotNull (hothers : OthersMove) (hrec : ∀ t, Moves (rec t)) (t : DataType) :
    Moves (parseNotNull rec t) := by
  cases t with
  | string => exact moves_parseString
  | byteArrayObject => exact moves_parsePrimitiveArray _
  | shortArrayObject => exact moves_parsePrimitiveArray _
  | intArrayObject => exact moves_parsePrimitiveArray _
  | longArrayObject => exact moves_parsePrimitiveArray _
  | boolArrayObject => exact moves_parsePrimitiveArray _
  | stringArrayObject => exact moves_parseArray _ _ _ (hrec _)
  | uuidArrayObject => exact moves_parseArray _ _ _ (hrec _)
  | objectArrayObject => exact moves_parseArray _ _ _ (moves_anyParse hrec)
  | collectionObject => exact moves_parseArray _ _ _ (moves_anyParse hrec)
  | mapObject => exact moves_parseArray _ _ _ (moves_anyParse hrec)
  | binaryObject => exact moves_parseBinary hrec
  | other t => exact hothers t
  | _ => exact moves_seekPast _

theorem moves_parseNullable (hothers : OthersMove) (hrec : ∀ t, Moves (rec t)) (t : DataType) :
    Moves (parseNullable rec t) := by
  unfold parseNullable
  split
  · exact moves_seekPast _
  · refine (stays_peek 1).bind fun code => ?_
    split
    · exact moves_seekPast _
    · exact moves_parseNotNull hothers hrec t

theorem moves_parseN (hothers : OthersMove) (n : ℕ) (t : DataType) : Moves (parseN n t) := by
  induction n generalizing t with
  | zero => exact advances_raise
  | succ n ih => exact moves_parseNullable hothers ih t

theorem moves_anyDataObject (hothers : OthersMove) : Moves AnyDataObject.parse := fun _ _ _ h =>
  moves_anyParse (moves_parseN hothers _) h

end Parsers

/-- What a backward read gives of bytes that end at the position of the stream. -/
theorem readBackward_eq {c : Layout} {s s' : BinaryStream} {p : ℕ} {b : Bytes} {o : CObject}
    (hat : At s.buf p b) (hpos : s.pos = p + b.length) (hb : b.length = c.size)
    (h : readBackward c s = .ok (o, s')) : o = ⟨c, b⟩ := by
  have hstart : ((s.pos : ℤ) - c.size) = (p : ℕ) := by
    rw [hpos, hb]
    push_cast
    ring
  have hs : pySlice s.buf (s.pos - c.size) s.pos = b := by
    rw [hstart, hpos, pySlice_of_nonneg (Nat.le_add_right _ _), Nat.add_sub_cancel_left]
    exact hat.slice
  simp only [readBackward, hs, CObj.fromBufferCopy_of_length hb] at h
  exact (Prod.mk.inj (Except.ok.inj h)).1.symm

end PyGridGain
