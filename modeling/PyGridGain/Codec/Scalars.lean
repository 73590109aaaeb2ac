import PyGridGain.Codec.Leaves

/-! Integers in fields of a fixed width: the fields keep the low bits, the arrays of the same
width refuse what they do not hold. -/

namespace PyGridGain

open CObj StreamM

section Scalars
variable [Python] [OtherCodecs] {t : DataType} {c : Scalar}

/-- `from_python` does not raise. -/
def Accepts (w : WireClass) (v : PyValue) : Prop :=
  ∀ s : BinaryStream, s.emptyView = false → ∃ r, w.fromPython v s = .ok r

omit [Python] [OtherCodecs] in
theorem intScalar_ne_null (h : t.intScalar = some c) : t ≠ .null := by
  rintro rfl
  cases h

theorem writesAs_int (h : t.intScalar = some c) (i : ℤ) :
    WritesAs (wireClass t) (.int i) (t.typeCode :: c.store i) := by
  refine writesAs_of_write (by simp) fun s hs => ?_
  have hwrite : writeDataObject t c (.int i) s = .ok ((), s.put (t.typeCode :: c.store i)) :=
    writeDataObject_ok hs rfl
  cases t <;> simp only [DataType.intScalar, reduceCtorEq, Option.some.injEq] at h <;>
    subst h <;> exact bind_ok hwrite

/-- The value comes back wrapped to the width of the field. -/
theorem recovers_int (h : t.intScalar = some c) (i : ℤ) :
    Recovers (classReader t) (t.typeCode :: c.store i) (.ok (.int (c.wrap i))) ∧
      Recovers anyReader (t.typeCode :: c.store i) (.ok (.int (c.wrap i))) := by
  have hf : Filled [codePart t.typeCode, scalarPart .value c i] :=
    (codePart_filled _).append (scalarPart_filled _ _ _)
  have hnd : ([codePart t.typeCode, scalarPart .value c i].map (·.1)).Nodup := by
    simp [codePart, scalarPart]
  have hvalue := intAttr_wrap hf hnd (n := .value) (s := c) (i := i) (by simp)
  refine recovers_of_parts _ (intScalar_ne_null h) hf hnd (by simp [codePart, scalarPart])
    (fun n s _ _ => ?_) fun client n => ?_
  · cases t <;> simp only [DataType.intScalar, reduceCtorEq, Option.some.injEq] at h <;>
      subst h <;> rfl
  · have hread : dataObjectToPython (ofParts [codePart t.typeCode, scalarPart .value c i]) =
        .ok (.int (c.wrap i)) := by
      rw [dataObjectToPython, hvalue, except_bind]
    cases t <;> simp only [DataType.intScalar, reduceCtorEq, Option.some.injEq] at h <;>
      exact hread

theorem raisesOrReads_int_iff (h : t.intScalar = some c) (i : ℤ) :
    RaisesOrReads (wireClass t) (.int i) (· = .int i) ↔ c.Range i := by
  rw [raisesOrReads_iff (writesAs_int h i) (by simp)
    ((recovers_int h i).1.classReadsAs (by simp)), ← Scalar.wrap_eq_iff]
  simp

/-- A number without a hint is written as a `LongObject`. -/
theorem raisesOrReads_inferred_int_iff (i : ℤ) :
    RaisesOrReads anyDataObject (.int i) (· = .int i) ↔ Scalar.longlong.Range i := by
  have hwrite := (writesAs_int (t := .longObject) rfl i).inferred rfl
  rw [raisesOrReads_iff hwrite (by simp)
    ((recovers_int (t := .longObject) rfl i).2.anyReadsAs (by simp)), ← Scalar.wrap_eq_iff]
  simp

theorem writesAs_enum (ht : t.IsEnum) (a b : ℤ) :
    WritesAs (wireClass t) (.tuple [.int a, .int b])
      (t.typeCode :: (Scalar.int.store a ++ Scalar.int.store b)) := by
  refine writesAs_of_write (by simp) fun s hs => ?_
  rcases ht with rfl | rfl <;> exact bind_ok (writeEnum_ok hs _ a b)

theorem recovers_enum (ht : t.IsEnum) (a b : ℤ) :
    Recovers (classReader t) (t.typeCode :: (Scalar.int.store a ++ Scalar.int.store b))
      (.ok (.tuple [.int (Scalar.int.wrap a), .int (Scalar.int.wrap b)])) := by
  have hf : Filled [codePart t.typeCode, scalarPart .typeId .int a, scalarPart .ordinal .int b] :=
    (codePart_filled _).append ((scalarPart_filled _ _ _).append (scalarPart_filled _ _ _))
  have hnd : ([codePart t.typeCode, scalarPart .typeId .int a,
      scalarPart .ordinal .int b].map (·.1)).Nodup := by
    simp [codePart, scalarPart]
  have htypeId := intAttr_wrap hf hnd (n := .typeId) (s := .int) (i := a) (by simp)
  have hordinal := intAttr_wrap hf hnd (n := .ordinal) (s := .int) (i := b) (by simp)
  have hread : enumToPython (ofParts [codePart t.typeCode, scalarPart .typeId .int a,
      scalarPart .ordinal .int b]) =
      .ok (.tuple [.int (Scalar.int.wrap a), .int (Scalar.int.wrap b)]) := by
    rw [enumToPython, htypeId, except_bind, hordinal, except_bind]
  have hne : t ≠ .null := by
    rintro rfl
    rcases ht with ht | ht <;> cases ht
  refine (recovers_of_parts _ hne hf hnd (by simp [codePart, scalarPart]) (fun n s _ _ => ?_)
    fun client n => ?_).1
  · rcases ht with rfl | rfl <;> rfl
  · rcases ht with rfl | rfl <;> exact hread

theorem raisesOrReads_enum_iff (ht : t.IsEnum) (a b : ℤ) :
    RaisesOrReads (wireClass t) (.tuple [.int a, .int b]) (· = .tuple [.int a, .int b]) ↔
      Scalar.int.Range a ∧ Scalar.int.Range b := by
  rw [raisesOrReads_iff (writesAs_enum ht a b) (by simp)
    ((recovers_enum ht a b).classReadsAs (by simp)), ← Scalar.wrap_eq_iff, ← Scalar.wrap_eq_iff]
  simp

theorem accepts_int (h : t.intScalar = some c) (i : ℤ) : Accepts (wireClass t) (.int i) := by
  intro s hs
  obtain ⟨v', hv'⟩ := writesAs_int h i s hs
  exact ⟨_, hv'⟩

omit [Python] [OtherCodecs] in
theorem error_bind {α β : Type} {m : StreamM α} {f : α → StreamM β} {s : BinaryStream}
    (h : ∀ a s', m s = .ok (a, s') → ∃ e, f a s' = .error e) : ∃ e, (m >>= f) s = .error e := by
  cases hm : m s with
  | error e => exact ⟨e, bind_error hm⟩
  | ok p =>
    obtain ⟨e, he⟩ := h p.1 p.2 hm
    exact ⟨e, (bind_ok hm).trans he⟩

omit [Python] [OtherCodecs] in
/-- One element that is not packed is enough. -/
theorem writePacked_error {pack : PyValue → Except PyError Bytes} {xs : List PyValue}
    {x : PyValue} {e : PyError} (hx : x ∈ xs) (he : pack x = .error e) (s : BinaryStream) :
    ∃ e, writePacked pack xs s = .error e := by
  induction xs generalizing s with
  | nil => cases hx
  | cons y ys ih =>
    rw [writePacked]
    refine error_bind fun b s' hb => error_bind fun _ s'' _ => ?_
    rcases List.mem_cons.mp hx with rfl | hmem
    · rw [he] at hb
      cases hb
    · exact ih hmem s''

omit [Python] [OtherCodecs] in
theorem writePrimitiveArray_error {pack : PyValue → Except PyError Bytes} {xs : List PyValue}
    {x : PyValue} {e : PyError} (hx : x ∈ xs) (he : pack x = .error e) (s : BinaryStream) :
    ∃ e, writePrimitiveArray t pack (.list xs) s = .error e := by
  refine error_bind fun ys s' hys => error_bind fun _ s'' _ => error_bind fun _ _ _ =>
    error_bind fun _ _ _ => ?_
  obtain ⟨rfl, rfl⟩ := Prod.mk.inj (Except.ok.inj hys)
  exact writePacked_error hx he _

theorem intArray_fromPython (h : t.arrayScalar = some c) (xs : List PyValue) (s : BinaryStream) :
    (wireClass t).fromPython (.list xs) s =
      (writePrimitiveArray t (packSigned c) (.list xs) >>= fun _ => pure (.list xs)) s := by
  refine (fromPython_eq (t := t) (v := .list xs) (by simp) s).trans ?_
  cases t <;> simp only [DataType.arrayScalar, reduceCtorEq, Option.some.injEq] at h <;>
    subst h <;> rfl

/-- The array of one element packs it, or raises. -/
theorem accepts_intArray_iff (h : t.arrayScalar = some c) (i : ℤ) :
    Accepts (wireClass t) (.list [.int i]) ↔ c.Range i := by
  by_cases hi : c.Range i
  · refine iff_of_true (fun s hs => ?_) hi
    have hpack : ∀ x ∈ [PyValue.int i], packSigned c x = .ok (c.store i) := by
      simp [packSigned, PyValue.toInt?, hi]
    rw [intArray_fromPython h]
    exact ⟨_, bind_ok (writePrimitiveArray_ok hs (by simp) hpack)⟩
  · refine iff_of_false (fun haccepts => ?_) hi
    obtain ⟨r, hr⟩ := haccepts ⟨⟨none, fun _ => [], fun _ => []⟩, [], 0, false⟩ rfl
    obtain ⟨e, he⟩ : ∃ e, packSigned c (.int i) = .error e := by
      simp [packSigned, PyValue.toInt?, hi, PyGridGain.raise]
    obtain ⟨e', he'⟩ := writePrimitiveArray_error (t := t) (List.mem_singleton_self _) he
      ⟨⟨none, fun _ => [], fun _ => []⟩, [], 0, false⟩
    rw [intArray_fromPython h, bind_error he'] at hr
    cases hr

/-- An integer comes back, or is refused, exactly where it fits the width of its field, and there
alone the array of that width takes it as the field does. -/
theorem integers_kept_iff :
    (∀ t c, t.intScalar = some c → ∀ i : ℤ,
      RaisesOrReads (wireClass t) (.int i) (· = .int i) ↔ c.Range i) ∧
    (∀ i : ℤ, RaisesOrReads anyDataObject (.int i) (· = .int i) ↔ Scalar.longlong.Range i) ∧
    (∀ t : DataType, t.IsEnum → ∀ a b : ℤ,
      RaisesOrReads (wireClass t) (.tuple [.int a, .int b]) (· = .tuple [.int a, .int b]) ↔
        Scalar.int.Range a ∧ Scalar.int.Range b) ∧
    ∀ t array c, t.intScalar = some c → array.arrayScalar = some c → ∀ i : ℤ,
      (Accepts (wireClass t) (.int i) ↔ Accepts (wireClass array) (.list [.int i])) ↔
        c.Range i := by
  refine ⟨fun t c h i => raisesOrReads_int_iff h i, raisesOrReads_inferred_int_iff,
    fun t ht a b => raisesOrReads_enum_iff ht a b, fun t array c ht harray i => ?_⟩
  rw [accepts_intArray_iff harray, iff_true_left (accepts_int ht i)]

end Scalars

/-- One class of each kind at the bounds of its range. -/
theorem integers_kept_iff_bounds :
    let _ := asciiLower
    let _ := noOtherCodecs
    (RaisesOrReads (wireClass .byteObject) (.int (-128)) (· = .int (-128)) ↔
      Scalar.byte.Range (-128)) ∧
    (RaisesOrReads (wireClass .binaryEnumObject) (.tuple [.int 0, .int (2 ^ 31)])
        (· = .tuple [.int 0, .int (2 ^ 31)]) ↔
      Scalar.int.Range 0 ∧ Scalar.int.Range (2 ^ 31)) ∧
    ((Accepts (wireClass .longObject) (.int (2 ^ 63)) ↔
        Accepts (wireClass .longArrayObject) (.list [.int (2 ^ 63)])) ↔
      Scalar.longlong.Range (2 ^ 63)) :=
  let _ := asciiLower
  let _ := noOtherCodecs
  ⟨integers_kept_iff.1 .byteObject .byte rfl (-128),
    integers_kept_iff.2.2.1 .binaryEnumObject (Or.inr rfl) 0 (2 ^ 31),
    integers_kept_iff.2.2.2 .longObject .longArrayObject .longlong rfl rfl (2 ^ 63)⟩

/-- A number just past a short comes back as another one, which the array refuses. -/
theorem short_wraps :
    let _ := asciiLower
    let _ := noOtherCodecs
    ¬RaisesOrReads (wireClass .shortObject) (.int 40000) (· = .int 40000) ∧
      Accepts (wireClass .shortObject) (.int 40000) ∧
      ¬Accepts (wireClass .shortArrayObject) (.list [.int 40000]) := by
  intro _ _
  have hrange : ¬Scalar.short.Range 40000 := by decide
  refine ⟨?_, accepts_int rfl _, ?_⟩
  · rwa [raisesOrReads_int_iff (c := .short) rfl]
  · rwa [accepts_intArray_iff (c := .short) rfl]

end PyGridGain
