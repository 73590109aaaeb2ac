import PyGridGain.Codec.Wire

/-! What `to_python` makes of the structures that the parsers build for encoded
values. A structure is given by its parts, field after field; reading a field is
then looking up a part. -/

namespace PyGridGain

open CObj

/-! ### Loops over `range(n)` -/

section Loops
variable {α β ε : Type}

theorem except_bind {a : α} {f : α → Except ε β} : (Except.ok a >>= f) = f a := rfl

theorem mapM_ok {f : α → Except ε β} {g : α → β} {l : List α} (h : ∀ a ∈ l, f a = .ok (g a)) :
    l.mapM f = .ok (l.map g) := by
  induction l with
  | nil => rfl
  | cons a l ih =>
    rw [List.mapM_cons, h a (by simp), ih fun b hb => h b (by simp [hb])]
    rfl

theorem mapM_error {f : α → Except ε β} {l : List α} {a : α} {e : ε} (ha : a ∈ l)
    (he : f a = .error e) : ∃ e, l.mapM f = .error e := by
  induction l with
  | nil => cases ha
  | cons b l ih =>
    rw [List.mapM_cons]
    cases hb : f b with
    | error e' => exact ⟨e', rfl⟩
    | ok x =>
      rcases List.mem_cons.mp ha with rfl | hmem
      · rw [he] at hb
        cases hb
      · obtain ⟨e', he'⟩ := ih hmem
        exact ⟨e', by rw [he']; rfl⟩

theorem mapM_range_ok {f : ℕ → Except ε β} {l : List β} {n : ℕ} (hn : n = l.length)
    (h : ∀ i (hi : i < l.length), f i = .ok l[i]) : (List.range n).mapM f = .ok l := by
  subst hn
  induction l generalizing f with
  | nil => rfl
  | cons b l ih =>
    have hrest : (List.range l.length).mapM (f ∘ Nat.succ) = .ok l :=
      ih fun i hi => h (i + 1) (Nat.succ_lt_succ hi)
    rw [List.length_cons, List.range_succ_eq_map, List.mapM_cons, List.mapM_map, hrest,
      h 0 (Nat.succ_pos _)]
    rfl

theorem foldlM_range {f : β → ℕ → Except ε β} {g : β → α → Except ε β} {l : List α} {b : β}
    (h : ∀ i (hi : i < l.length) b, f b i = g b l[i]) :
    (List.range l.length).foldlM f b = l.foldlM g b := by
  induction l generalizing f b with
  | nil => rfl
  | cons a l ih =>
    rw [List.length_cons, List.range_succ_eq_map, List.foldlM_cons, List.foldlM_cons,
      h 0 (Nat.succ_pos _)]
    simp only [List.foldlM_map, List.getElem_cons_zero]
    congr 1
    funext b'
    exact ih fun i hi b => h (i + 1) (Nat.succ_lt_succ hi) b

end Loops

theorem typeCode_lt (t : DataType) : t.typeCode.toNat < 128 := by
  cases t with
  | other t => cases t <;> decide
  | _ => decide

theorem load_code {c : UInt8} (h : c.toNat < 128) : Scalar.byte.load [c] = c.toNat := by
  have : leNat [c] = c.toNat := by simp [leNat]
  simp only [Scalar.load, Scalar.isSigned, if_true, leInt, List.length_singleton, this]
  exact signed_of_half (by omega)

/-- The part every structure starts with. -/
def codePart (code : UInt8) : FieldName × Layout × Bytes := (.typeCode, .scalar .byte, [code])

def scalarPart (n : FieldName) (s : Scalar) (i : ℤ) : FieldName × Layout × Bytes :=
  (n, .scalar s, s.store i)

section Parts
variable {parts : List (FieldName × Layout × Bytes)}

theorem getInt_code (hf : Filled parts) (hnd : (parts.map (·.1)).Nodup) {code : UInt8}
    (hlt : code.toNat < 128) (h : codePart code ∈ parts) :
    (ofParts parts).getInt .typeCode = some (code.toNat : ℤ) := by
  rw [getInt_ofParts hf hnd h, load_code hlt]

theorem intAttr_wrap (hf : Filled parts) (hnd : (parts.map (·.1)).Nodup) {n : FieldName}
    {s : Scalar} {i : ℤ} (h : scalarPart n s i ∈ parts) :
    CObject.intAttr (ofParts parts) n = .ok (s.wrap i) := by
  rw [CObject.intAttr, getInt_ofParts hf hnd h, Scalar.wrap]

theorem intAttr_part (hf : Filled parts) (hnd : (parts.map (·.1)).Nodup) {n : FieldName}
    {s : Scalar} {i : ℤ} (hi : s.Range i) (h : scalarPart n s i ∈ parts) :
    CObject.intAttr (ofParts parts) n = .ok i := by
  rw [intAttr_wrap hf hnd h, Scalar.wrap_eq_iff.mpr hi]

theorem attr_part (hf : Filled parts) (hnd : (parts.map (·.1)).Nodup) {n : FieldName}
    {c : Layout} {b : Bytes} (h : (n, c, b) ∈ parts) :
    CObject.attr (ofParts parts) n = .ok ⟨c, b⟩ := by
  rw [CObject.attr, getattr_ofParts hf hnd h]

theorem flatMap_store_length (s : Scalar) (is : List ℤ) :
    (is.flatMap s.store).length = is.length * s.size := by
  simp [List.length_flatMap]

/-- The items of an array field come back wrapped to its type. -/
theorem dataItems_part (hf : Filled parts) (hnd : (parts.map (·.1)).Nodup) (s : Scalar)
    (is : List ℤ) (h : (.data, .array (.scalar s) is.length, is.flatMap s.store) ∈ parts) :
    CObject.dataItems (ofParts parts) = .ok (is.map s.wrap) := by
  have hdata := attr_part hf hnd h
  simp only [CObject.dataItems, hdata, except_bind, items_wrap]

end Parts

section Decodes
variable [Python] [OtherCodecs]

/-- The client that reads knows the classes of the objects in `v`. -/
def Knows (client : Option Client) (cl : Client) (t : DataType) (v : PyValue) : Prop :=
  objects t v ≠ [] → ∃ c, client = some c ∧ c.registry = cl.registry

/-- The layout `c` fits the encoding of `v`, which reads as `v` under it. -/
structure Decodes (cl : Client) (cf : Bool) (t : DataType) (v : PyValue) (c : Layout) : Prop where
  size : (encode cf t v).length = c.size
  typeCode : CObj.getInt ⟨c, encode cf t v⟩ .typeCode = some ((firstCode t v).toNat : ℤ)
  toPython : ∀ client, Knows client cl t v → ∀ n, (encode cf t v).length ≤ n →
    toPythonN client n t ⟨c, encode cf t v⟩ = .ok (decoded Scalar.byte.wrap t v)

variable {cl : Client} {cf : Bool} {t : DataType} {v : PyValue} {c : Layout}
  {parts : List (FieldName × Layout × Bytes)}

/-- `None` under any class. -/
theorem decodes_none (t : DataType) : Decodes cl cf t .none nullLayout := by
  have hcode : CObj.getInt ⟨nullLayout, encode cf t .none⟩ .typeCode = some (TC_NULL.toNat : ℤ) := by
    rw [encode_none]
    decide
  refine ⟨by rw [encode_none]; rfl, hcode, fun client _ n hn => ?_⟩
  obtain ⟨m, rfl⟩ := Nat.exists_eq_add_of_lt (Nat.lt_of_lt_of_le
    (List.length_pos_iff.mpr (by simp : encode cf t .none ≠ [])) hn)
  rw [decoded_none]
  cases t <;> rfl

/-- `to_python` of a structure whose first byte is not the null code. -/
theorem toPythonN_succ {o : CObject} {client : Option Client} (ht : t ≠ .null)
    (hcode : o.getInt .typeCode = some (t.typeCode.toNat : ℤ)) (n : ℕ) :
    toPythonN client (n + 1) t o = toPythonNotNull (toPythonN client n) client t o := by
  have hne : ((t.typeCode.toNat : ℤ) = TC_NULL.toNat) ↔ False := by
    rw [Nat.cast_inj, UInt8.toNat_inj, typeCode_eq_null, iff_false]
    exact ht
  cases t <;> first
    | exact absurd rfl ht
    | simp [toPythonN, toPythonNullable, CObject.intAttr, hcode, hne, bind, Except.bind]

/-- A structure given by its parts, the type code among them. -/
theorem decodes_of_parts (h : Encodable cl cf t v) (hv : v ≠ .none) (hf : Filled parts)
    (hnd : (parts.map (·.1)).Nodup) (hcode : codePart t.typeCode ∈ parts)
    (hbytes : encode cf t v = parts.flatMap fun p => p.2.2)
    (hpy : ∀ client, Knows client cl t v → ∀ n, (encode cf t v).length ≤ n + 1 →
      toPythonNotNull (toPythonN client n) client t (ofParts parts) =
        .ok (decoded Scalar.byte.wrap t v)) :
    Decodes cl cf t v (ofParts parts).ctype := by
  have ho : (⟨(ofParts parts).ctype, encode cf t v⟩ : CObject) = ofParts parts := by
    rw [hbytes]; rfl
  have hint : (ofParts parts).getInt .typeCode = some (t.typeCode.toNat : ℤ) :=
    getInt_code hf hnd (typeCode_lt t) hcode
  refine ⟨by rw [← ofParts_length hf, hbytes]; rfl, ?_, fun client hk n hn => ?_⟩
  · rw [ho, hint, firstCode_of_ne hv]
  · obtain ⟨m, rfl⟩ := Nat.exists_eq_add_of_lt
      (Nat.lt_of_lt_of_le (List.length_pos_iff.mpr h.encode_ne_nil) hn)
    rw [Nat.zero_add] at hn ⊢
    rw [ho, toPythonN_succ (h.ne_null hv) hint, hpy client hk m hn]

/-- `AnyDataObject.to_python` finds the class by the type code. -/
theorem anyToPython_of_decodes (h : Encodable cl cf t v) (hd : Decodes cl cf t v c)
    {client : Option Client} (hk : Knows client cl t v) {n : ℕ}
    (hn : (encode cf t v).length ≤ n) :
    anyToPython (toPythonN client n) ⟨c, encode cf t v⟩ = .ok (decoded Scalar.byte.wrap t v) := by
  have hcode : tcMap (UInt8.ofNat ((firstCode t v).toNat : ℤ).toNat) =
      tcMap (firstCode t v) := by simp
  have hneg : ¬((firstCode t v).toNat : ℤ) < 0 := by omega
  simp only [anyToPython, CObject.intAttr, hd.typeCode, bind, Except.bind, if_neg hneg, hcode]
  by_cases hv : v = .none
  · subst hv
    obtain ⟨m, rfl⟩ := Nat.exists_eq_add_of_lt
      (Nat.lt_of_lt_of_le (List.length_pos_iff.mpr h.encode_ne_nil) hn)
    rw [decoded_none]
    rfl
  · rw [firstCode_of_ne hv, tcMap_typeCode]
    exact hd.toPython client hk n hn

end Decodes

/-! ### Classes without nested values -/

theorem codePart_filled (code : UInt8) : Filled [codePart code] := by
  simp [Filled, codePart, CType.size, Scalar.size]

theorem scalarPart_filled (n : FieldName) (s : Scalar) (i : ℤ) : Filled [scalarPart n s i] := by
  simp [Filled, scalarPart, CType.size]

theorem range_of_lt {n : ℕ} (h : n < 2 ^ 31) : Scalar.int.Range n := by
  simp only [Scalar.Range, Scalar.isSigned, Scalar.size, SignedRange, if_true]
  omega

/-- The parts of an array of numbers. -/
def arrayParts (code : UInt8) (s : Scalar) (n : ℕ) (b : Bytes) : List (FieldName × Layout × Bytes) :=
  [codePart code, scalarPart .length .int n, (.data, .array (.scalar s) n, b)]

theorem arrayParts_filled {code : UInt8} {s : Scalar} {n : ℕ} {b : Bytes}
    (h : b.length = n * s.size) : Filled (arrayParts code s n b) := by
  refine (codePart_filled code).append ((scalarPart_filled _ _ _).append (b := [_]) ?_)
  simpa [Filled, CType.size] using h

theorem arrayParts_nodup (code : UInt8) (s : Scalar) (n : ℕ) (b : Bytes) :
    ((arrayParts code s n b).map (·.1)).Nodup := by
  simp [arrayParts, codePart, scalarPart]

theorem attr_arrayParts {c : UInt8} {s : Scalar} {n : ℕ} {b : Bytes}
    (h : b.length = n * s.size) :
    CObject.attr (ofParts (arrayParts c s n b)) .data = .ok ⟨.array (.scalar s) n, b⟩ :=
  attr_part (arrayParts_filled h) (arrayParts_nodup _ _ _ _) (by simp [arrayParts])

theorem dataItems_arrayParts {c : UInt8} {s : Scalar} {is : List ℤ}
    (his : ∀ i ∈ is, s.Range i) :
    CObject.dataItems (ofParts (arrayParts c s is.length (is.flatMap s.store))) = .ok is := by
  have hlen : (is.flatMap s.store).length = is.length * s.size := flatMap_store_length s is
  rw [dataItems_part (arrayParts_filled hlen) (arrayParts_nodup _ _ _ _) s is
      (by simp [arrayParts]),
    List.map_congr_left fun i hi => Scalar.wrap_eq_iff.mpr (his i hi), List.map_id']

theorem uuidLoad_uuidStore (u : UUID) : uuidLoad (uuidStore u) = .ok (.uuid u) := by
  obtain ⟨b, hb⟩ := u
  match b, hb with
  | [b0, b1, b2, b3, b4, b5, b6, b7, b8, b9, b10, b11, b12, b13, b14, b15], _ =>
    simp [uuidStore, uuidByteOrder, uuidLoad]

section Leaves
variable [Python] [OtherCodecs] {cl : Client} {cf : Bool} {t : DataType}

theorem decodes_int {s : Scalar} {i : ℤ} (ht : t.intScalar = some s) (hi : s.Range i) :
    Decodes cl cf t (.int i) (dataObjectLayout s) := by
  have hf : Filled [codePart t.typeCode, scalarPart .value s i] :=
    (codePart_filled _).append (scalarPart_filled _ _ _)
  have hnd : ([codePart t.typeCode, scalarPart .value s i].map (·.1)).Nodup := by
    simp [codePart, scalarPart]
  have hvalue := intAttr_part hf hnd (n := .value) hi (by simp)
  refine decodes_of_parts (.int ht hi) (by simp) hf hnd (by simp) ?_ fun client _ n _ => ?_
  · cases t <;> simp_all [DataType.intScalar, encode, codePart, scalarPart]
  · have hdecoded : decoded Scalar.byte.wrap t (.int i) = .int i := by
      cases t <;> simp_all [DataType.intScalar, decoded]
    rw [hdecoded]
    cases t <;> simp_all [DataType.intScalar, toPythonNotNull, dataObjectToPython, bind,
      Except.bind]

theorem decodes_bool (b : Bool) : Decodes cl cf .boolObject (.bool b) (dataObjectLayout .byte) := by
  have hf : Filled [codePart DataType.boolObject.typeCode,
      scalarPart .value .byte (if b then 1 else 0)] :=
    (codePart_filled _).append (scalarPart_filled _ _ _)
  have hnd : ([codePart DataType.boolObject.typeCode,
      scalarPart .value .byte (if b then 1 else 0)].map (·.1)).Nodup := by
    simp [codePart, scalarPart]
  have hvalue := intAttr_part hf hnd (n := .value) (s := .byte) (i := if b then 1 else 0)
    (by cases b <;> decide) (by simp)
  refine decodes_of_parts (.bool b) (by simp) hf hnd (by simp) ?_ fun client _ n _ => ?_
  · simp [encode, codePart, scalarPart]
  · simp only [toPythonNotNull, boolToPython, hvalue, bind, Except.bind, decoded]
    cases b <;> rfl

theorem decodes_enum {a b : ℤ} (ht : t.IsEnum) (ha : Scalar.int.Range a)
    (hb : Scalar.int.Range b) : Decodes cl cf t (.tuple [.int a, .int b]) enumLayout := by
  have hf : Filled [codePart t.typeCode, scalarPart .typeId .int a, scalarPart .ordinal .int b] :=
    (codePart_filled _).append ((scalarPart_filled _ _ _).append (scalarPart_filled _ _ _))
  have hnd : ([codePart t.typeCode, scalarPart .typeId .int a,
      scalarPart .ordinal .int b].map (·.1)).Nodup := by
    simp [codePart, scalarPart]
  have htypeId := intAttr_part hf hnd (n := .typeId) ha (by simp)
  have hordinal := intAttr_part hf hnd (n := .ordinal) hb (by simp)
  refine decodes_of_parts (.enum ht ha hb) (by simp) hf hnd (by simp) ?_ fun client _ n _ => ?_
  · rcases ht with rfl | rfl <;> simp [encode, codePart, scalarPart]
  · rcases ht with rfl | rfl <;>
      simp only [toPythonNotNull, enumToPython, htypeId, hordinal, bind, Except.bind, decoded]

theorem decodes_str {x : PyStr} (hx : '\x00' ∉ x) (hlen : (utf8Encode x).length < 2 ^ 31) :
    Decodes cl cf .string (.str x) (stringLayout (utf8Encode x).length) := by
  have hf : Filled [codePart DataType.string.typeCode,
      scalarPart .length .int (utf8Encode x).length,
      (.data, .chars (utf8Encode x).length, utf8Encode x)] :=
    (codePart_filled _).append ((scalarPart_filled _ _ _).append (by simp [Filled, CType.size]))
  have hnd : ([codePart DataType.string.typeCode,
      scalarPart .length .int (utf8Encode x).length,
      (.data, .chars (utf8Encode x).length, utf8Encode x)].map (·.1)).Nodup := by
    simp [codePart, scalarPart]
  have hlength := intAttr_part hf hnd (n := .length) (range_of_lt hlen) (by simp)
  have hdata := attr_part hf hnd (n := .data) (c := .chars (utf8Encode x).length)
    (b := utf8Encode x) (by simp)
  refine decodes_of_parts (.str hx hlen) (by simp) hf hnd (by simp) ?_ fun client _ n _ => ?_
  · simp [encode, codePart, scalarPart]
  · simp only [toPythonNotNull, stringToPython, hlength, hdata, bind, Except.bind, decoded]
    split_ifs with hpos
    · rw [takeWhile_utf8Encode hx, utf8Decode_utf8Encode]
    · have hnil : x = [] := utf8Encode_eq_nil.mp (List.length_eq_zero_iff.mp (by omega))
      rw [hnil]

omit [Python] [OtherCodecs] in
theorem foldl_set_length (ps : List (ℕ × UInt8)) (mem : Bytes) :
    (ps.foldl (fun mem p => mem.set p.1 p.2) mem).length = mem.length := by
  induction ps generalizing mem with
  | nil => rfl
  | cons p ps ih => rw [List.foldl_cons, ih, List.length_set]

theorem decodes_uuid (u : UUID) : Decodes cl cf .uuidObject (.uuid u) uuidLayout := by
  have hlen : (uuidStore u).length = 16 := by
    rw [uuidStore, foldl_set_length, List.length_replicate]
  have hf : Filled [codePart DataType.uuidObject.typeCode,
      (.value, .array (.scalar .byte) 16, uuidStore u)] :=
    (codePart_filled _).append (by simp [Filled, CType.size, Scalar.size, hlen])
  have hnd : ([codePart DataType.uuidObject.typeCode,
      (.value, .array (.scalar .byte) 16, uuidStore u)].map (·.1)).Nodup := by
    simp [codePart]
  have hvalue := attr_part hf hnd (n := .value) (c := .array (.scalar .byte) 16)
    (b := uuidStore u) (by simp)
  refine decodes_of_parts (.uuid u) (by simp) hf hnd (by simp) ?_ fun client _ n _ => ?_
  · simp [encode, codePart]
  · simp only [toPythonNotNull, hvalue, bind, Except.bind, uuidLoad_uuidStore, decoded]

theorem decodes_bytes {b : Bytes} (hlen : b.length < 2 ^ 31) :
    Decodes cl cf .byteArrayObject (.bytes b) (primitiveArrayLayout .byte b.length) := by
  have hf : Filled (arrayParts DataType.byteArrayObject.typeCode .byte b.length b) :=
    arrayParts_filled (by simp [Scalar.size])
  have hdata := attr_arrayParts (c := DataType.byteArrayObject.typeCode) (s := .byte)
    (n := b.length) (b := b) (by simp [Scalar.size])
  refine decodes_of_parts (.bytes hlen) (by simp) hf (arrayParts_nodup _ _ _ _)
    (by simp [arrayParts]) ?_ fun client _ n _ => ?_
  · simp [encode, arrayParts, codePart, scalarPart]
  · simp only [toPythonNotNull, byteArrayToPython, hdata, bind, Except.bind, decoded]

theorem decodes_intArray {s : Scalar} {is : List ℤ} (ht : t.arrayScalar = some s)
    (his : ∀ i ∈ is, s.Range i) (hlen : is.length < 2 ^ 31) :
    Decodes cl cf t (.list (is.map .int)) (primitiveArrayLayout s is.length) := by
  have hf : Filled (arrayParts t.typeCode s is.length (is.flatMap s.store)) :=
    arrayParts_filled (by simp [List.length_flatMap])
  have hitems := dataItems_arrayParts (c := t.typeCode) his
  refine decodes_of_parts (.intArray ht his hlen) (by simp) hf (arrayParts_nodup _ _ _ _)
    (by simp [arrayParts]) ?_ fun client _ n _ => ?_
  · rw [encode_intArray ht]
    simp [arrayParts, codePart, scalarPart]
  · have hdecoded : decoded Scalar.byte.wrap t (.list (is.map .int)) = .list (is.map .int) := by
      cases t <;> simp_all [DataType.arrayScalar, decoded]
    rw [hdecoded]
    cases t <;> simp_all [DataType.arrayScalar, toPythonNotNull, primitiveArrayToPython, bind,
      Except.bind]

theorem decodes_boolArray {bs : List Bool} (hlen : bs.length < 2 ^ 31) :
    Decodes cl cf .boolArrayObject (.list (bs.map .bool))
      (primitiveArrayLayout .byte bs.length) := by
  have his : ∀ i ∈ bs.map (fun b => if b then (1 : ℤ) else 0), Scalar.byte.Range i := by
    intro i hi
    obtain ⟨b, -, rfl⟩ := List.mem_map.mp hi
    cases b <;> decide
  have hitems := dataItems_arrayParts (c := DataType.boolArrayObject.typeCode) his
  rw [List.length_map] at hitems
  have hf : Filled (arrayParts DataType.boolArrayObject.typeCode .byte bs.length
      ((bs.map (fun b => if b then (1 : ℤ) else 0)).flatMap Scalar.byte.store)) :=
    arrayParts_filled (by simp [List.length_flatMap, Function.comp_def])
  have hlength := intAttr_part hf (arrayParts_nodup _ _ _ _) (n := .length) (range_of_lt hlen)
    (by simp [arrayParts])
  refine decodes_of_parts (.boolArray hlen) (by simp) hf (arrayParts_nodup _ _ _ _)
    (by simp [arrayParts]) ?_ fun client _ n _ => ?_
  · rw [encode_boolArray]
    simp [arrayParts, codePart, scalarPart]
  · simp only [toPythonNotNull, boolArrayToPython, hlength, hitems, bind, Except.bind, decoded]
    rw [mapM_range_ok (l := bs.map PyValue.bool) (by simp) fun i hi => ?_]
    rw [List.length_map] at hi
    cases hb : bs[i] <;> simp [hi, hb]

/-- A class with a codec of its own. -/
theorem decodes_leaf {t : OtherType} {v : PyValue} {c : Layout} (h : LeafFaithful t v)
    (hsize : c.size = (leafBytes t v).length)
    (hcode : CObj.getInt ⟨c, leafBytes t v⟩ .typeCode = some (t.typeCode.toNat : ℤ))
    (hpy : (OtherCodecs.codec t).toPythonNotNull ⟨c, leafBytes t v⟩ = .ok v) :
    Decodes cl cf (.other t) v c := by
  have hbytes : encode cf (.other t) v = leafBytes t v := encode_other h.not_none h.not_hinted
  rw [← hbytes] at hsize hcode hpy
  refine ⟨hsize.symm, by rw [hcode, firstCode_of_ne h.not_none]; rfl, fun client _ n hn => ?_⟩
  obtain ⟨m, rfl⟩ := Nat.exists_eq_add_of_lt (Nat.lt_of_lt_of_le
    (List.length_pos_iff.mpr (Encodable.leaf h : Encodable cl cf _ _).encode_ne_nil) hn)
  rw [Nat.zero_add, toPythonN_succ (by simp) hcode, decoded_other h.not_hinted]
  exact hpy

end Leaves

end PyGridGain
