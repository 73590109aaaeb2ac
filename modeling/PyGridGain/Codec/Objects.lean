import PyGridGain.Codec.Nested

/-! The structure of a Complex object: header, fields, footer. It decodes, if its
fields do and its class is found, that is, if its schema id is not zero. -/

namespace PyGridGain

open CObj

/-- A field of an object with the layout that was found for it. -/
abbrev Member := Layout × PyStr × DataType × PyValue

/-- The fields of an object. -/
abbrev members (ms : List Member) : List (PyStr × DataType × PyValue) := ms.map fun m => m.2

/-- The fixed fields of an object. -/
def headerParts (h : Header) : List (FieldName × Layout × Bytes) :=
  [codePart DataType.binaryObject.typeCode, scalarPart .version .byte h.version,
    scalarPart .flags .short h.flags, scalarPart .typeId .int h.typeId,
    scalarPart .hashCode .int h.hashCode, scalarPart .length .int h.length,
    scalarPart .schemaId .int h.schemaId, scalarPart .schemaOffset .int h.schemaOffset]

theorem headerParts_bytes (h : Header) : (headerParts h).flatMap (fun p => p.2.2) = h.store := by
  simp [headerParts, codePart, scalarPart, Header.store]

theorem headerParts_filled (h : Header) : Filled (headerParts h) := by
  simp [Filled, headerParts, codePart, scalarPart, CType.size, Scalar.size]

theorem headerParts_nodup (h : Header) : ((headerParts h).map (·.1)).Nodup := by
  simp [headerParts, codePart, scalarPart]

theorem ofParts_header (h : Header) : ofParts (headerParts h) = ⟨headerClass, h.store⟩ := by
  rw [ofParts, headerParts_bytes]
  rfl

section Objects
variable [Python] [OtherCodecs] {cl : Client} {cf : Bool} {ms : List Member} {head : ObjHead}

omit [OtherCodecs] in
theorem footerBytes_length (flags : ℤ) (names : List PyStr) (offsets : List ℕ)
    (hlen : names.length = offsets.length) :
    (footerBytes (hasFlag flags COMPACT_FOOTER) flags names offsets).length =
      offsets.length * (schemaType flags).size := by
  have hzip : (names.zip offsets).length = offsets.length := by simp [hlen]
  simp only [footerBytes, List.length_flatMap, schemaType]
  cases hasFlag flags COMPACT_FOOTER <;> simp [CType.size, CType.sizeFields, hzip]

def memberParts (cf : Bool) (ms : List Member) : List (FieldName × Layout × Bytes) :=
  ms.map fun m => (.field m.2.1, m.1, encode cf m.2.2.1 m.2.2.2)

/-- The layouts found fit the fields. -/
def MembersDecode (cl : Client) (cf : Bool) (ms : List Member) : Prop :=
  ∀ m ∈ ms, Encodable cl cf m.2.2.1 m.2.2.2 ∧ Decodes cl cf m.2.2.1 m.2.2.2 m.1

/-- The layout of the footer of an object with these fields. -/
def footerLayout (cf : Bool) (ms : List Member) : Layout :=
  .array (schemaType (objectFlags cf (chunkStarts headerSize (encodeFields cf (members ms))) : ℕ))
    ms.length

def objectParts (cf : Bool) (head : ObjHead) (ms : List Member) :
    List (FieldName × Layout × Bytes) :=
  headerParts (objectHeader cf head (members ms) (encodeFields cf (members ms))) ++
    [(.objectFields, (ofParts (memberParts cf ms)).ctype, (ofParts (memberParts cf ms)).mem),
     (.schema, footerLayout cf ms, objectFooter cf (members ms) (encodeFields cf (members ms)))]

theorem memberParts_bytes : (ofParts (memberParts cf ms)).mem =
    (encodeFields cf (members ms)).flatten := by
  rw [encodeFields_eq, List.map_map, ofParts, memberParts, List.flatMap_map, List.flatMap_def]
  rfl

theorem memberParts_filled (h : MembersDecode cl cf ms) : Filled (memberParts cf ms) := by
  intro p hp
  obtain ⟨m, hm, rfl⟩ := List.mem_map.mp hp
  exact (h m hm).2.size

theorem objectFooter_length : (objectFooter cf (members ms) (encodeFields cf (members ms))).length =
    (footerLayout cf ms).size := by
  have hlen : (chunkStarts headerSize (encodeFields cf (members ms))).length = ms.length := by
    rw [chunkStarts_length, encodeFields_eq]
    simp
  have h := footerBytes_length
    (objectFlags cf (chunkStarts headerSize (encodeFields cf (members ms))) : ℕ)
    ((members ms).map fun f => f.1) (chunkStarts headerSize (encodeFields cf (members ms)))
    (by simp [hlen])
  rw [hasFlag_compact, hlen] at h
  rw [objectFooter, h, footerLayout, CType.size]

theorem objectParts_filled (h : MembersDecode cl cf ms) : Filled (objectParts cf head ms) := by
  refine (headerParts_filled _).append fun p hp => ?_
  rcases List.mem_pair.mp hp with rfl | rfl
  · exact ofParts_length (memberParts_filled h)
  · exact objectFooter_length

theorem objectParts_nodup : ((objectParts cf head ms).map (·.1)).Nodup := by
  simp [objectParts, headerParts, codePart, scalarPart]

theorem objectParts_bytes : (objectParts cf head ms).flatMap (fun p => p.2.2) =
    encode cf .binaryObject (.obj head (members ms)) := by
  rw [objectParts, List.flatMap_append, headerParts_bytes, encode_obj]
  simp [memberParts_bytes]

omit [OtherCodecs] in
theorem typeId_range (head : ObjHead) (fields : List (PyStr × DataType × PyValue)) :
    Scalar.int.Range (classOf head fields).typeId := hashcodeStr_range _

omit [OtherCodecs] in
theorem schemaId_int_range (head : ObjHead) (fields : List (PyStr × DataType × PyValue)) :
    Scalar.int.Range (classOf head fields).schemaId := schemaId_range _

omit [OtherCodecs] in
theorem queryBinaryType_of_registry {c : Client} {cls : DataClass} (hc : c.registry = cl.registry)
    (hreg : cl.Registered cls) (h0 : cls.schemaId ≠ 0) :
    c.queryBinaryType cls.typeId cls.schemaId = (.dataClass cls, c) := by
  have hreg' : c.Registered cls := by rwa [Client.Registered, hc]
  rw [Client.queryBinaryType_of_registered hreg', if_neg h0]

omit [Python] [OtherCodecs] in
/-- The version that is read, where no field takes its place. -/
theorem version_eq {fields : List (PyStr × DataType × PyValue)} (h : ¬HasVersionField fields) :
    ((versionAttr head fields).toInt?).getD 0 = head.version := by
  have hfind : fields.find? (fun f => f.1 == versionName) = none := by
    rw [List.find?_eq_none]
    intro f hf heq
    exact h (List.any_eq_true.mpr ⟨f, hf, heq⟩)
  simp [versionAttr, hfind, PyValue.toInt?]

/-- The fields read one after another. -/
theorem membersToPython_ok (h : MembersDecode cl cf ms)
    (hnames : ((members ms).map fun f => f.1).Nodup) {client : Option Client}
    (hk : ∀ m ∈ ms, Knows client cl m.2.2.1 m.2.2.2) {n : ℕ}
    (hn : ∀ m ∈ ms, (encode cf m.2.2.1 m.2.2.2).length ≤ n) :
    ((members ms).map fun f => (f.1, f.2.1)).mapM (fun f => do
      let e ← CObject.attr (ofParts (memberParts cf ms)) (.field f.1)
      let v ← toPythonN client n f.2 e
      (.ok (f.1, f.2, v) : Except PyError _)) =
      .ok (decodedFields Scalar.byte.wrap (members ms)) := by
  have hnd : ((memberParts cf ms).map (·.1)).Nodup := by
    have hnodup := hnames.map (f := FieldName.field) fun a b h => by simpa using h
    simpa [memberParts, members, Function.comp_def] using hnodup
  rw [List.mapM_map, List.mapM_map, decodedFields_eq, List.map_map]
  refine mapM_ok fun m hm => ?_
  have hattr := attr_part (memberParts_filled h) hnd (List.mem_map_of_mem hm)
  have hpy := (h m hm).2.toPython client (hk m hm) n (hn m hm)
  simp only [Function.comp_apply, hattr, hpy, bind, Except.bind]

theorem decodes_obj (hv : Encodable cl cf .binaryObject (.obj head (members ms)))
    (h : MembersDecode cl cf ms) (h0 : (classOf head (members ms)).schemaId ≠ 0) :
    Decodes cl cf .binaryObject (.obj head (members ms)) (ofParts (objectParts cf head ms)).ctype := by
  have hf : Filled (objectParts cf head ms) := objectParts_filled h
  have hnd : ((objectParts cf head ms).map (·.1)).Nodup := objectParts_nodup
  refine decodes_of_parts hv (by simp) hf hnd (by simp [objectParts, headerParts])
    objectParts_bytes.symm fun client hknows n hn => ?_
  obtain ⟨c, rfl, hc⟩ := hknows (by simp [objects])
  cases hv with | obj hne hnames _ hreg hsize _ =>
  have hquery := queryBinaryType_of_registry hc hreg h0
  have hk : ∀ m ∈ ms, Knows (some c) cl m.2.2.1 m.2.2.2 := fun _ _ _ => ⟨c, rfl, hc⟩
  have hlen : ∀ m ∈ ms, (encode cf m.2.2.1 m.2.2.2).length ≤ n := by
    intro m hm
    have hle := length_le_flatten (List.mem_map_of_mem (f := fun m : Member =>
      encode cf m.2.2.1 m.2.2.2) hm)
    rw [encode_obj, encodeFields_eq, List.map_map] at hn
    simp only [List.length_append, Header.store_length] at hn
    have : 1 ≤ headerSize := by decide
    simp only [Function.comp_def] at hn
    omega
  have htypeId := intAttr_part hf hnd (n := .typeId) (typeId_range head (members ms))
    (by simp [objectParts, headerParts, objectHeader])
  have hschemaId := intAttr_part hf hnd (n := .schemaId) (schemaId_int_range head (members ms))
    (by simp [objectParts, headerParts, objectHeader])
  have hversion := intAttr_wrap hf hnd (n := .version) (s := .byte)
    (i := ((versionAttr head (members ms)).toInt?).getD 0)
    (by simp [objectParts, headerParts, objectHeader])
  have hfields := attr_part hf hnd (n := .objectFields) (c := (ofParts (memberParts cf ms)).ctype)
    (b := (ofParts (memberParts cf ms)).mem) (by simp [objectParts])
  have hmembers := membersToPython_ok h hnames hk hlen
  have hany : ((classOf head (members ms)).schema.any fun f => f.1 == versionName) = true ↔
      HasVersionField (members ms) := by
    simp [HasVersionField, classOf]
  simp only [toPythonNotNull, binaryToPython, htypeId, hschemaId, hquery, hversion, hfields,
    except_bind]
  rw [show (classOf head (members ms)).schema = (members ms).map fun f => (f.1, f.2.1) from rfl]
    at hany ⊢
  simp only [hmembers, except_bind, hany, decoded]
  by_cases hversionField : HasVersionField (members ms)
  · rw [if_pos hversionField, if_pos hversionField]
    rfl
  · rw [if_neg hversionField, if_neg hversionField, version_eq hversionField]
    rfl

end Objects

end PyGridGain
