import PyGridGain.Client.BinaryTypes
import PyGridGain.Codec.Settled
import PyGridGain.Queries.Envelope

/-! The metadata of a binary type: the request that puts it, and the response that returns it. Both
say by themselves how it stands on the wire. -/

namespace PyGridGain

open CObj StreamM

namespace BinaryTypeResponse

/-! ### Structures -/

section Structures
variable [Python] [OtherCodecs]

def binaryFieldsStruct : StructArray where
  following := [("field_name".toList, .plain (wireClass .string)),
    ("type_id".toList, .plain (primitive .int)), ("field_id".toList, .plain (primitive .int))]

def bodyStruct : Struct where
  fields := [("type_id".toList, .plain (primitive .int)),
    ("type_name".toList, .plain (wireClass .string)),
    ("affinity_key_field".toList, .plain (wireClass .string)),
    ("binary_fields".toList, .plain binaryFieldsStruct.wireClass),
    ("is_enum".toList, .plain boolClass)]

def enumStruct : StructArray where
  following := [("literal".toList, .plain (wireClass .string)),
    ("type_id".toList, .plain (primitive .int))]

omit [Python] [OtherCodecs] in
def schemaFieldsStruct : StructArray where
  following := [("schema_field_id".toList, .plain (primitive .int))]

def schemaStruct : StructArray where
  following := [("schema_id".toList, .plain (primitive .int)),
    ("schema_fields".toList, .plain schemaFieldsStruct.wireClass)]

/-! ### `BinaryTypeResponse` -/

/-- The enums, which only an enum has. -/
def parseEnums (isEnum : ℤ) : StreamM (List (FieldName × Layout)) :=
  if isEnum != 0 then do
    let respEnum ← enumStruct.parse
    pure [(attrName "enums", respEnum)]
  else pure []

/-- The part of `_parse_success` that follows `type_exists`. -/
def parseType : StreamM (List (FieldName × Layout)) := do
  let respBodyType ← bodyStruct.parse
  let respBody ← readBackward respBodyType
  let isEnum ← fun s => (respBody.intAttr (attrName "is_enum")).map fun i => (i, s)
  let enums ← parseEnums isEnum
  let respSchemaType ← schemaStruct.parse
  pure ((attrName "body", respBodyType) :: enums ++ [(attrName "schema", respSchemaType)])

/-- `_parse_success`. -/
def parseSuccess : StreamM (List (FieldName × Layout)) := do
  let typeExists ← readForward (.scalar .byte)
  seekCur (CType.size (.scalar .byte : Layout))
  let fields ← (if typeExists.value ≠ some 0 then parseType else pure [])
  pure ((attrName "type_exists", .scalar .byte) :: fields)

omit [Python] [OtherCodecs] in
/-- `x['schema_id']: [z['schema_field_id'] for z in x['schema_fields']]`. -/
def schemaEntry (x : PyValue) : Except PyError (PyValue × PyValue) := do
  let schemaId ← x.item "schema_id".toList
  let schemaFields ← x.item "schema_fields".toList
  let schemaFields ← schemaFields.elems
  let ids ← schemaFields.mapM fun z => z.item "schema_field_id".toList
  .ok (schemaId, .list ids)

/-- An attribute that the object may lack. -/
def withAttr (o : CObject) (name : FieldName) (result : List (PyStr × PyValue))
    (f : CObject → Except PyError (List (PyStr × PyValue))) :
    Except PyError (List (PyStr × PyValue)) :=
  (o.getattr name).elim (.ok result) f

/-- The part of `to_python` that follows `type_exists`. -/
def typeToPython (o : CObject) (result : List (PyStr × PyValue)) :
    Except PyError (List (PyStr × PyValue)) := do
  let result ← withAttr o (attrName "body") result fun body => do
    let values ← structFieldsToPython none body bodyStruct.fields []
    .ok (dictUpdate result values)
  let result ← withAttr o (attrName "enums") result fun enums => do
    let values ← enumStruct.toPython none enums
    .ok (dictSet result "enums".toList values)
  withAttr o (attrName "schema") result fun schema => do
    let xs ← schemaStruct.toPython none schema
    let xs ← xs.elems
    let entries ← xs.foldlM (fun entries x => do
      let e ← schemaEntry x
      PyValue.dictSet entries e.1 e.2) []
    .ok (dictSet result "schema".toList (.dict entries))

def toPython (o : CObject) : Except PyError PyValue :=
  if (o.getInt (attrName "status_code")).getD 0 = 0 then do
    let typeExists ← o.attr (attrName "type_exists")
    let typeExists ← boolClass.toPython none typeExists
    let result ← typeToPython o [("type_exists".toList, typeExists)]
    .ok (strDict result)
  else .ok .none

end Structures

end BinaryTypeResponse

section Model
variable [Python] [OtherCodecs]

def binaryTypeResponse : ResponseClass :=
  ⟨BinaryTypeResponse.parseSuccess, BinaryTypeResponse.toPython⟩

/-! ### `put_binary_type` -/

/-- The `schema` of a binary type, or of an enum. The fields have ids of their own and types that
have a type code of their own. -/
inductive TypeSchema
  | object (fields : List (PyStr × DataType)) (ids : (fields.map fun f => entityId f.1).Nodup)
      (types : ∀ f ∈ fields, f.2 ≠ .null)
  | enum (literals : List (PyStr × {i : ℤ // Scalar.int.Range i}))
      (names : (literals.map (·.1)).Nodup)

/-- The arguments of `put_binary_type`. -/
structure PutBinaryType where
  typeName : PyStr
  affinityKeyField : Option PyStr
  schema : TypeSchema

namespace TypeSchema
variable (schema : TypeSchema)

def isEnum : Bool :=
  match schema with
  | object .. => false
  | enum .. => true

/-- The keys of the dict. -/
def names : List PyStr :=
  match schema with
  | object fields .. => fields.map (·.1)
  | enum literals _ => literals.map (·.1)

/-- `s_id`, which an enum does not get. -/
def sId : Option ℤ :=
  match schema with
  | object fields .. => some (schemaId fields)
  | enum .. => none

/-- The `binary_fields`. -/
def binaryFields : List BinaryField :=
  match schema with
  | object fields .. => fields.map fun f => ⟨f.1, f.2.typeCode.toNat, entityId f.1⟩
  | enum .. => []

/-- The `enums`. -/
def enums : List (PyStr × ℤ) :=
  match schema with
  | object .. => []
  | enum literals _ => literals.map fun l => (l.1, l.2)

end TypeSchema

omit [Python] [OtherCodecs] in
def BinaryField.value (f : BinaryField) : PyValue :=
  strDict [("field_name".toList, .str f.fieldName), ("type_id".toList, .int f.typeId),
    ("field_id".toList, .int f.fieldId)]

omit [Python] [OtherCodecs] in
def enumValue (literal : PyStr × ℤ) : PyValue :=
  strDict [("literal".toList, .str literal.1), ("type_id".toList, .int literal.2)]

omit [Python] [OtherCodecs] in
def schemaFieldValue (fieldId : ℤ) : PyValue :=
  strDict [("schema_field_id".toList, .int fieldId)]

omit [Python] [OtherCodecs] in
def schemaValue (schemaId : PyValue) (fieldIds : List ℤ) : PyValue :=
  strDict [("schema_id".toList, schemaId),
    ("schema_fields".toList, .list (fieldIds.map schemaFieldValue))]

namespace PutBinaryType
variable (p : PutBinaryType)

def typeId : ℤ := entityId p.typeName

/-- The `data` of the request. -/
def data : List (PyStr × PyValue) :=
  [("type_name".toList, .str p.typeName), ("type_id".toList, .int p.typeId),
    ("affinity_key_field".toList, .ofStr? p.affinityKeyField),
    ("binary_fields".toList, .list (p.schema.binaryFields.map BinaryField.value)),
    ("is_enum".toList, .bool p.schema.isEnum),
    ("schema".toList, .list [schemaValue (p.schema.sId.elim .none .int)
      (p.schema.names.map entityId)])] ++
    if p.schema.isEnum then [("enums".toList, .list (p.schema.enums.map enumValue))] else []

open BinaryTypeResponse in
/-- The `following` of the `query_struct`. -/
def following : List (PyStr × WireClass) :=
  [("type_id".toList, primitive .int), ("type_name".toList, wireClass .string),
    ("affinity_key_field".toList, wireClass .string),
    ("binary_fields".toList, binaryFieldsStruct.wireClass), ("is_enum".toList, boolClass)] ++
    (if p.schema.isEnum then [("enums".toList, enumStruct.wireClass)] else []) ++
    [("schema".toList, BinaryTypeResponse.schemaStruct.wireClass)]

/-- What is encoded behind the header of the request. -/
def encodeBody : StreamM PyValue :=
  writeStructFields (p.following.map fun f => (f.1, .plain f.2)) (strDict p.data)

/-- The type as `get_binary_type` describes it, under a schema id. -/
def binaryType (schemaId : ℤ) : BinaryType :=
  ⟨p.typeName, p.schema.binaryFields, [(schemaId, p.schema.names.map entityId)], by simp⟩

/-- The body of the description. -/
def bodyValues : List (PyStr × PyValue) :=
  [("type_id".toList, .int p.typeId), ("type_name".toList, .str p.typeName),
    ("affinity_key_field".toList, .ofStr? p.affinityKeyField),
    ("binary_fields".toList, .list (p.schema.binaryFields.map BinaryField.value)),
    ("is_enum".toList, .bool p.schema.isEnum)]

/-- The description. -/
def described (schemaId : ℤ) : List (PyStr × PyValue) :=
  p.bodyValues ++
    (if p.schema.isEnum then [("enums".toList, .list (p.schema.enums.map enumValue))] else []) ++
    [("schema".toList, .dict ((p.binaryType schemaId).schema.map fun s =>
      (.int s.1, .list (s.2.map .int))))]

end PutBinaryType

end Model

/-! ### What is put and read -/

section Metadata
variable [Python] [OtherCodecs] {cl : Client} {p : PutBinaryType}

/-- These bytes are read as this description. -/
def DescribedBy (cl : Client) (data : Bytes) (description : List (PyStr × PyValue)) : Prop :=
  FindsParts (SameClient cl) BinaryTypeResponse.parseType data fun parts =>
    BinaryTypeResponse.typeToPython (ofParts parts) [] = .ok description

/-- A response with these bytes behind `type_exists` is received as this description. -/
def DescriptionReceived (cl : Client) (data : Bytes) (description : List (PyStr × PyValue)) :
    Prop :=
  ∀ (version : ProtocolVersion) (e : Envelope), e.error = none → ∀ client s, SameClient cl client →
    ∃ client' s', processResponse version binaryTypeResponse
      (e.encode version (Scalar.byte.store 1 ++ data)) client s =
        .ok (⟨OP_SUCCESS, e.queryId, .str "Success".toList,
          strDict (("type_exists".toList, .bool true) :: description)⟩, client', s')

/-- The body of the request is encoded, the same bytes are decoded as the description of the type, and
of a type that is no enum the original schema is made of that. -/
def ReadBack (cl : Client) (p : PutBinaryType) : Prop :=
  ∃ data schemaId, (∀ s, Ready cl s → ∃ v, p.encodeBody s = .ok (v, s.put data)) ∧
    DescribedBy cl data (p.described schemaId) ∧
    ∀ fields ids types, p.schema = .object fields ids types →
      schemaId = PyGridGain.schemaId fields ∧ (p.binaryType schemaId).schemas = some [fields]

/-- The body of the request is encoded, the response reads it as the description of the type, and of
a type that is no enum the original schema is made of that. -/
def PutAndRead (cl : Client) (p : PutBinaryType) : Prop :=
  ∃ data schemaId, (∀ s, Ready cl s → ∃ v, p.encodeBody s = .ok (v, s.put data)) ∧
    DescribedBy cl data (p.described schemaId) ∧
    DescriptionReceived cl data (p.described schemaId) ∧
    ∀ fields ids types, p.schema = .object fields ids types →
      schemaId = PyGridGain.schemaId fields ∧ (p.binaryType schemaId).schemas = some [fields]

/-- The type is no enum, and its texts and its fields fit. -/
def Describable (p : PutBinaryType) : Prop :=
  match p.schema with
  | .object fields _ _ => Legible p.typeName ∧ (∀ a ∈ p.affinityKeyField, Legible a) ∧
      fields.length < 2 ^ 31 ∧ ∀ f ∈ fields, Legible f.1
  | .enum .. => False

/-! ### The schema that is made of a description -/

omit [Python] [OtherCodecs] in
theorem convertType_typeCode (t : DataType) : convertType t.typeCode.toNat = t := by
  have hlt := t.typeCode.toNat_lt
  have hcode : UInt8.ofNat (t.typeCode.toNat : ℤ).toNat = t.typeCode := by simp
  rw [convertType, if_pos (by omega), hcode, tcMap_typeCode, Option.getD_some]

omit [OtherCodecs] in
theorem field_of_mem {sid : ℤ} {f : BinaryField}
    (hnd : ((p.schema.binaryFields).map (·.fieldId)).Nodup) (hf : f ∈ p.schema.binaryFields) :
    (p.binaryType sid).field f.fieldId = some f := by
  have hsome : ((p.schema.binaryFields).find? fun x => x.fieldId = f.fieldId).isSome := by
    rw [List.find?_isSome]
    exact ⟨f, hf, by simp⟩
  obtain ⟨g, hg⟩ := Option.isSome_iff_exists.mp hsome
  have hid : g.fieldId = f.fieldId := by simpa using List.find?_some hg
  obtain rfl := List.inj_on_of_nodup_map hnd (List.mem_of_find?_eq_some hg) hf hid
  exact hg

omit [OtherCodecs] in
theorem mapM_field {sid : ℤ} (hnd : ((p.schema.binaryFields).map (·.fieldId)).Nodup)
    {fs : List BinaryField} (hfs : fs ⊆ p.schema.binaryFields) :
    (fs.map (·.fieldId)).mapM (p.binaryType sid).field = some fs := by
  induction fs with
  | nil => rfl
  | cons f fs ih =>
    rw [List.map_cons, List.mapM_cons, field_of_mem hnd (hfs List.mem_cons_self),
      ih fun x hx => hfs (List.mem_cons_of_mem _ hx)]
    rfl

omit [OtherCodecs] in
/-- The schema of a type that is no enum is made of its description again. -/
theorem schemas_object {fields ids types} (h : p.schema = .object fields ids types) (sid : ℤ) :
    (p.binaryType sid).schemas = some [fields] := by
  have hfields : p.schema.binaryFields =
      fields.map fun f => ⟨f.1, f.2.typeCode.toNat, entityId f.1⟩ := by rw [h]; rfl
  have hnames : p.schema.names.map entityId = p.schema.binaryFields.map (·.fieldId) := by
    rw [h]
    simp [TypeSchema.names, TypeSchema.binaryFields]
  have hnd : ((p.schema.binaryFields).map (·.fieldId)).Nodup := by
    rw [hfields, List.map_map]
    exact ids
  have hfound : (p.schema.names.map entityId).mapM (p.binaryType sid).field =
      some p.schema.binaryFields := by
    rw [hnames]
    exact mapM_field hnd (List.Subset.refl _)
  have hof : (p.binaryType sid).fieldsOf (sid, p.schema.names.map entityId) =
      p.schema.binaryFields := by
    rw [BinaryType.fieldsOf, hfound, Option.getD_some]
  have hcolumns : columns p.schema.binaryFields = fields := by
    rw [hfields, columns, List.map_map]
    refine (List.map_congr_left fun f _ => ?_).trans (List.map_id fields)
    rw [Function.comp_apply, convertType_typeCode]
    rfl
  have hnodup : (fields.map (·.1)).Nodup := by
    refine List.Nodup.of_map entityId ?_
    rw [List.map_map]
    exact ids
  refine BinaryType.schemas_eq_some.mpr ⟨?_, ?_⟩
  · rw [PutBinaryType.binaryType, List.forall_mem_singleton]
    exact hfound.trans (congrArg some hof.symm)
  · show [fields] = [(p.binaryType sid).schemaOf (sid, p.schema.names.map entityId)]
    rw [BinaryType.schemaOf, hof, hcolumns, dictUpdate_nil_iff.mpr hnodup]

/-! ### What the structures give back -/

theorem settled_binaryField (f : BinaryField) (htype : Scalar.int.Range f.typeId)
    (hfield : Scalar.int.Range f.fieldId) :
    Settled cl (Struct.wireClass ⟨BinaryTypeResponse.binaryFieldsStruct.following,
      BinaryTypeResponse.binaryFieldsStruct.defaults⟩) f.value (Legible f.fieldName) := by
  refine settled_struct_one [("field_name".toList, wireClass .string, .str f.fieldName),
    ("type_id".toList, primitive .int, .int f.typeId),
    ("field_id".toList, primitive .int, .int f.fieldId)]
    (f := ("field_name".toList, wireClass .string, .str f.fieldName)) (by simp) rfl
    (by simp [BinaryTypeResponse.binaryFieldsStruct]) (by simp) (settled_str _) ?_
  simp only [List.forall_mem_cons]
  exact ⟨fun hne => absurd rfl hne, fun _ => settled_primitive htype,
    fun _ => settled_primitive hfield, by simp⟩

omit [Python] [OtherCodecs] in
theorem settled_schema {sid : ℤ} (hsid : Scalar.int.Range sid) {ids : List ℤ}
    (hids : ∀ i ∈ ids, Scalar.int.Range i) :
    Settled cl BinaryTypeResponse.schemaStruct.wireClass (.list [schemaValue (.int sid) ids])
      (ids.length < 2 ^ 31) := by
  have hfield : ∀ i ∈ ids, Settled cl
      (Struct.wireClass ⟨BinaryTypeResponse.schemaFieldsStruct.following,
        BinaryTypeResponse.schemaFieldsStruct.defaults⟩) (schemaFieldValue i) True := fun i hi =>
    settled_struct_true [("schema_field_id".toList, primitive .int, .int i)] rfl
      (by simp [BinaryTypeResponse.schemaFieldsStruct]) (by simp)
      (by simpa using settled_primitive (hids i hi))
  have hentry : ∀ x ∈ [ids], Settled cl
      (Struct.wireClass ⟨BinaryTypeResponse.schemaStruct.following,
        BinaryTypeResponse.schemaStruct.defaults⟩) (schemaValue (.int sid) x)
      (ids.length < 2 ^ 31) := by
    rw [List.forall_mem_singleton]
    refine settled_struct_one [("schema_id".toList, primitive .int, .int sid),
      ("schema_fields".toList, BinaryTypeResponse.schemaFieldsStruct.wireClass,
        .list (ids.map schemaFieldValue))]
      (f := ("schema_fields".toList, BinaryTypeResponse.schemaFieldsStruct.wireClass,
        .list (ids.map schemaFieldValue))) (by simp) rfl
      (by simp [BinaryTypeResponse.schemaStruct]) (by simp)
      ((settled_structArray_iff hfield).iff (by simp)) ?_
    simp only [List.forall_mem_cons]
    exact ⟨fun _ => settled_primitive hsid, fun hne => absurd rfl hne, by simp⟩
  exact (settled_structArray_iff hentry).iff (by simp)

omit [Python] [OtherCodecs] in
/-- A schema without an id, as that of an enum, is refused. -/
theorem refuses_schema (ids : List ℤ) :
    Refuses BinaryTypeResponse.schemaStruct.wireClass (.list [schemaValue .none ids]) := by
  have hid : Refuses (primitive .int) .none := fun s => ⟨_, rfl⟩
  refine refuses_structArray List.mem_cons_self ?_
  exact refuses_struct [("schema_id".toList, primitive .int, .none),
    ("schema_fields".toList, BinaryTypeResponse.schemaFieldsStruct.wireClass,
      .list (ids.map schemaFieldValue))] rfl (by simp [BinaryTypeResponse.schemaStruct]) (by simp)
    List.mem_cons_self hid

/-! ### The request -/

namespace PutBinaryType
variable (p)

/-- The fields of the body of a description. -/
def bodyEntries : Entries :=
  [("type_id".toList, primitive .int, .int p.typeId),
    ("type_name".toList, wireClass .string, .str p.typeName),
    ("affinity_key_field".toList, wireClass .string, .ofStr? p.affinityKeyField),
    ("binary_fields".toList, BinaryTypeResponse.binaryFieldsStruct.wireClass,
      .list (p.schema.binaryFields.map BinaryField.value)),
    ("is_enum".toList, boolClass, .bool p.schema.isEnum)]

/-- The condition under which one of the fields is given back. -/
def Gives (e : PyStr × WireClass × PyValue) : Prop :=
  (e.1 = "type_name".toList → Legible p.typeName) ∧
    (e.1 = "affinity_key_field".toList → ∀ a ∈ p.affinityKeyField, Legible a) ∧
    (e.1 = "binary_fields".toList → p.schema.binaryFields.length < 2 ^ 31 ∧
      ∀ f ∈ p.schema.binaryFields, Legible f.fieldName)

variable {p} in
omit [OtherCodecs] in
theorem range_binaryField {f : BinaryField} (hf : f ∈ p.schema.binaryFields) :
    Scalar.int.Range f.typeId ∧ Scalar.int.Range f.fieldId := by
  cases hschema : p.schema with
  | enum literals names =>
    rw [hschema] at hf
    cases hf
  | object fields ids types =>
    rw [hschema] at hf
    obtain ⟨g, -, rfl⟩ := List.mem_map.mp hf
    have hlt := g.2.typeCode.toNat_lt
    exact ⟨range_of_lt (by omega), hashcodeStr_range _⟩

theorem settled_bodyEntries : ∀ e ∈ p.bodyEntries, Settled cl e.2.1 e.2.2 (p.Gives e) := by
  have htype : Scalar.int.Range p.typeId := hashcodeStr_range _
  have hfields : ∀ f ∈ p.schema.binaryFields, Settled cl
      (Struct.wireClass ⟨BinaryTypeResponse.binaryFieldsStruct.following,
        BinaryTypeResponse.binaryFieldsStruct.defaults⟩) f.value (Legible f.fieldName) :=
    fun f hf => settled_binaryField f (range_binaryField hf).1 (range_binaryField hf).2
  simp only [bodyEntries, List.forall_mem_cons]
  refine ⟨(settled_primitive htype).iff ?_, (settled_str _).iff ?_,
    (settled_str? _).iff ?_, (settled_structArray_iff hfields).iff ?_, (settled_bool _).iff ?_,
    by simp⟩ <;> simp [Gives, -String.reduceToList, String.toList_inj]

/-- The fields of the request for a type that is no enum. -/
def requestEntries (sid : ℤ) : Entries :=
  p.bodyEntries ++ [("schema".toList, BinaryTypeResponse.schemaStruct.wireClass,
    .list [schemaValue (.int sid) (p.schema.names.map entityId)])]

variable {p}

theorem following_object {fields ids types} (h : p.schema = .object fields ids types) :
    p.following.map (fun f => (f.1, FieldClass.plain f.2)) =
      (p.requestEntries (schemaId fields)).map fun e => (e.1, .plain e.2.1) := by
  simp [following, requestEntries, bodyEntries, h, TypeSchema.isEnum, -String.reduceToList]

theorem item_requestEntries {fields ids types} (h : p.schema = .object fields ids types)
    {e : PyStr × WireClass × PyValue} (he : e ∈ p.requestEntries (schemaId fields)) :
    (strDict p.data).item e.1 = .ok e.2.2 := by
  refine item_strDict ?_ ?_
  · simp [data, h, TypeSchema.isEnum, -String.reduceToList, String.toList_inj]
  · have hsub : (p.requestEntries (schemaId fields)).map (fun e => (e.1, e.2.2)) ⊆ p.data := by
      simp [requestEntries, bodyEntries, data, h, TypeSchema.isEnum, TypeSchema.sId,
        -String.reduceToList]
    exact hsub (List.mem_map_of_mem he)

theorem requestEntries_nodup (sid : ℤ) : ((p.requestEntries sid).map (·.1)).Nodup := by
  simp [requestEntries, bodyEntries, -String.reduceToList, String.toList_inj]

theorem bodyEntries_nodup : (p.bodyEntries.map (·.1)).Nodup := by
  simp [bodyEntries, -String.reduceToList, String.toList_inj]

theorem bodyStruct_fields :
    BinaryTypeResponse.bodyStruct.fields = p.bodyEntries.map fun e => (e.1, .plain e.2.1) := rfl

theorem bodyValues_eq : p.bodyValues = p.bodyEntries.map fun e => (e.1, e.2.2) := rfl

omit [Python] [OtherCodecs] in
theorem intAttr_of_attr {o part : CObject} {n : FieldName} {i : ℤ} (h : o.attr n = .ok part)
    (hvalue : part.value = some i) : o.intAttr n = .ok i := by
  have hgetattr : o.getattr n = some part := by
    unfold CObject.attr at h
    cases hget : o.getattr n with
    | none =>
      rw [hget] at h
      cases h
    | some q =>
      rw [hget] at h
      rw [Except.ok.inj h]
  have hint : o.getInt n = some i := (congrArg (·.bind value) hgetattr).trans hvalue
  rw [CObject.intAttr, hint]

/-- The flag that decides on the enums. -/
theorem isEnum_read {o : CObject}
    (h : structFieldsToPython none o BinaryTypeResponse.bodyStruct.fields [] = .ok p.bodyValues) :
    ∃ i, o.intAttr (attrName "is_enum") = .ok i ∧ (i != 0) = p.schema.isEnum := by
  rw [bodyStruct_fields (p := p), bodyValues_eq] at h
  obtain ⟨part, hattr, hpy⟩ := structFieldsToPython_values _ bodyEntries_nodup h
    ("is_enum".toList, boolClass, .bool p.schema.isEnum) (by simp [bodyEntries])
  dsimp only [boolClass] at hpy
  cases hvalue : part.value with
  | none =>
    rw [hvalue] at hpy
    cases hpy
  | some i =>
    rw [hvalue] at hpy
    exact ⟨i, intAttr_of_attr hattr hvalue, by simpa using hpy⟩

omit [Python] [OtherCodecs] in
theorem schemaEntry_value (schemaId : PyValue) (ids : List ℤ) :
    BinaryTypeResponse.schemaEntry (schemaValue schemaId ids) =
      .ok (schemaId, .list (ids.map .int)) := by
  have hnd : (([("schema_id".toList, schemaId),
      ("schema_fields".toList, .list (ids.map schemaFieldValue))] :
        List (PyStr × PyValue)).map (·.1)).Nodup := by
    simp [-String.reduceToList, String.toList_inj]
  have hfields : (ids.map schemaFieldValue).mapM (fun z => z.item "schema_field_id".toList) =
      .ok (ids.map .int) := by
    refine (mapM_ok (g := fun z => (z.item "schema_field_id".toList).toOption.getD .none) ?_).trans ?_
    · refine List.forall_mem_map.mpr fun i _ => ?_
      rw [schemaFieldValue, item_strDict (by simp) List.mem_cons_self]
      rfl
    · rw [List.map_map]
      refine congrArg Except.ok (List.map_congr_left fun i _ => ?_)
      rw [Function.comp_apply, schemaFieldValue, item_strDict (by simp) List.mem_cons_self]
      rfl
  rw [BinaryTypeResponse.schemaEntry, schemaValue, item_strDict hnd List.mem_cons_self, except_bind,
    item_strDict hnd (List.mem_cons_of_mem _ List.mem_cons_self), except_bind, elems_list,
    except_bind, hfields, except_bind]

/-- The parts that a type without enums is described by. -/
structure Describes (p : PutBinaryType) (sid : ℤ) (o : CObject) : Prop where
  body : ∃ part, o.getattr (attrName "body") = some part ∧
    structFieldsToPython none part BinaryTypeResponse.bodyStruct.fields [] = .ok p.bodyValues
  enums : o.getattr (attrName "enums") = none
  schema : ∃ part, o.getattr (attrName "schema") = some part ∧
    BinaryTypeResponse.schemaStruct.toPython none part =
      .ok (.list [schemaValue (.int sid) (p.schema.names.map entityId)])

/-- The entries of a description without enums, behind those that are there. -/
theorem typeToPython_describes {o : CObject} {sid : ℤ} (ho : Describes p sid o)
    (h : p.schema.isEnum = false) {result : List (PyStr × PyValue)}
    (hresult : ((result ++ p.described sid).map (·.1)).Nodup) :
    BinaryTypeResponse.typeToPython o result = .ok (result ++ p.described sid) := by
  obtain ⟨body, hgetBody, hbody⟩ := ho.body
  obtain ⟨schema, hgetSchema, hschema⟩ := ho.schema
  have hdescribed : p.described sid = p.bodyValues ++
      [("schema".toList, .dict [(.int sid, .list ((p.schema.names.map entityId).map .int))])] := by
    simp [described, binaryType, h]
  rw [hdescribed, ← List.append_assoc, List.map_append, List.nodup_append] at hresult
  obtain ⟨hvalues, -, happart⟩ := hresult
  have hfresh : "schema".toList ∉ (result ++ p.bodyValues).map (·.1) := fun hmem =>
    happart _ hmem _ List.mem_cons_self rfl
  unfold BinaryTypeResponse.typeToPython BinaryTypeResponse.withAttr
  rw [hgetBody, Option.elim_some, hbody, except_bind, except_bind, ho.enums, Option.elim_none,
    except_bind, hgetSchema, Option.elim_some, hschema, except_bind, elems_list, except_bind,
    List.foldlM_cons, schemaEntry_value, dictUpdate_of_nodup hvalues]
  refine congrArg Except.ok ((dictSet_of_not_mem _ hfresh).trans ?_)
  rw [hdescribed, List.append_assoc]
  rfl

/-- The body asks no client for anything. -/
theorem bodyStruct_toPython (client : Client) (o : CObject) :
    structFieldsToPython none o BinaryTypeResponse.bodyStruct.fields [] =
      structFieldsToPython (some client) o BinaryTypeResponse.bodyStruct.fields [] := rfl

/-- The parts of a type without enums. -/
def ObjectParts (p : PutBinaryType) (sid : ℤ) (parts : List (FieldName × Layout × Bytes)) : Prop :=
  ∃ body schema : CObject, parts = [(attrName "body", body.ctype, body.mem),
      (attrName "schema", schema.ctype, schema.mem)] ∧
    structFieldsToPython none body BinaryTypeResponse.bodyStruct.fields [] = .ok p.bodyValues ∧
    BinaryTypeResponse.schemaStruct.toPython none schema =
      .ok (.list [schemaValue (.int sid) (p.schema.names.map entityId)])

/-- They describe the type wherever they stand. -/
theorem ObjectParts.describes {sid : ℤ} {parts whole : List (FieldName × Layout × Bytes)}
    (h : ObjectParts p sid parts) (hf : Filled whole) (hnd : (whole.map (·.1)).Nodup)
    (hsub : parts ⊆ whole) (henums : attrName "enums" ∉ whole.map (·.1)) :
    Describes p sid (ofParts whole) := by
  obtain ⟨body, schema, rfl, hbody, hschema⟩ := h
  exact ⟨⟨body, getattr_ofParts hf hnd (hsub List.mem_cons_self), hbody⟩,
    getattr_of_notMem henums,
    ⟨schema, getattr_ofParts hf hnd (hsub (List.mem_cons_of_mem _ List.mem_cons_self)), hschema⟩⟩

/-- A body, behind which the schema of a type that is no enum stands. -/
theorem finds_objectParts {fields ids types} (h : p.schema = .object fields ids types)
    {bytes : PyStr × WireClass × PyValue → Bytes} {schemaBytes : Bytes} {sid : ℤ}
    (hbody : ∀ e ∈ p.bodyEntries, Reads (SameClient cl) e.2.1 (bytes e) e.2.2)
    (hne : p.bodyEntries.flatMap bytes ≠ [])
    (hschema : Reads (SameClient cl) BinaryTypeResponse.schemaStruct.wireClass schemaBytes
      (.list [schemaValue (.int sid) (p.schema.names.map entityId)])) :
    FindsParts (SameClient cl) BinaryTypeResponse.parseType
      (p.bodyEntries.flatMap bytes ++ schemaBytes) (ObjectParts p sid) := by
  have hbodyReads : Reads (SameClient cl) BinaryTypeResponse.bodyStruct.wireClass
      (p.bodyEntries.flatMap bytes) (strDict p.bodyValues) := by
    have hread := reads_plainStruct (s := BinaryTypeResponse.bodyStruct)
      (p.bodyEntries.map fun e => (e.1, e.2.1, bytes e, e.2.2)) (by simp [bodyStruct_fields (p := p)])
      (List.forall_mem_map.mpr hbody) (by simpa [Function.comp_def] using bodyEntries_nodup)
    simpa [List.flatMap_map, Function.comp_def, bodyValues_eq] using hread
  refine Finds.observe hne hbodyReads fun c hsize hpy => ?_
  have hfields : structFieldsToPython none ⟨c, p.bodyEntries.flatMap bytes⟩
      BinaryTypeResponse.bodyStruct.fields [] = .ok p.bodyValues := by
    obtain ⟨result, hresult, hdict⟩ := except_bind_eq_ok.mp (hpy cl ⟨rfl, rfl⟩)
    rw [bodyStruct_toPython cl, hresult, strDict_injective (Except.ok.inj hdict)]
  have hobject : p.schema.isEnum = false := by rw [h]; rfl
  obtain ⟨i, hi, hflag⟩ := isEnum_read hfields
  have hrun : (fun s : BinaryStream => (CObject.intAttr ⟨c, p.bodyEntries.flatMap bytes⟩
      (attrName "is_enum")).map fun i => (i, s)) = (pure i : StreamM ℤ) := by
    rw [hi]
    rfl
  rw [hrun, pure_bind, BinaryTypeResponse.parseEnums, hflag, hobject, if_neg (by simp), pure_bind]
  refine hschema.map fun c' hc' => ?_
  have hvalue : BinaryTypeResponse.schemaStruct.toPython none ⟨c', schemaBytes⟩ =
      .ok (.list [schemaValue (.int sid) (p.schema.names.map entityId)]) := hc'.2 cl ⟨rfl, rfl⟩
  refine ⟨[(attrName "body", c, p.bodyEntries.flatMap bytes), (attrName "schema", c', schemaBytes)],
    rfl, ?_, by simp, ⟨c, _⟩, ⟨c', _⟩, rfl, hfields, hvalue⟩
  simp [Filled, hsize, hc'.1]

omit [OtherCodecs] in
theorem described_names {sid : ℤ} (h : p.schema.isEnum = false) :
    (p.described sid).map (·.1) = ["type_id", "type_name", "affinity_key_field", "binary_fields",
      "is_enum", "schema"].map String.toList := by
  simp [described, bodyValues, h]

theorem describedBy_object {data : Bytes} {sid : ℤ} (hobject : p.schema.isEnum = false)
    (h : FindsParts (SameClient cl) BinaryTypeResponse.parseType data (ObjectParts p sid)) :
    DescribedBy cl data (p.described sid) := by
  refine Finds.mono h fun cs hcs => ?_
  obtain ⟨parts, hlayouts, hfilled, hbytes, hparts⟩ := hcs
  have hnames : parts.map (·.1) = [attrName "body", attrName "schema"] := by
    obtain ⟨body, schema, rfl, -⟩ := hparts
    rfl
  have hdescribes := hparts.describes hfilled (hnames ▸ by decide) (List.Subset.refl _)
    (hnames ▸ by decide)
  refine ⟨parts, hlayouts, hfilled, hbytes, typeToPython_describes hdescribes hobject ?_⟩
  rw [List.nil_append, described_names hobject]
  simp [-String.reduceToList, String.toList_inj]

/-- The whole body of a response, `type_exists` in front. -/
theorem finds_response {I : Client → Prop} {data : Bytes}
    {Q : List (FieldName × Layout × Bytes) → Prop}
    (h : FindsParts I BinaryTypeResponse.parseType data Q) :
    FindsParts I binaryTypeResponse.parseSuccess (Scalar.byte.store 1 ++ data) fun parts =>
      ∃ rest, parts = scalarPart (attrName "type_exists") .byte 1 :: rest ∧ Q rest := by
  have hsize : (CType.scalar .byte : Layout).size = (Scalar.byte.store 1).length :=
    (Scalar.store_length _ _).symm
  refine Finds.looking (Q := fun o => o = ⟨.scalar .byte, Scalar.byte.store 1⟩)
    (fun s hs => ⟨_, readForward_at hs.emptyView hs.at_pos.left (by decide) hsize.symm, rfl⟩) ?_
  rintro o rfl
  have hvalue : CObj.value (⟨.scalar .byte, Scalar.byte.store 1⟩ : CObject) ≠ some 0 := by decide
  rw [if_pos hvalue, hsize]
  refine (Finds.seekCur (Q := fun _ => True) trivial).bind fun _ _ => h.map ?_
  rintro cs ⟨parts, rfl, hfilled, hbytes, hQ⟩
  refine ⟨scalarPart (attrName "type_exists") .byte 1 :: parts, rfl, ?_, ?_, parts, rfl, hQ⟩
  · exact List.forall_mem_cons.mpr ⟨hsize.symm, hfilled⟩
  · rw [List.flatMap_cons, hbytes]
    rfl

/-- `to_python` of a response whose status is a success. -/
theorem toPython_success {o part : CObject} {description : List (PyStr × PyValue)}
    (hstatus : (o.getInt (attrName "status_code")).getD 0 = 0)
    (hexists : o.getattr (attrName "type_exists") = some part) (hvalue : part.value = some 1)
    (hdescription : BinaryTypeResponse.typeToPython o [("type_exists".toList, .bool true)] =
      .ok (("type_exists".toList, .bool true) :: description)) :
    BinaryTypeResponse.toPython o =
      .ok (strDict (("type_exists".toList, .bool true) :: description)) := by
  have hattr : o.attr (attrName "type_exists") = .ok part := by rw [CObject.attr, hexists]
  have hbool : boolClass.toPython none part = .ok (.bool true) := by
    dsimp only [boolClass]
    rw [hvalue]
    rfl
  unfold BinaryTypeResponse.toPython
  rw [if_pos hstatus, hattr, except_bind, hbool, except_bind, hdescription, except_bind]

/-- A response that describes a type without enums is received as its description. -/
theorem received_object {data : Bytes} {sid : ℤ} (hobject : p.schema.isEnum = false)
    (h : FindsParts (SameClient cl) BinaryTypeResponse.parseType data (ObjectParts p sid)) :
    DescriptionReceived cl data (p.described sid) := by
  intro version e herror client s hclient
  have hread : ∀ tail, (∃ rest, tail = scalarPart (attrName "type_exists") .byte 1 :: rest ∧
      ObjectParts p sid rest) →
      Envelope.FreeTail tail ∧ attrName "error_message" ∉ tail.map (·.1) ∧
      (Filled (e.parts version (Scalar.byte.store 1 ++ data) tail) →
        BinaryTypeResponse.toPython (ofParts (e.parts version (Scalar.byte.store 1 ++ data) tail)) =
          .ok (strDict (("type_exists".toList, .bool true) :: p.described sid))) := by
    rintro tail ⟨parts, rfl, hparts⟩
    have hnames : (scalarPart (attrName "type_exists") .byte 1 :: parts).map (·.1) =
        [attrName "type_exists", attrName "body", attrName "schema"] := by
      obtain ⟨body, schema, rfl, -⟩ := hparts
      rfl
    have hfree : Envelope.FreeTail (scalarPart (attrName "type_exists") .byte 1 :: parts) :=
      ⟨hnames ▸ by decide, hnames ▸ by decide⟩
    refine ⟨hfree, hnames ▸ by decide, fun hfilled => ?_⟩
    have htail : scalarPart (attrName "type_exists") .byte 1 :: parts ⊆
        e.parts version (Scalar.byte.store 1 ++ data)
          (scalarPart (attrName "type_exists") .byte 1 :: parts) := by
      rw [Envelope.parts_eq]
      exact List.subset_append_right _ _
    have henums : attrName "enums" ∉ (e.parts version (Scalar.byte.store 1 ++ data)
        (scalarPart (attrName "type_exists") .byte 1 :: parts)).map (·.1) := by
      rw [Envelope.parts_eq, List.map_append, List.mem_append, hnames, not_or]
      exact ⟨fun hmem => absurd (e.front_names version _ hmem) (by decide), by decide⟩
    have hdescribes := hparts.describes hfilled hfree.parts_nodup
      (fun x hx => htail (List.mem_cons_of_mem _ hx)) henums
    have hstatus : e.status = OP_SUCCESS := by simp [Envelope.status, herror]
    refine toPython_success ((Envelope.status_read hfilled hfree).trans hstatus)
      (getattr_ofParts hfilled hfree.parts_nodup (htail List.mem_cons_self)) (by decide)
      (typeToPython_describes hdescribes hobject ?_)
    rw [List.map_append, described_names hobject]
    simp [-String.reduceToList, String.toList_inj]
  obtain ⟨client', -, hprocess⟩ :=
    e.process_success version herror (finds_response h).body hread hclient s
  exact ⟨client', _, hprocess⟩

theorem parseType_ok {s r : BinaryStream} {cs : List (FieldName × Layout)}
    (h : BinaryTypeResponse.parseType s = .ok (cs, r)) :
    ∃ c u rest, BinaryTypeResponse.bodyStruct.parse s = .ok (c, u) ∧
      cs = (attrName "body", c) :: rest ∧ (cs.map (·.1)).Nodup := by
  obtain ⟨c, u, hc, h⟩ := bind_eq_ok h
  obtain ⟨o, u', -, h⟩ := bind_eq_ok h
  obtain ⟨i, v, -, h⟩ := bind_eq_ok h
  obtain ⟨enums, v', henums, h⟩ := bind_eq_ok h
  obtain ⟨c', w, -, h⟩ := bind_eq_ok h
  obtain ⟨rfl, -⟩ := Prod.mk.inj (Except.ok.inj h)
  refine ⟨c, u, _, hc, rfl, ?_⟩
  unfold BinaryTypeResponse.parseEnums at henums
  split_ifs at henums with hi
  · obtain ⟨e, w', -, henums⟩ := bind_eq_ok henums
    obtain ⟨rfl, -⟩ := Prod.mk.inj (Except.ok.inj henums)
    simp [-String.reduceToList, String.toList_inj]
  · obtain ⟨rfl, -⟩ := Prod.mk.inj (Except.ok.inj henums)
    simp [-String.reduceToList, String.toList_inj]

omit [Python] [OtherCodecs] in
theorem withAttr_ok {o : CObject} {name : FieldName} {result result' : List (PyStr × PyValue)}
    {f : CObject → Except PyError (List (PyStr × PyValue))}
    (h : BinaryTypeResponse.withAttr o name result f = .ok result') :
    result' = result ∨ ∃ part, f part = .ok result' := by
  unfold BinaryTypeResponse.withAttr at h
  cases hget : o.getattr name with
  | none =>
    rw [hget] at h
    exact .inl (Except.ok.inj h).symm
  | some part =>
    rw [hget] at h
    exact .inr ⟨part, h⟩

theorem bodyFields_nodup : (BinaryTypeResponse.bodyStruct.fields.map (·.1)).Nodup := by
  simp [BinaryTypeResponse.bodyStruct, -String.reduceToList, String.toList_inj]

theorem bodyToPython_keys {body : CObject} {values : List (PyStr × PyValue)}
    (h : structFieldsToPython none body BinaryTypeResponse.bodyStruct.fields [] = .ok values) :
    values.map (·.1) = BinaryTypeResponse.bodyStruct.fields.map (·.1) := by
  simpa using structFieldsToPython_keys (by simpa using bodyFields_nodup) h

/-- A description begins with the values of the body. -/
theorem typeToPython_body {o body : CObject} {d : List (PyStr × PyValue)}
    (hget : o.getattr (attrName "body") = some body)
    (h : BinaryTypeResponse.typeToPython o [] = .ok d) :
    ∃ values tail, structFieldsToPython none body BinaryTypeResponse.bodyStruct.fields [] =
      .ok values ∧ d = values ++ tail := by
  unfold BinaryTypeResponse.typeToPython at h
  obtain ⟨result, hresult, h⟩ := except_bind_eq_ok.mp h
  obtain ⟨result', hresult', h⟩ := except_bind_eq_ok.mp h
  rw [BinaryTypeResponse.withAttr, hget, Option.elim_some] at hresult
  obtain ⟨values, hvalues, hresult⟩ := except_bind_eq_ok.mp hresult
  have hkeys : values.map (·.1) = BinaryTypeResponse.bodyStruct.fields.map (·.1) :=
    bodyToPython_keys hvalues
  rw [dictUpdate_nil_iff.mpr (hkeys ▸ bodyFields_nodup)] at hresult
  obtain rfl := Except.ok.inj hresult
  have henums : ∃ enums, result' = values ++ enums ∧
      "schema".toList ∉ (values ++ enums).map (·.1) := by
    rcases withAttr_ok hresult' with rfl | ⟨part, hpart⟩
    · refine ⟨[], by simp, ?_⟩
      simp [hkeys, BinaryTypeResponse.bodyStruct, -String.reduceToList, String.toList_inj]
    · obtain ⟨x, -, hx⟩ := except_bind_eq_ok.mp hpart
      have hfresh : "enums".toList ∉ values.map (·.1) := by
        simp [hkeys, BinaryTypeResponse.bodyStruct, -String.reduceToList, String.toList_inj]
      refine ⟨[("enums".toList, x)], ?_, ?_⟩
      · rw [← Except.ok.inj hx, dictSet_of_not_mem _ hfresh]
      · simp [hkeys, BinaryTypeResponse.bodyStruct, -String.reduceToList, String.toList_inj]
  obtain ⟨enums, rfl, hfresh⟩ := henums
  rcases withAttr_ok h with rfl | ⟨part, hpart⟩
  · exact ⟨values, enums, hvalues, rfl⟩
  · obtain ⟨xs, -, hpart⟩ := except_bind_eq_ok.mp hpart
    obtain ⟨xs, -, hpart⟩ := except_bind_eq_ok.mp hpart
    obtain ⟨entries, -, hx⟩ := except_bind_eq_ok.mp hpart
    refine ⟨values, enums ++ [("schema".toList, .dict entries)], hvalues, ?_⟩
    rw [← Except.ok.inj hx, dictSet_of_not_mem _ hfresh, List.append_assoc]

/-- Where the description is that of the type, every field of its body was given back. -/
theorem gives_of_described {bytes : PyStr × WireClass × PyValue → Bytes}
    {Gs : PyStr × WireClass × PyValue → Prop} {rest : Bytes} {sid : ℤ}
    (hans : ∀ e ∈ p.bodyEntries, Answers (SameClient cl) e.2.1 (bytes e) e.2.2 (Gs e))
    (h : DescribedBy cl (p.bodyEntries.flatMap bytes ++ rest) (p.described sid)) :
    ∀ e ∈ p.bodyEntries, Gs e := by
  have hbefore : Before (SameClient cl)
      ⟨cl, p.bodyEntries.flatMap bytes ++ rest, 0, false⟩ (p.bodyEntries.flatMap bytes ++ rest) :=
    ⟨rfl, ⟨rfl, rfl⟩, List.prefix_refl _⟩
  obtain ⟨cs, r, hrun, -, parts, rfl, hfilled, hbytes, hpy⟩ := h _ hbefore
  obtain ⟨c, u, cs, hc, hparts, hnd⟩ := parseType_ok hrun
  cases parts with
  | nil => cases hparts
  | cons part parts =>
    obtain ⟨name, c', b⟩ := part
    obtain ⟨hfirst, -⟩ := List.cons.inj hparts
    obtain ⟨rfl, rfl⟩ := Prod.mk.inj hfirst
    rw [List.map_map] at hnd
    have hb : b.length = c'.size := hfilled _ List.mem_cons_self
    rw [List.flatMap_cons] at hbytes
    obtain ⟨values, tail, hvalues, hd⟩ := typeToPython_body
      (getattr_ofParts hfilled hnd List.mem_cons_self) hpy
    have hlength : p.bodyValues.length = values.length := by
      have hkeys := congrArg List.length (bodyToPython_keys hvalues)
      rw [List.length_map, List.length_map] at hkeys
      exact hkeys.symm
    have hvalues' : p.bodyValues = values :=
      (List.append_inj (by rw [← hd, described, List.append_assoc]) hlength).1
    have hslice : sliceAt (p.bodyEntries.flatMap bytes ++ rest) 0 c'.size = b := by
      rw [← hbytes, ← hb]
      simp [sliceAt]
    have honly := onlyReads_struct (p.bodyEntries.map fun e => (e.1, e.2.1, bytes e, e.2.2))
      (fun f => Gs (f.1, f.2.1, f.2.2.2)) (I := SameClient cl) (s := BinaryTypeResponse.bodyStruct)
      (by simp [bodyStruct_fields (p := p)])
      (by simpa [Function.comp_def] using bodyEntries_nodup) (List.forall_mem_map.mpr hans) cl
      ⟨cl, p.bodyEntries.flatMap bytes ++ rest, 0, false⟩ u c' ?_ ⟨rfl, rfl⟩ hc ?_ ?_
    · exact fun e he => honly _ (List.mem_map_of_mem he)
    · rw [List.flatMap_map]
      exact hbefore.left
    · rw [← hbytes, List.length_append, hb]
      simp
    · rw [hslice]
      refine except_bind_eq_ok.mpr ⟨_, hvalues.trans ?_, rfl⟩
      rw [← hvalues', bodyValues_eq, List.map_map]
      rfl

/-- The schema of an enum has no id, so that nothing is encoded of it. -/
theorem encodeBody_enum {literals names} (h : p.schema = .enum literals names)
    (s : BinaryStream) : ∃ e, p.encodeBody s = .error e := by
  have hnd : ((p.following.map fun f => (f.1, FieldClass.plain f.2)).map (·.1)).Nodup := by
    simp [following, h, TypeSchema.isEnum, -String.reduceToList, String.toList_inj]
  have hmem : ("schema".toList, FieldClass.plain BinaryTypeResponse.schemaStruct.wireClass) ∈
      p.following.map fun f => (f.1, FieldClass.plain f.2) :=
    List.mem_map_of_mem (a := ("schema".toList, BinaryTypeResponse.schemaStruct.wireClass))
      (List.mem_append_right _ List.mem_cons_self)
  have hitem : (strDict p.data).item "schema".toList =
      .ok (.list [schemaValue .none (p.schema.names.map entityId)]) := by
    refine item_strDict ?_ ?_
    · simp [data, h, TypeSchema.isEnum, -String.reduceToList, String.toList_inj]
    · simp [data, h, TypeSchema.sId, -String.reduceToList, String.toList_inj]
  exact writeStructFields_refused hnd hmem hitem (refuses_schema _) s

theorem encodeBody_eq {fields ids types} (h : p.schema = .object fields ids types) :
    p.encodeBody = writeStructFields ((p.requestEntries (schemaId fields)).map fun e =>
      (e.1, .plain e.2.1)) (strDict p.data) := by
  rw [encodeBody, following_object h]

/-- The condition under which one of the fields of the request is given back. -/
def GivesRequest (e : PyStr × WireClass × PyValue) : Prop :=
  p.Gives e ∧ (e.1 = "schema".toList → p.schema.names.length < 2 ^ 31)

theorem bodyEntries_ne_schema {e : PyStr × WireClass × PyValue} (he : e ∈ p.bodyEntries) :
    e.1 ≠ "schema".toList := by
  have hfresh : "schema".toList ∉ p.bodyEntries.map (·.1) := by
    simp [bodyEntries, -String.reduceToList, String.toList_inj]
  rintro heq
  exact hfresh (heq ▸ List.mem_map_of_mem he)

variable (cl) in
theorem settled_requestEntries (fields : List (PyStr × DataType)) :
    ∀ e ∈ p.requestEntries (schemaId fields), Settled cl e.2.1 e.2.2 (p.GivesRequest e) := by
  have hids : ∀ i ∈ p.schema.names.map entityId, Scalar.int.Range i :=
    List.forall_mem_map.mpr fun _ _ => hashcodeStr_range _
  rw [requestEntries, List.forall_mem_append, List.forall_mem_singleton]
  constructor
  · intro e he
    have hne := bodyEntries_ne_schema he
    exact (settled_bodyEntries p e he).iff (and_iff_left fun heq => absurd heq hne).symm
  · refine (settled_schema (schemaId_range fields) hids).iff ?_
    simp [GivesRequest, Gives, -String.reduceToList, String.toList_inj]

theorem describable_iff {fields ids types} (h : p.schema = .object fields ids types) :
    Describable p ↔ ∀ e ∈ p.bodyEntries, p.Gives e := by
  have hfields : p.schema.binaryFields =
      fields.map fun f => ⟨f.1, f.2.typeCode.toNat, entityId f.1⟩ := by rw [h]; rfl
  have hlegible : (∀ f ∈ p.schema.binaryFields, Legible f.fieldName) ↔ ∀ f ∈ fields, Legible f.1 := by
    rw [hfields]
    exact List.forall_mem_map
  have hlength : p.schema.binaryFields.length = fields.length := by rw [hfields, List.length_map]
  have hdescribable : Describable p ↔ Legible p.typeName ∧ (∀ a ∈ p.affinityKeyField, Legible a) ∧
      p.schema.binaryFields.length < 2 ^ 31 ∧ ∀ f ∈ p.schema.binaryFields, Legible f.fieldName := by
    rw [hlegible, hlength, Describable, h]
  rw [hdescribable]
  simp only [bodyEntries, List.forall_mem_cons, Gives]
  simp [-String.reduceToList, String.toList_inj]

theorem describable_iff_request {fields ids types} (h : p.schema = .object fields ids types) :
    Describable p ↔ ∀ e ∈ p.requestEntries (schemaId fields), p.GivesRequest e := by
  rw [describable_iff h, requestEntries, List.forall_mem_append, List.forall_mem_singleton]
  constructor
  · intro hgives
    have hdescribable := (describable_iff h).mpr hgives
    rw [Describable, h] at hdescribable
    have hnames : p.schema.names.length = fields.length := by
      rw [h, TypeSchema.names, List.length_map]
    refine ⟨fun e he => ⟨hgives e he, fun heq => absurd heq (bodyEntries_ne_schema he)⟩, ?_⟩
    refine ⟨?_, fun _ => hnames ▸ hdescribable.2.2.1⟩
    simp [Gives, -String.reduceToList, String.toList_inj]
  · exact fun hgives e he => (hgives.1 e he).1

section Object
variable {fields : List (PyStr × DataType)} {ids : (fields.map fun f => entityId f.1).Nodup}
  {types : ∀ f ∈ fields, f.2 ≠ .null} {bytes : PyStr × WireClass × PyValue → Bytes}

theorem encodeBody_refused (h : p.schema = .object fields ids types)
    {e : PyStr × WireClass × PyValue} (he : e ∈ p.requestEntries (schemaId fields))
    (href : Refuses e.2.1 e.2.2) (s : BinaryStream) : ∃ err, p.encodeBody s = .error err := by
  rw [encodeBody_eq h]
  have hnd : (((p.requestEntries (schemaId fields)).map fun e =>
      (e.1, FieldClass.plain e.2.1)).map (·.1)).Nodup := by
    simpa [Function.comp_def] using requestEntries_nodup (p := p) (schemaId fields)
  have hmem : (e.1, FieldClass.plain e.2.1) ∈ (p.requestEntries (schemaId fields)).map fun e =>
      (e.1, FieldClass.plain e.2.1) := List.mem_map_of_mem he
  exact writeStructFields_refused hnd hmem (item_requestEntries h he) href s

theorem encodeBody_writes (h : p.schema = .object fields ids types)
    (hw : ∀ e ∈ p.requestEntries (schemaId fields), WritesOn (Ready cl) e.2.1 e.2.2 (bytes e))
    {s : BinaryStream} (hs : Ready cl s) :
    ∃ v, p.encodeBody s = .ok (v, s.put ((p.requestEntries (schemaId fields)).flatMap bytes)) := by
  obtain ⟨v, hv⟩ := writeStructFields_writes (lasting_ready cl) (v := strDict p.data)
    (List.forall_mem_map (l := p.requestEntries (schemaId fields))
      (f := fun e => (e.1, e.2.1, e.2.2, bytes e)) |>.mpr hw) (List.forall_mem_map.mpr fun e he => item_requestEntries h he)
    (by simpa [Function.comp_def] using requestEntries_nodup (p := p) (schemaId fields)) hs
  rw [List.map_map, List.flatMap_map] at hv
  rw [encodeBody_eq h]
  exact ⟨v, hv⟩

/-- The type id takes four bytes at least. -/
theorem bodyBytes_ne_nil (hw : ∀ e ∈ p.bodyEntries, WritesOn (Ready cl) e.2.1 e.2.2 (bytes e)) :
    p.bodyEntries.flatMap bytes ≠ [] := by
  have htype : Scalar.int.Range p.typeId := hashcodeStr_range _
  obtain ⟨v, hv⟩ := hw _ List.mem_cons_self _ (ready_empty cl)
  obtain ⟨v', hv'⟩ := (writesAs_primitive (v := .int p.typeId) rfl htype) _ (ready_empty cl).emptyView
  have hbytes := put_injective (Prod.mk.inj (Except.ok.inj (hv.symm.trans hv'))).2
  have hlength := Scalar.store_length .int p.typeId
  rw [bodyEntries, List.flatMap_cons, hbytes]
  intro hnil
  rw [(List.append_eq_nil_iff.mp hnil).1] at hlength
  cases hlength

end Object

/-- What is encoded of a type that is no enum, and the parts that are found in it. -/
theorem exists_objectParts (cl : Client) (h : Describable p) :
    ∃ fields ids types data, p.schema = .object fields ids types ∧
      (∀ s, Ready cl s → ∃ v, p.encodeBody s = .ok (v, s.put data)) ∧
      FindsParts (SameClient cl) BinaryTypeResponse.parseType data
        (ObjectParts p (schemaId fields)) := by
  cases hschema : p.schema with
  | enum literals names => simp [Describable, hschema] at h
  | object fields ids types =>
    have hgives := (describable_iff_request hschema).mp h
    rcases Settled.all (settled_requestEntries (p := p) cl fields) with
      ⟨e, he, -, hG⟩ | ⟨bytes, hbytes⟩
    · exact absurd (hgives e he) hG
    · have hput := fun s hs => encodeBody_writes (s := s) hschema (fun e he => (hbytes e he).1) hs
      rw [requestEntries, List.forall_mem_append, List.forall_mem_singleton] at hbytes hgives
      rw [requestEntries, List.flatMap_append, List.flatMap_singleton] at hput
      exact ⟨fields, ids, types, _, rfl, hput, finds_objectParts hschema
        (fun e he => (hbytes.1 e he).2.kept (hgives.1 e he))
        (bodyBytes_ne_nil fun e he => (hbytes.1 e he).1) (hbytes.2.2.kept hgives.2)⟩

/-- What is encoded as something that describes the type can be described. -/
theorem describable_of_described {data : Bytes} {sid : ℤ}
    (hput : ∀ s, Ready cl s → ∃ v, p.encodeBody s = .ok (v, s.put data))
    (h : DescribedBy cl data (p.described sid)) : Describable p := by
  obtain ⟨v, hv⟩ := hput _ (ready_empty cl)
  cases hschema : p.schema with
  | enum literals names =>
    obtain ⟨err, herr⟩ := encodeBody_enum hschema ⟨cl, [], 0, false⟩
    cases herr.symm.trans hv
  | object fields ids types =>
    rcases Settled.all (settled_requestEntries (p := p) cl fields) with
      ⟨e, he, href, -⟩ | ⟨bytes, hbytes⟩
    · obtain ⟨err, herr⟩ := encodeBody_refused hschema he href ⟨cl, [], 0, false⟩
      cases herr.symm.trans hv
    · obtain ⟨v', hv'⟩ := encodeBody_writes hschema (fun e he => (hbytes e he).1) (ready_empty cl)
      obtain rfl := put_injective (Prod.mk.inj (Except.ok.inj (hv.symm.trans hv'))).2
      rw [requestEntries, List.flatMap_append] at h
      rw [requestEntries, List.forall_mem_append] at hbytes
      have hgives := gives_of_described (fun e he => (hbytes.1 e he).2) h
      exact (describable_iff hschema).mpr fun e he => (hgives e he).1

end PutBinaryType

/-- Such a type is put and read, by itself and in a response. -/
theorem PutBinaryType.putAndRead (cl : Client) {p : PutBinaryType} (h : Describable p) :
    PutAndRead cl p := by
  obtain ⟨fields, ids, types, data, hschema, hput, hparts⟩ := PutBinaryType.exists_objectParts cl h
  have hobject : p.schema.isEnum = false := by rw [hschema]; rfl
  refine ⟨data, schemaId fields, hput, PutBinaryType.describedBy_object hobject hparts,
    PutBinaryType.received_object hobject hparts, fun fields' ids' types' h' => ?_⟩
  exact ⟨by cases hschema.symm.trans h'; rfl, schemas_object h' _⟩

/-- The body of a request is encoded and decoded as the description of the type exactly if the type
is no enum, and its texts and its fields fit. -/
theorem putBinaryType_read_back_iff (cl : Client) (p : PutBinaryType) :
    ReadBack cl p ↔ Describable p := by
  constructor
  · rintro ⟨data, sid, hput, hdescribed, -⟩
    exact PutBinaryType.describable_of_described hput hdescribed
  · intro h
    obtain ⟨data, sid, hput, hdescribed, -, hschemas⟩ := PutBinaryType.putAndRead cl h
    exact ⟨data, sid, hput, hdescribed, hschemas⟩

/-- A response that has the body of a request behind `type_exists` is received as the description of
the type under the same condition. -/
theorem putAndRead_iff (cl : Client) (p : PutBinaryType) : PutAndRead cl p ↔ Describable p := by
  constructor
  · rintro ⟨data, sid, hput, hdescribed, -⟩
    exact PutBinaryType.describable_of_described hput hdescribed
  · exact PutBinaryType.putAndRead cl

end Metadata

/-- An enum with a literal `A`: the request has a schema without an id. -/
theorem enum_not_read_back :
    let _ := asciiLower
    let _ := noOtherCodecs
    let cl : Client := ⟨some true, fun _ => [], fun _ => []⟩
    let p : PutBinaryType := ⟨['E'], none, .enum [(['A'], ⟨1, by decide⟩)] (by simp)⟩
    (∀ s, ∃ e, p.encodeBody s = .error e) ∧ ¬ReadBack cl p := by
  intro _ _ cl p
  have hrefused : ∀ s, ∃ e, p.encodeBody s = .error e := PutBinaryType.encodeBody_enum rfl
  refine ⟨hrefused, ?_⟩
  rintro ⟨data, sid, hput, -⟩
  obtain ⟨e, he⟩ := hrefused ⟨cl, [], 0, false⟩
  obtain ⟨v, hv⟩ := hput _ (ready_empty cl)
  cases he.symm.trans hv

end PyGridGain
