import PyGridGain.Client.TypeNames
import PyGridGain.Codec.Writes
import PyGridGain.Datatypes.ToPython
import PyGridGain.Lib.Dict

/-! The classes synthesized from binary type descriptions. The ids of a class are made of
its name and of the names of its fields; those that the description comes with are not
used. An object of a class is written with the ids of the class unless a field takes the
place of what they are read from. -/

namespace PyGridGain

/-- An entry of `binary_fields`. -/
structure BinaryField where
  fieldName : PyStr
  typeId : ℤ
  fieldId : ℤ
  deriving DecidableEq

/-- The description of an existing binary type, as `get_binary_type` reads it. The `schema`
is a dict: of schema ids and the ids of the fields. -/
structure BinaryType where
  typeName : PyStr
  binaryFields : List BinaryField
  schema : List (ℤ × List ℤ)
  nodup : (schema.map (·.1)).Nodup

/-- `_convert_type`: what has no type code is taken for the id of a Complex object type. -/
def convertType (tcType : ℤ) : DataType :=
  if 0 ≤ tcType ∧ tcType < 256 then (tcMap (UInt8.ofNat tcType.toNat)).getD .binaryObject
  else .binaryObject

/-- `next(x for x in binary_fields if x['field_id'] == field_id)`. -/
def BinaryType.field (d : BinaryType) (fieldId : ℤ) : Option BinaryField :=
  d.binaryFields.find? fun x => x.fieldId = fieldId

/-- `_convert_schema`; `none` is the `StopIteration` for an id that no field has. -/
def BinaryType.convertSchema (d : BinaryType) (fieldIds : List ℤ) :
    Option (List (PyStr × DataType)) :=
  fieldIds.foldlM (fun convertedSchema fieldId => (d.field fieldId).map fun f =>
    dictSet convertedSchema f.fieldName (convertType f.typeId)) []

/-- `_process_get_binary_type_result`: the `schemas`. -/
def BinaryType.schemas (d : BinaryType) : Option (List (List (PyStr × DataType))) :=
  d.schema.mapM fun s => d.convertSchema s.2

/-- `_create_dataclass`, with the name made by `_create_type_name`. -/
def createDataclass (typeName : PyStr) (schema : List (PyStr × DataType)) : DataClass :=
  ⟨createTypeName typeName, schema⟩

section Sync
variable [Python]

/-- The loop of `_sync_binary_registry` over the classes of a type: for each schema the
class that is created, if there is none, and the classes afterwards. -/
def syncSchemas (typeName : PyStr) : List (List (PyStr × DataType)) → List (ℤ × DataClass) →
    List (Option DataClass) × List (ℤ × DataClass)
  | [], classes => ([], classes)
  | schema :: schemas, classes =>
    match classes.lookup (schemaId schema) with
    | some _ =>
      let (created, classes) := syncSchemas typeName schemas classes
      (none :: created, classes)
    | none =>
      let c := createDataclass typeName schema
      let (created, classes) := syncSchemas typeName schemas
        (dictSet classes (schemaId schema) c)
      (some c :: created, classes)

end Sync

/-- The names and the types that a schema gets of its fields. -/
def columns (fields : List BinaryField) : List (PyStr × DataType) :=
  fields.map fun f => (f.fieldName, convertType f.typeId)

/-- The names under which a new instance cannot be given anything: of properties, which have no
setter, of the caches, which `_setattr` would reset over and over, and of the schema, which it
asks whether to reset them. -/
def unsettableNames : List PyStr :=
  ["schema", "schema_id", "type_id", "type_name", "_buffer", "_hashcode", "_schema"].map
    String.toList

/-- `data_class()`, which reading an object starts with, returns. -/
def Instantiable (schema : List (PyStr × DataType)) : Prop := ∀ f ∈ schema, f.1 ∉ unsettableNames

section Identity
variable [Python]

section Objects
variable [OtherCodecs]

/-- Values of the class are read as such. -/
def DataType.Reads (t : DataType) (v : PyValue) : Prop :=
  ∃ client o, toPython client t o = .ok v

/-- No field takes the place of what an object needs to be written, nor, unless it always
holds something that `entity_id` takes, that of the name of its type. -/
def Unshadowed (schema : List (PyStr × DataType)) : Prop :=
  (∀ f ∈ schema, f.1 ∉ [fromPythonName, versionName, typeIdName]) ∧
    ∀ t ∈ schema.lookup typeNameName, ∀ v, t.Reads v → v.hasEntityId = true

/-- Every object of the class, with whatever is read into its fields, is written with these
ids in its header. -/
def DataClass.FillsIds (c : DataClass) (typeId schemaId : ℤ) : Prop :=
  ∀ head fields, classOf head fields = c → (∀ f ∈ fields, f.2.1.Reads f.2.2) →
    ∃ version i, headerAttrs head fields = .ok (version, i) ∧
      Scalar.int.wrap i = typeId ∧ (classOf head fields).schemaId = schemaId

end Objects

/-- Every schema id of the description is a key afterwards, and a class that is created for
a schema has the type id, the id of the schema and its fields in order. -/
def ClassesKeepIdentity (typeId : ℤ) (d : BinaryType) (classes : List (ℤ × DataClass)) : Prop :=
  ∃ schemas, d.schemas = some schemas ∧
    ∀ s ∈ d.schema.zip (syncSchemas d.typeName schemas classes).1,
      ((syncSchemas d.typeName schemas classes).2.lookup s.1.1).isSome ∧
      ∀ c ∈ s.2, c.typeId = typeId ∧ c.schemaId = s.1.1 ∧
        ∃ fields, s.1.2.mapM d.field = some fields ∧ c.schema = columns fields

/-- An object that is read by the class that is registered afterwards for a schema of the
description is written again with the type id and the id of the schema. Under the id 0 no
object is read. -/
def ObjectsKeepIdentity [OtherCodecs] (typeId : ℤ) (d : BinaryType)
    (classes : List (ℤ × DataClass)) : Prop :=
  ∀ schemas, d.schemas = some schemas → ∀ s ∈ d.schema, s.1 ≠ 0 →
    ∀ c ∈ (syncSchemas d.typeName schemas classes).2.lookup s.1,
      Instantiable c.schema → c.FillsIds typeId s.1

def KeepsIdentity [OtherCodecs] (typeId : ℤ) (d : BinaryType)
    (classes : List (ℤ × DataClass)) : Prop :=
  ClassesKeepIdentity typeId d classes ∧ ObjectsKeepIdentity typeId d classes

/-- Each schema is found in the fields, and: if its id is not yet registered, the hash of
what is kept of the type name is the type id, the id is the one that the field names give,
and the names differ; if it is, the id that the names give is registered too, or that of an
earlier schema. -/
def ClassesIdentifiable (typeId : ℤ) (d : BinaryType) (classes : List (ℤ × DataClass)) : Prop :=
  ∀ pre s post, d.schema = pre ++ s :: post → ∃ fields, s.2.mapM d.field = some fields ∧
    ((classes.lookup s.1).isSome = false →
      hashcodeStr ((keptName d.typeName).map Char.toLower) = typeId ∧
      schemaId (columns fields) = s.1 ∧ (fields.map (·.fieldName)).Nodup) ∧
    ((classes.lookup s.1).isSome →
      (classes.lookup (schemaId (dictUpdate [] (columns fields)))).isSome ∨
      schemaId (dictUpdate [] (columns fields)) ∈ pre.map (·.1))

/-- The fields of a schema, where all are found. -/
def BinaryType.fieldsOf (d : BinaryType) (s : ℤ × List ℤ) : List BinaryField :=
  (s.2.mapM d.field).getD []

/-- For each schema other than 0 whose objects can be read: a class that is registered for it
already has its ids, and the names of the fields take the place of nothing. -/
def ObjectsIdentifiable [OtherCodecs] (typeId : ℤ) (d : BinaryType)
    (classes : List (ℤ × DataClass)) : Prop :=
  ∀ s ∈ d.schema, s.1 ≠ 0 →
    match classes.lookup s.1 with
    | some c => Instantiable c.schema → c.typeId = typeId ∧ c.schemaId = s.1 ∧ Unshadowed c.schema
    | none => Instantiable (columns (d.fieldsOf s)) → Unshadowed (columns (d.fieldsOf s))

def Identifiable [OtherCodecs] (typeId : ℤ) (d : BinaryType)
    (classes : List (ℤ × DataClass)) : Prop :=
  ClassesIdentifiable typeId d classes ∧ ObjectsIdentifiable typeId d classes

end Identity

section Split
variable {ε : Type}

/-- The first element with a given image. -/
theorem exists_first {l : List ε} {f : ε → ℤ} {a : ℤ} (h : a ∈ l.map f) :
    ∃ pre x post, l = pre ++ x :: post ∧ f x = a ∧ a ∉ pre.map f := by
  obtain ⟨as, bs, hsplit, hnot⟩ := List.eq_append_cons_of_mem h
  obtain ⟨pre, rest, rfl, rfl, hrest⟩ := List.map_eq_append_iff.mp hsplit
  obtain ⟨x, post, rfl, hx, -⟩ := List.map_eq_cons_iff.mp hrest
  exact ⟨pre, x, post, rfl, hx, hnot⟩

/-- A loop over elements that have an id and are stored under a key, if it is not there
yet: all ids are stored, and what is stored is stored under its id, exactly if the elements
whose id is not there have it as their key, and the keys of the others are there. -/
theorem stored_iff {es : List ε} (id key : ε → ℤ) (has : ℤ → Prop) (good : ε → Prop)
    (hnd : (es.map id).Nodup) :
    (∀ pre e post, es = pre ++ e :: post → (has (id e) ∨ id e ∈ es.map key) ∧
      (¬(has (key e) ∨ key e ∈ pre.map key) → key e = id e ∧ good e)) ↔
    ∀ pre e post, es = pre ++ e :: post → (¬has (id e) → key e = id e ∧ good e) ∧
      (has (id e) → has (key e) ∨ key e ∈ pre.map id) := by
  constructor
  · intro h pre e post hsplit
    refine ⟨fun hno => ?_, fun hid => ?_⟩
    · -- the first element stored under the id of `e` is `e`
      obtain ⟨pre', e', post', hsplit', hkey, hfirst⟩ :=
        exists_first (((h pre e post hsplit).1).resolve_left hno)
      obtain ⟨heq, hgood⟩ := (h pre' e' post' hsplit').2
        (by rw [hkey]; exact not_or.mpr ⟨hno, hfirst⟩)
      obtain rfl : e' = e := List.inj_on_of_nodup_map hnd (by rw [hsplit']; simp)
        (by rw [hsplit]; simp) (heq.symm.trans hkey)
      exact ⟨heq, hgood⟩
    · by_contra hno
      obtain ⟨hno, hpre⟩ := not_or.mp hno
      by_cases hmem : key e ∈ pre.map key
      · obtain ⟨pre', e', post', hsplit', hkey, hfirst⟩ := exists_first hmem
        obtain ⟨heq, -⟩ := (h pre' e' (post' ++ e :: post) (by rw [hsplit, hsplit']; simp)).2
          (by rw [hkey]; exact not_or.mpr ⟨hno, hfirst⟩)
        refine hpre ?_
        rw [← hkey, heq, hsplit']
        simp
      · obtain ⟨heq, -⟩ := (h pre e post hsplit).2 (not_or.mpr ⟨hno, hmem⟩)
        exact hno (heq ▸ hid)
  · intro h pre e post hsplit
    refine ⟨?_, fun hno => ?_⟩
    · by_cases hid : has (id e)
      · exact Or.inl hid
      · rw [← ((h pre e post hsplit).1 hid).1, hsplit]
        simp
    · obtain ⟨hno, hpre⟩ := not_or.mp hno
      by_cases hid : has (id e)
      · obtain ⟨e', he', heq⟩ := List.mem_map.mp (((h pre e post hsplit).2 hid).resolve_left hno)
        obtain ⟨pre', post', rfl⟩ := List.append_of_mem he'
        have hkey := ((h pre' e' (post' ++ e :: post) (by rw [hsplit]; simp)).1 (by rwa [heq])).1
        exact absurd (List.mem_map.mpr ⟨e', he', hkey.trans heq⟩) hpre
      · exact (h pre e post hsplit).1 hid

end Split

section Schemas

/-- The schema is the dict of the columns of the fields. -/
theorem convertSchema_eq (d : BinaryType) (fieldIds : List ℤ) :
    d.convertSchema fieldIds =
      (fieldIds.mapM d.field).map fun fields => dictUpdate [] (columns fields) := by
  unfold BinaryType.convertSchema
  generalize ([] : List (PyStr × DataType)) = schema
  induction fieldIds generalizing schema with
  | nil => rfl
  | cons fieldId fieldIds ih =>
    rw [List.foldlM_cons, List.mapM_cons]
    cases h : d.field fieldId with
    | none => rfl
    | some f =>
      simp only [Option.map_some, Option.bind_eq_bind, Option.bind_some, ih]
      cases fieldIds.mapM d.field with
      | none => rfl
      | some fields => rfl

variable [Python] {typeName : PyStr} {ε : Type}

/-- A class is created for a schema if none is registered under its id, nor was created
for an earlier schema. -/
theorem mem_zip_created (schema : ε → List (PyStr × DataType)) {es : List ε}
    {classes : List (ℤ × DataClass)} {e : ε} {c : Option DataClass} :
    (e, c) ∈ es.zip (syncSchemas typeName (es.map schema) classes).1 ↔
      ∃ pre post, es = pre ++ e :: post ∧
        c = if (classes.lookup (schemaId (schema e))).isSome ∨
            schemaId (schema e) ∈ pre.map fun e => schemaId (schema e)
          then none else some (createDataclass typeName (schema e)) := by
  induction es generalizing classes with
  | nil => simp
  | cons x es ih =>
    have hsplit : ∀ P : List ε → Prop, (∃ pre post, x :: es = pre ++ e :: post ∧ P pre) ↔
        (e = x ∧ P []) ∨ ∃ pre post, es = pre ++ e :: post ∧ P (x :: pre) := by
      intro P
      constructor
      · rintro ⟨pre, post, heq, hP⟩
        cases pre with
        | nil =>
          obtain ⟨rfl, -⟩ := List.cons.inj heq
          exact Or.inl ⟨rfl, hP⟩
        | cons y pre =>
          obtain ⟨rfl, htail⟩ := List.cons.inj heq
          exact Or.inr ⟨pre, post, htail, hP⟩
      · rintro (⟨rfl, hP⟩ | ⟨pre, post, rfl, hP⟩)
        · exact ⟨[], es, rfl, hP⟩
        · exact ⟨x :: pre, post, rfl, hP⟩
    rw [hsplit fun pre => c = if _ ∨ _ ∈ pre.map _ then _ else _]
    rw [List.map_cons]
    unfold syncSchemas
    split
    case h_1 cls hcls =>
      have hhas : (classes.lookup (schemaId (schema x))).isSome := by rw [hcls]; rfl
      -- a class of the id of `x` was there before
      have hcons : ∀ pre : List ε, ((classes.lookup (schemaId (schema e))).isSome ∨
          schemaId (schema e) ∈ (x :: pre).map fun e => schemaId (schema e)) ↔
          (classes.lookup (schemaId (schema e))).isSome ∨
            schemaId (schema e) ∈ pre.map fun e => schemaId (schema e) := by
        intro pre
        rw [List.map_cons, List.mem_cons]
        constructor
        · rintro (h | h | h)
          · exact Or.inl h
          · exact Or.inl (h ▸ hhas)
          · exact Or.inr h
        · rintro (h | h)
          · exact Or.inl h
          · exact Or.inr (Or.inr h)
      dsimp only
      rw [List.zip_cons_cons, List.mem_cons, ih, Prod.mk.injEq]
      simp only [hcons]
      refine or_congr (and_congr_right ?_) Iff.rfl
      rintro rfl
      simp [hhas]
    case h_2 hcls =>
      have hno : (classes.lookup (schemaId (schema x))).isSome = false := by rw [hcls]; rfl
      dsimp only
      rw [List.zip_cons_cons, List.mem_cons, ih, Prod.mk.injEq]
      simp only [isSome_lookup_dictSet, List.map_cons, List.mem_cons, or_assoc]
      refine or_congr (and_congr_right ?_) Iff.rfl
      rintro rfl
      simp [hno]

/-- The class registered before, or else the one made of the first schema that has the id. -/
theorem lookup_syncSchemas (schemas : List (List (PyStr × DataType)))
    (classes : List (ℤ × DataClass)) (k : ℤ) :
    (syncSchemas typeName schemas classes).2.lookup k = (classes.lookup k).or
      ((schemas.find? fun schema => schemaId schema = k).map (createDataclass typeName)) := by
  induction schemas generalizing classes with
  | nil => simp [syncSchemas]
  | cons schema schemas ih =>
    rw [List.find?_cons]
    unfold syncSchemas
    split
    case h_1 c hc =>
      dsimp only
      rw [ih]
      by_cases hk : schemaId schema = k
      · rw [← hk, hc, Option.some_or, Option.some_or]
      · simp [hk]
    case h_2 hc =>
      dsimp only
      rw [ih, lookup_dictSet]
      by_cases hk : schemaId schema = k
      · simp [← hk, hc]
      · simp [hk, Ne.symm hk]

theorem isSome_lookup_synced (schemas : List (List (PyStr × DataType)))
    (classes : List (ℤ × DataClass)) (k : ℤ) :
    ((syncSchemas typeName schemas classes).2.lookup k).isSome ↔
      (classes.lookup k).isSome ∨ k ∈ schemas.map schemaId := by
  rw [lookup_syncSchemas, Option.isSome_or, Bool.or_eq_true, Option.isSome_map, List.find?_isSome]
  simp

omit [Python] in
theorem assocSet_eq_dictSet (classes : List (ℤ × DataClass)) (k : ℤ) (c : DataClass) :
    assocSet classes k c = dictSet classes k c := by
  induction classes with
  | nil => rfl
  | cons p classes ih =>
    unfold assocSet dictSet
    rw [ih]

/-- The client of a stream, whose server describes the type by these schemas. -/
theorem syncBinaryRegistry_registry {cl : Client} {typeId : ℤ}
    {schemas : List (List (PyStr × DataType))}
    (hremote : cl.remote typeId = schemas.map (createDataclass typeName)) :
    (cl.syncBinaryRegistry typeId).registry = Function.update cl.registry typeId
      (syncSchemas typeName schemas (cl.registry typeId)).2 := by
  unfold Client.syncBinaryRegistry
  rw [hremote]
  clear hremote
  induction schemas generalizing cl with
  | nil => exact (Function.update_eq_self typeId cl.registry).symm
  | cons schema schemas ih =>
    rw [List.map_cons, List.foldl_cons, ih]
    conv_rhs => unfold syncSchemas
    have hid : (createDataclass typeName schema).schemaId = schemaId schema := rfl
    rw [hid]
    cases (cl.registry typeId).lookup (schemaId schema) with
    | some c => rfl
    | none => simp [Client.setRegistry, assocSet_eq_dictSet]

end Schemas

namespace BinaryType

variable {d : BinaryType}

/-- The schema of its class. -/
def schemaOf (d : BinaryType) (s : ℤ × List ℤ) : List (PyStr × DataType) :=
  dictUpdate [] (columns (d.fieldsOf s))

theorem schemas_eq_some {schemas : List (List (PyStr × DataType))} :
    d.schemas = some schemas ↔
      (∀ s ∈ d.schema, s.2.mapM d.field = some (d.fieldsOf s)) ∧
        schemas = d.schema.map d.schemaOf := by
  have hfound : ∀ s schema, d.convertSchema s.2 = some schema ↔
      s.2.mapM d.field = some (d.fieldsOf s) ∧ schema = d.schemaOf s := by
    intro s schema
    rw [convertSchema_eq, Option.map_eq_some_iff]
    unfold schemaOf fieldsOf
    cases s.2.mapM d.field with
    | none => simp
    | some fields => simp [eq_comm]
  unfold BinaryType.schemas
  generalize d.schema = es
  induction es generalizing schemas with
  | nil => cases schemas <;> simp
  | cons s es ih =>
    rw [List.mapM_cons]
    simp only [Option.bind_eq_bind, Option.bind_eq_some_iff, hfound, ih, List.forall_mem_cons,
      List.map_cons, Option.pure_def, Option.some.injEq]
    constructor
    · rintro ⟨schema, ⟨hs, rfl⟩, rest, ⟨hes, rfl⟩, rfl⟩
      exact ⟨⟨hs, hes⟩, rfl⟩
    · rintro ⟨⟨hs, hes⟩, rfl⟩
      exact ⟨_, ⟨hs, rfl⟩, _, ⟨hes, rfl⟩, rfl⟩

theorem schemaOf_eq_iff {s : ℤ × List ℤ} :
    d.schemaOf s = columns (d.fieldsOf s) ↔ ((d.fieldsOf s).map (·.fieldName)).Nodup := by
  rw [schemaOf, dictUpdate_nil_iff, columns, List.map_map]
  rfl

end BinaryType

section Identity
variable [Python] {typeId : ℤ} {d : BinaryType} {classes : List (ℤ × DataClass)}

/-- The class for a schema has the ids of the description if the names give them. -/
theorem createDataclass_identity_iff [AsciiLower] {s : ℤ × List ℤ}
    (hs : s.2.mapM d.field = some (d.fieldsOf s)) :
    ((createDataclass d.typeName (d.schemaOf s)).typeId = typeId ∧
      (createDataclass d.typeName (d.schemaOf s)).schemaId = s.1 ∧
      ∃ fields, s.2.mapM d.field = some fields ∧
        (createDataclass d.typeName (d.schemaOf s)).schema = columns fields) ↔
      schemaId (d.schemaOf s) = s.1 ∧
        hashcodeStr ((keptName d.typeName).map Char.toLower) = typeId ∧
        ((d.fieldsOf s).map (·.fieldName)).Nodup := by
  rw [← BinaryType.schemaOf_eq_iff, ← entityId_createTypeName]
  constructor
  · rintro ⟨htype, hid, fields, hfields, hschema⟩
    obtain rfl := Option.some.inj (hs.symm.trans hfields)
    exact ⟨hid, htype, hschema⟩
  · rintro ⟨hid, htype, hschema⟩
    exact ⟨htype, hid, d.fieldsOf s, hs, hschema⟩

/-- What is registered and what is created, in terms of the ids that the names give. -/
theorem classesKeepIdentity_iff_stored [AsciiLower] :
    ClassesKeepIdentity typeId d classes ↔
      (∀ s ∈ d.schema, s.2.mapM d.field = some (d.fieldsOf s)) ∧
      ∀ pre s post, d.schema = pre ++ s :: post →
        ((classes.lookup s.1).isSome ∨ s.1 ∈ d.schema.map fun s => schemaId (d.schemaOf s)) ∧
        (¬((classes.lookup (schemaId (d.schemaOf s))).isSome ∨
            schemaId (d.schemaOf s) ∈ pre.map fun s => schemaId (d.schemaOf s)) →
          schemaId (d.schemaOf s) = s.1 ∧
            hashcodeStr ((keptName d.typeName).map Char.toLower) = typeId ∧
            ((d.fieldsOf s).map (·.fieldName)).Nodup) := by
  constructor
  · rintro ⟨schemas, hschemas, hall⟩
    obtain ⟨hfound, rfl⟩ := BinaryType.schemas_eq_some.mp hschemas
    refine ⟨hfound, fun pre s post hsplit => ?_⟩
    have hs : s ∈ d.schema := by rw [hsplit]; simp
    obtain ⟨hkey, hnew⟩ := hall _ ((mem_zip_created d.schemaOf).mpr ⟨pre, post, hsplit, rfl⟩)
    rw [isSome_lookup_synced, List.map_map] at hkey
    refine ⟨hkey, fun hno => (createDataclass_identity_iff (hfound s hs)).mp (hnew _ ?_)⟩
    rw [if_neg hno]
    exact Option.mem_some_self _
  · rintro ⟨hfound, h⟩
    refine ⟨_, BinaryType.schemas_eq_some.mpr ⟨hfound, rfl⟩, ?_⟩
    rintro ⟨s, c⟩ hmem
    obtain ⟨pre, post, hsplit, rfl⟩ := (mem_zip_created d.schemaOf).mp hmem
    have hs : s ∈ d.schema := by rw [hsplit]; simp
    obtain ⟨hkey, hnew⟩ := h pre s post hsplit
    rw [isSome_lookup_synced, List.map_map]
    refine ⟨hkey, fun c hc => ?_⟩
    split_ifs at hc with hno
    · cases hc
    · obtain rfl := Option.mem_some_iff.mp hc
      exact (createDataclass_identity_iff (hfound s hs)).mpr (hnew hno)

/-- The classes keep the identity exactly if it is the one that the names give. -/
theorem classesKeepIdentity_iff [AsciiLower] :
    ClassesKeepIdentity typeId d classes ↔ ClassesIdentifiable typeId d classes := by
  have hstored := stored_iff (·.1) (fun s => schemaId (d.schemaOf s))
    (fun k => (classes.lookup k).isSome)
    (fun s => hashcodeStr ((keptName d.typeName).map Char.toLower) = typeId ∧
      ((d.fieldsOf s).map (·.fieldName)).Nodup) d.nodup
  rw [classesKeepIdentity_iff_stored]
  constructor
  · rintro ⟨hfound, h⟩ pre s post hsplit
    obtain ⟨hnew, hold⟩ := hstored.mp h pre s post hsplit
    refine ⟨d.fieldsOf s, hfound s (by rw [hsplit]; simp), fun hno => ?_, hold⟩
    obtain ⟨hid, htype, hnames⟩ := hnew (by simp [hno])
    rw [← BinaryType.schemaOf_eq_iff.mpr hnames]
    exact ⟨htype, hid, hnames⟩
  · intro h
    have hfound : ∀ s ∈ d.schema, s.2.mapM d.field = some (d.fieldsOf s) := by
      intro s hs
      obtain ⟨pre, post, hsplit⟩ := List.append_of_mem hs
      obtain ⟨fields, hfields, -⟩ := h pre s post hsplit
      rw [BinaryType.fieldsOf, hfields]
      rfl
    refine ⟨hfound, hstored.mpr fun pre s post hsplit => ?_⟩
    obtain ⟨fields, hfields, hnew, hold⟩ := h pre s post hsplit
    obtain rfl := Option.some.inj ((hfound s (by rw [hsplit]; simp)).symm.trans hfields)
    refine ⟨fun hno => ?_, hold⟩
    obtain ⟨htype, hid, hnames⟩ := hnew (by rwa [Bool.not_eq_true] at hno)
    rw [BinaryType.schemaOf_eq_iff.mpr hnames]
    exact ⟨hid, htype, hnames⟩

/-- The class that is registered for a new schema afterwards is the one made of the schema. -/
theorem lookup_syncSchemas_new [AsciiLower] (h : ClassesKeepIdentity typeId d classes)
    {s : ℤ × List ℤ} (hs : s ∈ d.schema) (hno : classes.lookup s.1 = none) :
    (syncSchemas d.typeName (d.schema.map d.schemaOf) classes).2.lookup s.1 =
      some (createDataclass d.typeName (d.schemaOf s)) := by
  obtain ⟨-, hstored⟩ := classesKeepIdentity_iff_stored.mp h
  have hnone : (classes.lookup s.1).isSome = false := by rw [hno]; rfl
  obtain ⟨pre, post, hsplit⟩ := List.append_of_mem hs
  have hmem := (hstored pre s post hsplit).1.resolve_left (by simp [hnone])
  -- the first schema that is stored under the id of `s` is `s`
  obtain ⟨pre', s', post', hsplit', hkey, hfirst⟩ := exists_first hmem
  obtain ⟨hid, -⟩ := (hstored pre' s' post' hsplit').2
    (by rw [hkey]; exact not_or.mpr ⟨by simp [hnone], hfirst⟩)
  obtain rfl : s' = s := List.inj_on_of_nodup_map d.nodup (by rw [hsplit']; simp) hs
    (hid.symm.trans hkey)
  have hbefore : ∀ x ∈ pre', schemaId (d.schemaOf x) ≠ s'.1 := fun x hx heq =>
    hfirst (List.mem_map.mpr ⟨x, hx, heq⟩)
  rw [lookup_syncSchemas, hno, Option.none_or, hsplit', List.map_append, List.map_cons,
    List.find?_append, List.find?_cons_of_pos (by simpa using hkey)]
  have hnone' : (pre'.map d.schemaOf).find? (fun schema => schemaId schema = s'.1) = none := by
    rw [List.find?_map, Option.map_eq_none_iff, List.find?_eq_none]
    exact fun x hx => by simpa using hbefore x hx
  rw [hnone', Option.none_or, Option.map_some]

end Identity

section Objects
variable [Python] [OtherCodecs] {c : DataClass} {name : PyStr}

theorem reads_none (t : DataType) : t.Reads .none := by
  refine ⟨none, ⟨nullLayout, [TC_NULL]⟩, ?_⟩
  cases t <;> rfl

omit [Python] [OtherCodecs] in
theorem lookup_eq_find? {α : Type} (l : List (PyStr × α)) :
    l.lookup name = (l.find? fun f => f.1 == name).map fun f => f.2 := by
  induction l with
  | nil => rfl
  | cons f l ih =>
    rw [lookup_cons_if, ih, List.find?_cons]
    by_cases h : name = f.1
    · simp [h]
    · have hne : (f.1 == name) = false := by simpa using Ne.symm h
      rw [if_neg h, hne]

/-- The fields of an object of the class, with these values. -/
def DataClass.fieldsWith (c : DataClass) (value : PyStr × DataType → PyValue) :
    List (PyStr × DataType × PyValue) :=
  c.schema.map fun f => (f.1, f.2, value f)

omit [Python] [OtherCodecs] in
theorem find?_fieldsWith (value : PyStr × DataType → PyValue) :
    (c.fieldsWith value).find? (fun f => f.1 == name) =
      (c.schema.find? fun f => f.1 == name).map fun f => (f.1, f.2, value f) := by
  rw [DataClass.fieldsWith, List.find?_map]
  rfl

omit [Python] [OtherCodecs] in
theorem find?_name_eq_none {α : Type} {l : List (PyStr × α)} (h : ∀ f ∈ l, f.1 ≠ name) :
    (l.find? fun f => f.1 == name) = none :=
  List.find?_eq_none.mpr fun f hf => by simpa using h f hf

/-- The objects of a class are written with its ids, unless something is shadowed. -/
theorem fillsIds_iff {typeId schemaId : ℤ} (hinst : Instantiable c.schema) :
    c.FillsIds typeId schemaId ↔
      c.typeId = typeId ∧ c.schemaId = schemaId ∧ Unshadowed c.schema := by
  have hwrap : Scalar.int.wrap c.typeId = c.typeId :=
    Scalar.wrap_eq_iff.mpr (hashcodeStr_range _)
  constructor
  · intro h
    have hwith : ∀ value : PyStr × DataType → PyValue, (∀ f ∈ c.schema, f.2.Reads (value f)) →
        ∃ version i, headerAttrs ⟨0, c.typeName, 1, none, none⟩ (c.fieldsWith value) =
          .ok (version, i) ∧ Scalar.int.wrap i = typeId ∧ c.schemaId = schemaId := by
      intro value hvalue
      have hclass : classOf ⟨0, c.typeName, 1, none, none⟩ (c.fieldsWith value) = c := by
        simp [classOf, DataClass.fieldsWith, Function.comp_def]
      obtain ⟨version, i, hattrs, htype, hschema⟩ := h _ _ hclass
        (List.forall_mem_map.mpr hvalue)
      exact ⟨version, i, hattrs, htype, hclass ▸ hschema⟩
    -- the object whose fields are all `None`
    obtain ⟨version, i, hattrs, htype, hschema⟩ := hwith (fun _ => .none) fun f _ => reads_none f.2
    obtain ⟨hmethod, hversion, htypeId, -⟩ := headerAttrs_eq_ok.mp hattrs
    have hnotVersion : ∀ f ∈ c.schema, f.1 ≠ versionName := by
      rw [versionAttr, find?_fieldsWith] at hversion
      cases hfind : c.schema.find? fun f => f.1 == versionName with
      | none => simpa using List.find?_eq_none.mp hfind
      | some f => simp [hfind, PyValue.toInt?] at hversion
    have hnotTypeId : ∀ f ∈ c.schema, f.1 ≠ typeIdName := by
      rw [typeIdAttr, find?_fieldsWith] at htypeId
      cases hfind : c.schema.find? fun f => f.1 == typeIdName with
      | none => simpa using List.find?_eq_none.mp hfind
      | some f => simp [hfind, PyValue.toInt?] at htypeId
    have hnotMethod : ∀ f ∈ c.schema, f.1 ≠ fromPythonName := by
      simpa [hasField, DataClass.fieldsWith] using hmethod
    refine ⟨?_, hschema, fun f hf => ?_, fun t ht v hv => ?_⟩
    · rw [typeIdAttr, find?_fieldsWith, find?_name_eq_none hnotTypeId] at htypeId
      obtain rfl : c.typeId = i := Option.some.inj htypeId
      rwa [hwrap] at htype
    · simp only [List.mem_cons, List.not_mem_nil, or_false, not_or]
      exact ⟨hnotMethod f hf, hnotVersion f hf, hnotTypeId f hf⟩
    · -- the object that has the value for the name of its type
      obtain ⟨⟨n, t'⟩, hfind, rfl⟩ := Option.map_eq_some_iff.mp ((lookup_eq_find? _).symm.trans ht)
      have hreads : ∀ f ∈ c.schema, f.2.Reads (if f = (n, t') then v else .none) := by
        intro f _
        split_ifs with heq
        · rw [heq]
          exact hv
        · exact reads_none f.2
      obtain ⟨version, i, hattrs, -⟩ := hwith _ hreads
      obtain ⟨-, -, -, -, hhashed⟩ := headerAttrs_eq_ok.mp hattrs
      rw [typeNameHashed, find?_fieldsWith, hfind] at hhashed
      simpa using hhashed
  · rintro ⟨htype, hschema, hfree, hname⟩ head fields rfl hreads
    have hfind : ∀ n ∈ [fromPythonName, versionName, typeIdName],
        (fields.find? fun f => f.1 == n) = none := by
      intro n hn
      refine find?_name_eq_none fun f hf heq => hfree (f.1, f.2.1) ?_ (heq ▸ hn)
      exact List.mem_map.mpr ⟨f, hf, rfl⟩
    refine ⟨head.version, (classOf head fields).typeId, headerAttrs_eq_ok.mpr ⟨?_, ?_, ?_, ?_, ?_⟩,
      ?_, hschema⟩
    · simpa [hasField] using hfind fromPythonName (by simp)
    · rw [versionAttr, hfind versionName (by simp)]
      rfl
    · rw [typeIdAttr, hfind typeIdName (by simp)]
      rfl
    · rw [hasField, List.any_eq_false]
      intro f hf heq
      refine hinst (f.1, f.2.1) (List.mem_map.mpr ⟨f, hf, rfl⟩) ?_
      rw [eq_of_beq heq]
      decide
    · unfold typeNameHashed
      cases hsome : fields.find? fun f => f.1 == typeNameName with
      | none => rfl
      | some f =>
        have hmem := List.mem_of_find?_eq_some hsome
        refine hname f.2.1 ?_ f.2.2 (hreads f hmem)
        rw [classOf, lookup_eq_find?, List.find?_map]
        simp only [Function.comp_def, hsome, Option.map_some, Option.mem_some_iff]
    · exact hwrap.trans htype

/-- Where the classes keep the identity, so do the objects if nothing is shadowed. -/
theorem objectsKeepIdentity_iff [AsciiLower] {typeId : ℤ} {d : BinaryType}
    {classes : List (ℤ × DataClass)} (h : ClassesKeepIdentity typeId d classes) :
    ObjectsKeepIdentity typeId d classes ↔ ObjectsIdentifiable typeId d classes := by
  have hfound := (classesKeepIdentity_iff_stored.mp h).1
  have hschemas : d.schemas = some (d.schema.map d.schemaOf) :=
    BinaryType.schemas_eq_some.mpr ⟨hfound, rfl⟩
  unfold ObjectsKeepIdentity ObjectsIdentifiable
  simp only [hschemas, Option.some.injEq, forall_eq']
  refine forall₃_congr fun s hs _ => ?_
  cases hold : classes.lookup s.1 with
  | some c =>
    rw [lookup_syncSchemas, hold, Option.some_or]
    simp only [Option.mem_some_iff, forall_eq']
    exact forall_congr' fillsIds_iff
  | none =>
    rw [lookup_syncSchemas_new h hs hold]
    simp only [Option.mem_some_iff, forall_eq']
    obtain ⟨pre, post, hsplit⟩ := List.append_of_mem hs
    obtain ⟨fields, hfields, hnew, -⟩ := classesKeepIdentity_iff.mp h pre s post hsplit
    obtain rfl := Option.some.inj ((hfound s hs).symm.trans hfields)
    obtain ⟨htype, hid, hnames⟩ := hnew (by rw [hold]; rfl)
    have hschema : (createDataclass d.typeName (d.schemaOf s)).schema = columns (d.fieldsOf s) :=
      BinaryType.schemaOf_eq_iff.mpr hnames
    have hclass := (createDataclass_identity_iff (hfound s hs)).mpr
      ⟨(BinaryType.schemaOf_eq_iff.mpr hnames).symm ▸ hid, htype, hnames⟩
    rw [← hschema]
    refine forall_congr' fun hinst => ?_
    rw [fillsIds_iff hinst]
    exact ⟨fun h => h.2.2, fun h => ⟨hclass.1, hclass.2.1, h⟩⟩

end Objects

/-- The next time no class is created, and objects are still written as those of `OrgFoo`. -/
example :
    letI := asciiLower
    letI := noOtherCodecs
    let d : BinaryType := ⟨"org.Foo".toList, [⟨"id".toList, 4, 3355⟩], [(1664353245, [3355])],
      by decide⟩
    let classes := [(1664353245, createDataclass d.typeName [("id".toList, .longObject)])]
    (syncSchemas d.typeName [[("id".toList, .longObject)]] classes).1 = [none] ∧
      ¬KeepsIdentity (-1205988676) d classes := by
  let _ := asciiLower
  let _ := noOtherCodecs
  refine ⟨by decide, fun h => ?_⟩
  have hfills := h.2 [[("id".toList, .longObject)]] rfl (1664353245, [3355]) (by decide)
    (by decide) _ rfl (by unfold Instantiable; decide)
  exact absurd ((fillsIds_iff (by unfold Instantiable; decide)).mp hfills).1 (by decide)

end PyGridGain
