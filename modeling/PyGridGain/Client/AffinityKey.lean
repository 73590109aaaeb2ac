import PyGridGain.Client.Affinity
import PyGridGain.Datatypes.FromPython

/-! The key by which an operation is routed. For a Complex key whose type the cache configures,
this is to be one of its fields; the code asks whether the key is an instance of the metaclass,
as a class is, and looks the configuration up under the type id of the hint. -/

namespace PyGridGain

/-- `type_id` of a data class. The constants `TYPE_*` are the type codes, but for Complex
objects; `Null` and `WrappedDataObject` have none. -/
def DataType.typeId : DataType → Option ℤ
  | .null => none
  | .other .wrappedDataObject => none
  | .binaryObject => some 27
  | t => some t.typeCode.toNat

/-- The attribute `default` of a data class, which not all of them have. -/
def DataType.default : DataType → Option PyValue
  | .null => some .none
  | .byteObject | .shortObject | .intObject | .longObject => some (.int 0)
  | .boolObject => some (.bool false)
  | .byteArrayObject | .shortArrayObject | .intArrayObject | .longArrayObject | .boolArrayObject =>
    some (.list [])
  | .stringArrayObject | .uuidArrayObject => some (.list [])
  | .string | .uuidObject | .enumObject | .binaryEnumObject => none
  | .objectArrayObject | .collectionObject | .mapObject | .binaryObject => none
  | .other t =>
    match t with
    | .floatObject | .doubleObject => some (.float 0)
    | .charObject => some (.str [' '])
    | .dateObject => some (.datetime 0)
    | .timestampObject => some (.tuple [.datetime 0, .int 0])
    | .timeObject => some (.timedelta 0)
    | .decimalObject => some (.decimal false 0 (-2))
    | .wrappedDataObject => none
    | _ => some (.list [])

/-- What a caller hands over as a key: a value, or a class of Complex objects itself. -/
inductive KeyArg
  | value (v : PyValue)
  | dataClass (c : DataClass)

/-- What a caller hands over as a hint. -/
inductive KeyHint
  | dataType (t : DataType)
  | dataClass (c : DataClass)

/-- `isinstance(key, GenericObjectMeta)`. -/
def KeyArg.isGenericObjectMeta : KeyArg → Bool
  | .value _ => false
  | .dataClass _ => true

/-- `AnyDataObject.map_python_type(key)`: a class has all attributes of `is_binary`. -/
def KeyArg.mapPythonType : KeyArg → Except PyError DataType
  | .value v => v.mapPythonType
  | .dataClass _ => .ok .binaryObject

/-- The hint that is used, inferred from the key where the caller gives none. -/
def KeyArg.hint (key : KeyArg) : Option KeyHint → Except PyError KeyHint
  | some hint => .ok hint
  | none => key.mapPythonType.map .dataType

section AffinityKey
variable [Python]

def KeyHint.typeId : KeyHint → Option ℤ
  | .dataType t => t.typeId
  | .dataClass c => some c.typeId

/-- `get_field_by_id`, `none` when the loop ends. Of a class, the attribute `version` is that of
the metaclass, and no other field name is an attribute. -/
def getFieldById (obj : KeyArg) (fieldId : ℤ) : Except PyError (Option (KeyArg × KeyHint)) :=
  match obj with
  | .value (.obj _ fields) =>
    match fields.find? fun f => entityId f.1 == fieldId with
    | some (_, ftype, v) =>
      match ftype.default with
      | some _ => .ok (some (.value v, .dataType ftype))
      | none => raise .attributeError
    | none => .ok none
  | .value _ => raise .attributeError
  | .dataClass c =>
    match c.schema.find? fun f => entityId f.1 == fieldId with
    | some (fname, ftype) =>
      match ftype.default with
      | some d => .ok (some (.value (if fname = versionName then .none else d), .dataType ftype))
      | none => raise .attributeError
    | none => .ok none

namespace Affinity

/-- What is known of the cache, if it is not an empty mapping. -/
def cacheMapping (s : Affinity) (cacheId : ℤ) : Option CacheMapping :=
  ((s.partitionMapping.lookup cacheId).getD none).map (·.mapping)

/-- `_get_affinity_key`. -/
def getAffinityKey (s : Affinity) (cacheId : ℤ) (key : KeyArg) (keyHint : Option KeyHint) :
    Except PyError (Option (KeyArg × KeyHint)) := do
  let keyHint ← key.hint keyHint
  match s.cacheMapping cacheId with
  | some mapping =>
    if mapping.isApplicable && !mapping.cacheConfig.isEmpty then
      match keyHint.typeId.bind fun t => mapping.cacheConfig.lookup t with
      | some affinityKeyId =>
        if affinityKeyId != 0 && key.isGenericObjectMeta then getFieldById key affinityKeyId
        else .ok (some (key, keyHint))
      | none => .ok (some (key, keyHint))
    else .ok (some (key, keyHint))
  | none => .ok (some (key, keyHint))

/-- The field of a Complex key that an applicable mapping configures for its type. -/
def affinityField (s : Affinity) (cacheId : ℤ) (key : PyValue) : Option (PyStr × DataType × PyValue) :=
  match key with
  | .obj head fields => do
    let mapping ← s.cacheMapping cacheId
    if mapping.isApplicable then
      let fieldId ← mapping.cacheConfig.lookup (entityId head.typeName)
      fields.find? fun f => entityId f.1 == fieldId
    else none
  | _ => none

/-- A configured key gives way to its affinity field, any other key stays, with its hint. -/
def SelectsAffinityKey (s : Affinity) (cacheId : ℤ) (key : PyValue) (keyHint : Option KeyHint) :
    Prop :=
  match s.affinityField cacheId key with
  | some (_, ftype, v) =>
    s.getAffinityKey cacheId (.value key) keyHint = .ok (some (.value v, .dataType ftype))
  | none =>
    s.getAffinityKey cacheId (.value key) keyHint =
      ((KeyArg.value key).hint keyHint).map fun hint => some (.value key, hint)

/-- No value is an instance of the metaclass. -/
theorem getAffinityKey_value (s : Affinity) (cacheId : ℤ) (key : PyValue)
    (keyHint : Option KeyHint) :
    s.getAffinityKey cacheId (.value key) keyHint =
      ((KeyArg.value key).hint keyHint).map fun hint => some (.value key, hint) := by
  unfold getAffinityKey
  cases (KeyArg.value key).hint keyHint with
  | error e => rfl
  | ok hint =>
    cases s.cacheMapping cacheId with
    | none => rfl
    | some mapping =>
      dsimp only [bind, Except.bind, KeyArg.isGenericObjectMeta]
      cases hint.typeId.bind fun t => mapping.cacheConfig.lookup t with
      | none => split_ifs <;> rfl
      | some affinityKeyId =>
        simp only [Bool.and_false, Bool.false_eq_true, if_false]
        split_ifs <;> rfl

/-- A field of an object is not the object. -/
theorem affinityField_ne {s : Affinity} {cacheId : ℤ} {key : PyValue}
    {f : PyStr × DataType × PyValue} (h : s.affinityField cacheId key = some f) : f.2.2 ≠ key := by
  unfold affinityField at h
  split at h
  · rename_i head fields
    obtain ⟨mapping, -, h⟩ := Option.bind_eq_some_iff.mp h
    split_ifs at h
    obtain ⟨fieldId, -, h⟩ := Option.bind_eq_some_iff.mp h
    have hmem := List.sizeOf_lt_of_mem (List.mem_of_find?_eq_some h)
    intro heq
    have hsize := congrArg sizeOf heq
    obtain ⟨fname, ftype, v⟩ := f
    simp only [PyValue.obj.sizeOf_spec, Prod.mk.sizeOf_spec] at hsize hmem
    omega
  · cases h

end Affinity

/-- The affinity key is what it should be exactly for the keys that have no affinity field. -/
theorem selectsAffinityKey_iff (s : Affinity) (cacheId : ℤ) (key : PyValue)
    (keyHint : Option KeyHint) :
    s.SelectsAffinityKey cacheId key keyHint ↔ s.affinityField cacheId key = none := by
  unfold Affinity.SelectsAffinityKey
  constructor
  · intro h
    by_contra hsome
    obtain ⟨⟨fname, ftype, v⟩, hf⟩ := Option.ne_none_iff_exists'.mp hsome
    simp only [hf, s.getAffinityKey_value] at h
    cases hhint : (KeyArg.value key).hint keyHint with
    | error e =>
      rw [hhint] at h
      cases h
    | ok hint =>
      rw [hhint] at h
      obtain ⟨hv, -⟩ := Prod.mk.inj (Option.some.inj (Except.ok.inj h))
      exact Affinity.affinityField_ne hf (KeyArg.value.inj hv).symm
  · intro h
    simp only [h]
    exact s.getAffinityKey_value cacheId key keyHint

end AffinityKey

/-- The field `id` is configured for the type of the key, and the key itself is what the
operation is routed by. -/
theorem configured_field_not_selected :
    let _ : Python := asciiLower
    let key : PyValue := .obj ⟨0, "Key".toList, 1, none, none⟩ [("id".toList, .longObject, .int 5)]
    let mapping : CacheMapping :=
      ⟨true, [(entityId "Key".toList, entityId "id".toList)], some [(7, [0, 1])], 2⟩
    let s : Affinity := ⟨toLex (1, 0), [(1, some ⟨mapping, toLex (1, 0)⟩)], toLex (1, 0), none⟩
    s.affinityField 1 key = some ("id".toList, .longObject, .int 5) ∧
      s.getAffinityKey 1 (.value key) none = .ok (some (.value key, .dataType .binaryObject)) ∧
      ¬s.SelectsAffinityKey 1 key none := by
  intro inst key mapping s
  have hkey := s.getAffinityKey_value 1 key none
  refine ⟨rfl, hkey, fun h => ?_⟩
  have hselected : s.getAffinityKey 1 (.value key) none =
      .ok (some (.value (.int 5), .dataType .longObject)) := h
  have hhint : KeyHint.dataType .binaryObject = .dataType .longObject :=
    (Prod.mk.inj (Option.some.inj (Except.ok.inj (hkey.symm.trans hselected)))).2
  cases hhint

end PyGridGain
