import PyGridGain.Stream.BinaryStream

/-! `from_python`: writing a Python value as a given data class. The class of a
nested value calls back, so every class is written over the writer `rec` of
nested values, and `fromPythonN` ties the knot under a bound on the nesting, as
Python's own recursion is bounded. Complex objects are passed by reference: the
value returned is the argument after the call, with its caches filled. -/

namespace PyGridGain

open StreamM

/-! ### Strings and fixed-size classes -/

/-- A `c_char` array of size `n` after `b` was assigned to it: `b` is copied up to
its first zero byte. -/
def charsStore (n : ℕ) (b : Bytes) : Bytes :=
  let copied := b.takeWhile (· ≠ 0)
  copied ++ List.replicate (n - copied.length) 0

/-- `UUID_BYTE_ORDER`. -/
def uuidByteOrder : List ℕ := [7, 6, 5, 4, 3, 2, 1, 0, 15, 14, 13, 12, 11, 10, 9, 8]

/-- The sixteen bytes of the field `value`, filled in the order of `uuidByteOrder`. -/
def uuidStore (u : UUID) : Bytes :=
  (uuidByteOrder.zip u.bytes).foldl (fun mem p => mem.set p.1 p.2) (List.replicate 16 0)

/-- `length.to_bytes(4, 'little')`. -/
def lengthBytes (n : ℕ) : Option Bytes := if n < 256 ^ 4 then some (leBytes 4 n) else none

/-- `value.to_bytes(k, 'little', signed=True)`. -/
def signedBytes (k : ℕ) (i : ℤ) : Option Bytes :=
  if SignedRange k i then some (leBytes k (twos k i)) else none

/-- `len(value)` and the elements a `for` loop then sees; where `len` raises
`TypeError` the callers wrap the value into a list. -/
def PyValue.contents (v : PyValue) : List PyValue :=
  match v.iterate with
  | some xs => xs
  | Option.none => [v]

/-- `type_id, value = value`. -/
def PyValue.unpack2 (v : PyValue) : Option (PyValue × PyValue) :=
  match v.iterate with
  | some [a, b] => some (a, b)
  | _ => Option.none

/-- A sequence after its elements have been passed to their writers. -/
def PyValue.refill (v : PyValue) (xs : List PyValue) : PyValue :=
  match v with
  | .tuple _ => .tuple xs
  | .list _ => .list xs
  | _ => v

/-- `DataObject.from_python_not_null`. -/
def writeDataObject (t : DataType) (s : Scalar) (v : PyValue) : StreamM Unit := do
  let i ← ofOption v.toInt? .typeError
  write (t.typeCode :: s.store i)

/-- `String.from_python_not_null`. -/
def writeString (v : PyValue) : StreamM Unit := do
  let value ← match v with
    | .str s => pure (utf8Encode s)
    | .bytes b => pure b
    | _ => raise .typeError
  write (DataType.string.typeCode ::
    (Scalar.int.store value.length ++ charsStore value.length value))

/-- `UUIDObject.from_python_not_null`. -/
def writeUUID (v : PyValue) : StreamM Unit := do
  match v with
  | .uuid u => write (DataType.uuidObject.typeCode :: uuidStore u)
  | _ => raise .attributeError

/-- `EnumObject.from_python_not_null`. -/
def writeEnum (t : DataType) (v : PyValue) : StreamM Unit := do
  let (a, b) ← ofOption v.unpack2 .typeError
  let typeId ← ofOption a.toInt? .typeError
  let ordinal ← ofOption b.toInt? .typeError
  write (t.typeCode :: (Scalar.int.store typeId ++ Scalar.int.store ordinal))

/-! ### Arrays of primitives -/

/-- `struct.pack` with the format of a signed type. -/
def packSigned (s : Scalar) (v : PyValue) : Except PyError Bytes :=
  match v.toInt? with
  | some i => if s.Range i then .ok (s.store i) else PyGridGain.raise .structError
  | none => PyGridGain.raise .structError

/-- `Bool.from_python`. -/
def packBool (v : PyValue) : Except PyError Bytes :=
  .ok (Scalar.byte.store (if v.truthy then 1 else 0))

def writePacked (pack : PyValue → Except PyError Bytes) : List PyValue → StreamM Unit
  | [] => pure ()
  | x :: xs => do
    let b ← fun s => (pack x).map fun b => (b, s)
    write b
    writePacked pack xs

/-- `PrimitiveArrayObject.from_python_not_null`. -/
def writePrimitiveArray (t : DataType) (pack : PyValue → Except PyError Bytes) (v : PyValue) :
    StreamM Unit := do
  let xs ← ofOption v.iterate .typeError
  write [t.typeCode]
  let length ← ofOption (lengthBytes xs.length) .overflowError
  write length
  writePacked pack xs

/-- `bytearray(value)`, or the fallback that takes elements from -128 on. -/
def byteBuffer (xs : List PyValue) : Except PyError Bytes :=
  match xs.mapM PyValue.toInt? with
  | none => PyGridGain.raise .typeError
  | some is =>
    if is.all fun i => -128 ≤ i ∧ i ≤ 255 then .ok (is.map fun i => UInt8.ofNat (twos 1 i))
    else PyGridGain.raise .valueError "byte must be in range(-128, 256)!"

/-- `ByteArrayObject.from_python_not_null`. -/
def writeByteArray (v : PyValue) : StreamM Unit := do
  let xs ← ofOption v.iterate .typeError
  write [DataType.byteArrayObject.typeCode]
  let length ← ofOption (lengthBytes xs.length) .overflowError
  write length
  match v with
  | .bytes b => write b
  | _ => do
    let b ← fun s => (byteBuffer xs).map fun b => (b, s)
    write b

/-! ### Inference of the data class of a value without a hint -/

namespace PyValue

/-- `AnyDataObject.get_subtype`: the type of the first element that is not `None`,
if all others are instances of it. -/
def getSubtype (xs : List PyValue) : Except PyError (Option PyType) :=
  match xs.dropWhile fun x => x.pyType == .noneType with
  | [] => raise .typeError
      "Can not represent an empty iterable or an iterable of `NoneType` in GridGain type."
  | x :: rest =>
    let first := x.pyType
    let allowNone := [PyType.str, .datetime, .timedelta, .decimal, .uuid].contains first
    if rest.all fun y => y.isInstance first || (y.pyType == .noneType && allowNone) then
      .ok (some first)
    else .ok Option.none

/-- `value[i]`. -/
def getItem (v : PyValue) (i : ℕ) : Except PyError PyValue :=
  match v with
  | dict kvs =>
    match kvs.find? fun p => p.1.hashKey == some (.number i) with
    | some p => .ok p.2
    | Option.none => raise .keyError
  | _ =>
    match v.contents[i]? with
    | some x => .ok x
    | Option.none => raise .indexError

/-- An item of what is no dict. -/
theorem getItem_eq_elim {v : PyValue} (hv : ∀ kvs, v ≠ dict kvs) (i : ℕ) :
    v.getItem i = (v.contents[i]?).elim (PyGridGain.raise .indexError) .ok := by
  unfold getItem
  split
  · exact absurd rfl (hv _)
  · cases h : v.contents[i]? <;> rfl

/-- `_python_map`. -/
def pythonMap : PyType → Option DataType
  | .int => some .longObject
  | .float => some (.other .doubleObject)
  | .str => some .string
  | .bytes => some .byteArrayObject
  | .bool => some .boolObject
  | .noneType => some .null
  | .uuid => some .uuidObject
  | .datetime => some (.other .dateObject)
  | .timedelta => some (.other .timeObject)
  | .decimal => some (.other .decimalObject)
  | _ => Option.none

/-- `_python_array_map`. -/
def pythonArrayMap : PyType → Option DataType
  | .int => some .longArrayObject
  | .float => some (.other .doubleArrayObject)
  | .str => some .stringArrayObject
  | .bool => some .boolArrayObject
  | .uuid => some .uuidArrayObject
  | .datetime => some (.other .dateArrayObject)
  | .timedelta => some (.other .timeArrayObject)
  | .decimal => some (.other .decimalArrayObject)
  | _ => Option.none

/-- `AnyDataObject.map_python_type`. The lists given to `all` are built in full,
so both elements are taken before anything is tested. -/
def mapPythonType (v : PyValue) : Except PyError DataType := do
  if let some t := pythonMap v.pyType then return t
  match v with
  | obj .. => return .binaryObject
  | _ =>
    let some xs := v.iterate | raise .typeError "Type is invalid."
    let subtype ← getSubtype xs
    if let some t := subtype.bind pythonArrayMap then return t
    let first ← v.getItem 0
    let second ← v.getItem 1
    if subtype.isSome || xs.length != 2 || !first.isInstance .int then
      raise .typeError "Type `array of` is invalid"
    else if second.pyType == .dict then return .mapObject
    else if second.iterate.isSome then return .collectionObject
    else raise .typeError "Type `array of` is invalid"

end PyValue

/-! ### Complex objects -/

def USER_TYPE : ℕ := 0x0001
def HAS_SCHEMA : ℕ := 0x0002
def OFFSET_ONE_BYTE : ℕ := 0x0008
def OFFSET_TWO_BYTES : ℕ := 0x0010
def COMPACT_FOOTER : ℕ := 0x0020

/-- The fields of the header of a Complex object. -/
structure Header where
  version : ℤ
  flags : ℤ
  typeId : ℤ
  hashCode : ℤ
  length : ℤ
  schemaId : ℤ
  schemaOffset : ℤ
  deriving DecidableEq

/-- `get_header_class()`, after the type code. -/
def headerFields : List (FieldName × Scalar) :=
  [(.version, .byte), (.flags, .short), (.typeId, .int), (.hashCode, .int), (.length, .int),
    (.schemaId, .int), (.schemaOffset, .int)]

def headerClass : Layout :=
  .struct ((.typeCode, .scalar .byte) :: headerFields.map fun f => (f.1, .scalar f.2))

def headerSize : ℕ := headerClass.size

def Header.store (h : Header) : Bytes :=
  DataType.binaryObject.typeCode :: (Scalar.byte.store h.version ++ Scalar.short.store h.flags ++
    Scalar.int.store h.typeId ++ Scalar.int.store h.hashCode ++ Scalar.int.store h.length ++
    Scalar.int.store h.schemaId ++ Scalar.int.store h.schemaOffset)

@[simp] theorem Header.store_length (h : Header) : h.store.length = headerSize := by
  simp [Header.store, headerSize, headerClass, CType.size, CType.sizeFields, headerFields,
    Scalar.size]

/-- `flags & mask` of a header. -/
def hasFlag (flags : ℤ) (mask : ℕ) : Bool := (twos 2 flags &&& mask) != 0

/-- `offset_c_type(flags)`. -/
def offsetCType (flags : ℤ) : Scalar :=
  if hasFlag flags OFFSET_ONE_BYTE then .ubyte
  else if hasFlag flags OFFSET_TWO_BYTES then .ushort
  else .uint

/-- `schema_type(flags)`. -/
def schemaType (flags : ℤ) : Layout :=
  if hasFlag flags COMPACT_FOOTER then .scalar (offsetCType flags)
  else .struct [(.fieldId, .scalar .int), (.offset, .scalar (offsetCType flags))]

/-- The attribute `version` of an object: a schema field of that name takes the
place of the one every object has. -/
def versionName : PyStr := "version".toList

def versionAttr (head : ObjHead) (fields : List (PyStr × DataType × PyValue)) : PyValue :=
  match fields.find? fun f => f.1 == versionName with
  | some f => f.2.2
  | none => .int head.version

def classOf (head : ObjHead) (fields : List (PyStr × DataType × PyValue)) : DataClass :=
  ⟨head.typeName, fields.map fun f => (f.1, f.2.1)⟩

/-- A schema field takes the place of what every object has under that name. -/
def hasField (name : PyStr) (fields : List (PyStr × DataType × PyValue)) : Bool :=
  fields.any fun f => f.1 == name

def typeIdName : PyStr := "_type_id".toList
def typeNameName : PyStr := "_type_name".toList
def schemaName : PyStr := "_schema".toList
def fromPythonName : PyStr := "_from_python".toList

/-- `entity_id` returns: for `None`, an integer, and what has a `lower`. -/
def PyValue.hasEntityId : PyValue → Bool
  | none | int _ | str _ | bytes _ => true
  | _ => false

/-- The default of `_type_id`, which the property `type_id` computes from the attribute
`_type_name` also where it does not need it. -/
def typeNameHashed (fields : List (PyStr × DataType × PyValue)) : Bool :=
  match fields.find? fun f => f.1 == typeNameName with
  | some f => f.2.2.hasEntityId
  | none => true

section Writers
variable [Python]

/-- The property `type_id` of an object, which reads the attribute `_type_id`. -/
def typeIdAttr (head : ObjHead) (fields : List (PyStr × DataType × PyValue)) : PyValue :=
  match fields.find? fun f => f.1 == typeIdName with
  | some f => f.2.2
  | none => .int (classOf head fields).typeId

/-- A call of `_from_python` up to what `write_header` takes from the object besides the schema
id, its version and type id. What a schema field puts in the place of the method cannot be
called, nor is it a schema in that of `_schema`. -/
def headerAttrs (head : ObjHead) (fields : List (PyStr × DataType × PyValue)) :
    Except PyError (ℤ × ℤ) := do
  if hasField fromPythonName fields then PyGridGain.raise .typeError
  let some version := (versionAttr head fields).toInt? | PyGridGain.raise .typeError
  if !typeNameHashed fields then PyGridGain.raise .attributeError
  let some typeId := (typeIdAttr head fields).toInt? | PyGridGain.raise .typeError
  if hasField schemaName fields then PyGridGain.raise .attributeError
  return (version, typeId)

/-- The footer: for every offset the offset itself, or a field id and the offset. -/
def footerBytes (compact : Bool) (flags : ℤ) (names : List PyStr) (offsets : List ℕ) : Bytes :=
  (names.zip offsets).flatMap fun p =>
    if compact then (offsetCType flags).store p.2
    else Scalar.int.store (entityId p.1) ++ (offsetCType flags).store p.2

section Nested
variable (rec : DataType → PyValue → StreamM PyValue)

/-- The loop of `_from_python` over the schema: write each field and append
`max(offsets)` plus its size. -/
def writeFields : List (PyStr × DataType × PyValue) → List ℕ →
    StreamM (List (PyStr × DataType × PyValue) × List ℕ)
  | [], offsets => pure ([], offsets)
  | (name, t, v) :: fields, offsets => do
    let start ← tell
    let v ← rec t v
    let stop ← tell
    let (fields, offsets) ← writeFields fields (offsets ++ [offsets.foldl max 0 + (stop - start)])
    pure ((name, t, v) :: fields, offsets)

/-- `_from_python(stream, save_to_buf)` with `write_header` and `write_footer`. -/
def objFromPython (save : Bool) (head : ObjHead) (fields : List (PyStr × DataType × PyValue)) :
    StreamM PyValue := do
  let cls := classOf head fields
  let initialPos ← tell
  -- write_header
  let compact ← compactFooter
  let flags := USER_TYPE ||| HAS_SCHEMA ||| (if compact then COMPACT_FOOTER else 0)
  let (version, typeId) ← fun s => (headerAttrs head fields).map fun attrs => (attrs, s)
  seekCur headerSize
  let (fields, offsets) ← writeFields rec fields [headerSize]
  -- write_footer
  let offsets := offsets.dropLast
  let flags :=
    if offsets.foldl max 0 < 255 then flags ||| OFFSET_ONE_BYTE
    else if offsets.foldl max 0 < 65535 then flags ||| OFFSET_TWO_BYTES
    else flags
  let compact ← compactFooter
  let footer := footerBytes compact flags (fields.map fun f => f.1) offsets
  let stop ← tell
  let fieldsDataLen := stop - initialPos - headerSize
  let schemaOffset := Scalar.int.wrap (fieldsDataLen + headerSize : ℕ)
  let hash ← hashcode (initialPos + headerSize) fieldsDataLen
  seek initialPos
  write (Header.store ⟨version, flags, typeId, hash, schemaOffset + footer.length,
    cls.schemaId, schemaOffset⟩)
  seek (initialPos + schemaOffset)
  write footer
  let stop ← tell
  if save then do
    let buffer ← slice initialPos (stop - initialPos)
    pure (.obj { head with buffer := some buffer, hashcode := some hash } fields)
  else pure (.obj { head with hashcode := some hash } fields)

/-- `BinaryObject.from_python_not_null`: the fast path writes a cached
representation as it is. -/
def binaryFromPython (v : PyValue) : StreamM PyValue :=
  match v with
  | .obj head fields =>
    match head.buffer with
    | some (b :: buffer) => do
      write (b :: buffer)
      pure v
    | _ => do
      registerBinaryType (classOf head fields)
      objFromPython rec false head fields
  | _ => raise .attributeError

/-! ### Containers -/

/-- `infer_from_python`. -/
def inferFromPython (v : PyValue) : StreamM PyValue :=
  match v with
  | .hinted v t => do
    let v ← rec t v
    pure (.hinted v t)
  | _ => do
    let t ← fun s => v.mapPythonType.map fun t => (t, s)
    rec t v

def inferAll : List PyValue → StreamM (List PyValue)
  | [] => pure []
  | x :: xs => do
    let x ← inferFromPython rec x
    let xs ← inferAll xs
    pure (x :: xs)

def inferPairs : List (PyValue × PyValue) → StreamM (List (PyValue × PyValue))
  | [] => pure []
  | (k, v) :: kvs => do
    let k ← inferFromPython rec k
    let v ← inferFromPython rec v
    let kvs ← inferPairs kvs
    pure ((k, v) :: kvs)

/-- `_StandardArrayBase._from_python`: every element as `standard_type`. -/
def writeStandard (standardType : DataType) : List PyValue → StreamM Unit
  | [] => pure ()
  | x :: xs => do
    let _ ← rec standardType x
    writeStandard standardType xs

/-- `StandardArrayObject.from_python_not_null`. -/
def writeStandardArray (t standardType : DataType) (v : PyValue) : StreamM Unit := do
  let xs ← ofOption v.iterate .typeError
  write [t.typeCode]
  let length ← ofOption (lengthBytes xs.length) .overflowError
  write length
  writeStandard rec standardType xs

/-- `ObjectArrayObject.from_python_not_null`. -/
def writeObjectArray (v : PyValue) : StreamM PyValue := do
  let (a, value) ← ofOption v.unpack2 .typeError
  write [DataType.objectArrayObject.typeCode]
  let typeId ← ofOption a.toInt? .attributeError
  let typeId ← ofOption (signedBytes 4 typeId) .overflowError
  write typeId
  let length ← ofOption (lengthBytes value.contents.length) .overflowError
  write length
  let xs ← inferAll rec value.contents
  pure (v.refill [a, value.refill xs])

/-- `CollectionObject.from_python_not_null`. -/
def writeCollection (v : PyValue) : StreamM PyValue := do
  let (a, value) ← ofOption v.unpack2 .typeError
  write [DataType.collectionObject.typeCode]
  let length ← ofOption (lengthBytes value.contents.length) .overflowError
  write length
  let typeId ← ofOption a.toInt? .attributeError
  let typeId ← ofOption (signedBytes 1 typeId) .overflowError
  write typeId
  let xs ← inferAll rec value.contents
  pure (v.refill [a, value.refill xs])

/-- `MapObject.from_python_not_null`. -/
def writeMap (v : PyValue) : StreamM PyValue := do
  let (a, value) ← ofOption v.unpack2 .typeError
  match value with
  | .none => do
    write [TC_NULL]
    pure v
  | .dict kvs => do
    write [DataType.mapObject.typeCode]
    let length ← ofOption (lengthBytes kvs.length) .overflowError
    write length
    let typeId ← ofOption a.toInt? .attributeError
    let typeId ← ofOption (signedBytes 1 typeId) .overflowError
    write typeId
    let kvs ← inferPairs rec kvs
    pure (v.refill [a, .dict kvs])
  | _ => raise .attributeError

/-! ### All classes -/

variable [OtherCodecs]

def fromPythonNotNull (t : DataType) (v : PyValue) : StreamM PyValue :=
  match t with
  | .null => do write [TC_NULL]; pure v
  | .byteObject => do writeDataObject t .byte v; pure v
  | .shortObject => do writeDataObject t .short v; pure v
  | .intObject => do writeDataObject t .int v; pure v
  | .longObject => do writeDataObject t .longlong v; pure v
  | .boolObject => do writeDataObject t .byte v; pure v
  | .string => do writeString v; pure v
  | .uuidObject => do writeUUID v; pure v
  | .enumObject => do writeEnum t v; pure v
  | .binaryEnumObject => do writeEnum t v; pure v
  | .byteArrayObject => do writeByteArray v; pure v
  | .shortArrayObject => do writePrimitiveArray t (packSigned .short) v; pure v
  | .intArrayObject => do writePrimitiveArray t (packSigned .int) v; pure v
  | .longArrayObject => do writePrimitiveArray t (packSigned .longlong) v; pure v
  | .boolArrayObject => do writePrimitiveArray t packBool v; pure v
  | .stringArrayObject => do writeStandardArray rec t .string v; pure v
  | .uuidArrayObject => do writeStandardArray rec t .uuidObject v; pure v
  | .objectArrayObject => writeObjectArray rec v
  | .collectionObject => writeCollection rec v
  | .mapObject => writeMap rec v
  | .binaryObject => binaryFromPython rec v
  | .other t => do (OtherCodecs.codec t).fromPythonNotNull v; pure v

/-- `Nullable.from_python`. -/
def fromPythonNullable (t : DataType) (v : PyValue) : StreamM PyValue :=
  match v with
  | .none => do write [TC_NULL]; pure .none
  | _ => fromPythonNotNull rec t v

end Nested

variable [OtherCodecs]

/-- `from_python` under a bound on the nesting. -/
def fromPythonN : ℕ → DataType → PyValue → StreamM PyValue
  | 0 => fun _ _ => raise .recursionError
  | n + 1 => fromPythonNullable (fromPythonN n)

end Writers

namespace PyValue

/- How deep values are nested in each other. -/
mutual
def depth : PyValue → ℕ
  | tuple xs => depthList xs + 1
  | list xs => depthList xs + 1
  | dict kvs => depthPairs kvs + 1
  | hinted v _ => depth v + 1
  | obj _ fields => depthFields fields + 1
  | _ => 0
def depthList : List PyValue → ℕ
  | [] => 0
  | x :: xs => max (depth x) (depthList xs)
def depthPairs : List (PyValue × PyValue) → ℕ
  | [] => 0
  | (k, v) :: kvs => max (max (depth k) (depth v)) (depthPairs kvs)
def depthFields : List (PyStr × DataType × PyValue) → ℕ
  | [] => 0
  | (_, _, v) :: fields => max (depth v) (depthFields fields)
end

end PyValue

/-- `_from_python` of a Complex object. -/
def objectFromPython [Python] [OtherCodecs] (save : Bool) (head : ObjHead)
    (fields : List (PyStr × DataType × PyValue)) : StreamM PyValue :=
  objFromPython (fromPythonN (PyValue.depthFields fields + 1)) save head fields

/-- `from_python` of a data class. -/
def fromPython [Python] [OtherCodecs] (t : DataType) (v : PyValue) : StreamM PyValue :=
  fromPythonN (v.depth + 1) t v

end PyGridGain
