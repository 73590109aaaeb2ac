import PyGridGain.Datatypes.Parse

/-! `to_python`: the Python value of a run-time structure filled with bytes. -/

namespace PyGridGain

namespace CObject

/-- `getattr(obj, name)`; `AttributeError` where the structure has no such field. -/
def attr (o : CObject) (n : FieldName) : Except PyError CObject :=
  match o.getattr n with
  | some f => .ok f
  | none => raise .attributeError

def intAttr (o : CObject) (n : FieldName) : Except PyError ℤ :=
  match o.getInt n with
  | some i => .ok i
  | none => raise .attributeError

/-- The items of the array field `data`. -/
def dataItems (o : CObject) : Except PyError (List ℤ) := do
  let data ← o.attr .data
  match data.ctype with
  | .array (.scalar s) n => .ok (CObj.items s data.mem n)
  | _ => raise .typeError

end CObject

open CObject

/-- `bytearray(obj.value)`, with the bytes put back in order. -/
def uuidLoad (mem : Bytes) : Except PyError PyValue :=
  let bytes := uuidByteOrder.map fun i => mem.getD i 0
  if h : bytes.length = 16 then .ok (.uuid ⟨bytes, h⟩) else raise .valueError

/-- `String.to_python_not_null`; a `c_char` array reads up to its first zero byte. -/
def stringToPython (o : CObject) : Except PyError PyValue := do
  let length ← o.intAttr .length
  if length > 0 then
    let data ← o.attr .data
    match utf8Decode (data.mem.takeWhile (· ≠ 0)) with
    | some s => .ok (.str s)
    | none => raise .unicodeError
  else .ok (.str [])

def dataObjectToPython (o : CObject) : Except PyError PyValue := do
  let value ← o.intAttr .value
  .ok (.int value)

def boolToPython (o : CObject) : Except PyError PyValue := do
  let value ← o.intAttr .value
  .ok (.bool (value != 0))

def enumToPython (o : CObject) : Except PyError PyValue := do
  let typeId ← o.intAttr .typeId
  let ordinal ← o.intAttr .ordinal
  .ok (.tuple [.int typeId, .int ordinal])

/-- `_bulk_to_python`. -/
def primitiveArrayToPython (o : CObject) : Except PyError PyValue := do
  let items ← o.dataItems
  .ok (.list (items.map .int))

def byteArrayToPython (o : CObject) : Except PyError PyValue := do
  let data ← o.attr .data
  .ok (.bytes data.mem)

def boolArrayToPython (o : CObject) : Except PyError PyValue := do
  let length ← o.intAttr .length
  let items ← o.dataItems
  let xs ← (List.range length.toNat).mapM fun i =>
    match (items[i]? : Option ℤ) with
    | some x => .ok (PyValue.bool (x != 0))
    | none => raise .indexError
  .ok (.list xs)

section Nested
variable (rec : DataType → CObject → Except PyError PyValue)

/-- `AnyDataObject.to_python`. -/
def anyToPython (o : CObject) : Except PyError PyValue := do
  let code ← o.intAttr .typeCode
  if code < 0 then raise .overflowError
  else
    match tcMap (UInt8.ofNat code.toNat) with
    | some t => rec t o
    | none => raise .keyError

/-- `getattr(obj, f'element_{i}')` for `i` in `range(length)`, each converted. -/
def elementsToPython (conv : CObject → Except PyError PyValue) (o : CObject) :
    Except PyError (List PyValue) := do
  let length ← o.intAttr .length
  (List.range length.toNat).mapM fun i => do
    let e ← o.attr (.element i)
    conv e

def standardArrayToPython (t : DataType) (o : CObject) : Except PyError PyValue := do
  let xs ← elementsToPython (rec t) o
  .ok (.list xs)

def objectArrayToPython (o : CObject) : Except PyError PyValue := do
  let xs ← elementsToPython (anyToPython rec) o
  let typeId ← o.intAttr .typeId
  .ok (.tuple [.int typeId, .list xs])

def collectionToPython (o : CObject) : Except PyError PyValue := do
  let xs ← elementsToPython (anyToPython rec) o
  let type ← o.intAttr .type
  .ok (.tuple [.int type, .list xs])

/-- `_MapBase._to_python`. -/
def pairsToPython (o : CObject) : Except PyError (List (PyValue × PyValue)) := do
  let length ← o.intAttr .length
  (List.range length.toNat).foldlM (fun result i => do
    let k ← o.attr (.element (2 * i))
    let k ← anyToPython rec k
    let v ← o.attr (.element (2 * i + 1))
    let v ← anyToPython rec v
    PyValue.dictSet result k v) []

def mapToPython (o : CObject) : Except PyError PyValue := do
  let type ← o.intAttr .type
  let kvs ← pairsToPython rec o
  .ok (.tuple [.int type, .dict kvs])

/-- `BinaryObject.to_python_not_null`. The new instance takes the version of the
header, and then, like any other attribute, what a field of that name holds. -/
def binaryToPython [Python] (client : Option Client) (o : CObject) : Except PyError PyValue := do
  let typeId ← o.intAttr .typeId
  match client with
  | none => raise .parseError "Can not query binary type"
  | some client =>
    let schemaId ← o.intAttr .schemaId
    match (client.queryBinaryType typeId schemaId).1 with
    | .dataClass cls =>
      let version ← o.intAttr .version
      let objectFields ← o.attr .objectFields
      let fields ← cls.schema.mapM fun f => do
        let e ← objectFields.attr (.field f.1)
        let v ← rec f.2 e
        .ok (f.1, f.2, v)
      let version := if cls.schema.any fun f => f.1 == versionName then 1 else version
      .ok (.obj ⟨0, cls.typeName, version, none, none⟩ fields)
    | _ => raise .typeError

variable [Python] [OtherCodecs]

def toPythonNotNull (client : Option Client) (t : DataType) (o : CObject) :
    Except PyError PyValue :=
  match t with
  | .null => .ok .none
  | .byteObject => dataObjectToPython o
  | .shortObject => dataObjectToPython o
  | .intObject => dataObjectToPython o
  | .longObject => dataObjectToPython o
  | .boolObject => boolToPython o
  | .string => stringToPython o
  | .uuidObject => do
    let value ← o.attr .value
    uuidLoad value.mem
  | .enumObject => enumToPython o
  | .binaryEnumObject => enumToPython o
  | .byteArrayObject => byteArrayToPython o
  | .shortArrayObject => primitiveArrayToPython o
  | .intArrayObject => primitiveArrayToPython o
  | .longArrayObject => primitiveArrayToPython o
  | .boolArrayObject => boolArrayToPython o
  | .stringArrayObject => standardArrayToPython rec .string o
  | .uuidArrayObject => standardArrayToPython rec .uuidObject o
  | .objectArrayObject => objectArrayToPython rec o
  | .collectionObject => collectionToPython rec o
  | .mapObject => mapToPython rec o
  | .binaryObject => binaryToPython rec client o
  | .other t => (OtherCodecs.codec t).toPythonNotNull o

/-- `Nullable.to_python`, and `Null.to_python`, which does not look at the object. -/
def toPythonNullable (client : Option Client) (t : DataType) (o : CObject) :
    Except PyError PyValue :=
  match t with
  | .null => .ok .none
  | _ => do
    let code ← o.intAttr .typeCode
    if code = TC_NULL.toNat then .ok .none else toPythonNotNull rec client t o

end Nested

section
variable [Python] [OtherCodecs]

def toPythonN (client : Option Client) : ℕ → DataType → CObject → Except PyError PyValue
  | 0 => fun _ _ => raise .recursionError
  | n + 1 => toPythonNullable (toPythonN client n) client

/-- `to_python` of a data class. Every nested structure is smaller than the one it
is a field of, so the size bounds the nesting. -/
def toPython (client : Option Client) (t : DataType) (o : CObject) : Except PyError PyValue :=
  toPythonN client (o.mem.length + 1) t o

/-- `AnyDataObject.to_python`. -/
def AnyDataObject.toPython (client : Option Client) (o : CObject) : Except PyError PyValue :=
  anyToPython (toPythonN client (o.mem.length + 1)) o

end

end PyGridGain
