import PyGridGain.Datatypes.DecimalObject
import PyGridGain.Datatypes.PrimitiveArrays

/-! The classes of `tc_map` that stand alone: floating-point numbers, characters and dates, the
arrays of them, and wrapped data. -/

namespace PyGridGain

open StreamM

/-- `c_float`, as its bytes. -/
def cFloat : Layout := .array (.scalar .ubyte) 4

/-- `c_double`, as its bytes. -/
def cDouble : Layout := .array (.scalar .ubyte) 8

/-- `StandardObject.parse_not_null` and `DataObject.parse_not_null`: fields of a fixed size
after the type code. -/
def parseFixed (fields : List (FieldName × Layout)) : StreamM Layout :=
  seekPast (.struct ((.typeCode, .scalar .byte) :: fields))

def DateObject.parseNotNull : StreamM Layout :=
  parseFixed [(.field "epoch".toList, .scalar .longlong)]

def TimestampObject.parseNotNull : StreamM Layout :=
  parseFixed [(.field "epoch".toList, .scalar .longlong), (.field "fraction".toList, .scalar .int)]

def TimeObject.parseNotNull : StreamM Layout := parseFixed [(.value, .scalar .longlong)]

/-- `PrimitiveArrayObject.parse_not_null`. -/
def parseItems (item : Layout) : StreamM Layout := do
  let length ← peekLength 1
  seekPast (.struct [(.typeCode, .scalar .byte), (.length, .scalar .int),
    (.data, .array item length)])

def WrappedDataObject.parseNotNull : StreamM Layout := do
  let length ← peekLength 1
  seekPast (.struct [(.typeCode, .scalar .byte), (.length, .scalar .int),
    (.field "payload".toList, .array (.scalar .byte) length), (.offset, .scalar .int)])

/-- `Nullable.parse`. -/
def nullable (parseNotNull : StreamM Layout) : StreamM Layout := do
  let code ← peek 1
  if code = [TC_NULL] then seekPast nullLayout else parseNotNull

def OtherType.parseNotNull : OtherType → StreamM Layout
  | .floatObject => parseFixed [(.value, cFloat)]
  | .doubleObject => parseFixed [(.value, cDouble)]
  | .charObject => parseFixed [(.value, .scalar .short)]
  | .dateObject => DateObject.parseNotNull
  | .timestampObject => TimestampObject.parseNotNull
  | .timeObject => TimeObject.parseNotNull
  | .decimalObject => DecimalObject.parseNotNull
  | .floatArrayObject => parseItems cFloat
  | .doubleArrayObject => parseItems cDouble
  | .charArrayObject => parseItems (.scalar .short)
  | .dateArrayObject => parseArray 1 standardArrayHeader id (nullable DateObject.parseNotNull)
  | .timestampArrayObject =>
    parseArray 1 standardArrayHeader id (nullable TimestampObject.parseNotNull)
  | .timeArrayObject => parseArray 1 standardArrayHeader id (nullable TimeObject.parseNotNull)
  | .decimalArrayObject => parseArray 1 standardArrayHeader id (nullable DecimalObject.parseNotNull)
  | .enumArrayObject => parseArray 5 objectArrayHeader id (nullable (seekPast enumLayout))
  | .wrappedDataObject => WrappedDataObject.parseNotNull

/-- The other classes, parsed as the source does. -/
abbrev withParsers (others : OtherCodecs) : OtherCodecs :=
  ⟨fun t => { others.codec t with parseNotNull := t.parseNotNull }⟩

/-! ### Writers and readers -/

/-- What the classes take from the machine: the conversions between its number formats, and those
of dates, which depend on its time zone and go by floating-point numbers. -/
class Machine where
  /-- `float(value)` of an `int`; `none` is an `OverflowError`. -/
  ofInt : ℤ → Option (BitVec 64)
  /-- `float(value)` of a `Decimal`. -/
  ofDecimal : Bool → ℕ → ℤ → BitVec 64
  /-- A `double` stored as a `float`. -/
  single : BitVec 64 → BitVec 32
  /-- The same by `struct.pack`; `none` is an `OverflowError`. -/
  packSingle : BitVec 64 → Option (BitVec 32)
  /-- `int(value.timestamp() * 1000)`. -/
  timestamp : ℤ → Except PyError ℤ
  /-- `int(value.total_seconds() * 1000)`. -/
  milliseconds : ℤ → ℤ
  /-- A `float` loaded as a `double`. -/
  widen : BitVec 32 → BitVec 64
  /-- `datetime.fromtimestamp(epoch / 1000)`. -/
  fromTimestamp : ℤ → Except PyError ℤ

section Classes
variable [Machine]

/-- `PyFloat_AsDouble`. -/
def PyValue.toFloat : PyValue → Except PyError (BitVec 64)
  | .float bits => .ok bits
  | .decimal negative coefficient exponent =>
    .ok (Machine.ofDecimal negative coefficient exponent)
  | v =>
    match v.toInt? with
    | .none => raise .typeError
    | some i =>
      match Machine.ofInt i with
      | some bits => .ok bits
      | .none => raise .overflowError

/-- `DataObject.from_python_not_null` of `FloatObject`. -/
def FloatObject.fromPythonNotNull (v : PyValue) : StreamM Unit := do
  let x ← fun s => v.toFloat.map fun x => (x, s)
  write (OtherType.typeCode .floatObject :: leBytes 4 (Machine.single x).toNat)

/-- `DataObject.from_python_not_null` of `DoubleObject`. -/
def DoubleObject.fromPythonNotNull (v : PyValue) : StreamM Unit := do
  let x ← fun s => v.toFloat.map fun x => (x, s)
  write (OtherType.typeCode .doubleObject :: leBytes 8 x.toNat)

def CharObject.fromPythonNotNull (v : PyValue) : StreamM Unit := do
  write [OtherType.typeCode .charObject]
  let b ← fun s => (packChar v).map fun b => (b, s)
  write b

def DateObject.fromPythonNotNull (v : PyValue) : StreamM Unit :=
  match v with
  | .datetime us => do
    let epoch ← fun s => (Machine.timestamp us).map fun epoch => (epoch, s)
    write (OtherType.typeCode .dateObject :: Scalar.longlong.store epoch)
  | _ => StreamM.raise .attributeError

/-- `value[0].timestamp()` comes before `value[1]`. -/
def TimestampObject.fromPythonNotNull (v : PyValue) : StreamM Unit := do
  let _ ← ofOption v.iterate .typeError
  let first ← fun s => (v.getItem 0).map fun x => (x, s)
  match first with
  | .datetime us => do
    let epoch ← fun s => (Machine.timestamp us).map fun epoch => (epoch, s)
    let second ← fun s => (v.getItem 1).map fun x => (x, s)
    let fraction ← ofOption second.toInt? .typeError
    write (OtherType.typeCode .timestampObject ::
      (Scalar.longlong.store epoch ++ Scalar.int.store fraction))
  | _ => StreamM.raise .attributeError

def TimeObject.fromPythonNotNull (v : PyValue) : StreamM Unit :=
  match v with
  | .timedelta us =>
    write (OtherType.typeCode .timeObject :: Scalar.longlong.store (Machine.milliseconds us))
  | _ => StreamM.raise .attributeError

/-- `Float.from_python`. -/
def packFloat (v : PyValue) : Except PyError Bytes :=
  match v.toFloat with
  | .error _ => raise .structError
  | .ok x =>
    match Machine.packSingle x with
    | some bits => .ok (leBytes 4 bits.toNat)
    | none => raise .overflowError

/-- `Double.from_python`. -/
def packDouble (v : PyValue) : Except PyError Bytes :=
  match v.toFloat with
  | .error _ => raise .structError
  | .ok x => .ok (leBytes 8 x.toNat)

/-- `Nullable.from_python` of the elements of an array. -/
def nullableWriter (fromPythonNotNull : PyValue → StreamM Unit) (_ : DataType) (v : PyValue) :
    StreamM PyValue :=
  match v with
  | .none => do write [TC_NULL]; pure .none
  | _ => do fromPythonNotNull v; pure v

/-- `StandardArrayObject.from_python_not_null`. -/
def writeArrayOf (t std : OtherType) (fromPythonNotNull : PyValue → StreamM Unit) (v : PyValue) :
    StreamM Unit :=
  writeStandardArray (nullableWriter fromPythonNotNull) (.other t) (.other std) v

def EnumArrayObject.fromPythonNotNull (v : PyValue) : StreamM Unit := do
  let (a, value) ← ofOption v.unpack2 .typeError
  write [OtherType.typeCode .enumArrayObject]
  let typeId ← ofOption a.toInt? .attributeError
  let typeId ← ofOption (signedBytes 4 typeId) .overflowError
  write typeId
  let xs ← ofOption value.iterate .typeError
  let length ← ofOption (lengthBytes xs.length) .overflowError
  write length
  writeStandard (nullableWriter (writeEnum .enumObject)) .enumObject xs

def OtherType.fromPythonNotNull : OtherType → PyValue → StreamM Unit
  | .floatObject => FloatObject.fromPythonNotNull
  | .doubleObject => DoubleObject.fromPythonNotNull
  | .charObject => CharObject.fromPythonNotNull
  | .dateObject => DateObject.fromPythonNotNull
  | .timestampObject => TimestampObject.fromPythonNotNull
  | .timeObject => TimeObject.fromPythonNotNull
  | .decimalObject => DecimalObject.fromPythonNotNull
  | .floatArrayObject => writePrimitiveArray (.other .floatArrayObject) packFloat
  | .doubleArrayObject => writePrimitiveArray (.other .doubleArrayObject) packDouble
  | .charArrayObject => writePrimitiveArray (.other .charArrayObject) packChar
  | .dateArrayObject => writeArrayOf .dateArrayObject .dateObject DateObject.fromPythonNotNull
  | .timestampArrayObject =>
    writeArrayOf .timestampArrayObject .timestampObject TimestampObject.fromPythonNotNull
  | .timeArrayObject => writeArrayOf .timeArrayObject .timeObject TimeObject.fromPythonNotNull
  | .decimalArrayObject =>
    writeArrayOf .decimalArrayObject .decimalObject DecimalObject.fromPythonNotNull
  | .enumArrayObject => EnumArrayObject.fromPythonNotNull
  | .wrappedDataObject => fun _ => StreamM.raise .parseError "Send unwrapped data."

def FloatObject.toPythonNotNull (o : CObject) : Except PyError PyValue := do
  let value ← o.attr .value
  .ok (.float (Machine.widen (BitVec.ofNat 32 (leNat value.mem))))

def DoubleObject.toPythonNotNull (o : CObject) : Except PyError PyValue := do
  let value ← o.attr .value
  .ok (.float (BitVec.ofNat 64 (leNat value.mem)))

def CharObject.toPythonNotNull (o : CObject) : Except PyError PyValue := do
  let value ← o.intAttr .value
  charToPython value

def DateObject.toPythonNotNull (o : CObject) : Except PyError PyValue := do
  let epoch ← o.intAttr (.field "epoch".toList)
  let us ← Machine.fromTimestamp epoch
  .ok (.datetime us)

def TimestampObject.toPythonNotNull (o : CObject) : Except PyError PyValue := do
  let epoch ← o.intAttr (.field "epoch".toList)
  let us ← Machine.fromTimestamp epoch
  let fraction ← o.intAttr (.field "fraction".toList)
  .ok (.tuple [.datetime us, .int fraction])

/-- A `timedelta` has at most 999999999 days. -/
def TimeObject.toPythonNotNull (o : CObject) : Except PyError PyValue := do
  let value ← o.intAttr .value
  if (value / 86400000).natAbs ≤ 999999999 then .ok (.timedelta (value * 1000))
  else raise .overflowError

/-- `_bulk_to_python` of items of `size` bytes, as numbers. -/
def bulkItems (size : ℕ) (o : CObject) : Except PyError (List ℕ) := do
  let data ← o.attr .data
  match data.ctype with
  | .array _ n => .ok ((List.range n).map fun i => leNat (sliceAt data.mem (size * i) size))
  | _ => raise .typeError

def FloatArrayObject.toPythonNotNull (o : CObject) : Except PyError PyValue := do
  let items ← bulkItems 4 o
  .ok (.list (items.map fun x => .float (Machine.widen (BitVec.ofNat 32 x))))

def DoubleArrayObject.toPythonNotNull (o : CObject) : Except PyError PyValue := do
  let items ← bulkItems 8 o
  .ok (.list (items.map fun x => .float (BitVec.ofNat 64 x)))

/-- `Nullable.to_python` of the elements of an array. -/
def nullableReader (toPythonNotNull : CObject → Except PyError PyValue) (o : CObject) :
    Except PyError PyValue := do
  let code ← o.intAttr .typeCode
  if code = TC_NULL.toNat then .ok .none else toPythonNotNull o

/-- `StandardArrayObject.to_python_not_null`. -/
def readArrayOf (toPythonNotNull : CObject → Except PyError PyValue) (o : CObject) :
    Except PyError PyValue := do
  let xs ← elementsToPython (nullableReader toPythonNotNull) o
  .ok (.list xs)

def EnumArrayObject.toPythonNotNull (o : CObject) : Except PyError PyValue := do
  let typeId ← o.intAttr .typeId
  let xs ← elementsToPython (nullableReader enumToPython) o
  .ok (.tuple [.int typeId, .list xs])

def WrappedDataObject.toPythonNotNull (o : CObject) : Except PyError PyValue := do
  let payload ← o.attr (.field "payload".toList)
  let offset ← o.intAttr .offset
  .ok (.tuple [.bytes payload.mem, .int offset])

def OtherType.toPythonNotNull : OtherType → CObject → Except PyError PyValue
  | .floatObject => FloatObject.toPythonNotNull
  | .doubleObject => DoubleObject.toPythonNotNull
  | .charObject => CharObject.toPythonNotNull
  | .dateObject => DateObject.toPythonNotNull
  | .timestampObject => TimestampObject.toPythonNotNull
  | .timeObject => TimeObject.toPythonNotNull
  | .decimalObject => DecimalObject.toPythonNotNull
  | .floatArrayObject => FloatArrayObject.toPythonNotNull
  | .doubleArrayObject => DoubleArrayObject.toPythonNotNull
  | .charArrayObject => charArrayToPython
  | .dateArrayObject => readArrayOf DateObject.toPythonNotNull
  | .timestampArrayObject => readArrayOf TimestampObject.toPythonNotNull
  | .timeArrayObject => readArrayOf TimeObject.toPythonNotNull
  | .decimalArrayObject => readArrayOf DecimalObject.toPythonNotNull
  | .enumArrayObject => EnumArrayObject.toPythonNotNull
  | .wrappedDataObject => WrappedDataObject.toPythonNotNull

/-- All classes of `tc_map`, as the source has them. -/
abbrev allClasses : OtherCodecs :=
  ⟨fun t => ⟨t.fromPythonNotNull, t.parseNotNull, t.toPythonNotNull⟩⟩

end Classes

end PyGridGain
