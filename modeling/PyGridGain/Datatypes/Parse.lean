import PyGridGain.Datatypes.FromPython

/-! `parse`: building, at the position of a stream, the run-time structure of the
value that stands there, and moving past it. Parsers peek at lengths, at type
codes and at the header of a Complex object; the registry gives the fields of the
latter. -/

namespace PyGridGain

open StreamM

/-- `Null.build_c_type()`. -/
def nullLayout : Layout := .struct [(.typeCode, .scalar .byte)]

/-- Move past a structure and return it. -/
def seekPast (c : Layout) : StreamM Layout := do
  seekCur c.size
  pure c

/-- `int.from_bytes(stream.slice(stream.tell() + off, 4), 'little')`. -/
def peekLength (off : ℕ) : StreamM ℕ := do
  let pos ← tell
  let b ← slice (pos + off) 4
  pure (leNat b)

/-- `DataObject.build_c_type`. -/
def dataObjectLayout (s : Scalar) : Layout :=
  .struct [(.typeCode, .scalar .byte), (.value, .scalar s)]

def uuidLayout : Layout :=
  .struct [(.typeCode, .scalar .byte), (.value, .array (.scalar .byte) 16)]

def enumLayout : Layout :=
  .struct [(.typeCode, .scalar .byte), (.typeId, .scalar .int), (.ordinal, .scalar .int)]

/-- `String.build_c_type`. -/
def stringLayout (length : ℕ) : Layout :=
  .struct [(.typeCode, .scalar .byte), (.length, .scalar .int), (.data, .chars length)]

/-- `PrimitiveArrayObject.build_c_type`. -/
def primitiveArrayLayout (s : Scalar) (length : ℕ) : Layout :=
  .struct [(.typeCode, .scalar .byte), (.length, .scalar .int),
    (.data, .array (.scalar s) length)]

def parseString : StreamM Layout := do
  let length ← peekLength 1
  seekPast (stringLayout length)

def parsePrimitiveArray (s : Scalar) : StreamM Layout := do
  let length ← peekLength 1
  seekPast (primitiveArrayLayout s length)

/-- The loop `for i in range(n)` over the elements of an array. -/
def parseElements (p : StreamM Layout) : ℕ → ℕ → StreamM (List (FieldName × Layout))
  | _, 0 => pure []
  | i, n + 1 => do
    let c ← p
    let cs ← parseElements p (i + 1) n
    pure ((.element i, c) :: cs)

/-- The shape all arrays share: the length at `off`, a header of fixed fields, the
elements. -/
def parseArray (off : ℕ) (header : List (FieldName × Layout)) (count : ℕ → ℕ)
    (p : StreamM Layout) : StreamM Layout := do
  let length ← peekLength off
  seekCur (CType.sizeFields header)
  let elements ← parseElements p 0 (count length)
  pure (.struct (header ++ elements))

def standardArrayHeader : List (FieldName × Layout) :=
  [(.typeCode, .scalar .byte), (.length, .scalar .int)]

def objectArrayHeader : List (FieldName × Layout) :=
  [(.typeCode, .scalar .byte), (.typeId, .scalar .int), (.length, .scalar .int)]

/-- The header of `CollectionObject` and of `MapObject`. -/
def collectionHeader : List (FieldName × Layout) :=
  [(.typeCode, .scalar .byte), (.length, .scalar .int), (.type, .scalar .byte)]

section Nested
variable (rec : DataType → StreamM Layout)

/-- `AnyDataObject.parse`. -/
def anyParse : StreamM Layout := do
  let typeCode ← peek 1
  match typeCode with
  | [code] =>
    match tcMap code with
    | some t => rec t
    | none => raise .parseError "Unknown type code"
  | _ => raise .parseError "Unknown type code"

/-- `Struct.parse` over the fields of a schema. -/
def parseFields : List (PyStr × DataType) → StreamM (List (FieldName × Layout))
  | [] => pure []
  | (name, t) :: fields => do
    let c ← rec t
    let cs ← parseFields fields
    pure ((.field name, c) :: cs)

/-- `BinaryObject.parse_not_null`. -/
def parseBinary [Python] : StreamM Layout := do
  let header ← readForward headerClass
  seekCur headerSize
  let flags ← ofOption (header.getInt .flags) .attributeError
  let typeId ← ofOption (header.getInt .typeId) .attributeError
  let schemaId ← ofOption (header.getInt .schemaId) .attributeError
  let cls ← getDataclass typeId schemaId
  let fields ← parseFields rec cls.schema
  let base := (.typeCode, .scalar .byte) :: headerFields.map fun f => (f.1, .scalar f.2)
  if hasFlag flags HAS_SCHEMA then do
    let schema := .array (schemaType flags) cls.schema.length
    seekCur schema.size
    setCompactFooter (hasFlag flags COMPACT_FOOTER)
    pure (.struct (base ++ [(.objectFields, .struct fields), (.schema, schema)]))
  else do
    setCompactFooter (hasFlag flags COMPACT_FOOTER)
    pure (.struct (base ++ [(.objectFields, .struct fields)]))

variable [Python] [OtherCodecs]

def parseNotNull (t : DataType) : StreamM Layout :=
  match t with
  | .null => seekPast nullLayout
  | .byteObject => seekPast (dataObjectLayout .byte)
  | .shortObject => seekPast (dataObjectLayout .short)
  | .intObject => seekPast (dataObjectLayout .int)
  | .longObject => seekPast (dataObjectLayout .longlong)
  | .boolObject => seekPast (dataObjectLayout .byte)
  | .string => parseString
  | .uuidObject => seekPast uuidLayout
  | .enumObject => seekPast enumLayout
  | .binaryEnumObject => seekPast enumLayout
  | .byteArrayObject => parsePrimitiveArray .byte
  | .shortArrayObject => parsePrimitiveArray .short
  | .intArrayObject => parsePrimitiveArray .int
  | .longArrayObject => parsePrimitiveArray .longlong
  | .boolArrayObject => parsePrimitiveArray .byte
  | .stringArrayObject => parseArray 1 standardArrayHeader id (rec .string)
  | .uuidArrayObject => parseArray 1 standardArrayHeader id (rec .uuidObject)
  | .objectArrayObject => parseArray 5 objectArrayHeader id (anyParse rec)
  | .collectionObject => parseArray 1 collectionHeader id (anyParse rec)
  | .mapObject => parseArray 1 collectionHeader (2 * ·) (anyParse rec)
  | .binaryObject => parseBinary rec
  | .other t => (OtherCodecs.codec t).parseNotNull

/-- `Nullable.parse`, and `Null.parse`, which does not look at the code. -/
def parseNullable (t : DataType) : StreamM Layout :=
  match t with
  | .null => seekPast nullLayout
  | _ => do
    let code ← peek 1
    if code = [TC_NULL] then seekPast nullLayout else parseNotNull rec t

end Nested

section
variable [Python] [OtherCodecs]

def parseN : ℕ → DataType → StreamM Layout
  | 0 => fun _ => raise .recursionError
  | n + 1 => parseNullable (parseN n)

/-- `parse` of a data class. Every nested parser starts at least one byte further
into the buffer, so its length bounds the nesting. -/
def parse (t : DataType) : StreamM Layout := fun s => parseN (s.buf.length + 1) t s

/-- `AnyDataObject.parse`. -/
def AnyDataObject.parse : StreamM Layout := fun s => anyParse (parseN (s.buf.length + 1)) s

end

end PyGridGain
