import PyGridGain.Codec.Leaves

/-! Arrays of primitives, with a type code and without one. The elements are written one by
one, signed or not; they are read in one pass over the buffer as signed numbers, and some of
the classes convert what was read. -/

namespace PyGridGain

open CObj StreamM

/-! ### Characters -/

/-- `value.encode('utf-16le')`. -/
def utf16leEncode (s : PyStr) : Bytes :=
  s.flatMap fun c =>
    if c.toNat < 0x10000 then leBytes 2 c.toNat
    else leBytes 2 (0xd800 + (c.toNat - 0x10000) / 0x400) ++
      leBytes 2 (0xdc00 + (c.toNat - 0x10000) % 0x400)

/-- `value.decode('utf-16le')` of two bytes; `none` is the `UnicodeDecodeError` of a surrogate. -/
def utf16leDecodeUnit (b : Bytes) : Option PyStr :=
  if (leNat b).isValidChar then some [Char.ofNat (leNat b)] else none

/-- `value.to_bytes(2, 'little')`. -/
def unsignedBytes (i : ℤ) : Except PyError Bytes :=
  if 0 ≤ i ∧ i < 256 ^ 2 then .ok (leBytes 2 i.toNat) else raise .overflowError

/-- `Char.from_python`. -/
def packChar (v : PyValue) : Except PyError Bytes :=
  match v with
  | .str s => unsignedBytes (leNat (utf16leEncode s))
  | .bytes b => unsignedBytes (leNat b)
  | _ =>
    match v.toInt? with
    | some i => unsignedBytes i
    | none => raise .attributeError

/-- The character of a number, as a text. -/
def charToPython (v : ℤ) : Except PyError PyValue := do
  let b ← unsignedBytes v
  match utf16leDecodeUnit b with
  | some s => .ok (.str s)
  | none => raise .unicodeError

/-- `CharArrayObject.to_python_not_null`. -/
def charArrayToPython (o : CObject) : Except PyError PyValue := do
  let values ← o.dataItems
  let xs ← values.mapM charToPython
  .ok (.list xs)

def charArrayCodec : LeafCodec :=
  ⟨writePrimitiveArray (.other .charArrayObject) packChar, parsePrimitiveArray .short,
    charArrayToPython⟩

/-- The other classes, with `CharArrayObject` among them. -/
abbrev withCharArrays (others : OtherCodecs) : OtherCodecs :=
  ⟨fun t => if t = .charArrayObject then charArrayCodec else others.codec t⟩

/-! ### The classes without a type code -/

/-- `PrimitiveArray.build_c_type`. -/
def payloadLayout (s : Scalar) (length : ℕ) : Layout :=
  .struct [(.length, .scalar .int), (.data, .array (.scalar s) length)]

/-- `PrimitiveArray.parse`. -/
def parsePayload (s : Scalar) : StreamM Layout := do
  let length ← peekLength 0
  seekPast (payloadLayout s length)

/-- `PrimitiveArray.from_python`. -/
def writePayload (pack : PyValue → Except PyError Bytes) (v : PyValue) : StreamM PyValue := do
  let xs ← ofOption v.iterate .typeError
  let length ← ofOption (lengthBytes xs.length) .overflowError
  write length
  writePacked pack xs
  pure v

/-- `PrimitiveArray`; `_bulk_to_python` on a little-endian host. -/
def primitiveArray (s : Scalar) (pack : PyValue → Except PyError Bytes) : WireClass :=
  ⟨writePayload pack, parsePayload s, fun _ => primitiveArrayToPython⟩

/-- `bytearray(value)`. -/
def bytearray (xs : List PyValue) : Except PyError Bytes :=
  match xs.mapM PyValue.toInt? with
  | none => raise .typeError
  | some is =>
    if is.all fun i => 0 ≤ i ∧ i ≤ 255 then .ok (is.map fun i => UInt8.ofNat i.toNat)
    else raise .valueError "byte must be in range(0, 256)"

/-- `ByteArray.from_python`. -/
def writeBytePayload (v : PyValue) : StreamM PyValue := do
  let xs ← ofOption v.iterate .typeError
  let length ← ofOption (lengthBytes xs.length) .overflowError
  write length
  let b ← fun s => (bytearray xs).map fun b => (b, s)
  write b
  pure v

def byteArray : WireClass := ⟨writeBytePayload, parsePayload .byte, fun _ => byteArrayToPython⟩

def shortArray : WireClass := primitiveArray .short (packSigned .short)

def intArray : WireClass := primitiveArray .int (packSigned .int)

def longArray : WireClass := primitiveArray .longlong (packSigned .longlong)

def charArray : WireClass := primitiveArray .short packChar

def boolArray : WireClass := primitiveArray .byte packBool

/-! ### Elements -/

/-- The types of elements. -/
inductive ElementType
  | byte | short | int | long | bool | char
  deriving DecidableEq

/-- With a type code, or the payload alone. -/
inductive ArrayForm
  | payload | object
  deriving DecidableEq

namespace ElementType

/-- The elements that a class is for: a byte may be given with a sign or without one, and a
character is one of the Basic Multilingual Plane. -/
def Element : ElementType → Type
  | byte => {i : ℤ // -128 ≤ i ∧ i ≤ 255}
  | short => {i : ℤ // Scalar.short.Range i}
  | int => {i : ℤ // Scalar.int.Range i}
  | long => {i : ℤ // Scalar.longlong.Range i}
  | bool => Bool
  | char => {c : Char // c.toNat < 0x10000}

def scalar : ElementType → Scalar
  | byte => .byte
  | short => .short
  | int => .int
  | long => .longlong
  | bool => .byte
  | char => .short

def toPython : (e : ElementType) → e.Element → PyValue
  | byte, x => .int x.val
  | short, x => .int x.val
  | int, x => .int x.val
  | long, x => .int x.val
  | bool, x => .bool x
  | char, x => .str [x.val]

/-- The number that stands for an element. -/
def number : (e : ElementType) → e.Element → ℤ
  | byte, x => x.val
  | short, x => x.val
  | int, x => x.val
  | long, x => x.val
  | bool, x => cond x 1 0
  | char, x => (x.val.toNat : ℤ)

/-- The class for arrays of these elements. -/
def arrayClass [Python] (others : OtherCodecs) : ElementType → ArrayForm → WireClass
  | byte, .payload => byteArray
  | short, .payload => shortArray
  | int, .payload => intArray
  | long, .payload => longArray
  | bool, .payload => boolArray
  | char, .payload => charArray
  | byte, .object => @wireClass _ (withCharArrays others) .byteArrayObject
  | short, .object => @wireClass _ (withCharArrays others) .shortArrayObject
  | int, .object => @wireClass _ (withCharArrays others) .intArrayObject
  | long, .object => @wireClass _ (withCharArrays others) .longArrayObject
  | bool, .object => @wireClass _ (withCharArrays others) .boolArrayObject
  | char, .object => @wireClass _ (withCharArrays others) (.other .charArrayObject)

/-- The value that reading should give: the bytes, or a list of elements that Python takes for
equal to those written. -/
def Reads (e : ElementType) (xs : List e.Element) (v : PyValue) : Prop :=
  match e with
  | byte => v = .bytes (xs.map fun x => UInt8.ofNat (number byte x % 256).toNat)
  | e => ∃ ys, v = .list ys ∧
      ys.map PyValue.hashKey = xs.map fun x => PyValue.hashKey (toPython e x)

/-- The lists that a class gives back. -/
def Returned (e : ElementType) (form : ArrayForm) (xs : List e.Element) : Prop :=
  match e, form with
  | byte, .payload => xs.length < 2 ^ 32 ∧ ∀ x ∈ xs, 0 ≤ number byte x
  | bool, .object => xs.length < 2 ^ 31
  | char, .payload => xs = []
  | char, .object => xs.length < 2 ^ 32 ∧ ∀ x ∈ xs, number char x < 0x8000
  | _, _ => xs.length < 2 ^ 32

end ElementType

end PyGridGain
