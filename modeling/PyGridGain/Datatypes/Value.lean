import PyGridGain.Lib.CTypes
import PyGridGain.Lib.Utf8

/-! Python values as the data classes see them, the data classes themselves, and
the errors they raise. A Complex object carries its schema with its field values,
so an instance always follows the schema of its class. -/

namespace PyGridGain

/-- A `str` that UTF-8 can encode: no lone surrogates. -/
abbrev PyStr := List Char

instance : LawfulBEq PyStr := inferInstance

structure UUID where
  bytes : Bytes
  length_eq : bytes.length = 16
  deriving DecidableEq

/-- The classes of `tc_map` whose encoding no other class depends on and that are
given by a codec of their own (`LeafCodec`). -/
inductive OtherType
  | floatObject | doubleObject | charObject
  | dateObject | timestampObject | timeObject | decimalObject
  | floatArrayObject | doubleArrayObject | charArrayObject
  | dateArrayObject | timestampArrayObject | timeArrayObject
  | decimalArrayObject | enumArrayObject | wrappedDataObject
  deriving DecidableEq, Repr

/-- The parser/generator classes that `tc_map` returns. -/
inductive DataType
  | null
  | byteObject | shortObject | intObject | longObject | boolObject
  | string | uuidObject | enumObject | binaryEnumObject
  | byteArrayObject | shortArrayObject | intArrayObject | longArrayObject | boolArrayObject
  | stringArrayObject | uuidArrayObject
  | objectArrayObject | collectionObject | mapObject
  | binaryObject
  | other (t : OtherType)
  deriving DecidableEq, Repr

def OtherType.typeCode : OtherType → UInt8
  | .floatObject => 0x05
  | .doubleObject => 0x06
  | .charObject => 0x07
  | .dateObject => 0x0b
  | .floatArrayObject => 0x10
  | .doubleArrayObject => 0x11
  | .charArrayObject => 0x12
  | .dateArrayObject => 0x16
  | .wrappedDataObject => 0x1b
  | .enumArrayObject => 0x1d
  | .decimalObject => 0x1e
  | .decimalArrayObject => 0x1f
  | .timestampObject => 0x21
  | .timestampArrayObject => 0x22
  | .timeObject => 0x24
  | .timeArrayObject => 0x25

def TC_NULL : UInt8 := 0x65

/-- `type_code` of a class; `Null` writes `TC_NULL`. -/
def DataType.typeCode : DataType → UInt8
  | .byteObject => 0x01
  | .shortObject => 0x02
  | .intObject => 0x03
  | .longObject => 0x04
  | .boolObject => 0x08
  | .string => 0x09
  | .uuidObject => 0x0a
  | .byteArrayObject => 0x0c
  | .shortArrayObject => 0x0d
  | .intArrayObject => 0x0e
  | .longArrayObject => 0x0f
  | .boolArrayObject => 0x13
  | .stringArrayObject => 0x14
  | .uuidArrayObject => 0x15
  | .objectArrayObject => 0x17
  | .collectionObject => 0x18
  | .mapObject => 0x19
  | .enumObject => 0x1c
  | .binaryEnumObject => 0x26
  | .binaryObject => 0x67
  | .null => TC_NULL
  | .other t => t.typeCode

/-- `tc_map(key)`; `none` is the `KeyError` of an unknown code. -/
def tcMap (key : UInt8) : Option DataType :=
  [.null, .byteObject, .shortObject, .intObject, .longObject, .other .floatObject,
    .other .doubleObject, .other .charObject, .boolObject, .uuidObject, .other .dateObject,
    .other .timestampObject, .other .timeObject, .enumObject, .binaryEnumObject,
    .byteArrayObject, .shortArrayObject, .intArrayObject, .longArrayObject,
    .other .floatArrayObject, .other .doubleArrayObject, .other .charArrayObject,
    .boolArrayObject, .uuidArrayObject, .other .dateArrayObject,
    .other .timestampArrayObject, .other .timeArrayObject, .other .enumArrayObject,
    .string, .stringArrayObject, .other .decimalObject, .other .decimalArrayObject,
    .objectArrayObject, .collectionObject, .mapObject, .binaryObject,
    .other .wrappedDataObject].find? fun t => t.typeCode == key

/-- Every class is found under its own code. -/
theorem tcMap_typeCode (t : DataType) : tcMap t.typeCode = some t := by
  cases t with
  | other t => cases t <;> rfl
  | _ => rfl

theorem typeCode_eq_null {t : DataType} : t.typeCode = TC_NULL ↔ t = .null := by
  cases t with
  | other t => cases t <;> decide
  | _ => decide

/-- What an instance of a Complex object class keeps besides its schema fields:
its identity, the name its class was given, the attribute `version`, and the
cached representation. -/
structure ObjHead where
  oid : ℕ
  typeName : PyStr
  version : ℤ
  buffer : Option Bytes
  hashcode : Option ℤ
  deriving DecidableEq

/-- Python values. `float` is given by its IEEE bits, `decimal` by sign,
coefficient and exponent, dates by microseconds; `hinted v t` is the pair
`(v, t)` of a value and its type hint. -/
inductive PyValue
  | none
  | bool (b : Bool)
  | int (i : ℤ)
  | float (bits : BitVec 64)
  | decimal (negative : Bool) (coefficient : ℕ) (exponent : ℤ)
  | str (s : PyStr)
  | bytes (b : Bytes)
  | uuid (u : UUID)
  | datetime (us : ℤ)
  | timedelta (us : ℤ)
  | tuple (xs : List PyValue)
  | list (xs : List PyValue)
  | dict (kvs : List (PyValue × PyValue))
  | hinted (v : PyValue) (t : DataType)
  | obj (head : ObjHead) (fields : List (PyStr × DataType × PyValue))

inductive Exc
  | typeError | valueError | overflowError | keyError | indexError | attributeError
  | structError | unicodeError | recursionError | warning | runtimeError | bufferError
  | parseError | socketError | arithmeticError
  deriving DecidableEq, Repr

structure PyError where
  exc : Exc
  message : String := ""
  deriving DecidableEq

def raise {α : Type} (exc : Exc) (message : String := "") : Except PyError α :=
  .error ⟨exc, message⟩

theorem except_bind_eq_ok {ε α β : Type} {x : Except ε α} {f : α → Except ε β} {b : β} :
    (x >>= f) = .ok b ↔ ∃ a, x = .ok a ∧ f a = .ok b := by
  cases x with
  | error e => exact iff_of_false (by rintro ⟨⟩) (by rintro ⟨_, ⟨⟩, _⟩)
  | ok a =>
    constructor
    · exact fun h => ⟨a, rfl, h⟩
    · rintro ⟨_, ⟨⟩, h⟩
      exact h

namespace PyValue

/-- `type(value)`; the classes of Complex objects are not told apart. -/
inductive PyType
  | noneType | bool | int | float | decimal | str | bytes | uuid | datetime | timedelta
  | tuple | list | dict | obj
  deriving DecidableEq, Repr

def pyType : PyValue → PyType
  | none => .noneType
  | bool _ => .bool
  | int _ => .int
  | float _ => .float
  | decimal .. => .decimal
  | str _ => .str
  | bytes _ => .bytes
  | uuid _ => .uuid
  | datetime _ => .datetime
  | timedelta _ => .timedelta
  | tuple _ => .tuple
  | list _ => .list
  | dict _ => .dict
  | hinted .. => .tuple
  | obj .. => .obj

/-- `isinstance(value, t)`: `bool` is a subclass of `int`. -/
def isInstance (v : PyValue) (t : PyType) : Bool :=
  v.pyType == t || (t == .int && v.pyType == .bool)

/-- The integer that `ctypes`, `struct` and `int.to_bytes` take a value for. -/
def toInt? : PyValue → Option ℤ
  | int i => some i
  | bool b => some (if b then 1 else 0)
  | _ => Option.none

/-- `bool(value)`. -/
def truthy : PyValue → Bool
  | none => false
  | bool b => b
  | int i => i != 0
  | float bits => bits != 0 && bits != BitVec.ofNat 64 (2 ^ 63)
  | decimal _ c _ => c != 0
  | str s => !s.isEmpty
  | bytes b => !b.isEmpty
  | uuid _ => true
  | datetime _ => true
  | timedelta us => us != 0
  | tuple xs => !xs.isEmpty
  | list xs => !xs.isEmpty
  | dict kvs => !kvs.isEmpty
  | hinted .. => true
  | obj .. => true

/-- `list(value)`; `none` is the `TypeError` of a value that is not iterable. -/
def iterate : PyValue → Option (List PyValue)
  | str s => some (s.map fun c => str [c])
  | bytes b => some (b.map fun x => int x.toNat)
  | tuple xs => some xs
  | list xs => some xs
  | dict kvs => some (kvs.map Prod.fst)
  | _ => Option.none

end PyValue

/-- What two keys of a `dict` are compared by. Numbers of different types are
one key when they are equal. -/
inductive Key
  | none
  | number (q : ℚ)
  | infinite (bits : BitVec 64)
  | nan
  | str (s : PyStr)
  | bytes (b : Bytes)
  | uuid (u : UUID)
  | datetime (us : ℤ)
  | timedelta (us : ℤ)
  | pair (a b : Key)
  | unit
  deriving DecidableEq

/-- Whether another object can be the same key, as none can where there is a NaN. -/
def Key.selfEqual : Key → Bool
  | .nan => false
  | .pair a b => a.selfEqual && b.selfEqual
  | _ => true

/-- The exact value of an IEEE double, `none` for infinities and NaN. -/
def floatValue (bits : BitVec 64) : Option ℚ :=
  let sign : ℚ := if bits.toNat / 2 ^ 63 = 1 then -1 else 1
  let e : ℕ := bits.toNat / 2 ^ 52 % 2 ^ 11
  let m : ℕ := bits.toNat % 2 ^ 52
  if e = 2 ^ 11 - 1 then none
  else if e = 0 then some (sign * (m : ℚ) * (2 : ℚ) ^ (-1074 : ℤ))
  else some (sign * ((2 ^ 52 + m : ℕ) : ℚ) * (2 : ℚ) ^ ((e : ℤ) - 1075))

namespace PyValue

/- The key of a hashable value; `none` is the `TypeError` of an unhashable one.
`attr.s` makes the instances of Complex object classes unhashable. -/
mutual
def hashKey : PyValue → Option Key
  | none => some .none
  | bool b => some (.number (if b then 1 else 0))
  | int i => some (.number i)
  | float bits =>
    match floatValue bits with
    | some q => some (.number q)
    | Option.none => some (if bits.toNat % 2 ^ 52 = 0 then .infinite bits else .nan)
  | decimal n c e => some (.number ((if n then -1 else 1) * c * (10 : ℚ) ^ e))
  | str s => some (.str s)
  | bytes b => some (.bytes b)
  | uuid u => some (.uuid u)
  | datetime us => some (.datetime us)
  | timedelta us => some (.timedelta us)
  | tuple xs => hashKeys xs
  | list _ => Option.none
  | dict _ => Option.none
  | hinted v _ => (hashKey v).map fun k => .pair k .unit
  | obj .. => Option.none
def hashKeys : List PyValue → Option Key
  | [] => some .unit
  | x :: xs =>
    match hashKey x, hashKeys xs with
    | some a, some b => some (.pair a b)
    | _, _ => Option.none
end

/-- What a key that is found again is found by. -/
def dictKey (v : PyValue) : Option Key := v.hashKey.filter Key.selfEqual

/-- Another object is the same key. -/
def sameKey (a b : PyValue) : Bool := a.dictKey.isSome && a.dictKey == b.dictKey

theorem hashKey_of_sameKey {a b : PyValue} (h : a.sameKey b = true) : a.hashKey = b.hashKey := by
  obtain ⟨hsome, hsame⟩ := Bool.and_eq_true_iff.mp h
  obtain ⟨key, hkey⟩ := Option.isSome_iff_exists.mp hsome
  have hkey' := (beq_iff_eq.mp hsame).symm.trans hkey
  exact (Option.filter_eq_some_iff.mp hkey).1.trans (Option.filter_eq_some_iff.mp hkey').1.symm

/-- `result[k] = v` on a dict that keeps insertion order: an equal key keeps its
place and the key first inserted. -/
def dictSet (kvs : List (PyValue × PyValue)) (k v : PyValue) :
    Except PyError (List (PyValue × PyValue)) :=
  match k.hashKey with
  | Option.none => raise .typeError
  | some _ =>
    if kvs.any fun p => p.1.sameKey k then
      .ok (kvs.map fun p => if p.1.sameKey k then (p.1, v) else p)
    else .ok (kvs ++ [(k, v)])

end PyValue

/-- A class made by `GenericObjectMeta`. A field may have the name of an attribute or a method
that every object has, and takes its place. -/
structure DataClass where
  typeName : PyStr
  schema : List (PyStr × DataType)
  deriving DecidableEq

/-- The names of the structure fields that the parsers build. -/
inductive FieldName
  | typeCode | version | flags | typeId | hashCode | length | schemaId | schemaOffset
  | objectFields | schema | offset
  | value | data | type | ordinal | fieldId | scale
  | element (i : ℕ)
  | field (name : PyStr)
  deriving DecidableEq

abbrev Layout := CType FieldName

abbrev CObject := CObj FieldName

end PyGridGain
