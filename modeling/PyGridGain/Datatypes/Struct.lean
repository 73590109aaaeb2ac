import PyGridGain.Datatypes.ToPython
import PyGridGain.Lib.Dict

/-! `Struct`, `StructArray` and `Conditional`, which put data classes together into the bodies
of requests and responses, and the classes of payloads without a type code. -/

namespace PyGridGain

open StreamM

/-- What a class does with a value on a stream. `to_python` may be called without a client. -/
structure WireClass where
  fromPython : PyValue → StreamM PyValue
  parse : StreamM Layout
  toPython : Option Client → CObject → Except PyError PyValue

namespace WireClass

/-- The class where `to_python` is passed this for the client. -/
def passing (passed : Client → Option Client) (w : WireClass) : WireClass :=
  { w with toPython := fun client => w.toPython (client.bind passed) }

/-- The class where `to_python` is passed no client. -/
abbrev withoutClient (w : WireClass) : WireClass := w.passing fun _ => none

theorem withoutClient_toPython (w : WireClass) (client : Option Client) :
    w.withoutClient.toPython client = w.toPython none :=
  congrArg w.toPython (Option.bind_fun_none client)

/-- A class that asks the client for nothing. -/
theorem withoutClient_eq {w : WireClass} (h : ∀ client, w.toPython none = w.toPython client) :
    w.withoutClient = w := by
  unfold withoutClient passing
  congr 1
  funext client
  rw [Option.bind_fun_none]
  exact h client

end WireClass

/-! ### Payloads -/

/-- `Byte`, `Short`, `Int` and `Long`. -/
def primitive (s : Scalar) : WireClass where
  fromPython v := do
    let b ← fun stream => (packSigned s v).map fun b => (b, stream)
    write b
    pure v
  parse := seekPast (.scalar s)
  toPython _ o :=
    match o.value with
    | some i => .ok (.int i)
    | none => raise .attributeError

/-- `Bool`. -/
def boolClass : WireClass where
  fromPython v := do
    let b ← fun stream => (packBool v).map fun b => (b, stream)
    write b
    pure v
  parse := seekPast (.scalar .byte)
  toPython _ o :=
    match o.value with
    | some i => .ok (.bool (i != 0))
    | none => raise .attributeError

section Classes
variable [Python] [OtherCodecs]

def wireClass (t : DataType) : WireClass :=
  ⟨fromPython t, parse t, fun client => toPython client t⟩

/-- `AnyDataObject.from_python`. -/
def AnyDataObject.fromPython (v : PyValue) : StreamM PyValue := do
  let t ← fun s => v.mapPythonType.map fun t => (t, s)
  PyGridGain.fromPython t v

/-- A value without a hint. -/
def anyDataObject : WireClass :=
  ⟨AnyDataObject.fromPython, AnyDataObject.parse, AnyDataObject.toPython⟩

/-- `StringArray`. -/
def stringArray : WireClass where
  fromPython v := do
    let xs ← ofOption v.iterate .typeError
    let length ← ofOption (lengthBytes xs.length) .overflowError
    write length
    writeStandard PyGridGain.fromPython .string xs
    pure v
  parse := parseArray 0 [(.length, .scalar .int)] id (PyGridGain.parse .string)
  toPython client := standardArrayToPython (PyGridGain.toPython client) .string

end Classes

/-! ### Structures -/

/-- What a `Conditional` knows of the fields parsed so far. -/
abbrev ParseContext := PyStr → Option CObject

/-- `Conditional`: one of two classes, as two predicates say of the fields before it. -/
structure Conditional where
  fields : List PyStr
  predicate1 : ParseContext → Bool
  predicate2 : List (PyStr × PyValue) → Bool
  var1 : WireClass
  var2 : WireClass

inductive FieldClass
  | plain (w : WireClass)
  | conditional (c : Conditional)

namespace FieldClass

def fromPython : FieldClass → PyValue → StreamM PyValue
  | plain w => w.fromPython
  | conditional _ => fun _ => raise .attributeError

def parse : FieldClass → ParseContext → StreamM Layout
  | plain w, _ => w.parse
  | conditional c, ctx => if c.predicate1 ctx then c.var1.parse else c.var2.parse

def toPython : FieldClass → Option Client → List (PyStr × PyValue) → CObject → Except PyError PyValue
  | plain w, client, _ => w.toPython client
  | conditional c, client, result =>
    if c.predicate2 result then c.var1.toPython client else c.var2.toPython client

/-- The names that a field asks for. -/
def conditionFields : FieldClass → List PyStr
  | plain _ => []
  | conditional c => c.fields

end FieldClass

/-- `Struct`. -/
structure Struct where
  fields : List (PyStr × FieldClass)
  defaults : List (PyStr × PyValue) := []

/-- The key that a value is in a dict or a set. -/
def PyValue.key (v : PyValue) : Except PyError Key :=
  match v.hashKey with
  | some k => .ok k
  | Option.none => raise .typeError

/-- What a `for` runs over. -/
def PyValue.elems (v : PyValue) : Except PyError (List PyValue) :=
  match v.iterate with
  | some xs => .ok xs
  | Option.none => raise .typeError

@[simp] theorem elems_list (xs : List PyValue) : (PyValue.list xs).elems = .ok xs := rfl

@[simp] theorem truthy_bool (b : Bool) : (PyValue.bool b).truthy = b := rfl

@[simp] theorem key_int (i : ℤ) : (PyValue.int i).key = .ok (.number i) := rfl

/-- `value[name]`. -/
def PyValue.item (v : PyValue) (name : PyStr) : Except PyError PyValue :=
  match v with
  | .dict kvs =>
    match kvs.find? fun p => p.1.hashKey == some (.str name) with
    | some p => .ok p.2
    | Option.none => raise .keyError
  | _ => raise .typeError

/-- `value.setdefault(name, default)`. -/
def PyValue.setDefault (v : PyValue) (name : PyStr) (default : PyValue) : Except PyError PyValue :=
  match v with
  | .dict kvs =>
    if kvs.any fun p => p.1.hashKey == some (.str name) then .ok v
    else .ok (.dict (kvs ++ [(.str name, default)]))
  | _ => raise .attributeError

/-- A dict after its value for `name` has been passed to a writer. -/
def PyValue.setItem (v : PyValue) (name : PyStr) (x : PyValue) : PyValue :=
  match v with
  | .dict kvs =>
    .dict (kvs.map fun p => if p.1.hashKey == some (.str name) then (p.1, x) else p)
  | _ => v

/-- `__set_defaults`. -/
def setDefaults (defaults : List (PyStr × PyValue)) (v : PyValue) : Except PyError PyValue :=
  defaults.foldlM (fun v d => v.setDefault d.1 d.2) v

/-- The loop of `from_python` over the fields. -/
def writeStructFields : List (PyStr × FieldClass) → PyValue → StreamM PyValue
  | [], v => pure v
  | (name, c) :: fields, v => do
    let x ← fun stream => (v.item name).map fun x => (x, stream)
    let x ← c.fromPython x
    writeStructFields fields (v.setItem name x)

/-- The loop of `parse` over the fields; `names` are the keys of the context. -/
def parseStructFields (names : List PyStr) :
    List (PyStr × FieldClass) → ParseContext → StreamM (List (FieldName × Layout))
  | [], _ => pure []
  | (name, c) :: fields, ctx => do
    let layout ← c.parse ctx
    let ctx ←
      if name ∈ names then do
        let o ← readBackward layout
        pure (Function.update ctx name (some o))
      else pure ctx
    let layouts ← parseStructFields names fields ctx
    pure ((.field name, layout) :: layouts)

/-- The loop of `to_python` over the fields. -/
def structFieldsToPython (client : Option Client) (o : CObject) :
    List (PyStr × FieldClass) → List (PyStr × PyValue) → Except PyError (List (PyStr × PyValue))
  | [], result => .ok result
  | (name, c) :: fields, result => do
    let f ← o.attr (.field name)
    let x ← c.toPython client result f
    structFieldsToPython client o fields (dictSet result name x)

/-- Fields that ask the client for nothing. -/
theorem structFieldsToPython_free {fields : List (PyStr × FieldClass)}
    (h : ∀ f ∈ fields, ∀ client, f.2.toPython none = f.2.toPython client) (client : Option Client)
    (o : CObject) (result : List (PyStr × PyValue)) :
    structFieldsToPython none o fields result = structFieldsToPython client o fields result := by
  induction fields generalizing result with
  | nil => rfl
  | cons f fields ih =>
    rw [List.forall_mem_cons] at h
    simp only [structFieldsToPython, h.1 client, ih h.2]

/-- A `str` or `None` as a value. -/
def PyValue.ofStr? : Option PyStr → PyValue
  | some s => .str s
  | Option.none => .none

/-- A dict with strings as keys. -/
def strDict (kvs : List (PyStr × PyValue)) : PyValue := .dict (kvs.map fun p => (.str p.1, p.2))

namespace Struct

def fromPython (s : Struct) (v : PyValue) : StreamM PyValue := do
  let v ← fun stream => (setDefaults s.defaults v).map fun v => (v, stream)
  writeStructFields s.fields v

def parse (s : Struct) : StreamM Layout := do
  let names := s.fields.flatMap fun f => f.2.conditionFields
  let layouts ← parseStructFields names s.fields fun _ => none
  pure (.struct layouts)

def toPython (s : Struct) (client : Option Client) (o : CObject) : Except PyError PyValue := do
  let result ← structFieldsToPython client o s.fields []
  .ok (strDict result)

def wireClass (s : Struct) : WireClass := ⟨s.fromPython, s.parse, s.toPython⟩

end Struct

/-- `StructArray`, counted by a `c_int`. -/
structure StructArray where
  following : List (PyStr × FieldClass)
  defaults : List (PyStr × PyValue) := []

namespace StructArray

/-- The loop of `from_python` over the elements. -/
def writeElements (a : StructArray) : List PyValue → StreamM (List PyValue)
  | [] => pure []
  | x :: xs => do
    let x ← Struct.fromPython ⟨a.following, a.defaults⟩ x
    let xs ← writeElements a xs
    pure (x :: xs)

def fromPython (a : StructArray) (v : PyValue) : StreamM PyValue := do
  let xs ← ofOption v.iterate .typeError
  let length ← ofOption (lengthBytes xs.length) .overflowError
  write length
  let xs ← a.writeElements xs
  pure (v.refill xs)

def parse (a : StructArray) : StreamM Layout :=
  parseArray 0 [(.length, .scalar .int)] id (Struct.parse ⟨a.following, []⟩)

def toPython (a : StructArray) (client : Option Client) (o : CObject) : Except PyError PyValue := do
  let xs ← elementsToPython (Struct.toPython ⟨a.following, []⟩ client) o
  .ok (.list xs)

def wireClass (a : StructArray) : WireClass := ⟨a.fromPython, a.parse, a.toPython⟩

theorem toPython_free {a : StructArray}
    (h : ∀ f ∈ a.following, ∀ client, f.2.toPython none = f.2.toPython client)
    (client : Option Client) : a.toPython none = a.toPython client := by
  have helement : Struct.toPython ⟨a.following, []⟩ none =
      Struct.toPython ⟨a.following, []⟩ client := by
    funext o
    simp only [Struct.toPython, structFieldsToPython_free h client]
  funext o
  simp only [StructArray.toPython, helement]

end StructArray

end PyGridGain
