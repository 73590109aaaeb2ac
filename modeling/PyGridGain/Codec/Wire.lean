import PyGridGain.Datatypes.ToPython

/-! The wire format as a pure function of a value and its data class, free of
streams and positions, and the values it is meant for. The writers produce
`encode`, the parsers take it apart again; both are compared with it elsewhere. -/

namespace PyGridGain

/-- A value with its type hint. -/
def hint (p : PyValue × DataType) : PyValue := .hinted p.1 p.2

/-- The class that `map_python_type` finds for a value. -/
def PyValue.inferred (v : PyValue) : DataType :=
  match v.mapPythonType with
  | .ok t => t
  | .error _ => .null

/-- The value that an element of a container stands for and the class it is written
as: its hint, or the one inferred for it. -/
def typed : PyValue → Option (PyValue × DataType)
  | .hinted v t => some (v, t)
  | v =>
    match v.mapPythonType with
    | .ok t => some (v, t)
    | .error _ => none

/-- `ps` are the values and classes of the elements `xs`. -/
abbrev Typed (xs : List PyValue) (ps : List (PyValue × DataType)) : Prop :=
  List.Forall₂ (fun x p => typed x = some p) xs ps

abbrev TypedPairs (kvs : List (PyValue × PyValue))
    (ps : List ((PyValue × DataType) × (PyValue × DataType))) : Prop :=
  List.Forall₂ (fun kv p => typed kv.1 = some p.1 ∧ typed kv.2 = some p.2) kvs ps

theorem typed_hints (ps : List (PyValue × DataType)) : Typed (ps.map hint) ps := by
  induction ps with
  | nil => exact .nil
  | cons p ps ih => exact .cons rfl ih

theorem typed_hint_pairs (ps : List ((PyValue × DataType) × (PyValue × DataType))) :
    TypedPairs (ps.map fun p => (hint p.1, hint p.2)) ps := by
  induction ps with
  | nil => exact .nil
  | cons p ps ih => exact .cons ⟨rfl, rfl⟩ ih

theorem typed_cases {x : PyValue} {p : PyValue × DataType} (h : typed x = some p) :
    x = .hinted p.1 p.2 ∨ (x.mapPythonType = .ok p.2 ∧ x.inferred = p.2 ∧ x = p.1) := by
  unfold typed at h
  split at h
  · obtain rfl := Option.some.inj h
    exact Or.inl rfl
  · split at h
    · rename_i t ht
      obtain rfl := Option.some.inj h
      exact Or.inr ⟨ht, by rw [PyValue.inferred, ht], rfl⟩
    · simp at h

/-- The field type of a class of integers. -/
def DataType.intScalar : DataType → Option Scalar
  | .byteObject => some .byte
  | .shortObject => some .short
  | .intObject => some .int
  | .longObject => some .longlong
  | _ => none

/-- The item type of a class of integer arrays. -/
def DataType.arrayScalar : DataType → Option Scalar
  | .shortArrayObject => some .short
  | .intArrayObject => some .int
  | .longArrayObject => some .longlong
  | _ => none

/-- `standard_type` of the array classes. -/
def DataType.standardType : DataType → Option DataType
  | .stringArrayObject => some .string
  | .uuidArrayObject => some .uuidObject
  | _ => none

def DataType.IsEnum (t : DataType) : Prop := t = .enumObject ∨ t = .binaryEnumObject

/-- The positions of consecutive chunks, the first one at `pos`. -/
def chunkStarts : ℕ → List Bytes → List ℕ
  | _, [] => []
  | pos, c :: cs => pos :: chunkStarts (pos + c.length) cs

/-- The width of the offsets of an object by its greatest one. -/
def widthFlag (offsets : List ℕ) : ℕ :=
  if offsets.foldl max 0 < 255 then OFFSET_ONE_BYTE
  else if offsets.foldl max 0 < 65535 then OFFSET_TWO_BYTES
  else 0

def objectFlags (cf : Bool) (offsets : List ℕ) : ℕ :=
  USER_TYPE ||| HAS_SCHEMA ||| (if cf then COMPACT_FOOTER else 0) ||| widthFlag offsets

theorem chunkStarts_length (pos : ℕ) (cs : List Bytes) :
    (chunkStarts pos cs).length = cs.length := by
  induction cs generalizing pos with
  | nil => rfl
  | cons c cs ih => simp [chunkStarts, ih]

theorem widthFlag_cases (offsets : List ℕ) :
    widthFlag offsets = OFFSET_ONE_BYTE ∨ widthFlag offsets = OFFSET_TWO_BYTES ∨
      widthFlag offsets = 0 := by
  unfold widthFlag
  split_ifs <;> simp

theorem hasFlag_compact (cf : Bool) (offsets : List ℕ) :
    hasFlag (objectFlags cf offsets : ℕ) COMPACT_FOOTER = cf := by
  unfold objectFlags
  rcases widthFlag_cases offsets with h | h | h <;> rw [h] <;> cases cf <;> decide

theorem hasFlag_schema (cf : Bool) (offsets : List ℕ) :
    hasFlag (objectFlags cf offsets : ℕ) HAS_SCHEMA = true := by
  unfold objectFlags
  rcases widthFlag_cases offsets with h | h | h <;> rw [h] <;> cases cf <;> decide

theorem objectFlags_range (cf : Bool) (offsets : List ℕ) :
    Scalar.short.Range (objectFlags cf offsets : ℕ) := by
  unfold objectFlags
  rcases widthFlag_cases offsets with h | h | h <;> rw [h] <;> cases cf <;> decide

section Encode
variable [Python] [OtherCodecs]

/-- What a class with a codec of its own writes, on a stream of its own. -/
def leafBytes (t : OtherType) (v : PyValue) : Bytes :=
  match (OtherCodecs.codec t).fromPythonNotNull v ⟨⟨none, fun _ => [], fun _ => []⟩, [], 0, false⟩ with
  | .ok (_, s) => s.buf
  | .error _ => []

/-- The header of an object whose fields are encoded as `chunks`. -/
def objectHeader (cf : Bool) (head : ObjHead) (fields : List (PyStr × DataType × PyValue))
    (chunks : List Bytes) : Header :=
  let offsets := chunkStarts headerSize chunks
  let flags := objectFlags cf offsets
  let footer := footerBytes cf flags (fields.map fun f => f.1) offsets
  let schemaOffset := headerSize + chunks.flatten.length
  { version := ((versionAttr head fields).toInt?).getD 0
    flags
    typeId := (classOf head fields).typeId
    hashCode := hashcodeBytes chunks.flatten
    length := schemaOffset + footer.length
    schemaId := (classOf head fields).schemaId
    schemaOffset }

def objectFooter (cf : Bool) (fields : List (PyStr × DataType × PyValue)) (chunks : List Bytes) :
    Bytes :=
  let offsets := chunkStarts headerSize chunks
  footerBytes cf (objectFlags cf offsets) (fields.map fun f => f.1) offsets

mutual
def encode (cf : Bool) : DataType → PyValue → Bytes
  | _, .none => [TC_NULL]
  | _, .hinted v t => encode cf t v
  | .other t, v => leafBytes t v
  | t, .int i => t.typeCode :: (t.intScalar.getD .longlong).store i
  | t, .bool b => t.typeCode :: Scalar.byte.store (if b then 1 else 0)
  | t, .str s => t.typeCode :: (Scalar.int.store (utf8Encode s).length ++ utf8Encode s)
  | t, .uuid u => t.typeCode :: uuidStore u
  | t, .bytes b => t.typeCode :: (Scalar.int.store b.length ++ b)
  | t, .tuple [.int a, .int b] => t.typeCode :: (Scalar.int.store a ++ Scalar.int.store b)
  | t, .tuple [.int k, .list xs] =>
    t.typeCode :: ((match t with
      | .objectArrayObject => Scalar.int.store k ++ Scalar.int.store xs.length
      | _ => Scalar.int.store xs.length ++ Scalar.byte.store k) ++ (encodeAll cf xs).flatten)
  | t, .tuple [.int k, .dict kvs] =>
    t.typeCode :: (Scalar.int.store kvs.length ++ Scalar.byte.store k ++
      (encodePairs cf kvs).flatten)
  | t, .list xs =>
    t.typeCode :: (Scalar.int.store xs.length ++ (match t.standardType with
      | some std => (encodeStandard cf std xs).flatten
      | none => xs.flatMap fun x =>
        (t.arrayScalar.getD .byte).store (x.toInt?.getD 0)))
  | t, .obj head fields =>
    let chunks := encodeFields cf fields
    match t with
    | .binaryObject =>
      (objectHeader cf head fields chunks).store ++ (chunks.flatten ++ objectFooter cf fields chunks)
    | _ => []
  | _, _ => []
def encodeAll (cf : Bool) : List PyValue → List Bytes
  | [] => []
  | x :: xs => encode cf x.inferred x :: encodeAll cf xs
def encodePairs (cf : Bool) : List (PyValue × PyValue) → List Bytes
  | [] => []
  | (k, v) :: kvs => encode cf k.inferred k :: encode cf v.inferred v :: encodePairs cf kvs
def encodeStandard (cf : Bool) (std : DataType) : List PyValue → List Bytes
  | [] => []
  | x :: xs => encode cf std x :: encodeStandard cf std xs
def encodeFields (cf : Bool) : List (PyStr × DataType × PyValue) → List Bytes
  | [] => []
  | (_, t, v) :: fields => encode cf t v :: encodeFields cf fields
end

variable {cf : Bool}

-- the equations of the definition are made once, before the lemmas that unfold it
attribute [local simp] encode

@[simp] theorem encode_none (t : DataType) : encode cf t .none = [TC_NULL] := by
  simp only [encode]

theorem encode_other {t : OtherType} {v : PyValue} (hv : v ≠ .none)
    (hh : ∀ w u, v ≠ .hinted w u) : encode cf (.other t) v = leafBytes t v := by
  cases v <;> first | exact absurd rfl hv | exact absurd rfl (hh _ _) | simp only [encode]

theorem encode_standard {t std : DataType} (ht : t.standardType = some std) (xs : List PyValue) :
    encode cf t (.list xs) =
      t.typeCode :: (Scalar.int.store xs.length ++ (encodeStandard cf std xs).flatten) := by
  cases t <;> simp only [DataType.standardType, reduceCtorEq, Option.some.injEq] at ht <;>
    subst ht <;> simp only [encode, DataType.standardType]

theorem encode_intArray {t : DataType} {s : Scalar} (ht : t.arrayScalar = some s) (is : List ℤ) :
    encode cf t (.list (is.map .int)) =
      t.typeCode :: (Scalar.int.store is.length ++ is.flatMap s.store) := by
  cases t <;> simp only [DataType.arrayScalar, reduceCtorEq, Option.some.injEq] at ht <;>
    subst ht <;> simp [encode, DataType.standardType, DataType.arrayScalar, List.flatMap_map,
      PyValue.toInt?]

theorem encode_boolArray (bs : List Bool) :
    encode cf .boolArrayObject (.list (bs.map .bool)) =
      DataType.boolArrayObject.typeCode :: (Scalar.int.store bs.length ++
        (bs.map fun b => if b then (1 : ℤ) else 0).flatMap Scalar.byte.store) := by
  simp [encode, DataType.standardType, DataType.arrayScalar, List.flatMap_map, PyValue.toInt?]

theorem encode_obj (head : ObjHead) (fields : List (PyStr × DataType × PyValue)) :
    encode cf .binaryObject (.obj head fields) =
      (objectHeader cf head fields (encodeFields cf fields)).store ++
        ((encodeFields cf fields).flatten ++ objectFooter cf fields (encodeFields cf fields)) := by
  simp only [encode]

theorem encode_typed {x : PyValue} {p : PyValue × DataType} (h : typed x = some p) :
    encode cf x.inferred x = encode cf p.2 p.1 := by
  rcases typed_cases h with rfl | ⟨-, hinf, rfl⟩
  · simp only [encode]
  · rw [hinf]

theorem encodeAll_typed {xs : List PyValue} {ps : List (PyValue × DataType)} (h : Typed xs ps) :
    encodeAll cf xs = ps.map fun p => encode cf p.2 p.1 := by
  induction h with
  | nil => rfl
  | cons hx _ ih => simp only [List.map_cons, encodeAll, ih, encode_typed hx]

theorem encodePairs_typed {kvs : List (PyValue × PyValue)}
    {ps : List ((PyValue × DataType) × (PyValue × DataType))} (h : TypedPairs kvs ps) :
    encodePairs cf kvs = ps.flatMap fun p => [encode cf p.1.2 p.1.1, encode cf p.2.2 p.2.1] := by
  induction h with
  | nil => rfl
  | @cons kv p _ _ hkv _ ih =>
    obtain ⟨k, v⟩ := kv
    simp only [encodePairs, ih, encode_typed hkv.1, encode_typed hkv.2, List.flatMap_cons,
      List.cons_append, List.nil_append]

@[simp] theorem encodeStandard_eq (std : DataType) (xs : List PyValue) :
    encodeStandard cf std xs = xs.map fun x => encode cf std x := by
  induction xs with
  | nil => rfl
  | cons x xs ih => simp only [List.map_cons, encodeStandard, ih]

theorem encodeFields_eq (fields : List (PyStr × DataType × PyValue)) :
    encodeFields cf fields = fields.map fun f => encode cf f.2.1 f.2.2 := by
  induction fields with
  | nil => rfl
  | cons f fields ih => simp only [List.map_cons, encodeFields, ih]

end Encode

/- The Complex objects that a value holds, itself included. -/
mutual
def objects : DataType → PyValue → List (ObjHead × List (PyStr × DataType × PyValue))
  | _, .hinted v t => objects t v
  | .other _, _ => []
  | _, .tuple [.int _, .list xs] => objectsAll xs
  | _, .tuple [.int _, .dict kvs] => objectsPairs kvs
  | _, .obj head fields => (head, fields) :: objectsFields fields
  | _, _ => []
def objectsAll : List PyValue → List (ObjHead × List (PyStr × DataType × PyValue))
  | [] => []
  | x :: xs => objects x.inferred x ++ objectsAll xs
def objectsPairs : List (PyValue × PyValue) → List (ObjHead × List (PyStr × DataType × PyValue))
  | [] => []
  | (k, v) :: kvs => objects k.inferred k ++ (objects v.inferred v ++ objectsPairs kvs)
def objectsFields : List (PyStr × DataType × PyValue) →
    List (ObjHead × List (PyStr × DataType × PyValue))
  | [] => []
  | (_, t, v) :: fields => objects t v ++ objectsFields fields
end

section Objects

attribute [local simp] objects

@[simp] theorem objects_none (t : DataType) : objects t .none = [] := by
  cases t <;> simp only [objects]

theorem objects_other {t : OtherType} {v : PyValue} (hh : ∀ w u, v ≠ .hinted w u) :
    objects (.other t) v = [] := by
  cases v <;> first | exact absurd rfl (hh _ _) | simp only [objects]

theorem objects_typed {x : PyValue} {p : PyValue × DataType} (h : typed x = some p) :
    objects x.inferred x = objects p.2 p.1 := by
  rcases typed_cases h with rfl | ⟨-, hinf, rfl⟩
  · simp only [objects]
  · rw [hinf]

theorem objectsAll_typed {xs : List PyValue} {ps : List (PyValue × DataType)} (h : Typed xs ps) :
    objectsAll xs = ps.flatMap fun p => objects p.2 p.1 := by
  induction h with
  | nil => rfl
  | cons hx _ ih => simp only [objectsAll, ih, objects_typed hx, List.flatMap_cons]

theorem objectsPairs_typed {kvs : List (PyValue × PyValue)}
    {ps : List ((PyValue × DataType) × (PyValue × DataType))} (h : TypedPairs kvs ps) :
    objectsPairs kvs = ps.flatMap fun p => objects p.1.2 p.1.1 ++ objects p.2.2 p.2.1 := by
  induction h with
  | nil => rfl
  | @cons kv p _ _ hkv _ ih =>
    obtain ⟨k, v⟩ := kv
    simp only [objectsPairs, ih, objects_typed hkv.1, objects_typed hkv.2, List.flatMap_cons,
      List.append_assoc]

@[simp] theorem objectsFields_eq (fields : List (PyStr × DataType × PyValue)) :
    objectsFields fields = fields.flatMap fun f => objects f.2.1 f.2.2 := by
  induction fields with
  | nil => rfl
  | cons f fields ih => simp only [objectsFields, ih, List.flatMap_cons]

end Objects

/-- The header of every Complex object in a value can be filled. -/
def HeadersFilled [Python] (t : DataType) (v : PyValue) : Prop :=
  ∀ o ∈ objects t v, ∃ attrs, headerAttrs o.1 o.2 = .ok attrs

/-- Where a field takes the place of the type id of a Complex object in a value, it holds the
type id of its class. -/
def OwnTypeIds [Python] (t : DataType) (v : PyValue) : Prop :=
  ∀ o ∈ objects t v, ∀ i ∈ (typeIdAttr o.1 o.2).toInt?,
    Scalar.int.wrap i = (classOf o.1 o.2).typeId

/-- Both, so that Complex objects are written with the header of their class. -/
structure HeadersOwn [Python] (t : DataType) (v : PyValue) : Prop where
  filled : HeadersFilled t v
  typeIds : OwnTypeIds t v

theorem headersOwn_of_no_objects [Python] {t : DataType} {v : PyValue} (h : objects t v = []) :
    HeadersOwn t v :=
  ⟨by simp [HeadersFilled, h], by simp [OwnTypeIds, h]⟩

/-- No Complex object in a value has the schema id that the registry takes for none. -/
def SchemasFound [Python] (t : DataType) (v : PyValue) : Prop :=
  ∀ o ∈ objects t v, (classOf o.1 o.2).schemaId ≠ 0

/-- A schema field takes the place of the attribute `version`. -/
def HasVersionField (fields : List (PyStr × DataType × PyValue)) : Prop :=
  (fields.any fun f => f.1 == versionName) = true

instance (fields : List (PyStr × DataType × PyValue)) : Decidable (HasVersionField fields) := by
  unfold HasVersionField; exact inferInstance

/- The value that decoding gives back: without hints and caches, and with the
versions of Complex objects passed through `f`. -/
mutual
def decoded (f : ℤ → ℤ) : DataType → PyValue → PyValue
  | _, .hinted v t => decoded f t v
  | .other _, v => v
  | _, .tuple [.int k, .list xs] => .tuple [.int k, .list (decodedAll f xs)]
  | _, .tuple [.int k, .dict kvs] => .tuple [.int k, .dict (decodedPairs f kvs)]
  | _, .obj head fields =>
    .obj ⟨0, head.typeName, if HasVersionField fields then 1 else f head.version, none, none⟩
      (decodedFields f fields)
  | _, v => v
def decodedAll (f : ℤ → ℤ) : List PyValue → List PyValue
  | [] => []
  | x :: xs => decoded f x.inferred x :: decodedAll f xs
def decodedPairs (f : ℤ → ℤ) : List (PyValue × PyValue) → List (PyValue × PyValue)
  | [] => []
  | (k, v) :: kvs => (decoded f k.inferred k, decoded f v.inferred v) :: decodedPairs f kvs
def decodedFields (f : ℤ → ℤ) : List (PyStr × DataType × PyValue) →
    List (PyStr × DataType × PyValue)
  | [] => []
  | (name, t, v) :: fields => (name, t, decoded f t v) :: decodedFields f fields
end

section Decoded
variable {f : ℤ → ℤ}

attribute [local simp] decoded

@[simp] theorem decoded_none (t : DataType) : decoded f t .none = .none := by
  cases t <;> simp only [decoded]

theorem decoded_other {t : OtherType} {v : PyValue} (hh : ∀ w u, v ≠ .hinted w u) :
    decoded f (.other t) v = v := by
  cases v <;> first | exact absurd rfl (hh _ _) | simp only [decoded]

@[simp] theorem decoded_list (t : DataType) (xs : List PyValue) :
    decoded f t (.list xs) = .list xs := by
  cases t <;> simp only [decoded]

theorem decoded_typed {x : PyValue} {p : PyValue × DataType} (h : typed x = some p) :
    decoded f x.inferred x = decoded f p.2 p.1 := by
  rcases typed_cases h with rfl | ⟨-, hinf, rfl⟩
  · simp only [decoded]
  · rw [hinf]

theorem decodedAll_typed {xs : List PyValue} {ps : List (PyValue × DataType)} (h : Typed xs ps) :
    decodedAll f xs = ps.map fun p => decoded f p.2 p.1 := by
  induction h with
  | nil => rfl
  | cons hx _ ih => simp only [List.map_cons, decodedAll, ih, decoded_typed hx]

theorem decodedPairs_typed {kvs : List (PyValue × PyValue)}
    {ps : List ((PyValue × DataType) × (PyValue × DataType))} (h : TypedPairs kvs ps) :
    decodedPairs f kvs = ps.map fun p => (decoded f p.1.2 p.1.1, decoded f p.2.2 p.2.1) := by
  induction h with
  | nil => rfl
  | @cons kv p _ _ hkv _ ih =>
    obtain ⟨k, v⟩ := kv
    simp only [List.map_cons, decodedPairs, ih, decoded_typed hkv.1, decoded_typed hkv.2]

@[simp] theorem decodedFields_eq (fields : List (PyStr × DataType × PyValue)) :
    decodedFields f fields = fields.map fun p => (p.1, p.2.1, decoded f p.2.1 p.2.2) := by
  induction fields with
  | nil => rfl
  | cons p fields ih => simp only [decodedFields, ih, List.map_cons]

end Decoded

/-- The value without its hints. -/
abbrev plain (t : DataType) (v : PyValue) : PyValue := decoded id t v

/-- The keys of a map are hashable and pairwise different once they are decoded. -/
def KeysDistinct (kvs : List ((PyValue × DataType) × (PyValue × DataType))) : Prop :=
  ∃ keys : List Key, kvs.map (fun p => (plain p.1.2 p.1.1).hashKey) = keys.map some ∧ keys.Nodup

/-- The type code a value is written under. -/
def firstCode (t : DataType) : PyValue → UInt8
  | .none => TC_NULL
  | _ => t.typeCode

theorem firstCode_of_ne {t : DataType} {v : PyValue} (hv : v ≠ .none) :
    firstCode t v = t.typeCode := by
  cases v <;> first | exact absurd rfl hv | rfl

section Encodable
variable [Python] [OtherCodecs]

/-- A value that the codec of its class writes and reads faithfully: the same
bytes at every position, and the value back from them, whatever follows. -/
structure LeafFaithful (t : OtherType) (v : PyValue) : Prop where
  not_none : v ≠ .none
  not_hinted : ∀ w u, v ≠ .hinted w u
  typeCode : ∃ rest, leafBytes t v = t.typeCode :: rest
  writes : ∀ s : BinaryStream, s.emptyView = false →
    (OtherCodecs.codec t).fromPythonNotNull v s = .ok ((), s.put (leafBytes t v))
  reads : ∃ c : Layout, c.size = (leafBytes t v).length ∧
    (∀ s : BinaryStream, s.emptyView = false → At s.buf s.pos (leafBytes t v) →
      (OtherCodecs.codec t).parseNotNull s = .ok (c, s.skip c.size)) ∧
    CObj.getInt ⟨c, leafBytes t v⟩ .typeCode = some (t.typeCode.toNat : ℤ) ∧
    (OtherCodecs.codec t).toPythonNotNull ⟨c, leafBytes t v⟩ = .ok v

/-- `v` can be written as `t` by a client with registry `cl` and footer mode `cf`.
A Complex object may hold a cached representation, if that is the one its fields
have now (and one that they could be written to at all). -/
inductive Encodable (cl : Client) (cf : Bool) : DataType → PyValue → Prop
  | none (t : DataType) : Encodable cl cf t .none
  | int {t : DataType} {s : Scalar} {i : ℤ} (ht : t.intScalar = some s) (hi : s.Range i) :
      Encodable cl cf t (.int i)
  | bool (b : Bool) : Encodable cl cf .boolObject (.bool b)
  | str {s : PyStr} (hs : '\x00' ∉ s) (hlen : (utf8Encode s).length < 2 ^ 31) :
      Encodable cl cf .string (.str s)
  | uuid (u : UUID) : Encodable cl cf .uuidObject (.uuid u)
  | enum {t : DataType} {a b : ℤ} (ht : t.IsEnum) (ha : Scalar.int.Range a)
      (hb : Scalar.int.Range b) : Encodable cl cf t (.tuple [.int a, .int b])
  | bytes {b : Bytes} (hlen : b.length < 2 ^ 31) : Encodable cl cf .byteArrayObject (.bytes b)
  | intArray {t : DataType} {s : Scalar} {is : List ℤ} (ht : t.arrayScalar = some s)
      (his : ∀ i ∈ is, s.Range i) (hlen : is.length < 2 ^ 31) :
      Encodable cl cf t (.list (is.map .int))
  | boolArray {bs : List Bool} (hlen : bs.length < 2 ^ 31) :
      Encodable cl cf .boolArrayObject (.list (bs.map .bool))
  | standardArray {t std : DataType} {xs : List PyValue} (ht : t.standardType = some std)
      (hxs : ∀ x ∈ xs, Encodable cl cf std x) (hlen : xs.length < 2 ^ 31) :
      Encodable cl cf t (.list xs)
  | objectArray {k : ℤ} {xs : List PyValue} {ps : List (PyValue × DataType)}
      (hk : Scalar.int.Range k) (htyped : Typed xs ps) (hps : ∀ p ∈ ps, Encodable cl cf p.2 p.1)
      (hlen : xs.length < 2 ^ 31) :
      Encodable cl cf .objectArrayObject (.tuple [.int k, .list xs])
  | collection {k : ℤ} {xs : List PyValue} {ps : List (PyValue × DataType)}
      (hk : Scalar.byte.Range k) (htyped : Typed xs ps) (hps : ∀ p ∈ ps, Encodable cl cf p.2 p.1)
      (hlen : xs.length < 2 ^ 31) :
      Encodable cl cf .collectionObject (.tuple [.int k, .list xs])
  | map {k : ℤ} {kvs : List (PyValue × PyValue)}
      {ps : List ((PyValue × DataType) × (PyValue × DataType))}
      (hk : Scalar.byte.Range k) (htyped : TypedPairs kvs ps)
      (hks : ∀ p ∈ ps, Encodable cl cf p.1.2 p.1.1) (hvs : ∀ p ∈ ps, Encodable cl cf p.2.2 p.2.1)
      (hlen : kvs.length < 2 ^ 31) (hkeys : KeysDistinct ps) :
      Encodable cl cf .mapObject (.tuple [.int k, .dict kvs])
  | obj {head : ObjHead} {fields : List (PyStr × DataType × PyValue)} (hne : fields ≠ [])
      (hnames : (fields.map fun f => f.1).Nodup)
      (hfields : ∀ f ∈ fields, Encodable cl cf f.2.1 f.2.2)
      (hreg : cl.Registered (classOf head fields))
      (hsize : (encode cf .binaryObject (.obj head fields)).length < 2 ^ 31)
      (hbuffer : ∀ b ∈ head.buffer, b = encode cf .binaryObject (.obj head fields) ∧
        HeadersFilled .binaryObject (.obj head fields)) :
      Encodable cl cf .binaryObject (.obj head fields)
  | leaf {t : OtherType} {v : PyValue} (h : LeafFaithful t v) : Encodable cl cf (.other t) v

/-- An encoding starts with the code of its class or with the null code. -/
theorem Encodable.encode_cons {cl : Client} {cf : Bool} {t : DataType} {v : PyValue}
    (h : Encodable cl cf t v) : ∃ rest, encode cf t v = firstCode t v :: rest := by
  cases h with
  | none t => exact ⟨[], encode_none t⟩
  | int ht _ => cases t <;> simp_all [encode, firstCode, DataType.intScalar]
  | enum ht _ _ => rcases ht with rfl | rfl <;> simp [encode, firstCode]
  | intArray ht _ _ => cases t <;> simp_all [encode, firstCode, DataType.arrayScalar]
  | standardArray ht _ _ => cases t <;> simp_all [encode, firstCode, DataType.standardType]
  | obj => simp [encode_obj, Header.store, firstCode]
  | leaf h =>
    rw [encode_other h.not_none h.not_hinted, firstCode_of_ne h.not_none]
    exact h.typeCode
  | _ => simp [encode, firstCode]

theorem Encodable.encode_ne_nil {cl : Client} {cf : Bool} {t : DataType} {v : PyValue}
    (h : Encodable cl cf t v) : encode cf t v ≠ [] := by
  obtain ⟨rest, h⟩ := h.encode_cons
  simp [h]

/-- Only `None` is written as `Null`. -/
theorem Encodable.ne_null {cl : Client} {cf : Bool} {t : DataType} {v : PyValue}
    (h : Encodable cl cf t v) (hv : v ≠ .none) : t ≠ .null := by
  rintro rfl
  cases h <;> simp_all [DataType.intScalar, DataType.arrayScalar, DataType.standardType,
    DataType.IsEnum]

/-- The elements of a standard array hold no objects. -/
theorem Encodable.objects_standard {cl : Client} {cf : Bool} {t std : DataType} {v : PyValue}
    (h : Encodable cl cf std v) (ht : t.standardType = some std) : objects std v = [] := by
  cases t <;> simp only [DataType.standardType, reduceCtorEq, Option.some.injEq] at ht <;>
    subst ht <;> cases h <;>
    simp_all [objects, DataType.intScalar, DataType.arrayScalar, DataType.standardType,
      DataType.IsEnum]

theorem Encodable.decoded_standard {cl : Client} {cf : Bool} {t std : DataType} {v : PyValue}
    {f : ℤ → ℤ} (h : Encodable cl cf std v) (ht : t.standardType = some std) :
    decoded f std v = v := by
  cases t <;> simp only [DataType.standardType, reduceCtorEq, Option.some.injEq] at ht <;>
    subst ht <;> cases h <;>
    simp_all [decoded, DataType.intScalar, DataType.arrayScalar, DataType.standardType,
      DataType.IsEnum]

end Encodable

end PyGridGain
