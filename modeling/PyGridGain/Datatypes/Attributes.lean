import PyGridGain.Datatypes.Uncached

/-! Changing a Complex object and what it holds. Objects are told apart by their identity:
a change to one shows wherever it is held. `_setattr` drops the caches of the object whose
field is assigned; those of the objects that hold it stay, and so do all caches when
`version` is assigned or a list or dict changes in place. -/

namespace PyGridGain

open PyValue

/-- `bool(self._buffer)`: the fast path is taken. -/
def ObjHead.cached (head : ObjHead) : Bool :=
  match head.buffer with
  | some (_ :: _) => true
  | _ => false

/-- `bool(self._hashcode)`. -/
def ObjHead.hashed (head : ObjHead) : Bool :=
  match head.hashcode with
  | some h => h != 0
  | _ => false

def fieldNames (fields : List (PyStr × DataType × PyValue)) : List PyStr := fields.map fun f => f.1

/-- The fields after the attribute `name` was set. -/
def assign (name : PyStr) (value : PyValue) (fields : List (PyStr × DataType × PyValue)) :
    List (PyStr × DataType × PyValue) :=
  fields.map fun f => if f.1 = name then (f.1, f.2.1, value) else f

/-- `_setattr` of a schema field. Attributes that are neither schema fields nor `version`
have no part in what is written. -/
def setField (attrName : PyStr) (attrValue : PyValue) (head : ObjHead)
    (fields : List (PyStr × DataType × PyValue)) : PyValue :=
  if attrName ∈ fieldNames fields then
    .obj { head with buffer := none, hashcode := none } (assign attrName attrValue fields)
  else .obj head fields

/-- `_setattr` of `version`, an `int`. -/
def setVersion (attrValue : ℤ) (head : ObjHead) (fields : List (PyStr × DataType × PyValue)) :
    PyValue :=
  if versionName ∈ fieldNames fields then setField versionName (.int attrValue) head fields
  else .obj { head with version := attrValue } fields

/-- The list or dict in the field `name` changes in place: nothing of the object is called. -/
def mutate (name : PyStr) (value : PyValue) (head : ObjHead)
    (fields : List (PyStr × DataType × PyValue)) : PyValue :=
  .obj head (assign name value fields)

section Identity
variable (oid : ℕ)

/- The value after `f` was done to the object `oid`. -/
mutual
def mapObj (f : ObjHead → List (PyStr × DataType × PyValue) → PyValue) : PyValue → PyValue
  | .tuple xs => .tuple (mapObjAll f xs)
  | .list xs => .list (mapObjAll f xs)
  | .dict kvs => .dict (mapObjPairs f kvs)
  | .hinted v t => .hinted (mapObj f v) t
  | .obj head fields =>
    if head.oid = oid then f head (mapObjFields f fields) else .obj head (mapObjFields f fields)
  | v => v
def mapObjAll (f : ObjHead → List (PyStr × DataType × PyValue) → PyValue) :
    List PyValue → List PyValue
  | [] => []
  | x :: xs => mapObj f x :: mapObjAll f xs
def mapObjPairs (f : ObjHead → List (PyStr × DataType × PyValue) → PyValue) :
    List (PyValue × PyValue) → List (PyValue × PyValue)
  | [] => []
  | (k, v) :: kvs => (mapObj f k, mapObj f v) :: mapObjPairs f kvs
def mapObjFields (f : ObjHead → List (PyStr × DataType × PyValue) → PyValue) :
    List (PyStr × DataType × PyValue) → List (PyStr × DataType × PyValue)
  | [] => []
  | (name, t, v) :: fields => (name, t, mapObj f v) :: mapObjFields f fields
end

/- The value is or holds the object `oid`. -/
mutual
def holds : PyValue → Bool
  | .tuple xs => holdsAny xs
  | .list xs => holdsAny xs
  | .dict kvs => holdsPairs kvs
  | .hinted v _ => holds v
  | .obj head fields => head.oid == oid || holdsFields fields
  | _ => false
def holdsAny : List PyValue → Bool
  | [] => false
  | x :: xs => holds x || holdsAny xs
def holdsPairs : List (PyValue × PyValue) → Bool
  | [] => false
  | (k, v) :: kvs => holds k || holds v || holdsPairs kvs
def holdsFields : List (PyStr × DataType × PyValue) → Bool
  | [] => false
  | (_, _, v) :: fields => holds v || holdsFields fields
end

/- No object that holds the object `oid` has its representation cached, nor has the object
itself, if `own` says of its schema that the change leaves the cache where it is. -/
mutual
def clearAbove (own : List PyStr → Bool) : PyValue → Bool
  | .tuple xs => clearAboveAll own xs
  | .list xs => clearAboveAll own xs
  | .dict kvs => clearAbovePairs own kvs
  | .hinted v _ => clearAbove own v
  | .obj head fields =>
    !(head.cached && (holdsFields oid fields || (head.oid == oid && own (fieldNames fields)))) &&
      clearAboveFields own fields
  | _ => true
def clearAboveAll (own : List PyStr → Bool) : List PyValue → Bool
  | [] => true
  | x :: xs => clearAbove own x && clearAboveAll own xs
def clearAbovePairs (own : List PyStr → Bool) : List (PyValue × PyValue) → Bool
  | [] => true
  | (k, v) :: kvs => clearAbove own k && clearAbove own v && clearAbovePairs own kvs
def clearAboveFields (own : List PyStr → Bool) : List (PyStr × DataType × PyValue) → Bool
  | [] => true
  | (_, _, v) :: fields => clearAbove own v && clearAboveFields own fields
end

end Identity

theorem cached_eq_false {head : ObjHead} : head.cached = false ↔ ∀ d ∈ head.buffer, d = [] := by
  unfold ObjHead.cached
  rcases head.buffer with _ | _ | ⟨b, d⟩ <;> simp

theorem hashed_eq_false {head : ObjHead} : head.hashed = false ↔ ∀ h ∈ head.hashcode, h = 0 := by
  unfold ObjHead.hashed
  cases head.hashcode <;> simp

section Lemmas
variable {oid : ℕ} {f : ObjHead → List (PyStr × DataType × PyValue) → PyValue}

theorem fieldNames_mapObjFields (fields : List (PyStr × DataType × PyValue)) :
    fieldNames (mapObjFields oid f fields) = fieldNames fields := by
  induction fields with
  | nil => rfl
  | cons g fields ih =>
    simp only [fieldNames, mapObjFields, List.map_cons] at ih ⊢
    rw [ih]

/- A value that does not hold the object stays as it is. -/
mutual
theorem mapObj_of_not_holds : ∀ v : PyValue, holds oid v = false → mapObj oid f v = v
  | .tuple xs, h => by rw [mapObj, mapObjAll_of_not_holds xs h]
  | .list xs, h => by rw [mapObj, mapObjAll_of_not_holds xs h]
  | .dict kvs, h => by rw [mapObj, mapObjPairs_of_not_holds kvs h]
  | .hinted v t, h => by rw [mapObj, mapObj_of_not_holds v h]
  | .obj head fields, h => by
    rw [holds, Bool.or_eq_false_iff, beq_eq_false_iff_ne] at h
    rw [mapObj, if_neg h.1, mapObjFields_of_not_holds fields h.2]
  | .none, _ | .bool _, _ | .int _, _ | .float _, _ | .decimal .., _ | .str _, _ | .bytes _, _
  | .uuid _, _ | .datetime _, _ | .timedelta _, _ => rfl
theorem mapObjAll_of_not_holds : ∀ xs, holdsAny oid xs = false → mapObjAll oid f xs = xs
  | [], _ => rfl
  | x :: xs, h => by
    rw [holdsAny, Bool.or_eq_false_iff] at h
    rw [mapObjAll, mapObj_of_not_holds x h.1, mapObjAll_of_not_holds xs h.2]
theorem mapObjPairs_of_not_holds :
    ∀ kvs, holdsPairs oid kvs = false → mapObjPairs oid f kvs = kvs
  | [], _ => rfl
  | (k, v) :: kvs, h => by
    rw [holdsPairs, Bool.or_eq_false_iff, Bool.or_eq_false_iff] at h
    rw [mapObjPairs, mapObj_of_not_holds k h.1.1, mapObj_of_not_holds v h.1.2,
      mapObjPairs_of_not_holds kvs h.2]
theorem mapObjFields_of_not_holds :
    ∀ fields, holdsFields oid fields = false → mapObjFields oid f fields = fields
  | [], _ => rfl
  | (_, _, v) :: fields, h => by
    rw [holdsFields, Bool.or_eq_false_iff] at h
    rw [mapObjFields, mapObj_of_not_holds v h.1, mapObjFields_of_not_holds fields h.2]
end

end Lemmas

end PyGridGain
