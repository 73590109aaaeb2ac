import PyGridGain.Datatypes.FromPython

/-! Values without the caches of their Complex objects. The writers look at the caches of an
object in one place only, the fast path; whatever else they ask of a value is the same with
caches and without. -/

namespace PyGridGain

def ObjHead.uncached (head : ObjHead) : ObjHead := { head with buffer := none, hashcode := none }

namespace PyValue

/- The value without what its Complex objects keep cached. -/
mutual
def uncached : PyValue → PyValue
  | tuple xs => tuple (uncachedAll xs)
  | list xs => list (uncachedAll xs)
  | dict kvs => dict (uncachedPairs kvs)
  | hinted v t => hinted (uncached v) t
  | obj head fields => obj head.uncached (uncachedFields fields)
  | v => v
def uncachedAll : List PyValue → List PyValue
  | [] => []
  | x :: xs => uncached x :: uncachedAll xs
def uncachedPairs : List (PyValue × PyValue) → List (PyValue × PyValue)
  | [] => []
  | (k, v) :: kvs => (uncached k, uncached v) :: uncachedPairs kvs
def uncachedFields : List (PyStr × DataType × PyValue) → List (PyStr × DataType × PyValue)
  | [] => []
  | (name, t, v) :: fields => (name, t, uncached v) :: uncachedFields fields
end

@[simp] theorem uncachedAll_eq (xs : List PyValue) : uncachedAll xs = xs.map uncached := by
  induction xs with
  | nil => rfl
  | cons x xs ih => rw [uncachedAll, ih, List.map_cons]

@[simp] theorem uncachedPairs_eq (kvs : List (PyValue × PyValue)) :
    uncachedPairs kvs = kvs.map fun p => (p.1.uncached, p.2.uncached) := by
  induction kvs with
  | nil => rfl
  | cons p kvs ih => rw [uncachedPairs, ih, List.map_cons]

@[simp] theorem uncachedFields_eq (fields : List (PyStr × DataType × PyValue)) :
    uncachedFields fields = fields.map fun f => (f.1, f.2.1, f.2.2.uncached) := by
  induction fields with
  | nil => rfl
  | cons f fields ih => rw [uncachedFields, ih, List.map_cons]

mutual
theorem uncached_uncached : ∀ v : PyValue, v.uncached.uncached = v.uncached
  | tuple xs => by simp only [uncached, uncachedAll_uncachedAll xs]
  | list xs => by simp only [uncached, uncachedAll_uncachedAll xs]
  | dict kvs => by simp only [uncached, uncachedPairs_uncachedPairs kvs]
  | hinted v t => by simp only [uncached, uncached_uncached v]
  | obj head fields => by
    simp only [uncached, uncachedFields_uncachedFields fields, ObjHead.uncached]
  | none | bool _ | int _ | float _ | decimal .. | str _ | bytes _ | uuid _ | datetime _
  | timedelta _ => rfl
theorem uncachedAll_uncachedAll : ∀ xs, uncachedAll (uncachedAll xs) = uncachedAll xs
  | [] => rfl
  | x :: xs => by rw [uncachedAll, uncachedAll, uncached_uncached x, uncachedAll_uncachedAll xs]
theorem uncachedPairs_uncachedPairs :
    ∀ kvs, uncachedPairs (uncachedPairs kvs) = uncachedPairs kvs
  | [] => rfl
  | (k, v) :: kvs => by
    rw [uncachedPairs, uncachedPairs, uncached_uncached k, uncached_uncached v,
      uncachedPairs_uncachedPairs kvs]
theorem uncachedFields_uncachedFields :
    ∀ fields, uncachedFields (uncachedFields fields) = uncachedFields fields
  | [] => rfl
  | (_, _, v) :: fields => by
    rw [uncachedFields, uncachedFields, uncached_uncached v, uncachedFields_uncachedFields fields]
end

mutual
theorem hashKey_uncached : ∀ v : PyValue, v.uncached.hashKey = v.hashKey
  | tuple xs => by simp only [uncached, hashKey, hashKeys_uncachedAll xs]
  | list _ | dict _ | obj .. => by simp only [uncached, hashKey]
  | hinted v t => by simp only [uncached, hashKey, hashKey_uncached v]
  | none | bool _ | int _ | float _ | decimal .. | str _ | bytes _ | uuid _ | datetime _
  | timedelta _ => rfl
theorem hashKeys_uncachedAll : ∀ xs, hashKeys (uncachedAll xs) = hashKeys xs
  | [] => rfl
  | x :: xs => by
    rw [uncachedAll, hashKeys, hashKeys, hashKey_uncached x, hashKeys_uncachedAll xs]
end

mutual
theorem depth_uncached : ∀ v : PyValue, v.uncached.depth = v.depth
  | tuple xs => by simp only [uncached, depth, depthList_uncachedAll xs]
  | list xs => by simp only [uncached, depth, depthList_uncachedAll xs]
  | dict kvs => by simp only [uncached, depth, depthPairs_uncachedPairs kvs]
  | hinted v t => by simp only [uncached, depth, depth_uncached v]
  | obj head fields => by simp only [uncached, depth, depthFields_uncachedFields fields]
  | none | bool _ | int _ | float _ | decimal .. | str _ | bytes _ | uuid _ | datetime _
  | timedelta _ => rfl
theorem depthList_uncachedAll : ∀ xs, depthList (uncachedAll xs) = depthList xs
  | [] => rfl
  | x :: xs => by
    rw [uncachedAll, depthList, depthList, depth_uncached x, depthList_uncachedAll xs]
theorem depthPairs_uncachedPairs : ∀ kvs, depthPairs (uncachedPairs kvs) = depthPairs kvs
  | [] => rfl
  | (k, v) :: kvs => by
    rw [uncachedPairs, depthPairs, depthPairs, depth_uncached k, depth_uncached v,
      depthPairs_uncachedPairs kvs]
theorem depthFields_uncachedFields :
    ∀ fields, depthFields (uncachedFields fields) = depthFields fields
  | [] => rfl
  | (_, _, v) :: fields => by
    rw [uncachedFields, depthFields, depthFields, depth_uncached v,
      depthFields_uncachedFields fields]
end

attribute [simp] uncached_uncached hashKey_uncached depth_uncached

section Looks
variable (v : PyValue)

@[simp] theorem pyType_uncached : v.uncached.pyType = v.pyType := by
  cases v <;> simp only [uncached] <;> rfl

@[simp] theorem isInstance_uncached (t : PyType) : v.uncached.isInstance t = v.isInstance t := by
  rw [isInstance, isInstance, pyType_uncached]

@[simp] theorem toInt?_uncached : v.uncached.toInt? = v.toInt? := by
  cases v <;> simp only [uncached] <;> rfl

@[simp] theorem truthy_uncached : v.uncached.truthy = v.truthy := by
  cases v <;> simp [uncached, truthy]

@[simp] theorem iterate_uncached : v.uncached.iterate = v.iterate.map (List.map uncached) := by
  cases v <;> simp [uncached, PyValue.iterate, Function.comp_def]

@[simp] theorem contents_uncached : v.uncached.contents = v.contents.map uncached := by
  unfold contents
  rw [iterate_uncached]
  cases v.iterate <;> rfl

@[simp] theorem unpack2_uncached :
    v.uncached.unpack2 = v.unpack2.map fun p => (p.1.uncached, p.2.uncached) := by
  unfold unpack2
  rw [iterate_uncached]
  rcases v.iterate with _ | (_ | ⟨a, _ | ⟨b, _ | ⟨c, xs⟩⟩⟩) <;> rfl

theorem getItem_uncached (i : ℕ) : v.uncached.getItem i = (v.getItem i).map uncached := by
  have hcontents : (∀ kvs, v ≠ dict kvs) → (∀ kvs, v.uncached ≠ dict kvs) →
      v.uncached.getItem i = (v.getItem i).map uncached := by
    intro hv hv'
    rw [getItem_eq_elim hv, getItem_eq_elim hv', contents_uncached, List.getElem?_map]
    cases v.contents[i]? <;> rfl
  cases v with
  | dict kvs =>
    simp only [uncached, uncachedPairs_eq, getItem, List.find?_map, Function.comp_def,
      hashKey_uncached]
    cases kvs.find? fun p => p.1.hashKey == some (.number i) <;> rfl
  | _ => exact hcontents (by simp) (by simp [uncached])

theorem getSubtype_uncached (xs : List PyValue) :
    getSubtype (xs.map uncached) = getSubtype xs := by
  unfold getSubtype
  rw [List.dropWhile_map]
  simp only [Function.comp_def, pyType_uncached]
  cases xs.dropWhile fun x => x.pyType == .noneType with
  | nil => rfl
  | cons x rest => simp [List.all_map, Function.comp_def]

/-- The inference of a class for a value that is no Complex object. -/
theorem mapPythonType_other (hobj : ∀ head fields, v ≠ obj head fields) :
    v.mapPythonType = (do
      if let some t := pythonMap v.pyType then return t
      let some xs := v.iterate | raise .typeError "Type is invalid."
      let subtype ← getSubtype xs
      if let some t := subtype.bind pythonArrayMap then return t
      let first ← v.getItem 0
      let second ← v.getItem 1
      if subtype.isSome || xs.length != 2 || !first.isInstance .int then
        raise .typeError "Type `array of` is invalid"
      else if second.pyType == .dict then return .mapObject
      else if second.iterate.isSome then return .collectionObject
      else raise .typeError "Type `array of` is invalid") := by
  cases v with
  | obj head fields => exact absurd rfl (hobj head fields)
  | _ => rfl

theorem mapPythonType_uncached : v.uncached.mapPythonType = v.mapPythonType := by
  by_cases hobj : ∃ head fields, v = obj head fields
  · obtain ⟨head, fields, rfl⟩ := hobj
    rfl
  · have hv : ∀ head fields, v ≠ obj head fields := fun head fields h => hobj ⟨head, fields, h⟩
    have hu : ∀ head fields, v.uncached ≠ obj head fields := by
      intro head fields h
      have htype := pyType_uncached v
      rw [h] at htype
      cases v with
      | obj head fields => exact hv head fields rfl
      | _ => cases htype
    rw [mapPythonType_other _ hv, mapPythonType_other _ hu, pyType_uncached, iterate_uncached,
      getItem_uncached, getItem_uncached]
    cases v.iterate with
    | none => rfl
    | some xs =>
      simp only [Option.map_some, getSubtype_uncached, List.length_map]
      cases v.getItem 0 with
      | error e => rfl
      | ok first =>
        cases v.getItem 1 with
        | error e => rfl
        | ok second => simp [Except.map, bind, Except.bind]

end Looks

/-- Equal up to caches. -/
def Alike (v w : PyValue) : Prop := v.uncached = w.uncached

namespace Alike
variable {v w : PyValue}

theorem refl (v : PyValue) : v.Alike v := rfl

theorem symm (h : v.Alike w) : w.Alike v := Eq.symm h

theorem toInt? (h : v.Alike w) : v.toInt? = w.toInt? := by
  rw [← toInt?_uncached v, h, toInt?_uncached]

theorem depth (h : v.Alike w) : v.depth = w.depth := by
  rw [← depth_uncached v, h, depth_uncached]

theorem mapPythonType (h : v.Alike w) : v.mapPythonType = w.mapPythonType := by
  rw [← mapPythonType_uncached v, h, mapPythonType_uncached]

theorem of_map_eq {xs ys : List PyValue} (h : xs.map uncached = ys.map uncached) :
    List.Forall₂ Alike xs ys := by
  rw [← List.forall₂_eq_eq_eq, List.forall₂_map_left_iff, List.forall₂_map_right_iff] at h
  exact h

theorem contents (h : v.Alike w) : List.Forall₂ Alike v.contents w.contents := by
  apply of_map_eq
  rw [← contents_uncached, h, contents_uncached]

theorem iterate (h : v.Alike w) : Option.Rel (List.Forall₂ Alike) v.iterate w.iterate := by
  have hmap : v.iterate.map (List.map uncached) = w.iterate.map (List.map uncached) := by
    rw [← iterate_uncached, h, iterate_uncached]
  cases hv : v.iterate with
  | none =>
    cases hw : w.iterate with
    | none => exact .none
    | some ys => simp [hv, hw] at hmap
  | some xs =>
    cases hw : w.iterate with
    | none => simp [hv, hw] at hmap
    | some ys =>
      rw [hv, hw] at hmap
      exact .some (of_map_eq (Option.some.inj hmap))

theorem unpack2 (h : v.Alike w) :
    Option.Rel (fun p q => p.1.Alike q.1 ∧ p.2.Alike q.2) v.unpack2 w.unpack2 := by
  have hmap : v.unpack2.map (fun p => (p.1.uncached, p.2.uncached)) =
      w.unpack2.map fun p => (p.1.uncached, p.2.uncached) := by
    rw [← unpack2_uncached, h, unpack2_uncached]
  cases hv : v.unpack2 with
  | none =>
    cases hw : w.unpack2 with
    | none => exact .none
    | some q => simp [hv, hw] at hmap
  | some p =>
    cases hw : w.unpack2 with
    | none => simp [hv, hw] at hmap
    | some q =>
      rw [hv, hw] at hmap
      obtain ⟨hfst, hsnd⟩ := Prod.mk.inj (Option.some.inj hmap)
      exact .some ⟨hfst, hsnd⟩

theorem none (h : PyValue.none.Alike w) : w = .none := by
  cases w <;> simp [Alike, uncached] at h ⊢

/-- A dict is alike to dicts only. -/
theorem dict {kvs : List (PyValue × PyValue)} (h : (PyValue.dict kvs).Alike w) :
    ∃ kvs', w = .dict kvs' ∧ List.Forall₂ (fun p q => p.1.Alike q.1 ∧ p.2.Alike q.2) kvs kvs' := by
  cases w with
  | dict kvs' =>
    refine ⟨kvs', rfl, ?_⟩
    simp only [Alike, uncached, uncachedPairs_eq, PyValue.dict.injEq] at h
    rw [← List.forall₂_eq_eq_eq, List.forall₂_map_left_iff, List.forall₂_map_right_iff] at h
    exact h.imp fun p q hpq => Prod.mk.inj hpq
  | _ => simp [Alike, uncached] at h

theorem hinted {t : DataType} (h : (PyValue.hinted v t).Alike w) :
    ∃ w', w = .hinted w' t ∧ v.Alike w' := by
  cases w with
  | hinted w' t' =>
    simp only [Alike, uncached, PyValue.hinted.injEq] at h
    obtain ⟨hv, rfl⟩ := h
    exact ⟨w', rfl, hv⟩
  | _ => simp [Alike, uncached] at h

/-- The fields of alike objects: names and types are the same. -/
abbrev Fields (fields fields' : List (PyStr × DataType × PyValue)) : Prop :=
  List.Forall₂ (fun f g => f.1 = g.1 ∧ f.2.1 = g.2.1 ∧ f.2.2.Alike g.2.2) fields fields'

theorem fields_iff {fields fields' : List (PyStr × DataType × PyValue)} :
    Fields fields fields' ↔ uncachedFields fields = uncachedFields fields' := by
  rw [uncachedFields_eq, uncachedFields_eq, ← List.forall₂_eq_eq_eq,
    List.forall₂_map_left_iff, List.forall₂_map_right_iff]
  simp only [Prod.mk.injEq]
  exact Iff.rfl

theorem obj {head : ObjHead} {fields : List (PyStr × DataType × PyValue)}
    (h : (PyValue.obj head fields).Alike w) :
    ∃ head' fields', w = .obj head' fields' ∧ head.uncached = head'.uncached ∧
      Fields fields fields' := by
  cases w with
  | obj head' fields' =>
    simp only [Alike, uncached, PyValue.obj.injEq] at h
    exact ⟨head', fields', rfl, h.1, fields_iff.mpr h.2⟩
  | _ => simp [Alike, uncached] at h

end Alike

end PyValue

end PyGridGain
