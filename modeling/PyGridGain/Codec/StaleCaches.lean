import PyGridGain.Codec.FreshWrites
import PyGridGain.Datatypes.Attributes
import PyGridGain.Lib.Runs

/-! The cached representation and hash code of a Complex object while it is changed, hashed
and written. `_setattr` drops the caches of the object it is called on, so they go stale
where an object changes otherwise: they are never stale in runs in which no object that
holds the changed one has its caches filled. -/

namespace PyGridGain

open StreamM PyValue

/-- The hash code in the header of the object that stands at `pos`. -/
def hashAt (buf : Bytes) (pos : ℕ) : ℤ := Scalar.int.load (sliceAt buf (pos + 8) 4)

section Model
variable [Python] [OtherCodecs]

def PyValue.cachedHash : PyValue → Option ℤ
  | .obj head _ => head.hashcode
  | _ => Option.none

/-- `BinaryObject.hashcode` with a client: the hash code, and the object after the call. -/
def binaryHashcode (client : Client) (value : PyValue) : Except PyError (Option ℤ × PyValue) :=
  match value with
  | .obj head fields =>
    if head.hashed then .ok (head.hashcode, value)
    else (objectFromPython true head fields ⟨client, [], 0, false⟩).map fun r =>
      (r.1.cachedHash, r.1)
  | _ => raise .attributeError

/-- `_from_python` of an object with the field values of `value` and nothing cached. -/
def freshFromPython (value : PyValue) : StreamM PyValue :=
  match value.uncached with
  | .obj head fields => objectFromPython false head fields
  | _ => StreamM.raise .attributeError

/-- What is done to an object, and to the objects it holds. -/
inductive CacheStep
  | setField (oid : ℕ) (attrName : PyStr) (attrValue : PyValue)
  | setVersion (oid : ℕ) (attrValue : ℤ)
  | mutate (oid : ℕ) (name : PyStr) (value : PyValue)
  | hashcode (client : Client)
  | serialize (stream : BinaryStream)

/-- Where a call raises, no more than hash codes of held objects may have been cached, and
these nothing here looks at. -/
def cacheStep (v : PyValue) : CacheStep → Option PyValue
  | .setField oid attrName attrValue => some (mapObj oid (setField attrName attrValue) v)
  | .setVersion oid attrValue => some (mapObj oid (setVersion attrValue) v)
  | .mutate oid name value => some (mapObj oid (mutate name value) v)
  | .hashcode client =>
    match binaryHashcode client v with
    | .ok r => some r.2
    | .error _ => some v
  | .serialize stream =>
    match fromPython .binaryObject v stream with
    | .ok r => some r.1
    | .error _ => some v

/-- The stream is left with the content `buf`, at `pos`. -/
def Leaves (m : StreamM PyValue) (s : BinaryStream) (buf : Bytes) (pos : ℕ) : Prop :=
  ∃ v t, m s = .ok (v, t) ∧ t.buf = buf ∧ t.pos = pos

/-- The stream does not reach 2 GiB. -/
def Small (m : StreamM PyValue) (s : BinaryStream) : Prop :=
  ∀ v t, m s = .ok (v, t) → t.buf.length < 2 ^ 31

/-- What `hashcode` would serialize does not reach 2 GiB. -/
def SmallHashed (client : Client) : PyValue → Prop
  | .obj head fields => Small (objectFromPython true head fields) ⟨client, [], 0, false⟩
  | _ => True

/-- `from_python` writes to a stream what a fresh `_from_python` would write, and `hashcode`
returns the hash code in those bytes, whatever stream they are written to. -/
structure NotStale (cf : Bool) (v : PyValue) : Prop where
  bytes : ∀ s buf pos, Usable cf s → buf.length < 2 ^ 31 →
    (Leaves (fromPython .binaryObject v) s buf pos ↔ Leaves (freshFromPython v) s buf pos)
  hash_ok : ∀ client buf pos, client.compactFooter = cf → buf.length < 2 ^ 31 →
    Leaves (freshFromPython v) ⟨client, [], 0, false⟩ buf pos →
    ∃ r, binaryHashcode client v = .ok r
  hash : ∀ client h w s buf pos, client.compactFooter = cf → SmallHashed client v →
    binaryHashcode client v = .ok (h, w) → Usable cf s → buf.length < 2 ^ 31 →
    Leaves (freshFromPython v) s buf pos → h = some (hashAt buf s.pos)

/-- The object changed is held by none that has its caches filled. -/
def Uncovered (oid : ℕ) (own : List PyStr → Bool) (v : PyValue) : Prop :=
  clearAbove oid own v ∧ ∀ head fields, v = .obj head fields → holdsFields oid fields →
    head.hashed = false

/-- When a step keeps the caches: values are assigned that carry no stale representation
themselves, the caches of the objects that hold the changed one are empty, and so are those of
the changed object itself, unless `_setattr` empties them. -/
def KeepsCaches (cf : Bool) (v : PyValue) : CacheStep → Prop
  | .setField oid attrName attrValue =>
    Fresh cf attrValue ∧ Uncovered oid (fun names => attrName ∉ names) v
  | .setVersion oid _ => Uncovered oid (fun names => versionName ∉ names) v
  | .mutate oid _ value => Fresh cf value ∧ Uncovered oid (fun _ => true) v ∧
      ∀ head fields, v = .obj head fields → head.oid = oid → head.hashed = false
  | .hashcode client => client.compactFooter = cf ∧ SmallHashed client v
  | .serialize stream => Usable cf stream ∧ Small (fromPython .binaryObject v) stream

end Model

/-! ### Changing an object -/

section Changes
variable [Python] [OtherCodecs] {cf : Bool} {oid : ℕ} {own : List PyStr → Bool}
  {f : ObjHead → List (PyStr × DataType × PyValue) → PyValue}

/-- What is done to the object itself leaves no stale representation. -/
def FreshChange (cf : Bool) (own : List PyStr → Bool)
    (f : ObjHead → List (PyStr × DataType × PyValue) → PyValue) : Prop :=
  ∀ head fields, FreshFields cf fields → (own (fieldNames fields) → head.cached = false) →
    Fresh cf (f head fields)

theorem fresh_of_not_cached {head : ObjHead} {fields : List (PyStr × DataType × PyValue)}
    (hcached : head.cached = false) (hf : FreshFields cf fields) : Fresh cf (.obj head fields) :=
  ⟨fun d hd hne => absurd (cached_eq_false.mp hcached d hd) hne, hf⟩

/- The induction goes over the value; at an object either it does not hold the changed one,
and stays as it is, or nothing is cached there. -/
mutual
theorem mapObj_fresh (hchange : FreshChange cf own f) :
    ∀ v : PyValue, Fresh cf v → clearAbove oid own v → Fresh cf (mapObj oid f v)
  | .tuple xs, hv, h => mapObjAll_fresh hchange xs hv h
  | .list xs, hv, h => mapObjAll_fresh hchange xs hv h
  | .dict kvs, hv, h => mapObjPairs_fresh hchange kvs hv h
  | .hinted v _, hv, h => mapObj_fresh hchange v hv h
  | .obj head fields, hv, h => by
    rw [clearAbove, Bool.and_eq_true, Bool.not_eq_true', Bool.and_eq_false_iff] at h
    obtain ⟨hcached, hclear⟩ := h
    have hfields := mapObjFields_fresh hchange fields hv.2 hclear
    rw [mapObj]
    split_ifs with hoid
    · refine hchange head _ hfields fun hown => ?_
      rw [fieldNames_mapObjFields] at hown
      simpa [hoid, hown] using hcached
    · rcases hcached with hcached | hholds
      · exact fresh_of_not_cached hcached hfields
      · rw [mapObjFields_of_not_holds fields (Bool.or_eq_false_iff.mp hholds).1]
        exact hv
  | .none, hv, _ | .bool _, hv, _ | .int _, hv, _ | .float _, hv, _ | .decimal .., hv, _
  | .str _, hv, _ | .bytes _, hv, _ | .uuid _, hv, _ | .datetime _, hv, _
  | .timedelta _, hv, _ => hv
theorem mapObjAll_fresh (hchange : FreshChange cf own f) :
    ∀ xs, FreshAll cf xs → clearAboveAll oid own xs → FreshAll cf (mapObjAll oid f xs)
  | [], _, _ => trivial
  | x :: xs, hxs, h => by
    rw [clearAboveAll, Bool.and_eq_true] at h
    exact ⟨mapObj_fresh hchange x hxs.1 h.1, mapObjAll_fresh hchange xs hxs.2 h.2⟩
theorem mapObjPairs_fresh (hchange : FreshChange cf own f) :
    ∀ kvs, FreshPairs cf kvs → clearAbovePairs oid own kvs → FreshPairs cf (mapObjPairs oid f kvs)
  | [], _, _ => trivial
  | (k, v) :: kvs, hkvs, h => by
    rw [clearAbovePairs, Bool.and_eq_true, Bool.and_eq_true] at h
    exact ⟨mapObj_fresh hchange k hkvs.1 h.1.1, mapObj_fresh hchange v hkvs.2.1 h.1.2,
      mapObjPairs_fresh hchange kvs hkvs.2.2 h.2⟩
theorem mapObjFields_fresh (hchange : FreshChange cf own f) :
    ∀ fields, FreshFields cf fields → clearAboveFields oid own fields →
      FreshFields cf (mapObjFields oid f fields)
  | [], _, _ => trivial
  | (_, _, v) :: fields, hfields, h => by
    rw [clearAboveFields, Bool.and_eq_true] at h
    exact ⟨mapObj_fresh hchange v hfields.1 h.1, mapObjFields_fresh hchange fields hfields.2 h.2⟩
end

theorem freshFields_assign {name : PyStr} {value : PyValue}
    {fields : List (PyStr × DataType × PyValue)} (hvalue : Fresh cf value)
    (hf : FreshFields cf fields) : FreshFields cf (assign name value fields) := by
  rw [freshFields_iff] at hf ⊢
  intro g hg
  obtain ⟨f, hmem, rfl⟩ := List.mem_map.mp hg
  split_ifs
  · exact hvalue
  · exact hf f hmem

theorem setField_freshChange {name : PyStr} {value : PyValue} (hvalue : Fresh cf value) :
    FreshChange cf (fun names => name ∉ names) (setField name value) := by
  intro head fields hf hown
  unfold setField
  split_ifs with hname
  · exact fresh_of_not_cached rfl (freshFields_assign hvalue hf)
  · exact fresh_of_not_cached (hown (by simpa using hname)) hf

theorem setVersion_freshChange (version : ℤ) :
    FreshChange cf (fun names => versionName ∉ names) (setVersion version) := by
  intro head fields hf hown
  unfold setVersion
  split_ifs with hname
  · have hvalue : Fresh cf (.int version) := trivial
    exact setField_freshChange hvalue head fields hf hown
  · exact fresh_of_not_cached (hown (by simpa using hname)) hf

theorem mutate_freshChange {name : PyStr} {value : PyValue} (hvalue : Fresh cf value) :
    FreshChange cf (fun _ => true) (mutate name value) := fun _ _ hf hown =>
  fresh_of_not_cached (hown rfl) (freshFields_assign hvalue hf)

end Changes

/-! ### Hashing and writing an object -/

theorem Header.load_hashCode {h : Header} {buf : Bytes} {pos : ℕ} (hat : At buf pos h.store)
    (hrange : Scalar.int.Range h.hashCode) : hashAt buf pos = h.hashCode := by
  have hstore : h.store = (DataType.binaryObject.typeCode :: (Scalar.byte.store h.version ++
      Scalar.short.store h.flags ++ Scalar.int.store h.typeId)) ++ (Scalar.int.store h.hashCode ++
      (Scalar.int.store h.length ++ Scalar.int.store h.schemaId ++
        Scalar.int.store h.schemaOffset)) := by
    simp [Header.store]
  rw [hstore] at hat
  have hslice := hat.right.left.slice
  simp only [List.length_cons, List.length_append, Scalar.store_length, Scalar.size] at hslice
  rw [hashAt, hslice, Scalar.load_store hrange]

section Roots
variable [Python] {cf : Bool} {head : ObjHead} {fields : List (PyStr × DataType × PyValue)}
  {chunks : List Bytes} {s t : BinaryStream}

theorem Wrote.hashAt_eq (h : Wrote s t (objectBytes cf head fields chunks)) :
    hashAt t.buf s.pos = hashcodeBytes chunks.flatten :=
  Header.load_hashCode h.at_pos.left (hashcodeBytes_range _)

/-- The version takes one byte whatever it is. -/
theorem objectBytes_length (version : ℤ) :
    (objectBytes cf { head with version } fields chunks).length =
      (objectBytes cf head fields chunks).length := by
  simp [objectBytes]

end Roots

theorem length_writeAt_eq {buf d d' : Bytes} {pos : ℕ} (h : d.length = d'.length) :
    (writeAt buf pos d).length = (writeAt buf pos d').length := by
  by_cases hd : d = []
  · obtain rfl := hd
    obtain rfl := List.length_eq_zero_iff.mp h.symm
    rfl
  · have hd' : d' ≠ [] := by
      rintro rfl
      exact hd (List.length_eq_zero_iff.mp h)
    rw [writeAt_of_ne hd, writeAt_of_ne hd']
    simp [h]

section Runs
variable [Python] [OtherCodecs] [PlacedCodecs] {cf : Bool} {head : ObjHead}
  {fields : List (PyStr × DataType × PyValue)} {s t : BinaryStream} {v : PyValue}

theorem recFollows {n n' depth : ℕ} (hn : n ≤ n') (hdepth : depth < n) :
    RecFollows cf depth (fromPythonN n) (fromPythonN n') := by
  intro t x y hxy hx hy hle
  exact fromPythonN_follows hn hxy hx hy (Or.inl (hle.trans_lt hdepth))

/-- `_from_python` of an object, and of the same fields with nothing cached. -/
theorem objectFromPython_wrote {save : Bool} (hf : FreshFields cf fields) (hs : Usable cf s)
    (hv : objectFromPython save head fields s = .ok (v, t)) (hsize : t.buf.length < 2 ^ 31) :
    ∃ chunks vs, v = .obj { head with
          buffer := if save then some (objectBytes cf head fields chunks) else head.buffer
          hashcode := some (hashcodeBytes chunks.flatten) } vs ∧
      List.Forall₂ (fun f g => f.1 = g.1 ∧ f.2.1 = g.2.1 ∧ Keeps cf f.2.2 g.2.2) fields vs ∧
      Wrote s t (objectBytes cf head fields chunks) ∧
      ∀ s' save' head', (∃ attrs, headerAttrs head' (uncachedFields fields) = .ok attrs) →
        Usable cf s' → (s'.buf = [] → s.buf = []) → ∃ v' t',
          objectFromPython save' head' (uncachedFields fields) s' = .ok (v', t') ∧
          Wrote s' t' (objectBytes cf head' (uncachedFields fields) chunks) := by
  have hfields : Alike.Fields fields (uncachedFields fields) := by
    rw [Alike.fields_iff, uncachedFields_uncachedFields]
  have hdepth : depthFields (uncachedFields fields) = depthFields fields :=
    depthFields_uncachedFields fields
  have hrec : RecFollows cf (depthFields fields) (fromPythonN (depthFields fields + 1))
      (fromPythonN (depthFields (uncachedFields fields) + 1)) :=
    recFollows (by rw [hdepth]) (Nat.lt_succ_self _)
  have hall := fieldsFollow hrec hfields hf (freshFields_uncached fields) le_rfl
  exact objFromPython_wrote hall hs hv hsize

/-- `h` is the hash code in what `_from_python` writes of the object with nothing cached. -/
def HashOf (cf : Bool) (h : ℤ) (head : ObjHead) (fields : List (PyStr × DataType × PyValue)) :
    Prop :=
  ∀ s v t, Usable cf s → objectFromPython false head.uncached (uncachedFields fields) s =
    .ok (v, t) → t.buf.length < 2 ^ 31 → hashAt t.buf s.pos = h

omit [PlacedCodecs] in
theorem headerAttrs_of_run {save : Bool}
    (hv : objectFromPython save head fields s = .ok (v, t)) :
    ∃ attrs, headerAttrs head.uncached (uncachedFields fields) = .ok attrs := by
  obtain ⟨attrs, -, -, hattrs, -⟩ := objFromPython_inv hv
  have halike : Alike.Fields fields (uncachedFields fields) := by
    rw [Alike.fields_iff, uncachedFields_uncachedFields]
  have hhead : head.uncached = head.uncached.uncached := rfl
  exact ⟨attrs, (headerAttrs_alike hhead halike).symm.trans hattrs⟩

omit [OtherCodecs] [PlacedCodecs] in
/-- Whether the header can be filled does not depend on the version that every object has. -/
theorem headerAttrs_of_version {version : ℤ}
    (h : ∃ attrs, headerAttrs { head with version } fields = .ok attrs) :
    ∃ attrs, headerAttrs head fields = .ok attrs := by
  obtain ⟨⟨i, j⟩, hattrs⟩ := h
  obtain ⟨hmethod, hversion, htypeId, hschema⟩ := headerAttrs_eq_ok.mp hattrs
  have hsome : ∃ i, (versionAttr head fields).toInt? = some i := by
    unfold versionAttr at hversion ⊢
    cases hfind : fields.find? fun f => f.1 == versionName with
    | none => exact ⟨head.version, rfl⟩
    | some f =>
      rw [hfind] at hversion
      exact ⟨i, hversion⟩
  obtain ⟨i', hi'⟩ := hsome
  exact ⟨(i', j), headerAttrs_eq_ok.mpr ⟨hmethod, hi', htypeId, hschema⟩⟩

/-- The hash code that `_from_python` caches. Runs on an empty stream and on others are
compared on a third one that is not empty. -/
theorem objectFromPython_hashOf {save : Bool} (hf : FreshFields cf fields) (hs : Usable cf s)
    (hv : objectFromPython save head fields s = .ok (v, t)) (hsize : t.buf.length < 2 ^ 31) :
    ∀ h ∈ v.cachedHash, HashOf cf h head fields := by
  obtain ⟨chunks, vs, rfl, -, -, hsame⟩ := objectFromPython_wrote hf hs hv hsize
  intro h hh s' v' t' hs' hv' hsize'
  obtain rfl : hashcodeBytes chunks.flatten = h := Option.some.inj hh
  have hattrs := headerAttrs_of_run hv
  obtain ⟨chunks', -, -, -, hwrote, hsame'⟩ :=
    objectFromPython_wrote (freshFields_uncached fields) hs' hv' hsize'
  rw [uncachedFields_uncachedFields] at hsame'
  let third : BinaryStream := ⟨s.client, [0], 0, false⟩
  have hthird : Usable cf third := ⟨hs.footer, rfl⟩
  obtain ⟨w, u, hu, hwrote₁⟩ := hsame third false head.uncached hattrs hthird (by simp [third])
  obtain ⟨w', u', hu', hwrote₂⟩ :=
    hsame' third false head.uncached hattrs hthird (by simp [third])
  obtain ⟨rfl, rfl⟩ := Prod.mk.inj (Except.ok.inj (hu.symm.trans hu'))
  rw [hwrote.hashAt_eq, ← hwrote₂.hashAt_eq, hwrote₁.hashAt_eq]

/-- The hash code is that of the fields. -/
theorem HashOf.setVersion {h : ℤ} (hhash : HashOf cf h head fields) (version : ℤ) :
    HashOf cf h { head with version } fields := by
  intro s v t hs hv hsize
  have hattrs : ∃ attrs, headerAttrs head.uncached (uncachedFields fields) = .ok attrs := by
    have hnew := headerAttrs_of_run hv
    rw [uncachedFields_uncachedFields] at hnew
    exact headerAttrs_of_version hnew
  obtain ⟨chunks, -, -, -, hwrote, hsame⟩ :=
    objectFromPython_wrote (freshFields_uncached fields) hs hv hsize
  rw [uncachedFields_uncachedFields] at hsame
  obtain ⟨w, u, hu, hwrote'⟩ := hsame s false head.uncached hattrs hs fun hnil => hnil
  have hlen : u.buf.length = t.buf.length := by
    rw [hwrote.buf, hwrote'.buf]
    exact length_writeAt_eq (objectBytes_length version).symm
  rw [hwrote.hashAt_eq, ← hwrote'.hashAt_eq]
  exact hhash s w u hs hu (by rwa [hlen])

/-- An object whose caches are what would be computed now: its representation and those of the
objects it holds, and its own hash code. -/
structure Current (cf : Bool) (head : ObjHead) (fields : List (PyStr × DataType × PyValue)) :
    Prop where
  fresh : Fresh cf (.obj head fields)
  hash : ∀ h ∈ head.hashcode, h ≠ 0 → HashOf cf h head fields

omit [PlacedCodecs] in
theorem HashOf.alike {h : ℤ} {head' : ObjHead} {fields' : List (PyStr × DataType × PyValue)}
    (hhash : HashOf cf h head fields) (hhead : head'.uncached = head.uncached)
    (hfields : uncachedFields fields' = uncachedFields fields) : HashOf cf h head' fields' := by
  unfold HashOf
  rw [hhead, hfields]
  exact hhash

/-- `_from_python` without `save_to_buf` leaves the representation as it was. -/
theorem objectFromPython_current (hf : FreshFields cf fields) (hs : Usable cf s)
    (hbuffer : ∀ d ∈ head.buffer, d = [])
    (hv : objectFromPython false head fields s = .ok (v, t)) (hsize : t.buf.length < 2 ^ 31) :
    ∃ head' fields', v = .obj head' fields' ∧ Current cf head' fields' := by
  have hhash := objectFromPython_hashOf hf hs hv hsize
  obtain ⟨chunks, vs, rfl, hvs, -, -⟩ := objectFromPython_wrote hf hs hv hsize
  obtain ⟨hfields, hfresh⟩ := keeps_fields hvs
  refine ⟨_, vs, rfl, ⟨fun d hd hne => absurd (hbuffer d hd) hne, hfresh⟩, fun h hh _ => ?_⟩
  exact (hhash h hh).alike rfl (Alike.fields_iff.mp hfields)

/-- With `save_to_buf` it saves what it has written. -/
theorem objectFromPython_save_current {client : Client} (hf : FreshFields cf fields)
    (hclient : client.compactFooter = cf)
    (hv : objectFromPython true head fields ⟨client, [], 0, false⟩ = .ok (v, t))
    (hsize : t.buf.length < 2 ^ 31) :
    ∃ head' fields', v = .obj head' fields' ∧ Current cf head' fields' := by
  have hs : Usable cf ⟨client, [], 0, false⟩ := ⟨hclient, rfl⟩
  have hhash := objectFromPython_hashOf hf hs hv hsize
  obtain ⟨chunks, vs, rfl, hvs, hwrote, hsame⟩ := objectFromPython_wrote hf hs hv hsize
  obtain ⟨hfields, hfresh⟩ := keeps_fields hvs
  have hfields' := Alike.fields_iff.mp hfields
  refine ⟨_, vs, rfl, ⟨fun d hd _ => ?_, hfresh⟩, fun h hh _ => (hhash h hh).alike rfl hfields'⟩
  obtain rfl : objectBytes cf head fields chunks = d := Option.some.inj hd
  obtain ⟨w, u, hu, hwrote'⟩ := hsame _ false head.uncached (headerAttrs_of_run hv) hs id
  have hbytes : objectBytes cf head.uncached (uncachedFields fields) chunks =
      objectBytes cf head fields chunks := by
    apply objectBytes_alike rfl
    rw [Alike.fields_iff, uncachedFields_uncachedFields]
  rw [hbytes] at hwrote'
  refine ⟨client, w, u, hclient, ?_, ?_, (hwrote.length_data_le).trans_lt hsize⟩
  · rw [hfields']
    exact hu
  · rw [hwrote'.buf]
    simp [writeAt]

/-! ### Runs -/

theorem binaryHashcode_current {client : Client} {r : Option ℤ × PyValue}
    (h : Current cf head fields) (hclient : client.compactFooter = cf)
    (hsmall : SmallHashed client (.obj head fields))
    (hr : binaryHashcode client (.obj head fields) = .ok r) :
    ∃ head' fields', r.2 = .obj head' fields' ∧ Current cf head' fields' := by
  unfold binaryHashcode at hr
  dsimp only at hr
  split_ifs at hr
  · obtain rfl := Except.ok.inj hr
    exact ⟨head, fields, rfl, h⟩
  · cases hrun : objectFromPython true head fields ⟨client, [], 0, false⟩ with
    | error e =>
      rw [hrun] at hr
      cases hr
    | ok q =>
      rw [hrun] at hr
      obtain rfl := Except.ok.inj hr
      exact objectFromPython_save_current h.fresh.2 hclient hrun (hsmall _ _ hrun)

omit [PlacedCodecs] in
theorem fromPython_obj (head : ObjHead) (fields : List (PyStr × DataType × PyValue)) :
    fromPython .binaryObject (.obj head fields) =
      binaryFromPython (fromPythonN (depthFields fields + 1)) (.obj head fields) := by
  rfl

theorem serialize_current (h : Current cf head fields) (hs : Usable cf s)
    (hv : fromPython .binaryObject (.obj head fields) s = .ok (v, t))
    (hsize : t.buf.length < 2 ^ 31) :
    ∃ head' fields', v = .obj head' fields' ∧ Current cf head' fields' := by
  rw [fromPython_obj] at hv
  rcases cached_or_not head with ⟨d, hd, hne⟩ | hslow
  · rw [binaryFromPython_fast hd hne, bind_ok (write_ok hs.emptyView d)] at hv
    obtain ⟨rfl, rfl⟩ := Prod.mk.inj (Except.ok.inj hv)
    exact ⟨head, fields, rfl, h⟩
  · rw [binaryFromPython_slow hslow] at hv
    obtain ⟨u, hu, hnil⟩ := registerBinaryType_wrote (classOf head fields) s
    rw [bind_ok hu] at hv
    exact objectFromPython_current h.fresh.2 (hnil.usable hs) hslow hv hsize

/-! ### Nothing is stale -/

omit [Python] [OtherCodecs] [PlacedCodecs] in
theorem Follows.leaves {G : PyValue → Prop} {m m' : StreamM PyValue} {buf : Bytes} {pos : ℕ}
    (h : Follows cf G m m') (hs : Usable cf s) (hsize : buf.length < 2 ^ 31)
    (hm : Leaves m s buf pos) : Leaves m' s buf pos := by
  obtain ⟨v, t, ht, rfl, rfl⟩ := hm
  obtain ⟨-, d, hd, hfollow⟩ := h.follows s v t hs ht hsize
  obtain ⟨v', t', ht', hd'⟩ := hfollow s hs id
  exact ⟨v', t', ht', by rw [hd'.buf, hd.buf], by rw [hd'.pos, hd.pos]⟩

omit [PlacedCodecs] in
theorem freshFromPython_obj (head : ObjHead) (fields : List (PyStr × DataType × PyValue)) :
    freshFromPython (.obj head fields) =
      objectFromPython false head.uncached (uncachedFields fields) := by
  rw [freshFromPython, PyValue.uncached]

/-- `_from_python` of the fields with nothing cached is followed by that of the object. -/
theorem freshFromPython_follows (head : ObjHead) (hf : FreshFields cf fields) (save : Bool) :
    Follows cf (fun _ => True) (freshFromPython (.obj head fields))
      (objectFromPython save head fields) := by
  have hhead : head.uncached.uncached = head.uncached := rfl
  have hfields : Alike.Fields (uncachedFields fields) fields := by
    rw [Alike.fields_iff, uncachedFields_uncachedFields]
  have hdepth : depthFields (uncachedFields fields) = depthFields fields :=
    depthFields_uncachedFields fields
  have hrec : RecFollows cf (depthFields (uncachedFields fields))
      (fromPythonN (depthFields (uncachedFields fields) + 1))
      (fromPythonN (depthFields fields + 1)) :=
    recFollows (by rw [hdepth]) (Nat.lt_succ_self _)
  have hall := fieldsFollow hrec hfields (freshFields_uncached fields) hf le_rfl
  have hbuffer : ∀ d ∈ head.uncached.buffer, d = [] := by rintro d ⟨⟩
  have hfollow := objFromPython_follows_obj save hhead hfields hbuffer hall
  rw [freshFromPython_obj, objectFromPython, objectFromPython]
  exact hfollow.mono fun _ _ => trivial

omit [PlacedCodecs] in
theorem fromPython_uncached (head : ObjHead) (fields : List (PyStr × DataType × PyValue)) :
    fromPython .binaryObject (PyValue.obj head fields).uncached =
      (do registerBinaryType (classOf head.uncached (uncachedFields fields))
          freshFromPython (.obj head fields)) := by
  have hbuffer : ∀ d ∈ head.uncached.buffer, d = [] := by rintro d ⟨⟩
  rw [PyValue.uncached, fromPython_obj, binaryFromPython_slow hbuffer, freshFromPython_obj]
  rfl

/-- Writing an object and `_from_python` of its fields follow each other. -/
theorem fromPython_follows (h : Fresh cf (.obj head fields)) :
    Follows cf (fun _ => True) (fromPython .binaryObject (.obj head fields))
        (freshFromPython (.obj head fields)) ∧
      Follows cf (fun _ => True) (freshFromPython (.obj head fields))
        (fromPython .binaryObject (.obj head fields)) := by
  have halike : (PyValue.obj head fields).Alike (PyValue.obj head fields).uncached :=
    (uncached_uncached _).symm
  have hdepth := halike.depth
  have hself : Follows cf (fun _ => True) (freshFromPython (.obj head fields))
      (freshFromPython (.obj head fields)) := by
    have hf : FreshFields cf (uncachedFields fields) := freshFields_uncached fields
    have hfollow := freshFromPython_follows head.uncached hf false
    rw [freshFromPython_obj, uncachedFields_uncachedFields] at hfollow
    rwa [freshFromPython_obj]
  have hregister := registerBinaryType_wrote (classOf head.uncached (uncachedFields fields))
  have hnothing : ∀ s, ∃ t, (pure () : StreamM Unit) s = .ok ((), t) ∧ Wrote s t [] := fun s =>
    ⟨s, rfl, Wrote.refl s⟩
  have hpure : freshFromPython (.obj head fields) =
      (pure () >>= fun _ : Unit => freshFromPython (.obj head fields)) := (pure_bind _ _).symm
  constructor
  · have hfrom : Follows cf (fun _ => True) (fromPython .binaryObject (.obj head fields))
        (fromPython .binaryObject (PyValue.obj head fields).uncached) :=
      (fromPythonN_follows (Nat.succ_le_succ hdepth.le) halike h (fresh_uncached _)
        (Or.inl (Nat.lt_succ_self _))).mono fun _ _ => trivial
    apply hfrom.trans
    rw [fromPython_uncached, hpure]
    exact (Follows.silent hregister hnothing).bind fun _ _ => hself.mono fun _ _ _ => trivial
  · have hto : Follows cf (fun _ => True)
        (fromPython .binaryObject (PyValue.obj head fields).uncached)
        (fromPython .binaryObject (.obj head fields)) :=
      (fromPythonN_follows (Nat.succ_le_succ hdepth.ge) halike.symm (fresh_uncached _) h
        (Or.inl (Nat.lt_succ_self _))).mono fun _ _ => trivial
    refine Follows.trans ?_ hto
    rw [fromPython_uncached, hpure]
    exact (Follows.silent hnothing hregister).bind fun _ _ => hself.mono fun _ _ _ => trivial

theorem Current.notStale (h : Current cf head fields) : NotStale cf (.obj head fields) := by
  obtain ⟨hfrom, hto⟩ := fromPython_follows h.fresh
  refine ⟨fun s buf pos hs hsize => ⟨hfrom.leaves hs hsize, hto.leaves hs hsize⟩, ?_, ?_⟩
  · intro client buf pos hclient hsize hleaves
    have hs : Usable cf ⟨client, [], 0, false⟩ := ⟨hclient, rfl⟩
    obtain ⟨v, t, ht, -⟩ := (freshFromPython_follows head h.fresh.2 true).leaves hs hsize hleaves
    unfold binaryHashcode
    dsimp only
    split_ifs
    · exact ⟨_, rfl⟩
    · rw [ht]
      exact ⟨_, rfl⟩
  · rintro client hash w s - - hclient hsmall hhash hs hsize ⟨v, t, ht, rfl, rfl⟩
    rw [freshFromPython_obj] at ht
    unfold binaryHashcode at hhash
    dsimp only at hhash
    split_ifs at hhash with hhashed
    · obtain ⟨rfl, -⟩ := Prod.mk.inj (Except.ok.inj hhash)
      unfold ObjHead.hashed at hhashed
      split at hhashed
      · next h' heq =>
        rw [h.hash h' heq (by simpa using hhashed) s v t hs ht hsize]
        exact heq
      · cases hhashed
    · cases hrun : objectFromPython true head fields ⟨client, [], 0, false⟩ with
      | error e =>
        rw [hrun] at hhash
        cases hhash
      | ok r =>
        obtain ⟨v', t'⟩ := r
        rw [hrun] at hhash
        obtain ⟨rfl, rfl⟩ := Prod.mk.inj (Except.ok.inj hhash)
        have hnew : Usable cf ⟨client, [], 0, false⟩ := ⟨hclient, rfl⟩
        have hsize' := hsmall v' t' hrun
        have hall := objectFromPython_hashOf h.fresh.2 hnew hrun hsize'
        obtain ⟨chunks, vs, rfl, -⟩ := objectFromPython_wrote h.fresh.2 hnew hrun hsize'
        rw [hall _ rfl s v t hs ht hsize]
        rfl

/-! ### Every run -/

/-- What a change does to the hash code of the object itself. -/
structure HashChange (cf : Bool) (f : ObjHead → List (PyStr × DataType × PyValue) → PyValue)
    (head : ObjHead) (fields : List (PyStr × DataType × PyValue)) : Prop where
  obj : ∀ fields', ∃ head' fields'', f head fields' = .obj head' fields'' ∧
    (head.hashed = false → head'.hashed = false)
  hash : (∀ h ∈ head.hashcode, h ≠ 0 → HashOf cf h head fields) →
    ∀ head' fields', f head fields = .obj head' fields' →
      ∀ h ∈ head'.hashcode, h ≠ 0 → HashOf cf h head' fields'

variable {oid : ℕ} {own : List PyStr → Bool}
  {f : ObjHead → List (PyStr × DataType × PyValue) → PyValue}

omit [PlacedCodecs] in
theorem mapObj_current (h : Current cf head fields) (hchange : FreshChange cf own f)
    (hhash : head.oid = oid → HashChange cf f head fields)
    (hclear : Uncovered oid own (.obj head fields)) :
    ∃ head' fields', mapObj oid f (.obj head fields) = .obj head' fields' ∧
      Current cf head' fields' := by
  obtain ⟨hclear, hheld⟩ := hclear
  have hfresh := mapObj_fresh hchange _ h.fresh hclear
  have hnone : ∀ {head' : ObjHead} {fields'}, head'.hashed = false →
      ∀ h ∈ head'.hashcode, h ≠ 0 → HashOf cf h head' fields' := fun hno h hh hne =>
    absurd (hashed_eq_false.mp hno h hh) hne
  rw [mapObj] at hfresh ⊢
  split_ifs at hfresh ⊢ with hoid
  · obtain ⟨hobj, hhash⟩ := hhash hoid
    obtain ⟨head', fields', heq, hkeep⟩ := hobj (mapObjFields oid f fields)
    rw [heq] at hfresh ⊢
    refine ⟨head', fields', rfl, hfresh, ?_⟩
    cases hholds : holdsFields oid fields with
    | true => exact hnone (hkeep (hheld head fields rfl hholds))
    | false =>
      rw [mapObjFields_of_not_holds fields hholds] at heq
      exact hhash h.hash head' fields' heq
  · refine ⟨head, _, rfl, hfresh, ?_⟩
    cases hholds : holdsFields oid fields with
    | true => exact hnone (hheld head fields rfl hholds)
    | false =>
      rw [mapObjFields_of_not_holds fields hholds]
      exact h.hash

omit [PlacedCodecs] in
theorem setField_hashChange (name : PyStr) (value : PyValue) :
    HashChange cf (setField name value) head fields := by
  refine ⟨fun fields' => ?_, fun hhash head' fields' heq => ?_⟩
  · unfold setField
    split_ifs
    · exact ⟨_, _, rfl, fun _ => rfl⟩
    · exact ⟨_, _, rfl, id⟩
  · unfold setField at heq
    split_ifs at heq
    · obtain ⟨rfl, -⟩ := PyValue.obj.inj heq
      rintro h ⟨⟩
    · obtain ⟨rfl, rfl⟩ := PyValue.obj.inj heq
      exact hhash

theorem setVersion_hashChange (version : ℤ) : HashChange cf (setVersion version) head fields := by
  have hfield : HashChange cf (setField versionName (.int version)) head fields :=
    setField_hashChange versionName (.int version)
  refine ⟨fun fields' => ?_, fun hhash head' fields' heq => ?_⟩
  · unfold setVersion
    split_ifs
    · exact hfield.obj fields'
    · exact ⟨_, _, rfl, id⟩
  · unfold setVersion at heq
    split_ifs at heq
    · exact hfield.hash hhash head' fields' heq
    · obtain ⟨rfl, rfl⟩ := PyValue.obj.inj heq
      exact fun h hh hne => (hhash h hh hne).setVersion version

omit [PlacedCodecs] in
theorem mutate_hashChange (name : PyStr) (value : PyValue) (hhashed : head.hashed = false) :
    HashChange cf (mutate name value) head fields :=
  ⟨fun _ => ⟨_, _, rfl, id⟩, fun _ head' fields' heq h hh hne => by
    obtain ⟨rfl, -⟩ := PyValue.obj.inj heq
    exact absurd (hashed_eq_false.mp hhashed h hh) hne⟩

def IsCurrent (cf : Bool) (v : PyValue) : Prop :=
  ∃ head fields, v = .obj head fields ∧ Current cf head fields

/-- A step that keeps the caches leaves them as what would be computed now. -/
theorem cacheStep_current (v : PyValue) (a : CacheStep) (w : PyValue) (h : IsCurrent cf v)
    (ha : KeepsCaches cf v a) (hw : cacheStep v a = some w) : IsCurrent cf w := by
  obtain ⟨head, fields, rfl, h⟩ := h
  cases a with
  | setField oid name value =>
    obtain rfl := Option.some.inj hw
    exact mapObj_current h (setField_freshChange ha.1) (fun _ => setField_hashChange name value)
      ha.2
  | setVersion oid version =>
    obtain rfl := Option.some.inj hw
    exact mapObj_current h (setVersion_freshChange version)
      (fun _ => setVersion_hashChange version) ha
  | mutate oid name value =>
    obtain rfl := Option.some.inj hw
    obtain ⟨hvalue, hclear, hhashed⟩ := ha
    exact mapObj_current h (mutate_freshChange hvalue)
      (fun hoid => mutate_hashChange name value (hhashed head fields rfl hoid)) hclear
  | hashcode client =>
    simp only [cacheStep] at hw
    split at hw
    · next r hr =>
      obtain rfl := Option.some.inj hw
      exact binaryHashcode_current h ha.1 ha.2 hr
    · obtain rfl := Option.some.inj hw
      exact ⟨head, fields, rfl, h⟩
  | serialize stream =>
    simp only [cacheStep] at hw
    split at hw
    · next r hr =>
      obtain rfl := Option.some.inj hw
      exact serialize_current h ha.1 hr (ha.2 _ _ hr)
    · obtain rfl := Option.some.inj hw
      exact ⟨head, fields, rfl, h⟩

/-- An object as it is constructed, of values that carry no stale representation. -/
structure Constructed (cf : Bool) (head : ObjHead) (fields : List (PyStr × DataType × PyValue)) :
    Prop where
  buffer : head.buffer = Option.none
  hashcode : head.hashcode = Option.none
  fields : FreshFields cf fields

omit [PlacedCodecs] in
theorem Constructed.isCurrent (h : Constructed cf head fields) :
    IsCurrent cf (.obj head fields) := by
  refine ⟨head, fields, rfl, ⟨fun d hd => ?_, h.fields⟩, fun h' hh => ?_⟩
  · rw [h.buffer] at hd
    cases hd
  · rw [h.hashcode] at hh
    cases hh

/-- In every run of steps that keep the caches, nothing cached is ever stale. -/
theorem caches_never_stale {steps : List CacheStep} {w : PyValue}
    (h0 : Constructed cf head fields)
    (hok : Along cacheStep (KeepsCaches cf) (.obj head fields) steps)
    (hrun : run cacheStep (.obj head fields) steps = some w) : NotStale cf w := by
  obtain ⟨head', fields', rfl, hcurrent⟩ :=
    along_invariant cacheStep_current h0.isCurrent hok hrun
  exact hcurrent.notStale

omit [PlacedCodecs] in
/-- Every sequence of steps can be run. -/
theorem exists_run (v : PyValue) (steps : List CacheStep) :
    ∃ w, run cacheStep v steps = some w := by
  induction steps generalizing v with
  | nil => exact ⟨v, rfl⟩
  | cons a steps ih =>
    obtain ⟨u, hu⟩ : ∃ u, cacheStep v a = some u := by
      cases a with
      | setField oid name value | setVersion oid version | mutate oid name value => exact ⟨_, rfl⟩
      | hashcode client => cases hr : binaryHashcode client v <;> simp [cacheStep, hr]
      | serialize stream => cases hr : fromPython .binaryObject v stream <;> simp [cacheStep, hr]
    obtain ⟨w, hw⟩ := ih u
    exact ⟨w, Option.bind_eq_some_iff.mpr ⟨u, hu, hw⟩⟩

end Runs

theorem leaves_iff {m : StreamM PyValue} {s : BinaryStream} {buf : Bytes} {pos : ℕ} :
    Leaves m s buf pos ↔ (m s).toOption.map (fun r => (r.2.buf, r.2.pos)) = some (buf, pos) := by
  unfold Leaves
  cases m s with
  | error e => simp [Except.toOption]
  | ok r => simp [Except.toOption, Prod.ext_iff]

theorem small_of_length {m : StreamM PyValue} {s : BinaryStream} {n : ℕ}
    (h : (m s).toOption.map (fun r => r.2.buf.length) = some n) (hn : n < 2 ^ 31) : Small m s := by
  intro v t ht
  rw [ht] at h
  obtain rfl : t.buf.length = n := Option.some.inj h
  exact hn

/-- A field of an object that it holds, its version, and then a hash code. -/
theorem caches_never_stale_nested :
    let _ := asciiLower
    let _ := noOtherCodecs
    let client : Client := ⟨some true, fun _ => [], fun _ => []⟩
    let inner : ObjHead := ⟨1, ['P'], 3, none, none⟩
    let point : List (PyStr × DataType × PyValue) := [(['x'], .intObject, .int 5)]
    let head : ObjHead := ⟨0, ['D'], 1, none, none⟩
    let fields : List (PyStr × DataType × PyValue) := [(['a'], .binaryObject, .obj inner point)]
    ∃ w, run cacheStep (.obj head fields)
      [.setField 1 ['x'] (.int 6), .setVersion 0 2, .hashcode client] = some w ∧
      NotStale true w := by
  have hlength : @Option.map _ _ (fun r => r.2.buf.length)
      (@objectFromPython asciiLower noOtherCodecs true ⟨0, ['D'], 2, none, none⟩
        [(['a'], .binaryObject, .obj ⟨1, ['P'], 3, none, none⟩ [(['x'], .intObject, .int 6)])]
        ⟨⟨some true, fun _ => [], fun _ => []⟩, [], 0, false⟩).toOption = some 55 := by
    decide +kernel
  intro _ _ client inner point head fields
  have h0 : Constructed true head fields := by
    refine ⟨rfl, rfl, ⟨?_, trivial, trivial⟩, trivial⟩
    rintro d ⟨⟩
  obtain ⟨w, hw⟩ := exists_run (.obj head fields)
    [.setField 1 ['x'] (.int 6), .setVersion 0 2, .hashcode client]
  refine ⟨w, hw, caches_never_stale h0 ?_ hw⟩
  refine ⟨⟨trivial, rfl, ?_⟩, ?_⟩
  · intro head' fields' heq _
    obtain ⟨rfl, rfl⟩ := PyValue.obj.inj heq
    rfl
  · rintro v ⟨⟩
    refine ⟨⟨rfl, ?_⟩, ?_⟩
    · intro head' fields' heq _
      obtain ⟨rfl, rfl⟩ := PyValue.obj.inj heq
      rfl
    · rintro v ⟨⟩
      exact ⟨⟨rfl, small_of_length hlength (by decide)⟩, fun _ _ => trivial⟩

/-- The representation that `hashcode` has cached is written although the version is
another one now. -/
theorem version_leaves_stale :
    let _ := asciiLower
    let _ := noOtherCodecs
    let client : Client := ⟨some true, fun _ => [], fun _ => []⟩
    let head : ObjHead := ⟨0, ['D'], 1, none, none⟩
    let fields : List (PyStr × DataType × PyValue) := [(['a'], .intObject, .int 5)]
    Constructed true head fields ∧ ∃ w,
      run cacheStep (.obj head fields) [.hashcode client, .setVersion 0 2] = some w ∧
        ¬NotStale true w := by
  have hbytes :
      let _ := asciiLower
      let _ := noOtherCodecs
      let s : BinaryStream := ⟨⟨some true, fun _ => [], fun _ => []⟩, [], 0, false⟩
      let written (m : StreamM PyValue) := (m s).toOption.map fun r => (r.2.buf, r.2.pos)
      (run cacheStep (.obj ⟨0, ['D'], 1, none, none⟩ [(['a'], .intObject, .int 5)])
        [.hashcode s.client, .setVersion 0 2]).map (fun w =>
          (written (fromPython .binaryObject w), written (freshFromPython w))) =
        some (some ([103, 1, 43, 0, 100, 0, 0, 0, 253, 100, 225, 1, 30, 0, 0, 0, 228, 211, 225, 245,
            29, 0, 0, 0, 3, 5, 0, 0, 0, 24], 30),
          some ([103, 2, 43, 0, 100, 0, 0, 0, 253, 100, 225, 1, 30, 0, 0, 0, 228, 211, 225, 245,
            29, 0, 0, 0, 3, 5, 0, 0, 0, 24], 30)) := by
    decide +kernel
  intro _ _ client head fields
  refine ⟨⟨rfl, rfl, trivial, trivial⟩, ?_⟩
  obtain ⟨w, hw⟩ := exists_run (.obj head fields) [.hashcode client, .setVersion 0 2]
  refine ⟨w, hw, fun hn => ?_⟩
  dsimp only at hbytes
  rw [hw] at hbytes
  obtain ⟨hcached, hfresh⟩ := Prod.mk.inj (Option.some.inj hbytes)
  have hs : Usable true ⟨client, [], 0, false⟩ := ⟨rfl, rfl⟩
  have hleaves := (hn.bytes _ _ _ hs (by decide)).mp (leaves_iff.mpr hcached)
  have heq := (leaves_iff.mp hleaves).symm.trans hfresh
  exact absurd heq (by decide)

end PyGridGain
