import PyGridGain.Codec.PrimitiveArrays
import PyGridGain.Codec.Follows
import PyGridGain.Datatypes.Inference

/-! What is written of a value without a hint: the bytes of one that is `Writable`, and nothing
of any other. -/

namespace PyGridGain

open PyValue StreamM

section Puts
variable [Python] [OtherCodecs] {t std : DataType} {v a w : PyValue} {d : Bytes}
  {xs : List PyValue}

/-- The value is written without a hint as these bytes, wherever it is nested and wherever the
stream stands. -/
def Puts (v : PyValue) (d : Bytes) : Prop :=
  ∀ n, v.depth < n → ∀ s : BinaryStream, s.emptyView = false →
    ∃ v', inferFromPython (fromPythonN n) v s = .ok (v', s.put d)

theorem anyDataObject_fromPython (hv : ∀ x t, v ≠ .hinted x t) :
    anyDataObject.fromPython v = inferFromPython (fromPythonN (v.depth + 1)) v := by
  rw [inferFromPython_other hv]
  rfl

theorem Puts.writesAs (h : Puts v d) (hv : ∀ x t, v ≠ .hinted x t) : WritesAs anyDataObject v d := by
  intro s hs
  rw [anyDataObject_fromPython hv]
  exact h _ (Nat.lt_succ_self _) s hs

theorem Puts.unique {d' : Bytes} (h : Puts v d) (h' : Puts v d') (hne : d ≠ [])
    (hv : ∀ x t, v ≠ .hinted x t) : d = d' := (h.writesAs hv).unique (h'.writesAs hv) hne

/-- A value that its class writes. -/
theorem puts_of_class (hv : v ≠ .none) (ht : v.mapPythonType = .ok t)
    (h : ∀ n, v.depth ≤ n → ∀ s : BinaryStream, s.emptyView = false →
      ∃ v', fromPythonNotNull (fromPythonN n) t v s = .ok (v', s.put d)) : Puts v d := by
  intro n hn s hs
  obtain ⟨m, rfl⟩ := Nat.exists_eq_add_of_lt hn
  rw [inferFromPython_of_class ht, fromPythonN_succ hv]
  exact h _ (Nat.le_add_right _ _) s hs

theorem fromPythonN_none (n : ℕ) (t u : DataType) :
    fromPythonN n t .none = fromPythonN n u .none := by
  cases n <;> rfl

theorem puts_none : Puts .none [TC_NULL] := by
  intro n hn s hs
  obtain ⟨m, rfl⟩ := Nat.exists_eq_add_of_lt hn
  refine ⟨.none, ?_⟩
  rw [inferFromPython_of_class (t := .null) rfl]
  exact bind_ok (write_ok hs _)

theorem puts_bool (b : Bool) :
    Puts (.bool b) (DataType.boolObject.typeCode :: Scalar.byte.store (if b then 1 else 0)) :=
  puts_of_class (by simp) (t := .boolObject) rfl fun n _ s hs =>
    ⟨_, bind_ok (writeDataObject_ok hs rfl)⟩

theorem puts_int (i : ℤ) :
    Puts (.int i) (DataType.longObject.typeCode :: Scalar.longlong.store i) :=
  puts_of_class (by simp) (t := .longObject) rfl fun n _ s hs =>
    ⟨_, bind_ok (writeDataObject_ok hs rfl)⟩

theorem puts_str (x : PyStr) : Puts (.str x) (stringBytes x) := by
  refine puts_of_class (by simp) (t := .string) rfl fun n _ s hs => ⟨.str x, ?_⟩
  have hwrite : writeString (.str x) s = .ok ((), s.put (stringBytes x)) := by
    simp only [writeString, pure_bind, write_ok hs, stringBytes]
  exact bind_ok hwrite

theorem puts_uuid (u : UUID) : Puts (.uuid u) (DataType.uuidObject.typeCode :: uuidStore u) :=
  puts_of_class (by simp) (t := .uuidObject) rfl fun n _ s hs => ⟨.uuid u, bind_ok (write_ok hs _)⟩

theorem puts_bytes {b : Bytes} (hlen : b.length < 2 ^ 32) :
    Puts (.bytes b) (DataType.byteArrayObject.typeCode :: (Scalar.int.store b.length ++ b)) :=
  puts_of_class (by simp) (t := .byteArrayObject) rfl fun n _ s hs =>
    ⟨_, bind_ok (writeByteArray_ok hs hlen)⟩

omit [Python] [OtherCodecs] in
theorem elements?_ne_none (hv : v.elements? = some xs) : v ≠ .none := by
  rintro rfl
  cases hv

omit [Python] [OtherCodecs] in
theorem iterate_of_elements (hv : v.elements? = some xs) : v.iterate = some xs := by
  cases v <;> first | exact hv | cases hv

omit [Python] [OtherCodecs] in
theorem elements_of_sequence (hv : v.sequence? = some xs) : v.elements? = some xs := by
  cases v <;> first | exact hv | cases hv

/-- An array of packed elements. -/
theorem puts_array {pack : PyValue → Except PyError Bytes} {f : PyValue → Bytes}
    (ht : v.mapPythonType = .ok t) (hv : v.elements? = some xs)
    (hbody : ∀ rec s, fromPythonNotNull rec t v s =
      (writePrimitiveArray t pack v >>= fun _ => pure v) s)
    (hlen : xs.length < 2 ^ 32) (hpack : ∀ x ∈ xs, pack x = .ok (f x)) :
    Puts v (t.typeCode :: (Scalar.int.store xs.length ++ xs.flatMap f)) := by
  refine puts_of_class (elements?_ne_none hv) ht fun n _ s hs => ⟨v, ?_⟩
  have hwrite := writePrimitiveArray_ok (t := t) hs hlen hpack
  have hsame : writePrimitiveArray t pack v = writePrimitiveArray t pack (.list xs) := by
    rw [writePrimitiveArray, writePrimitiveArray, iterate_of_elements hv]
    rfl
  rw [hbody, hsame]
  exact bind_ok hwrite

/-- Values that are written one after another, each by the class that is found for it. -/
theorem inferAll_puts {ds : List Bytes} (h : List.Forall₂ Puts xs ds) {n : ℕ}
    (hn : depthList xs < n) {s : BinaryStream} (hs : s.emptyView = false) :
    ∃ xs', inferAll (fromPythonN n) xs s = .ok (xs', s.put ds.flatten) := by
  induction h generalizing s with
  | nil => exact ⟨[], by simp [inferAll]⟩
  | @cons x d xs ds hx _ ih =>
    rw [depthList, max_lt_iff] at hn
    obtain ⟨x', hx'⟩ := hx n hn.1 s hs
    obtain ⟨xs', hxs'⟩ := ih hn.2 (s := s.put d) hs
    refine ⟨x' :: xs', ?_⟩
    rw [inferAll, bind_ok hx', bind_ok hxs', pure_apply, BinaryStream.put_put, List.flatten_cons]

theorem writeStandard_puts {ds : List Bytes} (h : List.Forall₂ Puts xs ds)
    (hxs : ∀ x ∈ xs, x = .none ∨ x.mapPythonType = .ok std) {n : ℕ} (hn : depthList xs < n)
    {s : BinaryStream} (hs : s.emptyView = false) :
    writeStandard (fromPythonN n) std xs s = .ok ((), s.put ds.flatten) := by
  induction h generalizing s with
  | nil => simp [writeStandard]
  | @cons x d xs ds hx _ ih =>
    rw [depthList, max_lt_iff] at hn
    obtain ⟨x', hx'⟩ := hx n hn.1 s hs
    have hrec : fromPythonN n std x s = .ok (x', s.put d) := by
      rw [← hx']
      rcases hxs x List.mem_cons_self with rfl | hclass
      · rw [inferFromPython_of_class (t := .null) rfl, fromPythonN_none n std .null]
      · rw [inferFromPython_of_class hclass]
    rw [writeStandard, bind_ok hrec,
      ih (fun y hy => hxs y (List.mem_cons_of_mem x hy)) hn.2 (s := s.put d) hs,
      BinaryStream.put_put, List.flatten_cons]

omit [Python] [OtherCodecs] in
theorem depth_of_elements (hv : v.elements? = some xs) : depthList xs < v.depth := by
  cases v with
  | tuple ys =>
    obtain rfl := Option.some.inj hv
    simp [depth]
  | list ys =>
    obtain rfl := Option.some.inj hv
    simp [depth]
  | dict kvs =>
    obtain rfl := Option.some.inj hv
    rw [depth, Nat.lt_succ_iff]
    induction kvs with
    | nil => rfl
    | cons p kvs ih =>
      rw [List.map_cons, depthList, depthPairs]
      exact max_le_max (le_max_left _ _) (ih rfl)
  | _ => cases hv

/-- An array whose elements have type codes of their own. -/
theorem puts_standard {ds : List Bytes} (ht : v.mapPythonType = .ok t)
    (hstd : t.standardType = some std) (hv : v.elements? = some xs) (hlen : xs.length < 2 ^ 32)
    (hxs : ∀ x ∈ xs, x = .none ∨ x.mapPythonType = .ok std) (h : List.Forall₂ Puts xs ds) :
    Puts v (t.typeCode :: (Scalar.int.store xs.length ++ ds.flatten)) := by
  refine puts_of_class (elements?_ne_none hv) ht fun n hn s hs => ⟨v, ?_⟩
  have hwrite : writeStandardArray (fromPythonN n) t std v s =
      .ok ((), s.put (t.typeCode :: (Scalar.int.store xs.length ++ ds.flatten))) := by
    simp only [writeStandardArray, iterate_of_elements hv, lengthBytes_eq hlen, ofOption, pure_bind]
    rw [bind_ok (write_ok hs _), bind_ok (write_ok (by simpa using hs) _),
      writeStandard_puts h hxs ((depth_of_elements hv).trans_le hn) (by simpa using hs),
      BinaryStream.put_put, BinaryStream.put_put, List.singleton_append]
  cases t <;> simp only [DataType.standardType, reduceCtorEq, Option.some.injEq] at hstd <;>
    subst hstd <;> exact bind_ok hwrite

omit [Python] [OtherCodecs] in
theorem contents_of_iterate (hw : w.iterate = some xs) : w.contents = xs := by
  rw [contents, hw]

omit [Python] [OtherCodecs] in
theorem unpack2_of_elements (hv : v.elements? = some [a, w]) : v.unpack2 = some (a, w) := by
  rw [unpack2, iterate_of_elements hv]

omit [Python] [OtherCodecs] in
theorem depthList_le {n : ℕ} (h : ∀ x ∈ xs, x.depth ≤ n) : depthList xs ≤ n := by
  induction xs with
  | nil => exact Nat.zero_le n
  | cons x xs ih =>
    exact max_le (h x List.mem_cons_self) (ih fun y hy => h y (List.mem_cons_of_mem x hy))

omit [Python] [OtherCodecs] in
theorem depth_of_iterate (hw : w.iterate = some xs) : depthList xs ≤ w.depth := by
  cases w with
  | str s =>
    obtain rfl := Option.some.inj hw
    refine depthList_le fun x hx => ?_
    obtain ⟨c, -, rfl⟩ := List.mem_map.mp hx
    exact le_rfl
  | bytes b =>
    obtain rfl := Option.some.inj hw
    refine depthList_le fun x hx => ?_
    obtain ⟨i, -, rfl⟩ := List.mem_map.mp hx
    exact le_rfl
  | tuple ys => exact (depth_of_elements (v := tuple ys) hw).le
  | list ys => exact (depth_of_elements (v := list ys) hw).le
  | dict kvs => exact (depth_of_elements (v := dict kvs) hw).le
  | _ => cases hw

/-- A collection: its hint, and the elements that its content is taken for. -/
theorem puts_collection {k : ℤ} {ds : List Bytes} (ht : v.mapPythonType = .ok .collectionObject)
    (hv : v.elements? = some [a, w]) (ha : a.toInt? = some k) (hk : Scalar.byte.Range k)
    (hlen : w.contents.length < 2 ^ 32) (hdepth : depthList w.contents < v.depth)
    (h : List.Forall₂ Puts w.contents ds) :
    Puts v (DataType.collectionObject.typeCode ::
      (Scalar.int.store w.contents.length ++ (Scalar.byte.store k ++ ds.flatten))) := by
  refine puts_of_class (elements?_ne_none hv) ht fun n hn s hs => ?_
  obtain ⟨xs', hxs'⟩ := inferAll_puts h (hdepth.trans_le hn)
    (s := ((s.put [DataType.collectionObject.typeCode]).put
      (Scalar.int.store w.contents.length)).put (Scalar.byte.store k)) hs
  refine ⟨v.refill [a, w.refill xs'], ?_⟩
  show writeCollection (fromPythonN n) v s = _
  simp only [writeCollection, unpack2_of_elements hv, lengthBytes_eq hlen, ha,
    signedBytes_byte hk, ofOption, pure_bind]
  rw [bind_ok (write_ok hs _), bind_ok (write_ok (by simpa using hs) _),
    bind_ok (write_ok (by simpa using hs) _), bind_ok hxs', pure_apply]
  simp only [BinaryStream.put_put, List.cons_append, List.nil_append, List.append_assoc]

omit [Python] [OtherCodecs] in
theorem inferPairs_eq (rec : DataType → PyValue → StreamM PyValue)
    (kvs : List (PyValue × PyValue)) :
    inferAll rec (alternate kvs) = (inferPairs rec kvs >>= fun r => pure (alternate r)) := by
  induction kvs with
  | nil => simp [alternate, inferAll, inferPairs]
  | cons p kvs ih =>
    simp only [alternate_cons, inferAll, inferPairs, ih, bind_assoc, pure_bind]

omit [Python] [OtherCodecs] in
theorem depth_alternate (kvs : List (PyValue × PyValue)) :
    depthList (alternate kvs) = depthPairs kvs := by
  induction kvs with
  | nil => rfl
  | cons p kvs ih =>
    rw [alternate_cons, depthList, depthList, depthPairs, ih, max_assoc]

/-- A map: its hint, and its keys and values in turn. -/
theorem puts_map {k : ℤ} {kvs : List (PyValue × PyValue)} {ds : List Bytes}
    (hv : v.sequence? = some [a, .dict kvs]) (ha : a.toInt? = some k) (hk : Scalar.byte.Range k)
    (hlen : kvs.length < 2 ^ 32) (h : List.Forall₂ Puts (alternate kvs) ds) :
    Puts v (DataType.mapObject.typeCode ::
      (Scalar.int.store kvs.length ++ (Scalar.byte.store k ++ ds.flatten))) := by
  have ht : v.mapPythonType = .ok .mapObject :=
    (mapPythonType_sequence_iff hv).mpr (Or.inr ⟨a, .dict kvs, rfl, by simp [ha], rfl⟩)
  have hv := elements_of_sequence hv
  refine puts_of_class (elements?_ne_none hv) ht fun n hn s hs => ?_
  have hdepth : depthList (alternate kvs) < n := by
    have := depth_of_elements hv
    rw [depthList, depthList, depth] at this
    rw [depth_alternate]
    omega
  obtain ⟨xs', hxs'⟩ := inferAll_puts h hdepth
    (s := ((s.put [DataType.mapObject.typeCode]).put
      (Scalar.int.store kvs.length)).put (Scalar.byte.store k)) hs
  rw [inferPairs_eq] at hxs'
  obtain ⟨kvs', u, hkvs', hu⟩ := bind_eq_ok hxs'
  obtain rfl := congrArg Prod.snd (Except.ok.inj hu)
  refine ⟨v.refill [a, .dict kvs'], ?_⟩
  show writeMap (fromPythonN n) v s = _
  simp only [writeMap, unpack2_of_elements hv, lengthBytes_eq hlen, ha, signedBytes_byte hk,
    ofOption, pure_bind]
  rw [bind_ok (write_ok hs _), bind_ok (write_ok (by simpa using hs) _),
    bind_ok (write_ok (by simpa using hs) _), bind_ok hkvs', pure_apply]
  simp only [BinaryStream.put_put, List.cons_append, List.nil_append, List.append_assoc]

end Puts

/-! ### What a run tells of its value -/

theorem ofOption_ok {α : Type} {x : Option α} {exc : Exc} {s s' : BinaryStream} {a : α}
    (h : ofOption x exc s = .ok (a, s')) : x = some a := by
  cases x with
  | none => cases h
  | some b => rw [(Prod.mk.inj (Except.ok.inj h)).1]

theorem ofOption_some {α : Type} (a : α) (exc : Exc) : ofOption (some a) exc = pure a := rfl

theorem length_lt_of_lengthBytes {n : ℕ} {b : Bytes} (h : lengthBytes n = some b) : n < 2 ^ 32 := by
  by_contra hge
  rw [lengthBytes_none (not_lt.mp hge)] at h
  cases h

theorem range_of_signedBytes {k : ℤ} {b : Bytes} (h : signedBytes 1 k = some b) :
    Scalar.byte.Range k := by
  by_contra hrange
  have hnone : signedBytes 1 k = Option.none := if_neg hrange
  rw [hnone] at h
  cases h

section Runs
variable {rec : DataType → PyValue → StreamM PyValue} {t std : DataType} {v a w : PyValue}
  {xs : List PyValue} {s : BinaryStream}

theorem class_of_ok {r : PyValue × BinaryStream} (hv : ∀ x t, v ≠ .hinted x t)
    (h : inferFromPython rec v s = .ok r) : ∃ t, v.mapPythonType = .ok t ∧ rec t v s = .ok r := by
  cases ht : v.mapPythonType with
  | ok t => exact ⟨t, rfl, by rwa [inferFromPython_of_class ht] at h⟩
  | error e =>
    rw [inferFromPython_other hv, ht] at h
    cases h

theorem inferAll_ok_mem {r : List PyValue × BinaryStream} (h : inferAll rec xs s = .ok r) :
    ∀ x ∈ xs, ∃ s' r', inferFromPython rec x s' = .ok r' := by
  induction xs generalizing s r with
  | nil => simp
  | cons x xs ih =>
    obtain ⟨x', u, hx, h⟩ := bind_eq_ok h
    obtain ⟨xs', u', hxs, -⟩ := bind_eq_ok h
    exact List.forall_mem_cons.mpr ⟨⟨s, _, hx⟩, ih hxs⟩

theorem writePacked_ok_mem {pack : PyValue → Except PyError Bytes} {r : Unit × BinaryStream}
    (h : writePacked pack xs s = .ok r) : ∀ x ∈ xs, ∃ b, pack x = .ok b := by
  intro x hx
  cases hpack : pack x with
  | ok b => exact ⟨b, rfl⟩
  | error e =>
    obtain ⟨e', he'⟩ := writePacked_error hx hpack s
    rw [he'] at h
    cases h

theorem writePrimitiveArray_ok_mem {pack : PyValue → Except PyError Bytes}
    {r : Unit × BinaryStream} (hv : v.iterate = some xs) (h : writePrimitiveArray t pack v s = .ok r) :
    xs.length < 2 ^ 32 ∧ ∀ x ∈ xs, ∃ b, pack x = .ok b := by
  rw [writePrimitiveArray, hv, ofOption_some, pure_bind] at h
  obtain ⟨_, u, -, h⟩ := bind_eq_ok (m := write [t.typeCode]) h
  obtain ⟨length, u', hlength, h⟩ := bind_eq_ok h
  obtain ⟨_, u'', -, h⟩ := bind_eq_ok h
  exact ⟨length_lt_of_lengthBytes (ofOption_ok hlength), writePacked_ok_mem h⟩

theorem writeStandardArray_ok_length {r : Unit × BinaryStream} (hv : v.iterate = some xs)
    (h : writeStandardArray rec t std v s = .ok r) : xs.length < 2 ^ 32 := by
  rw [writeStandardArray, hv, ofOption_some, pure_bind] at h
  obtain ⟨_, u, -, h⟩ := bind_eq_ok (m := write [t.typeCode]) h
  obtain ⟨length, u', hlength, -⟩ := bind_eq_ok h
  exact length_lt_of_lengthBytes (ofOption_ok hlength)

theorem writeByteArray_ok_length {b : Bytes} {r : Unit × BinaryStream}
    (h : writeByteArray (.bytes b) s = .ok r) : b.length < 2 ^ 32 := by
  obtain ⟨ys, u, hys, h⟩ := bind_eq_ok h
  obtain ⟨_, u', -, h⟩ := bind_eq_ok h
  obtain ⟨length, u'', hlength, -⟩ := bind_eq_ok h
  have hlen := length_lt_of_lengthBytes (ofOption_ok hlength)
  rw [← Option.some.inj (ofOption_ok hys), List.length_map] at hlen
  exact hlen

theorem writeCollection_ok_mem {r : PyValue × BinaryStream} (hv : v.elements? = some [a, w])
    (h : writeCollection rec v s = .ok r) :
    ∃ k, a.toInt? = some k ∧ Scalar.byte.Range k ∧ w.contents.length < 2 ^ 32 ∧
      ∀ y ∈ w.contents, ∃ s' r', inferFromPython rec y s' = .ok r' := by
  rw [writeCollection, unpack2_of_elements hv, ofOption_some, pure_bind] at h
  obtain ⟨_, u, -, h⟩ := bind_eq_ok (m := write [DataType.collectionObject.typeCode]) h
  obtain ⟨length, u1, hlength, h⟩ := bind_eq_ok h
  obtain ⟨_, u2, -, h⟩ := bind_eq_ok h
  obtain ⟨k, u3, hk, h⟩ := bind_eq_ok h
  obtain ⟨b, u4, hb, h⟩ := bind_eq_ok h
  obtain ⟨_, u5, -, h⟩ := bind_eq_ok h
  obtain ⟨ys, u6, hys, -⟩ := bind_eq_ok h
  exact ⟨k, ofOption_ok hk, range_of_signedBytes (ofOption_ok hb),
    length_lt_of_lengthBytes (ofOption_ok hlength), inferAll_ok_mem hys⟩

theorem writeMap_ok_mem {kvs : List (PyValue × PyValue)} {r : PyValue × BinaryStream}
    (hv : v.elements? = some [a, .dict kvs]) (h : writeMap rec v s = .ok r) :
    ∃ k, a.toInt? = some k ∧ Scalar.byte.Range k ∧ kvs.length < 2 ^ 32 ∧
      ∀ y ∈ alternate kvs, ∃ s' r', inferFromPython rec y s' = .ok r' := by
  rw [writeMap, unpack2_of_elements hv, ofOption_some, pure_bind] at h
  obtain ⟨_, u, -, h⟩ := bind_eq_ok (m := write [DataType.mapObject.typeCode]) h
  obtain ⟨length, u1, hlength, h⟩ := bind_eq_ok h
  obtain ⟨_, u2, -, h⟩ := bind_eq_ok h
  obtain ⟨k, u3, hk, h⟩ := bind_eq_ok h
  obtain ⟨b, u4, hb, h⟩ := bind_eq_ok h
  obtain ⟨_, u5, -, h⟩ := bind_eq_ok h
  obtain ⟨kvs', u6, hkvs, -⟩ := bind_eq_ok h
  have hall : inferAll rec (alternate kvs) u5 = .ok (alternate kvs', u6) := by
    rw [inferPairs_eq]
    exact bind_ok hkvs
  exact ⟨k, ofOption_ok hk, range_of_signedBytes (ofOption_ok hb),
    length_lt_of_lengthBytes (ofOption_ok hlength), inferAll_ok_mem hall⟩

end Runs

section Main
variable [Python] [OtherCodecs] {v : PyValue} {xs : List PyValue} {t : DataType} {n : ℕ}
  {s : BinaryStream} {r : PyValue × BinaryStream}

/-- An array that was written. -/
theorem writable_of_array (hv : v.elements? = some xs) (harray : ArrayOf xs t)
    (h : fromPythonN (n + 1) t v s = .ok r) : Writable v := by
  have hiter := iterate_of_elements hv
  rw [fromPythonN_succ (elements?_ne_none hv)] at h
  cases harray with
  | @longs k i rest hxs hrest =>
    obtain ⟨_, u, hwrite, -⟩ := bind_eq_ok (m := writePrimitiveArray .longArrayObject
      (packSigned .longlong) v) (f := fun _ => pure v) h
    obtain ⟨hlen, hpack⟩ := writePrimitiveArray_ok_mem hiter hwrite
    cases k with
    | zero =>
      rw [hxs] at hlen
      exact .longs (hv.trans (congrArg some hxs)) hrest (by simpa using hlen)
    | succ k =>
      obtain ⟨b, hb⟩ := hpack .none (by simp [hxs])
      cases hb
  | @bools k b bs hxs =>
    obtain ⟨_, u, hwrite, -⟩ := bind_eq_ok (m := writePrimitiveArray .boolArrayObject packBool v)
      (f := fun _ => pure v) h
    have hlen := (writePrimitiveArray_ok_mem hiter hwrite).1
    rw [hxs] at hlen
    exact .bools (hv.trans (congrArg some hxs)) (by simpa using hlen)
  | @nullable u t std hu ht hstd hsome hxs =>
    have hlen : xs.length < 2 ^ 32 := by
      rcases hu with rfl | rfl <;> obtain rfl := Option.some.inj ht
      · obtain ⟨_, u, hwrite, -⟩ := bind_eq_ok (m := writeStandardArray (fromPythonN n)
          .stringArrayObject .string v) (f := fun _ => pure v) h
        exact writeStandardArray_ok_length hiter hwrite
      · obtain ⟨_, u, hwrite, -⟩ := bind_eq_ok (m := writeStandardArray (fromPythonN n)
          .uuidArrayObject .uuidObject v) (f := fun _ => pure v) h
        exact writeStandardArray_ok_length hiter hwrite
    exact .nullable hu hv hsome hxs hlen

/-- A list or a tuple that was written. -/
theorem writable_of_sequence (hv : v.sequence? = some xs) (hxs : ∀ x ∈ xs, Plain x)
    (ih : ∀ y s r, Plain y → inferFromPython (fromPythonN n) y s = .ok r → Writable y)
    (ht : v.mapPythonType = .ok t) (h : fromPythonN (n + 1) t v s = .ok r) : Writable v := by
  have helements := elements_of_sequence hv
  rcases (mapPythonType_sequence_iff hv).mp ht with ⟨u, hu, hmap⟩ | ⟨a, w, rfl, ha, hpair⟩
  · exact writable_of_array helements (hu.arrayOf hxs hmap) h
  · have hw : Plain w := hxs w (by simp)
    rw [fromPythonN_succ (elements?_ne_none helements)] at h
    unfold pairClass at hpair
    split_ifs at hpair with hdict hiter
    · obtain rfl := Option.some.inj hpair
      cases hw with
      | @dict kvs hks hvs _ =>
        obtain ⟨k, hk, hrange, hlen, hall⟩ := writeMap_ok_mem helements h
        have hwritable : ∀ y ∈ alternate kvs, Plain y → Writable y := fun y hy hplain => by
          obtain ⟨s', r', hrun⟩ := hall y hy
          exact ih y s' r' hplain hrun
        refine .map hv hk hrange (fun p hp => ?_) (fun p hp => ?_) hlen
        · exact hwritable p.1 (mem_alternate.mpr ⟨p, hp, Or.inl rfl⟩) (hks p hp)
        · exact hwritable p.2 (mem_alternate.mpr ⟨p, hp, Or.inr rfl⟩) (hvs p hp)
      | _ => simp [pyType] at hdict
    · obtain rfl := Option.some.inj hpair
      obtain ⟨ys, hys⟩ := Option.isSome_iff_exists.mp hiter
      obtain ⟨k, hk, hrange, hlen, hall⟩ := writeCollection_ok_mem helements h
      rw [contents_of_iterate hys] at hlen hall
      refine .collection hv hk hrange hys hdict (fun y hy => ?_) hlen
      obtain ⟨s', r', hrun⟩ := hall y hy
      exact ih y s' r' (hw.iterate hys y hy) hrun

/-- A dict that was written. -/
theorem writable_of_dict {kvs : List (PyValue × PyValue)} (hks : ∀ p ∈ kvs, Plain p.1)
    (ht : (PyValue.dict kvs).mapPythonType = .ok t)
    (h : fromPythonN (n + 1) t (.dict kvs) s = .ok r) : Writable (.dict kvs) := by
  rcases (mapPythonType_dict_iff hks).mp ht with ⟨u, hu, hmap⟩ | ⟨x, y, hkvs, hx, hpair⟩
  · refine writable_of_array rfl (hu.arrayOf (fun k hk => ?_) hmap) h
    obtain ⟨p, hp, rfl⟩ := List.mem_map.mp hk
    exact hks p hp
  · rw [fromPythonN_succ (by simp)] at h
    unfold pairClass at hpair
    split_ifs at hpair with hdict hiter
    · -- the map is looked for under the second key, which is a number
      obtain rfl := Option.some.inj hpair
      rcases hkvs with rfl | rfl <;> cases h
    · rcases hkvs with rfl | rfl
      · exact .zeroOne hx hiter hdict
      · exact .oneZero hx hiter hdict

/-- Only what is `Writable` is written without an error. -/
theorem writable_of_ok (hv : Plain v) (h : inferFromPython (fromPythonN n) v s = .ok r) :
    Writable v := by
  induction n generalizing v s r with
  | zero =>
    obtain ⟨t, -, hrun⟩ := class_of_ok hv.not_hinted h
    cases hrun
  | succ n ih =>
    obtain ⟨t, ht, hrun⟩ := class_of_ok hv.not_hinted h
    cases hv with
    | none => exact .none
    | bool b => exact .bool b
    | int _ => exact .int _
    | str x => exact .str x
    | uuid u => exact .uuid u
    | bytes b =>
      obtain rfl := Except.ok.inj ht
      rw [fromPythonN_succ (by simp)] at hrun
      obtain ⟨_, u, hwrite, -⟩ := bind_eq_ok (m := writeByteArray (PyValue.bytes b))
        (f := fun _ => pure (PyValue.bytes b)) hrun
      exact .bytes (writeByteArray_ok_length hwrite)
    | tuple hxs => exact writable_of_sequence rfl hxs (fun y s r hy => ih hy) ht hrun
    | list hxs => exact writable_of_sequence rfl hxs (fun y s r hy => ih hy) ht hrun
    | dict hks _ _ => exact writable_of_dict hks ht hrun

end Main

end PyGridGain
