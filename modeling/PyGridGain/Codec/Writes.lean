import PyGridGain.Codec.Wire

/-! The writers produce the wire format: on a stream of any position and content,
`from_python` of an encodable value writes `encode` of it in place, and raises
exactly when an object of it has a version that is no integer. -/

namespace PyGridGain

open StreamM

/-- Under `p` the action writes `d` and returns `a`; otherwise it raises. -/
def Writes {α : Type} (p : Prop) (m : StreamM α) (s : BinaryStream) (a : α) (d : Bytes) : Prop :=
  (p → m s = .ok (a, s.put d)) ∧ (¬p → ∃ e, m s = .error e)

namespace Writes

variable {α β : Type} {p q : Prop} {m : StreamM α} {s : BinaryStream} {a : α} {b : β}
  {d d' : Bytes}

theorem of_ok (h : m s = .ok (a, s.put d)) : Writes True m s a d :=
  ⟨fun _ => h, fun hn => absurd trivial hn⟩

theorem of_pure (s : BinaryStream) (a : α) : Writes True (pure a) s a [] := of_ok (by simp)

theorem bind {f : α → StreamM β} (hm : Writes p m s a d) (hf : Writes q (f a) (s.put d) b d') :
    Writes (p ∧ q) (m >>= f) s b (d ++ d') := by
  refine ⟨fun ⟨hp, hq⟩ => ?_, fun hn => ?_⟩
  · rw [bind_ok (hm.1 hp), hf.1 hq, BinaryStream.put_put]
  · by_cases hp : p
    · rw [bind_ok (hm.1 hp)]
      exact hf.2 fun hq => hn ⟨hp, hq⟩
    · obtain ⟨e, he⟩ := hm.2 hp
      exact ⟨e, bind_error he⟩

/-- A first step that succeeds. -/
theorem after {f : α → StreamM β} (hm : m s = .ok (a, s.put d))
    (hf : Writes q (f a) (s.put d) b d') : Writes q (m >>= f) s b (d ++ d') := by
  simpa using (of_ok hm).bind hf

theorem write {f : Unit → StreamM β} (hv : s.emptyView = false)
    (hf : Writes q (f ()) (s.put d) b d') : Writes q (write d >>= f) s b (d ++ d') :=
  after (write_ok hv d) hf

/-- A first step that only looks. -/
theorem reading {f : α → StreamM β} (hm : m s = .ok (a, s)) (hf : Writes q (f a) s b d') :
    Writes q (m >>= f) s b d' := by
  refine ⟨fun hq => ?_, fun hn => ?_⟩
  · rw [bind_ok hm, hf.1 hq]
  · rw [bind_ok hm]
    exact hf.2 hn

/-- A last step that writes nothing. -/
theorem map {f : α → β} (hm : Writes p m s a d) :
    Writes p (m >>= fun x => pure (f x)) s (f a) d := by
  refine ⟨fun hp => ?_, fun hn => ?_⟩
  · rw [bind_ok (hm.1 hp), pure_apply]
  · obtain ⟨e, he⟩ := hm.2 hn
    exact ⟨e, bind_error he⟩

theorem congr (hm : Writes p m s a d) (hq : p ↔ q) (hd : d = d') : Writes q m s a d' := by
  rwa [← hd, ← propext hq]

theorem congr_bytes (hm : Writes p m s a d) (hd : p → d = d') : Writes p m s a d' :=
  ⟨fun hp => hd hp ▸ hm.1 hp, hm.2⟩

end Writes

/-- What a stream of the client `cl` must be like to be written to. -/
structure Ready (cl : Client) (s : BinaryStream) : Prop where
  client : s.client = cl
  emptyView : s.emptyView = false

theorem Ready.put {cl : Client} {s : BinaryStream} (h : Ready cl s) (d : Bytes) :
    Ready cl (s.put d) := ⟨h.client, h.emptyView⟩

theorem charsStore_of_takeWhile {b : Bytes} (h : b.takeWhile (· ≠ 0) = b) :
    charsStore b.length b = b := by
  rw [charsStore, h]
  simp

theorem store_of_lt {n : ℕ} (h : n < 2 ^ 32) : Scalar.int.store n = leBytes 4 n := by
  rw [Scalar.store, Scalar.size, twos_of_nonneg (by omega)]

/-- A length without a sign is written as the field of that width stores it. -/
theorem lengthBytes_eq {n : ℕ} (h : n < 2 ^ 32) : lengthBytes n = some (Scalar.int.store n) := by
  rw [lengthBytes, if_pos (by omega), store_of_lt h]

theorem lengthBytes_of_lt {n : ℕ} (h : n < 2 ^ 31) :
    lengthBytes n = some (Scalar.int.store n) := lengthBytes_eq (by omega)

theorem signedBytes_int {i : ℤ} (h : Scalar.int.Range i) :
    signedBytes 4 i = some (Scalar.int.store i) := if_pos h

theorem signedBytes_byte {i : ℤ} (h : Scalar.byte.Range i) :
    signedBytes 1 i = some (Scalar.byte.store i) := if_pos h

section Leaves
variable {s : BinaryStream} (hv : s.emptyView = false)
include hv

theorem writeDataObject_ok {t : DataType} {sc : Scalar} {v : PyValue} {i : ℤ}
    (h : v.toInt? = some i) :
    writeDataObject t sc v s = .ok ((), s.put (t.typeCode :: sc.store i)) := by
  simp only [writeDataObject, h, ofOption, pure_bind, write_ok hv]

theorem writeString_ok {x : PyStr} (hx : '\x00' ∉ x) :
    writeString (.str x) s = .ok ((), s.put (DataType.string.typeCode ::
      (Scalar.int.store (utf8Encode x).length ++ utf8Encode x))) := by
  simp only [writeString, pure_bind, write_ok hv,
    charsStore_of_takeWhile (takeWhile_utf8Encode hx)]

theorem writeEnum_ok (t : DataType) (a b : ℤ) :
    writeEnum t (.tuple [.int a, .int b]) s =
      .ok ((), s.put (t.typeCode :: (Scalar.int.store a ++ Scalar.int.store b))) := by
  simp only [writeEnum, PyValue.unpack2, PyValue.iterate, PyValue.toInt?, ofOption, pure_bind,
    write_ok hv]

theorem writePacked_ok {pack : PyValue → Except PyError Bytes} {xs : List PyValue}
    {f : PyValue → Bytes} (h : ∀ x ∈ xs, pack x = .ok (f x)) :
    writePacked pack xs s = .ok ((), s.put (xs.flatMap f)) := by
  induction xs generalizing s with
  | nil => simp [writePacked]
  | cons x xs ih =>
    have hx : (fun s => (pack x).map fun b => (b, s) : StreamM Bytes) s = .ok (f x, s) := by
      simp [h x (by simp), Except.map]
    rw [writePacked, bind_ok hx, bind_ok (write_ok hv _),
      ih (by simpa using hv) fun y hy => h y (by simp [hy]), BinaryStream.put_put,
      List.flatMap_cons]

theorem writePrimitiveArray_ok {t : DataType} {pack : PyValue → Except PyError Bytes}
    {xs : List PyValue} {f : PyValue → Bytes} (hlen : xs.length < 2 ^ 32)
    (h : ∀ x ∈ xs, pack x = .ok (f x)) :
    writePrimitiveArray t pack (.list xs) s =
      .ok ((), s.put (t.typeCode :: (Scalar.int.store xs.length ++ xs.flatMap f))) := by
  simp only [writePrimitiveArray, PyValue.iterate, lengthBytes_eq hlen, ofOption, pure_bind]
  rw [bind_ok (write_ok hv _), bind_ok (write_ok (by simpa using hv) _),
    writePacked_ok (by simpa using hv) h, BinaryStream.put_put, BinaryStream.put_put,
    List.singleton_append]

theorem writeByteArray_ok {b : Bytes} (hlen : b.length < 2 ^ 32) :
    writeByteArray (.bytes b) s =
      .ok ((), s.put (DataType.byteArrayObject.typeCode :: (Scalar.int.store b.length ++ b))) := by
  simp only [writeByteArray, PyValue.iterate, List.length_map, lengthBytes_eq hlen, ofOption,
    pure_bind]
  rw [bind_ok (write_ok hv _), bind_ok (write_ok (by simpa using hv) _),
    write_ok (by simpa using hv), BinaryStream.put_put, BinaryStream.put_put,
    List.singleton_append]

end Leaves

section Touched
variable [Python] [OtherCodecs]

/- A value after it was written: every object that was written field by field has
its hash code cached, those inside a cached representation are left alone. -/
mutual
def touched (cf : Bool) : DataType → PyValue → PyValue
  | _, .hinted v t => .hinted (touched cf t v) t
  | .other _, v => v
  | _, .tuple [.int k, .list xs] => .tuple [.int k, .list (touchedAll cf xs)]
  | _, .tuple [.int k, .dict kvs] => .tuple [.int k, .dict (touchedPairs cf kvs)]
  | _, .obj head fields =>
    match head.buffer with
    | some (_ :: _) => .obj head fields
    | _ => .obj { head with hashcode := some (hashcodeBytes (encodeFields cf fields).flatten) }
        (touchedFields cf fields)
  | _, v => v
def touchedAll (cf : Bool) : List PyValue → List PyValue
  | [] => []
  | x :: xs => touched cf x.inferred x :: touchedAll cf xs
def touchedPairs (cf : Bool) : List (PyValue × PyValue) → List (PyValue × PyValue)
  | [] => []
  | (k, v) :: kvs => (touched cf k.inferred k, touched cf v.inferred v) :: touchedPairs cf kvs
def touchedFields (cf : Bool) : List (PyStr × DataType × PyValue) →
    List (PyStr × DataType × PyValue)
  | [] => []
  | (name, t, v) :: fields => (name, t, touched cf t v) :: touchedFields cf fields
end

variable {cf : Bool}

@[simp] theorem touched_none (t : DataType) : touched cf t .none = .none := by
  cases t <;> simp only [touched]

theorem touched_other {t : OtherType} {v : PyValue} (hh : ∀ w u, v ≠ .hinted w u) :
    touched cf (.other t) v = v := by
  cases v <;> first | exact absurd rfl (hh _ _) | simp only [touched]

theorem touchedFields_names (fields : List (PyStr × DataType × PyValue)) :
    (touchedFields cf fields).map (fun f => f.1) = fields.map fun f => f.1 := by
  induction fields with
  | nil => rfl
  | cons f fields ih => simp only [touchedFields, List.map_cons, ih]

end Touched

section Containers
variable [Python] [OtherCodecs] {cl : Client} {cf : Bool} {s : BinaryStream}
  {rec : DataType → PyValue → StreamM PyValue}

/-- The writer `rec` writes `v` as `t` on every stream of the client. -/
def RecWrites (cl : Client) (cf : Bool) (rec : DataType → PyValue → StreamM PyValue)
    (t : DataType) (v : PyValue) : Prop :=
  ∀ s, Ready cl s → Writes (HeadersFilled t v) (rec t v) s (touched cf t v) (encode cf t v)

omit [Python] [OtherCodecs] in
theorem inferFromPython_other {v : PyValue} (hv : ∀ x t, v ≠ .hinted x t) :
    inferFromPython rec v =
      ((fun s => v.mapPythonType.map fun t => (t, s)) >>= fun t => rec t v) := by
  cases v <;> first | exact absurd rfl (hv _ _) | rfl

omit [Python] [OtherCodecs] in
theorem not_hinted_of_class {v : PyValue} {t : DataType} (h : v.mapPythonType = .ok t) :
    ∀ x u, v ≠ .hinted x u := by
  rintro x u rfl
  simp [PyValue.mapPythonType, PyValue.pythonMap, PyValue.pyType, PyValue.iterate, raise] at h

omit [Python] [OtherCodecs] in
/-- A value without a hint is written by the class that is found for it. -/
theorem inferFromPython_of_class {v : PyValue} {t : DataType} (h : v.mapPythonType = .ok t)
    (s : BinaryStream) : inferFromPython rec v s = rec t v s := by
  rw [inferFromPython_other (not_hinted_of_class h)]
  exact bind_ok (a := t) (by simp [h, Except.map])

/-- An element is written by the class it is typed with. -/
theorem inferFromPython_writes {x : PyValue} {p : PyValue × DataType} (htyped : typed x = some p)
    (h : RecWrites cl cf rec p.2 p.1) (hs : Ready cl s) :
    Writes (HeadersFilled p.2 p.1) (inferFromPython rec x) s (touched cf x.inferred x)
      (encode cf p.2 p.1) := by
  rcases typed_cases htyped with rfl | ⟨hmap, hinf, hx⟩
  · simp only [touched]
    exact (h s hs).map
  · rw [← hx] at h ⊢
    rw [hinf, Writes, inferFromPython_of_class hmap]
    exact h s hs

theorem inferAll_writes {xs : List PyValue} {ps : List (PyValue × DataType)} (htyped : Typed xs ps)
    (h : ∀ p ∈ ps, RecWrites cl cf rec p.2 p.1) (hs : Ready cl s) :
    Writes (∀ p ∈ ps, HeadersFilled p.2 p.1) (inferAll rec xs) s (touchedAll cf xs)
      (encodeAll cf xs).flatten := by
  induction htyped generalizing s with
  | nil => exact (Writes.of_pure s _).congr (by simp) rfl
  | @cons x p xs ps hx _ ih =>
    have hhead := inferFromPython_writes hx (h p (by simp)) hs
    have htail := ih (fun q hq => h q (by simp [hq])) (hs.put (encode cf p.2 p.1))
    exact (hhead.bind htail.map).congr (by simp)
      (by simp only [encodeAll, encode_typed hx, List.flatten_cons])

theorem inferPairs_writes {kvs : List (PyValue × PyValue)}
    {ps : List ((PyValue × DataType) × (PyValue × DataType))} (htyped : TypedPairs kvs ps)
    (hk : ∀ p ∈ ps, RecWrites cl cf rec p.1.2 p.1.1)
    (hv : ∀ p ∈ ps, RecWrites cl cf rec p.2.2 p.2.1) (hs : Ready cl s) :
    Writes (∀ p ∈ ps, HeadersFilled p.1.2 p.1.1 ∧ HeadersFilled p.2.2 p.2.1) (inferPairs rec kvs) s
      (touchedPairs cf kvs) (encodePairs cf kvs).flatten := by
  induction htyped generalizing s with
  | nil => exact (Writes.of_pure s _).congr (by simp) rfl
  | @cons kv p kvs ps hkv _ ih =>
    obtain ⟨k, v⟩ := kv
    have hkey := inferFromPython_writes hkv.1 (hk p (by simp)) hs
    have hs' := hs.put (encode cf p.1.2 p.1.1)
    have hval := inferFromPython_writes hkv.2 (hv p (by simp)) hs'
    have hrest := ih (fun q hq => hk q (by simp [hq])) (fun q hq => hv q (by simp [hq]))
      (hs'.put (encode cf p.2.2 p.2.1))
    exact (hkey.bind (hval.bind hrest.map)).congr (by simp [and_assoc])
      (by simp only [encodePairs, encode_typed hkv.1, encode_typed hkv.2, List.flatten_cons])

theorem writeStandard_writes {std : DataType} {xs : List PyValue}
    (h : ∀ x ∈ xs, RecWrites cl cf rec std x) (hs : Ready cl s) :
    Writes (∀ x ∈ xs, HeadersFilled std x) (writeStandard rec std xs) s ()
      (encodeStandard cf std xs).flatten := by
  induction xs generalizing s with
  | nil => exact (Writes.of_pure s _).congr (by simp) rfl
  | cons x xs ih =>
    have hx := h x (by simp) s hs
    have hxs := ih (fun y hy => h y (by simp [hy])) (hs.put (encode cf std x))
    exact (hx.bind hxs).congr (by simp) (by simp)

theorem writeStandardArray_writes {t std : DataType} {xs : List PyValue}
    (ht : t.standardType = some std) (hlen : xs.length < 2 ^ 31)
    (h : ∀ x ∈ xs, RecWrites cl cf rec std x) (hs : Ready cl s) :
    Writes (∀ x ∈ xs, HeadersFilled std x) (writeStandardArray rec t std (.list xs)) s ()
      (encode cf t (.list xs)) := by
  have hd : [t.typeCode] ++ (Scalar.int.store xs.length ++ (encodeStandard cf std xs).flatten) =
      encode cf t (.list xs) := by
    rw [encode_standard ht, List.singleton_append]
  simp only [writeStandardArray, PyValue.iterate, lengthBytes_of_lt hlen, ofOption, pure_bind]
  rw [← hd]
  refine .write hs.emptyView (.write (hs.put _).emptyView ?_)
  exact writeStandard_writes h ((hs.put _).put _)

theorem writeObjectArray_writes {k : ℤ} {xs : List PyValue} {ps : List (PyValue × DataType)}
    (hk : Scalar.int.Range k) (htyped : Typed xs ps) (hlen : xs.length < 2 ^ 31)
    (h : ∀ p ∈ ps, RecWrites cl cf rec p.2 p.1) (hs : Ready cl s) :
    Writes (∀ p ∈ ps, HeadersFilled p.2 p.1) (writeObjectArray rec (.tuple [.int k, .list xs])) s
      (touched cf .objectArrayObject (.tuple [.int k, .list xs]))
      (encode cf .objectArrayObject (.tuple [.int k, .list xs])) := by
  have hd : [DataType.objectArrayObject.typeCode] ++ (Scalar.int.store k ++
      (Scalar.int.store xs.length ++ (encodeAll cf xs).flatten)) =
      encode cf .objectArrayObject (.tuple [.int k, .list xs]) := by
    simp [encode]
  simp only [writeObjectArray, PyValue.unpack2, PyValue.iterate, PyValue.contents, PyValue.toInt?,
    signedBytes_int hk, lengthBytes_of_lt hlen, ofOption, pure_bind]
  rw [← hd]
  simp only [touched]
  refine .write hs.emptyView (.write (hs.put _).emptyView
    (.write ((hs.put _).put _).emptyView ?_))
  exact (inferAll_writes htyped h (((hs.put _).put _).put _)).map

theorem writeCollection_writes {k : ℤ} {xs : List PyValue} {ps : List (PyValue × DataType)}
    (hk : Scalar.byte.Range k) (htyped : Typed xs ps) (hlen : xs.length < 2 ^ 31)
    (h : ∀ p ∈ ps, RecWrites cl cf rec p.2 p.1) (hs : Ready cl s) :
    Writes (∀ p ∈ ps, HeadersFilled p.2 p.1) (writeCollection rec (.tuple [.int k, .list xs])) s
      (touched cf .collectionObject (.tuple [.int k, .list xs]))
      (encode cf .collectionObject (.tuple [.int k, .list xs])) := by
  have hd : [DataType.collectionObject.typeCode] ++ (Scalar.int.store xs.length ++
      (Scalar.byte.store k ++ (encodeAll cf xs).flatten)) =
      encode cf .collectionObject (.tuple [.int k, .list xs]) := by
    simp [encode]
  simp only [writeCollection, PyValue.unpack2, PyValue.iterate, PyValue.contents, PyValue.toInt?,
    signedBytes_byte hk, lengthBytes_of_lt hlen, ofOption, pure_bind]
  rw [← hd]
  simp only [touched]
  refine .write hs.emptyView (.write (hs.put _).emptyView
    (.write ((hs.put _).put _).emptyView ?_))
  exact (inferAll_writes htyped h (((hs.put _).put _).put _)).map

theorem writeMap_writes {k : ℤ} {kvs : List (PyValue × PyValue)}
    {ps : List ((PyValue × DataType) × (PyValue × DataType))} (hk : Scalar.byte.Range k)
    (htyped : TypedPairs kvs ps) (hlen : kvs.length < 2 ^ 31)
    (hks : ∀ p ∈ ps, RecWrites cl cf rec p.1.2 p.1.1)
    (hvs : ∀ p ∈ ps, RecWrites cl cf rec p.2.2 p.2.1) (hs : Ready cl s) :
    Writes (∀ p ∈ ps, HeadersFilled p.1.2 p.1.1 ∧ HeadersFilled p.2.2 p.2.1)
      (writeMap rec (.tuple [.int k, .dict kvs])) s
      (touched cf .mapObject (.tuple [.int k, .dict kvs]))
      (encode cf .mapObject (.tuple [.int k, .dict kvs])) := by
  have hd : [DataType.mapObject.typeCode] ++ (Scalar.int.store kvs.length ++
      (Scalar.byte.store k ++ (encodePairs cf kvs).flatten)) =
      encode cf .mapObject (.tuple [.int k, .dict kvs]) := by
    simp [encode]
  simp only [writeMap, PyValue.unpack2, PyValue.iterate, PyValue.toInt?, signedBytes_byte hk,
    lengthBytes_of_lt hlen, ofOption, pure_bind]
  rw [← hd]
  simp only [touched]
  refine .write hs.emptyView (.write (hs.put _).emptyView
    (.write ((hs.put _).put _).emptyView ?_))
  exact (inferPairs_writes htyped hks hvs (((hs.put _).put _).put _)).map

end Containers

/-- The ends of consecutive chunks, the first one starting at `pos`. -/
def chunkEnds : ℕ → List Bytes → List ℕ
  | _, [] => []
  | pos, c :: cs => (pos + c.length) :: chunkEnds (pos + c.length) cs

theorem cons_chunkEnds (pos : ℕ) (cs : List Bytes) :
    pos :: chunkEnds pos cs = chunkStarts pos cs ++ [pos + cs.flatten.length] := by
  induction cs generalizing pos with
  | nil => simp [chunkStarts, chunkEnds]
  | cons c cs ih =>
    rw [chunkEnds, ih, chunkStarts, List.cons_append, List.flatten_cons, List.length_append,
      Nat.add_assoc]

/-- The offsets only grow, so the greatest one is the last. -/
theorem foldl_max_append (offsets : List ℕ) (n m : ℕ) :
    (offsets ++ [offsets.foldl max n + m]).foldl max n = offsets.foldl max n + m := by
  rw [List.foldl_append]
  simp

section Objects
variable [Python] [OtherCodecs] {cl : Client} {cf : Bool} {s : BinaryStream}
  {rec : DataType → PyValue → StreamM PyValue} {fields : List (PyStr × DataType × PyValue)}

theorem writeFields_writes (h : ∀ f ∈ fields, RecWrites cl cf rec f.2.1 f.2.2)
    (hs : Ready cl s) (offsets : List ℕ) :
    Writes (∀ f ∈ fields, HeadersFilled f.2.1 f.2.2) (writeFields rec fields offsets) s
      (touchedFields cf fields,
        offsets ++ chunkEnds (offsets.foldl max 0) (encodeFields cf fields))
      (encodeFields cf fields).flatten := by
  induction fields generalizing s offsets with
  | nil =>
    have hnil := Writes.of_pure s (([], offsets) : List (PyStr × DataType × PyValue) × List ℕ)
    have h0 := hnil.congr (q := ∀ f ∈ ([] : List (PyStr × DataType × PyValue)),
      HeadersFilled f.2.1 f.2.2) (by simp) rfl
    simpa [writeFields, touchedFields, encodeFields, chunkEnds] using h0
  | cons f fields ih =>
    obtain ⟨name, t, v⟩ := f
    have hf := h (name, t, v) (by simp) s hs
    have hrest := ih (fun g hg => h g (by simp [hg])) (hs.put (encode cf t v))
      (offsets ++ [offsets.foldl max 0 + (encode cf t v).length])
    rw [foldl_max_append] at hrest
    have hsize : (s.put (encode cf t v)).pos - s.pos = (encode cf t v).length := by simp
    have hall : Writes (HeadersFilled t v ∧ (∀ f ∈ fields, HeadersFilled f.2.1 f.2.2) ∧ True)
        (writeFields rec ((name, t, v) :: fields) offsets) s
        (touchedFields cf ((name, t, v) :: fields),
          offsets ++ chunkEnds (offsets.foldl max 0) (encodeFields cf ((name, t, v) :: fields)))
        (encode cf t v ++ ((encodeFields cf fields).flatten ++ [])) := by
      rw [writeFields]
      refine Writes.reading (tell_ok s) (hf.bind (Writes.reading (tell_ok _) ?_))
      rw [hsize]
      refine hrest.bind ?_
      simpa [touchedFields, encodeFields, chunkEnds] using Writes.of_pure _ _
    exact hall.congr (by simp) (by simp [encodeFields])

omit [Python] [OtherCodecs] in
/-- The flags that the writer puts together. -/
theorem flags_eq (cf : Bool) (offsets : List ℕ) :
    (if offsets.foldl max 0 < 255 then
        (USER_TYPE ||| HAS_SCHEMA ||| if cf = true then COMPACT_FOOTER else 0) ||| OFFSET_ONE_BYTE
      else if offsets.foldl max 0 < 65535 then
        (USER_TYPE ||| HAS_SCHEMA ||| if cf = true then COMPACT_FOOTER else 0) ||| OFFSET_TWO_BYTES
      else USER_TYPE ||| HAS_SCHEMA ||| if cf = true then COMPACT_FOOTER else 0) =
      objectFlags cf offsets := by
  unfold objectFlags widthFlag
  split_ifs <;> rfl

/-- The header of an object as `write_header` fills it. -/
def writtenHeader (cf : Bool) (head : ObjHead) (fields : List (PyStr × DataType × PyValue))
    (chunks : List Bytes) : Header :=
  { objectHeader cf head fields chunks with
    typeId := ((typeIdAttr head fields).toInt?).getD 0 }

/-- The bytes of an object whose fields were written as `chunks`. -/
def objectBytes (cf : Bool) (head : ObjHead) (fields : List (PyStr × DataType × PyValue))
    (chunks : List Bytes) : Bytes :=
  (writtenHeader cf head fields chunks).store ++ (chunks.flatten ++ objectFooter cf fields chunks)

omit [OtherCodecs] in
theorem headerAttrs_eq_ok {head : ObjHead} {i j : ℤ} : headerAttrs head fields = .ok (i, j) ↔
    hasField fromPythonName fields = false ∧ (versionAttr head fields).toInt? = some i ∧
      (typeIdAttr head fields).toInt? = some j ∧ hasField schemaName fields = false ∧
        typeNameHashed fields = true := by
  unfold headerAttrs
  cases hasField fromPythonName fields with
  | true => exact iff_of_false (by rintro ⟨⟩) (by simp)
  | false =>
    cases (versionAttr head fields).toInt? with
    | none => exact iff_of_false (by rintro ⟨⟩) (by simp)
    | some version =>
      cases typeNameHashed fields with
      | false => exact iff_of_false (by rintro ⟨⟩) (by simp)
      | true =>
        cases (typeIdAttr head fields).toInt? with
        | none => exact iff_of_false (by rintro ⟨⟩) (by simp)
        | some typeId =>
          cases hasField schemaName fields with
          | true => exact iff_of_false (by rintro ⟨⟩) (by simp)
          | false =>
            simp only [true_and, and_true, Option.some.injEq]
            constructor
            · rintro ⟨⟩
              exact ⟨rfl, rfl⟩
            · rintro ⟨rfl, rfl⟩
              rfl

omit [Python] [OtherCodecs] in
/-- The hash code is computed of what the fields have written; a view of an empty buffer
would be left behind. -/
theorem hashcode_of_written {p : ℕ} {data : Bytes} (hv : s.emptyView = false)
    (hat : At s.buf p data) (hempty : data = [] → s.buf ≠ []) :
    hashcode p data.length s = .ok (hashcodeBytes data, s) := by
  by_cases hdata : data = []
  · subst hdata
    rw [hashcode, BinaryStream.exported_eq hv (hempty rfl)]
    simp [sliceAt]
  · exact hashcode_at hv hat hdata

omit [OtherCodecs] in
/-- `_from_python`, once the fields are written; `s'` is the stream before it, with the
classes registered that the client has registered meanwhile. -/
theorem objFromPython_run (s' : BinaryStream) (save : Bool) {head : ObjHead} {i j : ℤ}
    {chunks : List Bytes} {fields' : List (PyStr × DataType × PyValue)}
    (hfooter : s.client.compactFooter = cf) (hpos : s'.pos = s.pos)
    (hfooter' : s'.client.compactFooter = cf) (hv : s'.emptyView = false)
    (hi : headerAttrs head fields = .ok (i, j))
    (hwrite : writeFields rec fields [headerSize] (s.skip headerSize) =
      .ok ((fields', [headerSize] ++ chunkEnds headerSize chunks),
        (s'.skip headerSize).put chunks.flatten))
    (hnames : fields'.map (fun f => f.1) = fields.map fun f => f.1)
    (hempty : chunks.flatten = [] → s'.buf ≠ [])
    (hsize : headerSize + chunks.flatten.length < 2 ^ 31) :
    objFromPython rec save head fields s =
      .ok (.obj { head with
          buffer := if save then some (objectBytes cf head fields chunks) else head.buffer
          hashcode := some (hashcodeBytes chunks.flatten) } fields',
        s'.put (objectBytes cf head fields chunks)) := by
  have hoffsets : ([headerSize] ++ chunkEnds headerSize chunks).dropLast =
      chunkStarts headerSize chunks := by
    rw [List.singleton_append, cons_chunkEnds, List.dropLast_concat]
  have hlen : ((s'.skip headerSize).put chunks.flatten).pos - s.pos - headerSize =
      chunks.flatten.length := by
    simp only [BinaryStream.put_pos, BinaryStream.skip_pos]
    omega
  have hwrap : Scalar.int.wrap (chunks.flatten.length + headerSize : ℕ) =
      (headerSize + chunks.flatten.length : ℕ) := by
    rw [Nat.add_comm, Scalar.wrap_eq_iff]
    simp only [Scalar.Range, Scalar.isSigned, Scalar.size, SignedRange, if_true]
    omega
  obtain ⟨-, hversion, htypeId, -⟩ := headerAttrs_eq_ok.mp hi
  have hheader : (⟨i, (objectFlags cf (chunkStarts headerSize chunks) : ℕ), j,
      hashcodeBytes chunks.flatten,
      (headerSize + chunks.flatten.length : ℕ) + (objectFooter cf fields chunks).length,
      (classOf head fields).schemaId, (headerSize + chunks.flatten.length : ℕ)⟩ : Header) =
      writtenHeader cf head fields chunks := by
    simp [writtenHeader, objectHeader, objectFooter, hversion, htypeId]
  have hback := s'.put_back (b := chunks.flatten)
    (a := (writtenHeader cf head fields chunks).store) (by simp [Header.store])
  rw [Header.store_length] at hback
  have hat : At ((s'.skip headerSize).put chunks.flatten).buf (s'.pos + headerSize)
      chunks.flatten := at_writeAt _ _ _
  have hhash := hashcode_of_written (s := (s'.skip headerSize).put chunks.flatten) hv hat
    fun hdata hbuf => hempty hdata (by simpa [hdata] using hbuf)
  unfold objFromPython
  rw [bind_ok (tell_ok s), bind_ok (compactFooter_ok hfooter),
    bind_ok (a := (i, j)) (by rw [hi]; rfl)]
  dsimp only
  rw [bind_ok (seekCur_ok _ _), bind_ok hwrite]
  dsimp only
  rw [bind_ok (compactFooter_ok (s := (s'.skip headerSize).put _) hfooter'),
    bind_ok (tell_ok _), hlen, hoffsets, hnames, ← hpos, bind_ok hhash, bind_ok (seek_ok _ _),
    bind_ok (write_ok (by simpa using hv) _), flags_eq, hwrap]
  rw [show footerBytes cf (objectFlags cf (chunkStarts headerSize chunks))
    (fields.map fun f => f.1) (chunkStarts headerSize chunks) = objectFooter cf fields chunks
    from rfl]
  rw [hheader, ← Nat.cast_add, bind_ok (seek_ok _ _), ← Nat.add_assoc, hback,
    bind_ok (write_ok (by simpa using hv) _), BinaryStream.put_put, List.append_assoc,
    bind_ok (tell_ok _), ← objectBytes]
  cases save with
  | false => rfl
  | true =>
    have hne : objectBytes cf head fields chunks ≠ [] := by simp [objectBytes, Header.store]
    rw [if_pos rfl, BinaryStream.put_pos, Nat.add_sub_cancel_left,
      bind_ok (slice_at (by simpa using hv) (at_writeAt s'.buf s'.pos _) hne)]
    rfl

/-- An object whose fields were written, with its caches. -/
def withCaches (cf save : Bool) (head : ObjHead) (fields : List (PyStr × DataType × PyValue)) :
    PyValue :=
  let chunks := encodeFields cf fields
  let buffer := if save then some (objectBytes cf head fields chunks) else head.buffer
  .obj { head with buffer, hashcode := some (hashcodeBytes chunks.flatten) }
    (touchedFields cf fields)

/-- `_from_python` writes the object, if its fields can be written and its header can be
filled. -/
theorem objFromPython_writes (hcf : cl.compactFooter = cf) {head : ObjHead} {save : Bool}
    (hs : Ready cl s) (hne : (encodeFields cf fields).flatten ≠ [])
    (hsize : (encode cf .binaryObject (.obj head fields)).length < 2 ^ 31)
    (h : ∀ f ∈ fields, RecWrites cl cf rec f.2.1 f.2.2) :
    Writes (HeadersFilled .binaryObject (.obj head fields)) (objFromPython rec save head fields) s
      (withCaches cf save head fields) (objectBytes cf head fields (encodeFields cf fields)) := by
  have hheaders : HeadersFilled .binaryObject (.obj head fields) ↔
      (∃ attrs, headerAttrs head fields = .ok attrs) ∧
        ∀ f ∈ fields, HeadersFilled f.2.1 f.2.2 := by
    simp only [HeadersFilled, objects, objectsFields_eq, List.forall_mem_cons,
      List.forall_mem_flatMap]
  have hfooter : s.client.compactFooter = cf := by rw [hs.client, hcf]
  have hfields := writeFields_writes h (s := s.skip headerSize) ⟨hs.client, hs.emptyView⟩
    [headerSize]
  rw [encode_obj] at hsize
  simp only [List.length_append, Header.store_length] at hsize
  rw [hheaders]
  refine ⟨?_, fun hn => ?_⟩
  · rintro ⟨⟨⟨i, j⟩, hi⟩, hall⟩
    exact objFromPython_run s save hfooter rfl hfooter hs.emptyView hi (hfields.1 hall)
      (touchedFields_names fields) (fun h => absurd h hne) (by omega)
  · unfold objFromPython
    rw [bind_ok (tell_ok s), bind_ok (compactFooter_ok hfooter)]
    cases hi : headerAttrs head fields with
    | error e => exact ⟨e, bind_error rfl⟩
    | ok attrs =>
      obtain ⟨e, he⟩ := hfields.2 fun hall => hn ⟨⟨attrs, hi⟩, hall⟩
      rw [bind_ok (a := attrs) rfl]
      dsimp only
      rw [bind_ok (seekCur_ok _ _)]
      exact ⟨e, bind_error he⟩

omit [OtherCodecs] in
/-- With a type id of its own, an object is written with the header of its class. -/
theorem objectBytes_of_own {head : ObjHead} {chunks : List Bytes}
    (hown : ∃ i j, headerAttrs head fields = .ok (i, j) ∧
      Scalar.int.wrap j = (classOf head fields).typeId) :
    objectBytes cf head fields chunks = (objectHeader cf head fields chunks).store ++
      (chunks.flatten ++ objectFooter cf fields chunks) := by
  obtain ⟨i, j, hi, hown⟩ := hown
  have hstore : Scalar.int.store j = Scalar.int.store (objectHeader cf head fields chunks).typeId := by
    rw [← Scalar.store_load (Scalar.store_length .int j), ← Scalar.wrap, hown]
    rfl
  rw [objectBytes, writtenHeader, (headerAttrs_eq_ok.mp hi).2.2.1, Option.getD_some]
  simp only [Header.store, hstore]

theorem objectBytes_eq_encode {head : ObjHead}
    (h : HeadersFilled .binaryObject (.obj head fields))
    (hown : ∀ i ∈ (typeIdAttr head fields).toInt?,
      Scalar.int.wrap i = (classOf head fields).typeId) :
    objectBytes cf head fields (encodeFields cf fields) =
      encode cf .binaryObject (.obj head fields) := by
  obtain ⟨⟨i, j⟩, hi⟩ := h (head, fields) (by simp [objects])
  rw [encode_obj, objectBytes_of_own ⟨i, j, hi, hown j (headerAttrs_eq_ok.mp hi).2.2.1⟩]

theorem chunks_ne_nil (hne : fields ≠ []) (hfields : ∀ f ∈ fields, Encodable cl cf f.2.1 f.2.2) :
    (encodeFields cf fields).flatten ≠ [] := by
  obtain ⟨f, hf⟩ := List.exists_mem_of_ne_nil _ hne
  rw [encodeFields_eq]
  intro hnil
  exact (hfields f hf).encode_ne_nil (List.flatten_eq_nil_iff.mp hnil _ (List.mem_map_of_mem hf))

/-- `from_python_not_null` of an object: a cached representation is written as it is. -/
theorem binaryFromPython_writes (hcf : cl.compactFooter = cf) {head : ObjHead}
    (hs : Ready cl s) (hv : Encodable cl cf .binaryObject (.obj head fields))
    (hown : ∀ i ∈ (typeIdAttr head fields).toInt?,
      Scalar.int.wrap i = (classOf head fields).typeId)
    (h : ∀ f ∈ fields, RecWrites cl cf rec f.2.1 f.2.2) :
    Writes (HeadersFilled .binaryObject (.obj head fields)) (binaryFromPython rec (.obj head fields))
      s (touched cf .binaryObject (.obj head fields))
      (encode cf .binaryObject (.obj head fields)) := by
  cases hv with | obj hne _ hfields hreg hsize hbuffer =>
  have hchunks := chunks_ne_nil hne hfields
  have hregister : registerBinaryType (classOf head fields) s = .ok ((), s) := by
    rw [← hs.client] at hreg
    rw [registerBinaryType, Client.registerBinaryType_of_registered hreg]
  have hwrite := Writes.reading (f := fun _ => objFromPython rec false head fields) hregister
    ((objFromPython_writes hcf hs hchunks hsize h).congr_bytes fun hheaders =>
      objectBytes_eq_encode hheaders hown)
  cases hb : head.buffer with
  | some buffer =>
    cases buffer with
    | cons b buffer =>
      obtain ⟨hbytes, hheaders⟩ := hbuffer _ hb
      simp only [binaryFromPython, hb, touched]
      rw [hbytes]
      exact (Writes.of_ok (write_ok hs.emptyView _)).map.congr (iff_of_true trivial hheaders) rfl
    | nil => simpa [binaryFromPython, hb, touched, withCaches] using hwrite
  | none => simpa [binaryFromPython, hb, touched, withCaches] using hwrite

end Objects

section Depth
open PyValue

theorem depth_le_depthList {x : PyValue} {xs : List PyValue} (h : x ∈ xs) :
    x.depth ≤ depthList xs := by
  induction xs with
  | nil => simp at h
  | cons y ys ih =>
    rw [depthList]
    rcases List.mem_cons.mp h with rfl | h
    · exact le_max_left _ _
    · exact (ih h).trans (le_max_right _ _)

theorem depth_le_depthPairs {p : PyValue × PyValue} {kvs : List (PyValue × PyValue)}
    (h : p ∈ kvs) : max p.1.depth p.2.depth ≤ depthPairs kvs := by
  induction kvs with
  | nil => simp at h
  | cons q kvs ih =>
    obtain ⟨k, v⟩ := q
    rw [depthPairs]
    rcases List.mem_cons.mp h with rfl | h
    · exact le_max_left _ _
    · exact (ih h).trans (le_max_right _ _)

theorem depth_le_depthFields {f : PyStr × DataType × PyValue}
    {fields : List (PyStr × DataType × PyValue)} (h : f ∈ fields) :
    f.2.2.depth ≤ depthFields fields := by
  induction fields with
  | nil => simp at h
  | cons g fields ih =>
    obtain ⟨n, t, v⟩ := g
    rw [depthFields]
    rcases List.mem_cons.mp h with rfl | h
    · exact le_max_left _ _
    · exact (ih h).trans (le_max_right _ _)

theorem depth_typed {x : PyValue} {p : PyValue × DataType} (h : typed x = some p) :
    p.1.depth ≤ x.depth := by
  rcases typed_cases h with rfl | ⟨-, -, rfl⟩
  · simp [depth]
  · exact le_rfl

theorem exists_of_typed {xs : List PyValue} {ps : List (PyValue × DataType)} (h : Typed xs ps)
    {p : PyValue × DataType} (hp : p ∈ ps) : ∃ x ∈ xs, typed x = some p := by
  induction h with
  | nil => simp at hp
  | @cons x q xs ps hx _ ih =>
    rcases List.mem_cons.mp hp with rfl | hp
    · exact ⟨x, by simp, hx⟩
    · obtain ⟨y, hy, hyp⟩ := ih hp
      exact ⟨y, by simp [hy], hyp⟩

theorem exists_of_typedPairs {kvs : List (PyValue × PyValue)}
    {ps : List ((PyValue × DataType) × (PyValue × DataType))} (h : TypedPairs kvs ps)
    {p : (PyValue × DataType) × (PyValue × DataType)} (hp : p ∈ ps) :
    ∃ kv ∈ kvs, typed kv.1 = some p.1 ∧ typed kv.2 = some p.2 := by
  induction h with
  | nil => simp at hp
  | @cons kv q kvs ps hkv _ ih =>
    rcases List.mem_cons.mp hp with rfl | hp
    · exact ⟨kv, by simp, hkv⟩
    · obtain ⟨y, hy, hyp⟩ := ih hp
      exact ⟨y, by simp [hy], hyp⟩

theorem depth_of_typed {xs : List PyValue} {ps : List (PyValue × DataType)} (h : Typed xs ps)
    {p : PyValue × DataType} (hp : p ∈ ps) (k : ℤ) :
    p.1.depth + 2 ≤ (tuple [.int k, .list xs]).depth := by
  obtain ⟨x, hx, hxp⟩ := exists_of_typed h hp
  have := (depth_typed hxp).trans (depth_le_depthList hx)
  simp only [depth, depthList] at this ⊢
  omega

theorem depth_of_typedPairs {kvs : List (PyValue × PyValue)}
    {ps : List ((PyValue × DataType) × (PyValue × DataType))} (h : TypedPairs kvs ps)
    {p : (PyValue × DataType) × (PyValue × DataType)} (hp : p ∈ ps) (k : ℤ) :
    max p.1.1.depth p.2.1.depth + 2 ≤ (tuple [.int k, .dict kvs]).depth := by
  obtain ⟨kv, hkv, hk, hv⟩ := exists_of_typedPairs h hp
  have := (max_le_max (depth_typed hk) (depth_typed hv)).trans (depth_le_depthPairs hkv)
  simp only [depth, depthList] at this ⊢
  omega

end Depth

section Main
variable [Python] [OtherCodecs] {cl : Client} {cf : Bool} {t : DataType} {v : PyValue} {n : ℕ}

theorem fromPythonN_succ (hv : v ≠ .none) (n : ℕ) (t : DataType) :
    fromPythonN (n + 1) t v = fromPythonNotNull (fromPythonN n) t v := by
  cases v <;> first | exact absurd rfl hv | rfl

/-- A class without nested values writes through `w` alone. -/
theorem recWrites_leaf {w : StreamM Unit} (hv : v ≠ .none)
    (hw : fromPythonNotNull (fromPythonN n) t v = (do w; pure v))
    (hok : ∀ s : BinaryStream, s.emptyView = false → w s = .ok ((), s.put (encode cf t v)))
    (htouched : touched cf t v = v) (hobjects : objects t v = []) :
    RecWrites cl cf (fromPythonN (n + 1)) t v := by
  intro s hs
  rw [fromPythonN_succ hv, hw, htouched]
  exact (Writes.of_ok (hok s hs.emptyView)).map.congr (by simp [HeadersFilled, hobjects]) rfl

/-- The step of the induction for containers and objects: the class writes `v`, if
its nested values are written by `fromPythonN n`. -/
theorem recWrites_step (hv : v ≠ .none)
    (h : ∀ s, Ready cl s → Writes (HeadersFilled t v) (fromPythonNotNull (fromPythonN n) t v) s
      (touched cf t v) (encode cf t v)) : RecWrites cl cf (fromPythonN (n + 1)) t v := by
  intro s hs
  rw [fromPythonN_succ hv]
  exact h s hs

theorem recWrites_of_lt {rec : ℕ → DataType → PyValue → StreamM PyValue} {d : ℕ}
    (h : ∀ n, d ≤ n → RecWrites cl cf (rec (n + 1)) t v) (hn : d < n) :
    RecWrites cl cf (rec n) t v := by
  obtain ⟨m, rfl⟩ := Nat.exists_eq_add_of_lt hn
  exact h (d + m) (Nat.le_add_right d m)

/-- Under a sufficient bound the writer of an encodable value writes `encode` of it. -/
theorem fromPythonN_writes (hcf : cl.compactFooter = cf) (h : Encodable cl cf t v)
    (hown : OwnTypeIds t v) :
    ∀ n, v.depth ≤ n → RecWrites cl cf (fromPythonN (n + 1)) t v := by
  induction h with
  | none t =>
    intro n hn s hs
    rw [touched_none, encode_none]
    exact (Writes.of_ok (write_ok hs.emptyView _)).map.congr (by simp [HeadersFilled]) rfl
  | @int t sc i ht hi =>
    intro n hn
    refine recWrites_leaf (w := writeDataObject t sc (.int i)) (by simp) ?_ (fun s hs => ?_) ?_ ?_
    · cases t <;> simp_all [DataType.intScalar, fromPythonNotNull]
    · rw [writeDataObject_ok hs rfl]
      cases t <;> simp_all [DataType.intScalar, encode]
    · cases t <;> simp_all [DataType.intScalar, touched]
    · cases t <;> simp_all [DataType.intScalar, objects]
  | bool b =>
    intro n hn
    refine recWrites_leaf (w := writeDataObject .boolObject .byte (.bool b)) (by simp) rfl
      (fun s hs => ?_) (by simp only [touched]) (by simp only [objects])
    rw [writeDataObject_ok hs rfl]
    simp only [encode]
  | @str x hx hlen =>
    intro n hn
    refine recWrites_leaf (w := writeString (.str x)) (by simp) rfl (fun s hs => ?_)
      (by simp only [touched]) (by simp only [objects])
    rw [writeString_ok hs hx]
    simp only [encode]
  | uuid u =>
    intro n hn
    refine recWrites_leaf (w := writeUUID (.uuid u)) (by simp) rfl (fun s hs => ?_)
      (by simp only [touched]) (by simp only [objects])
    rw [writeUUID, write_ok hs]
    simp only [encode]
  | @enum t a b ht ha hb =>
    intro n hn
    refine recWrites_leaf (w := writeEnum t (.tuple [.int a, .int b])) (by simp) ?_
      (fun s hs => ?_) ?_ ?_
    · rcases ht with rfl | rfl <;> rfl
    · rw [writeEnum_ok hs]
      rcases ht with rfl | rfl <;> simp only [encode]
    · rcases ht with rfl | rfl <;> simp only [touched]
    · rcases ht with rfl | rfl <;> simp only [objects]
  | @bytes b hlen =>
    intro n hn
    refine recWrites_leaf (w := writeByteArray (.bytes b)) (by simp) rfl (fun s hs => ?_)
      (by simp only [touched]) (by simp only [objects])
    rw [writeByteArray_ok hs (by omega)]
    simp only [encode]
  | @intArray t sc is ht his hlen =>
    intro n hn
    have hpack : ∀ x ∈ is.map PyValue.int, packSigned sc x =
        .ok ((t.arrayScalar.getD .byte).store (x.toInt?.getD 0)) := by
      intro x hx
      obtain ⟨i, hi, rfl⟩ := List.mem_map.mp hx
      simp [packSigned, PyValue.toInt?, his i hi, ht]
    refine recWrites_leaf (w := writePrimitiveArray t (packSigned sc) (.list (is.map .int)))
      (by simp) ?_ (fun s hs => ?_) ?_ ?_
    · cases t <;> simp_all [DataType.arrayScalar, fromPythonNotNull]
    · rw [writePrimitiveArray_ok hs (by rw [List.length_map]; omega) hpack]
      cases t <;> simp_all [DataType.arrayScalar, DataType.standardType, encode]
    · cases t <;> simp_all [DataType.arrayScalar, touched]
    · cases t <;> simp_all [DataType.arrayScalar, objects]
  | @boolArray bs hlen =>
    intro n hn
    have hpack : ∀ x ∈ bs.map PyValue.bool, packBool x =
        .ok ((DataType.boolArrayObject.arrayScalar.getD .byte).store (x.toInt?.getD 0)) := by
      intro x hx
      obtain ⟨b, -, rfl⟩ := List.mem_map.mp hx
      cases b <;> rfl
    refine recWrites_leaf (w := writePrimitiveArray .boolArrayObject packBool (.list (bs.map .bool)))
      (by simp) rfl (fun s hs => ?_) (by simp only [touched]) (by simp only [objects])
    rw [writePrimitiveArray_ok hs (by rw [List.length_map]; omega) hpack]
    simp only [encode, DataType.standardType]
  | @standardArray t std xs ht hxs hlen ih =>
    intro n hn
    rw [PyValue.depth] at hn
    have howns : ∀ x ∈ xs, OwnTypeIds std x := fun x hx => by
      simp [OwnTypeIds, (hxs x hx).objects_standard ht]
    have hrec : ∀ x ∈ xs, RecWrites cl cf (fromPythonN n) std x := fun x hx =>
      recWrites_of_lt (ih x hx (howns x hx)) (lt_of_lt_of_le (Nat.lt_succ_of_le (depth_le_depthList hx)) hn)
    refine recWrites_step (by simp) fun s hs => ?_
    have hheaders : ∀ x ∈ xs, HeadersFilled std x := fun x hx => by
      simp [HeadersFilled, (hxs x hx).objects_standard ht]
    have hwrite := ((writeStandardArray_writes ht hlen hrec hs).map
      (f := fun _ => PyValue.list xs)).congr (iff_true_intro hheaders) rfl
    cases t <;> simp only [DataType.standardType, reduceCtorEq, Option.some.injEq] at ht <;>
      subst ht <;>
      simpa [fromPythonNotNull, touched, HeadersFilled, objects] using hwrite
  | @objectArray k xs ps hk htyped hps hlen ih =>
    intro n hn
    have howns : ∀ p ∈ ps, OwnTypeIds p.2 p.1 := by
      simpa only [OwnTypeIds, objects, objectsAll_typed htyped, List.forall_mem_flatMap] using hown
    have hrec : ∀ p ∈ ps, RecWrites cl cf (fromPythonN n) p.2 p.1 := fun p hp =>
      recWrites_of_lt (ih p hp (howns p hp)) (by have := depth_of_typed htyped hp k; omega)
    refine recWrites_step (by simp) fun s hs => ?_
    exact (writeObjectArray_writes hk htyped hlen hrec hs).congr
      (by simp only [HeadersFilled, objects, objectsAll_typed htyped, List.forall_mem_flatMap]) rfl
  | @collection k xs ps hk htyped hps hlen ih =>
    intro n hn
    have howns : ∀ p ∈ ps, OwnTypeIds p.2 p.1 := by
      simpa only [OwnTypeIds, objects, objectsAll_typed htyped, List.forall_mem_flatMap] using hown
    have hrec : ∀ p ∈ ps, RecWrites cl cf (fromPythonN n) p.2 p.1 := fun p hp =>
      recWrites_of_lt (ih p hp (howns p hp)) (by have := depth_of_typed htyped hp k; omega)
    refine recWrites_step (by simp) fun s hs => ?_
    exact (writeCollection_writes hk htyped hlen hrec hs).congr
      (by simp only [HeadersFilled, objects, objectsAll_typed htyped, List.forall_mem_flatMap]) rfl
  | @map k kvs ps hk htyped hks hvs hlen hkeys ihk ihv =>
    intro n hn
    have hdepth : ∀ p ∈ ps, max p.1.1.depth p.2.1.depth < n := fun p hp => by
      have := depth_of_typedPairs htyped hp k
      omega
    have howns : ∀ p ∈ ps, OwnTypeIds p.1.2 p.1.1 ∧ OwnTypeIds p.2.2 p.2.1 := by
      simpa only [OwnTypeIds, objects, objectsPairs_typed htyped, List.forall_mem_flatMap,
        List.forall_mem_append] using hown
    refine recWrites_step (by simp) fun s hs => ?_
    refine (writeMap_writes hk htyped hlen
      (fun p hp => recWrites_of_lt (ihk p hp (howns p hp).1) (max_lt_iff.mp (hdepth p hp)).1)
      (fun p hp => recWrites_of_lt (ihv p hp (howns p hp).2) (max_lt_iff.mp (hdepth p hp)).2)
      hs).congr ?_ rfl
    simp only [HeadersFilled, objects, objectsPairs_typed htyped, List.forall_mem_flatMap,
      List.forall_mem_append]
  | @obj head fields hne hnames hfields hreg hsize hbuffer ih =>
    intro n hn
    rw [PyValue.depth] at hn
    simp only [OwnTypeIds, objects, objectsFields_eq, List.forall_mem_cons,
      List.forall_mem_flatMap] at hown
    have hrec : ∀ f ∈ fields, RecWrites cl cf (fromPythonN n) f.2.1 f.2.2 := fun f hf =>
      recWrites_of_lt (ih f hf (hown.2 f hf))
        (lt_of_lt_of_le (Nat.lt_succ_of_le (depth_le_depthFields hf)) hn)
    refine recWrites_step (by simp) fun s hs => ?_
    exact binaryFromPython_writes hcf hs (Encodable.obj hne hnames hfields hreg hsize hbuffer)
      hown.1 hrec
  | @leaf t v h =>
    intro n hn
    refine recWrites_leaf (w := (OtherCodecs.codec t).fromPythonNotNull v) h.not_none rfl
      (fun s hs => ?_) (touched_other h.not_hinted) (objects_other h.not_hinted)
    rw [h.writes s hs, encode_other h.not_none h.not_hinted]

theorem fromPython_writes (hcf : cl.compactFooter = cf) (h : Encodable cl cf t v)
    (hown : OwnTypeIds t v) {s : BinaryStream} (hs : Ready cl s) :
    Writes (HeadersFilled t v) (fromPython t v) s (touched cf t v) (encode cf t v) := by
  rw [fromPython]
  exact fromPythonN_writes hcf h hown _ le_rfl s hs

theorem fromPython_ok (h : Encodable cl cl.compactFooter t v) (hheaders : HeadersOwn t v)
    {s : BinaryStream} (hs : Ready cl s) : fromPython t v s =
      .ok (touched cl.compactFooter t v, s.put (encode cl.compactFooter t v)) :=
  (fromPython_writes rfl h hheaders.typeIds hs).1 hheaders.filled

/-- `_from_python` of an object with encodable fields. -/
theorem objectFromPython_writes (hcf : cl.compactFooter = cf) {save : Bool} {head : ObjHead}
    {fields : List (PyStr × DataType × PyValue)} (hne : fields ≠ [])
    (hfields : ∀ f ∈ fields, Encodable cl cf f.2.1 f.2.2)
    (hsize : (encode cf .binaryObject (.obj head fields)).length < 2 ^ 31)
    (hown : ∀ f ∈ fields, OwnTypeIds f.2.1 f.2.2) {s : BinaryStream} (hs : Ready cl s) :
    Writes (HeadersFilled .binaryObject (.obj head fields)) (objectFromPython save head fields) s
      (withCaches cf save head fields) (objectBytes cf head fields (encodeFields cf fields)) := by
  have hrec : ∀ f ∈ fields, RecWrites cl cf
      (fromPythonN (PyValue.depthFields fields + 1)) f.2.1 f.2.2 := fun f hf =>
    fromPythonN_writes hcf (hfields f hf) (hown f hf) _ (depth_le_depthFields hf)
  rw [objectFromPython]
  exact objFromPython_writes hcf hs (chunks_ne_nil hne hfields) hsize hrec

end Main

end PyGridGain
