import PyGridGain.Codec.Scalars
import PyGridGain.Codec.Strings
import PyGridGain.Datatypes.PrimitiveArrays

/-! Which lists of elements the classes of primitive arrays give back, with a type code and
without one. -/

namespace PyGridGain

open CObj StreamM

/-- `from_python` does not raise, and what it wrote is read back. -/
def Returns (w : WireClass) (v : PyValue) (ok : PyValue → Prop) : Prop :=
  Accepts w v ∧ RaisesOrReads w v ok

section Returns
variable {w : WireClass} {v : PyValue} {data : Bytes} {result : Except PyError PyValue}
  {ok : PyValue → Prop}

theorem returns_iff (hw : WritesAs w v data) (hne : data ≠ []) (hr : ReadsAs w data result) :
    Returns w v ok ↔ ∃ x, result = .ok x ∧ ok x := by
  have haccepts : Accepts w v := fun s hs => by
    obtain ⟨v', hv'⟩ := hw s hs
    exact ⟨_, hv'⟩
  rw [Returns, raisesOrReads_iff hw hne hr, and_iff_right haccepts]

theorem Refuses.not_returns (h : Refuses w v) : ¬Returns w v ok := by
  rintro ⟨haccepts, -⟩
  obtain ⟨r, hr⟩ := haccepts ⟨⟨none, fun _ => [], fun _ => []⟩, [], 0, false⟩ rfl
  obtain ⟨e, he⟩ := h ⟨⟨none, fun _ => [], fun _ => []⟩, [], 0, false⟩
  rw [hr] at he
  cases he

end Returns

/-! ### Lists that are too long -/

theorem lengthBytes_none {n : ℕ} (h : 2 ^ 32 ≤ n) : lengthBytes n = none := by
  rw [lengthBytes, if_neg (by omega)]

theorem list_header_error {α : Type} {k : List PyValue → Bytes → StreamM α} {xs : List PyValue}
    (h : 2 ^ 32 ≤ xs.length) (s : BinaryStream) :
    ∃ e, (ofOption (PyValue.iterate (.list xs)) .typeError >>= fun xs =>
      ofOption (lengthBytes xs.length) .overflowError >>= k xs) s = .error e := by
  refine error_bind fun ys s' hys => ?_
  obtain ⟨rfl, rfl⟩ := Prod.mk.inj (Except.ok.inj hys)
  rw [lengthBytes_none h]
  exact ⟨_, rfl⟩

theorem coded_header_error {α : Type} {k : List PyValue → Bytes → StreamM α} {xs : List PyValue}
    (code : Bytes) (h : 2 ^ 32 ≤ xs.length) (s : BinaryStream) :
    ∃ e, (ofOption (PyValue.iterate (.list xs)) .typeError >>= fun xs => write code >>= fun _ =>
      ofOption (lengthBytes xs.length) .overflowError >>= k xs) s = .error e := by
  refine error_bind fun ys s' hys => error_bind fun _ _ _ => ?_
  obtain ⟨rfl, rfl⟩ := Prod.mk.inj (Except.ok.inj hys)
  rw [lengthBytes_none h]
  exact ⟨_, rfl⟩

/-! ### The payload alone -/

def payloadParts (s : Scalar) (n : ℕ) (b : Bytes) : List (FieldName × Layout × Bytes) :=
  [scalarPart .length .int n, (.data, .array (.scalar s) n, b)]

theorem payloadParts_filled {s : Scalar} {n : ℕ} {b : Bytes} (h : b.length = n * s.size) :
    Filled (payloadParts s n b) := by
  refine (scalarPart_filled _ _ _).append (b := [_]) ?_
  simpa [Filled, CType.size] using h

theorem payloadParts_nodup (s : Scalar) (n : ℕ) (b : Bytes) :
    ((payloadParts s n b).map (·.1)).Nodup := by
  simp [payloadParts, scalarPart]

section Payload
variable {s : Scalar} {is : List ℤ} {result : Except PyError PyValue}

/-- What stands for the numbers `is`, without a type code. -/
def payloadBytes (s : Scalar) (is : List ℤ) : Bytes :=
  Scalar.int.store is.length ++ is.flatMap s.store

theorem payloadBytes_ne_nil : payloadBytes s is ≠ [] := by
  rw [← List.length_pos_iff, payloadBytes, List.length_append, Scalar.store_length, Scalar.size]
  omega

theorem readsAs_payload {w : WireClass} (hparse : w.parse = parsePayload s)
    (hlen : is.length < 2 ^ 32)
    (hpy : ∀ client, w.toPython client
      (ofParts (payloadParts s is.length (is.flatMap s.store))) = result) :
    ReadsAs w (payloadBytes s is) result := by
  have hbytes := flatMap_store_length s is
  refine ⟨payloadLayout s is.length, ?_, fun r hr hat => ?_, fun client => ?_⟩
  · simp [payloadLayout, CType.size, CType.sizeFields, Scalar.size, payloadBytes, hbytes]
  · have hpeek : peekLength 0 r = .ok (is.length % 2 ^ 32, r) := peekLength_mod hr hat.left
    rw [Nat.mod_eq_of_lt hlen] at hpeek
    rw [hparse]
    exact bind_ok hpeek
  · rw [← hpy client]
    simp [payloadBytes, ofParts, payloadParts, scalarPart, payloadLayout]

/-- The numbers come back wrapped to the signed type. -/
theorem primitiveArrayToPython_of_items {o : CObject} (h : o.dataItems = .ok (is.map s.wrap)) :
    primitiveArrayToPython o = .ok (.list (is.map fun i => .int (s.wrap i))) := by
  rw [primitiveArrayToPython, h, except_bind, List.map_map]
  rfl

theorem dataItems_payload :
    CObject.dataItems (ofParts (payloadParts s is.length (is.flatMap s.store))) =
      .ok (is.map s.wrap) :=
  dataItems_part (payloadParts_filled (flatMap_store_length s is)) (payloadParts_nodup _ _ _) s is
    (by simp [payloadParts])

end Payload

section Packed
variable {s : Scalar} {pack : PyValue → Except PyError Bytes} {xs : List PyValue} {f : PyValue → ℤ}

/-- Elements that are packed into numbers are written as these numbers. -/
theorem writesAs_payload (hpack : ∀ x ∈ xs, pack x = .ok (s.store (f x)))
    (hlen : xs.length < 2 ^ 32) :
    WritesAs (primitiveArray s pack) (.list xs) (payloadBytes s (xs.map f)) := by
  intro r hr
  refine ⟨.list xs, ?_⟩
  show writePayload pack (.list xs) r = _
  simp only [writePayload, PyValue.iterate, lengthBytes_eq hlen, ofOption, pure_bind]
  rw [bind_ok (write_ok hr _), bind_ok (writePacked_ok (by simpa using hr) hpack), pure_apply,
    BinaryStream.put_put, payloadBytes, List.length_map, List.flatMap_map]

theorem refuses_payload (hlen : 2 ^ 32 ≤ xs.length) : Refuses (primitiveArray s pack) (.list xs) :=
  fun r => list_header_error hlen r

/-- What a class without a type code gives back: the numbers that were packed, as the signed
type of its items reads them. -/
theorem returns_payload_iff {ok : PyValue → Prop} (hpack : ∀ x ∈ xs, pack x = .ok (s.store (f x))) :
    Returns (primitiveArray s pack) (.list xs) ok ↔
      xs.length < 2 ^ 32 ∧ ok (.list (xs.map fun x => .int (s.wrap (f x)))) := by
  by_cases hlen : xs.length < 2 ^ 32
  · have hread : ReadsAs (primitiveArray s pack) (payloadBytes s (xs.map f)) _ :=
      readsAs_payload rfl (by simpa using hlen) fun client =>
        primitiveArrayToPython_of_items dataItems_payload
    rw [returns_iff (writesAs_payload hpack hlen) payloadBytes_ne_nil hread, and_iff_right hlen]
    simp [Function.comp_def]
  · exact iff_of_false (refuses_payload (not_lt.mp hlen)).not_returns fun h => hlen h.1

end Packed

/-! ### Bytes -/

section Bytes
variable {is : List ℤ}

theorem byteStore_eq (i : ℤ) : Scalar.byte.store i = [UInt8.ofNat (i % 256).toNat] := by
  have hlt : (i % 256).toNat % 256 = (i % 256).toNat := by omega
  simp [Scalar.store, Scalar.size, leBytes, twos, hlt]

theorem flatMap_byteStore (is : List ℤ) :
    is.flatMap Scalar.byte.store = is.map fun i => UInt8.ofNat (i % 256).toNat := by
  rw [List.map_eq_flatMap]
  exact List.flatMap_congr fun i _ => byteStore_eq i

theorem mapM_toInt (is : List ℤ) : (is.map PyValue.int).mapM PyValue.toInt? = some is := by
  induction is with
  | nil => rfl
  | cons i is ih => simp [List.mapM_cons, PyValue.toInt?, ih]

theorem bytearray_ok (h : ∀ i ∈ is, 0 ≤ i ∧ i ≤ 255) :
    bytearray (is.map .int) = .ok (is.flatMap Scalar.byte.store) := by
  have hall : (is.all fun i => decide (0 ≤ i ∧ i ≤ 255)) = true := by simpa using h
  have hsame : ∀ i ∈ is, UInt8.ofNat i.toNat = UInt8.ofNat (i % 256).toNat := by
    intro i hi
    have := h i hi
    rw [Int.emod_eq_of_lt this.1 (by omega)]
  rw [bytearray, mapM_toInt, flatMap_byteStore]
  simp only [hall, if_true]
  rw [List.map_congr_left hsame]

theorem bytearray_error {i : ℤ} (hi : i ∈ is) (hneg : i < 0) :
    ∃ e, bytearray (is.map .int) = .error e := by
  have hall : (is.all fun i => decide (0 ≤ i ∧ i ≤ 255)) = false := by
    rw [List.all_eq_false]
    exact ⟨i, hi, by simp; omega⟩
  rw [bytearray, mapM_toInt]
  simp only [hall]
  exact ⟨_, rfl⟩

theorem byteArrayToPython_of_data {o : CObject} {s : Scalar} {n : ℕ}
    (h : o.attr .data = .ok ⟨.array (.scalar s) n, is.flatMap Scalar.byte.store⟩) :
    byteArrayToPython o = .ok (.bytes (is.map fun i => UInt8.ofNat (i % 256).toNat)) := by
  rw [byteArrayToPython, h, except_bind, flatMap_byteStore]

/-- The class of bytes without a type code refuses a byte with a sign. -/
theorem returns_bytePayload_iff {ok : PyValue → Prop} (h : ∀ i ∈ is, i ≤ 255) :
    Returns byteArray (.list (is.map .int)) ok ↔
      (is.length < 2 ^ 32 ∧ ∀ i ∈ is, 0 ≤ i) ∧
        ok (.bytes (is.map fun i => UInt8.ofNat (i % 256).toNat)) := by
  by_cases hlen : is.length < 2 ^ 32
  swap
  · have hrefuses : Refuses byteArray (.list (is.map .int)) := fun r =>
      list_header_error (by simpa using hlen) r
    exact iff_of_false hrefuses.not_returns fun hn => hlen hn.1.1
  by_cases hneg : ∀ i ∈ is, 0 ≤ i
  · have hwrite : WritesAs byteArray (.list (is.map .int)) (payloadBytes .byte is) := by
      intro r hr
      have hbytes : ∀ r : BinaryStream,
          (fun s => (bytearray (is.map .int)).map fun b => (b, s) : StreamM Bytes) r =
            .ok (is.flatMap Scalar.byte.store, r) := fun r => by
        rw [bytearray_ok fun i hi => ⟨hneg i hi, h i hi⟩]
        rfl
      refine ⟨.list (is.map .int), ?_⟩
      show writeBytePayload (.list (is.map .int)) r = _
      simp only [writeBytePayload, PyValue.iterate, List.length_map, lengthBytes_eq hlen,
        ofOption, pure_bind]
      rw [bind_ok (write_ok hr _), bind_ok (hbytes _), bind_ok (write_ok (by simpa using hr) _),
        pure_apply, BinaryStream.put_put, payloadBytes]
    have hdata := attr_part (payloadParts_filled (flatMap_store_length .byte is))
      (payloadParts_nodup _ _ _) (n := .data) (c := .array (.scalar .byte) is.length)
      (b := is.flatMap Scalar.byte.store) (by simp [payloadParts])
    have hread : ReadsAs byteArray (payloadBytes .byte is) _ :=
      readsAs_payload rfl hlen fun client => byteArrayToPython_of_data hdata
    rw [returns_iff hwrite payloadBytes_ne_nil hread, and_iff_right ⟨hlen, hneg⟩]
    simp
  · have hrefuses : Refuses byteArray (.list (is.map .int)) := by
      obtain ⟨i, hi, hlt⟩ : ∃ i ∈ is, i < 0 := by simpa using hneg
      obtain ⟨e, he⟩ := bytearray_error hi hlt
      intro r
      refine error_bind fun ys r' hys => error_bind fun _ _ _ => error_bind fun _ r'' _ => ?_
      obtain ⟨rfl, rfl⟩ := Prod.mk.inj (Except.ok.inj hys)
      refine ⟨e, bind_error ?_⟩
      rw [he]
      rfl
    exact iff_of_false hrefuses.not_returns fun hn => hneg hn.1.2

theorem byteBuffer_ok (h : ∀ i ∈ is, -128 ≤ i ∧ i ≤ 255) :
    byteBuffer (is.map .int) = .ok (is.flatMap Scalar.byte.store) := by
  have hall : (is.all fun i => decide (-128 ≤ i ∧ i ≤ 255)) = true := by simpa using h
  rw [byteBuffer, mapM_toInt, flatMap_byteStore]
  simp only [hall, if_true]
  rfl

end Bytes

/-! ### With a type code -/

section Coded
variable [Python] [OtherCodecs] {t : DataType} {s : Scalar} {is : List ℤ}
  {result : Except PyError PyValue}

def arrayBytes (t : DataType) (s : Scalar) (is : List ℤ) : Bytes :=
  t.typeCode :: (Scalar.int.store is.length ++ is.flatMap s.store)

theorem recovers_array {n : ℕ} {b : Bytes} (ht : t ≠ .null) (hb : b.length = n * s.size)
    (hlen : n < 2 ^ 32) (hparse : ∀ m, parseNotNull (parseN m) t = parsePrimitiveArray s)
    (hpy : ∀ (client : Option Client) m, toPythonNotNull (toPythonN client m) client t
      (ofParts (arrayParts t.typeCode s n b)) = result) :
    Recovers (classReader t) (t.typeCode :: (Scalar.int.store n ++ b)) result ∧
      Recovers anyReader (t.typeCode :: (Scalar.int.store n ++ b)) result := by
  refine recovers_of_parts [scalarPart .length .int n, (.data, .array (.scalar s) n, b)] ht
    (arrayParts_filled hb) (arrayParts_nodup _ _ _ _) (by simp [codePart, scalarPart])
    (fun m r hr hat => ?_) hpy
  have hpeek : peekLength 1 r = .ok (n % 2 ^ 32, r) :=
    peekLength_mod hr (At.right (a := [t.typeCode]) hat).left
  rw [Nat.mod_eq_of_lt hlen] at hpeek
  rw [hparse]
  exact bind_ok hpeek

theorem readsAs_array (ht : t ≠ .null) (hlen : is.length < 2 ^ 32)
    (hparse : ∀ n, parseNotNull (parseN n) t = parsePrimitiveArray s)
    (hpy : ∀ (client : Option Client) n, toPythonNotNull (toPythonN client n) client t
      (ofParts (arrayParts t.typeCode s is.length (is.flatMap s.store))) = result) :
    ReadsAs (wireClass t) (arrayBytes t s is) result :=
  (recovers_array ht (flatMap_store_length s is) hlen hparse hpy).1.classReadsAs (by simp)

omit [Python] [OtherCodecs] in
theorem dataItems_array (code : UInt8) (s : Scalar) (is : List ℤ) :
    CObject.dataItems (ofParts (arrayParts code s is.length (is.flatMap s.store))) =
      .ok (is.map s.wrap) :=
  dataItems_part (arrayParts_filled (flatMap_store_length s is)) (arrayParts_nodup _ _ _ _) s is
    (by simp [arrayParts])

variable {pack : PyValue → Except PyError Bytes} {xs : List PyValue} {f : PyValue → ℤ}

/-- What a class with a type code gives back. -/
theorem returns_array_iff {ok : PyValue → Prop} (result : Except PyError PyValue) (ht : t ≠ .null)
    (hbody : ∀ r, (wireClass t).fromPython (.list xs) r =
      (writePrimitiveArray t pack (.list xs) >>= fun _ => pure (.list xs)) r)
    (hpack : ∀ x ∈ xs, pack x = .ok (s.store (f x)))
    (hparse : ∀ n, parseNotNull (parseN n) t = parsePrimitiveArray s)
    (hpy : xs.length < 2 ^ 32 → ∀ (client : Option Client) n,
      toPythonNotNull (toPythonN client n) client t
        (ofParts (arrayParts t.typeCode s xs.length ((xs.map f).flatMap s.store))) = result) :
    Returns (wireClass t) (.list xs) ok ↔ xs.length < 2 ^ 32 ∧ ∃ x, result = .ok x ∧ ok x := by
  by_cases hlen : xs.length < 2 ^ 32
  · have hwrite : WritesAs (wireClass t) (.list xs) (arrayBytes t s (xs.map f)) := by
      intro r hr
      refine ⟨.list xs, ?_⟩
      rw [hbody, bind_ok (writePrimitiveArray_ok hr hlen hpack), pure_apply, arrayBytes,
        List.length_map, List.flatMap_map]
    have hread : ReadsAs (wireClass t) (arrayBytes t s (xs.map f)) result :=
      readsAs_array ht (by simpa using hlen) hparse (by simpa using hpy hlen)
    rw [returns_iff hwrite (by simp [arrayBytes]) hread, and_iff_right hlen]
  · have hrefuses : Refuses (wireClass t) (.list xs) := by
      intro r
      obtain ⟨e, he⟩ := coded_header_error (k := fun xs length => do
        write length
        writePacked pack xs) [t.typeCode] (not_lt.mp hlen) r
      exact ⟨e, (hbody r).trans (bind_error he)⟩
    exact iff_of_false hrefuses.not_returns fun h => hlen h.1

/-- With a type code a byte may have a sign. -/
theorem returns_byteArray_iff {ok : PyValue → Prop} (h : ∀ i ∈ is, -128 ≤ i ∧ i ≤ 255) :
    Returns (wireClass .byteArrayObject) (.list (is.map .int)) ok ↔
      is.length < 2 ^ 32 ∧ ok (.bytes (is.map fun i => UInt8.ofNat (i % 256).toNat)) := by
  have hbody : ∀ r, (wireClass .byteArrayObject).fromPython (.list (is.map .int)) r =
      (writeByteArray (.list (is.map .int)) >>= fun _ => pure (.list (is.map .int))) r := fun r =>
    (fromPython_eq (t := .byteArrayObject) (v := .list (is.map .int)) (by simp) r).trans rfl
  by_cases hlen : is.length < 2 ^ 32
  · have hbytes : ∀ r : BinaryStream,
        (fun s => (byteBuffer (is.map .int)).map fun b => (b, s) : StreamM Bytes) r =
          .ok (is.flatMap Scalar.byte.store, r) := fun r => by
      rw [byteBuffer_ok h]
      rfl
    have hwrite : WritesAs (wireClass .byteArrayObject) (.list (is.map .int))
        (arrayBytes .byteArrayObject .byte is) := by
      intro r hr
      refine ⟨.list (is.map .int), (hbody r).trans (bind_ok (a := ()) ?_)⟩
      simp only [writeByteArray, PyValue.iterate, List.length_map, lengthBytes_eq hlen, ofOption,
        pure_bind]
      rw [bind_ok (write_ok hr _), bind_ok (write_ok (by simpa using hr) _), bind_ok (hbytes _),
        write_ok (by simpa using hr), BinaryStream.put_put, BinaryStream.put_put,
        List.singleton_append, arrayBytes]
    have hdata := attr_arrayParts (c := DataType.byteArrayObject.typeCode)
      (flatMap_store_length .byte is)
    have hread : ReadsAs (wireClass .byteArrayObject) (arrayBytes .byteArrayObject .byte is) _ :=
      readsAs_array (by simp) hlen (fun n => rfl) fun client n => byteArrayToPython_of_data hdata
    rw [returns_iff hwrite (by simp [arrayBytes]) hread, and_iff_right hlen]
    simp
  · have hmap : ¬(is.map PyValue.int).length < 2 ^ 32 := by simpa using hlen
    have hrefuses : Refuses (wireClass .byteArrayObject) (.list (is.map .int)) := by
      intro r
      obtain ⟨e, he⟩ := coded_header_error (k := fun xs length => do
        write length
        let b ← fun s => (byteBuffer xs).map fun b => (b, s)
        write b) [DataType.byteArrayObject.typeCode] (not_lt.mp hmap) r
      exact ⟨e, (hbody r).trans (bind_error he)⟩
    exact iff_of_false hrefuses.not_returns fun hn => hlen hn.1

end Coded

/-! ### Numbers -/

section Signed
variable {s : Scalar} {is : List ℤ} {ok : PyValue → Prop} (h : ∀ i ∈ is, s.Range i)
include h

theorem packSigned_ok : ∀ x ∈ is.map PyValue.int,
    packSigned s x = .ok (s.store (x.toInt?.getD 0)) := by
  intro x hx
  obtain ⟨i, hi, rfl⟩ := List.mem_map.mp hx
  simp [packSigned, PyValue.toInt?, h i hi]

theorem map_wrap : (is.map PyValue.int).map (fun x => PyValue.int (s.wrap (x.toInt?.getD 0))) =
    is.map .int := by
  rw [List.map_map]
  exact List.map_congr_left fun i hi => congrArg PyValue.int (Scalar.wrap_eq_iff.mpr (h i hi))

theorem returns_signedPayload_iff :
    Returns (primitiveArray s (packSigned s)) (.list (is.map .int)) ok ↔
      is.length < 2 ^ 32 ∧ ok (.list (is.map .int)) := by
  rw [returns_payload_iff (packSigned_ok h), map_wrap h, List.length_map]

theorem returns_signedArray_iff [Python] [OtherCodecs] {t : DataType} (ht : t.arrayScalar = some s) :
    Returns (wireClass t) (.list (is.map .int)) ok ↔
      is.length < 2 ^ 32 ∧ ok (.list (is.map .int)) := by
  rw [returns_array_iff (.ok (.list (is.map .int))) ?_ (intArray_fromPython ht _)
    (packSigned_ok h) (fun n => ?_) fun _ client n => ?_]
  · simp
  · rintro rfl
    cases ht
  · cases t <;> simp only [DataType.arrayScalar, reduceCtorEq, Option.some.injEq] at ht <;>
      subst ht <;> rfl
  · have hnumbers : (is.map PyValue.int).map (fun x => x.toInt?.getD 0) = is := by
      simp [Function.comp_def, PyValue.toInt?]
    have hread := primitiveArrayToPython_of_items (dataItems_array t.typeCode s is)
    rw [List.map_congr_left fun i hi => congrArg PyValue.int (Scalar.wrap_eq_iff.mpr (h i hi))]
      at hread
    rw [hnumbers, List.length_map]
    cases t <;> simp only [DataType.arrayScalar, reduceCtorEq, Option.some.injEq] at ht <;>
      exact hread

end Signed

/-! ### Truth values -/

section Bools
variable {bs : List Bool} {ok : PyValue → Prop}

/-- The number that stands for a truth value. -/
def boolNumber (b : Bool) : ℤ := cond b 1 0

theorem packBool_ok : ∀ x ∈ bs.map PyValue.bool,
    packBool x = .ok (Scalar.byte.store (x.toInt?.getD 0)) := by
  intro x hx
  obtain ⟨b, -, rfl⟩ := List.mem_map.mp hx
  cases b <;> rfl

theorem boolNumber_range : ∀ i ∈ bs.map boolNumber, Scalar.byte.Range i := by
  intro i hi
  obtain ⟨b, -, rfl⟩ := List.mem_map.mp hi
  cases b <;> decide

theorem bool_numbers : (bs.map PyValue.bool).map (fun x => x.toInt?.getD 0) = bs.map boolNumber := by
  rw [List.map_map]
  exact List.map_congr_left fun b _ => by cases b <;> rfl

/-- Without a type code numbers are given back, which Python takes for equal to them. -/
theorem returns_boolPayload_iff :
    Returns boolArray (.list (bs.map .bool)) ok ↔
      bs.length < 2 ^ 32 ∧ ok (.list ((bs.map boolNumber).map .int)) := by
  have hwrap : (bs.map PyValue.bool).map (fun x => PyValue.int (Scalar.byte.wrap (x.toInt?.getD 0))) =
      (bs.map boolNumber).map .int := by
    rw [List.map_map, List.map_map]
    exact List.map_congr_left fun b _ => by cases b <;> rfl
  rw [boolArray, returns_payload_iff packBool_ok, hwrap, List.length_map]

/-- With a type code the length is taken for signed. -/
theorem boolArrayToPython_eq {o : CObject} (hlen : bs.length < 2 ^ 32)
    (hlength : o.intAttr .length = .ok (Scalar.int.wrap bs.length))
    (hitems : o.dataItems = .ok (bs.map boolNumber)) :
    boolArrayToPython o = .ok (.list (if bs.length < 2 ^ 31 then bs.map .bool else [])) := by
  simp only [boolArrayToPython, hlength, hitems, except_bind]
  split_ifs with hsmall
  · rw [Scalar.wrap_eq_iff.mpr (range_of_lt hsmall)]
    rw [mapM_range_ok (l := bs.map PyValue.bool) (by simp) fun i hi => ?_, except_bind]
    rw [List.length_map] at hi
    cases hb : bs[i] <;> simp [hi, hb, boolNumber]
  · have hzero : (Scalar.int.wrap bs.length).toNat = 0 := by
      rw [wrap_of_ge (not_lt.mp hsmall) hlen]
      omega
    rw [hzero]
    rfl

theorem boolArrayToPython_parts (hlen : bs.length < 2 ^ 32) :
    boolArrayToPython (ofParts (arrayParts DataType.boolArrayObject.typeCode .byte bs.length
      ((bs.map boolNumber).flatMap Scalar.byte.store))) =
      .ok (.list (if bs.length < 2 ^ 31 then bs.map .bool else [])) := by
  have hf : Filled (arrayParts DataType.boolArrayObject.typeCode .byte bs.length
      ((bs.map boolNumber).flatMap Scalar.byte.store)) :=
    arrayParts_filled (by rw [flatMap_store_length, List.length_map])
  have hitems := dataItems_array DataType.boolArrayObject.typeCode .byte (bs.map boolNumber)
  rw [List.map_congr_left fun i hi => Scalar.wrap_eq_iff.mpr (boolNumber_range i hi),
    List.map_id', List.length_map] at hitems
  exact boolArrayToPython_eq hlen
    (intAttr_wrap hf (arrayParts_nodup _ _ _ _) (by simp [arrayParts])) hitems

theorem returns_boolArray_iff [Python] [OtherCodecs] :
    Returns (wireClass .boolArrayObject) (.list (bs.map .bool)) ok ↔
      bs.length < 2 ^ 32 ∧ ok (.list (if bs.length < 2 ^ 31 then bs.map .bool else [])) := by
  rw [returns_array_iff (.ok (.list (if bs.length < 2 ^ 31 then bs.map .bool else [])))
    (by simp) (fun r => (fromPython_eq (v := .list (bs.map .bool)) (by simp) r).trans rfl)
    packBool_ok (fun n => rfl) fun hlen client n => ?_]
  · simp
  · rw [List.length_map] at hlen
    rw [bool_numbers, List.length_map]
    exact boolArrayToPython_parts hlen

end Bools

/-! ### Characters -/

section Chars
variable {cs : List Char} {ok : PyValue → Prop}

/-- The character of a text of one. -/
def charNumber : PyValue → ℤ
  | .str (c :: _) => (c.toNat : ℤ)
  | _ => 0

def ofChar (c : Char) : PyValue := .str [c]

theorem shortStore_eq {n : ℕ} (h : n < 0x10000) : Scalar.short.store n = leBytes 2 n := by
  rw [Scalar.store, Scalar.size, twos_of_nonneg (by omega)]

theorem packChar_ok (h : ∀ c ∈ cs, c.toNat < 0x10000) : ∀ x ∈ cs.map ofChar,
    packChar x = .ok (Scalar.short.store (charNumber x)) := by
  intro x hx
  obtain ⟨c, hc, rfl⟩ := List.mem_map.mp hx
  have hlt := h c hc
  have hbytes : utf16leEncode [c] = leBytes 2 c.toNat := by
    simp [utf16leEncode, hlt]
  have hnumber : charNumber (ofChar c) = (c.toNat : ℤ) := rfl
  show unsignedBytes (leNat (utf16leEncode [c])) = _
  rw [hbytes, leNat_leBytes_of_lt (by omega), hnumber, shortStore_eq hlt, unsignedBytes,
    if_pos (by omega), Int.toNat_natCast]

theorem char_numbers : (cs.map ofChar).map charNumber = cs.map fun c => (c.toNat : ℤ) := by
  rw [List.map_map]
  rfl

/-- Without a type code numbers are given back. -/
theorem returns_charPayload_iff (h : ∀ c ∈ cs, c.toNat < 0x10000) :
    Returns charArray (.list (cs.map ofChar)) ok ↔
      cs.length < 2 ^ 32 ∧ ok (.list (cs.map fun c => .int (Scalar.short.wrap c.toNat))) := by
  rw [charArray, returns_payload_iff (packChar_ok h), List.length_map, List.map_map]
  rfl

theorem charToPython_ok {c : Char} (h : c.toNat < 0x8000) :
    charToPython (Scalar.short.wrap c.toNat) = .ok (ofChar c) := by
  have hrange : Scalar.short.Range (c.toNat : ℤ) := by
    simp only [Scalar.Range, Scalar.isSigned, Scalar.size, SignedRange, if_true]
    omega
  have hvalid : c.toNat.isValidChar := Or.inl (by omega)
  rw [Scalar.wrap_eq_iff.mpr hrange, charToPython, unsignedBytes, if_pos (by omega), except_bind,
    Int.toNat_natCast, utf16leDecodeUnit, leNat_leBytes_of_lt (by omega), if_pos hvalid,
    Char.ofNat_toNat]
  rfl

theorem charToPython_error {c : Char} (h : 0x8000 ≤ c.toNat) (hc : c.toNat < 0x10000) :
    ∃ e, charToPython (Scalar.short.wrap c.toNat) = .error e := by
  have hneg : Scalar.short.wrap c.toNat < 0 := by
    rw [Scalar.wrap_of_half rfl (by simp only [Scalar.size]; omega)
      (by simp only [Scalar.size]; omega)]
    simp only [Scalar.size]
    omega
  rw [charToPython, unsignedBytes, if_neg (by omega)]
  exact ⟨_, rfl⟩

theorem charArrayToPython_ok {o : CObject} (h : ∀ c ∈ cs, c.toNat < 0x8000)
    (hitems : o.dataItems = .ok (cs.map fun c => Scalar.short.wrap c.toNat)) :
    charArrayToPython o = .ok (.list (cs.map ofChar)) := by
  have hchars : cs.mapM (charToPython ∘ fun c : Char => Scalar.short.wrap (c.toNat : ℤ)) =
      .ok (cs.map ofChar) := mapM_ok fun c hc => charToPython_ok (h c hc)
  rw [charArrayToPython, hitems, except_bind, List.mapM_map, hchars]
  rfl

theorem charArrayToPython_error {o : CObject} {c : Char} (hc : c ∈ cs) (hlow : 0x8000 ≤ c.toNat)
    (hhigh : c.toNat < 0x10000)
    (hitems : o.dataItems = .ok (cs.map fun c => Scalar.short.wrap c.toNat)) :
    ∃ e, charArrayToPython o = .error e := by
  obtain ⟨e, he⟩ := charToPython_error hlow hhigh
  obtain ⟨e', he'⟩ := mapM_error
    (f := charToPython ∘ fun c : Char => Scalar.short.wrap (c.toNat : ℤ)) hc he
  refine ⟨e', ?_⟩
  rw [charArrayToPython, hitems, except_bind, List.mapM_map, he']
  rfl

/-- With a type code a number that is negative for the reader has no two bytes. -/
theorem returns_charArray_iff [Python] (others : OtherCodecs) (h : ∀ c ∈ cs, c.toNat < 0x10000) :
    Returns (@wireClass _ (withCharArrays others) (.other .charArrayObject)) (.list (cs.map ofChar))
        ok ↔
      (cs.length < 2 ^ 32 ∧ ∀ c ∈ cs, c.toNat < 0x8000) ∧ ok (.list (cs.map ofChar)) := by
  let _ := withCharArrays others
  have hitems := dataItems_array (OtherType.typeCode .charArrayObject) .short
    (cs.map fun c => (c.toNat : ℤ))
  rw [List.map_map, List.length_map] at hitems
  have hbody : ∀ r, (wireClass (.other .charArrayObject)).fromPython (.list (cs.map ofChar)) r =
      (writePrimitiveArray (.other .charArrayObject) packChar (.list (cs.map ofChar)) >>=
        fun _ => pure (.list (cs.map ofChar))) r := fun r =>
    (fromPython_eq (t := .other .charArrayObject) (v := .list (cs.map ofChar)) (by simp) r).trans rfl
  by_cases hlow : ∀ c ∈ cs, c.toNat < 0x8000
  · rw [returns_array_iff (.ok (.list (cs.map ofChar))) (by simp) hbody (packChar_ok h)
      (fun n => rfl) fun _ client n => ?_]
    · rw [and_iff_left hlow]
      simp
    · rw [char_numbers, List.length_map]
      exact charArrayToPython_ok hlow hitems
  · obtain ⟨c, hc, hge⟩ : ∃ c ∈ cs, 0x8000 ≤ c.toNat := by simpa using hlow
    obtain ⟨e, he⟩ := charArrayToPython_error hc hge (h c hc) hitems
    rw [returns_array_iff (.error e) (by simp) hbody (packChar_ok h)
      (fun n => rfl) fun _ client n => ?_]
    · exact iff_of_false (by simp) fun hn => hlow hn.1.2
    · rw [char_numbers, List.length_map]
      exact he

end Chars

/-! ### All classes -/

section Main
variable {e : ElementType} {xs : List e.Element}

theorem ElementType.reads_self (xs : List e.Element) (he : e ≠ .byte) : e.Reads xs (.list (xs.map e.toPython)) := by
  cases e <;> first | exact absurd rfl he | exact ⟨_, rfl, by simp [Function.comp_def]⟩

/-- The types whose elements are the numbers that are written. -/
def ElementType.IsNumber (e : ElementType) : Prop := e = .short ∨ e = .int ∨ e = .long

theorem ElementType.map_toPython (he : e.IsNumber) :
    xs.map e.toPython = (xs.map e.number).map .int := by
  rw [List.map_map]
  rcases he with rfl | rfl | rfl <;> rfl

theorem ElementType.number_range (he : e.IsNumber) : ∀ i ∈ xs.map e.number, e.scalar.Range i := by
  intro i hi
  obtain ⟨x, -, rfl⟩ := List.mem_map.mp hi
  rcases he with rfl | rfl | rfl <;> exact x.property

/-- A class that gives back all numbers of its type. -/
theorem returns_numbers_iff {w : WireClass} (he : e.IsNumber)
    (hreturns : ∀ {is : List ℤ} {ok : PyValue → Prop}, (∀ i ∈ is, e.scalar.Range i) →
      (Returns w (.list (is.map .int)) ok ↔ is.length < 2 ^ 32 ∧ ok (.list (is.map .int)))) :
    Returns w (.list (xs.map e.toPython)) (e.Reads xs) ↔ xs.length < 2 ^ 32 := by
  have hne : e ≠ .byte := by rcases he with rfl | rfl | rfl <;> simp
  have hself := ElementType.reads_self xs hne
  rw [ElementType.map_toPython he] at hself ⊢
  rw [hreturns (ElementType.number_range he), List.length_map, and_iff_left hself]

theorem ElementType.reads_boolNumbers (bs : List Bool) :
    ElementType.Reads .bool bs (.list ((bs.map boolNumber).map .int)) := by
  refine ⟨_, rfl, ?_⟩
  rw [List.map_map, List.map_map]
  exact List.map_congr_left fun b _ => by cases b <;> rfl

theorem ElementType.reads_nil_iff (he : e ≠ .byte) : e.Reads xs (.list []) ↔ xs = [] := by
  have hkeys : e.Reads xs (.list []) ↔
      ∃ ys, PyValue.list [] = .list ys ∧
        ys.map PyValue.hashKey = xs.map fun x => PyValue.hashKey (toPython e x) := by
    cases e <;> first | exact absurd rfl he | rfl
  rw [hkeys]
  constructor
  · rintro ⟨ys, hys, heq⟩
    obtain rfl := PyValue.list.inj hys
    exact List.map_eq_nil_iff.mp heq.symm
  · rintro rfl
    exact ⟨[], rfl, rfl⟩

theorem returns_bools_iff [Python] [OtherCodecs] (bs : List Bool) :
    Returns (wireClass .boolArrayObject) (.list (bs.map .bool)) (ElementType.Reads .bool bs) ↔
      bs.length < 2 ^ 31 := by
  have hne : ElementType.bool ≠ .byte := by simp
  rw [returns_boolArray_iff]
  constructor
  · rintro ⟨-, hreads⟩
    by_contra hge
    rw [if_neg hge] at hreads
    have hnil : bs = [] := (ElementType.reads_nil_iff hne).mp hreads
    rw [hnil] at hge
    exact hge (by decide)
  · intro hlt
    rw [if_pos hlt]
    exact ⟨by omega, ElementType.reads_self (e := .bool) bs hne⟩

def ElementType.charOf (x : ElementType.Element .char) : Char := x.val

theorem ElementType.map_charOf (xs : List (ElementType.Element .char)) :
    xs.map (ElementType.toPython .char) = (xs.map ElementType.charOf).map ofChar := by
  rw [List.map_map]
  rfl

/-- A number is not equal to a text. -/
theorem ElementType.reads_charNumbers_iff (xs : List (ElementType.Element .char)) :
    ElementType.Reads .char xs
        (.list ((xs.map ElementType.charOf).map fun c => .int (Scalar.short.wrap c.toNat))) ↔
      xs = [] := by
  constructor
  · rintro ⟨ys, hys, heq⟩
    obtain rfl := PyValue.list.inj hys
    cases xs with
    | nil => rfl
    | cons x xs =>
      have hhead := (List.cons.inj heq).1
      simp [PyValue.hashKey, ElementType.toPython] at hhead
  · rintro rfl
    exact ⟨[], rfl, rfl⟩

/-- A list of elements of any of the types, of any length, is given back by the class of that
type and form exactly where `Returned` says so. -/
theorem primitive_array_returns_iff [Python] (others : OtherCodecs) (e : ElementType)
    (form : ArrayForm) (xs : List e.Element) :
    Returns (e.arrayClass others form) (.list (xs.map e.toPython)) (e.Reads xs) ↔
      e.Returned form xs := by
  let _ := withCharArrays others
  cases e with
  | byte =>
    have hlist : xs.map (ElementType.toPython .byte) =
        (xs.map (ElementType.number .byte)).map .int := by
      rw [List.map_map]
      rfl
    have hrange : ∀ i ∈ xs.map (ElementType.number .byte), -128 ≤ i ∧ i ≤ 255 := by
      intro i hi
      obtain ⟨x, -, rfl⟩ := List.mem_map.mp hi
      exact x.property
    have hreads : ElementType.Reads .byte xs
        (.bytes ((xs.map (ElementType.number .byte)).map fun i => UInt8.ofNat (i % 256).toNat)) := by
      rw [List.map_map]
      rfl
    rw [hlist]
    cases form with
    | payload =>
      refine (returns_bytePayload_iff fun i hi => (hrange i hi).2).trans ?_
      rw [and_iff_left hreads, List.length_map, List.forall_mem_map]
      rfl
    | object =>
      refine (returns_byteArray_iff hrange).trans ?_
      rw [and_iff_left hreads, List.length_map]
      rfl
  | short =>
    cases form with
    | payload => exact returns_numbers_iff (Or.inl rfl) returns_signedPayload_iff
    | object =>
      exact returns_numbers_iff (Or.inl rfl) fun h =>
        returns_signedArray_iff (t := .shortArrayObject) h rfl
  | int =>
    cases form with
    | payload => exact returns_numbers_iff (Or.inr (Or.inl rfl)) returns_signedPayload_iff
    | object =>
      exact returns_numbers_iff (Or.inr (Or.inl rfl)) fun h =>
        returns_signedArray_iff (t := .intArrayObject) h rfl
  | long =>
    cases form with
    | payload => exact returns_numbers_iff (Or.inr (Or.inr rfl)) returns_signedPayload_iff
    | object =>
      exact returns_numbers_iff (Or.inr (Or.inr rfl)) fun h =>
        returns_signedArray_iff (t := .longArrayObject) h rfl
  | bool =>
    cases form with
    | payload =>
      exact returns_boolPayload_iff.trans (and_iff_left (ElementType.reads_boolNumbers xs))
    | object =>
      exact returns_bools_iff xs
  | char =>
    have hrange : ∀ c ∈ xs.map ElementType.charOf, c.toNat < 0x10000 := by
      intro c hc
      obtain ⟨x, -, rfl⟩ := List.mem_map.mp hc
      exact x.property
    have hself := ElementType.reads_self xs (by simp)
    rw [ElementType.map_charOf] at hself ⊢
    cases form with
    | payload =>
      refine (returns_charPayload_iff hrange).trans ?_
      rw [ElementType.reads_charNumbers_iff, List.length_map]
      refine and_iff_right_of_imp ?_
      rintro rfl
      simp
    | object =>
      refine (returns_charArray_iff others hrange).trans ?_
      rw [and_iff_left hself, List.length_map, List.forall_mem_map]
      refine and_congr_right fun _ => forall₂_congr fun x _ => ?_
      show x.val.toNat < 0x8000 ↔ (x.val.toNat : ℤ) < 0x8000
      omega

end Main

/-- A byte with a sign and a character are lost without a type code, a character of the upper
half of the plane with one. -/
theorem elements_lost :
    let _ := asciiLower
    let signed : ElementType.Element .byte := ⟨-1, by decide⟩
    let low : ElementType.Element .char := ⟨'A', by decide⟩
    let high : ElementType.Element .char := ⟨'耀', by decide⟩
    ¬Returns (ElementType.arrayClass noOtherCodecs .byte .payload)
        (.list [ElementType.toPython .byte signed]) (ElementType.Reads .byte [signed]) ∧
      ¬Returns (ElementType.arrayClass noOtherCodecs .char .payload)
        (.list [ElementType.toPython .char low]) (ElementType.Reads .char [low]) ∧
      ¬Returns (ElementType.arrayClass noOtherCodecs .char .object)
        (.list [ElementType.toPython .char high]) (ElementType.Reads .char [high]) := by
  intro _ signed low high
  refine ⟨fun h => ?_, fun h => ?_, fun h => ?_⟩
  · have hrange : ∀ i ∈ ([-1] : List ℤ), i ≤ 255 := by decide
    have hneg := ((returns_bytePayload_iff hrange).mp h).1.2 (-1) (by decide)
    exact absurd hneg (by decide)
  · have hrange : ∀ c ∈ ['A'], c.toNat < 0x10000 := fun c hc => by
      obtain rfl := List.mem_singleton.mp hc
      exact low.property
    have hreads := ((returns_charPayload_iff hrange).mp h).2
    exact absurd ((ElementType.reads_charNumbers_iff [low]).mp hreads) (by simp)
  · have hrange : ∀ c ∈ ['耀'], c.toNat < 0x10000 := fun c hc => by
      obtain rfl := List.mem_singleton.mp hc
      exact high.property
    have hlow := ((returns_charArray_iff noOtherCodecs hrange).mp h).1.2 '耀'
      (List.mem_singleton_self _)
    exact absurd hlow (by decide)

end PyGridGain
