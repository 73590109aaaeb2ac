import PyGridGain.Codec.Writes
import PyGridGain.Codec.Parses

/-! What was written is read back: for trees of values of the types whose format is
fixed, without further condition. -/

namespace PyGridGain

open StreamM

section ReadBack
variable [Python] [OtherCodecs] {cl : Client} {cf : Bool} {t : DataType} {v : PyValue}
  {r : BinaryStream}

/-- Only the versions of objects can differ from what was written. -/
theorem decoded_eq_iff {f : ℤ → ℤ} (h : Encodable cl cf t v) :
    decoded f t v = plain t v ↔
      ∀ o ∈ objects t v, HasVersionField o.2 ∨ f o.1.version = o.1.version := by
  induction h with
  | @int t s i ht hi => cases t <;> simp_all [DataType.intScalar, decoded, objects]
  | @enum t a b ht ha hb => rcases ht with rfl | rfl <;> simp [decoded, objects]
  | @intArray t s is ht his hlen => cases t <;> simp_all [DataType.arrayScalar, decoded, objects]
  | @standardArray t std xs ht hxs hlen ih =>
    cases t <;> simp_all [DataType.standardType, decoded, objects]
  | objectArray hk htyped hps hlen ih =>
    simp only [decoded, objects, decodedAll_typed htyped, objectsAll_typed htyped,
      List.forall_mem_flatMap, PyValue.tuple.injEq, List.cons.injEq, PyValue.list.injEq, true_and,
      and_true, List.map_inj_left]
    exact forall₂_congr ih
  | collection hk htyped hps hlen ih =>
    simp only [decoded, objects, decodedAll_typed htyped, objectsAll_typed htyped,
      List.forall_mem_flatMap, PyValue.tuple.injEq, List.cons.injEq, PyValue.list.injEq, true_and,
      and_true, List.map_inj_left]
    exact forall₂_congr ih
  | map hk htyped hks hvs hlen hkeys ihk ihv =>
    simp only [decoded, objects, decodedPairs_typed htyped, objectsPairs_typed htyped,
      List.forall_mem_flatMap, List.forall_mem_append, PyValue.tuple.injEq, List.cons.injEq,
      PyValue.dict.injEq, true_and, and_true, List.map_inj_left, Prod.mk.injEq]
    exact forall₂_congr fun p hp => and_congr (ihk p hp) (ihv p hp)
  | @obj head fields hne hnames hfields hreg hsize hbuffer ih =>
    simp only [decoded, objects, decodedFields_eq, objectsFields_eq, List.forall_mem_cons,
      List.forall_mem_flatMap, PyValue.obj.injEq, ObjHead.mk.injEq, true_and, and_true,
      List.map_inj_left, Prod.mk.injEq, id]
    refine and_congr ?_ (forall₂_congr ih)
    by_cases hversion : HasVersionField fields <;> simp [hversion]
  | leaf h => simp [decoded_other h.not_hinted, objects_other h.not_hinted]
  | _ => simp [decoded, objects]

/-- An object that was parsed is read backward from the end of its encoding. -/
theorem readBackward_ok {c : Layout} {r' : BinaryStream} (hv : Encodable cl cf t v)
    (hat : At r.buf r.pos (encode cf t v)) (hd : Decodes cl cf t v c)
    (hadv : Advanced cl cf r r' (encode cf t v).length) :
    readBackward c r' = .ok (⟨c, encode cf t v⟩, r') :=
  readBackward_at hadv.readable.emptyView (by rw [hadv.buf]; exact hat) hv.encode_ne_nil hadv.pos
    hd.size

theorem length_le_of_at (hv : Encodable cl cf t v) (hat : At r.buf r.pos (encode cf t v)) :
    (encode cf t v).length ≤ r.buf.length := by
  have := hat.length_le hv.encode_ne_nil
  omega

/-- `parse` of the class, wherever an encoding stands. -/
theorem parse_parses (hv : Encodable cl cf t v) (hr : Readable cl cf r)
    (hat : At r.buf r.pos (encode cf t v)) :
    Parses cl cf (SchemasFound t v) (parse t) r (encode cf t v).length (Decodes cl cf t v) :=
  parseN_parses hv _ ((length_le_of_at hv hat).trans (Nat.le_succ _)) r hr hat

/-- `AnyDataObject.parse`, wherever an encoding stands. -/
theorem anyDataObject_parses (hv : Encodable cl cf t v) (hr : Readable cl cf r)
    (hat : At r.buf r.pos (encode cf t v)) :
    Parses cl cf (SchemasFound t v) AnyDataObject.parse r (encode cf t v).length
      (Decodes cl cf t v) :=
  anyParse_parses hv (parseN_null _)
    (fun _ => parseN_parses hv _ ((length_le_of_at hv hat).trans (Nat.le_succ _))) r hr hat

end ReadBack

/-- What was written at `pos` stands there, whatever follows. -/
theorem at_written (buf : Bytes) (pos : ℕ) {data : Bytes} (hne : data ≠ []) (suffix : Bytes) :
    At ((writeAt buf pos data).take (pos + data.length) ++ suffix) pos data := by
  rw [take_writeAt hne]
  simpa using at_of_eq (padTo buf pos) data suffix

/-- Trees of values of the types with a fixed format, with hints for the elements of
containers. -/
inductive ValueTree : DataType → PyValue → Prop
  | none (t : DataType) : ValueTree t .none
  | int {t : DataType} {s : Scalar} {i : ℤ} (ht : t.intScalar = some s) (hi : s.Range i) :
      ValueTree t (.int i)
  | bool (b : Bool) : ValueTree .boolObject (.bool b)
  | str {s : PyStr} (hs : '\x00' ∉ s) (hlen : (utf8Encode s).length < 2 ^ 31) :
      ValueTree .string (.str s)
  | uuid (u : UUID) : ValueTree .uuidObject (.uuid u)
  | enum {a b : ℤ} (ha : Scalar.int.Range a) (hb : Scalar.int.Range b) :
      ValueTree .enumObject (.tuple [.int a, .int b])
  | bytes {b : Bytes} (hlen : b.length < 2 ^ 31) : ValueTree .byteArrayObject (.bytes b)
  | intArray {t : DataType} {s : Scalar} {is : List ℤ} (ht : t.arrayScalar = some s)
      (his : ∀ i ∈ is, s.Range i) (hlen : is.length < 2 ^ 31) :
      ValueTree t (.list (is.map .int))
  | boolArray {bs : List Bool} (hlen : bs.length < 2 ^ 31) :
      ValueTree .boolArrayObject (.list (bs.map .bool))
  | standardArray {t std : DataType} {xs : List PyValue} (ht : t.standardType = some std)
      (hxs : ∀ x ∈ xs, ValueTree std x) (hlen : xs.length < 2 ^ 31) : ValueTree t (.list xs)
  | objectArray {k : ℤ} {ps : List (PyValue × DataType)} (hk : Scalar.int.Range k)
      (hps : ∀ p ∈ ps, ValueTree p.2 p.1) (hlen : ps.length < 2 ^ 31) :
      ValueTree .objectArrayObject (.tuple [.int k, .list (ps.map hint)])
  | collection {k : ℤ} {ps : List (PyValue × DataType)} (hk : Scalar.byte.Range k)
      (hps : ∀ p ∈ ps, ValueTree p.2 p.1) (hlen : ps.length < 2 ^ 31) :
      ValueTree .collectionObject (.tuple [.int k, .list (ps.map hint)])
  | map {k : ℤ} {ps : List ((PyValue × DataType) × (PyValue × DataType))}
      (hk : Scalar.byte.Range k) (hks : ∀ p ∈ ps, ValueTree p.1.2 p.1.1)
      (hvs : ∀ p ∈ ps, ValueTree p.2.2 p.2.1) (hlen : ps.length < 2 ^ 31)
      (hkeys : KeysDistinct ps) :
      ValueTree .mapObject (.tuple [.int k, .dict (ps.map fun p => (hint p.1, hint p.2))])

theorem ValueTree.objects_eq_nil {t : DataType} {v : PyValue} (h : ValueTree t v) :
    objects t v = [] := by
  induction h with
  | @int t s i ht hi => cases t <;> simp_all [DataType.intScalar, objects]
  | @intArray t s is ht his hlen => cases t <;> simp_all [DataType.arrayScalar, objects]
  | @standardArray t std xs ht hxs hlen ih => cases t <;> simp_all [DataType.standardType, objects]
  | objectArray hk hps hlen ih =>
    simpa [objects, objectsAll_typed (typed_hints _)] using ih
  | collection hk hps hlen ih =>
    simpa [objects, objectsAll_typed (typed_hints _)] using ih
  | map hk hks hvs hlen hkeys ihk ihv =>
    simp only [objects, objectsPairs_typed (typed_hint_pairs _), List.flatMap_eq_nil_iff,
      List.append_eq_nil_iff]
    exact fun p hp => ⟨ihk p hp, ihv p hp⟩
  | _ => simp [objects]

section RoundTrip
variable [Python] [OtherCodecs] {t : DataType} {v : PyValue}

theorem ValueTree.encodable (h : ValueTree t v) (cl : Client) (cf : Bool) : Encodable cl cf t v := by
  induction h with
  | none t => exact .none t
  | int ht hi => exact .int ht hi
  | bool b => exact .bool b
  | str hs hlen => exact .str hs hlen
  | uuid u => exact .uuid u
  | enum ha hb => exact .enum (Or.inl rfl) ha hb
  | bytes hlen => exact .bytes hlen
  | intArray ht his hlen => exact .intArray ht his hlen
  | boolArray hlen => exact .boolArray hlen
  | standardArray ht _ hlen ih => exact .standardArray ht ih hlen
  | objectArray hk _ hlen ih => exact .objectArray hk (typed_hints _) ih (by simpa using hlen)
  | collection hk _ hlen ih => exact .collection hk (typed_hints _) ih (by simpa using hlen)
  | map hk _ _ hlen hkeys ihk ihv =>
    exact .map hk (typed_hint_pairs _) ihk ihv (by simpa using hlen) hkeys

/-- Footer modes concern only objects. -/
theorem ValueTree.encode_eq (h : ValueTree t v) (cf cf' : Bool) :
    encode cf t v = encode cf' t v := by
  induction h with
  | @int t s i ht hi => cases t <;> simp_all [DataType.intScalar, encode]
  | intArray ht his hlen => rw [encode_intArray ht, encode_intArray ht]
  | boolArray hlen => rw [encode_boolArray, encode_boolArray]
  | @standardArray t std xs ht hxs hlen ih =>
    rw [encode_standardArray ht, encode_standardArray ht, List.map_congr_left ih]
  | objectArray hk hps hlen ih =>
    rw [encode_objectArray _ (typed_hints _), encode_objectArray _ (typed_hints _),
      List.map_congr_left ih]
  | collection hk hps hlen ih =>
    rw [encode_collection _ (typed_hints _), encode_collection _ (typed_hints _),
      List.map_congr_left ih]
  | @map k ps hk hks hvs hlen hkeys ihk ihv =>
    have hturn : (inTurn ps).map (fun x => encode cf x.2 x.1) =
        (inTurn ps).map fun x => encode cf' x.2 x.1 := by
      refine List.map_congr_left fun x hx => ?_
      obtain ⟨p, hp, hpx⟩ := List.mem_flatMap.mp hx
      rcases List.mem_pair.mp hpx with rfl | rfl
      exacts [ihk p hp, ihv p hp]
    rw [encode_map _ (typed_hint_pairs _), encode_map _ (typed_hint_pairs _), hturn]
  | _ => simp [encode]

/-- A tree written at any position of any buffer is read back whole, by whichever
client and whatever follows it. -/
theorem value_tree_round_trip (h : ValueTree t v) (cl : Client) (buf : Bytes) (pos : ℕ) :
    ∃ v' w, fromPython t v ⟨cl, buf, pos, false⟩ = .ok (v', w) ∧
      ∀ (client : Client) (suffix : Bytes), ∃ c r o,
        AnyDataObject.parse ⟨client, w.buf.take w.pos ++ suffix, pos, false⟩ = .ok (c, r) ∧
        r.pos = w.pos ∧ readBackward c r = .ok (o, r) ∧
        AnyDataObject.toPython (some client) o = .ok (plain t v) := by
  have hnil := h.objects_eq_nil
  have hwrite := fromPython_ok (h.encodable cl cl.compactFooter) (headersOwn_of_no_objects hnil)
    (s := ⟨cl, buf, pos, false⟩) ⟨rfl, rfl⟩
  refine ⟨_, _, hwrite, fun client suffix => ?_⟩
  have hv := h.encodable client client.compactFooter
  have hat := at_written buf pos hv.encode_ne_nil suffix
  rw [← h.encode_eq cl.compactFooter] at hat
  have hr : Readable client client.compactFooter
      ⟨client, (writeAt buf pos (encode cl.compactFooter t v)).take
        (pos + (encode cl.compactFooter t v).length) ++ suffix, pos, false⟩ := ⟨rfl, rfl, rfl⟩
  rw [h.encode_eq cl.compactFooter client.compactFooter] at hat hr ⊢
  obtain ⟨c, r, hparse, hadv, hd⟩ := (anyDataObject_parses hv hr hat).1 (by simp [SchemasFound, hnil])
  have hplain : decoded Scalar.byte.wrap t v = plain t v :=
    (decoded_eq_iff hv).mpr (by simp [hnil])
  have hknows : Knows (some client) client t v := fun hne => absurd hnil hne
  have hpy := anyToPython_of_decodes hv hd hknows (Nat.le_succ _)
  rw [hplain] at hpy
  exact ⟨c, r, _, hparse, hadv.pos, readBackward_ok hv hat hd hadv, hpy⟩

end RoundTrip

/-- A list of `None` and a map, in a stream that holds one byte already. -/
theorem value_tree_round_trip_nested :
    let _ := asciiLower
    let _ := noOtherCodecs
    let v : PyValue := .tuple [.int 1, .list ([(.none, .string), (.tuple [.int 2,
      .dict ([((.str ['k'], .string), (.int 7, .intObject))].map fun p => (hint p.1, hint p.2))],
      .mapObject)].map hint)]
    ∃ v' w, fromPython .collectionObject v ⟨⟨none, fun _ => [], fun _ => []⟩, [5], 3, false⟩ =
        .ok (v', w) ∧
      ∀ (client : Client) (suffix : Bytes), ∃ c r o,
        AnyDataObject.parse ⟨client, w.buf.take w.pos ++ suffix, 3, false⟩ = .ok (c, r) ∧
        r.pos = w.pos ∧ readBackward c r = .ok (o, r) ∧
        AnyDataObject.toPython (some client) o = .ok (plain .collectionObject v) := by
  intro _ _ v
  have hkey : ValueTree .string (.str ['k']) := .str (by decide) (by decide)
  have hval : ValueTree .intObject (.int 7) := .int rfl (by decide)
  have hmap : ValueTree .mapObject (.tuple [.int 2, .dict
      ([((.str ['k'], .string), (.int 7, .intObject))].map fun p => (hint p.1, hint p.2))]) :=
    .map (by decide) (by simpa using hkey) (by simpa using hval) (by decide)
      ⟨[.str ['k']], by simp [decoded, PyValue.hashKey], by simp⟩
  refine value_tree_round_trip (ValueTree.collection (by decide) ?_ (by decide)) _ [5] 3
  intro p hp
  rcases List.mem_pair.mp hp with rfl | rfl
  exacts [.none _, hmap]

end PyGridGain
