import PyGridGain.Codec.Objects

/-! The parsers take the wire format apart: where the encoding of a value stands,
`parse` moves past it and returns a layout that decodes it, and raises exactly
when an object in it has a schema id of zero. -/

namespace PyGridGain

open StreamM

/-- A stream of a client with the registry of `cl` and footer mode `cf`. -/
structure Readable (cl : Client) (cf : Bool) (s : BinaryStream) : Prop where
  registry : s.client.registry = cl.registry
  footer : s.client.compactFooter = cf
  emptyView : s.emptyView = false

/-- `s'` is `s` further by `k` bytes; the client may have learned its footer mode. -/
structure Advanced (cl : Client) (cf : Bool) (s s' : BinaryStream) (k : ℕ) : Prop where
  buf : s'.buf = s.buf
  pos : s'.pos = s.pos + k
  readable : Readable cl cf s'

variable {cl : Client} {cf : Bool} {s s' s'' : BinaryStream} {k k' : ℕ}

theorem Readable.skip (h : Readable cl cf s) (k : ℕ) : Readable cl cf (s.skip k) :=
  ⟨h.registry, h.footer, h.emptyView⟩

theorem Readable.advanced (h : Readable cl cf s) (k : ℕ) : Advanced cl cf s (s.skip k) k :=
  ⟨rfl, rfl, h.skip k⟩

theorem Advanced.trans (h : Advanced cl cf s s' k) (h' : Advanced cl cf s' s'' k') :
    Advanced cl cf s s'' (k + k') :=
  ⟨h'.buf.trans h.buf, by rw [h'.pos, h.pos, Nat.add_assoc], h'.readable⟩

theorem Advanced.at (h : Advanced cl cf s s' k) {b : Bytes} (hat : At s.buf (s.pos + k) b) :
    At s'.buf s'.pos b := by
  rwa [h.buf, h.pos]

/-- Under `p` the action moves past `k` bytes and returns a value with `φ`; otherwise
it raises. -/
def Parses {α : Type} (cl : Client) (cf : Bool) (p : Prop) (m : StreamM α) (s : BinaryStream)
    (k : ℕ) (φ : α → Prop) : Prop :=
  (p → ∃ a s', m s = .ok (a, s') ∧ Advanced cl cf s s' k ∧ φ a) ∧ (¬p → ∃ e, m s = .error e)

namespace Parses

variable {α β : Type} {p q : Prop} {m : StreamM α} {a : α} {φ : α → Prop} {ψ : β → Prop}

theorem of_ok (hs : Readable cl cf s) (h : m s = .ok (a, s.skip k)) (ha : φ a) :
    Parses cl cf True m s k φ :=
  ⟨fun _ => ⟨a, _, h, hs.advanced k, ha⟩, fun hn => absurd trivial hn⟩

theorem of_pure (hs : Readable cl cf s) (ha : φ a) : Parses cl cf True (pure a) s 0 φ :=
  of_ok hs rfl ha

theorem bind {f : α → StreamM β} (hm : Parses cl cf p m s k φ)
    (hf : ∀ a s', φ a → Advanced cl cf s s' k → Parses cl cf q (f a) s' k' ψ) :
    Parses cl cf (p ∧ q) (m >>= f) s (k + k') ψ := by
  refine ⟨fun ⟨hp, hq⟩ => ?_, fun hn => ?_⟩
  · obtain ⟨a, s', h, hadv, ha⟩ := hm.1 hp
    obtain ⟨b, s'', h', hadv', hb⟩ := (hf a s' ha hadv).1 hq
    exact ⟨b, s'', by rw [bind_ok h, h'], hadv.trans hadv', hb⟩
  · by_cases hp : p
    · obtain ⟨a, s', h, hadv, ha⟩ := hm.1 hp
      rw [bind_ok h]
      exact (hf a s' ha hadv).2 fun hq => hn ⟨hp, hq⟩
    · obtain ⟨e, he⟩ := hm.2 hp
      exact ⟨e, bind_error he⟩

/-- A first step that only looks. -/
theorem looking {f : α → StreamM β} (hm : m s = .ok (a, s))
    (hf : Parses cl cf q (f a) s k ψ) : Parses cl cf q (m >>= f) s k ψ := by
  rw [Parses, bind_ok hm]
  exact hf

/-- A first step that moves on. -/
theorem skipping {f : α → StreamM β} (hs : Readable cl cf s) (hm : m s = .ok (a, s.skip k))
    (hf : Parses cl cf q (f a) (s.skip k) k' ψ) : Parses cl cf q (m >>= f) s (k + k') ψ := by
  refine ⟨fun hq => ?_, fun hn => ?_⟩
  · obtain ⟨b, s', h, hadv, hb⟩ := hf.1 hq
    exact ⟨b, s', by rw [bind_ok hm, h], (hs.advanced k).trans hadv, hb⟩
  · rw [bind_ok hm]
    exact hf.2 hn

theorem map {f : α → β} (hm : Parses cl cf p m s k φ) (hf : ∀ a, φ a → ψ (f a)) :
    Parses cl cf p (m >>= fun a => pure (f a)) s k ψ := by
  refine ⟨fun hp => ?_, fun hn => ?_⟩
  · obtain ⟨a, s', h, hadv, ha⟩ := hm.1 hp
    exact ⟨f a, s', by rw [bind_ok h, pure_apply], hadv, hf a ha⟩
  · obtain ⟨e, he⟩ := hm.2 hn
    exact ⟨e, bind_error he⟩

theorem congr {φ' : α → Prop} (hm : Parses cl cf p m s k φ) (hp : p ↔ q) (hk : k = k')
    (hφ : ∀ a, φ a → φ' a) : Parses cl cf q m s k' φ' := by
  subst hk
  rw [← propext hp]
  exact ⟨fun h => by
    obtain ⟨a, s', h, hadv, ha⟩ := hm.1 h
    exact ⟨a, s', h, hadv, hφ a ha⟩, hm.2⟩

end Parses

/-- A length is read without its sign, and modulo the width of the field. -/
theorem peekLength_mod {off n : ℕ} (hv : s.emptyView = false)
    (hat : At s.buf (s.pos + off) (Scalar.int.store n)) :
    peekLength off s = .ok (n % 2 ^ 32, s) := by
  have hne : Scalar.int.store n ≠ [] := by
    rw [← List.length_pos_iff, Scalar.store_length]
    decide
  have hnat : leNat (Scalar.int.store (n : ℤ)) = n % 2 ^ 32 := by
    rw [Scalar.store, Scalar.size, leNat_leBytes, twos]
    omega
  have hslice := slice_at hv hat hne
  rw [Scalar.store_length, Scalar.size] at hslice
  simp only [peekLength]
  rw [bind_ok (tell_ok s), bind_ok hslice, hnat]
  rfl

theorem peekLength_ok {off n : ℕ} (hv : s.emptyView = false) (hn : n < 2 ^ 31)
    (hat : At s.buf (s.pos + off) (Scalar.int.store n)) : peekLength off s = .ok (n, s) := by
  rw [peekLength_mod hv hat, Nat.mod_eq_of_lt (by omega)]

section Containers
variable [Python] [OtherCodecs] {rec : DataType → StreamM Layout} {t : DataType} {v : PyValue}

/-- The parser `p` parses the encoding of `v`, wherever it stands. -/
def ElementParses (cl : Client) (cf : Bool) (p : StreamM Layout) (t : DataType) (v : PyValue) :
    Prop :=
  ∀ s, Readable cl cf s → At s.buf s.pos (encode cf t v) →
    Parses cl cf (SchemasFound t v) p s (encode cf t v).length (Decodes cl cf t v)

theorem peek_code (hv : Encodable cl cf t v) {s : BinaryStream} (hs : Readable cl cf s)
    (hat : At s.buf s.pos (encode cf t v)) : peek 1 s = .ok ([firstCode t v], s) := by
  obtain ⟨rest, hcons⟩ := hv.encode_cons
  rw [hcons] at hat
  exact peek_at hs.emptyView (At.left (a := [firstCode t v]) hat) (by simp)

/-- The first byte tells the class. -/
theorem anyParse_parses (hv : Encodable cl cf t v)
    (hnull : ∀ s, rec .null s = .ok (nullLayout, s.skip 1))
    (h : v ≠ .none → ElementParses cl cf (rec t) t v) :
    ElementParses cl cf (anyParse rec) t v := by
  intro s hs hat
  rw [anyParse]
  refine .looking (peek_code hv hs hat) ?_
  by_cases hnone : v = .none
  · subst hnone
    have hcode : tcMap (firstCode t .none) = some .null := rfl
    simp only [hcode, encode_none]
    exact (Parses.of_ok hs (hnull s) (decodes_none t)).congr (by simp [SchemasFound]) rfl
      fun _ hc => hc
  · simp only [firstCode_of_ne hnone, tcMap_typeCode]
    exact h hnone s hs hat

theorem parseElements_parses {p : StreamM Layout} {xs : List (PyValue × DataType)} (i : ℕ)
    (henc : ∀ x ∈ xs, Encodable cl cf x.2 x.1) (h : ∀ x ∈ xs, ElementParses cl cf p x.2 x.1)
    {s : BinaryStream} (hs : Readable cl cf s)
    (hat : At s.buf s.pos (xs.map fun x => encode cf x.2 x.1).flatten) :
    Parses cl cf (∀ x ∈ xs, SchemasFound x.2 x.1) (parseElements p i xs.length) s
      (xs.map fun x => encode cf x.2 x.1).flatten.length
      fun cs => ∃ ls : List Element, values ls = xs ∧ AllDecode cl cf ls ∧
        cs = ls.mapIdx fun j e => (.element (i + j), e.1) := by
  induction xs generalizing i s with
  | nil =>
    exact (Parses.of_pure hs ⟨[], rfl, by simp [AllDecode], rfl⟩).congr (by simp) rfl
      fun _ hc => hc
  | cons x xs ih =>
    rw [List.map_cons, List.flatten_cons] at hat
    have hrest : ∀ c s', Decodes cl cf x.2 x.1 c →
        Advanced cl cf s s' (encode cf x.2 x.1).length →
        Parses cl cf (∀ x ∈ xs, SchemasFound x.2 x.1)
          (do let cs ← parseElements p (i + 1) xs.length; pure ((FieldName.element i, c) :: cs)) s'
          (xs.map fun x => encode cf x.2 x.1).flatten.length
          fun cs => ∃ ls : List Element, values ls = x :: xs ∧ AllDecode cl cf ls ∧
            cs = ls.mapIdx fun j e => (.element (i + j), e.1) := by
      intro c s' hc hadv
      refine (ih (i + 1) (fun y hy => henc y (by simp [hy])) (fun y hy => h y (by simp [hy]))
        hadv.readable (hadv.at hat.right)).map ?_
      rintro _ ⟨ls, hvalues, hls, rfl⟩
      refine ⟨(c, x) :: ls, by simp [values, ← hvalues], ?_, ?_⟩
      · exact List.forall_mem_cons.mpr ⟨⟨henc x (by simp), hc⟩, hls⟩
      · simp [List.mapIdx_cons, Nat.add_assoc, Nat.add_comm 1]
    exact ((h x (by simp) s hs hat.left).bind hrest).congr (by simp) (by simp) fun _ hc => hc

/-- `parseArray` where a header of fixed fields and the encodings of `xs` stand. -/
theorem parseArray_parses {p : StreamM Layout} {xs : List (PyValue × DataType)}
    {header : List (FieldName × Layout × Bytes)} {off n : ℕ} {k : ℕ → ℕ}
    (hcount : k n = xs.length) (hn : n < 2 ^ 31) (hheader : IsHeader header)
    (henc : ∀ x ∈ xs, Encodable cl cf x.2 x.1) (h : ∀ x ∈ xs, ElementParses cl cf p x.2 x.1)
    {s : BinaryStream} (hs : Readable cl cf s)
    (hat : At s.buf s.pos (header.flatMap (fun p => p.2.2) ++
      (xs.map fun x => encode cf x.2 x.1).flatten))
    (hlength : At s.buf (s.pos + off) (Scalar.int.store n)) :
    Parses cl cf (∀ x ∈ xs, SchemasFound x.2 x.1)
      (parseArray off (header.map fun p => (p.1, p.2.1)) k p) s
      (header.flatMap (fun p => p.2.2) ++ (xs.map fun x => encode cf x.2 x.1).flatten).length
      fun c => ∃ ls : List Element, values ls = xs ∧ AllDecode cl cf ls ∧
        c = (CObj.ofParts (header ++ elementParts cf ls)).ctype := by
  have hsize : CType.sizeFields (header.map fun p => (p.1, p.2.1)) =
      (header.flatMap fun p => p.2.2).length := (CObj.ofParts_length hheader.filled).symm
  rw [parseArray, List.length_append]
  refine .looking (peekLength_ok hs.emptyView hn hlength) ?_
  rw [hsize, hcount]
  refine .skipping hs (seekCur_ok _ _) ?_
  refine (parseElements_parses 0 henc h (hs.skip _) hat.right).map ?_
  rintro _ ⟨ls, hvalues, hls, rfl⟩
  refine ⟨ls, hvalues, hls, ?_⟩
  simp only [CObj.ofParts, List.map_append, elementParts, CObj.numbered, Nat.zero_add]
  congr 2
  apply List.ext_getElem <;> simp

theorem parseStandardArray_parses {std : DataType} (ht : t.standardType = some std)
    {xs : List PyValue} (hlen : xs.length < 2 ^ 31) (henc : ∀ x ∈ xs, Encodable cl cf std x)
    (h : ∀ x ∈ xs, ElementParses cl cf (rec std) std x) :
    ElementParses cl cf (parseArray 1 standardArrayHeader id (rec std)) t (.list xs) := by
  intro s hs hat
  have hall : ∀ x ∈ xs.map (fun x => (x, std)), x.2 = std ∧ x.1 ∈ xs := by simp
  have hmap : xs.map (fun x => encode cf std x) =
      (xs.map fun x => (x, std)).map fun x => encode cf x.2 x.1 := by simp
  rw [encode_standardArray ht, hmap] at hat ⊢
  have hlength : At s.buf (s.pos + 1) (Scalar.int.store xs.length) :=
    (At.right (a := [t.typeCode]) hat.left).left
  refine (parseArray_parses (k := id) (by simp) hlen (isHeader_standard t.typeCode xs.length)
    (fun x hx => ?_) (fun x hx => ?_) hs hat hlength).congr ?_ rfl ?_
  · rw [(hall x hx).1]
    exact henc _ (hall x hx).2
  · have := h _ (hall x hx).2
    rwa [(hall x hx).1]
  · refine iff_of_true (fun x hx => ?_) ?_
    · have := (henc _ (hall x hx).2).objects_standard ht
      simp [SchemasFound, (hall x hx).1, this]
    · cases t <;> simp [SchemasFound, objects]
  · rintro _ ⟨ls, hvalues, hls, rfl⟩
    have hxs : xs = ls.map fun e => e.2.1 := by
      have := congrArg (List.map Prod.fst) hvalues
      simpa [values, Function.comp_def] using this.symm
    have hstd : ∀ e ∈ ls, e.2.2 = std := fun e he =>
      (hall e.2 (hvalues ▸ List.mem_map_of_mem he)).1
    have hls_len : xs.length = ls.length := by rw [hxs, List.length_map]
    rw [hls_len] at hlen ⊢
    rw [hxs]
    exact decodes_standardArray ht hls hstd hlen

theorem parseObjectArray_parses {k : ℤ} {xs : List PyValue} {ps : List (PyValue × DataType)}
    (hk : Scalar.int.Range k) (htyped : Typed xs ps) (hlen : ps.length < 2 ^ 31)
    (henc : ∀ p ∈ ps, Encodable cl cf p.2 p.1)
    (h : ∀ p ∈ ps, ElementParses cl cf (anyParse rec) p.2 p.1) :
    ElementParses cl cf (parseArray 5 objectArrayHeader id (anyParse rec)) .objectArrayObject
      (.tuple [.int k, .list xs]) := by
  intro s hs hat
  rw [encode_objectArray k htyped] at hat ⊢
  have hlength : At s.buf (s.pos + 5) (Scalar.int.store ps.length) := by
    have := (At.right (a := [DataType.objectArrayObject.typeCode] ++ Scalar.int.store k)
      (b := Scalar.int.store ps.length) (by simpa [codePart, scalarPart] using hat.left))
    simpa [Scalar.size] using this
  refine (parseArray_parses (k := id) rfl hlen
    (isHeader_objectArray DataType.objectArrayObject.typeCode k ps.length) henc h hs hat
    hlength).congr ?_ rfl ?_
  · simp only [SchemasFound, objects, objectsAll_typed htyped, List.forall_mem_flatMap]
  · rintro _ ⟨ls, rfl, hls, rfl⟩
    rw [List.length_map] at hlen ⊢
    exact decodes_objectArray hk htyped hls hlen

theorem parseCollection_parses {k : ℤ} {xs : List PyValue} {ps : List (PyValue × DataType)}
    (hk : Scalar.byte.Range k) (htyped : Typed xs ps) (hlen : ps.length < 2 ^ 31)
    (henc : ∀ p ∈ ps, Encodable cl cf p.2 p.1)
    (h : ∀ p ∈ ps, ElementParses cl cf (anyParse rec) p.2 p.1) :
    ElementParses cl cf (parseArray 1 collectionHeader id (anyParse rec)) .collectionObject
      (.tuple [.int k, .list xs]) := by
  intro s hs hat
  rw [encode_collection k htyped] at hat ⊢
  have hlength : At s.buf (s.pos + 1) (Scalar.int.store ps.length) :=
    (At.right (a := [DataType.collectionObject.typeCode]) hat.left).left
  refine (parseArray_parses (k := id) rfl hlen
    (isHeader_collection DataType.collectionObject.typeCode ps.length k) henc h hs hat
    hlength).congr ?_ rfl ?_
  · simp only [SchemasFound, objects, objectsAll_typed htyped, List.forall_mem_flatMap]
  · rintro _ ⟨ls, rfl, hls, rfl⟩
    rw [List.length_map] at hlen ⊢
    exact decodes_collection hk htyped hls hlen

theorem parseMap_parses {k : ℤ} {kvs : List (PyValue × PyValue)}
    {ps : List ((PyValue × DataType) × (PyValue × DataType))} (hk : Scalar.byte.Range k)
    (htyped : TypedPairs kvs ps) (hlen : ps.length < 2 ^ 31) (hkeys : KeysDistinct ps)
    (henc : ∀ x ∈ inTurn ps, Encodable cl cf x.2 x.1)
    (h : ∀ x ∈ inTurn ps, ElementParses cl cf (anyParse rec) x.2 x.1) :
    ElementParses cl cf (parseArray 1 collectionHeader (2 * ·) (anyParse rec)) .mapObject
      (.tuple [.int k, .dict kvs]) := by
  intro s hs hat
  rw [encode_map k htyped] at hat ⊢
  have hlength : At s.buf (s.pos + 1) (Scalar.int.store ps.length) :=
    (At.right (a := [DataType.mapObject.typeCode]) hat.left).left
  have hcount : 2 * ps.length = (inTurn ps).length := by
    simp [inTurn, List.length_flatMap, Nat.mul_comm]
  refine (parseArray_parses (k := (2 * ·)) hcount hlen
    (isHeader_collection DataType.mapObject.typeCode ps.length k) henc h hs hat
    hlength).congr ?_ rfl ?_
  · simp only [SchemasFound, objects, objectsPairs_typed htyped, List.forall_mem_flatMap,
      List.forall_mem_append, inTurn, List.forall_mem_cons, List.not_mem_nil, false_implies,
      implies_true, and_true]
  · rintro _ ⟨ls, hvalues, hls, rfl⟩
    obtain ⟨es, rfl, rfl⟩ := exists_entries hvalues
    rw [List.length_map] at hlen ⊢
    exact decodes_map hk htyped hls hlen hkeys

end Containers

section Objects
variable [Python] [OtherCodecs] {rec : DataType → StreamM Layout} {head : ObjHead}
  {fields : List (PyStr × DataType × PyValue)}

theorem parseFields_parses (henc : ∀ f ∈ fields, Encodable cl cf f.2.1 f.2.2)
    (h : ∀ f ∈ fields, ElementParses cl cf (rec f.2.1) f.2.1 f.2.2) {s : BinaryStream}
    (hs : Readable cl cf s) (hat : At s.buf s.pos (encodeFields cf fields).flatten) :
    Parses cl cf (∀ f ∈ fields, SchemasFound f.2.1 f.2.2)
      (parseFields rec (fields.map fun f => (f.1, f.2.1))) s (encodeFields cf fields).flatten.length
      fun cs => ∃ ms : List Member, members ms = fields ∧ MembersDecode cl cf ms ∧
        cs = ms.map fun m => (.field m.2.1, m.1) := by
  induction fields generalizing s with
  | nil =>
    exact (Parses.of_pure hs ⟨[], rfl, by simp [MembersDecode], rfl⟩).congr (by simp) rfl
      fun _ hc => hc
  | cons f fields ih =>
    obtain ⟨name, t, v⟩ := f
    rw [encodeFields, List.flatten_cons] at hat ⊢
    have hrest : ∀ c s', Decodes cl cf t v c → Advanced cl cf s s' (encode cf t v).length →
        Parses cl cf (∀ f ∈ fields, SchemasFound f.2.1 f.2.2)
          (do
            let cs ← parseFields rec (fields.map fun f => (f.1, f.2.1))
            pure ((FieldName.field name, c) :: cs)) s' (encodeFields cf fields).flatten.length
          fun cs => ∃ ms : List Member, members ms = (name, t, v) :: fields ∧
            MembersDecode cl cf ms ∧ cs = ms.map fun m => (.field m.2.1, m.1) := by
      intro c s' hc hadv
      refine (ih (fun g hg => henc g (by simp [hg])) (fun g hg => h g (by simp [hg]))
        hadv.readable (hadv.at hat.right)).map ?_
      rintro _ ⟨ms, hmembers, hms, rfl⟩
      refine ⟨(c, name, t, v) :: ms, by simp [members, ← hmembers], ?_, by simp⟩
      exact List.forall_mem_cons.mpr ⟨⟨henc (name, t, v) (by simp), hc⟩, hms⟩
    exact ((h (name, t, v) (by simp) s hs hat.left).bind hrest).congr (by simp) (by simp)
      fun _ hc => hc

omit [Python] [OtherCodecs] in
/-- The footer mode that the flags of an object show is the one of the client. -/
theorem setCompactFooter_parses {s : BinaryStream} (hs : Readable cl cf s) :
    Parses cl cf True (setCompactFooter cf) s 0 fun _ => True := by
  have hfooter := hs.footer
  refine ⟨fun _ => ?_, fun hn => absurd trivial hn⟩
  cases hraw : s.client.rawCompactFooter with
  | none =>
    refine ⟨(), { s with client := { s.client with rawCompactFooter := some cf } },
      by simp only [setCompactFooter, hraw], ⟨rfl, rfl, hs.registry, rfl, hs.emptyView⟩, trivial⟩
  | some b =>
    have hb : b = cf := by simpa [Client.compactFooter, hraw] using hfooter
    exact ⟨(), s, by simp only [setCompactFooter, hraw, hb, if_true], hs.advanced 0, trivial⟩

omit [OtherCodecs] in
/-- The class of an object is found, unless its schema id counts as none. -/
theorem getDataclass_ok {cls : DataClass} {s : BinaryStream} (hs : Readable cl cf s)
    (hreg : cl.Registered cls) :
    getDataclass cls.typeId cls.schemaId s =
      if cls.schemaId = 0 then PyGridGain.raise .attributeError else .ok (cls, s) := by
  have hreg' : s.client.Registered cls := by rwa [Client.Registered, hs.registry]
  have hne := hreg'.ne_nil
  have hquery : StreamM.queryBinaryType cls.typeId cls.schemaId s =
      .ok (if cls.schemaId = 0 then .dict (s.client.registry cls.typeId) else .dataClass cls, s) := by
    simp only [StreamM.queryBinaryType, Client.queryBinaryType_of_registered hreg']
  rw [getDataclass, bind_ok hquery]
  by_cases h0 : cls.schemaId = 0
  · simp [h0, Lookup.truthy, hne, StreamM.raise]
  · simp [h0, Lookup.truthy]

theorem parseBinary_parses (hv : Encodable cl cf .binaryObject (.obj head fields))
    (h : ∀ f ∈ fields, ElementParses cl cf (rec f.2.1) f.2.1 f.2.2) :
    ElementParses cl cf (parseBinary rec) .binaryObject (.obj head fields) := by
  intro s hs hat
  have hv' := hv
  cases hv' with | obj hne _ henc hreg hsize _ =>
  have hschemas : SchemasFound .binaryObject (.obj head fields) ↔
      (classOf head fields).schemaId ≠ 0 ∧ ∀ f ∈ fields, SchemasFound f.2.1 f.2.2 := by
    simp only [SchemasFound, objects, objectsFields_eq, List.forall_mem_cons,
      List.forall_mem_flatMap]
  rw [encode_obj] at hat
  set hdr := objectHeader cf head fields (encodeFields cf fields) with hhdr
  have hread : readForward headerClass s = .ok (CObj.ofParts (headerParts hdr), s) := by
    rw [ofParts_header]
    exact readForward_at hs.emptyView hat.left (by simp [Header.store]) (by simp [headerSize])
  have hflags : (CObj.ofParts (headerParts hdr)).getInt .flags =
      some ((objectFlags cf (chunkStarts headerSize (encodeFields cf fields)) : ℕ) : ℤ) := by
    rw [CObj.getInt_ofParts (headerParts_filled _) (headerParts_nodup _) (s := .short)
      (b := Scalar.short.store hdr.flags) (by simp [headerParts, scalarPart])]
    rw [hhdr, objectHeader, Scalar.load_store (objectFlags_range _ _)]
  have htypeId : (CObj.ofParts (headerParts hdr)).getInt .typeId =
      some (classOf head fields).typeId := by
    rw [CObj.getInt_ofParts (headerParts_filled _) (headerParts_nodup _) (s := .int)
      (b := Scalar.int.store hdr.typeId) (by simp [headerParts, scalarPart])]
    rw [hhdr, objectHeader, Scalar.load_store (typeId_range _ _)]
  have hschemaId : (CObj.ofParts (headerParts hdr)).getInt .schemaId =
      some (classOf head fields).schemaId := by
    rw [CObj.getInt_ofParts (headerParts_filled _) (headerParts_nodup _) (s := .int)
      (b := Scalar.int.store hdr.schemaId) (by simp [headerParts, scalarPart])]
    rw [hhdr, objectHeader, Scalar.load_store (schemaId_int_range _ _)]
  rw [hschemas, encode_obj, List.length_append, List.length_append, Header.store_length, parseBinary]
  refine .looking hread (.skipping hs (seekCur_ok _ _) ?_)
  simp only [hflags, htypeId, hschemaId, ofOption, pure_bind, hasFlag_schema, hasFlag_compact,
    if_true]
  have hclass := getDataclass_ok (hs.skip headerSize) hreg
  by_cases h0 : (classOf head fields).schemaId = 0
  · rw [if_pos h0] at hclass
    exact ⟨fun hp => absurd h0 hp.1, fun _ => ⟨_, bind_error hclass⟩⟩
  rw [if_neg h0] at hclass
  refine .looking hclass ?_
  have hfields := parseFields_parses henc h (hs.skip headerSize)
    (by simpa using hat.right.left)
  refine Parses.congr (p := (∀ f ∈ fields, SchemasFound f.2.1 f.2.2) ∧ True) ?_ (by simp [h0]) rfl
    fun _ hc => hc
  refine hfields.bind ?_
  rintro _ s' ⟨ms, rfl, hms, rfl⟩ hadv
  have hsize : (objectFooter cf (members ms) (encodeFields cf (members ms))).length =
      (footerLayout cf ms).size + 0 := objectFooter_length
  have hcount : (classOf head (members ms)).schema.length = ms.length := by simp [classOf]
  rw [hsize, hcount]
  refine .skipping hadv.readable (seekCur_ok _ _) ?_
  refine (setCompactFooter_parses (hadv.readable.skip _)).map (fun _ _ => ?_)
  have hd := decodes_obj hv hms h0
  simpa [objectParts, headerParts, headerFields, CObj.ofParts, codePart, scalarPart, footerLayout,
    memberParts, Function.comp_def] using hd

end Objects

section Main
variable [Python] [OtherCodecs] {t : DataType} {v : PyValue} {n : ℕ}

theorem parseN_null (n : ℕ) (s : BinaryStream) :
    parseN (n + 1) .null s = .ok (nullLayout, s.skip 1) := rfl

theorem parseN_none (t : DataType) : ElementParses cl cf (parseN (n + 1) t) t .none := by
  intro s hs hat
  have hok : parseN (n + 1) t s = .ok (nullLayout, s.skip (encode cf t .none).length) := by
    have hpeek := peek_code (.none t) hs hat
    rw [encode_none]
    by_cases ht : t = .null
    · subst ht; rfl
    · have hbody : parseN (n + 1) t s = (peek 1 >>= fun code =>
          if code = [TC_NULL] then seekPast nullLayout else parseNotNull (parseN n) t) s := by
        cases t <;> first | exact absurd rfl ht | rfl
      rw [hbody, bind_ok hpeek]
      rfl
  exact (Parses.of_ok hs hok (decodes_none t)).congr (by simp [SchemasFound]) rfl fun _ hc => hc

/-- A value that is not `None` is parsed by its class. -/
theorem parseN_of_ne (hv : Encodable cl cf t v) (hne : v ≠ .none)
    (h : ElementParses cl cf (parseNotNull (parseN n) t) t v) :
    ElementParses cl cf (parseN (n + 1) t) t v := by
  intro s hs hat
  have hpeek := peek_code hv hs hat
  have ht := hv.ne_null hne
  have hcode : ([firstCode t v] = [TC_NULL]) = False := by
    rw [firstCode_of_ne hne, List.singleton_inj, typeCode_eq_null, eq_false ht]
  have hbody : parseN (n + 1) t s = (peek 1 >>= fun code =>
      if code = [TC_NULL] then seekPast nullLayout else parseNotNull (parseN n) t) s := by
    cases t <;> first | exact absurd rfl ht | rfl
  have hparse := h s hs hat
  rw [Parses] at hparse ⊢
  rw [hbody, bind_ok hpeek]
  simpa only [hcode, if_false] using hparse

/-- A class without nested values moves past a layout that decodes its value. -/
theorem parses_leaf {p : StreamM Layout} {c : Layout} (hd : Decodes cl cf t v c)
    (hp : ∀ s, Readable cl cf s → At s.buf s.pos (encode cf t v) → p s = .ok (c, s.skip c.size))
    (hobjects : objects t v = []) : ElementParses cl cf p t v := by
  intro s hs hat
  exact (Parses.of_ok hs (hp s hs hat) hd).congr (by simp [SchemasFound, hobjects]) hd.size.symm
    fun _ hc => hc

omit [Python] [OtherCodecs] in
/-- The length of a text or of an array stands behind its type code. -/
theorem peekLength_at {s : BinaryStream} {m : ℕ} {rest : Bytes} (hs : Readable cl cf s)
    (hm : m < 2 ^ 31) (hat : At s.buf s.pos (t.typeCode :: (Scalar.int.store m ++ rest))) :
    peekLength 1 s = .ok (m, s) :=
  peekLength_ok hs.emptyView hm (At.right (a := [t.typeCode]) hat).left

theorem parseN_of_le {d : ℕ} (h : ∀ n, d ≤ n + 1 → ElementParses cl cf (parseN (n + 1) t) t v)
    (hd : 0 < d) (hn : d ≤ n) : ElementParses cl cf (parseN n t) t v := by
  obtain ⟨m, rfl⟩ := Nat.exists_eq_add_of_lt (Nat.lt_of_lt_of_le hd hn)
  rw [Nat.zero_add] at hn ⊢
  exact h m hn

/-- An element under `AnyDataObject`. -/
theorem anyParseN_parses (hv : Encodable cl cf t v)
    (h : ∀ n, (encode cf t v).length ≤ n + 1 → ElementParses cl cf (parseN (n + 1) t) t v)
    (hn : (encode cf t v).length ≤ n) : ElementParses cl cf (anyParse (parseN n)) t v := by
  have hpos : 0 < (encode cf t v).length := List.length_pos_iff.mpr hv.encode_ne_nil
  obtain ⟨m, rfl⟩ := Nat.exists_eq_add_of_lt (Nat.lt_of_lt_of_le hpos hn)
  rw [Nat.zero_add] at hn ⊢
  exact anyParse_parses hv (parseN_null m) fun _ => h m hn

/-- An element is shorter than its container. -/
theorem length_le_of_mem {xs : List (PyValue × DataType)} {header : Bytes}
    (hbytes : encode cf t v = header ++ (xs.map fun x => encode cf x.2 x.1).flatten)
    (hheader : 0 < header.length) (hn : (encode cf t v).length ≤ n + 1)
    {x : PyValue × DataType} (hx : x ∈ xs) : (encode cf x.2 x.1).length ≤ n := by
  have hle := length_le_flatten (List.mem_map_of_mem (f := fun x : PyValue × DataType =>
    encode cf x.2 x.1) hx)
  rw [hbytes, List.length_append] at hn
  omega

/-- Under a sufficient bound the parser of a class parses what it encodes. -/
theorem parseN_parses (hv : Encodable cl cf t v) :
    ∀ n, (encode cf t v).length ≤ n + 1 → ElementParses cl cf (parseN (n + 1) t) t v := by
  induction hv with
  | none t => exact fun n _ => parseN_none t
  | @int t sc i ht hi =>
    intro n hn
    refine parseN_of_ne (.int ht hi) (by simp) (parses_leaf (decodes_int ht hi) (fun s _ _ => ?_) ?_)
    · cases t <;> simp only [DataType.intScalar, reduceCtorEq, Option.some.injEq] at ht <;>
        subst ht <;> rfl
    · cases t <;> simp_all [DataType.intScalar, objects]
  | bool b =>
    intro n hn
    exact parseN_of_ne (.bool b) (by simp) (parses_leaf (decodes_bool b) (fun s _ _ => rfl)
      (by simp only [objects]))
  | @str x hx hlen =>
    intro n hn
    refine parseN_of_ne (.str hx hlen) (by simp) (parses_leaf (decodes_str hx hlen)
      (fun s hs hat => ?_) (by simp only [objects]))
    simp only [encode] at hat
    exact bind_ok (peekLength_at hs hlen hat)
  | uuid u =>
    intro n hn
    exact parseN_of_ne (.uuid u) (by simp) (parses_leaf (decodes_uuid u) (fun s _ _ => rfl)
      (by simp only [objects]))
  | @enum t a b ht ha hb =>
    intro n hn
    refine parseN_of_ne (.enum ht ha hb) (by simp) (parses_leaf (decodes_enum ht ha hb)
      (fun s _ _ => ?_) ?_)
    · rcases ht with rfl | rfl <;> rfl
    · rcases ht with rfl | rfl <;> simp only [objects]
  | @bytes b hlen =>
    intro n hn
    refine parseN_of_ne (.bytes hlen) (by simp) (parses_leaf (decodes_bytes hlen)
      (fun s hs hat => ?_) (by simp only [objects]))
    simp only [encode] at hat
    exact bind_ok (peekLength_at hs hlen hat)
  | @intArray t sc is ht his hlen =>
    intro n hn
    refine parseN_of_ne (.intArray ht his hlen) (by simp) (parses_leaf
      (decodes_intArray ht his hlen) (fun s hs hat => ?_) ?_)
    · rw [encode_intArray ht] at hat
      cases t <;> simp only [DataType.arrayScalar, reduceCtorEq, Option.some.injEq] at ht <;>
        subst ht <;> exact bind_ok (peekLength_at hs hlen hat)
    · cases t <;> simp_all [DataType.arrayScalar, objects]
  | @boolArray bs hlen =>
    intro n hn
    refine parseN_of_ne (.boolArray hlen) (by simp) (parses_leaf (decodes_boolArray hlen)
      (fun s hs hat => ?_) (by simp only [objects]))
    rw [encode_boolArray] at hat
    exact bind_ok (peekLength_at hs hlen hat)
  | @standardArray t std xs ht hxs hlen ih =>
    intro n hn
    have hbytes : encode cf t (.list xs) = _ := encode_standardArray ht xs
    have hrec : ∀ x ∈ xs, ElementParses cl cf (parseN n std) std x := by
      intro x hx
      have hle := length_le_flatten (List.mem_map_of_mem (f := fun x => encode cf std x) hx)
      rw [hbytes, List.length_append] at hn
      simp only [codePart, List.flatMap_cons, List.length_append, List.length_singleton] at hn
      exact parseN_of_le (ih x hx) (List.length_pos_iff.mpr (hxs x hx).encode_ne_nil) (by omega)
    refine parseN_of_ne (.standardArray ht hxs hlen) (by simp) ?_
    have hparse : ElementParses cl cf (parseArray 1 standardArrayHeader id (parseN n std)) t
        (.list xs) := parseStandardArray_parses ht hlen hxs hrec
    cases t <;> simp only [DataType.standardType, reduceCtorEq, Option.some.injEq] at ht <;>
      subst ht <;> exact hparse
  | @objectArray k xs ps hk htyped hps hlen ih =>
    intro n hn
    refine parseN_of_ne (.objectArray hk htyped hps hlen) (by simp) ?_
    exact parseObjectArray_parses hk htyped (htyped.length_eq ▸ hlen) hps fun p hp =>
      anyParseN_parses (hps p hp) (ih p hp)
        (length_le_of_mem (encode_objectArray k htyped) (by simp [codePart]) hn hp)
  | @collection k xs ps hk htyped hps hlen ih =>
    intro n hn
    refine parseN_of_ne (.collection hk htyped hps hlen) (by simp) ?_
    exact parseCollection_parses hk htyped (htyped.length_eq ▸ hlen) hps fun p hp =>
      anyParseN_parses (hps p hp) (ih p hp)
        (length_le_of_mem (encode_collection k htyped) (by simp [codePart]) hn hp)
  | @map k kvs ps hk htyped hks hvs hlen hkeys ihk ihv =>
    intro n hn
    have hencodable : ∀ x ∈ inTurn ps, Encodable cl cf x.2 x.1 := by
      intro x hx
      obtain ⟨p, hp, hpx⟩ := List.mem_flatMap.mp hx
      rcases List.mem_pair.mp hpx with rfl | rfl
      exacts [hks p hp, hvs p hp]
    refine parseN_of_ne (.map hk htyped hks hvs hlen hkeys) (by simp) ?_
    refine parseMap_parses hk htyped (htyped.length_eq ▸ hlen) hkeys hencodable fun x hx =>
      anyParseN_parses (hencodable x hx) ?_
        (length_le_of_mem (encode_map k htyped) (by simp [codePart]) hn hx)
    obtain ⟨p, hp, hpx⟩ := List.mem_flatMap.mp hx
    rcases List.mem_pair.mp hpx with rfl | rfl
    exacts [ihk p hp, ihv p hp]
  | @obj head fields hne hnames hfields hreg hsize hbuffer ih =>
    intro n hn
    have hv := Encodable.obj hne hnames hfields hreg hsize hbuffer
    refine parseN_of_ne hv (by simp) (parseBinary_parses hv fun f hf => ?_)
    have hle := length_le_flatten (List.mem_map_of_mem (f := fun f : PyStr × DataType × PyValue =>
      encode cf f.2.1 f.2.2) hf)
    rw [encode_obj, encodeFields_eq] at hn
    simp only [List.length_append, Header.store_length] at hn
    have : 1 ≤ headerSize := by decide
    exact parseN_of_le (ih f hf) (List.length_pos_iff.mpr (hfields f hf).encode_ne_nil) (by omega)
  | @leaf t v h =>
    intro n hn
    refine parseN_of_ne (.leaf h) h.not_none ?_
    obtain ⟨c, hsize, hparse, hcode, hpy⟩ := h.reads
    refine parses_leaf (c := c) ?_ (fun s hs hat => ?_) (objects_other h.not_hinted)
    · exact decodes_leaf h hsize hcode hpy
    · rw [encode_other h.not_none h.not_hinted] at hat
      exact hparse s hs.emptyView hat

end Main

end PyGridGain
