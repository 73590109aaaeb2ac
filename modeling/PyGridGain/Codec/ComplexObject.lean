import PyGridGain.Codec.RoundTrip

/-! The representation of a Complex object: the header tells its length, the footer
where its fields are, and it is read back as it was written, exactly if every
object in it has a schema id that the registry looks up, a version that the header
can hold, and no field in the place of what is needed to write it. -/

namespace PyGridGain

open StreamM

/-! ### Chunks and their positions -/

/-- The `i`-th piece of a concatenation of pieces of one size. -/
theorem sliceAt_flatMap {α : Type} {f : α → Bytes} {n : ℕ} {l : List α} (h : ∀ a ∈ l, (f a).length = n)
    {i : ℕ} {a : α} (ha : l[i]? = some a) : sliceAt (l.flatMap f) (i * n) n = f a := by
  induction l generalizing i with
  | nil => simp at ha
  | cons b l ih =>
    have hb : (f b).length = n := h b (by simp)
    cases i with
    | zero =>
      obtain rfl : b = a := by simpa using ha
      rw [sliceAt, Nat.zero_mul, List.drop_zero, List.flatMap_cons, List.take_left' hb]
    | succ i =>
      rw [List.flatMap_cons, sliceAt, Nat.succ_mul, Nat.add_comm, ← List.drop_drop,
        List.drop_left' hb]
      exact ih (fun a ha => h a (by simp [ha])) (by simpa using ha)

/-- Every chunk stands where it starts. -/
theorem at_chunkStarts {buf : Bytes} {pos off : ℕ} {cs : List Bytes} (h : At buf (pos + off) cs.flatten)
    {i : ℕ} {c : Bytes} {k : ℕ} (hc : cs[i]? = some c) (hk : (chunkStarts off cs)[i]? = some k) :
    At buf (pos + k) c := by
  induction cs generalizing off i with
  | nil => simp at hc
  | cons d cs ih =>
    rw [List.flatten_cons] at h
    cases i with
    | zero =>
      obtain ⟨rfl, rfl⟩ : d = c ∧ off = k := by simpa [chunkStarts] using And.intro hc hk
      exact h.left
    | succ i =>
      have hright := h.right
      rw [Nat.add_assoc] at hright
      exact ih hright (by simpa using hc) (by simpa [chunkStarts] using hk)

theorem le_of_mem_chunkStarts {off k : ℕ} {cs : List Bytes} (h : k ∈ chunkStarts off cs) :
    k ≤ off + cs.flatten.length := by
  induction cs generalizing off with
  | nil => simp [chunkStarts] at h
  | cons c cs ih =>
    rw [List.flatten_cons, List.length_append]
    rcases List.mem_cons.mp h with rfl | h
    · omega
    · have := ih h
      omega

theorem foldl_max_ge (l : List ℕ) (n : ℕ) : n ≤ l.foldl max n := by
  induction l generalizing n with
  | nil => exact le_rfl
  | cons a l ih => exact (le_max_left n a).trans (ih _)

theorem le_foldl_max {l : List ℕ} {k : ℕ} (n : ℕ) (h : k ∈ l) : k ≤ l.foldl max n := by
  induction l generalizing n with
  | nil => simp at h
  | cons a l ih =>
    rcases List.mem_cons.mp h with rfl | h
    · exact (le_max_right n k).trans (foldl_max_ge l _)
    · exact ih _ h

/-- No offset is truncated: the width that the flags select holds every one. -/
theorem offset_range (cf : Bool) {offsets : List ℕ} {k : ℕ} (h : k ∈ offsets) (hk : k < 2 ^ 32) :
    (offsetCType (objectFlags cf offsets : ℕ)).Range k := by
  have hle := le_foldl_max 0 h
  have hwidth : offsetCType (objectFlags cf offsets : ℕ) =
      if offsets.foldl max 0 < 255 then .ubyte
      else if offsets.foldl max 0 < 65535 then .ushort else .uint := by
    unfold objectFlags widthFlag
    split_ifs <;> cases cf <;> decide
  rw [hwidth]
  split_ifs <;> simp only [Scalar.Range, Scalar.isSigned, Scalar.size] <;> norm_num <;> omega

/-- Where the footer entry `entry` of an object with the flags `flags` says its field
starts. -/
def footerOffset (flags : ℤ) (entry : Bytes) : Option ℤ :=
  let o : CObject := ⟨schemaType flags, entry⟩
  if hasFlag flags COMPACT_FOOTER then o.value else o.getInt .offset

section Footer
variable [Python]

theorem footerOffset_store {cf : Bool} {flags : ℤ} (hcf : hasFlag flags COMPACT_FOOTER = cf)
    (p : PyStr × ℕ) (hp : (offsetCType flags).Range p.2) :
    footerOffset flags (if cf then (offsetCType flags).store p.2
      else Scalar.int.store (entityId p.1) ++ (offsetCType flags).store p.2) = some (p.2 : ℤ) := by
  cases cf with
  | true => simp [footerOffset, schemaType, hcf, CObj.value, Scalar.load_store hp]
  | false =>
    have hslice : sliceAt (Scalar.int.store (entityId p.1) ++ (offsetCType flags).store p.2) 4
        (offsetCType flags).size = (offsetCType flags).store p.2 := by
      rw [sliceAt, List.drop_left' (by simp [Scalar.size]), List.take_of_length_le (by simp)]
    have hint : Scalar.int.size = 4 := rfl
    simp [footerOffset, schemaType, hcf, CObj.getInt, CObj.getattr, CObj.fieldAt, CObj.value,
      CType.size, hint, hslice, Scalar.load_store hp]

/-- The `i`-th entry of the footer gives the `i`-th offset. -/
theorem footer_entry (cf : Bool) {names : List PyStr} {offsets : List ℕ}
    (hlen : names.length = offsets.length) (hoff : ∀ k ∈ offsets, k < 2 ^ 32) {i k : ℕ}
    (hk : offsets[i]? = some k) :
    let flags : ℤ := (objectFlags cf offsets : ℕ)
    footerOffset flags (sliceAt (footerBytes cf flags names offsets)
      (i * (schemaType flags).size) (schemaType flags).size) = some (k : ℤ) := by
  intro flags
  have hcf : hasFlag flags COMPACT_FOOTER = cf := hasFlag_compact cf offsets
  obtain ⟨hi, -⟩ := List.getElem?_eq_some_iff.mp hk
  have hzip : (names.zip offsets)[i]? = some (names[i], k) := by
    rw [List.getElem?_zip_eq_some]
    exact ⟨List.getElem?_eq_getElem _, hk⟩
  have hsize : ∀ p : PyStr × ℕ, (if cf then (offsetCType flags).store p.2
      else Scalar.int.store (entityId p.1) ++ (offsetCType flags).store p.2).length =
        (schemaType flags).size := by
    intro p
    rw [schemaType, hcf]
    cases cf <;> simp [CType.size, CType.sizeFields]
  rw [footerBytes, sliceAt_flatMap (fun p _ => hsize p) hzip]
  have hmem := List.mem_of_getElem? hk
  exact footerOffset_store hcf (names[i], k) (offset_range cf hmem (hoff k hmem))

end Footer

section Object
variable [Python] [OtherCodecs]

/-- The bytes that `from_python` writes on a stream of its own. -/
def written (cl : Client) (t : DataType) (v : PyValue) : Bytes :=
  match fromPython t v ⟨cl, [], 0, false⟩ with
  | .ok (_, s) => s.buf
  | .error _ => []

variable {cl : Client}

theorem written_eq {t : DataType} {v : PyValue} (hv : Encodable cl cl.compactFooter t v)
    (hheaders : HeadersOwn t v) : written cl t v = encode cl.compactFooter t v := by
  have hwrite := fromPython_ok hv hheaders (s := ⟨cl, [], 0, false⟩) ⟨rfl, rfl⟩
  simp [written, hwrite, BinaryStream.put, writeAt_of_ne hv.encode_ne_nil, padTo]

/-- The header `header` with the flags `flags`, and the footer, say what the bytes
`data` of an object of the class `cls` are, where its fields were written as `chunks`. -/
structure WellFormed (cls : DataClass) (chunks : List Bytes) (data : Bytes) (header : CObject)
    (flags : ℤ) : Prop where
  header_eq : CObj.fromBufferCopy headerClass data = some header
  flags_eq : header.getInt .flags = some flags
  typeId_eq : header.getInt .typeId = some cls.typeId
  schemaId_eq : header.getInt .schemaId = some cls.schemaId
  length_eq : header.getInt .length = some (data.length : ℤ)
  schemaOffset_eq : header.getInt .schemaOffset = some ((headerSize + chunks.flatten.length : ℕ) : ℤ)
  field_at : ∀ (i k : ℕ) chunk, (chunkStarts headerSize chunks)[i]? = some k →
    chunks[i]? = some chunk → At data k chunk
  footer_eq : ∀ i k : ℕ, (chunkStarts headerSize chunks)[i]? = some k →
    footerOffset flags (sliceAt data
      (headerSize + chunks.flatten.length + i * (schemaType flags).size)
      (schemaType flags).size) = some (k : ℤ)

/-- `_from_python` at `pos` writes a well-formed object, and `parse` and `to_python`
give the object back from there. -/
def ObjectFaithful (cl : Client) (head : ObjHead) (fields : List (PyStr × DataType × PyValue))
    (buf : Bytes) (pos : ℕ) : Prop :=
  ∃ v' w, objectFromPython false head fields ⟨cl, buf, pos, false⟩ = .ok (v', w) ∧
    (∃ header flags, WellFormed (classOf head fields) (fields.map fun f => written cl f.2.1 f.2.2)
      ((w.buf.take w.pos).drop pos) header flags) ∧
    ∀ suffix : Bytes, ∃ c r o,
      parse .binaryObject ⟨w.client, w.buf.take w.pos ++ suffix, pos, false⟩ = .ok (c, r) ∧
      r.pos = w.pos ∧ readBackward c r = .ok (o, r) ∧
      toPython (some r.client) .binaryObject o = .ok (plain .binaryObject (.obj head fields))

theorem wellFormed_encode {cf : Bool} {head : ObjHead}
    {fields : List (PyStr × DataType × PyValue)}
    (hsize : (encode cf .binaryObject (.obj head fields)).length < 2 ^ 31) :
    ∃ header flags, WellFormed (classOf head fields) (encodeFields cf fields)
      (encode cf .binaryObject (.obj head fields)) header flags := by
  set chunks := encodeFields cf fields
  set offsets := chunkStarts headerSize chunks
  set h := objectHeader cf head fields chunks
  have hdata : encode cf .binaryObject (.obj head fields) =
      h.store ++ (chunks.flatten ++ objectFooter cf fields chunks) := encode_obj head fields
  have hlen := congrArg List.length hdata
  simp only [List.length_append, Header.store_length] at hlen
  have hoffsets : offsets.length = fields.length := by
    rw [chunkStarts_length]
    simp [chunks, encodeFields_eq]
  have hpart : ∀ {n s i}, s.Range i → scalarPart n s i ∈ headerParts h →
      (⟨headerClass, h.store⟩ : CObject).getInt n = some i := by
    intro n s i hi hmem
    rw [← ofParts_header, CObj.getInt_ofParts (headerParts_filled h) (headerParts_nodup h) hmem,
      Scalar.load_store hi]
  refine ⟨⟨headerClass, h.store⟩, (objectFlags cf offsets : ℕ), ?_, ?_, ?_, ?_, ?_, ?_, ?_, ?_⟩
  · have htake : List.take headerClass.size (h.store ++
        (chunks.flatten ++ objectFooter cf fields chunks)) = h.store :=
      List.take_left' h.store_length
    rw [CObj.fromBufferCopy, hdata, htake, if_pos]
    rw [List.length_append, Header.store_length]
    exact Nat.le_add_right _ _
  · exact hpart (objectFlags_range cf offsets) (by simp [headerParts, h, objectHeader, offsets])
  · exact hpart (typeId_range head fields) (by simp [headerParts, h, objectHeader])
  · exact hpart (schemaId_int_range head fields) (by simp [headerParts, h, objectHeader])
  · have hlength : ((encode cf .binaryObject (.obj head fields)).length : ℤ) = h.length := by
      rw [hlen, ← Nat.add_assoc, Nat.cast_add]
      rfl
    refine hpart (range_of_lt hsize) ?_
    rw [hlength]
    simp [headerParts]
  · exact hpart (range_of_lt (by omega)) (by simp [headerParts, h, objectHeader])
  · intro i k chunk hk hchunk
    have hat : At (encode cf .binaryObject (.obj head fields)) (0 + headerSize) chunks.flatten := by
      rw [hdata, ← List.append_assoc, Nat.zero_add, ← h.store_length]
      exact at_of_eq _ _ _
    simpa using at_chunkStarts hat hchunk hk
  · intro i k hk
    have hnames : (fields.map fun f => f.1).length = (chunkStarts headerSize chunks).length := by
      rw [List.length_map]
      exact hoffsets.symm
    have hfooter := footer_entry cf hnames
      (fun j hj => lt_of_le_of_lt (le_of_mem_chunkStarts hj) (by omega)) hk
    have hslice : ∀ m n, sliceAt (encode cf .binaryObject (.obj head fields))
        (headerSize + chunks.flatten.length + m) n =
          sliceAt (objectFooter cf fields chunks) m n := by
      intro m n
      rw [hdata, sliceAt, ← List.append_assoc, ← List.drop_drop,
        List.drop_left' (by rw [List.length_append, Header.store_length]), sliceAt]
    rw [hslice]
    exact hfooter

/-- Reading an encoding back, whatever follows it. -/
theorem reads_back_iff {cf : Bool} {t : DataType} {v : PyValue} {r : BinaryStream}
    (hv : Encodable cl cf t v) (hr : Readable cl cf r) (hat : At r.buf r.pos (encode cf t v)) :
    (∃ c r' o, parse t r = .ok (c, r') ∧ r'.pos = r.pos + (encode cf t v).length ∧
      readBackward c r' = .ok (o, r') ∧ toPython (some r'.client) t o = .ok (plain t v)) ↔
      SchemasFound t v ∧
        ∀ o ∈ objects t v, HasVersionField o.2 ∨ Scalar.byte.Range o.1.version := by
  have hparses := parse_parses hv hr hat
  have hversions : decoded Scalar.byte.wrap t v = plain t v ↔
      ∀ o ∈ objects t v, HasVersionField o.2 ∨ Scalar.byte.Range o.1.version := by
    simp only [decoded_eq_iff hv, Scalar.wrap_eq_iff]
  rw [← hversions]
  have hpy : ∀ {c : Layout} {r' : BinaryStream}, Decodes cl cf t v c →
      Advanced cl cf r r' (encode cf t v).length →
      toPython (some r'.client) t ⟨c, encode cf t v⟩ = .ok (decoded Scalar.byte.wrap t v) :=
    fun hd hadv => hd.toPython _ (fun _ => ⟨_, rfl, hadv.readable.registry⟩) _ (Nat.le_succ _)
  constructor
  · rintro ⟨c, r', o, hparse, -, hback, hto⟩
    have hfound : SchemasFound t v := by
      by_contra hn
      obtain ⟨e, he⟩ := hparses.2 hn
      rw [he] at hparse
      cases hparse
    obtain ⟨c', r'', hparse', hadv, hd⟩ := hparses.1 hfound
    obtain ⟨rfl, rfl⟩ : c' = c ∧ r'' = r' := by simpa [hparse'] using hparse
    rw [readBackward_ok hv hat hd hadv] at hback
    obtain rfl : (⟨c', encode cf t v⟩ : CObject) = o := by simpa using hback
    rw [hpy hd hadv] at hto
    exact ⟨hfound, by simpa using hto⟩
  · rintro ⟨hfound, heq⟩
    obtain ⟨c, r', hparse, hadv, hd⟩ := hparses.1 hfound
    exact ⟨c, r', _, hparse, hadv.pos, readBackward_ok hv hat hd hadv, by rw [hpy hd hadv, heq]⟩

/-- An object whose schema id the registry looks up, whose header can be filled with the type id
of its class, and whose version comes back from a signed byte. -/
structure Storable (head : ObjHead) (fields : List (PyStr × DataType × PyValue)) : Prop where
  schemaId : (classOf head fields).schemaId ≠ 0
  header : ∃ version typeId, headerAttrs head fields = .ok (version, typeId) ∧
    Scalar.int.wrap typeId = (classOf head fields).typeId
  range : HasVersionField fields ∨ Scalar.byte.Range head.version

omit [OtherCodecs] in
theorem headersOwn_iff {t : DataType} {v : PyValue} : HeadersOwn t v ↔
    ∀ o ∈ objects t v, ∃ version typeId, headerAttrs o.1 o.2 = .ok (version, typeId) ∧
      Scalar.int.wrap typeId = (classOf o.1 o.2).typeId := by
  constructor
  · intro h o ho
    obtain ⟨⟨version, typeId⟩, hattrs⟩ := h.filled o ho
    exact ⟨version, typeId, hattrs, h.typeIds o ho typeId (headerAttrs_eq_ok.mp hattrs).2.2.1⟩
  · intro h
    refine ⟨fun o ho => ?_, fun o ho i hi => ?_⟩
    · obtain ⟨version, typeId, hattrs, -⟩ := h o ho
      exact ⟨_, hattrs⟩
    · obtain ⟨version, typeId, hattrs, hown⟩ := h o ho
      obtain rfl := Option.some.inj (hi.symm.trans (headerAttrs_eq_ok.mp hattrs).2.2.1)
      exact hown

omit [OtherCodecs] in
theorem forall_storable_iff {head : ObjHead} {fields : List (PyStr × DataType × PyValue)} :
    (∀ o ∈ objects .binaryObject (.obj head fields), Storable o.1 o.2) ↔
      HeadersOwn .binaryObject (.obj head fields) ∧
        SchemasFound .binaryObject (.obj { head with buffer := none } fields) ∧
          ∀ o ∈ objects .binaryObject (.obj { head with buffer := none } fields),
            HasVersionField o.2 ∨ Scalar.byte.Range o.1.version := by
  rw [headersOwn_iff]
  simp only [SchemasFound, objects, List.forall_mem_cons]
  constructor
  · rintro ⟨h, hs⟩
    exact ⟨⟨h.header, fun o ho => (hs o ho).header⟩, ⟨h.schemaId, fun o ho => (hs o ho).schemaId⟩,
      h.range, fun o ho => (hs o ho).range⟩
  · rintro ⟨⟨hi, his⟩, ⟨hc, hcs⟩, hr, hrs⟩
    exact ⟨⟨hc, hi, hr⟩, fun o ho => ⟨hcs o ho, his o ho, hrs o ho⟩⟩

omit [OtherCodecs] in
/-- The type id in the header of an object, whatever is read of it besides. -/
theorem objectBytes_typeId {cf : Bool} {head : ObjHead}
    {fields : List (PyStr × DataType × PyValue)} {chunks : List Bytes} {version typeId : ℤ}
    {header : CObject} (hattrs : headerAttrs head fields = .ok (version, typeId))
    (hheader : CObj.fromBufferCopy headerClass (objectBytes cf head fields chunks) = some header) :
    header.getInt .typeId = some (Scalar.int.wrap typeId) := by
  set h := writtenHeader cf head fields chunks
  have htake : List.take headerClass.size (objectBytes cf head fields chunks) = h.store :=
    List.take_left' h.store_length
  have hle : headerClass.size ≤ (objectBytes cf head fields chunks).length := by
    rw [objectBytes, List.length_append, Header.store_length]
    exact Nat.le_add_right _ _
  rw [CObj.fromBufferCopy, htake, if_pos hle] at hheader
  obtain rfl := Option.some.inj hheader
  have htypeId : h.typeId = typeId := by
    simp [h, writtenHeader, (headerAttrs_eq_ok.mp hattrs).2.2.1]
  have hmem : scalarPart .typeId .int h.typeId ∈ headerParts h := by simp [headerParts]
  rw [← ofParts_header, CObj.getInt_ofParts (headerParts_filled h) (headerParts_nodup h) hmem,
    htypeId]
  rfl

end Object

/-- A client that got to know two classes. -/
def clientOf [Python] (c d : DataClass) : Client :=
  ⟨some false, fun i => if i = c.typeId then [(c.schemaId, c)] else [(d.schemaId, d)], fun _ => []⟩

end PyGridGain
