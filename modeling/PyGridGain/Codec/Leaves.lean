import PyGridGain.Codec.RoundTrip
import PyGridGain.Datatypes.Struct

/-! Round trips of single values of the classes without nested values, for the values that
their fields do not hold as well: the writer raises, or the reader gives back an acceptable
value. -/

namespace PyGridGain

open CObj StreamM

section WireClass
variable {w : WireClass} {v : PyValue} {data : Bytes} {result : Except PyError PyValue}
  {ok : PyValue → Prop}

/-- `from_python` raises, or what it wrote is parsed to its end, read, and converted to a value
with `ok`: at any position of any buffer, by whichever client, whatever client (or none) is passed
to `to_python`, and whatever follows. -/
def RaisesOrReads (w : WireClass) (v : PyValue) (ok : PyValue → Prop) : Prop :=
  ∀ (cl : Client) (buf : Bytes) (pos : ℕ),
    (∃ e, w.fromPython v ⟨cl, buf, pos, false⟩ = .error e) ∨
    ∃ v' s', w.fromPython v ⟨cl, buf, pos, false⟩ = .ok (v', s') ∧
      ∀ (client : Client) (passed : Option Client) (suffix : Bytes), ∃ c r o x,
        w.parse ⟨client, s'.buf.take s'.pos ++ suffix, pos, false⟩ = .ok (c, r) ∧
        r.pos = s'.pos ∧ readBackward c r = .ok (o, r) ∧ w.toPython passed o = .ok x ∧ ok x

/-- The class writes these bytes, wherever the stream stands. -/
def WritesAs (w : WireClass) (v : PyValue) (data : Bytes) : Prop :=
  ∀ s : BinaryStream, s.emptyView = false → ∃ v', w.fromPython v s = .ok (v', s.put data)

/-- The class refuses the value. -/
def Refuses (w : WireClass) (v : PyValue) : Prop := ∀ s, ∃ e, w.fromPython v s = .error e

/-- The class moves past these bytes, and makes `result` of them. -/
def ReadsAs (w : WireClass) (data : Bytes) (result : Except PyError PyValue) : Prop :=
  ∃ c : Layout, c.size = data.length ∧
    (∀ s : BinaryStream, s.emptyView = false → At s.buf s.pos data →
      w.parse s = .ok (c, s.skip c.size)) ∧
    ∀ client, w.toPython client ⟨c, data⟩ = result

theorem Refuses.raisesOrReads (h : Refuses w v) : RaisesOrReads w v ok := fun _ _ _ => Or.inl (h _)

/-- Once the bytes are known, it is enough to look at what they are read as. -/
theorem raisesOrReads_iff (hw : WritesAs w v data) (hne : data ≠ []) (hr : ReadsAs w data result) :
    RaisesOrReads w v ok ↔ ∃ x, result = .ok x ∧ ok x := by
  obtain ⟨c, hsize, hparse, hpy⟩ := hr
  constructor
  · intro h
    obtain ⟨v', hv'⟩ := hw ⟨⟨none, fun _ => [], fun _ => []⟩, [], 0, false⟩ rfl
    obtain ⟨e, he⟩ | ⟨v'', s', hs', hread⟩ := h ⟨none, fun _ => [], fun _ => []⟩ [] 0
    · rw [hv'] at he
      cases he
    · obtain ⟨rfl, rfl⟩ := Prod.mk.inj (Except.ok.inj (hv'.symm.trans hs'))
      obtain ⟨c', r, o, x, hc', -, ho, hx, hok⟩ := hread ⟨none, fun _ => [], fun _ => []⟩ none []
      have hat := at_written [] 0 hne []
      have hc := hparse ⟨⟨none, fun _ => [], fun _ => []⟩, _, 0, false⟩ rfl hat
      obtain ⟨rfl, rfl⟩ := Prod.mk.inj (Except.ok.inj (hc.symm.trans hc'))
      have hback := readBackward_at (c := c) (s := BinaryStream.skip
        ⟨⟨none, fun _ => [], fun _ => []⟩, _, 0, false⟩ c.size) (p := 0) rfl hat hne
        (by simp [hsize]) hsize.symm
      obtain ⟨rfl, -⟩ := Prod.mk.inj (Except.ok.inj (hback.symm.trans ho))
      exact ⟨x, (hpy _).symm.trans hx, hok⟩
  · rintro ⟨x, hx, hok⟩ cl buf pos
    obtain ⟨v', hv'⟩ := hw ⟨cl, buf, pos, false⟩ rfl
    refine Or.inr ⟨v', _, hv', fun client passed suffix => ?_⟩
    have hat := at_written buf pos hne suffix
    refine ⟨c, _, _, x, hparse ⟨client, _, pos, false⟩ rfl hat, ?_, ?_, (hpy _).trans hx, hok⟩
    · simp [hsize]
    · exact readBackward_at (c := c) (p := pos) rfl hat hne (by simp [hsize]) hsize.symm

/-- A parser that does not move past what was written. -/
theorem not_raisesOrReads_of_size {c : Layout} (hw : WritesAs w v data) (hne : data ≠ [])
    (hsize : c.size ≠ data.length)
    (hparse : ∀ s : BinaryStream, s.emptyView = false → At s.buf s.pos data →
      w.parse s = .ok (c, s.skip c.size)) : ¬RaisesOrReads w v ok := by
  intro h
  obtain ⟨v', hv'⟩ := hw ⟨⟨none, fun _ => [], fun _ => []⟩, [], 0, false⟩ rfl
  obtain ⟨e, he⟩ | ⟨v'', s', hs', hread⟩ := h ⟨none, fun _ => [], fun _ => []⟩ [] 0
  · rw [hv'] at he
    cases he
  · obtain ⟨rfl, rfl⟩ := Prod.mk.inj (Except.ok.inj (hv'.symm.trans hs'))
    obtain ⟨c', r, o, x, hc', hr, -⟩ := hread ⟨none, fun _ => [], fun _ => []⟩ none []
    have hat := at_written [] 0 hne []
    have hc := hparse ⟨⟨none, fun _ => [], fun _ => []⟩, _, 0, false⟩ rfl hat
    obtain ⟨rfl, rfl⟩ := Prod.mk.inj (Except.ok.inj (hc.symm.trans hc'))
    simp at hr
    exact hsize hr

/-- A class writes a value in one way. -/
theorem WritesAs.unique {a b : Bytes} (ha : WritesAs w v a) (hb : WritesAs w v b) (hne : a ≠ []) :
    a = b := by
  obtain ⟨v', hv'⟩ := ha ⟨⟨none, fun _ => [], fun _ => []⟩, [], 0, false⟩ rfl
  obtain ⟨v'', hv''⟩ := hb ⟨⟨none, fun _ => [], fun _ => []⟩, [], 0, false⟩ rfl
  rw [hv'] at hv''
  have hpos : 0 + a.length = 0 + b.length := congrArg (fun p => p.2.pos) (Except.ok.inj hv'')
  have hbne : b ≠ [] := by
    rw [← List.length_pos_iff] at hne ⊢
    omega
  have hput : ∀ d : Bytes, d ≠ [] → writeAt [] 0 d = d := fun d hd => by
    simp [writeAt_of_ne hd, padTo]
  have hbuf := congrArg (fun p => p.2.buf) (Except.ok.inj hv'')
  exact (hput a hne).symm.trans (hbuf.trans (hput b hbne))

end WireClass

section Leaves
variable [Python] [OtherCodecs] {w : WireClass} {t : DataType} {v : PyValue} {data : Bytes}
  {result : Except PyError PyValue}

theorem fromPython_eq (hv : v ≠ .none) (s : BinaryStream) :
    fromPython t v s = fromPythonNotNull (fromPythonN v.depth) t v s := by
  rw [fromPython, fromPythonN_succ hv]

/-- A class whose writer writes these bytes and keeps the value. -/
theorem writesAs_of_write (hv : v ≠ .none)
    (h : ∀ s : BinaryStream, s.emptyView = false →
      fromPythonNotNull (fromPythonN v.depth) t v s = .ok (v, s.put data)) :
    WritesAs (wireClass t) v data := fun s hs => ⟨v, (fromPython_eq hv s).trans (h s hs)⟩

theorem WritesAs.inferred (h : WritesAs (wireClass t) v data) (ht : v.mapPythonType = .ok t) :
    WritesAs anyDataObject v data := by
  intro s hs
  obtain ⟨v', hv'⟩ := h s hs
  have hmap : (v.mapPythonType).map (fun t => (t, s)) = .ok (t, s) := by
    rw [ht]
    rfl
  exact ⟨v', (bind_ok hmap).trans hv'⟩

/-- How nested values are parsed and converted, under a bound on the nesting. -/
structure Reader where
  parse : ℕ → StreamM Layout
  toPython : Option Client → ℕ → CObject → Except PyError PyValue

/-- The reader of elements of the class `t`. -/
def classReader (t : DataType) : Reader :=
  ⟨fun n => parseN n t, fun client n => toPythonN client n t⟩

/-- The reader of elements of any class. -/
def anyReader : Reader :=
  ⟨fun n => anyParse (parseN n), fun client n => anyToPython (toPythonN client n)⟩

/-- The reader moves past these bytes, wherever they stand, and makes `result` of them. -/
def Recovers (r : Reader) (data : Bytes) (result : Except PyError PyValue) : Prop :=
  ∃ c : Layout, c.size = data.length ∧
    (∀ n, data.length ≤ n → ∀ s : BinaryStream, s.emptyView = false → At s.buf s.pos data →
      r.parse n s = .ok (c, s.skip c.size)) ∧
    ∀ client n, data.length ≤ n → r.toPython client n ⟨c, data⟩ = result

omit [Python] [OtherCodecs] in
theorem Recovers.readsAs {r : Reader} (h : Recovers r data result) (hne : data ≠ [])
    (hparse : ∀ s, w.parse s = r.parse (s.buf.length + 1) s)
    (hpy : ∀ client o, w.toPython client o = r.toPython client (o.mem.length + 1) o) :
    ReadsAs w data result := by
  obtain ⟨c, hsize, hc, hresult⟩ := h
  refine ⟨c, hsize, fun s hs hat => ?_, fun client => ?_⟩
  · have hle := hat.length_le hne
    exact (hparse s).trans (hc _ (by omega) s hs hat)
  · exact (hpy client _).trans (hresult client _ (Nat.le_succ _))

omit [Python] [OtherCodecs] in
/-- What one reading of these bytes gives. -/
theorem Recovers.gives {r : Reader}
    (h : Recovers r data result) {n m : ℕ} (hn : data.length ≤ n) (hm : data.length ≤ m)
    {s s' : BinaryStream} {c : Layout} (hs : s.emptyView = false) (hat : At s.buf s.pos data)
    (hp : r.parse n s = .ok (c, s')) (client : Option Client) :
    c.size = data.length ∧ s' = s.skip data.length ∧
      r.toPython client m ⟨c, sliceAt s.buf s.pos c.size⟩ = result := by
  obtain ⟨c', hsize, hparse, hpy⟩ := h
  obtain ⟨rfl, rfl⟩ := Prod.mk.inj (Except.ok.inj ((hparse n hn s hs hat).symm.trans hp))
  refine ⟨hsize, by rw [hsize], ?_⟩
  rw [hsize, hat.slice]
  exact hpy client m hm

theorem Recovers.classReadsAs (h : Recovers (classReader t) data result) (hne : data ≠ []) :
    ReadsAs (wireClass t) data result := h.readsAs hne (fun _ => rfl) fun _ _ => rfl

theorem Recovers.anyReadsAs (h : Recovers anyReader data result) (hne : data ≠ []) :
    ReadsAs anyDataObject data result := h.readsAs hne (fun _ => rfl) fun _ _ => rfl

/-- Where the code of a class stands, its reader goes on as the class does. -/
theorem classReader_parse (ht : t ≠ .null) {rest : Bytes} {s : BinaryStream}
    (hs : s.emptyView = false) (hat : At s.buf s.pos (t.typeCode :: rest)) (n : ℕ) :
    (classReader t).parse (n + 1) s = parseNotNull (parseN n) t s := by
  have hpeek : peek 1 s = .ok ([t.typeCode], s) :=
    peek_at hs (At.left (a := [t.typeCode]) hat) (by simp)
  have hcode : ([t.typeCode] = [TC_NULL]) = False := by
    rw [List.singleton_inj, typeCode_eq_null, eq_false ht]
  have hbody : (classReader t).parse (n + 1) s = (peek 1 >>= fun code =>
      if code = [TC_NULL] then seekPast nullLayout else parseNotNull (parseN n) t) s := by
    cases t <;> first | exact absurd rfl ht | rfl
  rw [hbody, bind_ok hpeek]
  simp only [hcode, if_false]

theorem anyReader_parse (ht : t ≠ .null) {rest : Bytes} {s : BinaryStream}
    (hs : s.emptyView = false) (hat : At s.buf s.pos (t.typeCode :: rest)) (n : ℕ) :
    anyReader.parse (n + 1) s = parseNotNull (parseN n) t s := by
  have hpeek : peek 1 s = .ok ([t.typeCode], s) :=
    peek_at hs (At.left (a := [t.typeCode]) hat) (by simp)
  have hbody : anyReader.parse (n + 1) s = anyParse (parseN (n + 1)) s := rfl
  rw [hbody, anyParse, bind_ok hpeek]
  simp only [tcMap_typeCode]
  exact classReader_parse ht hs hat n

theorem anyReader_toPython (ht : t ≠ .null) {o : CObject}
    (hcode : o.getInt .typeCode = some (t.typeCode.toNat : ℤ)) (client : Option Client) (n : ℕ) :
    anyReader.toPython client (n + 1) o =
      toPythonNotNull (toPythonN client n) client t o := by
  have hneg : ¬((t.typeCode.toNat : ℕ) : ℤ) < 0 := by omega
  have hbody : anyReader.toPython client (n + 1) o =
      anyToPython (toPythonN client (n + 1)) o := rfl
  rw [hbody, anyToPython, CObject.intAttr, hcode, except_bind, if_neg hneg]
  simp only [Int.toNat_natCast, UInt8.ofNat_toNat, tcMap_typeCode]
  exact toPythonN_succ ht hcode n

/-- A structure whose first field is the type code, given by its parts; the code leads a reader
of any class to the class. -/
theorem recovers_of_parts (parts : List (FieldName × Layout × Bytes)) (ht : t ≠ .null)
    (hf : Filled (codePart t.typeCode :: parts))
    (hnd : ((codePart t.typeCode :: parts).map (·.1)).Nodup)
    (hdata : data = (codePart t.typeCode :: parts).flatMap fun p => p.2.2)
    (hparse : ∀ n, ∀ s : BinaryStream, s.emptyView = false → At s.buf s.pos data →
      parseNotNull (parseN n) t s = seekPast (ofParts (codePart t.typeCode :: parts)).ctype s)
    (hpy : ∀ (client : Option Client) n, toPythonNotNull (toPythonN client n) client t
      (ofParts (codePart t.typeCode :: parts)) = result) :
    Recovers (classReader t) data result ∧ Recovers anyReader data result := by
  have hcons : data = t.typeCode :: parts.flatMap fun p => p.2.2 := hdata
  have hpos : ∀ n, data.length ≤ n → ∃ m, n = m + 1 := fun n hn => by
    rw [hcons, List.length_cons] at hn
    exact Nat.exists_eq_add_of_le' (by omega)
  have ho : (⟨(ofParts (codePart t.typeCode :: parts)).ctype, data⟩ : CObject) =
      ofParts (codePart t.typeCode :: parts) := by
    rw [hdata]
    rfl
  have hsize : (ofParts (codePart t.typeCode :: parts)).ctype.size = data.length := by
    rw [← ofParts_length hf, hdata]
    rfl
  have hint := getInt_code hf hnd (typeCode_lt t) List.mem_cons_self
  have hseek : ∀ n, ∀ s : BinaryStream, s.emptyView = false → At s.buf s.pos data →
      parseNotNull (parseN n) t s = .ok ((ofParts (codePart t.typeCode :: parts)).ctype,
        s.skip (ofParts (codePart t.typeCode :: parts)).ctype.size) := hparse
  refine ⟨⟨_, hsize, fun n hn s hs hat => ?_, fun client n hn => ?_⟩, _, hsize,
    fun n hn s hs hat => ?_, fun client n hn => ?_⟩ <;> obtain ⟨m, rfl⟩ := hpos n hn
  · rw [classReader_parse ht hs (hcons ▸ hat)]
    exact hseek m s hs hat
  · rw [ho]
    exact (toPythonN_succ ht hint m).trans (hpy client m)
  · rw [anyReader_parse ht hs (hcons ▸ hat)]
    exact hseek m s hs hat
  · rw [ho, anyReader_toPython ht hint]
    exact hpy client m

/-- `None` under any class. -/
theorem recovers_none (t : DataType) :
    Recovers (classReader t) [TC_NULL] (.ok .none) ∧ Recovers anyReader [TC_NULL] (.ok .none) := by
  have hpos : ∀ n, ([TC_NULL] : Bytes).length ≤ n → ∃ m, n = m + 1 := fun n hn =>
    Nat.exists_eq_add_of_le' hn
  have hpeek : ∀ s : BinaryStream, s.emptyView = false → At s.buf s.pos [TC_NULL] →
      peek 1 s = .ok ([TC_NULL], s) := fun s hs hat => peek_at hs hat (by simp)
  refine ⟨⟨nullLayout, rfl, fun n hn s hs hat => ?_, fun client n hn => ?_⟩, nullLayout, rfl,
    fun n hn s hs hat => ?_, fun client n hn => ?_⟩ <;> obtain ⟨m, rfl⟩ := hpos n hn
  · by_cases ht : t = .null
    · subst ht
      rfl
    · have hbody : (classReader t).parse (m + 1) s = (peek 1 >>= fun code =>
          if code = [TC_NULL] then seekPast nullLayout else parseNotNull (parseN m) t) s := by
        cases t <;> first | exact absurd rfl ht | rfl
      rw [hbody, bind_ok (hpeek s hs hat)]
      rfl
  · cases t <;> rfl
  · exact bind_ok (hpeek s hs hat)
  · rfl

end Leaves

end PyGridGain
