import PyGridGain.Codec.Follows
import PyGridGain.Codec.Writes
import PyGridGain.Datatypes.Uncached

/-! What the writers write does not depend on the caches of Complex objects, if these are
what would be computed now. -/

namespace PyGridGain

open StreamM PyValue

/-! ### Alike objects -/

section Alike
variable {head head' : ObjHead} {fields fields' : List (PyStr × DataType × PyValue)}

theorem versionAttr_uncached (head : ObjHead) (fields : List (PyStr × DataType × PyValue)) :
    versionAttr head.uncached (uncachedFields fields) = (versionAttr head fields).uncached := by
  unfold versionAttr
  rw [uncachedFields_eq, List.find?_map]
  simp only [Function.comp_def]
  cases fields.find? fun f => f.1 == versionName <;> rfl

theorem versionAttr_alike (hhead : head.uncached = head'.uncached)
    (hfields : Alike.Fields fields fields') :
    (versionAttr head fields).toInt? = (versionAttr head' fields').toInt? := by
  apply Alike.toInt?
  rw [Alike, ← versionAttr_uncached, hhead, Alike.fields_iff.mp hfields, versionAttr_uncached]

theorem classOf_uncached (head : ObjHead) (fields : List (PyStr × DataType × PyValue)) :
    classOf head.uncached (uncachedFields fields) = classOf head fields := by
  simp [classOf, ObjHead.uncached]

theorem classOf_alike (hhead : head.uncached = head'.uncached)
    (hfields : Alike.Fields fields fields') : classOf head fields = classOf head' fields' := by
  rw [← classOf_uncached, hhead, Alike.fields_iff.mp hfields, classOf_uncached]

theorem names_alike (hfields : Alike.Fields fields fields') :
    fields.map (fun f => f.1) = fields'.map fun f => f.1 := by
  have h := congrArg (List.map fun f => f.1) (Alike.fields_iff.mp hfields)
  simpa [Function.comp_def] using h

theorem typeIdAttr_uncached [Python] (head : ObjHead)
    (fields : List (PyStr × DataType × PyValue)) :
    typeIdAttr head.uncached (uncachedFields fields) = (typeIdAttr head fields).uncached := by
  unfold typeIdAttr
  rw [classOf_uncached, uncachedFields_eq, List.find?_map]
  simp only [Function.comp_def]
  cases fields.find? fun f => f.1 == typeIdName <;> rfl

theorem typeIdAttr_alike [Python] (hhead : head.uncached = head'.uncached)
    (hfields : Alike.Fields fields fields') :
    (typeIdAttr head fields).toInt? = (typeIdAttr head' fields').toInt? := by
  apply Alike.toInt?
  rw [Alike, ← typeIdAttr_uncached, hhead, Alike.fields_iff.mp hfields, typeIdAttr_uncached]

theorem hasEntityId_uncached (v : PyValue) : v.uncached.hasEntityId = v.hasEntityId := by
  cases v <;> rfl

theorem typeNameHashed_uncached (fields : List (PyStr × DataType × PyValue)) :
    typeNameHashed (uncachedFields fields) = typeNameHashed fields := by
  unfold typeNameHashed
  rw [uncachedFields_eq, List.find?_map]
  simp only [Function.comp_def]
  cases fields.find? fun f => f.1 == typeNameName with
  | none => rfl
  | some f => exact hasEntityId_uncached f.2.2

theorem typeNameHashed_alike (hfields : Alike.Fields fields fields') :
    typeNameHashed fields = typeNameHashed fields' := by
  rw [← typeNameHashed_uncached, Alike.fields_iff.mp hfields, typeNameHashed_uncached]

/-- The names alone tell whether a field takes the place of something. -/
theorem hasField_eq (name : PyStr) (fields : List (PyStr × DataType × PyValue)) :
    hasField name fields = (fields.map fun f => f.1).any fun n => n == name := by
  rw [hasField, List.any_map]
  rfl

theorem headerAttrs_alike [Python] (hhead : head.uncached = head'.uncached)
    (hfields : Alike.Fields fields fields') :
    headerAttrs head fields = headerAttrs head' fields' := by
  unfold headerAttrs
  rw [versionAttr_alike hhead hfields, typeIdAttr_alike hhead hfields, hasField_eq, hasField_eq,
    hasField_eq, hasField_eq, names_alike hfields, typeNameHashed_alike hfields]

theorem objectBytes_alike [Python] {cf : Bool} {chunks : List Bytes}
    (hhead : head.uncached = head'.uncached) (hfields : Alike.Fields fields fields') :
    objectBytes cf head fields chunks = objectBytes cf head' fields' chunks := by
  simp only [objectBytes, writtenHeader, objectHeader, objectFooter,
    versionAttr_alike hhead hfields, typeIdAttr_alike hhead hfields, classOf_alike hhead hfields,
    names_alike hfields]

end Alike

/-! ### Complex objects -/

theorem write_eq_ok {d : Bytes} {s t : BinaryStream} {a : Unit} (h : write d s = .ok (a, t)) :
    s.emptyView = false ∧ t = s.put d := by
  unfold StreamM.write at h
  split_ifs at h with hv
  · cases h
  · obtain ⟨-, rfl⟩ := Prod.mk.inj (Except.ok.inj h)
    exact ⟨by simpa using hv, rfl⟩

theorem length_put (s : BinaryStream) (d : Bytes) : s.buf.length ≤ (s.put d).buf.length :=
  length_writeAt s.buf s.pos d

theorem seek_eq_ok {p : ℤ} {s t : BinaryStream} {a : Unit} (h : seek p s = .ok (a, t)) :
    t.buf = s.buf := by
  unfold StreamM.seek at h
  split_ifs at h
  · cases h
  · obtain ⟨-, rfl⟩ := Prod.mk.inj (Except.ok.inj h)
    rfl

section Objects
variable [Python] {cf : Bool} {rec rec' : DataType → PyValue → StreamM PyValue}
  {P : PyValue → PyValue → Prop}

/-- Fields that are written alike: `P` holds of the values and what the writer returns. -/
abbrev FieldsFollow (cf : Bool) (P : PyValue → PyValue → Prop)
    (rec rec' : DataType → PyValue → StreamM PyValue)
    (fields fields' : List (PyStr × DataType × PyValue)) : Prop :=
  List.Forall₂ (fun f g => f.1 = g.1 ∧ f.2.1 = g.2.1 ∧
    Follows cf (P f.2.2) (rec f.2.1 f.2.2) (rec' f.2.1 g.2.2)) fields fields'

omit [Python] in
theorem writeFields_grows {fields fields' : List (PyStr × DataType × PyValue)}
    (h : FieldsFollow cf P rec rec' fields fields') (offsets : List ℕ) :
    Grows (writeFields rec fields offsets) := by
  induction h generalizing offsets with
  | nil => exact Grows.pure _
  | @cons f g fields fields' hfg _ ih =>
    have htell : Grows tell := Grows.of_buf fun s a t ht => by
      obtain ⟨-, rfl⟩ := Prod.mk.inj (Except.ok.inj ht)
      rfl
    unfold writeFields
    apply htell.bind
    intro start
    apply hfg.2.2.grows.bind
    intro v
    apply htell.bind
    intro stop
    apply (ih _).bind
    intro r
    exact Grows.pure _

omit [Python] in
/-- The loop over the schema: what the fields write, one after the other, and where. -/
theorem writeFields_follows {fields fields' : List (PyStr × DataType × PyValue)}
    (h : FieldsFollow cf P rec rec' fields fields') {offsets : List ℕ} {s t : BinaryStream}
    {r : List (PyStr × DataType × PyValue) × List ℕ} (hs : Usable cf s)
    (hwrite : writeFields rec fields offsets s = .ok (r, t)) (hsize : t.buf.length < 2 ^ 31) :
    ∃ chunks : List Bytes, Wrote s t chunks.flatten ∧
      r.2 = offsets ++ chunkEnds (offsets.foldl max 0) chunks ∧
      List.Forall₂ (fun f g => f.1 = g.1 ∧ f.2.1 = g.2.1 ∧ P f.2.2 g.2.2) fields r.1 ∧
      ∀ s', Usable cf s' → (s'.buf = [] → s.buf = []) →
        ∃ vs t', writeFields rec' fields' offsets s' =
            .ok ((vs, offsets ++ chunkEnds (offsets.foldl max 0) chunks), t') ∧
          Wrote s' t' chunks.flatten ∧ vs.map (fun f => f.1) = fields'.map fun f => f.1 := by
  induction h generalizing offsets s r with
  | nil =>
    obtain ⟨rfl, rfl⟩ := Prod.mk.inj (Except.ok.inj hwrite)
    refine ⟨[], Wrote.refl _, by simp [chunkEnds], .nil, fun s' _ _ => ?_⟩
    exact ⟨[], s', by simp [writeFields, chunkEnds], Wrote.refl s', rfl⟩
  | @cons f g fields fields' hfg hrest ih =>
    obtain ⟨name, ty, v⟩ := f
    obtain ⟨name', ty', w⟩ := g
    obtain ⟨rfl, rfl, hfollow⟩ := hfg
    rw [writeFields, bind_ok (tell_ok s)] at hwrite
    obtain ⟨v', u, hu, hwrite⟩ := bind_eq_ok hwrite
    rw [bind_ok (tell_ok u)] at hwrite
    obtain ⟨r', u', hrest', hwrite⟩ := bind_eq_ok hwrite
    obtain ⟨rfl, rfl⟩ := Prod.mk.inj (Except.ok.inj hwrite)
    have hgrows := writeFields_grows hrest _ u r' u' hrest'
    obtain ⟨hP, d, hd, hfollow⟩ := hfollow.follows s v' u hs hu (hgrows.trans_lt hsize)
    obtain ⟨chunks, hchunks, hoffsets, hvalues, hsame⟩ := ih (hd.usable hs) hrest'
    have hlen : u.pos - s.pos = d.length := by
      have hpos := hd.pos
      omega
    rw [hlen, foldl_max_append] at hoffsets hsame
    have hends : offsets ++ [offsets.foldl max 0 + d.length] ++
        chunkEnds (offsets.foldl max 0 + d.length) chunks =
        offsets ++ chunkEnds (offsets.foldl max 0) (d :: chunks) := by
      rw [List.append_assoc]
      rfl
    rw [hends] at hoffsets hsame
    refine ⟨d :: chunks, ?_, hoffsets, .cons ⟨rfl, rfl, hP⟩ hvalues, fun s' hs' hempty => ?_⟩
    · rw [List.flatten_cons]
      exact hd.trans hchunks
    · obtain ⟨w', t', ht', hw'⟩ := hfollow s' hs' hempty
      have hempty' : t'.buf = [] → u.buf = [] := by
        rw [hw'.buf, hd.buf, writeAt_eq_nil, writeAt_eq_nil]
        exact fun h => ⟨hempty h.1, h.2⟩
      obtain ⟨vs, t'', ht'', hw'', hnames⟩ := hsame t' (hw'.usable hs') hempty'
      have hlen' : t'.pos - s'.pos = d.length := by
        have hpos := hw'.pos
        omega
      refine ⟨(name, ty, w') :: vs, t'', ?_, ?_, by simp [hnames]⟩
      · rw [writeFields, bind_ok (tell_ok s'), bind_ok ht', bind_ok (tell_ok t'), hlen',
          bind_ok ht'']
        rfl
      · rw [List.flatten_cons]
        exact hw'.trans hw''

/-- Where `_from_python` returns, the header was filled, the fields were written, and
neither the stream was empty after that nor is it shorter now. -/
theorem objFromPython_inv {save : Bool} {head : ObjHead}
    {fields : List (PyStr × DataType × PyValue)} {s t : BinaryStream} {v : PyValue}
    (h : objFromPython rec save head fields s = .ok (v, t)) :
    ∃ attrs r u, headerAttrs head fields = .ok attrs ∧
      writeFields rec fields [headerSize] (s.skip headerSize) = .ok (r, u) ∧ u.buf ≠ [] ∧
      u.buf.length ≤ t.buf.length := by
  unfold objFromPython at h
  rw [bind_ok (tell_ok s), bind_ok (compactFooter_ok rfl)] at h
  cases hattrs : headerAttrs head fields with
  | error e =>
    rw [hattrs] at h
    obtain ⟨i, u, hu, -⟩ := bind_eq_ok h
    cases hu
  | ok attrs =>
    rw [hattrs, bind_ok (a := attrs) rfl] at h
    dsimp only at h
    rw [bind_ok (seekCur_ok _ _)] at h
    obtain ⟨⟨vs, offsets⟩, u, hu, h⟩ := bind_eq_ok h
    refine ⟨attrs, (vs, offsets), u, rfl, hu, ?_⟩
    dsimp only at h
    rw [bind_ok (compactFooter_ok rfl), bind_ok (tell_ok _)] at h
    obtain ⟨hash, u1, hu1, h⟩ := bind_eq_ok h
    obtain ⟨-, rfl⟩ := Prod.mk.inj (Except.ok.inj hu1)
    obtain ⟨_, u2, hu2, h⟩ := bind_eq_ok h
    rw [seek_ok] at hu2
    obtain ⟨-, rfl⟩ := Prod.mk.inj (Except.ok.inj hu2)
    obtain ⟨_, u3, hu3, h⟩ := bind_eq_ok h
    obtain ⟨hview, rfl⟩ := write_eq_ok hu3
    have hne : u.buf ≠ [] := by simpa [BinaryStream.exported] using hview
    obtain ⟨_, u4, hu4, h⟩ := bind_eq_ok h
    have hbuf4 : u.buf.length ≤ u4.buf.length := by
      rw [seek_eq_ok hu4]
      exact length_put { u.exported with pos := s.pos } _
    obtain ⟨_, u5, hu5, h⟩ := bind_eq_ok h
    obtain ⟨-, rfl⟩ := write_eq_ok hu5
    have hbuf5 : ∀ d, u.buf.length ≤ (u4.put d).buf.length := fun d =>
      hbuf4.trans (length_put u4 d)
    rw [bind_ok (tell_ok _)] at h
    cases save with
    | false =>
      obtain ⟨-, rfl⟩ := Prod.mk.inj (Except.ok.inj h)
      exact ⟨hne, hbuf5 _⟩
    | true =>
      obtain ⟨buffer, u6, hu6, h⟩ := bind_eq_ok h
      obtain ⟨-, rfl⟩ := Prod.mk.inj (Except.ok.inj hu6)
      obtain ⟨-, rfl⟩ := Prod.mk.inj (Except.ok.inj h)
      exact ⟨hne, hbuf5 _⟩

/-- What `_from_python` writes and how it changes the object, and that it writes the same
fields of every other object, on other streams. -/
theorem objFromPython_wrote {save : Bool} {head : ObjHead}
    {fields fields' : List (PyStr × DataType × PyValue)} {s t : BinaryStream} {v : PyValue}
    (h : FieldsFollow cf P rec rec' fields fields') (hs : Usable cf s)
    (hv : objFromPython rec save head fields s = .ok (v, t)) (hsize : t.buf.length < 2 ^ 31) :
    ∃ chunks vs, v = .obj { head with
          buffer := if save then some (objectBytes cf head fields chunks) else head.buffer
          hashcode := some (hashcodeBytes chunks.flatten) } vs ∧
      List.Forall₂ (fun f g => f.1 = g.1 ∧ f.2.1 = g.2.1 ∧ P f.2.2 g.2.2) fields vs ∧
      Wrote s t (objectBytes cf head fields chunks) ∧
      ∀ s' save' head', (∃ attrs, headerAttrs head' fields' = .ok attrs) → Usable cf s' →
        (s'.buf = [] → s.buf = []) → ∃ v' t',
          objFromPython rec' save' head' fields' s' = .ok (v', t') ∧
          Wrote s' t' (objectBytes cf head' fields' chunks) := by
  obtain ⟨⟨i, j⟩, ⟨vs, offsets⟩, u, hi, hwrite, hne, hlen⟩ := objFromPython_inv hv
  have hs' : Usable cf (s.skip headerSize) := ⟨hs.footer, hs.emptyView⟩
  obtain ⟨chunks, hwrote, hoffsets, hvalues, hsame⟩ :=
    writeFields_follows h hs' hwrite (hlen.trans_lt hsize)
  have hdata : headerSize + chunks.flatten.length < 2 ^ 31 := by
    by_cases hnil : chunks.flatten = []
    · rw [hnil]
      decide
    · have hle := hwrote.at_pos.length_le hnil
      rw [BinaryStream.skip_pos] at hle
      omega
  have hempty : chunks.flatten = [] → s.buf ≠ [] := by
    intro hnil hbuf
    apply hne
    rw [hwrote.buf, hnil, writeAt_nil]
    exact hbuf
  have hstart : [headerSize].foldl max 0 = headerSize := by simp
  rw [hstart] at hoffsets hsame
  obtain rfl : offsets = _ := hoffsets
  have hnames : vs.map (fun f => f.1) = fields.map fun f => f.1 := by
    have hmap : List.Forall₂ (fun f g : PyStr × DataType × PyValue => f.1 = g.1) fields vs :=
      hvalues.imp fun f g hfg => hfg.1
    rw [← List.forall₂_eq_eq_eq, List.forall₂_map_left_iff, List.forall₂_map_right_iff]
    exact hmap.flip.imp fun f g hfg => hfg.symm
  obtain ⟨cl, hcl, rfl⟩ := hwrote
  have hrun := objFromPython_run { s with client := cl } save hs.footer rfl
    (hcl.trans hs.footer) hs.emptyView hi hwrite hnames hempty hdata
  rw [hv] at hrun
  obtain ⟨rfl, rfl⟩ := Prod.mk.inj (Except.ok.inj hrun)
  refine ⟨chunks, vs, rfl, hvalues, ⟨cl, hcl, rfl⟩, fun s' save' head' hattrs hs'' hempty' => ?_⟩
  obtain ⟨⟨i', j'⟩, hi'⟩ := hattrs
  obtain ⟨vs', u', hwrite', ⟨cl', hcl', rfl⟩, hnames'⟩ :=
    hsame (s'.skip headerSize) ⟨hs''.footer, hs''.emptyView⟩ hempty'
  have hrun' := objFromPython_run { s' with client := cl' } save' hs''.footer rfl
    (hcl'.trans hs''.footer) hs''.emptyView hi' hwrite' hnames'
    (fun hnil hbuf => hempty hnil (hempty' hbuf)) hdata
  exact ⟨_, _, hrun', cl', hcl', rfl⟩

/-- `_from_python` writes the same for alike objects. -/
theorem objFromPython_follows {save : Bool} {head head' : ObjHead}
    {fields fields' : List (PyStr × DataType × PyValue)} {s t : BinaryStream} {v : PyValue}
    (hhead : head.uncached = head'.uncached) (hfields : Alike.Fields fields fields')
    (h : FieldsFollow cf P rec rec' fields fields') (hs : Usable cf s)
    (hv : objFromPython rec save head fields s = .ok (v, t)) (hsize : t.buf.length < 2 ^ 31) :
    ∃ chunks vs, v = .obj { head with
          buffer := if save then some (objectBytes cf head fields chunks) else head.buffer
          hashcode := some (hashcodeBytes chunks.flatten) } vs ∧
      List.Forall₂ (fun f g => f.1 = g.1 ∧ f.2.1 = g.2.1 ∧ P f.2.2 g.2.2) fields vs ∧
      Wrote s t (objectBytes cf head fields chunks) ∧
      ∀ s' save', Usable cf s' → (s'.buf = [] → s.buf = []) → ∃ v' t',
        objFromPython rec' save' head' fields' s' = .ok (v', t') ∧
        Wrote s' t' (objectBytes cf head fields chunks) := by
  obtain ⟨attrs, -, -, hattrs, -⟩ := objFromPython_inv hv
  obtain ⟨chunks, vs, rfl, hvalues, hwrote, hsame⟩ := objFromPython_wrote h hs hv hsize
  rw [headerAttrs_alike hhead hfields] at hattrs
  refine ⟨chunks, vs, rfl, hvalues, hwrote, fun s' save' hs' hempty => ?_⟩
  rw [objectBytes_alike hhead hfields]
  exact hsame s' save' head' ⟨attrs, hattrs⟩ hs' hempty

end Objects

end PyGridGain
