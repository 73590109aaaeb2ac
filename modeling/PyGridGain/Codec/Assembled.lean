import PyGridGain.Codec.Terminates
import PyGridGain.Datatypes.Payloads
import PyGridGain.Datatypes.OtherClasses

/-! Every parser, on any bytes: it ends, the structure that it returns is as large as the way the
stream has moved, and the structures inside stand where their parsers were called. -/

namespace PyGridGain

open StreamM

theorem forall₂_exists_left {α β : Type*} {R : α → β → Prop} {as : List α} {bs : List β}
    (h : List.Forall₂ R as bs) : ∀ b ∈ bs, ∃ a ∈ as, R a b := by
  induction h with
  | nil => exact fun b hb => absurd hb List.not_mem_nil
  | cons hab _ ih =>
    intro b hb
    rcases List.mem_cons.mp hb with rfl | hb
    · exact ⟨_, List.mem_cons_self, hab⟩
    · obtain ⟨a, ha, hR⟩ := ih b hb
      exact ⟨a, List.mem_cons_of_mem _ ha, hR⟩

/-! ### Parts -/

/-- The fields `cs`, which come at `off` in a structure that starts at `start`, are what the
parsers `ps` have returned, each called at the place of its field. -/
inductive PartsAt (start : ℕ) : ℕ → List (FieldName × Layout) → List (FieldName × StreamM Layout) →
    BinaryStream → BinaryStream → Prop
  | nil {off : ℕ} {s : BinaryStream} : PartsAt start off [] [] s s
  | cons {off : ℕ} {name : FieldName} {c : Layout} {p : StreamM Layout}
    {cs : List (FieldName × Layout)} {ps : List (FieldName × StreamM Layout)}
    {s t u v : BinaryStream} (hat : s.pos = start + off) (hcall : p s = .ok (c, t))
    (hlook : u.buf = t.buf ∧ u.pos = t.pos) (hrest : PartsAt start (off + c.size) cs ps u v) :
    PartsAt start off ((name, c) :: cs) ((name, p) :: ps) s v

namespace CType

/-- The fields of a structure. -/
def fields : Layout → List (FieldName × Layout)
  | .struct fields => fields
  | _ => []

def isStruct : Layout → Bool
  | .struct _ => true
  | _ => false

end CType

/-- What a parser has returned on the way from `s` to `s'`, where it has called `ps`: what it has
not parsed so are no structures. -/
structure Assembled (ps : List (FieldName × StreamM Layout)) (s : BinaryStream) (c : Layout)
    (s' : BinaryStream) : Prop where
  buf : s'.buf = s.buf
  size : s'.pos = s.pos + c.size
  parts : ∃ before cs after u v, c.fields = before ++ cs ++ after ∧
    (∀ f ∈ before ++ after, f.2.isStruct = false) ∧ u.buf = s.buf ∧
    PartsAt s.pos (CType.sizeFields before) cs ps u v

/-! ### Parsers -/

/-- Calls of one parser for the elements of an array. -/
def elementCalls (p : StreamM Layout) (n : ℕ) : List (FieldName × StreamM Layout) :=
  (List.range n).map fun i => (.element i, p)

/-- `Struct(data_class.schema.items())`. -/
def schemaStruct [Python] [OtherCodecs] (schema : List (PyStr × DataType)) : Struct :=
  ⟨schema.map fun f => (f.1, .plain (wireClass f.2)), []⟩

section Calls
variable [Python] [OtherCodecs]

def OtherType.Calls : OtherType → List (FieldName × StreamM Layout) → Prop
  | .dateArrayObject, ps => ∃ n, ps = elementCalls (parse (.other .dateObject)) n
  | .timestampArrayObject, ps => ∃ n, ps = elementCalls (parse (.other .timestampObject)) n
  | .timeArrayObject, ps => ∃ n, ps = elementCalls (parse (.other .timeObject)) n
  | .decimalArrayObject, ps => ∃ n, ps = elementCalls (parse (.other .decimalObject)) n
  | .enumArrayObject, ps => ∃ n, ps = elementCalls (parse .enumObject) n
  | _, ps => ps = []

/-- What `parse` of a class may call. -/
def DataType.Calls : DataType → List (FieldName × StreamM Layout) → Prop
  | .stringArrayObject, ps => ∃ n, ps = elementCalls (parse .string) n
  | .uuidArrayObject, ps => ∃ n, ps = elementCalls (parse .uuidObject) n
  | .objectArrayObject, ps => ∃ n, ps = elementCalls AnyDataObject.parse n
  | .collectionObject, ps => ∃ n, ps = elementCalls AnyDataObject.parse n
  | .mapObject, ps => ∃ n, ps = elementCalls AnyDataObject.parse n
  | .binaryObject, ps => ps = [] ∨ ∃ schema, ps = [(.objectFields, (schemaStruct schema).parse)]
  | .other t, ps => t.Calls ps
  | _, ps => ps = []

/-- The parsers of values and of the bodies that are put together from them, each with what it
may call. -/
inductive WireParser : StreamM Layout → (List (FieldName × StreamM Layout) → Prop) → Prop
  | payload (c : Layout) (h : c.fields = []) : WireParser (seekPast c) fun ps => ps = []
  | type (t : DataType) : WireParser (parse t) t.Calls
  | any : WireParser AnyDataObject.parse fun ps => ∃ t : DataType, t.Calls ps
  | stringArray : WireParser stringArray.parse fun ps => ∃ n, ps = elementCalls (parse .string) n
  | anyDataArray : WireParser anyDataArray.parse
    fun ps => ∃ n, ps = elementCalls AnyDataObject.parse n
  | map : WireParser mapClass.parse fun ps => ∃ n, ps = elementCalls AnyDataObject.parse n
  | conditional (c : Conditional) (ctx : ParseContext) {Q R}
    (h : WireParser c.var1.parse Q) (h' : WireParser c.var2.parse R) :
    WireParser ((FieldClass.conditional c).parse ctx)
      fun ps => if c.predicate1 ctx then Q ps else R ps
  | struct (s : Struct)
    {Q : PyStr × FieldClass → ParseContext → List (FieldName × StreamM Layout) → Prop}
    (h : ∀ f ∈ s.fields, ∀ ctx, WireParser (f.2.parse ctx) (Q f ctx)) :
    WireParser s.parse fun ps =>
      List.Forall₂ (fun f q => q.1 = .field f.1 ∧ ∃ ctx, q.2 = f.2.parse ctx) s.fields ps
  | structArray (a : StructArray)
    {Q : PyStr × FieldClass → ParseContext → List (FieldName × StreamM Layout) → Prop}
    (h : ∀ f ∈ a.following, ∀ ctx, WireParser (f.2.parse ctx) (Q f ctx)) :
    WireParser a.parse fun ps => ∃ n, ps = elementCalls (Struct.parse ⟨a.following, []⟩) n

end Calls

/-! ### One parser -/

/-- Whatever the parser returns is assembled from what calls of this kind have returned. -/
def Assembles (p : StreamM Layout) (Q : List (FieldName × StreamM Layout) → Prop) : Prop :=
  ∀ ⦃s c s'⦄, p s = .ok (c, s') → ∃ ps, Q ps ∧ Assembled ps s c s'

section Assembles
variable {p : StreamM Layout} {Q R : List (FieldName × StreamM Layout) → Prop}

theorem Assembles.moves (h : Assembles p Q) : Moves p := by
  intro s c s' hrun
  obtain ⟨ps, -, hps⟩ := h hrun
  exact ⟨hps.buf, c.size, hps.size, rfl⟩

theorem Assembles.mono (h : Assembles p Q) (hQR : ∀ ps, Q ps → R ps) : Assembles p R := by
  intro s c s' hrun
  obtain ⟨ps, hQ, hps⟩ := h hrun
  exact ⟨ps, hQR ps hQ, hps⟩

theorem assembles_raise {exc : Exc} {message : String} :
    Assembles (StreamM.raise exc message) Q := by
  intro s c s' h
  cases h

/-- What is only looked at comes to nothing. -/
theorem Assembles.look {α : Type} {m : StreamM α} {f : α → StreamM Layout} (hm : Stays m)
    (hf : ∀ a, Assembles (f a) Q) : Assembles (m >>= f) Q := by
  intro s c s' h
  obtain ⟨a, t, ha, h⟩ := bind_eq_ok h
  obtain ⟨hbuf, n, hpos, rfl⟩ := hm ha
  rw [Nat.add_zero] at hpos
  obtain ⟨ps, hQ, hps⟩ := hf a h
  obtain ⟨before, cs, after, u, v, hfields, hplain, hubuf, hparts⟩ := hps.parts
  refine ⟨ps, hQ, hps.buf.trans hbuf, hpos ▸ hps.size, before, cs, after, u, v, hfields, hplain,
    hubuf.trans hbuf, ?_⟩
  rwa [hpos] at hparts

/-- A structure of fixed fields. -/
theorem assembles_seekPast {c : Layout} (h : ∀ f ∈ c.fields, f.2.isStruct = false) :
    Assembles (seekPast c) fun ps => ps = [] := by
  intro s c' s' hrun
  obtain ⟨rfl, rfl⟩ := Prod.mk.inj (Except.ok.inj hrun)
  refine ⟨[], rfl, rfl, rfl, c.fields, [], [], s, s, by simp, by simpa using h, rfl, .nil⟩

/-! ### Arrays -/

theorem partsAt_parseElements (hp : Moves p) {start off i n : ℕ} {cs : List (FieldName × Layout)}
    {s s' : BinaryStream} (h : parseElements p i n s = .ok (cs, s')) (hat : s.pos = start + off) :
    PartsAt start off cs ((List.range' i n).map fun i => (.element i, p)) s s' := by
  induction n generalizing i cs off s with
  | zero =>
    obtain ⟨rfl, rfl⟩ := Prod.mk.inj (Except.ok.inj h)
    exact .nil
  | succ n ih =>
    unfold parseElements at h
    obtain ⟨c, t, hc, h⟩ := bind_eq_ok h
    obtain ⟨cs', t', hcs, h⟩ := bind_eq_ok h
    obtain ⟨rfl, rfl⟩ := Prod.mk.inj (Except.ok.inj h)
    obtain ⟨hbuf, m, hpos, rfl⟩ := hp hc
    refine .cons hat hc ⟨rfl, rfl⟩ (ih hcs ?_)
    omega

theorem assembles_parseArray {off : ℕ} {header : List (FieldName × Layout)} {count : ℕ → ℕ}
    (hp : Moves p) (hheader : ∀ f ∈ header, f.2.isStruct = false) :
    Assembles (parseArray off header count p) fun ps => ∃ n, ps = elementCalls p n := by
  intro s c s' h
  obtain ⟨length, r, hr, h⟩ := bind_eq_ok h
  obtain ⟨⟨⟩, t, ht, h⟩ := bind_eq_ok h
  obtain ⟨cs, u, hcs, h⟩ := bind_eq_ok h
  obtain ⟨rfl, rfl⟩ := Prod.mk.inj (Except.ok.inj h)
  obtain ⟨hrbuf, n, hrpos, rfl⟩ := stays_peekLength off hr
  obtain ⟨htbuf, n, htpos, rfl⟩ := advances_seekCur _ ht
  obtain ⟨hbuf, m, hpos, rfl⟩ := advances_parseElements hp 0 _ hcs
  have hstart : t.pos = s.pos + CType.sizeFields header := by omega
  have htbuf' : t.buf = s.buf := htbuf.trans hrbuf
  refine ⟨elementCalls p (count length), ⟨_, rfl⟩, hbuf.trans htbuf', ?_, header, cs, [], t, u, ?_,
    ?_, htbuf', ?_⟩
  · rw [CType.size, CType.sizeFields_append, hpos, hstart, Nat.add_assoc]
  · rw [List.append_nil, CType.fields]
  · rwa [List.append_nil]
  · have hparts := partsAt_parseElements hp hcs hstart
    rwa [← List.range_eq_range'] at hparts

end Assembles

/-! ### Structures -/

section Struct
variable {fields : List (PyStr × FieldClass)} {names : List PyStr} {ctx : ParseContext}

/-- The fields of a structure follow one another, whatever the context is. -/
theorem partsAt_parseStructFields (hmoves : ∀ f ∈ fields, ∀ ctx, Moves (f.2.parse ctx))
    {start off : ℕ} {cs : List (FieldName × Layout)} {s s' : BinaryStream}
    (h : parseStructFields names fields ctx s = .ok (cs, s')) (hat : s.pos = start + off) :
    s'.buf = s.buf ∧ s'.pos = s.pos + CType.sizeFields cs ∧
      ∃ ps u, List.Forall₂ (fun f q => q.1 = .field f.1 ∧ ∃ ctx, q.2 = f.2.parse ctx) fields ps ∧
        PartsAt start off cs ps s u := by
  induction fields generalizing ctx cs off s with
  | nil =>
    obtain ⟨rfl, rfl⟩ := Prod.mk.inj (Except.ok.inj h)
    exact ⟨rfl, rfl, [], s, .nil, .nil⟩
  | cons f fields ih =>
    unfold parseStructFields at h
    obtain ⟨c, t, hc, h⟩ := bind_eq_ok h
    obtain ⟨hbuf, m, hpos, rfl⟩ := hmoves f List.mem_cons_self ctx hc
    -- a field that others ask for is read back
    have hlook : ∃ ctx' u, (u.buf = t.buf ∧ u.pos = t.pos) ∧ (do
        let layouts ← parseStructFields names fields ctx'
        pure ((FieldName.field f.1, c) :: layouts)) u = .ok (cs, s') := by
      by_cases hname : f.1 ∈ names
      · simp only [if_pos hname, pure_bind] at h
        obtain ⟨o, u, ho, h⟩ := bind_eq_ok h
        obtain ⟨hubuf, n, hupos, rfl⟩ := stays_readBackward c ho
        exact ⟨_, u, ⟨hubuf, hupos⟩, h⟩
      · simp only [if_neg hname, pure_bind] at h
        exact ⟨ctx, t, ⟨rfl, rfl⟩, h⟩
    obtain ⟨ctx', u, ⟨hubuf, hupos⟩, h⟩ := hlook
    obtain ⟨cs', t', hcs, h⟩ := bind_eq_ok h
    obtain ⟨rfl, rfl⟩ := Prod.mk.inj (Except.ok.inj h)
    have hmoves' := fun g hg => hmoves g (List.mem_cons_of_mem f hg)
    have hnext : u.pos = start + (off + c.size) := by omega
    obtain ⟨hbuf', hpos', ps, v, hps, hparts⟩ := ih hmoves' hcs hnext
    refine ⟨hbuf'.trans (hubuf.trans hbuf), ?_, (.field f.1, f.2.parse ctx) :: ps, v,
      .cons ⟨rfl, ctx, rfl⟩ hps, .cons hat hc ⟨hubuf, hupos⟩ hparts⟩
    rw [CType.sizeFields]
    omega

theorem assembles_struct (s : Struct) (hmoves : ∀ f ∈ s.fields, ∀ ctx, Moves (f.2.parse ctx)) :
    Assembles s.parse fun ps =>
      List.Forall₂ (fun f q => q.1 = .field f.1 ∧ ∃ ctx, q.2 = f.2.parse ctx) s.fields ps := by
  intro t c t' h
  obtain ⟨cs, u, hcs, h⟩ := bind_eq_ok h
  obtain ⟨rfl, rfl⟩ := Prod.mk.inj (Except.ok.inj h)
  obtain ⟨hbuf, hpos, ps, v, hps, hparts⟩ := partsAt_parseStructFields hmoves hcs
    (Nat.add_zero t.pos).symm
  refine ⟨ps, hps, hbuf, hpos, [], cs, [], t, v, ?_, by simp, rfl, hparts⟩
  rw [List.nil_append, List.append_nil, CType.fields]

end Struct

/-! ### Complex objects -/

/-- The fields of the header of a Complex object. -/
def binaryHeader : List (FieldName × Layout) :=
  (.typeCode, .scalar .byte) :: headerFields.map fun f => (f.1, .scalar f.2)

theorem sizeFields_binaryHeader : CType.sizeFields binaryHeader = headerSize := rfl

theorem binaryHeader_plain : ∀ f ∈ binaryHeader, f.2.isStruct = false := by decide

section Binary
variable [Python] [OtherCodecs]

theorem parseStructFields_schema (schema : List (PyStr × DataType)) (ctx : ParseContext) :
    parseStructFields [] (schema.map fun f => (f.1, .plain (wireClass f.2))) ctx =
      parseFields parse schema := by
  induction schema with
  | nil => rfl
  | cons f schema ih =>
    rw [List.map_cons, parseStructFields, parseFields]
    simp only [List.not_mem_nil, if_false, pure_bind, ih]
    rfl

theorem schemaStruct_parse (schema : List (PyStr × DataType)) :
    (schemaStruct schema).parse = parseFields parse schema >>= fun cs => pure (.struct cs) := by
  have hnames : ((schemaStruct schema).fields.flatMap fun f => f.2.conditionFields) = [] := by
    rw [schemaStruct, List.flatMap_map]
    exact List.flatMap_eq_nil_iff.mpr fun f _ => rfl
  rw [Struct.parse, hnames, schemaStruct, parseStructFields_schema]

/-- The fields of a Complex object are one structure between the header and the schema. -/
theorem assembles_parseBinary (hmoves : ∀ t, Moves (parse t)) :
    Assembles (parseBinary parse) fun ps =>
      ∃ schema, ps = [(.objectFields, (schemaStruct schema).parse)] := by
  intro s c s' h
  obtain ⟨header, s₁, hheader, h⟩ := bind_eq_ok h
  obtain ⟨⟨⟩, s₂, hseek, h⟩ := bind_eq_ok h
  obtain ⟨flags, s₃, hflags, h⟩ := bind_eq_ok h
  obtain ⟨typeId, s₄, htypeId, h⟩ := bind_eq_ok h
  obtain ⟨schemaId, s₅, hschemaId, h⟩ := bind_eq_ok h
  obtain ⟨cls, s₆, hcls, h⟩ := bind_eq_ok h
  obtain ⟨cs, u, hcs, h⟩ := bind_eq_ok h
  obtain ⟨hbuf₁, hpos₁⟩ := (stays_readForward _).eq hheader
  obtain ⟨hbuf₂, -, hpos₂, rfl⟩ := advances_seekCur _ hseek
  obtain ⟨hbuf₃, hpos₃⟩ := (stays_ofOption _ _).eq hflags
  obtain ⟨hbuf₄, hpos₄⟩ := (stays_ofOption _ _).eq htypeId
  obtain ⟨hbuf₅, hpos₅⟩ := (stays_ofOption _ _).eq hschemaId
  obtain ⟨hbuf₆, hpos₆⟩ := (stays_getDataclass _ _).eq hcls
  obtain ⟨hbuf, -, hpos, rfl⟩ := advances_parseFields hmoves _ hcs
  have hstart : s₆.pos = s.pos + headerSize := by omega
  have hbuf₀ : s₆.buf = s.buf := by rw [hbuf₆, hbuf₅, hbuf₄, hbuf₃, hbuf₂, hbuf₁]
  have hcall : (schemaStruct cls.schema).parse s₆ = .ok (.struct cs, u) := by
    rw [schemaStruct_parse, bind_ok hcs]
    rfl
  have hparts : PartsAt s.pos headerSize [(.objectFields, .struct cs)]
      [(.objectFields, (schemaStruct cls.schema).parse)] s₆ u :=
    .cons hstart hcall ⟨rfl, rfl⟩ .nil
  have hassembled : ∀ after, (∀ f ∈ after, f.2.isStruct = false) → s'.buf = u.buf →
      s'.pos = u.pos + CType.sizeFields after →
      Assembled [(.objectFields, (schemaStruct cls.schema).parse)] s
        (.struct (binaryHeader ++ [(.objectFields, .struct cs)] ++ after)) s' := by
    intro after hafter hbuf' hpos'
    refine ⟨hbuf'.trans (hbuf.trans hbuf₀), ?_, binaryHeader, _, after, s₆, u, rfl, ?_, hbuf₀,
      hparts⟩
    · rw [CType.size, CType.sizeFields_append, CType.sizeFields_append, sizeFields_binaryHeader,
        CType.sizeFields, CType.sizeFields, CType.size]
      omega
    · intro f hf
      rcases List.mem_append.mp hf with hf | hf
      · exact binaryHeader_plain f hf
      · exact hafter f hf
  refine ⟨_, ⟨cls.schema, rfl⟩, ?_⟩
  split_ifs at h
  · obtain ⟨⟨⟩, v, hv, h⟩ := bind_eq_ok h
    obtain ⟨⟨⟩, w, hw, h⟩ := bind_eq_ok h
    obtain ⟨rfl, rfl⟩ := Prod.mk.inj (Except.ok.inj h)
    obtain ⟨hvbuf, n, hvpos, rfl⟩ := advances_seekCur _ hv
    obtain ⟨hwbuf, hwpos⟩ := (stays_setCompactFooter _).eq hw
    have hlast := hassembled [(.schema, .array (schemaType flags) cls.schema.length)] (by simp
      [CType.isStruct]) (hwbuf.trans hvbuf) (by rw [hwpos, hvpos]; rfl)
    rwa [List.append_assoc] at hlast
  · obtain ⟨⟨⟩, w, hw, h⟩ := bind_eq_ok h
    obtain ⟨rfl, rfl⟩ := Prod.mk.inj (Except.ok.inj h)
    obtain ⟨hwbuf, hwpos⟩ := (stays_setCompactFooter _).eq hw
    have hlast := hassembled [] (by simp) hwbuf hwpos
    rwa [List.append_nil] at hlast

/-! ### Data classes -/

theorem assembles_parseNullable {Q : List (FieldName × StreamM Layout) → Prop} (hnil : Q [])
    {t : DataType} (h : Assembles (parseNotNull parse t) Q) :
    Assembles (parseNullable parse t) Q := by
  have hnull : Assembles (seekPast nullLayout) Q :=
    (assembles_seekPast (by decide)).mono fun ps hps => hps ▸ hnil
  unfold parseNullable
  split
  · exact hnull
  · refine .look (stays_peek 1) fun code => ?_
    split
    · exact hnull
    · exact h

theorem OtherType.calls_nil (t : OtherType) : t.Calls [] := by
  cases t with
  | dateArrayObject | timestampArrayObject | timeArrayObject | decimalArrayObject
  | enumArrayObject => exact ⟨0, rfl⟩
  | _ => exact rfl

theorem DataType.calls_nil (t : DataType) : t.Calls [] := by
  cases t with
  | stringArrayObject | uuidArrayObject | objectArrayObject | collectionObject
  | mapObject => exact ⟨0, rfl⟩
  | binaryObject => exact .inl rfl
  | other t => exact t.calls_nil
  | _ => exact rfl

end Binary

/-! ### The classes that stand alone -/

theorem moves_nullable {p : StreamM Layout} (hp : Moves p) : Moves (nullable p) := by
  refine (stays_peek 1).bind fun code => ?_
  split
  · exact moves_seekPast _
  · exact hp

theorem moves_decimalObject : Moves DecimalObject.parseNotNull :=
  (stays_peekLength _).bind fun _ => moves_seekPast _

theorem moves_otherType (t : OtherType) : Moves t.parseNotNull := by
  cases t with
  | decimalObject => exact moves_decimalObject
  | floatArrayObject | doubleArrayObject | charArrayObject | wrappedDataObject =>
    exact (stays_peekLength 1).bind fun _ => moves_seekPast _
  | dateArrayObject | timestampArrayObject | timeArrayObject | enumArrayObject =>
    exact moves_parseArray _ _ _ (moves_nullable (moves_seekPast _))
  | decimalArrayObject => exact moves_parseArray _ _ _ (moves_nullable moves_decimalObject)
  | _ => exact moves_seekPast _

theorem othersMove (others : OtherCodecs) : @OthersMove (withParsers others) := moves_otherType

/-- Elements that are parsed by a parser under another name. -/
theorem assembles_arrayOf {p q : StreamM Layout} (off : ℕ) {header : List (FieldName × Layout)}
    (count : ℕ → ℕ) (hheader : ∀ f ∈ header, f.2.isStruct = false) (hp : Moves p) (hq : q = p) :
    Assembles (parseArray off header count q) fun ps => ∃ n, ps = elementCalls p n :=
  hq ▸ assembles_parseArray (hq ▸ hp) hheader

theorem standardArrayHeader_plain : ∀ f ∈ standardArrayHeader, f.2.isStruct = false := by decide

theorem objectArrayHeader_plain : ∀ f ∈ objectArrayHeader, f.2.isStruct = false := by decide

section Parsers
variable [Python]

theorem parse_eq_nullable (others : OtherCodecs) (t : OtherType) :
    @parse _ (withParsers others) (.other t) = nullable t.parseNotNull :=
  @parse_eq _ (withParsers others) (othersMove others) (.other t)

theorem assembles_otherType (others : OtherCodecs) (t : OtherType) :
    Assembles t.parseNotNull (@OtherType.Calls _ (withParsers others) t) := by
  have hmoves := fun t => @moves_parse _ (withParsers others) (othersMove others) (.other t)
  have heq := fun t => (parse_eq_nullable others t).symm
  cases t with
  | decimalObject =>
    exact .look (stays_peekLength _) fun _ => assembles_seekPast (by simp [decimalLayout,
      CType.fields, CType.isStruct])
  | floatArrayObject | doubleArrayObject | charArrayObject | wrappedDataObject =>
    exact .look (stays_peekLength 1) fun _ => assembles_seekPast (by simp [CType.fields,
      CType.isStruct])
  | dateArrayObject =>
    exact assembles_arrayOf 1 id standardArrayHeader_plain (hmoves .dateObject) (heq .dateObject)
  | timestampArrayObject =>
    exact assembles_arrayOf 1 id standardArrayHeader_plain (hmoves .timestampObject)
      (heq .timestampObject)
  | timeArrayObject =>
    exact assembles_arrayOf 1 id standardArrayHeader_plain (hmoves .timeObject) (heq .timeObject)
  | decimalArrayObject =>
    exact assembles_arrayOf 1 id standardArrayHeader_plain (hmoves .decimalObject)
      (heq .decimalObject)
  | enumArrayObject =>
    have henum := @parse_eq _ (withParsers others) (othersMove others) .enumObject
    exact assembles_arrayOf 5 id objectArrayHeader_plain
      (@moves_parse _ (withParsers others) (othersMove others) _) henum.symm
  | _ => exact assembles_seekPast (by decide)

theorem assembles_parse (others : OtherCodecs) (t : DataType) :
    let _ := withParsers others
    Assembles (parse t) t.Calls := by
  intro inst
  have hmoves := moves_parse (othersMove others)
  have hany : Moves AnyDataObject.parse := moves_anyDataObject (othersMove others)
  have hanyEq : anyParse parse = AnyDataObject.parse := anyDataObject_eq.symm
  rw [parse_eq (othersMove others) t]
  refine assembles_parseNullable t.calls_nil ?_
  cases t with
  | string | byteArrayObject | shortArrayObject | intArrayObject | longArrayObject
  | boolArrayObject =>
    exact .look (stays_peekLength 1) fun _ => assembles_seekPast (by simp [stringLayout,
      primitiveArrayLayout, CType.fields, CType.isStruct])
  | stringArrayObject | uuidArrayObject =>
    exact assembles_parseArray (hmoves _) standardArrayHeader_plain
  | objectArrayObject => exact assembles_arrayOf 5 id objectArrayHeader_plain hany hanyEq
  | collectionObject => exact assembles_arrayOf 1 id (by decide) hany hanyEq
  | mapObject => exact assembles_arrayOf 1 (2 * ·) (by decide) hany hanyEq
  | binaryObject => exact (assembles_parseBinary hmoves).mono fun ps => .inr
  | other t => exact assembles_otherType others t
  | _ => exact assembles_seekPast (by decide)

theorem assembles_anyDataObject (others : OtherCodecs) :
    let _ := withParsers others
    Assembles AnyDataObject.parse fun ps => ∃ t : DataType, t.Calls ps := by
  intro inst
  have hraise : Assembles (StreamM.raise .parseError "Unknown type code")
    fun ps => ∃ t : DataType, t.Calls ps := assembles_raise
  rw [anyDataObject_eq]
  refine .look (stays_peek 1) fun typeCode => ?_
  split
  · split
    · exact (assembles_parse others _).mono fun ps hps => ⟨_, hps⟩
    · exact hraise
  · exact hraise

theorem WireParser.assembles (others : OtherCodecs) {p : StreamM Layout}
    {Q : List (FieldName × StreamM Layout) → Prop} :
    let _ := withParsers others
    WireParser p Q → Assembles p Q := by
  intro inst h
  have hlength : ∀ f ∈ [(FieldName.length, (.scalar .int : Layout))], f.2.isStruct = false := by
    decide
  have hany := (assembles_anyDataObject others).moves
  induction h with
  | payload c h => exact assembles_seekPast (by simp [h])
  | type t => exact assembles_parse others t
  | any => exact assembles_anyDataObject others
  | stringArray => exact assembles_parseArray (assembles_parse others _).moves hlength
  | anyDataArray => exact assembles_parseArray hany hlength
  | map => exact assembles_parseArray hany hlength
  | conditional c ctx _ _ ih ih' =>
    rw [FieldClass.parse]
    by_cases hpred : c.predicate1 ctx
    · simp only [if_pos hpred]
      exact ih
    · simp only [if_neg hpred]
      exact ih'
  | struct s _ ih => exact assembles_struct s fun f hf ctx => (ih f hf ctx).moves
  | structArray a _ ih =>
    have hstruct := assembles_struct ⟨a.following, []⟩ fun f hf ctx => (ih f hf ctx).moves
    exact assembles_parseArray hstruct.moves hlength

theorem wireParser_schemaStruct [OtherCodecs] (schema : List (PyStr × DataType)) :
    ∃ R, WireParser (schemaStruct schema).parse R := by
  have hfields : ∀ f ∈ (schemaStruct schema).fields, ∀ ctx, ∃ R, WireParser (f.2.parse ctx) R := by
    intro f hf ctx
    obtain ⟨g, -, rfl⟩ := List.mem_map.mp hf
    exact ⟨_, .type g.2⟩
  choose! Q hQ using hfields
  exact ⟨_, .struct _ hQ⟩

/-- The parsers called for the parts are such parsers again. -/
theorem DataType.Calls.wireParser [OtherCodecs] {t : DataType}
    {ps : List (FieldName × StreamM Layout)} (h : t.Calls ps) :
    ∀ q ∈ ps, ∃ R, WireParser q.2 R := by
  have helements : ∀ {p : StreamM Layout} {Q} (n : ℕ), WireParser p Q →
      ∀ q ∈ elementCalls p n, ∃ R, WireParser q.2 R := by
    intro p Q n hp q hq
    obtain ⟨i, -, rfl⟩ := List.mem_map.mp hq
    exact ⟨Q, hp⟩
  cases t with
  | stringArrayObject | uuidArrayObject =>
    obtain ⟨n, rfl⟩ := h
    exact helements n (.type _)
  | objectArrayObject | collectionObject | mapObject =>
    obtain ⟨n, rfl⟩ := h
    exact helements n .any
  | binaryObject =>
    rcases h with rfl | ⟨schema, rfl⟩
    · exact fun q hq => absurd hq List.not_mem_nil
    · intro q hq
      obtain rfl := List.mem_singleton.mp hq
      exact wireParser_schemaStruct schema
  | other t =>
    cases t with
    | dateArrayObject | timestampArrayObject | timeArrayObject | decimalArrayObject
    | enumArrayObject =>
      obtain ⟨n, rfl⟩ := h
      exact helements n (.type _)
    | _ =>
      obtain rfl := h
      exact fun q hq => absurd hq List.not_mem_nil
  | _ =>
    obtain rfl := h
    exact fun q hq => absurd hq List.not_mem_nil

theorem WireParser.calls [OtherCodecs] {p : StreamM Layout}
    {Q : List (FieldName × StreamM Layout) → Prop} (h : WireParser p Q)
    {ps : List (FieldName × StreamM Layout)} (hps : Q ps) : ∀ q ∈ ps, ∃ R, WireParser q.2 R := by
  have helements : ∀ {p : StreamM Layout} {R ps}, WireParser p R → (∃ n, ps = elementCalls p n) →
      ∀ q ∈ ps, ∃ R, WireParser q.2 R := by
    rintro p R _ hp ⟨n, rfl⟩ q hq
    obtain ⟨i, -, rfl⟩ := List.mem_map.mp hq
    exact ⟨R, hp⟩
  induction h generalizing ps with
  | payload c _ =>
    obtain rfl := hps
    exact fun q hq => absurd hq List.not_mem_nil
  | type t => exact hps.wireParser
  | any =>
    obtain ⟨t, ht⟩ := hps
    exact ht.wireParser
  | stringArray => exact helements (.type .string) hps
  | anyDataArray => exact helements .any hps
  | map => exact helements .any hps
  | conditional c ctx _ _ ih ih' =>
    by_cases hpred : c.predicate1 ctx
    · rw [if_pos hpred] at hps
      exact ih hps
    · rw [if_neg hpred] at hps
      exact ih' hps
  | struct s h _ =>
    intro q hq
    obtain ⟨f, hf, -, ctx, hctx⟩ := forall₂_exists_left hps q hq
    exact ⟨_, hctx ▸ h f hf ctx⟩
  | structArray a h _ => exact helements (.struct ⟨a.following, []⟩ h) hps

/-- Nesting ends, since unfolding it further than there are bytes changes nothing. A parser that
does not raise moves by the size of the structure that it returns, whose parts stand where their
parsers, each of which is one of these again, were called one after the other. -/
theorem parsers_agree_with_layouts (others : OtherCodecs) :
    let _ := withParsers others
    (∀ (t : DataType) (s : BinaryStream) (n : ℕ) (base : DataType → StreamM Layout),
      s.buf.length < n → unfolded base n t s = parse t s) ∧
    ∀ (p : StreamM Layout) (Q : List (FieldName × StreamM Layout) → Prop), WireParser p Q →
      ∀ s c s', p s = .ok (c, s') →
        ∃ ps, Q ps ∧ (∀ q ∈ ps, ∃ R, WireParser q.2 R) ∧ Assembled ps s c s' := by
  intro inst
  constructor
  · intro t s n base hn
    exact unfolded_eq_parse (othersMove others) (lt_of_le_of_lt (Nat.sub_le _ _) hn) base t
  · intro p Q hp s c s' hrun
    obtain ⟨ps, hQ, hps⟩ := WireParser.assembles others hp hrun
    exact ⟨ps, hQ, hp.calls hQ, hps⟩

end Parsers

end PyGridGain
