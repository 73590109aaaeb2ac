import PyGridGain.Codec.Elements
import PyGridGain.Stream.Finds

/-! Structures of data classes are read field by field: what every class makes of its own bytes
is what the structure has under the name of the field. -/

namespace PyGridGain

open CObj StreamM

variable {I : Client → Prop} {w : WireClass} {data : Bytes} {x : PyValue}

/-- The class moves past these bytes and makes `x` of them, by clients with `I` that are passed
to `to_python`. -/
def Reads (I : Client → Prop) (w : WireClass) (data : Bytes) (x : PyValue) : Prop :=
  Finds I w.parse data fun c =>
    c.size = data.length ∧ ∀ client, I client → w.toPython (some client) ⟨c, data⟩ = .ok x

/-- A class moves past these bytes and makes this of them. -/
def Yields (I : Client → Prop) (w : WireClass) (data : Bytes) (x : Except PyError PyValue) : Prop :=
  Finds I w.parse data fun c =>
    c.size = data.length ∧ ∀ client, I client → w.toPython client ⟨c, data⟩ = x

/-- Bytes are read in one way only. -/
theorem Yields.unique {x y : Except PyError PyValue} (hx : Yields I w data x)
    (hy : Yields I w data y) {client : Client} (hclient : I client) : x = y := by
  have hbefore : Before I ⟨client, data, 0, false⟩ data := ⟨rfl, hclient, List.prefix_refl _⟩
  obtain ⟨c, r, hc, -, -, hpy⟩ := hx _ hbefore
  obtain ⟨c', r', hc', -, -, hpy'⟩ := hy _ hbefore
  obtain ⟨rfl, -⟩ := Prod.mk.inj (Except.ok.inj (hc.symm.trans hc'))
  rw [← hpy client hclient, ← hpy' client hclient]

theorem ReadsAs.readsPassing (h : ReadsAs w data (.ok x)) (passed : Client → Option Client) :
    Reads I (w.passing passed) data x := by
  intro s hs
  obtain ⟨c, hsize, hparse, hpy⟩ := h
  refine ⟨c, s.skip c.size, hparse s hs.emptyView hs.at_pos, ?_, hsize,
    fun client _ => hpy (passed client)⟩
  rw [hsize]
  exact hs.skip _

theorem ReadsAs.reads (h : ReadsAs w data (.ok x)) : Reads I w data x := h.readsPassing some

/-- A class that asks the client for nothing reads without one. -/
theorem Reads.withoutClient (h : Reads I w data x)
    (hfree : ∀ client, w.toPython none = w.toPython client) : Reads I w.withoutClient data x := by
  rwa [WireClass.withoutClient_eq hfree]

/-! ### Payloads -/

theorem primitive_toPython {s : Scalar} {i : ℤ} (hi : s.Range i) (client : Option Client) :
    (primitive s).toPython client ⟨.scalar s, s.store i⟩ = .ok (.int i) := by
  have hvalue : CObj.value (⟨.scalar s, s.store i⟩ : CObject) = some (s.wrap i) := rfl
  dsimp only [primitive]
  rw [hvalue, Scalar.wrap_eq_iff.mpr hi]

theorem reads_primitive {s : Scalar} {i : ℤ} (hi : s.Range i) :
    Reads I (primitive s) (s.store i) (.int i) := by
  have hsize : (CType.scalar s : Layout).size = (s.store i).length := (Scalar.store_length s i).symm
  exact Finds.seekPast hsize ⟨hsize, fun client _ => primitive_toPython hi (some client)⟩

theorem bool_toPython (b : Bool) (client : Option Client) :
    boolClass.toPython client ⟨.scalar .byte, Scalar.byte.store (if b then 1 else 0)⟩ =
      .ok (.bool b) := by
  cases b <;> rfl

theorem reads_bool (b : Bool) :
    Reads I boolClass (Scalar.byte.store (if b then 1 else 0)) (.bool b) :=
  Finds.seekPast rfl ⟨rfl, fun client _ => bool_toPython b (some client)⟩

section Encodable
variable [Python] [OtherCodecs] {cl : Client} {cf : Bool} {t : DataType} {v : PyValue}

/-- The classes and the footers of a client. -/
def SameRegistry (cl : Client) (cf : Bool) (client : Client) : Prop :=
  client.registry = cl.registry ∧ client.compactFooter = cf

theorem Encodable.reads (hv : Encodable cl cf t v) (hs : SchemasFound t v) :
    Reads (SameRegistry cl cf) (wireClass t) (encode cf t v) (decoded Scalar.byte.wrap t v) := by
  intro s hbefore
  have hr : Readable cl cf s := ⟨hbefore.client.1, hbefore.client.2, hbefore.emptyView⟩
  obtain ⟨c, r, hparse, hadv, hd⟩ := (parse_parses hv hr hbefore.at_pos).1 hs
  refine ⟨c, r, hparse, ⟨hadv.readable.emptyView, ⟨hadv.readable.registry, hadv.readable.footer⟩,
    hadv.buf, hadv.pos⟩, hd.size.symm, fun client hclient => ?_⟩
  exact hd.toPython (some client) (fun _ => ⟨client, rfl, hclient.1⟩) _ (Nat.le_succ _)

/-- What the client needs to know of the objects is to be passed on. -/
theorem Encodable.readsPassing (hv : Encodable cl cf t v) (hs : SchemasFound t v)
    (passed : Client → Option Client)
    (hknows : ∀ client : Client, client.registry = cl.registry → Knows (passed client) cl t v) :
    Reads (SameRegistry cl cf) (anyDataObject.passing passed) (encode cf t v)
      (decoded Scalar.byte.wrap t v) := by
  intro s hbefore
  have hr : Readable cl cf s := ⟨hbefore.client.1, hbefore.client.2, hbefore.emptyView⟩
  obtain ⟨c, r, hparse, hadv, hd⟩ := (anyDataObject_parses hv hr hbefore.at_pos).1 hs
  refine ⟨c, r, hparse, ⟨hadv.readable.emptyView, ⟨hadv.readable.registry, hadv.readable.footer⟩,
    hadv.buf, hadv.pos⟩, hd.size.symm, fun client hclient => ?_⟩
  exact anyToPython_of_decodes hv hd (hknows client hclient.1) (Nat.le_succ _)

theorem Encodable.readsAny (hv : Encodable cl cf t v) (hs : SchemasFound t v) :
    Reads (SameRegistry cl cf) anyDataObject (encode cf t v) (decoded Scalar.byte.wrap t v) :=
  hv.readsPassing hs some fun client hclient _ => ⟨client, rfl, hclient⟩

theorem ValueTree.readsPassing (h : ValueTree t v) (passed : Client → Option Client) :
    Reads (SameRegistry cl cf) (anyDataObject.passing passed) (encode cf t v)
      (decoded Scalar.byte.wrap t v) :=
  (h.encodable cl cf).readsPassing (fun o ho => by simp [h.objects_eq_nil] at ho) passed
    fun _ _ hne => absurd h.objects_eq_nil hne

end Encodable

/-! ### Counted elements -/

theorem finds_parseElements {ds : List Bytes} {xs : List PyValue}
    (h : List.Forall₂ (Reads I w) ds xs) (i : ℕ) :
    Finds I (parseElements w.parse i ds.length) ds.flatten fun cs => ∃ os : List CObject,
      cs = named i (os.map fun o => o.ctype) ∧ (os.map fun o => o.mem) = ds ∧ Fits os ∧
        ∀ client, I client → os.mapM (w.toPython (some client)) = .ok xs := by
  induction h generalizing i with
  | nil => exact Finds.pure ⟨[], rfl, rfl, by simp [Fits], fun _ _ => rfl⟩
  | @cons d x ds xs hd _ ih =>
    refine hd.bind fun c hc => (ih (i + 1)).map ?_
    rintro cs ⟨os, rfl, hmem, hfits, hpy⟩
    refine ⟨⟨c, d⟩ :: os, by simp, by simp [hmem], ?_, fun client hclient => ?_⟩
    · exact List.forall_mem_cons.mpr ⟨hc.1.symm, hfits⟩
    · exact mapM_cons_ok.mpr ⟨x, xs, hc.2 client hclient, hpy client hclient, rfl⟩

theorem lengthHeader_isHeader (n : ℕ) : IsHeader [scalarPart .length .int n] :=
  ⟨scalarPart_filled _ _ _, by simp, by simp [scalarPart]⟩

/-- A counter, and as many elements of one class. -/
theorem reads_counted {ds : List Bytes} {xs : List PyValue} (h : List.Forall₂ (Reads I w) ds xs)
    (hlen : ds.length < 2 ^ 31) :
    Finds I (parseArray 0 [(.length, .scalar .int)] id w.parse)
      (Scalar.int.store ds.length ++ ds.flatten) fun c =>
        c.size = (Scalar.int.store ds.length ++ ds.flatten).length ∧
          CObject.intAttr ⟨c, Scalar.int.store ds.length ++ ds.flatten⟩ .length = .ok ds.length ∧
          ∀ client, I client → elementsToPython (w.toPython (some client))
            ⟨c, Scalar.int.store ds.length ++ ds.flatten⟩ = .ok xs := by
  refine Finds.looking (Q := fun n => n = ds.length) (fun s hs => ⟨_, ?_, rfl⟩) ?_
  · exact peekLength_ok hs.emptyView hlen (by simpa using hs.at_pos.left)
  · rintro n rfl
    have hsize : CType.sizeFields [((.length : FieldName), (.scalar .int : Layout))] =
        (Scalar.int.store (ds.length : ℤ)).length := by
      rw [Scalar.store_length]
      rfl
    rw [hsize]
    refine (Finds.seekCur (Q := fun _ => True) trivial).bind fun _ _ =>
      (finds_parseElements h 0).map ?_
    rintro cs ⟨os, rfl, hmem, hfits, hpy⟩
    have hcount : os.length = ds.length := by rw [← hmem, List.length_map]
    have ho : (⟨.struct ([(.length, .scalar .int)] ++ named 0 (os.map fun o => o.ctype)),
        Scalar.int.store ds.length ++ ds.flatten⟩ : CObject) =
        ofParts ([scalarPart .length .int os.length] ++ elementFields os) := by
      have hnamed : (elementFields os).map (fun p => (p.1, p.2.1)) =
          named 0 (os.map fun o => o.ctype) := by
        rw [elementFields, numbered, named]
        apply List.ext_getElem <;> simp
      have hbytes : (elementFields os).flatMap (fun p => p.2.2) = ds.flatten := by
        rw [elementFields, numbered_flatMap, ← hmem, List.flatMap_map, List.flatMap_def]
      simp only [ofParts, List.map_append, List.flatMap_append, hnamed, hbytes, hcount]
      simp [scalarPart]
    refine ⟨?_, ?_, fun client hclient => ?_⟩
    · have hfilled := ofParts_length ((lengthHeader_isHeader os.length).filled_elements hfits)
      rw [← ho] at hfilled
      exact hfilled.symm
    · have hheader := lengthHeader_isHeader os.length
      rw [ho, ← hcount]
      exact intAttr_part (hheader.filled_elements hfits) hheader.nodup_elements
        (range_of_lt (hcount ▸ hlen)) (List.mem_append_left _ (by simp))
    · rw [ho, elementsToPython_eq _ (lengthHeader_isHeader os.length) hfits (hcount ▸ hlen) (by simp)]
      exact hpy client hclient

theorem reads_structArray {following : List (PyStr × FieldClass)}
    {defaults : List (PyStr × PyValue)} {ds : List Bytes} {xs : List PyValue}
    (h : List.Forall₂ (Reads I (Struct.wireClass ⟨following, []⟩)) ds xs)
    (hlen : ds.length < 2 ^ 31) :
    Reads I (StructArray.wireClass ⟨following, defaults⟩)
      (Scalar.int.store ds.length ++ ds.flatten) (.list xs) := by
  refine (reads_counted h hlen).mono fun c hc => ⟨hc.1, fun client hclient => ?_⟩
  exact except_bind_eq_ok.mpr ⟨xs, hc.2.2 client hclient, rfl⟩

/-- An array of structures of one kind. -/
theorem reads_each {α : Type} {a : StructArray} {bytes : α → Bytes} {value : α → PyValue}
    {xs : List α} (h : ∀ x ∈ xs, Reads I (Struct.wireClass ⟨a.following, []⟩) (bytes x) (value x))
    (hlen : xs.length < 2 ^ 31) :
    Reads I a.wireClass (Scalar.int.store (xs.map bytes).length ++ (xs.map bytes).flatten)
      (.list (xs.map value)) := by
  have hxs : List.Forall₂ (Reads I (Struct.wireClass ⟨a.following, []⟩)) (xs.map bytes)
      (xs.map value) := by
    rw [List.forall₂_map_left_iff, List.forall₂_map_right_iff, List.forall₂_same]
    exact h
  exact reads_structArray hxs (by simpa using hlen)

/-! ### Fields -/

/-- A field of a structure: its class, its bytes and its value. -/
abbrev Field := PyStr × FieldClass × Bytes × PyValue

/-- What a structure has learned of the field `name` once it has been parsed. -/
def observed (names : List PyStr) (ctx : ParseContext) (name : PyStr) (o : CObject) : ParseContext :=
  if name ∈ names then Function.update ctx name (some o) else ctx

/-- Every field reads its bytes, in the context of those before it. -/
def FieldsRead (I : Client → Prop) (names : List PyStr) :
    List Field → ParseContext → List (PyStr × PyValue) → Prop
  | [], _, _ => True
  | (name, c, data, x) :: fields, ctx, result =>
    (name ∈ names → data ≠ []) ∧ Finds I (c.parse ctx) data fun l => l.size = data.length ∧
      (∀ client, I client → c.toPython (some client) result ⟨l, data⟩ = .ok x) ∧
      FieldsRead I names fields (observed names ctx name ⟨l, data⟩) (dictSet result name x)

def fieldData (fields : List Field) : Bytes := fields.flatMap fun f => f.2.2.1

def fieldResult (fields : List Field) (result : List (PyStr × PyValue)) : List (PyStr × PyValue) :=
  dictUpdate result (fields.map fun f => (f.1, f.2.2.2))

/-- Fields that ask for nothing read their bytes on their own. -/
theorem fieldsRead_plain {fields : List (PyStr × WireClass × Bytes × PyValue)}
    (h : ∀ f ∈ fields, Reads I f.2.1 f.2.2.1 f.2.2.2) (ctx : ParseContext)
    (result : List (PyStr × PyValue)) :
    FieldsRead I [] (fields.map fun f => (f.1, .plain f.2.1, f.2.2)) ctx result := by
  induction fields generalizing ctx result with
  | nil => trivial
  | cons f fields ih =>
    obtain ⟨name, w, data, x⟩ := f
    refine ⟨by simp, (h _ List.mem_cons_self).mono fun c hc => ⟨hc.1, fun client => hc.2 client, ?_⟩⟩
    exact ih (fun f hf => h f (List.mem_cons_of_mem _ hf)) _ _

/-- What the loop of `parse` has found: the parts of a structure, in which the loop of
`to_python` sees the values. -/
structure FieldParts (I : Client → Prop) (fields : List Field) (result : List (PyStr × PyValue))
    (parts : List (FieldName × Layout × Bytes)) : Prop where
  filled : Filled parts
  names : parts.map (·.1) = fields.map fun f => .field f.1
  bytes : (parts.flatMap fun p => p.2.2) = fieldData fields
  toPython : ∀ whole, Filled whole → (whole.map (·.1)).Nodup → parts ⊆ whole →
    ∀ client, I client → structFieldsToPython (some client) (ofParts whole)
      (fields.map fun f => (f.1, f.2.1)) result = .ok (fieldResult fields result)

theorem finds_parseStructFields {names : List PyStr} {fields : List Field} {ctx : ParseContext}
    {result : List (PyStr × PyValue)} (h : FieldsRead I names fields ctx result) :
    Finds I (parseStructFields names (fields.map fun f => (f.1, f.2.1)) ctx) (fieldData fields)
      fun cs => ∃ parts, cs = parts.map (fun p => (p.1, p.2.1)) ∧
        FieldParts I fields result parts := by
  induction fields generalizing ctx result with
  | nil =>
    exact Finds.pure ⟨[], rfl, by simp [Filled], rfl, rfl, fun _ _ _ _ _ _ => rfl⟩
  | cons f fields ih =>
    obtain ⟨name, c, data, x⟩ := f
    obtain ⟨hne, hfinds⟩ := h
    -- the rest of the loop, once the context is known
    have hrest : ∀ l, (l.size = data.length ∧
        (∀ client, I client → c.toPython (some client) result ⟨l, data⟩ = .ok x) ∧
        FieldsRead I names fields (observed names ctx name ⟨l, data⟩) (dictSet result name x)) →
        Finds I (do
          let layouts ← parseStructFields names (fields.map fun f => (f.1, f.2.1))
            (observed names ctx name ⟨l, data⟩)
          pure ((.field name, l) :: layouts)) (fieldData fields)
          fun cs => ∃ parts, cs = parts.map (fun p => (p.1, p.2.1)) ∧
            FieldParts I ((name, c, data, x) :: fields) result parts := by
      rintro l ⟨hsize, hpy, hfields⟩
      refine (ih hfields).map ?_
      rintro cs ⟨parts, rfl, hparts⟩
      refine ⟨(.field name, l, data) :: parts, rfl, ?_, ?_, ?_, ?_⟩
      · exact List.forall_mem_cons.mpr ⟨hsize.symm, hparts.filled⟩
      · rw [List.map_cons, hparts.names, List.map_cons]
      · rw [List.flatMap_cons, hparts.bytes, fieldData, fieldData, List.flatMap_cons]
      · intro whole hwhole hnd hsub client hclient
        have hattr := attr_part hwhole hnd (hsub List.mem_cons_self)
        rw [List.map_cons, structFieldsToPython, hattr, except_bind, hpy client hclient, except_bind]
        exact hparts.toPython whole hwhole hnd (fun p hp => hsub (List.mem_cons_of_mem _ hp)) client
          hclient
    rw [List.map_cons]
    unfold parseStructFields
    rw [fieldData, List.flatMap_cons]
    by_cases hname : name ∈ names
    · simp only [if_pos hname, pure_bind]
      refine Finds.observe (hne hname) hfinds fun l hsize hl => ?_
      have hl' := hrest l ⟨hsize, hl⟩
      rwa [observed, if_pos hname] at hl'
    · simp only [if_neg hname, pure_bind]
      refine hfinds.bind fun l hl => ?_
      have hl' := hrest l hl
      rwa [observed, if_neg hname] at hl'

/-- The values under their names. -/
def fieldValues (fields : List Field) : List (PyStr × PyValue) := fields.map fun f => (f.1, f.2.2.2)

theorem fieldResult_nil {fields : List Field} (hnd : (fields.map (·.1)).Nodup) :
    fieldResult fields [] = fieldValues fields := by
  apply dictUpdate_nil_iff.mpr
  rwa [List.map_map]

/-- The parts of a structure of its own. -/
theorem FieldParts.alone {fields : List Field} {parts : List (FieldName × Layout × Bytes)}
    (h : FieldParts I fields [] parts) (hnd : (fields.map (·.1)).Nodup) {client : Client}
    (hclient : I client) :
    structFieldsToPython (some client) (ofParts parts) (fields.map fun f => (f.1, f.2.1)) [] =
      .ok (fieldValues fields) := by
  have hnames : (parts.map (·.1)).Nodup := by
    have hmap := hnd.map (f := FieldName.field) fun a b hab => FieldName.field.inj hab
    rw [List.map_map] at hmap
    rw [h.names]
    exact hmap
  rw [h.toPython parts h.filled hnames (List.Subset.refl _) client hclient, fieldResult_nil hnd]

theorem reads_struct {s : Struct} (fields : List Field)
    (hs : s.fields = fields.map fun f => (f.1, f.2.1))
    (h : FieldsRead I (s.fields.flatMap fun f => f.2.conditionFields) fields (fun _ => none) [])
    (hnd : (fields.map (·.1)).Nodup) :
    Reads I s.wireClass (fieldData fields) (strDict (fieldValues fields)) := by
  have hloop := finds_parseStructFields h
  rw [← hs] at hloop
  refine hloop.map ?_
  rintro cs ⟨parts, rfl, hparts⟩
  have ho : (⟨.struct (parts.map fun p => (p.1, p.2.1)), fieldData fields⟩ : CObject) =
      ofParts parts := by
    rw [ofParts, hparts.bytes]
  constructor
  · have hlength := ofParts_length hparts.filled
    rw [← ho] at hlength
    exact hlength.symm
  · intro client hclient
    have halone := hparts.alone hnd hclient
    rw [← hs, ← ho] at halone
    exact except_bind_eq_ok.mpr ⟨_, halone, rfl⟩

/-- A structure without conditions. -/
theorem reads_plainStruct {s : Struct} (fields : List (PyStr × WireClass × Bytes × PyValue))
    (hs : s.fields = fields.map fun f => (f.1, .plain f.2.1))
    (h : ∀ f ∈ fields, Reads I f.2.1 f.2.2.1 f.2.2.2) (hnd : (fields.map (·.1)).Nodup) :
    Reads I s.wireClass (fields.flatMap fun f => f.2.2.1)
      (strDict (fields.map fun f => (f.1, f.2.2.2))) := by
  have hnames : (s.fields.flatMap fun f => f.2.conditionFields) = [] := by
    rw [hs, List.flatMap_map]
    exact List.flatMap_eq_nil_iff.mpr fun f _ => rfl
  have hread := reads_struct (I := I) (s := s) (fields.map fun f => (f.1, .plain f.2.1, f.2.2))
    (by simp [hs]) (hnames ▸ fieldsRead_plain h _ _) (by simpa [Function.comp_def] using hnd)
  simpa [fieldData, fieldValues, List.flatMap_map, Function.comp_def] using hread

end PyGridGain
