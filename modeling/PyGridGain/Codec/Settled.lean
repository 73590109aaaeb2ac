import PyGridGain.Codec.Inference
import PyGridGain.Codec.Structs
import PyGridGain.Codec.StructWrites
import PyGridGain.Codec.Terminates

/-! Classes that either give a value back as it was, or do not: which of both is settled by a
condition. A structure gives back its values exactly where every field does. -/

namespace PyGridGain

open CObj StreamM

section Only
variable {α : Type} {I : Client → Prop} {w : WireClass} {v : PyValue} {data : Bytes} {G : Prop}

/-- Where `data` stands, `v` is read only under the condition `G`. -/
def OnlyReads (I : Client → Prop) (w : WireClass) (data : Bytes) (v : PyValue) (G : Prop) : Prop :=
  ∀ client (s r : BinaryStream) c, Before I s data → I client → w.parse s = .ok (c, r) →
    s.pos + c.size ≤ s.buf.length →
    w.toPython (some client) ⟨c, sliceAt s.buf s.pos c.size⟩ = .ok v → G

/-- These bytes are read as `v` exactly under the condition `G`. -/
structure Answers (I : Client → Prop) (w : WireClass) (data : Bytes) (v : PyValue) (G : Prop) :
    Prop where
  kept : G → Reads I w data v
  lost : OnlyReads I w data v G

/-- What one reading gives of bytes that are read. -/
theorem Reads.gives (h : Reads I w data v) {s r : BinaryStream} {c : Layout}
    (hs : Before I s data) (hp : w.parse s = .ok (c, r)) :
    c.size = data.length ∧ Past I s r data.length ∧
      ∀ client, I client → w.toPython (some client) ⟨c, sliceAt s.buf s.pos c.size⟩ = .ok v := by
  obtain ⟨c', r', hp', hr, hsize, hpy⟩ := h s hs
  obtain ⟨rfl, rfl⟩ := Prod.mk.inj (Except.ok.inj (hp'.symm.trans hp))
  refine ⟨hsize, hr, fun client hclient => ?_⟩
  rw [hsize, hs.at_pos.slice]
  exact hpy client hclient

/-! ### Fields -/

/-- The fields of a structure with their bytes. -/
def partsAt (buf : Bytes) : ℕ → List (FieldName × Layout) → List (FieldName × Layout × Bytes)
  | _, [] => []
  | pos, (n, c) :: cs => (n, c, sliceAt buf pos c.size) :: partsAt buf (pos + c.size) cs

section Parts
variable {buf : Bytes} {pos : ℕ} {cs : List (FieldName × Layout)}

variable (buf pos cs) in
theorem partsAt_layouts : (partsAt buf pos cs).map (fun p => (p.1, p.2.1)) = cs := by
  induction cs generalizing pos with
  | nil => rfl
  | cons c cs ih => rw [partsAt, List.map_cons, ih]

theorem partsAt_bytes :
    (partsAt buf pos cs).flatMap (fun p => p.2.2) = sliceAt buf pos (CType.sizeFields cs) := by
  induction cs generalizing pos with
  | nil => simp [partsAt, CType.sizeFields, sliceAt]
  | cons c cs ih => rw [partsAt, List.flatMap_cons, ih, CType.sizeFields, sliceAt_add]

theorem partsAt_filled (h : pos + CType.sizeFields cs ≤ buf.length) : Filled (partsAt buf pos cs) := by
  induction cs generalizing pos with
  | nil => simp [partsAt, Filled]
  | cons c cs ih =>
    rw [CType.sizeFields] at h
    exact List.forall_mem_cons.mpr ⟨sliceAt_length (by omega), ih (by omega)⟩

variable (buf pos cs) in
theorem ofParts_partsAt :
    ofParts (partsAt buf pos cs) = ⟨.struct cs, sliceAt buf pos (CType.sizeFields cs)⟩ := by
  rw [ofParts, partsAt_layouts, partsAt_bytes]

end Parts

/-- The loop over fields that ask for nothing. -/
theorem parseStructFields_cons (name : PyStr) (c : FieldClass) (fields : List (PyStr × FieldClass))
    (ctx : ParseContext) :
    parseStructFields [] ((name, c) :: fields) ctx = (c.parse ctx >>= fun layout =>
      parseStructFields [] fields ctx >>= fun layouts => pure ((.field name, layout) :: layouts)) := by
  simp only [parseStructFields, List.not_mem_nil, if_false, pure_bind]

theorem parseStructFields_names {fields : List (PyStr × FieldClass)} {ctx : ParseContext}
    {s r : BinaryStream} {cs : List (FieldName × Layout)}
    (h : parseStructFields [] fields ctx s = .ok (cs, r)) :
    cs.map (·.1) = fields.map fun f => FieldName.field f.1 := by
  induction fields generalizing s r cs with
  | nil =>
    obtain ⟨rfl, -⟩ := Prod.mk.inj (Except.ok.inj h)
    rfl
  | cons f fields ih =>
    rw [parseStructFields_cons] at h
    obtain ⟨c, u, -, h⟩ := bind_eq_ok h
    obtain ⟨cs', u', hcs, h⟩ := bind_eq_ok h
    obtain ⟨rfl, -⟩ := Prod.mk.inj (Except.ok.inj h)
    rw [List.map_cons, List.map_cons, ih hcs]

/-- The values of the fields were each read of an attribute. -/
theorem structFieldsToPython_ok {client : Option Client} {o : CObject}
    {fields : List (PyStr × WireClass)} {acc result : List (PyStr × PyValue)}
    (h : structFieldsToPython client o (fields.map fun f => (f.1, .plain f.2)) acc = .ok result) :
    ∃ xs, result = dictUpdate acc ((fields.map (·.1)).zip xs) ∧
      List.Forall₂ (fun f x => ∃ part, o.attr (.field f.1) = .ok part ∧
        f.2.toPython client part = .ok x) fields xs := by
  induction fields generalizing acc with
  | nil =>
    obtain rfl := Except.ok.inj h
    exact ⟨[], rfl, .nil⟩
  | cons f fields ih =>
    obtain ⟨part, hpart, h⟩ := except_bind_eq_ok.mp h
    obtain ⟨x, hx, h⟩ := except_bind_eq_ok.mp h
    obtain ⟨xs, rfl, hxs⟩ := ih h
    exact ⟨x :: xs, rfl, .cons ⟨part, hpart, hx⟩ hxs⟩

/-- What a structure has made of its fields, if it has kept their order. -/
theorem structFieldsToPython_values (fields : List (PyStr × WireClass × PyValue))
    {client : Option Client} {o : CObject} (hnd : (fields.map (·.1)).Nodup)
    (h : structFieldsToPython client o (fields.map fun f => (f.1, .plain f.2.1)) [] =
      .ok (fields.map fun f => (f.1, f.2.2))) :
    ∀ f ∈ fields, ∃ part, o.attr (.field f.1) = .ok part ∧
      f.2.1.toPython client part = .ok f.2.2 := by
  have hplain : fields.map (fun f => (f.1, FieldClass.plain f.2.1)) =
      (fields.map fun f => (f.1, f.2.1)).map fun f => (f.1, .plain f.2) := by
    rw [List.map_map]
    rfl
  rw [hplain] at h
  obtain ⟨xs, hxs, hall⟩ := structFieldsToPython_ok h
  have hlen : xs.length = fields.length := by simpa using hall.length_eq.symm
  have hmap : (fields.map fun f => (f.1, f.2.1)).map (·.1) = fields.map (·.1) := by simp
  rw [hmap, dictUpdate_nil_iff.mpr (by rwa [List.map_fst_zip (by simp [hlen])])] at hxs
  have hvalues : xs = fields.map fun f => f.2.2 := by
    have hsnd := congrArg (List.map Prod.snd) hxs
    rw [List.map_snd_zip (by simp [hlen]), List.map_map] at hsnd
    exact hsnd.symm
  rwa [hvalues, List.forall₂_map_left_iff, List.forall₂_map_right_iff, List.forall₂_same] at hall

/-- What a structure makes of its fields stands under their names. -/
theorem structFieldsToPython_keys {client : Option Client} {o : CObject}
    {fields : List (PyStr × FieldClass)} {acc result : List (PyStr × PyValue)} (hnd : (acc.map (·.1) ++ fields.map (·.1)).Nodup)
    (h : structFieldsToPython client o fields acc = .ok result) :
    result.map (·.1) = acc.map (·.1) ++ fields.map (·.1) := by
  induction fields generalizing acc with
  | nil =>
    rw [Except.ok.inj h, List.map_nil, List.append_nil]
  | cons f fields ih =>
    obtain ⟨part, -, h⟩ := except_bind_eq_ok.mp h
    obtain ⟨x, -, h⟩ := except_bind_eq_ok.mp h
    have hfresh : f.1 ∉ acc.map (·.1) := fun hmem =>
      (List.nodup_append.mp hnd).2.2 f.1 hmem f.1 (by simp) rfl
    have hkeys : (dictSet acc f.1 x).map (·.1) ++ fields.map (·.1) =
        acc.map (·.1) ++ (f :: fields).map (·.1) := by
      rw [dictSet_of_not_mem _ hfresh]
      simp
    rw [ih (hkeys ▸ hnd) h, hkeys]

/-- A field with its name, its class, its bytes and its value. -/
abbrev PlainField := PyStr × WireClass × Bytes × PyValue

variable {fields : List PlainField} {Gs : PlainField → Prop} {client : Client}

/-- What a structure has read of its fields is what was read of the parts of it. -/
theorem forall₂_parts {whole parts : List (FieldName × Layout × Bytes)} (hf : Filled whole)
    (hnd : (whole.map (·.1)).Nodup) (hsub : ∀ p ∈ parts, p ∈ whole)
    (hnames : parts.map (·.1) = fields.map fun f => FieldName.field f.1)
    (h : ∀ f ∈ fields, ∃ part, CObject.attr (ofParts whole) (.field f.1) = .ok part ∧
      f.2.1.toPython client part = .ok f.2.2.2) :
    List.Forall₂ (fun (f : PlainField) p => f.2.1.toPython client ⟨p.2.1, p.2.2⟩ = .ok f.2.2.2)
      fields parts := by
  induction fields generalizing parts with
  | nil =>
    obtain rfl := List.map_eq_nil_iff.mp hnames
    exact .nil
  | cons f fields ih =>
    cases parts with
    | nil => cases hnames
    | cons p parts =>
      obtain ⟨hfirst, hnames⟩ := List.cons.inj hnames
      have hname : p.1 = .field f.1 := hfirst
      rw [List.forall_mem_cons] at hsub h
      obtain ⟨part, hpart, hx⟩ := h.1
      have hattr : CObject.attr (ofParts whole) p.1 = .ok ⟨p.2.1, p.2.2⟩ :=
        attr_part hf hnd hsub.1
      rw [hname, hpart] at hattr
      obtain rfl := Except.ok.inj hattr
      exact .cons hx (ih hsub.2 hnames h.2)

/-- The loop over the fields: the first one decides where the others are looked for. -/
theorem fields_only (h : ∀ f ∈ fields, Answers I f.2.1 f.2.2.1 f.2.2.2 (Gs f)) {ctx : ParseContext}
    {s r : BinaryStream} {cs : List (FieldName × Layout)}
    (hs : Before I s (fields.flatMap fun f => f.2.2.1)) (hclient : I client)
    (hp : parseStructFields [] (fields.map fun f => (f.1, .plain f.2.1)) ctx s = .ok (cs, r))
    (hfit : s.pos + CType.sizeFields cs ≤ s.buf.length)
    (hpy : List.Forall₂ (fun (f : PlainField) p => f.2.1.toPython client ⟨p.2.1, p.2.2⟩ =
      .ok f.2.2.2) fields (partsAt s.buf s.pos cs)) : ∀ f ∈ fields, Gs f := by
  induction fields generalizing s r cs with
  | nil => simp
  | cons f fields ih =>
    rw [List.forall_mem_cons] at h
    rw [List.flatMap_cons] at hs
    rw [List.map_cons, parseStructFields_cons] at hp
    obtain ⟨c, u, hc, hp⟩ := bind_eq_ok hp
    obtain ⟨cs', u', hcs, hp⟩ := bind_eq_ok hp
    obtain ⟨rfl, -⟩ := Prod.mk.inj (Except.ok.inj hp)
    rw [CType.sizeFields] at hfit
    rw [partsAt] at hpy
    cases hpy with
    | cons hx hpy =>
      have hG : Gs f := h.1.lost client s u c hs.left hclient hc (by omega) hx
      obtain ⟨hsize, hpast, -⟩ := (h.1.kept hG).gives hs.left hc
      refine List.forall_mem_cons.mpr ⟨hG, ih h.2 (hs.right hpast) hcs ?_ ?_⟩
      · rw [hpast.buf, hpast.pos, ← hsize]
        omega
      · rw [hpast.buf, hpast.pos, ← hsize]
        exact hpy

theorem strDict_injective {a b : List (PyStr × PyValue)} (h : strDict a = strDict b) : a = b := by
  refine List.map_injective_iff.mpr ?_ (PyValue.dict.inj h)
  rintro ⟨n, x⟩ ⟨m, y⟩ hxy
  obtain ⟨hn, rfl⟩ := Prod.mk.inj hxy
  obtain rfl := PyValue.str.inj hn
  rfl

variable (fields Gs) in
theorem onlyReads_struct {s : Struct} (hs : s.fields = fields.map fun f => (f.1, .plain f.2.1))
    (hnd : (fields.map (·.1)).Nodup)
    (h : ∀ f ∈ fields, Answers I f.2.1 f.2.2.1 f.2.2.2 (Gs f)) :
    OnlyReads I s.wireClass (fields.flatMap fun f => f.2.2.1)
      (strDict (fields.map fun f => (f.1, f.2.2.2))) (∀ f ∈ fields, Gs f) := by
  intro client stream r c hbefore hclient hp hfit hpy
  have hnames : (s.fields.flatMap fun f => f.2.conditionFields) = [] := by
    rw [hs, List.flatMap_map]
    exact List.flatMap_eq_nil_iff.mpr fun f _ => rfl
  obtain ⟨cs, u, hcs, hp⟩ := bind_eq_ok hp
  obtain ⟨rfl, -⟩ := Prod.mk.inj (Except.ok.inj hp)
  obtain ⟨result, hresult, hdict⟩ := except_bind_eq_ok.mp hpy
  obtain rfl := strDict_injective (Except.ok.inj hdict)
  rw [hnames, hs] at hcs
  rw [CType.size, ← ofParts_partsAt, hs] at hresult
  have hall := structFieldsToPython_values (fields.map fun f => (f.1, f.2.1, f.2.2.2))
    (by simpa [Function.comp_def] using hnd) (by simpa [Function.comp_def] using hresult)
  rw [List.forall_mem_map] at hall
  have hparts : (partsAt stream.buf stream.pos cs).map (·.1) =
      fields.map fun f => FieldName.field f.1 := by
    have hfst := congrArg (List.map Prod.fst) (partsAt_layouts stream.buf stream.pos cs)
    rw [List.map_map] at hfst
    refine hfst.trans ((parseStructFields_names hcs).trans ?_)
    rw [List.map_map]
    rfl
  have hfilled := partsAt_filled hfit
  refine fields_only h hbefore hclient hcs hfit (forall₂_parts hfilled ?_ (fun _ hp => hp) hparts hall)
  have hinj := hnd.map (f := FieldName.field) fun a b hab => FieldName.field.inj hab
  rw [List.map_map] at hinj
  rw [hparts]
  exact hinj

/-! ### Counted elements -/

variable {value : α → PyValue} {bytes : α → Bytes} {Ge : α → Prop} {xs : List α}

theorem elements_only (h : ∀ x ∈ xs, Answers I w (bytes x) (value x) (Ge x)) {i : ℕ}
    {s r : BinaryStream} {ls : List Layout} (hs : Before I s (xs.map bytes).flatten)
    (hclient : I client) (hp : parseElements w.parse i xs.length s = .ok (named i ls, r))
    (hfit : s.pos + CType.sizeFields (named i ls) ≤ s.buf.length)
    (hpy : (objectsAt s.buf s.pos ls).mapM (w.toPython client) = .ok (xs.map value)) :
    ∀ x ∈ xs, Ge x := by
  induction xs generalizing i s r ls with
  | nil => simp
  | cons x xs ih =>
    rw [List.forall_mem_cons] at h
    rw [List.map_cons, List.flatten_cons] at hs
    obtain ⟨c, u, hc, hp⟩ := bind_eq_ok hp
    obtain ⟨cs, u', hcs, hp⟩ := bind_eq_ok hp
    cases ls with
    | nil => cases hp
    | cons c' ls =>
      rw [named_cons] at hp hfit
      obtain ⟨⟨⟩, rfl⟩ := Prod.mk.inj (Except.ok.inj hp)
      rw [CType.sizeFields] at hfit
      obtain ⟨y, ys, hy, hys, hxs⟩ := mapM_cons_ok.mp hpy
      obtain ⟨rfl, rfl⟩ := List.cons.inj hxs
      have hG : Ge x := h.1.lost client s u c hs.left hclient hc (by omega) hy
      obtain ⟨hsize, hpast, -⟩ := (h.1.kept hG).gives hs.left hc
      refine List.forall_mem_cons.mpr ⟨hG, ih h.2 (hs.right hpast) hcs ?_ ?_⟩
      · rw [hpast.buf, hpast.pos, ← hsize]
        omega
      · rw [hpast.buf, hpast.pos, ← hsize]
        exact hys

/-- What an array of structures has parsed behind a length: that many elements, wherever the length
counts as negative or not. -/
theorem structArray_parsed {a : StructArray} {n : ℕ} {rest : Bytes} {s r : BinaryStream} {c : Layout}
    (hbefore : Before I s (Scalar.int.store n ++ rest)) (hn : n < 2 ^ 32)
    (hp : a.wireClass.parse s = .ok (c, r)) (hfit : s.pos + c.size ≤ s.buf.length) :
    ∃ ls u, ls.length = n ∧ parseElements (Struct.parse ⟨a.following, []⟩) 0 n
        (s.skip (Scalar.int.store (n : ℤ)).length) = .ok (named 0 ls, u) ∧
      s.pos + (Scalar.int.store (n : ℤ)).length + CType.sizeFields (named 0 ls) ≤ s.buf.length ∧
      (⟨c, sliceAt s.buf s.pos c.size⟩ : CObject) = ofParts ([scalarPart .length .int n] ++
        elementFields (objectsAt s.buf (s.pos + (Scalar.int.store (n : ℤ)).length) ls)) := by
  have hlength : peekLength 0 s = .ok (n, s) := by
    rw [peekLength_mod hbefore.emptyView (by simpa using hbefore.at_pos.left), Nat.mod_eq_of_lt hn]
  have hsize : CType.sizeFields [((.length : FieldName), (.scalar .int : Layout))] =
      (Scalar.int.store (n : ℤ)).length := by
    rw [Scalar.store_length]
    rfl
  have hparse : a.wireClass.parse s = (parseElements (Struct.parse ⟨a.following, []⟩) 0 n >>=
      fun es => pure (.struct ([(.length, .scalar .int)] ++ es)))
        (s.skip (Scalar.int.store (n : ℤ)).length) := by
    rw [← hsize]
    exact bind_ok hlength
  rw [hparse] at hp
  obtain ⟨es, u, hes, hp⟩ := bind_eq_ok hp
  obtain ⟨rfl, -⟩ := Prod.mk.inj (Except.ok.inj hp)
  obtain ⟨ls, hls, rfl⟩ := parseElements_named hes
  have hobject := container_object (lengthHeader_isHeader n).filled ls
    (by simpa [scalarPart] using hbefore.at_pos.left)
  have hbytes : [scalarPart (.length : FieldName) .int n].flatMap (fun p => p.2.2) =
      Scalar.int.store n := by simp [scalarPart]
  rw [hbytes] at hobject
  rw [CType.size, CType.sizeFields_append, hsize, ← Nat.add_assoc] at hfit
  exact ⟨ls, u, hls, hes, hfit, hobject⟩

theorem onlyReads_structArray {a : StructArray}
    (h : ∀ x ∈ xs, Answers I (Struct.wireClass ⟨a.following, []⟩) (bytes x) (value x) (Ge x))
    (hlen : xs.length < 2 ^ 31) :
    OnlyReads I a.wireClass (Scalar.int.store xs.length ++ (xs.map bytes).flatten)
      (.list (xs.map value)) (∀ x ∈ xs, Ge x) := by
  intro client s r c hbefore hclient hp hfit hpy
  obtain ⟨ls, u, hls, hes, hfit, hobject⟩ := structArray_parsed hbefore (by omega) hp hfit
  rw [hobject] at hpy
  obtain ⟨ys, hys, hlist⟩ := except_bind_eq_ok.mp hpy
  obtain rfl := PyValue.list.inj (Except.ok.inj hlist)
  have hos : (objectsAt s.buf (s.pos + (Scalar.int.store (xs.length : ℤ)).length) ls).length =
      xs.length := objectsAt_length.trans hls
  rw [elementsToPython_eq _ (lengthHeader_isHeader xs.length) (objectsAt_fits 0 hfit) (hos ▸ hlen)
    (by simp [hls])] at hys
  exact elements_only (w := Struct.wireClass ⟨a.following, []⟩) h
    (hbefore.right (hbefore.left.skip _)) hclient hes hfit hys

/-- A length that counts as negative is read as an empty list. -/
theorem onlyReads_long {a : StructArray} {n : ℕ} {rest : Bytes} (hlong : 2 ^ 31 ≤ n)
    (hn : n < 2 ^ 32) {ys : List PyValue} (hys : ys ≠ []) :
    OnlyReads I a.wireClass (Scalar.int.store n ++ rest) (.list ys) False := by
  intro client s r c hbefore _ hp hfit hpy
  obtain ⟨ls, u, -, -, hfit, hobject⟩ := structArray_parsed hbefore hn hp hfit
  rw [hobject] at hpy
  obtain ⟨zs, hzs, hlist⟩ := except_bind_eq_ok.mp hpy
  rw [elementsToPython_long (lengthHeader_isHeader n) (objectsAt_fits 0 hfit) hlong hn
    (by simp)] at hzs
  obtain rfl := Except.ok.inj hzs
  exact hys (PyValue.list.inj (Except.ok.inj hlist)).symm

end Only

/-! ### Classes that are settled -/

section Settled
variable {α : Type} {cl : Client} {w : WireClass} {v : PyValue} {data : Bytes} {G : Prop}

/-- A client with the same classes and footers. -/
abbrev SameClient (cl : Client) : Client → Prop := SameRegistry cl cl.compactFooter

theorem lasting_ready (cl : Client) : Lasting (Ready cl) := ⟨fun _ h => h.emptyView, fun _ d h => h.put d⟩

/-- The class refuses the value, or writes it as bytes that are read as the same value exactly
under the condition `G`. -/
inductive Settled (cl : Client) (w : WireClass) (v : PyValue) (G : Prop) : Prop
  | refused (h : Refuses w v) (hG : ¬G)
  | written {data : Bytes} (hw : WritesOn (Ready cl) w v data)
      (ha : Answers (SameClient cl) w data v G)

theorem settled_of_reads (hw : WritesOn (Ready cl) w v data) (hr : Reads (SameClient cl) w data v) :
    Settled cl w v True :=
  .written hw ⟨fun _ => hr, fun _ _ _ _ _ _ _ _ _ => trivial⟩

theorem Settled.iff {G' : Prop} (h : Settled cl w v G) (hG : G ↔ G') : Settled cl w v G' :=
  propext hG ▸ h

/-- One reading is enough. -/
theorem Answers.of_reads {I : Client → Prop} {client : Client} (h : Answers I w data v G)
    (hr : Reads I w data v) (hclient : I client) : G := by
  have hbefore : Before I ⟨client, data, 0, false⟩ data := ⟨rfl, hclient, List.prefix_refl _⟩
  obtain ⟨c, r, hp, -, hsize, -⟩ := hr _ hbefore
  refine h.lost client _ r c hbefore hclient hp ?_ ((hr.gives hbefore hp).2.2 client hclient)
  show 0 + c.size ≤ data.length
  omega

theorem ready_empty (cl : Client) : Ready cl ⟨cl, [], 0, false⟩ := ⟨rfl, rfl⟩

theorem put_injective {s : BinaryStream} {d d' : Bytes} (h : s.put d = s.put d') : d = d' :=
  (Wrote.put s d).unique (h ▸ Wrote.put s d')

/-- A value is settled in one way. -/
theorem Settled.unique {G' : Prop} (h : Settled cl w v G) (h' : Settled cl w v G') : G ↔ G' := by
  cases h with
  | refused href hG =>
    cases h' with
    | refused _ hG' => exact iff_of_false hG hG'
    | written hw _ =>
      obtain ⟨e, he⟩ := href _
      obtain ⟨v', hv'⟩ := hw _ (ready_empty cl)
      cases he.symm.trans hv'
  | written hw ha =>
    obtain ⟨v', hv'⟩ := hw _ (ready_empty cl)
    cases h' with
    | refused href _ =>
      obtain ⟨e, he⟩ := href _
      cases he.symm.trans hv'
    | written hw' ha' =>
      obtain ⟨v'', hv''⟩ := hw' _ (ready_empty cl)
      obtain rfl := put_injective (Prod.mk.inj (Except.ok.inj (hv'.symm.trans hv''))).2
      exact ⟨fun hG => ha'.of_reads (ha.kept hG) ⟨rfl, rfl⟩,
        fun hG => ha.of_reads (ha'.kept hG) ⟨rfl, rfl⟩⟩

/-- Every default has its value already. -/
theorem setDefaults_strDict {defaults kvs : List (PyStr × PyValue)}
    (h : ∀ d ∈ defaults, d.1 ∈ kvs.map (·.1)) : setDefaults defaults (strDict kvs) = .ok (strDict kvs) := by
  induction defaults with
  | nil => rfl
  | cons d defaults ih =>
    rw [List.forall_mem_cons] at h
    obtain ⟨p, hp, hname⟩ := List.mem_map.mp h.1
    have hthere : (kvs.map fun p => (PyValue.str p.1, p.2)).any
        (fun p => p.1.hashKey == some (.str d.1)) = true := by
      rw [List.any_eq_true]
      exact ⟨_, List.mem_map_of_mem hp, by simp [PyValue.hashKey, hname]⟩
    have hset : (strDict kvs).setDefault d.1 d.2 = .ok (strDict kvs) := if_pos hthere
    rw [setDefaults, List.foldlM_cons, hset]
    exact ih h.2

/-- The fields of a structure with their classes and values. -/
abbrev Entries := List (PyStr × WireClass × PyValue)

def Entries.value (entries : Entries) : PyValue := strDict (entries.map fun e => (e.1, e.2.2))

/-- One of the entries is refused, or every one is written. -/
theorem Settled.all {entries : Entries} {Gs : PyStr × WireClass × PyValue → Prop}
    (h : ∀ e ∈ entries, Settled cl e.2.1 e.2.2 (Gs e)) :
    (∃ e ∈ entries, Refuses e.2.1 e.2.2 ∧ ¬Gs e) ∨
      ∃ bytes : PyStr × WireClass × PyValue → Bytes, ∀ e ∈ entries,
        WritesOn (Ready cl) e.2.1 e.2.2 (bytes e) ∧
          Answers (SameClient cl) e.2.1 (bytes e) e.2.2 (Gs e) := by
  by_cases hrefused : ∃ e ∈ entries, Refuses e.2.1 e.2.2 ∧ ¬Gs e
  · exact .inl hrefused
  · have hwritten : ∀ e ∈ entries, ∃ data, WritesOn (Ready cl) e.2.1 e.2.2 data ∧
        Answers (SameClient cl) e.2.1 data e.2.2 (Gs e) := fun e he => by
      cases h e he with
      | refused href hG => exact absurd ⟨e, he, href, hG⟩ hrefused
      | written hw ha => exact ⟨_, hw, ha⟩
    choose! bytes hbytes using hwritten
    exact .inr ⟨bytes, hbytes⟩

/-- A structure refuses a dict of which one of its fields refuses a value. -/
theorem refuses_struct {s : Struct} (fields : Entries)
    (hs : s.fields = fields.map fun f => (f.1, .plain f.2.1))
    (hdefaults : ∀ d ∈ s.defaults, d.1 ∈ fields.map (·.1)) (hnd : (fields.map (·.1)).Nodup)
    {f : PyStr × WireClass × PyValue} (hf : f ∈ fields) (href : Refuses f.2.1 f.2.2) :
    Refuses s.wireClass (strDict (fields.map fun f => (f.1, f.2.2))) := by
  intro stream
  have hset : setDefaults s.defaults (strDict (fields.map fun f => (f.1, f.2.2))) =
      .ok (strDict (fields.map fun f => (f.1, f.2.2))) :=
    setDefaults_strDict (by simpa [Function.comp_def] using hdefaults)
  have hitem : (strDict (fields.map fun f => (f.1, f.2.2))).item f.1 = .ok f.2.2 :=
    item_strDict (by simpa [Function.comp_def] using hnd) (List.mem_map_of_mem hf)
  have hmem : (f.1, FieldClass.plain f.2.1) ∈ s.fields := hs ▸ List.mem_map_of_mem hf
  obtain ⟨e, he⟩ := writeStructFields_refused (by simpa [hs, Function.comp_def] using hnd) hmem
    hitem href stream
  have hrun : (setDefaults s.defaults (strDict (fields.map fun f => (f.1, f.2.2)))).map
      (fun v => (v, stream)) = .ok (strDict (fields.map fun f => (f.1, f.2.2)), stream) := by
    rw [hset]
    rfl
  exact ⟨e, (bind_ok hrun).trans he⟩

/-- A structure gives its values back exactly where all its fields do. -/
theorem settled_struct {s : Struct} (fields : List (PyStr × WireClass × PyValue))
    {Gs : PyStr × WireClass × PyValue → Prop}
    (hs : s.fields = fields.map fun f => (f.1, .plain f.2.1))
    (hdefaults : ∀ d ∈ s.defaults, d.1 ∈ fields.map (·.1)) (hnd : (fields.map (·.1)).Nodup)
    (h : ∀ f ∈ fields, Settled cl f.2.1 f.2.2 (Gs f)) :
    Settled cl s.wireClass (strDict (fields.map fun f => (f.1, f.2.2))) (∀ f ∈ fields, Gs f) := by
  have hset : setDefaults s.defaults (strDict (fields.map fun f => (f.1, f.2.2))) =
      .ok (strDict (fields.map fun f => (f.1, f.2.2))) :=
    setDefaults_strDict (by simpa [Function.comp_def] using hdefaults)
  have hitems : ∀ f ∈ fields, (strDict (fields.map fun f => (f.1, f.2.2))).item f.1 = .ok f.2.2 :=
    fun f hf => item_strDict (by simpa [Function.comp_def] using hnd) (List.mem_map_of_mem hf)
  rcases Settled.all h with ⟨f, hf, href, hG⟩ | ⟨bytes, hbytes⟩
  · exact .refused (refuses_struct fields hs hdefaults hnd hf href) fun hall => hG (hall f hf)
  · have hw := fun f hf => (hbytes f hf).1
    have ha := fun f hf => (hbytes f hf).2
    have hwrite := writesOn_struct (lasting_ready cl) (s := s)
      (fields.map fun f => (f.1, f.2.1, f.2.2, bytes f)) (by rw [hs, List.map_map]; rfl) hset
      (List.forall_mem_map.mpr hw) (List.forall_mem_map.mpr hitems)
      (by simpa [Function.comp_def] using hnd)
    rw [List.flatMap_map] at hwrite
    have hnd' : ((fields.map fun f => (f.1, f.2.1, bytes f, f.2.2)).map (·.1)).Nodup := by
      simpa [Function.comp_def] using hnd
    have hfields : s.fields = (fields.map fun f => (f.1, f.2.1, bytes f, f.2.2)).map
        fun f => (f.1, .plain f.2.1) := by
      rw [hs, List.map_map]
      rfl
    refine .written hwrite ⟨fun hG => ?_, ?_⟩
    · have hread := reads_plainStruct (I := SameClient cl) _ hfields
        (List.forall_mem_map.mpr fun f hf => (ha f hf).kept (hG f hf)) hnd'
      simpa [List.flatMap_map, Function.comp_def] using hread
    · have hanswers : ∀ f ∈ fields.map fun f => (f.1, f.2.1, bytes f, f.2.2),
          Answers (SameClient cl) f.2.1 f.2.2.1 f.2.2.2 (Gs (f.1, f.2.1, f.2.2.2)) :=
        List.forall_mem_map.mpr ha
      have honly := onlyReads_struct _ _ hfields hnd' hanswers
      rw [List.forall_mem_map, List.flatMap_map, List.map_map] at honly
      exact honly

/-- A structure whose fields all give their values back. -/
theorem settled_struct_true {s : Struct} (fields : List (PyStr × WireClass × PyValue))
    (hs : s.fields = fields.map fun f => (f.1, .plain f.2.1))
    (hdefaults : ∀ d ∈ s.defaults, d.1 ∈ fields.map (·.1)) (hnd : (fields.map (·.1)).Nodup)
    (h : ∀ f ∈ fields, Settled cl f.2.1 f.2.2 True) :
    Settled cl s.wireClass (strDict (fields.map fun f => (f.1, f.2.2))) True :=
  (settled_struct fields hs hdefaults hnd h).iff (by simp)

/-- A structure in which it depends on one field. -/
theorem settled_struct_one {s : Struct} (fields : List (PyStr × WireClass × PyValue))
    {f : PyStr × WireClass × PyValue} (hf : f ∈ fields)
    (hs : s.fields = fields.map fun f => (f.1, .plain f.2.1))
    (hdefaults : ∀ d ∈ s.defaults, d.1 ∈ fields.map (·.1)) (hnd : (fields.map (·.1)).Nodup)
    (hone : Settled cl f.2.1 f.2.2 G)
    (h : ∀ f' ∈ fields, f'.1 ≠ f.1 → Settled cl f'.2.1 f'.2.2 True) :
    Settled cl s.wireClass (strDict (fields.map fun f => (f.1, f.2.2))) G := by
  suffices hfields : ∀ f' ∈ fields, Settled cl f'.2.1 f'.2.2 (f'.1 = f.1 → G) from
    (settled_struct fields hs hdefaults hnd hfields).iff
      ⟨fun hall => hall f hf rfl, fun hG _ _ _ => hG⟩
  intro f' hf'
  by_cases hname : f'.1 = f.1
  · obtain rfl := List.inj_on_of_nodup_map hnd hf' hf hname
    exact hone.iff ⟨fun hG _ => hG, fun hG => hG rfl⟩
  · exact (h f' hf' hname).iff ⟨fun _ heq => absurd heq hname, fun _ => trivial⟩

/-- A refused element, whatever stands before it. -/
theorem writeElements_refused {a : StructArray} {xs : List PyValue} {x : PyValue} (hx : x ∈ xs)
    (h : Refuses (Struct.wireClass ⟨a.following, a.defaults⟩) x) (s : BinaryStream) :
    ∃ e, a.writeElements xs s = .error e := by
  induction xs generalizing s with
  | nil => cases hx
  | cons y ys ih =>
    cases hwrite : Struct.fromPython ⟨a.following, a.defaults⟩ y s with
    | error e => exact ⟨e, bind_error hwrite⟩
    | ok p =>
      rcases List.mem_cons.mp hx with rfl | hx
      · obtain ⟨e, he⟩ := h s
        have heq : Except.error e = Except.ok p := he.symm.trans hwrite
        cases heq
      · obtain ⟨e, he⟩ := ih hx p.2
        exact ⟨e, (bind_ok hwrite).trans (bind_error he)⟩

theorem refuses_structArray {a : StructArray} {xs : List PyValue} {x : PyValue} (hx : x ∈ xs)
    (h : Refuses (Struct.wireClass ⟨a.following, a.defaults⟩) x) :
    Refuses a.wireClass (.list xs) := by
  intro s
  dsimp only [StructArray.wireClass, StructArray.fromPython]
  rw [PyValue.iterate, ofOption, pure_bind]
  cases hlength : lengthBytes xs.length with
  | none => exact ⟨_, rfl⟩
  | some length =>
    rw [ofOption, pure_bind]
    cases hwrite : write length s with
    | error e => exact ⟨e, bind_error hwrite⟩
    | ok p =>
      obtain ⟨e, he⟩ := writeElements_refused hx h p.2
      exact ⟨e, (bind_ok hwrite).trans (bind_error he)⟩

theorem refuses_long {a : StructArray} {xs : List PyValue} (hlong : 2 ^ 32 ≤ xs.length) :
    Refuses a.wireClass (.list xs) := by
  intro s
  dsimp only [StructArray.wireClass, StructArray.fromPython]
  rw [PyValue.iterate, ofOption, pure_bind, lengthBytes_none hlong]
  exact ⟨_, rfl⟩

/-- An array of structures gives its elements back exactly where its length is not too large for
its field and each of them is given back. -/
theorem settled_structArray_iff {a : StructArray} {value : α → PyValue} {Ge : α → Prop} {xs : List α}
    (h : ∀ x ∈ xs, Settled cl (Struct.wireClass ⟨a.following, a.defaults⟩) (value x) (Ge x)) :
    Settled cl a.wireClass (.list (xs.map value)) (xs.length < 2 ^ 31 ∧ ∀ x ∈ xs, Ge x) := by
  by_cases hrefused : 2 ^ 32 ≤ xs.length ∨
      ∃ x ∈ xs, Refuses (Struct.wireClass ⟨a.following, a.defaults⟩) (value x) ∧ ¬Ge x
  · rcases hrefused with hlong | ⟨x, hx, href, hG⟩
    · exact .refused (refuses_long (by simpa using hlong)) fun hall => by omega
    · exact .refused (refuses_structArray (List.mem_map_of_mem hx) href)
        fun hall => hG (hall.2 x hx)
  · obtain ⟨hlen, hrefused⟩ := not_or.mp hrefused
    have hwritten : ∀ x ∈ xs, ∃ data,
        WritesOn (Ready cl) (Struct.wireClass ⟨a.following, a.defaults⟩) (value x) data ∧
        Answers (SameClient cl) (Struct.wireClass ⟨a.following, []⟩) data (value x) (Ge x) := by
      intro x hx
      cases h x hx with
      | refused href hG => exact absurd ⟨x, hx, href, hG⟩ hrefused
      | written hw ha => exact ⟨_, hw, fun hG => ha.kept hG, ha.lost⟩
    choose! bytes hw ha using hwritten
    have hds : List.Forall₂ (WritesOn (Ready cl) (Struct.wireClass ⟨a.following, a.defaults⟩))
        (xs.map value) (xs.map bytes) := by
      rw [List.forall₂_map_left_iff, List.forall₂_map_right_iff, List.forall₂_same]
      exact hw
    have hwrite := writesOn_structArray (lasting_ready cl) (a := a) (v := .list (xs.map value)) rfl
      hds (by rw [List.length_map]; omega)
    rw [List.length_map] at hwrite
    by_cases hshort : xs.length < 2 ^ 31
    · refine .written hwrite ⟨fun hG => ?_, fun client s r c hbefore hclient hp hfit hpy =>
        ⟨hshort, onlyReads_structArray ha hshort client s r c hbefore hclient hp hfit hpy⟩⟩
      have hread := reads_each (a := a) (fun x hx => (ha x hx).kept (hG.2 x hx)) hshort
      rwa [List.length_map] at hread
    · have hne : xs.map value ≠ [] := by
        rintro hnil
        rw [List.map_eq_nil_iff.mp hnil] at hshort
        exact hshort (by simp)
      refine .written hwrite ⟨fun hG => absurd hG.1 hshort,
        fun client s r c hbefore hclient hp hfit hpy => ?_⟩
      exact (onlyReads_long (not_lt.mp hshort) (by omega) hne client s r c hbefore hclient hp hfit
        hpy).elim

/-- An array of structures gives its elements back exactly where each of them is given back. -/
theorem settled_structArray {a : StructArray} {value : α → PyValue} {Ge : α → Prop} {xs : List α}
    (h : ∀ x ∈ xs, Settled cl (Struct.wireClass ⟨a.following, a.defaults⟩) (value x) (Ge x))
    (hlen : xs.length < 2 ^ 31) :
    Settled cl a.wireClass (.list (xs.map value)) (∀ x ∈ xs, Ge x) :=
  (settled_structArray_iff h).iff (and_iff_right hlen)

theorem settled_primitive {s : Scalar} {i : ℤ} (hi : s.Range i) :
    Settled cl (primitive s) (.int i) True :=
  settled_of_reads ((writesAs_primitive rfl hi).writesOn (lasting_ready cl)) (reads_primitive hi)

theorem settled_bool (b : Bool) : Settled cl boolClass (.bool b) True :=
  settled_of_reads ((writesAs_bool (.bool b)).writesOn (lasting_ready cl)) (reads_bool b)

/-! ### Texts -/

variable [Python] [OtherCodecs]

/-- A text that its class gives back as it was. -/
def Legible (x : PyStr) : Prop := '\x00' ∉ x ∧ (utf8Encode x).length < 2 ^ 31

omit [Python] [OtherCodecs] in
theorem legible_iff {x : PyStr} : Legible x ↔ (PyValue.str x).Kept := kept_str_iff.symm

theorem settled_str (x : PyStr) : Settled cl (wireClass .string) (.str x) (Legible x) := by
  obtain ⟨hback, honly⟩ := (known_str x).1
  have hne : stringBytes x ≠ [] := by simp [stringBytes]
  refine .written ((writesAs_str x).writesOn (lasting_ready cl)) ⟨fun hx => ?_, ?_⟩
  · obtain ⟨y, hread, hstands⟩ := hback (legible_iff.mp hx)
    obtain rfl := hstands.scalar rfl
    exact (hread.classReadsAs hne).reads
  · intro client s r c hbefore _ hparse hfit hpy
    have hlen := hbefore.at_pos.length_le hne
    obtain ⟨m, hm, hdm⟩ : ∃ m, (sliceAt s.buf s.pos c.size).length + 1 ≤ m ∧
        (stringBytes x).length ≤ m := ⟨_, le_max_left _ _, le_max_right _ _⟩
    have hx : (classReader .string).toPython client m ⟨c, sliceAt s.buf s.pos c.size⟩ =
        .ok (.str x) := toPythonN_extends (some client) hm _ _ _ hpy
    have hn : (stringBytes x).length ≤ s.buf.length + 1 := by omega
    exact legible_iff.mpr (honly hbefore.emptyView hbefore.at_pos hn hdm hparse hfit hx rfl)

theorem settled_no_str : Settled cl (wireClass .string) .none True := by
  have hv : Encodable cl cl.compactFooter .string .none := .none _
  have hread := hv.reads (by simp [SchemasFound, objects])
  have hsame : decoded Scalar.byte.wrap .string .none = .none := by simp [decoded]
  rw [hsame] at hread
  exact settled_of_reads
    (fun s hs => ⟨_, fromPython_ok hv (headersOwn_of_no_objects (by simp [objects])) hs⟩) hread

/-- A text, or `None`. -/
theorem settled_str? (s : Option PyStr) :
    Settled cl (wireClass .string) (.ofStr? s) (∀ x ∈ s, Legible x) := by
  cases s with
  | none => exact settled_no_str.iff (by simp)
  | some x => exact (settled_str x).iff (by simp)

/-! ### Values without a hint -/

/-- A value that the inference finds the class of, and that this class gives back as it was. -/
def Recognized (cl : Client) (v : PyValue) : Prop :=
  ∃ t, v.mapPythonType = .ok t ∧ Encodable cl cl.compactFooter t v ∧ SchemasFound t v ∧
    HeadersOwn t v ∧ decoded Scalar.byte.wrap t v = v

theorem Recognized.settled (h : Recognized cl v) : Settled cl anyDataObject v True := by
  obtain ⟨t, ht, hv, hs, hheaders, hdecoded⟩ := h
  have hread := hv.readsAny hs
  rw [hdecoded] at hread
  refine settled_of_reads (fun s hready => ?_) hread
  have hmap : (v.mapPythonType).map (fun t => (t, s)) = .ok (t, s) := by
    rw [ht]
    rfl
  exact ⟨_, (bind_ok hmap).trans (fromPython_ok hv hheaders hready)⟩

open PyValue in
/-- A plain value is given back as it was exactly if it is `Restored`. -/
theorem settled_plain (hp : Plain v) : Settled cl anyDataObject v (Restored v) := by
  by_cases hw : Writable v
  · obtain ⟨d, hne, hput, honly⟩ := writable_onlyKept hw hp
    have hback : ∀ hv : Kept v, ∃ x, Recovers anyReader d (.ok x) ∧ (x = v ↔ Restored v) := by
      intro hv
      obtain ⟨x, ⟨d', -, hput', hread⟩, -, hx⟩ := kept_comesBack hv hp
      exact ⟨x, hput.unique hput' hne hp.not_hinted ▸ hread, hx⟩
    refine .written ((hput.writesAs hp.not_hinted).writesOn (lasting_ready cl)) ⟨fun hr => ?_, ?_⟩
    · obtain ⟨x, hread, hx⟩ := hback hr.kept
      obtain rfl := hx.mpr hr
      exact (hread.anyReadsAs hne).reads
    · intro client s r c hbefore _ hparse hfit hpy
      have hlen := hbefore.at_pos.length_le hne
      -- the nesting may be bounded by more than what stands there
      obtain ⟨m, hm, hdm⟩ : ∃ m, (sliceAt s.buf s.pos c.size).length + 1 ≤ m ∧ d.length ≤ m :=
        ⟨_, le_max_left _ _, le_max_right _ _⟩
      have hx : anyReader.toPython client m ⟨c, sliceAt s.buf s.pos c.size⟩ = .ok v :=
        anyToPython_extends (toPythonN_extends (some client) hm) _ _ hpy
      have hn : d.length ≤ s.buf.length + 1 := by omega
      have hkept := honly hbefore.emptyView hbefore.at_pos hn hdm hparse hfit hx rfl
      obtain ⟨x, hread, hrestored⟩ := hback hkept
      obtain ⟨-, -, hgives⟩ := hread.gives hn hdm hbefore.emptyView hbefore.at_pos hparse client
      exact hrestored.mp (Except.ok.inj (hgives.symm.trans hx))
  · refine .refused (fun s => ?_) fun hr => ?_
    · cases hrun : anyDataObject.fromPython v s with
      | error e => exact ⟨e, rfl⟩
      | ok r =>
        rw [anyDataObject_fromPython hp.not_hinted] at hrun
        exact absurd (writable_of_ok hp hrun) hw
    · obtain ⟨x, ⟨d, hne, hput, -⟩, -⟩ := kept_comesBack hr.kept hp
      obtain ⟨v', hrun⟩ := hput.writesAs hp.not_hinted ⟨someClient, [], 0, false⟩ rfl
      rw [anyDataObject_fromPython hp.not_hinted] at hrun
      exact hw (writable_of_ok hp hrun)

end Settled

end PyGridGain
