import PyGridGain.Codec.Leaves

/-! Structures of data classes are written field by field: the bytes of the classes one after
another. -/

namespace PyGridGain

open StreamM

/-! ### Values of a dict -/

section Items
variable {v x y : PyValue} {name name' : PyStr}

theorem item_setItem_ne (h : name ≠ name') : (v.setItem name x).item name' = v.item name' := by
  cases v with
  | dict kvs =>
    have hkey : ((fun p : PyValue × PyValue => p.1.hashKey == some (Key.str name')) ∘
        fun p => if p.1.hashKey == some (.str name) then (p.1, x) else p) =
        fun p => p.1.hashKey == some (.str name') := by
      funext p
      dsimp only [Function.comp_apply]
      split_ifs <;> rfl
    dsimp only [PyValue.setItem, PyValue.item]
    rw [List.find?_map, hkey]
    cases hfind : kvs.find? fun p => p.1.hashKey == some (.str name') with
    | none => rfl
    | some p =>
      have hp : p.1.hashKey = some (.str name') := by simpa using List.find?_some hfind
      have hne : ¬(p.1.hashKey == some (Key.str name)) = true := by simpa [hp] using Ne.symm h
      simp only [Option.map_some, if_neg hne]
  | _ => rfl

theorem item_strDict {kvs : List (PyStr × PyValue)} (hnd : (kvs.map (·.1)).Nodup)
    (h : (name, x) ∈ kvs) : (strDict kvs).item name = .ok x := by
  have hfind : (kvs.map fun p => (PyValue.str p.1, p.2)).find?
      (fun p => p.1.hashKey == some (.str name)) = some (.str name, x) := by
    induction kvs with
    | nil => simp at h
    | cons p kvs ih =>
      obtain ⟨hnot, hnd⟩ := List.nodup_cons.mp hnd
      rcases List.mem_cons.mp h with rfl | h
      · simp [PyValue.hashKey]
      · have hne : p.1 ≠ name := by
          rintro rfl
          exact hnot (List.mem_map.mpr ⟨_, h, rfl⟩)
        rw [List.map_cons, List.find?_cons_of_neg (by simpa [PyValue.hashKey] using hne), ih hnd h]
  unfold strDict PyValue.item
  simp only [hfind]

theorem item_strDict_absent {kvs : List (PyStr × PyValue)}
    (h : name ∉ kvs.map (·.1)) : (strDict kvs).item name = raise .keyError := by
  have hfind : (kvs.map fun p => (PyValue.str p.1, p.2)).find?
      (fun p => p.1.hashKey == some (.str name)) = none := by
    rw [List.find?_map, Option.map_eq_none_iff, List.find?_eq_none]
    intro p hp heq
    have hname : p.1 = name := by simpa [PyValue.hashKey] using heq
    exact h (hname ▸ List.mem_map_of_mem hp)
  unfold strDict PyValue.item
  simp only [hfind]

end Items

/-! ### Writers -/

/-- What is written without a hint is written by the class that is found. -/
theorem WritesAs.ofClass [Python] [OtherCodecs] {t : DataType} {v : PyValue} {data : Bytes}
    (h : WritesAs anyDataObject v data) (ht : v.mapPythonType = .ok t) :
    WritesAs (wireClass t) v data := by
  intro s hs
  obtain ⟨v', hv'⟩ := h s hs
  have hmap : (v.mapPythonType).map (fun t => (t, s)) = .ok (t, s) := by
    rw [ht]
    rfl
  have hrun : AnyDataObject.fromPython v s = fromPython t v s := bind_ok hmap
  exact ⟨v', hrun.symm.trans hv'⟩

section Writes
variable {w : WireClass} {v : PyValue} {data : Bytes}

theorem writesAs_primitive {s : Scalar} {i : ℤ} (hv : v.toInt? = some i) (hi : s.Range i) :
    WritesAs (primitive s) v (s.store i) := by
  intro stream hs
  have hpack : (packSigned s v).map (fun b => (b, stream)) = .ok (s.store i, stream) := by
    rw [packSigned, hv]
    simp only [if_pos hi]
    rfl
  exact ⟨v, (bind_ok hpack).trans (bind_ok (write_ok hs _))⟩

theorem writesAs_bool (v : PyValue) :
    WritesAs boolClass v (Scalar.byte.store (if v.truthy then 1 else 0)) := by
  intro stream hs
  exact ⟨v, (bind_ok rfl).trans (bind_ok (write_ok hs _))⟩

/-- The class writes these bytes to every stream with `P`. -/
def WritesOn (P : BinaryStream → Prop) (w : WireClass) (v : PyValue) (data : Bytes) : Prop :=
  ∀ s, P s → ∃ v', w.fromPython v s = .ok (v', s.put data)

/-- Streams that can be written to one time after another. -/
structure Lasting (P : BinaryStream → Prop) : Prop where
  emptyView : ∀ s, P s → s.emptyView = false
  put : ∀ s d, P s → P (s.put d)

theorem lasting_emptyView : Lasting fun s => s.emptyView = false := ⟨fun _ h => h, fun _ _ h => h⟩

variable {P : BinaryStream → Prop}

theorem WritesAs.writesOn (hP : Lasting P) (h : WritesAs w v data) : WritesOn P w v data :=
  fun s hs => h s (hP.emptyView s hs)

/-- The loop over the fields of a structure. -/
theorem writeStructFields_writes (hP : Lasting P)
    {fields : List (PyStr × WireClass × PyValue × Bytes)}
    (hwrites : ∀ f ∈ fields, WritesOn P f.2.1 f.2.2.1 f.2.2.2)
    (hitems : ∀ f ∈ fields, v.item f.1 = .ok f.2.2.1) (hnd : (fields.map (·.1)).Nodup)
    {s : BinaryStream} (hs : P s) :
    ∃ v', writeStructFields (fields.map fun f => (f.1, .plain f.2.1)) v s =
      .ok (v', s.put (fields.flatMap fun f => f.2.2.2)) := by
  induction fields generalizing v s with
  | nil => exact ⟨v, by simp [writeStructFields]⟩
  | cons f fields ih =>
    obtain ⟨name, w, x, data⟩ := f
    obtain ⟨hnot, hnd⟩ := List.nodup_cons.mp hnd
    obtain ⟨x', hx'⟩ := hwrites _ List.mem_cons_self s hs
    have hitem : (v.item name).map (fun x => (x, s)) = .ok (x, s) := by
      rw [hitems _ List.mem_cons_self]
      rfl
    have hrest : ∀ f ∈ fields, (v.setItem name x').item f.1 = .ok f.2.2.1 := by
      intro f hf
      rw [item_setItem_ne, hitems f (List.mem_cons_of_mem _ hf)]
      rintro rfl
      exact hnot (List.mem_map.mpr ⟨f, hf, rfl⟩)
    obtain ⟨v', hv'⟩ := ih (fun f hf => hwrites f (List.mem_cons_of_mem _ hf)) hrest hnd
      (hP.put s data hs)
    refine ⟨v', (bind_ok hitem).trans ((bind_ok hx').trans ?_)⟩
    rw [List.flatMap_cons, ← BinaryStream.put_put]
    exact hv'

/-- A field that refuses its value on every stream, whatever stands before it. -/
theorem writeStructFields_refused {name : PyStr} {c : FieldClass}
    {fields : List (PyStr × FieldClass)} {x : PyValue} (hnd : (fields.map (·.1)).Nodup)
    (hmem : (name, c) ∈ fields) (hitem : v.item name = .ok x)
    (h : ∀ s, ∃ e, c.fromPython x s = .error e) (s : BinaryStream) :
    ∃ e, writeStructFields fields v s = .error e := by
  induction fields generalizing v s with
  | nil => cases hmem
  | cons f fields ih =>
    obtain ⟨name', c'⟩ := f
    obtain ⟨hnot, hnd⟩ := List.nodup_cons.mp hnd
    cases hitem' : v.item name' with
    | error e =>
      have hx : (v.item name').map (fun x => (x, s)) = .error e := by
        rw [hitem']
        rfl
      exact ⟨e, bind_error hx⟩
    | ok x' =>
      have hx : (v.item name').map (fun x => (x, s)) = .ok (x', s) := by
        rw [hitem']
        rfl
      cases hwrite : c'.fromPython x' s with
      | error e => exact ⟨e, (bind_ok hx).trans (bind_error hwrite)⟩
      | ok p =>
        obtain ⟨x'', t⟩ := p
        rcases List.mem_cons.mp hmem with heq | hmem
        · obtain ⟨rfl, rfl⟩ := Prod.mk.inj heq
          obtain rfl : x = x' := Except.ok.inj (hitem.symm.trans hitem')
          obtain ⟨e, he⟩ := h s
          rw [he] at hwrite
          cases hwrite
        · have hne : name' ≠ name := by
            rintro rfl
            exact hnot (List.mem_map.mpr ⟨_, hmem, rfl⟩)
          obtain ⟨e, he⟩ := ih hnd hmem (v := v.setItem name' x'')
            ((item_setItem_ne hne).trans hitem) t
          exact ⟨e, (bind_ok hx).trans ((bind_ok hwrite).trans he)⟩

theorem writesOn_struct (hP : Lasting P) {s : Struct}
    (fields : List (PyStr × WireClass × PyValue × Bytes))
    (hs : s.fields = fields.map fun f => (f.1, .plain f.2.1)) {v' : PyValue}
    (hdefaults : setDefaults s.defaults v = .ok v')
    (hwrites : ∀ f ∈ fields, WritesOn P f.2.1 f.2.2.1 f.2.2.2)
    (hitems : ∀ f ∈ fields, v'.item f.1 = .ok f.2.2.1) (hnd : (fields.map (·.1)).Nodup) :
    WritesOn P s.wireClass v (fields.flatMap fun f => f.2.2.2) := by
  intro stream hstream
  obtain ⟨v'', hv''⟩ := writeStructFields_writes hP hwrites hitems hnd hstream
  have hset : (setDefaults s.defaults v).map (fun v => (v, stream)) = .ok (v', stream) := by
    rw [hdefaults]
    rfl
  refine ⟨v'', (bind_ok hset).trans ?_⟩
  rw [hs]
  exact hv''

theorem writesAs_struct {s : Struct} (fields : List (PyStr × WireClass × PyValue × Bytes))
    (hs : s.fields = fields.map fun f => (f.1, .plain f.2.1)) {v' : PyValue}
    (hdefaults : setDefaults s.defaults v = .ok v')
    (hwrites : ∀ f ∈ fields, WritesAs f.2.1 f.2.2.1 f.2.2.2)
    (hitems : ∀ f ∈ fields, v'.item f.1 = .ok f.2.2.1) (hnd : (fields.map (·.1)).Nodup) :
    WritesAs s.wireClass v (fields.flatMap fun f => f.2.2.2) :=
  writesOn_struct lasting_emptyView fields hs hdefaults hwrites hitems hnd

/-- A dict with the values of the fields under their names. -/
theorem writesAs_strDict {s : Struct} (fields : List (PyStr × WireClass × PyValue × Bytes))
    (hs : s.fields = fields.map fun f => (f.1, .plain f.2.1)) (hdefaults : s.defaults = [])
    (hwrites : ∀ f ∈ fields, WritesAs f.2.1 f.2.2.1 f.2.2.2) (hnd : (fields.map (·.1)).Nodup) :
    WritesAs s.wireClass (strDict (fields.map fun f => (f.1, f.2.2.1)))
      (fields.flatMap fun f => f.2.2.2) := by
  refine writesAs_struct fields hs (by rw [hdefaults]; rfl) hwrites (fun f hf => ?_) hnd
  exact item_strDict (by simpa [Function.comp_def] using hnd) (List.mem_map_of_mem hf)

theorem writeElements_writes (hP : Lasting P) {a : StructArray} {xs : List PyValue}
    {ds : List Bytes}
    (h : List.Forall₂ (WritesOn P (Struct.wireClass ⟨a.following, a.defaults⟩)) xs ds)
    {s : BinaryStream} (hs : P s) :
    ∃ xs', a.writeElements xs s = .ok (xs', s.put ds.flatten) := by
  induction h generalizing s with
  | nil => exact ⟨[], by simp [StructArray.writeElements]⟩
  | @cons x d xs ds hx _ ih =>
    obtain ⟨x', hx'⟩ := hx s hs
    obtain ⟨xs', hxs'⟩ := ih (hP.put s d hs)
    refine ⟨x' :: xs', (bind_ok hx').trans ((bind_ok hxs').trans ?_)⟩
    rw [List.flatten_cons, ← BinaryStream.put_put]
    rfl

theorem writesOn_structArray (hP : Lasting P) {a : StructArray} {xs : List PyValue}
    {ds : List Bytes} (hv : v.iterate = some xs)
    (h : List.Forall₂ (WritesOn P (Struct.wireClass ⟨a.following, a.defaults⟩)) xs ds)
    (hlen : ds.length < 2 ^ 32) :
    WritesOn P a.wireClass v (Scalar.int.store ds.length ++ ds.flatten) := by
  intro s hs
  have hlength : lengthBytes xs.length = some (Scalar.int.store ds.length) := by
    rw [h.length_eq, lengthBytes_eq hlen]
  obtain ⟨xs', hxs'⟩ := writeElements_writes hP h (hP.put s (Scalar.int.store ds.length) hs)
  refine ⟨v.refill xs', ?_⟩
  dsimp only [StructArray.wireClass, StructArray.fromPython]
  rw [hv, ofOption, pure_bind, hlength, ofOption, pure_bind,
    bind_ok (write_ok (hP.emptyView s hs) _), bind_ok hxs', BinaryStream.put_put]
  rfl

end Writes

end PyGridGain
