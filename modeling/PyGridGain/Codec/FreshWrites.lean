import PyGridGain.Codec.FreshCaches

/-! The writers do not depend on caches that are what would be written now: alike values
are written alike, and remain so. -/

namespace PyGridGain

open StreamM PyValue

namespace Follows
variable {α β γ : Type} {cf : Bool}

/-- A first step that may return alike results. -/
theorem ofOption_rel {R : α → β → Prop} {x : Option α} {y : Option β} {exc : Exc} {K : γ → Prop}
    {f : α → StreamM γ} {f' : β → StreamM γ} (h : Option.Rel R x y)
    (hf : ∀ a b, x = some a → y = some b → R a b → Follows cf K (f a) (f' b)) :
    Follows cf K (StreamM.ofOption x exc >>= f) (StreamM.ofOption y exc >>= f') := by
  cases h with
  | none =>
    apply of_error
    rintro s a t ⟨⟩
  | some h => exact hf _ _ rfl rfl h

/-- A first step that writes. -/
theorem andThen {K : γ → Prop} {f f' : Unit → StreamM γ} (d : Bytes)
    (hf : Follows cf K (f ()) (f' ())) :
    Follows cf K (StreamM.write d >>= f) (StreamM.write d >>= f') :=
  (write d).bind fun _ _ => hf.mono fun _ hK _ => hK

end Follows

/-! ### Classes without nested values -/

section Leaves
variable {cf : Bool}

/-- A writer that does not look at caches and writes the same to all streams. -/
structure Steady (cf : Bool) (w : PyValue → StreamM Unit) : Prop where
  uncached : ∀ v, w v.uncached = w v
  follows : ∀ v, Follows cf (fun _ => True) (w v) (w v)

theorem Steady.write [Python] [OtherCodecs] {w : PyValue → StreamM Unit} (hw : Steady cf w)
    {v v' : PyValue} (h : v.Alike v') (hv : Fresh cf v) :
    Follows cf (Keeps cf v) (do w v; pure v) (do w v'; pure v') := by
  have heq : w v' = w v := by rw [← hw.uncached v', ← h, hw.uncached]
  rw [heq]
  exact (hw.follows v).bind fun _ _ => Follows.pure fun _ => Keeps.refl hv

theorem writeDataObject_steady (t : DataType) (s : Scalar) : Steady cf (writeDataObject t s) := by
  refine ⟨fun v => by simp only [writeDataObject, toInt?_uncached], fun v => ?_⟩
  exact Follows.ofOption fun i _ => Follows.write _

theorem writeString_steady : Steady cf writeString := by
  refine ⟨fun v => by cases v <;> rfl, fun v => ?_⟩
  cases v with
  | str s => exact Follows.write _
  | bytes b => exact Follows.write _
  | _ => exact Follows.raise _ _

theorem writeUUID_steady : Steady cf writeUUID := by
  refine ⟨fun v => by cases v <;> rfl, fun v => ?_⟩
  cases v with
  | uuid u => exact Follows.write _
  | _ => exact Follows.raise _ _

theorem writeEnum_steady (t : DataType) : Steady cf (writeEnum t) := by
  refine ⟨fun v => ?_, fun v => ?_⟩
  · simp only [writeEnum, unpack2_uncached]
    cases v.unpack2 with
    | none => rfl
    | some p => simp only [Option.map_some, ofOption, pure_bind, toInt?_uncached]
  · exact Follows.ofOption fun p _ => Follows.ofOption fun i _ => Follows.ofOption fun j _ =>
      Follows.write _

theorem writePacked_follows (pack : PyValue → Except PyError Bytes) (xs : List PyValue) :
    Follows cf (fun _ => True) (writePacked pack xs) (writePacked pack xs) := by
  induction xs with
  | nil => exact Follows.pure trivial
  | cons x xs ih => exact Follows.lift fun b _ => Follows.andThen b ih

theorem writePacked_uncached {pack : PyValue → Except PyError Bytes}
    (hpack : ∀ x, pack x.uncached = pack x) (xs : List PyValue) :
    writePacked pack (xs.map PyValue.uncached) = writePacked pack xs := by
  induction xs with
  | nil => rfl
  | cons x xs ih => simp only [List.map_cons, writePacked, hpack, ih]

theorem writePrimitiveArray_steady (t : DataType) {pack : PyValue → Except PyError Bytes}
    (hpack : ∀ x, pack x.uncached = pack x) : Steady cf (writePrimitiveArray t pack) := by
  refine ⟨fun v => ?_, fun v => ?_⟩
  · simp only [writePrimitiveArray, iterate_uncached]
    cases v.iterate with
    | none => rfl
    | some xs =>
      simp only [Option.map_some, ofOption, pure_bind, List.length_map, writePacked_uncached hpack]
  · exact Follows.ofOption fun xs _ => Follows.andThen _ (Follows.ofOption fun b _ =>
      Follows.andThen b (writePacked_follows pack xs))

theorem packSigned_uncached (s : Scalar) (x : PyValue) :
    packSigned s x.uncached = packSigned s x := by
  simp only [packSigned, toInt?_uncached]

theorem packBool_uncached (x : PyValue) : packBool x.uncached = packBool x := by
  simp only [packBool, truthy_uncached]

theorem byteBuffer_uncached (xs : List PyValue) :
    byteBuffer (xs.map PyValue.uncached) = byteBuffer xs := by
  simp only [byteBuffer, List.mapM_map, Function.comp_def, toInt?_uncached]

theorem writeByteArray_steady : Steady cf writeByteArray := by
  refine ⟨fun v => ?_, fun v => ?_⟩
  · cases v with
    | tuple xs | list xs =>
      simp [PyValue.uncached, writeByteArray, PyValue.iterate, ofOption, byteBuffer_uncached]
    | dict kvs =>
      have hkeys := byteBuffer_uncached (kvs.map Prod.fst)
      rw [List.map_map] at hkeys
      simp [PyValue.uncached, writeByteArray, PyValue.iterate, ofOption, ← hkeys, Function.comp_def]
    | _ => rfl
  · refine Follows.ofOption fun xs _ => Follows.andThen _ (Follows.ofOption fun b _ =>
      Follows.andThen b ?_)
    cases v with
    | bytes b => exact Follows.write b
    | _ => exact Follows.lift fun b _ => Follows.write b

theorem codec_steady [OtherCodecs] [PlacedCodecs] (t : OtherType) :
    Steady cf (OtherCodecs.codec t).fromPythonNotNull := by
  refine ⟨PlacedCodecs.uncached t, fun v => ?_⟩
  rcases PlacedCodecs.placed t v with ⟨d, hd⟩ | herror
  · rw [hd]
    exact Follows.write d
  · exact Follows.of_error herror

end Leaves

section Containers
variable [Python] [OtherCodecs] {cf : Bool} {depth : ℕ}
  {rec rec' : DataType → PyValue → StreamM PyValue} {v w : PyValue}

/-- Alike values that are not nested deeper are written alike. -/
def RecFollows (cf : Bool) (depth : ℕ) (rec rec' : DataType → PyValue → StreamM PyValue) : Prop :=
  ∀ t x y, x.Alike y → Fresh cf x → Fresh cf y → x.depth ≤ depth →
    Follows cf (Keeps cf x) (rec t x) (rec' t y)

theorem inferFromPython_follows (hrec : RecFollows cf depth rec rec') (h : v.Alike w)
    (hv : Fresh cf v) (hw : Fresh cf w) (hdepth : v.depth ≤ depth) :
    Follows cf (Keeps cf v) (inferFromPython rec v) (inferFromPython rec' w) := by
  by_cases hhint : ∃ x t, v = .hinted x t
  · obtain ⟨x, t, rfl⟩ := hhint
    obtain ⟨y, rfl, hxy⟩ := h.hinted
    have hx := hrec t x y hxy hv hw ((Nat.le_succ _).trans hdepth)
    exact hx.bind fun a a' => Follows.pure fun ha => ha.hinted t
  · have hv' : ∀ x t, v ≠ .hinted x t := fun x t heq => hhint ⟨x, t, heq⟩
    have hw' : ∀ x t, w ≠ .hinted x t := by
      rintro x t rfl
      obtain ⟨y, rfl, -⟩ := h.symm.hinted
      exact hv' y t rfl
    rw [inferFromPython_other hv', inferFromPython_other hw', ← h.mapPythonType]
    exact Follows.lift fun t _ => hrec t v w h hv hw hdepth

theorem inferAll_follows (hrec : RecFollows cf depth rec rec') {xs ys : List PyValue}
    (h : List.Forall₂ Alike xs ys) (hxs : ∀ x ∈ xs, Fresh cf x ∧ x.depth ≤ depth)
    (hys : ∀ y ∈ ys, Fresh cf y) :
    Follows cf (List.Forall₂ (Keeps cf) xs) (inferAll rec xs) (inferAll rec' ys) := by
  induction h with
  | nil => exact Follows.pure .nil
  | @cons x y xs ys hxy _ ih =>
    obtain ⟨hx, hdepth⟩ := hxs x (by simp)
    have htail := ih (fun z hz => hxs z (by simp [hz])) fun z hz => hys z (by simp [hz])
    apply (inferFromPython_follows hrec hxy hx (hys y (by simp)) hdepth).bind
    intro a a'
    apply htail.bind
    intro as as'
    exact Follows.pure fun has ha => .cons ha has

theorem inferPairs_follows (hrec : RecFollows cf depth rec rec')
    {kvs kvs' : List (PyValue × PyValue)}
    (h : List.Forall₂ (fun p q => p.1.Alike q.1 ∧ p.2.Alike q.2) kvs kvs')
    (hkvs : FreshPairs cf kvs) (hkvs' : FreshPairs cf kvs') (hdepth : depthPairs kvs ≤ depth) :
    Follows cf (List.Forall₂ (fun p q => Keeps cf p.1 q.1 ∧ Keeps cf p.2 q.2) kvs)
      (inferPairs rec kvs) (inferPairs rec' kvs') := by
  induction h with
  | nil => exact Follows.pure .nil
  | @cons p q kvs kvs' hpq _ ih =>
    obtain ⟨k, v⟩ := p
    obtain ⟨k', v'⟩ := q
    obtain ⟨hk, hv, hkvs⟩ := hkvs
    obtain ⟨hk', hv', hkvs'⟩ := hkvs'
    rw [depthPairs, max_le_iff, max_le_iff] at hdepth
    obtain ⟨⟨hdk, hdv⟩, hdepth⟩ := hdepth
    apply (inferFromPython_follows hrec hpq.1 hk hk' hdk).bind
    intro a a'
    apply (inferFromPython_follows hrec hpq.2 hv hv' hdv).bind
    intro b b'
    apply (ih hkvs hkvs' hdepth).bind
    intro as as'
    exact Follows.pure fun has hb ha => .cons ⟨ha, hb⟩ has

theorem writeStandard_follows (hrec : RecFollows cf depth rec rec') (std : DataType)
    {xs ys : List PyValue} (h : List.Forall₂ Alike xs ys)
    (hxs : ∀ x ∈ xs, Fresh cf x ∧ x.depth ≤ depth) (hys : ∀ y ∈ ys, Fresh cf y) :
    Follows cf (fun _ => True) (writeStandard rec std xs) (writeStandard rec' std ys) := by
  induction h with
  | nil => exact Follows.pure trivial
  | @cons x y xs ys hxy _ ih =>
    obtain ⟨hx, hdepth⟩ := hxs x (by simp)
    have htail := ih (fun z hz => hxs z (by simp [hz])) fun z hz => hys z (by simp [hz])
    apply (hrec std x y hxy hx (hys y (by simp)) hdepth).bind
    intro a a'
    exact htail.mono fun _ _ _ => trivial

theorem fresh_iterate {xs : List PyValue} (hv : Fresh cf v) (h : v.iterate = some xs) :
    ∀ x ∈ xs, Fresh cf x := by
  have hcontents : v.contents = xs := by rw [PyValue.contents, h]
  rw [← hcontents]
  exact hv.contents

theorem writeStandardArray_follows (hrec : RecFollows cf (v.depth - 1) rec rec')
    (t std : DataType) (h : v.Alike w) (hv : Fresh cf v) (hw : Fresh cf w) :
    Follows cf (fun _ => True) (writeStandardArray rec t std v)
      (writeStandardArray rec' t std w) := by
  refine Follows.ofOption_rel h.iterate fun xs ys hxs hys hall => Follows.andThen _ ?_
  rw [hall.length_eq]
  refine Follows.ofOption fun b _ => Follows.andThen b ?_
  exact writeStandard_follows hrec std hall
    (fun x hx => ⟨fresh_iterate hv hxs x hx, iterate_depth hxs hx⟩) (fresh_iterate hw hys)

/-- The two parts of a pair that a container class is given. -/
theorem unpack2_fresh {a b : PyValue} (h : v.unpack2 = some (a, b)) (hv : Fresh cf v) :
    Fresh cf a ∧ Fresh cf b ∧ b.depth ≤ v.depth - 1 := by
  have hall := unpack2_contents h
  exact ⟨fresh_iterate hv hall a (by simp), fresh_iterate hv hall b (by simp),
    iterate_depth hall (by simp)⟩

theorem Keeps.refill_pair {a b c : PyValue} (h : v.unpack2 = some (a, b)) (hv : Fresh cf v)
    (hc : Keeps cf b c) : Keeps cf v (v.refill [a, c]) := by
  have hcontents : v.contents = [a, b] := by rw [PyValue.contents, unpack2_contents h]
  apply Keeps.refill hv
  rw [hcontents]
  exact .cons (Keeps.refl (unpack2_fresh h hv).1) (.cons hc .nil)

theorem writeObjectArray_follows (hrec : RecFollows cf (v.depth - 1) rec rec') (h : v.Alike w)
    (hv : Fresh cf v) (hw : Fresh cf w) :
    Follows cf (Keeps cf v) (writeObjectArray rec v) (writeObjectArray rec' w) := by
  refine Follows.ofOption_rel h.unpack2 ?_
  rintro ⟨a, x⟩ ⟨b, y⟩ hp hq ⟨hab, hxy⟩
  obtain ⟨-, hx, hdepth⟩ := unpack2_fresh hp hv
  obtain ⟨-, hy, -⟩ := unpack2_fresh hq hw
  have hall : ∀ z ∈ x.contents, Fresh cf z ∧ z.depth ≤ v.depth - 1 := fun z hz =>
    ⟨hx.contents z hz, (contents_depth hz).trans hdepth⟩
  dsimp only
  rw [← hab.toInt?, ← hxy.contents.length_eq]
  refine Follows.andThen _ (Follows.ofOption fun i _ => Follows.ofOption fun k _ =>
    Follows.andThen k (Follows.ofOption fun n _ => Follows.andThen n ?_))
  apply (inferAll_follows hrec hxy.contents hall hy.contents).bind
  intro as as'
  exact Follows.pure fun has => Keeps.refill_pair hp hv (Keeps.refill hx has)

theorem writeCollection_follows (hrec : RecFollows cf (v.depth - 1) rec rec') (h : v.Alike w)
    (hv : Fresh cf v) (hw : Fresh cf w) :
    Follows cf (Keeps cf v) (writeCollection rec v) (writeCollection rec' w) := by
  refine Follows.ofOption_rel h.unpack2 ?_
  rintro ⟨a, x⟩ ⟨b, y⟩ hp hq ⟨hab, hxy⟩
  obtain ⟨-, hx, hdepth⟩ := unpack2_fresh hp hv
  obtain ⟨-, hy, -⟩ := unpack2_fresh hq hw
  have hall : ∀ z ∈ x.contents, Fresh cf z ∧ z.depth ≤ v.depth - 1 := fun z hz =>
    ⟨hx.contents z hz, (contents_depth hz).trans hdepth⟩
  dsimp only
  rw [← hab.toInt?, ← hxy.contents.length_eq]
  refine Follows.andThen _ (Follows.ofOption fun n _ => Follows.andThen n
    (Follows.ofOption fun i _ => Follows.ofOption fun k _ => Follows.andThen k ?_))
  apply (inferAll_follows hrec hxy.contents hall hy.contents).bind
  intro as as'
  exact Follows.pure fun has => Keeps.refill_pair hp hv (Keeps.refill hx has)

theorem writeMap_follows (hrec : RecFollows cf (v.depth - 1) rec rec') (h : v.Alike w)
    (hv : Fresh cf v) (hw : Fresh cf w) :
    Follows cf (Keeps cf v) (writeMap rec v) (writeMap rec' w) := by
  refine Follows.ofOption_rel h.unpack2 ?_
  rintro ⟨a, x⟩ ⟨b, y⟩ hp hq ⟨hab, hxy⟩
  obtain ⟨-, hx, hdepth⟩ := unpack2_fresh hp hv
  obtain ⟨-, hy, -⟩ := unpack2_fresh hq hw
  dsimp only
  cases x with
  | none =>
    obtain rfl := hxy.none
    exact Follows.andThen _ (Follows.pure (Keeps.refl hv))
  | dict kvs =>
    obtain ⟨kvs', rfl, hkvs⟩ := hxy.dict
    have hpairs : depthPairs kvs ≤ v.depth - 1 := (Nat.le_succ _).trans hdepth
    dsimp only
    rw [← hab.toInt?, ← hkvs.length_eq]
    refine Follows.andThen _ (Follows.ofOption fun n _ => Follows.andThen n
      (Follows.ofOption fun i _ => Follows.ofOption fun k _ => Follows.andThen k ?_))
    apply (inferPairs_follows hrec hkvs hx hy hpairs).bind
    intro as as'
    exact Follows.pure fun has => Keeps.refill_pair hp hv (Keeps.dict has)
  | _ => exact Follows.raise _ _

end Containers

/-! ### Complex objects -/

section Registry
variable [Python]

theorem compactFooter_syncBinaryRegistry (cl : Client) (typeId : ℤ) :
    (cl.syncBinaryRegistry typeId).compactFooter = cl.compactFooter := by
  unfold Client.syncBinaryRegistry
  generalize cl.remote typeId = classes
  induction classes generalizing cl with
  | nil => rfl
  | cons c classes ih =>
    rw [List.foldl_cons, ih]
    cases (cl.registry typeId).lookup c.schemaId <;> rfl

theorem compactFooter_registerBinaryType (cl : Client) (c : DataClass) :
    (cl.registerBinaryType c).compactFooter = cl.compactFooter := by
  rw [Client.registerBinaryType, Client.queryBinaryType]
  split_ifs
  · rfl
  · exact compactFooter_syncBinaryRegistry cl c.typeId

theorem registerBinaryType_wrote (c : DataClass) (s : BinaryStream) :
    ∃ t, registerBinaryType c s = .ok ((), t) ∧ Wrote s t [] := by
  refine ⟨_, rfl, _, compactFooter_registerBinaryType s.client c, ?_⟩
  rw [BinaryStream.put_nil]

theorem registerBinaryType_follows (cf : Bool) (c c' : DataClass) :
    Follows cf (fun _ => True) (registerBinaryType c) (registerBinaryType c') :=
  Follows.silent (registerBinaryType_wrote c) (registerBinaryType_wrote c')

end Registry

section Objects
variable [Python] [OtherCodecs] {cf : Bool} {rec rec' : DataType → PyValue → StreamM PyValue}
  {head head' : ObjHead} {fields fields' : List (PyStr × DataType × PyValue)}

theorem fieldsFollow {depth : ℕ} (hrec : RecFollows cf depth rec rec')
    (h : Alike.Fields fields fields') (hf : FreshFields cf fields) (hf' : FreshFields cf fields')
    (hdepth : depthFields fields ≤ depth) :
    FieldsFollow cf (Keeps cf) rec rec' fields fields' := by
  induction h with
  | nil => exact .nil
  | @cons f g fields fields' hfg _ ih =>
    obtain ⟨name, t, v⟩ := f
    obtain ⟨name', t', w⟩ := g
    obtain ⟨rfl, rfl, hvw⟩ := hfg
    rw [depthFields, max_le_iff] at hdepth
    exact .cons ⟨rfl, rfl, hrec t v w hvw hf.1 hf'.1 hdepth.1⟩ (ih hf.2 hf'.2 hdepth.2)

omit [OtherCodecs] in
theorem objFromPython_grows {P : PyValue → PyValue → Prop} {save : Bool}
    (h : FieldsFollow cf P rec rec' fields fields') :
    Grows (objFromPython rec save head fields) := by
  intro s v t hv
  obtain ⟨i, r, u, -, hwrite, -, hlen⟩ := objFromPython_inv hv
  have hgrows := writeFields_grows h _ _ r u hwrite
  exact hgrows.trans hlen

theorem keeps_obj {vs : List (PyStr × DataType × PyValue)} {hash : Option ℤ}
    (hbuffer : ∀ d ∈ head.buffer, d = [])
    (h : List.Forall₂ (fun f g => f.1 = g.1 ∧ f.2.1 = g.2.1 ∧ Keeps cf f.2.2 g.2.2) fields vs) :
    Keeps cf (.obj head fields) (.obj { head with hashcode := hash } vs) := by
  obtain ⟨hfields, hfresh⟩ := keeps_fields h
  refine ⟨?_, fun d hd hne => absurd (hbuffer d hd) hne, hfresh⟩
  rw [Alike, PyValue.uncached, PyValue.uncached, Alike.fields_iff.mp hfields]
  rfl

/-- `_from_python` of an object that has no representation cached. -/
theorem objFromPython_follows_obj (save' : Bool) (hhead : head.uncached = head'.uncached)
    (hfields : Alike.Fields fields fields') (hbuffer : ∀ d ∈ head.buffer, d = [])
    (h : FieldsFollow cf (Keeps cf) rec rec' fields fields') :
    Follows cf (Keeps cf (.obj head fields)) (objFromPython rec false head fields)
      (objFromPython rec' save' head' fields') := by
  refine ⟨objFromPython_grows h, fun s a t hs ha hsize => ?_⟩
  obtain ⟨chunks, vs, rfl, hvs, hwrote, hsame⟩ :=
    objFromPython_follows hhead hfields h hs ha hsize
  exact ⟨keeps_obj hbuffer hvs, _, hwrote, fun s' hs' hempty => hsame s' save' hs' hempty⟩

/-- What represents an object is what `_from_python` writes of it. -/
theorem Represents.wrote {d : Bytes} {s : BinaryStream} (save : Bool)
    (hd : Represents cf d head fields) (hhead : head.uncached = head'.uncached)
    (hfields : Alike.Fields fields fields') (hf' : FreshFields cf fields')
    (hcanon : RecFollows cf (depthFields fields) (fromPythonN (depthFields fields + 1)) rec)
    (hs : Usable cf s) :
    ∃ v t, objFromPython rec save head' fields' s = .ok (v, t) ∧ Wrote s t d := by
  obtain ⟨cl, v, t, hcl, hv, rfl, hsize⟩ := hd
  rw [objectFromPython, depthFields_uncachedFields] at hv
  have hhead' : head.uncached.uncached = head'.uncached := hhead
  have hfields' : Alike.Fields (uncachedFields fields) fields' := by
    rw [Alike.fields_iff, uncachedFields_uncachedFields, Alike.fields_iff.mp hfields]
  have hdepth : depthFields (uncachedFields fields) ≤ depthFields fields :=
    (depthFields_uncachedFields fields).le
  have hall := fieldsFollow hcanon hfields' (freshFields_uncached fields) hf' hdepth
  obtain ⟨chunks, vs, -, -, hwrote, hsame⟩ :=
    objFromPython_follows hhead' hfields' hall ⟨hcl, rfl⟩ hv hsize
  obtain ⟨w, u, hu, hwrote'⟩ := hsame s save hs fun _ => rfl
  have hbuf : t.buf = objectBytes cf head.uncached (uncachedFields fields) chunks := by
    rw [hwrote.buf]
    simp [writeAt]
  rw [hbuf]
  exact ⟨w, u, hu, hwrote'⟩

omit [OtherCodecs] in
theorem binaryFromPython_fast {d : Bytes} (hd : head.buffer = some d) (hne : d ≠ []) :
    binaryFromPython rec (.obj head fields) = (do write d; pure (.obj head fields)) := by
  obtain ⟨b, buffer, rfl⟩ := List.exists_cons_of_ne_nil hne
  simp only [binaryFromPython, hd]

omit [OtherCodecs] in
theorem binaryFromPython_slow (h : ∀ d ∈ head.buffer, d = []) :
    binaryFromPython rec (.obj head fields) =
      (do registerBinaryType (classOf head fields); objFromPython rec false head fields) := by
  cases hd : head.buffer with
  | none => simp only [binaryFromPython, hd]
  | some d =>
    obtain rfl := h d hd
    simp only [binaryFromPython, hd]

omit [Python] [OtherCodecs] in
theorem cached_or_not (head : ObjHead) :
    (∃ d, head.buffer = some d ∧ d ≠ []) ∨ ∀ d ∈ head.buffer, d = [] := by
  by_cases h : ∃ d, head.buffer = some d ∧ d ≠ []
  · exact .inl h
  · refine .inr fun d hd => ?_
    by_contra hne
    exact h ⟨d, hd, hne⟩

/-- An object is written alike whether it is written as it is cached or field by field. -/
theorem binaryFromPython_follows (hhead : head.uncached = head'.uncached)
    (hfields : Alike.Fields fields fields') (hv : Fresh cf (.obj head fields))
    (hw : Fresh cf (.obj head' fields')) (hrec : RecFollows cf (depthFields fields) rec rec')
    (hself : RecFollows cf (depthFields fields) (fromPythonN (depthFields fields + 1))
      (fromPythonN (depthFields fields + 1)))
    (hcanon : RecFollows cf (depthFields fields) (fromPythonN (depthFields fields + 1)) rec)
    (hcanon' : RecFollows cf (depthFields fields) (fromPythonN (depthFields fields + 1)) rec') :
    Follows cf (Keeps cf (.obj head fields)) (binaryFromPython rec (.obj head fields))
      (binaryFromPython rec' (.obj head' fields')) := by
  have hdepth : depthFields fields = depthFields fields' := by
    rw [← depthFields_uncachedFields fields, Alike.fields_iff.mp hfields,
      depthFields_uncachedFields]
  have hfields' : Alike.Fields fields' fields :=
    Alike.fields_iff.mpr (Alike.fields_iff.mp hfields).symm
  have hfollow := fieldsFollow hrec hfields hv.2 hw.2 le_rfl
  rcases cached_or_not head with ⟨d, hd, hne⟩ | hslow
  · rw [binaryFromPython_fast hd hne]
    have hrep := hv.1 d hd hne
    rcases cached_or_not head' with ⟨d', hd', hne'⟩ | hslow'
    · -- both are cached: each is what `_from_python` writes of the same fields
      rw [binaryFromPython_fast hd' hne']
      obtain ⟨cl, v, t, hcl, hrun, hbuf, hsize⟩ := hw.1 d' hd' hne'
      have hs : Usable cf ⟨cl, [], 0, false⟩ := ⟨hcl, rfl⟩
      have hhead' : head.uncached = head'.uncached.uncached := hhead
      have hcached : Alike.Fields fields (uncachedFields fields') := by
        rw [Alike.fields_iff, uncachedFields_uncachedFields, Alike.fields_iff.mp hfields]
      rw [objectFromPython, depthFields_uncachedFields, ← hdepth] at hrun
      obtain ⟨v', t', hrun', hwrote⟩ :=
        hrep.wrote false hhead' hcached (freshFields_uncached fields') hself hs
      obtain ⟨-, rfl⟩ := Prod.mk.inj (Except.ok.inj (hrun.symm.trans hrun'))
      obtain rfl : d' = d := by
        rw [← hbuf, hwrote.buf]
        simp [writeAt]
      exact Follows.andThen d' (Follows.pure (Keeps.refl hv))
    · rw [binaryFromPython_slow hslow']
      refine ⟨(Grows.write d).bind fun _ => Grows.pure _, fun s a t hs ha _ => ?_⟩
      rw [bind_ok (write_ok hs.emptyView d)] at ha
      obtain ⟨rfl, rfl⟩ := Prod.mk.inj (Except.ok.inj ha)
      refine ⟨Keeps.refl hv, d, Wrote.put s d, fun s' hs' _ => ?_⟩
      obtain ⟨u, hu, hnil⟩ := registerBinaryType_wrote (classOf head' fields') s'
      obtain ⟨w, t', ht', hwrote⟩ := hrep.wrote false hhead hfields hw.2 hcanon' (hnil.usable hs')
      exact ⟨w, t', by rw [bind_ok hu, ht'], hnil.trans hwrote⟩
  · rw [binaryFromPython_slow hslow]
    rcases cached_or_not head' with ⟨d', hd', hne'⟩ | hslow'
    · rw [binaryFromPython_fast hd' hne']
      have hregister := registerBinaryType_follows cf (classOf head fields) (classOf head fields)
      have hobj := objFromPython_follows_obj false hhead hfields hslow hfollow
      refine ⟨(hregister.grows).bind fun _ => hobj.grows, fun s a t hs ha hsize => ?_⟩
      obtain ⟨u, hu, hnil⟩ := registerBinaryType_wrote (classOf head fields) s
      rw [bind_ok hu] at ha
      obtain ⟨hkeeps, -⟩ := hobj.follows u a t (hnil.usable hs) ha hsize
      -- the same run, seen as one that follows the cached representation
      have hcanon₁ : RecFollows cf (depthFields fields') (fromPythonN (depthFields fields' + 1))
          rec := by
        rw [← hdepth]
        exact hcanon
      obtain ⟨v', t', ht', hwrote⟩ :=
        (hw.1 d' hd' hne').wrote false hhead.symm hfields' hv.2 hcanon₁ (hnil.usable hs)
      obtain ⟨-, rfl⟩ := Prod.mk.inj (Except.ok.inj (ha.symm.trans ht'))
      refine ⟨hkeeps, d', hnil.trans hwrote, fun s' hs' _ => ?_⟩
      exact ⟨.obj head' fields', s'.put d', by rw [bind_ok (write_ok hs'.emptyView d')]; rfl,
        Wrote.put s' d'⟩
    · rw [binaryFromPython_slow hslow']
      exact (registerBinaryType_follows cf _ _).bind fun _ _ =>
        (objFromPython_follows_obj false hhead hfields hslow hfollow).mono fun _ ha _ => ha

end Objects

/-! ### All classes -/

section Main
variable [Python] [OtherCodecs] [PlacedCodecs] {cf : Bool}
  {rec rec' : DataType → PyValue → StreamM PyValue} {v w : PyValue}

theorem fromPythonNotNull_follows (t : DataType) (h : v.Alike w) (hv : Fresh cf v)
    (hw : Fresh cf w) (hrec : RecFollows cf (v.depth - 1) rec rec')
    (hobj : Follows cf (Keeps cf v) (binaryFromPython rec v) (binaryFromPython rec' w)) :
    Follows cf (Keeps cf v) (fromPythonNotNull rec t v) (fromPythonNotNull rec' t w) := by
  have hkeep : Keeps cf v v := Keeps.refl hv
  cases t with
  | null => exact Follows.andThen _ (Follows.pure hkeep)
  | byteObject | shortObject | intObject | longObject | boolObject =>
    exact (writeDataObject_steady _ _).write h hv
  | string => exact writeString_steady.write h hv
  | uuidObject => exact writeUUID_steady.write h hv
  | enumObject | binaryEnumObject => exact (writeEnum_steady _).write h hv
  | byteArrayObject => exact writeByteArray_steady.write h hv
  | shortArrayObject | intArrayObject | longArrayObject =>
    exact (writePrimitiveArray_steady _ (packSigned_uncached _)).write h hv
  | boolArrayObject => exact (writePrimitiveArray_steady _ packBool_uncached).write h hv
  | stringArrayObject | uuidArrayObject =>
    exact (writeStandardArray_follows hrec _ _ h hv hw).bind fun _ _ => Follows.pure fun _ => hkeep
  | objectArrayObject => exact writeObjectArray_follows hrec h hv hw
  | collectionObject => exact writeCollection_follows hrec h hv hw
  | mapObject => exact writeMap_follows hrec h hv hw
  | binaryObject => exact hobj
  | other t => exact (codec_steady t).write h hv

/-- Alike values are written alike, if what they have cached is what would be written now. -/
theorem fromPythonN_follows : ∀ {n n' : ℕ} {t : DataType} {v w : PyValue}, n ≤ n' → v.Alike w →
    Fresh cf v → Fresh cf w → (v.depth < n ∨ v.depth = 0) →
    Follows cf (Keeps cf v) (fromPythonN n t v) (fromPythonN n' t w) := by
  intro n
  induction n using Nat.strong_induction_on with
  | _ n ih =>
    intro n' t v w hn h hv hw hdepth
    cases n with
    | zero => exact Follows.raise _ _
    | succ n =>
      obtain ⟨n', rfl⟩ : ∃ m, n' = m + 1 := ⟨n' - 1, by omega⟩
      by_cases hnone : v = .none
      · obtain rfl := hnone
        obtain rfl := h.none
        exact Follows.andThen _ (Follows.pure (Keeps.refl hv))
      · have hnone' : w ≠ .none := by
          rintro rfl
          exact hnone h.symm.none
        rw [fromPythonN_succ hnone, fromPythonN_succ hnone']
        have hrec : ∀ a b d, a < n + 1 → a ≤ b → d < a ∨ d = 0 →
            RecFollows cf d (fromPythonN a) (fromPythonN b) := by
          intro a b d ha hab hd t x y hxy hx hy hle
          exact ih a ha hab hxy hx hy (by omega)
        apply fromPythonNotNull_follows t h hv hw (hrec n n' _ (by omega) (by omega) (by omega))
        cases v with
        | obj head fields =>
          obtain ⟨head', fields', rfl, hhead, hfields⟩ := h.obj
          rw [PyValue.depth] at hdepth
          exact binaryFromPython_follows hhead hfields hv hw
            (hrec n n' _ (by omega) (by omega) (by omega))
            (hrec _ _ _ (by omega) le_rfl (by omega))
            (hrec _ _ _ (by omega) (by omega) (by omega))
            (hrec _ _ _ (by omega) (by omega) (by omega))
        | _ => exact Follows.raise _ _

end Main

end PyGridGain
