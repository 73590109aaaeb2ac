import PyGridGain.Codec.InferenceReads

/-! Arrays, collections and maps that were written without a hint: they come back where all
their elements do and their length fits its field. -/

namespace PyGridGain

open CObj PyValue StreamM

section Lists
variable {r : Reader} {xs : List PyValue}

theorem map_eq_of_forall₂ {α β : Type} {R : α → α → Prop} {f : α → β} {xs ys : List α}
    (h : List.Forall₂ R xs ys) (hf : ∀ x y, R x y → f y = f x) : ys.map f = xs.map f := by
  induction h with
  | nil => rfl
  | cons hxy _ ih => rw [List.map_cons, List.map_cons, hf _ _ hxy, ih]

theorem eq_iff_forall {α : Type} {R : α → α → Prop} {S : α → Prop} {xs ys : List α}
    (h : List.Forall₂ R xs ys) (hS : ∀ x y, R x y → (y = x ↔ S x)) : ys = xs ↔ ∀ x ∈ xs, S x := by
  induction h with
  | nil => simp
  | cons hxy _ ih => rw [List.cons.injEq, hS _ _ hxy, ih, List.forall_mem_cons]

theorem forall₂_mem {α β : Type} {R : α → β → Prop} {xs : List α} {ys : List β}
    (h : List.Forall₂ R xs ys) {x : α} (hx : x ∈ xs) : ∃ y ∈ ys, R x y := by
  induction h with
  | nil => cases hx
  | cons hxy _ ih =>
    rcases List.mem_cons.mp hx with rfl | hx
    · exact ⟨_, List.mem_cons_self, hxy⟩
    · obtain ⟨y, hy, hr⟩ := ih hx
      exact ⟨y, List.mem_cons_of_mem _ hy, hr⟩

theorem eq_of_standsFor {ys : List PyValue} (h : List.Forall₂ StandsFor xs ys)
    (hxs : ∀ x ∈ xs, x.sequence? = Option.none) : ys = xs := by
  induction h with
  | nil => rfl
  | @cons x y xs ys hxy _ ih =>
    rw [List.forall_mem_cons] at hxs
    rw [hxy.scalar hxs.1, ih hxs.2]

/-- The bytes of elements that come back, one after another. -/
theorem comeBack_bytes [Python] [OtherCodecs] {ys : List PyValue}
    (h : List.Forall₂ (fun x y => ComesBack r x y ∧ StandsFor x y) xs ys) :
    ∃ ds, List.Forall₂ Puts xs ds ∧ List.Forall₂ (fun d y => Recovers r d (.ok y)) ds ys := by
  induction h with
  | nil => exact ⟨[], .nil, .nil⟩
  | cons hxy _ ih =>
    obtain ⟨⟨d, -, hput, hread⟩, -⟩ := hxy
    obtain ⟨ds, hputs, hreads⟩ := ih
    exact ⟨d :: ds, .cons hput hputs, .cons hread hreads⟩

theorem exists_forall₂ {α β : Type} {R : α → β → Prop} {xs : List α} (h : ∀ x ∈ xs, ∃ y, R x y) :
    ∃ ys, List.Forall₂ R xs ys := by
  induction xs with
  | nil => exact ⟨[], .nil⟩
  | cons x xs ih =>
    rw [List.forall_mem_cons] at h
    obtain ⟨y, hy⟩ := h.1
    obtain ⟨ys, hys⟩ := ih h.2
    exact ⟨y :: ys, .cons hy hys⟩

/-- Elements that are written and known by what is read, one after another. -/
theorem exists_allKnown [Python] [OtherCodecs]
    (h : ∀ x ∈ xs, ∃ d, d ≠ [] ∧ Puts x d ∧ Known r x d) :
    ∃ ds, List.Forall₂ Puts xs ds ∧ List.Forall₂ (Known r) xs ds := by
  induction xs with
  | nil => exact ⟨[], .nil, .nil⟩
  | cons x xs ih =>
    rw [List.forall_mem_cons] at h
    obtain ⟨⟨d, -, hput, hknown⟩, hxs⟩ := h
    obtain ⟨ds, hputs, hknowns⟩ := ih hxs
    exact ⟨d :: ds, .cons hput hputs, .cons hknown hknowns⟩

end Lists

/-! ### Elements of a container -/

section Containers
variable [Python] [OtherCodecs] {t std : DataType} {r : Reader}
  {rest : List (FieldName × Layout × Bytes)} {xs ys : List PyValue} {ds : List Bytes}
  {os : List CObject} {conv : CObject → Except PyError PyValue}

omit [Python] [OtherCodecs] in
/-- Where the elements of a container come back, they are all `Kept`, and the field of the
length holds their number. -/
theorem contents_kept (h : List.Forall₂ (Known r) xs ds)
    (hh : IsHeader (containerHeader t xs.length rest)) (hlen : xs.length < 2 ^ 32) {n m : ℕ}
    (hn : ∀ d ∈ ds, d.length ≤ n) (hm : ∀ d ∈ ds, d.length ≤ m) {client : Option Client}
    {s s' : BinaryStream} {ls : List Layout} (hs : s.emptyView = false)
    (hat : At s.buf s.pos ds.flatten) (hls : ls.length = xs.length)
    (hp : parseElements (r.parse n) 0 xs.length s = .ok (named 0 ls, s'))
    (hfit : s.pos + CType.sizeFields (named 0 ls) ≤ s.buf.length)
    (hys : elementsToPython (r.toPython client m) (ofParts (containerHeader t xs.length rest ++
      elementFields (objectsAt s.buf s.pos ls))) = .ok ys)
    (hrep : ys.map PyValue.rep = xs.map PyValue.rep) :
    xs.length < 2 ^ 31 ∧ ∀ x ∈ xs, x.Kept := by
  have hfits := objectsAt_fits 0 hfit
  have hlength : (objectsAt s.buf s.pos ls).length = xs.length := by rw [objectsAt_length, hls]
  have hmem : scalarPart .length .int xs.length ∈ containerHeader t xs.length rest := by
    simp [containerHeader]
  by_cases hsmall : xs.length < 2 ^ 31
  · refine ⟨hsmall, fun x hx => ?_⟩
    rw [← hlength] at hh hmem hys hsmall
    rw [elementsToPython_eq _ hh hfits hsmall hmem] at hys
    obtain ⟨y, -, hkept, -⟩ := forall₂_mem (elements_kept h hn hm hs hat hp hfit hys hrep) hx
    exact hkept
  · rw [elementsToPython_long hh hfits (not_lt.mp hsmall) hlen hmem] at hys
    obtain rfl := Except.ok.inj hys
    have hnil : xs = [] := List.map_eq_nil_iff.mp hrep.symm
    simp [hnil] at hsmall

end Containers

/-! ### Arrays whose elements have type codes of their own -/

section Standard
variable [Python] [OtherCodecs] {t std : DataType} {u : PyType} {v : PyValue} {xs : List PyValue}
  {ds : List Bytes}

omit [Python] [OtherCodecs] in
theorem standardType_of_pythonArrayMap (hu : u = .str ∨ u = .uuid)
    (ht : pythonArrayMap u = some t) (hstd : pythonMap u = some std) :
    t.standardType = some std := by
  rcases hu with rfl | rfl <;> obtain rfl := Option.some.inj ht <;> exact hstd

theorem puts_nullable (hu : u = .str ∨ u = .uuid) (ht : pythonArrayMap u = some t)
    (hstd : pythonMap u = some std) (hv : v.elements? = some xs) (hsome : ∃ x ∈ xs, x.pyType = u)
    (hxs : ∀ x ∈ xs, x = .none ∨ x.pyType = u) (hlen : xs.length < 2 ^ 32)
    (h : List.Forall₂ Puts xs ds) : Puts v (containerBytes t xs.length [] ds) := by
  have hclass := mapPythonType_of_array hv (.nullable hu ht hstd hsome hxs)
  rw [containerBytes_cons]
  exact puts_standard hclass (standardType_of_pythonArrayMap hu ht hstd) hv hlen
    (fun x hx => (exists_known hu hstd (hxs x hx)).1) h

theorem nullable_comesBack (hu : u = .str ∨ u = .uuid) (hv : v.elements? = some xs)
    (hsome : ∃ x ∈ xs, x.pyType = u) (hxs : ∀ x ∈ xs, x = .none ∨ x.pyType = u)
    (hkept : ∀ x ∈ xs, x.Kept) (hlen : xs.length < 2 ^ 31) : ComesBack anyReader v (.list xs) := by
  obtain ⟨t, std, ht, hstd⟩ : ∃ t std, pythonArrayMap u = some t ∧ pythonMap u = some std := by
    rcases hu with rfl | rfl
    exacts [⟨_, _, rfl, rfl⟩, ⟨_, _, rfl, rfl⟩]
  have hstandard := standardType_of_pythonArrayMap hu ht hstd
  have helement : ∀ x ∈ xs, ∃ y, ComesBack (classReader std) x y ∧ StandsFor x y := fun x hx => by
    obtain ⟨-, d, hne, hput, hknown⟩ := exists_known hu hstd (hxs x hx)
    obtain ⟨y, hread, hy⟩ := hknown.kept (hkept x hx)
    exact ⟨y, ⟨d, hne, hput, hread⟩, hy⟩
  obtain ⟨ys, hys⟩ := exists_forall₂ helement
  obtain ⟨ds, hputs, hreads⟩ := comeBack_bytes hys
  have hsame : ys = xs := eq_of_standsFor (hys.imp fun _ _ hxy => hxy.2) fun x hx => by
    rcases hxs x hx with rfl | hclass
    · rfl
    · cases x <;> first | rfl | (simp [pyType] at hclass; subst hclass; simp at hu)
  subst hsame
  refine ⟨_, by simp [containerBytes_cons], puts_nullable hu ht hstd hv hsome hxs (by omega) hputs,
    (container_standard hstandard).recovers (by omega) hreads.length_eq hreads
      fun client n os hos hcount hmap => ?_⟩
  have hlength : os.length = ys.length := hcount
  rw [← hlength] at hlen ⊢
  have helements := elementsToPython_eq ((classReader std).toPython client n)
    (isHeader_standard t.typeCode os.length) hos hlen (by simp)
  rw [hmap] at helements
  rw [toPythonNotNull_standard hstandard, standardArrayToPython, except_bind_eq_ok]
  exact ⟨ys, helements, rfl⟩

/-- Nothing equal to a value is read of an array of its elements, unless the elements are
`Kept` and not too many. -/
theorem nullable_onlyKept (hu : u = .str ∨ u = .uuid) (ht : pythonArrayMap u = some t)
    (hstd : pythonMap u = some std) (hv : v.elements? = some xs) (hsome : ∃ x ∈ xs, x.pyType = u)
    (hxs : ∀ x ∈ xs, x = .none ∨ x.pyType = u) (hlen : xs.length < 2 ^ 32)
    (h : List.Forall₂ (Known (classReader std)) xs ds) :
    OnlyKept anyReader v (containerBytes t xs.length [] ds) := by
  intro n m client s s' c y hs hat hn hm hp hfit hy hrep
  have hstandard := standardType_of_pythonArrayMap hu ht hstd
  obtain ⟨n', m', ls, r, hn', hm', hls, hparse, hfit', hy⟩ :=
    (container_standard hstandard).gives hlen hn hm hs hat hp hfit hy
  rw [toPythonNotNull_standard hstandard, standardArrayToPython, except_bind_eq_ok] at hy
  obtain ⟨ys, hys, hy⟩ := hy
  obtain rfl := Except.ok.inj hy
  obtain ⟨zs, hzs, hmaps⟩ := rep_list_iff.mp hrep
  obtain rfl : xs = zs := Option.some.inj (hv.symm.trans (elements_of_sequence hzs))
  obtain ⟨hsmall, hkept⟩ := contents_kept (s := s.skip (headBytes t xs.length []).length) h
    (isHeader_standard t.typeCode xs.length) hlen hn' hm' hs hat.right hls hparse hfit' hys hmaps
  exact .nullable hu hzs hsome hxs hkept hsmall

end Standard

/-! ### Collections -/

section Collections
variable [Python] [OtherCodecs] {v a w : PyValue} {k : ℤ} {ys : List PyValue} {ds : List Bytes}
  {n : ℕ} {os : List CObject} {rec : DataType → CObject → Except PyError PyValue}

omit [Python] [OtherCodecs] in
/-- The type of a collection or of a map is read as it was written. -/
theorem type_read {t : DataType} (hos : Fits os) (hk : Scalar.byte.Range k) :
    CObject.intAttr (ofParts (containerHeader t n [scalarPart .type .byte k] ++
      elementFields os)) .type = .ok k :=
  intAttr_part ((isHeader_collection t.typeCode n k).filled_elements hos)
    (isHeader_collection t.typeCode n k).nodup_elements hk (by simp)

omit [Python] [OtherCodecs] in
theorem collectionToPython_iff (hos : Fits os) (hk : Scalar.byte.Range k) {x : PyValue} :
    collectionToPython rec (ofParts (containerHeader .collectionObject n
      [scalarPart .type .byte k] ++ elementFields os)) = .ok x ↔
      ∃ ys, elementsToPython (anyToPython rec) (ofParts (containerHeader .collectionObject n
        [scalarPart .type .byte k] ++ elementFields os)) = .ok ys ∧
        x = .tuple [.int k, .list ys] := by
  rw [collectionToPython, except_bind_eq_ok]
  simp only [type_read hos hk, except_bind, Except.ok.injEq, eq_comm]

theorem puts_pair (hv : v.sequence? = some [a, w]) (ha : a.toInt? = some k)
    (hk : Scalar.byte.Range k) (hw : w.iterate = some ys) (hdict : w.pyType ≠ .dict)
    (hlen : ys.length < 2 ^ 32) (h : List.Forall₂ Puts ys ds) :
    Puts v (containerBytes .collectionObject ys.length [scalarPart .type .byte k] ds) := by
  have hpair : pairClass w = some .collectionObject := by simp [pairClass, hdict, hw]
  have hclass : v.mapPythonType = .ok .collectionObject :=
    (mapPythonType_sequence_iff hv).mpr (Or.inr ⟨a, w, rfl, by simp [ha], hpair⟩)
  have hdepth : depthList ys < v.depth := by
    have hall := depth_of_elements (elements_of_sequence hv)
    have hys := depth_of_iterate hw
    rw [depthList, depthList] at hall
    omega
  obtain rfl := contents_of_iterate hw
  have hput := puts_collection hclass (elements_of_sequence hv) ha hk hlen hdepth h
  rw [containerBytes_cons]
  simpa [scalarPart] using hput

theorem collection_comesBack (hv : v.sequence? = some [a, w]) (ha : a.toInt? = some k)
    (hk : Scalar.byte.Range k) (hw : w.sequence? = some ys) (hlen : ys.length < 2 ^ 31)
    {zs : List PyValue} (h : List.Forall₂ (fun y z => ComesBack anyReader y z ∧ StandsFor y z) ys zs) :
    ComesBack anyReader v (.tuple [.int k, .list zs]) ∧ StandsFor v (.tuple [.int k, .list zs]) := by
  obtain ⟨ds, hputs, hreads⟩ := comeBack_bytes h
  have hiter := iterate_of_elements (elements_of_sequence hw)
  have hdict : w.pyType ≠ .dict := by
    cases w <;> simp [sequence?] at hw <;> simp [pyType]
  have hmaps := map_eq_of_forall₂ h fun _ _ hxy => hxy.2.rep
  refine ⟨⟨_, by simp [containerBytes_cons],
    puts_pair hv ha hk hiter hdict (by omega) hputs,
    (container_collection k).recovers (by omega) hputs.length_eq.symm hreads
      fun client n os hos hcount hmap => ?_⟩,
    .of_pair hv ha (rep_list_iff.mpr ⟨ys, hw, hmaps⟩) rfl⟩
  have hlength : os.length = ys.length := hcount
  rw [← hlength] at hlen ⊢
  have helements := elementsToPython_eq (anyReader.toPython client n)
    (isHeader_collection DataType.collectionObject.typeCode os.length k) hos hlen (by simp)
  rw [hmap] at helements
  exact (collectionToPython_iff hos hk).mpr ⟨zs, helements, rfl⟩

/-- What is read of a collection is not equal to a dict. -/
theorem dict_onlyKept {kvs : List (PyValue × PyValue)} (hk : Scalar.byte.Range k)
    (hn : n < 2 ^ 32) : OnlyKept anyReader (.dict kvs)
      (containerBytes .collectionObject n [scalarPart .type .byte k] ds) := by
  intro n' m client s s' c x hs hat hn' hm hp hfit hx hrep
  obtain ⟨_, _, ls, r, -, -, -, -, hfit', hx⟩ :=
    (container_collection k).gives hn hn' hm hs hat hp hfit hx
  obtain ⟨zs, -, rfl⟩ := (collectionToPython_iff (objectsAt_fits 0 hfit') hk).mp hx
  obtain ⟨a, w, hdict, -⟩ := pair_rep_iff.mp hrep
  cases hdict

/-- Nothing equal to a value is read of a collection, unless its content is a sequence of
elements that are `Kept`, and not too many. -/
theorem collection_onlyKept (hv : v.sequence? = some [a, w]) (ha : a.toInt? = some k)
    (hk : Scalar.byte.Range k) (hw : w.iterate = some ys) (hlen : ys.length < 2 ^ 32)
    (h : List.Forall₂ (Known anyReader) ys ds) :
    OnlyKept anyReader v
      (containerBytes .collectionObject ys.length [scalarPart .type .byte k] ds) := by
  intro n m client s s' c x hs hat hn hm hp hfit hx hrep
  obtain ⟨n', m', ls, r, hn', hm', hls, hparse, hfit', hx⟩ :=
    (container_collection k).gives hlen hn hm hs hat hp hfit hx
  obtain ⟨zs, hzs, rfl⟩ := (collectionToPython_iff (objectsAt_fits 0 hfit') hk).mp hx
  obtain ⟨b, w', hv', -, hcontent⟩ := pair_rep_iff.mp hrep
  obtain ⟨rfl, rfl⟩ : a = b ∧ w = w' := by simpa [hv] using hv'
  obtain ⟨xs, hxs, hmaps⟩ := rep_list_iff.mp hcontent
  obtain rfl : ys = xs :=
    Option.some.inj (hw.symm.trans (iterate_of_elements (elements_of_sequence hxs)))
  obtain ⟨hsmall, hkept⟩ := contents_kept (s := s.skip (headBytes .collectionObject ys.length
    [scalarPart .type .byte k]).length) h (isHeader_collection _ ys.length k) hlen hn' hm' hs
    hat.right hls hparse hfit' hzs hmaps
  exact .collection hv ha hk hxs hkept hsmall

end Collections

/-! ### Maps -/

section Maps
variable [Python] [OtherCodecs] {v a : PyValue} {k : ℤ} {kvs : List (PyValue × PyValue)}
  {ds : List Bytes} {n : ℕ} {os : List CObject} {rec : DataType → CObject → Except PyError PyValue}

omit [Python] [OtherCodecs] in
theorem mapToPython_iff (hos : Fits os) (hk : Scalar.byte.Range k) {x : PyValue} :
    mapToPython rec (ofParts (containerHeader .mapObject n
      [scalarPart .type .byte k] ++ elementFields os)) = .ok x ↔
      ∃ kvs, pairsToPython rec (ofParts (containerHeader .mapObject n
        [scalarPart .type .byte k] ++ elementFields os)) = .ok kvs ∧
        x = .tuple [.int k, .dict kvs] := by
  rw [mapToPython, type_read hos hk, except_bind, except_bind_eq_ok]
  simp only [Except.ok.injEq, eq_comm]

omit [Python] [OtherCodecs] in
theorem dict_rep_iff {kvs' : List (PyValue × PyValue)} :
    (PyValue.dict kvs').rep = (PyValue.dict kvs).rep ↔
      kvs'.map (fun p => (p.1.rep, p.2.rep)) = kvs.map fun p => (p.1.rep, p.2.rep) := by
  simp [PyValue.rep]

theorem puts_entries (hv : v.sequence? = some [a, .dict kvs]) (ha : a.toInt? = some k)
    (hk : Scalar.byte.Range k) (hlen : kvs.length < 2 ^ 32)
    (h : List.Forall₂ Puts (alternate kvs) ds) :
    Puts v (containerBytes .mapObject kvs.length [scalarPart .type .byte k] ds) := by
  have hput := puts_map hv ha hk hlen h
  rw [containerBytes_cons]
  simpa [scalarPart] using hput

theorem map_comesBack (hv : v.sequence? = some [a, .dict kvs]) (ha : a.toInt? = some k)
    (hk : Scalar.byte.Range k) (hlen : kvs.length < 2 ^ 31)
    (hscalar : ∀ p ∈ kvs, p.1.sequence? = Option.none)
    (hkeys : ∃ keys : List Key, kvs.map (fun p => p.1.hashKey) = keys.map some ∧ keys.Nodup)
    {kvs' : List (PyValue × PyValue)}
    (h : List.Forall₂ (fun y z => ComesBack anyReader y z ∧ StandsFor y z) (alternate kvs)
      (alternate kvs')) :
    ComesBack anyReader v (.tuple [.int k, .dict kvs']) ∧
      StandsFor v (.tuple [.int k, .dict kvs']) := by
  obtain ⟨ds, hputs, hreads⟩ := comeBack_bytes h
  have hpairs := forall₂_alternate.mp (h.imp fun _ _ hyz => hyz.2)
  -- the keys are read as they were, so they stay apart
  have hsame : kvs'.map (fun p => p.1.hashKey) = kvs.map fun p => p.1.hashKey :=
    map_eq_of_forall₂ ((List.forall₂_and_left kvs kvs').mpr ⟨hscalar, hpairs⟩) fun p q hpq => by
      rw [hpq.2.1.scalar hpq.1]
  obtain ⟨keys, hkeys, hnd⟩ := hkeys
  have hfold : kvs'.foldlM (fun r p => PyValue.dictSet r p.1 p.2) [] = .ok ([] ++ kvs') :=
    foldlM_dictSet (hsame.trans hkeys) hnd
  have hmaps : (PyValue.dict kvs').rep = (PyValue.dict kvs).rep :=
    dict_rep_iff.mpr (map_eq_of_forall₂ hpairs fun p q hpq => by rw [hpq.1.rep, hpq.2.rep])
  refine ⟨⟨_, by simp [containerBytes_cons],
    puts_entries hv ha hk (by omega) hputs, (container_map k).recovers (by omega)
      (by rw [← hputs.length_eq, alternate_length]) hreads
      fun client n os hos hcount hmap => ?_⟩, .of_pair hv ha hmaps rfl⟩
  obtain ⟨ps, hps, rfl⟩ := exists_alternate hcount
  rw [← hps] at hlen ⊢
  have hresult := pairsToPython_eq (toPythonN client n)
    (isHeader_collection DataType.mapObject.typeCode ps.length k) hos hlen (by simp)
  have hinserted : ps.foldlM (insertPair (anyToPython (toPythonN client n))) [] =
      .ok kvs' := foldlM_insertPair_iff.mpr ⟨kvs', hmap, hfold⟩
  exact (mapToPython_iff hos hk).mpr ⟨kvs', hresult.trans hinserted, rfl⟩

/-- Where the pairs of a map come back, their sides are all `Kept`, the field of the length holds
their number, and no key is a tuple: what stands for one cannot be a key. -/
theorem pairs_kept {rest : List (FieldName × Layout × Bytes)} {t : DataType}
    (h : List.Forall₂ (Known anyReader) (alternate kvs) ds)
    (hh : IsHeader (containerHeader t kvs.length rest)) (hlen : kvs.length < 2 ^ 32) {n m : ℕ}
    (hn : ∀ d ∈ ds, d.length ≤ n) (hm : ∀ d ∈ ds, d.length ≤ m) {client : Option Client}
    {s s' : BinaryStream} {ls : List Layout} (hs : s.emptyView = false)
    (hat : At s.buf s.pos ds.flatten) (hls : ls.length = 2 * kvs.length)
    (hp : parseElements (anyReader.parse n) 0 (2 * kvs.length) s = .ok (named 0 ls, s'))
    (hfit : s.pos + CType.sizeFields (named 0 ls) ≤ s.buf.length)
    {kvs' : List (PyValue × PyValue)}
    (hkvs' : pairsToPython (toPythonN client m) (ofParts (containerHeader t kvs.length rest ++
      elementFields (objectsAt s.buf s.pos ls))) = .ok kvs')
    (hmaps : kvs'.map (fun p => (p.1.rep, p.2.rep)) = kvs.map fun p => (p.1.rep, p.2.rep)) :
    kvs.length < 2 ^ 31 ∧
      ∀ p ∈ kvs, p.1.Kept ∧ p.2.Kept ∧ p.1.sequence? = Option.none := by
  have hfits := objectsAt_fits 0 hfit
  have hmem : scalarPart .length .int kvs.length ∈ containerHeader t kvs.length rest := by
    simp [containerHeader]
  have hsize : kvs'.length = kvs.length := by simpa using congrArg List.length hmaps
  by_cases hsmall : kvs.length < 2 ^ 31
  · refine ⟨hsmall, ?_⟩
    obtain ⟨ps, hps, hobjects⟩ := exists_alternate (objectsAt_length.trans hls)
    rw [hobjects] at hkvs' hfits
    rw [← hps] at hh hmem hkvs' hsmall
    rw [pairsToPython_eq _ hh hfits hsmall hmem] at hkvs'
    obtain ⟨kvs'', hread, hfold⟩ := foldlM_insertPair_iff.mp hkvs'
    rw [← hobjects] at hread
    obtain ⟨hkeys, hgrown⟩ := foldlM_dictSet_ok hfold
    have hread_length := mapM_ok_length hread
    rw [alternate_length, objectsAt_length, hls] at hread_length
    obtain rfl : kvs' = kvs'' := hgrown.resolve_left (by simp only [List.length_nil]; omega)
    have hreps : (alternate kvs').map PyValue.rep = (alternate kvs).map PyValue.rep := by
      rw [map_alternate, map_alternate, hmaps]
    have hkept := forall₂_alternate.mp
      (elements_kept h hn hm hs hat (by rwa [alternate_length]) hfit hread hreps)
    intro p hp
    obtain ⟨q, hq, hkey, hvalue⟩ := forall₂_mem hkept hp
    exact ⟨hkey.1, hvalue.1, of_not_not fun hne => hkeys q hq (hkey.2.unhashable hne)⟩
  · rw [pairsToPython_long hh hfits (not_lt.mp hsmall) hlen hmem] at hkvs'
    obtain rfl := Except.ok.inj hkvs'
    rw [← hsize] at hsmall
    simp at hsmall

/-- Nothing equal to a value is read of a map, unless its keys and values are `Kept`, not too
many, and no key is a tuple. -/
theorem map_onlyKept (hv : v.sequence? = some [a, .dict kvs]) (ha : a.toInt? = some k)
    (hk : Scalar.byte.Range k) (hlen : kvs.length < 2 ^ 32)
    (h : List.Forall₂ (Known anyReader) (alternate kvs) ds) :
    OnlyKept anyReader v
      (containerBytes .mapObject kvs.length [scalarPart .type .byte k] ds) := by
  intro n m client s s' c x hs hat hn hm hp hfit hx hrep
  obtain ⟨n', m', ls, r, hn', hm', hls, hparse, hfit', hx⟩ :=
    (container_map k).gives hlen hn hm hs hat hp hfit hx
  obtain ⟨kvs', hkvs', rfl⟩ := (mapToPython_iff (objectsAt_fits 0 hfit') hk).mp hx
  obtain ⟨b, w', hv', -, hcontent⟩ := pair_rep_iff.mp hrep
  obtain ⟨rfl, rfl⟩ : a = b ∧ PyValue.dict kvs = w' := by simpa [hv] using hv'
  obtain ⟨hsmall, hkept⟩ := pairs_kept (s := s.skip (headBytes .mapObject kvs.length
    [scalarPart .type .byte k]).length) h (isHeader_collection _ kvs.length k) hlen hn' hm' hs
    hat.right hls hparse hfit' hkvs' (dict_rep_iff.mp hcontent)
  exact .map hv ha hk (fun p hp => (hkept p hp).1) (fun p hp => (hkept p hp).2.1)
    (fun p hp => (hkept p hp).2.2) hsmall

end Maps

end PyGridGain
