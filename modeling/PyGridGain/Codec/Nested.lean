import PyGridGain.Codec.Layouts

/-! The structures of containers: fixed fields, then one numbered field for each
element. A container decodes if its elements do. -/

namespace PyGridGain

open CObj

/-- An element of a container with the layout that was found for it. -/
abbrev Element := Layout × PyValue × DataType

theorem length_le_flatten {b : Bytes} {bs : List Bytes} (h : b ∈ bs) :
    b.length ≤ bs.flatten.length :=
  (List.sublist_flatten_of_mem h).length_le

/-- Fixed fields that may stand before the elements. -/
structure IsHeader (header : List (FieldName × Layout × Bytes)) : Prop where
  filled : Filled header
  nodup : (header.map (·.1)).Nodup
  ne_element : ∀ p ∈ header, ∀ i, p.1 ≠ .element i

theorem isHeader_standard (code : UInt8) (n : ℕ) :
    IsHeader [codePart code, scalarPart .length .int n] where
  filled := (codePart_filled _).append (scalarPart_filled _ _ _)
  nodup := by simp [codePart, scalarPart]
  ne_element := by simp [codePart, scalarPart]

theorem isHeader_objectArray (code : UInt8) (k : ℤ) (n : ℕ) :
    IsHeader [codePart code, scalarPart .typeId .int k, scalarPart .length .int n] where
  filled := (codePart_filled _).append
    ((scalarPart_filled _ _ _).append (scalarPart_filled _ _ _))
  nodup := by simp [codePart, scalarPart]
  ne_element := by simp [codePart, scalarPart]

theorem isHeader_collection (code : UInt8) (n : ℕ) (k : ℤ) :
    IsHeader [codePart code, scalarPart .length .int n, scalarPart .type .byte k] where
  filled := (codePart_filled _).append
    ((scalarPart_filled _ _ _).append (scalarPart_filled _ _ _))
  nodup := by simp [codePart, scalarPart]
  ne_element := by simp [codePart, scalarPart]

section Containers
variable [Python] [OtherCodecs] {cl : Client} {cf : Bool} {t : DataType} {v : PyValue}

/-- The parts of elements. -/
def elementParts (cf : Bool) (ls : List Element) : List (FieldName × Layout × Bytes) :=
  numbered .element (ls.map fun p => (p.1, encode cf p.2.2 p.2.1))

/-- The layouts found fit their elements. -/
def AllDecode (cl : Client) (cf : Bool) (ls : List Element) : Prop :=
  ∀ p ∈ ls, Encodable cl cf p.2.2 p.2.1 ∧ Decodes cl cf p.2.2 p.2.1 p.1

variable {header : List (FieldName × Layout × Bytes)} {ls : List Element}

theorem IsHeader.filled_append (hh : IsHeader header) (hls : AllDecode cl cf ls) :
    Filled (header ++ elementParts cf ls) := by
  refine hh.filled.append (filled_numbered fun p hp => ?_)
  obtain ⟨e, he, rfl⟩ := List.mem_map.mp hp
  exact (hls e he).2.size

theorem IsHeader.nodup_append (hh : IsHeader header) :
    ((header ++ elementParts cf ls).map (·.1)).Nodup :=
  append_numbered_nodup (fun i j h => by simpa using h) hh.nodup hh.ne_element

theorem attr_element (hh : IsHeader header) (hls : AllDecode cl cf ls) {i : ℕ} {e : Element}
    (he : ls[i]? = some e) :
    CObject.attr (ofParts (header ++ elementParts cf ls)) (.element i) =
      .ok ⟨e.1, encode cf e.2.2 e.2.1⟩ :=
  attr_part (hh.filled_append hls) hh.nodup_append
    (List.mem_append_right _ (mem_numbered (p := (e.1, encode cf e.2.2 e.2.1)) (by simp [he])))

theorem elementsToPython_ok (hh : IsHeader header) (hls : AllDecode cl cf ls)
    (hlen : ls.length < 2 ^ 31) (hmem : scalarPart .length .int ls.length ∈ header)
    {conv : CObject → Except PyError PyValue} {g : Element → PyValue}
    (hconv : ∀ e ∈ ls, conv ⟨e.1, encode cf e.2.2 e.2.1⟩ = .ok (g e)) :
    elementsToPython conv (ofParts (header ++ elementParts cf ls)) = .ok (ls.map g) := by
  have hlength := intAttr_part (hh.filled_append hls) hh.nodup_append (range_of_lt hlen)
    (List.mem_append_left _ hmem)
  simp only [elementsToPython, hlength, bind, Except.bind, Int.toNat_natCast]
  refine mapM_range_ok (by simp) fun i hi => ?_
  rw [List.length_map] at hi
  have he : ls[i]? = some ls[i] := List.getElem?_eq_getElem hi
  simp [attr_element hh hls he, hconv _ (List.getElem_mem hi)]

theorem elementParts_bytes :
    (elementParts cf ls).flatMap (fun p => p.2.2) =
      (ls.map fun e => encode cf e.2.2 e.2.1).flatten := by
  rw [elementParts, numbered_flatMap, List.flatMap_map, List.flatMap_def]

/-- An element is smaller than the container that starts with a type code. -/
theorem element_length_le {code : UInt8} {n : ℕ}
    (hbytes : encode cf t v = (codePart code :: header ++ elementParts cf ls).flatMap
      fun p => p.2.2) (hn : (encode cf t v).length ≤ n + 1) {e : Element} (he : e ∈ ls) :
    (encode cf e.2.2 e.2.1).length ≤ n := by
  have hle := length_le_flatten (List.mem_map_of_mem (f := fun e : Element =>
    encode cf e.2.2 e.2.1) he)
  rw [hbytes, List.flatMap_append, List.flatMap_cons, elementParts_bytes] at hn
  simp only [codePart, List.length_append, List.length_singleton] at hn
  omega

theorem encode_objectArray (k : ℤ) {xs : List PyValue} {ps : List (PyValue × DataType)}
    (h : Typed xs ps) :
    encode cf .objectArrayObject (.tuple [.int k, .list xs]) =
      [codePart DataType.objectArrayObject.typeCode, scalarPart .typeId .int k,
        scalarPart .length .int ps.length].flatMap (fun p => p.2.2) ++
      (ps.map fun p => encode cf p.2 p.1).flatten := by
  rw [← encodeAll_typed h, ← h.length_eq]
  simp only [encode, codePart, scalarPart, List.flatMap_cons, List.flatMap_nil,
    List.append_assoc, List.append_nil, List.cons_append, List.nil_append]

theorem encode_collection (k : ℤ) {xs : List PyValue} {ps : List (PyValue × DataType)}
    (h : Typed xs ps) :
    encode cf .collectionObject (.tuple [.int k, .list xs]) =
      [codePart DataType.collectionObject.typeCode, scalarPart .length .int ps.length,
        scalarPart .type .byte k].flatMap (fun p => p.2.2) ++
      (ps.map fun p => encode cf p.2 p.1).flatten := by
  rw [← encodeAll_typed h, ← h.length_eq]
  simp only [encode, codePart, scalarPart, List.flatMap_cons, List.flatMap_nil,
    List.append_assoc, List.append_nil, List.cons_append, List.nil_append]

theorem encode_standardArray {std : DataType} (ht : t.standardType = some std)
    (xs : List PyValue) :
    encode cf t (.list xs) = [codePart t.typeCode, scalarPart .length .int xs.length].flatMap
      (fun p => p.2.2) ++ (xs.map fun x => encode cf std x).flatten := by
  rw [encode_standard ht, encodeStandard_eq]
  simp [codePart, scalarPart]

/-- The values of elements with their types. -/
abbrev values (ls : List Element) : List (PyValue × DataType) := ls.map fun e => e.2

theorem toPythonNotNull_standard {std : DataType} (ht : t.standardType = some std)
    (rec : DataType → CObject → Except PyError PyValue) (client : Option Client) (o : CObject) :
    toPythonNotNull rec client t o = standardArrayToPython rec std o := by
  cases t <;> simp only [DataType.standardType, reduceCtorEq, Option.some.injEq] at ht <;>
    subst ht <;> rfl

theorem decodes_standardArray {std : DataType} (ht : t.standardType = some std)
    (hls : AllDecode cl cf ls) (hstd : ∀ e ∈ ls, e.2.2 = std) (hlen : ls.length < 2 ^ 31) :
    Decodes cl cf t (.list (ls.map fun e => e.2.1))
      (ofParts ([codePart t.typeCode, scalarPart .length .int ls.length] ++
        elementParts cf ls)).ctype := by
  have hv : Encodable cl cf t (.list (ls.map fun e => e.2.1)) := by
    refine .standardArray ht (fun x hx => ?_) (by simpa using hlen)
    obtain ⟨e, he, rfl⟩ := List.mem_map.mp hx
    rw [← hstd e he]
    exact (hls e he).1
  have hh := isHeader_standard t.typeCode ls.length
  have hbytes : encode cf t (.list (ls.map fun e => e.2.1)) =
      ([codePart t.typeCode, scalarPart .length .int ls.length] ++ elementParts cf ls).flatMap
        fun p => p.2.2 := by
    have hmap : ls.map (fun e => encode cf e.2.2 e.2.1) = ls.map fun e => encode cf std e.2.1 :=
      List.map_congr_left fun e he => by rw [hstd e he]
    rw [encode_standardArray ht, List.flatMap_append, elementParts_bytes, hmap, List.map_map,
      List.length_map]
    rfl
  refine decodes_of_parts hv (by simp) (hh.filled_append hls) hh.nodup_append (by simp) hbytes
    fun client _ n hn => ?_
  have hconv : ∀ e ∈ ls, toPythonN client n std ⟨e.1, encode cf e.2.2 e.2.1⟩ = .ok e.2.1 := by
    intro e he
    obtain ⟨hen, hde⟩ := hls e he
    have hcons : encode cf t (.list (ls.map fun e => e.2.1)) =
        (codePart t.typeCode :: [scalarPart .length .int ls.length] ++ elementParts cf ls).flatMap
          fun p => p.2.2 := hbytes
    have hn' := element_length_le hcons hn he
    rw [hstd e he] at hen hde hn' ⊢
    have := hde.toPython client (fun hne => absurd (hen.objects_standard ht) hne) n hn'
    rwa [hen.decoded_standard ht] at this
  rw [toPythonNotNull_standard ht, standardArrayToPython,
    elementsToPython_ok hh hls hlen (by simp) hconv, decoded_list]
  rfl

theorem anyElements_ok {code : UInt8} (hh : IsHeader (codePart code :: header))
    (hls : AllDecode cl cf ls) (hlen : ls.length < 2 ^ 31)
    (hmem : scalarPart .length .int ls.length ∈ codePart code :: header)
    {client : Option Client} (hk : ∀ e ∈ ls, Knows client cl e.2.2 e.2.1) {n : ℕ}
    (hn : ∀ e ∈ ls, (encode cf e.2.2 e.2.1).length ≤ n) :
    elementsToPython (anyToPython (toPythonN client n))
        (ofParts (codePart code :: header ++ elementParts cf ls)) =
      .ok (ls.map fun e => decoded Scalar.byte.wrap e.2.2 e.2.1) :=
  elementsToPython_ok hh hls hlen hmem fun e he =>
    anyToPython_of_decodes (hls e he).1 (hls e he).2 (hk e he) (hn e he)

omit [Python] [OtherCodecs] in
theorem knows_element {client : Option Client} {k : ℤ} {xs : List PyValue}
    (htyped : Typed xs (values ls))
    (hobjects : objects t (.tuple [.int k, .list xs]) = objectsAll xs)
    (hk : Knows client cl t (.tuple [.int k, .list xs])) :
    ∀ e ∈ ls, Knows client cl e.2.2 e.2.1 := by
  intro e he hne
  refine hk fun hnil => hne ?_
  rw [hobjects, objectsAll_typed htyped, List.flatMap_eq_nil_iff] at hnil
  exact hnil e.2 (List.mem_map_of_mem he)

theorem decodes_objectArray {k : ℤ} {xs : List PyValue} (hk : Scalar.int.Range k)
    (htyped : Typed xs (values ls)) (hls : AllDecode cl cf ls) (hlen : ls.length < 2 ^ 31) :
    Decodes cl cf .objectArrayObject (.tuple [.int k, .list xs])
      (ofParts ([codePart DataType.objectArrayObject.typeCode, scalarPart .typeId .int k,
        scalarPart .length .int ls.length] ++ elementParts cf ls)).ctype := by
  have hv : Encodable cl cf .objectArrayObject (.tuple [.int k, .list xs]) := by
    refine .objectArray hk htyped (fun x hx => ?_) (by simpa [htyped.length_eq] using hlen)
    obtain ⟨e, he, rfl⟩ := List.mem_map.mp hx
    exact (hls e he).1
  have hh := isHeader_objectArray DataType.objectArrayObject.typeCode k ls.length
  have hbytes : encode cf .objectArrayObject (.tuple [.int k, .list xs]) =
      ([codePart DataType.objectArrayObject.typeCode, scalarPart .typeId .int k,
        scalarPart .length .int ls.length] ++ elementParts cf ls).flatMap fun p => p.2.2 := by
    rw [encode_objectArray k htyped, List.flatMap_append, elementParts_bytes, List.map_map,
      List.length_map]
    rfl
  refine decodes_of_parts hv (by simp) (hh.filled_append hls) hh.nodup_append (by simp) hbytes
    fun client hknows n hn => ?_
  have helements := anyElements_ok hh hls hlen (by simp)
    (knows_element htyped (by simp only [objects]) hknows)
    fun e he => element_length_le hbytes hn he
  have htypeId := intAttr_part (hh.filled_append hls) hh.nodup_append (n := .typeId) hk
    (by simp)
  simp only [toPythonNotNull, objectArrayToPython, helements, htypeId, bind, Except.bind, decoded,
    decodedAll_typed htyped, values, List.map_map, Function.comp_def]

theorem decodes_collection {k : ℤ} {xs : List PyValue} (hk : Scalar.byte.Range k)
    (htyped : Typed xs (values ls)) (hls : AllDecode cl cf ls) (hlen : ls.length < 2 ^ 31) :
    Decodes cl cf .collectionObject (.tuple [.int k, .list xs])
      (ofParts ([codePart DataType.collectionObject.typeCode, scalarPart .length .int ls.length,
        scalarPart .type .byte k] ++ elementParts cf ls)).ctype := by
  have hv : Encodable cl cf .collectionObject (.tuple [.int k, .list xs]) := by
    refine .collection hk htyped (fun x hx => ?_) (by simpa [htyped.length_eq] using hlen)
    obtain ⟨e, he, rfl⟩ := List.mem_map.mp hx
    exact (hls e he).1
  have hh := isHeader_collection DataType.collectionObject.typeCode ls.length k
  have hbytes : encode cf .collectionObject (.tuple [.int k, .list xs]) =
      ([codePart DataType.collectionObject.typeCode, scalarPart .length .int ls.length,
        scalarPart .type .byte k] ++ elementParts cf ls).flatMap fun p => p.2.2 := by
    rw [encode_collection k htyped, List.flatMap_append, elementParts_bytes, List.map_map,
      List.length_map]
    rfl
  refine decodes_of_parts hv (by simp) (hh.filled_append hls) hh.nodup_append (by simp) hbytes
    fun client hknows n hn => ?_
  have helements := anyElements_ok hh hls hlen (by simp)
    (knows_element htyped (by simp only [objects]) hknows)
    fun e he => element_length_le hbytes hn he
  have htype := intAttr_part (hh.filled_append hls) hh.nodup_append (n := .type) hk (by simp)
  simp only [toPythonNotNull, collectionToPython, helements, htype, bind, Except.bind, decoded,
    decodedAll_typed htyped, values, List.map_map, Function.comp_def]

end Containers

/-! ### Pairs -/

/-- Both sides of pairs in turn. -/
def alternate {α : Type} (ps : List (α × α)) : List α := ps.flatMap fun p => [p.1, p.2]

section Pairs
variable {α : Type}

theorem alternate_cons (p : α × α) (ps : List (α × α)) :
    alternate (p :: ps) = p.1 :: p.2 :: alternate ps := rfl

theorem alternate_length (ps : List (α × α)) : (alternate ps).length = 2 * ps.length := by
  simp [alternate, List.length_flatMap, Nat.mul_comm]

theorem alternate_fst (ps : List (α × α)) (i : ℕ) :
    (alternate ps)[2 * i]? = ps[i]?.map Prod.fst := by
  induction ps generalizing i with
  | nil => simp [alternate]
  | cons p ps ih =>
    cases i with
    | zero => rfl
    | succ i => simpa [alternate_cons, Nat.mul_succ] using ih i

theorem alternate_snd (ps : List (α × α)) (i : ℕ) :
    (alternate ps)[2 * i + 1]? = ps[i]?.map Prod.snd := by
  induction ps generalizing i with
  | nil => simp [alternate]
  | cons p ps ih =>
    cases i with
    | zero => rfl
    | succ i => simpa [alternate_cons, Nat.mul_succ] using ih i

/-- A list of even length is made of pairs. -/
theorem exists_alternate {l : List α} {n : ℕ} (h : l.length = 2 * n) :
    ∃ ps : List (α × α), ps.length = n ∧ l = alternate ps := by
  induction n generalizing l with
  | zero =>
    obtain rfl := List.length_eq_zero_iff.mp h
    exact ⟨[], rfl, rfl⟩
  | succ n ih =>
    match l, h with
    | a :: b :: l, h =>
      obtain ⟨ps, rfl, rfl⟩ := ih (l := l) (by simp only [List.length_cons] at h; omega)
      exact ⟨(a, b) :: ps, rfl, rfl⟩

theorem mem_alternate {ps : List (α × α)} {a : α} :
    a ∈ alternate ps ↔ ∃ p ∈ ps, a = p.1 ∨ a = p.2 := by
  simp [alternate]

theorem map_alternate {β : Type} (f : α → β) (ps : List (α × α)) :
    (alternate ps).map f = alternate (ps.map fun p => (f p.1, f p.2)) := by
  simp [alternate, List.map_flatMap, List.flatMap_map]

theorem forall₂_alternate {β : Type} {R : α → β → Prop} {ps : List (α × α)} {qs : List (β × β)} :
    List.Forall₂ R (alternate ps) (alternate qs) ↔
      List.Forall₂ (fun p q => R p.1 q.1 ∧ R p.2 q.2) ps qs := by
  induction ps generalizing qs with
  | nil => cases qs <;> simp [alternate]
  | cons p ps ih =>
    cases qs with
    | nil => simp [alternate]
    | cons q qs => simp [alternate_cons, ih, and_assoc]

end Pairs

/-! ### Maps -/

/-- Only values without Complex objects can be keys, so their versions play no part. -/
theorem hashKey_decoded (f g : ℤ → ℤ) (t : DataType) (v : PyValue) :
    (decoded f t v).hashKey = (decoded g t v).hashKey := by
  unfold decoded
  split
  · exact hashKey_decoded f g _ _
  all_goals simp [PyValue.hashKey, PyValue.hashKeys]

/-- Inserting pairs with new keys one after another. -/
theorem foldlM_dictSet {kvs acc : List (PyValue × PyValue)} {keys : List Key}
    (hkeys : (acc ++ kvs).map (fun p => p.1.hashKey) = keys.map some) (hnd : keys.Nodup) :
    kvs.foldlM (fun r p => PyValue.dictSet r p.1 p.2) acc = .ok (acc ++ kvs) := by
  induction kvs generalizing acc with
  | nil => simp [pure, Except.pure]
  | cons p kvs ih =>
    have hnd' : ((acc ++ p :: kvs).map fun p => p.1.hashKey).Nodup := by
      rw [hkeys]
      exact hnd.map (Option.some_injective _)
    have hfresh : acc.any (fun q => q.1.sameKey p.1) = false := by
      rw [List.map_append, List.map_cons, List.nodup_append] at hnd'
      rw [List.any_eq_false]
      exact fun q hq hsame => hnd'.2.2 _ (List.mem_map_of_mem (f := fun p => p.1.hashKey) hq) _
        (List.mem_cons_self) (PyValue.hashKey_of_sameKey hsame)
    have hmem : p.1.hashKey ∈ keys.map some := by
      rw [← hkeys]
      simp
    obtain ⟨key, -, hkey⟩ := List.mem_map.mp hmem
    have hset : PyValue.dictSet acc p.1 p.2 = .ok (acc ++ [p]) := by
      simp only [PyValue.dictSet, ← hkey, hfresh, if_neg Bool.false_ne_true]
    rw [List.foldlM_cons, hset]
    have happend : acc ++ p :: kvs = acc ++ [p] ++ kvs := by simp
    rw [happend] at hkeys ⊢
    exact ih hkeys

/-- A key that is set can be hashed, and is new if the dict grows. -/
theorem dictSet_ok {acc r : List (PyValue × PyValue)} {k v : PyValue}
    (h : PyValue.dictSet acc k v = .ok r) :
    k.hashKey ≠ none ∧ (r.length = acc.length ∨ r = acc ++ [(k, v)]) := by
  unfold PyValue.dictSet at h
  split at h
  · cases h
  · rename_i key hkey
    refine ⟨by simp [hkey], ?_⟩
    split_ifs at h
    · rw [← Except.ok.inj h]
      exact Or.inl (List.length_map _)
    · exact Or.inr (Except.ok.inj h).symm

/-- A dict that has grown with every pair holds the pairs themselves. -/
theorem foldlM_dictSet_ok {kvs acc r : List (PyValue × PyValue)}
    (h : kvs.foldlM (fun r p => PyValue.dictSet r p.1 p.2) acc = .ok r) :
    (∀ p ∈ kvs, p.1.hashKey ≠ none) ∧
      (r.length < acc.length + kvs.length ∨ r = acc ++ kvs) := by
  induction kvs generalizing acc with
  | nil =>
    obtain rfl := Except.ok.inj h
    exact ⟨by simp, Or.inr (List.append_nil _).symm⟩
  | cons p kvs ih =>
    rw [List.foldlM_cons, except_bind_eq_ok] at h
    obtain ⟨acc', hp, h⟩ := h
    obtain ⟨hkey, hgrown⟩ := dictSet_ok hp
    obtain ⟨hkeys, hlen⟩ := ih h
    refine ⟨List.forall_mem_cons.mpr ⟨hkey, hkeys⟩, ?_⟩
    rcases hgrown with hsame | rfl
    · left
      rcases hlen with hlt | rfl
      · rw [List.length_cons]
        omega
      · rw [List.length_append, List.length_cons]
        omega
    · simpa [Nat.add_assoc, Nat.add_comm 1] using hlen

/-- Keys and values of a map with the layouts that were found for them. -/
abbrev Entry := Element × Element

/-- The elements of a map, keys and values in turn. -/
def entryElements (es : List Entry) : List Element := es.flatMap fun e => [e.1, e.2]

theorem entryElements_key (es : List Entry) (i : ℕ) :
    (entryElements es)[2 * i]? = es[i]?.map Prod.fst := alternate_fst es i

theorem entryElements_value (es : List Entry) (i : ℕ) :
    (entryElements es)[2 * i + 1]? = es[i]?.map Prod.snd := alternate_snd es i

theorem mem_entryElements {es : List Entry} {e : Entry} (he : e ∈ es) :
    e.1 ∈ entryElements es ∧ e.2 ∈ entryElements es :=
  ⟨mem_alternate.mpr ⟨e, he, Or.inl rfl⟩, mem_alternate.mpr ⟨e, he, Or.inr rfl⟩⟩

section Maps
variable [Python] [OtherCodecs] {cl : Client} {cf : Bool} {es : List Entry}
  {header : List (FieldName × Layout × Bytes)}

/-- The pairs of a map. -/
abbrev pairs (es : List Entry) : List ((PyValue × DataType) × (PyValue × DataType)) :=
  es.map fun e => (e.1.2, e.2.2)

/-- Keys and values in turn. -/
abbrev inTurn (kvs : List ((PyValue × DataType) × (PyValue × DataType))) :
    List (PyValue × DataType) := kvs.flatMap fun p => [p.1, p.2]

theorem encode_map (k : ℤ) {kvs : List (PyValue × PyValue)}
    {ps : List ((PyValue × DataType) × (PyValue × DataType))} (h : TypedPairs kvs ps) :
    encode cf .mapObject (.tuple [.int k, .dict kvs]) =
      [codePart DataType.mapObject.typeCode, scalarPart .length .int ps.length,
        scalarPart .type .byte k].flatMap (fun p => p.2.2) ++
      ((inTurn ps).map fun x => encode cf x.2 x.1).flatten := by
  have hpairs : encodePairs cf kvs = (inTurn ps).map fun x => encode cf x.2 x.1 := by
    rw [encodePairs_typed h, List.map_flatMap]
    rfl
  rw [← hpairs, ← h.length_eq]
  simp only [encode, codePart, scalarPart, List.flatMap_cons, List.flatMap_nil,
    List.append_assoc, List.append_nil, List.cons_append, List.nil_append]

omit [Python] [OtherCodecs] in
theorem values_entryElements : values (entryElements es) = inTurn (pairs es) := by
  simp [values, entryElements, inTurn, pairs, List.map_flatMap, List.flatMap_map]

omit [Python] [OtherCodecs] in
/-- Elements found for keys and values in turn are those of entries. -/
theorem exists_entries {kvs : List ((PyValue × DataType) × (PyValue × DataType))}
    {ls : List Element} (h : values ls = inTurn kvs) :
    ∃ es, entryElements es = ls ∧ pairs es = kvs := by
  induction kvs generalizing ls with
  | nil =>
    obtain rfl : ls = [] := by simpa [values, inTurn] using h
    exact ⟨[], rfl, rfl⟩
  | cons p kvs ih =>
    match ls, h with
    | k :: v :: ls, h =>
      simp only [values, inTurn, List.map_cons, List.flatMap_cons, List.cons_append,
        List.nil_append, List.cons.injEq] at h
      obtain ⟨hk, hv, hrest⟩ := h
      obtain ⟨es, rfl, rfl⟩ := ih hrest
      exact ⟨(k, v) :: es, by simp [entryElements], by simp [pairs, hk, hv]⟩
    | [], h => simp [values, inTurn] at h
    | [_], h => simp [values, inTurn] at h

theorem pairsToPython_ok (hh : IsHeader header) (hes : AllDecode cl cf (entryElements es))
    (hlen : es.length < 2 ^ 31) (hmem : scalarPart .length .int es.length ∈ header)
    (hkeys : KeysDistinct (pairs es)) {client : Option Client}
    (hk : ∀ e ∈ entryElements es, Knows client cl e.2.2 e.2.1) {n : ℕ}
    (hn : ∀ e ∈ entryElements es, (encode cf e.2.2 e.2.1).length ≤ n) :
    pairsToPython (toPythonN client n) (ofParts (header ++ elementParts cf (entryElements es))) =
      .ok (es.map fun e => (decoded Scalar.byte.wrap e.1.2.2 e.1.2.1,
        decoded Scalar.byte.wrap e.2.2.2 e.2.2.1)) := by
  have hlength := intAttr_part (hh.filled_append hes) hh.nodup_append (range_of_lt hlen)
    (List.mem_append_left _ hmem)
  have hany : ∀ e ∈ entryElements es, anyToPython (toPythonN client n)
      ⟨e.1, encode cf e.2.2 e.2.1⟩ = .ok (decoded Scalar.byte.wrap e.2.2 e.2.1) := fun e he =>
    anyToPython_of_decodes (hes e he).1 (hes e he).2 (hk e he) (hn e he)
  obtain ⟨keys, hkeys, hnd⟩ := hkeys
  have hkeys' : (([] : List (PyValue × PyValue)) ++ es.map fun e : Entry =>
      (decoded Scalar.byte.wrap e.1.2.2 e.1.2.1, decoded Scalar.byte.wrap e.2.2.2 e.2.2.1)).map
        (fun p => p.1.hashKey) = keys.map some := by
    rw [← hkeys]
    simp only [List.nil_append, List.map_map, Function.comp_def]
    exact List.map_congr_left fun e _ => hashKey_decoded _ _ _ _
  have hfold := foldlM_dictSet hkeys' hnd
  simp only [pairsToPython, hlength, bind, Except.bind, Int.toNat_natCast]
  rw [List.nil_append, List.foldlM_map] at hfold
  rw [← hfold]
  refine foldlM_range fun i hi b => ?_
  have he : es[i]? = some es[i] := List.getElem?_eq_getElem hi
  have hkey := attr_element hh hes (i := 2 * i) (by rw [entryElements_key, he]; rfl)
  have hvalue := attr_element hh hes (i := 2 * i + 1) (by rw [entryElements_value, he]; rfl)
  have hmem := mem_entryElements (List.getElem_mem hi)
  simp only [hkey, hvalue, hany _ hmem.1, hany _ hmem.2]

theorem decodes_map {k : ℤ} {kvs : List (PyValue × PyValue)} (hk : Scalar.byte.Range k)
    (htyped : TypedPairs kvs (pairs es)) (hes : AllDecode cl cf (entryElements es))
    (hlen : es.length < 2 ^ 31) (hkeys : KeysDistinct (pairs es)) :
    Decodes cl cf .mapObject (.tuple [.int k, .dict kvs])
      (ofParts ([codePart DataType.mapObject.typeCode, scalarPart .length .int es.length,
        scalarPart .type .byte k] ++ elementParts cf (entryElements es))).ctype := by
  have hv : Encodable cl cf .mapObject (.tuple [.int k, .dict kvs]) := by
    refine .map hk htyped (fun p hp => ?_) (fun p hp => ?_)
      (by simpa [htyped.length_eq] using hlen) hkeys
    all_goals
      obtain ⟨e, he, rfl⟩ := List.mem_map.mp hp
    · exact (hes e.1 (mem_entryElements he).1).1
    · exact (hes e.2 (mem_entryElements he).2).1
  have hh := isHeader_collection DataType.mapObject.typeCode es.length k
  have hbytes : encode cf .mapObject (.tuple [.int k, .dict kvs]) =
      ([codePart DataType.mapObject.typeCode, scalarPart .length .int es.length,
        scalarPart .type .byte k] ++ elementParts cf (entryElements es)).flatMap
        fun p => p.2.2 := by
    rw [encode_map k htyped, List.flatMap_append, elementParts_bytes, ← values_entryElements,
      List.map_map, List.length_map]
    rfl
  refine decodes_of_parts hv (by simp) (hh.filled_append hes) hh.nodup_append (by simp) hbytes
    fun client hknows n hn => ?_
  have hknows' : ∀ e ∈ entryElements es, Knows client cl e.2.2 e.2.1 := by
    intro e he hne
    refine hknows fun hnil => hne ?_
    simp only [objects, objectsPairs_typed htyped, List.flatMap_eq_nil_iff,
      List.append_eq_nil_iff] at hnil
    obtain ⟨p, hp, hep⟩ := List.mem_flatMap.mp he
    have := hnil _ (List.mem_map_of_mem (f := fun e : Entry => (e.1.2, e.2.2)) hp)
    rcases List.mem_pair.mp hep with rfl | rfl
    exacts [this.1, this.2]
  have hpairs := pairsToPython_ok hh hes hlen (by simp) hkeys hknows'
    fun e he => element_length_le hbytes hn he
  have htype := intAttr_part (hh.filled_append hes) hh.nodup_append (n := .type) hk (by simp)
  simp only [toPythonNotNull, mapToPython, hpairs, htype, bind, Except.bind, decoded,
    decodedPairs_typed htyped, pairs, List.map_map, Function.comp_def]

end Maps

end PyGridGain
