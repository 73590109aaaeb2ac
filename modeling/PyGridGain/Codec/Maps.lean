import PyGridGain.Codec.InferenceReads
import PyGridGain.Codec.RoundTrip
import PyGridGain.Codec.Structs
import PyGridGain.Codec.Terminates
import PyGridGain.Datatypes.Payloads
import PyGridGain.Lib.KeyedDict

/-! Maps that arrive: the pairs on the wire are set in a dict one after another, in which keys of
different classes may be equal. -/

namespace PyGridGain

open CObj StreamM

/-- The dict in which pairs are set one after another. -/
def dictOf (kvs : List (PyValue × PyValue)) : Except PyError (List (PyValue × PyValue)) :=
  if ∀ p ∈ kvs, p.1.hashKey ≠ none then .ok (partialCollapse PyValue.dictKey kvs)
  else raise .typeError

theorem dictSet_eq {d : List (PyValue × PyValue)} {k v : PyValue} (h : k.hashKey ≠ none) :
    PyValue.dictSet d k v = .ok (partialSet PyValue.dictKey d k v) := by
  obtain ⟨key, hkey⟩ := Option.ne_none_iff_exists'.mp h
  unfold PyValue.dictSet partialSet PyValue.sameKey
  rw [hkey]
  dsimp only
  split_ifs <;> rfl

theorem foldlM_dictSet_eq (kvs d : List (PyValue × PyValue)) :
    kvs.foldlM (fun d p => PyValue.dictSet d p.1 p.2) d =
      if ∀ p ∈ kvs, p.1.hashKey ≠ none then
        .ok (kvs.foldl (fun d p => partialSet PyValue.dictKey d p.1 p.2) d)
      else raise .typeError := by
  induction kvs generalizing d with
  | nil => rfl
  | cons p kvs ih =>
    rw [List.foldlM_cons]
    by_cases hp : p.1.hashKey = none
    · have hraise : PyValue.dictSet d p.1 p.2 = raise .typeError := by
        unfold PyValue.dictSet
        rw [hp]
      rw [hraise, if_neg fun h => h p List.mem_cons_self hp]
      rfl
    · rw [dictSet_eq hp, except_bind, ih, List.foldl_cons]
      simp only [List.forall_mem_cons, ne_eq, hp, not_false_eq_true, true_and]

theorem foldlM_dictSet_nil (kvs : List (PyValue × PyValue)) :
    kvs.foldlM (fun d p => PyValue.dictSet d p.1 p.2) [] = dictOf kvs := by
  rw [foldlM_dictSet_eq, foldl_partialSet, dictOf]

/-- A dict has an entry for every pair exactly if all keys can be hashed and none equals another. -/
theorem dictOf_length_iff {kvs : List (PyValue × PyValue)} :
    (∃ d, dictOf kvs = .ok d ∧ d.length = kvs.length) ↔
      (∀ p ∈ kvs, p.1.hashKey ≠ none) ∧ (kvs.filterMap fun p => p.1.dictKey).Nodup := by
  unfold dictOf
  split_ifs with h
  · rw [← length_partialCollapse_iff]
    constructor
    · rintro ⟨d, hd, hlength⟩
      rw [← Except.ok.inj hd] at hlength
      exact ⟨h, hlength⟩
    · exact fun hkeys => ⟨_, rfl, hkeys.2⟩
  · refine iff_of_false ?_ fun hkeys => h hkeys.1
    rintro ⟨d, hd, -⟩
    cases hd

/-- No two keys are equal as Python values, and every key can be hashed. -/
def KeysApart (kvs : List (PyValue × PyValue)) : Prop :=
  (∀ p ∈ kvs, p.1.hashKey ≠ none) ∧ (kvs.filterMap fun p => p.1.dictKey).Nodup

/-- A dict has the pairs themselves for its entries. -/
theorem dictOf_eq_self_iff {kvs : List (PyValue × PyValue)} :
    dictOf kvs = .ok kvs ↔ KeysApart kvs := by
  unfold dictOf KeysApart
  split_ifs with h
  · rw [Except.ok.injEq, partialCollapse_eq_self_iff]
    exact (and_iff_right h).symm
  · exact iff_of_false (by rintro ⟨⟩) fun hkeys => h hkeys.1

/-! ### Pairs of structures -/

theorem foldlM_insertPair {conv : CObject → Except PyError PyValue} {ps : List (CObject × CObject)}
    {kvs : List (PyValue × PyValue)} (h : (alternate ps).mapM conv = .ok (alternate kvs))
    (d : List (PyValue × PyValue)) :
    ps.foldlM (insertPair conv) d = kvs.foldlM (fun d p => PyValue.dictSet d p.1 p.2) d := by
  induction ps generalizing kvs d with
  | nil =>
    cases kvs with
    | nil => rfl
    | cons p kvs => cases h
  | cons p ps ih =>
    obtain ⟨k, ys, hk, hys, hkvs⟩ := mapM_cons_ok.mp h
    obtain ⟨v, ys', hv, hys', rfl⟩ := mapM_cons_ok.mp hys
    cases kvs with
    | nil => cases hkvs
    | cons q kvs =>
      obtain ⟨⟩ := hkvs
      have hinsert : insertPair conv d p = PyValue.dictSet d q.1 q.2 := by
        rw [insertPair, hk, except_bind, hv, except_bind]
      rw [List.foldlM_cons, List.foldlM_cons, hinsert]
      exact bind_congr fun d' => ih hys' d'

section Maps
variable {I : Client → Prop} {w : WireClass}

/-- What stands behind a header that counts it. -/
theorem finds_parseArray (off : ℕ) (count : ℕ → ℕ) (before after : Bytes) {n : ℕ}
    {header : List (FieldName × Layout × Bytes)} {ds : List Bytes} {xs : List PyValue}
    (hh : IsHeader header)
    (hbytes : (header.flatMap fun p => p.2.2) = before ++ Scalar.int.store n ++ after)
    (hoff : before.length = off) (hn : n < 2 ^ 31) (hcount : count n = ds.length)
    (h : List.Forall₂ (Reads I w) ds xs) :
    Finds I (parseArray off (header.map fun p => (p.1, p.2.1)) count w.parse)
      ((header.flatMap fun p => p.2.2) ++ ds.flatten) fun c => ∃ os : List CObject,
        (⟨c, (header.flatMap fun p => p.2.2) ++ ds.flatten⟩ : CObject) =
          ofParts (header ++ elementFields os) ∧
        (os.map fun o => o.mem) = ds ∧ Fits os ∧
        ∀ client, I client → os.mapM (w.toPython client) = .ok xs := by
  refine Finds.looking (Q := fun m => m = n) (fun s hs => ⟨_, ?_, rfl⟩) ?_
  · refine peekLength_ok hs.emptyView hn ?_
    have hat := hs.at_pos.left
    rw [hbytes, List.append_assoc] at hat
    rw [← hoff]
    exact hat.right.left
  · rintro m rfl
    have hsize : CType.sizeFields (header.map fun p => (p.1, p.2.1)) =
        (header.flatMap fun p => p.2.2).length := (ofParts_length hh.filled).symm
    rw [hsize, hcount]
    refine (Finds.seekCur (Q := fun _ => True) trivial).bind fun _ _ =>
      (finds_parseElements h 0).map ?_
    rintro cs ⟨os, rfl, hmem, hfits, hpy⟩
    refine ⟨os, ?_, hmem, hfits, hpy⟩
    have hnamed : (elementFields os).map (fun p => (p.1, p.2.1)) =
        named 0 (os.map fun o => o.ctype) := by
      rw [elementFields, numbered, named]
      apply List.ext_getElem <;> simp
    have hflat : (elementFields os).flatMap (fun p => p.2.2) = ds.flatten := by
      rw [elementFields, numbered_flatMap, ← hmem, List.flatMap_map, List.flatMap_def]
    simp only [ofParts, List.map_append, List.flatMap_append, hnamed, hflat]

end Maps

/-- Pairs on the wire, keys and values of any classes, and what they are where `passed` is what
`to_python` is given of the client. -/
structure WirePairs (I : Client → Prop) (passed : Client → Option Client) [Python] [OtherCodecs]
    where
  pairs : List ((Bytes × PyValue) × (Bytes × PyValue))
  reads : ∀ e ∈ alternate pairs, Reads I (anyDataObject.passing passed) e.1 e.2
  length_lt : pairs.length < 2 ^ 31

namespace WirePairs
variable [Python] [OtherCodecs] {I : Client → Prop} {passed : Client → Option Client}
  (w : WirePairs I passed)

/-- What the keys and the values are read as. -/
def kvs : List (PyValue × PyValue) := w.pairs.map fun p => (p.1.2, p.2.2)

def content : Bytes := ((alternate w.pairs).map (·.1)).flatten

/-- What a `Map` is read from. -/
def payload : Bytes := Scalar.int.store w.pairs.length ++ w.content

/-- What a `MapObject` is read from. -/
def object (type : ℤ) : Bytes :=
  DataType.mapObject.typeCode :: (Scalar.int.store w.pairs.length ++ Scalar.byte.store type) ++
    w.content

theorem forall₂_reads : List.Forall₂ (Reads I (anyDataObject.passing passed))
    ((alternate w.pairs).map (·.1)) (alternate w.kvs) := by
  have hvalues : alternate w.kvs = (alternate w.pairs).map (·.2) := (map_alternate _ _).symm
  rw [hvalues, List.forall₂_map_left_iff, List.forall₂_map_right_iff, List.forall₂_same]
  exact w.reads

/-- Enough levels of nesting for every element. -/
theorem mapM_any {client : Option Client} {os : List CObject} {xs : List PyValue} {n : ℕ}
    (hn : ∀ o ∈ os, o.mem.length < n)
    (h : os.mapM (anyDataObject.toPython client) = .ok xs) :
    os.mapM (anyToPython (toPythonN client n)) = .ok xs := by
  induction os generalizing xs with
  | nil => exact h
  | cons o os ih =>
    rw [List.forall_mem_cons] at hn
    obtain ⟨x, ys, hx, hys, rfl⟩ := mapM_cons_ok.mp h
    have hx' : anyToPython (toPythonN client n) o = .ok x :=
      anyToPython_extends (toPythonN_extends client hn.1) o x hx
    exact mapM_cons_ok.mpr ⟨x, ys, hx', ih hn.2 hys, rfl⟩

theorem pairsToPython_wire {client : Option Client} {header : List (FieldName × Layout × Bytes)}
    {os : List CObject} {n : ℕ} (hh : IsHeader header)
    (hlength : scalarPart .length .int w.pairs.length ∈ header)
    (hmem : (os.map fun o => o.mem) = (alternate w.pairs).map (·.1)) (hfits : Fits os)
    (hn : ∀ o ∈ os, o.mem.length < n)
    (hpy : os.mapM (anyDataObject.toPython client) = .ok (alternate w.kvs)) :
    pairsToPython (toPythonN client n) (ofParts (header ++ elementFields os)) =
      dictOf w.kvs := by
  have hcount : os.length = 2 * w.pairs.length := by
    rw [← alternate_length, ← List.length_map, hmem, List.length_map]
  obtain ⟨ps, hps, rfl⟩ := exists_alternate hcount
  rw [← hps] at hlength
  rw [pairsToPython_eq _ hh hfits (hps ▸ w.length_lt) hlength, foldlM_insertPair (mapM_any hn hpy),
    foldlM_dictSet_nil]

theorem element_length {os : List CObject}
    (hmem : (os.map fun o => o.mem) = (alternate w.pairs).map (·.1)) :
    ∀ o ∈ os, o.mem.length ≤ w.content.length := by
  intro o ho
  have hin : o.mem ∈ (alternate w.pairs).map (·.1) := hmem ▸ List.mem_map_of_mem ho
  exact (List.sublist_flatten_of_mem hin).length_le

theorem yields_map : Yields I (mapClass.passing passed) w.payload ((dictOf w.kvs).map .dict) := by
  have hheader : IsHeader [scalarPart .length .int w.pairs.length] := lengthHeader_isHeader _
  have hbytes : ([scalarPart (.length : FieldName) .int w.pairs.length].flatMap fun p => p.2.2) =
      Scalar.int.store w.pairs.length := by simp [scalarPart]
  have hfinds := finds_parseArray 0 (2 * ·) [] [] (n := w.pairs.length) hheader
    (by simp [scalarPart]) rfl w.length_lt (by rw [List.length_map, alternate_length])
    w.forall₂_reads
  rw [hbytes] at hfinds
  refine hfinds.mono ?_
  rintro c ⟨os, ho, hmem, hfits, hpy⟩
  have hobject : (⟨c, w.payload⟩ : CObject) =
      ofParts ([scalarPart .length .int w.pairs.length] ++ elementFields os) := ho
  have hsize : w.payload.length = c.size := by
    have hlength := ofParts_length (hheader.filled_elements hfits)
    rw [← hobject] at hlength
    exact hlength
  refine ⟨hsize.symm, fun client hclient => ?_⟩
  have hn : ∀ o ∈ os, o.mem.length < w.payload.length + 1 := fun o hos => by
    have hle := w.element_length hmem o hos
    rw [payload, List.length_append]
    omega
  have hpairs : pairsToPython (toPythonN (passed client) (w.payload.length + 1))
      (ofParts ([scalarPart .length .int w.pairs.length] ++ elementFields os)) = dictOf w.kvs :=
    w.pairsToPython_wire hheader List.mem_cons_self hmem hfits hn (hpy client hclient)
  rw [← hobject] at hpairs
  dsimp only [mapClass, WireClass.passing, Option.bind_some]
  rw [hpairs]
  cases dictOf w.kvs <;> rfl

/-- A structure whose first byte is the type code of a map. -/
theorem finds_notNull (hothers : OthersMove) {rest : Bytes} {Q : Layout → Prop}
    (h : Finds I (parseArray 1 collectionHeader (2 * ·) anyDataObject.parse)
      (DataType.mapObject.typeCode :: rest) Q) :
    Finds I (parse .mapObject) (DataType.mapObject.typeCode :: rest) Q := by
  have heq : parse .mapObject = parseNullable parse .mapObject := parse_eq hothers .mapObject
  have hany : anyDataObject.parse = anyParse parse := anyDataObject_eq
  rw [heq]
  refine Finds.looking (Q := fun code => code = [DataType.mapObject.typeCode]) (fun s hs => ?_) ?_
  · have hat : At s.buf s.pos [DataType.mapObject.typeCode] :=
      At.left (b := rest) hs.at_pos
    exact ⟨_, peek_at hs.emptyView hat (by simp), rfl⟩
  · rintro code rfl
    rw [if_neg (by decide)]
    rw [hany] at h
    exact h

theorem yields_mapObject (hothers : OthersMove) {type : ℤ} (htype : Scalar.byte.Range type) :
    Yields I ((wireClass .mapObject).passing passed) (w.object type)
      ((dictOf w.kvs).map fun kvs => .tuple [.int type, .dict kvs]) := by
  have hheader := isHeader_collection DataType.mapObject.typeCode w.pairs.length type
  have hbytes : ([codePart DataType.mapObject.typeCode, scalarPart .length .int w.pairs.length,
      scalarPart .type .byte type].flatMap fun p => p.2.2) = DataType.mapObject.typeCode ::
        (Scalar.int.store w.pairs.length ++ Scalar.byte.store type) := by
    simp [codePart, scalarPart]
  have hfinds := finds_parseArray 1 (2 * ·) [DataType.mapObject.typeCode] (Scalar.byte.store type)
    (n := w.pairs.length) hheader
    (by simp [codePart, scalarPart]) rfl w.length_lt
    (by rw [List.length_map, alternate_length]) w.forall₂_reads
  rw [hbytes] at hfinds
  refine (finds_notNull hothers hfinds).mono ?_
  rintro c ⟨os, ho, hmem, hfits, hpy⟩
  have hobject : (⟨c, w.object type⟩ : CObject) =
      ofParts ([codePart DataType.mapObject.typeCode, scalarPart .length .int w.pairs.length,
        scalarPart .type .byte type] ++ elementFields os) := ho
  have hfilled := hheader.filled_elements hfits
  have hsize : (w.object type).length = c.size := by
    have hlength := ofParts_length hfilled
    rw [← hobject] at hlength
    exact hlength
  refine ⟨hsize.symm, fun client hclient => ?_⟩
  have hn : ∀ o ∈ os, o.mem.length < (w.object type).length := fun o hos => by
    have hle := w.element_length hmem o hos
    rw [object, List.length_append, List.length_cons]
    omega
  have hpairs : pairsToPython (toPythonN (passed client) (w.object type).length)
      (ofParts ([codePart DataType.mapObject.typeCode, scalarPart .length .int w.pairs.length,
        scalarPart .type .byte type] ++ elementFields os)) = dictOf w.kvs :=
    w.pairsToPython_wire hheader (by simp) hmem hfits hn (hpy client hclient)
  have hcode := getInt_code hfilled hheader.nodup_elements
    (typeCode_lt .mapObject) (List.mem_append_left _ List.mem_cons_self)
  have hkind := intAttr_part (n := .type) hfilled hheader.nodup_elements htype (by simp)
  rw [← hobject] at hpairs hcode hkind
  have hnotNull : toPython (passed client) .mapObject ⟨c, w.object type⟩ =
      mapToPython (toPythonN (passed client) (w.object type).length) ⟨c, w.object type⟩ :=
    toPythonN_succ (by simp) hcode _
  refine hnotNull.trans ?_
  rw [mapToPython, hkind, except_bind, hpairs]
  cases dictOf w.kvs <;> rfl

end WirePairs

/-- A `Map` and a `MapObject` are read as the dict in which the pairs on the wire are set one after
another, with a client or without: an entry for each of them is there exactly if every key can be
hashed and no two are equal, whatever their classes; a NaN is equal to no key. -/
theorem map_entries [Python] [OtherCodecs] {I : Client → Prop} {passed : Client → Option Client}
    (hothers : OthersMove) (w : WirePairs I passed) :
    Yields I (mapClass.passing passed) w.payload ((dictOf w.kvs).map .dict) ∧
    (∀ type, Scalar.byte.Range type → Yields I ((wireClass .mapObject).passing passed) (w.object type)
      ((dictOf w.kvs).map fun kvs => .tuple [.int type, .dict kvs])) ∧
    ((∃ d, dictOf w.kvs = .ok d ∧ d.length = w.pairs.length) ↔
      (∀ p ∈ w.kvs, p.1.hashKey ≠ none) ∧ (w.kvs.filterMap fun p => p.1.dictKey).Nodup) := by
  have hlength : w.kvs.length = w.pairs.length := List.length_map _
  refine ⟨w.yields_map, fun type htype => w.yields_mapObject hothers htype, ?_⟩
  rw [← hlength]
  exact dictOf_length_iff

/-- An `Int` 1, a `Long` 1 and a `Bool` true as keys. -/
def equalKeys (passed : Client → Option Client) :
    @WirePairs (SameRegistry someClient true) passed asciiLower noOtherCodecs :=
  let _ := asciiLower
  let _ := noOtherCodecs
  let side (t : DataType) (v : PyValue) : Bytes × PyValue :=
    (encode true t v, decoded Scalar.byte.wrap t v)
  have hside {t : DataType} {v : PyValue} (h : ValueTree t v) :
      Reads (SameRegistry someClient true) (anyDataObject.passing passed) (side t v).1 (side t v).2 :=
    h.readsPassing passed
  { pairs := [(side .intObject (.int 1), side .intObject (.int 10)),
      (side .longObject (.int 1), side .intObject (.int 20)),
      (side .boolObject (.bool true), side .intObject (.int 30))]
    reads := by
      simp only [alternate, List.flatMap_cons, List.flatMap_nil, List.cons_append, List.nil_append,
        List.forall_mem_cons, List.not_mem_nil, false_imp_iff, implies_true, and_true]
      exact ⟨hside (.int (s := .int) rfl (by decide)), hside (.int (s := .int) rfl (by decide)),
        hside (.int (s := .longlong) rfl (by decide)), hside (.int (s := .int) rfl (by decide)),
        hside (.bool true), hside (.int (s := .int) rfl (by decide))⟩
    length_lt := by decide }

theorem equalKeys_kvs (passed : Client → Option Client) :
    @WirePairs.kvs asciiLower noOtherCodecs _ _ (equalKeys passed) =
      [(.int 1, .int 10), (.int 1, .int 20), (.bool true, .int 30)] := by
  simp [WirePairs.kvs, equalKeys, decoded]

/-- One entry is left of three with equal keys. -/
theorem map_entries_equalKeys :
    let _ := asciiLower
    let _ := noOtherCodecs
    dictOf (equalKeys some).kvs = .ok [(.int 1, .int 30)] ∧
      Yields (SameRegistry someClient true) (mapClass.passing some) (equalKeys some).payload
        ((dictOf (equalKeys some).kvs).map .dict) := by
  intro _ _
  have hothers : OthersMove := fun _ => advances_raise
  refine ⟨?_, (map_entries hothers (equalKeys some)).1⟩
  rw [equalKeys_kvs]
  rfl

/-- A NaN is another key than a NaN with the same bits. -/
example : dictOf [(.float 0x7ff8000000000000, .int 1), (.float 0x7ff8000000000000, .int 2)] =
    .ok [(.float 0x7ff8000000000000, .int 1), (.float 0x7ff8000000000000, .int 2)] := rfl

end PyGridGain
