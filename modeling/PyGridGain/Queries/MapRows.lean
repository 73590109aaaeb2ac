import PyGridGain.Queries.ScanPages

/-! The entries that are left of a map of pairs, in a `Map`, in a `MapObject` and in the rows of a
response: all of them, or fewer where keys of different classes are equal as Python values. -/

namespace PyGridGain

open CObj StreamM

section Maps
variable [Python] [OtherCodecs] {I : Client → Prop} {passed : Client → Option Client}

/-- `Map` reads every pair as an entry. -/
def MapKept (w : WirePairs I passed) : Prop :=
  Yields I (mapClass.passing passed) w.payload (.ok (.dict w.kvs))

/-- `MapObject` reads every pair as an entry. -/
def MapObjectKept (w : WirePairs I passed) (type : ℤ) : Prop :=
  Yields I ((wireClass .mapObject).passing passed) (w.object type)
    (.ok (.tuple [.int type, .dict w.kvs]))

omit [Python] [OtherCodecs] in
theorem map_dict_eq_iff {x : Except PyError (List (PyValue × PyValue))}
    {f : List (PyValue × PyValue) → PyValue} (hf : Function.Injective f)
    {kvs : List (PyValue × PyValue)} : x.map f = .ok (f kvs) ↔ x = .ok kvs := by
  cases x with
  | error e => exact iff_of_false (by rintro ⟨⟩) (by rintro ⟨⟩)
  | ok d =>
    show Except.ok (f d) = Except.ok (f kvs) ↔ _
    rw [Except.ok.injEq, Except.ok.injEq, hf.eq_iff]

theorem mapKept_iff (w : WirePairs I passed) {client : Client} (hclient : I client) :
    MapKept w ↔ KeysApart w.kvs := by
  rw [← dictOf_eq_self_iff, ← map_dict_eq_iff fun _ _ h => PyValue.dict.inj h]
  constructor
  · exact fun h => w.yields_map.unique h hclient
  · intro h
    have hyields := w.yields_map
    rw [h] at hyields
    exact hyields

theorem mapObjectKept_iff (hothers : OthersMove) (w : WirePairs I passed) {type : ℤ}
    (htype : Scalar.byte.Range type) {client : Client} (hclient : I client) :
    MapObjectKept w type ↔ KeysApart w.kvs := by
  have hinj : Function.Injective fun kvs => PyValue.tuple [.int type, .dict kvs] :=
    fun a b h => by simpa using h
  rw [← dictOf_eq_self_iff, ← map_dict_eq_iff hinj]
  constructor
  · exact fun h => (w.yields_mapObject hothers htype).unique h hclient
  · intro h
    have hyields := w.yields_mapObject hothers htype
    rw [h] at hyields
    exact hyields

end Maps

/-! ### Responses -/

/-- A response whose `data` is a map: of `get_all`, or a page of a scan, SQL or vector query, the
first with the id of its cursor. -/
inductive RowsResponse
  | getAll
  | page (cursor : Option {i : ℤ // Scalar.longlong.Range i}) (more : Bool)

namespace RowsResponse
variable [Python] [OtherCodecs] {I : Client → Prop} (r : RowsResponse)
  (w : WirePairs I fun _ => none)

/-- The `response_config`. -/
def config : List (PyStr × WireClass) :=
  match r with
  | getAll => [("data".toList, mapClass)]
  | page cursor _ => pageConfig cursor.isSome

/-- The bytes of the body around the map. -/
def body : Bytes :=
  match r with
  | getAll => w.payload
  | page cursor more => (cursor.elim [] fun i => Scalar.longlong.store i.1) ++
      (w.payload ++ Scalar.byte.store (if more then 1 else 0))

/-- The fields of the body. -/
def fields : List ResponseField :=
  match r with
  | getAll => [("data".toList, mapClass, w.payload, (dictOf w.kvs).map .dict)]
  | page cursor more => (cursor.toList.map fun i =>
      ("cursor".toList, primitive .longlong, Scalar.longlong.store i.1, .ok (.int i.1))) ++
      [("data".toList, mapClass, w.payload, (dictOf w.kvs).map .dict),
        ("more".toList, boolClass, Scalar.byte.store (if more then 1 else 0), .ok (.bool more))]

/-- The value that is received where the map is this dict. -/
def values (d : List (PyValue × PyValue)) : List (PyStr × PyValue) :=
  match r with
  | getAll => [("data".toList, .dict d)]
  | page cursor more => (cursor.toList.map fun i => ("cursor".toList, .int i.1)) ++
      [("data".toList, .dict d), ("more".toList, .bool more)]

theorem fields_config : (r.fields w).map (fun f => (f.1, f.2.1)) = r.config := by
  cases r with
  | getAll => rfl
  | page cursor more => cases cursor <;> rfl

theorem fields_body : (r.fields w).flatMap (fun f => f.2.2.1) = r.body w := by
  cases r with
  | getAll => exact List.append_nil _
  | page cursor more => cases cursor <;> simp [fields, body]

theorem fields_names : (r.fields w).map (·.1) = r.config.map (·.1) := by
  rw [← r.fields_config w, List.map_map]
  rfl

theorem config_nodup : (r.config.map (·.1)).Nodup := by
  cases r with
  | getAll => simp [config]
  | page cursor more =>
    cases cursor <;> simp [config, pageConfig, -String.reduceToList, String.toList_inj]

theorem config_free : ∀ name ∈ r.config.map (·.1), name ∉ envelopeNames := by
  cases r with
  | getAll => simp [config, envelopeNames, frontNames, -String.reduceToList, String.toList_inj]
  | page cursor more =>
    cases cursor <;> simp [config, pageConfig, envelopeNames, frontNames, -String.reduceToList,
      String.toList_inj]

theorem fields_yields : ∀ f ∈ r.fields w, Yields I f.2.1.withoutClient f.2.2.1 f.2.2.2 := by
  have hdata := w.yields_map
  cases r with
  | getAll =>
    rw [fields, List.forall_mem_singleton]
    exact hdata
  | page cursor more =>
    rw [fields, List.forall_mem_append, List.forall_mem_map, List.forall_mem_cons,
      List.forall_mem_singleton]
    exact ⟨fun i _ => (reads_primitive i.2).withoutClient fun _ => rfl, hdata,
      (reads_bool more).withoutClient fun _ => rfl⟩

theorem fields_outcome : (r.fields w).mapM outcome = (dictOf w.kvs).map r.values := by
  cases r with
  | getAll => cases hd : dictOf w.kvs <;> simp [fields, outcome, hd] <;> rfl
  | page cursor more =>
    cases cursor <;> cases hd : dictOf w.kvs <;> simp [fields, outcome, hd] <;> rfl

theorem pageRows_values (d : List (PyValue × PyValue)) :
    pageRows (strDict (r.values d)) = .ok d := by
  have hnames : (r.values d).map (·.1) = r.config.map (·.1) := by
    cases r with
    | getAll => rfl
    | page cursor more => cases cursor <;> rfl
  have hdata : ("data".toList, PyValue.dict d) ∈ r.values d := by
    cases r <;> simp [values, -String.reduceToList]
  rw [pageRows, item_strDict (hnames ▸ r.config_nodup) hdata, except_bind]

/-- The rows of a response are those of the dict that the map is. -/
theorem processResponse_eq (version : ProtocolVersion) {e : Envelope} (herror : e.error = none)
    {client : Client} (hclient : I client) (s : Affinity) :
    ∃ client', processResponse version (responseOf r.config) (e.encode version (r.body w)) client s =
      (dictOf w.kvs).map fun d =>
        (⟨OP_SUCCESS, e.queryId, .str "Success".toList, strDict (r.values d)⟩, client',
          e.update version s) := by
  have hnd : ((r.fields w).map (·.1)).Nodup := (r.fields_names w).symm ▸ r.config_nodup
  have hfree : ∀ f ∈ r.fields w, f.1 ∉ envelopeNames := by
    rw [← List.forall_mem_map (P := fun name => name ∉ envelopeNames), fields_names]
    exact r.config_free
  have hempty : (r.fields w).isEmpty = false := by cases r <;> simp [fields]
  obtain ⟨client', -, hprocess⟩ := processResponse_yields (r.fields_yields w) hnd hfree version
    herror hclient s
  rw [fields_config, fields_body, bodyValue, hempty, if_neg Bool.false_ne_true,
    fields_outcome] at hprocess
  refine ⟨client', hprocess.trans ?_⟩
  cases dictOf w.kvs <;> rfl

end RowsResponse

section Rows
variable [Python] [OtherCodecs] {I : Client → Prop}

/-- The response comes in, and has a row for every pair. -/
def RowsKept (w : WirePairs I fun _ => none) (r : RowsResponse) (version : ProtocolVersion)
    (e : Envelope) (client : Client) (s : Affinity) : Prop :=
  ∃ result client' s',
    processResponse version (responseOf r.config) (e.encode version (r.body w)) client s =
      .ok (result, client', s') ∧ pageRows result.value = .ok w.kvs

theorem rowsKept_iff (w : WirePairs I fun _ => none) (r : RowsResponse)
    (version : ProtocolVersion) {e : Envelope} (herror : e.error = none) {client : Client}
    (hclient : I client) (s : Affinity) :
    RowsKept w r version e client s ↔ KeysApart w.kvs := by
  obtain ⟨client', hprocess⟩ := r.processResponse_eq w version herror hclient s
  rw [← dictOf_eq_self_iff, RowsKept, hprocess]
  cases dictOf w.kvs with
  | error e => exact iff_of_false (by rintro ⟨_, _, _, ⟨⟩, -⟩) (by rintro ⟨⟩)
  | ok d =>
    constructor
    · rintro ⟨_, _, _, hresult, hrows⟩
      cases hresult
      rw [← hrows, r.pageRows_values]
    · intro hd
      refine ⟨_, _, _, rfl, ?_⟩
      rw [← hd]
      exact r.pageRows_values d

end Rows

/-- Pairs on the wire, read with the client or without, are all entries of what `Map` and
`MapObject` return, and all rows of a response that has them, exactly if every key can be hashed
and no two are equal as Python values, whatever their classes. -/
theorem every_entry_kept_iff [Python] [OtherCodecs] {I : Client → Prop} (hothers : OthersMove)
    {client : Client} (hclient : I client) :
    (∀ (passed : Client → Option Client) (w : WirePairs I passed),
      (MapKept w ↔ KeysApart w.kvs) ∧
        ∀ type, Scalar.byte.Range type → (MapObjectKept w type ↔ KeysApart w.kvs)) ∧
    ∀ (w : WirePairs I fun _ => none) (r : RowsResponse) (version : ProtocolVersion)
      (e : Envelope), e.error = none → ∀ s,
        RowsKept w r version e client s ↔ KeysApart w.kvs := by
  constructor
  · exact fun passed w => ⟨mapKept_iff w hclient,
      fun type htype => mapObjectKept_iff hothers w htype hclient⟩
  · exact fun w r version e herror s => rowsKept_iff w r version herror hclient s

/-- An `Int` 1 and a `Long` 2 as keys. -/
def apartKeys (passed : Client → Option Client) :
    @WirePairs (SameRegistry someClient true) passed asciiLower noOtherCodecs :=
  let _ := asciiLower
  let _ := noOtherCodecs
  let side (t : DataType) (v : PyValue) : Bytes × PyValue :=
    (encode true t v, decoded Scalar.byte.wrap t v)
  have hside {t : DataType} {v : PyValue} (h : ValueTree t v) :
      Reads (SameRegistry someClient true) (anyDataObject.passing passed) (side t v).1 (side t v).2 :=
    h.readsPassing passed
  { pairs := [(side .intObject (.int 1), side .intObject (.int 10)),
      (side .longObject (.int 2), side .intObject (.int 20))]
    reads := by
      simp only [alternate, List.flatMap_cons, List.flatMap_nil, List.cons_append, List.nil_append,
        List.forall_mem_cons, List.not_mem_nil, false_imp_iff, implies_true, and_true]
      exact ⟨hside (.int (s := .int) rfl (by decide)), hside (.int (s := .int) rfl (by decide)),
        hside (.int (s := .longlong) rfl (by decide)), hside (.int (s := .int) rfl (by decide))⟩
    length_lt := by decide }

/-- Both entries are there. -/
theorem every_entry_kept_iff_apart :
    let _ := asciiLower
    let _ := noOtherCodecs
    let w := apartKeys fun _ => none
    let e : Envelope := ⟨7, none, none, by decide, by decide, by decide, by decide⟩
    MapKept w ∧ MapObjectKept w 1 ∧
      RowsKept w (.page (some ⟨5, by decide⟩) true) maxProtocol e someClient Affinity.init := by
  intro _ _ w e
  have hothers : OthersMove := fun _ => advances_raise
  have hclient : SameRegistry someClient true someClient := ⟨rfl, rfl⟩
  have hapart : KeysApart w.kvs := by
    have hkvs : w.kvs = [(.int 1, .int 10), (.int 2, .int 20)] := by
      simp [w, WirePairs.kvs, apartKeys, decoded]
    rw [hkvs]
    refine ⟨by simp [PyValue.hashKey], ?_⟩
    decide
  obtain ⟨hmaps, hrows⟩ := every_entry_kept_iff hothers hclient
  obtain ⟨hmap, hobject⟩ := hmaps (fun _ => none) w
  exact ⟨hmap.mpr hapart, (hobject 1 (by decide)).mpr hapart,
    (hrows w _ maxProtocol e rfl Affinity.init).mpr hapart⟩

/-- An `Int` 1, a `Long` 1 and a `Bool` true are different objects of the server and one key: of
the three entries of a page two are lost. -/
theorem equal_keys_lost :
    let _ := asciiLower
    let _ := noOtherCodecs
    let w := equalKeys fun _ => none
    let e : Envelope := ⟨7, none, none, by decide, by decide, by decide, by decide⟩
    (w.pairs.map fun p => p.1.1).Nodup ∧ ¬MapKept w ∧ ¬MapObjectKept w 1 ∧
      ¬RowsKept w .getAll maxProtocol e someClient Affinity.init ∧
      ¬RowsKept w (.page none false) maxProtocol e someClient Affinity.init := by
  intro _ _ w e
  have hclient : SameRegistry someClient true someClient := ⟨rfl, rfl⟩
  have hequal : ¬KeysApart w.kvs := by
    rw [KeysApart, not_and]
    intro _
    show ¬((equalKeys fun _ => none).kvs.filterMap fun p => p.1.dictKey).Nodup
    rw [equalKeys_kvs]
    decide
  refine ⟨?_, ?_, ?_, ?_, ?_⟩
  · decide
  · rwa [mapKept_iff w hclient]
  · rwa [mapObjectKept_iff (fun _ => advances_raise) w (by decide) hclient]
  · rwa [rowsKept_iff w .getAll maxProtocol rfl hclient]
  · rwa [rowsKept_iff w (.page none false) maxProtocol rfl hclient]

end PyGridGain
