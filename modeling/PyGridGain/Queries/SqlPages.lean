import PyGridGain.Codec.RoundTrip
import PyGridGain.Codec.StructWrites
import PyGridGain.Queries.Envelope

/-! The pages of an SQL query. The first comes in an `SQLResponse`, which counts rows and columns
apart from the rows, the later ones in a `StructArray`; the rows are the same. -/

namespace PyGridGain

open CObj StreamM

/-- The string `f'{base}_{i}'`. -/
def numberedName (base : String) (i : ℕ) : PyStr := (base ++ "_" ++ toString i).toList

section Sql
variable [Python] [OtherCodecs]

/-- `AnyDataObject` as a response uses it: `client` is what is passed to `to_python`, if
anything. -/
def cellClass (client : Option Client) : WireClass :=
  ⟨AnyDataObject.fromPython, AnyDataObject.parse, fun _ => AnyDataObject.toPython client⟩

/-- A loop that parses fields under numbered names. -/
def parseNumbered (name : ℕ → FieldName) (p : StreamM Layout) :
    ℕ → ℕ → StreamM (List (FieldName × Layout))
  | _, 0 => pure []
  | i, n + 1 => do
    let c ← p
    let cs ← parseNumbered name p (i + 1) n
    pure ((name i, c) :: cs)

/-- The values of all fields of a structure, in their order. -/
def fieldsToPython {α : Type} (convert : CObject → Except PyError α) (o : CObject) :
    Except PyError (List α) :=
  match o.ctype with
  | .struct fields => fields.mapM fun f => do
    let c ← o.attr f.1
    convert c
  | _ => raise .attributeError

/-- `SQLResponse`. -/
structure SqlResponse where
  includeFieldNames : Bool
  hasCursor : Bool

namespace SqlResponse
variable (r : SqlResponse)

/-- `fields_or_field_count`. -/
def fieldsOrFieldCount : PyStr × FieldClass :=
  if r.includeFieldNames then ("fields".toList, .plain stringArray)
  else ("field_count".toList, .plain (primitive .int))

/-- `__create_body_struct`. -/
def bodyStruct : List (PyStr × FieldClass) :=
  (if r.hasCursor then [("cursor".toList, .plain (primitive .longlong))] else []) ++
    [r.fieldsOrFieldCount, ("row_count".toList, .plain (primitive .int))]

/-- `__get_fields_count`. -/
def fieldsCount (body : CObject) : Except PyError ℤ :=
  if r.includeFieldNames then do
    let fields ← body.attr (attrName "fields")
    fields.intAttr .length
  else body.intAttr (attrName "field_count")

/-- The class of a row with `n` columns. -/
def parseRow (n : ℕ) : StreamM Layout := do
  let row ← parseNumbered (fun j => .field (numberedName "column" j)) AnyDataObject.parse 0 n
  pure (.struct row)

/-- `_parse_success`. -/
def parseSuccess : StreamM (List (FieldName × Layout)) := do
  let bodyFields ← parseStructFields [] r.bodyStruct fun _ => none
  let body ← readBackward (.struct bodyFields)
  let fieldCount ← fun s => (r.fieldsCount body).map fun n => (n, s)
  let rowCount ← fun s => (body.intAttr (attrName "row_count")).map fun n => (n, s)
  let rows ← parseNumbered (fun i => .field (numberedName "row" i)) (parseRow fieldCount.toNat) 0
    rowCount.toNat
  pure (bodyFields ++ [(attrName "data", .struct rows), (attrName "more", .scalar .byte)])

/-- A row as a list. -/
def rowToPython (client : Option Client) (row : CObject) : Except PyError PyValue := do
  let cells ← fieldsToPython (AnyDataObject.toPython client) row
  .ok (.list cells)

/-- The entry `fields` or `field_count` of a result. -/
def columnsToPython (passed : Option Client) (o : CObject) : Except PyError (PyStr × PyValue) :=
  match o.getattr (attrName "fields") with
  | some fields => do
    let fields ← stringArray.toPython passed fields
    .ok ("fields".toList, fields)
  | none => do
    let fieldCount ← o.attr (attrName "field_count")
    let fieldCount ← (primitive .int).toPython passed fieldCount
    .ok ("field_count".toList, fieldCount)

/-- The entry `cursor` of a result, if there is one. -/
def cursorToPython (passed : Option Client) (o : CObject) : Except PyError (List (PyStr × PyValue)) :=
  match o.getattr (attrName "cursor") with
  | some cursor => do
    let cursor ← (primitive .longlong).toPython passed cursor
    .ok [("cursor".toList, cursor)]
  | none => .ok []

/-- `__to_python_result_header`. -/
def resultHeader (passed : Option Client) (o : CObject) :
    Except PyError (List (PyStr × PyValue)) := do
  let more ← o.attr (attrName "more")
  let more ← boolClass.toPython passed more
  let columns ← columnsToPython passed o
  let cursor ← cursorToPython passed o
  .ok ([("more".toList, more), ("data".toList, .list []), columns] ++ cursor)

/-- `to_python`, with what is passed to it as `client`. -/
def toPython (passed : Option Client) (o : CObject) : Except PyError PyValue :=
  if (o.getInt (attrName "status_code")).getD 0 = 0 then do
    let result ← resultHeader passed o
    let data ← o.attr (attrName "data")
    let rows ← fieldsToPython (rowToPython passed) data
    .ok (strDict (dictSet result "data".toList (.list rows)))
  else .ok .none

def responseClass (passed : Option Client) : ResponseClass := ⟨r.parseSuccess, toPython passed⟩

end SqlResponse

/-- The `response_config` of `__sql_fields_cursor_get_page`. -/
def cursorPageConfig (client : Option Client) (fieldCount : ℕ) : List (PyStr × WireClass) :=
  [("data".toList, StructArray.wireClass ⟨(List.range fieldCount).map fun i =>
      (numberedName "field" i, .plain (cellClass client)), []⟩),
    ("more".toList, boolClass)]

/-- `list(row_dict.values())`. -/
def PyValue.dictValues : PyValue → Except PyError PyValue
  | .dict kvs => .ok (.list (kvs.map (·.2)))
  | _ => raise .attributeError

/-- `__post_process_sql_fields_cursor`. -/
def postProcessSqlFieldsCursor (result : APIResult) : Except PyError APIResult :=
  if result.status ≠ OP_SUCCESS then .ok result
  else do
    let more ← result.value.item "more".toList
    let data ← result.value.item "data".toList
    let rows ←
      match data with
      | .list rows => rows.mapM PyValue.dictValues
      | _ => raise .typeError
    .ok { result with value := strDict [("data".toList, .list rows), ("more".toList, more)] }

/-- The `_field_count` of a cursor after `_finalize_init`. -/
def fieldCount (value : PyValue) : Except PyError PyValue :=
  match value.item "fields".toList with
  | .ok (.list (name :: names)) => .ok (.int (name :: names).length)
  | _ => value.item "field_count".toList

end Sql

/-! ### Fields under numbered names -/

theorem numberedName_injective (base : String) : Function.Injective (numberedName base) := by
  intro i j h
  simp only [numberedName, String.toList_append, Nat.toString_eq_repr, Nat.toList_repr,
    List.append_cancel_left_eq] at h
  rw [← Nat.ofDigitChars_ten_toDigits (n := i), h, Nat.ofDigitChars_ten_toDigits]

section Numbered
variable {I : Client → Prop} {w : WireClass} {ds : List Bytes} {xs : List PyValue}

theorem findsParts_parseNumbered (name : ℕ → FieldName) (h : List.Forall₂ (Reads I w) ds xs)
    (i : ℕ) :
    FindsParts I (parseNumbered name w.parse i ds.length) ds.flatten fun parts =>
      parts.map (·.1) = (List.range' i ds.length).map name ∧ ∀ client, I client →
        parts.mapM (fun p => w.toPython client ⟨p.2.1, p.2.2⟩) = .ok xs := by
  induction h generalizing i with
  | nil => exact Finds.pure ⟨[], rfl, by simp [Filled], rfl, rfl, fun _ _ => rfl⟩
  | @cons d x ds xs hd _ ih =>
    refine hd.bind fun c hc => (ih (i + 1)).map ?_
    rintro cs ⟨parts, rfl, hfilled, hbytes, hnames, hpy⟩
    refine ⟨(name i, c, d) :: parts, rfl, ?_, ?_, ?_, fun client hclient => ?_⟩
    · exact List.forall_mem_cons.mpr ⟨hc.1.symm, hfilled⟩
    · rw [List.flatMap_cons, hbytes, List.flatten_cons]
    · rw [List.map_cons, hnames, List.length_cons, List.range'_succ, List.map_cons]
    · exact mapM_cons_ok.mpr ⟨x, xs, hc.2 client hclient, hpy client hclient, rfl⟩

/-- The fields of a structure of its own are converted one by one. -/
theorem fieldsToPython_ofParts {α : Type} (convert : CObject → Except PyError α)
    {parts : List (FieldName × Layout × Bytes)} (hf : Filled parts)
    (hnd : (parts.map (·.1)).Nodup) :
    fieldsToPython convert (ofParts parts) = parts.mapM fun p => convert ⟨p.2.1, p.2.2⟩ := by
  have hpart : ∀ sub : List (FieldName × Layout × Bytes), sub ⊆ parts →
      (sub.map fun p => (p.1, p.2.1)).mapM (fun f => do
        let c ← CObject.attr (ofParts parts) f.1
        convert c) = sub.mapM fun p => convert ⟨p.2.1, p.2.2⟩ := by
    intro sub hsub
    induction sub with
    | nil => rfl
    | cons p sub ih =>
      have hattr := attr_part hf hnd (hsub List.mem_cons_self)
      rw [List.map_cons, List.mapM_cons, List.mapM_cons, hattr, except_bind,
        ih fun q hq => hsub (List.mem_cons_of_mem _ hq)]
  exact hpart parts (List.Subset.refl _)

/-- A structure of numbered fields. -/
theorem numbered_read {name : ℕ → FieldName} (hname : Function.Injective name)
    {parts : List (FieldName × Layout × Bytes)} (hf : Filled parts) {n : ℕ}
    (hnames : parts.map (·.1) = (List.range' 0 n).map name) {α : Type}
    (convert : CObject → Except PyError α) :
    (ofParts parts).ctype.size = (ofParts parts).mem.length ∧
      fieldsToPython convert (ofParts parts) = parts.mapM fun p => convert ⟨p.2.1, p.2.2⟩ := by
  have hnd : (parts.map (·.1)).Nodup := by
    rw [hnames]
    exact (List.nodup_range').map hname
  exact ⟨(ofParts_length hf).symm, fieldsToPython_ofParts convert hf hnd⟩

end Numbered

/-! ### The rows -/

section Cells
variable [Python] [OtherCodecs] {cl : Client} {cf : Bool} {t : DataType} {v : PyValue}

/-- A value that can be written is a cell, where the client that its objects need is passed. -/
theorem Encodable.readsCell (hv : Encodable cl cf t v) (hs : SchemasFound t v)
    {passed : Option Client} (hknows : Knows passed cl t v) :
    Reads (SameRegistry cl cf) (cellClass passed) (encode cf t v) (decoded Scalar.byte.wrap t v) := by
  intro s hbefore
  have hr : Readable cl cf s := ⟨hbefore.client.1, hbefore.client.2, hbefore.emptyView⟩
  obtain ⟨c, r, hparse, hadv, hd⟩ := (anyDataObject_parses hv hr hbefore.at_pos).1 hs
  refine ⟨c, r, hparse, ⟨hadv.readable.emptyView, ⟨hadv.readable.registry, hadv.readable.footer⟩,
    hadv.buf, hadv.pos⟩, hd.size.symm, fun client _ => ?_⟩
  exact anyToPython_of_decodes hv hd hknows (Nat.le_succ _)

theorem ValueTree.readsCell (h : ValueTree t v) (passed : Option Client) :
    Reads (SameRegistry cl cf) (cellClass passed) (encode cf t v) (decoded Scalar.byte.wrap t v) :=
  (h.encodable cl cf).readsCell (fun o ho => by simp [h.objects_eq_nil] at ho)
    fun hne => absurd h.objects_eq_nil hne

end Cells

/-- Rows of cells, each with its bytes and its value, and what an answer has beside them. -/
structure SqlPage (I : Client → Prop) [Python] [OtherCodecs] (passed : Option Client) where
  columns : ℕ
  rows : List (List (Bytes × PyValue))
  more : Bool
  names : List (Bytes × PyValue)
  cursor : ℤ
  width : ∀ row ∈ rows, row.length = columns
  cells_read : ∀ row ∈ rows, ∀ cell ∈ row, Reads I (cellClass passed) cell.1 cell.2
  names_length : names.length = columns
  names_read : ∀ name ∈ names, Reads I (wireClass .string) name.1 name.2
  columns_lt : columns < 2 ^ 31
  rows_lt : rows.length < 2 ^ 31
  cursor_range : Scalar.longlong.Range cursor

namespace SqlPage
variable [Python] [OtherCodecs] {I : Client → Prop} {passed : Option Client} (p : SqlPage I passed)

/-- The rows as lists. -/
def rowLists : List PyValue := p.rows.map fun row => .list (row.map (·.2))

def rowsBytes : Bytes := p.rows.flatMap fun row => row.flatMap (·.1)

def moreBytes : Bytes := Scalar.byte.store (if p.more then 1 else 0)

/-- What the first answer says of the columns. -/
def columnsBytes (r : SqlResponse) : Bytes :=
  Scalar.int.store p.columns ++ if r.includeFieldNames then p.names.flatMap (·.1) else []

/-- The body of the first page, up to its rows. -/
def bodyBytes (r : SqlResponse) : Bytes :=
  (if r.hasCursor then Scalar.longlong.store p.cursor else []) ++
    (p.columnsBytes r ++ Scalar.int.store p.rows.length)

/-- The first page. -/
def firstBytes (r : SqlResponse) : Bytes := p.bodyBytes r ++ p.rowsBytes ++ p.moreBytes

/-- A later page. -/
def laterBytes : Bytes := Scalar.int.store p.rows.length ++ p.rowsBytes ++ p.moreBytes

/-- A row of the first page. -/
def rowClass : WireClass :=
  ⟨fun _ => raise .attributeError, SqlResponse.parseRow p.columns,
    fun _ => SqlResponse.rowToPython passed⟩

variable {p}

theorem reads_row {row : List (Bytes × PyValue)} (hrow : row ∈ p.rows) :
    Reads I p.rowClass (row.flatMap (·.1)) (.list (row.map (·.2))) := by
  have hcells : List.Forall₂ (Reads I (cellClass passed)) (row.map (·.1)) (row.map (·.2)) := by
    rw [List.forall₂_map_left_iff, List.forall₂_map_right_iff, List.forall₂_same]
    exact p.cells_read row hrow
  have hparse := findsParts_parseNumbered (fun j => .field (numberedName "column" j)) hcells 0
  rw [List.length_map, p.width row hrow, ← List.flatMap_def] at hparse
  refine hparse.map ?_
  rintro cs ⟨parts, rfl, hfilled, hbytes, hnames, hpy⟩
  have hinj : Function.Injective fun j => FieldName.field (numberedName "column" j) :=
    fun i j h => numberedName_injective _ (FieldName.field.inj h)
  obtain ⟨hsize, hconvert⟩ := numbered_read hinj hfilled hnames (AnyDataObject.toPython passed)
  rw [ofParts, hbytes] at hsize hconvert
  refine ⟨hsize, fun client hclient => ?_⟩
  exact except_bind_eq_ok.mpr ⟨_, hconvert.trans (hpy client hclient), rfl⟩

/-! ### The first page -/

variable (p) (r : SqlResponse)

/-- The rows, as the part of the first page that they are. -/
def DataPart (c : Layout) : Prop :=
  c.size = p.rowsBytes.length ∧ ((∃ client, I client) →
    fieldsToPython (SqlResponse.rowToPython passed) ⟨c, p.rowsBytes⟩ = .ok p.rowLists)

theorem finds_rows : Finds I (parseNumbered (fun i => .field (numberedName "row" i))
      (SqlResponse.parseRow p.columns) 0 p.rows.length) p.rowsBytes fun cs =>
      p.DataPart (.struct cs) := by
  have hrows : List.Forall₂ (Reads I p.rowClass) (p.rows.map fun row => row.flatMap (·.1))
      p.rowLists := by
    rw [rowLists, List.forall₂_map_left_iff, List.forall₂_map_right_iff, List.forall₂_same]
    exact fun row hrow => reads_row hrow
  have hparse := findsParts_parseNumbered (fun i => .field (numberedName "row" i)) hrows 0
  rw [List.length_map, ← List.flatMap_def] at hparse
  refine Finds.mono hparse ?_
  rintro cs ⟨parts, rfl, hfilled, hbytes, hnames, hpy⟩
  have hinj : Function.Injective fun i => FieldName.field (numberedName "row" i) :=
    fun i j h => numberedName_injective _ (FieldName.field.inj h)
  obtain ⟨hsize, hconvert⟩ := numbered_read hinj hfilled hnames
    (SqlResponse.rowToPython passed)
  rw [ofParts, hbytes] at hsize hconvert
  exact ⟨hsize, fun hsome => hconvert.trans (hpy _ hsome.choose_spec)⟩

/-- What the field `fields` or `field_count` is to the parser and to `to_python`. -/
def ColumnsRead (o : CObject) : Prop :=
  if r.includeFieldNames then CObject.intAttr o .length = .ok p.columns ∧
    ((∃ client, I client) →
      stringArray.toPython passed o = .ok (.list (p.names.map (·.2))))
  else o = ⟨.scalar .int, Scalar.int.store p.columns⟩

theorem finds_columns : ∃ w, r.fieldsOrFieldCount.2 = .plain w ∧
    Finds I w.parse (p.columnsBytes r) fun c => c.size = (p.columnsBytes r).length ∧
      p.ColumnsRead r ⟨c, p.columnsBytes r⟩ := by
  unfold SqlResponse.fieldsOrFieldCount columnsBytes ColumnsRead
  cases r.includeFieldNames with
  | true =>
    refine ⟨stringArray, rfl, ?_⟩
    have hnames : List.Forall₂ (Reads I (wireClass .string)) (p.names.map (·.1))
        (p.names.map (·.2)) := by
      rw [List.forall₂_map_left_iff, List.forall₂_map_right_iff, List.forall₂_same]
      exact p.names_read
    have hlen : (p.names.map (·.1)).length = p.columns := by rw [List.length_map, p.names_length]
    have hread := reads_counted hnames (hlen ▸ p.columns_lt)
    rw [hlen, ← List.flatMap_def] at hread
    -- A string asks the client for nothing, so it does not matter what is passed.
    refine hread.mono fun c hc => ⟨hc.1, hc.2.1, fun ⟨client, hclient⟩ => ?_⟩
    exact except_bind_eq_ok.mpr ⟨_, hc.2.2 client hclient, rfl⟩
  | false =>
    refine ⟨primitive .int, rfl, ?_⟩
    simp only [Bool.false_eq_true, if_false, List.append_nil]
    exact Finds.seekPast rfl ⟨rfl, rfl⟩

/-- The parts of the body. -/
def cursorParts : List (FieldName × Layout × Bytes) :=
  if r.hasCursor then [scalarPart (attrName "cursor") .longlong p.cursor] else []

def bodyParts (c : Layout) : List (FieldName × Layout × Bytes) :=
  p.cursorParts r ++ [(.field r.fieldsOrFieldCount.1, c, p.columnsBytes r),
    scalarPart (attrName "row_count") .int p.rows.length]

theorem bodyParts_filled {c : Layout} (hc : c.size = (p.columnsBytes r).length) :
    Filled (p.bodyParts r c) := by
  refine Filled.append ?_ ?_
  · unfold cursorParts
    split_ifs
    · exact scalarPart_filled _ _ _
    · simp [Filled]
  · exact List.forall_mem_cons.mpr ⟨hc.symm, scalarPart_filled _ _ _⟩

theorem bodyParts_nodup (c : Layout) : ((p.bodyParts r c).map (·.1)).Nodup := by
  unfold bodyParts cursorParts SqlResponse.fieldsOrFieldCount
  cases r.hasCursor <;> cases r.includeFieldNames <;> simp [scalarPart]

theorem findsParts_bodyStruct : FindsParts I (parseStructFields [] r.bodyStruct fun _ => none)
    (p.bodyBytes r) fun parts => ∃ c, parts = p.bodyParts r c ∧ c.size = (p.columnsBytes r).length ∧
      p.ColumnsRead r ⟨c, p.columnsBytes r⟩ := by
  obtain ⟨w, hw, hcolumns⟩ := p.finds_columns r
  have hfield : r.fieldsOrFieldCount = (r.fieldsOrFieldCount.1, .plain w) := Prod.ext rfl hw
  have hrowCount : FindsParts I (parseStructFields [] [("row_count".toList, .plain (primitive .int))]
      fun _ => none) (Scalar.int.store p.rows.length ++ []) _ :=
    FindsParts.scalar FindsParts.nil
  rw [List.append_nil] at hrowCount
  have htwo : FindsParts I (parseStructFields [] [r.fieldsOrFieldCount,
      ("row_count".toList, .plain (primitive .int))] fun _ => none)
      (p.columnsBytes r ++ Scalar.int.store p.rows.length) fun parts => ∃ c,
        parts = [(.field r.fieldsOrFieldCount.1, c, p.columnsBytes r),
          scalarPart (attrName "row_count") .int p.rows.length] ∧
        c.size = (p.columnsBytes r).length ∧ p.ColumnsRead r ⟨c, p.columnsBytes r⟩ := by
    rw [hfield]
    have hsized : Finds I w.parse (p.columnsBytes r) fun c => c.size = (p.columnsBytes r).length ∧
        (c.size = (p.columnsBytes r).length ∧ p.ColumnsRead r ⟨c, p.columnsBytes r⟩) :=
      hcolumns.mono fun c hc => ⟨hc.1, hc⟩
    refine (FindsParts.cons hsized hrowCount).mono ?_
    rintro parts ⟨c, rest, rfl, hc, rest', rfl, rfl⟩
    exact ⟨c, rfl, hc⟩
  unfold SqlResponse.bodyStruct bodyBytes bodyParts cursorParts
  cases r.hasCursor with
  | true =>
    refine (FindsParts.scalar htwo).mono ?_
    rintro parts ⟨rest, rfl, c, rfl, hc⟩
    exact ⟨c, rfl, hc⟩
  | false => exact htwo

/-- The parts of the first page. -/
def firstParts (c d : Layout) : List (FieldName × Layout × Bytes) :=
  p.bodyParts r c ++ [(attrName "data", d, p.rowsBytes), (attrName "more", .scalar .byte, p.moreBytes)]

theorem bodyParts_bytes (c : Layout) :
    (p.bodyParts r c).flatMap (fun q => q.2.2) = p.bodyBytes r := by
  unfold bodyParts cursorParts bodyBytes
  cases r.hasCursor <;> simp [scalarPart]

/-- Where the names are not included, the number of columns is a field. -/
theorem mem_field_count {c : Layout} (hinclude : r.includeFieldNames = false)
    (hcolumns : p.ColumnsRead r ⟨c, p.columnsBytes r⟩) :
    scalarPart (attrName "field_count") .int p.columns ∈ p.bodyParts r c := by
  rw [ColumnsRead, hinclude] at hcolumns
  simp only [Bool.false_eq_true, if_false, CObj.mk.injEq] at hcolumns
  obtain ⟨rfl, hbytes⟩ := hcolumns
  simp [bodyParts, SqlResponse.fieldsOrFieldCount, hinclude, scalarPart, hbytes]

theorem fieldsCount_read {c : Layout} (hc : c.size = (p.columnsBytes r).length)
    (hcolumns : p.ColumnsRead r ⟨c, p.columnsBytes r⟩) :
    r.fieldsCount (ofParts (p.bodyParts r c)) = .ok p.columns := by
  have hfilled := p.bodyParts_filled r hc
  have hnd := p.bodyParts_nodup r c
  unfold SqlResponse.fieldsCount
  cases hinclude : r.includeFieldNames with
  | true =>
    have hattr := attr_part hfilled hnd (n := attrName "fields") (c := c) (b := p.columnsBytes r)
      (by simp [bodyParts, SqlResponse.fieldsOrFieldCount, hinclude])
    rw [ColumnsRead, hinclude, if_pos rfl] at hcolumns
    rw [if_pos rfl, hattr, except_bind, hcolumns.1]
  | false =>
    rw [if_neg (by simp)]
    exact intAttr_part hfilled hnd (range_of_lt p.columns_lt) (p.mem_field_count r hinclude hcolumns)

theorem rowCount_read {c : Layout} (hc : c.size = (p.columnsBytes r).length) :
    CObject.intAttr (ofParts (p.bodyParts r c)) (attrName "row_count") = .ok p.rows.length :=
  intAttr_part (p.bodyParts_filled r hc) (p.bodyParts_nodup r c) (range_of_lt p.rows_lt)
    (by simp [bodyParts])

/-- What is found of the first page. -/
def FirstParts (parts : List (FieldName × Layout × Bytes)) : Prop :=
  ∃ c d, parts = p.firstParts r c d ∧ c.size = (p.columnsBytes r).length ∧
    p.ColumnsRead r ⟨c, p.columnsBytes r⟩ ∧ p.DataPart d

theorem bodyBytes_ne_nil : p.bodyBytes r ≠ [] := by
  simp [bodyBytes, ← List.length_pos_iff, Scalar.size]

theorem finds_parseSuccess : Finds I r.parseSuccess (p.bodyBytes r ++ p.rowsBytes) fun cs =>
    ∃ c d, cs = (p.firstParts r c d).map (fun q => (q.1, q.2.1)) ∧
      c.size = (p.columnsBytes r).length ∧ p.ColumnsRead r ⟨c, p.columnsBytes r⟩ ∧ p.DataPart d := by
  have hbody := p.findsParts_bodyStruct r
  have hsized : Finds I (parseStructFields [] r.bodyStruct fun _ => none) (p.bodyBytes r) fun cs =>
      CType.size (.struct cs) = (p.bodyBytes r).length ∧ ∃ c,
        cs = (p.bodyParts r c).map (fun q => (q.1, q.2.1)) ∧ c.size = (p.columnsBytes r).length ∧
        p.ColumnsRead r ⟨c, p.columnsBytes r⟩ := by
    refine Finds.mono hbody ?_
    rintro cs ⟨parts, rfl, hfilled, hbytes, c, rfl, hc⟩
    refine ⟨?_, c, rfl, hc⟩
    have hlength := ofParts_length hfilled
    rw [ofParts, hbytes] at hlength
    exact hlength.symm
  refine Finds.observing CType.struct (p.bodyBytes_ne_nil r) hsized ?_
  rintro cs - ⟨c, rfl, hc, hcolumns⟩
  have ho : (⟨.struct ((p.bodyParts r c).map fun q => (q.1, q.2.1)), p.bodyBytes r⟩ : CObject) =
      ofParts (p.bodyParts r c) := by
    rw [ofParts, p.bodyParts_bytes r c]
  have hfieldCount : (fun s => (r.fieldsCount (ofParts (p.bodyParts r c))).map fun n => (n, s)) =
      (pure (p.columns : ℤ) : StreamM ℤ) := by
    rw [p.fieldsCount_read r hc hcolumns]
    rfl
  have hrowCount : (fun s => (CObject.intAttr (ofParts (p.bodyParts r c))
      (attrName "row_count")).map fun n => (n, s)) = (pure (p.rows.length : ℤ) : StreamM ℤ) := by
    rw [p.rowCount_read r hc]
    rfl
  rw [ho, hfieldCount, pure_bind, hrowCount, pure_bind, Int.toNat_natCast, Int.toNat_natCast]
  refine p.finds_rows.map fun rows hrows => ⟨c, .struct rows, ?_, hc, hcolumns, hrows⟩
  simp [firstParts]

theorem firstParts_filled {c d : Layout} (hc : c.size = (p.columnsBytes r).length)
    (hd : d.size = p.rowsBytes.length) : Filled (p.firstParts r c d) := by
  refine (p.bodyParts_filled r hc).append (List.forall_mem_cons.mpr ⟨hd.symm, ?_⟩)
  simp [moreBytes, CType.size]

theorem findsBody_first : FindsBody I r.parseSuccess (p.firstBytes r) (p.FirstParts r) := by
  intro s hs
  obtain ⟨_, t, hparse, ht, c, d, rfl, hc, hcolumns, hd⟩ := p.finds_parseSuccess r s hs.left
  refine ⟨p.firstParts r c d, t, hparse, ⟨ht.emptyView, ht.client, ht.buf⟩,
    p.firstParts_filled r hc hd.1, ?_, c, d, rfl, hc, hcolumns, hd⟩
  rw [firstParts, List.flatMap_append, p.bodyParts_bytes r c, firstBytes, List.append_assoc]
  simp

/-- The names in the first page. -/
def firstNames (r : SqlResponse) : List PyStr :=
  (if r.hasCursor then ["cursor".toList] else []) ++
    [if r.includeFieldNames then "fields".toList else "field_count".toList, "row_count".toList,
      "data".toList, "more".toList]

theorem firstParts_names (c d : Layout) :
    (p.firstParts r c d).map (·.1) = (firstNames r).map FieldName.field := by
  unfold firstParts bodyParts cursorParts SqlResponse.fieldsOrFieldCount firstNames
  cases r.hasCursor <;> cases r.includeFieldNames <;> rfl

theorem firstParts_free (c d : Layout) : Envelope.FreeTail (p.firstParts r c d) ∧
    attrName "error_message" ∉ (p.firstParts r c d).map (·.1) := by
  refine ⟨⟨?_, ?_⟩, ?_⟩ <;> rw [p.firstParts_names r c d, firstNames] <;>
    cases r.hasCursor <;> cases r.includeFieldNames <;> decide

section Values
variable {e : Envelope} {version : ProtocolVersion} {body : Bytes} {c d : Layout}

theorem getattr_first (name : PyStr)
    (hf : Filled (e.parts version body (p.firstParts r c d))) {l : Layout} {b : Bytes} (hmem : (.field name, l, b) ∈ p.firstParts r c d) :
    (ofParts (e.parts version body (p.firstParts r c d))).getattr (.field name) = some ⟨l, b⟩ := by
  refine getattr_ofParts hf (p.firstParts_free r c d).1.parts_nodup ?_
  rw [Envelope.parts_eq]
  exact List.mem_append_right _ hmem

theorem getattr_absent {name : PyStr} (hfront : name ∉ frontNames) (hnot : name ∉ firstNames r) :
    (ofParts (e.parts version body (p.firstParts r c d))).getattr (.field name) = none := by
  refine getattr_of_notMem ?_
  rw [Envelope.parts_eq, List.map_append, List.mem_append, not_or, p.firstParts_names]
  constructor <;> intro hmem
  · obtain ⟨name', hname', heq⟩ := List.mem_map.mp (e.front_names version _ hmem)
    exact hfront (FieldName.field.inj heq ▸ hname')
  · obtain ⟨name', hname', heq⟩ := List.mem_map.mp hmem
    exact hnot (FieldName.field.inj heq ▸ hname')

/-- The columns in the result. -/
def columnsValue : PyStr × PyValue :=
  if r.includeFieldNames then ("fields".toList, .list (p.names.map (·.2)))
  else ("field_count".toList, .int p.columns)

def cursorValue : List (PyStr × PyValue) :=
  if r.hasCursor then [("cursor".toList, .int p.cursor)] else []

/-- The value of the first answer. -/
def firstValue : PyValue :=
  strDict ([("more".toList, .bool p.more), ("data".toList, .list p.rowLists), p.columnsValue r] ++
    p.cursorValue r)

/-- The names of the values of the first answer. -/
theorem firstValue_nodup : (([("more".toList, PyValue.bool p.more),
    ("data".toList, .list p.rowLists), p.columnsValue r] ++ p.cursorValue r).map (·.1)).Nodup := by
  unfold columnsValue cursorValue
  cases r.includeFieldNames <;> cases r.hasCursor <;> simp

theorem firstValue_item {name : PyStr} {x : PyValue}
    (h : (name, x) ∈ [("more".toList, PyValue.bool p.more), ("data".toList, .list p.rowLists),
      p.columnsValue r] ++ p.cursorValue r) : (p.firstValue r).item name = .ok x :=
  item_strDict (p.firstValue_nodup r) h

theorem firstValue_absent {name : PyStr} (h : name ∉ ["more".toList, "data".toList,
    (p.columnsValue r).1, "cursor".toList]) : (p.firstValue r).item name = raise .keyError := by
  refine item_strDict_absent fun hmem => h ?_
  rw [List.map_append, List.mem_append] at hmem
  rcases hmem with hmem | hmem
  · exact List.mem_append_left ["cursor".toList] hmem
  · unfold cursorValue at hmem
    split_ifs at hmem
    · exact List.mem_append_right ["more".toList, "data".toList, (p.columnsValue r).1] hmem
    · cases hmem

/-- A cursor knows the number of columns, but for a first page with the names of no columns. -/
theorem fieldCount_eq_iff : fieldCount (p.firstValue r) = .ok (.int p.columns) ↔
    (r.includeFieldNames = true → p.columns ≠ 0) := by
  cases hinclude : r.includeFieldNames with
  | true =>
    have hcolumns : p.columnsValue r = ("fields".toList, .list (p.names.map (·.2))) := by
      rw [columnsValue, if_pos hinclude]
    have hfields : (p.firstValue r).item "fields".toList = .ok (.list (p.names.map (·.2))) :=
      p.firstValue_item r (by simp [hcolumns])
    have hlength := p.names_length
    unfold fieldCount
    rw [hfields]
    cases hnames : p.names with
    | nil =>
      rw [hnames] at hlength
      rw [List.map_nil, p.firstValue_absent r (by simp [hcolumns])]
      simp [← hlength, raise]
    | cons name names =>
      rw [hnames] at hlength
      simp [← hlength]
  | false =>
    have hcolumns : p.columnsValue r = ("field_count".toList, .int p.columns) := by
      rw [columnsValue, hinclude, if_neg (by simp)]
    have hcount : (p.firstValue r).item "field_count".toList = .ok (.int p.columns) :=
      p.firstValue_item r (by simp [hcolumns])
    unfold fieldCount
    rw [p.firstValue_absent r (by simp [hcolumns]), hcount]
    simp [raise]

theorem columnsToPython_read (hf : Filled (e.parts version body (p.firstParts r c d)))
    (hcolumns : p.ColumnsRead r ⟨c, p.columnsBytes r⟩) (hsome : ∃ client, I client) :
    SqlResponse.columnsToPython passed (ofParts (e.parts version body (p.firstParts r c d))) =
      .ok (p.columnsValue r) := by
  unfold SqlResponse.columnsToPython columnsValue
  cases hinclude : r.includeFieldNames with
  | true =>
    rw [ColumnsRead, hinclude, if_pos rfl] at hcolumns
    rw [p.getattr_first r _ hf (l := c) (b := p.columnsBytes r) (by
      simp [firstParts, bodyParts, SqlResponse.fieldsOrFieldCount, hinclude])]
    dsimp only
    rw [hcolumns.2 hsome]
    rfl
  | false =>
    rw [p.getattr_absent r (by decide) (by
      unfold firstNames
      rw [hinclude]
      cases r.hasCursor <;> decide)]
    have hcount := p.getattr_first r _ hf (List.mem_append_left _
      (p.mem_field_count r hinclude hcolumns))
    dsimp only
    rw [CObject.attr, hcount]
    dsimp only
    rw [except_bind, primitive_toPython (range_of_lt p.columns_lt)]
    rfl

theorem cursorToPython_read (hf : Filled (e.parts version body (p.firstParts r c d))) :
    SqlResponse.cursorToPython passed (ofParts (e.parts version body (p.firstParts r c d))) =
      .ok (p.cursorValue r) := by
  unfold SqlResponse.cursorToPython cursorValue
  cases hhas : r.hasCursor with
  | true =>
    rw [p.getattr_first r _ hf (l := .scalar .longlong) (b := Scalar.longlong.store p.cursor)
      (by simp [firstParts, bodyParts, cursorParts, hhas, scalarPart])]
    dsimp only
    rw [primitive_toPython p.cursor_range]
    rfl
  | false =>
    rw [p.getattr_absent r (by decide) (by
      unfold firstNames
      rw [hhas]
      cases r.includeFieldNames <;> decide)]
    rfl

/-- The value of the first answer is made of its parts. -/
theorem firstValue_read (herror : e.error = none)
    (hf : Filled (e.parts version body (p.firstParts r c d)))
    (hcolumns : p.ColumnsRead r ⟨c, p.columnsBytes r⟩) (hd : p.DataPart d)
    (hsome : ∃ client, I client) :
    SqlResponse.toPython passed (ofParts (e.parts version body (p.firstParts r c d))) =
      .ok (p.firstValue r) := by
  have hstatus := Envelope.status_read hf (p.firstParts_free r c d).1
  have hmore := p.getattr_first r "more".toList hf (l := .scalar .byte)
    (b := p.moreBytes) (by simp [firstParts])
  have hdata := p.getattr_first r "data".toList hf (l := d) (b := p.rowsBytes)
    (by simp [firstParts])
  have hsuccess : e.status = OP_SUCCESS := by simp [Envelope.status, herror]
  rw [hsuccess] at hstatus
  have hheader : SqlResponse.resultHeader passed
      (ofParts (e.parts version body (p.firstParts r c d))) =
      .ok ([("more".toList, .bool p.more), ("data".toList, .list []), p.columnsValue r] ++
        p.cursorValue r) := by
    unfold SqlResponse.resultHeader
    rw [CObject.attr, hmore]
    dsimp only
    rw [except_bind, moreBytes, bool_toPython, except_bind,
      p.columnsToPython_read r hf hcolumns hsome, except_bind, p.cursorToPython_read r hf,
      except_bind]
  unfold SqlResponse.toPython
  rw [OP_SUCCESS] at hstatus
  rw [if_pos hstatus, hheader, except_bind, CObject.attr, hdata]
  dsimp only
  rw [except_bind, hd.2 hsome, except_bind]
  rfl

end Values

/-- The first answer. -/
theorem process_first (e : Envelope) (herror : e.error = none) (version : ProtocolVersion)
    {client : Client} (hclient : I client) (s : Affinity) :
    ∃ client', I client' ∧
      processResponse version (r.responseClass passed) (e.encode version (p.firstBytes r)) client s =
        .ok (⟨OP_SUCCESS, e.queryId, .str "Success".toList, p.firstValue r⟩, client',
          e.update version s) := by
  refine e.process_success version herror (p.findsBody_first r) (fun parts hparts => ?_) hclient s
  obtain ⟨c, d, rfl, -, hcolumns, hd⟩ := hparts
  obtain ⟨hfree, hmessage⟩ := p.firstParts_free r c d
  exact ⟨hfree, hmessage, fun hf => p.firstValue_read r herror hf hcolumns hd ⟨client, hclient⟩⟩

/-! ### Later pages -/

/-- The fields of a row of a later page. -/
def rowFields : List (PyStr × FieldClass) :=
  (List.range p.columns).map fun i => (numberedName "field" i, .plain (cellClass passed))

/-- What is passed on is settled where the classes of the cells are made. -/
theorem rowFields_free : ∀ f ∈ p.rowFields, ∀ client, f.2.toPython none = f.2.toPython client :=
  List.forall_mem_map.mpr fun _ _ _ => rfl

/-- A row as a dict. -/
def rowDict (row : List (Bytes × PyValue)) : PyValue :=
  strDict (row.mapIdx fun i cell => (numberedName "field" i, cell.2))

variable {p} in
theorem reads_rowDict {row : List (Bytes × PyValue)} (hrow : row ∈ p.rows) :
    Reads I (Struct.wireClass ⟨p.rowFields, []⟩) (row.flatMap (·.1)) (rowDict row) := by
  let fields := row.mapIdx fun i cell =>
    (numberedName "field" i, cellClass passed, cell.1, cell.2)
  have hclasses : p.rowFields = fields.map fun f => (f.1, .plain f.2.1) := by
    apply List.ext_getElem <;> simp [rowFields, fields, p.width row hrow]
  have hbytes : fields.map (fun f => f.2.2.1) = row.map (·.1) := by
    apply List.ext_getElem <;> simp [fields]
  have hvalues : fields.map (fun f => (f.1, f.2.2.2)) =
      row.mapIdx fun i cell => (numberedName "field" i, cell.2) := by
    apply List.ext_getElem <;> simp [fields]
  have hnames : fields.map (·.1) = (List.range row.length).map (numberedName "field") := by
    apply List.ext_getElem <;> simp [fields]
  have hread : ∀ f ∈ fields, Reads I f.2.1 f.2.2.1 f.2.2.2 := by
    intro f hf
    obtain ⟨i, hi, rfl⟩ := List.mem_mapIdx.mp hf
    exact p.cells_read row hrow _ (List.getElem_mem hi)
  have hstruct := reads_plainStruct (s := ⟨p.rowFields, []⟩) fields hclasses hread
    (hnames ▸ List.nodup_range.map (numberedName_injective _))
  rwa [List.flatMap_def, hbytes, ← List.flatMap_def, hvalues] at hstruct

omit [Python] [OtherCodecs] in
theorem dictValues_rowDict (row : List (Bytes × PyValue)) :
    (rowDict row).dictValues = .ok (.list (row.map (·.2))) := by
  have hmap : ((row.mapIdx fun i cell => (numberedName "field" i, cell.2)).map fun q =>
      (PyValue.str q.1, q.2)).map (·.2) = row.map (·.2) := by
    apply List.ext_getElem <;> simp
  rw [rowDict, strDict, PyValue.dictValues, hmap]

theorem rowDicts_values : (p.rows.map rowDict).mapM PyValue.dictValues = .ok p.rowLists := by
  rw [rowLists]
  induction p.rows with
  | nil => rfl
  | cons row rows ih => exact mapM_cons_ok.mpr ⟨_, _, dictValues_rowDict row, ih, rfl⟩

theorem reads_data : Reads I (StructArray.wireClass ⟨p.rowFields, []⟩)
    (Scalar.int.store p.rows.length ++ p.rowsBytes) (.list (p.rows.map rowDict)) := by
  have hrows : List.Forall₂ (Reads I (Struct.wireClass ⟨p.rowFields, []⟩))
      (p.rows.map fun row => row.flatMap (·.1)) (p.rows.map rowDict) := by
    rw [List.forall₂_map_left_iff, List.forall₂_map_right_iff, List.forall₂_same]
    exact fun row hrow => reads_rowDict hrow
  have hlen : (p.rows.map fun row => row.flatMap (·.1)).length < 2 ^ 31 := by
    rw [List.length_map]
    exact p.rows_lt
  have hread : Reads I (StructArray.wireClass ⟨p.rowFields, []⟩) _ _ := reads_structArray hrows hlen
  rwa [List.length_map, ← List.flatMap_def] at hread

/-- The answer with a later page. -/
def laterResponse (e : Envelope) (version : ProtocolVersion) : ServerResponse I where
  version := version
  envelope := e
  body := [("data".toList, StructArray.wireClass ⟨p.rowFields, []⟩,
      Scalar.int.store p.rows.length ++ p.rowsBytes, .list (p.rows.map rowDict)),
    ("more".toList, boolClass, p.moreBytes, .bool p.more)]
  reads := by
    rw [List.forall_mem_cons, List.forall_mem_singleton]
    exact ⟨p.reads_data.withoutClient (StructArray.toPython_free p.rowFields_free),
      (reads_bool p.more).withoutClient fun _ => rfl⟩
  names_nodup := by simp
  names_free := by
    rw [List.forall_mem_cons, List.forall_mem_singleton]
    exact ⟨(by decide : "data".toList ∉ envelopeNames), (by decide : "more".toList ∉ envelopeNames)⟩

theorem laterResponse_data (e : Envelope) (version : ProtocolVersion) :
    (p.laterResponse e version).data = e.encode version p.laterBytes := by
  simp [ServerResponse.data, laterResponse, laterBytes]

/-- The value of a later answer. -/
def laterValue : PyValue := strDict [("data".toList, .list p.rowLists), ("more".toList, .bool p.more)]

theorem process_later (e : Envelope) (herror : e.error = none) (version : ProtocolVersion)
    {client : Client} (hclient : I client) (s : Affinity) :
    ∃ client', I client' ∧
      processResponse version (responseOf (cursorPageConfig passed p.columns))
        (e.encode version p.laterBytes) client s =
        .ok (⟨OP_SUCCESS, e.queryId, .str "Success".toList,
          strDict [("data".toList, .list (p.rows.map rowDict)), ("more".toList, .bool p.more)]⟩,
          client', e.update version s) := by
  obtain ⟨client', hclient', hprocess⟩ := (p.laterResponse e version).processResponse_eq hclient s
  have hreceived : (p.laterResponse e version).received = ⟨OP_SUCCESS, e.queryId,
      .str "Success".toList,
      strDict [("data".toList, .list (p.rows.map rowDict)), ("more".toList, .bool p.more)]⟩ := by
    simp [ServerResponse.received, ServerResponse.expected, laterResponse, herror]
  rw [p.laterResponse_data, hreceived] at hprocess
  exact ⟨client', hclient', hprocess⟩

theorem postProcess_later (queryId : ℤ) (message : PyValue) :
    postProcessSqlFieldsCursor ⟨OP_SUCCESS, queryId, message,
      strDict [("data".toList, .list (p.rows.map rowDict)), ("more".toList, .bool p.more)]⟩ =
      .ok ⟨OP_SUCCESS, queryId, message, p.laterValue⟩ := by
  have hitem : ∀ (name : PyStr) (x : PyValue), (name, x) ∈
      [("data".toList, .list (p.rows.map rowDict)), ("more".toList, .bool p.more)] →
      (strDict [("data".toList, .list (p.rows.map rowDict)), ("more".toList, .bool p.more)]).item
        name = .ok x := fun name x hx => item_strDict (by simp) hx
  unfold postProcessSqlFieldsCursor
  rw [if_neg (by simp)]
  dsimp only
  rw [hitem _ (.bool p.more) (by simp), except_bind,
    hitem _ (.list (p.rows.map rowDict)) (by simp), except_bind]
  dsimp only
  rw [p.rowDicts_values]
  rfl

end SqlPage

/-! ### Both pages -/

section Pages
variable [Python] [OtherCodecs] (I : Client → Prop)

/-- Every client with `I` makes of an answer a result with these rows and this flag. -/
def GivesRows (version : ProtocolVersion) (r : ResponseClass)
    (postProcess : APIResult → Except PyError APIResult) (data : Bytes) (rows : List PyValue)
    (more : Bool) : Prop :=
  ∀ client s, I client → ∃ received client' s' result,
    processResponse version r data client s = .ok (received, client', s') ∧
      postProcess received = .ok result ∧ result.value.item "data".toList = .ok (.list rows) ∧
      result.value.item "more".toList = .ok (.bool more)

variable {I}

/-- The rows of a first page and of a later one are the same lists, with the same flag, and each
parser moves past exactly its page. -/
theorem sql_pages_agree {passed : Option Client} (p : SqlPage I passed) (r : SqlResponse)
    (version : ProtocolVersion) (e e' : Envelope) (he : e.error = none) (he' : e'.error = none) :
    Consumes I version (r.responseClass passed) (e.encode version (p.firstBytes r)) ∧
    Consumes I version (responseOf (cursorPageConfig passed p.columns))
      (e'.encode version p.laterBytes) ∧
    GivesRows I version (r.responseClass passed) .ok (e.encode version (p.firstBytes r)) p.rowLists
      p.more ∧
    GivesRows I version (responseOf (cursorPageConfig passed p.columns)) postProcessSqlFieldsCursor
      (e'.encode version p.laterBytes) p.rowLists p.more := by
  refine ⟨e.consumes version (p.findsBody_first r), ?_, fun client s hclient => ?_,
    fun client s hclient => ?_⟩
  · have hlater := (p.laterResponse e' version).consumes
    rwa [p.laterResponse_data] at hlater
  · obtain ⟨client', -, hprocess⟩ := p.process_first r e he version hclient s
    refine ⟨_, client', _, _, hprocess, rfl, ?_, ?_⟩
    · exact p.firstValue_item r (by simp)
    · exact p.firstValue_item r (by simp)
  · obtain ⟨client', -, hprocess⟩ := p.process_later e' he' version hclient s
    refine ⟨_, client', _, _, hprocess, p.postProcess_later _ _, ?_, ?_⟩
    · exact item_strDict (by simp) (by simp)
    · exact item_strDict (by simp) (by simp)

end Pages

/-- The rows `[5, None]` and `["x", (1, [3])]`, on a page that is not the last. -/
theorem sql_pages_agree_two :
    let _ := asciiLower
    let _ := noOtherCodecs
    let client : Client := ⟨none, fun _ => [], fun _ => []⟩
    let e : Envelope := ⟨7, none, none, by decide, by decide, by decide, by decide⟩
    ∃ p : SqlPage (SameRegistry client true) none,
      p.rowLists = [.list [.int 5, .none], .list [.str ['x'], .tuple [.int 1, .list [.int 3]]]] ∧
      GivesRows (SameRegistry client true) maxProtocol (SqlResponse.responseClass ⟨true, true⟩ none)
        .ok (e.encode maxProtocol (p.firstBytes ⟨true, true⟩)) p.rowLists true ∧
      GivesRows (SameRegistry client true) maxProtocol (responseOf (cursorPageConfig none p.columns))
        postProcessSqlFieldsCursor (e.encode maxProtocol p.laterBytes) p.rowLists true := by
  intro _ _ client e
  have hcollection : ValueTree .collectionObject
      (.tuple [.int 1, .list ([(PyValue.int 3, DataType.intObject)].map hint)]) :=
    .collection (by decide) (by simpa using .int (s := .int) rfl (by decide)) (by simp)
  let cell (t : DataType) (v : PyValue) : Bytes × PyValue :=
    (encode true t v, decoded Scalar.byte.wrap t v)
  let p : SqlPage (SameRegistry client true) none :=
    { columns := 2
      rows := [[cell .intObject (.int 5), cell .intObject .none],
        [cell .string (.str ['x']), cell .collectionObject
          (.tuple [.int 1, .list ([(PyValue.int 3, DataType.intObject)].map hint)])]]
      more := true
      names := [(encode true .string (.str ['a']), .str ['a']),
        (encode true .string (.str ['b']), .str ['b'])]
      cursor := 1
      width := by simp
      cells_read := by
        simp only [List.forall_mem_cons, List.not_mem_nil, false_imp_iff, implies_true, and_true]
        exact ⟨⟨(ValueTree.int (s := .int) rfl (by decide)).readsCell none,
          (ValueTree.none _).readsCell none⟩,
          (ValueTree.str (by decide) (by decide)).readsCell none, hcollection.readsCell none⟩
      names_length := rfl
      names_read := by
        simp only [List.forall_mem_cons, List.not_mem_nil, false_imp_iff, implies_true, and_true]
        exact ⟨(Encodable.str (by decide) (by decide)).reads (by simp [SchemasFound, objects]),
          (Encodable.str (by decide) (by decide)).reads (by simp [SchemasFound, objects])⟩
      columns_lt := by decide
      rows_lt := by decide
      cursor_range := by decide }
  refine ⟨p, ?_, (sql_pages_agree p ⟨true, true⟩ maxProtocol e e rfl rfl).2.2⟩
  simp [SqlPage.rowLists, p, cell, decoded, decodedAll, hint]

end PyGridGain
