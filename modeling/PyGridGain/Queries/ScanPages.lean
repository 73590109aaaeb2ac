import PyGridGain.Codec.Maps
import PyGridGain.Codec.StructWrites
import PyGridGain.Queries.Envelope

/-! The pages of a scan, an SQL query or a vector query over whole entries: the rows of a page are
the items of the dict that its map is read as. -/

namespace PyGridGain

open CObj StreamM

section Classes
variable [Python] [OtherCodecs]

/-- The `response_config` of the first page, and of a later one. -/
def pageConfig (first : Bool) : List (PyStr × WireClass) :=
  (if first then [("cursor".toList, primitive .longlong)] else []) ++
    [("data".toList, mapClass), ("more".toList, boolClass)]

/-- `result.value['data'].items()`. -/
def pageRows (value : PyValue) : Except PyError (List (PyValue × PyValue)) := do
  let data ← value.item "data".toList
  match data with
  | .dict kvs => .ok kvs
  | _ => raise .attributeError

end Classes

/-- A page as the server answers with it, of entries that are read without a client and whose keys
can be hashed. -/
structure ScanPage (I : Client → Prop) [Python] [OtherCodecs] where
  version : ProtocolVersion
  envelope : Envelope
  cursor : Option {i : ℤ // Scalar.longlong.Range i}
  entries : WirePairs I fun _ => none
  more : Bool
  success : envelope.error = none
  hashable : ∀ p ∈ entries.kvs, p.1.hashKey ≠ none

namespace ScanPage
variable [Python] [OtherCodecs] {I : Client → Prop} (p : ScanPage I)

/-- The rows that are left of the entries. -/
def rows : List (PyValue × PyValue) := partialCollapse PyValue.dictKey p.entries.kvs

theorem dictOf_entries : dictOf p.entries.kvs = .ok p.rows := if_pos p.hashable

theorem reads_data : Reads I mapClass.withoutClient p.entries.payload (.dict p.rows) := by
  have hyields := p.entries.yields_map
  rw [p.dictOf_entries] at hyields
  exact hyields

def body : List (PyStr × WireClass × Bytes × PyValue) :=
  (p.cursor.toList.map fun i => ("cursor".toList, primitive .longlong, Scalar.longlong.store i.1,
    .int i.1)) ++
  [("data".toList, mapClass, p.entries.payload, .dict p.rows),
    ("more".toList, boolClass, Scalar.byte.store (if p.more then 1 else 0), .bool p.more)]

theorem body_names : p.body.map (·.1) =
    (if p.cursor.isSome then ["cursor".toList] else []) ++ ["data".toList, "more".toList] := by
  cases h : p.cursor <;> simp [body, h]

/-- The answer. -/
def response : ServerResponse I where
  version := p.version
  envelope := p.envelope
  body := p.body
  reads := by
    rw [body, List.forall_mem_append, List.forall_mem_map, List.forall_mem_cons,
      List.forall_mem_singleton]
    exact ⟨fun i _ => (reads_primitive i.2).withoutClient fun _ => rfl, p.reads_data,
      (reads_bool p.more).withoutClient fun _ => rfl⟩
  names_nodup := by
    rw [body_names]
    split_ifs <;> simp [-String.reduceToList, String.toList_inj]
  names_free := by
    rw [← List.forall_mem_map (P := fun name => name ∉ envelopeNames), body_names]
    split_ifs <;> simp [envelopeNames, frontNames, -String.reduceToList, String.toList_inj]

theorem responseClass_eq :
    p.response.responseClass = responseOf (pageConfig p.cursor.isSome) := by
  cases h : p.cursor <;> simp [ServerResponse.responseClass, response, body, pageConfig, h]

/-- The entries are received as rows, the last one wherever several have equal keys. -/
theorem rows_received : pageRows p.response.received.value = .ok p.rows := by
  have hne : p.body ≠ [] := by simp [body]
  have hnd : ((p.body.map fun f => (f.1, f.2.2.2)).map (·.1)).Nodup := by
    have hnames := p.response.names_nodup
    rw [List.map_map]
    exact hnames
  have hvalue : p.response.received.value = strDict (p.body.map fun f => (f.1, f.2.2.2)) := by
    simp [ServerResponse.received, ServerResponse.expected, response, p.success, hne]
  have hdata : ("data".toList, PyValue.dict p.rows) ∈ p.body.map fun f => (f.1, f.2.2.2) := by
    simp [body, -String.reduceToList]
  rw [pageRows, hvalue, item_strDict hnd hdata, except_bind]

theorem allRows_received (pages : List (ScanPage I)) :
    ((pages.map response).map ServerResponse.received).mapM (fun r => pageRows r.value) =
      .ok (pages.map rows) := by
  induction pages with
  | nil => rfl
  | cons p pages ih => exact mapM_cons_ok.mpr ⟨_, _, p.rows_received, ih, rfl⟩

end ScanPage

/-- Lists of which none is longer than another. -/
theorem length_flatMap_eq_iff {α β γ : Type} {f : α → List β} {g : α → List γ} {l : List α}
    (h : ∀ a ∈ l, (f a).length ≤ (g a).length) :
    (l.flatMap f).length = (l.flatMap g).length ↔ ∀ a ∈ l, (f a).length = (g a).length := by
  have hle : ∀ l : List α, (∀ a ∈ l, (f a).length ≤ (g a).length) →
      (l.flatMap f).length ≤ (l.flatMap g).length := fun l hl => by
    rw [List.length_flatMap, List.length_flatMap]
    exact List.sum_le_sum hl
  induction l with
  | nil => simp
  | cons a l ih =>
    rw [List.forall_mem_cons] at h
    have hrest := hle l h.2
    have hhead := h.1
    have hequal := ih h.2
    rw [List.flatMap_cons, List.flatMap_cons, List.length_append, List.length_append,
      List.forall_mem_cons]
    constructor
    · exact fun heq => ⟨by omega, hequal.mp (by omega)⟩
    · rintro ⟨hfirst, hothers⟩
      rw [hfirst, hequal.mpr hothers]

/-- Whatever such pages come in, each is received as the rows that are left of its entries; every
entry is among the rows exactly if no page has two equal keys. -/
theorem scan_rows [Python] [OtherCodecs] {I : Client → Prop} (pages : List (ScanPage I))
    (client : Client) (hclient : I client) (s : Affinity) :
    ∃ results client' s', processAll (pages.map ScanPage.response) client s =
        .ok (results, client', s') ∧
      results.mapM (fun r => pageRows r.value) = .ok (pages.map ScanPage.rows) ∧
      ((pages.flatMap ScanPage.rows).length = (pages.flatMap fun p => p.entries.pairs).length ↔
        ∀ p ∈ pages, (p.entries.kvs.filterMap fun p => p.1.dictKey).Nodup) := by
  obtain ⟨client', s', hrun, -⟩ := processAll_eq (pages.map ScanPage.response) hclient s
  refine ⟨_, client', s', hrun, ScanPage.allRows_received pages, ?_⟩
  · have hkvs : ∀ p : ScanPage I, p.entries.kvs.length = p.entries.pairs.length :=
      fun p => List.length_map _
    have hle : ∀ p ∈ pages, (ScanPage.rows p).length ≤ p.entries.pairs.length := fun p _ => by
      rw [← hkvs]
      exact length_partialCollapse_le
    rw [length_flatMap_eq_iff hle]
    refine forall₂_congr fun p _ => ?_
    rw [← hkvs, ScanPage.rows, length_partialCollapse_iff]

/-- A page of three entries with equal keys, of which one row is left. -/
theorem scan_rows_equalKeys :
    let _ := asciiLower
    let _ := noOtherCodecs
    ∃ page : ScanPage (SameRegistry someClient true), page.rows = [(.int 1, .int 30)] ∧
      ∃ results client' s', processAll [page.response] someClient Affinity.init =
        .ok (results, client', s') ∧
      results.mapM (fun r => pageRows r.value) = .ok [page.rows] := by
  intro _ _
  let page : ScanPage (SameRegistry someClient true) :=
    { version := maxProtocol
      envelope := ⟨7, none, none, by decide, by decide, by decide, by decide⟩
      cursor := some ⟨5, by decide⟩
      entries := equalKeys fun _ => none
      more := false
      success := rfl
      hashable := by
        rw [equalKeys_kvs]
        simp [PyValue.hashKey] }
  obtain ⟨results, client', s', hrun, hrows, -⟩ :=
    scan_rows [page] someClient ⟨rfl, rfl⟩ Affinity.init
  refine ⟨page, ?_, results, client', s', hrun, hrows⟩
  show partialCollapse PyValue.dictKey (equalKeys fun _ => none).kvs = _
  rw [equalKeys_kvs]
  rfl

end PyGridGain
