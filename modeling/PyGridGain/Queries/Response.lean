import PyGridGain.Client.Affinity
import PyGridGain.Codec.Strings
import PyGridGain.Codec.Structs
import PyGridGain.Connection.ProtocolContext

/-! `Response` and what `perform` does with one. The classes derived from it differ in what they
make of a success; the envelope is the same for all. -/

namespace PyGridGain

open CObj StreamM

def RHF_ERROR : ℕ := 1

def RHF_TOPOLOGY_CHANGED : ℕ := 2

def OP_SUCCESS : ℤ := 0

/-- The name of a field of a response. -/
abbrev attrName (name : String) : FieldName := .field name.toList

/-- `StatusFlagResponseHeader`. -/
def statusFlagResponseHeader : List (FieldName × Layout) :=
  [(attrName "length", .scalar .int), (attrName "query_id", .scalar .longlong),
    (attrName "flags", .scalar .short)]

/-- `ResponseHeader`. -/
def responseHeader : List (FieldName × Layout) :=
  [(attrName "length", .scalar .int), (attrName "query_id", .scalar .longlong),
    (attrName "status_code", .scalar .int)]

/-- `_parse_success` and `to_python` of `Response` and of the classes derived from it. `perform`
passes no client to the latter. -/
structure ResponseClass where
  parseSuccess : StreamM (List (FieldName × Layout))
  toPython : CObject → Except PyError PyValue

/-- What `__parse_header` returns. -/
structure ParsedHeader where
  success : Bool
  initPos : ℕ
  headerClass : List (FieldName × Layout)
  fields : List (FieldName × Layout)

namespace Response
variable [Python] [OtherCodecs]

/-- The class of the header. -/
def headerClass (version : ProtocolVersion) : List (FieldName × Layout) :=
  if version.isStatusFlagsSupported then statusFlagResponseHeader else responseHeader

/-- The optional fields that the flags or the status announce, and whether there is an error. -/
def optionalFields (version : ProtocolVersion) (header : CObject) :
    Except PyError (List (FieldName × Layout) × Bool) :=
  if version.isStatusFlagsSupported then do
    let flags ← header.intAttr (attrName "flags")
    let fields := if hasFlag flags RHF_TOPOLOGY_CHANGED then
      [(attrName "affinity_version", .scalar .longlong), (attrName "affinity_minor", .scalar .int)] else []
    if hasFlag flags RHF_ERROR then .ok (fields ++ [(attrName "status_code", .scalar .int)], true)
    else .ok (fields, false)
  else do
    let statusCode ← header.intAttr (attrName "status_code")
    .ok ([], statusCode != OP_SUCCESS)

/-- `__parse_header`. -/
def parseHeader (version : ProtocolVersion) : StreamM ParsedHeader := do
  let initPos ← tell
  let header ← readForward (.struct (headerClass version))
  seekCur (CType.sizeFields (headerClass version))
  let (fields, hasError) ← fun s => (optionalFields version header).map fun r => (r, s)
  seekCur (CType.sizeFields fields)
  if hasError then
    let msgType ← PyGridGain.parse .string
    pure ⟨false, initPos, headerClass version, fields ++ [(attrName "error_message", msgType)]⟩
  else pure ⟨true, initPos, headerClass version, fields⟩

/-- `parse`. -/
def parse (version : ProtocolVersion) (r : ResponseClass) : StreamM Layout := do
  let header ← parseHeader version
  let fields ←
    if header.success then do
      let body ← r.parseSuccess
      pure (header.fields ++ body)
    else pure header.fields
  let responseClass := .struct (header.headerClass ++ fields)
  seek (header.initPos + CType.size responseClass : ℕ)
  pure responseClass

end Response

/-- `Response`: the fields in `following`, one after another. -/
def responseOf (following : List (PyStr × WireClass)) : ResponseClass where
  parseSuccess := parseStructFields [] (following.map fun f => (f.1, .plain f.2)) fun _ => none
  toPython o :=
    if following.isEmpty then .ok .none
    else do
      let result ← structFieldsToPython none o (following.map fun f => (f.1, .plain f.2)) []
      .ok (strDict result)

/-- `APIResult`. -/
structure APIResult where
  status : ℤ
  queryId : ℤ
  message : PyValue
  value : PyValue

/-- The topology version in `__post_process_response`. -/
def updateTopology (response : CObject) (s : Affinity) : Except PyError Affinity :=
  if hasFlag ((response.getInt (attrName "flags")).getD 0) RHF_TOPOLOGY_CHANGED then do
    let version ← response.intAttr (attrName "affinity_version")
    let minor ← response.intAttr (attrName "affinity_minor")
    .ok (s.postProcessResponse (toLex (version, minor)))
  else .ok s

section Results
variable [Python] [OtherCodecs]

/-- `APIResult.__init__`. -/
def APIResult.init (response : CObject) : Except PyError APIResult := do
  let queryId ← response.intAttr (attrName "query_id")
  let message ←
    match response.getattr (attrName "error_message") with
    | some o => toPython none .string o
    | none => .ok (.str "Success".toList)
  .ok ⟨(response.getInt (attrName "status_code")).getD OP_SUCCESS, queryId, message, .none⟩

/-- What `perform` makes of the bytes of a response. -/
def processResponse (version : ProtocolVersion) (r : ResponseClass) (data : Bytes) (client : Client)
    (s : Affinity) : Except PyError (APIResult × Client × Affinity) := do
  let (c, stream) ← Response.parse version r ⟨client, data, 0, false⟩
  let (response, stream) ← readBackward c stream
  let s ← updateTopology response s
  let result ← APIResult.init response
  if result.status = OP_SUCCESS then do
    let value ← r.toPython response
    .ok ({ result with value }, stream.client, s)
  else .ok (result, stream.client, s)

end Results

/-- Fields are found that `data` fills, with parts that satisfy `Q`. -/
def FindsParts (I : Client → Prop) (m : StreamM (List (FieldName × Layout))) (data : Bytes)
    (Q : List (FieldName × Layout × Bytes) → Prop) : Prop :=
  Finds I m data fun cs => ∃ parts, cs = parts.map (fun p => (p.1, p.2.1)) ∧ Filled parts ∧
    parts.flatMap (fun p => p.2.2) = data ∧ Q parts

/-- `r` is the stream `s` at any position. -/
structure SameBytes (I : Client → Prop) (s r : BinaryStream) : Prop where
  emptyView : r.emptyView = false
  client : I r.client
  buf : r.buf = s.buf

/-- As much of it as a body needs: where the stream stands behind a body does not matter, for
`parse` goes to its end. -/
def FindsBody (I : Client → Prop) (m : StreamM (List (FieldName × Layout))) (data : Bytes)
    (Q : List (FieldName × Layout × Bytes) → Prop) : Prop :=
  ∀ s, Before I s data → ∃ parts r, m s = .ok (parts.map fun p => (p.1, p.2.1), r) ∧
    SameBytes I s r ∧ Filled parts ∧ parts.flatMap (fun p => p.2.2) = data ∧
    Q parts

section FindsParts
variable {I : Client → Prop} {m : StreamM (List (FieldName × Layout))} {data data' : Bytes}
  {Q : List (FieldName × Layout × Bytes) → Prop}

theorem FindsParts.body (h : FindsParts I m data Q) : FindsBody I m data Q := by
  intro s hs
  obtain ⟨_, r, hm, hr, parts, rfl, hfilled, hbytes, hQ⟩ := h s hs
  exact ⟨parts, r, hm, ⟨hr.emptyView, hr.client, hr.buf⟩, hfilled, hbytes, hQ⟩

theorem FindsParts.nil {ctx : ParseContext} :
    FindsParts I (parseStructFields [] [] ctx) [] fun parts => parts = [] :=
  Finds.pure ⟨[], rfl, by simp [Filled], rfl, rfl⟩

/-- A field in front of others. -/
theorem FindsParts.cons {name : PyStr} {w : WireClass} {fields : List (PyStr × FieldClass)}
    {ctx : ParseContext} {R : Layout → Prop}
    (hw : Finds I w.parse data fun c => c.size = data.length ∧ R c)
    (hfields : FindsParts I (parseStructFields [] fields ctx) data' Q) :
    FindsParts I (parseStructFields [] ((name, .plain w) :: fields) ctx) (data ++ data')
      fun parts => ∃ c rest, parts = (.field name, c, data) :: rest ∧ R c ∧ Q rest := by
  unfold parseStructFields
  refine hw.bind fun c hc => ?_
  simp only [List.not_mem_nil, if_false, pure_bind]
  refine hfields.map ?_
  rintro cs ⟨rest, rfl, hfilled, hbytes, hQ⟩
  refine ⟨(.field name, c, data) :: rest, rfl, ?_, ?_, c, rest, rfl, hc.2, hQ⟩
  · exact List.forall_mem_cons.mpr ⟨hc.1.symm, hfilled⟩
  · rw [List.flatMap_cons, hbytes]

theorem FindsParts.mono {Q' : List (FieldName × Layout × Bytes) → Prop} (h : FindsParts I m data Q)
    (hQ : ∀ parts, Q parts → Q' parts) : FindsParts I m data Q' := by
  refine Finds.mono h fun cs hcs => ?_
  obtain ⟨parts, hlayouts, hfilled, hbytes, hparts⟩ := hcs
  exact ⟨parts, hlayouts, hfilled, hbytes, hQ parts hparts⟩

/-- A number in front of other fields. -/
theorem FindsParts.scalar {name : PyStr} {sc : Scalar} {i : ℤ} {fields : List (PyStr × FieldClass)}
    {ctx : ParseContext} (hfields : FindsParts I (parseStructFields [] fields ctx) data' Q) :
    FindsParts I (parseStructFields [] ((name, .plain (primitive sc)) :: fields) ctx)
      (sc.store i ++ data') fun parts => ∃ rest, parts = scalarPart (.field name) sc i :: rest ∧
        Q rest := by
  have hsize : (CType.scalar sc : Layout).size = (sc.store i).length := (Scalar.store_length _ _).symm
  have hnumber : Finds I (primitive sc).parse (sc.store i) fun c =>
      c.size = (sc.store i).length ∧ c = .scalar sc := Finds.seekPast hsize ⟨hsize, rfl⟩
  refine (FindsParts.cons hnumber hfields).mono ?_
  rintro parts ⟨c, rest, rfl, rfl, hQ⟩
  exact ⟨rest, rfl, hQ⟩

end FindsParts

/-! ### What the server answers -/

/-- An answer without its body: the id of the query, the topology version if it has changed, and
the status and the message of an error. -/
structure Envelope where
  queryId : ℤ
  topology : Option (ℤ × ℤ)
  error : Option (ℤ × Option PyStr)
  queryId_range : Scalar.longlong.Range queryId
  topology_range : ∀ v ∈ topology, Scalar.longlong.Range v.1 ∧ Scalar.int.Range v.2
  status_range : ∀ e ∈ error, Scalar.int.Range e.1 ∧ e.1 ≠ OP_SUCCESS
  message_range : ∀ e ∈ error, ∀ m ∈ e.2, (utf8Encode m).length < 2 ^ 31

/-- The bytes of a text, or of none. -/
def textBytes : Option PyStr → Bytes
  | some x => DataType.string.typeCode :: (Scalar.int.store (utf8Encode x).length ++ utf8Encode x)
  | none => [TC_NULL]

/-- What `String` makes of these bytes: the text ends before its first U+0000. -/
def textRead : Option PyStr → PyValue
  | some x => .str (x.takeWhile (· ≠ '\x00'))
  | none => .none

namespace Envelope

def status (e : Envelope) : ℤ := (e.error.map (·.1)).getD OP_SUCCESS

def flags (e : Envelope) : ℤ :=
  (if e.error.isSome then RHF_ERROR else 0) + (if e.topology.isSome then RHF_TOPOLOGY_CHANGED else 0)

section Parts
variable (e : Envelope) (version : ProtocolVersion)

/-- The fields behind the length. -/
def headParts : List (FieldName × Layout × Bytes) :=
  [scalarPart (attrName "query_id") .longlong e.queryId,
    if version.isStatusFlagsSupported then scalarPart (attrName "flags") .short e.flags
    else scalarPart (attrName "status_code") .int e.status]

/-- The fields that the flags announce. -/
def optionalParts : List (FieldName × Layout × Bytes) :=
  if version.isStatusFlagsSupported then
    (match e.topology with
      | some v => [scalarPart (attrName "affinity_version") .longlong v.1,
          scalarPart (attrName "affinity_minor") .int v.2]
      | none => []) ++
    (match e.error with
      | some (status, _) => [scalarPart (attrName "status_code") .int status]
      | none => [])
  else []

/-- The bytes behind the envelope: an error has a message, a success a body. -/
def tailBytes (body : Bytes) : Bytes :=
  match e.error with
  | some (_, message) => textBytes message
  | none => body

/-- The bytes behind the length. -/
def content (body : Bytes) : Bytes :=
  (e.headParts version).flatMap (fun p => p.2.2) ++
    ((e.optionalParts version).flatMap (fun p => p.2.2) ++ e.tailBytes body)

/-- The answer with its length. -/
def encode (body : Bytes) : Bytes :=
  Scalar.int.store (e.content version body).length ++ e.content version body

/-- All parts of an answer, of which `tail` stands behind the envelope. -/
def parts (body : Bytes) (tail : List (FieldName × Layout × Bytes)) :
    List (FieldName × Layout × Bytes) :=
  scalarPart (attrName "length") .int (e.content version body).length :: e.headParts version ++
    (e.optionalParts version ++ tail)

end Parts

end Envelope

section Texts
variable [Python] [OtherCodecs] {I : Client → Prop}

/-- No client is asked for a text. -/
theorem toPython_string (client client' : Option Client) (o : CObject) :
    toPython client .string o = toPython client' .string o := rfl

theorem recovers_text (x : PyStr) (hlen : (utf8Encode x).length < 2 ^ 31) :
    Recovers (classReader .string) (textBytes (some x)) (.ok (textRead (some x))) := by
  have hparts : textBytes (some x) = (codePart DataType.string.typeCode ::
      [scalarPart .length .int (utf8Encode x).length,
        (.data, .chars (utf8Encode x).length, utf8Encode x)]).flatMap fun p => p.2.2 := by
    simp [codePart, scalarPart, textBytes]
  refine (recovers_of_parts _ (by simp) (stringParts_filled rfl) (stringParts_nodup _ _ _) hparts
    (fun n s hs hat => ?_) fun client n => ?_).1
  · have hpeek : peekLength 1 s = .ok ((utf8Encode x).length, s) :=
      peekLength_ok hs hlen (At.right (a := [DataType.string.typeCode]) hat).left
    exact bind_ok hpeek
  · refine (stringToPython_parts rfl).trans ?_
    rw [takeWhile_utf8Encode_isPrefix, utf8Decode_utf8Encode, Scalar.wrap_eq_iff.mpr (range_of_lt hlen)]
    split_ifs with hpos
    · rfl
    · have hnil : x = [] := utf8Encode_eq_nil.mp (List.length_eq_zero_iff.mp (by omega))
      rw [hnil]
      rfl

theorem finds_text {message : Option PyStr}
    (hlen : ∀ x ∈ message, (utf8Encode x).length < 2 ^ 31) :
    Finds I (parse .string) (textBytes message) fun c => c.size = (textBytes message).length ∧
      ∀ client, toPython client .string ⟨c, textBytes message⟩ = .ok (textRead message) := by
  have hreads : ReadsAs (wireClass .string) (textBytes message) (.ok (textRead message)) := by
    cases message with
    | none => exact (recovers_none .string).1.classReadsAs (by simp)
    | some x => exact (recovers_text x (hlen x rfl)).classReadsAs (by simp [textBytes])
  intro s hs
  obtain ⟨c, hsize, hparse, hpy⟩ := hreads
  refine ⟨c, s.skip c.size, hparse s hs.emptyView hs.at_pos, ?_, hsize, fun client => ?_⟩
  · rw [hsize]
    exact hs.skip _
  · exact (toPython_string client (some s.client) _).trans (hpy s.client)

end Texts

namespace Envelope

section Header
variable (e : Envelope) (version : ProtocolVersion)

/-- The layout and the bytes of the header. -/
def header (length : ℤ) : CObject :=
  ofParts (scalarPart (attrName "length") .int length :: e.headParts version)

theorem headParts_filled (length : ℤ) :
    Filled (scalarPart (attrName "length") .int length :: e.headParts version) := by
  intro p hp
  simp only [headParts, List.mem_cons, List.not_mem_nil, or_false] at hp
  rcases hp with rfl | rfl | rfl
  · simp [scalarPart, CType.size]
  · simp [scalarPart, CType.size]
  · split_ifs <;> simp [scalarPart, CType.size]

theorem header_ctype (length : ℤ) : (e.header version length).ctype =
    .struct (Response.headerClass version) := by
  cases h : version.isStatusFlagsSupported <;>
    simp [header, ofParts, headParts, h, scalarPart, Response.headerClass, statusFlagResponseHeader,
      responseHeader]

theorem header_nodup (length : ℤ) :
    ((scalarPart (attrName "length") .int length :: e.headParts version).map (·.1)).Nodup := by
  cases h : version.isStatusFlagsSupported
  · simp [headParts, h, scalarPart]
  · simp [headParts, h, scalarPart]

theorem flags_range : Scalar.short.Range e.flags := by
  unfold flags
  split_ifs <;> decide

theorem hasFlag_error : hasFlag e.flags RHF_ERROR = e.error.isSome := by
  unfold flags
  cases e.error.isSome <;> cases e.topology.isSome <;> decide

theorem hasFlag_topology : hasFlag e.flags RHF_TOPOLOGY_CHANGED = e.topology.isSome := by
  unfold flags
  cases e.error.isSome <;> cases e.topology.isSome <;> decide

theorem status_ne_iff : (e.status != OP_SUCCESS) = e.error.isSome := by
  have hstatus := e.status_range
  unfold status
  cases h : e.error with
  | none => rfl
  | some p => simpa using (hstatus p (by simp [h])).2

theorem range_status : Scalar.int.Range e.status := by
  have hstatus := e.status_range
  unfold status
  cases h : e.error with
  | none => decide
  | some p => exact (hstatus p (by simp [h])).1

theorem optionalFields_eq (length : ℤ) :
    Response.optionalFields version (e.header version length) =
      .ok ((e.optionalParts version).map fun p => (p.1, p.2.1), e.error.isSome) := by
  have hfilled := e.headParts_filled version length
  have hnd := e.header_nodup version length
  unfold Response.optionalFields
  by_cases hv : version.isStatusFlagsSupported = true
  · have hflags : (e.header version length).intAttr (attrName "flags") = .ok e.flags :=
      intAttr_part hfilled hnd e.flags_range (by simp [headParts, hv])
    rw [if_pos hv, hflags, except_bind, e.hasFlag_error, e.hasFlag_topology]
    simp only [optionalParts, if_pos hv]
    cases e.error <;> cases e.topology <;> rfl
  · have hstatus : (e.header version length).intAttr (attrName "status_code") = .ok e.status :=
      intAttr_part hfilled hnd e.range_status (by simp [headParts, hv])
    rw [if_neg hv, hstatus, except_bind, e.status_ne_iff]
    simp only [optionalParts, if_neg hv]
    rfl

theorem header_size (length : ℤ) :
    (e.header version length).mem.length = CType.sizeFields (Response.headerClass version) := by
  have hlength := ofParts_length (e.headParts_filled version length)
  rw [show ofParts _ = e.header version length from rfl, header_ctype] at hlength
  exact hlength

theorem optionalParts_filled : Filled (e.optionalParts version) := by
  intro p hp
  unfold optionalParts at hp
  split_ifs at hp
  · cases htopology : e.topology <;> cases herror : e.error <;> simp only [htopology, herror] at hp
    all_goals
      simp only [List.mem_append, List.mem_cons, List.not_mem_nil, or_false, false_or] at hp
    · subst hp
      simp [scalarPart, CType.size]
    · rcases hp with rfl | rfl <;> simp [scalarPart, CType.size]
    · rcases hp with (rfl | rfl) | rfl <;> simp [scalarPart, CType.size]
  · cases hp

theorem encode_eq (body : Bytes) : e.encode version body =
    (e.header version (e.content version body).length).mem ++
      ((e.optionalParts version).flatMap (fun p => p.2.2) ++ e.tailBytes body) := by
  simp only [encode, header, ofParts, List.flatMap_cons, scalarPart, List.append_assoc]
  rw [content]

theorem parts_object (body : Bytes) {tail : List (FieldName × Layout × Bytes)}
    (hbytes : tail.flatMap (fun p => p.2.2) = e.tailBytes body) :
    (⟨.struct (Response.headerClass version ++ ((e.optionalParts version).map
        (fun p => (p.1, p.2.1)) ++ tail.map fun p => (p.1, p.2.1))),
      e.encode version body⟩ : CObject) = ofParts (e.parts version body tail) := by
  have hctype := e.header_ctype version (e.content version body).length
  rw [header, ofParts] at hctype
  dsimp only at hctype
  rw [CType.struct.injEq] at hctype
  rw [encode_eq, ← hbytes, header, ofParts, ofParts, parts, ← hctype]
  simp only [List.map_append, List.flatMap_append]

theorem parts_filled (body : Bytes) {tail : List (FieldName × Layout × Bytes)} (h : Filled tail) :
    Filled (e.parts version body tail) :=
  (e.headParts_filled version _).append ((e.optionalParts_filled version).append h)

end Header

section Parses
variable [Python] [OtherCodecs] {I : Client → Prop} (e : Envelope) (version : ProtocolVersion)

/-- The stream behind the optional fields. -/
def afterOptional (body : Bytes) (s : BinaryStream) : BinaryStream :=
  s.skip ((e.header version (e.content version body).length).mem.length +
    ((e.optionalParts version).flatMap fun p => p.2.2).length)

omit [Python] [OtherCodecs] in
theorem before_tail {body : Bytes} {s : BinaryStream} (hs : Before I s (e.encode version body)) :
    Before I (e.afterOptional version body s) (e.tailBytes body) := by
  rw [encode_eq, ← List.append_assoc] at hs
  have hskip := hs.right (hs.left.skip _)
  rwa [List.length_append] at hskip

/-- The envelope up to its optional fields. -/
theorem parseHeader_eq {body : Bytes} {s : BinaryStream} (hs : Before I s (e.encode version body)) :
    Response.parseHeader version s = (if e.error.isSome then do
        let msgType ← PyGridGain.parse .string
        pure ⟨false, s.pos, Response.headerClass version,
          (e.optionalParts version).map (fun p => (p.1, p.2.1)) ++
            [(attrName "error_message", msgType)]⟩
      else pure ⟨true, s.pos, Response.headerClass version,
        (e.optionalParts version).map fun p => (p.1, p.2.1)⟩ : StreamM ParsedHeader)
      (e.afterOptional version body s) := by
  have hsize := e.header_size version (e.content version body).length
  have hctype := e.header_ctype version (e.content version body).length
  have hopt := e.optionalFields_eq version (e.content version body).length
  rw [encode_eq] at hs
  unfold afterOptional
  generalize e.header version (e.content version body).length = header at *
  obtain ⟨c, mem⟩ := header
  dsimp only at hsize hctype hs ⊢
  subst hctype
  have hne : mem ≠ [] := by
    rw [← List.length_pos_iff, hsize, Response.headerClass]
    split_ifs <;> decide
  have hread : readForward (.struct (Response.headerClass version)) s = .ok (⟨_, mem⟩, s) :=
    readForward_at hs.emptyView hs.left.at_pos hne hsize
  have hoptional : (Response.optionalFields version
      ⟨.struct (Response.headerClass version), mem⟩).map (fun r => (r, s.skip mem.length)) =
      .ok (((e.optionalParts version).map fun p => (p.1, p.2.1), e.error.isSome),
        s.skip mem.length) := by
    rw [hopt]
    rfl
  have hoptSize : CType.sizeFields ((e.optionalParts version).map fun p => (p.1, p.2.1)) =
      ((e.optionalParts version).flatMap fun p => p.2.2).length :=
    (ofParts_length (e.optionalParts_filled version)).symm
  unfold Response.parseHeader
  rw [bind_ok (tell_ok s), bind_ok hread, ← hsize, bind_ok (seekCur_ok s _), bind_ok hoptional]
  dsimp only
  rw [hoptSize, bind_ok (seekCur_ok _ _), BinaryStream.skip_skip]

/-- What stands behind the envelope: the message of an error, or the body of a success. -/
def Tail (Q : List (FieldName × Layout × Bytes) → Prop)
    (tail : List (FieldName × Layout × Bytes)) : Prop :=
  match e.error with
  | some (_, message) => ∃ c, tail = [(attrName "error_message", c, textBytes message)] ∧
      ∀ client, toPython client .string ⟨c, textBytes message⟩ = .ok (textRead message)
  | none => Q tail

omit [Python] [OtherCodecs] in
/-- The last steps, once the tail has been found. -/
theorem seek_end {body : Bytes} {s r : BinaryStream} {tail : List (FieldName × Layout × Bytes)}
    (hfilled : Filled tail) (hbytes : tail.flatMap (fun p => p.2.2) = e.tailBytes body)
    (hr : SameBytes I s r) :
    ∃ t, seek (s.pos + CType.size (.struct (Response.headerClass version ++
      ((e.optionalParts version).map (fun p => (p.1, p.2.1)) ++
        tail.map fun p => (p.1, p.2.1)))) : ℕ) r = .ok ((), t) ∧
      Past I s t (e.encode version body).length := by
  have hlength := ofParts_length (e.parts_filled version body hfilled)
  rw [← e.parts_object version body hbytes] at hlength
  rw [← hlength, seek_ok]
  exact ⟨_, rfl, hr.emptyView, hr.client, hr.buf, rfl⟩

/-- A response is parsed to the parts of the envelope and what stands behind them. -/
theorem finds_parse {r : ResponseClass} {body : Bytes}
    {Q : List (FieldName × Layout × Bytes) → Prop}
    (hbody : e.error = none → FindsBody I r.parseSuccess body Q) :
    Finds I (Response.parse version r) (e.encode version body) fun c => ∃ tail,
      (⟨c, e.encode version body⟩ : CObject) = ofParts (e.parts version body tail) ∧
        Filled (e.parts version body tail) ∧ e.Tail Q tail := by
  intro s hs
  have hheader := e.parseHeader_eq version hs
  have htail := e.before_tail version hs
  cases herror : e.error with
  | none =>
    have hbytes : e.tailBytes body = body := by rw [tailBytes, herror]
    rw [herror] at hheader
    rw [hbytes] at htail
    obtain ⟨tail, u, hparse, hu, hfilled, hflat, hQ⟩ := hbody herror _ htail
    obtain ⟨t, hseek, hend⟩ := e.seek_end version (s := s) hfilled (hflat.trans hbytes.symm)
      ⟨hu.emptyView, hu.client, hu.buf⟩
    refine ⟨_, t, ?_, hend, tail, e.parts_object version body (hflat.trans hbytes.symm),
      e.parts_filled version body hfilled, ?_⟩
    · unfold Response.parse
      rw [bind_ok hheader]
      dsimp only
      rw [if_pos rfl, bind_ok hparse, pure_bind, bind_ok hseek]
      rfl
    · rw [Tail, herror]
      exact hQ
  | some p =>
    obtain ⟨status, message⟩ := p
    have hbytes : e.tailBytes body = textBytes message := by rw [tailBytes, herror]
    rw [hbytes] at htail
    obtain ⟨c, u, hparse, hpast, hsize, hpy⟩ :=
      finds_text (I := I) (fun x hx => e.message_range _ herror x hx) _ htail
    have hfilled : Filled [(attrName "error_message", c, textBytes message)] := by
      simpa [Filled] using hsize.symm
    have hflat : [(attrName "error_message", c, textBytes message)].flatMap (fun p => p.2.2) =
        e.tailBytes body := by simp [hbytes]
    obtain ⟨t, hseek, hend⟩ := e.seek_end version (s := s) hfilled hflat
      ⟨hpast.emptyView, hpast.client, hpast.buf⟩
    refine ⟨_, t, ?_, hend, _, e.parts_object version body hflat,
      e.parts_filled version body hfilled, ?_⟩
    · unfold Response.parse
      rw [herror] at hheader
      rw [bind_ok (hheader.trans (bind_ok hparse))]
      dsimp only
      rw [if_neg (by simp), pure_bind]
      exact bind_ok hseek
    · rw [Tail, herror]
      exact ⟨c, rfl, hpy⟩

end Parses

end Envelope

end PyGridGain
