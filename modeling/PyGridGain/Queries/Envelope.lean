import PyGridGain.Queries.Response

/-! What is read of a response: its envelope comes back as it was sent, but for a message with
U+0000 in it, and the topology version of the client is the highest of those reported. -/

namespace PyGridGain

open CObj StreamM

/-- The names of the fields before the message or the body. -/
def frontNames : List PyStr :=
  ["length", "query_id", "flags", "status_code", "affinity_version", "affinity_minor"].map String.toList

/-- The names of the fields of an envelope. -/
def envelopeNames : List PyStr := frontNames ++ ["error_message".toList]

/-- The parser moves past these bytes exactly, and its class has their size. -/
def Consumes [Python] [OtherCodecs] (I : Client → Prop) (version : ProtocolVersion)
    (r : ResponseClass) (data : Bytes) : Prop :=
  Finds I (Response.parse version r) data fun c => c.size = data.length

namespace Envelope
variable (e : Envelope) (version : ProtocolVersion)

/-- The parts before the message or the body. -/
def frontParts (length : ℤ) : List (FieldName × Layout × Bytes) :=
  scalarPart (attrName "length") .int length :: e.headParts version ++ e.optionalParts version

theorem parts_eq (body : Bytes) (tail : List (FieldName × Layout × Bytes)) :
    e.parts version body tail =
      e.frontParts version (e.content version body).length ++ tail := by
  simp [parts, frontParts]

theorem front_names_nodup (length : ℤ) : ((e.frontParts version length).map (·.1)).Nodup := by
  unfold frontParts headParts optionalParts
  cases version.isStatusFlagsSupported <;> cases e.topology <;> cases e.error <;>
    simp [scalarPart]

theorem front_names (length : ℤ) :
    (e.frontParts version length).map (·.1) ⊆ frontNames.map FieldName.field := by
  unfold frontParts headParts optionalParts
  cases version.isStatusFlagsSupported <;> cases e.topology <;> cases e.error <;>
    simp [scalarPart, frontNames]

/-- The fields of a tail have names of their own. -/
structure FreeTail (tail : List (FieldName × Layout × Bytes)) : Prop where
  nodup : (tail.map (·.1)).Nodup
  free : ∀ name ∈ frontNames, FieldName.field name ∉ tail.map (·.1)

theorem FreeTail.parts_nodup {e : Envelope} {version : ProtocolVersion} {body : Bytes}
    {tail : List (FieldName × Layout × Bytes)} (h : FreeTail tail) :
    ((e.parts version body tail).map (·.1)).Nodup := by
  rw [parts_eq, List.map_append, List.nodup_append]
  refine ⟨e.front_names_nodup version _, h.nodup, fun a ha b hb => ?_⟩
  obtain ⟨name, hname, rfl⟩ := List.mem_map.mp (e.front_names version _ ha)
  rintro rfl
  exact h.free name hname hb

/-- The topology version that a response reports. -/
def reported : Option AffinityVersion :=
  if version.isStatusFlagsSupported then e.topology.map toLex else none

/-- The state of the client after a response. -/
def update (s : Affinity) : Affinity := (e.reported version).elim s s.postProcessResponse

section Attributes
variable {e : Envelope} {version : ProtocolVersion} {body : Bytes}
  {tail : List (FieldName × Layout × Bytes)}

theorem queryId_read (hf : Filled (e.parts version body tail)) (h : FreeTail tail) :
    CObject.intAttr (ofParts (e.parts version body tail)) (attrName "query_id") = .ok e.queryId :=
  intAttr_part hf h.parts_nodup e.queryId_range (by simp [parts, headParts])

/-- An attribute of the front that is absent. -/
theorem getInt_absent (h : FreeTail tail) {name : PyStr} (hname : name ∈ frontNames)
    (hfront : FieldName.field name ∉
      (e.frontParts version (e.content version body).length).map (·.1)) :
    (ofParts (e.parts version body tail)).getInt (.field name) = none := by
  have hnot : FieldName.field name ∉ (e.parts version body tail).map (·.1) := by
    rw [parts_eq, List.map_append, List.mem_append, not_or]
    exact ⟨hfront, h.free name hname⟩
  rw [getInt, getattr_of_notMem hnot]
  rfl

theorem flags_read (hf : Filled (e.parts version body tail)) (h : FreeTail tail) :
    hasFlag (((ofParts (e.parts version body tail)).getInt (attrName "flags")).getD 0)
      RHF_TOPOLOGY_CHANGED = (version.isStatusFlagsSupported && e.topology.isSome) := by
  cases hv : version.isStatusFlagsSupported with
  | true =>
    have hflags := getInt_ofParts hf h.parts_nodup (n := attrName "flags") (s := .short)
      (b := Scalar.short.store e.flags) (by simp [parts, headParts, hv, scalarPart])
    rw [hflags, Option.getD_some, ← e.hasFlag_topology, Bool.true_and]
    congr 1
    exact Scalar.load_store e.flags_range
  | false =>
    have hflags : (ofParts (e.parts version body tail)).getInt (attrName "flags") = none := by
      refine getInt_absent h (by simp [frontNames]) ?_
      simp [frontParts, headParts, optionalParts, hv, scalarPart]
    rw [hflags]
    rfl

theorem status_read (hf : Filled (e.parts version body tail)) (h : FreeTail tail) :
    ((ofParts (e.parts version body tail)).getInt (attrName "status_code")).getD OP_SUCCESS =
      e.status := by
  have hfound : ∀ status : ℤ, Scalar.int.Range status →
      scalarPart (attrName "status_code") .int status ∈ e.parts version body tail →
      ((ofParts (e.parts version body tail)).getInt (attrName "status_code")).getD OP_SUCCESS =
        status := by
    intro status hrange hmem
    rw [getInt_ofParts hf h.parts_nodup hmem, Option.getD_some]
    exact Scalar.load_store hrange
  cases hv : version.isStatusFlagsSupported with
  | true =>
    cases herror : e.error with
    | none =>
      have habsent : (ofParts (e.parts version body tail)).getInt (attrName "status_code") = none := by
        refine getInt_absent h (by simp [frontNames]) ?_
        cases htopology : e.topology <;>
          simp [frontParts, headParts, optionalParts, hv, scalarPart, herror, htopology]
      rw [habsent, status, herror]
      rfl
    | some p =>
      have hstatus : e.status = p.1 := by simp [status, herror]
      rw [hstatus]
      exact hfound _ (e.status_range p herror).1 (by simp [parts, optionalParts, hv, herror])
  | false => exact hfound _ e.range_status (by simp [parts, headParts, hv])

theorem updateTopology_eq (hf : Filled (e.parts version body tail)) (h : FreeTail tail)
    (s : Affinity) :
    updateTopology (ofParts (e.parts version body tail)) s = .ok (e.update version s) := by
  unfold updateTopology update reported
  rw [flags_read hf h]
  cases hv : version.isStatusFlagsSupported with
  | true =>
    cases htopology : e.topology with
    | none => rfl
    | some v =>
      have hrange := e.topology_range v htopology
      have hversion := intAttr_part hf h.parts_nodup hrange.1 (n := attrName "affinity_version")
        (by simp [parts, optionalParts, hv, htopology])
      have hminor := intAttr_part hf h.parts_nodup hrange.2 (n := attrName "affinity_minor")
        (by simp [parts, optionalParts, hv, htopology])
      simp only [Bool.true_and, Option.isSome_some, if_true, hversion, hminor, except_bind]
      rfl
  | false => rfl

section Results
variable [Python] [OtherCodecs]

theorem init_error {status : ℤ} {message : Option PyStr} {c : Layout}
    (herror : e.error = some (status, message))
    (hf : Filled (e.parts version body [(attrName "error_message", c, textBytes message)]))
    (hpy : ∀ client, toPython client .string ⟨c, textBytes message⟩ = .ok (textRead message)) :
    APIResult.init (ofParts (e.parts version body
        [(attrName "error_message", c, textBytes message)])) =
      .ok ⟨status, e.queryId, textRead message, .none⟩ := by
  have hfree : FreeTail [(attrName "error_message", c, textBytes message)] :=
    ⟨by simp, by simp [frontNames]⟩
  have hmessage := getattr_ofParts hf hfree.parts_nodup (n := attrName "error_message") (c := c)
    (b := textBytes message) (by simp [parts])
  have hstatus : e.status = status := by simp [Envelope.status, herror]
  unfold APIResult.init
  rw [queryId_read hf hfree, except_bind, hmessage]
  dsimp only
  rw [hpy, except_bind, status_read hf hfree, hstatus]

theorem init_success (herror : e.error = none) (hf : Filled (e.parts version body tail))
    (hfree : FreeTail tail) (hmessage : attrName "error_message" ∉ tail.map (·.1)) :
    APIResult.init (ofParts (e.parts version body tail)) =
      .ok ⟨OP_SUCCESS, e.queryId, .str "Success".toList, .none⟩ := by
  have hnot : attrName "error_message" ∉ (e.parts version body tail).map (·.1) := by
    rw [parts_eq, List.map_append, List.mem_append, not_or]
    refine ⟨fun hmem => ?_, hmessage⟩
    obtain ⟨name, hname, heq⟩ := List.mem_map.mp (e.front_names version _ hmem)
    rw [FieldName.field.inj heq] at hname
    simp [frontNames] at hname
  have hstatus : e.status = OP_SUCCESS := by simp [status, herror]
  unfold APIResult.init
  rw [queryId_read hf hfree, except_bind, getattr_of_notMem hnot]
  dsimp only
  rw [except_bind, status_read hf hfree, hstatus]

end Results

end Attributes

section Process
variable [Python] [OtherCodecs] {I : Client → Prop}

/-- The object that `perform` has of a response once it is parsed and read backward. -/
theorem exists_object {r : ResponseClass} {body : Bytes}
    {Q : List (FieldName × Layout × Bytes) → Prop}
    (hbody : e.error = none → FindsBody I r.parseSuccess body Q)
    {client : Client} (hclient : I client) :
    ∃ c t tail, Response.parse version r ⟨client, e.encode version body, 0, false⟩ = .ok (c, t) ∧
      readBackward c t = .ok (ofParts (e.parts version body tail), t) ∧ I t.client ∧
      Filled (e.parts version body tail) ∧ e.Tail Q tail := by
  have hne : e.encode version body ≠ [] := by
    simp [encode, ← List.length_pos_iff, Scalar.size]
  have hbefore : Before I ⟨client, e.encode version body, 0, false⟩ (e.encode version body) :=
    ⟨rfl, hclient, List.prefix_refl _⟩
  obtain ⟨c, t, hparse, hpast, tail, hobj, hfilled, htail⟩ := e.finds_parse version hbody _ hbefore
  have hsize : (e.encode version body).length = c.size := by
    have hlength := ofParts_length hfilled
    rw [← hobj] at hlength
    exact hlength
  have hat : At t.buf 0 (e.encode version body) := by
    rw [hpast.buf]
    exact List.prefix_refl _
  have hback : readBackward c t = .ok (⟨c, e.encode version body⟩, t) :=
    readBackward_at hpast.emptyView hat hne hpast.pos hsize
  exact ⟨c, t, tail, hparse, hobj ▸ hback, hpast.client, hfilled, htail⟩

/-- A success: what the class makes of the body is the value, or the error. -/
theorem process_outcome {r : ResponseClass} {body : Bytes}
    {Q : List (FieldName × Layout × Bytes) → Prop} {x : Except PyError PyValue}
    (herror : e.error = none) (hbody : FindsBody I r.parseSuccess body Q)
    (hread : ∀ tail, Q tail → FreeTail tail ∧ attrName "error_message" ∉ tail.map (·.1) ∧
      (Filled (e.parts version body tail) →
        r.toPython (ofParts (e.parts version body tail)) = x))
    {client : Client} (hclient : I client) (s : Affinity) :
    ∃ client', I client' ∧ processResponse version r (e.encode version body) client s =
      x.map fun value => (⟨OP_SUCCESS, e.queryId, .str "Success".toList, value⟩, client',
        e.update version s) := by
  obtain ⟨c, t, tail, hparse, hback, hclient', hfilled, htail⟩ :=
    e.exists_object version (fun _ => hbody) hclient
  rw [Tail, herror] at htail
  obtain ⟨hfree, hmessage, hpy⟩ := hread tail htail
  refine ⟨t.client, hclient', ?_⟩
  unfold processResponse
  rw [hparse, except_bind]
  dsimp only
  rw [hback, except_bind]
  dsimp only
  rw [updateTopology_eq hfilled hfree, except_bind, init_success herror hfilled hfree hmessage,
    except_bind]
  dsimp only
  rw [if_pos rfl, hpy hfilled]
  cases x <;> rfl

theorem process_success {r : ResponseClass} {body : Bytes}
    {Q : List (FieldName × Layout × Bytes) → Prop} {x : PyValue} (herror : e.error = none)
    (hbody : FindsBody I r.parseSuccess body Q)
    (hread : ∀ tail, Q tail → FreeTail tail ∧ attrName "error_message" ∉ tail.map (·.1) ∧
      (Filled (e.parts version body tail) →
        r.toPython (ofParts (e.parts version body tail)) = .ok x))
    {client : Client} (hclient : I client) (s : Affinity) :
    ∃ client', I client' ∧ processResponse version r (e.encode version body) client s =
      .ok (⟨OP_SUCCESS, e.queryId, .str "Success".toList, x⟩, client', e.update version s) :=
  e.process_outcome version herror hbody hread hclient s

/-- An error: its message is read up to its first U+0000. -/
theorem process_error {r : ResponseClass} {body : Bytes} {status : ℤ} {message : Option PyStr}
    (herror : e.error = some (status, message)) {client : Client} (hclient : I client)
    (s : Affinity) :
    ∃ client', I client' ∧ processResponse version r (e.encode version body) client s =
      .ok (⟨status, e.queryId, textRead message, .none⟩, client', e.update version s) := by
  have hbody : e.error = none → FindsBody I r.parseSuccess body fun _ => True :=
    fun h => absurd (h.symm.trans herror) (by simp)
  obtain ⟨c, t, tail, hparse, hback, hclient', hfilled, htail⟩ :=
    e.exists_object version hbody hclient
  rw [Tail, herror] at htail
  obtain ⟨cm, rfl, hpy⟩ := htail
  have hfree : FreeTail [(attrName "error_message", cm, textBytes message)] :=
    ⟨by simp, by simp [frontNames]⟩
  refine ⟨t.client, hclient', ?_⟩
  unfold processResponse
  rw [hparse, except_bind]
  dsimp only
  rw [hback, except_bind]
  dsimp only
  rw [updateTopology_eq hfilled hfree, except_bind, init_error herror hfilled hpy, except_bind]
  dsimp only
  rw [if_neg (e.status_range _ herror).2]

theorem consumes {r : ResponseClass} {body : Bytes}
    {Q : List (FieldName × Layout × Bytes) → Prop} (hbody : FindsBody I r.parseSuccess body Q) :
    Consumes I version r (e.encode version body) := by
  refine (e.finds_parse version fun _ => hbody).mono ?_
  rintro c ⟨tail, hobj, hfilled, -⟩
  have hlength := ofParts_length hfilled
  rw [← hobj] at hlength
  exact hlength.symm

end Process

end Envelope

/-! ### The fields of a body -/

/-- A field of a response: its class, its bytes, and what they are without a client. -/
abbrev ResponseField := PyStr × WireClass × Bytes × Except PyError PyValue

section Fields
variable {I : Client → Prop} {fields : List ResponseField}

/-- A part of a response that is read as its field says. -/
structure IsRead (I : Client → Prop) (f : ResponseField) (p : FieldName × Layout × Bytes) : Prop where
  name : p.1 = .field f.1
  bytes : p.2.2 = f.2.2.1
  toPython : ∀ client, I client → f.2.1.withoutClient.toPython (some client) ⟨p.2.1, p.2.2⟩ = f.2.2.2

/-- The value under its name. -/
def outcome (f : ResponseField) : Except PyError (PyStr × PyValue) := f.2.2.2.map fun x => (f.1, x)

theorem findsParts_yields (h : ∀ f ∈ fields, Yields I f.2.1.withoutClient f.2.2.1 f.2.2.2)
    (ctx : ParseContext) :
    FindsParts I (parseStructFields [] (fields.map fun f => (f.1, .plain f.2.1)) ctx)
      (fields.flatMap fun f => f.2.2.1) fun parts => List.Forall₂ (IsRead I) fields parts := by
  induction fields generalizing ctx with
  | nil =>
    refine FindsParts.nil.mono ?_
    rintro parts rfl
    exact .nil
  | cons f fields ih =>
    rw [List.forall_mem_cons] at h
    refine (FindsParts.cons h.1 (ih h.2 ctx)).mono ?_
    rintro parts ⟨c, rest, rfl, hpy, hrest⟩
    exact .cons ⟨rfl, rfl, hpy⟩ hrest

theorem structFieldsToPython_outcome {parts whole : List (FieldName × Layout × Bytes)}
    (h : List.Forall₂ (IsRead I) fields parts) (hf : Filled whole)
    (hnd : (whole.map (·.1)).Nodup) (hsub : parts ⊆ whole) {client : Client} (hclient : I client)
    (acc : List (PyStr × PyValue)) :
    structFieldsToPython none (ofParts whole) (fields.map fun f => (f.1, .plain f.2.1)) acc =
      (fields.mapM outcome).map (dictUpdate acc) := by
  induction h generalizing acc with
  | nil => rfl
  | @cons f p fields parts hread _ ih =>
    obtain ⟨name, c, data⟩ := p
    obtain ⟨rfl, rfl, hpy⟩ := hread
    have hattr := attr_part hf hnd (hsub List.mem_cons_self)
    have hvalue : f.2.1.toPython none ⟨c, f.2.2.1⟩ = f.2.2.2 := by
      rw [← hpy client hclient, WireClass.withoutClient_toPython]
    have hrest : parts ⊆ whole := fun p hp => hsub (List.mem_cons_of_mem _ hp)
    rw [List.map_cons, structFieldsToPython, hattr, except_bind, List.mapM_cons, outcome]
    dsimp only [FieldClass.toPython]
    rw [hvalue]
    cases f.2.2.2 with
    | error e => rfl
    | ok x =>
      rw [except_bind, ih hrest]
      cases fields.mapM outcome <;> rfl

/-- The parts have names of their own. -/
theorem freeTail_of_isRead {parts : List (FieldName × Layout × Bytes)}
    (h : List.Forall₂ (IsRead I) fields parts) (hnd : (fields.map (·.1)).Nodup)
    (hfree : ∀ f ∈ fields, f.1 ∉ envelopeNames) :
    Envelope.FreeTail parts ∧ attrName "error_message" ∉ parts.map (·.1) := by
  have hnames : parts.map (·.1) = fields.map fun f => .field f.1 := by
    induction h with
    | nil => rfl
    | cons hread _ ih =>
      rw [List.map_cons, List.nodup_cons] at hnd
      rw [List.forall_mem_cons] at hfree
      rw [List.map_cons, List.map_cons, hread.name, ih hnd.2 hfree.2]
  have hnot : ∀ name ∈ envelopeNames, FieldName.field name ∉ parts.map (·.1) := by
    intro name hname hmem
    rw [hnames, List.mem_map] at hmem
    obtain ⟨f, hf, heq⟩ := hmem
    exact hfree f hf (FieldName.field.inj heq ▸ hname)
  have hparts : (parts.map (·.1)).Nodup := by
    have hmap := hnd.map (f := FieldName.field) fun a b hab => FieldName.field.inj hab
    rw [List.map_map] at hmap
    rw [hnames]
    exact hmap
  exact ⟨⟨hparts, fun name hname => hnot name (List.mem_append_left _ hname)⟩,
    hnot _ (List.mem_append_right _ (List.mem_singleton_self _))⟩

theorem outcome_names {values : List (PyStr × PyValue)} (h : fields.mapM outcome = .ok values) :
    values.map (·.1) = fields.map (·.1) := by
  induction fields generalizing values with
  | nil =>
    cases h
    rfl
  | cons f fields ih =>
    obtain ⟨x, xs, hx, hxs, rfl⟩ := mapM_cons_ok.mp h
    rw [List.map_cons, List.map_cons, ih hxs]
    obtain ⟨name, w, data, value⟩ := f
    cases value with
    | error e => cases hx
    | ok v =>
      cases hx
      rfl

/-- The parts of a body are found behind its envelope. -/
theorem findsBody_yields (h : ∀ f ∈ fields, Yields I f.2.1.withoutClient f.2.2.1 f.2.2.2) :
    FindsBody I (responseOf (fields.map fun f => (f.1, f.2.1))).parseSuccess
      (fields.flatMap fun f => f.2.2.1) fun parts => List.Forall₂ (IsRead I) fields parts := by
  have hparts := (findsParts_yields h fun _ => none).body
  rw [responseOf, List.map_map]
  exact hparts

/-- The value of a response with these fields, or the first error among them. -/
def bodyValue (fields : List ResponseField) : Except PyError PyValue :=
  if fields.isEmpty then .ok .none else (fields.mapM outcome).map strDict

theorem toPython_bodyValue {tail whole : List (FieldName × Layout × Bytes)}
    (h : List.Forall₂ (IsRead I) fields tail) (hf : Filled whole)
    (hwhole : (whole.map (·.1)).Nodup) (hsub : tail ⊆ whole) (hnd : (fields.map (·.1)).Nodup)
    {client : Client} (hclient : I client) :
    (responseOf (fields.map fun f => (f.1, f.2.1))).toPython (ofParts whole) = bodyValue fields := by
  have hpy := structFieldsToPython_outcome h hf hwhole hsub hclient []
  have hempty : (fields.map fun f => (f.1, f.2.1)).isEmpty = fields.isEmpty := List.isEmpty_map
  rw [responseOf, bodyValue]
  dsimp only
  rw [hempty, List.map_map]
  split_ifs
  · rfl
  · rw [Function.comp_def, hpy]
    cases hvalues : fields.mapM outcome with
    | error e => rfl
    | ok values =>
      have hset : dictUpdate [] values = values :=
        dictUpdate_nil_iff.mpr ((outcome_names hvalues).symm ▸ hnd)
      show Except.ok (strDict (dictUpdate [] values)) = Except.ok (strDict values)
      rw [hset]

/-- A success is received as what all its fields are, or its first error is raised. -/
theorem processResponse_yields [Python] [OtherCodecs]
    (h : ∀ f ∈ fields, Yields I f.2.1.withoutClient f.2.2.1 f.2.2.2)
    (hnd : (fields.map (·.1)).Nodup) (hfree : ∀ f ∈ fields, f.1 ∉ envelopeNames)
    (version : ProtocolVersion) {e : Envelope} (herror : e.error = none) {client : Client}
    (hclient : I client) (s : Affinity) :
    ∃ client', I client' ∧ processResponse version (responseOf (fields.map fun f => (f.1, f.2.1)))
        (e.encode version (fields.flatMap fun f => f.2.2.1)) client s =
      (bodyValue fields).map fun value =>
        (⟨OP_SUCCESS, e.queryId, .str "Success".toList, value⟩, client', e.update version s) := by
  refine e.process_outcome version herror (findsBody_yields h) (fun tail htail => ?_) hclient s
  obtain ⟨hnames, hmessage⟩ := freeTail_of_isRead htail hnd hfree
  refine ⟨hnames, hmessage, fun hfilled => ?_⟩
  have hsub : tail ⊆ e.parts version (fields.flatMap fun f => f.2.2.1) tail := by
    rw [Envelope.parts_eq]
    exact List.subset_append_right _ _
  exact toPython_bodyValue htail hfilled hnames.parts_nodup hsub hnd hclient

end Fields

/-- A response of the server to a query: the version it is built by, its envelope, and the fields
of its body, each with its class, its bytes and the value that they are where no client is passed
on. -/
structure ServerResponse (I : Client → Prop) where
  version : ProtocolVersion
  envelope : Envelope
  body : List (PyStr × WireClass × Bytes × PyValue)
  reads : ∀ f ∈ body, Reads I f.2.1.withoutClient f.2.2.1 f.2.2.2
  names_nodup : (body.map (·.1)).Nodup
  names_free : ∀ f ∈ body, f.1 ∉ envelopeNames

namespace ServerResponse
variable {I : Client → Prop} (r : ServerResponse I)

/-- The bytes that arrive. -/
def data : Bytes := r.envelope.encode r.version (r.body.flatMap fun f => f.2.2.1)

/-- The class that the response is read by. -/
def responseClass : ResponseClass := responseOf (r.body.map fun f => (f.1, f.2.1))

/-- The topology version that it reports. -/
def reported : Option AffinityVersion := r.envelope.reported r.version

/-- The result as it was sent. -/
def expected : APIResult :=
  match r.envelope.error with
  | some (status, message) =>
    ⟨status, r.envelope.queryId, (message.map .str).getD .none, .none⟩
  | none => ⟨OP_SUCCESS, r.envelope.queryId, .str "Success".toList,
      if r.body = [] then .none else strDict (r.body.map fun f => (f.1, f.2.2.2))⟩

/-- The message of an error comes without U+0000. -/
def MessageWhole : Prop := ∀ e ∈ r.envelope.error, ∀ m ∈ e.2, '\x00' ∉ m

end ServerResponse

section Runs
variable [Python] [OtherCodecs] {I : Client → Prop}

/-- Responses that come in one after another. -/
def processAll : List (ServerResponse I) → Client → Affinity →
    Except PyError (List APIResult × Client × Affinity)
  | [], client, s => .ok ([], client, s)
  | r :: rs, client, s => do
    let (result, client, s) ← processResponse r.version r.responseClass r.data client s
    let (results, client, s) ← processAll rs client s
    .ok (result :: results, client, s)

/-- All responses are read as they were sent, and the topology version is the highest of those
reported and the one before. -/
def ReadAsSent (rs : List (ServerResponse I)) (client : Client) (s : Affinity) : Prop :=
  ∃ client' s', processAll rs client s = .ok (rs.map ServerResponse.expected, client', s') ∧
    s'.affinityVersion = (rs.filterMap ServerResponse.reported).foldl max s.affinityVersion

end Runs

/-! ### One response -/

namespace ServerResponse
variable {I : Client → Prop} (r : ServerResponse I)

/-- The result as it is read: the message of an error ends before its first U+0000. -/
def received : APIResult :=
  match r.envelope.error with
  | some (status, message) => ⟨status, r.envelope.queryId, textRead message, .none⟩
  | none => r.expected

theorem received_eq_iff : r.received = r.expected ↔ r.MessageWhole := by
  unfold received expected MessageWhole
  cases herror : r.envelope.error with
  | none => simp
  | some e =>
    obtain ⟨status, message⟩ := e
    cases message with
    | none => simp [textRead]
    | some x =>
      have hread : textRead (some x) = .str x ↔ '\x00' ∉ x := by
        rw [textRead, PyValue.str.injEq, takeWhile_eq_self_iff]
      simp only [Option.map_some, Option.getD_some, APIResult.mk.injEq, true_and, and_true, hread,
        Option.mem_some_iff, forall_eq']

/-- The fields of the body. -/
def fields : List ResponseField := r.body.map fun f => (f.1, f.2.1, f.2.2.1, .ok f.2.2.2)

theorem fields_yields : ∀ f ∈ r.fields, Yields I f.2.1.withoutClient f.2.2.1 f.2.2.2 := by
  rw [fields, List.forall_mem_map]
  exact r.reads

theorem fields_class : responseOf (r.fields.map fun f => (f.1, f.2.1)) = r.responseClass := by
  rw [fields, List.map_map]
  rfl

theorem fields_bytes :
    (r.fields.flatMap fun f => f.2.2.1) = r.body.flatMap fun f => f.2.2.1 := by
  rw [fields, List.flatMap_map]

theorem bodyValue_fields : bodyValue r.fields =
    .ok (if r.body = [] then .none else strDict (r.body.map fun f => (f.1, f.2.2.2))) := by
  have hvalues : ∀ body : List (PyStr × WireClass × Bytes × PyValue),
      (body.map fun f => ((f.1, f.2.1, f.2.2.1, .ok f.2.2.2) : ResponseField)).mapM outcome =
        .ok (body.map fun f => (f.1, f.2.2.2)) := by
    intro body
    induction body with
    | nil => rfl
    | cons f body ih => exact mapM_cons_ok.mpr ⟨_, _, rfl, ih, rfl⟩
  rw [bodyValue, fields, hvalues, List.isEmpty_map]
  cases r.body <;> rfl

section Process
variable [Python] [OtherCodecs]

theorem consumes : Consumes I r.version r.responseClass r.data := by
  have hbody := findsBody_yields r.fields_yields
  rw [fields_class, fields_bytes] at hbody
  exact r.envelope.consumes r.version hbody

/-- One response: what is received, and the topology version that the client has then. -/
theorem processResponse_eq {client : Client} (hclient : I client) (s : Affinity) :
    ∃ client', I client' ∧ processResponse r.version r.responseClass r.data client s =
      .ok (r.received, client', r.envelope.update r.version s) := by
  cases herror : r.envelope.error with
  | none =>
    have hnd : (r.fields.map (·.1)).Nodup := by
      rw [fields, List.map_map]
      exact r.names_nodup
    have hfree : ∀ f ∈ r.fields, f.1 ∉ envelopeNames := by
      rw [fields, List.forall_mem_map]
      exact r.names_free
    obtain ⟨client', hclient', hprocess⟩ := processResponse_yields r.fields_yields hnd hfree
      r.version herror hclient s
    rw [fields_class, fields_bytes, bodyValue_fields] at hprocess
    refine ⟨client', hclient', hprocess.trans ?_⟩
    simp only [received, expected, herror]
    rfl
  | some e =>
    obtain ⟨status, message⟩ := e
    obtain ⟨client', hclient', hprocess⟩ :=
      r.envelope.process_error r.version (r := r.responseClass) herror hclient s
    refine ⟨client', hclient', hprocess.trans ?_⟩
    simp only [received, herror]

end Process

end ServerResponse

/-! ### Any sequence of responses -/

section Sequence
variable {I : Client → Prop}

theorem postProcessResponse_max (v : AffinityVersion) (s : Affinity) :
    (s.postProcessResponse v).affinityVersion = max s.affinityVersion v := by
  unfold Affinity.postProcessResponse
  split_ifs with h
  · exact (max_eq_right h.le).symm
  · exact (max_eq_left (not_lt.mp h)).symm

theorem update_version (r : ServerResponse I) (s : Affinity) :
    (r.envelope.update r.version s).affinityVersion =
      r.reported.elim s.affinityVersion (max s.affinityVersion) := by
  unfold Envelope.update ServerResponse.reported
  cases r.envelope.reported r.version with
  | none => rfl
  | some v => exact postProcessResponse_max v s

variable [Python] [OtherCodecs]

/-- What all responses are received as, with the highest topology version. -/
theorem processAll_eq (rs : List (ServerResponse I)) {client : Client} (hclient : I client)
    (s : Affinity) :
    ∃ client' s', processAll rs client s = .ok (rs.map ServerResponse.received, client', s') ∧
      s'.affinityVersion = (rs.filterMap ServerResponse.reported).foldl max s.affinityVersion := by
  induction rs generalizing client s with
  | nil => exact ⟨client, s, rfl, rfl⟩
  | cons r rs ih =>
    obtain ⟨client₁, hclient₁, hr⟩ := r.processResponse_eq hclient s
    obtain ⟨client₂, s₂, hrs, hversion⟩ := ih hclient₁ (r.envelope.update r.version s)
    refine ⟨client₂, s₂, ?_, ?_⟩
    · rw [processAll, hr, except_bind]
      dsimp only
      rw [hrs, except_bind]
      rfl
    · rw [hversion, update_version]
      cases hreported : r.reported <;> simp [hreported]

omit [Python] [OtherCodecs] in
theorem received_iff_whole (rs : List (ServerResponse I)) :
    rs.map ServerResponse.received = rs.map ServerResponse.expected ↔
      ∀ r ∈ rs, r.MessageWhole := by
  simp only [List.map_inj_left, ServerResponse.received_eq_iff]

/-- What is received decides. -/
theorem readAsSent_iff_received (rs : List (ServerResponse I)) {client : Client}
    (hclient : I client) (s : Affinity) :
    ReadAsSent rs client s ↔
      rs.map ServerResponse.received = rs.map ServerResponse.expected := by
  obtain ⟨client', s', hrun, hversion⟩ := processAll_eq rs hclient s
  constructor
  · rintro ⟨client'', s'', hrun', -⟩
    exact congrArg (fun r => r.1) (Except.ok.inj (hrun.symm.trans hrun'))
  · intro heq
    exact ⟨client', s', heq ▸ hrun, hversion⟩

/-- Responses in any order are read as they were sent exactly where no message of an error has
U+0000 in it; the topology version is the highest of those reported in any case. -/
theorem responses_read_as_sent_iff (rs : List (ServerResponse I)) (client : Client)
    (hclient : I client) (s : Affinity) :
    ReadAsSent rs client s ↔ ∀ r ∈ rs, r.MessageWhole :=
  (readAsSent_iff_received rs hclient s).trans (received_iff_whole rs)

end Sequence

/-- An error that reports a new topology, and a success with an `Int`. -/
theorem responses_read_as_sent_iff_two :
    let _ := asciiLower
    let _ := noOtherCodecs
    let client : Client := ⟨none, fun _ => [], fun _ => []⟩
    let rs : List (ServerResponse fun _ => True) :=
      [⟨maxProtocol, ⟨7, some (3, 1), some (1, some "no".toList), by decide, by decide, by decide,
          by decide⟩, [], by simp, by simp, by simp⟩,
        ⟨⟨1, 2, 0⟩, ⟨8, none, none, by decide, by decide, by decide, by decide⟩,
          [("value".toList, primitive .int, Scalar.int.store 5, .int 5)],
          by simpa using (reads_primitive (by decide)).withoutClient fun _ => rfl, by decide,
          by decide⟩]
    ReadAsSent rs client Affinity.init ↔ ∀ r ∈ rs, r.MessageWhole := by
  intro _ _ client rs
  exact responses_read_as_sent_iff rs client trivial Affinity.init

/-- The message `a\x00b` is read as `a`. -/
theorem message_not_read_as_sent :
    let _ := asciiLower
    let _ := noOtherCodecs
    let client : Client := ⟨none, fun _ => [], fun _ => []⟩
    let r : ServerResponse fun _ => True :=
      ⟨maxProtocol, ⟨7, none, some (1, some ['a', '\x00', 'b']), by decide, by decide, by decide,
        by decide⟩, [], by simp, by simp, by simp⟩
    ¬ReadAsSent [r] client Affinity.init := by
  intro _ _ client r
  rw [readAsSent_iff_received [r] trivial, received_iff_whole]
  intro h
  exact h r List.mem_cons_self _ rfl _ rfl (by decide)

end PyGridGain
