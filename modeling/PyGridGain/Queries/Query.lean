import PyGridGain.Codec.Placed
import PyGridGain.Codec.OtherWrites

/-! The framing of requests: the header is skipped, and written when the length of what follows it
is known. -/

namespace PyGridGain

open StreamM

/-- The header of a `Query`, and of a `ConfigQuery`, which has a `config_length` besides. -/
structure QueryHeader where
  length : ℤ
  opCode : ℤ
  queryId : ℤ
  configLength : Option ℤ

def QueryHeader.store (h : QueryHeader) : Bytes :=
  Scalar.int.store h.length ++ (Scalar.short.store h.opCode ++
    (Scalar.longlong.store h.queryId ++ ((h.configLength.map Scalar.int.store).getD [])))

section Model
variable [Python] [OtherCodecs]

/-- `Query`, or `ConfigQuery` if `config` is set. The values of the fields are passed under their
names. -/
structure Query where
  opCode : ℤ
  queryId : ℤ
  config : Bool
  following : List (PyStr × WireClass)
  opCode_range : Scalar.short.Range opCode
  queryId_range : Scalar.longlong.Range queryId
  names_nodup : (following.map (·.1)).Nodup
  classes : ∀ f ∈ following, RequestClass f.2

namespace Query
variable (q : Query)

/-- `ctypes.sizeof(header_class)`. -/
def headerSize : ℕ := 14 + if q.config then 4 else 0

/-- `_build_header`. -/
def buildHeader : StreamM QueryHeader := do
  seekCur q.headerSize
  let header : QueryHeader := ⟨0, q.opCode, q.queryId, none⟩
  pure (if q.config then { header with configLength := some (header.length - q.headerSize) }
    else header)

/-- `__write_header`. -/
def writeHeader (header : QueryHeader) (initPos : ℕ) : StreamM Unit := do
  let stop ← tell
  seek initPos
  write { header with length := stop - initPos - 4 }.store

def fromPython (values : PyValue) : StreamM PyValue := do
  let initPos ← tell
  let header ← q.buildHeader
  let values := if values.truthy then values else .none
  let values ← writeStructFields (q.following.map fun f => (f.1, .plain f.2)) values
  writeHeader header initPos
  pure values

/-- The request that the fields of `ds` make up: the length and the length of the configuration are
those of the bytes that follow each. -/
structure Framed (ds : List Bytes) (buf : Bytes) : Prop where
  length : Scalar.int.load (buf.take 4) = buf.length - 4
  opCode : Scalar.short.load (sliceAt buf 4 2) = q.opCode
  queryId : Scalar.longlong.load (sliceAt buf 6 8) = q.queryId
  configLength : q.config = true → Scalar.int.load (sliceAt buf 14 4) = buf.length - 18
  body : buf.drop q.headerSize = ds.flatten

end Query

end Model

/-- What a class writes of a value to a stream of its own is `d`. -/
def Alone (cl : Client) (w : WireClass) (v : PyValue) (d : Bytes) : Prop :=
  ∃ v' t, w.fromPython v ⟨cl, [], 0, false⟩ = .ok (v', t) ∧ t.buf = d

theorem alone_iff {cl : Client} {w : WireClass} {v : PyValue} {d : Bytes} : Alone cl w v d ↔
    ((w.fromPython v ⟨cl, [], 0, false⟩).toOption.map fun r => r.2.buf) = some d := by
  unfold Alone
  cases w.fromPython v ⟨cl, [], 0, false⟩ with
  | error e => simp [Except.toOption]
  | ok r => simp [Except.toOption, Prod.ext_iff]

/-! ### The fields -/

section Fields
variable [Python] [OtherCodecs] [PlacedCodecs] {cl : Client} {w : WireClass} {v : PyValue}
  {d : Bytes}

/-- What a class writes to a stream of its own it writes to every other. -/
theorem Alone.writes (h : Alone cl w v d) (hw : RequestClass w) (hd : d.length < 2 ^ 31)
    {s : BinaryStream} (hs : Usable cl.compactFooter s) :
    ∃ v' t, w.fromPython v s = .ok (v', t) ∧ Wrote s t d := by
  obtain ⟨v', t, hrun, rfl⟩ := h
  obtain ⟨-, d, hwrote, hfollow⟩ := (hw.places v).follows _ v' t ⟨rfl, rfl⟩ hrun hd
  have hbuf : t.buf = d := by
    rw [hwrote.buf, ← List.nil_append d]
    simp [writeAt]
  rw [hbuf]
  exact hfollow s hs fun _ => rfl

/-- The values of fields, with what each gives on a stream of its own. -/
abbrev AllAlone (cl : Client) (values : PyValue) (following : List (PyStr × WireClass))
    (ds : List Bytes) : Prop :=
  List.Forall₂ (fun f d => ∃ x, values.item f.1 = .ok x ∧ Alone cl f.2 x d) following ds

/-- The loop over the fields. -/
theorem writeStructFields_alone {values : PyValue} {following : List (PyStr × WireClass)}
    {ds : List Bytes} (h : AllAlone cl values following ds) (hnd : (following.map (·.1)).Nodup)
    (hclasses : ∀ f ∈ following, RequestClass f.2) (hsize : ds.flatten.length < 2 ^ 31)
    {s : BinaryStream} (hs : Usable cl.compactFooter s) :
    ∃ values' t, writeStructFields (following.map fun f => (f.1, .plain f.2)) values s =
      .ok (values', t) ∧ Wrote s t ds.flatten := by
  induction following generalizing values ds s with
  | nil =>
    obtain rfl := List.forall₂_nil_left_iff.mp h
    exact ⟨values, s, rfl, Wrote.refl s⟩
  | cons f following ih =>
    obtain ⟨d, ds, ⟨x, hitem, halone⟩, hrest, rfl⟩ := List.forall₂_cons_left_iff.mp h
    obtain ⟨hnot, hnd⟩ := List.nodup_cons.mp hnd
    rw [List.flatten_cons, List.length_append] at hsize
    obtain ⟨x', t, hwrite, hwrote⟩ :=
      halone.writes (hclasses f List.mem_cons_self) (by omega) hs
    have hrest' : AllAlone cl (values.setItem f.1 x') following ds := by
      refine List.Forall₂.imp ?_ ((List.forall₂_and_left _ _).mpr ⟨fun g hg => hg, hrest⟩)
      rintro g d ⟨hg, y, hy, hd⟩
      refine ⟨y, ?_, hd⟩
      rw [item_setItem_ne, hy]
      exact fun heq => hnot (List.mem_map.mpr ⟨g, hg, heq.symm⟩)
    obtain ⟨values', u, hloop, hwrote'⟩ := ih hrest' hnd
      (fun g hg => hclasses g (List.mem_cons_of_mem _ hg)) (by omega) (hwrote.usable hs)
    have hx : (values.item f.1).map (fun x => (x, s)) = .ok (x, s) := by
      rw [hitem]
      rfl
    refine ⟨values', u, (bind_ok hx).trans ((bind_ok hwrite).trans hloop), ?_⟩
    rw [List.flatten_cons]
    exact hwrote.trans hwrote'

end Fields

/-! ### The frame -/

namespace Query
variable [Python] [OtherCodecs] (q : Query)

/-- The header that is written before a body of `n` bytes. -/
def header (n : ℕ) : QueryHeader :=
  ⟨(q.headerSize + n : ℕ) - 4, q.opCode, q.queryId,
    if q.config then some (-q.headerSize) else none⟩

theorem header_length (n : ℕ) : (q.header n).store.length = q.headerSize := by
  unfold header QueryHeader.store headerSize
  cases q.config <;> simp [Scalar.size]

theorem store_ne_nil (n : ℕ) : (q.header n).store ≠ [] := by
  rw [← List.length_pos_iff, header_length, headerSize]
  omega

theorem buildHeader_eq (s : BinaryStream) : ∃ h : QueryHeader,
    q.buildHeader s = .ok (h, s.skip q.headerSize) ∧
      ∀ n : ℕ, { h with length := ((q.headerSize + n : ℕ) : ℤ) - (0 : ℕ) - 4 } = q.header n := by
  unfold buildHeader header
  refine ⟨_, bind_ok (seekCur_ok s _), fun n => ?_⟩
  cases q.config <;> simp

omit [Python] [OtherCodecs] in
theorem truthy_of_item {values x : PyValue} {name : PyStr} (h : values.item name = .ok x) :
    values.truthy = true := by
  cases values with
  | dict kvs =>
    cases kvs with
    | nil => cases h
    | cons p kvs => rfl
  | _ => cases h

/-- The run: the header stands before what the fields write. -/
theorem fromPython_alone [PlacedCodecs] {values : PyValue} {ds : List Bytes} {cl : Client}
    (h : AllAlone cl values q.following ds) (hsize : ds.flatten.length < 2 ^ 31) :
    ∃ values' t, q.fromPython values ⟨cl, [], 0, false⟩ = .ok (values', t) ∧
      t.buf = (q.header ds.flatten.length).store ++ ds.flatten := by
  have htruthy : q.following ≠ [] → values.truthy = true := by
    intro hne
    obtain ⟨f, following, hf⟩ := List.exists_cons_of_ne_nil hne
    rw [hf] at h
    obtain ⟨d, ds, ⟨x, hitem, -⟩, -, -⟩ := List.forall₂_cons_left_iff.mp h
    exact truthy_of_item hitem
  have hvalues : AllAlone cl (if values.truthy then values else .none) q.following ds := by
    by_cases hnil : q.following = []
    · rw [hnil] at h ⊢
      exact List.forall₂_nil_left_iff.mpr (List.forall₂_nil_left_iff.mp h)
    · rwa [if_pos (htruthy hnil)]
  obtain ⟨header, hbuild, hheader⟩ := q.buildHeader_eq ⟨cl, [], 0, false⟩
  obtain ⟨values', t, hloop, hwrote⟩ := writeStructFields_alone hvalues q.names_nodup q.classes hsize
    (s := BinaryStream.skip ⟨cl, [], 0, false⟩ q.headerSize) ⟨rfl, rfl⟩
  have hpos : t.pos = q.headerSize + ds.flatten.length := by
    rw [hwrote.pos]
    simp
  have hwrite : ({ header with length := (t.pos : ℤ) - (0 : ℕ) - 4 } : QueryHeader) =
      q.header ds.flatten.length := by
    rw [hpos, hheader]
  refine ⟨values', { t with pos := 0 }.put (q.header ds.flatten.length).store, ?_, ?_⟩
  · unfold fromPython writeHeader
    rw [bind_ok (tell_ok _), bind_ok hbuild, bind_ok hloop]
    have hstop : (do
        let stop ← tell
        seek (0 : ℕ)
        write { header with length := (stop : ℤ) - (0 : ℕ) - 4 }.store : StreamM Unit) t =
        .ok ((), { t with pos := 0 }.put (q.header ds.flatten.length).store) := by
      rw [bind_ok (tell_ok t), bind_ok (seek_ok t 0), hwrite]
      exact write_ok (s := { t with pos := 0 }) (hwrote.usable ⟨rfl, rfl⟩).emptyView _
    exact bind_ok hstop
  · obtain ⟨cl', -, rfl⟩ := hwrote
    have hback := congrArg BinaryStream.buf (BinaryStream.put_back ⟨cl, [], 0, false⟩
      (a := (q.header ds.flatten.length).store) (b := ds.flatten) (q.store_ne_nil _))
    rw [header_length] at hback
    refine Eq.trans ?_ (hback.trans ?_)
    · rfl
    · simp [BinaryStream.put, writeAt, store_ne_nil]

variable {q} in
/-- The length counts fewer than 2 GiB. -/
theorem Framed.length_lt {ds : List Bytes} {buf : Bytes} (h : q.Framed ds buf) :
    ds.flatten.length < 2 ^ 31 := by
  by_cases hsmall : buf.length ≤ q.headerSize
  · rw [← h.body, List.drop_of_length_le hsmall]
    decide
  · have hheader : 14 ≤ q.headerSize := Nat.le_add_right _ _
    have hrange : Scalar.int.Range (buf.length - 4) := by
      rw [← h.length]
      refine Scalar.load_range ?_
      rw [List.length_take, Scalar.size]
      omega
    have hlt : (buf.length : ℤ) - 4 < 2 ^ 31 := by
      simp only [Scalar.Range, Scalar.isSigned, if_true, SignedRange, Scalar.size] at hrange
      norm_num at hrange
      omega
    have hbody : ds.flatten.length = buf.length - q.headerSize := by
      rw [← h.body, List.length_drop]
    omega

omit [Python] [OtherCodecs] in
theorem slice_part {a b c : Bytes} {i n : ℕ} (ha : a.length = i) (hb : b.length = n) :
    sliceAt (a ++ (b ++ c)) i n = b := by
  rw [sliceAt, ← ha, List.drop_left, ← hb, List.take_left]

/-- The parts of the frame. -/
theorem header_parts (n : ℕ) (body : Bytes) : (q.header n).store ++ body =
    Scalar.int.store ((q.headerSize + n : ℕ) - 4) ++ (Scalar.short.store q.opCode ++
      (Scalar.longlong.store q.queryId ++
        ((if q.config then Scalar.int.store (-18) else []) ++ body))) := by
  unfold header QueryHeader.store headerSize
  cases q.config <;> simp

theorem length_range_iff (hconfig : q.config = false) (n : ℕ) :
    Scalar.int.Range ((q.headerSize + n : ℕ) - 4) ↔ 14 + n - 4 < 2 ^ 31 := by
  simp only [Scalar.Range, Scalar.isSigned, if_true, SignedRange, Scalar.size, headerSize, hconfig]
  norm_num
  omega

/-- The length is right below 2 GiB, the length of the configuration never. -/
theorem framed_header_iff (ds : List Bytes) :
    q.Framed ds ((q.header ds.flatten.length).store ++ ds.flatten) ↔
      q.config = false ∧ 14 + ds.flatten.length - 4 < 2 ^ 31 := by
  have hparts := q.header_parts ds.flatten.length ds.flatten
  have hlength : ((q.header ds.flatten.length).store ++ ds.flatten).length =
      q.headerSize + ds.flatten.length := by
    rw [List.length_append, header_length]
  have hbody : ((q.header ds.flatten.length).store ++ ds.flatten).drop q.headerSize = ds.flatten := by
    rw [← q.header_length ds.flatten.length, List.drop_left]
  have hcount : Scalar.int.load
      (((q.header ds.flatten.length).store ++ ds.flatten).take 4) =
      Scalar.int.wrap ((q.headerSize + ds.flatten.length : ℕ) - 4) := by
    rw [hparts, List.take_left' (by simp [Scalar.size])]
    rfl
  constructor
  · intro h
    have hconfig : q.config = false := by
      by_contra htrue
      rw [Bool.not_eq_false] at htrue
      have hfield := h.configLength htrue
      have hslice : sliceAt ((q.header ds.flatten.length).store ++ ds.flatten) 14 4 =
          Scalar.int.store (-18) := by
        rw [hparts, if_pos htrue, ← List.append_assoc, ← List.append_assoc]
        exact slice_part (by simp [Scalar.size]) (by simp [Scalar.size])
      rw [hslice, Scalar.load_store (by decide), hlength, headerSize, if_pos htrue] at hfield
      omega
    refine ⟨hconfig, ?_⟩
    have hfield := h.length
    rw [hcount, hlength, Scalar.wrap_eq_iff] at hfield
    exact (q.length_range_iff hconfig _).mp hfield
  · rintro ⟨hconfig, hsize⟩
    refine ⟨?_, ?_, ?_, fun htrue => ?_, hbody⟩
    · rw [hcount, hlength, Scalar.wrap_eq_iff.mpr ((q.length_range_iff hconfig _).mpr hsize)]
    · rw [hparts, slice_part (by simp [Scalar.size]) (by simp [Scalar.size]),
        Scalar.load_store q.opCode_range]
    · rw [hparts, ← List.append_assoc, slice_part (by simp [Scalar.size]) (by simp [Scalar.size]),
        Scalar.load_store q.queryId_range]
    · rw [hconfig] at htrue
      cases htrue

end Query

/-- A request is framed exactly where it is no `ConfigQuery` and the bytes after its length are
fewer than 2 GiB. -/
theorem request_framed_iff [Python] [OtherCodecs] [PlacedCodecs] (q : Query) (values : PyValue)
    (ds : List Bytes) (cl : Client) (h : AllAlone cl values q.following ds) :
    (∃ values' t, q.fromPython values ⟨cl, [], 0, false⟩ = .ok (values', t) ∧ q.Framed ds t.buf) ↔
      q.config = false ∧ 14 + ds.flatten.length - 4 < 2 ^ 31 := by
  constructor
  · rintro ⟨values', t, hrun, hframed⟩
    have hsize := hframed.length_lt
    obtain ⟨values'', t', hrun', hbuf⟩ := q.fromPython_alone h hsize
    obtain ⟨-, rfl⟩ := Prod.mk.inj (Except.ok.inj (hrun.symm.trans hrun'))
    rw [hbuf] at hframed
    exact (q.framed_header_iff ds).mp hframed
  · intro hframed
    obtain ⟨values', t, hrun, hbuf⟩ := q.fromPython_alone h (by omega)
    exact ⟨values', t, hrun, hbuf ▸ (q.framed_header_iff ds).mpr hframed⟩

/-- A cache id, the object `D` with the field `a` of 5, and a time. -/
theorem request_framed_iff_object :
    let _ := asciiLower
    let _ : Machine := ⟨fun _ => none, fun _ _ _ => 0, fun _ => 0, fun _ => none,
      fun us => .ok (us.tdiv 1000), fun us => us.tdiv 1000, fun _ => 0,
      fun epoch => .ok (epoch * 1000)⟩
    let _ := allClasses
    let client : Client := ⟨some true, fun _ => [], fun _ => []⟩
    let q : Query := ⟨1000, 7, false, [("hash_code".toList, primitive .int),
      ("key".toList, wireClass .binaryObject), ("value".toList, wireClass (.other .timeObject))],
      by decide, by decide, by decide, by
        rw [List.forall_mem_cons, List.forall_mem_cons, List.forall_mem_singleton]
        exact ⟨.leaf (leaf_primitive _), .object _, .object _⟩⟩
    let values : PyValue := strDict [("hash_code".toList, .int 3),
      ("key".toList, .obj ⟨0, ['D'], 1, none, none⟩ [(['a'], .intObject, .int 5)]),
      ("value".toList, .timedelta 1500000)]
    let ds : List Bytes := [Scalar.int.store 3, [103, 1, 43, 0, 100, 0, 0, 0, 253, 100, 225, 1, 30,
      0, 0, 0, 228, 211, 225, 245, 29, 0, 0, 0, 3, 5, 0, 0, 0, 24], [36, 220, 5, 0, 0, 0, 0, 0, 0]]
    (∃ values' t, q.fromPython values ⟨client, [], 0, false⟩ = .ok (values', t) ∧
      q.Framed ds t.buf) ↔ q.config = false ∧ 14 + ds.flatten.length - 4 < 2 ^ 31 := by
  have hobject :
      let _ := asciiLower
      let _ : Machine := ⟨fun _ => none, fun _ _ _ => 0, fun _ => 0, fun _ => none,
        fun us => .ok (us.tdiv 1000), fun us => us.tdiv 1000, fun _ => 0,
        fun epoch => .ok (epoch * 1000)⟩
      let _ := allClasses
      ((fromPython .binaryObject (.obj ⟨0, ['D'], 1, none, none⟩ [(['a'], .intObject, .int 5)])
        ⟨⟨some true, fun _ => [], fun _ => []⟩, [], 0, false⟩).toOption.map fun r => r.2.buf) =
        some [103, 1, 43, 0, 100, 0, 0, 0, 253, 100, 225, 1, 30, 0, 0, 0, 228, 211, 225, 245, 29, 0,
          0, 0, 3, 5, 0, 0, 0, 24] := by
    decide +kernel
  intro _ _ _ client q values ds
  refine request_framed_iff q values ds client (.cons ?_ (.cons ?_ (.cons ?_ .nil)))
  · exact ⟨.int 3, rfl, _, _, rfl, rfl⟩
  · exact ⟨_, rfl, alone_iff.mpr hobject⟩
  · exact ⟨.timedelta 1500000, rfl, _, _, rfl, by decide +kernel⟩

/-- The length of the configuration of no properties at all is -18. -/
theorem config_length_wrong :
    let _ := asciiLower
    let _ := noOtherCodecs
    let client : Client := ⟨some true, fun _ => [], fun _ => []⟩
    let q : Query := ⟨1052, 7, true, [("param_count".toList, primitive .short)], by decide,
      by decide, by decide, List.forall_mem_singleton.mpr (.leaf (leaf_primitive _))⟩
    let values : PyValue := strDict [("param_count".toList, .int 0)]
    AllAlone client values q.following [Scalar.short.store 0] ∧
      ¬∃ values' t, q.fromPython values ⟨client, [], 0, false⟩ = .ok (values', t) ∧
        q.Framed [Scalar.short.store 0] t.buf := by
  intro _ _ client q values
  have halone : AllAlone client values q.following [Scalar.short.store 0] :=
    .cons ⟨.int 0, rfl, _, _, rfl, rfl⟩ .nil
  refine ⟨halone, ?_⟩
  rintro ⟨values', t, hrun, hframed⟩
  obtain ⟨values'', t', hrun', hbuf⟩ := q.fromPython_alone halone (by decide)
  obtain ⟨-, rfl⟩ := Prod.mk.inj (Except.ok.inj (hrun.symm.trans hrun'))
  rw [hbuf, q.framed_header_iff] at hframed
  cases hframed.1

end PyGridGain
