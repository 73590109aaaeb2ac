import Mathlib.Data.List.Induction
import PyGridGain.Stream.BinaryStream

/-! The views that a stream exports of its buffer. A reader makes one, which the next write is to
release; but what it looks for it by is a truth test, and a view of no bytes is false. -/

namespace PyGridGain

inductive Whence
  | set | cur | fromEnd

/-- The methods of a stream. -/
inductive StreamOp
  | write (data : Bytes)
  | seek (offset : ℤ) (whence : Whence)
  | tell
  | getvalue
  | read (size : ℕ)
  | slice (start offset : ℤ)
  | readCtype (c : Layout) (position : Option ℤ) (backward : Bool)
  | hashcode (start bytesLen : ℤ)

/-- What a method returns. -/
inductive Returned
  | int (i : ℤ)
  | bytes (b : Bytes)
  | object (o : CObject)

/-- A method that takes a view. -/
def StreamOp.Views : StreamOp → Prop
  | slice .. => True
  | readCtype .. => True
  | hashcode .. => True
  | _ => False

/-! ### What the methods make of bytes and a position -/

/-- `BytesIO.seek`. -/
def seekTo (n pos : ℕ) (offset : ℤ) : Whence → Except PyError ℕ
  | .set => if offset < 0 then raise .valueError else .ok offset.toNat
  | .cur => .ok (pos + offset).toNat
  | .fromEnd => .ok (n + offset).toNat

/-- `read`: a `bytearray` of the given size, filled as far as there are bytes. -/
def readFrom (pos size : ℕ) (b : Bytes) : Bytes :=
  sliceAt b pos size ++ List.replicate (size - (sliceAt b pos size).length) 0

/-- The slice in `slice`. -/
def sliceFrom (pos : ℕ) (start offset : ℤ) (b : Bytes) : Bytes :=
  let start := if start ≥ 0 then start else pos
  pySlice b start (start + offset)

/-- The slice in `read_ctype`, and what is made of it. -/
def readCtypeFrom (c : Layout) (pos : ℕ) (position : Option ℤ) (backward : Bool) (b : Bytes) :
    Except PyError Returned :=
  let initPosition : ℤ :=
    match position with
    | some p => if p ≥ 0 then p else pos
    | none => pos
  let seen :=
    if backward then pySlice b (initPosition - c.size) initPosition
    else pySlice b initPosition (initPosition + c.size)
  match CObj.fromBufferCopy c seen with
  | some o => .ok (.object o)
  | none => raise .valueError

/-- The slice in `hashcode`. -/
def hashcodeFrom (start bytesLen : ℤ) (b : Bytes) : ℤ :=
  hashcodeBytes (pySlice b start (start + bytesLen))

/-! ### The stream -/

/-- An `io.BytesIO`, and how many views of it have not been released. -/
structure ByteStream where
  contents : Bytes
  pos : ℕ
  exports : ℕ

/-- `BytesIO.write`, which no view must see. -/
def ByteStream.write (data : Bytes) (stream : ByteStream) : Except PyError ByteStream :=
  if stream.exports ≠ 0 then
    raise .bufferError "Existing exports of data: object cannot be re-sized"
  else .ok { stream with
    contents := writeAt stream.contents stream.pos data, pos := stream.pos + data.length }

/-- A view of a whole buffer. -/
structure View where
  length : ℕ

/-- `bool(view)`. -/
def View.truthy (v : View) : Bool := v.length != 0

def View.data (v : View) (stream : ByteStream) : Bytes := stream.contents.take v.length

/-- `BinaryStreamBase`; `buffer` is its `_buffer`. -/
structure BinaryStreamBase where
  stream : ByteStream
  buffer : Option View

namespace BinaryStreamBase

/-- A stream that is made of `buf`. -/
def init (buf : Bytes) : BinaryStreamBase := ⟨⟨buf, 0, 0⟩, none⟩

/-- `getbuffer`. The view that a new one takes the place of has no reference left, and is released
by that. -/
def getbuffer (s : BinaryStreamBase) : View × BinaryStreamBase :=
  match s.buffer.filter View.truthy with
  | some v => (v, s)
  | none =>
    let v : View := ⟨s.stream.contents.length⟩
    let dropped := if s.buffer.isSome then 1 else 0
    (v, ⟨{ s.stream with exports := s.stream.exports + 1 - dropped }, some v⟩)

/-- `_release_buffer`. -/
def releaseBuffer (s : BinaryStreamBase) : BinaryStreamBase :=
  match s.buffer.filter View.truthy with
  | some _ => ⟨{ s.stream with exports := s.stream.exports - 1 }, none⟩
  | none => s

/-- What a method raises or returns, and the stream afterwards. -/
def step (s : BinaryStreamBase) : StreamOp → Except PyError Returned × BinaryStreamBase
  | .write data =>
    let s := s.releaseBuffer
    match s.stream.write data with
    | .ok stream => (.ok (.int data.length), { s with stream })
    | .error e => (.error e, s)
  | .seek offset whence =>
    match seekTo s.stream.contents.length s.stream.pos offset whence with
    | .ok pos => (.ok (.int pos), { s with stream := { s.stream with pos } })
    | .error e => (.error e, s)
  | .tell => (.ok (.int s.stream.pos), s)
  | .getvalue => (.ok (.bytes s.stream.contents), s)
  | .read size =>
    (.ok (.bytes (readFrom s.stream.pos size s.stream.contents)),
      { s with stream := { s.stream with
        pos := s.stream.pos + (sliceAt s.stream.contents s.stream.pos size).length } })
  | .slice start offset =>
    let (view, s) := s.getbuffer
    (.ok (.bytes (sliceFrom s.stream.pos start offset (view.data s.stream))), s)
  | .readCtype c position backward =>
    let (view, s) := s.getbuffer
    (readCtypeFrom c s.stream.pos position backward (view.data s.stream), s)
  | .hashcode start bytesLen =>
    let (view, s) := s.getbuffer
    (.ok (.int (hashcodeFrom start bytesLen (view.data s.stream))), s)

/-- The stream after these calls; one that raises may be followed by others. -/
def after (s : BinaryStreamBase) (ops : List StreamOp) : BinaryStreamBase :=
  ops.foldl (fun s op => (s.step op).2) s

/-- What these calls raise or return. -/
def outcomes : BinaryStreamBase → List StreamOp → List (Except PyError Returned)
  | _, [] => []
  | s, op :: ops => (s.step op).1 :: (s.step op).2.outcomes ops

end BinaryStreamBase

/-! ### The bytes written so far -/

/-- The bytes written so far and the position: a stream without views. -/
structure Written where
  contents : Bytes
  pos : ℕ

namespace Written

def step (w : Written) : StreamOp → Except PyError Returned × Written
  | .write data =>
    (.ok (.int data.length), ⟨writeAt w.contents w.pos data, w.pos + data.length⟩)
  | .seek offset whence =>
    match seekTo w.contents.length w.pos offset whence with
    | .ok pos => (.ok (.int pos), { w with pos })
    | .error e => (.error e, w)
  | .tell => (.ok (.int w.pos), w)
  | .getvalue => (.ok (.bytes w.contents), w)
  | .read size =>
    (.ok (.bytes (readFrom w.pos size w.contents)),
      { w with pos := w.pos + (sliceAt w.contents w.pos size).length })
  | .slice start offset => (.ok (.bytes (sliceFrom w.pos start offset w.contents)), w)
  | .readCtype c position backward => (readCtypeFrom c w.pos position backward w.contents, w)
  | .hashcode start bytesLen => (.ok (.int (hashcodeFrom start bytesLen w.contents)), w)

def outcomes : Written → List StreamOp → List (Except PyError Returned)
  | _, [] => []
  | w, op :: ops => (w.step op).1 :: (w.step op).2.outcomes ops

end Written

/-- At each write all views are released, and every call sees the bytes written so far. -/
structure ViewsReleased (buf : Bytes) (ops : List StreamOp) : Prop where
  released : ∀ pre data post, ops = pre ++ .write data :: post →
    ((BinaryStreamBase.init buf).after pre).releaseBuffer.stream.exports = 0
  sees : (BinaryStreamBase.init buf).outcomes ops = Written.outcomes ⟨buf, 0⟩ ops

/-- A view was taken before there were any bytes. -/
def TookEmptyView (buf : Bytes) (ops : List StreamOp) : Prop :=
  ∃ pre op post, ops = pre ++ op :: post ∧ op.Views ∧ buf = [] ∧
    ∀ data, .write data ∈ pre → data = []

namespace BinaryStreamBase
variable {s : BinaryStreamBase} {op : StreamOp} {ops : List StreamOp} {buf : Bytes}

/-! ### One call -/

/-- The only view is that in `_buffer`, and shows the whole buffer. -/
structure Held (s : BinaryStreamBase) : Prop where
  exports : s.stream.exports = if s.buffer.isSome then 1 else 0
  length : ∀ v ∈ s.buffer, v.length = s.stream.contents.length

/-- There is a view of no bytes. -/
def Blocked (s : BinaryStreamBase) : Prop := ∃ v ∈ s.buffer, v.length = 0

def written (s : BinaryStreamBase) : Written := ⟨s.stream.contents, s.stream.pos⟩

theorem init_held (buf : Bytes) : (init buf).Held := ⟨rfl, by simp [init]⟩

theorem init_not_blocked (buf : Bytes) : ¬(init buf).Blocked := by
  simp [Blocked, init]

theorem filter_truthy (s : BinaryStreamBase) (h : ¬s.Blocked) :
    s.buffer.filter View.truthy = s.buffer := by
  cases hbuffer : s.buffer with
  | none => rfl
  | some v =>
    have hne : v.length ≠ 0 := fun h0 => h ⟨v, hbuffer, h0⟩
    simp [View.truthy, hne]

theorem filter_truthy_blocked (h : s.Blocked) : s.buffer.filter View.truthy = none := by
  obtain ⟨v, hv, h0⟩ := h
  rw [Option.mem_def.mp hv]
  simp [View.truthy, h0]

/-- A view shows all bytes there are. -/
theorem getbuffer_spec (h : s.Held) : s.getbuffer.2.Held ∧ s.getbuffer.2.written = s.written ∧
    s.getbuffer.1.data s.getbuffer.2.stream = s.stream.contents ∧
    (s.getbuffer.2.Blocked ↔ s.stream.contents = []) := by
  have hdata : ∀ v : View, v.length = s.stream.contents.length →
      s.stream.contents.take v.length = s.stream.contents := fun v hv =>
    List.take_of_length_le hv.ge
  unfold getbuffer
  cases hfilter : s.buffer.filter View.truthy with
  | some v =>
    obtain ⟨hv, htruthy⟩ := Option.filter_eq_some_iff.mp hfilter
    have hlen := h.length v hv
    refine ⟨h, rfl, hdata v hlen, ?_⟩
    rw [← List.length_eq_zero_iff, ← hlen, Blocked, Option.mem_def.mp hv]
    simp
  | none =>
    refine ⟨⟨?_, by simp⟩, rfl, hdata _ rfl, by simp [Blocked]⟩
    have hexports := h.exports
    dsimp only
    rw [hexports]
    cases s.buffer <;> rfl

theorem releaseBuffer_blocked (h : s.Blocked) : s.releaseBuffer = s := by
  rw [releaseBuffer, filter_truthy_blocked h]

/-- Without a view of no bytes all views are released. -/
theorem releaseBuffer_spec (h : s.Held) (hb : ¬s.Blocked) :
    s.releaseBuffer = ⟨{ s.stream with exports := 0 }, none⟩ := by
  have hexports := h.exports
  unfold releaseBuffer
  rw [filter_truthy s hb]
  obtain ⟨stream, buffer⟩ := s
  cases buffer with
  | none =>
    cases stream
    simp_all
  | some v =>
    dsimp only at hexports ⊢
    rw [hexports]
    rfl

theorem exports_releaseBuffer_iff (h : s.Held) :
    s.releaseBuffer.stream.exports = 0 ↔ ¬s.Blocked := by
  constructor
  · intro h0 hb
    obtain ⟨v, hv, -⟩ := id hb
    rw [releaseBuffer_blocked hb, h.exports, Option.mem_def.mp hv] at h0
    cases h0
  · intro hb
    rw [releaseBuffer_spec h hb]

/-- A blocked write changes nothing. -/
theorem step_write_blocked (h : s.Held) (hb : s.Blocked) (data : Bytes) :
    s.step (.write data) =
      (raise .bufferError "Existing exports of data: object cannot be re-sized", s) := by
  have hexports : s.stream.exports ≠ 0 := by
    have hiff := exports_releaseBuffer_iff h
    rw [releaseBuffer_blocked hb] at hiff
    exact fun h0 => hiff.mp h0 hb
  dsimp only [step]
  rw [releaseBuffer_blocked hb, ByteStream.write, if_pos hexports]
  rfl

theorem step_write (h : s.Held) (hb : ¬s.Blocked) (data : Bytes) :
    s.step (.write data) = (.ok (.int data.length),
      ⟨⟨writeAt s.stream.contents s.stream.pos data, s.stream.pos + data.length, 0⟩, none⟩) := by
  dsimp only [step]
  rw [releaseBuffer_spec h hb]
  rfl

/-- A call that is no blocked write does what it does without views; one that takes a view blocks
the stream if there are no bytes yet. -/
theorem step_spec (h : s.Held) (hb : (∃ data, op = .write data) → ¬s.Blocked) :
    (s.step op).2.Held ∧ ((s.step op).1, (s.step op).2.written) = s.written.step op ∧
      ((s.step op).2.Blocked ↔ s.Blocked ∨ op.Views ∧ s.stream.contents = []) := by
  have hview : ∀ f : Bytes → Except PyError Returned, op.Views →
      s.step op = (f (s.getbuffer.1.data s.getbuffer.2.stream), s.getbuffer.2) →
      s.written.step op = (f s.stream.contents, s.written) →
      (s.step op).2.Held ∧ ((s.step op).1, (s.step op).2.written) = s.written.step op ∧
      ((s.step op).2.Blocked ↔ s.Blocked ∨ op.Views ∧ s.stream.contents = []) := by
    intro f hviews hstep hwritten
    obtain ⟨hheld, hsame, hdata, hblocked⟩ := getbuffer_spec h
    rw [hstep, hwritten, hdata]
    refine ⟨hheld, by rw [hsame], hblocked.trans ⟨fun hnil => .inr ⟨hviews, hnil⟩, ?_⟩⟩
    rintro (⟨v, hv, h0⟩ | ⟨-, hnil⟩)
    · exact List.length_eq_zero_iff.mp ((h.length v hv).symm.trans h0)
    · exact hnil
  have hpos : s.getbuffer.2.stream.pos = s.stream.pos :=
    congrArg Written.pos (getbuffer_spec h).2.1
  cases op with
  | write data =>
    have hb := hb ⟨data, rfl⟩
    rw [step_write h hb]
    refine ⟨⟨rfl, by simp⟩, rfl, iff_of_false (by simp [Blocked]) ?_⟩
    simp [hb, StreamOp.Views]
  | seek offset whence =>
    dsimp only [step, Written.step, written]
    cases seekTo s.stream.contents.length s.stream.pos offset whence with
    | ok pos => exact ⟨⟨h.exports, h.length⟩, rfl, by simp [Blocked, StreamOp.Views]⟩
    | error e => exact ⟨h, rfl, by simp [StreamOp.Views]⟩
  | tell => exact ⟨h, rfl, by simp [step, StreamOp.Views]⟩
  | getvalue => exact ⟨h, rfl, by simp [step, StreamOp.Views]⟩
  | read size => exact ⟨⟨h.exports, h.length⟩, rfl, by simp [step, Blocked, StreamOp.Views]⟩
  | slice start offset =>
    refine hview (fun b => .ok (.bytes (sliceFrom s.stream.pos start offset b))) trivial ?_ rfl
    dsimp only [step]
    rw [hpos]
  | readCtype c position backward =>
    refine hview (readCtypeFrom c s.stream.pos position backward) trivial ?_ rfl
    dsimp only [step]
    rw [hpos]
  | hashcode start bytesLen =>
    exact hview (fun b => .ok (.int (hashcodeFrom start bytesLen b))) trivial rfl rfl

/-- A view of no bytes stays. -/
theorem step_blocked (h : s.Held) : (s.step op).2.Held ∧
    ((s.step op).2.Blocked ↔ s.Blocked ∨ op.Views ∧ s.stream.contents = []) := by
  by_cases hwrite : (∃ data, op = .write data) ∧ s.Blocked
  · obtain ⟨⟨data, rfl⟩, hb⟩ := hwrite
    rw [step_write_blocked h hb]
    exact ⟨h, iff_of_true hb (.inl hb)⟩
  · obtain ⟨hheld, -, hblocked⟩ := step_spec h fun hop hb => hwrite ⟨hop, hb⟩
    exact ⟨hheld, hblocked⟩

/-! ### Any sequence of calls -/

@[simp] theorem after_nil (s : BinaryStreamBase) : s.after [] = s := rfl

@[simp] theorem after_cons (s : BinaryStreamBase) (op : StreamOp) (ops : List StreamOp) :
    s.after (op :: ops) = (s.step op).2.after ops := rfl

theorem after_concat (s : BinaryStreamBase) (ops : List StreamOp) (op : StreamOp) :
    s.after (ops ++ [op]) = ((s.after ops).step op).2 := by
  simp [after]

theorem after_held (h : s.Held) (ops : List StreamOp) : (s.after ops).Held := by
  induction ops generalizing s with
  | nil => exact h
  | cons op ops ih => exact ih (step_blocked h).1

theorem writeAt_eq_nil {b data : Bytes} {pos : ℕ} :
    writeAt b pos data = [] ↔ b = [] ∧ data = [] := by
  by_cases hdata : data = []
  · simp [hdata]
  · simp [writeAt_of_ne hdata, hdata]

/-- Only a write that is not blocked brings bytes. -/
theorem step_contents (h : s.Held) : (s.step op).2.stream.contents = [] ↔
    s.stream.contents = [] ∧ (s.Blocked ∨ ∀ data, op = .write data → data = []) := by
  by_cases hwrite : (∃ data, op = .write data) ∧ s.Blocked
  · obtain ⟨⟨data, rfl⟩, hb⟩ := hwrite
    rw [step_write_blocked h hb, and_iff_left (.inl hb)]
  · have hsame := congrArg (fun p => p.2.contents)
      (step_spec h fun hop hb => hwrite ⟨hop, hb⟩).2.1
    dsimp only [written] at hsame
    rw [hsame]
    cases op with
    | write data =>
      have hb : ¬s.Blocked := fun hb => hwrite ⟨⟨data, rfl⟩, hb⟩
      simp [Written.step, writeAt_eq_nil, hb]
    | seek offset whence =>
      dsimp only [Written.step]
      cases seekTo s.stream.contents.length s.stream.pos offset whence <;> simp
    | _ => simp [Written.step]

/-- No bytes have come as long as nothing but empty data has been written. -/
theorem contents_after (hempty : ∀ data, .write data ∈ ops → data = []) :
    ((init []).after ops).stream.contents = [] := by
  induction ops using List.reverseRecOn with
  | nil => rfl
  | append_singleton ops op ih =>
    rw [after_concat, step_contents (after_held (init_held _) _)]
    refine ⟨ih fun data hmem => hempty data (List.mem_append_left _ hmem), .inr fun data hop => ?_⟩
    exact hempty data (by simp [hop])

theorem of_contents_after (hb : ¬((init buf).after ops).Blocked)
    (hnil : ((init buf).after ops).stream.contents = []) :
    buf = [] ∧ ∀ data, .write data ∈ ops → data = [] := by
  induction ops using List.reverseRecOn with
  | nil => exact ⟨hnil, by simp⟩
  | append_singleton ops op ih =>
    have hheld := after_held (init_held buf) ops
    rw [after_concat] at hb hnil
    have hb' : ¬((init buf).after ops).Blocked := fun h => hb ((step_blocked hheld).2.mpr (.inl h))
    obtain ⟨hnil, hop⟩ := (step_contents hheld).mp hnil
    obtain ⟨hbuf, hempty⟩ := ih hb' hnil
    refine ⟨hbuf, fun data hmem => ?_⟩
    rcases List.mem_append.mp hmem with hmem | hmem
    · exact hempty data hmem
    · exact hop.resolve_left hb' data (List.mem_singleton.mp hmem).symm

/-- The stream is blocked from the first view of no bytes on. -/
theorem blocked_after_iff : ((init buf).after ops).Blocked ↔ TookEmptyView buf ops := by
  induction ops using List.reverseRecOn with
  | nil => exact iff_of_false (init_not_blocked buf) (by simp [TookEmptyView])
  | append_singleton ops op ih =>
    have hheld := after_held (init_held buf) ops
    rw [after_concat, (step_blocked hheld).2]
    constructor
    · intro h
      by_cases hb : ((init buf).after ops).Blocked
      · obtain ⟨pre, r, post, rfl, hview⟩ := ih.mp hb
        exact ⟨pre, r, post ++ [op], by simp, hview⟩
      · obtain ⟨hop, hnil⟩ := h.resolve_left hb
        exact ⟨ops, op, [], rfl, hop, of_contents_after hb hnil⟩
    · rintro ⟨pre, r, post, hsplit, hview, rfl, hempty⟩
      rcases List.eq_nil_or_concat post with rfl | ⟨post, op', rfl⟩
      · obtain ⟨rfl, hop⟩ := List.append_inj' hsplit rfl
        obtain rfl := List.cons.inj hop |>.1
        exact .inr ⟨hview, contents_after hempty⟩
      · rw [List.concat_eq_append, ← List.cons_append, ← List.append_assoc] at hsplit
        obtain ⟨rfl, -⟩ := List.append_inj' hsplit rfl
        exact .inl (ih.mpr ⟨pre, r, post, rfl, hview, rfl, hempty⟩)

/-- Where no write is blocked every call sees the bytes written so far. -/
theorem outcomes_eq (h : s.Held)
    (hok : ∀ pre data post, ops = pre ++ .write data :: post → ¬(s.after pre).Blocked) :
    s.outcomes ops = s.written.outcomes ops := by
  induction ops generalizing s with
  | nil => rfl
  | cons op ops ih =>
    have hb : (∃ data, op = .write data) → ¬s.Blocked := by
      rintro ⟨data, rfl⟩
      exact hok [] data ops rfl
    obtain ⟨hheld, hsame, -⟩ := step_spec h hb
    have hout : (s.step op).1 = (s.written.step op).1 := congrArg Prod.fst hsame
    have hwritten : (s.step op).2.written = (s.written.step op).2 := congrArg Prod.snd hsame
    have hrest := ih hheld fun pre data post hsplit =>
      hok (op :: pre) data post (by rw [hsplit, List.cons_append])
    rw [outcomes, Written.outcomes, hrest, hout, hwritten]

/-! ### The streams of the data classes -/

/-- A `BinaryStream` keeps of the views whether there is one of no bytes. -/
def toBinaryStream (s : BinaryStreamBase) (client : Client) : BinaryStream :=
  ⟨client, s.stream.contents, s.stream.pos, s.buffer.any fun v => v.length == 0⟩

/-- A method does to a `BinaryStream` what it does to the stream and its views. -/
def Simulates (op : StreamOp) (m : StreamM Returned) : Prop :=
  ∀ s client, Held s →
    m (s.toBinaryStream client) =
      (s.step op).1.map fun o => (o, (s.step op).2.toBinaryStream client)

theorem emptyView_iff (s : BinaryStreamBase) (client : Client) :
    (s.toBinaryStream client).emptyView = true ↔ s.Blocked := by
  unfold toBinaryStream Blocked
  cases s.buffer <;> simp

theorem emptyView_eq (client : Client) (h : ¬s.Blocked) :
    (s.toBinaryStream client).emptyView = false := by
  rwa [← Bool.not_eq_true, emptyView_iff]

theorem toBinaryStream_getbuffer (h : s.Held) (client : Client) :
    s.getbuffer.2.toBinaryStream client = (s.toBinaryStream client).exported := by
  obtain ⟨-, hsame, -, hblocked⟩ := getbuffer_spec h
  have hcontents : s.getbuffer.2.stream.contents = s.stream.contents :=
    congrArg Written.contents hsame
  have hpos : s.getbuffer.2.stream.pos = s.stream.pos := congrArg Written.pos hsame
  have hview : (s.getbuffer.2.toBinaryStream client).emptyView = s.stream.contents.isEmpty := by
    rw [Bool.eq_iff_iff, emptyView_iff, hblocked, List.isEmpty_iff]
  have hparts : s.getbuffer.2.toBinaryStream client = ⟨client, s.stream.contents, s.stream.pos,
      (s.getbuffer.2.toBinaryStream client).emptyView⟩ := by
    rw [← hcontents, ← hpos]
    rfl
  rw [hparts, hview]
  rfl

theorem simulates_write (data : Bytes) :
    Simulates (.write data) (do StreamM.write data; pure (.int data.length)) := by
  intro s client h
  by_cases hb : s.Blocked
  · rw [step_write_blocked h hb]
    refine StreamM.bind_error ?_
    rw [StreamM.write, if_pos ((emptyView_iff s client).mpr hb)]
    rfl
  · have hput : (s.toBinaryStream client).put data =
        (s.step (.write data)).2.toBinaryStream client := by
      rw [step_write h hb, BinaryStream.put, emptyView_eq client hb]
      rfl
    have hwrite := StreamM.write_ok (emptyView_eq client hb) data
    rw [hput] at hwrite
    rw [StreamM.bind_ok hwrite, step_write h hb]
    rfl

theorem simulates_seek (pos : ℤ) :
    Simulates (.seek pos .set) (do StreamM.seek pos; pure (.int pos)) := by
  intro s client _
  unfold StreamM.seek
  dsimp only [step, seekTo]
  by_cases hpos : pos < 0
  · rw [if_pos hpos]
    refine StreamM.bind_error ?_
    rw [if_pos hpos]
    rfl
  · have hcast : (pos.toNat : ℤ) = pos := Int.toNat_of_nonneg (not_lt.mp hpos)
    rw [if_neg hpos]
    dsimp only
    rw [hcast]
    refine StreamM.bind_ok (a := ()) ?_
    rw [if_neg hpos]
    rfl

theorem simulates_seekCur (n : ℕ) : Simulates (.seek n .cur)
    (do StreamM.seekCur n; let pos ← StreamM.tell; pure (.int pos)) := by
  intro s client _
  rfl

theorem simulates_tell : Simulates .tell (do let pos ← StreamM.tell; pure (.int pos)) :=
  fun _ _ _ => rfl

/-- What a reader makes of the bytes, and the view it leaves. -/
theorem simulates_view {op : StreamOp} {m : StreamM Returned}
    (f : ℕ → Bytes → Except PyError Returned)
    (hstep : ∀ s : BinaryStreamBase, s.step op =
      (f s.getbuffer.2.stream.pos (s.getbuffer.1.data s.getbuffer.2.stream), s.getbuffer.2))
    (hm : ∀ s : BinaryStream, m s = (f s.pos s.buf).map fun o => (o, s.exported)) :
    Simulates op m := by
  intro s client h
  obtain ⟨-, hsame, hdata, -⟩ := getbuffer_spec h
  have hpos : s.getbuffer.2.stream.pos = s.stream.pos := congrArg Written.pos hsame
  rw [hstep, hm, toBinaryStream_getbuffer h, hdata, hpos]
  rfl

theorem simulates_slice (start offset : ℕ) : Simulates (.slice start offset)
    (do let b ← StreamM.slice start offset; pure (.bytes b)) := by
  refine simulates_view (fun pos b => .ok (.bytes (sliceFrom pos start offset b))) (fun _ => rfl)
    fun s => ?_
  have hslice : sliceFrom s.pos start offset s.buf = sliceAt s.buf start offset := by
    unfold sliceFrom
    rw [if_pos (Int.natCast_nonneg _)]
    dsimp only
    rw [← Nat.cast_add, pySlice_of_nonneg (Nat.le_add_right _ _),
      Nat.add_sub_cancel_left]
  rw [hslice]
  rfl

theorem simulates_peek (offset : ℕ) : Simulates (.slice (-1) offset)
    (do let b ← StreamM.peek offset; pure (.bytes b)) := by
  refine simulates_view (fun pos b => .ok (.bytes (sliceFrom pos (-1) offset b))) (fun _ => rfl)
    fun s => ?_
  have hslice : sliceFrom s.pos (-1) offset s.buf = sliceAt s.buf s.pos offset := by
    unfold sliceFrom
    rw [if_neg (by decide)]
    dsimp only
    rw [← Nat.cast_add, pySlice_of_nonneg (Nat.le_add_right _ _),
      Nat.add_sub_cancel_left]
  rw [hslice]
  rfl

theorem simulates_hashcode (start bytesLen : ℕ) : Simulates (.hashcode start bytesLen)
    (do let i ← StreamM.hashcode start bytesLen; pure (.int i)) := by
  refine simulates_view (fun _ b => .ok (.int (hashcodeFrom start bytesLen b))) (fun _ => rfl)
    fun s => ?_
  have hhash : hashcodeFrom start bytesLen s.buf =
      hashcodeBytes (sliceAt s.buf start bytesLen) := by
    rw [hashcodeFrom, ← Nat.cast_add, pySlice_of_nonneg (Nat.le_add_right _ _),
      Nat.add_sub_cancel_left]
  rw [hhash]
  rfl

theorem simulates_readForward (c : Layout) : Simulates (.readCtype c none false)
    (do let o ← StreamM.readForward c; pure (.object o)) := by
  refine simulates_view (fun pos b => readCtypeFrom c pos none false b) (fun _ => rfl) fun s => ?_
  unfold readCtypeFrom
  dsimp only [bind, StateT.bind, StreamM.readForward]
  rw [if_neg Bool.false_ne_true]
  cases CObj.fromBufferCopy c (pySlice s.buf s.pos (s.pos + c.size)) <;> rfl

theorem simulates_readBackward (c : Layout) : Simulates (.readCtype c none true)
    (do let o ← StreamM.readBackward c; pure (.object o)) := by
  refine simulates_view (fun pos b => readCtypeFrom c pos none true b) (fun _ => rfl) fun s => ?_
  unfold readCtypeFrom
  dsimp only [bind, StateT.bind, StreamM.readBackward]
  rw [if_pos rfl]
  cases CObj.fromBufferCopy c (pySlice s.buf (s.pos - c.size) s.pos) <;> rfl

end BinaryStreamBase

open BinaryStreamBase in
/-- In a sequence of calls all views are released at each write, and every call sees the bytes
written so far, exactly where nothing is written once a view has been taken before there were any
bytes. -/
theorem views_released_iff (buf : Bytes) (ops : List StreamOp) : ViewsReleased buf ops ↔
    ∀ pre data post, ops = pre ++ .write data :: post → ¬TookEmptyView buf pre := by
  have hblocked : ∀ pre, ((init buf).after pre).releaseBuffer.stream.exports = 0 ↔
      ¬TookEmptyView buf pre := fun pre =>
    (exports_releaseBuffer_iff (after_held (init_held buf) pre)).trans
      (not_congr blocked_after_iff)
  constructor
  · exact fun h pre data post hsplit => (hblocked pre).mp (h.released pre data post hsplit)
  · intro h
    refine ⟨fun pre data post hsplit => (hblocked pre).mpr (h pre data post hsplit), ?_⟩
    refine outcomes_eq (init_held buf) fun pre data post hsplit hb => ?_
    exact h pre data post hsplit (blocked_after_iff.mp hb)

/-- The calls that a Complex object without fields makes on an empty stream. -/
theorem view_of_no_bytes_not_released :
    ¬ViewsReleased [] [.tell, .seek 24 .cur, .tell, .hashcode 24 0, .seek 0 .set,
      .write (103 :: List.replicate 23 0)] := by
  intro h
  have hexports := h.released [.tell, .seek 24 .cur, .tell, .hashcode 24 0, .seek 0 .set]
    (103 :: List.replicate 23 0) [] rfl
  exact absurd hexports (by decide)

end PyGridGain
