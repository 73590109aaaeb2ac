import PyGridGain.Datatypes.Hashcode

/-! `pygridgain.stream.BinaryStream` over its client's registry of Complex object
classes. A stream operation is a state transformer that may raise; each has its
effect stated as a lemma, so that nothing later unfolds it. -/

namespace PyGridGain

/-- The parts of a `Client` that streams use. `remote` is the answer of the
server: the classes that `_sync_binary_registry` makes of the description of a
type id. -/
structure Client where
  rawCompactFooter : Option Bool
  registry : ℤ → List (ℤ × DataClass)
  remote : ℤ → List DataClass

/-- What `query_binary_type` returns: a class, the dict of all classes of a type
id, or `None`. -/
inductive Lookup
  | dataClass (c : DataClass)
  | dict (d : List (ℤ × DataClass))
  | none

def Lookup.truthy : Lookup → Bool
  | dataClass _ => true
  | dict d => !d.isEmpty
  | none => false

/-- `d[k] = v` for a dict with integer keys. -/
def assocSet (d : List (ℤ × DataClass)) (k : ℤ) (v : DataClass) : List (ℤ × DataClass) :=
  match d with
  | [] => [(k, v)]
  | p :: d => if p.1 = k then (k, v) :: d else p :: assocSet d k v

theorem assocSet_of_lookup {d : List (ℤ × DataClass)} {k : ℤ} {v : DataClass}
    (h : d.lookup k = some v) : assocSet d k v = d := by
  induction d with
  | nil => simp at h
  | cons p d ih =>
    obtain ⟨k', v'⟩ := p
    rw [List.lookup_cons] at h
    by_cases hk : k' = k
    · subst hk
      simp only [beq_self_eq_true, Option.some.injEq] at h
      simp [assocSet, h]
    · have hne : (k == k') = false := by simpa using fun heq => hk heq.symm
      rw [hne] at h
      simp only [assocSet, if_neg hk, ih (by simpa using h)]

namespace Client

def compactFooter (cl : Client) : Bool :=
  match cl.rawCompactFooter with
  | some b => b
  | none => true

/-- `_get_from_registry`: a schema id of zero counts as no schema. -/
def getFromRegistry (cl : Client) (typeId schema : ℤ) : Lookup :=
  if schema ≠ 0 then
    match (cl.registry typeId).lookup schema with
    | some c => .dataClass c
    | none => .none
  else .dict (cl.registry typeId)

def setRegistry (cl : Client) (typeId schema : ℤ) (c : DataClass) : Client :=
  let schemas := assocSet (cl.registry typeId) schema c
  { cl with registry := Function.update cl.registry typeId schemas }

section Registry
variable [Python]

def syncBinaryRegistry (cl : Client) (typeId : ℤ) : Client :=
  (cl.remote typeId).foldl (fun cl c =>
    match (cl.registry typeId).lookup c.schemaId with
    | some _ => cl
    | none => cl.setRegistry typeId c.schemaId c) cl

def queryBinaryType (cl : Client) (typeId schema : ℤ) : Lookup × Client :=
  let result := cl.getFromRegistry typeId schema
  if result.truthy then (result, cl)
  else
    let cl := cl.syncBinaryRegistry typeId
    (cl.getFromRegistry typeId schema, cl)

/-- `register_binary_type`; `put_binary_type` on an unknown type changes only the
server. -/
def registerBinaryType (cl : Client) (c : DataClass) : Client :=
  (cl.queryBinaryType c.typeId c.schemaId).2.setRegistry c.typeId c.schemaId c

/-- The class is registered under its type id and schema id. -/
def Registered (cl : Client) (c : DataClass) : Prop :=
  (cl.registry c.typeId).lookup c.schemaId = some c

instance (cl : Client) (c : DataClass) : Decidable (cl.Registered c) :=
  inferInstanceAs (Decidable (_ = _))

theorem Registered.ne_nil {cl : Client} {c : DataClass} (h : cl.Registered c) :
    cl.registry c.typeId ≠ [] := by
  intro hnil
  rw [Registered, hnil] at h
  simp at h

/-- A registered class is found at once. -/
theorem queryBinaryType_of_registered {cl : Client} {c : DataClass} (h : cl.Registered c) :
    cl.queryBinaryType c.typeId c.schemaId =
      (if c.schemaId = 0 then .dict (cl.registry c.typeId) else .dataClass c, cl) := by
  have hne := h.ne_nil
  unfold Registered at h
  by_cases h0 : c.schemaId = 0
  · simp [queryBinaryType, getFromRegistry, h0, Lookup.truthy, hne]
  · simp [queryBinaryType, getFromRegistry, h0, h, Lookup.truthy]

theorem registerBinaryType_of_registered {cl : Client} {c : DataClass} (h : cl.Registered c) :
    cl.registerBinaryType c = cl := by
  rw [registerBinaryType, queryBinaryType_of_registered h, setRegistry, assocSet_of_lookup h,
    Function.update_eq_self]

end Registry

end Client

/-- `emptyView`: an unreleased view of zero bytes is exported. Such a view is
falsy, so `_release_buffer` passes it by and the next write raises. -/
structure BinaryStream where
  client : Client
  buf : Bytes
  pos : ℕ
  emptyView : Bool := false

abbrev StreamM := StateT BinaryStream (Except PyError)

namespace BinaryStream

/-- The stream after `data` was written. -/
def put (s : BinaryStream) (data : Bytes) : BinaryStream :=
  { s with buf := writeAt s.buf s.pos data, pos := s.pos + data.length }

/-- The stream after `getbuffer()`. -/
def exported (s : BinaryStream) : BinaryStream := { s with emptyView := s.buf.isEmpty }

/-- The stream `n` bytes further. -/
def skip (s : BinaryStream) (n : ℕ) : BinaryStream := { s with pos := s.pos + n }

@[simp] theorem put_client (s : BinaryStream) (d : Bytes) : (s.put d).client = s.client := rfl
@[simp] theorem put_pos (s : BinaryStream) (d : Bytes) : (s.put d).pos = s.pos + d.length := rfl
@[simp] theorem put_emptyView (s : BinaryStream) (d : Bytes) :
    (s.put d).emptyView = s.emptyView := rfl
@[simp] theorem put_nil (s : BinaryStream) : s.put [] = s := by simp [put]
@[simp] theorem skip_emptyView (s : BinaryStream) (n : ℕ) :
    (s.skip n).emptyView = s.emptyView := rfl
@[simp] theorem skip_client (s : BinaryStream) (n : ℕ) : (s.skip n).client = s.client := rfl
@[simp] theorem skip_buf (s : BinaryStream) (n : ℕ) : (s.skip n).buf = s.buf := rfl
@[simp] theorem skip_pos (s : BinaryStream) (n : ℕ) : (s.skip n).pos = s.pos + n := rfl

theorem put_put (s : BinaryStream) (a b : Bytes) : (s.put a).put b = s.put (a ++ b) := by
  simp only [put, writeAt_writeAt, List.length_append, Nat.add_assoc]

/-- Skipping the place of a head, writing the rest, and then the head is one write. -/
theorem put_back (s : BinaryStream) {a b : Bytes} (ha : a ≠ []) :
    { { (s.skip a.length).put b with pos := s.pos }.put a with
      pos := s.pos + a.length + b.length } = s.put (a ++ b) := by
  simp only [put, skip, writeAt_back ha, List.length_append, Nat.add_assoc]

@[simp] theorem skip_skip (s : BinaryStream) (m n : ℕ) : (s.skip m).skip n = s.skip (m + n) := by
  simp [skip, Nat.add_assoc]

@[simp] theorem skip_zero (s : BinaryStream) : s.skip 0 = s := rfl

/-- A view of a buffer that holds something is no obstacle. -/
theorem exported_eq {s : BinaryStream} (hv : s.emptyView = false) (hb : s.buf ≠ []) :
    s.exported = s := by
  cases s
  simp_all [exported]

theorem exported_at {s : BinaryStream} {p : ℕ} {b : Bytes} (hv : s.emptyView = false)
    (h : At s.buf p b) (hb : b ≠ []) : s.exported = s := by
  refine exported_eq hv fun hnil => hb ?_
  rw [At, hnil, List.drop_nil, List.prefix_nil] at h
  exact h

end BinaryStream

namespace StreamM

theorem bind_ok {α β : Type} {x : StreamM α} {f : α → StreamM β} {s s' : BinaryStream} {a : α}
    (h : x s = .ok (a, s')) : (x >>= f) s = f a s' := by
  simp only [bind, StateT.bind, h, Except.bind]

theorem bind_error {α β : Type} {x : StreamM α} {f : α → StreamM β} {s : BinaryStream}
    {e : PyError} (h : x s = .error e) : (x >>= f) s = .error e := by
  simp only [bind, StateT.bind, h, Except.bind]

@[simp] theorem pure_apply {α : Type} (a : α) (s : BinaryStream) :
    (pure a : StreamM α) s = .ok (a, s) := rfl

def raise {α : Type} (exc : Exc) (message : String := "") : StreamM α :=
  fun _ => PyGridGain.raise exc message

/-- An `Option` computed along the way, with the exception of its `none`. -/
def ofOption {α : Type} (x : Option α) (exc : Exc) : StreamM α :=
  match x with
  | some a => pure a
  | none => raise exc

def tell : StreamM ℕ := fun s => .ok (s.pos, s)

/-- `seek(n, SEEK_CUR)` for a size `n`. -/
def seekCur (n : ℕ) : StreamM Unit := fun s => .ok ((), s.skip n)

/-- `seek(pos)`. -/
def seek (pos : ℤ) : StreamM Unit :=
  fun s => if pos < 0 then PyGridGain.raise .valueError else .ok ((), { s with pos := pos.toNat })

def write (data : Bytes) : StreamM Unit := fun s =>
  if s.emptyView then
    PyGridGain.raise .bufferError "Existing exports of data: object cannot be re-sized"
  else .ok ((), s.put data)

/-- `slice(start, offset)`. -/
def slice (start offset : ℕ) : StreamM Bytes := fun s => .ok (sliceAt s.buf start offset, s.exported)

/-- `slice(offset=offset)`: from the current position. -/
def peek (offset : ℕ) : StreamM Bytes := fun s => .ok (sliceAt s.buf s.pos offset, s.exported)

/-- `read_ctype(ctype_class)`. -/
def readForward (c : Layout) : StreamM CObject := fun s =>
  match CObj.fromBufferCopy c (pySlice s.buf s.pos (s.pos + c.size)) with
  | some o => .ok (o, s.exported)
  | none => PyGridGain.raise .valueError

/-- `read_ctype(ctype_class, direction=READ_BACKWARD)`. -/
def readBackward (c : Layout) : StreamM CObject := fun s =>
  match CObj.fromBufferCopy c (pySlice s.buf (s.pos - c.size) s.pos) with
  | some o => .ok (o, s.exported)
  | none => PyGridGain.raise .valueError

/-- `hashcode(start, bytes_len)`. -/
def hashcode (start len : ℕ) : StreamM ℤ :=
  fun s => .ok (hashcodeBytes (sliceAt s.buf start len), s.exported)

def compactFooter : StreamM Bool := fun s => .ok (s.client.compactFooter, s)

/-- The setter of `compact_footer`. -/
def setCompactFooter (value : Bool) : StreamM Unit := fun s =>
  match s.client.rawCompactFooter with
  | none => .ok ((), { s with client := { s.client with rawCompactFooter := some value } })
  | some b =>
    if b = value then .ok ((), s)
    else PyGridGain.raise .warning "Can not change client schema approach."

section Registry
variable [Python]

def queryBinaryType (typeId schema : ℤ) : StreamM Lookup := fun s =>
  let (result, client) := s.client.queryBinaryType typeId schema
  .ok (result, { s with client })

/-- `get_dataclass(header)`, with the `.schema` its callers take of the result: a
dict of classes has none. -/
def getDataclass (typeId schema : ℤ) : StreamM DataClass := do
  let result ← queryBinaryType typeId schema
  if !result.truthy then raise .runtimeError "Binary type is not registered"
  else
    match result with
    | .dataClass c => pure c
    | _ => raise .attributeError

def registerBinaryType (c : DataClass) : StreamM Unit :=
  fun s => .ok ((), { s with client := s.client.registerBinaryType c })

end Registry

theorem write_ok {s : BinaryStream} (hv : s.emptyView = false) (d : Bytes) :
    write d s = .ok ((), s.put d) := by
  simp [write, hv]

theorem tell_ok (s : BinaryStream) : tell s = .ok (s.pos, s) := rfl

theorem seekCur_ok (s : BinaryStream) (n : ℕ) : seekCur n s = .ok ((), s.skip n) := rfl

theorem seek_ok (s : BinaryStream) (n : ℕ) : seek n s = .ok ((), { s with pos := n }) := by
  simp [seek]

theorem compactFooter_ok {s : BinaryStream} {b : Bool} (h : s.client.compactFooter = b) :
    compactFooter s = .ok (b, s) := by
  rw [compactFooter, h]

section At
variable {s : BinaryStream} {b : Bytes}

theorem slice_at {p : ℕ} (hv : s.emptyView = false) (h : At s.buf p b) (hb : b ≠ []) :
    slice p b.length s = .ok (b, s) := by
  simp only [slice, h.slice, BinaryStream.exported_at hv h hb]

theorem hashcode_at {p : ℕ} (hv : s.emptyView = false) (h : At s.buf p b) (hb : b ≠ []) :
    hashcode p b.length s = .ok (hashcodeBytes b, s) := by
  simp only [hashcode, h.slice, BinaryStream.exported_at hv h hb]

theorem peek_at (hv : s.emptyView = false) (h : At s.buf s.pos b) (hb : b ≠ []) :
    peek b.length s = .ok (b, s) := by
  simp only [peek, h.slice, BinaryStream.exported_at hv h hb]

theorem readForward_at {c : Layout} (hv : s.emptyView = false) (h : At s.buf s.pos b)
    (hne : b ≠ []) (hb : b.length = c.size) : readForward c s = .ok (⟨c, b⟩, s) := by
  have hs : pySlice s.buf s.pos (s.pos + c.size) = b := by
    rw [← Nat.cast_add, pySlice_of_nonneg (Nat.le_add_right _ _), Nat.add_sub_cancel_left, ← hb]
    exact h.slice
  simp only [readForward, hs, CObj.fromBufferCopy_of_length hb, BinaryStream.exported_at hv h hne]

theorem readBackward_at {c : Layout} {p : ℕ} (hv : s.emptyView = false) (h : At s.buf p b)
    (hne : b ≠ []) (hpos : s.pos = p + b.length) (hb : b.length = c.size) :
    readBackward c s = .ok (⟨c, b⟩, s) := by
  have hs : pySlice s.buf (s.pos - c.size) s.pos = b := by
    have hp : ((s.pos : ℤ) - c.size) = (p : ℕ) := by rw [hpos, ← hb]; push_cast; ring
    rw [hp, hpos, pySlice_of_nonneg (Nat.le_add_right _ _), Nat.add_sub_cancel_left]
    exact h.slice
  simp only [readBackward, hs, CObj.fromBufferCopy_of_length hb,
    BinaryStream.exported_at hv h hne]

end At

end StreamM

/-- A data class that stands alone: what its `from_python_not_null`,
`parse_not_null` and `to_python_not_null` do. -/
structure LeafCodec where
  fromPythonNotNull : PyValue → StreamM Unit
  parseNotNull : StreamM Layout
  toPythonNotNull : CObject → Except PyError PyValue

/-- The classes of `tc_map` that the other modules do not spell out. -/
class OtherCodecs where
  codec : OtherType → LeafCodec

/-- `str.lower` on ASCII names. -/
abbrev asciiLower : Python := ⟨List.map Char.toLower⟩

/-- Nothing but the classes that are spelled out. -/
abbrev noOtherCodecs : OtherCodecs :=
  ⟨fun _ => ⟨fun _ => StreamM.raise .typeError, StreamM.raise .parseError,
    fun _ => raise .typeError⟩⟩

end PyGridGain
