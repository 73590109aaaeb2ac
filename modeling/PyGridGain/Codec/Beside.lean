import PyGridGain.Client.Registry
import PyGridGain.Codec.Assembled
import PyGridGain.Codec.RoundTrip
import PyGridGain.Lib.Related

/-! A parser on the streams of two clients that hold the same bytes. One client knows some classes
and asks no server; where its parser succeeds so does that of the other, if the classes that this
one has or is sent have the same schemas. -/

namespace PyGridGain

open CObj StreamM

/-! ### The class that a client has for an object -/

namespace Client
variable [Python] {cl : Client} {typeId schemaId : ℤ}

/-- The class that is found under these ids, or made for them of the answer of the server. -/
def classFor (cl : Client) (typeId schemaId : ℤ) : Option DataClass :=
  ((cl.registry typeId).lookup schemaId).or
    ((cl.remote typeId).find? fun c => c.schemaId = schemaId)

/-- The name that objects of the class `c` have for the client. -/
def nameOf (cl : Client) (c : DataClass) : PyStr :=
  ((cl.classFor c.typeId c.schemaId).map (·.typeName)).getD c.typeName

/-- What a sync leaves under an id. -/
theorem lookup_syncBinaryRegistry (cl : Client) (typeId k : ℤ) :
    ((cl.syncBinaryRegistry typeId).registry typeId).lookup k = cl.classFor typeId k := by
  unfold syncBinaryRegistry classFor
  generalize cl.remote typeId = remote
  induction remote generalizing cl with
  | nil => simp
  | cons c remote ih =>
    rw [List.foldl_cons, ih]
    cases hc : (cl.registry typeId).lookup c.schemaId with
    | some c' =>
      by_cases hk : c.schemaId = k
      · subst hk
        simp [hc]
      · rw [List.find?_cons_of_neg (by simpa using hk)]
    | none =>
      have hset : ((cl.setRegistry typeId c.schemaId c).registry typeId).lookup k =
          if k = c.schemaId then some c else (cl.registry typeId).lookup k := by
        simp only [setRegistry, Function.update_self, assocSet_eq_dictSet, lookup_dictSet]
      dsimp only
      rw [hset]
      by_cases hk : c.schemaId = k
      · subst hk
        simp [hc]
      · rw [if_neg (Ne.symm hk), List.find?_cons_of_neg (by simpa using hk)]

/-- A sync leaves the other types. -/
theorem syncBinaryRegistry_of_ne {typeId' : ℤ} (h : typeId' ≠ typeId) :
    (cl.syncBinaryRegistry typeId).registry typeId' = cl.registry typeId' := by
  unfold syncBinaryRegistry
  generalize cl.remote typeId = remote
  induction remote generalizing cl with
  | nil => rfl
  | cons c remote ih =>
    rw [List.foldl_cons, ih]
    split
    · rfl
    · exact Function.update_of_ne h _ _

theorem syncBinaryRegistry_frame (cl : Client) (typeId : ℤ) :
    (cl.syncBinaryRegistry typeId).remote = cl.remote ∧
      (cl.syncBinaryRegistry typeId).rawCompactFooter = cl.rawCompactFooter := by
  unfold syncBinaryRegistry
  generalize cl.remote typeId = remote
  induction remote generalizing cl with
  | nil => exact ⟨rfl, rfl⟩
  | cons c remote ih =>
    rw [List.foldl_cons]
    split
    · exact ih cl
    · exact ih (cl.setRegistry typeId c.schemaId c)

theorem classFor_syncBinaryRegistry (cl : Client) (typeId : ℤ) :
    (cl.syncBinaryRegistry typeId).classFor = cl.classFor := by
  funext typeId' k
  unfold classFor
  rw [(cl.syncBinaryRegistry_frame typeId).1]
  by_cases h : typeId' = typeId
  · subst h
    rw [lookup_syncBinaryRegistry, classFor, Option.or_assoc, Option.or_self]
  · rw [syncBinaryRegistry_of_ne h]

theorem queryBinaryType_snd (cl : Client) (typeId schemaId : ℤ) :
    (cl.queryBinaryType typeId schemaId).2 = cl ∨
      (cl.queryBinaryType typeId schemaId).2 = cl.syncBinaryRegistry typeId := by
  unfold queryBinaryType
  dsimp only
  split_ifs
  · exact .inl rfl
  · exact .inr rfl

/-- A lookup changes no answer to another one. -/
theorem classFor_queryBinaryType (cl : Client) (typeId schemaId : ℤ) :
    (cl.queryBinaryType typeId schemaId).2.classFor = cl.classFor := by
  rcases cl.queryBinaryType_snd typeId schemaId with h | h <;> rw [h]
  exact cl.classFor_syncBinaryRegistry typeId

theorem queryBinaryType_frame (cl : Client) (typeId schemaId : ℤ) :
    (cl.queryBinaryType typeId schemaId).2.remote = cl.remote ∧
      (cl.queryBinaryType typeId schemaId).2.rawCompactFooter = cl.rawCompactFooter := by
  rcases cl.queryBinaryType_snd typeId schemaId with h | h <;> rw [h]
  · exact ⟨rfl, rfl⟩
  · exact cl.syncBinaryRegistry_frame typeId

theorem queryBinaryType_zero (cl : Client) (typeId : ℤ) :
    ∃ d, (cl.queryBinaryType typeId 0).1 = .dict d := by
  unfold queryBinaryType
  dsimp only
  split_ifs
  · exact ⟨_, rfl⟩
  · exact ⟨_, rfl⟩

theorem queryBinaryType_fst (h : schemaId ≠ 0) :
    (cl.queryBinaryType typeId schemaId).1 = .ofClass (cl.classFor typeId schemaId) := by
  have hget : ∀ cl : Client, cl.getFromRegistry typeId schemaId =
      .ofClass ((cl.registry typeId).lookup schemaId) := by
    intro cl
    rw [getFromRegistry, if_pos h]
    cases (cl.registry typeId).lookup schemaId <;> rfl
  unfold queryBinaryType
  simp only [hget, lookup_syncBinaryRegistry]
  cases hc : (cl.registry typeId).lookup schemaId with
  | some c => simp [Lookup.ofClass, Lookup.truthy, classFor, hc]
  | none => simp [Lookup.ofClass, Lookup.truthy]

end Client

/-! ### Parsers -/

/-- The stream of a client, and at the same place of the same buffer one of a client that knows
the classes `known` and asks no server. -/
structure Beside [Python] (cl known : Client) (s t : BinaryStream) : Prop where
  buf : s.buf = t.buf
  pos : s.pos = t.pos
  emptyView : s.emptyView = t.emptyView
  footer : s.client.rawCompactFooter = t.client.rawCompactFooter
  classFor : s.client.classFor = cl.classFor
  remote : s.client.remote = cl.remote
  registry : t.client.registry = known.registry
  alone : t.client.remote = fun _ => []

/-- For what is known to `known`, the client finds classes with the same schemas. -/
def Client.Covers [Python] (cl known : Client) : Prop :=
  ∀ typeId k c, k ≠ 0 → (known.registry typeId).lookup k = some c →
    ∃ c', cl.classFor typeId k = some c' ∧ c'.schema = c.schema

section Parsers
variable [Python] {cl known : Client} {α : Type}

/-- The action gives the same on both streams. -/
abbrev Same (cl known : Client) (m : StreamM α) : Prop := Tracks (Beside cl known) Eq m m

variable {rec : DataType → StreamM Layout}

theorem Beside.exported {s t : BinaryStream} (h : Beside cl known s t) :
    Beside cl known s.exported t.exported :=
  ⟨h.buf, h.pos, congrArg List.isEmpty h.buf, h.footer, h.classFor, h.remote, h.registry, h.alone⟩

theorem Same.bind {β : Type} {m : StreamM α} {f : α → StreamM β} (hm : Same cl known m)
    (hf : ∀ a, Same cl known (f a)) : Same cl known (m >>= f) :=
  Tracks.bind hm fun a _ hab => hab ▸ hf a

theorem same_raise (exc : Exc) (message : String) :
    Same cl known (StreamM.raise exc message : StreamM α) := .raising fun _ => rfl

theorem same_ofOption (x : Option α) (exc : Exc) : Same cl known (ofOption x exc) := by
  cases x with
  | none => exact same_raise _ _
  | some a => exact .pure rfl

theorem same_tell : Same cl known tell := fun _ _ h => .ok ⟨h.pos, h⟩

theorem same_seekCur (n : ℕ) : Same cl known (seekCur n) := fun _ _ h =>
  .ok ⟨rfl, h.buf, congrArg (· + n) h.pos, h.emptyView, h.footer, h.classFor, h.remote, h.registry,
    h.alone⟩

theorem same_slice (start offset : ℕ) : Same cl known (slice start offset) := by
  intro s t h
  exact .ok ⟨by rw [h.buf], h.exported⟩

theorem same_peek (n : ℕ) : Same cl known (peek n) := by
  intro s t h
  exact .ok ⟨by rw [h.buf, h.pos], h.exported⟩

theorem same_readForward (c : Layout) : Same cl known (readForward c) := by
  intro s t h
  unfold readForward
  rw [h.buf, h.pos]
  cases fromBufferCopy c (pySlice t.buf t.pos (t.pos + c.size)) with
  | none => exact .error _ _
  | some o => exact .ok ⟨rfl, h.exported⟩

theorem same_seekPast (c : Layout) : Same cl known (seekPast c) :=
  (same_seekCur _).bind fun _ => .pure rfl

theorem same_peekLength (off : ℕ) : Same cl known (peekLength off) :=
  same_tell.bind fun _ => (same_slice _ _).bind fun _ => .pure rfl

theorem same_setCompactFooter (value : Bool) : Same cl known (setCompactFooter value) := by
  intro s t h
  unfold setCompactFooter
  rw [h.footer]
  cases ht : t.client.rawCompactFooter with
  | none =>
    have hclass : Client.classFor { s.client with rawCompactFooter := some value } = cl.classFor :=
      h.classFor
    exact .ok ⟨rfl, h.buf, h.pos, h.emptyView, rfl, hclass, h.remote, h.registry, h.alone⟩
  | some b =>
    dsimp only
    split_ifs
    · exact .ok ⟨rfl, h⟩
    · exact .error _ _

/-- A schema id of zero finds a dict, which has no schema. -/
theorem getDataclass_zero (typeId : ℤ) (s : BinaryStream) :
    ∃ e, getDataclass typeId 0 s = .error e := by
  have hrun : StreamM.queryBinaryType typeId 0 s =
      .ok ((s.client.queryBinaryType typeId 0).1,
        { s with client := (s.client.queryBinaryType typeId 0).2 }) := rfl
  obtain ⟨d, hd⟩ := s.client.queryBinaryType_zero typeId
  rw [getDataclass, bind_ok hrun, hd]
  dsimp only
  split_ifs
  · exact ⟨_, rfl⟩
  · exact ⟨_, rfl⟩

theorem getDataclass_eq {schemaId : ℤ} (h : schemaId ≠ 0) (typeId : ℤ) (s : BinaryStream) :
    getDataclass typeId schemaId s =
      match s.client.classFor typeId schemaId with
      | some c => .ok (c, { s with client := (s.client.queryBinaryType typeId schemaId).2 })
      | none => PyGridGain.raise .runtimeError "Binary type is not registered" := by
  have hrun : StreamM.queryBinaryType typeId schemaId s =
      .ok ((s.client.queryBinaryType typeId schemaId).1,
        { s with client := (s.client.queryBinaryType typeId schemaId).2 }) := rfl
  rw [getDataclass, bind_ok hrun, Client.queryBinaryType_fst h]
  cases s.client.classFor typeId schemaId with
  | none => rfl
  | some c => rfl

/-- A class is found with the schema of the one that is known. -/
theorem tracks_getDataclass (hcovers : cl.Covers known) (typeId schemaId : ℤ) :
    Tracks (Beside cl known) (fun c c' => c.schema = c'.schema) (getDataclass typeId schemaId)
      (getDataclass typeId schemaId) := by
  intro s t h
  by_cases h0 : schemaId = 0
  · subst h0
    obtain ⟨e, he⟩ := getDataclass_zero typeId t
    rw [he]
    exact .error _ e
  · have hlookup : t.client.classFor typeId schemaId =
        (known.registry typeId).lookup schemaId := by
      rw [Client.classFor, h.registry, h.alone]
      simp
    have hclient : (t.client.queryBinaryType typeId schemaId).2 = t.client := by
      rcases t.client.queryBinaryType_snd typeId schemaId with heq | heq <;> rw [heq]
      rw [Client.syncBinaryRegistry, h.alone]
      rfl
    rw [getDataclass_eq h0, getDataclass_eq h0, hlookup, hclient, h.classFor]
    cases hknown : (known.registry typeId).lookup schemaId with
    | none => exact .error _ _
    | some c =>
      obtain ⟨c', hc', hschema⟩ := hcovers typeId schemaId c h0 hknown
      rw [hc']
      obtain ⟨hremote, hraw⟩ := s.client.queryBinaryType_frame typeId schemaId
      exact .ok ⟨hschema, h.buf, h.pos, h.emptyView, hraw.trans h.footer,
        (s.client.classFor_queryBinaryType typeId schemaId).trans h.classFor,
        hremote.trans h.remote, h.registry, h.alone⟩

theorem same_parseElements {p : StreamM Layout} (hp : Same cl known p) (n : ℕ) :
    ∀ i, Same cl known (parseElements p i n) := by
  induction n with
  | zero => exact fun _ => .pure rfl
  | succ n ih => exact fun i => hp.bind fun _ => (ih (i + 1)).bind fun _ => .pure rfl

theorem same_parseArray (off : ℕ) (header : List (FieldName × Layout)) (count : ℕ → ℕ)
    {p : StreamM Layout} (hp : Same cl known p) : Same cl known (parseArray off header count p) :=
  (same_peekLength off).bind fun _ => (same_seekCur _).bind fun _ =>
    (same_parseElements hp _ 0).bind fun _ => .pure rfl

theorem same_nullable {p : StreamM Layout} (hp : Same cl known p) : Same cl known (nullable p) := by
  refine (same_peek 1).bind fun code => ?_
  split_ifs
  · exact same_seekPast _
  · exact hp

theorem same_anyParse (hrec : ∀ t, Same cl known (rec t)) : Same cl known (anyParse rec) := by
  refine (same_peek 1).bind fun code => ?_
  split
  · split
    · exact hrec _
    · exact same_raise _ _
  · exact same_raise _ _

theorem same_parseFields (hrec : ∀ t, Same cl known (rec t)) (fields : List (PyStr × DataType)) :
    Same cl known (parseFields rec fields) := by
  induction fields with
  | nil => exact .pure rfl
  | cons f fields ih => exact (hrec f.2).bind fun _ => ih.bind fun _ => .pure rfl

theorem same_parseBinary (hcovers : cl.Covers known) (hrec : ∀ t, Same cl known (rec t)) :
    Same cl known (parseBinary rec) := by
  refine (same_readForward _).bind fun header => (same_seekCur _).bind fun _ => ?_
  refine (same_ofOption _ _).bind fun flags => (same_ofOption _ _).bind fun typeId => ?_
  refine (same_ofOption _ _).bind fun schemaId => ?_
  refine Tracks.bind (tracks_getDataclass hcovers typeId schemaId) fun c c' hschema => ?_
  rw [hschema]
  refine (same_parseFields hrec _).bind fun fields => ?_
  split_ifs
  · exact (same_seekCur _).bind fun _ => (same_setCompactFooter _).bind fun _ => .pure rfl
  · exact (same_setCompactFooter _).bind fun _ => .pure rfl

theorem same_decimalObject : Same cl known DecimalObject.parseNotNull :=
  (same_peekLength _).bind fun _ => same_seekPast _

theorem same_otherType (t : OtherType) : Same cl known t.parseNotNull := by
  cases t with
  | decimalObject => exact same_decimalObject
  | floatArrayObject | doubleArrayObject | charArrayObject | wrappedDataObject =>
    exact (same_peekLength 1).bind fun _ => same_seekPast _
  | dateArrayObject | timestampArrayObject | timeArrayObject | enumArrayObject =>
    exact same_parseArray _ _ _ (same_nullable (same_seekPast _))
  | decimalArrayObject => exact same_parseArray _ _ _ (same_nullable same_decimalObject)
  | _ => exact same_seekPast _

/-- The other classes are parsed without the client. -/
class ParsedApart [OtherCodecs] : Prop where
  parses : ∀ (cl known : Client) t, Same cl known (OtherCodecs.codec t).parseNotNull

instance [Machine] : @ParsedApart _ allClasses :=
  @ParsedApart.mk _ allClasses fun _ _ => same_otherType

variable [OtherCodecs] [ParsedApart]

theorem same_parseNotNull (hcovers : cl.Covers known) (hrec : ∀ t, Same cl known (rec t))
    (t : DataType) : Same cl known (parseNotNull rec t) := by
  cases t with
  | string | byteArrayObject | shortArrayObject | intArrayObject | longArrayObject
  | boolArrayObject => exact (same_peekLength 1).bind fun _ => same_seekPast _
  | stringArrayObject => exact same_parseArray _ _ _ (hrec .string)
  | uuidArrayObject => exact same_parseArray _ _ _ (hrec .uuidObject)
  | objectArrayObject | collectionObject | mapObject =>
    exact same_parseArray _ _ _ (same_anyParse hrec)
  | binaryObject => exact same_parseBinary hcovers hrec
  | other t => exact ParsedApart.parses cl known t
  | _ => exact same_seekPast _

theorem same_parseN (hcovers : cl.Covers known) (n : ℕ) (t : DataType) :
    Same cl known (parseN n t) := by
  induction n generalizing t with
  | zero => exact .raising fun _ => rfl
  | succ n ih =>
    have hnotNull := same_parseNotNull hcovers ih t
    by_cases ht : t = .null
    · subst ht
      exact same_seekPast _
    · have hbody : parseN (n + 1) t = peek 1 >>= fun code =>
          if code = [TC_NULL] then seekPast nullLayout else parseNotNull (parseN n) t := by
        cases t <;> first | exact absurd rfl ht | rfl
      rw [hbody]
      exact same_nullable hnotNull

theorem same_anyDataObject (hcovers : cl.Covers known) : Same cl known AnyDataObject.parse := by
  intro s t h
  unfold AnyDataObject.parse
  rw [h.buf]
  exact same_anyParse (same_parseN hcovers _) s t h

end Parsers

end PyGridGain
