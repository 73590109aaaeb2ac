import PyGridGain.Client.BinaryTypes
import PyGridGain.Lib.Runs

/-! The registry of Complex object classes. One function looks up a class by its schema and
all classes of a type, and it tells the two apart by the truth value of the schema. -/

namespace PyGridGain

/-- The answer to `get_binary_type`: an error status, no such type, or a description. -/
inductive TypeReply
  | error
  | missing
  | found (d : BinaryType)

/-- A schema that is given as an id or as a dict. -/
inductive SchemaArg
  | id (schemaId : ℤ)
  | dict (schema : List (PyStr × DataType))

/-- Python's truth value. -/
def SchemaArg.isTrue : SchemaArg → Bool
  | .id schemaId => schemaId ≠ 0
  | .dict schema => !schema.isEmpty

/-- `schema_id(schema)`. -/
def SchemaArg.schemaId [Python] : SchemaArg → ℤ
  | .id schemaId => schemaId
  | .dict schema => PyGridGain.schemaId schema

/-- `_registry`, and the classes that were stored in it so far, by type id and schema id,
the last first. -/
structure ClassRegistry where
  registry : ℤ → List (ℤ × DataClass)
  stored : List ((ℤ × ℤ) × DataClass)

/-- The result of a lookup for one schema. -/
def Lookup.ofClass : Option DataClass → Lookup
  | some c => .dataClass c
  | Option.none => .none

namespace ClassRegistry

def init : ClassRegistry := ⟨fun _ => [], []⟩

/-- The classes created in a sync, added to what was stored. -/
def store (typeId : ℤ) (stored : List ((ℤ × ℤ) × DataClass)) :
    List (ℤ × DataClass) → List ((ℤ × ℤ) × DataClass) :=
  List.foldl (fun stored c => ((typeId, c.1), c.2) :: stored) stored

section Calls
variable [Python]

/-- `_get_from_registry`. -/
def getFromRegistry (s : ClassRegistry) (typeId : ℤ) : Option SchemaArg → Lookup
  | some schema =>
    if schema.isTrue then .ofClass ((s.registry typeId).lookup schema.schemaId)
    else .dict (s.registry typeId)
  | none => .dict (s.registry typeId)

/-- `get_binary_type` and `_sync_binary_registry`; `none` if an exception is raised. -/
def syncBinaryRegistry (s : ClassRegistry) (typeId : ℤ) : TypeReply → Option ClassRegistry
  | .error => none
  | .missing => some s
  | .found d => d.schemas.map fun schemas =>
    let (created, classes) := syncSchemas d.typeName schemas (s.registry typeId)
    ⟨Function.update s.registry typeId classes,
      store typeId s.stored ((created.filterMap id).map fun c => (c.schemaId, c))⟩

/-- `query_binary_type`, for the type id of a type; `none` if an exception is raised. -/
def queryBinaryType (s : ClassRegistry) (typeId : ℤ) (schema : Option SchemaArg)
    (reply : TypeReply) : Option Lookup × ClassRegistry :=
  let result := s.getFromRegistry typeId schema
  if result.truthy then (some result, s)
  else
    match s.syncBinaryRegistry typeId reply with
    | none => (none, s)
    | some s => (some (s.getFromRegistry typeId schema), s)

/-- `register_binary_type`. The class is not stored if the query or `put_binary_type`
(`put`) raises. -/
def registerBinaryType (s : ClassRegistry) (c : DataClass) (reply : TypeReply) (put : Bool) :
    ClassRegistry :=
  match s.queryBinaryType c.typeId (some (.id c.schemaId)) reply with
  | (none, s) => s
  | (some result, s) =>
    if result.truthy || put then
      ⟨Function.update s.registry c.typeId (dictSet (s.registry c.typeId) c.schemaId c),
        ((c.typeId, c.schemaId), c) :: s.stored⟩
    else s

/-- `get_dataclass`, of a header with these ids; `none` if an exception is raised. -/
def getDataclass (s : ClassRegistry) (typeId schemaId : ℤ) (reply : TypeReply) :
    Option Lookup × ClassRegistry :=
  match s.queryBinaryType typeId (some (.id schemaId)) reply with
  | (none, s) => (none, s)
  | (some result, s) => if result.truthy then (some result, s) else (none, s)

end Calls

end ClassRegistry

inductive RegistryCall
  | query (typeId : ℤ) (schema : Option SchemaArg) (reply : TypeReply)
  | register (c : DataClass) (reply : TypeReply) (put : Bool)
  | getDataclass (typeId schemaId : ℤ) (reply : TypeReply)

def ClassRegistry.step [Python] (s : ClassRegistry) : RegistryCall → Option ClassRegistry
  | .query typeId schema reply => some (s.queryBinaryType typeId schema reply).2
  | .register c reply put => some (s.registerBinaryType c reply put)
  | .getDataclass typeId schemaId reply => some (s.getDataclass typeId schemaId reply).2

/-- A lookup with a schema gives the class last stored for the type id and the schema id or
`None`, and registering another pair does not change it, if the answer of the server about
the type is the same. -/
structure LookupLaw [Python] (s : ClassRegistry) (typeId : ℤ) (schema : SchemaArg) : Prop where
  query : ∀ reply result s', s.queryBinaryType typeId (some schema) reply = (some result, s') →
    result = .ofClass (s'.stored.lookup (typeId, schema.schemaId))
  register : ∀ c put reply reply', (c.typeId, c.schemaId) ≠ (typeId, schema.schemaId) →
    (c.typeId = typeId → (s.stored.lookup (typeId, schema.schemaId)).isSome = false →
      reply' = reply) →
    ((s.registerBinaryType c reply put).queryBinaryType typeId (some schema) reply').1 =
      (s.queryBinaryType typeId (some schema) reply').1

/-- What `get_dataclass` returns is a class with the schema id of the header. -/
def HeaderLaw [Python] (s : ClassRegistry) (typeId schemaId : ℤ) : Prop :=
  ∀ reply result s', s.getDataclass typeId schemaId reply = (some result, s') →
    ∃ c, result = .dataClass c ∧ c.schemaId = schemaId

section Sync
variable [Python] {typeName : PyStr}

/-- What a sync leaves under an id: what was there, or the class of the first schema. -/
theorem lookup_synced (schemas : List (List (PyStr × DataType))) (classes : List (ℤ × DataClass))
    (k : ℤ) : (syncSchemas typeName schemas classes).2.lookup k =
      (classes.lookup k).or
        ((schemas.find? fun schema => schemaId schema = k).map (createDataclass typeName)) := by
  induction schemas generalizing classes with
  | nil => simp [syncSchemas]
  | cons schema schemas ih =>
    unfold syncSchemas
    split
    case h_1 c hc =>
      dsimp only
      rw [ih]
      by_cases hk : schemaId schema = k
      · rw [← hk, hc]
        rfl
      · rw [List.find?_cons_of_neg (by simpa using hk)]
    case h_2 hc =>
      dsimp only
      rw [ih, lookup_dictSet]
      by_cases hk : schemaId schema = k
      · rw [if_pos hk.symm, ← hk, hc, List.find?_cons_of_pos (by simp)]
        rfl
      · rw [if_neg (Ne.symm hk), List.find?_cons_of_neg (by simpa using hk)]

/-- The classes created are what was stored last under their ids. -/
theorem lookup_store_synced {typeId : ℤ} (schemas : List (List (PyStr × DataType)))
    {classes : List (ℤ × DataClass)} {stored : List ((ℤ × ℤ) × DataClass)}
    (h : ∀ k, classes.lookup k = stored.lookup (typeId, k)) (k : ℤ) :
    (syncSchemas typeName schemas classes).2.lookup k =
      (ClassRegistry.store typeId stored
        (((syncSchemas typeName schemas classes).1.filterMap id).map fun c =>
          (c.schemaId, c))).lookup (typeId, k) := by
  induction schemas generalizing classes stored with
  | nil => exact h k
  | cons schema schemas ih =>
    unfold syncSchemas
    split
    case h_1 c hc => exact ih h
    case h_2 hc =>
      have hstored : ∀ k, (dictSet classes (schemaId schema) (createDataclass typeName schema)).lookup
          k = (((typeId, schemaId schema), createDataclass typeName schema) :: stored).lookup
            (typeId, k) := by
        intro k
        rw [lookup_dictSet, lookup_cons_if, h]
        simp
      exact ih hstored

omit [Python] in
/-- A sync stores nothing for other types. -/
theorem lookup_store_of_ne {typeId typeId' : ℤ} (hne : typeId' ≠ typeId)
    (stored : List ((ℤ × ℤ) × DataClass)) (cs : List (ℤ × DataClass)) (k : ℤ) :
    (ClassRegistry.store typeId stored cs).lookup (typeId', k) = stored.lookup (typeId', k) := by
  unfold ClassRegistry.store
  induction cs generalizing stored with
  | nil => rfl
  | cons c cs ih =>
    rw [List.foldl_cons, ih, lookup_cons_if, if_neg (by simp [hne])]

end Sync

namespace ClassRegistry

section Invariant
variable [Python] {s t : ClassRegistry} {typeId k : ℤ} {schema : SchemaArg}

/-- The invariant: under each id is what was stored last, and it has that id. -/
structure Consistent (s : ClassRegistry) : Prop where
  last : ∀ typeId k, (s.registry typeId).lookup k = s.stored.lookup (typeId, k)
  ids : ∀ typeId k c, (s.registry typeId).lookup k = some c → c.schemaId = k

theorem Consistent.init : init.Consistent := ⟨fun _ _ => rfl, fun _ _ _ h => by cases h⟩

/-- What a sync with the answer `reply` leaves for a schema id that was absent; `none` if it
raises. -/
def described (reply : TypeReply) (k : ℤ) : Option (Option DataClass) :=
  match reply with
  | .error => none
  | .missing => some none
  | .found d => d.schemas.map fun schemas =>
    (schemas.find? fun schema => PyGridGain.schemaId schema = k).map (createDataclass d.typeName)

theorem syncBinaryRegistry_lookup {reply : TypeReply}
    (h : s.syncBinaryRegistry typeId reply = some t) :
    (∀ k, ∃ c, described reply k = some c ∧
      (t.registry typeId).lookup k = ((s.registry typeId).lookup k).or c) ∧
    ∀ typeId' k, typeId' ≠ typeId → t.registry typeId' = s.registry typeId' ∧
      t.stored.lookup (typeId', k) = s.stored.lookup (typeId', k) := by
  cases reply with
  | error => cases h
  | missing =>
    obtain rfl := Option.some.inj h
    exact ⟨fun k => ⟨none, rfl, by simp⟩, fun _ _ _ => ⟨rfl, rfl⟩⟩
  | found d =>
    obtain ⟨schemas, hschemas, rfl⟩ := Option.map_eq_some_iff.mp h
    refine ⟨fun k => ⟨_, by rw [described, hschemas]; rfl, ?_⟩, fun typeId' k hne => ⟨?_, ?_⟩⟩
    · simp only [Function.update_self]
      exact lookup_synced schemas (s.registry typeId) k
    · exact Function.update_of_ne hne _ _
    · exact lookup_store_of_ne hne _ _ k

theorem syncBinaryRegistry_eq_none {reply : TypeReply} :
    s.syncBinaryRegistry typeId reply = none ↔ ∀ k, described reply k = none := by
  cases reply with
  | error => simp [syncBinaryRegistry, described]
  | missing => simp [syncBinaryRegistry, described]
  | found d => simp [syncBinaryRegistry, described]

theorem described_id {reply : TypeReply} {c : DataClass} (h : described reply k = some (some c)) :
    c.schemaId = k := by
  cases reply with
  | error => cases h
  | missing => cases h
  | found d =>
    obtain ⟨schemas, -, hfind⟩ := Option.map_eq_some_iff.mp h
    obtain ⟨schema, hschema, rfl⟩ := Option.map_eq_some_iff.mp hfind
    have hid : PyGridGain.schemaId schema = k := by simpa using List.find?_some hschema
    exact hid

theorem Consistent.sync (hs : s.Consistent) {reply : TypeReply}
    (h : s.syncBinaryRegistry typeId reply = some t) : t.Consistent := by
  obtain ⟨hsame, hother⟩ := syncBinaryRegistry_lookup h
  constructor
  · intro typeId' k
    by_cases hne : typeId' = typeId
    · subst hne
      cases reply with
      | error => cases h
      | missing =>
        obtain rfl := Option.some.inj h
        exact hs.last typeId' k
      | found d =>
        obtain ⟨schemas, -, rfl⟩ := Option.map_eq_some_iff.mp h
        simp only [Function.update_self]
        exact lookup_store_synced schemas (hs.last typeId') k
    · rw [(hother typeId' k hne).1, (hother typeId' k hne).2, hs.last]
  · intro typeId' k c hc
    by_cases hne : typeId' = typeId
    · subst hne
      obtain ⟨c', hc', hlookup⟩ := hsame k
      rw [hlookup] at hc
      rcases Option.or_eq_some_iff.mp hc with hc | ⟨-, hc⟩
      · exact hs.ids typeId' k c hc
      · exact described_id (hc'.trans (congrArg some hc))
    · rw [(hother typeId' k hne).1] at hc
      exact hs.ids typeId' k c hc

theorem query_cases (s : ClassRegistry) (typeId : ℤ) (schema : Option SchemaArg)
    (reply : TypeReply) :
    s.queryBinaryType typeId schema reply = (some (s.getFromRegistry typeId schema), s) ∨
    s.queryBinaryType typeId schema reply = (none, s) ∨
    ∃ t, s.syncBinaryRegistry typeId reply = some t ∧
      s.queryBinaryType typeId schema reply = (some (t.getFromRegistry typeId schema), t) := by
  unfold queryBinaryType
  dsimp only
  split_ifs
  · exact Or.inl rfl
  · cases h : s.syncBinaryRegistry typeId reply with
    | none => exact Or.inr (Or.inl rfl)
    | some t => exact Or.inr (Or.inr ⟨t, rfl, rfl⟩)

theorem Consistent.query (hs : s.Consistent) (typeId : ℤ) (schema : Option SchemaArg)
    (reply : TypeReply) : (s.queryBinaryType typeId schema reply).2.Consistent := by
  obtain h | h | ⟨t, hsync, h⟩ := query_cases s typeId schema reply <;> rw [h]
  · exact hs
  · exact hs
  · exact hs.sync hsync

theorem Consistent.set (hs : s.Consistent) (c : DataClass) : Consistent
    ⟨Function.update s.registry c.typeId (dictSet (s.registry c.typeId) c.schemaId c),
      ((c.typeId, c.schemaId), c) :: s.stored⟩ := by
  constructor
  · intro typeId k
    rw [lookup_cons_if]
    dsimp only
    by_cases hne : typeId = c.typeId
    · subst hne
      simp only [Function.update_self, lookup_dictSet, hs.last, Prod.mk.injEq, true_and]
    · rw [Function.update_of_ne hne, hs.last, if_neg (by simp [hne])]
  · intro typeId k c' hc'
    by_cases hne : typeId = c.typeId
    · subst hne
      simp only [Function.update_self, lookup_dictSet] at hc'
      split_ifs at hc' with hk
      · rw [← Option.some.inj hc', hk]
      · exact hs.ids c.typeId k c' hc'
    · simp only [Function.update_of_ne hne] at hc'
      exact hs.ids typeId k c' hc'

theorem Consistent.register (hs : s.Consistent) (c : DataClass) (reply : TypeReply) (put : Bool) :
    (s.registerBinaryType c reply put).Consistent := by
  have hq := hs.query c.typeId (some (.id c.schemaId)) reply
  unfold registerBinaryType
  cases h : s.queryBinaryType c.typeId (some (.id c.schemaId)) reply with
  | mk result t =>
    rw [h] at hq
    cases result with
    | none => exact hq
    | some result =>
      dsimp only
      split_ifs
      · exact hq.set c
      · exact hq

theorem Consistent.step (hs : s.Consistent) {a : RegistryCall} (h : s.step a = some t) :
    t.Consistent := by
  cases a with
  | query typeId schema reply =>
    obtain rfl := Option.some.inj h
    exact hs.query typeId schema reply
  | register c reply put =>
    obtain rfl := Option.some.inj h
    exact hs.register c reply put
  | getDataclass typeId schemaId reply =>
    obtain rfl := Option.some.inj h
    have hq := hs.query typeId (some (.id schemaId)) reply
    unfold getDataclass
    cases hresult : s.queryBinaryType typeId (some (.id schemaId)) reply with
    | mk result t =>
      rw [hresult] at hq
      cases result with
      | none => exact hq
      | some result =>
        dsimp only
        split_ifs <;> exact hq

/-- A lookup with a true schema: what is there, or what the server describes. -/
theorem query_of_isTrue (hschema : schema.isTrue) (reply : TypeReply) :
    (s.queryBinaryType typeId (some schema) reply).1 =
      match (s.registry typeId).lookup schema.schemaId with
      | some c => some (.dataClass c)
      | none => (described reply schema.schemaId).map Lookup.ofClass := by
  unfold queryBinaryType getFromRegistry
  simp only [hschema, if_true]
  cases hlookup : (s.registry typeId).lookup schema.schemaId with
  | some c => rfl
  | none =>
    cases hsync : s.syncBinaryRegistry typeId reply with
    | none =>
      rw [syncBinaryRegistry_eq_none.mp hsync schema.schemaId]
      rfl
    | some t =>
      obtain ⟨c, hc, ht⟩ := (syncBinaryRegistry_lookup hsync).1 schema.schemaId
      rw [hlookup] at ht
      simp [hc, ht, Lookup.ofClass, Lookup.truthy]

/-- With a false schema, all classes of the type are looked up. -/
theorem getFromRegistry_of_false (hschema : schema.isTrue = false) :
    s.getFromRegistry typeId (some schema) = .dict (s.registry typeId) := by
  simp [getFromRegistry, hschema]

theorem query_missing (s : ClassRegistry) (typeId : ℤ) (schema : Option SchemaArg) :
    s.queryBinaryType typeId schema .missing = (some (s.getFromRegistry typeId schema), s) := by
  unfold queryBinaryType
  dsimp only
  split_ifs <;> rfl

/-- What is registered under another pair is left, unless the query before created it. -/
theorem register_lookup {c : DataClass} (hne : (c.typeId, c.schemaId) ≠ (typeId, k))
    (reply : TypeReply) (put : Bool) :
    ((s.registerBinaryType c reply put).registry typeId).lookup k = (s.registry typeId).lookup k ∨
    c.typeId = typeId ∧ ∃ x, described reply k = some x ∧
      ((s.registerBinaryType c reply put).registry typeId).lookup k =
        ((s.registry typeId).lookup k).or x := by
  have hset : ∀ t : ClassRegistry, (Function.update t.registry c.typeId
      (dictSet (t.registry c.typeId) c.schemaId c) typeId).lookup k =
        (t.registry typeId).lookup k := by
    intro t
    by_cases htype : typeId = c.typeId
    · subst htype
      rw [Function.update_self, lookup_dictSet, if_neg fun h => hne (by rw [h])]
    · rw [Function.update_of_ne htype]
  have hregister : ∀ result t,
      s.queryBinaryType c.typeId (some (.id c.schemaId)) reply = (result, t) →
      ((s.registerBinaryType c reply put).registry typeId).lookup k =
        (t.registry typeId).lookup k := by
    intro result t h
    unfold registerBinaryType
    rw [h]
    cases result with
    | none => rfl
    | some result =>
      dsimp only
      split_ifs
      · exact hset t
      · rfl
  obtain h | h | ⟨t, hsync, h⟩ := query_cases s c.typeId (some (.id c.schemaId)) reply
  · exact Or.inl (hregister _ _ h)
  · exact Or.inl (hregister _ _ h)
  · rw [hregister _ _ h]
    obtain ⟨hsame, hother⟩ := syncBinaryRegistry_lookup hsync
    by_cases htype : typeId = c.typeId
    · subst htype
      obtain ⟨x, hx, hlookup⟩ := hsame k
      exact Or.inr ⟨rfl, x, hx, hlookup⟩
    · exact Or.inl (by rw [(hother typeId k htype).1])

/-- The law holds of a schema exactly if it is true. -/
theorem Consistent.lookupLaw_iff (hs : s.Consistent) :
    LookupLaw s typeId schema ↔ schema.isTrue := by
  constructor
  · intro h
    by_contra hfalse
    have hdict := h.query .missing _ s (query_missing s typeId (some schema))
    rw [getFromRegistry_of_false (by simpa using hfalse)] at hdict
    cases hlast : s.stored.lookup (typeId, schema.schemaId) <;> rw [hlast] at hdict <;> cases hdict
  · intro htrue
    constructor
    · intro reply result s' hquery
      have hs' := hs.query typeId (some schema) reply
      rw [hquery] at hs'
      have hresult : result = s'.getFromRegistry typeId (some schema) := by
        obtain h | h | ⟨t, -, h⟩ := query_cases s typeId (some schema) reply <;>
          rw [hquery] at h <;> cases h <;> rfl
      rw [hresult, getFromRegistry, if_pos htrue, hs'.last]
    · intro c put reply reply' hne hreply
      rw [query_of_isTrue htrue, query_of_isTrue htrue]
      rcases register_lookup hne reply put with hlookup | ⟨htype, x, hx, hlookup⟩ <;> rw [hlookup]
      cases hthere : (s.registry typeId).lookup schema.schemaId with
      | some c' => rfl
      | none =>
        rw [hs.last] at hthere
        rw [hreply htype (by rw [hthere]; rfl), hx]
        cases x <;> rfl

/-- A header gets a class of its schema id exactly if that is not 0. -/
theorem Consistent.headerLaw_iff (hs : s.Consistent) {schemaId : ℤ} :
    HeaderLaw s typeId schemaId ↔ schemaId ≠ 0 := by
  constructor
  · rintro h rfl
    let d : BinaryType := ⟨[], [], [(0, [])], by simp⟩
    have hget : ∀ t : ClassRegistry,
        t.getFromRegistry typeId (some (.id 0)) = .dict (t.registry typeId) := fun t =>
      getFromRegistry_of_false rfl
    obtain ⟨classes, t, hdict⟩ : ∃ classes t,
        s.getDataclass typeId 0 (.found d) = (some (.dict classes), t) := by
      by_cases hnil : s.registry typeId = []
      · obtain ⟨t, ht⟩ : ∃ t, s.syncBinaryRegistry typeId (.found d) = some t := ⟨_, rfl⟩
        obtain ⟨x, hx, hlookup⟩ := (syncBinaryRegistry_lookup ht).1 0
        have hne : t.registry typeId ≠ [] := by
          intro ht0
          obtain rfl := Option.some.inj hx
          rw [ht0, hnil] at hlookup
          cases hlookup
        refine ⟨t.registry typeId, t, ?_⟩
        simp [getDataclass, queryBinaryType, hget, ht, Lookup.truthy, hnil, hne]
      · refine ⟨s.registry typeId, s, ?_⟩
        simp [getDataclass, queryBinaryType, hget, Lookup.truthy, hnil]
    obtain ⟨c, hc, -⟩ := h _ _ t hdict
    cases hc
  · intro hne reply result s' h
    have htrue : (SchemaArg.id schemaId).isTrue := by simpa [SchemaArg.isTrue] using hne
    have hs' := hs.query typeId (some (.id schemaId)) reply
    unfold getDataclass at h
    cases hquery : s.queryBinaryType typeId (some (.id schemaId)) reply with
    | mk r t =>
      rw [hquery] at h hs'
      cases r with
      | none => cases h
      | some r =>
        dsimp only at h
        split_ifs at h with htruthy
        · obtain ⟨rfl, rfl⟩ : r = result ∧ t = s' := by simpa using h
          have hr := (hs.lookupLaw_iff.mpr htrue).query reply r t hquery
          rw [← hs'.last] at hr
          cases hc : (t.registry typeId).lookup schemaId with
          | none =>
            rw [SchemaArg.schemaId, hc] at hr
            rw [hr] at htruthy
            cases htruthy
          | some c =>
            rw [SchemaArg.schemaId, hc] at hr
            exact ⟨c, hr, hs'.ids typeId schemaId c hc⟩
        · cases h

end Invariant

/-- The client of a stream, whose server describes the type by `d`. -/
theorem queryBinaryType_client [Python] {cl : Client} {typeId : ℤ} {d : BinaryType}
    {schemas : List (List (PyStr × DataType))} (hschemas : d.schemas = some schemas)
    (hremote : cl.remote typeId = schemas.map (createDataclass d.typeName))
    (stored : List ((ℤ × ℤ) × DataClass)) (schemaId : ℤ) :
    ∃ stored', queryBinaryType ⟨cl.registry, stored⟩ typeId (some (.id schemaId)) (.found d) =
      (some (cl.queryBinaryType typeId schemaId).1,
        ⟨(cl.queryBinaryType typeId schemaId).2.registry, stored'⟩) := by
  have hget : ∀ (cl : Client) stored, getFromRegistry ⟨cl.registry, stored⟩ typeId
      (some (.id schemaId)) = cl.getFromRegistry typeId schemaId := by
    intro cl stored
    unfold getFromRegistry Client.getFromRegistry
    by_cases h0 : schemaId = 0
    · simp [h0, SchemaArg.isTrue]
    · simp only [SchemaArg.isTrue, SchemaArg.schemaId, h0, ne_eq, not_false_eq_true, decide_true,
        if_true]
      cases (cl.registry typeId).lookup schemaId <;> rfl
  obtain ⟨stored', hsync⟩ : ∃ stored', syncBinaryRegistry ⟨cl.registry, stored⟩ typeId (.found d) =
      some ⟨(cl.syncBinaryRegistry typeId).registry, stored'⟩ := by
    rw [syncBinaryRegistry_registry hremote, syncBinaryRegistry, hschemas]
    exact ⟨_, rfl⟩
  unfold queryBinaryType Client.queryBinaryType
  simp only [hget, hsync]
  split_ifs
  · exact ⟨stored, rfl⟩
  · exact ⟨stored', rfl⟩

end ClassRegistry

/-- In every run, a lookup with a schema gives the class last stored for exactly that type
id and schema id, or `None`, unless the schema is empty or the id 0; these never do. -/
theorem registry_lookup_iff [Python] {as : List RegistryCall} {s : ClassRegistry}
    (hrun : run ClassRegistry.step ClassRegistry.init as = some s) :
    (∀ typeId schema, LookupLaw s typeId schema ↔ schema.isTrue) ∧
    ∀ typeId schemaId, HeaderLaw s typeId schemaId ↔ schemaId ≠ 0 := by
  have hs : s.Consistent :=
    run_invariant (fun _ _ _ hs ht => hs.step ht) ClassRegistry.Consistent.init hrun
  exact ⟨fun _ _ => hs.lookupLaw_iff, fun _ _ => hs.headerLaw_iff⟩

/-- A class is synthesized, and another of the same type registered. -/
theorem registry_lookup_iff_two :
    letI := asciiLower
    let d : BinaryType := ⟨"Foo".toList, [⟨"id".toList, 4, 3355⟩], [(1664353245, [3355])],
      by decide⟩
    let as : List RegistryCall := [.query 101574 (some (.id 1664353245)) (.found d),
      .register ⟨"Foo".toList, [("name".toList, .string)]⟩ .missing true]
    ∃ s, run ClassRegistry.step ClassRegistry.init as = some s ∧
      (∀ typeId schema, LookupLaw s typeId schema ↔ schema.isTrue) ∧
      ∀ typeId schemaId, HeaderLaw s typeId schemaId ↔ schemaId ≠ 0 := by
  let _ := asciiLower
  intro d as
  obtain ⟨s, hs⟩ : ∃ s, run ClassRegistry.step ClassRegistry.init as = some s := ⟨_, rfl⟩
  exact ⟨s, hs, registry_lookup_iff hs⟩

/-- A class without fields is registered under the schema id 0: the lookup for it gives the
dict of all classes of the type, and so does `get_dataclass`. -/
theorem empty_schema_gives_dict :
    letI := asciiLower
    let c : DataClass := ⟨"Foo".toList, []⟩
    ∃ s, run ClassRegistry.step ClassRegistry.init [.register c .missing true] = some s ∧
      c.schemaId = 0 ∧ s.stored.lookup (c.typeId, 0) = some c ∧
      (s.queryBinaryType c.typeId (some (.dict c.schema)) .missing).1 = some (.dict [(0, c)]) ∧
      (s.getDataclass c.typeId c.schemaId .missing).1 = some (.dict [(0, c)]) := by
  let _ := asciiLower
  exact ⟨_, rfl, by decide, by decide, by rfl, by rfl⟩

end PyGridGain
