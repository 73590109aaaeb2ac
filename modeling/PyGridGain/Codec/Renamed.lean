import PyGridGain.Codec.Beside
import PyGridGain.Codec.ComplexObject

/-! Objects that are read by another client than the one that wrote them. The reader has classes of
its own, or gets them from the server while it reads: the fields are those that were written if the
classes have the same schemas, and the objects are of the classes of the reader. -/

namespace PyGridGain

open CObj StreamM

/-! ### Values under other names -/

namespace PyValue
variable (name : DataClass → PyStr)

/- The value with its objects under the names that `name` has for their classes. -/
mutual
def renamed : PyValue → PyValue
  | tuple xs => tuple (renamedAll xs)
  | list xs => list (renamedAll xs)
  | dict kvs => dict (renamedPairs kvs)
  | hinted v t => hinted (renamed v) t
  | obj head fields =>
    obj { head with typeName := name (classOf head fields) } (renamedFields fields)
  | v => v
def renamedAll : List PyValue → List PyValue
  | [] => []
  | x :: xs => renamed x :: renamedAll xs
def renamedPairs : List (PyValue × PyValue) → List (PyValue × PyValue)
  | [] => []
  | (k, v) :: kvs => (renamed k, renamed v) :: renamedPairs kvs
def renamedFields : List (PyStr × DataType × PyValue) → List (PyStr × DataType × PyValue)
  | [] => []
  | (field, t, v) :: fields => (field, t, renamed v) :: renamedFields fields
end

variable {name}

@[simp] theorem renamedAll_eq (xs : List PyValue) : renamedAll name xs = xs.map (renamed name) := by
  induction xs with
  | nil => rfl
  | cons x xs ih => rw [renamedAll, ih, List.map_cons]

@[simp] theorem renamedPairs_eq (kvs : List (PyValue × PyValue)) :
    renamedPairs name kvs = kvs.map fun p => (p.1.renamed name, p.2.renamed name) := by
  induction kvs with
  | nil => rfl
  | cons p kvs ih => rw [renamedPairs, ih, List.map_cons]

/- No object can be a key. -/
mutual
theorem hashKey_renamed : ∀ v : PyValue, (v.renamed name).hashKey = v.hashKey
  | tuple xs => by simp only [renamed, hashKey, hashKeys_renamedAll xs]
  | list _ | dict _ | obj .. => by simp only [renamed, hashKey]
  | hinted v t => by simp only [renamed, hashKey, hashKey_renamed v]
  | none | bool _ | int _ | float _ | decimal .. | str _ | bytes _ | uuid _ | datetime _
  | timedelta _ => rfl
theorem hashKeys_renamedAll : ∀ xs, hashKeys (renamedAll name xs) = hashKeys xs
  | [] => rfl
  | x :: xs => by
    rw [renamedAll, hashKeys, hashKeys, hashKey_renamed x, hashKeys_renamedAll xs]
end

/-- Pairs under other names are set in a dict as the pairs are. -/
theorem dictSet_renamed (kvs : List (PyValue × PyValue)) (k v : PyValue) :
    dictSet (renamedPairs name kvs) (k.renamed name) (v.renamed name) =
      (dictSet kvs k v).map (renamedPairs name) := by
  have hsame : ∀ a b : PyValue, (a.renamed name).sameKey (b.renamed name) = a.sameKey b := by
    intro a b
    simp only [sameKey, dictKey, hashKey_renamed]
  unfold dictSet
  rw [hashKey_renamed]
  cases k.hashKey with
  | none => rfl
  | some key =>
    have hany : (renamedPairs name kvs).any (fun p => p.1.sameKey (k.renamed name)) =
        kvs.any fun p => p.1.sameKey k := by
      simp [Function.comp_def, hsame]
    dsimp only
    rw [hany]
    split_ifs
    · simp only [Except.map, renamedPairs_eq, List.map_map]
      refine congrArg Except.ok (List.map_congr_left fun p _ => ?_)
      simp only [Function.comp_apply, hsame]
      split_ifs <;> rfl
    · simp [Except.map]

end PyValue

/-! ### The values that are read -/

section Values
variable [Python] {cl known : Client} {client other : Client}

/-- What the program gives is what the other gives, under the names of the client. -/
abbrev Renames (cl : Client) (x y : Except PyError PyValue) : Prop :=
  Related (fun a b => a = b.renamed cl.nameOf) x y

variable {rec rec' : DataType → CObject → Except PyError PyValue}

/-- What is given, if anything, has no objects in it. -/
abbrev Objectless (x : Except PyError PyValue) : Prop :=
  Related (fun a b => a = b ∧ ∀ name, b.renamed name = b) x x

omit [Python] in
theorem Objectless.ok {v : PyValue} (h : ∀ name, v.renamed name = v) : Objectless (.ok v) :=
  Related.ok ⟨rfl, h⟩

theorem Objectless.renames {x : Except PyError PyValue} (h : Objectless x) : Renames cl x x := by
  refine h.mono ?_
  rintro _ v ⟨rfl, hv⟩
  exact (hv _).symm

theorem renames_any (hrec : ∀ t o, Renames cl (rec t o) (rec' t o)) (o : CObject) :
    Renames cl (anyToPython rec o) (anyToPython rec' o) := by
  refine Related.bind_same fun code => ?_
  split_ifs
  · exact .error _ _
  · split
    · exact hrec _ _
    · exact .error _ _

theorem related_elements {conv conv' : CObject → Except PyError PyValue}
    (h : ∀ o, Renames cl (conv o) (conv' o)) (o : CObject) :
    Related (fun xs ys => xs = PyValue.renamedAll cl.nameOf ys) (elementsToPython conv o)
      (elementsToPython conv' o) := by
  refine Related.bind_same fun length => ?_
  refine (Related.mapM fun i _ => Related.bind_same fun e => h e).mono fun xs ys hxs => ?_
  have hmap := List.forall₂_map_right_iff.mpr hxs
  rw [List.forall₂_eq_eq_eq] at hmap
  rw [hmap, PyValue.renamedAll_eq]

theorem related_pairs (hrec : ∀ t o, Renames cl (rec t o) (rec' t o)) (o : CObject) :
    Related (fun kvs kvs' => kvs = PyValue.renamedPairs cl.nameOf kvs') (pairsToPython rec o)
      (pairsToPython rec' o) := by
  refine Related.bind_same fun length => ?_
  refine Related.foldlM (fun i _ kvs kvs' hkvs => ?_) rfl
  refine Related.bind_same fun k => (renames_any hrec k).bind fun k k' hk => ?_
  refine Related.bind_same fun v => (renames_any hrec v).bind fun v v' hv => ?_
  subst hkvs hk hv
  rw [PyValue.dictSet_renamed]
  cases PyValue.dictSet kvs' k' v' with
  | error e => exact .error _ e
  | ok d => exact .ok rfl

/-- The fields of a schema, one after another. -/
theorem related_fields (hrec : ∀ t o, Renames cl (rec t o) (rec' t o))
    (schema : List (PyStr × DataType)) (objectFields : CObject) :
    Related (fun fs gs => fs = PyValue.renamedFields cl.nameOf gs ∧
        gs.map (fun f => (f.1, f.2.1)) = schema)
      (schema.mapM fun f => do
        let e ← objectFields.attr (.field f.1)
        let v ← rec f.2 e
        .ok (f.1, f.2, v))
      (schema.mapM fun f => do
        let e ← objectFields.attr (.field f.1)
        let v ← rec' f.2 e
        .ok (f.1, f.2, v)) := by
  induction schema with
  | nil => exact .ok ⟨rfl, rfl⟩
  | cons f schema ih =>
    rw [List.mapM_cons, List.mapM_cons]
    refine Related.bind (Q := fun g g' => g = (g'.1, g'.2.1, g'.2.2.renamed cl.nameOf) ∧
      (g'.1, g'.2.1) = f) ?_ ?_
    · refine Related.bind_same fun e => (hrec f.2 e).bind fun v v' hv => ?_
      exact .ok ⟨by rw [hv], rfl⟩
    · rintro g g' ⟨rfl, hf⟩
      refine ih.bind ?_
      rintro gs gs' ⟨rfl, hkeys⟩
      exact .ok ⟨rfl, by rw [List.map_cons, hkeys, hf]⟩

/-- What is known stands under its own ids. -/
def Client.OwnIds (known : Client) : Prop :=
  ∀ typeId k c, (known.registry typeId).lookup k = some c → c.typeId = typeId ∧ c.schemaId = k

/-- Two clients of which one reads where the other does: `client` has the classes of `cl`, and
`other` knows `known` and asks no server. -/
structure Counterpart (cl known client other : Client) : Prop where
  covers : cl.Covers known
  ids : known.OwnIds
  classFor : client.classFor = cl.classFor
  registry : other.registry = known.registry
  alone : other.remote = fun _ => []

/-- An object of a class that is known is one of the class that the client has for it. -/
theorem renames_binary (h : Counterpart cl known client other)
    (hrec : ∀ t o, Renames cl (rec t o) (rec' t o)) (o : CObject) :
    Renames cl (binaryToPython rec (some client) o) (binaryToPython rec' (some other) o) := by
  refine Related.bind_same fun typeId => Related.bind_same fun schemaId => ?_
  by_cases h0 : schemaId = 0
  · obtain ⟨d, hd⟩ := other.queryBinaryType_zero typeId
    rw [h0, hd]
    exact .error _ _
  · have hlookup : other.classFor typeId schemaId = (known.registry typeId).lookup schemaId := by
      rw [Client.classFor, h.registry, h.alone]
      simp
    rw [Client.queryBinaryType_fst h0, Client.queryBinaryType_fst h0, hlookup, h.classFor]
    cases hknown : (known.registry typeId).lookup schemaId with
    | none => exact .error _ _
    | some c =>
      obtain ⟨c', hc', hschema⟩ := h.covers typeId schemaId c h0 hknown
      obtain ⟨htype, hid⟩ := h.ids typeId schemaId c hknown
      rw [hc']
      dsimp only [Lookup.ofClass]
      rw [hschema]
      refine Related.bind_same fun version => Related.bind_same fun objectFields => ?_
      refine (related_fields hrec c.schema objectFields).bind ?_
      rintro _ fields ⟨rfl, hkeys⟩
      refine .ok ?_
      have hname : cl.nameOf c = c'.typeName := by
        rw [Client.nameOf, htype, hid, hc']
        rfl
      have hclass : classOf ⟨0, c.typeName, if c.schema.any (fun f => f.1 == versionName) then 1
          else version, none, none⟩ fields = c := by
        rw [classOf, hkeys]
      rw [PyValue.renamed, hclass, hname]

omit [Python] in
theorem renamedAll_plain {name : DataClass → PyStr} {xs : List PyValue}
    (h : ∀ x ∈ xs, x.renamed name = x) : PyValue.renamedAll name xs = xs := by
  rw [PyValue.renamedAll_eq]
  exact (List.map_congr_left h).trans (List.map_id _)

theorem renames_string (o : CObject) : Renames cl (stringToPython o) (stringToPython o) := by
  refine Related.bind_same fun length => ?_
  split_ifs
  · refine Related.bind_same fun data => ?_
    split
    · exact .ok rfl
    · exact .error _ _
  · exact .ok rfl

omit [Python] in
theorem objectless_map {α : Type} {f : α → PyValue} (hf : ∀ a name, (f a).renamed name = f a)
    (l : List α) : Objectless (.ok (.list (l.map f))) := by
  refine Objectless.ok fun name => ?_
  rw [PyValue.renamed, renamedAll_plain]
  intro x hx
  obtain ⟨a, -, rfl⟩ := List.mem_map.mp hx
  exact hf a name

theorem renames_primitiveArray (o : CObject) :
    Renames cl (primitiveArrayToPython o) (primitiveArrayToPython o) :=
  Objectless.renames (Related.bind_same fun items => objectless_map (fun _ _ => rfl) items)

omit [Python] in
theorem objectless_mapM {α : Type} {l : List α} {f : α → Except PyError PyValue}
    (h : ∀ i ∈ l, Objectless (f i)) :
    Related (fun xs ys => xs = ys ∧ ∀ name, PyValue.renamedAll name ys = ys) (l.mapM f)
      (l.mapM f) := by
  refine (Related.mapM h).mono fun xs ys hxs => ?_
  induction hxs with
  | nil => exact ⟨rfl, fun _ => rfl⟩
  | cons hxy _ ih =>
    exact ⟨by rw [hxy.1, ih.1], fun name => by rw [PyValue.renamedAll, hxy.2, ih.2]⟩

omit [Python] in
theorem objectless_list {x : Except PyError (List PyValue)}
    (h : Related (fun xs ys => xs = ys ∧ ∀ name, PyValue.renamedAll name ys = ys) x x) :
    Objectless (x >>= fun xs => .ok (.list xs)) := by
  refine h.bind ?_
  rintro _ ys ⟨rfl, hys⟩
  exact Objectless.ok fun name => by rw [PyValue.renamed, hys]

theorem renames_boolArray (o : CObject) :
    Renames cl (boolArrayToPython o) (boolArrayToPython o) := by
  refine Objectless.renames ?_
  refine Related.bind_same fun length => Related.bind_same fun items => ?_
  refine objectless_list (objectless_mapM fun i _ => ?_)
  cases items[i]? with
  | none => exact .error _ _
  | some x => exact .ok fun _ => rfl

/-- No object is made of what the other classes read. -/
class ReadApart [OtherCodecs] : Prop where
  reads : ∀ t o, Objectless ((OtherCodecs.codec t).toPythonNotNull o)

section Readers
omit [Python]

theorem objectless_elements {conv : CObject → Except PyError PyValue}
    (h : ∀ o, Objectless (conv o)) (o : CObject) :
    Related (fun xs ys => xs = ys ∧ ∀ name, PyValue.renamedAll name ys = ys)
      (elementsToPython (nullableReader conv) o) (elementsToPython (nullableReader conv) o) := by
  refine Related.bind_same fun length => objectless_mapM fun i _ => Related.bind_same fun e => ?_
  refine Related.bind_same fun code => ?_
  split_ifs
  · exact Objectless.ok fun _ => rfl
  · exact h e

theorem objectless_readArrayOf {conv : CObject → Except PyError PyValue}
    (h : ∀ o, Objectless (conv o)) (o : CObject) : Objectless (readArrayOf conv o) :=
  objectless_list (objectless_elements h o)

theorem objectless_char (value : ℤ) : Objectless (charToPython value) := by
  refine Related.bind_same fun b => ?_
  split
  · exact Objectless.ok fun _ => rfl
  · exact .error _ _

theorem objectless_decimal (o : CObject) : Objectless (DecimalObject.toPythonNotNull o) := by
  refine Related.bind_same fun items => ?_
  split
  · exact .error _ _
  · refine Related.bind_same fun scale => Related.bind_same fun power =>
      Related.bind_same fun quotient => ?_
    dsimp only
    split_ifs
    · exact Related.bind_same fun signed => Objectless.ok fun _ => rfl
    · exact Objectless.ok fun _ => rfl

theorem objectless_time (o : CObject) : Objectless (TimeObject.toPythonNotNull o) := by
  refine Related.bind_same fun value => ?_
  split_ifs
  · exact Objectless.ok fun _ => rfl
  · exact .error _ _

variable [Machine]

theorem objectless_date (o : CObject) : Objectless (DateObject.toPythonNotNull o) :=
  Related.bind_same fun _ => Related.bind_same fun _ => Objectless.ok fun _ => rfl

theorem objectless_timestamp (o : CObject) : Objectless (TimestampObject.toPythonNotNull o) :=
  Related.bind_same fun _ => Related.bind_same fun _ => Related.bind_same fun _ =>
    Objectless.ok fun _ => rfl

theorem objectless_otherType (t : OtherType) (o : CObject) : Objectless (t.toPythonNotNull o) := by
  cases t with
  | floatObject | doubleObject => exact Related.bind_same fun _ => Objectless.ok fun _ => rfl
  | charObject => exact Related.bind_same fun value => objectless_char value
  | dateObject => exact objectless_date o
  | timestampObject => exact objectless_timestamp o
  | timeObject => exact objectless_time o
  | decimalObject => exact objectless_decimal o
  | floatArrayObject | doubleArrayObject =>
    exact Related.bind_same fun items => objectless_map (fun _ _ => rfl) items
  | charArrayObject =>
    exact Related.bind_same fun values =>
      objectless_list (objectless_mapM fun value _ => objectless_char value)
  | dateArrayObject => exact objectless_readArrayOf objectless_date o
  | timestampArrayObject => exact objectless_readArrayOf objectless_timestamp o
  | timeArrayObject => exact objectless_readArrayOf objectless_time o
  | decimalArrayObject => exact objectless_readArrayOf objectless_decimal o
  | enumArrayObject =>
    refine Related.bind_same fun typeId => (objectless_elements ?_ o).bind ?_
    · exact fun o => Related.bind_same fun _ => Related.bind_same fun _ => Objectless.ok fun _ => rfl
    · rintro _ ys ⟨rfl, hys⟩
      refine Objectless.ok fun name => ?_
      simp only [PyValue.renamed, PyValue.renamedAll, hys]
  | wrappedDataObject =>
    exact Related.bind_same fun _ => Related.bind_same fun _ => Objectless.ok fun _ => rfl

instance : @ReadApart allClasses := @ReadApart.mk allClasses objectless_otherType

end Readers

variable [OtherCodecs] [ReadApart]

theorem renames_notNull (h : Counterpart cl known client other)
    (hrec : ∀ t o, Renames cl (rec t o) (rec' t o)) (t : DataType) (o : CObject) :
    Renames cl (toPythonNotNull rec (some client) t o) (toPythonNotNull rec' (some other) t o) := by
  cases t with
  | null => exact .ok rfl
  | byteObject | shortObject | intObject | longObject | boolObject | byteArrayObject =>
    exact Related.bind_same fun _ => .ok rfl
  | enumObject | binaryEnumObject =>
    exact Related.bind_same fun _ => Related.bind_same fun _ => .ok rfl
  | string => exact renames_string o
  | uuidObject =>
    refine Related.bind_same fun value => ?_
    unfold uuidLoad
    dsimp only
    split_ifs
    · exact .ok rfl
    · exact .error _ _
  | shortArrayObject | intArrayObject | longArrayObject => exact renames_primitiveArray o
  | boolArrayObject => exact renames_boolArray o
  | stringArrayObject =>
    refine (related_elements (hrec .string) o).bind ?_
    rintro _ xs rfl
    exact .ok rfl
  | uuidArrayObject =>
    refine (related_elements (hrec .uuidObject) o).bind ?_
    rintro _ xs rfl
    exact .ok rfl
  | objectArrayObject | collectionObject =>
    refine (related_elements (renames_any hrec) o).bind ?_
    rintro _ xs rfl
    exact Related.bind_same fun _ => .ok rfl
  | mapObject =>
    refine Related.bind_same fun _ => (related_pairs hrec o).bind ?_
    rintro _ kvs rfl
    exact .ok rfl
  | binaryObject => exact renames_binary h hrec o
  | other t => exact (ReadApart.reads t o).renames

theorem renames_toPythonN (h : Counterpart cl known client other) (n : ℕ) (t : DataType)
    (o : CObject) : Renames cl (toPythonN (some client) n t o) (toPythonN (some other) n t o) := by
  induction n generalizing t o with
  | zero => exact .error _ _
  | succ n ih =>
    have hnotNull := renames_notNull h ih t o
    by_cases ht : t = .null
    · subst ht
      exact .ok rfl
    · have hbody : ∀ c, toPythonN c (n + 1) t o = o.intAttr .typeCode >>= fun code =>
          if code = TC_NULL.toNat then .ok .none else toPythonNotNull (toPythonN c n) c t o := by
        intro c
        cases t <;> first | exact absurd rfl ht | rfl
      rw [hbody, hbody]
      refine Related.bind_same fun code => ?_
      split_ifs
      · exact .ok rfl
      · exact hnotNull

/-- Where the one client reads, so does the other, with objects of its own classes. -/
theorem renames_anyDataObject (h : Counterpart cl known client other) (o : CObject) :
    Renames cl (AnyDataObject.toPython (some client) o) (AnyDataObject.toPython (some other) o) :=
  renames_any (renames_toPythonN h _) o

end Values

/-! ### What was written under other classes -/

section Encodings
variable [Python]

/-- A client that knows these classes, each under its ids, and asks no server. -/
def knowing (cs : List DataClass) (footer : Option Bool) : Client where
  rawCompactFooter := footer
  registry typeId := (cs.filter fun c => c.typeId = typeId).map fun c => (c.schemaId, c)
  remote _ := []

theorem mem_of_lookup_knowing {cs : List DataClass} {footer : Option Bool} {typeId k : ℤ}
    {c : DataClass} (h : ((knowing cs footer).registry typeId).lookup k = some c) :
    c ∈ cs ∧ c.typeId = typeId ∧ c.schemaId = k := by
  obtain ⟨c', hc', heq⟩ := List.mem_map.mp (mem_of_lookup h)
  obtain ⟨rfl, rfl⟩ := Prod.mk.inj heq
  obtain ⟨hmem, htype⟩ := List.mem_filter.mp hc'
  exact ⟨hmem, by simpa using htype, rfl⟩

theorem ownIds_knowing (cs : List DataClass) (footer : Option Bool) :
    (knowing cs footer).OwnIds := fun _ _ _ h => (mem_of_lookup_knowing h).2

/-- A class is known, if the classes are told apart by their ids. -/
theorem registered_knowing {cs : List DataClass} {footer : Option Bool} {c : DataClass}
    (hc : c ∈ cs) (htell : ∀ c' ∈ cs, c'.typeId = c.typeId → c'.schemaId = c.schemaId → c' = c) :
    (knowing cs footer).Registered c := by
  have hmem : c.schemaId ∈ (((knowing cs footer).registry c.typeId).map (·.1)) := by
    refine List.mem_map.mpr ⟨(c.schemaId, c), List.mem_map.mpr ⟨c, ?_, rfl⟩, rfl⟩
    exact List.mem_filter.mpr ⟨hc, by simp⟩
  obtain ⟨c', hc'⟩ := exists_lookup hmem
  obtain ⟨hmem', htype, hid⟩ := mem_of_lookup_knowing hc'
  rw [Client.Registered, hc', htell c' hmem' htype hid]

variable [OtherCodecs] {cl cl' : Client} {cf : Bool} {t : DataType} {v : PyValue}

/-- The classes of the objects in a value that can be written are registered. -/
theorem Encodable.registered (h : Encodable cl cf t v) :
    ∀ o ∈ objects t v, cl.Registered (classOf o.1 o.2) := by
  induction h with
  | @int t s i ht hi => cases t <;> simp_all [DataType.intScalar, objects]
  | @intArray t s is ht his hlen => cases t <;> simp_all [DataType.arrayScalar, objects]
  | @standardArray t std xs ht hxs hlen ih =>
    cases t <;> simp_all [DataType.standardType, objects]
  | objectArray hk htyped hps hlen ih =>
    simpa only [objects, objectsAll_typed htyped, List.forall_mem_flatMap] using ih
  | collection hk htyped hps hlen ih =>
    simpa only [objects, objectsAll_typed htyped, List.forall_mem_flatMap] using ih
  | map hk htyped hks hvs hlen hkeys ihk ihv =>
    simp only [objects, objectsPairs_typed htyped, List.forall_mem_flatMap,
      List.forall_mem_append]
    exact fun p hp => ⟨ihk p hp, ihv p hp⟩
  | obj hne hnames hfields hreg hsize hbuffer ih =>
    simp only [objects, objectsFields_eq, List.forall_mem_cons, List.forall_mem_flatMap]
    exact ⟨hreg, ih⟩
  | enum ht ha hb => rcases ht with rfl | rfl <;> simp [objects]
  | leaf h => simp [objects_other h.not_hinted]
  | _ => simp [objects]

/-- Nothing but the classes of its objects matters to whether a value can be written. -/
theorem Encodable.of_registered (h : Encodable cl cf t v)
    (hreg : ∀ o ∈ objects t v, cl'.Registered (classOf o.1 o.2)) : Encodable cl' cf t v := by
  induction h with
  | none t => exact .none t
  | int ht hi => exact .int ht hi
  | bool b => exact .bool b
  | str hs hlen => exact .str hs hlen
  | uuid u => exact .uuid u
  | enum ht ha hb => exact .enum ht ha hb
  | bytes hlen => exact .bytes hlen
  | intArray ht his hlen => exact .intArray ht his hlen
  | boolArray hlen => exact .boolArray hlen
  | standardArray ht hxs hlen ih =>
    refine .standardArray ht (fun x hx => ih x hx ?_) hlen
    rw [(hxs x hx).objects_standard ht]
    simp
  | objectArray hk htyped hps hlen ih =>
    simp only [objects, objectsAll_typed htyped, List.forall_mem_flatMap] at hreg
    exact .objectArray hk htyped (fun p hp => ih p hp (hreg p hp)) hlen
  | collection hk htyped hps hlen ih =>
    simp only [objects, objectsAll_typed htyped, List.forall_mem_flatMap] at hreg
    exact .collection hk htyped (fun p hp => ih p hp (hreg p hp)) hlen
  | map hk htyped hks hvs hlen hkeys ihk ihv =>
    simp only [objects, objectsPairs_typed htyped, List.forall_mem_flatMap,
      List.forall_mem_append] at hreg
    exact .map hk htyped (fun p hp => ihk p hp (hreg p hp).1) (fun p hp => ihv p hp (hreg p hp).2)
      hlen hkeys
  | obj hne hnames hfields hreg' hsize hbuffer ih =>
    simp only [objects, objectsFields_eq, List.forall_mem_cons, List.forall_mem_flatMap] at hreg
    exact .obj hne hnames (fun f hf => ih f hf (hreg.2 f hf)) hreg.1 hsize hbuffer
  | leaf h => exact .leaf h

variable [ParsedApart] [ReadApart]

/-- The encoding of a value is read by a client that has other classes for its objects, if their
schemas are the same, or makes such of the answers of the server. -/
theorem encoding_under_other_classes (hv : Encodable cl cf t v) (hfound : SchemasFound t v)
    (hversions : ∀ o ∈ objects t v, HasVersionField o.2 ∨ Scalar.byte.Range o.1.version)
    {reader : Client} (hfooter : reader.compactFooter = cf)
    (hclasses : ∀ o ∈ objects t v, ∃ c, reader.classFor (classOf o.1 o.2).typeId
      (classOf o.1 o.2).schemaId = some c ∧ c.schema = (classOf o.1 o.2).schema)
    {buf : Bytes} {pos : ℕ} (hat : At buf pos (encode cf t v)) :
    ∃ c r o, AnyDataObject.parse ⟨reader, buf, pos, false⟩ = .ok (c, r) ∧
      r.pos = pos + (encode cf t v).length ∧ readBackward c r = .ok (o, r) ∧
      AnyDataObject.toPython (some r.client) o = .ok ((plain t v).renamed reader.nameOf) ∧
      r.client.classFor = reader.classFor ∧ r.client.remote = reader.remote ∧
      r.client.compactFooter = cf := by
  let cs := (objects t v).map fun o => classOf o.1 o.2
  let known := knowing cs reader.rawCompactFooter
  have hreg : ∀ o ∈ objects t v, known.Registered (classOf o.1 o.2) := by
    intro o ho
    refine registered_knowing (List.mem_map_of_mem ho) fun c hc htype hid => ?_
    obtain ⟨o', ho', rfl⟩ := List.mem_map.mp hc
    have hlookup := hv.registered o' ho'
    have hlookup' := hv.registered o ho
    rw [Client.Registered, htype, hid] at hlookup
    exact Option.some.inj (hlookup.symm.trans hlookup')
  have hcovers : reader.Covers known := by
    intro typeId k c _ hc
    obtain ⟨hmem, rfl, rfl⟩ := mem_of_lookup_knowing hc
    obtain ⟨o, ho, rfl⟩ := List.mem_map.mp hmem
    exact hclasses o ho
  have hv' := hv.of_registered hreg
  have hparses := anyDataObject_parses hv' (r := ⟨known, buf, pos, false⟩) ⟨rfl, hfooter, rfl⟩ hat
  obtain ⟨c, u, hu, hadv, hd⟩ := hparses.1 hfound
  have hbeside : Beside reader known ⟨reader, buf, pos, false⟩ ⟨known, buf, pos, false⟩ :=
    ⟨rfl, rfl, rfl, rfl, rfl, rfl, rfl, rfl⟩
  obtain ⟨⟨c', r⟩, hr, hc, h⟩ := same_anyDataObject hcovers _ _ hbeside _ hu
  obtain rfl : c' = c := hc
  have hback : readBackward c' r = .ok (⟨c', encode cf t v⟩, r) := by
    refine readBackward_at (h.emptyView.trans hadv.readable.emptyView) ?_ hv'.encode_ne_nil
      (h.pos.trans hadv.pos) hd.size
    rw [h.buf, hadv.buf]
    exact hat
  have hplain : decoded Scalar.byte.wrap t v = plain t v := by
    rw [decoded_eq_iff hv']
    simpa only [Scalar.wrap_eq_iff] using hversions
  have hknown : AnyDataObject.toPython (some u.client) ⟨c', encode cf t v⟩ = .ok (plain t v) := by
    rw [← hplain]
    exact anyToPython_of_decodes hv' hd (fun _ => ⟨_, rfl, h.registry⟩) (Nat.le_succ _)
  obtain ⟨x, hx, rfl⟩ := renames_anyDataObject
    ⟨hcovers, ownIds_knowing cs _, h.classFor, h.registry, h.alone⟩ _ _ hknown
  refine ⟨c', r, _, hr, h.pos.trans hadv.pos, hback, hx, h.classFor, h.remote, ?_⟩
  have hraw : r.client.compactFooter = u.client.compactFooter := by
    rw [Client.compactFooter, h.footer, Client.compactFooter]
  exact hraw.trans hadv.readable.footer

end Encodings

end PyGridGain
