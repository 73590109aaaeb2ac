import PyGridGain.Codec.Settled
import PyGridGain.Datatypes.CacheConfig

/-! Whether the settings of a cache are read/write symmetrical: every property that a client
writes is read by the class of its field as the value that was written. It depends on the default
values of the query fields alone, which have no class of their own. -/

namespace PyGridGain

open CObj StreamM

/-! ### What a server returns -/

/-- A text, or `None`. -/
abbrev Text := Option {s : PyStr // '\x00' ∉ s ∧ (utf8Encode s).length < 2 ^ 31}

def Text.value : Text → PyValue
  | none => .none
  | some s => .str s.1

/-- A number that its field holds. -/
abbrev Stored (s : Scalar) := {i : ℤ // s.Range i}

/-- The content of an array that the field of its length holds. -/
abbrev Listed (α : Type) := {xs : List α // xs.length < 2 ^ 31}

structure QueryField where
  name : Text
  typeName : Text
  isKeyField : Bool
  isNotnullConstraintField : Bool
  defaultValue : PyValue
  precision : Stored .int
  scale : Stored .int

structure FieldNameAlias where
  fieldName : Text
  aliasName : Text

structure IndexField where
  name : Text
  isDescending : Bool

structure QueryIndex where
  indexName : Text
  indexType : Stored .byte
  inlineSize : Stored .int
  fields : Listed IndexField
  similarityFunction : Stored .int

structure QueryEntity where
  keyTypeName : Text
  valueTypeName : Text
  tableName : Text
  keyFieldName : Text
  valueFieldName : Text
  queryFields : Listed QueryField
  fieldNameAliases : Listed FieldNameAlias
  queryIndexes : Listed QueryIndex

structure KeyConfiguration where
  typeName : Text
  affinityKeyFieldName : Text

/-- A duration that `ExpiryPolicy` accepts. -/
abbrev Duration := {i : ℤ // Scalar.longlong.Range i ∧ -2 ≤ i}

/-- A timeout is not negative. -/
abbrev Timeout := {i : ℤ // Scalar.longlong.Range i ∧ 0 ≤ i}

structure Policy where
  create : Duration
  update : Duration
  access : Duration

structure CacheConfig where
  length : Stored .int
  cacheAtomicityMode : Stored .int
  backupsNumber : Stored .int
  cacheMode : Stored .int
  copyOnRead : Bool
  dataRegionName : Text
  eagerTtl : Bool
  statisticsEnabled : Bool
  groupName : Text
  defaultLockTimeout : Timeout
  maxConcurrentAsyncOperations : Stored .int
  maxQueryIterators : Stored .int
  name : Text
  isOnheapCacheEnabled : Bool
  partitionLossPolicy : Stored .int
  queryDetailMetricSize : Stored .int
  queryParallelism : Stored .int
  readFromBackup : Bool
  rebalanceBatchSize : Stored .int
  rebalanceBatchesPrefetchCount : Stored .longlong
  rebalanceDelay : Stored .longlong
  rebalanceMode : Stored .int
  rebalanceOrder : Stored .int
  rebalanceThrottle : Stored .longlong
  rebalanceTimeout : Timeout
  sqlEscapeAll : Bool
  sqlIndexInlineMaxSize : Stored .int
  sqlSchema : Text
  writeSynchronizationMode : Stored .int
  cacheKeyConfiguration : Listed KeyConfiguration
  queryEntities : Listed QueryEntity
  expiryPolicy : Option Policy

/-- The default values of all query fields. -/
def CacheConfig.defaults (config : CacheConfig) : List PyValue :=
  config.queryEntities.1.flatMap fun e => e.queryFields.1.map (·.defaultValue)

section Entries
variable [Python] [OtherCodecs]

def queryFieldEntries (f : QueryField) : Entries :=
  [("name".toList, wireClass .string, f.name.value),
    ("type_name".toList, wireClass .string, f.typeName.value),
    ("is_key_field".toList, boolClass, .bool f.isKeyField),
    ("is_notnull_constraint_field".toList, boolClass, .bool f.isNotnullConstraintField),
    ("default_value".toList, anyDataObject, f.defaultValue),
    ("precision".toList, primitive .int, .int f.precision),
    ("scale".toList, primitive .int, .int f.scale)]

def fieldNameAliasEntries (a : FieldNameAlias) : Entries :=
  [("field_name".toList, wireClass .string, a.fieldName.value),
    ("alias".toList, wireClass .string, a.aliasName.value)]

def indexFieldEntries (f : IndexField) : Entries :=
  [("name".toList, wireClass .string, f.name.value),
    ("is_descending".toList, boolClass, .bool f.isDescending)]

/-- The similarity function is returned by servers that support it. -/
def queryIndexEntries (similarity : Bool) (i : QueryIndex) : Entries :=
  [("index_name".toList, wireClass .string, i.indexName.value),
    ("index_type".toList, indexType, .int i.indexType),
    ("inline_size".toList, primitive .int, .int i.inlineSize),
    ("fields".toList, indexFields.wireClass, .list (i.fields.1.map fun f => (indexFieldEntries f).value))] ++
    if similarity then
      [("similarity_function".toList, primitive .int, .int i.similarityFunction)] else []

def queryEntityEntries (similarity : Bool) (e : QueryEntity) : Entries :=
  [("key_type_name".toList, wireClass .string, e.keyTypeName.value),
    ("value_type_name".toList, wireClass .string, e.valueTypeName.value),
    ("table_name".toList, wireClass .string, e.tableName.value),
    ("key_field_name".toList, wireClass .string, e.keyFieldName.value),
    ("value_field_name".toList, wireClass .string, e.valueFieldName.value),
    ("query_fields".toList, queryFields.wireClass,
      .list (e.queryFields.1.map fun f => (queryFieldEntries f).value)),
    ("field_name_aliases".toList, fieldNameAliases.wireClass,
      .list (e.fieldNameAliases.1.map fun a => (fieldNameAliasEntries a).value)),
    ("query_indexes".toList,
      if similarity then queryIndexes.wireClass else queryIndexesNoSimilarity.wireClass,
      .list (e.queryIndexes.1.map fun i => (queryIndexEntries similarity i).value))]

def keyConfigurationEntries (k : KeyConfiguration) : Entries :=
  [("type_name".toList, wireClass .string, k.typeName.value),
    ("affinity_key_field_name".toList, wireClass .string, k.affinityKeyFieldName.value)]

def Policy.value (p : Policy) : PyValue := .tuple [.int p.create, .int p.update, .int p.access]

variable [FloatMillis]

def queryEntitiesClass (similarity : Bool) : WireClass :=
  if similarity then queryEntities.wireClass else queryEntitiesNoSimilarity.wireClass

/-- The settings whose classes depend on nothing. -/
def plainEntries (config : CacheConfig) : Entries :=
  [("cache_atomicity_mode".toList, cacheAtomicityMode, .int config.cacheAtomicityMode),
    ("backups_number".toList, primitive .int, .int config.backupsNumber),
    ("cache_mode".toList, cacheMode, .int config.cacheMode),
    ("copy_on_read".toList, boolClass, .bool config.copyOnRead),
    ("data_region_name".toList, wireClass .string, config.dataRegionName.value),
    ("eager_ttl".toList, boolClass, .bool config.eagerTtl),
    ("statistics_enabled".toList, boolClass, .bool config.statisticsEnabled),
    ("group_name".toList, wireClass .string, config.groupName.value),
    ("default_lock_timeout".toList, primitive .longlong, .int config.defaultLockTimeout),
    ("max_concurrent_async_operations".toList, primitive .int,
      .int config.maxConcurrentAsyncOperations),
    ("max_query_iterators".toList, primitive .int, .int config.maxQueryIterators),
    ("name".toList, wireClass .string, config.name.value),
    ("is_onheap_cache_enabled".toList, boolClass, .bool config.isOnheapCacheEnabled),
    ("partition_loss_policy".toList, partitionLossPolicy, .int config.partitionLossPolicy),
    ("query_detail_metric_size".toList, primitive .int, .int config.queryDetailMetricSize),
    ("query_parallelism".toList, primitive .int, .int config.queryParallelism),
    ("read_from_backup".toList, boolClass, .bool config.readFromBackup),
    ("rebalance_batch_size".toList, primitive .int, .int config.rebalanceBatchSize),
    ("rebalance_batches_prefetch_count".toList, primitive .longlong,
      .int config.rebalanceBatchesPrefetchCount),
    ("rebalance_delay".toList, primitive .longlong, .int config.rebalanceDelay),
    ("rebalance_mode".toList, rebalanceMode, .int config.rebalanceMode),
    ("rebalance_order".toList, primitive .int, .int config.rebalanceOrder),
    ("rebalance_throttle".toList, primitive .longlong, .int config.rebalanceThrottle),
    ("rebalance_timeout".toList, primitive .longlong, .int config.rebalanceTimeout),
    ("sql_escape_all".toList, boolClass, .bool config.sqlEscapeAll),
    ("sql_index_inline_max_size".toList, primitive .int, .int config.sqlIndexInlineMaxSize),
    ("sql_schema".toList, wireClass .string, config.sqlSchema.value),
    ("write_synchronization_mode".toList, writeSynchronizationMode,
      .int config.writeSynchronizationMode),
    ("cache_key_configuration".toList, cacheKeyConfiguration.wireClass,
      .list (config.cacheKeyConfiguration.1.map fun k => (keyConfigurationEntries k).value))]

/-- The query entities as one value. -/
def CacheConfig.entities (similarity : Bool) (config : CacheConfig) : PyValue :=
  .list (config.queryEntities.1.map fun e => (queryEntityEntries similarity e).value)

/-- The settings whose classes depend on the server. -/
def contextEntries (c : ProtocolContext) (config : CacheConfig) : Entries :=
  [("query_entities".toList, queryEntitiesClass c.isQueryIndexVectorSimilaritySupported,
      config.entities c.isQueryIndexVectorSimilaritySupported)] ++
    if c.isExpiryPolicySupported then
      [("expiry_policy".toList, ExpiryPolicyClass.wireClass,
        config.expiryPolicy.elim .none Policy.value)] else []

def settingEntries (c : ProtocolContext) (config : CacheConfig) : Entries :=
  plainEntries config ++ contextEntries c config

def configEntries (c : ProtocolContext) (config : CacheConfig) : Entries :=
  ("length".toList, primitive .int, .int config.length) :: settingEntries c config

/-- The entries are those of the structure that servers return. -/
theorem configEntries_fields (c : ProtocolContext) (config : CacheConfig) :
    (getCacheConfigStruct c).fields = (configEntries c config).map fun e => (e.1, .plain e.2.1) := by
  have hcontext : (if c.isQueryIndexVectorSimilaritySupported then
        [("query_entities".toList, .plain queryEntities.wireClass)]
      else [("query_entities".toList, .plain queryEntitiesNoSimilarity.wireClass)]) ++
      (if c.isExpiryPolicySupported then
        [("expiry_policy".toList, .plain ExpiryPolicyClass.wireClass)] else []) =
      (contextEntries c config).map fun e => (e.1, FieldClass.plain e.2.1) := by
    unfold contextEntries queryEntitiesClass
    cases c.isQueryIndexVectorSimilaritySupported <;> cases c.isExpiryPolicySupported <;> rfl
  rw [getCacheConfigStruct, List.append_assoc, hcontext, configEntries, settingEntries,
    List.map_cons, List.map_append]
  rfl

end Entries

/-! ### Classes that give every value back -/

section Leaves
variable [Python] [OtherCodecs] {cl : Client} {G : Prop}

theorem settled_text (t : Text) : Settled cl (wireClass .string) t.value True := by
  have hv : Encodable cl cl.compactFooter .string t.value := by
    cases t with
    | none => exact .none _
    | some s => exact .str s.2.1 s.2.2
  have hnil : objects .string t.value = [] := by cases t <;> simp [Text.value, objects]
  have hsame : decoded Scalar.byte.wrap .string t.value = t.value := by
    cases t <;> simp [Text.value, decoded]
  have hread := hv.reads (by simp [SchemasFound, hnil])
  rw [hsame] at hread
  exact settled_of_reads
    (fun s hs => ⟨_, fromPython_ok hv (headersOwn_of_no_objects hnil) hs⟩) hread

end Leaves

/-! ### `ExpiryPolicy` -/

section Policies
variable [FloatMillis] {cl : Client} {s : BinaryStream}

/-- The bytes of a policy behind the first one. -/
def Policy.durations (p : Policy) : Bytes :=
  Scalar.longlong.store p.create ++ (Scalar.longlong.store p.update ++ Scalar.longlong.store p.access)

omit [FloatMillis] in
theorem positive_duration (d : Duration) : ExpiryPolicyClass.positive d.1 = .ok () := by
  have hd := d.2.2
  refine if_neg fun h => h.2 ?_
  simp only [ExpiryPolicyClass.UNCHANGED, ExpiryPolicyClass.ETERNAL, List.mem_cons,
    List.not_mem_nil, or_false]
  omega

theorem writeDuration_ok (d : Duration) (hs : s.emptyView = false) :
    ExpiryPolicyClass.writeDuration (.int d) s = .ok ((), s.put (Scalar.longlong.store d)) := by
  have hbytes : signedBytes 8 d.1 = some (Scalar.longlong.store d) := if_pos d.2.1
  unfold ExpiryPolicyClass.writeDuration
  simp only [PyValue.toInt?, ofOption_some, pure_bind, hbytes]
  exact write_ok hs _

theorem writePolicy_ok (p : Policy) (hs : s.emptyView = false) :
    ExpiryPolicyClass.writePolicy p.value s = .ok ((), s.put p.durations) := by
  simp only [Policy.value, ExpiryPolicyClass.writePolicy]
  have hupdate := writeDuration_ok p.update (s := s.put (Scalar.longlong.store p.create)) hs
  have haccess := writeDuration_ok p.access (s := (s.put (Scalar.longlong.store p.create)).put
    (Scalar.longlong.store p.update)) hs
  rw [bind_ok (writeDuration_ok p.create hs), bind_ok hupdate, haccess, BinaryStream.put_put,
    BinaryStream.put_put]
  rfl

/-- The fields of a policy on the wire. -/
def Policy.parts (p : Policy) : List (FieldName × Layout × Bytes) :=
  [scalarPart (.field "not_null".toList) .byte 1, scalarPart (.field "create".toList) .longlong p.create,
    scalarPart (.field "update".toList) .longlong p.update,
    scalarPart (.field "access".toList) .longlong p.access]

omit [FloatMillis] in
theorem Policy.object (p : Policy) :
    (⟨ExpiryPolicyClass.layout, 1 :: p.durations⟩ : CObject) = ofParts p.parts := by
  simp [ofParts, Policy.parts, scalarPart, Policy.durations, ExpiryPolicyClass.layout]
  rfl

omit [FloatMillis] in
theorem policy_toPython (p : Policy) :
    ExpiryPolicyClass.toPython ⟨ExpiryPolicyClass.layout, 1 :: p.durations⟩ = .ok p.value := by
  have hfilled : Filled p.parts := by simp [Filled, Policy.parts, scalarPart, CType.size]
  have hnd : (p.parts.map (·.1)).Nodup := by simp [Policy.parts, scalarPart]
  have hvalue : (⟨ExpiryPolicyClass.layout, 1 :: p.durations⟩ : CObject).value ≠ some 0 := by
    simp [CObj.value, ExpiryPolicyClass.layout]
  rw [ExpiryPolicyClass.toPython, if_neg hvalue, p.object,
    intAttr_part hfilled hnd p.create.2.1 (by simp [Policy.parts]),
    intAttr_part hfilled hnd p.update.2.1 (by simp [Policy.parts]),
    intAttr_part hfilled hnd p.access.2.1 (by simp [Policy.parts])]
  simp only [except_bind, positive_duration]
  rfl

omit [FloatMillis] in
theorem policy_size (p : Policy) :
    ExpiryPolicyClass.layout.size = (1 :: p.durations).length := by
  have hfilled : Filled p.parts := by simp [Filled, Policy.parts, scalarPart, CType.size]
  have hlength := ofParts_length hfilled
  rw [← p.object] at hlength
  exact hlength.symm

theorem settled_policy (p : Option Policy) :
    Settled cl ExpiryPolicyClass.wireClass (p.elim .none Policy.value) True := by
  cases p with
  | none =>
    have hwrite : WritesOn (Ready cl) ExpiryPolicyClass.wireClass .none [0] := fun s hs =>
      ⟨.none, bind_ok (write_ok hs.emptyView _)⟩
    refine settled_of_reads hwrite (Finds.looking (Q := fun b => b = [0]) (fun s hs =>
      ⟨_, peek_at hs.emptyView hs.at_pos (by simp), rfl⟩) ?_)
    rintro _ rfl
    exact Finds.seekPast rfl ⟨rfl, fun _ _ => rfl⟩
  | some p =>
    have hwrite : WritesOn (Ready cl) ExpiryPolicyClass.wireClass p.value (1 :: p.durations) := by
      intro s hs
      have hrun : ExpiryPolicyClass.fromPython p.value s = (write [1] >>= fun _ =>
          ExpiryPolicyClass.writePolicy p.value >>= fun _ => pure p.value) s := rfl
      refine ⟨p.value, hrun.trans ?_⟩
      rw [bind_ok (write_ok hs.emptyView _), bind_ok (writePolicy_ok p (by exact hs.emptyView)),
        pure_apply, BinaryStream.put_put]
      rfl
    refine settled_of_reads hwrite (Finds.looking (Q := fun b => b = [1]) (fun s hs =>
      ⟨_, peek_at hs.emptyView (At.left (a := [1]) hs.at_pos) (by simp), rfl⟩) ?_)
    rintro _ rfl
    exact Finds.seekPast (policy_size p) ⟨policy_size p, fun _ _ => policy_toPython p⟩

end Policies

/-! ### Query entities -/

section Entities
variable [Python] [OtherCodecs] {cl : Client} {G : Prop}

omit [Python] [OtherCodecs] in
/-- A structure of fields that all give their values back. -/
theorem settled_entries {following : List (PyStr × FieldClass)}
    {defaults : List (PyStr × PyValue)} {entries : Entries}
    (hs : following = entries.map fun e => (e.1, .plain e.2.1))
    (hdefaults : ∀ d ∈ defaults, d.1 ∈ entries.map (·.1)) (hnd : (entries.map (·.1)).Nodup)
    (h : ∀ e ∈ entries, Settled cl e.2.1 e.2.2 True) :
    Settled cl (Struct.wireClass ⟨following, defaults⟩) entries.value True :=
  settled_struct_true entries hs hdefaults hnd h

omit [Python] [OtherCodecs] in
theorem settled_structArray_true {α : Type} {a : StructArray} {value : α → PyValue} {xs : Listed α}
    (h : ∀ x : α, Settled cl (Struct.wireClass ⟨a.following, a.defaults⟩) (value x) True) :
    Settled cl a.wireClass (.list (xs.1.map value)) True :=
  (settled_structArray (fun x _ => h x) xs.2).iff (by simp)

theorem settled_fieldNameAliases (xs : Listed FieldNameAlias) :
    Settled cl fieldNameAliases.wireClass
      (.list (xs.1.map fun a => (fieldNameAliasEntries a).value)) True := by
  refine settled_structArray_true fun a => settled_entries rfl ?_ (by simp [fieldNameAliasEntries]) ?_
  · simp [fieldNameAliases]
  · simp only [fieldNameAliasEntries, List.forall_mem_cons]
    exact ⟨settled_text _, settled_text _, by simp⟩

theorem settled_indexFields (xs : Listed IndexField) :
    Settled cl indexFields.wireClass (.list (xs.1.map fun f => (indexFieldEntries f).value)) True := by
  refine settled_structArray_true fun a => settled_entries rfl ?_ (by simp [indexFieldEntries]) ?_
  · simp [indexFields, indexFieldEntries]
  · simp only [indexFieldEntries, List.forall_mem_cons]
    exact ⟨settled_text _, settled_bool _, by simp⟩

theorem settled_keyConfigurations (xs : Listed KeyConfiguration) :
    Settled cl cacheKeyConfiguration.wireClass
      (.list (xs.1.map fun k => (keyConfigurationEntries k).value)) True := by
  refine settled_structArray_true fun a => settled_entries rfl ?_ (by simp [keyConfigurationEntries]) ?_
  · simp [cacheKeyConfiguration]
  · simp only [keyConfigurationEntries, List.forall_mem_cons]
    exact ⟨settled_text _, settled_text _, by simp⟩

theorem settled_queryIndexes (similarity : Bool) (xs : Listed QueryIndex) :
    Settled cl (if similarity then queryIndexes.wireClass else queryIndexesNoSimilarity.wireClass)
      (.list (xs.1.map fun i => (queryIndexEntries similarity i).value)) True := by
  cases similarity with
  | true =>
    refine settled_structArray_true (a := queryIndexes) fun i =>
      settled_entries rfl ?_ (by simp [queryIndexEntries]) ?_
    · simp [queryIndexes, queryIndexEntries]
    · simp only [queryIndexEntries, if_true, List.cons_append, List.nil_append, List.forall_mem_cons]
      exact ⟨settled_text _, settled_primitive i.indexType.2, settled_primitive i.inlineSize.2,
        settled_indexFields _, settled_primitive i.similarityFunction.2, by simp⟩
  | false =>
    refine settled_structArray_true (a := queryIndexesNoSimilarity) fun i =>
      settled_entries rfl ?_ (by simp [queryIndexEntries]) ?_
    · simp [queryIndexesNoSimilarity]
    · simp only [queryIndexEntries, Bool.false_eq_true, if_false, List.append_nil,
        List.forall_mem_cons]
      exact ⟨settled_text _, settled_primitive i.indexType.2, settled_primitive i.inlineSize.2,
        settled_indexFields _, by simp⟩

theorem queryFieldEntries_settled (f : QueryField) : ∀ e ∈ queryFieldEntries f,
    e.1 ≠ "default_value".toList → Settled cl e.2.1 e.2.2 True := by
  simp only [queryFieldEntries, List.forall_mem_cons]
  exact ⟨fun _ => settled_text _, fun _ => settled_text _, fun _ => settled_bool _,
    fun _ => settled_bool _, fun hne => absurd rfl hne, fun _ => settled_primitive f.precision.2,
    fun _ => settled_primitive f.scale.2, by simp⟩

theorem queryEntityEntries_settled (similarity : Bool) (e : QueryEntity) :
    ∀ f ∈ queryEntityEntries similarity e, f.1 ≠ "query_fields".toList →
      Settled cl f.2.1 f.2.2 True := by
  simp only [queryEntityEntries, List.forall_mem_cons]
  exact ⟨fun _ => settled_text _, fun _ => settled_text _, fun _ => settled_text _,
    fun _ => settled_text _, fun _ => settled_text _, fun hne => absurd rfl hne,
    fun _ => settled_fieldNameAliases _, fun _ => settled_queryIndexes similarity _, by simp⟩

/-- The structure of a query entity. -/
def queryEntityFollowing (similarity : Bool) : List (PyStr × FieldClass) :=
  if similarity then queryEntities.following else queryEntitiesNoSimilarity.following

theorem queryEntityFollowing_eq (similarity : Bool) (e : QueryEntity) :
    queryEntityFollowing similarity =
      (queryEntityEntries similarity e).map fun f => (f.1, .plain f.2.1) := by
  cases similarity <;> rfl

/-- A query field gives its values back exactly where its default value is given back. -/
theorem settled_queryField (f : QueryField) (h : Settled cl anyDataObject f.defaultValue G) :
    Settled cl (Struct.wireClass ⟨queryFields.following, queryFields.defaults⟩)
      (queryFieldEntries f).value G := by
  refine settled_struct_one (queryFieldEntries f)
    (f := ("default_value".toList, anyDataObject, f.defaultValue)) (by simp [queryFieldEntries]) rfl
    ?_ (by simp [queryFieldEntries]) h (queryFieldEntries_settled f)
  simp [queryFields, queryFieldEntries]

/-- The query fields of an entity whose default values are given back under the condition `Gd`. -/
theorem settled_queryEntity (similarity : Bool) (e : QueryEntity) {Gd : PyValue → Prop}
    (h : ∀ f ∈ e.queryFields.1, Settled cl anyDataObject f.defaultValue (Gd f.defaultValue)) :
    Settled cl (Struct.wireClass ⟨queryEntityFollowing similarity, []⟩)
      (queryEntityEntries similarity e).value (∀ f ∈ e.queryFields.1, Gd f.defaultValue) :=
  settled_struct_one (queryEntityEntries similarity e)
    (f := ("query_fields".toList, queryFields.wireClass,
      .list (e.queryFields.1.map fun f => (queryFieldEntries f).value)))
    (by simp [queryEntityEntries]) (queryEntityFollowing_eq similarity e) (by simp)
    (by simp [queryEntityEntries])
    (settled_structArray (fun f hf => settled_queryField f (h f hf)) e.queryFields.2)
    (queryEntityEntries_settled similarity e)

/-- The query entities give their values back exactly where all default values are given back. -/
theorem settled_queryEntities [FloatMillis] (similarity : Bool) (config : CacheConfig)
    {Gd : PyValue → Prop} (h : ∀ d ∈ config.defaults, Settled cl anyDataObject d (Gd d)) :
    Settled cl (queryEntitiesClass similarity)
      (.list (config.queryEntities.1.map fun e => (queryEntityEntries similarity e).value))
      (∀ d ∈ config.defaults, Gd d) := by
  have hentity : ∀ e ∈ config.queryEntities.1,
      Settled cl (Struct.wireClass ⟨queryEntityFollowing similarity, []⟩)
        (queryEntityEntries similarity e).value
        (∀ f ∈ e.queryFields.1, Gd f.defaultValue) := fun e he =>
    settled_queryEntity similarity e fun f hf =>
      h _ (List.mem_flatMap.mpr ⟨e, he, List.mem_map_of_mem hf⟩)
  have hall : (∀ e ∈ config.queryEntities.1, ∀ f ∈ e.queryFields.1, Gd f.defaultValue) ↔
      ∀ d ∈ config.defaults, Gd d := by
    constructor
    · intro hall d hd
      obtain ⟨e, he, hd⟩ := List.mem_flatMap.mp hd
      obtain ⟨f, hf, rfl⟩ := List.mem_map.mp hd
      exact hall e he f hf
    · exact fun hall e he f hf => hall _ (List.mem_flatMap.mpr ⟨e, he, List.mem_map_of_mem hf⟩)
  cases similarity with
  | true => exact (settled_structArray (a := queryEntities) hentity config.queryEntities.2).iff hall
  | false =>
    exact (settled_structArray (a := queryEntitiesNoSimilarity) hentity config.queryEntities.2).iff
      hall

end Entities

/-! ### Property codes -/

/-- The settings of a configuration: everything but its length. -/
def settings (config : List (PyStr × PyValue)) : List (PyStr × PyValue) :=
  config.filter fun p => p.1 ≠ "length".toList

theorem foldlM_compactSetting {config : List (PyStr × PyValue)} {code : PyStr → ℤ}
    (hcode : ∀ p ∈ settings config, settingCode p.1 = some (code p.1)) (acc : List (ℤ × PyValue))
    (hnd : (acc.map (·.1) ++ (settings config).map fun p => code p.1).Nodup) :
    config.foldlM compactSetting acc =
      .ok (acc ++ (settings config).map fun p => (code p.1, p.2)) := by
  induction config generalizing acc with
  | nil => exact congrArg Except.ok (List.append_nil acc).symm
  | cons p config ih =>
    rw [List.foldlM_cons]
    by_cases hp : p.1 = "length".toList
    · have hrest : settings (p :: config) = settings config :=
        List.filter_cons_of_neg fun hne => of_decide_eq_true hne hp
      rw [hrest] at hcode hnd ⊢
      rw [compactSetting, if_pos hp]
      exact ih hcode acc hnd
    · have hrest : settings (p :: config) = p :: settings config :=
        List.filter_cons_of_pos (decide_eq_true hp)
      rw [hrest, List.forall_mem_cons] at hcode
      rw [hrest, List.map_cons] at hnd
      have hnew : code p.1 ∉ acc.map (·.1) := fun hmem =>
        (List.nodup_append.mp hnd).2.2 _ hmem _ List.mem_cons_self rfl
      rw [compactSetting, if_neg hp, hcode.1]
      refine (ih hcode.2 _ ?_).trans ?_
      · rw [dictSet_of_not_mem _ hnew, List.map_append]
        simpa using hnd
      · rw [dictSet_of_not_mem _ hnew, hrest]
        simp

section Symmetry
variable [Python] [OtherCodecs] [FloatMillis] {cl : Client} {c : ProtocolContext}
  {name : PyStr} {w : WireClass} {v : PyValue} {G : Prop}

/-- A property is written as its code and a payload, which the class of its field reads as the
value that was written. -/
def WrittenAndRead (cl : Client) (propCode : ℤ) (prop field : WireClass) (v : PyValue) : Prop :=
  ∀ s, Ready cl s → ∃ v' data,
    prop.fromPython v s = .ok (v', s.put (Scalar.short.store propCode ++ data)) ∧
      Reads (SameClient cl) field data v

omit [Python] [OtherCodecs] [FloatMillis] in
theorem Settled.writtenAndRead_iff (h : Settled cl w v G) (propCode : ℤ) :
    WrittenAndRead cl propCode (propBase propCode w) w v ↔ G := by
  have hrun : ∀ s, Ready cl s → (propBase propCode w).fromPython v s =
      w.fromPython v (s.put (Scalar.short.store propCode)) := fun s hs =>
    bind_ok (write_ok hs.emptyView _)
  constructor
  · intro hwr
    obtain ⟨v', data, hput, hread⟩ := hwr _ (ready_empty cl)
    rw [hrun _ (ready_empty cl)] at hput
    cases h with
    | refused href _ =>
      obtain ⟨e, he⟩ := href _
      cases he.symm.trans hput
    | written hw ha =>
      obtain ⟨v'', hv''⟩ := hw _ ((ready_empty cl).put (Scalar.short.store propCode))
      rw [← BinaryStream.put_put] at hput
      obtain rfl := put_injective (Prod.mk.inj (Except.ok.inj (hv''.symm.trans hput))).2
      exact ha.of_reads hread ⟨rfl, rfl⟩
  · intro hG s hs
    cases h with
    | refused _ hG' => exact absurd hG hG'
    | @written data hw ha =>
      obtain ⟨v', hv'⟩ := hw _ (hs.put (Scalar.short.store propCode))
      refine ⟨v', data, ?_, ha.kept hG⟩
      rw [hrun s hs, hv', BinaryStream.put_put]

omit [Python] [OtherCodecs] [FloatMillis] in
theorem timeout_writtenAndRead (propCode : ℤ) (t : Timeout) :
    WrittenAndRead cl propCode (timeoutProp propCode) (primitive .longlong) (.int t) := by
  have hrun : (timeoutProp propCode).fromPython (.int t) =
      (propBase propCode (primitive .longlong)).fromPython (.int t) := if_neg (not_lt.mpr t.2.2)
  intro s hs
  rw [hrun]
  exact ((settled_primitive t.2.1).writtenAndRead_iff propCode).mpr trivial s hs

/-- The property of a code writes the value of a setting, and the class of its field reads it. -/
def Symmetric (cl : Client) (c : ProtocolContext) (propCode : ℤ) (w : WireClass) (v : PyValue) :
    Prop :=
  ∃ prop, propMap propCode (some c) = some prop ∧ WrittenAndRead cl propCode prop w v

/-- The settings have property codes of their own, and every one is written and read. -/
def Symmetrical (cl : Client) (c : ProtocolContext) (config : List (PyStr × PyValue)) : Prop :=
  ∃ code : PyStr → ℤ, ((settings config).map fun p => code p.1).Nodup ∧
    compactCacheConfig config = .ok ((settings config).map fun p => (code p.1, p.2)) ∧
    ∀ name w v, (name, .plain w) ∈ (getCacheConfigStruct c).fields → (name, v) ∈ settings config →
      Symmetric cl c (code name) w v

/-- The values of a configuration that a server returns, under the names of its settings. -/
def configValues (c : ProtocolContext) (config : CacheConfig) : List (PyStr × PyValue) :=
  (configEntries c config).map fun e => (e.1, e.2.2)

/-! ### The codes of the settings -/

/-- The settings whose properties depend on nothing, with their codes. -/
def plainCodes : List (PyStr × ℤ) :=
  [("cache_atomicity_mode".toList, PROP_CACHE_ATOMICITY_MODE),
    ("backups_number".toList, PROP_BACKUPS_NUMBER), ("cache_mode".toList, PROP_CACHE_MODE),
    ("copy_on_read".toList, PROP_COPY_ON_READ),
    ("data_region_name".toList, PROP_DATA_REGION_NAME), ("eager_ttl".toList, PROP_EAGER_TTL),
    ("statistics_enabled".toList, PROP_STATISTICS_ENABLED),
    ("group_name".toList, PROP_GROUP_NAME),
    ("default_lock_timeout".toList, PROP_DEFAULT_LOCK_TIMEOUT),
    ("max_concurrent_async_operations".toList, PROP_MAX_CONCURRENT_ASYNC_OPERATIONS),
    ("max_query_iterators".toList, PROP_MAX_QUERY_ITERATORS), ("name".toList, PROP_NAME),
    ("is_onheap_cache_enabled".toList, PROP_IS_ONHEAP_CACHE_ENABLED),
    ("partition_loss_policy".toList, PROP_PARTITION_LOSS_POLICY),
    ("query_detail_metric_size".toList, PROP_QUERY_DETAIL_METRIC_SIZE),
    ("query_parallelism".toList, PROP_QUERY_PARALLELISM),
    ("read_from_backup".toList, PROP_READ_FROM_BACKUP),
    ("rebalance_batch_size".toList, PROP_REBALANCE_BATCH_SIZE),
    ("rebalance_batches_prefetch_count".toList, PROP_REBALANCE_BATCHES_PREFETCH_COUNT),
    ("rebalance_delay".toList, PROP_REBALANCE_DELAY),
    ("rebalance_mode".toList, PROP_REBALANCE_MODE),
    ("rebalance_order".toList, PROP_REBALANCE_ORDER),
    ("rebalance_throttle".toList, PROP_REBALANCE_THROTTLE),
    ("rebalance_timeout".toList, PROP_REBALANCE_TIMEOUT),
    ("sql_escape_all".toList, PROP_SQL_ESCAPE_ALL),
    ("sql_index_inline_max_size".toList, PROP_SQL_INDEX_INLINE_MAX_SIZE),
    ("sql_schema".toList, PROP_SQL_SCHEMA),
    ("write_synchronization_mode".toList, PROP_WRITE_SYNCHRONIZATION_MODE),
    ("cache_key_configuration".toList, PROP_CACHE_KEY_CONFIGURATION)]

def settingCodes : List (PyStr × ℤ) :=
  plainCodes ++ [("query_entities".toList, PROP_QUERY_ENTITIES),
    ("expiry_policy".toList, PROP_EXPIRY_POLICY)]

omit [Python] [OtherCodecs] [FloatMillis] in
theorem settingCodes_codes : ∀ p ∈ settingCodes, settingCode p.1 = some p.2 := by decide +kernel

omit [Python] [OtherCodecs] [FloatMillis] in
theorem settingCodes_nodup : (settingCodes.map (·.2)).Nodup := by decide

omit [Python] [OtherCodecs] [FloatMillis] in
theorem length_not_setting : "length".toList ∉ settingCodes.map (·.1) := by
  simp [settingCodes, plainCodes]

/-- The code of a setting that has one. -/
def codeOf (name : PyStr) : ℤ := (settingCode name).getD 0

omit [Python] [OtherCodecs] [FloatMillis] in
theorem codeOf_mem {p : PyStr × ℤ} (hp : p ∈ settingCodes) : codeOf p.1 = p.2 := by
  rw [codeOf, settingCodes_codes p hp, Option.getD_some]

omit [Python] [OtherCodecs] [FloatMillis] in
theorem codeOf_nodup : ((settingCodes.map (·.1)).map codeOf).Nodup := by
  have hcodes : (settingCodes.map (·.1)).map codeOf = settingCodes.map (·.2) := by
    rw [List.map_map]
    exact List.map_congr_left fun p hp => codeOf_mem hp
  rw [hcodes]
  exact settingCodes_nodup

/-! ### Settings that depend on nothing -/

/-- A property of the class of its field. -/
theorem symmetric_base (propCode : ℤ)
    (hprop : propMap propCode (some c) = some (propBase propCode w)) (h : Settled cl w v G)
    (hG : G) : Symmetric cl c propCode w v :=
  ⟨_, hprop, (h.writtenAndRead_iff _).mpr hG⟩

theorem propMap_plain {propCode : ℤ} {prop : WireClass} (hne : propCode ≠ PROP_QUERY_ENTITIES)
    (h : propClasses.lookup propCode = some prop) : propMap propCode (some c) = some prop :=
  (if_neg fun hand => hne hand.1).trans h

theorem propMap_queryEntities (c : ProtocolContext) :
    propMap PROP_QUERY_ENTITIES (some c) = some (propBase PROP_QUERY_ENTITIES
      (queryEntitiesClass c.isQueryIndexVectorSimilaritySupported)) := by
  unfold propMap queryEntitiesClass
  cases hsupported : c.isQueryIndexVectorSimilaritySupported
  · exact if_pos ⟨rfl, by simp [hsupported]⟩
  · exact if_neg (by simp [hsupported])

/-- A setting stands beside its code, and the property of the code writes it. -/
def Coded (cl : Client) (c : ProtocolContext) (e : PyStr × WireClass × PyValue) (p : PyStr × ℤ) :
    Prop := e.1 = p.1 ∧ Symmetric cl c p.2 e.2.1 e.2.2

theorem coded_base {propCode : ℤ} (hne : propCode ≠ PROP_QUERY_ENTITIES)
    (hprop : propClasses.lookup propCode = some (propBase propCode w)) (h : Settled cl w v True) :
    Coded cl c (name, w, v) (name, propCode) :=
  ⟨rfl, symmetric_base _ (propMap_plain hne hprop) h trivial⟩

theorem coded_timeout {propCode : ℤ} (hne : propCode ≠ PROP_QUERY_ENTITIES)
    (hprop : propClasses.lookup propCode = some (timeoutProp propCode)) (t : Timeout) :
    Coded cl c (name, primitive .longlong, .int t) (name, propCode) :=
  ⟨rfl, _, propMap_plain hne hprop, timeout_writtenAndRead _ t⟩

variable (cl c) in
theorem plainEntries_coded (config : CacheConfig) :
    List.Forall₂ (Coded cl c) (plainEntries config) plainCodes :=
  .cons (coded_base (by decide) rfl (settled_primitive config.cacheAtomicityMode.2)) <|
  .cons (coded_base (by decide) rfl (settled_primitive config.backupsNumber.2)) <|
  .cons (coded_base (by decide) rfl (settled_primitive config.cacheMode.2)) <|
  .cons (coded_base (by decide) rfl (settled_bool _)) <|
  .cons (coded_base (by decide) rfl (settled_text _)) <|
  .cons (coded_base (by decide) rfl (settled_bool _)) <|
  .cons (coded_base (by decide) rfl (settled_bool _)) <|
  .cons (coded_base (by decide) rfl (settled_text _)) <|
  .cons (coded_timeout (by decide) rfl config.defaultLockTimeout) <|
  .cons (coded_base (by decide) rfl (settled_primitive config.maxConcurrentAsyncOperations.2)) <|
  .cons (coded_base (by decide) rfl (settled_primitive config.maxQueryIterators.2)) <|
  .cons (coded_base (by decide) rfl (settled_text _)) <|
  .cons (coded_base (by decide) rfl (settled_bool _)) <|
  .cons (coded_base (by decide) rfl (settled_primitive config.partitionLossPolicy.2)) <|
  .cons (coded_base (by decide) rfl (settled_primitive config.queryDetailMetricSize.2)) <|
  .cons (coded_base (by decide) rfl (settled_primitive config.queryParallelism.2)) <|
  .cons (coded_base (by decide) rfl (settled_bool _)) <|
  .cons (coded_base (by decide) rfl (settled_primitive config.rebalanceBatchSize.2)) <|
  .cons (coded_base (by decide) rfl (settled_primitive config.rebalanceBatchesPrefetchCount.2)) <|
  .cons (coded_base (by decide) rfl (settled_primitive config.rebalanceDelay.2)) <|
  .cons (coded_base (by decide) rfl (settled_primitive config.rebalanceMode.2)) <|
  .cons (coded_base (by decide) rfl (settled_primitive config.rebalanceOrder.2)) <|
  .cons (coded_base (by decide) rfl (settled_primitive config.rebalanceThrottle.2)) <|
  .cons (coded_timeout (by decide) rfl config.rebalanceTimeout) <|
  .cons (coded_base (by decide) rfl (settled_bool _)) <|
  .cons (coded_base (by decide) rfl (settled_primitive config.sqlIndexInlineMaxSize.2)) <|
  .cons (coded_base (by decide) rfl (settled_text _)) <|
  .cons (coded_base (by decide) rfl (settled_primitive config.writeSynchronizationMode.2)) <|
  .cons (coded_base (by decide) rfl (settled_keyConfigurations _)) .nil

/-! ### All settings -/

/-- The query entities are settled as their class is, and everything else is written and read. -/
theorem contextEntries_coded (config : CacheConfig)
    (h : Symmetric cl c PROP_QUERY_ENTITIES
      (queryEntitiesClass c.isQueryIndexVectorSimilaritySupported)
      (config.entities c.isQueryIndexVectorSimilaritySupported)) :
    ∃ codes, codes.Sublist [("query_entities".toList, PROP_QUERY_ENTITIES),
        ("expiry_policy".toList, PROP_EXPIRY_POLICY)] ∧
      List.Forall₂ (Coded cl c) (contextEntries c config) codes := by
  unfold contextEntries
  cases c.isExpiryPolicySupported with
  | true =>
    exact ⟨_, List.Sublist.refl _, .cons ⟨rfl, h⟩ <|
      .cons (coded_base (by decide) rfl (settled_policy _)) .nil⟩
  | false => exact ⟨_, List.sublist_append_left [_] _, .cons ⟨rfl, h⟩ .nil⟩

theorem forall₂_coded_names {entries : Entries} {codes : List (PyStr × ℤ)}
    (h : List.Forall₂ (Coded cl c) entries codes) : entries.map (·.1) = codes.map (·.1) := by
  rw [← List.forall₂_eq_eq_eq, List.forall₂_map_left_iff, List.forall₂_map_right_iff]
  exact h.imp fun _ _ hcoded => hcoded.1

theorem settingEntries_names (c : ProtocolContext) (config : CacheConfig) :
    ((settingEntries c config).map (·.1)).Sublist (settingCodes.map (·.1)) := by
  have hplain := forall₂_coded_names (plainEntries_coded someClient c config)
  rw [settingEntries, settingCodes, List.map_append, List.map_append, hplain]
  refine (List.Sublist.refl _).append ?_
  unfold contextEntries
  split_ifs
  · exact List.Sublist.refl _
  · exact List.sublist_append_left [_] _

theorem configEntries_nodup (c : ProtocolContext) (config : CacheConfig) :
    ((configEntries c config).map (·.1)).Nodup := by
  have hsub := settingEntries_names c config
  rw [configEntries, List.map_cons, List.nodup_cons]
  exact ⟨fun hmem => length_not_setting (hsub.subset hmem), hsub.nodup (codeOf_nodup.of_map _)⟩

theorem settings_configValues (c : ProtocolContext) (config : CacheConfig) :
    settings (configValues c config) = (settingEntries c config).map fun e => (e.1, e.2.2) := by
  have hlength : settings (configValues c config) =
      settings ((settingEntries c config).map fun e => (e.1, e.2.2)) :=
    List.filter_cons_of_neg fun hne => of_decide_eq_true hne rfl
  rw [hlength]
  refine List.filter_eq_self.mpr fun p hp => decide_eq_true fun hlength => ?_
  obtain ⟨e, he, rfl⟩ := List.mem_map.mp hp
  exact length_not_setting
    (hlength ▸ (settingEntries_names c config).subset (List.mem_map_of_mem he))

theorem settingEntries_codeOf {e : PyStr × WireClass × PyValue} {config : CacheConfig}
    (he : e ∈ settingEntries c config) : settingCode e.1 = some (codeOf e.1) := by
  obtain ⟨p, hp, hname⟩ := List.mem_map.mp
    ((settingEntries_names c config).subset (List.mem_map_of_mem he))
  rw [← hname, codeOf_mem hp]
  exact settingCodes_codes p hp

theorem symmetric_of_coded {entries : Entries} {codes : List (PyStr × ℤ)}
    (h : List.Forall₂ (Coded cl c) entries codes) (hcodes : ∀ p ∈ codes, p ∈ settingCodes) :
    ∀ e ∈ entries, Symmetric cl c (codeOf e.1) e.2.1 e.2.2 := by
  intro e he
  obtain ⟨p, hp, hname, hsymmetric⟩ := forall₂_mem h he
  rw [hname, codeOf_mem (hcodes p hp)]
  exact hsymmetric

/-- `compact_cache_config` gives every setting the code of its own. -/
theorem compactCacheConfig_ok (c : ProtocolContext) (config : CacheConfig) :
    ((settings (configValues c config)).map fun p => codeOf p.1).Nodup ∧
      compactCacheConfig (configValues c config) =
        .ok ((settings (configValues c config)).map fun p => (codeOf p.1, p.2)) := by
  have hnd : ((settings (configValues c config)).map fun p => codeOf p.1).Nodup := by
    have hsub := ((settingEntries_names c config).map codeOf).nodup codeOf_nodup
    rw [settings_configValues, List.map_map]
    rwa [List.map_map] at hsub
  refine ⟨hnd, foldlM_compactSetting ?_ [] (by simpa using hnd)⟩
  rw [settings_configValues, List.forall_mem_map]
  exact fun e he => settingEntries_codeOf he

/-- Where every default value is settled, so is the symmetry of the configuration. -/
theorem symmetrical_iff (config : CacheConfig) {Gd : PyValue → Prop}
    (h : ∀ d ∈ config.defaults, Settled cl anyDataObject d (Gd d)) :
    Symmetrical cl c (configValues c config) ↔ ∀ d ∈ config.defaults, Gd d := by
  have hentities := settled_queryEntities c.isQueryIndexVectorSimilaritySupported config h
  obtain ⟨hnd, hcompact⟩ := compactCacheConfig_ok c config
  constructor
  · rintro ⟨code, -, hcode, hall⟩
    have hmem : ("query_entities".toList, queryEntitiesClass c.isQueryIndexVectorSimilaritySupported,
        config.entities c.isQueryIndexVectorSimilaritySupported) ∈ settingEntries c config :=
      List.mem_append_right _ List.mem_cons_self
    have hsetting := settings_configValues c config ▸ List.mem_map_of_mem hmem
    -- the code of the query entities is the one that was found for them
    have hsame := List.map_inj_left.mp (Except.ok.inj (hcode.symm.trans hcompact)) _ hsetting
    have hqe : code "query_entities".toList = PROP_QUERY_ENTITIES :=
      (Prod.mk.inj hsame).1.trans (codeOf_mem (p := (_, PROP_QUERY_ENTITIES))
        (List.mem_append_right _ List.mem_cons_self))
    obtain ⟨prop, hprop, hwr⟩ := hall _ _ _ (by
      rw [configEntries_fields c config]
      exact List.mem_map_of_mem (List.mem_cons_of_mem _ hmem)) hsetting
    rw [hqe] at hprop hwr
    obtain rfl := Option.some.inj ((propMap_queryEntities c).symm.trans hprop)
    exact (hentities.writtenAndRead_iff _).mp hwr
  · intro hG
    obtain ⟨codes, hsub, hcontext⟩ := contextEntries_coded config
      (symmetric_base _ (propMap_queryEntities c) hentities hG)
    have hall := symmetric_of_coded
      (List.rel_append (plainEntries_coded cl c config) hcontext) fun p hp =>
        (((List.Sublist.refl _).append hsub).subset hp)
    refine ⟨codeOf, hnd, hcompact, fun name w v hfield hsetting => ?_⟩
    rw [settings_configValues] at hsetting
    rw [configEntries_fields c config] at hfield
    obtain ⟨e, he, heq⟩ := List.mem_map.mp hfield
    obtain ⟨e', he', heq'⟩ := List.mem_map.mp hsetting
    obtain ⟨hname, hclass⟩ := Prod.mk.inj heq
    obtain ⟨hname', rfl⟩ := Prod.mk.inj heq'
    obtain rfl := List.inj_on_of_nodup_map (configEntries_nodup c config) he
      (List.mem_cons_of_mem _ he') (hname.trans hname'.symm)
    obtain rfl := FieldClass.plain.inj hclass
    exact hname ▸ hall e he'

end Symmetry

/-! ### Default values -/

section Defaults
variable [Python] [OtherCodecs] {cl : Client} {d : PyValue}

/-- A default value that the inference gives back: a plain one that comes back as it was, or one
that is written by its own class. -/
def Inferable (cl : Client) (d : PyValue) : Prop := PyValue.Restored d ∨ Recognized cl d

theorem settled_default (h : PyValue.Plain d ∨ Recognized cl d ∨ Refuses anyDataObject d) :
    Settled cl anyDataObject d (Inferable cl d) := by
  rcases h with hp | hrecognized | href
  · have hsettled : Settled cl anyDataObject d (PyValue.Restored d) := settled_plain hp
    refine hsettled.iff ⟨Or.inl, fun hd => hd.elim id fun hrecognized => ?_⟩
    exact (hsettled.unique hrecognized.settled).mpr trivial
  · exact hrecognized.settled.iff ⟨fun _ => .inr hrecognized, fun _ => trivial⟩
  · have hsettled : Settled cl anyDataObject d False := .refused href id
    refine hsettled.iff ⟨False.elim, fun hd => hd.elim (fun hr => ?_) fun hrecognized => ?_⟩
    · exact (hsettled.unique (settled_plain hr.plain)).mpr hr
    · exact (hsettled.unique hrecognized.settled).mpr trivial

theorem Inferable.settled (h : Inferable cl d) : Settled cl anyDataObject d (Inferable cl d) :=
  settled_default (h.elim (fun hr => .inl hr.plain) fun hrecognized => .inr (.inl hrecognized))

/-- A configuration is read and written symmetrically if the inference gives all default values of
its query fields back, and of those that are plain, recognized or refused it must. -/
theorem cacheSettings_symmetrical [FloatMillis] (c : ProtocolContext) (config : CacheConfig) :
    ((∀ d ∈ config.defaults, Inferable cl d) → Symmetrical cl c (configValues c config)) ∧
      ((∀ d ∈ config.defaults, PyValue.Plain d ∨ Recognized cl d ∨ Refuses anyDataObject d) →
        Symmetrical cl c (configValues c config) → ∀ d ∈ config.defaults, Inferable cl d) :=
  ⟨fun h => (symmetrical_iff config fun d hd => (h d hd).settled).mpr h,
    fun h => (symmetrical_iff config fun d hd => settled_default (h d hd)).mp⟩

/-! ### Configurations that servers return -/

/-- Some bytes are read as the value. -/
def ReturnedAs (cl : Client) (w : WireClass) (v : PyValue) : Prop :=
  ∃ data, Reads (SameClient cl) w data v

omit [Python] [OtherCodecs] in
theorem Settled.returned {w : WireClass} {v : PyValue} (h : Settled cl w v True) :
    ReturnedAs cl w v := by
  cases h with
  | refused _ hG => exact absurd trivial hG
  | written _ ha => exact ⟨_, ha.kept trivial⟩

omit [Python] [OtherCodecs] in
theorem returned_struct {s : Struct} {entries : Entries}
    (hs : s.fields = entries.map fun e => (e.1, .plain e.2.1)) (hnd : (entries.map (·.1)).Nodup)
    (h : ∀ e ∈ entries, ReturnedAs cl e.2.1 e.2.2) : ReturnedAs cl s.wireClass entries.value := by
  choose! bytes hread using h
  have hall := reads_plainStruct (I := SameClient cl) (s := s)
    (entries.map fun e => (e.1, e.2.1, bytes e, e.2.2)) (by rw [hs, List.map_map]; rfl)
    (List.forall_mem_map.mpr hread) (by simpa [Function.comp_def] using hnd)
  rw [List.map_map] at hall
  exact ⟨_, hall⟩

omit [Python] [OtherCodecs] in
theorem returned_structArray {α : Type} {a : StructArray} {value : α → PyValue} {xs : Listed α}
    (h : ∀ x ∈ xs.1, ReturnedAs cl (Struct.wireClass ⟨a.following, []⟩) (value x)) :
    ReturnedAs cl a.wireClass (.list (xs.1.map value)) := by
  choose! bytes hread using h
  exact ⟨_, reads_each hread xs.2⟩

theorem returned_queryEntity (similarity : Bool) (e : QueryEntity)
    (h : ∀ f ∈ e.queryFields.1, ReturnedAs cl anyDataObject f.defaultValue) :
    ReturnedAs cl (Struct.wireClass ⟨queryEntityFollowing similarity, []⟩)
      (queryEntityEntries similarity e).value := by
  have hfield : ∀ f ∈ e.queryFields.1,
      ReturnedAs cl (Struct.wireClass ⟨queryFields.following, []⟩) (queryFieldEntries f).value := by
    intro f hf
    refine returned_struct rfl (by simp [queryFieldEntries]) fun entry hentry => ?_
    by_cases hname : entry.1 = "default_value".toList
    · obtain rfl := List.inj_on_of_nodup_map (by simp [queryFieldEntries])
        (y := ("default_value".toList, anyDataObject, f.defaultValue)) hentry
        (by simp [queryFieldEntries]) hname
      exact h f hf
    · exact (queryFieldEntries_settled f entry hentry hname).returned
  refine returned_struct (queryEntityFollowing_eq similarity e) (by simp [queryEntityEntries])
    fun entry hentry => ?_
  by_cases hname : entry.1 = "query_fields".toList
  · obtain rfl := List.inj_on_of_nodup_map (by simp [queryEntityEntries])
      (y := ("query_fields".toList, queryFields.wireClass,
        PyValue.list (e.queryFields.1.map fun f => (queryFieldEntries f).value))) hentry
      (by simp [queryEntityEntries]) hname
    exact returned_structArray hfield
  · exact (queryEntityEntries_settled similarity e entry hentry hname).returned

variable [FloatMillis]

theorem Symmetric.returned {c : ProtocolContext} {propCode : ℤ} {w : WireClass} {v : PyValue}
    (h : Symmetric cl c propCode w v) : ReturnedAs cl w v := by
  obtain ⟨_, -, hwr⟩ := h
  obtain ⟨_, data, -, hread⟩ := hwr _ (ready_empty cl)
  exact ⟨data, hread⟩

/-- A server can return every configuration whose default values it can return. -/
theorem returned_config (c : ProtocolContext) (config : CacheConfig)
    (h : ∀ d ∈ config.defaults, ReturnedAs cl anyDataObject d) :
    ReturnedAs cl (getCacheConfigStruct c).wireClass (strDict (configValues c config)) := by
  have hentity : ∀ e ∈ config.queryEntities.1, ReturnedAs cl
      (Struct.wireClass ⟨queryEntityFollowing c.isQueryIndexVectorSimilaritySupported, []⟩)
      (queryEntityEntries c.isQueryIndexVectorSimilaritySupported e).value := fun e he =>
    returned_queryEntity _ e fun f hf => h _ (List.mem_flatMap.mpr ⟨e, he, List.mem_map_of_mem hf⟩)
  have hentities : ReturnedAs cl (queryEntitiesClass c.isQueryIndexVectorSimilaritySupported)
      (config.entities c.isQueryIndexVectorSimilaritySupported) := by
    unfold CacheConfig.entities
    cases hsupported : c.isQueryIndexVectorSimilaritySupported <;> rw [hsupported] at hentity
    · exact returned_structArray (a := queryEntitiesNoSimilarity) hentity
    · exact returned_structArray (a := queryEntities) hentity
  refine returned_struct (configEntries_fields c config) (configEntries_nodup c config) ?_
  rw [configEntries, List.forall_mem_cons, settingEntries, List.forall_mem_append]
  refine ⟨(settled_primitive config.length.2).returned, fun e he => ?_, ?_⟩
  · obtain ⟨p, -, hcoded⟩ := forall₂_mem (plainEntries_coded cl c config) he
    exact hcoded.2.returned
  · unfold contextEntries
    split_ifs
    · simp only [List.singleton_append, List.forall_mem_cons]
      exact ⟨hentities, (settled_policy _).returned, by simp⟩
    · simpa using hentities

end Defaults

/-- A configuration with one query field of the default value `d`. -/
def oneFieldConfig (d : PyValue) : CacheConfig where
  length := ⟨0, by decide⟩
  cacheAtomicityMode := ⟨1, by decide⟩
  backupsNumber := ⟨0, by decide⟩
  cacheMode := ⟨2, by decide⟩
  copyOnRead := true
  dataRegionName := none
  eagerTtl := true
  statisticsEnabled := false
  groupName := none
  defaultLockTimeout := ⟨0, by decide, by decide⟩
  maxConcurrentAsyncOperations := ⟨500, by decide⟩
  maxQueryIterators := ⟨1024, by decide⟩
  name := none
  isOnheapCacheEnabled := false
  partitionLossPolicy := ⟨4, by decide⟩
  queryDetailMetricSize := ⟨0, by decide⟩
  queryParallelism := ⟨1, by decide⟩
  readFromBackup := true
  rebalanceBatchSize := ⟨524288, by decide⟩
  rebalanceBatchesPrefetchCount := ⟨2, by decide⟩
  rebalanceDelay := ⟨0, by decide⟩
  rebalanceMode := ⟨1, by decide⟩
  rebalanceOrder := ⟨0, by decide⟩
  rebalanceThrottle := ⟨0, by decide⟩
  rebalanceTimeout := ⟨10000, by decide, by decide⟩
  sqlEscapeAll := false
  sqlIndexInlineMaxSize := ⟨-1, by decide⟩
  sqlSchema := none
  writeSynchronizationMode := ⟨2, by decide⟩
  cacheKeyConfiguration := ⟨[], by decide⟩
  queryEntities := ⟨[{
    keyTypeName := none
    valueTypeName := none
    tableName := none
    keyFieldName := none
    valueFieldName := none
    queryFields := ⟨[{
      name := none
      typeName := none
      isKeyField := false
      isNotnullConstraintField := false
      defaultValue := d
      precision := ⟨-1, by decide⟩
      scale := ⟨-1, by decide⟩ }], by simp⟩
    fieldNameAliases := ⟨[], by decide⟩
    queryIndexes := ⟨[], by decide⟩ }], by simp⟩
  expiryPolicy := none

/-- A default value that is a list of two numbers comes back as it was, with the whole of the
configuration. -/
theorem cacheSettings_symmetrical_list :
    let _ : Python := asciiLower
    let _ : OtherCodecs := noOtherCodecs
    let _ : FloatMillis := ⟨fun us => us / 1000⟩
    let cl : Client := ⟨some true, fun _ => [], fun _ => []⟩
    let c : ProtocolContext := ⟨⟨1, 7, 0⟩, none⟩
    Symmetrical cl c (configValues c (oneFieldConfig (.list [.int 5, .int 1]))) := by
  intro _ _ _ cl c
  have hdefaults : (oneFieldConfig (.list [.int 5, .int 1])).defaults =
      [.list [.int 5, .int 1]] := rfl
  refine (cacheSettings_symmetrical c _).1 ?_
  rw [hdefaults, List.forall_mem_singleton]
  exact .inl (.longs (List.cons_ne_nil 5 [1]) (by decide) (by decide))

/-- A default value that is an enum comes back as a list of two numbers. -/
theorem not_symmetrical_enum :
    let _ : Python := asciiLower
    let _ : OtherCodecs := noOtherCodecs
    let _ : FloatMillis := ⟨fun us => us / 1000⟩
    let cl : Client := ⟨some true, fun _ => [], fun _ => []⟩
    let c : ProtocolContext := ⟨⟨1, 7, 0⟩, none⟩
    let config := configValues c (oneFieldConfig (.tuple [.int 5, .int 1]))
    ReturnedAs cl (getCacheConfigStruct c).wireClass (strDict config) ∧
      ¬Symmetrical cl c config := by
  intro _ _ _ cl c config
  have hdefaults : (oneFieldConfig (.tuple [.int 5, .int 1])).defaults =
      [.tuple [.int 5, .int 1]] := rfl
  have henum : Encodable cl cl.compactFooter .enumObject (.tuple [.int 5, .int 1]) :=
    .enum (Or.inl rfl) (by decide) (by decide)
  have hplain : PyValue.Plain (.tuple [.int 5, .int 1]) := .tuple (by
    simp only [List.forall_mem_cons]
    exact ⟨.int (by decide), .int (by decide), by simp⟩)
  constructor
  · refine returned_config c _ fun d hd => ?_
    rw [hdefaults, List.mem_singleton] at hd
    exact hd ▸ ⟨_, henum.readsAny (by simp [SchemasFound, objects])⟩
  · have hsettled : ∀ d ∈ (oneFieldConfig (.tuple [.int 5, .int 1])).defaults,
        Settled cl anyDataObject d (PyValue.Restored d) := by
      rw [hdefaults, List.forall_mem_singleton]
      exact settled_plain hplain
    rw [symmetrical_iff _ hsettled, hdefaults, List.forall_mem_singleton]
    rintro ⟨⟩

end PyGridGain
