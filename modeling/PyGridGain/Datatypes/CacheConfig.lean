import PyGridGain.Connection.ProtocolContext
import PyGridGain.Datatypes.Payloads

/-! The configuration of a cache: the structure that a server returns it in, and the properties
that a client writes it with, each under its property code. -/

namespace PyGridGain

open StreamM

/-! ### `ExpiryPolicy` -/

/-- `math.floor(value.total_seconds() * 1000)` of a `timedelta`, which is rounded as floats are. -/
class FloatMillis where
  floorMillis : ℤ → ℤ

/- An instance is given by the tuple of its durations `create`, `update` and `access`. -/
namespace ExpiryPolicyClass

def UNCHANGED : ℤ := -2

def ETERNAL : ℤ := -1

/-- `_positive`, for a number of milliseconds. -/
def positive (value : ℤ) : Except PyError Unit :=
  if value < 0 ∧ value ∉ [UNCHANGED, ETERNAL] then raise .valueError "value must not be negative"
  else .ok ()

/-- `_CType`. -/
def layout : Layout :=
  .struct [(.field "not_null".toList, .scalar .byte), (.field "create".toList, .scalar .longlong),
    (.field "update".toList, .scalar .longlong), (.field "access".toList, .scalar .longlong)]

def parse : StreamM Layout := do
  let notNull ← peek 1
  if leNat notNull != 0 then seekPast layout else seekPast (.scalar .byte)

def toPython (o : CObject) : Except PyError PyValue :=
  if o.value = some 0 then .ok .none
  else do
    let create ← o.intAttr (.field "create".toList)
    let update ← o.intAttr (.field "update".toList)
    let access ← o.intAttr (.field "access".toList)
    positive create
    positive update
    positive access
    .ok (.tuple [.int create, .int update, .int access])

variable [FloatMillis]

def writeDuration (value : PyValue) : StreamM Unit := do
  let millis ← match value with
    | .timedelta us => pure (FloatMillis.floorMillis us)
    | v => ofOption v.toInt? .attributeError
  let b ← ofOption (signedBytes 8 millis) .overflowError
  write b

def writePolicy (value : PyValue) : StreamM Unit :=
  match value with
  | .tuple [create, update, access] => do
    writeDuration create
    writeDuration update
    writeDuration access
  | _ => fun _ => raise .attributeError

def fromPython (value : PyValue) : StreamM PyValue :=
  if !value.truthy then do
    write [0]
    pure value
  else do
    write [1]
    writePolicy value
    pure value

def wireClass : WireClass := ⟨fromPython, parse, fun _ => toPython⟩

end ExpiryPolicyClass

/-! ### The structure -/

section Structures

/- The subclasses of `Int` and of `Byte` only name values of theirs. -/
def cacheMode : WireClass := primitive .int

def partitionLossPolicy : WireClass := primitive .int

def rebalanceMode : WireClass := primitive .int

def writeSynchronizationMode : WireClass := primitive .int

def indexType : WireClass := primitive .byte

def cacheAtomicityMode : WireClass := primitive .int

variable [Python] [OtherCodecs]

def queryFields : StructArray where
  following := [("name".toList, .plain (wireClass .string)),
    ("type_name".toList, .plain (wireClass .string)), ("is_key_field".toList, .plain boolClass),
    ("is_notnull_constraint_field".toList, .plain boolClass),
    ("default_value".toList, .plain anyDataObject), ("precision".toList, .plain (primitive .int)),
    ("scale".toList, .plain (primitive .int))]
  defaults := [("is_key_field".toList, .bool false),
    ("is_notnull_constraint_field".toList, .bool false), ("default_value".toList, .none),
    ("precision".toList, .int (-1)), ("scale".toList, .int (-1))]

def fieldNameAliases : StructArray where
  following := [("field_name".toList, .plain (wireClass .string)),
    ("alias".toList, .plain (wireClass .string))]

def indexFields : StructArray where
  following := [("name".toList, .plain (wireClass .string)),
    ("is_descending".toList, .plain boolClass)]
  defaults := [("is_descending".toList, .bool false)]

def queryIndexes : StructArray where
  following := [("index_name".toList, .plain (wireClass .string)),
    ("index_type".toList, .plain indexType), ("inline_size".toList, .plain (primitive .int)),
    ("fields".toList, .plain indexFields.wireClass),
    ("similarity_function".toList, .plain (primitive .int))]
  defaults := [("similarity_function".toList, .int 0)]

def queryIndexesNoSimilarity : StructArray where
  following := [("index_name".toList, .plain (wireClass .string)),
    ("index_type".toList, .plain indexType), ("inline_size".toList, .plain (primitive .int)),
    ("fields".toList, .plain indexFields.wireClass)]

def queryEntities : StructArray where
  following := [("key_type_name".toList, .plain (wireClass .string)),
    ("value_type_name".toList, .plain (wireClass .string)),
    ("table_name".toList, .plain (wireClass .string)),
    ("key_field_name".toList, .plain (wireClass .string)),
    ("value_field_name".toList, .plain (wireClass .string)),
    ("query_fields".toList, .plain queryFields.wireClass),
    ("field_name_aliases".toList, .plain fieldNameAliases.wireClass),
    ("query_indexes".toList, .plain queryIndexes.wireClass)]

def queryEntitiesNoSimilarity : StructArray where
  following := [("key_type_name".toList, .plain (wireClass .string)),
    ("value_type_name".toList, .plain (wireClass .string)),
    ("table_name".toList, .plain (wireClass .string)),
    ("key_field_name".toList, .plain (wireClass .string)),
    ("value_field_name".toList, .plain (wireClass .string)),
    ("query_fields".toList, .plain queryFields.wireClass),
    ("field_name_aliases".toList, .plain fieldNameAliases.wireClass),
    ("query_indexes".toList, .plain queryIndexesNoSimilarity.wireClass)]

def cacheKeyConfiguration : StructArray where
  following := [("type_name".toList, .plain (wireClass .string)),
    ("affinity_key_field_name".toList, .plain (wireClass .string))]

variable [FloatMillis]

def getCacheConfigStruct (c : ProtocolContext) : Struct where
  fields := [("length".toList, .plain (primitive .int)),
    ("cache_atomicity_mode".toList, .plain cacheAtomicityMode),
    ("backups_number".toList, .plain (primitive .int)), ("cache_mode".toList, .plain cacheMode),
    ("copy_on_read".toList, .plain boolClass),
    ("data_region_name".toList, .plain (wireClass .string)), ("eager_ttl".toList, .plain boolClass),
    ("statistics_enabled".toList, .plain boolClass),
    ("group_name".toList, .plain (wireClass .string)),
    ("default_lock_timeout".toList, .plain (primitive .longlong)),
    ("max_concurrent_async_operations".toList, .plain (primitive .int)),
    ("max_query_iterators".toList, .plain (primitive .int)),
    ("name".toList, .plain (wireClass .string)),
    ("is_onheap_cache_enabled".toList, .plain boolClass),
    ("partition_loss_policy".toList, .plain partitionLossPolicy),
    ("query_detail_metric_size".toList, .plain (primitive .int)),
    ("query_parallelism".toList, .plain (primitive .int)),
    ("read_from_backup".toList, .plain boolClass),
    ("rebalance_batch_size".toList, .plain (primitive .int)),
    ("rebalance_batches_prefetch_count".toList, .plain (primitive .longlong)),
    ("rebalance_delay".toList, .plain (primitive .longlong)),
    ("rebalance_mode".toList, .plain rebalanceMode),
    ("rebalance_order".toList, .plain (primitive .int)),
    ("rebalance_throttle".toList, .plain (primitive .longlong)),
    ("rebalance_timeout".toList, .plain (primitive .longlong)),
    ("sql_escape_all".toList, .plain boolClass),
    ("sql_index_inline_max_size".toList, .plain (primitive .int)),
    ("sql_schema".toList, .plain (wireClass .string)),
    ("write_synchronization_mode".toList, .plain writeSynchronizationMode),
    ("cache_key_configuration".toList, .plain cacheKeyConfiguration.wireClass)] ++
    (if c.isQueryIndexVectorSimilaritySupported then
      [("query_entities".toList, .plain queryEntities.wireClass)]
    else [("query_entities".toList, .plain queryEntitiesNoSimilarity.wireClass)]) ++
    (if c.isExpiryPolicySupported then
      [("expiry_policy".toList, .plain ExpiryPolicyClass.wireClass)] else [])

end Structures

/-! ### The properties -/

def PROP_NAME : ℤ := 0
def PROP_CACHE_MODE : ℤ := 1
def PROP_CACHE_ATOMICITY_MODE : ℤ := 2
def PROP_BACKUPS_NUMBER : ℤ := 3
def PROP_WRITE_SYNCHRONIZATION_MODE : ℤ := 4
def PROP_COPY_ON_READ : ℤ := 5
def PROP_READ_FROM_BACKUP : ℤ := 6

def PROP_DATA_REGION_NAME : ℤ := 100
def PROP_IS_ONHEAP_CACHE_ENABLED : ℤ := 101

def PROP_QUERY_ENTITIES : ℤ := 200
def PROP_QUERY_PARALLELISM : ℤ := 201
def PROP_QUERY_DETAIL_METRIC_SIZE : ℤ := 202
def PROP_SQL_SCHEMA : ℤ := 203
def PROP_SQL_INDEX_INLINE_MAX_SIZE : ℤ := 204
def PROP_SQL_ESCAPE_ALL : ℤ := 205
def PROP_MAX_QUERY_ITERATORS : ℤ := 206

def PROP_REBALANCE_MODE : ℤ := 300
def PROP_REBALANCE_DELAY : ℤ := 301
def PROP_REBALANCE_TIMEOUT : ℤ := 302
def PROP_REBALANCE_BATCH_SIZE : ℤ := 303
def PROP_REBALANCE_BATCHES_PREFETCH_COUNT : ℤ := 304
def PROP_REBALANCE_ORDER : ℤ := 305
def PROP_REBALANCE_THROTTLE : ℤ := 306

def PROP_GROUP_NAME : ℤ := 400
def PROP_CACHE_KEY_CONFIGURATION : ℤ := 401
def PROP_DEFAULT_LOCK_TIMEOUT : ℤ := 402
def PROP_MAX_CONCURRENT_ASYNC_OPERATIONS : ℤ := 403
def PROP_PARTITION_LOSS_POLICY : ℤ := 404
def PROP_EAGER_TTL : ℤ := 405
def PROP_STATISTICS_ENABLED : ℤ := 406
def PROP_EXPIRY_POLICY : ℤ := 407

/-- The names of the module `prop_codes`. -/
def propCodes : List (PyStr × ℤ) :=
  [("PROP_NAME".toList, PROP_NAME), ("PROP_CACHE_MODE".toList, PROP_CACHE_MODE),
    ("PROP_CACHE_ATOMICITY_MODE".toList, PROP_CACHE_ATOMICITY_MODE),
    ("PROP_BACKUPS_NUMBER".toList, PROP_BACKUPS_NUMBER),
    ("PROP_WRITE_SYNCHRONIZATION_MODE".toList, PROP_WRITE_SYNCHRONIZATION_MODE),
    ("PROP_COPY_ON_READ".toList, PROP_COPY_ON_READ),
    ("PROP_READ_FROM_BACKUP".toList, PROP_READ_FROM_BACKUP),
    ("PROP_DATA_REGION_NAME".toList, PROP_DATA_REGION_NAME),
    ("PROP_IS_ONHEAP_CACHE_ENABLED".toList, PROP_IS_ONHEAP_CACHE_ENABLED),
    ("PROP_QUERY_ENTITIES".toList, PROP_QUERY_ENTITIES),
    ("PROP_QUERY_PARALLELISM".toList, PROP_QUERY_PARALLELISM),
    ("PROP_QUERY_DETAIL_METRIC_SIZE".toList, PROP_QUERY_DETAIL_METRIC_SIZE),
    ("PROP_SQL_SCHEMA".toList, PROP_SQL_SCHEMA),
    ("PROP_SQL_INDEX_INLINE_MAX_SIZE".toList, PROP_SQL_INDEX_INLINE_MAX_SIZE),
    ("PROP_SQL_ESCAPE_ALL".toList, PROP_SQL_ESCAPE_ALL),
    ("PROP_MAX_QUERY_ITERATORS".toList, PROP_MAX_QUERY_ITERATORS),
    ("PROP_REBALANCE_MODE".toList, PROP_REBALANCE_MODE),
    ("PROP_REBALANCE_DELAY".toList, PROP_REBALANCE_DELAY),
    ("PROP_REBALANCE_TIMEOUT".toList, PROP_REBALANCE_TIMEOUT),
    ("PROP_REBALANCE_BATCH_SIZE".toList, PROP_REBALANCE_BATCH_SIZE),
    ("PROP_REBALANCE_BATCHES_PREFETCH_COUNT".toList, PROP_REBALANCE_BATCHES_PREFETCH_COUNT),
    ("PROP_REBALANCE_ORDER".toList, PROP_REBALANCE_ORDER),
    ("PROP_REBALANCE_THROTTLE".toList, PROP_REBALANCE_THROTTLE),
    ("PROP_GROUP_NAME".toList, PROP_GROUP_NAME),
    ("PROP_CACHE_KEY_CONFIGURATION".toList, PROP_CACHE_KEY_CONFIGURATION),
    ("PROP_DEFAULT_LOCK_TIMEOUT".toList, PROP_DEFAULT_LOCK_TIMEOUT),
    ("PROP_MAX_CONCURRENT_ASYNC_OPERATIONS".toList, PROP_MAX_CONCURRENT_ASYNC_OPERATIONS),
    ("PROP_PARTITION_LOSS_POLICY".toList, PROP_PARTITION_LOSS_POLICY),
    ("PROP_EAGER_TTL".toList, PROP_EAGER_TTL),
    ("PROP_STATISTICS_ENABLED".toList, PROP_STATISTICS_ENABLED),
    ("PROP_EXPIRY_POLICY".toList, PROP_EXPIRY_POLICY)]

section Properties

/-- `TimeoutProp`. -/
def timeoutProp (propCode : ℤ) : WireClass where
  fromPython v :=
    match v.toInt? with
    | some i =>
      if i < 0 then fun _ => raise .valueError "Timeout value should be a positive integer"
      else (propBase propCode (primitive .longlong)).fromPython v
    | none => fun _ => raise .valueError "Timeout value should be a positive integer"
  parse := (propBase propCode (primitive .longlong)).parse
  toPython := (propBase propCode (primitive .longlong)).toPython

variable [Python] [OtherCodecs]

def propName : WireClass := propBase PROP_NAME (wireClass .string)

def propCacheMode : WireClass := propBase PROP_CACHE_MODE cacheMode

def propCacheAtomicityMode : WireClass := propBase PROP_CACHE_ATOMICITY_MODE cacheAtomicityMode

def propBackupsNumber : WireClass := propBase PROP_BACKUPS_NUMBER (primitive .int)

def propWriteSynchronizationMode : WireClass :=
  propBase PROP_WRITE_SYNCHRONIZATION_MODE writeSynchronizationMode

def propCopyOnRead : WireClass := propBase PROP_COPY_ON_READ boolClass

def propReadFromBackup : WireClass := propBase PROP_READ_FROM_BACKUP boolClass

def propDataRegionName : WireClass := propBase PROP_DATA_REGION_NAME (wireClass .string)

def propIsOnheapCacheEnabled : WireClass := propBase PROP_IS_ONHEAP_CACHE_ENABLED boolClass

def propQueryEntities : WireClass := propBase PROP_QUERY_ENTITIES queryEntities.wireClass

def propQueryEntitiesNoSimilarity : WireClass :=
  propBase PROP_QUERY_ENTITIES queryEntitiesNoSimilarity.wireClass

def propQueryParallelism : WireClass := propBase PROP_QUERY_PARALLELISM (primitive .int)

def propQueryDetailMetricSize : WireClass :=
  propBase PROP_QUERY_DETAIL_METRIC_SIZE (primitive .int)

def propSQLSchema : WireClass := propBase PROP_SQL_SCHEMA (wireClass .string)

def propSQLIndexInlineMaxSize : WireClass :=
  propBase PROP_SQL_INDEX_INLINE_MAX_SIZE (primitive .int)

def propSqlEscapeAll : WireClass := propBase PROP_SQL_ESCAPE_ALL boolClass

def propMaxQueryIterators : WireClass := propBase PROP_MAX_QUERY_ITERATORS (primitive .int)

def propRebalanceMode : WireClass := propBase PROP_REBALANCE_MODE rebalanceMode

def propRebalanceDelay : WireClass := propBase PROP_REBALANCE_DELAY (primitive .longlong)

def propRebalanceTimeout : WireClass := timeoutProp PROP_REBALANCE_TIMEOUT

def propRebalanceBatchSize : WireClass := propBase PROP_REBALANCE_BATCH_SIZE (primitive .int)

def propRebalanceBatchesPrefetchCount : WireClass :=
  propBase PROP_REBALANCE_BATCHES_PREFETCH_COUNT (primitive .longlong)

def propRebalanceOrder : WireClass := propBase PROP_REBALANCE_ORDER (primitive .int)

def propRebalanceThrottle : WireClass := propBase PROP_REBALANCE_THROTTLE (primitive .longlong)

def propGroupName : WireClass := propBase PROP_GROUP_NAME (wireClass .string)

def propCacheKeyConfiguration : WireClass :=
  propBase PROP_CACHE_KEY_CONFIGURATION cacheKeyConfiguration.wireClass

def propDefaultLockTimeout : WireClass := timeoutProp PROP_DEFAULT_LOCK_TIMEOUT

def propMaxConcurrentAsyncOperation : WireClass :=
  propBase PROP_MAX_CONCURRENT_ASYNC_OPERATIONS (primitive .int)

def propPartitionLossPolicy : WireClass := propBase PROP_PARTITION_LOSS_POLICY partitionLossPolicy

def propEagerTTL : WireClass := propBase PROP_EAGER_TTL boolClass

def propStatisticsEnabled : WireClass := propBase PROP_STATISTICS_ENABLED boolClass

variable [FloatMillis]

def propExpiryPolicy : WireClass := propBase PROP_EXPIRY_POLICY ExpiryPolicyClass.wireClass

/-- The classes of the properties, by their codes. -/
def propClasses : List (ℤ × WireClass) :=
  [(PROP_NAME, propName), (PROP_CACHE_MODE, propCacheMode),
    (PROP_CACHE_ATOMICITY_MODE, propCacheAtomicityMode),
    (PROP_BACKUPS_NUMBER, propBackupsNumber),
    (PROP_WRITE_SYNCHRONIZATION_MODE, propWriteSynchronizationMode),
    (PROP_COPY_ON_READ, propCopyOnRead), (PROP_READ_FROM_BACKUP, propReadFromBackup),
    (PROP_DATA_REGION_NAME, propDataRegionName),
    (PROP_IS_ONHEAP_CACHE_ENABLED, propIsOnheapCacheEnabled),
    (PROP_QUERY_ENTITIES, propQueryEntities), (PROP_QUERY_PARALLELISM, propQueryParallelism),
    (PROP_QUERY_DETAIL_METRIC_SIZE, propQueryDetailMetricSize),
    (PROP_SQL_SCHEMA, propSQLSchema),
    (PROP_SQL_INDEX_INLINE_MAX_SIZE, propSQLIndexInlineMaxSize),
    (PROP_SQL_ESCAPE_ALL, propSqlEscapeAll), (PROP_MAX_QUERY_ITERATORS, propMaxQueryIterators),
    (PROP_REBALANCE_MODE, propRebalanceMode), (PROP_REBALANCE_DELAY, propRebalanceDelay),
    (PROP_REBALANCE_TIMEOUT, propRebalanceTimeout),
    (PROP_REBALANCE_BATCH_SIZE, propRebalanceBatchSize),
    (PROP_REBALANCE_BATCHES_PREFETCH_COUNT, propRebalanceBatchesPrefetchCount),
    (PROP_REBALANCE_ORDER, propRebalanceOrder),
    (PROP_REBALANCE_THROTTLE, propRebalanceThrottle), (PROP_GROUP_NAME, propGroupName),
    (PROP_CACHE_KEY_CONFIGURATION, propCacheKeyConfiguration),
    (PROP_DEFAULT_LOCK_TIMEOUT, propDefaultLockTimeout),
    (PROP_MAX_CONCURRENT_ASYNC_OPERATIONS, propMaxConcurrentAsyncOperation),
    (PROP_PARTITION_LOSS_POLICY, propPartitionLossPolicy), (PROP_EAGER_TTL, propEagerTTL),
    (PROP_STATISTICS_ENABLED, propStatisticsEnabled),
    (PROP_EXPIRY_POLICY, propExpiryPolicy)]

/-- `prop_map`; `none` is the `KeyError` of an unknown code. -/
def propMap (code : ℤ) (protocolContext : Option ProtocolContext) : Option WireClass :=
  if code = PROP_QUERY_ENTITIES ∧
      protocolContext.any (!·.isQueryIndexVectorSimilaritySupported) then
    some propQueryEntitiesNoSimilarity
  else propClasses.lookup code

end Properties

/-- `k.upper()`, of a name in ASCII. -/
def upper (k : PyStr) : PyStr := k.map Char.toUpper

/-- `getattr(prop_codes, f'PROP_{k.upper()}')`. -/
def settingCode (k : PyStr) : Option ℤ := propCodes.lookup ("PROP_".toList ++ upper k)

/-- The loop of `compact_cache_config`. -/
def compactSetting (result : List (ℤ × PyValue)) (setting : PyStr × PyValue) :
    Except PyError (List (ℤ × PyValue)) :=
  if setting.1 = "length".toList then .ok result
  else
    match settingCode setting.1 with
    | some propCode => .ok (dictSet result propCode setting.2)
    | none => raise .attributeError

def compactCacheConfig (cacheConfig : List (PyStr × PyValue)) :
    Except PyError (List (ℤ × PyValue)) :=
  cacheConfig.foldlM compactSetting []

end PyGridGain
