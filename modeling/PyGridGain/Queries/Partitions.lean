import Mathlib.Data.Finset.Card
import PyGridGain.Codec.InferenceReads
import PyGridGain.Codec.StructWrites
import PyGridGain.Queries.Envelope

/-! The answer to `OP_CACHE_PARTITIONS`: groups of caches, whose layout depends on whether affinity
applies to them. -/

namespace PyGridGain

open CObj StreamM

section Model
variable [Python] [OtherCodecs]

/-- `cache_config`. -/
def cacheConfig : StructArray :=
  ⟨[("key_type_id".toList, .plain (primitive .int)),
    ("affinity_key_field_id".toList, .plain (primitive .int))], []⟩

/-- `node_partitions`. -/
def nodePartitions : StructArray := ⟨[("partition_id".toList, .plain (primitive .int))], []⟩

/-- `node_mapping`. -/
def nodeMapping : StructArray :=
  ⟨[("node_uuid".toList, .plain (wireClass .uuidObject)),
    ("node_partitions".toList, .plain nodePartitions.wireClass)], []⟩

/-- `cache_mapping`. -/
def cacheMapping : StructArray :=
  ⟨[("cache_id".toList, .plain (primitive .int)),
    ("cache_config".toList, .plain cacheConfig.wireClass)], []⟩

/-- `empty_cache_mapping`. -/
def emptyCacheMapping : StructArray := ⟨[("cache_id".toList, .plain (primitive .int))], []⟩

/-- `empty_node_mapping`. -/
def emptyNodeMapping : Struct := ⟨[], []⟩

/-- `lambda ctx: ctx['is_applicable'] and ctx['is_applicable'].value == 1`. -/
def parsedApplicable (ctx : ParseContext) : Bool :=
  match ctx "is_applicable".toList with
  | some o => o.value == some 1
  | none => false

/-- `lambda ctx: ctx['is_applicable']`. -/
def decodedApplicable (result : List (PyStr × PyValue)) : Bool :=
  match result.lookup "is_applicable".toList with
  | some v => v.truthy
  | none => false

/-- A `Conditional` on `is_applicable`. -/
def ifApplicable (var1 var2 : WireClass) : FieldClass :=
  .conditional ⟨["is_applicable".toList], parsedApplicable, decodedApplicable, var1, var2⟩

/-- `partition_mapping`. -/
def partitionMapping : StructArray :=
  ⟨[("is_applicable".toList, .plain boolClass),
    ("cache_mapping".toList, ifApplicable cacheMapping.wireClass emptyCacheMapping.wireClass),
    ("node_mapping".toList, ifApplicable nodeMapping.wireClass emptyNodeMapping.wireClass)], []⟩

/-- The `response_config` of `__cache_get_node_partitions`. -/
def partitionsConfig : List (PyStr × WireClass) :=
  [("version_major".toList, primitive .longlong), ("version_minor".toList, primitive .int),
    ("partition_mapping".toList, partitionMapping.wireClass)]

end Model

/-! ### Post-processing -/

/-- The entry of a cache in the result; the dicts are by what their keys are compared by. -/
structure CachePartitions where
  isApplicable : PyValue
  cacheConfig : Option (List (Key × PyValue))
  nodeMapping : Option (List (Key × Finset Key))
  numberOfPartitions : ℕ

structure PartitionsValue where
  version : PyValue × PyValue
  partitionMapping : List (Key × CachePartitions)

/-- `p['node_uuid']: set(x['partition_id'] for x in p['node_partitions'])`. -/
def nodeEntry (p : PyValue) : Except PyError (Key × Finset Key) := do
  let uuid ← p.item "node_uuid".toList
  let partitions ← p.item "node_partitions".toList
  let partitions ← partitions.elems
  let ids ← partitions.mapM fun x => do
    let id ← x.item "partition_id".toList
    id.key
  let uuid ← uuid.key
  .ok (uuid, ids.toFinset)

/-- `a['key_type_id']: a['affinity_key_field_id']`. -/
def configEntry (a : PyValue) : Except PyError (Key × PyValue) := do
  let keyTypeId ← a.item "key_type_id".toList
  let fieldId ← a.item "affinity_key_field_id".toList
  let keyTypeId ← keyTypeId.key
  .ok (keyTypeId, fieldId)

/-- `cache_partition_mapping`. -/
def cachePartitionMapping (isApplicable : PyValue) (nodeMapping : List (Key × Finset Key))
    (cacheInfo : PyValue) : Except PyError CachePartitions :=
  if isApplicable.truthy then do
    let config ← cacheInfo.item "cache_config".toList
    let config ← config.elems
    let config ← config.mapM configEntry
    .ok ⟨isApplicable, some (dictUpdate [] config), some nodeMapping,
      (nodeMapping.map fun p => p.2.card).sum⟩
  else .ok ⟨isApplicable, none, none, 0⟩

/-- The body of the loop over `partition_map['cache_mapping']`. -/
def cacheEntry (isApplicable : PyValue) (nodeMapping : List (Key × Finset Key))
    (cacheInfo : PyValue) : Except PyError (Key × CachePartitions) := do
  let cacheId ← cacheInfo.item "cache_id".toList
  let entry ← cachePartitionMapping isApplicable nodeMapping cacheInfo
  let cacheId ← cacheId.key
  .ok (cacheId, entry)

/-- The `node_mapping` of a group, which nothing reads where affinity does not apply. -/
def groupNodes (isApplicable partitionMap : PyValue) : Except PyError (List (Key × Finset Key)) :=
  if isApplicable.truthy then do
    let nodes ← partitionMap.item "node_mapping".toList
    let nodes ← nodes.elems
    let nodes ← nodes.mapM nodeEntry
    .ok (dictUpdate [] nodes)
  else .ok []

/-- The body of the loop over `result.value['partition_mapping']`. -/
def groupEntries (partitionMap : PyValue) : Except PyError (List (Key × CachePartitions)) := do
  let isApplicable ← partitionMap.item "is_applicable".toList
  let nodeMapping ← groupNodes isApplicable partitionMap
  let caches ← partitionMap.item "cache_mapping".toList
  let caches ← caches.elems
  caches.mapM (cacheEntry isApplicable nodeMapping)

/-- `__post_process_partitions`; a result with another status keeps its value. -/
def postProcessPartitions (result : APIResult) : Except PyError (Option PartitionsValue) :=
  if result.status = OP_SUCCESS then do
    let major ← result.value.item "version_major".toList
    let minor ← result.value.item "version_minor".toList
    let groups ← result.value.item "partition_mapping".toList
    let groups ← groups.elems
    let entries ← groups.mapM groupEntries
    .ok (some ⟨(major, minor), dictUpdate [] entries.flatten⟩)
  else .ok none

/-! ### The reply -/

/-- A cache of a group to which affinity applies, with its key configuration. -/
structure CacheConfigs where
  id : ℤ
  config : List (ℤ × ℤ)
  id_range : Scalar.int.Range id
  config_range : ∀ c ∈ config, Scalar.int.Range c.1 ∧ Scalar.int.Range c.2
  config_lt : config.length < 2 ^ 31

structure NodePartitions where
  uuid : UUID
  partitions : List ℤ
  partitions_range : ∀ i ∈ partitions, Scalar.int.Range i
  partitions_lt : partitions.length < 2 ^ 31

/-- Nodes have ids of their own and partitions of their own. -/
structure NodesApart (nodes : List NodePartitions) : Prop where
  nodup : (nodes.map NodePartitions.uuid).Nodup
  disjoint : nodes.Pairwise fun n n' => n.partitions.Disjoint n'.partitions

inductive PartitionGroup
  | applicable (caches : List CacheConfigs) (nodes : List NodePartitions)
      (hcaches : caches.length < 2 ^ 31) (hnodes : nodes.length < 2 ^ 31)
      (apart : NodesApart nodes)
  | notApplicable (caches : List ℤ) (hcaches : caches.length < 2 ^ 31)
      (range : ∀ i ∈ caches, Scalar.int.Range i)

/-- The reply to `OP_CACHE_PARTITIONS`. -/
structure PartitionsReply where
  major : ℤ
  minor : ℤ
  groups : List PartitionGroup
  major_range : Scalar.longlong.Range major
  minor_range : Scalar.int.Range minor
  groups_lt : groups.length < 2 ^ 31

namespace CacheConfigs
variable (c : CacheConfigs)

def bytes : Bytes :=
  Scalar.int.store c.id ++ (Scalar.int.store c.config.length ++
    c.config.flatMap fun a => Scalar.int.store a.1 ++ Scalar.int.store a.2)

/-- The key configuration as a dict. -/
def configDict : List (Key × PyValue) :=
  dictUpdate [] (c.config.map fun a => (.number a.1, .int a.2))

end CacheConfigs

namespace NodePartitions
variable (n : NodePartitions)

def bytes : Bytes :=
  DataType.uuidObject.typeCode :: uuidStore n.uuid ++ (Scalar.int.store n.partitions.length ++
    n.partitions.flatMap Scalar.int.store)

/-- The partitions as a set. -/
def partitionSet : Finset Key := (n.partitions.map fun i : ℤ => Key.number i).toFinset

end NodePartitions

namespace PartitionGroup

/-- A counter and what it counts. -/
def countedBytes (ds : List Bytes) : Bytes := Scalar.int.store ds.length ++ ds.flatten

def bytes : PartitionGroup → Bytes
  | applicable caches nodes _ _ _ => Scalar.byte.store 1 ++
      (countedBytes (caches.map CacheConfigs.bytes) ++ countedBytes (nodes.map NodePartitions.bytes))
  | notApplicable caches _ _ => Scalar.byte.store 0 ++ countedBytes (caches.map Scalar.int.store)

/-- Every cache of the group, with what the group says of it. -/
def entries : PartitionGroup → List (ℤ × CachePartitions)
  | applicable caches nodes _ _ _ => caches.map fun c =>
      (c.id, ⟨.bool true, some c.configDict,
        some (nodes.map fun n => (.uuid n.uuid, n.partitionSet)),
        (nodes.flatMap NodePartitions.partitions).toFinset.card⟩)
  | notApplicable caches _ _ => caches.map fun i => (i, ⟨.bool false, none, none, 0⟩)

end PartitionGroup

namespace PartitionsReply
variable (r : PartitionsReply)

def bytes : Bytes :=
  Scalar.longlong.store r.major ++ (Scalar.int.store r.minor ++
    PartitionGroup.countedBytes (r.groups.map PartitionGroup.bytes))

/-- Every cache of every group, with what its group says of it. -/
def sent : List (ℤ × CachePartitions) := r.groups.flatMap PartitionGroup.entries

end PartitionsReply

/-! ### What is read -/

/-- `{name: i}` for an `Int` field. -/
def intDict (name : String) (i : ℤ) : PyValue := strDict [(name.toList, .int i)]

def CacheConfigs.value (c : CacheConfigs) : PyValue :=
  strDict [("cache_id".toList, .int c.id), ("cache_config".toList, .list (c.config.map fun a =>
    strDict [("key_type_id".toList, .int a.1), ("affinity_key_field_id".toList, .int a.2)]))]

def NodePartitions.value (n : NodePartitions) : PyValue :=
  strDict [("node_uuid".toList, .uuid n.uuid),
    ("node_partitions".toList, .list (n.partitions.map (intDict "partition_id")))]

namespace PartitionGroup

def isApplicable : PartitionGroup → Bool
  | applicable .. => true
  | notApplicable .. => false

def cachesBytes : PartitionGroup → Bytes
  | applicable caches .. => countedBytes (caches.map CacheConfigs.bytes)
  | notApplicable caches .. => countedBytes (caches.map Scalar.int.store)

def cachesValue : PartitionGroup → PyValue
  | applicable caches .. => .list (caches.map CacheConfigs.value)
  | notApplicable caches .. => .list (caches.map (intDict "cache_id"))

def nodesBytes : PartitionGroup → Bytes
  | applicable _ nodes .. => countedBytes (nodes.map NodePartitions.bytes)
  | notApplicable .. => []

def nodesValue : PartitionGroup → PyValue
  | applicable _ nodes .. => .list (nodes.map NodePartitions.value)
  | notApplicable .. => strDict []

def value (g : PartitionGroup) : PyValue :=
  strDict [("is_applicable".toList, .bool g.isApplicable), ("cache_mapping".toList, g.cachesValue),
    ("node_mapping".toList, g.nodesValue)]

theorem bytes_eq (g : PartitionGroup) : g.bytes =
    Scalar.byte.store (if g.isApplicable then 1 else 0) ++ (g.cachesBytes ++ g.nodesBytes) := by
  cases g with
  | applicable caches nodes hcaches hnodes apart => rfl
  | notApplicable caches hcaches range => simp [bytes, isApplicable, cachesBytes, nodesBytes]

end PartitionGroup

section Reading
variable [Python] [OtherCodecs] {I : Client → Prop}

omit [Python] [OtherCodecs] in
theorem reads_intDict {name : String} {i : ℤ} (hi : Scalar.int.Range i) :
    Reads I (Struct.wireClass ⟨[(name.toList, .plain (primitive .int))], []⟩) (Scalar.int.store i)
      (intDict name i) := by
  have h := reads_plainStruct (I := I) (s := ⟨[(name.toList, .plain (primitive .int))], []⟩)
    [(name.toList, primitive .int, Scalar.int.store i, .int i)] rfl
    (List.forall_mem_singleton.mpr (reads_primitive hi)) (by simp)
  simpa [intDict] using h

omit [Python] [OtherCodecs] in
theorem CacheConfigs.reads_config (c : CacheConfigs) :
    Reads I cacheConfig.wireClass (PartitionGroup.countedBytes (c.config.map fun a =>
      Scalar.int.store a.1 ++ Scalar.int.store a.2)) (.list (c.config.map fun a =>
        strDict [("key_type_id".toList, .int a.1), ("affinity_key_field_id".toList, .int a.2)])) := by
  refine reads_each (fun a ha => ?_) c.config_lt
  obtain ⟨hkey, hfield⟩ := c.config_range a ha
  have h := reads_plainStruct (I := I) (s := ⟨cacheConfig.following, []⟩)
    [("key_type_id".toList, primitive .int, Scalar.int.store a.1, .int a.1),
      ("affinity_key_field_id".toList, primitive .int, Scalar.int.store a.2, .int a.2)] rfl
    (by simpa using ⟨reads_primitive hkey, reads_primitive hfield⟩) (by simp)
  simpa using h

omit [Python] [OtherCodecs] in
theorem CacheConfigs.reads (c : CacheConfigs) :
    Reads I (Struct.wireClass ⟨cacheMapping.following, []⟩) c.bytes c.value := by
  have h := reads_plainStruct (I := I) (s := ⟨cacheMapping.following, []⟩)
    [("cache_id".toList, primitive .int, Scalar.int.store c.id, .int c.id),
      ("cache_config".toList, cacheConfig.wireClass, _, _)] rfl
    (by simpa using ⟨reads_primitive c.id_range, c.reads_config⟩) (by simp)
  simpa [CacheConfigs.bytes, CacheConfigs.value, PartitionGroup.countedBytes, List.flatMap_def]
    using h

theorem reads_uuid (u : UUID) : Reads I (wireClass .uuidObject)
    (DataType.uuidObject.typeCode :: uuidStore u) (.uuid u) :=
  ((recovers_uuid u).1.classReadsAs (by simp)).reads

theorem NodePartitions.reads (n : NodePartitions) :
    Reads I (Struct.wireClass ⟨nodeMapping.following, []⟩) n.bytes n.value := by
  have hpartitions : Reads I nodePartitions.wireClass
      (PartitionGroup.countedBytes (n.partitions.map Scalar.int.store))
      (.list (n.partitions.map (intDict "partition_id"))) :=
    reads_each (fun i hi => reads_intDict (n.partitions_range i hi)) n.partitions_lt
  have h := reads_plainStruct (I := I) (s := ⟨nodeMapping.following, []⟩)
    [("node_uuid".toList, wireClass .uuidObject, _, .uuid n.uuid),
      ("node_partitions".toList, nodePartitions.wireClass, _, _)] rfl
    (by simpa using ⟨reads_uuid n.uuid, hpartitions⟩) (by simp)
  simpa [NodePartitions.bytes, NodePartitions.value, PartitionGroup.countedBytes, List.flatMap_def]
    using h

/-! A group is a structure whose later fields depend on the first. -/

omit [Python] [OtherCodecs] in
theorem ifApplicable_parse {ctx : ParseContext} {b : Bool} {w w' : WireClass}
    (h : ctx "is_applicable".toList =
      some ⟨.scalar .byte, Scalar.byte.store (if b then 1 else 0)⟩) :
    (ifApplicable w w').parse ctx = (if b then w else w').parse := by
  have happlicable : parsedApplicable ctx = b := by
    rw [parsedApplicable, h]
    cases b <;> decide
  simp only [ifApplicable, FieldClass.parse, happlicable]
  cases b <;> rfl

omit [Python] [OtherCodecs] in
theorem ifApplicable_toPython {result : List (PyStr × PyValue)} {b : Bool} {w w' : WireClass}
    (h : result.lookup "is_applicable".toList = some (.bool b)) (client : Client) (o : CObject) :
    (ifApplicable w w').toPython client result o = (if b then w else w').toPython client o := by
  have happlicable : decodedApplicable result = b := by
    rw [decodedApplicable, h]
    rfl
  simp only [ifApplicable, FieldClass.toPython, happlicable]
  cases b <;> rfl

theorem reads_groupStruct {b : Bool} {caches nodes : Bytes} {x y : PyValue}
    (hcaches : Reads I (if b then cacheMapping.wireClass else emptyCacheMapping.wireClass) caches x)
    (hnodes : Reads I (if b then nodeMapping.wireClass else emptyNodeMapping.wireClass) nodes y) :
    Reads I (Struct.wireClass ⟨partitionMapping.following, []⟩)
      (Scalar.byte.store (if b then 1 else 0) ++ (caches ++ nodes))
      (strDict [("is_applicable".toList, .bool b), ("cache_mapping".toList, x),
        ("node_mapping".toList, y)]) := by
  let fields : List Field := [("is_applicable".toList, .plain boolClass,
      Scalar.byte.store (if b then 1 else 0), .bool b),
    ("cache_mapping".toList, ifApplicable cacheMapping.wireClass emptyCacheMapping.wireClass, caches,
      x),
    ("node_mapping".toList, ifApplicable nodeMapping.wireClass emptyNodeMapping.wireClass, nodes, y)]
  have hread : FieldsRead I ["is_applicable".toList, "is_applicable".toList] fields (fun _ => none)
      [] := by
    refine ⟨fun _ => by cases b <;> simp [← List.length_pos_iff, Scalar.size], ?_⟩
    refine Finds.seekPast rfl ⟨rfl, fun client _ => bool_toPython b client, ?_⟩
    refine ⟨fun hmem => absurd hmem (by decide), ?_⟩
    rw [ifApplicable_parse (b := b) rfl]
    refine hcaches.mono fun l hl => ⟨hl.1, fun client hclient => ?_, ?_⟩
    · rw [ifApplicable_toPython (b := b) rfl]
      exact hl.2 client hclient
    · refine ⟨fun hmem => absurd hmem (by decide), ?_⟩
      rw [ifApplicable_parse (b := b) rfl]
      refine hnodes.mono fun l hl => ⟨hl.1, fun client hclient => ?_, trivial⟩
      rw [ifApplicable_toPython (b := b) rfl]
      exact hl.2 client hclient
  have h := reads_struct (s := ⟨partitionMapping.following, []⟩) fields rfl hread (by simp [fields])
  simpa [fields, fieldData, fieldValues] using h

theorem PartitionGroup.reads (g : PartitionGroup) :
    Reads I (Struct.wireClass ⟨partitionMapping.following, []⟩) g.bytes g.value := by
  rw [g.bytes_eq, PartitionGroup.value]
  refine reads_groupStruct ?_ ?_
  · cases g with
    | applicable caches nodes hcaches hnodes apart => exact reads_each (fun c _ => c.reads) hcaches
    | notApplicable caches hcaches range =>
      exact reads_each (fun i hi => reads_intDict (range i hi)) hcaches
  · cases g with
    | applicable caches nodes hcaches hnodes apart => exact reads_each (fun n _ => n.reads) hnodes
    | notApplicable caches hcaches range => exact reads_plainStruct [] rfl (by simp) (by simp)

namespace PartitionsReply
variable (r : PartitionsReply)

/-- The reply as a response of the server. -/
def response (e : Envelope) (version : ProtocolVersion) : ServerResponse I where
  version := version
  envelope := e
  body := [("version_major".toList, primitive .longlong, Scalar.longlong.store r.major, .int r.major),
    ("version_minor".toList, primitive .int, Scalar.int.store r.minor, .int r.minor),
    ("partition_mapping".toList, partitionMapping.wireClass,
      PartitionGroup.countedBytes (r.groups.map PartitionGroup.bytes),
      .list (r.groups.map PartitionGroup.value))]
  reads := by
    rw [List.forall_mem_cons, List.forall_mem_cons, List.forall_mem_singleton]
    exact ⟨reads_primitive r.major_range, reads_primitive r.minor_range,
      reads_each (fun g _ => g.reads) r.groups_lt⟩
  names_nodup := by simp
  names_free := by
    rw [List.forall_mem_cons, List.forall_mem_cons, List.forall_mem_singleton]
    exact ⟨(by decide : "version_major".toList ∉ envelopeNames),
      (by decide : "version_minor".toList ∉ envelopeNames),
      (by decide : "partition_mapping".toList ∉ envelopeNames)⟩

/-- The value of the result before it is post-processed. -/
def value : PyValue :=
  strDict [("version_major".toList, .int r.major), ("version_minor".toList, .int r.minor),
    ("partition_mapping".toList, .list (r.groups.map PartitionGroup.value))]

theorem response_data (e : Envelope) (version : ProtocolVersion) :
    (r.response (I := I) e version).data = e.encode version r.bytes := by
  simp [ServerResponse.data, response, bytes]

theorem response_received {e : Envelope} (herror : e.error = none) (version : ProtocolVersion) :
    (r.response (I := I) e version).received =
      ⟨OP_SUCCESS, e.queryId, .str "Success".toList, r.value⟩ := by
  simp [ServerResponse.received, ServerResponse.expected, response, herror, value]

end PartitionsReply

end Reading

/-! ### What is made of it -/

theorem nodeEntry_value (n : NodePartitions) :
    nodeEntry n.value = .ok (.uuid n.uuid, n.partitionSet) := by
  have huuid : n.value.item "node_uuid".toList = .ok (.uuid n.uuid) :=
    item_strDict (by simp) (by simp)
  have hpartitions : n.value.item "node_partitions".toList =
      .ok (.list (n.partitions.map (intDict "partition_id"))) := item_strDict (by simp) (by simp)
  have hids : (n.partitions.map (intDict "partition_id")).mapM (fun x => do
      let id ← x.item "partition_id".toList
      id.key) = .ok (n.partitions.map fun i : ℤ => Key.number i) := by
    rw [List.mapM_map]
    refine mapM_ok fun i _ => ?_
    have hitem : (intDict "partition_id" i).item "partition_id".toList = .ok (.int i) :=
      item_strDict (by simp) (by simp)
    rw [Function.comp_apply, hitem, except_bind, key_int]
  unfold nodeEntry
  rw [huuid, except_bind, hpartitions, except_bind, elems_list, except_bind, hids]
  rfl

theorem cacheEntry_value (c : CacheConfigs) (nodes : List (Key × Finset Key)) :
    cacheEntry (.bool true) nodes c.value = .ok (.number c.id,
      ⟨.bool true, some c.configDict, some nodes, (nodes.map fun p => p.2.card).sum⟩) := by
  have hid : c.value.item "cache_id".toList = .ok (.int c.id) := item_strDict (by simp) (by simp)
  have hconfig : c.value.item "cache_config".toList = .ok (.list (c.config.map fun a =>
      strDict [("key_type_id".toList, .int a.1), ("affinity_key_field_id".toList, .int a.2)])) :=
    item_strDict (by simp) (by simp)
  have hentries : (c.config.map fun a =>
      strDict [("key_type_id".toList, .int a.1), ("affinity_key_field_id".toList, .int a.2)]).mapM
        configEntry = .ok (c.config.map fun a => (Key.number a.1, PyValue.int a.2)) := by
    rw [List.mapM_map]
    refine mapM_ok fun a _ => ?_
    rw [Function.comp_apply, configEntry, item_strDict (x := .int a.1) (by simp) (by simp),
      except_bind, item_strDict (x := .int a.2) (by simp) (by simp), except_bind, key_int,
      except_bind]
  unfold cacheEntry cachePartitionMapping
  rw [hid, except_bind, truthy_bool, if_pos rfl, hconfig, except_bind, elems_list, except_bind, hentries]
  rfl

theorem cacheEntry_empty (nodes : List (Key × Finset Key)) (i : ℤ) :
    cacheEntry (.bool false) nodes (intDict "cache_id" i) =
      .ok (.number i, ⟨.bool false, none, none, 0⟩) := by
  have hid : (intDict "cache_id" i).item "cache_id".toList = .ok (.int i) :=
    item_strDict (by simp) (by simp)
  unfold cacheEntry
  rw [hid]
  rfl

/-- The sizes of sets of partitions that are apart add up to the number of all partitions. -/
theorem sum_card_partitionSet {nodes : List NodePartitions}
    (h : nodes.Pairwise fun n n' => n.partitions.Disjoint n'.partitions) :
    (nodes.map fun n => n.partitionSet.card).sum =
      (nodes.flatMap NodePartitions.partitions).toFinset.card := by
  have hcard : ∀ n : NodePartitions, n.partitionSet.card = n.partitions.toFinset.card := by
    intro n
    have hinj : Function.Injective fun i : ℤ => Key.number i :=
      fun i j hij => by simpa using hij
    rw [NodePartitions.partitionSet, ← Finset.card_image_of_injective _ hinj]
    congr 1
    ext k
    simp
  induction nodes with
  | nil => rfl
  | cons n nodes ih =>
    obtain ⟨hn, hnodes⟩ := List.pairwise_cons.mp h
    have hdisjoint : Disjoint n.partitions.toFinset
        (nodes.flatMap NodePartitions.partitions).toFinset := by
      rw [List.disjoint_toFinset_iff_disjoint]
      intro i hi hrest
      obtain ⟨n', hn', hi'⟩ := List.mem_flatMap.mp hrest
      exact hn n' hn' hi hi'
    rw [List.map_cons, List.sum_cons, hcard, ih hnodes, List.flatMap_cons, List.toFinset_append,
      Finset.card_union_of_disjoint hdisjoint]

theorem groupNodes_value {nodes : List NodePartitions} (apart : NodesApart nodes)
    {partitionMap : PyValue}
    (hnodes : partitionMap.item "node_mapping".toList =
      .ok (.list (nodes.map NodePartitions.value))) :
    groupNodes (.bool true) partitionMap =
      .ok (nodes.map fun n => (.uuid n.uuid, n.partitionSet)) := by
  have hentries : (nodes.map NodePartitions.value).mapM nodeEntry =
      .ok (nodes.map fun n => (.uuid n.uuid, n.partitionSet)) := by
    rw [List.mapM_map]
    exact mapM_ok fun n _ => nodeEntry_value n
  have hdict : dictUpdate [] (nodes.map fun n => (Key.uuid n.uuid, n.partitionSet)) =
      nodes.map fun n => (Key.uuid n.uuid, n.partitionSet) := by
    have hnd := apart.nodup.map (f := Key.uuid) fun u u' => Key.uuid.inj
    refine dictUpdate_nil_iff.mpr ?_
    rw [List.map_map] at hnd ⊢
    exact hnd
  unfold groupNodes
  rw [truthy_bool, if_pos rfl, hnodes, except_bind, elems_list, except_bind, hentries, except_bind, hdict]

theorem groupEntries_value (g : PartitionGroup) :
    groupEntries g.value = .ok (g.entries.map fun p => (.number p.1, p.2)) := by
  have happlicable : g.value.item "is_applicable".toList = .ok (.bool g.isApplicable) :=
    item_strDict (by simp) (by simp)
  have hcaches : g.value.item "cache_mapping".toList = .ok g.cachesValue :=
    item_strDict (by simp) (by simp)
  have hnodes : g.value.item "node_mapping".toList = .ok g.nodesValue :=
    item_strDict (by simp) (by simp)
  unfold groupEntries
  rw [happlicable, except_bind, hcaches]
  cases g with
  | applicable caches nodes _ _ apart =>
    have hentries : caches.mapM (cacheEntry (.bool true)
        (nodes.map fun n => (.uuid n.uuid, n.partitionSet)) ∘ CacheConfigs.value) = .ok _ :=
      mapM_ok fun c _ => cacheEntry_value c _
    rw [PartitionGroup.isApplicable, groupNodes_value apart hnodes, except_bind, except_bind,
      PartitionGroup.cachesValue, elems_list, except_bind, List.mapM_map, hentries,
      PartitionGroup.entries, List.map_map, List.map_map]
    simp only [Function.comp_def, sum_card_partitionSet apart.disjoint]
  | notApplicable caches _ _ =>
    have hentries : caches.mapM (cacheEntry (.bool false) [] ∘ intDict "cache_id") = .ok _ :=
      mapM_ok fun i _ => cacheEntry_empty [] i
    have hnone : ∀ v, groupNodes (.bool false) v = .ok [] := fun _ => rfl
    rw [PartitionGroup.isApplicable, hnone, except_bind, except_bind, PartitionGroup.cachesValue,
      elems_list, except_bind, List.mapM_map, hentries, PartitionGroup.entries, List.map_map]
    rfl

/-- The dict of the caches. -/
theorem postProcess_value (r : PartitionsReply) (queryId : ℤ) (message : PyValue) :
    postProcessPartitions ⟨OP_SUCCESS, queryId, message, r.value⟩ =
      .ok (some ⟨(.int r.major, .int r.minor),
        dictUpdate [] (r.sent.map fun p => (.number p.1, p.2))⟩) := by
  have hmajor : r.value.item "version_major".toList = .ok (.int r.major) :=
    item_strDict (by simp) (by simp)
  have hminor : r.value.item "version_minor".toList = .ok (.int r.minor) :=
    item_strDict (by simp) (by simp)
  have hgroups : r.value.item "partition_mapping".toList =
      .ok (.list (r.groups.map PartitionGroup.value)) := item_strDict (by simp) (by simp)
  have hentries : (r.groups.map PartitionGroup.value).mapM groupEntries =
      .ok (r.groups.map fun g => g.entries.map fun p => (.number p.1, p.2)) := by
    rw [List.mapM_map]
    exact mapM_ok fun g _ => groupEntries_value g
  have hflatten : (r.groups.map fun g => g.entries.map fun p => (Key.number p.1, p.2)).flatten =
      r.sent.map fun p => (.number p.1, p.2) := by
    rw [PartitionsReply.sent, List.map_flatMap, List.flatMap_def]
  unfold postProcessPartitions
  rw [if_pos rfl]
  dsimp only
  rw [hmajor, except_bind, hminor, except_bind, hgroups, except_bind, elems_list, except_bind,
    hentries, except_bind, hflatten]

/-! ### The last entry of a cache -/

section Decoding
variable [Python] [OtherCodecs]

/-- A client makes of the reply a result with its version and a mapping that satisfies `P`. -/
def PartitionsReply.DecodesTo (r : PartitionsReply) (e : Envelope) (version : ProtocolVersion)
    (client : Client) (s : Affinity) (P : List (Key × CachePartitions) → Prop) : Prop :=
  ∃ result client' s' value,
    processResponse version (responseOf partitionsConfig) (e.encode version r.bytes) client s =
      .ok (result, client', s') ∧
    postProcessPartitions result = .ok (some value) ∧
    value.version = (.int r.major, .int r.minor) ∧ P value.partitionMapping

theorem decodesTo_iff (r : PartitionsReply) {e : Envelope} (herror : e.error = none)
    (version : ProtocolVersion) (client : Client) (s : Affinity)
    {P : List (Key × CachePartitions) → Prop} :
    r.DecodesTo e version client s P ↔
      P (dictUpdate [] (r.sent.map fun p => (.number p.1, p.2))) := by
  obtain ⟨client', -, hprocess⟩ :=
    (r.response (I := fun _ => True) e version).processResponse_eq trivial s
  have hpost := postProcess_value r e.queryId (.str "Success".toList)
  rw [r.response_data, r.response_received herror] at hprocess
  constructor
  · rintro ⟨result, client'', s'', value, hresult, hvalue, -, hP⟩
    obtain ⟨rfl, -⟩ := Prod.mk.inj (Except.ok.inj (hprocess.symm.trans hresult))
    obtain rfl := Option.some.inj (Except.ok.inj (hpost.symm.trans hvalue))
    exact hP
  · exact fun hP => ⟨_, client', _, _, hprocess, hpost, rfl, hP⟩

/-- The parser moves past exactly the reply, and every cache that is not sent again later in it has
what its group says of it. -/
theorem partitions_decoded (r : PartitionsReply) (e : Envelope) (herror : e.error = none)
    (version : ProtocolVersion) (client : Client) (s : Affinity) :
    Consumes (fun _ => True) version (responseOf partitionsConfig) (e.encode version r.bytes) ∧
    r.DecodesTo e version client s fun mapping => ∀ before p after,
      r.sent = before ++ p :: after → p.1 ∉ after.map (·.1) →
        mapping.lookup (.number p.1) = some p.2 := by
  refine ⟨?_, (decodesTo_iff r herror version client s).mpr ?_⟩
  · have hconsumes := (r.response (I := fun _ => True) e version).consumes
    rwa [r.response_data] at hconsumes
  · rintro before ⟨i, entry⟩ after hsent hlast
    rw [hsent, List.map_append, List.map_cons]
    refine lookup_dictUpdate_last fun hmem => hlast ?_
    rw [List.map_map, List.mem_map] at hmem
    obtain ⟨q, hq, heq⟩ := hmem
    have hid : q.1 = i := by simpa using heq
    exact List.mem_map.mpr ⟨q, hq, hid⟩

end Decoding

/-- Cache 10 in a group of two nodes, then cache 11 in a group without affinity. -/
theorem partitions_decoded_two :
    let _ := asciiLower
    let _ := noOtherCodecs
    let client : Client := ⟨none, fun _ => [], fun _ => []⟩
    let e : Envelope := ⟨7, none, none, by decide, by decide, by decide, by decide⟩
    let caches : List CacheConfigs := [⟨10, [(1, 2)], by decide, by decide, by decide⟩]
    let nodes : List NodePartitions :=
      [⟨⟨List.replicate 16 1, rfl⟩, [0, 2], by decide, by decide⟩,
        ⟨⟨List.replicate 16 2, rfl⟩, [1], by decide, by decide⟩]
    let r : PartitionsReply := ⟨3, 1, [.applicable caches nodes (by decide) (by decide)
        ⟨by decide, by simp [nodes, List.Disjoint]⟩, .notApplicable [11] (by decide) (by decide)], by decide, by decide,
      by decide⟩
    Consumes (fun _ => True) maxProtocol (responseOf partitionsConfig)
      (e.encode maxProtocol r.bytes) ∧
    r.DecodesTo e maxProtocol client Affinity.init fun mapping => ∀ before p after,
      r.sent = before ++ p :: after → p.1 ∉ after.map (·.1) →
        mapping.lookup (.number p.1) = some p.2 := by
  intro _ _ client e caches nodes r
  exact partitions_decoded r e rfl maxProtocol client Affinity.init

/-- Cache 7 in a group with affinity, and again in a group without. -/
theorem repeated_cache_not_assigned :
    let _ := asciiLower
    let _ := noOtherCodecs
    let client : Client := ⟨none, fun _ => [], fun _ => []⟩
    let e : Envelope := ⟨7, none, none, by decide, by decide, by decide, by decide⟩
    let r : PartitionsReply := ⟨3, 1, [.applicable [⟨7, [], by decide, by decide, by decide⟩] []
        (by decide) (by decide) ⟨by decide, .nil⟩, .notApplicable [7] (by decide) (by decide)],
      by decide, by decide, by decide⟩
    ¬r.DecodesTo e maxProtocol client Affinity.init fun mapping =>
      ∀ p ∈ r.sent, mapping.lookup (.number p.1) = some p.2 := by
  intro _ _ client e r
  rw [decodesTo_iff r rfl]
  intro h
  have hfirst := h (7, ⟨.bool true, some [], some [], 0⟩) (List.mem_cons_self)
  simp [PartitionsReply.sent, r, PartitionGroup.entries, dictUpdate, dictSet] at hfirst

end PyGridGain
