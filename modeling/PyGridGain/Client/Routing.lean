import PyGridGain.Client.AffinityKey
import PyGridGain.Client.Partition

/-! How an operation with a key finds its node. The client asks any node for the partitions of the
caches that it knows nothing of, or of all once the topology has advanced, and sends the operation
to the node that is primary for the key; where it cannot, to any node that is alive. -/

namespace PyGridGain

def AFFINITY_RETRIES : ℕ := 32

/-- `connectError` is what `connect` raises besides `connection_errors`, such as
`AuthenticationError`: `reconnect` does not silence it. -/
inductive RoutingError
  | outOfNodes
  | connectError
  | partitionFailed
  | python (e : PyError)

/-- The connection that a `reconnect` leaves, and whether a `connectError` comes out of it. -/
structure Reconnected where
  node : ClientNode
  raises : Bool

/-- A random choice, and what becomes of the nodes that are reconnected for it. -/
structure Choice where
  pick : ℕ
  reconnected : ℕ → Reconnected

/-- What comes of a request for partitions: the reply, an error status, or the connection is lost,
with the nodes as the reconnect leaves them, which may raise. A reply may report a new topology
version in its header. -/
inductive PartitionsAnswer
  | ok (reported : Option AffinityVersion) (version : AffinityVersion)
      (mappings : ℤ → CacheMapping)
  | refused (reported : Option AffinityVersion)
  | lost (nodes : List ClientNode) (raises : Bool)

/-- How `_get_affinity` ends. -/
inductive AffinityOutcome
  | fullAffinity (version : AffinityVersion) (mappings : ℤ → CacheMapping)
  | connectionError
  | connectError
  | cacheError

/-- A call of `get_best_node`, with all that comes of its choices and requests. -/
structure RoutedCall where
  cacheId : ℤ
  key : KeyArg
  keyHint : Option KeyHint
  choice : Choice
  attempts : List (List PartitionsAnswer × Choice)
  reconnected : ℕ → Reconnected

/-- A client with partition awareness: its connections, and what it knows of the partitions. -/
structure RoutingClient where
  nodes : List ClientNode
  affinity : Affinity

/-- `reconnect` of all nodes leaves those that are alive; the flag tells that one raises, which
ends it. -/
def reconnectDead : List ClientNode → (ℕ → Reconnected) → Bool × List ClientNode
  | [], _ => (false, [])
  | n :: nodes, reconnected =>
    if n.alive = false ∧ (reconnected 0).raises then (true, (reconnected 0).node :: nodes)
    else
      let rest := reconnectDead nodes fun i => reconnected (i + 1)
      (rest.1, (if n.alive then n else (reconnected 0).node) :: rest.2)

/-- `random.choice` of the alive nodes. -/
def randomAlive (nodes : List ClientNode) (pick : ℕ) : Option ClientNode :=
  let aliveNodes := nodes.filter (·.alive)
  aliveNodes[pick % aliveNodes.length]?

namespace RoutingClient

def init : RoutingClient := ⟨[], .init⟩

/-- `_get_random_node`. -/
def getRandomNode (c : Choice) (s : RoutingClient) :
    Except RoutingError ClientNode × RoutingClient :=
  match randomAlive s.nodes c.pick with
  | some n => (.ok n, s)
  | none =>
    match reconnectDead s.nodes c.reconnected with
    | (true, nodes) => (.error .connectError, { s with nodes })
    | (false, nodes) =>
      match randomAlive nodes c.pick with
      | some n => (.ok n, { s with nodes })
      | none => (.error .outOfNodes, { s with nodes })

/-- What a response reports is noted. -/
def report (reported : Option AffinityVersion) (s : RoutingClient) : RoutingClient :=
  { s with affinity := reported.elim s.affinity s.affinity.postProcessResponse }

/-- `_get_affinity`; `none` where it is still under way. -/
def getAffinity : ℕ → List PartitionsAnswer → RoutingClient →
    Option (AffinityOutcome × RoutingClient)
  | 0, _, s => some (.cacheError, s)
  | _ + 1, [], _ => none
  | _ + 1, .ok reported version mappings :: _, s =>
    some (.fullAffinity version mappings, s.report reported)
  | n + 1, .refused reported :: answers, s => getAffinity n answers (s.report reported)
  | _ + 1, .lost nodes raises :: _, s =>
    some (if raises then .connectError else .connectionError, { s with nodes })

/-- The `while True` of `get_best_node`: the node in use, with the reply if the server has not
refused it. -/
def requestAffinity : List (List PartitionsAnswer × Choice) → ClientNode → RoutingClient →
    Option (Except RoutingError (ClientNode × Option (AffinityVersion × (ℤ → CacheMapping))) ×
      RoutingClient)
  | [], _, _ => none
  | (answers, choice) :: attempts, conn, s =>
    match s.getAffinity AFFINITY_RETRIES answers with
    | none => none
    | some (.fullAffinity version mappings, s) => some (.ok (conn, some (version, mappings)), s)
    | some (.cacheError, s) => some (.ok (conn, none), s)
    | some (.connectError, s) => some (.error .connectError, s)
    | some (.connectionError, s) =>
      match s.getRandomNode choice with
      | (.ok conn, s) => requestAffinity attempts conn s
      | (.error e, s) => some (.error e, s)

/-- The partitions are updated where need be: the node in use, with the flag that the server has not
refused it. -/
def refresh (call : RoutedCall) (conn : ClientNode) (s : RoutingClient) :
    Option (Except RoutingError (ClientNode × Bool) × RoutingClient) :=
  let caches := s.affinity.cachesToUpdateAffinity
  if caches = [] then some (.ok (conn, true), s)
  else
    match s.requestAffinity call.attempts conn with
    | none => none
    | some (.error e, s) => some (.error e, s)
    | some (.ok (conn, none), s) => some (.ok (conn, false), s)
    | some (.ok (conn, some (version, mappings)), s) =>
      let affinity := s.affinity.updateAffinity version
        (caches.map fun c => (c, some ⟨mappings c, version⟩))
      match reconnectDead s.nodes call.reconnected with
      | (true, nodes) => some (.error .connectError, { nodes, affinity })
      | (false, nodes) => some (.ok (conn, true), { nodes, affinity })

section Keys
variable [Python] (hashcode : KeyArg → KeyHint → Except PyError ℤ)

/-- The hash code of the key, or of its affinity field. -/
def keyHashcode (call : RoutedCall) (s : Affinity) : Except RoutingError ℤ :=
  match s.getAffinityKey call.cacheId call.key call.keyHint with
  | .ok (some (key, keyHint)) => (hashcode key keyHint).mapError .python
  | .ok none => .error (.python ⟨.typeError, ""⟩)
  | .error e => .error (.python e)

/-- The rest of `get_best_node`. -/
def routeKey (call : RoutedCall) (conn : ClientNode) (s : RoutingClient) :
    Except RoutingError ClientNode × RoutingClient :=
  let s := { s with affinity := s.affinity.cachePartitionMapping call.cacheId }
  match (s.affinity.cacheMapping call.cacheId).map (·.numberOfPartitions) with
  | none | some 0 => (.ok conn, s)
  | some parts =>
    match keyHashcode hashcode call s.affinity with
    | .error e => (.error e, s)
    | .ok h =>
      match s.affinity.getNodeByHashcode s.nodes call.cacheId h parts with
      | .error _ => (.error .partitionFailed, s)
      | .ok bestNode => (.ok (bestNode.getD conn), s)

/-- `get_best_node` of a client with partition awareness. -/
def getBestNode (call : RoutedCall) (s : RoutingClient) :
    Option (Except RoutingError ClientNode × RoutingClient) :=
  match s.getRandomNode call.choice with
  | (.error e, s) => some (.error e, s)
  | (.ok conn, s) =>
    match call.key with
    | .value .none => some (.ok conn, s)
    | _ =>
      match s.refresh call conn with
      | none => none
      | some (.error e, s) => some (.error e, s)
      | some (.ok (conn, false), s) => some (.ok conn, s)
      | some (.ok (conn, true), s) => some (s.routeKey hashcode call conn)

end Keys

end RoutingClient

/-! ### Runs -/

/-- What happens to a client: caches are registered, responses to other requests report a topology
version, connections are opened or fail, operations are routed. -/
inductive RoutingStep
  | registerCache (cacheId : ℤ)
  | response (newAffinity : AffinityVersion)
  | connections (nodes : List ClientNode)
  | route (call : RoutedCall)

def RoutingClient.step [Python] (hashcode : KeyArg → KeyHint → Except PyError ℤ)
    (s : RoutingClient) : RoutingStep → Option RoutingClient
  | .registerCache cacheId => some { s with affinity := s.affinity.registerCache true cacheId }
  | .response newAffinity => some { s with affinity := s.affinity.postProcessResponse newAffinity }
  | .connections nodes => some { s with nodes }
  | .route call => (s.getBestNode hashcode call).map (·.2)

/-- The partitions of all caches at each topology version, as the server knows them: every node with
those that it is primary for. -/
structure Cluster where
  mapping : AffinityVersion → ℤ → CacheMapping
  parts_lt : ∀ v c, (mapping v c).numberOfPartitions < 2 ^ 31
  disjoint : ∀ v c, ∀ ns ∈ (mapping v c).nodeMapping,
    ns.Pairwise fun a b => a.2.Disjoint b.2

namespace Cluster

/-- A node is primary for a partition. -/
def Owns (M : Cluster) (v : AffinityVersion) (c part : ℤ) (uuid : NodeUuid) : Prop :=
  ∃ ns ∈ (M.mapping v c).nodeMapping, ∃ ps, (uuid, ps) ∈ ns ∧ part ∈ ps

/-- The connection that an operation belongs to: the first to the node that is primary for the key,
if it is alive. -/
def Home (M : Cluster) (v : AffinityVersion) (c hashcode : ℤ) (nodes : List ClientNode)
    (n : ClientNode) : Prop :=
  n.alive ∧ ∃ uuid, M.Owns v c (rendezvousPartition hashcode (M.mapping v c).numberOfPartitions)
    uuid ∧ nodes.find? (fun n => n.uuid == some uuid) = some n

end Cluster

section Answers
variable (M : Cluster)

def PartitionsAnswer.isRefused : PartitionsAnswer → Bool
  | .refused _ => true
  | _ => false

def PartitionsAnswer.raises : PartitionsAnswer → Bool
  | .lost _ raises => raises
  | _ => false

/-- A `connectError` comes out of a reconnect of the choice, or of the call. -/
def Choice.Raises (c : Choice) : Prop := ∃ i, (c.reconnected i).raises

def RoutedCall.Raises (call : RoutedCall) : Prop :=
  call.choice.Raises ∨ (∃ i, (call.reconnected i).raises) ∨
    ∃ a ∈ call.attempts, (∃ answer ∈ a.1, answer.raises) ∨ a.2.Raises

/-- A reply says what the server knows at its version. -/
def PartitionsAnswer.FromServer : PartitionsAnswer → Prop
  | .ok _ version mappings => mappings = M.mapping version
  | _ => True

def RoutedCall.FromServer (call : RoutedCall) : Prop :=
  ∀ a ∈ call.attempts, ∀ answer ∈ a.1, answer.FromServer M

def RoutingStep.FromServer : RoutingStep → Prop
  | .route call => call.FromServer M
  | _ => True

/-- The server refuses the partitions as often as it is asked by one call of `_get_affinity`. -/
def RoutedCall.Refused (call : RoutedCall) : Prop :=
  ∃ a ∈ call.attempts, AFFINITY_RETRIES ≤ a.1.length ∧
    ∀ answer ∈ a.1.take AFFINITY_RETRIES, answer.isRefused

/-- What the client knows is what the server knew at the version of the mapping. -/
def Affinity.Known (s : Affinity) : Prop :=
  ∀ c m, s.partitionMapping.lookup c = some (some m) → m.mapping = M.mapping m.version c

end Answers

/-- The code gives the partition that the server gives. -/
def RoutesAlike (hashcode : ℤ) (parts : ℕ) : Prop :=
  1 ≤ parts ∧ (parts.isPowerOfTwo ∨ InRemainderBlock hashcode parts)

/-- A node is in use, or none is left, or a reconnect raises. -/
def InUse (raises : Prop) (nodes : List ClientNode) : Except RoutingError ClientNode → Prop
  | .ok n => n ∈ nodes ∧ n.alive
  | .error e => (e = .outOfNodes ∧ ∀ n ∈ nodes, n.alive = false) ∨ (e = .connectError ∧ raises)

theorem InUse.mono {raises raises' : Prop} {nodes : List ClientNode}
    {r : Except RoutingError ClientNode} (h : InUse raises nodes r) (himp : raises → raises') :
    InUse raises' nodes r := by
  cases r with
  | ok n => exact h
  | error e => exact h.imp_right fun he => ⟨he.1, himp he.2⟩

/-- With an alive node, only a reconnect raises. -/
theorem InUse.of_home {M : Cluster} {raises : Prop} {nodes : List ClientNode} {e : RoutingError}
    (h : InUse raises nodes (.error e)) {v : AffinityVersion} {c hash : ℤ} {n : ClientNode}
    (hn : M.Home v c hash nodes n) : e = .connectError := by
  obtain ⟨halive, uuid, -, hfirst⟩ := hn
  refine (h.resolve_left fun hnone => ?_).1
  rw [hnone.2 n (List.mem_of_find?_eq_some hfirst)] at halive
  cases halive

theorem randomAlive_mem {nodes : List ClientNode} {pick : ℕ} {n : ClientNode}
    (h : randomAlive nodes pick = some n) : n ∈ nodes ∧ n.alive :=
  List.mem_filter.mp (List.mem_of_getElem? h)

theorem randomAlive_none {nodes : List ClientNode} {pick : ℕ} (h : randomAlive nodes pick = none) :
    ∀ n ∈ nodes, n.alive = false := by
  have hlen := List.getElem?_eq_none_iff.mp h
  have hnil : nodes.filter (·.alive) = [] := by
    by_contra hne
    have hpos := List.length_pos_of_ne_nil hne
    exact absurd (Nat.mod_lt pick hpos) hlen.not_gt
  intro n hn
  have hfalse := List.filter_eq_nil_iff.mp hnil n hn
  simpa using hfalse

theorem mem_reconnectDead {nodes : List ClientNode} {reconnected : ℕ → Reconnected}
    {n : ClientNode} (h : n ∈ nodes) (halive : n.alive) :
    n ∈ (reconnectDead nodes reconnected).2 := by
  induction nodes generalizing reconnected with
  | nil => cases h
  | cons m nodes ih =>
    unfold reconnectDead
    split_ifs with hraises hm
    · rcases List.mem_cons.mp h with rfl | h
      · rw [hraises.1] at halive
        cases halive
      · exact List.mem_cons_of_mem _ h
    · rcases List.mem_cons.mp h with rfl | h
      · exact List.mem_cons_self
      · exact List.mem_cons_of_mem _ (ih h)
    · rcases List.mem_cons.mp h with rfl | h
      · exact absurd halive hm
      · exact List.mem_cons_of_mem _ (ih h)

theorem reconnectDead_raises {nodes : List ClientNode} {reconnected : ℕ → Reconnected}
    (h : (reconnectDead nodes reconnected).1 = true) : ∃ i, (reconnected i).raises := by
  induction nodes generalizing reconnected with
  | nil => cases h
  | cons m nodes ih =>
    unfold reconnectDead at h
    by_cases hraises : m.alive = false ∧ (reconnected 0).raises
    · exact ⟨0, hraises.2⟩
    · rw [if_neg hraises] at h
      obtain ⟨i, hi⟩ := ih h
      exact ⟨i + 1, hi⟩

namespace RoutingClient
variable {s t : RoutingClient} {call : RoutedCall} {conn : ClientNode}

/-- The mappings and their version are those of before. -/
structure SameMappings (s t : RoutingClient) : Prop where
  partitionMapping : t.affinity.partitionMapping = s.affinity.partitionMapping
  version : t.affinity.version = s.affinity.version

theorem SameMappings.refl (s : RoutingClient) : SameMappings s s := ⟨rfl, rfl⟩

theorem SameMappings.trans {u : RoutingClient} (h : SameMappings s t) (h' : SameMappings t u) :
    SameMappings s u :=
  ⟨h'.partitionMapping.trans h.partitionMapping, h'.version.trans h.version⟩

theorem SameMappings.report (reported : Option AffinityVersion) (s : RoutingClient) :
    SameMappings s (s.report reported) := by
  cases reported with
  | none => exact .refl s
  | some v =>
    constructor <;> dsimp only [RoutingClient.report, Option.elim, Affinity.postProcessResponse] <;>
      split_ifs <;> rfl

theorem SameMappings.known {M : Cluster} (h : SameMappings s t) (hs : s.affinity.Known M) :
    t.affinity.Known M := by
  intro c m hc
  rw [h.partitionMapping] at hc
  exact hs c m hc

theorem getRandomNode_cases {c : Choice} {r : Except RoutingError ClientNode}
    (h : s.getRandomNode c = (r, t)) : t.affinity = s.affinity ∧ InUse c.Raises t.nodes r := by
  unfold getRandomNode at h
  split at h
  · rename_i n hn
    obtain ⟨rfl, rfl⟩ := Prod.mk.inj h
    exact ⟨rfl, randomAlive_mem hn⟩
  · split at h
    · rename_i nodes hnodes
      obtain ⟨rfl, rfl⟩ := Prod.mk.inj h
      exact ⟨rfl, Or.inr ⟨rfl, reconnectDead_raises (congrArg Prod.fst hnodes)⟩⟩
    · split at h
      · rename_i n hn
        obtain ⟨rfl, rfl⟩ := Prod.mk.inj h
        exact ⟨rfl, randomAlive_mem hn⟩
      · rename_i hnone
        obtain ⟨rfl, rfl⟩ := Prod.mk.inj h
        exact ⟨rfl, Or.inl ⟨rfl, randomAlive_none hnone⟩⟩

/-- What an end of `_get_affinity` tells of the answers that it got. -/
def AnsweredBy (n : ℕ) (answers : List PartitionsAnswer) (s t : RoutingClient) :
    AffinityOutcome → Prop
  | .fullAffinity version mappings => t.nodes = s.nodes ∧
      ∃ reported, .ok reported version mappings ∈ answers
  | .connectionError => True
  | .connectError => ∃ answer ∈ answers, answer.raises
  | .cacheError => t.nodes = s.nodes ∧ n ≤ answers.length ∧
      ∀ answer ∈ answers.take n, answer.isRefused

theorem getAffinity_cases {n : ℕ} {answers : List PartitionsAnswer} {o : AffinityOutcome}
    (h : s.getAffinity n answers = some (o, t)) :
    SameMappings s t ∧ AnsweredBy n answers s t o := by
  induction n generalizing answers s with
  | zero =>
    obtain ⟨rfl, rfl⟩ := Prod.mk.inj (Option.some.inj h)
    exact ⟨.refl _, rfl, Nat.zero_le _, by simp⟩
  | succ n ih =>
    cases answers with
    | nil => cases h
    | cons answer answers =>
      cases answer with
      | ok reported version mappings =>
        obtain ⟨rfl, rfl⟩ := Prod.mk.inj (Option.some.inj h)
        exact ⟨.report _ _, rfl, reported, List.mem_cons_self⟩
      | lost nodes raises =>
        obtain ⟨rfl, rfl⟩ := Prod.mk.inj (Option.some.inj h)
        refine ⟨⟨rfl, rfl⟩, ?_⟩
        cases raises with
        | false => exact trivial
        | true => exact ⟨_, List.mem_cons_self, rfl⟩
      | refused reported =>
        obtain ⟨hsame, hanswered⟩ := ih h
        refine ⟨(SameMappings.report reported s).trans hsame, ?_⟩
        cases o with
        | fullAffinity version mappings =>
          obtain ⟨hnodes, reported', hmem⟩ := hanswered
          exact ⟨hnodes, reported', List.mem_cons_of_mem _ hmem⟩
        | connectionError => trivial
        | connectError =>
          obtain ⟨answer, hanswer, hraises⟩ := hanswered
          exact ⟨answer, List.mem_cons_of_mem _ hanswer, hraises⟩
        | cacheError =>
          obtain ⟨hnodes, hlen, hall⟩ := hanswered
          refine ⟨hnodes, Nat.succ_le_succ hlen, ?_⟩
          rw [List.take_succ_cons, List.forall_mem_cons]
          exact ⟨rfl, hall⟩

/-- A `connectError` comes out of an attempt. -/
def AttemptRaises (attempts : List (List PartitionsAnswer × Choice)) : Prop :=
  ∃ a ∈ attempts, (∃ answer ∈ a.1, answer.raises) ∨ a.2.Raises

/-- What an end of the loop tells of the attempts. -/
def RequestedBy (attempts : List (List PartitionsAnswer × Choice)) (nodes : List ClientNode) :
    Except RoutingError (ClientNode × Option (AffinityVersion × (ℤ → CacheMapping))) → Prop
  | .error e => InUse (AttemptRaises attempts) nodes (.error e)
  | .ok (conn, some (version, mappings)) => (conn ∈ nodes ∧ conn.alive) ∧
      ∃ a ∈ attempts, ∃ reported, .ok reported version mappings ∈ a.1
  | .ok (conn, none) => (conn ∈ nodes ∧ conn.alive) ∧ ∃ a ∈ attempts,
      AFFINITY_RETRIES ≤ a.1.length ∧ ∀ answer ∈ a.1.take AFFINITY_RETRIES, answer.isRefused

theorem requestAffinity_cases {attempts : List (List PartitionsAnswer × Choice)}
    {r : Except RoutingError (ClientNode × Option (AffinityVersion × (ℤ → CacheMapping)))}
    (hconn : conn ∈ s.nodes ∧ conn.alive) (h : s.requestAffinity attempts conn = some (r, t)) :
    SameMappings s t ∧ RequestedBy attempts t.nodes r := by
  induction attempts generalizing s conn with
  | nil => cases h
  | cons a attempts ih =>
    obtain ⟨answers, choice⟩ := a
    unfold requestAffinity at h
    cases hget : s.getAffinity AFFINITY_RETRIES answers with
    | none =>
      rw [hget] at h
      cases h
    | some q =>
      obtain ⟨o, u⟩ := q
      rw [hget] at h
      obtain ⟨hsame, hanswered⟩ := getAffinity_cases hget
      cases o with
      | fullAffinity version mappings =>
        obtain ⟨rfl, rfl⟩ := Prod.mk.inj (Option.some.inj h)
        obtain ⟨hnodes, hmem⟩ := hanswered
        exact ⟨hsame, hnodes ▸ hconn, _, List.mem_cons_self, hmem⟩
      | cacheError =>
        obtain ⟨rfl, rfl⟩ := Prod.mk.inj (Option.some.inj h)
        obtain ⟨hnodes, hall⟩ := hanswered
        exact ⟨hsame, hnodes ▸ hconn, _, List.mem_cons_self, hall⟩
      | connectError =>
        obtain ⟨rfl, rfl⟩ := Prod.mk.inj (Option.some.inj h)
        exact ⟨hsame, Or.inr ⟨rfl, _, List.mem_cons_self, Or.inl hanswered⟩⟩
      | connectionError =>
        dsimp only at h
        rcases hrandom : u.getRandomNode choice with ⟨r' | conn', u'⟩
        · rw [hrandom] at h
          obtain ⟨rfl, rfl⟩ := Prod.mk.inj (Option.some.inj h)
          obtain ⟨haffinity, hnone⟩ := getRandomNode_cases hrandom
          exact ⟨⟨haffinity ▸ hsame.1, haffinity ▸ hsame.2⟩,
            hnone.mono fun hraises => ⟨_, List.mem_cons_self, Or.inr hraises⟩⟩
        · rw [hrandom] at h
          obtain ⟨haffinity, hconn'⟩ := getRandomNode_cases hrandom
          obtain ⟨hsame', hrequested⟩ := ih hconn' h
          have hsame'' : SameMappings s u' := ⟨haffinity ▸ hsame.1, haffinity ▸ hsame.2⟩
          refine ⟨hsame''.trans hsame', ?_⟩
          rcases r with e | ⟨conn'', _ | ⟨version, mappings⟩⟩
          · exact InUse.mono (r := .error e) hrequested fun ⟨a, ha, hraises⟩ =>
              ⟨a, List.mem_cons_of_mem _ ha, hraises⟩
          · obtain ⟨hin, a, ha, hall⟩ := hrequested
            exact ⟨hin, a, List.mem_cons_of_mem _ ha, hall⟩
          · obtain ⟨hin, a, ha, hmem⟩ := hrequested
            exact ⟨hin, a, List.mem_cons_of_mem _ ha, hmem⟩

/-- Caches that were to be updated have a mapping of the version of the client, if any. -/
def UpToDate (s t : RoutingClient) : Prop :=
  ∀ c ∈ s.affinity.cachesToUpdateAffinity, ∀ m,
    t.affinity.partitionMapping.lookup c = some (some m) → m.version = t.affinity.version

theorem UpToDate.of_lookup {u : RoutingClient} (h : s.UpToDate t)
    (hversion : u.affinity.version = t.affinity.version)
    (hlookup : ∀ c m, u.affinity.partitionMapping.lookup c = some (some m) →
      t.affinity.partitionMapping.lookup c = some (some m)) : s.UpToDate u := by
  intro c hc m hm
  rw [hversion]
  exact h c hc m (hlookup c m hm)

variable {M : Cluster}

/-- What an end of the refresh tells of the call. -/
def RefreshedBy (call : RoutedCall) (s t : RoutingClient) :
    Except RoutingError (ClientNode × Bool) → Prop
  | .error e => InUse call.Raises t.nodes (.error e)
  | .ok (conn, false) => (conn ∈ t.nodes ∧ conn.alive) ∧ call.Refused
  | .ok (conn, true) => (conn ∈ t.nodes ∧ conn.alive) ∧ UpToDate s t

theorem refresh_cases {r : Except RoutingError (ClientNode × Bool)} (hs : s.affinity.Known M)
    (hcall : call.FromServer M) (hconn : conn ∈ s.nodes ∧ conn.alive)
    (h : s.refresh call conn = some (r, t)) :
    t.affinity.Known M ∧ RefreshedBy call s t r := by
  unfold refresh at h
  dsimp only at h
  split_ifs at h with hcaches
  · obtain ⟨rfl, rfl⟩ := Prod.mk.inj (Option.some.inj h)
    refine ⟨hs, hconn, ?_⟩
    intro c hc
    rw [hcaches] at hc
    cases hc
  cases hrequest : s.requestAffinity call.attempts conn with
  | none =>
    rw [hrequest] at h
    cases h
  | some q =>
    obtain ⟨r', u⟩ := q
    rw [hrequest] at h
    obtain ⟨hsame, hrequested⟩ := requestAffinity_cases hconn hrequest
    rcases r' with e | ⟨conn', _ | ⟨version, mappings⟩⟩
    · obtain ⟨rfl, rfl⟩ := Prod.mk.inj (Option.some.inj h)
      exact ⟨hsame.known hs, InUse.mono (r := .error e) hrequested fun hraises =>
        Or.inr (Or.inr hraises)⟩
    · obtain ⟨rfl, rfl⟩ := Prod.mk.inj (Option.some.inj h)
      exact ⟨hsame.known hs, hrequested⟩
    · obtain ⟨⟨hmem, halive⟩, a, ha, reported, hanswer⟩ := hrequested
      have hserver : mappings = M.mapping version := hcall a ha _ hanswer
      have hknown : (u.affinity.updateAffinity version (s.affinity.cachesToUpdateAffinity.map
          fun c => (c, some ⟨mappings c, version⟩))).Known M := by
        intro c m hc
        rw [Affinity.updateAffinity, lookup_dictUpdate_map] at hc
        split_ifs at hc with hasked
        · obtain rfl := Option.some.inj (Option.some.inj hc)
          exact congrFun hserver c
        · exact hsame.known hs c m hc
      have hmem' : conn' ∈ (reconnectDead u.nodes call.reconnected).2 :=
        mem_reconnectDead hmem halive
      rcases hdead : reconnectDead u.nodes call.reconnected with ⟨_ | _, nodes⟩
      · simp only [hdead] at h hmem'
        obtain ⟨rfl, rfl⟩ := Prod.mk.inj (Option.some.inj h)
        refine ⟨hknown, ⟨hmem', halive⟩, ?_⟩
        intro c hasked m hc
        rw [Affinity.updateAffinity, lookup_dictUpdate_map, if_pos hasked] at hc
        obtain rfl := Option.some.inj (Option.some.inj hc)
        rfl
      · simp only [hdead] at h
        obtain ⟨rfl, rfl⟩ := Prod.mk.inj (Option.some.inj h)
        exact ⟨hknown, Or.inr ⟨rfl, Or.inr (Or.inl
          (reconnectDead_raises (congrArg Prod.fst hdead)))⟩⟩

end RoutingClient

/-! ### The node of a key -/

namespace Affinity
variable {s : Affinity} {M : Cluster} {nodes : List ClientNode} {c : ℤ}

theorem lookup_cachePartitionMapping (s : Affinity) (c c' : ℤ) (m : ReceivedMapping) :
    (s.cachePartitionMapping c).partitionMapping.lookup c' = some (some m) ↔
      s.partitionMapping.lookup c' = some (some m) := by
  unfold cachePartitionMapping
  split
  · rfl
  · rename_i hnone
    dsimp only
    rw [lookup_dictSet]
    split_ifs with heq
    · rw [heq, hnone]
      exact iff_of_false (by simp) (by simp)
    · rfl

theorem version_cachePartitionMapping (s : Affinity) (c : ℤ) :
    (s.cachePartitionMapping c).version = s.version := by
  unfold cachePartitionMapping
  split <;> rfl

theorem primaryNode_mem {part : ℤ} {n : ClientNode} (h : s.primaryNode nodes c part = some n) :
    n ∈ nodes ∧ n.alive := by
  unfold primaryNode at h
  obtain ⟨received, -, h⟩ := Option.bind_eq_some_iff.mp h
  obtain ⟨ns, -, h⟩ := Option.bind_eq_some_iff.mp h
  obtain ⟨owner, -, h⟩ := Option.bind_eq_some_iff.mp h
  obtain ⟨conn, hconn, h⟩ := Option.bind_eq_some_iff.mp h
  split_ifs at h with halive
  obtain rfl := Option.some.inj h
  exact ⟨List.mem_of_find?_eq_some hconn, halive⟩

/-- The node that owns the partition is found, as no other does. -/
theorem primaryNode_of_owns {m : ReceivedMapping} {part : ℤ} {uuid : NodeUuid} {n : ClientNode}
    (hs : s.Known M) (hm : s.partitionMapping.lookup c = some (some m))
    (howns : M.Owns m.version c part uuid)
    (hfirst : nodes.find? (fun n => n.uuid == some uuid) = some n) (halive : n.alive) :
    s.primaryNode nodes c part = some n := by
  obtain ⟨ns, hns, ps, hmem, hpart⟩ := howns
  have hdisjoint := M.disjoint _ _ ns hns
  have hmapping := hs c m hm
  have hsymm : Std.Symm fun a b : NodeUuid × List ℤ => a.2.Disjoint b.2 := ⟨fun _ _ h => h.symm⟩
  have howner : ns.find? (fun p => p.2.contains part) = some (uuid, ps) := by
    have hcontains : ps.contains part := List.contains_iff_mem.mpr hpart
    have hsome : (ns.find? fun p => p.2.contains part).isSome :=
      List.find?_isSome.mpr ⟨(uuid, ps), hmem, hcontains⟩
    obtain ⟨p, hp⟩ := Option.isSome_iff_exists.mp hsome
    have hpmem := List.mem_of_find?_eq_some hp
    have hfound := List.find?_some hp
    have hppart : part ∈ p.2 := List.contains_iff_mem.mp hfound
    rw [hp]
    by_contra hne
    have hne' : p ≠ (uuid, ps) := fun heq => hne (congrArg some heq)
    exact (M.disjoint _ _ ns hns).forall hpmem hmem hne' hppart hpart
  have hreceived : (s.partitionMapping.lookup c).getD none = some m := by rw [hm]; rfl
  have hnodes : m.mapping.nodeMapping = some ns := by rw [hs c m hm]; exact hns
  unfold primaryNode
  simp only [hreceived, hnodes, howner, hfirst, halive, bind, Option.bind, if_true]

/-- Where the code gives the partition that the server gives, the assertion holds. -/
theorem getNodeByHashcode_of_alike {h : ℤ} {parts : ℕ} (halike : RoutesAlike h parts)
    (hlt : parts < 2 ^ 31) : s.getNodeByHashcode nodes c h parts =
      .ok (s.primaryNode nodes c (rendezvousPartition h parts)) := by
  obtain ⟨hpos, halike⟩ := halike
  have heq : partition h parts = rendezvousPartition h parts := by
    by_cases hp : parts.isPowerOfTwo
    · exact partition_of_isPowerOfTwo hpos hlt hp
    · exact (partition_eq_iff hpos hlt hp).mpr (halike.resolve_left hp)
  unfold getNodeByHashcode
  rw [heq, if_pos (rendezvousPartition_range h hpos hlt)]

theorem getNodeByHashcode_mem {h : ℤ} {parts : ℕ} {n : ClientNode}
    (hbest : s.getNodeByHashcode nodes c h parts = .ok (some n)) : n ∈ nodes ∧ n.alive := by
  unfold getNodeByHashcode at hbest
  dsimp only at hbest
  split_ifs at hbest
  exact primaryNode_mem (Except.ok.inj hbest)

end Affinity

section Keys
variable [Python] {hashcode : KeyArg → KeyHint → Except PyError ℤ} {M : Cluster}

namespace RoutingClient
variable {s t : RoutingClient} {call : RoutedCall} {conn : ClientNode}

/-- Any connection that is given is alive. -/
theorem routeKey_alive {r : Except RoutingError ClientNode} (hconn : conn ∈ s.nodes ∧ conn.alive)
    (h : s.routeKey hashcode call conn = (r, t)) {n : ClientNode} (hr : r = .ok n) :
    n ∈ t.nodes ∧ n.alive := by
  subst hr
  unfold routeKey at h
  dsimp only at h
  split at h
  · obtain ⟨heq, rfl⟩ := Prod.mk.inj h
    exact Except.ok.inj heq ▸ hconn
  · obtain ⟨heq, rfl⟩ := Prod.mk.inj h
    exact Except.ok.inj heq ▸ hconn
  · split at h
    · obtain ⟨heq, -⟩ := Prod.mk.inj h
      cases heq
    · split at h
      · obtain ⟨heq, -⟩ := Prod.mk.inj h
        cases heq
      · rename_i bestNode hbest
        obtain ⟨heq, rfl⟩ := Prod.mk.inj h
        obtain rfl := Except.ok.inj heq
        cases bestNode with
        | none => exact hconn
        | some n => exact Affinity.getNodeByHashcode_mem hbest

/-- No connection is opened for that. -/
theorem routeKey_error {r : Except RoutingError ClientNode}
    (h : s.routeKey hashcode call conn = (r, t)) : r ≠ .error .connectError := by
  rintro rfl
  unfold routeKey at h
  dsimp only at h
  split at h
  · cases (Prod.mk.inj h).1
  · cases (Prod.mk.inj h).1
  · split at h
    · rename_i e hkey
      obtain rfl := Except.error.inj (Prod.mk.inj h).1
      unfold keyHashcode at hkey
      split at hkey
      · rename_i key keyHint _
        cases hhash : hashcode key keyHint <;> rw [hhash] at hkey <;> cases hkey
      · cases hkey
      · cases hkey
    · split at h <;> cases (Prod.mk.inj h).1

variable (hashcode) in
theorem routeKey_state (s : RoutingClient) (call : RoutedCall) (conn : ClientNode) :
    (s.routeKey hashcode call conn).2 =
      { s with affinity := s.affinity.cachePartitionMapping call.cacheId } := by
  unfold routeKey
  dsimp only
  split
  · rfl
  · rfl
  · split
    · rfl
    · split <;> rfl

/-- With a mapping and a hash code, the connection is that to the primary node, or the one at
hand. -/
theorem routeKey_of_known {m : ReceivedMapping} {h : ℤ}
    (hm : (s.affinity.cachePartitionMapping call.cacheId).partitionMapping.lookup call.cacheId =
      some (some m))
    (hkey : keyHashcode hashcode call (s.affinity.cachePartitionMapping call.cacheId) = .ok h)
    (halike : RoutesAlike h m.mapping.numberOfPartitions)
    (hlt : m.mapping.numberOfPartitions < 2 ^ 31) :
    (s.routeKey hashcode call conn).1 =
      .ok (((s.affinity.cachePartitionMapping call.cacheId).primaryNode s.nodes call.cacheId
        (rendezvousPartition h m.mapping.numberOfPartitions)).getD conn) := by
  have hmapping : ((s.affinity.cachePartitionMapping call.cacheId).cacheMapping
      call.cacheId).map (·.numberOfPartitions) = some m.mapping.numberOfPartitions := by
    rw [Affinity.cacheMapping, hm]
    rfl
  have hbest : (s.affinity.cachePartitionMapping call.cacheId).getNodeByHashcode s.nodes
      call.cacheId h m.mapping.numberOfPartitions =
        .ok ((s.affinity.cachePartitionMapping call.cacheId).primaryNode s.nodes call.cacheId
          (rendezvousPartition h m.mapping.numberOfPartitions)) :=
    Affinity.getNodeByHashcode_of_alike halike hlt
  obtain ⟨k, hk⟩ := Nat.exists_eq_succ_of_ne_zero (Nat.one_le_iff_ne_zero.mp halike.1)
  rw [hk] at hmapping hbest ⊢
  unfold routeKey
  simp only [hmapping, hkey, hbest]

/-- The connection to the primary node is given, and no other error than that no node is left. -/
theorem routeKey_home {m : ReceivedMapping} {h : ℤ} {r : Except RoutingError ClientNode}
    (hs : s.affinity.Known M) (hroute : s.routeKey hashcode call conn = (r, t))
    (hm : t.affinity.partitionMapping.lookup call.cacheId = some (some m))
    (hkey : keyHashcode hashcode call t.affinity = .ok h)
    (halike : RoutesAlike h m.mapping.numberOfPartitions) :
    (∀ n, M.Home m.version call.cacheId h t.nodes n → r = .ok n) ∧ ∃ n, r = .ok n := by
  have hstate := routeKey_state hashcode s call conn
  rw [hroute] at hstate
  dsimp only at hstate
  subst hstate
  have hknown : (s.affinity.cachePartitionMapping call.cacheId).Known M := fun c m hc =>
    hs c m ((Affinity.lookup_cachePartitionMapping _ _ _ _).mp hc)
  have hmapping := hknown _ _ hm
  have hlt : m.mapping.numberOfPartitions < 2 ^ 31 := hmapping ▸ M.parts_lt _ _
  have hr : (s.routeKey hashcode call conn).1 = _ := routeKey_of_known hm hkey halike hlt
  rw [hroute] at hr
  refine ⟨?_, _, hr⟩
  rintro n ⟨halive, uuid, howns, hfirst⟩
  rw [← hmapping] at howns
  rw [Affinity.primaryNode_of_owns hknown hm howns hfirst halive] at hr
  exact hr

end RoutingClient

/-- What is promised of a call that gives `r` and leaves the client in `t`. -/
structure RoutedCall.Routed (hashcode : KeyArg → KeyHint → Except PyError ℤ) (M : Cluster)
    (call : RoutedCall) (s t : RoutingClient) (r : Except RoutingError ClientNode) : Prop where
  alive : ∀ n, r = .ok n → n ∈ t.nodes ∧ n.alive
  raises : r = .error .connectError → call.Raises
  known : t.affinity.Known M
  upToDate : call.key ≠ .value .none → ¬call.Refused → ∀ n, r = .ok n → s.UpToDate t
  home : call.key ≠ .value .none → ¬call.Refused → ∀ m h,
    t.affinity.partitionMapping.lookup call.cacheId = some (some m) →
    RoutingClient.keyHashcode hashcode call t.affinity = .ok h →
    RoutesAlike h m.mapping.numberOfPartitions →
    (∀ n, M.Home m.version call.cacheId h t.nodes n → r = .ok n ∨ r = .error .connectError) ∧
      ∀ e, r = .error e → InUse call.Raises t.nodes (.error e)

namespace RoutingClient
variable {s t : RoutingClient} {call : RoutedCall}

/-- No node is left, or a reconnect raises. -/
theorem routed_of_error {e : RoutingError} (ht : t.affinity.Known M)
    (h : InUse call.Raises t.nodes (.error e)) : call.Routed hashcode M s t (.error e) where
  alive n hn := by cases hn
  raises he := by
    obtain rfl := Except.error.inj he
    rcases h with ⟨hne, -⟩ | ⟨-, hraises⟩
    · cases hne
    · exact hraises
  known := ht
  upToDate _ _ n hn := by cases hn
  home _ _ m h' _ _ _ := by
    refine ⟨fun n hn => Or.inr (congrArg _ (h.of_home hn)), ?_⟩
    rintro e ⟨⟩
    exact h

/-- One call. -/
theorem getBestNode_routed {r : Except RoutingError ClientNode} (hs : s.affinity.Known M)
    (hcall : call.FromServer M) (h : s.getBestNode hashcode call = some (r, t)) :
    call.Routed hashcode M s t r := by
  unfold getBestNode at h
  rcases hrandom : s.getRandomNode call.choice with ⟨e | conn, u⟩
  · rw [hrandom] at h
    obtain ⟨rfl, rfl⟩ := Prod.mk.inj (Option.some.inj h)
    obtain ⟨haffinity, hnone⟩ := getRandomNode_cases hrandom
    exact routed_of_error (haffinity ▸ hs) (hnone.mono Or.inl)
  obtain ⟨haffinity, hconn⟩ := getRandomNode_cases hrandom
  rw [hrandom] at h
  dsimp only at h
  split at h
  · rename_i hkey
    obtain ⟨rfl, rfl⟩ := Prod.mk.inj (Option.some.inj h)
    refine ⟨?_, nofun, haffinity ▸ hs, fun hne => absurd hkey hne, fun hne => absurd hkey hne⟩
    rintro n ⟨⟩
    exact hconn
  cases hrefresh : u.refresh call conn with
  | none =>
    rw [hrefresh] at h
    cases h
  | some q =>
    obtain ⟨r', v⟩ := q
    rw [hrefresh] at h
    obtain ⟨hknown, hrefreshed⟩ := refresh_cases (haffinity ▸ hs) hcall hconn hrefresh
    rcases r' with e | ⟨conn', _ | _⟩
    · obtain ⟨rfl, rfl⟩ := Prod.mk.inj (Option.some.inj h)
      exact routed_of_error hknown hrefreshed
    · obtain ⟨rfl, rfl⟩ := Prod.mk.inj (Option.some.inj h)
      obtain ⟨hin, hrefused⟩ := hrefreshed
      refine ⟨?_, nofun, hknown, fun _ hne => absurd hrefused hne,
        fun _ hne => absurd hrefused hne⟩
      rintro n ⟨⟩
      exact hin
    · obtain ⟨hin, hupToDate⟩ := hrefreshed
      have hroute := Option.some.inj h
      have hstate := routeKey_state hashcode v call conn'
      rw [hroute] at hstate
      dsimp only at hstate
      have hupToDate' : s.UpToDate v := by
        intro c hc
        rw [← haffinity] at hc
        exact hupToDate c hc
      constructor
      · exact fun n hn => routeKey_alive hin hroute hn
      · exact fun hr => absurd hr (routeKey_error hroute)
      · rw [hstate]
        exact fun c m hc => hknown c m ((Affinity.lookup_cachePartitionMapping _ _ _ _).mp hc)
      · intro _ _ n _
        rw [hstate]
        exact hupToDate'.of_lookup (Affinity.version_cachePartitionMapping _ _)
          fun c m => (Affinity.lookup_cachePartitionMapping _ _ _ _).mp
      · intro _ _ m hash hm hkey halike
        obtain ⟨hhome, n, hn⟩ := routeKey_home hknown hroute hm hkey halike
        refine ⟨fun n hn => Or.inl (hhome n hn), fun e he => ?_⟩
        rw [hn] at he
        cases he

theorem known_step {a : RoutingStep} (hs : s.affinity.Known M) (ha : a.FromServer M)
    (h : s.step hashcode a = some t) : t.affinity.Known M := by
  cases a with
  | registerCache cacheId =>
    obtain rfl := Option.some.inj h
    intro c m hc
    rw [Affinity.registerCache, if_pos rfl] at hc
    dsimp only at hc
    rw [lookup_dictSet] at hc
    split_ifs at hc with heq
    · cases hc
    · exact hs c m hc
  | response newAffinity =>
    obtain rfl := Option.some.inj h
    exact (SameMappings.report (some newAffinity) s).known hs
  | connections nodes =>
    obtain rfl := Option.some.inj h
    exact hs
  | route call =>
    obtain ⟨q, hq, rfl⟩ := Option.map_eq_some_iff.mp h
    exact (getBestNode_routed hs ha hq).known

end RoutingClient

end Keys

/-- `hashcode` of an `Int`. -/
def intHashcode : KeyArg → KeyHint → Except PyError ℤ
  | .value (.int i), _ => .ok i
  | _, _ => raise .typeError

/-- A node has the even partitions, the other one the odd ones. -/
def evenAndOdd : Cluster where
  mapping _ _ := ⟨true, [], some [(7, [0, 2]), (8, [1, 3])], 4⟩
  parts_lt _ _ := by decide
  disjoint _ _ ns hns := by
    obtain rfl := Option.some.inj hns
    simp

def bothNodes : List ClientNode := [⟨some 7, true⟩, ⟨some 8, true⟩]

/-- The partitions are asked for twice, as a connection is lost, and refused once. -/
def intCall : RoutedCall :=
  let choice : Choice := ⟨0, fun _ => ⟨⟨none, false⟩, false⟩⟩
  ⟨3, .value (.int 5), none, choice, [([.lost bothNodes false], choice),
    ([.refused none, .ok none (toLex (1, 0)) (evenAndOdd.mapping (toLex (1, 0)))], choice)],
    choice.reconnected⟩

end PyGridGain
