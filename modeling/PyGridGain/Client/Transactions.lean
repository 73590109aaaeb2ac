import PyGridGain.Connection.ProtocolContext
import PyGridGain.Datatypes.FromPython

/-! Transactions: the requests made in one carry its id, which means something only on
the connection on which the transaction was started. The id is taken from the context
when a request is encoded, the connection by each operation for itself: the operations
of a cache take that of the transaction, the cursors a random one. -/

namespace PyGridGain

/-- The connections of a client by their places in `_nodes`. -/
abbrev Conn := ℕ

structure TransactionContext where
  txId : ℤ
  conn : Conn
  deriving DecidableEq

/-- `get_tx_id`, given the value of the context variable. -/
def getTxId (current : Option TransactionContext) : Option ℤ := current.map (·.txId)

def getTxConnection (current : Option TransactionContext) : Option Conn := current.map (·.conn)

/-- `tx_start` on `conn`, given status and transaction id of the response: the context
variable afterwards. -/
def txStart (conn : Conn) (status txId : ℤ) (current : Option TransactionContext) :
    Option TransactionContext :=
  if status = 0 then some ⟨txId, conn⟩ else current

/-! ### What a request says of the transaction -/

/-- Durations in milliseconds. -/
structure ExpiryPolicy where
  create : ℤ
  update : ℤ
  access : ℤ

structure CacheInfo where
  cacheId : ℤ
  expiryPolicy : Option ExpiryPolicy
  version : ProtocolVersion

def TRANSACTIONS_MASK : ℕ := 0x02
def EXPIRY_POLICY_MASK : ℕ := 0x04

/-- `value.to_bytes(k, 'little', signed=True)` with its `OverflowError`. -/
def toBytes (k : ℕ) (i : ℤ) : Except PyError Bytes :=
  match signedBytes k i with
  | some b => .ok b
  | none => raise .overflowError

/-- `ExpiryPolicy.write_policy`. -/
def ExpiryPolicy.writePolicy (p : ExpiryPolicy) : Except PyError Bytes := do
  let create ← toBytes 8 p.create
  let update ← toBytes 8 p.update
  let access ← toBytes 8 p.access
  .ok (create ++ update ++ access)

namespace CacheInfo

/-- The id of the transaction that a request will name. A transaction id of zero counts
as none. -/
def txId (info : CacheInfo) (current : Option TransactionContext) : Option ℤ :=
  match getTxId current with
  | some i => if info.version.isTransactionsSupported && i != 0 then some i else none
  | none => none

/-- The flag of an expiry policy, which the cluster has to support. -/
def expiryFlag (info : CacheInfo) : Except PyError ℕ :=
  match info.expiryPolicy with
  | some _ =>
    if info.version.isExpiryPolicySupported then .ok EXPIRY_POLICY_MASK
    else raise .runtimeError "'ExpiryPolicy' API is not supported by the cluster"
  | none => .ok 0

def policyBytes (info : CacheInfo) : Except PyError Bytes :=
  match info.expiryPolicy with
  | some p => p.writePolicy
  | none => .ok []

def txIdBytes (current : Option TransactionContext) (info : CacheInfo) : Except PyError Bytes :=
  match info.txId current with
  | some i => toBytes 4 i
  | none => .ok []

/-- `CacheInfo.from_python`. -/
def fromPython (current : Option TransactionContext) (info : CacheInfo) : Except PyError Bytes := do
  let cacheId ← toBytes 4 info.cacheId
  let flags ← info.expiryFlag
  let flags := flags ||| if (info.txId current).isSome then TRANSACTIONS_MASK else 0
  let policy ← info.policyBytes
  let txId ← info.txIdBytes current
  .ok (cacheId ++ [UInt8.ofNat flags] ++ policy ++ txId)

end CacheInfo

/-- The flags of an encoded `CacheInfo` say that a transaction id follows. -/
def CarriesTx (info : Bytes) : Prop := (info.getD 4 0).toNat &&& TRANSACTIONS_MASK ≠ 0

instance (info : Bytes) : Decidable (CarriesTx info) := inferInstanceAs (Decidable (_ ≠ _))

/-! ### Where a request is sent -/

/-- A client, and what chance decides: which connections can be opened, what
`random.choice` draws, and the node that affinity finds for a key. -/
structure Nodes (κ : Type) where
  alive : List Bool
  currentNode : ℕ
  partitionAware : Bool
  connects : ℕ → Bool
  choice : ℕ
  bestNode : Option κ → Option Conn

namespace Nodes

variable {κ : Type}

/-- `random.choice(alive_nodes)`; `none` for an empty sequence. -/
def chooseAlive (choice : ℕ) (alive : List Bool) : Option Conn :=
  let nodes := (List.range alive.length).filter fun i => alive.getD i false
  nodes[choice % nodes.length]?

/-- `random_node`; `none` is the `ReconnectError` of a client out of nodes. -/
def randomNode (n : Nodes κ) : Option Conn :=
  if n.partitionAware then
    match chooseAlive n.choice n.alive with
    | some c => some c
    | none => chooseAlive n.choice ((List.range n.alive.length).map n.connects)
  else if n.alive.getD n.currentNode false then some n.currentNode
  else
    let next := if n.currentNode + 1 ≥ n.alive.length then 0 else n.currentNode + 1
    (List.range' next (n.alive.length - next) ++ List.range next).find? n.connects

/-- `Cache._get_best_node`. -/
def getBestNode (n : Nodes κ) (current : Option TransactionContext) (key : Option κ) : Option Conn :=
  match getTxConnection current with
  | some c => some c
  | none => n.bestNode key

end Nodes

/-- What a user can ask of a cache or of a client. The settings of a cache are fetched
once; `select_row` needs them. -/
inductive Op (κ : Type)
  | settings (fetched : Bool)
  | destroy
  | get (key : κ)
  | put (key : κ)
  | getAll
  | putAll
  | replace (key : κ)
  | clear
  | clearKey (key : κ)
  | clearKeys
  | containsKey (key : κ)
  | containsKeys
  | getAndPut (key : κ)
  | getAndPutIfAbsent (key : κ)
  | putIfAbsent (key : κ)
  | getAndRemove (key : κ)
  | getAndReplace (key : κ)
  | removeKey (key : κ)
  | removeKeys
  | removeAll
  | removeIfEquals (key : κ)
  | replaceIfEquals (key : κ)
  | getSize
  | scan
  | selectRow (fetched : Bool)
  | vector
  | sql
  | cursorGetPage (connection : Conn)

/-- A request and the connection it is sent on, with the encoded `CacheInfo`, if it has
one. -/
structure Request where
  conn : Conn
  cacheInfo : Option Bytes
  deriving DecidableEq

section Requests
variable {κ : Type} (n : Nodes κ) (current : Option TransactionContext) (info : CacheInfo)

/-- A request with a `CacheInfo`, on the node chosen for it; nothing is sent where
choosing or encoding raises. -/
def sendInfo (node : Option Conn) : List Request :=
  match node, info.fromPython current with
  | some conn, .ok b => [⟨conn, some b⟩]
  | _, _ => []

def sendPlain (node : Option Conn) : List Request :=
  match node with
  | some conn => [⟨conn, none⟩]
  | none => []

/-- An operation of a cache, on the best node for its key. -/
def sendBest (key : Option κ) : List Request := sendInfo current info (n.getBestNode current key)

/-- The first request of a cursor. -/
def sendRandom : List Request := sendInfo current info n.randomNode

def fetchSettings (fetched : Bool) : List Request :=
  if fetched then [] else sendBest n current info none

/-- The requests of an operation. -/
def Op.requests : Op κ → List Request
  | settings fetched => fetchSettings n current info fetched
  | destroy => sendPlain (n.getBestNode current none)
  | get key => sendBest n current info (some key)
  | put key => sendBest n current info (some key)
  | getAll => sendBest n current info none
  | putAll => sendBest n current info none
  | replace key => sendBest n current info (some key)
  | clear => sendBest n current info none
  | clearKey key => sendBest n current info (some key)
  | clearKeys => sendBest n current info none
  | containsKey key => sendBest n current info (some key)
  | containsKeys => sendBest n current info none
  | getAndPut key => sendBest n current info (some key)
  | getAndPutIfAbsent key => sendBest n current info (some key)
  | putIfAbsent key => sendBest n current info (some key)
  | getAndRemove key => sendBest n current info (some key)
  | getAndReplace key => sendBest n current info (some key)
  | removeKey key => sendBest n current info (some key)
  | removeKeys => sendBest n current info none
  | removeAll => sendBest n current info none
  | removeIfEquals key => sendBest n current info (some key)
  | replaceIfEquals key => sendBest n current info (some key)
  | getSize => sendBest n current info none
  | scan => sendRandom n current info
  | selectRow fetched => fetchSettings n current info fetched ++ sendRandom n current info
  | vector => sendRandom n current info
  | sql => sendRandom n current info
  | cursorGetPage connection => sendPlain (some connection)

end Requests

/-- The operations that open a cursor. -/
def Op.OpensCursor {κ : Type} : Op κ → Prop
  | scan => True
  | selectRow _ => True
  | vector => True
  | sql => True
  | _ => False

/-! ### The law -/

theorem toBytes_ok {k : ℕ} {i : ℤ} {b : Bytes} (h : toBytes k i = .ok b) : b.length = k := by
  unfold toBytes signedBytes at h
  split_ifs at h
  · obtain rfl : leBytes k (twos k i) = b := by simpa using h
    exact leBytes_length _ _
  · simp [raise] at h

theorem bind_ok_iff {α β : Type} {x : Except PyError α} {f : α → Except PyError β} {b : β} :
    (x >>= f) = .ok b ↔ ∃ a, x = .ok a ∧ f a = .ok b := by
  cases x <;> simp [bind, Except.bind]

/-- An encoded `CacheInfo` carries the transaction that it names, if any. -/
theorem carriesTx_iff {current : Option TransactionContext} {info : CacheInfo} {b : Bytes}
    (h : info.fromPython current = .ok b) : CarriesTx b ↔ (info.txId current).isSome := by
  unfold CacheInfo.fromPython at h
  obtain ⟨cacheId, hid, h⟩ := bind_ok_iff.mp h
  obtain ⟨flags, hflags, h⟩ := bind_ok_iff.mp h
  obtain ⟨policy, -, h⟩ := bind_ok_iff.mp h
  obtain ⟨txId, -, h⟩ := bind_ok_iff.mp h
  obtain rfl := Except.ok.inj h
  have hlen := toBytes_ok hid
  have hcases : flags = 0 ∨ flags = EXPIRY_POLICY_MASK := by
    unfold CacheInfo.expiryFlag at hflags
    split at hflags
    · split_ifs at hflags
      · exact Or.inr (Except.ok.inj hflags).symm
      · simp [raise] at hflags
    · exact Or.inl (Except.ok.inj hflags).symm
  have hbyte : ∀ m : ℕ, (cacheId ++ [UInt8.ofNat m] ++ policy ++ txId).getD 4 0 = UInt8.ofNat m := by
    intro m
    simp [← hlen]
  rw [CarriesTx, hbyte]
  rcases hcases with rfl | rfl <;> cases (info.txId current).isSome <;> decide

section Law
variable {κ : Type} {n : Nodes κ} {info : CacheInfo} {conn : Conn} {txId : ℤ}
  {before : Option TransactionContext}

/-- What a list of requests has to meet. -/
def OnConnection (conn : Conn) (rs : List Request) : Prop :=
  ∀ r ∈ rs, ∀ b ∈ r.cacheInfo, CarriesTx b → r.conn = conn

theorem onConnection_nil : OnConnection conn [] := by simp [OnConnection]

theorem onConnection_append {rs rs' : List Request} :
    OnConnection conn (rs ++ rs') ↔ OnConnection conn rs ∧ OnConnection conn rs' :=
  List.forall_mem_append

theorem sendPlain_onConnection (node : Option Conn) : OnConnection conn (sendPlain node) := by
  cases node <;> simp [OnConnection, sendPlain]

/-- A request with a `CacheInfo` has to go to the connection of the transaction, if it
names one. -/
theorem sendInfo_onConnection_iff {current : Option TransactionContext} {node : Option Conn} :
    OnConnection conn (sendInfo current info node) ↔
      ((info.txId current).isSome → (∃ b, info.fromPython current = .ok b) → ∀ c ∈ node, c = conn) := by
  unfold sendInfo
  cases node with
  | none => simp [OnConnection]
  | some c =>
    cases henc : info.fromPython current with
    | error e => simp [OnConnection]
    | ok b => simp [OnConnection, carriesTx_iff henc]

/-- The operations of a cache follow the transaction. -/
theorem sendBest_onConnection (key : Option κ) :
    OnConnection conn (sendBest n (txStart conn 0 txId before) info key) := by
  refine sendInfo_onConnection_iff.mpr fun _ _ c hc => ?_
  simpa [Nodes.getBestNode, getTxConnection, txStart, eq_comm] using hc

theorem fetchSettings_onConnection (fetched : Bool) :
    OnConnection conn (fetchSettings n (txStart conn 0 txId before) info fetched) := by
  cases fetched
  · exact sendBest_onConnection none
  · exact onConnection_nil

theorem txId_isSome_iff : (info.txId (txStart conn 0 txId before)).isSome ↔
    info.version.isTransactionsSupported ∧ txId ≠ 0 := by
  simp [CacheInfo.txId, getTxId, txStart]

theorem sendRandom_onConnection_iff :
    OnConnection conn (sendRandom n (txStart conn 0 txId before) info) ↔
      (info.version.isTransactionsSupported → txId ≠ 0 →
        (∃ b, info.fromPython (txStart conn 0 txId before) = .ok b) →
          ∀ c ∈ n.randomNode, c = conn) := by
  rw [sendRandom, sendInfo_onConnection_iff, txId_isSome_iff, and_imp]

/-- In a transaction that was started on `conn`, the requests of an operation that carry
its id are sent on `conn`, unless the operation opens a cursor and another connection is
drawn for that. -/
theorem tx_requests_on_connection_iff (n : Nodes κ) (info : CacheInfo) (conn : Conn) (txId : ℤ)
    (before : Option TransactionContext) (op : Op κ) :
    (∀ r ∈ op.requests n (txStart conn 0 txId before) info, ∀ b ∈ r.cacheInfo,
        CarriesTx b → r.conn = conn) ↔
      (op.OpensCursor → info.version.isTransactionsSupported → txId ≠ 0 →
        (∃ b, info.fromPython (txStart conn 0 txId before) = .ok b) →
          ∀ c ∈ n.randomNode, c = conn) := by
  change OnConnection conn _ ↔ _
  cases op with
  | scan => simpa [Op.requests, Op.OpensCursor] using sendRandom_onConnection_iff
  | vector => simpa [Op.requests, Op.OpensCursor] using sendRandom_onConnection_iff
  | sql => simpa [Op.requests, Op.OpensCursor] using sendRandom_onConnection_iff
  | selectRow fetched =>
    rw [Op.requests, onConnection_append, sendRandom_onConnection_iff]
    simp [Op.OpensCursor, fetchSettings_onConnection]
  | settings fetched => exact iff_of_true (fetchSettings_onConnection fetched) (by simp [Op.OpensCursor])
  | destroy =>
    rw [Op.requests]
    exact iff_of_true (sendPlain_onConnection _) (by simp [Op.OpensCursor])
  | cursorGetPage c =>
    rw [Op.requests]
    exact iff_of_true (sendPlain_onConnection _) (by simp [Op.OpensCursor])
  | get key | put key | replace key | clearKey key | containsKey key | getAndPut key
  | getAndPutIfAbsent key | putIfAbsent key | getAndRemove key | getAndReplace key
  | removeKey key | removeIfEquals key | replaceIfEquals key =>
    exact iff_of_true (sendBest_onConnection (some key)) (by simp [Op.OpensCursor])
  | _ => exact iff_of_true (sendBest_onConnection none) (by simp [Op.OpensCursor])

end Law

/-- A scan in a transaction on the first of two connections, sent on the second. -/
theorem scan_leaves_tx_connection :
    let n : Nodes ℤ := ⟨[true, true], 0, true, fun _ => true, 1, fun _ => some 0⟩
    let info : CacheInfo := ⟨5, none, ⟨1, 7, 1⟩⟩
    ∃ r ∈ Op.scan.requests n (txStart 0 0 3 none) info, ∃ b ∈ r.cacheInfo,
      CarriesTx b ∧ r.conn ≠ 0 :=
  ⟨⟨1, some [5, 0, 0, 0, 2, 3, 0, 0, 0]⟩, by decide, [5, 0, 0, 0, 2, 3, 0, 0, 0], by decide⟩

end PyGridGain
