import PyGridGain.Client.Transactions
import PyGridGain.Codec.Settled
import PyGridGain.Lib.PrefixCode
import PyGridGain.Queries.Query

/-! The requests of the key-value API: an operation code, what is said of the cache, and the keys
and values. What a request asks for can be told from its bytes. -/

namespace PyGridGain

open StreamM

/-- The parameters of the operations: an object, with or without a hint, an `AnyDataArray`, a `Map`,
or peek modes, a `ByteArray`. -/
inductive KeyParam
  | object
  | objects
  | map
  | peekModes
  deriving DecidableEq

inductive KeyValueOp
  | cachePut
  | cacheGet
  | cacheGetAll
  | cachePutAll
  | cacheContainsKey
  | cacheContainsKeys
  | cacheGetAndPut
  | cacheGetAndReplace
  | cacheGetAndRemove
  | cachePutIfAbsent
  | cacheGetAndPutIfAbsent
  | cacheReplace
  | cacheReplaceIfEquals
  | cacheClear
  | cacheClearKey
  | cacheClearKeys
  | cacheRemoveKey
  | cacheRemoveIfEquals
  | cacheRemoveKeys
  | cacheRemoveAll
  | cacheGetSize
  | cacheLocalPeek
  deriving DecidableEq

namespace KeyValueOp

def opCode : KeyValueOp → ℤ
  | cacheGet => 1000
  | cachePut => 1001
  | cachePutIfAbsent => 1002
  | cacheGetAll => 1003
  | cachePutAll => 1004
  | cacheGetAndPut => 1005
  | cacheGetAndReplace => 1006
  | cacheGetAndRemove => 1007
  | cacheGetAndPutIfAbsent => 1008
  | cacheReplace => 1009
  | cacheReplaceIfEquals => 1010
  | cacheContainsKey => 1011
  | cacheContainsKeys => 1012
  | cacheClear => 1013
  | cacheClearKey => 1014
  | cacheClearKeys => 1015
  | cacheRemoveKey => 1016
  | cacheRemoveIfEquals => 1017
  | cacheRemoveKeys => 1018
  | cacheRemoveAll => 1019
  | cacheGetSize => 1020
  | cacheLocalPeek => 1021

/-- What follows the `cache_info`. -/
def params : KeyValueOp → List (PyStr × KeyParam)
  | cachePut | cacheGetAndPut | cacheGetAndReplace | cachePutIfAbsent | cacheGetAndPutIfAbsent
  | cacheReplace => [("key".toList, .object), ("value".toList, .object)]
  | cacheGet | cacheContainsKey | cacheGetAndRemove | cacheClearKey | cacheRemoveKey =>
    [("key".toList, .object)]
  | cacheRemoveIfEquals => [("key".toList, .object), ("sample".toList, .object)]
  | cacheReplaceIfEquals =>
    [("key".toList, .object), ("sample".toList, .object), ("value".toList, .object)]
  | cacheGetAll | cacheContainsKeys | cacheClearKeys | cacheRemoveKeys =>
    [("keys".toList, .objects)]
  | cachePutAll => [("data".toList, .map)]
  | cacheClear | cacheRemoveAll => []
  | cacheGetSize => [("peek_modes".toList, .peekModes)]
  | cacheLocalPeek => [("key".toList, .object), ("peek_modes".toList, .peekModes)]

theorem opCode_range (op : KeyValueOp) : Scalar.short.Range op.opCode := by
  cases op <;> decide

theorem params_nodup (op : KeyValueOp) :
    ("cache_info".toList :: op.params.map (·.1)).Nodup := by
  cases op <;> simp [params, -String.reduceToList, String.toList_inj]

def all : List KeyValueOp :=
  [cachePut, cacheGet, cacheGetAll, cachePutAll, cacheContainsKey, cacheContainsKeys,
    cacheGetAndPut, cacheGetAndReplace, cacheGetAndRemove, cachePutIfAbsent,
    cacheGetAndPutIfAbsent, cacheReplace, cacheReplaceIfEquals, cacheClear, cacheClearKey,
    cacheClearKeys, cacheRemoveKey, cacheRemoveIfEquals, cacheRemoveKeys, cacheRemoveAll,
    cacheGetSize, cacheLocalPeek]

theorem mem_all (op : KeyValueOp) : op ∈ all := by
  cases op <;> decide

theorem opCode_injective {a b : KeyValueOp} (h : a.opCode = b.opCode) : a = b :=
  List.inj_on_of_nodup_map (f := opCode) (l := all) (by decide) (mem_all a) (mem_all b) h

end KeyValueOp

/-! ### What is told by parts of a request -/

section Scalars
variable {s : Scalar} {i j : ℤ}

theorem tells_store (hi : s.Range i) (hj : s.Range j) : Tells (i = j) (s.store i) (s.store j) := by
  apply Tells.of_length (by simp)
  intro heq
  rw [← Scalar.load_store hi, heq, Scalar.load_store hj]

theorem leInt_toBytes {k : ℕ} {x : Bytes} (h : toBytes k i = .ok x) : leInt x = i := by
  unfold toBytes signedBytes at h
  split_ifs at h with hi
  · obtain rfl := Except.ok.inj h
    exact leInt_leBytes hi
  · cases h

theorem tells_toBytes {k : ℕ} {x y : Bytes} (hx : toBytes k i = .ok x) (hy : toBytes k j = .ok y) :
    Tells (i = j) x y := by
  apply Tells.of_length ((toBytes_ok hx).trans (toBytes_ok hy).symm)
  intro heq
  rw [← leInt_toBytes hx, heq, leInt_toBytes hy]

end Scalars

/-! ### `CacheInfo` -/

section CacheInfo
variable {a b : CacheInfo} {current current' : Option TransactionContext} {x y : Bytes}

theorem writePolicy_tells {p q : ExpiryPolicy} (hx : p.writePolicy = .ok x)
    (hy : q.writePolicy = .ok y) : Tells (p = q) x y := by
  unfold ExpiryPolicy.writePolicy at hx hy
  obtain ⟨create, hcreate, hx⟩ := bind_ok_iff.mp hx
  obtain ⟨update, hupdate, hx⟩ := bind_ok_iff.mp hx
  obtain ⟨access, haccess, hx⟩ := bind_ok_iff.mp hx
  obtain ⟨create', hcreate', hy⟩ := bind_ok_iff.mp hy
  obtain ⟨update', hupdate', hy⟩ := bind_ok_iff.mp hy
  obtain ⟨access', haccess', hy⟩ := bind_ok_iff.mp hy
  obtain rfl := Except.ok.inj hx
  obtain rfl := Except.ok.inj hy
  apply (((tells_toBytes hcreate hcreate').append fun _ => tells_toBytes hupdate hupdate').append
    fun _ => tells_toBytes haccess haccess').imp
  rintro ⟨⟨hcreate, hupdate⟩, haccess⟩
  cases p
  cases q
  simp_all

/-- The bits of the flags are those of an expiry policy and of a transaction. -/
def CacheInfo.flags (info : CacheInfo) (current : Option TransactionContext) : ℕ :=
  (if info.expiryPolicy.isSome then EXPIRY_POLICY_MASK else 0) |||
    if (info.txId current).isSome then TRANSACTIONS_MASK else 0

theorem cacheInfo_parts (hx : a.fromPython current = .ok x) : ∃ id policy txId,
    toBytes 4 a.cacheId = .ok id ∧ a.policyBytes = .ok policy ∧
    a.txIdBytes current = .ok txId ∧
    x = id ++ ([UInt8.ofNat (a.flags current)] ++ (policy ++ txId)) := by
  unfold CacheInfo.fromPython at hx
  obtain ⟨id, hid, hx⟩ := bind_ok_iff.mp hx
  obtain ⟨flags, hflags, hx⟩ := bind_ok_iff.mp hx
  obtain ⟨policy, hpolicy, hx⟩ := bind_ok_iff.mp hx
  obtain ⟨txId, htxId, hx⟩ := bind_ok_iff.mp hx
  have hflag : flags = if a.expiryPolicy.isSome then EXPIRY_POLICY_MASK else 0 := by
    unfold CacheInfo.expiryFlag at hflags
    split at hflags
    · next h =>
      rw [h]
      split_ifs at hflags
      · exact (Except.ok.inj hflags).symm
      · cases hflags
    · next h =>
      rw [h]
      exact (Except.ok.inj hflags).symm
  refine ⟨id, policy, txId, hid, hpolicy, htxId, ?_⟩
  rw [← Except.ok.inj hx, CacheInfo.flags, ← hflag]
  simp only [List.append_assoc]

theorem tells_flags : Tells (a.expiryPolicy.isSome = b.expiryPolicy.isSome ∧
      (a.txId current).isSome = (b.txId current').isSome)
    [UInt8.ofNat (a.flags current)] [UInt8.ofNat (b.flags current')] := by
  apply Tells.of_length (List.length_singleton.trans List.length_singleton.symm)
  intro heq
  have hflags := List.singleton_inj.mp heq
  unfold CacheInfo.flags at hflags
  cases ha : a.expiryPolicy.isSome <;> cases hb : b.expiryPolicy.isSome <;>
    cases ha' : (a.txId current).isSome <;> cases hb' : (b.txId current').isSome <;>
    simp_all [EXPIRY_POLICY_MASK, TRANSACTIONS_MASK]

/-- Where both are there or neither is. -/
theorem tells_option {α : Type} {p q : Option α} {f : α → Except PyError Bytes}
    (hsome : p.isSome = q.isSome) (hx : p.elim (.ok []) f = .ok x) (hy : q.elim (.ok []) f = .ok y)
    (h : ∀ i j, f i = .ok x → f j = .ok y → Tells (i = j) x y) : Tells (p = q) x y := by
  rcases p with _ | i <;> rcases q with _ | j
  · obtain rfl := Except.ok.inj hx
    obtain rfl := Except.ok.inj hy
    exact tells_nil rfl
  · cases hsome
  · cases hsome
  · exact (h i j hx hy).imp (congrArg some)

theorem policyBytes_eq (info : CacheInfo) :
    info.policyBytes = info.expiryPolicy.elim (.ok []) ExpiryPolicy.writePolicy := by
  unfold CacheInfo.policyBytes
  cases info.expiryPolicy <;> rfl

theorem txIdBytes_eq (info : CacheInfo) :
    info.txIdBytes current = (info.txId current).elim (.ok []) (toBytes 4) := by
  unfold CacheInfo.txIdBytes
  cases info.txId current <;> rfl

/-- A request says of which cache it is, and its expiry policy and transaction if it has one. -/
theorem cacheInfo_tells (hx : a.fromPython current = .ok x) (hy : b.fromPython current' = .ok y) :
    Tells (a.cacheId = b.cacheId ∧ a.expiryPolicy = b.expiryPolicy ∧
      a.txId current = b.txId current') x y := by
  obtain ⟨id, policy, txId, hid, hpolicy, htxId, rfl⟩ := cacheInfo_parts hx
  obtain ⟨id', policy', txId', hid', hpolicy', htxId', rfl⟩ := cacheInfo_parts hy
  rw [policyBytes_eq] at hpolicy hpolicy'
  rw [txIdBytes_eq] at htxId htxId'
  have hrest (hsome : a.expiryPolicy.isSome = b.expiryPolicy.isSome ∧
      (a.txId current).isSome = (b.txId current').isSome) :
      Tells (a.expiryPolicy = b.expiryPolicy ∧ a.txId current = b.txId current')
        (policy ++ txId) (policy' ++ txId') := by
    apply Tells.append
    · exact tells_option hsome.1 hpolicy hpolicy' fun _ _ => writePolicy_tells
    · exact fun _ => tells_option hsome.2 htxId htxId' fun _ _ => tells_toBytes
  apply ((tells_toBytes hid hid').append fun _ => tells_flags.append hrest).imp
  rintro ⟨hcache, -, hpolicy, htx⟩
  exact ⟨hcache, hpolicy, htx⟩

end CacheInfo

/-! ### Counted bytes -/

/-- Counted elements. -/
theorem tells_counted {n m : ℕ} {x y : Bytes} {P : Prop} (hn : n < 2 ^ 32) (hm : m < 2 ^ 32)
    (h : n = m → Tells P x y) : Tells P (Scalar.int.store n ++ x) (Scalar.int.store m ++ y) := by
  have hcount : Tells (n = m) (Scalar.int.store n) (Scalar.int.store m) := by
    apply Tells.of_length (by simp)
    intro heq
    rw [store_of_lt hn, store_of_lt hm] at heq
    have hcode {n : ℕ} (h : n < 2 ^ 32) : leNat (leBytes 4 n) = n := leNat_leBytes_of_lt h
    rw [← hcode hn, heq, hcode hm]
  exact (hcount.append h).imp And.right

theorem bytearray_modes (modes : Bytes) :
    bytearray (modes.map fun m => .int m.toNat) = .ok modes := by
  have hints : (modes.map fun m => PyValue.int m.toNat).mapM PyValue.toInt? =
      some (modes.map fun m => (m.toNat : ℤ)) := by
    rw [List.mapM_map]
    exact List.mapM_pure
  have hrange : (modes.map fun m => (m.toNat : ℤ)).all (fun i => 0 ≤ i ∧ i ≤ 255) = true := by
    rw [List.all_eq_true]
    intro i hi
    obtain ⟨m, -, rfl⟩ := List.mem_map.mp hi
    have hm := m.toNat_lt
    exact decide_eq_true ⟨by omega, by omega⟩
  rw [bytearray, hints]
  simp only [hrange, if_true, List.map_map]
  simp [Function.comp_def]

theorem writeBytePayload_ok {cl : Client} (modes : Bytes) (hlength : modes.length < 2 ^ 32)
    {s : BinaryStream} (hs : Ready cl s) :
    writeBytePayload (.list (modes.map fun m => .int m.toNat)) s =
      .ok (.list (modes.map fun m => .int m.toNat),
        s.put (Scalar.int.store modes.length ++ modes)) := by
  simp only [writeBytePayload, PyValue.iterate, List.length_map, lengthBytes_eq hlength,
    ofOption_some, pure_bind]
  rw [bind_ok (write_ok hs.emptyView _), bytearray_modes]
  rw [bind_ok (a := modes) rfl, bind_ok (write_ok (hs.put _).emptyView _), pure_apply,
    BinaryStream.put_put]

/-- What is written in two pieces is written in one. -/
theorem write_write (d d' : Bytes) {α : Type} (m : StreamM α) :
    (do write d; write d'; m) = (do write (d ++ d'); m) := by
  funext s
  rcases hs : s.emptyView with _ | _
  · rw [bind_ok (write_ok hs d), bind_ok (write_ok (s := s.put d) hs d'), BinaryStream.put_put,
      bind_ok (write_ok hs (d ++ d'))]
  · have hfails : ∀ d, write d s = .error _ := fun d => if_pos hs
    rw [bind_error (hfails d), bind_error (hfails (d ++ d'))]

theorem leaf_byteArray : Leaf byteArray := by
  intro v
  show (∃ d v', writeBytePayload v = _) ∨ ∀ s, ∃ e, writeBytePayload v s = .error e
  unfold writeBytePayload
  rcases v.iterate with _ | xs
  · exact .inr fun s => ⟨_, rfl⟩
  rw [ofOption_some, pure_bind]
  rcases lengthBytes xs.length with _ | length
  · exact .inr fun s => ⟨_, rfl⟩
  rw [ofOption_some, pure_bind]
  rcases bytearray xs with e | b
  · refine .inr fun s => ?_
    rcases hwrite : write length s with e' | ⟨u, t⟩
    · exact ⟨e', bind_error hwrite⟩
    · exact ⟨e, bind_ok hwrite⟩
  · exact .inl ⟨length ++ b, v, write_write length b (pure v)⟩

/-! ### The objects of a request -/

section Objects
variable [Python] [OtherCodecs] {cl : Client}

/-- An object that is written as bytes that are read as the object `read`. -/
structure SentObject (cl : Client) (write : PyValue → StreamM PyValue) where
  value : PyValue
  bytes : Bytes
  read : PyValue
  writes : ∀ s, Ready cl s → ∃ v, write value s = .ok (v, s.put bytes)
  reads : Reads (SameClient cl) anyDataObject bytes read

/-- `key_hint or AnyDataObject`. -/
def hintedClass (hint : Option DataType) : WireClass := hint.elim anyDataObject wireClass

/-- The elements of an `AnyDataArray` and of a `Map`. -/
abbrev SentElement (cl : Client) := SentObject cl (inferFromPython PyGridGain.fromPython)

/-- An object with a hint that is encoded and parsed again. -/
def sentHinted {t : DataType} {v : PyValue} (hv : Encodable cl cl.compactFooter t v)
    (hfound : SchemasFound t v) (hheaders : HeadersOwn t v) :
    SentObject cl (hintedClass (some t)).fromPython where
  value := v
  bytes := encode cl.compactFooter t v
  read := decoded Scalar.byte.wrap t v
  writes _ hs := ⟨_, fromPython_ok hv hheaders hs⟩
  reads := hv.readsAny hfound

/-- The encoding of one object tells what it is read as, and where it ends. -/
theorem reads_tells {x y : Bytes} {v w : PyValue} (hx : Reads (SameClient cl) anyDataObject x v)
    (hy : Reads (SameClient cl) anyDataObject y w) : Tells (v = w) x y := by
  intro r t heq
  have hclient : SameClient cl cl := ⟨rfl, rfl⟩
  have hfirst : Before (SameClient cl) ⟨cl, x ++ r, 0, false⟩ x :=
    ⟨rfl, hclient, List.prefix_append x r⟩
  have hsecond : Before (SameClient cl) ⟨cl, x ++ r, 0, false⟩ y :=
    ⟨rfl, hclient, heq ▸ List.prefix_append y t⟩
  obtain ⟨c, s, hparse, -, hsize, -⟩ := hx _ hfirst
  have hsize' := (hy.gives hsecond hparse).1
  obtain ⟨rfl, rfl⟩ := List.append_inj heq (hsize.symm.trans hsize')
  have hv := (hx.gives hfirst hparse).2.2 cl hclient
  have hw := (hy.gives hsecond hparse).2.2 cl hclient
  exact ⟨Except.ok.inj (hv.symm.trans hw), rfl⟩

/-- An object as it stands on the wire, and what it is read as. -/
structure WireObject (cl : Client) where
  bytes : Bytes
  read : PyValue
  reads : Reads (SameClient cl) anyDataObject bytes read

namespace WireObject
variable {a b : WireObject cl}

variable (a b) in
theorem tells_read : Tells (a.read = b.read) a.bytes b.bytes := reads_tells a.reads b.reads

theorem eq_of_bytes (h : a.bytes = b.bytes) : a = b := by
  obtain ⟨x, v, hx⟩ := a
  obtain ⟨y, w, hy⟩ := b
  obtain rfl : x = y := h
  obtain rfl : v = w := (reads_tells hx hy).of_eq
  rfl

variable (a b) in
theorem tells : Tells (a = b) a.bytes b.bytes := (tells_read a b).bytes.imp fun h => eq_of_bytes h.2

end WireObject

def SentObject.wire {write : PyValue → StreamM PyValue} (o : SentObject cl write) :
    WireObject cl := ⟨o.bytes, o.read, o.reads⟩

/-- An argument as it stands on the wire. -/
inductive WireArg (cl : Client)
  | object (o : WireObject cl)
  | objects (os : List (WireObject cl))
  | map (ps : List (WireObject cl × WireObject cl))
  | peekModes (modes : Bytes)

/-- The objects that it is read as, one after another. -/
def WireArg.read : WireArg cl → List PyValue
  | object o => [o.read]
  | objects os => os.map (·.read)
  | map ps => (alternate ps).map (·.read)
  | peekModes modes => modes.map fun m => .int m.toNat

/-- Objects that are written one after another. -/
theorem inferAll_sent (os : List (SentElement cl)) {s : BinaryStream} (hs : Ready cl s) :
    ∃ xs, inferAll PyGridGain.fromPython (os.map (·.value)) s =
      .ok (xs, s.put (os.flatMap (·.bytes))) := by
  induction os generalizing s with
  | nil => exact ⟨[], by simp [inferAll]⟩
  | cons o os ih =>
    obtain ⟨x, hx⟩ := o.writes s hs
    obtain ⟨xs, hxs⟩ := ih (hs.put o.bytes)
    refine ⟨x :: xs, ?_⟩
    rw [List.map_cons, inferAll, bind_ok hx, bind_ok hxs, pure_apply, BinaryStream.put_put,
      List.flatMap_cons]

theorem inferPairs_sent (ps : List (SentElement cl × SentElement cl)) {s : BinaryStream}
    (hs : Ready cl s) :
    ∃ kvs, inferPairs PyGridGain.fromPython (ps.map fun p => (p.1.value, p.2.value)) s =
      .ok (kvs, s.put ((alternate ps).flatMap (·.bytes))) := by
  induction ps generalizing s with
  | nil => exact ⟨[], by simp [inferPairs, alternate]⟩
  | cons p ps ih =>
    obtain ⟨k, hk⟩ := p.1.writes s hs
    obtain ⟨v, hv⟩ := p.2.writes _ (hs.put p.1.bytes)
    obtain ⟨kvs, hkvs⟩ := ih ((hs.put p.1.bytes).put p.2.bytes)
    refine ⟨(k, v) :: kvs, ?_⟩
    rw [List.map_cons, inferPairs, bind_ok hk, bind_ok hv, bind_ok hkvs, pure_apply,
      BinaryStream.put_put, BinaryStream.put_put, alternate_cons, List.flatMap_cons,
      List.flatMap_cons]

/-- The argument of an operation. -/
inductive SentArg (cl : Client)
  | object (hint : Option DataType) (o : SentObject cl (hintedClass hint).fromPython)
  | objects (os : List (SentElement cl)) (hlength : os.length < 2 ^ 32)
  | map (ps : List (SentElement cl × SentElement cl)) (hlength : ps.length < 2 ^ 32)
  | peekModes (modes : Bytes) (hlength : modes.length < 2 ^ 32)

namespace SentArg

def kind : SentArg cl → KeyParam
  | object .. => .object
  | objects .. => .objects
  | map .. => .map
  | peekModes .. => .peekModes

def wireClass : SentArg cl → WireClass
  | object hint _ => hintedClass hint
  | objects .. => anyDataArray
  | map .. => mapClass
  | peekModes .. => byteArray

def value : SentArg cl → PyValue
  | object _ o => o.value
  | objects os _ => .list (os.map (·.value))
  | map ps _ => .dict (ps.map fun p => (p.1.value, p.2.value))
  | peekModes modes _ => .list (modes.map fun m => .int m.toNat)

def bytes : SentArg cl → Bytes
  | object _ o => o.bytes
  | objects os _ => Scalar.int.store os.length ++ os.flatMap (·.bytes)
  | map ps _ => Scalar.int.store ps.length ++ (alternate ps).flatMap (·.bytes)
  | peekModes modes _ => Scalar.int.store modes.length ++ modes

def wire : SentArg cl → WireArg cl
  | object _ o => .object o.wire
  | objects os _ => .objects (os.map (·.wire))
  | map ps _ => .map (ps.map fun p => (p.1.wire, p.2.wire))
  | peekModes modes _ => .peekModes modes

/-- The objects that it is read as, one after another. -/
def read : SentArg cl → List PyValue
  | object _ o => [o.read]
  | objects os _ => os.map (·.read)
  | map ps _ => (alternate ps).map (·.read)
  | peekModes modes _ => modes.map fun m => .int m.toNat

theorem writes (a : SentArg cl) : WritesOn (Ready cl) a.wireClass a.value a.bytes := by
  intro s hs
  cases a with
  | object hint o => exact o.writes s hs
  | objects os hlength =>
    obtain ⟨xs, hxs⟩ := inferAll_sent os (hs.put (Scalar.int.store os.length))
    refine ⟨PyValue.refill (.list (os.map (·.value))) xs, ?_⟩
    simp only [wireClass, anyDataArray, value, PyValue.contents, PyValue.iterate, List.length_map,
      lengthBytes_eq hlength, ofOption_some, pure_bind]
    rw [bind_ok (write_ok hs.emptyView _), bind_ok hxs, pure_apply, BinaryStream.put_put]
    rfl
  | map ps hlength =>
    obtain ⟨kvs, hkvs⟩ := inferPairs_sent ps (hs.put (Scalar.int.store ps.length))
    refine ⟨.dict kvs, ?_⟩
    simp only [wireClass, mapClass, value, List.length_map, lengthBytes_eq hlength, ofOption_some,
      pure_bind]
    rw [bind_ok (write_ok hs.emptyView _), bind_ok hkvs, pure_apply, BinaryStream.put_put]
    rfl
  | peekModes modes hlength => exact ⟨_, writeBytePayload_ok modes hlength hs⟩

theorem requestClass (a : SentArg cl) : RequestClass a.wireClass := by
  cases a with
  | object hint o =>
    cases hint with
    | none => exact .any
    | some t => exact .object t
  | objects os hlength => exact .objects
  | map ps hlength => exact .map
  | peekModes modes hlength => exact .leaf leaf_byteArray

omit [Python] [OtherCodecs] in
theorem alternate_injective {α : Type} {ps qs : List (α × α)} (h : alternate ps = alternate qs) :
    ps = qs := by
  rw [← List.forall₂_eq_eq_eq, forall₂_alternate] at h
  rw [← List.forall₂_eq_eq_eq]
  exact h.imp fun _ _ hpq => Prod.ext hpq.1 hpq.2

theorem tells_elements {os os' : List (SentElement cl)} (hlength : os.length = os'.length) :
    Tells (os.map (·.wire) = os'.map (·.wire)) (os.flatMap (·.bytes)) (os'.flatMap (·.bytes)) := by
  apply (Tells.flatMap (forall₂_of_length hlength fun o _ o' _ => o.wire.tells o'.wire)).imp
  intro h
  rw [← List.forall₂_eq_eq_eq, List.forall₂_map_left_iff, List.forall₂_map_right_iff]
  exact h

/-- The bytes of an argument tell what stands on the wire. -/
theorem tells {a b : SentArg cl} (h : a.kind = b.kind) :
    Tells (a.wire = b.wire) a.bytes b.bytes := by
  cases a <;> cases b <;> try cases h
  case object.object hint o hint' o' =>
    exact (o.wire.tells o'.wire).imp fun h => by rw [wire, wire, h]
  case objects.objects os hn os' hm =>
    apply tells_counted hn hm
    exact fun hlength => (tells_elements hlength).imp fun h => by rw [wire, wire, h]
  case map.map ps hn ps' hm =>
    apply tells_counted hn hm
    intro hlength
    apply (tells_elements (by rw [alternate_length, alternate_length, hlength])).imp
    intro h
    rw [map_alternate, map_alternate] at h
    rw [wire, wire, alternate_injective h]
  case peekModes.peekModes modes hn modes' hm =>
    apply tells_counted hn hm
    intro hlength
    apply Tells.of_length hlength
    exact fun h => by rw [wire, wire, h]

theorem read_eq (a : SentArg cl) : a.read = a.wire.read := by
  cases a with
  | object hint o => rfl
  | objects os hlength => simp [read, wire, WireArg.read, SentObject.wire, Function.comp_def]
  | map ps hlength =>
    simp [read, wire, WireArg.read, SentObject.wire, map_alternate, Function.comp_def]
  | peekModes modes hlength => rfl

end SentArg

/-! ### Requests -/

/-- The header is written before what the loop over the fields has put behind its place. -/
theorem Query.fromPython_put (q : Query) {values values' : PyValue} {d : Bytes}
    (htruthy : values.truthy = true)
    (hloop : writeStructFields (q.following.map fun f => (f.1, .plain f.2)) values
        (BinaryStream.skip ⟨cl, [], 0, false⟩ q.headerSize) =
      .ok (values', (BinaryStream.skip ⟨cl, [], 0, false⟩ q.headerSize).put d)) :
    (q.fromPython values ⟨cl, [], 0, false⟩).map (fun r => r.2.buf) =
      .ok ((q.header d.length).store ++ d) := by
  obtain ⟨header, hbuild, hheader⟩ := q.buildHeader_eq ⟨cl, [], 0, false⟩
  set t := (BinaryStream.skip ⟨cl, [], 0, false⟩ q.headerSize).put d with ht
  have hpos : t.pos = q.headerSize + d.length := by simp [ht]
  have hwrite : ({ header with length := (t.pos : ℤ) - (0 : ℕ) - 4 } : QueryHeader) =
      q.header d.length := by
    rw [hpos, hheader]
  have hstop : (do
      let stop ← tell
      seek (0 : ℕ)
      write { header with length := (stop : ℤ) - (0 : ℕ) - 4 }.store : StreamM Unit) t =
      .ok ((), { t with pos := 0 }.put (q.header d.length).store) := by
    rw [bind_ok (tell_ok t), bind_ok (seek_ok t 0), hwrite]
    exact write_ok (s := { t with pos := 0 }) rfl _
  have hrun : q.fromPython values ⟨cl, [], 0, false⟩ =
      .ok (values', { t with pos := 0 }.put (q.header d.length).store) := by
    unfold Query.fromPython Query.writeHeader
    rw [bind_ok (tell_ok _), bind_ok hbuild]
    simp only [htruthy, if_true]
    rw [bind_ok hloop]
    exact bind_ok hstop
  have hback := congrArg BinaryStream.buf (BinaryStream.put_back ⟨cl, [], 0, false⟩
    (a := (q.header d.length).store) (b := d) (q.store_ne_nil _))
  rw [q.header_length] at hback
  rw [hrun]
  refine congrArg Except.ok (Eq.trans ?_ (hback.trans ?_))
  · rfl
  · simp [BinaryStream.put, writeAt, q.store_ne_nil]

/-- The class of a `cache_info`, which no value of the modelled types stands for: it is `info`. -/
def CacheInfo.wireClass (info : CacheInfo) (current : Option TransactionContext) : WireClass where
  fromPython v :=
    match info.fromPython current with
    | .ok b => do write b; pure v
    | .error e => fun _ => .error e
  parse := raise .attributeError
  toPython _ _ := PyGridGain.raise .attributeError

omit [Python] [OtherCodecs] in
theorem leaf_cacheInfo (info : CacheInfo) (current : Option TransactionContext) :
    Leaf (info.wireClass current) := by
  intro v
  unfold CacheInfo.wireClass
  rcases info.fromPython current with e | b
  · exact .inr fun s => ⟨e, rfl⟩
  · exact .inl ⟨b, v, rfl⟩

/-- A call of a function of the key-value API, with its arguments in the order of the fields, in the
context of a transaction or none. -/
structure KeyValueRequest (cl : Client) where
  op : KeyValueOp
  queryId : ℤ
  info : CacheInfo
  current : Option TransactionContext
  args : List (SentArg cl)
  queryId_range : Scalar.longlong.Range queryId
  kinds : args.map SentArg.kind = op.params.map (·.2)

namespace KeyValueRequest
variable (q : KeyValueRequest cl)

theorem length_args : q.op.params.length = q.args.length := by
  rw [← List.length_map (f := (·.2)), ← q.kinds, List.length_map]

/-- The fields of the query and the `query_params`. -/
def fields : List (PyStr × WireClass × PyValue) :=
  ("cache_info".toList, q.info.wireClass q.current, .none) ::
    (q.op.params.zip q.args).map fun e => (e.1.1, e.2.wireClass, e.2.value)

theorem fields_names : q.fields.map (·.1) = "cache_info".toList :: q.op.params.map (·.1) := by
  have hparams := congrArg (List.map (·.1)) (List.map_fst_zip q.length_args.le)
  rw [List.map_map] at hparams
  rw [fields, List.map_cons, List.map_map, ← hparams]
  rfl

theorem fields_classes : ∀ f ∈ q.fields, RequestClass f.2.1 := by
  rw [fields, List.forall_mem_cons, List.forall_mem_map]
  exact ⟨.leaf (leaf_cacheInfo _ _), fun e _ => e.2.requestClass⟩

def query : Query where
  opCode := q.op.opCode
  queryId := q.queryId
  config := false
  following := q.fields.map fun f => (f.1, f.2.1)
  opCode_range := q.op.opCode_range
  queryId_range := q.queryId_range
  names_nodup := by
    rw [List.map_map]
    exact q.fields_names ▸ q.op.params_nodup
  classes := List.forall_mem_map.mpr q.fields_classes

theorem query_following : q.query.following.map (fun f => (f.1, FieldClass.plain f.2)) =
    q.fields.map fun f => (f.1, .plain f.2.1) := by
  rw [query, List.map_map]
  rfl

/-- What is sent. -/
def request : Except PyError Bytes :=
  (q.query.fromPython (strDict (q.fields.map fun f => (f.1, f.2.2))) ⟨cl, [], 0, false⟩).map
    fun r => r.2.buf

/-- The fields with what each writes. -/
def parts (info : Bytes) : List (PyStr × WireClass × PyValue × Bytes) :=
  ("cache_info".toList, q.info.wireClass q.current, .none, info) ::
    (q.op.params.zip q.args).map fun e => (e.1.1, e.2.wireClass, e.2.value, e.2.bytes)

theorem parts_fields (info : Bytes) :
    (q.parts info).map (fun f => (f.1, f.2.1, f.2.2.1)) = q.fields := by
  rw [parts, fields, List.map_cons, List.map_map]
  rfl

theorem parts_bytes (info : Bytes) :
    (q.parts info).flatMap (·.2.2.2) = info ++ q.args.flatMap SentArg.bytes := by
  have hargs := congrArg (List.flatMap SentArg.bytes) (List.map_snd_zip q.length_args.ge)
  rw [List.flatMap_map] at hargs
  rw [parts, List.flatMap_cons, List.flatMap_map, ← hargs]

variable {q} {info : Bytes}

theorem parts_writes (hinfo : q.info.fromPython q.current = .ok info) :
    ∀ f ∈ q.parts info, WritesOn (Ready cl) f.2.1 f.2.2.1 f.2.2.2 := by
  rw [parts, List.forall_mem_cons, List.forall_mem_map]
  refine ⟨fun s hs => ⟨.none, ?_⟩, fun e _ => e.2.writes⟩
  simp only [CacheInfo.wireClass, hinfo]
  exact bind_ok (write_ok hs.emptyView info)

/-- A request is its header, what is said of the cache and the arguments. -/
theorem request_eq (hinfo : q.info.fromPython q.current = .ok info) :
    q.request = .ok ((q.query.header (info ++ q.args.flatMap SentArg.bytes).length).store ++
      (info ++ q.args.flatMap SentArg.bytes)) := by
  have hnames : (q.fields.map (·.1)).Nodup := q.fields_names ▸ q.op.params_nodup
  have hvalues : ((q.fields.map fun f => (f.1, f.2.2)).map (·.1)).Nodup := by
    rw [List.map_map]
    exact hnames
  have hitems : ∀ f ∈ q.parts info,
      (strDict (q.fields.map fun f => (f.1, f.2.2))).item f.1 = .ok f.2.2.1 := by
    intro f hf
    apply item_strDict hvalues
    rw [← q.parts_fields info, List.map_map]
    exact List.mem_map_of_mem hf
  have hnd : ((q.parts info).map (·.1)).Nodup := by
    rw [← q.parts_fields info, List.map_map] at hnames
    exact hnames
  obtain ⟨values, hloop⟩ := writeStructFields_writes (lasting_ready cl) (parts_writes hinfo) hitems
    hnd (s := BinaryStream.skip ⟨cl, [], 0, false⟩ q.query.headerSize) ⟨rfl, rfl⟩
  rw [q.parts_bytes] at hloop
  have hclasses : (q.parts info).map (fun f => (f.1, FieldClass.plain f.2.1)) =
      q.query.following.map fun f => (f.1, .plain f.2) := by
    rw [query_following, ← q.parts_fields info, List.map_map]
    rfl
  rw [hclasses] at hloop
  exact q.query.fromPython_put rfl hloop

theorem request_error {e : PyError} (hinfo : q.info.fromPython q.current = .error e) :
    ∃ e, q.request = .error e := by
  have hrefuses : ∀ s, ∃ e,
      (FieldClass.plain (q.info.wireClass q.current)).fromPython .none s = .error e := by
    intro s
    refine ⟨e, ?_⟩
    simp only [FieldClass.fromPython, CacheInfo.wireClass, hinfo]
  have hnames : (q.fields.map (·.1)).Nodup := q.fields_names ▸ q.op.params_nodup
  have hnd : ((q.fields.map fun f => (f.1, FieldClass.plain f.2.1)).map (·.1)).Nodup := by
    rw [List.map_map]
    exact hnames
  have hvalues : ((q.fields.map fun f => (f.1, f.2.2)).map (·.1)).Nodup := by
    rw [List.map_map]
    exact hnames
  obtain ⟨header, hbuild, -⟩ := q.query.buildHeader_eq ⟨cl, [], 0, false⟩
  have hmem : ("cache_info".toList, FieldClass.plain (q.info.wireClass q.current)) ∈
      q.fields.map fun f => (f.1, .plain f.2.1) := List.mem_cons_self
  have hitem : (strDict (q.fields.map fun f => (f.1, f.2.2))).item "cache_info".toList =
      .ok .none := item_strDict hvalues List.mem_cons_self
  obtain ⟨e', he'⟩ := writeStructFields_refused hnd hmem hitem hrefuses
    (BinaryStream.skip ⟨cl, [], 0, false⟩ q.query.headerSize)
  rw [← query_following] at he'
  refine ⟨e', ?_⟩
  have hrun : q.query.fromPython (strDict (q.fields.map fun f => (f.1, f.2.2)))
      ⟨cl, [], 0, false⟩ = .error e' := by
    unfold Query.fromPython
    rw [bind_ok (tell_ok _), bind_ok hbuild]
    exact bind_error he'
  rw [request, hrun]
  rfl

end KeyValueRequest

/-- Two requests ask for the same. -/
structure SameRequest (a b : KeyValueRequest cl) : Prop where
  op : a.op = b.op
  queryId : a.queryId = b.queryId
  cacheId : a.info.cacheId = b.info.cacheId
  expiryPolicy : a.info.expiryPolicy = b.info.expiryPolicy
  txId : a.info.txId a.current = b.info.txId b.current
  args : a.args.map SentArg.read = b.args.map SentArg.read

/-- The bytes of a request tell what it asks for, and what stands on the wire for its arguments. -/
theorem KeyValueRequest.told_apart {a b : KeyValueRequest cl} {x : Bytes} (ha : a.request = .ok x)
    (hb : b.request = .ok x) :
    SameRequest a b ∧ a.args.map SentArg.wire = b.args.map SentArg.wire := by
  rcases hinfo : a.info.fromPython a.current with e | i
  · obtain ⟨e, he⟩ := KeyValueRequest.request_error hinfo
    cases he.symm.trans ha
  rcases hinfo' : b.info.fromPython b.current with e | j
  · obtain ⟨e, he⟩ := KeyValueRequest.request_error hinfo'
    cases he.symm.trans hb
  have heq := Except.ok.inj
    ((KeyValueRequest.request_eq hinfo).symm.trans (ha.trans (hb.symm.trans
      (KeyValueRequest.request_eq hinfo'))))
  rw [Query.header_parts, Query.header_parts] at heq
  have hop : Tells (a.op = b.op) (Scalar.short.store a.op.opCode)
      (Scalar.short.store b.op.opCode) :=
    (tells_store a.op.opCode_range b.op.opCode_range).imp KeyValueOp.opCode_injective
  have hid := tells_store a.queryId_range b.queryId_range
  have hargs (h : a.op = b.op) :
      Tells (a.args.map SentArg.wire = b.args.map SentArg.wire)
        (a.args.flatMap SentArg.bytes) (b.args.flatMap SentArg.bytes) := by
    have hkinds : a.args.map SentArg.kind = b.args.map SentArg.kind := by
      rw [a.kinds, b.kinds, h]
    rw [← List.forall₂_eq_eq_eq, List.forall₂_map_left_iff, List.forall₂_map_right_iff] at hkinds ⊢
    exact Tells.flatMap (hkinds.imp fun _ _ => SentArg.tells)
  have hlength : Tells True
      (Scalar.int.store ((a.query.headerSize + (i ++ a.args.flatMap SentArg.bytes).length : ℕ) - 4))
      (Scalar.int.store
        ((b.query.headerSize + (j ++ b.args.flatMap SentArg.bytes).length : ℕ) - 4)) :=
    .of_length (by simp) fun _ => trivial
  have htold := hlength.append fun _ => hop.append fun hop => hid.append fun _ =>
    (cacheInfo_tells hinfo hinfo').append fun _ => hargs hop
  obtain ⟨-, hop, hid, ⟨hcache, hpolicy, htx⟩, hargs⟩ := (htold [] [] (congrArg (· ++ []) heq)).1
  refine ⟨⟨hop, hid, hcache, hpolicy, htx, ?_⟩, hargs⟩
  have hread := congrArg (List.map WireArg.read) hargs
  rw [List.map_map, List.map_map] at hread
  rw [funext SentArg.read_eq]
  exact hread

end Objects

/-- An `Int` as the value of itself. -/
def putOne (version : ProtocolVersion) (current : Option TransactionContext) :
    @KeyValueRequest asciiLower noOtherCodecs someClient :=
  let _ := asciiLower
  let _ := noOtherCodecs
  let one : SentArg someClient := .object (some .intObject) (sentHinted (t := .intObject)
    (v := .int 1) (.int rfl (by decide)) (by simp [SchemasFound, objects])
    (headersOwn_of_no_objects (by simp [objects])))
  ⟨.cachePut, 3, ⟨5, none, version⟩, current, [one, one], by decide, rfl⟩

end PyGridGain
