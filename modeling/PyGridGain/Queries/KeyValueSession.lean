import PyGridGain.Queries.KeyValue
import PyGridGain.Queries.ScanPages

/-! A session of the key-value API with servers that keep what is put. What a server may do is told
of the objects on the wire; what the client receives is told of them too, and comes out as the same
whatever requests the servers take the bytes for. -/

namespace PyGridGain

open StreamM

/-! ### Responses -/

/-- The field of a response. -/
inductive ResponseKind
  | object
  | flag
  | count
  | entries
  deriving DecidableEq

namespace KeyValueOp

/-- The `response_config`, which has one field if any, by whose name the value is post-processed. -/
def responseField : KeyValueOp → Option (PyStr × ResponseKind)
  | cacheGet | cacheGetAndPut | cacheGetAndReplace | cacheGetAndRemove | cacheGetAndPutIfAbsent
  | cacheLocalPeek => some ("value".toList, .object)
  | cacheGetAll => some ("data".toList, .entries)
  | cacheContainsKey | cacheContainsKeys => some ("value".toList, .flag)
  | cachePutIfAbsent | cacheReplace | cacheReplaceIfEquals | cacheRemoveKey
  | cacheRemoveIfEquals => some ("success".toList, .flag)
  | cacheGetSize => some ("count".toList, .count)
  | cachePut | cachePutAll | cacheClear | cacheClearKey | cacheClearKeys | cacheRemoveKeys
  | cacheRemoveAll => none

theorem responseField_free {op : KeyValueOp} {field : PyStr × ResponseKind}
    (h : op.responseField = some field) : field.1 ∉ envelopeNames := by
  cases op <;> cases h <;>
    simp [envelopeNames, frontNames, -String.reduceToList, String.toList_inj]

end KeyValueOp

section Responses
variable [Python] [OtherCodecs]

def ResponseKind.wireClass : ResponseKind → WireClass
  | object => anyDataObject
  | flag => boolClass
  | count => primitive .longlong
  | entries => mapClass

def KeyValueOp.responseConfig (op : KeyValueOp) : List (PyStr × WireClass) :=
  op.responseField.toList.map fun field => (field.1, field.2.wireClass)

/-- `__post_process_value_by_key`. -/
def postProcessValueByKey (key : PyStr) (result : APIResult) : Except PyError APIResult :=
  if result.status = 0 then do
    let value ← result.value.item key
    .ok { result with value }
  else .ok result

/-- What a function of the key-value API makes of the bytes of a response. -/
def KeyValueOp.receive (op : KeyValueOp) (version : ProtocolVersion) (data : Bytes)
    (client : Client) (s : Affinity) : Except PyError (APIResult × Client × Affinity) := do
  let (result, client, s) ← processResponse version (responseOf op.responseConfig) data client s
  let result ←
    match op.responseField with
    | some field => postProcessValueByKey field.1 result
    | none => .ok result
  .ok (result, client, s)

end Responses

/-! ### Caches -/

section Caches
variable [Python] [OtherCodecs] {cl : Client}

/-- Objects are the same that stand on the wire as the same bytes. -/
instance : DecidableEq (WireObject cl) := fun a b =>
  decidable_of_iff (a.bytes = b.bytes) ⟨WireObject.eq_of_bytes, fun h => h ▸ rfl⟩

/-- The object is read as the same where `to_python` is passed no client, as `perform` passes none:
a complex object is, where it comes wrapped. -/
def WireObject.Alone (o : WireObject cl) : Prop :=
  Reads (SameClient cl) anyDataObject.withoutClient o.bytes o.read

/-- The entries of a cache. -/
abbrev CacheEntries (cl : Client) := List (WireObject cl × WireObject cl)

/-- All objects of the entries are read without a client. -/
def CacheEntries.Alone (S : CacheEntries cl) : Prop := ∀ e ∈ S, e.1.Alone ∧ e.2.Alone

/-- What a response says. -/
inductive Answer (cl : Client)
  | object (o : Option (WireObject cl))
  | flag (b : Bool)
  | count (n : ℕ)
  | entries (es : CacheEntries cl) (length_lt : es.length < 2 ^ 31)

/-- What a server that keeps what is put may answer, and which entries it has then. It has its own
order of entries, and need not find locally what it has. -/
inductive Serves : KeyValueOp → List (WireArg cl) → CacheEntries cl → Option (Answer cl) →
    CacheEntries cl → Prop
  | put (k v S) : Serves .cachePut [.object k, .object v] S none (dictSet S k v)
  | get (k S) : Serves .cacheGet [.object k] S (some (.object (S.lookup k))) S
  | getAll (ks S es length_lt) (perm : es.Perm (S.filter fun e => e.1 ∈ ks)) :
      Serves .cacheGetAll [.objects ks] S (some (.entries es length_lt)) S
  | putAll (ps S) : Serves .cachePutAll [.map ps] S none (dictUpdate S ps)
  | containsKey (k S) :
      Serves .cacheContainsKey [.object k] S (some (.flag (S.lookup k).isSome)) S
  | containsKeys (ks S) : Serves .cacheContainsKeys [.objects ks] S
      (some (.flag (ks.all fun k => (S.lookup k).isSome))) S
  | getAndPut (k v S) : Serves .cacheGetAndPut [.object k, .object v] S
      (some (.object (S.lookup k))) (dictSet S k v)
  | getAndReplace (k v S) : Serves .cacheGetAndReplace [.object k, .object v] S
      (some (.object (S.lookup k))) (if (S.lookup k).isSome then dictSet S k v else S)
  | getAndRemove (k S) : Serves .cacheGetAndRemove [.object k] S
      (some (.object (S.lookup k))) (S.filter fun e => e.1 ≠ k)
  | putIfAbsent (k v S) : Serves .cachePutIfAbsent [.object k, .object v] S
      (some (.flag (S.lookup k).isNone)) (if (S.lookup k).isNone then dictSet S k v else S)
  | getAndPutIfAbsent (k v S) : Serves .cacheGetAndPutIfAbsent [.object k, .object v] S
      (some (.object (S.lookup k))) (if (S.lookup k).isNone then dictSet S k v else S)
  | replace (k v S) : Serves .cacheReplace [.object k, .object v] S
      (some (.flag (S.lookup k).isSome)) (if (S.lookup k).isSome then dictSet S k v else S)
  | replaceIfEquals (k sample v S) :
      Serves .cacheReplaceIfEquals [.object k, .object sample, .object v] S
        (some (.flag (S.lookup k = some sample)))
        (if S.lookup k = some sample then dictSet S k v else S)
  | clear (S) : Serves .cacheClear [] S none []
  | clearKey (k S) : Serves .cacheClearKey [.object k] S none (S.filter fun e => e.1 ≠ k)
  | clearKeys (ks S) : Serves .cacheClearKeys [.objects ks] S none (S.filter fun e => e.1 ∉ ks)
  | removeKey (k S) : Serves .cacheRemoveKey [.object k] S
      (some (.flag (S.lookup k).isSome)) (S.filter fun e => e.1 ≠ k)
  | removeIfEquals (k sample S) : Serves .cacheRemoveIfEquals [.object k, .object sample] S
      (some (.flag (S.lookup k = some sample)))
      (if S.lookup k = some sample then S.filter fun e => e.1 ≠ k else S)
  | removeKeys (ks S) : Serves .cacheRemoveKeys [.objects ks] S none (S.filter fun e => e.1 ∉ ks)
  | removeAll (S) : Serves .cacheRemoveAll [] S none []
  | getSize (S) : Serves .cacheGetSize [.peekModes []] S (some (.count S.length)) S
  | localPeek (k S o) (found : o = none ∨ o = S.lookup k) :
      Serves .cacheLocalPeek [.object k, .peekModes []] S (some (.object o)) S

namespace Answer

def kind : Answer cl → ResponseKind
  | object _ => .object
  | flag _ => .flag
  | count _ => .count
  | entries .. => .entries

def bytes : Answer cl → Bytes
  | object o => o.elim [TC_NULL] WireObject.bytes
  | flag b => Scalar.byte.store (if b then 1 else 0)
  | count n => Scalar.longlong.store n
  | entries es _ => Scalar.int.store es.length ++ (alternate es).flatMap (·.bytes)

/-- What the client makes of it: of equal keys one is left. -/
def value : Answer cl → PyValue
  | object o => o.elim .none WireObject.read
  | flag b => .bool b
  | count n => .int (Scalar.longlong.wrap n)
  | entries es _ => .dict (partialCollapse PyValue.dictKey (es.map fun e => (e.1.read, e.2.read)))

/-- The keys of entries can be those of a `dict`. -/
def Hashable : Answer cl → Prop
  | entries es _ => ∀ e ∈ es, e.1.read.hashKey ≠ none
  | _ => True

/-- All objects of the answer are read without a client. -/
def Alone : Answer cl → Prop
  | object o => ∀ x ∈ o, WireObject.Alone x
  | entries es _ => CacheEntries.Alone es
  | _ => True

/-- Entries as pairs on the wire. -/
def wirePairs (es : CacheEntries cl) (length_lt : es.length < 2 ^ 31) (halone : es.Alone) :
    WirePairs (SameClient cl) fun _ => none where
  pairs := es.map fun e => ((e.1.bytes, e.1.read), (e.2.bytes, e.2.read))
  reads := by
    intro e he
    obtain ⟨p, hp, hside⟩ := mem_alternate.mp he
    obtain ⟨q, hq, rfl⟩ := List.mem_map.mp hp
    rcases hside with rfl | rfl
    · exact (halone q hq).1
    · exact (halone q hq).2
  length_lt := by rwa [List.length_map]

theorem reads_entries {es : CacheEntries cl} (length_lt : es.length < 2 ^ 31) (halone : es.Alone)
    (h : ∀ e ∈ es, e.1.read.hashKey ≠ none) : Reads (SameClient cl) mapClass.withoutClient
      (Answer.entries es length_lt).bytes (Answer.entries es length_lt).value := by
  have hyields := (wirePairs es length_lt halone).yields_map
  have hkvs : (wirePairs es length_lt halone).kvs = es.map fun e => (e.1.read, e.2.read) := by
    rw [WirePairs.kvs, wirePairs, List.map_map]
    rfl
  have hdict : dictOf (wirePairs es length_lt halone).kvs =
      .ok (partialCollapse PyValue.dictKey (es.map fun e => (e.1.read, e.2.read))) := by
    rw [hkvs]
    refine if_pos fun p hp => ?_
    obtain ⟨e, he, rfl⟩ := List.mem_map.mp hp
    exact h e he
  have hpayload : (wirePairs es length_lt halone).payload = (Answer.entries es length_lt).bytes := by
    rw [WirePairs.payload, WirePairs.content, wirePairs, List.length_map, map_alternate,
      List.map_map, bytes, List.flatMap_def, map_alternate]
    rfl
  rw [hdict, hpayload] at hyields
  exact hyields

/-- Every answer is read as its value. -/
theorem reads (a : Answer cl) (h : a.Hashable) (halone : a.Alone) :
    Reads (SameClient cl) a.kind.wireClass.withoutClient a.bytes a.value := by
  cases a with
  | object o =>
    cases o with
    | none => exact ((recovers_none .null).2.anyReadsAs (by simp)).readsPassing _
    | some o => exact halone o rfl
  | flag b => exact (reads_bool b).withoutClient fun _ => rfl
  | count n =>
    have hstore : Scalar.longlong.store n =
        Scalar.longlong.store (Scalar.longlong.wrap n) :=
      (Scalar.store_load (Scalar.store_length _ _)).symm
    rw [bytes, hstore]
    exact (reads_primitive (Scalar.wrap_range _ _)).withoutClient fun _ => rfl
  | entries es length_lt => exact reads_entries length_lt halone h

end Answer

/-- An operation has an answer of the kind that its response is read by. -/
theorem Serves.kind {op : KeyValueOp} {args : List (WireArg cl)} {S T : CacheEntries cl}
    {a : Option (Answer cl)} (h : Serves op args S a T) :
    a.map Answer.kind = op.responseField.map (·.2) := by
  cases h <;> rfl

/-- The keys of `get_all` can be those of a `dict`. -/
def WireArg.Hashable : WireArg cl → Prop
  | objects ks => ∀ k ∈ ks, k.read.hashKey ≠ none
  | _ => True

theorem Serves.hashable {op : KeyValueOp} {args : List (WireArg cl)} {S T : CacheEntries cl}
    {a : Answer cl} (h : Serves op args S (some a) T)
    (hargs : op = .cacheGetAll → ∀ arg ∈ args, arg.Hashable) : a.Hashable := by
  cases h
  case getAll ks es length_lt perm =>
    intro e he
    have hkey := List.of_mem_filter (perm.subset he)
    exact hargs rfl _ (List.mem_singleton_self _) e.1 (of_decide_eq_true hkey)
  all_goals trivial

/-- All objects of the argument are read without a client. -/
def WireArg.Alone : WireArg cl → Prop
  | object o => o.Alone
  | objects os => ∀ o ∈ os, o.Alone
  | map ps => CacheEntries.Alone ps
  | peekModes _ => True

namespace CacheEntries
variable {S : CacheEntries cl} {k v : WireObject cl}

theorem Alone.filter (h : S.Alone) (q : WireObject cl × WireObject cl → Bool) :
    CacheEntries.Alone (S.filter q) := fun e he => h e (List.mem_of_mem_filter he)

theorem Alone.dictSet (h : S.Alone) (hk : k.Alone) (hv : v.Alone) :
    CacheEntries.Alone (PyGridGain.dictSet S k v) := forall_mem_dictSet h ⟨hk, hv⟩

theorem Alone.lookup (h : S.Alone) : Answer.Alone (.object (S.lookup k)) :=
  fun _ hx => (h _ (mem_of_lookup hx)).2

theorem Alone.ite {T : CacheEntries cl} {c : Prop} [Decidable c] (hS : S.Alone) (hT : T.Alone) :
    CacheEntries.Alone (if c then S else T) := by
  split_ifs
  · exact hS
  · exact hT

end CacheEntries

/-- What a server answers it has of its entries, and these it has of the arguments. -/
theorem Serves.alone {op : KeyValueOp} {args : List (WireArg cl)} {S T : CacheEntries cl}
    {a : Option (Answer cl)} (h : Serves op args S a T) (hargs : ∀ arg ∈ args, arg.Alone)
    (hS : S.Alone) : (∀ x ∈ a, x.Alone) ∧ T.Alone := by
  have hsome : ∀ x : Answer cl, (∀ y ∈ some x, y.Alone) ↔ x.Alone := by simp
  cases h <;> simp only [List.forall_mem_cons, List.not_mem_nil, false_imp_iff, implies_true,
    and_true, WireArg.Alone] at hargs <;>
    simp only [hsome, Option.not_mem_none, false_imp_iff, implies_true, true_and]
  case put k v => exact hS.dictSet hargs.1 hargs.2
  case get k => exact ⟨hS.lookup, hS⟩
  case getAll ks es length_lt perm =>
    exact ⟨fun e he => hS e (List.mem_of_mem_filter (perm.subset he)), hS⟩
  case putAll ps => exact forall_mem_dictUpdate hS hargs
  case containsKey k => exact ⟨trivial, hS⟩
  case containsKeys ks => exact ⟨trivial, hS⟩
  case getAndPut k v => exact ⟨hS.lookup, hS.dictSet hargs.1 hargs.2⟩
  case getAndReplace k v => exact ⟨hS.lookup, (hS.dictSet hargs.1 hargs.2).ite hS⟩
  case getAndRemove k => exact ⟨hS.lookup, hS.filter _⟩
  case putIfAbsent k v => exact ⟨trivial, (hS.dictSet hargs.1 hargs.2).ite hS⟩
  case getAndPutIfAbsent k v => exact ⟨hS.lookup, (hS.dictSet hargs.1 hargs.2).ite hS⟩
  case replace k v => exact ⟨trivial, (hS.dictSet hargs.1 hargs.2).ite hS⟩
  case replaceIfEquals k sample v => exact ⟨trivial, (hS.dictSet hargs.1 hargs.2.2).ite hS⟩
  case clear => exact List.forall_mem_nil _
  case clearKey k => exact hS.filter _
  case clearKeys ks => exact hS.filter _
  case removeKey k => exact ⟨trivial, hS.filter _⟩
  case removeIfEquals k sample => exact ⟨trivial, (hS.filter _).ite hS⟩
  case removeKeys ks => exact hS.filter _
  case removeAll => exact List.forall_mem_nil _
  case getSize => exact ⟨trivial, hS⟩
  case localPeek k o found =>
    refine ⟨?_, hS⟩
    rcases found with rfl | rfl
    · exact fun x hx => absurd hx (Option.not_mem_none x)
    · exact hS.lookup

/-! ### Servers -/

/-- The entries of all caches by their ids. -/
abbrev Caches (cl : Client) := ℤ → CacheEntries cl

/-- All objects of the caches are read without a client. -/
def Caches.Alone (S : Caches cl) : Prop := ∀ id, (S id).Alone

/-- The bytes of an answer. -/
def answerBytes (e : Envelope) (version : ProtocolVersion) (a : Option (Answer cl)) : Bytes :=
  e.encode version (a.elim [] Answer.bytes)

/-- What is asked for is neither to expire nor part of a transaction. -/
structure KeyValueRequest.Plain (q : KeyValueRequest cl) : Prop where
  expiryPolicy : q.info.expiryPolicy = none
  txId : q.info.txId q.current = none

/-- A request is served: with an answer, in its own cache. -/
structure Served (S : Caches cl) (q : KeyValueRequest cl) (a : Option (Answer cl))
    (T : Caches cl) : Prop where
  serves : Serves q.op (q.args.map SentArg.wire) (S q.info.cacheId) a (T q.info.cacheId)
  others : ∀ id, id ≠ q.info.cacheId → T id = S id

theorem Served.of_serves {S : Caches cl} {q : KeyValueRequest cl} {a : Option (Answer cl)}
    {E : CacheEntries cl}
    (h : Serves q.op (q.args.map SentArg.wire) (S q.info.cacheId) a E) :
    Served S q a (Function.update S q.info.cacheId E) where
  serves := by rwa [Function.update_self]
  others _ hid := Function.update_of_ne hid _ _

/-- A server takes bytes for a request that is sent as these, and serves it. -/
structure TakenFor (S : Caches cl) (request : Bytes) (q : KeyValueRequest cl)
    (a : Option (Answer cl)) (T : Caches cl) : Prop where
  plain : q.Plain
  request_eq : q.request = .ok request
  served : Served S q a T

/-- What a server may do with the bytes of a request: it serves what it takes them for, or refuses
and leaves the caches as they are. -/
def ServerStep (S : Caches cl) (request : Bytes) (e : Envelope) (version : ProtocolVersion)
    (data : Bytes) (T : Caches cl) : Prop :=
  match e.error with
  | some _ => data = answerBytes e version (none : Option (Answer cl)) ∧ T = S
  | none => ∃ q a, TakenFor S request q a T ∧ data = answerBytes e version a

/-! ### The client -/

/-- The result of a call that is served with an answer, or refused. -/
def resultOf (e : Envelope) (a : Option (Answer cl)) : APIResult :=
  match e.error with
  | some (status, message) => ⟨status, e.queryId, textRead message, .none⟩
  | none => ⟨OP_SUCCESS, e.queryId, .str "Success".toList, a.elim .none Answer.value⟩

/-- What a call means: the server serves the request of the call itself, or refuses. -/
def CallStep (S : Caches cl) (q : KeyValueRequest cl) (e : Envelope) (result : APIResult)
    (T : Caches cl) : Prop :=
  match e.error with
  | some _ => T = S ∧ result = resultOf e (none : Option (Answer cl))
  | none => ∃ a, Served S q a T ∧ result = resultOf e a

section Receive
variable {op : KeyValueOp} {e : Envelope} {client : Client}

/-- An answer as the body of a response. -/
def answerBody (op : KeyValueOp) (a : Option (Answer cl)) :
    List (PyStr × WireClass × Bytes × PyValue) :=
  (op.responseField.toList.zip a.toList).map fun p =>
    (p.1.1, p.2.kind.wireClass, p.2.bytes, p.2.value)

theorem answerBody_none (h : op.responseField = none) :
    answerBody op (none : Option (Answer cl)) = [] := by
  rw [answerBody, h]
  rfl

theorem answerBody_some {field : PyStr × ResponseKind} {a : Answer cl}
    (h : op.responseField = some field) :
    answerBody op (some a) = [(field.1, a.kind.wireClass, a.bytes, a.value)] := by
  rw [answerBody, h]
  rfl

/-- The response with an answer. -/
def answerResponse (op : KeyValueOp) (e : Envelope) (version : ProtocolVersion)
    (a : Option (Answer cl)) (h : ∀ x ∈ a, x.Hashable ∧ x.Alone) : ServerResponse (SameClient cl)
    where
  version := version
  envelope := e
  body := answerBody op a
  reads := by
    intro f hf
    obtain ⟨p, hp, rfl⟩ := List.mem_map.mp hf
    have hmem : p.2 ∈ a := Option.mem_toList.mp (List.of_mem_zip hp).2
    exact p.2.reads (h _ hmem).1 (h _ hmem).2
  names_nodup := by
    cases hfield : op.responseField <;> cases a <;> simp [answerBody, hfield]
  names_free := by
    intro f hf
    obtain ⟨p, hp, rfl⟩ := List.mem_map.mp hf
    have hmem : op.responseField = some p.1 := Option.mem_toList.mp (List.of_mem_zip hp).1
    exact op.responseField_free hmem

theorem answerResponse_received (herror : e.error = none) (version : ProtocolVersion)
    {a : Option (Answer cl)} (h : ∀ x ∈ a, x.Hashable ∧ x.Alone) :
    (answerResponse op e version a h).received = ⟨OP_SUCCESS, e.queryId, .str "Success".toList,
      if answerBody op a = [] then .none
      else strDict ((answerBody op a).map fun f => (f.1, f.2.2.2))⟩ := by
  simp only [ServerResponse.received, ServerResponse.expected, answerResponse, herror]
  congr

/-- An answer that is sent is received. -/
theorem receive_answer (herror : e.error = none) (version : ProtocolVersion)
    {a : Option (Answer cl)} (hkind : a.map Answer.kind = op.responseField.map (·.2))
    (h : ∀ x ∈ a, x.Hashable ∧ x.Alone) (hclient : SameClient cl client) (s : Affinity) :
    ∃ client', SameClient cl client' ∧ op.receive version (answerBytes e version a) client s =
      .ok (resultOf e a, client', e.update version s) := by
  obtain ⟨client', hclient', hprocess⟩ :=
    (answerResponse op e version a h).processResponse_eq hclient s
  refine ⟨client', hclient', ?_⟩
  rw [answerResponse_received herror] at hprocess
  cases hfield : op.responseField with
  | none =>
    obtain rfl : a = none := by
      rw [hfield] at hkind
      exact Option.map_eq_none_iff.mp hkind
    have hbody : answerBody op (none : Option (Answer cl)) = [] := answerBody_none hfield
    have hconfig : op.responseConfig = [] := by rw [KeyValueOp.responseConfig, hfield]; rfl
    rw [ServerResponse.responseClass, ServerResponse.data] at hprocess
    simp only [answerResponse, hbody, if_true, List.map_nil, List.flatMap_nil] at hprocess
    have hdata : answerBytes e version (none : Option (Answer cl)) = e.encode version [] := rfl
    unfold KeyValueOp.receive
    rw [hconfig, hdata, hprocess, except_bind, hfield]
    simp only [resultOf, herror]
    rfl
  | some field =>
    obtain ⟨x, rfl, hx⟩ : ∃ x, a = some x ∧ x.kind = field.2 := by
      rw [hfield] at hkind
      exact Option.map_eq_some_iff.mp hkind
    have hbody : answerBody op (some x) = [(field.1, x.kind.wireClass, x.bytes, x.value)] :=
      answerBody_some hfield
    have hconfig : op.responseConfig = [(field.1, x.kind.wireClass)] := by
      rw [KeyValueOp.responseConfig, hfield, hx]
      rfl
    rw [ServerResponse.responseClass, ServerResponse.data] at hprocess
    simp only [answerResponse, hbody, List.map_cons, List.map_nil, List.flatMap_cons,
      List.flatMap_nil, List.append_nil, reduceCtorEq, if_false] at hprocess
    have hdata : answerBytes e version (some x) = e.encode version x.bytes := rfl
    have hitem : (strDict [(field.1, x.value)]).item field.1 = .ok x.value :=
      item_strDict (by simp) (List.mem_singleton_self _)
    unfold KeyValueOp.receive
    rw [hconfig, hdata, hprocess, except_bind, hfield]
    dsimp only
    rw [postProcessValueByKey]
    dsimp only
    rw [if_pos (show OP_SUCCESS = 0 from rfl), hitem]
    simp only [resultOf, herror]
    rfl

/-- A refusal is received, whatever was asked for. -/
theorem receive_refusal {status : ℤ} {message : Option PyStr}
    (herror : e.error = some (status, message)) (version : ProtocolVersion)
    (hclient : SameClient cl client) (s : Affinity) :
    ∃ client', SameClient cl client' ∧
      op.receive version (answerBytes e version (none : Option (Answer cl))) client s =
        .ok (resultOf e (none : Option (Answer cl)), client', e.update version s) := by
  obtain ⟨client', hclient', hprocess⟩ : ∃ client', SameClient cl client' ∧
      processResponse version (responseOf op.responseConfig) (e.encode version []) client s =
        .ok (⟨status, e.queryId, textRead message, .none⟩, client', e.update version s) :=
    e.process_error version herror hclient s
  refine ⟨client', hclient', ?_⟩
  have hdata : answerBytes e version (none : Option (Answer cl)) = e.encode version [] := rfl
  unfold KeyValueOp.receive
  rw [hdata, hprocess, except_bind]
  simp only [resultOf, herror]
  cases hfield : op.responseField with
  | none => rfl
  | some field =>
    have hstatus : status ≠ 0 := (e.status_range _ herror).2
    dsimp only
    rw [postProcessValueByKey]
    dsimp only
    rw [if_neg hstatus]
    rfl

end Receive

/-! ### Sessions -/

/-- A call with what its server does, and what comes back. -/
structure Exchanged (cl : Client) where
  call : KeyValueRequest cl
  envelope : Envelope
  request : Bytes
  data : Bytes

/-- Requests go out one after another, to servers that share the caches; their objects are read
without a client. -/
inductive Session : Caches cl → List (Exchanged cl) → Caches cl → Prop
  | nil (S) : Session S [] S
  | cons {S T U : Caches cl} {x : Exchanged cl} {xs : List (Exchanged cl)}
      (request_eq : x.call.request = .ok x.request)
      (hashable : x.call.op = .cacheGetAll → ∀ arg ∈ x.call.args, arg.wire.Hashable)
      (alone : ∀ arg ∈ x.call.args, arg.wire.Alone)
      (step : ServerStep S x.request x.envelope x.call.info.version x.data T)
      (rest : Session T xs U) : Session S (x :: xs) U

/-- What the client makes of the responses, one after another. -/
def receiveAll : List (Exchanged cl) → Client → Affinity →
    Except PyError (List APIResult × Client × Affinity)
  | [], client, s => .ok ([], client, s)
  | x :: xs, client, s => do
    let (result, client, s) ← x.call.op.receive x.call.info.version x.data client s
    let (results, client, s) ← receiveAll xs client s
    .ok (result :: results, client, s)

/-- What the calls mean, one after another. -/
inductive Calls : Caches cl → List (Exchanged cl) → List APIResult → Caches cl → Prop
  | nil (S) : Calls S [] [] S
  | cons {S T U : Caches cl} {x : Exchanged cl} {xs : List (Exchanged cl)} {result : APIResult}
      {results : List APIResult} (step : CallStep S x.call x.envelope result T)
      (rest : Calls T xs results U) : Calls S (x :: xs) (result :: results) U

/-- The server has taken the bytes for the call that they were sent by. -/
theorem TakenFor.served_call {S T : Caches cl} {q q' : KeyValueRequest cl} {request : Bytes}
    {a : Option (Answer cl)} (h : TakenFor S request q' a T) (hq : q.request = .ok request) :
    Served S q a T := by
  obtain ⟨hsame, hwire⟩ := KeyValueRequest.told_apart hq h.request_eq
  obtain ⟨hserves, hothers⟩ := h.served
  constructor
  · rw [hsame.op, hsame.cacheId, hwire]
    exact hserves
  · rw [hsame.cacheId]
    exact hothers

/-- What is served out of caches whose objects are read without a client leaves such caches. -/
theorem Served.alone {S T : Caches cl} {q : KeyValueRequest cl} {a : Option (Answer cl)}
    (h : Served S q a T) (hargs : ∀ arg ∈ q.args, arg.wire.Alone) (hS : S.Alone) :
    (∀ x ∈ a, x.Alone) ∧ T.Alone := by
  obtain ⟨hanswer, hcache⟩ := h.serves.alone (List.forall_mem_map.mpr hargs) (hS _)
  refine ⟨hanswer, fun id => ?_⟩
  by_cases hid : id = q.info.cacheId
  · exact hid ▸ hcache
  · rw [h.others id hid]
    exact hS id

/-- One call. -/
theorem serverStep_call {S T : Caches cl} {x : Exchanged cl}
    (hq : x.call.request = .ok x.request)
    (hashable : x.call.op = .cacheGetAll → ∀ arg ∈ x.call.args, arg.wire.Hashable)
    (alone : ∀ arg ∈ x.call.args, arg.wire.Alone) (hS : S.Alone)
    (h : ServerStep S x.request x.envelope x.call.info.version x.data T) {client : Client}
    (hclient : SameClient cl client) (s : Affinity) :
    ∃ result client' s', SameClient cl client' ∧ T.Alone ∧
      CallStep S x.call x.envelope result T ∧
      x.call.op.receive x.call.info.version x.data client s = .ok (result, client', s') := by
  unfold ServerStep at h
  unfold CallStep
  cases herror : x.envelope.error with
  | none =>
    rw [herror] at h
    obtain ⟨q', a, htaken, hdata⟩ := h
    have hserved := htaken.served_call hq
    obtain ⟨hanswerAlone, hT⟩ := hserved.alone alone hS
    have hanswer : ∀ y ∈ a, y.Hashable ∧ y.Alone := by
      intro y hy
      refine ⟨?_, hanswerAlone y hy⟩
      obtain rfl : a = some y := hy
      refine hserved.serves.hashable fun hop arg harg => ?_
      obtain ⟨b, hb, rfl⟩ := List.mem_map.mp harg
      exact hashable hop b hb
    obtain ⟨client', hclient', hreceive⟩ :=
      receive_answer herror x.call.info.version hserved.serves.kind hanswer hclient s
    rw [← hdata] at hreceive
    exact ⟨_, client', _, hclient', hT, ⟨a, hserved, rfl⟩, hreceive⟩
  | some error =>
    rw [herror] at h
    obtain ⟨hdata, rfl⟩ := h
    obtain ⟨client', hclient', hreceive⟩ := receive_refusal herror x.call.info.version hclient s
    rw [← hdata] at hreceive
    exact ⟨_, client', _, hclient', hS, ⟨rfl, rfl⟩, hreceive⟩

end Caches

/-- In every such session with servers that keep what is put, whatever requests they take the bytes
for, the client receives what its own calls mean for the caches. -/
theorem key_value_sessions [Python] [OtherCodecs] {cl client : Client} {S U : Caches cl}
    {xs : List (Exchanged cl)} (h : Session S xs U) (hS : S.Alone) (hclient : SameClient cl client)
    (s : Affinity) :
    ∃ results client' s', receiveAll xs client s = .ok (results, client', s') ∧
      Calls S xs results U := by
  induction h generalizing client s with
  | nil S => exact ⟨[], client, s, rfl, .nil S⟩
  | cons request_eq hashable alone step rest ih =>
    obtain ⟨result, client₁, s₁, hclient₁, hT, hcall, hreceive⟩ :=
      serverStep_call request_eq hashable alone hS step hclient s
    obtain ⟨results, client₂, s₂, hall, hcalls⟩ := ih hT hclient₁ s₁
    refine ⟨result :: results, client₂, s₂, ?_, .cons hcall hcalls⟩
    rw [receiveAll, hreceive, except_bind]
    dsimp only
    rw [hall, except_bind]

/-- The `Int` that `putOne` puts is asked for. -/
def getOne : @KeyValueRequest asciiLower noOtherCodecs someClient :=
  let _ := asciiLower
  let _ := noOtherCodecs
  { putOne ⟨1, 7, 0⟩ none with
    op := .cacheGet
    queryId := 4
    args := (putOne ⟨1, 7, 0⟩ none).args.tail
    queryId_range := by decide
    kinds := rfl }

theorem putOne_alone (version : ProtocolVersion) (current : Option TransactionContext) :
    let _ := asciiLower
    let _ := noOtherCodecs
    ∀ arg ∈ (putOne version current).args, arg.wire.Alone := by
  intro _ _
  have hone : Reads (SameClient someClient) anyDataObject.withoutClient
      (encode someClient.compactFooter .intObject (.int 1))
      (decoded Scalar.byte.wrap .intObject (.int 1)) :=
    ValueTree.readsPassing (.int (s := .int) rfl (by decide)) _
  exact List.forall_mem_cons.mpr ⟨hone, List.forall_mem_singleton.mpr hone⟩

/-- It is put into an empty cache as the value of itself, and got. -/
theorem key_value_sessions_put_get :
    let _ := asciiLower
    let _ := noOtherCodecs
    ∃ (xs : List (Exchanged someClient)) (U : Caches someClient),
      xs.map (·.call) = [putOne ⟨1, 7, 0⟩ none, getOne] ∧
      ∃ results client' s', receiveAll xs someClient Affinity.init = .ok (results, client', s') ∧
        Calls (fun _ => []) xs results U := by
  intro _ _
  let e : Envelope := ⟨7, none, none, by decide, by decide, by decide, by decide⟩
  let put := putOne ⟨1, 7, 0⟩ none
  let info : Bytes := leBytes 4 5 ++ [0] ++ [] ++ []
  have hinfo : (putOne ⟨1, 7, 0⟩ none).info.fromPython none = .ok info := rfl
  have hinfo' : getOne.info.fromPython none = .ok info := rfl
  obtain ⟨x, hput⟩ : ∃ x, put.request = .ok x := ⟨_, KeyValueRequest.request_eq hinfo⟩
  obtain ⟨y, hget⟩ : ∃ y, getOne.request = .ok y := ⟨_, KeyValueRequest.request_eq hinfo'⟩
  obtain ⟨one, hputArgs, hgetArgs⟩ : ∃ one,
      put.args.map SentArg.wire = [.object one, .object one] ∧
        getOne.args.map SentArg.wire = [.object one] := ⟨_, rfl, rfl⟩
  have hputServes : Serves put.op (put.args.map SentArg.wire) [] none (dictSet [] one one) := by
    rw [hputArgs]
    exact .put one one []
  obtain ⟨T, hserved⟩ : ∃ T, Served (fun _ => []) put none T := ⟨_, .of_serves hputServes⟩
  have hgetServes : Serves getOne.op (getOne.args.map SentArg.wire) (T getOne.info.cacheId)
      (some (.object ((T getOne.info.cacheId).lookup one))) (T getOne.info.cacheId) := by
    rw [hgetArgs]
    exact .get one _
  obtain ⟨a, U, hgot⟩ : ∃ a U, Served T getOne a U := ⟨_, _, .of_serves hgetServes⟩
  let xs : List (Exchanged someClient) :=
    [⟨put, e, x, answerBytes e put.info.version (none : Option (Answer someClient))⟩,
      ⟨getOne, e, y, answerBytes e getOne.info.version a⟩]
  have hputOp : put.op ≠ .cacheGetAll := by decide
  have hgetOp : getOne.op ≠ .cacheGetAll := by decide
  have hputAlone : ∀ arg ∈ put.args, arg.wire.Alone := putOne_alone ⟨1, 7, 0⟩ none
  have hgetAlone : ∀ arg ∈ getOne.args, arg.wire.Alone :=
    fun arg harg => hputAlone arg (List.mem_of_mem_tail harg)
  have hempty : @Caches.Alone _ _ someClient fun _ => [] := fun _ => List.forall_mem_nil _
  have hsecond : Session T xs.tail U :=
    .cons hget (fun h => absurd h hgetOp) hgetAlone ⟨getOne, a, ⟨⟨rfl, rfl⟩, hget, hgot⟩, rfl⟩ (.nil U)
  have hfirst : Session (fun _ => []) xs U :=
    .cons hput (fun h => absurd h hputOp) hputAlone ⟨put, none, ⟨⟨rfl, rfl⟩, hput, hserved⟩, rfl⟩ hsecond
  exact ⟨xs, U, rfl, key_value_sessions hfirst hempty ⟨rfl, rfl⟩ Affinity.init⟩

end PyGridGain
