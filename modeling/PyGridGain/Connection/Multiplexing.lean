import PyGridGain.Connection.DataReceived
import PyGridGain.Lib.Runs

/-! Requests on one transport of an `AioConnection`. The table of pending requests
multiplexes them as it should, if no request is cancelled before it is answered: the
entry of a cancelled request stays in the table, and completing its future raises in the
middle of `data_received` or of `process_connection_lost`. -/

namespace PyGridGain

/-- `set_result` and `set_exception` raise `InvalidStateError` on a future that is done. -/
structure InvalidStateError where
  deriving DecidableEq

def Future.set {α : Type} (f new : Future α) : Except InvalidStateError (Future α) :=
  match f with
  | pending => .ok new
  | _ => .error ⟨⟩

/-- The futures of the requests that were made. -/
abbrev Futures := ℤ → Option (Future Bytes)

/-- The keys of `_pending_reqs`, and the future of every request. -/
structure AioConn where
  pendingReqs : List ℤ
  futures : Futures
  failed : Bool

/-- `int.from_bytes(data[4:12], signed=True)`. -/
def requestId (data : Bytes) : ℤ := leInt (pySlice data 4 12)

/-- The future of a request completed with `new`. -/
def Futures.set (futures : Futures) (queryId : ℤ) (new : Future Bytes) :
    Except InvalidStateError Futures :=
  match futures queryId with
  | some fut => (fut.set new).map fun fut => Function.update futures queryId (some fut)
  | none => .error ⟨⟩

namespace AioConn

/-- `process_message`. -/
def processMessage (data : Bytes) (c : AioConn) : Except InvalidStateError AioConn :=
  let reqId := requestId data
  if reqId ∈ c.pendingReqs then
    (c.futures.set reqId (.result data)).map fun futures =>
      { c with futures, pendingReqs := c.pendingReqs.erase reqId }
  else .ok c

/-- The loop of `process_connection_lost` over the table. -/
def failPending : List ℤ → Futures → Futures × Option InvalidStateError
  | [], futures => (futures, none)
  | reqId :: reqIds, futures =>
    match futures.set reqId .exception with
    | .error e => (futures, some e)
    | .ok futures => failPending reqIds futures

/-- `process_connection_lost`; after an exception the table is left as it is. -/
def processConnectionLost (c : AioConn) : AioConn :=
  match failPending c.pendingReqs c.futures with
  | (futures, none) => ⟨[], futures, true⟩
  | (futures, some _) => ⟨c.pendingReqs, futures, true⟩

end AioConn

inductive Transport
  | opened
  | closing
  | lost
  deriving DecidableEq

/-- A connection after its handshake, on one transport, with the number of bytes that
have come from the server since. -/
structure Multiplexer where
  protocol : BaseProtocol Unit AioConn
  transport : Transport
  received : ℕ

def Multiplexer.init : Multiplexer := ⟨⟨[], .result (), ⟨[], fun _ => none, false⟩⟩, .opened, 0⟩

/-- What happens to a connection: `request` is called, bytes come, a caller gives up
waiting, the transport is lost. -/
inductive AioStep
  | request (queryId : ℤ)
  | receive (data : Bytes)
  | cancel (queryId : ℤ)
  | connectionLost
  deriving DecidableEq

/-- The steps of a connection to a server that sends the packets `ps`. An exception that
leaves `data_received` closes the transport, and the transport is lost later. -/
def Multiplexer.step (ps : List Bytes) (s : Multiplexer) : AioStep → Option Multiplexer
  | .request queryId =>
    let c := s.protocol.conn
    if s.transport = .opened ∧ c.failed = false ∧ c.futures queryId = none then
      some { s with protocol := { s.protocol with conn := { c with
        pendingReqs := c.pendingReqs ++ [queryId]
        futures := Function.update c.futures queryId (some .pending) } } }
    else none
  | .receive data =>
    if s.transport = .opened ∧ data <+: ps.flatten.drop s.received then
      match dataReceived (fun _ _ => .ok ()) AioConn.processMessage data s.protocol with
      | some (protocol, none) => some ⟨protocol, .opened, s.received + data.length⟩
      | some (protocol, some _) => some ⟨protocol, .closing, s.received + data.length⟩
      | none => none
    else none
  | .cancel queryId =>
    let c := s.protocol.conn
    if c.futures queryId = some .pending then
      some { s with protocol := { s.protocol with conn := { c with
        futures := Function.update c.futures queryId (some .cancelled) } } }
    else none
  | .connectionLost =>
    if s.transport ≠ .lost then
      some { s with protocol := { s.protocol with conn := s.protocol.conn.processConnectionLost }
                    transport := .lost }
    else none

/-! ### What it is for -/

/-- The requests of a connection, as they should go: a response completes the request
that has its id and is waiting, and the loss of the connection all that are waiting. -/
structure Exchange where
  futures : Futures
  received : ℕ
  lost : Bool

namespace Exchange

def init : Exchange := ⟨fun _ => none, 0, false⟩

def respond (futures : Futures) (packet : Bytes) : Futures :=
  if futures (requestId packet) = some .pending then
    Function.update futures (requestId packet) (some (.result packet))
  else futures

def failAll (futures : Futures) : Futures := fun queryId =>
  if futures queryId = some .pending then some .exception else futures queryId

/-- The packets of `ps` that `more` bytes complete when `n` have come before. -/
def arriving (ps : List Bytes) (n more : ℕ) : List Bytes :=
  (completed ps (n + more)).drop (completed ps n).length

def step (ps : List Bytes) (s : Exchange) : AioStep → Option Exchange
  | .request queryId =>
    if s.lost = false ∧ s.futures queryId = none then
      some { s with futures := Function.update s.futures queryId (some .pending) }
    else none
  | .receive data =>
    if s.lost = false ∧ data <+: ps.flatten.drop s.received then
      some { s with
        futures := (arriving ps s.received data.length).foldl respond s.futures
        received := s.received + data.length }
    else none
  | .cancel queryId =>
    if s.futures queryId = some .pending then
      some { s with futures := Function.update s.futures queryId (some .cancelled) }
    else none
  | .connectionLost =>
    if s.lost = false then some { s with futures := failAll s.futures, lost := true } else none

end Exchange

/-- No cancelled request is left in the table when its response arrives, and none at all
when the connection is lost. -/
def NotCancelled (ps : List Bytes) (s : Multiplexer) : AioStep → Prop
  | .receive data => ∀ p ∈ Exchange.arriving ps s.received data.length,
    requestId p ∈ s.protocol.conn.pendingReqs →
      s.protocol.conn.futures (requestId p) ≠ some .cancelled
  | .connectionLost => ∀ queryId ∈ s.protocol.conn.pendingReqs,
    s.protocol.conn.futures queryId ≠ some .cancelled
  | _ => True

instance (ps : List Bytes) (s : Multiplexer) : ∀ a, Decidable (NotCancelled ps s a)
  | .receive data => inferInstanceAs (Decidable (∀ p ∈ Exchange.arriving ps s.received data.length,
      requestId p ∈ s.protocol.conn.pendingReqs →
        s.protocol.conn.futures (requestId p) ≠ some .cancelled))
  | .connectionLost => inferInstanceAs (Decidable (∀ queryId ∈ s.protocol.conn.pendingReqs,
      s.protocol.conn.futures queryId ≠ some .cancelled))
  | .request _ => inferInstanceAs (Decidable True)
  | .cancel _ => inferInstanceAs (Decidable True)

/-! ### The table -/

/-- The table holds every request that waits, and otherwise only cancelled ones. -/
structure Table (c : AioConn) : Prop where
  nodup : c.pendingReqs.Nodup
  waiting : ∀ queryId, c.futures queryId = some .pending → queryId ∈ c.pendingReqs
  only : ∀ queryId ∈ c.pendingReqs,
    c.futures queryId = some .pending ∨ c.futures queryId = some .cancelled

theorem Futures.set_pending {futures : Futures} {queryId : ℤ} (h : futures queryId = some .pending)
    (new : Future Bytes) :
    futures.set queryId new = .ok (Function.update futures queryId (some new)) := by
  simp [Futures.set, h, Future.set, Except.map]

/-- A packet that does not answer a cancelled request is handled as it should be. -/
theorem processMessage_ok {c : AioConn} {p : Bytes} (h : Table c)
    (hp : requestId p ∈ c.pendingReqs → c.futures (requestId p) ≠ some .cancelled) :
    ∃ c', AioConn.processMessage p c = .ok c' ∧ Table c' ∧
      c'.futures = Exchange.respond c.futures p ∧ c'.failed = c.failed ∧
      ∀ queryId ∈ c'.pendingReqs, queryId ∈ c.pendingReqs ∧ c'.futures queryId = c.futures queryId := by
  by_cases hmem : requestId p ∈ c.pendingReqs
  · have hpending := (h.only _ hmem).resolve_right (hp hmem)
    have hne : ∀ queryId ∈ c.pendingReqs.erase (requestId p), queryId ≠ requestId p := by
      rintro queryId hq rfl
      exact (h.nodup.mem_erase_iff.mp hq).1 rfl
    refine ⟨⟨c.pendingReqs.erase (requestId p),
      Function.update c.futures (requestId p) (some (.result p)), c.failed⟩, ?_, ⟨?_, ?_, ?_⟩, ?_,
      rfl, ?_⟩
    · simp [AioConn.processMessage, hmem, Futures.set_pending hpending, Except.map]
    · exact h.nodup.erase _
    · intro queryId hq
      have hq' : queryId ≠ requestId p := by
        rintro rfl
        simp at hq
      dsimp only at hq
      rw [Function.update_of_ne hq'] at hq
      exact h.nodup.mem_erase_iff.mpr ⟨hq', h.waiting _ hq⟩
    · intro queryId hq
      dsimp only
      rw [Function.update_of_ne (hne _ hq)]
      exact h.only _ (List.mem_of_mem_erase hq)
    · simp [Exchange.respond, hpending]
    · intro queryId hq
      exact ⟨List.mem_of_mem_erase hq, Function.update_of_ne (hne _ hq) _ _⟩
  · have hnot : c.futures (requestId p) ≠ some .pending := fun hq => hmem (h.waiting _ hq)
    refine ⟨c, by simp [AioConn.processMessage, hmem], h, by simp [Exchange.respond, hnot], rfl,
      fun queryId hq => ⟨hq, rfl⟩⟩

/-- So are several of them. -/
theorem processMessages_ok {c : AioConn} {packets : List Bytes} (h : Table c)
    (hp : ∀ p ∈ packets, requestId p ∈ c.pendingReqs → c.futures (requestId p) ≠ some .cancelled) :
    ∃ c', packets.foldlM (handlePacket (fun _ _ => .ok ()) AioConn.processMessage) (.result (), c) =
        .ok (.result (), c') ∧ Table c' ∧
      c'.futures = packets.foldl Exchange.respond c.futures ∧ c'.failed = c.failed := by
  induction packets generalizing c with
  | nil => exact ⟨c, rfl, h, rfl, rfl⟩
  | cons p packets ih =>
    obtain ⟨c', hc', htable, hfutures, hfailed, hkeep⟩ := processMessage_ok h (hp p (by simp))
    have hrest : ∀ q ∈ packets, requestId q ∈ c'.pendingReqs →
        c'.futures (requestId q) ≠ some .cancelled := by
      intro q hq hmem
      rw [(hkeep _ hmem).2]
      exact hp q (by simp [hq]) (hkeep _ hmem).1
    obtain ⟨c'', hc'', htable', hfutures', hfailed'⟩ := ih htable hrest
    refine ⟨c'', ?_, htable', by rw [hfutures', hfutures]; rfl, by rw [hfailed', hfailed]⟩
    have hpacket : handlePacket (fun _ _ => .ok ()) AioConn.processMessage (.result (), c) p =
        .ok (.result (), c') := by
      simp [handlePacket, Future.done, hc', Except.map]
    rw [List.foldlM_cons, hpacket]
    exact hc''

/-- Without cancelled requests in the table, all of it is failed. -/
theorem failPending_ok {reqIds : List ℤ} {futures : Futures} (hnd : reqIds.Nodup)
    (h : ∀ queryId ∈ reqIds, futures queryId = some .pending) :
    AioConn.failPending reqIds futures =
      (fun queryId => if queryId ∈ reqIds then some .exception else futures queryId, none) := by
  induction reqIds generalizing futures with
  | nil => simp [AioConn.failPending]
  | cons reqId reqIds ih =>
    obtain ⟨hnot, hnd⟩ := List.nodup_cons.mp hnd
    have hrest : ∀ queryId ∈ reqIds,
        Function.update futures reqId (some .exception) queryId = some .pending := by
      intro queryId hq
      rw [Function.update_of_ne (by rintro rfl; exact hnot hq)]
      exact h queryId (by simp [hq])
    rw [AioConn.failPending, Futures.set_pending (h reqId (by simp))]
    simp only [ih hnd hrest, Prod.mk.injEq, and_true]
    funext queryId
    by_cases heq : queryId = reqId
    · subst heq
      simp
    · simp [heq]

theorem processConnectionLost_ok {c : AioConn} (h : Table c)
    (hc : ∀ queryId ∈ c.pendingReqs, c.futures queryId ≠ some .cancelled) :
    c.processConnectionLost = ⟨[], Exchange.failAll c.futures, true⟩ := by
  have hpending : ∀ queryId ∈ c.pendingReqs, c.futures queryId = some .pending := fun queryId hq =>
    (h.only queryId hq).resolve_right (hc queryId hq)
  have hall : (fun queryId => if queryId ∈ c.pendingReqs then some .exception
      else c.futures queryId) = Exchange.failAll c.futures := by
    funext queryId
    by_cases hq : c.futures queryId = some .pending
    · simp [Exchange.failAll, hq, h.waiting _ hq]
    · have hnot : queryId ∉ c.pendingReqs := fun hmem => hq (hpending _ hmem)
      simp [Exchange.failAll, hq, hnot]
  rw [AioConn.processConnectionLost, failPending_ok h.nodup hpending, hall]

/-- A new request waits. -/
theorem Table.request {c : AioConn} (h : Table c) {queryId : ℤ} (hq : c.futures queryId = none) :
    Table { c with pendingReqs := c.pendingReqs ++ [queryId],
                   futures := Function.update c.futures queryId (some .pending) } := by
  have hnot : queryId ∉ c.pendingReqs := by
    intro hmem
    rcases h.only queryId hmem with heq | heq <;> simp [hq] at heq
  have hne : ∀ q ∈ c.pendingReqs, q ≠ queryId := by
    rintro q hmem rfl
    exact hnot hmem
  refine ⟨List.Nodup.append h.nodup (List.nodup_singleton _) (by simpa using hnot), fun q hq => ?_,
    fun q hmem => ?_⟩
  · by_cases heq : q = queryId
    · simp [heq]
    · dsimp only at hq
      rw [Function.update_of_ne heq] at hq
      exact List.mem_append_left _ (h.waiting q hq)
  · dsimp only
    rcases List.mem_append.mp hmem with hmem | hmem
    · rw [Function.update_of_ne (hne q hmem)]
      exact h.only q hmem
    · obtain rfl := List.mem_singleton.mp hmem
      simp

/-- A cancelled request stays. -/
theorem Table.cancel {c : AioConn} (h : Table c) (queryId : ℤ) :
    Table { c with futures := Function.update c.futures queryId (some .cancelled) } := by
  refine ⟨h.nodup, fun q hq => ?_, fun q hmem => ?_⟩
  · have hne : q ≠ queryId := by
      rintro rfl
      simp at hq
    dsimp only at hq
    rw [Function.update_of_ne hne] at hq
    exact h.waiting q hq
  · dsimp only
    by_cases heq : q = queryId
    · simp [heq]
    · rw [Function.update_of_ne heq]
      exact h.only q hmem

/-! ### The refinement -/

/-- The connection and the exchange of its requests, as long as the transport is open:
the packets `done` were handed on, the buffer holds the tail. -/
structure Running (done rest : List Bytes) (s : Multiplexer) (e : Exchange) : Prop where
  opened : s.transport = .opened
  notLost : e.lost = false
  alive : s.protocol.conn.failed = false
  handshake : s.protocol.handshakeFut = .result ()
  table : Table s.protocol.conn
  futures : s.protocol.conn.futures = e.futures
  received : s.received = e.received
  bytes : s.received = (done.flatten ++ s.protocol.buffer).length
  tail : IsTail s.protocol.buffer rest

/-- The same when the connection is lost: no request waits. -/
structure Lost (s : Multiplexer) (e : Exchange) : Prop where
  transport : s.transport = .lost
  lost : e.lost = true
  table : s.protocol.conn.pendingReqs = []
  futures : s.protocol.conn.futures = e.futures
  settled : ∀ queryId, e.futures queryId ≠ some .pending

def Refines (ps : List Bytes) (s : Multiplexer) (e : Exchange) : Prop :=
  (∃ done rest, ps = done ++ rest ∧ Running done rest s e) ∨ Lost s e

/-- More bytes complete more packets and leave a tail. -/
theorem Running.arriving {done rest : List Bytes} {s : Multiplexer} {e : Exchange}
    (h : Running done rest s e) {data : Bytes}
    (hdata : data <+: (done ++ rest).flatten.drop s.received) :
    ∃ more rest' tail, rest = more ++ rest' ∧ s.protocol.buffer ++ data = more.flatten ++ tail ∧
      IsTail tail rest' ∧ Exchange.arriving (done ++ rest) s.received data.length = more := by
  obtain ⟨x, hx⟩ := h.tail.isPrefix
  have hdrop : (done ++ rest).flatten.drop s.received = x := by
    rw [h.bytes, List.flatten_append, ← hx, ← List.append_assoc, List.drop_left]
  rw [hdrop] at hdata
  have hprefix : s.protocol.buffer ++ data <+: rest.flatten := by
    rw [← hx, List.prefix_append_right_inj]
    exact hdata
  obtain ⟨more, rest', tail, rfl, hbytes, htail⟩ := exists_tail hprefix
  refine ⟨more, rest', tail, rfl, hbytes, htail, ?_⟩
  have hbefore : completed (done ++ (more ++ rest')) s.received = done := by
    rw [h.bytes]
    exact completed_of_tail h.tail
  have hafter : completed (done ++ (more ++ rest')) (s.received + data.length) = done ++ more := by
    have hlen : s.received + data.length = ((done ++ more).flatten ++ tail).length := by
      rw [h.bytes, ← List.length_append, List.append_assoc, hbytes, List.flatten_append,
        List.append_assoc]
    rw [hlen, ← List.append_assoc]
    exact completed_of_tail htail
  rw [Exchange.arriving, hbefore, hafter, List.drop_left]

/-- While the transport is open, every step of the connection is one of the exchange. -/
theorem Running.step {done rest : List Bytes} (hps : ∀ p ∈ done ++ rest, IsPacket p)
    {s t : Multiplexer} {e : Exchange} {a : AioStep} (h : Running done rest s e)
    (hok : NotCancelled (done ++ rest) s a) (hstep : s.step (done ++ rest) a = some t) :
    ∃ e', e.step (done ++ rest) a = some e' ∧ Refines (done ++ rest) t e' := by
  cases a with
  | request queryId =>
    simp only [Multiplexer.step] at hstep
    split_ifs at hstep with hcond
    obtain rfl := Option.some.inj hstep
    have hnone : e.futures queryId = none := h.futures ▸ hcond.2.2
    refine ⟨_, if_pos ⟨h.notLost, hnone⟩, Or.inl ⟨done, rest, rfl, ?_⟩⟩
    exact { h with
      table := h.table.request hcond.2.2
      futures := by simp only [h.futures] }
  | receive data =>
    simp only [Multiplexer.step] at hstep
    split_ifs at hstep with hcond
    obtain ⟨more, rest', tail, rfl, hbytes, htail, harriving⟩ := h.arriving hcond.2
    simp only [NotCancelled, harriving] at hok
    obtain ⟨c, hfold, htable, hfutures, hfailed⟩ := processMessages_ok h.table hok
    have hmore : ∀ p ∈ more, IsPacket p := fun p hp => hps p (by simp [hp])
    have hlen : more.length < s.protocol.buffer.length + data.length + 1 := by
      have hle := length_le_flatten_of_packets hmore
      have hsum := congrArg List.length hbytes
      simp only [List.length_append] at hsum
      omega
    have hloop := receiveLoop_packets hmore (fun p hp => hps p (by simp [hp])) htail hlen hfold
    rw [← hbytes] at hloop
    have hreceived : dataReceived (fun _ _ => .ok ()) AioConn.processMessage data s.protocol =
        some (⟨tail, .result (), c⟩, none) := by
      rw [dataReceived, h.handshake]
      exact hloop
    rw [hreceived] at hstep
    obtain rfl := Option.some.inj hstep
    refine ⟨_, if_pos ⟨h.notLost, h.received ▸ hcond.2⟩,
      Or.inl ⟨done ++ more, rest', (List.append_assoc _ _ _).symm, ?_⟩⟩
    refine ⟨rfl, h.notLost, by rw [hfailed, h.alive], rfl, htable, ?_, by simp [h.received], ?_, htail⟩
    · rw [← h.received, harriving, ← h.futures, hfutures]
    · rw [h.bytes, ← List.length_append, List.append_assoc, hbytes, List.flatten_append,
        List.append_assoc]
  | cancel queryId =>
    simp only [Multiplexer.step] at hstep
    split_ifs at hstep with hcond
    obtain rfl := Option.some.inj hstep
    have hpending : e.futures queryId = some .pending := h.futures ▸ hcond
    refine ⟨_, if_pos hpending, Or.inl ⟨done, rest, rfl, ?_⟩⟩
    exact { h with
      table := h.table.cancel queryId
      futures := by simp only [h.futures] }
  | connectionLost =>
    simp only [Multiplexer.step] at hstep
    split_ifs at hstep
    obtain rfl := Option.some.inj hstep
    have hconn := processConnectionLost_ok h.table hok
    refine ⟨_, if_pos h.notLost, Or.inr ⟨rfl, rfl, ?_, ?_, fun queryId => ?_⟩⟩
    · simp only [hconn]
    · simp only [hconn, h.futures]
    · simp only [Exchange.failAll]
      split_ifs with hq
      · simp
      · exact hq

/-- A lost connection does nothing more. -/
theorem Lost.step {ps : List Bytes} {s : Multiplexer} {e : Exchange} (h : Lost s e) (a : AioStep) :
    s.step ps a = none := by
  cases a with
  | cancel queryId => simp [Multiplexer.step, h.futures, h.settled queryId]
  | _ => simp [Multiplexer.step, h.transport]

theorem refines_init (ps : List Bytes) (hps : ∀ p ∈ ps, IsPacket p) :
    Refines ps Multiplexer.init Exchange.init := by
  refine Or.inl ⟨[], ps, rfl, rfl, rfl, rfl, rfl, ⟨List.nodup_nil, by simp [Multiplexer.init],
    by simp [Multiplexer.init]⟩, rfl, rfl, rfl, ⟨List.nil_prefix, fun p hp => ?_⟩⟩
  have hlt := (hps p (List.mem_of_mem_head? hp)).not_empty
  simp only [Multiplexer.init, List.length_nil]
  omega

/-- In a run in which no cancelled request is left in the table when its response arrives,
and none at all when the connection is lost, the requests of the connection go as they
should: each is completed by its response and by no other; the buffer holds no more than
an incomplete packet; and after the loss the table is empty and no request waits. -/
theorem multiplexer_refines_exchange {ps : List Bytes} (hps : ∀ p ∈ ps, IsPacket p)
    {as : List AioStep} {s : Multiplexer}
    (hok : Along (Multiplexer.step ps) (NotCancelled ps) Multiplexer.init as)
    (hrun : run (Multiplexer.step ps) Multiplexer.init as = some s) :
    ∃ e, run (Exchange.step ps) Exchange.init as = some e ∧ s.protocol.conn.futures = e.futures ∧
      (s.transport = .opened → ∃ done rest, ps = done ++ rest ∧
        s.received = (done.flatten ++ s.protocol.buffer).length ∧ IsTail s.protocol.buffer rest) ∧
      (s.transport ≠ .opened → s.transport = .lost ∧ s.protocol.conn.pendingReqs = [] ∧
        ∀ queryId, s.protocol.conn.futures queryId ≠ some .pending) := by
  have hstep : ∀ s a t e, Refines ps s e → NotCancelled ps s a → s.step ps a = some t →
      ∃ e', e.step ps a = some e' ∧ Refines ps t e' := by
    rintro s a t e (⟨done, rest, rfl, h⟩ | h) hok hs
    · exact h.step hps hok hs
    · rw [h.step] at hs
      cases hs
  obtain ⟨e, he, h⟩ := along_simulation hstep (refines_init ps hps) hok hrun
  rcases h with ⟨done, rest, rfl, h⟩ | h
  · exact ⟨e, he, h.futures, fun _ => ⟨done, rest, rfl, h.bytes, h.tail⟩,
      fun hn => absurd h.opened hn⟩
  · exact ⟨e, he, h.futures, fun ho => absurd (h.transport.symm.trans ho) (by decide),
      fun _ => ⟨h.transport, h.table, fun queryId => h.futures ▸ h.settled queryId⟩⟩

/-- The response to request 1 comes in two chunks, after a caller gave up on request 2. -/
theorem multiplexer_refines_exchange_cancelled :
    let p : Bytes := [8, 0, 0, 0, 1, 0, 0, 0, 0, 0, 0, 0]
    ∃ s e, run (Multiplexer.step [p]) Multiplexer.init
        [.request 1, .request 2, .cancel 2, .receive (p.take 7), .receive (p.drop 7)] = some s ∧
      run (Exchange.step [p]) Exchange.init
        [.request 1, .request 2, .cancel 2, .receive (p.take 7), .receive (p.drop 7)] = some e ∧
      s.protocol.conn.futures = e.futures ∧
      (s.transport = .opened → ∃ done rest, [p] = done ++ rest ∧
        s.received = (done.flatten ++ s.protocol.buffer).length ∧ IsTail s.protocol.buffer rest) ∧
      (s.transport ≠ .opened → s.transport = .lost ∧ s.protocol.conn.pendingReqs = [] ∧
        ∀ queryId, s.protocol.conn.futures queryId ≠ some .pending) := by
  intro p
  have hps : ∀ q ∈ [p], IsPacket q := by
    intro q hq
    obtain rfl := List.mem_singleton.mp hq
    exact ⟨by decide, by decide⟩
  obtain ⟨s, hs⟩ := Option.isSome_iff_exists.mp (by decide : (run (Multiplexer.step [p])
    Multiplexer.init [.request 1, .request 2, .cancel 2, .receive (p.take 7),
      .receive (p.drop 7)]).isSome)
  obtain ⟨e, he, h⟩ := multiplexer_refines_exchange hps (by decide) hs
  exact ⟨s, e, hs, he, h⟩

/-- A caller gives up on request 1 and the connection is lost: request 2 is never completed. -/
theorem cancelled_request_stops_connection_lost :
    ∃ s, run (Multiplexer.step []) Multiplexer.init
        [.request 1, .request 2, .cancel 1, .connectionLost] = some s ∧
      s.protocol.conn.pendingReqs = [1, 2] ∧ s.protocol.conn.futures 2 = some .pending :=
  ⟨_, rfl, by decide, by decide⟩

end PyGridGain
