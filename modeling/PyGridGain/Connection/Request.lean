import Mathlib.Data.List.Nodup
import Mathlib.Order.Nat
import PyGridGain.Lib.Runs

/-! The requests of a synchronous `Connection`. Whether its socket can be used is split over
`closed` and `failed`; a request asks for the first only, while a failed handshake leaves
the socket open with the answer to it still to come. -/

namespace PyGridGain

/-- What the server sends: the answer to a message, of which a failed `recv` may have taken
a part. -/
inductive Packet
  | answer (message : ℕ)
  | torn (message : ℕ)
  deriving DecidableEq

def Packet.message : Packet → ℕ
  | .answer message => message
  | .torn message => message

/-- A socket, the flag that its handshake has succeeded, and the packets that the server has
sent or will send for what it received, in order. -/
structure Socket where
  handshaken : Bool
  inbox : List Packet
  deriving DecidableEq

/-- A message passed to a socket: of `request` or of a handshake, with the flag of the
socket. -/
structure SocketWrite where
  message : ℕ
  isRequest : Bool
  handshaken : Bool
  deriving DecidableEq

/-- A `Connection`, the number of messages that it made, all that it wrote to its sockets,
and the requests that returned something. -/
structure Connection where
  socket : Option Socket
  failed : Bool
  messages : ℕ
  writes : List SocketWrite
  returned : List (ℕ × Packet)

/-- `sendall` returns, or raises after the server got the whole message or not. -/
inductive SocketSend
  | ok
  | failed (received : Bool)

/-- `recv` returns, or raises after a packet was read in part or not. -/
inductive SocketRecv
  | ok
  | failed (partly : Bool)

/-- The answer to a handshake request: it cannot be read, rejects the version (and names a
listed one or not) or accepts it. -/
inductive HandshakeAnswer
  | unreadable
  | rejected (listed : Bool)
  | accepted

/-- What becomes of the socket operations in one `_connect_version`. -/
structure Attempt where
  connected : Bool
  send : SocketSend
  recv : SocketRecv
  answer : HandshakeAnswer

def Socket.push (k : Socket) (message : ℕ) : Socket :=
  { k with inbox := k.inbox ++ [.answer message] }

/-- The first packet is read in part. -/
def Socket.tear (k : Socket) : Socket :=
  { k with inbox := match k.inbox with
      | [] => []
      | p :: rest => .torn p.message :: rest }

namespace Connection

def init : Connection := ⟨none, false, 0, [], []⟩

def closed (c : Connection) : Bool := c.socket.isNone

def alive (c : Connection) : Bool := !c.failed && !c.closed

def close (c : Connection) : Connection := { c with socket := none }

/-- `send(data, reconnect=False)`; the flag tells that it returns. -/
def sendOnce (message : ℕ) (isRequest : Bool) (o : SocketSend) (c : Connection) :
    Bool × Connection :=
  match c.socket with
  | none => (false, c)
  | some k =>
    let writes := c.writes ++ [⟨message, isRequest, k.handshaken⟩]
    match o with
    | .ok => (true, { c with socket := some (k.push message), writes := writes })
    | .failed received =>
      (false, { c with
        socket := some (if received then k.push message else k)
        failed := true
        writes := writes })

/-- `recv(reconnect=False)`: a packet, or an exception. It does not return one that the
server does not send. -/
def recvOnce (o : SocketRecv) (c : Connection) : Option (Option Packet × Connection) :=
  match c.socket, o with
  | none, _ => some (none, c)
  | some ⟨_, []⟩, .ok => none
  | some ⟨handshaken, p :: inbox⟩, .ok =>
    some (some p, { c with socket := some ⟨handshaken, inbox⟩ })
  | some k, .failed partly =>
    some (none, { c with socket := some (if partly then k.tear else k), failed := true })

/-- How `_connect_version` ends, where `connect` tells it apart. -/
inductive Handshake
  | raised
  | again
  | accepted

/-- `_connect_version`, and the success noted by `connect`. -/
def connectVersion (a : Attempt) (c : Connection) : Option (Handshake × Connection) :=
  let c := { c with socket := some ⟨false, []⟩, messages := c.messages + 1 }
  if !a.connected then some (.raised, c)
  else
    match sendOnce (c.messages - 1) false a.send c with
    | (false, c) => some (.raised, c)
    | (true, c) =>
      match recvOnce a.recv c with
      | none => none
      | some (none, c) => some (.raised, c)
      | some (some _, c) =>
        match a.answer with
        | .unreadable => some (.raised, c)
        | .rejected listed => some (if listed then .again else .raised, c.close)
        | .accepted => some (.accepted,
          { c with socket := c.socket.map fun k => { k with handshaken := true } })

/-- `connect`; the flag tells that it returns. `none` is a call that does not end. -/
def connect : List Attempt → Connection → Option (Bool × Connection)
  | [], _ => none
  | a :: as, c =>
    match connectVersion a c with
    | none => none
    | some (.raised, c) => some (false, { c with failed := true })
    | some (.again, c) => connect as c
    | some (.accepted, c) => some (true, { c with failed := false })

/-- `reconnect`. -/
def reconnect (as : List Attempt) (c : Connection) : Option Connection :=
  if c.alive then some c else (connect as c.close).map (·.2)

/-- `send(data)`. -/
def send (message : ℕ) (o : SocketSend) (as : List Attempt) (c : Connection) :
    Option (Bool × Connection) :=
  if c.closed then some (false, c)
  else
    match sendOnce message true o c with
    | (true, c) => some (true, c)
    | (false, c) => (reconnect as c).map fun c => (false, c)

/-- `recv()`. -/
def recv (o : SocketRecv) (as : List Attempt) (c : Connection) :
    Option (Option Packet × Connection) :=
  if c.closed then some (none, c)
  else
    match recvOnce o c with
    | none => none
    | some (some p, c) => some (some p, c)
    | some (none, c) => (reconnect as c).map fun c => (none, c)

/-- `request`; its message is the next one. -/
def request (s : SocketSend) (r : SocketRecv) (as : List Attempt) (c : Connection) :
    Option Connection :=
  let m := c.messages
  let c := { c with messages := m + 1 }
  match send m s as c with
  | none => none
  | some (false, c) => some c
  | some (true, c) =>
    match recv r as c with
    | none => none
    | some (none, c) => some c
    | some (some p, c) => some { c with returned := c.returned ++ [(m, p)] }

end Connection

inductive ConnectionCall
  | connect (attempts : List Attempt)
  | reconnect (attempts : List Attempt)
  | close
  | request (send : SocketSend) (recv : SocketRecv) (attempts : List Attempt)

def Connection.step (c : Connection) : ConnectionCall → Option Connection
  | .connect as => (c.connect as).map (·.2)
  | .reconnect as => c.reconnect as
  | .close => some c.close
  | .request s r as => c.request s r as

/-- No request is made while the connection is failed and its socket is not closed. -/
def Connection.Usable (c : Connection) : ConnectionCall → Prop
  | .request _ _ _ => c.closed ∨ c.failed = false
  | _ => True

instance (c : Connection) : ∀ a, Decidable (c.Usable a)
  | .connect _ => inferInstanceAs (Decidable True)
  | .reconnect _ => inferInstanceAs (Decidable True)
  | .close => inferInstanceAs (Decidable True)
  | .request _ _ _ => inferInstanceAs (Decidable (c.closed ∨ c.failed = false))

/-- Requests were written to sockets whose handshake had succeeded, no message was written
twice, and what requests returned is the answer to them. -/
structure Connection.Paired (c : Connection) : Prop where
  handshaken : ∀ w ∈ c.writes, w.isRequest = true → w.handshaken = true
  once : (c.writes.map (·.message)).Nodup
  own : ∀ r ∈ c.returned, r.2 = .answer r.1

namespace Connection

variable {c t : Connection} {as : List Attempt}

/-- Nothing was requested meanwhile: what was written are messages made for handshakes, each
once. -/
structure Quiet (c t : Connection) : Prop where
  writes : ∃ ws, t.writes = c.writes ++ ws ∧
    (∀ w ∈ ws, w.isRequest = false ∧ c.messages ≤ w.message ∧ w.message < t.messages) ∧
    (ws.map (·.message)).Nodup
  returned : t.returned = c.returned
  messages : c.messages ≤ t.messages

theorem Quiet.of_eq (hwrites : t.writes = c.writes) (hreturned : t.returned = c.returned)
    (hmessages : c.messages ≤ t.messages) : Quiet c t :=
  ⟨⟨[], by rw [hwrites, List.append_nil], by simp, List.nodup_nil⟩, hreturned, hmessages⟩

theorem Quiet.refl (c : Connection) : Quiet c c := .of_eq rfl rfl le_rfl

theorem Quiet.trans {u : Connection} (h : Quiet c t) (h' : Quiet t u) : Quiet c u := by
  obtain ⟨ws, hws, hnew, honce⟩ := h.writes
  obtain ⟨ws', hws', hnew', honce'⟩ := h'.writes
  refine ⟨⟨ws ++ ws', ?_, ?_, ?_⟩, h'.returned.trans h.returned, h.messages.trans h'.messages⟩
  · rw [hws', hws, List.append_assoc]
  · intro w hw
    rcases List.mem_append.mp hw with hw | hw
    · obtain ⟨hkind, hle, hlt⟩ := hnew w hw
      exact ⟨hkind, hle, hlt.trans_le h'.messages⟩
    · obtain ⟨hkind, hle, hlt⟩ := hnew' w hw
      exact ⟨hkind, h.messages.trans hle, hlt⟩
  · rw [List.map_append]
    refine List.nodup_append.mpr ⟨honce, honce', ?_⟩
    intro m hm m' hm' heq
    obtain ⟨w, hw, rfl⟩ := List.mem_map.mp hm
    obtain ⟨w', hw', rfl⟩ := List.mem_map.mp hm'
    have hlt := (hnew w hw).2.2
    have hle := (hnew' w' hw').2.1
    omega

/-- A socket that can be used has its handshake behind it and no packet before it. -/
def Ready (c : Connection) : Prop := ∀ k, c.socket = some k → c.failed = false → k = ⟨true, []⟩

/-- A handshake request was written. -/
theorem Quiet.handshake (hwrites : t.writes = c.writes ++ [⟨c.messages, false, false⟩])
    (hreturned : t.returned = c.returned) (hmessages : t.messages = c.messages + 1) :
    Quiet c t := by
  refine ⟨⟨_, hwrites, ?_, List.nodup_singleton _⟩, hreturned, by omega⟩
  intro w hw
  rw [List.mem_singleton.mp hw, hmessages]
  exact ⟨rfl, le_rfl, Nat.lt_succ_self _⟩

/-- An accepted handshake leaves a new socket from which its answer was read. -/
theorem connectVersion_spec {a : Attempt} {r : Handshake} (h : connectVersion a c = some (r, t)) :
    Quiet c t ∧ (r = .accepted → t.socket = some ⟨true, []⟩) := by
  obtain ⟨connected, send, recv, answer⟩ := a
  cases connected with
  | false =>
    obtain ⟨rfl, rfl⟩ := Prod.mk.inj (Option.some.inj h)
    exact ⟨.of_eq rfl rfl (Nat.le_succ _), fun hr => by cases hr⟩
  | true =>
    cases send with
    | failed received =>
      obtain ⟨rfl, rfl⟩ := Prod.mk.inj (Option.some.inj h)
      exact ⟨.handshake rfl rfl rfl, fun hr => by cases hr⟩
    | ok =>
      cases recv with
      | failed partly =>
        obtain ⟨rfl, rfl⟩ := Prod.mk.inj (Option.some.inj h)
        exact ⟨.handshake rfl rfl rfl, fun hr => by cases hr⟩
      | ok =>
        cases answer with
        | unreadable =>
          obtain ⟨rfl, rfl⟩ := Prod.mk.inj (Option.some.inj h)
          exact ⟨.handshake rfl rfl rfl, fun hr => by cases hr⟩
        | rejected listed =>
          obtain ⟨rfl, rfl⟩ := Prod.mk.inj (Option.some.inj h)
          refine ⟨.handshake rfl rfl rfl, fun hr => ?_⟩
          cases listed <;> cases hr
        | accepted =>
          obtain ⟨rfl, rfl⟩ := Prod.mk.inj (Option.some.inj h)
          exact ⟨.handshake rfl rfl rfl, fun _ => rfl⟩

theorem connect_spec {ok : Bool} (h : connect as c = some (ok, t)) : Quiet c t ∧ t.Ready := by
  induction as generalizing c with
  | nil => cases h
  | cons a as ih =>
    unfold connect at h
    split at h
    · cases h
    case h_2 u hu =>
      obtain ⟨-, rfl⟩ := Prod.mk.inj (Option.some.inj h)
      obtain ⟨hquiet, -⟩ := connectVersion_spec hu
      exact ⟨⟨hquiet.writes, hquiet.returned, hquiet.messages⟩, fun _ _ hno => by cases hno⟩
    case h_3 u hu =>
      obtain ⟨hquiet, hready⟩ := ih h
      exact ⟨(connectVersion_spec hu).1.trans hquiet, hready⟩
    case h_4 u hu =>
      obtain ⟨-, rfl⟩ := Prod.mk.inj (Option.some.inj h)
      obtain ⟨hquiet, hsocket⟩ := connectVersion_spec hu
      refine ⟨⟨hquiet.writes, hquiet.returned, hquiet.messages⟩, fun k hk _ => ?_⟩
      exact Option.some.inj (hk.symm.trans (hsocket rfl))

theorem reconnect_spec (hc : c.Ready) (h : reconnect as c = some t) : Quiet c t ∧ t.Ready := by
  unfold reconnect at h
  split_ifs at h
  · obtain rfl := Option.some.inj h
    exact ⟨Quiet.refl c, hc⟩
  · obtain ⟨⟨ok, u⟩, hu, rfl⟩ := Option.map_eq_some_iff.mp h
    obtain ⟨hquiet, hready⟩ := connect_spec hu
    exact ⟨⟨hquiet.writes, hquiet.returned, hquiet.messages⟩, hready⟩

/-- The invariant. -/
structure Inv (c : Connection) : Prop where
  paired : c.Paired
  made : ∀ w ∈ c.writes, w.message < c.messages
  ready : c.Ready

theorem Inv.init : init.Inv := by
  refine ⟨⟨?_, ?_, ?_⟩, ?_, ?_⟩
  · intro w hw
    cases hw
  · exact List.nodup_nil
  · intro r hr
    cases hr
  · intro w hw
    cases hw
  · intro k hk
    cases hk

/-- Messages made later than all that were written are no second writes. -/
theorem Inv.once_append {ws : List SocketWrite} (hc : c.Inv)
    (hnew : ∀ w ∈ ws, c.messages ≤ w.message) (honce : (ws.map (·.message)).Nodup) :
    ((c.writes ++ ws).map (·.message)).Nodup := by
  rw [List.map_append]
  refine List.nodup_append.mpr ⟨hc.paired.once, honce, ?_⟩
  intro m hm m' hm' heq
  obtain ⟨w, hw, rfl⟩ := List.mem_map.mp hm
  obtain ⟨w', hw', rfl⟩ := List.mem_map.mp hm'
  have hlt := hc.made w hw
  have hle := hnew w' hw'
  omega

theorem Inv.quiet (hc : c.Inv) (hquiet : Quiet c t) (hready : t.Ready) : t.Inv := by
  obtain ⟨ws, hws, hnew, honce⟩ := hquiet.writes
  refine ⟨⟨?_, ?_, ?_⟩, ?_, hready⟩
  · intro w hw hkind
    rcases List.mem_append.mp (hws ▸ hw) with hw | hw
    · exact hc.paired.handshaken w hw hkind
    · rw [(hnew w hw).1] at hkind
      cases hkind
  · rw [hws]
    exact hc.once_append (fun w hw => (hnew w hw).2.1) honce
  · rw [hquiet.returned]
    exact hc.paired.own
  · intro w hw
    rcases List.mem_append.mp (hws ▸ hw) with hw | hw
    · exact (hc.made w hw).trans_le hquiet.messages
    · exact (hnew w hw).2.2

/-- After a failure, the socket is closed and another is connected. -/
theorem Inv.after_failure {u : Connection} (hc : c.Inv) (hquiet : Quiet c u)
    (hfailed : u.failed = true) (h : reconnect as u = some t) : t.Inv := by
  have hready : u.Ready := by
    intro k _ hno
    rw [hfailed] at hno
    cases hno
  obtain ⟨hquiet', hready'⟩ := reconnect_spec hready h
  exact hc.quiet (hquiet.trans hquiet') hready'

/-- A request is written to a socket that can be used. -/
theorem Inv.written (hc : c.Inv) : Inv { c with
    messages := c.messages + 1
    writes := c.writes ++ [⟨c.messages, true, true⟩] } := by
  refine ⟨⟨?_, ?_, hc.paired.own⟩, ?_, hc.ready⟩
  · intro w hw hkind
    rcases List.mem_append.mp hw with hw | hw
    · exact hc.paired.handshaken w hw hkind
    · rw [List.mem_singleton.mp hw]
  · refine hc.once_append (fun w hw => ?_) (List.nodup_singleton _)
    rw [List.mem_singleton.mp hw]
  · intro w hw
    rcases List.mem_append.mp hw with hw | hw
    · exact (hc.made w hw).trans (Nat.lt_succ_self _)
    · rw [List.mem_singleton.mp hw]
      exact Nat.lt_succ_self _

/-- A request whose `sendall` or `recv` fails comes to a reconnect. -/
theorem request_send_failed (k : Socket) (failed : Bool) (m : ℕ) (writes : List SocketWrite)
    (returned : List (ℕ × Packet)) (received : Bool) (r : SocketRecv) (as : List Attempt) :
    Connection.request (.failed received) r as ⟨some k, failed, m, writes, returned⟩ =
      reconnect as ⟨some (if received then k.push m else k), true, m + 1,
        writes ++ [⟨m, true, k.handshaken⟩], returned⟩ := by
  unfold Connection.request Connection.send
  simp only [closed, sendOnce]
  cases reconnect as _ <;> rfl

theorem request_recv_failed (k : Socket) (failed : Bool) (m : ℕ) (writes : List SocketWrite)
    (returned : List (ℕ × Packet)) (partly : Bool) (as : List Attempt) :
    Connection.request .ok (.failed partly) as ⟨some k, failed, m, writes, returned⟩ =
      reconnect as ⟨some (if partly then (k.push m).tear else k.push m), true, m + 1,
        writes ++ [⟨m, true, k.handshaken⟩], returned⟩ := by
  unfold Connection.request Connection.send Connection.recv
  simp only [closed, sendOnce, Option.isNone_some, Bool.false_eq_true, if_false]
  simp only [recvOnce]
  cases reconnect as _ <;> rfl

theorem Inv.request {s : SocketSend} {r : SocketRecv} (hc : c.Inv)
    (husable : c.closed ∨ c.failed = false) (h : c.request s r as = some t) : t.Inv := by
  obtain ⟨socket, failed, messages, writes, returned⟩ := c
  cases socket with
  | none =>
    obtain rfl := Option.some.inj h
    refine hc.quiet (.of_eq rfl rfl (Nat.le_succ _)) fun k hk => ?_
    cases hk
  | some k =>
    obtain rfl : failed = false := husable.resolve_left (by simp [closed])
    obtain rfl : k = ⟨true, []⟩ := hc.ready k rfl rfl
    have hwritten := hc.written
    cases s with
    | failed received =>
      rw [request_send_failed] at h
      refine hwritten.after_failure ?_ ?_ h
      · exact .of_eq rfl rfl le_rfl
      · rfl
    | ok =>
      cases r with
      | failed partly =>
        rw [request_recv_failed] at h
        refine hwritten.after_failure ?_ ?_ h
        · exact .of_eq rfl rfl le_rfl
        · rfl
      | ok =>
        obtain rfl := Option.some.inj h
        refine ⟨⟨hwritten.paired.handshaken, hwritten.paired.once, ?_⟩, hwritten.made, ?_⟩
        · intro r hr
          rcases List.mem_append.mp hr with hr | hr
          · exact hwritten.paired.own r hr
          · rw [List.mem_singleton.mp hr]
        · intro k hk _
          exact (Option.some.inj hk).symm

theorem Inv.step {a : ConnectionCall} (hc : c.Inv) (hok : c.Usable a) (h : c.step a = some t) :
    t.Inv := by
  cases a with
  | connect as =>
    obtain ⟨⟨ok, u⟩, hu, rfl⟩ := Option.map_eq_some_iff.mp h
    obtain ⟨hquiet, hready⟩ := connect_spec hu
    exact hc.quiet hquiet hready
  | reconnect as =>
    obtain ⟨hquiet, hready⟩ := reconnect_spec hc.ready h
    exact hc.quiet hquiet hready
  | close =>
    obtain rfl := Option.some.inj h
    refine hc.quiet (.of_eq rfl rfl le_rfl) fun k hk => ?_
    cases hk
  | request s r as => exact hc.request hok h

end Connection

/-- In a run in which no request is made while the connection is failed and its socket is
not closed, requests and responses are paired. -/
theorem requests_paired {as : List ConnectionCall} {c : Connection}
    (hok : Along Connection.step Connection.Usable Connection.init as)
    (hrun : run Connection.step Connection.init as = some c) : c.Paired :=
  (along_invariant (fun _ _ _ hc ho ht => hc.step ho ht) Connection.Inv.init hok hrun).paired

/-- A response that times out, a reconnect, and another request. -/
theorem requests_paired_reconnect :
    let accepted : Attempt := ⟨true, .ok, .ok, .accepted⟩
    let as : List ConnectionCall := [.connect [accepted], .request .ok .ok [],
      .request .ok (.failed true) [⟨true, .ok, .ok, .rejected true⟩, accepted], .request .ok .ok []]
    ∃ c, run Connection.step Connection.init as = some c ∧ c.Paired := by
  intro accepted as
  obtain ⟨c, hc⟩ := Option.isSome_iff_exists.mp (by decide :
    (run Connection.step Connection.init as).isSome)
  exact ⟨c, hc, requests_paired (by decide) hc⟩

/-- A response times out, and so does the handshake of the silenced reconnect: the next
request of a cursor is sent over that socket, and what it returns is the answer to the
handshake. -/
theorem request_returns_late_handshake :
    ∃ c, run Connection.step Connection.init [.connect [⟨true, .ok, .ok, .accepted⟩],
        .request .ok (.failed false) [⟨true, .ok, .failed false, .accepted⟩],
        .request .ok .ok []] = some c ∧
      c.writes = [⟨0, false, false⟩, ⟨1, true, true⟩, ⟨2, false, false⟩, ⟨3, true, false⟩] ∧
      c.returned = [(3, .answer 2)] ∧ ¬c.Paired := by
  refine ⟨_, rfl, rfl, rfl, fun h => ?_⟩
  have hown := h.own (3, .answer 2) (by decide)
  cases hown

end PyGridGain
