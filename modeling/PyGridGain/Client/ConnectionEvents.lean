import PyGridGain.Client.QueryEvents
import PyGridGain.Connection.Handshake
import PyGridGain.Datatypes.Value

/-! The events of connections. A listener is told of handshakes, of connections that are lost and of
those that are closed; from these alone it can tell at any time which connections are alive, and to
which nodes they lead. -/

namespace PyGridGain

/-- What is published of a connection. -/
inductive ConnectionEvent
  | handshakeStart (protocolContext : Option ProtocolContext)
  | handshakeSuccess (protocolContext : Option ProtocolContext) (nodeUuid : Option UUID)
  | handshakeFail (protocolContext : Option ProtocolContext) (err : ConnectError)
  | authenticationFail (protocolContext : Option ProtocolContext) (err : ConnectError)
  | connectionClosed (nodeUuid : Option UUID)
  | connectionLost (nodeUuid : Option UUID) (err : ConnectError)

/-! ### The client -/

/-- A synchronous `Connection`: whether it has a socket, the flag `failed` and the node. -/
structure WatchedConnection where
  socket : Bool
  failed : Bool
  uuid : Option UUID

namespace WatchedConnection

def init : WatchedConnection := ⟨false, false, none⟩

def closed (k : WatchedConnection) : Bool := !k.socket

def alive (k : WatchedConnection) : Bool := !k.failed && !k.closed

end WatchedConnection

/-- A client: its protocol context, its connections, and the events published so far with the
connection that each is about. -/
structure WatchedClient where
  context : Option ProtocolContext
  connections : ℕ → WatchedConnection
  published : List (ℕ × ConnectionEvent)

/-- What comes of one `_connect_version`, and the node that an accepted handshake names. -/
structure HandshakeAttempt where
  attempt : ConnectAttempt
  nodeUuid : Option UUID

namespace WatchedClient

def init : WatchedClient := ⟨none, fun _ => .init, []⟩

def publish (c : ℕ) (e : ConnectionEvent) (s : WatchedClient) : WatchedClient :=
  { s with published := s.published ++ [(c, e)] }

def setConnection (c : ℕ) (k : WatchedConnection) (s : WatchedClient) : WatchedClient :=
  { s with connections := Function.update s.connections c k }

/-- `_on_handshake_start`. -/
def onHandshakeStart (c : ℕ) (s : WatchedClient) : WatchedClient :=
  s.publish c (.handshakeStart s.context)

/-- `_on_handshake_success`. -/
def onHandshakeSuccess (c : ℕ) (features : Option ℕ) (nodeUuid : Option UUID)
    (s : WatchedClient) : WatchedClient :=
  let s : WatchedClient := { s with context := s.context.map (·.setFeatures features) }
  (s.setConnection c { s.connections c with uuid := nodeUuid, failed := false }).publish c
    (.handshakeSuccess s.context nodeUuid)

/-- `_on_handshake_fail`. -/
def onHandshakeFail (c : ℕ) (err : ConnectError) (s : WatchedClient) : WatchedClient :=
  (s.setConnection c { s.connections c with failed := true }).publish c
    (match err with
      | .authenticationError _ => .authenticationFail s.context err
      | _ => .handshakeFail s.context err)

/-- `_on_connection_lost`, of an expected loss if there is no error. -/
def onConnectionLost (c : ℕ) (err : Option ConnectError) (s : WatchedClient) : WatchedClient :=
  s.publish c (match err with
    | none => .connectionClosed (s.connections c).uuid
    | some err => .connectionLost (s.connections c).uuid err)

/-- `close`. -/
def close (onReconnect : Bool) (c : ℕ) (s : WatchedClient) : WatchedClient :=
  if (s.connections c).socket then
    let s := if !onReconnect && !(s.connections c).failed then s.onConnectionLost c none else s
    s.setConnection c { s.connections c with socket := false }
  else s

/-- `_connect_version`. A rejection closes the socket. -/
def connectVersion (c : ℕ) (a : HandshakeAttempt) (s : WatchedClient) :
    Except ConnectError Unit × WatchedClient :=
  let s := s.setConnection c { s.connections c with socket := true }
  match a.attempt, s.context with
  | .refused, _ => (.error .connectionError, s)
  | .opened _ _, none => (.error .attributeError, s)
  | .opened reply _, some context =>
    if context.canHandshake then
      match reply with
      | .dropped => (.error .connectionError, s)
      | .response r =>
        if r.opCode = 0 then
          (.error (processHandshakeError (some context.version) r), s.close false c)
        else (.ok (), s)
    else (.error .typeError, s)

/-- The loop of `connect`; `none` where it has not ended. -/
def connectLoop (detectingProtocol : Bool) (c : ℕ) :
    List HandshakeAttempt → WatchedClient → Option (Except ConnectError Unit × WatchedClient)
  | [], _ => none
  | a :: as, s =>
    match (s.onHandshakeStart c).connectVersion c a with
    | (.ok (), s) => some (.ok (), s.onHandshakeSuccess c a.attempt.features a.nodeUuid)
    | (.error e, s) =>
      match e with
      | .handshakeError expectedVersion _ =>
        match listedVersion expectedVersion with
        | some v =>
          connectLoop detectingProtocol c as { s with context := s.context.map (·.setVersion v) }
        | none => some (.error e, s.onHandshakeFail c e)
      | .authenticationError _ => some (.error e, s.onHandshakeFail c e)
      | _ =>
        let s := s.onHandshakeFail c e
        some (.error e, if detectingProtocol then { s with context := none } else s)

/-- `connect`. -/
def connect (c : ℕ) (as : List HandshakeAttempt) (s : WatchedClient) :
    Option (Except ConnectError Unit × WatchedClient) :=
  connectLoop s.context.isNone c as { s with context := some (s.context.getD .first) }

/-- `reconnect`: connection errors are silenced. -/
def reconnect (c : ℕ) (as : List HandshakeAttempt) (s : WatchedClient) :
    Option (Except ConnectError Unit × WatchedClient) :=
  if (s.connections c).alive then some (.ok (), s)
  else
    match (s.close true c).connect c as with
    | some (.error e, s) => some (if e.isConnectionError then .ok () else .error e, s)
    | r => r

/-- `request`, in which `sendall` or `recv_into` raises a connection error or none does. -/
def request (c : ℕ) (lost : Bool) (as : List HandshakeAttempt) (s : WatchedClient) :
    Option (Except ConnectError Unit × WatchedClient) :=
  if (s.connections c).closed then some (.error .connectionError, s)
  else if lost then
    let s := s.setConnection c { s.connections c with failed := true }
    match (s.onConnectionLost c (some .connectionError)).reconnect c as with
    | some (.ok (), s) => some (.error .connectionError, s)
    | r => r
  else some (.ok (), s)

end WatchedClient

/-- Calls on the connections of a client. -/
inductive WatchedCall
  | connect (c : ℕ) (attempts : List HandshakeAttempt)
  | reconnect (c : ℕ) (attempts : List HandshakeAttempt)
  | request (c : ℕ) (lost : Bool) (attempts : List HandshakeAttempt)
  | close (c : ℕ)

def WatchedClient.step (s : WatchedClient) : WatchedCall → Option WatchedClient
  | .connect c as => (s.connect c as).map (·.2)
  | .reconnect c as => (s.reconnect c as).map (·.2)
  | .request c lost as => (s.request c lost as).map (·.2)
  | .close c => some (s.close false c)

/-! ### Listeners -/

/-- `_EventListeners.__init__`: the positions of those kept as connection listeners. -/
def connectionListeners (listeners : List EventListener) : List ℕ :=
  (listeners.zipIdx.filter fun l => l.1.connection).map (·.2)

/-- `__publish_connection_events`, which is `__publish_query_events` for the other listeners. -/
def publishConnectionEvents (raises : ℕ → Bool) (listeners : List ℕ) : List ℕ :=
  publishQueryEvents raises listeners

/-- What the listener at `i` is given of the events published, at each of which handlers may
raise. -/
def received (listeners : List EventListener) (raises : ℕ → ℕ → Bool) (i : ℕ)
    (published : List (ℕ × ConnectionEvent)) : List (ℕ × ConnectionEvent) :=
  (published.zipIdx.filter fun e =>
    i ∈ publishConnectionEvents (raises e.2) (connectionListeners listeners)).map (·.1)

/-- The events about a connection. -/
def eventsAbout (c : ℕ) (events : List (ℕ × ConnectionEvent)) : List ConnectionEvent :=
  (events.filter fun e => e.1 = c).map (·.2)

/-- What a listener can know of a connection. -/
inductive Seen
  | down
  | shaking (protocolContext : Option ProtocolContext)
  | up (nodeUuid : Option UUID)
  deriving DecidableEq

namespace Seen

/-- How an event changes that. A rejected handshake may close its socket before the next is tried,
and a request on a connection whose handshake has failed may lose it once more; else a connection is
lost or closed just when it was up, and the event names the node that it led to. A handshake that
succeeds keeps the version and brings the features. -/
def follow : Seen → ConnectionEvent → Option Seen
  | _, .handshakeStart context => some (.shaking context)
  | .shaking context, .handshakeSuccess context' nodeUuid =>
    if context'.map (·.version) = context.map (·.version) then some (.up nodeUuid) else none
  | .shaking context, .handshakeFail context' _ => if context' = context then some .down else none
  | .shaking context, .authenticationFail context' _ =>
    if context' = context then some .down else none
  | .shaking context, .connectionClosed _ => some (.shaking context)
  | .up nodeUuid, .connectionClosed nodeUuid' => if nodeUuid' = nodeUuid then some .down else none
  | .up nodeUuid, .connectionLost nodeUuid' _ => if nodeUuid' = nodeUuid then some .down else none
  | .down, .connectionLost _ _ => some .down
  | _, _ => none

/-- What is known of a connection between calls is right. -/
def Matches (k : WatchedConnection) : Seen → Prop
  | .down => k.alive = false
  | .shaking _ => False
  | .up nodeUuid => k.alive ∧ k.uuid = nodeUuid

end Seen

/-- Something is done with a connection, by which a listener comes from `p` to know `q`. -/
structure Shows (c : ℕ) (s t : WatchedClient) (p q : Seen) : Prop where
  others : ∀ d, d ≠ c → t.connections d = s.connections d
  published : ∃ es, t.published = s.published ++ es.map (Prod.mk c) ∧
    run Seen.follow p es = some q

namespace Shows
variable {c : ℕ} {s t u : WatchedClient} {p q : Seen}

theorem trans {r : Seen} (h : Shows c s t p q) (h' : Shows c t u q r) : Shows c s u p r := by
  obtain ⟨es, hes, hrun⟩ := h.published
  obtain ⟨es', hes', hrun'⟩ := h'.published
  refine ⟨fun d hd => (h'.others d hd).trans (h.others d hd), es ++ es', ?_, ?_⟩
  · rw [hes', hes, List.map_append, List.append_assoc]
  · rw [run_trans hrun, hrun']

theorem publish {e : ConnectionEvent} (h : p.follow e = some q) (s : WatchedClient) :
    Shows c s (s.publish c e) p q := by
  refine ⟨fun _ _ => rfl, [e], rfl, ?_⟩
  rw [run, h]
  rfl

theorem setConnection (k : WatchedConnection) (s : WatchedClient) (p : Seen) :
    Shows c s (s.setConnection c k) p p :=
  ⟨fun _ hd => Function.update_of_ne hd _ _, [], (List.append_nil _).symm, rfl⟩

theorem context (v : Option ProtocolContext) (s : WatchedClient) (p : Seen) :
    Shows c s { s with context := v } p p :=
  ⟨fun _ _ => rfl, [], (List.append_nil _).symm, rfl⟩

theorem refl (s : WatchedClient) (p : Seen) : Shows c s s p p :=
  context s.context s p

/-- What is known of the other connections stays right, and that of this one is. -/
theorem eventsAbout_published (h : Shows c s t p q)
    (hp : run Seen.follow .down (eventsAbout c s.published) = some p) :
    run Seen.follow .down (eventsAbout c t.published) = some q := by
  obtain ⟨es, hes, hrun⟩ := h.published
  have hevents : eventsAbout c t.published = eventsAbout c s.published ++ es := by
    have hall : (es.map (Prod.mk c)).filter (fun e => e.1 = c) = es.map (Prod.mk c) := by
      apply List.filter_eq_self.mpr
      intro e he
      obtain ⟨e', -, rfl⟩ := List.mem_map.mp he
      exact decide_eq_true rfl
    rw [hes, eventsAbout, List.filter_append, List.map_append, hall, List.map_map]
    exact congrArg (_ ++ ·) (List.map_id es)
  rw [hevents, run_trans hp, hrun]

theorem eventsAbout_other (h : Shows c s t p q) {d : ℕ} (hd : d ≠ c) :
    eventsAbout d t.published = eventsAbout d s.published := by
  obtain ⟨es, hes, -⟩ := h.published
  rw [hes, eventsAbout, List.filter_append, List.map_append]
  have hnone : (es.map (Prod.mk c)).filter (fun e => e.1 = d) = [] := by
    apply List.filter_eq_nil_iff.mpr
    intro e he
    obtain ⟨e', -, rfl⟩ := List.mem_map.mp he
    simpa using hd.symm
  rw [hnone]
  exact List.append_nil _

end Shows

namespace WatchedClient
variable {c : ℕ} {s t : WatchedClient} {a : HandshakeAttempt} {p : Seen}
  {r : Except ConnectError Unit}

@[simp] theorem setConnection_same (k : WatchedConnection) (s : WatchedClient) :
    (s.setConnection c k).connections c = k := Function.update_self _ _ _

/-- A socket that is closed within a handshake. -/
theorem close_shaking (v : Option ProtocolContext) (s : WatchedClient) :
    Shows c s (s.close false c) (.shaking v) (.shaking v) ∧
      (s.close false c).context = s.context := by
  unfold close
  split_ifs with hsocket hfailed
  · exact ⟨(Shows.publish rfl s).trans (.setConnection _ _ _), rfl⟩
  · exact ⟨.setConnection _ _ _, rfl⟩
  · exact ⟨.refl _ _, rfl⟩

/-- A handshake opens a socket, and closes it again if it is rejected. -/
theorem connectVersion_outcomes (h : s.connectVersion c a = (r, t)) :
    let opened := s.setConnection c { s.connections c with socket := true }
    (∃ e, r = .error e ∧ (t = opened ∨ t = opened.close false c)) ∨ r = .ok () ∧ t = opened := by
  unfold connectVersion at h
  dsimp only at h
  split at h
  case h_3 =>
    split_ifs at h
    · split at h
      · obtain ⟨rfl, rfl⟩ := Prod.mk.inj h
        exact .inl ⟨_, rfl, .inl rfl⟩
      · split_ifs at h
        · obtain ⟨rfl, rfl⟩ := Prod.mk.inj h
          exact .inl ⟨_, rfl, .inr rfl⟩
        · obtain ⟨rfl, rfl⟩ := Prod.mk.inj h
          exact .inr ⟨rfl, rfl⟩
    · obtain ⟨rfl, rfl⟩ := Prod.mk.inj h
      exact .inl ⟨_, rfl, .inl rfl⟩
  all_goals
    obtain ⟨rfl, rfl⟩ := Prod.mk.inj h
    exact .inl ⟨_, rfl, .inl rfl⟩

theorem connectVersion_cases (h : s.connectVersion c a = (r, t)) (v : Option ProtocolContext) :
    Shows c s t (.shaking v) (.shaking v) ∧ t.context = s.context ∧
      (r = .ok () → (t.connections c).socket) := by
  have hset := Shows.setConnection (c := c) { s.connections c with socket := true } s (.shaking v)
  obtain ⟨hclose, hcontext⟩ :=
    close_shaking (c := c) v (s.setConnection c { s.connections c with socket := true })
  rcases connectVersion_outcomes h with ⟨e, rfl, rfl | rfl⟩ | ⟨rfl, rfl⟩
  · exact ⟨hset, rfl, fun hr => nomatch hr⟩
  · exact ⟨hset.trans hclose, hcontext, fun hr => nomatch hr⟩
  · exact ⟨hset, rfl, fun _ => by simp⟩

theorem onHandshakeFail_shows (e : ConnectError) (s : WatchedClient) :
    Shows c s (s.onHandshakeFail c e) (.shaking s.context) .down ∧
      Seen.down.Matches ((s.onHandshakeFail c e).connections c) := by
  constructor
  · refine (Shows.setConnection { s.connections c with failed := true } s _).trans (.publish ?_ _)
    cases e <;> exact if_pos rfl
  · simp [Seen.Matches, onHandshakeFail, publish, WatchedConnection.alive]

theorem onHandshakeSuccess_shows (hsocket : (s.connections c).socket) (features : Option ℕ)
    (nodeUuid : Option UUID) :
    Shows c s (s.onHandshakeSuccess c features nodeUuid) (.shaking s.context) (.up nodeUuid) ∧
      (Seen.up nodeUuid).Matches ((s.onHandshakeSuccess c features nodeUuid).connections c) := by
  constructor
  · have hfollow : Seen.follow (.shaking s.context) (.handshakeSuccess
        (s.context.map (·.setFeatures features)) nodeUuid) = some (.up nodeUuid) :=
      if_pos (by cases s.context <;> rfl)
    have hcontext := Shows.context (c := c) (s.context.map (·.setFeatures features)) s
      (.shaking s.context)
    exact hcontext.trans ((Shows.setConnection _ _ _).trans (.publish hfollow _))
  · simp [Seen.Matches, onHandshakeSuccess, publish, WatchedConnection.alive,
      WatchedConnection.closed, hsocket]

/-- A handshake, whatever was known before. -/
theorem connectLoop_shows {detectingProtocol : Bool} {as : List HandshakeAttempt}
    (h : s.connectLoop detectingProtocol c as = some (r, t)) (p : Seen) :
    ∃ q, Shows c s t p q ∧ q.Matches (t.connections c) := by
  induction as generalizing s p with
  | nil => cases h
  | cons a as ih =>
    have hstart : Shows c s (s.onHandshakeStart c) p (.shaking s.context) :=
      .publish (by cases p <;> rfl) s
    unfold connectLoop at h
    rcases hversion : (s.onHandshakeStart c).connectVersion c a with ⟨r', u⟩
    obtain ⟨hshows, hcontext, hsocket⟩ := connectVersion_cases hversion s.context
    have hcontext' : u.context = s.context := hcontext
    rw [hversion] at h
    have hall := hstart.trans hshows
    rw [← hcontext'] at hall
    have hfail (e : ConnectError) : ∃ q, Shows c s (u.onHandshakeFail c e) p q ∧
        q.Matches ((u.onHandshakeFail c e).connections c) :=
      ⟨.down, hall.trans (onHandshakeFail_shows e u).1, (onHandshakeFail_shows e u).2⟩
    have hreset (e : ConnectError) : ∃ q, Shows c s (if detectingProtocol then
        { u.onHandshakeFail c e with context := none } else u.onHandshakeFail c e) p q ∧
        q.Matches ((if detectingProtocol then
          { u.onHandshakeFail c e with context := none } else u.onHandshakeFail c e).connections
            c) := by
      obtain ⟨q, hq, hmatches⟩ := hfail e
      split_ifs
      exacts [⟨q, hq.trans (.context none _ _), hmatches⟩, ⟨q, hq, hmatches⟩]
    rcases r' with e | ⟨⟩
    · cases e with
      | handshakeError expectedVersion message =>
        dsimp only at h
        cases hlisted : listedVersion expectedVersion with
        | some v =>
          rw [hlisted] at h
          obtain ⟨q, hq, hmatches⟩ := ih h (.shaking u.context)
          exact ⟨q, hall.trans ((Shows.context _ u _).trans hq), hmatches⟩
        | none =>
          rw [hlisted] at h
          obtain ⟨-, rfl⟩ := Prod.mk.inj (Option.some.inj h)
          exact hfail _
      | authenticationError message =>
        obtain ⟨-, rfl⟩ := Prod.mk.inj (Option.some.inj h)
        exact hfail _
      | _ =>
        obtain ⟨-, rfl⟩ := Prod.mk.inj (Option.some.inj h)
        exact hreset _
    · obtain ⟨-, rfl⟩ := Prod.mk.inj (Option.some.inj h)
      obtain ⟨hup, hmatches⟩ := onHandshakeSuccess_shows (hsocket rfl) a.attempt.features a.nodeUuid
      exact ⟨_, hall.trans hup, hmatches⟩

theorem connectVersion_result (h : s.connectVersion c a = (r, t)) :
    tryVersion s.context a.attempt = r := by
  unfold connectVersion at h
  dsimp only at h
  split at h
  case h_1 hattempt =>
    rw [hattempt]
    exact (Prod.mk.inj h).1
  case h_2 hattempt hcontext =>
    rw [hattempt, show s.context = none from hcontext]
    exact (Prod.mk.inj h).1
  case h_3 hattempt hcontext =>
    rw [hattempt, show s.context = some _ from hcontext, tryVersion]
    split_ifs at h with hcan
    · rw [if_pos hcan]
      split at h
      · exact (Prod.mk.inj h).1
      · rw [PyGridGain.connectVersion]
        split_ifs at h with hcode
        · rw [if_pos hcode]
          exact (Prod.mk.inj h).1
        · rw [if_neg hcode]
          exact (Prod.mk.inj h).1
    · rw [if_neg hcan]
      exact (Prod.mk.inj h).1

/-- Apart from the events, this is the loop that handshakes are about. -/
theorem connectLoop_ended {detectingProtocol : Bool} {as : List HandshakeAttempt}
    {attempts : ℕ → ConnectAttempt} {i : ℕ}
    (hattempts : ∀ k (hk : k < as.length), attempts (i + k) = as[k].attempt)
    (h : s.connectLoop detectingProtocol c as = some (r, t)) :
    ∃ tried, PyGridGain.connectLoop detectingProtocol attempts as.length i s.context =
      some ⟨r, t.context, tried⟩ := by
  induction as generalizing s i with
  | nil => cases h
  | cons a as ih =>
    unfold connectLoop at h
    rcases hversion : (s.onHandshakeStart c).connectVersion c a with ⟨r', u⟩
    obtain ⟨-, hcontext, -⟩ := connectVersion_cases hversion none
    have hattempt : attempts i = a.attempt := hattempts 0 (Nat.zero_lt_succ _)
    have hresult : tryVersion s.context a.attempt = r' :=
      connectVersion_result (s := s.onHandshakeStart c) hversion
    have hsame : u.context = s.context := hcontext
    rw [hversion] at h
    rw [List.length_cons, PyGridGain.connectLoop, hattempt, hresult, ← hsame]
    rcases r' with e | ⟨⟩
    · cases e with
      | handshakeError expectedVersion message =>
        dsimp only [settleVersion] at h ⊢
        cases hlisted : listedVersion expectedVersion with
        | some v =>
          rw [hlisted] at h
          have hshift : ∀ k (hk : k < as.length), attempts (i + 1 + k) = as[k].attempt := by
            intro k hk
            rw [Nat.add_right_comm, Nat.add_assoc i k 1]
            exact hattempts (k + 1) (Nat.succ_lt_succ hk)
          obtain ⟨tried, htried⟩ := ih hshift h
          exact ⟨_, Option.map_eq_some_iff.mpr ⟨_, htried, rfl⟩⟩
        | none =>
          rw [hlisted] at h
          obtain ⟨rfl, rfl⟩ := Prod.mk.inj (Option.some.inj h)
          exact ⟨_, rfl⟩
      | authenticationError message =>
        obtain ⟨rfl, rfl⟩ := Prod.mk.inj (Option.some.inj h)
        exact ⟨_, rfl⟩
      | _ =>
        obtain ⟨rfl, rfl⟩ := Prod.mk.inj (Option.some.inj h)
        cases detectingProtocol <;> exact ⟨_, rfl⟩
    · obtain ⟨rfl, rfl⟩ := Prod.mk.inj (Option.some.inj h)
      exact ⟨_, rfl⟩

theorem connect_shows {as : List HandshakeAttempt} (h : s.connect c as = some (r, t)) (p : Seen) :
    ∃ q, Shows c s t p q ∧ q.Matches (t.connections c) := by
  obtain ⟨q, hq, hmatches⟩ := connectLoop_shows h p
  exact ⟨q, (Shows.context _ s p).trans hq, hmatches⟩

/-- A connection that is not alive is closed without an event. -/
theorem close_onReconnect (s : WatchedClient) (p : Seen) : Shows c s (s.close true c) p p := by
  unfold close
  split_ifs with hsocket hexpected
  · cases hexpected
  · exact .setConnection _ s p
  · exact .refl s p

theorem reconnect_shows {as : List HandshakeAttempt} (h : s.reconnect c as = some (r, t))
    (hdead : (s.connections c).alive = false) (p : Seen) :
    ∃ q, Shows c s t p q ∧ q.Matches (t.connections c) := by
  unfold reconnect at h
  rw [if_neg (by simp [hdead])] at h
  have hconnect (r' : Except ConnectError Unit)
      (hr : (s.close true c).connect c as = some (r', t)) :
      ∃ q, Shows c s t p q ∧ q.Matches (t.connections c) := by
    obtain ⟨q, hq, hmatches⟩ := connect_shows hr p
    exact ⟨q, (close_onReconnect s p).trans hq, hmatches⟩
  split at h
  · rename_i e u hr
    obtain ⟨-, rfl⟩ := Prod.mk.inj (Option.some.inj h)
    exact hconnect _ hr
  · exact hconnect r h

theorem close_shows (hp : p.Matches (s.connections c)) :
    Shows c s (s.close false c) p .down ∧
      Seen.down.Matches ((s.close false c).connections c) := by
  have hdead : Seen.down.Matches ((s.close false c).connections c) := by
    have hclosed : ((s.close false c).connections c).socket = false := by
      unfold close
      split_ifs with hsocket
      · rw [setConnection_same]
      · rw [setConnection_same]
      · exact Bool.eq_false_iff.mpr hsocket
    simp [Seen.Matches, WatchedConnection.alive, WatchedConnection.closed, hclosed]
  refine ⟨?_, hdead⟩
  unfold close
  cases p with
  | shaking v => cases hp
  | down =>
    split_ifs with hsocket hexpected
    · simp [Seen.Matches, WatchedConnection.alive, WatchedConnection.closed, hsocket] at hp
      simp [hp] at hexpected
    · exact .setConnection _ s .down
    · exact .refl s .down
  | up nodeUuid =>
    obtain ⟨halive, huuid⟩ := hp
    obtain ⟨hfailed, hsocket⟩ : (s.connections c).failed = false ∧ (s.connections c).socket := by
      simpa [WatchedConnection.alive, WatchedConnection.closed] using halive
    rw [if_pos hsocket, if_pos (by simp [hfailed])]
    have hfollow : Seen.follow (.up nodeUuid) (.connectionClosed (s.connections c).uuid) =
        some .down := if_pos huuid
    exact (Shows.publish hfollow s).trans (.setConnection _ _ _)

theorem request_shows {lost : Bool} {as : List HandshakeAttempt}
    (h : s.request c lost as = some (r, t)) (hp : p.Matches (s.connections c)) :
    ∃ q, Shows c s t p q ∧ q.Matches (t.connections c) := by
  unfold request at h
  split_ifs at h with hclosed hlost
  · obtain ⟨-, rfl⟩ := Prod.mk.inj (Option.some.inj h)
    exact ⟨p, .refl s p, hp⟩
  · have hset := Shows.setConnection (c := c) { s.connections c with failed := true } s p
    have hfollow : p.follow (.connectionLost (s.connections c).uuid .connectionError) =
        some .down := by
      cases p with
      | shaking v => cases hp
      | down => rfl
      | up nodeUuid => exact if_pos hp.2
    have hlostShows := hset.trans (.publish hfollow _)
    have hreconnect (r' : Except ConnectError Unit)
        (hr : (((s.setConnection c { s.connections c with failed := true }).onConnectionLost c
          (some .connectionError)).reconnect c as) = some (r', t)) :
        ∃ q, Shows c s t p q ∧ q.Matches (t.connections c) := by
      obtain ⟨q, hq, hmatches⟩ := reconnect_shows hr
        (by simp [onConnectionLost, WatchedClient.publish, WatchedConnection.alive]) .down
      refine ⟨q, Shows.trans ?_ hq, hmatches⟩
      simpa [onConnectionLost] using hlostShows
    dsimp only at h
    split at h
    · rename_i u hr
      obtain ⟨-, rfl⟩ := Prod.mk.inj (Option.some.inj h)
      exact hreconnect _ hr
    · exact hreconnect r h
  · obtain ⟨-, rfl⟩ := Prod.mk.inj (Option.some.inj h)
    exact ⟨p, .refl s p, hp⟩

/-- What the events tell of every connection is right. -/
def Followed (s : WatchedClient) : Prop :=
  ∀ c, ∃ p, run Seen.follow .down (eventsAbout c s.published) = some p ∧
    p.Matches (s.connections c)

theorem Followed.shows (hs : s.Followed) {p : Seen}
    (hp : run Seen.follow .down (eventsAbout c s.published) = some p)
    (h : ∃ q, Shows c s t p q ∧ q.Matches (t.connections c)) : t.Followed := by
  obtain ⟨q, hq, hmatches⟩ := h
  intro d
  by_cases hd : d = c
  · subst hd
    exact ⟨q, hq.eventsAbout_published hp, hmatches⟩
  · rw [hq.eventsAbout_other hd, hq.others d hd]
    exact hs d

theorem Followed.step {a : WatchedCall} (hs : s.Followed) (h : s.step a = some t) :
    t.Followed := by
  cases a with
  | connect c as =>
    obtain ⟨⟨r, u⟩, hr, rfl⟩ := Option.map_eq_some_iff.mp h
    obtain ⟨p, hp, -⟩ := hs c
    exact hs.shows hp (connect_shows hr p)
  | reconnect c as =>
    obtain ⟨⟨r, u⟩, hr, rfl⟩ := Option.map_eq_some_iff.mp h
    by_cases halive : (s.connections c).alive
    · rw [reconnect, if_pos halive] at hr
      obtain ⟨-, rfl⟩ := Prod.mk.inj (Option.some.inj hr)
      exact hs
    · obtain ⟨p, hp, -⟩ := hs c
      exact hs.shows hp (reconnect_shows hr (Bool.eq_false_iff.mpr halive) p)
  | request c lost as =>
    obtain ⟨⟨r, u⟩, hr, rfl⟩ := Option.map_eq_some_iff.mp h
    obtain ⟨p, hp, hmatches⟩ := hs c
    exact hs.shows hp (request_shows hr hmatches)
  | close c =>
    obtain rfl := Option.some.inj h
    obtain ⟨p, hp, hmatches⟩ := hs c
    exact hs.shows hp ⟨.down, close_shows hmatches⟩

end WatchedClient

/-- A listener before which none raises is given all events. -/
theorem received_eq {listeners : List EventListener} {raises : ℕ → ℕ → Bool} {i : ℕ}
    (hi : i ∈ connectionListeners listeners) {published : List (ℕ × ConnectionEvent)}
    (hraises : ∀ k < published.length, ∀ j ∈ connectionListeners listeners, j < i →
      raises k j = false) : received listeners raises i published = published := by
  have hpairwise : (connectionListeners listeners).Pairwise (· < ·) := by
    have hsub : (connectionListeners listeners).Sublist (List.range' 0 listeners.length) := by
      rw [← List.zipIdx_map_snd]
      exact List.filter_sublist.map _
    exact List.Pairwise.sublist hsub List.pairwise_lt_range'
  unfold received
  rw [List.filter_eq_self.mpr]
  · exact List.zipIdx_map_fst 0 published
  · intro e he
    have hlt : e.2 < published.length := (List.mem_zipIdx' he).1
    exact decide_eq_true ((mem_publishQueryEvents hpairwise).mpr ⟨hi, hraises e.2 hlt⟩)

/-- In every run, a listener before which none raises knows of each connection whether it is alive,
and to which node it leads. -/
theorem connections_followed {listeners : List EventListener} {raises : ℕ → ℕ → Bool} {i : ℕ}
    (hi : i ∈ connectionListeners listeners) {as : List WatchedCall} {s : WatchedClient}
    (hrun : run WatchedClient.step .init as = some s)
    (hraises : ∀ k < s.published.length, ∀ j ∈ connectionListeners listeners, j < i →
      raises k j = false) (c : ℕ) :
    ∃ p, run Seen.follow .down (eventsAbout c (received listeners raises i s.published)) =
      some p ∧ p.Matches (s.connections c) := by
  have hinit : WatchedClient.init.Followed := fun _ => ⟨.down, rfl, rfl⟩
  have hstep : ∀ (s : WatchedClient) (a : WatchedCall) (t : WatchedClient), s.Followed →
      s.step a = some t → t.Followed := fun _ _ _ => WatchedClient.Followed.step
  rw [received_eq hi hraises]
  exact run_invariant hstep hinit hrun c

/-- The version is rejected, the next one accepted, and the connection lost by a request, which
cannot be opened again. A listener for queries stands first. -/
theorem connections_followed_lost :
    let listeners : List EventListener := [⟨false, true⟩, ⟨true, false⟩]
    let reject : HandshakeAttempt := ⟨.opened (.response ⟨0, 1, 6, 0, "no", 1⟩) none, none⟩
    let accept : HandshakeAttempt := ⟨.opened (.response ⟨1, 0, 0, 0, "", 0⟩) none, none⟩
    let drop : HandshakeAttempt := ⟨.refused, none⟩
    ∃ s, run WatchedClient.step .init [.connect 4 [reject, accept], .request 4 true [drop]] =
        some s ∧ s.published.length = 7 ∧
      ∃ p, run Seen.follow .down (eventsAbout 4 (received listeners (fun _ _ => false) 1
        s.published)) = some p ∧ p.Matches (s.connections 4) := by
  intro listeners reject accept drop
  obtain ⟨s, hs⟩ : ∃ s, run WatchedClient.step .init
      [.connect 4 [reject, accept], .request 4 true [drop]] = some s := ⟨_, rfl⟩
  have hlength : s.published.length = 7 := by
    obtain rfl := Option.some.inj hs
    rfl
  exact ⟨s, hs, hlength, connections_followed (by decide) hs (fun _ _ _ _ _ => rfl) 4⟩

end PyGridGain
