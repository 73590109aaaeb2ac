import Mathlib.Data.List.Basic
import Mathlib.Logic.Function.Basic
import PyGridGain.Lib.Runs

/-! The transports of an `AioConnection`. Several coroutines connect and reconnect it, and
suspend between their look at `alive` and the transport that they put in place. -/

namespace PyGridGain

/-- A transport is open until it `is_closing`; then `connection_lost` is called. -/
inductive TransportStatus
  | opened
  | closing
  | lost
  deriving DecidableEq

/-- A call of `connect` or `_reconnect` at the places where it is suspended: it waits for
the old transport to close, for `create_connection` (with the transport that it is about to
return), for the handshake, or for the transport to close after a rejection. -/
inductive Coroutine
  | closing
  | creating (transport : Option TransportStatus)
  | handshake
  | rejected

/-- A call of `connection_lost`: its transport, if `create_connection` has returned it,
whether the connection was alive, and the transports of the requests that it completes with
an error. -/
structure Loss where
  transport : Option ℕ
  alive : Bool
  requests : List ℕ
  deriving DecidableEq

/-- An `AioConnection`, with all the transports that were created for it, and the transport
to which each pending request was written. -/
structure AioConnection where
  failed : Bool
  closedFlag : Bool
  transports : List TransportStatus
  transport : Option ℕ
  pendingReqs : List (ℕ × ℕ)
  coroutines : ℕ → Option Coroutine
  losses : List Loss

/-- A `reconnect` is also what `process_connection_lost` spawns. A wait for a transport to
close ends with its `connection_lost` or with the timeout. -/
inductive TransportStep
  | connect (coroutine : ℕ)
  | reconnect (coroutine : ℕ)
  | waited (coroutine : ℕ)
  | connectionMade (coroutine : ℕ)
  | created (coroutine : ℕ)
  | accepted (coroutine : ℕ)
  | rejected (coroutine : ℕ)
  | retried (coroutine : ℕ)
  | raised (coroutine : ℕ)
  | close
  | dropped (transport : ℕ)
  | droppedInCreation (coroutine : ℕ)
  | connectionLost (transport : ℕ)
  | connectionLostInCreation (coroutine : ℕ)
  | request (queryId : ℕ)
  | response (queryId : ℕ)

namespace AioConnection

def init : AioConnection := ⟨false, false, [], none, [], fun _ => none, []⟩

def isOpen (s : AioConnection) (k : ℕ) : Prop := s.transports[k]? = some .opened

instance (s : AioConnection) (k : ℕ) : Decidable (s.isOpen k) :=
  inferInstanceAs (Decidable (s.transports[k]? = some .opened))

/-- `self._transport and not self._transport.is_closing()`, and which it is. -/
def openTransport (s : AioConnection) : Option ℕ :=
  s.transport.filter fun k => decide (s.isOpen k)

def closed (s : AioConnection) : Bool := s.closedFlag || s.openTransport.isNone

def alive (s : AioConnection) : Bool := !s.failed && !s.closed

def goTo (s : AioConnection) (t : ℕ) (c : Option Coroutine) : AioConnection :=
  { s with coroutines := Function.update s.coroutines t c }

/-- `_connect_version` starts. -/
def attempt (s : AioConnection) (t : ℕ) : AioConnection :=
  { s with closedFlag := false }.goTo t (some (.creating none))

/-- `_close_transport`, up to the wait. -/
def closeTransport (s : AioConnection) : AioConnection :=
  match s.openTransport with
  | some k => { s with transports := s.transports.set k .closing, transport := none }
  | none => s

/-- `process_connection_lost`. -/
def processConnectionLost (s : AioConnection) (k : Option ℕ) : AioConnection :=
  { s with
    failed := true
    pendingReqs := []
    losses := s.losses ++ [⟨k, s.alive, s.pendingReqs.map (·.2)⟩] }

def step (s : AioConnection) : TransportStep → Option AioConnection
  | .connect t =>
    match s.coroutines t with
    | none => if s.alive then none else some (s.attempt t)
    | some _ => none
  | .reconnect t =>
    match s.coroutines t with
    | none =>
      if s.alive then none
      else
        match s.openTransport with
        | some _ => some (s.closeTransport.goTo t (some .closing))
        | none => some (s.attempt t)
    | some _ => none
  | .waited t =>
    match s.coroutines t with
    | some .closing => some (s.attempt t)
    | _ => none
  | .connectionMade t =>
    match s.coroutines t with
    | some (.creating none) => some (s.goTo t (some (.creating (some .opened))))
    | _ => none
  | .created t =>
    match s.coroutines t with
    | some (.creating (some status)) => some ({ s with
        transports := s.transports ++ [status]
        transport := some s.transports.length }.goTo t (some .handshake))
    | _ => none
  | .accepted t =>
    match s.coroutines t with
    | some .handshake => some ({ s with failed := false }.goTo t none)
    | _ => none
  | .rejected t =>
    match s.coroutines t with
    | some .handshake =>
      some ({ s with closedFlag := true }.closeTransport.goTo t (some .rejected))
    | _ => none
  | .retried t =>
    match s.coroutines t with
    | some .rejected => some (s.attempt t)
    | _ => none
  | .raised t =>
    match s.coroutines t with
    | some (.creating none) | some .handshake | some .rejected =>
      some ({ s with failed := true }.goTo t none)
    | _ => none
  | .close => some ({ s with closedFlag := true }.closeTransport)
  | .dropped k =>
    if s.isOpen k then some { s with transports := s.transports.set k .closing } else none
  | .droppedInCreation t =>
    match s.coroutines t with
    | some (.creating (some .opened)) => some (s.goTo t (some (.creating (some .closing))))
    | _ => none
  | .connectionLost k =>
    if s.transports[k]? = some .closing then
      some { s.processConnectionLost (some k) with transports := s.transports.set k .lost }
    else none
  | .connectionLostInCreation t =>
    match s.coroutines t with
    | some (.creating (some .closing)) =>
      some ((s.processConnectionLost none).goTo t (some (.creating (some .lost))))
    | _ => none
  | .request queryId =>
    if s.alive then
      s.openTransport.map fun k => { s with
        pendingReqs := s.pendingReqs.filter (fun r => r.1 ≠ queryId) ++ [(queryId, k)] }
    else none
  | .response queryId =>
    some { s with pendingReqs := s.pendingReqs.filter fun r => r.1 ≠ queryId }

end AioConnection

/-- An open transport is the one of the connection; a `connection_lost` completes with an
error requests that were written to its own transport only, and the connection was not
alive when it was called. -/
structure AioConnection.OneTransport (s : AioConnection) : Prop where
  single : ∀ k, s.isOpen k → s.transport = some k
  ownRequests : ∀ l ∈ s.losses, ∀ k ∈ l.requests, l.transport = some k
  notAlive : ∀ l ∈ s.losses, l.alive = false

namespace AioConnection

/-- Other transports than `k` are not in use: the connection is not alive, and no request
that was written to another one is pending. -/
def OthersUnused (s : AioConnection) (k : Option ℕ) : Prop :=
  s.alive = false ∧ ∀ r ∈ s.pendingReqs, k = some r.2

instance (s : AioConnection) (k : Option ℕ) : Decidable (s.OthersUnused k) :=
  inferInstanceAs (Decidable (_ ∧ _))

/-- A transport is put in place while none is open, and `connection_lost` is called while no
other transport is in use. -/
def Apart (s : AioConnection) : TransportStep → Prop
  | .created _ => ∀ status ∈ s.transports, status ≠ .opened
  | .connectionLost k => s.OthersUnused (some k)
  | .connectionLostInCreation _ => s.OthersUnused none
  | _ => True

instance (s : AioConnection) : ∀ a, Decidable (s.Apart a)
  | .created _ => inferInstanceAs (Decidable (∀ status ∈ s.transports, status ≠ .opened))
  | .connectionLost k => inferInstanceAs (Decidable (s.OthersUnused (some k)))
  | .connectionLostInCreation _ => inferInstanceAs (Decidable (s.OthersUnused none))
  | .connect _ | .reconnect _ | .waited _ | .connectionMade _ | .accepted _ | .rejected _
  | .retried _ | .raised _ | .close | .dropped _ | .droppedInCreation _ | .request _
  | .response _ => inferInstanceAs (Decidable True)

variable {s u : AioConnection} {t : ℕ}

/-- `OneTransport` is about the transports and the calls of `connection_lost`. -/
theorem OneTransport.congr (h : s.OneTransport) (htransports : u.transports = s.transports)
    (htransport : u.transport = s.transport) (hlosses : u.losses = s.losses) :
    u.OneTransport := by
  refine ⟨fun k hk => ?_, ?_, ?_⟩
  · rw [isOpen, htransports] at hk
    rw [htransport]
    exact h.single k hk
  · rw [hlosses]
    exact h.ownRequests
  · rw [hlosses]
    exact h.notAlive

theorem OneTransport.goTo (h : s.OneTransport) (t : ℕ) (c : Option Coroutine) :
    (s.goTo t c).OneTransport := h.congr rfl rfl rfl

theorem OneTransport.attempt (h : s.OneTransport) (t : ℕ) : (s.attempt t).OneTransport :=
  h.congr rfl rfl rfl

/-- A transport that is open after another status was set was open before, and is another. -/
theorem open_of_set {transports : List TransportStatus} {status : TransportStatus} {j k : ℕ}
    (hstatus : status ≠ .opened) (h : (transports.set k status)[j]? = some .opened) :
    j ≠ k ∧ transports[j]? = some .opened := by
  rw [List.getElem?_set] at h
  split_ifs at h with hkj hk
  · exact absurd (Option.some.inj h) hstatus
  · exact ⟨fun hjk => hkj hjk.symm, h⟩

theorem OneTransport.set (h : s.OneTransport) (k : ℕ) {status : TransportStatus}
    (hstatus : status ≠ .opened) :
    { s with transports := s.transports.set k status }.OneTransport := by
  refine ⟨fun j hj => ?_, h.ownRequests, h.notAlive⟩
  exact h.single j (open_of_set hstatus hj).2

theorem openTransport_eq_some {k : ℕ} (h : s.openTransport = some k) :
    s.transport = some k ∧ s.isOpen k := by
  obtain ⟨htransport, hopen⟩ := Option.filter_eq_some_iff.mp h
  exact ⟨htransport, of_decide_eq_true hopen⟩

/-- The transport that is closed is the only open one. -/
theorem OneTransport.closeTransport (h : s.OneTransport) : s.closeTransport.OneTransport := by
  unfold AioConnection.closeTransport
  split
  case h_2 => exact h
  case h_1 k hk =>
    refine ⟨fun j hj => ?_, h.ownRequests, h.notAlive⟩
    obtain ⟨hne, hopen⟩ := open_of_set (by decide) hj
    have hj' := h.single j hopen
    rw [(openTransport_eq_some hk).1] at hj'
    exact absurd (Option.some.inj hj').symm hne

theorem created_iff (h : s.OneTransport) (status : TransportStatus) :
    { s with
      transports := s.transports ++ [status]
      transport := some s.transports.length }.OneTransport ↔
      ∀ old ∈ s.transports, old ≠ .opened := by
  constructor
  · intro h' old hmem hopened
    obtain ⟨k, hk, hstatus⟩ := List.mem_iff_getElem.mp hmem
    have hopen : (s.transports ++ [status])[k]? = some .opened := by
      rw [List.getElem?_append_left hk, List.getElem?_eq_getElem hk, hstatus, hopened]
    have hlast := Option.some.inj (h'.single k (by simpa [isOpen] using hopen))
    omega
  · intro hnone
    refine ⟨fun k hk => ?_, h.ownRequests, h.notAlive⟩
    rw [isOpen, List.getElem?_append] at hk
    split_ifs at hk with hlt
    · exact absurd rfl (hnone _ (List.mem_of_getElem? hk))
    · have hzero : k - s.transports.length = 0 := by
        by_contra hne
        rw [List.getElem?_eq_none (by simp; omega)] at hk
        cases hk
      rw [show k = s.transports.length by omega]

theorem OneTransport.othersUnused (h : u.OneTransport) {k : Option ℕ}
    (hlosses : u.losses = (s.processConnectionLost k).losses) : s.OthersUnused k := by
  have hlast : (⟨k, s.alive, s.pendingReqs.map (·.2)⟩ : Loss) ∈ u.losses := by
    rw [hlosses]
    exact List.mem_append_right _ (List.mem_singleton_self _)
  refine ⟨h.notAlive _ hlast, fun r hr => ?_⟩
  exact h.ownRequests _ hlast r.2 (List.mem_map_of_mem hr)

theorem OneTransport.processConnectionLost (h : s.OneTransport) {k : Option ℕ}
    (hunused : s.OthersUnused k) : (s.processConnectionLost k).OneTransport := by
  refine ⟨h.single, fun l hl => ?_, fun l hl => ?_⟩
  · rcases List.mem_append.mp hl with hl | hl
    · exact h.ownRequests l hl
    · rw [List.mem_singleton.mp hl]
      intro j hj
      obtain ⟨r, hr, rfl⟩ := List.mem_map.mp hj
      exact hunused.2 r hr
  · rcases List.mem_append.mp hl with hl | hl
    · exact h.notAlive l hl
    · rw [List.mem_singleton.mp hl]
      exact hunused.1

/-- A step from a state with one transport leads to such a state just if transports are
kept apart. -/
theorem step_oneTransport_iff {a : TransportStep} (hs : s.OneTransport)
    (h : s.step a = some u) : u.OneTransport ↔ s.Apart a := by
  cases a with
  | connect t =>
    simp only [step] at h
    split at h
    · split_ifs at h
      obtain rfl := Option.some.inj h
      exact iff_of_true (hs.attempt t) trivial
    · cases h
  | reconnect t =>
    simp only [step] at h
    split at h
    · split_ifs at h
      split at h
      · obtain rfl := Option.some.inj h
        exact iff_of_true (hs.closeTransport.goTo t _) trivial
      · obtain rfl := Option.some.inj h
        exact iff_of_true (hs.attempt t) trivial
    · cases h
  | waited t =>
    simp only [step] at h
    split at h
    · obtain rfl := Option.some.inj h
      exact iff_of_true (hs.attempt t) trivial
    · cases h
  | connectionMade t =>
    simp only [step] at h
    split at h
    · obtain rfl := Option.some.inj h
      exact iff_of_true (hs.goTo t _) trivial
    · cases h
  | created t =>
    simp only [step] at h
    split at h
    · obtain rfl := Option.some.inj h
      constructor
      · intro hu
        exact (created_iff hs _).mp (hu.congr rfl rfl rfl)
      · intro hnone
        exact ((created_iff hs _).mpr hnone).goTo t _
    · cases h
  | accepted t =>
    simp only [step] at h
    split at h
    · obtain rfl := Option.some.inj h
      exact iff_of_true (hs.congr rfl rfl rfl) trivial
    · cases h
  | rejected t =>
    simp only [step] at h
    split at h
    · obtain rfl := Option.some.inj h
      have hclosed : OneTransport { s with closedFlag := true } := hs.congr rfl rfl rfl
      exact iff_of_true (hclosed.closeTransport.goTo t _) trivial
    · cases h
  | retried t =>
    simp only [step] at h
    split at h
    · obtain rfl := Option.some.inj h
      exact iff_of_true (hs.attempt t) trivial
    · cases h
  | raised t =>
    simp only [step] at h
    split at h
    case h_4 => cases h
    all_goals
      obtain rfl := Option.some.inj h
      exact iff_of_true (hs.congr rfl rfl rfl) trivial
  | close =>
    obtain rfl := Option.some.inj h
    have hclosed : OneTransport { s with closedFlag := true } := hs.congr rfl rfl rfl
    exact iff_of_true hclosed.closeTransport trivial
  | dropped k =>
    simp only [step] at h
    split_ifs at h
    obtain rfl := Option.some.inj h
    exact iff_of_true (hs.set k (by decide)) trivial
  | droppedInCreation t =>
    simp only [step] at h
    split at h
    · obtain rfl := Option.some.inj h
      exact iff_of_true (hs.goTo t _) trivial
    · cases h
  | connectionLost k =>
    simp only [step] at h
    split_ifs at h
    obtain rfl := Option.some.inj h
    constructor
    · intro hu
      exact hu.othersUnused rfl
    · intro hunused
      exact (hs.processConnectionLost hunused).set k (by decide)
  | connectionLostInCreation t =>
    simp only [step] at h
    split at h
    · obtain rfl := Option.some.inj h
      constructor
      · intro hu
        exact hu.othersUnused rfl
      · intro hunused
        exact (hs.processConnectionLost hunused).goTo t _
    · cases h
  | request queryId =>
    simp only [step] at h
    split_ifs at h
    obtain ⟨k, -, rfl⟩ := Option.map_eq_some_iff.mp h
    exact iff_of_true (hs.congr rfl rfl rfl) trivial
  | response queryId =>
    obtain rfl := Option.some.inj h
    exact iff_of_true (hs.congr rfl rfl rfl) trivial

theorem oneTransport_init : init.OneTransport := by
  refine ⟨fun k hk => ?_, fun l hl => ?_, fun l hl => ?_⟩
  · cases hk
  · cases hl
  · cases hl

end AioConnection

/-- In every state that a run goes through, the connection has one transport, and the loss
of another does it no harm, just if every step keeps the transports apart. -/
theorem one_transport_iff {as : List TransportStep} {s : AioConnection}
    (hrun : run AioConnection.step .init as = some s) :
    Throughout AioConnection.step AioConnection.OneTransport .init as ↔
      Along AioConnection.step AioConnection.Apart .init as :=
  throughout_iff_along (fun _ _ _ => AioConnection.step_oneTransport_iff)
    AioConnection.oneTransport_init hrun

/-- A transport that is lost with a request, after which the connection is taken up
again. -/
theorem one_transport_reconnect :
    let as : List TransportStep := [.connect 0, .connectionMade 0, .created 0, .accepted 0,
      .request 7, .dropped 0, .connectionLost 0, .reconnect 1, .connectionMade 1, .created 1,
      .accepted 1, .request 8, .response 8, .close, .connectionLost 1]
    ∃ s, run AioConnection.step .init as = some s ∧
      Throughout AioConnection.step AioConnection.OneTransport .init as := by
  intro as
  obtain ⟨s, hs⟩ := Option.isSome_iff_exists.mp (by decide :
    (run AioConnection.step .init as).isSome)
  exact ⟨s, hs, (one_transport_iff hs).mpr (by decide)⟩

/-- A transport is lost, and two coroutines reconnect: both find the connection not alive,
and each creates a transport. The loss of the first one then fails a request that was
written to the second, and marks the connection over that one as failed. -/
theorem two_reconnects_two_transports :
    ∃ s, run AioConnection.step .init [.connect 0, .connectionMade 0, .created 0, .accepted 0,
        .dropped 0, .connectionLost 0, .reconnect 1, .reconnect 2, .connectionMade 1,
        .connectionMade 2, .created 1, .created 2, .accepted 1, .accepted 2] = some s ∧
      s.isOpen 1 ∧ s.isOpen 2 ∧ ¬s.OneTransport ∧
      ∃ u, run AioConnection.step s [.request 7, .dropped 1, .connectionLost 1] = some u ∧
        u.losses.getLast? = some ⟨some 1, true, [2]⟩ := by
  refine ⟨_, rfl, by decide, by decide, fun h => ?_, _, rfl, by decide⟩
  have hsingle := h.single 1 (by decide)
  exact absurd hsingle (by decide)

end PyGridGain
