import Mathlib.Logic.Function.Basic
import PyGridGain.Connection.Handshake
import PyGridGain.Lib.Runs

/-! The protocol version of a client with several connections. There is one context, which
the fallback of every handshake overwrites, whatever the other connections have agreed on. -/

namespace PyGridGain

/-- A connection: `failed`, `_closed` (which a synchronous one lacks: it is closed just when
it has no socket), whether it has a socket or a transport, and the version of the handshake
that has succeeded over it. -/
structure NodeConnection where
  failed : Bool
  closed : Bool
  socket : Bool
  handshaken : Option ProtocolVersion
  deriving DecidableEq

/-- A connection that has not been connected. -/
def NodeConnection.init : NodeConnection := ⟨false, false, false, none⟩

def NodeConnection.alive (k : NodeConnection) : Bool := !k.failed && !k.closed && k.socket

/-- Where a call of `connect` stands: in `_connect_version`, with its socket opened or not
and the version in the request that it has sent; or with a rejection, for which it closes
the connection first. -/
inductive HandshakeStage
  | attempt (opened : Bool) (sent : Option ProtocolVersion)
  | rejected (r : HandshakeResponse) (isRejection : r.opCode = 0)

def HandshakeStage.sent : HandshakeStage → Option ProtocolVersion
  | .attempt _ sent => sent
  | .rejected _ _ => none

def HandshakeStage.fallback : HandshakeStage → Option ProtocolVersion
  | .attempt _ _ => none
  | .rejected r _ => (Reply.response r).fallback

/-- A call of `Connection.connect` or `AioConnection._connect`. -/
structure HandshakeCall (n : ℕ) where
  connection : Fin n
  detecting : Bool
  stage : HandshakeStage

/-- A client with its connections to `n` nodes, and the calls that are under way. The calls
of a synchronous client come one after the other, those of an asynchronous one interleave. -/
structure VersionedClient (n : ℕ) where
  context : Option ProtocolVersion
  connections : Fin n → NodeConnection
  calls : ℕ → Option (HandshakeCall n)

inductive VersionStep (n : ℕ)
  | connect (call : ℕ) (connection : Fin n)
  | opened (call : ℕ)
  | sent (call : ℕ)
  | reply (call : ℕ) (r : Reply)
  | closedAfterRejection (call : ℕ)
  | lost (connection : Fin n)
  | close (connection : Fin n)
  | closeToReconnect (connection : Fin n)

/-- If the connection is alive and its handshake has succeeded, then with this version. -/
def NodeConnection.Speaks (k : NodeConnection) (version : Option ProtocolVersion) : Prop :=
  k.alive → k.handshaken.isSome → k.handshaken = version

instance (k : NodeConnection) (version : Option ProtocolVersion) : Decidable (k.Speaks version) :=
  inferInstanceAs (Decidable (_ → _ → _))

namespace VersionedClient

variable {n : ℕ}

def init (n : ℕ) : VersionedClient n := ⟨none, fun _ => .init, fun _ => none⟩

def setConnection (s : VersionedClient n) (c : Fin n) (k : NodeConnection) : VersionedClient n :=
  { s with connections := Function.update s.connections c k }

/-- `_connect_version` starts. -/
def attempt (s : VersionedClient n) (t : ℕ) (c : Fin n) (detecting : Bool) :
    VersionedClient n :=
  { s.setConnection c { s.connections c with closed := false } with
    calls := Function.update s.calls t (some ⟨c, detecting, .attempt false none⟩) }

/-- The call takes a reply to the request with the version `sent`: there is another
attempt, or it ends with `_on_handshake_success` or `_on_handshake_fail`. -/
def settle (s : VersionedClient n) (t : ℕ) (c : Fin n) (detecting : Bool)
    (sent : Option ProtocolVersion) (r : Reply) : VersionedClient n :=
  match handleReply detecting s.context r with
  | (context, none) => { s with context := context }.attempt t c detecting
  | (context, some (.ok ())) =>
    { s.setConnection c { s.connections c with failed := false, handshaken := sent } with
      context := context
      calls := Function.update s.calls t none }
  | (context, some (.error _)) =>
    { s.setConnection c { s.connections c with failed := true } with
      context := context
      calls := Function.update s.calls t none }

/-- Sending needs a context, taking a response the socket and the request. `dropped` is any
other exception. -/
def step (s : VersionedClient n) : VersionStep n → Option (VersionedClient n)
  | .connect t c =>
    match s.calls t with
    | some _ => none
    | none => some
      ({ s with context := some (s.context.getD maxProtocol) }.attempt t c s.context.isNone)
  | .opened t =>
    match s.calls t with
    | some ⟨c, detecting, .attempt false sent⟩ => some
        { s.setConnection c { s.connections c with socket := true, handshaken := none } with
          calls := Function.update s.calls t (some ⟨c, detecting, .attempt true sent⟩) }
    | _ => none
  | .sent t =>
    match s.calls t, s.context with
    | some ⟨c, detecting, .attempt opened none⟩, some v => some { s with
        calls := Function.update s.calls t (some ⟨c, detecting, .attempt opened (some v)⟩) }
    | _, _ => none
  | .reply t .dropped =>
    match s.calls t with
    | some ⟨c, detecting, .attempt _ sent⟩ => some (s.settle t c detecting sent .dropped)
    | _ => none
  | .reply t (.response r) =>
    match s.calls t with
    | some ⟨c, detecting, .attempt true (some v)⟩ =>
      if h : r.opCode = 0 then some
        { s.setConnection c { s.connections c with closed := true, socket := false } with
          calls := Function.update s.calls t (some ⟨c, detecting, .rejected r h⟩) }
      else some (s.settle t c detecting (some v) (.response r))
    | _ => none
  | .closedAfterRejection t =>
    match s.calls t with
    | some ⟨c, detecting, .rejected r _⟩ => some (s.settle t c detecting none (.response r))
    | _ => none
  | .lost c => some (s.setConnection c { s.connections c with failed := true })
  | .close c => some (s.setConnection c { s.connections c with closed := true, socket := false })
  | .closeToReconnect c =>
    if (s.connections c).alive then none
    else some (s.setConnection c { s.connections c with socket := false })

/-- The context has the version with which the handshake of any connection that is alive
has succeeded. -/
def Coherent (s : VersionedClient n) : Prop := ∀ c, (s.connections c).Speaks s.context

/-- The other connections, as far as they are alive, have agreed on this version. -/
def OthersSpeak (s : VersionedClient n) (c : Fin n) (version : Option ProtocolVersion) : Prop :=
  ∀ d, d ≠ c → (s.connections d).Speaks version

instance (s : VersionedClient n) (c : Fin n) (version : Option ProtocolVersion) :
    Decidable (s.OthersSpeak c version) :=
  inferInstanceAs (Decidable (∀ d, d ≠ c → (s.connections d).Speaks version))

/-- A version that a rejection names, or the lack of one that a failed detection restores,
is what the connections that are alive speak; the context has not changed while the request
that is accepted was on its way; and a socket to which a new call gives its connection back
speaks the version of the context. -/
def Agrees (s : VersionedClient n) : VersionStep n → Prop
  | .connect _ c =>
    { s.connections c with closed := false }.Speaks (some (s.context.getD maxProtocol))
  | .reply t .dropped =>
    ∀ call ∈ s.calls t, call.detecting → s.OthersSpeak call.connection none
  | .reply t (.response r) =>
    ∀ call ∈ s.calls t, r.opCode ≠ 0 → s.context ≠ none →
      { s.connections call.connection with failed := false }.alive →
        call.stage.sent = s.context
  | .closedAfterRejection t =>
    ∀ call ∈ s.calls t, s.context ≠ none → ∀ v ∈ call.stage.fallback,
      s.OthersSpeak call.connection (some v) ∧
        { s.connections call.connection with closed := false }.Speaks (some v)
  | _ => True

instance (s : VersionedClient n) : ∀ a, Decidable (s.Agrees a)
  | .connect _ _ => inferInstanceAs (Decidable (NodeConnection.Speaks _ _))
  | .reply t .dropped => inferInstanceAs (Decidable (∀ call ∈ s.calls t, _ → _))
  | .reply t (.response _) => inferInstanceAs (Decidable (∀ call ∈ s.calls t, _ → _ → _ → _))
  | .closedAfterRejection t => inferInstanceAs (Decidable (∀ call ∈ s.calls t, _ → ∀ v ∈ _, _ ∧ _))
  | .opened _ => inferInstanceAs (Decidable True)
  | .sent _ => inferInstanceAs (Decidable True)
  | .lost _ => inferInstanceAs (Decidable True)
  | .close _ => inferInstanceAs (Decidable True)
  | .closeToReconnect _ => inferInstanceAs (Decidable True)

variable {s u : VersionedClient n} {t : ℕ} {c : Fin n}

theorem coherent_iff : s.Coherent ↔
    (s.connections c).Speaks s.context ∧ s.OthersSpeak c s.context := by
  constructor
  · intro h
    exact ⟨h c, fun d _ => h d⟩
  · rintro ⟨hc, hothers⟩ d
    by_cases hd : d = c
    · exact hd ▸ hc
    · exact hothers d hd

theorem Coherent.others (h : s.Coherent) (c : Fin n) : s.OthersSpeak c s.context :=
  fun d _ => h d

/-- A step that puts the connection `c` into the state `k`. -/
theorem coherent_update_iff {context : Option ProtocolVersion} {k : NodeConnection}
    {calls : ℕ → Option (HandshakeCall n)} :
    (⟨context, Function.update s.connections c k, calls⟩ : VersionedClient n).Coherent ↔
      k.Speaks context ∧ s.OthersSpeak c context := by
  rw [coherent_iff (c := c)]
  have hothers : ∀ d, d ≠ c → Function.update s.connections c k d = s.connections d :=
    fun d hd => Function.update_of_ne hd _ _
  constructor
  · rintro ⟨hk, h⟩
    refine ⟨by simpa using hk, fun d hd => ?_⟩
    rw [← hothers d hd]
    exact h d hd
  · rintro ⟨hk, h⟩
    refine ⟨by simpa using hk, fun d hd => ?_⟩
    have hd' := h d hd
    rwa [← hothers d hd] at hd'

theorem OthersSpeak.of_none (h : s.OthersSpeak c none) (version : Option ProtocolVersion) :
    s.OthersSpeak c version := by
  intro d hd halive hsome
  have hnone := h d hd halive hsome
  rw [hnone] at hsome
  cases hsome

theorem speaks_of_not_alive {k : NodeConnection} (version : Option ProtocolVersion)
    (h : k.alive = false) : k.Speaks version := by
  intro halive
  rw [h] at halive
  cases halive

section Settle
variable {detecting : Bool} {sent context : Option ProtocolVersion} {r : Reply}

theorem settle_again_iff (h : handleReply detecting s.context r = (context, none)) :
    (s.settle t c detecting sent r).Coherent ↔
      { s.connections c with closed := false }.Speaks context ∧ s.OthersSpeak c context := by
  simp only [settle, h, attempt, setConnection]
  exact coherent_update_iff

theorem settle_success_iff (h : handleReply detecting s.context r = (context, some (.ok ()))) :
    (s.settle t c detecting sent r).Coherent ↔
      { s.connections c with failed := false, handshaken := sent }.Speaks context ∧
        s.OthersSpeak c context := by
  simp only [settle, h, setConnection]
  exact coherent_update_iff

theorem settle_failure_iff {e : ConnectError}
    (h : handleReply detecting s.context r = (context, some (.error e))) :
    (s.settle t c detecting sent r).Coherent ↔ s.OthersSpeak c context := by
  simp only [settle, h, setConnection]
  rw [coherent_update_iff]
  exact and_iff_right (speaks_of_not_alive context rfl)

end Settle

/-- A response that accepts the handshake. -/
theorem accepted_coherent_iff (hs : s.Coherent) {detecting : Bool} {v : ProtocolVersion}
    {r : HandshakeResponse} (hcode : r.opCode ≠ 0) :
    (s.settle t c detecting (some v) (.response r)).Coherent ↔
      (s.context ≠ none → { s.connections c with failed := false }.alive →
        some v = s.context) := by
  have hothers := hs.others c
  cases hcontext : s.context with
  | none =>
    rw [hcontext] at hothers
    have hreply : handleReply detecting s.context (.response r) =
        (none, some (.error .attributeError)) := by
      simp [handleReply, connectVersion, hcode, hcontext]
    rw [settle_failure_iff hreply]
    exact iff_of_true hothers fun h => absurd rfl h
  | some w =>
    rw [hcontext] at hothers
    have hreply : handleReply detecting s.context (.response r) = (some w, some (.ok ())) := by
      simp [handleReply, connectVersion, hcode, hcontext]
    rw [settle_success_iff hreply, and_iff_left hothers]
    constructor
    · intro h _ halive
      exact h halive rfl
    · intro h halive _
      exact h (Option.some_ne_none w) halive

/-- A rejection, once the connection is closed. -/
theorem rejected_coherent_iff (hs : s.Coherent) {detecting : Bool} {r : HandshakeResponse}
    (hcode : r.opCode = 0) :
    (s.settle t c detecting none (.response r)).Coherent ↔
      (s.context ≠ none → ∀ v ∈ (Reply.response r).fallback, s.OthersSpeak c (some v) ∧
        { s.connections c with closed := false }.Speaks (some v)) := by
  have hothers := hs.others c
  cases hcontext : s.context with
  | none =>
    rw [hcontext] at hothers
    obtain ⟨e, he⟩ : ∃ e, handleReply detecting s.context (.response r) =
        (none, some (.error e)) := by
      by_cases hstatus : r.clientStatus = CLIENT_STATUS_AUTH_FAILURE
      · simp [handleReply, connectVersion, processHandshakeError, hcode, hstatus, hcontext]
      · simp [handleReply, connectVersion, processHandshakeError, hcode, hstatus, hcontext]
    rw [settle_failure_iff he]
    exact iff_of_true hothers fun h => absurd rfl h
  | some w =>
    rw [hcontext] at hothers
    cases hfallback : (Reply.response r).fallback with
    | some v =>
      have hreply : handleReply detecting s.context (.response r) = (some v, none) := by
        rw [hcontext]
        exact handleReply_fallback hfallback
      rw [settle_again_iff hreply, and_comm]
      constructor
      · intro h _ v' hv'
        obtain rfl := Option.some.inj hv'
        exact h
      · intro h
        exact h (Option.some_ne_none w) v rfl
    | none =>
      obtain ⟨e, he⟩ : ∃ e, handleReply detecting s.context (.response r) =
          (some w, some (.error e)) := by
        rw [hcontext]
        exact handleReply_rejected hcode hfallback
      rw [settle_failure_iff he]
      refine iff_of_true hothers fun _ v hv => ?_
      cases hv

/-- A step of a coherent client leads to a coherent one just if it agrees. -/
theorem step_coherent_iff {a : VersionStep n} (hs : s.Coherent) (h : s.step a = some u) :
    u.Coherent ↔ s.Agrees a := by
  cases a with
  | connect t c =>
    simp only [step] at h
    split at h
    · cases h
    · obtain rfl := Option.some.inj h
      simp only [attempt, setConnection]
      rw [coherent_update_iff]
      refine and_iff_left ?_
      have hothers := hs.others c
      cases hcontext : s.context with
      | none =>
        rw [hcontext] at hothers
        exact hothers.of_none _
      | some v =>
        rw [hcontext] at hothers
        exact hothers
  | opened t =>
    simp only [step] at h
    split at h
    case h_2 => cases h
    case h_1 c detecting sent hcall =>
      obtain rfl := Option.some.inj h
      refine iff_of_true ?_ trivial
      simp only [setConnection]
      rw [coherent_update_iff]
      refine ⟨fun _ hsome => ?_, hs.others c⟩
      cases hsome
  | sent t =>
    simp only [step] at h
    split at h
    case h_2 => cases h
    case h_1 c detecting opened v hcall hcontext =>
      obtain rfl := Option.some.inj h
      exact iff_of_true hs trivial
  | reply t r =>
    cases r with
    | dropped =>
      simp only [step] at h
      split at h
      case h_2 => cases h
      case h_1 c detecting opened sent hcall =>
        obtain rfl := Option.some.inj h
        rw [settle_failure_iff (e := .connectionError) rfl]
        simp only [Agrees, hcall, Option.mem_some_iff, forall_eq']
        cases detecting with
        | true => simp
        | false => simpa using hs.others c
    | response r =>
      simp only [step] at h
      split at h
      case h_2 => cases h
      case h_1 c detecting v hcall =>
        simp only [Agrees, hcall, Option.mem_some_iff, forall_eq', HandshakeStage.sent]
        split_ifs at h with hcode
        · obtain rfl := Option.some.inj h
          simp only [setConnection]
          rw [coherent_update_iff]
          refine iff_of_true ⟨speaks_of_not_alive _ ?_, hs.others c⟩ fun h => absurd hcode h
          simp [NodeConnection.alive]
        · obtain rfl := Option.some.inj h
          rw [accepted_coherent_iff hs hcode]
          exact (imp_iff_right hcode).symm
  | closedAfterRejection t =>
    simp only [step] at h
    split at h
    case h_2 => cases h
    case h_1 c detecting r hcode hcall =>
      obtain rfl := Option.some.inj h
      simp only [Agrees, hcall, Option.mem_some_iff, forall_eq', HandshakeStage.fallback]
      exact rejected_coherent_iff hs hcode
  | lost c =>
    obtain rfl := Option.some.inj h
    refine iff_of_true ?_ trivial
    simp only [setConnection]
    rw [coherent_update_iff]
    exact ⟨speaks_of_not_alive _ rfl, hs.others c⟩
  | close c =>
    obtain rfl := Option.some.inj h
    refine iff_of_true ?_ trivial
    simp only [setConnection]
    rw [coherent_update_iff]
    exact ⟨speaks_of_not_alive _ (by simp [NodeConnection.alive]), hs.others c⟩
  | closeToReconnect c =>
    simp only [step] at h
    split_ifs at h with halive
    obtain rfl := Option.some.inj h
    refine iff_of_true ?_ trivial
    simp only [setConnection]
    rw [coherent_update_iff]
    exact ⟨speaks_of_not_alive _ (by simp [NodeConnection.alive]), hs.others c⟩

theorem coherent_init : (init n).Coherent := by
  intro c halive
  cases halive

end VersionedClient

/-- In every state that a run goes through, the version of the context is that of the
handshake of every connection that is alive, just if every step of it agrees. -/
theorem versions_coherent_iff {n : ℕ} {as : List (VersionStep n)} {s : VersionedClient n}
    (hrun : run VersionedClient.step (.init n) as = some s) :
    Throughout VersionedClient.step VersionedClient.Coherent (.init n) as ↔
      Along VersionedClient.step VersionedClient.Agrees (.init n) as :=
  throughout_iff_along (fun _ _ _ => VersionedClient.step_coherent_iff)
    VersionedClient.coherent_init hrun

/-- Both nodes support no version above 1.7.0. The second takes the version to which the
handshake with the first one has fallen back. -/
theorem versions_coherent_two_nodes :
    let as : List (VersionStep 2) := [.connect 0 0, .opened 0, .sent 0,
      .reply 0 (.response ⟨0, 1, 7, 0, "Unsupported version.", 1⟩), .closedAfterRejection 0,
      .opened 0, .sent 0, .reply 0 (.response ⟨1, 0, 0, 0, "", 0⟩),
      .connect 1 1, .opened 1, .sent 1, .reply 1 (.response ⟨1, 0, 0, 0, "", 0⟩)]
    ∃ s, run VersionedClient.step (.init 2) as = some s ∧
      Throughout VersionedClient.step VersionedClient.Coherent (.init 2) as := by
  intro as
  obtain ⟨s, hs⟩ := Option.isSome_iff_exists.mp (by decide :
    (run VersionedClient.step (.init 2) as).isSome)
  exact ⟨s, hs, (versions_coherent_iff hs).mpr (by decide)⟩

/-- The second node supports no version above 1.4.0: after its handshake, the requests to
the first one are encoded for 1.4.0 as well, though that connection is still alive and its
handshake was for 1.7.1. -/
theorem fallback_overwrites_version :
    ∃ s, run VersionedClient.step (.init 2) [.connect 0 0, .opened 0, .sent 0,
        .reply 0 (.response ⟨1, 0, 0, 0, "", 0⟩),
        .connect 1 1, .opened 1, .sent 1,
        .reply 1 (.response ⟨0, 1, 4, 0, "Unsupported version.", 1⟩), .closedAfterRejection 1,
        .opened 1, .sent 1, .reply 1 (.response ⟨1, 0, 0, 0, "", 0⟩)] = some s ∧
      s.connections 0 = ⟨false, false, true, some ⟨1, 7, 1⟩⟩ ∧
      s.context = some ⟨1, 4, 0⟩ ∧ ¬s.Coherent := by
  refine ⟨_, rfl, rfl, rfl, fun h => ?_⟩
  have hversion := h 0 (by decide) (by decide)
  cases hversion

end PyGridGain
