import PyGridGain.Client.Connect

/-! How an asynchronous client connects: to one node after another until there is a protocol
context, and then, if it is partition aware, to all nodes at once, so that the handshakes
interleave while they share that context. -/

namespace PyGridGain

/-- A call of `AioConnection._connect`: it opens a connection, and sends the handshake
and waits for the reply. -/
inductive CallState
  | idle
  | opening (detecting : Bool)
  | waiting (detecting : Bool)
  | ended (result : Except ConnectError Unit)

namespace CallState

def isDetecting : CallState → Bool
  | opening detecting => detecting
  | waiting detecting => detecting
  | _ => false

def isEnded : CallState → Bool
  | ended _ => true
  | _ => false

/-- What `AioClient._connect` raises of it. -/
def uncaught : CallState → Option ConnectError
  | ended (.error e) => e.uncaught
  | _ => none

/-- A connection that has failed connects again. -/
def reconnect : CallState → CallState
  | ended (.error _) => idle
  | call => call

end CallState

/-- The two calls of `gather` in `AioClient._connect`, and the end of it. -/
inductive Phase
  | connecting
  | reconnecting
  | finished (result : Except ConnectError Unit)

/-- `AioClient._connect` behind its loop over the nodes. The last two fields are a history: how
the last attempts of the first `gather` have gone, `none` where a reply cannot be read, and whether
a handshake of either was accepted. -/
structure AioConnecting where
  context : Option ProtocolContext
  calls : ℕ → CallState
  phase : Phase
  outcomes : ℕ → Option AttemptOutcome
  succeeded : Bool

/-- What comes of the connections, in whatever order. A reply is taken when its call goes on. -/
inductive AioConnectStep
  | connect (node : ℕ)
  | connectionMade (node : ℕ)
  | reply (node : ℕ) (r : Reply) (features : Option ℕ)
  | unreadable (node : ℕ)
  | gathered

/-- The server has accepted a handshake. -/
def AioConnectStep.isAccepted : AioConnectStep → Bool
  | reply _ r _ => r.outcome = .accepted
  | _ => false

namespace AioConnecting

/-- Where the loop over the nodes leaves `AioClient._connect`. Each of its calls was of the next
node, and a connection that has succeeded is alive, so that `connect` returns at once. -/
def start (configured : Bool) (first : NodeResult) : AioConnecting where
  context := first.context
  calls i :=
    if first.calls[i]?.any (·.ended.result matches .ok ()) then .ended (.ok ()) else .idle
  phase :=
    if first.raised = none ∧ partitionAware configured first.context then .connecting
    else .finished first.result
  outcomes _ := some .accepted
  succeeded := false

/-- The outcomes after an attempt for a node. -/
def record (s : AioConnecting) (node : ℕ) (outcome : Option AttemptOutcome) :
    ℕ → Option AttemptOutcome :=
  match s.phase with
  | .connecting => Function.update s.outcomes node outcome
  | _ => s.outcomes

/-- The result of `_connect_version` for the call of a node. -/
def settle (s : AioConnecting) (node : ℕ) (detecting : Bool) (outcome : Option AttemptOutcome)
    (features : Option ℕ) (result : Except ConnectError Unit) : AioConnecting :=
  match settleVersion detecting s.context features result with
  | (context, none) =>
    { s with
      context
      calls := Function.update s.calls node (.opening detecting)
      outcomes := s.record node outcome }
  | (context, some result) =>
    { s with
      context
      calls := Function.update s.calls node (.ended result)
      outcomes := s.record node outcome
      succeeded := s.succeeded || result matches .ok () }

/-- The results are there: of the first `gather`, an exception that is no connection error is
raised, and where there is none the others connect again; those of the second are ignored. -/
def gather (numNodes : ℕ) (s : AioConnecting) : Option AioConnecting :=
  if ∀ i < numNodes, (s.calls i).isEnded then
    match s.phase with
    | .connecting =>
      match (List.range numNodes).findSome? fun i => (s.calls i).uncaught with
      | some e => some { s with phase := .finished (.error e) }
      | none => some { s with phase := .reconnecting, calls := fun i => (s.calls i).reconnect }
    | .reconnecting =>
      let result := if s.context = none then .error .reconnectError else .ok ()
      some { s with phase := .finished result }
    | .finished _ => none
  else none

/-- The steps with `numNodes` nodes, as long as `_connect` has not ended. -/
def step (numNodes : ℕ) (s : AioConnecting) (a : AioConnectStep) : Option AioConnecting :=
  match s.phase, a with
  | .finished _, _ => none
  | _, .connect node =>
    match s.calls node with
    | .idle =>
      if node < numNodes then
        some { s with
          context := some (s.context.getD .first)
          calls := Function.update s.calls node (.opening s.context.isNone) }
      else none
    | _ => none
  | _, .connectionMade node =>
    match s.calls node with
    | .opening detecting =>
      match s.context with
      | none => some (s.settle node detecting none none (.error .attributeError))
      | some c =>
        if c.canHandshake then
          some { s with calls := Function.update s.calls node (.waiting detecting) }
        else some (s.settle node detecting (some .unsent) none (.error .typeError))
    | _ => none
  | _, .reply node r features =>
    match s.calls node, r with
    | .waiting detecting, r =>
      some (s.settle node detecting (some r.outcome) features
        (connectVersion (s.context.map (·.version)) r))
    | .opening detecting, .dropped =>
      some (s.settle node detecting (some .lost) none (.error .connectionError))
    | _, _ => none
  | _, .unreadable node =>
    match s.calls node with
    | .waiting detecting => some (s.settle node detecting none none (.error .parseError))
    | _ => none
  | _, .gathered => s.gather numNodes

end AioConnecting

/-- Some node fails the authentication, and the requests to all nodes before it are made and
their replies are readable. -/
def AuthFailsFirst (numNodes : ℕ) (outcomes : ℕ → Option AttemptOutcome) : Prop :=
  ∃ i < numNodes, outcomes i = some .authFailure ∧ ∀ j < i, ∃ o ∈ outcomes j, o ≠ .unsent

/-- How a call ends of which the last attempt goes so. -/
def EndsAs (r : Except ConnectError Unit) : Option AttemptOutcome → Prop
  | none => r = .error .parseError
  | some .accepted => r = .ok ()
  | some (.fallback _) => False
  | some .rejected => ∃ expected m, r = .error (.handshakeError expected m)
  | some .authFailure => ∃ m, r = .error (.authenticationError m)
  | some .lost => r = .error .connectionError
  | some .unsent => r = .error .typeError

/-- What an attempt that goes so, or whose reply cannot be read, comes to. -/
def SettledAs (c : ProtocolContext) (features : Option ℕ) (result : Except ConnectError Unit) :
    Option AttemptOutcome → Prop
  | none => result = .error .parseError
  | some o => o.Settles false c features (settleVersion false (some c) features result)

/-- A call that does not detect the protocol leaves a context. -/
theorem SettledAs.cases {c : ProtocolContext} {features : Option ℕ}
    {result : Except ConnectError Unit} {o : Option AttemptOutcome}
    (h : SettledAs c features result o) :
    ∃ c' ended, settleVersion false (some c) features result = (some c', ended) ∧
      (∀ r ∈ ended, EndsAs r o) ∧ (ended = some (.ok ()) ↔ o = some .accepted) := by
  cases o with
  | none =>
    obtain rfl : result = .error .parseError := h
    exact ⟨c, _, rfl, by simp [EndsAs], by simp⟩
  | some o =>
    cases o
    case rejected =>
      obtain ⟨expected, m, hsettles⟩ := h
      refine ⟨c, _, hsettles, ?_, by simp⟩
      rintro r ⟨⟩
      exact ⟨expected, m, rfl⟩
    case authFailure =>
      obtain ⟨m, hsettles⟩ := h
      exact ⟨c, _, hsettles, by simp [EndsAs], by simp⟩
    all_goals exact ⟨_, _, h, by simp [EndsAs], by simp⟩

theorem EndsAs.ne_reconnectError {r : Except ConnectError Unit} {o : Option AttemptOutcome}
    (h : EndsAs r o) : r ≠ .error .reconnectError := by
  rintro rfl
  rcases o with _ | _ | _ | _ | _ | _ | _ <;> simp [EndsAs] at h

theorem CallState.reconnect_isDetecting (call : CallState) (h : call.isDetecting = false) :
    call.reconnect.isDetecting = false := by
  unfold CallState.reconnect
  split
  · rfl
  · exact h

theorem CallState.uncaught_eq_some {call : CallState} {e : ConnectError}
    (h : call.uncaught = some e) : call = .ended (.error e) := by
  unfold CallState.uncaught ConnectError.uncaught at h
  split at h
  · split_ifs at h
    rw [Option.some.inj h]
  · cases h

/-- What is raised of such a call. -/
theorem EndsAs.uncaught {r : Except ConnectError Unit} {o : Option AttemptOutcome}
    (h : EndsAs r o) :
    (o = some .authFailure ↔ ∃ m, (CallState.ended r).uncaught = some (.authenticationError m)) ∧
      ((CallState.ended r).uncaught = none → ∃ o' ∈ o, o' ≠ .unsent) ∧
      ∀ o' ∈ o, o' ≠ .unsent → o' ≠ .authFailure → (CallState.ended r).uncaught = none := by
  unfold EndsAs at h
  split at h
  case h_3 => exact h.elim
  case h_4 =>
    obtain ⟨expected, m, rfl⟩ := h
    simp [CallState.uncaught, ConnectError.uncaught, ConnectError.isConnectionError]
  case h_5 =>
    obtain ⟨m, rfl⟩ := h
    simp [CallState.uncaught, ConnectError.uncaught, ConnectError.isConnectionError]
  all_goals simp [CallState.uncaught, ConnectError.uncaught, ConnectError.isConnectionError, *]

/-- The first exception in the order of the nodes. -/
theorem findSome?_range {β : Type} {f : ℕ → Option β} {n : ℕ} {b : β} :
    (List.range n).findSome? f = some b ↔ ∃ i < n, f i = some b ∧ ∀ j < i, f j = none := by
  induction n with
  | zero => simp
  | succ n ih =>
    rw [List.range_succ, List.findSome?_append, Option.or_eq_some_iff, ih]
    simp only [List.findSome?_eq_none_iff, List.mem_range, List.findSome?_singleton]
    constructor
    · rintro (⟨i, hi, hb, hbefore⟩ | ⟨hbefore, hb⟩)
      · exact ⟨i, Nat.lt_succ_of_lt hi, hb, hbefore⟩
      · exact ⟨n, Nat.lt_succ_self n, hb, hbefore⟩
    · rintro ⟨i, hi, hb, hbefore⟩
      rcases Nat.lt_succ_iff_lt_or_eq.mp hi with hlt | rfl
      · exact .inl ⟨i, hlt, hb, hbefore⟩
      · exact .inr ⟨hbefore, hb⟩

/-- It is a failed authentication just if that comes first. -/
theorem authFailsFirst_iff {numNodes : ℕ} {calls : ℕ → CallState}
    {outcomes : ℕ → Option AttemptOutcome}
    (h : ∀ i < numNodes, ∃ r, calls i = .ended r ∧ EndsAs r (outcomes i)) :
    AuthFailsFirst numNodes outcomes ↔
      ∃ m, (List.range numNodes).findSome? (fun i => (calls i).uncaught) =
        some (.authenticationError m) := by
  simp only [findSome?_range]
  constructor
  · rintro ⟨i, hi, hauth, hbefore⟩
    -- The first node that fails the authentication, as there may be more of them.
    classical
    have hex : ∃ k, outcomes k = some .authFailure := ⟨i, hauth⟩
    have hle : Nat.find hex ≤ i := Nat.find_min' hex hauth
    obtain ⟨r, hr, hends⟩ := h _ (hle.trans_lt hi)
    obtain ⟨m, hm⟩ := hends.uncaught.1.mp (Nat.find_spec hex)
    refine ⟨m, _, hle.trans_lt hi, by rw [hr, hm], fun j hj => ?_⟩
    obtain ⟨o, ho, hsent⟩ := hbefore j (hj.trans_le hle)
    obtain ⟨r', hr', hends'⟩ := h j (by omega)
    rw [hr']
    refine hends'.uncaught.2.2 o ho hsent ?_
    rintro rfl
    exact Nat.find_min hex hj ho
  · rintro ⟨m, i, hi, hauth, hbefore⟩
    obtain ⟨r, hr, hends⟩ := h i hi
    rw [hr] at hauth
    refine ⟨i, hi, hends.uncaught.1.mpr ⟨m, hauth⟩, fun j hj => ?_⟩
    obtain ⟨r', hr', hends'⟩ := h j (hj.trans hi)
    exact hends'.uncaught.2.1 (hr' ▸ hbefore j hj)

namespace AioConnecting
variable {numNodes node : ℕ} {s t : AioConnecting}

/-- What holds while `gather` runs: no call detects the protocol, so that there is a context all
the time, and the calls of the first `gather` end as their last attempts go. -/
structure Inv (numNodes : ℕ) (s : AioConnecting) : Prop where
  context : s.context ≠ none
  calls : ∀ i, (s.calls i).isDetecting = false
  connecting : s.phase = .connecting → ∀ i r, s.calls i = .ended r → EndsAs r (s.outcomes i)
  reconnecting : s.phase = .reconnecting → ¬AuthFailsFirst numNodes s.outcomes
  finished : ∀ r, s.phase = .finished r → r ≠ .error .reconnectError ∧
    (AuthFailsFirst numNodes s.outcomes ↔ ∃ m, r = .error (.authenticationError m))

/-- A call changes, and the outcome for its node may. -/
theorem Inv.set (h : s.Inv numNodes) {call : CallState} {outcomes : ℕ → Option AttemptOutcome}
    (hdetecting : call.isDetecting = false) (hphase : s.phase ≠ .connecting → outcomes = s.outcomes)
    (hothers : ∀ i ≠ node, outcomes i = s.outcomes i)
    (hends : s.phase = .connecting → ∀ r, call = .ended r → EndsAs r (outcomes node))
    (c : ProtocolContext) (succeeded : Bool) :
    Inv numNodes ⟨some c, Function.update s.calls node call, s.phase, outcomes, succeeded⟩ := by
  refine ⟨Option.some_ne_none c, fun i => ?_, fun hconnecting i r => ?_, fun hreconnecting => ?_,
    fun r hfinished => ?_⟩
  · change (Function.update s.calls node call i).isDetecting = false
    by_cases hi : i = node
    · rw [hi, Function.update_self]
      exact hdetecting
    · rw [Function.update_of_ne hi]
      exact h.calls i
  · change Function.update s.calls node call i = .ended r → EndsAs r (outcomes i)
    by_cases hi : i = node
    · rw [hi, Function.update_self]
      exact hends hconnecting r
    · rw [Function.update_of_ne hi, hothers i hi]
      exact h.connecting hconnecting i r
  · have heq : outcomes = s.outcomes := hphase (by simp [show s.phase = _ from hreconnecting])
    exact heq ▸ h.reconnecting hreconnecting
  · have heq : outcomes = s.outcomes := hphase (by simp [show s.phase = _ from hfinished])
    exact heq ▸ h.finished r hfinished

/-- A call goes on. -/
theorem Inv.advance (h : s.Inv numNodes) {call : CallState} (hdetecting : call.isDetecting = false)
    (hended : call.isEnded = false) (c : ProtocolContext) :
    Inv numNodes { s with context := some c, calls := Function.update s.calls node call } := by
  refine h.set hdetecting (fun _ => rfl) (fun _ _ => rfl) (fun _ r hr => ?_) c s.succeeded
  subst hr
  cases hended

/-- An attempt for a node is over. -/
theorem Inv.settle (h : s.Inv numNodes) {c : ProtocolContext} (hcontext : s.context = some c)
    {features : Option ℕ} {result : Except ConnectError Unit} {o : Option AttemptOutcome}
    (hresult : SettledAs c features result o) :
    (s.settle node false o features result).Inv numNodes ∧
      ((s.settle node false o features result).succeeded ↔
        s.succeeded ∨ o = some .accepted) := by
  obtain ⟨c', ended, hsettle, hends, hok⟩ := hresult.cases
  have hphase : s.phase ≠ .connecting → s.record node o = s.outcomes := by
    intro hne
    unfold record
    split
    · rename_i heq
      exact absurd heq hne
    · rfl
  have hrecord : s.phase = .connecting → s.record node o = Function.update s.outcomes node o := by
    intro heq
    rw [record, heq]
  have hothers : ∀ i ≠ node, s.record node o i = s.outcomes i := by
    intro i hi
    by_cases heq : s.phase = .connecting
    · rw [hrecord heq, Function.update_of_ne hi]
    · rw [hphase heq]
  unfold AioConnecting.settle
  rw [hcontext, hsettle, ← hok]
  cases ended with
  | none =>
    exact ⟨h.set rfl hphase hothers (fun _ r hr => CallState.noConfusion hr) c' _, by simp⟩
  | some result =>
    refine ⟨h.set rfl hphase hothers (fun heq r hr => ?_) c' _, ?_⟩
    · rw [hrecord heq, Function.update_self, ← CallState.ended.inj hr]
      exact hends result rfl
    · rcases result with e | ⟨⟩ <;> simp

/-- The results of a `gather` are there. -/
theorem Inv.gather (h : s.Inv numNodes) (hstep : s.gather numNodes = some t) :
    t.Inv numNodes ∧ t.succeeded = s.succeeded := by
  unfold AioConnecting.gather at hstep
  by_cases hall : ∀ i < numNodes, (s.calls i).isEnded
  swap
  · rw [if_neg hall] at hstep
    cases hstep
  rw [if_pos hall] at hstep
  have hended : ∀ i < numNodes, ∃ r, s.calls i = .ended r := by
    intro i hi
    have hi := hall i hi
    cases hcall : s.calls i <;> simp_all [CallState.isEnded]
  cases hphase : s.phase with
  | connecting =>
    have hauth := authFailsFirst_iff fun i hi => (hended i hi).imp fun r hr =>
      ⟨hr, h.connecting hphase i r hr⟩
    rw [hphase] at hstep
    dsimp only at hstep
    cases hfirst : (List.range numNodes).findSome? fun i => (s.calls i).uncaught with
    | some e =>
      rw [hfirst] at hstep hauth
      obtain rfl := Option.some.inj hstep
      refine ⟨⟨h.context, h.calls, nofun, nofun, ?_⟩, rfl⟩
      rintro r ⟨⟩
      obtain ⟨i, hi, hcall, -⟩ := findSome?_range.mp hfirst
      have hends := h.connecting hphase i _ (CallState.uncaught_eq_some hcall)
      exact ⟨hends.ne_reconnectError, by simpa using hauth⟩
    | none =>
      rw [hfirst] at hstep hauth
      obtain rfl := Option.some.inj hstep
      refine ⟨⟨h.context, fun i => ?_, nofun, fun _ => ?_, nofun⟩, rfl⟩
      · exact (s.calls i).reconnect_isDetecting (h.calls i)
      · simp [hauth]
  | reconnecting =>
    rw [hphase] at hstep
    obtain rfl := Option.some.inj hstep
    refine ⟨⟨h.context, h.calls, nofun, nofun, ?_⟩, rfl⟩
    rintro r ⟨⟩
    simp [h.context, h.reconnecting hphase]
  | finished r =>
    rw [hphase] at hstep
    cases hstep

/-- What a step does but the end of a `gather`: a call goes on, or an attempt is over. -/
theorem Inv.step_cases (h : s.Inv numNodes) {a : AioConnectStep}
    (hstep : s.step numNodes a = some t) :
    (∃ node call c, call.isDetecting = false ∧ call.isEnded = false ∧ a.isAccepted = false ∧
        t = { s with context := some c, calls := Function.update s.calls node call }) ∨
      (∃ node features result o c, s.context = some c ∧ SettledAs c features result o ∧
        (o = some .accepted ↔ a.isAccepted) ∧ t = s.settle node false o features result) ∨
      a.isAccepted = false ∧ s.gather numNodes = some t := by
  obtain ⟨c, hcontext⟩ := Option.ne_none_iff_exists'.mp h.context
  have hopening : ∀ {node detecting}, s.calls node = .opening detecting → detecting = false := by
    intro node detecting hcall
    have hnot := h.calls node
    rwa [hcall] at hnot
  have hwaiting : ∀ {node detecting}, s.calls node = .waiting detecting → detecting = false := by
    intro node detecting hcall
    have hnot := h.calls node
    rwa [hcall] at hnot
  unfold step at hstep
  split at hstep
  case h_1 => cases hstep
  case h_2 node hphase =>
    split at hstep
    case h_1 hcall =>
      split_ifs at hstep with hnode
      obtain rfl := Option.some.inj hstep
      exact .inl ⟨node, _, _, by simp [CallState.isDetecting, hcontext], rfl, rfl, rfl⟩
    case h_2 => cases hstep
  case h_3 node hphase =>
    split at hstep
    case h_1 detecting hcall =>
      obtain rfl := hopening hcall
      rw [hcontext] at hstep
      dsimp only at hstep
      split_ifs at hstep with hcan
      · obtain rfl := Option.some.inj hstep
        exact .inl ⟨node, .waiting false, c, rfl, rfl, rfl, rfl⟩
      · obtain rfl := Option.some.inj hstep
        exact .inr (.inl ⟨node, none, .error .typeError, some .unsent, c, hcontext, rfl,
          by simp [AioConnectStep.isAccepted], rfl⟩)
    case h_2 => cases hstep
  case h_4 node r features hphase =>
    split at hstep
    case h_1 detecting _ hcall =>
      obtain rfl := hwaiting hcall
      obtain rfl := Option.some.inj hstep
      refine .inr (.inl ⟨node, features, _, _, c, hcontext, ?_, ?_, rfl⟩)
      · rw [hcontext]
        exact settles_reply false c features _
      · simp [AioConnectStep.isAccepted]
    case h_2 detecting hcall =>
      obtain rfl := hopening hcall
      obtain rfl := Option.some.inj hstep
      exact .inr (.inl ⟨node, none, .error .connectionError, some .lost, c, hcontext, rfl,
        by simp [AioConnectStep.isAccepted, Reply.outcome], rfl⟩)
    case h_3 => cases hstep
  case h_5 node hphase =>
    split at hstep
    case h_1 detecting hcall =>
      obtain rfl := hwaiting hcall
      obtain rfl := Option.some.inj hstep
      exact .inr (.inl ⟨node, none, _, none, c, hcontext, rfl,
        by simp [AioConnectStep.isAccepted], rfl⟩)
    case h_2 => cases hstep
  case h_6 => exact .inr (.inr ⟨rfl, hstep⟩)

/-- Every step keeps the invariant, and only an accepted handshake counts. -/
theorem Inv.step (h : s.Inv numNodes) {a : AioConnectStep} (hstep : s.step numNodes a = some t) :
    t.Inv numNodes ∧ (t.succeeded ↔ s.succeeded ∨ a.isAccepted) := by
  rcases h.step_cases hstep with ⟨node, call, c, hdetecting, hended, hnot, rfl⟩ |
    ⟨node, features, result, o, c, hcontext, hsettled, haccepted, rfl⟩ | ⟨hnot, hgather⟩
  · exact ⟨h.advance hdetecting hended c, by simp [hnot]⟩
  · rw [← haccepted]
    exact h.settle hcontext hsettled
  · obtain ⟨hinv, hsucceeded⟩ := h.gather hgather
    exact ⟨hinv, by simp [hsucceeded, hnot]⟩

/-- A run keeps it, and has succeeded just if a handshake of it was accepted. -/
theorem Inv.run (h : s.Inv numNodes) {as : List AioConnectStep}
    (hrun : run (AioConnecting.step numNodes) s as = some t) :
    t.Inv numNodes ∧ (t.succeeded ↔ s.succeeded ∨ ∃ a ∈ as, a.isAccepted) := by
  induction as generalizing s with
  | nil =>
    obtain rfl := Option.some.inj hrun
    exact ⟨h, by simp⟩
  | cons a as ih =>
    obtain ⟨u, hstep, hrest⟩ := run_cons hrun
    obtain ⟨hinv, hsucceeded⟩ := h.step hstep
    obtain ⟨hinv', hsucceeded'⟩ := ih hinv hrest
    exact ⟨hinv', by rw [hsucceeded', hsucceeded, List.exists_mem_cons_iff, or_assoc]⟩

/-- The gather starts only with a context. -/
theorem inv_start {configured : Bool} {first : NodeResult} (hraised : first.raised = none)
    (haware : partitionAware configured first.context) :
    (start configured first).Inv numNodes := by
  have hcalls : ∀ i, (start configured first).calls i = .ended (.ok ()) ∨
      (start configured first).calls i = .idle := fun i => ite_eq_or_eq _ _ _
  have hphase : (start configured first).phase = .connecting := if_pos ⟨hraised, haware⟩
  refine ⟨?_, fun i => ?_, fun _ i r hr => ?_, ?_, ?_⟩
  · rintro hnone
    simp [partitionAware, show first.context = none from hnone] at haware
  · rcases hcalls i with hcall | hcall <;> rw [hcall] <;> rfl
  · rcases hcalls i with hcall | hcall
    · exact (CallState.ended.inj (hcall.symm.trans hr)).symm
    · cases hcall.symm.trans hr
  · rw [hphase]
    nofun
  · rw [hphase]
    nofun

/-- No step is taken where `_connect` has ended. -/
theorem run_finished {r : Except ConnectError Unit} (hphase : s.phase = .finished r)
    {as : List AioConnectStep} (hrun : PyGridGain.run (AioConnecting.step numNodes) s as = some t) :
    as = [] ∧ t = s := by
  cases as with
  | nil => exact ⟨rfl, (Option.some.inj hrun).symm⟩
  | cons a as =>
    obtain ⟨u, hstep, -⟩ := run_cons hrun
    unfold AioConnecting.step at hstep
    rw [hphase] at hstep
    cases hstep

end AioConnecting

/-- What is to hold where `AioClient._connect` has ended with `r` after the loop over the nodes
and a run to `s`: as of `Client._connect`, where the calls of `gather` count too. -/
structure AioNoVersionLeft (first : NodeResult) (s : AioConnecting) (r : Except ConnectError Unit) :
    Prop where
  reset : ∀ call ∈ first.calls, call.before = none → call.ended.result ≠ .ok () →
    call.ended.context = none
  returns : r = .ok () → (∃ call ∈ first.calls, call.ended.result = .ok ()) ∨ s.succeeded
  raises : (∀ call ∈ first.calls, call.ended.result ≠ .ok ()) → s.succeeded = false →
    r = .error .reconnectError ∨ ∃ m, r = .error (.authenticationError m)

/-- Some node accepts a handshake, of the loop or of a `gather`, or it is an authentication that
fails first. -/
def AioAnswered (n numNodes : ℕ) (first : NodeResult) (as : List AioConnectStep)
    (outcomes : ℕ → Option AttemptOutcome) : Prop :=
  Answered n first.calls ∨ (∃ a ∈ as, a.isAccepted) ∨ AuthFailsFirst numNodes outcomes

section Run
variable {n numNodes : ℕ} {configured : Bool} {nodes : List NodeAttempts}
  {context : Option ProtocolContext} {first : NodeResult} {as : List AioConnectStep}
  {s : AioConnecting} {r : Except ConnectError Unit}

/-- Where the loop over the nodes is all of it. -/
theorem aioNoVersionLeft_of_loop (hfirst : connectNodes n false nodes context = some first) :
    AioNoVersionLeft first (.start configured first) first.result ↔
      NotRejected n first.calls ∧ (Misleading n context first.calls →
        AioAnswered n numNodes first [] (AioConnecting.start configured first).outcomes) := by
  have hauth : ¬AuthFailsFirst numNodes (AioConnecting.start configured first).outcomes := by
    simp [AuthFailsFirst, AioConnecting.start]
  have hanswered : AioAnswered n numNodes first [] (AioConnecting.start configured first).outcomes ↔
      Answered n first.calls := by simp [AioAnswered, hauth]
  rw [hanswered, ← noVersionLeft_iff hfirst]
  constructor
  · intro h
    exact ⟨h.reset, fun hok => (h.returns hok).resolve_right (by simp [AioConnecting.start]),
      fun hfailed => h.raises hfailed rfl⟩
  · intro h
    exact ⟨h.reset, fun hok => .inl (h.returns hok), fun hfailed _ => h.raises hfailed⟩

/-- Where the client goes on with a `gather`. -/
theorem aioNoVersionLeft_of_gather (hfirst : connectNodes n false nodes context = some first)
    (hraised : first.raised = none) (haware : partitionAware configured first.context)
    (hrun : run (AioConnecting.step numNodes) (.start configured first) as = some s)
    (hphase : s.phase = .finished r) :
    AioNoVersionLeft first s r ↔ NotRejected n first.calls ∧
      (Misleading n context first.calls → AioAnswered n numNodes first as s.outcomes) := by
  have hspec := connectNodes_spec hfirst
  have hcontext : first.context ≠ none := by
    intro hnone
    simp [partitionAware, hnone] at haware
  obtain ⟨hinv, hsucceeded⟩ := (AioConnecting.inv_start hraised haware).run hrun
  have hsucceeded : s.succeeded ↔ ∃ a ∈ as, a.isAccepted := by
    simpa [AioConnecting.start] using hsucceeded
  have hanswered : (∃ call ∈ first.calls, call.ended.result = .ok ()) ↔ Answered n first.calls := by
    simpa [hraised] using hspec.answered_iff
  have hmisleading : Misleading n context first.calls ↔ context ≠ none := by
    simp [Misleading, hspec.unsent_iff, hraised]
  obtain ⟨hreconnect, hauth⟩ := hinv.finished r hphase
  rw [hmisleading, AioAnswered, ← hanswered, ← hsucceeded, hauth]
  constructor
  · intro h
    refine ⟨hspec.reset_iff.mp h.reset, fun _ => ?_⟩
    by_cases hfailed : ∀ call ∈ first.calls, call.ended.result ≠ .ok ()
    · by_cases hs : s.succeeded
      · exact .inr (.inl hs)
      · cases r with
        | ok u =>
          rcases h.returns rfl with ⟨call, hcall, hok⟩ | hok
          · exact absurd hok (hfailed call hcall)
          · exact absurd hok hs
        | error e =>
          exact .inr (.inr ((h.raises hfailed (by simpa using hs)).resolve_left hreconnect))
    · push Not at hfailed
      exact .inl hfailed
  · rintro ⟨hclean, hreported⟩
    have hreported : (∃ call ∈ first.calls, call.ended.result = .ok ()) ∨ s.succeeded ∨
        ∃ m, r = .error (.authenticationError m) := by
      by_cases hnone : context = none
      · exact .inl (hspec.succeeded hclean hcontext hnone)
      · exact hreported hnone
    refine ⟨hspec.reset_iff.mpr hclean, fun hok => ?_, fun hfailed hs => ?_⟩
    · exact hreported.imp_right fun h => h.resolve_right (by simp [hok])
    · rcases hreported with ⟨call, hcall, hok⟩ | hok | hauth
      · exact absurd hok (hfailed call hcall)
      · exact absurd hok (by simp [hs])
      · exact .inr hauth

theorem aioNoVersionLeft_iff (hfirst : connectNodes n false nodes context = some first)
    (hrun : run (AioConnecting.step numNodes) (.start configured first) as = some s)
    (hphase : s.phase = .finished r) :
    AioNoVersionLeft first s r ↔ NotRejected n first.calls ∧
      (Misleading n context first.calls → AioAnswered n numNodes first as s.outcomes) := by
  by_cases hgather : first.raised = none ∧ partitionAware configured first.context
  · exact aioNoVersionLeft_of_gather hfirst hgather.1 hgather.2 hrun hphase
  · have hstart : (AioConnecting.start configured first).phase = .finished first.result :=
      if_neg hgather
    obtain ⟨rfl, rfl⟩ := AioConnecting.run_finished hstart hrun
    obtain rfl := Phase.finished.inj (hstart.symm.trans hphase)
    exact aioNoVersionLeft_of_loop hfirst

/-- No call that `gather` makes is one without a context. -/
theorem gather_detects_nothing
    (hrun : run (AioConnecting.step numNodes) (.start configured first) as = some s) (i : ℕ) :
    (s.calls i).isDetecting = false := by
  by_cases hgather : first.raised = none ∧ partitionAware configured first.context
  · exact ((AioConnecting.inv_start hgather.1 hgather.2).run hrun).1.calls i
  · obtain ⟨-, rfl⟩ := AioConnecting.run_finished (if_neg hgather) hrun
    rw [AioConnecting.start]
    dsimp only
    split_ifs <;> rfl

end Run

end PyGridGain
