import PyGridGain.Connection.Handshake
import PyGridGain.Lib.Runs

/-! How a client connects to its nodes. The protocol context tells whether any handshake
has succeeded, but a handshake that the server rejects leaves it behind. -/

namespace PyGridGain

/-! ### One node after another -/

/-- What comes of the attempts of `connect` at a node, and of those of `reconnect` after that. -/
structure NodeAttempts where
  connect : ℕ → ConnectAttempt
  reconnect : ℕ → ConnectAttempt

/-- A call of `connect` that was made with the context `before`. -/
structure ConnectCall where
  before : Option ProtocolContext
  attempts : ℕ → ConnectAttempt
  ended : Ended

/-- What comes of some nodes: an exception that leaves `_connect`, or a context to go on with. -/
structure NodeResult where
  raised : Option ConnectError
  context : Option ProtocolContext
  calls : List ConnectCall

/-- An exception that is no connection error is not caught. -/
def ConnectError.uncaught (e : ConnectError) : Option ConnectError :=
  if e.isConnectionError then none else some e

/-- The property `partition_aware`, of a client that is `configured` to be that. -/
def partitionAware (configured : Bool) (context : Option ProtocolContext) : Bool :=
  configured && context.any fun c => c.version.isPartitionAwarenessSupported

/-- One round of the loop of `Client._connect`, with at most `n` attempts in each call.
The connection has failed when `reconnect` is called, so that it connects. -/
def connectNode (n : ℕ) (configured : Bool) (node : NodeAttempts)
    (context : Option ProtocolContext) : Option NodeResult :=
  if context = none ∨ partitionAware configured context then
    match connect n node.connect context with
    | none => none
    | some ended =>
      let call : ConnectCall := ⟨context, node.connect, ended⟩
      match ended.result with
      | .ok () => some ⟨none, ended.context, [call]⟩
      | .error e =>
        if e.isConnectionError ∧ partitionAware configured ended.context then
          match connect n node.reconnect ended.context with
          | none => none
          | some again =>
            let calls := [call, ⟨ended.context, node.reconnect, again⟩]
            match again.result with
            | .ok () => some ⟨none, again.context, calls⟩
            | .error e' => some ⟨e'.uncaught, again.context, calls⟩
        else some ⟨e.uncaught, ended.context, [call]⟩
  else some ⟨none, context, []⟩

/-- The loop of `Client._connect`. That of `AioClient._connect` is the loop of a client that is not
configured to be partition aware: it connects as long as there is no context, and never again. -/
def connectNodes (n : ℕ) (configured : Bool) :
    List NodeAttempts → Option ProtocolContext → Option NodeResult
  | [], context => some ⟨none, context, []⟩
  | node :: nodes, context =>
    match connectNode n configured node context with
    | none => none
    | some r =>
      match r.raised with
      | some _ => some r
      | none => (connectNodes n configured nodes r.context).map fun rest =>
          { rest with calls := r.calls ++ rest.calls }

/-- What follows the loop, unless an exception has left it. -/
def NodeResult.result (r : NodeResult) : Except ConnectError Unit :=
  match r.raised with
  | some e => .error e
  | none => if r.context = none then .error .reconnectError else .ok ()

/-- How `_connect` has ended, with the calls of `connect` that it made. -/
structure ClientResult where
  result : Except ConnectError Unit
  calls : List ConnectCall

/-- `Client._connect`. -/
def clientConnect (n : ℕ) (configured : Bool) (nodes : List NodeAttempts)
    (context : Option ProtocolContext) : Option ClientResult :=
  (connectNodes n configured nodes context).map fun r => ⟨r.result, r.calls⟩

/-- A call that raises leaves no version behind; `_connect` returns only if a handshake
has succeeded, and raises the error that it should otherwise. -/
structure NoVersionLeft (c : ClientResult) : Prop where
  reset : ∀ call ∈ c.calls, call.before = none → call.ended.result ≠ .ok () →
    call.ended.context = none
  returns : c.result = .ok () → ∃ call ∈ c.calls, call.ended.result = .ok ()
  raises : (∀ call ∈ c.calls, call.ended.result ≠ .ok ()) →
    c.result = .error .reconnectError ∨ ∃ m, c.result = .error (.authenticationError m)

/-! ### The last attempt -/

/-- How the first of `n` attempts, from number `i` on, goes that is not answered with another. -/
def lastOutcome (attempts : ℕ → ConnectAttempt) : ℕ → ℕ → ProtocolContext → Option AttemptOutcome
  | 0, _, _ => none
  | n + 1, i, c =>
    match (attempts i).outcome c with
    | .fallback v => lastOutcome attempts n (i + 1) (c.setVersion v)
    | o => some o

/-- How the last attempt of a call goes. -/
def ConnectCall.lastOutcome (n : ℕ) (call : ConnectCall) : Option AttemptOutcome :=
  PyGridGain.lastOutcome call.attempts n 0 (call.before.getD .first)

/-- The server has rejected the handshake for good. -/
def AttemptOutcome.isRejection : AttemptOutcome → Bool
  | rejected | authFailure => true
  | _ => false

/-- What is known of a call of `connect` with at most `n` attempts. -/
def ConnectCall.Made (n : ℕ) (call : ConnectCall) : Prop :=
  connect n call.attempts call.before = some call.ended

/-- What a call is like that ends so. -/
def AttemptOutcome.Ends (before : Option ProtocolContext) (e : Ended) : AttemptOutcome → Prop
  | accepted => e.result = .ok () ∧ e.context ≠ none
  | fallback _ => False
  | rejected => (∃ expected m, e.result = .error (.handshakeError expected m)) ∧ e.context ≠ none
  | authFailure => (∃ m, e.result = .error (.authenticationError m)) ∧ e.context ≠ none
  | lost => e.result = .error .connectionError ∧ (e.context = none ↔ before = none)
  | unsent => e.result = .error .typeError ∧ (e.context = none ↔ before = none)

/-- No call without a version is rejected. -/
def NotRejected (n : ℕ) (calls : List ConnectCall) : Prop :=
  ∀ call ∈ calls, call.before = none → ∀ o ∈ call.lastOutcome n, ¬o.isRejection

/-- The context is still that of an earlier connection, or a request cannot be made. -/
def Misleading (n : ℕ) (context : Option ProtocolContext) (calls : List ConnectCall) : Prop :=
  context ≠ none ∨ ∃ call ∈ calls, call.lastOutcome n = some .unsent

/-- Some node accepts the handshake or fails the authentication. -/
def Answered (n : ℕ) (calls : List ConnectCall) : Prop :=
  ∃ call ∈ calls, call.lastOutcome n = some .accepted ∨ call.lastOutcome n = some .authFailure

theorem connectLoop_last {detecting : Bool} {attempts : ℕ → ConnectAttempt} {n i : ℕ}
    {c : ProtocolContext} {e : Ended}
    (h : connectLoop detecting attempts n i (some c) = some e) :
    ∃ o w features, lastOutcome attempts n i c = some o ∧ (∀ v, o ≠ .fallback v) ∧
      o.Settles detecting w features (e.context, some e.result) := by
  induction n generalizing i c e with
  | zero => cases h
  | succ n ih =>
    have hsettles := settles_attempt detecting c (attempts i)
    rw [connectLoop] at h
    rw [lastOutcome]
    cases houtcome : (attempts i).outcome c
    case fallback v =>
      rw [houtcome] at hsettles
      rw [show settleVersion _ _ _ _ = _ from hsettles] at h
      obtain ⟨e', he', rfl⟩ := Option.map_eq_some_iff.mp h
      have hrest := ih he'
      exact hrest
    all_goals
      rw [houtcome] at hsettles
      refine ⟨_, c, (attempts i).features, rfl, fun v => AttemptOutcome.noConfusion, ?_⟩
    case accepted | lost | unsent =>
      rw [show settleVersion _ _ _ _ = _ from hsettles] at h
      obtain rfl := Option.some.inj h
      rfl
    case rejected =>
      obtain ⟨expected, m, hsettles⟩ := hsettles
      rw [hsettles] at h
      obtain rfl := Option.some.inj h
      exact ⟨expected, m, rfl⟩
    case authFailure =>
      obtain ⟨m, hsettles⟩ := hsettles
      rw [hsettles] at h
      obtain rfl := Option.some.inj h
      exact ⟨m, rfl⟩

section Calls
variable {n : ℕ} {call : ConnectCall}

theorem ConnectCall.Made.ends (h : call.Made n) :
    ∃ o, call.lastOutcome n = some o ∧ o.Ends call.before call.ended := by
  obtain ⟨o, w, features, hlast, hfallback, hsettles⟩ := connectLoop_last h
  refine ⟨o, hlast, ?_⟩
  have hreset : ∀ c : ProtocolContext,
      (if call.before.isNone then none else some c) = none ↔ call.before = none := by
    intro c
    cases call.before <;> simp
  cases o
  case fallback v => exact absurd rfl (hfallback v)
  case accepted =>
    obtain ⟨hcontext, hresult⟩ := Prod.mk.inj hsettles
    exact ⟨Option.some.inj hresult, by simp [hcontext]⟩
  case rejected =>
    obtain ⟨expected, m, hsettles⟩ := hsettles
    obtain ⟨hcontext, hresult⟩ := Prod.mk.inj hsettles
    exact ⟨⟨expected, m, Option.some.inj hresult⟩, by simp [hcontext]⟩
  case authFailure =>
    obtain ⟨m, hsettles⟩ := hsettles
    obtain ⟨hcontext, hresult⟩ := Prod.mk.inj hsettles
    exact ⟨⟨m, Option.some.inj hresult⟩, by simp [hcontext]⟩
  all_goals
    obtain ⟨hcontext, hresult⟩ := Prod.mk.inj hsettles
    exact ⟨Option.some.inj hresult, hcontext ▸ hreset w⟩

/-- A call without a version leaves none behind exactly if the server does not reject it. -/
theorem reset_iff (h : call.Made n) (hnone : call.before = none) :
    (call.ended.result ≠ .ok () → call.ended.context = none) ↔
      ∀ o ∈ call.lastOutcome n, ¬o.isRejection := by
  obtain ⟨o, hlast, hends⟩ := h.ends
  rw [hlast]
  simp only [Option.mem_some_iff, forall_eq']
  cases o
  case fallback v => exact hends.elim
  case accepted => simp [hends.1, AttemptOutcome.isRejection]
  case rejected =>
    obtain ⟨⟨expected, m, hresult⟩, hcontext⟩ := hends
    simp [hresult, hcontext, AttemptOutcome.isRejection]
  case authFailure =>
    obtain ⟨⟨m, hresult⟩, hcontext⟩ := hends
    simp [hresult, hcontext, AttemptOutcome.isRejection]
  all_goals simp [hends.2.mpr hnone, AttemptOutcome.isRejection]

/-- The version is lost only by a call that was made without one. -/
theorem before_of_context (h : call.Made n) (hctx : call.ended.context = none) :
    call.before = none := by
  obtain ⟨o, -, hends⟩ := h.ends
  cases o
  case fallback v => exact hends.elim
  case lost | unsent => exact hends.2.mp hctx
  all_goals exact absurd hctx hends.2

/-- A call that is not rejected and leaves a version has succeeded, or had one before. -/
theorem ok_of_context (h : call.Made n)
    (hr : call.before = none → ∀ o ∈ call.lastOutcome n, ¬o.isRejection)
    (hctx : call.ended.context ≠ none) : call.ended.result = .ok () ∨ call.before ≠ none := by
  by_cases hnone : call.before = none
  · left
    by_contra hres
    exact hctx ((reset_iff h hnone).mpr (hr hnone) hres)
  · exact Or.inr hnone

theorem ok_iff_accepted (h : call.Made n) :
    call.ended.result = .ok () ↔ call.lastOutcome n = some .accepted := by
  obtain ⟨o, hlast, hends⟩ := h.ends
  rw [hlast]
  cases o
  case fallback v => exact hends.elim
  case accepted => simp [hends.1]
  case rejected =>
    obtain ⟨⟨expected, m, hresult⟩, -⟩ := hends
    simp [hresult]
  case authFailure =>
    obtain ⟨⟨m, hresult⟩, -⟩ := hends
    simp [hresult]
  all_goals simp [hends.1]

/-- Only a failed authentication and a request that cannot be made are not caught. -/
theorem uncaught_error (h : call.Made n) {e : ConnectError} (hres : call.ended.result = .error e) :
    e.isConnectionError = false ↔
      (∃ m, e = .authenticationError m) ∧ call.lastOutcome n = some .authFailure ∨
        e = .typeError ∧ call.lastOutcome n = some .unsent := by
  obtain ⟨o, hlast, hends⟩ := h.ends
  rw [hlast]
  cases o
  case fallback v => exact hends.elim
  case accepted => exact absurd (hres.symm.trans hends.1) (by simp)
  case rejected =>
    obtain ⟨⟨expected, m, hresult⟩, -⟩ := hends
    obtain rfl := Except.error.inj (hres.symm.trans hresult)
    simp [ConnectError.isConnectionError]
  case authFailure =>
    obtain ⟨⟨m, hresult⟩, -⟩ := hends
    obtain rfl := Except.error.inj (hres.symm.trans hresult)
    simp [ConnectError.isConnectionError]
  all_goals
    obtain rfl := Except.error.inj (hres.symm.trans hends.1)
    simp [ConnectError.isConnectionError]

end Calls

/-! ### The loop over the nodes -/

/-- What is known after the calls `calls`, which started with `before` and left `after`;
`raised` is the exception that leaves `_connect`. -/
structure CallsSpec (n : ℕ) (before : Option ProtocolContext) (calls : List ConnectCall)
    (after : Option ProtocolContext) (raised : Option ConnectError) : Prop where
  made : ∀ call ∈ calls, call.Made n
  uncaught : ∀ call ∈ calls, ∀ e, call.ended.result = .error e → e.isConnectionError = false →
    raised = some e
  raised : ∀ e ∈ raised, e.isConnectionError = false ∧
    ∃ call ∈ calls, call.ended.result = .error e
  kept : after = none → before = none
  succeeded : NotRejected n calls → after ≠ none → before = none →
    ∃ call ∈ calls, call.ended.result = .ok ()

theorem CallsSpec.nil (n : ℕ) (context : Option ProtocolContext) :
    CallsSpec n context [] context none :=
  ⟨by simp, by simp, by simp, id, fun _ h h' => absurd h' h⟩

/-- A single call. -/
theorem CallsSpec.single {n : ℕ} {call : ConnectCall} (h : call.Made n)
    {raised : Option ConnectError} (hraised : raised = match call.ended.result with
      | .ok () => none
      | .error e => e.uncaught) :
    CallsSpec n call.before [call] call.ended.context raised := by
  refine ⟨by simpa using h, ?_, ?_, before_of_context h, ?_⟩
  · simp only [List.mem_singleton, forall_eq]
    intro e hres he
    rw [hraised, hres]
    simp [ConnectError.uncaught, he]
  · intro e he
    rw [hraised] at he
    cases hres : call.ended.result with
    | ok u => rw [hres] at he; cases he
    | error e' =>
      rw [hres] at he
      simp only [ConnectError.uncaught] at he
      split_ifs at he with hcon
      · cases he
      · obtain rfl := Option.some.inj he
        exact ⟨by simpa using hcon, call, List.mem_singleton_self call, hres⟩
  · intro hr hctx hnone
    rcases ok_of_context h (hr call (List.mem_singleton_self call)) hctx with hok | hne
    · exact ⟨call, List.mem_singleton_self call, hok⟩
    · exact absurd hnone hne

/-- Calls after calls that raised nothing. -/
theorem CallsSpec.append {n : ℕ} {before mid after : Option ProtocolContext}
    {calls calls' : List ConnectCall} {raised : Option ConnectError}
    (h : CallsSpec n before calls mid none) (h' : CallsSpec n mid calls' after raised) :
    CallsSpec n before (calls ++ calls') after raised := by
  refine ⟨List.forall_mem_append.mpr ⟨h.made, h'.made⟩, ?_, ?_, fun hnone => h.kept (h'.kept hnone),
    ?_⟩
  · intro call hcall e hres he
    rcases List.mem_append.mp hcall with hmem | hmem
    · cases h.uncaught call hmem e hres he
    · exact h'.uncaught call hmem e hres he
  · intro e he
    obtain ⟨hcon, call, hcall, hres⟩ := h'.raised e he
    exact ⟨hcon, call, List.mem_append_right _ hcall, hres⟩
  · intro hr hafter hbefore
    obtain ⟨hr, hr'⟩ := List.forall_mem_append.mp hr
    by_cases hmid : mid = none
    · obtain ⟨call, hcall, hok⟩ := h'.succeeded hr' hafter hmid
      exact ⟨call, List.mem_append_right _ hcall, hok⟩
    · obtain ⟨call, hcall, hok⟩ := h.succeeded hr hmid hbefore
      exact ⟨call, List.mem_append_left _ hcall, hok⟩

theorem connectNode_spec {n : ℕ} {configured : Bool} {node : NodeAttempts}
    {context : Option ProtocolContext} {r : NodeResult}
    (h : connectNode n configured node context = some r) :
    CallsSpec n context r.calls r.context r.raised := by
  unfold connectNode at h
  split_ifs at h
  · cases hconnect : connect n node.connect context with
    | none => rw [hconnect] at h; cases h
    | some ended =>
      rw [hconnect] at h
      dsimp only at h
      have hmade : ConnectCall.Made n ⟨context, node.connect, ended⟩ := hconnect
      cases hres : ended.result with
      | ok u =>
        rw [hres] at h
        obtain rfl := Option.some.inj h
        exact CallsSpec.single hmade (by simp [hres])
      | error e =>
        rw [hres] at h
        dsimp only at h
        split_ifs at h with hretry
        · cases hagain : connect n node.reconnect ended.context with
          | none => rw [hagain] at h; cases h
          | some again =>
            rw [hagain] at h
            have hmade' : ConnectCall.Made n ⟨ended.context, node.reconnect, again⟩ := hagain
            have hfirst : CallsSpec n context [⟨context, node.connect, ended⟩] ended.context none :=
              CallsSpec.single hmade (by simp [hres, ConnectError.uncaught, hretry.1])
            cases hres' : again.result with
            | ok u =>
              simp only [hres'] at h
              obtain rfl := Option.some.inj h
              exact hfirst.append (CallsSpec.single hmade' (by simp [hres']))
            | error e' =>
              simp only [hres'] at h
              obtain rfl := Option.some.inj h
              exact hfirst.append (CallsSpec.single hmade' (by simp [hres']))
        · obtain rfl := Option.some.inj h
          exact CallsSpec.single hmade (by simp [hres])
  · obtain rfl := Option.some.inj h
    exact CallsSpec.nil n context

theorem connectNodes_spec {n : ℕ} {configured : Bool} {nodes : List NodeAttempts}
    {context : Option ProtocolContext} {r : NodeResult}
    (h : connectNodes n configured nodes context = some r) :
    CallsSpec n context r.calls r.context r.raised := by
  induction nodes generalizing context r with
  | nil =>
    obtain rfl := Option.some.inj h
    exact CallsSpec.nil n context
  | cons node nodes ih =>
    rw [connectNodes] at h
    cases hnode : connectNode n configured node context with
    | none => rw [hnode] at h; cases h
    | some first =>
      have hspec := connectNode_spec hnode
      rw [hnode] at h
      dsimp only at h
      cases hraised : first.raised with
      | some e =>
        rw [hraised] at h
        obtain rfl := Option.some.inj h
        exact hspec
      | none =>
        rw [hraised] at h hspec
        obtain ⟨rest, hrest, rfl⟩ := Option.map_eq_some_iff.mp h
        exact hspec.append (ih hrest)

section Calls
variable {n : ℕ} {before after : Option ProtocolContext} {calls : List ConnectCall}
  {raised : Option ConnectError}

/-- No call without a version leaves one behind if it fails. -/
theorem CallsSpec.reset_iff (h : CallsSpec n before calls after raised) :
    (∀ call ∈ calls, call.before = none → call.ended.result ≠ .ok () →
      call.ended.context = none) ↔ NotRejected n calls :=
  forall₂_congr fun call hcall => forall_congr' fun hnone =>
    PyGridGain.reset_iff (h.made call hcall) hnone

/-- Some call has succeeded, or it is the authentication that has failed. -/
theorem CallsSpec.answered_iff (h : CallsSpec n before calls after raised) :
    ((∃ call ∈ calls, call.ended.result = .ok ()) ∨ ∃ m, raised = some (.authenticationError m)) ↔
      Answered n calls := by
  constructor
  · rintro (⟨call, hcall, hok⟩ | ⟨m, rfl⟩)
    · exact ⟨call, hcall, .inl ((ok_iff_accepted (h.made call hcall)).mp hok)⟩
    · obtain ⟨hcon, call, hcall, hres⟩ := h.raised _ rfl
      rcases (uncaught_error (h.made call hcall) hres).mp hcon with ⟨-, hauth⟩ | ⟨htype, -⟩
      · exact ⟨call, hcall, .inr hauth⟩
      · cases htype
  · rintro ⟨call, hcall, haccepted | hauth⟩
    · exact .inl ⟨call, hcall, (ok_iff_accepted (h.made call hcall)).mpr haccepted⟩
    · obtain ⟨o, hlast, hends⟩ := (h.made call hcall).ends
      obtain rfl := Option.some.inj (hlast.symm.trans hauth)
      obtain ⟨⟨m, hres⟩, -⟩ := hends
      exact .inr ⟨m, h.uncaught call hcall _ hres rfl⟩

/-- A request that cannot be made is raised. -/
theorem CallsSpec.unsent_iff (h : CallsSpec n before calls after raised) :
    (∃ call ∈ calls, call.lastOutcome n = some .unsent) ↔ raised = some .typeError := by
  constructor
  · rintro ⟨call, hcall, hunsent⟩
    obtain ⟨o, hlast, hends⟩ := (h.made call hcall).ends
    obtain rfl := Option.some.inj (hlast.symm.trans hunsent)
    exact h.uncaught call hcall _ hends.1 rfl
  · rintro rfl
    obtain ⟨hcon, call, hcall, hres⟩ := h.raised _ rfl
    rcases (uncaught_error (h.made call hcall) hres).mp hcon with ⟨⟨m, hm⟩, -⟩ | ⟨-, hunsent⟩
    · cases hm
    · exact ⟨call, hcall, hunsent⟩

/-- What leaves `_connect` is one of these. -/
theorem CallsSpec.raised_cases (h : CallsSpec n before calls after raised) :
    raised = none ∨ (∃ m, raised = some (.authenticationError m)) ∨ raised = some .typeError := by
  cases raised with
  | none => exact .inl rfl
  | some e =>
    obtain ⟨hcon, call, hcall, hres⟩ := h.raised e rfl
    rcases (uncaught_error (h.made call hcall) hres).mp hcon with ⟨⟨m, rfl⟩, -⟩ | ⟨rfl, -⟩
    · exact .inr (.inl ⟨m, rfl⟩)
    · exact .inr (.inr rfl)

end Calls

/-- The loop over the nodes leaves no version behind, and what follows it reports what has
happened, exactly if no call without a version is rejected; where the client has still the version
of an earlier connection, or a request cannot be made, exactly if some node accepts or fails the
authentication besides. -/
theorem noVersionLeft_iff {n : ℕ} {configured : Bool} {nodes : List NodeAttempts}
    {context : Option ProtocolContext} {r : NodeResult}
    (h : connectNodes n configured nodes context = some r) :
    NoVersionLeft ⟨r.result, r.calls⟩ ↔
      NotRejected n r.calls ∧ (Misleading n context r.calls → Answered n r.calls) := by
  have hspec := connectNodes_spec h
  have hreset := hspec.reset_iff
  rw [← hspec.answered_iff, Misleading, hspec.unsent_iff, ← hreset]
  constructor
  · intro hleft
    refine ⟨hleft.reset, fun hcontext => ?_⟩
    by_contra hno
    obtain ⟨hnone, hauth⟩ := not_or.mp hno
    rcases hspec.raised_cases with hraised | ⟨m, hraised⟩ | hraised
    · have hafter : r.context ≠ none := fun hafter =>
        hcontext.elim (fun hsome => hsome (hspec.kept hafter)) (by simp [hraised])
      exact hnone (hleft.returns (by simp [NodeResult.result, hraised, hafter]))
    · exact hauth ⟨m, hraised⟩
    · have hfailed : ∀ call ∈ r.calls, call.ended.result ≠ .ok () := fun call hcall hok =>
        hnone ⟨call, hcall, hok⟩
      simpa [NodeResult.result, hraised] using hleft.raises hfailed
  · rintro ⟨hclean, hreported⟩
    have hreturns : r.result = .ok () → ∃ call ∈ r.calls, call.ended.result = .ok () := by
      intro hok
      rcases hspec.raised_cases with hraised | ⟨m, hraised⟩ | hraised
      · have hafter : r.context ≠ none := by simpa [NodeResult.result, hraised] using hok
        by_cases hcontext : context = none
        · exact hspec.succeeded (hreset.mp hclean) hafter hcontext
        · exact (hreported (.inl hcontext)).resolve_right (by simp [hraised])
      · simp [NodeResult.result, hraised] at hok
      · simp [NodeResult.result, hraised] at hok
    refine ⟨hclean, hreturns, fun hfailed => ?_⟩
    have hno : ¬∃ call ∈ r.calls, call.ended.result = .ok () := by
      rintro ⟨call, hcall, hok⟩
      exact hfailed call hcall hok
    rcases hspec.raised_cases with hraised | ⟨m, hraised⟩ | hraised
    · by_cases hafter : r.context = none
      · exact .inl (by simp [NodeResult.result, hraised, hafter])
      · exact absurd (hreturns (by simp [NodeResult.result, hraised, hafter])) hno
    · exact .inr ⟨m, by simp [NodeResult.result, hraised]⟩
    · obtain ⟨m, hauth⟩ := (hreported (.inr hraised)).resolve_left hno
      simp [hraised] at hauth

end PyGridGain
