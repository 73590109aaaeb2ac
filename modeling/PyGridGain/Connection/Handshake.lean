import Mathlib.Data.List.NodupEquivFin
import PyGridGain.Connection.ProtocolContext

/-! The handshake of a connection, with its fallback to the version that the server names.
The loop ends as long as no request goes out for a version that was tried already. -/

namespace PyGridGain

def CLIENT_STATUS_AUTH_FAILURE : ℤ := 2000

/-- What `HandshakeResponse` reads of a response; `op_code` is 0 for a rejection. -/
structure HandshakeResponse where
  opCode : ℤ
  versionMajor : ℤ
  versionMinor : ℤ
  versionPatch : ℤ
  message : String
  clientStatus : ℤ

/-- What comes back for a handshake request: a response, or the connection is refused,
dropped or times out. -/
inductive Reply
  | response (r : HandshakeResponse)
  | dropped

/-- What comes of one `_connect_version`: the connection is refused, or it is opened and a reply
comes back for the request, if it can be sent; an acceptance has the `features` of the server. -/
inductive ConnectAttempt
  | refused
  | opened (reply : Reply) (features : Option ℕ)

/-- The exceptions of `connect`. An `AttributeError` is raised where another connection has reset
the protocol context, a `TypeError` where it has lost the features that a request is to have, and
the parser may raise where it has changed the version under a response. -/
inductive ConnectError
  | handshakeError (expectedVersion : ℤ × ℤ × ℤ) (message : String)
  | authenticationError (message : String)
  | connectionError
  | attributeError
  | typeError
  | parseError
  | reconnectError
  deriving DecidableEq

/-- Is it one of `connection_errors`? `HandshakeError` is a `SocketError`. -/
def ConnectError.isConnectionError : ConnectError → Bool
  | handshakeError _ _ => true
  | connectionError => true
  | _ => false

def HandshakeResponse.serverVersion (r : HandshakeResponse) : ℤ × ℤ × ℤ :=
  (r.versionMajor, r.versionMinor, r.versionPatch)

/-- `e.expected_version in PROTOCOLS`. -/
def listedVersion (expected : ℤ × ℤ × ℤ) : Option ProtocolVersion :=
  PROTOCOLS.find? fun v => ((v.major : ℤ), (v.minor : ℤ), (v.patch : ℤ)) = expected

/-- `_process_handshake_error`. -/
def processHandshakeError (context : Option ProtocolVersion) (r : HandshakeResponse) :
    ConnectError :=
  if r.clientStatus = CLIENT_STATUS_AUTH_FAILURE then .authenticationError r.message
  else
    match context with
    | none => .attributeError
    | some v =>
      let errorText := "Handshake error: " ++ r.message
      let text := if r.serverVersion ≠ (0, 0, 0) then
          errorText ++ " Server expects binary protocol version " ++
            toString r.versionMajor ++ "." ++ toString r.versionMinor ++ "." ++
            toString r.versionPatch ++ ". Client provides " ++
            toString v.major ++ "." ++ toString v.minor ++ "." ++ toString v.patch ++ "."
        else errorText
      .handshakeError r.serverVersion text

/-- `_connect_version` from the reply on. -/
def connectVersion (context : Option ProtocolVersion) : Reply → Except ConnectError Unit
  | .dropped => .error .connectionError
  | .response r =>
    if r.opCode = 0 then .error (processHandshakeError context r)
    else if context = none then .error .attributeError
    else .ok ()

/-- `_connect_version`. -/
def tryVersion (context : Option ProtocolContext) : ConnectAttempt → Except ConnectError Unit
  | .refused => .error .connectionError
  | .opened reply _ =>
    match context with
    | none => .error .attributeError
    | some c => if c.canHandshake then connectVersion (some c.version) reply else .error .typeError

/-- What the result of `_connect_version` does to the protocol context, and how it ends the loop
of `connect`, if it does. `detecting` is `detecting_protocol`. -/
def settleVersion (detecting : Bool) (context : Option ProtocolContext) (features : Option ℕ) :
    Except ConnectError Unit → Option ProtocolContext × Option (Except ConnectError Unit)
  | .ok () => (context.map (·.setFeatures features), some (.ok ()))
  | .error (.handshakeError expected message) =>
    match listedVersion expected with
    | some v => (context.map (·.setVersion v), none)
    | none => (context, some (.error (.handshakeError expected message)))
  | .error (.authenticationError message) => (context, some (.error (.authenticationError message)))
  | .error e => (if detecting then none else context, some (.error e))

/-- What of that a reply does to the version. -/
def handleReply (detecting : Bool) (context : Option ProtocolVersion) (reply : Reply) :
    Option ProtocolVersion × Option (Except ConnectError Unit) :=
  match connectVersion context reply with
  | .ok () => (context, some (.ok ()))
  | .error (.handshakeError expected message) =>
    match listedVersion expected with
    | some v => (some v, none)
    | none => (context, some (.error (.handshakeError expected message)))
  | .error (.authenticationError message) => (context, some (.error (.authenticationError message)))
  | .error e => (if detecting then none else context, some (.error e))

namespace ConnectAttempt

def features : ConnectAttempt → Option ℕ
  | refused => none
  | opened _ features => features

/-- The version of the request that goes out. -/
def sent (context : Option ProtocolContext) : ConnectAttempt → Option ProtocolVersion
  | refused => none
  | opened _ _ => context.bind fun c => if c.canHandshake then some c.version else none

end ConnectAttempt

/-- How a call of `connect` has ended, with the context that it leaves and the versions
that it has tried: those of the requests that it has sent. -/
structure Ended where
  result : Except ConnectError Unit
  context : Option ProtocolContext
  tried : List ProtocolVersion

/-- The loop of `connect`, with what comes of the `attempts` from number `i` on. `none` is a
loop that has not ended after `n` of them. -/
def connectLoop (detecting : Bool) (attempts : ℕ → ConnectAttempt) :
    ℕ → ℕ → Option ProtocolContext → Option Ended
  | 0, _, _ => none
  | n + 1, i, context =>
    let sent := ((attempts i).sent context).toList
    let result := tryVersion context (attempts i)
    match settleVersion detecting context (attempts i).features result with
    | (left, some result) => some ⟨result, left, sent⟩
    | (left, none) =>
      (connectLoop detecting attempts n (i + 1) left).map fun e =>
        { e with tried := sent ++ e.tried }

/-- `Connection.connect` and `AioConnection._connect`, when no other connection of the
client does anything meanwhile. -/
def connect (n : ℕ) (attempts : ℕ → ConnectAttempt) (context : Option ProtocolContext) :
    Option Ended :=
  connectLoop context.isNone attempts n 0 (some (context.getD .first))

/-! ### How an attempt goes -/

/-- The version of a rejection that is answered with another attempt. -/
def Reply.fallback : Reply → Option ProtocolVersion
  | .response r =>
    if r.opCode = 0 ∧ r.clientStatus ≠ CLIENT_STATUS_AUTH_FAILURE then
      listedVersion r.serverVersion
    else none
  | .dropped => none

/-- How an attempt goes; `unsent` is one whose request cannot be made. -/
inductive AttemptOutcome
  | accepted
  | fallback (version : ProtocolVersion)
  | rejected
  | authFailure
  | lost
  | unsent
  deriving DecidableEq

def Reply.outcome : Reply → AttemptOutcome
  | .dropped => .lost
  | .response r =>
    if r.opCode ≠ 0 then .accepted
    else if r.clientStatus = CLIENT_STATUS_AUTH_FAILURE then .authFailure
    else
      match listedVersion r.serverVersion with
      | some v => .fallback v
      | none => .rejected

namespace ConnectAttempt

def outcome (c : ProtocolContext) : ConnectAttempt → AttemptOutcome
  | refused => .lost
  | opened reply _ => if c.canHandshake then reply.outcome else .unsent

/-- The version that the server asks for, if it is asked. -/
def fallback : ConnectAttempt → Option ProtocolVersion
  | refused => none
  | opened reply _ => reply.fallback

end ConnectAttempt

/-- What an attempt that goes so makes of the context `c`, and how it ends the loop. -/
def AttemptOutcome.Settles (detecting : Bool) (c : ProtocolContext) (features : Option ℕ) :
    AttemptOutcome → Option ProtocolContext × Option (Except ConnectError Unit) → Prop
  | accepted, p => p = (some (c.setFeatures features), some (.ok ()))
  | fallback v, p => p = (some (c.setVersion v), none)
  | rejected, p => ∃ expected m, p = (some c, some (.error (.handshakeError expected m)))
  | authFailure, p => ∃ m, p = (some c, some (.error (.authenticationError m)))
  | lost, p => p = (if detecting then none else some c, some (.error .connectionError))
  | unsent, p => p = (if detecting then none else some c, some (.error .typeError))

theorem listedVersion_mem {expected : ℤ × ℤ × ℤ} {v : ProtocolVersion}
    (h : listedVersion expected = some v) : v ∈ PROTOCOLS := List.mem_of_find?_eq_some h

section Replies
variable {detecting : Bool} {c : ProtocolContext} {v w : ProtocolVersion}

theorem fallback_mem {r : Reply} (h : r.fallback = some v) : v ∈ PROTOCOLS := by
  cases r with
  | dropped => cases h
  | response r =>
    simp only [Reply.fallback] at h
    split_ifs at h
    exact listedVersion_mem h

theorem outcome_fallback_iff {r : Reply} : r.outcome = .fallback v ↔ r.fallback = some v := by
  cases r with
  | dropped => simp [Reply.outcome, Reply.fallback]
  | response r =>
    simp only [Reply.outcome, Reply.fallback]
    by_cases hcode : r.opCode = 0
    · by_cases hstatus : r.clientStatus = CLIENT_STATUS_AUTH_FAILURE
      · simp [hcode, hstatus]
      · cases listedVersion r.serverVersion <;> simp [hcode, hstatus]
    · simp [hcode]

/-- What a reply does, with any context. -/
theorem settles_reply (detecting : Bool) (c : ProtocolContext) (features : Option ℕ) (r : Reply) :
    r.outcome.Settles detecting c features
      (settleVersion detecting (some c) features (connectVersion (some c.version) r)) := by
  cases r with
  | dropped => rfl
  | response r =>
    simp only [Reply.outcome]
    by_cases hcode : r.opCode = 0
    · by_cases hstatus : r.clientStatus = CLIENT_STATUS_AUTH_FAILURE
      · rw [if_neg (not_not_intro hcode), if_pos hstatus]
        exact ⟨r.message, by simp [settleVersion, connectVersion, processHandshakeError, hcode,
          hstatus]⟩
      · rw [if_neg (not_not_intro hcode), if_neg hstatus]
        cases hlisted : listedVersion r.serverVersion with
        | some v =>
          simp [AttemptOutcome.Settles, settleVersion, connectVersion, processHandshakeError, hcode,
            hstatus, hlisted]
        | none =>
          refine ⟨r.serverVersion, ?_⟩
          simp [settleVersion, connectVersion, processHandshakeError, hcode, hstatus, hlisted]
    · rw [if_pos hcode]
      simp [AttemptOutcome.Settles, settleVersion, connectVersion, hcode]

/-- What an attempt does. -/
theorem settles_attempt (detecting : Bool) (c : ProtocolContext) (a : ConnectAttempt) :
    (a.outcome c).Settles detecting c a.features
      (settleVersion detecting (some c) a.features (tryVersion (some c) a)) := by
  cases a with
  | refused => rfl
  | opened reply features =>
    simp only [ConnectAttempt.outcome, tryVersion]
    split_ifs with hcan
    · exact settles_reply detecting c features reply
    · rfl

theorem handleReply_fallback {r : Reply} (h : r.fallback = some w) :
    handleReply detecting (some v) r = (some w, none) := by
  cases r with
  | dropped => cases h
  | response r =>
    simp only [Reply.fallback] at h
    split_ifs at h with hr
    simp [handleReply, connectVersion, processHandshakeError, hr.1, hr.2, h]

/-- Any other rejection ends the loop. -/
theorem handleReply_rejected {r : HandshakeResponse} (hcode : r.opCode = 0)
    (h : (Reply.response r).fallback = none) :
    ∃ e, handleReply detecting (some v) (.response r) = (some v, some (.error e)) := by
  simp only [Reply.fallback] at h
  by_cases hstatus : r.clientStatus = CLIENT_STATUS_AUTH_FAILURE
  · simp [handleReply, connectVersion, processHandshakeError, hcode, hstatus]
  · rw [if_pos ⟨hcode, hstatus⟩] at h
    simp [handleReply, connectVersion, processHandshakeError, hcode, hstatus, h]

/-- The version of the context changes as if it were all of it. -/
theorem settleVersion_version (detecting : Bool) (context : Option ProtocolContext)
    (features : Option ℕ) (r : Reply) :
    Prod.map (Option.map (·.version)) id (settleVersion detecting context features
      (connectVersion (context.map (·.version)) r)) =
      handleReply detecting (context.map (·.version)) r := by
  cases context with
  | none =>
    cases r with
    | dropped => cases detecting <;> rfl
    | response r =>
      -- Without a context no message can be made, so no version is named.
      by_cases hcode : r.opCode = 0
      · by_cases hstatus : r.clientStatus = CLIENT_STATUS_AUTH_FAILURE <;> cases detecting <;>
          simp [handleReply, settleVersion, connectVersion, processHandshakeError, hcode, hstatus]
      · cases detecting <;> simp [handleReply, settleVersion, connectVersion, hcode]
  | some c =>
    unfold handleReply
    rw [Option.map_some]
    cases connectVersion (some c.version) r with
    | ok u => rfl
    | error e =>
      cases e with
      | handshakeError expected message =>
        cases hlisted : listedVersion expected <;> simp [settleVersion, hlisted]
      | authenticationError message => rfl
      | _ => cases detecting <;> rfl

end Replies

/-! ### The attempts of a loop -/

/-- The context of the attempt after one with the context `c`, if there is one. -/
def nextContext (c : ProtocolContext) (a : ConnectAttempt) : Option ProtocolContext :=
  match a.outcome c with
  | .fallback v => some (c.setVersion v)
  | _ => none

/-- The context of an attempt, if the loop comes to it. -/
def contextOf (first : ProtocolContext) (attempts : ℕ → ConnectAttempt) :
    ℕ → Option ProtocolContext
  | 0 => some first
  | k + 1 => (contextOf first attempts k).bind fun c => nextContext c (attempts k)

/-- The version of its request, if one goes out. -/
def sentOf (first : ProtocolContext) (attempts : ℕ → ConnectAttempt) (k : ℕ) :
    Option ProtocolVersion := (attempts k).sent (contextOf first attempts k)

theorem contextOf_succ (first : ProtocolContext) (attempts : ℕ → ConnectAttempt) (k : ℕ) :
    contextOf first attempts (k + 1) = (nextContext first (attempts 0)).bind fun c =>
      contextOf c (fun j => attempts (j + 1)) k := by
  induction k with
  | zero => exact (Option.bind_fun_some _).symm
  | succ k ih =>
    rw [contextOf, ih, Option.bind_assoc]
    rfl

section Loop
variable {detecting : Bool} {attempts : ℕ → ConnectAttempt} {c w : ProtocolContext} {n m : ℕ}

variable (detecting) in
theorem settle_next {a : ConnectAttempt} (h : nextContext c a = some w) :
    settleVersion detecting (some c) a.features (tryVersion (some c) a) = (some w, none) ∧
      a.sent (some c) = some c.version := by
  have hsettles := settles_attempt detecting c a
  unfold nextContext at h
  split at h
  · rename_i v houtcome
    obtain rfl := Option.some.inj h
    rw [houtcome] at hsettles
    refine ⟨hsettles, ?_⟩
    cases a with
    | refused => cases houtcome
    | opened reply features =>
      simp only [ConnectAttempt.outcome] at houtcome
      split_ifs at houtcome with hcan
      simp [ConnectAttempt.sent, hcan]
  · cases h

variable (detecting) in
theorem settle_end {a : ConnectAttempt} (h : nextContext c a = none) :
    ∃ left result, settleVersion detecting (some c) a.features (tryVersion (some c) a) =
      (left, some result) := by
  have hsettles := settles_attempt detecting c a
  unfold nextContext at h
  cases houtcome : a.outcome c <;> rw [houtcome] at h hsettles
  case fallback v => cases h
  case accepted => exact ⟨_, _, hsettles⟩
  case rejected =>
    obtain ⟨expected, m, hsettles⟩ := hsettles
    exact ⟨_, _, hsettles⟩
  case authFailure =>
    obtain ⟨m, hsettles⟩ := hsettles
    exact ⟨_, _, hsettles⟩
  case lost => exact ⟨_, _, hsettles⟩
  case unsent => exact ⟨_, _, hsettles⟩

theorem connectLoop_shift (n i : ℕ) (context : Option ProtocolContext) :
    connectLoop detecting attempts n (i + 1) context =
      connectLoop detecting (fun k => attempts (k + 1)) n i context := by
  induction n generalizing i context with
  | zero => rfl
  | succ n ih => simp only [connectLoop, ih]

/-- The loop goes on as long as there is another context. -/
theorem connectLoop_runs (h : (contextOf c attempts n).isSome) :
    connectLoop detecting attempts n 0 (some c) = none := by
  induction n generalizing c attempts with
  | zero => rfl
  | succ n ih =>
    rw [contextOf_succ] at h
    cases hnext : nextContext c (attempts 0) with
    | none =>
      rw [hnext] at h
      cases h
    | some w =>
      rw [hnext, Option.bind_some] at h
      rw [connectLoop, (settle_next detecting hnext).1]
      simp only [connectLoop_shift, ih h, Option.map_none]

/-- The first attempt that has none after it ends the loop. -/
theorem connectLoop_ends (hm : m < n) (hw : contextOf c attempts m = some w)
    (hend : nextContext w (attempts m) = none) :
    ∃ e, connectLoop detecting attempts n 0 (some c) = some e ∧
      e.tried = (List.range (m + 1)).filterMap (sentOf c attempts) := by
  induction m generalizing n c attempts with
  | zero =>
    obtain ⟨n, rfl⟩ := Nat.exists_eq_succ_of_ne_zero hm.ne'
    obtain rfl := Option.some.inj hw
    obtain ⟨left, result, hsettle⟩ := settle_end detecting hend
    refine ⟨_, by rw [connectLoop, hsettle], ?_⟩
    have hfirst : sentOf c attempts 0 = (attempts 0).sent (some c) := rfl
    cases hsent : (attempts 0).sent (some c) <;> simp [hfirst, hsent]
  | succ m ih =>
    obtain ⟨n, rfl⟩ := Nat.exists_eq_succ_of_ne_zero (Nat.zero_lt_of_lt hm).ne'
    rw [contextOf_succ] at hw
    obtain ⟨w', hnext, hw⟩ := Option.bind_eq_some_iff.mp hw
    obtain ⟨e, hloop, htried⟩ := ih (Nat.lt_of_succ_lt_succ hm) hw hend
    obtain ⟨hsettle, hsent⟩ := settle_next detecting hnext
    refine ⟨{ e with tried := c.version :: e.tried }, ?_, ?_⟩
    · rw [connectLoop, hsettle]
      simp only [connectLoop_shift, hloop, hsent]
      rfl
    · have hfirst : sentOf c attempts 0 = some c.version := hsent
      have hrest : (fun k => sentOf c attempts (k + 1)) =
          sentOf w' (fun k => attempts (k + 1)) := by
        funext k
        rw [sentOf, contextOf_succ, hnext]
        rfl
      rw [List.range_succ_eq_map, List.filterMap_cons_some hfirst, List.filterMap_map, htried,
        ← hrest]
      rfl

/-- So it ends, if it does, with such an attempt. -/
theorem exists_end {e : Ended} (h : connectLoop detecting attempts n 0 (some c) = some e) :
    ∃ m < n, ∃ w, contextOf c attempts m = some w ∧ nextContext w (attempts m) = none := by
  by_contra hno
  push Not at hno
  have hsome : ∀ k ≤ n, (contextOf c attempts k).isSome := by
    intro k hk
    induction k with
    | zero => rfl
    | succ k ih =>
      obtain ⟨w, hw⟩ := Option.isSome_iff_exists.mp (ih (Nat.le_of_succ_le hk))
      rw [contextOf, hw]
      exact Option.isSome_iff_ne_none.mpr (hno k hk w hw)
  rw [connectLoop_runs (hsome n le_rfl)] at h
  cases h

end Loop

/-! ### The versions that are tried -/

/-- The version that the attempt number `k` would use: the first one, or what the attempt before
has named. -/
def versionOf (first : ProtocolContext) (attempts : ℕ → ConnectAttempt) :
    ℕ → Option ProtocolVersion
  | 0 => some first.version
  | k + 1 => (attempts k).fallback

/-- Its request can be made: the features that it may need were there, and no version has been
named so far with which they got lost. -/
def CanSend (first : ProtocolContext) (attempts : ℕ → ConnectAttempt) (k : ℕ) : Prop :=
  ∀ v ∈ versionOf first attempts k, v.isFeatureFlagsSupported →
    first.features.isSome ∧ ∀ j < k, ∀ w ∈ (attempts j).fallback, w.isFeatureFlagsSupported

/-- It is sent, and rejected with a listed version. -/
def GoesOn (first : ProtocolContext) (attempts : ℕ → ConnectAttempt) (k : ℕ) : Prop :=
  CanSend first attempts k ∧ (attempts k).fallback.isSome

/-- As long as the server rejects versions, none that was tried before is sent again. -/
def SendsNewVersions (first : ProtocolContext) (attempts : ℕ → ConnectAttempt) : Prop :=
  ∀ j, (∀ k < j, GoesOn first attempts k) → attempts j ≠ .refused → CanSend first attempts j →
    ∀ i < j, versionOf first attempts i ≠ versionOf first attempts j

section Versions
variable {first c : ProtocolContext} {attempts : ℕ → ConnectAttempt} {k m : ℕ}

theorem attempt_outcome_fallback_iff {a : ConnectAttempt} {v : ProtocolVersion} :
    a.outcome c = .fallback v ↔ c.canHandshake ∧ a.fallback = some v := by
  cases a with
  | refused => simp [ConnectAttempt.outcome, ConnectAttempt.fallback]
  | opened reply features =>
    rw [ConnectAttempt.outcome, ConnectAttempt.fallback, ← outcome_fallback_iff]
    split_ifs with hcan <;> simp [hcan]

theorem nextContext_eq_some_iff {a : ConnectAttempt} {w : ProtocolContext} :
    nextContext c a = some w ↔
      c.canHandshake ∧ ∃ v, a.fallback = some v ∧ c.setVersion v = w := by
  unfold nextContext
  split
  · rename_i v houtcome
    obtain ⟨hcan, hv⟩ := attempt_outcome_fallback_iff.mp houtcome
    simp [hcan, hv]
  · rename_i hne
    refine iff_of_false (fun h => nomatch h) ?_
    rintro ⟨hcan, v, hv, -⟩
    exact hne v (attempt_outcome_fallback_iff.mpr ⟨hcan, hv⟩)

/-- What the context of an attempt is. -/
theorem contextOf_spec (h : contextOf first attempts k = some c) :
    versionOf first attempts k = some c.version ∧
      (c.features.isSome ↔ first.features.isSome ∧
        ∀ j < k, ∀ w ∈ (attempts j).fallback, w.isFeatureFlagsSupported) := by
  induction k generalizing c with
  | zero =>
    obtain rfl := Option.some.inj h
    simp [versionOf]
  | succ k ih =>
    obtain ⟨u, hu, hnext⟩ := Option.bind_eq_some_iff.mp h
    obtain ⟨-, v, hv, rfl⟩ := nextContext_eq_some_iff.mp hnext
    refine ⟨hv, ?_⟩
    have hfeatures : (u.setVersion v).features.isSome ↔
        v.isFeatureFlagsSupported ∧ u.features.isSome := by
      rw [ProtocolContext.setVersion]
      cases v.isFeatureFlagsSupported <;> simp
    rw [hfeatures, (ih hu).2, Nat.forall_lt_succ_right, hv]
    simp only [Option.mem_some_iff, forall_eq']
    tauto

theorem canHandshake_iff (h : contextOf first attempts k = some c) :
    c.canHandshake ↔ CanSend first attempts k := by
  obtain ⟨hversion, hfeatures⟩ := contextOf_spec h
  rw [CanSend, hversion, ← hfeatures]
  cases hflags : c.version.isFeatureFlagsSupported <;> simp [ProtocolContext.canHandshake, hflags]

theorem isSome_contextOf_iff :
    (contextOf first attempts k).isSome ↔ ∀ j < k, GoesOn first attempts j := by
  induction k with
  | zero => simp [contextOf]
  | succ k ih =>
    rw [Nat.forall_lt_succ_right, ← ih, contextOf]
    cases hk : contextOf first attempts k with
    | none => simp
    | some c =>
      have hgoes : (nextContext c (attempts k)).isSome ↔ GoesOn first attempts k := by
        rw [GoesOn, ← canHandshake_iff hk, Option.isSome_iff_exists, Option.isSome_iff_exists]
        simp only [nextContext_eq_some_iff]
        simp
      simpa using hgoes

/-- What goes out of an attempt that the loop comes to. -/
theorem mem_sentOf_iff (h : contextOf first attempts k = some c) {v : ProtocolVersion} :
    v ∈ sentOf first attempts k ↔
      attempts k ≠ .refused ∧ CanSend first attempts k ∧ versionOf first attempts k = some v := by
  rw [← canHandshake_iff h, (contextOf_spec h).1, sentOf, h]
  cases attempts k with
  | refused => simp [ConnectAttempt.sent]
  | opened reply features => simp [ConnectAttempt.sent]

theorem GoesOn.not_refused (h : GoesOn first attempts k) : attempts k ≠ .refused := by
  intro hrefused
  have hsome := h.2
  rw [hrefused] at hsome
  cases hsome

/-- Before the end of the loop all attempts go on, and the last one does not. -/
theorem goesOn_of_end {w : ProtocolContext} (hw : contextOf first attempts m = some w)
    (hend : nextContext w (attempts m) = none) :
    (∀ k < m, GoesOn first attempts k) ∧ ¬GoesOn first attempts m := by
  have hbefore := isSome_contextOf_iff.mp (Option.isSome_iff_exists.mpr ⟨w, hw⟩)
  refine ⟨hbefore, fun hgoes => ?_⟩
  have hnext : (contextOf first attempts (m + 1)).isSome :=
    isSome_contextOf_iff.mpr (Nat.forall_lt_succ_right.mpr ⟨hbefore, hgoes⟩)
  rw [contextOf, hw, Option.bind_some, hend] at hnext
  cases hnext

/-- Up to the end, no request goes out again for a version if none is sent again. -/
theorem nodup_tried_iff {w : ProtocolContext} (hw : contextOf first attempts m = some w)
    (hend : nextContext w (attempts m) = none) :
    ((List.range (m + 1)).filterMap (sentOf first attempts)).Nodup ↔
      SendsNewVersions first attempts := by
  obtain ⟨hgoes, hlast⟩ := goesOn_of_end hw hend
  have hcontext : ∀ j ≤ m, ∃ c, contextOf first attempts j = some c := fun j hj =>
    Option.isSome_iff_exists.mp (isSome_contextOf_iff.mpr fun k hk => hgoes k (hk.trans_le hj))
  rw [List.Nodup, List.pairwise_filterMap, List.pairwise_iff_getElem]
  simp only [List.length_range, List.getElem_range]
  constructor
  · intro hnodup j hj hopened hsend i hij heq
    have hjm : j ≤ m := by
      by_contra hlt
      exact hlast (hj m (not_le.mp hlt))
    obtain ⟨c, hc⟩ := hcontext j hjm
    obtain ⟨d, hd⟩ := hcontext i (hij.le.trans hjm)
    have hversion := (contextOf_spec hc).1
    have hi : c.version ∈ sentOf first attempts i :=
      (mem_sentOf_iff hd).mpr ⟨(hj i hij).not_refused, (hj i hij).1, heq.trans hversion⟩
    have hj : c.version ∈ sentOf first attempts j :=
      (mem_sentOf_iff hc).mpr ⟨hopened, hsend, hversion⟩
    exact hnodup i j (by omega) (by omega) hij c.version hi c.version hj rfl
  · rintro hnew i j hi hj hij v hv v' hv' rfl
    obtain ⟨c, hc⟩ := hcontext j (by omega)
    obtain ⟨d, hd⟩ := hcontext i (by omega)
    obtain ⟨hopened, hsend, hversion⟩ := (mem_sentOf_iff hc).mp hv'
    obtain ⟨-, -, hversion'⟩ := (mem_sentOf_iff hd).mp hv
    exact hnew j (fun k hk => hgoes k (by omega)) hopened hsend i hij
      (hversion'.trans hversion.symm)

/-- Different versions, if they end, do so before the list of versions is exhausted. -/
theorem exists_end_of_new (h : SendsNewVersions first attempts) :
    ∃ m < PROTOCOLS.length + 2, ¬GoesOn first attempts m := by
  by_contra hno
  push Not at hno
  have hnodup : ((List.range (PROTOCOLS.length + 2)).map (versionOf first attempts)).Nodup := by
    refine List.Nodup.map_on (fun i hi j hj heq => ?_) List.nodup_range
    rw [List.mem_range] at hi hj
    have hnew : ∀ {i j}, i < j → j < PROTOCOLS.length + 2 →
        versionOf first attempts i ≠ versionOf first attempts j := fun hij hj =>
      h _ (fun k hk => hno k (hk.trans hj)) (hno _ hj).not_refused (hno _ hj).1 _ hij
    rcases Nat.lt_trichotomy i j with hlt | heq' | hlt
    · exact absurd heq (hnew hlt hj)
    · exact heq'
    · exact absurd heq.symm (hnew hlt hi)
  have hsubset : (List.range (PROTOCOLS.length + 2)).map (versionOf first attempts) ⊆
      some first.version :: PROTOCOLS.map some := by
    intro v hv
    obtain ⟨i, hi, rfl⟩ := List.mem_map.mp hv
    cases i with
    | zero => exact List.mem_cons_self
    | succ i =>
      obtain ⟨w, hw⟩ := Option.isSome_iff_exists.mp
        (hno i (Nat.lt_of_succ_lt (List.mem_range.mp hi))).2
      have hmem : w ∈ PROTOCOLS := by
        cases hattempt : attempts i with
        | refused =>
          rw [hattempt] at hw
          cases hw
        | opened reply features =>
          rw [hattempt] at hw
          exact fallback_mem hw
      rw [versionOf, hw]
      exact List.mem_cons_of_mem _ (List.mem_map_of_mem hmem)
  have hle := (List.subperm_of_subset hnodup hsubset).length_le
  simp at hle

end Versions

/-- `connect` ends after at most one request for each listed version and one for the version that
it starts with, none of them sent twice, and at most one attempt more, exactly if no version that
was tried is sent again. -/
theorem fallback_terminates_iff (attempts : ℕ → ConnectAttempt) (context : Option ProtocolContext) :
    (∃ e, connect (PROTOCOLS.length + 2) attempts context = some e ∧ e.tried.Nodup) ↔
      SendsNewVersions (context.getD .first) attempts := by
  unfold connect
  constructor
  · rintro ⟨e, he, hnodup⟩
    obtain ⟨m, hm, w, hw, hend⟩ := exists_end he
    obtain ⟨e', he', htried⟩ := connectLoop_ends hm hw hend
    obtain rfl := Option.some.inj (he.symm.trans he')
    rw [htried] at hnodup
    exact (nodup_tried_iff hw hend).mp hnodup
  · intro hnew
    classical
    have hex := exists_end_of_new hnew
    obtain ⟨hlt, hlast⟩ := Nat.find_spec hex
    have hbefore : ∀ k < Nat.find hex, GoesOn (context.getD .first) attempts k := by
      intro k hk
      by_contra hno
      exact Nat.find_min hex hk ⟨hk.trans hlt, hno⟩
    obtain ⟨w, hw⟩ := Option.isSome_iff_exists.mp (isSome_contextOf_iff.mpr hbefore)
    have hend : nextContext w (attempts (Nat.find hex)) = none := by
      by_contra hnext
      have hsome : (contextOf (context.getD .first) attempts (Nat.find hex + 1)).isSome := by
        rw [contextOf, hw, Option.bind_some]
        exact Option.isSome_iff_ne_none.mpr hnext
      exact hlast (isSome_contextOf_iff.mp hsome _ (Nat.lt_succ_self _))
    obtain ⟨e, he, htried⟩ := connectLoop_ends hlt hw hend
    refine ⟨e, he, ?_⟩
    rw [htried]
    exact (nodup_tried_iff hw hend).mpr hnew

/-- A server that rejects every version and names 1.7.0: the version 1.7.0 is tried again
and again. -/
theorem fallback_does_not_terminate :
    let attempts : ℕ → ConnectAttempt := fun _ =>
      .opened (.response ⟨0, 1, 7, 0, "Unsupported version.", 1⟩) none
    (∀ n, connect n attempts none = none) ∧
      ∀ i, versionOf .first attempts (i + 1) = some ⟨1, 7, 0⟩ := by
  intro attempts
  refine ⟨fun n => connectLoop_runs (isSome_contextOf_iff.mpr fun j _ => ⟨?_, rfl⟩), fun _ => rfl⟩
  rintro v - -
  refine ⟨rfl, fun j _ w hw => ?_⟩
  obtain rfl := Option.some.inj hw
  rfl

/-- A server that names 1.6.0 and 1.7.1 in turn: with 1.6.0 the features get lost, and the request
for 1.7.1 cannot be made any more. -/
example : (connect 9 (fun i => .opened (.response (if i % 2 = 0 then ⟨0, 1, 6, 0, "", 1⟩
      else ⟨0, 1, 7, 1, "", 1⟩)) none) none).map (fun e => (e.result, e.tried)) =
    some (.error .typeError, [⟨1, 7, 1⟩, ⟨1, 6, 0⟩]) := by decide

end PyGridGain
