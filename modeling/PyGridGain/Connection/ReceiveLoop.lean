import PyGridGain.Codec.Leaves
import PyGridGain.Connection.Handshake
import PyGridGain.Connection.Multiplexing
import Mathlib.Logic.Relation

/-! Whether the loop of `data_received` ends. The length of a packet is signed, and a negative
one can take nothing off the buffer: the loop turns for ever, unless handling the empty packet
raises. -/

namespace PyGridGain

open StreamM Relation

/-! ### `HandshakeResponse` -/

section Responses
variable [Python] [OtherCodecs]

namespace HandshakeResponse

/-- `__response_start`. -/
def responseStart : Struct where
  fields := [("length".toList, .plain (primitive .int)), ("op_code".toList, .plain (primitive .byte))]

/-- `__create_response_end`. -/
def createResponseEnd (startData : List (PyStr × PyValue)) (version : ProtocolVersion) :
    Option Struct :=
  if (startData.lookup "op_code".toList).bind PyValue.toInt? = some 0 then
    some ⟨[("version_major".toList, .plain (primitive .short)),
      ("version_minor".toList, .plain (primitive .short)),
      ("version_patch".toList, .plain (primitive .short)),
      ("message".toList, .plain (wireClass .string)),
      ("client_status".toList, .plain (primitive .int))], []⟩
  else if version.isFeatureFlagsSupported then
    some ⟨[("features".toList, .plain (wireClass .byteArrayObject)),
      ("node_uuid".toList, .plain (wireClass .uuidObject))], []⟩
  else if version.isPartitionAwarenessSupported then
    some ⟨[("node_uuid".toList, .plain (wireClass .uuidObject))], []⟩
  else none

/-- A structure parsed and read backward, as a dict. -/
def readStruct (client : Client) (s : Struct) : StreamM (List (PyStr × PyValue)) := do
  let c ← s.parse
  let o ← readBackward c
  fun stream => (structFieldsToPython client o s.fields []).map fun data => (data, stream)

/-- `parse`. -/
def parse (client : Client) (version : ProtocolVersion) : StreamM (List (PyStr × PyValue)) := do
  let data ← readStruct client responseStart
  match createResponseEnd data version with
  | some responseEnd =>
    let more ← readStruct client responseEnd
    pure (dictUpdate data more)
  | none => pure data

/-- The layout of the start. -/
def startLayout : Layout :=
  .struct [(.field "length".toList, .scalar .int), (.field "op_code".toList, .scalar .byte)]

/-- Less than the five bytes of its start is no response. -/
theorem parse_short {client : Client} {version : ProtocolVersion} {packet : Bytes}
    (h : packet.length < 5) (cl : Client) :
    HandshakeResponse.parse client version ⟨cl, packet, 0, false⟩ =
      .error ⟨.valueError, ""⟩ := by
  have hparse : responseStart.parse ⟨cl, packet, 0, false⟩ =
      .ok (startLayout, ⟨cl, packet, 5, false⟩) := rfl
  have hback : readBackward startLayout ⟨cl, packet, 5, false⟩ = .error ⟨.valueError, ""⟩ := by
    have hslice : (pySlice packet (((5 : ℕ) : ℤ) - startLayout.size) (5 : ℕ)).length < 5 := by
      rw [show (((5 : ℕ) : ℤ) - startLayout.size) = (0 : ℕ) from rfl, pySlice_of_nonneg (by omega)]
      simp only [sliceAt, List.length_take, List.length_drop]
      omega
    have hcopy : CObj.fromBufferCopy startLayout
        (pySlice packet (((5 : ℕ) : ℤ) - startLayout.size) (5 : ℕ)) = none := by
      exact if_neg (Nat.not_le.mpr hslice)
    simp only [readBackward, hcopy]
    rfl
  exact bind_error ((bind_ok hparse).trans (bind_error hback))

end HandshakeResponse

end Responses

/-! ### The loop and its property -/

section Loop
variable {η κ ε : Type} (parseHandshake : Bytes → κ → Except ε η)
  (processMessage : Bytes → κ → Except ε κ)

/-- The packet that the loop cuts off. -/
def firstPacket (buffer : Bytes) : Bytes := pySlice buffer 0 (packetSize buffer)

/-- What the loop leaves in the buffer. -/
def restBuffer (buffer : Bytes) : Bytes := pySlice buffer (packetSize buffer) buffer.length

/-- A turn of the loop that does not leave it. -/
structure Turn (s t : BaseProtocol η κ) : Prop where
  full : hasFullResponse s.buffer = true
  handled : handlePacket parseHandshake processMessage (s.handshakeFut, s.conn)
    (firstPacket s.buffer) = .ok (t.handshakeFut, t.conn)
  buffer : t.buffer = restBuffer s.buffer

/-- The loop comes to an end. -/
def LoopEnds (s : BaseProtocol η κ) : Prop :=
  ∃ n, (receiveLoop parseHandshake processMessage n s).isSome = true

/-- Every turn of the loop removes at least one byte from the buffer. -/
def TurnsShrink (s : BaseProtocol η κ) : Prop :=
  ∀ t u, ReflTransGen (Turn parseHandshake processMessage) s t →
    Turn parseHandshake processMessage t u → u.buffer.length < t.buffer.length

end Loop

/-- `self._buffer += data`. -/
def BaseProtocol.extend {η κ : Type} (s : BaseProtocol η κ) (data : Bytes) : BaseProtocol η κ :=
  { s with buffer := s.buffer ++ data }

/-! ### The packets of a buffer -/

section Packets

/-- The length that comes first takes nothing off the buffer. -/
def Stuck (buffer : Bytes) : Prop :=
  hasFullResponse buffer = true ∧ (packetSize buffer = 0 ∨ packetSize buffer ≤ -buffer.length)

instance (buffer : Bytes) : Decidable (Stuck buffer) := by unfold Stuck; exact inferInstance

theorem packetSize_le {buffer : Bytes} (h : hasFullResponse buffer = true) :
    4 < buffer.length ∧ packetSize buffer ≤ buffer.length := by
  simpa [hasFullResponse, packetSize] using h

/-- Nothing is cut off exactly where the slice ends at zero. -/
theorem stuck_iff {buffer : Bytes} (h : hasFullResponse buffer = true) :
    Stuck buffer ↔ clipIndex buffer.length (packetSize buffer) = 0 := by
  obtain ⟨hlen, -⟩ := packetSize_le h
  rw [Stuck, and_iff_right h, clipIndex]
  split_ifs with hneg <;> omega

theorem Stuck.firstPacket {buffer : Bytes} (h : Stuck buffer) : firstPacket buffer = [] := by
  rw [PyGridGain.firstPacket, pySlice_zero, (stuck_iff h.1).mp h, List.take_zero]

theorem Stuck.restBuffer {buffer : Bytes} (h : Stuck buffer) : restBuffer buffer = buffer := by
  rw [PyGridGain.restBuffer, pySlice_length, (stuck_iff h.1).mp h, List.drop_zero]

theorem restBuffer_length_lt {buffer : Bytes} (h : hasFullResponse buffer = true)
    (hstuck : ¬Stuck buffer) : (restBuffer buffer).length < buffer.length := by
  obtain ⟨hlen, -⟩ := packetSize_le h
  have hpos : clipIndex buffer.length (packetSize buffer) ≠ 0 := fun h0 =>
    hstuck ((stuck_iff h).mpr h0)
  rw [restBuffer, pySlice_length, List.length_drop]
  omega

/-- The packets that the lengths in the buffer cut off, and the rest of it. -/
def cutPackets (buffer : Bytes) : List Bytes × Bytes :=
  if _h : hasFullResponse buffer = true ∧ ¬Stuck buffer then
    let (packets, rest) := cutPackets (restBuffer buffer)
    (firstPacket buffer :: packets, rest)
  else ([], buffer)
termination_by buffer.length
decreasing_by exact restBuffer_length_lt _h.1 _h.2

theorem cutPackets_next {buffer : Bytes} (h : hasFullResponse buffer = true)
    (hstuck : ¬Stuck buffer) :
    cutPackets buffer = (firstPacket buffer :: (cutPackets (restBuffer buffer)).1,
      (cutPackets (restBuffer buffer)).2) := by
  rw [cutPackets, dif_pos ⟨h, hstuck⟩]

theorem cutPackets_last {buffer : Bytes} (h : ¬(hasFullResponse buffer = true ∧ ¬Stuck buffer)) :
    cutPackets buffer = ([], buffer) := by
  rw [cutPackets, dif_neg h]

end Packets

/-! ### Turns of the loop -/

section Turns
variable {η κ ε : Type} {parseHandshake : Bytes → κ → Except ε η}
  {processMessage : Bytes → κ → Except ε κ} {s t : BaseProtocol η κ}

theorem receiveLoop_turn (h : Turn parseHandshake processMessage s t) (n : ℕ) :
    receiveLoop parseHandshake processMessage (n + 1) s =
      receiveLoop parseHandshake processMessage n t := by
  have hhandled := h.handled
  have hbuffer := h.buffer
  unfold firstPacket at hhandled
  unfold restBuffer at hbuffer
  rw [receiveLoop, if_pos h.full]
  simp only [hhandled, ← hbuffer]

theorem loopEnds_turn (h : Turn parseHandshake processMessage s t) :
    LoopEnds parseHandshake processMessage s ↔ LoopEnds parseHandshake processMessage t := by
  constructor
  · rintro ⟨n, hn⟩
    cases n with
    | zero => simp [receiveLoop] at hn
    | succ n => exact ⟨n, receiveLoop_turn h n ▸ hn⟩
  · rintro ⟨n, hn⟩
    exact ⟨n + 1, receiveLoop_turn h n ▸ hn⟩

theorem Turn.unique {u : BaseProtocol η κ} (h : Turn parseHandshake processMessage s t)
    (h' : Turn parseHandshake processMessage s u) : t = u := by
  obtain ⟨hfut, hconn⟩ := Prod.mk.inj (Except.ok.inj (h.handled.symm.trans h'.handled))
  obtain ⟨tb, tf, tc⟩ := t
  obtain ⟨ub, uf, uc⟩ := u
  obtain rfl : tb = ub := h.buffer.trans h'.buffer.symm
  exact congrArg₂ _ hfut hconn

theorem turnsShrink_turn (h : Turn parseHandshake processMessage s t) (hstuck : ¬Stuck s.buffer) :
    TurnsShrink parseHandshake processMessage s ↔ TurnsShrink parseHandshake processMessage t := by
  constructor
  · intro hs u v hu
    exact hs u v (.head h hu)
  · intro ht u v hu huv
    rcases hu.cases_head with rfl | ⟨t', ht', hu⟩
    · rw [huv.buffer]
      exact restBuffer_length_lt huv.full hstuck
    · obtain rfl := h.unique ht'
      exact ht u v hu huv

/-- Where no turn is made the loop is left. -/
theorem ends_of_no_turn (h : ∀ t, ¬Turn parseHandshake processMessage s t) :
    LoopEnds parseHandshake processMessage s ∧ TurnsShrink parseHandshake processMessage s := by
  constructor
  · refine ⟨1, ?_⟩
    cases hfull : hasFullResponse s.buffer with
    | false => simp [receiveLoop, hfull]
    | true =>
      cases hhandled : handlePacket parseHandshake processMessage (s.handshakeFut, s.conn)
          (firstPacket s.buffer) with
      | error e =>
        unfold firstPacket at hhandled
        simp [receiveLoop, hfull, hhandled]
      | ok r => exact absurd ⟨hfull, hhandled, rfl⟩ (h ⟨restBuffer s.buffer, r.1, r.2⟩)
  · intro t u hst htu
    rcases hst.cases_head with rfl | ⟨t', ht', -⟩
    · exact absurd htu (h u)
    · exact absurd ht' (h t')

/-- What the loop comes down to: the state in which its buffer is stuck, if no packet before
raises. -/
theorem iff_of_cutPackets {P : BaseProtocol η κ → Prop}
    (hleft : ∀ s, (∀ t, ¬Turn parseHandshake processMessage s t) → P s)
    (hturn : ∀ s t, Turn parseHandshake processMessage s t → ¬Stuck s.buffer → (P s ↔ P t))
    (s : BaseProtocol η κ) :
    P s ↔ ∀ r, (cutPackets s.buffer).1.foldlM (handlePacket parseHandshake processMessage)
        (s.handshakeFut, s.conn) = .ok r → Stuck (cutPackets s.buffer).2 →
      P ⟨(cutPackets s.buffer).2, r.1, r.2⟩ := by
  obtain ⟨buffer, fut, conn⟩ := s
  dsimp only
  induction buffer using cutPackets.induct generalizing fut conn with
  | case1 buffer h _ _ _ ih =>
    rw [cutPackets_next h.1 h.2]
    cases hhandled : handlePacket parseHandshake processMessage (fut, conn) (firstPacket buffer) with
    | error e =>
      refine iff_of_true (hleft _ fun t ht => ?_) fun r hr => ?_
      · rw [ht.handled] at hhandled
        cases hhandled
      · rw [List.foldlM_cons, hhandled] at hr
        cases hr
    | ok r =>
      have hfirst : Turn parseHandshake processMessage ⟨buffer, fut, conn⟩
          ⟨restBuffer buffer, r.1, r.2⟩ := ⟨h.1, hhandled, rfl⟩
      rw [hturn _ _ hfirst h.2, ih r.1 r.2]
      simp only [List.foldlM_cons, hhandled, except_bind]
  | case2 buffer h =>
    rw [cutPackets_last h]
    by_cases hstuck : Stuck buffer
    · exact ⟨fun hp r hr _ => by obtain rfl := Except.ok.inj hr; exact hp,
        fun hp => hp _ rfl hstuck⟩
    · refine iff_of_true (hleft _ fun t ht => h ⟨ht.full, hstuck⟩) fun r _ hs => absurd hs hstuck

end Turns

/-! ### Connections -/

namespace AioConn

/-- A request is still in the table although its future is done. -/
def Cancelled (c : AioConn) (queryId : ℤ) : Prop :=
  queryId ∈ c.pendingReqs ∧ c.futures queryId ≠ some .pending

instance (c : AioConn) (queryId : ℤ) : Decidable (c.Cancelled queryId) := by
  unfold Cancelled
  exact inferInstance

variable {c : AioConn} {packet : Bytes}

theorem processMessage_cancelled (h : c.Cancelled (requestId packet)) :
    c.processMessage packet = .error ⟨⟩ := by
  have hset : c.futures.set (requestId packet) (.result packet) = .error ⟨⟩ := by
    cases hfut : c.futures (requestId packet) with
    | none => simp only [Futures.set, hfut]
    | some fut =>
      simp only [Futures.set, hfut]
      cases fut with
      | pending => exact absurd hfut h.2
      | _ => rfl
  simp only [processMessage, if_pos h.1, hset]
  rfl

/-- A message leaves the table as it should be, and cancels no request. -/
theorem processMessage_ok (hnd : c.pendingReqs.Nodup) (h : ¬c.Cancelled (requestId packet)) :
    ∃ c', c.processMessage packet = .ok c' ∧ c'.pendingReqs.Nodup ∧
      ∀ queryId, c'.Cancelled queryId ↔ c.Cancelled queryId := by
  by_cases hmem : requestId packet ∈ c.pendingReqs
  · have hfut : c.futures (requestId packet) = some .pending := by
      by_contra hfut
      exact h ⟨hmem, hfut⟩
    have hset : c.futures.set (requestId packet) (.result packet) =
        .ok (Function.update c.futures (requestId packet) (some (.result packet))) := by
      simp only [Futures.set, hfut]
      rfl
    refine ⟨_, by simp only [processMessage, if_pos hmem, hset]; rfl, hnd.erase _, fun queryId => ?_⟩
    by_cases hid : queryId = requestId packet
    · subst hid
      exact iff_of_false (fun hc => hnd.not_mem_erase hc.1) h
    · simp only [Cancelled, List.mem_erase_of_ne hid, Function.update_of_ne hid]
  · exact ⟨c, by simp only [processMessage, if_neg hmem], hnd, fun _ => Iff.rfl⟩

end AioConn

/-- The exceptions of `data_received`. -/
abbrev ReceiveError := PyError ⊕ InvalidStateError

/-- A `BaseProtocol` over an `AioConnection`. -/
abbrev AioProtocol := BaseProtocol (List (PyStr × PyValue)) AioConn

section Protocols
variable [Python] [OtherCodecs] (client : Client) (version : ProtocolVersion)

/-- `__parse_handshake`. -/
def parseHandshake (packet : Bytes) (_ : AioConn) :
    Except ReceiveError (List (PyStr × PyValue)) :=
  ((HandshakeResponse.parse client version ⟨client, packet, 0, false⟩).map (·.1)).mapError .inl

/-- `process_message`, with its exception among those of `data_received`. -/
def processPacket (packet : Bytes) (c : AioConn) : Except ReceiveError AioConn :=
  (c.processMessage packet).mapError .inr

/-- The packet is a handshake response. -/
def IsHandshakeResponse (packet : Bytes) : Prop :=
  (HandshakeResponse.parse client version ⟨client, packet, 0, false⟩).toBool = true

/-- The lengths in the buffer come to one that takes nothing off, and nothing raises before that:
not the handshake, if it is still to come, and no message of a cancelled request. The empty packet
has the id zero. -/
def Blocks (s : AioProtocol) : Prop :=
  let cut := cutPackets s.buffer
  Stuck cut.2 ∧ ¬s.conn.Cancelled 0 ∧
    if s.handshakeFut.done then ∀ p ∈ cut.1, ¬s.conn.Cancelled (requestId p)
    else ∃ response messages, cut.1 = response :: messages ∧
      IsHandshakeResponse client version response ∧
      ∀ p ∈ messages, ¬s.conn.Cancelled (requestId p)

theorem parseHandshake_empty (c : AioConn) :
    parseHandshake client version [] c = .error (.inl ⟨.valueError, ""⟩) := by
  rw [parseHandshake, HandshakeResponse.parse_short (by simp)]
  rfl

section Messages
variable {fut : Future (List (PyStr × PyValue))} {c : AioConn} {packet : Bytes} {ps : List Bytes}

theorem handlePacket_cancelled (hdone : fut.done = true) (h : c.Cancelled (requestId packet)) :
    handlePacket (parseHandshake client version) processPacket (fut, c) packet =
      .error (.inr ⟨⟩) := by
  simp only [handlePacket, hdone, processPacket, AioConn.processMessage_cancelled h]
  rfl

theorem handlePacket_message (hdone : fut.done = true) (hnd : c.pendingReqs.Nodup)
    (h : ¬c.Cancelled (requestId packet)) :
    ∃ c', handlePacket (parseHandshake client version) processPacket (fut, c) packet =
      .ok (fut, c') ∧ c'.pendingReqs.Nodup ∧
      ∀ queryId, c'.Cancelled queryId ↔ c.Cancelled queryId := by
  obtain ⟨c', hprocess, hnd', hsame⟩ := AioConn.processMessage_ok hnd h
  refine ⟨c', ?_, hnd', hsame⟩
  simp only [handlePacket, hdone, processPacket, hprocess]
  rfl

/-- Messages are processed as long as none belongs to a cancelled request. -/
theorem foldlM_messages (hdone : fut.done = true) (hnd : c.pendingReqs.Nodup)
    (h : ∀ p ∈ ps, ¬c.Cancelled (requestId p)) :
    ∃ c', ps.foldlM (handlePacket (parseHandshake client version) processPacket) (fut, c) =
      .ok (fut, c') ∧ c'.pendingReqs.Nodup ∧
      ∀ queryId, c'.Cancelled queryId ↔ c.Cancelled queryId := by
  induction ps generalizing c with
  | nil => exact ⟨c, rfl, hnd, fun _ => Iff.rfl⟩
  | cons p ps ih =>
    obtain ⟨c₁, hp, hnd₁, hsame₁⟩ := handlePacket_message client version hdone hnd (h p List.mem_cons_self)
    obtain ⟨c₂, hps, hnd₂, hsame₂⟩ := ih hnd₁ fun q hq =>
      (hsame₁ _).not.mpr (h q (List.mem_cons_of_mem _ hq))
    refine ⟨c₂, ?_, hnd₂, fun queryId => (hsame₂ queryId).trans (hsame₁ queryId)⟩
    rw [List.foldlM_cons, hp, except_bind, hps]

theorem foldlM_cancelled (hdone : fut.done = true) (hnd : c.pendingReqs.Nodup)
    (h : ∃ p ∈ ps, c.Cancelled (requestId p)) :
    ∃ e, ps.foldlM (handlePacket (parseHandshake client version) processPacket) (fut, c) =
      .error e := by
  induction ps generalizing c with
  | nil => simp at h
  | cons p ps ih =>
    by_cases hcancel : c.Cancelled (requestId p)
    · refine ⟨.inr ⟨⟩, ?_⟩
      rw [List.foldlM_cons, handlePacket_cancelled client version hdone hcancel]
      rfl
    · obtain ⟨c₁, hp, hnd₁, hsame⟩ := handlePacket_message client version hdone hnd hcancel
      obtain ⟨q, hq, hqc⟩ := h
      have hne : q ≠ p := by
        rintro rfl
        exact hcancel hqc
      obtain ⟨e, he⟩ := ih hnd₁ ⟨q, List.mem_of_ne_of_mem hne hq, (hsame _).mpr hqc⟩
      exact ⟨e, by rw [List.foldlM_cons, hp, except_bind, he]⟩

end Messages

section Stuck
variable {s : AioProtocol}

/-- A stuck buffer comes back as it is, with the empty packet handled. -/
theorem turn_stuck_iff (hstuck : Stuck s.buffer) {t : AioProtocol} :
    Turn (parseHandshake client version) processPacket s t ↔
      handlePacket (parseHandshake client version) processPacket (s.handshakeFut, s.conn) [] =
        .ok (t.handshakeFut, t.conn) ∧ t.buffer = s.buffer := by
  constructor
  · rintro ⟨-, hhandled, hbuffer⟩
    rw [hstuck.firstPacket] at hhandled
    rw [hstuck.restBuffer] at hbuffer
    exact ⟨hhandled, hbuffer⟩
  · rintro ⟨hhandled, hbuffer⟩
    refine ⟨hstuck.1, ?_, ?_⟩
    · rwa [hstuck.firstPacket]
    · rwa [hstuck.restBuffer]

/-- Before the handshake the empty packet raises. -/
theorem no_turn_before_handshake (hstuck : Stuck s.buffer) (hdone : s.handshakeFut.done = false)
    (t : AioProtocol) : ¬Turn (parseHandshake client version) processPacket s t := by
  rw [turn_stuck_iff client version hstuck]
  rintro ⟨hhandled, -⟩
  simp only [handlePacket, hdone, parseHandshake_empty] at hhandled
  cases hhandled

theorem no_turn_cancelled (hstuck : Stuck s.buffer) (hdone : s.handshakeFut.done = true)
    (hcancel : s.conn.Cancelled 0) (t : AioProtocol) :
    ¬Turn (parseHandshake client version) processPacket s t := by
  rw [turn_stuck_iff client version hstuck, handlePacket_cancelled client version hdone hcancel]
  rintro ⟨hhandled, -⟩
  cases hhandled

/-- Behind the handshake the loop goes on with the same buffer. -/
theorem exists_turn_stuck (hstuck : Stuck s.buffer) (hdone : s.handshakeFut.done = true)
    (hnd : s.conn.pendingReqs.Nodup) (hcancel : ¬s.conn.Cancelled 0) :
    ∃ t, Turn (parseHandshake client version) processPacket s t ∧ t.buffer = s.buffer ∧
      t.handshakeFut.done = true ∧ t.conn.pendingReqs.Nodup ∧ ¬t.conn.Cancelled 0 := by
  obtain ⟨c, hhandled, hnd', hsame⟩ := handlePacket_message client version hdone hnd
    (show ¬s.conn.Cancelled (requestId []) from hcancel)
  exact ⟨⟨s.buffer, s.handshakeFut, c⟩, (turn_stuck_iff client version hstuck).mpr ⟨hhandled, rfl⟩, rfl, hdone, hnd',
    (hsame 0).not.mpr hcancel⟩

theorem receiveLoop_stuck (hstuck : Stuck s.buffer) (hdone : s.handshakeFut.done = true)
    (hnd : s.conn.pendingReqs.Nodup) (hcancel : ¬s.conn.Cancelled 0) (n : ℕ) :
    receiveLoop (parseHandshake client version) processPacket n s = none := by
  induction n generalizing s with
  | zero => rfl
  | succ n ih =>
    obtain ⟨t, hturn, hbuffer, hdone', hnd', hcancel'⟩ := exists_turn_stuck client version
      hstuck hdone hnd hcancel
    rw [receiveLoop_turn hturn]
    exact ih (hbuffer ▸ hstuck) hdone' hnd' hcancel'

theorem not_turnsShrink_stuck (hstuck : Stuck s.buffer) (hdone : s.handshakeFut.done = true)
    (hnd : s.conn.pendingReqs.Nodup) (hcancel : ¬s.conn.Cancelled 0) :
    ¬TurnsShrink (parseHandshake client version) processPacket s := by
  obtain ⟨t, hturn, hbuffer, -⟩ := exists_turn_stuck client version hstuck
    hdone hnd hcancel
  intro hshrink
  have hlt := hshrink s t .refl hturn
  rw [hbuffer] at hlt
  exact lt_irrefl _ hlt

end Stuck

section Blocks
variable {P : AioProtocol → Prop}

/-- What comes of messages in front of a stuck buffer. -/
theorem iff_of_messages
    (hleft : ∀ s, (∀ t, ¬Turn (parseHandshake client version) processPacket s t) → P s)
    (hstuck : ∀ s : AioProtocol, Stuck s.buffer → s.handshakeFut.done = true →
      s.conn.pendingReqs.Nodup → ¬s.conn.Cancelled 0 → ¬P s)
    {fut : Future (List (PyStr × PyValue))} (hdone : fut.done = true) {c : AioConn}
    (hnd : c.pendingReqs.Nodup) {rest : Bytes} (hrest : Stuck rest) (ps : List Bytes) :
    (∀ r, ps.foldlM (handlePacket (parseHandshake client version) processPacket) (fut, c) = .ok r →
        P ⟨rest, r.1, r.2⟩) ↔
      ¬(¬c.Cancelled 0 ∧ ∀ p ∈ ps, ¬c.Cancelled (requestId p)) := by
  by_cases hall : ∀ p ∈ ps, ¬c.Cancelled (requestId p)
  · obtain ⟨c', hps, hnd', hsame⟩ := foldlM_messages client version hdone hnd hall
    simp only [hps, Except.ok.injEq, forall_eq', and_iff_left hall, not_not, ← hsame 0]
    by_cases hcancel : c'.Cancelled 0
    · exact iff_of_true (hleft _ (no_turn_cancelled client version hrest hdone hcancel)) hcancel
    · exact iff_of_false (hstuck _ hrest hdone hnd' hcancel) hcancel
  · obtain ⟨e, he⟩ := foldlM_cancelled client version hdone hnd (by simpa using hall)
    refine iff_of_true (fun r hr => ?_) fun h => hall h.2
    rw [he] at hr
    cases hr

/-- A property that the loop has where it is left, that goes along with its turns, and that is
lost behind the handshake in a stuck buffer. -/
theorem iff_not_blocks
    (hleft : ∀ s, (∀ t, ¬Turn (parseHandshake client version) processPacket s t) → P s)
    (hturn : ∀ s t, Turn (parseHandshake client version) processPacket s t → ¬Stuck s.buffer →
      (P s ↔ P t))
    (hstuck : ∀ s : AioProtocol, Stuck s.buffer → s.handshakeFut.done = true →
      s.conn.pendingReqs.Nodup → ¬s.conn.Cancelled 0 → ¬P s)
    (s : AioProtocol) (hnd : s.conn.pendingReqs.Nodup) :
    P s ↔ ¬Blocks client version s := by
  rw [iff_of_cutPackets hleft hturn s, Blocks]
  obtain ⟨ps, rest⟩ := cutPackets s.buffer
  dsimp only
  by_cases hrest : Stuck rest
  swap
  · exact iff_of_true (fun r _ h => absurd h hrest) fun h => hrest h.1
  simp only [hrest, true_imp_iff, true_and]
  cases hdone : s.handshakeFut.done with
  | true =>
    simp only [if_true]
    exact iff_of_messages client version hleft hstuck hdone hnd hrest ps
  | false =>
    simp only [Bool.false_eq_true, if_false]
    cases ps with
    | nil =>
      refine iff_of_true (fun r hr => ?_) fun h => ?_
      · obtain rfl := Except.ok.inj hr
        exact hleft _ (no_turn_before_handshake client version hrest hdone)
      · obtain ⟨-, response, messages, h, -⟩ := h
        cases h
    | cons p ps =>
      have hhandle : handlePacket (parseHandshake client version) processPacket
          (s.handshakeFut, s.conn) p =
          (parseHandshake client version p s.conn).map fun r => (.result r, s.conn) := by
        simp [handlePacket, hdone]
      rw [List.foldlM_cons, hhandle]
      cases hparse : HandshakeResponse.parse client version ⟨client, p, 0, false⟩ with
      | error e =>
        refine iff_of_true (fun r hr => ?_) fun h => ?_
        · rw [parseHandshake, hparse] at hr
          cases hr
        · obtain ⟨-, response, messages, heq, hresponse, -⟩ := h
          obtain ⟨rfl, rfl⟩ := List.cons.inj heq
          rw [IsHandshakeResponse, hparse] at hresponse
          cases hresponse
      | ok data =>
        have hresponse : IsHandshakeResponse client version p := by
          rw [IsHandshakeResponse, hparse]
          rfl
        have hresult : (Future.result data.1).done = true := rfl
        have hmore := iff_of_messages client version hleft hstuck hresult hnd hrest ps
        rw [parseHandshake, hparse]
        refine hmore.trans (not_congr (and_congr_right fun _ => ⟨fun hall => ?_, ?_⟩))
        · exact ⟨p, ps, rfl, hresponse, hall⟩
        · rintro ⟨_, _, heq, -, hall⟩
          obtain ⟨rfl, rfl⟩ := List.cons.inj heq
          exact hall

end Blocks

end Protocols

/-- `data_received` comes to an end, and every turn of its loop removes a byte, exactly where the
buffer does not block it. -/
theorem data_received_ends_iff [Python] [OtherCodecs] (client : Client) (version : ProtocolVersion)
    (s : AioProtocol) (hnd : s.conn.pendingReqs.Nodup) (data : Bytes) :
    (LoopEnds (parseHandshake client version) processPacket (s.extend data) ↔
      ¬Blocks client version (s.extend data)) ∧
    (TurnsShrink (parseHandshake client version) processPacket (s.extend data) ↔
      ¬Blocks client version (s.extend data)) := by
  constructor
  · refine iff_not_blocks client version (fun s h => (ends_of_no_turn h).1)
      (fun s t h _ => loopEnds_turn h) (fun s hstuck hdone hnd hcancel => ?_) _ hnd
    rintro ⟨n, hn⟩
    rw [receiveLoop_stuck client version hstuck hdone hnd hcancel n] at hn
    cases hn
  · exact iff_not_blocks client version (fun s h => (ends_of_no_turn h).2)
      (fun s t h hstuck => turnsShrink_turn h hstuck)
      (fun s hstuck hdone hnd hcancel => not_turnsShrink_stuck client version hstuck hdone hnd hcancel)
      _ hnd

/-- A length of minus four behind the handshake. -/
theorem data_received_ends_iff_minus_four :
    let _ := asciiLower
    let _ := noOtherCodecs
    let client : Client := ⟨none, fun _ => [], fun _ => []⟩
    let s : AioProtocol := ⟨[], .result [], ⟨[7], fun _ => some .pending, false⟩⟩
    (LoopEnds (parseHandshake client maxProtocol) processPacket
        (s.extend [0xfc, 0xff, 0xff, 0xff, 0]) ↔
      ¬Blocks client maxProtocol (s.extend [0xfc, 0xff, 0xff, 0xff, 0])) ∧
    (TurnsShrink (parseHandshake client maxProtocol) processPacket
        (s.extend [0xfc, 0xff, 0xff, 0xff, 0]) ↔
      ¬Blocks client maxProtocol (s.extend [0xfc, 0xff, 0xff, 0xff, 0])) := by
  intro _ _ client s
  exact data_received_ends_iff client maxProtocol s (by decide) _

/-- With that length the loop turns for ever, and removes nothing. -/
theorem data_received_blocks :
    let _ := asciiLower
    let _ := noOtherCodecs
    let client : Client := ⟨none, fun _ => [], fun _ => []⟩
    let s : AioProtocol := ⟨[], .result [], ⟨[7], fun _ => some .pending, false⟩⟩
    ¬LoopEnds (parseHandshake client maxProtocol) processPacket
        (s.extend [0xfc, 0xff, 0xff, 0xff, 0]) ∧
      ¬TurnsShrink (parseHandshake client maxProtocol) processPacket
        (s.extend [0xfc, 0xff, 0xff, 0xff, 0]) := by
  intro _ _ client s
  have hstuck : Stuck (s.extend [0xfc, 0xff, 0xff, 0xff, 0]).buffer := by decide
  have hcancel : ¬(s.extend [0xfc, 0xff, 0xff, 0xff, 0]).conn.Cancelled 0 := fun h => h.2 rfl
  constructor
  · rintro ⟨n, hn⟩
    rw [receiveLoop_stuck client maxProtocol hstuck rfl (by decide) hcancel n] at hn
    cases hn
  · exact not_turnsShrink_stuck client maxProtocol hstuck rfl (by decide) hcancel

end PyGridGain
