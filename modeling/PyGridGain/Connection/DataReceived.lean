import PyGridGain.Lib.ByteStream
import PyGridGain.Lib.Framing

/-! `BaseProtocol.data_received`: bytes come in chunks, and every complete packet in
the buffer is handed on. However the bytes are cut, the packets are the same. -/

namespace PyGridGain

/-- `asyncio.Future`. -/
inductive Future (α : Type)
  | pending
  | result (a : α)
  | exception
  | cancelled
  deriving DecidableEq

def Future.done {α : Type} : Future α → Bool
  | pending => false
  | _ => true

/-- A `BaseProtocol` over a connection of type `κ`, with the handshake responses `η`. -/
structure BaseProtocol (η κ : Type) where
  buffer : Bytes
  handshakeFut : Future η
  conn : κ

/-- `__packet_size`. -/
def packetSize (buffer : Bytes) : ℤ := leInt (pySlice buffer 0 4) + 4

/-- `__has_full_response`. -/
def hasFullResponse (buffer : Bytes) : Bool :=
  buffer.length > 4 && leInt (pySlice buffer 0 4) + 4 ≤ buffer.length

section DataReceived
variable {η κ ε : Type} (parseHandshake : Bytes → κ → Except ε η)
  (processMessage : Bytes → κ → Except ε κ)

/-- What is done with one packet. -/
def handlePacket (s : Future η × κ) (packet : Bytes) : Except ε (Future η × κ) :=
  if !s.1.done then (parseHandshake packet s.2).map fun r => (.result r, s.2)
  else (processMessage packet s.2).map fun c => (s.1, c)

/-- The loop of `data_received`, with the exception that ends it early: the packet that
caused it is still in the buffer then. `none` is a loop that has not ended after `n`
packets, as a length of minus four makes one. -/
def receiveLoop : ℕ → BaseProtocol η κ → Option (BaseProtocol η κ × Option ε)
  | 0, _ => none
  | n + 1, s =>
    if hasFullResponse s.buffer then
      let size := packetSize s.buffer
      let packet := pySlice s.buffer 0 size
      match handlePacket parseHandshake processMessage (s.handshakeFut, s.conn) packet with
      | .error e => some (s, some e)
      | .ok (fut, conn) => receiveLoop n ⟨pySlice s.buffer size s.buffer.length, fut, conn⟩
    else some (s, none)

/-- `data_received(data)`. -/
def dataReceived (data : Bytes) (s : BaseProtocol η κ) : Option (BaseProtocol η κ × Option ε) :=
  receiveLoop parseHandshake processMessage (s.buffer.length + data.length + 1)
    { s with buffer := s.buffer ++ data }

/-- `data_received` for chunks that come one after another, until one raises. -/
def chunksReceived : List Bytes → BaseProtocol η κ → Option (BaseProtocol η κ × Option ε)
  | [], s => some (s, none)
  | data :: chunks, s =>
    match dataReceived parseHandshake processMessage data s with
    | some (s, none) => chunksReceived chunks s
    | r => r

end DataReceived

/-! ### Finding the packets -/

theorem pySlice_zero_four (b : Bytes) : pySlice b 0 4 = b.take 4 := by
  rw [show (0 : ℤ) = (0 : ℕ) from rfl, show (4 : ℤ) = (4 : ℕ) from rfl,
    pySlice_of_nonneg (Nat.zero_le 4)]
  rfl

section Packets
variable {p tail : Bytes} {rest : List Bytes}

theorem take_four_of_prefix {b : Bytes} (h : b <+: p) (hb : 4 ≤ b.length) : b.take 4 = p.take 4 := by
  obtain ⟨t, rfl⟩ := h
  rw [List.take_append_of_le_length hb]

theorem hasFullResponse_packet (h : IsPacket p) (b : Bytes) : hasFullResponse (p ++ b) = true := by
  have hfour := h.not_empty
  have htake : (p ++ b).take 4 = p.take 4 := List.take_append_of_le_length hfour.le
  simp only [hasFullResponse, pySlice_zero_four, htake, h.length_eq, List.length_append,
    Bool.and_eq_true, decide_eq_true_eq]
  omega

theorem packetSize_packet (h : IsPacket p) (b : Bytes) : packetSize (p ++ b) = p.length := by
  rw [packetSize, pySlice_zero_four, List.take_append_of_le_length h.not_empty.le, h.length_eq]

theorem pySlice_packet (p b : Bytes) : pySlice (p ++ b) 0 (p.length : ℤ) = p := by
  rw [show (0 : ℤ) = (0 : ℕ) from rfl, pySlice_of_nonneg (Nat.zero_le _)]
  simp [sliceAt]

theorem pySlice_rest (p b : Bytes) :
    pySlice (p ++ b) (p.length : ℤ) ((p ++ b).length : ℤ) = b := by
  rw [pySlice_of_nonneg (by simp)]
  simp [sliceAt]

theorem hasFullResponse_tail (hrest : ∀ p ∈ rest, IsPacket p) (h : IsTail tail rest) :
    hasFullResponse tail = false := by
  cases rest with
  | nil => rw [h.eq_nil]; rfl
  | cons p rest =>
    have hlt := h.incomplete p rfl
    by_cases hfour : tail.length > 4
    · have htake := take_four_of_prefix h.prefix_head (by omega)
      have hp := (hrest p (by simp)).length_eq
      simp only [hasFullResponse, pySlice_zero_four, htake, hp, Bool.and_eq_false_iff,
        decide_eq_false_iff_not]
      omega
    · simp [hasFullResponse, hfour]

end Packets

/-! ### Packets handed on -/

/-- The loop hands on all complete packets and leaves the tail. -/
theorem receiveLoop_packets {η κ ε : Type} {parse : Bytes → κ → Except ε η}
    {process : Bytes → κ → Except ε κ} {done rest : List Bytes} {tail : Bytes}
    (hdone : ∀ p ∈ done, IsPacket p) (hrest : ∀ p ∈ rest, IsPacket p) (htail : IsTail tail rest)
    {n : ℕ} (hn : done.length < n) {s s' : Future η × κ}
    (h : done.foldlM (handlePacket parse process) s = .ok s') :
    receiveLoop parse process n ⟨done.flatten ++ tail, s.1, s.2⟩ = some (⟨tail, s'.1, s'.2⟩, none) := by
  induction done generalizing n s with
  | nil =>
    obtain ⟨n, rfl⟩ := Nat.exists_eq_add_of_lt hn
    obtain rfl : s = s' := Except.ok.inj h
    simp [receiveLoop, hasFullResponse_tail hrest htail]
  | cons p done ih =>
    obtain ⟨n, rfl⟩ := Nat.exists_eq_add_of_lt hn
    have hp := hdone p (by simp)
    have hbuf : (p :: done).flatten ++ tail = p ++ (done.flatten ++ tail) := by simp
    rw [List.foldlM_cons] at h
    cases hpacket : handlePacket parse process s p with
    | error e => simp [hpacket, bind, Except.bind] at h
    | ok t =>
      rw [hbuf, receiveLoop, if_pos (hasFullResponse_packet hp _)]
      simp only [packetSize_packet hp, pySlice_packet, hpacket, pySlice_rest]
      rw [hpacket] at h
      exact ih (fun q hq => hdone q (by simp [hq])) (by simp; omega) h

section Framing
variable {η κ : Type} (parse : Bytes → κ → η) (process : Bytes → κ → κ)

abbrev noRaiseParse : Bytes → κ → Except Empty η := fun packet c => .ok (parse packet c)

abbrev noRaiseProcess : Bytes → κ → Except Empty κ := fun packet c => .ok (process packet c)

/-- The future and the connection after a packet, with handlers that do not raise. -/
def handled (s : Future η × κ) (packet : Bytes) : Future η × κ :=
  if s.1.done then (s.1, process packet s.2) else (.result (parse packet s.2), s.2)

variable {parse process}

theorem foldlM_handled (done : List Bytes) (s : Future η × κ) :
    done.foldlM (handlePacket (noRaiseParse parse) (noRaiseProcess process)) s =
      .ok (done.foldl (handled parse process) s) := by
  induction done generalizing s with
  | nil => rfl
  | cons p done ih =>
    have hpacket : handlePacket (noRaiseParse parse) (noRaiseProcess process) s p =
        .ok (handled parse process s p) := by
      unfold handlePacket handled
      cases s.1.done <;> rfl
    rw [List.foldlM_cons, hpacket]
    exact ih _

/-- What is known after some bytes of the packets `ps` have come: the complete ones were
handed on in order, and the buffer holds the rest of the bytes. -/
structure Received (parse : Bytes → κ → η) (process : Bytes → κ → κ) (conn : κ) (ps : List Bytes)
    (received : Bytes) (done : List Bytes) (s : BaseProtocol η κ) : Prop where
  done_prefix : done <+: ps
  bytes : received = done.flatten ++ s.buffer
  tail : IsTail s.buffer (ps.drop done.length)
  handed : (s.handshakeFut, s.conn) = done.foldl (handled parse process) (.pending, conn)

theorem dataReceived_received {ps done : List Bytes} (hps : ∀ p ∈ ps, IsPacket p) {conn : κ}
    {received data : Bytes} {s : BaseProtocol η κ} (h : Received parse process conn ps received done s)
    (hdata : received ++ data <+: ps.flatten) :
    ∃ done' t, dataReceived (noRaiseParse parse) (noRaiseProcess process) data s = some (t, none) ∧
      Received parse process conn ps (received ++ data) done' t := by
  obtain ⟨rest, rfl⟩ := h.done_prefix
  have hbytes := h.bytes
  subst hbytes
  rw [List.append_assoc, List.flatten_append, List.prefix_append_right_inj] at hdata
  obtain ⟨more, rest, tail, rfl, heq, htail'⟩ := exists_tail hdata
  have hmore : ∀ p ∈ more, IsPacket p := fun p hp => hps p (by simp [hp])
  have hlen : more.length < s.buffer.length + data.length + 1 := by
    have hle := length_le_flatten_of_packets hmore
    have hsum := congrArg List.length heq
    simp only [List.length_append] at hsum
    omega
  have hloop := receiveLoop_packets hmore (fun p hp => hps p (by simp [hp])) htail' hlen
    (@foldlM_handled _ _ parse process more (s.handshakeFut, s.conn))
  rw [← heq] at hloop
  refine ⟨done ++ more, _, hloop, ⟨rest, by simp⟩, ?_, by simpa using htail', ?_⟩
  · rw [List.append_assoc, heq, List.flatten_append, List.append_assoc]
  · rw [List.foldl_append, ← h.handed]

theorem chunksReceived_received {ps chunks done : List Bytes} (hps : ∀ p ∈ ps, IsPacket p) {conn : κ}
    {received : Bytes} {s : BaseProtocol η κ} (h : Received parse process conn ps received done s)
    (hchunks : received ++ chunks.flatten <+: ps.flatten) :
    ∃ done' t, chunksReceived (noRaiseParse parse) (noRaiseProcess process) chunks s =
        some (t, none) ∧ Received parse process conn ps (received ++ chunks.flatten) done' t := by
  induction chunks generalizing received done s with
  | nil => exact ⟨done, s, rfl, by simpa using h⟩
  | cons data chunks ih =>
    rw [List.flatten_cons, ← List.append_assoc] at hchunks ⊢
    obtain ⟨done', t, hdata, ht⟩ :=
      dataReceived_received hps h ((List.prefix_append _ _).trans hchunks)
    obtain ⟨done'', u, hrest, hu⟩ := ih ht hchunks
    exact ⟨done'', u, by rw [chunksReceived, hdata]; exact hrest, hu⟩

/-- The first packet resolves the future, every later one is processed. -/
theorem foldl_handled (ps : List Bytes) (conn : κ) :
    ps.foldl (handled parse process) (.pending, conn) =
      (match ps with
        | [] => .pending
        | p :: _ => .result (parse p conn), ps.tail.foldl (fun c p => process p c) conn) := by
  cases ps with
  | nil => rfl
  | cons p ps =>
    have hdone : ∀ (r : η) (c : κ), ps.foldl (handled parse process) (.result r, c) =
        (.result r, ps.foldl (fun c p => process p c) c) := by
      intro r
      induction ps with
      | nil => exact fun c => rfl
      | cons q ps ih => exact fun c => ih (process q c)
    exact hdone _ _

/-- `data_received` finds the packets however their bytes are cut into chunks. After
every chunk the complete packets have been handed on, in order and once each, the
first to the handshake future and the others to `process_message`, and the buffer
holds the tail. -/
theorem data_received_framing {ps chunks : List Bytes} (hps : ∀ p ∈ ps, IsPacket p)
    (hchunks : chunks.flatten <+: ps.flatten) (conn : κ) :
    ∃ done rest s, chunksReceived (noRaiseParse parse) (noRaiseProcess process) chunks
        ⟨[], .pending, conn⟩ = some (s, none) ∧
      ps = done ++ rest ∧ chunks.flatten = done.flatten ++ s.buffer ∧ IsTail s.buffer rest ∧
      s.handshakeFut = (match done with
        | [] => .pending
        | p :: _ => .result (parse p conn)) ∧
      s.conn = done.tail.foldl (fun c p => process p c) conn ∧
      (chunks.flatten = ps.flatten → rest = [] ∧ s.buffer = []) := by
  have h0 : Received parse process conn ps [] [] ⟨[], .pending, conn⟩ :=
    ⟨List.nil_prefix, rfl, ⟨List.nil_prefix, fun p hp => ?_⟩, rfl⟩
  · obtain ⟨done, s, hrun, h⟩ := chunksReceived_received hps h0 hchunks
    have hhanded := h.handed
    have htail := h.tail
    have hbytes := h.bytes
    obtain ⟨rest, rfl⟩ := h.done_prefix
    rw [List.nil_append] at hbytes
    rw [List.drop_left] at htail
    rw [foldl_handled, Prod.mk.injEq] at hhanded
    refine ⟨done, rest, s, hrun, rfl, hbytes, htail, hhanded.1, hhanded.2, fun hall => ?_⟩
    rw [hbytes, List.flatten_append, List.append_cancel_left_eq] at hall
    have hnil := htail.rest_eq_nil hall
    exact ⟨hnil, by rw [hall, hnil]; rfl⟩
  · have hlt := (hps p (List.mem_of_mem_head? hp)).not_empty
    simp
    omega

end Framing

/-- Two packets in three chunks, of which the last byte is still to come. -/
theorem data_received_framing_three_chunks :
    let ps : List Bytes := [[1, 0, 0, 0, 7], [2, 0, 0, 0, 8, 9]]
    let chunks : List Bytes := [[1, 0], [0, 0, 7, 2, 0], [0, 0, 8]]
    ∃ done rest s, chunksReceived (noRaiseParse fun p (_ : List Bytes) => p)
        (noRaiseProcess fun p log => log ++ [p]) chunks ⟨[], .pending, []⟩ = some (s, none) ∧
      ps = done ++ rest ∧ chunks.flatten = done.flatten ++ s.buffer ∧ IsTail s.buffer rest ∧
      s.handshakeFut = (match done with
        | [] => .pending
        | p :: _ => .result p) ∧
      s.conn = done.tail.foldl (fun c p => c ++ [p]) [] ∧
      (chunks.flatten = ps.flatten → rest = [] ∧ s.buffer = []) := by
  intro ps chunks
  have hps : ∀ p ∈ ps, IsPacket p := by
    intro p hp
    rcases List.mem_pair.mp hp with rfl | rfl
    exacts [⟨by decide, by decide⟩, ⟨by decide, by decide⟩]
  exact data_received_framing hps ⟨[9], rfl⟩ []

end PyGridGain
