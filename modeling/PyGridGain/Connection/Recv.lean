import PyGridGain.Lib.ByteStream
import PyGridGain.Lib.Framing
import PyGridGain.Datatypes.Value

/-! The loop of `Connection.recv`: it reads into a view of a buffer that slides along
with what has come and grows when the length of the packet is known. It ends on every
stream of bytes, and with the packet, however that is cut. -/

namespace PyGridGain

def DEFAULT_INITIAL_BUF_SIZE : ℕ := 1024

/-- `recv_into(buffer, n)` on a socket whose bytes come in the given chunks: the next
chunk as far as the buffer holds it, nothing once the peer has closed. -/
def recvInto (n : ℕ) : List Bytes → Bytes × List Bytes
  | [] => ([], [])
  | c :: cs => if c.length ≤ n then (c, cs) else (c.take n, c.drop n :: cs)

/-- The variables of the loop; the view `buffer` is `data[start:]`. -/
structure RecvState where
  data : Bytes
  start : ℕ
  totalRcvd : ℕ
  packetLen : ℤ

inductive RecvStep
  | broken
  | again (st : RecvState)
  | finished (data : Bytes)

/-- The rest of a round, after bytes were read: find out the length of the packet, see
whether all of it is there, and move the view. -/
def afterRead (st : RecvState) (bytesRcvd : ℕ) : RecvStep :=
  let found := st.packetLen = 0 && st.totalRcvd > 4
  let packetLen := if found then leInt (st.data.take 4) + 4 else st.packetLen
  if found && packetLen > st.data.length then
    .again { st with
      data := st.data ++ List.replicate (packetLen - st.data.length).toNat 0
      start := st.totalRcvd
      packetLen }
  else if 0 < packetLen && packetLen ≤ st.totalRcvd then .finished st.data
  else .again { st with start := st.start + bytesRcvd, packetLen }

/-- The body of the loop. -/
def recvStep (st : RecvState) (sock : List Bytes) : RecvStep × List Bytes :=
  let (got, sock) := recvInto (st.data.length - st.start) sock
  if got.length = 0 then (.broken, sock)
  else
    let data := writeAt st.data st.start got
    (afterRead { st with data, totalRcvd := st.totalRcvd + got.length } got.length, sock)

/-- How the loop ended, what it left in the socket, and the length of the buffer at each
call of `recv_into`. -/
structure RecvOutcome where
  result : Except PyError Bytes
  sock : List Bytes
  reads : List ℕ

/-- The loop; `none`, if it has not ended after `n` rounds. -/
def recvLoop : ℕ → RecvState → List Bytes → Option RecvOutcome
  | 0, _, _ => none
  | n + 1, st, sock =>
    let view := st.data.length - st.start
    match recvStep st sock with
    | (.broken, sock) => some ⟨raise .socketError "Connection broken.", sock, [view]⟩
    | (.finished data, sock) => some ⟨.ok data, sock, [view]⟩
    | (.again st, sock) =>
      (recvLoop n st sock).map fun o => { o with reads := view :: o.reads }

/-- `recv` on an open socket. -/
def recv (n : ℕ) (sock : List Bytes) : Option RecvOutcome :=
  recvLoop n ⟨List.replicate DEFAULT_INITIAL_BUF_SIZE 0, 0, 0, 0⟩ sock

/-! ### The loop ends -/

theorem recvInto_flatten (n : ℕ) (sock : List Bytes) :
    (recvInto n sock).1 ++ (recvInto n sock).2.flatten = sock.flatten := by
  cases sock with
  | nil => rfl
  | cons c cs =>
    simp only [recvInto]
    split_ifs
    · rfl
    · rw [List.flatten_cons, ← List.append_assoc, List.take_append_drop, List.flatten_cons]

/-- Every round takes something from the stream or ends the loop. -/
theorem recvStep_again {st st' : RecvState} {sock sock' : List Bytes}
    (h : recvStep st sock = (.again st', sock')) : sock'.flatten.length < sock.flatten.length := by
  have hflat := congrArg List.length (recvInto_flatten (st.data.length - st.start) sock)
  rw [List.length_append] at hflat
  unfold recvStep at h
  simp only at h
  split_ifs at h with h0
  · simp at h
  · obtain ⟨-, rfl⟩ := Prod.mk.inj h
    omega

theorem recvLoop_isSome {n : ℕ} {st : RecvState} {sock : List Bytes}
    (h : sock.flatten.length < n) : (recvLoop n st sock).isSome := by
  induction n generalizing st sock with
  | zero => exact absurd h (Nat.not_lt_zero _)
  | succ n ih =>
    rw [recvLoop]
    cases hstep : recvStep st sock with
    | mk r sock' =>
      cases r with
      | broken => rfl
      | finished data => rfl
      | again st' =>
        have hlt := recvStep_again hstep
        have hlt' : sock'.flatten.length < n := by omega
        exact (Option.isSome_map).trans (ih hlt')

/-! ### The loop ends with the packet -/

/-- A read takes a part of the chunks of a packet. -/
theorem recvInto_chunks {n : ℕ} (hn : 0 < n) {cs : List Bytes} (hne : ∀ c ∈ cs, c ≠ [])
    (hcs : cs ≠ []) (rest : List Bytes) :
    ∃ got cs', recvInto n (cs ++ rest) = (got, cs' ++ rest) ∧ cs.flatten = got ++ cs'.flatten ∧
      got ≠ [] ∧ got.length ≤ n ∧ ∀ c ∈ cs', c ≠ [] := by
  cases cs with
  | nil => exact absurd rfl hcs
  | cons c cs =>
    have hc : c ≠ [] := hne c (by simp)
    have hcs' : ∀ d ∈ cs, d ≠ [] := fun d hd => hne d (by simp [hd])
    by_cases hle : c.length ≤ n
    · exact ⟨c, cs, by simp [recvInto, hle], rfl, hc, hle, hcs'⟩
    · refine ⟨c.take n, c.drop n :: cs, by simp [recvInto, hle], ?_, ?_, by simp, ?_⟩
      · rw [List.flatten_cons, List.flatten_cons, ← List.append_assoc, List.take_append_drop]
      · rw [ne_eq, List.take_eq_nil_iff]
        exact not_or.mpr ⟨hn.ne', hc⟩
      · intro d hd
        rcases List.mem_cons.mp hd with rfl | hd
        · simp only [ne_eq, List.drop_eq_nil_iff]
          omega
        · exact hcs' d hd

/-- The state of the loop after the bytes `got` of the packet `p`, when more are to come. -/
structure Receiving (p got : Bytes) (st : RecvState) : Prop where
  more : got.length < p.length
  data : ∃ junk, st.data = got ++ junk
  start : st.start = got.length
  total : st.totalRcvd = got.length
  packetLen : (st.packetLen = 0 ∧ got.length ≤ 4 ∧ st.data.length = DEFAULT_INITIAL_BUF_SIZE) ∨
    (st.packetLen = p.length ∧ p.length ≤ st.data.length)

/-- There is room in the buffer while more is to come. -/
theorem Receiving.view_pos {p got : Bytes} {st : RecvState} (h : Receiving p got st) :
    0 < st.data.length - st.start := by
  have hstart := h.start
  have hmore := h.more
  rcases h.packetLen with ⟨-, hfour, hlen⟩ | ⟨-, hlen⟩
  · rw [DEFAULT_INITIAL_BUF_SIZE] at hlen
    omega
  · omega

theorem writeAt_append {got junk new : Bytes} (hnew : new ≠ []) :
    writeAt (got ++ junk) got.length new = got ++ new ++ junk.drop new.length := by
  rw [writeAt_of_ne hnew, padTo_of_le (by simp), List.take_left, ← List.drop_drop, List.drop_left]

theorem take_four_packet {p x junk : Bytes} (hx : x <+: p) (hfour : 4 < x.length) :
    (x ++ junk).take 4 = p.take 4 := by
  obtain ⟨t, rfl⟩ := hx
  rw [List.take_append_of_le_length hfour.le, List.take_append_of_le_length hfour.le]

/-- With `x` of the packet in the buffer, and its length known or not, a round ends the
loop with the packet or goes on. -/
theorem afterRead_receiving {p x : Bytes} {st : RecvState} {k : ℕ} (hp : IsPacket p)
    (hx : x <+: p) (hdata : ∃ junk, st.data = x ++ junk) (htotal : st.totalRcvd = x.length)
    (hstart : st.start + k = x.length)
    (hlen : (st.packetLen = 0 ∧ st.data.length = DEFAULT_INITIAL_BUF_SIZE) ∨
      (st.packetLen = p.length ∧ p.length ≤ st.data.length)) :
    (x = p ∧ afterRead st k = .finished st.data) ∨
      ∃ st', afterRead st k = .again st' ∧ Receiving p x st' := by
  obtain ⟨junk, hdata⟩ := hdata
  have hfour := hp.not_empty
  -- once the length is known and the buffer is large enough, only the bytes count
  have hcheck : p.length ≤ st.data.length →
      afterRead st k = (if 0 < (p.length : ℤ) && (p.length : ℤ) ≤ st.totalRcvd then
        .finished st.data else .again { st with start := st.start + k, packetLen := p.length }) →
      (x = p ∧ afterRead st k = .finished st.data) ∨
        ∃ st', afterRead st k = .again st' ∧ Receiving p x st' := by
    intro hroom heq
    by_cases hge : p.length ≤ x.length
    · refine Or.inl ⟨hx.eq_of_length_le hge, ?_⟩
      rw [heq, if_pos]
      simp only [htotal, Bool.and_eq_true, decide_eq_true_eq]
      omega
    · refine Or.inr ⟨{ st with start := st.start + k, packetLen := p.length }, ?_,
        ⟨not_le.mp hge, ⟨junk, hdata⟩, hstart, htotal, Or.inr ⟨rfl, hroom⟩⟩⟩
      rw [heq, if_neg]
      simp only [htotal, Bool.and_eq_true, decide_eq_true_eq]
      omega
  rcases hlen with ⟨hzero, hinit⟩ | ⟨hknown, hroom⟩
  · by_cases hgt : 4 < x.length
    · have hlength : leInt (st.data.take 4) + 4 = p.length := by
        rw [hdata, take_four_packet hx hgt, hp.length_eq]
      by_cases hroom : p.length ≤ st.data.length
      · have hfits : ¬(p.length : ℤ) > st.data.length := by omega
        exact hcheck hroom (by simp [afterRead, hzero, htotal, hgt, hlength, hfits])
      · have hgrow : (p.length : ℤ) > st.data.length := by omega
        have hlenx : x.length ≤ st.data.length := by rw [hdata]; simp
        refine Or.inr ⟨{ st with
          data := st.data ++ List.replicate ((p.length : ℤ) - st.data.length).toNat 0
          start := st.totalRcvd
          packetLen := p.length }, by simp [afterRead, hzero, htotal, hgt, hlength, hgrow],
          ⟨by omega, ⟨junk ++ List.replicate ((p.length : ℤ) - st.data.length).toNat 0, ?_⟩, htotal, htotal, Or.inr ⟨rfl, ?_⟩⟩⟩
        · rw [hdata, List.append_assoc]
        · rw [List.length_append, List.length_replicate]
          omega
    · refine Or.inr ⟨{ st with start := st.start + k }, by simp [afterRead, hzero, htotal, hgt],
        ⟨by omega, ⟨junk, hdata⟩, hstart, htotal, Or.inl ⟨hzero, not_lt.mp hgt, hinit⟩⟩⟩
  · have hne : p ≠ [] := List.ne_nil_of_length_pos (by omega)
    exact hcheck hroom (by simp [afterRead, hknown, hne])

/-- A round that reads a part of the packet. -/
theorem recvStep_receiving {p got new : Bytes} {st : RecvState} {sock sock' : List Bytes}
    (hp : IsPacket p) (h : Receiving p got st)
    (hread : recvInto (st.data.length - st.start) sock = (new, sock')) (hnew : new ≠ [])
    (hfit : new.length ≤ st.data.length - st.start) (hpre : got ++ new <+: p) :
    (got ++ new = p ∧ ∃ junk, recvStep st sock = (.finished (p ++ junk), sock')) ∨
      ∃ st', recvStep st sock = (.again st', sock') ∧ Receiving p (got ++ new) st' := by
  obtain ⟨junk, hdata⟩ := h.data
  have hpos : new.length ≠ 0 := fun h0 => hnew (List.length_eq_zero_iff.mp h0)
  have hwrite : writeAt st.data st.start new = got ++ new ++ junk.drop new.length := by
    rw [hdata, h.start, writeAt_append hnew]
  have hlen : (got ++ new ++ junk.drop new.length).length = st.data.length := by
    have hstart := h.start
    rw [hdata] at hfit ⊢
    simp only [List.length_append, List.length_drop] at hfit ⊢
    omega
  have hround := @afterRead_receiving p (got ++ new)
    { st with data := got ++ new ++ junk.drop new.length,
              totalRcvd := st.totalRcvd + new.length } new.length hp hpre
    ⟨junk.drop new.length, rfl⟩ (by simp [h.total]) (by simp [h.start]) (by
      rcases h.packetLen with ⟨hzero, -, hinit⟩ | ⟨hknown, hroom⟩
      · exact Or.inl ⟨hzero, by rw [hlen, hinit]⟩
      · exact Or.inr ⟨hknown, by rw [hlen]; exact hroom⟩)
  simp only [recvStep, hread, hpos, if_false, hwrite]
  rcases hround with ⟨hall, hfin⟩ | ⟨st', hagain, hst'⟩
  · exact Or.inl ⟨hall, junk.drop new.length, by rw [hfin, hall]⟩
  · exact Or.inr ⟨st', by rw [hagain], hst'⟩

theorem recvLoop_receiving {p got : Bytes} {st : RecvState} {cs : List Bytes} (hp : IsPacket p)
    (h : Receiving p got st) (hne : ∀ c ∈ cs, c ≠ []) (hcs : got ++ cs.flatten = p)
    (rest : List Bytes) {n : ℕ} (hn : cs.flatten.length < n) :
    ∃ junk reads, recvLoop n st (cs ++ rest) = some ⟨.ok (p ++ junk), rest, reads⟩ ∧
      ∀ k ∈ reads, 0 < k := by
  induction n generalizing got st cs with
  | zero => exact absurd hn (Nat.not_lt_zero _)
  | succ n ih =>
    have hview := h.view_pos
    have hmore : cs ≠ [] := by
      rintro rfl
      have := h.more
      simp [← hcs] at this
    obtain ⟨new, cs', hread, hflat, hnew, hfit, hne'⟩ := recvInto_chunks hview hne hmore rest
    have hpos : 0 < new.length := List.length_pos_iff.mpr hnew
    rw [hflat, ← List.append_assoc] at hcs
    rcases recvStep_receiving hp h hread hnew hfit ⟨cs'.flatten, hcs⟩ with
      ⟨hall, junk, hstep⟩ | ⟨st', hstep, h'⟩
    · have hdone : cs'.flatten = [] := by
        rw [← hall] at hcs
        simpa using hcs
      have hnil : cs' = [] := by
        refine List.eq_nil_iff_forall_not_mem.mpr fun c hc => hne' c hc ?_
        exact List.flatten_eq_nil_iff.mp hdone c hc
      refine ⟨junk, [st.data.length - st.start], ?_, by simpa using hview⟩
      rw [recvLoop, hstep, hnil]
      rfl
    · have hlt : cs'.flatten.length < n := by
        rw [hflat, List.length_append] at hn
        omega
      obtain ⟨junk, reads, hloop, hreads⟩ := ih h' hne' hcs hlt
      refine ⟨junk, _ :: reads, ?_, List.forall_mem_cons.mpr ⟨hview, hreads⟩⟩
      rw [recvLoop, hstep]
      simp only [hloop, Option.map_some]

/-- `recv` takes exactly one packet from the socket, however its bytes are cut, and never
reads into an empty buffer; and on any bytes whatsoever it ends. -/
theorem recv_framing :
    (∀ (p : Bytes) (chunks rest : List Bytes) (n : ℕ), IsPacket p → (∀ c ∈ chunks, c ≠ []) →
      chunks.flatten = p → p.length < n →
        ∃ data reads, recv n (chunks ++ rest) = some ⟨.ok data, rest, reads⟩ ∧
          data.take p.length = p ∧ ∀ k ∈ reads, 0 < k) ∧
      ∀ (sock : List Bytes) (n : ℕ), sock.flatten.length < n → ∃ o, recv n sock = some o := by
  refine ⟨fun p chunks rest n hp hne hchunks hn => ?_, fun sock n hn =>
    Option.isSome_iff_exists.mp (recvLoop_isSome hn)⟩
  have hpos := hp.not_empty
  have h0 : Receiving p [] ⟨List.replicate DEFAULT_INITIAL_BUF_SIZE 0, 0, 0, 0⟩ :=
    ⟨by simp; omega, ⟨_, rfl⟩, rfl, rfl, Or.inl ⟨rfl, by simp, by simp⟩⟩
  obtain ⟨junk, reads, hloop, hreads⟩ :=
    recvLoop_receiving hp h0 hne (by simpa using hchunks) rest (n := n) (by rw [hchunks]; exact hn)
  exact ⟨p ++ junk, reads, hloop, List.take_left, hreads⟩

/-- A packet in two chunks, with the beginning of another behind it. -/
theorem recv_framing_two_chunks :
    ∃ data reads, recv 7 ([[2, 0, 0], [0, 8, 9]] ++ [[1, 0]]) = some ⟨.ok data, [[1, 0]], reads⟩ ∧
      data.take 6 = [2, 0, 0, 0, 8, 9] ∧ ∀ k ∈ reads, 0 < k :=
  recv_framing.1 [2, 0, 0, 0, 8, 9] _ _ 7 ⟨by decide, by decide⟩ (by decide) rfl (by decide)

end PyGridGain
