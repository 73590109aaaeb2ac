import PyGridGain.Stream.BinaryStream

/-! Two stream actions that write the same bytes, each at the place where its stream stands.
What is proved of pieces of the writers is put together along `>>=`. -/

namespace PyGridGain

open StreamM

/-- A stream that can be written to, of a client with the footers `cf`. -/
structure Usable (cf : Bool) (s : BinaryStream) : Prop where
  footer : s.client.compactFooter = cf
  emptyView : s.emptyView = false

/-- `t` is the stream `s` after `d` was written to it, up to the classes that its client
has registered meanwhile. -/
def Wrote (s t : BinaryStream) (d : Bytes) : Prop :=
  ∃ cl : Client, cl.compactFooter = s.client.compactFooter ∧ t = { s.put d with client := cl }

theorem length_writeAt (buf : Bytes) (pos : ℕ) (d : Bytes) :
    buf.length ≤ (writeAt buf pos d).length := by
  by_cases hd : d = []
  · rw [hd, writeAt_nil]
  · rw [writeAt_of_ne hd]
    simp only [List.length_append, padTo_length, List.length_drop]
    omega

theorem writeAt_eq_nil {buf : Bytes} {pos : ℕ} {d : Bytes} :
    writeAt buf pos d = [] ↔ buf = [] ∧ d = [] := by
  by_cases hd : d = []
  · simp [hd]
  · rw [writeAt_of_ne hd]
    simp [hd]

namespace Wrote
variable {s t u : BinaryStream} {d d' : Bytes} {cf : Bool}

theorem refl (s : BinaryStream) : Wrote s s [] := ⟨s.client, rfl, by simp⟩

theorem put (s : BinaryStream) (d : Bytes) : Wrote s (s.put d) d := ⟨s.client, rfl, rfl⟩

theorem trans (h : Wrote s t d) (h' : Wrote t u d') : Wrote s u (d ++ d') := by
  obtain ⟨cl, hcl, rfl⟩ := h
  obtain ⟨cl', hcl', rfl⟩ := h'
  refine ⟨cl', hcl'.trans hcl, ?_⟩
  rw [← BinaryStream.put_put]
  rfl

theorem buf (h : Wrote s t d) : t.buf = writeAt s.buf s.pos d := by
  obtain ⟨cl, -, rfl⟩ := h
  rfl

theorem pos (h : Wrote s t d) : t.pos = s.pos + d.length := by
  obtain ⟨cl, -, rfl⟩ := h
  rfl

theorem usable (h : Wrote s t d) (hs : Usable cf s) : Usable cf t := by
  obtain ⟨cl, hcl, rfl⟩ := h
  exact ⟨hcl.trans hs.footer, hs.emptyView⟩

theorem length_le (h : Wrote s t d) : s.buf.length ≤ t.buf.length := by
  rw [h.buf]
  exact length_writeAt _ _ _

theorem at_pos (h : Wrote s t d) : At t.buf s.pos d := by
  rw [h.buf]
  exact at_writeAt _ _ _

/-- What was written can be read off the streams. -/
theorem unique (h : Wrote s t d) (h' : Wrote s t d') : d = d' := by
  have hlength : d.length = d'.length := by
    have hpos := h.pos
    have hpos' := h'.pos
    omega
  rw [← h.at_pos.slice, hlength, h'.at_pos.slice]

theorem length_data_le (h : Wrote s t d) : d.length ≤ t.buf.length := by
  by_cases hd : d = []
  · simp [hd]
  · exact (Nat.le_add_left _ _).trans (h.at_pos.length_le hd)

end Wrote

/-- The stream does not get shorter. -/
def Grows {α : Type} (m : StreamM α) : Prop :=
  ∀ s a t, m s = .ok (a, t) → s.buf.length ≤ t.buf.length

/-- What `m` writes to a stream, up to a length of 2 GiB, `m'` writes to every other stream,
unless it is empty and that of `m` was not; and the result of `m` satisfies `G`. -/
structure Follows {α : Type} (cf : Bool) (G : α → Prop) (m m' : StreamM α) : Prop where
  grows : Grows m
  follows : ∀ s a t, Usable cf s → m s = .ok (a, t) → t.buf.length < 2 ^ 31 →
    G a ∧ ∃ d, Wrote s t d ∧ ∀ s', Usable cf s' → (s'.buf = [] → s.buf = []) →
      ∃ a' t', m' s' = .ok (a', t') ∧ Wrote s' t' d

section Bind
variable {α β : Type} {m m' : StreamM α} {f f' : α → StreamM β} {s t : BinaryStream}

theorem bind_eq_ok {b : β} (h : (m >>= f) s = .ok (b, t)) :
    ∃ a u, m s = .ok (a, u) ∧ f a u = .ok (b, t) := by
  cases hm : m s with
  | error e =>
    rw [bind_error hm] at h
    cases h
  | ok r => exact ⟨r.1, r.2, rfl, by rwa [bind_ok hm] at h⟩

theorem Grows.bind (hm : Grows m) (hf : ∀ a, Grows (f a)) : Grows (m >>= f) := by
  intro s b t h
  obtain ⟨a, u, hu, ht⟩ := bind_eq_ok h
  exact (hm s a u hu).trans (hf a u b t ht)

end Bind

theorem Grows.of_buf {α : Type} {m : StreamM α} (h : ∀ s a t, m s = .ok (a, t) → t.buf = s.buf) :
    Grows m := by
  intro s a t ht
  rw [h s a t ht]

theorem Grows.pure {α : Type} (a : α) : Grows (pure a) := by
  apply Grows.of_buf
  intro s b t h
  obtain ⟨-, rfl⟩ := Prod.mk.inj (Except.ok.inj h)
  rfl

theorem Grows.write (d : Bytes) : Grows (write d) := by
  intro s a t h
  unfold StreamM.write at h
  split_ifs at h
  · cases h
  · obtain ⟨-, rfl⟩ := Prod.mk.inj (Except.ok.inj h)
    exact length_writeAt _ _ _

namespace Follows
variable {α β : Type} {cf : Bool} {G H : α → Prop} {m m' : StreamM α}

theorem mono (h : Follows cf G m m') (hG : ∀ a, G a → H a) : Follows cf H m m' := by
  refine ⟨h.grows, fun s a t hs ht hsize => ?_⟩
  obtain ⟨ha, hrest⟩ := h.follows s a t hs ht hsize
  exact ⟨hG a ha, hrest⟩

/-- Following is transitive: the second action writes what the first one does also where
that one runs. -/
theorem trans {m'' : StreamM α} {K : α → Prop} (h : Follows cf G m m')
    (h' : Follows cf K m' m'') : Follows cf G m m'' := by
  refine ⟨h.grows, fun s a t hs ht hsize => ?_⟩
  obtain ⟨ha, d, hd, hfollow⟩ := h.follows s a t hs ht hsize
  obtain ⟨a', t', ht', hd'⟩ := hfollow s hs fun hnil => hnil
  have hsize' : t'.buf.length < 2 ^ 31 := by rwa [hd'.buf, ← hd.buf]
  obtain ⟨-, e, he, hfollow'⟩ := h'.follows s a' t' hs ht' hsize'
  obtain rfl := hd'.unique he
  exact ⟨ha, d, hd, hfollow'⟩

theorem of_error (h : ∀ s a t, m s ≠ .ok (a, t)) : Follows cf G m m' :=
  ⟨fun s a t ht => absurd ht (h s a t), fun s a t _ ht => absurd ht (h s a t)⟩

theorem raise (exc : Exc) (message : String) : Follows cf G (StreamM.raise exc message) m' := by
  apply of_error
  intro s a t h
  cases h

theorem pure {a a' : α} (h : G a) : Follows cf G (pure a) (pure a') := by
  refine ⟨Grows.pure a, fun s b t hs ht _ => ?_⟩
  obtain ⟨rfl, rfl⟩ := Prod.mk.inj (Except.ok.inj ht)
  exact ⟨h, [], Wrote.refl _, fun s' _ _ => ⟨a', s', rfl, Wrote.refl s'⟩⟩

theorem write (d : Bytes) : Follows cf (fun _ => True) (StreamM.write d) (StreamM.write d) := by
  refine ⟨Grows.write d, fun s b t hs ht _ => ?_⟩
  rw [write_ok hs.emptyView] at ht
  obtain ⟨rfl, rfl⟩ := Prod.mk.inj (Except.ok.inj ht)
  exact ⟨trivial, d, Wrote.put s d, fun s' hs' _ =>
    ⟨(), s'.put d, write_ok hs'.emptyView d, Wrote.put s' d⟩⟩

/-- Streams that follow each other do so in sequences, where what is known of the second
result may rest on what is known of the first one. -/
theorem bind {K : β → Prop} {f f' : α → StreamM β} (hm : Follows cf G m m')
    (hf : ∀ a a', Follows cf (fun b => G a → K b) (f a) (f' a')) :
    Follows cf K (m >>= f) (m' >>= f') := by
  refine ⟨hm.grows.bind fun a => (hf a a).grows, fun s b t hs ht hsize => ?_⟩
  obtain ⟨a, u, hu, hfu⟩ := bind_eq_ok ht
  have hgrows := (hf a a).grows u b t hfu
  obtain ⟨ha, d, hd, hfollow⟩ := hm.follows s a u hs hu (hgrows.trans_lt hsize)
  obtain ⟨hK, d', hd', -⟩ := (hf a a).follows u b t (hd.usable hs) hfu hsize
  refine ⟨hK ha, d ++ d', hd.trans hd', fun s' hs' hempty => ?_⟩
  obtain ⟨a', u', hu', hw'⟩ := hfollow s' hs' hempty
  have hempty' : u'.buf = [] → u.buf = [] := by
    rw [hw'.buf, hd.buf, writeAt_eq_nil, writeAt_eq_nil]
    exact fun h => ⟨hempty h.1, h.2⟩
  obtain ⟨-, e, he, hfollow'⟩ := (hf a a').follows u b t (hd.usable hs) hfu hsize
  obtain rfl := hd'.unique he
  obtain ⟨b', t', ht', hw⟩ := hfollow' u' (hw'.usable hs') hempty'
  exact ⟨b', t', by rw [bind_ok hu', ht'], hw'.trans hw⟩

/-- Steps that write nothing. -/
theorem silent {m m' : StreamM Unit} (h : ∀ s, ∃ t, m s = .ok ((), t) ∧ Wrote s t [])
    (h' : ∀ s, ∃ t, m' s = .ok ((), t) ∧ Wrote s t []) : Follows cf (fun _ => True) m m' := by
  refine ⟨fun s a t ht => ?_, fun s a t hs ht _ => ?_⟩
  · obtain ⟨u, hu, hwrote⟩ := h s
    obtain ⟨-, rfl⟩ := Prod.mk.inj (Except.ok.inj (ht.symm.trans hu))
    exact hwrote.length_le
  · obtain ⟨u, hu, hwrote⟩ := h s
    obtain ⟨-, rfl⟩ := Prod.mk.inj (Except.ok.inj (ht.symm.trans hu))
    refine ⟨trivial, [], hwrote, fun s' _ _ => ?_⟩
    obtain ⟨u', hu', hwrote'⟩ := h' s'
    exact ⟨(), u', hu', hwrote'⟩

/-- A step whose result does not depend on the stream. -/
theorem lift {x : Except PyError α} {K : β → Prop} {f f' : α → StreamM β}
    (hf : ∀ a, x = .ok a → Follows cf K (f a) (f' a)) :
    Follows cf K ((fun s => x.map fun a => (a, s)) >>= f)
      ((fun s => x.map fun a => (a, s)) >>= f') := by
  cases x with
  | error e =>
    apply of_error
    intro s a t h
    cases h
  | ok a => exact hf a rfl

theorem ofOption {x : Option α} {exc : Exc} {K : β → Prop} {f f' : α → StreamM β}
    (hf : ∀ a, x = some a → Follows cf K (f a) (f' a)) :
    Follows cf K (StreamM.ofOption x exc >>= f) (StreamM.ofOption x exc >>= f') := by
  cases x with
  | none =>
    apply of_error
    intro s a t h
    cases h
  | some a => exact hf a rfl

end Follows

end PyGridGain
