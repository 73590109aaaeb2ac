import PyGridGain.Datatypes.Parse

/-! What a parser finds at the place where its stream stands, whatever stands before and after.
The rules put parsers together along `>>=`, the bytes of the one before those of the other. -/

namespace PyGridGain

open StreamM

/-- The stream stands before `data`, and its client satisfies `I`. -/
structure Before (I : Client → Prop) (s : BinaryStream) (data : Bytes) : Prop where
  emptyView : s.emptyView = false
  client : I s.client
  at_pos : At s.buf s.pos data

/-- `r` is the stream `s` further by `n` bytes. -/
structure Past (I : Client → Prop) (s r : BinaryStream) (n : ℕ) : Prop where
  emptyView : r.emptyView = false
  client : I r.client
  buf : r.buf = s.buf
  pos : r.pos = s.pos + n

variable {I : Client → Prop} {s r : BinaryStream} {data data' : Bytes}

theorem Before.skip (h : Before I s data) (n : ℕ) : Past I s (s.skip n) n :=
  ⟨h.emptyView, h.client, rfl, rfl⟩

theorem Before.left (h : Before I s (data ++ data')) : Before I s data :=
  ⟨h.emptyView, h.client, h.at_pos.left⟩

/-- Past the first bytes the stream stands before the others. -/
theorem Before.right (h : Before I s (data ++ data')) (hr : Past I s r data.length) :
    Before I r data' := by
  refine ⟨hr.emptyView, hr.client, ?_⟩
  rw [hr.buf, hr.pos]
  exact h.at_pos.right

theorem Past.trans {t : BinaryStream} {n m : ℕ} (h : Past I s r n) (h' : Past I r t m) :
    Past I s t (n + m) :=
  ⟨h'.emptyView, h'.client, h'.buf.trans h.buf, by rw [h'.pos, h.pos, Nat.add_assoc]⟩

/-- Before these bytes the action succeeds with a result that satisfies `Q`, and moves past
them. -/
def Finds {α : Type} (I : Client → Prop) (m : StreamM α) (data : Bytes) (Q : α → Prop) : Prop :=
  ∀ s, Before I s data → ∃ a r, m s = .ok (a, r) ∧ Past I s r data.length ∧ Q a

namespace Finds
variable {α β : Type} {m : StreamM α} {f : α → StreamM β} {Q Q' : α → Prop} {R : β → Prop}

theorem mono (h : Finds I m data Q) (hQ : ∀ a, Q a → Q' a) : Finds I m data Q' := by
  intro s hs
  obtain ⟨a, r, hm, hr, ha⟩ := h s hs
  exact ⟨a, r, hm, hr, hQ a ha⟩

theorem pure {a : α} (h : Q a) : Finds I (pure a) [] Q := fun s hs =>
  ⟨a, s, rfl, ⟨hs.emptyView, hs.client, rfl, rfl⟩, h⟩

theorem bind (hm : Finds I m data Q) (hf : ∀ a, Q a → Finds I (f a) data' R) :
    Finds I (m >>= f) (data ++ data') R := by
  intro s hs
  obtain ⟨a, r, hm, hr, ha⟩ := hm s hs.left
  obtain ⟨b, t, ht, hpast, hb⟩ := hf a ha r (hs.right hr)
  refine ⟨b, t, (bind_ok hm).trans ht, ?_, hb⟩
  rw [List.length_append]
  exact hr.trans hpast

/-- A last step that moves no further. -/
theorem map (hm : Finds I m data Q) {f : α → β} (hf : ∀ a, Q a → R (f a)) :
    Finds I (m >>= fun a => Pure.pure (f a)) data R := by
  have h := hm.bind fun a ha => Finds.pure (I := I) (hf a ha)
  rwa [List.append_nil] at h

/-- A first step that looks ahead. -/
theorem looking (hm : ∀ s, Before I s data → ∃ a, m s = .ok (a, s) ∧ Q a)
    (hf : ∀ a, Q a → Finds I (f a) data R) : Finds I (m >>= f) data R := by
  intro s hs
  obtain ⟨a, ha, hQ⟩ := hm s hs
  obtain ⟨b, r, hr, hpast, hb⟩ := hf a hQ s hs
  exact ⟨b, r, (bind_ok ha).trans hr, hpast, hb⟩

theorem seekCur {Q : Unit → Prop} (h : Q ()) : Finds I (StreamM.seekCur data.length) data Q :=
  fun s hs => ⟨(), s.skip data.length, rfl, hs.skip _, h⟩

theorem seekPast {c : Layout} (hc : c.size = data.length) {Q : Layout → Prop} (h : Q c) :
    Finds I (seekPast c) data Q := by
  intro s hs
  refine ⟨c, s.skip data.length, ?_, hs.skip _, h⟩
  rw [← hc]
  rfl

/-- What was parsed is read backward before the parser goes on. -/
theorem observing {m : StreamM α} (layout : α → Layout) {f : α → CObject → StreamM β}
    (hne : data ≠ []) (hm : Finds I m data fun a => (layout a).size = data.length ∧ Q a)
    (hf : ∀ a, (layout a).size = data.length → Q a → Finds I (f a ⟨layout a, data⟩) data' R) :
    Finds I (do let a ← m; let o ← readBackward (layout a); f a o) (data ++ data') R := by
  intro s hs
  obtain ⟨a, r, ha, hr, hsize, hQ⟩ := hm s hs.left
  have hat : At r.buf s.pos data := by
    rw [hr.buf]
    exact hs.at_pos.left
  have hback := readBackward_at hr.emptyView hat hne hr.pos hsize.symm
  obtain ⟨b, t, ht, hpast, hb⟩ := hf a hsize hQ r (hs.right hr)
  refine ⟨b, t, (bind_ok ha).trans ((bind_ok hback).trans ht), ?_, hb⟩
  rw [List.length_append]
  exact hr.trans hpast

theorem observe {m : StreamM Layout} {f : Layout → CObject → StreamM β} {Q : Layout → Prop}
    (hne : data ≠ []) (hm : Finds I m data fun c => c.size = data.length ∧ Q c)
    (hf : ∀ c, c.size = data.length → Q c → Finds I (f c ⟨c, data⟩) data' R) :
    Finds I (do let c ← m; let o ← readBackward c; f c o) (data ++ data') R :=
  observing id hne hm hf

end Finds

end PyGridGain
