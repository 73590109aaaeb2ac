import PyGridGain.Lib.LittleEndian

/-! Packets that tell their own length, and what a receiver knows of a sequence of
them after some of its bytes: the packets that are complete, and a tail. -/

namespace PyGridGain

/-- A packet: a length of four bytes, and that many bytes, at least one. -/
structure IsPacket (p : Bytes) : Prop where
  not_empty : 4 < p.length
  length_eq : leInt (p.take 4) + 4 = p.length

/-- The bytes `tail` do not complete the first of the packets `rest` that they start. -/
structure IsTail (tail : Bytes) (rest : List Bytes) : Prop where
  isPrefix : tail <+: rest.flatten
  incomplete : ∀ p ∈ rest.head?, tail.length < p.length

theorem IsTail.eq_nil {tail : Bytes} (h : IsTail tail []) : tail = [] :=
  List.prefix_nil.mp h.isPrefix

/-- A tail is less than the one packet that it starts. -/
theorem IsTail.prefix_head {tail p : Bytes} {rest : List Bytes} (h : IsTail tail (p :: rest)) :
    tail <+: p :=
  List.prefix_of_prefix_length_le h.isPrefix ⟨rest.flatten, rfl⟩ (h.incomplete p rfl).le

/-- If all bytes have come, no tail is left. -/
theorem IsTail.rest_eq_nil {tail : Bytes} {rest : List Bytes} (h : IsTail tail rest)
    (hall : tail = rest.flatten) : rest = [] := by
  cases rest with
  | nil => rfl
  | cons p rest =>
    have hlt := h.incomplete p rfl
    rw [hall, List.flatten_cons, List.length_append] at hlt
    omega

/-- Whatever part of the packets has come, it is some complete packets and a tail. -/
theorem exists_tail {b : Bytes} {ps : List Bytes} (h : b <+: ps.flatten) :
    ∃ done rest tail, ps = done ++ rest ∧ b = done.flatten ++ tail ∧ IsTail tail rest := by
  induction ps generalizing b with
  | nil => exact ⟨[], [], b, rfl, rfl, h, by simp⟩
  | cons p ps ih =>
    by_cases hlt : b.length < p.length
    · exact ⟨[], p :: ps, b, rfl, rfl, h, by simpa using hlt⟩
    · obtain ⟨c, rfl⟩ := List.prefix_of_prefix_length_le (⟨ps.flatten, rfl⟩ : p <+: (p :: ps).flatten)
        h (not_lt.mp hlt)
      rw [List.flatten_cons, List.prefix_append_right_inj] at h
      obtain ⟨done, rest, tail, rfl, rfl, htail⟩ := ih h
      exact ⟨p :: done, rest, tail, rfl, by simp, htail⟩

/-- The packets that are complete after `n` bytes. -/
def completed : List Bytes → ℕ → List Bytes
  | [], _ => []
  | p :: ps, n => if p.length ≤ n then p :: completed ps (n - p.length) else []

theorem completed_of_tail {done rest : List Bytes} {tail : Bytes} (h : IsTail tail rest) :
    completed (done ++ rest) (done.flatten ++ tail).length = done := by
  induction done with
  | nil =>
    cases rest with
    | nil => rfl
    | cons p rest => simp [completed, h.incomplete p rfl]
  | cons p done ih =>
    rw [List.flatten_cons, List.append_assoc, List.length_append, List.cons_append, completed,
      if_pos (Nat.le_add_right _ _), Nat.add_sub_cancel_left, ih]

/-- There are no more packets than bytes. -/
theorem length_le_flatten_of_packets {ps : List Bytes} (h : ∀ p ∈ ps, IsPacket p) :
    ps.length ≤ ps.flatten.length := by
  induction ps with
  | nil => simp
  | cons p ps ih =>
    have hp := (h p (by simp)).not_empty
    have hps := ih fun q hq => h q (by simp [hq])
    rw [List.flatten_cons, List.length_append, List.length_cons]
    omega

end PyGridGain
