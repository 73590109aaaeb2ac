import Mathlib.Data.List.Forall2

/-! Encodings that are told apart wherever they stand first: whatever follows them, they end at the
same place and have in common what they stand for. -/

namespace PyGridGain

variable {σ α β : Type} {P Q : Prop} {x y x' y' : List σ}

/-- Where something begins with `x` and with `y`, `P` holds and what follows them is the same. -/
def Tells (P : Prop) (x y : List σ) : Prop := ∀ r t, x ++ r = y ++ t → P ∧ r = t

theorem Tells.imp (h : Tells P x y) (hPQ : P → Q) : Tells Q x y := fun r t heq =>
  ⟨hPQ (h r t heq).1, (h r t heq).2⟩

theorem Tells.of_eq (h : Tells P x x) : P := (h [] [] rfl).1

theorem tells_nil (h : P) : Tells P ([] : List σ) [] := fun _ _ heq => ⟨h, heq⟩

/-- What they have in common includes themselves. -/
theorem Tells.bytes (h : Tells P x y) : Tells (P ∧ x = y) x y := by
  intro r t heq
  obtain ⟨hP, rfl⟩ := h r t heq
  exact ⟨⟨hP, List.append_cancel_right heq⟩, rfl⟩

/-- Of one length, they only have to be different. -/
theorem Tells.of_length (hlength : x.length = y.length) (h : x = y → P) : Tells P x y := by
  intro r t heq
  obtain ⟨hxy, hrt⟩ := List.append_inj heq hlength
  exact ⟨h hxy, hrt⟩

/-- What follows has to be told apart only where the first parts agree. -/
theorem Tells.append (h : Tells P x y) (h' : P → Tells Q x' y') :
    Tells (P ∧ Q) (x ++ x') (y ++ y') := by
  intro r t heq
  rw [List.append_assoc, List.append_assoc] at heq
  obtain ⟨hP, hrest⟩ := h _ _ heq
  obtain ⟨hQ, hrt⟩ := h' hP r t hrest
  exact ⟨⟨hP, hQ⟩, hrt⟩

/-- One after another. -/
theorem Tells.flatMap {R : α → β → Prop} {f : α → List σ} {g : β → List σ} {as : List α}
    {bs : List β} (h : List.Forall₂ (fun a b => Tells (R a b) (f a) (g b)) as bs) :
    Tells (List.Forall₂ R as bs) (as.flatMap f) (bs.flatMap g) := by
  induction h with
  | nil => exact tells_nil .nil
  | cons hab _ ih =>
    rw [List.flatMap_cons, List.flatMap_cons]
    apply (hab.append fun _ => ih).imp
    rintro ⟨hfirst, hrest⟩
    exact .cons hfirst hrest

/-- What holds of all of them holds of equally many one after another. -/
theorem forall₂_of_length {R : α → β → Prop} {as : List α} {bs : List β}
    (hlength : as.length = bs.length) (h : ∀ a ∈ as, ∀ b ∈ bs, R a b) : List.Forall₂ R as bs :=
  List.forall₂_iff_zip.mpr ⟨hlength, fun hab => h _ (List.of_mem_zip hab).1 _ (List.of_mem_zip hab).2⟩

end PyGridGain
