import Mathlib.Data.List.Forall2

/-! Two programs of which one succeeds wherever the other does. What one computes need not be what
the other computes; it is related to it, and so are the states that they leave. -/

namespace PyGridGain

variable {ε α β γ δ κ : Type}

/-- Where `y` succeeds, so does `x`, with a result that is related to that of `y`. -/
def Related (Q : α → β → Prop) (x : Except ε α) (y : Except ε β) : Prop :=
  ∀ b, y = .ok b → ∃ a, x = .ok a ∧ Q a b

namespace Related
variable {Q Q' : α → β → Prop} {P : γ → δ → Prop} {x : Except ε α} {y : Except ε β}

theorem ok {a : α} {b : β} (h : Q a b) : Related Q (.ok a : Except ε α) (.ok b) := by
  intro b' hb
  exact ⟨a, rfl, Except.ok.inj hb ▸ h⟩

theorem error (x : Except ε α) (e : ε) : Related Q x (.error e) := by
  intro b hb
  cases hb

theorem mono (h : Related Q x y) (hQ : ∀ a b, Q a b → Q' a b) : Related Q' x y := by
  intro b hb
  obtain ⟨a, ha, hab⟩ := h b hb
  exact ⟨a, ha, hQ a b hab⟩

theorem bind (h : Related Q x y) {f : α → Except ε γ} {g : β → Except ε δ}
    (hfg : ∀ a b, Q a b → Related P (f a) (g b)) : Related P (x >>= f) (y >>= g) := by
  cases y with
  | error e => exact error _ e
  | ok b =>
    obtain ⟨a, rfl, hab⟩ := h b rfl
    exact hfg a b hab

/-- A first step that both take. -/
theorem bind_same {x : Except ε κ} {f : κ → Except ε α} {g : κ → Except ε β}
    (h : ∀ i, Related Q (f i) (g i)) : Related Q (x >>= f) (x >>= g) := by
  cases x with
  | error e => exact error _ e
  | ok i => exact h i

/-- A loop that collects its results. -/
theorem mapM {l : List κ} {f : κ → Except ε α} {g : κ → Except ε β}
    (h : ∀ i ∈ l, Related Q (f i) (g i)) : Related (List.Forall₂ Q) (l.mapM f) (l.mapM g) := by
  induction l with
  | nil => exact ok .nil
  | cons i l ih =>
    rw [List.mapM_cons, List.mapM_cons]
    refine (h i List.mem_cons_self).bind fun a b hab => ?_
    refine (ih fun j hj => h j (List.mem_cons_of_mem _ hj)).bind fun as bs hs => ?_
    exact ok (.cons hab hs)

/-- A loop with an accumulator. -/
theorem foldlM {l : List κ} {f : α → κ → Except ε α} {g : β → κ → Except ε β}
    (h : ∀ i ∈ l, ∀ a b, Q a b → Related Q (f a i) (g b i)) {a : α} {b : β} (hab : Q a b) :
    Related Q (l.foldlM f a) (l.foldlM g b) := by
  induction l generalizing a b with
  | nil => exact ok hab
  | cons i l ih =>
    rw [List.foldlM_cons, List.foldlM_cons]
    refine (h i List.mem_cons_self a b hab).bind fun a' b' hab' => ?_
    exact ih (fun j hj => h j (List.mem_cons_of_mem _ hj)) hab'

end Related

section State
variable {σ τ : Type}

/-- From states related by `R`, wherever `n` succeeds so does `m`, with results related by `Q`,
and leaves a related state. -/
def Tracks (R : σ → τ → Prop) (Q : α → β → Prop) (m : StateT σ (Except ε) α)
    (n : StateT τ (Except ε) β) : Prop :=
  ∀ s t, R s t → Related (fun p q => Q p.1 q.1 ∧ R p.2 q.2) (m s) (n t)

namespace Tracks
variable {R : σ → τ → Prop} {Q : α → β → Prop} {P : γ → δ → Prop}
  {m : StateT σ (Except ε) α} {n : StateT τ (Except ε) β}

theorem pure {a : α} {b : β} (h : Q a b) :
    Tracks R Q (pure a : StateT σ (Except ε) α) (pure b : StateT τ (Except ε) β) :=
  fun _ _ hst => Related.ok ⟨h, hst⟩

theorem raising {e : ε} (h : ∀ t, n t = .error e) : Tracks R Q m n := by
  intro s t _
  rw [h t]
  exact Related.error _ e

theorem bind (h : Tracks R Q m n) {f : α → StateT σ (Except ε) γ} {g : β → StateT τ (Except ε) δ}
    (hfg : ∀ a b, Q a b → Tracks R P (f a) (g b)) : Tracks R P (m >>= f) (n >>= g) :=
  fun s t hst => (h s t hst).bind fun p q hpq => hfg p.1 q.1 hpq.1 p.2 q.2 hpq.2

end Tracks

end State

end PyGridGain
