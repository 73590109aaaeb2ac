import Mathlib.Data.List.Basic

/-! Transition systems given by a step function: what a list of steps leads to, and
the induction over it, for all runs and for those whose steps meet a condition. -/

namespace PyGridGain

variable {σ α : Type}

/-- The state after the steps `as`; `none` where a step is not enabled. -/
def run (step : σ → α → Option σ) : σ → List α → Option σ
  | s, [] => some s
  | s, a :: as => (step s a).bind fun t => run step t as

/-- Every step of the run meets the condition `ok` in the state in which it is taken. -/
def Along (step : σ → α → Option σ) (ok : σ → α → Prop) : σ → List α → Prop
  | _, [] => True
  | s, a :: as => ok s a ∧ ∀ t ∈ step s a, Along step ok t as

/-- `P` holds of every state of the run. -/
def Throughout (step : σ → α → Option σ) (P : σ → Prop) : σ → List α → Prop
  | s, [] => P s
  | s, a :: as => P s ∧ ∀ t ∈ step s a, Throughout step P t as

variable {step : σ → α → Option σ} {ok : σ → α → Prop} {s t u : σ} {as : List α}

instance Along.decidable [∀ s a, Decidable (ok s a)] :
    ∀ (as : List α) (s : σ), Decidable (Along step ok s as)
  | [], _ => inferInstanceAs (Decidable True)
  | a :: as, s =>
    have : ∀ t, Decidable (Along step ok t as) := Along.decidable as
    inferInstanceAs (Decidable (ok s a ∧ ∀ t ∈ step s a, Along step ok t as))

theorem run_cons {a : α} (h : run step s (a :: as) = some u) :
    ∃ t, step s a = some t ∧ run step t as = some u := Option.bind_eq_some_iff.mp h

theorem run_append {as bs : List α} (h : run step s (as ++ bs) = some u) :
    ∃ t, run step s as = some t ∧ run step t bs = some u := by
  induction as generalizing s with
  | nil => exact ⟨s, rfl, h⟩
  | cons a as ih =>
    obtain ⟨t, hst, ht⟩ := run_cons h
    obtain ⟨t', ht', hu⟩ := ih ht
    exact ⟨t', Option.bind_eq_some_iff.mpr ⟨t, hst, ht'⟩, hu⟩

theorem run_trans {bs : List α} (h : run step s as = some t) : run step s (as ++ bs) = run step t bs := by
  induction as generalizing s with
  | nil => rw [← Option.some.inj h, List.nil_append]
  | cons a as ih =>
    obtain ⟨u, hu, hrun⟩ := run_cons h
    rw [List.cons_append, run, hu]
    exact ih hrun

/-- What every step preserves holds in every state that a run reaches. -/
theorem run_invariant {Inv : σ → Prop} (hstep : ∀ s a t, Inv s → step s a = some t → Inv t)
    (h0 : Inv s) (h : run step s as = some t) : Inv t := by
  induction as generalizing s with
  | nil => exact Option.some.inj h ▸ h0
  | cons a as ih =>
    obtain ⟨u, hsu, hu⟩ := run_cons h
    exact ih (hstep s a u h0 hsu) hu

/-- What every step that meets `ok` preserves holds in every state that a run of such
steps reaches. -/
theorem along_invariant {Inv : σ → Prop}
    (hstep : ∀ s a t, Inv s → ok s a → step s a = some t → Inv t) (h0 : Inv s)
    (hok : Along step ok s as) (h : run step s as = some t) : Inv t := by
  induction as generalizing s with
  | nil => exact Option.some.inj h ▸ h0
  | cons a as ih =>
    obtain ⟨u, hsu, hu⟩ := run_cons h
    exact ih (hstep s a u h0 hok.1 hsu) (hok.2 u hsu) hu

/-- Where a step preserves `P` just if it meets `ok`, so does a run. -/
theorem throughout_iff_along {P : σ → Prop}
    (hstep : ∀ s a t, P s → step s a = some t → (P t ↔ ok s a)) (h0 : P s)
    (h : run step s as = some t) : Throughout step P s as ↔ Along step ok s as := by
  induction as generalizing s with
  | nil => exact iff_of_true h0 trivial
  | cons a as ih =>
    obtain ⟨u, hsu, hu⟩ := run_cons h
    have hmem : ∀ v ∈ step s a, v = u := fun v hv => Option.some.inj (hv.symm.trans hsu)
    constructor
    · rintro ⟨-, hrest⟩
      have hPu : P u := by
        cases as with
        | nil => exact hrest u hsu
        | cons b bs => exact (hrest u hsu).1
      refine ⟨(hstep s a u h0 hsu).mp hPu, fun v hv => ?_⟩
      obtain rfl := hmem v hv
      exact (ih hPu hu).mp (hrest v hv)
    · rintro ⟨hok, hrest⟩
      have hPu : P u := (hstep s a u h0 hsu).mpr hok
      refine ⟨h0, fun v hv => ?_⟩
      obtain rfl := hmem v hv
      exact (ih hPu hu).mpr (hrest v hv)

/-- A condition on every step is one on the state before each step. -/
theorem along_iff_split : Along step ok s as ↔
    ∀ pre a post t, as = pre ++ a :: post → run step s pre = some t → ok t a := by
  induction as generalizing s with
  | nil => exact iff_of_true trivial fun pre a post t hsplit => absurd hsplit (by simp)
  | cons b as ih =>
    constructor
    · rintro ⟨hok, hrest⟩ pre a post t hsplit hrun
      cases pre with
      | nil =>
        obtain rfl := Option.some.inj hrun
        rwa [← (List.cons.inj hsplit).1]
      | cons c pre =>
        obtain ⟨rfl, hsplit'⟩ := List.cons.inj hsplit
        obtain ⟨u, hu, hrun⟩ := run_cons hrun
        exact ih.mp (hrest u hu) pre a post t hsplit' hrun
    · intro h
      refine ⟨h [] b as s rfl rfl, fun t ht => ih.mpr fun pre a post u hsplit hrun => ?_⟩
      refine h (b :: pre) a post u (by rw [hsplit, List.cons_append]) ?_
      exact Option.bind_eq_some_iff.mpr ⟨t, ht, hrun⟩

theorem Along.left {bs : List α} (h : Along step ok s (as ++ bs)) : Along step ok s as := by
  rw [along_iff_split] at h ⊢
  intro pre a post t hsplit hrun
  exact h pre a (post ++ bs) t (by rw [hsplit, List.append_assoc, List.cons_append]) hrun

/-- A simulation by steps of the same name, along a run of steps that meet `ok`. -/
theorem along_simulation {τ : Type} {step' : τ → α → Option τ} {R : σ → τ → Prop}
    (hstep : ∀ s a t u, R s u → ok s a → step s a = some t → ∃ v, step' u a = some v ∧ R t v)
    {u : τ} (h0 : R s u) (hok : Along step ok s as) (h : run step s as = some t) :
    ∃ v, run step' u as = some v ∧ R t v := by
  induction as generalizing s u with
  | nil => exact ⟨u, rfl, Option.some.inj h ▸ h0⟩
  | cons a as ih =>
    obtain ⟨s', hss', hs'⟩ := run_cons h
    obtain ⟨u', huu', hu'⟩ := hstep s a s' u h0 hok.1 hss'
    obtain ⟨v, huv, hv⟩ := ih hu' (hok.2 s' hss') hs'
    exact ⟨v, Option.bind_eq_some_iff.mpr ⟨u', huu', huv⟩, hv⟩

end PyGridGain
