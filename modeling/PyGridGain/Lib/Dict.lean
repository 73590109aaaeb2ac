import Mathlib.Data.List.Basic

/-! Dictionaries in insertion order, as association lists in which the first entry of a
key counts. -/

namespace PyGridGain

variable {α β : Type} [DecidableEq α]

/-- `d[k] = v`. -/
def dictSet (d : List (α × β)) (k : α) (v : β) : List (α × β) :=
  match d with
  | [] => [(k, v)]
  | p :: d => if p.1 = k then (k, v) :: d else p :: dictSet d k v

/-- `d.update(e)`. -/
def dictUpdate (d e : List (α × β)) : List (α × β) := e.foldl (fun d p => dictSet d p.1 p.2) d

theorem lookup_cons_if [BEq α] [LawfulBEq α] (p : α × β) (d : List (α × β)) (k : α) :
    (p :: d).lookup k = if k = p.1 then some p.2 else d.lookup k := by
  obtain ⟨k', v⟩ := p
  rw [List.lookup_cons]
  by_cases h : k = k'
  · simp [h]
  · have hne : (k == k') = false := by simpa using h
    simp [hne, h]

theorem lookup_dictSet (d : List (α × β)) (k k' : α) (v : β) :
    (dictSet d k v).lookup k' = if k' = k then some v else d.lookup k' := by
  induction d with
  | nil => simp [dictSet, lookup_cons_if]
  | cons p d ih =>
    unfold dictSet
    split_ifs with hp hk hk
    · simp [lookup_cons_if, hk]
    · rw [lookup_cons_if, lookup_cons_if, if_neg hk, if_neg (hp ▸ hk)]
    · rw [lookup_cons_if, ih, if_pos hk, if_neg fun h => hp (h.symm.trans hk)]
    · rw [lookup_cons_if, lookup_cons_if, ih, if_neg hk]

/-- Values for the keys `ks` replace what `d` has for them, and nothing else. -/
theorem lookup_dictUpdate_map (f : α → β) (ks : List α) (d : List (α × β)) (k : α) :
    (dictUpdate d (ks.map fun k => (k, f k))).lookup k =
      if k ∈ ks then some (f k) else d.lookup k := by
  induction ks generalizing d with
  | nil => simp [dictUpdate]
  | cons k' ks ih =>
    have hstep := ih (dictSet d k' (f k'))
    rw [lookup_dictSet] at hstep
    apply hstep.trans
    by_cases hmem : k ∈ ks
    · simp [hmem]
    · by_cases hk : k = k'
      · simp [hk]
      · simp [hmem, hk]

theorem mem_of_lookup {d : List (α × β)} {k : α} {v : β} (h : d.lookup k = some v) :
    (k, v) ∈ d := by
  induction d with
  | nil => simp at h
  | cons p d ih =>
    rw [lookup_cons_if] at h
    split_ifs at h with hk
    · obtain rfl := Option.some.inj h
      rw [hk]
      exact List.mem_cons_self
    · exact List.mem_cons_of_mem p (ih h)

theorem dictSet_of_not_mem {d : List (α × β)} {k : α} (v : β) (h : k ∉ d.map (·.1)) :
    dictSet d k v = d ++ [(k, v)] := by
  induction d with
  | nil => rfl
  | cons p d ih =>
    obtain ⟨hne, hrest⟩ := not_or.mp (List.mem_cons.not.mp h)
    rw [dictSet, if_neg (Ne.symm hne), ih hrest, List.cons_append]

/-- Entries with new and different keys are appended. -/
theorem dictUpdate_of_nodup {d e : List (α × β)} (h : ((d ++ e).map (·.1)).Nodup) :
    dictUpdate d e = d ++ e := by
  induction e generalizing d with
  | nil => simp [dictUpdate]
  | cons p e ih =>
    have hnot : p.1 ∉ d.map (·.1) := by
      intro hmem
      rw [List.map_append, List.map_cons] at h
      exact (List.nodup_append.mp h).2.2 _ hmem _ List.mem_cons_self rfl
    have hset := dictSet_of_not_mem p.2 hnot
    have hrest := ih (d := d ++ [p]) (by simpa using h)
    unfold dictUpdate at hrest ⊢
    rw [List.foldl_cons, hset, hrest, List.append_assoc, List.singleton_append]

theorem mem_keys_dictSet {d : List (α × β)} {k k' : α} {v : β} :
    k' ∈ (dictSet d k v).map (·.1) ↔ k' = k ∨ k' ∈ d.map (·.1) := by
  induction d with
  | nil => simp [dictSet]
  | cons p d ih =>
    unfold dictSet
    split_ifs with hp
    · simp [hp]
    · rw [List.map_cons, List.mem_cons, ih, List.map_cons, List.mem_cons, or_left_comm]

/-- What all entries have, the one that is set too, they all have then. -/
theorem forall_mem_dictSet {P : α × β → Prop} {d : List (α × β)} {k : α} {v : β}
    (hd : ∀ e ∈ d, P e) (hp : P (k, v)) : ∀ e ∈ dictSet d k v, P e := by
  induction d with
  | nil => exact List.forall_mem_singleton.mpr hp
  | cons p d ih =>
    rw [List.forall_mem_cons] at hd
    unfold dictSet
    split_ifs with h
    · exact List.forall_mem_cons.mpr ⟨hp, hd.2⟩
    · exact List.forall_mem_cons.mpr ⟨hd.1, ih hd.2⟩

theorem forall_mem_dictUpdate {P : α × β → Prop} {d e : List (α × β)} (hd : ∀ p ∈ d, P p)
    (he : ∀ p ∈ e, P p) : ∀ p ∈ dictUpdate d e, P p := by
  induction e generalizing d with
  | nil => exact hd
  | cons p e ih =>
    rw [List.forall_mem_cons] at he
    exact ih (forall_mem_dictSet hd he.1) he.2

theorem nodup_dictSet {d : List (α × β)} {k : α} {v : β} (h : (d.map (·.1)).Nodup) :
    ((dictSet d k v).map (·.1)).Nodup := by
  induction d with
  | nil => simp [dictSet]
  | cons p d ih =>
    obtain ⟨hnot, hnd⟩ := List.nodup_cons.mp h
    unfold dictSet
    split_ifs with hp
    · exact List.nodup_cons.mpr ⟨hp ▸ hnot, hnd⟩
    · refine List.nodup_cons.mpr ⟨fun hmem => ?_, ih hnd⟩
      rcases mem_keys_dictSet.mp hmem with heq | hmem
      · exact hp heq
      · exact hnot hmem

theorem nodup_dictUpdate {d e : List (α × β)} (h : (d.map (·.1)).Nodup) :
    ((dictUpdate d e).map (·.1)).Nodup := by
  induction e generalizing d with
  | nil => exact h
  | cons p e ih => exact ih (nodup_dictSet h)

/-- The entries are those of a dictionary. -/
theorem dictUpdate_nil_iff {e : List (α × β)} : dictUpdate [] e = e ↔ (e.map (·.1)).Nodup := by
  constructor
  · intro h
    rw [← h]
    exact nodup_dictUpdate List.nodup_nil
  · intro h
    rw [dictUpdate_of_nodup (by simpa using h), List.nil_append]

/-- A key is there if and only if it has a value. -/
theorem isSome_lookup_dictSet (d : List (α × β)) (k k' : α) (v : β) :
    ((dictSet d k v).lookup k').isSome ↔ (d.lookup k').isSome ∨ k' = k := by
  rw [lookup_dictSet]
  split_ifs with h <;> simp [h]

theorem lookup_dictUpdate_of_notMem {d e : List (α × β)} {k : α} (h : k ∉ e.map (·.1)) :
    (dictUpdate d e).lookup k = d.lookup k := by
  induction e generalizing d with
  | nil => rfl
  | cons p e ih =>
    obtain ⟨hne, hrest⟩ := not_or.mp (List.mem_cons.not.mp h)
    have hstep := ih (d := dictSet d p.1 p.2) hrest
    rw [lookup_dictSet, if_neg hne] at hstep
    exact hstep

/-- The last entry of a key counts. -/
theorem lookup_dictUpdate_last {d before after : List (α × β)} {k : α} {v : β}
    (h : k ∉ after.map (·.1)) : (dictUpdate d (before ++ (k, v) :: after)).lookup k = some v := by
  have hsplit : dictUpdate d (before ++ (k, v) :: after) =
      dictUpdate (dictSet (dictUpdate d before) k v) after := by
    rw [dictUpdate, List.foldl_append]
    rfl
  rw [hsplit, lookup_dictUpdate_of_notMem h, lookup_dictSet, if_pos rfl]

/-- An entry that is there already. -/
theorem dictSet_of_lookup {d : List (α × β)} {k : α} {v : β} (h : d.lookup k = some v) :
    dictSet d k v = d := by
  induction d with
  | nil => cases h
  | cons p d ih =>
    obtain ⟨k', v'⟩ := p
    rw [lookup_cons_if] at h
    unfold dictSet
    by_cases hk : k' = k
    · rw [if_pos hk.symm] at h
      rw [if_pos hk, ← Option.some.inj h, hk]
    · rw [if_neg (Ne.symm hk)] at h
      rw [if_neg hk, ih h]

/-- Every entry of a dictionary is what is found under its key. -/
theorem lookup_of_mem {d : List (α × β)} {k : α} {v : β} (hnd : (d.map (·.1)).Nodup)
    (h : (k, v) ∈ d) : d.lookup k = some v := by
  induction d with
  | nil => cases h
  | cons p d ih =>
    obtain ⟨hnot, hnd⟩ := List.nodup_cons.mp hnd
    rw [lookup_cons_if]
    rcases List.mem_cons.mp h with rfl | h
    · exact if_pos rfl
    · have hne : k ≠ p.1 := fun heq => hnot (List.mem_map.mpr ⟨(k, v), h, heq⟩)
      rw [if_neg hne, ih hnd h]

theorem exists_lookup {d : List (α × β)} {k : α} (h : k ∈ d.map (·.1)) :
    ∃ v, d.lookup k = some v := by
  induction d with
  | nil => cases h
  | cons p d ih =>
    rw [lookup_cons_if]
    by_cases hk : k = p.1
    · exact ⟨p.2, if_pos hk⟩
    · rw [if_neg hk]
      exact ih ((List.mem_cons.mp h).resolve_left hk)

/-- A key of an update gets one of the values that the update has for it. -/
theorem exists_lookup_dictUpdate {d e : List (α × β)} {k : α} (h : k ∈ e.map (·.1)) :
    ∃ v, (k, v) ∈ e ∧ (dictUpdate d e).lookup k = some v := by
  induction e generalizing d with
  | nil => cases h
  | cons p e ih =>
    by_cases hmem : k ∈ e.map (·.1)
    · obtain ⟨v, hv, hlookup⟩ := ih hmem (d := dictSet d p.1 p.2)
      exact ⟨v, List.mem_cons_of_mem _ hv, hlookup⟩
    · obtain rfl : k = p.1 := (List.mem_cons.mp h).resolve_right hmem
      have hlast : (dictUpdate d ([] ++ (p.1, p.2) :: e)).lookup p.1 = some p.2 :=
        lookup_dictUpdate_last hmem
      exact ⟨p.2, List.mem_cons_self, hlast⟩

end PyGridGain
