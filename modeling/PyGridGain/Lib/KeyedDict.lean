import Mathlib.Data.List.Basic
import Mathlib.Data.List.Induction
import Mathlib.Data.List.Nodup

/-! Dictionaries whose keys are equal if they have the same image under `key`: of the objects that
stand for one key the first stays, of its values the last. Objects may also have no image, and are
then equal to no other. -/

namespace PyGridGain

section Keyed
variable {α β κ : Type} [DecidableEq κ] (key : α → κ)

/-- `d[k] = v` where objects with the same key are equal: the first of them stays. -/
def keyedSet (d : List (α × β)) (k : α) (v : β) : List (α × β) :=
  if d.any fun p => key p.1 = key k then d.map fun p => if key p.1 = key k then (p.1, v) else p
  else d ++ [(k, v)]

/-- The entry of a key: the first object that has it, with the last value. -/
def entryAt (e : List (α × β)) (k : κ) : Option (α × β) :=
  (e.find? fun p => key p.1 = k).bind fun p =>
    (e.reverse.find? fun p => key p.1 = k).map fun q => (p.1, q.2)

/-- One entry for every key, in the order in which they came first. -/
def collapse (e : List (α × β)) : List (α × β) :=
  (e.map fun p => key p.1).eraseDups.filterMap (entryAt key e)

variable {key} {e : List (α × β)} {p : α × β} {k : κ}

theorem entryAt_key {q : α × β} (h : entryAt key e k = some q) : key q.1 = k := by
  obtain ⟨p, hp, hq⟩ := Option.bind_eq_some_iff.mp h
  obtain ⟨r, -, rfl⟩ := Option.map_eq_some_iff.mp hq
  simpa using List.find?_some hp

theorem entryAt_mem (h : k ∈ e.map fun p => key p.1) : ∃ q, entryAt key e k = some q := by
  obtain ⟨p, hp, rfl⟩ := List.mem_map.mp h
  have hfirst : (e.find? fun q => key q.1 = key p.1).isSome := by
    rw [List.find?_isSome]
    exact ⟨p, hp, by simp⟩
  have hlast : (e.reverse.find? fun q => key q.1 = key p.1).isSome := by
    rw [List.find?_isSome]
    exact ⟨p, List.mem_reverse.mpr hp, by simp⟩
  obtain ⟨q, hq⟩ := Option.isSome_iff_exists.mp hfirst
  obtain ⟨r, hr⟩ := Option.isSome_iff_exists.mp hlast
  exact ⟨(q.1, r.2), by rw [entryAt, hq, Option.bind_some, hr, Option.map_some]⟩

/-- The object of an entry is one that came. -/
theorem collapse_mem {q : α × β} (h : q ∈ collapse key e) : ∃ p ∈ e, p.1 = q.1 := by
  obtain ⟨k, -, hentry⟩ := List.mem_filterMap.mp h
  obtain ⟨p, hp, hq⟩ := Option.bind_eq_some_iff.mp hentry
  obtain ⟨r, -, rfl⟩ := Option.map_eq_some_iff.mp hq
  exact ⟨p, List.mem_of_find?_eq_some hp, rfl⟩

/-- Another pair leaves the entries of the other keys alone. -/
theorem entryAt_concat_ne (h : key p.1 ≠ k) : entryAt key (e ++ [p]) k = entryAt key e k := by
  simp [entryAt, List.find?_append, h]

theorem entryAt_concat_self {q : α × β} (h : entryAt key e (key p.1) = some q) :
    entryAt key (e ++ [p]) (key p.1) = some (q.1, p.2) := by
  obtain ⟨r, hr, hq⟩ := Option.bind_eq_some_iff.mp h
  obtain ⟨t, -, rfl⟩ := Option.map_eq_some_iff.mp hq
  rw [entryAt, List.find?_append, hr, Option.some_or, Option.bind_some, List.reverse_append,
    List.reverse_singleton, List.singleton_append, List.find?_cons_of_pos (by simp),
    Option.map_some]

theorem entryAt_concat_fresh (h : key p.1 ∉ e.map fun p => key p.1) :
    entryAt key (e ++ [p]) (key p.1) = some p := by
  have hnone : (e.find? fun q => key q.1 = key p.1) = none := by
    rw [List.find?_eq_none]
    intro q hq heq
    exact h (List.mem_map.mpr ⟨q, hq, by simpa using heq⟩)
  rw [entryAt, List.find?_append, hnone, Option.none_or, List.find?_cons_of_pos (by simp),
    Option.bind_some, List.reverse_append, List.reverse_singleton, List.singleton_append,
    List.find?_cons_of_pos (by simp), Option.map_some]

theorem any_collapse : ((collapse key e).any fun q => key q.1 = k) = true ↔
    k ∈ e.map fun p => key p.1 := by
  rw [List.any_eq_true]
  constructor
  · rintro ⟨q, hq, hk⟩
    obtain ⟨k', hk', hentry⟩ := List.mem_filterMap.mp hq
    obtain rfl : k' = k := (entryAt_key hentry).symm.trans (by simpa using hk)
    exact List.mem_eraseDups.mp hk'
  · intro hk
    obtain ⟨q, hq⟩ := entryAt_mem hk
    exact ⟨q, List.mem_filterMap.mpr ⟨k, List.mem_eraseDups.mpr hk, hq⟩,
      by simpa using entryAt_key hq⟩

theorem eraseDups_concat {ks : List κ} :
    (ks ++ [k]).eraseDups = ks.eraseDups ++ if k ∈ ks then [] else [k] := by
  rw [List.eraseDups_append]
  split_ifs with h <;> simp [List.removeAll, h, List.eraseDups_cons]

/-- Setting one more pair. -/
theorem collapse_concat (e : List (α × β)) (p : α × β) :
    collapse key (e ++ [p]) = keyedSet key (collapse key e) p.1 p.2 := by
  rw [collapse, List.map_append, List.map_singleton, eraseDups_concat, List.filterMap_append]
  by_cases h : key p.1 ∈ e.map fun p => key p.1
  · rw [keyedSet, if_pos (any_collapse.mpr h), if_pos h, List.filterMap_nil, List.append_nil,
      collapse, List.map_filterMap]
    refine List.filterMap_congr fun k hk => ?_
    obtain ⟨q, hq⟩ := entryAt_mem (List.mem_eraseDups.mp hk)
    have hkey := entryAt_key hq
    by_cases heq : key p.1 = k
    · subst heq
      rw [entryAt_concat_self hq, hq, Option.map_some, if_pos hkey]
    · rw [entryAt_concat_ne heq, hq, Option.map_some, if_neg fun h' => heq (h'.symm.trans hkey)]
  · have hany : ¬((collapse key e).any fun q => key q.1 = key p.1) = true := fun h' =>
      h (any_collapse.mp h')
    rw [keyedSet, if_neg hany, if_neg h]
    congr 1
    · refine List.filterMap_congr fun k hk => entryAt_concat_ne ?_
      rintro rfl
      exact h (List.mem_eraseDups.mp hk)
    · rw [List.filterMap_cons, entryAt_concat_fresh h, List.filterMap_nil]

theorem length_collapse : (collapse key e).length = (e.map fun p => key p.1).eraseDups.length := by
  rw [collapse, List.length_filterMap_eq_countP, List.countP_eq_length]
  intro k hk
  obtain ⟨q, hq⟩ := entryAt_mem (List.mem_eraseDups.mp hk)
  rw [hq, Option.isSome_some]

theorem length_eraseDups_le (ks : List κ) : ks.eraseDups.length ≤ ks.length := by
  induction ks using List.reverseRecOn with
  | nil => simp
  | append_singleton ks k ih =>
    rw [eraseDups_concat, List.length_append, List.length_append]
    split_ifs <;> simp <;> omega

theorem length_eraseDups_iff {ks : List κ} : ks.eraseDups.length = ks.length ↔ ks.Nodup := by
  induction ks using List.reverseRecOn with
  | nil => simp
  | append_singleton ks k ih =>
    have hle := length_eraseDups_le ks
    rw [eraseDups_concat, List.length_append, List.length_append, List.nodup_append]
    split_ifs with h
    · refine iff_of_false ?_ fun hnd => hnd.2.2 k h k List.mem_cons_self rfl
      simp only [List.length_nil, List.length_singleton]
      omega
    · rw [List.length_singleton, Nat.add_right_cancel_iff, ih]
      refine ⟨fun hnd => ⟨hnd, List.nodup_singleton k, fun a ha b hb heq => ?_⟩, fun hnd => hnd.1⟩
      rw [heq, List.mem_singleton.mp hb] at ha
      exact h ha

/-- No pair is lost exactly if no two of them have the same key. -/
theorem length_collapse_iff :
    (collapse key e).length = e.length ↔ (e.map fun p => key p.1).Nodup := by
  rw [length_collapse, ← length_eraseDups_iff, List.length_map]

end Keyed

section Partial
variable {α β κ : Type} [DecidableEq κ] (key : α → Option κ)

/-- `d[k] = v` where objects without a key are new whatever is there. -/
def partialSet (d : List (α × β)) (k : α) (v : β) : List (α × β) :=
  if d.any fun p => (key p.1).isSome && key p.1 == key k then
    d.map fun p => if (key p.1).isSome && key p.1 == key k then (p.1, v) else p
  else d ++ [(k, v)]

/-- An object without a key is told from the others by its place. -/
def placedKey (a : α × ℕ) : κ ⊕ ℕ := (key a.1).elim (.inr a.2) .inl

/-- The objects with their places. -/
def placed (e : List (α × β)) : List ((α × ℕ) × β) := e.mapIdx fun i p => ((p.1, i), p.2)

/-- One entry for every key and for every object without a key, in the order in which they came
first. -/
def partialCollapse (e : List (α × β)) : List (α × β) :=
  (collapse (placedKey key) (placed e)).map fun p => (p.1.1, p.2)

variable {key} {e : List (α × β)} {p : α × β}

theorem placed_concat (e : List (α × β)) (p : α × β) :
    placed (e ++ [p]) = placed e ++ [((p.1, e.length), p.2)] := by
  rw [placed, List.mapIdx_concat]
  rfl

theorem place_lt {q : (α × ℕ) × β} (h : q ∈ placed e) : q.1.2 < e.length := by
  obtain ⟨i, hi, rfl⟩ := List.mem_mapIdx.mp h
  exact hi

omit [DecidableEq κ] in
theorem placedKey_eq_iff {a : α × ℕ} {b : α} {n : ℕ} (h : a.2 < n) :
    placedKey key a = placedKey key (b, n) ↔ (key a.1).isSome ∧ key a.1 = key b := by
  unfold placedKey
  cases key a.1 <;> cases key b <;> simp [Nat.ne_of_lt h]

/-- Setting one more pair. -/
theorem partialCollapse_concat (e : List (α × β)) (p : α × β) :
    partialCollapse key (e ++ [p]) = partialSet key (partialCollapse key e) p.1 p.2 := by
  have hsame : ∀ q ∈ collapse (placedKey key) (placed e),
      (placedKey key q.1 = placedKey key (p.1, e.length) ↔
        ((key q.1.1).isSome && key q.1.1 == key p.1) = true) := by
    intro q hq
    obtain ⟨r, hr, hfirst⟩ := collapse_mem hq
    rw [placedKey_eq_iff (hfirst ▸ place_lt hr)]
    simp
  have hany : ((collapse (placedKey key) (placed e)).any fun q =>
      decide (placedKey key q.1 = placedKey key (p.1, e.length))) =
      (partialCollapse key e).any fun q => (key q.1).isSome && key q.1 == key p.1 := by
    rw [partialCollapse, List.any_map, Bool.eq_iff_iff, List.any_eq_true, List.any_eq_true]
    refine exists_congr fun q => and_congr_right fun hq => ?_
    rw [decide_eq_true_iff]
    exact hsame q hq
  rw [partialCollapse, placed_concat, collapse_concat, keyedSet, partialSet]
  dsimp only
  rw [hany]
  split_ifs
  · rw [partialCollapse, List.map_map, List.map_map]
    refine List.map_congr_left fun q hq => ?_
    have hq' := hsame q hq
    simp only [Function.comp_apply]
    by_cases h : placedKey key q.1 = placedKey key (p.1, e.length)
    · rw [if_pos h, if_pos (hq'.mp h)]
    · rw [if_neg h, if_neg (hq'.not.mp h)]
  · rw [List.map_append]
    rfl

/-- Setting all pairs. -/
theorem foldl_partialSet (e : List (α × β)) :
    e.foldl (fun d p => partialSet key d p.1 p.2) [] = partialCollapse key e := by
  induction e using List.reverseRecOn with
  | nil => rfl
  | append_singleton e p ih => rw [List.foldl_concat, ih, partialCollapse_concat]

omit [DecidableEq κ] in
theorem inl_mem_placed {k : κ} :
    .inl k ∈ (placed e).map (fun p => placedKey key p.1) ↔ k ∈ e.filterMap fun p => key p.1 := by
  have hkey : ∀ (a : α) i, placedKey key (a, i) = .inl k ↔ key a = some k := by
    intro a i
    unfold placedKey
    cases key a <;> simp
  rw [List.mem_map, List.mem_filterMap]
  constructor
  · rintro ⟨_, hq, hk⟩
    obtain ⟨i, hi, rfl⟩ := List.mem_mapIdx.mp hq
    exact ⟨_, List.getElem_mem hi, (hkey _ i).mp hk⟩
  · rintro ⟨p, hp, hk⟩
    obtain ⟨i, hi, rfl⟩ := List.getElem_of_mem hp
    exact ⟨_, List.mem_mapIdx.mpr ⟨i, hi, rfl⟩, (hkey _ i).mpr hk⟩

omit [DecidableEq κ] in
theorem nodup_placedKey_iff : ((placed e).map fun p => placedKey key p.1).Nodup ↔
    (e.filterMap fun p => key p.1).Nodup := by
  induction e using List.reverseRecOn with
  | nil => simp [placed]
  | append_singleton e p ih =>
    have hconcat : ∀ {γ : Type} (l : List γ) (x : γ), (l ++ [x]).Nodup ↔ x ∉ l ∧ l.Nodup :=
      fun l x => by rw [← List.concat_eq_append, List.nodup_concat]
    rw [placed_concat, List.map_append, List.filterMap_append, List.map_singleton, hconcat]
    dsimp only
    cases hp : key p.1 with
    | none =>
      have hnot : placedKey key (p.1, e.length) ∉ (placed e).map fun p => placedKey key p.1 := by
        intro hmem
        obtain ⟨q, hq, heq⟩ := List.mem_map.mp hmem
        have hsome := (placedKey_eq_iff (place_lt hq)).mp heq
        rw [hsome.2, hp] at hsome
        simp at hsome
      have hlast : [p].filterMap (fun p => key p.1) = [] := by simp [hp]
      rw [hlast, List.append_nil, ih]
      exact and_iff_right hnot
    | some k =>
      have hplaced : placedKey key (p.1, e.length) = .inl k := by rw [placedKey, hp]; rfl
      have hlast : [p].filterMap (fun p => key p.1) = [k] := by simp [hp]
      rw [hlast, hconcat, ih, hplaced, inl_mem_placed]

theorem length_placed (e : List (α × β)) : (placed e).length = e.length := List.length_mapIdx

theorem length_partialCollapse_le : (partialCollapse key e).length ≤ e.length := by
  have hle := length_eraseDups_le ((placed e).map fun p => placedKey key p.1)
  rwa [List.length_map, length_placed, ← length_collapse, ← List.length_map] at hle

/-- No pair is lost exactly if no two of them have the same key. -/
theorem length_partialCollapse_iff :
    (partialCollapse key e).length = e.length ↔ (e.filterMap fun p => key p.1).Nodup := by
  rw [partialCollapse, List.length_map, ← length_placed e, length_collapse_iff,
    nodup_placedKey_iff]

/-- With no two equal keys setting the pairs one after another gives all of them back. -/
theorem partialCollapse_eq_self_iff :
    partialCollapse key e = e ↔ (e.filterMap fun p => key p.1).Nodup := by
  constructor
  · intro h
    rw [← length_partialCollapse_iff, h]
  · induction e using List.reverseRecOn with
    | nil => exact fun _ => rfl
    | append_singleton e p ih =>
      intro hnd
      rw [List.filterMap_append, List.nodup_append] at hnd
      have hnew : (e.any fun q => (key q.1).isSome && key q.1 == key p.1) = false := by
        rw [List.any_eq_false]
        intro q hq hsame
        obtain ⟨hsome, heq⟩ := Bool.and_eq_true_iff.mp hsame
        obtain ⟨k, hk⟩ := Option.isSome_iff_exists.mp hsome
        have hkp : key p.1 = some k := (beq_iff_eq.mp heq).symm.trans hk
        exact hnd.2.2 k (List.mem_filterMap.mpr ⟨q, hq, hk⟩) k (by simp [hkp]) rfl
      rw [partialCollapse_concat, ih hnd.1, partialSet, hnew, if_neg Bool.false_ne_true]

end Partial

end PyGridGain
