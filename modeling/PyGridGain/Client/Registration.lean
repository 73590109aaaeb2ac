import Mathlib.Data.List.Induction
import PyGridGain.Client.Affinity

/-! Registrations of caches, refreshes and key operations in any order. A refresh asks for a cache
only if it has to, unless the mapping of a cache has been thrown away by registering it again. -/

namespace PyGridGain

/-- What happens to the mappings of a partition-aware client. A cache object registers its cache,
be it made by `get_cache`, `create_cache` or `with_expire_policy`; key operations refresh mappings
and look them up. The server may answer with the mappings of other caches than those asked for. -/
inductive MappingStep
  | register (cacheId : ℤ)
  | topology (version : AffinityVersion)
  | ask
  | answer (version : AffinityVersion) (mappings : List (ℤ × CacheMapping))
  | fail
  | lookup (cacheId : ℤ)

namespace Affinity

def mappingStep (s : Affinity) : MappingStep → Option Affinity
  | .register cacheId => some (s.registerCache true cacheId)
  | .topology version => some (s.postProcessResponse version)
  | .ask =>
    if s.asked = none ∧ s.cachesToUpdateAffinity ≠ [] then
      some { s with asked := some s.cachesToUpdateAffinity }
    else none
  | .answer version mappings =>
    if s.asked = none then none
    else some (updateAffinity version (mappings.map fun p => (p.1, some ⟨p.2, version⟩))
      { s with asked := none })
  | .fail => if s.asked = none then none else some { s with asked := none }
  | .lookup cacheId => some (s.cachePartitionMapping cacheId)

/-- An answer with the mappings of exactly the caches asked for is one of these. -/
theorem mappingStep_answer {s : Affinity} {caches : List ℤ} (h : s.asked = some caches)
    (version : AffinityVersion) (mappings : ℤ → CacheMapping) :
    s.mappingStep (.answer version (caches.map fun c => (c, mappings c))) =
      s.step (.answer version mappings) := by
  simp [mappingStep, Affinity.step, h, Function.comp_def]

end Affinity

/-- The server has sent a mapping of the cache. -/
def MappingReceived (c : ℤ) (as : List MappingStep) : Prop :=
  ∃ version mappings, .answer version mappings ∈ as ∧ c ∈ mappings.map (·.1)

/-- A registered cache is registered for nothing, and a mapping is asked for only if none has been
received or the topology has advanced. -/
structure CostsNothing (as : List MappingStep) : Prop where
  unchanged : ∀ pre c post s, as = pre ++ .register c :: post →
    run Affinity.mappingStep Affinity.init pre = some s → c ∈ s.partitionMapping.map (·.1) →
    s.registerCache true c = s
  asks : ∀ pre post s, as = pre ++ .ask :: post →
    run Affinity.mappingStep Affinity.init pre = some s → ∀ c ∈ s.cachesToUpdateAffinity,
    ¬MappingReceived c pre ∨ s.version < s.affinityVersion

/-- No cache is registered that has a mapping. -/
def Affinity.HasNoMapping (s : Affinity) : MappingStep → Prop
  | .register cacheId => (s.partitionMapping.lookup cacheId).getD none = none
  | _ => True

instance (s : Affinity) : ∀ a, Decidable (s.HasNoMapping a)
  | .register cacheId =>
    inferInstanceAs (Decidable ((s.partitionMapping.lookup cacheId).getD none = none))
  | .topology _ => inferInstanceAs (Decidable True)
  | .ask => inferInstanceAs (Decidable True)
  | .answer _ _ => inferInstanceAs (Decidable True)
  | .fail => inferInstanceAs (Decidable True)
  | .lookup _ => inferInstanceAs (Decidable True)

namespace Affinity
variable {s t : Affinity} {a : MappingStep} {as : List MappingStep} {c : ℤ}

/-- The cache has a mapping that is not empty. -/
def Mapped (s : Affinity) (c : ℤ) : Prop := ∃ m, s.partitionMapping.lookup c = some (some m)

theorem not_mapped_iff : ¬s.Mapped c ↔ (s.partitionMapping.lookup c).getD none = none := by
  unfold Mapped
  cases s.partitionMapping.lookup c with
  | none => simp
  | some m => cases m <;> simp

/-! ### One step -/

/-- The mappings are those of a dict. -/
theorem mappingStep_nodup (h : (s.partitionMapping.map (·.1)).Nodup)
    (hstep : s.mappingStep a = some t) :
    (t.partitionMapping.map (·.1)).Nodup := by
  cases a with
  | register cacheId =>
    obtain rfl := Option.some.inj hstep
    exact nodup_dictSet h
  | topology version =>
    obtain rfl := Option.some.inj hstep
    unfold postProcessResponse
    split_ifs
    exacts [h, h]
  | ask =>
    simp only [mappingStep] at hstep
    split_ifs at hstep
    obtain rfl := Option.some.inj hstep
    exact h
  | answer version mappings =>
    simp only [mappingStep] at hstep
    split_ifs at hstep
    obtain rfl := Option.some.inj hstep
    exact nodup_dictUpdate h
  | fail =>
    simp only [mappingStep] at hstep
    split_ifs at hstep
    obtain rfl := Option.some.inj hstep
    exact h
  | lookup cacheId =>
    obtain rfl := Option.some.inj hstep
    unfold cachePartitionMapping
    split
    exacts [h, nodup_dictSet h]

/-- An empty mapping for one cache leaves those of the others. -/
theorem mapped_dictSet {cacheId : ℤ} (h : s.Mapped c) (hne : c ≠ cacheId) :
    Mapped { s with partitionMapping := dictSet s.partitionMapping cacheId none } c := by
  obtain ⟨m, hm⟩ := h
  refine ⟨m, ?_⟩
  dsimp only
  rw [lookup_dictSet, if_neg hne, hm]

/-- An answer brings mappings for the caches it names, and leaves those of the others. -/
theorem mapped_updateAffinity {version : AffinityVersion} {mappings : List (ℤ × CacheMapping)}
    (h : s.Mapped c ∨ c ∈ mappings.map (·.1)) :
    Mapped (updateAffinity version (mappings.map fun p => (p.1, some ⟨p.2, version⟩)) s) c := by
  unfold Mapped updateAffinity
  dsimp only
  by_cases hmem : c ∈ mappings.map (·.1)
  · obtain ⟨m, hm⟩ := exists_lookup_dictUpdate (d := s.partitionMapping)
      (e := mappings.map fun p => (p.1, some (⟨p.2, version⟩ : ReceivedMapping)))
      (by simpa [Function.comp_def] using hmem)
    obtain ⟨p, -, heq⟩ := List.mem_map.mp hm.1
    exact ⟨⟨p.2, version⟩, hm.2.trans (by rw [← (Prod.mk.inj heq).2])⟩
  · obtain ⟨m, hm⟩ := h.resolve_right hmem
    refine ⟨m, ?_⟩
    rw [lookup_dictUpdate_of_notMem (by simpa [Function.comp_def] using hmem), hm]

/-- A mapping stays as long as its cache is not registered again. -/
theorem Mapped.mappingStep (h : s.Mapped c) (hok : s.HasNoMapping a)
    (hstep : s.mappingStep a = some t) : t.Mapped c := by
  cases a with
  | register cacheId =>
    obtain rfl := Option.some.inj hstep
    refine mapped_dictSet h ?_
    rintro rfl
    exact not_mapped_iff.mpr hok h
  | topology version =>
    obtain rfl := Option.some.inj hstep
    unfold postProcessResponse
    split_ifs
    exacts [h, h]
  | ask =>
    simp only [Affinity.mappingStep] at hstep
    split_ifs at hstep
    obtain rfl := Option.some.inj hstep
    exact h
  | answer version mappings =>
    simp only [Affinity.mappingStep] at hstep
    split_ifs at hstep
    obtain rfl := Option.some.inj hstep
    exact mapped_updateAffinity (.inl h)
  | fail =>
    simp only [Affinity.mappingStep] at hstep
    split_ifs at hstep
    obtain rfl := Option.some.inj hstep
    exact h
  | lookup cacheId =>
    obtain rfl := Option.some.inj hstep
    unfold cachePartitionMapping
    split
    · exact h
    · rename_i hnone
      refine mapped_dictSet h ?_
      rintro rfl
      obtain ⟨m, hm⟩ := h
      rw [hnone] at hm
      cases hm

/-- Registering a cache again changes nothing exactly if it has no mapping. -/
theorem registerCache_eq_self_iff (hc : c ∈ s.partitionMapping.map (·.1)) :
    s.registerCache true c = s ↔ ¬s.Mapped c := by
  constructor
  · rintro heq ⟨m, hm⟩
    have hmap := congrArg (fun s : Affinity => s.partitionMapping.lookup c) heq
    dsimp only [registerCache] at hmap
    rw [if_pos rfl] at hmap
    dsimp only at hmap
    rw [lookup_dictSet, if_pos rfl, hm] at hmap
    cases hmap
  · intro h
    have hlookup : s.partitionMapping.lookup c = some none := by
      obtain ⟨m, hm⟩ := exists_lookup hc
      rw [not_mapped_iff, hm] at h
      rw [hm]
      exact congrArg some h
    rw [registerCache, if_pos rfl, dictSet_of_lookup hlookup]

/-! ### Any run -/

theorem run_nodup (hrun : run mappingStep init as = some s) :
    (s.partitionMapping.map (·.1)).Nodup :=
  @run_invariant Affinity _ mappingStep init _ _ (fun s => (s.partitionMapping.map Prod.fst).Nodup)
    (fun _ _ _ h hstep => mappingStep_nodup h hstep) List.nodup_nil hrun

/-- What has been received is kept. -/
theorem mapped_of_received (hok : Along mappingStep HasNoMapping init as)
    (hrun : run mappingStep init as = some s) (h : MappingReceived c as) : s.Mapped c := by
  induction as using List.reverseRecOn generalizing s with
  | nil =>
    obtain ⟨version, mappings, hmem, -⟩ := h
    cases hmem
  | append_singleton as a ih =>
    obtain ⟨u, hu, hlast⟩ := run_append hrun
    obtain ⟨t, hstep, hnil⟩ := run_cons hlast
    obtain rfl := Option.some.inj hnil
    have hoka := along_iff_split.mp hok as a [] u rfl hu
    obtain ⟨version, mappings, hmem, hc⟩ := h
    rcases List.mem_append.mp hmem with hmem | hmem
    · exact (ih hok.left hu ⟨version, mappings, hmem, hc⟩).mappingStep hoka hstep
    · obtain rfl := List.mem_singleton.mp hmem
      simp only [mappingStep] at hstep
      split_ifs at hstep
      obtain rfl := Option.some.inj hstep
      exact mapped_updateAffinity (.inr hc)

/-- While the topology has not advanced, caches that have a mapping are not asked for. -/
theorem not_mapped_of_asked (hnd : (s.partitionMapping.map (·.1)).Nodup)
    (hversion : ¬s.version < s.affinityVersion) (hc : c ∈ s.cachesToUpdateAffinity) :
    ¬s.Mapped c := by
  rw [cachesToUpdateAffinity, if_neg hversion, List.mem_map] at hc
  obtain ⟨p, hp, rfl⟩ := hc
  obtain ⟨hmem, hnone⟩ := List.mem_filter.mp hp
  rw [not_mapped_iff, lookup_of_mem hnd hmem]
  exact Option.isNone_iff_eq_none.mp hnone

end Affinity

open Affinity in
/-- In a run registering a cache again costs nothing exactly where no cache is registered while it
has a mapping. -/
theorem costs_nothing_iff (as : List MappingStep) :
    CostsNothing as ↔ Along mappingStep HasNoMapping init as := by
  constructor
  · intro h
    refine along_iff_split.mpr fun pre a post s hsplit hrun => ?_
    cases a with
    | register c =>
      refine not_mapped_iff.mp fun hmapped => ?_
      have hc : c ∈ s.partitionMapping.map (·.1) := by
        obtain ⟨m, hm⟩ := hmapped
        exact List.mem_map.mpr ⟨_, mem_of_lookup hm, rfl⟩
      exact (registerCache_eq_self_iff hc).mp (h.unchanged pre c post s hsplit hrun hc) hmapped
    | _ => trivial
  · intro hok
    refine ⟨fun pre c post s hsplit hrun hc => ?_, fun pre post s hsplit hrun c hc => ?_⟩
    · refine (registerCache_eq_self_iff hc).mpr ?_
      exact not_mapped_iff.mpr (along_iff_split.mp hok pre _ post s hsplit hrun)
    · by_cases hversion : s.version < s.affinityVersion
      · exact .inr hversion
      · refine .inl fun hreceived => ?_
        have hpre : Along mappingStep HasNoMapping init pre := (hsplit ▸ hok).left
        exact not_mapped_of_asked (run_nodup hrun) hversion hc
          (mapped_of_received hpre hrun hreceived)

/-- A cache with a mapping gets another cache object, and its mapping is asked for again. -/
theorem registered_again_asked_again :
    let m : CacheMapping := ⟨true, [], some [(7, [0, 1])], 2⟩
    ¬CostsNothing [.register 1, .ask, .answer (toLex (1, 0)) [(1, m)], .register 1, .ask] := by
  intro m h
  have hasks := h.asks [.register 1, .ask, .answer (toLex (1, 0)) [(1, m)], .register 1] [] _ rfl
    rfl 1 (by decide)
  rcases hasks with hnot | hlt
  · exact hnot ⟨toLex (1, 0), [(1, m)], by simp, by simp⟩
  · exact absurd hlt (by decide)

end PyGridGain
