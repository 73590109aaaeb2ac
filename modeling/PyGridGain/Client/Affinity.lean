import Mathlib.Data.Prod.Lex
import PyGridGain.Lib.CTypes
import PyGridGain.Lib.Dict
import PyGridGain.Lib.Runs

/-! The partition mappings of a client. One version stands for all of them, but a refresh
may ask for those caches only that have none: if the topology has advanced by then, the
mappings of the others are older than the version that the client believes to have. -/

namespace PyGridGain

/-- The topology version: major and minor, in lexicographic order. -/
abbrev AffinityVersion := ℤ ×ₗ ℤ

abbrev NodeUuid := ℕ

/-- What the server says of a cache. A cache to which affinity does not apply has neither
`cache_config` nor `node_mapping`. -/
structure CacheMapping where
  isApplicable : Bool
  cacheConfig : List (ℤ × ℤ)
  nodeMapping : Option (List (NodeUuid × List ℤ))
  numberOfPartitions : ℕ
  deriving DecidableEq

/-- A mapping, with the version at which it was received. -/
structure ReceivedMapping where
  mapping : CacheMapping
  version : AffinityVersion
  deriving DecidableEq

/-- `_affinity` and `affinity_version`. An empty mapping is `none`; the caches that a
request under way asks for are `asked`. -/
structure Affinity where
  version : AffinityVersion
  partitionMapping : List (ℤ × Option ReceivedMapping)
  affinityVersion : AffinityVersion
  asked : Option (List ℤ)

namespace Affinity

def init : Affinity := ⟨toLex (0, 0), [], toLex (0, 0), none⟩

/-- `register_cache`. The test `cache_id not in self._affinity` looks for the id among
`'version'` and `'partition_mapping'`, so that it is always true. -/
def registerCache (partitionAware : Bool) (cacheId : ℤ) (s : Affinity) : Affinity :=
  if partitionAware then
    { s with partitionMapping := dictSet s.partitionMapping cacheId none }
  else s

/-- `_cache_partition_mapping`: the dict of mappings makes an empty one for a new key. -/
def cachePartitionMapping (cacheId : ℤ) (s : Affinity) : Affinity :=
  match s.partitionMapping.lookup cacheId with
  | some _ => s
  | none => { s with partitionMapping := dictSet s.partitionMapping cacheId none }

/-- `_caches_to_update_affinity`. -/
def cachesToUpdateAffinity (s : Affinity) : List ℤ :=
  if s.version < s.affinityVersion then s.partitionMapping.map (·.1)
  else (s.partitionMapping.filter fun p => p.2.isNone).map (·.1)

/-- `_update_affinity`. -/
def updateAffinity (version : AffinityVersion) (fullMapping : List (ℤ × Option ReceivedMapping))
    (s : Affinity) : Affinity :=
  { s with version := version, partitionMapping := dictUpdate s.partitionMapping fullMapping }

/-- The `affinity_version` part of `__post_process_response`. -/
def postProcessResponse (newAffinity : AffinityVersion) (s : Affinity) : Affinity :=
  if newAffinity > s.affinityVersion then { s with affinityVersion := newAffinity } else s

end Affinity

/-- What happens to the mappings of a client. A refresh in `get_best_node` asks for caches,
and is answered or fails later; an asynchronous client does other things meanwhile, but
makes no second refresh. -/
inductive AffinityStep
  | registerCache (partitionAware : Bool) (cacheId : ℤ)
  | lookup (cacheId : ℤ)
  | response (newAffinity : AffinityVersion)
  | ask
  | answer (version : AffinityVersion) (mappings : ℤ → CacheMapping)
  | fail

/-- The server answers with the mappings of exactly the caches asked for. -/
def Affinity.step (s : Affinity) : AffinityStep → Option Affinity
  | .registerCache partitionAware cacheId => some (s.registerCache partitionAware cacheId)
  | .lookup cacheId => some (s.cachePartitionMapping cacheId)
  | .response newAffinity => some (s.postProcessResponse newAffinity)
  | .ask =>
    if s.asked = none ∧ s.cachesToUpdateAffinity ≠ [] then
      some { s with asked := some s.cachesToUpdateAffinity }
    else none
  | .answer version mappings =>
    match s.asked with
    | some caches =>
      some (updateAffinity version (caches.map fun c => (c, some ⟨mappings c, version⟩))
        { s with asked := none })
    | none => none
  | .fail => if s.asked = none then none else some { s with asked := none }

/-- The answer is not newer than the version of the client, or no cache has a mapping
that was not asked for. -/
def Affinity.CoversMappings (s : Affinity) : AffinityStep → Prop
  | .answer version _ => version ≤ s.version ∨
      ∀ caches ∈ s.asked, ∀ p ∈ s.partitionMapping, p.2.isSome → p.1 ∈ caches
  | _ => True

instance (s : Affinity) : ∀ a, Decidable (s.CoversMappings a)
  | .answer version _ => inferInstanceAs (Decidable (version ≤ s.version ∨
      ∀ caches ∈ s.asked, ∀ p ∈ s.partitionMapping, p.2.isSome → p.1 ∈ caches))
  | .registerCache _ _ => inferInstanceAs (Decidable True)
  | .lookup _ => inferInstanceAs (Decidable True)
  | .response _ => inferInstanceAs (Decidable True)
  | .ask => inferInstanceAs (Decidable True)
  | .fail => inferInstanceAs (Decidable True)

/-- Every mapping was received at the version of the client, or later. -/
def Affinity.NoneStale (s : Affinity) : Prop :=
  ∀ c m, s.partitionMapping.lookup c = some (some m) → s.version ≤ m.version

namespace Affinity

/-- An empty mapping in the place of another is not stale. -/
theorem NoneStale.clear {s : Affinity} (h : s.NoneStale) (cacheId : ℤ) :
    NoneStale { s with partitionMapping := dictSet s.partitionMapping cacheId none } := by
  intro c m hc
  dsimp only at hc
  rw [lookup_dictSet] at hc
  split_ifs at hc with heq
  · cases hc
  · exact h c m hc

theorem NoneStale.answer {s : Affinity} (h : s.NoneStale) {version : AffinityVersion}
    {mappings : ℤ → CacheMapping} {caches : List ℤ} (hasked : s.asked = some caches)
    (hok : s.CoversMappings (.answer version mappings)) :
    NoneStale (updateAffinity version (caches.map fun c => (c, some ⟨mappings c, version⟩))
      { s with asked := none }) := by
  intro c m hc
  unfold updateAffinity at hc ⊢
  dsimp only at hc ⊢
  rw [lookup_dictUpdate_map] at hc
  split_ifs at hc with hmem
  · obtain rfl := Option.some.inj (Option.some.inj hc)
    exact le_rfl
  · rcases hok with hle | hall
    · exact hle.trans (h c m hc)
    · exact absurd (hall caches hasked _ (mem_of_lookup hc) rfl) hmem

theorem NoneStale.step {s t : Affinity} {a : AffinityStep} (h : s.NoneStale)
    (hok : s.CoversMappings a) (hstep : s.step a = some t) : t.NoneStale := by
  cases a with
  | registerCache partitionAware cacheId =>
    obtain rfl := Option.some.inj hstep
    unfold registerCache
    split_ifs
    exacts [h.clear cacheId, h]
  | lookup cacheId =>
    obtain rfl := Option.some.inj hstep
    unfold cachePartitionMapping
    split
    exacts [h, h.clear cacheId]
  | response newAffinity =>
    obtain rfl := Option.some.inj hstep
    unfold postProcessResponse
    split_ifs
    exacts [h, h]
  | ask =>
    simp only [Affinity.step] at hstep
    split_ifs at hstep
    obtain rfl := Option.some.inj hstep
    exact h
  | answer version mappings =>
    simp only [Affinity.step] at hstep
    split at hstep
    · rename_i caches hasked
      obtain rfl := Option.some.inj hstep
      exact h.answer hasked hok
    · cases hstep
  | fail =>
    simp only [Affinity.step] at hstep
    split_ifs at hstep
    obtain rfl := Option.some.inj hstep
    exact h

end Affinity

/-- In a run in which no answer is newer than the version of the client while a cache has
a mapping that was not asked for, no mapping is older than the version of the client, nor,
once this has reached `affinity_version`, than that. -/
theorem no_stale_mapping {as : List AffinityStep} {s : Affinity}
    (hok : Along Affinity.step Affinity.CoversMappings Affinity.init as)
    (hrun : run Affinity.step Affinity.init as = some s) (c : ℤ) (m : ReceivedMapping)
    (hc : s.partitionMapping.lookup c = some (some m)) :
    s.version ≤ m.version ∧ (s.affinityVersion ≤ s.version → s.affinityVersion ≤ m.version) := by
  have h0 : Affinity.init.NoneStale := by
    intro c m hc
    simp [Affinity.init] at hc
  have h := along_invariant (fun _ _ _ hs ho ht => hs.step ho ht) h0 hok hrun
  exact ⟨h c m hc, fun hle => hle.trans (h c m hc)⟩

/-- Two caches, both asked for when the topology advances. -/
theorem no_stale_mapping_full :
    let m : CacheMapping := ⟨true, [], some [(7, [0, 1])], 2⟩
    let as : List AffinityStep := [.registerCache true 1, .registerCache true 2, .ask,
      .answer (toLex (1, 0)) fun _ => m, .response (toLex (2, 0)), .ask,
      .answer (toLex (2, 0)) fun _ => m]
    ∃ s, run Affinity.step Affinity.init as = some s ∧
      s.partitionMapping.lookup 1 = some (some ⟨m, toLex (2, 0)⟩) ∧
      s.version ≤ toLex (2, 0) ∧ (s.affinityVersion ≤ s.version → s.affinityVersion ≤ toLex (2, 0)) := by
  intro m as
  obtain ⟨s, hs⟩ := Option.isSome_iff_exists.mp (by decide :
    (run Affinity.step Affinity.init as).isSome)
  have hc : s.partitionMapping.lookup 1 = some (some ⟨m, toLex (2, 0)⟩) := by
    obtain rfl := Option.some.inj hs
    decide
  exact ⟨s, hs, hc, no_stale_mapping (by decide) hs 1 _ hc⟩

/-- A second cache is registered after the topology has advanced, and the mapping that
comes for it makes the old one of the first cache pass for current. -/
theorem partial_refresh_leaves_stale_mapping :
    let m : CacheMapping := ⟨true, [], some [(7, [0, 1])], 2⟩
    ∃ s, run Affinity.step Affinity.init [.registerCache true 1, .ask,
        .answer (toLex (1, 0)) fun _ => m, .registerCache true 2, .ask,
        .answer (toLex (2, 0)) fun _ => m] = some s ∧
      s.version = toLex (2, 0) ∧
      s.partitionMapping.lookup 1 = some (some ⟨m, toLex (1, 0)⟩) ∧ ¬s.version ≤ toLex (1, 0) :=
  ⟨_, rfl, by decide, by decide, by decide⟩

end PyGridGain
