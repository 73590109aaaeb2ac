import PyGridGain.Codec.CachedWrites

/-! Caches that are what would be computed now. Written with them or without, a value gives
the same bytes, and what writing it leaves in the caches is again what would be computed. -/

namespace PyGridGain

open StreamM PyValue

/-- The codecs of the classes that are not spelled out write bytes where the stream stands,
which do not depend on it, or raise; and they do not look at the caches of objects. The writers
of the source are such codecs. -/
class PlacedCodecs [OtherCodecs] : Prop where
  placed : ∀ t v, (∃ d, (OtherCodecs.codec t).fromPythonNotNull v = write d) ∨
    ∀ s a u, (OtherCodecs.codec t).fromPythonNotNull v s ≠ .ok (a, u)
  uncached : ∀ t v, (OtherCodecs.codec t).fromPythonNotNull v.uncached =
    (OtherCodecs.codec t).fromPythonNotNull v

instance : @PlacedCodecs noOtherCodecs :=
  @PlacedCodecs.mk noOtherCodecs (fun _ _ => .inr fun _ _ _ h => by cases h) fun _ _ => rfl

section Fresh
variable [Python] [OtherCodecs]

/-- `_from_python` writes `d`, on a stream of its own, of the object with nothing cached. -/
def Represents (cf : Bool) (d : Bytes) (head : ObjHead)
    (fields : List (PyStr × DataType × PyValue)) : Prop :=
  ∃ cl v t, cl.compactFooter = cf ∧ objectFromPython false head.uncached (uncachedFields fields)
    ⟨cl, [], 0, false⟩ = .ok (v, t) ∧ t.buf = d ∧ d.length < 2 ^ 31

/- The representations that the Complex objects in a value have cached are what would be
written now. Hash codes do not count: no writer looks at them. -/
mutual
def Fresh (cf : Bool) : PyValue → Prop
  | .tuple xs => FreshAll cf xs
  | .list xs => FreshAll cf xs
  | .dict kvs => FreshPairs cf kvs
  | .hinted v _ => Fresh cf v
  | .obj head fields =>
    (∀ d ∈ head.buffer, d ≠ [] → Represents cf d head fields) ∧ FreshFields cf fields
  | _ => True
def FreshAll (cf : Bool) : List PyValue → Prop
  | [] => True
  | x :: xs => Fresh cf x ∧ FreshAll cf xs
def FreshPairs (cf : Bool) : List (PyValue × PyValue) → Prop
  | [] => True
  | (k, v) :: kvs => Fresh cf k ∧ Fresh cf v ∧ FreshPairs cf kvs
def FreshFields (cf : Bool) : List (PyStr × DataType × PyValue) → Prop
  | [] => True
  | (_, _, v) :: fields => Fresh cf v ∧ FreshFields cf fields
end

variable {cf : Bool} {v w : PyValue}

theorem freshAll_iff {xs : List PyValue} : FreshAll cf xs ↔ ∀ x ∈ xs, Fresh cf x := by
  induction xs with
  | nil => simp [FreshAll]
  | cons x xs ih => simp [FreshAll, ih]

theorem freshPairs_iff {kvs : List (PyValue × PyValue)} :
    FreshPairs cf kvs ↔ ∀ p ∈ kvs, Fresh cf p.1 ∧ Fresh cf p.2 := by
  induction kvs with
  | nil => simp [FreshPairs]
  | cons p kvs ih =>
    obtain ⟨k, v⟩ := p
    simp [FreshPairs, ih, and_assoc]

theorem freshFields_iff {fields : List (PyStr × DataType × PyValue)} :
    FreshFields cf fields ↔ ∀ f ∈ fields, Fresh cf f.2.2 := by
  induction fields with
  | nil => simp [FreshFields]
  | cons f fields ih =>
    obtain ⟨name, t, v⟩ := f
    simp [FreshFields, ih]

mutual
theorem fresh_uncached : ∀ v : PyValue, Fresh cf v.uncached
  | .tuple xs => by simpa only [PyValue.uncached, Fresh] using freshAll_uncached xs
  | .list xs => by simpa only [PyValue.uncached, Fresh] using freshAll_uncached xs
  | .dict kvs => by simpa only [PyValue.uncached, Fresh] using freshPairs_uncached kvs
  | .hinted v t => by simpa only [PyValue.uncached, Fresh] using fresh_uncached v
  | .obj head fields => by
    simp only [PyValue.uncached, Fresh]
    refine ⟨?_, freshFields_uncached fields⟩
    rintro d ⟨⟩
  | .none | .bool _ | .int _ | .float _ | .decimal .. | .str _ | .bytes _ | .uuid _
  | .datetime _ | .timedelta _ => by simp only [PyValue.uncached, Fresh]
theorem freshAll_uncached : ∀ xs, FreshAll cf (uncachedAll xs)
  | [] => trivial
  | x :: xs => ⟨fresh_uncached x, freshAll_uncached xs⟩
theorem freshPairs_uncached : ∀ kvs, FreshPairs cf (uncachedPairs kvs)
  | [] => trivial
  | (k, v) :: kvs => ⟨fresh_uncached k, fresh_uncached v, freshPairs_uncached kvs⟩
theorem freshFields_uncached : ∀ fields, FreshFields cf (uncachedFields fields)
  | [] => trivial
  | (_, _, v) :: fields => ⟨fresh_uncached v, freshFields_uncached fields⟩
end

theorem Fresh.contents (h : Fresh cf v) : ∀ x ∈ v.contents, Fresh cf x := by
  intro x hx
  cases v with
  | tuple xs => exact freshAll_iff.mp h x hx
  | list xs => exact freshAll_iff.mp h x hx
  | dict kvs =>
    obtain ⟨p, hp, rfl⟩ := List.mem_map.mp hx
    exact (freshPairs_iff.mp h p hp).1
  | str s =>
    obtain ⟨c, -, rfl⟩ := List.mem_map.mp hx
    trivial
  | bytes b =>
    obtain ⟨c, -, rfl⟩ := List.mem_map.mp hx
    trivial
  | _ =>
    obtain rfl := List.mem_singleton.mp hx
    exact h

/-- What a writer returns: the value, up to caches that are what would be computed now. -/
abbrev Keeps (cf : Bool) (v a : PyValue) : Prop := a.Alike v ∧ Fresh cf a

theorem Keeps.refl (h : Fresh cf v) : Keeps cf v v := ⟨Alike.refl v, h⟩

theorem Keeps.hinted {a : PyValue} (h : Keeps cf v a) (t : DataType) :
    Keeps cf (.hinted v t) (.hinted a t) := by
  refine ⟨?_, h.2⟩
  rw [Alike, PyValue.uncached, PyValue.uncached, h.1]

theorem keeps_map {xs as : List PyValue} (h : List.Forall₂ (Keeps cf) xs as) :
    as.map PyValue.uncached = xs.map PyValue.uncached ∧ ∀ a ∈ as, Fresh cf a := by
  induction h with
  | nil => simp
  | cons hx _ ih =>
    refine ⟨by rw [List.map_cons, List.map_cons, hx.1, ih.1], ?_⟩
    intro a ha
    rcases List.mem_cons.mp ha with rfl | ha
    · exact hx.2
    · exact ih.2 a ha

theorem Keeps.refill {as : List PyValue} (hv : Fresh cf v)
    (h : List.Forall₂ (Keeps cf) v.contents as) : Keeps cf v (v.refill as) := by
  obtain ⟨hmap, hfresh⟩ := keeps_map h
  cases v with
  | tuple xs =>
    have hxs : as.map PyValue.uncached = xs.map PyValue.uncached := hmap
    exact ⟨by simp [Alike, PyValue.refill, PyValue.uncached, hxs], freshAll_iff.mpr hfresh⟩
  | list xs =>
    have hxs : as.map PyValue.uncached = xs.map PyValue.uncached := hmap
    exact ⟨by simp [Alike, PyValue.refill, PyValue.uncached, hxs], freshAll_iff.mpr hfresh⟩
  | _ => exact Keeps.refl hv

theorem Keeps.dict {kvs as : List (PyValue × PyValue)}
    (h : List.Forall₂ (fun p q => Keeps cf p.1 q.1 ∧ Keeps cf p.2 q.2) kvs as) :
    Keeps cf (.dict kvs) (.dict as) := by
  refine ⟨?_, freshPairs_iff.mpr ?_⟩
  · have hmap : as.map (fun p => (p.1.uncached, p.2.uncached)) =
        kvs.map fun p => (p.1.uncached, p.2.uncached) := by
      rw [← List.forall₂_eq_eq_eq, List.forall₂_map_left_iff, List.forall₂_map_right_iff]
      exact h.flip.imp fun p q hpq => Prod.ext hpq.1.1 hpq.2.1
    simp [Alike, PyValue.uncached, hmap]
  · induction h with
    | nil => simp
    | cons hpq _ ih => exact List.forall_mem_cons.mpr ⟨⟨hpq.1.2, hpq.2.2⟩, ih⟩

theorem keeps_fields {fields vs : List (PyStr × DataType × PyValue)}
    (h : List.Forall₂ (fun f g => f.1 = g.1 ∧ f.2.1 = g.2.1 ∧ Keeps cf f.2.2 g.2.2) fields vs) :
    Alike.Fields vs fields ∧ FreshFields cf vs := by
  refine ⟨h.flip.imp fun f g hfg => ⟨hfg.1.symm, hfg.2.1.symm, hfg.2.2.1⟩, ?_⟩
  induction h with
  | nil => trivial
  | cons hfg _ ih => exact ⟨hfg.2.2.2, ih⟩

end Fresh

theorem contents_depth {v x : PyValue} (hx : x ∈ v.contents) : x.depth ≤ v.depth := by
  cases v with
  | tuple xs => exact (depth_le_depthList hx).trans (Nat.le_succ _)
  | list xs => exact (depth_le_depthList hx).trans (Nat.le_succ _)
  | dict kvs =>
    obtain ⟨p, hp, rfl⟩ := List.mem_map.mp hx
    exact (le_max_left _ _).trans ((depth_le_depthPairs hp).trans (Nat.le_succ _))
  | str s =>
    obtain ⟨c, -, rfl⟩ := List.mem_map.mp hx
    exact le_rfl
  | bytes b =>
    obtain ⟨c, -, rfl⟩ := List.mem_map.mp hx
    exact le_rfl
  | _ =>
    obtain rfl := List.mem_singleton.mp hx
    exact le_rfl

/-- The elements of what can be iterated are not nested as deep. -/
theorem iterate_depth {v x : PyValue} {xs : List PyValue} (h : v.iterate = some xs) (hx : x ∈ xs) :
    x.depth ≤ v.depth - 1 := by
  cases v with
  | tuple ys =>
    obtain rfl := Option.some.inj h
    exact depth_le_depthList hx
  | list ys =>
    obtain rfl := Option.some.inj h
    exact depth_le_depthList hx
  | dict kvs =>
    obtain rfl := Option.some.inj h
    obtain ⟨p, hp, rfl⟩ := List.mem_map.mp hx
    exact (le_max_left _ _).trans (depth_le_depthPairs hp)
  | str s =>
    obtain rfl := Option.some.inj h
    obtain ⟨c, -, rfl⟩ := List.mem_map.mp hx
    exact le_rfl
  | bytes b =>
    obtain rfl := Option.some.inj h
    obtain ⟨c, -, rfl⟩ := List.mem_map.mp hx
    exact le_rfl
  | _ => cases h

theorem unpack2_contents {v a b : PyValue} (h : v.unpack2 = some (a, b)) :
    v.iterate = some [a, b] := by
  unfold unpack2 at h
  split at h
  · obtain ⟨rfl, rfl⟩ := Prod.mk.inj (Option.some.inj h)
    assumption
  · cases h

end PyGridGain
