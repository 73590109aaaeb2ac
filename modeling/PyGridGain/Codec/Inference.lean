import PyGridGain.Codec.InferenceContainers
import PyGridGain.Codec.Moves

/-! `AnyDataObject` without a hint: the values that are written are the `Writable` ones, and of
these exactly the `Kept` ones are read back. -/

namespace PyGridGain

open CObj PyValue StreamM

section Cases
variable [Python] [OtherCodecs] {v : PyValue} {xs : List PyValue}

omit [Python] [OtherCodecs] in
/-- An array of numbers is read as a list of integers. -/
theorem longs_restored_iff {i : ℤ} (hv : v.sequence? = some (.int i :: xs))
    (hxs : ∀ x ∈ xs, x.toInt?.isSome) (hlen : xs.length + 1 < 2 ^ 32) (hp : Plain v) :
    PyValue.list ((numbers (.int i :: xs)).map .int) = v ↔ Restored v := by
  constructor
  · intro h
    have hitems := Option.some.inj ((congrArg sequence? h).trans hv)
    rw [← h]
    refine .longs (by simp [numbers]) (fun j hj => ?_) (by simpa [numbers] using hlen)
    refine (hp.sequence hv (.int j) ?_).range_of_toInt rfl
    rw [← hitems]
    exact List.mem_map_of_mem hj
  · intro h
    have hall : ∀ x ∈ .int i :: xs, x.elements? = Option.none := by
      refine List.forall_mem_cons.mpr ⟨rfl, fun x hx => ?_⟩
      have hint := hxs x hx
      cases x <;> first | rfl | cases hint
    obtain rfl := h.eq_list hv hall
    generalize hys : PyValue.int i :: xs = ys at h hv
    cases h with
    | longs =>
      rw [numbers, List.map_map, List.map_map]
      rfl
    | @bools bs _ _ => cases bs <;> simp at hys
    | @nullable _ t ht _ hsome _ _ =>
      rcases hsome (.int i) (by simp [← hys]) with h | rfl
      · cases h
      · simp [pyType] at ht

/-- A value that is `Kept` is written, and comes back: as it was if it is `Restored`. -/
theorem kept_comesBack (hv : Kept v) (hp : Plain v) :
    ∃ x, ComesBack anyReader v x ∧ StandsFor v x ∧ (x = v ↔ Restored v) := by
  have hscalar : ∀ {v : PyValue}, Kept v → Plain v → v.sequence? = Option.none →
      StandsFor v v ∧ (v = v ↔ Restored v) := fun hv hp hs =>
    ⟨.refl hs, iff_of_true rfl (hv.restored_of_scalar hp hs)⟩
  induction hv with
  | none =>
    exact ⟨.none, ⟨_, by simp, puts_none, (recovers_none .null).2⟩, hscalar .none hp rfl⟩
  | bool b => exact ⟨.bool b, ⟨_, by simp, puts_bool b, recovers_bool b⟩, hscalar (.bool b) hp rfl⟩
  | int i =>
    have hi := hp.range_of_toInt (i := i) rfl
    have hread := (recovers_int (t := .longObject) rfl i).2
    rw [Scalar.wrap_eq_iff.mpr hi] at hread
    exact ⟨.int i, ⟨_, by simp, puts_int i, hread⟩, hscalar (.int i) hp rfl⟩
  | uuid u =>
    exact ⟨.uuid u, ⟨_, by simp, puts_uuid u, (recovers_uuid u).2⟩, hscalar (.uuid u) hp rfl⟩
  | @str x hs hlen =>
    have hread := (recovers_str (x := x) (by omega)).2
    rw [stringRead_eq_iff.mpr ⟨hs, hlen⟩] at hread
    exact ⟨.str x, ⟨_, by simp [stringBytes], puts_str x, hread⟩, hscalar (.str hs hlen) hp rfl⟩
  | @bytes b hlen =>
    exact ⟨.bytes b, ⟨_, by simp, puts_bytes hlen, recovers_bytes hlen⟩,
      hscalar (.bytes hlen) hp rfl⟩
  | @longs v i xs hv hxs hlen =>
    have hall : ∀ x ∈ .int i :: xs, x.toInt?.isSome := List.forall_mem_cons.mpr ⟨rfl, hxs⟩
    have hclass := mapPythonType_of_array (elements_of_sequence hv)
      (.longs (k := 0) rfl hxs)
    exact ⟨_, longs_comesBack hclass (elements_of_sequence hv) (by simpa using hlen) hall
      (hp.sequence hv), .of_list hv (numbers_rep hall), longs_restored_iff hv hxs hlen hp⟩
  | @bools v b bs hv hlen =>
    have hclass := mapPythonType_of_array (elements_of_sequence hv)
      (.bools (k := 0) rfl)
    have hback := bools_comesBack hclass (elements_of_sequence hv)
      (by simp only [List.length_map, List.length_cons]; omega)
    have hsame : ((b :: bs).map PyValue.bool).map PyValue.truthy = b :: bs := by
      rw [List.map_map]
      exact List.map_id'' (fun _ => rfl) _
    rw [if_pos (by simpa using hlen), hsame] at hback
    refine ⟨_, hback, .of_list hv rfl, fun h => ?_, fun h => ?_⟩
    · rw [← h]
      exact .bools (by simp) (by simpa using hlen)
    · refine (Restored.eq_list h hv fun x hx => ?_).symm
      obtain ⟨c, -, rfl⟩ := List.mem_map.mp hx
      rfl
  | @nullable v xs t ht hv hsome hxs hkept hlen _ =>
    have hscalars : ∀ x ∈ xs, x.elements? = Option.none ∧ x.sequence? = Option.none := fun x hx => by
      rcases hxs x hx with rfl | rfl
      · exact ⟨rfl, rfl⟩
      · cases x <;> simp [pyType] at ht <;> exact ⟨rfl, rfl⟩
    refine ⟨_, nullable_comesBack ht (elements_of_sequence hv) hsome hxs hkept hlen, .of_list hv rfl,
      fun h => ?_, fun h => (Restored.eq_list h hv fun x hx => (hscalars x hx).1).symm⟩
    rw [← h]
    exact .nullable ht hsome hxs (fun x hx =>
      (hkept x hx).restored_of_scalar (hp.sequence hv x hx) (hscalars x hx).2) hlen
  | @collection v a w k ys hv ha hk hw hys hlen ih =>
    have hw' : Plain w := hp.sequence hv w (by simp)
    obtain ⟨zs, hzs⟩ := exists_forall₂ fun y hy => ih y hy (hw'.sequence hw y hy)
    obtain ⟨hback, hstands⟩ := collection_comesBack hv ha hk hw hlen
      (hzs.imp fun _ _ h => ⟨h.1, h.2.1⟩)
    have hsame : zs = ys ↔ ∀ y ∈ ys, Restored y := eq_iff_forall hzs fun _ _ h => h.2.2
    refine ⟨_, hback, hstands, fun h => ?_, fun h => ?_⟩
    · have hitems := Option.some.inj ((congrArg sequence? h).trans hv)
      simp only [List.cons.injEq, and_true] at hitems
      obtain ⟨rfl, rfl⟩ := hitems
      rw [← h]
      obtain rfl := Option.some.inj hw
      exact .collection hk (hsame.mp rfl) hlen
    · rcases h.sequence_cases hv with ⟨-, hall⟩ | ⟨k', ys', hitems, rfl, hrest⟩ | ⟨k', kvs, hitems, -⟩
      · cases (elements_of_sequence hw).symm.trans (hall w (by simp))
      · simp only [List.cons.injEq, and_true] at hitems
        obtain ⟨rfl, rfl⟩ := hitems
        obtain rfl := Option.some.inj hw
        obtain rfl := Option.some.inj ha
        rw [hsame.mpr hrest]
      · simp only [List.cons.injEq, and_true] at hitems
        obtain ⟨-, rfl⟩ := hitems
        cases hw
  | @map v a k kvs hv ha hk hks hvs hscalar hlen ihk ihv =>
    have hdict : Plain (.dict kvs) := hp.sequence hv _ (by simp)
    cases hdict with
    | dict hpks hpvs hkeys =>
      have hsides : ∀ y ∈ alternate kvs, ∃ z, ComesBack anyReader y z ∧ StandsFor y z ∧
          (z = y ↔ Restored y) := fun y hy => by
        obtain ⟨p, hp, rfl | rfl⟩ := mem_alternate.mp hy
        · exact ihk p hp (hpks p hp)
        · exact ihv p hp (hpvs p hp)
      obtain ⟨zs, hzs⟩ := exists_forall₂ hsides
      obtain ⟨kvs', -, rfl⟩ := exists_alternate (l := zs) (n := kvs.length)
        (by rw [← hzs.length_eq, alternate_length])
      obtain ⟨hback, hstands⟩ := map_comesBack hv ha hk hlen hscalar hkeys
        (hzs.imp fun _ _ h => ⟨h.1, h.2.1⟩)
      have hsame : kvs' = kvs ↔ ∀ p ∈ kvs, Restored p.1 ∧ Restored p.2 :=
        eq_iff_forall (forall₂_alternate.mp hzs) fun p q h => by
          rw [Prod.ext_iff, h.1.2.2, h.2.2.2]
      refine ⟨_, hback, hstands, fun h => ?_, fun h => ?_⟩
      · have hitems := Option.some.inj ((congrArg sequence? h).trans hv)
        simp only [List.cons.injEq, PyValue.dict.injEq, and_true] at hitems
        obtain ⟨rfl, hkvs⟩ := hitems
        have hall := hsame.mp hkvs
        rw [← h, hkvs]
        exact .map hk (fun p hp => (hall p hp).1) (fun p hp => (hall p hp).2) hkeys hlen
      · rcases h.sequence_cases hv with ⟨-, hall⟩ | ⟨k', ys, hitems, -⟩ | ⟨k', kvs'', hitems, rfl, hrest⟩
        · cases hall (.dict kvs) (by simp)
        · simp at hitems
        · simp only [List.cons.injEq, PyValue.dict.injEq, and_true] at hitems
          obtain ⟨rfl, rfl⟩ := hitems
          obtain rfl := Option.some.inj ha
          rw [hsame.mpr hrest]

/-- What is written and only read as an equal value if it is `Kept` is known. -/
theorem known_of_onlyKept (hp : Plain v) {d : Bytes} (hne : d ≠ []) (hput : Puts v d)
    (h : OnlyKept anyReader v d) : Known anyReader v d where
  kept hv := by
    obtain ⟨x, ⟨d', -, hput', hread⟩, hx, -⟩ := kept_comesBack hv hp
    rw [hput.unique hput' hne hp.not_hinted]
    exact ⟨x, hread, hx⟩
  lost := h

/-- A dict of two keys that is written as a collection is not read back. -/
theorem keys_onlyKept {kvs : List (PyValue × PyValue)} {b : Bool} {k : ℤ}
    (hclass : (PyValue.dict kvs).mapPythonType = .ok .collectionObject)
    (hkvs : kvs.map Prod.fst = [.bool b, .int k]) :
    ∃ d, d ≠ [] ∧ Puts (.dict kvs) d ∧ OnlyKept anyReader (.dict kvs) d := by
  have hk : Scalar.byte.Range (if b then 1 else 0) := by cases b <;> decide
  have hv : (PyValue.dict kvs).elements? = some [.bool b, .int k] := congrArg some hkvs
  have hdepth : depthList [.int k] < (PyValue.dict kvs).depth := by
    have hall := depth_of_elements hv
    rw [depthList] at hall
    omega
  have hput := puts_collection (w := .int k) hclass hv rfl hk (by simp [contents, PyValue.iterate])
    hdepth (.cons (puts_int k) .nil)
  refine ⟨containerBytes .collectionObject 1 [scalarPart .type .byte (if b then 1 else 0)]
    [DataType.longObject.typeCode :: Scalar.longlong.store k], ?_, ?_, dict_onlyKept hk (by simp)⟩
  · simp [containerBytes_cons]
  · rw [containerBytes_cons]
    simpa [scalarPart, contents, PyValue.iterate] using hput

/-- A value that is `Writable` is written, and read as an equal value only if it is `Kept`. -/
theorem writable_onlyKept (hv : Writable v) (hp : Plain v) :
    ∃ d, d ≠ [] ∧ Puts v d ∧ OnlyKept anyReader v d := by
  have hknown : ∀ {y : PyValue}, (∃ d, d ≠ [] ∧ Puts y d ∧ OnlyKept anyReader y d) → Plain y →
      ∃ d, d ≠ [] ∧ Puts y d ∧ Known anyReader y d := by
    rintro y ⟨d, hne, hput, honly⟩ hy
    exact ⟨d, hne, hput, known_of_onlyKept hy hne hput honly⟩
  induction hv with
  | none => exact ⟨_, by simp, puts_none, onlyKept_of_kept .none⟩
  | bool b => exact ⟨_, by simp, puts_bool b, onlyKept_of_kept (.bool b)⟩
  | int i => exact ⟨_, by simp, puts_int i, onlyKept_of_kept (.int i)⟩
  | str x => exact ⟨_, by simp [stringBytes], puts_str x, (known_str x).2.lost⟩
  | uuid u => exact ⟨_, by simp, puts_uuid u, onlyKept_of_kept (.uuid u)⟩
  | bytes hlen => exact ⟨_, by simp, puts_bytes hlen, onlyKept_of_kept (.bytes hlen)⟩
  | @longs v i xs hv hxs hlen =>
    have hclass := mapPythonType_of_array hv (.longs (k := 0) rfl hxs)
    obtain ⟨d, hne, hput, hread⟩ := longs_comesBack hclass hv (by simpa using hlen)
      (List.forall_mem_cons.mpr ⟨rfl, hxs⟩) (hp.elements hv)
    refine ⟨d, hne, hput, onlyKept_of_recovers hread fun hrep => ?_⟩
    obtain ⟨zs, hzs, -⟩ := rep_list_iff.mp hrep
    obtain rfl := Option.some.inj (hv.symm.trans (elements_of_sequence hzs))
    exact .longs hzs hxs hlen
  | @bools v k b bs hv hlen =>
    have hclass := mapPythonType_of_array hv (.bools rfl)
    obtain ⟨d, hne, hput, hread⟩ := bools_comesBack hclass hv (by simpa using hlen)
    refine ⟨d, hne, hput, onlyKept_of_recovers hread fun hrep => ?_⟩
    obtain ⟨zs, hzs, hmaps⟩ := rep_list_iff.mp hrep
    obtain rfl := Option.some.inj (hv.symm.trans (elements_of_sequence hzs))
    split_ifs at hmaps with hsmall
    · cases k with
      | zero => exact .bools hzs (by simpa using hsmall)
      | succ k =>
        -- the leading `None` would be read as `False`
        simp [List.replicate_succ, PyValue.rep] at hmaps
    · simp at hmaps
  | @nullable v xs u hu hv hsome hxs hlen =>
    obtain ⟨t, std, ht, hstd⟩ : ∃ t std, pythonArrayMap u = some t ∧ pythonMap u = some std := by
      rcases hu with rfl | rfl
      exacts [⟨_, _, rfl, rfl⟩, ⟨_, _, rfl, rfl⟩]
    obtain ⟨ds, hputs, hknowns⟩ := exists_allKnown fun x hx => (exists_known hu hstd (hxs x hx)).2
    exact ⟨_, by simp [containerBytes_cons], puts_nullable hu ht hstd hv hsome hxs hlen hputs,
      nullable_onlyKept hu ht hstd hv hsome hxs hlen hknowns⟩
  | @collection v a w k ys hv ha hk hw hdict hys hlen ih =>
    have hw' : Plain w := hp.sequence hv w (by simp)
    obtain ⟨ds, hputs, hknowns⟩ := exists_allKnown fun y hy =>
      hknown (ih y hy (hw'.iterate hw y hy)) (hw'.iterate hw y hy)
    exact ⟨_, by simp [containerBytes_cons], puts_pair hv ha hk hw hdict hlen hputs,
      collection_onlyKept hv ha hk hw hlen hknowns⟩
  | @map v a k kvs hv ha hk hks hvs hlen ihk ihv =>
    have hdict : Plain (.dict kvs) := hp.sequence hv _ (by simp)
    cases hdict with
    | dict hpks hpvs _ =>
      have hsides : ∀ y ∈ alternate kvs, ∃ d, d ≠ [] ∧ Puts y d ∧ Known anyReader y d := by
        intro y hy
        obtain ⟨p, hp, rfl | rfl⟩ := mem_alternate.mp hy
        · exact hknown (ihk p hp (hpks p hp)) (hpks p hp)
        · exact hknown (ihv p hp (hpvs p hp)) (hpvs p hp)
      obtain ⟨ds, hputs, hknowns⟩ := exists_allKnown hsides
      exact ⟨_, by simp [containerBytes_cons], puts_entries hv ha hk hlen hputs,
        map_onlyKept hv ha hk hlen hknowns⟩
  | @zeroOne x y hx hy hdict =>
    refine keys_onlyKept ((mapPythonType_dict_iff ?_).mpr (Or.inr ⟨x, y, Or.inl rfl, hx, ?_⟩)) rfl
    · cases hp with
      | dict hks _ _ => exact hks
    · simp [pairClass, hdict, hy]
  | @oneZero x y hx hy hdict =>
    refine keys_onlyKept ((mapPythonType_dict_iff ?_).mpr (Or.inr ⟨x, y, Or.inr rfl, hx, ?_⟩)) rfl
    · cases hp with
      | dict hks _ _ => exact hks
    · simp [pairClass, hdict, hy]

/-- A value that is read as another one. -/
theorem ComesBack.not_raisesOrReads {x : PyValue} (h : ComesBack anyReader v x) (hp : Plain v)
    (hne : x.rep ≠ v.rep) : ¬RaisesOrReads anyDataObject v fun x => x.rep = v.rep := by
  obtain ⟨d, hd, hput, hread⟩ := h
  rw [raisesOrReads_iff (hput.writesAs hp.not_hinted) hd (hread.anyReadsAs hd)]
  rintro ⟨y, hy, hrep⟩
  exact hne (Except.ok.inj hy ▸ hrep)

/-- A value is given back unless it is written and not `Kept`. -/
theorem raisesOrReads_inferred_iff (hothers : OthersMove) (hp : Plain v) :
    RaisesOrReads anyDataObject v (fun x => x.rep = v.rep) ↔ (Writable v → Kept v) := by
  constructor
  · intro h hw
    obtain ⟨d, hne, hput, honly⟩ := writable_onlyKept hw hp
    obtain ⟨v', hwrite⟩ := hput.writesAs hp.not_hinted ⟨someClient, [], 0, false⟩ rfl
    obtain ⟨e, he⟩ | ⟨v'', s', hs', hread⟩ := h someClient [] 0
    · rw [hwrite] at he
      cases he
    · obtain ⟨rfl, rfl⟩ := Prod.mk.inj (Except.ok.inj (hwrite.symm.trans hs'))
      obtain ⟨c, r, o, x, hparse, hpos, ho, hx, hrep⟩ := hread someClient none []
      have hat := at_written [] 0 hne []
      have hlen := hat.length_le hne
      obtain ⟨hbuf, n, hmoved, rfl⟩ := moves_anyDataObject hothers hparse
      have hend : r.pos = 0 + d.length := hpos
      have hsize : d.length = c.size := by
        rw [hend] at hmoved
        exact Nat.add_left_cancel hmoved
      obtain rfl := readBackward_eq (b := d) (hbuf ▸ hat) hend hsize ho
      refine @honly _ (d.length + 1) none ⟨someClient, _, 0, false⟩ r c x rfl hat ?_
        (Nat.le_succ _) hparse ?_ ?_ hrep
      · exact (Nat.le_add_left _ _).trans (hlen.trans (Nat.le_succ _))
      · rw [← hsize]
        exact hlen
      · rw [← hsize, hat.slice]
        exact hx
  · intro h
    by_cases hw : Writable v
    · obtain ⟨x, ⟨d, hne, hput, hread⟩, hx, -⟩ := kept_comesBack (h hw) hp
      exact (raisesOrReads_iff (hput.writesAs hp.not_hinted) hne (hread.anyReadsAs hne)).mpr
        ⟨x, rfl, hx.rep⟩
    · refine Refuses.raisesOrReads fun s => ?_
      cases hrun : anyDataObject.fromPython v s with
      | error e => exact ⟨e, rfl⟩
      | ok r =>
        rw [anyDataObject_fromPython hp.not_hinted] at hrun
        exact absurd (writable_of_ok hp hrun) hw

end Cases

/-- A list of `None` and a text comes back. -/
theorem raisesOrReads_inferred_texts :
    @RaisesOrReads (@anyDataObject asciiLower noOtherCodecs) (.list [.none, .str ['a']])
      fun x => x.rep = (PyValue.list [.none, .str ['a']]).rep := by
  have hothers : @OthersMove noOtherCodecs := fun t => advances_raise
  have hp : Plain (.list [.none, .str ['a']]) := .list (by
    simp only [List.forall_mem_cons]
    exact ⟨.none, .str _, by simp⟩)
  refine (@raisesOrReads_inferred_iff asciiLower noOtherCodecs _ hothers hp).mpr fun _ =>
    .nullable (Or.inl rfl) rfl ⟨.str ['a'], by simp, rfl⟩ ?_ ?_ (by simp)
  · simp [pyType]
  · simp only [List.forall_mem_cons]
    exact ⟨.none, .str (by decide) (by decide), by simp⟩

/-- A leading `None` is read as `False`, and a dict as the list of its keys. -/
theorem not_raisesOrReads_inferred :
    (Plain (.list [.none, .bool true]) ∧
      ¬@RaisesOrReads (@anyDataObject asciiLower noOtherCodecs) (.list [.none, .bool true])
        fun x => x.rep = (PyValue.list [.none, .bool true]).rep) ∧
    Plain (.dict [(.str ['a'], .int 1)]) ∧
      ¬@RaisesOrReads (@anyDataObject asciiLower noOtherCodecs) (.dict [(.str ['a'], .int 1)])
        fun x => x.rep = (PyValue.dict [(.str ['a'], .int 1)]).rep := by
  let _ : Python := asciiLower
  let _ : OtherCodecs := noOtherCodecs
  have hlist : Plain (.list [.none, .bool true]) := .list (by
    simp only [List.forall_mem_cons]
    exact ⟨.none, .bool _, by simp⟩)
  have hdict : Plain (.dict [(.str ['a'], .int 1)]) := by
    refine .dict ?_ ?_ ⟨[.str ['a']], rfl, by simp⟩
    · simpa using Plain.str ['a']
    · simpa using Plain.int (i := 1) (by decide)
  refine ⟨⟨hlist, ?_⟩, hdict, ?_⟩
  · have hv : (PyValue.list [.none, .bool true]).elements? = some [.none, .bool true] := rfl
    have hback := bools_comesBack rfl hv (by simp)
    exact hback.not_raisesOrReads hlist (by simp [PyValue.rep, truthy])
  · have hv : (PyValue.dict [(.str ['a'], .int 1)]).elements? = some [.str ['a']] := rfl
    have hback := nullable_comesBack (Or.inl rfl) hv ⟨.str ['a'], by simp, rfl⟩ (by simp [pyType])
      (by simpa using Kept.str (s := ['a']) (by decide) (by decide)) (by simp)
    exact hback.not_raisesOrReads hdict (by simp [PyValue.rep])

end PyGridGain
