import Mathlib.Data.Set.List
import PyGridGain.Datatypes.FromPython

/-! Which classes the inference finds for values built of `None`, booleans, integers, texts,
UUIDs and bytes by lists, tuples and dicts, which of these values can be written without a
hint, and which of them a reader gives back. -/

namespace PyGridGain

namespace PyValue

/-- The elements of a `list` or a `tuple`. -/
def sequence? : PyValue → Option (List PyValue)
  | tuple xs => some xs
  | list xs => some xs
  | _ => Option.none

/-- `list(value)` of a value that may become an array: a dict gives its keys. -/
def elements? : PyValue → Option (List PyValue)
  | dict kvs => some (kvs.map Prod.fst)
  | v => v.sequence?

/-- Values built of `None`, booleans, 64-bit integers, texts, UUIDs and bytes. The keys of a
dict are hashable, and no two of them are equal. -/
inductive Plain : PyValue → Prop
  | none : Plain none
  | bool (b : Bool) : Plain (bool b)
  | int {i : ℤ} (hi : Scalar.longlong.Range i) : Plain (int i)
  | str (s : PyStr) : Plain (str s)
  | uuid (u : UUID) : Plain (uuid u)
  | bytes (b : Bytes) : Plain (bytes b)
  | tuple {xs : List PyValue} (hxs : ∀ x ∈ xs, Plain x) : Plain (tuple xs)
  | list {xs : List PyValue} (hxs : ∀ x ∈ xs, Plain x) : Plain (list xs)
  | dict {kvs : List (PyValue × PyValue)} (hks : ∀ p ∈ kvs, Plain p.1)
      (hvs : ∀ p ∈ kvs, Plain p.2)
      (hkeys : ∃ keys : List Key, kvs.map (fun p => p.1.hashKey) = keys.map some ∧ keys.Nodup) :
      Plain (dict kvs)

/-! ### The class of a value -/

/-- The types whose arrays may hold `None` behind their first element. -/
def allowsNone (t : PyType) : Bool := [PyType.str, .datetime, .timedelta, .decimal, .uuid].contains t

/-- Elements of the type `t`, the first of them behind any number of `None`. -/
def Uniform (t : PyType) (xs : List PyValue) : Prop :=
  ∃ k x rest, xs = List.replicate k none ++ x :: rest ∧ x.pyType = t ∧ t ≠ .noneType ∧
    ∀ y ∈ rest, y.isInstance t ∨ (y = none ∧ allowsNone t)

theorem pyType_eq_noneType {v : PyValue} : v.pyType = .noneType ↔ v = none := by
  cases v <;> simp [pyType]

theorem dropWhile_none (k : ℕ) {x : PyValue} (hx : x ≠ none) (rest : List PyValue) :
    (List.replicate k none ++ x :: rest).dropWhile (fun x => x.pyType == .noneType) = x :: rest := by
  rw [List.dropWhile_append_of_pos (by simp [pyType_eq_noneType])]
  exact List.dropWhile_cons_of_neg (by simpa [pyType_eq_noneType] using hx)

/-- The elements are all `None`, or the first one that is not has a place. -/
theorem leading_none (xs : List PyValue) :
    xs = List.replicate xs.length none ∨
      ∃ k x rest, x ≠ none ∧ xs = List.replicate k none ++ x :: rest := by
  induction xs with
  | nil => exact Or.inl rfl
  | cons x xs ih =>
    by_cases hx : x = none
    · subst hx
      rcases ih with h | ⟨k, y, rest, hy, rfl⟩
      · left
        rw [List.length_cons, List.replicate_succ, ← h]
      · exact Or.inr ⟨k + 1, y, rest, hy, by rw [List.replicate_succ, List.cons_append]⟩
    · exact Or.inr ⟨0, x, xs, hx, rfl⟩

theorem getSubtype_none (n : ℕ) : ∃ e, getSubtype (List.replicate n none) = .error e := by
  have hdrop : (List.replicate n none).dropWhile (fun x => x.pyType == .noneType) = [] := by
    simp [pyType_eq_noneType]
  simp only [getSubtype, hdrop]
  exact ⟨_, rfl⟩

theorem getSubtype_eq (k : ℕ) {x : PyValue} (hx : x ≠ none) (rest : List PyValue) :
    getSubtype (List.replicate k none ++ x :: rest) =
      .ok (if rest.all fun y => y.isInstance x.pyType || (y.pyType == .noneType &&
        allowsNone x.pyType) then some x.pyType else Option.none) := by
  simp only [getSubtype, dropWhile_none k hx]
  exact (apply_ite Except.ok _ _ _).symm

theorem getSubtype_eq_some_iff {xs : List PyValue} {t : PyType} :
    getSubtype xs = .ok (some t) ↔ Uniform t xs := by
  constructor
  · intro h
    rcases leading_none xs with hnone | ⟨k, x, rest, hx, rfl⟩
    · rw [hnone] at h
      obtain ⟨e, he⟩ := getSubtype_none xs.length
      rw [he] at h
      cases h
    · rw [getSubtype_eq k hx] at h
      split_ifs at h with hall
      · obtain rfl := Option.some.inj (Except.ok.inj h)
        refine ⟨k, x, rest, rfl, rfl, mt pyType_eq_noneType.mp hx, fun y hy => ?_⟩
        simpa [pyType_eq_noneType] using List.all_eq_true.mp hall y hy
      · cases h
  · rintro ⟨k, x, rest, rfl, rfl, hne, hall⟩
    rw [getSubtype_eq k (mt pyType_eq_noneType.mpr hne), if_pos]
    rw [List.all_eq_true]
    exact fun y hy => by simpa [pyType_eq_noneType] using hall y hy

theorem mapPythonType_of_elements {v : PyValue} {xs : List PyValue} (hv : v.elements? = some xs) :
    v.mapPythonType = (do
      let subtype ← getSubtype xs
      if let some t := subtype.bind pythonArrayMap then return t
      let first ← v.getItem 0
      let second ← v.getItem 1
      if subtype.isSome || xs.length != 2 || !first.isInstance .int then
        raise .typeError "Type `array of` is invalid"
      else if second.pyType == .dict then return .mapObject
      else if second.iterate.isSome then return .collectionObject
      else raise .typeError "Type `array of` is invalid") := by
  cases v <;> simp only [elements?, sequence?, reduceCtorEq, Option.some.injEq] at hv <;>
    subst hv <;> rfl

/-- The class of a pair of an integer and something to iterate over. -/
def pairClass (w : PyValue) : Option DataType :=
  if w.pyType = .dict then some .mapObject
  else if w.iterate.isSome then some .collectionObject
  else Option.none

theorem mapPythonType_elements_iff {v : PyValue} {xs : List PyValue} {t : DataType}
    (hv : v.elements? = some xs) :
    v.mapPythonType = .ok t ↔
      (∃ u, Uniform u xs ∧ pythonArrayMap u = some t) ∨
      (getSubtype xs = .ok Option.none ∧ xs.length = 2 ∧ ∃ a w, v.getItem 0 = .ok a ∧
        v.getItem 1 = .ok w ∧ a.isInstance .int ∧ pairClass w = some t) := by
  rw [mapPythonType_of_elements hv, except_bind_eq_ok]
  have hgood : ∀ {subtype : Option PyType} {a : PyValue},
      ¬(subtype.isSome || xs.length != 2 || !a.isInstance .int) = true →
      subtype = Option.none ∧ xs.length = 2 ∧ a.isInstance .int = true := by
    simp [and_assoc]
  constructor
  · rintro ⟨subtype, hsub, h⟩
    cases hmap : subtype.bind pythonArrayMap with
    | some t' =>
      obtain ⟨u, rfl, hu⟩ := Option.bind_eq_some_iff.mp hmap
      rw [hmap] at h
      obtain rfl : t' = t := Except.ok.inj h
      exact Or.inl ⟨u, getSubtype_eq_some_iff.mp hsub, hu⟩
    | none =>
      rw [hmap] at h
      obtain ⟨a, ha, h⟩ := except_bind_eq_ok.mp h
      obtain ⟨w, hw, h⟩ := except_bind_eq_ok.mp h
      split_ifs at h with hbad hdict hiter
      · cases h
      · obtain rfl := Except.ok.inj h
        obtain ⟨rfl, hlen, hint⟩ := hgood hbad
        exact Or.inr ⟨hsub, hlen, a, w, ha, hw, hint, if_pos (by simpa using hdict)⟩
      · obtain rfl := Except.ok.inj h
        obtain ⟨rfl, hlen, hint⟩ := hgood hbad
        refine Or.inr ⟨hsub, hlen, a, w, ha, hw, hint, ?_⟩
        rw [pairClass, if_neg (by simpa using hdict), if_pos hiter]
      · cases h
  · rintro (⟨u, hu, ht⟩ | ⟨hsub, hlen, a, w, ha, hw, hint, hpair⟩)
    · refine ⟨some u, getSubtype_eq_some_iff.mpr hu, ?_⟩
      simp only [Option.bind_some, ht]
      rfl
    · refine ⟨Option.none, hsub, except_bind_eq_ok.mpr ⟨a, ha, except_bind_eq_ok.mpr ⟨w, hw, ?_⟩⟩⟩
      rw [if_neg (by simp [hlen, hint])]
      unfold pairClass at hpair
      split_ifs at hpair with hdict hiter
      · rw [if_pos (by simpa using hdict), ← Option.some.inj hpair]
        rfl
      · rw [if_neg (by simpa using hdict), if_pos hiter, ← Option.some.inj hpair]
        rfl

theorem isInstance_int {v : PyValue} : v.isInstance .int = true ↔ v.toInt?.isSome := by
  cases v <;> simp [isInstance, pyType, toInt?]

theorem getSubtype_pair {a w : PyValue} {t : DataType} (ha : a.toInt?.isSome)
    (hw : pairClass w = some t) : getSubtype [a, w] = .ok Option.none := by
  have hne : a ≠ none := by
    rintro rfl
    cases ha
  have hsub := getSubtype_eq 0 hne [w]
  rw [List.replicate_zero, List.nil_append] at hsub
  rw [hsub, if_neg]
  cases a <;> simp only [toInt?, Option.isSome_none, Bool.false_eq_true] at ha <;>
    cases w <;> simp [pairClass, pyType, iterate] at hw <;>
    simp [isInstance, pyType]

/-- The class of a list or a tuple. -/
theorem mapPythonType_sequence_iff {v : PyValue} {xs : List PyValue} {t : DataType}
    (hv : v.sequence? = some xs) :
    v.mapPythonType = .ok t ↔
      (∃ u, Uniform u xs ∧ pythonArrayMap u = some t) ∨
      ∃ a w, xs = [a, w] ∧ a.toInt?.isSome ∧ pairClass w = some t := by
  have helements : v.elements? = some xs := by
    cases v <;> first | exact hv | cases hv
  have hitem : ∀ i, v.getItem i = (xs[i]?).elim (PyGridGain.raise .indexError) .ok := by
    intro i
    cases v <;> simp only [sequence?, reduceCtorEq, Option.some.injEq] at hv <;> subst hv <;>
      exact getItem_eq_elim (by simp) i
  rw [mapPythonType_elements_iff helements]
  refine or_congr_right ⟨?_, ?_⟩
  · rintro ⟨-, hlen, a, w, ha, hw, hint, hpair⟩
    obtain ⟨x, y, rfl⟩ := List.length_eq_two.mp hlen
    obtain rfl : x = a := Except.ok.inj ((hitem 0).symm.trans ha)
    obtain rfl : y = w := Except.ok.inj ((hitem 1).symm.trans hw)
    exact ⟨x, y, rfl, isInstance_int.mp hint, hpair⟩
  · rintro ⟨a, w, rfl, hint, hpair⟩
    exact ⟨getSubtype_pair hint hpair, rfl, a, w, hitem 0, hitem 1, isInstance_int.mpr hint, hpair⟩

theorem Plain.hashKey_number {k : PyValue} (hk : Plain k) {q : ℚ}
    (h : k.hashKey = some (.number q)) :
    (∃ b, k = .bool b ∧ q = if b then 1 else 0) ∨ ∃ i, k = .int i ∧ q = i := by
  cases hk with
  | bool b => exact Or.inl ⟨b, rfl, by simpa [hashKey] using h.symm⟩
  | @int i hi => exact Or.inr ⟨i, rfl, by simpa [hashKey] using h.symm⟩
  | @tuple xs hxs =>
    cases xs with
    | nil => simp [hashKey, hashKeys] at h
    | cons x xs =>
      simp only [hashKey, hashKeys] at h
      split at h <;> simp at h
  | _ => simp [hashKey] at h

theorem getItem_dict {kvs : List (PyValue × PyValue)} {i : ℕ} {a : PyValue}
    (h : (dict kvs).getItem i = .ok a) :
    ∃ p ∈ kvs, p.1.hashKey = some (.number i) ∧ p.2 = a := by
  simp only [getItem] at h
  split at h
  · rename_i p hp
    exact ⟨p, List.mem_of_find?_eq_some hp, by simpa using List.find?_some hp, Except.ok.inj h⟩
  · cases h

/-- The keys 0 and 1 are a pair without a common type only as a boolean before an integer. -/
theorem getSubtype_zero_one {k l : PyValue} (hk : Plain k) (hl : Plain l) {i j : ℕ}
    (hi : k.hashKey = some (.number i)) (hj : l.hashKey = some (.number j))
    (hsub : getSubtype [k, l] = .ok Option.none) :
    (∃ b : Bool, k = bool b ∧ (i : ℚ) = if b then 1 else 0) ∧ l = int j := by
  rcases hk.hashKey_number hi with ⟨b, rfl, hb⟩ | ⟨m, rfl, hm⟩
  · rcases hl.hashKey_number hj with ⟨c, rfl, hc⟩ | ⟨n, rfl, hn⟩
    · simp [getSubtype, pyType, isInstance] at hsub
    · have hn' : (j : ℤ) = n := by exact_mod_cast hn
      exact ⟨⟨b, rfl, hb⟩, by rw [hn']⟩
  · rcases hl.hashKey_number hj with ⟨c, rfl, hc⟩ | ⟨n, rfl, hn⟩ <;>
      simp [getSubtype, pyType, isInstance] at hsub

/-- The class of a dict: that of the array of its keys, or that of the pair of its values at 0
and 1. -/
theorem mapPythonType_dict_iff {kvs : List (PyValue × PyValue)} {t : DataType}
    (hks : ∀ p ∈ kvs, Plain p.1) :
    (dict kvs).mapPythonType = .ok t ↔
      (∃ u, Uniform u (kvs.map Prod.fst) ∧ pythonArrayMap u = some t) ∨
      ∃ x y, (kvs = [(.bool false, x), (.int 1, y)] ∨ kvs = [(.bool true, y), (.int 0, x)]) ∧
        x.toInt?.isSome ∧ pairClass y = some t := by
  rw [mapPythonType_elements_iff (v := dict kvs) rfl]
  refine or_congr_right ⟨?_, ?_⟩
  · rintro ⟨hsub, hlen, a, w, ha, hw, hint, hpair⟩
    rw [List.length_map] at hlen
    match kvs, hlen with
    | [(k, x), (l, y)], _ =>
      have hk : Plain k := hks (k, x) (by simp)
      have hl : Plain l := hks (l, y) (by simp)
      obtain ⟨p, hp, hp0, rfl⟩ := getItem_dict ha
      obtain ⟨q, hq, hq1, rfl⟩ := getItem_dict hw
      have hne : p ≠ q := by
        rintro rfl
        simp [hp0] at hq1
      rcases List.mem_pair.mp hp with rfl | rfl <;> rcases List.mem_pair.mp hq with rfl | rfl
      · exact absurd rfl hne
      · obtain ⟨⟨b, rfl, hb⟩, rfl⟩ := getSubtype_zero_one hk hl hp0 hq1 hsub
        obtain rfl : b = false := by cases b <;> simp_all
        exact ⟨x, y, Or.inl rfl, isInstance_int.mp hint, hpair⟩
      · obtain ⟨⟨b, rfl, hb⟩, rfl⟩ := getSubtype_zero_one hk hl hq1 hp0 hsub
        obtain rfl : b = true := by cases b <;> simp_all
        exact ⟨y, x, Or.inr rfl, isInstance_int.mp hint, hpair⟩
      · exact absurd rfl hne
  · rintro ⟨x, y, hkvs, hint, hpair⟩
    rcases hkvs with rfl | rfl
    · refine ⟨rfl, rfl, x, y, ?_, ?_, isInstance_int.mpr hint, hpair⟩
      · simp [getItem, hashKey]
      · simp [getItem, hashKey]
    · refine ⟨rfl, rfl, x, y, ?_, ?_, isInstance_int.mpr hint, hpair⟩
      · simp [getItem, hashKey]
      · simp [getItem, hashKey]

theorem eq_map_bool {xs : List PyValue} (h : ∀ x ∈ xs, x.pyType = .bool) :
    ∃ bs : List Bool, xs = bs.map bool := by
  have hrange : xs ∈ Set.range (List.map bool) := by
    rw [Set.range_list_map]
    intro x hx
    have hbool := h x hx
    cases x <;> first | exact ⟨_, rfl⟩ | cases hbool
  obtain ⟨bs, rfl⟩ := hrange
  exact ⟨bs, rfl⟩

theorem isInstance_of_ne {v : PyValue} {t : PyType} (ht : t ≠ .int) :
    v.isInstance t = true ↔ v.pyType = t := by
  simp [isInstance, ht]

theorem Plain.not_hinted {v : PyValue} (hv : Plain v) : ∀ x t, v ≠ .hinted x t := by
  rintro x t rfl
  cases hv

theorem Plain.iterate {v : PyValue} (hv : Plain v) {xs : List PyValue}
    (hxs : v.iterate = some xs) : ∀ x ∈ xs, Plain x := by
  cases hv with
  | str s =>
    obtain rfl := Option.some.inj hxs
    intro x hx
    obtain ⟨c, -, rfl⟩ := List.mem_map.mp hx
    exact .str _
  | bytes b =>
    obtain rfl := Option.some.inj hxs
    intro x hx
    obtain ⟨i, -, rfl⟩ := List.mem_map.mp hx
    refine .int ?_
    have := i.toNat_lt
    simp only [Scalar.Range, Scalar.isSigned, Scalar.size, SignedRange, if_true]
    omega
  | tuple h =>
    obtain rfl := Option.some.inj hxs
    exact h
  | list h =>
    obtain rfl := Option.some.inj hxs
    exact h
  | dict hks _ _ =>
    obtain rfl := Option.some.inj hxs
    intro x hx
    obtain ⟨p, hp, rfl⟩ := List.mem_map.mp hx
    exact hks p hp
  | _ => cases hxs

/-- The arrays that a list of plain values becomes. -/
inductive ArrayOf (xs : List PyValue) : DataType → Prop
  | longs {k : ℕ} {i : ℤ} {rest : List PyValue} (hxs : xs = List.replicate k .none ++ .int i :: rest)
      (hrest : ∀ y ∈ rest, y.toInt?.isSome) : ArrayOf xs .longArrayObject
  | bools {k : ℕ} {b : Bool} {bs : List Bool}
      (hxs : xs = List.replicate k .none ++ (b :: bs).map .bool) : ArrayOf xs .boolArrayObject
  | nullable {u : PyType} {t std : DataType} (hu : u = .str ∨ u = .uuid)
      (ht : pythonArrayMap u = some t) (hstd : pythonMap u = some std)
      (hsome : ∃ x ∈ xs, x.pyType = u) (hxs : ∀ x ∈ xs, x = .none ∨ x.pyType = u) : ArrayOf xs t

theorem Uniform.arrayOf {u : PyType} {xs : List PyValue} {t : DataType} (h : Uniform u xs)
    (hxs : ∀ x ∈ xs, Plain x) (ht : pythonArrayMap u = some t) : ArrayOf xs t := by
  obtain ⟨k, x, rest, rfl, rfl, hne, hrest⟩ := h
  have hnullable : ∀ {u : PyType}, u ≠ .int → x.pyType = u →
      ∀ y ∈ List.replicate k none ++ x :: rest, y = none ∨ y.pyType = u := by
    rintro u hint rfl y hy
    rcases List.mem_append.mp hy with hy | hy
    · exact Or.inl (List.eq_of_mem_replicate hy)
    · rcases List.mem_cons.mp hy with rfl | hy
      · exact Or.inr rfl
      · rcases hrest y hy with hinst | ⟨rfl, -⟩
        · exact Or.inr ((isInstance_of_ne hint).mp hinst)
        · exact Or.inl rfl
  have hmem : x ∈ List.replicate k none ++ x :: rest := by simp
  have hx := hxs x hmem
  cases hx with
  | int hi =>
    obtain rfl := Option.some.inj ht
    refine .longs rfl fun y hy => ?_
    rcases hrest y hy with hinst | ⟨-, hallows⟩
    · exact isInstance_int.mp hinst
    · cases hallows
  | bool b =>
    obtain rfl := Option.some.inj ht
    have hbools : ∀ y ∈ rest, y.pyType = .bool := fun y hy => by
      rcases hrest y hy with hinst | ⟨-, hallows⟩
      · exact (isInstance_of_ne (by simp)).mp hinst
      · cases hallows
    obtain ⟨bs, rfl⟩ := eq_map_bool hbools
    exact .bools rfl
  | str s => exact .nullable (Or.inl rfl) ht rfl ⟨_, hmem, rfl⟩ (hnullable (by simp) rfl)
  | uuid u => exact .nullable (Or.inr rfl) ht rfl ⟨_, hmem, rfl⟩ (hnullable (by simp) rfl)
  | none => exact absurd rfl hne
  | _ => cases ht

theorem ArrayOf.exists_uniform {xs : List PyValue} {t : DataType} (h : ArrayOf xs t) :
    ∃ u, Uniform u xs ∧ pythonArrayMap u = some t := by
  cases h with
  | @longs k i rest hxs hrest =>
    exact ⟨.int, ⟨k, .int i, rest, hxs, rfl, by simp, fun y hy =>
      Or.inl (isInstance_int.mpr (hrest y hy))⟩, rfl⟩
  | @bools k b bs hxs =>
    refine ⟨.bool, ⟨k, .bool b, bs.map .bool, hxs, rfl, by simp, fun y hy => ?_⟩, rfl⟩
    obtain ⟨c, -, rfl⟩ := List.mem_map.mp hy
    exact Or.inl rfl
  | @nullable u t std hu ht hstd hsome hxs =>
    refine ⟨u, ?_, ht⟩
    have hne : u ≠ .noneType := by
      rcases hu with rfl | rfl <;> simp
    rcases leading_none xs with hnone | ⟨k, x, rest, hx, rfl⟩
    · obtain ⟨x, hx, rfl⟩ := hsome
      rw [hnone] at hx
      obtain rfl := List.eq_of_mem_replicate hx
      exact absurd rfl hne
    · refine ⟨k, x, rest, rfl, ?_, hne, fun y hy => ?_⟩
      · exact (hxs x (by simp)).resolve_left hx
      · rcases hxs y (by simp [hy]) with rfl | rfl
        · refine Or.inr ⟨rfl, ?_⟩
          rcases hu with rfl | rfl <;> rfl
        · exact Or.inl ((isInstance_of_ne (by rcases hu with h | h <;> simp [h])).mpr rfl)

theorem mapPythonType_of_array {v : PyValue} {xs : List PyValue} {t : DataType}
    (hv : v.elements? = some xs) (h : ArrayOf xs t) : v.mapPythonType = .ok t :=
  (mapPythonType_elements_iff hv).mpr (Or.inl h.exists_uniform)

theorem Plain.range_of_toInt {v : PyValue} (hv : Plain v) {i : ℤ} (hi : v.toInt? = some i) :
    Scalar.longlong.Range i := by
  cases hv with
  | bool b =>
    obtain rfl := Option.some.inj hi
    cases b <;> decide
  | int h =>
    obtain rfl := Option.some.inj hi
    exact h
  | _ => cases hi

theorem Plain.elements {v : PyValue} (hv : Plain v) {xs : List PyValue}
    (hxs : v.elements? = some xs) : ∀ x ∈ xs, Plain x := by
  refine hv.iterate ?_
  cases v <;> first | exact hxs | cases hxs

theorem Plain.sequence {v : PyValue} (hv : Plain v) {xs : List PyValue}
    (hxs : v.sequence? = some xs) : ∀ x ∈ xs, Plain x := by
  refine hv.elements ?_
  cases v <;> first | exact hxs | cases hxs

/-! ### What is written and what is read back -/

/- The representation up to which values are compared: a tuple is the list of its elements, and
a boolean is the integer that equals it. -/
mutual
def rep : PyValue → PyValue
  | bool b => int (if b then 1 else 0)
  | tuple xs => list (repAll xs)
  | list xs => list (repAll xs)
  | dict kvs => dict (repPairs kvs)
  | v => v
def repAll : List PyValue → List PyValue
  | [] => []
  | x :: xs => rep x :: repAll xs
def repPairs : List (PyValue × PyValue) → List (PyValue × PyValue)
  | [] => []
  | (k, v) :: kvs => (rep k, rep v) :: repPairs kvs
end

@[simp] theorem repAll_eq (xs : List PyValue) : repAll xs = xs.map rep := by
  induction xs with
  | nil => rfl
  | cons x xs ih => rw [repAll, ih, List.map_cons]

@[simp] theorem repPairs_eq (kvs : List (PyValue × PyValue)) :
    repPairs kvs = kvs.map fun p => (p.1.rep, p.2.rep) := by
  induction kvs with
  | nil => rfl
  | cons p kvs ih => rw [repPairs, ih, List.map_cons]

theorem rep_of_toInt {v : PyValue} {i : ℤ} (hi : v.toInt? = some i) : v.rep = .int i := by
  cases v <;> simp only [toInt?, reduceCtorEq, Option.some.injEq] at hi <;> subst hi <;> rfl

/-- Values that are written without a hint. A dict alone is written as an array or as a
collection of its keys; the last two are the only ones that count as a pair of an integer and
an iterable. -/
inductive Writable : PyValue → Prop
  | none : Writable none
  | bool (b : Bool) : Writable (bool b)
  | int (i : ℤ) : Writable (int i)
  | str (s : PyStr) : Writable (str s)
  | uuid (u : UUID) : Writable (uuid u)
  | bytes {b : Bytes} (hlen : b.length < 2 ^ 32) : Writable (bytes b)
  | longs {v : PyValue} {i : ℤ} {xs : List PyValue} (hv : v.elements? = some (.int i :: xs))
      (hxs : ∀ x ∈ xs, x.toInt?.isSome) (hlen : xs.length + 1 < 2 ^ 32) : Writable v
  | bools {v : PyValue} {k : ℕ} {b : Bool} {bs : List Bool}
      (hv : v.elements? = some (List.replicate k .none ++ (b :: bs).map .bool))
      (hlen : k + (bs.length + 1) < 2 ^ 32) : Writable v
  | nullable {v : PyValue} {xs : List PyValue} {t : PyType} (ht : t = .str ∨ t = .uuid)
      (hv : v.elements? = some xs) (hsome : ∃ x ∈ xs, x.pyType = t)
      (hxs : ∀ x ∈ xs, x = .none ∨ x.pyType = t) (hlen : xs.length < 2 ^ 32) : Writable v
  | collection {v a w : PyValue} {k : ℤ} {ys : List PyValue} (hv : v.sequence? = some [a, w])
      (ha : a.toInt? = some k) (hk : Scalar.byte.Range k) (hw : w.iterate = some ys)
      (hdict : w.pyType ≠ .dict) (hys : ∀ y ∈ ys, Writable y) (hlen : ys.length < 2 ^ 32) :
      Writable v
  | map {v a : PyValue} {k : ℤ} {kvs : List (PyValue × PyValue)}
      (hv : v.sequence? = some [a, .dict kvs]) (ha : a.toInt? = some k)
      (hk : Scalar.byte.Range k) (hks : ∀ p ∈ kvs, Writable p.1) (hvs : ∀ p ∈ kvs, Writable p.2)
      (hlen : kvs.length < 2 ^ 32) : Writable v
  | zeroOne {x y : PyValue} (hx : x.toInt?.isSome) (hy : y.iterate.isSome)
      (hdict : y.pyType ≠ .dict) : Writable (dict [(.bool false, x), (.int 1, y)])
  | oneZero {x y : PyValue} (hx : x.toInt?.isSome) (hy : y.iterate.isSome)
      (hdict : y.pyType ≠ .dict) : Writable (dict [(.bool true, y), (.int 0, x)])

/-- Values that are read back. -/
inductive Kept : PyValue → Prop
  | none : Kept none
  | bool (b : Bool) : Kept (bool b)
  | int (i : ℤ) : Kept (int i)
  | uuid (u : UUID) : Kept (uuid u)
  | str {s : PyStr} (hs : '\x00' ∉ s) (hlen : (utf8Encode s).length < 2 ^ 31) : Kept (str s)
  | bytes {b : Bytes} (hlen : b.length < 2 ^ 32) : Kept (bytes b)
  | longs {v : PyValue} {i : ℤ} {xs : List PyValue} (hv : v.sequence? = some (.int i :: xs))
      (hxs : ∀ x ∈ xs, x.toInt?.isSome) (hlen : xs.length + 1 < 2 ^ 32) : Kept v
  | bools {v : PyValue} {b : Bool} {bs : List Bool}
      (hv : v.sequence? = some ((b :: bs).map .bool)) (hlen : bs.length + 1 < 2 ^ 31) : Kept v
  | nullable {v : PyValue} {xs : List PyValue} {t : PyType} (ht : t = .str ∨ t = .uuid)
      (hv : v.sequence? = some xs) (hsome : ∃ x ∈ xs, x.pyType = t)
      (hxs : ∀ x ∈ xs, x = .none ∨ x.pyType = t) (hkept : ∀ x ∈ xs, Kept x)
      (hlen : xs.length < 2 ^ 31) : Kept v
  | collection {v a w : PyValue} {k : ℤ} {ys : List PyValue} (hv : v.sequence? = some [a, w])
      (ha : a.toInt? = some k) (hk : Scalar.byte.Range k) (hw : w.sequence? = some ys)
      (hys : ∀ y ∈ ys, Kept y) (hlen : ys.length < 2 ^ 31) : Kept v
  | map {v a : PyValue} {k : ℤ} {kvs : List (PyValue × PyValue)}
      (hv : v.sequence? = some [a, .dict kvs]) (ha : a.toInt? = some k)
      (hk : Scalar.byte.Range k) (hks : ∀ p ∈ kvs, Kept p.1) (hvs : ∀ p ∈ kvs, Kept p.2)
      (hscalar : ∀ p ∈ kvs, p.1.sequence? = Option.none) (hlen : kvs.length < 2 ^ 31) : Kept v

/-- Plain values that are read back as they were, and not only up to `rep`: an array is a list,
and only a pair of a number and a list or a dict is a tuple. -/
inductive Restored : PyValue → Prop
  | none : Restored none
  | bool (b : Bool) : Restored (bool b)
  | int {i : ℤ} (hi : Scalar.longlong.Range i) : Restored (int i)
  | uuid (u : UUID) : Restored (uuid u)
  | str {s : PyStr} (hs : '\x00' ∉ s) (hlen : (utf8Encode s).length < 2 ^ 31) : Restored (str s)
  | bytes {b : Bytes} (hlen : b.length < 2 ^ 32) : Restored (bytes b)
  | longs {is : List ℤ} (hne : is ≠ []) (his : ∀ i ∈ is, Scalar.longlong.Range i)
      (hlen : is.length < 2 ^ 32) : Restored (list (is.map .int))
  | bools {bs : List Bool} (hne : bs ≠ []) (hlen : bs.length < 2 ^ 31) :
      Restored (list (bs.map .bool))
  | nullable {xs : List PyValue} {t : PyType} (ht : t = .str ∨ t = .uuid)
      (hsome : ∃ x ∈ xs, x.pyType = t) (hxs : ∀ x ∈ xs, x = .none ∨ x.pyType = t)
      (hrest : ∀ x ∈ xs, Restored x) (hlen : xs.length < 2 ^ 31) : Restored (list xs)
  | collection {k : ℤ} {ys : List PyValue} (hk : Scalar.byte.Range k)
      (hys : ∀ y ∈ ys, Restored y) (hlen : ys.length < 2 ^ 31) :
      Restored (tuple [.int k, .list ys])
  | map {k : ℤ} {kvs : List (PyValue × PyValue)} (hk : Scalar.byte.Range k)
      (hks : ∀ p ∈ kvs, Restored p.1) (hvs : ∀ p ∈ kvs, Restored p.2)
      (hkeys : ∃ keys : List Key, kvs.map (fun p => p.1.hashKey) = keys.map some ∧ keys.Nodup)
      (hlen : kvs.length < 2 ^ 31) : Restored (tuple [.int k, .dict kvs])

theorem range_longlong_of_byte {k : ℤ} (hk : Scalar.byte.Range k) : Scalar.longlong.Range k := by
  simp only [Scalar.Range, Scalar.isSigned, Scalar.size, SignedRange, if_true] at hk ⊢
  omega

theorem Restored.plain {v : PyValue} (hv : Restored v) : Plain v := by
  induction hv with
  | none => exact .none
  | bool b => exact .bool b
  | int hi => exact .int hi
  | uuid u => exact .uuid u
  | str _ _ => exact .str _
  | bytes _ => exact .bytes _
  | longs _ his _ =>
    refine .list fun x hx => ?_
    obtain ⟨i, hi, rfl⟩ := List.mem_map.mp hx
    exact .int (his i hi)
  | bools _ _ =>
    refine .list fun x hx => ?_
    obtain ⟨b, -, rfl⟩ := List.mem_map.mp hx
    exact .bool b
  | nullable _ _ _ _ _ ih => exact .list ih
  | collection hk _ _ ih =>
    refine .tuple ?_
    simp only [List.forall_mem_cons]
    exact ⟨.int (range_longlong_of_byte hk), .list ih, by simp⟩
  | map hk _ _ hkeys _ ihk ihv =>
    refine .tuple ?_
    simp only [List.forall_mem_cons]
    exact ⟨.int (range_longlong_of_byte hk), .dict ihk ihv hkeys, by simp⟩

/-- A sequence that is read back as it was: a list of values that hold no others, or a pair of a
number and a list or a dict. -/
theorem Restored.sequence_cases {v : PyValue} {xs : List PyValue} (hv : Restored v)
    (hxs : v.sequence? = some xs) :
    (v = list xs ∧ ∀ x ∈ xs, x.elements? = Option.none) ∨
      (∃ k ys, xs = [.int k, .list ys] ∧ v = tuple xs ∧ ∀ y ∈ ys, Restored y) ∨
      ∃ k kvs, xs = [.int k, .dict kvs] ∧ v = tuple xs ∧
        ∀ p ∈ kvs, Restored p.1 ∧ Restored p.2 := by
  cases hv with
  | longs | bools =>
    obtain rfl := Option.some.inj hxs
    refine Or.inl ⟨rfl, fun x hx => ?_⟩
    obtain ⟨y, -, rfl⟩ := List.mem_map.mp hx
    rfl
  | nullable ht _ hall _ _ =>
    obtain rfl := Option.some.inj hxs
    refine Or.inl ⟨rfl, fun x hx => ?_⟩
    rcases hall x hx with rfl | rfl
    · rfl
    · cases x <;> simp [pyType] at ht <;> rfl
  | @collection k ys _ hys _ =>
    obtain rfl := Option.some.inj hxs
    exact Or.inr (Or.inl ⟨k, ys, rfl, rfl, hys⟩)
  | @map k kvs _ hks hvs _ _ =>
    obtain rfl := Option.some.inj hxs
    exact Or.inr (Or.inr ⟨k, kvs, rfl, rfl, fun p hp => ⟨hks p hp, hvs p hp⟩⟩)
  | _ => cases hxs

theorem Restored.eq_list {v : PyValue} {xs : List PyValue} (h : Restored v)
    (hv : v.sequence? = some xs) (hxs : ∀ x ∈ xs, x.elements? = Option.none) : v = .list xs := by
  rcases h.sequence_cases hv with ⟨hlist, -⟩ | ⟨k, ys, rfl, -⟩ | ⟨k, kvs, rfl, -⟩
  · exact hlist
  · cases hxs (.list ys) (by simp)
  · cases hxs (.dict kvs) (by simp)

/-- Lists, and the tuples that are read, cannot be keys. -/
theorem Restored.scalar_of_hashable {v : PyValue} (hv : Restored v) {k : Key}
    (hk : v.hashKey = some k) : v.sequence? = Option.none := by
  cases hv with
  | longs | bools | nullable | collection | map => simp [hashKey, hashKeys] at hk
  | _ => rfl

theorem Restored.kept {v : PyValue} (hv : Restored v) : Kept v := by
  induction hv with
  | none => exact .none
  | bool b => exact .bool b
  | int _ => exact .int _
  | uuid u => exact .uuid u
  | str hs hlen => exact .str hs hlen
  | bytes hlen => exact .bytes hlen
  | @longs is hne his hlen =>
    cases is with
    | nil => exact absurd rfl hne
    | cons i is =>
      refine .longs (v := list (List.map PyValue.int (i :: is))) rfl (fun x hx => ?_)
        (by simpa using hlen)
      obtain ⟨j, -, rfl⟩ := List.mem_map.mp hx
      rfl
  | @bools bs hne hlen =>
    cases bs with
    | nil => exact absurd rfl hne
    | cons b bs => exact .bools rfl (by simpa using hlen)
  | nullable ht hsome hxs _ hlen ih => exact .nullable ht rfl hsome hxs ih hlen
  | collection hk _ hlen ih => exact .collection rfl rfl hk rfl ih hlen
  | @map k kvs hk hks _ hkeys hlen ihk ihv =>
    refine .map rfl rfl hk ihk ihv (fun p hp => ?_) hlen
    obtain ⟨keys, hkeys, -⟩ := hkeys
    have hmem : p.1.hashKey ∈ keys.map some := hkeys ▸ List.mem_map_of_mem hp
    obtain ⟨key, -, hkey⟩ := List.mem_map.mp hmem
    exact (hks p hp).scalar_of_hashable hkey.symm

/-- A value that is `Kept` is read back as it was, if it holds no other value. -/
theorem Kept.restored_of_scalar {v : PyValue} (hv : Kept v) (hp : Plain v)
    (hscalar : v.sequence? = Option.none) : Restored v := by
  cases hv with
  | none => exact .none
  | bool b => exact .bool b
  | int i => exact .int (hp.range_of_toInt rfl)
  | uuid u => exact .uuid u
  | str hs hlen => exact .str hs hlen
  | bytes hlen => exact .bytes hlen
  | longs hv | bools hv | nullable _ hv | collection hv | map hv =>
    rw [hv] at hscalar
    cases hscalar

end PyValue

end PyGridGain
