import PyGridGain.Codec.Elements
import PyGridGain.Codec.InferenceWrites

/-! What is read of a value that was written without a hint: a value that is `Kept` comes back,
and one that comes back is `Kept`. -/

namespace PyGridGain

open CObj PyValue StreamM

/-! ### Values that stand for each other -/

/-- `x` stands for `v`. The lists that stand for tuples are not hashable. -/
structure StandsFor (v x : PyValue) : Prop where
  rep : x.rep = v.rep
  scalar : v.sequence? = Option.none → x = v
  unhashable : v.sequence? ≠ Option.none → x.hashKey = Option.none

theorem StandsFor.refl {v : PyValue} (hv : v.sequence? = Option.none) : StandsFor v v :=
  ⟨rfl, fun _ => rfl, fun h => absurd hv h⟩

theorem rep_list_iff {v : PyValue} {ys : List PyValue} :
    (PyValue.list ys).rep = v.rep ↔
      ∃ xs, v.sequence? = some xs ∧ ys.map PyValue.rep = xs.map PyValue.rep := by
  cases v <;> simp [PyValue.rep, sequence?]

/-- A list stands for a sequence of the same elements. -/
theorem StandsFor.of_list {v : PyValue} {xs ys : List PyValue} (hv : v.sequence? = some xs)
    (h : ys.map PyValue.rep = xs.map PyValue.rep) : StandsFor v (.list ys) where
  rep := rep_list_iff.mpr ⟨xs, hv, h⟩
  scalar hn := by
    rw [hv] at hn
    cases hn
  unhashable _ := rfl

/-- A hint and a content, which stand for a pair of both. -/
theorem pair_rep_iff {v x : PyValue} {k : ℤ} :
    (PyValue.tuple [.int k, x]).rep = v.rep ↔
      ∃ a w, v.sequence? = some [a, w] ∧ a.rep = .int k ∧ x.rep = w.rep := by
  have htuple : (PyValue.tuple [.int k, x]).rep = (PyValue.list [.int k, x]).rep := by
    simp only [PyValue.rep]
  rw [htuple, rep_list_iff]
  constructor
  · rintro ⟨xs, hv, hxs⟩
    have hlen : xs.length = 2 := by simpa using (congrArg List.length hxs).symm
    obtain ⟨a, w, rfl⟩ := List.length_eq_two.mp hlen
    simp only [List.map_cons, List.map_nil, PyValue.rep, List.cons.injEq, and_true] at hxs
    exact ⟨a, w, hv, hxs.1.symm, hxs.2⟩
  · rintro ⟨a, w, hv, ha, hw⟩
    exact ⟨[a, w], hv, by simp [ha, hw, PyValue.rep]⟩

theorem StandsFor.of_pair {v a w x : PyValue} {k : ℤ} (hv : v.sequence? = some [a, w])
    (ha : a.toInt? = some k) (hx : x.rep = w.rep) (hhash : x.hashKey = Option.none) :
    StandsFor v (.tuple [.int k, x]) where
  rep := pair_rep_iff.mpr ⟨a, w, hv, rep_of_toInt ha, hx⟩
  scalar hn := by
    rw [hv] at hn
    cases hn
  unhashable _ := by simp [PyValue.hashKey, PyValue.hashKeys, hhash]

section Known
variable {r : Reader} {v x : PyValue} {d : Bytes} {xs : List PyValue}

/-- Where the bytes `d` of `v` stand, nothing equal to `v` is read unless `v` is `Kept`. -/
def OnlyKept (r : Reader) (v : PyValue) (d : Bytes) : Prop :=
  ∀ {n m : ℕ} {client : Option Client} {s s' : BinaryStream} {c : Layout} {x : PyValue},
    s.emptyView = false → At s.buf s.pos d → d.length ≤ n → d.length ≤ m →
    r.parse n s = .ok (c, s') → s.pos + c.size ≤ s.buf.length →
    r.toPython client m ⟨c, sliceAt s.buf s.pos c.size⟩ = .ok x → x.rep = v.rep → v.Kept

/-- What the reader makes of the bytes `d` of `v`: a value that is `Kept` comes back, and no
other value comes back. -/
structure Known (r : Reader) (v : PyValue) (d : Bytes) : Prop where
  kept : v.Kept → ∃ x, Recovers r d (.ok x) ∧ StandsFor v x
  lost : OnlyKept r v d

theorem onlyKept_of_kept (hv : v.Kept) : OnlyKept r v d := fun _ _ _ _ _ _ _ _ => hv

theorem onlyKept_of_recovers (h : Recovers r d (.ok x)) (hlost : x.rep = v.rep → v.Kept) :
    OnlyKept r v d := by
  intro n m client s s' c y hs hat hn hm hp _ hy hrep
  obtain ⟨-, -, hx⟩ := h.gives hn hm hs hat hp client
  obtain rfl := Except.ok.inj (hx.symm.trans hy)
  exact hlost hrep

/-- The bytes of a value that can be read are known by what is read. -/
theorem known_of_recovers (h : Recovers r d (.ok x)) (hlost : x.rep = v.rep → v.Kept)
    (hkept : v.Kept → StandsFor v x) : Known r v d where
  kept hv := ⟨x, h, hkept hv⟩
  lost := onlyKept_of_recovers h hlost

/-- Elements that come back one after another are all `Kept`. -/
theorem elements_kept {ds : List Bytes} (h : List.Forall₂ (Known r) xs ds) {n m i : ℕ}
    (hn : ∀ d ∈ ds, d.length ≤ n) (hm : ∀ d ∈ ds, d.length ≤ m) {client : Option Client}
    {s s' : BinaryStream} {ls : List Layout} {ys : List PyValue} (hs : s.emptyView = false)
    (hat : At s.buf s.pos ds.flatten)
    (hp : parseElements (r.parse n) i xs.length s = .ok (named i ls, s'))
    (hfit : s.pos + CType.sizeFields (named i ls) ≤ s.buf.length)
    (hys : (objectsAt s.buf s.pos ls).mapM (r.toPython client m) = .ok ys)
    (hrep : ys.map PyValue.rep = xs.map PyValue.rep) :
    List.Forall₂ (fun v y => v.Kept ∧ StandsFor v y) xs ys := by
  induction h generalizing i s s' ls ys with
  | nil =>
    obtain rfl := List.map_eq_nil_iff.mp hrep
    exact .nil
  | @cons v d xs ds hv _ ih =>
    rw [List.forall_mem_cons] at hn hm
    rw [List.flatten_cons] at hat
    obtain ⟨c, u, hc, hp⟩ := bind_eq_ok hp
    obtain ⟨cs, u', hcs, hp⟩ := bind_eq_ok hp
    cases ls with
    | nil => cases hp
    | cons c' ls =>
      rw [named_cons] at hp hfit
      obtain ⟨⟨⟩, rfl⟩ := Prod.mk.inj (Except.ok.inj hp)
      rw [CType.sizeFields] at hfit
      obtain ⟨y, ys', hy, hys', rfl⟩ := mapM_cons_ok.mp hys
      obtain ⟨hhead, htail⟩ := List.cons.inj hrep
      have hkept := hv.lost hs hat.left hn.1 hm.1 hc (by omega) hy hhead
      obtain ⟨x, hx, hrepr⟩ := hv.kept hkept
      obtain ⟨hsize, rfl, hgives⟩ := hx.gives hn.1 hm.1 hs hat.left hc client
      obtain rfl := Except.ok.inj (hgives.symm.trans hy)
      refine .cons ⟨hkept, hrepr⟩ (ih hn.2 hm.2 (s := s.skip d.length) hs hat.right hcs ?_ ?_ htail)
      · rw [BinaryStream.skip_pos, BinaryStream.skip_buf, ← hsize]
        omega
      · rw [BinaryStream.skip_pos, BinaryStream.skip_buf, ← hsize]
        exact hys'

end Known

/-! ### Single values -/

section Leaves
variable [Python] [OtherCodecs] {t std : DataType} {v : PyValue} {d : Bytes}

/-- A class without nested values and without objects. -/
theorem recovers_of_decodes {cl : Client} {cf : Bool} {c : Layout} (hv : Encodable cl cf t v)
    (hne : v ≠ .none) (hobjects : objects t v = []) (hd : Decodes cl cf t v c)
    (hparse : ∀ n, ∀ s : BinaryStream, parseNotNull (parseN n) t s = .ok (c, s.skip c.size)) :
    Recovers (classReader t) (encode cf t v) (.ok (decoded Scalar.byte.wrap t v)) ∧
      Recovers anyReader (encode cf t v) (.ok (decoded Scalar.byte.wrap t v)) := by
  obtain ⟨rest, hcons⟩ := hv.encode_cons
  rw [firstCode_of_ne hne] at hcons
  have ht := hv.ne_null hne
  have hpos : ∀ n, (encode cf t v).length ≤ n → ∃ m, n = m + 1 := fun n hn =>
    Nat.exists_eq_add_of_le' ((List.length_pos_iff.mpr hv.encode_ne_nil).trans_le hn)
  have hknows : ∀ client, Knows client cl t v := fun client h => absurd hobjects h
  refine ⟨⟨c, hd.size.symm, fun n hn s hs hat => ?_, fun client n hn =>
    hd.toPython _ (hknows client) n hn⟩, c, hd.size.symm, fun n hn s hs hat => ?_,
    fun client n hn => anyToPython_of_decodes hv hd (hknows client) hn⟩ <;>
    obtain ⟨m, rfl⟩ := hpos n hn
  · rw [classReader_parse ht hs (hcons ▸ hat), hparse]
  · rw [anyReader_parse ht hs (hcons ▸ hat), hparse]

/-- What any client reads. -/
def someClient : Client := ⟨none, fun _ => [], fun _ => []⟩

theorem recovers_bool (b : Bool) :
    Recovers anyReader
      (DataType.boolObject.typeCode :: Scalar.byte.store (if b then 1 else 0)) (.ok (.bool b)) := by
  have hv : Encodable someClient true .boolObject (.bool b) := .bool b
  have h := (recovers_of_decodes hv (by simp) (by simp only [objects]) (decodes_bool b)
    fun _ _ => rfl).2
  simpa [encode, decoded] using h

theorem recovers_uuid (u : UUID) :
    Recovers (classReader .uuidObject) (DataType.uuidObject.typeCode :: uuidStore u)
        (.ok (.uuid u)) ∧
      Recovers anyReader (DataType.uuidObject.typeCode :: uuidStore u) (.ok (.uuid u)) := by
  have hv : Encodable someClient true .uuidObject (.uuid u) := .uuid u
  have h := recovers_of_decodes hv (by simp) (by simp only [objects]) (decodes_uuid u)
    fun _ _ => rfl
  simpa [encode, decoded] using h

theorem recovers_bytes {b : Bytes} (hlen : b.length < 2 ^ 32) :
    Recovers anyReader (DataType.byteArrayObject.typeCode :: (Scalar.int.store b.length ++ b))
      (.ok (.bytes b)) := by
  have hb : b.length = b.length * Scalar.byte.size := by simp [Scalar.size]
  refine (recovers_array (t := .byteArrayObject) (s := .byte) (by simp) hb hlen (fun _ => rfl)
    fun client n => ?_).2
  show byteArrayToPython _ = _
  rw [byteArrayToPython, attr_arrayParts hb, except_bind]

omit [Python] [OtherCodecs] in
/-- What a text is read from, where the field of its length holds no more than `k`. -/
theorem string_object {x : PyStr} {k : ℕ} {buf : Bytes} {pos : ℕ}
    (hat : At buf pos (stringBytes x)) (hfit : pos + (stringLayout k).size ≤ buf.length) :
    ∃ b : Bytes, b.length = k ∧ (⟨stringLayout k, sliceAt buf pos (stringLayout k).size⟩ : CObject) =
      ofParts (stringParts (utf8Encode x).length k b) := by
  have hhead : At buf pos ([DataType.string.typeCode] ++ Scalar.int.store (utf8Encode x).length) :=
    At.left (b := charsStore (utf8Encode x).length (utf8Encode x)) hat
  have hsize : (stringLayout k).size =
      ([DataType.string.typeCode] ++ Scalar.int.store (utf8Encode x).length).length + k := by
    simp [stringLayout, CType.size, CType.sizeFields, Scalar.size]
    omega
  rw [hsize] at hfit
  refine ⟨_, sliceAt_length (n := k) (by rw [Nat.add_assoc]; exact hfit), ?_⟩
  rw [hsize, sliceAt_add, hhead.slice]
  simp [ofParts, stringParts, stringLayout, codePart, scalarPart]

omit [Python] [OtherCodecs] in
/-- A text that is too long for the field of its length comes back as a shorter one. -/
theorem long_str_lost {x : PyStr} (hlong : 2 ^ 32 ≤ (utf8Encode x).length) {k : ℕ} {b : Bytes}
    (hk : k < 2 ^ 32) (hb : b.length = k) :
    stringToPython (ofParts (stringParts (utf8Encode x).length k b)) ≠ .ok (.str x) := by
  rw [stringToPython_parts hb]
  intro h
  split_ifs at h with hpos
  · split at h
    · rename_i s hs
      obtain rfl := PyValue.str.inj (Except.ok.inj h)
      have hle : (b.takeWhile (· ≠ 0)).length ≤ b.length := (List.takeWhile_sublist _).length_le
      rw [← utf8Encode_of_utf8Decode hs] at hle
      omega
    · cases h
  · obtain rfl := PyValue.str.inj (Except.ok.inj h)
    exact absurd hlong (by decide)

omit [Python] [OtherCodecs] in
theorem kept_str_iff {x : PyStr} :
    (PyValue.str x).Kept ↔ '\x00' ∉ x ∧ (utf8Encode x).length < 2 ^ 31 := by
  constructor
  · intro h
    cases h with
    | str hs hlen => exact ⟨hs, hlen⟩
    | longs hv | bools hv | nullable _ hv | collection hv | map hv => cases hv
  · exact fun h => .str h.1 h.2

omit [Python] [OtherCodecs] in
theorem str_rep_iff {x : PyStr} {y : PyValue} : y.rep = (PyValue.str x).rep ↔ y = .str x := by
  cases y <;> simp [PyValue.rep]

/-- A reader that goes on as the class of texts does where a text stands. -/
theorem known_long_str {x : PyStr} (hlong : 2 ^ 32 ≤ (utf8Encode x).length) {r : Reader}
    (hparse : ∀ n, ∀ s : BinaryStream, s.emptyView = false → At s.buf s.pos (stringBytes x) →
      r.parse (n + 1) s = parseNotNull (parseN n) .string s)
    (hpy : ∀ client n o, CObj.getInt o .typeCode = some (DataType.string.typeCode.toNat : ℤ) →
      r.toPython client (n + 1) o = stringToPython o) : Known r (.str x) (stringBytes x) where
  kept h := by
    have hlen := (kept_str_iff.mp h).2
    omega
  lost := by
    intro n m client s s' c y hs hat hn hm hp hfit hy hrep
    rw [stringBytes, List.length_cons] at hn hm
    obtain ⟨n, rfl⟩ := Nat.exists_eq_add_of_le' ((Nat.le_add_left 1 _).trans hn)
    obtain ⟨m, rfl⟩ := Nat.exists_eq_add_of_le' ((Nat.le_add_left 1 _).trans hm)
    have hlength : peekLength 1 s = .ok ((utf8Encode x).length % 2 ^ 32, s) :=
      peekLength_mod hs (At.right (a := [DataType.string.typeCode]) hat).left
    have hlayout : parseNotNull (parseN n) .string s =
        seekPast (stringLayout ((utf8Encode x).length % 2 ^ 32)) s := bind_ok hlength
    rw [hparse n s hs hat, hlayout] at hp
    obtain ⟨rfl, -⟩ := Prod.mk.inj (Except.ok.inj hp)
    obtain ⟨b, hb, hobject⟩ := string_object hat hfit
    rw [hobject, hpy client m _ (getInt_code (stringParts_filled hb) (stringParts_nodup _ _ _)
      (typeCode_lt _) List.mem_cons_self), str_rep_iff.mp hrep] at hy
    exact absurd hy (long_str_lost hlong (Nat.mod_lt _ (by decide)) hb)

/-- A text as an element of any class, or of the class of texts. -/
theorem known_str (x : PyStr) :
    Known (classReader .string) (.str x) (stringBytes x) ∧
      Known anyReader (.str x) (stringBytes x) := by
  by_cases hlen : (utf8Encode x).length < 2 ^ 32
  · obtain ⟨hclass, hany⟩ := recovers_str hlen
    have hlost : (PyValue.str (stringRead x)).rep = (PyValue.str x).rep → (PyValue.str x).Kept :=
      fun h => kept_str_iff.mpr (stringRead_eq_iff.mp (PyValue.str.inj (str_rep_iff.mp h)))
    have hkept : (PyValue.str x).Kept → StandsFor (.str x) (.str (stringRead x)) := fun h => by
      rw [stringRead_eq_iff.mpr (kept_str_iff.mp h)]
      exact .refl rfl
    exact ⟨known_of_recovers hclass hlost hkept, known_of_recovers hany hlost hkept⟩
  · have ht : DataType.string ≠ .null := by simp
    exact ⟨known_long_str (not_lt.mp hlen) (fun n s hs hat => classReader_parse ht hs hat n)
        fun client n o ho => toPythonN_succ ht ho n,
      known_long_str (not_lt.mp hlen) (fun n s hs hat => anyReader_parse ht hs hat n)
        fun client n o ho => anyReader_toPython ht ho client n⟩

omit [Python] [OtherCodecs] in
theorem known_of_self {r : Reader} (h : Recovers r d (.ok v)) (hk : v.Kept)
    (hv : v.sequence? = Option.none) : Known r v d :=
  known_of_recovers h (fun _ => hk) fun _ => .refl hv

/-- The elements of an array that may hold `None`. -/
theorem exists_known {u : PyType} (hu : u = .str ∨ u = .uuid) (hstd : pythonMap u = some std)
    {x : PyValue} (hx : x = .none ∨ x.pyType = u) :
    (x = .none ∨ x.mapPythonType = .ok std) ∧
      ∃ d, d ≠ [] ∧ Puts x d ∧ Known (classReader std) x d := by
  rcases hx with rfl | rfl
  · exact ⟨Or.inl rfl, _, by simp, puts_none, known_of_self (recovers_none std).1 .none rfl⟩
  · cases x <;> simp [pyType] at hu
    · obtain rfl := Option.some.inj hstd
      exact ⟨Or.inr rfl, _, by simp [stringBytes], puts_str _, (known_str _).1⟩
    · obtain rfl := Option.some.inj hstd
      exact ⟨Or.inr rfl, _, by simp, puts_uuid _,
        known_of_self (recovers_uuid _).1 (.uuid _) rfl⟩

end Leaves

/-! ### Arrays -/

/-- The value is written without a hint, and the reader gets `x` of what was written. -/
def ComesBack [Python] [OtherCodecs] (r : Reader) (v x : PyValue) : Prop :=
  ∃ d, d ≠ [] ∧ Puts v d ∧ Recovers r d (.ok x)

/-- The numbers that integers and booleans are. -/
def numbers (xs : List PyValue) : List ℤ := xs.map fun x => x.toInt?.getD 0

section Arrays
variable {v : PyValue} {xs : List PyValue}

theorem numbers_rep (hxs : ∀ x ∈ xs, x.toInt?.isSome) :
    ((numbers xs).map PyValue.int).map PyValue.rep = xs.map PyValue.rep := by
  rw [numbers, List.map_map, List.map_map]
  refine List.map_congr_left fun x hx => ?_
  obtain ⟨i, hi⟩ := Option.isSome_iff_exists.mp (hxs x hx)
  simp only [Function.comp_apply, hi, Option.getD_some, PyValue.rep, rep_of_toInt hi]

variable [Python] [OtherCodecs]

theorem longs_comesBack (ht : v.mapPythonType = .ok .longArrayObject) (hv : v.elements? = some xs)
    (hlen : xs.length < 2 ^ 32) (hxs : ∀ x ∈ xs, x.toInt?.isSome) (hp : ∀ x ∈ xs, Plain x) :
    ComesBack anyReader v (.list ((numbers xs).map .int)) := by
  have hrange : ∀ x ∈ xs, Scalar.longlong.Range (x.toInt?.getD 0) := fun x hx => by
    obtain ⟨i, hi⟩ := Option.isSome_iff_exists.mp (hxs x hx)
    rw [hi]
    exact (hp x hx).range_of_toInt hi
  have hpack : ∀ x ∈ xs, packSigned .longlong x = .ok (Scalar.longlong.store (x.toInt?.getD 0)) :=
    fun x hx => by
      obtain ⟨i, hi⟩ := Option.isSome_iff_exists.mp (hxs x hx)
      have hi' := hrange x hx
      rw [hi, Option.getD_some] at hi' ⊢
      simp only [packSigned, hi, hi', if_true]
  have hwrap : (numbers xs).map (fun i => PyValue.int (Scalar.longlong.wrap i)) =
      (numbers xs).map .int := by
    refine List.map_congr_left fun i hi => ?_
    obtain ⟨x, hx, rfl⟩ := List.mem_map.mp hi
    rw [Scalar.wrap_eq_iff.mpr (hrange x hx)]
  have hread := primitiveArrayToPython_of_items
    (dataItems_array DataType.longArrayObject.typeCode .longlong (numbers xs))
  rw [hwrap] at hread
  refine ⟨_, by simp, puts_array ht hv (fun _ _ => rfl) hlen hpack, ?_⟩
  have hbytes : xs.flatMap (fun x => Scalar.longlong.store (x.toInt?.getD 0)) =
      (numbers xs).flatMap Scalar.longlong.store := by rw [numbers, List.flatMap_map]
  have hsize := flatMap_store_length .longlong (numbers xs)
  have hlength : (numbers xs).length = xs.length := List.length_map _
  rw [hbytes, ← hlength]
  exact (recovers_array (t := .longArrayObject) (by simp) hsize (hlength ▸ hlen) (fun _ => rfl)
    fun _ _ => hread).2

theorem bools_comesBack (ht : v.mapPythonType = .ok .boolArrayObject) (hv : v.elements? = some xs)
    (hlen : xs.length < 2 ^ 32) :
    ComesBack anyReader v
      (.list (if xs.length < 2 ^ 31 then (xs.map PyValue.truthy).map .bool else [])) := by
  have hpack : ∀ x ∈ xs, packBool x = .ok (Scalar.byte.store (boolNumber x.truthy)) := fun x _ => by
    rw [packBool]
    cases x.truthy <;> rfl
  refine ⟨_, by simp, puts_array ht hv (fun _ _ => rfl) hlen hpack, ?_⟩
  have hbytes : xs.flatMap (fun x => Scalar.byte.store (boolNumber x.truthy)) =
      ((xs.map PyValue.truthy).map boolNumber).flatMap Scalar.byte.store := by
    rw [List.flatMap_map, List.flatMap_map]
  have hlength : (xs.map PyValue.truthy).length = xs.length := List.length_map _
  have hsize : (((xs.map PyValue.truthy).map boolNumber).flatMap Scalar.byte.store).length =
      (xs.map PyValue.truthy).length * Scalar.byte.size := by
    rw [flatMap_store_length, List.length_map]
  rw [← hlength] at hlen ⊢
  rw [hbytes]
  exact (recovers_array (t := .boolArrayObject) (by simp) hsize hlen (fun _ => rfl) fun _ _ =>
    boolArrayToPython_parts hlen).2

end Arrays

end PyGridGain
