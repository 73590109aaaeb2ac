import PyGridGain.Codec.Leaves
import PyGridGain.Codec.Follows

/-! What stands one after another in a container: the structures that a parser builds for it,
each over its bytes, and the values they are converted to. -/

namespace PyGridGain

open CObj StreamM

/-! ### Loops that stop at an error -/

section Loops
variable {α β γ ε : Type}

theorem mapM_cons_ok {f : α → Except ε β} {a : α} {l : List α} {ys : List β} :
    (a :: l).mapM f = .ok ys ↔ ∃ y ys', f a = .ok y ∧ l.mapM f = .ok ys' ∧ ys = y :: ys' := by
  rw [List.mapM_cons, except_bind_eq_ok]
  constructor
  · rintro ⟨y, hy, h⟩
    obtain ⟨ys', hys', h⟩ := except_bind_eq_ok.mp h
    exact ⟨y, ys', hy, hys', (Except.ok.inj h).symm⟩
  · rintro ⟨y, ys', hy, hys', rfl⟩
    exact ⟨y, hy, except_bind_eq_ok.mpr ⟨ys', hys', rfl⟩⟩

theorem mapM_ok_length {f : α → Except ε β} {l : List α} {ys : List β} (h : l.mapM f = .ok ys) :
    ys.length = l.length := by
  induction l generalizing ys with
  | nil =>
    obtain rfl := Except.ok.inj h
    rfl
  | cons a l ih =>
    obtain ⟨y, ys', -, hys', rfl⟩ := mapM_cons_ok.mp h
    rw [List.length_cons, List.length_cons, ih hys']

theorem mapM_range {f : ℕ → Except ε β} {g : α → Except ε β} {l : List α}
    (h : ∀ i (hi : i < l.length), f i = g l[i]) : (List.range l.length).mapM f = l.mapM g := by
  induction l generalizing f with
  | nil => rfl
  | cons a l ih =>
    have hrest : (List.range l.length).mapM (f ∘ Nat.succ) = l.mapM g :=
      ih fun i hi => h (i + 1) (Nat.succ_lt_succ hi)
    rw [List.length_cons, List.range_succ_eq_map, List.mapM_cons, List.mapM_map, hrest,
      h 0 (Nat.succ_pos _), List.mapM_cons]
    rfl

end Loops

/-! ### Structures over a buffer -/

theorem sliceAt_add (buf : Bytes) (pos m n : ℕ) :
    sliceAt buf pos (m + n) = sliceAt buf pos m ++ sliceAt buf (pos + m) n := by
  rw [sliceAt, sliceAt, sliceAt, List.take_add, List.drop_drop]

theorem sliceAt_length {buf : Bytes} {pos n : ℕ} (h : pos + n ≤ buf.length) :
    (sliceAt buf pos n).length = n := by
  rw [sliceAt, List.length_take, List.length_drop]
  omega

/-- Layouts under the numbers of their elements. -/
def named (i : ℕ) (ls : List Layout) : List (FieldName × Layout) :=
  ls.mapIdx fun j c => (.element (i + j), c)

@[simp] theorem named_nil (i : ℕ) : named i [] = [] := rfl

@[simp] theorem named_cons (i : ℕ) (c : Layout) (ls : List Layout) :
    named i (c :: ls) = (.element i, c) :: named (i + 1) ls := by
  simp [named, List.mapIdx_cons, Nat.add_assoc, Nat.add_comm 1]

/-- The layouts one after another over what stands at `pos`. -/
def objectsAt (buf : Bytes) : ℕ → List Layout → List CObject
  | _, [] => []
  | pos, c :: ls => ⟨c, sliceAt buf pos c.size⟩ :: objectsAt buf (pos + c.size) ls

section Objects
variable {buf : Bytes} {pos : ℕ} {ls : List Layout}

@[simp] theorem objectsAt_length : (objectsAt buf pos ls).length = ls.length := by
  induction ls generalizing pos with
  | nil => rfl
  | cons c ls ih => rw [objectsAt, List.length_cons, List.length_cons, ih]

variable (buf pos ls) in
theorem objectsAt_ctype : (objectsAt buf pos ls).map (fun o => o.ctype) = ls := by
  induction ls generalizing pos with
  | nil => rfl
  | cons c ls ih => rw [objectsAt, List.map_cons, ih]

theorem objectsAt_mem (i : ℕ) :
    (objectsAt buf pos ls).flatMap (fun o => o.mem) =
      sliceAt buf pos (CType.sizeFields (named i ls)) := by
  induction ls generalizing pos i with
  | nil => simp [objectsAt, CType.sizeFields, sliceAt]
  | cons c ls ih =>
    rw [objectsAt, List.flatMap_cons, ih (i + 1), named_cons, CType.sizeFields, sliceAt_add]

/-- The bytes of a structure fill it. -/
def Fits (os : List CObject) : Prop := ∀ o ∈ os, o.mem.length = o.ctype.size

theorem objectsAt_fits (i : ℕ) (h : pos + CType.sizeFields (named i ls) ≤ buf.length) :
    Fits (objectsAt buf pos ls) := by
  induction ls generalizing pos i with
  | nil => simp [Fits, objectsAt]
  | cons c ls ih =>
    rw [named_cons, CType.sizeFields] at h
    exact List.forall_mem_cons.mpr ⟨sliceAt_length (by omega), ih (i + 1) (by omega)⟩

end Objects

/-- Structures as the numbered fields of a container. -/
def elementFields (os : List CObject) : List (FieldName × Layout × Bytes) :=
  numbered .element (os.map fun o => (o.ctype, o.mem))

section Containers
variable {header : List (FieldName × Layout × Bytes)} {os : List CObject}
  {conv : CObject → Except PyError PyValue}

theorem IsHeader.filled_elements (hh : IsHeader header) (hos : Fits os) :
    Filled (header ++ elementFields os) := by
  refine hh.filled.append (filled_numbered fun p hp => ?_)
  obtain ⟨o, ho, rfl⟩ := List.mem_map.mp hp
  exact hos o ho

theorem IsHeader.nodup_elements (hh : IsHeader header) :
    ((header ++ elementFields os).map (·.1)).Nodup :=
  append_numbered_nodup (fun i j h => by simpa using h) hh.nodup hh.ne_element

theorem attr_elementFields (hh : IsHeader header) (hos : Fits os) {i : ℕ} {o : CObject}
    (ho : os[i]? = some o) :
    CObject.attr (ofParts (header ++ elementFields os)) (.element i) = .ok o :=
  attr_part (hh.filled_elements hos) hh.nodup_elements
    (List.mem_append_right _ (mem_numbered (p := (o.ctype, o.mem)) (by simp [ho])))

/-- A length from 2^31 on counts as negative. -/
theorem length_elementFields (hh : IsHeader header) (hos : Fits os) {n : ℕ} (hn : n < 2 ^ 32)
    (hmem : scalarPart .length .int n ∈ header) :
    ∃ i, CObject.intAttr (ofParts (header ++ elementFields os)) .length = .ok i ∧
      i.toNat = if n < 2 ^ 31 then n else 0 := by
  refine ⟨_, intAttr_wrap (hh.filled_elements hos) hh.nodup_elements
    (List.mem_append_left _ hmem), ?_⟩
  split_ifs with hlt
  · rw [Scalar.wrap_eq_iff.mpr (range_of_lt hlt), Int.toNat_natCast]
  · rw [Scalar.wrap_of_half rfl (by simp only [Scalar.size]; omega)
      (by simp only [Scalar.size]; omega)]
    simp only [Scalar.size]
    omega

variable (conv) in
theorem elementsToPython_eq (hh : IsHeader header) (hos : Fits os) (hlen : os.length < 2 ^ 31)
    (hmem : scalarPart .length .int os.length ∈ header) :
    elementsToPython conv (ofParts (header ++ elementFields os)) = os.mapM conv := by
  obtain ⟨i, hi, hnat⟩ := length_elementFields hh hos (by omega) hmem
  rw [if_pos hlen] at hnat
  rw [elementsToPython, hi, except_bind, hnat]
  refine mapM_range fun j hj => ?_
  rw [attr_elementFields hh hos (List.getElem?_eq_getElem hj), except_bind]

theorem elementsToPython_long (hh : IsHeader header) (hos : Fits os) {n : ℕ} (hlen : 2 ^ 31 ≤ n)
    (hn : n < 2 ^ 32) (hmem : scalarPart .length .int n ∈ header) :
    elementsToPython conv (ofParts (header ++ elementFields os)) = .ok [] := by
  obtain ⟨i, hi, hnat⟩ := length_elementFields hh hos hn hmem
  rw [if_neg (not_lt.mpr hlen)] at hnat
  rw [elementsToPython, hi, except_bind, hnat]
  rfl

/-- A container over what stands at `pos`. -/
theorem container_object (hf : Filled header) {buf : Bytes} {pos : ℕ} (ls : List Layout)
    (hat : At buf pos (header.flatMap fun p => p.2.2)) :
    (⟨.struct (header.map (fun p => (p.1, p.2.1)) ++ named 0 ls), sliceAt buf pos
      (CType.sizeFields (header.map (fun p => (p.1, p.2.1)) ++ named 0 ls))⟩ : CObject) =
      ofParts (header ++ elementFields
        (objectsAt buf (pos + (header.flatMap fun p => p.2.2).length) ls)) := by
  have hsize : CType.sizeFields (header.map fun p => (p.1, p.2.1)) =
      (header.flatMap fun p => p.2.2).length := (ofParts_length hf).symm
  have hnames : (elementFields (objectsAt buf
      (pos + (header.flatMap fun p => p.2.2).length) ls)).map (fun p => (p.1, p.2.1)) =
      named 0 ls := by
    conv_rhs =>
      rw [← objectsAt_ctype buf (pos + (header.flatMap fun p => p.2.2).length) ls]
    apply List.ext_getElem <;> simp [elementFields, numbered, named]
  rw [CType.sizeFields_append, hsize, sliceAt_add, hat.slice, ofParts, List.map_append, hnames,
    List.flatMap_append, elementFields, numbered_flatMap, List.flatMap_map, objectsAt_mem 0]

end Containers

/-! ### Pairs of structures -/

/-- Both sides of every pair are converted, then the pair is inserted. -/
def insertPair (conv : CObject → Except PyError PyValue) (result : List (PyValue × PyValue))
    (p : CObject × CObject) : Except PyError (List (PyValue × PyValue)) := do
  let k ← conv p.1
  let v ← conv p.2
  PyValue.dictSet result k v

theorem pairsToPython_eq {header : List (FieldName × Layout × Bytes)}
    {ps : List (CObject × CObject)} (rec : DataType → CObject → Except PyError PyValue)
    (hh : IsHeader header) (hos : Fits (alternate ps)) (hlen : ps.length < 2 ^ 31)
    (hmem : scalarPart .length .int ps.length ∈ header) :
    pairsToPython rec (ofParts (header ++ elementFields (alternate ps))) =
      ps.foldlM (insertPair (anyToPython rec)) [] := by
  obtain ⟨i, hi, hnat⟩ := length_elementFields hh hos (by omega) hmem
  rw [if_pos hlen] at hnat
  rw [pairsToPython, hi, except_bind, hnat]
  refine foldlM_range fun j hj result => ?_
  have hp : ps[j]? = some ps[j] := List.getElem?_eq_getElem hj
  have hkey := attr_elementFields hh hos (i := 2 * j) (o := ps[j].1) (by rw [alternate_fst, hp]; rfl)
  have hvalue := attr_elementFields hh hos (i := 2 * j + 1) (o := ps[j].2)
    (by rw [alternate_snd, hp]; rfl)
  rw [hkey, except_bind, hvalue]
  rfl

theorem pairsToPython_long {header : List (FieldName × Layout × Bytes)} {os : List CObject}
    {rec : DataType → CObject → Except PyError PyValue} (hh : IsHeader header) (hos : Fits os)
    {n : ℕ} (hlen : 2 ^ 31 ≤ n) (hn : n < 2 ^ 32) (hmem : scalarPart .length .int n ∈ header) :
    pairsToPython rec (ofParts (header ++ elementFields os)) = .ok [] := by
  obtain ⟨i, hi, hnat⟩ := length_elementFields hh hos hn hmem
  rw [if_neg (not_lt.mpr hlen)] at hnat
  rw [pairsToPython, hi, except_bind, hnat]
  rfl

/-- Pairs are inserted exactly where all their sides are converted and the dict takes them. -/
theorem foldlM_insertPair_iff {conv : CObject → Except PyError PyValue}
    {ps : List (CObject × CObject)} {acc r : List (PyValue × PyValue)} :
    ps.foldlM (insertPair conv) acc = .ok r ↔
      ∃ kvs : List (PyValue × PyValue), (alternate ps).mapM conv = .ok (alternate kvs) ∧
        kvs.foldlM (fun r p => PyValue.dictSet r p.1 p.2) acc = .ok r := by
  induction ps generalizing acc with
  | nil =>
    constructor
    · exact fun h => ⟨[], rfl, h⟩
    · rintro ⟨kvs, hkvs, h⟩
      cases kvs with
      | nil => exact h
      | cons p kvs => cases hkvs
  | cons p ps ih =>
    rw [List.foldlM_cons, except_bind_eq_ok]
    constructor
    · rintro ⟨acc', hp, h⟩
      obtain ⟨k, hk, hp⟩ := except_bind_eq_ok.mp hp
      obtain ⟨v, hv, hp⟩ := except_bind_eq_ok.mp hp
      obtain ⟨kvs, hkvs, h⟩ := ih.mp h
      refine ⟨(k, v) :: kvs, ?_, ?_⟩
      · exact mapM_cons_ok.mpr ⟨k, _, hk, mapM_cons_ok.mpr ⟨v, _, hv, hkvs, rfl⟩, rfl⟩
      · rw [List.foldlM_cons, except_bind_eq_ok]
        exact ⟨acc', hp, h⟩
    · rintro ⟨kvs, hkvs, h⟩
      obtain ⟨k, ys, hk, hys, hkvs⟩ := mapM_cons_ok.mp hkvs
      obtain ⟨v, ys', hv, hys', rfl⟩ := mapM_cons_ok.mp hys
      cases kvs with
      | nil => cases hkvs
      | cons q kvs =>
        obtain ⟨⟩ := hkvs
        rw [List.foldlM_cons, except_bind_eq_ok] at h
        obtain ⟨acc', hp, h⟩ := h
        exact ⟨acc', except_bind_eq_ok.mpr ⟨_, hk, except_bind_eq_ok.mpr ⟨_, hv, hp⟩⟩,
          ih.mpr ⟨kvs, hys', h⟩⟩

/-! ### Elements that are read one after another -/

theorem parseElements_named {p : StreamM Layout} {i n : ℕ} {s s' : BinaryStream}
    {cs : List (FieldName × Layout)} (h : parseElements p i n s = .ok (cs, s')) :
    ∃ ls, ls.length = n ∧ cs = named i ls := by
  induction n generalizing i s s' cs with
  | zero =>
    obtain ⟨rfl, -⟩ := Prod.mk.inj (Except.ok.inj h)
    exact ⟨[], rfl, rfl⟩
  | succ n ih =>
    obtain ⟨c, u, -, h⟩ := bind_eq_ok h
    obtain ⟨cs', u', hrest, h⟩ := bind_eq_ok h
    obtain ⟨rfl, -⟩ := Prod.mk.inj (Except.ok.inj h)
    obtain ⟨ls, rfl, rfl⟩ := ih hrest
    exact ⟨c :: ls, rfl, (named_cons i c ls).symm⟩

/-- Elements that are read back are read back one after another. -/
theorem elements_recovered {r : Reader} {ds : List Bytes} {xs : List PyValue}
    (h : List.Forall₂ (fun d x => Recovers r d (.ok x)) ds xs) :
    ∃ ls : List Layout, ls.length = ds.length ∧
      (∀ i, CType.sizeFields (named i ls) = ds.flatten.length) ∧
      (∀ n, (∀ d ∈ ds, d.length ≤ n) → ∀ i, ∀ s : BinaryStream, s.emptyView = false →
        At s.buf s.pos ds.flatten →
        parseElements (r.parse n) i ds.length s = .ok (named i ls, s.skip ds.flatten.length)) ∧
      ∀ buf pos, At buf pos ds.flatten → ∀ client n, (∀ d ∈ ds, d.length ≤ n) →
        (objectsAt buf pos ls).mapM (r.toPython client n) = .ok xs := by
  induction h with
  | nil => exact ⟨[], rfl, fun _ => rfl, fun _ _ _ _ _ _ => rfl, fun _ _ _ _ _ _ => rfl⟩
  | @cons d x ds xs hd _ ih =>
    obtain ⟨c, hsize, hparse, hpy⟩ := hd
    obtain ⟨ls, hlen, hsizes, hparses, hpys⟩ := ih
    refine ⟨c :: ls, by rw [List.length_cons, hlen, List.length_cons], fun i => ?_,
      fun n hn i s hs hat => ?_, fun buf pos hat client n hn => ?_⟩
    · rw [named_cons, CType.sizeFields, hsizes, List.flatten_cons, List.length_append, hsize]
    · rw [List.forall_mem_cons] at hn
      rw [List.flatten_cons] at hat
      have hrest := hparses n hn.2 (i + 1) (s.skip c.size) hs (by simpa [hsize] using hat.right)
      rw [List.length_cons, parseElements, bind_ok (hparse n hn.1 s hs hat.left), bind_ok hrest,
        pure_apply, BinaryStream.skip_skip, named_cons, List.flatten_cons, List.length_append, hsize]
    · rw [List.forall_mem_cons] at hn
      rw [List.flatten_cons] at hat
      have hrest := hpys buf (pos + c.size) (by simpa [hsize] using hat.right) client n hn.2
      have hslice : sliceAt buf pos c.size = d := by rw [hsize, hat.left.slice]
      rw [objectsAt, hslice, List.mapM_cons, hpy client n hn.1, hrest]
      rfl

/-! ### Containers -/

/-- The fields before the elements of a container: its type code, the number of its elements,
and `rest`. -/
def containerHeader (t : DataType) (n : ℕ) (rest : List (FieldName × Layout × Bytes)) :
    List (FieldName × Layout × Bytes) :=
  codePart t.typeCode :: scalarPart .length .int n :: rest

/-- What stands for these fields. -/
abbrev headBytes (t : DataType) (n : ℕ) (rest : List (FieldName × Layout × Bytes)) : Bytes :=
  (containerHeader t n rest).flatMap fun p => p.2.2

/-- What stands for a container of elements that are written as `ds`. -/
def containerBytes (t : DataType) (n : ℕ) (rest : List (FieldName × Layout × Bytes))
    (ds : List Bytes) : Bytes :=
  headBytes t n rest ++ ds.flatten

theorem containerBytes_cons (t : DataType) (n : ℕ) (rest : List (FieldName × Layout × Bytes))
    (ds : List Bytes) :
    containerBytes t n rest ds = t.typeCode :: (Scalar.int.store n ++
      ((rest.flatMap fun p => p.2.2) ++ ds.flatten)) := by
  simp [containerBytes, headBytes, containerHeader, codePart, scalarPart]

/-- A class whose values are `count` elements, read by `r`, behind such fields. -/
structure Container [Python] [OtherCodecs] (t : DataType) (r : Reader)
    (rest : List (FieldName × Layout × Bytes)) (count : ℕ → ℕ) : Prop where
  ne_null : t ≠ .null
  header : ∀ n, IsHeader (containerHeader t n rest)
  parse : ∀ n, parseNotNull (parseN n) t =
    parseArray 1 ((containerHeader t 0 rest).map fun p => (p.1, p.2.1)) count (r.parse n)

section Container
variable [Python] [OtherCodecs] {t std : DataType} {r : Reader}
  {rest : List (FieldName × Layout × Bytes)} {count : ℕ → ℕ} {len : ℕ} {ds : List Bytes}

theorem container_standard (hstd : t.standardType = some std) :
    Container t (classReader std) [] id where
  ne_null := by
    rintro rfl
    cases hstd
  header n := isHeader_standard t.typeCode n
  parse n := by
    cases t <;> simp only [DataType.standardType, reduceCtorEq, Option.some.injEq] at hstd <;>
      subst hstd <;> rfl

theorem container_collection (k : ℤ) :
    Container .collectionObject anyReader [scalarPart .type .byte k] id where
  ne_null := by simp
  header n := isHeader_collection _ n k
  parse _ := rfl

theorem container_map (k : ℤ) :
    Container .mapObject anyReader [scalarPart .type .byte k] (2 * ·) where
  ne_null := by simp
  header n := isHeader_collection _ n k
  parse _ := rfl

/-- The elements are parsed behind the header. -/
theorem Container.parse_eq (hc : Container t r rest count) (hlen : len < 2 ^ 32)
    {s : BinaryStream} (hs : s.emptyView = false)
    (hat : At s.buf s.pos (containerBytes t len rest ds)) (n : ℕ) :
    anyReader.parse (n + 1) s = (parseElements (r.parse n) 0 (count len) >>= fun es =>
        pure (.struct ((containerHeader t len rest).map (fun p => (p.1, p.2.1)) ++ es)))
      (s.skip (headBytes t len rest).length) := by
  have hsize : CType.sizeFields ((containerHeader t len rest).map fun p => (p.1, p.2.1)) =
      (headBytes t len rest).length :=
    (ofParts_length (hc.header len).filled).symm
  rw [containerBytes_cons] at hat
  have hpeek : peekLength 1 s = .ok (len % 2 ^ 32, s) :=
    peekLength_mod hs (At.right (a := [t.typeCode]) hat).left
  rw [Nat.mod_eq_of_lt hlen] at hpeek
  rw [anyReader_parse hc.ne_null hs hat, hc.parse, parseArray, bind_ok hpeek, ← hsize]
  rfl

theorem Container.toPython_eq (hc : Container t r rest count) {os : List CObject} (hos : Fits os)
    (client : Option Client) (n : ℕ) :
    anyReader.toPython client (n + 1) (ofParts (containerHeader t len rest ++ elementFields os)) =
      toPythonNotNull (toPythonN client n) client t
        (ofParts (containerHeader t len rest ++ elementFields os)) :=
  anyReader_toPython hc.ne_null (getInt_code ((hc.header len).filled_elements hos)
    (hc.header len).nodup_elements (typeCode_lt t) (by simp [containerHeader])) client n

omit [Python] [OtherCodecs] in
theorem length_le_of_containerBytes {n : ℕ}
    (hn : (containerBytes t len rest ds).length ≤ n + 1) : ∀ d ∈ ds, d.length ≤ n := by
  intro d hd
  have hle := length_le_flatten hd
  rw [containerBytes_cons] at hn
  simp only [List.length_cons, List.length_append] at hn
  omega

omit [Python] [OtherCodecs] in
theorem containerBytes_pos {n : ℕ} (hn : (containerBytes t len rest ds).length ≤ n) :
    ∃ m, n = m + 1 := by
  rw [containerBytes_cons, List.length_cons] at hn
  exact Nat.exists_eq_add_of_le' (by omega)

/-- A container is read back as what its conversion makes of its elements. -/
theorem Container.recovers (hc : Container t r rest count) (hlen : len < 2 ^ 32)
    (hcount : ds.length = count len) {xs : List PyValue}
    (h : List.Forall₂ (fun d x => Recovers r d (.ok x)) ds xs) {x : PyValue}
    (hpy : ∀ (client : Option Client) n os, Fits os → os.length = count len →
      os.mapM (r.toPython client n) = .ok xs →
      toPythonNotNull (toPythonN client n) client t
        (ofParts (containerHeader t len rest ++ elementFields os)) = .ok x) :
    Recovers anyReader (containerBytes t len rest ds) (.ok x) := by
  obtain ⟨ls, hls, hsizes, hparse, hconv⟩ := elements_recovered h
  have hheader : CType.sizeFields ((containerHeader t len rest).map fun p => (p.1, p.2.1)) =
      (headBytes t len rest).length :=
    (ofParts_length (hc.header len).filled).symm
  have hsize : CType.sizeFields ((containerHeader t len rest).map (fun p => (p.1, p.2.1)) ++
      named 0 ls) = (containerBytes t len rest ds).length := by
    rw [CType.sizeFields_append, hsizes, hheader, containerBytes, List.length_append]
  refine ⟨.struct ((containerHeader t len rest).map (fun p => (p.1, p.2.1)) ++ named 0 ls), hsize,
    fun n hn s hs hat => ?_, fun client n hn => ?_⟩ <;> obtain ⟨m, rfl⟩ := containerBytes_pos hn
  · have helements := hparse m (length_le_of_containerBytes hn) 0
      (s.skip (headBytes t len rest).length) hs hat.right
    rw [hcount] at helements
    rw [hc.parse_eq hlen hs hat, bind_ok helements, pure_apply, BinaryStream.skip_skip, CType.size,
      hsize, containerBytes, List.length_append]
  · have hat : At (containerBytes t len rest ds) 0 (containerBytes t len rest ds) :=
      List.prefix_refl _
    have hfits : Fits (objectsAt (containerBytes t len rest ds)
        (0 + (headBytes t len rest).length) ls) := by
      refine objectsAt_fits 0 ?_
      rw [hsizes, containerBytes, List.length_append, Nat.zero_add]
    have hobject := container_object (hc.header len).filled ls hat.left
    rw [hsize, hat.slice] at hobject
    rw [hobject, hc.toPython_eq hfits]
    refine hpy client m _ hfits ?_ (hconv _ _ hat.right client m (length_le_of_containerBytes hn))
    rw [objectsAt_length, hls, hcount]

/-- What was made of a container was made of the structures of its elements. -/
theorem Container.gives (hc : Container t r rest count) (hlen : len < 2 ^ 32) {n m : ℕ}
    (hn : (containerBytes t len rest ds).length ≤ n)
    (hm : (containerBytes t len rest ds).length ≤ m) {client : Option Client} {s s' : BinaryStream}
    {c : Layout} {x : PyValue} (hs : s.emptyView = false)
    (hat : At s.buf s.pos (containerBytes t len rest ds))
    (hp : anyReader.parse n s = .ok (c, s')) (hfit : s.pos + c.size ≤ s.buf.length)
    (hx : anyReader.toPython client m ⟨c, sliceAt s.buf s.pos c.size⟩ = .ok x) :
    ∃ n' m' ls u, (∀ d ∈ ds, d.length ≤ n') ∧ (∀ d ∈ ds, d.length ≤ m') ∧ ls.length = count len ∧
      parseElements (r.parse n') 0 (count len)
        (s.skip (headBytes t len rest).length) =
          .ok (named 0 ls, u) ∧
      s.pos + (headBytes t len rest).length +
        CType.sizeFields (named 0 ls) ≤ s.buf.length ∧
      toPythonNotNull (toPythonN client m') client t
        (ofParts (containerHeader t len rest ++ elementFields (objectsAt s.buf
          (s.pos + (headBytes t len rest).length) ls))) = .ok x := by
  obtain ⟨n', rfl⟩ := containerBytes_pos hn
  obtain ⟨m', rfl⟩ := containerBytes_pos hm
  have hheader : CType.sizeFields ((containerHeader t len rest).map fun p => (p.1, p.2.1)) =
      (headBytes t len rest).length :=
    (ofParts_length (hc.header len).filled).symm
  rw [hc.parse_eq hlen hs hat] at hp
  obtain ⟨es, u, hes, hp⟩ := bind_eq_ok hp
  obtain ⟨rfl, -⟩ := Prod.mk.inj (Except.ok.inj hp)
  obtain ⟨ls, hls, rfl⟩ := parseElements_named hes
  rw [CType.size, CType.sizeFields_append, hheader, ← Nat.add_assoc] at hfit
  refine ⟨n', m', ls, u, length_le_of_containerBytes hn, length_le_of_containerBytes hm, hls, hes,
    hfit, ?_⟩
  rw [CType.size, container_object (hc.header len).filled ls hat.left,
    hc.toPython_eq (objectsAt_fits 0 hfit)] at hx
  exact hx

end Container

end PyGridGain
