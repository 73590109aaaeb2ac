import Mathlib.Logic.Function.Iterate
import PyGridGain.Codec.Elements
import PyGridGain.Codec.Moves

/-! Parsing ends: a nested parser starts further inside the buffer than the parser that calls it,
and past the end of the buffer there are no nested calls. A conversion that is not stopped by the
bound on its nesting does not depend on it. -/

namespace PyGridGain

open StreamM

section SameFrom
variable {α β : Type} {buf : Bytes} {a : ℕ}

/-- The two actions do the same from `a` on. -/
def SameFrom (buf : Bytes) (a : ℕ) (p q : StreamM α) : Prop :=
  ∀ s : BinaryStream, s.buf = buf → a ≤ s.pos → p s = q s

theorem SameFrom.refl (p : StreamM α) : SameFrom buf a p p := fun _ _ _ => rfl

theorem SameFrom.bind {p q : StreamM α} {f g : α → StreamM β} {Q : α → ℕ → Prop}
    (hq : Advances q Q) (h : SameFrom buf a p q)
    (hf : ∀ x n, Q x n → SameFrom buf (a + n) (f x) (g x)) :
    SameFrom buf a (p >>= f) (q >>= g) := by
  intro s hbuf hpos
  have hs := h s hbuf hpos
  cases hrun : q s with
  | error e => rw [bind_error (hs.trans hrun), bind_error hrun]
  | ok r =>
    obtain ⟨x, t⟩ := r
    obtain ⟨htbuf, n, htpos, hn⟩ := hq hrun
    rw [bind_ok (hs.trans hrun), bind_ok hrun]
    exact hf x n hn t (htbuf.trans hbuf) (by omega)

/-- The first action is the same on both sides. -/
theorem SameFrom.after {p : StreamM α} {f g : α → StreamM β} {Q : α → ℕ → Prop}
    (hp : Advances p Q) (hf : ∀ x n, Q x n → SameFrom buf (a + n) (f x) (g x)) :
    SameFrom buf a (p >>= f) (p >>= g) :=
  .bind hp (.refl p) hf

theorem SameFrom.mono {b : ℕ} {p q : StreamM α} (h : SameFrom buf a p q) (hab : a ≤ b) :
    SameFrom buf b p q := fun s hbuf hpos => h s hbuf (hab.trans hpos)

end SameFrom

section Nested
variable {buf : Bytes} {a : ℕ} {p q : StreamM Layout} {rec rec' : DataType → StreamM Layout}

theorem sameFrom_parseElements (hq : Moves q) (h : SameFrom buf a p q) (i n : ℕ) :
    SameFrom buf a (parseElements p i n) (parseElements q i n) := by
  induction n generalizing i with
  | zero => exact .refl _
  | succ n ih =>
    refine .bind hq h fun c m _ => .bind (advances_parseElements hq (i + 1) n) ?_ fun _ _ _ =>
      .refl _
    exact (ih (i + 1)).mono (Nat.le_add_right a m)

/-- The elements start after the header. -/
theorem sameFrom_parseArray {off : ℕ} {header : List (FieldName × Layout)} {count : ℕ → ℕ}
    (hq : Moves q) (h : SameFrom buf (a + CType.sizeFields header) p q) :
    SameFrom buf a (parseArray off header count p) (parseArray off header count q) := by
  refine .after (stays_peekLength off) fun length n hn => ?_
  subst hn
  refine .after (advances_seekCur _) fun _ m hm => ?_
  subst hm
  exact .bind (advances_parseElements hq 0 _) (sameFrom_parseElements hq h 0 _) fun _ _ _ => .refl _

theorem sameFrom_anyParse (h : ∀ t, SameFrom buf a (rec t) (rec' t)) :
    SameFrom buf a (anyParse rec) (anyParse rec') := by
  refine .after (stays_peek 1) fun typeCode n hn => ?_
  subst hn
  split
  · split
    · exact h _
    · exact .refl _
  · exact .refl _

theorem sameFrom_parseFields (hrec : ∀ t, Moves (rec' t)) (h : ∀ t, SameFrom buf a (rec t) (rec' t))
    (fields : List (PyStr × DataType)) :
    SameFrom buf a (parseFields rec fields) (parseFields rec' fields) := by
  induction fields with
  | nil => exact .refl _
  | cons field fields ih =>
    refine .bind (hrec field.2) (h field.2) fun c n _ =>
      .bind (advances_parseFields hrec fields) ?_ fun _ _ _ => .refl _
    exact ih.mono (Nat.le_add_right a n)

theorem sameFrom_parseBinary [Python] (hrec : ∀ t, Moves (rec' t))
    (h : ∀ t, SameFrom buf (a + headerSize) (rec t) (rec' t)) :
    SameFrom buf a (parseBinary rec) (parseBinary rec') := by
  refine .after (stays_readForward _) fun header n hn => ?_
  subst hn
  refine .after (advances_seekCur _) fun _ n hn => ?_
  subst hn
  refine .after (stays_ofOption _ _) fun flags n hn => ?_
  subst hn
  refine .after (stays_ofOption _ _) fun typeId n hn => ?_
  subst hn
  refine .after (stays_ofOption _ _) fun schemaId n hn => ?_
  subst hn
  refine .after (stays_getDataclass _ _) fun cls n hn => ?_
  subst hn
  exact .bind (advances_parseFields hrec _) (sameFrom_parseFields hrec h _) fun _ _ _ => .refl _

/-! ### Past the end -/

theorem peekLength_pastEnd {s : BinaryStream} (h : s.buf.length ≤ s.pos) (off : ℕ) :
    peekLength off s = .ok (0, s.exported) := by
  have hnil : sliceAt s.buf (s.pos + off) 4 = [] := by
    rw [sliceAt, List.drop_eq_nil_of_le (by omega), List.take_nil]
  rw [peekLength, bind_ok (tell_ok s), bind_ok (show slice (s.pos + off) 4 s = _ from rfl), hnil]
  rfl

theorem readForward_pastEnd {s : BinaryStream} (h : s.buf.length ≤ s.pos) {c : Layout}
    (hc : 0 < c.size) : readForward c s = PyGridGain.raise .valueError := by
  have hnil : pySlice s.buf s.pos (s.pos + c.size) = [] := by
    rw [← Nat.cast_add, pySlice_of_nonneg (Nat.le_add_right _ _), sliceAt,
      List.drop_eq_nil_of_le h, List.take_nil]
  have hnone : CObj.fromBufferCopy c ([] : Bytes) = none := if_neg (Nat.not_le_of_lt hc)
  simp only [readForward, hnil, hnone]

/-- An array there has no elements. -/
theorem pastEnd_parseArray {count : ℕ → ℕ} (h0 : count 0 = 0) (off : ℕ)
    (header : List (FieldName × Layout)) :
    SameFrom buf buf.length (parseArray off header count p) (parseArray off header count q) := by
  rintro s rfl hpos
  rw [parseArray, parseArray, bind_ok (peekLength_pastEnd hpos off),
    bind_ok (peekLength_pastEnd hpos off), h0]
  rfl

/-- A Complex object there has no header. -/
theorem pastEnd_parseBinary [Python] :
    SameFrom buf buf.length (parseBinary rec) (parseBinary rec') := by
  rintro s rfl hpos
  have herror := readForward_pastEnd hpos (c := headerClass) (by decide)
  rw [parseBinary, parseBinary, bind_error herror, bind_error herror]

/-! ### Nesting -/

variable [Python] [OtherCodecs]

theorem SameFrom.parseNullable {t : DataType}
    (h : SameFrom buf a (parseNotNull rec t) (parseNotNull rec' t)) :
    SameFrom buf a (PyGridGain.parseNullable rec t) (PyGridGain.parseNullable rec' t) := by
  unfold PyGridGain.parseNullable
  split
  · exact .refl _
  · refine .after (stays_peek 1) fun code n hn => ?_
    subst hn
    split
    · exact .refl _
    · exact h

/-- Nested parsers are called further on. -/
theorem sameFrom_parseNotNull (hrec : ∀ t, Moves (rec' t))
    (h : ∀ t, SameFrom buf (a + 1) (rec t) (rec' t)) (t : DataType) :
    SameFrom buf a (parseNotNull rec t) (parseNotNull rec' t) := by
  have hlater : ∀ t b, 1 ≤ b → SameFrom buf (a + b) (rec t) (rec' t) := fun t b hb =>
    (h t).mono (Nat.add_le_add_left hb a)
  have hany : ∀ b, 1 ≤ b → SameFrom buf (a + b) (anyParse rec) (anyParse rec') := fun b hb =>
    sameFrom_anyParse fun t => hlater t b hb
  cases t with
  | stringArrayObject => exact sameFrom_parseArray (hrec _) (hlater _ _ (by decide))
  | uuidArrayObject => exact sameFrom_parseArray (hrec _) (hlater _ _ (by decide))
  | objectArrayObject => exact sameFrom_parseArray (moves_anyParse hrec) (hany _ (by decide))
  | collectionObject => exact sameFrom_parseArray (moves_anyParse hrec) (hany _ (by decide))
  | mapObject => exact sameFrom_parseArray (moves_anyParse hrec) (hany _ (by decide))
  | binaryObject => exact sameFrom_parseBinary hrec fun t => hlater t _ (by decide)
  | _ => exact .refl _

/-- Past the end there are no nested parsers. -/
theorem pastEnd_parseNotNull (t : DataType) :
    SameFrom buf buf.length (parseNotNull rec t) (parseNotNull rec' t) := by
  cases t with
  | stringArrayObject => exact pastEnd_parseArray rfl _ _
  | uuidArrayObject => exact pastEnd_parseArray rfl _ _
  | objectArrayObject => exact pastEnd_parseArray rfl _ _
  | collectionObject => exact pastEnd_parseArray rfl _ _
  | mapObject => exact pastEnd_parseArray rfl _ _
  | binaryObject => exact pastEnd_parseBinary
  | _ => exact .refl _

/-- The recursion of `parse` unfolded `n` times, with `base` for the calls below. -/
def unfolded (base : DataType → StreamM Layout) : ℕ → DataType → StreamM Layout
  | 0 => base
  | n + 1 => parseNullable (unfolded base n)

theorem unfolded_add (base : DataType → StreamM Layout) (m n : ℕ) :
    unfolded base (m + n) = unfolded (unfolded base n) m := by
  induction m with
  | zero => rw [Nat.zero_add, unfolded]
  | succ m ih => rw [Nat.succ_add, unfolded, ih, unfolded]

theorem parseN_eq_unfolded (n : ℕ) : parseN n = unfolded (parseN 0) n := by
  induction n with
  | zero => rfl
  | succ n ih => rw [unfolded, ← ih, parseN]

theorem moves_unfolded (hothers : OthersMove) {base : DataType → StreamM Layout}
    (hbase : ∀ t, Moves (base t)) (n : ℕ) (t : DataType) : Moves (unfolded base n t) := by
  induction n generalizing t with
  | zero => exact hbase t
  | succ n ih => exact moves_parseNullable hothers ih t

/-- With more calls than there are bytes left the innermost parser is not reached. -/
theorem unfolded_congr (hothers : OthersMove) {base base' : DataType → StreamM Layout}
    (hbase : ∀ t, Moves (base' t)) {n : ℕ} {s : BinaryStream} (h : s.buf.length - s.pos < n)
    (t : DataType) : unfolded base n t s = unfolded base' n t s := by
  induction n generalizing t s with
  | zero => exact absurd h (Nat.not_lt_zero _)
  | succ n ih =>
    by_cases hend : s.buf.length ≤ s.pos
    · exact (pastEnd_parseNotNull t).parseNullable s rfl hend
    · have hlater : ∀ t, SameFrom s.buf (s.pos + 1) (unfolded base n t) (unfolded base' n t) := by
        intro t u hbuf hpos
        refine ih ?_ t
        rw [hbuf]
        omega
      have hmoves := moves_unfolded hothers hbase n
      exact (sameFrom_parseNotNull hmoves hlater t).parseNullable s rfl le_rfl

/-- `parse` is what its unfoldings arrive at, whatever stands below them. -/
theorem unfolded_eq_parse (hothers : OthersMove) {n : ℕ} {s : BinaryStream}
    (h : s.buf.length - s.pos < n) (base : DataType → StreamM Layout) (t : DataType) :
    unfolded base n t s = parse t s := by
  have hzero : ∀ t, Moves (parseN 0 t) := fun _ => advances_raise
  have hmoves := moves_unfolded hothers hzero
  rw [parse, parseN_eq_unfolded]
  rcases Nat.le_total n (s.buf.length + 1) with hle | hle
  · obtain ⟨k, hk⟩ := Nat.exists_eq_add_of_le hle
    rw [hk, unfolded_add]
    exact unfolded_congr hothers (hmoves k) h t
  · obtain ⟨k, rfl⟩ := Nat.exists_eq_add_of_le hle
    rw [unfolded_add]
    exact unfolded_congr hothers (hmoves 0) (by omega) t

theorem moves_parse (hothers : OthersMove) (t : DataType) : Moves (parse t) := fun _ _ _ h =>
  moves_parseN hothers _ t h

/-- The recursion of the source, which has no bound on the nesting. -/
theorem parse_eq (hothers : OthersMove) (t : DataType) : parse t = parseNullable parse t := by
  funext s
  rw [← unfolded_eq_parse hothers (Nat.lt_succ_of_le (Nat.sub_le _ _)) (parseN 0) t]
  by_cases hend : s.buf.length ≤ s.pos
  · exact (pastEnd_parseNotNull t).parseNullable s rfl hend
  · have hlater : ∀ t, SameFrom s.buf (s.pos + 1) (unfolded (parseN 0) s.buf.length t)
        (parse t) := by
      intro t u hbuf hpos
      refine unfolded_eq_parse hothers ?_ _ t
      rw [hbuf]
      omega
    exact (sameFrom_parseNotNull (moves_parse hothers) hlater t).parseNullable s rfl le_rfl

theorem anyDataObject_eq : AnyDataObject.parse = anyParse parse := by
  funext s
  have hsame : ∀ t, SameFrom s.buf s.pos (parseN (s.buf.length + 1) t) (parse t) := by
    intro t u hbuf _
    rw [parse, hbuf]
  exact sameFrom_anyParse hsame s rfl le_rfl

end Nested

/-! ### Deeper conversions -/

section Extends
variable {α β ε : Type}

/-- What `f` gives, `g` gives as well. -/
def Extends (f g : α → Except ε β) : Prop := ∀ a b, f a = .ok b → g a = .ok b

theorem Extends.mapM {f g : α → Except ε β} (h : Extends f g) : Extends (List.mapM f) (List.mapM g) := by
  intro l ys hys
  induction l generalizing ys with
  | nil => exact hys
  | cons a l ih =>
    obtain ⟨y, ys', hy, hys', rfl⟩ := mapM_cons_ok.mp hys
    exact mapM_cons_ok.mpr ⟨y, ys', h a y hy, ih ys' hys', rfl⟩

theorem Extends.bind {γ : Type} {f f' : α → Except ε β} {g g' : β → Except ε γ} (hf : Extends f f')
    (hg : Extends g g') : Extends (fun a => f a >>= g) fun a => f' a >>= g' := by
  intro a c h
  obtain ⟨b, hb, hc⟩ := except_bind_eq_ok.mp h
  exact except_bind_eq_ok.mpr ⟨b, hf a b hb, hg b c hc⟩

theorem Extends.foldlM {f g : β → α → Except ε β} (h : ∀ b, Extends (f b) (g b)) (b : β) :
    Extends (List.foldlM f b) (List.foldlM g b) := by
  intro l c hc
  induction l generalizing b with
  | nil => exact hc
  | cons a l ih =>
    rw [List.foldlM_cons] at hc ⊢
    obtain ⟨b', hb', hc⟩ := except_bind_eq_ok.mp hc
    exact except_bind_eq_ok.mpr ⟨b', h b a b' hb', ih b' hc⟩

theorem Extends.refl (f : α → Except ε β) : Extends f f := fun _ _ h => h

variable {f g : DataType → CObject → Except PyError PyValue}

theorem anyToPython_extends (h : ∀ t, Extends (f t) (g t)) : Extends (anyToPython f) (anyToPython g) := by
  intro o x hx
  obtain ⟨code, hcode, hx⟩ := except_bind_eq_ok.mp hx
  refine except_bind_eq_ok.mpr ⟨code, hcode, ?_⟩
  split_ifs at hx ⊢
  · exact hx
  · split at hx
    · exact h _ _ _ hx
    · cases hx

theorem elementsToPython_extends {conv conv' : CObject → Except PyError PyValue}
    (h : Extends conv conv') : Extends (elementsToPython conv) (elementsToPython conv') := by
  intro o xs hxs
  obtain ⟨length, hlength, hxs⟩ := except_bind_eq_ok.mp hxs
  exact except_bind_eq_ok.mpr ⟨length, hlength, ((Extends.refl _).bind h).mapM _ _ hxs⟩

theorem pairsToPython_extends (h : ∀ t, Extends (f t) (g t)) :
    Extends (pairsToPython f) (pairsToPython g) := by
  intro o kvs hkvs
  obtain ⟨length, hlength, hkvs⟩ := except_bind_eq_ok.mp hkvs
  refine except_bind_eq_ok.mpr ⟨length, hlength, Extends.foldlM (fun result i x hx => ?_) _ _ _ hkvs⟩
  obtain ⟨k, hk, hx⟩ := except_bind_eq_ok.mp hx
  obtain ⟨k', hk', hx⟩ := except_bind_eq_ok.mp hx
  obtain ⟨v, hv, hx⟩ := except_bind_eq_ok.mp hx
  obtain ⟨v', hv', hx⟩ := except_bind_eq_ok.mp hx
  exact except_bind_eq_ok.mpr ⟨k, hk, except_bind_eq_ok.mpr ⟨k', anyToPython_extends h _ _ hk',
    except_bind_eq_ok.mpr ⟨v, hv, except_bind_eq_ok.mpr ⟨v', anyToPython_extends h _ _ hv', hx⟩⟩⟩⟩

theorem binaryToPython_extends [Python] (h : ∀ t, Extends (f t) (g t)) (client : Option Client) :
    Extends (binaryToPython f client) (binaryToPython g client) := by
  intro o x hx
  obtain ⟨typeId, htype, hx⟩ := except_bind_eq_ok.mp hx
  refine except_bind_eq_ok.mpr ⟨typeId, htype, ?_⟩
  cases client with
  | none => cases hx
  | some client =>
    obtain ⟨schemaId, hschema, hx⟩ := except_bind_eq_ok.mp hx
    refine except_bind_eq_ok.mpr ⟨schemaId, hschema, ?_⟩
    split at hx
    · obtain ⟨version, hversion, hx⟩ := except_bind_eq_ok.mp hx
      obtain ⟨fields, hfields, hx⟩ := except_bind_eq_ok.mp hx
      obtain ⟨members, hmembers, hx⟩ := except_bind_eq_ok.mp hx
      refine except_bind_eq_ok.mpr ⟨version, hversion, except_bind_eq_ok.mpr ⟨fields, hfields,
        except_bind_eq_ok.mpr ⟨members, Extends.mapM ?_ _ _ hmembers, hx⟩⟩⟩
      intro m y hy
      obtain ⟨e, he, hy⟩ := except_bind_eq_ok.mp hy
      obtain ⟨v, hv, hy⟩ := except_bind_eq_ok.mp hy
      exact except_bind_eq_ok.mpr ⟨e, he, except_bind_eq_ok.mpr ⟨v, h _ _ _ hv, hy⟩⟩
    · cases hx

variable [Python] [OtherCodecs]

theorem toPythonNotNull_extends (h : ∀ t, Extends (f t) (g t)) (client : Option Client)
    (t : DataType) : Extends (toPythonNotNull f client t) (toPythonNotNull g client t) := by
  cases t with
  | stringArrayObject | uuidArrayObject =>
    exact (elementsToPython_extends (h _)).bind (Extends.refl _)
  | objectArrayObject | collectionObject =>
    intro o x hx
    obtain ⟨xs, hxs, hx⟩ := except_bind_eq_ok.mp hx
    exact except_bind_eq_ok.mpr ⟨xs, elementsToPython_extends (anyToPython_extends h) _ _ hxs, hx⟩
  | mapObject =>
    intro o x hx
    obtain ⟨type, htype, hx⟩ := except_bind_eq_ok.mp hx
    obtain ⟨kvs, hkvs, hx⟩ := except_bind_eq_ok.mp hx
    exact except_bind_eq_ok.mpr ⟨type, htype,
      except_bind_eq_ok.mpr ⟨kvs, pairsToPython_extends h _ _ hkvs, hx⟩⟩
  | binaryObject => exact binaryToPython_extends h client
  | _ => exact Extends.refl _

/-- A conversion that is not stopped by a bound on the nesting does not depend on it. -/
theorem toPythonN_extends (client : Option Client) {n m : ℕ} (hnm : n ≤ m) (t : DataType) :
    Extends (toPythonN client n t) (toPythonN client m t) := by
  induction n generalizing m t with
  | zero =>
    intro o x hx
    cases hx
  | succ n ih =>
    obtain ⟨k, rfl⟩ := Nat.exists_eq_add_of_le' hnm
    intro o x hx
    have hrest := toPythonNotNull_extends (fun t => ih (Nat.le_add_left n k) t) client t
    show toPythonNullable (toPythonN client (k + n)) client t o = .ok x
    replace hx : toPythonNullable (toPythonN client n) client t o = .ok x := hx
    unfold toPythonNullable at hx ⊢
    split at hx
    · exact hx
    · obtain ⟨code, hcode, hx⟩ := except_bind_eq_ok.mp hx
      refine except_bind_eq_ok.mpr ⟨code, hcode, ?_⟩
      split_ifs at hx ⊢
      · exact hx
      · exact hrest o x hx

end Extends

end PyGridGain
