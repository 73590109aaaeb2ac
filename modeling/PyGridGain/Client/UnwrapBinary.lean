import PyGridGain.Codec.Maps
import PyGridGain.Codec.Settled
import PyGridGain.Datatypes.OtherClasses

/-! `unwrap_binary` of the clients. Wrapped data comes as the bytes of several objects with the
position of one of them, in collections, arrays and maps of any depth. -/

namespace PyGridGain

open CObj StreamM

/-- What is done with a client, and may fail. -/
abbrev ClientM := StateT Client (Except PyError)

section Unwrap
variable [Python] [OtherCodecs]

/-- What `unwrap_binary` makes of a wrapped value: the position is not looked at. -/
def unwrapBlob (blob : Bytes) : ClientM PyValue := fun client => do
  let (c, stream) ← parse .binaryObject ⟨client, blob, 0, false⟩
  let (o, stream) ← readBackward c stream
  let x ← toPython (some stream.client) .binaryObject o
  .ok (x, stream.client)

/- `unwrap_binary`, and its comprehensions over a list and over the items of a dict. -/
mutual
def unwrapBinary : PyValue → ClientM PyValue
  | .tuple [.bytes blob, .int _] => unwrapBlob blob
  | .tuple [a, .list xs] =>
    if a.isInstance .int then do
      let xs ← unwrapAll xs
      pure (.tuple [a, .list xs])
    else pure (.tuple [a, .list xs])
  | .tuple [a, .dict kvs] =>
    if a.isInstance .int then do
      let kvs ← unwrapItems kvs []
      pure (.tuple [a, .dict kvs])
    else pure (.tuple [a, .dict kvs])
  | v => pure v
def unwrapAll : List PyValue → ClientM (List PyValue)
  | [] => pure []
  | x :: xs => do
    let x ← unwrapBinary x
    let xs ← unwrapAll xs
    pure (x :: xs)
def unwrapItems : List (PyValue × PyValue) → List (PyValue × PyValue) →
    ClientM (List (PyValue × PyValue))
  | [], result => pure result
  | (k, v) :: kvs, result => do
    let k ← unwrapBinary k
    let v ← unwrapBinary v
    let result ← StateT.lift (PyValue.dictSet result k v)
    unwrapItems kvs result
end

end Unwrap

/-! ### Wrapped data on the wire -/

/-- `WrappedDataObject`, which is not written. -/
def wrappedDataObject : WireClass where
  fromPython _ := StreamM.raise .parseError "Send unwrapped data."
  parse := nullable WrappedDataObject.parseNotNull
  toPython _ o := do
    let code ← o.intAttr .typeCode
    if code = TC_NULL.toNat then .ok .none else WrappedDataObject.toPythonNotNull o

theorem reads_wrappedDataObject {I : Client → Prop} {blob : Bytes} {offset : ℤ}
    (hlen : blob.length < 2 ^ 31) (hoffset : Scalar.int.Range offset) :
    Reads I wrappedDataObject ((DataType.other .wrappedDataObject).typeCode ::
      (Scalar.int.store blob.length ++ (blob ++ Scalar.int.store offset)))
      (.tuple [.bytes blob, .int offset]) := by
  let parts : List (FieldName × Layout × Bytes) :=
    [codePart (DataType.other .wrappedDataObject).typeCode,
      scalarPart .length .int blob.length,
      (.field "payload".toList, .array (.scalar .byte) blob.length, blob),
      scalarPart .offset .int offset]
  have hfilled : Filled parts := by
    simp [parts, Filled, codePart, scalarPart, CType.size, Scalar.size]
  have hnd : (parts.map (·.1)).Nodup := by simp [parts, codePart, scalarPart]
  have hbytes : (parts.flatMap fun p => p.2.2) = (DataType.other .wrappedDataObject).typeCode ::
      (Scalar.int.store blob.length ++ (blob ++ Scalar.int.store offset)) := by
    simp [parts, codePart, scalarPart]
  rw [← hbytes]
  have hparse : Finds I (nullable WrappedDataObject.parseNotNull) (parts.flatMap fun p => p.2.2)
      fun c => c = (ofParts parts).ctype := by
    refine Finds.looking (Q := fun code => code = [(DataType.other .wrappedDataObject).typeCode])
      (fun s hs => ?_) ?_
    · rw [hbytes] at hs
      have hat : At s.buf s.pos [(DataType.other .wrappedDataObject).typeCode] :=
        At.left (b := Scalar.int.store blob.length ++ (blob ++ Scalar.int.store offset)) hs.at_pos
      exact ⟨_, peek_at hs.emptyView hat (by simp), rfl⟩
    · rintro code rfl
      rw [if_neg (by decide)]
      refine Finds.looking (Q := fun m => m = blob.length) (fun s hs => ⟨_, ?_, rfl⟩) ?_
      · have hat := hs.at_pos
        rw [hbytes] at hat
        exact peekLength_ok hs.emptyView hlen
          (At.right (a := [(DataType.other .wrappedDataObject).typeCode]) hat).left
      · rintro m rfl
        exact Finds.seekPast (ofParts_length hfilled).symm rfl
  refine hparse.mono ?_
  rintro c rfl
  refine ⟨(ofParts_length hfilled).symm, fun client _ => ?_⟩
  have hcode : CObject.intAttr (ofParts parts) .typeCode =
      .ok ((DataType.other .wrappedDataObject).typeCode.toNat : ℤ) := by
    rw [CObject.intAttr, getInt_code hfilled hnd (by decide) List.mem_cons_self]
  have hpayload := attr_part hfilled hnd (n := .field "payload".toList)
    (c := .array (.scalar .byte) blob.length) (b := blob) (by simp [parts])
  have hoff := intAttr_part hfilled hnd (n := .offset) hoffset (by simp [parts])
  show (CObject.intAttr (ofParts parts) .typeCode >>= fun code =>
    if code = TC_NULL.toNat then .ok .none else WrappedDataObject.toPythonNotNull (ofParts parts)) = _
  rw [hcode, except_bind, if_neg (by decide), WrappedDataObject.toPythonNotNull, hpayload,
    except_bind, hoff, except_bind]

/-- A value that is not unwrapped. -/
def PyValue.Intact : PyValue → Bool
  | .tuple [.bytes _, .int _] => false
  | .tuple [a, .list _] => !a.isInstance .int
  | .tuple [a, .dict _] => !a.isInstance .int
  | _ => true

section Arrays
variable [Python] [OtherCodecs]

/-- Wrapped data: objects one after another, with the position of the root object. -/
structure WrappedArray (cl : Client) where
  objects : List PyValue
  root : Fin objects.length
  encodable : ∀ o ∈ objects, Encodable cl cl.compactFooter .binaryObject o
  found : ∀ o ∈ objects, SchemasFound .binaryObject o
  ne_none : ∀ o ∈ objects, o ≠ .none

namespace WrappedArray
variable {cl : Client} (w : WrappedArray cl)

def payload : Bytes := w.objects.flatMap (encode cl.compactFooter .binaryObject)

/-- The position of the root object. -/
def offset : ℕ :=
  ((w.objects.take w.root).flatMap (encode cl.compactFooter .binaryObject)).length

/-- What `WrappedDataObject` makes of it. -/
def value : PyValue := .tuple [.bytes w.payload, .int w.offset]

/-- The root object as it is read. -/
def rootObject : PyValue := decoded Scalar.byte.wrap .binaryObject w.objects[w.root]

/-- The object that stands first. -/
def firstObject : PyValue :=
  decoded Scalar.byte.wrap .binaryObject (w.objects.get ⟨0, Nat.zero_lt_of_lt w.root.2⟩)

end WrappedArray

end Arrays

/-! ### Values with wrapped data in them -/

section Nests
variable {W : Type} {value : W → PyValue}

/-- A key of a map that may hold wrapped data. -/
inductive NestKey (W : Type)
  | plain (v : PyValue) (h : v.Intact = true) (hashable : v.hashKey ≠ none)
  | wrapped (w : W)

namespace NestKey

/-- The key with something in place of wrapped data. -/
def form (pick : W → PyValue) : NestKey W → PyValue
  | plain v .. => v
  | wrapped w => pick w

def IsPlain : NestKey W → Prop
  | plain .. => True
  | wrapped _ => False

end NestKey

/-- Wrapped data, as `value` says, in collections, object arrays and maps. The keys of a map are
different. -/
inductive Nest (W : Type) (value : W → PyValue)
  | plain (v : PyValue) (h : v.Intact = true)
  | wrapped (w : W)
  | list (a : PyValue) (ha : a.isInstance .int = true) {n : ℕ} (xs : Fin n → Nest W value)
  | map (a : PyValue) (ha : a.isInstance .int = true) {n : ℕ} (keys : Fin n → NestKey W)
      (hnd : ∀ i j, i ≠ j → ((keys i).form value).sameKey ((keys j).form value) = false)
      (values : Fin n → Nest W value)

namespace Nest

/-- The value with something in place of wrapped data. -/
def form (pick : W → PyValue) : Nest W value → PyValue
  | plain v _ => v
  | wrapped w => pick w
  | list a _ xs => .tuple [a, .list (List.ofFn fun i => (xs i).form pick)]
  | map a _ keys _ values =>
    .tuple [a, .dict (List.ofFn fun i => ((keys i).form pick, (values i).form pick))]

/-- Everything wrapped that is not a key satisfies `P`. -/
def All (P : W → Prop) : Nest W value → Prop
  | plain .. => True
  | wrapped w => P w
  | list _ _ xs => ∀ i, (xs i).All P
  | map _ _ _ _ values => ∀ i, (values i).All P

/-- No key is wrapped data. -/
def KeysPlain : Nest W value → Prop
  | plain .. => True
  | wrapped _ => True
  | list _ _ xs => ∀ i, (xs i).KeysPlain
  | map _ _ keys _ values => (∀ i, (keys i).IsPlain) ∧ ∀ i, (values i).KeysPlain

end Nest

end Nests

/-! ### What a value is unwrapped as -/

namespace ClientM
variable {α β : Type} {m : ClientM α} {f : α → ClientM β} {client client' : Client}

theorem bind_ok {a : α} (h : m client = .ok (a, client')) : (m >>= f) client = f a client' := by
  simp only [bind, StateT.bind, h, Except.bind]

theorem bind_error {e : PyError} (h : m client = .error e) : (m >>= f) client = .error e := by
  simp only [bind, StateT.bind, h, Except.bind]

end ClientM

theorem lift_ok {α : Type} {x : Except PyError α} {a : α} (h : x = .ok a) (client : Client) :
    (StateT.lift x : ClientM α) client = .ok (a, client) := by
  rw [h]
  rfl

theorem lift_error {α : Type} {x : Except PyError α} {e : PyError} (h : x = .error e)
    (client : Client) : (StateT.lift x : ClientM α) client = .error e := by
  rw [h]
  rfl

/-- A new key is appended. -/
theorem dictSet_fresh {d : List (PyValue × PyValue)} {k v : PyValue} (hk : k.hashKey ≠ none)
    (hnew : ∀ p ∈ d, p.1.sameKey k = false) : PyValue.dictSet d k v = .ok (d ++ [(k, v)]) := by
  have hany : ¬(d.any fun p => p.1.sameKey k) = true := by
    rw [List.any_eq_true]
    rintro ⟨p, hp, hsame⟩
    exact Bool.false_ne_true ((hnew p hp).symm.trans hsame)
  obtain ⟨key, hkey⟩ := Option.ne_none_iff_exists'.mp hk
  rw [PyValue.dictSet, hkey]
  exact if_neg hany

theorem dictSet_unhashable {d : List (PyValue × PyValue)} {k v : PyValue} (hk : k.hashKey = none) :
    PyValue.dictSet d k v = raise .typeError := by
  unfold PyValue.dictSet
  rw [hk]

section Outcomes
variable [Python] [OtherCodecs] {cl : Client}

/-- By clients with the classes and the footers of `cl`, the value is unwrapped as `x` where `G`
holds, and is refused with a `TypeError` elsewhere. -/
def UnwrapsTo (cl : Client) (v x : PyValue) (G : Prop) : Prop :=
  ∀ client, SameClient cl client →
    (G → ∃ client', SameClient cl client' ∧ unwrapBinary v client = .ok (x, client')) ∧
    (¬G → unwrapBinary v client = raise .typeError)

theorem unwrapBinary_intact {v : PyValue} (h : v.Intact = true) (client : Client) :
    unwrapBinary v client = .ok (v, client) := by
  unfold PyValue.Intact at h
  split at h
  · cases h
  · have hint := Bool.not_eq_true' _ ▸ h
    rw [unwrapBinary, if_neg (by simp [hint])]
    rfl
  · have hint := Bool.not_eq_true' _ ▸ h
    rw [unwrapBinary, if_neg (by simp [hint])]
    rfl
  · rename_i hbytes hlist hdict
    rw [unwrapBinary.eq_4 _ hbytes hlist hdict]
    rfl

theorem unwrapBlob_eq {o : PyValue} (ho : Encodable cl cl.compactFooter .binaryObject o)
    (hfound : SchemasFound .binaryObject o) (rest : Bytes) {client : Client}
    (hclient : SameClient cl client) :
    ∃ client', SameClient cl client' ∧
      unwrapBlob (encode cl.compactFooter .binaryObject o ++ rest) client =
        .ok (decoded Scalar.byte.wrap .binaryObject o, client') := by
  have hbefore : Before (SameClient cl)
      ⟨client, encode cl.compactFooter .binaryObject o ++ rest, 0, false⟩
      (encode cl.compactFooter .binaryObject o) := ⟨rfl, hclient, List.prefix_append _ _⟩
  obtain ⟨c, r, hparse, hr, hsize, hpy⟩ := ho.reads hfound _ hbefore
  have hat : At r.buf 0 (encode cl.compactFooter .binaryObject o) := by
    rw [hr.buf]
    exact hbefore.at_pos
  have hback := readBackward_at hr.emptyView hat ho.encode_ne_nil hr.pos hsize.symm
  refine ⟨r.client, hr.client, except_bind_eq_ok.mpr ⟨(c, r), hparse, ?_⟩⟩
  refine except_bind_eq_ok.mpr ⟨(_, r), hback, ?_⟩
  exact except_bind_eq_ok.mpr ⟨_, hpy r.client hr.client, rfl⟩

theorem WrappedArray.unwraps (w : WrappedArray cl) : UnwrapsTo cl w.value w.firstObject True := by
  intro client hclient
  refine ⟨fun _ => ?_, fun h => absurd trivial h⟩
  have hpos : 0 < w.objects.length := Nat.zero_lt_of_lt w.root.2
  have hpayload : w.payload = encode cl.compactFooter .binaryObject w.objects[0] ++
      (w.objects.drop 1).flatMap (encode cl.compactFooter .binaryObject) := by
    rw [payload, ← List.flatMap_cons, ← List.drop_eq_getElem_cons hpos, List.drop_zero]
  rw [value, unwrapBinary, hpayload]
  exact unwrapBlob_eq (w.encodable _ (List.getElem_mem hpos)) (w.found _ (List.getElem_mem hpos)) _
    hclient

section Lists
variable {α : Type} {v x : α → PyValue} {G : α → Prop} {ps : List α}

variable (ps) in
theorem unwrapAll_eq (h : ∀ p ∈ ps, UnwrapsTo cl (v p) (x p) (G p)) {client : Client}
    (hclient : SameClient cl client) :
    ((∀ p ∈ ps, G p) → ∃ client', SameClient cl client' ∧
      unwrapAll (ps.map v) client = .ok (ps.map x, client')) ∧
    (¬(∀ p ∈ ps, G p) → unwrapAll (ps.map v) client = raise .typeError) := by
  induction ps generalizing client with
  | nil => exact ⟨fun _ => ⟨client, hclient, rfl⟩, fun hG => absurd (by simp) hG⟩
  | cons p ps ih =>
    rw [List.forall_mem_cons] at h
    rw [List.forall_mem_cons, List.map_cons, List.map_cons, unwrapAll]
    by_cases hp : G p
    · obtain ⟨client₁, hclient₁, hrun⟩ := (h.1 client hclient).1 hp
      have hrest := ih h.2 hclient₁
      rw [ClientM.bind_ok hrun]
      constructor
      · intro hG
        obtain ⟨client₂, hclient₂, hruns⟩ := hrest.1 hG.2
        exact ⟨client₂, hclient₂, ClientM.bind_ok hruns⟩
      · exact fun hG => ClientM.bind_error (hrest.2 fun hps => hG ⟨hp, hps⟩)
    · exact ⟨fun hG => absurd hG.1 hp, fun _ => ClientM.bind_error ((h.1 client hclient).2 hp)⟩

variable (ps) in
/-- Keys either stay as they are, or cannot be hashed any more. -/
theorem unwrapItems_eq (acc : List (PyValue × PyValue)) {k k' : α → PyValue}
    {K : α → Prop}
    (hkeys : ∀ p ∈ ps, UnwrapsTo cl (k p) (k' p) True)
    (hplain : ∀ p ∈ ps, K p → k' p = k p ∧ (k p).hashKey ≠ none)
    (hwrapped : ∀ p ∈ ps, ¬K p → (k' p).hashKey = none)
    (h : ∀ p ∈ ps, UnwrapsTo cl (v p) (x p) (G p))
    (hnew : ∀ a ∈ acc, ∀ p ∈ ps, a.1.sameKey (k p) = false)
    (hapart : ps.Pairwise fun p q => (k p).sameKey (k q) = false)
    {client : Client} (hclient : SameClient cl client) :
    ((∀ p ∈ ps, K p ∧ G p) → ∃ client', SameClient cl client' ∧
      unwrapItems (ps.map fun p => (k p, v p)) acc client =
        .ok (acc ++ ps.map fun p => (k p, x p), client')) ∧
    (¬(∀ p ∈ ps, K p ∧ G p) →
      unwrapItems (ps.map fun p => (k p, v p)) acc client = raise .typeError) := by
  induction ps generalizing client acc with
  | nil =>
    refine ⟨fun _ => ⟨client, hclient, ?_⟩, fun hG => absurd (by simp) hG⟩
    rw [List.map_nil, List.map_nil, List.append_nil]
    rfl
  | cons p ps ih =>
    rw [List.forall_mem_cons] at hkeys hplain hwrapped h
    rw [List.forall_mem_cons, List.map_cons, List.map_cons, unwrapItems]
    obtain ⟨client₁, hclient₁, hkey⟩ := (hkeys.1 client hclient).1 trivial
    rw [ClientM.bind_ok hkey]
    by_cases hp : G p
    · obtain ⟨client₂, hclient₂, hvalue⟩ := (h.1 client₁ hclient₁).1 hp
      rw [ClientM.bind_ok hvalue]
      by_cases hK : K p
      · obtain ⟨hsame, hhash⟩ := hplain.1 hK
        have hset := dictSet_fresh (v := x p) hhash fun a ha => hnew a ha p List.mem_cons_self
        have hothers : ∀ a ∈ acc ++ [(k p, x p)], ∀ q ∈ ps, a.1.sameKey (k q) = false := by
          rw [List.forall_mem_append, List.forall_mem_singleton]
          exact ⟨fun a ha q hq => hnew a ha q (List.mem_cons_of_mem _ hq),
            (List.pairwise_cons.mp hapart).1⟩
        rw [hsame, ClientM.bind_ok (lift_ok hset client₂)]
        have hrest := ih (acc ++ [(k p, x p)]) hkeys.2 hplain.2 hwrapped.2 h.2 hothers
          (List.pairwise_cons.mp hapart).2 hclient₂
        rw [List.append_assoc] at hrest
        exact ⟨fun hG => hrest.1 hG.2, fun hG => hrest.2 fun hps => hG ⟨⟨hK, hp⟩, hps⟩⟩
      · have hset := dictSet_unhashable (d := acc) (v := x p) (hwrapped.1 hK)
        exact ⟨fun hG => absurd hG.1.1 hK, fun _ => ClientM.bind_error (lift_error hset client₂)⟩
    · exact ⟨fun hG => absurd hG.1.2 hp,
        fun _ => ClientM.bind_error ((h.1 client₁ hclient₁).2 hp)⟩

end Lists

theorem WrappedArray.firstObject_unhashable (w : WrappedArray cl) :
    w.firstObject.hashKey = none := by
  have hpos : 0 < w.objects.length := Nat.zero_lt_of_lt w.root.2
  have ho := w.encodable _ (List.getElem_mem hpos)
  have hne := w.ne_none _ (List.getElem_mem hpos)
  rw [firstObject, List.get_eq_getElem]
  generalize w.objects[0] = o at ho hne ⊢
  cases ho with
  | none => exact absurd rfl hne
  | int ht => cases ht
  | enum ht => rcases ht with h | h <;> cases h
  | intArray ht => cases ht
  | standardArray ht => cases ht
  | obj =>
    simp [decoded, PyValue.hashKey]

namespace NestKey

theorem unwraps (k : NestKey (WrappedArray cl)) :
    UnwrapsTo cl (k.form WrappedArray.value) (k.form WrappedArray.firstObject) True := by
  cases k with
  | plain v h =>
    exact fun client hclient => ⟨fun _ => ⟨client, hclient, unwrapBinary_intact h client⟩,
      fun hG => absurd trivial hG⟩
  | wrapped w => exact w.unwraps

theorem form_plain {k : NestKey (WrappedArray cl)} (h : k.IsPlain) :
    k.form WrappedArray.firstObject = k.form WrappedArray.value ∧
      (k.form WrappedArray.value).hashKey ≠ none := by
  cases k with
  | plain v _ hashable => exact ⟨rfl, hashable⟩
  | wrapped w => exact h.elim

theorem form_wrapped {k : NestKey (WrappedArray cl)} (h : ¬k.IsPlain) :
    (k.form WrappedArray.firstObject).hashKey = none := by
  cases k with
  | plain => exact absurd trivial h
  | wrapped w => exact w.firstObject_unhashable

end NestKey

namespace Nest

theorem unwraps (n : Nest (WrappedArray cl) WrappedArray.value) :
    UnwrapsTo cl (n.form WrappedArray.value) (n.form WrappedArray.firstObject) n.KeysPlain := by
  induction n with
  | plain v h =>
    exact fun client hclient => ⟨fun _ => ⟨client, hclient, unwrapBinary_intact h client⟩,
      fun hG => absurd trivial hG⟩
  | wrapped w => exact w.unwraps
  | @list a ha n xs ih =>
    intro client hclient
    have hrun := unwrapAll_eq (List.finRange n) (fun i _ => ih i) hclient
    rw [← List.ofFn_eq_map, ← List.ofFn_eq_map] at hrun
    have hG : (∀ i ∈ List.finRange n, (xs i).KeysPlain) ↔ (list a ha xs).KeysPlain := by
      simp [KeysPlain]
    rw [hG] at hrun
    rw [form, form, unwrapBinary, if_pos ha]
    constructor
    · intro h
      obtain ⟨client', hclient', hxs⟩ := hrun.1 h
      exact ⟨client', hclient', ClientM.bind_ok hxs⟩
    · exact fun h => ClientM.bind_error (hrun.2 h)
  | @map a ha n keys hnd values ih =>
    intro client hclient
    have hrun := unwrapItems_eq (List.finRange n) [] (K := fun i => (keys i).IsPlain)
      (fun i _ => (keys i).unwraps) (fun i _ => NestKey.form_plain)
      (fun i _ => NestKey.form_wrapped) (fun i _ => ih i)
      (by simp) ((List.nodup_finRange n).imp fun hij => hnd _ _ hij) hclient
    rw [← List.ofFn_eq_map, ← List.ofFn_eq_map, List.nil_append] at hrun
    have hG : (∀ i ∈ List.finRange n, (keys i).IsPlain ∧ (values i).KeysPlain) ↔
        (map a ha keys hnd values).KeysPlain := by
      simp [KeysPlain, forall_and]
    rw [hG] at hrun
    rw [form, form, unwrapBinary, if_pos ha]
    constructor
    · intro h
      obtain ⟨client', hclient', hkvs⟩ := hrun.1 h
      have hsame : (fun i => ((keys i).form WrappedArray.firstObject,
          (values i).form WrappedArray.firstObject)) = fun i =>
            ((keys i).form WrappedArray.value, (values i).form WrappedArray.firstObject) :=
        funext fun i => by rw [(NestKey.form_plain (h.1 i)).1]
      rw [hsame]
      exact ⟨client', hclient', ClientM.bind_ok hkvs⟩
    · exact fun h => ClientM.bind_error (hrun.2 h)

omit [Python] [OtherCodecs] in
/-- Without wrapped keys, two forms of a value are the same exactly if they put the same in place
of every wrapped array. -/
theorem form_eq_iff {W : Type} {value f g : W → PyValue} {n : Nest W value} (h : n.KeysPlain) :
    n.form f = n.form g ↔ n.All fun w => f w = g w := by
  induction n with
  | plain v _ => exact iff_of_true rfl trivial
  | wrapped w => rfl
  | list a ha xs ih =>
    simp only [form, All, PyValue.tuple.injEq, List.cons.injEq, PyValue.list.injEq, true_and,
      and_true, List.ofFn_inj, funext_iff]
    exact forall_congr' fun i => ih i (h i)
  | map a ha keys hnd values ih =>
    have hkeys : ∀ i, (keys i).form f = (keys i).form g := fun i => by
      have hi := h.1 i
      cases hk : keys i with
      | plain => rfl
      | wrapped w =>
        rw [hk] at hi
        exact hi.elim
    simp only [form, All, PyValue.tuple.injEq, List.cons.injEq, PyValue.dict.injEq, true_and,
      and_true, List.ofFn_inj, funext_iff, Prod.mk.injEq, hkeys]
    exact forall_congr' fun i => ih i (h.2 i)

end Nest

end Outcomes

end PyGridGain
