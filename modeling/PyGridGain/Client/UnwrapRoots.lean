import PyGridGain.Client.UnwrapBinary

/-! What `unwrap_binary` gives where the wrapped bytes are any bytes around a Complex object: it
reads them from the first one on, wherever the object starts. -/

namespace PyGridGain

open CObj StreamM

/-! ### Steps of a client -/

namespace ClientM
variable {α β : Type} {m : ClientM α} {f : α → ClientM β} {client client' : Client}

theorem bind_eq_ok {b : β} : (m >>= f) client = .ok (b, client') ↔
    ∃ a client₁, m client = .ok (a, client₁) ∧ f a client₁ = .ok (b, client') := by
  constructor
  · intro h
    obtain ⟨⟨a, client₁⟩, hm, hf⟩ := except_bind_eq_ok.mp h
    exact ⟨a, client₁, hm, hf⟩
  · rintro ⟨a, client₁, hm, hf⟩
    rw [bind_ok hm, hf]

theorem pure_eq_ok {a b : α} :
    (pure a : ClientM α) client = .ok (b, client') ↔ a = b ∧ client = client' := by
  show Except.ok (a, client) = Except.ok (b, client') ↔ _
  rw [Except.ok.injEq, Prod.mk.injEq]

theorem lift_eq_ok {x : Except PyError α} {a : α} :
    (StateT.lift x : ClientM α) client = .ok (a, client') ↔ x = .ok a ∧ client = client' := by
  cases x with
  | error e =>
    rw [lift_error rfl]
    exact iff_of_false (by rintro ⟨⟩) (by rintro ⟨⟨⟩, -⟩)
  | ok b =>
    rw [lift_ok rfl, Except.ok.injEq, Except.ok.injEq, Prod.mk.injEq]

end ClientM

theorem dictSet_hashable {d d' : List (PyValue × PyValue)} {k v : PyValue}
    (h : PyValue.dictSet d k v = .ok d') (hd : ∀ p ∈ d, p.1.hashKey ≠ none) :
    ∀ p ∈ d', p.1.hashKey ≠ none := by
  cases hk : k.hashKey with
  | none =>
    rw [dictSet_unhashable hk] at h
    cases h
  | some key =>
    unfold PyValue.dictSet at h
    rw [hk] at h
    dsimp only at h
    split_ifs at h
    · obtain rfl := Except.ok.inj h
      rw [List.forall_mem_map]
      intro p hp
      split_ifs
      · exact hd p hp
      · exact hd p hp
    · obtain rfl := Except.ok.inj h
      rw [List.forall_mem_append, List.forall_mem_singleton]
      exact ⟨hd, by simp [hk]⟩

/-! ### Bytes around an object -/

section Wrapped
variable [Python] [OtherCodecs]

/-- `BinaryObject` reads an object where it starts in the bytes. -/
def readAt (blob : Bytes) (offset : ℕ) : ClientM PyValue := fun client => do
  let (c, stream) ← parse .binaryObject ⟨client, blob, offset, false⟩
  let (o, stream) ← readBackward c stream
  let x ← toPython (some stream.client) .binaryObject o
  .ok (x, stream.client)

/-- The position is not looked at. -/
theorem unwrapBlob_eq_readAt (blob : Bytes) : unwrapBlob blob = readAt blob 0 := rfl

theorem readAt_eq {I : Client → Prop} {blob object : Bytes} {offset : ℕ} {x : PyValue}
    (hat : At blob offset object) (hreads : Reads I (wireClass .binaryObject) object x)
    (hne : object ≠ []) {client : Client} (hclient : I client) :
    ∃ client', I client' ∧ readAt blob offset client = .ok (x, client') := by
  have hbefore : Before I ⟨client, blob, offset, false⟩ object := ⟨rfl, hclient, hat⟩
  obtain ⟨c, r, hparse, hr, hsize, hpy⟩ := hreads _ hbefore
  have hat' : At r.buf offset object := by
    rw [hr.buf]
    exact hat
  have hback := readBackward_at hr.emptyView hat' hne hr.pos hsize.symm
  refine ⟨r.client, hr.client, except_bind_eq_ok.mpr ⟨(c, r), hparse, ?_⟩⟩
  refine except_bind_eq_ok.mpr ⟨(_, r), hback, ?_⟩
  exact except_bind_eq_ok.mpr ⟨_, hpy r.client hr.client, rfl⟩

/-- A wrapped value: any bytes, at a position of which a Complex object starts that the clients
with `I` have a class for. -/
structure WrappedRoot (I : Client → Prop) where
  before : Bytes
  object : Bytes
  after : Bytes
  root : PyValue
  reads : Reads I (wireClass .binaryObject) object root
  isObject : ∃ head fields, root = .obj head fields
  object_ne_nil : object ≠ []
  length_lt : (before ++ (object ++ after)).length < 2 ^ 31

namespace WrappedRoot
variable {I : Client → Prop} (w : WrappedRoot I)

def payload : Bytes := w.before ++ (w.object ++ w.after)

def offset : ℕ := w.before.length

def value : PyValue := .tuple [.bytes w.payload, .int w.offset]

/-- The wrapped value on the wire. -/
def wire : Bytes := (DataType.other .wrappedDataObject).typeCode ::
  (Scalar.int.store w.payload.length ++ (w.payload ++ Scalar.int.store w.offset))

/-- The value that `WrappedDataObject` decodes. -/
theorem reads_wire : Reads I wrappedDataObject w.wire w.value := by
  have hle : w.offset ≤ w.payload.length := by
    rw [offset, payload, List.length_append]
    exact Nat.le_add_right _ _
  exact reads_wrappedDataObject w.length_lt (range_of_lt (Nat.lt_of_le_of_lt hle w.length_lt))

theorem at_offset : At w.payload w.offset w.object := by
  rw [payload, ← List.append_assoc]
  exact at_of_eq w.before w.object w.after

/-- The object that is encoded at the position. -/
theorem readAt_offset {client : Client} (hclient : I client) :
    ∃ client', I client' ∧ readAt w.payload w.offset client = .ok (w.root, client') :=
  readAt_eq w.at_offset w.reads w.object_ne_nil hclient

theorem root_unhashable : w.root.hashKey = none := by
  obtain ⟨head, fields, h⟩ := w.isObject
  rw [h]
  simp [PyValue.hashKey]

end WrappedRoot

/-- The bytes of the wrapped values, one after another, are read from their first on as the objects
at their positions. -/
def ReadFromStart {I : Client → Prop} : List (WrappedRoot I) → Client → Client → Prop
  | [], client, client' => client = client'
  | w :: ws, client, client' =>
    ∃ client₁, readAt w.payload 0 client = .ok (w.root, client₁) ∧ ReadFromStart ws client₁ client'

variable {I : Client → Prop} {client client' : Client}

theorem readFromStart_append {ws ws' : List (WrappedRoot I)} :
    ReadFromStart (ws ++ ws') client client' ↔
      ∃ client₁, ReadFromStart ws client client₁ ∧ ReadFromStart ws' client₁ client' := by
  induction ws generalizing client with
  | nil =>
    constructor
    · exact fun h => ⟨client, rfl, h⟩
    · rintro ⟨_, rfl, h⟩
      exact h
  | cons w ws ih =>
    simp only [List.cons_append, ReadFromStart, ih]
    constructor
    · rintro ⟨client₁, hread, client₂, hws, hws'⟩
      exact ⟨client₂, ⟨client₁, hread, hws⟩, hws'⟩
    · rintro ⟨client₂, ⟨client₁, hread, hws⟩, hws'⟩
      exact ⟨client₁, hread, client₂, hws, hws'⟩

/-- Each of the wrapped values begins with an object, and these are the objects. -/
def BeginWith (first : WrappedRoot I → PyValue) (ws : List (WrappedRoot I)) : Prop :=
  ∀ w ∈ ws, ∃ object, object ≠ [] ∧ object <+: w.payload ∧
    Reads I (wireClass .binaryObject) object (first w)

theorem beginWith_root {ws : List (WrappedRoot I)} (h : ∀ w ∈ ws, w.offset = 0) :
    BeginWith WrappedRoot.root ws := by
  intro w hw
  have hat := w.at_offset
  rw [h w hw] at hat
  exact ⟨w.object, w.object_ne_nil, hat, w.reads⟩

/-- Objects that stand first are what is read. -/
theorem readFromStart_iff_first {first : WrappedRoot I → PyValue} {ws : List (WrappedRoot I)}
    (h : BeginWith first ws) (hclient : I client) :
    (∃ client', ReadFromStart ws client client') ↔ ∀ w ∈ ws, first w = w.root := by
  induction ws generalizing client with
  | nil => exact iff_of_true ⟨client, rfl⟩ (by simp)
  | cons w ws ih =>
    rw [BeginWith, List.forall_mem_cons] at h
    obtain ⟨⟨object, hne, hprefix, hreads⟩, hws⟩ := h
    have hat : At w.payload 0 object := hprefix
    obtain ⟨client₁, hclient₁, hread⟩ := readAt_eq hat hreads hne hclient
    rw [List.forall_mem_cons, ← ih hws hclient₁]
    constructor
    · rintro ⟨client', client₂, hread', hrest⟩
      obtain ⟨hfirst, rfl⟩ := Prod.mk.inj (Except.ok.inj (hread.symm.trans hread'))
      exact ⟨hfirst, client', hrest⟩
    · rintro ⟨hfirst, client', hrest⟩
      rw [hfirst] at hread
      exact ⟨client', client₁, hread, hrest⟩

end Wrapped

/-! ### Lists and dicts -/

section Lists
variable [Python] [OtherCodecs] {I : Client → Prop} {α : Type} {client client' : Client}

theorem unwrapAll_length {xs ys : List PyValue} (h : unwrapAll xs client = .ok (ys, client')) :
    ys.length = xs.length := by
  induction xs generalizing client client' ys with
  | nil =>
    rw [unwrapAll, ClientM.pure_eq_ok] at h
    rw [← h.1]
  | cons x xs ih =>
    rw [unwrapAll] at h
    obtain ⟨y, client₁, -, h⟩ := ClientM.bind_eq_ok.mp h
    obtain ⟨zs, client₂, hzs, h⟩ := ClientM.bind_eq_ok.mp h
    obtain ⟨rfl, -⟩ := ClientM.pure_eq_ok.mp h
    rw [List.length_cons, List.length_cons, ih hzs]

/-- A list is unwrapped as the roots exactly if each element is. -/
theorem unwrapAll_roots {v x : α → PyValue} {G : α → Prop} {ws : α → List (WrappedRoot I)}
    (ps : List α) (h : ∀ p ∈ ps, ∀ client client', unwrapBinary (v p) client = .ok (x p, client') ↔
      G p ∧ ReadFromStart (ws p) client client') (client client' : Client) :
    unwrapAll (ps.map v) client = .ok (ps.map x, client') ↔
      (∀ p ∈ ps, G p) ∧ ReadFromStart (ps.flatMap ws) client client' := by
  induction ps generalizing client with
  | nil =>
    rw [List.map_nil, List.map_nil, unwrapAll, ClientM.pure_eq_ok]
    simp [ReadFromStart]
  | cons p ps ih =>
    rw [List.forall_mem_cons] at h
    rw [List.map_cons, List.map_cons, unwrapAll, List.flatMap_cons, readFromStart_append,
      List.forall_mem_cons]
    constructor
    · intro hrun
      obtain ⟨y, client₁, hy, hrun⟩ := ClientM.bind_eq_ok.mp hrun
      obtain ⟨ys, client₂, hys, hrun⟩ := ClientM.bind_eq_ok.mp hrun
      obtain ⟨heq, rfl⟩ := ClientM.pure_eq_ok.mp hrun
      obtain ⟨rfl, rfl⟩ := List.cons.inj heq
      obtain ⟨hp, hfirst⟩ := (h.1 _ _).mp hy
      obtain ⟨hps, hrest⟩ := (ih h.2 _).mp hys
      exact ⟨⟨hp, hps⟩, client₁, hfirst, hrest⟩
    · rintro ⟨⟨hp, hps⟩, client₁, hfirst, hrest⟩
      refine ClientM.bind_eq_ok.mpr ⟨_, client₁, (h.1 _ _).mpr ⟨hp, hfirst⟩, ?_⟩
      exact ClientM.bind_eq_ok.mpr ⟨_, client', (ih h.2 _).mpr ⟨hps, hrest⟩, rfl⟩

/-- The keys of what a dict is unwrapped as can be hashed. -/
theorem unwrapItems_hashable {kvs acc d : List (PyValue × PyValue)}
    (hacc : ∀ p ∈ acc, p.1.hashKey ≠ none) (h : unwrapItems kvs acc client = .ok (d, client')) :
    ∀ p ∈ d, p.1.hashKey ≠ none := by
  induction kvs generalizing acc client with
  | nil =>
    rw [unwrapItems, ClientM.pure_eq_ok] at h
    rwa [← h.1]
  | cons kv kvs ih =>
    obtain ⟨k, v⟩ := kv
    rw [unwrapItems] at h
    obtain ⟨k', client₁, -, h⟩ := ClientM.bind_eq_ok.mp h
    obtain ⟨v', client₂, -, h⟩ := ClientM.bind_eq_ok.mp h
    obtain ⟨acc', client₃, hset, h⟩ := ClientM.bind_eq_ok.mp h
    exact ih (dictSet_hashable (ClientM.lift_eq_ok.mp hset).1 hacc) h

/-- With keys that stay as they are, the values of a dict are unwrapped as a list is. -/
theorem unwrapItems_plain {k v : α → PyValue} (ps : List α) (acc : List (PyValue × PyValue))
    (hkeys : ∀ p ∈ ps, (k p).Intact = true ∧ (k p).hashKey ≠ none)
    (hnew : ∀ a ∈ acc, ∀ p ∈ ps, a.1.sameKey (k p) = false)
    (hapart : ps.Pairwise fun p q => (k p).sameKey (k q) = false) :
    unwrapItems (ps.map fun p => (k p, v p)) acc client =
      (unwrapAll (ps.map v) client).map fun r => (acc ++ (ps.map k).zip r.1, r.2) := by
  induction ps generalizing acc client with
  | nil =>
    simp only [List.map_nil, unwrapItems, unwrapAll]
    show Except.ok (acc, client) = Except.ok (acc ++ [], client)
    rw [List.append_nil]
  | cons p ps ih =>
    rw [List.forall_mem_cons] at hkeys
    rw [List.pairwise_cons] at hapart
    simp only [List.map_cons, unwrapItems, unwrapAll]
    rw [ClientM.bind_ok (unwrapBinary_intact hkeys.1.1 client)]
    cases hv : unwrapBinary (v p) client with
    | error e =>
      rw [ClientM.bind_error hv, ClientM.bind_error hv]
      rfl
    | ok r =>
      obtain ⟨x, client₁⟩ := r
      have hset := dictSet_fresh (v := x) hkeys.1.2 fun a ha => hnew a ha p List.mem_cons_self
      have hothers : ∀ a ∈ acc ++ [(k p, x)], ∀ q ∈ ps, a.1.sameKey (k q) = false := by
        rw [List.forall_mem_append, List.forall_mem_singleton]
        exact ⟨fun a ha q hq => hnew a ha q (List.mem_cons_of_mem _ hq), hapart.1⟩
      rw [ClientM.bind_ok hv, ClientM.bind_ok hv, ClientM.bind_ok (lift_ok hset client₁),
        ih (acc ++ [(k p, x)]) hkeys.2 hothers hapart.2]
      cases hxs : unwrapAll (ps.map v) client₁ with
      | error e =>
        rw [ClientM.bind_error hxs]
        rfl
      | ok r =>
        rw [ClientM.bind_ok hxs]
        show Except.ok (acc ++ [(k p, x)] ++ (ps.map k).zip r.1, r.2) =
          Except.ok (acc ++ (k p, x) :: (ps.map k).zip r.1, r.2)
        rw [List.append_assoc, List.singleton_append]

/-- The values are what decides. -/
theorem unwrapItems_plain_iff {k v x : α → PyValue} (ps : List α)
    (hkeys : ∀ p ∈ ps, (k p).Intact = true ∧ (k p).hashKey ≠ none)
    (hapart : ps.Pairwise fun p q => (k p).sameKey (k q) = false) (client client' : Client) :
    unwrapItems (ps.map fun p => (k p, v p)) [] client =
        .ok (ps.map fun p => (k p, x p), client') ↔
      unwrapAll (ps.map v) client = .ok (ps.map x, client') := by
  rw [unwrapItems_plain ps [] hkeys (by simp) hapart]
  cases hxs : unwrapAll (ps.map v) client with
  | error e => exact iff_of_false (by rintro ⟨⟩) (by rintro ⟨⟩)
  | ok r =>
    obtain ⟨xs, client₁⟩ := r
    have hlength : xs.length = ps.length := by
      rw [unwrapAll_length hxs, List.length_map]
    have hzip : (ps.map k).zip xs = (ps.map fun p => (k p, x p)) ↔ xs = ps.map x := by
      constructor
      · intro h
        have hsnd := congrArg (List.map Prod.snd) h
        rw [List.map_snd_zip (by rw [hlength, List.length_map]), List.map_map] at hsnd
        exact hsnd
      · rintro rfl
        exact List.zip_map'
    show Except.ok ((ps.map k).zip xs, client₁) = Except.ok (ps.map fun p => (k p, x p), client') ↔ _
    rw [Except.ok.injEq, Except.ok.injEq, Prod.mk.injEq, Prod.mk.injEq, hzip]

end Lists

/-! ### Nested values -/

namespace Nest
variable {W : Type} {value : W → PyValue}

/-- What is wrapped and no key, in the order in which it is unwrapped. -/
def wrappedValues : Nest W value → List W
  | plain .. => []
  | wrapped w => [w]
  | list _ _ xs => (List.finRange _).flatMap fun i => (xs i).wrappedValues
  | map _ _ _ _ values => (List.finRange _).flatMap fun i => (values i).wrappedValues

end Nest

section Roots
variable [Python] [OtherCodecs] {I : Client → Prop}

/-- Every wrapped value is replaced by the object at its position, and nothing else changes. -/
def UnwrapsRoots (n : Nest (WrappedRoot I) WrappedRoot.value) (client : Client) : Prop :=
  ∃ client', unwrapBinary (n.form WrappedRoot.value) client =
    .ok (n.form WrappedRoot.root, client')

theorem Nest.unwrapBinary_roots (n : Nest (WrappedRoot I) WrappedRoot.value)
    (client client' : Client) :
    unwrapBinary (n.form WrappedRoot.value) client = .ok (n.form WrappedRoot.root, client') ↔
      n.KeysPlain ∧ ReadFromStart n.wrappedValues client client' := by
  induction n generalizing client client' with
  | plain v h =>
    rw [form, form, unwrapBinary_intact h, Except.ok.injEq, Prod.mk.injEq]
    exact and_congr_left' (iff_of_true rfl trivial)
  | wrapped w =>
    rw [form, form, WrappedRoot.value, unwrapBinary, unwrapBlob_eq_readAt]
    constructor
    · exact fun h => ⟨trivial, client', h, rfl⟩
    · rintro ⟨-, _, h, rfl⟩
      exact h
  | @list a ha n xs ih =>
    have hall := unwrapAll_roots (List.finRange n) (fun i _ => ih i) client client'
    have hG : (∀ i ∈ List.finRange n, (xs i).KeysPlain) ↔ (list a ha xs).KeysPlain := by
      simp [KeysPlain]
    rw [← List.ofFn_eq_map, ← List.ofFn_eq_map, hG] at hall
    rw [form, form, unwrapBinary, if_pos ha, wrappedValues, ← hall]
    constructor
    · intro h
      obtain ⟨ys, client₁, hys, h⟩ := ClientM.bind_eq_ok.mp h
      obtain ⟨heq, rfl⟩ := ClientM.pure_eq_ok.mp h
      obtain rfl : ys = List.ofFn fun i => (xs i).form WrappedRoot.root := by simpa using heq
      exact hys
    · exact fun h => ClientM.bind_ok h
  | @map a ha n keys hnd values ih =>
    rw [form, form, unwrapBinary, if_pos ha, wrappedValues]
    by_cases hplain : ∀ i, (keys i).IsPlain
    · -- the keys stay as they are
      have hkeys : ∀ i, (keys i).form WrappedRoot.root = (keys i).form WrappedRoot.value ∧
          ((keys i).form WrappedRoot.value).Intact = true ∧
            ((keys i).form WrappedRoot.value).hashKey ≠ none := fun i => by
        have hi := hplain i
        cases hk : keys i with
        | plain v h hashable => exact ⟨rfl, h, hashable⟩
        | wrapped w =>
          rw [hk] at hi
          exact hi.elim
      have hitems := unwrapItems_plain_iff (v := fun i => (values i).form WrappedRoot.value)
        (x := fun i => (values i).form WrappedRoot.root) (List.finRange n) (fun i _ => (hkeys i).2)
        ((List.nodup_finRange n).imp fun hij => hnd _ _ hij) client client'
      have hall := unwrapAll_roots (List.finRange n) (fun i _ => ih i) client client'
      have hG : (∀ i ∈ List.finRange n, (values i).KeysPlain) ↔
          (map a ha keys hnd values).KeysPlain := by
        simp [KeysPlain, hplain]
      rw [hG] at hall
      rw [hall, ← List.ofFn_eq_map, ← List.ofFn_eq_map] at hitems
      rw [← hitems]
      simp only [(hkeys _).1]
      constructor
      · intro h
        obtain ⟨d, client₁, hd, h⟩ := ClientM.bind_eq_ok.mp h
        obtain ⟨heq, rfl⟩ := ClientM.pure_eq_ok.mp h
        obtain rfl : d = List.ofFn fun i => ((keys i).form WrappedRoot.value,
          (values i).form WrappedRoot.root) := by simpa using heq
        exact hd
      · exact fun h => ClientM.bind_ok h
    · -- a dict has no object as a key
      refine iff_of_false (fun h => ?_) fun h => hplain h.1.1
      obtain ⟨i, hi⟩ := not_forall.mp hplain
      obtain ⟨d, client₁, hd, h⟩ := ClientM.bind_eq_ok.mp h
      obtain ⟨heq, -⟩ := ClientM.pure_eq_ok.mp h
      obtain rfl : d = List.ofFn fun i => ((keys i).form WrappedRoot.root,
        (values i).form WrappedRoot.root) := by simpa using heq
      refine unwrapItems_hashable (by simp) hd _ (List.mem_ofFn.mpr ⟨i, rfl⟩) ?_
      cases hk : keys i with
      | plain v _ _ =>
        rw [hk] at hi
        exact absurd trivial hi
      | wrapped w => exact w.root_unhashable

end Roots

/-- A client with a class of one field, and two of its objects. -/
def numberClass : DataClass := ⟨['D'], [(['x'], .intObject)]⟩

def numberClient : Client :=
  let _ := asciiLower
  ⟨some false, fun _ => [(numberClass.schemaId, numberClass)], fun _ => []⟩

def number (i : Fin 2) : PyValue :=
  .obj ⟨0, ['D'], 1, none, none⟩ [(['x'], .intObject, .int i.val)]

theorem number_encodable (i : Fin 2) :
    let _ := asciiLower
    let _ := noOtherCodecs
    Encodable numberClient false .binaryObject (number i) ∧ SchemasFound .binaryObject (number i) := by
  intro _ _
  have hfields : ∀ f ∈ [(['x'], DataType.intObject, PyValue.int i.val)],
      Encodable numberClient false f.2.1 f.2.2 := by
    rw [List.forall_mem_singleton]
    exact .int rfl (by decide +revert)
  have hregistered : numberClient.Registered numberClass := by decide
  have hlength : ∀ i, (encode false .binaryObject (number i)).length < 2 ^ 31 := by decide
  refine ⟨.obj (by simp) (by simp) hfields hregistered (hlength i) (by simp), ?_⟩
  rintro o (_ | ⟨_, ⟨⟩⟩)
  change numberClass.schemaId ≠ 0
  decide

/-- The two objects one after the other, with one of them as the root. -/
def wrappedNumbers (i : Fin 2) :
    let _ := asciiLower
    let _ := noOtherCodecs
    WrappedRoot (SameClient numberClient) :=
  let _ := asciiLower
  let _ := noOtherCodecs
  { before := if i = 0 then [] else encode false .binaryObject (number 0)
    object := encode false .binaryObject (number i)
    after := if i = 0 then encode false .binaryObject (number 1) else []
    root := number i
    reads := (number_encodable i).1.reads (number_encodable i).2
    isObject := ⟨_, _, rfl⟩
    object_ne_nil := (number_encodable i).1.encode_ne_nil
    length_lt := by decide +revert }

end PyGridGain
