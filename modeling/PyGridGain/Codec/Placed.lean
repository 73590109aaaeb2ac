import PyGridGain.Codec.FreshWrites
import PyGridGain.Codec.StructWrites
import PyGridGain.Datatypes.Payloads

/-! A value gives the same bytes on every stream, whatever it has cached: where a class writes it
to a stream of its own, it writes the same at the end of any other. -/

namespace PyGridGain

open StreamM PyValue

/-- What the first action writes to a stream, the second one writes to every other. -/
abbrev Places {α : Type} (cf : Bool) (m m' : StreamM α) : Prop := Follows cf (fun _ => True) m m'

namespace Places
variable {α β : Type} {cf : Bool} {m m' : StreamM α} {f f' : α → StreamM β}

theorem bind (hm : Places cf m m') (hf : ∀ a a', Places cf (f a) (f' a')) :
    Places cf (m >>= f) (m' >>= f') :=
  Follows.bind hm fun a a' => (hf a a').mono fun _ _ _ => trivial

end Places

/-- A writer of nested values that places them. -/
abbrev RecPlaces (cf : Bool) (rec : DataType → PyValue → StreamM PyValue) : Prop :=
  ∀ t v, Places cf (rec t v) (rec t v)

section Containers
variable {cf : Bool} {rec : DataType → PyValue → StreamM PyValue}

theorem inferFromPython_places (hrec : RecPlaces cf rec) (v : PyValue) :
    Places cf (inferFromPython rec v) (inferFromPython rec v) := by
  by_cases hhint : ∃ x t, v = .hinted x t
  · obtain ⟨x, t, rfl⟩ := hhint
    exact (hrec t x).bind fun _ _ => Follows.pure trivial
  · have hv : ∀ x t, v ≠ .hinted x t := fun x t heq => hhint ⟨x, t, heq⟩
    rw [inferFromPython_other hv]
    exact Follows.lift fun t _ => hrec t v

theorem inferAll_places (hrec : RecPlaces cf rec) (xs : List PyValue) :
    Places cf (inferAll rec xs) (inferAll rec xs) := by
  induction xs with
  | nil => exact Follows.pure trivial
  | cons x xs ih =>
    exact (inferFromPython_places hrec x).bind fun _ _ => Places.bind ih fun _ _ =>
      Follows.pure trivial

theorem inferPairs_places (hrec : RecPlaces cf rec) (kvs : List (PyValue × PyValue)) :
    Places cf (inferPairs rec kvs) (inferPairs rec kvs) := by
  induction kvs with
  | nil => exact Follows.pure trivial
  | cons p kvs ih =>
    exact (inferFromPython_places hrec p.1).bind fun _ _ =>
      (inferFromPython_places hrec p.2).bind fun _ _ => Places.bind ih fun _ _ =>
        Follows.pure trivial

theorem writeStandard_places (hrec : RecPlaces cf rec) (std : DataType) (xs : List PyValue) :
    Places cf (writeStandard rec std xs) (writeStandard rec std xs) := by
  induction xs with
  | nil => exact Follows.pure trivial
  | cons x xs ih => exact Places.bind (hrec std x) fun _ _ => ih

theorem writeStandardArray_places (hrec : RecPlaces cf rec) (t std : DataType) (v : PyValue) :
    Places cf (writeStandardArray rec t std v) (writeStandardArray rec t std v) :=
  Follows.ofOption fun xs _ => Follows.andThen _ (Follows.ofOption fun b _ =>
    Follows.andThen b (writeStandard_places hrec std xs))

theorem writeObjectArray_places (hrec : RecPlaces cf rec) (v : PyValue) :
    Places cf (writeObjectArray rec v) (writeObjectArray rec v) :=
  Follows.ofOption fun _ _ => Follows.andThen _ (Follows.ofOption fun _ _ =>
    Follows.ofOption fun k _ => Follows.andThen k (Follows.ofOption fun n _ =>
      Follows.andThen n (Places.bind (inferAll_places hrec _) fun _ _ => Follows.pure trivial)))

theorem writeCollection_places (hrec : RecPlaces cf rec) (v : PyValue) :
    Places cf (writeCollection rec v) (writeCollection rec v) :=
  Follows.ofOption fun _ _ => Follows.andThen _ (Follows.ofOption fun n _ =>
    Follows.andThen n (Follows.ofOption fun _ _ => Follows.ofOption fun k _ =>
      Follows.andThen k (Places.bind (inferAll_places hrec _) fun _ _ => Follows.pure trivial)))

theorem writeMap_places (hrec : RecPlaces cf rec) (v : PyValue) :
    Places cf (writeMap rec v) (writeMap rec v) := by
  refine Follows.ofOption ?_
  rintro ⟨a, x⟩ -
  cases x with
  | none => exact Follows.andThen _ (Follows.pure trivial)
  | dict kvs =>
    exact Follows.andThen _ (Follows.ofOption fun n _ => Follows.andThen n
      (Follows.ofOption fun i _ => Follows.ofOption fun k _ => Follows.andThen k
        (Places.bind (inferPairs_places hrec kvs) fun _ _ => Follows.pure trivial)))
  | _ => exact Follows.raise _ _

/-- A Complex object is written as it is cached, or field by field. -/
theorem binaryFromPython_places [Python] (hrec : RecPlaces cf rec) (v : PyValue) :
    Places cf (binaryFromPython rec v) (binaryFromPython rec v) := by
  cases v with
  | obj head fields =>
    rcases cached_or_not head with ⟨d, hd, hne⟩ | hslow
    · rw [binaryFromPython_fast hd hne]
      exact Follows.andThen d (Follows.pure trivial)
    · rw [binaryFromPython_slow hslow]
      have hfields : FieldsFollow cf (fun _ _ => True) rec rec fields fields :=
        List.forall₂_same.mpr fun f _ => ⟨rfl, rfl, hrec f.2.1 f.2.2⟩
      refine Places.bind (registerBinaryType_follows cf _ _) fun _ _ =>
        ⟨objFromPython_grows hfields, fun s a t hs ha hsize => ?_⟩
      obtain ⟨chunks, vs, -, -, hwrote, hsame⟩ :=
        objFromPython_follows rfl (Alike.fields_iff.mpr rfl) hfields hs ha hsize
      exact ⟨trivial, _, hwrote, fun s' hs' hempty => hsame s' false hs' hempty⟩
  | _ => exact Follows.raise _ _

end Containers

theorem Steady.places {cf : Bool} {w : PyValue → StreamM Unit} (hw : Steady cf w) (v : PyValue) :
    Places cf (do w v; pure v) (do w v; pure v) :=
  Places.bind (hw.follows v) fun _ _ => Follows.pure trivial

section Main
variable [Python] [OtherCodecs] [PlacedCodecs] {cf : Bool}

theorem fromPythonNotNull_places {rec : DataType → PyValue → StreamM PyValue}
    (hrec : RecPlaces cf rec) (t : DataType) (v : PyValue) :
    Places cf (fromPythonNotNull rec t v) (fromPythonNotNull rec t v) := by
  cases t with
  | null => exact Follows.andThen _ (Follows.pure trivial)
  | byteObject | shortObject | intObject | longObject | boolObject =>
    exact (writeDataObject_steady _ _).places v
  | string => exact writeString_steady.places v
  | uuidObject => exact writeUUID_steady.places v
  | enumObject | binaryEnumObject => exact (writeEnum_steady _).places v
  | byteArrayObject => exact writeByteArray_steady.places v
  | shortArrayObject | intArrayObject | longArrayObject =>
    exact (writePrimitiveArray_steady _ (packSigned_uncached _)).places v
  | boolArrayObject => exact (writePrimitiveArray_steady _ packBool_uncached).places v
  | stringArrayObject | uuidArrayObject =>
    exact (writeStandardArray_places hrec _ _ v).bind fun _ _ => Follows.pure trivial
  | objectArrayObject => exact writeObjectArray_places hrec v
  | collectionObject => exact writeCollection_places hrec v
  | mapObject => exact writeMap_places hrec v
  | binaryObject => exact binaryFromPython_places hrec v
  | other t => exact (codec_steady t).places v

theorem fromPythonN_places (n : ℕ) : RecPlaces cf (fromPythonN n) := by
  induction n with
  | zero => exact fun t v => Follows.raise _ _
  | succ n ih =>
    intro t v
    by_cases hnone : v = .none
    · obtain rfl := hnone
      exact Follows.andThen _ (Follows.pure trivial)
    · rw [fromPythonN_succ hnone]
      exact fromPythonNotNull_places ih t v

theorem fromPython_places : RecPlaces cf fromPython := fun t v => fromPythonN_places (v.depth + 1) t v

end Main

/-! ### Classes of requests -/

/-- A class that writes bytes which depend on the value alone, in one go, or raises. -/
def Leaf (w : WireClass) : Prop :=
  ∀ v, (∃ d v', w.fromPython v = (do write d; pure v')) ∨ Refuses w v

/-- The classes of the fields of a request. -/
inductive RequestClass [Python] [OtherCodecs] : WireClass → Prop
  | leaf {w : WireClass} (h : Leaf w) : RequestClass w
  | object (t : DataType) : RequestClass (wireClass t)
  | any : RequestClass anyDataObject
  | strings : RequestClass stringArray
  | objects : RequestClass anyDataArray
  | map : RequestClass mapClass
  | prop (propCode : ℤ) {w : WireClass} (h : RequestClass w) : RequestClass (propBase propCode w)
  | struct {s : Struct} (hnd : (s.fields.map (·.1)).Nodup)
      (h : ∀ name w, (name, .plain w) ∈ s.fields → RequestClass w) : RequestClass s.wireClass
  | structArray {a : StructArray} (hnd : (a.following.map (·.1)).Nodup)
      (h : ∀ name w, (name, .plain w) ∈ a.following → RequestClass w) : RequestClass a.wireClass

theorem leaf_primitive (s : Scalar) : Leaf (primitive s) := by
  intro v
  cases hpack : packSigned s v with
  | ok b => exact .inl ⟨b, v, by simp only [primitive, hpack]; rfl⟩
  | error e => exact .inr fun stream => ⟨e, by simp only [primitive, hpack]; rfl⟩

theorem Leaf.places {w : WireClass} (h : Leaf w) {cf : Bool} (v : PyValue) :
    Places cf (w.fromPython v) (w.fromPython v) := by
  rcases h v with ⟨d, v', hd⟩ | hrefuses
  · rw [hd]
    exact Follows.andThen d (Follows.pure trivial)
  · refine Follows.of_error fun s a t ht => ?_
    obtain ⟨e, he⟩ := hrefuses s
    rw [he] at ht
    cases ht

/-- The fields of a structure, of dicts that agree on them. -/
theorem writeStructFields_places {cf : Bool} {fields : List (PyStr × FieldClass)}
    (hnd : (fields.map (·.1)).Nodup)
    (h : ∀ name w, (name, .plain w) ∈ fields → ∀ v, Places cf (w.fromPython v) (w.fromPython v))
    {v v' : PyValue} (hitems : ∀ name ∈ fields.map (·.1), v.item name = v'.item name) :
    Places cf (writeStructFields fields v) (writeStructFields fields v') := by
  induction fields generalizing v v' with
  | nil => exact Follows.pure trivial
  | cons f fields ih =>
    obtain ⟨name, c⟩ := f
    obtain ⟨hnot, hnd⟩ := List.nodup_cons.mp hnd
    have hrest : ∀ x x', Places cf (writeStructFields fields (v.setItem name x))
        (writeStructFields fields (v'.setItem name x')) := by
      intro x x'
      refine ih hnd (fun name w hw => h name w (List.mem_cons_of_mem _ hw)) fun name' hname' => ?_
      have hne : name ≠ name' := by
        rintro rfl
        exact hnot hname'
      rw [item_setItem_ne hne, item_setItem_ne hne, hitems name' (List.mem_cons_of_mem _ hname')]
    unfold writeStructFields
    rw [← hitems name List.mem_cons_self]
    refine Follows.lift fun x _ => ?_
    cases c with
    | plain w => exact Places.bind (h name w List.mem_cons_self x) hrest
    | conditional c => exact Places.bind (Follows.raise _ _) hrest

theorem Struct.fromPython_places {cf : Bool} {s : Struct} (hnd : (s.fields.map (·.1)).Nodup)
    (h : ∀ name w, (name, .plain w) ∈ s.fields → ∀ v, Places cf (w.fromPython v) (w.fromPython v))
    (v : PyValue) : Places cf (s.fromPython v) (s.fromPython v) :=
  Follows.lift fun _ _ => writeStructFields_places hnd h fun _ _ => rfl

theorem StructArray.writeElements_places {cf : Bool} {a : StructArray}
    (h : ∀ v, Places cf (Struct.fromPython ⟨a.following, a.defaults⟩ v)
      (Struct.fromPython ⟨a.following, a.defaults⟩ v)) (xs : List PyValue) :
    Places cf (a.writeElements xs) (a.writeElements xs) := by
  induction xs with
  | nil => exact Follows.pure trivial
  | cons x xs ih =>
    exact Places.bind (h x) fun _ _ => Places.bind ih fun _ _ => Follows.pure trivial

/-- A field of a request is written alike wherever it stands. -/
theorem RequestClass.places [Python] [OtherCodecs] [PlacedCodecs] {w : WireClass}
    (h : RequestClass w) {cf : Bool} (v : PyValue) :
    Places cf (w.fromPython v) (w.fromPython v) := by
  induction h generalizing v with
  | leaf h => exact h.places v
  | object t => exact fromPython_places t v
  | any => exact Follows.lift fun t _ => fromPython_places t v
  | strings =>
    exact Follows.ofOption fun xs _ => Follows.ofOption fun b _ => Follows.andThen b
      (Places.bind (writeStandard_places fromPython_places _ xs) fun _ _ => Follows.pure trivial)
  | objects =>
    exact Follows.ofOption fun b _ => Follows.andThen b
      (Places.bind (inferAll_places fromPython_places _) fun _ _ => Follows.pure trivial)
  | map =>
    cases v with
    | dict kvs =>
      exact Follows.ofOption fun b _ => Follows.andThen b
        (Places.bind (inferPairs_places fromPython_places kvs) fun _ _ => Follows.pure trivial)
    | _ => exact Follows.raise _ _
  | prop propCode _ ih => exact Follows.andThen _ (ih v)
  | struct hnd _ ih => exact Struct.fromPython_places hnd (fun name w hw => ih name w hw) v
  | structArray hnd _ ih =>
    exact Follows.ofOption fun xs _ => Follows.ofOption fun b _ => Follows.andThen b
      (Places.bind (StructArray.writeElements_places
        (Struct.fromPython_places hnd fun name w hw => ih name w hw) xs) fun _ _ =>
          Follows.pure trivial)

end PyGridGain
