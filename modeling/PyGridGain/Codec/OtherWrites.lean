import PyGridGain.Codec.FreshWrites
import PyGridGain.Datatypes.OtherClasses

/-! The classes of `tc_map` that stand alone write bytes that depend on the value only, or raise:
whatever the machine, they are codecs that the caches of objects can rely on. -/

namespace PyGridGain

open StreamM PyValue

/-- Bytes written where the stream stands, or an exception. -/
def Lands (m : StreamM Unit) : Prop := (∃ d, m = write d) ∨ ∀ s a u, m s ≠ .ok (a, u)

/-- The same of what comes after a first write: here the stream can be written to. -/
def Appends (m : StreamM Unit) : Prop :=
  (∃ d, ∀ s : BinaryStream, s.emptyView = false → m s = .ok ((), s.put d)) ∨
    ∀ s a u, m s ≠ .ok (a, u)

section Lands
variable {α : Type} {m m' : StreamM Unit} {f : α → StreamM Unit}

theorem Lands.write (d : Bytes) : Lands (StreamM.write d) := .inl ⟨d, rfl⟩

theorem Lands.raise (exc : Exc) (message : String) : Lands (StreamM.raise exc message) :=
  .inr fun _ _ _ h => nomatch h

theorem Lands.ofOption {x : Option α} {exc : Exc} (hf : ∀ a, x = some a → Lands (f a)) :
    Lands (StreamM.ofOption x exc >>= f) := by
  cases x with
  | none => exact .inr fun _ _ _ h => nomatch h
  | some a => exact hf a rfl

/-- What is computed along the way. -/
theorem Lands.lift {x : Except PyError α} (hf : ∀ a, x = .ok a → Lands (f a)) :
    Lands ((fun s => x.map fun a => (a, s)) >>= f) := by
  cases x with
  | error e => exact .inr fun _ _ _ h => nomatch h
  | ok a => exact hf a rfl

theorem Lands.appends (h : Lands m) : Appends m := by
  rcases h with ⟨d, rfl⟩ | hraise
  · exact .inl ⟨d, fun s hs => write_ok hs d⟩
  · exact .inr hraise

theorem Appends.done : Appends (pure ()) :=
  .inl ⟨[], fun s _ => by rw [BinaryStream.put_nil]; rfl⟩

theorem Appends.ofOption {x : Option α} {exc : Exc} (hf : ∀ a, x = some a → Appends (f a)) :
    Appends (StreamM.ofOption x exc >>= f) := by
  cases x with
  | none => exact .inr fun _ _ _ h => nomatch h
  | some a => exact hf a rfl

theorem Appends.lift {x : Except PyError α} (hf : ∀ a, x = .ok a → Appends (f a)) :
    Appends ((fun s => x.map fun a => (a, s)) >>= f) := by
  cases x with
  | error e => exact .inr fun _ _ _ h => nomatch h
  | ok a => exact hf a rfl

theorem ne_ok_of_bind (h : ∀ s a u, m' s ≠ .ok (a, u)) (s : BinaryStream) (a : Unit)
    (u : BinaryStream) : (m >>= fun _ => m') s ≠ .ok (a, u) := by
  intro hok
  obtain ⟨b, t, -, ht⟩ := bind_eq_ok hok
  exact h t a u ht

theorem Appends.bind (h : Appends m) (h' : Appends m') : Appends (m >>= fun _ => m') := by
  rcases h' with ⟨d', hd'⟩ | hraise'
  · rcases h with ⟨d, hd⟩ | hraise
    · exact .inl ⟨d ++ d', fun s hs => by
        rw [bind_ok (hd s hs), hd' (s.put d) hs, BinaryStream.put_put]⟩
    · refine .inr fun s a u hok => ?_
      obtain ⟨b, t, ht, -⟩ := bind_eq_ok hok
      exact hraise s b t ht
  · exact .inr (ne_ok_of_bind hraise')

/-- Where the first write raises, so does writing all at once. -/
theorem Lands.write_bind (d : Bytes) (h : Appends m) : Lands (StreamM.write d >>= fun _ => m) := by
  rcases h with ⟨d', hd'⟩ | hraise
  · refine .inl ⟨d ++ d', funext fun s => ?_⟩
    cases hs : s.emptyView with
    | false =>
      rw [bind_ok (write_ok hs d), hd' (s.put d) hs, BinaryStream.put_put, write_ok hs]
    | true =>
      have hbuffer : ∀ d, StreamM.write d s = PyGridGain.raise .bufferError
          "Existing exports of data: object cannot be re-sized" := fun d => by
        rw [StreamM.write, if_pos hs]
      rw [hbuffer]
      exact bind_error (hbuffer d)
  · exact .inr (ne_ok_of_bind hraise)

end Lands

/-- A writer that lands, and does not look at the caches of objects. -/
structure Standalone (w : PyValue → StreamM Unit) : Prop where
  lands : ∀ v, Lands (w v)
  uncached : ∀ v, w v.uncached = w v

theorem writePacked_appends (pack : PyValue → Except PyError Bytes) (xs : List PyValue) :
    Appends (writePacked pack xs) := by
  induction xs with
  | nil => exact .done
  | cons x xs ih => exact .lift fun b _ => (Lands.write b).appends.bind ih

theorem writePrimitiveArray_standalone (t : DataType) {pack : PyValue → Except PyError Bytes}
    (hpack : ∀ x, pack x.uncached = pack x) : Standalone (writePrimitiveArray t pack) :=
  ⟨fun _ => .ofOption fun xs _ => .write_bind _ (.ofOption fun b _ =>
    (Lands.write b).appends.bind (writePacked_appends pack xs)),
    (show Steady true _ from writePrimitiveArray_steady t hpack).uncached⟩

theorem writeEnum_standalone (t : DataType) : Standalone (writeEnum t) :=
  ⟨fun _ => .ofOption fun _ _ => .ofOption fun _ _ => .ofOption fun _ _ => .write _,
    (show Steady true _ from writeEnum_steady t).uncached⟩

/-! ### Arrays of nullable elements -/

section Arrays
variable {w : PyValue → StreamM Unit} {std : DataType}

theorem nullableWriter_bind (w : PyValue → StreamM Unit) (t : DataType) (v : PyValue)
    (m : StreamM Unit) : (nullableWriter w t v >>= fun _ => m) =
      (if v.pyType = .noneType then write [TC_NULL] else w v) >>= fun _ => m := by
  cases v <;> simp [nullableWriter, PyValue.pyType]

theorem writeStandard_appends (hw : Standalone w) (xs : List PyValue) :
    Appends (writeStandard (nullableWriter w) std xs) := by
  induction xs with
  | nil => exact .done
  | cons x xs ih =>
    rw [writeStandard, nullableWriter_bind]
    split_ifs
    · exact (Lands.write _).appends.bind ih
    · exact (hw.lands x).appends.bind ih

theorem writeStandard_uncached (hw : Standalone w) (xs : List PyValue) :
    writeStandard (nullableWriter w) std (xs.map PyValue.uncached) =
      writeStandard (nullableWriter w) std xs := by
  induction xs with
  | nil => rfl
  | cons x xs ih =>
    rw [List.map_cons, writeStandard, writeStandard, nullableWriter_bind, nullableWriter_bind,
      pyType_uncached, hw.uncached, ih]

theorem writeStandardArray_standalone (hw : Standalone w) (t std : DataType) :
    Standalone (writeStandardArray (nullableWriter w) t std) := by
  refine ⟨fun v => .ofOption fun xs _ => .write_bind _ (.ofOption fun b _ =>
    (Lands.write b).appends.bind (writeStandard_appends hw xs)), fun v => ?_⟩
  simp only [writeStandardArray, iterate_uncached]
  cases v.iterate with
  | none => rfl
  | some xs =>
    simp only [Option.map_some, ofOption, pure_bind, List.length_map, writeStandard_uncached hw]

theorem enumArray_standalone : Standalone EnumArrayObject.fromPythonNotNull := by
  have helement := writeEnum_standalone .enumObject
  refine ⟨fun v => .ofOption fun p _ => .write_bind _ (.ofOption fun i _ =>
    .ofOption fun b _ => (Lands.write b).appends.bind (.ofOption fun xs _ => .ofOption fun b _ =>
      (Lands.write b).appends.bind (writeStandard_appends helement xs))), fun v => ?_⟩
  simp only [EnumArrayObject.fromPythonNotNull, unpack2_uncached]
  cases v.unpack2 with
  | none => rfl
  | some p =>
    simp only [Option.map_some, ofOption, pure_bind, toInt?_uncached, iterate_uncached]
    cases p.2.iterate with
    | none => rfl
    | some xs => simp only [Option.map_some, pure_bind, List.length_map,
        writeStandard_uncached helement]

end Arrays

/-! ### The classes -/

theorem packChar_uncached (v : PyValue) : packChar v.uncached = packChar v := by
  cases v <;> rfl

theorem char_standalone : Standalone CharObject.fromPythonNotNull :=
  ⟨fun _ => .write_bind _ (.lift fun b _ => (Lands.write b).appends),
    fun v => by simp only [CharObject.fromPythonNotNull, packChar_uncached]⟩

theorem decimal_standalone : Standalone DecimalObject.fromPythonNotNull := by
  refine ⟨fun v => ?_, fun v => by cases v <;> rfl⟩
  cases v with
  | decimal negative coefficient exponent => exact .lift fun n _ => .write _
  | _ => exact .raise _ _

theorem ok_bind {α β : Type} (a : α) (f : α → StreamM β) :
    ((fun s => .ok (a, s) : StreamM α) >>= f) = f a := rfl

section Machines
variable [Machine]

theorem toFloat_uncached (v : PyValue) : v.uncached.toFloat = v.toFloat := by
  cases v <;> rfl

theorem float_standalone : Standalone FloatObject.fromPythonNotNull :=
  ⟨fun _ => .lift fun x _ => .write _,
    fun v => by simp only [FloatObject.fromPythonNotNull, toFloat_uncached]⟩

theorem double_standalone : Standalone DoubleObject.fromPythonNotNull :=
  ⟨fun _ => .lift fun x _ => .write _,
    fun v => by simp only [DoubleObject.fromPythonNotNull, toFloat_uncached]⟩

theorem date_standalone : Standalone DateObject.fromPythonNotNull := by
  refine ⟨fun v => ?_, fun v => by cases v <;> rfl⟩
  cases v with
  | datetime us => exact .lift fun epoch _ => .write _
  | _ => exact .raise _ _

theorem time_standalone : Standalone TimeObject.fromPythonNotNull := by
  refine ⟨fun v => ?_, fun v => by cases v <;> rfl⟩
  cases v with
  | timedelta us => exact .write _
  | _ => exact .raise _ _

theorem timestamp_standalone : Standalone TimestampObject.fromPythonNotNull := by
  refine ⟨fun v => .ofOption fun _ _ => .lift fun first _ => ?_, fun v => ?_⟩
  · cases first with
    | datetime us => exact .lift fun epoch _ => .lift fun second _ => .ofOption fun i _ => .write _
    | _ => exact .raise _ _
  · simp only [TimestampObject.fromPythonNotNull, iterate_uncached, getItem_uncached]
    cases v.iterate with
    | none => rfl
    | some xs =>
      cases v.getItem 0 with
      | error e => rfl
      | ok first =>
        cases first with
        | datetime us =>
          cases v.getItem 1 with
          | error e => rfl
          | ok second =>
            simp only [ofOption, Option.map_some, pure_bind, Except.map, PyValue.uncached, ok_bind,
              toInt?_uncached]
        | _ => rfl

theorem packFloat_uncached (v : PyValue) : packFloat v.uncached = packFloat v := by
  simp only [packFloat, toFloat_uncached]

theorem packDouble_uncached (v : PyValue) : packDouble v.uncached = packDouble v := by
  simp only [packDouble, toFloat_uncached]

theorem otherType_standalone (t : OtherType) : Standalone t.fromPythonNotNull := by
  cases t with
  | floatObject => exact float_standalone
  | doubleObject => exact double_standalone
  | charObject => exact char_standalone
  | dateObject => exact date_standalone
  | timestampObject => exact timestamp_standalone
  | timeObject => exact time_standalone
  | decimalObject => exact decimal_standalone
  | floatArrayObject => exact writePrimitiveArray_standalone _ packFloat_uncached
  | doubleArrayObject => exact writePrimitiveArray_standalone _ packDouble_uncached
  | charArrayObject => exact writePrimitiveArray_standalone _ packChar_uncached
  | dateArrayObject => exact writeStandardArray_standalone date_standalone _ _
  | timestampArrayObject => exact writeStandardArray_standalone timestamp_standalone _ _
  | timeArrayObject => exact writeStandardArray_standalone time_standalone _ _
  | decimalArrayObject => exact writeStandardArray_standalone decimal_standalone _ _
  | enumArrayObject => exact enumArray_standalone
  | wrappedDataObject => exact ⟨fun _ => .raise _ _, fun _ => rfl⟩

instance : @PlacedCodecs allClasses :=
  @PlacedCodecs.mk allClasses (fun t => (otherType_standalone t).lands)
    fun t => (otherType_standalone t).uncached

end Machines

end PyGridGain
