import PyGridGain.Codec.Leaves
import PyGridGain.Lib.Decimal
import PyGridGain.Lib.IntBits
import Mathlib.Data.Nat.Size

/-! `DecimalObject`: a decimal number is normalized to the precision of the context, its
coefficient is written as a big-endian byte string whose top bit is the sign, and it is read
back by a division in the same context. -/

namespace PyGridGain

open CObj StreamM

/-- The number of bytes of a coefficient: room for its bits and for the sign. -/
def coefficientLength (integer : ℕ) : ℕ := (integer.size + 1 + 7) / 8

/-- The byte string of a coefficient, before the sign is put in. -/
def coefficientBytes (integer : ℕ) : Bytes :=
  (leBytes (coefficientLength integer) integer).reverse

/-- `data[0] |= 0x80` or `data[0] &= 0x7f`. -/
def applySign (negative : Bool) : Bytes → Bytes
  | [] => []
  | first :: rest => (if negative then first ||| 0x80 else first &&& 0x7f) :: rest

/-- `DecimalObject.build_c_type`. -/
def decimalLayout (length : ℕ) : Layout :=
  .struct [(.typeCode, .scalar .byte), (.scale, .scalar .int), (.length, .scalar .int),
    (.data, .array (.scalar .ubyte) length)]

/-- A trapped signal of the context. -/
def ofDecimal {α : Type} (x : Except DecimalError α) : Except PyError α :=
  match x with
  | .ok a => .ok a
  | .error .overflow => raise .arithmeticError "decimal.Overflow"
  | .error .divisionByZero => raise .arithmeticError "decimal.DivisionByZero"
  | .error .invalidOperation => raise .arithmeticError "decimal.InvalidOperation"

def DecimalObject.fromPythonNotNull (v : PyValue) : StreamM Unit :=
  match v with
  | .decimal negative coefficient exponent => do
    let n ← fun s => (ofDecimal (DecimalContext.default.normalize
      ⟨negative, coefficient, exponent⟩)).map fun n => (n, s)
    let integer := intOfDigits n.digits
    let length := coefficientLength integer
    let data := applySign n.negative (coefficientBytes integer)
    write ((OtherType.typeCode .decimalObject) ::
      (Scalar.int.store (-n.exp) ++ Scalar.int.store length ++ data))
  | _ => StreamM.raise .attributeError

def DecimalObject.parseNotNull : StreamM Layout := do
  let length ← peekLength (4 + 1)
  seekPast (decimalLayout length)

/-- `sum(reversed(data)[i] * 0x100 ** i)`. -/
def weightedSum (data : List ℤ) : ℤ := (data.reverse.mapIdx fun i x => x * 0x100 ^ i).sum

def DecimalObject.toPythonNotNull (o : CObject) : Except PyError PyValue := do
  let items ← o.dataItems
  match items with
  | [] => raise .indexError
  | first :: rest =>
    let sign := Int.land first 0x80 != 0
    let data := Int.land first 0x7f :: rest
    let result := weightedSum data
    let scale ← o.intAttr .scale
    let power ← ofDecimal (DecimalContext.default.powerOfTen scale)
    let quotient ← ofDecimal (DecimalContext.default.divide
      ⟨decide (result < 0), result.natAbs, 0⟩ power)
    let signed ← if sign then ofDecimal (DecimalContext.default.negate quotient) else .ok quotient
    .ok (.decimal signed.negative signed.coeff signed.exp)

def decimalCodec : LeafCodec :=
  ⟨DecimalObject.fromPythonNotNull, DecimalObject.parseNotNull, DecimalObject.toPythonNotNull⟩

/-- The other classes, with `DecimalObject` among them. -/
abbrev withDecimals (others : OtherCodecs) : OtherCodecs :=
  ⟨fun t => if t = .decimalObject then decimalCodec else others.codec t⟩

/-! ### The byte string -/

theorem coefficientLength_pos (u : ℕ) : 0 < coefficientLength u := by
  unfold coefficientLength
  omega

theorem lt_pow_coefficientLength (u : ℕ) : u < 2 ^ (8 * coefficientLength u - 1) := by
  have hsize : u < 2 ^ u.size := Nat.lt_size_self u
  refine hsize.trans_le (Nat.pow_le_pow_right (by norm_num) ?_)
  unfold coefficientLength
  omega

/-- The first byte leaves its top bit free. -/
theorem coefficientBytes_cons (u : ℕ) : ∃ first rest, coefficientBytes u = first :: rest ∧
    first.toNat < 0x80 ∧ (first :: rest).length = coefficientLength u ∧
    leNat (first :: rest).reverse = u := by
  obtain ⟨m, hm⟩ := Nat.exists_eq_add_of_lt (coefficientLength_pos u)
  rw [Nat.zero_add] at hm
  have hlt : u < 128 * 256 ^ m := by
    have h := lt_pow_coefficientLength u
    have hpow : 2 ^ (8 * coefficientLength u - 1) = 128 * 256 ^ m := by
      rw [hm, show 8 * (m + 1) - 1 = 7 + 8 * m by omega, pow_add, pow_mul]
      norm_num
    rwa [hpow] at h
  have hfirst : u / 256 ^ m < 128 := Nat.div_lt_of_lt_mul (by rwa [mul_comm] at hlt)
  have hbytes : coefficientBytes u = UInt8.ofNat (u / 256 ^ m) :: (leBytes m u).reverse := by
    rw [coefficientBytes, hm, leBytes_append]
    simp [leBytes, Nat.mod_eq_of_lt (by omega : u / 256 ^ m < 256)]
  refine ⟨_, _, hbytes, ?_, ?_, ?_⟩
  · rw [UInt8.toNat_ofNat', Nat.mod_eq_of_lt (by omega)]
    exact hfirst
  · rw [← hbytes, coefficientBytes, List.length_reverse, leBytes_length]
  · rw [← hbytes, coefficientBytes, List.reverse_reverse, leNat_leBytes_of_lt]
    rw [hm, pow_succ']
    omega

/-- The sign can be taken off a first byte whose top bit was free. -/
theorem sign_of_byte (negative : Bool) {first : UInt8} (h : first.toNat < 0x80) :
    (Int.land ((if negative then first ||| 0x80 else first &&& 0x7f).toNat : ℤ) 0x80 != 0) =
        negative ∧
      Int.land ((if negative then first ||| 0x80 else first &&& 0x7f).toNat : ℤ) 0x7f =
        first.toNat := by
  have hall : ∀ n : Fin 128, ∀ negative : Bool,
      (Int.land ((if negative then UInt8.ofNat n ||| 0x80 else UInt8.ofNat n &&& 0x7f).toNat : ℤ)
          0x80 != 0) = negative ∧
        Int.land ((if negative then UInt8.ofNat n ||| 0x80 else UInt8.ofNat n &&& 0x7f).toNat : ℤ)
          0x7f = n.val := by decide +kernel
  have hfirst : UInt8.ofNat first.toNat = first := by simp
  have hcase := hall ⟨first.toNat, h⟩ negative
  simp only [hfirst] at hcase
  exact hcase

theorem mapIdx_sum_eq (b : Bytes) (k : ℕ) :
    ((b.map fun x => (x.toNat : ℤ)).mapIdx fun i (x : ℤ) => x * 0x100 ^ (i + k)).sum =
      (leNat b : ℤ) * 0x100 ^ k := by
  induction b generalizing k with
  | nil => simp [leNat]
  | cons x b ih =>
    have hshift : (fun i (y : ℤ) => y * 0x100 ^ (i + 1 + k)) =
        fun i y => y * 0x100 ^ (i + (k + 1)) := by
      funext i y
      rw [Nat.add_assoc, Nat.add_comm 1 k]
    rw [List.map_cons, List.mapIdx_cons, List.sum_cons, hshift, ih, leNat]
    push_cast
    ring

theorem weightedSum_eq (b : Bytes) :
    weightedSum (b.map fun x => (x.toNat : ℤ)) = leNat b.reverse := by
  have h := mapIdx_sum_eq b.reverse 0
  rw [weightedSum, ← List.map_reverse]
  simpa using h

/-! ### What is written and read -/

/-- The bytes written for a normalized number. -/
def decimalBytes (n : Decimal) : Bytes :=
  OtherType.typeCode .decimalObject :: (Scalar.int.store (-n.exp) ++
    Scalar.int.store (coefficientLength n.coeff) ++
    applySign n.negative (coefficientBytes n.coeff))

/-- What they are read as. -/
def decimalRead (n : Decimal) : Except PyError PyValue := do
  let power ← ofDecimal (DecimalContext.default.powerOfTen (-n.exp))
  let quotient ← ofDecimal (DecimalContext.default.divide ⟨false, n.coeff, 0⟩ power)
  let signed ← if n.negative then ofDecimal (DecimalContext.default.negate quotient)
    else .ok quotient
  .ok (.decimal signed.negative signed.coeff signed.exp)

theorem coefficientLength_le {n : Decimal} (h : DecimalContext.default.Fits n) :
    coefficientLength n.coeff ≤ 12 := by
  have hlt : n.coeff < 2 ^ 94 := h.coeff.trans (by norm_num [DecimalContext.default])
  have hsize : n.coeff.size ≤ 94 := Nat.size_le.mpr hlt
  unfold coefficientLength
  omega

/-- The fields behind the type code. -/
def decimalParts (n : Decimal) : List (FieldName × Layout × Bytes) :=
  [scalarPart .scale .int (-n.exp), scalarPart .length .int (coefficientLength n.coeff),
    (.data, .array (.scalar .ubyte) (coefficientLength n.coeff),
      applySign n.negative (coefficientBytes n.coeff))]

theorem applySign_length (negative : Bool) (b : Bytes) : (applySign negative b).length = b.length := by
  cases b <;> rfl

theorem decimalParts_filled (n : Decimal) :
    Filled (codePart (OtherType.typeCode .decimalObject) :: decimalParts n) := by
  intro p hp
  simp only [decimalParts, List.mem_cons, List.not_mem_nil, or_false] at hp
  rcases hp with rfl | rfl | rfl | rfl
  · rfl
  · exact Scalar.store_length _ _
  · exact Scalar.store_length _ _
  · simp [applySign_length, coefficientBytes, CType.size, Scalar.size]

theorem items_ubyte (b : Bytes) : items .ubyte b b.length = b.map fun x => (x.toNat : ℤ) := by
  induction b with
  | nil => rfl
  | cons x b ih =>
    rw [List.length_cons, items, List.map_cons]
    have hload : Scalar.ubyte.load [x] = (x.toNat : ℤ) := by
      simp [Scalar.load, Scalar.isSigned, leNat]
    exact congrArg₂ List.cons hload ih

theorem exp_range {n : Decimal} (h : DecimalContext.default.Normalized n) :
    Scalar.int.Range (-n.exp) := by
  have htiny := h.etiny
  have hmax := h.emax
  have hdigits := numDigits_pos n.coeff
  simp only [DecimalContext.etiny, DecimalContext.default] at htiny hmax
  simp only [Scalar.Range, Scalar.isSigned, Scalar.size, SignedRange, if_true]
  rcases h.stripped with ⟨-, h0⟩ | ⟨hne, -⟩
  · omega
  · have := hmax hne
    omega

section
variable [Python] (others : OtherCodecs) {d n : Decimal}

def decimalClass : WireClass := @wireClass _ (withDecimals others) (.other .decimalObject)

theorem writesAs_decimal (h : DecimalContext.default.normalize d = .ok n) :
    WritesAs (decimalClass others) (.decimal d.negative d.coeff d.exp) (decimalBytes n) := by
  let _ := withDecimals others
  refine writesAs_of_write (t := .other .decimalObject) (by simp) fun s hs => ?_
  have hbody : DecimalObject.fromPythonNotNull (.decimal d.negative d.coeff d.exp) s =
      .ok ((), s.put (decimalBytes n)) := by
    have hnormal : (ofDecimal (DecimalContext.default.normalize
        ⟨d.negative, d.coeff, d.exp⟩)).map (fun n => (n, s)) = .ok (n, s) := by
      rw [h]
      rfl
    rw [DecimalObject.fromPythonNotNull, bind_ok hnormal, intOfDigits_digits, write_ok hs]
    rfl
  exact bind_ok hbody

theorem refuses_decimal {e : DecimalError} (h : DecimalContext.default.normalize d = .error e) :
    Refuses (decimalClass others) (.decimal d.negative d.coeff d.exp) := by
  let _ := withDecimals others
  intro s
  obtain ⟨e', he'⟩ : ∃ e', (ofDecimal (DecimalContext.default.normalize
      ⟨d.negative, d.coeff, d.exp⟩)).map (fun n => (n, s)) = .error e' := by
    rw [h]
    cases e <;> exact ⟨_, rfl⟩
  have hne : PyValue.decimal d.negative d.coeff d.exp ≠ .none := by simp
  refine ⟨e', (fromPython_eq (t := .other .decimalObject) hne s).trans ?_⟩
  have hbody : DecimalObject.fromPythonNotNull (.decimal d.negative d.coeff d.exp) s = .error e' :=
    bind_error he'
  exact bind_error hbody

omit [Python] in
theorem toPythonNotNull_decimal (h : DecimalContext.default.Normalized n) :
    DecimalObject.toPythonNotNull
      (ofParts (codePart (OtherType.typeCode .decimalObject) :: decimalParts n)) =
      decimalRead n := by
  have hf := decimalParts_filled n
  have hnd : ((codePart (OtherType.typeCode .decimalObject) :: decimalParts n).map (·.1)).Nodup := by
    simp [decimalParts, codePart, scalarPart]
  obtain ⟨first, rest, hbytes, hfirst, hlen, hnat⟩ := coefficientBytes_cons n.coeff
  have hitems : CObject.dataItems
      (ofParts (codePart (OtherType.typeCode .decimalObject) :: decimalParts n)) =
      .ok ((applySign n.negative (first :: rest)).map fun x => (x.toNat : ℤ)) := by
    have hattr := attr_part hf hnd (n := .data) (c := .array (.scalar .ubyte)
      (coefficientLength n.coeff)) (b := applySign n.negative (coefficientBytes n.coeff))
      (by simp [decimalParts])
    have hsame : coefficientLength n.coeff = (applySign n.negative (first :: rest)).length := by
      rw [applySign_length, hlen]
    rw [CObject.dataItems, hattr, except_bind, hbytes]
    simp only [hsame, items_ubyte]
  have hscale := intAttr_part hf hnd (n := .scale) (exp_range h) (by simp [decimalParts])
  have hsign := sign_of_byte n.negative hfirst
  have hsum : weightedSum ((first.toNat : ℤ) :: rest.map fun x => (x.toNat : ℤ)) = n.coeff := by
    rw [← hnat, ← weightedSum_eq (first :: rest), List.map_cons]
  rw [DecimalObject.toPythonNotNull, hitems, except_bind]
  simp only [applySign, List.map_cons, hsign.1, hsign.2, hsum, hscale, except_bind, decimalRead]
  have hnonneg : decide ((n.coeff : ℤ) < 0) = false := by simp
  rw [hnonneg, Int.natAbs_natCast]

theorem readsAs_decimal (h : DecimalContext.default.Normalized n) :
    ReadsAs (decimalClass others) (decimalBytes n) (decimalRead n) := by
  let _ := withDecimals others
  have hlen := coefficientLength_le h.toFits
  refine Recovers.classReadsAs (recovers_of_parts (t := .other .decimalObject) (decimalParts n) (by simp)
    (decimalParts_filled n) (by simp [decimalParts, codePart, scalarPart]) ?_ (fun m s hs hat => ?_)
    fun client m => toPythonNotNull_decimal h).1 (by simp [decimalBytes])
  · simp [decimalParts, codePart, scalarPart, decimalBytes, DataType.typeCode]
  · have hpeek : peekLength (4 + 1) s = .ok (coefficientLength n.coeff, s) := by
      refine peekLength_ok hs (by omega) ?_
      have hsplit : decimalBytes n = (OtherType.typeCode .decimalObject ::
          Scalar.int.store (-n.exp)) ++ (Scalar.int.store (coefficientLength n.coeff) ++
          applySign n.negative (coefficientBytes n.coeff)) := by
        simp [decimalBytes]
      rw [hsplit] at hat
      have := (At.right hat).left
      simpa [Scalar.size] using this
    exact bind_ok hpeek

end

/-! ### The round trip -/

/-- A number that keeps its value through the context: without the zeros at its end, at most
28 digits and no exponent below -999999. -/
def Decimal.Kept (d : Decimal) : Prop :=
  ∃ (u : ℕ) (e : ℤ), u < 10 ^ 28 ∧ -999999 ≤ e ∧ d.magnitude = u * 10 ^ e

theorem decimalRead_ok {n : Decimal} (h : DecimalContext.default.Normalized n)
    (hexp : -999999 ≤ n.exp) : ∃ r : Decimal,
      decimalRead n = .ok (.decimal r.negative r.coeff r.exp) ∧ r.value = n.value := by
  have hrange : n.exp ≤ 999999 := by
    rcases h.stripped with ⟨-, h0⟩ | ⟨hne, -⟩
    · omega
    · have := h.emax hne
      have := numDigits_pos n.coeff
      simp only [DecimalContext.default] at *
      omega
  have hlow : DecimalContext.default.etiny ≤ -n.exp := by
    simp only [DecimalContext.etiny, DecimalContext.default]
    omega
  have hhigh : -n.exp ≤ DecimalContext.default.emax := by
    simp only [DecimalContext.default]
    omega
  obtain ⟨p, hp, hpmag, hpneg⟩ := DecimalContext.powerOfTen_ok hlow hhigh
  obtain ⟨q, hq, hqfits, hqmag, hqneg⟩ := DecimalContext.divide_powerOfTen h.coeff hp hpmag
    (by rw [neg_neg]; exact h.etiny) fun hne => by
      have := h.emax hne
      omega
  rw [hpneg] at hqneg
  rw [neg_neg] at hqmag
  have hqvalue : q.value = n.magnitude := by
    rw [Decimal.value, hqneg, hqmag]
    rfl
  unfold decimalRead
  rw [hp]
  simp only [ofDecimal, except_bind, hq]
  cases hneg : n.negative with
  | false =>
    refine ⟨q, rfl, ?_⟩
    rw [hqvalue, Decimal.value, hneg]
    rfl
  | true =>
    obtain ⟨r, hr, hrvalue⟩ := DecimalContext.negate_ok hqfits
    refine ⟨r, by simp only [if_true, hr, except_bind], ?_⟩
    rw [hrvalue, hqvalue, Decimal.value, hneg]
    rfl

theorem decimalRead_error {n : Decimal} (hexp : n.exp < -999999) :
    ∃ e, decimalRead n = .error e := by
  have hhigh : DecimalContext.default.emax < -n.exp := by
    simp only [DecimalContext.default]
    omega
  have hover := DecimalContext.powerOfTen_overflow hhigh
  refine ⟨⟨.arithmeticError, "decimal.Overflow"⟩, ?_⟩
  rw [decimalRead, hover]
  rfl

theorem Decimal.Kept.magnitude_eq {d n : Decimal} (h : d.Kept)
    (hn : DecimalContext.default.normalize d = .ok n) : n.magnitude = d.magnitude := by
  obtain ⟨u, e, hu, he, heq⟩ := h
  have hlow : DecimalContext.default.etiny ≤ e := by
    simp only [DecimalContext.etiny, DecimalContext.default]
    omega
  exact DecimalContext.normalize_exact hu hlow heq hn

/-- The least digit of a normalized number stands at or above that of every other way to
write it. -/
theorem Decimal.Kept.exp_ge {d n : Decimal} (h : d.Kept)
    (hn : DecimalContext.default.normalize d = .ok n) : -999999 ≤ n.exp := by
  have hmag := h.magnitude_eq hn
  obtain ⟨u, e, hu, he, heq⟩ := h
  have hnormal := (DecimalContext.normalize_normalized hn).1
  rcases hnormal.stripped with ⟨-, h0⟩ | ⟨-, hten | hmax⟩
  · omega
  · by_contra hlt
    obtain ⟨k, hk⟩ : ∃ k : ℕ, e = n.exp + (k + 1 : ℕ) := ⟨(e - n.exp - 1).toNat, by omega⟩
    have hcoeff : n.coeff = u * 10 ^ (k + 1) := by
      apply eq_mul_pow_of_magnitude (e := n.exp)
      rw [← hk, ← heq, ← hmag, Decimal.magnitude]
    apply hten
    rw [hcoeff, pow_succ, ← mul_assoc]
    exact Nat.mul_mod_left _ _
  · simp only [DecimalContext.default] at hmax
    omega

theorem normalize_error {d : Decimal} {e : DecimalError}
    (h : DecimalContext.default.normalize d = .error e) : e = .overflow := by
  unfold DecimalContext.normalize DecimalContext.fix at h
  split_ifs at h <;> first | exact (Except.error.inj h).symm | cases h

theorem Decimal.magnitude_eq_of_value {d n : Decimal} (hneg : n.negative = d.negative)
    (h : n.value = d.value) : n.magnitude = d.magnitude := by
  unfold Decimal.value at h
  rw [hneg] at h
  split_ifs at h
  · exact neg_injective h
  · exact h

/-- A decimal number as a value that comes back. -/
def DecimalRead (d : Decimal) (x : PyValue) : Prop :=
  ∃ r : Decimal, x = .decimal r.negative r.coeff r.exp ∧ r.value = d.value

theorem raisesOrReads_decimal_iff [Python] (others : OtherCodecs) (d : Decimal) :
    RaisesOrReads (decimalClass others) (.decimal d.negative d.coeff d.exp) (DecimalRead d) ↔
      DecimalContext.default.normalize d = .error .overflow ∨ d.Kept := by
  cases hn : DecimalContext.default.normalize d with
  | error e =>
    obtain rfl := normalize_error hn
    exact iff_of_true (refuses_decimal others hn).raisesOrReads (Or.inl rfl)
  | ok n =>
    obtain ⟨hnormal, hneg⟩ := DecimalContext.normalize_normalized hn
    rw [raisesOrReads_iff (writesAs_decimal others hn) (by simp [decimalBytes])
      (readsAs_decimal others hnormal)]
    constructor
    · rintro ⟨x, hx, r, rfl, hvalue⟩
      have hexp : -999999 ≤ n.exp := by
        by_contra hlt
        obtain ⟨e, he⟩ := decimalRead_error (not_le.mp hlt)
        rw [he] at hx
        cases hx
      obtain ⟨r', hr', hvalue'⟩ := decimalRead_ok hnormal hexp
      have hsame : r'.value = r.value := by
        rw [hr'] at hx
        injection hx with hx
        injection hx with h1 h2 h3
        simp only [Decimal.value, Decimal.magnitude, h1, h2, h3]
      have hmag := Decimal.magnitude_eq_of_value hneg (by rw [← hvalue', hsame, hvalue])
      exact Or.inr ⟨n.coeff, n.exp, hnormal.coeff, hexp, hmag.symm⟩
    · rintro (herr | hkept)
      · cases herr
      · obtain ⟨r, hr, hvalue⟩ := decimalRead_ok hnormal (hkept.exp_ge hn)
        refine ⟨_, hr, r, rfl, ?_⟩
        rw [hvalue, Decimal.value, Decimal.value, hneg, hkept.magnitude_eq hn]

/-- A finite number comes back with its value, or is refused, exactly where the context keeps
its value or it is too large; in every case the sign has a bit of its own. -/
theorem decimal_round_trip_iff [Python] (others : OtherCodecs) (d : Decimal) :
    (RaisesOrReads (decimalClass others) (.decimal d.negative d.coeff d.exp) (DecimalRead d) ↔
      DecimalContext.default.Overflows d ∨ d.Kept) ∧
    ∀ u, ∃ first rest, coefficientBytes u = first :: rest ∧ first.toNat < 0x80 ∧
      leNat (first :: rest).reverse = u := by
  rw [← DecimalContext.normalize_overflow_iff]
  refine ⟨raisesOrReads_decimal_iff others d, fun u => ?_⟩
  obtain ⟨first, rest, hbytes, hfirst, -, hnat⟩ := coefficientBytes_cons u
  exact ⟨first, rest, hbytes, hfirst, hnat⟩

/-- Of a number of 29 digits the last one is lost. -/
theorem decimal_loses_digit :
    ¬RaisesOrReads (@decimalClass asciiLower noOtherCodecs)
      (.decimal false 12345678901234567890123456789 0)
      (DecimalRead ⟨false, 12345678901234567890123456789, 0⟩) := by
  have hnormal : DecimalContext.default.normalize ⟨false, 12345678901234567890123456789, 0⟩ =
      .ok ⟨false, 1234567890123456789012345679, 1⟩ := by decide +kernel
  intro h
  rcases (@raisesOrReads_decimal_iff asciiLower noOtherCodecs
    ⟨false, 12345678901234567890123456789, 0⟩).mp h with herr | hkept
  · rw [hnormal] at herr
    cases herr
  · have hmag := hkept.magnitude_eq hnormal
    norm_num [Decimal.magnitude] at hmag

end PyGridGain
