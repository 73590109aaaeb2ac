import PyGridGain.Codec.InferenceWrites
import PyGridGain.Codec.StructWrites
import PyGridGain.Connection.ProtocolContext

/-! The handshake request. Its length is added up by hand, before the sections are written, and
counts the characters of the texts, not their bytes. -/

namespace PyGridGain

open StreamM

def OP_HANDSHAKE : ℤ := 1

def USER_ATTR_TIMEZONE : PyStr := "client.timezone".toList

/-- `MapObject.HASH_MAP`. -/
def HASH_MAP : ℤ := 1

/-- `BitmaskFeature.__bytes__`; `bit_length` is the size of a natural number. -/
def featureBytes (features : ℕ) : Bytes := leBytes (features.size / 8 + 1) features

/-- `HandshakeRequest`. Features are read only where the version supports them. -/
structure HandshakeRequest where
  version : ProtocolVersion
  features : ℕ
  timezone : Option PyStr
  username : Option PyStr
  password : Option PyStr

/-- `bool(s)` of a `str` or `None`. -/
def truthyStr (s : Option PyStr) : Bool := !(s.getD []).isEmpty

namespace HandshakeRequest

/-- `username and password`. -/
def hasCredentials (r : HandshakeRequest) : Bool := truthyStr r.username && truthyStr r.password

/-- The value of `user_attributes`. -/
def userAttributes (r : HandshakeRequest) : PyValue :=
  .tuple [.int HASH_MAP, .dict [(.str USER_ATTR_TIMEZONE, .ofStr? r.timezone)]]

/-- The variable `handshake_data['length']` at the end of `__create_handshake_data`. -/
def handshakeLength (r : HandshakeRequest) : ℕ :=
  8 + (if r.version.isFeatureFlagsSupported then 5 + (featureBytes r.features).length else 0) +
    (if r.version.isUserAttributesSupported then
      6 + 5 + USER_ATTR_TIMEZONE.length +
        (if truthyStr r.timezone then 5 + (r.timezone.getD []).length else 1)
    else 0) +
    (if r.hasCredentials then 10 + (r.username.getD []).length + (r.password.getD []).length else 0)

/-- `__create_handshake_data`. -/
def createHandshakeData (r : HandshakeRequest) : List (PyStr × PyValue) :=
  [("length".toList, .int r.handshakeLength),
    ("op_code".toList, .int OP_HANDSHAKE),
    ("version_major".toList, .int r.version.major),
    ("version_minor".toList, .int r.version.minor),
    ("version_patch".toList, .int r.version.patch),
    ("client_code".toList, .int 2)] ++
  (if r.version.isFeatureFlagsSupported then
    [("features".toList, .bytes (featureBytes r.features))] else []) ++
  (if r.version.isUserAttributesSupported then [("user_attributes".toList, r.userAttributes)]
    else []) ++
  (if r.hasCredentials then
    [("username".toList, .ofStr? r.username), ("password".toList, .ofStr? r.password)] else [])

section Requests
variable [Python] [OtherCodecs]

/-- `handshake_struct`. -/
def handshakeStruct (r : HandshakeRequest) : Struct where
  fields :=
    [("length".toList, .plain (primitive .int)),
      ("op_code".toList, .plain (primitive .byte)),
      ("version_major".toList, .plain (primitive .short)),
      ("version_minor".toList, .plain (primitive .short)),
      ("version_patch".toList, .plain (primitive .short)),
      ("client_code".toList, .plain (primitive .byte))] ++
    (if r.version.isFeatureFlagsSupported then
      [("features".toList, .plain (wireClass .byteArrayObject))] else []) ++
    (if r.version.isUserAttributesSupported then
      [("user_attributes".toList, .plain (wireClass .mapObject))] else []) ++
    (if r.hasCredentials then
      [("username".toList, .plain (wireClass .string)),
        ("password".toList, .plain (wireClass .string))] else [])

/-- `from_python`. -/
def fromPython (r : HandshakeRequest) : StreamM PyValue :=
  r.handshakeStruct.fromPython (strDict r.createHandshakeData)

/-- What is written starts with the number of the bytes that follow. -/
def LengthCorrect (r : HandshakeRequest) (cl : Client) : Prop :=
  ∃ v t, r.fromPython ⟨cl, [], 0, false⟩ = .ok (v, t) ∧
    4 ≤ t.buf.length ∧ leInt (t.buf.take 4) = t.buf.length - 4

end Requests

/-- A text as it is to be counted: with as many bytes as characters. -/
def Ascii (s : Option PyStr) : Prop := ∀ c ∈ s.getD [], c.toNat < 128

instance (s : Option PyStr) : Decidable (Ascii s) :=
  List.decidableBAll (p := fun c : Char => c.toNat < 128) (s.getD [])

/-- The optional texts are ASCII, and the time zone is not the empty text. -/
def TextsCounted (r : HandshakeRequest) : Prop :=
  (r.version.isUserAttributesSupported = true → Ascii r.timezone ∧ r.timezone ≠ some []) ∧
    (r.hasCredentials = true → Ascii r.username ∧ Ascii r.password)

instance (r : HandshakeRequest) : Decidable r.TextsCounted := by
  unfold TextsCounted
  exact inferInstance

/-! ### What is written -/

/-- The bytes of the time zone under its key. -/
def timezoneBytes : Option PyStr → Bytes
  | some s => stringBytes s
  | none => [TC_NULL]

/-- The bytes of the user attributes. -/
def userAttributesBytes (r : HandshakeRequest) : Bytes :=
  DataType.mapObject.typeCode :: (Scalar.int.store 1 ++ (Scalar.byte.store HASH_MAP ++
    (stringBytes USER_ATTR_TIMEZONE ++ timezoneBytes r.timezone)))

/-- The bytes behind the length. -/
def body (r : HandshakeRequest) : Bytes :=
  Scalar.byte.store OP_HANDSHAKE ++ Scalar.short.store r.version.major ++
    Scalar.short.store r.version.minor ++ Scalar.short.store r.version.patch ++
    Scalar.byte.store 2 ++
    (if r.version.isFeatureFlagsSupported then
      DataType.byteArrayObject.typeCode ::
        (Scalar.int.store (featureBytes r.features).length ++ featureBytes r.features) else []) ++
    (if r.version.isUserAttributesSupported then r.userAttributesBytes else []) ++
    (if r.hasCredentials then
      stringBytes (r.username.getD []) ++ stringBytes (r.password.getD []) else [])

theorem stringBytes_length (s : PyStr) : (stringBytes s).length = 5 + (utf8Encode s).length := by
  rw [stringBytes, List.length_cons, List.length_append, Scalar.store_length,
    charsStore_length le_rfl]
  simp only [Scalar.size]
  omega

theorem timezoneBytes_length (s : Option PyStr) :
    (timezoneBytes s).length = (if s.isSome then 5 + (utf8Encode (s.getD [])).length else 1) := by
  cases s with
  | none => rfl
  | some s => exact stringBytes_length s

theorem body_length (r : HandshakeRequest) :
    r.body.length = 8 +
      (if r.version.isFeatureFlagsSupported then 5 + (featureBytes r.features).length else 0) +
      (if r.version.isUserAttributesSupported then
        6 + 5 + USER_ATTR_TIMEZONE.length + (timezoneBytes r.timezone).length else 0) +
      (if r.hasCredentials then
        10 + (utf8Encode (r.username.getD [])).length + (utf8Encode (r.password.getD [])).length
      else 0) := by
  have hattributes : r.userAttributesBytes.length =
      6 + 5 + USER_ATTR_TIMEZONE.length + (timezoneBytes r.timezone).length := by
    have hascii : ∀ c ∈ USER_ATTR_TIMEZONE, c.toNat < 128 := by
      have hall : (USER_ATTR_TIMEZONE.all fun c => decide (c.toNat < 128)) = true := by decide
      simpa only [List.all_eq_true, decide_eq_true_eq] using hall
    have hkey : (stringBytes USER_ATTR_TIMEZONE).length = 5 + USER_ATTR_TIMEZONE.length := by
      rw [stringBytes_length, utf8Encode_length_eq_iff.mpr hascii]
    simp only [userAttributesBytes, List.length_cons, List.length_append, Scalar.store_length, hkey,
      Scalar.size]
    omega
  simp only [body, List.length_append, Scalar.store_length, Scalar.size]
  congr 1
  · congr 1
    · split_ifs
      · simp only [List.length_cons, List.length_append, Scalar.store_length, Scalar.size]
        omega
      · rfl
    · split_ifs
      · exact hattributes
      · rfl
  · split_ifs
    · rw [List.length_append, stringBytes_length, stringBytes_length]
      omega
    · rfl

theorem length_eq_iff (s : Option PyStr) :
    (utf8Encode (s.getD [])).length = (s.getD []).length ↔ Ascii s := utf8Encode_length_eq_iff

theorem timezone_counted_iff (s : Option PyStr) :
    (timezoneBytes s).length = (if truthyStr s then 5 + (s.getD []).length else 1) ↔
      Ascii s ∧ s ≠ some [] := by
  cases s with
  | none => simp [timezoneBytes, truthyStr, Ascii]
  | some s =>
    rw [timezoneBytes_length, ← length_eq_iff]
    cases s with
    | nil => simp [truthyStr, utf8Encode]
    | cons c s => simp [truthyStr]

theorem timezone_counted_le (s : Option PyStr) :
    (if truthyStr s then 5 + (s.getD []).length else 1) ≤ (timezoneBytes s).length := by
  cases s with
  | none => simp [timezoneBytes, truthyStr]
  | some s =>
    have hle := length_le_utf8Encode s
    rw [timezoneBytes_length]
    simp only [Option.isSome_some, if_true, Option.getD_some]
    split_ifs <;> omega

/-- The length is that of the body exactly where the texts are counted right. -/
theorem handshakeLength_eq_iff (r : HandshakeRequest) :
    r.handshakeLength = r.body.length ↔ r.TextsCounted := by
  have htz := timezone_counted_iff r.timezone
  have htzle := timezone_counted_le r.timezone
  have huser := length_eq_iff r.username
  have hpass := length_eq_iff r.password
  have hule := length_le_utf8Encode (r.username.getD [])
  have hple := length_le_utf8Encode (r.password.getD [])
  rw [body_length, handshakeLength, TextsCounted, ← htz, ← huser, ← hpass]
  generalize (if truthyStr r.timezone then 5 + (r.timezone.getD []).length else 1) = counted at *
  cases r.version.isUserAttributesSupported <;> cases r.hasCredentials <;>
    simp only [if_true, if_false, Bool.false_eq_true, false_imp_iff, true_imp_iff, and_true,
      true_and] <;> omega

section Writes
variable [Python] [OtherCodecs]

theorem writes_userAttributes (r : HandshakeRequest) :
    WritesAs (wireClass .mapObject) r.userAttributes r.userAttributesBytes := by
  have htz : Puts (.ofStr? r.timezone) (timezoneBytes r.timezone) := by
    cases r.timezone with
    | none => exact puts_none
    | some s => exact puts_str s
  have hattributes : r.userAttributes.sequence? =
      some [.int HASH_MAP, .dict [(.str USER_ATTR_TIMEZONE, .ofStr? r.timezone)]] := rfl
  have hputs := puts_map (k := HASH_MAP) hattributes rfl (by decide) (by simp)
    (.cons (puts_str USER_ATTR_TIMEZONE) (.cons htz .nil))
  have hbytes : [stringBytes USER_ATTR_TIMEZONE, timezoneBytes r.timezone].flatten =
      stringBytes USER_ATTR_TIMEZONE ++ timezoneBytes r.timezone := by simp
  rw [hbytes] at hputs
  exact (hputs.writesAs (by simp [userAttributes])).ofClass
    ((PyValue.mapPythonType_sequence_iff rfl).mpr
      (Or.inr ⟨_, _, rfl, by simp [PyValue.toInt?], rfl⟩))

theorem writes_str (s : Option PyStr) (h : truthyStr s = true) :
    WritesAs (wireClass .string) (.ofStr? s) (stringBytes (s.getD [])) := by
  cases s with
  | none => cases h
  | some s => exact writesAs_str s

/-- The fields of a fixed size, with their values and bytes. -/
def numbers (r : HandshakeRequest) : List (PyStr × WireClass × PyValue × Bytes) :=
  [("length".toList, primitive .int, .int r.handshakeLength, Scalar.int.store r.handshakeLength),
    ("op_code".toList, primitive .byte, .int OP_HANDSHAKE, Scalar.byte.store OP_HANDSHAKE),
    ("version_major".toList, primitive .short, .int r.version.major,
      Scalar.short.store r.version.major),
    ("version_minor".toList, primitive .short, .int r.version.minor,
      Scalar.short.store r.version.minor),
    ("version_patch".toList, primitive .short, .int r.version.patch,
      Scalar.short.store r.version.patch),
    ("client_code".toList, primitive .byte, .int 2, Scalar.byte.store 2)]

/-- The fields with their values and bytes. -/
def fields (r : HandshakeRequest) : List (PyStr × WireClass × PyValue × Bytes) :=
  r.numbers ++
  (if r.version.isFeatureFlagsSupported then
    [("features".toList, wireClass .byteArrayObject, .bytes (featureBytes r.features),
      DataType.byteArrayObject.typeCode ::
        (Scalar.int.store (featureBytes r.features).length ++ featureBytes r.features))] else []) ++
  (if r.version.isUserAttributesSupported then
    [("user_attributes".toList, wireClass .mapObject, r.userAttributes, r.userAttributesBytes)]
    else []) ++
  (if r.hasCredentials then
    [("username".toList, wireClass .string, .ofStr? r.username, stringBytes (r.username.getD [])),
      ("password".toList, wireClass .string, .ofStr? r.password, stringBytes (r.password.getD []))]
    else [])

theorem handshakeStruct_fields (r : HandshakeRequest) :
    r.handshakeStruct.fields = r.fields.map fun f => (f.1, .plain f.2.1) := by
  simp only [handshakeStruct, fields, numbers, List.map_append, apply_ite (List.map _),
    List.map_cons, List.map_nil]

theorem createHandshakeData_eq (r : HandshakeRequest) :
    r.createHandshakeData = r.fields.map fun f => (f.1, f.2.2.1) := by
  simp only [createHandshakeData, fields, numbers, List.map_append, apply_ite (List.map _),
    List.map_cons, List.map_nil]

theorem flatMap_fields (r : HandshakeRequest) :
    (r.fields.flatMap fun f => f.2.2.2) = Scalar.int.store r.handshakeLength ++ r.body := by
  simp only [fields, numbers, body, List.flatMap_append, apply_ite (List.flatMap _),
    List.flatMap_cons, List.flatMap_nil, List.append_nil, List.append_assoc]

theorem fields_nodup (r : HandshakeRequest) : (r.fields.map (·.1)).Nodup := by
  simp only [fields, numbers, List.map_append, apply_ite (List.map _), List.map_cons, List.map_nil]
  cases r.version.isFeatureFlagsSupported <;> cases r.version.isUserAttributesSupported <;>
    cases r.hasCredentials <;> decide

/-- The version has three parts that fit their fields. -/
def VersionFits (r : HandshakeRequest) : Prop :=
  r.version.major < 2 ^ 15 ∧ r.version.minor < 2 ^ 15 ∧ r.version.patch < 2 ^ 15

omit [Python] [OtherCodecs] in
theorem short_range_of_lt {n : ℕ} (h : n < 2 ^ 15) : Scalar.short.Range n := by
  simp only [Scalar.Range, Scalar.isSigned, Scalar.size, SignedRange, if_true]
  omega

omit [Python] [OtherCodecs] in
theorem featureBytes_length_le (r : HandshakeRequest)
    (h : r.version.isFeatureFlagsSupported = true) :
    (featureBytes r.features).length ≤ r.handshakeLength := by
  rw [handshakeLength, if_pos h]
  omega

theorem fields_write (r : HandshakeRequest) (hv : r.VersionFits)
    (hlen : r.handshakeLength < 2 ^ 31) : ∀ f ∈ r.fields, WritesAs f.2.1 f.2.2.1 f.2.2.2 := by
  have hfeatures := r.featureBytes_length_le
  have huser : r.hasCredentials = true →
      truthyStr r.username = true ∧ truthyStr r.password = true := fun h => by simpa [hasCredentials] using h
  intro f hf
  simp only [fields, numbers, List.mem_append, List.mem_cons, List.not_mem_nil, or_false] at hf
  rcases hf with (((rfl | rfl | rfl | rfl | rfl | rfl) | hf) | hf) | hf
  · exact writesAs_primitive rfl (range_of_lt hlen)
  · exact writesAs_primitive rfl (by decide)
  · exact writesAs_primitive rfl (short_range_of_lt hv.1)
  · exact writesAs_primitive rfl (short_range_of_lt hv.2.1)
  · exact writesAs_primitive rfl (short_range_of_lt hv.2.2)
  · exact writesAs_primitive rfl (by decide)
  · split_ifs at hf with h
    · obtain rfl := List.mem_singleton.mp hf
      have hputs := puts_bytes (b := featureBytes r.features) (by have := hfeatures h; omega)
      exact (hputs.writesAs (by simp)).ofClass rfl
    · simp at hf
  · split_ifs at hf with h
    · obtain rfl := List.mem_singleton.mp hf
      exact r.writes_userAttributes
    · simp at hf
  · split_ifs at hf with h
    · rcases List.mem_pair.mp hf with rfl | rfl
      exacts [writes_str _ (huser h).1, writes_str _ (huser h).2]
    · simp at hf

theorem writesAs_request (r : HandshakeRequest) (hv : r.VersionFits)
    (hlen : r.handshakeLength < 2 ^ 31) :
    WritesAs r.handshakeStruct.wireClass (strDict r.createHandshakeData)
      (Scalar.int.store r.handshakeLength ++ r.body) := by
  rw [createHandshakeData_eq, ← flatMap_fields]
  exact writesAs_strDict r.fields r.handshakeStruct_fields rfl (r.fields_write hv hlen)
    r.fields_nodup

/-- A number that does not fit its field is refused. -/
theorem request_refused (r : HandshakeRequest) {name : PyStr} {sc : Scalar} {i : ℤ} {data : Bytes}
    (hfield : (name, primitive sc, .int i, data) ∈ r.fields) (hrange : ¬sc.Range i)
    (s : BinaryStream) : ∃ e, r.fromPython s = .error e := by
  have hpack : packSigned sc (.int i) = raise .structError := by
    simp only [packSigned, PyValue.toInt?, if_neg hrange]
  have hwrite : ∀ stream, ∃ e,
      (FieldClass.plain (primitive sc)).fromPython (.int i) stream = .error e := by
    intro stream
    refine ⟨⟨.structError, ""⟩, bind_error ?_⟩
    rw [hpack]
    rfl
  have hitem : (strDict r.createHandshakeData).item name = .ok (.int i) := by
    rw [createHandshakeData_eq]
    refine item_strDict ?_ (List.mem_map.mpr ⟨_, hfield, rfl⟩)
    simpa [Function.comp_def] using r.fields_nodup
  have hfirst : ∃ e, writeStructFields r.handshakeStruct.fields (strDict r.createHandshakeData) s =
      .error e := by
    rw [handshakeStruct_fields]
    refine writeStructFields_refused ?_ (List.mem_map.mpr ⟨_, hfield, rfl⟩) hitem hwrite s
    simpa [Function.comp_def] using r.fields_nodup
  obtain ⟨e, he⟩ := hfirst
  have hset : (setDefaults r.handshakeStruct.defaults (strDict r.createHandshakeData)).map
      (fun v => (v, s)) = .ok (strDict r.createHandshakeData, s) := rfl
  exact ⟨e, (bind_ok hset).trans he⟩

/-- What is written fits its fields. -/
theorem fits_of_written {r : HandshakeRequest} {s t : BinaryStream} {v : PyValue}
    (h : r.fromPython s = .ok (v, t)) : r.VersionFits ∧ r.handshakeLength < 2 ^ 31 := by
  have hfits : ∀ (name : PyStr) (sc : Scalar) (i : ℤ),
      (name, primitive sc, .int i, sc.store i) ∈ r.numbers → sc.Range i := by
    intro name sc i hnumber
    have hfield : (name, primitive sc, .int i, sc.store i) ∈ r.fields := by
      simp only [fields, List.mem_append, hnumber, true_or]
    by_contra hrange
    obtain ⟨e, he⟩ := r.request_refused hfield hrange s
    rw [he] at h
    cases h
  have hshort : ∀ {n : ℕ}, Scalar.short.Range n → n < 2 ^ 15 := by
    intro n hn
    simp only [Scalar.Range, Scalar.isSigned, Scalar.size, SignedRange, if_true] at hn
    omega
  have hmajor := hfits "version_major".toList .short r.version.major
    (by simp only [numbers, List.mem_cons, true_or, or_true])
  have hminor := hfits "version_minor".toList .short r.version.minor
    (by simp only [numbers, List.mem_cons, true_or, or_true])
  have hpatch := hfits "version_patch".toList .short r.version.patch
    (by simp only [numbers, List.mem_cons, true_or, or_true])
  have hlength := hfits "length".toList .int r.handshakeLength
    (by simp only [numbers, List.mem_cons, true_or])
  refine ⟨⟨hshort hmajor, hshort hminor, hshort hpatch⟩, ?_⟩
  simp only [Scalar.Range, Scalar.isSigned, Scalar.size, SignedRange, if_true] at hlength
  omega

end Writes

end HandshakeRequest

section Length
variable [Python] [OtherCodecs]

/-- A length that fits its field is compared with the length of the body. -/
theorem lengthCorrect_iff_of_lt (r : HandshakeRequest) (hv : r.VersionFits) (cl : Client)
    (hlen : r.handshakeLength < 2 ^ 31) : r.LengthCorrect cl ↔ r.handshakeLength = r.body.length := by
  obtain ⟨v, hwrite⟩ := r.writesAs_request hv hlen ⟨cl, [], 0, false⟩ rfl
  have hbuf : writeAt [] 0 (Scalar.int.store r.handshakeLength ++ r.body) =
      Scalar.int.store r.handshakeLength ++ r.body := by
    rw [writeAt_of_ne (by simp [← List.length_pos_iff, Scalar.size])]
    simp [padTo]
  have htake : (Scalar.int.store r.handshakeLength ++ r.body).take 4 =
      Scalar.int.store r.handshakeLength := List.take_left' (Scalar.store_length .int _)
  have hload : leInt (Scalar.int.store r.handshakeLength) = r.handshakeLength :=
    Scalar.load_store (range_of_lt hlen)
  have hsize : (Scalar.int.store (r.handshakeLength : ℤ) ++ r.body).length = 4 + r.body.length := by
    rw [List.length_append, Scalar.store_length]
    rfl
  constructor
  · rintro ⟨v', t, hrun, -, hcorrect⟩
    obtain ⟨-, rfl⟩ := Prod.mk.inj (Except.ok.inj (hwrite.symm.trans hrun))
    dsimp only [BinaryStream.put] at hcorrect
    rw [hbuf, htake, hload, hsize] at hcorrect
    omega
  · intro heq
    refine ⟨v, _, hwrite, ?_⟩
    dsimp only [BinaryStream.put]
    rw [hbuf, htake, hload, hsize]
    omega

/-- The length of a handshake request is right exactly where the optional texts are ASCII, the
time zone is not the empty text, and the length and the version fit their fields. -/
theorem handshake_length_correct_iff (r : HandshakeRequest) (cl : Client) :
    r.LengthCorrect cl ↔ r.TextsCounted ∧ r.handshakeLength < 2 ^ 31 ∧ r.VersionFits := by
  constructor
  · intro hcorrect
    obtain ⟨v, t, hrun, -⟩ := id hcorrect
    obtain ⟨hv, hlen⟩ := HandshakeRequest.fits_of_written hrun
    exact ⟨r.handshakeLength_eq_iff.mp ((lengthCorrect_iff_of_lt r hv cl hlen).mp hcorrect), hlen, hv⟩
  · rintro ⟨htexts, hlen, hv⟩
    exact (lengthCorrect_iff_of_lt r hv cl hlen).mpr (r.handshakeLength_eq_iff.mpr htexts)

end Length

/-- The length of the texts in characters is less than their length in bytes, and the empty time
zone is counted as if it were `None`. -/
theorem handshake_length_wrong :
    let _ := asciiLower
    let _ := noOtherCodecs
    let client : Client := ⟨none, fun _ => [], fun _ => []⟩
    ¬HandshakeRequest.LengthCorrect ⟨maxProtocol, 4, none, some ['é'], some ['p']⟩ client ∧
      ¬HandshakeRequest.LengthCorrect ⟨maxProtocol, 4, some [], some ['u'], some ['p']⟩ client := by
  intro _ _ client
  have hversion : maxProtocol.major < 2 ^ 15 ∧ maxProtocol.minor < 2 ^ 15 ∧
      maxProtocol.patch < 2 ^ 15 := by
    decide
  have hfits : ∀ tz user, HandshakeRequest.VersionFits ⟨maxProtocol, 4, tz, user, some ['p']⟩ :=
    fun _ _ => hversion
  refine ⟨(lengthCorrect_iff_of_lt _ (hfits _ _) client (by decide)).not.mpr (by decide),
    (lengthCorrect_iff_of_lt _ (hfits _ _) client (by decide)).not.mpr (by decide)⟩

end PyGridGain
