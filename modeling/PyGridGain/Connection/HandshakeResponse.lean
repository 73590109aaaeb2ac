import Mathlib.Data.Nat.Bitwise
import Mathlib.Data.Nat.Size
import PyGridGain.Codec.Settled
import PyGridGain.Connection.HandshakeRequest
import PyGridGain.Connection.ReceiveLoop
import PyGridGain.Datatypes.CacheConfig
import PyGridGain.Queries.Partitions

/-! The handshake response: what a server answers is read as it was sent, and after an accepted
handshake the context knows exactly the features of the server. -/

namespace PyGridGain

open StreamM

/-! ### Features -/

/-- `BitmaskFeature.from_array`. -/
def featuresFromArray (featuresArray : Option Bytes) : Option ℕ := featuresArray.map leNat

/-- The feature `k` of an array. -/
def HasFeature (featuresArray : Bytes) (k : ℕ) : Prop :=
  (featuresArray.getD (k / 8) 0).toNat.testBit (k % 8) = true

theorem testBit_leNat (b : Bytes) (k : ℕ) : (leNat b).testBit k = true ↔ HasFeature b k := by
  induction b generalizing k with
  | nil => simp [leNat, HasFeature]
  | cons x b ih =>
    have hx : x.toNat < 2 ^ 8 := x.toNat_lt
    rw [leNat, show x.toNat + 256 * leNat b = 2 ^ 8 * leNat b + x.toNat by ring,
      Nat.testBit_two_pow_mul_add _ hx]
    split_ifs with hk
    · rw [HasFeature, Nat.div_eq_of_lt hk, Nat.mod_eq_of_lt hk]
      rfl
    · obtain ⟨m, rfl⟩ := Nat.exists_eq_add_of_le (not_lt.mp hk)
      rw [Nat.add_sub_cancel_left, ih]
      unfold HasFeature
      rw [Nat.add_div_left _ (by decide), Nat.add_mod_left]
      rfl

/-- A mask that is written is read back. -/
theorem features_written_and_read (features : ℕ) :
    featuresFromArray (some (featureBytes features)) = some features := by
  have hlt : features < 256 ^ (features.size / 8 + 1) := by
    have hsize := Nat.lt_size_self features
    refine hsize.trans_le ?_
    rw [show (256 : ℕ) = 2 ^ 8 by rfl, ← pow_mul]
    exact Nat.pow_le_pow_right (by decide) (by omega)
  rw [featuresFromArray, featureBytes, Option.map_some, leNat_leBytes_of_lt hlt]

/-! ### Attributes of the response -/

namespace HandshakeResponse

variable (data : List (PyStr × PyValue))

/-- `hs_response.op_code == 0`. -/
def isRejected : Bool := (data.lookup "op_code".toList).bind PyValue.toInt? == some 0

/-- A number among the attributes. Only those of a rejection are asked for, which has them. -/
def intAttribute (name : String) : ℤ :=
  match data.lookup name.toList with
  | some (.int i) => i
  | _ => 0

/-- `str(response.message)`. -/
def messageText : String :=
  match data.lookup "message".toList with
  | some (.str x) => String.ofList x
  | _ => "None"

/-- `result.get('features', None)`. -/
def featuresArray : Option Bytes :=
  match data.lookup "features".toList with
  | some (.bytes b) => some b
  | _ => none

/-- `result.get('node_uuid', None)`. -/
def nodeUuid : Option UUID :=
  match data.lookup "node_uuid".toList with
  | some (.uuid u) => some u
  | _ => none

/-- The attributes that a rejection is judged by. -/
def ofData : HandshakeResponse where
  opCode := intAttribute data "op_code"
  versionMajor := intAttribute data "version_major"
  versionMinor := intAttribute data "version_minor"
  versionPatch := intAttribute data "version_patch"
  message := messageText data
  clientStatus := intAttribute data "client_status"

end HandshakeResponse

/-- What a connection knows after an accepted handshake: the protocol context, and its `uuid`. -/
structure Shaken where
  context : ProtocolContext
  uuid : Option UUID

/-- `_on_handshake_success`. -/
def onHandshakeSuccess (c : ProtocolContext) (result : List (PyStr × PyValue)) : Shaken where
  context := c.setFeatures (featuresFromArray (HandshakeResponse.featuresArray result))
  uuid := HandshakeResponse.nodeUuid result

/-- `_connect_version` from the received bytes on, and `_on_handshake_success`. -/
def finishHandshake [Python] [OtherCodecs] (client : Client) (c : ProtocolContext) :
    StreamM (Except ConnectError Shaken) := do
  let hsResponse ← HandshakeResponse.parse client c.version
  if HandshakeResponse.isRejected hsResponse then
    pure (.error (processHandshakeError (some c.version) (.ofData hsResponse)))
  else
    pure (.ok (onHandshakeSuccess c hsResponse))

/-! ### What the server answers -/

/-- A rejection: the version that the server speaks, a message and a status. The length in front
is not looked at. -/
structure Rejection where
  length : ℤ
  major : ℤ
  minor : ℤ
  patch : ℤ
  message : Option PyStr
  status : ℤ
  length_range : Scalar.int.Range length
  major_range : Scalar.short.Range major
  minor_range : Scalar.short.Range minor
  patch_range : Scalar.short.Range patch
  status_range : Scalar.int.Range status
  message_lt : ∀ m ∈ message, (utf8Encode m).length < 2 ^ 31

/-- An acceptance: any other code, the features and the id of the node. -/
structure Acceptance where
  length : ℤ
  opCode : ℤ
  features : Option Bytes
  node : Option UUID
  length_range : Scalar.int.Range length
  opCode_range : Scalar.byte.Range opCode
  opCode_ne : opCode ≠ 0
  features_lt : ∀ b ∈ features, b.length < 2 ^ 31

def featureArrayBytes : Option Bytes → Bytes
  | some b => DataType.byteArrayObject.typeCode :: (Scalar.int.store b.length ++ b)
  | none => [TC_NULL]

def nodeBytes : Option UUID → Bytes
  | some u => DataType.uuidObject.typeCode :: uuidStore u
  | none => [TC_NULL]

namespace Rejection

/-- The bytes behind the code. -/
def content (r : Rejection) : Bytes :=
  Scalar.short.store r.major ++ (Scalar.short.store r.minor ++
    (Scalar.short.store r.patch ++ (textBytes r.message ++ Scalar.int.store r.status)))

/-- The text of the message, which ends before its first U+0000. -/
def text (r : Rejection) : String :=
  r.message.elim "None" fun x => String.ofList (x.takeWhile (· ≠ '\x00'))

/-- What the client is to make of it. -/
def response (r : Rejection) : HandshakeResponse where
  opCode := 0
  versionMajor := r.major
  versionMinor := r.minor
  versionPatch := r.patch
  message := r.text
  clientStatus := r.status

end Rejection

namespace Acceptance

/-- The bytes behind the code, for a client that speaks `version`. -/
def content (a : Acceptance) (version : ProtocolVersion) : Bytes :=
  if version.isFeatureFlagsSupported then featureArrayBytes a.features ++ nodeBytes a.node
  else if version.isPartitionAwarenessSupported then nodeBytes a.node
  else []

/-- What the client is to make of it: the code is all that it looks at. -/
def response (a : Acceptance) : HandshakeResponse where
  opCode := a.opCode
  versionMajor := 0
  versionMinor := 0
  versionPatch := 0
  message := "None"
  clientStatus := 0

end Acceptance

inductive ServerAnswer
  | rejected (r : Rejection)
  | accepted (a : Acceptance)

namespace ServerAnswer

def bytes (version : ProtocolVersion) : ServerAnswer → Bytes
  | rejected r => Scalar.int.store r.length ++ (Scalar.byte.store 0 ++ r.content)
  | accepted a => Scalar.int.store a.length ++ (Scalar.byte.store a.opCode ++ a.content version)

def response : ServerAnswer → HandshakeResponse
  | rejected r => r.response
  | accepted a => a.response

end ServerAnswer

/-- The bytes are received, and nothing has been read of them. -/
def unread (cl : Client) (b : Bytes) : BinaryStream := ⟨cl, b, 0, false⟩

section Reading
variable [Python] [OtherCodecs] {I : Client → Prop} {client : Client}

/-- The value that stands for a feature array. -/
def featureArrayValue : Option Bytes → PyValue
  | some b => .bytes b
  | none => .none

def nodeValue : Option UUID → PyValue
  | some u => .uuid u
  | none => .none

theorem reads_message {message : Option PyStr}
    (hlen : ∀ x ∈ message, (utf8Encode x).length < 2 ^ 31) :
    Reads I (wireClass .string) (textBytes message) (textRead message) :=
  (finds_text hlen).mono fun _ hc => ⟨hc.1, fun client _ =>
    (toPython_string (some client) (some client) _).trans (hc.2 (some client))⟩

theorem reads_features {features : Option Bytes} (hlen : ∀ b ∈ features, b.length < 2 ^ 31) :
    Reads I (wireClass .byteArrayObject) (featureArrayBytes features)
      (featureArrayValue features) := by
  cases features with
  | none => exact ((recovers_none .byteArrayObject).1.classReadsAs (by simp)).reads
  | some b =>
    have hb : b.length = b.length * Scalar.byte.size := by simp [Scalar.size]
    have hlt := (hlen b rfl).trans (by norm_num : 2 ^ 31 < 2 ^ 32)
    have h : Recovers (classReader .byteArrayObject) _ (.ok (.bytes b)) ∧ _ := recovers_array
      (s := .byte) (by simp) hb hlt (fun _ => rfl) fun _ _ => by
        show byteArrayToPython _ = _
        rw [byteArrayToPython, attr_arrayParts hb, except_bind]
    exact (h.1.classReadsAs (by simp)).reads

theorem reads_node (node : Option UUID) :
    Reads I (wireClass .uuidObject) (nodeBytes node) (nodeValue node) := by
  cases node with
  | none => exact ((recovers_none .uuidObject).1.classReadsAs (by simp)).reads
  | some u => exact reads_uuid u

omit [Python] [OtherCodecs] in
/-- A structure that is read as it stands. -/
theorem finds_readStruct {s : Struct} (fields : List (PyStr × WireClass × Bytes × PyValue))
    (hs : s.fields = fields.map fun f => (f.1, .plain f.2.1))
    (h : ∀ f ∈ fields, Reads I f.2.1 f.2.2.1 f.2.2.2) (hnd : (fields.map (·.1)).Nodup)
    (hne : (fields.flatMap fun f => f.2.2.1) ≠ []) (hclient : I client) :
    Finds I (HandshakeResponse.readStruct client s) (fields.flatMap fun f => f.2.2.1) fun data =>
      data = fields.map fun f => (f.1, f.2.2.2) := by
  intro stream hstream
  obtain ⟨c, r, hparse, hr, hsize, hpy⟩ := reads_plainStruct fields hs h hnd stream hstream
  have hback := readBackward_at hr.emptyView (by rw [hr.buf]; exact hstream.at_pos) hne hr.pos
    hsize.symm
  obtain ⟨data, hdata, heq⟩ := except_bind_eq_ok.mp (hpy client hclient)
  obtain rfl := strDict_injective (Except.ok.inj heq)
  refine ⟨_, r, (bind_ok hparse).trans ((bind_ok hback).trans ?_), hr, rfl⟩
  rw [hdata]
  rfl

omit [Python] [OtherCodecs] in
theorem scalar_store_ne_nil (s : Scalar) (i : ℤ) : s.store i ≠ [] := by
  rw [← List.length_pos_iff, Scalar.store_length]
  cases s <;> decide

omit [Python] [OtherCodecs] in
theorem finds_start {length opCode : ℤ} (hlength : Scalar.int.Range length)
    (hop : Scalar.byte.Range opCode) (hclient : I client) :
    Finds I (HandshakeResponse.readStruct client HandshakeResponse.responseStart)
      (Scalar.int.store length ++ Scalar.byte.store opCode) fun data =>
        data = [("length".toList, .int length), ("op_code".toList, .int opCode)] := by
  have h := finds_readStruct (I := I) (s := HandshakeResponse.responseStart)
    [("length".toList, primitive .int, Scalar.int.store length, .int length),
      ("op_code".toList, primitive .byte, Scalar.byte.store opCode, .int opCode)] rfl
    (by simpa using ⟨reads_primitive hlength, reads_primitive hop⟩) (by simp)
    (by simp [scalar_store_ne_nil]) hclient
  simpa using h

/-- The start, and the structure that it asks for. -/
theorem finds_response {length opCode : ℤ} (hlength : Scalar.int.Range length)
    (hop : Scalar.byte.Range opCode) {version : ProtocolVersion} {s : Struct}
    (fields : List (PyStr × WireClass × Bytes × PyValue))
    (hs : s.fields = fields.map fun f => (f.1, .plain f.2.1))
    (hend : HandshakeResponse.createResponseEnd
      [("length".toList, .int length), ("op_code".toList, .int opCode)] version = some s)
    (h : ∀ f ∈ fields, Reads I f.2.1 f.2.2.1 f.2.2.2)
    (hnd : ("length".toList :: "op_code".toList :: fields.map (·.1)).Nodup)
    (hne : (fields.flatMap fun f => f.2.2.1) ≠ []) (hclient : I client) :
    Finds I (HandshakeResponse.parse client version)
      (Scalar.int.store length ++ Scalar.byte.store opCode ++ fields.flatMap fun f => f.2.2.1)
      fun data => data = ("length".toList, .int length) :: ("op_code".toList, .int opCode) ::
        fields.map fun f => (f.1, f.2.2.2) := by
  refine (finds_start hlength hop hclient).bind fun data hdata => ?_
  subst hdata
  rw [hend]
  refine (finds_readStruct fields hs h ?_ hne hclient).map fun last hlast => ?_
  · exact (List.nodup_cons.mp (List.nodup_cons.mp hnd).2).2
  · subst hlast
    rw [dictUpdate_of_nodup (by simpa [Function.comp_def] using hnd)]
    rfl

theorem finds_rejection (r : Rejection) (version : ProtocolVersion) (hclient : I client) :
    Finds I (HandshakeResponse.parse client version) ((ServerAnswer.rejected r).bytes version)
      fun data => HandshakeResponse.isRejected data = true ∧
        HandshakeResponse.ofData data = r.response := by
  have hnames : (["length".toList, "op_code".toList, "version_major".toList, "version_minor".toList,
      "version_patch".toList, "message".toList, "client_status".toList] : List PyStr).Nodup := by
    decide
  have h : Finds I (HandshakeResponse.parse client version) _ _ := finds_response r.length_range
    (show Scalar.byte.Range 0 by decide)
    [("version_major".toList, primitive .short, Scalar.short.store r.major, .int r.major),
      ("version_minor".toList, primitive .short, Scalar.short.store r.minor, .int r.minor),
      ("version_patch".toList, primitive .short, Scalar.short.store r.patch, .int r.patch),
      ("message".toList, wireClass .string, textBytes r.message, textRead r.message),
      ("client_status".toList, primitive .int, Scalar.int.store r.status, .int r.status)] rfl rfl
    (by simpa using ⟨reads_primitive r.major_range, reads_primitive r.minor_range,
      reads_primitive r.patch_range, reads_message r.message_lt, reads_primitive r.status_range⟩)
    hnames (by simp [scalar_store_ne_nil]) hclient
  have hbytes : (ServerAnswer.rejected r).bytes version =
      Scalar.int.store r.length ++ Scalar.byte.store 0 ++
        (Scalar.short.store r.major ++ (Scalar.short.store r.minor ++
          (Scalar.short.store r.patch ++ (textBytes r.message ++
            (Scalar.int.store r.status ++ []))))) := by
    simp [ServerAnswer.bytes, Rejection.content]
  rw [hbytes]
  refine Finds.mono h fun data hdata => ?_
  subst hdata
  refine ⟨rfl, ?_⟩
  unfold Rejection.response Rejection.text
  cases r.message <;> rfl

omit [Python] [OtherCodecs] in
theorem isRejected_cons (length opCode : ℤ) (fields : List (PyStr × PyValue)) :
    HandshakeResponse.isRejected
      (("length".toList, .int length) :: ("op_code".toList, .int opCode) :: fields) =
        (some opCode == some 0) := rfl

omit [Python] [OtherCodecs] in
/-- Feature flags are younger than partition awareness. -/
theorem isPartitionAwarenessSupported_of_flags {version : ProtocolVersion}
    (h : version.isFeatureFlagsSupported = true) :
    version.isPartitionAwarenessSupported = true := by
  simp only [ProtocolVersion.isFeatureFlagsSupported, ProtocolVersion.isPartitionAwarenessSupported,
    ProtocolVersion.atLeast, Bool.or_eq_true, Bool.and_eq_true, decide_eq_true_eq,
    beq_iff_eq] at h ⊢
  omega

/-- What the client finds in the data of an accepted answer. -/
def Acceptance.Found (a : Acceptance) (version : ProtocolVersion) (data : List (PyStr × PyValue)) :
    Prop :=
  HandshakeResponse.isRejected data = false ∧
    HandshakeResponse.featuresArray data =
      (if version.isFeatureFlagsSupported then a.features else none) ∧
    HandshakeResponse.nodeUuid data =
      if version.isPartitionAwarenessSupported then a.node else none

theorem finds_acceptance (a : Acceptance) (version : ProtocolVersion) (hclient : I client) :
    Finds I (HandshakeResponse.parse client version) ((ServerAnswer.accepted a).bytes version)
      (a.Found version) := by
  have hcode : (some a.opCode == some 0) = false := by simpa using a.opCode_ne
  have hrejected := fun fields => (isRejected_cons a.length a.opCode fields).trans hcode
  have hstart : ¬(([("length".toList, PyValue.int a.length),
      ("op_code".toList, .int a.opCode)].lookup "op_code".toList).bind PyValue.toInt? = some 0) :=
    fun h => a.opCode_ne (Option.some.inj h)
  by_cases hflags : version.isFeatureFlagsSupported = true
  · have hpartition := isPartitionAwarenessSupported_of_flags hflags
    have hend : HandshakeResponse.createResponseEnd
        [("length".toList, .int a.length), ("op_code".toList, .int a.opCode)] version =
          some ⟨[("features".toList, .plain (wireClass .byteArrayObject)),
            ("node_uuid".toList, .plain (wireClass .uuidObject))], []⟩ := by
      rw [HandshakeResponse.createResponseEnd, if_neg hstart, if_pos hflags]
    have h := finds_response (I := I) a.length_range a.opCode_range
      [("features".toList, wireClass .byteArrayObject, featureArrayBytes a.features,
          featureArrayValue a.features),
        ("node_uuid".toList, wireClass .uuidObject, nodeBytes a.node, nodeValue a.node)] rfl hend
      (by simpa using ⟨reads_features a.features_lt, reads_node a.node⟩)
      (show (["length".toList, "op_code".toList, "features".toList, "node_uuid".toList] :
        List PyStr).Nodup by decide)
      (by cases a.node <;> simp [nodeBytes]) hclient
    have hbytes : (ServerAnswer.accepted a).bytes version =
        Scalar.int.store a.length ++ Scalar.byte.store a.opCode ++
          (featureArrayBytes a.features ++ (nodeBytes a.node ++ [])) := by
      simp [ServerAnswer.bytes, Acceptance.content, hflags]
    rw [hbytes]
    refine Finds.mono h fun data hdata => ?_
    subst hdata
    rw [Acceptance.Found, if_pos hflags, if_pos hpartition]
    refine ⟨hrejected _, ?_, ?_⟩
    · cases a.features <;> rfl
    · cases a.node <;> rfl
  · by_cases hpartition : version.isPartitionAwarenessSupported = true
    · have hend : HandshakeResponse.createResponseEnd
          [("length".toList, .int a.length), ("op_code".toList, .int a.opCode)] version =
            some ⟨[("node_uuid".toList, .plain (wireClass .uuidObject))], []⟩ := by
        rw [HandshakeResponse.createResponseEnd, if_neg hstart,
          if_neg hflags, if_pos hpartition]
      have h := finds_response (I := I) a.length_range a.opCode_range
        [("node_uuid".toList, wireClass .uuidObject, nodeBytes a.node, nodeValue a.node)] rfl hend
        (by simpa using reads_node a.node)
        (show (["length".toList, "op_code".toList, "node_uuid".toList] : List PyStr).Nodup by
          decide)
        (by cases a.node <;> simp [nodeBytes]) hclient
      have hbytes : (ServerAnswer.accepted a).bytes version = Scalar.int.store a.length ++
          Scalar.byte.store a.opCode ++ (nodeBytes a.node ++ []) := by
        simp [ServerAnswer.bytes, Acceptance.content, hflags, hpartition]
      rw [hbytes]
      refine Finds.mono h fun data hdata => ?_
      subst hdata
      rw [Acceptance.Found, if_neg hflags, if_pos hpartition]
      refine ⟨hrejected _, rfl, ?_⟩
      cases a.node <;> rfl
    · have hend : HandshakeResponse.createResponseEnd
          [("length".toList, .int a.length), ("op_code".toList, .int a.opCode)] version = none := by
        rw [HandshakeResponse.createResponseEnd, if_neg hstart,
          if_neg hflags, if_neg hpartition]
      have hbytes : (ServerAnswer.accepted a).bytes version = Scalar.int.store a.length ++
          Scalar.byte.store a.opCode ++ [] := by
        simp [ServerAnswer.bytes, Acceptance.content, hflags, hpartition]
      rw [hbytes]
      refine (finds_start a.length_range a.opCode_range hclient).bind fun data hdata => ?_
      subst hdata
      rw [hend]
      refine Finds.pure ?_
      rw [Acceptance.Found, if_neg hflags, if_neg hpartition]
      exact ⟨hrejected _, rfl, rfl⟩

end Reading

/-! ### The outcome -/

/-- The features of a context. -/
def ProtocolContext.Has (c : ProtocolContext) (k : ℕ) : Prop :=
  ∃ features ∈ c.features, features.testBit k = true

namespace ProtocolContext

theorem and_eq_iff (features k : ℕ) :
    features &&& 1 <<< k = 1 <<< k ↔ features.testBit k = true := by
  rw [Nat.one_shiftLeft, Nat.and_two_pow]
  cases features.testBit k with
  | false => simp [(Nat.two_pow_pos k).ne]
  | true => simp

theorem isClusterApiSupported_iff (c : ProtocolContext) :
    c.isClusterApiSupported = true ↔ c.Has 2 := by
  obtain ⟨version, _ | features⟩ := c
  · simp [isClusterApiSupported, Has]
  · have hbit := and_eq_iff features 2
    simpa [isClusterApiSupported, Has, CLUSTER_API] using hbit

theorem isQueryIndexVectorSimilaritySupported_iff (c : ProtocolContext) :
    c.isQueryIndexVectorSimilaritySupported = true ↔ c.Has 33 := by
  obtain ⟨version, _ | features⟩ := c
  · simp [isQueryIndexVectorSimilaritySupported, Has]
  · have hbit := and_eq_iff features 33
    simpa [isQueryIndexVectorSimilaritySupported, Has, QUERY_INDEX_VECTOR_SIMILARITY] using hbit

end ProtocolContext

/-- Which features a client of this version is told of. -/
def Acceptance.Tells (a : Acceptance) (version : ProtocolVersion) (k : ℕ) : Prop :=
  version.isFeatureFlagsSupported = true ∧ ∃ b ∈ a.features, HasFeature b k

theorem has_setFeatures (c : ProtocolContext) (a : Acceptance) (k : ℕ) :
    (c.setFeatures (featuresFromArray
      (if c.version.isFeatureFlagsSupported then a.features else none))).Has k ↔
        a.Tells c.version k := by
  unfold ProtocolContext.Has ProtocolContext.setFeatures Acceptance.Tells featuresFromArray
  by_cases hflags : c.version.isFeatureFlagsSupported = true
  · cases hfeatures : a.features with
    | none => simp [hflags]
    | some b => simp [hflags, testBit_leNat]
  · simp [hflags]

/-- An answer, whatever its length, messages and arrays, ends the handshake as the model of the
version fallback has it. After an accepted one the client knows the features that it was told of,
and no others. -/
theorem handshake_finished [Python] [OtherCodecs] (c : ProtocolContext) (cl : Client)
    (answer : ServerAnswer) :
    ∃ outcome r,
      finishHandshake cl c (unread cl (answer.bytes c.version)) = .ok (outcome, r) ∧
      r.pos = (answer.bytes c.version).length ∧
      outcome.map (fun _ => ()) = connectVersion (some c.version) (.response answer.response) ∧
      ∀ a, answer = .accepted a → ∃ shaken, outcome = .ok shaken ∧
        shaken.context.version = c.version ∧
        (∀ k, shaken.context.Has k ↔ a.Tells c.version k) ∧
        (c.version.isFeatureFlagsSupported = true → ∀ mask,
          a.features = some (featureBytes mask) → shaken.context.features = some mask) ∧
        (shaken.context.isClusterApiSupported = true ↔ a.Tells c.version 2) ∧
        (shaken.context.isQueryIndexVectorSimilaritySupported = true ↔ a.Tells c.version 33) ∧
        shaken.uuid = if c.version.isPartitionAwarenessSupported then a.node else none := by
  have hbefore : Before (fun _ => True) (unread cl (answer.bytes c.version))
      (answer.bytes c.version) := ⟨rfl, trivial, List.prefix_refl _⟩
  cases answer with
  | rejected r =>
    obtain ⟨data, t, hparse, hpast, hrejected, hdata⟩ :=
      finds_rejection r c.version trivial _ hbefore
    refine ⟨.error (processHandshakeError (some c.version) r.response), t, ?_, ?_, rfl,
      fun a ha => ServerAnswer.noConfusion ha⟩
    · refine (bind_ok hparse).trans ?_
      rw [if_pos hrejected, hdata]
      rfl
    · simpa [unread] using hpast.pos
  | accepted a =>
    obtain ⟨data, t, hparse, hpast, hrejected, hfeatures, hnode⟩ :=
      finds_acceptance a c.version trivial _ hbefore
    refine ⟨.ok (onHandshakeSuccess c data), t, ?_, ?_, ?_, ?_⟩
    · refine (bind_ok hparse).trans ?_
      rw [hrejected, if_neg Bool.false_ne_true]
      rfl
    · simpa [unread] using hpast.pos
    · have hcode : ¬(ServerAnswer.accepted a).response.opCode = 0 := a.opCode_ne
      rw [connectVersion, if_neg hcode, if_neg (by simp)]
      rfl
    · rintro _ ⟨rfl⟩
      have hknows : ∀ k, (onHandshakeSuccess c data).context.Has k ↔ a.Tells c.version k := by
        intro k
        rw [onHandshakeSuccess, hfeatures]
        exact has_setFeatures c a k
      have hmask : c.version.isFeatureFlagsSupported = true → ∀ mask,
          a.features = some (featureBytes mask) →
            (onHandshakeSuccess c data).context.features = some mask := by
        intro hflags mask hmask
        rw [onHandshakeSuccess, hfeatures, if_pos hflags, hmask, ProtocolContext.setFeatures,
          if_pos hflags, features_written_and_read]
      exact ⟨_, rfl, rfl, hknows, hmask,
        (ProtocolContext.isClusterApiSupported_iff _).trans (hknows 2),
        (ProtocolContext.isQueryIndexVectorSimilaritySupported_iff _).trans (hknows 33), hnode⟩

end PyGridGain
