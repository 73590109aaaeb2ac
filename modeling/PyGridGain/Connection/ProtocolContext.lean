import Mathlib.Data.List.Basic

/-! The version of the binary protocol that a client speaks, and what it supports; and the features
that come with it, which get lost with a version that knows none. -/

namespace PyGridGain

structure ProtocolVersion where
  major : ℕ
  minor : ℕ
  patch : ℕ
  deriving DecidableEq, Repr

/-- `PROTOCOLS`, the highest version first. -/
def PROTOCOLS : List ProtocolVersion :=
  [⟨1, 7, 1⟩, ⟨1, 7, 0⟩, ⟨1, 6, 0⟩, ⟨1, 5, 0⟩, ⟨1, 4, 0⟩, ⟨1, 3, 0⟩, ⟨1, 2, 0⟩]

/-- `max(PROTOCOLS)`. -/
def maxProtocol : ProtocolVersion := ⟨1, 7, 1⟩

namespace ProtocolVersion

/-- `version >= (major, minor, patch)`. -/
def atLeast (v : ProtocolVersion) (major minor patch : ℕ) : Bool :=
  v.major > major || (v.major == major &&
    (v.minor > minor || (v.minor == minor && v.patch ≥ patch)))

def isPartitionAwarenessSupported (v : ProtocolVersion) : Bool := v.atLeast 1 4 0

def isTransactionsSupported (v : ProtocolVersion) : Bool := v.atLeast 1 6 0

def isExpiryPolicySupported (v : ProtocolVersion) : Bool := v.atLeast 1 6 0

def isStatusFlagsSupported (v : ProtocolVersion) : Bool := v.atLeast 1 4 0

def isFeatureFlagsSupported (v : ProtocolVersion) : Bool := v.atLeast 1 7 0

def isUserAttributesSupported (v : ProtocolVersion) : Bool := v.atLeast 1 7 1

end ProtocolVersion

/-! ### Features -/

def CLUSTER_API : ℕ := 1 <<< 2

def QUERY_INDEX_VECTOR_SIMILARITY : ℕ := 1 <<< 33

/-- `BitmaskFeature.all_supported`. -/
def allSupported : ℕ := CLUSTER_API ||| QUERY_INDEX_VECTOR_SIMILARITY

/-- What `ProtocolContext` knows of a server; `none` are features not received. -/
structure ProtocolContext where
  version : ProtocolVersion
  features : Option ℕ := none
  deriving DecidableEq

namespace ProtocolContext

/-- The context with which the first connection detects the protocol. -/
def first : ProtocolContext := ⟨maxProtocol, some allSupported⟩

/-- `version.setter`, with `_ensure_consistency`: nothing brings the features back. -/
def setVersion (c : ProtocolContext) (version : ProtocolVersion) : ProtocolContext where
  version := version
  features := if version.isFeatureFlagsSupported then c.features else none

/-- `features.setter`, with `_ensure_consistency`. -/
def setFeatures (c : ProtocolContext) (features : Option ℕ) : ProtocolContext :=
  { c with features := if c.version.isFeatureFlagsSupported then features else none }

@[simp] theorem setVersion_version (c : ProtocolContext) (v : ProtocolVersion) :
    (c.setVersion v).version = v := rfl

@[simp] theorem setFeatures_version (c : ProtocolContext) (features : Option ℕ) :
    (c.setFeatures features).version = c.version := rfl

/-- The data of a handshake can be made: `bytes(None)` is a `TypeError`. -/
def canHandshake (c : ProtocolContext) : Bool :=
  !c.version.isFeatureFlagsSupported || c.features.isSome

def isClusterApiSupported (c : ProtocolContext) : Bool :=
  match c.features with
  | some features => features &&& CLUSTER_API == CLUSTER_API
  | none => false

def isQueryIndexVectorSimilaritySupported (c : ProtocolContext) : Bool :=
  match c.features with
  | some features =>
    features &&& QUERY_INDEX_VECTOR_SIMILARITY == QUERY_INDEX_VECTOR_SIMILARITY
  | none => false

def isExpiryPolicySupported (c : ProtocolContext) : Bool := c.version.isExpiryPolicySupported

end ProtocolContext

end PyGridGain
