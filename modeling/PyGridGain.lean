import PyGridGain.Lib.LittleEndian
import PyGridGain.Lib.PrefixCode
import PyGridGain.Lib.ByteStream
import PyGridGain.Lib.CTypes
import PyGridGain.Lib.Utf8
import PyGridGain.Datatypes.Value
import PyGridGain.Datatypes.Hashcode
import PyGridGain.Stream.BinaryStream
import PyGridGain.Datatypes.FromPython
import PyGridGain.Datatypes.Parse
import PyGridGain.Datatypes.ToPython
import PyGridGain.Datatypes.Struct
import PyGridGain.Codec.Wire
import PyGridGain.Codec.Writes
import PyGridGain.Codec.Layouts
import PyGridGain.Codec.Nested
import PyGridGain.Codec.Objects
import PyGridGain.Codec.Parses
import PyGridGain.Codec.RoundTrip
import PyGridGain.Codec.ComplexObject
import PyGridGain.Lib.Runs
import PyGridGain.Lib.Framing
import PyGridGain.Lib.Dict
import PyGridGain.Lib.IntBits
import PyGridGain.Connection.DataReceived
import PyGridGain.Connection.Recv
import PyGridGain.Connection.Multiplexing
import PyGridGain.Connection.ProtocolContext
import PyGridGain.Connection.Handshake
import PyGridGain.Client.Transactions
import PyGridGain.Client.Affinity
import PyGridGain.Client.Partition
import PyGridGain.Client.Connect
import PyGridGain.Client.AioConnect
import PyGridGain.Client.Failover
import PyGridGain.Client.Cursors
import PyGridGain.Client.CursorRequests
import PyGridGain.Client.TransactionEnd
import PyGridGain.Client.QueryEvents
import PyGridGain.Client.TypeNames
import PyGridGain.Client.BinaryTypes
import PyGridGain.Client.Registry
import PyGridGain.Connection.Request
import PyGridGain.Connection.Versions
import PyGridGain.Connection.Transports
import PyGridGain.Datatypes.Uncached
import PyGridGain.Codec.Follows
import PyGridGain.Codec.Beside
import PyGridGain.Codec.Renamed
import PyGridGain.Codec.CachedWrites
import PyGridGain.Codec.FreshCaches
import PyGridGain.Codec.FreshWrites
import PyGridGain.Codec.OtherWrites
import PyGridGain.Datatypes.Attributes
import PyGridGain.Codec.StaleCaches
import PyGridGain.Lib.Register
import PyGridGain.Lib.Related
import PyGridGain.Utils.Cutils
import PyGridGain.Utils.JavaHash
import PyGridGain.Lib.Decimal
import PyGridGain.Utils.DecimalHash
import PyGridGain.Codec.Leaves
import PyGridGain.Codec.Scalars
import PyGridGain.Codec.Strings
import PyGridGain.Datatypes.PrimitiveArrays
import PyGridGain.Codec.PrimitiveArrays
import PyGridGain.Datatypes.DecimalObject
import PyGridGain.Datatypes.OtherClasses
import PyGridGain.Datatypes.Inference
import PyGridGain.Codec.InferenceWrites
import PyGridGain.Codec.Elements
import PyGridGain.Codec.InferenceReads
import PyGridGain.Codec.InferenceContainers
import PyGridGain.Codec.Moves
import PyGridGain.Codec.Terminates
import PyGridGain.Codec.Assembled
import PyGridGain.Codec.Inference
import PyGridGain.Stream.Finds
import PyGridGain.Client.AffinityKey
import PyGridGain.Codec.Structs
import PyGridGain.Codec.StructWrites
import PyGridGain.Connection.HandshakeRequest
import PyGridGain.Connection.ReceiveLoop
import PyGridGain.Queries.Response
import PyGridGain.Queries.Envelope
import PyGridGain.Queries.SqlPages
import PyGridGain.Queries.Partitions
import PyGridGain.Datatypes.Payloads
import PyGridGain.Codec.Placed
import PyGridGain.Queries.Query
import PyGridGain.Queries.KeyValue
import PyGridGain.Stream.Views
import PyGridGain.Client.Registration
import PyGridGain.Datatypes.CacheConfig
import PyGridGain.Codec.Settled
import PyGridGain.Client.CacheConfig
import PyGridGain.Queries.BinaryTypeResponse
import PyGridGain.Codec.Maps
import PyGridGain.Queries.ScanPages
import PyGridGain.Queries.MapRows
import PyGridGain.Client.UnwrapBinary
import PyGridGain.Client.UnwrapRoots
import PyGridGain.Connection.HandshakeResponse
import PyGridGain.Queries.KeyValueSession
import PyGridGain.Client.Routing
import PyGridGain.Client.ConnectionEvents
