import Mtproto.Lib.Bytes
import Mtproto.Lib.Utf16
import Mtproto.Lib.Keystream
import Mtproto.Tgnet.NativeByteBuffer
import Mtproto.Tgnet.Receive
import Mtproto.Tgnet.Wire
import Mtproto.Tgnet.Reassembly
import Mtproto.Tgnet.Segmentation
import Mtproto.Tgnet.Cuts
import Mtproto.Generator.Spec
import Mtproto.Generator.Poet
import Mtproto.Generator.Semantics
import Mtproto.Generator.Exec
import Mtproto.Lib.Scopes
import Mtproto.Generator.Names
import Mtproto.Generator.Reading
import Mtproto.Generator.Flags
import Mtproto.Generator.WireFormat
import Mtproto.Generator.Parsing
import Mtproto.Generator.Writing
import Mtproto.Java.NativeByteBuffer
import Mtproto.Java.Spelling
import Mtproto.Generator.RoundTrip
import Mtproto.Generator.Nesting
import Mtproto.Generator.FlagsCorrect
import Mtproto.Generator.Optional
import Mtproto.Generator.Decoding
import Mtproto.Lib.OrderedMap
import Mtproto.Lib.Program
import Mtproto.Manager.Acts
import Mtproto.Lib.Crash
import Mtproto.Tgnet.Config
import Mtproto.Tgnet.Durability
import Mtproto.Persistence.State
import Mtproto.Persistence.RoundTrip
import Mtproto.Streams.Native
import Mtproto.Streams.Calls
import Mtproto.Streams.Java
import Mtproto.Streams.SerializedData
import Mtproto.Streams.Agreement
import Mtproto.Lib.Relational
import Mtproto.Scheme.Stream
import Mtproto.Scheme.Objects
import Mtproto.Scheme.Deserialize
import Mtproto.Scheme.Progress
import Mtproto.Scheme.Containment
import Mtproto.Scheme.Layout
import Mtproto.Lib.Text
import Mtproto.Lib.Family
import Mtproto.Lib.Repeats
import Mtproto.Parsers.TextUtils
import Mtproto.Parsers.Types
import Mtproto.Parsers.Declarations
import Mtproto.Parsers.Composition
import Mtproto.Parsers.Fields
import Mtproto.Parsers.Canonical
import Mtproto.Parsers.Printer
import Mtproto.Parsers.Sensitivity
import Mtproto.Parsers.Scheme
import Mtproto.Parsers.LineOrder
import Mtproto.Parsers.SourceFiles
import Mtproto.Tgnet.Send
import Mtproto.Tgnet.Framing
import Mtproto.Generator.FromScheme
import Mtproto.Generator.Closed
import Mtproto.Generator.Hygiene
import Mtproto.Handshake.Keys
import Mtproto.Handshake.Factorize
import Mtproto.Handshake.Prime
import Mtproto.Handshake.Rounds
import Mtproto.Scheme.Confined
import Mtproto.Handshake.Replies
import Mtproto.Parsers.Variants
import Mtproto.Parsers.VariableUses
import Mtproto.Manager.Guids
import Mtproto.Manager.Sessions
import Mtproto.Manager.Clock
import Mtproto.Manager.Results
import Mtproto.Manager.Turns
import Mtproto.Manager.Changes
import Mtproto.Manager.Anchored
import Mtproto.Manager.Completion
import Mtproto.Manager.Numbering
import Mtproto.Manager.Passive
import Mtproto.Manager.ProxyChecks
import Mtproto.Manager.Limits
import Mtproto.Manager.Migration
import Mtproto.Lib.Cycle
import Mtproto.Datacenter.Salts
import Mtproto.Datacenter.Addresses
import Mtproto.Session.ConnectionSession
import Mtproto.Session.Renewal
import Mtproto.Session.Acknowledgement
import Mtproto.Tgnet.Sweep
import Mtproto.Tgnet.Drain
import Mtproto.Lib.Overwrite
import Mtproto.Datacenter.MessageKey
import Mtproto.Datacenter.Encryption
import Mtproto.Datacenter.RequestsData
import Mtproto.Datacenter.Padding
import Mtproto.Installation.Machine
import Mtproto.Installation.Exchange
import Mtproto.Installation.Verified
import Mtproto.Scheme.Restored
import Mtproto.Scheme.Counts
import Mtproto.Scheme.Codecs
import Mtproto.Scheme.RoundTrip
import Mtproto.Lib.Utf8
import Mtproto.Tgnet.BuffersStorage
import Mtproto.Tgnet.ByteStream
import Mtproto.Tgnet.CheckUtf8
import Mtproto.Tgnet.Socks5
import Mtproto.Java.Reads
import Mtproto.Lib.While
import Mtproto.Handshake.Gcd
import Mtproto.Tgnet.Unwatched
import Mtproto.Tgnet.Bounds
import Mtproto.Lib.Garble
import Mtproto.Datacenter.Aes
import Mtproto.Files.FileLoadOperation
import Mtproto.Files.Remote
import Mtproto.Files.Assembled
import Mtproto.Files.Ordered
import Mtproto.Files.Opening
import Mtproto.Files.Exact
import Mtproto.Files.Progress
import Mtproto.Files.Resumed
import Mtproto.Lib.Agenda
import Mtproto.Events.Timer
import Mtproto.Events.Pass
import Mtproto.Events.Runs
import Mtproto.Lifecycle.Line
import Mtproto.Lifecycle.Wires
import Mtproto.Lifecycle.Reconnects
import Mtproto.Lifecycle.Address
import Mtproto.Lifecycle.Record
import Mtproto.Channel.Messages
import Mtproto.Channel.Delivery
import Mtproto.Lib.Past
import Mtproto.Channel.QuickAcks
import Mtproto.Lifecycle.Rotation
import Mtproto.Java.NotificationCenter
import Mtproto.Java.Broadcasts
