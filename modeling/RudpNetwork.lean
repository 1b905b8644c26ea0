import RudpNetwork.Lib.Bits
import RudpNetwork.Lib.Channel
import RudpNetwork.Lib.Crc
import RudpNetwork.Lib.Enc
import RudpNetwork.Lib.Fifo
import RudpNetwork.Lib.InetText
import RudpNetwork.Lib.Loop
import RudpNetwork.Lib.MachineInt
import RudpNetwork.Lib.Net
import RudpNetwork.Lib.Proc
import RudpNetwork.Lib.Run
import RudpNetwork.Lib.Triple
import RudpNetwork.Lib.Utf8
import RudpNetwork.NetworkUtil
import RudpNetwork.Sequence
import RudpNetwork.Platform
import RudpNetwork.Crc32
import RudpNetwork.BitWriter
import RudpNetwork.WriterRuns
import RudpNetwork.BitReader
import RudpNetwork.ReaderRuns
import RudpNetwork.Stream
import RudpNetwork.Serialization
import RudpNetwork.Delivery
import RudpNetwork.Fields
import RudpNetwork.Truncation
import RudpNetwork.Overrun
import RudpNetwork.Measure
import RudpNetwork.CSharp
import RudpNetwork.Cursor
import RudpNetwork.Bookkeeping
import RudpNetwork.WireFormat
import RudpNetwork.Object
import RudpNetwork.Packet
import RudpNetwork.Network
import RudpNetwork.Corruption
import RudpNetwork.PacketProcessor
import RudpNetwork.Outcome
import RudpNetwork.PacketTypes
import RudpNetwork.Capacity
import RudpNetwork.Positions
import RudpNetwork.Address
import RudpNetwork.AddressText
import RudpNetwork.AddressRoundTrip
import RudpNetwork.AddressForms
import RudpNetwork.Session
import RudpNetwork.SessionFrame
import RudpNetwork.Socket
import RudpNetwork.Server
import RudpNetwork.GameProtocol
import RudpNetwork.IntegerRange
import RudpNetwork.StringRead
import RudpNetwork.RangeCheck
import RudpNetwork.Text
import RudpNetwork.TextInterop
import RudpNetwork.Decoders
import RudpNetwork.LengthCheck
import RudpNetwork.Handshake
import RudpNetwork.SocketInterface
import RudpNetwork.Ledger
import RudpNetwork.SetupFailure
import RudpNetwork.Ownership
import RudpNetwork.Contexts
import RudpNetwork.Canonical
import RudpNetwork.PacketLanguage
import RudpNetwork.Datagram
import RudpNetwork.Progress
import RudpNetwork.FaithfulLedger
import RudpNetwork.Exchange
import RudpNetwork.InOrder
import RudpNetwork.Reception
import RudpNetwork.Directory
import RudpNetwork.Serving
import RudpNetwork.Clients
import RudpNetwork.ReaderAgreement
import RudpNetwork.WriterAgreement
import RudpNetwork.Teardown
import RudpNetwork.Acceptance
import RudpNetwork.TestObject
import RudpNetwork.TestStream
import RudpNetwork.ClientTest
