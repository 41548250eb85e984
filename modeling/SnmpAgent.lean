import SnmpAgent.Lib.Res
import SnmpAgent.Lib.BigEndian
import SnmpAgent.Lib.Slice
import SnmpAgent.Lib.Tlv
import SnmpAgent.Lib.OrderedMap
import SnmpAgent.Lib.Safe
import SnmpAgent.Lib.Course
import SnmpAgent.Lib.Runs
import SnmpAgent.Lib.Checked
import SnmpAgent.Lib.Framer
import SnmpAgent.Lib.Disk
import SnmpAgent.Lib.Tickets
import SnmpAgent.Lib.Cyclic
import SnmpAgent.Lib.Decimal
import SnmpAgent.Lib.Mailbox
import SnmpAgent.Codec.Oid
import SnmpAgent.Codec.Value
import SnmpAgent.Codec.Ber
import SnmpAgent.Codec.BerLemmas
import SnmpAgent.Codec.OidCodec
import SnmpAgent.Codec.Reader
import SnmpAgent.Codec.Varbind
import SnmpAgent.Codec.Pdu
import SnmpAgent.Codec.Snmp
import SnmpAgent.Codec.Grammar
import SnmpAgent.Codec.Envelope
import SnmpAgent.Codec.Message
import SnmpAgent.Codec.MessageLemmas
import SnmpAgent.Codec.Safety
import SnmpAgent.Codec.Positions
import SnmpAgent.Codec.Debug
import SnmpAgent.Codec.DebugMessage
import SnmpAgent.Codec.RoundTrip
import SnmpAgent.Codec.Exactness
import SnmpAgent.Codec.OidText
import SnmpAgent.Codec.Trailing
import SnmpAgent.Usm.Crypto
import SnmpAgent.Usm.User
import SnmpAgent.Usm.Kdf
import SnmpAgent.Usm.Boots
import SnmpAgent.Transport.Request
import SnmpAgent.Transport.Dispatch
import SnmpAgent.Transport.Validation
import SnmpAgent.Transport.Digest
import SnmpAgent.Transport.Gate
import SnmpAgent.Transport.Answers
import SnmpAgent.Transport.Accounting
import SnmpAgent.Transport.Policy
import SnmpAgent.Transport.Exchange
import SnmpAgent.Transport.Bulk
import SnmpAgent.Transport.Estimate
import SnmpAgent.Transport.Debug
import SnmpAgent.Transport.DebugDispatch
import SnmpAgent.Transport.Walk
import SnmpAgent.Transport.Framing
import SnmpAgent.Transport.Lengths
import SnmpAgent.Transport.EventLoop
import SnmpAgent.Transport.Steps
import SnmpAgent.Transport.Idle
import SnmpAgent.Transport.Buffering
import SnmpAgent.Transport.Startup
import SnmpAgent.Transport.Encryption
import SnmpAgent.Transport.Commands
import SnmpAgent.Transport.Streams
import SnmpAgent.Lib.Scan
import SnmpAgent.Transport.Service
import SnmpAgent.Transport.Managers
import SnmpAgent.Transport.LiveWalk
import SnmpAgent.Transport.Traps
import SnmpAgent.Transport.Reflection
import SnmpAgent.Transport.Strangers
