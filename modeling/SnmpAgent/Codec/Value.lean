import SnmpAgent.Codec.Oid
import SnmpAgent.Lib.BigEndian

/-!
# SMIv2 values and variable bindings (`codec/value.rs`, `codec/pdu/types.rs`)
-/

namespace SnmpAgent
open Rust

inductive Value where
  | integer32 (n : Int32)
  | objectIdentifier (oid : Oid)
  | ipAddress (octets : Octets 4)
  | octetString (bytes : Bytes)
  | counter32 (n : UInt32)
  | counter64 (n : UInt64)
  | gauge32 (n : UInt32)
  | timeTicks (n : UInt32)
  | opaque_ (bytes : Bytes)
  deriving DecidableEq

/-- A concrete value, the placeholder of a request, or an exception of a response. -/
inductive VarbindValue where
  | value (v : Value)
  | unspecified
  | noSuchObject
  | noSuchInstance
  | endOfMibView
  deriving DecidableEq

structure Varbind where
  oid : Oid
  value : VarbindValue
  deriving DecidableEq

end SnmpAgent
