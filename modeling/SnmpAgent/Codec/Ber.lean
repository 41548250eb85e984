import SnmpAgent.Codec.Value
import SnmpAgent.Lib.Slice

/-!
# BER primitives (`codec/ber.rs`)

Tags, the error type, and the codecs of the contents of a length field, an INTEGER and an OBJECT
IDENTIFIER. `BerWriter` is the byte accumulator; its growth panics past the capacity of a vector.
-/

namespace SnmpAgent
open Rust

/-! ## Tags -/

def tagInteger : UInt8 := 0x02
def tagOctetString : UInt8 := 0x04
def tagNull : UInt8 := 0x05
def tagOid : UInt8 := 0x06
def tagSequence : UInt8 := 0x30

def tagGetRequest : UInt8 := 0xA0
def tagGetNextRequest : UInt8 := 0xA1
def tagResponse : UInt8 := 0xA2
def tagSetRequest : UInt8 := 0xA3
def tagGetBulkRequest : UInt8 := 0xA5
def tagInformRequest : UInt8 := 0xA6
def tagTrap : UInt8 := 0xA7
def tagReport : UInt8 := 0xA8

def tagNoSuchObject : UInt8 := 0x80
def tagNoSuchInstance : UInt8 := 0x81
def tagEndOfMibView : UInt8 := 0x82

def tagIpAddress : UInt8 := 0x40
def tagCounter32 : UInt8 := 0x41
def tagGauge32 : UInt8 := 0x42
def tagTimeticks : UInt8 := 0x43
def tagOpaque : UInt8 := 0x44
def tagCounter64 : UInt8 := 0x46

/-! ## Errors -/

structure BerError where
  message : String
  isWrongVersion : Bool
  deriving DecidableEq, Repr

namespace BerError

def new (message : String) : BerError := ⟨message, false⟩

def wrongVersion (message : String) : BerError := ⟨message, true⟩

end BerError

/-- A byte in the format `{:02X}`. -/
def hex2 (b : UInt8) : String :=
  String.ofList [Nat.digitChar (b.toNat / 16), Nat.digitChar (b.toNat % 16)] |>.toUpper

/-! ## Length fields -/

/-- `usize::leading_zeros`. -/
def usizeLeadingZeros (n : Nat) : Nat := if n = 0 then 64 else 63 - n.log2

def encodeLength {ε : Type} (dest : Bytes) (length : Nat) : Res ε Bytes :=
  if length ≤ 127 then extend dest [UInt8.ofNat length]
  else do
    let lengthBytes := toBE 8 length
    let leadingZeroBytes := usizeLeadingZeros length / 8
    let significantBytes ← .expect (sliceFrom? lengthBytes leadingZeroBytes)
    let dest ← extend dest [0x80 + UInt8.ofNat significantBytes.length]
    extend dest significantBytes

/-! ## INTEGER contents -/

/-- `i32::to_be_bytes`. -/
def i32ToBe (value : Int32) : Bytes := toBE 4 value.toUInt32.toNat

/-- `i32::from_be_bytes`, on four bytes. -/
def i32FromBe (word : Bytes) : Int32 := (UInt32.ofNat (fromBE word)).toInt32

def encodeSignedI32 {ε : Type} (value : Int32) : Res ε Bytes :=
  let rawBytes := i32ToBe value
  let stripByte : UInt8 := if 0 ≤ value then 0x00 else 0xFF
  let skipCount := ((rawBytes.take (rawBytes.length - 1)).takeWhile (· == stripByte)).length
  -- The remaining first byte may have the wrong sign bit; then one stripped byte comes back.
  let needsSignPreservation := rawBytes[skipCount]?.any fun byte =>
    (0 < value && byte &&& 0x80 != 0) || (value < 0 && byte &&& 0x80 == 0)
  let start := if needsSignPreservation then skipCount - 1 else skipCount
  .expect (sliceFrom? rawBytes start)

def encodeUnsignedBytes {ε : Type} (rawBytes : Bytes) : Res ε Bytes := do
  let skipCount := ((rawBytes.take (rawBytes.length - 1)).takeWhile (· == 0)).length
  let significant ← .expect (sliceFrom? rawBytes skipCount)
  match significant.head? with
  | some firstByte => if firstByte &&& 0x80 != 0 then .ok (0x00 :: significant) else .ok significant
  | none => .ok significant

def encodeUnsignedU32 {ε : Type} (value : UInt32) : Res ε Bytes :=
  encodeUnsignedBytes (toBE 4 value.toNat)

def encodeUnsignedU64 {ε : Type} (value : UInt64) : Res ε Bytes :=
  encodeUnsignedBytes (toBE 8 value.toNat)

def decodeSignedI32 (integerBytes : Bytes) (errorOffset : Nat) : Res BerError Int32 :=
  if integerBytes.isEmpty then
    .err (.new s!"BER: INTEGER value has zero length at offset {errorOffset}")
  else do
    let isNegative := integerBytes.head?.any fun byte => byte &&& 0x80 != 0
    let significant ←
      if 1 < integerBytes.length then
        let redundantByte : UInt8 := if isNegative then 0xFF else 0x00
        let signBitOfNext : UInt8 := if isNegative then 0x80 else 0x00
        let firstSignificant :=
          ((integerBytes.zip (integerBytes.drop 1)).findIdx? fun (leading, next) =>
            leading != redundantByte || next &&& 0x80 != signBitOfNext).getD
            (integerBytes.length - 1)
        .expect (sliceFrom? integerBytes firstSignificant)
      else .ok integerBytes
    if 4 < significant.length then
      let n := significant.length
      .err (.new s!"BER: INTEGER value too large for i32 ({n} bytes) at offset {errorOffset}")
    else
      let signByte : UInt8 :=
        if significant.head?.any fun byte => byte &&& 0x80 != 0 then 0xFF else 0
      let word := List.replicate (4 - significant.length) signByte ++ significant
      .ok (i32FromBe word)

/-- The unsigned decoder for up to `width` significant bytes; the result is a `u64`. -/
def decodeUnsigned (width : Nat) (integerBytes : Bytes) (errorOffset : Nat) : Res BerError Nat :=
  match integerBytes.head? with
  | none => .err (.new s!"BER: INTEGER value has zero length at offset {errorOffset}")
  | some firstByte =>
    if firstByte &&& 0x80 != 0 then
      .err (.new
        s!"BER: negative INTEGER cannot be decoded as unsigned at offset {errorOffset}")
    else do
      let significant ←
        if 1 < integerBytes.length then
          let firstNonzero := (integerBytes.findIdx? (· != 0)).getD (integerBytes.length - 1)
          .expect (sliceFrom? integerBytes firstNonzero)
        else .ok integerBytes
      if width < significant.length then
        let bits := width * 8
        let n := significant.length
        .err (.new
          s!"BER: INTEGER value too large for u{bits} ({n} bytes) at offset {errorOffset}")
      else
        let word := List.replicate (8 - significant.length) 0 ++ significant
        .ok (fromBE word)

def decodeUnsignedU32 (integerBytes : Bytes) (errorOffset : Nat) : Res BerError UInt32 := do
  let value ← decodeUnsigned 4 integerBytes errorOffset
  if value < 2 ^ 32 then .ok (UInt32.ofNat value)
  else .err (.new
    s!"BER: decoded unsigned value {value} exceeds u32 range at offset {errorOffset}")

def decodeUnsignedU64 (integerBytes : Bytes) (errorOffset : Nat) : Res BerError UInt64 := do
  let value ← decodeUnsigned 8 integerBytes errorOffset
  .ok (UInt64.ofNat value)

/-! ## OBJECT IDENTIFIER contents -/

/-- The loop that collects groups of seven bits, least significant first. A `u64` has at most ten
groups, which bounds the iterations. -/
def base128Groups : Nat → Nat → Bytes
  | 0, _ => []
  | fuel + 1, remaining =>
    if 0 < remaining then UInt8.ofNat (remaining % 128) :: base128Groups fuel (remaining / 128)
    else []

/-- The groups in big-endian order, the high bit set on all but the last. -/
def emitGroups : Bytes → Bytes
  | [] => []
  | group :: groups => (groups.reverse.map (· + 0x80)) ++ [group]

def encodeBase128 (value : Nat) : Bytes :=
  if value = 0 then [0x00] else emitGroups (base128Groups 10 value)

def encodeOid (oid : Oid) : Bytes :=
  let (firstArc, secondArc, remainingArcs) := oid.decompose
  let firstCombined := firstArc.toNat * 40 + secondArc.toNat
  encodeBase128 firstCombined ++ remainingArcs.flatMap fun arc => encodeBase128 arc.toNat

/-- The loop of `decode_base128`. `checked_shl` only checks the shift amount, so bits shifted out
of the `u64` accumulator are lost; the addition into the cleared low bits cannot overflow. -/
def decodeBase128Loop (errorOffset : Nat) :
    Bytes → (accumulator bytesConsumed : Nat) → Res BerError (Nat × Nat)
  | [], _, _ => .err (.new s!"BER: truncated OID sub-identifier at offset {errorOffset}")
  | byte :: bytes, accumulator, bytesConsumed => do
    let shifted := accumulator * 128 % 2 ^ 64
    let accumulator ← .okOr
      (.new s!"BER: OID sub-identifier overflows u64 at offset {errorOffset}")
      (checkedAdd shifted (byte &&& 0x7F).toNat)
    if byte &&& 0x80 == 0 then .ok (accumulator, bytesConsumed + 1)
    else decodeBase128Loop errorOffset bytes accumulator (bytesConsumed + 1)

def decodeBase128 (bytes : Bytes) (errorOffset : Nat) : Res BerError (Nat × Nat) :=
  decodeBase128Loop errorOffset bytes 0 0

/-- The loop over the sub-identifiers. Every iteration consumes a byte, so `fuel` is the number of
bytes left. -/
def decodeSubIdentifiers (errorOffset : Nat) : Nat → Bytes → Res BerError (List Nat)
  | _, [] => .ok []
  | 0, _ :: _ => .panic
  | fuel + 1, remaining => do
    let (subId, bytesConsumed) ← decodeBase128 remaining errorOffset
    if bytesConsumed = 0 then
      -- `debug_assert_ne!` fires here in a debug build.
      .err (.new s!"BER: internal error: zero bytes consumed decoding OID sub-identifier at offset {errorOffset}")
    else
      let remaining ← .expect (sliceFrom? remaining bytesConsumed)
      let subIds ← decodeSubIdentifiers errorOffset fuel remaining
      .ok (subId :: subIds)

/-- `u32::try_from` on a decoded arc. -/
def arcToU32 (name : String) (errorOffset : Nat) (arc : Nat) : Res BerError UInt32 :=
  if arc < 2 ^ 32 then .ok (UInt32.ofNat arc)
  else .err (.new s!"BER: OID {name} overflows u32 at offset {errorOffset}")

/-- `u32::try_from` on each further sub-identifier, stopping at the first failure. -/
def arcsToU32 (errorOffset : Nat) : List Nat → Res BerError (List UInt32)
  | [] => .ok []
  | arc :: arcs => do
    let arc ← arcToU32 "arc" errorOffset arc
    let arcs ← arcsToU32 errorOffset arcs
    .ok (arc :: arcs)

/-- The first combined sub-identifier, split into two arcs. -/
def splitFirst (firstCombined : Nat) : Nat × Nat :=
  if firstCombined < 40 then (0, firstCombined)
  else if firstCombined < 80 then (1, firstCombined - 40)
  else (2, firstCombined - 80)

def decodeOid (oidBytes : Bytes) (errorOffset : Nat) : Res BerError Oid :=
  if oidBytes.isEmpty then
    .err (.new s!"BER: OID value has zero length at offset {errorOffset}")
  else do
    match ← decodeSubIdentifiers errorOffset oidBytes.length oidBytes with
    | [] => .err (.new s!"BER: OID has no sub-identifiers at offset {errorOffset}")
    | firstCombined :: subIdentifiers =>
      let (firstArc, secondArc) := splitFirst firstCombined
      let firstArc ← arcToU32 "first arc" errorOffset firstArc
      let secondArc ← arcToU32 "second arc" errorOffset secondArc
      let arcs ← arcsToU32 errorOffset subIdentifiers
      match Oid.tryFrom (firstArc :: secondArc :: arcs) with
      | .ok oid => .ok oid
      | .error kind =>
        let oidError := kind.message
        .err (.new
          s!"BER: decoded OID is structurally invalid at offset {errorOffset}: {oidError}")

/-! ## The writer -/

/-- The accumulated bytes. -/
abbrev BerWriter := Bytes

namespace BerWriter
variable {ε : Type}

def new : BerWriter := []

def writeRaw (w : BerWriter) (bytes : Bytes) : Res ε BerWriter := extend w bytes

def writeTlv (w : BerWriter) (tag : UInt8) (value : Bytes) : Res ε BerWriter := do
  let w ← extend w [tag]
  let w ← encodeLength w value.length
  extend w value

def writeSequence (w : BerWriter) (contents : Bytes) : Res ε BerWriter :=
  w.writeTlv tagSequence contents

def writeConstructed (w : BerWriter) (tag : UInt8) (contents : Bytes) : Res ε BerWriter :=
  w.writeTlv tag contents

def writeInteger (w : BerWriter) (value : Int32) : Res ε BerWriter := do
  let encodedValue ← encodeSignedI32 value
  w.writeTlv tagInteger encodedValue

def writeTaggedUnsigned32 (w : BerWriter) (tag : UInt8) (value : UInt32) : Res ε BerWriter := do
  let encodedValue ← encodeUnsignedU32 value
  w.writeTlv tag encodedValue

def writeTaggedUnsigned64 (w : BerWriter) (tag : UInt8) (value : UInt64) : Res ε BerWriter := do
  let encodedValue ← encodeUnsignedU64 value
  w.writeTlv tag encodedValue

def writeOctetString (w : BerWriter) (bytes : Bytes) : Res ε BerWriter :=
  w.writeTlv tagOctetString bytes

def writeOid (w : BerWriter) (oid : Oid) : Res ε BerWriter :=
  w.writeTlv tagOid (encodeOid oid)

end BerWriter

end SnmpAgent
