import SnmpAgent.Codec.Pdu

/-!
# The SNMPv3 message envelope (`codec/ber/snmp.rs`)

Decoding and encoding of the message around a PDU: header, USM security parameters and
`ScopedPduData`. The decoder also returns where the authentication parameters stand in the message;
the encoder finds that place by parsing its own output again.
-/

namespace SnmpAgent
open Rust Tlv BerReader

def snmpv3Version : Int32 := 3
def snmpv2cVersion : Int32 := 1

def msgUserNameMaxLength : Nat := 32

/-- The `msgMaxSize` this agent advertises. -/
def msgMaxSizeUdp : Int32 := 0xFFFF

structure UsmFields where
  engineId : Bytes
  engineBoots : Int32
  engineTime : Int32
  userName : Bytes
  authParams : Bytes
  privParams : Bytes
  deriving DecidableEq

inductive ScopedData where
  | plaintext (contextEngineId contextName rawPdu : Bytes)
  | encrypted (ciphertext : Bytes)
  deriving DecidableEq

structure V3MessageEnvelope where
  msgId : Int32
  maxSize : Int32
  securityFlags : UInt8
  securityModel : Int32
  usm : UsmFields
  scopedData : ScopedData
  /-- Where the value of `msgAuthenticationParameters` starts; `none` when it is empty. -/
  authParamsOffset : Option Nat
  deriving DecidableEq

structure DecodedScopedPduFields where
  contextEngineId : Bytes
  contextName : Bytes
  rawPdu : Bytes
  deriving DecidableEq

structure HeaderData where
  msgId : Int32
  maxSize : Int32
  securityFlags : UInt8
  securityModel : Int32
  deriving DecidableEq

structure DecodedUsm where
  fields : UsmFields
  authParamsOffset : Option Nat
  deriving DecidableEq

namespace Ber

/-! ## Decoding -/

/-- `msgFlags` must be a single byte. -/
def singleFlagsByte : Bytes → Res BerError UInt8
  | [securityFlags] => .ok securityFlags
  | flagsBytes =>
    let n := flagsBytes.length
    .err (.new s!"BER: msgFlags must be exactly 1 byte, got {n}")

/-- The fields of the `HeaderData` SEQUENCE. -/
def readHeaderFields : Act BerReader BerError HeaderData := do
  let msgId ← readInteger
  if msgId < 0 then .fail (.new "BER: msgID must be non-negative per RFC 3412 §6.4")
  else
    let maxSize ← readInteger
    if maxSize < 484 then .fail (.new "BER: msgMaxSize must be at least 484 per RFC 3412 §6.6")
    else
      let flagsBytes ← readOctetString
      let securityFlags ← .lift (singleFlagsByte flagsBytes)
      let securityModel ← readInteger
      return { msgId, maxSize, securityFlags, securityModel }

def decodeHeaderData : Act BerReader BerError HeaderData := do
  let headerReader ← readSequence
  let (header, _) ← Act.on headerReader readHeaderFields
  return header

/-- Where the authentication parameters start, for a reader that stands just behind them. -/
def authParamsStart (offset : Nat) (authParams : Bytes) : Res BerError (Option Nat) :=
  if authParams.isEmpty then .ok none else some <$> usizeSub offset authParams.length

/-- The fields of the USM SEQUENCE, with the absolute offset of the authentication parameters. -/
def readUsmFields : Act BerReader BerError DecodedUsm := do
  let engineId ← readOctetString
  let engineBoots ← readInteger
  let engineTime ← readInteger
  let userName ← readOctetString
  if msgUserNameMaxLength < userName.length then
    let n := userName.length
    .fail (.new
      s!"BER: msgUserName length {n} exceeds RFC 3414 §2.4 maximum of {msgUserNameMaxLength} octets")
  else
    let authParams ← readOctetString
    let authParamsOffset ← .lift (authParamsStart (← get).offset authParams)
    let privParams ← readOctetString
    return ⟨{ engineId, engineBoots, engineTime, userName, authParams, privParams },
      authParamsOffset⟩

/-- The reader over the USM SEQUENCE inside the `msgSecurityParameters` OCTET STRING. -/
def readUsmSequence : Act BerReader BerError BerReader := do
  let usmParamsBytes ← readOctetString
  let usmValueOffset ← .lift (usizeSub (← get).offset usmParamsBytes.length)
  let (usmReader, _) ← Act.on (newWithOffset usmParamsBytes usmValueOffset) readSequence
  return usmReader

def decodeUsmSecurityParameters : Act BerReader BerError DecodedUsm := do
  let usmReader ← readUsmSequence
  let (decodedUsm, _) ← Act.on usmReader readUsmFields
  return decodedUsm

/-- The two names of a `ScopedPdu`; everything behind them is the raw PDU. -/
def readScopedFields : Act BerReader BerError DecodedScopedPduFields := do
  let contextEngineId ← readOctetString
  let contextName ← readOctetString
  let rawPdu ← .lift (← get).remaining
  return { contextEngineId, contextName, rawPdu }

/-- The two branches of `decode_scoped_pdu_data` on the tag ahead. -/
def readScopedData (scopedDataTag : UInt8) : Act BerReader BerError ScopedData :=
  if scopedDataTag = tagSequence then do
    let scopedReader ← readSequence
    let (fields, _) ← Act.on scopedReader readScopedFields
    return .plaintext fields.contextEngineId fields.contextName fields.rawPdu
  else if scopedDataTag = tagOctetString then do
    let ciphertext ← readOctetString
    return .encrypted ciphertext
  else
    let tagHex := hex2 scopedDataTag
    .fail (.new
      s!"BER: expected ScopedPduData as SEQUENCE (0x30) or OCTET STRING (0x04), got tag 0x{tagHex}")

def decodeScopedPduData : Act BerReader BerError ScopedData := do
  let scopedDataTag ← (← get).peekTag
  readScopedData scopedDataTag

/-- The elements of the message SEQUENCE. -/
def readMessageFields : Act BerReader BerError V3MessageEnvelope := do
  let version ← readInteger
  if version ≠ snmpv3Version then
    .fail (.wrongVersion s!"BER: expected SNMPv3 (version 3), got version {version}")
  else
    let header ← decodeHeaderData
    let decodedUsm ← decodeUsmSecurityParameters
    let scopedData ← decodeScopedPduData
    return {
      msgId := header.msgId
      maxSize := header.maxSize
      securityFlags := header.securityFlags
      securityModel := header.securityModel
      usm := decodedUsm.fields
      scopedData
      authParamsOffset := decodedUsm.authParamsOffset }

def decodeV3Envelope (bytes : Bytes) : Res BerError V3MessageEnvelope := do
  let (msgReader, _) ← Act.on (new bytes) readSequence
  let (envelope, _) ← Act.on msgReader readMessageFields
  .ok envelope

def decodeScopedPdu (bytes : Bytes) : Res BerError DecodedScopedPduFields := do
  let (scopedReader, _) ← Act.on (new bytes) readSequence
  let (fields, _) ← Act.on scopedReader readScopedFields
  .ok fields

/-! ## Encoding -/

section
variable {ε : Type}

def wrapInOuterSequence (innerBytes : Bytes) : Res ε Bytes := BerWriter.new.writeSequence innerBytes

def encodeScopedPdu (contextEngineId contextName rawPduBytes : Bytes) : Res ε Bytes := do
  let inner ← BerWriter.new.writeOctetString contextEngineId
  let inner ← inner.writeOctetString contextName
  let inner ← inner.writeRaw rawPduBytes
  wrapInOuterSequence inner

def encodeUsmParams (usm : UsmFields) : Res ε Bytes := do
  let inner ← BerWriter.new.writeOctetString usm.engineId
  let inner ← inner.writeInteger usm.engineBoots
  let inner ← inner.writeInteger usm.engineTime
  let inner ← inner.writeOctetString usm.userName
  let inner ← inner.writeOctetString usm.authParams
  let inner ← inner.writeOctetString usm.privParams
  wrapInOuterSequence inner

def encodeHeaderData (header : HeaderData) : Res ε Bytes := do
  let inner ← BerWriter.new.writeInteger header.msgId
  let inner ← inner.writeInteger header.maxSize
  let inner ← inner.writeOctetString [header.securityFlags]
  let inner ← inner.writeInteger header.securityModel
  wrapInOuterSequence inner

def encodeV2cMessage (community rawPduTlv : Bytes) : Res ε Bytes := do
  let inner ← BerWriter.new.writeInteger snmpv2cVersion
  let inner ← inner.writeOctetString community
  let inner ← inner.writeRaw rawPduTlv
  wrapInOuterSequence inner

end

/-- The fields skipped and read by `find_auth_params_offset` in the USM SEQUENCE. -/
def readAuthParamsOffset : Act BerReader BerError Nat := do
  let _ ← readOctetString
  let _ ← readInteger
  let _ ← readInteger
  let _ ← readOctetString
  let authParamsValue ← readOctetString
  .lift (usizeSub (← get).offset authParamsValue.length)

def findAuthParamsOffset (encodedMessage : Bytes) (authParamsLen : Nat) :
    Res BerError (Option Nat) :=
  if authParamsLen = 0 then .ok none
  else do
    let (msgReader, _) ← Act.on (new encodedMessage) readSequence
    let (_, msgReader) ← Act.on msgReader readInteger
    let (_, msgReader) ← Act.on msgReader readSequence
    let (usmReader, _) ← Act.on msgReader readUsmSequence
    let (offset, _) ← Act.on usmReader readAuthParamsOffset
    .ok (some offset)

/-- The message as it is first written, before the offset is looked up in it. -/
def writeV3Message {ε : Type} (header : HeaderData) (usm : UsmFields)
    (scopedPduOrCiphertext : Bytes) (encrypted : Bool) : Res ε Bytes := do
  let headerBytes ← encodeHeaderData header
  let usmBytes ← encodeUsmParams usm
  let msgInner ← BerWriter.new.writeInteger snmpv3Version
  let msgInner ← msgInner.writeRaw headerBytes
  let msgInner ← msgInner.writeOctetString usmBytes
  let msgInner ←
    if encrypted then msgInner.writeOctetString scopedPduOrCiphertext
    else msgInner.writeRaw scopedPduOrCiphertext
  wrapInOuterSequence msgInner

def encodeV3Message (header : HeaderData) (usm : UsmFields) (scopedPduOrCiphertext : Bytes)
    (encrypted : Bool) : Res BerError (Bytes × Option Nat) := do
  let encodedMessage ← writeV3Message header usm scopedPduOrCiphertext encrypted
  let authParamsOffset ← findAuthParamsOffset encodedMessage usm.authParams.length
  .ok (encodedMessage, authParamsOffset)

end Ber

end SnmpAgent
