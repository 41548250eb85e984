import SnmpAgent.Codec.Snmp
import SnmpAgent.Usm.User

/-!
# The message codec of the agent (`codec/pdu/types.rs`, `decode.rs`, `encode.rs`)

Requests decoded into typed PDUs, and responses, traps and reports encoded into whole SNMPv3
messages. The encoder takes its privacy salts from a process-wide counter, so it is an action on a
`SaltCounter`.
-/

namespace SnmpAgent
open Rust

/-! ## Types -/

inductive ErrorStatus where
  | noError | tooBig | noSuchName | badValue | readOnly | genErr | noAccess | wrongType
  | wrongLength | wrongEncoding | wrongValue | noCreation | inconsistentValue
  | resourceUnavailable | commitFailed | undoFailed | authorizationError | notWritable
  | inconsistentName
  deriving DecidableEq

/-- The codes are the discriminants, in the order of declaration. -/
def ErrorStatus.toI32 (status : ErrorStatus) : Int32 := .ofNat status.ctorIdx

structure GetRequest where
  requestId : Int32
  varbinds : List Varbind
  deriving DecidableEq

structure GetNextRequest where
  requestId : Int32
  varbinds : List Varbind
  deriving DecidableEq

structure GetBulkRequest where
  requestId : Int32
  nonRepeaters : UInt32
  maxRepetitions : UInt32
  varbinds : List Varbind
  deriving DecidableEq

structure SetRequest where
  requestId : Int32
  varbinds : List Varbind
  deriving DecidableEq

inductive InboundPdu where
  | getRequest (req : GetRequest)
  | getNextRequest (req : GetNextRequest)
  | getBulkRequest (req : GetBulkRequest)
  | setRequest (req : SetRequest)
  deriving DecidableEq

inductive V3ScopedData where
  | plaintext (pdu : InboundPdu)
  | encrypted (ciphertext : Bytes)
  deriving DecidableEq

def V3ScopedData.isEncrypted : V3ScopedData → Bool
  | .plaintext _ => false
  | .encrypted _ => true

structure DecodedScopedPdu where
  contextEngineId : Bytes
  contextName : Bytes
  pdu : InboundPdu
  deriving DecidableEq

structure SecurityModel where
  value : Int32
  deriving DecidableEq

def SecurityModel.usm : SecurityModel := ⟨3⟩

def SecurityModel.isUsm (model : SecurityModel) : Bool := model.value == SecurityModel.usm.value

structure UsmSecurityFields where
  authEngineId : Bytes
  authEngineBoots : UInt32
  authEngineTime : UInt32
  securityFlags : MsgFlags
  authParams : Option AuthenticationParams
  privParams : Option PrivacySalt
  deriving DecidableEq

structure V3InboundMessage where
  msgId : Int32
  maxSize : Int32
  securityModel : SecurityModel
  engineId : Bytes
  contextName : Bytes
  userName : Bytes
  scopedData : V3ScopedData
  usm : UsmSecurityFields
  rawMessage : Bytes
  authParamsOffset : Option Nat
  deriving DecidableEq

structure GetResponse where
  requestId : Int32
  errorStatus : ErrorStatus
  errorIndex : UInt32
  varbinds : List Varbind
  deriving DecidableEq

structure WireTrapPdu where
  requestId : Int32
  varbinds : List Varbind
  deriving DecidableEq

inductive DecodeErrorKind where
  | ber
  | unsupportedPduType
  | invalidOid
  | wrongVersion
  deriving DecidableEq

structure DecodeError where
  kind : DecodeErrorKind
  message : String
  deriving DecidableEq

structure EncodeError where
  message : String
  deriving DecidableEq

/-! ## Conversions between signed and unsigned words -/

/-- `u32::try_from` on an `i32`. -/
def u32TryFrom (n : Int32) : Option UInt32 := if n < 0 then none else some n.toUInt32

/-- `i32::try_from` on a `u32`. -/
def i32TryFrom (n : UInt32) : Option Int32 := if n < 0x80000000 then some n.toInt32 else none

/-! ## Decoding -/

/-- The context of a lower-layer error, as `format!("{what} failed: {e}")`. -/
def DecodeError.ofBer (what : String) (e : BerError) : DecodeError :=
  let text := e.message
  ⟨.ber, s!"{what} failed: {text}"⟩

def decodeVarbindListToVarbinds (rawVarbindList : Bytes) : Res DecodeError (List Varbind) := do
  let decodedVarbinds ← (decodeVarbindList rawVarbindList).mapErr (.ofBer "VarBind decode")
  decodedVarbinds.mapM fun decoded => do
    let value ← (decodeVarbindValueToValue decoded.value).mapErr (.ofBer "VarBind value decode")
    .ok ⟨decoded.name, value⟩

def decodedPduToInbound : DecodedPdu → Res DecodeError InboundPdu
  | .standard tag requestId rawVarbindList =>
    if tag = tagGetRequest then do
      let varbinds ← decodeVarbindListToVarbinds rawVarbindList
      .ok (.getRequest { requestId, varbinds })
    else if tag = tagGetNextRequest then do
      let varbinds ← decodeVarbindListToVarbinds rawVarbindList
      .ok (.getNextRequest { requestId, varbinds })
    else if tag = tagSetRequest then do
      let varbinds ← decodeVarbindListToVarbinds rawVarbindList
      .ok (.setRequest { requestId, varbinds })
    else
      let tagHex := hex2 tag
      .err ⟨.unsupportedPduType, s!"unexpected outbound PDU type: tag 0x{tagHex}"⟩
  | .bulk requestId nonRepeaters maxRepetitions rawVarbindList => do
    -- Negative wire values count as zero.
    let nonRepeaters := (u32TryFrom nonRepeaters).getD 0
    let maxRepetitions := (u32TryFrom maxRepetitions).getD 0
    let varbinds ← decodeVarbindListToVarbinds rawVarbindList
    .ok (.getBulkRequest { requestId, nonRepeaters, maxRepetitions, varbinds })

def decodePdu (bytes : Bytes) : Res DecodeError InboundPdu := do
  let decoded ← (Ber.decodePdu bytes).mapErr (.ofBer "BER decode")
  decodedPduToInbound decoded

/-- Wrong versions are told from all other malformed messages. -/
def DecodeError.ofEnvelope (e : BerError) : DecodeError :=
  if e.isWrongVersion then ⟨.wrongVersion, e.message⟩ else .ofBer "BER decode" e

/-- The payload of a message, with the engine and context it is for. An encrypted payload hides
both, and the authoritative engine stands in for the first. -/
def decodeScopedData (usmEngineId : Bytes) :
    ScopedData → Res DecodeError (Bytes × Bytes × V3ScopedData)
  | .plaintext contextEngineId contextName rawPdu => do
    let decodedPdu ← (Ber.decodePdu rawPdu).mapErr (.ofBer "BER decode")
    let pdu ← decodedPduToInbound decodedPdu
    .ok (contextEngineId, contextName, .plaintext pdu)
  | .encrypted ciphertext => .ok (usmEngineId, [], .encrypted ciphertext)

/-- The security parameters. Negative boots and times become `u32::MAX`. -/
def UsmSecurityFields.ofWire (usm : UsmFields) (securityFlags : UInt8) : UsmSecurityFields where
  authEngineId := usm.engineId
  authEngineBoots := (u32TryFrom usm.engineBoots).getD 0xFFFFFFFF
  authEngineTime := (u32TryFrom usm.engineTime).getD 0xFFFFFFFF
  securityFlags := ⟨securityFlags⟩
  authParams := AuthenticationParams.tryFrom usm.authParams
  privParams := PrivacySalt.tryFrom usm.privParams

def decodeV3Message (bytes : Bytes) : Res DecodeError V3InboundMessage := do
  let envelope ← (Ber.decodeV3Envelope bytes).mapErr .ofEnvelope
  let (engineId, contextName, scopedData) ←
    decodeScopedData envelope.usm.engineId envelope.scopedData
  .ok {
    msgId := envelope.msgId
    maxSize := envelope.maxSize
    securityModel := ⟨envelope.securityModel⟩
    engineId
    contextName
    userName := envelope.usm.userName
    scopedData
    usm := .ofWire envelope.usm envelope.securityFlags
    rawMessage := bytes
    authParamsOffset := envelope.authParamsOffset }

def decodeScopedPdu (bytes : Bytes) : Res DecodeError DecodedScopedPdu := do
  let fields ← (Ber.decodeScopedPdu bytes).mapErr (.ofBer "ScopedPDU decode")
  let decoded ← (Ber.decodePdu fields.rawPdu).mapErr (.ofBer "PDU decode")
  let pdu ← decodedPduToInbound decoded
  .ok { contextEngineId := fields.contextEngineId, contextName := fields.contextName, pdu }

/-! ## Salts -/

/-- The process-wide salt counter, which is seeded from `random_u64` at its first use. -/
structure SaltCounter where
  randomU64 : UInt64
  counter : Option UInt64
  deriving DecidableEq

namespace SaltCounter

def current (s : SaltCounter) : UInt64 := s.counter.getD (s.randomU64 ||| 1)

/-- The salt that the next encrypted message carries. -/
def salt (s : SaltCounter) : PrivacySalt := ⟨toBE 8 s.current.toNat, length_toBE ..⟩

def next (s : SaltCounter) : SaltCounter := { s with counter := some (s.current + 1) }

end SaltCounter

def nextPrivacySalt {ε : Type} : Act SaltCounter ε PrivacySalt := do
  let s ← get
  modify SaltCounter.next
  return s.salt

/-! ## Encoding -/

/-- The context of a lower-layer error, as `format!("{what} failed: {e}")`. -/
def EncodeError.ofBer (what : String) (e : BerError) : EncodeError :=
  let text := e.message
  ⟨s!"{what} failed: {text}"⟩

def encodeVarbinds (varbinds : List Varbind) : Res EncodeError Bytes := do
  let encodedVarbinds ← varbinds.mapM fun vb => do
    let encodedValue ← (encodeVarbindValue vb.value).mapErr (.ofBer "varbind value encoding")
    encodeVarbind vb.oid encodedValue
  encodeVarbindList encodedVarbinds

/-- The arguments that `encode_v3_response`, `encode_v3_trap` and `encode_v3_report` pass on to
`encode_v3_envelope`. -/
structure V3Params where
  msgId : Int32
  engineId : Bytes
  userName : Bytes
  contextName : Bytes
  engineBoots : UInt32
  engineTime : UInt32
  auth : Option (AuthProtocol × Bytes)
  privacy : Option (PrivProtocol × Bytes)

def flagsByte : Bool → Bool → Res EncodeError UInt8
  | true, true => .ok 0x03
  | true, false => .ok 0x01
  | false, false => .ok 0x00
  | false, true => .err ⟨"privacy without authentication is not permitted (RFC 3412)"⟩

/-- The all-zero `msgAuthenticationParameters` over which the MAC is computed. -/
def authPlaceholder : Option (AuthProtocol × Bytes) → Bytes
  | some (protocol, _) => .replicate protocol.macLen 0
  | none => []

/-- A trap for receivers without a user: an SNMPv2c message with an empty community. -/
def encodeTrap (pdu : WireTrapPdu) : Res EncodeError Bytes := do
  let rawVarbindList ← encodeVarbinds pdu.varbinds
  let rawPduBytes ← (Ber.encodePdu tagTrap pdu.requestId 0 0 rawVarbindList).mapErr
    (.ofBer "BER encoding of WireTrapPdu")
  Ber.encodeV2cMessage [] rawPduBytes

section
variable (crypto : Crypto)

/-- The `ScopedPdu` or its ciphertext, the privacy parameters, and which of the two it is. -/
def protectScopedPdu (privacy : Option (PrivProtocol × Bytes)) (engineBoots engineTime : UInt32)
    (scopedPduBytes : Bytes) : Act SaltCounter EncodeError (Bytes × Bytes × Bool) :=
  match privacy with
  | some (privProtocol, privKey) => do
    let salt ← nextPrivacySalt
    let ciphertext ← .lift
      ((privProtocol.encrypt crypto (aesIv engineBoots engineTime salt) privKey
        scopedPduBytes).mapErr fun e => let text := e.message; ⟨s!"AES encryption failed: {text}"⟩)
    return (ciphertext, salt.val, true)
  | none => return (scopedPduBytes, [], false)

/-- Put the MAC of the message in the place of the placeholder. -/
def signMessage (auth : Option (AuthProtocol × Bytes)) (encodedMessage : Bytes)
    (authParamsOffset : Option Nat) : Res EncodeError Bytes :=
  match auth with
  | some (authProtocol, authKey) => do
    let macLen := (authPlaceholder auth).length
    let offset ← .okOr ⟨"auth params offset missing despite auth being requested"⟩ authParamsOffset
    let mac ← (authProtocol.computeMac crypto authKey encodedMessage).mapErr
      fun e => let text := e.message; ⟨s!"HMAC computation failed: {text}"⟩
    let last ← .okOr ⟨"auth params range overflow"⟩ (checkedAdd offset macLen)
    if encodedMessage.length < last then
      .err ⟨"auth params range exceeds encoded message length"⟩
    -- `copy_from_slice` panics when the two slices differ in length.
    else if mac.length ≠ macLen then .panic
    else .ok (overwrite encodedMessage offset mac)
  | none => .ok encodedMessage

def encodeV3Envelope (p : V3Params) (rawPduBytes : Bytes) : Act SaltCounter EncodeError Bytes := do
  let berBoots ← .lift (.okOr
    ⟨s!"engine_boots {p.engineBoots} exceeds maximum BER INTEGER value for i32"⟩
    (i32TryFrom p.engineBoots))
  let berTime ← .lift (.okOr
    ⟨s!"engine_time {p.engineTime} exceeds maximum BER INTEGER value for i32"⟩
    (i32TryFrom p.engineTime))
  let scopedPduBytes ← .lift (Ber.encodeScopedPdu p.engineId p.contextName rawPduBytes)
  let securityFlags ← .lift (flagsByte p.auth.isSome p.privacy.isSome)
  let authParams := authPlaceholder p.auth
  let (scopedOrCiphertext, privParams, encrypted) ←
    protectScopedPdu crypto p.privacy p.engineBoots p.engineTime scopedPduBytes
  let (encodedMessage, authParamsOffset) ← .lift
    ((Ber.encodeV3Message
      { msgId := p.msgId, maxSize := msgMaxSizeUdp, securityFlags, securityModel := 3 }
      { engineId := p.engineId, engineBoots := berBoots, engineTime := berTime,
        userName := p.userName, authParams, privParams }
      scopedOrCiphertext encrypted).mapErr (.ofBer "BER encoding of SNMPv3 Message"))
  .lift (signMessage crypto p.auth encodedMessage authParamsOffset)

def encodeV3Response (p : V3Params) (pdu : GetResponse) : Act SaltCounter EncodeError Bytes := do
  let rawVarbindList ← .lift (encodeVarbinds pdu.varbinds)
  let errorStatus := pdu.errorStatus.toI32
  let errorIndex ← .lift (.okOr
    ⟨s!"error_index {pdu.errorIndex} exceeds maximum representable value in BER"⟩
    (i32TryFrom pdu.errorIndex))
  let rawPduBytes ← .lift
    ((Ber.encodePdu tagResponse pdu.requestId errorStatus errorIndex rawVarbindList).mapErr
      (.ofBer "BER encoding of GetResponse PDU"))
  encodeV3Envelope crypto p rawPduBytes

def encodeV3Trap (p : V3Params) (pdu : WireTrapPdu) : Act SaltCounter EncodeError Bytes := do
  let rawVarbindList ← .lift (encodeVarbinds pdu.varbinds)
  let rawPduBytes ← .lift
    ((Ber.encodePdu tagTrap pdu.requestId 0 0 rawVarbindList).mapErr
      (.ofBer "BER encoding of WireTrapPdu"))
  encodeV3Envelope crypto p rawPduBytes

/-- A report is sent without user, context and protection. Its request-id is the msgID. -/
def encodeV3Report (msgId : Int32) (engineId : Bytes) (engineBoots engineTime : UInt32)
    (counterOid : Oid) (counterValue : UInt32) : Act SaltCounter EncodeError Bytes := do
  let varbind : Varbind := ⟨counterOid, .value (.counter32 counterValue)⟩
  let rawVarbindList ← .lift (encodeVarbinds [varbind])
  let rawPduBytes ← .lift
    ((Ber.encodePdu tagReport msgId 0 0 rawVarbindList).mapErr
      (.ofBer "BER encoding of Report PDU"))
  encodeV3Envelope crypto
    { msgId, engineId, userName := [], contextName := [], engineBoots, engineTime, auth := none,
      privacy := none } rawPduBytes

end

end SnmpAgent
