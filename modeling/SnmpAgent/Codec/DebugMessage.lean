import SnmpAgent.Codec.Debug

/-!
# Messages in a debug build

The functions between the readers and writers of `Codec.Debug` and a whole message. They do no
arithmetic of their own but on offsets; here they make their calls in the debug build. The encoders
compute the same on all inputs, and the decoders on bytes that fit into memory.
-/

namespace SnmpAgent
open Rust Tlv

namespace Debug

/-! ## Writing -/

section
variable {ε : Type}

def writeTlv (w : BerWriter) (tag : UInt8) (value : Bytes) : Res ε BerWriter := do
  let w ← extend w [tag]
  let w ← encodeLength w value.length
  extend w value

def writeSequence (w : BerWriter) (contents : Bytes) : Res ε BerWriter :=
  writeTlv w tagSequence contents

def writeConstructed (w : BerWriter) (tag : UInt8) (contents : Bytes) : Res ε BerWriter :=
  writeTlv w tag contents

def writeInteger (w : BerWriter) (value : Int32) : Res ε BerWriter := do
  let encodedValue ← encodeSignedI32 value
  writeTlv w tagInteger encodedValue

def writeTaggedUnsigned32 (w : BerWriter) (tag : UInt8) (value : UInt32) : Res ε BerWriter := do
  let encodedValue ← encodeUnsignedU32 value
  writeTlv w tag encodedValue

def writeTaggedUnsigned64 (w : BerWriter) (tag : UInt8) (value : UInt64) : Res ε BerWriter := do
  let encodedValue ← encodeUnsignedU64 value
  writeTlv w tag encodedValue

def writeOctetString (w : BerWriter) (bytes : Bytes) : Res ε BerWriter :=
  writeTlv w tagOctetString bytes

def writeOid (w : BerWriter) (oid : Oid) : Res ε BerWriter := do
  let encodedValue ← encodeOid oid
  writeTlv w tagOid encodedValue

theorem writeTlv_eq (w : BerWriter) (tag : UInt8) (value : Bytes) :
    (writeTlv w tag value : Res ε BerWriter) = w.writeTlv tag value := by
  simp only [writeTlv, BerWriter.writeTlv, encodeLength_eq]

theorem writeSequence_eq (w : BerWriter) (contents : Bytes) :
    (writeSequence w contents : Res ε BerWriter) = w.writeSequence contents :=
  writeTlv_eq ..

theorem writeConstructed_eq (w : BerWriter) (tag : UInt8) (contents : Bytes) :
    (writeConstructed w tag contents : Res ε BerWriter) = w.writeConstructed tag contents :=
  writeTlv_eq ..

theorem writeInteger_eq (w : BerWriter) (value : Int32) :
    (writeInteger w value : Res ε BerWriter) = w.writeInteger value := by
  simp only [writeInteger, BerWriter.writeInteger, encodeSignedI32_eq, writeTlv_eq]

theorem writeTaggedUnsigned32_eq (w : BerWriter) (tag : UInt8) (value : UInt32) :
    (writeTaggedUnsigned32 w tag value : Res ε BerWriter) = w.writeTaggedUnsigned32 tag value := by
  simp only [writeTaggedUnsigned32, BerWriter.writeTaggedUnsigned32, encodeUnsignedU32_eq,
    writeTlv_eq]

theorem writeTaggedUnsigned64_eq (w : BerWriter) (tag : UInt8) (value : UInt64) :
    (writeTaggedUnsigned64 w tag value : Res ε BerWriter) = w.writeTaggedUnsigned64 tag value := by
  simp only [writeTaggedUnsigned64, BerWriter.writeTaggedUnsigned64, encodeUnsignedU64_eq,
    writeTlv_eq]

theorem writeOctetString_eq (w : BerWriter) (bytes : Bytes) :
    (writeOctetString w bytes : Res ε BerWriter) = w.writeOctetString bytes :=
  writeTlv_eq ..

theorem writeOid_eq (w : BerWriter) (oid : Oid) :
    (writeOid w oid : Res ε BerWriter) = w.writeOid oid := by
  rw [writeOid, encodeOid_eq, Res.ok_bind, writeTlv_eq]
  rfl

end

/-! ## Encoding -/

def encodeVarbindValue : VarbindValue → Res BerError Bytes
  | .unspecified => .ok encodeNullValue
  | .noSuchObject => encodeException tagNoSuchObject
  | .noSuchInstance => encodeException tagNoSuchInstance
  | .endOfMibView => encodeException tagEndOfMibView
  | .value (.integer32 n) => writeInteger BerWriter.new n
  | .value (.octetString bytes) => writeOctetString BerWriter.new bytes
  | .value (.objectIdentifier oid) => writeOid BerWriter.new oid
  | .value (.ipAddress octets) => writeTlv BerWriter.new tagIpAddress octets.val
  | .value (.counter32 n) => writeTaggedUnsigned32 BerWriter.new tagCounter32 n
  | .value (.gauge32 n) => writeTaggedUnsigned32 BerWriter.new tagGauge32 n
  | .value (.timeTicks n) => writeTaggedUnsigned32 BerWriter.new tagTimeticks n
  | .value (.opaque_ bytes) => writeTlv BerWriter.new tagOpaque bytes
  | .value (.counter64 n) => writeTaggedUnsigned64 BerWriter.new tagCounter64 n

section
variable {ε : Type}

def encodeVarbind (oid : Oid) (encodedValueTlv : Bytes) : Res ε Bytes := do
  let innerWriter ← writeOid BerWriter.new oid
  let innerWriter ← innerWriter.writeRaw encodedValueTlv
  writeSequence BerWriter.new innerWriter

def encodeVarbindList (encodedVarbinds : List Bytes) : Res ε Bytes := do
  let innerWriter ← writeAll BerWriter.new encodedVarbinds
  writeSequence BerWriter.new innerWriter

end

def encodeVarbinds (varbinds : List Varbind) : Res EncodeError Bytes := do
  let encodedVarbinds ← varbinds.mapM fun vb => do
    let encodedValue ← (encodeVarbindValue vb.value).mapErr (.ofBer "varbind value encoding")
    encodeVarbind vb.oid encodedValue
  encodeVarbindList encodedVarbinds

namespace Ber

section
variable {ε : Type}

def writePduFields (first second third : Int32) (rawVarbindList : Bytes) : Res ε BerWriter := do
  let inner ← writeInteger BerWriter.new first
  let inner ← writeInteger inner second
  let inner ← writeInteger inner third
  inner.writeRaw rawVarbindList

def encodePdu (tag : UInt8) (requestId errorStatus errorIndex : Int32) (rawVarbindList : Bytes) :
    Res BerError Bytes :=
  if tag ∉ Ber.validStandardPduTags then
    let tagHex := hex2 tag
    .err (.new s!"BER: invalid standard PDU tag 0x{tagHex}")
  else do
    let inner ← writePduFields requestId errorStatus errorIndex rawVarbindList
    writeConstructed BerWriter.new tag inner

def encodeScopedPdu (contextEngineId contextName rawPduBytes : Bytes) : Res ε Bytes := do
  let inner ← writeOctetString BerWriter.new contextEngineId
  let inner ← writeOctetString inner contextName
  let inner ← inner.writeRaw rawPduBytes
  writeSequence BerWriter.new inner

def encodeUsmParams (usm : UsmFields) : Res ε Bytes := do
  let inner ← writeOctetString BerWriter.new usm.engineId
  let inner ← writeInteger inner usm.engineBoots
  let inner ← writeInteger inner usm.engineTime
  let inner ← writeOctetString inner usm.userName
  let inner ← writeOctetString inner usm.authParams
  let inner ← writeOctetString inner usm.privParams
  writeSequence BerWriter.new inner

def encodeHeaderData (header : HeaderData) : Res ε Bytes := do
  let inner ← writeInteger BerWriter.new header.msgId
  let inner ← writeInteger inner header.maxSize
  let inner ← writeOctetString inner [header.securityFlags]
  let inner ← writeInteger inner header.securityModel
  writeSequence BerWriter.new inner

def writeV3Message (header : HeaderData) (usm : UsmFields) (scopedPduOrCiphertext : Bytes)
    (encrypted : Bool) : Res ε Bytes := do
  let headerBytes ← encodeHeaderData header
  let usmBytes ← encodeUsmParams usm
  let msgInner ← writeInteger BerWriter.new snmpv3Version
  let msgInner ← msgInner.writeRaw headerBytes
  let msgInner ← writeOctetString msgInner usmBytes
  let msgInner ←
    if encrypted then writeOctetString msgInner scopedPduOrCiphertext
    else msgInner.writeRaw scopedPduOrCiphertext
  writeSequence BerWriter.new msgInner

theorem encodePdu_eq (tag : UInt8) (requestId errorStatus errorIndex : Int32) (raw : Bytes) :
    encodePdu tag requestId errorStatus errorIndex raw =
      SnmpAgent.Ber.encodePdu tag requestId errorStatus errorIndex raw := by
  simp only [encodePdu, SnmpAgent.Ber.encodePdu, writePduFields, SnmpAgent.Ber.writePduFields,
    writeInteger_eq, writeConstructed_eq]

theorem encodeScopedPdu_eq (contextEngineId contextName raw : Bytes) :
    (encodeScopedPdu contextEngineId contextName raw : Res ε Bytes) =
      SnmpAgent.Ber.encodeScopedPdu contextEngineId contextName raw := by
  simp only [encodeScopedPdu, SnmpAgent.Ber.encodeScopedPdu, Ber.wrapInOuterSequence,
    writeOctetString_eq, writeSequence_eq]

theorem writeV3Message_eq (header : HeaderData) (usm : UsmFields) (scopedPduOrCiphertext : Bytes)
    (encrypted : Bool) :
    (writeV3Message header usm scopedPduOrCiphertext encrypted : Res ε Bytes) =
      SnmpAgent.Ber.writeV3Message header usm scopedPduOrCiphertext encrypted := by
  simp only [writeV3Message, SnmpAgent.Ber.writeV3Message, encodeHeaderData,
    SnmpAgent.Ber.encodeHeaderData, encodeUsmParams, SnmpAgent.Ber.encodeUsmParams,
    Ber.wrapInOuterSequence, writeInteger_eq, writeOctetString_eq, writeSequence_eq]

end

end Ber

theorem encodeVarbindValue_eq (value : VarbindValue) :
    encodeVarbindValue value = SnmpAgent.encodeVarbindValue value := by
  cases value with
  | value value =>
    cases value <;> simp only [encodeVarbindValue, SnmpAgent.encodeVarbindValue, writeInteger_eq,
      writeOctetString_eq, writeOid_eq, writeTlv_eq, writeTaggedUnsigned32_eq,
      writeTaggedUnsigned64_eq]
  | _ => rfl

theorem encodeVarbinds_eq (varbinds : List Varbind) :
    encodeVarbinds varbinds = SnmpAgent.encodeVarbinds varbinds := by
  simp only [encodeVarbinds, SnmpAgent.encodeVarbinds, encodeVarbindValue_eq, encodeVarbind,
    SnmpAgent.encodeVarbind, encodeVarbindList, SnmpAgent.encodeVarbindList, writeOid_eq,
    writeSequence_eq]

/-! ## Reading fields -/

def readSequence : Act BerReader BerError BerReader := readConstructed tagSequence

def readOctetString : Act BerReader BerError Bytes := do
  let (_, stringBytes) ← readExpectedTlv tagOctetString "OCTET STRING"
  return stringBytes

def readNull : Act BerReader BerError Unit := do
  let (tagStartOffset, nullContents) ← readExpectedTlv tagNull "NULL"
  if nullContents.isEmpty then return ()
  else
    let n := nullContents.length
    .fail (.new s!"BER: NULL value must have length 0, got {n} at offset {tagStartOffset}")

section
variable {n : Nat} (hn : n ≤ isizeMax)
include hn

theorem agree_readSequence : Act.Agree (BerReader.Inside n) readSequence BerReader.readSequence
    fun sub r' => r'.Inside n ∧ sub.Inside n :=
  agree_readConstructed hn tagSequence

/-- The string ends where the cursor stands. -/
theorem agree_readOctetString_sub :
    Act.Agree (BerReader.Inside n) readOctetString BerReader.readOctetString fun v r' =>
      r'.Inside n ∧ v.length ≤ r'.position :=
  (agree_readExpectedTlv hn _ _).bind fun _ => .pure fun _ h => h

theorem agree_readOctetString :
    Act.Agree (BerReader.Inside n) readOctetString BerReader.readOctetString fun _ r' =>
      r'.Inside n :=
  (agree_readOctetString_sub hn).mono (fun _ h => h) fun _ _ h => h.1

theorem agree_readNull :
    Act.Agree (BerReader.Inside n) readNull BerReader.readNull fun _ r' => r'.Inside n :=
  (agree_readExpectedTlv hn _ _).bind fun _ =>
    .ite (fun _ => .pure fun _ h => h.1) fun _ => .fail _

end

/-! ## Variable bindings -/

def readException (tag : UInt8) : Act BerReader BerError DecodedVarbindValue := do
  let (_, exceptionBytes) ← readTlv
  if exceptionBytes ≠ [] then
    let tagHex := hex2 tag
    let n := exceptionBytes.length
    .fail (.new s!"BER: exception tag 0x{tagHex} must have length 0, got {n}")
  else if tag = tagNoSuchObject then return .noSuchObject
  else if tag = tagNoSuchInstance then return .noSuchInstance
  else if tag = tagEndOfMibView then return .endOfMibView
  else
    let tagHex := hex2 tag
    .fail (.new s!"BER: unexpected exception tag 0x{tagHex}")

def readChoice (tag : UInt8) : Act BerReader BerError DecodedVarbindValue :=
  if tag = tagNull then do
    readNull
    return .unspecified
  else if tag = tagNoSuchObject ∨ tag = tagNoSuchInstance ∨ tag = tagEndOfMibView then
    readException tag
  else if tag = tagInteger then return .integer (← readInteger)
  else if tag = tagOctetString then return .octetString (← readOctetString)
  else if tag = tagOid then return .objectIdentifier (← readOid)
  else do
    let (rawTag, rawValue) ← readTlv
    return .raw rawTag rawValue

def decodeVarbindValue : Act BerReader BerError DecodedVarbindValue := do
  let r ← get
  let tag ← Act.lift (peekTag r)
  let value ← readChoice tag
  let r ← get
  if r.isEmpty then return value
  else
    let left ← .lift r.remaining
    let n := left.length
    .fail (.new s!"BER: trailing bytes in VarBind SEQUENCE: {n} byte(s) remain after value")

def decodeVarbind : Act BerReader BerError DecodedVarbind := do
  let varbindReader ← readSequence
  let (name, varbindReader) ← Act.on varbindReader readOid
  let (value, _) ← Act.on varbindReader decodeVarbindValue
  return ⟨name, value⟩

def decodeVarbinds : Nat → Act BerReader BerError (List DecodedVarbind)
  | 0 => do
    if (← get).isEmpty then return []
    else .lift .panic
  | fuel + 1 => do
    if (← get).isEmpty then return []
    else
      let varbind ← decodeVarbind
      let varbinds ← decodeVarbinds fuel
      return varbind :: varbinds

def decodeVarbindList (rawVarbindListBytes : Bytes) : Res BerError (List DecodedVarbind) := do
  let (listReader, outerReader) ← Act.on (.new rawVarbindListBytes) readSequence
  if !outerReader.isEmpty then
    .err (.new "BER: trailing bytes after VarBindList SEQUENCE")
  else
    let (varbinds, _) ← Act.on listReader (decodeVarbinds listReader.input.length)
    .ok varbinds

def decodeApplicationValue (tag : UInt8) (valueBytes : Bytes) : Res BerError Value :=
  if tag = tagIpAddress then
    if h : valueBytes.length = 4 then .ok (.ipAddress ⟨valueBytes, h⟩)
    else
      let n := valueBytes.length
      .err (.new s!"BER: IpAddress must be exactly 4 bytes, got {n}")
  else if tag = tagCounter32 then .counter32 <$> decodeUnsignedU32 valueBytes 0
  else if tag = tagGauge32 then .gauge32 <$> decodeUnsignedU32 valueBytes 0
  else if tag = tagTimeticks then .timeTicks <$> decodeUnsignedU32 valueBytes 0
  else if tag = tagOpaque then .ok (.opaque_ valueBytes)
  else if tag = tagCounter64 then .counter64 <$> decodeUnsignedU64 valueBytes 0
  else
    let tagHex := hex2 tag
    .err (.new s!"BER: unsupported APPLICATION tag 0x{tagHex} in VarBind value")

def decodeVarbindValueToValue : DecodedVarbindValue → Res BerError VarbindValue
  | .raw tag valueBytes => .value <$> decodeApplicationValue tag valueBytes
  | decoded => SnmpAgent.decodeVarbindValueToValue decoded

def decodeVarbindListToVarbinds (rawVarbindList : Bytes) : Res DecodeError (List Varbind) := do
  let decodedVarbinds ← (decodeVarbindList rawVarbindList).mapErr (.ofBer "VarBind decode")
  decodedVarbinds.mapM fun decoded => do
    let value ← (decodeVarbindValueToValue decoded.value).mapErr (.ofBer "VarBind value decode")
    .ok ⟨decoded.name, value⟩

section
variable {n : Nat} (hn : n ≤ isizeMax)
include hn

theorem agree_readException (tag : UInt8) :
    Act.Agree (BerReader.Inside n) (readException tag) (SnmpAgent.readException tag) fun _ r' =>
      r'.Inside n := by
  refine (agree_readTlv hn).bind fun p => .ite (fun _ => .fail _) fun _ => ?_
  exact .ite (fun _ => .pure fun _ h => h.1) fun _ => .ite (fun _ => .pure fun _ h => h.1) fun _ =>
    .ite (fun _ => .pure fun _ h => h.1) fun _ => .fail _

theorem agree_readChoice (tag : UInt8) :
    Act.Agree (BerReader.Inside n) (readChoice tag) (SnmpAgent.readChoice tag) fun _ r' =>
      r'.Inside n := by
  refine .ite (fun _ => (agree_readNull hn).bind_pure) fun _ => ?_
  refine .ite (fun _ => agree_readException hn tag) fun _ => ?_
  refine .ite (fun _ => (agree_readInteger hn).bind_pure) fun _ => ?_
  refine .ite (fun _ => (agree_readOctetString hn).bind_pure) fun _ => ?_
  refine .ite (fun _ => (agree_readOid hn).bind_pure) fun _ => ?_
  exact (agree_readTlv hn).bind fun _ => .pure fun _ h => h.1

theorem agree_decodeVarbindValue :
    Act.Agree (BerReader.Inside n) decodeVarbindValue SnmpAgent.decodeVarbindValue fun _ r' =>
      r'.Inside n := by
  refine .get_bind fun r hr => .lift_bind (peekTag_eq hn hr) fun tag _ => ?_
  refine ((agree_readChoice hn tag).at hr).bind fun value => .get_bind fun r' hr' => ?_
  exact .ite (fun _ => .pure fun _ h => h ▸ hr') fun _ => .lift_bind rfl fun _ _ => .fail _

theorem agree_decodeVarbind :
    Act.Agree (BerReader.Inside n) decodeVarbind SnmpAgent.decodeVarbind fun _ r' =>
      r'.Inside n := by
  refine (agree_readSequence hn).bind_on (agree_readOid hn) fun p hp => ?_
  exact .lift_bind ((agree_decodeVarbindValue hn).on hp) fun _ _ => .pure fun _ h => h

theorem agree_decodeVarbinds (fuel : Nat) :
    Act.Agree (BerReader.Inside n) (decodeVarbinds fuel) (SnmpAgent.decodeVarbinds fuel)
      fun _ r' => r'.Inside n := by
  induction fuel with
  | zero =>
    refine .get_bind fun r hr => .ite (fun _ => .pure fun _ h => h ▸ hr) fun _ => ?_
    exact .lift rfl fun _ _ _ h => by cases h
  | succ fuel ih =>
    refine .get_bind fun r hr => .ite (fun _ => .pure fun _ h => h ▸ hr) fun _ => ?_
    exact ((agree_decodeVarbind hn).at hr).bind fun _ => ih.bind_pure

end

theorem decodeVarbindList_eq {raw : Bytes} (h : raw.length ≤ isizeMax) :
    decodeVarbindList raw = SnmpAgent.decodeVarbindList raw := by
  have hnew := BerReader.inside_new raw
  rw [decodeVarbindList, (agree_readSequence h).on hnew]
  refine Res.bind_congr fun p hp => ite_congr rfl (fun _ => rfl) fun _ => ?_
  rw [(agree_decodeVarbinds h _).on ((agree_readSequence h).on_eq_ok hnew hp).2]

theorem decodeApplicationValue_eq (tag : UInt8) (valueBytes : Bytes) :
    decodeApplicationValue tag valueBytes = SnmpAgent.decodeApplicationValue tag valueBytes := by
  simp only [decodeApplicationValue, SnmpAgent.decodeApplicationValue, decodeUnsignedU32_eq,
    decodeUnsignedU64_eq]

theorem decodeVarbindValueToValue_eq (decoded : DecodedVarbindValue) :
    decodeVarbindValueToValue decoded = SnmpAgent.decodeVarbindValueToValue decoded := by
  cases decoded with
  | raw tag valueBytes =>
    simp only [decodeVarbindValueToValue, SnmpAgent.decodeVarbindValueToValue,
      decodeApplicationValue_eq]
  | _ => rfl

theorem decodeVarbindListToVarbinds_eq {raw : Bytes} (h : raw.length ≤ isizeMax) :
    decodeVarbindListToVarbinds raw = SnmpAgent.decodeVarbindListToVarbinds raw := by
  simp only [decodeVarbindListToVarbinds, SnmpAgent.decodeVarbindListToVarbinds,
    decodeVarbindList_eq h, decodeVarbindValueToValue_eq]

/-! ## PDUs -/

namespace Ber

def readValidatedVarbindList : Act BerReader BerError Bytes := do
  let pduReader ← get
  if pduReader.isEmpty then .fail (.new "BER: PDU missing VarBindList")
  else
    let rawVarbindList ← .lift pduReader.remaining
    let _ ← readSequence
    if (← get).isEmpty then return rawVarbindList
    else .fail (.new "BER: trailing bytes after VarBindList in PDU")

def readPduFields (pduTag : UInt8) : Act BerReader BerError DecodedPdu := do
  let requestId ← readInteger
  if pduTag = tagGetBulkRequest then
    let nonRepeaters ← readInteger
    let maxRepetitions ← readInteger
    let rawVarbindList ← readValidatedVarbindList
    return .bulk requestId nonRepeaters maxRepetitions rawVarbindList
  else if pduTag ∈ Ber.validStandardPduTags then
    let _ ← readInteger
    let _ ← readInteger
    let rawVarbindList ← readValidatedVarbindList
    return .standard pduTag requestId rawVarbindList
  else
    let tagHex := hex2 pduTag
    .fail (.new s!"BER: unrecognised PDU tag 0x{tagHex}")

def decodePdu (rawPduBytes : Bytes) : Res BerError DecodedPdu := do
  let outerReader := BerReader.new rawPduBytes
  let pduTag ← peekTag outerReader
  let (pduReader, outerReader) ← Act.on outerReader (readConstructed pduTag)
  if !outerReader.isEmpty then .err (.new "BER: trailing bytes after PDU TLV")
  else
    let (pdu, _) ← Act.on pduReader (readPduFields pduTag)
    .ok pdu

section
variable {n : Nat} (hn : n ≤ isizeMax)
include hn

theorem agree_readValidatedVarbindList :
    Act.Agree (BerReader.Inside n) readValidatedVarbindList
      SnmpAgent.Ber.readValidatedVarbindList fun _ r' => r'.Inside n := by
  refine .get_bind fun r hr => .ite (fun _ => .fail _) fun _ => .lift_bind rfl fun _ _ => ?_
  refine ((agree_readSequence hn).at hr).bind fun _ => .get_bind fun r' hr' => ?_
  exact .ite (fun _ => .pure fun _ h => h ▸ hr'.1) fun _ => .fail _

theorem agree_readPduFields (pduTag : UInt8) :
    Act.Agree (BerReader.Inside n) (readPduFields pduTag) (SnmpAgent.Ber.readPduFields pduTag)
      fun _ r' => r'.Inside n := by
  have hinteger := agree_readInteger hn
  have hlist := agree_readValidatedVarbindList hn
  refine hinteger.bind fun _ => .ite (fun _ => ?_) fun _ => .ite (fun _ => ?_) fun _ => .fail _
  · exact hinteger.bind fun _ => hinteger.bind fun _ => hlist.bind_pure
  · exact hinteger.bind fun _ => hinteger.bind fun _ => hlist.bind_pure

end

theorem decodePdu_eq {raw : Bytes} (h : raw.length ≤ isizeMax) :
    decodePdu raw = SnmpAgent.Ber.decodePdu raw := by
  have hnew := BerReader.inside_new raw
  rw [decodePdu, peekTag_eq h hnew]
  refine Res.bind_congr fun tag _ => ?_
  rw [(agree_readConstructed h tag).on hnew]
  refine Res.bind_congr fun p hp => ite_congr rfl (fun _ => rfl) fun _ => ?_
  rw [(agree_readPduFields h tag).on ((agree_readConstructed h tag).on_eq_ok hnew hp).2]

end Ber

def decodedPduToInbound : DecodedPdu → Res DecodeError InboundPdu
  | .standard tag requestId rawVarbindList =>
    if tag = tagGetRequest then do
      let varbinds ← decodeVarbindListToVarbinds rawVarbindList
      .ok (.getRequest { requestId, varbinds })
    else if tag = tagGetNextRequest then do
      let varbinds ← decodeVarbindListToVarbinds rawVarbindList
      .ok (.getNextRequest { requestId, varbinds })
    else if tag = tagSetRequest then do
      let varbinds ← decodeVarbindListToVarbinds rawVarbindList
      .ok (.setRequest { requestId, varbinds })
    else
      let tagHex := hex2 tag
      .err ⟨.unsupportedPduType, s!"unexpected outbound PDU type: tag 0x{tagHex}"⟩
  | .bulk requestId nonRepeaters maxRepetitions rawVarbindList => do
    let nonRepeaters := (u32TryFrom nonRepeaters).getD 0
    let maxRepetitions := (u32TryFrom maxRepetitions).getD 0
    let varbinds ← decodeVarbindListToVarbinds rawVarbindList
    .ok (.getBulkRequest { requestId, nonRepeaters, maxRepetitions, varbinds })

theorem decodedPduToInbound_eq {pdu : DecodedPdu} (h : pdu.rawVarbindList.length ≤ isizeMax) :
    decodedPduToInbound pdu = SnmpAgent.decodedPduToInbound pdu := by
  cases pdu with
  | standard tag requestId raw =>
    have hlist : decodeVarbindListToVarbinds raw = _ := decodeVarbindListToVarbinds_eq h
    simp only [decodedPduToInbound, SnmpAgent.decodedPduToInbound, hlist]
  | bulk requestId nonRepeaters maxRepetitions raw =>
    have hlist : decodeVarbindListToVarbinds raw = _ := decodeVarbindListToVarbinds_eq h
    simp only [decodedPduToInbound, SnmpAgent.decodedPduToInbound, hlist]

/-! ## Messages -/

namespace Ber

def readHeaderFields : Act BerReader BerError HeaderData := do
  let msgId ← readInteger
  if msgId < 0 then .fail (.new "BER: msgID must be non-negative per RFC 3412 §6.4")
  else
    let maxSize ← readInteger
    if maxSize < 484 then .fail (.new "BER: msgMaxSize must be at least 484 per RFC 3412 §6.6")
    else
      let flagsBytes ← readOctetString
      let securityFlags ← .lift (Ber.singleFlagsByte flagsBytes)
      let securityModel ← readInteger
      return { msgId, maxSize, securityFlags, securityModel }

def decodeHeaderData : Act BerReader BerError HeaderData := do
  let headerReader ← readSequence
  let (header, _) ← Act.on headerReader readHeaderFields
  return header

def readUsmFields : Act BerReader BerError DecodedUsm := do
  let engineId ← readOctetString
  let engineBoots ← readInteger
  let engineTime ← readInteger
  let userName ← readOctetString
  if msgUserNameMaxLength < userName.length then
    let n := userName.length
    .fail (.new
      s!"BER: msgUserName length {n} exceeds RFC 3414 §2.4 maximum of {msgUserNameMaxLength} octets")
  else
    let authParams ← readOctetString
    let r ← get
    let authParamsEnd ← Act.lift (offset r)
    let authParamsOffset ← .lift (Ber.authParamsStart authParamsEnd authParams)
    let privParams ← readOctetString
    return ⟨{ engineId, engineBoots, engineTime, userName, authParams, privParams },
      authParamsOffset⟩

def readUsmSequence : Act BerReader BerError BerReader := do
  let usmParamsBytes ← readOctetString
  let r ← get
  let usmParamsEnd ← Act.lift (offset r)
  let usmValueOffset ← .lift (usizeSub usmParamsEnd usmParamsBytes.length)
  let (usmReader, _) ← Act.on (.newWithOffset usmParamsBytes usmValueOffset) readSequence
  return usmReader

def decodeUsmSecurityParameters : Act BerReader BerError DecodedUsm := do
  let usmReader ← readUsmSequence
  let (decodedUsm, _) ← Act.on usmReader readUsmFields
  return decodedUsm

def readScopedFields : Act BerReader BerError DecodedScopedPduFields := do
  let contextEngineId ← readOctetString
  let contextName ← readOctetString
  let rawPdu ← .lift (← get).remaining
  return { contextEngineId, contextName, rawPdu }

def readScopedData (scopedDataTag : UInt8) : Act BerReader BerError ScopedData :=
  if scopedDataTag = tagSequence then do
    let scopedReader ← readSequence
    let (fields, _) ← Act.on scopedReader readScopedFields
    return .plaintext fields.contextEngineId fields.contextName fields.rawPdu
  else if scopedDataTag = tagOctetString then do
    let ciphertext ← readOctetString
    return .encrypted ciphertext
  else
    let tagHex := hex2 scopedDataTag
    .fail (.new
      s!"BER: expected ScopedPduData as SEQUENCE (0x30) or OCTET STRING (0x04), got tag 0x{tagHex}")

def decodeScopedPduData : Act BerReader BerError ScopedData := do
  let r ← get
  let scopedDataTag ← Act.lift (peekTag r)
  readScopedData scopedDataTag

def readMessageFields : Act BerReader BerError V3MessageEnvelope := do
  let version ← readInteger
  if version ≠ snmpv3Version then
    .fail (.wrongVersion s!"BER: expected SNMPv3 (version 3), got version {version}")
  else
    let header ← decodeHeaderData
    let decodedUsm ← decodeUsmSecurityParameters
    let scopedData ← decodeScopedPduData
    return {
      msgId := header.msgId
      maxSize := header.maxSize
      securityFlags := header.securityFlags
      securityModel := header.securityModel
      usm := decodedUsm.fields
      scopedData
      authParamsOffset := decodedUsm.authParamsOffset }

def decodeV3Envelope (bytes : Bytes) : Res BerError V3MessageEnvelope := do
  let (msgReader, _) ← Act.on (.new bytes) readSequence
  let (envelope, _) ← Act.on msgReader readMessageFields
  .ok envelope

def decodeScopedPdu (bytes : Bytes) : Res BerError DecodedScopedPduFields := do
  let (scopedReader, _) ← Act.on (.new bytes) readSequence
  let (fields, _) ← Act.on scopedReader readScopedFields
  .ok fields

def readAuthParamsOffset : Act BerReader BerError Nat := do
  let _ ← readOctetString
  let _ ← readInteger
  let _ ← readInteger
  let _ ← readOctetString
  let authParamsValue ← readOctetString
  let r ← get
  let authParamsEnd ← Act.lift (offset r)
  .lift (usizeSub authParamsEnd authParamsValue.length)

def findAuthParamsOffset (encodedMessage : Bytes) (authParamsLen : Nat) :
    Res BerError (Option Nat) :=
  if authParamsLen = 0 then .ok none
  else do
    let (msgReader, _) ← Act.on (.new encodedMessage) readSequence
    let (_, msgReader) ← Act.on msgReader readInteger
    let (_, msgReader) ← Act.on msgReader readSequence
    let (usmReader, _) ← Act.on msgReader readUsmSequence
    let (offset, _) ← Act.on usmReader readAuthParamsOffset
    .ok (some offset)

def encodeV3Message (header : HeaderData) (usm : UsmFields) (scopedPduOrCiphertext : Bytes)
    (encrypted : Bool) : Res BerError (Bytes × Option Nat) := do
  let encodedMessage ← writeV3Message header usm scopedPduOrCiphertext encrypted
  let authParamsOffset ← findAuthParamsOffset encodedMessage usm.authParams.length
  .ok (encodedMessage, authParamsOffset)

section
variable {n : Nat} (hn : n ≤ isizeMax)
include hn

theorem agree_readHeaderFields :
    Act.Agree (BerReader.Inside n) readHeaderFields SnmpAgent.Ber.readHeaderFields fun _ r' =>
      r'.Inside n := by
  refine (agree_readInteger hn).bind fun _ => .ite (fun _ => .fail _) fun _ => ?_
  refine (agree_readInteger hn).bind fun _ => .ite (fun _ => .fail _) fun _ => ?_
  refine (agree_readOctetString hn).bind fun _ => .lift_bind rfl fun _ _ => ?_
  exact (agree_readInteger hn).bind_pure

theorem agree_decodeHeaderData :
    Act.Agree (BerReader.Inside n) decodeHeaderData SnmpAgent.Ber.decodeHeaderData fun _ r' =>
      r'.Inside n :=
  (agree_readSequence hn).bind_on (agree_readHeaderFields hn) fun _ _ => .pure fun _ h => h

theorem agree_readUsmFields :
    Act.Agree (BerReader.Inside n) readUsmFields SnmpAgent.Ber.readUsmFields fun _ r' =>
      r'.Inside n := by
  have hstring := agree_readOctetString hn
  have hinteger := agree_readInteger hn
  refine hstring.bind fun _ => hinteger.bind fun _ => hinteger.bind fun _ =>
    hstring.bind fun _ => .ite (fun _ => .fail _) fun _ => hstring.bind fun _ => ?_
  refine .get_bind fun r hr => .lift_left (offset_eq hn hr) (.lift_bind rfl fun _ _ => ?_)
  exact (hstring.at hr).bind_pure

theorem agree_readUsmSequence :
    Act.Agree (BerReader.Inside n) readUsmSequence SnmpAgent.Ber.readUsmSequence fun sub r' =>
      r'.Inside n ∧ sub.Inside n := by
  refine (agree_readOctetString_sub hn).bind fun usmBytes => .get_bind fun r hr => ?_
  refine .lift_left (offset_eq hn hr.1) (.lift_bind rfl fun off hoff => ?_)
  have hle : usmBytes.length ≤ r.offset := hr.2.trans (Nat.le_add_left ..)
  rw [usizeSub_of_le hle] at hoff
  cases hoff
  have husm := hr.1.sub hr.2
  refine .lift_bind ((agree_readSequence hn).on husm) fun p hp => .pure fun _ h => ?_
  exact ⟨h ▸ hr.1, ((agree_readSequence hn).on_eq_ok husm hp).2⟩

theorem agree_decodeUsmSecurityParameters :
    Act.Agree (BerReader.Inside n) decodeUsmSecurityParameters
      SnmpAgent.Ber.decodeUsmSecurityParameters fun _ r' => r'.Inside n :=
  (agree_readUsmSequence hn).bind_on (agree_readUsmFields hn) fun _ _ => .pure fun _ h => h

theorem agree_readScopedFields :
    Act.Agree (BerReader.Inside n) readScopedFields SnmpAgent.Ber.readScopedFields fun _ r' =>
      r'.Inside n := by
  refine (agree_readOctetString hn).bind fun _ => (agree_readOctetString hn).bind fun _ => ?_
  exact .get_bind fun r hr => .lift_bind rfl fun _ _ => .pure fun _ h => h ▸ hr

theorem agree_decodeScopedPduData :
    Act.Agree (BerReader.Inside n) decodeScopedPduData SnmpAgent.Ber.decodeScopedPduData
      fun _ r' => r'.Inside n := by
  refine .get_bind fun r hr => .lift_bind (peekTag_eq hn hr) fun tag _ => ?_
  refine .ite (fun _ => ?_) fun _ => .ite (fun _ => ?_) fun _ => .fail _
  · exact ((agree_readSequence hn).at hr).bind_on (agree_readScopedFields hn) fun _ _ =>
      .pure fun _ h => h
  · exact ((agree_readOctetString hn).at hr).bind_pure

theorem agree_readMessageFields :
    Act.Agree (BerReader.Inside n) readMessageFields SnmpAgent.Ber.readMessageFields fun _ r' =>
      r'.Inside n := by
  refine (agree_readInteger hn).bind fun _ => .ite (fun _ => .fail _) fun _ => ?_
  refine (agree_decodeHeaderData hn).bind fun _ =>
    (agree_decodeUsmSecurityParameters hn).bind fun _ => ?_
  exact (agree_decodeScopedPduData hn).bind_pure

theorem agree_readAuthParamsOffset :
    Act.Agree (BerReader.Inside n) readAuthParamsOffset SnmpAgent.Ber.readAuthParamsOffset
      fun _ r' => r'.Inside n := by
  have hstring := agree_readOctetString hn
  have hinteger := agree_readInteger hn
  refine hstring.bind fun _ => hinteger.bind fun _ => hinteger.bind fun _ =>
    hstring.bind fun _ => hstring.bind fun _ => .get_bind fun r hr => ?_
  exact .lift_left (offset_eq hn hr) (.lift rfl fun _ _ h _ => h ▸ hr)

end

theorem decodeV3Envelope_eq {bytes : Bytes} (h : bytes.length ≤ isizeMax) :
    decodeV3Envelope bytes = SnmpAgent.Ber.decodeV3Envelope bytes := by
  have hnew := BerReader.inside_new bytes
  rw [decodeV3Envelope, (agree_readSequence h).on hnew]
  refine Res.bind_congr fun p hp => ?_
  dsimp only
  rw [(agree_readMessageFields h).on ((agree_readSequence h).on_eq_ok hnew hp).2]

theorem decodeScopedPdu_eq {bytes : Bytes} (h : bytes.length ≤ isizeMax) :
    decodeScopedPdu bytes = SnmpAgent.Ber.decodeScopedPdu bytes := by
  have hnew := BerReader.inside_new bytes
  rw [decodeScopedPdu, (agree_readSequence h).on hnew]
  refine Res.bind_congr fun p hp => ?_
  dsimp only
  rw [(agree_readScopedFields h).on ((agree_readSequence h).on_eq_ok hnew hp).2]

theorem findAuthParamsOffset_eq {encodedMessage : Bytes} (h : encodedMessage.length ≤ isizeMax)
    (authParamsLen : Nat) :
    findAuthParamsOffset encodedMessage authParamsLen =
      SnmpAgent.Ber.findAuthParamsOffset encodedMessage authParamsLen := by
  have hsequence := agree_readSequence h
  refine ite_congr rfl (fun _ => rfl) fun _ => ?_
  rw [hsequence.on (BerReader.inside_new encodedMessage)]
  refine Res.bind_congr fun msg hmsg => ?_
  have hmsg := (hsequence.on_eq_ok (BerReader.inside_new encodedMessage) hmsg).2
  dsimp only
  rw [(agree_readInteger h).on hmsg]
  refine Res.bind_congr fun version hversion => ?_
  have hversion := (agree_readInteger h).on_eq_ok hmsg hversion
  rw [hsequence.on hversion]
  refine Res.bind_congr fun header hheader => ?_
  have hheader := (hsequence.on_eq_ok hversion hheader).1
  rw [(agree_readUsmSequence h).on hheader]
  refine Res.bind_congr fun usm husm => ?_
  rw [(agree_readAuthParamsOffset h).on ((agree_readUsmSequence h).on_eq_ok hheader husm).2]

/-- A message that was written fits into memory. -/
theorem encodeV3Message_eq (header : HeaderData) (usm : UsmFields) (scopedPduOrCiphertext : Bytes)
    (encrypted : Bool) :
    encodeV3Message header usm scopedPduOrCiphertext encrypted =
      SnmpAgent.Ber.encodeV3Message header usm scopedPduOrCiphertext encrypted := by
  rw [encodeV3Message, writeV3Message_eq]
  refine Res.bind_congr fun message hmessage => ?_
  rw [SnmpAgent.writeV3Message_eq, capped_eq_ok] at hmessage
  rw [findAuthParamsOffset_eq (hmessage.1 ▸ hmessage.2)]

end Ber

def decodeScopedData (usmEngineId : Bytes) :
    ScopedData → Res DecodeError (Bytes × Bytes × V3ScopedData)
  | .plaintext contextEngineId contextName rawPdu => do
    let decodedPdu ← (Ber.decodePdu rawPdu).mapErr (.ofBer "BER decode")
    let pdu ← decodedPduToInbound decodedPdu
    .ok (contextEngineId, contextName, .plaintext pdu)
  | .encrypted ciphertext => .ok (usmEngineId, [], .encrypted ciphertext)

def decodeV3Message (bytes : Bytes) : Res DecodeError V3InboundMessage := do
  let envelope ← (Ber.decodeV3Envelope bytes).mapErr .ofEnvelope
  let (engineId, contextName, scopedData) ←
    decodeScopedData envelope.usm.engineId envelope.scopedData
  .ok {
    msgId := envelope.msgId
    maxSize := envelope.maxSize
    securityModel := ⟨envelope.securityModel⟩
    engineId
    contextName
    userName := envelope.usm.userName
    scopedData
    usm := .ofWire envelope.usm envelope.securityFlags
    rawMessage := bytes
    authParamsOffset := envelope.authParamsOffset }

def decodeScopedPdu (bytes : Bytes) : Res DecodeError DecodedScopedPdu := do
  let fields ← (Ber.decodeScopedPdu bytes).mapErr (.ofBer "ScopedPDU decode")
  let decoded ← (Ber.decodePdu fields.rawPdu).mapErr (.ofBer "PDU decode")
  let pdu ← decodedPduToInbound decoded
  .ok { contextEngineId := fields.contextEngineId, contextName := fields.contextName, pdu }

theorem decodeV3Message_eq {bytes : Bytes} (h : bytes.length ≤ isizeMax) :
    decodeV3Message bytes = SnmpAgent.decodeV3Message bytes := by
  rw [decodeV3Message, Ber.decodeV3Envelope_eq h]
  refine Res.bind_congr fun envelope henvelope => ?_
  have hpayload := decodeV3Envelope_payload (Res.mapErr_eq_ok.mp henvelope)
  suffices heq : decodeScopedData envelope.usm.engineId envelope.scopedData =
      SnmpAgent.decodeScopedData envelope.usm.engineId envelope.scopedData by rw [heq]
  cases hdata : envelope.scopedData with
  | plaintext contextEngineId contextName rawPdu =>
    rw [hdata] at hpayload
    have hraw : rawPdu.length ≤ isizeMax := hpayload.trans h
    rw [decodeScopedData, Ber.decodePdu_eq hraw]
    refine Res.bind_congr fun pdu hpdu => ?_
    have hlist := size_of_decodePdu (Res.mapErr_eq_ok.mp hpdu)
    rw [decodedPduToInbound_eq (hlist.trans hraw)]
  | encrypted ciphertext => rfl

theorem decodeScopedPdu_eq {bytes : Bytes} (h : bytes.length ≤ isizeMax) :
    decodeScopedPdu bytes = SnmpAgent.decodeScopedPdu bytes := by
  rw [decodeScopedPdu, Ber.decodeScopedPdu_eq h]
  refine Res.bind_congr fun fields hfields => ?_
  have hraw := (length_rawPdu_of_decodeScopedPdu (Res.mapErr_eq_ok.mp hfields)).trans h
  rw [Ber.decodePdu_eq hraw]
  refine Res.bind_congr fun pdu hpdu => ?_
  have hlist := size_of_decodePdu (Res.mapErr_eq_ok.mp hpdu)
  rw [decodedPduToInbound_eq (hlist.trans hraw)]

/-! ## Sealed messages -/

section
variable (crypto : Crypto)

def encodeV3Envelope (p : V3Params) (rawPduBytes : Bytes) : Act SaltCounter EncodeError Bytes := do
  let berBoots ← .lift (.okOr
    ⟨s!"engine_boots {p.engineBoots} exceeds maximum BER INTEGER value for i32"⟩
    (i32TryFrom p.engineBoots))
  let berTime ← .lift (.okOr
    ⟨s!"engine_time {p.engineTime} exceeds maximum BER INTEGER value for i32"⟩
    (i32TryFrom p.engineTime))
  let scopedPduBytes ← .lift (Ber.encodeScopedPdu p.engineId p.contextName rawPduBytes)
  let securityFlags ← .lift (flagsByte p.auth.isSome p.privacy.isSome)
  let authParams := authPlaceholder p.auth
  let (scopedOrCiphertext, privParams, encrypted) ←
    protectScopedPdu crypto p.privacy p.engineBoots p.engineTime scopedPduBytes
  let (encodedMessage, authParamsOffset) ← .lift
    ((Ber.encodeV3Message
      { msgId := p.msgId, maxSize := msgMaxSizeUdp, securityFlags, securityModel := 3 }
      { engineId := p.engineId, engineBoots := berBoots, engineTime := berTime,
        userName := p.userName, authParams, privParams }
      scopedOrCiphertext encrypted).mapErr (.ofBer "BER encoding of SNMPv3 Message"))
  .lift (signMessage crypto p.auth encodedMessage authParamsOffset)

def encodeV3Response (p : V3Params) (pdu : GetResponse) : Act SaltCounter EncodeError Bytes := do
  let rawVarbindList ← .lift (encodeVarbinds pdu.varbinds)
  let errorStatus := pdu.errorStatus.toI32
  let errorIndex ← .lift (.okOr
    ⟨s!"error_index {pdu.errorIndex} exceeds maximum representable value in BER"⟩
    (i32TryFrom pdu.errorIndex))
  let rawPduBytes ← .lift
    ((Ber.encodePdu tagResponse pdu.requestId errorStatus errorIndex rawVarbindList).mapErr
      (.ofBer "BER encoding of GetResponse PDU"))
  encodeV3Envelope crypto p rawPduBytes

def encodeV3Report (msgId : Int32) (engineId : Bytes) (engineBoots engineTime : UInt32)
    (counterOid : Oid) (counterValue : UInt32) : Act SaltCounter EncodeError Bytes := do
  let varbind : Varbind := ⟨counterOid, .value (.counter32 counterValue)⟩
  let rawVarbindList ← .lift (encodeVarbinds [varbind])
  let rawPduBytes ← .lift
    ((Ber.encodePdu tagReport msgId 0 0 rawVarbindList).mapErr
      (.ofBer "BER encoding of Report PDU"))
  encodeV3Envelope crypto
    { msgId, engineId, userName := [], contextName := [], engineBoots, engineTime, auth := none,
      privacy := none } rawPduBytes

theorem encodeV3Envelope_eq (p : V3Params) (rawPduBytes : Bytes) :
    encodeV3Envelope crypto p rawPduBytes = SnmpAgent.encodeV3Envelope crypto p rawPduBytes := by
  simp only [encodeV3Envelope, SnmpAgent.encodeV3Envelope, Ber.encodeScopedPdu_eq,
    Ber.encodeV3Message_eq]

theorem encodeV3Response_eq (p : V3Params) (pdu : GetResponse) :
    encodeV3Response crypto p pdu = SnmpAgent.encodeV3Response crypto p pdu := by
  simp only [encodeV3Response, SnmpAgent.encodeV3Response, encodeVarbinds_eq, Ber.encodePdu_eq,
    encodeV3Envelope_eq]

theorem encodeV3Report_eq (msgId : Int32) (engineId : Bytes) (engineBoots engineTime : UInt32)
    (counterOid : Oid) (counterValue : UInt32) :
    encodeV3Report crypto msgId engineId engineBoots engineTime counterOid counterValue =
      SnmpAgent.encodeV3Report crypto msgId engineId engineBoots engineTime counterOid
        counterValue := by
  simp only [encodeV3Report, SnmpAgent.encodeV3Report, encodeVarbinds_eq, Ber.encodePdu_eq,
    encodeV3Envelope_eq]

end

end Debug

end SnmpAgent
