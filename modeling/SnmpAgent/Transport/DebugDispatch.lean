import SnmpAgent.Codec.DebugMessage
import SnmpAgent.Transport.Debug

/-!
# Dispatch in a debug build

No frame makes a dispatch panic. The dispatch is written once more, as `Debug.processSnmpv3Request`,
with the functions of `Codec.Debug`, `Codec.DebugMessage` and `Transport.Debug` in place of the
release ones. The two give the same answer and the same next state, and the release one returns.
-/

namespace SnmpAgent
open Rust Tlv

namespace Debug

/-! ## Rejection -/

section
variable (crypto : Crypto)

def emitReportResponse {ε : Type} (counter : StatsCounter) (counterOid : Oid) (msgId : Int32)
    (securityFlags : MsgFlags) : Act Agent ε Reject := do
  modify (Agent.count counter)
  let inputs := (← get).ctx.inputs
  let counterValue := counter.select inputs
  if !securityFlags.isReportable then return .discard
  else
    let encoded ← Agent.encode (encodeV3Report crypto msgId inputs.engineId inputs.engineBoots
      inputs.engineTime counterOid counterValue.value)
    return encoded.elim .discard .report

def rejectWithReport {α : Type} (counter : StatsCounter) (counterOid : Oid) (msgId : Int32)
    (securityFlags : MsgFlags) : Act Agent Reject α := do
  .fail (← emitReportResponse crypto counter counterOid msgId securityFlags)

theorem rejectWithReport_eq {α : Type} (counter : StatsCounter) (counterOid : Oid) (msgId : Int32)
    (securityFlags : MsgFlags) :
    (rejectWithReport crypto counter counterOid msgId securityFlags : Act Agent Reject α) =
      SnmpAgent.rejectWithReport crypto counter counterOid msgId securityFlags := by
  simp only [rejectWithReport, SnmpAgent.rejectWithReport, emitReportResponse,
    SnmpAgent.emitReportResponse, encodeV3Report_eq]

/-! ## Checks -/

def shouldRejectSecurityLevel {ε : Type} (inputs : DispatchInputs)
    (msgLevel : Except InvalidMsgFlags SecurityLevel) : Res ε Bool :=
  match msgLevel with
  | .error _ => .ok true
  | .ok level =>
    -- `||` asks for the user's level only above the floor.
    if level < inputs.minimumSecurityLevel then .ok true
    else
      match inputs.usmUser with
      | some user => do
        let userLevel ← securityLevel user
        .ok (decide (level > userLevel))
      | none => .ok (decide (level > .noAuthNoPriv))

def checkMessageEnvelope (v3Msg : V3InboundMessage) : Act Agent Reject Unit := do
  let inputs := (← get).ctx.inputs
  if !v3Msg.securityModel.isUsm then
    rejectWithReport crypto .unknownSecurityModels unknownSecurityModelsOid v3Msg.msgId
      v3Msg.usm.securityFlags
  else if v3Msg.usm.authEngineId.isEmpty then
    rejectWithReport crypto .unknownEngineIds unknownEngineIdsOid v3Msg.msgId
      v3Msg.usm.securityFlags
  else if v3Msg.engineId ≠ inputs.engineId then
    rejectWithReport crypto .unknownEngineIds unknownEngineIdsOid v3Msg.msgId
      v3Msg.usm.securityFlags
  else return ()

def checkUserName (v3Msg : V3InboundMessage) : Act Agent Reject Unit := do
  let inputs := (← get).ctx.inputs
  let nameMatches := inputs.usmUser.all fun user => v3Msg.userName == user.name.asBytes
  if !nameMatches then
    rejectWithReport crypto .unknownUserNames unknownUserNamesOid v3Msg.msgId
      v3Msg.usm.securityFlags
  else return ()

def checkSecurityLevel (v3Msg : V3InboundMessage) : Act Agent Reject Unit := do
  let inputs := (← get).ctx.inputs
  let msgLevel := v3Msg.usm.securityFlags.securityLevel
  let shouldReject ← .lift (shouldRejectSecurityLevel inputs msgLevel)
  if shouldReject then
    rejectWithReport crypto .unsupportedSecLevels unsupportedSecLevelsOid v3Msg.msgId
      v3Msg.usm.securityFlags
  else return ()

def verifyAuthentication (v3Msg : V3InboundMessage) : Act Agent Reject Unit := do
  let inputs := (← get).ctx.inputs
  match inputs.usmUser.bind UsmUser.auth with
  | none => return ()
  | some (authProtocol, authKey) =>
    let authParamsBytes := (v3Msg.usm.authParams.map (·.bytes)).getD []
    let hmacValid ← .lift (verifyHmac crypto authProtocol authKey v3Msg.rawMessage authParamsBytes
      v3Msg.authParamsOffset)
    if !hmacValid then
      rejectWithReport crypto .wrongDigests wrongDigestsOid v3Msg.msgId v3Msg.usm.securityFlags
    else return ()

def checkTimeWindow (v3Msg : V3InboundMessage) : Act Agent Reject Unit := do
  let inputs := (← get).ctx.inputs
  match inputs.usmUser.bind UsmUser.authProtocol with
  | none => return ()
  | some _ =>
    let inTimeWindow ← .lift (isInTimeWindow v3Msg.usm.authEngineBoots v3Msg.usm.authEngineTime
      inputs.engineBoots inputs.engineTime)
    if !inTimeWindow then
      rejectWithReport crypto .notInTimeWindows notInTimeWindowsOid v3Msg.msgId
        v3Msg.usm.securityFlags
    else return ()

def decryptScopedPdu (msgId : Int32) (securityFlags : MsgFlags) (privParams : Option PrivacySalt)
    (authEngineBoots authEngineTime : UInt32) (ciphertext : Bytes) :
    Act Agent Reject (InboundPdu × Bytes) := do
  let inputs := (← get).ctx.inputs
  match inputs.usmUser.bind UsmUser.privacy with
  | none => .fail .discard
  | some (privProtocol, privKey) =>
    match privParams with
    | none => rejectWithReport crypto .decryptionErrors decryptionErrorsOid msgId securityFlags
    | some privSalt =>
      let iv := aesIv authEngineBoots authEngineTime privSalt
      match privProtocol.decrypt crypto iv privKey ciphertext with
      | .panic => .lift .panic
      | .err _ => rejectWithReport crypto .decryptionErrors decryptionErrorsOid msgId securityFlags
      | .ok scopedPduBytes =>
        match decodeScopedPdu scopedPduBytes with
        | .panic => .lift .panic
        | .err _ =>
          rejectWithReport crypto .decryptionErrors decryptionErrorsOid msgId securityFlags
        | .ok decoded =>
          if decoded.contextEngineId ≠ inputs.engineId then
            rejectWithReport crypto .unknownEngineIds unknownEngineIdsOid msgId securityFlags
          else if !decoded.contextName.isEmpty then .fail .discard
          else return (decoded.pdu, decoded.contextName)

theorem shouldRejectSecurityLevel_eq {ε : Type} (inputs : DispatchInputs)
    (msgLevel : Except InvalidMsgFlags SecurityLevel) :
    (shouldRejectSecurityLevel inputs msgLevel : Res ε Bool) =
      .ok (inputs.shouldRejectSecurityLevel msgLevel) := by
  unfold shouldRejectSecurityLevel DispatchInputs.shouldRejectSecurityLevel
  cases msgLevel with
  | error e => rfl
  | ok level =>
    by_cases hfloor : level < inputs.minimumSecurityLevel
    · simp [hfloor]
    · cases inputs.usmUser with
      | none => simp [hfloor]
      | some user => simp [hfloor, securityLevel_eq]

theorem checkMessageEnvelope_eq (v3Msg : V3InboundMessage) :
    checkMessageEnvelope crypto v3Msg = SnmpAgent.checkMessageEnvelope crypto v3Msg := by
  simp only [checkMessageEnvelope, SnmpAgent.checkMessageEnvelope, rejectWithReport_eq]

theorem checkUserName_eq (v3Msg : V3InboundMessage) :
    checkUserName crypto v3Msg = SnmpAgent.checkUserName crypto v3Msg := by
  simp only [checkUserName, SnmpAgent.checkUserName, rejectWithReport_eq]

theorem checkSecurityLevel_eq (v3Msg : V3InboundMessage) :
    checkSecurityLevel crypto v3Msg = SnmpAgent.checkSecurityLevel crypto v3Msg := by
  simp only [checkSecurityLevel, SnmpAgent.checkSecurityLevel, shouldRejectSecurityLevel_eq,
    Act.lift_ok_bind, rejectWithReport_eq]

/-- The assertion of `verify_hmac` holds of a message that was decoded. -/
theorem verifyAuthentication_eq {frame : Bytes} {v3Msg : V3InboundMessage}
    (hmsg : SnmpAgent.decodeV3Message frame = .ok v3Msg) :
    verifyAuthentication crypto v3Msg = SnmpAgent.verifyAuthentication crypto v3Msg := by
  refine bind_congr fun agent => ?_
  dsimp only
  cases agent.ctx.inputs.usmUser.bind UsmUser.auth with
  | none => rfl
  | some credentials =>
    dsimp only
    rw [verifyHmac_eq crypto _ _ _ (authParams_ne_nil hmsg), Act.lift_ok_bind, rejectWithReport_eq]

theorem checkTimeWindow_eq (v3Msg : V3InboundMessage) :
    checkTimeWindow crypto v3Msg = SnmpAgent.checkTimeWindow crypto v3Msg := by
  refine bind_congr fun agent => ?_
  dsimp only
  cases agent.ctx.inputs.usmUser.bind UsmUser.authProtocol with
  | none => rfl
  | some protocol =>
    dsimp only
    rw [isInTimeWindow_eq, Act.lift_ok_bind, rejectWithReport_eq]

theorem decryptScopedPdu_eq (msgId : Int32) (securityFlags : MsgFlags)
    (privParams : Option PrivacySalt) (authEngineBoots authEngineTime : UInt32)
    {ciphertext : Bytes} (h : ciphertext.length ≤ isizeMax) :
    decryptScopedPdu crypto msgId securityFlags privParams authEngineBoots authEngineTime
        ciphertext =
      SnmpAgent.decryptScopedPdu crypto msgId securityFlags privParams authEngineBoots
        authEngineTime ciphertext := by
  simp only [decryptScopedPdu, SnmpAgent.decryptScopedPdu, rejectWithReport_eq]
  refine bind_congr fun agent => ?_
  cases agent.ctx.inputs.usmUser.bind UsmUser.privacy with
  | none => rfl
  | some credentials =>
    cases privParams with
    | none => rfl
    | some privSalt =>
      dsimp only
      cases hplain : credentials.1.decrypt crypto (aesIv authEngineBoots authEngineTime privSalt)
          credentials.2 ciphertext with
      | panic => rfl
      | err e => rfl
      | ok scopedPduBytes =>
        have hlen := (PrivProtocol.length_of_decrypt crypto _ _ hplain).trans_le h
        cases hdecoded : SnmpAgent.decodeScopedPdu scopedPduBytes <;>
          simp only [decodeScopedPdu_eq hlen, hdecoded]

/-! ## The pipeline -/

def dispatchPduAndEncodeResponse (msgId maxSize : Int32) (userName contextName : Bytes)
    (mib : Store) (inboundPdu : InboundPdu) : Act Agent Reject (Option Bytes) := do
  let response ← .lift (handleRequest maxSize mib inboundPdu)
  let inputs := (← get).ctx.inputs
  Agent.encode (encodeV3Response crypto (responseParams inputs msgId userName contextName) response)

def openScopedData (v3Msg : V3InboundMessage) : Act Agent Reject (InboundPdu × Bytes) :=
  match v3Msg.scopedData with
  | .plaintext pdu => return (pdu, v3Msg.contextName)
  | .encrypted ciphertext =>
    decryptScopedPdu crypto v3Msg.msgId v3Msg.usm.securityFlags v3Msg.usm.privParams
      v3Msg.usm.authEngineBoots v3Msg.usm.authEngineTime ciphertext

def runValidationPipeline (frame : Bytes) (mib : Store) : Act Agent Reject Bytes := do
  let v3Msg ← .lift ((decodeV3Message frame).mapErr fun _ => Reject.discard)
  checkMessageEnvelope crypto v3Msg
  checkUserName crypto v3Msg
  checkSecurityLevel crypto v3Msg
  checkPrivFlagAgreement v3Msg
  verifyAuthentication crypto v3Msg
  checkTimeWindow crypto v3Msg
  checkContextName v3Msg
  let (inboundPdu, responseContextName) ← openScopedData crypto v3Msg
  let encoded ← dispatchPduAndEncodeResponse crypto v3Msg.msgId v3Msg.maxSize v3Msg.userName
    responseContextName mib inboundPdu
  .lift (.okOr .discard encoded)

def processSnmpv3Request (frame : Bytes) (mib : Store) (agent : Agent) :
    Res Empty (Option Bytes × Agent) :=
  answerOrReject ((runValidationPipeline crypto frame mib).run agent)

end

section
variable {crypto : Crypto} {agent : Agent} {frame : Bytes} {mib : Store} {msg : V3InboundMessage}

theorem dispatchPduAndEncodeResponse_eq (hstore : mib.size < 2 ^ 40) (msgId maxSize : Int32)
    (userName contextName : Bytes) {pdu : InboundPdu} (hpdu : pdu.varbinds.length ≤ 2 ^ 16) :
    dispatchPduAndEncodeResponse crypto msgId maxSize userName contextName mib pdu =
      SnmpAgent.dispatchPduAndEncodeResponse crypto msgId maxSize userName contextName mib pdu := by
  rw [dispatchPduAndEncodeResponse, handleRequest_eq hstore maxSize hpdu, Act.lift_ok_bind]
  simp only [SnmpAgent.dispatchPduAndEncodeResponse, encodeV3Response_eq]

theorem length_ciphertext_le (hmsg : SnmpAgent.decodeV3Message frame = .ok msg) {ciphertext : Bytes}
    (h : msg.scopedData = .encrypted ciphertext) : ciphertext.length ≤ frame.length := by
  obtain ⟨env, M⟩ := isInbound_of_decode hmsg
  have hpayload := decodeV3Envelope_payload (decodeV3Envelope_eq_ok.mpr M.envelope)
  have hdata := M.scopedData
  cases hd : env.scopedData with
  | plaintext contextEngineId contextName rawPdu =>
    rw [hd, h] at hdata
    simp [SnmpAgent.decodeScopedData, Res.bind_eq_ok] at hdata
  | encrypted ciphertext' =>
    rw [hd, h, SnmpAgent.decodeScopedData, Res.ok.injEq] at hdata
    rw [hd] at hpayload
    cases (Prod.mk.inj (Prod.mk.inj hdata).2).2
    exact hpayload

theorem openScopedData_eq (hlen : frame.length ≤ isizeMax)
    (hmsg : SnmpAgent.decodeV3Message frame = .ok msg) :
    openScopedData crypto msg = SnmpAgent.openScopedData crypto msg := by
  unfold openScopedData SnmpAgent.openScopedData
  cases hdata : msg.scopedData with
  | plaintext pdu => rfl
  | encrypted ciphertext =>
    exact decryptScopedPdu_eq crypto _ _ _ _ _ ((length_ciphertext_le hmsg hdata).trans hlen)

/-- What follows the checks. -/
def answer (crypto : Crypto) (mib : Store) (msg : V3InboundMessage) (r : InboundPdu × Bytes) :
    Act Agent Reject Bytes := do
  let encoded ← dispatchPduAndEncodeResponse crypto msg.msgId msg.maxSize msg.userName r.2 mib r.1
  .lift (.okOr .discard encoded)

theorem runValidationPipeline_of_decode (hlen : frame.length ≤ isizeMax)
    (hmsg : SnmpAgent.decodeV3Message frame = .ok msg) :
    runValidationPipeline crypto frame mib = validate crypto msg >>= answer crypto mib msg := by
  simp only [runValidationPipeline, validate, decodeV3Message_eq hlen, hmsg, Res.mapErr_ok,
    Act.lift_ok_bind, checkMessageEnvelope_eq, checkUserName_eq, checkSecurityLevel_eq,
    verifyAuthentication_eq crypto hmsg, checkTimeWindow_eq, openScopedData_eq hlen hmsg,
    bind_assoc]
  rfl

theorem runValidationPipeline_eq (hframe : frame.length ≤ maxFrameSize)
    (hstore : mib.size < 2 ^ 40) :
    (runValidationPipeline crypto frame mib).run agent =
      (SnmpAgent.runValidationPipeline crypto frame mib).run agent := by
  have hlen : frame.length ≤ isizeMax := hframe.trans (by decide)
  cases hmsg : SnmpAgent.decodeV3Message frame with
  | ok msg =>
    rw [runValidationPipeline_of_decode hlen hmsg, SnmpAgent.runValidationPipeline_eq hmsg,
      StateT.run_bind, StateT.run_bind]
    refine Res.bind_congr fun p hp => ?_
    -- Only a request that passed the checks is answered, and it came in the frame.
    have hwithin := (within_of_admission hmsg (decides_validate.eq_ok hp)).1
    have hpdu : p.1.1.varbinds.length ≤ 2 ^ 16 :=
      hwithin.length_le.trans (hframe.trans (by decide))
    rw [answer, SnmpAgent.answer, dispatchPduAndEncodeResponse_eq hstore _ _ _ _ hpdu]
  | _ =>
    simp only [runValidationPipeline, SnmpAgent.runValidationPipeline, decodeV3Message_eq hlen,
      hmsg, StateT.run_bind, Act.run_lift, Res.mapErr_err, Res.mapErr_panic, Res.err_bind,
      Res.panic_bind]

theorem processSnmpv3Request_eq (hframe : frame.length ≤ maxFrameSize)
    (hstore : mib.size < 2 ^ 40) :
    processSnmpv3Request crypto frame mib agent =
      SnmpAgent.processSnmpv3Request crypto frame mib agent :=
  congrArg answerOrReject (runValidationPipeline_eq hframe hstore)

end

/-! ## The functions one by one -/

/-- With overflow checks a reader does what it does without them, and it stays inside the
message. -/
structure ReaderAgrees (n : Nat) (r : BerReader) : Prop where
  offset : (Debug.offset r : Res BerError Nat) = .ok r.offset
  peekTag : Debug.peekTag r = r.peekTag
  readTlv : Debug.readTlv.run r = BerReader.readTlv.run r
  readExpectedTlv : ∀ tag name,
    (Debug.readExpectedTlv tag name).run r = (BerReader.readExpectedTlv tag name).run r
  readConstructed : ∀ tag, (Debug.readConstructed tag).run r = (BerReader.readConstructed tag).run r
  readInteger : Debug.readInteger.run r = BerReader.readInteger.run r
  readOid : Debug.readOid.run r = BerReader.readOid.run r
  inside_readTlv : ∀ p r', BerReader.readTlv.run r = .ok (p, r') →
    r'.Inside n ∧ p.2.length ≤ r'.position
  inside_readExpectedTlv : ∀ tag name p r',
    (BerReader.readExpectedTlv tag name).run r = .ok (p, r') →
      r'.Inside n ∧ p.2.length ≤ r'.position
  inside_readConstructed : ∀ tag sub r', (BerReader.readConstructed tag).run r = .ok (sub, r') →
    r'.Inside n ∧ sub.Inside n
  /-- The reader over the contents of an OCTET STRING that ends at the cursor. -/
  inside_newWithOffset : ∀ v : Bytes, v.length ≤ r.position →
    (BerReader.newWithOffset v (r.offset - v.length)).Inside n

theorem readerAgrees {n : Nat} (hn : n ≤ isizeMax) {r : BerReader} (hr : r.Inside n) :
    ReaderAgrees n r where
  offset := offset_eq hn hr
  peekTag := peekTag_eq hn hr
  readTlv := (agree_readTlv hn r hr).1
  readExpectedTlv tag name := (agree_readExpectedTlv hn tag name r hr).1
  readConstructed tag := (agree_readConstructed hn tag r hr).1
  readInteger := (agree_readInteger hn r hr).1
  readOid := (agree_readOid hn r hr).1
  inside_readTlv := (agree_readTlv hn r hr).2
  inside_readExpectedTlv tag name := (agree_readExpectedTlv hn tag name r hr).2
  inside_readConstructed tag := (agree_readConstructed hn tag r hr).2
  inside_newWithOffset _ := hr.sub

/-- On the way of a frame the checks of a debug build pass. -/
structure Agrees (crypto : Crypto) (frame : Bytes) (mib : Store) (inputs : DispatchInputs) :
    Prop where
  /-- Readers start inside the bytes that they read, the frame or a message just encoded. -/
  inside_new : ∀ bytes, (BerReader.new bytes).Inside bytes.length
  reader : ∀ n ≤ isizeMax, ∀ r : BerReader, r.Inside n → ReaderAgrees n r
  decodeSignedI32 : ∀ bytes off,
    Debug.decodeSignedI32 bytes off = SnmpAgent.decodeSignedI32 bytes off
  decodeUnsigned : ∀ width ≤ 8, ∀ bytes off,
    Debug.decodeUnsigned width bytes off = SnmpAgent.decodeUnsigned width bytes off
  decodeOid : ∀ bytes off, bytes.length ≤ isizeMax →
    Debug.decodeOid bytes off = SnmpAgent.decodeOid bytes off
  encodeLength : ∀ dest length,
    (Debug.encodeLength dest length : Res Empty Bytes) = SnmpAgent.encodeLength dest length
  encodeOid : ∀ oid, (Debug.encodeOid oid : Res Empty Bytes) = .ok (SnmpAgent.encodeOid oid)
  verifyHmac : ∀ msg, SnmpAgent.decodeV3Message frame = .ok msg → ∀ protocol key,
    let authParams := (msg.usm.authParams.map (·.bytes)).getD []
    (Debug.verifyHmac crypto protocol key msg.rawMessage authParams msg.authParamsOffset :
      Res Empty Bool) =
        .ok (SnmpAgent.verifyHmac crypto protocol key msg.rawMessage authParams
          msg.authParamsOffset)
  securityLevel : ∀ user ∈ inputs.usmUser,
    (Debug.securityLevel user : Res Empty SecurityLevel) = .ok user.securityLevel
  isInTimeWindow : ∀ msgBoots msgTime engineBoots engineTime,
    (Debug.isInTimeWindow msgBoots msgTime engineBoots engineTime : Res Empty Bool) =
      .ok (SnmpAgent.isInTimeWindow msgBoots msgTime engineBoots engineTime)
  handleRequest : ∀ msg r, SnmpAgent.decodeV3Message frame = .ok msg →
    admission crypto inputs msg = .ok r →
      (Debug.handleRequest msg.maxSize mib r.1 : Res Empty GetResponse) =
        .ok (SnmpAgent.handleRequest msg.maxSize mib r.1)

end Debug

/-- **No input crashes the agent.** Whatever a frame of at most 65535 bytes holds, its dispatch
returns. The dispatch with overflow checks and debug assertions gives the same answer and the same
next state, since each function on its way does. An engine ID has at most 32 octets; here it is any
slice with less than `2 ^ 60` bytes. -/
theorem dispatch_never_panics (crypto : Crypto) (frame : Bytes) (mib : Store) (agent : Agent)
    (hframe : frame.length ≤ maxFrameSize) (hengine : agent.ctx.inputs.engineId.length < 2 ^ 60)
    (hstore : mib.size < 2 ^ 40) :
    (processSnmpv3Request crypto frame mib agent).Returns ∧
      Debug.Agrees crypto frame mib agent.ctx.inputs ∧
      Debug.processSnmpv3Request crypto frame mib agent =
        processSnmpv3Request crypto frame mib agent := by
  refine ⟨returns_processSnmpv3Request hframe hengine hstore, ?_,
    Debug.processSnmpv3Request_eq hframe hstore⟩
  exact {
    inside_new := BerReader.inside_new
    reader := fun n hn r hr => Debug.readerAgrees hn hr
    decodeSignedI32 := Debug.decodeSignedI32_eq
    decodeUnsigned := fun width hwidth => Debug.decodeUnsigned_eq hwidth
    decodeOid := fun bytes off => Debug.decodeOid_eq off
    encodeLength := Debug.encodeLength_eq
    encodeOid := Debug.encodeOid_eq
    verifyHmac := fun msg hmsg protocol key =>
      Debug.verifyHmac_eq crypto protocol key msg.rawMessage (authParams_ne_nil hmsg)
    securityLevel := fun user _ => Debug.securityLevel_eq user
    isInTimeWindow := Debug.isInTimeWindow_eq
    handleRequest := fun msg r hmsg hadm =>
      Debug.handleRequest_eq hstore msg.maxSize
        ((within_of_admission hmsg hadm).1.length_le.trans (hframe.trans (by decide))) }

/-- The hypotheses hold of the sample agent. -/
theorem dispatch_never_panics_sample :
    (processSnmpv3Request Sample.crypto Sample.plainFrame Sample.longStore
      (Sample.agent none .noAuthNoPriv)).Returns ∧
      Debug.Agrees Sample.crypto Sample.plainFrame Sample.longStore
        (Sample.inputs none .noAuthNoPriv) ∧
      Debug.processSnmpv3Request Sample.crypto Sample.plainFrame Sample.longStore
          (Sample.agent none .noAuthNoPriv) =
        processSnmpv3Request Sample.crypto Sample.plainFrame Sample.longStore
          (Sample.agent none .noAuthNoPriv) :=
  dispatch_never_panics Sample.crypto Sample.plainFrame Sample.longStore
    (Sample.agent none .noAuthNoPriv) (by decide +kernel) (by decide +kernel) (by decide +kernel)

end SnmpAgent
