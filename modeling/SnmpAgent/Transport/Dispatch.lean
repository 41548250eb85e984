import SnmpAgent.Transport.Request

/-!
# Dispatch of a frame
(`transport/dispatch.rs`, `dispatch/dispatch_context.rs`, `dispatch/report.rs`)

A frame is decoded, validated by an ordered list of checks, answered and encoded. The checks act on
the `Agent`: the dispatch context with its counters, and the salt counter of the process. A failed
check ends with a `Reject`, after it has counted. Log lines are left out, and so are debug
assertions.
-/

namespace SnmpAgent
open Rust

/-! ## Context -/

structure DispatchInputs where
  engineId : Bytes
  engineBoots : UInt32
  engineTime : UInt32
  unknownEngineIdsCounter : UsmStatsCounter
  unknownUserNamesCounter : UsmStatsCounter
  unsupportedSecLevelsCounter : UsmStatsCounter
  wrongDigestsCounter : UsmStatsCounter
  notInTimeWindowsCounter : UsmStatsCounter
  decryptionErrorsCounter : UsmStatsCounter
  unknownSecurityModelsCounter : UsmStatsCounter
  usmUser : Option UsmUser
  minimumSecurityLevel : SecurityLevel
  deriving DecidableEq

def DispatchInputs.shouldRejectSecurityLevel (inputs : DispatchInputs)
    (msgLevel : Except InvalidMsgFlags SecurityLevel) : Bool :=
  match msgLevel with
  | .error _ => true
  | .ok level =>
    decide (level < inputs.minimumSecurityLevel)
    || inputs.usmUser.any (fun user => decide (level > user.securityLevel))
    || (inputs.usmUser.isNone && decide (level > .noAuthNoPriv))

structure DispatchContext where
  inputs : DispatchInputs
  deriving DecidableEq

structure NoUserSecurityLevelError where
  deriving DecidableEq

namespace DispatchContext

def newUnchecked (inputs : DispatchInputs) : DispatchContext := ⟨inputs⟩

def new (inputs : DispatchInputs) : Except NoUserSecurityLevelError DispatchContext :=
  if securityLevelRequiresUser inputs.usmUser inputs.minimumSecurityLevel then .error ⟨⟩
  else .ok (newUnchecked inputs)

end DispatchContext

/-- The counters, one for each `select_counter` closure of the source. -/
inductive StatsCounter where
  | unknownEngineIds
  | unknownUserNames
  | unsupportedSecLevels
  | wrongDigests
  | notInTimeWindows
  | decryptionErrors
  | unknownSecurityModels
  deriving DecidableEq

namespace StatsCounter

def select : StatsCounter → DispatchInputs → UsmStatsCounter
  | unknownEngineIds, inputs => inputs.unknownEngineIdsCounter
  | unknownUserNames, inputs => inputs.unknownUserNamesCounter
  | unsupportedSecLevels, inputs => inputs.unsupportedSecLevelsCounter
  | wrongDigests, inputs => inputs.wrongDigestsCounter
  | notInTimeWindows, inputs => inputs.notInTimeWindowsCounter
  | decryptionErrors, inputs => inputs.decryptionErrorsCounter
  | unknownSecurityModels, inputs => inputs.unknownSecurityModelsCounter

def update (f : UsmStatsCounter → UsmStatsCounter) : StatsCounter → DispatchInputs → DispatchInputs
  | unknownEngineIds, inputs =>
    { inputs with unknownEngineIdsCounter := f inputs.unknownEngineIdsCounter }
  | unknownUserNames, inputs =>
    { inputs with unknownUserNamesCounter := f inputs.unknownUserNamesCounter }
  | unsupportedSecLevels, inputs =>
    { inputs with unsupportedSecLevelsCounter := f inputs.unsupportedSecLevelsCounter }
  | wrongDigests, inputs => { inputs with wrongDigestsCounter := f inputs.wrongDigestsCounter }
  | notInTimeWindows, inputs =>
    { inputs with notInTimeWindowsCounter := f inputs.notInTimeWindowsCounter }
  | decryptionErrors, inputs =>
    { inputs with decryptionErrorsCounter := f inputs.decryptionErrorsCounter }
  | unknownSecurityModels, inputs =>
    { inputs with unknownSecurityModelsCounter := f inputs.unknownSecurityModelsCounter }

end StatsCounter

def unsupportedSecLevelsOid : Oid := ⟨[1, 3, 6, 1, 6, 3, 15, 1, 1, 1, 0], rfl⟩
def notInTimeWindowsOid : Oid := ⟨[1, 3, 6, 1, 6, 3, 15, 1, 1, 2, 0], rfl⟩
def unknownUserNamesOid : Oid := ⟨[1, 3, 6, 1, 6, 3, 15, 1, 1, 3, 0], rfl⟩
def unknownEngineIdsOid : Oid := ⟨[1, 3, 6, 1, 6, 3, 15, 1, 1, 4, 0], rfl⟩
def wrongDigestsOid : Oid := ⟨[1, 3, 6, 1, 6, 3, 15, 1, 1, 5, 0], rfl⟩
def decryptionErrorsOid : Oid := ⟨[1, 3, 6, 1, 6, 3, 15, 1, 1, 6, 0], rfl⟩
def unknownSecurityModelsOid : Oid := ⟨[1, 3, 6, 1, 6, 3, 11, 2, 1, 1, 0], rfl⟩

/-! ## Rejection -/

/-- What a dispatch acts on. -/
structure Agent where
  ctx : DispatchContext
  salt : SaltCounter
  deriving DecidableEq

inductive Reject where
  | report (encodedReport : Bytes)
  | discard
  deriving DecidableEq

def Reject.toOption : Reject → Option Bytes
  | report encodedReport => some encodedReport
  | discard => none

/-- The `match` of `process_snmpv3_request`. Nothing escapes from a dispatch but a panic. -/
def answerOrReject :
    Res (Reject × Agent) (Bytes × Agent) → Res Empty (Option Bytes × Agent)
  | .ok (response, agent) => .ok (some response, agent)
  | .err (reject, agent) => .ok (reject.toOption, agent)
  | .panic => .panic

/-- Run an encoder on the salt counter of the process; its error is dropped (`.ok()`). -/
def Agent.encode {ε : Type} (x : Act SaltCounter EncodeError Bytes) : Act Agent ε (Option Bytes) :=
  fun agent =>
    match x.run agent.salt with
    | .ok (bytes, salt) => .ok (some bytes, { agent with salt })
    | .err (_, salt) => .ok (none, { agent with salt })
    | .panic => .panic

theorem Agent.run_encode {ε : Type} (x : Act SaltCounter EncodeError Bytes) (agent : Agent) :
    (Agent.encode x : Act Agent ε (Option Bytes)).run agent =
      match x.run agent.salt with
      | .ok (bytes, salt) => .ok (some bytes, { agent with salt })
      | .err (_, salt) => .ok (none, { agent with salt })
      | .panic => .panic := rfl

def Agent.count (counter : StatsCounter) (agent : Agent) : Agent :=
  { agent with ctx := ⟨counter.update UsmStatsCounter.saturatingIncrement agent.ctx.inputs⟩ }

/-- The constants of the agent. -/
def maxBulkRepetitions : UInt32 := 100
def maxFrameSize : Nat := 0xFFFF

section
variable (crypto : Crypto)

def emitReportResponse {ε : Type} (counter : StatsCounter) (counterOid : Oid) (msgId : Int32)
    (securityFlags : MsgFlags) : Act Agent ε Reject := do
  modify (Agent.count counter)
  let inputs := (← get).ctx.inputs
  let counterValue := counter.select inputs
  if !securityFlags.isReportable then return .discard
  else
    let encoded ← Agent.encode (encodeV3Report crypto msgId inputs.engineId inputs.engineBoots
      inputs.engineTime counterOid counterValue.value)
    return encoded.elim .discard .report

/-- `return Err(emit_report_response(..))`. -/
def rejectWithReport {α : Type} (counter : StatsCounter) (counterOid : Oid) (msgId : Int32)
    (securityFlags : MsgFlags) : Act Agent Reject α := do
  .fail (← emitReportResponse crypto counter counterOid msgId securityFlags)

/-! ## Checks -/

def checkMessageEnvelope (v3Msg : V3InboundMessage) : Act Agent Reject Unit := do
  let inputs := (← get).ctx.inputs
  if !v3Msg.securityModel.isUsm then
    rejectWithReport crypto .unknownSecurityModels unknownSecurityModelsOid v3Msg.msgId
      v3Msg.usm.securityFlags
  else if v3Msg.usm.authEngineId.isEmpty then
    rejectWithReport crypto .unknownEngineIds unknownEngineIdsOid v3Msg.msgId
      v3Msg.usm.securityFlags
  else if v3Msg.engineId ≠ inputs.engineId then
    rejectWithReport crypto .unknownEngineIds unknownEngineIdsOid v3Msg.msgId
      v3Msg.usm.securityFlags
  else return ()

def checkUserName (v3Msg : V3InboundMessage) : Act Agent Reject Unit := do
  let inputs := (← get).ctx.inputs
  let nameMatches := inputs.usmUser.all fun user => v3Msg.userName == user.name.asBytes
  if !nameMatches then
    rejectWithReport crypto .unknownUserNames unknownUserNamesOid v3Msg.msgId
      v3Msg.usm.securityFlags
  else return ()

def checkSecurityLevel (v3Msg : V3InboundMessage) : Act Agent Reject Unit := do
  let inputs := (← get).ctx.inputs
  let msgLevel := v3Msg.usm.securityFlags.securityLevel
  if inputs.shouldRejectSecurityLevel msgLevel then
    rejectWithReport crypto .unsupportedSecLevels unsupportedSecLevelsOid v3Msg.msgId
      v3Msg.usm.securityFlags
  else return ()

def checkPrivFlagAgreement (v3Msg : V3InboundMessage) : Act Agent Reject Unit :=
  if v3Msg.usm.securityFlags.isPriv = v3Msg.scopedData.isEncrypted then return ()
  else .fail .discard

/-- A copy of the message with `authParamsLen` zeros at the offset, if that range is inside it. -/
def zeroAuthParamsInMessage (rawMessage : Bytes) (authParamsOffset authParamsLen : Nat) : Bytes :=
  match checkedAdd authParamsOffset authParamsLen with
  | some last =>
    if last ≤ rawMessage.length then
      overwrite rawMessage authParamsOffset (.replicate authParamsLen 0)
    else rawMessage
  | none => rawMessage

def verifyHmac (authProtocol : AuthProtocol) (authKey rawMessage authParams : Bytes)
    (authParamsOffset : Option Nat) : Bool :=
  match authParamsOffset with
  | none => false
  | some offset =>
    let zeroed := zeroAuthParamsInMessage rawMessage offset authParams.length
    authProtocol.verifyMac crypto authKey zeroed authParams == .ok ()

def verifyAuthentication (v3Msg : V3InboundMessage) : Act Agent Reject Unit := do
  let inputs := (← get).ctx.inputs
  match inputs.usmUser.bind UsmUser.auth with
  | none => return ()
  | some (authProtocol, authKey) =>
    -- A missing field counts as an empty MAC.
    let authParamsBytes := (v3Msg.usm.authParams.map (·.bytes)).getD []
    let hmacValid := verifyHmac crypto authProtocol authKey v3Msg.rawMessage authParamsBytes
      v3Msg.authParamsOffset
    if !hmacValid then
      rejectWithReport crypto .wrongDigests wrongDigestsOid v3Msg.msgId v3Msg.usm.securityFlags
    else return ()

def checkTimeWindow (v3Msg : V3InboundMessage) : Act Agent Reject Unit := do
  let inputs := (← get).ctx.inputs
  match inputs.usmUser.bind UsmUser.authProtocol with
  | none => return ()
  | some _ =>
    let inTimeWindow := isInTimeWindow v3Msg.usm.authEngineBoots v3Msg.usm.authEngineTime
      inputs.engineBoots inputs.engineTime
    if !inTimeWindow then
      rejectWithReport crypto .notInTimeWindows notInTimeWindowsOid v3Msg.msgId
        v3Msg.usm.securityFlags
    else return ()

def checkContextName (v3Msg : V3InboundMessage) : Act Agent Reject Unit :=
  if v3Msg.contextName.isEmpty then return () else .fail .discard

/-- Decrypt and decode the payload, and check what the envelope could not show. -/
def decryptScopedPdu (msgId : Int32) (securityFlags : MsgFlags) (privParams : Option PrivacySalt)
    (authEngineBoots authEngineTime : UInt32) (ciphertext : Bytes) :
    Act Agent Reject (InboundPdu × Bytes) := do
  let inputs := (← get).ctx.inputs
  match inputs.usmUser.bind UsmUser.privacy with
  | none => .fail .discard
  | some (privProtocol, privKey) =>
    match privParams with
    | none => rejectWithReport crypto .decryptionErrors decryptionErrorsOid msgId securityFlags
    | some privSalt =>
      let iv := aesIv authEngineBoots authEngineTime privSalt
      match privProtocol.decrypt crypto iv privKey ciphertext with
      | .panic => .lift .panic
      | .err _ => rejectWithReport crypto .decryptionErrors decryptionErrorsOid msgId securityFlags
      | .ok scopedPduBytes =>
        match decodeScopedPdu scopedPduBytes with
        | .panic => .lift .panic
        | .err _ =>
          rejectWithReport crypto .decryptionErrors decryptionErrorsOid msgId securityFlags
        | .ok decoded =>
          if decoded.contextEngineId ≠ inputs.engineId then
            rejectWithReport crypto .unknownEngineIds unknownEngineIdsOid msgId securityFlags
          else if !decoded.contextName.isEmpty then .fail .discard
          else return (decoded.pdu, decoded.contextName)

/-! ## The pipeline -/

/-- The handler for a PDU, bounded by the sender's `msgMaxSize` and the agent's own frame limit. -/
def handleRequest (maxSize : Int32) (mib : Store) : InboundPdu → GetResponse
  | .getRequest req => handleGet req mib
  | .getNextRequest req => handleGetNext req mib
  | .getBulkRequest req =>
    let effectiveMaxSize := min maxSize.toInt.toNat maxFrameSize
    handleGetBulk req mib maxBulkRepetitions effectiveMaxSize
  | .setRequest req => handleSet req

/-- The envelope of a response: the request's msgID, user and context, and the security of the
configured user. -/
def responseParams (inputs : DispatchInputs) (msgId : Int32) (userName contextName : Bytes) :
    V3Params where
  msgId := msgId
  engineId := inputs.engineId
  userName := userName
  contextName := contextName
  engineBoots := inputs.engineBoots
  engineTime := inputs.engineTime
  auth := inputs.usmUser.bind UsmUser.auth
  privacy := inputs.usmUser.bind UsmUser.privacy

def dispatchPduAndEncodeResponse (msgId maxSize : Int32) (userName contextName : Bytes)
    (mib : Store) (inboundPdu : InboundPdu) : Act Agent Reject (Option Bytes) := do
  let response := handleRequest maxSize mib inboundPdu
  let inputs := (← get).ctx.inputs
  Agent.encode (encodeV3Response crypto (responseParams inputs msgId userName contextName) response)

/-- The PDU with its effective context name. -/
def openScopedData (v3Msg : V3InboundMessage) : Act Agent Reject (InboundPdu × Bytes) :=
  match v3Msg.scopedData with
  | .plaintext pdu => return (pdu, v3Msg.contextName)
  | .encrypted ciphertext =>
    decryptScopedPdu crypto v3Msg.msgId v3Msg.usm.securityFlags v3Msg.usm.privParams
      v3Msg.usm.authEngineBoots v3Msg.usm.authEngineTime ciphertext

def runValidationPipeline (frame : Bytes) (mib : Store) : Act Agent Reject Bytes := do
  let v3Msg ← .lift ((decodeV3Message frame).mapErr fun _ => Reject.discard)
  checkMessageEnvelope crypto v3Msg
  checkUserName crypto v3Msg
  checkSecurityLevel crypto v3Msg
  checkPrivFlagAgreement v3Msg
  verifyAuthentication crypto v3Msg
  checkTimeWindow crypto v3Msg
  checkContextName v3Msg
  let (inboundPdu, responseContextName) ← openScopedData crypto v3Msg
  let encoded ← dispatchPduAndEncodeResponse crypto v3Msg.msgId v3Msg.maxSize v3Msg.userName
    responseContextName mib inboundPdu
  .lift (.okOr .discard encoded)

def processSnmpv3Request (frame : Bytes) (mib : Store) (agent : Agent) :
    Res Empty (Option Bytes × Agent) :=
  answerOrReject ((runValidationPipeline crypto frame mib).run agent)

end

end SnmpAgent
