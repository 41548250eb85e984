import SnmpAgent.Codec.MessageLemmas
import SnmpAgent.Transport.Dispatch

/-!
# Validation as a decision

The checks of the pipeline act on counters and encode reports. What they decide is a pure function
of the message and of the configuration: `admission` names the first check that fails, or returns
the request that goes to the handlers. The pipeline refines it: `processSnmpv3Request_rejected` and
`processSnmpv3Request_admitted` give the outcome of a dispatch for each decision.
-/

namespace SnmpAgent
open Rust

/-! ## Decisions -/

/-- The checks, in the order in which they are made. The last four are about encrypted payloads. -/
inductive Check where
  | securityModel
  | discovery
  | engineId
  | userName
  | securityLevel
  | privFlag
  | digest
  | timeWindow
  | contextName
  | privCredentials
  | decryption
  | contextEngineId
  | scopedContextName
  deriving DecidableEq

/-- The counter and its identifier for the checks that report; the others discard silently. -/
def Check.report? : Check → Option (StatsCounter × Oid)
  | .securityModel => some (.unknownSecurityModels, unknownSecurityModelsOid)
  | .discovery | .engineId | .contextEngineId => some (.unknownEngineIds, unknownEngineIdsOid)
  | .userName => some (.unknownUserNames, unknownUserNamesOid)
  | .securityLevel => some (.unsupportedSecLevels, unsupportedSecLevelsOid)
  | .digest => some (.wrongDigests, wrongDigestsOid)
  | .timeWindow => some (.notInTimeWindows, notInTimeWindowsOid)
  | .decryption => some (.decryptionErrors, decryptionErrorsOid)
  | .privFlag | .contextName | .privCredentials | .scopedContextName => none

def ensure (holds : Bool) (check : Check) : Res Check Unit := if holds then .ok () else .err check

theorem ensure_eq_ok {holds : Bool} {check : Check} {u : Unit} :
    ensure holds check = .ok u ↔ holds = true := by
  cases holds <;> simp [ensure]

namespace DispatchInputs
variable (inputs : DispatchInputs) (crypto : Crypto) (msg : V3InboundMessage)

def nameMatches : Bool := inputs.usmUser.all fun user => msg.userName == user.name.asBytes

/-- The MAC is right, or the configured user has no authentication. -/
def digestValid : Bool :=
  match inputs.usmUser.bind UsmUser.auth with
  | none => true
  | some (authProtocol, authKey) =>
    verifyHmac crypto authProtocol authKey msg.rawMessage
      ((msg.usm.authParams.map (·.bytes)).getD []) msg.authParamsOffset

/-- The message is in the time window, or the configured user has no authentication. -/
def timely : Bool :=
  match inputs.usmUser.bind UsmUser.authProtocol with
  | none => true
  | some _ => isInTimeWindow msg.usm.authEngineBoots msg.usm.authEngineTime inputs.engineBoots
      inputs.engineTime

/-- The request inside an encrypted payload. -/
def decrypted (ciphertext : Bytes) : Res Check (InboundPdu × Bytes) :=
  match inputs.usmUser.bind UsmUser.privacy, msg.usm.privParams with
  | none, _ => .err .privCredentials
  | some _, none => .err .decryption
  | some (privProtocol, privKey), some privSalt => do
    let iv := aesIv msg.usm.authEngineBoots msg.usm.authEngineTime privSalt
    let scopedPduBytes ←
      (privProtocol.decrypt crypto iv privKey ciphertext).mapErr fun _ => .decryption
    let decoded ← (decodeScopedPdu scopedPduBytes).mapErr fun _ => .decryption
    ensure (decoded.contextEngineId = inputs.engineId) .contextEngineId
    ensure decoded.contextName.isEmpty .scopedContextName
    .ok (decoded.pdu, decoded.contextName)

/-- The request inside the payload, with its context name. -/
def opened : Res Check (InboundPdu × Bytes) :=
  match msg.scopedData with
  | .plaintext pdu => .ok (pdu, msg.contextName)
  | .encrypted ciphertext => inputs.decrypted crypto msg ciphertext

end DispatchInputs

/-- The first failing check, or the request to be served with its context name. -/
def admission (crypto : Crypto) (inputs : DispatchInputs) (msg : V3InboundMessage) :
    Res Check (InboundPdu × Bytes) := do
  ensure msg.securityModel.isUsm .securityModel
  ensure (!msg.usm.authEngineId.isEmpty) .discovery
  ensure (msg.engineId = inputs.engineId) .engineId
  ensure (inputs.nameMatches msg) .userName
  ensure (!inputs.shouldRejectSecurityLevel msg.usm.securityFlags.securityLevel) .securityLevel
  ensure (msg.usm.securityFlags.isPriv = msg.scopedData.isEncrypted) .privFlag
  ensure (inputs.digestValid crypto msg) .digest
  ensure (inputs.timely msg) .timeWindow
  ensure msg.contextName.isEmpty .contextName
  inputs.opened crypto msg

theorem admission_eq_ok {crypto : Crypto} {inputs : DispatchInputs} {msg : V3InboundMessage}
    {r : InboundPdu × Bytes} :
    admission crypto inputs msg = .ok r ↔ msg.securityModel.isUsm ∧ msg.usm.authEngineId ≠ [] ∧
      msg.engineId = inputs.engineId ∧ inputs.nameMatches msg ∧
      inputs.shouldRejectSecurityLevel msg.usm.securityFlags.securityLevel = false ∧
      msg.usm.securityFlags.isPriv = msg.scopedData.isEncrypted ∧ inputs.digestValid crypto msg ∧
      inputs.timely msg ∧ msg.contextName = [] ∧ inputs.opened crypto msg = .ok r := by
  simp [admission, Res.bind_eq_ok, ensure_eq_ok]

/-! ## The checks refine the decision -/

section
variable {crypto : Crypto} {agent : Agent} {msg : V3InboundMessage} {α β : Type}

/-- What the pipeline does when a check fails. -/
def Check.reject (crypto : Crypto) (msg : V3InboundMessage) (check : Check) : Act Agent Reject α :=
  match check.report? with
  | some (counter, oid) => rejectWithReport crypto counter oid msg.msgId msg.usm.securityFlags
  | none => .fail .discard

/-- The action decides as `d` does: it leaves the agent alone, or it rejects by the named check. -/
def Decides (crypto : Crypto) (agent : Agent) (msg : V3InboundMessage) (x : Act Agent Reject α)
    (d : Res Check α) : Prop :=
  x.run agent =
    match d with
    | .ok a => .ok (a, agent)
    | .err check => (check.reject crypto msg).run agent
    | .panic => .panic

theorem Check.reject_bind (check : Check) (f : α → Act Agent Reject β) :
    (check.reject crypto msg >>= f).run agent = (check.reject crypto msg).run agent := by
  unfold Check.reject
  cases check.report? with
  | none => rfl
  | some r =>
    simp only [rejectWithReport, bind_assoc]
    rfl

theorem Decides.bind {x : Act Agent Reject α} {d : Res Check α} {f : α → Act Agent Reject β}
    {g : α → Res Check β} (hx : Decides crypto agent msg x d)
    (hf : ∀ a, Decides crypto agent msg (f a) (g a)) :
    Decides crypto agent msg (x >>= f) (d >>= g) := by
  unfold Decides at hx ⊢
  cases d with
  | ok a =>
    rw [StateT.run_bind, hx, Res.ok_bind, Res.ok_bind]
    exact hf a
  | err check =>
    rw [StateT.run_bind, hx, Res.err_bind, ← StateT.run_bind]
    exact check.reject_bind f
  | panic =>
    rw [StateT.run_bind, hx]
    rfl

theorem Check.reject_ne_ok (check : Check) (r : α × Agent) :
    (check.reject crypto msg).run agent ≠ .ok r := by
  unfold Check.reject
  cases check.report? with
  | none => exact nofun
  | some report =>
    intro h
    obtain ⟨reject, agent', -, hfail⟩ := Act.bind_eq_ok.mp h
    cases hfail

theorem Decides.eq_ok {x : Act Agent Reject α} {d : Res Check α} {r : α × Agent}
    (hx : Decides crypto agent msg x d) (h : x.run agent = .ok r) : d = .ok r.1 := by
  unfold Decides at hx
  rw [h] at hx
  cases d with
  | ok a =>
    cases hx
    rfl
  | err check => exact absurd hx.symm (check.reject_ne_ok r)
  | panic => cases hx

theorem Decides.pure (a : α) : Decides crypto agent msg (Pure.pure a) (.ok a) := rfl

/-- A check that is written `if holds { .. } else { return Err(..) }`. -/
theorem Decides.ensure {x : Act Agent Reject Unit} {holds : Bool} {check : Check}
    (hpass : holds = true → x.run agent = .ok ((), agent))
    (hfail : holds = false → x.run agent = (check.reject crypto msg).run agent) :
    Decides crypto agent msg x (ensure holds check) := by
  cases holds with
  | true => exact hpass rfl
  | false => exact hfail rfl

theorem decides_checkMessageEnvelope :
    Decides crypto agent msg (checkMessageEnvelope crypto msg) (do
      ensure msg.securityModel.isUsm .securityModel
      ensure (!msg.usm.authEngineId.isEmpty) .discovery
      ensure (msg.engineId = agent.ctx.inputs.engineId) .engineId) := by
  unfold Decides checkMessageEnvelope
  cases h₁ : msg.securityModel.isUsm with
  | false => rfl
  | true =>
    cases h₂ : msg.usm.authEngineId.isEmpty with
    | true => rfl
    | false =>
      by_cases h₃ : msg.engineId = agent.ctx.inputs.engineId <;>
        simp [ensure, h₃, Check.reject, Check.report?]

theorem decides_checkUserName :
    Decides crypto agent msg (checkUserName crypto msg)
      (ensure (agent.ctx.inputs.nameMatches msg) .userName) := by
  unfold DispatchInputs.nameMatches
  refine .ensure (fun h => ?_) fun h => ?_ <;> simp [checkUserName, h, Check.reject, Check.report?]

theorem decides_checkSecurityLevel :
    Decides crypto agent msg (checkSecurityLevel crypto msg) (ensure
      (!agent.ctx.inputs.shouldRejectSecurityLevel msg.usm.securityFlags.securityLevel)
      .securityLevel) := by
  refine .ensure (fun h => ?_) fun h => ?_ <;>
    simp_all [checkSecurityLevel, Check.reject, Check.report?]

theorem decides_checkPrivFlagAgreement :
    Decides crypto agent msg (checkPrivFlagAgreement msg)
      (ensure (msg.usm.securityFlags.isPriv = msg.scopedData.isEncrypted) .privFlag) := by
  refine .ensure (fun h => ?_) fun h => ?_ <;>
    simp_all [checkPrivFlagAgreement, Check.reject, Check.report?]

theorem decides_verifyAuthentication :
    Decides crypto agent msg (verifyAuthentication crypto msg)
      (ensure (agent.ctx.inputs.digestValid crypto msg) .digest) := by
  unfold Decides verifyAuthentication DispatchInputs.digestValid
  rcases hu : agent.ctx.inputs.usmUser.bind UsmUser.auth with _ | ⟨authProtocol, authKey⟩
  · simp [hu, ensure]
  · cases hv : verifyHmac crypto authProtocol authKey msg.rawMessage
      ((msg.usm.authParams.map (·.bytes)).getD []) msg.authParamsOffset <;>
      simp [hu, hv, ensure, Check.reject, Check.report?]

theorem decides_checkTimeWindow :
    Decides crypto agent msg (checkTimeWindow crypto msg)
      (ensure (agent.ctx.inputs.timely msg) .timeWindow) := by
  unfold Decides checkTimeWindow DispatchInputs.timely
  rcases hu : agent.ctx.inputs.usmUser.bind UsmUser.authProtocol with _ | authProtocol
  · simp [hu, ensure]
  · cases hv : isInTimeWindow msg.usm.authEngineBoots msg.usm.authEngineTime
      agent.ctx.inputs.engineBoots agent.ctx.inputs.engineTime <;>
      simp [hu, hv, ensure, Check.reject, Check.report?]

theorem decides_checkContextName :
    Decides crypto agent msg (checkContextName msg)
      (ensure msg.contextName.isEmpty .contextName) := by
  refine .ensure (fun h => ?_) fun h => ?_ <;>
    simp_all [checkContextName, Check.reject, Check.report?]

theorem decides_decryptScopedPdu (ciphertext : Bytes) :
    Decides crypto agent msg
      (decryptScopedPdu crypto msg.msgId msg.usm.securityFlags msg.usm.privParams
        msg.usm.authEngineBoots msg.usm.authEngineTime ciphertext)
      (agent.ctx.inputs.decrypted crypto msg ciphertext) := by
  unfold Decides decryptScopedPdu DispatchInputs.decrypted
  rcases hp : agent.ctx.inputs.usmUser.bind UsmUser.privacy with _ | ⟨privProtocol, privKey⟩
  · simp [hp, Check.reject, Check.report?]
  rcases hs : msg.usm.privParams with _ | privSalt
  · simp [hp, Check.reject, Check.report?]
  simp only [StateT.run_bind, StateT.run_get, Res.pure_eq, Res.ok_bind, hp]
  cases hd : privProtocol.decrypt crypto
      (aesIv msg.usm.authEngineBoots msg.usm.authEngineTime privSalt) privKey ciphertext with
  | panic => simp
  | err e => simp [Check.reject, Check.report?]
  | ok scopedPduBytes =>
    simp only [Res.mapErr_ok, Res.ok_bind]
    cases decodeScopedPdu scopedPduBytes with
    | panic => simp
    | err e => simp [Check.reject, Check.report?]
    | ok decoded =>
      by_cases h₁ : decoded.contextEngineId = agent.ctx.inputs.engineId <;>
        by_cases h₂ : decoded.contextName = [] <;>
        simp [ensure, h₁, h₂, Check.reject, Check.report?]

theorem decides_openScopedData :
    Decides crypto agent msg (openScopedData crypto msg) (agent.ctx.inputs.opened crypto msg) := by
  unfold openScopedData DispatchInputs.opened
  cases msg.scopedData with
  | plaintext pdu => exact .pure _
  | encrypted ciphertext => exact decides_decryptScopedPdu ciphertext

end

/-! ## Reports and responses on the wire -/

/-- The bytes are a message with a cleartext Report PDU. -/
def isReport (bytes : Bytes) : Bool :=
  match Ber.decodeV3Envelope bytes with
  | .ok { scopedData := .plaintext _ _ rawPdu, .. } => rawPdu.head? == some tagReport
  | _ => false

theorem V3Params.Sealed.isReport_eq {crypto : Crypto} {p : V3Params} {salt : SaltCounter}
    {rawPdu bytes : Bytes} (H : p.Sealed crypto salt rawPdu bytes) :
    isReport bytes = (p.privacy.isNone && rawPdu.head? == some tagReport) := by
  obtain ⟨pre, post, -, -, henv⟩ := H
  rw [isReport, decodeV3Envelope_eq_ok.mpr henv]
  rcases h : p.privacy with _ | ⟨protocol, key⟩ <;>
    simp [V3Params.envelope, envelopeOf, V3Params.scopedData, h]

section
variable {crypto : Crypto} {agent : Agent} {msg : V3InboundMessage} {α : Type}

/-- The agent after a rejection by this check. -/
def Agent.rejectedBy (agent : Agent) (check : Check) : Agent :=
  match check.report? with
  | some (counter, _) => agent.count counter
  | none => agent

theorem wf_reportParams {msgId : Int32} (hid : 0 ≤ msgId.toInt) (engineId : Bytes)
    (engineBoots engineTime : UInt32) : (reportParams msgId engineId engineBoots engineTime).WF :=
  ⟨hid, Nat.zero_le _, nofun, nofun⟩

/-- An encoded report is a report, and no salt is drawn for it. -/
theorem encodeV3Report_cases (crypto : Crypto) {msgId : Int32} (hid : 0 ≤ msgId.toInt)
    (salt : SaltCounter) (engineId : Bytes) (engineBoots engineTime : UInt32) (oid : Oid)
    (value : UInt32) :
    let x := (encodeV3Report crypto msgId engineId engineBoots engineTime oid value).run salt
    x = .panic ∨ (∃ e, x = .err (e, salt)) ∨ ∃ bytes, x = .ok (bytes, salt) ∧ isReport bytes := by
  intro x
  have hx : x = _ := run_encodeV3Report crypto salt msgId engineId engineBoots engineTime oid value
  by_cases hraw : (reportTlv msgId oid value).length ≤ isizeMax
  · rw [capped_of_le hraw, Res.ok_bind] at hx
    have hp := wf_reportParams hid engineId engineBoots engineTime
    by_cases hs : engineBoots < 0x80000000 ∧ engineTime < 0x80000000
    · rw [hx]
      cases henc : (encodeV3Envelope crypto (reportParams msgId engineId engineBoots engineTime)
          (reportTlv msgId oid value)).run salt with
      | panic => exact .inl rfl
      | ok r =>
        obtain ⟨-, hsalt, hsealed, -⟩ := encodeV3Envelope_inv hp henc
        refine .inr (.inr ⟨r.1, ?_, hsealed.isReport_eq⟩)
        rw [← show r.2 = salt from hsalt]
      | err e => exact absurd henc (encodeV3Envelope_ne_err hp ⟨hs.1, hs.2, nofun⟩ e)
    · obtain ⟨e, he⟩ := encodeV3Envelope_err
        (p := reportParams msgId engineId engineBoots engineTime) crypto salt
        (reportTlv msgId oid value) hs
      exact .inr (.inl ⟨e, hx.trans he⟩)
  · rw [capped, if_neg hraw, Res.panic_bind] at hx
    exact .inl hx

theorem emitReportResponse_cases {ε : Type} {msgId : Int32} (hid : 0 ≤ msgId.toInt)
    (counter : StatsCounter) (oid : Oid) (flags : MsgFlags) :
    let x := (emitReportResponse crypto counter oid msgId flags : Act Agent ε Reject).run agent
    x = .panic ∨ ∃ reject, x = .ok (reject, agent.count counter) ∧
      ∀ bytes, reject = .report bytes → isReport bytes := by
  intro x
  cases hflag : flags.isReportable with
  | false =>
    refine .inr ⟨.discard, ?_, nofun⟩
    simp [x, emitReportResponse, hflag]
  | true =>
    have hcases := encodeV3Report_cases crypto hid (agent.count counter).salt
      (agent.count counter).ctx.inputs.engineId (agent.count counter).ctx.inputs.engineBoots
      (agent.count counter).ctx.inputs.engineTime oid
      (counter.select (agent.count counter).ctx.inputs).value
    rcases hcases with h | ⟨e, h⟩ | ⟨bytes, h, hreport⟩
    · refine .inl ?_
      simp [x, emitReportResponse, hflag, Agent.run_encode, h]
    · refine .inr ⟨.discard, ?_, nofun⟩
      simp [x, emitReportResponse, hflag, Agent.run_encode, h]
    · refine .inr ⟨.report bytes, ?_, fun _ h' => by cases h'; exact hreport⟩
      simp [x, emitReportResponse, hflag, Agent.run_encode, h]

/-- A rejection counts, and what it sends is a report. -/
theorem Check.reject_cases (crypto : Crypto) (agent : Agent) (check : Check)
    (hid : 0 ≤ msg.msgId.toInt) :
    let x := (check.reject crypto msg : Act Agent Reject α).run agent
    x = .panic ∨ ∃ reject, x = .err (reject, agent.rejectedBy check) ∧
      ∀ bytes, reject = .report bytes → isReport bytes := by
  intro x
  unfold Agent.rejectedBy
  rcases h : check.report? with _ | ⟨counter, oid⟩
  · refine .inr ⟨.discard, ?_, nofun⟩
    simp [x, Check.reject, h]
  · have hx : x =
        (emitReportResponse crypto counter oid msg.msgId msg.usm.securityFlags).run agent >>=
          fun r => .err (r.1, r.2) := by
      simp only [x, Check.reject, h, rejectWithReport, StateT.run_bind, Act.run_fail]
    rcases emitReportResponse_cases hid counter oid msg.usm.securityFlags with
      he | ⟨reject, he, hreport⟩
    · exact .inl (by rw [hx, he, Res.panic_bind])
    · exact .inr ⟨reject, by rw [hx, he, Res.ok_bind], hreport⟩

/-! ## The outcome of a dispatch -/

/-- The checks of the pipeline, in its order. -/
def validate (crypto : Crypto) (msg : V3InboundMessage) :
    Act Agent Reject (InboundPdu × Bytes) := do
  checkMessageEnvelope crypto msg
  checkUserName crypto msg
  checkSecurityLevel crypto msg
  checkPrivFlagAgreement msg
  verifyAuthentication crypto msg
  checkTimeWindow crypto msg
  checkContextName msg
  openScopedData crypto msg

/-- What follows the checks. -/
def answer (crypto : Crypto) (mib : Store) (msg : V3InboundMessage) (r : InboundPdu × Bytes) :
    Act Agent Reject Bytes := do
  let encoded ← dispatchPduAndEncodeResponse crypto msg.msgId msg.maxSize msg.userName r.2 mib r.1
  .lift (.okOr .discard encoded)

theorem decides_validate :
    Decides crypto agent msg (validate crypto msg) (admission crypto agent.ctx.inputs msg) := by
  have h : Decides crypto agent msg _ _ := decides_checkMessageEnvelope.bind
    fun _ => decides_checkUserName.bind fun _ => decides_checkSecurityLevel.bind fun _ =>
      decides_checkPrivFlagAgreement.bind fun _ => decides_verifyAuthentication.bind fun _ =>
        decides_checkTimeWindow.bind fun _ => decides_checkContextName.bind fun _ =>
          decides_openScopedData
  simpa only [validate, admission, bind_assoc] using h

/-- The answer to an admitted request. -/
def Agent.respond (crypto : Crypto) (agent : Agent) (mib : Store) (msg : V3InboundMessage)
    (pdu : InboundPdu) (contextName : Bytes) : Res (EncodeError × SaltCounter)
    (Bytes × SaltCounter) :=
  (encodeV3Response crypto
    (responseParams agent.ctx.inputs msg.msgId msg.userName contextName)
    (handleRequest msg.maxSize mib pdu)).run agent.salt

variable {frame : Bytes} {mib : Store}

theorem runValidationPipeline_eq (hmsg : decodeV3Message frame = .ok msg) :
    (runValidationPipeline crypto frame mib).run agent =
      (validate crypto msg >>= answer crypto mib msg).run agent := by
  simp only [runValidationPipeline, validate, hmsg, Res.mapErr_ok, bind_assoc]
  rfl

theorem runValidationPipeline_rejected {check : Check} (hmsg : decodeV3Message frame = .ok msg)
    (hadm : admission crypto agent.ctx.inputs msg = .err check) :
    (runValidationPipeline crypto frame mib).run agent = (check.reject crypto msg).run agent := by
  have hval : (validate crypto msg).run agent = _ := decides_validate
  rw [hadm] at hval
  change _ = (check.reject crypto msg).run agent at hval
  rw [runValidationPipeline_eq hmsg, StateT.run_bind, hval]
  exact (StateT.run_bind ..).symm.trans (check.reject_bind (answer crypto mib msg))

theorem runValidationPipeline_admitted {r : InboundPdu × Bytes}
    (hmsg : decodeV3Message frame = .ok msg)
    (hadm : admission crypto agent.ctx.inputs msg = .ok r) :
    (runValidationPipeline crypto frame mib).run agent =
      match agent.respond crypto mib msg r.1 r.2 with
      | .panic => .panic
      | .err (_, salt) => .err (.discard, { agent with salt })
      | .ok (bytes, salt) => .ok (bytes, { agent with salt }) := by
  have hval : (validate crypto msg).run agent = _ := decides_validate
  rw [hadm] at hval
  rw [runValidationPipeline_eq hmsg, StateT.run_bind, hval, Res.ok_bind]
  simp only [answer, dispatchPduAndEncodeResponse, StateT.run_bind, StateT.run_get, Res.pure_eq,
    Res.ok_bind, Agent.run_encode, Agent.respond]
  cases (encodeV3Response crypto (responseParams agent.ctx.inputs msg.msgId msg.userName r.2)
    (handleRequest msg.maxSize mib r.1)).run agent.salt <;> rfl

theorem runValidationPipeline_panic (hmsg : decodeV3Message frame = .ok msg)
    (hadm : admission crypto agent.ctx.inputs msg = .panic) :
    (runValidationPipeline crypto frame mib).run agent = .panic := by
  have hval : (validate crypto msg).run agent = _ := decides_validate
  rw [hadm] at hval
  rw [runValidationPipeline_eq hmsg, StateT.run_bind, hval, Res.panic_bind]

theorem msgId_nonneg_of_decode (hmsg : decodeV3Message frame = .ok msg) : 0 ≤ msg.msgId.toInt := by
  obtain ⟨env, _, _, _, H, -, rfl⟩ := decodeV3Message_eq_ok.mp hmsg
  exact H.msgId_nonneg

theorem processSnmpv3Request_undecodable {e : DecodeError} (h : decodeV3Message frame = .err e) :
    processSnmpv3Request crypto frame mib agent = .ok (none, agent) := by
  have hrun : (runValidationPipeline crypto frame mib).run agent = .err (.discard, agent) := by
    rw [runValidationPipeline, h]
    rfl
  rw [processSnmpv3Request, hrun]
  rfl

theorem processSnmpv3Request_eq_reject {check : Check} (hmsg : decodeV3Message frame = .ok msg)
    (hadm : admission crypto agent.ctx.inputs msg = .err check) :
    processSnmpv3Request crypto frame mib agent =
      answerOrReject ((check.reject crypto msg).run agent) := by
  rw [processSnmpv3Request, runValidationPipeline_rejected hmsg hadm]

/-- A rejected frame is counted, and it is answered with nothing or with a report. -/
theorem processSnmpv3Request_rejected (mib : Store) {check : Check}
    (hmsg : decodeV3Message frame = .ok msg)
    (hadm : admission crypto agent.ctx.inputs msg = .err check) :
    processSnmpv3Request crypto frame mib agent = .panic ∨
      ∃ out, processSnmpv3Request crypto frame mib agent = .ok (out, agent.rejectedBy check) ∧
        ∀ bytes, out = some bytes → isReport bytes := by
  rw [processSnmpv3Request_eq_reject hmsg hadm]
  rcases check.reject_cases crypto agent (msgId_nonneg_of_decode hmsg) with h | ⟨reject, h, hreport⟩
  · exact .inl (by rw [h]; rfl)
  · refine .inr ⟨reject.toOption, by rw [h]; rfl, fun bytes hb => hreport bytes ?_⟩
    cases reject with
    | report b =>
      cases hb
      rfl
    | discard => cases hb

/-- An admitted frame is answered by the handlers; nothing but the salt counter changes. -/
theorem processSnmpv3Request_admitted {r : InboundPdu × Bytes}
    (hmsg : decodeV3Message frame = .ok msg)
    (hadm : admission crypto agent.ctx.inputs msg = .ok r) :
    processSnmpv3Request crypto frame mib agent =
      match agent.respond crypto mib msg r.1 r.2 with
      | .panic => .panic
      | .err (_, salt) => .ok (none, { agent with salt })
      | .ok (bytes, salt) => .ok (some bytes, { agent with salt }) := by
  rw [processSnmpv3Request, runValidationPipeline_admitted hmsg hadm]
  cases agent.respond crypto mib msg r.1 r.2 <;> rfl

theorem length_authKey {inputs : DispatchInputs} {protocol : AuthProtocol} {key : Bytes}
    (h : inputs.usmUser.bind UsmUser.auth = some (protocol, key)) :
    key.length = protocol.keyLen := by
  obtain ⟨user, -, h⟩ := Option.bind_eq_some_iff.mp h
  rw [UsmUser.auth_eq, Option.map_eq_some_iff] at h
  obtain ⟨c, -, h⟩ := h
  cases h
  exact c.length_key

theorem length_privKey {inputs : DispatchInputs} {protocol : PrivProtocol} {key : Bytes}
    (h : inputs.usmUser.bind UsmUser.privacy = some (protocol, key)) :
    key.length = protocol.keyLen := by
  obtain ⟨user, -, h⟩ := Option.bind_eq_some_iff.mp h
  rw [UsmUser.privacy_eq, Option.map_eq_some_iff] at h
  obtain ⟨c, -, h⟩ := h
  cases h
  exact c.length_key

theorem wf_responseParams (inputs : DispatchInputs) (contextName : Bytes)
    (hmsg : decodeV3Message frame = .ok msg) :
    (responseParams inputs msg.msgId msg.userName contextName).WF := by
  obtain ⟨env, _, _, _, H, -, rfl⟩ := decodeV3Message_eq_ok.mp hmsg
  exact ⟨H.msgId_nonneg, H.userName_le, fun _ _ => length_authKey, fun _ _ => length_privKey⟩

theorem errorIndex_handleRequest (maxSize : Int32) (mib : Store) (pdu : InboundPdu) :
    (handleRequest maxSize mib pdu).errorIndex < 0x80000000 := by
  cases pdu with
  | setRequest req => exact (by decide : (1 : UInt32) < 0x80000000)
  | _ => exact (by decide : (0 : UInt32) < 0x80000000)

/-- A response is a sealed message with the security of the configured user. -/
theorem respond_inv {pdu : InboundPdu} {contextName bytes : Bytes} {salt : SaltCounter}
    (hmsg : decodeV3Message frame = .ok msg)
    (h : agent.respond crypto mib msg pdu contextName = .ok (bytes, salt)) :
    let p := responseParams agent.ctx.inputs msg.msgId msg.userName contextName
    p.Sendable ∧ salt = p.saltAfter agent.salt ∧
      p.Sealed crypto agent.salt (responseTlv (handleRequest msg.maxSize mib pdu)) bytes ∧
      bytes.length ≤ isizeMax := by
  rw [Agent.respond, run_encodeV3Response (errorIndex_handleRequest ..), Res.bind_eq_ok] at h
  obtain ⟨raw, hraw, h⟩ := h
  obtain ⟨rfl, -⟩ := capped_eq_ok.mp hraw
  exact encodeV3Envelope_inv (wf_responseParams _ _ hmsg) h

theorem not_isReport_of_respond {pdu : InboundPdu} {contextName bytes : Bytes} {salt : SaltCounter}
    (hmsg : decodeV3Message frame = .ok msg)
    (h : agent.respond crypto mib msg pdu contextName = .ok (bytes, salt)) :
    isReport bytes = false := by
  obtain ⟨-, -, hsealed, -⟩ := respond_inv hmsg h
  rw [hsealed.isReport_eq, Bool.and_eq_false_iff]
  exact .inr rfl

/-- Every message but a report comes from the handlers. -/
theorem processSnmpv3Request_response {bytes : Bytes} {agent' : Agent} :
    processSnmpv3Request crypto frame mib agent = .ok (some bytes, agent') ∧
      isReport bytes = false ↔
      ∃ msg pdu contextName salt, decodeV3Message frame = .ok msg ∧
        admission crypto agent.ctx.inputs msg = .ok (pdu, contextName) ∧
        agent.respond crypto mib msg pdu contextName = .ok (bytes, salt) ∧
        agent' = { agent with salt } := by
  constructor
  · rintro ⟨h, hreport⟩
    cases hmsg : decodeV3Message frame with
    | panic =>
      have hrun : (runValidationPipeline crypto frame mib).run agent = .panic := by
        rw [runValidationPipeline, hmsg]
        rfl
      rw [processSnmpv3Request, hrun] at h
      cases h
    | err e =>
      rw [processSnmpv3Request_undecodable hmsg] at h
      cases h
    | ok msg =>
      cases hadm : admission crypto agent.ctx.inputs msg with
      | panic =>
        rw [processSnmpv3Request, runValidationPipeline_panic hmsg hadm] at h
        cases h
      | err check =>
        rcases processSnmpv3Request_rejected mib hmsg hadm with hp | ⟨out, hp, hall⟩
        · rw [hp] at h
          cases h
        · rw [hp] at h
          cases h
          rw [hall bytes rfl] at hreport
          cases hreport
      | ok r =>
        rw [processSnmpv3Request_admitted hmsg hadm] at h
        cases hr : agent.respond crypto mib msg r.1 r.2 with
        | panic => simp [hr] at h
        | err e => simp [hr] at h
        | ok r' =>
          rw [hr] at h
          cases h
          exact ⟨msg, r.1, r.2, r'.2, rfl, hadm, hr, rfl⟩
  · rintro ⟨msg, pdu, contextName, salt, hmsg, hadm, hr, rfl⟩
    refine ⟨?_, not_isReport_of_respond hmsg hr⟩
    rw [processSnmpv3Request_admitted hmsg hadm, hr]

end

end SnmpAgent
