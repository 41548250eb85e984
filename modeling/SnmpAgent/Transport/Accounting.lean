import SnmpAgent.Codec.Safety
import SnmpAgent.Transport.Gate

/-!
# Counters and reports

A `Stage` is a check as an operator sees it: `Stage.passes` says of each one on its own what it
demands, and `firstFailing` is the first of them that a frame does not pass. It decides all there is
to say about counters and reports (`processSnmpv3Request_of_stage`), frame by frame and over whole
runs.
-/

namespace SnmpAgent
open Rust

/-! ## Stages -/

/-- The checks of a frame, in the order in which they are made. -/
inductive Stage where
  | decoding
  | securityModel
  | engineId
  | userName
  | securityLevel
  | privFlag
  | digest
  | timeWindow
  | decryption
  | contextEngineId
  | contextName
  deriving DecidableEq

/-- The `ScopedPdu` that the agent gets to see: the one in clear, or the one that it can decrypt. -/
def DispatchInputs.scopedPdu? (inputs : DispatchInputs) (crypto : Crypto) (msg : V3InboundMessage) :
    Option DecodedScopedPdu :=
  match msg.scopedData with
  | .plaintext pdu => some ⟨msg.engineId, msg.contextName, pdu⟩
  | .encrypted ciphertext => do
    let (privProtocol, privKey) ← inputs.usmUser.bind UsmUser.privacy
    let privSalt ← msg.usm.privParams
    let iv := aesIv msg.usm.authEngineBoots msg.usm.authEngineTime privSalt
    let scopedPduBytes ← (privProtocol.decrypt crypto iv privKey ciphertext).ok?
    (decodeScopedPdu scopedPduBytes).ok?

namespace Stage

def all : List Stage :=
  [decoding, securityModel, engineId, userName, securityLevel, privFlag, digest, timeWindow,
    decryption, contextEngineId, contextName]

def passes (crypto : Crypto) (inputs : DispatchInputs) (msg : V3InboundMessage) : Stage → Bool
  | decoding => true
  | securityModel => msg.securityModel.isUsm
  | engineId => !msg.usm.authEngineId.isEmpty && decide (msg.engineId = inputs.engineId)
  | userName => inputs.nameMatches msg
  | securityLevel => !inputs.shouldRejectSecurityLevel msg.usm.securityFlags.securityLevel
  | privFlag => msg.usm.securityFlags.isPriv = msg.scopedData.isEncrypted
  | digest => inputs.digestValid crypto msg
  | timeWindow => inputs.timely msg
  | decryption => (inputs.scopedPdu? crypto msg).isSome
  | contextEngineId =>
    (inputs.scopedPdu? crypto msg).all fun decoded => decoded.contextEngineId = inputs.engineId
  | contextName => (inputs.scopedPdu? crypto msg).all fun decoded => decoded.contextName.isEmpty

/-- The counter of the stage, if its failures are counted. -/
def counter? : Stage → Option StatsCounter
  | securityModel => some .unknownSecurityModels
  | engineId | contextEngineId => some .unknownEngineIds
  | userName => some .unknownUserNames
  | securityLevel => some .unsupportedSecLevels
  | digest => some .wrongDigests
  | timeWindow => some .notInTimeWindows
  | decryption => some .decryptionErrors
  | decoding | privFlag | contextName => none

end Stage

/-- The first stage that the frame does not pass. -/
def firstFailing (crypto : Crypto) (inputs : DispatchInputs) (frame : Bytes) : Option Stage :=
  match decodeV3Message frame with
  | .ok msg => Stage.all.find? fun stage => !stage.passes crypto inputs msg
  | _ => some .decoding

def Check.stage : Check → Stage
  | .securityModel => .securityModel
  | .discovery | .engineId => .engineId
  | .userName => .userName
  | .securityLevel => .securityLevel
  | .privFlag => .privFlag
  | .digest => .digest
  | .timeWindow => .timeWindow
  | .privCredentials | .decryption => .decryption
  | .contextEngineId => .contextEngineId
  | .contextName | .scopedContextName => .contextName

def StatsCounter.oid : StatsCounter → Oid
  | unknownEngineIds => unknownEngineIdsOid
  | unknownUserNames => unknownUserNamesOid
  | unsupportedSecLevels => unsupportedSecLevelsOid
  | wrongDigests => wrongDigestsOid
  | notInTimeWindows => notInTimeWindowsOid
  | decryptionErrors => decryptionErrorsOid
  | unknownSecurityModels => unknownSecurityModelsOid

/-- Every counter is reported under its own identifier. -/
theorem Check.report?_eq (check : Check) (h : check ≠ .privCredentials) :
    check.report? = check.stage.counter?.map fun counter => (counter, counter.oid) := by
  cases check <;> first | rfl | exact absurd rfl h

section
variable {crypto : Crypto} {inputs : DispatchInputs} {msg : V3InboundMessage}

/-- A level that is accepted and a payload that agrees with its flag: encrypted payloads only come
to an agent with a key for them. -/
theorem exists_privacy_of_encrypted {ciphertext : Bytes}
    (hlevel : inputs.shouldRejectSecurityLevel msg.usm.securityFlags.securityLevel = false)
    (hpriv : msg.usm.securityFlags.isPriv = msg.scopedData.isEncrypted)
    (hdata : msg.scopedData = .encrypted ciphertext) :
    ∃ user ∈ inputs.usmUser, ∃ credentials, user.privCredentials = some credentials := by
  obtain ⟨level, hok, -, hle⟩ := shouldRejectSecurityLevel_eq_false.mp hlevel
  rw [hdata] at hpriv
  have htop : level = .authPriv := (MsgFlags.securityLevel_eq_ok.mp hok).2.mp hpriv
  have huser := (isSome_privacy inputs).mpr (le_antisymm (SecurityLevel.le_authPriv _) (htop ▸ hle))
  rw [Option.isSome_iff_exists] at huser
  obtain ⟨p, hp⟩ := huser
  obtain ⟨user, hmem, hp⟩ := Option.bind_eq_some_iff.mp hp
  rw [UsmUser.privacy_eq, Option.map_eq_some_iff] at hp
  obtain ⟨credentials, hc, -⟩ := hp
  exact ⟨user, hmem, credentials, hc⟩

theorem returns_admission (crypto : Crypto) (inputs : DispatchInputs) (msg : V3InboundMessage) :
    (admission crypto inputs msg).Returns := by
  have hensure (holds : Bool) (check : Check) : (ensure holds check).Returns := by
    cases holds <;> simp [ensure]
  have hopened : (inputs.opened crypto msg).Returns := by
    unfold DispatchInputs.opened
    cases msg.scopedData with
    | plaintext pdu => exact Res.returns_ok _
    | encrypted ciphertext =>
      change (inputs.decrypted crypto msg ciphertext).Returns
      unfold DispatchInputs.decrypted
      split
      · exact Res.returns_err _
      · exact Res.returns_err _
      · refine Res.Returns.bind (Res.returns_mapErr.mpr ?_) fun bytes _ => ?_
        · exact Res.returns_ite (fun _ => Res.returns_err _) fun _ => Res.returns_ok _
        refine (Res.returns_mapErr.mpr (returns_decodeScopedPdu bytes)).bind fun decoded _ => ?_
        exact (hensure _ _).bind fun _ _ => (hensure _ _).bind fun _ _ => Res.returns_ok _
  exact (hensure _ _).bind fun _ _ => (hensure _ _).bind fun _ _ => (hensure _ _).bind fun _ _ =>
    (hensure _ _).bind fun _ _ => (hensure _ _).bind fun _ _ => (hensure _ _).bind fun _ _ =>
      (hensure _ _).bind fun _ _ => (hensure _ _).bind fun _ _ => (hensure _ _).bind fun _ _ =>
        hopened

/-! ## The decision names the stage -/

/-- The decision `d` fails with a check of the first of these stages that does not pass. -/
def Locates (crypto : Crypto) (inputs : DispatchInputs) (msg : V3InboundMessage) {α : Type}
    (d : Res Check α) (stages : List Stage) : Prop :=
  match d with
  | .ok _ => stages.find? (fun stage => !stage.passes crypto inputs msg) = none
  | .err check => stages.find? (fun stage => !stage.passes crypto inputs msg) = some check.stage ∧
      check ≠ .privCredentials
  | .panic => False

variable {α : Type} {stage : Stage} {stages : List Stage}

theorem Locates.ok (a : α) : Locates crypto inputs msg (.ok a) [] := rfl

theorem Locates.err (check : Check) (hstage : check.stage = stage) (hne : check ≠ .privCredentials)
    (hfail : stage.passes crypto inputs msg = false) :
    Locates crypto inputs msg (.err check : Res Check α) (stage :: stages) := by
  refine ⟨?_, hne⟩
  rw [List.find?_cons_of_pos (by simpa using hfail), hstage]

theorem Locates.cons {d : Res Check α} (hpass : stage.passes crypto inputs msg = true)
    (h : Locates crypto inputs msg d stages) : Locates crypto inputs msg d (stage :: stages) := by
  have hfind : (stage :: stages).find? (fun stage => !stage.passes crypto inputs msg) =
      stages.find? fun stage => !stage.passes crypto inputs msg :=
    List.find?_cons_of_neg (by simpa using hpass)
  unfold Locates
  rw [hfind]
  exact h

/-- A check for the first of the stages. Another check of the same stage may follow. -/
theorem Locates.ensure {holds : Bool} {check : Check} {f : Unit → Res Check α}
    (hstage : check.stage = stage) (hne : check ≠ .privCredentials)
    (hfail : holds = false → stage.passes crypto inputs msg = false)
    (hf : holds = true → Locates crypto inputs msg (f ()) (stage :: stages)) :
    Locates crypto inputs msg (SnmpAgent.ensure holds check >>= f) (stage :: stages) := by
  cases holds with
  | false => exact .err check hstage hne (hfail rfl)
  | true => exact hf rfl

/-- A check that is a stage of its own. -/
theorem Locates.ensure_cons (check : Check) {f : Unit → Res Check α}
    (hne : check ≠ .privCredentials)
    (hf : check.stage.passes crypto inputs msg = true → Locates crypto inputs msg (f ()) stages) :
    Locates crypto inputs msg
      (SnmpAgent.ensure (check.stage.passes crypto inputs msg) check >>= f)
      (check.stage :: stages) :=
  .ensure rfl hne id fun h => .cons h (hf h)

theorem locates_decrypted {ciphertext : Bytes} {credentials : PrivCredentials}
    (hdata : msg.scopedData = .encrypted ciphertext)
    (hprivacy : inputs.usmUser.bind UsmUser.privacy =
      some (credentials.protocol, credentials.key)) :
    Locates crypto inputs msg (inputs.decrypted crypto msg ciphertext)
      [.decryption, .contextEngineId, .contextName] := by
  cases hs : msg.usm.privParams with
  | none =>
    have hpdu : inputs.scopedPdu? crypto msg = none := by
      simp only [DispatchInputs.scopedPdu?, hdata, hprivacy, hs]
      rfl
    simp only [DispatchInputs.decrypted, hprivacy, hs]
    exact .err .decryption rfl (by decide) (by simp [Stage.passes, hpdu])
  | some privSalt =>
    have hdecrypt := PrivProtocol.decrypt_eq crypto credentials.protocol
      (aesIv msg.usm.authEngineBoots msg.usm.authEngineTime privSalt) credentials.length_key
        ciphertext
    have hpdu : inputs.scopedPdu? crypto msg = (decodeScopedPdu (crypto.cfbDecrypt
        credentials.protocol credentials.key
        (aesIv msg.usm.authEngineBoots msg.usm.authEngineTime privSalt) ciphertext).val).ok? := by
      simp only [DispatchInputs.scopedPdu?, hdata, hprivacy, hs, Option.bind_eq_bind,
        Option.bind_some, hdecrypt, Res.ok?_ok]
    simp only [DispatchInputs.decrypted, hprivacy, hs, hdecrypt, Res.mapErr_ok, Res.ok_bind]
    cases hx : decodeScopedPdu (crypto.cfbDecrypt credentials.protocol credentials.key
        (aesIv msg.usm.authEngineBoots msg.usm.authEngineTime privSalt) ciphertext).val with
    | panic => exact absurd hx (returns_decodeScopedPdu _)
    | err e =>
      rw [hx, Res.ok?_err] at hpdu
      exact .err .decryption rfl (by decide) (by simp [Stage.passes, hpdu])
    | ok decoded =>
      rw [hx, Res.ok?_ok] at hpdu
      refine .cons (by simp [Stage.passes, hpdu]) ?_
      refine .ensure rfl (by decide) (fun h => by simpa [Stage.passes, hpdu] using h) fun h => ?_
      refine .cons (by simpa [Stage.passes, hpdu] using h) ?_
      refine .ensure rfl (by decide) (fun h => by simpa [Stage.passes, hpdu] using h) fun h => ?_
      exact .cons (by simpa [Stage.passes, hpdu] using h) (.ok _)

theorem locates_opened (hid : msg.engineId = inputs.engineId)
    (hname : msg.scopedData.isEncrypted → msg.contextName = [])
    (hlevel : inputs.shouldRejectSecurityLevel msg.usm.securityFlags.securityLevel = false)
    (hpriv : msg.usm.securityFlags.isPriv = msg.scopedData.isEncrypted) :
    Locates crypto inputs msg
      (SnmpAgent.ensure msg.contextName.isEmpty .contextName >>= fun _ => inputs.opened crypto msg)
      [.decryption, .contextEngineId, .contextName] := by
  cases hdata : msg.scopedData with
  | plaintext pdu =>
    have hpdu : inputs.scopedPdu? crypto msg = some ⟨msg.engineId, msg.contextName, pdu⟩ := by
      rw [DispatchInputs.scopedPdu?, hdata]
    refine .cons (by simp [Stage.passes, hpdu]) (.cons (by simp [Stage.passes, hpdu, hid]) ?_)
    refine .ensure rfl (by decide) (fun h => by simpa [Stage.passes, hpdu] using h) fun h => ?_
    refine .cons (by simpa [Stage.passes, hpdu] using h) ?_
    rw [DispatchInputs.opened, hdata]
    exact .ok _
  | encrypted ciphertext =>
    obtain ⟨user, hmem, credentials, hc⟩ := exists_privacy_of_encrypted hlevel hpriv hdata
    rw [hname (by rw [hdata]; rfl)]
    change Locates crypto inputs msg (inputs.opened crypto msg) _
    rw [DispatchInputs.opened, hdata]
    change Locates crypto inputs msg (inputs.decrypted crypto msg ciphertext) _
    exact locates_decrypted hdata (UsmUser.bind_privacy_eq_some hmem hc)

theorem locates_admission (hname : msg.scopedData.isEncrypted → msg.contextName = []) :
    Locates crypto inputs msg (admission crypto inputs msg) Stage.all := by
  refine .cons rfl (.ensure_cons .securityModel (by decide) fun _ => ?_)
  refine .ensure rfl (by decide) (fun h => by simp [Stage.passes, h]) fun hne => ?_
  refine .ensure rfl (by decide) (fun h => by simp [Stage.passes, h]) fun hid => ?_
  refine .cons (by simp [Stage.passes, hid, hne]) ?_
  refine .ensure_cons .userName (by decide) fun _ => ?_
  refine .ensure_cons .securityLevel (by decide) fun hlevel => ?_
  refine .ensure_cons .privFlag (by decide) fun hpriv => ?_
  refine .ensure_cons .digest (by decide) fun _ => ?_
  refine .ensure_cons .timeWindow (by decide) fun _ => ?_
  exact locates_opened (of_decide_eq_true hid) hname (Bool.not_eq_true' _ |>.mp hlevel)
    (of_decide_eq_true hpriv)

end

/-! ## The outcome of a rejected frame -/

/-- The report about a counter, as it is sent. -/
def reportBytes (inputs : DispatchInputs) (msgId : Int32) (counter : StatsCounter) : Bytes :=
  messageBytes ⟨msgId, msgMaxSizeUdp, 0x00, 3⟩
    ⟨inputs.engineId, inputs.engineBoots.toInt32, inputs.engineTime.toInt32, [], [], []⟩
    (scopedPduTlv inputs.engineId [] (reportTlv msgId counter.oid (counter.select inputs).value))

/-- What is sent and kept when a message fails at this stage. -/
def Agent.rejectedAt (agent : Agent) (msg : V3InboundMessage) (stage : Stage) :
    Res Empty (Option Bytes × Agent) :=
  match stage.counter? with
  | none => .ok (none, agent)
  | some counter =>
    if msg.usm.securityFlags.isReportable then do
      let bytes ← capped (reportBytes (agent.count counter).ctx.inputs msg.msgId counter)
      .ok (some bytes, agent.count counter)
    else .ok (none, agent.count counter)

section
variable {crypto : Crypto} {agent : Agent} {msg : V3InboundMessage} {frame : Bytes}

/-- Nothing in a report is secret or signed, so it is written in one go. -/
theorem run_encodeV3Report_sendable (crypto : Crypto) (salt : SaltCounter) {inputs : DispatchInputs}
    {msgId : Int32} (counter : StatsCounter) (hid : 0 ≤ msgId.toInt)
    (hboots : inputs.engineBoots < 0x80000000) (htime : inputs.engineTime < 0x80000000) :
    (encodeV3Report crypto msgId inputs.engineId inputs.engineBoots inputs.engineTime counter.oid
      (counter.select inputs).value).run salt =
      capped (reportBytes inputs msgId counter) >>= fun bytes => .ok (bytes, salt) := by
  have hp := wf_reportParams hid inputs.engineId inputs.engineBoots inputs.engineTime
  let p := reportParams msgId inputs.engineId inputs.engineBoots inputs.engineTime
  let raw := reportTlv msgId counter.oid (counter.select inputs).value
  have hbytes : p.unsigned crypto salt raw = reportBytes inputs msgId counter := rfl
  rw [run_encodeV3Report]
  rcases capped_encodeV3Envelope crypto salt raw hp ⟨hboots, htime, nofun⟩ with
    ⟨hlen, hx⟩ | ⟨hlen, bytes, hx, pre, post, hsplit, hsealed, -⟩
  · rw [hbytes] at hlen
    rw [hx, capped, if_neg (Nat.not_le.mpr hlen), Res.panic_bind]
  · rw [hbytes] at hlen hsplit
    have hauth : bytes = reportBytes inputs msgId counter := hsealed.trans hsplit.symm
    rw [hx, capped_of_le hlen, Res.ok_bind, hauth]
    rfl

theorem answerOrReject_reject {check : Check} (hne : check ≠ .privCredentials)
    (hid : 0 ≤ msg.msgId.toInt) (hboots : agent.ctx.inputs.engineBoots < 0x80000000)
    (htime : agent.ctx.inputs.engineTime < 0x80000000) :
    answerOrReject ((check.reject crypto msg).run agent) = agent.rejectedAt msg check.stage := by
  unfold Check.reject Agent.rejectedAt
  rw [check.report?_eq hne]
  cases hc : check.stage.counter? with
  | none => rfl
  | some counter =>
    have hconfig : (agent.count counter).ctx.inputs.engineBoots = agent.ctx.inputs.engineBoots ∧
        (agent.count counter).ctx.inputs.engineTime = agent.ctx.inputs.engineTime := by
      cases counter <;> exact ⟨rfl, rfl⟩
    have henc := run_encodeV3Report_sendable crypto (agent.count counter).salt counter hid
      (hconfig.1.symm ▸ hboots) (hconfig.2.symm ▸ htime)
    simp only [Option.map_some, rejectWithReport, emitReportResponse]
    cases hflag : msg.usm.securityFlags.isReportable with
    | false => rfl
    | true =>
      by_cases hlen :
        (reportBytes (agent.count counter).ctx.inputs msg.msgId counter).length ≤ isizeMax
      · rw [capped_of_le hlen, Res.ok_bind] at henc
        simp [Agent.run_encode, henc, capped_of_le hlen, answerOrReject, Reject.toOption]
      · rw [capped, if_neg hlen, Res.panic_bind] at henc
        simp [Agent.run_encode, henc, capped, if_neg hlen, answerOrReject]

theorem contextName_of_encrypted (hmsg : decodeV3Message frame = .ok msg) :
    msg.scopedData.isEncrypted → msg.contextName = [] := by
  obtain ⟨env, engineId, contextName, scopedData, -, hdata, rfl⟩ := decodeV3Message_eq_ok.mp hmsg
  intro henc
  cases hd : env.scopedData with
  | plaintext contextEngineId name rawPdu =>
    simp only [hd, decodeScopedData, Res.bind_eq_ok, Res.ok.injEq, Prod.mk.injEq] at hdata
    obtain ⟨_, _, _, _, _, _, rfl⟩ := hdata
    cases henc
  | encrypted ciphertext =>
    simp only [hd, decodeScopedData, Res.ok.injEq, Prod.mk.injEq] at hdata
    exact hdata.2.1.symm

theorem firstFailing_of_admission_err {inputs : DispatchInputs} {check : Check}
    (hmsg : decodeV3Message frame = .ok msg) (hadm : admission crypto inputs msg = .err check) :
    firstFailing crypto inputs frame = some check.stage ∧ check ≠ .privCredentials := by
  have h : Locates crypto inputs msg (admission crypto inputs msg) Stage.all :=
    locates_admission (contextName_of_encrypted hmsg)
  rw [hadm] at h
  rw [firstFailing, hmsg]
  exact h

theorem firstFailing_eq_none {inputs : DispatchInputs} :
    firstFailing crypto inputs frame = none ↔ ∃ msg r, decodeV3Message frame = .ok msg ∧
      admission crypto inputs msg = .ok r := by
  constructor
  · intro h
    cases hmsg : decodeV3Message frame with
    | panic => simp [firstFailing, hmsg] at h
    | err e => simp [firstFailing, hmsg] at h
    | ok msg =>
      cases hadm : admission crypto inputs msg with
      | panic => exact absurd hadm (returns_admission _ _ _)
      | err check =>
        rw [(firstFailing_of_admission_err hmsg hadm).1] at h
        cases h
      | ok r => exact ⟨msg, r, rfl, hadm⟩
  · rintro ⟨msg, r, hmsg, hadm⟩
    have h : Locates crypto inputs msg (admission crypto inputs msg) Stage.all :=
      locates_admission (contextName_of_encrypted hmsg)
    rw [hadm] at h
    rw [firstFailing, hmsg]
    exact h

/-- The failing stages of a message that decodes. -/
theorem admission_of_firstFailing {inputs : DispatchInputs} {stage : Stage}
    (hmsg : decodeV3Message frame = .ok msg) (h : firstFailing crypto inputs frame = some stage) :
    ∃ check, admission crypto inputs msg = .err check ∧ check ≠ .privCredentials ∧
      check.stage = stage := by
  cases hadm : admission crypto inputs msg with
  | panic => exact absurd hadm (returns_admission _ _ _)
  | ok r =>
    rw [firstFailing_eq_none.mpr ⟨msg, r, hmsg, hadm⟩] at h
    cases h
  | err check =>
    obtain ⟨h', hne⟩ := firstFailing_of_admission_err hmsg hadm
    exact ⟨check, rfl, hne, Option.some.inj (h'.symm.trans h)⟩

/-- A frame that fails is dropped before it is decoded, or rejected at its stage. -/
theorem processSnmpv3Request_of_stage {stage : Stage} (mib : Store)
    (hboots : agent.ctx.inputs.engineBoots < 0x80000000)
    (htime : agent.ctx.inputs.engineTime < 0x80000000)
    (h : firstFailing crypto agent.ctx.inputs frame = some stage) :
    (stage = .decoding ∧ processSnmpv3Request crypto frame mib agent = .ok (none, agent)) ∨
      ∃ msg, decodeV3Message frame = .ok msg ∧
        processSnmpv3Request crypto frame mib agent = agent.rejectedAt msg stage := by
  cases hmsg : decodeV3Message frame with
  | panic => exact absurd hmsg (returns_decodeV3Message frame)
  | err e =>
    rw [firstFailing, hmsg] at h
    cases h
    exact .inl ⟨rfl, processSnmpv3Request_undecodable hmsg⟩
  | ok msg =>
    obtain ⟨check, hadm, hne, rfl⟩ := admission_of_firstFailing hmsg h
    refine .inr ⟨msg, rfl, ?_⟩
    rw [processSnmpv3Request_eq_reject hmsg hadm]
    exact answerOrReject_reject hne (msgId_nonneg_of_decode hmsg) hboots htime

theorem sendable_responseParams {inputs : DispatchInputs} (msgId : Int32)
    (userName contextName : Bytes)
    (hboots : inputs.engineBoots < 0x80000000) (htime : inputs.engineTime < 0x80000000) :
    (responseParams inputs msgId userName contextName).Sendable := by
  refine ⟨hboots, htime, fun h => ?_⟩
  have hlevel := (isSome_privacy inputs).mp h
  exact (isSome_auth inputs).mpr (hlevel ▸ SecurityLevel.le_authPriv _)

/-- An admitted frame is answered with a response, or the response does not fit into memory. -/
theorem processSnmpv3Request_of_admission {r : InboundPdu × Bytes} (mib : Store)
    (hboots : agent.ctx.inputs.engineBoots < 0x80000000)
    (htime : agent.ctx.inputs.engineTime < 0x80000000) (hmsg : decodeV3Message frame = .ok msg)
    (hadm : admission crypto agent.ctx.inputs msg = .ok r) :
    let p := responseParams agent.ctx.inputs msg.msgId msg.userName r.2
    let raw := responseTlv (handleRequest msg.maxSize mib r.1)
    (isizeMax < (p.unsigned crypto agent.salt raw).length ∧
        processSnmpv3Request crypto frame mib agent = .panic) ∨
      ∃ bytes, p.Sealed crypto agent.salt raw bytes ∧ isReport bytes = false ∧
        processSnmpv3Request crypto frame mib agent =
          .ok (some bytes, { agent with salt := p.saltAfter agent.salt }) := by
  intro p raw
  have hrespond : agent.respond crypto mib msg r.1 r.2 =
      capped raw >>= fun raw => (encodeV3Envelope crypto p raw).run agent.salt :=
    run_encodeV3Response (errorIndex_handleRequest ..)
  rw [processSnmpv3Request_admitted hmsg hadm]
  rcases capped_encodeV3Envelope crypto agent.salt raw (wf_responseParams agent.ctx.inputs r.2 hmsg)
    (sendable_responseParams msg.msgId msg.userName r.2 hboots htime)
    with ⟨hlen, hx⟩ | ⟨-, bytes, hx, hsealed⟩
  · exact .inl ⟨hlen, by rw [hrespond, hx]⟩
  · have hr := hrespond.trans hx
    exact .inr ⟨bytes, hsealed, not_isReport_of_respond hmsg hr, by rw [hr]⟩

end

/-! ## Accounts of a frame -/

section
variable (crypto : Crypto)

/-- The counter that the frame advances. -/
def countedBy (inputs : DispatchInputs) (frame : Bytes) : Option StatsCounter :=
  (firstFailing crypto inputs frame).bind Stage.counter?

/-- The bytes are an unprotected report about this counter of the agent, for this request. -/
def ReportsOn (inputs : DispatchInputs) (msgId : Int32) (counter : StatsCounter) (bytes : Bytes) :
    Prop :=
  ∃ offset rawPdu rawVarbindList,
    Ber.decodeV3Envelope bytes = .ok (envelopeOf ⟨msgId, msgMaxSizeUdp, 0x00, 3⟩
      ⟨inputs.engineId, inputs.engineBoots.toInt32, inputs.engineTime.toInt32, [], [], []⟩
      (.plaintext inputs.engineId [] rawPdu) offset) ∧
    Ber.decodePdu rawPdu = .ok (.standard tagReport msgId rawVarbindList) ∧
    decodeVarbindListToVarbinds rawVarbindList =
      .ok [⟨counter.oid, .value (.counter32 (counter.select inputs).value)⟩]

/-- What the outcome of a frame has to do with its first failing stage. -/
structure Accounted (frame : Bytes) (agent : Agent) (out : Option Bytes) (agent' : Agent) :
    Prop where
  /-- One counter makes one step, or none does. -/
  counters : ∀ counter : StatsCounter, counter.select agent'.ctx.inputs =
    if countedBy crypto agent.ctx.inputs frame = some counter then
      (counter.select agent.ctx.inputs).saturatingIncrement
    else counter.select agent.ctx.inputs
  response_iff : (∃ bytes, out = some bytes ∧ isReport bytes = false) ↔
    firstFailing crypto agent.ctx.inputs frame = none
  report_iff : (∃ bytes, out = some bytes ∧ isReport bytes) ↔
    (countedBy crypto agent.ctx.inputs frame).isSome ∧
      ∃ msg, decodeV3Message frame = .ok msg ∧ msg.usm.securityFlags.isReportable
  report : ∀ bytes, out = some bytes → isReport bytes → ∃ msg counter,
    decodeV3Message frame = .ok msg ∧ countedBy crypto agent.ctx.inputs frame = some counter ∧
      ReportsOn agent'.ctx.inputs msg.msgId counter bytes

end

theorem select_update (counter counter' : StatsCounter) (f : UsmStatsCounter → UsmStatsCounter)
    (inputs : DispatchInputs) : counter'.select (counter.update f inputs) =
      if counter = counter' then f (counter'.select inputs) else counter'.select inputs := by
  cases counter <;> cases counter' <;> rfl

section
variable {inputs : DispatchInputs} {msgId : Int32} {counter : StatsCounter}

theorem decodeV3Envelope_reportBytes (hid : 0 ≤ msgId.toInt)
    (hlen : (reportBytes inputs msgId counter).length ≤ isizeMax) :
    ∃ offset, Ber.decodeV3Envelope (reportBytes inputs msgId counter) =
      .ok (envelopeOf ⟨msgId, msgMaxSizeUdp, 0x00, 3⟩
        ⟨inputs.engineId, inputs.engineBoots.toInt32, inputs.engineTime.toInt32, [], [], []⟩
        (.plaintext inputs.engineId [] (reportTlv msgId counter.oid (counter.select inputs).value))
        offset) := by
  have hsize : 484 ≤ msgMaxSizeUdp.toInt := by decide
  obtain ⟨offset, H⟩ := isEnvelope_messageBytes ⟨msgId, msgMaxSizeUdp, 0x00, 3⟩
    ⟨inputs.engineId, inputs.engineBoots.toInt32, inputs.engineTime.toInt32, [], [], []⟩
    (.plaintext inputs.engineId [] (reportTlv msgId counter.oid (counter.select inputs).value))
    hid hsize (Nat.zero_le _) (lt_of_le_of_lt hlen isizeMax_lt)
  exact ⟨offset, decodeV3Envelope_eq_ok.mpr H⟩

theorem isReport_reportBytes (hid : 0 ≤ msgId.toInt)
    (hlen : (reportBytes inputs msgId counter).length ≤ isizeMax) :
    isReport (reportBytes inputs msgId counter) = true := by
  obtain ⟨offset, henv⟩ := decodeV3Envelope_reportBytes hid hlen
  rw [isReport, henv]
  rfl

theorem reportsOn_reportBytes (hid : 0 ≤ msgId.toInt)
    (hlen : (reportBytes inputs msgId counter).length ≤ isizeMax) :
    ReportsOn inputs msgId counter (reportBytes inputs msgId counter) := by
  obtain ⟨offset, henv⟩ := decodeV3Envelope_reportBytes hid hlen
  have hraw : (reportTlv msgId counter.oid (counter.select inputs).value).length < usizeSize := by
    refine lt_of_le_of_lt (le_trans ?_ hlen) isizeMax_lt
    change _ ≤ ((reportParams msgId inputs.engineId inputs.engineBoots inputs.engineTime).unsigned
      (Crypto.tabulated [] []) ⟨0, none⟩ _).length
    exact length_rawPdu_le
  refine ⟨offset, _, _, henv, Ber.decodePdu_pduTlv (by decide) hraw, ?_⟩
  exact decodeVarbindListToVarbinds_varbindListTlv _ ((length_varbindListTlv_le ..).trans_lt hraw)

end

section
variable {crypto : Crypto} {agent agent' : Agent} {frame : Bytes} {mib : Store} {out : Option Bytes}

theorem rejectedAt_inv {msg : V3InboundMessage} {stage : Stage}
    (h : agent.rejectedAt msg stage = .ok (out, agent')) :
    (stage.counter? = none ∧ out = none ∧ agent' = agent) ∨
      ∃ counter, stage.counter? = some counter ∧ agent' = agent.count counter ∧
        (msg.usm.securityFlags.isReportable = false ∧ out = none ∨
          msg.usm.securityFlags.isReportable = true ∧
            (reportBytes agent'.ctx.inputs msg.msgId counter).length ≤ isizeMax ∧
            out = some (reportBytes agent'.ctx.inputs msg.msgId counter)) := by
  unfold Agent.rejectedAt at h
  cases hc : stage.counter? with
  | none =>
    rw [hc] at h
    cases h
    exact .inl ⟨rfl, rfl, rfl⟩
  | some counter =>
    simp only [hc] at h
    cases hflag : msg.usm.securityFlags.isReportable with
    | false =>
      simp only [hflag, Bool.false_eq_true, if_false, Res.ok.injEq, Prod.mk.injEq] at h
      exact .inr ⟨counter, rfl, h.2.symm, .inl ⟨rfl, h.1.symm⟩⟩
    | true =>
      simp only [hflag, if_true, Res.bind_eq_ok, capped_eq_ok, Res.ok.injEq, Prod.mk.injEq] at h
      obtain ⟨_, ⟨rfl, hlen⟩, rfl, rfl⟩ := h
      exact .inr ⟨counter, rfl, rfl, .inr ⟨rfl, hlen, rfl⟩⟩

/-- A dispatch changes what its frame advances, and the salt counter of the process. -/
theorem processSnmpv3Request_inputs
    (h : processSnmpv3Request crypto frame mib agent = .ok (out, agent')) :
    agent'.ctx.inputs = (countedBy crypto agent.ctx.inputs frame).elim agent.ctx.inputs
      fun counter => (agent.count counter).ctx.inputs := by
  unfold countedBy
  cases hf : firstFailing crypto agent.ctx.inputs frame with
  | none =>
    obtain ⟨msg, r, hmsg, hadm⟩ := firstFailing_eq_none.mp hf
    rw [processSnmpv3Request_admitted hmsg hadm] at h
    split at h <;> cases h <;> rfl
  | some stage =>
    cases hmsg : decodeV3Message frame with
    | panic => exact absurd hmsg (returns_decodeV3Message frame)
    | err e =>
      rw [firstFailing, hmsg] at hf
      cases hf
      rw [processSnmpv3Request_undecodable hmsg] at h
      cases h
      rfl
    | ok msg =>
      obtain ⟨check, hadm, hne, rfl⟩ := admission_of_firstFailing hmsg hf
      rcases processSnmpv3Request_rejected mib hmsg hadm with hp | ⟨out', hp, -⟩
      · rw [hp] at h
        cases h
      · rw [hp] at h
        cases h
        rw [Agent.rejectedBy, check.report?_eq hne, Option.bind_some]
        cases check.stage.counter? <;> rfl

theorem accounted_of_stage {stage : Stage} (hboots : agent.ctx.inputs.engineBoots < 0x80000000)
    (htime : agent.ctx.inputs.engineTime < 0x80000000)
    (hf : firstFailing crypto agent.ctx.inputs frame = some stage)
    (h : processSnmpv3Request crypto frame mib agent = .ok (out, agent')) :
    ((∃ bytes, out = some bytes ∧ isReport bytes) ↔ stage.counter?.isSome ∧
        ∃ msg, decodeV3Message frame = .ok msg ∧ msg.usm.securityFlags.isReportable) ∧
      ∀ bytes, out = some bytes → isReport bytes ∧ ∃ msg counter, decodeV3Message frame = .ok msg ∧
        stage.counter? = some counter ∧ ReportsOn agent'.ctx.inputs msg.msgId counter bytes := by
  rcases processSnmpv3Request_of_stage mib hboots htime hf with ⟨rfl, hp⟩ | ⟨msg, hmsg, hp⟩
  · rw [hp] at h
    cases h
    simp [Stage.counter?]
  have hid := msgId_nonneg_of_decode hmsg
  rcases rejectedAt_inv (hp.symm.trans h) with
    ⟨hc, rfl, rfl⟩ | ⟨counter, hc, rfl, ⟨hflag, rfl⟩ | ⟨hflag, hlen, rfl⟩⟩
  · simp [hc]
  · simp [hc, hmsg, hflag]
  · have hreport := isReport_reportBytes hid hlen
    refine ⟨iff_of_true ⟨_, rfl, hreport⟩ ⟨by rw [hc]; rfl, msg, hmsg, hflag⟩, ?_⟩
    rintro bytes ⟨⟩
    exact ⟨hreport, msg, counter, hmsg, hc, reportsOn_reportBytes hid hlen⟩

theorem accounted (hboots : agent.ctx.inputs.engineBoots < 0x80000000)
    (htime : agent.ctx.inputs.engineTime < 0x80000000)
    (h : processSnmpv3Request crypto frame mib agent = .ok (out, agent')) :
    Accounted crypto frame agent out agent' := by
  have hcounters (counter : StatsCounter) : counter.select agent'.ctx.inputs =
      if countedBy crypto agent.ctx.inputs frame = some counter then
        (counter.select agent.ctx.inputs).saturatingIncrement
      else counter.select agent.ctx.inputs := by
    rw [processSnmpv3Request_inputs h]
    cases countedBy crypto agent.ctx.inputs frame with
    | none => rfl
    | some counter' =>
      simp only [Option.elim_some, Agent.count, select_update, Option.some.injEq]
  cases hf : firstFailing crypto agent.ctx.inputs frame with
  | none =>
    obtain ⟨msg, r, hmsg, hadm⟩ := firstFailing_eq_none.mp hf
    rcases processSnmpv3Request_of_admission mib hboots htime hmsg hadm with
      ⟨-, hp⟩ | ⟨bytes, -, hreport, hp⟩
    · rw [hp] at h
      cases h
    · rw [hp] at h
      cases h
      refine ⟨hcounters, iff_of_true ⟨bytes, rfl, hreport⟩ hf, iff_of_false ?_ ?_, ?_⟩
      · rintro ⟨_, ⟨⟩, h'⟩
        rw [hreport] at h'
        cases h'
      · simp [countedBy, hf]
      · rintro _ ⟨⟩ h'
        rw [hreport] at h'
        cases h'
  | some stage =>
    have hcounted : countedBy crypto agent.ctx.inputs frame = stage.counter? := by
      rw [countedBy, hf, Option.bind_some]
    obtain ⟨hiff, hall⟩ := accounted_of_stage hboots htime hf h
    refine ⟨hcounters, iff_of_false ?_ (by simp [hf]), hcounted ▸ hiff, fun bytes hb _ => ?_⟩
    · rintro ⟨bytes, hb, hreport⟩
      rw [(hall bytes hb).1] at hreport
      cases hreport
    · rw [hcounted]
      exact (hall bytes hb).2

end

/-! ## Accounts of a run -/

/-- A frame, with the store and the engine time at its arrival. -/
structure Arrival where
  frame : Bytes
  mib : Store
  engineTime : UInt32

def Agent.atTime (agent : Agent) (engineTime : UInt32) : Agent :=
  { agent with ctx := ⟨{ agent.ctx.inputs with engineTime }⟩ }

/-- One frame after the other, with the answers to them. -/
def processFrames (crypto : Crypto) : List Arrival → Agent → Res Empty (List (Option Bytes) × Agent)
  | [], agent => .ok ([], agent)
  | arrival :: arrivals, agent => do
    let (out, agent) ←
      processSnmpv3Request crypto arrival.frame arrival.mib (agent.atTime arrival.engineTime)
    let (outs, agent) ← processFrames crypto arrivals agent
    .ok (out :: outs, agent)

theorem processFrames_append (crypto : Crypto) (arrivals arrivals' : List Arrival)
    (agent : Agent) :
    processFrames crypto (arrivals ++ arrivals') agent = (do
      let (outs, agent) ← processFrames crypto arrivals agent
      let (outs', agent) ← processFrames crypto arrivals' agent
      .ok (outs ++ outs', agent)) := by
  induction arrivals generalizing agent with
  | nil => cases h : processFrames crypto arrivals' agent <;> simp [processFrames, h]
  | cons arrival arrivals ih =>
    simp only [List.cons_append, processFrames, ih, bind_assoc, Res.ok_bind]

/-- The frames of a run that advance a counter. The configuration does not change in a run, and no
stage looks at the counters. -/
def countArrivals (crypto : Crypto) (agent : Agent) (counter : StatsCounter)
    (arrivals : List Arrival) : Nat :=
  arrivals.countP fun arrival =>
    countedBy crypto (agent.atTime arrival.engineTime).ctx.inputs arrival.frame = some counter

section
variable {crypto : Crypto} {agent agent' : Agent}

theorem firstFailing_update (counter : StatsCounter) (f : UsmStatsCounter → UsmStatsCounter)
    (inputs : DispatchInputs) (frame : Bytes) :
    firstFailing crypto (counter.update f inputs) frame = firstFailing crypto inputs frame := by
  cases counter <;> rfl

theorem update_atTime (counter : StatsCounter) (f : UsmStatsCounter → UsmStatsCounter)
    (inputs : DispatchInputs) (engineTime : UInt32) :
    { counter.update f inputs with engineTime } = counter.update f { inputs with engineTime } := by
  cases counter <;> rfl

theorem toNat_saturatingIncrement (counter : UsmStatsCounter) :
    counter.saturatingIncrement.value.toNat = min 0xFFFFFFFF (counter.value.toNat + 1) := by
  have hlt := counter.value.toNat_lt
  unfold UsmStatsCounter.saturatingIncrement
  split
  · rename_i h
    rw [h]
    rfl
  · rename_i h
    have hne : counter.value.toNat ≠ 0xFFFFFFFF := fun h' => h (UInt32.toNat_inj.mp h')
    have hone : (1 : UInt32).toNat = 1 := rfl
    rw [UInt32.toNat_add, hone]
    omega

/-- What a frame advances in the state behind another frame. -/
theorem countedBy_after {frame : Bytes} {mib : Store} {out : Option Bytes}
    (h : processSnmpv3Request crypto frame mib agent = .ok (out, agent')) (engineTime : UInt32)
    (frame' : Bytes) :
    countedBy crypto (agent'.atTime engineTime).ctx.inputs frame' =
      countedBy crypto (agent.atTime engineTime).ctx.inputs frame' := by
  have hinputs := processSnmpv3Request_inputs h
  unfold countedBy Agent.atTime
  rw [hinputs]
  cases countedBy crypto agent.ctx.inputs frame with
  | none => rfl
  | some counter =>
    change Option.bind (firstFailing crypto { counter.update _ agent.ctx.inputs with engineTime }
      frame') _ = _
    rw [update_atTime, firstFailing_update]

theorem processFrames_counters {arrivals : List Arrival} {outs : List (Option Bytes)}
    (hboots : agent.ctx.inputs.engineBoots < 0x80000000)
    (htimes : ∀ arrival ∈ arrivals, arrival.engineTime < 0x80000000)
    (h : processFrames crypto arrivals agent = .ok (outs, agent')) (counter : StatsCounter) :
    (counter.select agent'.ctx.inputs).value.toNat =
      min 0xFFFFFFFF ((counter.select agent.ctx.inputs).value.toNat +
        countArrivals crypto agent counter arrivals) := by
  induction arrivals generalizing agent outs with
  | nil =>
    cases h
    have := (counter.select agent'.ctx.inputs).value.toNat_lt
    simp only [countArrivals, List.countP_nil]
    omega
  | cons arrival arrivals ih =>
    simp only [processFrames, Res.bind_eq_ok, Prod.exists, Res.ok.injEq, Prod.mk.injEq] at h
    obtain ⟨out, agent₁, hstep, outs, _, hrest, rfl, rfl⟩ := h
    have hnow : (agent.atTime arrival.engineTime).ctx.inputs.engineTime < 0x80000000 :=
      htimes arrival List.mem_cons_self
    have hbootsNow : (agent.atTime arrival.engineTime).ctx.inputs.engineBoots < 0x80000000 := hboots
    have hinputs := processSnmpv3Request_inputs hstep
    have hboots₁ : agent₁.ctx.inputs.engineBoots < 0x80000000 := by
      rw [hinputs]
      cases countedBy crypto (agent.atTime arrival.engineTime).ctx.inputs arrival.frame with
      | none => exact hboots
      | some counter => cases counter <;> exact hboots
    have hcount : countArrivals crypto agent₁ counter arrivals =
        countArrivals crypto agent counter arrivals := by
      unfold countArrivals
      simp only [countedBy_after hstep]
      rfl
    have hselect : counter.select (agent.atTime arrival.engineTime).ctx.inputs =
        counter.select agent.ctx.inputs := by
      cases counter <;> rfl
    have hone := (accounted hbootsNow hnow hstep).counters counter
    rw [ih hboots₁ (fun a ha => htimes a (List.mem_cons_of_mem _ ha)) hrest, hcount, hone, hselect,
      countArrivals, countArrivals, List.countP_cons]
    simp only [decide_eq_true_eq]
    split
    · rw [toNat_saturatingIncrement]
      omega
    · rfl

end

/-- The length of the message that answers a frame. -/
def Agent.answerLength (crypto : Crypto) (agent : Agent) (frame : Bytes) (mib : Store) : Nat :=
  match decodeV3Message frame with
  | .ok msg =>
    match admission crypto agent.ctx.inputs msg with
    | .ok (pdu, contextName) =>
      ((responseParams agent.ctx.inputs msg.msgId msg.userName contextName).unsigned crypto
        agent.salt (responseTlv (handleRequest msg.maxSize mib pdu))).length
    | _ =>
      (countedBy crypto agent.ctx.inputs frame).elim 0 fun counter =>
        (reportBytes (agent.count counter).ctx.inputs msg.msgId counter).length
  | _ => 0

/-- A dispatch returns, unless the answer does not fit into memory. -/
theorem answerLength_of_panic {crypto : Crypto} {agent : Agent} {frame : Bytes} {mib : Store}
    (hboots : agent.ctx.inputs.engineBoots < 0x80000000)
    (htime : agent.ctx.inputs.engineTime < 0x80000000)
    (h : processSnmpv3Request crypto frame mib agent = .panic) :
    isizeMax < agent.answerLength crypto frame mib := by
  cases hf : firstFailing crypto agent.ctx.inputs frame with
  | none =>
    obtain ⟨msg, r, hmsg, hadm⟩ := firstFailing_eq_none.mp hf
    rcases processSnmpv3Request_of_admission mib hboots htime hmsg hadm with
      ⟨hlen, -⟩ | ⟨bytes, -, -, hp⟩
    · simpa only [Agent.answerLength, hmsg, hadm] using hlen
    · rw [hp] at h
      cases h
  | some stage =>
    rcases processSnmpv3Request_of_stage mib hboots htime hf with ⟨rfl, hp⟩ | ⟨msg, hmsg, hp⟩
    · rw [hp] at h
      cases h
    · rw [hp, Agent.rejectedAt] at h
      cases hc : stage.counter? with
      | none => simp [hc] at h
      | some counter =>
        have hcounted : countedBy crypto agent.ctx.inputs frame = some counter := by
          rw [countedBy, hf, Option.bind_some, hc]
        have hadm (r : InboundPdu × Bytes) : admission crypto agent.ctx.inputs msg ≠ .ok r := by
          intro hadm
          rw [firstFailing_eq_none.mpr ⟨msg, r, hmsg, hadm⟩] at hf
          cases hf
        have hlength : agent.answerLength crypto frame mib =
            (reportBytes (agent.count counter).ctx.inputs msg.msgId counter).length := by
          simp only [Agent.answerLength, hmsg, hcounted, Option.elim_some]
          split
          · exact absurd ‹_› (hadm _)
          · rfl
        rw [hlength]
        by_contra hle
        simp only [hc, capped_of_le (Nat.not_lt.mp hle), Res.ok_bind] at h
        split at h <;> cases h

/-- **Accounts.** A frame advances the counter of the first stage that it does not pass, if that one
has a counter, and nothing else is counted. It is answered with a response if it passes all stages,
and with a report if it was counted and asks for one. The counters of a run are the numbers of
frames that advanced them. -/
theorem counter_and_report_accounting (crypto : Crypto) :
    (∀ (agent : Agent) (frame : Bytes) (mib : Store), agent.ctx.inputs.engineBoots < 0x80000000 →
      agent.ctx.inputs.engineTime < 0x80000000 →
      (processSnmpv3Request crypto frame mib agent = .panic →
        isizeMax < agent.answerLength crypto frame mib) ∧
      ∀ out agent', processSnmpv3Request crypto frame mib agent = .ok (out, agent') →
        Accounted crypto frame agent out agent') ∧
    ∀ (agent : Agent) (arrivals : List Arrival), agent.ctx.inputs.engineBoots < 0x80000000 →
      (∀ arrival ∈ arrivals, arrival.engineTime < 0x80000000) →
      (∀ counter : StatsCounter, counter.select agent.ctx.inputs = ⟨0⟩) →
      ∀ outs agent', processFrames crypto arrivals agent = .ok (outs, agent') →
        ∀ counter : StatsCounter, (counter.select agent'.ctx.inputs).value.toNat =
          min 0xFFFFFFFF (countArrivals crypto agent counter arrivals) := by
  refine ⟨fun agent frame mib hboots htime =>
    ⟨answerLength_of_panic hboots htime, fun out agent' => accounted hboots htime⟩, ?_⟩
  intro agent arrivals hboots htimes hzero outs agent' h counter
  have hrun := processFrames_counters hboots htimes h counter
  rwa [hzero counter, show (⟨0⟩ : UsmStatsCounter).value.toNat = 0 from rfl, Nat.zero_add] at hrun

namespace Sample

/-- The request in clear and without a signature, from a manager that asks for reports. -/
def plainFrame : Bytes := message 0x04 [] [] requestScopedPdu

end Sample

/-- A request below the floor and a request of the user. -/
theorem counter_and_report_accounting_sample :
    let agent := Sample.agent (some Sample.authUser) .authNoPriv
    let agent' := agent.count .unsupportedSecLevels
    let arrivals : List Arrival :=
      [⟨Sample.plainFrame, .new, 1000⟩, ⟨Sample.signedFrame, .new, 1000⟩]
    processFrames Sample.crypto arrivals agent =
      .ok ([some (reportBytes agent'.ctx.inputs 7 .unsupportedSecLevels),
        some (Sample.signedResponse (Sample.signedResponseTag.val.take 24))], agent') ∧
    Accounted Sample.crypto Sample.plainFrame agent
      (some (reportBytes agent'.ctx.inputs 7 .unsupportedSecLevels)) agent' ∧
    ∀ counter : StatsCounter, (counter.select agent'.ctx.inputs).value.toNat =
      min 0xFFFFFFFF (countArrivals Sample.crypto agent counter arrivals) := by
  intro agent agent' arrivals
  obtain ⟨hone, hrun⟩ := counter_and_report_accounting Sample.crypto
  have hprocess : processSnmpv3Request Sample.crypto Sample.plainFrame .new agent =
      .ok (some (reportBytes agent'.ctx.inputs 7 .unsupportedSecLevels), agent') := by
    decide +kernel
  have hframes : processFrames Sample.crypto arrivals agent =
      .ok ([some (reportBytes agent'.ctx.inputs 7 .unsupportedSecLevels),
        some (Sample.signedResponse (Sample.signedResponseTag.val.take 24))], agent') := by
    decide +kernel
  refine ⟨hframes, (hone agent _ _ (by decide) (by decide)).2 _ _ hprocess, ?_⟩
  refine hrun agent arrivals (by decide) ?_ (fun counter => by cases counter <;> rfl) _ _ hframes
  simp only [arrivals, List.forall_mem_cons, List.not_mem_nil, false_imp_iff, implies_true,
    and_true]
  decide

end SnmpAgent
