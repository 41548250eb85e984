import SnmpAgent.Transport.Digest
import SnmpAgent.Transport.Validation

/-!
# The authentication gate

`Authentic` says on the wire what the checks demand: it speaks of the envelope of the frame and of
the bytes of the frame, and not of the decoded message. An agent that can send answers at all admits
exactly the authentic frames (`IsInbound.admission_iff`).
-/

namespace SnmpAgent
open Rust

/-! ## Levels -/

/-- The level of the configured user. Without a user there is nothing to authenticate with. -/
def DispatchInputs.userLevel (inputs : DispatchInputs) : SecurityLevel :=
  inputs.usmUser.elim .noAuthNoPriv UsmUser.securityLevel

section
variable {inputs : DispatchInputs}

/-- A legal level is accepted from the floor up to the level of the user. -/
theorem shouldRejectSecurityLevel_eq_false {msgLevel : Except InvalidMsgFlags SecurityLevel} :
    inputs.shouldRejectSecurityLevel msgLevel = false ↔ ∃ level, msgLevel = .ok level ∧
      inputs.minimumSecurityLevel ≤ level ∧ level ≤ inputs.userLevel := by
  rcases msgLevel with e | level
  · simp [DispatchInputs.shouldRejectSecurityLevel]
  · rcases h : inputs.usmUser with _ | user <;>
      simp [DispatchInputs.shouldRejectSecurityLevel, DispatchInputs.userLevel, h]

end

section
variable (inputs : DispatchInputs)

theorem isSome_auth : (inputs.usmUser.bind UsmUser.auth).isSome ↔
    .authNoPriv ≤ inputs.userLevel := by
  rcases h : inputs.usmUser with _ | user
  · simp only [DispatchInputs.userLevel, h]
    decide
  · simp [DispatchInputs.userLevel, h, UsmUser.auth_eq, UsmUser.authNoPriv_le_securityLevel]

theorem isSome_privacy :
    (inputs.usmUser.bind UsmUser.privacy).isSome ↔ inputs.userLevel = .authPriv := by
  rcases h : inputs.usmUser with _ | user
  · simp only [DispatchInputs.userLevel, h]
    decide
  · simp [DispatchInputs.userLevel, h, UsmUser.privacy_eq, UsmUser.securityLevel_eq_authPriv]

end

theorem new_eq_ok {inputs : DispatchInputs} {ctx : DispatchContext}
    (h : DispatchContext.new inputs = .ok ctx) : ctx = ⟨inputs⟩ := by
  unfold DispatchContext.new at h
  split at h <;> cases h
  rfl

/-! ## Times -/

/-- The window on the signed integers of the wire. The value that stands for a negative boots or
time is far from what an agent can send, so a negative time is outside even if it is near. -/
theorem isInTimeWindow_wire {wireBoots wireTime : Int32} {engineBoots engineTime : UInt32}
    (hboots : engineBoots < 0x80000000) (htime : engineTime < 0x80000000) :
    isInTimeWindow ((u32TryFrom wireBoots).getD 0xFFFFFFFF) ((u32TryFrom wireTime).getD 0xFFFFFFFF)
        engineBoots engineTime = true ↔
      wireBoots.toInt = engineBoots.toNat ∧ 0 ≤ wireTime.toInt ∧
        (wireTime.toInt - engineTime.toNat).natAbs ≤ 150 := by
  have hb : engineBoots.toNat < 2 ^ 31 := UInt32.lt_iff_toNat_lt.mp hboots
  have ht : engineTime.toNat < 2 ^ 31 := UInt32.lt_iff_toNat_lt.mp htime
  rw [isInTimeWindow_iff, ← UInt32.toNat_inj]
  rcases toNat_u32TryFrom_getD wireBoots with ⟨_, h₁⟩ | ⟨_, h₁⟩ <;>
    rcases toNat_u32TryFrom_getD wireTime with ⟨_, h₂⟩ | ⟨_, h₂⟩ <;> omega

/-! ## Authentic frames -/

def ScopedData.isEncrypted : ScopedData → Bool
  | .plaintext .. => false
  | .encrypted _ => true

/-- The payload is this `ScopedPdu`, in clear or under the privacy key of the configured user. -/
def V3MessageEnvelope.Carries (crypto : Crypto) (usmUser : Option UsmUser) (env : V3MessageEnvelope)
    (scoped_ : DecodedScopedPdu) : Prop :=
  match env.scopedData with
  | .plaintext contextEngineId contextName rawPdu =>
    contextEngineId = scoped_.contextEngineId ∧ contextName = scoped_.contextName ∧
      ∃ decoded, Ber.decodePdu rawPdu = .ok decoded ∧ decodedPduToInbound decoded = .ok scoped_.pdu
  | .encrypted ciphertext =>
    ∃ user ∈ usmUser, ∃ credentials ∈ user.privCredentials, ∃ salt : PrivacySalt,
      salt.val = env.usm.privParams ∧
      decodeScopedPdu (crypto.cfbDecrypt credentials.protocol credentials.key
        (aesIv ((u32TryFrom env.usm.engineBoots).getD 0xFFFFFFFF)
          ((u32TryFrom env.usm.engineTime).getD 0xFFFFFFFF) salt) ciphertext).val = .ok scoped_

theorem V3MessageEnvelope.Carries.unique {crypto : Crypto} {usmUser : Option UsmUser}
    {env : V3MessageEnvelope} {scoped_ scoped' : DecodedScopedPdu}
    (h : env.Carries crypto usmUser scoped_)
    (h' : env.Carries crypto usmUser scoped') : scoped_ = scoped' := by
  unfold V3MessageEnvelope.Carries at h h'
  cases hd : env.scopedData with
  | plaintext contextEngineId contextName rawPdu =>
    rw [hd] at h h'
    obtain ⟨hid, hname, decoded, hdecode, hpdu⟩ := h
    obtain ⟨hid', hname', decoded', hdecode', hpdu'⟩ := h'
    obtain rfl := Res.ok.inj (hdecode.symm.trans hdecode')
    obtain ⟨_, _, _⟩ := scoped_
    obtain ⟨_, _, _⟩ := scoped'
    cases hpdu.symm.trans hpdu'
    exact congrArg₂ (DecodedScopedPdu.mk · · _) (hid.symm.trans hid') (hname.symm.trans hname')
  | encrypted ciphertext =>
    rw [hd] at h h'
    obtain ⟨user, huser, credentials, hc, salt, hsalt, hdecode⟩ := h
    obtain ⟨user', huser', credentials', hc', salt', hsalt', hdecode'⟩ := h'
    obtain rfl := Option.some.inj ((Option.mem_def.mp huser).symm.trans (Option.mem_def.mp huser'))
    obtain rfl := Option.some.inj ((Option.mem_def.mp hc).symm.trans (Option.mem_def.mp hc'))
    obtain rfl := Subtype.ext (hsalt.trans hsalt'.symm)
    exact Res.ok.inj (hdecode.symm.trans hdecode')

/-- The frame is a request for this agent by its user, sent now and at an accepted level. -/
structure Authentic (crypto : Crypto) (inputs : DispatchInputs) (frame : Bytes)
    (env : V3MessageEnvelope) (pdu : InboundPdu) : Prop where
  decodes : Ber.decodeV3Envelope frame = .ok env
  usm : env.securityModel = 3
  level : ∃ level, (MsgFlags.mk env.securityFlags).securityLevel = .ok level ∧
    inputs.minimumSecurityLevel ≤ level ∧ level ≤ inputs.userLevel
  privFlag : (MsgFlags.mk env.securityFlags).isPriv = env.scopedData.isEncrypted
  userName : ∀ user ∈ inputs.usmUser, env.usm.userName = user.name.asBytes
  digest : ∀ user ∈ inputs.usmUser, ∀ credentials ∈ user.authCredentials,
    ∃ pre post, frame = pre ++ env.usm.authParams ++ post ∧
      env.authParamsOffset = some pre.length ∧
      env.usm.authParams = credentials.protocol.mac crypto credentials.key
        (pre ++ .replicate env.usm.authParams.length 0 ++ post)
  timely : ∀ user ∈ inputs.usmUser, user.authCredentials.isSome →
    env.usm.engineBoots.toInt = inputs.engineBoots.toNat ∧ 0 ≤ env.usm.engineTime.toInt ∧
      (env.usm.engineTime.toInt - inputs.engineTime.toNat).natAbs ≤ 150
  context : env.Carries crypto inputs.usmUser ⟨inputs.engineId, [], pdu⟩
  engine_ne_nil : env.usm.engineId ≠ []
  engine_of_encrypted : env.scopedData.isEncrypted → env.usm.engineId = inputs.engineId

section
variable {crypto : Crypto} {inputs : DispatchInputs} {frame : Bytes} {env : V3MessageEnvelope}

theorem verifyHmac_iff_split {protocol : AuthProtocol} {key : Bytes}
    (hkey : key.length = protocol.keyLen) (H : IsEnvelope env frame) :
    verifyHmac crypto protocol key frame env.usm.authParams env.authParamsOffset = true ↔
      ∃ pre post, frame = pre ++ env.usm.authParams ++ post ∧
        env.authParamsOffset = some pre.length ∧
        env.usm.authParams = protocol.mac crypto key
          (pre ++ .replicate env.usm.authParams.length 0 ++ post) := by
  obtain ⟨pre, post, hframe, hoff, hlt, -⟩ := H.split
  rw [verifyHmac_iff hkey H]
  constructor
  · intro hmac
    have hne : env.usm.authParams ≠ [] := by
      rw [hmac, ← List.length_pos_iff, AuthProtocol.length_mac]
      exact protocol.macLen_pos
    refine ⟨pre, post, hframe, hoff.trans (if_neg hne), ?_⟩
    rwa [← zeroed_eq hframe hoff hlt]
  · rintro ⟨pre', post', hframe', hoff', hmac⟩
    have hne : env.usm.authParams ≠ [] := by
      rw [hmac, ← List.length_pos_iff, AuthProtocol.length_mac]
      exact protocol.macLen_pos
    have hlen : pre'.length = pre.length := by
      rw [hoff, recordedOffset, if_neg hne, Option.some.injEq] at hoff'
      exact hoff'.symm
    have hzero : env.zeroed frame = pre' ++ .replicate env.usm.authParams.length 0 ++ post' :=
      zeroed_eq hframe' (hoff'.trans (if_neg hne).symm) (hlen ▸ hlt)
    rwa [hzero]

/-- The frame decodes to this message through this envelope. -/
structure IsInbound (env : V3MessageEnvelope) (frame : Bytes) (msg : V3InboundMessage) : Prop where
  envelope : IsEnvelope env frame
  msgId : msg.msgId = env.msgId
  maxSize : msg.maxSize = env.maxSize
  securityModel : msg.securityModel = ⟨env.securityModel⟩
  userName : msg.userName = env.usm.userName
  usm : msg.usm = .ofWire env.usm env.securityFlags
  rawMessage : msg.rawMessage = frame
  authParamsOffset : msg.authParamsOffset = env.authParamsOffset
  scopedData : decodeScopedData env.usm.engineId env.scopedData =
    .ok (msg.engineId, msg.contextName, msg.scopedData)

variable {msg : V3InboundMessage}

theorem isInbound_of_decode (hmsg : decodeV3Message frame = .ok msg) :
    ∃ env, IsInbound env frame msg := by
  obtain ⟨env, engineId, contextName, scopedData, H, hdata, rfl⟩ := decodeV3Message_eq_ok.mp hmsg
  exact ⟨env, H, rfl, rfl, rfl, rfl, rfl, rfl, rfl, hdata⟩

theorem IsInbound.digestValid_iff (M : IsInbound env frame msg) :
    inputs.digestValid crypto msg = true ↔ ∀ user ∈ inputs.usmUser,
      ∀ credentials ∈ user.authCredentials,
        ∃ pre post, frame = pre ++ env.usm.authParams ++ post ∧
          env.authParamsOffset = some pre.length ∧
          env.usm.authParams = credentials.protocol.mac crypto credentials.key
            (pre ++ .replicate env.usm.authParams.length 0 ++ post) := by
  rw [DispatchInputs.digestValid, M.rawMessage, M.usm, M.authParamsOffset]
  rcases inputs.usmUser with _ | user
  · simp
  rcases hc : user.authCredentials with _ | credentials
  · simp [UsmUser.auth_eq, hc]
  simp only [Option.bind_some, UsmUser.auth_eq, hc, Option.map_some, UsmSecurityFields.ofWire,
    AuthenticationParams.tryFrom_bytes, verifyHmac_iff_split credentials.length_key M.envelope,
    Option.mem_def, Option.some.injEq, forall_eq']

theorem IsInbound.timely_iff (M : IsInbound env frame msg)
    (hboots : inputs.engineBoots < 0x80000000) (htime : inputs.engineTime < 0x80000000) :
    inputs.timely msg = true ↔ ∀ user ∈ inputs.usmUser, user.authCredentials.isSome →
      env.usm.engineBoots.toInt = inputs.engineBoots.toNat ∧ 0 ≤ env.usm.engineTime.toInt ∧
        (env.usm.engineTime.toInt - inputs.engineTime.toNat).natAbs ≤ 150 := by
  rw [DispatchInputs.timely, M.usm]
  rcases inputs.usmUser with _ | user
  · simp
  rcases hc : user.authCredentials with _ | credentials
  · simp [UsmUser.authProtocol, hc]
  · simp [UsmUser.authProtocol, hc, UsmSecurityFields.ofWire, isInTimeWindow_wire hboots htime]

theorem decrypted_eq_ok {ciphertext contextName : Bytes} {pdu : InboundPdu} :
    inputs.decrypted crypto msg ciphertext = .ok (pdu, contextName) ↔ contextName = [] ∧
      ∃ user ∈ inputs.usmUser, ∃ credentials ∈ user.privCredentials, ∃ salt,
        msg.usm.privParams = some salt ∧
        decodeScopedPdu (crypto.cfbDecrypt credentials.protocol credentials.key
          (aesIv msg.usm.authEngineBoots msg.usm.authEngineTime salt) ciphertext).val =
            .ok ⟨inputs.engineId, [], pdu⟩ := by
  unfold DispatchInputs.decrypted
  rcases inputs.usmUser with _ | user
  · simp
  rcases hc : user.privCredentials with _ | credentials
  · simp [UsmUser.privacy_eq, hc]
  rcases hs : msg.usm.privParams with _ | salt
  · simp [UsmUser.privacy_eq, hc]
  simp only [Option.bind_some, UsmUser.privacy_eq, hc, Option.map_some, Res.bind_eq_ok,
    Res.mapErr_eq_ok, PrivProtocol.decrypt_eq crypto _ _ credentials.length_key, ensure_eq_ok,
    Option.mem_def, Option.some.injEq, exists_eq_left', Res.ok.injEq, decide_eq_true_eq,
    List.isEmpty_iff, Prod.mk.injEq]
  constructor
  · rintro ⟨decoded, hdecoded, _, hid, _, hname, rfl, rfl⟩
    exact ⟨hname, by rw [hdecoded, ← hid, ← hname]⟩
  · rintro ⟨rfl, hdecoded⟩
    exact ⟨_, hdecoded, (), rfl, (), rfl, rfl, rfl⟩

/-- The request that the agent finds in the payload is the one that the payload carries. -/
theorem IsInbound.opened_iff (M : IsInbound env frame msg) {contextName : Bytes}
    {pdu : InboundPdu} :
    msg.engineId = inputs.engineId ∧ msg.contextName = [] ∧
        inputs.opened crypto msg = .ok (pdu, contextName) ↔
      contextName = [] ∧ env.Carries crypto inputs.usmUser ⟨inputs.engineId, [], pdu⟩ ∧
        (env.scopedData.isEncrypted → env.usm.engineId = inputs.engineId) := by
  unfold V3MessageEnvelope.Carries DispatchInputs.opened
  have hdata := M.scopedData
  cases hd : env.scopedData with
  | plaintext contextEngineId name rawPdu =>
    simp only [hd, decodeScopedData, Res.bind_eq_ok, Res.mapErr_eq_ok, Res.ok.injEq,
      Prod.mk.injEq] at hdata
    obtain ⟨decoded, hpdu, pdu', hinbound, hid, hname, hscoped⟩ := hdata
    simp only [← hid, ← hname, ← hscoped, hpdu, Res.ok.injEq, Prod.mk.injEq, exists_eq_left',
      hinbound, ScopedData.isEncrypted, Bool.false_eq_true, false_implies, and_true]
    constructor
    · rintro ⟨rfl, rfl, rfl, rfl⟩
      exact ⟨rfl, rfl, rfl, rfl⟩
    · rintro ⟨rfl, rfl, rfl, rfl⟩
      exact ⟨rfl, rfl, rfl, rfl⟩
  | encrypted ciphertext =>
    simp only [hd, decodeScopedData, Res.ok.injEq, Prod.mk.injEq] at hdata
    obtain ⟨hid, hname, hscoped⟩ := hdata
    simp only [← hid, ← hname, ← hscoped, decrypted_eq_ok, M.usm, UsmSecurityFields.ofWire,
      PrivacySalt.tryFrom_eq_some, ScopedData.isEncrypted, true_and, forall_const]
    exact and_rotate

theorem IsInbound.isEncrypted_eq (M : IsInbound env frame msg) :
    msg.scopedData.isEncrypted = env.scopedData.isEncrypted := by
  have hdata := M.scopedData
  cases hd : env.scopedData with
  | plaintext contextEngineId name rawPdu =>
    simp only [hd, decodeScopedData, Res.bind_eq_ok, Res.ok.injEq, Prod.mk.injEq] at hdata
    obtain ⟨_, _, _, _, _, _, hscoped⟩ := hdata
    rw [← hscoped]
    rfl
  | encrypted ciphertext =>
    simp only [hd, decodeScopedData, Res.ok.injEq, Prod.mk.injEq] at hdata
    rw [← hdata.2.2]
    rfl

theorem IsInbound.nameMatches_iff (M : IsInbound env frame msg) :
    inputs.nameMatches msg = true ↔ ∀ user ∈ inputs.usmUser, env.usm.userName =
      user.name.asBytes := by
  rw [DispatchInputs.nameMatches, M.userName]
  cases inputs.usmUser <;> simp

theorem IsInbound.isUsm_iff (M : IsInbound env frame msg) :
    msg.securityModel.isUsm = true ↔ env.securityModel = 3 := by
  rw [M.securityModel]
  simp [SecurityModel.isUsm, SecurityModel.usm]

/-- An agent that can send admits a message exactly if its frame is authentic. -/
theorem IsInbound.admission_iff (M : IsInbound env frame msg) {contextName : Bytes}
    {pdu : InboundPdu}
    (hboots : inputs.engineBoots < 0x80000000) (htime : inputs.engineTime < 0x80000000) :
    admission crypto inputs msg = .ok (pdu, contextName) ↔
      contextName = [] ∧ Authentic crypto inputs frame env pdu := by
  rw [admission_eq_ok, M.isUsm_iff, M.nameMatches_iff, shouldRejectSecurityLevel_eq_false,
    M.isEncrypted_eq, M.digestValid_iff, M.timely_iff hboots htime, M.usm]
  constructor
  · rintro ⟨husm, hne, hid, hname, hlevel, hpriv, hdigest, htimely, hctx, hopened⟩
    obtain ⟨hnil, hcarries, hengine⟩ := M.opened_iff.mp ⟨hid, hctx, hopened⟩
    exact ⟨hnil, decodeV3Envelope_eq_ok.mpr M.envelope, husm, hlevel, hpriv, hname, hdigest,
      htimely, hcarries, hne, hengine⟩
  · rintro ⟨hnil, A⟩
    obtain ⟨hid, hctx, hopened⟩ := M.opened_iff.mpr ⟨hnil, A.context, A.engine_of_encrypted⟩
    exact ⟨A.usm, A.engine_ne_nil, hid, A.userName, A.level, A.privFlag, A.digest, A.timely, hctx,
      hopened⟩

/-- An agent whose boots or time is past the signed range sends nothing, whatever its store
holds. -/
theorem respond_of_not_sendable {agent : Agent}
    (h : ¬ (agent.ctx.inputs.engineBoots < 0x80000000 ∧ agent.ctx.inputs.engineTime < 0x80000000))
    (crypto : Crypto) (mib : Store) (msg : V3InboundMessage) (pdu : InboundPdu)
    (contextName : Bytes) :
    agent.respond crypto mib msg pdu contextName = .panic ∨
      ∃ e, agent.respond crypto mib msg pdu contextName = .err (e, agent.salt) := by
  rw [Agent.respond, run_encodeV3Response (errorIndex_handleRequest ..)]
  by_cases hraw : (responseTlv (handleRequest msg.maxSize mib pdu)).length ≤ isizeMax
  · rw [capped_of_le hraw, Res.ok_bind]
    exact .inr (encodeV3Envelope_err crypto agent.salt _ h)
  · exact .inl (by rw [capped, if_neg hraw, Res.panic_bind])

/-- The store is not looked at before a frame is admitted. -/
theorem processSnmpv3Request_of_not_admitted {agent : Agent} {mib mib' : Store}
    {r r' : Option Bytes × Agent} (hmsg : decodeV3Message frame = .ok msg)
    (hadm : ∀ a, admission crypto agent.ctx.inputs msg = .ok a →
      ¬ (agent.ctx.inputs.engineBoots < 0x80000000 ∧ agent.ctx.inputs.engineTime < 0x80000000))
    (h : processSnmpv3Request crypto frame mib agent = .ok r)
    (h' : processSnmpv3Request crypto frame mib' agent = .ok r') : r = r' := by
  cases ha : admission crypto agent.ctx.inputs msg with
  | panic =>
    rw [processSnmpv3Request, runValidationPipeline_panic hmsg ha] at h
    cases h
  | err check =>
    rw [processSnmpv3Request_eq_reject hmsg ha] at h h'
    exact Res.ok.inj (h.symm.trans h')
  | ok a =>
    rw [processSnmpv3Request_admitted hmsg ha] at h h'
    rcases respond_of_not_sendable (hadm a ha) crypto mib msg a.1 a.2 with hr | ⟨e, hr⟩
    · simp [hr] at h
    rcases respond_of_not_sendable (hadm a ha) crypto mib' msg a.1 a.2 with hr' | ⟨e', hr'⟩
    · simp [hr'] at h'
    rw [hr] at h
    rw [hr'] at h'
    exact Res.ok.inj (h.symm.trans h')

end

/-- **The authentication gate.** Only an authentic frame is answered with anything but nothing or a
report, and what is done with any other frame is the same for every two stores. -/
theorem response_only_to_authentic (crypto : Crypto) (frame : Bytes) (inputs : DispatchInputs)
    (ctx : DispatchContext) (hctx : DispatchContext.new inputs = .ok ctx) (salt : SaltCounter) :
    (∀ mib bytes agent', processSnmpv3Request crypto frame mib ⟨ctx, salt⟩ =
      .ok (some bytes, agent') → isReport bytes = false →
      (∃ msg, decodeV3Message frame = .ok msg) ∧ ∃ env pdu, Authentic crypto inputs frame env pdu) ∧
    ((¬ ∃ env pdu, Authentic crypto inputs frame env pdu) → ∀ mib mib' r r',
      processSnmpv3Request crypto frame mib ⟨ctx, salt⟩ = .ok r →
      processSnmpv3Request crypto frame mib' ⟨ctx, salt⟩ = .ok r' → r = r') := by
  obtain rfl := new_eq_ok hctx
  refine ⟨fun mib bytes agent' h hreport => ?_, fun hno mib mib' r r' h h' => ?_⟩
  · obtain ⟨msg, pdu, contextName, _, hmsg, hadm, hr, -⟩ :=
      processSnmpv3Request_response.mp ⟨h, hreport⟩
    obtain ⟨env, M⟩ := isInbound_of_decode hmsg
    -- A response was sent, so boots and time are in the signed range.
    obtain ⟨hs, -⟩ := respond_inv hmsg hr
    exact ⟨⟨msg, hmsg⟩, env, pdu, ((M.admission_iff hs.boots_lt hs.time_lt).mp hadm).2⟩
  · cases hmsg : decodeV3Message frame with
    | panic =>
      rw [processSnmpv3Request, runValidationPipeline, hmsg] at h
      cases h
    | err e =>
      rw [processSnmpv3Request_undecodable hmsg] at h h'
      exact Res.ok.inj (h.symm.trans h')
    | ok msg =>
      obtain ⟨env, M⟩ := isInbound_of_decode hmsg
      refine processSnmpv3Request_of_not_admitted hmsg (fun a ha hs => hno ?_) h h'
      exact ⟨env, a.1, ((M.admission_iff hs.1 hs.2).mp ha).2⟩

/-! ## The sample agent -/

namespace Sample

def authUser : UsmUser where
  name := ⟨userName, by decide, by decide⟩
  authCredentials := some ⟨.hmacSha256, key, by decide⟩
  privCredentials := none
  auth_of_priv := nofun

def privUser : UsmUser where
  name := ⟨userName, by decide, by decide⟩
  authCredentials := some ⟨.hmacSha256, key, by decide⟩
  privCredentials := some ⟨.aes128, key.take 16, by decide⟩
  auth_of_priv := fun _ => rfl

def inputs (usmUser : Option UsmUser) (minimumSecurityLevel : SecurityLevel) : DispatchInputs where
  engineId := engineId
  engineBoots := 3
  engineTime := 1000
  unknownEngineIdsCounter := ⟨0⟩
  unknownUserNamesCounter := ⟨0⟩
  unsupportedSecLevelsCounter := ⟨0⟩
  wrongDigestsCounter := ⟨0⟩
  notInTimeWindowsCounter := ⟨0⟩
  decryptionErrorsCounter := ⟨0⟩
  unknownSecurityModelsCounter := ⟨0⟩
  usmUser := usmUser
  minimumSecurityLevel := minimumSecurityLevel

def agent (usmUser : Option UsmUser) (minimumSecurityLevel : SecurityLevel) : Agent :=
  ⟨⟨inputs usmUser minimumSecurityLevel⟩, agentSalt⟩

end Sample

theorem response_only_to_authentic_sample :
    processSnmpv3Request Sample.crypto Sample.signedFrame .new
        (Sample.agent (some Sample.authUser) .authNoPriv) =
      .ok (some (Sample.signedResponse (Sample.signedResponseTag.val.take 24)),
        Sample.agent (some Sample.authUser) .authNoPriv) ∧
    ∃ env pdu, Authentic Sample.crypto (Sample.inputs (some Sample.authUser) .authNoPriv)
      Sample.signedFrame env pdu := by
  have h : processSnmpv3Request Sample.crypto Sample.signedFrame .new
        (Sample.agent (some Sample.authUser) .authNoPriv) =
      .ok (some (Sample.signedResponse (Sample.signedResponseTag.val.take 24)),
        Sample.agent (some Sample.authUser) .authNoPriv) := by
    decide +kernel
  have H := response_only_to_authentic Sample.crypto Sample.signedFrame
    (Sample.inputs (some Sample.authUser) .authNoPriv)
    (Sample.agent (some Sample.authUser) .authNoPriv).ctx (by decide +kernel) Sample.agentSalt
  exact ⟨h, (H.1 _ _ _ h (by decide +kernel)).2⟩

end SnmpAgent
