import SnmpAgent.Transport.Policy

/-!
# Exchanges between a manager and the agent

What one side seals the other side opens. `V3Params.Sealed.digest` and `V3Params.Sealed.decrypt` are
the two halves of it, the MAC and the cipher; from them come the checks of a peer on everything that
the agent sends, and the completeness of the pipeline on everything that a manager with the right
credentials sends.
-/

namespace SnmpAgent
open Rust Tlv

/-! ## Opening a sealed message -/

section
variable {crypto : Crypto} {p : V3Params} {salt : SaltCounter} {rawPdu bytes : Bytes}

/-- The message with zeros for its MAC is the one that the MAC was computed over. -/
theorem V3Params.Sealed.digest (H : p.Sealed crypto salt rawPdu bytes) :
    ∃ env, IsEnvelope env bytes ∧ (∃ offset, env = p.envelope crypto salt rawPdu
        (p.authParams crypto salt rawPdu) offset) ∧
      ∀ protocol key, p.auth = some (protocol, key) →
        env.usm.authParams.length = protocol.macLen ∧
        ∃ pre post, bytes = pre ++ env.usm.authParams ++ post ∧
          env.authParamsOffset = some pre.length ∧
          env.usm.authParams = protocol.mac crypto key
            (pre ++ .replicate env.usm.authParams.length 0 ++ post) := by
  obtain ⟨pre, post, hsplit, hbytes, henv⟩ := H
  refine ⟨_, henv, ⟨_, rfl⟩, fun protocol key hauth => ?_⟩
  have hlen := V3Params.length_authParams crypto p salt rawPdu
  rw [hauth, authPlaceholder, List.length_replicate] at hlen
  rw [hauth, authPlaceholder] at hsplit
  have hne : p.authParams crypto salt rawPdu ≠ [] := by
    rw [← List.length_pos_iff, hlen]
    exact protocol.macLen_pos
  have hmac : p.authParams crypto salt rawPdu =
      protocol.mac crypto key (p.unsigned crypto salt rawPdu) := by
    rw [V3Params.authParams, hauth]
  refine ⟨hlen, pre, post, hbytes, if_neg hne, ?_⟩
  change p.authParams crypto salt rawPdu = protocol.mac crypto key
    (pre ++ .replicate (p.authParams crypto salt rawPdu).length 0 ++ post)
  rw [hlen, ← hsplit]
  exact hmac

theorem iv_eq (hs : p.Sendable) (salt : SaltCounter) :
    aesIv ((u32TryFrom p.engineBoots.toInt32).getD 0xFFFFFFFF)
      ((u32TryFrom p.engineTime.toInt32).getD 0xFFFFFFFF) salt.salt = p.iv salt := by
  rw [u32TryFrom_toInt32 hs.boots_lt, u32TryFrom_toInt32 hs.time_lt]
  rfl

/-- The payload decrypts with what a receiver finds on the wire. -/
theorem decrypt_scopedData (hcrypto : crypto.DecryptInverts) (hp : p.WF) (hs : p.Sendable)
    (salt : SaltCounter) (rawPdu : Bytes) {protocol : PrivProtocol} {key : Bytes}
    (hprivacy : p.privacy = some (protocol, key)) :
    ∃ ciphertext, p.scopedData crypto salt rawPdu = .encrypted ciphertext ∧
      PrivacySalt.tryFrom (p.privParams salt) = some salt.salt ∧
      (crypto.cfbDecrypt protocol key (aesIv ((u32TryFrom p.engineBoots.toInt32).getD 0xFFFFFFFF)
        ((u32TryFrom p.engineTime.toInt32).getD 0xFFFFFFFF) salt.salt) ciphertext).val =
        p.scopedPdu rawPdu := by
  refine ⟨(crypto.cfbEncrypt protocol key (p.iv salt) (p.scopedPdu rawPdu)).val, ?_, ?_, ?_⟩
  · rw [V3Params.scopedData, hprivacy]
  · rw [V3Params.privParams, hprivacy]
    exact PrivacySalt.tryFrom_val _
  · rw [iv_eq hs]
    exact hcrypto protocol key _ _ (hp.length_privKey protocol key hprivacy)

end

/-! ## What the agent sends -/

/-- A peer with the same credentials opens the message, by the steps that the agent itself takes. -/
structure PeerChecks (crypto : Crypto) (p : V3Params) (rawPdu bytes : Bytes)
    (env : V3MessageEnvelope) : Prop where
  decodes : Ber.decodeV3Envelope bytes = .ok env
  auth_of_priv : (MsgFlags.mk env.securityFlags).isPriv → (MsgFlags.mk env.securityFlags).isAuth
  mac : ∀ protocol key, p.auth = some (protocol, key) →
    env.usm.authParams.length = protocol.macLen ∧
    verifyHmac crypto protocol key bytes env.usm.authParams env.authParamsOffset = true
  decrypts : ∀ protocol key, p.privacy = some (protocol, key) → ∃ ciphertext salt scopedPduBytes,
    env.scopedData = .encrypted ciphertext ∧ PrivacySalt.tryFrom env.usm.privParams = some salt ∧
    (Ber.encodeScopedPdu p.engineId p.contextName rawPdu : Res EncodeError Bytes) =
      .ok scopedPduBytes ∧
    protocol.decrypt crypto (aesIv ((u32TryFrom env.usm.engineBoots).getD 0xFFFFFFFF)
      ((u32TryFrom env.usm.engineTime).getD 0xFFFFFFFF) salt) key ciphertext = .ok scopedPduBytes

/-- An encoder whose messages a peer can check. It has privacy only together with authentication,
and it returns a message for all other parameters, unless the message does not fit into memory. -/
structure EmitsCheckable (crypto : Crypto) (p : V3Params) (salt : SaltCounter)
    (encode : Act SaltCounter EncodeError Bytes) (rawPdu : Bytes) : Prop where
  emitted : ∀ bytes salt', encode.run salt = .ok (bytes, salt') →
    (p.privacy.isSome → p.auth.isSome) ∧
    ∃ env, PeerChecks crypto p rawPdu bytes env
  emits : (p.privacy.isSome → p.auth.isSome) →
    (∃ bytes salt', encode.run salt = .ok (bytes, salt')) ∨
    (isizeMax < (p.unsigned crypto salt rawPdu).length ∧ encode.run salt = .panic)

section
variable {crypto : Crypto} {p : V3Params} {salt : SaltCounter} {rawPdu bytes : Bytes}

theorem peerChecks_of_sealed (hcrypto : crypto.DecryptInverts) (hp : p.WF) (hs : p.Sendable)
    (hlen : bytes.length ≤ isizeMax) (H : p.Sealed crypto salt rawPdu bytes) :
    ∃ env, PeerChecks crypto p rawPdu bytes env := by
  obtain ⟨env, henv, ⟨offset, rfl⟩, hdigest⟩ := H.digest
  refine ⟨_, decodeV3Envelope_eq_ok.mpr henv, ?_, fun protocol key hauth => ?_,
    fun protocol key hprivacy => ?_⟩
  · change (MsgFlags.mk p.securityFlags).isPriv → (MsgFlags.mk p.securityFlags).isAuth
    unfold V3Params.securityFlags
    cases p.auth.isSome <;> cases p.privacy.isSome <;> decide
  · obtain ⟨hmacLen, hsplit⟩ := hdigest protocol key hauth
    exact ⟨hmacLen, (verifyHmac_iff_split (hp.length_authKey protocol key hauth) henv).mpr hsplit⟩
  · obtain ⟨ciphertext, hdata, hsalt, hdecrypt⟩ :=
      decrypt_scopedData hcrypto hp hs salt rawPdu hprivacy
    refine ⟨ciphertext, salt.salt, p.scopedPdu rawPdu, hdata, hsalt, ?_, ?_⟩
    · rw [encodeScopedPdu_eq]
      have hscoped : (p.scopedPdu rawPdu).length ≤ (p.unsigned crypto salt rawPdu).length :=
        length_scopedPdu_le
      exact capped_of_le (hscoped.trans (H.length_eq ▸ hlen))
    · rw [PrivProtocol.decrypt_eq crypto _ _ (hp.length_privKey protocol key hprivacy)]
      exact congrArg Res.ok hdecrypt

/-- The encoders of the agent end with the envelope of a PDU. -/
theorem emitsCheckable (hcrypto : crypto.DecryptInverts) (hp : p.WF)
    (hboots : p.engineBoots < 0x80000000) (htime : p.engineTime < 0x80000000)
    {encode : Act SaltCounter EncodeError Bytes}
    (h : encode.run salt = capped rawPdu >>= fun raw => (encodeV3Envelope crypto p raw).run salt) :
    EmitsCheckable crypto p salt encode rawPdu := by
  constructor
  · intro bytes salt' hok
    rw [h, Res.bind_eq_ok] at hok
    obtain ⟨_, hraw, hok⟩ := hok
    obtain ⟨rfl, -⟩ := capped_eq_ok.mp hraw
    obtain ⟨hs, -, hsealed, hlen⟩ := encodeV3Envelope_inv hp hok
    exact ⟨hs.auth_of_privacy, peerChecks_of_sealed hcrypto hp hs hlen hsealed⟩
  · intro hauth
    rcases capped_encodeV3Envelope crypto salt rawPdu hp ⟨hboots, htime, hauth⟩ with
      ⟨hlen, hx⟩ | ⟨-, bytes, hx, -⟩
    · exact .inr ⟨hlen, h.trans hx⟩
    · exact .inl ⟨bytes, _, h.trans hx⟩

end

/-- **Outbound messages.** Every response and every trap can be checked by a peer. A response whose
error index is not representable is not sent. -/
theorem outbound_messages_checkable (crypto : Crypto) (hcrypto : crypto.DecryptInverts)
    (p : V3Params) (hp : p.WF) (hboots : p.engineBoots < 0x80000000)
    (htime : p.engineTime < 0x80000000) (salt : SaltCounter) :
    (∀ pdu : GetResponse, pdu.errorIndex < 0x80000000 →
      EmitsCheckable crypto p salt (encodeV3Response crypto p pdu) (responseTlv pdu)) ∧
    (∀ pdu : GetResponse, ¬ pdu.errorIndex < 0x80000000 →
      ∀ r, (encodeV3Response crypto p pdu).run salt ≠ .ok r) ∧
    ∀ pdu : WireTrapPdu,
      EmitsCheckable crypto p salt (encodeV3Trap crypto p pdu) (trapTlv pdu) := by
  refine ⟨fun pdu hindex => emitsCheckable hcrypto hp hboots htime (run_encodeV3Response hindex),
    fun pdu hindex r h => hindex (errorIndex_lt_of_encodeV3Response h),
    fun pdu => emitsCheckable hcrypto hp hboots htime (run_encodeV3Trap pdu)⟩

/-- An encrypted response. -/
theorem outbound_messages_checkable_sample :
    let p := responseParams (Sample.inputs (some Sample.privUser) .authPriv) 7 Sample.userName []
    (encodeV3Response Sample.crypto p Sample.response).run Sample.agentSalt =
      .ok (Sample.encryptedResponseFrame, Sample.agentSalt.next) ∧
    p.privacy.isSome ∧
    ∃ env, PeerChecks Sample.crypto p (responseTlv Sample.response)
      Sample.encryptedResponseFrame env := by
  intro p
  have h : (encodeV3Response Sample.crypto p Sample.response).run Sample.agentSalt =
      .ok (Sample.encryptedResponseFrame, Sample.agentSalt.next) := by
    decide +kernel
  have hp : p.WF := by
    refine ⟨by decide, by decide, ?_, ?_⟩
    · rintro _ _ ⟨⟩
      rfl
    · rintro _ _ ⟨⟩
      rfl
  obtain ⟨H, -⟩ := outbound_messages_checkable Sample.crypto (Crypto.decryptInverts_tabulated _ _)
    p hp (by decide) (by decide) Sample.agentSalt
  exact ⟨h, rfl, ((H Sample.response (by decide)).emitted _ _ h).2⟩

/-! ## What a manager sends -/

/-- The envelope of a manager's request: at the level of the user of the agent and for its
engine. -/
def requestParams (inputs : DispatchInputs) (msgId : Int32) (userName : Bytes)
    (engineTime : UInt32) : V3Params where
  msgId := msgId
  engineId := inputs.engineId
  userName := userName
  contextName := []
  engineBoots := inputs.engineBoots
  engineTime := engineTime
  auth := inputs.usmUser.bind UsmUser.auth
  privacy := inputs.usmUser.bind UsmUser.privacy

section
variable {crypto : Crypto} {inputs : DispatchInputs} {msgId : Int32} {userName : Bytes}
  {engineTime : UInt32} {managerSalt : SaltCounter} {raw frame : Bytes}

theorem wf_requestParams (hid : 0 ≤ msgId.toInt) (hname : userName.length ≤ msgUserNameMaxLength) :
    (requestParams inputs msgId userName engineTime).WF :=
  ⟨hid, hname, fun _ _ => length_authKey, fun _ _ => length_privKey⟩

variable {pdu : InboundPdu} {errorStatus errorIndex : Int32}

theorem decodeScopedData_request (hpdu : pdu.Representable)
    (hlen : (requestTlv pdu errorStatus errorIndex).length < usizeSize) :
    ∃ scopedData, decodeScopedData inputs.engineId ((requestParams inputs msgId userName
        engineTime).scopedData crypto managerSalt (requestTlv pdu errorStatus errorIndex)) =
      .ok (inputs.engineId, [], scopedData) := by
  unfold V3Params.scopedData
  cases h : (requestParams inputs msgId userName engineTime).privacy with
  | none =>
    obtain ⟨decoded, hdecode, hinbound⟩ := decodePdu_requestTlv hpdu hlen
    refine ⟨.plaintext pdu, ?_⟩
    simp only [decodeScopedData, hdecode, Res.mapErr_ok, Res.ok_bind, hinbound]
    rfl
  | some privacy => exact ⟨_, rfl⟩

/-- The payload carries the request to an agent with the key for it. -/
theorem carries_request (hcrypto : crypto.DecryptInverts)
    (hp : (requestParams inputs msgId userName engineTime).WF)
    (hs : (requestParams inputs msgId userName engineTime).Sendable) (hpdu : pdu.Representable)
    (hlen : ((requestParams inputs msgId userName engineTime).unsigned crypto managerSalt
      (requestTlv pdu errorStatus errorIndex)).length ≤ isizeMax) (authParams : Bytes)
      (offset : Nat) :
    ((requestParams inputs msgId userName engineTime).envelope crypto managerSalt
        (requestTlv pdu errorStatus errorIndex) authParams offset).Carries crypto inputs.usmUser
      ⟨inputs.engineId, [], pdu⟩ := by
  have hraw := lt_of_le_of_lt (length_rawPdu_le.trans hlen) isizeMax_lt
  obtain ⟨decoded, hdecode, hinbound⟩ := decodePdu_requestTlv hpdu hraw
  unfold V3MessageEnvelope.Carries V3Params.envelope
  cases h : (requestParams inputs msgId userName engineTime).privacy with
  | none =>
    rw [V3Params.scopedData, h]
    exact ⟨rfl, rfl, decoded, hdecode, hinbound⟩
  | some privacy =>
    obtain ⟨protocol, key⟩ := privacy
    obtain ⟨ciphertext, hdata, hsalt, hdecrypt⟩ := decrypt_scopedData hcrypto hp hs managerSalt
      (requestTlv pdu errorStatus errorIndex) h
    obtain ⟨user, huser, hcredentials⟩ := Option.bind_eq_some_iff.mp h
    rw [UsmUser.privacy_eq, Option.map_eq_some_iff] at hcredentials
    obtain ⟨credentials, hc, heq⟩ := hcredentials
    cases heq
    rw [hdata]
    refine ⟨user, huser, credentials, hc, managerSalt.salt, PrivacySalt.tryFrom_eq_some.mp hsalt,
      ?_⟩
    have hscoped := decodeScopedPdu_scopedPduTlv (lt_of_le_of_lt (length_scopedPdu_le.trans hlen)
      isizeMax_lt)
    refine (congrArg decodeScopedPdu hdecrypt).trans ?_
    unfold decodeScopedPdu
    rw [V3Params.scopedPdu, hscoped]
    simp only [Res.mapErr_ok, Res.ok_bind, hdecode, hinbound]
    rfl

/-- A request that was sealed with the credentials of the user is authentic. -/
theorem authentic_request (hcrypto : crypto.DecryptInverts) (hengine : inputs.engineId ≠ [])
    (hfloor : inputs.minimumSecurityLevel ≤ inputs.userLevel)
    (huser : ∀ user ∈ inputs.usmUser, userName = user.name.asBytes)
    (hwindow : ((engineTime.toNat : Int) - inputs.engineTime.toNat).natAbs ≤ 150)
    (hp : (requestParams inputs msgId userName engineTime).WF)
    (hs : (requestParams inputs msgId userName engineTime).Sendable) (hpdu : pdu.Representable)
    (hlen : frame.length ≤ isizeMax)
    (H : (requestParams inputs msgId userName engineTime).Sealed crypto managerSalt
      (requestTlv pdu errorStatus errorIndex) frame) :
    ∃ env msg, decodeV3Message frame = .ok msg ∧ IsInbound env frame msg ∧
      Authentic crypto inputs frame env pdu ∧ msg.msgId = msgId ∧ msg.maxSize = msgMaxSizeUdp ∧
      msg.userName = userName := by
  have hboots : inputs.engineBoots < 0x80000000 := hs.boots_lt
  have htime : engineTime < 0x80000000 := hs.time_lt
  have hraw := lt_of_le_of_lt (length_rawPdu_le.trans (H.length_eq ▸ hlen)) isizeMax_lt
  obtain ⟨scopedData, hdata⟩ : ∃ scopedData, decodeScopedData inputs.engineId ((requestParams inputs
      msgId userName engineTime).scopedData crypto managerSalt
      (requestTlv pdu errorStatus errorIndex)) =
        .ok (inputs.engineId, [], scopedData) := decodeScopedData_request hpdu hraw
  obtain ⟨env, henv, ⟨offset, rfl⟩, hdigest⟩ := H.digest
  obtain ⟨env', henv', hauth, hpriv, -, hencrypted⟩ := H.protection hs
  cases (decodeV3Envelope_eq_ok.mpr henv).symm.trans henv'
  refine ⟨_, _, decodeV3Message_eq_ok.mpr ⟨_, _, _, _, henv, hdata, rfl⟩,
    ⟨henv, rfl, rfl, rfl, rfl, rfl, rfl, rfl, hdata⟩, ?_, rfl, rfl, rfl⟩
  refine ⟨henv', rfl, ⟨inputs.userLevel, ?_, hfloor, le_refl _⟩, ?_, huser, ?_, ?_, ?_, hengine,
    fun _ => rfl⟩
  · rw [MsgFlags.securityLevel_eq_ok, hauth, hpriv]
    exact ⟨isSome_auth inputs, isSome_privacy inputs⟩
  · rw [hencrypted, Bool.eq_iff_iff, hpriv]
  · intro user hmem credentials hc
    refine (hdigest credentials.protocol credentials.key ?_).2
    change inputs.usmUser.bind UsmUser.auth = _
    rw [Option.mem_def.mp hmem, Option.bind_some, UsmUser.auth_eq, Option.mem_def.mp hc,
      Option.map_some]
  · intro user hmem hc
    change inputs.engineBoots.toInt32.toInt = _ ∧ 0 ≤ engineTime.toInt32.toInt ∧
      (engineTime.toInt32.toInt - _).natAbs ≤ 150
    rw [toInt_toInt32 hboots, toInt_toInt32 htime]
    exact ⟨rfl, Int.natCast_nonneg _, hwindow⟩
  · exact carries_request hcrypto hp hs hpdu (H.length_eq ▸ hlen) _ _

end

/-- **Serving.** The request of a manager with the name and the credentials of the user is answered
with the message that `encodeV3Response` makes of the handler's result, with the msgID, the user and
the credentials of the request. Only a response that does not fit into memory is not sent. -/
theorem request_served (crypto : Crypto) (hcrypto : crypto.DecryptInverts) (inputs : DispatchInputs)
    (hengine : 5 ≤ inputs.engineId.length ∧ inputs.engineId.length ≤ 32)
    (hfloor : inputs.minimumSecurityLevel ≤ inputs.userLevel)
    (hboots : inputs.engineBoots < 0x80000000) (htime : inputs.engineTime < 0x80000000)
    (mib : Store) (salt : SaltCounter) (msgId : Int32) (hid : 0 ≤ msgId.toInt) (userName : Bytes)
    (hname : userName.length ≤ 32) (huser : ∀ user ∈ inputs.usmUser, userName = user.name.asBytes)
    (engineTime : UInt32)
    (hwindow : ((engineTime.toNat : Int) - inputs.engineTime.toNat).natAbs ≤ 150)
    (pdu : InboundPdu) (hpdu : pdu.Representable) (errorStatus errorIndex : Int32) (raw : Bytes)
    (hraw : encodeRequest pdu errorStatus errorIndex = .ok raw)
    (managerSalt managerSalt' : SaltCounter) (frame : Bytes)
    (hframe : (encodeV3Envelope crypto (requestParams inputs msgId userName engineTime) raw).run
      managerSalt = .ok (frame, managerSalt')) :
    let response := encodeV3Response crypto (responseParams inputs msgId userName [])
      (handleRequest msgMaxSizeUdp mib pdu)
    (∃ bytes salt', response.run salt = .ok (bytes, salt') ∧
      processSnmpv3Request crypto frame mib ⟨⟨inputs⟩, salt⟩ =
      .ok (some bytes, ⟨⟨inputs⟩, salt'⟩)) ∨
    (isizeMax < ((responseParams inputs msgId userName []).unsigned crypto salt
        (responseTlv (handleRequest msgMaxSizeUdp mib pdu))).length ∧
      response.run salt = .panic ∧ processSnmpv3Request crypto frame mib ⟨⟨inputs⟩, salt⟩ =
      .panic) := by
  intro response
  obtain ⟨rfl, -⟩ := encodeRequest_eq_ok hraw
  have hp : (requestParams inputs msgId userName engineTime).WF := wf_requestParams hid hname
  obtain ⟨hs, -, hsealed, hlen⟩ := encodeV3Envelope_inv hp hframe
  have hne : inputs.engineId ≠ [] := by
    rintro h
    rw [h] at hengine
    exact absurd hengine.1 (by decide)
  obtain ⟨env, msg, hmsg, M, A, hmsgId, hmaxSize, huserName⟩ :=
    authentic_request hcrypto hne hfloor huser hwindow hp hs hpdu hlen hsealed
  have hadm : admission crypto (Agent.mk ⟨inputs⟩ salt).ctx.inputs msg = .ok (pdu, []) :=
    (M.admission_iff hboots htime).mpr ⟨rfl, A⟩
  have hprocess : processSnmpv3Request crypto frame mib ⟨⟨inputs⟩, salt⟩ = _ :=
    processSnmpv3Request_admitted hmsg hadm
  have hrun : response.run salt = _ :=
    run_encodeV3Response (errorIndex_handleRequest msgMaxSizeUdp mib pdu)
  rw [Agent.respond, hmsgId, huserName, hmaxSize] at hprocess
  rcases capped_encodeV3Envelope crypto salt (responseTlv (handleRequest msgMaxSizeUdp mib pdu))
    (p := responseParams inputs msgId userName []) ⟨hid, hname, fun _ _ => length_authKey,
      fun _ _ => length_privKey⟩
    (sendable_responseParams msgId userName [] hboots htime) with ⟨hlen', hx⟩ | ⟨-, bytes, hx, -⟩
  · have hpanic := hrun.trans hx
    exact .inr ⟨hlen', hpanic, by rw [hprocess, hpanic]⟩
  · have hok := hrun.trans hx
    exact .inl ⟨bytes, _, hok, by rw [hprocess, hok]⟩

namespace Sample

def encryptedFrame : Bytes :=
  encryptedRequest requestKeystream (encryptedRequestTag.val.take 24)

end Sample

/-- An encrypted request, and its encrypted response. -/
theorem request_served_sample :
    ∃ bytes salt', (encodeV3Response Sample.crypto
        (responseParams (Sample.inputs (some Sample.privUser) .authPriv) 7 Sample.userName [])
        Sample.response).run Sample.agentSalt = .ok (bytes, salt') ∧
      processSnmpv3Request Sample.crypto Sample.encryptedFrame .new
        (Sample.agent (some Sample.privUser) .authPriv) =
        .ok (some bytes, ⟨⟨Sample.inputs (some Sample.privUser) .authPriv⟩, salt'⟩) := by
  have H := request_served Sample.crypto (Crypto.decryptInverts_tabulated _ _)
    (Sample.inputs (some Sample.privUser) .authPriv) (by decide) (by decide) (by decide)
    (by decide) .new Sample.agentSalt 7 (by decide) Sample.userName (by decide)
    (by rintro user ⟨⟩; rfl) 1000 (by decide) Sample.request trivial 0 0
    (requestTlv Sample.request 0 0) (by decide +kernel) Sample.managerSalt
    Sample.managerSalt.next Sample.encryptedFrame (by decide +kernel)
  rcases H with H | ⟨-, hpanic, -⟩
  · exact H
  · have hok : (encodeV3Response Sample.crypto
        (responseParams (Sample.inputs (some Sample.privUser) .authPriv) 7 Sample.userName [])
        (handleRequest msgMaxSizeUdp .new Sample.request)).run Sample.agentSalt =
        .ok (Sample.encryptedResponseFrame, Sample.agentSalt.next) := by
      decide +kernel
    cases hok.symm.trans hpanic

end SnmpAgent
