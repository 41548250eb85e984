import SnmpAgent.Transport.Service
import SnmpAgent.Transport.Traps

/-!
# Messages that come back

Responses, reports and traps are no requests, and none of them asks for a report. So an agent is
silent about them, whether it is its own message that someone sends back or that of another agent
with the same user, and two agents never get into a conversation. `Mute` says what it is about such
a message, and each kind of message is shown to be `Mute`.
-/

namespace SnmpAgent
open Rust Tlv

/-! ## Messages without an answer -/

/-- A message that asks for no report and, for an agent with this user, has no request in it. -/
def Mute (crypto : Crypto) (usmUser : Option UsmUser) (bytes : Bytes) : Prop :=
  ∀ env, Ber.decodeV3Envelope bytes = .ok env →
    (MsgFlags.mk env.securityFlags).isReportable = false ∧
      ∀ scoped_, ¬ env.Carries crypto usmUser scoped_

section
variable {crypto : Crypto} {inputs : DispatchInputs} {bytes : Bytes}

theorem Mute.answerTo_eq (H : Mute crypto inputs.usmUser bytes)
    (hboots : inputs.engineBoots < 0x80000000) (htime : inputs.engineTime < 0x80000000)
    (mib : Store) : answerTo crypto inputs bytes mib = .silence := by
  cases hmsg : decodeV3Message bytes with
  | panic => exact absurd hmsg (returns_decodeV3Message bytes)
  | err e => simp only [answerTo, hmsg]
  | ok msg =>
    obtain ⟨env, M⟩ := isInbound_of_decode hmsg
    obtain ⟨hflag, hcarries⟩ := H env (decodeV3Envelope_eq_ok.mpr M.envelope)
    cases hadm : admission crypto inputs msg with
    | panic => exact absurd hadm (returns_admission _ _ _)
    | ok r =>
      obtain ⟨-, A⟩ := (M.admission_iff hboots htime).mp hadm
      exact absurd A.context (hcarries _)
    | err check =>
      have hreportable : msg.usm.securityFlags.isReportable = false := by
        rw [M.usm]
        exact hflag
      rw [answerTo_of_stage hmsg hadm, hreportable]
      cases check.stage.counter? <;> rfl

end

/-! ## The kinds of messages -/

/-- A PDU that only goes from an agent to a manager. -/
def IsOutbound (rawPdu : Bytes) : Prop :=
  ∃ tag requestId rawVarbindList,
    Ber.decodePdu rawPdu = .ok (.standard tag requestId rawVarbindList) ∧
      tag ∈ [tagResponse, tagTrap, tagReport]

section
variable {crypto : Crypto} {usmUser : Option UsmUser} {p : V3Params} {salt : SaltCounter}
  {rawPdu bytes : Bytes}

theorem IsOutbound.inbound_ne_ok (H : IsOutbound rawPdu) {decoded : DecodedPdu} {pdu : InboundPdu}
    (h : Ber.decodePdu rawPdu = .ok decoded) : decodedPduToInbound decoded ≠ .ok pdu := by
  obtain ⟨tag, requestId, rawVarbindList, hdecode, htag⟩ := H
  cases hdecode.symm.trans h
  have hne {other : UInt8} (hother : other ∉ [tagResponse, tagTrap, tagReport]) : tag ≠ other :=
    fun h => hother (h ▸ htag)
  rw [decodedPduToInbound, if_neg (hne (by decide)), if_neg (hne (by decide)),
    if_neg (hne (by decide))]
  intro hinbound
  cases hinbound

theorem isOutbound_responseTlv {pdu : GetResponse} (h : (responseTlv pdu).length < usizeSize) :
    IsOutbound (responseTlv pdu) :=
  ⟨_, _, _, Ber.decodePdu_pduTlv (.inr (by decide)) h, by decide⟩

theorem isOutbound_trapTlv {pdu : WireTrapPdu} (h : (trapTlv pdu).length < usizeSize) :
    IsOutbound (trapTlv pdu) :=
  ⟨_, _, _, Ber.decodePdu_pduTlv (.inr (by decide)) h, by decide⟩

theorem V3Params.isReportable_securityFlags (p : V3Params) :
    (MsgFlags.mk p.securityFlags).isReportable = false := by
  unfold V3Params.securityFlags
  cases p.auth.isSome <;> cases p.privacy.isSome <;> decide

/-- An agent with the key of the sender finds the PDU of the sender, and no other. -/
theorem mute_of_sealed (hcrypto : crypto.DecryptInverts) (hp : p.WF) (hs : p.Sendable)
    (hprivacy : p.privacy = usmUser.bind UsmUser.privacy) (hout : IsOutbound rawPdu)
    (hlen : bytes.length ≤ isizeMax) (H : p.Sealed crypto salt rawPdu bytes) :
    Mute crypto usmUser bytes := by
  intro env henv
  rw [H.length_eq] at hlen
  obtain ⟨pre, post, -, -, H⟩ := H
  cases (decodeV3Envelope_eq_ok.mpr H).symm.trans henv
  refine ⟨p.isReportable_securityFlags, fun scoped_ hcarries => ?_⟩
  unfold V3MessageEnvelope.Carries at hcarries
  cases hkey : p.privacy with
  | none =>
    have hdata : p.scopedData crypto salt rawPdu = .plaintext p.engineId p.contextName rawPdu := by
      rw [V3Params.scopedData, hkey]
    simp only [V3Params.envelope, envelopeOf, hdata] at hcarries
    obtain ⟨-, -, decoded, hdecode, hpdu⟩ := hcarries
    exact hout.inbound_ne_ok hdecode hpdu
  | some privacy =>
    obtain ⟨protocol, key⟩ := privacy
    obtain ⟨ciphertext, hdata, hsalt, hdecrypt⟩ := decrypt_scopedData hcrypto hp hs salt rawPdu hkey
    simp only [V3Params.envelope, envelopeOf, hdata] at hcarries
    obtain ⟨user, huser, credentials, hc, salt', hsalt', hscoped⟩ := hcarries
    have hcredentials := hkey.symm.trans (hprivacy.trans (UsmUser.bind_privacy_eq_some huser hc))
    cases hcredentials
    cases hsalt.symm.trans (PrivacySalt.tryFrom_eq_some.mpr hsalt')
    -- What the agent decrypts is the scoped PDU of the sender.
    have hplain := (congrArg decodeScopedPdu hdecrypt).symm.trans hscoped
    have hfields := decodeScopedPdu_scopedPduTlv
      (lt_of_le_of_lt (length_scopedPdu_le.trans hlen) isizeMax_lt)
    simp only [decodeScopedPdu, V3Params.scopedPdu, hfields, Res.bind_eq_ok, Res.mapErr_ok,
      Res.ok_bind, Res.mapErr_eq_ok] at hplain
    obtain ⟨decoded, hdecode, pdu, hpdu, -⟩ := hplain
    exact hout.inbound_ne_ok hdecode hpdu

theorem mute_of_reportsOn {inputs : DispatchInputs} {msgId : Int32} {counter : StatsCounter}
    (H : ReportsOn inputs msgId counter bytes) : Mute crypto usmUser bytes := by
  obtain ⟨offset, rawPdu, rawVarbindList, hdecode, hpdu, -⟩ := H
  intro env henv
  cases hdecode.symm.trans henv
  have hflag : (MsgFlags.mk 0x00).isReportable = false := by decide
  refine ⟨hflag, fun scoped_ hcarries => ?_⟩
  obtain ⟨-, -, decoded, hdecoded, hinbound⟩ := hcarries
  have hout : IsOutbound rawPdu := ⟨_, _, _, hpdu, by decide⟩
  exact hout.inbound_ne_ok hdecoded hinbound

theorem mute_of_response (hcrypto : crypto.DecryptInverts) {inputs : DispatchInputs}
    {msgId : Int32} {userName : Bytes} {pdu : GetResponse} {salt' : SaltCounter}
    (hid : 0 ≤ msgId.toInt) (hname : userName.length ≤ msgUserNameMaxLength)
    (h : (encodeV3Response crypto (responseParams inputs msgId userName []) pdu).run salt =
      .ok (bytes, salt')) : Mute crypto inputs.usmUser bytes := by
  have hp : (responseParams inputs msgId userName []).WF :=
    ⟨hid, hname, fun _ _ => length_authKey, fun _ _ => length_privKey⟩
  rw [run_encodeV3Response (errorIndex_lt_of_encodeV3Response h), Res.bind_eq_ok] at h
  obtain ⟨raw, hraw, h⟩ := h
  obtain ⟨rfl, hlen⟩ := capped_eq_ok.mp hraw
  obtain ⟨hs, -, hsealed, hbytes⟩ := encodeV3Envelope_inv hp h
  exact mute_of_sealed hcrypto hp hs rfl (isOutbound_responseTlv (hlen.trans_lt isizeMax_lt)) hbytes
    hsealed

theorem TrapSender.Emits.mute (hcrypto : crypto.DecryptInverts) {sender : TrapSender}
    {clock : Elapsed} {wirePdu : WireTrapPdu} {counters : TrapCounters}
    (hs : sender.Sendable clock) (hlen : bytes.length ≤ isizeMax)
    (H : sender.Emits crypto clock wirePdu counters bytes) :
    Mute crypto sender.usmUser bytes := by
  unfold TrapSender.Emits at H
  cases huser : sender.usmUser with
  | none =>
    simp only [huser] at H
    subst H
    intro env henv
    exact absurd (decodeV3Envelope_eq_ok.mp henv)
      (not_isEnvelope_v2cTlv (lt_of_le_of_lt hlen isizeMax_lt))
  | some user =>
    simp only [huser] at H
    have hraw : (trapTlv wirePdu).length ≤ isizeMax :=
      length_rawPdu_le.trans (H.length_eq ▸ hlen)
    exact mute_of_sealed hcrypto
      (sender.wf_params user (nextSequential_nonneg counters.msgId) _) (hs.params huser _) rfl
      (isOutbound_trapTlv (hraw.trans_lt isizeMax_lt)) hlen H

end

/-! ## Runs -/

section
variable {crypto : Crypto} {inputs : DispatchInputs} {frame : Bytes} {mib : Store}

/-- A response is about a message that was decoded. -/
theorem range_of_answerTo {msgId : Int32} {userName : Bytes} {pdu : GetResponse}
    (h : answerTo crypto inputs frame mib = .response msgId userName pdu) :
    0 ≤ msgId.toInt ∧ userName.length ≤ msgUserNameMaxLength := by
  cases hmsg : decodeV3Message frame with
  | panic =>
    simp only [answerTo, hmsg] at h
    cases h
  | err e =>
    simp only [answerTo, hmsg] at h
    cases h
  | ok msg =>
    obtain ⟨env, M⟩ := isInbound_of_decode hmsg
    cases hadm : admission crypto inputs msg with
    | panic => exact absurd hadm (returns_admission _ _ _)
    | ok r =>
      rw [answerTo_of_admission hmsg hadm] at h
      cases h
      rw [M.msgId, M.userName]
      exact ⟨M.envelope.msgId_nonneg, M.envelope.userName_le⟩
    | err check =>
      rw [answerTo_of_stage hmsg hadm] at h
      split at h
      · split at h <;> cases h
      · cases h

end

namespace EventLoop

/-- The bytes were sent by some agent with this user: as an answer in a run of its event loop, or as
a trap. -/
inductive Uttered (crypto : Crypto) (usmUser : Option UsmUser) : Bytes → Prop
  | answer {agent : Agent} {max : Nat} {timeoutConfig : ConnectionTimeoutConfig}
      {polls : List Poll} {o : Recorded} {exchange : Exchange} {bytes : Bytes}
      (huser : agent.ctx.inputs.usmUser = usmUser)
      (hboots : agent.ctx.inputs.engineBoots < 0x80000000)
      (ho : recordedRun crypto polls (new agent max timeoutConfig) = .ok o)
      (hmem : exchange ∈ o.log) (htime : exchange.arrival.engineTime < 0x80000000)
      (hresponse : exchange.response = some bytes) : Uttered crypto usmUser bytes
  | trap {A : Type} {sender : TrapSender} {call : TrapCall A} {counters counters' : TrapCounters}
      {report : TrapReport A} {send : A × Bytes} (huser : sender.usmUser = usmUser)
      (h : sender.sendTrap crypto call counters = .ok (report, counters'))
      (hsend : send ∈ report.sends) : Uttered crypto usmUser send.2

theorem Uttered.mute {crypto : Crypto} (hcrypto : crypto.DecryptInverts)
    {usmUser : Option UsmUser} {bytes : Bytes} (H : Uttered crypto usmUser bytes) :
    Mute crypto usmUser bytes := by
  cases H with
  | @answer agent max timeoutConfig polls o exchange _ huser hboots ho hmem htime hresponse =>
    have hconveyed := (served_recordedRun crypto agent max timeoutConfig polls ho).conveyed hboots
      hmem htime
    obtain ⟨inputs, salt, hconfig, -, hanswer⟩ := hconveyed
    have huser' : inputs.usmUser = usmUser :=
      (congrArg DispatchInputs.usmUser hconfig :).trans huser
    rw [hresponse] at hanswer
    generalize hkind : answerTo crypto _ exchange.frame exchange.arrival.mib = answer at hanswer
    cases answer with
    | silence => cases hanswer
    | report msgId counter =>
      obtain ⟨_, heq, hreport⟩ := hanswer
      cases heq
      exact mute_of_reportsOn hreport
    | response msgId userName pdu =>
      obtain ⟨_, salt', heq, hencode⟩ := hanswer
      cases heq
      obtain ⟨hid, hname⟩ := range_of_answerTo hkind
      exact huser' ▸ mute_of_response hcrypto hid hname hencode
  | @trap A sender call counters counters' report send huser h hsend =>
    rcases sender.sendTrap_cases crypto call counters with
      ⟨-, hx⟩ | ⟨c, -, ⟨hs, hmtu, datagram, hemits, hx⟩ | ⟨-, message, hx⟩⟩
    · cases h.symm.trans hx
    · cases h.symm.trans hx
      obtain ⟨destination, -, rfl⟩ := List.mem_map.mp hsend
      have hlen : datagram.length ≤ isizeMax := (hemits.length_eq.trans_le hmtu).trans (by decide)
      exact huser ▸ hemits.mute hcrypto hs hlen
    · cases h.symm.trans hx
      cases hsend

/-- **Reflection.** Whatever an agent has sent, at any time and to anyone: if it reaches that agent
or another one with the same user, in whatever life and among whatever other frames, then it is not
answered. So nobody can make an agent serve its own messages, and two agents do not keep each other
busy. -/
theorem own_messages_unanswered (crypto : Crypto) (hcrypto : crypto.DecryptInverts) (agent : Agent)
    (hboots : agent.ctx.inputs.engineBoots < 0x80000000) (max : Nat)
    (timeoutConfig : ConnectionTimeoutConfig) (polls : List Poll) {o : Recorded}
    (ho : recordedRun crypto polls (new agent max timeoutConfig) = .ok o) {exchange : Exchange}
    (hmem : exchange ∈ o.log) (htime : exchange.arrival.engineTime < 0x80000000)
    (H : Uttered crypto agent.ctx.inputs.usmUser exchange.frame) : exchange.response = none := by
  have hconveyed := (served_recordedRun crypto agent max timeoutConfig polls ho).conveyed hboots
    hmem htime
  have hmute : Mute crypto (agent.ctx.inputs.config.atTime exchange.arrival.engineTime).usmUser
      exchange.frame := H.mute hcrypto
  rw [hmute.answerTo_eq hboots htime] at hconveyed
  obtain ⟨inputs, salt, -, -, hanswer⟩ := hconveyed
  exact hanswer

/-- An encrypted request, and then the response to it. -/
def mirrored : List Poll :=
  [⟨[.listener [.stream true 0]], 0⟩,
    ⟨[.connection 2 1000 [.ok Sample.encryptedFrame 1] [true]], 1⟩,
    ⟨[.connection 2 1000 [.ok Sample.encryptedResponseFrame 2] [true]], 2⟩]

theorem own_messages_unanswered_sample :
    let agent := Sample.agent (some Sample.privUser) .authPriv
    ∃ o, recordedRun Sample.crypto mirrored (new agent 2 {}) = .ok o ∧
      ∃ first ∈ o.log, ∃ second ∈ o.log, first.response = some Sample.encryptedResponseFrame ∧
        second.frame = Sample.encryptedResponseFrame ∧ second.response = none := by
  intro agent
  have hlog : (fun o => (o.log.map fun exchange => (exchange.frame, exchange.arrival.engineTime),
        (o.log.map Exchange.response).head?)) <$>
      recordedRun Sample.crypto mirrored (new agent 2 {}) =
      .ok ([(Sample.encryptedFrame, 1000), (Sample.encryptedResponseFrame, 1000)],
        some (some Sample.encryptedResponseFrame)) := by
    decide +kernel
  obtain ⟨o, ho, hlog⟩ := Res.map_eq_ok.mp hlog
  obtain ⟨hframes, hhead⟩ := Prod.mk.inj hlog
  obtain ⟨first, hfirst, hresponse⟩ := List.mem_map.mp (List.mem_of_mem_head? hhead)
  obtain ⟨second, hsecond, heq⟩ : ∃ second ∈ o.log, (second.frame, second.arrival.engineTime) =
      (Sample.encryptedResponseFrame, 1000) := by
    rw [← List.mem_map, hframes]
    exact List.mem_cons_of_mem _ List.mem_cons_self
  have htime : ∀ exchange ∈ o.log, exchange.arrival.engineTime < 0x80000000 := by
    intro exchange hmem
    have hmem := List.mem_map_of_mem (f := fun e : Exchange => (e.frame, e.arrival.engineTime)) hmem
    rw [hframes, List.mem_cons, List.mem_singleton] at hmem
    rcases hmem with h | h
    · rw [(Prod.mk.inj h).2]
      decide
    · rw [(Prod.mk.inj h).2]
      decide
  have hutter : Uttered Sample.crypto agent.ctx.inputs.usmUser second.frame := by
    rw [(Prod.mk.inj heq).1]
    exact .answer rfl (by decide) ho hfirst (htime first hfirst) hresponse
  refine ⟨o, ho, first, hfirst, second, hsecond, hresponse, (Prod.mk.inj heq).1, ?_⟩
  exact own_messages_unanswered Sample.crypto (Crypto.decryptInverts_tabulated _ _) agent
    (by decide) 2 {} mirrored ho hsecond (htime second hsecond) hutter

end EventLoop

end SnmpAgent
