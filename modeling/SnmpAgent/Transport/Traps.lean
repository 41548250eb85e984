import SnmpAgent.Lib.Disk
import SnmpAgent.Transport.Exchange
import SnmpAgent.Transport.Startup

/-!
# Traps (`transport/trap.rs`)

A trap is encoded once, on the thread of the caller, and handed to the socket for each of its
destinations. Without a user it is an SNMPv2c message, with a user an SNMPv3 message whose msgID is
drawn from a counter that all agents of the process share.

The other side is a `receive` of our own: a manager that takes a datagram apart with the decoders of
the agent, and with the keys of the user if there is one.
-/

namespace SnmpAgent
open Rust Tlv BerReader

/-! ## The PDU (`transport/request.rs`) -/

/-- The trap as the application gives it. -/
structure TrapPdu where
  requestId : Int32
  trapOid : Oid
  varbinds : List Varbind

def sysUpTimeOid : Oid := ⟨[1, 3, 6, 1, 2, 1, 1, 3, 0], rfl⟩

def snmpTrapOidOid : Oid := ⟨[1, 3, 6, 1, 6, 3, 1, 1, 4, 1, 0], rfl⟩

/-- The time since the start, in nanoseconds. -/
abbrev Elapsed := Nat

/-- `as_millis() / 10`, saturated. -/
def elapsedHundredths (elapsed : Elapsed) : UInt32 :=
  .ofNat (min (elapsed / 1000000 / 10) 0xFFFFFFFF)

/-- `u32::try_from(as_secs()).unwrap_or(u32::MAX)`. -/
def engineTimeSecs (elapsed : Elapsed) : UInt32 := .ofNat (min (elapsed / 1000000000) 0xFFFFFFFF)

def buildWireTrap (apiPdu : TrapPdu) (elapsed : Elapsed) : WireTrapPdu where
  requestId := apiPdu.requestId
  varbinds :=
    ⟨sysUpTimeOid, .value (.timeTicks (elapsedHundredths elapsed))⟩ ::
    ⟨snmpTrapOidOid, .value (.objectIdentifier apiPdu.trapOid)⟩ :: apiPdu.varbinds

/-! ## Sending -/

def trapMtuBytes : Nat := 1500

/-- `MessageId::next_sequential`: the identifier, and the counter behind it. -/
def nextSequential (counter : Int32) : Int32 × Int32 := (counter &&& Int32.maxValue, counter + 1)

/-- The two counters of the process that traps draw from. -/
structure TrapCounters where
  msgId : Int32
  salt : SaltCounter

structure TrapResult (A : Type) where
  destination : A
  outcome : Except IoError Unit

/-- One call of `send_trap`, with what the clock shows when the PDU is built and when it is encoded,
and with what the socket returns for each destination. -/
structure TrapCall (A : Type) where
  pdu : TrapPdu
  destinations : List A
  uptime : Elapsed
  clock : Elapsed
  sendTo : Nat → Except IoError Unit

/-- What the caller gets, and the datagrams that the socket was given, in order. -/
structure TrapReport (A : Type) where
  results : List (TrapResult A)
  sends : List (A × Bytes)

inductive TrapError where
  | emptyDestinations
  deriving DecidableEq

section
variable {A : Type}

def encodeErrorForAll (destinations : List A) (message : String) : List (TrapResult A) :=
  destinations.map fun destination => ⟨destination, .error ⟨.invalidData, message⟩⟩

/-- The report of a call that ends before anything is sent. -/
def TrapCall.refuse (call : TrapCall A) (message : String) : TrapReport A :=
  ⟨encodeErrorForAll call.destinations message, []⟩

/-- One `send_to` for each destination. An error of one does not keep the others from it. -/
def TrapCall.deliver (call : TrapCall A) (datagram : Bytes) : TrapReport A :=
  ⟨call.destinations.mapIdx fun i destination => ⟨destination, call.sendTo i⟩,
    call.destinations.map (·, datagram)⟩

/-- `encode_trap_pdu` with the counters. The msgID is drawn for a message with a user only, and it
is spent also when the encoding fails. -/
def TrapSender.encodeDrawn (crypto : Crypto) (sender : TrapSender) (clock : Elapsed)
    (wirePdu : WireTrapPdu) (counters : TrapCounters) :
    Res (EncodeError × TrapCounters) (Bytes × TrapCounters) :=
  let (msgId, counter) := nextSequential counters.msgId
  let counter := if sender.usmUser.isSome then counter else counters.msgId
  match (sender.encodeTrapPdu crypto msgId (engineTimeSecs clock) wirePdu).run counters.salt with
  | .ok (encodedPdu, salt) => .ok (encodedPdu, ⟨counter, salt⟩)
  | .err (e, salt) => .err (e, ⟨counter, salt⟩)
  | .panic => .panic

def TrapSender.sendTrap (crypto : Crypto) (sender : TrapSender) (call : TrapCall A)
    (counters : TrapCounters) : Res TrapError (TrapReport A × TrapCounters) :=
  let wirePdu := buildWireTrap call.pdu call.uptime
  match sender.encodeDrawn crypto call.clock wirePdu counters with
  | .ok (encodedPdu, counters') =>
    if trapMtuBytes < encodedPdu.length then
      let size := encodedPdu.length
      .ok (call.refuse s!"encoded trap PDU ({size} bytes) exceeds MTU ({trapMtuBytes} bytes)",
        counters')
    else .ok (call.deliver encodedPdu, counters')
  | .err (e, counters') =>
    let text := e.message
    .ok (call.refuse s!"trap PDU encoding failed: SNMP encode error: {text}", counters')
  | .panic => .panic

/-- `Agent::send_trap`. -/
def AgentInner.sendTrap (crypto : Crypto) (sender : TrapSender) (call : TrapCall A)
    (counters : TrapCounters) : Res TrapError (TrapReport A × TrapCounters) :=
  if call.destinations.isEmpty then .err .emptyDestinations
  else sender.sendTrap crypto call counters

end

/-! ## SNMPv2c messages -/

def v2cTlv (community rawPdu : Bytes) : Bytes :=
  tlv tagSequence (Ber.integerTlv snmpv2cVersion ++ (octetStringTlv community ++ rawPdu))

theorem encodeV2cMessage_eq {ε : Type} (community rawPdu : Bytes) :
    (Ber.encodeV2cMessage community rawPdu : Res ε Bytes) = capped (v2cTlv community rawPdu) := by
  simp only [Ber.encodeV2cMessage, Ber.wrapInOuterSequence, BerWriter.writeInteger_eq,
    BerWriter.writeOctetString_eq, BerWriter.writeRaw_eq, BerWriter.writeSequence_eq,
    BerWriter.new_append, capped_bind_tlv, capped_bind_tlv_append, List.append_assoc]
  rfl

theorem length_le_v2cTlv (community rawPdu : Bytes) :
    rawPdu.length ≤ (v2cTlv community rawPdu).length := by
  have := le_tlvSize (Ber.integerTlv snmpv2cVersion ++ (octetStringTlv community ++ rawPdu)).length
  simp only [List.length_append] at this
  simp only [v2cTlv, length_tlv, List.length_append]
  omega

theorem encodeTrap_eq (pdu : WireTrapPdu) : encodeTrap pdu = capped (v2cTlv [] (trapTlv pdu)) := by
  have hpdu (raw : Bytes) :
      ((Ber.encodePdu tagTrap pdu.requestId 0 0 raw).mapErr
        (EncodeError.ofBer "BER encoding of WireTrapPdu") >>= Ber.encodeV2cMessage []) =
      capped (v2cTlv [] (Ber.pduTlv tagTrap pdu.requestId 0 0 raw)) := by
    rw [Ber.encodePdu_eq (by decide), mapErr_capped]
    exact capped_bind (encodeV2cMessage_eq []) (length_le_v2cTlv _ _)
  have hlen : (varbindListTlv pdu.varbinds).length ≤ (v2cTlv [] (trapTlv pdu)).length :=
    (length_varbindListTlv_le ..).trans (length_le_v2cTlv _ _)
  rw [encodeTrap, encodeVarbinds_eq]
  exact capped_bind (g := fun raw => v2cTlv [] (Ber.pduTlv tagTrap pdu.requestId 0 0 raw)) hpdu hlen

/-! ## A receiver -/

/-- What the envelope of an SNMPv3 trap says about its sender. -/
structure Origin where
  msgId : Int32
  engineId : Bytes
  engineBoots : UInt32
  engineTime : UInt32
  userName : Bytes
  deriving DecidableEq

structure V2cMessage where
  community : Bytes
  rawPdu : Bytes

def readV2cFields : Act BerReader BerError V2cMessage := do
  let version ← readInteger
  if version ≠ snmpv2cVersion then .fail (.wrongVersion "not an SNMPv2c message")
  else
    let community ← readOctetString
    let rawPdu ← .lift (← get).remaining
    return { community, rawPdu }

def decodeV2cMessage (bytes : Bytes) : Res BerError V2cMessage := do
  let (msgReader, _) ← Act.on (new bytes) readSequence
  let (msg, _) ← Act.on msgReader readV2cFields
  .ok msg

def receivePdu (rawPdu : Bytes) : Option WireTrapPdu := do
  match ← (Ber.decodePdu rawPdu).ok? with
  | .standard tag requestId rawVarbindList =>
    if tag = tagTrap then
      let varbinds ← (decodeVarbindListToVarbinds rawVarbindList).ok?
      some ⟨requestId, varbinds⟩
    else none
  | .bulk .. => none

/-- The PDU of a message, which has to be encrypted exactly if there is a key for it. -/
def receiveScoped (crypto : Crypto) (privacy : Option (PrivProtocol × Bytes))
    (env : V3MessageEnvelope) : Option Bytes :=
  match privacy, env.scopedData with
  | none, .plaintext _ _ rawPdu => some rawPdu
  | some (protocol, key), .encrypted ciphertext => do
    let salt ← PrivacySalt.tryFrom env.usm.privParams
    let engineBoots ← u32TryFrom env.usm.engineBoots
    let engineTime ← u32TryFrom env.usm.engineTime
    let plaintext ← (protocol.decrypt crypto (aesIv engineBoots engineTime salt) key ciphertext).ok?
    let fields ← (Ber.decodeScopedPdu plaintext).ok?
    some fields.rawPdu
  | _, _ => none

/-- The message is let through without a MAC only if there is no key for one. -/
def receiveAuthentic (crypto : Crypto) (auth : Option (AuthProtocol × Bytes)) (bytes : Bytes)
    (env : V3MessageEnvelope) : Bool :=
  match auth with
  | none => true
  | some (protocol, key) => env.usm.authParams.length = protocol.macLen &&
    verifyHmac crypto protocol key bytes env.usm.authParams env.authParamsOffset

def receiveV3 (crypto : Crypto) (user : UsmUser) (bytes : Bytes) :
    Option (Origin × WireTrapPdu) := do
  let env ← (Ber.decodeV3Envelope bytes).ok?
  let engineBoots ← u32TryFrom env.usm.engineBoots
  let engineTime ← u32TryFrom env.usm.engineTime
  if receiveAuthentic crypto user.auth bytes env then
    let rawPdu ← receiveScoped crypto user.privacy env
    let pdu ← receivePdu rawPdu
    some (⟨env.msgId, env.usm.engineId, engineBoots, engineTime, env.usm.userName⟩, pdu)
  else none

/-- A receiver with the user of the sender. -/
def receive (crypto : Crypto) (usmUser : Option UsmUser) (bytes : Bytes) :
    Option (Option Origin × WireTrapPdu) :=
  match usmUser with
  | none => do
    let msg ← (decodeV2cMessage bytes).ok?
    let pdu ← receivePdu msg.rawPdu
    some (none, pdu)
  | some user => do
    let (origin, pdu) ← receiveV3 crypto user bytes
    some (some origin, pdu)

section
variable {crypto : Crypto}

theorem accepts_readV2cFields : Accepts readV2cFields fun _ msg tail bs =>
    ∃ t₁, IntField snmpv2cVersion t₁ bs ∧ Field tagOctetString msg.community msg.rawPdu t₁ ∧
      tail = msg.rawPdu := by
  refine (accepts_readInteger.bind fun version => (accepts_readOctetString.bind fun community =>
    .remaining_bind fun rawPdu => V2cMessage.mk community rawPdu).guard).congr ?_
  intro off msg tail bs
  simp only [not_not]
  constructor
  · rintro ⟨_, t₁, H₁, rfl, community, _, H₂, rfl, rfl⟩
    exact ⟨t₁, H₁, H₂, rfl⟩
  · rintro ⟨t₁, H₁, H₂, rfl⟩
    exact ⟨_, t₁, H₁, rfl, _, _, H₂, rfl, rfl⟩

theorem decodeV2cMessage_v2cTlv {community rawPdu : Bytes}
    (h : (v2cTlv community rawPdu).length < usizeSize) :
    decodeV2cMessage (v2cTlv community rawPdu) = .ok ⟨community, rawPdu⟩ := by
  have hcommunity : community.length < 2 ^ 64 := by
    refine Nat.lt_of_le_of_lt ?_ h
    have h₁ := le_tlvSize community.length
    have h₂ := le_tlvSize ((Ber.integerTlv snmpv2cVersion).length +
      (tlvSize community.length + rawPdu.length))
    simp only [v2cTlv, octetStringTlv, length_tlv, List.length_append]
    omega
  have H := (bounded_new h).field_tlv (List.append_nil _).symm
  have hcons := (readConstructed_eq_ok (bounded_new h)).mpr ⟨_, [], H, rfl, rfl⟩
  have hfields (off : Nat) := (accepts_readV2cFields.run_eq_ok (a := ⟨community, rawPdu⟩)
    (bounded_newWithOffset H off)).mpr ⟨rawPdu, ⟨_, intField_integerTlv _ _,
      field_octetStringTlv hcommunity _, rfl⟩, rfl⟩
  simp only [decodeV2cMessage, Res.bind_eq_ok, Act.on_eq_ok, Prod.exists, Res.ok.injEq]
  exact ⟨_, _, hcons, ⟨community, rawPdu⟩, _, hfields _, rfl⟩

/-- An SNMPv2c message is none to the decoder of the agent. -/
theorem not_isEnvelope_v2cTlv {community rawPdu : Bytes} {env : V3MessageEnvelope}
    (h : (v2cTlv community rawPdu).length < usizeSize) :
    ¬ IsEnvelope env (v2cTlv community rawPdu) := by
  rintro ⟨v, tail, raw, rest, k, H, hbytes, -, ⟨t₁, _, _, _, _, _, hversion, -⟩, -⟩
  have hcontents := (bounded_new h).field_tlv (List.append_nil _).symm
  obtain ⟨-, rfl, -⟩ := hcontents.unique ⟨raw, H, hbytes⟩
  obtain ⟨c, hc, -, hthree⟩ := hversion
  obtain ⟨c', hc', -, hone⟩ :=
    intField_integerTlv snmpv2cVersion (octetStringTlv community ++ rawPdu)
  obtain ⟨-, rfl, -⟩ := hc.unique hc'
  exact absurd (hthree.symm.trans hone) (by decide)

theorem receivePdu_trapTlv {pdu : WireTrapPdu} (h : (trapTlv pdu).length < usizeSize) :
    receivePdu (trapTlv pdu) = some pdu := by
  have hdecode : Ber.decodePdu (trapTlv pdu) =
      .ok (.standard tagTrap pdu.requestId (varbindListTlv pdu.varbinds)) :=
    Ber.decodePdu_pduTlv (.inr (by decide)) h
  have hlist := decodeVarbindListToVarbinds_varbindListTlv pdu.varbinds
    ((length_varbindListTlv_le ..).trans_lt h)
  simp only [receivePdu, hdecode, Res.ok?_ok, Option.bind_eq_bind, Option.bind_some, if_pos, hlist]

variable {p : V3Params} {salt : SaltCounter} {rawPdu bytes : Bytes}

theorem receiveScoped_envelope (hcrypto : crypto.DecryptInverts) (hp : p.WF) (hs : p.Sendable)
    (hlen : (p.unsigned crypto salt rawPdu).length ≤ isizeMax) (authParams : Bytes) (offset : Nat) :
    receiveScoped crypto p.privacy (p.envelope crypto salt rawPdu authParams offset) =
      some rawPdu := by
  set env := p.envelope crypto salt rawPdu authParams offset
  cases hprivacy : p.privacy with
  | none =>
    have hdata : env.scopedData = .plaintext p.engineId p.contextName rawPdu := by
      change p.scopedData crypto salt rawPdu = _
      rw [V3Params.scopedData, hprivacy]
    simp only [receiveScoped, hdata]
  | some privacy =>
    obtain ⟨protocol, key⟩ := privacy
    obtain ⟨ciphertext, hdata, hsalt, hdecrypt⟩ :=
      decrypt_scopedData hcrypto hp hs salt rawPdu hprivacy
    have hdata : env.scopedData = .encrypted ciphertext := hdata
    have hsalt : PrivacySalt.tryFrom env.usm.privParams = some salt.salt := hsalt
    have hboots : u32TryFrom env.usm.engineBoots = some p.engineBoots :=
      u32TryFrom_toInt32 hs.boots_lt
    have htime : u32TryFrom env.usm.engineTime = some p.engineTime := u32TryFrom_toInt32 hs.time_lt
    rw [u32TryFrom_toInt32 hs.boots_lt, u32TryFrom_toInt32 hs.time_lt] at hdecrypt
    have hplain : protocol.decrypt crypto (aesIv p.engineBoots p.engineTime salt.salt) key
        ciphertext = .ok (p.scopedPdu rawPdu) :=
      (PrivProtocol.decrypt_eq crypto _ _ (hp.length_privKey protocol key hprivacy) _).trans
        (congrArg Res.ok hdecrypt)
    have hscoped : Ber.decodeScopedPdu (p.scopedPdu rawPdu) = .ok ⟨_, _, rawPdu⟩ :=
      decodeScopedPdu_scopedPduTlv (lt_of_le_of_lt (length_scopedPdu_le.trans hlen) isizeMax_lt)
    simp only [receiveScoped, hdata, hsalt, hboots, htime, hplain, hscoped, Res.ok?_ok,
      Option.bind_eq_bind, Option.bind_some]

/-- A receiver with the keys of the sender finds the PDU in a sealed message. -/
theorem receiveV3_sealed (hcrypto : crypto.DecryptInverts) {user : UsmUser} (hp : p.WF)
    (hs : p.Sendable) (hauth : p.auth = user.auth) (hprivacy : p.privacy = user.privacy)
    {pdu : WireTrapPdu} (hlen : bytes.length ≤ isizeMax)
    (H : p.Sealed crypto salt (trapTlv pdu) bytes) :
    receiveV3 crypto user bytes =
      some (⟨p.msgId, p.engineId, p.engineBoots, p.engineTime, p.userName⟩, pdu) := by
  rw [H.length_eq] at hlen
  obtain ⟨env, henv, ⟨offset, rfl⟩, hdigest⟩ := H.digest
  have hscoped := receiveScoped_envelope hcrypto hp hs hlen (p.authParams crypto salt (trapTlv pdu))
    offset
  set env := p.envelope crypto salt (trapTlv pdu) (p.authParams crypto salt (trapTlv pdu)) offset
  have hauthentic : receiveAuthentic crypto user.auth bytes env = true := by
    cases hc : user.auth with
    | none => rfl
    | some credentials =>
      obtain ⟨protocol, key⟩ := credentials
      obtain ⟨hmacLen, hsplit⟩ := hdigest protocol key (hauth.trans hc)
      have hverify := (verifyHmac_iff_split
        (hp.length_authKey protocol key (hauth.trans hc)) henv).mpr hsplit
      simp only [receiveAuthentic, hmacLen, hverify, decide_true, Bool.and_self]
  have hboots : u32TryFrom env.usm.engineBoots = some p.engineBoots :=
    u32TryFrom_toInt32 hs.boots_lt
  have htime : u32TryFrom env.usm.engineTime = some p.engineTime := u32TryFrom_toInt32 hs.time_lt
  have hpdu : receivePdu (trapTlv pdu) = some pdu :=
    receivePdu_trapTlv (lt_of_le_of_lt (length_rawPdu_le.trans hlen) isizeMax_lt)
  rw [hprivacy] at hscoped
  simp only [receiveV3, decodeV3Envelope_eq_ok.mpr henv, hboots, htime, hauthentic, hscoped, hpdu,
    Res.ok?_ok, Option.bind_eq_bind, Option.bind_some, if_true]
  rfl

end

/-! ## Message identifiers -/

theorem toInt_nextSequential (counter : Int32) :
    (nextSequential counter).1.toInt = (counter.toUInt32.toNat % 2 ^ 31 : Nat) := by
  have hand : (counter.toBitVec &&& Int32.maxValue.toBitVec).toNat =
      counter.toUInt32.toNat % 2 ^ 31 := by
    rw [BitVec.toNat_and]
    exact Nat.and_two_pow_sub_one_eq_mod _ 31
  change (counter.toBitVec &&& Int32.maxValue.toBitVec).toInt = _
  rw [BitVec.toInt_eq_toNat_of_lt (by omega), hand]

theorem nextSequential_nonneg (counter : Int32) : 0 ≤ (nextSequential counter).1.toInt := by
  rw [toInt_nextSequential]
  exact Int.natCast_nonneg _

/-- The identifier that the counter gives `k` draws later. -/
def msgIdAfter (counter : Int32) (k : Nat) : Int32 := (nextSequential (counter + .ofNat k)).1

theorem msgIdAfter_zero (counter : Int32) :
    msgIdAfter counter 0 = (nextSequential counter).1 := by
  change (nextSequential (counter + 0)).1 = _
  rw [Int32.add_zero]

theorem msgIdAfter_succ (counter : Int32) (k : Nat) :
    msgIdAfter (nextSequential counter).2 k = msgIdAfter counter (k + 1) := by
  have hadd : counter + 1 + .ofNat k = counter + .ofNat (k + 1) := by
    rw [Int32.ofNat_add, Int32.add_assoc, Int32.add_comm 1]
    rfl
  exact congrArg (fun c => (nextSequential c).1) hadd

/-- Half the range of the counter passes before an identifier comes again. -/
theorem msgIdAfter_injective {counter : Int32} {k k' : Nat} (hk : k < 2 ^ 31) (hk' : k' < 2 ^ 31)
    (h : msgIdAfter counter k = msgIdAfter counter k') : k = k' := by
  have hnat (k : Nat) : (counter + .ofNat k).toUInt32.toNat % 2 ^ 31 =
      (counter.toUInt32.toNat + k) % 2 ^ 31 := by
    have hadd : (counter + .ofNat k).toUInt32.toNat =
        (counter.toUInt32.toNat + k % 2 ^ 32) % 2 ^ 32 := by simp
    omega
  have hint := congrArg Int32.toInt h
  rw [msgIdAfter, msgIdAfter, toInt_nextSequential, toInt_nextSequential, Int.natCast_inj, hnat,
    hnat] at hint
  omega

/-! ## What becomes of a call -/

namespace TrapSender
variable (crypto : Crypto) (sender : TrapSender) (clock : Elapsed) (wirePdu : WireTrapPdu)
  (counters : TrapCounters)

/-- The boots value and the time fit into an SNMPv3 message. -/
def Sendable : Prop :=
  sender.usmUser.isSome → sender.engineBoots < 0x80000000 ∧ engineTimeSecs clock < 0x80000000

instance : Decidable (sender.Sendable clock) := inferInstanceAs (Decidable (_ → _))

/-- The size of the message, which does not depend on the MAC. -/
def size : Nat :=
  match sender.usmUser with
  | none => (v2cTlv [] (trapTlv wirePdu)).length
  | some user => ((sender.params user (nextSequential counters.msgId).1
      (engineTimeSecs clock)).unsigned crypto counters.salt (trapTlv wirePdu)).length

/-- The sender as its message tells of it. -/
def origin (msgId : Int32) : Option Origin :=
  sender.usmUser.map fun user =>
    ⟨msgId, sender.engineId, sender.engineBoots, engineTimeSecs clock, user.name.asBytes⟩

/-- The bytes are the message of the trap. -/
def Emits (bytes : Bytes) : Prop :=
  match sender.usmUser with
  | none => bytes = v2cTlv [] (trapTlv wirePdu)
  | some user => (sender.params user (nextSequential counters.msgId).1
      (engineTimeSecs clock)).Sealed crypto counters.salt (trapTlv wirePdu) bytes

variable {crypto sender clock wirePdu counters} {bytes : Bytes}

theorem wf_params (sender : TrapSender) (user : UsmUser) {msgId : Int32} (hid : 0 ≤ msgId.toInt)
    (secs : UInt32) : (sender.params user msgId secs).WF := by
  refine ⟨hid, user.name.length_le, fun protocol key h => ?_, fun protocol key h => ?_⟩
  · change user.auth = _ at h
    rw [UsmUser.auth_eq, Option.map_eq_some_iff] at h
    obtain ⟨c, -, h⟩ := h
    cases h
    exact c.length_key
  · change user.privacy = _ at h
    rw [UsmUser.privacy_eq, Option.map_eq_some_iff] at h
    obtain ⟨c, -, h⟩ := h
    cases h
    exact c.length_key

theorem Sendable.params {user : UsmUser} (hs : sender.Sendable clock)
    (huser : sender.usmUser = some user) (msgId : Int32) :
    (sender.params user msgId (engineTimeSecs clock)).Sendable := by
  obtain ⟨hboots, htime⟩ := hs (huser ▸ rfl)
  refine ⟨hboots, htime, fun h => ?_⟩
  change user.auth.isSome
  change user.privacy.isSome at h
  rw [UsmUser.privacy_eq, Option.isSome_map] at h
  rw [UsmUser.auth_eq, Option.isSome_map]
  exact user.auth_of_priv h

theorem Emits.length_eq (H : sender.Emits crypto clock wirePdu counters bytes) :
    bytes.length = sender.size crypto clock wirePdu counters := by
  unfold Emits at H
  unfold size
  split at H
  · rw [H]
  · exact H.length_eq

/-- The datagram brings the trap to a receiver. -/
theorem Emits.received (hcrypto : crypto.DecryptInverts) (hs : sender.Sendable clock)
    (hlen : bytes.length ≤ isizeMax) (H : sender.Emits crypto clock wirePdu counters bytes) :
    receive crypto sender.usmUser bytes =
      some (sender.origin clock (nextSequential counters.msgId).1, wirePdu) := by
  unfold Emits at H
  cases huser : sender.usmUser with
  | none =>
    simp only [huser] at H
    subst H
    have hlt := lt_of_le_of_lt hlen isizeMax_lt
    have hpdu := receivePdu_trapTlv ((length_le_v2cTlv [] (trapTlv wirePdu)).trans_lt hlt)
    simp only [receive, decodeV2cMessage_v2cTlv hlt, hpdu, Res.ok?_ok, Option.bind_eq_bind,
      Option.bind_some, origin, huser, Option.map_none]
  | some user =>
    simp only [huser] at H
    have hp := sender.wf_params user (nextSequential_nonneg counters.msgId) (engineTimeSecs clock)
    have hreceive := receiveV3_sealed hcrypto hp (hs.params huser _) rfl rfl hlen H
    simp only [receive, hreceive, Option.bind_eq_bind, Option.bind_some, origin, huser,
      Option.map_some]
    rfl

/-- Only a message with a user has a msgID: the one that was drawn for it. -/
theorem Emits.msgId_eq {env : V3MessageEnvelope} (hlen : bytes.length ≤ isizeMax)
    (H : sender.Emits crypto clock wirePdu counters bytes)
    (henv : Ber.decodeV3Envelope bytes = .ok env) :
    sender.usmUser.isSome ∧ env.msgId = (nextSequential counters.msgId).1 := by
  unfold Emits at H
  cases huser : sender.usmUser with
  | none =>
    simp only [huser] at H
    subst H
    exact absurd (decodeV3Envelope_eq_ok.mp henv)
      (not_isEnvelope_v2cTlv (lt_of_le_of_lt hlen isizeMax_lt))
  | some user =>
    simp only [huser] at H
    obtain ⟨pre, post, -, -, H⟩ := H
    cases (decodeV3Envelope_eq_ok.mpr H).symm.trans henv
    exact ⟨rfl, rfl⟩

/-- The three ends of the encoding. An SNMPv2c message is always sendable. -/
theorem encodeTrapPdu_cases (crypto : Crypto) (sender : TrapSender) (clock : Elapsed)
    (wirePdu : WireTrapPdu) (counters : TrapCounters) :
    let x := (sender.encodeTrapPdu crypto (nextSequential counters.msgId).1 (engineTimeSecs clock)
      wirePdu).run counters.salt
    (isizeMax < sender.size crypto clock wirePdu counters ∧ x = .panic) ∨
    (sender.Sendable clock ∧ sender.size crypto clock wirePdu counters ≤ isizeMax ∧
      ∃ bytes salt, x = .ok (bytes, salt) ∧ sender.Emits crypto clock wirePdu counters bytes) ∨
    (¬ sender.Sendable clock ∧ ∃ e, x = .err (e, counters.salt)) := by
  intro x
  cases huser : sender.usmUser with
  | none =>
    have hs : sender.Sendable clock := by
      intro h
      rw [huser] at h
      cases h
    have hx : x = capped (v2cTlv [] (trapTlv wirePdu)) >>=
        fun bytes => .ok (bytes, counters.salt) := by
      simp only [x, encodeTrapPdu, huser, Act.run_lift, encodeTrap_eq, mapErr_capped]
    simp only [size, Emits, huser]
    by_cases hlen : (v2cTlv [] (trapTlv wirePdu)).length ≤ isizeMax
    · rw [capped_of_le hlen] at hx
      exact .inr (.inl ⟨hs, hlen, _, _, hx, rfl⟩)
    · rw [capped, if_neg hlen] at hx
      exact .inl ⟨Nat.not_le.mp hlen, hx⟩
  | some user =>
    have hx : x = capped (trapTlv wirePdu) >>= fun raw => (encodeV3Envelope crypto
        (sender.params user (nextSequential counters.msgId).1 (engineTimeSecs clock))
        raw).run counters.salt := by
      simp only [x, encodeTrapPdu, huser, run_encodeV3Trap]
    simp only [size, Emits, huser]
    by_cases hs : sender.Sendable clock
    · rcases capped_encodeV3Envelope crypto counters.salt (trapTlv wirePdu)
        (sender.wf_params user (nextSequential_nonneg counters.msgId) _) (hs.params huser _) with
        ⟨hlen, h⟩ | ⟨hlen, bytes, h, hsealed⟩
      · exact .inl ⟨hlen, hx.trans h⟩
      · exact .inr (.inl ⟨hs, hlen, bytes, _, hx.trans h, hsealed⟩)
    · by_cases hraw : (trapTlv wirePdu).length ≤ isizeMax
      · rw [capped_of_le hraw, Res.ok_bind] at hx
        have hrange : ¬ (sender.engineBoots < 0x80000000 ∧ engineTimeSecs clock < 0x80000000) :=
          fun h => hs fun _ => h
        obtain ⟨e, h⟩ := encodeV3Envelope_err crypto counters.salt (trapTlv wirePdu)
          (p := sender.params user (nextSequential counters.msgId).1 (engineTimeSecs clock)) hrange
        exact .inr (.inr ⟨hs, e, hx.trans h⟩)
      · rw [capped, if_neg hraw, Res.panic_bind] at hx
        exact .inl ⟨(Nat.not_le.mp hraw).trans_le length_rawPdu_le, hx⟩

end TrapSender

section
variable {A : Type}

/-- The counter of msgIDs after a call. -/
def TrapSender.draw (sender : TrapSender) (counter : Int32) : Int32 :=
  if sender.usmUser.isSome then (nextSequential counter).2 else counter

theorem TrapSender.sendTrap_cases (crypto : Crypto) (sender : TrapSender) (call : TrapCall A)
    (counters : TrapCounters) :
    let x := sender.sendTrap crypto call counters
    let wirePdu := buildWireTrap call.pdu call.uptime
    let size := sender.size crypto call.clock wirePdu counters
    (isizeMax < size ∧ x = .panic) ∨
    ∃ counters', counters'.msgId = sender.draw counters.msgId ∧
      ((sender.Sendable call.clock ∧ size ≤ trapMtuBytes ∧ ∃ bytes,
          sender.Emits crypto call.clock wirePdu counters bytes ∧
          x = .ok (call.deliver bytes, counters')) ∨
        (¬ (sender.Sendable call.clock ∧ size ≤ trapMtuBytes) ∧ ∃ message,
          x = .ok (call.refuse message, counters'))) := by
  intro x wirePdu size
  rcases encodeTrapPdu_cases crypto sender call.clock wirePdu counters with
    ⟨hlen, h⟩ | ⟨hs, hlen, bytes, salt, h, hemits⟩ | ⟨hs, e, h⟩
  · refine .inl ⟨hlen, ?_⟩
    simp only [x, sendTrap, encodeDrawn, wirePdu, h]
  · have hdrawn : sender.encodeDrawn crypto call.clock wirePdu counters =
        .ok (bytes, ⟨sender.draw counters.msgId, salt⟩) := by
      simp only [encodeDrawn, h]
      rfl
    refine .inr ⟨⟨sender.draw counters.msgId, salt⟩, rfl, ?_⟩
    have hsize : bytes.length = size := hemits.length_eq
    by_cases hmtu : size ≤ trapMtuBytes
    · refine .inl ⟨hs, hmtu, bytes, hemits, ?_⟩
      simp only [x, sendTrap, wirePdu, hdrawn, if_neg (Nat.not_lt.mpr (hsize ▸ hmtu))]
    · refine .inr ⟨fun h => hmtu h.2, ?_⟩
      simp only [x, sendTrap, wirePdu, hdrawn, if_pos (hsize ▸ Nat.not_le.mp hmtu)]
      exact ⟨_, rfl⟩
  · have hdrawn : sender.encodeDrawn crypto call.clock wirePdu counters =
        .err (e, ⟨sender.draw counters.msgId, counters.salt⟩) := by
      simp only [encodeDrawn, h]
      rfl
    refine .inr ⟨⟨sender.draw counters.msgId, counters.salt⟩, rfl, .inr ⟨fun h => hs h.1, ?_⟩⟩
    simp only [x, sendTrap, wirePdu, hdrawn]
    exact ⟨_, rfl⟩

theorem TrapCall.destinations_deliver (call : TrapCall A) (datagram : Bytes) :
    (call.deliver datagram).results.map TrapResult.destination = call.destinations := by
  apply List.ext_getElem?
  intro i
  simp [TrapCall.deliver, Function.comp_def]

theorem TrapCall.destinations_refuse (call : TrapCall A) (message : String) :
    (call.refuse message).results.map TrapResult.destination = call.destinations := by
  simp [TrapCall.refuse, encodeErrorForAll, Function.comp_def]

/-- **Traps.** The caller gets one result for each destination, in their order. If the message fits
into a datagram, and the clock into the message, then the socket is given the same datagram for each
destination, an outcome is that of the socket, and a receiver with the user of the agent finds in
the datagram the uptime, the identity of the trap and the objects of the caller. Otherwise the
socket is given nothing, and each outcome is the same error. -/
theorem traps_delivered_or_refused (crypto : Crypto) (hcrypto : crypto.DecryptInverts)
    (sender : TrapSender) (call : TrapCall A) (hne : call.destinations ≠ [])
    (counters : TrapCounters) :
    let wirePdu := buildWireTrap call.pdu call.uptime
    let size := sender.size crypto call.clock wirePdu counters
    (isizeMax < size ∧ AgentInner.sendTrap crypto sender call counters = .panic) ∨
    ∃ report counters', AgentInner.sendTrap crypto sender call counters = .ok (report, counters') ∧
      report.results.map TrapResult.destination = call.destinations ∧
      if sender.Sendable call.clock ∧ size ≤ trapMtuBytes then
        ∃ datagram, datagram.length ≤ trapMtuBytes ∧
          report.sends = call.destinations.map (·, datagram) ∧
          (∀ i result, report.results[i]? = some result → result.outcome = call.sendTo i) ∧
          receive crypto sender.usmUser datagram =
            some (sender.origin call.clock (nextSequential counters.msgId).1, wirePdu)
      else
        report.sends = [] ∧ ∃ message,
          ∀ result ∈ report.results, result.outcome = .error ⟨.invalidData, message⟩ := by
  intro wirePdu size
  have hsend : AgentInner.sendTrap crypto sender call counters =
      sender.sendTrap crypto call counters := by
    rw [AgentInner.sendTrap, if_neg]
    rwa [List.isEmpty_iff]
  rw [hsend]
  rcases sender.sendTrap_cases crypto call counters with
    h | ⟨counters', -, ⟨hs, hmtu, datagram, hemits, h⟩ | ⟨hno, message, h⟩⟩
  · exact .inl h
  · have hlen : datagram.length ≤ trapMtuBytes := hemits.length_eq.trans_le hmtu
    refine .inr ⟨_, counters', h, call.destinations_deliver datagram, ?_⟩
    rw [if_pos ⟨hs, hmtu⟩]
    refine ⟨datagram, hlen, rfl, fun i result hresult => ?_,
      hemits.received hcrypto hs (hlen.trans (by decide))⟩
    simp only [TrapCall.deliver, List.getElem?_mapIdx, Option.map_eq_some_iff] at hresult
    obtain ⟨destination, -, rfl⟩ := hresult
    rfl
  · refine .inr ⟨_, counters', h, call.destinations_refuse message, ?_⟩
    rw [if_neg hno]
    refine ⟨rfl, message, fun result hresult => ?_⟩
    obtain ⟨destination, -, rfl⟩ := List.mem_map.mp hresult
    rfl

end

namespace Sample

def trapSender : TrapSender := ⟨engineId, 5, some privUser⟩

/-- A trap for two receivers, the second of which cannot be reached. -/
def trapCall : TrapCall Nat where
  pdu := ⟨1, ⟨[1, 3, 6, 1, 6, 3, 1, 1, 5, 1], rfl⟩, []⟩
  destinations := [162, 163]
  uptime := 12345000000
  clock := 12346000000
  sendTo i := if i = 0 then .ok () else .error ⟨.other, "unreachable"⟩

def trapScopedPdu : Bytes :=
  scopedPduTlv engineId [] (trapTlv (buildWireTrap trapCall.pdu trapCall.uptime))

/-- The message with this trap. The parameter of the MAC is left open. -/
def trapMessage (msgId : Int32) (salt : SaltCounter) (keystream authParams : Bytes) : Bytes :=
  messageBytes ⟨msgId, msgMaxSizeUdp, 0x03, 3⟩
    ⟨engineId, 5, 12, userName, authParams, salt.salt.val⟩
    (octetStringTlv (xorKeystream keystream trapScopedPdu))

def trapKeystream : Bytes :=
  [0xf8, 0xa8, 0x0b, 0xa9, 0xda, 0x12, 0x04, 0x56, 0xcc, 0xa7, 0x9e, 0xd9, 0x40, 0x3c, 0x5d, 0x3f,
  0x3b, 0xaa, 0xfb, 0xcb, 0x4e, 0x67, 0xc9, 0x59, 0xb6, 0x4b, 0xf0, 0xe4, 0x20, 0xf3, 0xe5, 0xd1,
  0x1a, 0x3a, 0xd0, 0xdc, 0xd7, 0x34, 0xdb, 0x84, 0x46, 0x8e, 0x66, 0xd1, 0x5b, 0x4a, 0xcc, 0x2f,
  0xef, 0x61, 0x00, 0x3d, 0xba, 0x89, 0xe9, 0x32, 0x3a, 0xfa, 0xe3, 0x69, 0x58, 0x31, 0xb7, 0x73,
  0x4b, 0x03, 0x87, 0xb1, 0x1f]
def trapTag : Octets 32 :=
  ⟨[0xd7, 0x47, 0xf1, 0x20, 0x1c, 0x6c, 0xd9, 0x20, 0x09, 0xe7, 0xb6, 0xcd, 0xf6, 0x87, 0x54,
    0x9f, 0xb8, 0x5d, 0x37, 0x4c, 0x35, 0xb6, 0x7e, 0x6b, 0xdf, 0xcb, 0xeb, 0xf5, 0x51, 0x7e,
    0xb0, 0x51], rfl⟩

/-- Two more messages with this trap: the last msgID of the range with the same salt, and the msgID
that follows with the next salt. -/
def lastTrapTag : Octets 32 :=
  ⟨[0x9e, 0x35, 0x59, 0x49, 0x3e, 0x1d, 0xaf, 0x0d, 0x5c, 0x95, 0xcf, 0x26, 0xae, 0x1c, 0x03,
    0x93, 0x3b, 0xb6, 0x1b, 0x71, 0xbd, 0x24, 0xbb, 0xd8, 0x52, 0x3a, 0xa5, 0xb2, 0x53, 0xb3,
    0x9a, 0x88], rfl⟩
def firstTrapKeystream : Bytes :=
  [0x24, 0xfc, 0x0c, 0xe0, 0xe1, 0x66, 0x34, 0x0b, 0x72, 0xcf, 0x39, 0xb1, 0xac, 0xd7, 0x33, 0xfc,
  0x53, 0xc2, 0x6e, 0x4f, 0x5b, 0x6d, 0x21, 0x03, 0x99, 0x7d, 0xa6, 0x96, 0x11, 0xb3, 0x7d, 0x20,
  0x51, 0x34, 0xb8, 0x5d, 0x1f, 0x27, 0x63, 0xd8, 0x24, 0xce, 0x84, 0x9e, 0x6f, 0x2a, 0xcc, 0x26,
  0x26, 0xf2, 0x61, 0x93, 0xff, 0xea, 0x83, 0xea, 0x87, 0xb6, 0x73, 0xab, 0x60, 0xe2, 0x23, 0xab,
  0xaf, 0x1f, 0xe6, 0x21, 0x20]
def firstTrapTag : Octets 32 :=
  ⟨[0x45, 0x3b, 0x9b, 0xc8, 0x12, 0x74, 0x1d, 0x7c, 0x90, 0x7e, 0x47, 0x7f, 0xa2, 0x98, 0x80,
    0xef, 0x02, 0x7c, 0x7d, 0x1f, 0x28, 0x41, 0x13, 0x2a, 0xf9, 0xc5, 0xb7, 0x56, 0x4c, 0xcc,
    0x45, 0x43], rfl⟩

def trapCrypto : Crypto := .tabulated
  [((key, trapMessage 1 agentSalt trapKeystream (.replicate 24 0)), trapTag),
   ((key, trapMessage Int32.maxValue agentSalt trapKeystream (.replicate 24 0)), lastTrapTag),
   ((key, trapMessage 0 agentSalt.next firstTrapKeystream (.replicate 24 0)), firstTrapTag)]
  [((aesIv 5 12 agentSalt.salt).val, trapKeystream),
   ((aesIv 5 12 agentSalt.next.salt).val, firstTrapKeystream)]

def trapDatagram : Bytes := trapMessage 1 agentSalt trapKeystream (trapTag.val.take 24)

end Sample

theorem traps_delivered_or_refused_sample :
    ∃ report counters', AgentInner.sendTrap Sample.trapCrypto Sample.trapSender Sample.trapCall
        ⟨1, Sample.agentSalt⟩ = .ok (report, counters') ∧
      report.sends = [(162, Sample.trapDatagram), (163, Sample.trapDatagram)] ∧
      receive Sample.trapCrypto (some Sample.privUser) Sample.trapDatagram =
        some (some ⟨1, Sample.engineId, 5, 12, Sample.userName⟩,
          ⟨1, [⟨sysUpTimeOid, .value (.timeTicks 1234)⟩,
            ⟨snmpTrapOidOid, .value (.objectIdentifier Sample.trapCall.pdu.trapOid)⟩]⟩) := by
  have hsize : Sample.trapSender.Sendable Sample.trapCall.clock ∧
      Sample.trapSender.size Sample.trapCrypto Sample.trapCall.clock
        (buildWireTrap Sample.trapCall.pdu Sample.trapCall.uptime) ⟨1, Sample.agentSalt⟩ ≤
        trapMtuBytes := by
    decide +kernel
  have hrun : (fun r => r.1.sends) <$> AgentInner.sendTrap Sample.trapCrypto Sample.trapSender
      Sample.trapCall ⟨1, Sample.agentSalt⟩ =
        .ok [(162, Sample.trapDatagram), (163, Sample.trapDatagram)] := by
    decide +kernel
  have hmtu : trapMtuBytes ≤ isizeMax := by decide
  have H := traps_delivered_or_refused Sample.trapCrypto (Crypto.decryptInverts_tabulated _ _)
    Sample.trapSender Sample.trapCall (List.cons_ne_nil _ _) ⟨1, Sample.agentSalt⟩
  simp only [if_pos hsize] at H
  rcases H with ⟨hlen, -⟩ | ⟨report, counters', h, -, datagram, -, hsends, -, hreceive⟩
  · exact absurd (hsize.2.trans hmtu) (Nat.not_le.mpr hlen)
  · obtain ⟨⟨report', counters''⟩, h', hsends'⟩ := Res.map_eq_ok.mp hrun
    cases h.symm.trans h'
    obtain rfl : datagram = Sample.trapDatagram :=
      congrArg Prod.snd (List.cons.inj (hsends.symm.trans hsends')).1
    exact ⟨report, counters', h, hsends, hreceive⟩

/-! ## Calls on many threads -/

section
variable {A : Type} {crypto : Crypto}

/-- Calls in the order in which they come to the counter of msgIDs, on whatever threads and for
whatever agents of the process. The salt of a call is where the other counter has come to by then,
for which the order may be another one. -/
def sendTraps (crypto : Crypto) : List (TrapSender × TrapCall A × SaltCounter) → Int32 →
    Res TrapError (List (TrapReport A) × Int32)
  | [], counter => .ok ([], counter)
  | (sender, call, salt) :: calls, counter => do
    let (report, counters) ← sender.sendTrap crypto call ⟨counter, salt⟩
    let (reports, counter') ← sendTraps crypto calls counters.msgId
    .ok (report :: reports, counter')

/-- The msgID of a datagram, if it is an SNMPv3 message. -/
def TrapReport.Bears (report : TrapReport A) (msgId : Int32) : Prop :=
  ∃ send ∈ report.sends, ∃ env, Ber.decodeV3Envelope send.2 = .ok env ∧ env.msgId = msgId

/-- A report bears the msgID that the call drew, if it drew one. -/
theorem TrapSender.bears_of_sendTrap {sender : TrapSender} {call : TrapCall A}
    {counters counters' : TrapCounters} {report : TrapReport A} {msgId : Int32}
    (h : sender.sendTrap crypto call counters = .ok (report, counters'))
    (hbears : report.Bears msgId) :
    msgId = (nextSequential counters.msgId).1 ∧
      counters'.msgId = (nextSequential counters.msgId).2 := by
  obtain ⟨send, hsend, env, henv, rfl⟩ := hbears
  rcases sender.sendTrap_cases crypto call counters with
    ⟨-, hx⟩ | ⟨c, hdraw, ⟨hs, hmtu, datagram, hemits, hx⟩ | ⟨-, message, hx⟩⟩
  · cases h.symm.trans hx
  · cases h.symm.trans hx
    obtain ⟨destination, -, rfl⟩ := List.mem_map.mp hsend
    have hlen : datagram.length ≤ isizeMax := (hemits.length_eq.trans_le hmtu).trans (by decide)
    obtain ⟨huser, hid⟩ := hemits.msgId_eq hlen henv
    rw [TrapSender.draw, if_pos huser] at hdraw
    exact ⟨hid, hdraw⟩
  · cases h.symm.trans hx
    cases hsend

theorem TrapSender.msgId_of_sendTrap {sender : TrapSender} {call : TrapCall A}
    {counters counters' : TrapCounters} {report : TrapReport A}
    (h : sender.sendTrap crypto call counters = .ok (report, counters')) :
    counters'.msgId = sender.draw counters.msgId := by
  rcases sender.sendTrap_cases crypto call counters with
    ⟨-, hx⟩ | ⟨c, hdraw, ⟨-, -, datagram, -, hx⟩ | ⟨-, message, hx⟩⟩
  · cases h.symm.trans hx
  · cases h.symm.trans hx
    exact hdraw
  · cases h.symm.trans hx
    exact hdraw

theorem sendTraps_cons {sender : TrapSender} {call : TrapCall A} {salt : SaltCounter}
    {calls : List (TrapSender × TrapCall A × SaltCounter)} {counter counter' : Int32}
    {reports : List (TrapReport A)}
    (h : sendTraps crypto ((sender, call, salt) :: calls) counter = .ok (reports, counter')) :
    ∃ report counters rest, sender.sendTrap crypto call ⟨counter, salt⟩ = .ok (report, counters) ∧
      sendTraps crypto calls counters.msgId = .ok (rest, counter') ∧ reports = report :: rest := by
  simp only [sendTraps, Res.bind_eq_ok, Prod.exists] at h
  obtain ⟨report, counters, hreport, rest, c, hrest, h⟩ := h
  cases h
  exact ⟨report, counters, rest, hreport, hrest, rfl⟩

/-- Every msgID is one of the next that the counter gives. -/
theorem msgIdAfter_of_sendTraps {calls : List (TrapSender × TrapCall A × SaltCounter)}
    {counter counter' : Int32} {reports : List (TrapReport A)}
    (h : sendTraps crypto calls counter = .ok (reports, counter')) :
    ∀ report ∈ reports, ∀ msgId, report.Bears msgId →
      ∃ k < calls.length, msgId = msgIdAfter counter k := by
  induction calls generalizing counter reports with
  | nil =>
    cases h
    intro report hreport
    cases hreport
  | cons head calls ih =>
    obtain ⟨sender, call, salt⟩ := head
    obtain ⟨first, counters, rest, hfirst, hrest, rfl⟩ := sendTraps_cons h
    intro report hreport msgId hbears
    rcases List.mem_cons.mp hreport with rfl | hmem
    · refine ⟨0, Nat.zero_lt_succ _, ?_⟩
      rw [msgIdAfter_zero]
      exact (TrapSender.bears_of_sendTrap hfirst hbears).1
    · obtain ⟨k, hk, rfl⟩ := ih hrest report hmem msgId hbears
      rw [TrapSender.msgId_of_sendTrap hfirst, TrapSender.draw]
      split
      · exact ⟨k + 1, Nat.succ_lt_succ hk, msgIdAfter_succ counter k⟩
      · exact ⟨k, Nat.lt_succ_of_lt hk, rfl⟩

/-- **Identifiers.** In a process that sends no more than 2147483648 traps, on any threads and for
any agents, no two SNMPv3 traps have the same msgID, and none is negative. -/
theorem traps_told_apart (crypto : Crypto) (calls : List (TrapSender × TrapCall A × SaltCounter))
    (hlen : calls.length ≤ 2147483648) {counter counter' : Int32} {reports : List (TrapReport A)}
    (h : sendTraps crypto calls counter = .ok (reports, counter')) :
    (∀ report ∈ reports, ∀ msgId, report.Bears msgId → 0 ≤ msgId.toInt) ∧
    reports.Pairwise fun report report' =>
      ∀ msgId, report.Bears msgId → ¬ report'.Bears msgId := by
  refine ⟨fun report hreport msgId hbears => ?_, ?_⟩
  · obtain ⟨k, -, rfl⟩ := msgIdAfter_of_sendTraps h report hreport msgId hbears
    exact nextSequential_nonneg _
  · -- The first report bears the number 0 of the counter, and the others have later ones.
    induction calls generalizing counter reports with
    | nil =>
      cases h
      exact .nil
    | cons head calls ih =>
      obtain ⟨sender, call, salt⟩ := head
      obtain ⟨first, counters, rest, hfirst, hrest, rfl⟩ := sendTraps_cons h
      rw [List.length_cons] at hlen
      refine List.pairwise_cons.mpr ⟨fun report hreport msgId hbears hbears' => ?_,
        ih (by omega) hrest⟩
      obtain ⟨k, hk, rfl⟩ := msgIdAfter_of_sendTraps hrest report hreport msgId hbears'
      obtain ⟨hid, hcounter⟩ := TrapSender.bears_of_sendTrap hfirst hbears
      rw [hcounter, msgIdAfter_succ, ← msgIdAfter_zero] at hid
      exact absurd (msgIdAfter_injective (by omega) (by omega) hid) (Nat.succ_ne_zero k)

end

/-- Two traps at the end of the range of the counter. -/
def Sample.trapCalls : List (TrapSender × TrapCall Nat × SaltCounter) :=
  [(trapSender, trapCall, agentSalt), (trapSender, trapCall, agentSalt.next)]

theorem traps_told_apart_sample :
    ∃ reports counter', sendTraps Sample.trapCrypto Sample.trapCalls Int32.maxValue =
        .ok (reports, counter') ∧
      reports.map (·.sends.map Prod.snd) =
        [.replicate 2 (Sample.trapMessage Int32.maxValue Sample.agentSalt Sample.trapKeystream
            (Sample.lastTrapTag.val.take 24)),
          .replicate 2 (Sample.trapMessage 0 Sample.agentSalt.next Sample.firstTrapKeystream
            (Sample.firstTrapTag.val.take 24))] ∧
      reports.Pairwise fun report report' =>
        ∀ msgId, report.Bears msgId → ¬ report'.Bears msgId := by
  have hrun : (fun r => r.1.map (·.sends.map Prod.snd)) <$> sendTraps Sample.trapCrypto
      Sample.trapCalls Int32.maxValue =
        .ok [.replicate 2 (Sample.trapMessage Int32.maxValue Sample.agentSalt Sample.trapKeystream
            (Sample.lastTrapTag.val.take 24)),
          .replicate 2 (Sample.trapMessage 0 Sample.agentSalt.next Sample.firstTrapKeystream
            (Sample.firstTrapTag.val.take 24))] := by
    decide +kernel
  obtain ⟨⟨reports, counter'⟩, h, hsends⟩ := Res.map_eq_ok.mp hrun
  have H := traps_told_apart Sample.trapCrypto Sample.trapCalls (by decide) h
  exact ⟨reports, counter', h, hsends, H.2⟩

end SnmpAgent
