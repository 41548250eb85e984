import SnmpAgent.Transport.EventLoop
import SnmpAgent.Usm.Boots

/-!
# Starting an agent (`lib.rs`, `transport/trap.rs`)

`AgentBuilder.build` raises the boots counter and hands its value to the event loop and to the trap
sender. The counter is guarded against its ceiling here and nowhere else: an agent that reaches the
ceiling serves authenticated requests as at any other value.
-/

namespace SnmpAgent
open Rust

/-! ## Traps -/

structure TrapSender where
  engineId : Bytes
  engineBoots : UInt32
  usmUser : Option UsmUser

/-- The envelope of a trap: the security of the configured user. -/
def TrapSender.params (sender : TrapSender) (user : UsmUser) (msgId : Int32)
    (engineTimeSecs : UInt32) : V3Params where
  msgId := msgId
  engineId := sender.engineId
  userName := user.name.asBytes
  contextName := []
  engineBoots := sender.engineBoots
  engineTime := engineTimeSecs
  auth := user.auth
  privacy := user.privacy

/-- Without a user a trap is an SNMPv2c message. -/
def TrapSender.encodeTrapPdu (crypto : Crypto) (sender : TrapSender) (msgId : Int32)
    (engineTimeSecs : UInt32) (wirePdu : WireTrapPdu) : Act SaltCounter EncodeError Bytes :=
  match sender.usmUser with
  | none => .lift (encodeTrap wirePdu)
  | some user => encodeV3Trap crypto (sender.params user msgId engineTimeSecs) wirePdu

/-! ## The builder -/

structure EngineId where
  bytes : Bytes
  length_ge : 5 ≤ bytes.length
  length_le : bytes.length ≤ 32

/-- The users are those of the level that the configuration is named after. -/
inductive SecurityConfig (σ ε : Type) where
  | noAuthNoPriv
  | authNoPriv (user : UsmUser) (level : user.securityLevel = .authNoPriv)
    (bootsStore : EngineBootsStore σ ε)
  | authPriv (user : UsmUser) (level : user.securityLevel = .authPriv)
    (bootsStore : EngineBootsStore σ ε)

section
variable {σ ε : Type}

namespace SecurityConfig

def minimumSecurityLevel : SecurityConfig σ ε → SecurityLevel
  | noAuthNoPriv => .noAuthNoPriv
  | authNoPriv .. => .authNoPriv
  | authPriv .. => .authPriv

def usmUser : SecurityConfig σ ε → Option UsmUser
  | noAuthNoPriv => none
  | authNoPriv user .. => some user
  | authPriv user .. => some user

def bootsStore : SecurityConfig σ ε → Option (EngineBootsStore σ ε)
  | noAuthNoPriv => none
  | authNoPriv _ _ bootsStore => some bootsStore
  | authPriv _ _ bootsStore => some bootsStore

end SecurityConfig

inductive AgentError (ε : Type) where
  | engineBoots (e : InitBootsError ε)
  | securityLevelRequiresUser
  | bind
  | socket
  | udpSocket
  | spawn

structure AgentBuilder (σ ε : Type) where
  engineId : EngineId
  security : SecurityConfig σ ε
  maxConnections : Nat
  timeoutConfig : ConnectionTimeoutConfig

/-- The inputs of a new event loop, whose engine time is read at each dispatch. -/
def DispatchInputs.start (engineId : Bytes) (engineBoots : UInt32) (usmUser : Option UsmUser)
    (minimumSecurityLevel : SecurityLevel) : DispatchInputs where
  engineId := engineId
  engineBoots := engineBoots
  engineTime := 0
  unknownEngineIdsCounter := ⟨0⟩
  unknownUserNamesCounter := ⟨0⟩
  unsupportedSecLevelsCounter := ⟨0⟩
  wrongDigestsCounter := ⟨0⟩
  notInTimeWindowsCounter := ⟨0⟩
  decryptionErrorsCounter := ⟨0⟩
  unknownSecurityModelsCounter := ⟨0⟩
  usmUser := usmUser
  minimumSecurityLevel := minimumSecurityLevel

/-- The salts belong to the process. `os` is the first call that the operating system refuses: to
bind the listener, to set up the poll, to bind the trap socket, or to start the thread. -/
def AgentBuilder.build (builder : AgentBuilder σ ε) (salt : SaltCounter)
    (os : Option (AgentError ε)) : Act σ (AgentError ε) (EventLoop × TrapSender) := do
  let minimumSecurityLevel := builder.security.minimumSecurityLevel
  let usmUser := builder.security.usmUser
  let engineId := builder.engineId.bytes
  let engineBoots ←
    match builder.security.bootsStore with
    | some store => (initialiseEngineBoots store engineId).mapErr .engineBoots
    | none => pure 1
  if securityLevelRequiresUser usmUser minimumSecurityLevel then .fail .securityLevelRequiresUser
  else
    match os with
    | some e => .fail e
    | none =>
      let inputs := DispatchInputs.start engineId engineBoots usmUser minimumSecurityLevel
      return (.new ⟨⟨inputs⟩, salt⟩ builder.maxConnections builder.timeoutConfig,
        { engineId, engineBoots, usmUser })

section
variable {builder : AgentBuilder σ ε} {salt : SaltCounter} {os : Option (AgentError ε)} {s s' : σ}
  {store : EngineBootsStore σ ε}

/-- A build that succeeds comes from a start-up that succeeds, and both parts have its boots
value. -/
theorem AgentBuilder.build_ok {loop : EventLoop} {sender : TrapSender}
    (hstore : builder.security.bootsStore = some store)
    (h : (builder.build salt os).run s = .ok ((loop, sender), s')) :
    startUp builder.engineId.bytes store s = (some sender.engineBoots, s') ∧
      loop.agent.ctx.inputs.engineBoots = sender.engineBoots := by
  simp only [AgentBuilder.build, hstore, Act.bind_eq_ok, Act.run_mapErr, Res.mapErr_eq_ok,
    Act.guard_eq_ok] at h
  obtain ⟨engineBoots, s₁, hinit, -, h⟩ := h
  cases os with
  | some e => exact absurd h Act.fail_ne_ok
  | none =>
    obtain ⟨hr, rfl⟩ := Act.pure_eq_ok.mp h
    cases hr
    exact ⟨by rw [startUp, hinit], rfl⟩

/-- The loop and the trap sender of a new agent. -/
theorem AgentBuilder.build_parts {loop : EventLoop} {sender : TrapSender}
    (hstore : builder.security.bootsStore = some store)
    (h : (builder.build salt os).run s = .ok ((loop, sender), s')) :
    loop = .new ⟨⟨.start builder.engineId.bytes sender.engineBoots builder.security.usmUser
        builder.security.minimumSecurityLevel⟩, salt⟩ builder.maxConnections
        builder.timeoutConfig ∧
      sender.engineId = builder.engineId.bytes ∧ sender.usmUser = builder.security.usmUser := by
  simp only [AgentBuilder.build, hstore, Act.bind_eq_ok, Act.guard_eq_ok] at h
  obtain ⟨engineBoots, s₁, -, -, h⟩ := h
  cases os with
  | some e => exact absurd h Act.fail_ne_ok
  | none =>
    obtain ⟨hr, -⟩ := Act.pure_eq_ok.mp h
    cases hr
    exact ⟨rfl, rfl, rfl⟩

/-- A build that fails leaves behind what its start-up did. -/
theorem AgentBuilder.build_err {e : AgentError ε}
    (hstore : builder.security.bootsStore = some store)
    (h : (builder.build salt os).run s = .err (e, s')) :
    ∃ boots?, startUp builder.engineId.bytes store s = (boots?, s') := by
  simp only [AgentBuilder.build, hstore, StateT.run_bind, Act.run_mapErr] at h
  simp only [startUp]
  cases hinit : (initialiseEngineBoots store builder.engineId.bytes).run s with
  | panic => simp [hinit] at h
  | err r =>
    rw [hinit] at h
    cases h
    exact ⟨_, rfl⟩
  | ok r =>
    rw [hinit, Res.mapErr_ok, Res.ok_bind] at h
    split at h
    · cases h
      exact ⟨_, rfl⟩
    · cases os with
      | some e =>
        cases h
        exact ⟨_, rfl⟩
      | none => cases h

end

end

/-! ## The ceiling -/

section
variable {crypto : Crypto} {inputs : DispatchInputs} {frame : Bytes} {env : V3MessageEnvelope}
  {pdu : InboundPdu}

theorem Authentic.isInbound (A : Authentic crypto inputs frame env pdu) :
    ∃ msg, decodeV3Message frame = .ok msg ∧ IsInbound env frame msg := by
  have henv := decodeV3Envelope_eq_ok.mp A.decodes
  obtain ⟨engineId, contextName, scopedData, hdata⟩ : ∃ engineId contextName scopedData,
      decodeScopedData env.usm.engineId env.scopedData =
        .ok (engineId, contextName, scopedData) := by
    have hcarries := A.context
    unfold V3MessageEnvelope.Carries at hcarries
    cases hd : env.scopedData with
    | plaintext contextEngineId contextName rawPdu =>
      rw [hd] at hcarries
      obtain ⟨-, -, decoded, hdecode, hpdu⟩ := hcarries
      simp only [decodeScopedData, hdecode, Res.mapErr_ok, Res.ok_bind, hpdu]
      exact ⟨_, _, _, rfl⟩
    | encrypted ciphertext => exact ⟨_, _, _, rfl⟩
  exact ⟨_, decodeV3Message_eq_ok.mpr ⟨env, _, _, _, henv, hdata, rfl⟩,
    ⟨henv, rfl, rfl, rfl, rfl, rfl, rfl, rfl, hdata⟩⟩

end

/-- The length of the response to a request with this envelope. -/
def responseLength (crypto : Crypto) (inputs : DispatchInputs) (salt : SaltCounter) (mib : Store)
    (env : V3MessageEnvelope) (pdu : InboundPdu) : Nat :=
  ((responseParams inputs env.msgId env.usm.userName []).unsigned crypto salt
    (responseTlv (handleRequest env.maxSize mib pdu))).length

/-- **Service at the ceiling.** An agent whose boots value came out of a start-up as 2147483647
answers a frame with a response exactly if the frame is authentic, with that boots value in it, and
the response can be encoded. So the service ends at the ceiling only for other frames. -/
theorem no_service_at_ceiling_iff (crypto : Crypto) {σ ε : Type} (store : EngineBootsStore σ ε)
    (s s' : σ) (inputs : DispatchInputs) (user : UsmUser) (huser : inputs.usmUser = some user)
    (hauth : user.authCredentials.isSome)
    (hstart : (initialiseEngineBoots store inputs.engineId).run s = .ok (inputs.engineBoots, s'))
    (frame : Bytes) (mib : Store) (salt : SaltCounter) :
    (inputs.engineBoots = 2147483647 → ∀ bytes agent',
      processSnmpv3Request crypto frame mib ⟨⟨inputs⟩, salt⟩ = .ok (some bytes, agent') →
      isReport bytes = true) ↔
    (inputs.engineBoots < 2147483647 ∨ 2147483648 ≤ inputs.engineTime ∨
      ∀ env pdu, Authentic crypto inputs frame env pdu → env.usm.engineBoots = 2147483647 →
        isizeMax < responseLength crypto inputs salt mib env pdu) := by
  have hceiling : (2147483647 : UInt32) < 0x80000000 := by decide
  constructor
  · intro hnone
    by_cases hboots : inputs.engineBoots = 2147483647
    · refine .inr ?_
      by_cases htime : inputs.engineTime < 0x80000000
      · refine .inr fun env pdu A _ => ?_
        obtain ⟨msg, hmsg, M⟩ := A.isInbound
        have hboots' : inputs.engineBoots < 0x80000000 := hboots ▸ hceiling
        have hadm : admission crypto (Agent.mk ⟨inputs⟩ salt).ctx.inputs msg = .ok (pdu, []) :=
          (M.admission_iff hboots' htime).mpr ⟨rfl, A⟩
        have hprocess := processSnmpv3Request_of_admission mib hboots' htime hmsg hadm
        rw [M.msgId, M.userName, M.maxSize] at hprocess
        rcases hprocess with ⟨hlen, -⟩ | ⟨bytes, -, hreport, hok⟩
        · exact hlen
        · rw [hnone hboots _ _ hok] at hreport
          cases hreport
      · exact .inl (UInt32.not_lt.mp htime)
    · have hle := (initialiseEngineBoots_range hstart).2
      refine .inl (UInt32.lt_iff_toNat_lt.mpr (lt_of_le_of_ne hle fun h => hboots ?_))
      exact UInt32.toNat_inj.mp h
  · intro hcond hboots bytes agent' h
    by_contra hreport
    obtain ⟨msg, pdu, contextName, _, hmsg, hadm, hr, -⟩ :=
      processSnmpv3Request_response.mp ⟨h, Bool.eq_false_of_not_eq_true hreport⟩
    obtain ⟨env, M⟩ := isInbound_of_decode hmsg
    obtain ⟨hs, -, hsealed, hlen⟩ := respond_inv hmsg hr
    obtain ⟨rfl, A⟩ := (M.admission_iff hs.boots_lt hs.time_lt).mp hadm
    rcases hcond with hlt | htime | hlarge
    · exact absurd (hboots ▸ hlt) (UInt32.lt_irrefl _)
    · exact absurd hs.time_lt (UInt32.not_lt.mpr htime)
    · have hwire := (A.timely user huser hauth).1
      have hlarge := hlarge env pdu A (Int32.toInt_inj.mp (by rw [hwire, hboots]; rfl))
      rw [hsealed.length_eq, M.msgId, M.userName, M.maxSize] at hlen
      exact absurd hlen (Nat.not_le.mpr hlarge)

namespace Sample

/-- The sample exchange at the ceiling. -/
def ceilingMessage (authParams scopedDataBytes : Bytes) : Bytes :=
  messageBytes ⟨7, msgMaxSizeUdp, 0x01, 3⟩
    ⟨engineId, 2147483647, 1000, userName, authParams, []⟩ scopedDataBytes

def ceilingRequestTag : Octets 32 :=
  ⟨[0xca, 0xc9, 0x4a, 0x4f, 0x92, 0x87, 0x07, 0x96, 0x5c, 0xbc, 0xd2, 0xa1, 0x8c, 0x20, 0x62,
    0x65, 0x19, 0x22, 0xa3, 0x4d, 0x7d, 0x53, 0x7a, 0x48, 0xbe, 0xdf, 0xf1, 0xdd, 0x67, 0x3b,
    0xca, 0x67], rfl⟩
def ceilingResponseTag : Octets 32 :=
  ⟨[0x62, 0x3b, 0x86, 0xef, 0xd8, 0xc3, 0x20, 0xec, 0x69, 0xff, 0x2b, 0x70, 0x23, 0xdc, 0x47,
    0xc0, 0xf4, 0x4e, 0x76, 0xa4, 0xd4, 0xf8, 0x74, 0xc6, 0x40, 0x8e, 0xe9, 0x1e, 0x5d, 0xfc,
    0x57, 0xe1], rfl⟩

def ceilingCrypto : Crypto := .tabulated
  [((key, ceilingMessage (.replicate 24 0) requestScopedPdu), ceilingRequestTag),
   ((key, ceilingMessage (.replicate 24 0) responseScopedPdu), ceilingResponseTag)] []

def ceilingFrame : Bytes := ceilingMessage (ceilingRequestTag.val.take 24) requestScopedPdu
def ceilingResponse : Bytes := ceilingMessage (ceilingResponseTag.val.take 24) responseScopedPdu

def ceilingInputs : DispatchInputs :=
  { inputs (some authUser) .authNoPriv with engineBoots := 2147483647 }

/-- A store in memory. -/
def memStore : EngineBootsStore (Option StoredBootsState) Empty :=
  ⟨fun s => .ok (s, s), fun engineId boots _ => .ok ((), some ⟨engineId, boots⟩)⟩

end Sample

/-- The last start-up of an engine, and a signed request to it. -/
theorem served_at_ceiling :
    (initialiseEngineBoots Sample.memStore Sample.engineId).run
        (some ⟨Sample.engineId, 2147483646⟩) =
      .ok (2147483647, some ⟨Sample.engineId, 2147483647⟩) ∧
    processSnmpv3Request Sample.ceilingCrypto Sample.ceilingFrame .new
        ⟨⟨Sample.ceilingInputs⟩, Sample.agentSalt⟩ =
      .ok (some Sample.ceilingResponse, ⟨⟨Sample.ceilingInputs⟩, Sample.agentSalt⟩) ∧
    isReport Sample.ceilingResponse = false := by
  refine ⟨by decide +kernel, by decide +kernel, by decide +kernel⟩

/-- The request of that manager is authentic. -/
theorem no_service_at_ceiling_iff_sample :
    ∃ env pdu, Authentic Sample.ceilingCrypto Sample.ceilingInputs Sample.ceilingFrame env pdu := by
  have H := no_service_at_ceiling_iff Sample.ceilingCrypto Sample.memStore
    (some ⟨Sample.engineId, 2147483646⟩) (some ⟨Sample.engineId, 2147483647⟩) Sample.ceilingInputs
    Sample.authUser rfl rfl (by decide +kernel) Sample.ceilingFrame .new Sample.agentSalt
  by_contra hno
  have hnone := H.mpr (.inr (.inr fun env pdu A _ => absurd ⟨env, pdu, A⟩ hno)) rfl
    Sample.ceilingResponse ⟨⟨Sample.ceilingInputs⟩, Sample.agentSalt⟩ (by decide +kernel)
  exact absurd hnone (by decide +kernel)

end SnmpAgent
