import SnmpAgent.Transport.Encryption
import SnmpAgent.Transport.Exchange
import SnmpAgent.Transport.Service
import SnmpAgent.Usm.Kdf

/-!
# What a manager meets over time

Two things that the boots value and the engine time are for. A request that was served once is
served again only for a while, and never after a restart: the boots value in it is that of one
start-up, and its time is within the window of the clock. And a manager that knows the password of
the user and nothing about the engine finds out the rest from a report, and is served from then on.
-/

namespace SnmpAgent
open Rust

/-! ## Replays -/

/-- The frame was answered with a response, and not with a report or not at all. -/
def Exchange.served (exchange : Exchange) : Bool :=
  exchange.response.any fun bytes => !isReport bytes

theorem SecurityConfig.exists_user {σ ε : Type} {security : SecurityConfig σ ε}
    {store : EngineBootsStore σ ε} (h : security.bootsStore = some store) :
    ∃ user, security.usmUser = some user ∧ user.authCredentials.isSome ∧
      security.minimumSecurityLevel = user.securityLevel := by
  cases security with
  | noAuthNoPriv => cases h
  | authNoPriv user level _ =>
    refine ⟨user, rfl, user.authNoPriv_le_securityLevel.mp ?_, level.symm⟩
    rw [level]
  | authPriv user level _ =>
    refine ⟨user, rfl, user.authNoPriv_le_securityLevel.mp ?_, level.symm⟩
    rw [level]
    exact SecurityLevel.le_authPriv _

section
variable {crypto : Crypto} {agent agent' : Agent} {frame bytes : Bytes} {mib : Store}
  {user : UsmUser}

/-- A frame that is served tells the boots value of the agent and a time near to its clock. -/
theorem timely_of_served (huser : agent.ctx.inputs.usmUser = some user)
    (hauth : user.authCredentials.isSome)
    (h : processSnmpv3Request crypto frame mib agent = .ok (some bytes, agent'))
    (hreport : isReport bytes = false) :
    ∃ env, Ber.decodeV3Envelope frame = .ok env ∧
      env.usm.engineBoots.toInt = agent.ctx.inputs.engineBoots.toNat ∧
      (env.usm.engineTime.toInt - agent.ctx.inputs.engineTime.toNat).natAbs ≤ 150 := by
  obtain ⟨msg, pdu, contextName, salt, hmsg, hadm, hrespond, -⟩ :=
    processSnmpv3Request_response.mp ⟨h, hreport⟩
  obtain ⟨hsendable, -⟩ := respond_inv hmsg hrespond
  obtain ⟨env, M⟩ := isInbound_of_decode hmsg
  obtain ⟨-, A⟩ := (M.admission_iff hsendable.boots_lt hsendable.time_lt).mp hadm
  obtain ⟨hboots, -, htime⟩ := A.timely user huser hauth
  exact ⟨env, A.decodes, hboots, htime⟩

end

namespace EventLoop

/-- The record of a loop that runs until it ends. -/
def recordedUntil (crypto : Crypto) (polls : List Poll) (s : EventLoop) : Recorded :=
  lastState (recordStep crypto) (polls.flatMap Poll.steps) (.start s)

/-- One life of an agent: how it is built, the store of its boots value, the call that the operating
system refuses if any, and the events of its loop. -/
structure Lifetime (σ ε : Type) where
  builder : AgentBuilder σ ε
  store : EngineBootsStore σ ε
  bootsStore : builder.security.bootsStore = some store
  salt : SaltCounter
  os : Option (AgentError ε)
  polls : List Poll

/-- The exchanges of each life that begins. -/
def lifetimes {σ ε : Type} (crypto : Crypto) : List (Lifetime σ ε) → σ → List (List Exchange)
  | [], _ => []
  | life :: lives, s =>
    match (life.builder.build life.salt life.os).run s with
    | .ok ((loop, _), s) => (recordedUntil crypto life.polls loop).log :: lifetimes crypto lives s
    | .err (_, s) => lifetimes crypto lives s
    | .panic => lifetimes crypto lives s

theorem served_recordedUntil (crypto : Crypto) (agent : Agent) (max : Nat)
    (timeoutConfig : ConnectionTimeoutConfig) (polls : List Poll) :
    Served crypto agent (recordedUntil crypto polls (new agent max timeoutConfig)) :=
  lastState_inv (Served crypto agent) (fun _ _ _ H h => H.step h) _
    (.start crypto agent max timeoutConfig)

/-- Every frame that was served carries this boots value, and a time near to that of its arrival. -/
def CarryBoots (boots : Nat) (log : List Exchange) : Prop :=
  ∀ exchange ∈ log, exchange.served → ∃ env, Ber.decodeV3Envelope exchange.frame = .ok env ∧
    env.usm.engineBoots.toInt = boots ∧
    (env.usm.engineTime.toInt - exchange.arrival.engineTime.toNat).natAbs ≤ 150

/-- No frame that was served is served again. -/
def NoneServedAgain (earlier later : List Exchange) : Prop :=
  ∀ first ∈ earlier, ∀ second ∈ later, first.served → second.served → first.frame ≠ second.frame

theorem CarryBoots.noneServedAgain {boots boots' : Nat} {earlier later : List Exchange}
    (H : CarryBoots boots earlier) (H' : CarryBoots boots' later) (hlt : boots < boots') :
    NoneServedAgain earlier later := by
  intro first hfirst second hsecond h₁ h₂ heq
  obtain ⟨env, henv, hboots, -⟩ := H first hfirst h₁
  obtain ⟨env', henv', hboots', -⟩ := H' second hsecond h₂
  rw [heq, henv'] at henv
  cases henv
  omega

theorem CarryBoots.within {boots : Nat} {log : List Exchange} (H : CarryBoots boots log)
    {first second : Exchange} (hfirst : first ∈ log) (hsecond : second ∈ log)
    (h₁ : first.served) (h₂ : second.served) (heq : first.frame = second.frame) :
    ((first.arrival.engineTime.toNat : Int) - second.arrival.engineTime.toNat).natAbs ≤ 300 := by
  obtain ⟨env, henv, -, hwindow⟩ := H first hfirst h₁
  obtain ⟨env', henv', -, hwindow'⟩ := H second hsecond h₂
  rw [heq, henv'] at henv
  cases henv
  omega

theorem Served.carryBoots {crypto : Crypto} {agent : Agent} {o : Recorded} {user : UsmUser}
    (H : Served crypto agent o) (huser : agent.ctx.inputs.usmUser = some user)
    (hauth : user.authCredentials.isSome) :
    CarryBoots agent.ctx.inputs.engineBoots.toNat o.log := by
  intro exchange hmem hserved
  obtain ⟨before, after, hconfig, htime, hprocess⟩ := exists_process_of_mem H.processed hmem
  obtain ⟨bytes, hbytes, hreport⟩ := (Option.any_eq_true ..).mp hserved
  rw [hbytes] at hprocess
  have huser' : before.ctx.inputs.usmUser = some user :=
    (congrArg DispatchInputs.usmUser hconfig :).trans huser
  obtain ⟨env, henv, hwire, hwindow⟩ :=
    timely_of_served huser' hauth hprocess (Bool.not_eq_true' _ |>.mp hreport)
  refine ⟨env, henv, ?_, htime ▸ hwindow⟩
  rw [hwire, DispatchInputs.engineBoots_of_config hconfig]

section
variable {σ ε : Type} {life : Lifetime σ ε} {lives : List (Lifetime σ ε)}
  {engineId : Bytes} {contents : σ → Contents} {s s' : σ}

theorem carryBoots_of_build {loop : EventLoop} {sender : TrapSender} (crypto : Crypto)
    (h : (life.builder.build life.salt life.os).run s = .ok ((loop, sender), s')) :
    CarryBoots sender.engineBoots.toNat (recordedUntil crypto life.polls loop).log := by
  obtain ⟨rfl, -⟩ := AgentBuilder.build_parts life.bootsStore h
  obtain ⟨user, huser, hauth, -⟩ := SecurityConfig.exists_user life.bootsStore
  exact (served_recordedUntil crypto ..).carryBoots huser hauth

/-- Later lives serve frames with later boots values. -/
theorem boots_of_lifetimes (crypto : Crypto)
    (hid : ∀ life ∈ lives, life.builder.engineId.bytes = engineId)
    (hfaithful : ∀ life ∈ lives, life.store.Faithful engineId contents) {n : Nat}
    (H : Since contents engineId n s) :
    (lifetimes crypto lives s).Pairwise NoneServedAgain ∧
    ∀ log ∈ lifetimes crypto lives s, ∃ boots, n < boots ∧ CarryBoots boots log := by
  induction lives generalizing n s with
  | nil => exact ⟨.nil, fun log h => by cases h⟩
  | cons life lives ih =>
    have ih' := fun {m s} => @ih s (fun l hl => hid l (List.mem_cons_of_mem _ hl))
      (fun l hl => hfaithful l (List.mem_cons_of_mem _ hl)) m
    obtain rfl := hid life List.mem_cons_self
    have hstep := fun {boots? s'} => @startUp_since σ ε _ life.store contents s s' boots?
      (hfaithful life List.mem_cons_self) n H
    rw [lifetimes]
    cases hbuild : (life.builder.build life.salt life.os).run s with
    | panic => exact ih' H
    | err r =>
      obtain ⟨e, s'⟩ := r
      obtain ⟨boots?, hup⟩ := AgentBuilder.build_err life.bootsStore hbuild
      exact ih' (hstep hup).2
    | ok r =>
      obtain ⟨⟨loop, sender⟩, s'⟩ := r
      obtain ⟨hup, -⟩ := AgentBuilder.build_ok life.bootsStore hbuild
      obtain ⟨hlt, -, hsince⟩ := (hstep hup).1 sender.engineBoots rfl
      have hcarry := carryBoots_of_build crypto hbuild
      obtain ⟨hpairs, hlater⟩ := ih' hsince
      refine ⟨List.pairwise_cons.mpr ⟨fun log hlog => ?_, hpairs⟩,
        List.forall_mem_cons.mpr ⟨⟨_, hlt, hcarry⟩, fun log hlog => ?_⟩⟩
      · obtain ⟨boots, hgt, hlog⟩ := hlater log hlog
        exact hcarry.noneServedAgain hlog hgt
      · obtain ⟨boots, hgt, hlog⟩ := hlater log hlog
        exact ⟨boots, hlt.trans hgt, hlog⟩

end

/-- **Replays.** An agent with a user serves a frame again for at most 300 seconds of its engine
time, and never in another life, whatever the frames in between and however its lives end, as long
as the stores of its boots value are faithful. -/
theorem replays_confined {σ ε : Type} (crypto : Crypto) (engineId : Bytes)
    (contents : σ → Contents) (lives : List (Lifetime σ ε))
    (hid : ∀ life ∈ lives, life.builder.engineId.bytes = engineId)
    (hfaithful : ∀ life ∈ lives, life.store.Faithful engineId contents) (s : σ) :
    (lifetimes crypto lives s).Pairwise NoneServedAgain ∧
    ∀ log ∈ lifetimes crypto lives s, ∀ first ∈ log, ∀ second ∈ log,
      first.served → second.served → first.frame = second.frame →
      ((first.arrival.engineTime.toNat : Int) - second.arrival.engineTime.toNat).natAbs ≤ 300 := by
  have hzero : Since contents engineId 0 s := .inl rfl
  obtain ⟨hpairs, hlogs⟩ := boots_of_lifetimes crypto hid hfaithful hzero
  refine ⟨hpairs, fun log hlog first hfirst second hsecond h₁ h₂ heq => ?_⟩
  obtain ⟨boots, -, hcarry⟩ := hlogs log hlog
  exact hcarry.within hfirst hsecond h₁ h₂ heq

end EventLoop

namespace Sample

theorem length_engineId_ge : 5 ≤ engineId.length := by decide

theorem length_engineId_le : engineId.length ≤ 32 := by decide

def engine : EngineId := ⟨engineId, length_engineId_ge, length_engineId_le⟩

def authBuilder : AgentBuilder (Option StoredBootsState) Empty where
  engineId := engine
  security := .authNoPriv authUser rfl memStore
  maxConnections := 2
  timeoutConfig := {}

/-- The response to the signed request after 100 seconds. The parameter of the MAC is left open. -/
def lateResponse (authParams : Bytes) : Bytes :=
  messageBytes ⟨7, msgMaxSizeUdp, 0x01, 3⟩ ⟨engineId, 3, 1100, userName, authParams, []⟩
    responseScopedPdu

def lateResponseTag : Octets 32 :=
  ⟨[0x13, 0xfb, 0xbd, 0x95, 0x27, 0xe6, 0x4e, 0x76, 0xd7, 0x2c, 0x6e, 0x29, 0x1f, 0x24, 0xb9,
    0x4c, 0xd3, 0x36, 0xa4, 0xb6, 0x6f, 0x90, 0x0c, 0xc5, 0x7b, 0x47, 0x89, 0xff, 0x56, 0x75,
    0x82, 0x55], rfl⟩

def replayCrypto : Crypto := .tabulated
  [((key, signedRequest (.replicate 24 0)), signedRequestTag),
   ((key, signedResponse (.replicate 24 0)), signedResponseTag),
   ((key, lateResponse (.replicate 24 0)), lateResponseTag)] []

/-- The signed request, and the same once more after 100 seconds. -/
def replayed : EventLoop.Lifetime (Option StoredBootsState) Empty where
  builder := authBuilder
  store := memStore
  bootsStore := rfl
  salt := agentSalt
  os := none
  polls := [⟨[.listener [.stream true 0]], 0⟩, ⟨[.connection 2 1000 [.ok signedFrame 1] []], 1⟩,
    ⟨[.connection 2 1100 [.ok signedFrame 101] []], 101⟩]

end Sample

namespace EventLoop

/-- Three lives, of which the second one has the boots value of the request. -/
theorem replays_confined_sample :
    let logs := lifetimes Sample.replayCrypto [Sample.replayed, Sample.replayed, Sample.replayed]
      (some ⟨Sample.engineId, 1⟩)
    logs.map (·.map Exchange.served) = [[false, false], [true, true], [false, false]] ∧
      logs.Pairwise NoneServedAgain := by
  intro logs
  have hlives : ∀ life ∈ [Sample.replayed, Sample.replayed, Sample.replayed],
      life = Sample.replayed := by simp
  refine ⟨by decide +kernel, ?_⟩
  refine (replays_confined Sample.replayCrypto Sample.engineId .holds _ ?_ ?_ _).1
  · intro life hlife
    rw [hlives life hlife]
    rfl
  · intro life hlife
    rw [hlives life hlife]
    exact Sample.faithful_memStore _

end EventLoop

/-! ## Discovery -/

/-- What a manager knows of a user. -/
structure Account where
  name : UserName
  authProtocol : AuthProtocol
  password : Bytes
  privProtocol : Option PrivProtocol

/-- The user of this account at an engine. -/
def Account.user (account : Account) (hashes : Hashes) (engineId : Bytes) : Option UsmUser := do
  let authKey ←
    (passwordToLocalisedKey hashes account.password engineId account.authProtocol).ok?
  match account.privProtocol with
  | none => (UsmUser.newAuthNoPriv account.name account.authProtocol authKey).toOption
  | some privProtocol =>
    (UsmUser.newAuthPriv account.name account.authProtocol authKey privProtocol).toOption

/-- What a message tells of the engine that sends it. -/
structure Discovered where
  engineId : Bytes
  engineBoots : UInt32
  engineTime : UInt32
  deriving DecidableEq

def discover (report : Bytes) : Option Discovered := do
  let env ← (Ber.decodeV3Envelope report).ok?
  let engineBoots ← u32TryFrom env.usm.engineBoots
  let engineTime ← u32TryFrom env.usm.engineTime
  some ⟨env.usm.engineId, engineBoots, engineTime⟩

/-- The envelope of a message between the manager and the engine that it found. -/
def Discovered.params (found : Discovered) (user : UsmUser) (msgId : Int32) (engineTime : UInt32) :
    V3Params where
  msgId := msgId
  engineId := found.engineId
  userName := user.name.asBytes
  contextName := []
  engineBoots := found.engineBoots
  engineTime := engineTime
  auth := user.auth
  privacy := user.privacy

/-- The frame is a request that the manager makes of what it found. -/
def Discovered.Requests (found : Discovered) (crypto : Crypto) (user : UsmUser) (msgId : Int32)
    (engineTime : UInt32) (pdu : InboundPdu) (frame : Bytes) : Prop :=
  ∃ raw managerSalt managerSalt', encodeRequest pdu 0 0 = .ok raw ∧
    (encodeV3Envelope crypto (found.params user msgId engineTime) raw).run managerSalt =
      .ok (frame, managerSalt')

/-- The frame names no engine and asks for a report. -/
def IsProbe (frame : Bytes) : Prop :=
  ∃ msg, decodeV3Message frame = .ok msg ∧ msg.securityModel.isUsm ∧ msg.usm.authEngineId = [] ∧
    msg.usm.securityFlags.isReportable

section
variable {crypto : Crypto} {inputs : DispatchInputs} {frame bytes : Bytes} {mib : Store}
  {msgId : Int32} {user : UsmUser}

theorem discover_of_reportsOn {counter : StatsCounter}
    (hboots : inputs.engineBoots < 0x80000000) (htime : inputs.engineTime < 0x80000000)
    (H : ReportsOn inputs msgId counter bytes) :
    discover bytes = some ⟨inputs.engineId, inputs.engineBoots, inputs.engineTime⟩ := by
  obtain ⟨offset, rawPdu, rawVarbindList, henv, -⟩ := H
  simp only [discover, henv, Res.ok?_ok, Option.bind_eq_bind, Option.bind_some]
  change (u32TryFrom inputs.engineBoots.toInt32).bind _ = _
  rw [u32TryFrom_toInt32 hboots, Option.bind_some]
  change (u32TryFrom inputs.engineTime.toInt32).bind _ = _
  rw [u32TryFrom_toInt32 htime, Option.bind_some]
  rfl

/-- A probe is answered whoever sends it. -/
theorem answerTo_probe (crypto : Crypto) (inputs : DispatchInputs) (mib : Store)
    (H : IsProbe frame) :
    ∃ msgId, answerTo crypto inputs frame mib = .report msgId .unknownEngineIds := by
  obtain ⟨msg, hmsg, husm, hengine, hreportable⟩ := H
  have hadm : admission crypto inputs msg = .err .discovery := by
    simp [admission, ensure, husm, hengine]
  refine ⟨msg.msgId, ?_⟩
  rw [answerTo_of_stage hmsg hadm]
  exact if_pos hreportable

/-- The request of a manager that has found the engine. -/
theorem answerTo_request (inputs : DispatchInputs) (hcrypto : crypto.DecryptInverts)
    (hengine : inputs.engineId ≠ []) (hfloor : inputs.minimumSecurityLevel ≤ inputs.userLevel)
    (huser : inputs.usmUser = some user) (hboots : inputs.engineBoots < 0x80000000)
    (htime : inputs.engineTime < 0x80000000) (hid : 0 ≤ msgId.toInt) {pdu : InboundPdu}
    (hpdu : pdu.Representable) {found : Discovered} {engineTime : UInt32}
    (hfound : found.engineId = inputs.engineId ∧ found.engineBoots = inputs.engineBoots)
    (hwindow : ((engineTime.toNat : Int) - inputs.engineTime.toNat).natAbs ≤ 150)
    (H : found.Requests crypto user msgId engineTime pdu frame) :
    answerTo crypto inputs frame mib =
      .response msgId user.name.asBytes (handleRequest msgMaxSizeUdp mib pdu) := by
  obtain ⟨raw, managerSalt, managerSalt', hraw, hframe⟩ := H
  obtain ⟨rfl, -⟩ := encodeRequest_eq_ok hraw
  have hparams : found.params user msgId engineTime =
      requestParams inputs msgId user.name.asBytes engineTime := by
    rw [Discovered.params, requestParams, hfound.1, hfound.2, huser, Option.bind_some,
      Option.bind_some]
  rw [hparams] at hframe
  have hp : (requestParams inputs msgId user.name.asBytes engineTime).WF :=
    wf_requestParams hid user.name.length_le
  obtain ⟨hs, -, hsealed, hlen⟩ := encodeV3Envelope_inv hp hframe
  have hname : ∀ user' ∈ inputs.usmUser, user.name.asBytes = user'.name.asBytes := by
    intro user' hmem
    rw [Option.some.inj (huser.symm.trans hmem)]
  obtain ⟨env, msg, hmsg, M, A, hmsgId, hmaxSize, huserName⟩ :=
    authentic_request hcrypto hengine hfloor hname hwindow hp hs hpdu hlen hsealed
  have hadm : admission crypto inputs msg = .ok (pdu, []) :=
    (M.admission_iff hboots htime).mpr ⟨rfl, A⟩
  rw [answerTo_of_admission hmsg hadm, hmsgId, hmaxSize, huserName]

/-- The manager can check the response, and decrypt it if it is encrypted. -/
theorem peerChecks_of_conveyed (config : DispatchInputs) (hcrypto : crypto.DecryptInverts)
    {engineTime : UInt32} {response : GetResponse} {out : Option Bytes}
    (huser : config.usmUser = some user) (hboots : config.engineBoots < 0x80000000)
    (htime : engineTime < 0x80000000) (hid : 0 ≤ msgId.toInt) {found : Discovered}
    (hfound : found.engineId = config.engineId ∧ found.engineBoots = config.engineBoots)
    (H : (Answer.response msgId user.name.asBytes response).ConveyedBy crypto config engineTime
      out) :
    ∃ bytes env, out = some bytes ∧ PeerChecks crypto (found.params user msgId engineTime)
      (responseTlv response) bytes env := by
  obtain ⟨inputs, salt, rfl, rfl, bytes, salt', rfl, hencode⟩ := H
  have huser' : inputs.usmUser = some user := huser
  have hparams : responseParams inputs msgId user.name.asBytes [] =
      found.params user msgId inputs.engineTime := by
    rw [Discovered.params, responseParams, hfound.1, hfound.2, huser', Option.bind_some,
      Option.bind_some]
    rfl
  have hp : (responseParams inputs msgId user.name.asBytes []).WF :=
    ⟨hid, user.name.length_le, fun _ _ => length_authKey, fun _ _ => length_privKey⟩
  have hindex := errorIndex_lt_of_encodeV3Response hencode
  obtain ⟨-, env, hpeer⟩ := (emitsCheckable hcrypto hp hboots htime
    (run_encodeV3Response hindex)).emitted bytes salt' hencode
  exact ⟨bytes, env, rfl, hparams ▸ hpeer⟩

end

section
variable {σ ε : Type} {builder : AgentBuilder σ ε} {store : EngineBootsStore σ ε}
  {salt : SaltCounter} {os : Option (AgentError ε)} {s s' : σ} {loop : EventLoop}
  {sender : TrapSender}

/-- The boots value of a new agent can be sent. -/
theorem AgentBuilder.boots_lt (hstore : builder.security.bootsStore = some store)
    (h : (builder.build salt os).run s = .ok ((loop, sender), s')) :
    sender.engineBoots < 0x80000000 := by
  obtain ⟨hup, -⟩ := AgentBuilder.build_ok hstore h
  rw [startUp] at hup
  split at hup
  · rename_i boots s₁ hinit
    cases hup
    have hrange := (initialiseEngineBoots_range hinit).2
    have hmax : maxEngineBoots.toNat = 2 ^ 31 - 1 := rfl
    refine UInt32.lt_iff_toNat_lt.mpr ?_
    change sender.engineBoots.toNat < 2 ^ 31
    omega
  · cases hup
  · cases hup

end

namespace EventLoop

section
variable {crypto : Crypto} {agent : Agent} {o : Recorded} {exchange : Exchange}

theorem Served.discovered (H : Served crypto agent o)
    (hboots : agent.ctx.inputs.engineBoots < 0x80000000) (hmem : exchange ∈ o.log)
    (htime : exchange.arrival.engineTime < 0x80000000) (hprobe : IsProbe exchange.frame) :
    ∃ report, exchange.response = some report ∧ discover report =
      some ⟨agent.ctx.inputs.engineId, agent.ctx.inputs.engineBoots,
        exchange.arrival.engineTime⟩ := by
  have hconveyed := H.conveyed hboots hmem htime
  obtain ⟨msgId, hanswer⟩ := answerTo_probe crypto
    (agent.ctx.inputs.config.atTime exchange.arrival.engineTime) exchange.arrival.mib hprobe
  rw [hanswer] at hconveyed
  obtain ⟨inputs, salt, hconfig, hnow, report, hreport, hreports⟩ := hconveyed
  have hboots' := DispatchInputs.engineBoots_of_config hconfig
  have hengineId : inputs.engineId = agent.ctx.inputs.engineId :=
    (congrArg DispatchInputs.engineId hconfig :)
  refine ⟨report, hreport, ?_⟩
  rw [discover_of_reportsOn (hboots' ▸ hboots) (hnow ▸ htime) hreports, hengineId, hboots', hnow]

theorem Served.requested (H : Served crypto agent o) (hcrypto : crypto.DecryptInverts)
    (hengine : agent.ctx.inputs.engineId ≠ [])
    (hfloor : agent.ctx.inputs.minimumSecurityLevel ≤ agent.ctx.inputs.userLevel) {user : UsmUser}
    (huser : agent.ctx.inputs.usmUser = some user)
    (hboots : agent.ctx.inputs.engineBoots < 0x80000000) (hmem : exchange ∈ o.log)
    (htime : exchange.arrival.engineTime < 0x80000000) {msgId : Int32} (hid : 0 ≤ msgId.toInt)
    {pdu : InboundPdu} (hpdu : pdu.Representable) {found : Discovered} {engineTime : UInt32}
    (hfound : found.engineId = agent.ctx.inputs.engineId ∧
      found.engineBoots = agent.ctx.inputs.engineBoots)
    (hwindow : ((engineTime.toNat : Int) - exchange.arrival.engineTime.toNat).natAbs ≤ 150)
    (hrequest : found.Requests crypto user msgId engineTime pdu exchange.frame) :
    ∃ bytes env, exchange.response = some bytes ∧
      PeerChecks crypto (found.params user msgId exchange.arrival.engineTime)
        (responseTlv (handleRequest msgMaxSizeUdp exchange.arrival.mib pdu)) bytes env := by
  have hconveyed := H.conveyed hboots hmem htime
  have hanswer : answerTo crypto (agent.ctx.inputs.config.atTime exchange.arrival.engineTime)
      exchange.frame exchange.arrival.mib = .response msgId user.name.asBytes
        (handleRequest msgMaxSizeUdp exchange.arrival.mib pdu) :=
    answerTo_request (agent.ctx.inputs.config.atTime exchange.arrival.engineTime) hcrypto hengine
      hfloor huser hboots htime hid hpdu hfound hwindow hrequest
  rw [hanswer] at hconveyed
  exact peerChecks_of_conveyed agent.ctx.inputs.config hcrypto huser hboots htime hid hfound
    hconveyed

end

/-- **Discovery.** A manager knows the name and the password of the user of an agent, and nothing of
its engine. The report on its probe tells it the engine ID, from which it derives the keys, and the
boots value and time. From then on, whatever else the agent is sent and wherever, the agent serves
the requests that the manager makes of this with a time that is right to 150 seconds, and the
manager can check and decrypt the responses. -/
theorem discovery_leads_to_service {σ ε : Type} (crypto : Crypto)
    (hcrypto : crypto.DecryptInverts) (hashes : Hashes) (account : Account)
    {builder : AgentBuilder σ ε} {store : EngineBootsStore σ ε} {user : UsmUser}
    (hstore : builder.security.bootsStore = some store)
    (huser : builder.security.usmUser = some user)
    (haccount : account.user hashes builder.engineId.bytes = some user)
    {salt : SaltCounter} {os : Option (AgentError ε)} {s s' : σ} {loop : EventLoop}
    {sender : TrapSender} (hbuild : (builder.build salt os).run s = .ok ((loop, sender), s'))
    {polls : List Poll} {o : Recorded} (ho : recordedRun crypto polls loop = .ok o)
    {probe : Exchange} (hmem : probe ∈ o.log) (hprobe : IsProbe probe.frame)
    (htime : probe.arrival.engineTime < 0x80000000) :
    ∃ report found, probe.response = some report ∧ discover report = some found ∧
      account.user hashes found.engineId = some user ∧
      found.engineTime = probe.arrival.engineTime ∧
      ∀ exchange ∈ o.log, exchange.arrival.engineTime < 0x80000000 →
        ∀ msgId pdu (engineTime : UInt32), 0 ≤ msgId.toInt → pdu.Representable →
        ((engineTime.toNat : Int) - exchange.arrival.engineTime.toNat).natAbs ≤ 150 →
        found.Requests crypto user msgId engineTime pdu exchange.frame →
        ∃ bytes env, exchange.response = some bytes ∧
          PeerChecks crypto (found.params user msgId exchange.arrival.engineTime)
            (responseTlv (handleRequest msgMaxSizeUdp exchange.arrival.mib pdu)) bytes env := by
  have hboots := AgentBuilder.boots_lt hstore hbuild
  obtain ⟨rfl, -⟩ := AgentBuilder.build_parts hstore hbuild
  obtain ⟨user', huser', -, hminimum⟩ := SecurityConfig.exists_user hstore
  cases huser.symm.trans huser'
  have H := served_recordedRun crypto _ _ _ polls ho
  obtain ⟨report, hreport, hfound⟩ := H.discovered hboots hmem htime hprobe
  refine ⟨report, _, hreport, hfound, haccount, rfl, ?_⟩
  intro exchange hmem' htime' msgId pdu engineTime hid hpdu hwindow hrequest
  have hengine : builder.engineId.bytes ≠ [] := by
    intro h
    have hlen := builder.engineId.length_ge
    rw [h] at hlen
    cases hlen
  have hfloor : builder.security.minimumSecurityLevel ≤
      builder.security.usmUser.elim .noAuthNoPriv UsmUser.securityLevel := by
    rw [huser, hminimum]
    exact le_refl _
  exact H.requested hcrypto hengine hfloor huser hboots hmem' htime' hid hpdu ⟨rfl, rfl⟩ hwindow
    hrequest

end EventLoop

namespace Sample

/-- The key of the sample password for the sample engine. -/
def localKey : Octets 32 :=
  ⟨[0xe4, 0xe9, 0x63, 0xb0, 0x77, 0x29, 0x54, 0xdb, 0x5f, 0xb8, 0xc8, 0x09, 0x6b, 0x90, 0xfd,
    0xfa, 0xe5, 0xfc, 0xab, 0x69, 0x29, 0x3a, 0xe7, 0xbf, 0x2c, 0x2a, 0x7d, 0xc6, 0x63, 0xc5,
    0x88, 0x87], rfl⟩

def hashes : Hashes := .ofPassword password engineId masterKey localKey

def account : Account := ⟨privUser.name, .hmacSha256, password, some .aes128⟩

def localUser : UsmUser where
  name := privUser.name
  authCredentials := some ⟨.hmacSha256, localKey.val, by decide⟩
  privCredentials := some ⟨.aes128, localKey.val.take 16, by decide⟩
  auth_of_priv := fun _ => rfl

def privBuilder : AgentBuilder (Option StoredBootsState) Empty where
  engineId := engine
  security := .authPriv localUser rfl memStore
  maxConnections := 2
  timeoutConfig := {}

theorem account_user : account.user hashes privBuilder.engineId.bytes = some localUser := by
  rw [Account.user]
  change (passwordToLocalisedKey hashes password engineId .hmacSha256).ok?.bind _ = _
  rw [hashes, passwordToLocalisedKey_ofPassword (by decide) (by decide)]
  rfl

/-- A message under the keys of that user. The parameter of the MAC is left open. -/
def localMessage (engineTime : Int32) (salt : SaltCounter) (ciphertext authParams : Bytes) :
    Bytes :=
  messageBytes ⟨7, msgMaxSizeUdp, 0x03, 3⟩
    ⟨engineId, 3, engineTime, userName, authParams, salt.salt.val⟩ (octetStringTlv ciphertext)

def localRequestKeystream : Bytes :=
  [0x98, 0x9f, 0x31, 0xee, 0xce, 0x03, 0xa3, 0x10, 0x6b, 0xbb, 0xf5, 0x8f, 0x43, 0x18, 0x13, 0xfb,
  0xec, 0x62, 0xc5, 0x3a, 0x77, 0xac, 0x38, 0x58, 0x41, 0xc0, 0x7b, 0x8a, 0xca, 0x92, 0xac, 0x76,
  0xfc, 0xf4, 0x45, 0xee, 0x09, 0x87, 0x9c, 0x57, 0x7e, 0x45]
def localRequest (authParams : Bytes) : Bytes :=
  localMessage 1000 managerSalt (xorKeystream localRequestKeystream requestScopedPdu) authParams
def localRequestTag : Octets 32 :=
  ⟨[0xb4, 0xac, 0x1f, 0x9e, 0x0d, 0xaf, 0xca, 0x1b, 0x7b, 0x4a, 0x3f, 0xc6, 0xa9, 0x09, 0x80,
    0xce, 0x70, 0xde, 0xe4, 0x23, 0x0a, 0xf2, 0x09, 0x5f, 0xa7, 0xf0, 0xd5, 0x68, 0xbb, 0x19,
    0x1a, 0x2b], rfl⟩

def localResponseKeystream : Bytes :=
  [0xf4, 0x14, 0xed, 0x84, 0x3d, 0x8d, 0xb7, 0x1b, 0xba, 0x5c, 0x8a, 0x72, 0xa0, 0xd9, 0x95, 0x8b,
  0xee, 0xa5, 0x62, 0xa4, 0xef, 0x7c, 0xc3, 0xca, 0x64, 0xe0, 0x11, 0x8f, 0x71, 0x9c, 0x1b, 0xf5,
  0x7d, 0x9a, 0x16, 0x66, 0x01, 0x04, 0x62, 0xa1, 0x50, 0xfc]
def localResponse (authParams : Bytes) : Bytes :=
  localMessage 1050 agentSalt (xorKeystream localResponseKeystream responseScopedPdu) authParams
def localResponseTag : Octets 32 :=
  ⟨[0xda, 0x80, 0xf0, 0x8b, 0xbe, 0x88, 0x50, 0xe5, 0xfc, 0xd4, 0xdc, 0x17, 0xd9, 0x25, 0x3f,
    0x15, 0xb1, 0x17, 0x92, 0x5d, 0x5d, 0x18, 0x20, 0x36, 0x02, 0x4f, 0x65, 0x77, 0x4b, 0xcf,
    0xc0, 0xe5], rfl⟩

def localCrypto : Crypto := .tabulated
  [((localKey.val, localRequest (.replicate 24 0)), localRequestTag),
   ((localKey.val, localResponse (.replicate 24 0)), localResponseTag)]
  [((aesIv 3 1000 managerSalt.salt).val, localRequestKeystream),
   ((aesIv 3 1050 agentSalt.salt).val, localResponseKeystream)]

def localRequestFrame : Bytes := localRequest (localRequestTag.val.take 24)
def localResponseFrame : Bytes := localResponse (localResponseTag.val.take 24)

def probeFrame : Bytes :=
  messageBytes ⟨5, msgMaxSizeUdp, 0x04, 3⟩ ⟨[], 0, 0, [], [], []⟩
    (scopedPduTlv [] [] (requestTlv request 0 0))

/-- A manager finds the engine, and comes back with a request on another connection. -/
def discovery : List EventLoop.Poll :=
  [⟨[.listener [.stream true 0, .stream true 0]], 0⟩,
    ⟨[.connection 2 990 [.ok probeFrame 1] []], 1⟩,
    ⟨[.connection 3 1050 [.ok localRequestFrame 61] []], 61⟩]

end Sample

namespace EventLoop

/-- The keys come from a password, and the messages are encrypted. -/
theorem discovery_leads_to_service_sample :
    ∃ loop sender o, (Sample.privBuilder.build Sample.agentSalt none).run
        (some ⟨Sample.engineId, 2⟩) = .ok ((loop, sender), some ⟨Sample.engineId, 3⟩) ∧
      recordedRun Sample.localCrypto Sample.discovery loop = .ok o ∧
      ∃ probe ∈ o.log, ∃ exchange ∈ o.log, exchange.frame = Sample.localRequestFrame ∧
        exchange.response = some Sample.localResponseFrame ∧
        ∃ found env, probe.response.bind discover = some found ∧
          Sample.account.user Sample.hashes found.engineId = some Sample.localUser ∧
          PeerChecks Sample.localCrypto (found.params Sample.localUser 7 1050)
            (responseTlv Sample.response) Sample.localResponseFrame env := by
  let agent : Agent :=
    ⟨⟨.start Sample.engineId 3 (some Sample.localUser) .authPriv⟩, Sample.agentSalt⟩
  let sender : TrapSender := ⟨Sample.engineId, 3, some Sample.localUser⟩
  have hbuild : (Sample.privBuilder.build Sample.agentSalt none).run
      (some ⟨Sample.engineId, 2⟩) = .ok ((new agent 2 {}, sender), some ⟨Sample.engineId, 3⟩) := rfl
  have hlog : (fun o => o.log.map fun exchange => (exchange.arrival, exchange.response)) <$>
        recordedRun Sample.localCrypto Sample.discovery (new agent 2 {}) =
      .ok [(⟨Sample.probeFrame, .new, 990⟩,
          some (reportBytes (((agent.atTime 990).count .unknownEngineIds).ctx.inputs) 5
            .unknownEngineIds)),
        (⟨Sample.localRequestFrame, .new, 1050⟩, some Sample.localResponseFrame)] := by
    decide +kernel
  obtain ⟨o, ho, hlog⟩ := Res.map_eq_ok.mp hlog
  obtain ⟨probe, hmem, hprobe⟩ := List.mem_map.mp (hlog ▸ List.mem_cons_self)
  obtain ⟨exchange, hmem', hexchange⟩ :=
    List.mem_map.mp (hlog ▸ List.mem_cons_of_mem _ List.mem_cons_self)
  obtain ⟨hprobe, hprobeResponse⟩ := Prod.mk.inj hprobe
  obtain ⟨hexchange, hresponse⟩ := Prod.mk.inj hexchange
  have hframe : exchange.frame = Sample.localRequestFrame := by rw [Exchange.frame, hexchange]
  have hIsProbe : IsProbe probe.frame := by
    have hprobeFrame : probe.frame = Sample.probeFrame := by rw [Exchange.frame, hprobe]
    have hmsg : (fun msg => (msg.securityModel.isUsm, msg.usm.authEngineId,
        msg.usm.securityFlags.isReportable)) <$> decodeV3Message Sample.probeFrame =
        .ok (true, [], true) := by
      decide +kernel
    obtain ⟨msg, hmsg, heq⟩ := Res.map_eq_ok.mp hmsg
    simp only [Prod.mk.injEq] at heq
    exact ⟨msg, hprobeFrame ▸ hmsg, heq⟩
  obtain ⟨report, found, hreport, hfound, haccount, -, H⟩ := discovery_leads_to_service
    Sample.localCrypto (Crypto.decryptInverts_tabulated _ _) Sample.hashes Sample.account rfl rfl
    Sample.account_user hbuild ho hmem hIsProbe (by rw [hprobe]; decide)
  have hdiscover : probe.response.bind discover = some ⟨Sample.engineId, 3, 990⟩ :=
    (congrArg (Option.bind · discover) hprobeResponse).trans (by decide +kernel)
  rw [hreport, Option.bind_some, hfound, Option.some.injEq] at hdiscover
  subst hdiscover
  have hrequest : Discovered.Requests ⟨Sample.engineId, 3, 990⟩ Sample.localCrypto Sample.localUser
      7 1000 Sample.request exchange.frame := by
    rw [hframe]
    exact ⟨requestTlv Sample.request 0 0, Sample.managerSalt, Sample.managerSalt.next,
      by decide +kernel, by decide +kernel⟩
  obtain ⟨bytes, env, hbytes, hpeer⟩ := H exchange hmem' (by rw [hexchange]; decide) 7
    Sample.request 1000 (by decide) trivial (by rw [hexchange]; decide) hrequest
  obtain rfl := Option.some.inj (hbytes.symm.trans hresponse)
  rw [hexchange] at hpeer
  refine ⟨_, _, o, hbuild, ho, probe, hmem, exchange, hmem', hframe, hbytes, _, env, ?_, haccount,
    hpeer⟩
  rw [hreport]
  exact hfound

end EventLoop

end SnmpAgent
