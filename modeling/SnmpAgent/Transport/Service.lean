import SnmpAgent.Transport.Startup
import SnmpAgent.Transport.Streams

/-!
# Answers that do not depend on the past

An agent keeps counters and a salt counter from one frame to the next, and nothing else. `answerTo`
says what a frame is answered with, apart from the values of these counters, and it takes the
configuration, the engine time, the frame and the store and no more. So what other managers have
sent before, on whatever connection, has no influence on whether and how a request is served.
-/

namespace SnmpAgent
open Rust

/-! ## The configuration -/

/-- What is fixed when the agent is built: the inputs of a new loop with these settings. -/
def DispatchInputs.config (inputs : DispatchInputs) : DispatchInputs :=
  .start inputs.engineId inputs.engineBoots inputs.usmUser inputs.minimumSecurityLevel

def DispatchInputs.atTime (inputs : DispatchInputs) (engineTime : UInt32) : DispatchInputs :=
  { inputs with engineTime }

section
variable {inputs inputs' : DispatchInputs}

@[simp] theorem DispatchInputs.config_update (counter : StatsCounter)
    (f : UsmStatsCounter → UsmStatsCounter) (inputs : DispatchInputs) :
    (counter.update f inputs).config = inputs.config := by
  cases counter <;> rfl

theorem DispatchInputs.engineBoots_of_config (h : inputs.config = inputs'.config) :
    inputs.engineBoots = inputs'.engineBoots :=
  (congrArg DispatchInputs.engineBoots h :)

/-- The decision is one about the configuration and the clock. -/
theorem admission_config {crypto : Crypto} {msg : V3InboundMessage}
    (h : inputs.config = inputs'.config) (htime : inputs.engineTime = inputs'.engineTime) :
    admission crypto inputs msg = admission crypto inputs' msg := by
  have hconfig (i : DispatchInputs) :
      admission crypto i msg = admission crypto (i.config.atTime i.engineTime) msg := rfl
  rw [hconfig inputs, hconfig inputs', h, htime]

end

/-! ## The answer to a frame -/

inductive Answer where
  | silence
  | report (msgId : Int32) (counter : StatsCounter)
  | response (msgId : Int32) (userName : Bytes) (pdu : GetResponse)
  deriving DecidableEq

def answerTo (crypto : Crypto) (inputs : DispatchInputs) (frame : Bytes) (mib : Store) : Answer :=
  match decodeV3Message frame with
  | .ok msg =>
    match admission crypto inputs msg with
    | .ok (pdu, _) => .response msg.msgId msg.userName (handleRequest msg.maxSize mib pdu)
    | .err check =>
      match check.stage.counter? with
      | some counter =>
        if msg.usm.securityFlags.isReportable then .report msg.msgId counter else .silence
      | none => .silence
    | .panic => .silence
  | _ => .silence

def Answer.isResponse : Answer → Bool
  | .response .. => true
  | _ => false

/-- The message that conveys an answer: what is left open is the value of the counter in a report
and the salt of a response. -/
def Answer.Conveyed (crypto : Crypto) (inputs : DispatchInputs) (salt : SaltCounter) :
    Answer → Option Bytes → Prop
  | .silence, out => out = none
  | .report msgId counter, out => ∃ bytes, out = some bytes ∧ ReportsOn inputs msgId counter bytes
  | .response msgId userName pdu, out => ∃ bytes salt', out = some bytes ∧
      (encodeV3Response crypto (responseParams inputs msgId userName []) pdu).run salt =
        .ok (bytes, salt')

/-- The same of an agent with this configuration, at this time. -/
def Answer.ConveyedBy (crypto : Crypto) (config : DispatchInputs) (engineTime : UInt32)
    (answer : Answer) (out : Option Bytes) : Prop :=
  ∃ inputs salt, inputs.config = config ∧ inputs.engineTime = engineTime ∧
    answer.Conveyed crypto inputs salt out

section
variable {crypto : Crypto} {agent agent' : Agent} {frame : Bytes} {mib : Store} {out : Option Bytes}
  {msg : V3InboundMessage}

theorem answerTo_config {inputs inputs' : DispatchInputs} (h : inputs.config = inputs'.config)
    (htime : inputs.engineTime = inputs'.engineTime) :
    answerTo crypto inputs frame mib = answerTo crypto inputs' frame mib := by
  unfold answerTo
  cases decodeV3Message frame with
  | ok msg => simp only [admission_config h htime]
  | err e => rfl
  | panic => rfl

theorem answerTo_of_admission {r : InboundPdu × Bytes} {inputs : DispatchInputs}
    (hmsg : decodeV3Message frame = .ok msg) (hadm : admission crypto inputs msg = .ok r) :
    answerTo crypto inputs frame mib =
      .response msg.msgId msg.userName (handleRequest msg.maxSize mib r.1) := by
  simp only [answerTo, hmsg, hadm]

theorem answerTo_of_stage {inputs : DispatchInputs} {check : Check}
    (hmsg : decodeV3Message frame = .ok msg) (hadm : admission crypto inputs msg = .err check) :
    answerTo crypto inputs frame mib =
      match check.stage.counter? with
      | some counter =>
        if msg.usm.securityFlags.isReportable then .report msg.msgId counter else .silence
      | none => .silence := by
  simp only [answerTo, hmsg, hadm]

/-- The configuration outlasts every frame. -/
theorem config_processSnmpv3Request
    (h : processSnmpv3Request crypto frame mib agent = .ok (out, agent')) :
    agent'.ctx.inputs.config = agent.ctx.inputs.config ∧
      agent'.ctx.inputs.engineTime = agent.ctx.inputs.engineTime := by
  rw [processSnmpv3Request_inputs h]
  cases countedBy crypto agent.ctx.inputs frame with
  | none => exact ⟨rfl, rfl⟩
  | some counter =>
    refine ⟨DispatchInputs.config_update .., ?_⟩
    cases counter <;> rfl

theorem conveyed_rejectedAt {check : Check} (hmsg : decodeV3Message frame = .ok msg)
    (hadm : admission crypto agent.ctx.inputs msg = .err check)
    (h : agent.rejectedAt msg check.stage = .ok (out, agent')) :
    (answerTo crypto agent.ctx.inputs frame mib).Conveyed crypto agent'.ctx.inputs agent.salt
      out := by
  rw [answerTo_of_stage hmsg hadm]
  rcases rejectedAt_inv h with
    ⟨hc, rfl, rfl⟩ | ⟨counter, hc, rfl, ⟨hflag, rfl⟩ | ⟨hflag, hlen, rfl⟩⟩
  · rw [hc]
    rfl
  · simp only [hc, hflag, Bool.false_eq_true, if_false]
    rfl
  · simp only [hc, hflag, if_true]
    exact ⟨_, rfl, reportsOn_reportBytes (msgId_nonneg_of_decode hmsg) hlen⟩

/-- An agent that can send does with every frame what `answerTo` says. -/
theorem conveyed_answerTo (hboots : agent.ctx.inputs.engineBoots < 0x80000000)
    (htime : agent.ctx.inputs.engineTime < 0x80000000)
    (h : processSnmpv3Request crypto frame mib agent = .ok (out, agent')) :
    (answerTo crypto agent.ctx.inputs frame mib).Conveyed crypto agent'.ctx.inputs agent.salt
      out := by
  cases hmsg : decodeV3Message frame with
  | panic => exact absurd hmsg (returns_decodeV3Message frame)
  | err e =>
    rw [processSnmpv3Request_undecodable hmsg] at h
    cases h
    simp only [answerTo, hmsg]
    rfl
  | ok msg =>
    cases hadm : admission crypto agent.ctx.inputs msg with
    | panic => exact absurd hadm (returns_admission _ _ _)
    | err check =>
      have hne := (firstFailing_of_admission_err hmsg hadm).2
      rw [processSnmpv3Request_eq_reject hmsg hadm,
        answerOrReject_reject hne (msgId_nonneg_of_decode hmsg) hboots htime] at h
      exact conveyed_rejectedAt hmsg hadm h
    | ok r =>
      obtain ⟨pdu, contextName⟩ := r
      obtain ⟨env, M⟩ := isInbound_of_decode hmsg
      obtain ⟨rfl, -⟩ := (M.admission_iff hboots htime).mp hadm
      rw [answerTo_of_admission hmsg hadm]
      rcases processSnmpv3Request_of_admission mib hboots htime hmsg hadm with
        ⟨-, hp⟩ | ⟨bytes, -, hreport, hp⟩
      · cases hp.symm.trans h
      · cases hp.symm.trans h
        obtain ⟨msg', pdu', contextName, salt, hmsg', hadm', hrespond, -⟩ :=
          processSnmpv3Request_response.mp ⟨h, hreport⟩
        cases hmsg.symm.trans hmsg'
        cases hadm.symm.trans hadm'
        exact ⟨bytes, salt, rfl, hrespond⟩

end

/-! ## Responses in clear -/

section
variable {crypto : Crypto} {p : V3Params} {salt salt' : SaltCounter} {raw bytes : Bytes}

/-- Without privacy no salt is drawn. -/
theorem encodeV3Envelope_of_public (hp : p.privacy = none)
    (h : (encodeV3Envelope crypto p raw).run salt = .ok (bytes, salt')) (salt₂ : SaltCounter) :
    (encodeV3Envelope crypto p raw).run salt₂ = .ok (bytes, salt₂) := by
  simp only [encodeV3Envelope, hp, protectScopedPdu, Act.bind_eq_ok, Act.lift_eq_ok,
    Act.pure_eq_ok] at h ⊢
  obtain ⟨berBoots, _, ⟨hboots, rfl⟩, berTime, _, ⟨htime, rfl⟩, scopedPduBytes, _, ⟨hscoped, rfl⟩,
    securityFlags, _, ⟨hflags, rfl⟩, protected_, _, ⟨rfl, rfl⟩, encoded, _, ⟨hencode, rfl⟩, hsign,
    rfl⟩ := h
  exact ⟨_, _, ⟨hboots, rfl⟩, _, _, ⟨htime, rfl⟩, _, _, ⟨hscoped, rfl⟩, _, _, ⟨hflags, rfl⟩, _, _,
    ⟨rfl, rfl⟩, _, _, ⟨hencode, rfl⟩, hsign, rfl⟩

theorem encodeV3Response_of_public {pdu : GetResponse} (hp : p.privacy = none)
    (h : (encodeV3Response crypto p pdu).run salt = .ok (bytes, salt')) (salt₂ : SaltCounter) :
    (encodeV3Response crypto p pdu).run salt₂ = .ok (bytes, salt₂) := by
  have hindex := errorIndex_lt_of_encodeV3Response h
  rw [run_encodeV3Response hindex, Res.bind_eq_ok] at h ⊢
  obtain ⟨raw, hraw, h⟩ := h
  exact ⟨raw, hraw, encodeV3Envelope_of_public hp h salt₂⟩

/-- A response in clear is told by the configuration, the time and the answer. -/
theorem Answer.ConveyedBy.unique {config : DispatchInputs} {engineTime : UInt32} {answer : Answer}
    {out out' : Option Bytes} (H : answer.ConveyedBy crypto config engineTime out)
    (H' : answer.ConveyedBy crypto config engineTime out')
    (hpublic : config.usmUser.bind UsmUser.privacy = none) (hresponse : answer.isResponse) :
    out = out' := by
  obtain ⟨inputs, salt, rfl, rfl, H⟩ := H
  obtain ⟨inputs', salt', hconfig, htime, H'⟩ := H'
  cases answer with
  | silence => cases hresponse
  | report msgId counter => cases hresponse
  | response msgId userName pdu =>
    obtain ⟨bytes, salt₁, rfl, hbytes⟩ := H
    obtain ⟨bytes', salt₁', rfl, hbytes'⟩ := H'
    have hparams (i : DispatchInputs) : responseParams i msgId userName [] =
        responseParams (i.config.atTime i.engineTime) msgId userName [] := rfl
    rw [hparams inputs', hconfig, htime, ← hparams] at hbytes'
    cases (encodeV3Response_of_public hpublic hbytes salt').symm.trans hbytes'
    rfl

end

/-! ## Runs -/

namespace EventLoop

section
variable {crypto : Crypto} {agent agent' : Agent}

/-- Every exchange of a sequence is that of one frame, by an agent of the same configuration. -/
theorem exists_process_of_mem {log : List Exchange}
    (h : processFrames crypto (log.map Exchange.arrival) agent =
      .ok (log.map Exchange.response, agent'))
    {exchange : Exchange} (hmem : exchange ∈ log) :
    ∃ before after, before.ctx.inputs.config = agent.ctx.inputs.config ∧
      before.ctx.inputs.engineTime = exchange.arrival.engineTime ∧
      processSnmpv3Request crypto exchange.frame exchange.arrival.mib before =
        .ok (exchange.response, after) := by
  induction log generalizing agent with
  | nil => cases hmem
  | cons first log ih =>
    simp only [List.map_cons, processFrames, Res.bind_eq_ok, Prod.exists, Res.ok.injEq,
      Prod.mk.injEq, List.cons.injEq] at h
    obtain ⟨out, agent₁, hstep, outs, agent₂, hrest, ⟨rfl, rfl⟩, rfl⟩ := h
    rcases List.mem_cons.mp hmem with rfl | hmem
    · exact ⟨agent.atTime exchange.arrival.engineTime, agent₁, rfl, rfl, hstep⟩
    · obtain ⟨before, after, hconfig, htime, hprocess⟩ := ih hrest hmem
      exact ⟨before, after, hconfig.trans (config_processSnmpv3Request hstep).1, htime, hprocess⟩

end

theorem Served.conveyed {crypto : Crypto} {agent : Agent} {o : Recorded} (H : Served crypto agent o)
    (hboots : agent.ctx.inputs.engineBoots < 0x80000000) {exchange : Exchange}
    (hmem : exchange ∈ o.log) (htime : exchange.arrival.engineTime < 0x80000000) :
    (answerTo crypto (agent.ctx.inputs.config.atTime exchange.arrival.engineTime) exchange.frame
      exchange.arrival.mib).ConveyedBy crypto agent.ctx.inputs.config exchange.arrival.engineTime
      exchange.response := by
  obtain ⟨before, after, hconfig, hnow, hprocess⟩ := exists_process_of_mem H.processed hmem
  have hboots' : before.ctx.inputs.engineBoots < 0x80000000 := by
    rw [DispatchInputs.engineBoots_of_config hconfig]
    exact hboots
  have hconveyed := conveyed_answerTo hboots' (hnow ▸ htime) hprocess
  have hafter := config_processSnmpv3Request hprocess
  refine ⟨after.ctx.inputs, before.salt, hafter.1.trans hconfig, hafter.2.trans hnow, ?_⟩
  have hsame : answerTo crypto before.ctx.inputs exchange.frame exchange.arrival.mib =
      answerTo crypto (agent.ctx.inputs.config.atTime exchange.arrival.engineTime) exchange.frame
        exchange.arrival.mib := answerTo_config hconfig hnow
  rw [← hsame]
  exact hconveyed

/-- **Answers without memory.** Two agents of the same configuration have met different frames on
different connections. A frame that comes to both at the same engine time and with the same store
gets the same answer from both: what went before decides about the values of the counters and about
the salt only. A response that is not encrypted is the same to the byte. -/
theorem answers_without_memory (crypto : Crypto) {agent agent' : Agent}
    (hconfig : agent.ctx.inputs.config = agent'.ctx.inputs.config)
    (hboots : agent.ctx.inputs.engineBoots < 0x80000000) {max max' : Nat}
    {timeoutConfig timeoutConfig' : ConnectionTimeoutConfig} {polls polls' : List Poll}
    {o o' : Recorded} (ho : recordedRun crypto polls (new agent max timeoutConfig) = .ok o)
    (ho' : recordedRun crypto polls' (new agent' max' timeoutConfig') = .ok o')
    {exchange exchange' : Exchange} (hmem : exchange ∈ o.log) (hmem' : exchange' ∈ o'.log)
    (hsame : exchange'.arrival = exchange.arrival)
    (htime : exchange.arrival.engineTime < 0x80000000) :
    let config := agent.ctx.inputs.config
    let engineTime := exchange.arrival.engineTime
    let answer := answerTo crypto (config.atTime engineTime) exchange.frame exchange.arrival.mib
    answer.ConveyedBy crypto config engineTime exchange.response ∧
      answer.ConveyedBy crypto config engineTime exchange'.response ∧
      (config.usmUser.bind UsmUser.privacy = none → answer.isResponse →
        exchange.response = exchange'.response) := by
  intro config engineTime answer
  have hboots' : agent'.ctx.inputs.engineBoots < 0x80000000 := by
    rw [← DispatchInputs.engineBoots_of_config hconfig]
    exact hboots
  have H : answer.ConveyedBy crypto config engineTime exchange.response :=
    (served_recordedRun crypto agent max timeoutConfig polls ho).conveyed hboots hmem htime
  have H' := (served_recordedRun crypto agent' max' timeoutConfig' polls' ho').conveyed hboots'
    hmem' (hsame.symm ▸ htime)
  rw [Exchange.frame, hsame, ← hconfig] at H'
  exact ⟨H, H', fun hpublic hresponse => H.unique H' hpublic hresponse⟩

deriving instance DecidableEq for Arrival

/-- A manager alone with an agent that has counted a frame before. -/
def oneManager : List Poll :=
  [⟨[.listener [.stream true 0]], 0⟩, ⟨[.connection 2 1000 [.ok Sample.signedFrame 1] []], 1⟩]

/-- The signed request is answered in the same way behind one without a signature and alone. -/
theorem answers_without_memory_sample :
    let agent := Sample.agent (some Sample.authUser) .authNoPriv
    ∃ o o', recordedRun Sample.crypto twoManagers (new agent 2 {}) = .ok o ∧
      recordedRun Sample.crypto oneManager (new (agent.count .wrongDigests) 2 {}) = .ok o' ∧
      ∃ exchange ∈ o.log, ∃ exchange' ∈ o'.log, exchange.frame = Sample.signedFrame ∧
        exchange.response = exchange'.response ∧ exchange.response.isSome := by
  intro agent
  let arrival : Arrival := ⟨Sample.signedFrame, .new, 1000⟩
  have hlog : (fun o => o.log.map fun exchange => (exchange.arrival, exchange.response.isSome)) <$>
      recordedRun Sample.crypto twoManagers (new agent 2 {}) =
      .ok [(⟨Sample.plainFrame, .new, 1000⟩, true), (arrival, true)] := by
    decide +kernel
  have hlog' : (fun o => o.log.map Exchange.arrival) <$>
      recordedRun Sample.crypto oneManager (new (agent.count .wrongDigests) 2 {}) =
      .ok [arrival] := by
    decide +kernel
  obtain ⟨o, ho, hlog⟩ := Res.map_eq_ok.mp hlog
  obtain ⟨o', ho', hlog'⟩ := Res.map_eq_ok.mp hlog'
  obtain ⟨exchange, hmem, heq⟩ : ∃ exchange ∈ o.log,
      (exchange.arrival, exchange.response.isSome) = (arrival, true) := by
    rw [← List.mem_map, hlog]
    exact List.mem_cons_of_mem _ List.mem_cons_self
  obtain ⟨exchange', hmem', heq'⟩ : ∃ exchange' ∈ o'.log, exchange'.arrival = arrival := by
    rw [← List.mem_map, hlog']
    exact List.mem_cons_self
  simp only [Prod.mk.injEq] at heq
  have hconfig : agent.ctx.inputs.config = (agent.count .wrongDigests).ctx.inputs.config := rfl
  obtain ⟨-, -, H⟩ := answers_without_memory Sample.crypto hconfig (by decide) ho ho' hmem hmem'
    (heq'.trans heq.1.symm) (by rw [heq.1]; decide)
  refine ⟨o, o', ho, ho', exchange, hmem, exchange', hmem', congrArg Arrival.frame heq.1, ?_, heq.2⟩
  refine H rfl ?_
  rw [Exchange.frame, heq.1]
  decide +kernel

end EventLoop

end SnmpAgent
