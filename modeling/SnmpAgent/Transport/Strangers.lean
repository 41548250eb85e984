import SnmpAgent.Transport.Service

/-!
# What strangers learn of the store

Two runs of an agent meet the same frames at the same times, and differ in what the application puts
into the store, and when. They go side by side: the connections, the counters and the salts stay
the same (`RunsAlike`), and the answers differ only where a frame was authentic. So someone without
the key of the user sees nothing of the store, neither in an answer nor in a counter that a report
shows nor in whether a connection is closed.
-/

namespace SnmpAgent
open Rust

/-! ## One frame -/

section
variable {crypto : Crypto} {inputs : DispatchInputs} {frame : Bytes} {env : V3MessageEnvelope}
  {pdu : InboundPdu}

/-- The counters do not decide about authenticity. -/
theorem Authentic.config (A : Authentic crypto inputs frame env pdu) :
    Authentic crypto (inputs.config.atTime inputs.engineTime) frame env pdu :=
  ⟨A.decodes, A.usm, A.level, A.privFlag, A.userName, A.digest, A.timely, A.context,
    A.engine_ne_nil, A.engine_of_encrypted⟩

/-- A frame that is answered over one store and over another. -/
theorem processSnmpv3Request_alike {agent agent₁ agent₂ : Agent} {mib mib' : Store}
    {out out' : Option Bytes} (hboots : agent.ctx.inputs.engineBoots < 0x80000000)
    (htime : agent.ctx.inputs.engineTime < 0x80000000)
    (h : processSnmpv3Request crypto frame mib agent = .ok (out, agent₁))
    (h' : processSnmpv3Request crypto frame mib' agent = .ok (out', agent₂)) :
    agent₁ = agent₂ ∧ out'.isSome = out.isSome ∧
      ((∃ env pdu, Authentic crypto agent.ctx.inputs frame env pdu) ∨ out' = out) := by
  cases hmsg : decodeV3Message frame with
  | panic => exact absurd hmsg (returns_decodeV3Message frame)
  | err e =>
    rw [processSnmpv3Request_undecodable hmsg] at h h'
    cases h
    cases h'
    exact ⟨rfl, rfl, .inr rfl⟩
  | ok msg =>
    cases hadm : admission crypto agent.ctx.inputs msg with
    | panic => exact absurd hadm (returns_admission _ _ _)
    | err check =>
      rw [processSnmpv3Request_eq_reject hmsg hadm] at h h'
      cases h.symm.trans h'
      exact ⟨rfl, rfl, .inr rfl⟩
    | ok r =>
      obtain ⟨env, M⟩ := isInbound_of_decode hmsg
      have A := (M.admission_iff hboots htime).mp hadm
      rcases processSnmpv3Request_of_admission mib hboots htime hmsg hadm with
        ⟨-, hx⟩ | ⟨bytes, -, -, hx⟩
      · cases h.symm.trans hx
      rcases processSnmpv3Request_of_admission mib' hboots htime hmsg hadm with
        ⟨-, hx'⟩ | ⟨bytes', -, -, hx'⟩
      · cases h'.symm.trans hx'
      cases h.symm.trans hx
      cases h'.symm.trans hx'
      exact ⟨rfl, rfl, .inl ⟨env, r.1, A.2⟩⟩

end

namespace EventLoop

/-! ## The loop over another store -/

def withStore (s : EventLoop) (store : Store) : EventLoop := { s with store }

section
variable (s : EventLoop) (store : Store)

theorem nextConnectionToken_withStore (fuel : Nat) :
    (s.withStore store).nextConnectionToken fuel =
      (fun r => (r.1, r.2.withStore store)) <$> s.nextConnectionToken fuel := by
  induction fuel generalizing s with
  | zero => rfl
  | succ fuel ih =>
    rw [nextConnectionToken, nextConnectionToken]
    dsimp only
    by_cases hfree : firstConnToken ≤ s.nextToken ∧ s.connections.get? s.nextToken = none
    · rw [if_pos hfree]
      exact if_pos hfree
    · rw [if_neg hfree, ← ih]
      exact if_neg hfree

theorem registerAndInsertConnection_withStore (registers : Bool) (now : Nat) :
    (s.withStore store).registerAndInsertConnection registers now =
      (withStore · store) <$> s.registerAndInsertConnection registers now := by
  rw [registerAndInsertConnection, registerAndInsertConnection]
  change ((s.withStore store).nextConnectionToken (s.connections.entries.length + 2) >>= _) = _
  rw [nextConnectionToken_withStore]
  cases s.nextConnectionToken (s.connections.entries.length + 2) with
  | ok r => cases registers <;> rfl
  | err e => rfl
  | panic => rfl

theorem acceptConnections_withStore (accepts : List AcceptResult) :
    (s.withStore store).acceptConnections accepts =
      (withStore · store) <$> s.acceptConnections accepts := by
  induction accepts generalizing s with
  | nil => rfl
  | cons result accepts ih =>
    unfold acceptConnections
    by_cases hfull : s.connections.entries.length ≥ s.maxConnections
    · rw [if_pos hfull]
      exact if_pos hfull
    · rw [if_neg hfull]
      refine (if_neg hfull).trans ?_
      cases result with
      | error => rfl
      | stream registers now =>
        dsimp only
        rw [registerAndInsertConnection_withStore]
        cases s.registerAndInsertConnection registers now with
        | ok s₁ => exact ih s₁
        | err e => rfl
        | panic => rfl

theorem drainConnectionReadBuffer_withStore (token : Nat) (reads : List ReadResult) :
    (s.withStore store).drainConnectionReadBuffer token reads =
      ((s.drainConnectionReadBuffer token reads).1.withStore store,
        (s.drainConnectionReadBuffer token reads).2) := by
  have hconnections : (s.withStore store).connections = s.connections := rfl
  rw [drainConnectionReadBuffer, drainConnectionReadBuffer, hconnections]
  cases s.connections.get? token with
  | none => rfl
  | some conn => rfl

end

/-! ## Runs side by side -/

/-- Two exchanges that differ only if the frame is authentic. -/
structure Alike (crypto : Crypto) (config : DispatchInputs) (exchange exchange' : Exchange) :
    Prop where
  token : exchange'.token = exchange.token
  frame : exchange'.frame = exchange.frame
  engineTime : exchange'.arrival.engineTime = exchange.arrival.engineTime
  answered : exchange'.response.isSome = exchange.response.isSome
  response : (∃ env pdu, Authentic crypto (config.atTime exchange.arrival.engineTime)
    exchange.frame env pdu) ∨ exchange'.response = exchange.response

/-- The same steps, among which the application may set any objects at any time. -/
inductive StepsAlike : List Step → List Step → Prop
  | nil : StepsAlike [] []
  | same {steps steps' : List Step} (step : Step) (h : StepsAlike steps steps') :
    StepsAlike (step :: steps) (step :: steps')
  | left {steps steps' : List Step} (channel : List Command) (disconnected : Bool)
    (h : StepsAlike steps steps') :
    StepsAlike (.event (.waker channel disconnected) :: steps) steps'
  | right {steps steps' : List Step} (channel : List Command) (disconnected : Bool)
    (h : StepsAlike steps steps') :
    StepsAlike steps (.event (.waker channel disconnected) :: steps')

theorem StepsAlike.refl (steps : List Step) : StepsAlike steps steps := by
  induction steps with
  | nil => exact .nil
  | cons step steps ih => exact .same step ih

/-- The engine time that a step goes by fits into a message. -/
def Step.Timely : Step → Prop
  | .event (.connection _ engineTime _ _) => engineTime < 0x80000000
  | _ => True

instance : DecidablePred Step.Timely
  | .event (.connection _ engineTime _ _) => inferInstanceAs (Decidable (engineTime < 0x80000000))
  | .event (.listener _) | .event (.waker _ _) | .sweep _ => .isTrue trivial

structure RunsAlike (crypto : Crypto) (config : DispatchInputs) (o o' : Recorded) : Prop where
  loop : o'.loop = o.loop.withStore o'.loop.store
  config_eq : o.loop.agent.ctx.inputs.config = config
  log : List.Forall₂ (Alike crypto config) o.log o'.log

section
variable {crypto : Crypto} {config : DispatchInputs}

/-- The frame in front of a buffer, and the connection without it. If there is none, the flag says
whether to close the connection. -/
def frontFrame (s : EventLoop) (token : Nat) : Except Bool (Bytes × ConnectionState) :=
  match s.connections.get? token with
  | none => .error false
  | some conn =>
    match nextCompleteFrame conn.readBuf with
    | .incomplete => .error false
    | .close _ => .error true
    | .complete berFrame readBuf => .ok (berFrame, { conn with readBuf })

section
variable {token : Nat} {engineTime : UInt32} {fuel : Nat} {writes : List Bool} {s s' : EventLoop}
  {closed : Bool} {transcript : Transcript}

theorem dispatchRecorded_of_error (hfront : s.frontFrame token = .error closed) :
    dispatchRecorded crypto token engineTime (fuel + 1) writes s = .ok (closed, s, ⟨[], []⟩) := by
  rw [dispatchRecorded]
  unfold frontFrame at hfront
  cases hconn : s.connections.get? token with
  | none =>
    rw [hconn] at hfront
    cases hfront
    rfl
  | some conn =>
    rw [hconn] at hfront
    dsimp only at hfront ⊢
    cases hframe : nextCompleteFrame conn.readBuf with
    | incomplete =>
      rw [hframe] at hfront
      cases hfront
      rfl
    | close reason =>
      rw [hframe] at hfront
      cases hfront
      rfl
    | complete berFrame readBuf =>
      rw [hframe] at hfront
      cases hfront

/-- One round of the dispatch. Which way it goes on is told by whether there is a response. -/
theorem dispatchRecorded_of_ok {berFrame : Bytes} {conn : ConnectionState}
    (hfront : s.frontFrame token = .ok (berFrame, conn))
    (h : dispatchRecorded crypto token engineTime (fuel + 1) writes s =
      .ok (closed, s', transcript)) :
    ∃ response agent, processSnmpv3Request crypto berFrame s.store (s.agent.atTime engineTime) =
        .ok (response, agent) ∧
      let exchange : Exchange := ⟨token, ⟨berFrame, s.store, engineTime⟩, response⟩
      let after := { s with connections := s.connections.insert token conn, agent }
      if response.isSome ∧ writes.head? = some false then
        closed = true ∧ s' = after ∧ transcript.exchanges = [exchange]
      else
        ∃ rest, dispatchRecorded crypto token engineTime fuel
            (if response.isSome then writes.tail else writes) after = .ok (closed, s', rest) ∧
          transcript.exchanges = exchange :: rest.exchanges := by
  unfold frontFrame at hfront
  split at hfront
  · cases hfront
  rename_i conn₀ hconn
  split at hfront
  · cases hfront
  · cases hfront
  rename_i hframe
  cases hfront
  rw [dispatchRecorded, hconn] at h
  simp only [hframe] at h
  obtain ⟨⟨response, agent⟩, hprocess, h⟩ := Res.bind_eq_ok.mp h
  refine ⟨response, agent, Res.mapErr_eq_ok.mp hprocess, ?_⟩
  dsimp only at h ⊢
  split at h
  · obtain ⟨⟨_, _, rest⟩, hrest, h⟩ := Res.bind_eq_ok.mp h
    cases h
    exact ⟨rest, hrest, rfl⟩
  · cases h
    exact ⟨rfl, rfl, rfl⟩
  · rename_i bytes hwrites
    obtain ⟨⟨_, _, rest⟩, hrest, h⟩ := Res.bind_eq_ok.mp h
    cases h
    rw [if_neg]
    · exact ⟨rest, hrest, rfl⟩
    · rintro ⟨-, hhead⟩
      obtain ⟨tail, rfl⟩ := List.head?_eq_some_iff.mp hhead
      exact hwrites tail rfl

end

theorem dispatchRecorded_alike {token : Nat} {engineTime : UInt32} {fuel fuel' : Nat}
    {writes : List Bool} {s s₁ s₂ : EventLoop} {store : Store} {closed closed' : Bool}
    {transcript transcript' : Transcript} (hboots : config.engineBoots < 0x80000000)
    (htime : engineTime < 0x80000000) (hconfig : s.agent.ctx.inputs.config = config)
    (h : dispatchRecorded crypto token engineTime fuel writes s = .ok (closed, s₁, transcript))
    (h' : dispatchRecorded crypto token engineTime fuel' writes (s.withStore store) =
      .ok (closed', s₂, transcript')) :
    closed' = closed ∧ s₂ = s₁.withStore store ∧ s₁.agent.ctx.inputs.config = config ∧
      List.Forall₂ (Alike crypto config) transcript.exchanges transcript'.exchanges := by
  induction fuel generalizing fuel' writes s transcript transcript' with
  | zero => cases h
  | succ fuel ih =>
    cases fuel' with
    | zero => cases h'
    | succ fuel' =>
      cases hframe : s.frontFrame token with
      | error close =>
        have hframe' : (s.withStore store).frontFrame token = .error close := hframe
        rw [dispatchRecorded_of_error hframe] at h
        rw [dispatchRecorded_of_error hframe'] at h'
        cases h
        cases h'
        exact ⟨rfl, rfl, hconfig, .nil⟩
      | ok r =>
        have hframe' : (s.withStore store).frontFrame token = .ok r := hframe
        obtain ⟨response, agent, hprocess, h⟩ := dispatchRecorded_of_ok hframe h
        obtain ⟨response', agent', hprocess', h'⟩ := dispatchRecorded_of_ok hframe' h'
        have hbefore : (s.agent.atTime engineTime).ctx.inputs.config = config := hconfig
        have hboots' : (s.agent.atTime engineTime).ctx.inputs.engineBoots < 0x80000000 :=
          lt_of_eq_of_lt (congrArg DispatchInputs.engineBoots hbefore :) hboots
        obtain ⟨rfl, hsome, hanswer⟩ :=
          processSnmpv3Request_alike hboots' htime hprocess hprocess'
        have hafter := (config_processSnmpv3Request hprocess).1.trans hbefore
        have hone : Alike crypto config ⟨token, ⟨r.1, s.store, engineTime⟩, response⟩
            ⟨token, ⟨r.1, store, engineTime⟩, response'⟩ := by
          refine ⟨rfl, rfl, rfl, hsome, hanswer.imp_left fun ⟨env, pdu, A⟩ => ⟨env, pdu, ?_⟩⟩
          exact hbefore ▸ A.config
        rw [hsome] at h'
        by_cases hstop : response.isSome ∧ writes.head? = some false
        · rw [if_pos hstop] at h h'
          obtain ⟨rfl, rfl, hlog⟩ := h
          obtain ⟨rfl, rfl, hlog'⟩ := h'
          rw [hlog, hlog']
          exact ⟨rfl, rfl, hafter, .cons hone .nil⟩
        · rw [if_neg hstop] at h h'
          obtain ⟨rest, hrest, hlog⟩ := h
          obtain ⟨rest', hrest', hlog'⟩ := h'
          obtain ⟨hclosed, hs, hconfig₁, halike⟩ := ih hafter hrest hrest'
          rw [hlog, hlog']
          exact ⟨hclosed, hs, hconfig₁, .cons hone halike⟩

variable {o o' o₁ o₁' : Recorded}

/-- A waker event changes the store and nothing else. -/
theorem loop_waker {channel : List Command} {disconnected : Bool}
    (h : recordStep crypto o (.event (.waker channel disconnected)) = .ok o₁) :
    o₁.loop = o.loop.withStore o₁.loop.store ∧ o₁.log = o.log := by
  obtain ⟨loop, hloop, h⟩ := Res.bind_eq_ok.mp h
  cases h
  simp only [handleStep, handleEvent] at hloop
  split at hloop
  · cases hloop
  · cases hloop
    exact ⟨rfl, rfl⟩

theorem RunsAlike.left (H : RunsAlike crypto config o o') {channel : List Command}
    {disconnected : Bool}
    (h : recordStep crypto o (.event (.waker channel disconnected)) = .ok o₁) :
    RunsAlike crypto config o₁ o' := by
  obtain ⟨hloop, hlog⟩ := loop_waker h
  refine ⟨?_, ?_, hlog ▸ H.log⟩
  · rw [hloop]
    exact H.loop
  · rw [hloop]
    exact H.config_eq

theorem RunsAlike.right (H : RunsAlike crypto config o o') {channel : List Command}
    {disconnected : Bool}
    (h : recordStep crypto o' (.event (.waker channel disconnected)) = .ok o₁') :
    RunsAlike crypto config o o₁' := by
  obtain ⟨hloop, hlog⟩ := loop_waker h
  refine ⟨?_, H.config_eq, hlog ▸ H.log⟩
  rw [hloop, H.loop]
  rfl

theorem RunsAlike.connection (H : RunsAlike crypto config o o')
    (hboots : config.engineBoots < 0x80000000) {token : Nat} {engineTime : UInt32}
    {reads : List ReadResult} {writes : List Bool} (htime : engineTime < 0x80000000)
    (h : recordStep crypto o (.event (.connection token engineTime reads writes)) = .ok o₁)
    (h' : recordStep crypto o' (.event (.connection token engineTime reads writes)) = .ok o₁') :
    RunsAlike crypto config o₁ o₁' := by
  obtain ⟨fuel, closed, s, transcript, hdispatch, rfl⟩ := recordStep_connection h
  obtain ⟨fuel', closed', s', transcript', hdispatch', rfl⟩ := recordStep_connection h'
  have hdrain := drainConnectionReadBuffer_withStore o.loop o'.loop.store token reads
  rw [← H.loop] at hdrain
  rw [hdrain] at hdispatch'
  have hconfig : (o.loop.drainConnectionReadBuffer token reads).1.agent.ctx.inputs.config =
      config := by
    rw [agent_drainConnectionReadBuffer]
    exact H.config_eq
  obtain ⟨rfl, rfl, hconfig₁, hlog⟩ :=
    dispatchRecorded_alike hboots htime hconfig hdispatch hdispatch'
  refine ⟨?_, ?_, List.rel_append H.log hlog⟩
  · rw [hdrain]
    dsimp only
    cases (o.loop.drainConnectionReadBuffer token reads).2 || closed' <;> rfl
  · dsimp only
    split
    · exact hconfig₁
    · exact hconfig₁

theorem RunsAlike.step (H : RunsAlike crypto config o o')
    (hboots : config.engineBoots < 0x80000000) {step : Step} (htimely : step.Timely)
    (h : recordStep crypto o step = .ok o₁) (h' : recordStep crypto o' step = .ok o₁') :
    RunsAlike crypto config o₁ o₁' := by
  rcases step with (accepts | ⟨channel, disconnected⟩ | ⟨token, engineTime, reads, writes⟩) | now
  · obtain ⟨loop, hloop, h⟩ := Res.bind_eq_ok.mp h
    obtain ⟨loop', hloop', h'⟩ := Res.bind_eq_ok.mp h'
    cases h
    cases h'
    rw [H.loop, acceptConnections_withStore, hloop] at hloop'
    cases hloop'
    refine ⟨rfl, ?_, H.log⟩
    rw [← H.config_eq]
    exact congrArg (fun agent : Agent => agent.ctx.inputs.config) (agent_acceptConnections hloop)
  · exact (H.left h).right h'
  · exact H.connection hboots htimely h h'
  · cases h
    cases h'
    refine ⟨?_, H.config_eq, H.log⟩
    change o'.loop.sweepIdleConnections now = _
    rw [H.loop]
    rfl

theorem RunsAlike.run (hboots : config.engineBoots < 0x80000000) {steps steps' : List Step}
    (hsteps : StepsAlike steps steps') (htimely : ∀ step ∈ steps, step.Timely)
    (H : RunsAlike crypto config o o') (h : steps.foldlM (recordStep crypto) o = .ok o₁)
    (h' : steps'.foldlM (recordStep crypto) o' = .ok o₁') : RunsAlike crypto config o₁ o₁' := by
  induction hsteps generalizing o o' with
  | nil =>
    cases h
    cases h'
    exact H
  | same step _ ih =>
    rw [List.foldlM_cons] at h h'
    obtain ⟨o₂, hstep, h⟩ := Res.bind_eq_ok.mp h
    obtain ⟨o₂', hstep', h'⟩ := Res.bind_eq_ok.mp h'
    obtain ⟨hfirst, hrest⟩ := List.forall_mem_cons.mp htimely
    exact ih hrest (H.step hboots hfirst hstep hstep') h h'
  | left channel disconnected _ ih =>
    rw [List.foldlM_cons] at h
    obtain ⟨o₂, hstep, h⟩ := Res.bind_eq_ok.mp h
    exact ih (List.forall_mem_cons.mp htimely).2 (H.left hstep) h h'
  | right channel disconnected _ ih =>
    rw [List.foldlM_cons] at h'
    obtain ⟨o₂', hstep', h'⟩ := Res.bind_eq_ok.mp h'
    exact ih htimely (H.right hstep') h h'

end

/-- **Strangers.** Two runs of an agent differ in what the application sets, and when. Then the same
connections are open in the end, the counters and the salts have come to the same values, and each
frame was answered in the same way, to the byte, unless it was authentic: from the user that the
agent is for, with a right MAC, in time and at the required level. -/
theorem store_hidden_from_strangers (crypto : Crypto) (agent : Agent)
    (hboots : agent.ctx.inputs.engineBoots < 0x80000000) (max : Nat)
    (timeoutConfig : ConnectionTimeoutConfig) {polls polls' : List Poll}
    (hsteps : StepsAlike (polls.flatMap Poll.steps) (polls'.flatMap Poll.steps))
    (htimely : ∀ step ∈ polls.flatMap Poll.steps, step.Timely) {o o' : Recorded}
    (ho : recordedRun crypto polls (new agent max timeoutConfig) = .ok o)
    (ho' : recordedRun crypto polls' (new agent max timeoutConfig) = .ok o') :
    o'.loop.connections = o.loop.connections ∧ o'.loop.agent = o.loop.agent ∧
      List.Forall₂ (Alike crypto agent.ctx.inputs.config) o.log o'.log := by
  have hstart : RunsAlike crypto agent.ctx.inputs.config
      (.start (new agent max timeoutConfig)) (.start (new agent max timeoutConfig)) :=
    ⟨rfl, rfl, .nil⟩
  have hboots' : agent.ctx.inputs.config.engineBoots < 0x80000000 := hboots
  have H := hstart.run hboots' hsteps htimely ho ho'
  refine ⟨?_, ?_, H.log⟩
  · rw [H.loop]
    rfl
  · rw [H.loop]
    rfl

/-- The two managers, after the application has set an object. -/
def twoManagersAndSet : List Poll :=
  ⟨[.waker [.setValue Sample.sysDescr (.integer32 1)] false,
    .listener [.stream true 0, .stream true 0]], 0⟩ :: twoManagers.tail

theorem store_hidden_from_strangers_sample :
    let agent := Sample.agent (some Sample.authUser) .authNoPriv
    ∃ o o', recordedRun Sample.crypto twoManagers (new agent 2 {}) = .ok o ∧
      recordedRun Sample.crypto twoManagersAndSet (new agent 2 {}) = .ok o' ∧
      o.loop.store.get Sample.sysDescr = none ∧
      o'.loop.store.get Sample.sysDescr = some (.integer32 1) ∧
      o.log.map Exchange.frame = [Sample.plainFrame, Sample.signedFrame] ∧
      List.Forall₂ (Alike Sample.crypto agent.ctx.inputs.config) o.log o'.log := by
  intro agent
  have hrun : (fun o => (o.loop.store.get Sample.sysDescr, o.log.map Exchange.frame)) <$>
      recordedRun Sample.crypto twoManagers (new agent 2 {}) =
      .ok (none, [Sample.plainFrame, Sample.signedFrame]) := by
    decide +kernel
  have hrun' : (fun o => o.loop.store.get Sample.sysDescr) <$>
      recordedRun Sample.crypto twoManagersAndSet (new agent 2 {}) = .ok (some (.integer32 1)) := by
    decide +kernel
  obtain ⟨o, ho, heq⟩ := Res.map_eq_ok.mp hrun
  obtain ⟨o', ho', hget'⟩ := Res.map_eq_ok.mp hrun'
  obtain ⟨hget, hframes⟩ := Prod.mk.inj heq
  have htimely : ∀ step ∈ twoManagers.flatMap Poll.steps, step.Timely := by decide
  have H := store_hidden_from_strangers Sample.crypto agent (by decide) 2 {}
    (.right _ _ (.refl _)) htimely ho ho'
  exact ⟨o, o', ho, ho', hget, hget', hframes, H.2.2⟩

end EventLoop

end SnmpAgent
