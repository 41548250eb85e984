import Mathlib.Logic.Function.Basic
import SnmpAgent.Transport.Steps

/-!
# What each connection sees

The loop serves many connections in turn and keeps of each only the bytes that it has not
dispatched. Here a record beside it tells what came in on each connection, which frames were
dispatched in which order, and which responses were written. The loop does not read the record
(`loop_foldlM_recordStep`), so what holds of it holds of every run: on each connection the frames
are those of its own stream, one after the other, and the responses to them are written in that
order; and all connections together are served as one sequence of frames.
-/

namespace SnmpAgent
open Rust

/-- A frame that was dispatched for a connection, and the response to it if there is one. -/
structure Exchange where
  token : Nat
  arrival : Arrival
  response : Option Bytes

def Exchange.frame (exchange : Exchange) : Bytes := exchange.arrival.frame

namespace EventLoop

/-! ## The record -/

/-- What the dispatch of a buffer did. -/
structure Transcript where
  exchanges : List Exchange
  /-- The responses that could be written. -/
  written : List Bytes

def Transcript.cons (exchange : Exchange) (written : List Bytes) (transcript : Transcript) :
    Transcript :=
  ⟨exchange :: transcript.exchanges, written ++ transcript.written⟩

/-- `dispatchBufferedFrames`, with a record of what it does. -/
def dispatchRecorded (crypto : Crypto) (token : Nat) (engineTime : UInt32) :
    (fuel : Nat) → (writes : List Bool) → EventLoop → Res Halt (Bool × EventLoop × Transcript)
  | 0, _, _ => .err .diverges
  | fuel + 1, writes, s =>
    match s.connections.get? token with
    | none => .ok (false, s, ⟨[], []⟩)
    | some conn =>
      match nextCompleteFrame conn.readBuf with
      | .incomplete => .ok (false, s, ⟨[], []⟩)
      | .close _ => .ok (true, s, ⟨[], []⟩)
      | .complete berFrame readBuf => do
        let connections := s.connections.insert token { conn with readBuf }
        let (response, agent) ←
          (processSnmpv3Request crypto berFrame s.store (s.agent.atTime engineTime)).mapErr nofun
        let exchange := ⟨token, ⟨berFrame, s.store, engineTime⟩, response⟩
        let s := { s with connections, agent }
        match response, writes with
        | none, _ => do
          let (closed, s, transcript) ← dispatchRecorded crypto token engineTime fuel writes s
          .ok (closed, s, transcript.cons exchange [])
        | some _, false :: _ => .ok (true, s, ⟨[exchange], []⟩)
        | some bytes, _ => do
          let (closed, s, transcript) ← dispatchRecorded crypto token engineTime fuel writes.tail s
          .ok (closed, s, transcript.cons exchange [bytes])

/-- The loop and what has happened. For the connection behind each token it tells what was received
and written since it was accepted, and how long the log was then. -/
structure Recorded where
  loop : EventLoop
  log : List Exchange
  received : Nat → Bytes
  written : Nat → List Bytes
  since : Nat → Nat

namespace Recorded

def start (loop : EventLoop) : Recorded := ⟨loop, [], fun _ => [], fun _ => [], fun _ => 0⟩

/-- The frames of a connection since it was accepted. -/
def exchanges (o : Recorded) (token : Nat) : List Exchange :=
  (o.log.drop (o.since token)).filter fun exchange => exchange.token = token

def frames (o : Recorded) (token : Nat) : List Bytes := (o.exchanges token).map Exchange.frame

def responses (o : Recorded) (token : Nat) : List Bytes :=
  (o.exchanges token).filterMap Exchange.response

end Recorded

/-- Whether an accept has put a connection behind this token. -/
def accepted (s s' : EventLoop) (token : Nat) : Bool :=
  (s.connections.get? token).isNone && (s'.connections.get? token).isSome

def recordStep (crypto : Crypto) (o : Recorded) : Step → Res Halt Recorded
  | .event (.connection token engineTime reads writes) => do
    let (loop, closedDuringDrain) := o.loop.drainConnectionReadBuffer token reads
    let buffered := ((loop.connections.get? token).elim 0 (·.readBuf.length))
    let (closedDuringDispatch, loop, transcript) ←
      dispatchRecorded crypto token engineTime (buffered + 1) writes loop
    let received := (o.loop.connections.get? token).elim [] fun _ => (chunks reads).flatten
    .ok {
      loop := if closedDuringDrain || closedDuringDispatch then
        loop.closeAndDeregisterConnection token else loop
      log := o.log ++ transcript.exchanges
      received := Function.update o.received token (o.received token ++ received)
      written := Function.update o.written token (o.written token ++ transcript.written)
      since := o.since }
  | .event (.listener accepts) => do
    let loop ← o.loop.acceptConnections accepts
    .ok { o with
      loop
      received := fun token => if accepted o.loop loop token then [] else o.received token
      written := fun token => if accepted o.loop loop token then [] else o.written token
      since := fun token => if accepted o.loop loop token then o.log.length else o.since token }
  | step => do
    let loop ← o.loop.handleStep crypto step
    .ok { o with loop }

/-! ## The loop without its record -/

theorem dispatchBufferedFrames_eq_recorded (crypto : Crypto) (token : Nat) (engineTime : UInt32)
    (fuel : Nat) (writes : List Bool) (s : EventLoop) :
    dispatchBufferedFrames crypto token engineTime fuel writes s =
      (fun r => (r.1, r.2.1)) <$> dispatchRecorded crypto token engineTime fuel writes s := by
  induction fuel generalizing writes s with
  | zero => rfl
  | succ fuel ih =>
    rw [dispatchBufferedFrames, dispatchRecorded]
    cases s.connections.get? token with
    | none => rfl
    | some conn =>
      dsimp only
      cases nextCompleteFrame conn.readBuf with
      | incomplete => rfl
      | close reason => rfl
      | complete berFrame readBuf =>
        dsimp only
        cases (processSnmpv3Request crypto berFrame s.store
            (s.agent.atTime engineTime)).mapErr nofun with
        | err e => rfl
        | panic => rfl
        | ok r =>
          have hrest (writes : List Bool) (s₁ : EventLoop) (exchange : Exchange)
              (written : List Bytes) :
              dispatchBufferedFrames crypto token engineTime fuel writes s₁ =
                (fun r => (r.1, r.2.1)) <$> (do
                  let (closed, s₁, transcript) ←
                    dispatchRecorded crypto token engineTime fuel writes s₁
                  .ok (closed, s₁, transcript.cons exchange written) :
                    Res Halt (Bool × EventLoop × Transcript)) := by
            rw [ih]
            cases dispatchRecorded crypto token engineTime fuel writes s₁ <;> rfl
          obtain ⟨_ | bytes, agent⟩ := r
          · exact hrest ..
          · rcases writes with _ | ⟨_ | _, writes⟩
            · exact hrest ..
            · rfl
            · exact hrest ..

theorem loop_recordStep (crypto : Crypto) (o : Recorded) (step : Step) :
    Recorded.loop <$> recordStep crypto o step = o.loop.handleStep crypto step := by
  rcases step with (accepts | ⟨channel, disconnected⟩ | ⟨token, engineTime, reads, writes⟩) | now
  · simp only [recordStep, handleStep, handleEvent]
    cases o.loop.acceptConnections accepts <;> rfl
  · simp only [recordStep]
    cases o.loop.handleStep crypto (.event (.waker channel disconnected)) <;> rfl
  · simp only [recordStep, handleStep, handleEvent, handleConnectionEvent]
    generalize o.loop.drainConnectionReadBuffer token reads = drained
    rw [dispatchBufferedFrames_eq_recorded]
    cases dispatchRecorded crypto token engineTime
        ((drained.1.connections.get? token).elim 0 (·.readBuf.length) + 1) writes drained.1 with
    | err e => rfl
    | panic => rfl
    | ok r =>
      change Res.ok _ = ite _ _ _
      split <;> rfl
  · rfl

/-- Without the record, a recorded run is a run. -/
theorem loop_foldlM_recordStep (crypto : Crypto) (polls : List Poll) (o : Recorded) :
    Recorded.loop <$> (polls.flatMap Poll.steps).foldlM (recordStep crypto) o =
      run crypto polls o.loop := by
  rw [run_eq_steps]
  exact map_foldlM (loop_recordStep crypto) _ o

/-! ## The dispatch of a buffer -/

/-- What the dispatch of a buffer does: it takes frames from the front, all of them unless a write
fails, and writes the responses in that order. -/
structure Dispatched (crypto : Crypto) (token : Nat) (engineTime : UInt32) (s : EventLoop)
    (conn : ConnectionState) (closed : Bool) (s' : EventLoop) (transcript : Transcript) : Prop where
  token_eq : ∀ exchange ∈ transcript.exchanges, exchange.token = token
  arrival_eq : ∀ exchange ∈ transcript.exchanges,
    exchange.arrival = ⟨exchange.frame, s.store, engineTime⟩
  processed : processFrames crypto (transcript.exchanges.map Exchange.arrival) s.agent =
    .ok (transcript.exchanges.map Exchange.response, s'.agent)
  frames : ∃ rest left reason, Framer.Drains nextCompleteFrame conn.readBuf
      (transcript.exchanges.map Exchange.frame ++ rest) left reason ∧
    (closed = false → rest = [] ∧ reason = none ∧
      s'.connections.get? token = some { conn with readBuf := left })
  written : transcript.written <+: transcript.exchanges.filterMap Exchange.response
  all_written : closed = false →
    transcript.written = transcript.exchanges.filterMap Exchange.response

section
variable {crypto : Crypto} {token : Nat} {engineTime : UInt32} {s s' : EventLoop}
  {conn : ConnectionState} {closed : Bool} {transcript : Transcript} {berFrame readBuf : Bytes}
  {response : Option Bytes} {agent : Agent}

/-- One frame in front of those that are dispatched after it. -/
theorem Dispatched.cons (hframe : nextCompleteFrame conn.readBuf = .complete berFrame readBuf)
    (hprocess : processSnmpv3Request crypto berFrame s.store (s.agent.atTime engineTime) =
      .ok (response, agent))
    {connections : OrderedMap Nat ConnectionState}
    (D : Dispatched crypto token engineTime { s with connections, agent } { conn with readBuf }
      closed s' transcript) :
    Dispatched crypto token engineTime s conn closed s'
      (transcript.cons ⟨token, ⟨berFrame, s.store, engineTime⟩, response⟩ response.toList) where
  token_eq := List.forall_mem_cons.mpr ⟨rfl, D.token_eq⟩
  arrival_eq := List.forall_mem_cons.mpr ⟨rfl, D.arrival_eq⟩
  processed := by
    have hprocessed := D.processed
    simp only [Transcript.cons, List.map_cons, processFrames, hprocess, Res.ok_bind]
    rw [hprocessed]
    rfl
  frames := by
    obtain ⟨rest, left, reason, hdrains, hopen⟩ := D.frames
    exact ⟨rest, left, reason, .frame hframe hdrains, hopen⟩
  written := by
    cases response with
    | none => exact D.written
    | some bytes => exact List.cons_prefix_cons.mpr ⟨rfl, D.written⟩
  all_written hclosed := by
    have hwritten := D.all_written hclosed
    cases response with
    | none => exact hwritten
    | some bytes => exact congrArg (bytes :: ·) hwritten

/-- A frame whose response cannot be written. -/
theorem Dispatched.unwritten (hframe : nextCompleteFrame conn.readBuf = .complete berFrame readBuf)
    (hprocess : processSnmpv3Request crypto berFrame s.store (s.agent.atTime engineTime) =
      .ok (response, agent)) {connections : OrderedMap Nat ConnectionState} :
    Dispatched crypto token engineTime s conn true { s with connections, agent }
      ⟨[⟨token, ⟨berFrame, s.store, engineTime⟩, response⟩], []⟩ where
  token_eq := List.forall_mem_singleton.mpr rfl
  arrival_eq := List.forall_mem_singleton.mpr rfl
  processed := by
    simp only [List.map_cons, List.map_nil, processFrames, hprocess, Res.ok_bind]
  frames := by
    obtain ⟨rest, left, reason, hdrains⟩ := lawful_nextCompleteFrame.exists_drains readBuf
    exact ⟨rest, left, reason, .frame hframe hdrains, fun h => by cases h⟩
  written := List.nil_prefix
  all_written h := by cases h

theorem dispatched {fuel : Nat} {writes : List Bool} (hconn : s.connections.get? token = some conn)
    (h : dispatchRecorded crypto token engineTime fuel writes s = .ok (closed, s', transcript)) :
    Dispatched crypto token engineTime s conn closed s' transcript := by
  induction fuel generalizing s conn writes transcript with
  | zero => cases h
  | succ fuel ih =>
    rw [dispatchRecorded, hconn] at h
    dsimp only at h
    split at h
    · rename_i hincomplete
      cases h
      exact ⟨nofun, nofun, rfl, ⟨[], _, _, .stop hincomplete, fun _ => ⟨rfl, rfl, hconn⟩⟩,
        List.prefix_refl _, fun _ => rfl⟩
    · rename_i reason hclose
      cases h
      exact ⟨nofun, nofun, rfl, ⟨[], _, _, .close hclose, fun h => by cases h⟩,
        List.prefix_refl _, fun _ => rfl⟩
    rename_i berFrame readBuf hframe
    obtain ⟨⟨response, agent⟩, hprocess, h⟩ := Res.bind_eq_ok.mp h
    have hprocess := Res.mapErr_eq_ok.mp hprocess
    have hget : (s.connections.insert token { conn with readBuf }).get? token =
        some { conn with readBuf } := by rw [OrderedMap.get?_insert, if_pos rfl]
    dsimp only at h
    split at h
    · obtain ⟨⟨closed', s₁, transcript'⟩, hrest, h⟩ := Res.bind_eq_ok.mp h
      cases h
      exact .cons hframe hprocess (ih hget hrest)
    · cases h
      exact .unwritten hframe hprocess
    · obtain ⟨⟨closed', s₁, transcript'⟩, hrest, h⟩ := Res.bind_eq_ok.mp h
      cases h
      exact .cons hframe hprocess (ih hget hrest)

end

/-! ## One connection -/

/-- The record of one token, with the connection behind it if it is open. The frames are those at
the front of what was received, one after the other, and if the connection is open there are no
others and all responses are written. -/
structure Conversation (received : Bytes) (exchanges : List Exchange) (written : List Bytes)
    (conn : Option ConnectionState) : Prop where
  frames : ∃ rest left reason,
    Framer.Drains nextCompleteFrame received (exchanges.map Exchange.frame ++ rest) left reason ∧
    ∀ c, conn = some c → rest = [] ∧ reason = none ∧ left = c.readBuf
  written_prefix : written <+: exchanges.filterMap Exchange.response
  all_written : conn.isSome → written = exchanges.filterMap Exchange.response

section
variable {received : Bytes} {exchanges : List Exchange} {written : List Bytes}
  {conn : Option ConnectionState}

theorem Conversation.fresh (hconn : ∀ c, conn = some c → c.readBuf = []) :
    Conversation [] [] [] conn where
  frames := ⟨[], [], none, .stop rfl, fun c h => ⟨rfl, rfl, (hconn c h).symm⟩⟩
  written_prefix := List.prefix_refl _
  all_written _ := rfl

/-- A connection that is closed keeps its record. -/
theorem Conversation.close (H : Conversation received exchanges written conn) :
    Conversation received exchanges written none := by
  obtain ⟨rest, left, reason, hdrains, -⟩ := H.frames
  exact ⟨⟨rest, left, reason, hdrains, fun _ h => by cases h⟩, H.written_prefix,
    fun h => by cases h⟩

theorem Conversation.mono {conn' : Option ConnectionState}
    (H : Conversation received exchanges written conn)
    (hconn : ∀ c, conn' = some c → conn = some c) :
    Conversation received exchanges written conn' := by
  cases conn' with
  | none => exact H.close
  | some c => exact hconn c rfl ▸ H

/-- Bytes arrive and the buffer is dispatched. -/
theorem Conversation.extend {crypto : Crypto} {token : Nat} {engineTime : UInt32} {s s' : EventLoop}
    {c c' : ConnectionState} {closed : Bool} {transcript : Transcript} {bytes : Bytes}
    (H : Conversation received exchanges written (some c)) (hbuf : c'.readBuf = c.readBuf ++ bytes)
    (D : Dispatched crypto token engineTime s c' closed s' transcript)
    (hconn : ∀ c'', conn = some c'' → closed = false ∧ s'.connections.get? token = some c'') :
    Conversation (received ++ bytes) (exchanges ++ transcript.exchanges)
      (written ++ transcript.written) conn where
  frames := by
    obtain ⟨rest, left, reason, hdrains, hopen⟩ := H.frames
    obtain ⟨rfl, rfl, rfl⟩ := hopen c rfl
    rw [List.append_nil] at hdrains
    obtain ⟨rest', left', reason', hdrains', hopen'⟩ := D.frames
    rw [hbuf] at hdrains'
    refine ⟨rest', left', reason', ?_, fun c'' h => ?_⟩
    · rw [List.map_append, List.append_assoc]
      exact hdrains.append_open lawful_nextCompleteFrame bytes hdrains'
    · obtain ⟨hclosed, hget⟩ := hconn c'' h
      obtain ⟨hrest, hreason, hleft⟩ := hopen' hclosed
      cases hget.symm.trans hleft
      exact ⟨hrest, hreason, rfl⟩
  written_prefix := by
    rw [H.all_written rfl, List.filterMap_append]
    exact (List.prefix_append_right_inj _).mpr D.written
  all_written h := by
    obtain ⟨c'', hc''⟩ := Option.isSome_iff_exists.mp h
    rw [H.all_written rfl, List.filterMap_append, D.all_written (hconn c'' hc'').1]

end

/-! ## Every run -/

/-- What is true of the record between two steps. -/
structure Served (crypto : Crypto) (agent : Agent) (o : Recorded) : Prop where
  /-- The frames of all connections are one sequence. -/
  processed : processFrames crypto (o.log.map Exchange.arrival) agent =
    .ok (o.log.map Exchange.response, o.loop.agent)
  since_le : ∀ token, o.since token ≤ o.log.length
  stream : ∀ token, Conversation (o.received token) (o.exchanges token) (o.written token)
    (o.loop.connections.get? token)

section
variable {crypto : Crypto} {agent : Agent} {o o' : Recorded}

theorem Served.start (crypto : Crypto) (agent : Agent) (max : Nat)
    (timeoutConfig : ConnectionTimeoutConfig) :
    Served crypto agent (.start (new agent max timeoutConfig)) where
  processed := rfl
  since_le _ := Nat.le_refl _
  stream _ := .fresh fun _ h => by cases h

/-- A step that dispatches nothing and opens no connection. -/
theorem Served.congr (H : Served crypto agent o) {loop : EventLoop}
    (hagent : loop.agent = o.loop.agent)
    (hconn : ∀ token conn, loop.connections.get? token = some conn →
      o.loop.connections.get? token = some conn) : Served crypto agent { o with loop } where
  processed := by
    have hprocessed := H.processed
    rw [← hagent] at hprocessed
    exact hprocessed
  since_le := H.since_le
  stream token := (H.stream token).mono (hconn token)

theorem agent_acceptConnections {s s' : EventLoop} {accepts : List AcceptResult}
    (h : s.acceptConnections accepts = .ok s') : s'.agent = s.agent := by
  refine acceptConnections_induction (P := fun s₁ => s₁.agent = s.agent) h rfl ?_
  intro s₁ s₂ registers now hs₁ h
  obtain ⟨⟨token, s₃⟩, htoken, h⟩ := Res.bind_eq_ok.mp h
  obtain ⟨-, -, nextToken, rfl⟩ := nextConnectionToken_eq_ok htoken
  dsimp only at h
  split at h <;> cases h <;> exact hs₁

theorem Served.listener (H : Served crypto agent o) {accepts : List AcceptResult}
    (h : recordStep crypto o (.event (.listener accepts)) = .ok o') : Served crypto agent o' := by
  obtain ⟨loop, hloop, h⟩ := Res.bind_eq_ok.mp h
  cases h
  refine ⟨?_, fun token => ?_, fun token => ?_⟩
  · rw [agent_acceptConnections hloop]
    exact H.processed
  · dsimp only
    split
    · exact Nat.le_refl _
    · exact H.since_le token
  · cases haccepted : accepted o.loop loop token with
    | true =>
      simp only [Recorded.exchanges, haccepted, if_true, List.drop_length, List.filter_nil]
      refine .fresh fun conn hconn => ?_
      simp only [accepted, Bool.and_eq_true, Option.isNone_iff_eq_none] at haccepted
      rcases get?_of_acceptConnections hloop hconn with hbefore | hnil
      · rw [haccepted.1] at hbefore
        cases hbefore
      · exact hnil
    | false =>
      simp only [Recorded.exchanges, haccepted, Bool.false_eq_true, if_false]
      refine (H.stream token).mono fun conn hconn => ?_
      cases hbefore : o.loop.connections.get? token with
      | none => simp [accepted, hbefore, hconn] at haccepted
      | some conn' => rw [← hconn, get?_acceptConnections hloop hbefore]

/-- The log of the other connections does not change by what is dispatched for one. -/
theorem filter_drop_append {log new : List Exchange} {n token : Nat} (hn : n ≤ log.length)
    (hnew : ∀ exchange ∈ new, exchange.token = token) (token' : Nat) :
    ((log ++ new).drop n).filter (fun exchange => exchange.token = token') =
      (log.drop n).filter (fun exchange => exchange.token = token') ++
        if token' = token then new else [] := by
  rw [List.drop_append_of_le_length hn, List.filter_append]
  congr 1
  split
  · rename_i heq
    exact List.filter_eq_self.mpr fun exchange h => by simp [hnew exchange h, heq]
  · rename_i hne
    exact List.filter_eq_nil_iff.mpr fun exchange h => by simp [hnew exchange h, Ne.symm hne]

theorem recordStep_connection {token : Nat} {engineTime : UInt32} {reads : List ReadResult}
    {writes : List Bool}
    (h : recordStep crypto o (.event (.connection token engineTime reads writes)) = .ok o') :
    ∃ fuel closed s transcript, dispatchRecorded crypto token engineTime (fuel + 1) writes
        (o.loop.drainConnectionReadBuffer token reads).1 = .ok (closed, s, transcript) ∧
      o' = {
        loop := if (o.loop.drainConnectionReadBuffer token reads).2 || closed then
          s.closeAndDeregisterConnection token else s
        log := o.log ++ transcript.exchanges
        received := Function.update o.received token (o.received token ++
          (o.loop.connections.get? token).elim [] fun _ => (chunks reads).flatten)
        written := Function.update o.written token (o.written token ++ transcript.written)
        since := o.since } := by
  rw [recordStep] at h
  generalize o.loop.drainConnectionReadBuffer token reads = drained at h ⊢
  obtain ⟨⟨closed, s, transcript⟩, hdispatch, h⟩ := Res.bind_eq_ok.mp h
  exact ⟨_, closed, s, transcript, hdispatch, (Res.ok.inj h).symm⟩

theorem agent_drainConnectionReadBuffer (s : EventLoop) (token : Nat) (reads : List ReadResult) :
    (s.drainConnectionReadBuffer token reads).1.agent = s.agent := by
  rw [drainConnectionReadBuffer]
  split <;> rfl

/-- An event for a connection that is not there changes nothing. -/
theorem recordStep_of_none {token : Nat} {engineTime : UInt32} {reads : List ReadResult}
    {writes : List Bool} (hconn : o.loop.connections.get? token = none)
    (h : recordStep crypto o (.event (.connection token engineTime reads writes)) = .ok o') :
    o' = o := by
  obtain ⟨fuel, closed, s, transcript, hdispatch, rfl⟩ := recordStep_connection h
  have hdrain : o.loop.drainConnectionReadBuffer token reads = (o.loop, false) := by
    rw [drainConnectionReadBuffer, hconn]
  rw [hdrain, dispatchRecorded, hconn] at hdispatch
  cases hdispatch
  rw [hdrain, hconn]
  simp

theorem Served.connection (H : Served crypto agent o) {token : Nat} {engineTime : UInt32}
    {reads : List ReadResult} {writes : List Bool}
    (h : recordStep crypto o (.event (.connection token engineTime reads writes)) = .ok o') :
    Served crypto agent o' := by
  cases hconn : o.loop.connections.get? token with
  | none =>
    rw [recordStep_of_none hconn h]
    exact H
  | some conn =>
    have hloop : o.loop.handleConnectionEvent crypto token engineTime reads writes =
        .ok o'.loop := by
      have hforget := loop_recordStep crypto o (.event (.connection token engineTime reads writes))
      rw [h] at hforget
      exact hforget.symm
    obtain ⟨fuel, closed, s, transcript, hdispatch, rfl⟩ := recordStep_connection h
    have hget := get?_drainConnectionReadBuffer o.loop token reads token
    rw [if_pos rfl, hconn, Option.map_some] at hget
    have D := dispatched hget hdispatch
    refine ⟨?_, fun token' => ?_, fun token' => ?_⟩
    · have hprocessed := D.processed
      rw [agent_drainConnectionReadBuffer] at hprocessed
      rw [List.map_append, List.map_append, processFrames_append, H.processed, Res.ok_bind]
      dsimp only
      rw [hprocessed, Res.ok_bind]
      split <;> rfl
    · rw [List.length_append]
      exact (H.since_le token').trans (Nat.le_add_right ..)
    · rw [Recorded.exchanges, filter_drop_append (H.since_le token') D.token_eq token',
        ← Recorded.exchanges]
      by_cases heq : token' = token
      · subst heq
        have hstream := H.stream token'
        rw [hconn] at hstream
        simp only [if_true, Function.update_self, hconn, Option.elim_some]
        refine hstream.extend (readBuf_drainReads reads conn) D fun c hc => ?_
        split at hc
        · rw [get?_closeAndDeregisterConnection, if_pos rfl] at hc
          cases hc
        · rename_i hopen
          exact ⟨(Bool.or_eq_false_iff.mp (Bool.not_eq_true _ |>.mp hopen)).2, hc⟩
      · rw [if_neg heq, List.append_nil, get?_handleConnectionEvent_of_ne hloop heq]
        simp only [Function.update_of_ne heq]
        exact H.stream token'

theorem Served.step (H : Served crypto agent o) {step : Step}
    (h : recordStep crypto o step = .ok o') : Served crypto agent o' := by
  rcases step with (accepts | ⟨channel, disconnected⟩ | ⟨token, engineTime, reads, writes⟩) | now
  · exact H.listener h
  · obtain ⟨loop, hloop, h⟩ := Res.bind_eq_ok.mp h
    cases h
    simp only [handleStep, handleEvent] at hloop
    split at hloop
    · cases hloop
    · cases hloop
      exact H.congr rfl fun _ _ h => h
  · exact H.connection h
  · cases h
    exact H.congr rfl fun _ _ h => (get?_of_sweepIdleConnections h).1

end

/-- A run with its record. -/
def recordedRun (crypto : Crypto) (polls : List Poll) (s : EventLoop) : Res Halt Recorded :=
  (polls.flatMap Poll.steps).foldlM (recordStep crypto) (.start s)

section
variable (crypto : Crypto) (agent : Agent) (max : Nat) (timeoutConfig : ConnectionTimeoutConfig)
  (polls : List Poll)

theorem served_recordedRun {o : Recorded}
    (h : recordedRun crypto polls (new agent max timeoutConfig) = .ok o) :
    Served crypto agent o :=
  foldlM_inv (Served crypto agent) (fun _ _ _ H h => H.step h)
    (.start crypto agent max timeoutConfig) h

/-- **Service in order.** In every run, however the events of the connections are mixed with each
other, with commands, accepts and sweeps: the frames that are dispatched for a connection are those
that its own stream starts with, each once and in their order, and the responses are written in that
order. On a connection that is open no complete frame is left, and every response has been
written. -/
theorem connections_served_in_order :
    Recorded.loop <$> recordedRun crypto polls (new agent max timeoutConfig) =
      run crypto polls (new agent max timeoutConfig) ∧
    ∀ o, recordedRun crypto polls (new agent max timeoutConfig) = .ok o → ∀ token,
      (∃ rest left reason, Framer.Drains nextCompleteFrame (o.received token)
        (o.frames token ++ rest) left reason) ∧
      o.written token <+: o.responses token ∧
      ∀ conn, o.loop.connections.get? token = some conn →
        Framer.Drains nextCompleteFrame (o.received token) (o.frames token) conn.readBuf none ∧
        o.written token = o.responses token := by
  refine ⟨loop_foldlM_recordStep crypto polls _, fun o ho token => ?_⟩
  have H := (served_recordedRun crypto agent max timeoutConfig polls ho).stream token
  obtain ⟨rest, left, reason, hdrains, hopen⟩ := H.frames
  refine ⟨⟨rest, left, reason, hdrains⟩, H.written_prefix, fun conn hconn => ⟨?_, ?_⟩⟩
  · obtain ⟨rfl, rfl, rfl⟩ := hopen conn hconn
    rw [List.append_nil] at hdrains
    exact hdrains
  · exact H.all_written (by rw [hconn]; rfl)

/-- **One sequence.** All connections together are served as one sequence of frames: the answers and
the state of the agent are those of processing the frames one after the other, and the counters are
the numbers of frames of all connections that advanced them. -/
theorem connections_served_as_sequence {o : Recorded}
    (ho : recordedRun crypto polls (new agent max timeoutConfig) = .ok o)
    (hboots : agent.ctx.inputs.engineBoots < 0x80000000)
    (htimes : ∀ exchange ∈ o.log, exchange.arrival.engineTime < 0x80000000) :
    processFrames crypto (o.log.map Exchange.arrival) agent =
      .ok (o.log.map Exchange.response, o.loop.agent) ∧
    ∀ counter : StatsCounter, (counter.select o.loop.agent.ctx.inputs).value.toNat =
      min 0xFFFFFFFF ((counter.select agent.ctx.inputs).value.toNat +
        countArrivals crypto agent counter (o.log.map Exchange.arrival)) := by
  have hprocessed := (served_recordedRun crypto agent max timeoutConfig polls ho).processed
  refine ⟨hprocessed, fun counter => processFrames_counters hboots ?_ hprocessed counter⟩
  intro arrival harrival
  obtain ⟨exchange, hmem, rfl⟩ := List.mem_map.mp harrival
  exact htimes exchange hmem

end

/-- Two managers: the request of the first one comes in two parts, and in between the second one
sends a request without a signature. -/
def twoManagers : List Poll :=
  [⟨[.listener [.stream true 0, .stream true 0]], 0⟩,
    ⟨[.connection 2 1000 [.ok (Sample.signedFrame.take 10) 1] [],
      .connection 3 1000 [.ok Sample.plainFrame 1] []], 1⟩,
    ⟨[.connection 2 1000 [.ok (Sample.signedFrame.drop 10) 2] []], 2⟩]

theorem connections_served_as_sequence_sample :
    let agent := Sample.agent (some Sample.authUser) .authNoPriv
    ∃ o, recordedRun Sample.crypto twoManagers (new agent 2 {}) = .ok o ∧
      o.log.map (fun exchange => (exchange.token, exchange.frame)) =
        [(3, Sample.plainFrame), (2, Sample.signedFrame)] ∧
      processFrames Sample.crypto (o.log.map Exchange.arrival) agent =
        .ok (o.log.map Exchange.response, o.loop.agent) ∧
      ∀ counter : StatsCounter, (counter.select o.loop.agent.ctx.inputs).value.toNat =
        min 0xFFFFFFFF ((counter.select agent.ctx.inputs).value.toNat +
          countArrivals Sample.crypto agent counter (o.log.map Exchange.arrival)) := by
  intro agent
  have hlog : (fun o => o.log.map fun exchange =>
      ((exchange.token, exchange.frame), exchange.arrival.engineTime)) <$>
        recordedRun Sample.crypto twoManagers (new agent 2 {}) =
      .ok [((3, Sample.plainFrame), 1000), ((2, Sample.signedFrame), 1000)] := by
    decide +kernel
  obtain ⟨o, ho, hlog⟩ := Res.map_eq_ok.mp hlog
  refine ⟨o, ho, ?_, connections_served_as_sequence Sample.crypto agent 2 {} twoManagers ho
    (by decide) fun exchange hmem => ?_⟩
  · have := congrArg (List.map Prod.fst) hlog
    simpa [Function.comp_def] using this
  · have := congrArg (List.map Prod.snd) hlog
    have hmem := List.mem_map_of_mem (f := fun e : Exchange => e.arrival.engineTime) hmem
    simp only [List.map_map, Function.comp_def] at this
    rw [this] at hmem
    simp only [List.map_cons, List.map_nil, List.mem_cons, List.not_mem_nil, or_false, or_self]
      at hmem
    rw [hmem]
    decide

end EventLoop

end SnmpAgent
