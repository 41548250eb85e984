import SnmpAgent.Transport.Steps

/-!
# Idle connections

The sweep goes by the instant of the last read, while an idle connection is one without a complete
message. To compare them, a ghost beside the loop records when a connection was accepted or last had
a frame taken from its buffer. The two instants differ only for a connection that has received bytes
and no complete frame since.
-/

namespace SnmpAgent
open Rust

namespace EventLoop

/-- The loop, and for the connection behind each token the instant at which it was accepted or last
had a complete frame. The loop does not read it. -/
structure Observed where
  loop : EventLoop
  heard : Nat → Nat

/-- The history after an event that leads from `s` to `s'`. The loop reads no clock when it takes a
frame from a buffer; the last reading before that is the one of the bytes. -/
def heardAfter (s s' : EventLoop) (heard : Nat → Nat) : Event → Nat → Nat
  | .listener _, token =>
    match s.connections.get? token, s'.connections.get? token with
    | none, some conn => conn.lastActivity
    | _, _ => heard token
  | .waker .., token => heard token
  | .connection token' _ reads _, token =>
    if token = token' then
      match s.connections.get? token with
      | none => heard token
      | some conn =>
        match nextCompleteFrame (drainReads reads conn).1.readBuf with
        | .complete .. => (drainReads reads conn).1.lastActivity
        | _ => heard token
    else heard token

def observeStep (crypto : Crypto) (o : Observed) : Step → Res Halt Observed
  | .event event => do
    let s ← o.loop.handleEvent crypto event
    .ok ⟨s, heardAfter o.loop s o.heard event⟩
  | .sweep now => .ok { o with loop := o.loop.sweepIdleConnections now }

theorem loop_observeStep (crypto : Crypto) (o : Observed) (step : Step) :
    Observed.loop <$> observeStep crypto o step = o.loop.handleStep crypto step := by
  cases step with
  | event event =>
    rw [observeStep, handleStep]
    cases o.loop.handleEvent crypto event <;> rfl
  | sweep now => rfl

/-- Without the history, an observed run is a run. -/
theorem loop_foldlM_observeStep (crypto : Crypto) (polls : List Poll) (o : Observed) :
    Observed.loop <$> (polls.flatMap Poll.steps).foldlM (observeStep crypto) o =
      run crypto polls o.loop := by
  rw [run_eq_steps]
  exact map_foldlM (loop_observeStep crypto) _ o

/-! ## What a step does to the history -/

variable {crypto : Crypto} {o o' : Observed} {token : Nat} {conn' : ConnectionState}

/-- The reads of an event complete a frame, or bring nothing, or leave a part of a frame. -/
theorem heard_connection {s : EventLoop} {heard : Nat → Nat} {engineTime : UInt32}
    {reads : List ReadResult} {writes : List Bool} {s' : EventLoop}
    (h : handleConnectionEvent crypto token engineTime reads writes s = .ok s')
    (hconn' : s'.connections.get? token = some conn') :
    let heard' := heardAfter s s' heard (.connection token engineTime reads writes) token
    (s.connections.get? token = some conn' ∧ heard' = heard token) ∨
      heard' = conn'.lastActivity ∨
      ∃ conn, s.connections.get? token = some conn ∧ chunks reads ≠ [] ∧
        endsStream reads = false ∧ conn'.readBuf = conn.readBuf ++ (chunks reads).flatten ∧
        nextCompleteFrame conn'.readBuf = .incomplete := by
  intro heard'
  obtain ⟨conn, hconn, hends, hlast, -, hincomplete, hclose⟩ := get?_handleConnectionEvent h hconn'
  cases hframe : nextCompleteFrame (drainReads reads conn).1.readBuf with
  | complete frame rest =>
    refine .inr (.inl ?_)
    simp only [heard', heardAfter, hconn, hframe, if_true, hlast]
  | close reason => exact absurd hframe (hclose reason)
  | incomplete =>
    obtain rfl := hincomplete hframe
    by_cases hchunks : chunks reads = []
    · have hheard : heard' = heard token := by
        simp only [heard', heardAfter, hconn, hframe, if_true]
      rw [drainReads_of_chunks_nil hchunks]
      exact .inl ⟨hconn, hheard⟩
    · exact .inr (.inr ⟨conn, hconn, hchunks, hends, readBuf_drainReads reads conn, hframe⟩)

/-- An event leaves a connection alone, or the connection has been heard at its last activity, or it
has received bytes that complete no frame and has not ended. -/
theorem heard_event {event : Event} (h : observeStep crypto o (.event event) = .ok o')
    (hconn' : o'.loop.connections.get? token = some conn') :
    (o.loop.connections.get? token = some conn' ∧ o'.heard token = o.heard token) ∨
      o'.heard token = conn'.lastActivity ∨
      ∃ engineTime reads writes conn, event = .connection token engineTime reads writes ∧
        o.loop.connections.get? token = some conn ∧ chunks reads ≠ [] ∧ endsStream reads = false ∧
        conn'.readBuf = conn.readBuf ++ (chunks reads).flatten ∧
        nextCompleteFrame conn'.readBuf = .incomplete := by
  obtain ⟨s, hs, ho'⟩ := Res.bind_eq_ok.mp h
  cases ho'
  dsimp only at hconn' ⊢
  cases event with
  | listener accepts =>
    cases hconn : o.loop.connections.get? token with
    | none =>
      refine .inr (.inl ?_)
      simp only [heardAfter, hconn, hconn']
    | some conn =>
      cases hconn'.symm.trans (get?_acceptConnections hs hconn)
      refine .inl ⟨rfl, ?_⟩
      simp only [heardAfter, hconn]
  | waker channel disconnected =>
    simp only [handleEvent] at hs
    split at hs
    · cases hs
    · cases hs
      exact .inl ⟨hconn', rfl⟩
  | connection token' engineTime reads writes =>
    by_cases hne : token = token'
    · subst hne
      rcases heard_connection hs hconn' with hsame | hheard | ⟨conn, hpart⟩
      · exact .inl hsame
      · exact .inr (.inl hheard)
      · exact .inr (.inr ⟨engineTime, reads, writes, conn, rfl, hpart⟩)
    · rw [get?_handleConnectionEvent_of_ne hs hne] at hconn'
      exact .inl ⟨hconn', if_neg hne⟩

/-! ## Sweeps -/

/-- What a sweep should leave: connections that were accepted or had a complete frame less than the
timeout in force before. -/
def Timely (o : Observed) : Step → Prop
  | .event _ => True
  | .sweep now => ∀ token conn,
    (o.loop.sweepIdleConnections now).connections.get? token = some conn →
      now - o.heard token < o.loop.idleTimeout

/-- An event that delivers bytes completes a frame with them, or ends the connection. -/
def Finishes (o : Observed) : Step → Prop
  | .event (.connection token _ reads _) => ∀ conn, o.loop.connections.get? token = some conn →
    chunks reads = [] ∨ endsStream reads = true ∨
      nextCompleteFrame (conn.readBuf ++ (chunks reads).flatten) ≠ .incomplete
  | _ => True

/-- No sweep meets a connection that holds a part of a frame, the last bytes of which came within
the timeout, while the last complete frame did not. -/
def Unstalled (o : Observed) : Step → Prop
  | .event _ => True
  | .sweep now => ∀ token conn, o.loop.connections.get? token = some conn → conn.readBuf ≠ [] →
    now - conn.lastActivity < o.loop.idleTimeout → now - o.heard token < o.loop.idleTimeout

/-- The last activity of every connection whose buffer has the property was a frame. -/
def Heard (P : Bytes → Prop) (o : Observed) : Prop :=
  ∀ token conn, o.loop.connections.get? token = some conn → P conn.readBuf →
    o.heard token = conn.lastActivity

theorem Heard.sweep {P : Bytes → Prop} (H : Heard P o) (now : Nat) :
    Heard P { o with loop := o.loop.sweepIdleConnections now } :=
  fun token conn h => H token conn (get?_of_sweepIdleConnections h).1

/-- A step keeps it, unless it leaves a part of a frame in such a buffer. -/
theorem Heard.step {P : Bytes → Prop} (H : Heard P o) {step : Step}
    (hstep : observeStep crypto o step = .ok o')
    (hC : ∀ token engineTime reads writes conn,
      step = .event (.connection token engineTime reads writes) →
      o.loop.connections.get? token = some conn → chunks reads ≠ [] → endsStream reads = false →
      nextCompleteFrame (conn.readBuf ++ (chunks reads).flatten) = .incomplete →
      ¬ P (conn.readBuf ++ (chunks reads).flatten)) :
    Heard P o' := by
  cases step with
  | sweep now =>
    cases hstep
    exact H.sweep now
  | event event =>
    intro token conn' hconn' hP
    rcases heard_event hstep hconn' with ⟨hconn, hheard⟩ | hheard |
      ⟨engineTime, reads, writes, conn, rfl, hconn, hchunks, hends, hbuf, hincomplete⟩
    · rw [hheard]
      exact H token conn' hconn hP
    · exact hheard
    · rw [hbuf] at hP hincomplete
      exact absurd hP (hC token engineTime reads writes conn rfl hconn hchunks hends hincomplete)

/-- A sweep goes wrong only with a connection whose last activity was no frame. -/
theorem Heard.timely {P : Bytes → Prop} (H : Heard P o) {step : Step}
    (h : ∀ now token conn, step = .sweep now → o.loop.connections.get? token = some conn →
      ¬ P conn.readBuf → now - conn.lastActivity < o.loop.idleTimeout →
      now - o.heard token < o.loop.idleTimeout) :
    Timely o step := by
  cases step with
  | event event => trivial
  | sweep now =>
    intro token conn hconn
    obtain ⟨hconn, hactive⟩ := get?_of_sweepIdleConnections hconn
    by_cases hP : P conn.readBuf
    · rw [H token conn hconn hP]
      exact hactive
    · exact h now token conn rfl hconn hP hactive

/-- **Idle connections.** The history is that of the run. In every run, the sweeps leave no
connection but those with a recent frame exactly if none of them meets a connection that bytes
without a frame have kept alive, and they do so if no event leaves a part of a frame behind. -/
theorem sweeps_timely_iff (crypto : Crypto) (agent : Agent) (max : Nat)
    (timeoutConfig : ConnectionTimeoutConfig) (nextToken : Nat) (heard : Nat → Nat)
    (polls : List Poll) :
    Observed.loop <$> (polls.flatMap Poll.steps).foldlM (observeStep crypto)
        ⟨{ new agent max timeoutConfig with nextToken }, heard⟩ =
      run crypto polls { new agent max timeoutConfig with nextToken } ∧
    (Always (observeStep crypto) Timely (polls.flatMap Poll.steps)
        ⟨{ new agent max timeoutConfig with nextToken }, heard⟩ ↔
      Always (observeStep crypto) Unstalled (polls.flatMap Poll.steps)
        ⟨{ new agent max timeoutConfig with nextToken }, heard⟩) ∧
    (Always (observeStep crypto) Finishes (polls.flatMap Poll.steps)
        ⟨{ new agent max timeoutConfig with nextToken }, heard⟩ →
      Always (observeStep crypto) Timely (polls.flatMap Poll.steps)
        ⟨{ new agent max timeoutConfig with nextToken }, heard⟩) := by
  have hstart (P : Bytes → Prop) :
      Heard P ⟨{ new agent max timeoutConfig with nextToken }, heard⟩ :=
    nofun
  refine ⟨loop_foldlM_observeStep crypto polls _, ⟨fun h => ?_, fun h => ?_⟩, fun h => ?_⟩
  · refine h.mono fun o step htimely => ?_
    cases step with
    | event event => trivial
    | sweep now =>
      intro token conn hconn hne hactive
      refine htimely token conn ?_
      rw [get?_sweepIdleConnections, hconn]
      exact Option.filter_eq_some_iff.mpr ⟨rfl, decide_eq_true hactive⟩
  · -- a connection with an empty buffer has had all its bytes dispatched
    refine h.of_inv (Heard (· = [])) (fun o step o' H _ hstep => H.step hstep ?_) ?_ (hstart _)
    · intro token engineTime reads writes conn _ _ hchunks _ _ hnil
      exact flatten_chunks_ne_nil hchunks (List.append_eq_nil_iff.mp hnil).2
    intro o step H hunstalled
    apply H.timely
    rintro now token conn rfl hconn hne hactive
    exact hunstalled token conn hconn hne hactive
  · refine h.of_inv (Heard fun _ => True) (fun o step o' H hC hstep => H.step hstep ?_) ?_
      (hstart _)
    · rintro token engineTime reads writes conn rfl hconn hchunks hends hincomplete -
      rcases hC conn hconn with hnil | hend | hframe
      · exact hchunks hnil
      · rw [hends] at hend
        cases hend
      · exact hframe hincomplete
    intro o step H _
    apply H.timely
    intro now token conn _ _ hfalse _
    exact absurd trivial hfalse

end EventLoop

namespace Sample
open EventLoop

def idleLoop : EventLoop := EventLoop.new (agent none .noAuthNoPriv) 64 {}

/-- A manager connects and sends these bytes, with 200 seconds in between. -/
def sends (first second : Bytes) : List Poll :=
  [⟨[.listener [.stream true 0]], 0⟩, ⟨[.connection 2 200 [.ok first 200] []], 200⟩,
    ⟨[.connection 2 400 [.ok second 400] []], 400⟩]

end Sample

/-- Two empty frames. -/
theorem EventLoop.sweeps_timely_iff_sample :
    Always (observeStep Sample.crypto) Timely
      ((Sample.sends [0x30, 0x00] [0x30, 0x00]).flatMap Poll.steps)
      ⟨Sample.idleLoop, fun _ => 0⟩ := by
  refine (sweeps_timely_iff Sample.crypto (Sample.agent none .noAuthNoPriv) 64 {} 2 (fun _ => 0)
    (Sample.sends [0x30, 0x00] [0x30, 0x00])).2.2 ?_
  refine ⟨trivial, fun o ho => ⟨trivial, fun o₁ ho₁ => ⟨?_, fun o₂ ho₂ => ⟨trivial, fun o₃ ho₃ =>
    ⟨?_, fun o₄ _ => ⟨trivial, fun _ _ => trivial⟩⟩⟩⟩⟩⟩
  · cases ho
    cases ho₁
    rintro conn ⟨⟩
    exact .inr (.inr nofun)
  · cases ho
    cases ho₁
    cases ho₂
    cases ho₃
    rintro conn ⟨⟩
    exact .inr (.inr nofun)

/-- The first two bytes of a frame keep a connection open beyond 300 seconds. -/
theorem EventLoop.unfinished_frame_not_idle :
    (∃ s, run Sample.crypto (Sample.sends [0x30] [0x10]) Sample.idleLoop = .ok s ∧
      s.connections.entries.map Prod.fst = [2]) ∧
    ¬ Always (observeStep Sample.crypto) Timely
      ((Sample.sends [0x30] [0x10]).flatMap Poll.steps) ⟨Sample.idleLoop, fun _ => 0⟩ := by
  refine ⟨⟨_, rfl, rfl⟩, fun h => ?_⟩
  have hlast := ((((h.2 _ rfl).2 _ rfl).2 _ rfl).2 _ rfl).2 _ rfl
  exact absurd (hlast.1 2 _ rfl) (by decide)

end SnmpAgent
