import SnmpAgent.Lib.Runs
import SnmpAgent.Transport.EventLoop

/-!
# The event loop step by step

`run` handles the events of one `poll` after the other, with a sweep behind each batch. Here the run
is a list of single steps, and there is one lemma for what each step does to the connection table.
-/

namespace SnmpAgent
open Rust

namespace EventLoop

inductive Step where
  | event (event : Event)
  | sweep (now : Nat)

def Poll.steps (poll : Poll) : List Step := poll.events.map .event ++ [.sweep poll.now]

def handleStep (crypto : Crypto) (s : EventLoop) : Step → Res Halt EventLoop
  | .event event => s.handleEvent crypto event
  | .sweep now => .ok (s.sweepIdleConnections now)

theorem handlePoll_eq_steps (crypto : Crypto) (s : EventLoop) (poll : Poll) :
    s.handlePoll crypto poll = poll.steps.foldlM (handleStep crypto) s := by
  rw [handlePoll, Poll.steps, List.foldlM_append, List.foldlM_map]
  rfl

/-- A run takes its steps one by one. -/
theorem run_eq_steps (crypto : Crypto) (polls : List Poll) (s : EventLoop) :
    run crypto polls s = (polls.flatMap Poll.steps).foldlM (handleStep crypto) s := by
  rw [run]
  induction polls generalizing s with
  | nil => rfl
  | cons poll polls ih =>
    rw [List.foldlM_cons, List.flatMap_cons, List.foldlM_append, handlePoll_eq_steps]
    exact congrArg _ (funext ih)

/-! ## Reads -/

/-- The bytes that the reads of one event deliver, up to the end of the stream or an error. -/
def chunks : List ReadResult → List Bytes
  | .ok (b :: bs) _ :: reads => (b :: bs) :: chunks reads
  | _ => []

/-- Whether the reads of one event come to the end of the stream or to an error. -/
def endsStream : List ReadResult → Bool
  | [] => false
  | .ok (_ :: _) _ :: reads => endsStream reads
  | _ => true

theorem readBuf_drainReads (reads : List ReadResult) (conn : ConnectionState) :
    (drainReads reads conn).1.readBuf = conn.readBuf ++ (chunks reads).flatten := by
  induction reads generalizing conn with
  | nil => exact (List.append_nil _).symm
  | cons read reads ih =>
    rcases read with ⟨_ | ⟨b, bs⟩, now⟩ | _
    · exact (List.append_nil _).symm
    · rw [drainReads, ih, chunks, List.flatten_cons, List.append_assoc]
      nofun
    · exact (List.append_nil _).symm

theorem closed_drainReads (reads : List ReadResult) (conn : ConnectionState) :
    (drainReads reads conn).2 = endsStream reads := by
  induction reads generalizing conn with
  | nil => rfl
  | cons read reads ih =>
    rcases read with ⟨_ | ⟨b, bs⟩, now⟩ | _
    · rfl
    · exact ih _
    · rfl

theorem drainReads_of_chunks_nil {reads : List ReadResult} (h : chunks reads = [])
    (conn : ConnectionState) : (drainReads reads conn).1 = conn := by
  rcases reads with _ | ⟨⟨_ | ⟨b, bs⟩, now⟩ | _, reads⟩
  · rfl
  · rfl
  · cases h
  · rfl

theorem flatten_chunks_ne_nil {reads : List ReadResult} (h : chunks reads ≠ []) :
    (chunks reads).flatten ≠ [] := by
  rcases reads with _ | ⟨⟨_ | ⟨b, bs⟩, now⟩ | _, reads⟩
  · exact absurd rfl h
  · exact absurd rfl h
  · rw [chunks, List.flatten_cons]
    nofun
  · exact absurd rfl h

/-! ## Connection events -/

variable {crypto : Crypto} {token : Nat} {engineTime : UInt32} {s s' : EventLoop}

theorem get?_drainConnectionReadBuffer (s : EventLoop) (token : Nat) (reads : List ReadResult)
    (token' : Nat) :
    (s.drainConnectionReadBuffer token reads).1.connections.get? token' =
      if token' = token then (s.connections.get? token).map fun conn => (drainReads reads conn).1
      else s.connections.get? token' := by
  rw [drainConnectionReadBuffer]
  cases hconn : s.connections.get? token with
  | none =>
    dsimp only
    split
    · rename_i heq
      rw [heq, hconn]
      rfl
    · rfl
  | some conn =>
    dsimp only
    rw [OrderedMap.get?_insert]
    rfl

theorem get?_dispatchBufferedFrames_of_ne {fuel : Nat} {writes : List Bool} {closed : Bool}
    (h : dispatchBufferedFrames crypto token engineTime fuel writes s = .ok (closed, s'))
    {token' : Nat} (hne : token' ≠ token) :
    s'.connections.get? token' = s.connections.get? token' := by
  induction fuel generalizing s writes with
  | zero => cases h
  | succ fuel ih =>
    rw [dispatchBufferedFrames] at h
    split at h
    · cases h
      rfl
    split at h
    · cases h
      rfl
    · cases h
      rfl
    obtain ⟨⟨response, agent⟩, -, h⟩ := Res.bind_eq_ok.mp h
    dsimp only at h
    split at h
    · rw [ih h, OrderedMap.get?_insert, if_neg hne]
    · cases h
      exact (OrderedMap.get?_insert ..).trans (if_neg hne)
    · rw [ih h, OrderedMap.get?_insert, if_neg hne]

/-- Dispatching takes bytes from the front of the buffer, and none if no frame is complete. -/
theorem get?_dispatchBufferedFrames {fuel : Nat} {writes : List Bool} {closed : Bool}
    (h : dispatchBufferedFrames crypto token engineTime fuel writes s = .ok (closed, s'))
    {conn : ConnectionState} (hconn : s.connections.get? token = some conn) :
    ∃ readBuf, s'.connections.get? token = some { conn with readBuf } ∧
      readBuf <:+ conn.readBuf ∧
      (nextCompleteFrame conn.readBuf = .incomplete → readBuf = conn.readBuf) ∧
      ∀ reason, nextCompleteFrame conn.readBuf = .close reason → closed = true := by
  induction fuel generalizing s writes conn with
  | zero => cases h
  | succ fuel ih =>
    rw [dispatchBufferedFrames, hconn] at h
    dsimp only at h
    split at h
    · rename_i hincomplete
      cases h
      refine ⟨_, hconn, List.suffix_refl _, fun _ => rfl, fun _ hclose => ?_⟩
      cases hincomplete.symm.trans hclose
    · rename_i hclose
      cases h
      exact ⟨_, hconn, List.suffix_refl _, fun _ => rfl, fun _ _ => rfl⟩
    rename_i berFrame readBuf hframe
    obtain ⟨⟨response, agent⟩, -, h⟩ := Res.bind_eq_ok.mp h
    have hsuffix : readBuf <:+ conn.readBuf :=
      ⟨berFrame, (lawful_nextCompleteFrame.split hframe).symm⟩
    have hget : (s.connections.insert token { conn with readBuf }).get? token =
        some { conn with readBuf } := by rw [OrderedMap.get?_insert, if_pos rfl]
    rw [hframe]
    -- after a frame nothing is claimed about what it was before
    suffices ∃ rest, s'.connections.get? token = some { conn with readBuf := rest } ∧
        rest <:+ readBuf by
      obtain ⟨rest, hrest, hle⟩ := this
      exact ⟨rest, hrest, hle.trans hsuffix, (by cases ·), fun _ h => by cases h⟩
    dsimp only at h
    split at h
    · obtain ⟨rest, hrest, hle, -⟩ := ih h hget
      exact ⟨rest, hrest, hle⟩
    · cases h
      exact ⟨readBuf, hget, List.suffix_refl _⟩
    · obtain ⟨rest, hrest, hle, -⟩ := ih h hget
      exact ⟨rest, hrest, hle⟩

theorem handleConnectionEvent_eq_ok {reads : List ReadResult} {writes : List Bool}
    (h : handleConnectionEvent crypto token engineTime reads writes s = .ok s') :
    ∃ fuel closed s₁, dispatchBufferedFrames crypto token engineTime (fuel + 1) writes
        (s.drainConnectionReadBuffer token reads).1 = .ok (closed, s₁) ∧
      s' = if (s.drainConnectionReadBuffer token reads).2 || closed then
        s₁.closeAndDeregisterConnection token else s₁ := by
  rw [handleConnectionEvent] at h
  generalize s.drainConnectionReadBuffer token reads = drained at h ⊢
  obtain ⟨⟨closed, s₁⟩, hdispatch, h⟩ := Res.bind_eq_ok.mp h
  refine ⟨_, closed, s₁, hdispatch, ?_⟩
  dsimp only at h
  split at h
  · rename_i hclosed
    cases h
    rw [if_pos hclosed]
  · rename_i hopen
    cases h
    rw [if_neg hopen]

theorem get?_handleConnectionEvent_of_ne {reads : List ReadResult} {writes : List Bool}
    (h : handleConnectionEvent crypto token engineTime reads writes s = .ok s') {token' : Nat}
    (hne : token' ≠ token) : s'.connections.get? token' = s.connections.get? token' := by
  obtain ⟨fuel, closed, s₁, hdispatch, rfl⟩ := handleConnectionEvent_eq_ok h
  have hget := get?_dispatchBufferedFrames_of_ne hdispatch hne
  rw [get?_drainConnectionReadBuffer, if_neg hne] at hget
  split
  · rw [get?_closeAndDeregisterConnection, if_neg hne, hget]
  · exact hget

/-- A connection that is open after an event was open before it, has not come to the end of its
stream, and has the bytes that were read and not dispatched in its buffer. -/
theorem get?_handleConnectionEvent {reads : List ReadResult} {writes : List Bool}
    (h : handleConnectionEvent crypto token engineTime reads writes s = .ok s')
    {conn' : ConnectionState} (hconn' : s'.connections.get? token = some conn') :
    ∃ conn, s.connections.get? token = some conn ∧ endsStream reads = false ∧
      conn'.lastActivity = (drainReads reads conn).1.lastActivity ∧
      conn'.readBuf <:+ (drainReads reads conn).1.readBuf ∧
      (nextCompleteFrame (drainReads reads conn).1.readBuf = .incomplete →
        conn' = (drainReads reads conn).1) ∧
      ∀ reason, nextCompleteFrame (drainReads reads conn).1.readBuf ≠ .close reason := by
  obtain ⟨fuel, closed, s₁, hdispatch, rfl⟩ := handleConnectionEvent_eq_ok h
  split at hconn'
  · rw [get?_closeAndDeregisterConnection, if_pos rfl] at hconn'
    cases hconn'
  rename_i hopen
  obtain ⟨hdrain, rfl⟩ := Bool.or_eq_false_iff.mp (Bool.not_eq_true _ |>.mp hopen)
  have hget := get?_drainConnectionReadBuffer s token reads token
  rw [if_pos rfl] at hget
  cases hconn : s.connections.get? token with
  | none =>
    -- no connection, nothing to dispatch
    rw [hconn, Option.map_none] at hget
    rw [dispatchBufferedFrames, hget] at hdispatch
    cases hdispatch
    rw [hget] at hconn'
    cases hconn'
  | some conn =>
    rw [hconn, Option.map_some] at hget
    rw [drainConnectionReadBuffer, hconn] at hdrain
    obtain ⟨readBuf, hafter, hsuffix, hincomplete, hclose⟩ :=
      get?_dispatchBufferedFrames hdispatch hget
    cases hconn'.symm.trans hafter
    refine ⟨conn, rfl, (closed_drainReads reads conn).symm.trans hdrain, rfl, hsuffix, fun h => ?_,
      fun reason h => Bool.false_ne_true (hclose reason h)⟩
    rw [hincomplete h]

/-! ## The frames of a connection -/

theorem handleConnectionEvent_of_none (hnone : s.connections.get? token = none)
    (reads : List ReadResult) (writes : List Bool) :
    handleConnectionEvent crypto token engineTime reads writes s = .ok s := by
  simp only [handleConnectionEvent, drainConnectionReadBuffer, hnone, dispatchBufferedFrames]
  rfl

variable {conn : ConnectionState} {frames : List Bytes} {left : Bytes} {closed : Option String}
  {outs : List (Option Bytes)} {agent' : Agent}

/-- An event hands the frames in what was buffered and read to the dispatcher, and then the
connection is closed or has the rest in its buffer. -/
theorem handleConnectionEvent_frames (hconn : s.connections.get? token = some conn)
    {reads : List ReadResult} (hends : endsStream reads = false)
    (hdrains : Framer.Drains nextCompleteFrame (conn.readBuf ++ (chunks reads).flatten) frames left
      closed)
    (hprocess : processFrames crypto (frames.map (⟨·, s.store, engineTime⟩)) s.agent =
      .ok (outs, agent')) :
    ∃ s', handleConnectionEvent crypto token engineTime reads [] s = .ok s' ∧ s'.agent = agent' ∧
      s'.store = s.store ∧ (s'.connections.get? token).map ConnectionState.readBuf =
        if closed.isSome then none else some left := by
  rw [← readBuf_drainReads] at hdrains
  have hget := get?_drainConnectionReadBuffer s token reads token
  rw [if_pos rfl, hconn, Option.map_some] at hget
  have hdrained : s.drainConnectionReadBuffer token reads =
      ({ s with connections := s.connections.insert token (drainReads reads conn).1 }, false) := by
    simp only [drainConnectionReadBuffer, hconn]
    rw [closed_drainReads, hends]
  rw [hdrained] at hget
  obtain ⟨s₁, hdispatch, hagent, hstore, hget₁⟩ :=
    dispatchBufferedFrames_frames hdrains hget (Nat.lt_succ_self _) hprocess
  have hevent : handleConnectionEvent crypto token engineTime reads [] s =
      if closed.isSome then .ok (s₁.closeAndDeregisterConnection token) else .ok s₁ := by
    simp only [handleConnectionEvent, hdrained, hget, Option.elim_some]
    rw [hdispatch, Res.ok_bind]
    rfl
  rw [hevent]
  cases closed with
  | none => exact ⟨s₁, rfl, hagent, hstore, by rw [hget₁]; rfl⟩
  | some reason =>
    refine ⟨_, rfl, hagent, hstore, ?_⟩
    rw [get?_closeAndDeregisterConnection, if_pos rfl]
    rfl

/-- Events of one connection, with nothing in between. -/
def deliver (crypto : Crypto) (token : Nat) (engineTime : UInt32) (events : List (List ReadResult))
    (s : EventLoop) : Res Halt EventLoop :=
  events.foldlM (fun s reads => handleConnectionEvent crypto token engineTime reads [] s) s

theorem deliver_of_none (hnone : s.connections.get? token = none)
    (events : List (List ReadResult)) : deliver crypto token engineTime events s = .ok s := by
  induction events with
  | nil => rfl
  | cons reads events ih =>
    rw [deliver, List.foldlM_cons, handleConnectionEvent_of_none hnone]
    exact ih

/-- The frames that are dispatched are those of the stream, in whatever pieces it is read. -/
theorem deliver_frames {events : List (List ReadResult)}
    (hconn : s.connections.get? token = some conn)
    (hwaits : nextCompleteFrame conn.readBuf = .incomplete)
    (hends : ∀ reads ∈ events, endsStream reads = false)
    (hdrains : Framer.Drains nextCompleteFrame (conn.readBuf ++ (events.flatMap chunks).flatten)
      frames left closed)
    (hprocess : processFrames crypto (frames.map (⟨·, s.store, engineTime⟩)) s.agent =
      .ok (outs, agent')) :
    ∃ s', deliver crypto token engineTime events s = .ok s' ∧ s'.agent = agent' ∧
      (s'.connections.get? token).map ConnectionState.readBuf =
        if closed.isSome then none else some left := by
  have H := lawful_nextCompleteFrame
  induction events generalizing s conn frames outs with
  | nil =>
    rw [List.flatMap_nil, List.flatten_nil, List.append_nil] at hdrains
    obtain ⟨rfl, rfl, rfl⟩ := hdrains.unique H (.stop hwaits)
    cases hprocess
    exact ⟨s, rfl, rfl, by rw [hconn]; rfl⟩
  | cons reads events ih =>
    obtain ⟨hread, hends⟩ := List.forall_mem_cons.mp hends
    rw [List.flatMap_cons, List.flatten_append, ← List.append_assoc] at hdrains
    obtain ⟨frames₁, left₁, closed₁, hdrains₁⟩ :=
      H.exists_drains (conn.readBuf ++ (chunks reads).flatten)
    cases closed₁ with
    | some reason =>
      -- the connection is closed here, and its other events find nothing
      obtain ⟨rfl, -, rfl⟩ := hdrains.unique H (hdrains₁.append_closed H _)
      obtain ⟨s₁, hs₁, hagent, -, hget⟩ :=
        handleConnectionEvent_frames hconn hread hdrains₁ hprocess
      refine ⟨s₁, ?_, hagent, hget⟩
      rw [deliver, List.foldlM_cons, hs₁]
      exact deliver_of_none (Option.map_eq_none_iff.mp hget) events
    | none =>
      obtain ⟨frames₂, left₂, closed₂, hdrains₂⟩ :=
        H.exists_drains (left₁ ++ (events.flatMap chunks).flatten)
      obtain ⟨rfl, rfl, rfl⟩ := hdrains.unique H (hdrains₁.append_open H _ hdrains₂)
      rw [List.map_append, processFrames_append] at hprocess
      obtain ⟨⟨outs₁, agent₁⟩, hprocess₁, hprocess⟩ := Res.bind_eq_ok.mp hprocess
      obtain ⟨⟨outs₂, agent₂⟩, hprocess₂, hpair⟩ := Res.bind_eq_ok.mp hprocess
      cases hpair
      obtain ⟨s₁, hs₁, rfl, hstore, hget⟩ :=
        handleConnectionEvent_frames hconn hread hdrains₁ hprocess₁
      obtain ⟨conn₁, hconn₁, rfl⟩ := Option.map_eq_some_iff.mp hget
      rw [← hstore] at hprocess₂
      obtain ⟨s', hs', hagent, hget'⟩ := ih hconn₁ hdrains₁.next_left hends hdrains₂ hprocess₂
      refine ⟨s', ?_, hagent, hget'⟩
      rw [deliver, List.foldlM_cons, hs₁]
      exact hs'

/-- **Cuts do not matter.** A stream that is read in one way or in another has the same frames
dispatched, with the same outcome, and leaves the connection closed in both cases or with the same
bytes in its buffer. -/
theorem deliver_independent_of_reads {events events' : List (List ReadResult)}
    (hconn : s.connections.get? token = some conn)
    (hwaits : nextCompleteFrame conn.readBuf = .incomplete)
    (hends : ∀ reads ∈ events, endsStream reads = false)
    (hends' : ∀ reads ∈ events', endsStream reads = false)
    (hsame : (events.flatMap chunks).flatten = (events'.flatMap chunks).flatten)
    (hdrains : Framer.Drains nextCompleteFrame (conn.readBuf ++ (events.flatMap chunks).flatten)
      frames left closed)
    (hprocess : processFrames crypto (frames.map (⟨·, s.store, engineTime⟩)) s.agent =
      .ok (outs, agent')) :
    ∃ s₁ s₂, deliver crypto token engineTime events s = .ok s₁ ∧
      deliver crypto token engineTime events' s = .ok s₂ ∧ s₁.agent = s₂.agent ∧
      (s₁.connections.get? token).map ConnectionState.readBuf =
        (s₂.connections.get? token).map ConnectionState.readBuf := by
  obtain ⟨s₁, hs₁, hagent₁, hget₁⟩ := deliver_frames hconn hwaits hends hdrains hprocess
  rw [hsame] at hdrains
  obtain ⟨s₂, hs₂, hagent₂, hget₂⟩ := deliver_frames hconn hwaits hends' hdrains hprocess
  exact ⟨s₁, s₂, hs₁, hs₂, hagent₁.trans hagent₂.symm, hget₁.trans hget₂.symm⟩

/-! ## Accepting and sweeping -/

theorem get?_of_registerAndInsertConnection {registers : Bool} {now : Nat}
    (h : s.registerAndInsertConnection registers now = .ok s') {conn : ConnectionState}
    (hconn : s'.connections.get? token = some conn) :
    s.connections.get? token = some conn ∨ conn.readBuf = [] := by
  obtain ⟨⟨token', s₁⟩, htoken, h⟩ := Res.bind_eq_ok.mp h
  obtain ⟨-, -, nextToken, rfl⟩ := nextConnectionToken_eq_ok htoken
  dsimp only at h
  split at h
  · cases h
    rw [OrderedMap.get?_insert] at hconn
    split at hconn
    · cases hconn
      exact .inr rfl
    · exact .inl hconn
  · cases h
    exact .inl hconn

/-- What is kept by each new connection is kept by accepting. -/
theorem acceptConnections_induction {P : EventLoop → Prop} {accepts : List AcceptResult}
    (h : s.acceptConnections accepts = .ok s') (hs : P s)
    (hregister : ∀ s s₁ registers now, P s →
      s.registerAndInsertConnection registers now = .ok s₁ → P s₁) : P s' := by
  induction accepts generalizing s with
  | nil =>
    cases h
    exact hs
  | cons result results ih =>
    unfold acceptConnections at h
    split at h
    · cases h
      exact hs
    cases result with
    | error =>
      cases h
      exact hs
    | stream registers now =>
      obtain ⟨s₁, hs₁, h⟩ := Res.bind_eq_ok.mp h
      exact ih h (hregister s s₁ registers now hs hs₁)

/-- Accepting leaves the connections alone that are in the table. -/
theorem get?_acceptConnections {accepts : List AcceptResult}
    (h : s.acceptConnections accepts = .ok s') {conn : ConnectionState}
    (hconn : s.connections.get? token = some conn) :
    s'.connections.get? token = some conn := by
  apply acceptConnections_induction h hconn
  intro s s₁ registers now hconn hs₁
  exact get?_registerAndInsertConnection hs₁ hconn

/-- What accepting adds has an empty buffer. -/
theorem get?_of_acceptConnections {accepts : List AcceptResult}
    (h : s.acceptConnections accepts = .ok s') {conn : ConnectionState} :
    s'.connections.get? token = some conn →
      s.connections.get? token = some conn ∨ conn.readBuf = [] := by
  apply acceptConnections_induction h .inl
  intro s₁ s₂ registers now ih hs₂ hconn
  rcases get?_of_registerAndInsertConnection hs₂ hconn with hconn | hnil
  · exact ih hconn
  · exact .inr hnil

theorem get?_of_sweepIdleConnections {now : Nat} {conn : ConnectionState}
    (h : (s.sweepIdleConnections now).connections.get? token = some conn) :
    s.connections.get? token = some conn ∧ now - conn.lastActivity < s.idleTimeout := by
  rw [get?_sweepIdleConnections] at h
  simpa using Option.filter_eq_some_iff.mp h

end EventLoop

end SnmpAgent
