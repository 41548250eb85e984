import SnmpAgent.Lib.Mailbox
import SnmpAgent.Transport.Steps

/-!
# Commands from application threads (`lib.rs`, `transport/event_loop.rs`)

Applications hold clones of `Agent`. `Agent::set` goes through `CommandSender::send`, which puts a
command into the channel and then wakes the loop; the drop of the last clone sends `Shutdown` the
same way and joins the thread of the loop. This is the mailbox of `Lib/Mailbox` with the event loop
as its consumer: `set` is `push` and `wake`, `Drop` is `drop`, `pushStop`, `wake` and `join`, and
`drain_commands` is a `tryRecv` for each command.

Threads and loop take turns in any order. The loop in their midst does what the event loop does by
itself (`replay_eq_steps`), where each drain is one event with the commands that it took.
-/

namespace SnmpAgent
open Rust Mailbox

/-! ## The loop as a consumer -/

/-- What `Agent::set` asks for. -/
abbrev Update := Oid × Value

def Update.command (update : Update) : Command := .setValue update.1 update.2

def Store.apply (store : Store) (updates : List Update) : Store :=
  updates.foldl (fun store update => store.set update.1 update.2) store

theorem Store.apply_append (store : Store) (updates updates' : List Update) :
    store.apply (updates ++ updates') = (store.apply updates).apply updates' :=
  List.foldl_append

/-- The value that the last of the updates gives to an object. -/
def latest (updates : List Update) (oid : Oid) : Option Value :=
  (updates.reverse.find? fun update => decide (update.1 = oid)).map Prod.snd

/-- A store holds the latest values. -/
theorem Store.get_apply (store : Store) (updates : List Update) (oid : Oid) :
    (store.apply updates).get oid = (latest updates oid).or (store.get oid) := by
  induction updates using List.reverseRecOn with
  | nil => rfl
  | append_singleton updates update ih =>
    rw [apply_append]
    refine Eq.trans (OrderedMap.get?_insert ..) ?_
    rw [latest, List.reverse_append, List.reverse_singleton, List.singleton_append,
      List.find?_cons]
    by_cases h : oid = update.1
    · simp [h]
    · rw [if_neg h, decide_eq_false (Ne.symm h)]
      exact ih

namespace EventLoop

/-- What the loop does of its own between two drains of the channel. -/
inductive Chore where
  | accept (accepts : List AcceptResult)
  | serve (token : Nat) (engineTime : UInt32) (reads : List ReadResult) (writes : List Bool)
  | sweep (now : Nat)

def Chore.step : Chore → Step
  | accept accepts => .event (.listener accepts)
  | serve token engineTime reads writes => .event (.connection token engineTime reads writes)
  | sweep now => .sweep now

def receive (s : EventLoop) (update : Update) : EventLoop :=
  { s with store := s.store.set update.1 update.2 }

/-- A loop that panics or does not come back takes no more commands. -/
def consumer (crypto : Crypto) : Consumer Update EventLoop Chore where
  receive := receive
  act s chore := (s.handleStep crypto chore.step).ok?

/-- The agent in its process: the threads that hold clones of it, the channel and the loop. -/
abbrev System (T : Type) := Mailbox.State T Update EventLoop Chore

/-- One entry of the history as the loop sees it. -/
def entryStep : List Update ⊕ Chore → Step
  | .inl batch => .event (.waker (batch.map Update.command) false)
  | .inr chore => chore.step

/-! ## What drains do -/

variable {crypto : Crypto} {s s' : EventLoop}

theorem drainCommands_updates (batch : List Update) (commands : List Command) (disconnected : Bool)
    (store : Store) :
    drainCommands (batch.map Update.command ++ commands) disconnected store =
      drainCommands commands disconnected (store.apply batch) := by
  induction batch generalizing store with
  | nil => rfl
  | cons update batch ih => exact ih _

theorem foldl_receive (batch : List Update) (s : EventLoop) :
    batch.foldl receive s = { s with store := s.store.apply batch } := by
  induction batch generalizing s with
  | nil => rfl
  | cons update batch ih => exact ih _

/-- A drain that goes on to the end of the channel. -/
theorem handleStep_batch (crypto : Crypto) (s : EventLoop) (batch : List Update) :
    s.handleStep crypto (entryStep (.inl batch)) = .ok (batch.foldl receive s) := by
  rw [foldl_receive]
  have h := drainCommands_updates batch [] false s.store
  rw [List.append_nil] at h
  simp only [entryStep, handleStep, handleEvent, h]
  rfl

/-- A drain that comes to a shutdown. -/
theorem handleEvent_shutdown (crypto : Crypto) (s : EventLoop) (batch : List Update) :
    s.handleEvent crypto (.waker (batch.map Update.command ++ [.shutdown]) false) =
      .err .shutdown := by
  simp only [handleEvent, drainCommands_updates]
  rfl

/-- The history of the loop among threads is a course of the event loop. -/
theorem replay_eq_steps {history : List (List Update ⊕ Chore)}
    (h : replay (consumer crypto) s history = some s') :
    (history.map entryStep).foldlM (handleStep crypto) s = .ok s' := by
  induction history generalizing s with
  | nil => exact congrArg Res.ok (Option.some.inj h)
  | cons entry history ih =>
    obtain ⟨s₁, hs₁, h⟩ := Option.bind_eq_some_iff.mp h
    rw [List.map_cons, List.foldlM_cons]
    have hstep : s.handleStep crypto (entryStep entry) = .ok s₁ := by
      cases entry with
      | inl batch =>
        rw [handleStep_batch]
        exact congrArg Res.ok (Option.some.inj hs₁)
      | inr chore => exact Res.ok?_eq_some.mp hs₁
    rw [hstep]
    exact ih h

/-! ## The store -/

theorem store_drainConnectionReadBuffer (s : EventLoop) (token : Nat) (reads : List ReadResult) :
    (s.drainConnectionReadBuffer token reads).1.store = s.store := by
  rw [drainConnectionReadBuffer]
  split <;> rfl

theorem store_dispatchBufferedFrames {token fuel : Nat} {engineTime : UInt32} {writes : List Bool}
    {closed : Bool}
    (h : dispatchBufferedFrames crypto token engineTime fuel writes s = .ok (closed, s')) :
    s'.store = s.store := by
  induction fuel generalizing s writes with
  | zero => cases h
  | succ fuel ih =>
    rw [dispatchBufferedFrames] at h
    split at h
    · cases h
      rfl
    split at h
    · cases h
      rfl
    · cases h
      rfl
    obtain ⟨⟨response, agent⟩, -, h⟩ := Res.bind_eq_ok.mp h
    dsimp only at h
    split at h
    · exact (ih h).trans rfl
    · cases h
      rfl
    · exact (ih h).trans rfl

theorem store_acceptConnections {accepts : List AcceptResult}
    (h : s.acceptConnections accepts = .ok s') : s'.store = s.store := by
  refine acceptConnections_induction (P := fun s₁ => s₁.store = s.store) h rfl ?_
  intro s₁ s₂ registers now hs₁ h
  obtain ⟨⟨token, s₃⟩, htoken, h⟩ := Res.bind_eq_ok.mp h
  obtain ⟨-, -, nextToken, rfl⟩ := nextConnectionToken_eq_ok htoken
  dsimp only at h
  split at h <;> cases h <;> exact hs₁

/-- Nothing that comes from the network changes the store. -/
theorem store_chore {chore : Chore} (h : s.handleStep crypto chore.step = .ok s') :
    s'.store = s.store := by
  cases chore with
  | accept accepts => exact store_acceptConnections h
  | serve token engineTime reads writes =>
    obtain ⟨fuel, closed, s₁, hdispatch, rfl⟩ := handleConnectionEvent_eq_ok h
    have hstore := store_dispatchBufferedFrames hdispatch
    rw [store_drainConnectionReadBuffer] at hstore
    split
    · exact hstore
    · exact hstore
  | sweep now =>
    cases h
    rfl

/-- The store is what the commands made of it. -/
theorem store_replay {history : List (List Update ⊕ Chore)}
    (h : replay (consumer crypto) s history = some s') :
    s'.store = s.store.apply (received history) := by
  induction history generalizing s with
  | nil =>
    cases h
    rfl
  | cons entry history ih =>
    obtain ⟨s₁, hs₁, h⟩ := Option.bind_eq_some_iff.mp h
    rw [ih h]
    cases entry with
    | inl batch =>
      obtain rfl : batch.foldl receive s = s₁ := Option.some.inj hs₁
      rw [foldl_receive]
      exact (Store.apply_append ..).symm
    | inr chore =>
      rw [store_chore (Res.ok?_eq_some.mp hs₁)]
      rfl

/-! ## Threads and loop -/

section
variable {T : Type} [DecidableEq T] (crypto : Crypto) (loop : EventLoop) (t : T)
  (schedule : List (Mailbox.Step T Update Chore))

/-- The agent that was built with this loop and handed to a thread, after these steps. -/
def afterSchedule : System T := Mailbox.run (consumer crypto) schedule (start t loop)

theorem inv_afterSchedule :
    Mailbox.Inv (consumer crypto) loop (afterSchedule crypto loop t schedule) :=
  inv_run (consumer crypto) t loop schedule

omit [DecidableEq T] in
/-- The store is the one at the start with the updates that were taken. -/
theorem store_of_inv {s : System T} (H : Mailbox.Inv (consumer crypto) loop s) :
    s.consumer.state.store = loop.store.apply s.taken := by
  obtain ⟨state, hreplay, hstate⟩ := H.conserved.replays
  rw [hstate, State.taken, Store.apply_append, ← store_replay hreplay]
  exact congrArg EventLoop.store (foldl_receive _ state)

/-- **The loop among threads.** Whatever the threads do and whenever they do it, the loop is where
the event loop would be by itself after its own events and one waker event for each drain. It ends
by a drain that comes to a shutdown, and by nothing else that the threads do. -/
theorem loop_among_threads (crypto : Crypto) (loop : EventLoop) (t : T)
    (schedule : List (Mailbox.Step T Update Chore)) :
    let s := afterSchedule crypto loop t schedule
    ∃ loop', (s.history.map entryStep).foldlM (handleStep crypto) loop = .ok loop' ∧
      match s.consumer with
      | .waiting state | .failed state => state = loop'
      | .draining state batch =>
        loop'.handleEvent crypto (.waker (batch.map Update.command) false) = .ok state
      | .stopped state batch =>
        loop'.handleEvent crypto (.waker (batch.map Update.command ++ [.shutdown]) false) =
          .err .shutdown ∧ state = batch.foldl receive loop' := by
  intro s
  obtain ⟨loop', hreplay, hstate⟩ := (inv_afterSchedule crypto loop t schedule).conserved.replays
  refine ⟨loop', replay_eq_steps hreplay, ?_⟩
  change s.consumer.state = s.consumer.batch.foldl receive loop' at hstate
  cases hconsumer : s.consumer with
  | waiting state | failed state =>
    rw [hconsumer] at hstate
    exact hstate
  | draining state batch =>
    rw [hconsumer] at hstate
    exact (handleStep_batch crypto loop' batch).trans (congrArg Res.ok hstate.symm)
  | stopped state batch =>
    rw [hconsumer] at hstate
    exact ⟨handleEvent_shutdown crypto loop' batch, hstate⟩

/-- **Updates are conserved.** In every state the store is the one at the start with the first of
the updates that were sent, in the order in which they were sent; the others are in the channel. An
update whose `set` came back without an error is one of them. -/
theorem updates_conserved (crypto : Crypto) (loop : EventLoop) (t : T)
    (schedule : List (Mailbox.Step T Update Chore)) :
    let s := afterSchedule crypto loop t schedule
    s.consumer.state.store = loop.store.apply s.taken ∧
      s.taken.map .data ++ s.consumer.mark ++ s.queue = s.sent ∧
      ∀ update ∈ s.accepted, .data update ∈ s.sent := by
  intro s
  have H := inv_afterSchedule crypto loop t schedule
  exact ⟨store_of_inv crypto loop H, H.conserved.sent, H.accepted.accepted⟩

/-- No `set` is under way, and no wake-up of the loop has failed. -/
structure Quiet (s : System T) : Prop where
  idle : ∀ t, (s.threads t).sends = false
  woken : s.missed = false

/-- **Updates arrive.** As long as the agent is in use and the loop is alive, the loop gets by
itself from every quiet state to one in which a GET reads the latest value that any thread has set.
-/
theorem updates_become_visible {s : System T} (hs : s = afterSchedule crypto loop t schedule)
    {state : EventLoop} (hwaiting : s.consumer = .waiting state) (hused : s.handles ≠ [])
    (hquiet : Quiet s) :
    ∃ state' updates, (wakeUp (consumer crypto) s).consumer = .waiting state' ∧
      updates.map .data = s.sent ∧
      ∀ oid, state'.store.get oid = (latest updates oid).or (loop.store.get oid) := by
  have H : Mailbox.Inv (consumer crypto) loop s := hs ▸ inv_afterSchedule crypto loop t schedule
  have hstop : .stop ∉ s.sent := fun h => hused (H.final.stop h).1
  obtain ⟨state', history, hrun, hsent⟩ := H.settles hwaiting hquiet.woken hquiet.idle hstop
  have H' := H.run (.poll :: List.replicate (s.queue.length + 1) .tryRecv)
  rw [← wakeUp, hrun] at H'
  refine ⟨state', received history, by rw [hrun], hsent, fun oid => ?_⟩
  have hstore : state'.store = loop.store.apply (received history ++ []) :=
    store_of_inv crypto loop H'
  rw [hstore, List.append_nil, Store.get_apply]

end

/-- Two threads set one object. The one that sends first wakes the loop last. -/
def twoWriters : List (Mailbox.Step Bool Update Chore) :=
  [.clone false true, .push false (Sample.sysDescr, .integer32 1),
    .push true (Sample.sysDescr, .integer32 2), .wake true true, .wake false true]

theorem updates_become_visible_sample :
    ∃ state, (wakeUp (consumer Sample.crypto)
        (afterSchedule Sample.crypto Sample.eventLoop false twoWriters)).consumer =
          .waiting state ∧
      state.store.get Sample.sysDescr = some (.integer32 2) := by
  have hquiet : Quiet (afterSchedule Sample.crypto Sample.eventLoop false twoWriters) :=
    ⟨fun t => by cases t <;> rfl, rfl⟩
  obtain ⟨state, updates, hstate, hsent, hget⟩ :=
    updates_become_visible Sample.crypto Sample.eventLoop false twoWriters rfl rfl (by decide)
      hquiet
  obtain rfl : updates = [(Sample.sysDescr, .integer32 1), (Sample.sysDescr, .integer32 2)] :=
    (List.map_injective_iff.mpr fun _ _ => Message.data.inj) hsent
  exact ⟨state, hstate, hget Sample.sysDescr⟩

/-- **Shutdown.** `Shutdown` is sent when the last clone is dropped, and nothing is sent behind it:
a loop that has ended by it has made every update that was sent, and so every one whose `set` came
back without an error. The thread that drops the last clone is let go by the loop alone, unless its
own wake-up or an earlier one failed. -/
theorem shutdown_behind_updates {T : Type} [DecidableEq T] (crypto : Crypto) (loop : EventLoop)
    (t : T) (schedule : List (Mailbox.Step T Update Chore)) :
    let s := afterSchedule crypto loop t schedule
    (s.consumer.isStopped → ∃ updates, s.sent = updates.map .data ++ [.stop] ∧ s.handles = [] ∧
      s.consumer.state.store = loop.store.apply updates ∧ ∀ update ∈ s.accepted, update ∈ updates) ∧
    ∀ t', s.threads t' = .joining → s.missed = false →
      (Mailbox.step (consumer crypto) (wakeUp (consumer crypto) s) (.join t')).threads t' =
        .idle := by
  intro s
  have H : Mailbox.Inv (consumer crypto) loop s := inv_afterSchedule crypto loop t schedule
  refine ⟨fun hstopped => ?_, fun t' ht' hmissed => H.finishes ht' hmissed⟩
  obtain ⟨hsent, -⟩ := H.sent_of_stopped hstopped
  have hstop : .stop ∈ s.sent := by
    rw [hsent]
    exact List.mem_append_right _ (List.mem_singleton_self _)
  refine ⟨s.taken, hsent, (H.final.stop hstop).1, store_of_inv crypto loop H, fun update h => ?_⟩
  have hmem := H.accepted.accepted update h
  rw [hsent] at hmem
  simpa using hmem

/-- The two threads drop their clones before the loop has looked at the channel. -/
def twoWritersLeave : List (Mailbox.Step Bool Update Chore) :=
  twoWriters ++ [.drop true, .drop false, .pushStop false, .wake false true]

theorem shutdown_behind_updates_sample :
    let s := afterSchedule Sample.crypto Sample.eventLoop false
      (twoWritersLeave ++ [.poll, .tryRecv, .tryRecv, .tryRecv])
    s.consumer.isStopped ∧
      s.consumer.state.store.get Sample.sysDescr = some (.integer32 2) ∧
      (Mailbox.step (consumer Sample.crypto) (wakeUp (consumer Sample.crypto)
        (afterSchedule Sample.crypto Sample.eventLoop false twoWritersLeave))
        (.join false)).threads false = .idle := by
  intro s
  have H := shutdown_behind_updates Sample.crypto Sample.eventLoop false
    (twoWritersLeave ++ [.poll, .tryRecv, .tryRecv, .tryRecv])
  obtain ⟨updates, hsent, -, hstore, -⟩ := H.1 rfl
  obtain rfl : updates = [(Sample.sysDescr, .integer32 1), (Sample.sysDescr, .integer32 2)] :=
    (List.map_injective_iff.mpr fun _ _ => Message.data.inj) (List.append_cancel_right hsent.symm)
  refine ⟨rfl, ?_, ?_⟩
  · exact (congrArg (Store.get · Sample.sysDescr) hstore).trans rfl
  · exact (shutdown_behind_updates Sample.crypto Sample.eventLoop false twoWritersLeave).2 false rfl
      rfl

end EventLoop

end SnmpAgent
