import Mathlib.Algebra.Group.Action.Defs
import Mathlib.Data.Finset.Card
import Mathlib.Data.Nat.ModEq
import Mathlib.Algebra.Order.BigOperators.Group.List
import SnmpAgent.Transport.Accounting
import SnmpAgent.Transport.Framing

/-!
# The event loop (`transport/event_loop.rs`)

The listener, the command channel and the connections. What the operating system answers (accepted
streams, reads, writes, the clock) comes with each event. Loops of the source that the types do not
bound run on fuel and end in `Halt.diverges` without it; the results below say that they never do.
`EventLoop.Inv` is what holds of the connection table at each return to `poll`.
-/

namespace SnmpAgent
open Rust

/-! ## State -/

inductive Command where
  | setValue (oid : Oid) (value : Value)
  | shutdown

/-- The bytes received and not yet dispatched, and the instant of the last read. -/
structure ConnectionState where
  readBuf : Bytes
  lastActivity : Nat

/-- Times in seconds. -/
structure ConnectionTimeoutConfig where
  normalTimeout : Nat := 300
  pressureTimeout : Nat := 30
  pressureHeadroom : Nat := 5

structure EventLoop where
  nextToken : Nat
  connections : OrderedMap Nat ConnectionState
  maxConnections : Nat
  timeoutConfig : ConnectionTimeoutConfig
  store : Store
  /-- The inputs of every dispatch, with the counters, and the salts of the process. -/
  agent : Agent

/-- Why the loop does not go on. -/
inductive Halt where
  | shutdown
  | diverges
  deriving DecidableEq

def firstConnToken : Nat := 2

namespace EventLoop

def new (agent : Agent) (maxConnections : Nat) (timeoutConfig : ConnectionTimeoutConfig) :
    EventLoop where
  nextToken := firstConnToken
  connections := .empty
  maxConnections := maxConnections
  timeoutConfig := timeoutConfig
  store := .new
  agent := agent

/-! ## Commands -/

/-- The commands in the channel, up to a shutdown. The flag says whether the loop should exit. -/
def drainCommands : List Command → (disconnected : Bool) → Store → Store × Bool
  | [], disconnected, store => (store, disconnected)
  | .setValue oid value :: channel, disconnected, store =>
    drainCommands channel disconnected (store.set oid value)
  | .shutdown :: _, _, store => (store, true)

/-! ## Accepting -/

/-- `next_token` after one step: it wraps around and skips the tokens of listener and waker. -/
def bumpToken (nextToken : Nat) : Nat :=
  let nextToken := (nextToken + 1) % usizeSize
  if nextToken < firstConnToken then firstConnToken else nextToken

def nextConnectionToken : (fuel : Nat) → EventLoop → Res Halt (Nat × EventLoop)
  | 0, _ => .err .diverges
  | fuel + 1, s =>
    let candidate := s.nextToken
    let s := { s with nextToken := bumpToken s.nextToken }
    if firstConnToken ≤ candidate ∧ s.connections.get? candidate = none then .ok (candidate, s)
    else nextConnectionToken fuel s

/-- A token is used up even if the stream cannot be registered. -/
def registerAndInsertConnection (registers : Bool) (now : Nat) (s : EventLoop) :
    Res Halt EventLoop := do
  let (token, s) ← nextConnectionToken (s.connections.entries.length + 2) s
  if registers then .ok { s with connections := s.connections.insert token ⟨[], now⟩ } else .ok s

/-- The answers of `accept`. No answer is `WouldBlock`. -/
inductive AcceptResult where
  | stream (registers : Bool) (now : Nat)
  | error

def acceptConnections : List AcceptResult → EventLoop → Res Halt EventLoop
  | [], s => .ok s
  | result :: results, s =>
    if s.connections.entries.length ≥ s.maxConnections then .ok s
    else
      match result with
      | .error => .ok s
      | .stream registers now => do
        let s ← registerAndInsertConnection registers now s
        acceptConnections results s

/-! ## Reading and dispatching -/

/-- The answers of `read`. No answer is `WouldBlock`, and no bytes are the end of the stream. -/
inductive ReadResult where
  | ok (chunk : Bytes) (now : Nat)
  | error

/-- The flag says whether the connection was closed or broken. -/
def drainReads : List ReadResult → ConnectionState → ConnectionState × Bool
  | [], conn => (conn, false)
  | .ok [] _ :: _, conn => (conn, true)
  | .ok chunk now :: reads, conn => drainReads reads ⟨conn.readBuf ++ chunk, now⟩
  | .error :: _, conn => (conn, true)

def drainConnectionReadBuffer (token : Nat) (reads : List ReadResult) (s : EventLoop) :
    EventLoop × Bool :=
  match s.connections.get? token with
  | none => (s, false)
  | some conn =>
    let (conn, closed) := drainReads reads conn
    ({ s with connections := s.connections.insert token conn }, closed)

/-- The flag says whether the connection should be closed. `writes` tells which responses can be
written, all of them where it ends. -/
def dispatchBufferedFrames (crypto : Crypto) (token : Nat) (engineTime : UInt32) :
    (fuel : Nat) → (writes : List Bool) → EventLoop → Res Halt (Bool × EventLoop)
  | 0, _, _ => .err .diverges
  | fuel + 1, writes, s =>
    match s.connections.get? token with
    | none => .ok (false, s)
    | some conn =>
      match nextCompleteFrame conn.readBuf with
      | .incomplete => .ok (false, s)
      | .close _ => .ok (true, s)
      | .complete berFrame readBuf => do
        let connections := s.connections.insert token { conn with readBuf }
        let (response, agent) ←
          (processSnmpv3Request crypto berFrame s.store (s.agent.atTime engineTime)).mapErr nofun
        let s := { s with connections, agent }
        match response, writes with
        | none, _ => dispatchBufferedFrames crypto token engineTime fuel writes s
        | some _, false :: _ => .ok (true, s)
        | some _, _ => dispatchBufferedFrames crypto token engineTime fuel writes.tail s

def closeAndDeregisterConnection (token : Nat) (s : EventLoop) : EventLoop :=
  { s with connections := s.connections.erase token }

def handleConnectionEvent (crypto : Crypto) (token : Nat) (engineTime : UInt32)
    (reads : List ReadResult) (writes : List Bool) (s : EventLoop) : Res Halt EventLoop := do
  let (s, closedDuringDrain) := s.drainConnectionReadBuffer token reads
  let buffered := ((s.connections.get? token).elim 0 (·.readBuf.length))
  let (closedDuringDispatch, s) ←
    dispatchBufferedFrames crypto token engineTime (buffered + 1) writes s
  if closedDuringDrain || closedDuringDispatch then .ok (s.closeAndDeregisterConnection token)
  else .ok s

/-! ## Idle connections -/

/-- The timeout that applies now. The sum wraps in a release build. -/
def idleTimeout (s : EventLoop) : Nat :=
  if (s.connections.entries.length + s.timeoutConfig.pressureHeadroom) % usizeSize ≥
    s.maxConnections then
    s.timeoutConfig.pressureTimeout
  else s.timeoutConfig.normalTimeout

def sweepIdleConnections (now : Nat) (s : EventLoop) : EventLoop :=
  let stale := s.connections.entries.filter fun (_, conn) => now - conn.lastActivity ≥ s.idleTimeout
  { s with connections := (stale.map Prod.fst).foldl OrderedMap.erase s.connections }

/-! ## The loop -/

inductive Event where
  | listener (accepts : List AcceptResult)
  | waker (channel : List Command) (disconnected : Bool)
  | connection (token : Nat) (engineTime : UInt32) (reads : List ReadResult) (writes : List Bool)

def handleEvent (crypto : Crypto) (s : EventLoop) : Event → Res Halt EventLoop
  | .listener accepts => acceptConnections accepts s
  | .waker channel disconnected =>
    let (store, exit) := drainCommands channel disconnected s.store
    if exit then .err .shutdown else .ok { s with store }
  | .connection token engineTime reads writes =>
    handleConnectionEvent crypto token engineTime reads writes s

/-- The events of one return of `poll`, and the time of the sweep that follows them. -/
structure Poll where
  events : List Event
  now : Nat

def handlePoll (crypto : Crypto) (s : EventLoop) (poll : Poll) : Res Halt EventLoop := do
  let s ← poll.events.foldlM (handleEvent crypto) s
  .ok (s.sweepIdleConnections poll.now)

/-- The state at the call of `poll` that follows these. -/
def run (crypto : Crypto) (polls : List Poll) (s : EventLoop) : Res Halt EventLoop :=
  polls.foldlM (handlePoll crypto) s

/-! ## Tokens -/

theorem firstConnToken_le_bumpToken (n : Nat) : firstConnToken ≤ bumpToken n := by
  simp only [bumpToken]
  split <;> omega

theorem bumpToken_of_lt {n : Nat} (hlo : 1 ≤ n) (hhi : n + 1 < usizeSize) :
    bumpToken n = n + 1 := by
  rw [bumpToken, Nat.mod_eq_of_lt hhi]
  exact if_neg (Nat.not_lt.mpr (Nat.succ_le_succ hlo))

theorem bumpToken_lt (n : Nat) : bumpToken n < usizeSize := by
  rw [bumpToken]
  by_cases h : (n + 1) % usizeSize < firstConnToken
  · rw [if_pos h]
    decide
  · rw [if_neg h]
    exact Nat.mod_lt _ (by decide)

/-- From the first token on the counter goes round the tokens that are not reserved. -/
theorem iterate_bumpToken {n : Nat} (hlo : 2 ≤ n) (hhi : n < usizeSize) (i : Nat) :
    bumpToken^[i] n = 2 + (n - 2 + i) % (usizeSize - 2) := by
  induction i with
  | zero =>
    rw [Function.iterate_zero_apply, Nat.add_zero, Nat.mod_eq_of_lt (by omega)]
    omega
  | succ i ih =>
    have hmod := Nat.mod_lt (n - 2 + i) (by decide : 0 < usizeSize - 2)
    rw [Function.iterate_succ_apply', ih, ← Nat.add_assoc, Nat.add_mod (n - 2 + i) 1]
    generalize (n - 2 + i) % (usizeSize - 2) = r at hmod
    by_cases hr : r + 1 < usizeSize - 2
    · rw [bumpToken_of_lt (by omega) (by omega), (by decide : 1 % (usizeSize - 2) = 1),
        Nat.mod_eq_of_lt hr]
      omega
    · obtain rfl : r = usizeSize - 3 := by
        simp only [usizeSize] at hmod hr ⊢
        omega
      decide

theorem returns_nextConnectionToken (fuel : Nat) (s : EventLoop) :
    (s.nextConnectionToken fuel).Returns := by
  induction fuel generalizing s with
  | zero => exact Res.returns_err _
  | succ fuel ih =>
    rw [nextConnectionToken]
    dsimp only
    split
    · exact Res.returns_ok _
    · exact ih _

/-- A loop that does not end has seen only tokens that are reserved or taken. -/
theorem taken_of_diverges {fuel : Nat} {s : EventLoop} {h : Halt}
    (hrun : s.nextConnectionToken fuel = .err h) {i : Nat} (hi : i < fuel)
    (hlo : 2 ≤ bumpToken^[i] s.nextToken) :
    ∃ conn, s.connections.get? (bumpToken^[i] s.nextToken) = some conn := by
  induction fuel generalizing s i with
  | zero => omega
  | succ fuel ih =>
    rw [nextConnectionToken] at hrun
    dsimp only at hrun
    split at hrun
    · cases hrun
    rename_i htaken
    cases i with
    | zero => exact Option.ne_none_iff_exists'.mp fun hnone => htaken ⟨hlo, hnone⟩
    | succ i =>
      rw [Function.iterate_succ_apply] at hlo ⊢
      exact ih hrun (by omega) hlo

/-- A token is found before more tokens have been looked at than there are connections. -/
theorem exists_nextConnectionToken (s : EventLoop) (hlen : s.connections.entries.length ≤ 2 ^ 32) :
    ∃ r, s.nextConnectionToken (s.connections.entries.length + 2) = .ok r := by
  have hne (h : Halt) : s.nextConnectionToken (s.connections.entries.length + 2) ≠ .err h := by
    intro hrun
    let candidate (i : Nat) := bumpToken^[i] (bumpToken s.nextToken)
    have hcandidate (i : Nat) : candidate i =
        2 + (bumpToken s.nextToken - 2 + i) % (usizeSize - 2) :=
      iterate_bumpToken (firstConnToken_le_bumpToken _) (bumpToken_lt _) i
    have hinj : Set.InjOn candidate (Finset.range (s.connections.entries.length + 1)) := by
      intro i hi j hj hij
      simp only [Finset.coe_range, Set.mem_Iio] at hi hj
      rw [hcandidate, hcandidate] at hij
      have hmod : i % (usizeSize - 2) = j % (usizeSize - 2) :=
        Nat.ModEq.add_left_cancel' _ (Nat.add_left_cancel hij)
      rwa [Nat.mod_eq_of_lt (by simp only [usizeSize]; omega),
        Nat.mod_eq_of_lt (by simp only [usizeSize]; omega)] at hmod
    have hsub : (Finset.range (s.connections.entries.length + 1)).image candidate ⊆
        (s.connections.entries.map Prod.fst).toFinset := by
      intro token htoken
      obtain ⟨i, hi, rfl⟩ := Finset.mem_image.mp htoken
      have hi := Finset.mem_range.mp hi
      have hlo : 2 ≤ candidate i := by rw [hcandidate]; omega
      obtain ⟨conn, hconn⟩ := taken_of_diverges hrun (i := i + 1) (by omega) hlo
      exact List.mem_toFinset.mpr (List.mem_map.mpr ⟨_, OrderedMap.mem_entries.mpr hconn, rfl⟩)
    have hcard := Finset.card_le_card hsub
    rw [Finset.card_image_of_injOn hinj, Finset.card_range] at hcard
    have := hcard.trans (List.toFinset_card_le _)
    rw [List.length_map] at this
    omega
  cases h : s.nextConnectionToken (s.connections.entries.length + 2) with
  | ok r => exact ⟨r, rfl⟩
  | err e => exact absurd h (hne e)
  | panic =>
    exact absurd h (returns_nextConnectionToken _ s)

theorem nextConnectionToken_eq_ok {fuel token : Nat} {s s' : EventLoop}
    (h : s.nextConnectionToken fuel = .ok (token, s')) :
    2 ≤ token ∧ s.connections.get? token = none ∧ ∃ nextToken, s' = { s with nextToken } := by
  induction fuel generalizing s with
  | zero => cases h
  | succ fuel ih =>
    rw [nextConnectionToken] at h
    dsimp only at h
    split at h
    · rename_i hfree
      cases h
      exact ⟨hfree.1, hfree.2, _, rfl⟩
    · obtain ⟨hlo, hfree, nextToken, rfl⟩ := ih h
      exact ⟨hlo, hfree, nextToken, rfl⟩

/-- A new connection takes the place of no other. -/
theorem get?_registerAndInsertConnection {registers : Bool} {now : Nat} {s s' : EventLoop}
    (h : s.registerAndInsertConnection registers now = .ok s') {token : Nat}
    {conn : ConnectionState}
    (hconn : s.connections.get? token = some conn) : s'.connections.get? token = some conn := by
  obtain ⟨⟨token', s₁⟩, htoken, h⟩ := Res.bind_eq_ok.mp h
  obtain ⟨-, hfree, nextToken, rfl⟩ := nextConnectionToken_eq_ok htoken
  dsimp only at h
  split at h
  · cases h
    have hne : token ≠ token' := by
      rintro rfl
      rw [hfree] at hconn
      cases hconn
    rw [OrderedMap.get?_insert, if_neg hne, hconn]
  · cases h
    exact hconn

/-! ## Runs that go on -/

/-- The computation ends, and what it returns has the property. -/
def Keeps {α : Type} (x : Res Halt α) (P : α → Prop) : Prop :=
  x ≠ .err .diverges ∧ ∀ a, x = .ok a → P a

section
variable {α β : Type} {x : Res Halt α} {P : α → Prop}

theorem Keeps.ok {a : α} (h : P a) : Keeps (.ok a) P := ⟨nofun, by rintro _ ⟨⟩; exact h⟩

theorem Keeps.panic : Keeps (.panic : Res Halt α) P := ⟨nofun, nofun⟩

theorem Keeps.bind {f : α → Res Halt β} {Q : β → Prop} (hx : Keeps x P)
    (hf : ∀ a, P a → Keeps (f a) Q) :
    Keeps (x >>= f) Q := by
  cases x with
  | ok a => exact hf a (hx.2 a rfl)
  | err e => exact ⟨fun h => hx.1 (congrArg Res.err (Res.err.inj h)), nofun⟩
  | panic => exact .panic

theorem Keeps.foldlM {ι : Type} {f : α → ι → Res Halt α} (hf : ∀ a i, P a → Keeps (f a i) P)
    (is : List ι) {a : α} (ha : P a) : Keeps (is.foldlM f a) P := by
  induction is generalizing a with
  | nil => exact .ok ha
  | cons i is ih =>
    rw [List.foldlM_cons]
    exact (hf a i ha).bind fun _ => ih

end

/-! ## The connection table -/

/-- The connection table, while the buffer of one connection may be in use. -/
structure Inv (max : Nat) (inUse : Option Nat) (s : EventLoop) : Prop where
  max_eq : s.maxConnections = max
  length_le : s.connections.entries.length ≤ max
  token_ge : ∀ token conn, s.connections.get? token = some conn → 2 ≤ token
  buffer_lt : ∀ token conn, s.connections.get? token = some conn → inUse ≠ some token →
    conn.readBuf.length < 65535

section
variable {max : Nat} {inUse : Option Nat} {s : EventLoop}

theorem Inv.use (H : s.Inv max none) (token : Nat) : s.Inv max (some token) :=
  ⟨H.max_eq, H.length_le, H.token_ge, fun token conn h _ => H.buffer_lt token conn h nofun⟩

/-- The fields that are not about connections. -/
theorem Inv.congr {s' : EventLoop} (H : s.Inv max inUse)
    (hmax : s'.maxConnections = s.maxConnections)
    (hconnections : s'.connections = s.connections) : s'.Inv max inUse := by
  refine ⟨hmax.trans H.max_eq, ?_, ?_, ?_⟩ <;> rw [hconnections]
  exacts [H.length_le, H.token_ge, H.buffer_lt]

/-- The buffer in use is replaced. -/
theorem Inv.setBuffer {token : Nat} {conn : ConnectionState} (H : s.Inv max (some token))
    (hconn : s.connections.get? token = some conn) (conn' : ConnectionState) (agent : Agent) :
    Inv max (some token) { s with connections := s.connections.insert token conn', agent } := by
  refine ⟨H.max_eq, (OrderedMap.length_insert_of_get? hconn conn').trans_le H.length_le, ?_, ?_⟩
  · intro token' conn'' h
    rw [OrderedMap.get?_insert] at h
    split at h
    · rename_i heq
      exact heq ▸ H.token_ge _ _ hconn
    · exact H.token_ge _ _ h
  · intro token' conn'' h hne
    rw [OrderedMap.get?_insert, if_neg fun h => hne (congrArg some h.symm)] at h
    exact H.buffer_lt _ _ h hne

/-- The buffer in use is short again. -/
theorem Inv.release {token : Nat} (H : s.Inv max (some token))
    (h : ∀ conn, s.connections.get? token = some conn → conn.readBuf.length < 65535) :
    s.Inv max none := by
  refine ⟨H.max_eq, H.length_le, H.token_ge, fun token' conn hconn _ => ?_⟩
  by_cases heq : token' = token
  · exact h conn (heq ▸ hconn)
  · exact H.buffer_lt token' conn hconn fun h => heq (Option.some.inj h).symm

/-- Fewer connections. -/
theorem Inv.sub {connections : OrderedMap Nat ConnectionState} (H : s.Inv max inUse)
    (hlen : connections.entries.length ≤ s.connections.entries.length)
    (hget : ∀ token conn, connections.get? token = some conn →
      s.connections.get? token = some conn) :
    Inv max inUse { s with connections } :=
  ⟨H.max_eq, hlen.trans H.length_le, fun token conn h => H.token_ge token conn (hget token conn h),
    fun token conn h => H.buffer_lt token conn (hget token conn h)⟩

theorem get?_closeAndDeregisterConnection (s : EventLoop) (token token' : Nat) :
    (s.closeAndDeregisterConnection token).connections.get? token' =
      if token' = token then none else s.connections.get? token' := OrderedMap.get?_erase ..

theorem Inv.close {token : Nat} (H : s.Inv max (some token)) :
    (s.closeAndDeregisterConnection token).Inv max none := by
  refine Inv.release (H.sub (OrderedMap.length_erase_le ..) fun token' conn h => ?_) fun conn h =>
    ?_
  · rw [OrderedMap.get?_erase] at h
    split at h
    · cases h
    · exact h
  · rw [get?_closeAndDeregisterConnection, if_pos rfl] at h
    cases h

/-! ## Sweeps -/

theorem get?_foldl_erase (connections : OrderedMap Nat ConnectionState) (tokens : List Nat)
    (token : Nat) :
    (tokens.foldl OrderedMap.erase connections).get? token =
      if token ∈ tokens then none else connections.get? token := by
  induction tokens generalizing connections with
  | nil => simp
  | cons t tokens ih =>
    rw [List.foldl_cons, ih, OrderedMap.get?_erase]
    by_cases h : token = t <;> simp [h]

theorem length_foldl_erase_le (connections : OrderedMap Nat ConnectionState) (tokens : List Nat) :
    (tokens.foldl OrderedMap.erase connections).entries.length ≤ connections.entries.length := by
  induction tokens generalizing connections with
  | nil => exact Nat.le_refl _
  | cons t tokens ih => exact (ih _).trans (OrderedMap.length_erase_le ..)

/-- A sweep removes the idle connections. -/
theorem get?_sweepIdleConnections (s : EventLoop) (now token : Nat) :
    (s.sweepIdleConnections now).connections.get? token =
      (s.connections.get? token).filter fun conn => now - conn.lastActivity < s.idleTimeout := by
  rw [sweepIdleConnections]
  dsimp only
  rw [get?_foldl_erase]
  have hmem : token ∈ ((s.connections.entries.filter fun (_, conn) =>
      now - conn.lastActivity ≥ s.idleTimeout).map Prod.fst) ↔
      ∃ conn, s.connections.get? token = some conn ∧ now - conn.lastActivity ≥ s.idleTimeout := by
    simp [OrderedMap.mem_entries]
  cases hconn : s.connections.get? token with
  | none => simp
  | some conn =>
    rw [if_congr hmem rfl rfl]
    simp only [hconn, Option.some.injEq, exists_eq_left', Option.filter_some, decide_eq_true_eq]
    by_cases hidle : now - conn.lastActivity ≥ s.idleTimeout
    · rw [if_pos hidle, if_neg (by omega)]
    · rw [if_neg hidle, if_pos (by omega)]

theorem Inv.sweep (H : s.Inv max inUse) (now : Nat) :
    (s.sweepIdleConnections now).Inv max inUse := by
  refine H.sub (length_foldl_erase_le ..) fun token conn h => ?_
  have hget := get?_sweepIdleConnections s now token
  rw [sweepIdleConnections] at hget
  exact (Option.filter_eq_some_iff.mp (hget.symm.trans h)).1

/-! ## Events -/

theorem keeps_registerAndInsertConnection (hmax : max ≤ 2 ^ 32) (H : s.Inv max none)
    (hroom : s.connections.entries.length < max) (registers : Bool) (now : Nat) :
    Keeps (s.registerAndInsertConnection registers now) (Inv max none) := by
  obtain ⟨⟨token, s'⟩, hr⟩ := exists_nextConnectionToken s (by omega)
  obtain ⟨hlo, -, nextToken, rfl⟩ := nextConnectionToken_eq_ok hr
  rw [registerAndInsertConnection, hr, Res.ok_bind]
  dsimp only
  split
  · refine .ok ⟨H.max_eq, (OrderedMap.length_insert_le ..).trans hroom, ?_, ?_⟩ <;> intro token'
      conn h
    · rw [OrderedMap.get?_insert] at h
      split at h
      · rename_i heq
        exact heq ▸ hlo
      · exact H.token_ge token' conn h
    · rw [OrderedMap.get?_insert] at h
      split at h
      · cases h
        exact fun _ => (by decide : 0 < 65535)
      · exact H.buffer_lt token' conn h
  · exact .ok (H.congr rfl rfl)

theorem keeps_acceptConnections (hmax : max ≤ 2 ^ 32) (H : s.Inv max none)
    (accepts : List AcceptResult) :
    Keeps (s.acceptConnections accepts) (Inv max none) := by
  induction accepts generalizing s with
  | nil => exact .ok H
  | cons result results ih =>
    unfold acceptConnections
    split
    · exact .ok H
    rename_i hroom
    cases result with
    | error => exact .ok H
    | stream registers now =>
      have hroom : s.connections.entries.length < max := H.max_eq ▸ Nat.not_le.mp hroom
      exact (keeps_registerAndInsertConnection hmax H hroom registers now).bind fun _ => ih

theorem Inv.drain (H : s.Inv max none) (token : Nat) (reads : List ReadResult) :
    (s.drainConnectionReadBuffer token reads).1.Inv max (some token) := by
  rw [drainConnectionReadBuffer]
  split
  · exact H.use token
  · exact (H.use token).setBuffer ‹_› _ s.agent

/-- The loop over the frames ends, and leaves a short buffer if the connection stays open. -/
theorem keeps_dispatchBufferedFrames (crypto : Crypto) {token : Nat} (engineTime : UInt32)
    {fuel : Nat} (writes : List Bool) (H : s.Inv max (some token))
    (hfuel : ∀ conn, s.connections.get? token = some conn → conn.readBuf.length < fuel)
    (h0 : 0 < fuel) :
    Keeps (dispatchBufferedFrames crypto token engineTime fuel writes s) fun r =>
      r.2.Inv max (some token) ∧ (r.1 = false → r.2.Inv max none) := by
  induction fuel generalizing s writes with
  | zero => omega
  | succ fuel ih =>
    rw [dispatchBufferedFrames]
    split
    · rename_i hnone
      exact .ok ⟨H, fun _ => H.release fun conn h => by rw [hnone] at h; cases h⟩
    rename_i conn hconn
    split
    · rename_i hincomplete
      refine .ok ⟨H, fun _ => H.release fun conn' h => ?_⟩
      cases hconn.symm.trans h
      exact length_of_incomplete hincomplete
    · exact .ok ⟨H, nofun⟩
    rename_i berFrame readBuf hframe
    have hshorter := lawful_nextCompleteFrame.length_lt hframe
    have hlen := hfuel conn hconn
    refine Keeps.bind (P := fun _ => True) ?_ fun ⟨response, agent⟩ _ => ?_
    · cases processSnmpv3Request crypto berFrame s.store (s.agent.atTime engineTime) with
      | ok r => exact .ok trivial
      | err e => exact nomatch e
      | panic => exact .panic
    have H' := H.setBuffer hconn { conn with readBuf } agent
    have hfuel' (conn' : ConnectionState)
        (h : (s.connections.insert token { conn with readBuf }).get? token = some conn') :
        conn'.readBuf.length < fuel := by
      rw [OrderedMap.get?_insert, if_pos rfl] at h
      cases h
      exact (by omega : readBuf.length < fuel)
    dsimp only
    split
    · exact ih writes H' hfuel' (by omega)
    · exact .ok ⟨H', nofun⟩
    · exact ih writes.tail H' hfuel' (by omega)

/-- The frames that a connection hands to the dispatcher are those that the framer finds, if every
response can be written. -/
theorem dispatchBufferedFrames_frames {crypto : Crypto} {token : Nat} {engineTime : UInt32}
    {conn : ConnectionState} {frames : List Bytes} {left : Bytes} {closed : Option String}
    (hdrains : Framer.Drains nextCompleteFrame conn.readBuf frames left closed)
    (hconn : s.connections.get? token = some conn) {fuel : Nat} (hfuel : conn.readBuf.length < fuel)
    {outs : List (Option Bytes)} {agent' : Agent}
    (hprocess : processFrames crypto (frames.map (⟨·, s.store, engineTime⟩)) s.agent =
      .ok (outs, agent')) :
    ∃ s', dispatchBufferedFrames crypto token engineTime fuel [] s = .ok (closed.isSome, s') ∧
      s'.agent = agent' ∧ s'.store = s.store ∧
      s'.connections.get? token = some { conn with readBuf := left } := by
  generalize hbuf : conn.readBuf = buf at hdrains
  induction hdrains generalizing s fuel conn outs with
  | stop h | close h =>
    obtain ⟨fuel, rfl⟩ := Nat.exists_eq_succ_of_ne_zero (by omega : fuel ≠ 0)
    cases hprocess
    refine ⟨s, ?_, rfl, rfl, by rw [hconn, ← hbuf]⟩
    simp only [dispatchBufferedFrames, hconn, hbuf, h]
    rfl
  | @frame buf berFrame rest left frames closed h _ ih =>
    obtain ⟨fuel, rfl⟩ := Nat.exists_eq_succ_of_ne_zero (by omega : fuel ≠ 0)
    rw [hbuf] at hfuel
    rw [List.map_cons, processFrames, Res.bind_eq_ok] at hprocess
    obtain ⟨⟨response, agent⟩, hone, hrest⟩ := hprocess
    obtain ⟨⟨outs', agent''⟩, hrest, hpair⟩ := Res.bind_eq_ok.mp hrest
    cases hpair
    have hshorter := lawful_nextCompleteFrame.length_lt h
    let s₁ : EventLoop :=
      { s with connections := s.connections.insert token { conn with readBuf := rest }, agent }
    have hconn₁ : s₁.connections.get? token = some { conn with readBuf := rest } := by
      rw [OrderedMap.get?_insert, if_pos rfl]
    have hfuel₁ : ({ conn with readBuf := rest } : ConnectionState).readBuf.length < fuel :=
      (by omega : rest.length < fuel)
    obtain ⟨s', hs', hagent, hstore, hget⟩ := ih hconn₁ hfuel₁ hrest rfl
    refine ⟨s', ?_, hagent, hstore, hget⟩
    simp only [dispatchBufferedFrames, hconn, hbuf, h, hone, Res.mapErr_ok, Res.ok_bind]
    cases response with
    | none => exact hs'
    | some bytes => exact hs'

theorem keeps_handleConnectionEvent (crypto : Crypto) (H : s.Inv max none) (token : Nat)
    (engineTime : UInt32) (reads : List ReadResult) (writes : List Bool) :
    Keeps (handleConnectionEvent crypto token engineTime reads writes s) (Inv max none) := by
  rw [handleConnectionEvent]
  have H' := H.drain token reads
  generalize s.drainConnectionReadBuffer token reads = drained at H' ⊢
  obtain ⟨s', closedDuringDrain⟩ := drained
  dsimp only at H' ⊢
  refine (keeps_dispatchBufferedFrames crypto engineTime writes H' (fun conn h => ?_)
    (Nat.succ_pos _)).bind fun ⟨closedDuringDispatch, s''⟩ ⟨hinUse, hopen⟩ => ?_
  · rw [h]
    exact Nat.lt_succ_self _
  dsimp only at hinUse hopen ⊢
  split
  · exact .ok hinUse.close
  · rename_i hstays
    exact .ok (hopen (Bool.or_eq_false_iff.mp (Bool.not_eq_true _ |>.mp hstays)).2)

theorem keeps_handleEvent (crypto : Crypto) (hmax : max ≤ 2 ^ 32) (H : s.Inv max none)
    (event : Event) :
    Keeps (s.handleEvent crypto event) (Inv max none) := by
  cases event with
  | listener accepts => exact keeps_acceptConnections hmax H accepts
  | waker channel disconnected =>
    simp only [handleEvent]
    split
    · exact ⟨nofun, nofun⟩
    · exact .ok (H.congr rfl rfl)
  | connection token engineTime reads writes =>
    exact keeps_handleConnectionEvent crypto H token engineTime reads writes

theorem keeps_handlePoll (crypto : Crypto) (hmax : max ≤ 2 ^ 32) (H : s.Inv max none)
    (poll : Poll) :
    Keeps (s.handlePoll crypto poll) (Inv max none) :=
  (Keeps.foldlM (fun _ event H => keeps_handleEvent crypto hmax H event) poll.events H).bind
    fun _ H => .ok (H.sweep poll.now)

theorem Inv.start (agent : Agent) (timeoutConfig : ConnectionTimeoutConfig) (nextToken : Nat) :
    Inv max none { new agent max timeoutConfig with nextToken } :=
  ⟨rfl, Nat.zero_le _, nofun, nofun⟩

theorem Inv.retained_le (H : s.Inv max none) :
    (s.connections.entries.map (·.2.readBuf.length)).sum ≤ max * 65534 := by
  refine (List.sum_le_card_nsmul _ 65534 fun n hn => ?_).trans ?_
  · obtain ⟨⟨token, conn⟩, hmem, rfl⟩ := List.mem_map.mp hn
    exact Nat.le_of_lt_succ (H.buffer_lt token conn (OrderedMap.mem_entries.mp hmem) nofun)
  · rw [List.length_map, smul_eq_mul]
    exact Nat.mul_le_mul_right 65534 H.length_le

end

/-- **The connection table.** Whatever happens to a loop with any token counter, it does not hang,
and at each return to `poll` the table is within its bounds. A token is found within a bounded
number of steps and takes the place of no other. Closing and sweeping concern only the connections
that are closed. -/
theorem connection_table_invariant (crypto : Crypto) :
    (∀ (agent : Agent) (max : Nat) (timeoutConfig : ConnectionTimeoutConfig) (nextToken : Nat)
      (polls : List Poll), max ≤ 2 ^ 32 →
      run crypto polls { new agent max timeoutConfig with nextToken } ≠ .err .diverges ∧
      ∀ s, run crypto polls { new agent max timeoutConfig with nextToken } = .ok s →
        s.connections.entries.length ≤ max ∧
        (∀ token conn, s.connections.get? token = some conn →
          2 ≤ token ∧ conn.readBuf.length < 65535) ∧
        (s.connections.entries.map (·.2.readBuf.length)).sum ≤ max * 65534) ∧
    (∀ s : EventLoop, s.connections.entries.length ≤ 2 ^ 32 →
      ∃ token nextToken, s.nextConnectionToken (s.connections.entries.length + 2) =
        .ok (token, { s with nextToken }) ∧ 2 ≤ token ∧ s.connections.get? token = none) ∧
    (∀ (s s' : EventLoop) (registers : Bool) (now : Nat),
      s.registerAndInsertConnection registers now = .ok s' →
      ∀ token conn, s.connections.get? token = some conn → s'.connections.get? token = some conn) ∧
    (∀ (s : EventLoop) (token token' : Nat), token' ≠ token →
      (s.closeAndDeregisterConnection token).connections.get? token' = s.connections.get? token') ∧
    ∀ (s : EventLoop) (now token : Nat), (s.sweepIdleConnections now).connections.get? token =
      (s.connections.get? token).filter fun conn => now - conn.lastActivity < s.idleTimeout := by
  refine ⟨fun agent max timeoutConfig nextToken polls hmax => ?_, fun s hlen => ?_, ?_, ?_, ?_⟩
  · have H := Keeps.foldlM (fun _ poll H => keeps_handlePoll crypto hmax H poll) polls
      (Inv.start agent timeoutConfig nextToken)
    refine ⟨H.1, fun s hs => ?_⟩
    have hinv := H.2 s hs
    exact ⟨hinv.length_le, fun token conn h => ⟨hinv.token_ge token conn h,
      hinv.buffer_lt token conn h nofun⟩, hinv.retained_le⟩
  · obtain ⟨⟨token, s'⟩, h⟩ := exists_nextConnectionToken s hlen
    obtain ⟨hlo, hfree, nextToken, rfl⟩ := nextConnectionToken_eq_ok h
    exact ⟨token, nextToken, h, hlo, hfree⟩
  · exact fun s s' registers now h token conn => get?_registerAndInsertConnection h
  · intro s token token' hne
    rw [get?_closeAndDeregisterConnection, if_neg hne]
  · exact get?_sweepIdleConnections

end EventLoop

namespace Sample

/-- A table for one connection, with a counter that is about to wrap around. -/
def eventLoop : EventLoop :=
  { EventLoop.new (agent none .noAuthNoPriv) 1 {} with nextToken := usizeSize - 1 }

/-- Two managers connect, and the first one sends a byte. -/
def polls : List EventLoop.Poll :=
  [⟨[.listener [.stream true 0, .stream true 0], .connection (usizeSize - 1) 0 [.ok [0x30] 1] []],
    2⟩]

end Sample

theorem EventLoop.connection_table_invariant_sample :
    ∃ s, run Sample.crypto Sample.polls Sample.eventLoop = .ok s ∧
      s.connections.entries.map Prod.fst = [usizeSize - 1] ∧ s.nextToken = 2 ∧
      (s.connections.entries.map (·.2.readBuf.length)).sum ≤ 1 * 65534 := by
  obtain ⟨s, hs, htokens, hnext⟩ : ∃ s, run Sample.crypto Sample.polls Sample.eventLoop = .ok s ∧
      s.connections.entries.map Prod.fst = [usizeSize - 1] ∧ s.nextToken = 2 := ⟨_, rfl, rfl, rfl⟩
  have H := (connection_table_invariant Sample.crypto).1 (Sample.agent none .noAuthNoPriv) 1 {}
    (usizeSize - 1) Sample.polls (by decide)
  exact ⟨s, hs, htokens, hnext, (H.2 s hs).2.2⟩

end SnmpAgent
