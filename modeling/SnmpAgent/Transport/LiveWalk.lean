import SnmpAgent.Lib.Scan
import SnmpAgent.Transport.Commands
import SnmpAgent.Transport.Service
import SnmpAgent.Transport.Walk

/-!
# Walks while the application sets objects

A walk takes many requests, and between them the loop serves others and makes the updates of the
application. The store of a loop only grows, so a walk is a scan of a map that grows: a manager sees
every object that was there when it began, each once and in order, whether it asks by GETNEXT or by
GETBULK.
-/

namespace SnmpAgent
open Rust

/-! ## Requests of a walk -/

inductive WalkAsk where
  | next (requestId : Int32) (value : VarbindValue)
  | bulk (ask : BulkAsk)

namespace WalkAsk

def pdu (oid : Oid) : WalkAsk → InboundPdu
  | next requestId value => .getNextRequest ⟨requestId, [⟨oid, value⟩]⟩
  | bulk ask => .getBulkRequest ⟨ask.requestId, 0, ask.maxRepetitions, [⟨oid, ask.value⟩]⟩

def isNext : WalkAsk → Bool
  | next .. => true
  | bulk _ => false

/-- The answer is a number of cells of the column, one if the request is a GETNEXT. -/
theorem varbinds_eq (ask : WalkAsk) (maxSize : Int32) (store : Store) (oid : Oid) :
    ∃ n, (handleRequest maxSize store (ask.pdu oid)).varbinds =
      (List.range n).map (store.bulkCell oid) ∧ (ask.isNext → n = 1) := by
  cases ask with
  | next requestId value =>
    exact ⟨1, congrArg (fun vb => [vb]) (store.resolve_reached oid 0), fun _ => rfl⟩
  | bulk ask =>
    obtain ⟨n, hn, -⟩ := bulkAnswer_eq maxSize store ask oid
    exact ⟨n, hn, fun h => by cases h⟩

end WalkAsk

/-! ## The manager's scan -/

/-- The object that a variable binding tells of. -/
def Varbind.entry? (vb : Varbind) : Option (Oid × Value) :=
  match vb.value with
  | .value value => some (vb.oid, value)
  | _ => none

def Varbind.isEnd (vb : Varbind) : Bool := vb.value = .endOfMibView

/-- What a manager has been told. -/
def Manager.scan (manager : Manager) : Scan Oid Value where
  seen := manager.received.filterMap Varbind.entry?
  position := manager.current
  ended := manager.received.any Varbind.isEnd

section
variable {store : Store} {start : Oid}

theorem filterMap_entry?_bulkCell (store : Store) (start : Oid) (n : Nat) :
    ((List.range n).map (store.bulkCell start)).filterMap Varbind.entry? =
      (store.above start).take n := by
  rw [map_bulkCell_range, List.filterMap_append, List.filterMap_map]
  have hentries : (Varbind.entry? ∘ entryVarbind) = some := rfl
  have hclosing : ∀ n, (List.replicate n (closing start (store.above start))).filterMap
      Varbind.entry? = [] := by
    intro n
    exact List.filterMap_replicate_of_none rfl
  rw [hentries, List.filterMap_some, hclosing, List.append_nil]

theorem any_isEnd_bulkCell (store : Store) (start : Oid) (n : Nat) :
    ((List.range n).map (store.bulkCell start)).any Varbind.isEnd =
      decide ((store.above start).length < n) := by
  rw [map_bulkCell_range, List.any_append]
  have hentries : (((store.above start).take n).map entryVarbind).any Varbind.isEnd = false := by
    rw [List.any_map]
    exact List.any_eq_false.mpr fun entry _ h => by cases h
  rw [hentries, Bool.false_or, List.any_replicate]
  by_cases h : (store.above start).length < n
  · rw [if_neg (Nat.sub_ne_zero_of_lt h), decide_eq_true h]
    rfl
  · rw [if_pos (Nat.sub_eq_zero_of_le (Nat.not_lt.mp h)), decide_eq_false h]

/-- An answer is a step of the scan. -/
theorem Manager.scan_receive (manager : Manager) (store : Store) (n : Nat) :
    (manager.receive ((List.range n).map (store.bulkCell manager.current))).scan =
      manager.scan.advance store n := by
  have hposition : (manager.receive ((List.range n).map (store.bulkCell manager.current))).current =
      store.reached manager.current n := by
    cases n with
    | zero => rfl
    | succ n =>
      rw [Manager.receive, List.range_succ, List.map_append, List.map_singleton,
        List.getLast?_concat, Option.map_some, Option.getD_some, store.bulkCell_oid]
  simp only [Manager.scan, Scan.advance, Scan.mk.injEq]
  refine ⟨?_, hposition, ?_⟩
  · rw [Manager.receive, List.filterMap_append, filterMap_entry?_bulkCell]
  · exact List.any_append.trans (congrArg _ (any_isEnd_bulkCell store manager.current n))

/-- Without an end every variable binding tells of an object. -/
theorem length_seen {received : List Varbind} (h : received.any Varbind.isEnd = false)
    (hcells : ∀ vb ∈ received, vb.entry?.isSome ∨ vb.isEnd) :
    (received.filterMap Varbind.entry?).length = received.length := by
  induction received with
  | nil => rfl
  | cons vb received ih =>
    rw [List.any_cons, Bool.or_eq_false_iff] at h
    obtain ⟨entry, hentry⟩ : ∃ entry, vb.entry? = some entry := by
      rcases hcells vb List.mem_cons_self with hvb | hvb
      · exact Option.isSome_iff_exists.mp hvb
      · rw [h.1] at hvb
        cases hvb
    rw [List.filterMap_cons_some hentry, List.length_cons, List.length_cons,
      ih h.2 fun vb hvb => hcells vb (List.mem_cons_of_mem _ hvb)]

end

/-! ## The store of a loop grows -/

namespace EventLoop

theorem grows_drainCommands (commands : List Command) (disconnected : Bool) (store : Store) :
    store.Grows (drainCommands commands disconnected store).1 := by
  induction commands generalizing store with
  | nil => exact .refl store
  | cons command commands ih =>
    cases command with
    | setValue oid value => exact (OrderedMap.grows_insert store oid value).trans (ih _)
    | shutdown => exact .refl store

/-- The stores of the exchanges, one after the other, up to the store of the loop. -/
structure Growing (o : Recorded) : Prop where
  log : o.log.Pairwise fun first second => first.arrival.mib.Grows second.arrival.mib
  store : ∀ exchange ∈ o.log, exchange.arrival.mib.Grows o.loop.store

section
variable {crypto : Crypto} {o o' : Recorded}

/-- A step that dispatches nothing. -/
theorem Growing.of_log (H : Growing o) (hlog : o'.log = o.log)
    (hstore : o.loop.store.Grows o'.loop.store) : Growing o' := by
  constructor
  · rw [hlog]
    exact H.log
  · intro exchange hmem
    rw [hlog] at hmem
    exact (H.store exchange hmem).trans hstore

theorem Growing.connection (H : Growing o) {token : Nat} {engineTime : UInt32}
    {reads : List ReadResult} {writes : List Bool}
    (h : recordStep crypto o (.event (.connection token engineTime reads writes)) = .ok o') :
    Growing o' := by
  cases hconn : o.loop.connections.get? token with
  | none =>
    rw [recordStep_of_none hconn h]
    exact H
  | some conn =>
    have hloop := loop_recordStep crypto o (.event (.connection token engineTime reads writes))
    rw [h] at hloop
    have hstep : o.loop.handleStep crypto (Chore.serve token engineTime reads writes).step =
        .ok o'.loop := hloop.symm
    have hstore := store_chore hstep
    obtain ⟨fuel, closed, s, transcript, hdispatch, rfl⟩ := recordStep_connection h
    have hget := get?_drainConnectionReadBuffer o.loop token reads token
    rw [if_pos rfl, hconn, Option.map_some] at hget
    have D := dispatched hget hdispatch
    have hnew : ∀ exchange ∈ transcript.exchanges, exchange.arrival.mib = o.loop.store := by
      intro exchange hmem
      rw [D.arrival_eq exchange hmem]
      exact store_drainConnectionReadBuffer ..
    refine ⟨List.pairwise_append.mpr ⟨H.log, List.pairwise_of_forall_mem_list ?_, ?_⟩, ?_⟩
    · intro first hfirst second hsecond
      rw [hnew first hfirst, hnew second hsecond]
      exact .refl _
    · intro first hfirst second hsecond
      rw [hnew second hsecond]
      exact H.store first hfirst
    · intro exchange hmem
      rw [hstore]
      rcases List.mem_append.mp hmem with hmem | hmem
      · exact H.store exchange hmem
      · rw [hnew exchange hmem]
        exact .refl _

theorem Growing.step (H : Growing o) {step : Step} (h : recordStep crypto o step = .ok o') :
    Growing o' := by
  rcases step with (accepts | ⟨channel, disconnected⟩ | ⟨token, engineTime, reads, writes⟩) | now
  · obtain ⟨loop, hloop, h⟩ := Res.bind_eq_ok.mp h
    cases h
    refine H.of_log rfl ?_
    rw [store_acceptConnections hloop]
    exact .refl _
  · obtain ⟨loop, hloop, h⟩ := Res.bind_eq_ok.mp h
    cases h
    simp only [handleStep, handleEvent] at hloop
    split at hloop
    · cases hloop
    · cases hloop
      exact H.of_log rfl (grows_drainCommands channel disconnected o.loop.store)
  · exact H.connection h
  · cases h
    exact H.of_log rfl (.refl _)

/-- The stores that the frames of a run are served from grow. -/
theorem growing_recordedRun {polls : List Poll} {s : EventLoop}
    (h : recordedRun crypto polls s = .ok o) : Growing o :=
  foldlM_inv Growing (fun _ _ _ H h => H.step h) ⟨.nil, fun _ h => by cases h⟩ h

end

/-! ## Walks -/

/-- The request that the agent admits. -/
def requestOf (crypto : Crypto) (inputs : DispatchInputs) (frame : Bytes) : Option InboundPdu := do
  let msg ← (decodeV3Message frame).ok?
  let (pdu, _) ← (admission crypto inputs msg).ok?
  some pdu

theorem requestOf_eq_some {crypto : Crypto} {inputs : DispatchInputs} {frame : Bytes}
    {pdu : InboundPdu} : requestOf crypto inputs frame = some pdu ↔ ∃ msg contextName,
      decodeV3Message frame = .ok msg ∧ admission crypto inputs msg = .ok (pdu, contextName) := by
  simp only [requestOf, Option.bind_eq_bind, Option.bind_eq_some_iff, Res.ok?_eq_some,
    Option.some.injEq, Prod.exists]
  constructor
  · rintro ⟨msg, hmsg, pdu, contextName, hadm, rfl⟩
    exact ⟨msg, contextName, hmsg, hadm⟩
  · rintro ⟨msg, contextName, hmsg, hadm⟩
    exact ⟨msg, hmsg, pdu, contextName, hadm, rfl⟩

/-- A manager and the exchanges of its walk, each with the request that it is for. The manager asks
behind the last object identifier that it was told, and receives what the agent answers. -/
inductive Walked (crypto : Crypto) (config : DispatchInputs) (start : Oid) :
    List (Exchange × WalkAsk) → Manager → Prop where
  | start : Walked crypto config start [] ⟨[], start⟩
  | visit {visits : List (Exchange × WalkAsk)} {manager : Manager} {exchange : Exchange}
      {ask : WalkAsk} {msgId : Int32} {userName : Bytes} {response : GetResponse}
      (H : Walked crypto config start visits manager)
      (asks : requestOf crypto (config.atTime exchange.arrival.engineTime) exchange.frame =
        some (ask.pdu manager.current))
      (answers : answerTo crypto (config.atTime exchange.arrival.engineTime) exchange.frame
        exchange.arrival.mib = .response msgId userName response) :
      Walked crypto config start (visits ++ [(exchange, ask)]) (manager.receive response.varbinds)

section
variable {crypto : Crypto} {config : DispatchInputs} {start : Oid}
  {visits : List (Exchange × WalkAsk)} {manager : Manager} {exchange : Exchange} {ask : WalkAsk}

/-- What a visit brings, for the proofs by induction over a walk. -/
theorem cells_of_visit {msgId : Int32} {userName : Bytes} {response : GetResponse}
    (asks : requestOf crypto (config.atTime exchange.arrival.engineTime) exchange.frame =
      some (ask.pdu manager.current))
    (answers : answerTo crypto (config.atTime exchange.arrival.engineTime) exchange.frame
      exchange.arrival.mib = .response msgId userName response) :
    ∃ n, response.varbinds =
      (List.range n).map (exchange.arrival.mib.bulkCell manager.current) ∧
      (ask.isNext → n = 1) := by
  obtain ⟨msg, contextName, hmsg, hadm⟩ := requestOf_eq_some.mp asks
  cases (answerTo_of_admission hmsg hadm).symm.trans answers
  exact ask.varbinds_eq ..

theorem Walked.scan_inv (H : Walked crypto config start visits manager) {first : Store}
    (hgrows : ∀ visit ∈ visits, first.Grows visit.1.arrival.mib) :
    manager.scan.Inv start first := by
  induction H with
  | start => exact .start start first
  | visit H asks answers ih =>
    obtain ⟨n, hn, -⟩ := cells_of_visit asks answers
    rw [hn, Manager.scan_receive]
    refine (ih fun visit hvisit => hgrows visit (List.mem_append_left _ hvisit)).advance ?_ n
    exact hgrows _ (List.mem_append_right _ List.mem_cons_self)

/-- Whatever the manager was told of an object was true at that moment. -/
theorem Walked.told (H : Walked crypto config start visits manager) :
    ∀ entry ∈ manager.scan.seen, ∃ visit ∈ visits,
      visit.1.arrival.mib.get entry.1 = some entry.2 := by
  induction H with
  | start => exact fun _ h => by cases h
  | visit H asks answers ih =>
    obtain ⟨n, hn, -⟩ := cells_of_visit asks answers
    rw [hn, Manager.scan_receive]
    intro entry hentry
    rcases List.mem_append.mp hentry with hentry | hentry
    · obtain ⟨visit, hvisit, hget⟩ := ih entry hentry
      exact ⟨visit, List.mem_append_left _ hvisit, hget⟩
    · refine ⟨_, List.mem_append_right _ List.mem_cons_self, ?_⟩
      exact OrderedMap.mem_entries.mp (OrderedMap.mem_above.mp (List.mem_of_mem_take hentry)).1

theorem Walked.cells (H : Walked crypto config start visits manager) :
    ∀ vb ∈ manager.received, vb.entry?.isSome ∨ vb.isEnd := by
  induction H with
  | start => exact fun _ h => by cases h
  | visit H asks answers ih =>
    obtain ⟨n, hn, -⟩ := cells_of_visit asks answers
    rw [hn]
    intro vb hvb
    rcases List.mem_append.mp hvb with hvb | hvb
    · exact ih vb hvb
    · obtain ⟨r, -, rfl⟩ := List.mem_map.mp hvb
      rw [Store.bulkCell]
      split
      · exact .inl rfl
      · exact .inr rfl

theorem Walked.length_of_next (H : Walked crypto config start visits manager)
    (hnext : ∀ visit ∈ visits, visit.2.isNext) : manager.received.length = visits.length := by
  induction H with
  | start => rfl
  | visit H asks answers ih =>
    obtain ⟨n, hn, hone⟩ := cells_of_visit asks answers
    obtain rfl := hone (hnext _ (List.mem_append_right _ List.mem_cons_self))
    rw [hn, Manager.receive, List.length_append, List.length_append,
      ih fun visit hvisit => hnext visit (List.mem_append_left _ hvisit)]
    rfl

/-- A walk that has not come to an end has been told of different objects of the store. -/
theorem Walked.ended_of_length (H : Walked crypto config start visits manager) {last : Store}
    (hgrows : ∀ visit ∈ visits, visit.1.arrival.mib.Grows last)
    (hlength : last.entries.length < manager.received.length) : manager.scan.ended := by
  by_contra hopen
  have hseen := length_seen (Bool.eq_false_of_not_eq_true hopen) H.cells
  have hinv : manager.scan.Inv start .empty := H.scan_inv fun _ _ _ h => by cases h
  have hnodup : (manager.scan.seen.map Prod.fst).Nodup :=
    (List.pairwise_map.mpr hinv.ascending).imp fun h => ne_of_lt h
  have hsubset : manager.scan.seen.map Prod.fst ⊆ last.entries.map Prod.fst := by
    intro oid hoid
    obtain ⟨entry, hentry, rfl⟩ := List.mem_map.mp hoid
    obtain ⟨visit, hvisit, hget⟩ := H.told entry hentry
    obtain ⟨value, hvalue⟩ := Option.isSome_iff_exists.mp
      (hgrows visit hvisit entry.1 (Option.isSome_iff_exists.mpr ⟨_, hget⟩))
    exact List.mem_map.mpr ⟨_, OrderedMap.mem_entries.mpr hvalue, rfl⟩
  have hle := (hnodup.subperm hsubset).length_le
  rw [List.length_map, List.length_map] at hle
  exact absurd (hseen.symm.le.trans hle) (not_le.mpr hlength)

end

/-- **Walks.** A manager walks through the store of an agent in the midst of other managers, while
the application sets objects. It is told of objects in ascending order, each as it was at that
moment. When it is told of the end, it has been told of every object behind its start that was there
when it began. And it comes to the end when it has been told more than there are objects; with
GETNEXT every request brings it on. -/
theorem walks_while_sets_arrive (crypto : Crypto) (agent : Agent) (max : Nat)
    (timeoutConfig : ConnectionTimeoutConfig) (polls : List Poll) {o : Recorded}
    (ho : recordedRun crypto polls (new agent max timeoutConfig) = .ok o) {start : Oid}
    {visits : List (Exchange × WalkAsk)} (hvisits : (visits.map Prod.fst).Sublist o.log)
    {manager : Manager} (H : Walked crypto agent.ctx.inputs.config start visits manager) :
    manager.scan.seen.Pairwise (·.1 < ·.1) ∧
    (∀ entry ∈ manager.scan.seen, start < entry.1 ∧
      ∃ visit ∈ visits, visit.1.arrival.mib.get entry.1 = some entry.2) ∧
    (∀ first ∈ visits.head?, ∀ oid, start < oid → (first.1.arrival.mib.get oid).isSome →
      manager.scan.ended ∨ oid ≤ manager.current → oid ∈ manager.scan.seen.map Prod.fst) ∧
    (∀ last ∈ visits.getLast?, last.1.arrival.mib.entries.length < manager.received.length →
      manager.scan.ended) ∧
    ((∀ visit ∈ visits, visit.2.isNext) → manager.received.length = visits.length) := by
  have hgrows := (growing_recordedRun ho).log.sublist hvisits
  rw [List.pairwise_map] at hgrows
  have hempty : manager.scan.Inv start .empty := H.scan_inv fun _ _ _ h => by cases h
  refine ⟨hempty.ascending, fun entry hentry => ⟨(hempty.within entry hentry).1,
    H.told entry hentry⟩, fun first hfirst oid hlt hget hreach => ?_, fun last hlast hlength => ?_,
    H.length_of_next⟩
  · have hinv : manager.scan.Inv start first.1.arrival.mib := by
      refine H.scan_inv fun visit hvisit => ?_
      obtain ⟨rest, rfl⟩ := List.head?_eq_some_iff.mp hfirst
      rcases List.mem_cons.mp hvisit with rfl | hvisit
      · exact .refl _
      · exact (List.pairwise_cons.mp hgrows).1 visit hvisit
    rcases hreach with hended | hle
    · exact hinv.ended hended oid hlt hget
    · exact hinv.complete oid hlt hle hget
  · refine H.ended_of_length (fun visit hvisit => ?_) hlength
    obtain ⟨front, rfl⟩ := List.getLast?_eq_some_iff.mp hlast
    rcases List.mem_append.mp hvisit with hvisit | hvisit
    · exact (List.pairwise_append.mp hgrows).2.2 visit hvisit last List.mem_cons_self
    · rw [List.mem_singleton.mp hvisit]
      exact .refl _

end EventLoop

namespace Sample

def sysName : Oid := ⟨[1, 3, 6, 1, 2, 1, 1, 5, 0], rfl⟩

/-- A GETNEXT request in clear. -/
def nextFrame (oid : Oid) : Bytes :=
  message 0x00 [] [] (scopedPduTlv engineId []
    (requestTlv (WalkAsk.pdu oid (.next 1 .unspecified)) 0 0))

/-- A walk, with an object that comes up before the manager and one behind it. -/
def growingWalk : List EventLoop.Poll :=
  [⟨[.waker [.setValue sysDescr (.integer32 1)] false, .listener [.stream true 0]], 0⟩,
    ⟨[.connection 2 1000 [.ok (nextFrame root) 1] []], 1⟩,
    ⟨[.waker [.setValue sysName (.integer32 2), .setValue root (.integer32 3)] false], 1⟩,
    ⟨[.connection 2 1001 [.ok (nextFrame sysDescr) 2] []], 2⟩,
    ⟨[.connection 2 1002 [.ok (nextFrame sysName) 3] []], 3⟩]

end Sample

namespace EventLoop

theorem walks_while_sets_arrive_sample :
    let agent := Sample.agent none .noAuthNoPriv
    ∃ o visits manager, recordedRun Sample.crypto Sample.growingWalk (new agent 2 {}) = .ok o ∧
      (visits.map Prod.fst).Sublist o.log ∧
      Walked Sample.crypto agent.ctx.inputs.config Sample.root visits manager ∧
      manager.scan.ended ∧
      manager.scan.seen = [(Sample.sysDescr, .integer32 1), (Sample.sysName, .integer32 2)] ∧
      manager.scan.seen.Pairwise (·.1 < ·.1) := by
  intro agent
  let store : Store := Store.new.set Sample.sysDescr (.integer32 1)
  let store' : Store := (store.set Sample.sysName (.integer32 2)).set Sample.root (.integer32 3)
  have hlog : (fun o => o.log.map Exchange.arrival) <$>
      recordedRun Sample.crypto Sample.growingWalk (new agent 2 {}) =
      .ok [⟨Sample.nextFrame Sample.root, store, 1000⟩,
        ⟨Sample.nextFrame Sample.sysDescr, store', 1001⟩,
        ⟨Sample.nextFrame Sample.sysName, store', 1002⟩] := by
    decide +kernel
  obtain ⟨o, ho, hlog⟩ := Res.map_eq_ok.mp hlog
  obtain ⟨first, rest, hrest, hfirst, hlog⟩ := List.map_eq_cons_iff.mp hlog
  obtain ⟨second, rest, rfl, hsecond, hlog⟩ := List.map_eq_cons_iff.mp hlog
  obtain ⟨third, rest, rfl, hthird, hlog⟩ := List.map_eq_cons_iff.mp hlog
  obtain rfl := List.map_eq_nil_iff.mp hlog
  have hvisit {visits : List (Exchange × WalkAsk)} {manager : Manager} {exchange : Exchange}
      {arrival : Arrival} (vb : Varbind) (harrival : exchange.arrival = arrival)
      (H : Walked Sample.crypto agent.ctx.inputs.config Sample.root visits manager)
      (hasks : requestOf Sample.crypto (agent.ctx.inputs.config.atTime arrival.engineTime)
        arrival.frame = some (WalkAsk.pdu manager.current (.next 1 .unspecified)))
      (hanswers : answerTo Sample.crypto (agent.ctx.inputs.config.atTime arrival.engineTime)
        arrival.frame arrival.mib = .response 7 Sample.userName ⟨1, .noError, 0, [vb]⟩) :
      Walked Sample.crypto agent.ctx.inputs.config Sample.root
        (visits ++ [(exchange, .next 1 .unspecified)]) (manager.receive [vb]) := by
    subst harrival
    exact H.visit hasks hanswers
  have H₁ : Walked Sample.crypto agent.ctx.inputs.config Sample.root
      [(first, .next 1 .unspecified)] _ :=
    hvisit ⟨Sample.sysDescr, .value (.integer32 1)⟩ hfirst .start (by decide +kernel)
      (by decide +kernel)
  have H₂ := hvisit ⟨Sample.sysName, .value (.integer32 2)⟩ hsecond H₁ (by decide +kernel)
    (by decide +kernel)
  have H₃ := hvisit ⟨Sample.sysName, .endOfMibView⟩ hthird H₂ (by decide +kernel)
    (by decide +kernel)
  have hsub : ([(first, WalkAsk.next 1 .unspecified), (second, .next 1 .unspecified),
      (third, .next 1 .unspecified)].map Prod.fst).Sublist o.log := by
    rw [hrest]
    exact .refl _
  exact ⟨o, _, _, ho, hsub, H₃, rfl, rfl, (walks_while_sets_arrive Sample.crypto agent 2 {}
    Sample.growingWalk ho hsub H₃).1⟩

end EventLoop

end SnmpAgent
