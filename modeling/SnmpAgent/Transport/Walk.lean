import SnmpAgent.Transport.Bulk
import SnmpAgent.Transport.EventLoop

/-!
# Walks through the store

A manager asks again and again for what follows the last object identifier it was told. With GETNEXT
it sees every entry behind its start. With GETBULK it does if each of them is within the budget: a
response without a row leaves the manager where it is, for ever.
-/

namespace SnmpAgent
open Rust

/-! ## Managers -/

/-- What a manager has received, and the object identifier it asks behind. -/
structure Manager where
  received : List Varbind
  current : Oid

def Manager.receive (manager : Manager) (varbinds : List Varbind) : Manager where
  received := manager.received ++ varbinds
  current := (varbinds.getLast?.map (·.oid)).getD manager.current

/-- The manager after `n` requests, the `i`-th of which is answered by `answer i`. -/
def walk (answer : Nat → Oid → List Varbind) (start : Oid) : Nat → Manager
  | 0 => ⟨[], start⟩
  | n + 1 => (walk answer start n).receive (answer n (walk answer start n).current)

/-- The entries behind `start` of what `lookup` finds, in lexicographic order of the arcs. -/
structure Lists (lookup : Oid → Option Value) (start : Oid) (entries : List (Oid × Value)) :
    Prop where
  ascending : entries.Pairwise fun a b => List.Lex (· < ·) a.1.arcs b.1.arcs
  mem_iff : ∀ oid value,
    (oid, value) ∈ entries ↔ List.Lex (· < ·) start.arcs oid.arcs ∧ lookup oid = some value

def entryVarbind (entry : Oid × Value) : Varbind := ⟨entry.1, .value entry.2⟩

/-- The end of a walk, named by the last of its entries. -/
def closing (start : Oid) (entries : List (Oid × Value)) : Varbind :=
  ⟨(entries.getLast?.map Prod.fst).getD start, .endOfMibView⟩

theorem lists_above (store : Store) (start : Oid) : Lists store.get start (store.above start) where
  ascending := (OrderedMap.sorted_above start).imp Oid.lt_iff_lex.mp
  mem_iff oid value := by
    rw [OrderedMap.mem_above, OrderedMap.mem_entries, Oid.lt_iff_lex, and_comm]
    rfl

section
variable {store : Store} {start : Oid}

theorem Store.bulkCell_oid (store : Store) (start : Oid) (r : Nat) :
    (store.bulkCell start r).oid = store.reached start (r + 1) := by
  rw [bulkCell, OrderedMap.reached_succ]
  cases store.successor? start r <;> rfl

theorem Store.bulkCell_reached (store : Store) (start : Oid) (n r : Nat) :
    store.bulkCell (store.reached start n) r = store.bulkCell start (n + r) := by
  rw [bulkCell, bulkCell, OrderedMap.successor?_reached, OrderedMap.reached_reached]

theorem Store.bulkCell_of_ge {r : Nat} (h : (store.above start).length ≤ r) :
    store.bulkCell start r = closing start (store.above start) := by
  rw [bulkCell, OrderedMap.successor?_eq, List.getElem?_eq_none h, closing, OrderedMap.reached_eq,
    List.take_of_length_le h]

/-- The first cells of a column are the entries, and then it has run out. -/
theorem map_bulkCell_range (store : Store) (start : Oid) (n : Nat) :
    (List.range n).map (store.bulkCell start) = ((store.above start).take n).map entryVarbind ++
      .replicate (n - (store.above start).length) (closing start (store.above start)) := by
  induction n with
  | zero => simp
  | succ n ih =>
    rw [List.range_succ, List.map_append, ih, List.map_singleton, List.take_add_one]
    by_cases h : n < (store.above start).length
    · have hcell : store.bulkCell start n = entryVarbind (store.above start)[n] := by
        rw [Store.bulkCell, OrderedMap.successor?_eq, List.getElem?_eq_getElem h]
        rfl
      rw [hcell, Nat.sub_eq_zero_of_le (Nat.le_of_lt h), Nat.sub_eq_zero_of_le h,
        List.getElem?_eq_getElem h, Option.toList_some, List.map_append, List.map_singleton,
        List.replicate_zero, List.append_nil, List.append_nil]
    · rw [Store.bulkCell_of_ge (Nat.not_lt.mp h), List.getElem?_eq_none (Nat.not_lt.mp h),
        Nat.succ_sub (Nat.not_lt.mp h), List.replicate_succ']
      simp

/-- The manager has received the first `n` cells of its column. -/
def Manager.At (manager : Manager) (store : Store) (start : Oid) (n : Nat) : Prop :=
  manager.received = (List.range n).map (store.bulkCell start) ∧
    manager.current = store.reached start n

/-- The next cells arrive. -/
theorem Manager.At.receive {manager : Manager} {n : Nat} (H : manager.At store start n) (m : Nat) :
    (manager.receive ((List.range m).map (store.bulkCell (store.reached start n)))).At
      store start (n + m) := by
  obtain ⟨hreceived, hcurrent⟩ := H
  constructor
  · have hcells : (List.range m).map (store.bulkCell (store.reached start n)) =
        (List.range m).map (store.bulkCell start ∘ (n + ·)) :=
      List.map_congr_left fun r _ => store.bulkCell_reached start n r
    rw [List.range_add, List.map_append, List.map_map, ← hcells, ← hreceived]
    rfl
  · cases m with
    | zero => exact hcurrent
    | succ m =>
      rw [Manager.receive, List.range_succ, List.map_append, List.map_singleton,
        List.getLast?_concat, Option.map_some, Option.getD_some, store.bulkCell_oid,
        OrderedMap.reached_reached]

/-! ## GETNEXT -/

/-- The answer to a GETNEXT request for one object identifier. -/
def getNextAnswer (store : Store) (requestId : Int32) (value : VarbindValue) (oid : Oid) :
    List Varbind :=
  (handleGetNext ⟨requestId, [⟨oid, value⟩]⟩ store).varbinds

theorem at_getNextWalk (store : Store) (start : Oid) (asks : Nat → Int32 × VarbindValue) (n : Nat) :
    (walk (fun i => getNextAnswer store (asks i).1 (asks i).2) start n).At store start n := by
  induction n with
  | zero => exact ⟨rfl, rfl⟩
  | succ n ih =>
    have hanswer : getNextAnswer store (asks n).1 (asks n).2 (store.reached start n) =
        (List.range 1).map (store.bulkCell (store.reached start n)) :=
      congrArg (fun vb => [vb]) (store.resolve_reached (store.reached start n) 0)
    rw [walk, ih.2, hanswer]
    exact ih.receive 1

/-! ## GETBULK -/

/-- What a manager may choose in a bulk request for one column. -/
structure BulkAsk where
  requestId : Int32
  maxRepetitions : UInt32
  value : VarbindValue

def bulkAnswer (maxSize : Int32) (store : Store) (ask : BulkAsk) (oid : Oid) : List Varbind :=
  (handleRequest maxSize store
    (.getBulkRequest ⟨ask.requestId, 0, ask.maxRepetitions, [⟨oid, ask.value⟩]⟩)).varbinds

/-- The binding on its own is within the budget. -/
def FitsBudget (maxSize : Int32) (vb : Varbind) : Prop :=
  512 + estimatedVarbindWireSize vb ≤ min maxSize.toInt.toNat 65535

theorem bulkRows_singleton (store : Store) (oid : Oid) (n : Nat) :
    store.bulkRows [oid] n = (List.range n).map (store.bulkCell oid) := by
  induction n with
  | zero => rfl
  | succ n ih => rw [store.bulkRows_succ, ih, List.range_succ, List.map_append]; rfl

/-- The answer is a number of cells, the greatest one that is asked for and fits. -/
theorem bulkAnswer_eq (maxSize : Int32) (store : Store) (ask : BulkAsk) (oid : Oid) :
    ∃ m, bulkAnswer maxSize store ask oid = (List.range m).map (store.bulkCell oid) ∧
      IsGreatest {m | m ≤ min ask.maxRepetitions.toNat 100 ∧
        RowsFit store [oid] 0 (min maxSize.toInt.toNat 65535 - 512) m} m := by
  refine ⟨_, ?_, isGreatest_bulkRowCount (List.cons_ne_nil oid []) _⟩
  rw [bulkAnswer, handleRequest, handleGetBulk_eq, ← bulkRows_singleton]
  rfl

theorem estimatedVarbindWireSize_pos (vb : Varbind) : 0 < estimatedVarbindWireSize vb := by
  rw [estimatedVarbindWireSize]
  omega

section
variable {maxSize : Int32} {oid : Oid} {m : Nat}

theorem fitsBudget_of_rowsFit (h : RowsFit store [oid] 0 (min maxSize.toInt.toNat 65535 - 512) m)
    {r : Nat} (hr : r < m) : FitsBudget maxSize (store.bulkCell oid r) := by
  rcases h with rfl | ⟨hsize, -⟩
  · omega
  have hmem : estimatedVarbindWireSize (store.bulkCell oid r) ≤
      estimatedSize (store.bulkRows [oid] m) := by
    rw [bulkRows_singleton, estimatedSize, List.map_map]
    exact List.le_sum_of_mem (List.mem_map.mpr ⟨r, List.mem_range.mpr hr, rfl⟩)
  have := estimatedVarbindWireSize_pos (store.bulkCell oid r)
  rw [FitsBudget]
  omega

/-- A binding that fits makes a row. -/
theorem rowsFit_one (h : FitsBudget maxSize (store.bulkCell oid 0)) :
    RowsFit store [oid] 0 (min maxSize.toInt.toNat 65535 - 512) 1 := by
  refine .inr ⟨?_, nofun⟩
  rw [FitsBudget] at h
  have hsize : estimatedSize (store.bulkRows [oid] 1) =
      estimatedVarbindWireSize (store.bulkCell oid 0) :=
    Nat.add_zero _
  omega

/-- The end comes last. -/
theorem open_of_rowsFit (h : RowsFit store [oid] 0 (min maxSize.toInt.toNat 65535 - 512) m)
    {r : Nat} (hr : r + 1 < m) : (store.bulkCell oid r).value ≠ .endOfMibView := by
  rcases h with rfl | ⟨-, hopen⟩
  · omega
  · obtain ⟨vb, hvb, hne⟩ := hopen r (by omega)
    rw [Store.bulkRow, List.map_singleton, List.mem_singleton] at hvb
    exact hvb ▸ hne

end

section
variable {maxSize : Int32} {asks : Nat → BulkAsk}

/-- Whatever a manager has received fits. -/
theorem exists_at_bulkWalk (maxSize : Int32) (asks : Nat → BulkAsk) (store : Store) (start : Oid)
    (k : Nat) :
    ∃ n, (walk (fun i => bulkAnswer maxSize store (asks i)) start k).At store start n ∧
      ∀ r < n, FitsBudget maxSize (store.bulkCell start r) := by
  induction k with
  | zero => exact ⟨0, ⟨rfl, rfl⟩, nofun⟩
  | succ k ih =>
    obtain ⟨n, hat, hfits⟩ := ih
    obtain ⟨m, hanswer, ⟨-, hrows⟩, -⟩ :=
      bulkAnswer_eq maxSize store (asks k) (store.reached start n)
    refine ⟨n + m, ?_, fun r hr => ?_⟩
    · rw [walk, hat.2, hanswer]
      exact hat.receive m
    · by_cases hrn : r < n
      · exact hfits r hrn
      · have := fitsBudget_of_rowsFit hrows (r := r - n) (by omega)
        rwa [store.bulkCell_reached, Nat.add_sub_cancel' (Nat.not_lt.mp hrn)] at this

/-- As long as the end is not reached, a request brings the manager forward, and not past the
end. -/
theorem bulkWalk_progress (hasks : ∀ i, 1 ≤ (asks i).maxRepetitions)
    (hfits : ∀ r ≤ (store.above start).length, FitsBudget maxSize (store.bulkCell start r))
    {k n : Nat} (hn : n ≤ (store.above start).length)
    (hat : (walk (fun i => bulkAnswer maxSize store (asks i)) start k).At store start n) :
    ∃ n', n < n' ∧ n' ≤ (store.above start).length + 1 ∧
      (walk (fun i => bulkAnswer maxSize store (asks i)) start (k + 1)).At store start n' := by
  obtain ⟨m, hanswer, ⟨-, hrows⟩, hgreatest⟩ :=
    bulkAnswer_eq maxSize store (asks k) (store.reached start n)
  have hpos : 1 ≤ m := by
    refine hgreatest ⟨?_, rowsFit_one ?_⟩
    · have : 1 ≤ (asks k).maxRepetitions.toNat := UInt32.le_iff_toNat_le.mp (hasks k)
      omega
    · rw [store.bulkCell_reached]
      exact hfits n hn
  refine ⟨n + m, by omega, ?_, ?_⟩
  · -- The cell before the last one is not the end.
    by_contra hlt
    have hopen := open_of_rowsFit hrows (r := m - 2) (by omega)
    rw [store.bulkCell_reached, Store.bulkCell_of_ge (by omega)] at hopen
    exact hopen rfl
  · rw [walk, hat.2, hanswer]
    exact hat.receive m

theorem bulkWalk_completes (hasks : ∀ i, 1 ≤ (asks i).maxRepetitions)
    (hfits : ∀ r ≤ (store.above start).length, FitsBudget maxSize (store.bulkCell start r))
    (d : Nat) :
    ∀ k n, (walk (fun i => bulkAnswer maxSize store (asks i)) start k).At store start n →
      n + d = (store.above start).length + 1 →
      ∃ k', (walk (fun i => bulkAnswer maxSize store (asks i)) start k').At store start
        ((store.above start).length + 1) := by
  induction d using Nat.strongRecOn with
  | ind d ih =>
    intro k n hat hd
    by_cases hend : d = 0
    · rw [hend, Nat.add_zero] at hd
      exact ⟨k, hd ▸ hat⟩
    · obtain ⟨n', hlt, hle, hat'⟩ := bulkWalk_progress hasks hfits (by omega) hat
      exact ih ((store.above start).length + 1 - n') (by omega) (k + 1) n' hat' (by omega)

end

theorem map_bulkCell_all (store : Store) (start : Oid) :
    (List.range ((store.above start).length + 1)).map (store.bulkCell start) =
      (store.above start).map entryVarbind ++ [closing start (store.above start)] := by
  rw [map_bulkCell_range, List.take_of_length_le (Nat.le_succ _), Nat.succ_sub (Nat.le_refl _),
    Nat.sub_self, List.replicate_one]

end

/-- **GETBULK walks.** A manager that walks a column sees the entries behind its start and the end,
exactly if each of them is within the budget on its own. -/
theorem bulk_walk_completes_iff (store : Store) (start : Oid) (maxSize : Int32)
    (asks : Nat → BulkAsk) (hasks : ∀ i, 1 ≤ (asks i).maxRepetitions) :
    ∃ entries, Lists store.get start entries ∧
      ((∃ n, (walk (fun i => bulkAnswer maxSize store (asks i)) start n).received =
          entries.map entryVarbind ++ [closing start entries]) ↔
        ∀ vb ∈ entries.map entryVarbind ++ [closing start entries],
          512 + estimatedVarbindWireSize vb ≤ min maxSize.toInt.toNat 65535) := by
  refine ⟨store.above start, lists_above store start, ?_⟩
  rw [← map_bulkCell_all]
  constructor
  · rintro ⟨k, hk⟩ vb hvb
    obtain ⟨n, hat, hfits⟩ := exists_at_bulkWalk maxSize asks store start k
    rw [← hk, hat.1] at hvb
    obtain ⟨r, hr, rfl⟩ := List.mem_map.mp hvb
    exact hfits r (List.mem_range.mp hr)
  · intro hall
    have hfits (r : Nat) (hr : r ≤ (store.above start).length) :
        FitsBudget maxSize (store.bulkCell start r) :=
      hall _ (List.mem_map.mpr ⟨r, List.mem_range.mpr (Nat.lt_succ_of_le hr), rfl⟩)
    obtain ⟨k, hk⟩ := bulkWalk_completes hasks hfits _ 0 0 ⟨rfl, rfl⟩ (Nat.zero_add _)
    exact ⟨k, hk.1⟩

namespace Sample

def tinyStore : Store := Store.new.set sysDescr (.integer32 5)

end Sample

/-- With the largest message size the walk is complete. -/
theorem bulk_walk_completes_iff_sample :
    ∃ entries, Lists Sample.tinyStore.get Sample.root entries ∧
      ((∃ n, (walk (fun _ => bulkAnswer 65507 Sample.tinyStore ⟨1, 10, .unspecified⟩)
          Sample.root n).received = entries.map entryVarbind ++ [closing Sample.root entries]) ↔
        ∀ vb ∈ entries.map entryVarbind ++ [closing Sample.root entries],
          512 + estimatedVarbindWireSize vb ≤ min (65507 : Int32).toInt.toNat 65535) :=
  bulk_walk_completes_iff Sample.tinyStore Sample.root 65507 (fun _ => ⟨1, 10, .unspecified⟩)
    fun _ => by decide

/-- A manager that takes 484 bytes could be told of the only entry and of the end, and is told
nothing. -/
theorem bulk_walk_stuck :
    Sample.tinyStore.entries = [(Sample.sysDescr, .integer32 5)] ∧
    (∀ vb ∈ [⟨Sample.sysDescr, .value (.integer32 5)⟩,
        closing Sample.root Sample.tinyStore.entries],
      (encodeV3Response Sample.crypto
        (responseParams (Sample.inputs none .noAuthNoPriv) 7 Sample.userName [])
        ⟨1, .noError, 0, [vb]⟩).run Sample.agentSalt =
        .ok (Sample.bulkResponse [vb], Sample.agentSalt) ∧
      (Sample.bulkResponse [vb]).length ≤ min (484 : Int32).toInt.toNat 65535) ∧
    ∀ n, (walk (fun _ => bulkAnswer 484 Sample.tinyStore ⟨1, 10, .unspecified⟩)
      Sample.root n).received = [] := by
  refine ⟨by decide +kernel, by decide +kernel, fun k => ?_⟩
  obtain ⟨n, hat, hfits⟩ := exists_at_bulkWalk 484 (fun _ => ⟨1, 10, .unspecified⟩) Sample.tinyStore
    Sample.root k
  obtain rfl | hpos := Nat.eq_zero_or_pos n
  · exact hat.1
  · -- The allowance alone is larger than 484 bytes.
    have h : 512 + _ ≤ 484 := hfits 0 hpos
    omega

/-! ## Walks through what was set -/

/-- The values that a store holds after commands came in several batches. -/
def drainSets (batches : List (List (Oid × Value))) : Store :=
  batches.foldl (fun store batch => (EventLoop.drainCommands
    (batch.map fun (oid, value) => .setValue oid value) false store).1) .new

/-- The value of the last command for an object identifier. -/
def lastSet (sets : List (Oid × Value)) (oid : Oid) : Option Value :=
  (sets.reverse.find? (·.1 = oid)).map Prod.snd

theorem lastSet_append (sets sets' : List (Oid × Value)) (oid : Oid) :
    lastSet (sets ++ sets') oid = (lastSet sets' oid).or (lastSet sets oid) := by
  rw [lastSet, List.reverse_append, List.find?_append, Option.map_or]
  rfl

theorem lastSet_eq_none {sets : List (Oid × Value)} {oid : Oid} :
    lastSet sets oid = none ↔ ∀ value, (oid, value) ∉ sets := by
  rw [lastSet, Option.map_eq_none_iff, List.find?_eq_none]
  constructor
  · intro h value hmem
    exact h (oid, value) (List.mem_reverse.mpr hmem) (by simp)
  · rintro h ⟨oid', value⟩ hmem heq
    obtain rfl : oid' = oid := by simpa using heq
    exact h value (List.mem_reverse.mp hmem)

theorem get?_drainCommands (sets : List (Oid × Value)) (disconnected : Bool) (store : Store)
    (oid : Oid) :
    (EventLoop.drainCommands (sets.map fun (oid, value) => .setValue oid value) disconnected
      store).1.get? oid = (lastSet sets oid).or (store.get? oid) := by
  induction sets generalizing store with
  | nil => rfl
  | cons entry sets ih =>
    rw [List.map_cons, EventLoop.drainCommands, ih, Store.set, OrderedMap.get?_insert,
      ← List.singleton_append, lastSet_append, Option.or_assoc]
    congr 1
    by_cases h : oid = entry.1
    · simp [lastSet, h]
    · simp [lastSet, h, Ne.symm h]

theorem get?_drainSets (batches : List (List (Oid × Value))) (oid : Oid) :
    (drainSets batches).get? oid = lastSet batches.flatten oid := by
  suffices h : ∀ store : Store, (batches.foldl (fun store batch =>
      (EventLoop.drainCommands (batch.map fun (oid, value) => .setValue oid value) false store).1)
      store).get? oid = (lastSet batches.flatten oid).or (store.get? oid) from
    (h .new).trans (Option.or_none ..)
  induction batches with
  | nil => exact fun _ => rfl
  | cons batch batches ih =>
    intro store
    rw [List.foldl_cons, ih, get?_drainCommands, List.flatten_cons, lastSet_append, Option.or_assoc]

/-- **GETNEXT walks.** After any commands, GET finds the value that was set last, and a manager that
walks with GETNEXT sees every object identifier behind its start that was ever set, and then the
end. -/
theorem getnext_walk_exact (batches : List (List (Oid × Value))) :
    (∀ req : GetRequest, (handleGet req (drainSets batches)).varbinds = req.varbinds.map fun vb =>
      ⟨vb.oid, (lastSet batches.flatten vb.oid).elim .noSuchObject .value⟩) ∧
    (∀ oid, lastSet batches.flatten oid = none ↔ ∀ value, (oid, value) ∉ batches.flatten) ∧
    ∀ (start : Oid) (asks : Nat → Int32 × VarbindValue),
      ∃ entries, Lists (lastSet batches.flatten) start entries ∧
        ∀ n, (walk (fun i => getNextAnswer (drainSets batches) (asks i).1 (asks i).2)
            start n).received =
          (entries.take n).map entryVarbind ++
            .replicate (n - entries.length) (closing start entries) := by
  have hget : (drainSets batches).get = lastSet batches.flatten := funext (get?_drainSets batches)
  refine ⟨fun req => ?_, fun oid => lastSet_eq_none, fun start asks => ?_⟩
  · rw [handleGet, hget]
  · refine ⟨_, hget ▸ lists_above (drainSets batches) start, fun n => ?_⟩
    rw [(at_getNextWalk (drainSets batches) start asks n).1, map_bulkCell_range]

end SnmpAgent
