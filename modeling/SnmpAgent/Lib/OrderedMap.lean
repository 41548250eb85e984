import Mathlib.Order.Basic
import Mathlib.Data.List.Basic
import Mathlib.Order.Lattice

/-!
# Finite maps in key order

A `BTreeMap` as its entries in ascending order. `above k` is the range of keys greater than `k`, and
`next?` its first entry. Stepping from key to key with `next?` walks through that range
(`above_of_next?`), which is how the iterated successors are computed (`successor?_eq`).
-/

namespace Rust

structure OrderedMap (κ α : Type) [LinearOrder κ] where
  entries : List (κ × α)
  sorted : entries.Pairwise (·.1 < ·.1)

namespace OrderedMap
variable {κ α : Type} [LinearOrder κ]

instance [DecidableEq α] : DecidableEq (OrderedMap κ α) := fun m n =>
  decidable_of_iff (m.entries = n.entries) (by cases m; cases n; simp)

def empty : OrderedMap κ α := ⟨[], .nil⟩

/-! ## Insertion and lookup -/

/-- Put an entry at its place, over an entry with the same key. -/
def insertEntry (k : κ) (a : α) : List (κ × α) → List (κ × α)
  | [] => [(k, a)]
  | e :: es =>
    if k < e.1 then (k, a) :: e :: es
    else if k = e.1 then (k, a) :: es
    else e :: insertEntry k a es

theorem mem_insertEntry {k : κ} {a : α} {e : κ × α} {es : List (κ × α)}
    (h : e ∈ insertEntry k a es) : e = (k, a) ∨ e ∈ es := by
  induction es with
  | nil => exact .inl (List.mem_singleton.mp h)
  | cons e' es ih =>
    rw [insertEntry] at h
    split at h
    · exact List.mem_cons.mp h
    split at h
    · exact (List.mem_cons.mp h).imp_right (List.mem_cons_of_mem e')
    · rcases List.mem_cons.mp h with rfl | h
      · exact .inr List.mem_cons_self
      · exact (ih h).imp_right (List.mem_cons_of_mem e')

theorem sorted_insertEntry (k : κ) (a : α) {es : List (κ × α)}
    (h : es.Pairwise (·.1 < ·.1)) : (insertEntry k a es).Pairwise (·.1 < ·.1) := by
  induction es with
  | nil => exact List.pairwise_singleton _ _
  | cons e es ih =>
    obtain ⟨he, hes⟩ := List.pairwise_cons.mp h
    rw [insertEntry]
    split
    · rename_i hlt
      refine List.pairwise_cons.mpr ⟨fun x hx => ?_, h⟩
      rcases List.mem_cons.mp hx with rfl | hx
      · exact hlt
      · exact lt_trans hlt (he x hx)
    split
    · rename_i heq
      exact List.pairwise_cons.mpr ⟨fun x hx => heq ▸ he x hx, hes⟩
    · rename_i hnlt hne
      refine List.pairwise_cons.mpr ⟨fun x hx => ?_, ih hes⟩
      rcases mem_insertEntry hx with rfl | hx
      · exact lt_of_le_of_ne (not_lt.mp hnlt) (Ne.symm hne)
      · exact he x hx

def insert (m : OrderedMap κ α) (k : κ) (a : α) : OrderedMap κ α :=
  ⟨insertEntry k a m.entries, sorted_insertEntry k a m.sorted⟩

def get? (m : OrderedMap κ α) (k : κ) : Option α := (m.entries.find? (·.1 = k)).map Prod.snd

theorem get?_insert (m : OrderedMap κ α) (k k' : κ) (a : α) :
    (m.insert k a).get? k' = if k' = k then some a else m.get? k' := by
  obtain ⟨es, h⟩ := m
  simp only [insert, get?]
  clear h
  induction es with
  | nil =>
    by_cases hk : k' = k
    · simp [insertEntry, hk]
    · simp [insertEntry, hk, Ne.symm hk]
  | cons e es ih =>
    rw [insertEntry]
    split
    · by_cases hk : k' = k
      · simp [hk]
      · simp [hk, List.find?_cons, Ne.symm hk]
    split
    · rename_i heq
      by_cases hk : k' = k
      · simp [hk]
      · simp [hk, ← heq, Ne.symm hk]
    · by_cases hk : e.1 = k'
      · have hne : k' ≠ k := by rintro rfl; simp_all
        simp [hk, hne]
      · simp only [List.find?_cons, hk, decide_false]
        exact ih

theorem mem_entries {m : OrderedMap κ α} {k : κ} {a : α} :
    (k, a) ∈ m.entries ↔ m.get? k = some a := by
  obtain ⟨es, h⟩ := m
  simp only [get?]
  induction es with
  | nil => simp
  | cons e es ih =>
    obtain ⟨hlt, hes⟩ := List.pairwise_cons.mp h
    rw [List.mem_cons, List.find?_cons]
    by_cases hk : e.1 = k
    · have hnot : (k, a) ∉ es := fun hmem => (hlt _ hmem).ne hk
      simp only [hk, decide_true, Option.map_some, Option.some.injEq]
      constructor
      · rintro (rfl | hmem)
        · rfl
        · exact absurd hmem hnot
      · rintro rfl
        exact .inl (Prod.ext hk.symm rfl)
    · have hne : (k, a) ≠ e := by
        rintro rfl
        exact hk rfl
      simp only [hk, decide_false]
      rw [← ih hes]
      exact or_iff_right hne

/-- Drop the entry with this key. -/
def erase (m : OrderedMap κ α) (k : κ) : OrderedMap κ α :=
  ⟨m.entries.filter (·.1 ≠ k), m.sorted.filter _⟩

theorem get?_erase (m : OrderedMap κ α) (k k' : κ) :
    (m.erase k).get? k' = if k' = k then none else m.get? k' := by
  refine Option.ext fun a => ?_
  rw [← mem_entries, erase, List.mem_filter, mem_entries]
  by_cases hk : k' = k <;> simp [hk]

theorem length_erase_le (m : OrderedMap κ α) (k : κ) :
    (m.erase k).entries.length ≤ m.entries.length := List.length_filter_le ..

theorem length_insertEntry (k : κ) (a : α) (es : List (κ × α)) :
    (insertEntry k a es).length ≤ es.length + 1 ∧
      ((∃ e ∈ es, e.1 = k) → es.Pairwise (·.1 < ·.1) → (insertEntry k a es).length =
        es.length) := by
  induction es with
  | nil => simp [insertEntry]
  | cons e es ih =>
    rw [insertEntry]
    split
    · rename_i hlt
      refine ⟨by simp, fun ⟨e', hmem, hk⟩ hsorted => ?_⟩
      -- A smaller key than the first one is not in the list.
      rcases List.mem_cons.mp hmem with rfl | hmem
      · exact absurd hk hlt.ne'
      · exact absurd hk (hlt.trans ((List.pairwise_cons.mp hsorted).1 e' hmem)).ne'
    split
    · simp
    · rename_i hne
      refine ⟨by simpa using ih.1, fun ⟨e', hmem, hk⟩ hsorted => ?_⟩
      rcases List.mem_cons.mp hmem with rfl | hmem
      · exact absurd hk.symm hne
      · simpa using ih.2 ⟨e', hmem, hk⟩ (List.pairwise_cons.mp hsorted).2

theorem length_insert_le (m : OrderedMap κ α) (k : κ) (a : α) :
    (m.insert k a).entries.length ≤ m.entries.length + 1 := (length_insertEntry ..).1

/-- Overwriting an entry adds none. -/
theorem length_insert_of_get? {m : OrderedMap κ α} {k : κ} {a' : α} (h : m.get? k = some a')
    (a : α) :
    (m.insert k a).entries.length = m.entries.length :=
  (length_insertEntry k a m.entries).2 ⟨_, mem_entries.mpr h, rfl⟩ m.sorted

/-! ## Successors -/

variable (m : OrderedMap κ α)

/-- The entries with a key greater than `k`, in order. -/
def above (k : κ) : List (κ × α) := m.entries.filter (k < ·.1)

/-- `range((Excluded(k), Unbounded)).next()`. -/
def next? (k : κ) : Option (κ × α) := m.entries.find? (k < ·.1)

variable {m}

theorem head?_above (k : κ) : (m.above k).head? = m.next? k := List.head?_filter ..

theorem mem_above {k : κ} {e : κ × α} : e ∈ m.above k ↔ e ∈ m.entries ∧ k < e.1 := by
  simp [above]

theorem sorted_above (k : κ) : (m.above k).Pairwise (·.1 < ·.1) := m.sorted.filter _

/-- One step of a walk. -/
theorem above_of_next? {k : κ} {e : κ × α} (h : m.next? k = some e) :
    m.above k = e :: m.above e.1 := by
  rw [← head?_above] at h
  obtain ⟨es, hes⟩ := List.head?_eq_some_iff.mp h
  have hsorted := hes ▸ sorted_above (m := m) k
  have hlt : k < e.1 := (mem_above.mp (hes ▸ List.mem_cons_self)).2
  -- What is above `e` is above `k`, and of the entries above `k` only `e` itself is not above `e`.
  have habove : m.above e.1 = (m.above k).filter (e.1 < ·.1) := by
    rw [above, above, List.filter_filter]
    refine List.filter_congr fun x _ => ?_
    by_cases hx : e.1 < x.1
    · simp [hx, hlt.trans hx]
    · simp [hx]
  rw [habove, hes, List.filter_cons, if_neg (by simp)]
  congr 1
  exact (List.filter_eq_self.mpr fun x hx => by
    simpa using (List.pairwise_cons.mp hsorted).1 x hx).symm

variable (m)

/-- The `n`-th entry behind `k`, found by stepping from key to key. -/
def successor? (k : κ) : Nat → Option (κ × α)
  | 0 => m.next? k
  | n + 1 => (successor? k n).bind fun e => m.next? e.1

/-- The key at which `n` steps from `k` arrive. A step from the last key stays there. -/
def reached (k : κ) : Nat → κ
  | 0 => k
  | n + 1 => ((m.next? (reached k n)).map Prod.fst).getD (reached k n)

variable {m}

theorem successor?_eq_some {k : κ} {n : Nat} {e : κ × α} (h : m.successor? k n = some e) :
    (m.above k).drop n = e :: m.above e.1 := by
  induction n generalizing e with
  | zero => exact above_of_next? h
  | succ n ih =>
    obtain ⟨e', he', h⟩ := Option.bind_eq_some_iff.mp h
    rw [← List.tail_drop, ih he', List.tail_cons]
    exact above_of_next? h

theorem successor?_eq (k : κ) (n : Nat) : m.successor? k n = (m.above k)[n]? := by
  induction n with
  | zero => rw [successor?, ← head?_above, List.head?_eq_getElem?]
  | succ n ih =>
    rw [successor?]
    cases h : m.successor? k n with
    | none =>
      rw [h] at ih
      rw [Option.bind_none, eq_comm, List.getElem?_eq_none_iff]
      exact Nat.le_succ_of_le (List.getElem?_eq_none_iff.mp ih.symm)
    | some e =>
      have hdrop := successor?_eq_some h
      rw [Option.bind_some, ← head?_above, ← List.head?_drop, ← List.tail_drop, hdrop,
        List.tail_cons]

/-- Stepping on from where `n` steps arrived. -/
theorem next?_reached (k : κ) (n : Nat) : m.next? (m.reached k n) = m.successor? k n := by
  induction n with
  | zero => rfl
  | succ n ih =>
    rw [reached, ih, successor?]
    cases h : m.successor? k n with
    | none =>
      rw [Option.map_none, Option.getD_none, ih, h, Option.bind_none]
    | some e => rw [Option.map_some, Option.getD_some, Option.bind_some]

theorem reached_succ (k : κ) (n : Nat) :
    m.reached k (n + 1) = ((m.successor? k n).map Prod.fst).getD (m.reached k n) := by
  rw [reached, next?_reached]

theorem reached_reached (k : κ) (n r : Nat) :
    m.reached (m.reached k n) r = m.reached k (n + r) := by
  induction r with
  | zero => rfl
  | succ r ih => rw [reached, ih, ← Nat.add_assoc, reached]

theorem successor?_reached (k : κ) (n r : Nat) :
    m.successor? (m.reached k n) r = m.successor? k (n + r) := by
  rw [← next?_reached, reached_reached, next?_reached]

/-- After `n` steps a walk is at the last of the first `n` keys behind its start. -/
theorem reached_eq (k : κ) (n : Nat) :
    m.reached k n = (((m.above k).take n).getLast?.map Prod.fst).getD k := by
  induction n with
  | zero => simp [reached]
  | succ n ih =>
    rw [reached_succ, successor?_eq, List.take_add_one, ih]
    cases (m.above k)[n]? <;> simp

end OrderedMap

end Rust
