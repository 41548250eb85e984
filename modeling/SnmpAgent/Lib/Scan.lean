import SnmpAgent.Lib.OrderedMap

/-!
# Scans of a map that grows

A scan goes through an ordered map in several steps, each of which takes the next entries behind the
last key, and others write to the map in between. If no key is ever taken away, the scan is as good
as one of a map at rest: the keys that it has seen ascend, and it has seen every key up to its
position that was there at the beginning (`Scan.Inv.advance`).
-/

namespace Rust
variable {κ α : Type} [LinearOrder κ]

namespace OrderedMap

/-- Every key of the first map is one of the second. -/
def Grows (m m' : OrderedMap κ α) : Prop := ∀ k, (m.get? k).isSome → (m'.get? k).isSome

variable {m m' m'' : OrderedMap κ α}

theorem Grows.refl (m : OrderedMap κ α) : m.Grows m := fun _ h => h

theorem Grows.trans (H : m.Grows m') (H' : m'.Grows m'') : m.Grows m'' := fun k h => H' k (H k h)

theorem grows_insert (m : OrderedMap κ α) (k : κ) (a : α) : m.Grows (m.insert k a) := by
  intro k' h
  rw [get?_insert]
  split
  · rfl
  · exact h

theorem mem_above_of_isSome {k k' : κ} (hlt : k < k') (h : (m.get? k').isSome) :
    k' ∈ (m.above k).map Prod.fst := by
  obtain ⟨a, ha⟩ := Option.isSome_iff_exists.mp h
  exact List.mem_map.mpr ⟨(k', a), m.mem_above.mpr ⟨mem_entries.mpr ha, hlt⟩, rfl⟩

/-- Behind the key at which `n` steps arrive are the entries behind the first `n`. -/
theorem above_reached (m : OrderedMap κ α) (k : κ) (n : Nat) :
    m.above (m.reached k n) = (m.above k).drop n := by
  induction n with
  | zero => rfl
  | succ n ih =>
    rw [reached, ← List.tail_drop, ← ih]
    cases h : m.next? (m.reached k n) with
    | none =>
      rw [← head?_above, List.head?_eq_none_iff] at h
      rw [Option.map_none, Option.getD_none, h, List.tail_nil]
    | some e => rw [Option.map_some, Option.getD_some, above_of_next? h, List.tail_cons]

theorem le_reached (m : OrderedMap κ α) (k : κ) (n : Nat) : k ≤ m.reached k n := by
  induction n with
  | zero => exact le_refl k
  | succ n ih =>
    rw [reached]
    cases h : m.next? (m.reached k n) with
    | none => exact ih
    | some e =>
      have hmem : e ∈ m.above (m.reached k n) := by
        rw [above_of_next? h]
        exact List.mem_cons_self
      exact ih.trans (mem_above.mp hmem).2.le

/-- The first `n` entries are those up to the key at which `n` steps arrive. -/
theorem mem_take_above {k : κ} {n : Nat} {e : κ × α} :
    e ∈ (m.above k).take n ↔ e ∈ m.above k ∧ e.1 ≤ m.reached k n := by
  have hsplit := List.take_append_drop n (m.above k)
  constructor
  · intro h
    refine ⟨List.mem_of_mem_take h, not_lt.mp fun hlt => ?_⟩
    have hdrop : e ∈ (m.above k).drop n := by
      rw [← above_reached]
      exact mem_above.mpr ⟨(mem_above.mp (List.mem_of_mem_take h)).1, hlt⟩
    have hsorted := sorted_above (m := m) k
    rw [← hsplit] at hsorted
    exact absurd ((List.pairwise_append.mp hsorted).2.2 e h e hdrop) (lt_irrefl _)
  · rintro ⟨h, hle⟩
    rw [← hsplit, List.mem_append] at h
    rcases h with h | h
    · exact h
    · rw [← above_reached] at h
      exact absurd (mem_above.mp h).2 (not_lt.mpr hle)

end OrderedMap

/-- What has been seen, the key behind which the scan goes on, and whether it has come to an end. -/
structure Scan (κ α : Type) where
  seen : List (κ × α)
  position : κ
  ended : Bool

namespace Scan

def start (k : κ) : Scan κ α := ⟨[], k, false⟩

/-- Take the next `n` entries of the map as it is now. -/
def advance (s : Scan κ α) (m : OrderedMap κ α) (n : Nat) : Scan κ α where
  seen := s.seen ++ (m.above s.position).take n
  position := m.reached s.position n
  ended := s.ended || decide ((m.above s.position).length < n)

/-- A scan from `k` on, of a map that was `first` at the beginning. -/
structure Inv (k : κ) (first : OrderedMap κ α) (s : Scan κ α) : Prop where
  start_le : k ≤ s.position
  ascending : s.seen.Pairwise (·.1 < ·.1)
  within : ∀ e ∈ s.seen, k < e.1 ∧ e.1 ≤ s.position
  complete : ∀ k', k < k' → k' ≤ s.position → (first.get? k').isSome → k' ∈ s.seen.map Prod.fst
  ended : s.ended → ∀ k', k < k' → (first.get? k').isSome → k' ∈ s.seen.map Prod.fst

theorem Inv.start (k : κ) (first : OrderedMap κ α) : Inv k first (.start k) where
  start_le := le_refl k
  ascending := .nil
  within e h := by cases h
  complete k' hlt hle _ := absurd hlt (not_lt.mpr hle)
  ended h := by cases h

variable {k : κ} {first m : OrderedMap κ α} {s : Scan κ α}

/-- Other keys may come up behind the scan or before it, and it goes on. -/
theorem Inv.advance (H : Inv k first s) (hgrows : first.Grows m) (n : Nat) :
    Inv k first (s.advance m n) := by
  have hposition : s.position ≤ m.reached s.position n := m.le_reached _ _
  refine ⟨H.start_le.trans hposition, ?_, ?_, ?_, ?_⟩
  · refine List.pairwise_append.mpr ⟨H.ascending, (OrderedMap.sorted_above _).take, ?_⟩
    intro e he e' he'
    exact lt_of_le_of_lt (H.within e he).2
      (OrderedMap.mem_above.mp (List.mem_of_mem_take he')).2
  · intro e he
    rcases List.mem_append.mp he with he | he
    · exact ⟨(H.within e he).1, (H.within e he).2.trans hposition⟩
    · obtain ⟨habove, hle⟩ := OrderedMap.mem_take_above.mp he
      exact ⟨lt_of_le_of_lt H.start_le (OrderedMap.mem_above.mp habove).2, hle⟩
  · intro k' hlt hle hfirst
    change k' ∈ (s.seen ++ (m.above s.position).take n).map Prod.fst
    rw [List.map_append, List.mem_append]
    by_cases hold : k' ≤ s.position
    · exact .inl (H.complete k' hlt hold hfirst)
    · obtain ⟨e, he, rfl⟩ := List.mem_map.mp
        (OrderedMap.mem_above_of_isSome (not_le.mp hold) (hgrows k' hfirst))
      exact .inr (List.mem_map_of_mem (OrderedMap.mem_take_above.mpr ⟨he, hle⟩))
  · intro hended k' hlt hfirst
    change k' ∈ (s.seen ++ (m.above s.position).take n).map Prod.fst
    rw [List.map_append, List.mem_append]
    rcases Bool.or_eq_true .. ▸ hended with hended | hended
    · exact .inl (H.ended hended k' hlt hfirst)
    by_cases hold : k' ≤ s.position
    · exact .inl (H.complete k' hlt hold hfirst)
    · rw [List.take_of_length_le (of_decide_eq_true hended).le]
      exact .inr (OrderedMap.mem_above_of_isSome (not_le.mp hold) (hgrows k' hfirst))

end Scan

end Rust
