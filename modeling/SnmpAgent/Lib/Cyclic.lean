import Mathlib.Tactic.Ring

/-!
# Cyclic repetition

A list repeated without end, cut off after any number of elements.
-/

namespace Cyclic
variable {α : Type}

/-- The first `n` elements of `xs` repeated; `d` stands for the elements of an empty list. -/
def cycle (d : α) (xs : List α) (n : Nat) : List α :=
  (List.range n).map fun i => xs.getD (i % xs.length) d

@[simp] theorem length_cycle (d : α) (xs : List α) (n : Nat) : (cycle d xs n).length = n := by
  simp [cycle]

theorem cycle_of_le {d : α} {xs : List α} {n : Nat} (h : n ≤ xs.length) :
    cycle d xs n = xs.take n := by
  apply List.ext_getElem
  · simp [h]
  · intro i hi _
    rw [length_cycle] at hi
    have hlt : i < xs.length := Nat.lt_of_lt_of_le hi h
    simp [cycle, Nat.mod_eq_of_lt hlt, hlt]

theorem cycle_length_add (d : α) (xs : List α) (n : Nat) :
    cycle d xs (xs.length + n) = xs ++ cycle d xs n := by
  have hhead : cycle d xs xs.length = xs := by
    rw [cycle_of_le (Nat.le_refl _), List.take_length]
  calc cycle d xs (xs.length + n)
      = cycle d xs xs.length ++
          (List.range n).map fun i => xs.getD ((xs.length + i) % xs.length) d := by
        simp [cycle, List.range_add]
    _ = xs ++ cycle d xs n := by
        simp only [hhead, Nat.add_mod_left]
        rfl

/-- Whole copies and then a part of one. -/
theorem flatten_replicate_append_take {d : α} {xs : List α} {r : Nat} (k : Nat)
    (h : r ≤ xs.length) :
    (List.replicate k xs).flatten ++ xs.take r = cycle d xs (k * xs.length + r) := by
  induction k with
  | zero => simp [cycle_of_le h]
  | succ k ih =>
    have hlen : (k + 1) * xs.length + r = xs.length + (k * xs.length + r) := by ring
    rw [List.replicate_succ, List.flatten_cons, List.append_assoc, ih, hlen, cycle_length_add]

end Cyclic
