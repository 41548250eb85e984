import SnmpAgent.Lib.Res
import SnmpAgent.Lib.BigEndian

/-!
# Slices, vectors and machine arithmetic

Range accesses that fail outside the slice, the growth of a `Vec` (which panics past `isize::MAX`
bytes), overwriting a range in place, and the checked operations on `usize`. The platform is 64-bit.
-/

namespace Rust
variable {ε α : Type}

/-- The number of values of a `usize`. -/
def usizeSize : Nat := 2 ^ 64

/-- The most bytes a vector can hold. -/
def isizeMax : Nat := 2 ^ 63 - 1

theorem isizeMax_lt : isizeMax < usizeSize := by decide

/-- `usize::checked_add`. -/
def checkedAdd (a b : Nat) : Option Nat := if a + b < usizeSize then some (a + b) else none

/-- `usize::checked_mul`. -/
def checkedMul (a b : Nat) : Option Nat := if a * b < usizeSize then some (a * b) else none

/-- Subtraction on `usize`, which panics when it underflows. -/
def usizeSub (a b : Nat) : Res ε Nat := if b ≤ a then .ok (a - b) else .panic

theorem usizeSub_of_le {a b : Nat} (h : b ≤ a) : (usizeSub a b : Res ε Nat) = .ok (a - b) :=
  if_pos h

/-- `slice.get(a..b)`. -/
def slice? (xs : List α) (a b : Nat) : Option (List α) :=
  if a ≤ b ∧ b ≤ xs.length then some ((xs.drop a).take (b - a)) else none

/-- `slice.get(a..)`. -/
def sliceFrom? (xs : List α) (a : Nat) : Option (List α) :=
  if a ≤ xs.length then some (xs.drop a) else none

theorem sliceFrom?_of_le {xs : List α} {a : Nat} (h : a ≤ xs.length) :
    sliceFrom? xs a = some (xs.drop a) := if_pos h

/-- `slice.get(..n)`. -/
theorem slice?_zero (xs : List α) (n : Nat) :
    slice? xs 0 n = if n ≤ xs.length then some (xs.take n) else none := by
  simp [slice?]

/-- A range of a slice, told by the bytes from its start on. -/
theorem slice?_eq_some {xs ys : List α} {a n : Nat} :
    slice? xs a (a + n) = some ys ↔ ys.length = n ∧ a ≤ xs.length ∧
      ∃ rest, xs.drop a = ys ++ rest := by
  simp only [slice?, Nat.le_add_right, true_and, Nat.add_sub_cancel_left]
  constructor
  · intro h
    split at h
    · rename_i hle
      cases h
      exact ⟨by simp; omega, by omega, (xs.drop a).drop n, (List.take_append_drop ..).symm⟩
    · cases h
  · rintro ⟨rfl, ha, rest, h⟩
    have hlen := congrArg List.length h
    simp only [List.length_drop, List.length_append] at hlen
    rw [if_pos (by omega), h, List.take_left]

/-- The parts of a range are where the range has them. -/
theorem slice?_append {xs ys zs : List α} {a n : Nat} (h : slice? xs a (a + n) = some (ys ++ zs)) :
    slice? xs a (a + ys.length) = some ys ∧
      slice? xs (a + ys.length) (a + n) = some zs := by
  obtain ⟨hlen, ha, rest, hrest⟩ := slice?_eq_some.mp h
  have hdrop := congrArg List.length hrest
  simp only [List.length_append, List.length_drop] at hlen hdrop
  rw [List.append_assoc] at hrest
  refine ⟨slice?_eq_some.mpr ⟨rfl, ha, zs ++ rest, hrest⟩, ?_⟩
  rw [← hlen, ← Nat.add_assoc]
  refine slice?_eq_some.mpr ⟨rfl, by omega, rest, ?_⟩
  rw [← List.drop_drop, hrest, List.drop_left]

/-! ## Growth of a vector -/

/-- A vector of these bytes, if there is room for it. -/
def capped (xs : Bytes) : Res ε Bytes := if xs.length ≤ isizeMax then .ok xs else .panic

/-- `Vec::extend_from_slice`. -/
def extend (dest bytes : Bytes) : Res ε Bytes := capped (dest ++ bytes)

theorem capped_of_le {xs : Bytes} (h : xs.length ≤ isizeMax) : (capped xs : Res ε Bytes) = .ok xs :=
  if_pos h

theorem capped_eq_ok {xs ys : Bytes} :
    (capped xs : Res ε Bytes) = .ok ys ↔ ys = xs ∧ xs.length ≤ isizeMax := by
  unfold capped
  split <;> simp [*, eq_comm]

theorem mapErr_capped {ε' : Type} (f : ε → ε') (xs : Bytes) :
    (capped xs : Res ε Bytes).mapErr f = capped xs := by
  unfold capped
  split <;> rfl

theorem capped_ne_err {xs : Bytes} {e : ε} : (capped xs : Res ε Bytes) ≠ .err e := by
  unfold capped
  split <;> simp

/-- A vector that is later part of a longer one needs no check of its own. -/
theorem capped_bind {xs : Bytes} {f : Bytes → Res ε Bytes} {g : Bytes → Bytes}
    (hf : ∀ xs, f xs = capped (g xs)) (h : xs.length ≤ (g xs).length) :
    (capped xs >>= f) = capped (g xs) := by
  by_cases hx : xs.length ≤ isizeMax
  · rw [capped_of_le hx, Res.ok_bind, hf]
  · rw [capped, if_neg hx, Res.panic_bind, capped, if_neg (by omega)]

theorem capped_bind_append (xs ys : Bytes) :
    ((capped xs : Res ε Bytes) >>= fun zs => capped (zs ++ ys)) = capped (xs ++ ys) :=
  capped_bind (g := (· ++ ys)) (fun _ => rfl) (by simp)

/-! ## Overwriting a range -/

/-- `xs.get_mut(a..a + ys.len()).copy_from_slice(ys)`, for a range inside `xs`. -/
def overwrite (xs : List α) (a : Nat) (ys : List α) : List α :=
  xs.take a ++ ys ++ xs.drop (a + ys.length)

theorem overwrite_append {pre mid post ys : List α} (h : ys.length = mid.length) :
    overwrite (pre ++ mid ++ post) pre.length ys = pre ++ ys ++ post := by
  simp [overwrite, h, List.append_assoc]

end Rust
