import Mathlib.Data.List.Basic
import Mathlib.Data.List.Induction
import Mathlib.Data.Nat.Digits.Defs

/-!
# Decimal numerals

Digit strings and the numbers they spell, `Nat.ofDigitChars 10`. `Nat.toDigits 10` gives every
number one spelling without a redundant zero, and there is no other.
-/

namespace Decimal

def IsDigits (cs : List Char) : Prop := ∀ c ∈ cs, c.isDigit = true

abbrev value (cs : List Char) : Nat := Nat.ofDigitChars 10 cs 0

/-- A digit string with no redundant zero in front. -/
structure IsNumeral (cs : List Char) : Prop where
  digits : IsDigits cs
  ne_nil : cs ≠ []
  no_leading_zero : cs.head? = some '0' → cs = ['0']

theorem isDigits_cons {c : Char} {cs : List Char} :
    IsDigits (c :: cs) ↔ c.isDigit = true ∧ IsDigits cs := List.forall_mem_cons

theorem IsDigits.not_mem {cs : List Char} (h : IsDigits cs) {c : Char} (hc : c.isDigit = false) :
    c ∉ cs := by
  intro hmem
  rw [h c hmem] at hc
  cases hc

theorem le_ofDigitChars (cs : List Char) (init : Nat) : init ≤ Nat.ofDigitChars 10 cs init := by
  rw [Nat.ofDigitChars_eq_ofDigitChars_zero]
  exact Nat.le_add_right_of_le (Nat.le_mul_of_pos_left init (by positivity))

theorem isDigits_toDigits (n : Nat) : IsDigits (Nat.toDigits 10 n) :=
  fun _ => Nat.isDigit_of_mem_toDigits (by decide) (by decide)

theorem digitChar_eq_zero {n : Nat} (hn : n < 10) (h : n.digitChar = '0') : n = 0 := by
  revert h
  decide +revert

theorem head?_toDigits {n : Nat} (h : (Nat.toDigits 10 n).head? = some '0') : n = 0 := by
  induction n using Nat.strongRecOn with
  | ind n ih =>
    by_cases hn : n < 10
    · rw [Nat.toDigits_of_lt_base hn] at h
      exact digitChar_eq_zero hn (Option.some.inj h)
    · rw [Nat.toDigits_of_base_le (by decide) (Nat.not_lt.mp hn),
        List.head?_append_of_ne_nil _ Nat.toDigits_ne_nil] at h
      have := ih (n / 10) (by omega) h
      omega

theorem isNumeral_toDigits (n : Nat) : IsNumeral (Nat.toDigits 10 n) where
  digits := isDigits_toDigits n
  ne_nil := Nat.toDigits_ne_nil
  no_leading_zero h := by
    rw [head?_toDigits h]
    exact Nat.toDigits_zero 10

theorem digitChar_digit {c : Char} (h : c.isDigit = true) :
    c.toNat - '0'.toNat < 10 ∧ (c.toNat - '0'.toNat).digitChar = c := by
  have hrange : 48 ≤ c.toNat ∧ c.toNat ≤ 57 := by
    rw [Char.isDigit, Bool.and_eq_true, decide_eq_true_eq, decide_eq_true_eq] at h
    exact h
  have hall : ∀ d < 10, d.digitChar = Char.ofNat (48 + d) := by decide
  have hlt : c.toNat - 48 < 10 := by omega
  refine ⟨hlt, (hall _ hlt).trans ?_⟩
  rw [Nat.add_sub_cancel' hrange.1, Char.ofNat_toNat]

/-- A number has one numeral. -/
theorem IsNumeral.toDigits_value {cs : List Char} (h : IsNumeral cs) :
    Nat.toDigits 10 (value cs) = cs := by
  induction cs using List.reverseRecOn with
  | nil => exact absurd rfl h.ne_nil
  | append_singleton cs c ih =>
    obtain ⟨hlt, hc⟩ := digitChar_digit (h.digits c (by simp))
    have hdigit : Nat.toDigits 10 (c.toNat - '0'.toNat) = [c] := by
      rw [Nat.toDigits_of_lt_base hlt, hc]
    by_cases hnil : cs = []
    · subst hnil
      rw [List.nil_append, value, Nat.ofDigitChars_cons, Nat.ofDigitChars_nil, Nat.mul_zero,
        Nat.zero_add, hdigit]
    · -- The digits in front have no redundant zero, so they are not the number zero.
      have hhead : (cs ++ [c]).head? = cs.head? := List.head?_append_of_ne_nil _ hnil
      have hzero : cs.head? ≠ some '0' := by
        intro hzero
        have := congrArg List.length (h.no_leading_zero (hhead.trans hzero))
        exact hnil (List.length_eq_zero_iff.mp (by simpa using this))
      have hcs := ih ⟨fun d hd => h.digits d (by simp [hd]), hnil, (absurd · hzero)⟩
      have hpos : 0 < value cs := by
        refine Nat.pos_of_ne_zero fun h0 => hzero ?_
        rw [← hcs, h0]
        rfl
      have hvalue : value (cs ++ [c]) = 10 * value cs + (c.toNat - '0'.toNat) := by
        rw [value, Nat.ofDigitChars_append, Nat.ofDigitChars_cons, Nat.ofDigitChars_nil]
      rw [hvalue, ← Nat.toDigits_append_toDigits (by decide) hpos hlt, hcs, hdigit]

theorem value_toDigits (n : Nat) : value (Nat.toDigits 10 n) = n := Nat.ofDigitChars_ten_toDigits

theorem isNumeral_iff {cs : List Char} {n : Nat} :
    IsNumeral cs ∧ value cs = n ↔ cs = Nat.toDigits 10 n := by
  constructor
  · rintro ⟨h, rfl⟩
    exact h.toDigits_value.symm
  · rintro rfl
    exact ⟨isNumeral_toDigits n, value_toDigits n⟩

end Decimal
