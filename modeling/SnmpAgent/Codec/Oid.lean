import Mathlib.Order.Lattice
import Mathlib.Data.List.Lex

/-!
# Object identifiers (`codec/oid.rs`)

An `Oid` carries the proof that its arcs passed `validateOidComponents`, as every constructor of the
source checks them. The order is the derived one: lexicographic on the arcs, a proper prefix first.
-/

namespace SnmpAgent

def maxOidSubIdentifiers : Nat := 128

/-- The structural violations of an arc list. -/
inductive OidErrorKind where
  | tooFewComponents (n : Nat)
  | invalidFirstArc (v : UInt32)
  | invalidSecondArc (first second : UInt32)
  | tooManySubIdentifiers (n : Nat)
  deriving DecidableEq, Repr

def OidErrorKind.message : OidErrorKind → String
  | .tooFewComponents n => s!"invalid OID: an OID must have at least two components, got {n}"
  | .invalidFirstArc v => s!"invalid OID: first OID component must be 0, 1, or 2, got {v}"
  | .invalidSecondArc first second =>
    s!"invalid OID: second OID component must be ≤ 39 when first is {first}, got {second}"
  | .tooManySubIdentifiers n =>
    s!"invalid OID: too many sub-identifiers ({n}, max {maxOidSubIdentifiers} per RFC 2578 §3.5)"

def validateOidComponents : List UInt32 → Except OidErrorKind Unit
  | first :: second :: rest =>
    if 2 < first then .error (.invalidFirstArc first)
    -- Below the first arc 2 the combined sub-identifier `40 * first + second` is split by range.
    else if first ≤ 1 ∧ 39 < second then .error (.invalidSecondArc first second)
    else if maxOidSubIdentifiers < (first :: second :: rest).length then
      .error (.tooManySubIdentifiers (first :: second :: rest).length)
    else .ok ()
  | components => .error (.tooFewComponents components.length)

structure Oid where
  arcs : List UInt32
  valid : validateOidComponents arcs = .ok ()
  deriving DecidableEq

namespace Oid

@[ext] theorem ext {a b : Oid} (h : a.arcs = b.arcs) : a = b := by
  cases a
  cases b
  simpa using h

/-- `Oid::try_from`. -/
def tryFrom (components : List UInt32) : Except OidErrorKind Oid :=
  match h : validateOidComponents components with
  | .ok () => .ok ⟨components, h⟩
  | .error kind => .error kind

theorem tryFrom_arcs (oid : Oid) : tryFrom oid.arcs = .ok oid := by
  unfold tryFrom
  split
  · rfl
  · rename_i h
    rw [oid.valid] at h
    cases h

theorem tryFrom_eq_ok {components : List UInt32} {oid : Oid} :
    tryFrom components = .ok oid ↔ oid.arcs = components := by
  constructor
  · unfold tryFrom
    split
    · rintro ⟨⟩
      rfl
    · rintro ⟨⟩
  · rintro rfl
    exact tryFrom_arcs oid

/-- The first arc, the second arc and the rest. Two arcs always exist. -/
def decompose : Oid → UInt32 × UInt32 × List UInt32
  | ⟨first :: second :: rest, _⟩ => (first, second, rest)
  | ⟨[_], h⟩ => absurd h (by simp [validateOidComponents])
  | ⟨[], h⟩ => absurd h (by simp [validateOidComponents])

theorem arcs_eq (oid : Oid) :
    oid.arcs = oid.decompose.1 :: oid.decompose.2.1 :: oid.decompose.2.2 := by
  obtain ⟨_ | ⟨a, _ | ⟨b, rest⟩⟩, h⟩ := oid
  · simp [validateOidComponents] at h
  · simp [validateOidComponents] at h
  · rfl

/-- The structural rules, for the parts of a valid identifier. -/
theorem decompose_valid (oid : Oid) : oid.decompose.1 ≤ 2 ∧
    (oid.decompose.1 ≤ 1 → oid.decompose.2.1 ≤ 39) ∧ oid.decompose.2.2.length ≤ 126 := by
  have h := oid.valid
  rw [arcs_eq, validateOidComponents] at h
  split at h
  · cases h
  split at h
  · cases h
  split at h
  · cases h
  rename_i h1 h2 h3
  refine ⟨UInt32.not_lt.mp h1, fun h => UInt32.not_lt.mp fun h' => h2 ⟨h, h'⟩, ?_⟩
  have hlen := Nat.not_lt.mp h3
  simp only [maxOidSubIdentifiers, List.length_cons] at hlen
  omega

theorem length_le (oid : Oid) : oid.arcs.length ≤ 128 := by
  rw [arcs_eq]
  exact Nat.add_le_add_right oid.decompose_valid.2.2 2

/-! ## The derived order -/

theorem arcs_toNat_injective :
    Function.Injective fun oid : Oid => oid.arcs.map UInt32.toNat := by
  intro a b h
  exact ext (List.map_injective_iff.mpr (fun _ _ => UInt32.toNat_inj.mp) h)

instance : LinearOrder Oid :=
  LinearOrder.lift' (fun oid : Oid => oid.arcs.map UInt32.toNat) arcs_toNat_injective

/-- Lexicographic on the arcs, a proper prefix first. -/
theorem lt_iff_lex {a b : Oid} : a < b ↔ List.Lex (· < ·) a.arcs b.arcs := by
  have hmap (xs ys : List UInt32) : List.Lex (· < ·) (xs.map UInt32.toNat) (ys.map UInt32.toNat) ↔
      List.Lex (· < ·) xs ys := by
    induction xs generalizing ys with
    | nil => cases ys <;> simp
    | cons x xs ih =>
      cases ys with
      | nil => simp
      | cons y ys =>
        simp only [List.map_cons, List.cons_lex_cons_iff, ih, UInt32.lt_iff_toNat_lt,
          UInt32.toNat_inj]
  exact hmap a.arcs b.arcs

end Oid

end SnmpAgent
