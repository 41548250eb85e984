import SnmpAgent.Lib.Res

/-!
# Properties along a run

A run folds a fallible step over its inputs. `Always step P` says that `P` holds of the state and
the input before each step, as far as the run gets; a run that ends early owes nothing afterwards.
-/

namespace Rust
variable {σ τ ι ε : Type}

def Always (step : σ → ι → Res ε σ) (P : σ → ι → Prop) : List ι → σ → Prop
  | [], _ => True
  | i :: is, s => P s i ∧ ∀ s', step s i = .ok s' → Always step P is s'

/-- The invariant rule: an invariant that is kept by the steps that meet a condition, in a run whose
steps all do. -/
theorem Always.of_inv {step : σ → ι → Res ε σ} {C P : σ → ι → Prop} (I : σ → Prop)
    (hstep : ∀ s i s', I s → C s i → step s i = .ok s' → I s') (hP : ∀ s i, I s → C s i → P s i)
    {is : List ι} {s : σ} (hs : I s) (h : Always step C is s) : Always step P is s := by
  induction is generalizing s with
  | nil => trivial
  | cons i is ih =>
    obtain ⟨hC, hrest⟩ := h
    exact ⟨hP s i hs hC, fun s' hs' => ih (hstep s i s' hs hC hs') (hrest s' hs')⟩

theorem Always.mono {step : σ → ι → Res ε σ} {C P : σ → ι → Prop} (h : ∀ s i, C s i → P s i)
    {is : List ι} {s : σ} (H : Always step C is s) : Always step P is s :=
  .of_inv (fun _ => True) (fun _ _ _ _ _ _ => trivial) (fun s i _ => h s i) trivial H

/-- What every step keeps, a run keeps. -/
theorem foldlM_inv {step : σ → ι → Res ε σ} (I : σ → Prop)
    (hstep : ∀ s i s', I s → step s i = .ok s' → I s') {is : List ι} {s s' : σ} (hs : I s)
    (h : is.foldlM step s = .ok s') : I s' := by
  induction is generalizing s with
  | nil =>
    cases h
    exact hs
  | cons i is ih =>
    obtain ⟨s₁, hs₁, h⟩ := Res.bind_eq_ok.mp h
    exact ih (hstep s i s₁ hs hs₁) h

/-- Where a run comes to before a step does not return. -/
def lastState (step : σ → ι → Res ε σ) : List ι → σ → σ
  | [], s => s
  | i :: is, s =>
    match step s i with
    | .ok s' => lastState step is s'
    | _ => s

theorem lastState_inv {step : σ → ι → Res ε σ} (I : σ → Prop)
    (hstep : ∀ s i s', I s → step s i = .ok s' → I s') (is : List ι) {s : σ} (hs : I s) :
    I (lastState step is s) := by
  induction is generalizing s with
  | nil => exact hs
  | cons i is ih =>
    rw [lastState]
    split
    · rename_i s' hs'
      exact ih (hstep s i s' hs hs')
    · exact hs

/-- A run of steps that carry more state than those they stand for. -/
theorem map_foldlM {step : σ → ι → Res ε σ} {step' : τ → ι → Res ε τ} {f : σ → τ}
    (h : ∀ s i, f <$> step s i = step' (f s) i) (is : List ι) (s : σ) :
    f <$> is.foldlM step s = is.foldlM step' (f s) := by
  induction is generalizing s with
  | nil => rfl
  | cons i is ih =>
    rw [List.foldlM_cons, List.foldlM_cons, ← h]
    cases step s i with
    | ok s' => exact ih s'
    | err e => rfl
    | panic => rfl

end Rust
