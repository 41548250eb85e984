import Mathlib.Order.Defs.Unbundled
import SnmpAgent.Lib.Res

/-!
# Where a method leaves its state

A failing method leaves a state behind as well as one that returns. `Act.Leads R x s` says that `R`
relates the state `s` to every state in which the call `x` may end, whichever way. The rules follow
the constructs that methods are written with; a sequence needs a transitive relation, or a second
part that does not touch the state (`Leads.bind_same`).
-/

namespace Rust.Act
variable {σ ε α β : Type} {R : σ → σ → Prop} {x : Act σ ε α} {s : σ}

def Ends (x : Act σ ε α) (s s' : σ) : Prop :=
  (∃ a, x.run s = .ok (a, s')) ∨ ∃ e, x.run s = .err (e, s')

def Leads (R : σ → σ → Prop) (x : Act σ ε α) (s : σ) : Prop := ∀ s', x.Ends s s' → R s s'

theorem Ends.eq_of_ok {s' s'' : σ} {a : α} (h : x.Ends s s') (ha : x.run s = .ok (a, s'')) :
    s' = s'' := by
  rcases h with ⟨b, h⟩ | ⟨e, h⟩ <;> cases h.symm.trans ha
  rfl

/-- A sequence ends where its first part fails, or where its second part ends. -/
theorem Ends.of_bind {f : α → Act σ ε β} {s'' : σ} (h : (x >>= f).Ends s s'') :
    x.Ends s s'' ∨ ∃ a s', x.run s = .ok (a, s') ∧ (f a).Ends s' s'' := by
  rw [Ends, StateT.run_bind] at h
  cases hx : x.run s with
  | ok p =>
    rw [hx] at h
    exact .inr ⟨p.1, p.2, rfl, h⟩
  | err e =>
    rw [hx] at h
    rcases h with ⟨b, h⟩ | ⟨e', h⟩
    · cases h
    · cases h
      exact .inl (.inr ⟨_, hx⟩)
  | panic =>
    rw [hx] at h
    rcases h with ⟨b, h⟩ | ⟨e', h⟩ <;> cases h

theorem Leads.mono {R' : σ → σ → Prop} (h : Leads R x s) (hR : ∀ s', R s s' → R' s s') :
    Leads R' x s :=
  fun s' hs' => hR s' (h s' hs')

theorem Leads.bind [IsTrans σ R] {f : α → Act σ ε β} (hx : Leads R x s)
    (hf : ∀ a s', x.run s = .ok (a, s') → Leads R (f a) s') : Leads R (x >>= f) s := by
  intro s'' h
  rcases h.of_bind with h | ⟨a, s', hs', h⟩
  · exact hx s'' h
  · exact trans_of R (hx s' (.inl ⟨a, hs'⟩)) (hf a s' hs' s'' h)

theorem Leads.bind_same {f : α → Act σ ε β} (hx : Leads R x s)
    (hf : ∀ a s', x.run s = .ok (a, s') → Leads Eq (f a) s') : Leads R (x >>= f) s := by
  intro s'' h
  rcases h.of_bind with h | ⟨a, s', hs', h⟩
  · exact hx s'' h
  · obtain rfl := hf a s' hs' s'' h
    exact hx s' (.inl ⟨a, hs'⟩)

theorem Leads.get_bind {f : σ → Act σ ε β} (h : Leads R (f s) s) : Leads R (get >>= f) s := by
  intro s' hs'
  rw [Ends, StateT.run_bind] at hs'
  exact h s' hs'

theorem Leads.ite {c : Prop} [Decidable c] {y : Act σ ε α} (hx : c → Leads R x s)
    (hy : ¬ c → Leads R y s) : Leads R (if c then x else y) s := by
  split
  · exact hx ‹_›
  · exact hy ‹_›

theorem Leads.modify_bind [IsTrans σ R] {g : σ → σ} {f : PUnit → Act σ ε β} (hg : R s (g s))
    (h : Leads R (f ⟨⟩) (g s)) : Leads R (modify g >>= f) s := by
  intro s' hs'
  rw [Ends, StateT.run_bind] at hs'
  exact trans_of R hg (h s' hs')

section
variable [Std.Refl R]

theorem Leads.pure (a : α) (s : σ) : Leads R (Pure.pure a : Act σ ε α) s := by
  rintro s' (⟨b, h⟩ | ⟨e, h⟩) <;> cases h
  exact refl_of R s

theorem Leads.fail (e : ε) (s : σ) : Leads R (Act.fail e : Act σ ε α) s := by
  rintro s' (⟨b, h⟩ | ⟨e, h⟩) <;> cases h
  exact refl_of R s

theorem Leads.lift (y : Res ε α) (s : σ) : Leads R (Act.lift y) s := by
  rintro s' (⟨b, h⟩ | ⟨e, h⟩) <;> cases y <;> cases h
  · exact refl_of R s
  · exact refl_of R s

theorem Leads.lift_bind [IsTrans σ R] {y : Res ε α} {f : α → Act σ ε β}
    (hf : ∀ a, y = .ok a → Leads R (f a) s) : Leads R (Act.lift y >>= f) s := by
  refine (Leads.lift y s).bind fun a s' h => ?_
  obtain ⟨hy, rfl⟩ := lift_eq_ok.mp h
  exact hf a hy

end

end Rust.Act
