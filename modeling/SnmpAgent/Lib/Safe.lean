import SnmpAgent.Lib.Res

/-!
# Methods that do not panic

`Act.Safe P x Q`: from a state with `P` the method `x` does not panic, and if it returns a value,
`Q` holds of the value and of the state behind it. An early return ends a method, so an error owes
nothing. The rules follow the constructs that methods are written with.
-/

namespace Rust
variable {σ ε α β : Type}

namespace Res

theorem Returns.map {x : Res ε α} (h : x.Returns) (f : α → β) : (f <$> x).Returns := by
  cases x <;> simp_all

theorem returns_ite {c : Prop} [Decidable c] {x y : Res ε α} (hx : c → x.Returns)
    (hy : ¬ c → y.Returns) : (if c then x else y).Returns := by
  split
  · exact hx ‹_›
  · exact hy ‹_›

theorem returns_mapM {f : α → Res ε β} {xs : List α} (h : ∀ x ∈ xs, (f x).Returns) :
    (xs.mapM f).Returns := by
  induction xs with
  | nil => exact returns_ok []
  | cons x xs ih =>
    rw [List.mapM_cons]
    refine (h x List.mem_cons_self).bind fun b _ => ?_
    exact (ih fun y hy => h y (List.mem_cons_of_mem x hy)).bind fun bs _ => returns_ok _

theorem mapM_eq_ok {f : α → Res ε β} {xs : List α} {ys : List β} (h : xs.mapM f = .ok ys) :
    ys.length = xs.length ∧ ∀ y ∈ ys, ∃ x ∈ xs, f x = .ok y := by
  induction xs generalizing ys with
  | nil =>
    cases h
    exact ⟨rfl, nofun⟩
  | cons x xs ih =>
    simp only [List.mapM_cons, bind_eq_ok, pure_eq, ok.injEq] at h
    obtain ⟨y, hy, ys, hys, rfl⟩ := h
    obtain ⟨hlen, hmem⟩ := ih hys
    refine ⟨by rw [List.length_cons, List.length_cons, hlen], fun y' hy' => ?_⟩
    rcases List.mem_cons.mp hy' with rfl | hy'
    · exact ⟨x, List.mem_cons_self, hy⟩
    · obtain ⟨x', hx', h⟩ := hmem y' hy'
      exact ⟨x', List.mem_cons_of_mem x hx', h⟩

end Res

namespace Act

def Safe (P : σ → Prop) (x : Act σ ε α) (Q : α → σ → Prop) : Prop :=
  ∀ s, P s → (x.run s).Returns ∧ ∀ a s', x.run s = .ok (a, s') → Q a s'

variable {P : σ → Prop} {Q : α → σ → Prop} {x : Act σ ε α}

theorem Safe.mono {P' : σ → Prop} {Q' : α → σ → Prop} (h : Safe P x Q) (hP : ∀ s, P' s → P s)
    (hQ : ∀ a s, Q a s → Q' a s) : Safe P' x Q' :=
  fun s hs => ⟨(h s (hP s hs)).1, fun a s' ha => hQ a s' ((h s (hP s hs)).2 a s' ha)⟩

theorem Safe.pure {a : α} (h : ∀ s, P s → Q a s) : Safe P (Pure.pure a : Act σ ε α) Q := by
  refine fun s hs => ⟨Res.returns_ok _, fun b s' hb => ?_⟩
  obtain ⟨rfl, rfl⟩ := pure_eq_ok.mp hb
  exact h _ hs

theorem Safe.fail (e : ε) : Safe P (Act.fail e : Act σ ε α) Q :=
  fun _ _ => ⟨Res.returns_err _, fun _ _ h => absurd h fail_ne_ok⟩

theorem Safe.bind {f : α → Act σ ε β} {R : β → σ → Prop} (hx : Safe P x Q)
    (hf : ∀ a, Safe (Q a) (f a) R) : Safe P (x >>= f) R := by
  intro s hs
  obtain ⟨hret, hok⟩ := hx s hs
  refine ⟨?_, fun b s'' hb => ?_⟩
  · rw [StateT.run_bind]
    exact hret.bind fun p hp => (hf p.1 p.2 (hok p.1 p.2 hp)).1
  · obtain ⟨a, s', ha, hb⟩ := bind_eq_ok.mp hb
    exact (hf a s' (hok a s' ha)).2 b s'' hb

theorem Safe.lift {y : Res ε α} (hy : y.Returns) (h : ∀ s a, P s → y = .ok a → Q a s) :
    Safe P (Act.lift y) Q := by
  refine fun s hs => ⟨?_, fun a s' ha => ?_⟩
  · rw [run_lift]
    exact (Res.returns_mapErr.mpr hy).bind fun _ _ => Res.returns_ok _
  · obtain ⟨hy, rfl⟩ := lift_eq_ok.mp ha
    exact h _ a hs hy

theorem Safe.lift_bind {y : Res ε α} {f : α → Act σ ε β} {R : β → σ → Prop} (hy : y.Returns)
    (hf : ∀ a, y = .ok a → Safe P (f a) R) : Safe P (Act.lift y >>= f) R := by
  refine (Safe.lift (P := P) (Q := fun a s => P s ∧ y = .ok a) hy fun s a hs ha => ⟨hs, ha⟩).bind ?_
  exact fun a s hs => hf a hs.2 s hs.1

theorem Safe.get_bind {f : σ → Act σ ε β} {R : β → σ → Prop} (hf : ∀ s, P s → Safe P (f s) R) :
    Safe P (MonadState.get >>= f) R := by
  intro s hs
  rw [StateT.run_bind]
  exact hf s hs s hs

/-- A precondition that does not speak of the state. -/
theorem Safe.assume {p : Prop} (h : p → Safe P x Q) : Safe (fun s => P s ∧ p) x Q :=
  fun s hs => h hs.2 s hs.1

theorem Safe.ite {c : Prop} [Decidable c] {y : Act σ ε α} (hx : c → Safe P x Q)
    (hy : ¬ c → Safe P y Q) : Safe P (if c then x else y) Q := by
  split
  · exact hx ‹_›
  · exact hy ‹_›

/-- A method that is run on a local value. -/
theorem Safe.on {s : σ} (h : Safe P x Q) (hs : P s) : (Act.on s x).Returns :=
  Res.returns_mapErr.mpr (h s hs).1

theorem Safe.on_eq_ok {s : σ} {p : α × σ} (h : Safe P x Q) (hs : P s) (hp : Act.on s x = .ok p) :
    Q p.1 p.2 := (h s hs).2 p.1 p.2 (Act.on_eq_ok.mp hp)

/-! ## Methods that return from every state -/

def Total (x : Act σ ε α) : Prop := ∀ s, (x.run s).Returns

theorem Total.pure (a : α) : Total (Pure.pure a : Act σ ε α) := fun _ => Res.returns_ok _

theorem Total.fail (e : ε) : Total (Act.fail e : Act σ ε α) := fun _ => Res.returns_err _

theorem Total.get : Total (MonadState.get : Act σ ε σ) := fun _ => Res.returns_ok _

theorem Total.modify (f : σ → σ) : Total (modify f : Act σ ε PUnit) := fun _ => Res.returns_ok _

theorem Total.lift {y : Res ε α} (hy : y.Returns) : Total (Act.lift y : Act σ ε α) := fun s => by
  rw [run_lift]
  exact (Res.returns_mapErr.mpr hy).bind fun _ _ => Res.returns_ok _

theorem Total.bind {f : α → Act σ ε β} (hx : Total x) (hf : ∀ a, Total (f a)) :
    Total (x >>= f) := fun s => by
  rw [StateT.run_bind]
  exact (hx s).bind fun p _ => hf p.1 p.2

theorem Total.ite {c : Prop} [Decidable c] {y : Act σ ε α} (hx : c → Total x)
    (hy : ¬ c → Total y) : Total (if c then x else y) := by
  split
  · exact hx ‹_›
  · exact hy ‹_›

end Act

end Rust
