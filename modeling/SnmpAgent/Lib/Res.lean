import Mathlib.Logic.Basic

/-!
# Results of Rust functions

`Res ε α` is the outcome of a call: a value, an error of type `ε`, or a panic (a failed `expect`, an
index out of range, a capacity overflow). `Act σ ε` adds a mutable borrow of a `σ`: an error keeps
the state it left behind, as `&mut self` does, and a panic keeps nothing.

The inversion lemmas (`Res.bind_eq_ok`, `Act.bind_eq_ok`) peel a computation apart step by step.
-/

namespace Rust

inductive Res (ε α : Type) where
  | ok (a : α)
  | err (e : ε)
  | panic
  deriving DecidableEq, Repr

namespace Res
variable {ε ε' α β γ : Type}

protected def bind : Res ε α → (α → Res ε β) → Res ε β
  | ok a, f => f a
  | err e, _ => err e
  | panic, _ => panic

instance : Monad (Res ε) where
  pure := ok
  bind := Res.bind

-- Proved `by rfl`: a `simp` that used these as definitional steps would leave the kernel to
-- convert whole method bodies, texts of the error messages included.
@[simp] theorem pure_eq (a : α) : (pure a : Res ε α) = ok a := by rfl
@[simp] theorem ok_bind (a : α) (f : α → Res ε β) : (ok a >>= f) = f a := by rfl
@[simp] theorem err_bind (e : ε) (f : α → Res ε β) : (err e >>= f) = err e := by rfl
@[simp] theorem panic_bind (f : α → Res ε β) : (panic >>= f) = panic := by rfl

instance : LawfulMonad (Res ε) :=
  LawfulMonad.mk' _ (fun x => by cases x <;> rfl) (fun _ _ => rfl)
    (fun x _ _ => by cases x <;> rfl)

@[simp] theorem map_ok (f : α → β) (a : α) : f <$> (ok a : Res ε α) = ok (f a) := by rfl
@[simp] theorem map_err (f : α → β) (e : ε) : f <$> (err e : Res ε α) = err e := by rfl
@[simp] theorem map_panic (f : α → β) : f <$> (panic : Res ε α) = panic := by rfl

theorem bind_panic {x : Res ε α} (h : ∀ e, x ≠ .err e) :
    (x >>= fun _ => (.panic : Res ε β)) = .panic := by
  cases x with
  | ok a => rfl
  | err e => exact absurd rfl (h e)
  | panic => rfl

theorem bind_eq_ok {x : Res ε α} {f : α → Res ε β} {b : β} :
    (x >>= f) = ok b ↔ ∃ a, x = ok a ∧ f a = ok b := by
  cases x <;> simp

/-- A check that returns early. -/
theorem guard_eq_ok {c : Prop} [Decidable c] {e : ε} {x : Res ε α} {a : α} :
    (if c then err e else x) = ok a ↔ ¬ c ∧ x = ok a := by
  split <;> simp [*]

theorem guard_not_eq_ok {c : Prop} [Decidable c] {e : ε} {x : Res ε α} {a : α} :
    (if c then x else err e) = ok a ↔ c ∧ x = ok a := by
  split <;> simp [*]

theorem map_eq_ok {x : Res ε α} {f : α → β} {b : β} :
    f <$> x = ok b ↔ ∃ a, x = ok a ∧ f a = b := by
  cases x <;> simp

/-- `Result::map_err`. -/
def mapErr (f : ε → ε') : Res ε α → Res ε' α
  | ok a => ok a
  | err e => err (f e)
  | panic => panic

@[simp] theorem mapErr_ok (f : ε → ε') (a : α) : (ok a : Res ε α).mapErr f = ok a := by rfl
@[simp] theorem mapErr_err (f : ε → ε') (e : ε) : (err e : Res ε α).mapErr f = err (f e) := by rfl
@[simp] theorem mapErr_panic (f : ε → ε') : (panic : Res ε α).mapErr f = panic := by rfl

@[simp] theorem mapErr_eq_ok {f : ε → ε'} {x : Res ε α} {a : α} :
    x.mapErr f = ok a ↔ x = ok a := by
  cases x <;> simp

@[simp] theorem mapErr_eq_panic {f : ε → ε'} {x : Res ε α} : x.mapErr f = panic ↔ x = panic := by
  cases x <;> simp

/-- `Option::expect`: the absent value is a panic. -/
def expect : Option α → Res ε α
  | some a => ok a
  | none => panic

@[simp] theorem expect_some (a : α) : (expect (some a) : Res ε α) = ok a := by rfl

@[simp] theorem expect_eq_ok {o : Option α} {a : α} :
    (expect o : Res ε α) = ok a ↔ o = some a := by
  cases o <;> simp [expect]

/-- `Option::ok_or_else`: the absent value is an error. -/
def okOr (e : ε) : Option α → Res ε α
  | some a => ok a
  | none => err e

@[simp] theorem okOr_some (e : ε) (a : α) : okOr e (some a) = ok a := by rfl
@[simp] theorem okOr_none (e : ε) : (okOr e none : Res ε α) = err e := by rfl

@[simp] theorem okOr_eq_ok {e : ε} {o : Option α} {a : α} : okOr e o = ok a ↔ o = some a := by
  cases o <;> simp

@[simp] theorem okOr_ne_panic {e : ε} {o : Option α} : okOr e o ≠ panic := by
  cases o <;> simp

/-- `Result::ok`: the error is dropped. -/
def ok? : Res ε α → Option α
  | ok a => some a
  | _ => none

@[simp] theorem ok?_ok (a : α) : (ok a : Res ε α).ok? = some a := by rfl
@[simp] theorem ok?_err (e : ε) : (err e : Res ε α).ok? = none := by rfl

theorem ok?_eq_some {x : Res ε α} {a : α} : x.ok? = some a ↔ x = ok a := by
  cases x <;> simp [ok?]

/-- The computation returns: no `expect` in it fails. -/
def Returns (x : Res ε α) : Prop := x ≠ panic

@[simp] theorem returns_ok (a : α) : (ok a : Res ε α).Returns := by simp [Returns]
@[simp] theorem returns_err (e : ε) : (err e : Res ε α).Returns := by simp [Returns]
@[simp] theorem not_returns_panic : ¬ (panic : Res ε α).Returns := by simp [Returns]
@[simp] theorem returns_okOr {e : ε} {o : Option α} : (okOr e o).Returns := okOr_ne_panic

@[simp] theorem returns_mapErr {f : ε → ε'} {x : Res ε α} : (x.mapErr f).Returns ↔ x.Returns := by
  simp [Returns]

theorem Returns.bind {x : Res ε α} {f : α → Res ε β} (hx : x.Returns)
    (hf : ∀ a, x = ok a → (f a).Returns) : (x >>= f).Returns := by
  cases x with
  | ok a => exact hf a rfl
  | err e => exact returns_err e
  | panic => exact absurd hx not_returns_panic

end Res

/-- A method on `&mut self`: the state is returned beside the value and beside the error. -/
abbrev Act (σ ε : Type) := StateT σ (Res (ε × σ))

namespace Act
variable {σ ε α β : Type}

/-- An early return with an error. -/
def fail (e : ε) : Act σ ε α := fun s => .err (e, s)

/-- A call that does not touch the state. -/
def lift (x : Res ε α) : Act σ ε α := fun s => (x.mapErr (·, s)) >>= fun a => .ok (a, s)

instance : MonadLift (Res ε) (Act σ ε) := ⟨lift⟩

@[simp] theorem run_fail (e : ε) (s : σ) : (fail e : Act σ ε α).run s = .err (e, s) := by rfl

@[simp] theorem run_lift (x : Res ε α) (s : σ) :
    (lift x : Act σ ε α).run s = (x.mapErr (·, s)) >>= fun a => .ok (a, s) := by rfl

theorem bind_eq_ok {x : Act σ ε α} {f : α → Act σ ε β} {s s'' : σ} {b : β} :
    (x >>= f).run s = .ok (b, s'') ↔
      ∃ a s', x.run s = .ok (a, s') ∧ (f a).run s' = .ok (b, s'') := by
  simp [StateT.run_bind, Res.bind_eq_ok]

theorem lift_eq_ok {x : Res ε α} {s s' : σ} {a : α} :
    (lift x : Act σ ε α).run s = .ok (a, s') ↔ x = .ok a ∧ s' = s := by
  cases x <;> simp [eq_comm]

theorem liftM_eq_ok {x : Res ε α} {s s' : σ} {a : α} :
    (liftM x : Act σ ε α).run s = .ok (a, s') ↔ x = .ok a ∧ s' = s := lift_eq_ok

theorem pure_eq_ok {s s' : σ} {a b : α} :
    (pure a : Act σ ε α).run s = .ok (b, s') ↔ b = a ∧ s' = s := by
  simp [eq_comm]

theorem get_eq_ok {s s' t : σ} :
    (get : Act σ ε σ).run s = .ok (t, s') ↔ t = s ∧ s' = s := by
  simp [eq_comm]

theorem modify_eq_ok {f : σ → σ} {s s' : σ} {u : Unit} :
    (modify f : Act σ ε Unit).run s = .ok (u, s') ↔ s' = f s := by
  simp [eq_comm]

theorem fail_ne_ok {e : ε} {s s' : σ} {a : α} :
    (fail e : Act σ ε α).run s ≠ .ok (a, s') := by simp

/-- A check that returns early. -/
theorem guard_eq_ok {c : Prop} [Decidable c] {e : ε} {x : Act σ ε α} {s s' : σ} {a : α} :
    (if c then fail e else x).run s = .ok (a, s') ↔ ¬ c ∧ x.run s = .ok (a, s') := by
  split <;> simp [*]

theorem guard_not_eq_ok {c : Prop} [Decidable c] {e : ε} {x : Act σ ε α} {s s' : σ} {a : α} :
    (if c then x else fail e).run s = .ok (a, s') ↔ c ∧ x.run s = .ok (a, s') := by
  split <;> simp [*]

/-- `Result::map_err` on a method. -/
def mapErr {ε' : Type} (f : ε → ε') (x : Act σ ε α) : Act σ ε' α :=
  fun s => (x.run s).mapErr fun e => (f e.1, e.2)

@[simp] theorem run_mapErr {ε' : Type} (f : ε → ε') (x : Act σ ε α) (s : σ) :
    (x.mapErr f).run s = (x.run s).mapErr fun e => (f e.1, e.2) := by rfl

/-- Run a method on a local value: its error leaves the local state behind. -/
def on (s : σ) (x : Act σ ε α) : Res ε (α × σ) := (x.run s).mapErr Prod.fst

@[simp] theorem on_eq_ok {x : Act σ ε α} {s : σ} {p : α × σ} :
    on s x = .ok p ↔ x.run s = .ok p := Res.mapErr_eq_ok

end Act

end Rust
