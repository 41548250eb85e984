import SnmpAgent.Lib.Safe
import SnmpAgent.Lib.Slice

/-!
# Checked arithmetic

In a debug build a sum, difference or product that leaves the range of its type panics, and so does
`debug_assert!` of a false condition. A method is shown to compute the same with and without these
checks by `Act.Agree P x y Q`: from a state with `P` the methods `x` and `y` do the same, and if
they return a value, `Q` holds of it and of the state behind it.
-/

namespace Rust
variable {σ ε α β : Type}

/-- `a + b` on `usize`, and on `u64`. -/
def usizeAdd (a b : Nat) : Res ε Nat := if a + b < usizeSize then .ok (a + b) else .panic

/-- `a * b` on `usize`, and on `u64`. -/
def usizeMul (a b : Nat) : Res ε Nat := if a * b < usizeSize then .ok (a * b) else .panic

/-- `a - b` on `i64`. -/
def i64Sub (a b : Int) : Res ε Int :=
  if -2 ^ 63 ≤ a - b ∧ a - b < 2 ^ 63 then .ok (a - b) else .panic

/-- `a + b` on `u8`. -/
def u8Add (a b : UInt8) : Res ε UInt8 := if a.toNat + b.toNat < 256 then .ok (a + b) else .panic

/-- `u8::try_from(n).expect(..)`. -/
def expectU8 (n : Nat) : Res ε UInt8 := if n < 256 then .ok (UInt8.ofNat n) else .panic

def debugAssert (c : Prop) [Decidable c] : Res ε Unit := if c then .ok () else .panic

/-- `word.get_mut(start..).expect(..).copy_from_slice(bytes)`. -/
def copyTail (word : Bytes) (start : Nat) (bytes : Bytes) : Res ε Bytes :=
  if start ≤ word.length ∧ word.length - start = bytes.length then .ok (word.take start ++ bytes)
  else .panic

theorem usizeAdd_of_lt {a b : Nat} (h : a + b < usizeSize) :
    (usizeAdd a b : Res ε Nat) = .ok (a + b) :=
  if_pos h

theorem usizeMul_of_lt {a b : Nat} (h : a * b < usizeSize) :
    (usizeMul a b : Res ε Nat) = .ok (a * b) :=
  if_pos h

theorem u8Add_of_lt {a b : UInt8} (h : a.toNat + b.toNat < 256) :
    (u8Add a b : Res ε UInt8) = .ok (a + b) := if_pos h

theorem expectU8_of_lt {n : Nat} (h : n < 256) : (expectU8 n : Res ε UInt8) = .ok (UInt8.ofNat n) :=
  if_pos h

theorem debugAssert_of {c : Prop} [Decidable c] (h : c) : (debugAssert c : Res ε Unit) = .ok () :=
  if_pos h

/-- Right-aligned in a word of `width` equal bytes. -/
theorem copyTail_replicate {width : Nat} {bytes : Bytes} (h : bytes.length ≤ width) (pad : UInt8) :
    (copyTail (.replicate width pad) (width - bytes.length) bytes : Res ε Bytes) =
      .ok (.replicate (width - bytes.length) pad ++ bytes) := by
  rw [copyTail, List.length_replicate, if_pos (by omega), List.take_replicate,
    Nat.min_eq_left (by omega)]

theorem Res.bind_congr {x : Res ε α} {f g : α → Res ε β} (h : ∀ a, x = .ok a → f a = g a) :
    (x >>= f) = (x >>= g) := by
  cases x with
  | ok a => exact h a rfl
  | err e => rfl
  | panic => rfl

theorem mapM_ok {f : α → Res ε β} {g : α → β} {xs : List α} (h : ∀ x ∈ xs, f x = .ok (g x)) :
    xs.mapM f = .ok (xs.map g) := by
  induction xs with
  | nil => rfl
  | cons x xs ih =>
    rw [List.mapM_cons, h x List.mem_cons_self, ih fun y hy => h y (List.mem_cons_of_mem x hy)]
    rfl

/-! ## Methods that do the same -/

namespace Act

def Agree (P : σ → Prop) (x y : Act σ ε α) (Q : α → σ → Prop) : Prop :=
  ∀ s, P s → x.run s = y.run s ∧ ∀ a s', y.run s = .ok (a, s') → Q a s'

variable {P : σ → Prop} {Q : α → σ → Prop} {x y : Act σ ε α}

theorem Agree.of_safe (hy : Safe P y Q) (h : ∀ s, P s → x.run s = y.run s) : Agree P x y Q :=
  fun s hs => ⟨h s hs, (hy s hs).2⟩

theorem Agree.pure {a : α} (h : ∀ s, P s → Q a s) :
    Agree P (Pure.pure a : Act σ ε α) (Pure.pure a) Q :=
  .of_safe (.pure h) fun _ _ => rfl

theorem Agree.fail (e : ε) : Agree P (Act.fail e : Act σ ε α) (Act.fail e) Q :=
  .of_safe (.fail e) fun _ _ => rfl

theorem Agree.bind {f g : α → Act σ ε β} {R : β → σ → Prop} (h : Agree P x y Q)
    (hf : ∀ a, Agree (Q a) (f a) (g a) R) : Agree P (x >>= f) (y >>= g) R := by
  intro s hs
  obtain ⟨heq, hok⟩ := h s hs
  refine ⟨?_, fun b s'' hb => ?_⟩
  · rw [StateT.run_bind, StateT.run_bind, heq]
    cases hy : y.run s with
    | ok p =>
      exact (hf p.1 p.2 (hok p.1 p.2 hy)).1
    | err e => rfl
    | panic => rfl
  · obtain ⟨a, s', ha, hb⟩ := bind_eq_ok.mp hb
    exact (hf a s' (hok a s' ha)).2 b s'' hb

/-- A value that is built from the outcome of a call. -/
theorem Agree.bind_pure {I : σ → Prop} {f : α → β} (h : Agree P x y fun _ => I) :
    Agree P (x >>= fun a => Pure.pure (f a)) (y >>= fun a => Pure.pure (f a)) fun _ => I :=
  h.bind fun _ => .pure fun _ hs => hs

/-- A call whose outcome is the same. -/
theorem Agree.lift_bind {u v : Res ε α} {f g : α → Act σ ε β} {R : β → σ → Prop} (h : u = v)
    (hf : ∀ a, v = .ok a → Agree P (f a) (g a) R) :
    Agree P (Act.lift u >>= f) (Act.lift v >>= g) R := by
  subst h
  intro s hs
  simp only [StateT.run_bind, run_lift]
  cases hu : u with
  | ok a =>
    simpa only [Res.mapErr_ok, Res.ok_bind] using hf a hu s hs
  | err e => exact ⟨rfl, nofun⟩
  | panic => exact ⟨rfl, nofun⟩

theorem Agree.mono {P' : σ → Prop} {Q' : α → σ → Prop} (h : Agree P x y Q) (hP : ∀ s, P' s → P s)
    (hQ : ∀ a s, Q a s → Q' a s) : Agree P' x y Q' :=
  fun s hs => ⟨(h s (hP s hs)).1, fun a s' ha => hQ a s' ((h s (hP s hs)).2 a s' ha)⟩

theorem Agree.intro (h : ∀ s, P s → Agree (· = s) x y Q) : Agree P x y Q := fun s hs => h s hs s rfl

theorem Agree.at {s : σ} (h : Agree P x y Q) (hs : P s) : Agree (· = s) x y Q := by
  rintro s rfl
  exact h s hs

theorem Agree.lift {u v : Res ε α} (h : u = v) (hQ : ∀ s a, P s → v = .ok a → Q a s) :
    Agree P (Act.lift u) (Act.lift v) Q := by
  subst h
  refine fun s hs => ⟨rfl, fun a s' ha => ?_⟩
  obtain ⟨hu, rfl⟩ := lift_eq_ok.mp ha
  exact hQ s' a hs hu

/-- A check that only the left method makes, and that passes. -/
theorem Agree.lift_left {u : Res ε α} {f : α → Act σ ε β} {z : Act σ ε β} {R : β → σ → Prop} {a : α}
    (h : u = .ok a) (hf : Agree P (f a) z R) : Agree P (Act.lift u >>= f) z R := by
  intro s hs
  rw [StateT.run_bind, run_lift, h, Res.mapErr_ok, Res.ok_bind, Res.ok_bind]
  exact hf s hs

theorem lift_ok_bind (a : α) (f : α → Act σ ε β) : (Act.lift (.ok a) >>= f) = f a := rfl

/-- Behind `get` the state is known. -/
theorem Agree.get_bind {f g : σ → Act σ ε β} {R : β → σ → Prop}
    (hf : ∀ s, P s → Agree (· = s) (f s) (g s) R) : Agree P (get >>= f) (get >>= g) R := by
  intro s hs
  rw [StateT.run_bind, StateT.run_bind]
  exact hf s hs s rfl

theorem Agree.get_left {f : σ → Act σ ε β} {z : Act σ ε β} {R : β → σ → Prop} {s : σ}
    (hf : Agree (· = s) (f s) z R) : Agree (· = s) (get >>= f) z R := by
  rintro s rfl
  rw [StateT.run_bind]
  exact hf s rfl

/-- A precondition that does not speak of the state. -/
theorem Agree.assume {p : Prop} (h : p → Agree P x y Q) : Agree (fun s => P s ∧ p) x y Q :=
  fun s hs => h hs.2 s hs.1

/-- Methods that are run on a local value. -/
theorem Agree.on {s : σ} (h : Agree P x y Q) (hs : P s) : Act.on s x = Act.on s y :=
  congrArg (Res.mapErr Prod.fst) (h s hs).1

theorem Agree.on_eq_ok {s : σ} {p : α × σ} (h : Agree P x y Q) (hs : P s)
    (hp : Act.on s y = .ok p) : Q p.1 p.2 :=
  (h s hs).2 p.1 p.2 (Act.on_eq_ok.mp hp)

/-- A call returns a local value, and then a method is run on that. -/
theorem Agree.bind_on {τ : Type} {u v : Act σ ε τ} {w z : Act τ ε α} {I : σ → Prop}
    {P' : τ → Prop} {Q' : α → τ → Prop} {f g : α × τ → Act σ ε β} {R : β → σ → Prop}
    (hu : Agree P u v fun t s => I s ∧ P' t) (hw : Agree P' w z Q')
    (hf : ∀ p, Q' p.1 p.2 → Agree I (f p) (g p) R) :
    Agree P (u >>= fun t => Act.lift (Act.on t w) >>= f)
      (v >>= fun t => Act.lift (Act.on t z) >>= g) R :=
  hu.bind fun _ => .assume fun ht =>
    .lift_bind (hw.on ht) fun p hp => hf p (hw.on_eq_ok ht hp)

theorem Agree.ite {c : Prop} [Decidable c] {x' y' : Act σ ε α} (h : c → Agree P x y Q)
    (h' : ¬ c → Agree P x' y' Q) : Agree P (if c then x else x') (if c then y else y') Q := by
  split
  · exact h ‹_›
  · exact h' ‹_›

end Act

end Rust
