import Mathlib.Algebra.Group.Nat.Defs
import Mathlib.Data.List.Nodup
import Mathlib.Logic.Function.Basic

/-!
# Tickets from a shared counter

Threads make calls, and a call takes a ticket from a counter that all threads share and uses it
later. The counter is set to a seed by the first call that gets that far (`Once::call_once`), and a
ticket is its value before an atomic increment that wraps around (`fetch_add`). Everything else a
thread does is its own, so a schedule is a list of these steps in any order.

As long as no more tickets are drawn than the counter has values, no two tickets that are used are
the same (`nodup_run`), and each is the value of the counter after some number of increments
(`exists_ticket_of_mem_run`).
-/

namespace Tickets
variable {T κ : Type}

/-- How far a thread has come with its call. -/
inductive Phase (κ : Type) where
  | idle
  | entered (call : κ)
  | ready (call : κ)
  | drawn (call : κ) (ticket : UInt64)

structure State (T κ : Type) where
  /-- No value before the first call. -/
  counter : Option UInt64
  threads : T → Phase κ
  /-- The calls that used their tickets, the latest first. -/
  used : List (κ × UInt64)

inductive Step (T κ : Type) where
  | enter (t : T) (call : κ)
  | callOnce (t : T)
  | fetchAdd (t : T)
  | use (t : T)

def Step.isFetchAdd : Step T κ → Bool
  | fetchAdd _ => true
  | _ => false

section
variable [DecidableEq T]

def State.put (s : State T κ) (t : T) (phase : Phase κ) : State T κ :=
  { s with threads := Function.update s.threads t phase }

/-- A step of a thread that is not at that point does nothing. -/
def step (seed : UInt64) (s : State T κ) : Step T κ → State T κ
  | .enter t call =>
    match s.threads t with
    | .idle => s.put t (.entered call)
    | _ => s
  | .callOnce t =>
    match s.threads t with
    | .entered call => { s.put t (.ready call) with counter := some (s.counter.getD seed) }
    | _ => s
  | .fetchAdd t =>
    match s.threads t with
    | .ready call =>
      let ticket := s.counter.getD seed
      { s.put t (.drawn call ticket) with counter := some (ticket + 1) }
    | _ => s
  | .use t =>
    match s.threads t with
    | .drawn call ticket => { s.put t .idle with used := (call, ticket) :: s.used }
    | _ => s

def run (seed : UInt64) (steps : List (Step T κ)) (s : State T κ) : State T κ :=
  steps.foldl (step seed) s

end

/-- The tickets in the order in which they are drawn. -/
def ticket (first : UInt64) (i : Nat) : UInt64 := first + .ofNat i

theorem ticket_injective {first : UInt64} {i j : Nat} (hi : i < 2 ^ 64) (hj : j < 2 ^ 64)
    (h : ticket first i = ticket first j) : i = j := by
  have h := congrArg UInt64.toNat ((UInt64.add_right_inj first).mp h)
  rwa [UInt64.toNat_ofNat_of_lt' hi, UInt64.toNat_ofNat_of_lt' hj] at h

theorem ticket_succ (first : UInt64) (n : Nat) : ticket first n + 1 = ticket first (n + 1) := by
  rw [ticket, ticket, UInt64.add_assoc, UInt64.ofNat_add]
  rfl

/-- The first `n` tickets are out. Each is in the hands of at most one thread, and not there any
more when it was used. -/
structure Inv (seed first : UInt64) (n : Nat) (s : State T κ) : Prop where
  counter : s.counter.getD seed = ticket first n
  used : ∀ x ∈ s.used, ∃ i < n, x.2 = ticket first i
  held : ∀ {t call x}, s.threads t = .drawn call x → ∃ i < n, x = ticket first i
  nodup : (s.used.map Prod.snd).Nodup
  held_unused : ∀ {t call x}, s.threads t = .drawn call x → x ∉ s.used.map Prod.snd
  held_unique : ∀ {t t' call call' x}, s.threads t = .drawn call x → s.threads t' = .drawn call' x →
    t = t'

section
variable [DecidableEq T] {seed first : UInt64} {n : Nat} {s : State T κ}

theorem threads_put {t t' : T} {phase phase' : Phase κ} :
    (s.put t phase).threads t' = phase' ↔
      t' = t ∧ phase = phase' ∨ t' ≠ t ∧ s.threads t' = phase' := by
  by_cases h : t' = t
  · subst h
    simp [State.put]
  · simp [State.put, h]

/-- A thread that moves on without a ticket takes nothing from the others. -/
theorem Inv.put (H : Inv seed first n s) (t : T) (phase : Phase κ)
    (hphase : ∀ call x, phase ≠ .drawn call x) : Inv seed first n (s.put t phase) := by
  have hold : ∀ {t' call x}, (s.put t phase).threads t' = .drawn call x →
      s.threads t' = .drawn call x := by
    intro t' call x h
    rcases threads_put.mp h with ⟨-, h⟩ | ⟨-, h⟩
    · exact absurd h (hphase call x)
    · exact h
  exact ⟨H.counter, H.used, fun h => H.held (hold h), H.nodup, fun h => H.held_unused (hold h),
    fun h h' => H.held_unique (hold h) (hold h')⟩

/-- The next ticket is not among those that are out. -/
theorem ticket_fresh (hn : n < 2 ^ 64) {x : UInt64} (h : ∃ i < n, x = ticket first i) :
    x ≠ ticket first n := by
  rintro rfl
  obtain ⟨i, hi, h⟩ := h
  have := ticket_injective hn (Nat.lt_trans hi hn) h
  omega

theorem Inv.fetchAdd (H : Inv seed first n s) (hn : n < 2 ^ 64) (t : T) (call : κ) :
    Inv seed first (n + 1)
      { s.put t (.drawn call (ticket first n)) with counter := some (ticket first n + 1) } where
  counter := ticket_succ first n
  used x hx := by
    obtain ⟨i, hi, h⟩ := H.used x hx
    exact ⟨i, by omega, h⟩
  held h := by
    rcases threads_put.mp h with ⟨-, h⟩ | ⟨-, h⟩
    · cases h
      exact ⟨n, by omega, rfl⟩
    · obtain ⟨i, hi, h⟩ := H.held h
      exact ⟨i, by omega, h⟩
  nodup := H.nodup
  held_unused h := by
    rcases threads_put.mp h with ⟨-, h⟩ | ⟨-, h⟩
    · cases h
      intro hmem
      obtain ⟨x, hx, hx'⟩ := List.mem_map.mp hmem
      exact ticket_fresh hn (H.used x hx) hx'
    · exact H.held_unused h
  held_unique h h' := by
    rcases threads_put.mp h with ⟨ht, hx⟩ | ⟨-, hx⟩ <;>
      rcases threads_put.mp h' with ⟨ht', hx'⟩ | ⟨-, hx'⟩
    · exact ht.trans ht'.symm
    · cases hx
      exact absurd rfl (ticket_fresh hn (H.held hx'))
    · cases hx'
      exact absurd rfl (ticket_fresh hn (H.held hx))
    · exact H.held_unique hx hx'

theorem Inv.use (H : Inv seed first n s) {t : T} {call : κ} {x : UInt64}
    (ht : s.threads t = .drawn call x) :
    Inv seed first n { s.put t .idle with used := (call, x) :: s.used } where
  counter := H.counter
  used := List.forall_mem_cons.mpr ⟨H.held ht, H.used⟩
  held h := (H.put t .idle nofun).held h
  nodup := List.nodup_cons.mpr ⟨H.held_unused ht, H.nodup⟩
  held_unused {t' call' x'} h := by
    rcases threads_put.mp h with ⟨-, hx⟩ | ⟨hne, hx⟩
    · cases hx
    · intro hmem
      rcases List.mem_cons.mp hmem with rfl | hmem
      · exact hne (H.held_unique hx ht)
      · exact H.held_unused hx hmem
  held_unique h h' := (H.put t .idle nofun).held_unique h h'

/-- A step draws at most one ticket. -/
theorem Inv.step (H : Inv seed first n s) (x : Step T κ) (hn : x.isFetchAdd → n < 2 ^ 64) :
    ∃ n' ≤ n + x.isFetchAdd.toNat, Inv seed first n' (step seed s x) := by
  cases x with
  | enter t call =>
    refine ⟨n, Nat.le_add_right .., ?_⟩
    simp only [Tickets.step]
    split
    · exact H.put t _ nofun
    · exact H
  | callOnce t =>
    refine ⟨n, Nat.le_add_right .., ?_⟩
    simp only [Tickets.step]
    split
    · rename_i call _
      have H' := H.put t (.ready call) nofun
      exact ⟨H.counter, H'.used, H'.held, H'.nodup, H'.held_unused, H'.held_unique⟩
    · exact H
  | fetchAdd t =>
    simp only [Tickets.step]
    split
    · rename_i call _
      rw [H.counter]
      exact ⟨n + 1, Nat.le_refl _, H.fetchAdd (hn rfl) t call⟩
    · exact ⟨n, Nat.le_add_right .., H⟩
  | use t =>
    refine ⟨n, Nat.le_add_right .., ?_⟩
    simp only [Tickets.step]
    split
    · rename_i ht
      exact H.use ht
    · exact H

theorem Inv.run {steps : List (Step T κ)} (H : Inv seed first n s)
    (hn : n + steps.countP Step.isFetchAdd ≤ 2 ^ 64) :
    ∃ n', Inv seed first n' (run seed steps s) := by
  induction steps generalizing n s with
  | nil => exact ⟨n, H⟩
  | cons x steps ih =>
    rw [List.countP_cons] at hn
    obtain ⟨n', hn', H'⟩ := H.step x fun h => by rw [if_pos h] at hn; omega
    refine ih H' ?_
    cases hx : x.isFetchAdd <;> simp only [hx, Bool.toNat_false, Bool.toNat_true] at hn hn' <;>
      simp at hn <;> omega

theorem exists_inv_run (seed : UInt64) (counter : Option UInt64) {steps : List (Step T κ)}
    (hsteps : steps.countP Step.isFetchAdd ≤ 2 ^ 64) :
    ∃ n, Inv seed (counter.getD seed) n (run seed steps ⟨counter, fun _ => .idle, []⟩) := by
  have H : Inv seed (counter.getD seed) 0 (⟨counter, fun _ => .idle, []⟩ : State T κ) :=
    ⟨(UInt64.add_zero _).symm, nofun, nofun, List.nodup_nil, nofun, nofun⟩
  exact H.run (by omega)

/-- **Tickets are unique**: from a state in which no ticket is out, whatever its counter holds. -/
theorem nodup_run (seed : UInt64) (counter : Option UInt64) (steps : List (Step T κ))
    (hsteps : steps.countP Step.isFetchAdd ≤ 2 ^ 64) :
    ((run seed steps ⟨counter, fun _ => .idle, []⟩).used.map Prod.snd).Nodup := by
  obtain ⟨_, H⟩ := exists_inv_run seed counter hsteps
  exact H.nodup

theorem exists_ticket_of_mem_run (seed : UInt64) (counter : Option UInt64)
    {steps : List (Step T κ)} (hsteps : steps.countP Step.isFetchAdd ≤ 2 ^ 64) {x : κ × UInt64}
    (hx : x ∈ (run seed steps ⟨counter, fun _ => .idle, []⟩).used) :
    ∃ i, x.2 = ticket (counter.getD seed) i := by
  obtain ⟨_, H⟩ := exists_inv_run seed counter hsteps
  obtain ⟨i, -, hi⟩ := H.used x hx
  exact ⟨i, hi⟩

end

end Tickets
