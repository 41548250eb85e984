import Mathlib.Data.List.Basic
import Mathlib.Logic.Function.Basic

/-!
# A mailbox with a waker and counted handles

Threads hold handles on a mailbox whose consumer sleeps between its own activities. A send puts a
message at the end of the queue and then wakes the consumer: two steps, between which every other
thread can do anything. A consumer that is woken takes messages until it finds the queue empty. The
thread that drops the last handle sends `stop`, wakes the consumer and waits until it is gone.

`Inv` holds after every schedule (`Inv.run`). From it: what was taken and what is queued is what was
sent, in that order; a queue that is not empty has a wake-up on its way; and `stop` comes last.
-/

namespace Mailbox
variable {T δ σ ι : Type}

/-! ## States and steps -/

inductive Message (δ : Type) where
  | data (d : δ)
  | stop
  deriving DecidableEq

/-- What the consumer does with a message, and what it does on its own between wake-ups. It may not
survive the latter. -/
structure Consumer (δ σ ι : Type) where
  receive : σ → δ → σ
  act : σ → ι → Option σ

/-- Where a thread is. -/
inductive Phase (δ : Type) where
  | idle
  /-- The message is in the queue, the consumer is not woken yet. -/
  | waking (d : δ)
  /-- The last handle is dropped. -/
  | closing
  | wakingLast
  | joining

/-- The thread that drops the last handle. -/
def Phase.isLast : Phase δ → Bool
  | idle | waking _ => false
  | closing | wakingLast | joining => true

/-- Between the two steps of a send. -/
def Phase.sends : Phase δ → Bool
  | waking _ | wakingLast => true
  | idle | closing | joining => false

/-- Where the consumer is. While it takes messages, the batch is what it has taken so far. -/
inductive Status (δ σ : Type) where
  | waiting (state : σ)
  | draining (state : σ) (batch : List δ)
  | stopped (state : σ) (batch : List δ)
  | failed (state : σ)

namespace Status

def state : Status δ σ → σ
  | waiting s | draining s _ | stopped s _ | failed s => s

def batch : Status δ σ → List δ
  | draining _ batch | stopped _ batch => batch
  | waiting _ | failed _ => []

/-- The receiving end of the queue is there. -/
def isLive : Status δ σ → Bool
  | waiting _ | draining .. => true
  | stopped .. | failed _ => false

def isDraining : Status δ σ → Bool
  | draining .. => true
  | _ => false

def isStopped : Status δ σ → Bool
  | stopped .. => true
  | _ => false

end Status

/-- No step looks at the last four fields: they tell what happened. -/
structure State (T δ σ ι : Type) where
  /-- The owners of the handles, with one entry for each handle. -/
  handles : List T
  threads : T → Phase δ
  queue : List (Message δ)
  /-- A wake-up that the consumer has not seen. -/
  pending : Bool
  consumer : Status δ σ
  /-- The sending ends of the queue are gone. -/
  freed : Bool
  sent : List (Message δ)
  /-- The messages whose sends came back without an error. -/
  accepted : List δ
  /-- A wake-up failed, and the consumer was not woken since. -/
  missed : Bool
  /-- The batches that the consumer took and its own activities. -/
  history : List (List δ ⊕ ι)

inductive Step (T δ ι : Type) where
  | clone (t t' : T)
  | drop (t : T)
  | push (t : T) (d : δ)
  | pushStop (t : T)
  | wake (t : T) (succeeds : Bool)
  | join (t : T)
  /-- The consumer sees the wake-up. -/
  | poll
  | tryRecv
  | act (i : ι)
  | fail

def start (t : T) (state : σ) : State T δ σ ι where
  handles := [t]
  threads _ := .idle
  queue := []
  pending := false
  consumer := .waiting state
  freed := false
  sent := []
  accepted := []
  missed := false
  history := []

section
variable [DecidableEq T] (c : Consumer δ σ ι)

def State.put (s : State T δ σ ι) (t : T) (phase : Phase δ) : State T δ σ ι :=
  { s with threads := Function.update s.threads t phase }

/-- A step of a thread or of the consumer that is not at that point does nothing. -/
def step (s : State T δ σ ι) : Step T δ ι → State T δ σ ι
  | .clone t t' =>
    match s.threads t with
    | .idle => if t ∈ s.handles then { s with handles := t' :: s.handles } else s
    | _ => s
  | .drop t =>
    match s.threads t with
    | .idle =>
      if t ∈ s.handles then
        match s.handles.erase t with
        | [] => { s.put t .closing with handles := [] }
        | handles => { s with handles }
      else s
    | _ => s
  | .push t d =>
    match s.threads t with
    | .idle =>
      -- without a receiver the send fails
      if t ∈ s.handles ∧ s.consumer.isLive then
        { s.put t (.waking d) with queue := s.queue ++ [.data d], sent := s.sent ++ [.data d] }
      else s
    | _ => s
  | .pushStop t =>
    match s.threads t with
    | .closing =>
      if s.consumer.isLive then
        { s.put t .wakingLast with queue := s.queue ++ [.stop], sent := s.sent ++ [.stop] }
      else s.put t .joining
    | _ => s
  | .wake t succeeds =>
    let woken := { s with pending := s.pending || succeeds, missed := s.missed || !succeeds }
    match s.threads t with
    | .waking d =>
      { woken.put t .idle with accepted := if succeeds then s.accepted ++ [d] else s.accepted }
    | .wakingLast => woken.put t .joining
    | _ => s
  | .join t =>
    match s.threads t with
    | .joining => if s.consumer.isLive then s else { s.put t .idle with freed := true }
    | _ => s
  | .poll =>
    match s.consumer with
    | .waiting state =>
      if s.pending then { s with consumer := .draining state [], pending := false, missed := false }
      else s
    | _ => s
  | .tryRecv =>
    match s.consumer with
    | .draining state batch =>
      match s.queue with
      | .data d :: queue =>
        { s with queue, consumer := .draining (c.receive state d) (batch ++ [d]) }
      | .stop :: queue => { s with queue, consumer := .stopped state batch }
      | [] =>
        if s.freed then { s with consumer := .stopped state batch }
        else { s with consumer := .waiting state, history := s.history ++ [.inl batch] }
    | _ => s
  | .act i =>
    match s.consumer with
    | .waiting state =>
      match c.act state i with
      | some state => { s with consumer := .waiting state, history := s.history ++ [.inr i] }
      | none => { s with consumer := .failed state }
    | _ => s
  | .fail =>
    match s.consumer with
    | .waiting state => { s with consumer := .failed state }
    | _ => s

def run (schedule : List (Step T δ ι)) (s : State T δ σ ι) : State T δ σ ι :=
  schedule.foldl (step c) s

/-- The consumer sees its wake-up and takes the queue while nobody else does anything. -/
def wakeUp (s : State T δ σ ι) : State T δ σ ι :=
  run c (.poll :: List.replicate (s.queue.length + 1) .tryRecv) s

end

/-! ## History -/

/-- What the consumer becomes by its batches and its activities. -/
def replay (c : Consumer δ σ ι) (state : σ) (history : List (List δ ⊕ ι)) : Option σ :=
  history.foldlM (fun state => Sum.elim (fun batch => some (batch.foldl c.receive state))
    (c.act state)) state

/-- The messages of a history. -/
def received (history : List (List δ ⊕ ι)) : List δ :=
  history.flatMap (Sum.elim id fun _ => [])

def State.taken (s : State T δ σ ι) : List δ := received s.history ++ s.consumer.batch

theorem replay_append (c : Consumer δ σ ι) {state state' : σ} {history : List (List δ ⊕ ι)}
    (h : replay c state history = some state') (entry : List δ ⊕ ι) :
    replay c state (history ++ [entry]) = replay c state' [entry] := by
  rw [replay, List.foldlM_append]
  exact (congrArg (· >>= _) h).trans rfl

@[simp] theorem received_append_inl (history : List (List δ ⊕ ι)) (batch : List δ) :
    received (history ++ [.inl batch]) = received history ++ batch := by
  simp [received]

@[simp] theorem received_append_inr (history : List (List δ ⊕ ι)) (i : ι) :
    received (history ++ [.inr i]) = received history := by
  simp [received]

/-! ## What a step can do -/

/-- The steps that do something, each with what it finds and what it leaves. -/
inductive Effect [DecidableEq T] (c : Consumer δ σ ι) (s : State T δ σ ι) : State T δ σ ι → Prop
  | nothing : Effect c s s
  | clone {t t' : T} (ht : t ∈ s.handles) : Effect c s { s with handles := t' :: s.handles }
  | drop {t : T} (hidle : s.threads t = .idle) (hne : s.handles.erase t ≠ []) :
    Effect c s { s with handles := s.handles.erase t }
  | dropLast {t : T} (hidle : s.threads t = .idle) (ht : t ∈ s.handles)
    (hlast : s.handles.erase t = []) : Effect c s { s.put t .closing with handles := [] }
  | push {t : T} {d : δ} (hidle : s.threads t = .idle) (ht : t ∈ s.handles)
    (hlive : s.consumer.isLive) :
    Effect c s
      { s.put t (.waking d) with queue := s.queue ++ [.data d], sent := s.sent ++ [.data d] }
  | pushStop {t : T} (ht : s.threads t = .closing) (hlive : s.consumer.isLive) :
    Effect c s { s.put t .wakingLast with queue := s.queue ++ [.stop], sent := s.sent ++ [.stop] }
  | pushStopGone {t : T} (ht : s.threads t = .closing) (hgone : s.consumer.isLive = false) :
    Effect c s (s.put t .joining)
  | wake {t : T} {d : δ} {succeeds : Bool} (ht : s.threads t = .waking d) :
    Effect c s { s.put t .idle with
      pending := s.pending || succeeds
      missed := s.missed || !succeeds
      accepted := if succeeds then s.accepted ++ [d] else s.accepted }
  | wakeLast {t : T} {succeeds : Bool} (ht : s.threads t = .wakingLast) :
    Effect c s { s.put t .joining with
      pending := s.pending || succeeds
      missed := s.missed || !succeeds }
  | join {t : T} (ht : s.threads t = .joining) (hgone : s.consumer.isLive = false) :
    Effect c s { s.put t .idle with freed := true }
  | poll {state : σ} (hwaiting : s.consumer = .waiting state) :
    Effect c s { s with consumer := .draining state [], pending := false, missed := false }
  | data {state : σ} {batch : List δ} {d : δ} {queue : List (Message δ)}
    (hdraining : s.consumer = .draining state batch) (hqueue : s.queue = .data d :: queue) :
    Effect c s { s with queue, consumer := .draining (c.receive state d) (batch ++ [d]) }
  | stop {state : σ} {batch : List δ} {queue : List (Message δ)}
    (hdraining : s.consumer = .draining state batch) (hqueue : s.queue = .stop :: queue) :
    Effect c s { s with queue, consumer := .stopped state batch }
  | disconnected {state : σ} {batch : List δ} (hdraining : s.consumer = .draining state batch)
    (hfreed : s.freed) : Effect c s { s with consumer := .stopped state batch }
  | drained {state : σ} {batch : List δ} (hdraining : s.consumer = .draining state batch)
    (hqueue : s.queue = []) :
    Effect c s { s with consumer := .waiting state, history := s.history ++ [.inl batch] }
  | act {state state' : σ} {i : ι} (hwaiting : s.consumer = .waiting state)
    (hact : c.act state i = some state') :
    Effect c s { s with consumer := .waiting state', history := s.history ++ [.inr i] }
  | fail {state : σ} (hwaiting : s.consumer = .waiting state) :
    Effect c s { s with consumer := .failed state }

section
variable [DecidableEq T] {c : Consumer δ σ ι} {s s' : State T δ σ ι}

theorem effect_step (c : Consumer δ σ ι) (s : State T δ σ ι) (x : Step T δ ι) :
    Effect c s (step c s x) := by
  cases x with
  | clone t t' =>
    simp only [step]
    split
    · split
      · exact .clone ‹_›
      · exact .nothing
    · exact .nothing
  | drop t =>
    simp only [step]
    split
    · split
      · split
        · exact .dropLast ‹_› ‹_› ‹_›
        · rename_i hne
          exact .drop ‹_› hne
      · exact .nothing
    · exact .nothing
  | push t d =>
    simp only [step]
    split
    · split
      · rename_i h
        exact .push ‹_› h.1 h.2
      · exact .nothing
    · exact .nothing
  | pushStop t =>
    simp only [step]
    split
    · split
      · exact .pushStop ‹_› ‹_›
      · exact .pushStopGone ‹_› (by simp_all)
    · exact .nothing
  | wake t succeeds =>
    simp only [step]
    split
    · exact .wake ‹_›
    · exact .wakeLast ‹_›
    · exact .nothing
  | join t =>
    simp only [step]
    split
    · split
      · exact .nothing
      · exact .join ‹_› (by simp_all)
    · exact .nothing
  | poll =>
    simp only [step]
    split
    · split
      · exact .poll ‹_›
      · exact .nothing
    · exact .nothing
  | tryRecv =>
    simp only [step]
    split
    · split
      · exact .data ‹_› ‹_›
      · exact .stop ‹_› ‹_›
      · split
        · exact .disconnected ‹_› ‹_›
        · exact .drained ‹_› ‹_›
    · exact .nothing
  | act i =>
    simp only [step]
    split
    · split
      · exact .act ‹_› ‹_›
      · exact .fail ‹_›
    · exact .nothing
  | fail =>
    simp only [step]
    split
    · exact .fail ‹_›
    · exact .nothing

theorem threads_put {t t' : T} {phase : Phase δ} :
    (s.put t phase).threads t' = if t' = t then phase else s.threads t' := by
  simp [State.put, Function.update_apply]

/-! ## Handles -/

/-- The last handle is dropped once, and no thread is in a send then. -/
structure Owned (s : State T δ σ ι) : Prop where
  owner : ∀ {t d}, s.threads t = .waking d → t ∈ s.handles
  held : s.handles ≠ [] → ∀ t, (s.threads t).isLast = false
  last_unique : ∀ {t t'}, (s.threads t).isLast → (s.threads t').isLast → t = t'

omit [DecidableEq T] in
theorem Owned.start (t : T) (state : σ) : Owned (start t state : State T δ σ ι) :=
  ⟨nofun, fun _ _ => rfl, nofun⟩

/-- A thread moves on in its own part of the protocol. -/
theorem Owned.put (H : Owned s) {t : T} {phase : Phase δ}
    (howner : ∀ d, phase = .waking d → t ∈ s.handles)
    (hlast : phase.isLast → (s.threads t).isLast) : Owned (s.put t phase) where
  owner {t' d} h := by
    rw [threads_put] at h
    split at h
    · rename_i heq
      exact heq ▸ howner d h
    · exact H.owner h
  held hne t' := by
    rw [threads_put]
    split
    · exact Bool.eq_false_iff.mpr fun h => Bool.false_ne_true ((H.held hne t).symm.trans (hlast h))
    · exact H.held hne t'
  last_unique {t₁ t₂} h₁ h₂ := by
    have hold : ∀ {t'}, ((s.put t phase).threads t').isLast → (s.threads t').isLast := by
      intro t' h
      rw [threads_put] at h
      split at h
      · rename_i heq
        exact heq ▸ hlast h
      · exact h
    exact H.last_unique (hold h₁) (hold h₂)

omit [DecidableEq T] in
theorem Owned.congr (H : Owned s) (hhandles : s'.handles = s.handles)
    (hthreads : s'.threads = s.threads) : Owned s' := by
  refine ⟨?_, ?_, ?_⟩ <;> rw [hthreads] <;> try rw [hhandles]
  exacts [H.owner, H.held, H.last_unique]

theorem Owned.effect (H : Owned s) (h : Effect c s s') : Owned s' := by
  cases h with
  | clone ht =>
    have hne : s.handles ≠ [] := List.ne_nil_of_mem ht
    exact ⟨fun h => List.mem_cons_of_mem _ (H.owner h), fun _ => H.held hne, H.last_unique⟩
  | drop hidle hne =>
    refine ⟨fun {t' d} h => ?_, fun _ => H.held fun hnil => hne (by rw [hnil]; rfl), H.last_unique⟩
    refine (List.mem_erase_of_ne fun heq => ?_).mpr (H.owner h)
    rw [heq, hidle] at h
    cases h
  | @dropLast t hidle ht hlast =>
    have hone : ∀ t' ∈ s.handles, t' = t := by
      intro t' ht'
      by_contra hne
      have := (List.mem_erase_of_ne hne).mpr ht'
      rw [hlast] at this
      cases this
    refine ⟨fun {t' d} h => ?_, fun h => absurd rfl h, fun {t₁ t₂} h₁ h₂ => ?_⟩
    · -- the owner of another handle is in no send
      have h : (s.put t .closing).threads t' = .waking d := h
      rw [threads_put] at h
      split at h
      · cases h
      · exact absurd (hone t' (H.owner h)) ‹_›
    · have hold : ∀ {t'}, ((s.put t .closing).threads t').isLast → t' = t := by
        intro t' h
        rw [threads_put] at h
        split at h
        · assumption
        · rw [H.held (List.ne_nil_of_mem ht)] at h
          cases h
      exact (hold h₁).trans (hold h₂).symm
  | push hidle ht =>
    exact (H.put (fun _ _ => ht) (fun h => by cases h)).congr rfl rfl
  | pushStop ht | pushStopGone ht | wakeLast ht =>
    refine (H.put ?_ fun _ => by rw [ht]; rfl).congr rfl rfl
    intro d h
    cases h
  | wake ht | join ht =>
    refine (H.put ?_ fun h => by cases h).congr rfl rfl
    intro d h
    cases h
  | _ => exact H.congr rfl rfl

/-! ## Messages -/

/-- The `stop` that ended the consumer. -/
def Status.mark : Status δ σ → List (Message δ)
  | stopped .. => [.stop]
  | _ => []

/-- Nothing is lost, doubled or reordered on the way to the consumer, and what it has become is what
its history makes of it. -/
structure Conserved (c : Consumer δ σ ι) (state₀ : σ) (s : State T δ σ ι) : Prop where
  /-- The senders are gone only behind the consumer. -/
  freed : s.freed → s.consumer.isLive = false
  sent : s.taken.map .data ++ s.consumer.mark ++ s.queue = s.sent
  replays : ∃ state, replay c state₀ s.history = some state ∧
    s.consumer.state = s.consumer.batch.foldl c.receive state

omit [DecidableEq T] in
theorem Conserved.start (c : Consumer δ σ ι) (t : T) (state : σ) :
    Conserved c state (Mailbox.start t state : State T δ σ ι) :=
  ⟨nofun, rfl, state, rfl, rfl⟩

theorem Conserved.effect {state₀ : σ} (H : Conserved c state₀ s) (h : Effect c s s') :
    Conserved c state₀ s' := by
  obtain ⟨hfreed, hsent, state₁, hreplay, hstate⟩ := H
  simp only [State.taken] at hsent
  cases h with
  | push | pushStop =>
    refine ⟨hfreed, ?_, state₁, hreplay, hstate⟩
    exact (List.append_assoc ..).symm.trans (congrArg (· ++ _) hsent)
  | join _ hgone => exact ⟨fun _ => hgone, hsent, state₁, hreplay, hstate⟩
  | poll hwaiting =>
    rw [hwaiting] at hfreed hsent hstate
    exact ⟨hfreed, hsent, state₁, hreplay, hstate⟩
  | @data state batch d queue hdraining hqueue =>
    rw [hdraining] at hfreed hsent hstate
    refine ⟨hfreed, ?_, state₁, hreplay, ?_⟩
    · simpa [State.taken, Status.batch, Status.mark, hqueue] using hsent
    · simp only [Status.state, Status.batch] at hstate ⊢
      rw [hstate, List.foldl_append]
      rfl
  | stop hdraining hqueue =>
    rw [hdraining] at hsent hstate
    refine ⟨fun _ => rfl, ?_, state₁, hreplay, hstate⟩
    simpa [State.taken, Status.batch, Status.mark, hqueue] using hsent
  | disconnected hdraining h =>
    -- a consumer that takes messages has senders
    rw [hdraining] at hfreed
    exact absurd (hfreed h) Bool.true_eq_false.mp
  | @drained state batch hdraining hqueue =>
    rw [hdraining] at hfreed hsent hstate
    refine ⟨hfreed, ?_, state, ?_, rfl⟩
    · simpa [State.taken, Status.batch, Status.mark] using hsent
    · rw [replay_append c hreplay]
      exact congrArg some hstate.symm
  | @act state state' i hwaiting hact =>
    rw [hwaiting] at hfreed hsent hstate
    obtain rfl : state = state₁ := hstate
    refine ⟨hfreed, ?_, state', ?_, rfl⟩
    · simpa [State.taken, Status.batch, Status.mark] using hsent
    · rw [replay_append c hreplay]
      simp [replay, hact]
  | fail hwaiting =>
    rw [hwaiting] at hsent hstate
    exact ⟨fun _ => rfl, hsent, state₁, hreplay, hstate⟩
  | _ => exact ⟨hfreed, hsent, state₁, hreplay, hstate⟩

/-- A send that came back without an error has put its message into the queue, and so has one that
is about to wake the consumer. -/
structure Accepted (s : State T δ σ ι) : Prop where
  accepted : ∀ d ∈ s.accepted, .data d ∈ s.sent
  waking : ∀ {t d}, s.threads t = .waking d → .data d ∈ s.sent

theorem Accepted.put (H : Accepted s) (t : T) {phase : Phase δ}
    (hphase : ∀ d, phase ≠ .waking d) : Accepted (s.put t phase) := by
  refine ⟨H.accepted, fun {t' d} h => ?_⟩
  rw [threads_put] at h
  split at h
  · exact absurd h (hphase d)
  · exact H.waking h

theorem Accepted.effect (H : Accepted s) (h : Effect c s s') : Accepted s' := by
  cases h with
  | @dropLast t =>
    have H' : Accepted (s.put t .closing) := H.put t fun d h => by cases h
    exact ⟨H.accepted, H'.waking⟩
  | @pushStopGone t | @wakeLast t =>
    have H' : Accepted (s.put t .joining) := H.put t fun d h => by cases h
    exact ⟨H.accepted, H'.waking⟩
  | @join t =>
    have H' : Accepted (s.put t .idle) := H.put t fun d h => by cases h
    exact ⟨H.accepted, H'.waking⟩
  | @push t d =>
    refine ⟨fun d' h => List.mem_append_left _ (H.accepted d' h), fun {t' d'} h => ?_⟩
    have h : (s.put t (.waking d)).threads t' = .waking d' := h
    rw [threads_put] at h
    split at h
    · cases h
      exact List.mem_append_right _ (List.mem_singleton_self _)
    · exact List.mem_append_left _ (H.waking h)
  | @pushStop t =>
    have H' : Accepted (s.put t .wakingLast) := H.put t fun d h => by cases h
    exact ⟨fun d h => List.mem_append_left _ (H.accepted d h), fun h =>
      List.mem_append_left _ (H'.waking h)⟩
  | @wake t d succeeds ht =>
    have H' : Accepted (s.put t .idle) := H.put t fun d h => by cases h
    refine ⟨fun d' h => ?_, H'.waking⟩
    cases succeeds with
    | false => exact H.accepted d' h
    | true =>
      rcases List.mem_append.mp h with h | h
      · exact H.accepted d' h
      · rw [List.mem_singleton.mp h]
        exact H.waking ht
  | _ => exact ⟨H.accepted, H.waking⟩

/-! ## The end -/

/-- `stop` is sent behind everything else. -/
structure Final (s : State T δ σ ι) : Prop where
  sent : ∃ ds : List δ, s.sent = ds.map .data ∨ s.sent = ds.map .data ++ [.stop]
  stop : .stop ∈ s.sent → s.handles = [] ∧ ∀ t, s.threads t ≠ .closing
  joining : ∀ t, s.threads t = .wakingLast ∨ s.threads t = .joining → s.consumer.isLive →
    .stop ∈ s.sent

omit [DecidableEq T] in
theorem Final.sent_of_not_mem (H : Final s) (h : .stop ∉ s.sent) :
    ∃ ds : List δ, s.sent = ds.map .data := by
  obtain ⟨ds, hds | hds⟩ := H.sent
  · exact ⟨ds, hds⟩
  · rw [hds] at h
    exact absurd (List.mem_append_right _ (List.mem_singleton_self _)) h

omit [DecidableEq T] in
theorem Final.congr (H : Final s) (hsent : s'.sent = s.sent) (hhandles : s'.handles = s.handles)
    (hthreads : s'.threads = s.threads) (hlive : s'.consumer.isLive → s.consumer.isLive) :
    Final s' := by
  refine ⟨hsent ▸ H.sent, ?_, ?_⟩
  · rw [hsent, hhandles, hthreads]
    exact H.stop
  · rw [hsent, hthreads]
    exact fun t ht h => H.joining t ht (hlive h)

theorem Final.put (H : Final s) (t : T) {phase : Phase δ} (hphase : phase ≠ .closing)
    (hjoining : phase = .wakingLast ∨ phase = .joining → s.consumer.isLive → .stop ∈ s.sent) :
    Final (s.put t phase) := by
  refine ⟨H.sent, fun h => ⟨(H.stop h).1, fun t' => ?_⟩, fun t' => ?_⟩
  · rw [threads_put]
    split
    · exact hphase
    · exact (H.stop h).2 t'
  · rw [threads_put]
    split
    · exact hjoining
    · exact H.joining t'

theorem Final.effect (H : Final s) (O : Owned s) (h : Effect c s s') : Final s' := by
  cases h with
  | clone ht =>
    -- as long as there is a handle, there is no `stop`
    refine ⟨H.sent, fun h => ?_, H.joining⟩
    rw [(H.stop h).1] at ht
    cases ht
  | drop _ hne =>
    refine ⟨H.sent, fun h => absurd ?_ hne, H.joining⟩
    rw [(H.stop h).1]
    rfl
  | @dropLast t _ ht =>
    refine ⟨H.sent, fun h => ?_, fun t' h => ?_⟩
    · rw [(H.stop h).1] at ht
      cases ht
    · have h : (s.put t .closing).threads t' = .wakingLast ∨
        (s.put t .closing).threads t' = .joining := h
      rw [threads_put] at h
      split at h
      · rcases h with h | h <;> cases h
      · exact H.joining t' h
  | @push t d _ ht =>
    have hstop : .stop ∉ s.sent := by
      intro h
      rw [(H.stop h).1] at ht
      cases ht
    obtain ⟨ds, hds⟩ := H.sent_of_not_mem hstop
    have H' : Final (s.put t (.waking d)) :=
      H.put t (fun h => by cases h) fun h => by rcases h with h | h <;> cases h
    refine ⟨⟨ds ++ [d], .inl (by simp [hds])⟩, fun h => ?_, fun t' h hlive =>
      List.mem_append_left _ (H'.joining t' h hlive)⟩
    rcases List.mem_append.mp h with h | h
    · exact absurd h hstop
    · cases List.mem_singleton.mp h
  | @pushStop t ht =>
    have hlast : (s.threads t).isLast := by rw [ht]; rfl
    obtain ⟨ds, hds⟩ := H.sent_of_not_mem fun h => (H.stop h).2 t ht
    refine ⟨⟨ds, .inr (congrArg (· ++ _) hds)⟩, fun _ => ⟨?_, fun t' => ?_⟩, fun _ _ _ =>
      List.mem_append_right _ (List.mem_singleton_self _)⟩
    · by_contra hne
      rw [O.held hne t] at hlast
      cases hlast
    · intro hclosing
      have hclosing : (s.put t .wakingLast).threads t' = .closing := hclosing
      rw [threads_put] at hclosing
      split at hclosing
      · cases hclosing
      · exact absurd (O.last_unique (by rw [hclosing]; rfl) hlast) ‹_›
  | @pushStopGone t _ hgone =>
    refine H.put t (fun h => by cases h) fun _ hlive => ?_
    rw [hgone] at hlive
    cases hlive
  | @wakeLast t _ ht =>
    have H' : Final (s.put t .joining) :=
      H.put t (fun h => by cases h) fun _ => H.joining t (.inl ht)
    exact H'.congr rfl rfl rfl id
  | @wake t | @join t =>
    have H' : Final (s.put t .idle) :=
      H.put t (fun h => by cases h) fun h => by rcases h with h | h <;> cases h
    exact H'.congr rfl rfl rfl id
  | nothing => exact H
  | poll h | data h | drained h | act h => exact H.congr rfl rfl rfl fun _ => by rw [h]; rfl
  | stop | disconnected | fail => exact H.congr rfl rfl rfl fun h => by cases h

/-! ## Wake-ups -/

/-- Somebody will wake the consumer, or has, or it is awake. -/
def Stirred (s : State T δ σ ι) : Prop :=
  s.pending ∨ s.missed ∨ s.consumer.isDraining ∨ ∃ t, (s.threads t).sends

/-- A queue that is not empty does not go unnoticed. -/
def Awake (s : State T δ σ ι) : Prop :=
  s.consumer.isLive → s.queue ≠ [] → Stirred s

theorem Stirred.put (h : Stirred s) {t : T} {phase : Phase δ}
    (hphase : (s.threads t).sends → phase.sends) : Stirred (s.put t phase) := by
  obtain h | h | h | ⟨t', ht'⟩ := h
  · exact .inl h
  · exact .inr (.inl h)
  · exact .inr (.inr (.inl h))
  · refine .inr (.inr (.inr ⟨t', ?_⟩))
    rw [threads_put]
    split
    · rename_i heq
      exact hphase (heq ▸ ht')
    · exact ht'

theorem Awake.effect (H : Awake s) (h : Effect c s s') : Awake s' := by
  intro hlive hqueue
  cases h with
  | dropLast hidle => exact (H hlive hqueue).put fun h => by rw [hidle] at h; cases h
  | @push t | @pushStop t => exact .inr (.inr (.inr ⟨t, by simp [State.put, Phase.sends]⟩))
  | pushStopGone _ hgone | join _ hgone => exact absurd (hgone.symm.trans hlive) Bool.false_ne_true
  | @wake _ _ succeeds | @wakeLast _ succeeds =>
    cases succeeds with
    | true => exact .inl (by simp)
    | false => exact .inr (.inl (by simp))
  | poll | data => exact .inr (.inr (.inl rfl))
  | drained _ hnil => exact absurd hnil hqueue
  | act hwaiting =>
    obtain h | h | h | h := H (by rw [hwaiting]; rfl) hqueue
    · exact .inl h
    · exact .inr (.inl h)
    · rw [hwaiting] at h
      cases h
    · exact .inr (.inr (.inr h))
  | stop | disconnected | fail => cases hlive
  | _ => exact H hlive hqueue

/-! ## Every schedule -/

structure Inv (c : Consumer δ σ ι) (state₀ : σ) (s : State T δ σ ι) : Prop where
  owned : Owned s
  conserved : Conserved c state₀ s
  accepted : Accepted s
  final : Final s
  awake : Awake s

omit [DecidableEq T] in
theorem Inv.start (c : Consumer δ σ ι) (t : T) (state : σ) :
    Inv c state (Mailbox.start t state : State T δ σ ι) :=
  ⟨.start t state, .start c t state, ⟨nofun, nofun⟩, ⟨⟨[], .inl rfl⟩, nofun, nofun⟩,
    fun _ h => absurd rfl h⟩

theorem Inv.step {state₀ : σ} (H : Inv c state₀ s) (x : Step T δ ι) :
    Inv c state₀ (step c s x) := by
  have h := effect_step c s x
  exact ⟨H.owned.effect h, H.conserved.effect h, H.accepted.effect h, H.final.effect H.owned h,
    H.awake.effect h⟩

theorem Inv.run {state₀ : σ} (H : Inv c state₀ s) (schedule : List (Step T δ ι)) :
    Inv c state₀ (run c schedule s) := by
  induction schedule generalizing s with
  | nil => exact H
  | cons x schedule ih => exact ih (H.step x)

theorem inv_run (c : Consumer δ σ ι) (t : T) (state : σ) (schedule : List (Step T δ ι)) :
    Inv c state (run c schedule (start t state)) :=
  (Inv.start c t state).run schedule

/-! ## The consumer on its own -/

theorem run_cons (x : Step T δ ι) (schedule : List (Step T δ ι)) (s : State T δ σ ι) :
    run c (x :: schedule) s = run c schedule (step c s x) := rfl

theorem run_append (schedule schedule' : List (Step T δ ι)) (s : State T δ σ ι) :
    run c (schedule ++ schedule') s = run c schedule' (run c schedule s) :=
  List.foldl_append

/-- A consumer that is awake takes what is in the queue and goes back to waiting. -/
theorem run_tryRecv_data {state : σ} {batch ds : List δ}
    (hdraining : s.consumer = .draining state batch) (hqueue : s.queue = ds.map .data)
    (hfreed : s.freed = false) :
    run c (List.replicate (ds.length + 1) .tryRecv) s =
      { s with
        queue := []
        consumer := .waiting (ds.foldl c.receive state)
        history := s.history ++ [.inl (batch ++ ds)] } := by
  induction ds generalizing s state batch with
  | nil =>
    rw [List.map_nil] at hqueue
    simp [run, step, hdraining, hqueue, hfreed]
  | cons d ds ih =>
    have hstep : step c s .tryRecv = { s with
        queue := ds.map .data, consumer := .draining (c.receive state d) (batch ++ [d]) } := by
      simp only [step, hdraining, hqueue, List.map_cons]
    rw [List.length_cons, List.replicate_succ, run_cons, hstep]
    refine Eq.trans (ih rfl rfl hfreed) ?_
    rw [List.append_assoc]
    rfl

/-- A consumer that is awake takes what is in front of `stop` and ends. -/
theorem run_tryRecv_stop {state : σ} {batch ds : List δ}
    (hdraining : s.consumer = .draining state batch) (hqueue : s.queue = ds.map .data ++ [.stop]) :
    run c (List.replicate (ds.length + 1) .tryRecv) s =
      { s with queue := [], consumer := .stopped (ds.foldl c.receive state) (batch ++ ds) } := by
  induction ds generalizing s state batch with
  | nil =>
    rw [List.map_nil, List.nil_append] at hqueue
    simp [run, step, hdraining, hqueue]
  | cons d ds ih =>
    have hstep : step c s .tryRecv = { s with
        queue := ds.map .data ++ [.stop]
        consumer := .draining (c.receive state d) (batch ++ [d]) } := by
      simp only [step, hdraining, hqueue, List.map_cons, List.cons_append]
    rw [List.length_cons, List.replicate_succ, run_cons, hstep]
    refine Eq.trans (ih rfl rfl) ?_
    rw [List.append_assoc]
    rfl

/-- A consumer that takes no messages leaves the queue alone. -/
theorem run_tryRecv_idle (h : s.consumer.isDraining = false) (n : Nat) :
    run c (List.replicate n .tryRecv) s = s := by
  induction n with
  | zero => rfl
  | succ n ih =>
    rw [List.replicate_succ, run_cons]
    have hstep : step c s .tryRecv = s := by
      cases hconsumer : s.consumer with
      | draining => rw [hconsumer] at h; cases h
      | _ => simp only [step, hconsumer]
    rw [hstep]
    exact ih

theorem exists_map_data {queue : List (Message δ)} (h : .stop ∉ queue) :
    ∃ ds : List δ, queue = ds.map .data := by
  induction queue with
  | nil => exact ⟨[], rfl⟩
  | cons m queue ih =>
    rw [List.mem_cons, not_or] at h
    obtain ⟨ds, rfl⟩ := ih h.2
    cases m with
    | data d => exact ⟨d :: ds, rfl⟩
    | stop => exact absurd rfl h.1

omit [DecidableEq T] in
theorem Inv.freed_eq_false {state₀ : σ} (H : Inv c state₀ s) (hlive : s.consumer.isLive) :
    s.freed = false := by
  cases hfreed : s.freed with
  | false => rfl
  | true => exact absurd ((H.conserved.freed hfreed).symm.trans hlive) Bool.false_ne_true

/-- **Delivery.** If no wake-up failed and no send is under way, the consumer gets by itself to
where it has taken everything that was sent. -/
theorem Inv.settles {state₀ state : σ} (H : Inv c state₀ s) (hwaiting : s.consumer = .waiting state)
    (hmissed : s.missed = false) (hsends : ∀ t, (s.threads t).sends = false)
    (hstop : .stop ∉ s.sent) :
    ∃ state' history, wakeUp c s =
        { s with
          queue := [], pending := false, consumer := .waiting state', history } ∧
      (received history).map .data = s.sent := by
  have hlive : s.consumer.isLive := by rw [hwaiting]; rfl
  have hsplit := H.conserved.sent
  simp only [State.taken, hwaiting, Status.batch, Status.mark, List.append_nil] at hsplit
  rw [wakeUp, run_cons]
  cases hpending : s.pending with
  | false =>
    have hqueue : s.queue = [] := by
      by_contra hne
      obtain h | h | h | ⟨t, h⟩ := H.awake hlive hne
      · exact Bool.false_ne_true (hpending.symm.trans h)
      · exact Bool.false_ne_true (hmissed.symm.trans h)
      · rw [hwaiting] at h
        cases h
      · exact Bool.false_ne_true ((hsends t).symm.trans h)
    have hpoll : Mailbox.step c s .poll = s := by simp [Mailbox.step, hwaiting, hpending]
    refine ⟨state, s.history, ?_, ?_⟩
    · rw [hpoll]
      refine Eq.trans (run_tryRecv_idle (by rw [hwaiting]; rfl) _) ?_
      rw [← hqueue, ← hpending, ← hwaiting]
    · rwa [hqueue, List.append_nil] at hsplit
  | true =>
    have hpoll : Mailbox.step c s .poll =
        { s with consumer := .draining state [], pending := false, missed := false } := by
      simp [Mailbox.step, hwaiting, hpending]
    obtain ⟨ds, hqueue⟩ : ∃ ds : List δ, s.queue = ds.map .data := by
      apply exists_map_data
      intro h
      rw [← hsplit] at hstop
      exact hstop (List.mem_append_right _ h)
    refine ⟨ds.foldl c.receive state, s.history ++ [.inl ds], ?_, ?_⟩
    · rw [hpoll, (by rw [hqueue, List.length_map] : s.queue.length = ds.length)]
      refine Eq.trans (run_tryRecv_data rfl hqueue (H.freed_eq_false hlive)) ?_
      rw [List.nil_append, ← hmissed]
    · rw [received_append_inl, List.map_append, ← hqueue]
      exact hsplit

omit [DecidableEq T] in
/-- While the consumer is there, `stop` is at the end of the queue. -/
theorem Inv.queue_of_stop {state₀ : σ} (H : Inv c state₀ s) (hlive : s.consumer.isLive)
    (hstop : .stop ∈ s.sent) :
    ∃ ds : List δ, s.queue = ds.map .data ++ [.stop] ∧
      (s.taken ++ ds).map .data ++ [.stop] = s.sent := by
  have hmark : s.consumer.mark = [] := by
    cases h : s.consumer with
    | stopped => rw [h] at hlive; cases hlive
    | _ => rfl
  have hsplit := H.conserved.sent
  rw [hmark, List.append_nil] at hsplit
  have hmem : .stop ∈ s.queue := by
    rw [← hsplit] at hstop
    rcases List.mem_append.mp hstop with h | h
    · obtain ⟨d, -, hd⟩ := List.mem_map.mp h
      cases hd
    · exact h
  obtain ⟨ds, hds | hds⟩ := H.final.sent
  · rw [hds] at hstop
    obtain ⟨d, -, hd⟩ := List.mem_map.mp hstop
    cases hd
  obtain h | ⟨queue, m, hqueue⟩ := List.eq_nil_or_concat s.queue
  · rw [h] at hmem
    cases hmem
  rw [hds, hqueue, List.concat_eq_append, ← List.append_assoc] at hsplit
  obtain ⟨hfront, hm⟩ := List.append_inj' hsplit rfl
  obtain ⟨ds', hds'⟩ : ∃ ds' : List δ, queue = ds'.map .data := by
    apply exists_map_data
    intro h
    have : .stop ∈ ds.map Message.data := hfront ▸ List.mem_append_right _ h
    obtain ⟨d, -, hd⟩ := List.mem_map.mp this
    cases hd
  refine ⟨ds', ?_, ?_⟩
  · rw [hqueue, List.concat_eq_append, hm, hds']
  · rw [List.map_append, ← hds', hfront, hds]

omit [DecidableEq T] in
/-- A consumer that has ended by `stop` has taken all that was sent. -/
theorem Inv.sent_of_stopped {state₀ : σ} (H : Inv c state₀ s) (hstopped : s.consumer.isStopped) :
    s.sent = s.taken.map .data ++ [.stop] ∧ s.queue = [] := by
  have hmark : s.consumer.mark = [.stop] := by
    cases h : s.consumer with
    | stopped => rfl
    | _ => rw [h] at hstopped; cases hstopped
  have hsplit := H.conserved.sent
  rw [hmark] at hsplit
  have hnot (ds : List δ) : .stop ∉ ds.map Message.data := by
    intro h
    obtain ⟨d, -, hd⟩ := List.mem_map.mp h
    cases hd
  suffices hqueue : s.queue = [] by
    rw [hqueue, List.append_nil] at hsplit
    exact ⟨hsplit.symm, hqueue⟩
  obtain h | ⟨queue, m, hqueue⟩ := List.eq_nil_or_concat s.queue
  · exact h
  -- otherwise `stop` would not be last
  rw [hqueue, List.concat_eq_append, ← List.append_assoc] at hsplit
  obtain ⟨ds, hds | hds⟩ := H.final.sent
  · refine absurd ?_ (hnot ds)
    rw [← hds, ← hsplit]
    simp
  · rw [hds] at hsplit
    refine absurd ?_ (hnot ds)
    rw [← (List.append_inj' hsplit rfl).1]
    simp

/-- A consumer that has been woken takes messages. -/
theorem step_poll (hlive : s.consumer.isLive) (hwoken : s.pending ∨ s.consumer.isDraining) :
    ∃ pending missed, step c s .poll =
      { s with
        consumer := .draining s.consumer.state s.consumer.batch, pending, missed } := by
  cases h : s.consumer with
  | waiting state =>
    rw [h] at hwoken
    have hpending : s.pending := hwoken.resolve_right (fun h => by cases h)
    exact ⟨false, false, by simp [step, h, hpending, Status.state, Status.batch]⟩
  | draining state batch =>
    refine ⟨s.pending, s.missed, ?_⟩
    simp only [step, h, Status.state, Status.batch]
    rw [← h]
  | stopped | failed =>
    rw [h] at hlive
    cases hlive

/-- A consumer that is woken behind `stop` takes all that was sent and ends. -/
theorem Inv.wakeUp_stop {state₀ : σ} (H : Inv c state₀ s) (hlive : s.consumer.isLive)
    (hstop : .stop ∈ s.sent) (hwoken : s.pending ∨ s.consumer.isDraining) :
    ∃ state batch pending missed, wakeUp c s =
        { s with queue := [], consumer := .stopped state batch, pending, missed } ∧
      (received s.history ++ batch).map .data ++ [.stop] = s.sent := by
  obtain ⟨ds, hqueue, hsent⟩ := H.queue_of_stop hlive hstop
  obtain ⟨pending, missed, hpoll⟩ := step_poll (c := c) hlive hwoken
  have hdrain := run_tryRecv_stop (c := c) (s := { s with
    consumer := .draining s.consumer.state s.consumer.batch, pending, missed }) rfl hqueue
  refine ⟨ds.foldl c.receive s.consumer.state, s.consumer.batch ++ ds, pending, missed, ?_, ?_⟩
  · have hlength : s.queue.length = ds.length + 1 := by simp [hqueue]
    rw [wakeUp, run_cons, hpoll, hlength, List.replicate_succ', run_append, hdrain]
    rfl
  · rwa [State.taken, List.append_assoc] at hsent

/-- **The end.** If no wake-up failed, a thread that waits for the end of the consumer comes back
without anybody's help but the consumer's. -/
theorem Inv.finishes {state₀ : σ} (H : Inv c state₀ s) {t : T} (ht : s.threads t = .joining)
    (hmissed : s.missed = false) :
    (Mailbox.step c (wakeUp c s) (.join t)).threads t = .idle := by
  cases hlive : s.consumer.isLive with
  | false =>
    -- the consumer is gone, and the thread finds it so
    have hdraining : s.consumer.isDraining = false := by
      cases hconsumer : s.consumer with
      | draining => rw [hconsumer] at hlive; cases hlive
      | _ => rfl
    have hpoll : Mailbox.step c s .poll = s := by
      cases hconsumer : s.consumer with
      | waiting => rw [hconsumer] at hlive; cases hlive
      | _ => simp only [Mailbox.step, hconsumer]
    rw [wakeUp, run_cons, hpoll, run_tryRecv_idle hdraining]
    simp [Mailbox.step, ht, hlive, State.put]
  | true =>
    have hstop := H.final.joining t (.inr ht) hlive
    have hsends : ∀ t', (s.threads t').sends = false := by
      intro t'
      cases hphase : s.threads t' with
      | waking d =>
        have := H.owned.owner hphase
        rw [(H.final.stop hstop).1] at this
        cases this
      | wakingLast =>
        have hlast : (s.threads t).isLast := by rw [ht]; rfl
        have heq := H.owned.last_unique hlast (by rw [hphase]; rfl : (s.threads t').isLast)
        rw [← heq, ht] at hphase
        cases hphase
      | _ => rfl
    have hwoken : s.pending ∨ s.consumer.isDraining := by
      obtain ⟨ds, hqueue, -⟩ := H.queue_of_stop hlive hstop
      obtain h | h | h | ⟨t', h⟩ := H.awake hlive (by rw [hqueue]; simp)
      · exact .inl h
      · exact absurd (hmissed.symm.trans h) Bool.false_ne_true
      · exact .inr h
      · exact absurd ((hsends t').symm.trans h) Bool.false_ne_true
    obtain ⟨state, batch, pending, missed, hrun, -⟩ := H.wakeUp_stop hlive hstop hwoken
    rw [hrun]
    simp [Mailbox.step, ht, Status.isLive, State.put]

end

end Mailbox
