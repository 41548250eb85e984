import Mathlib.Data.List.Basic

/-!
# Cutting a stream into frames

A framer looks at the front of a buffer and finds a complete frame, asks for more, or gives up. A
`Lawful` framer decides from what it has seen: more data behind a frame or behind an error change
nothing. For such a framer it does not matter in which pieces a stream arrives
(`Lawful.feedAll_of`).
-/

namespace Framer
variable {α ρ : Type}

inductive Outcome (α ρ : Type) where
  | complete (frame rest : List α)
  | incomplete
  | close (reason : ρ)

/-- A framer decides on the data it has seen, and a frame is a proper part of the buffer. -/
structure Lawful (next : List α → Outcome α ρ) : Prop where
  complete_append {buf frame rest : List α} (ext : List α) : next buf = .complete frame rest →
    next (buf ++ ext) = .complete frame (rest ++ ext)
  close_append {buf : List α} {reason : ρ} (ext : List α) : next buf = .close reason →
    next (buf ++ ext) = .close reason
  split {buf frame rest : List α} : next buf = .complete frame rest → buf = frame ++ rest
  frame_ne_nil {buf frame rest : List α} : next buf = .complete frame rest → frame ≠ []

section
variable (next : List α → Outcome α ρ)

/-- The frames at the front of a buffer, what is left of it, and why the stream is given up if it
is. The fuel bounds the number of iterations. -/
def drain : Nat → List α → Option (List (List α) × List α × Option ρ)
  | 0, _ => none
  | fuel + 1, buf =>
    match next buf with
    | .incomplete => some ([], buf, none)
    | .close reason => some ([], buf, some reason)
    | .complete frame rest => (drain fuel rest).map fun (frames, left) => (frame :: frames, left)

/-- The same as a relation, without fuel. -/
inductive Drains : List α → List (List α) → List α → Option ρ → Prop
  | stop {buf : List α} : next buf = .incomplete → Drains buf [] buf none
  | close {buf : List α} {reason : ρ} : next buf = .close reason → Drains buf [] buf (some reason)
  | frame {buf frame rest left : List α} {frames : List (List α)} {closed : Option ρ} :
    next buf = .complete frame rest → Drains rest frames left closed →
    Drains buf (frame :: frames) left closed

/-- What has come of a stream so far. -/
structure Fed (α ρ : Type) where
  frames : List (List α)
  buffer : List α
  closed : Option ρ

def Fed.start : Fed α ρ := ⟨[], [], none⟩

/-- A piece of the stream arrives and the buffer is drained. A closed stream is not read any
more. -/
def feed (piece : List α) (s : Fed α ρ) : Option (Fed α ρ) :=
  match s.closed with
  | some _ => some s
  | none =>
    (drain next (s.buffer ++ piece).length.succ (s.buffer ++ piece)).map
      fun (frames, buffer, closed) => ⟨s.frames ++ frames, buffer, closed⟩

def feedAll : List (List α) → Fed α ρ → Option (Fed α ρ)
  | [], s => some s
  | piece :: pieces, s => (feed next piece s).bind (feedAll pieces)

end

variable {next : List α → Outcome α ρ} {buf frame rest left : List α} {frames : List (List α)}
  {closed : Option ρ} {reason : ρ} {fuel : Nat}

theorem Lawful.length_lt (H : Lawful next) (h : next buf = .complete frame rest) :
    rest.length < buf.length := by
  have := List.length_pos_iff.mpr (H.frame_ne_nil h)
  rw [H.split h, List.length_append]
  omega

/-! ## The loop as a relation -/

theorem Drains.drain_eq (H : Lawful next) (h : Drains next buf frames left closed)
    (hfuel : buf.length < fuel) : drain next fuel buf = some (frames, left, closed) := by
  induction h generalizing fuel with
  | stop h | close h =>
    obtain ⟨fuel, rfl⟩ := Nat.exists_eq_succ_of_ne_zero (by omega : fuel ≠ 0)
    rw [drain, h]
  | frame h _ ih =>
    obtain ⟨fuel, rfl⟩ := Nat.exists_eq_succ_of_ne_zero (by omega : fuel ≠ 0)
    have hlt := H.length_lt h
    have hrest := @ih fuel (by omega)
    rw [drain, h]
    simp only [hrest, Option.map_some]

theorem Drains.unique (H : Lawful next) {left' : List α} {frames' : List (List α)}
    {closed' : Option ρ} (h : Drains next buf frames left closed)
    (h' : Drains next buf frames' left' closed') :
    frames = frames' ∧ left = left' ∧ closed = closed' := by
  have heq := (h.drain_eq H (Nat.lt_succ_self _)).symm.trans (h'.drain_eq H (Nat.lt_succ_self _))
  simpa using heq

/-- The loop ends: every frame takes a part of the buffer. -/
theorem Lawful.exists_drains (H : Lawful next) (buf : List α) :
    ∃ frames left closed, Drains next buf frames left closed := by
  induction hn : buf.length using Nat.strongRecOn generalizing buf with
  | ind n ih =>
    cases hnext : next buf with
    | incomplete => exact ⟨_, _, _, .stop hnext⟩
    | close reason => exact ⟨_, _, _, .close hnext⟩
    | complete frame rest =>
      obtain ⟨frames, left, closed, h⟩ := ih rest.length (hn ▸ H.length_lt hnext) rest rfl
      exact ⟨_, _, _, .frame hnext h⟩

/-- The frames and what is left are the buffer. -/
theorem Drains.flatten_append (H : Lawful next) (h : Drains next buf frames left closed) :
    frames.flatten ++ left = buf := by
  induction h with
  | stop | close => rfl
  | frame h _ ih => rw [List.flatten_cons, List.append_assoc, ih, H.split h]

/-- What holds of each frame that the framer finds holds of all that are drained. -/
theorem Drains.forall_frames {P : List α → Prop}
    (hP : ∀ buf frame rest, next buf = .complete frame rest → P frame)
    (h : Drains next buf frames left closed) : ∀ frame ∈ frames, P frame := by
  induction h with
  | stop | close => nofun
  | frame h _ ih => exact List.forall_mem_cons.mpr ⟨hP _ _ _ h, ih⟩

/-- What is left of a stream that goes on holds no frame. -/
theorem Drains.next_left (h : Drains next buf frames left none) : next left = .incomplete := by
  generalize hc : none = closed at h
  induction h with
  | stop h => exact h
  | close => cases hc
  | frame _ _ ih => exact ih hc

/-- A stream that was given up stays given up. -/
theorem Drains.append_closed (H : Lawful next) (ext : List α)
    (h : Drains next buf frames left (some reason)) :
    Drains next (buf ++ ext) frames (left ++ ext) (some reason) := by
  generalize hc : some reason = closed at h
  induction h with
  | stop => cases hc
  | close h => exact .close (H.close_append ext h)
  | frame h _ ih => exact .frame (H.complete_append ext h) (ih hc)

/-- More data is appended to what was left. -/
theorem Drains.append_open (H : Lawful next) (ext : List α) {frames' : List (List α)}
    {left' : List α}
    (h : Drains next buf frames left none) (h' : Drains next (left ++ ext) frames' left' closed) :
    Drains next (buf ++ ext) (frames ++ frames') left' closed := by
  generalize hc : none = c at h
  induction h with
  | stop => exact h'
  | close => cases hc
  | frame h _ ih => exact .frame (H.complete_append ext h) (ih h' hc)

/-! ## Pieces of a stream -/

/-- The state after a stream that arrived at once. -/
def Fed.Of (next : List α → Outcome α ρ) (stream : List α) (s : Fed α ρ) : Prop :=
  ∃ left, Drains next stream s.frames left s.closed ∧ (s.closed = none → left = s.buffer)

theorem Fed.start_of (hnil : next [] = .incomplete) : (Fed.start : Fed α ρ).Of next [] :=
  ⟨[], .stop hnil, fun _ => rfl⟩

theorem Lawful.feed_of (H : Lawful next) {stream : List α} {s : Fed α ρ} (hs : s.Of next stream)
    (piece : List α) : ∃ s', feed next piece s = some s' ∧ s'.Of next (stream ++ piece) := by
  obtain ⟨left, hdrains, hleft⟩ := hs
  cases hclosed : s.closed with
  | some reason =>
    rw [hclosed] at hdrains
    refine ⟨s, by rw [feed, hclosed], left ++ piece, ?_, fun h =>
      absurd (hclosed.symm.trans h) nofun⟩
    exact hclosed ▸ hdrains.append_closed H piece
  | none =>
    rw [hclosed] at hdrains
    obtain rfl := hleft hclosed
    obtain ⟨frames, left, closed, h⟩ := H.exists_drains (s.buffer ++ piece)
    refine ⟨⟨s.frames ++ frames, left, closed⟩, ?_, left, hdrains.append_open H piece h,
      fun _ => rfl⟩
    simp only [feed, hclosed, h.drain_eq H (Nat.lt_succ_self _), Option.map_some]

/-- It does not matter in which pieces a stream arrives. -/
theorem Lawful.feedAll_of (H : Lawful next) {stream : List α} {s : Fed α ρ} (hs : s.Of next stream)
    (pieces : List (List α)) :
    ∃ s', feedAll next pieces s = some s' ∧ s'.Of next (stream ++ pieces.flatten) := by
  induction pieces generalizing stream s with
  | nil => exact ⟨s, rfl, by simpa using hs⟩
  | cons piece pieces ih =>
    obtain ⟨s₁, h₁, hs₁⟩ := H.feed_of hs piece
    obtain ⟨s₂, h₂, hs₂⟩ := ih hs₁
    refine ⟨s₂, by rw [feedAll, h₁, Option.bind_some, h₂], ?_⟩
    rwa [List.append_assoc] at hs₂

theorem Fed.Of.unique (H : Lawful next) {stream : List α} {s s' : Fed α ρ} (hs : s.Of next stream)
    (hs' : s'.Of next stream) : s.frames = s'.frames ∧ s.closed = s'.closed := by
  obtain ⟨left, h, -⟩ := hs
  obtain ⟨left', h', -⟩ := hs'
  obtain ⟨hframes, -, hclosed⟩ := h.unique H h'
  exact ⟨hframes, hclosed⟩

end Framer
