import SnmpAgent.Lib.Framer
import SnmpAgent.Transport.Dispatch

/-!
# Frames in a TCP stream (`transport/event_loop.rs`)

A frame is a SEQUENCE with a definite length of at most four octets and of at most `maxFrameSize`
bytes in all. `announced` is the part of `nextCompleteFrame` that looks at the first bytes only; it
makes the framer lawful, so the frames of a stream do not depend on the reads that deliver it.
-/

namespace SnmpAgent
open Rust Tlv

/-! ## Definitions -/

structure BerLengthError where
  deriving DecidableEq

/-- The content length and the size of the length field, or `none` if more bytes are needed. -/
def parseBerLength : Bytes → Except BerLengthError (Option (Nat × Nat))
  | [] => .ok none
  | firstByte :: rest =>
    if firstByte &&& 0x80 = 0 then .ok (some (firstByte.toNat, 1))
    else
      let numOctets := (firstByte &&& 0x7F).toNat
      if numOctets = 0 ∨ numOctets > 4 then .error ⟨⟩
      else
        match slice? rest 0 numOctets with
        | none => .ok none
        | some lengthBytes =>
          .ok (some (lengthBytes.foldl (fun contentLength byte =>
            contentLength <<< 8 ||| byte.toNat) 0, 1 + numOctets))

def totalFrameSize (lengthFieldBytes contentLength : Nat) : Option Nat :=
  (checkedAdd 1 lengthFieldBytes).bind (checkedAdd · contentLength)

/-- A complete frame comes with the buffer from which it was drained. -/
abbrev FrameOutcome := Framer.Outcome UInt8 String

def nextCompleteFrame (readBuf : Bytes) : FrameOutcome :=
  match readBuf with
  | [] => .incomplete
  | tagByte :: afterTag =>
    if tagByte ≠ 0x30 then .close "non-SEQUENCE tag"
    else
      match parseBerLength afterTag with
      | .ok (some (contentLength, lengthFieldBytes)) =>
        match totalFrameSize lengthFieldBytes contentLength with
        | none => .close "frame size overflows usize"
        | some totalFrameBytes =>
          if totalFrameBytes > maxFrameSize then .close "oversized frame"
          else
            match slice? readBuf 0 totalFrameBytes with
            | none => .incomplete
            | some frameBytes => .complete frameBytes (readBuf.drop totalFrameBytes)
      | .ok none => .incomplete
      | .error _ => .close "invalid BER length encoding"

/-! ## What the first bytes announce -/

/-- The size of the frame that starts here, as far as its first bytes tell. -/
def announced (readBuf : Bytes) : Except String (Option Nat) :=
  match readBuf with
  | [] => .ok none
  | tagByte :: afterTag =>
    if tagByte ≠ 0x30 then .error "non-SEQUENCE tag"
    else
      match parseBerLength afterTag with
      | .ok (some (contentLength, lengthFieldBytes)) =>
        match totalFrameSize lengthFieldBytes contentLength with
        | none => .error "frame size overflows usize"
        | some totalFrameBytes =>
          if totalFrameBytes > maxFrameSize then .error "oversized frame" else .ok
            (some totalFrameBytes)
      | .ok none => .ok none
      | .error _ => .error "invalid BER length encoding"

theorem nextCompleteFrame_eq (readBuf : Bytes) : nextCompleteFrame readBuf =
    match announced readBuf with
    | .error reason => .close reason
    | .ok none => .incomplete
    | .ok (some n) =>
      if n ≤ readBuf.length then .complete (readBuf.take n) (readBuf.drop n) else .incomplete := by
  unfold nextCompleteFrame announced
  cases readBuf with
  | nil => rfl
  | cons tagByte afterTag =>
    dsimp only
    split
    · rfl
    rcases parseBerLength afterTag with e | _ | ⟨contentLength, lengthFieldBytes⟩
    · rfl
    · rfl
    dsimp only
    cases totalFrameSize lengthFieldBytes contentLength with
    | none => rfl
    | some n =>
      dsimp only
      split
      · rfl
      · rw [slice?_zero]
        by_cases hle : n ≤ (tagByte :: afterTag).length
        · simp only [if_pos hle]
        · simp only [if_neg hle]

/-- The parser finds the length fields with at most four octets behind the first. -/
theorem parseBerLength_eq_ok {buf : Bytes} {contentLength lengthFieldBytes : Nat} :
    parseBerLength buf = .ok (some (contentLength, lengthFieldBytes)) ↔
      ∃ f tail, IsLength f contentLength ∧ buf = f ++ tail ∧ f.length = lengthFieldBytes ∧
        lengthFieldBytes ≤ 5 := by
  constructor
  · intro h
    cases buf with
    | nil => cases h
    | cons firstByte rest =>
      rw [parseBerLength] at h
      split at h
      · rename_i hshort
        cases h
        exact ⟨[firstByte], rest, .short (Byte.and_high_eq_zero.mp hshort), rfl, rfl, by decide⟩
      rename_i hlong
      dsimp only at h
      split at h
      · cases h
      rename_i hoctets
      rw [not_or] at hoctets
      split at h
      · cases h
      rename_i lengthBytes hslice
      rw [← Nat.zero_add (firstByte &&& 0x7F).toNat, slice?_eq_some, List.drop_zero] at hslice
      obtain ⟨hlen, -, tail, rfl⟩ := hslice
      cases h
      have hlow := Byte.toNat_and_low firstByte
      have hhigh := Byte.and_high_ne_zero.mp hlong
      have hlt := firstByte.toNat_lt
      refine ⟨firstByte :: lengthBytes, tail, ?_, rfl, by rw [List.length_cons]; omega, by omega⟩
      rw [foldl_shiftLeft_or, Nat.zero_mul, Nat.zero_add]
      refine .long (List.ne_nil_of_length_pos ?_) ?_ ?_
      all_goals omega
  · rintro ⟨f, tail, H, rfl, rfl, hle⟩
    cases H with
    | short hb => exact if_pos (Byte.and_high_eq_zero.mpr hb)
    | @long b bs hne _ hb =>
      have hpos := List.length_pos_iff.mpr hne
      have hlow := Byte.toNat_and_low b
      have hoctets : (b &&& 0x7F).toNat = bs.length := by omega
      rw [List.length_cons] at hle
      rw [List.cons_append, parseBerLength, if_neg (Byte.and_high_ne_zero.mpr (by omega))]
      simp only [hoctets, slice?_zero, List.length_append, Nat.le_add_right, if_true,
        List.take_left, foldl_shiftLeft_or, Nat.zero_mul, Nat.zero_add]
      rw [if_neg (by omega), List.length_cons, Nat.add_comm]

theorem totalFrameSize_eq_some {lengthFieldBytes contentLength n : Nat} :
    totalFrameSize lengthFieldBytes contentLength = some n ↔
      n = 1 + lengthFieldBytes + contentLength ∧ n < usizeSize := by
  simp only [totalFrameSize, checkedAdd, Option.bind_eq_some_iff, Option.ite_none_right_eq_some,
    Option.some.injEq]
  constructor
  · rintro ⟨_, ⟨h, rfl⟩, h', rfl⟩
    exact ⟨rfl, h'⟩
  · rintro ⟨rfl, h⟩
    exact ⟨_, ⟨by omega, rfl⟩, h, rfl⟩

/-- What is announced is the size of a SEQUENCE. -/
theorem announced_eq_some {buf : Bytes} {n : Nat} : announced buf = .ok (some n) ↔
    ∃ f contentLength tail, IsLength f contentLength ∧ f.length ≤ 5 ∧ buf = 0x30 :: (f ++ tail) ∧
      n = 1 + f.length + contentLength ∧ n ≤ maxFrameSize := by
  cases buf with
  | nil => exact ⟨(nomatch ·), fun ⟨_, _, _, _, _, h, _⟩ => nomatch h⟩
  | cons tagByte afterTag =>
    constructor
    · intro h
      rw [announced] at h
      split at h
      · cases h
      rename_i htag
      split at h
      · rename_i hparse
        obtain ⟨f, tail, H, rfl, rfl, hle⟩ := parseBerLength_eq_ok.mp hparse
        split at h
        · cases h
        rename_i hsize
        split at h
        · cases h
        rename_i hmax
        cases h
        exact ⟨f, _, tail, H, hle, by rw [not_not.mp htag], (totalFrameSize_eq_some.mp hsize).1,
          Nat.not_lt.mp hmax⟩
      · cases h
      · cases h
    · rintro ⟨f, contentLength, tail, H, hle, hbuf, hn, hmax⟩
      obtain ⟨rfl, rfl⟩ := List.cons_eq_cons.mp hbuf
      have hparse := parseBerLength_eq_ok.mpr ⟨f, tail, H, rfl, rfl, hle⟩
      have hsize := totalFrameSize_eq_some.mpr ⟨hn, hmax.trans_lt (by decide)⟩
      rw [announced, if_neg (not_not.mpr rfl), hparse]
      simp only [hsize, if_neg (Nat.not_lt.mpr hmax)]

theorem parseBerLength_append {buf : Bytes} (ext : Bytes) (h : parseBerLength buf ≠ .ok none) :
    parseBerLength (buf ++ ext) = parseBerLength buf := by
  cases buf with
  | nil => exact absurd rfl h
  | cons firstByte rest =>
    simp only [parseBerLength, List.cons_append] at h ⊢
    split
    · rfl
    rename_i hlong
    rw [if_neg hlong] at h
    split
    · rfl
    rename_i hoctets
    rw [if_neg hoctets] at h
    rw [slice?_zero] at h
    rw [slice?_zero, slice?_zero]
    by_cases hlen : (firstByte &&& 0x7F).toNat ≤ rest.length
    · have hlen' : (firstByte &&& 0x7F).toNat ≤ (rest ++ ext).length :=
        hlen.trans (by rw [List.length_append]; exact Nat.le_add_right ..)
      rw [if_pos hlen, if_pos hlen', List.take_append_of_le_length hlen]
    · rw [if_neg hlen] at h
      exact absurd rfl h

theorem announced_append {buf : Bytes} (ext : Bytes) (h : announced buf ≠ .ok none) :
    announced (buf ++ ext) = announced buf := by
  cases buf with
  | nil => exact absurd rfl h
  | cons tagByte afterTag =>
    simp only [announced, List.cons_append] at h ⊢
    split
    · rfl
    rename_i htag
    rw [if_neg htag] at h
    rw [parseBerLength_append]
    intro hnone
    rw [hnone] at h
    exact h rfl

theorem announced_range {buf : Bytes} {n : Nat} (h : announced buf = .ok (some n)) :
    2 ≤ n ∧ n ≤ 65535 := by
  obtain ⟨f, contentLength, tail, H, -, -, rfl, hmax⟩ := announced_eq_some.mp h
  have := List.length_pos_iff.mpr H.ne_nil
  exact ⟨by omega, hmax⟩

/-- Five bytes are enough to know the size of a frame. -/
theorem length_of_announced_none {buf : Bytes} (h : announced buf = .ok none) : buf.length ≤ 5 := by
  cases buf with
  | nil => exact Nat.zero_le 5
  | cons tagByte afterTag =>
    simp only [announced] at h
    split at h
    · cases h
    cases afterTag with
    | nil => exact (by decide : 1 ≤ 5)
    | cons firstByte rest =>
      simp only [parseBerLength, slice?_zero] at h
      split at h
      · split at h
        · cases h
        · split at h <;> cases h
      · rename_i hlength
        split at hlength
        · cases hlength
        split at hlength
        · cases hlength
        split at hlength
        · rename_i hshort
          split at hshort
          · cases hshort
          · simp only [List.length_cons]
            omega
        · cases hlength
      · cases h

/-! ## The framer -/

theorem nextCompleteFrame_eq_complete {buf frame rest : Bytes}
    (h : nextCompleteFrame buf = .complete frame rest) :
    ∃ n, announced buf = .ok (some n) ∧ n ≤ buf.length ∧ frame = buf.take n ∧
      rest = buf.drop n := by
  rw [nextCompleteFrame_eq] at h
  split at h
  · cases h
  · cases h
  · split at h
    · cases h
      exact ⟨_, ‹_›, ‹_›, rfl, rfl⟩
    · cases h

theorem lawful_nextCompleteFrame : Framer.Lawful nextCompleteFrame where
  complete_append ext h := by
    obtain ⟨n, hn, hle, rfl, rfl⟩ := nextCompleteFrame_eq_complete h
    rw [nextCompleteFrame_eq, announced_append ext (by rw [hn]; nofun), hn]
    dsimp only
    rw [if_pos (by simp; omega), List.take_append_of_le_length hle,
      List.drop_append_of_le_length hle]
  close_append ext h := by
    rw [nextCompleteFrame_eq] at h ⊢
    split at h
    · rename_i hbad
      cases h
      rw [announced_append ext (by rw [hbad]; nofun), hbad]
    · cases h
    · split at h <;> cases h
  split h := by
    obtain ⟨n, -, -, rfl, rfl⟩ := nextCompleteFrame_eq_complete h
    exact (List.take_append_drop ..).symm
  frame_ne_nil h := by
    obtain ⟨n, hn, hle, rfl, rfl⟩ := nextCompleteFrame_eq_complete h
    have := (announced_range hn).1
    rw [← List.length_pos_iff, List.length_take]
    omega

theorem length_frame {buf frame rest : Bytes} (h : nextCompleteFrame buf = .complete frame rest) :
    2 ≤ frame.length ∧ frame.length ≤ 65535 := by
  obtain ⟨n, hn, hle, rfl, rfl⟩ := nextCompleteFrame_eq_complete h
  rw [List.length_take, Nat.min_eq_left hle]
  exact announced_range hn

/-- What is left in a buffer that needs more data. -/
theorem length_of_incomplete {buf : Bytes} (h : nextCompleteFrame buf = .incomplete) :
    buf.length < 65535 := by
  rw [nextCompleteFrame_eq] at h
  split at h
  · cases h
  · have := length_of_announced_none ‹_›
    omega
  · have := announced_range ‹_›
    split at h
    · cases h
    · omega

/-- **Framing.** The loop stops after each read. The frames and the decision to close are those of
the same stream in one read. Frames are within bounds, and until the stream is closed the frames and
the buffer are the stream. -/
theorem frames_independent_of_reads (reads : List Bytes) :
    ∃ s s', Framer.feedAll nextCompleteFrame reads .start = some s ∧
      Framer.feedAll nextCompleteFrame [reads.flatten] .start = some s' ∧
      s.frames = s'.frames ∧ s.closed = s'.closed ∧
      (∀ frame ∈ s.frames, 2 ≤ frame.length ∧ frame.length ≤ 65535) ∧
      (s.closed = none → s.frames.flatten ++ s.buffer = reads.flatten) := by
  have H := lawful_nextCompleteFrame
  have hstart : (Framer.Fed.start : Framer.Fed UInt8 String).Of nextCompleteFrame [] :=
    Framer.Fed.start_of rfl
  obtain ⟨s, hs, hof⟩ := H.feedAll_of hstart reads
  obtain ⟨s', hs', hof'⟩ := H.feedAll_of hstart [reads.flatten]
  rw [List.nil_append] at hof
  rw [List.nil_append, List.flatten_singleton] at hof'
  obtain ⟨hframes, hclosed⟩ := hof.unique H hof'
  obtain ⟨left, hdrains, hleft⟩ := hof
  refine ⟨s, s', hs, hs', hframes, hclosed, hdrains.forall_frames fun _ _ _ => length_frame, ?_⟩
  intro hopen
  rw [← hleft hopen]
  exact hdrains.flatten_append H

/-- A cut inside the length field. -/
example :
    (Framer.feedAll nextCompleteFrame [[0x30, 0x81], [0x01, 0xFF, 0x30], [0x00, 0x02]] .start).map
        (fun s => (s.frames, s.closed)) =
      some ([[0x30, 0x81, 0x01, 0xFF], [0x30, 0x00]], some "non-SEQUENCE tag") := by
  decide +kernel

end SnmpAgent
