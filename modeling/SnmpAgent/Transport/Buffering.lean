import SnmpAgent.Transport.Steps

/-!
# What a connection stores

The reads of one event go into the buffer of the connection until the socket has no more, and only
then does the loop look at the frame in front. So neither a length field that announces too much nor
the size of the buffer stops a drain.
-/

namespace SnmpAgent
open Rust Tlv

/-! ## Frames that are too long -/

/-- The stream begins with a SEQUENCE of `n` bytes in all. -/
def FrameSize (stream : Bytes) (n : Nat) : Prop :=
  ∃ f contentLength tail, IsLength f contentLength ∧ stream = 0x30 :: (f ++ tail) ∧
    n = 1 + f.length + contentLength

/-- However the stream goes on behind these bytes, the frame in front is too long. -/
structure Oversized (buf : Bytes) : Prop where
  exists_frame : ∃ ext n, FrameSize (buf ++ ext) n
  lt : ∀ ext n, FrameSize (buf ++ ext) n → maxFrameSize < n

theorem FrameSize.append {stream : Bytes} {n : Nat} (H : FrameSize stream n) (ext : Bytes) :
    FrameSize (stream ++ ext) n := by
  obtain ⟨f, contentLength, tail, hf, rfl, rfl⟩ := H
  exact ⟨f, contentLength, tail ++ ext, hf, by rw [List.cons_append, List.append_assoc], rfl⟩

theorem FrameSize.unique {stream : Bytes} {n n' : Nat} (H : FrameSize stream n)
    (H' : FrameSize stream n') : n = n' := by
  obtain ⟨f, contentLength, tail, hf, rfl, rfl⟩ := H
  obtain ⟨f', contentLength', tail', hf', hstream, rfl⟩ := H'
  obtain ⟨rfl, rfl, -⟩ := hf.unique hf' (List.cons.inj hstream).2
  rfl

/-- A whole length field. -/
theorem FrameSize.oversized {buf : Bytes} {n : Nat} (H : FrameSize buf n) (hn : maxFrameSize < n) :
    Oversized buf where
  exists_frame := ⟨[], n, H.append []⟩
  lt ext _ H' := (H.append ext).unique H' ▸ hn

/-- A length field that has begun with its first byte can be completed. -/
theorem exists_frameSize_append {b : UInt8} {bs octets tail : Bytes} {contentLength : Nat}
    (H : IsLength (b :: bs) contentLength) (h : octets ++ tail = bs) (ext : Bytes) :
    ∃ ext' n, FrameSize (0x30 :: b :: octets ++ ext ++ ext') n := by
  cases H with
  | short hb =>
    obtain ⟨rfl, rfl⟩ := List.append_eq_nil_iff.mp h
    exact ⟨[], _, [b], _, ext, .short hb, by simp, rfl⟩
  | long hne hle hb =>
    -- as many bytes as the field still needs, with whatever follows
    let field := (octets ++ ext ++ tail).take bs.length
    have hfield : field.length = bs.length := by
      rw [List.length_take, ← h]
      simp only [List.length_append]
      omega
    refine ⟨tail, _, b :: field, _, (octets ++ ext ++ tail).drop bs.length,
      .long (List.ne_nil_of_length_pos (hfield ▸ List.length_pos_iff.mpr hne)) (hfield ▸ hle)
        (hfield ▸ hb), ?_, rfl⟩
    simp only [field, List.cons_append, List.take_append_drop, List.append_assoc]

/-- More bytes do not help. -/
theorem Oversized.append {buf : Bytes} (H : Oversized buf) (ext : Bytes) : Oversized (buf ++ ext)
    where
  lt ext' n h := H.lt (ext ++ ext') n (by rwa [← List.append_assoc])
  exists_frame := by
    obtain ⟨ext', n, f, contentLength, tail, hf, hstream, -⟩ := H.exists_frame
    -- an empty frame would do for fewer than two bytes
    have hshort (ext : Bytes) : buf ++ ext ≠ [0x30, 0x00] := by
      intro h
      have := H.lt ext 2 (h ▸ ⟨[0x00], 0, [], .short (by decide), rfl, rfl⟩)
      exact absurd this (by decide)
    match buf, H with
    | [], _ => exact absurd rfl (hshort _)
    | [tag], _ =>
      obtain ⟨rfl, -⟩ := List.cons.inj hstream
      exact absurd rfl (hshort [0x00])
    | tag :: b :: octets, _ =>
      obtain ⟨b', bs, rfl⟩ := List.exists_cons_of_ne_nil hf.ne_nil
      simp only [List.cons_append, List.cons.injEq] at hstream
      obtain ⟨rfl, rfl, hoctets⟩ := hstream
      rcases List.append_eq_append_iff.mp hoctets with ⟨rest, rfl, -⟩ | ⟨rest, rfl, -⟩
      · exact exists_frameSize_append hf rfl ext
      · have hframe : FrameSize (0x30 :: b :: (bs ++ rest)) _ := ⟨b :: bs, _, rest, hf, rfl, rfl⟩
        exact ⟨[], _, (hframe.append ext).append []⟩

namespace EventLoop

/-! ## Reads of one event -/

/-- One read more than the longest part of a frame. -/
def bufferBound : Nat := 65534 + 4096

/-- The buffer of a connection when the loop has made `i` of the reads of an event. -/
def bufferAt (reads : List ReadResult) (conn : ConnectionState) (i : Nat) : Bytes :=
  (drainReads (reads.take i) conn).1.readBuf

/-- Nothing is stored behind bytes that begin a frame that is too long, and no more than the bound
is stored at any time. -/
def ContainedDrain (reads : List ReadResult) (conn : ConnectionState) : Prop :=
  ∀ i, (Oversized (bufferAt reads conn i) →
      (drainReads reads conn).1.readBuf = bufferAt reads conn i) ∧
    (bufferAt reads conn i).length ≤ bufferBound

/-- All the bytes of the event are within the bound, and those before the last read do not show that
the frame in front is too long. -/
structure ModestReads (reads : List ReadResult) (conn : ConnectionState) : Prop where
  not_oversized : chunks reads ≠ [] →
    ¬ Oversized (conn.readBuf ++ (chunks reads).dropLast.flatten)
  length_le : conn.readBuf.length + (chunks reads).flatten.length ≤ bufferBound

theorem chunks_take (reads : List ReadResult) (i : Nat) :
    chunks (reads.take i) = (chunks reads).take i := by
  induction reads generalizing i with
  | nil => exact (congrArg chunks List.take_nil).trans List.take_nil.symm
  | cons read reads ih =>
    cases i with
    | zero => rfl
    | succ i =>
      rcases read with ⟨_ | ⟨b, bs⟩, now⟩ | _
      · rfl
      · rw [List.take_succ_cons, chunks, chunks, List.take_succ_cons, ih]
      · rfl

theorem bufferAt_eq (reads : List ReadResult) (conn : ConnectionState) (i : Nat) :
    bufferAt reads conn i = conn.readBuf ++ ((chunks reads).take i).flatten := by
  rw [bufferAt, readBuf_drainReads, chunks_take]

theorem mem_chunks_ne_nil {reads : List ReadResult} {chunk : Bytes} (h : chunk ∈ chunks reads) :
    chunk ≠ [] := by
  induction reads with
  | nil => cases h
  | cons read reads ih =>
    rcases read with ⟨_ | ⟨b, bs⟩, now⟩ | _
    · cases h
    · rcases List.mem_cons.mp h with rfl | h
      · nofun
      · exact ih h
    · cases h

theorem containedDrain_iff (reads : List ReadResult) (conn : ConnectionState) :
    ContainedDrain reads conn ↔ ModestReads reads conn := by
  simp only [ContainedDrain, bufferAt_eq, readBuf_drainReads, List.append_cancel_left_eq,
    List.length_append]
  constructor
  · intro h
    refine ⟨fun hne hover => ?_, ?_⟩
    · -- the last chunk is stored behind the others
      rw [List.dropLast_eq_take] at hover
      have heq := (h _).1 hover
      rw [← List.dropLast_eq_take] at heq
      have hsplit := congrArg List.flatten (List.dropLast_append_getLast hne)
      rw [List.flatten_append, List.flatten_singleton, heq] at hsplit
      exact mem_chunks_ne_nil (List.getLast_mem hne) (List.append_right_eq_self.mp hsplit)
    · have := (h (chunks reads).length).2
      rwa [List.take_length] at this
  · intro H i
    refine ⟨fun hover => ?_, ?_⟩
    · by_cases hi : (chunks reads).length ≤ i
      · rw [List.take_of_length_le hi]
      · -- what is too long after `i` chunks still is before the last one
        have hne : chunks reads ≠ [] := List.ne_nil_of_length_pos (by omega)
        have hsplit : (chunks reads).take i ++ ((chunks reads).dropLast).drop i =
            (chunks reads).dropLast := by
          conv_rhs => rw [← List.take_append_drop i (chunks reads).dropLast]
          rw [List.dropLast_eq_take, List.take_take, Nat.min_eq_left (by omega)]
        refine absurd ?_ (H.not_oversized hne)
        rw [← hsplit, List.flatten_append, ← List.append_assoc]
        exact hover.append _
    · have hle : ((chunks reads).take i).flatten.length ≤ (chunks reads).flatten.length := by
        conv_rhs => rw [← List.take_append_drop i (chunks reads)]
        rw [List.flatten_append, List.length_append]
        exact Nat.le_add_right ..
      exact (Nat.add_le_add_left hle _).trans H.length_le

/-! ## Runs -/

/-- No buffer is beyond the bound, neither between the steps nor during the reads of an event, and
an event stores nothing behind the beginning of a frame that is too long. -/
def Contained (s : EventLoop) (step : Step) : Prop :=
  (∀ token conn, s.connections.get? token = some conn → conn.readBuf.length ≤ bufferBound) ∧
  ∀ token engineTime reads writes conn, step = .event (.connection token engineTime reads writes) →
    s.connections.get? token = some conn → ContainedDrain reads conn

def Modest (s : EventLoop) (step : Step) : Prop :=
  ∀ token engineTime reads writes conn, step = .event (.connection token engineTime reads writes) →
    s.connections.get? token = some conn → ModestReads reads conn

/-- An event leaves no more in a buffer than it has read into it. -/
theorem length_readBuf_le_of_modest {crypto : Crypto} {s s' : EventLoop} {step : Step}
    (hlen : ∀ token conn, s.connections.get? token = some conn → conn.readBuf.length ≤ bufferBound)
    (hmodest : Modest s step) (h : s.handleStep crypto step = .ok s') {token : Nat}
    {conn' : ConnectionState} (hconn' : s'.connections.get? token = some conn') :
    conn'.readBuf.length ≤ bufferBound := by
  rcases step with (accepts | ⟨channel, disconnected⟩ | ⟨token', engineTime, reads, writes⟩) | now
  · rcases get?_of_acceptConnections h hconn' with hconn | hnil
    · exact hlen token conn' hconn
    · rw [hnil]
      exact Nat.zero_le _
  · simp only [handleStep, handleEvent] at h
    split at h
    · cases h
    · cases h
      exact hlen token conn' hconn'
  · by_cases hne : token = token'
    case neg =>
      rw [get?_handleConnectionEvent_of_ne h hne] at hconn'
      exact hlen token conn' hconn'
    subst hne
    obtain ⟨conn, hconn, -, -, hsuffix, -⟩ := get?_handleConnectionEvent h hconn'
    have hbound := (hmodest token engineTime reads writes conn rfl hconn).length_le
    rw [← List.length_append, ← readBuf_drainReads] at hbound
    exact hsuffix.length_le.trans hbound
  · cases h
    exact hlen token conn' (get?_of_sweepIdleConnections hconn').1

/-- No bound holds for what one event stores, even with reads of a single byte. -/
theorem exists_bound_lt_bufferAt (conn : ConnectionState) (bound : Nat) :
    ∃ reads, (∀ chunk ∈ chunks reads, chunk.length ≤ 4096) ∧
      bound < (bufferAt reads conn reads.length).length := by
  let reads := List.replicate (bound + 1) (ReadResult.ok [0x30] 0)
  have hchunks : chunks reads = List.replicate (bound + 1) [0x30] := by
    simp only [reads]
    induction bound + 1 with
    | zero => rfl
    | succ n ih => rw [List.replicate_succ, chunks, ih, List.replicate_succ]
  refine ⟨reads, fun chunk hchunk => ?_, ?_⟩
  · rw [hchunks] at hchunk
    rw [List.eq_of_mem_replicate hchunk]
    decide
  · rw [bufferAt_eq, hchunks, List.length_replicate, List.take_replicate, Nat.min_self,
      List.length_append, List.length_flatten, List.map_replicate, List.sum_replicate,
      List.length_singleton, smul_eq_mul, Nat.mul_one]
    omega

/-- **Storing what is read.** In every run, no connection stores more than the bound or anything
behind the beginning of a frame that is too long, exactly if every event brings modest reads. -/
theorem buffers_contained_iff (crypto : Crypto) (agent : Agent) (max : Nat)
    (timeoutConfig : ConnectionTimeoutConfig) (nextToken : Nat) (polls : List Poll) :
    Always (handleStep crypto) Contained (polls.flatMap Poll.steps)
        { new agent max timeoutConfig with nextToken } ↔
      Always (handleStep crypto) Modest (polls.flatMap Poll.steps)
        { new agent max timeoutConfig with nextToken } := by
  constructor
  · intro h
    refine h.mono fun s step hcontained token engineTime reads writes conn hstep hconn => ?_
    exact (containedDrain_iff reads conn).mp
      (hcontained.2 token engineTime reads writes conn hstep hconn)
  · intro h
    refine h.of_inv (fun s => ∀ token conn, s.connections.get? token = some conn →
      conn.readBuf.length ≤ bufferBound) ?_ ?_ nofun
    · exact fun s step s' hlen hmodest hstep token conn' =>
        length_readBuf_le_of_modest hlen hmodest hstep
    · intro s step hlen hmodest
      refine ⟨hlen, fun token engineTime reads writes conn hstep hconn => ?_⟩
      exact (containedDrain_iff reads conn).mpr
        (hmodest token engineTime reads writes conn hstep hconn)

end EventLoop

namespace Sample
open EventLoop

/-- The head of a SEQUENCE with 65536 bytes of content. -/
def longHead : Bytes := [0x30, 0x83, 0x01, 0x00, 0x00]

theorem oversized_longHead : Oversized longHead :=
  FrameSize.oversized ⟨[0x83, 0x01, 0x00, 0x00], _, [],
    .long (by decide) (by decide) (by decide), rfl, rfl⟩ (by decide)

/-- A manager connects, and its head and a byte of content arrive in two reads of one event. -/
def longPolls : List Poll :=
  [⟨[.listener [.stream true 0]], 0⟩, ⟨[.connection 2 1 [.ok longHead 1, .ok [0x02] 1] []], 1⟩]

end Sample

/-- The content is stored, and there is no bound for what is. -/
theorem EventLoop.oversized_content_stored :
    Oversized Sample.longHead ∧
    bufferAt [.ok Sample.longHead 1, .ok [0x02] 1] ⟨[], 0⟩ 1 = Sample.longHead ∧
    bufferAt [.ok Sample.longHead 1, .ok [0x02] 1] ⟨[], 0⟩ 2 = Sample.longHead ++ [0x02] ∧
    ¬ Always (handleStep Sample.crypto) Contained (Sample.longPolls.flatMap Poll.steps)
      (new (Sample.agent none .noAuthNoPriv) 64 {}) ∧
    ∀ bound, ∃ reads, (∀ chunk ∈ chunks reads, chunk.length ≤ 4096) ∧
      bound < (bufferAt reads ⟨[], 0⟩ reads.length).length := by
  refine ⟨Sample.oversized_longHead, rfl, rfl, fun h => ?_, exists_bound_lt_bufferAt _⟩
  have hevent := ((h.2 _ rfl).2 _ rfl).1.2 2 1 _ _ _ rfl rfl
  exact absurd ((hevent 1).1 Sample.oversized_longHead) (by decide)

end SnmpAgent
