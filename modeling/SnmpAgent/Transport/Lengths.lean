import SnmpAgent.Codec.Envelope
import SnmpAgent.Transport.Framing

/-!
# The length codecs

Lengths are read in two places, by the framer and by `BerReader`, and written in one. All three are
about the fields of `IsLength`: the reader takes those with up to eight octets, the framer those
with up to four, and the writer writes the shortest. So the framer finds the messages that the
encoder wrote.
-/

namespace SnmpAgent
open Rust Tlv BerReader

/-- The two readers agree on a length field at the cursor. -/
theorem parseBerLength_iff_readLength (r : BerReader) (contentLength lengthFieldBytes : Nat) :
    parseBerLength r.rest = .ok (some (contentLength, lengthFieldBytes)) ↔
      lengthFieldBytes ≤ 5 ∧
        readLength.run r = .ok (contentLength, r.advance lengthFieldBytes) := by
  rw [parseBerLength_eq_ok, readLength_eq_ok]
  constructor
  · rintro ⟨f, tail, H, hrest, rfl, hle⟩
    refine ⟨hle, f, H, ?_, rfl⟩
    rw [rest_advance_of_eq hrest, hrest]
  · rintro ⟨hle, f, H, hrest, hadvance⟩
    have hlen : f.length = lengthFieldBytes := by
      have := congrArg position hadvance
      simpa using this.symm
    exact ⟨f, _, H, hrest, hlen, hle⟩

/-- A frame is one SEQUENCE, and nothing follows it. -/
theorem readTlv_of_complete {buf frame rest : Bytes}
    (h : nextCompleteFrame buf = .complete frame rest) :
    ∃ v r', readTlv.run (new frame) = .ok ((tagSequence, v), r') ∧ r'.isEmpty = true := by
  obtain ⟨n, hn, hle, rfl, rfl⟩ := nextCompleteFrame_eq_complete h
  obtain ⟨f, contentLength, tail, H, -, rfl, rfl, hmax⟩ := announced_eq_some.mp hn
  simp only [List.length_cons, List.length_append] at hle
  have hlen : (tail.take contentLength).length = contentLength := by
    rw [List.length_take]
    omega
  have htake : (0x30 :: (f ++ tail)).take (1 + f.length + contentLength) =
      0x30 :: f ++ tail.take contentLength := by
    rw [Nat.add_assoc, Nat.add_comm 1, List.take_succ_cons, List.take_length_add_append]
    rfl
  have hraw : IsTlv tagSequence (tail.take contentLength) (0x30 :: f ++ tail.take contentLength) :=
    ⟨_, ⟨f, hlen.symm ▸ H, rfl⟩, rfl⟩
  have hrest : ((new (0x30 :: f ++ tail.take contentLength)).advance
      (0x30 :: f ++ tail.take contentLength).length).rest = [] :=
    rest_advance_of_eq (List.append_nil _).symm
  rw [htake]
  refine ⟨_, _, readTlv_eq_ok.mpr ⟨_, hraw, ?_, rfl, ?_⟩, (BerReader.isEmpty_iff _).mpr hrest⟩
  · rw [hrest, List.append_nil]
    rfl
  · change 0 + _ < _
    simp only [List.length_cons, List.length_append, hlen]
    exact lt_of_le_of_lt (by omega : _ ≤ maxFrameSize) (by decide)

/-- What `encode_length` writes for a length: a field that both readers accept, and that no field
which is accepted undercuts. -/
structure EncodesLength (length : Nat) (field : Bytes) : Prop where
  writes : ∀ dest, (encodeLength dest length : Res BerError Bytes) = capped (dest ++ field)
  read : ∀ tail, readLength.run (new (field ++ tail)) =
    .ok (length, (new (field ++ tail)).advance field.length)
  parsed : length < 2 ^ 32 → ∀ tail, parseBerLength (field ++ tail) =
    .ok (some (length, field.length))
  shortest : ∀ bytes r, readLength.run (new bytes) = .ok (length, r) → field.length ≤ r.position

theorem encodesLength {length : Nat} (h : length < usizeSize) :
    EncodesLength length (lengthField length) where
  writes dest := encodeLength_eq dest h
  read tail := by
    refine readLength_eq_ok.mpr ⟨_, isLength_lengthField h, ?_, rfl⟩
    rw [rest_advance_of_eq rfl]
    rfl
  parsed hlt tail := by
    have hcount : byteCount length ≤ 4 := byteCount_le (by omega) (by decide)
    refine parseBerLength_eq_ok.mpr ⟨_, tail, isLength_lengthField h, rfl, rfl, ?_⟩
    rw [length_lengthField]
    split <;> omega
  shortest bytes r hr := by
    obtain ⟨f, H, -, rfl⟩ := readLength_eq_ok.mp hr
    exact H.length_lengthField_le.trans (Nat.le_add_left ..)

/-! ## Messages -/

theorem nextCompleteFrame_tlv {v : Bytes} (h : (tlv tagSequence v).length ≤ maxFrameSize)
    (rest : Bytes) :
    nextCompleteFrame (tlv tagSequence v ++ rest) = .complete (tlv tagSequence v) rest := by
  have hsize := length_tlv tagSequence v
  have hle := le_tlvSize v.length
  have hcount : byteCount v.length ≤ 4 := byteCount_le (by
    simp only [maxFrameSize] at h
    omega) (by decide)
  have hfield : (lengthField v.length).length ≤ 5 := by
    rw [length_lengthField]
    split <;> omega
  have hn : announced (tlv tagSequence v ++ rest) = .ok (some (tlv tagSequence v).length) := by
    refine announced_eq_some.mpr ⟨lengthField v.length, v.length, v ++ rest,
      isLength_lengthField ?_, hfield, ?_, hsize, h⟩
    · simp only [maxFrameSize] at h
      omega
    · simp [tlv, head, tagSequence]
  rw [nextCompleteFrame_eq, hn]
  simp

/-- A stream of SEQUENCEs is drained into them. -/
theorem drains_flatten {frames : List Bytes}
    (h : ∀ frame ∈ frames, frame.length ≤ maxFrameSize ∧ ∃ v, frame = tlv tagSequence v) :
    Framer.Drains nextCompleteFrame frames.flatten frames [] none := by
  induction frames with
  | nil => exact .stop rfl
  | cons frame frames ih =>
    rw [List.forall_mem_cons] at h
    obtain ⟨⟨hlen, v, rfl⟩, hframes⟩ := h
    exact .frame (nextCompleteFrame_tlv hlen _) (ih hframes)

/-- A message is written by `encode_v3_message`. -/
def IsEncoded (message : Bytes) : Prop :=
  ∃ header usm scopedPduOrCiphertext encrypted offset,
    Ber.encodeV3Message header usm scopedPduOrCiphertext encrypted = .ok (message, offset)

theorem IsEncoded.eq_tlv {message : Bytes} (h : IsEncoded message) :
    ∃ v, message = tlv tagSequence v := by
  obtain ⟨header, usm, payload, encrypted, offset, h⟩ := h
  simp only [Ber.encodeV3Message, Res.bind_eq_ok, Res.ok.injEq, Prod.mk.injEq] at h
  obtain ⟨_, hwrite, _, -, rfl, -⟩ := h
  rw [writeV3Message_eq, capped_eq_ok] at hwrite
  exact ⟨_, hwrite.1⟩

/-- **Lengths.** At every position the framer and the reader find the same length fields of up to
four octets, and a frame is one SEQUENCE for the reader. Lengths are written in the shortest form,
and encoded messages are cut apart as they were put together, whatever the reads that deliver
them. -/
theorem length_codecs_agree :
    (∀ (r : BerReader) (contentLength lengthFieldBytes : Nat),
      parseBerLength r.rest = .ok (some (contentLength, lengthFieldBytes)) ↔
        lengthFieldBytes ≤ 5 ∧
          readLength.run r = .ok (contentLength, r.advance lengthFieldBytes)) ∧
    (∀ buf frame rest, nextCompleteFrame buf = .complete frame rest →
      ∃ v r', readTlv.run (new frame) = .ok ((tagSequence, v), r') ∧ r'.isEmpty = true) ∧
    (∀ length, length < usizeSize → ∃ field, EncodesLength length field) ∧
    ∀ messages reads : List Bytes,
      (∀ message ∈ messages, IsEncoded message ∧ message.length ≤ 65535) →
      reads.flatten = messages.flatten →
      Framer.feedAll nextCompleteFrame reads .start = some ⟨messages, [], none⟩ := by
  refine ⟨parseBerLength_iff_readLength, fun _ _ _ => readTlv_of_complete,
    fun length h => ⟨_, encodesLength h⟩, fun messages reads hmessages hreads => ?_⟩
  have H := lawful_nextCompleteFrame
  have hdrains := drains_flatten fun message hmessage =>
    ⟨(hmessages message hmessage).2, (hmessages message hmessage).1.eq_tlv⟩
  obtain ⟨⟨frames, buffer, closed⟩, hs, left, hof, hbuffer⟩ :=
    H.feedAll_of (Framer.Fed.start_of rfl) reads
  rw [List.nil_append, hreads] at hof
  obtain ⟨rfl, rfl, rfl⟩ := hof.unique H hdrains
  have hnil : [] = buffer := hbuffer rfl
  rw [hs, ← hnil]

end SnmpAgent
