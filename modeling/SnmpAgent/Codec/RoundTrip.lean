import SnmpAgent.Codec.MessageLemmas

/-!
# Round trips

What the encoders write is what the decoders read: requests with their variable bindings, and
message envelopes with the place of the authentication parameters. An encoder fails only where its
output does not fit into a vector.
-/

namespace SnmpAgent
open Rust Tlv

/-! ## PDUs -/

inductive RequestKind where
  | get
  | getNext
  | set
  | getBulk (nonRepeaters maxRepetitions : Int32)
  deriving DecidableEq

/-- A request as a manager writes it, with signed bulk fields. -/
structure OutgoingRequest where
  kind : RequestKind
  requestId : Int32
  varbinds : List Varbind
  deriving DecidableEq

namespace OutgoingRequest
variable (req : OutgoingRequest)

def encode : Res EncodeError Bytes := do
  let rawVarbindList ← encodeVarbinds req.varbinds
  match req.kind with
  | .get => encodePdu tagGetRequest rawVarbindList
  | .getNext => encodePdu tagGetNextRequest rawVarbindList
  | .set => encodePdu tagSetRequest rawVarbindList
  | .getBulk nonRepeaters maxRepetitions =>
    Ber.encodeBulkPdu req.requestId nonRepeaters maxRepetitions rawVarbindList
where
  encodePdu (tag : UInt8) (rawVarbindList : Bytes) : Res EncodeError Bytes :=
    (Ber.encodePdu tag req.requestId 0 0 rawVarbindList).mapErr (.ofBer "BER encoding of request")

/-- A bulk field as it is received: negative values count as zero. -/
def bulkField (n : Int32) : UInt32 := if n < 0 then 0 else n.toUInt32

/-- The request as the agent takes it. -/
def received : InboundPdu :=
  match req.kind with
  | .get => .getRequest ⟨req.requestId, req.varbinds⟩
  | .getNext => .getNextRequest ⟨req.requestId, req.varbinds⟩
  | .set => .setRequest ⟨req.requestId, req.varbinds⟩
  | .getBulk nonRepeaters maxRepetitions =>
    .getBulkRequest ⟨req.requestId, bulkField nonRepeaters, bulkField maxRepetitions, req.varbinds⟩

/-- The bulk fields are not negative. -/
def NonNegative : Prop :=
  match req.kind with
  | .getBulk nonRepeaters maxRepetitions => 0 ≤ nonRepeaters.toInt ∧ 0 ≤ maxRepetitions.toInt
  | _ => True

def tag : UInt8 :=
  match req.kind with
  | .get => tagGetRequest
  | .getNext => tagGetNextRequest
  | .set => tagSetRequest
  | .getBulk .. => tagGetBulkRequest

/-- The two integers behind the request-id. -/
def fields : Int32 × Int32 :=
  match req.kind with
  | .getBulk nonRepeaters maxRepetitions => (nonRepeaters, maxRepetitions)
  | _ => (0, 0)

def bytes : Bytes :=
  Ber.pduTlv req.tag req.requestId req.fields.1 req.fields.2 (varbindListTlv req.varbinds)

theorem encode_eq : req.encode = capped req.bytes := by
  have hle : (varbindListTlv req.varbinds).length ≤ req.bytes.length := length_varbindListTlv_le ..
  obtain ⟨kind, requestId, varbinds⟩ := req
  rw [encode, encodeVarbinds_eq]
  by_cases h : (varbindListTlv varbinds).length ≤ isizeMax
  · rw [capped_of_le h, Res.ok_bind]
    cases kind with
    | getBulk nonRepeaters maxRepetitions => exact Ber.encodeBulkPdu_eq ..
    | _ =>
      simp only [encode.encodePdu]
      rw [Ber.encodePdu_eq (by decide), mapErr_capped]
      rfl
  · rw [capped, if_neg h, Res.panic_bind, capped, if_neg fun h' => h (hle.trans h')]

theorem decodePdu_bytes (hlen : req.bytes.length < usizeSize) :
    decodePdu req.bytes = .ok req.received := by
  have hvbs : (varbindListTlv req.varbinds).length < usizeSize :=
    (length_varbindListTlv_le ..).trans_lt hlen
  have hlist (mk : List Varbind → InboundPdu) :
      (decodeVarbindListToVarbinds (varbindListTlv req.varbinds) >>= fun vbs => .ok (mk vbs)) =
        .ok (mk req.varbinds) := by
    rw [decodeVarbindListToVarbinds_varbindListTlv req.varbinds hvbs, Res.ok_bind]
  have htag : req.tag = tagGetBulkRequest ∨ req.tag ∈ Ber.validStandardPduTags := by
    unfold tag
    split <;> decide
  have hdecode := Ber.decodePdu_pduTlv htag hlen
  obtain ⟨kind, requestId, varbinds⟩ := req
  rw [decodePdu, bytes, varbindListTlv, hdecode, Res.mapErr_ok, Res.ok_bind]
  have hfield (n : Int32) : (u32TryFrom n).getD 0 = bulkField n := by
    unfold u32TryFrom bulkField
    split <;> rfl
  cases kind with
  | get => exact hlist fun vbs => .getRequest ⟨requestId, vbs⟩
  | getNext => exact hlist fun vbs => .getNextRequest ⟨requestId, vbs⟩
  | set => exact hlist fun vbs => .setRequest ⟨requestId, vbs⟩
  | getBulk nonRepeaters maxRepetitions =>
    simp only [Ber.decodedPdu, tag, fields, if_true, decodedPduToInbound, hfield]
    exact hlist fun vbs => .getBulkRequest ⟨requestId, bulkField nonRepeaters,
      bulkField maxRepetitions, vbs⟩

theorem bulkField_injective {m n : Int32} (hm : 0 ≤ m.toInt) (hn : 0 ≤ n.toInt)
    (h : bulkField m = bulkField n) : m = n := by
  have hpos {k : Int32} (hk : 0 ≤ k.toInt) : ¬ k < 0 := by
    rw [Int32.lt_iff_toInt_lt]
    exact Int.not_lt.mpr hk
  rw [bulkField, bulkField, if_neg (hpos hm), if_neg (hpos hn)] at h
  exact congrArg Int32.ofUInt32 h

variable {req}

theorem received_injective {req' : OutgoingRequest} (h : req.NonNegative) (h' : req'.NonNegative)
    (heq : req.received = req'.received) : req = req' := by
  obtain ⟨kind, requestId, varbinds⟩ := req
  obtain ⟨kind', requestId', varbinds'⟩ := req'
  cases kind <;> cases kind' <;> simp only [received, reduceCtorEq] at heq
  case getBulk.getBulk nonRepeaters maxRepetitions nonRepeaters' maxRepetitions' =>
    injection heq with heq
    injection heq with hid hnon hmax hvbs
    rw [hid, hvbs, bulkField_injective h.1 h'.1 hnon, bulkField_injective h.2 h'.2 hmax]
  all_goals
    injection heq with heq
    injection heq with hid hvbs
    rw [hid, hvbs]

end OutgoingRequest

/-- **PDUs.** A request is decoded as it was encoded, with negative bulk fields taken as zero, and
two different requests without negative fields are encoded differently. A request that is not
encoded does not fit into memory. -/
theorem request_round_trip (req : OutgoingRequest) :
    (req.encode = .panic ∧ isizeMax < req.bytes.length ∨
      ∃ bytes, req.encode = .ok bytes ∧ decodePdu bytes = .ok req.received) ∧
    ∀ (req' : OutgoingRequest) (bytes : Bytes), req.NonNegative → req'.NonNegative →
      req.encode = .ok bytes → req'.encode = .ok bytes → req = req' := by
  have hdecode (req : OutgoingRequest) {bytes : Bytes} (h : req.encode = .ok bytes) :
      decodePdu bytes = .ok req.received := by
    rw [req.encode_eq, capped_eq_ok] at h
    obtain ⟨rfl, hlen⟩ := h
    exact req.decodePdu_bytes (hlen.trans_lt isizeMax_lt)
  constructor
  · by_cases hlen : req.bytes.length ≤ isizeMax
    · have h : req.encode = .ok req.bytes := by rw [req.encode_eq, capped_of_le hlen]
      exact .inr ⟨req.bytes, h, hdecode req h⟩
    · exact .inl ⟨by rw [req.encode_eq, capped, if_neg hlen], Nat.not_le.mp hlen⟩
  · intro req' bytes hpos hpos' h h'
    exact OutgoingRequest.received_injective hpos hpos'
      (Res.ok.inj ((hdecode req h).symm.trans (hdecode req' h')))

/-! ## Envelopes -/

/-- A message around a payload that is encoded here, or encrypted already. -/
def encodePayload (header : HeaderData) (usm : UsmFields) :
    ScopedData → Res BerError (Bytes × Option Nat)
  | .plaintext contextEngineId contextName rawPdu => do
    let scopedPdu ← Ber.encodeScopedPdu contextEngineId contextName rawPdu
    Ber.encodeV3Message header usm scopedPdu false
  | .encrypted ciphertext => Ber.encodeV3Message header usm ciphertext true

theorem length_le_messageBytes (header : HeaderData) (usm : UsmFields) (scopedBytes : Bytes) :
    scopedBytes.length ≤ (messageBytes header usm scopedBytes).length := by
  have := le_tlvSize ((Ber.integerTlv snmpv3Version).length +
    ((tlv tagSequence (headerContents header)).length +
    ((octetStringTlv (tlv tagSequence (usmContents usm))).length + scopedBytes.length)))
  rw [messageBytes, length_tlv]
  simp only [List.length_append]
  omega

/-- The message is written in one go, and then searched for the authentication parameters. -/
theorem encodePayload_eq (header : HeaderData) (usm : UsmFields) (d : ScopedData) :
    encodePayload header usm d = capped (messageBytes header usm (scopedDataTlv d)) >>= fun bytes =>
      Ber.findAuthParamsOffset bytes usm.authParams.length >>= fun offset =>
        .ok (bytes, offset) := by
  cases d with
  | encrypted ciphertext =>
    rw [encodePayload, Ber.encodeV3Message, writeV3Message_eq]
    rfl
  | plaintext contextEngineId contextName rawPdu =>
    rw [encodePayload, encodeScopedPdu_eq]
    by_cases h : (scopedPduTlv contextEngineId contextName rawPdu).length ≤ isizeMax
    · rw [capped_of_le h, Res.ok_bind, Ber.encodeV3Message, writeV3Message_eq]
      rfl
    · have hle : (scopedPduTlv contextEngineId contextName rawPdu).length ≤ (messageBytes header usm
          (scopedDataTlv (.plaintext contextEngineId contextName rawPdu))).length :=
        length_le_messageBytes header usm _
      rw [capped, if_neg h, Res.panic_bind, capped, if_neg fun h' => h (hle.trans h'),
        Res.panic_bind]

/-- **Envelopes.** A message is decoded as it was encoded, and both sides find the authentication
parameters in the same place. A message that is not encoded does not fit into memory. -/
theorem envelope_round_trip (header : HeaderData) (hid : 0 ≤ header.msgId.toInt)
    (hsize : 484 ≤ header.maxSize.toInt) (usm : UsmFields) (hname : usm.userName.length ≤ 32)
    (d : ScopedData) :
    (encodePayload header usm d = .panic ∧
      isizeMax < (messageBytes header usm (scopedDataTlv d)).length) ∨
    ∃ bytes offset, encodePayload header usm d = .ok (bytes, offset) ∧
      Ber.decodeV3Envelope bytes = .ok
        { msgId := header.msgId, maxSize := header.maxSize, securityFlags := header.securityFlags,
          securityModel := header.securityModel, usm, scopedData := d,
          authParamsOffset := offset } ∧
      (offset = none ↔ usm.authParams = []) ∧
      ∀ i, offset = some i → slice? bytes i (i + usm.authParams.length) = some usm.authParams := by
  rw [encodePayload_eq]
  by_cases hlen : (messageBytes header usm (scopedDataTlv d)).length ≤ isizeMax
  · obtain ⟨offset, H⟩ :=
      isEnvelope_messageBytes header usm d hid hsize hname (hlen.trans_lt isizeMax_lt)
    have hfind : Ber.findAuthParamsOffset (messageBytes header usm (scopedDataTlv d))
        usm.authParams.length = .ok (recordedOffset usm.authParams offset) :=
      findAuthParamsOffset_of_isEnvelope H
    refine .inr ⟨_, recordedOffset usm.authParams offset, ?_, decodeV3Envelope_eq_ok.mpr H, ?_, ?_⟩
    · rw [capped_of_le hlen, Res.ok_bind, hfind, Res.ok_bind]
    · unfold recordedOffset
      split <;> simp_all
    · obtain ⟨pre, post, hsplit, hoff, -, -⟩ := H.split
      intro i hi
      have hpre : i = pre.length := by
        unfold recordedOffset at hi
        split at hi
        · cases hi
        · change recordedOffset usm.authParams offset =
            recordedOffset usm.authParams pre.length at hoff
          rw [recordedOffset, recordedOffset, if_neg ‹_›, if_neg ‹_›] at hoff
          exact Option.some.inj (hi.symm.trans hoff)
      rw [slice?_eq_some, hpre, hsplit]
      exact ⟨rfl, by simp, post, by simp [envelopeOf]⟩
  · exact .inl ⟨by rw [capped, if_neg hlen, Res.panic_bind], Nat.not_le.mp hlen⟩

/-- A signed message in clear. -/
theorem envelope_round_trip_sample :
    let header : HeaderData := ⟨7, 484, 0x01, 3⟩
    let usm : UsmFields := ⟨[0x80, 0, 0, 0, 1], 3, 1000, [0x62, 0x6f, 0x62], [1, 2, 3], []⟩
    let d : ScopedData := .plaintext [0x80, 0, 0, 0, 1] [] [0xA0, 0]
    ∃ bytes offset, encodePayload header usm d = .ok (bytes, offset) ∧
      Ber.decodeV3Envelope bytes = .ok ⟨7, 484, 0x01, 3, usm, d, offset⟩ ∧
      (offset = none ↔ usm.authParams = []) ∧
      ∀ i, offset = some i → slice? bytes i (i + usm.authParams.length) = some usm.authParams := by
  intro header usm d
  rcases envelope_round_trip header (by decide) (by decide) usm (by decide) d with ⟨hpanic, -⟩ | h
  · have hok : encodePayload header usm d ≠ .panic := by decide +kernel
    exact absurd hpanic hok
  · exact h

end SnmpAgent
