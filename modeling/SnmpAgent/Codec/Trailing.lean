import SnmpAgent.Codec.Safety

/-!
# What stands behind the payload of a message

Where the list of variable bindings, or the ciphertext, lies in a message is a matter of the TLVs
around it. `decode_pdu` allows nothing behind the list in the PDU, and nothing behind the PDU. The
decoder of the envelope does not look behind `ScopedPduData`, nor behind the message; and
`decode_scoped_pdu` does not look behind the SEQUENCE. So the payload is at the end of what is
decoded if and only if nothing stands in these places.
-/

namespace SnmpAgent
open Rust Tlv BerReader

/-! ## Places -/

/-- The elements of a message in front of `ScopedPduData`, which starts at `tail`. -/
def Preamble (tail bs : Bytes) : Prop :=
  ∃ version header securityParameters t₁ t₂, Field tagInteger version t₁ bs ∧
    Field tagSequence header t₂ t₁ ∧ Field tagOctetString securityParameters tail t₂

/-- A byte string that starts with a message, whose `ScopedPduData` is a TLV. The bytes `inner`
follow this in the message, and the bytes `outer` follow the message. -/
def MessageParts (tag : UInt8) (scopedData inner outer bytes : Bytes) : Prop :=
  ∃ v t, Field tagSequence v outer bytes ∧ Preamble t v ∧ Field tag scopedData inner t

/-- The list of variable bindings of a PDU, as a TLV, and all that follows it. -/
def ListInPdu (list after bytes : Bytes) : Prop :=
  ∃ tag v outer first second third t₁ t₂ t₃ varbinds inner, Field tag v outer bytes ∧
    Field tagInteger first t₁ v ∧ Field tagInteger second t₂ t₁ ∧ Field tagInteger third t₃ t₂ ∧
    IsTlv tagSequence varbinds list ∧ t₃ = list ++ inner ∧ after = inner ++ outer

/-- The same for the contents of a `ScopedPdu`. -/
def ListInContents (list after bytes : Bytes) : Prop :=
  ∃ contextEngineId contextName t₁ t₂, Field tagOctetString contextEngineId t₁ bytes ∧
    Field tagOctetString contextName t₂ t₁ ∧ ListInPdu list after t₂

/-- The same for a `ScopedPdu`. -/
def ListInScopedPdu (list after bytes : Bytes) : Prop :=
  ∃ v outer inner, Field tagSequence v outer bytes ∧ ListInContents list inner v ∧
    after = inner ++ outer

/-- The same for a message in the clear. -/
def ListInMessage (list after bytes : Bytes) : Prop :=
  ∃ contents behind inner outer, MessageParts tagSequence contents inner outer bytes ∧
    ListInContents list behind contents ∧ after = behind ++ (inner ++ outer)

/-- The payload of a decoded message ends at the last byte of what was decoded: the list of its
variable bindings, or the ciphertext. -/
def PayloadAtEnd (bytes : Bytes) : V3ScopedData → Prop
  | .plaintext pdu => ∃ list, ListInMessage list [] bytes ∧
      decodeVarbindListToVarbinds list = .ok pdu.varbinds
  | .encrypted ciphertext => MessageParts tagOctetString ciphertext [] [] bytes

/-- Nothing stands behind the message, and nothing behind `ScopedPduData` in it. -/
def NothingBehind (bytes : Bytes) : Prop :=
  ∃ tag scopedData, MessageParts tag scopedData [] [] bytes

theorem MessageParts.unique {tag tag' : UInt8} {d d' i i' o o' bytes : Bytes}
    (H : MessageParts tag d i o bytes) (H' : MessageParts tag' d' i' o' bytes) :
    i = i' ∧ o = o' := by
  obtain ⟨v, t, Hv, ⟨_, _, _, _, _, H₁, H₂, H₃⟩, H₄⟩ := H
  obtain ⟨v', t', Hv', ⟨_, _, _, _, _, H₁', H₂', H₃'⟩, H₄'⟩ := H'
  obtain ⟨-, rfl, rfl⟩ := Hv.unique Hv'
  obtain ⟨-, -, rfl⟩ := H₁.unique H₁'
  obtain ⟨-, -, rfl⟩ := H₂.unique H₂'
  obtain ⟨-, -, rfl⟩ := H₃.unique H₃'
  exact ⟨(H₄.unique H₄').2.2, rfl⟩

/-! ## What the decoders of PDUs leave -/

theorem readValidatedVarbindList_inv {r r' : BerReader} {list : Bytes} (hr : r.Bounded)
    (h : Ber.readValidatedVarbindList.run r = .ok (list, r')) :
    ∃ varbinds, IsTlv tagSequence varbinds list ∧ r.rest = list := by
  simp only [Ber.readValidatedVarbindList, Act.bind_eq_ok, Act.get_eq_ok, Act.guard_eq_ok,
    Act.lift_eq_ok, Act.guard_not_eq_ok, Act.pure_eq_ok] at h
  obtain ⟨_, _, ⟨rfl, rfl⟩, -, _, _, ⟨hrest, rfl⟩, _, _, hseq, _, _, ⟨rfl, rfl⟩, hempty, rfl,
    rfl⟩ := h
  obtain ⟨v, tail, ⟨raw, H, hraw⟩, rfl, -⟩ := (readConstructed_eq_ok hr).mp hseq
  rw [BerReader.isEmpty_iff, rest_leaving hraw] at hempty
  rw [hr.remaining_eq] at hrest
  cases hrest
  rw [hempty, List.append_nil] at hraw
  exact ⟨v, hraw ▸ H, rfl⟩

theorem readInteger_inv {r r' : BerReader} {n : Int32} (hr : r.Bounded)
    (h : readInteger.run r = .ok (n, r')) :
    r'.Bounded ∧ ∃ content, Field tagInteger content r'.rest r.rest := by
  obtain ⟨tail, ⟨content, H, -⟩, rfl⟩ := (readInteger_eq_ok hr).mp h
  have hrest : (r.leaving tail).rest = tail := by
    obtain ⟨raw, -, hraw⟩ := H
    exact rest_leaving hraw
  exact ⟨hr.leaving tail, content, hrest.symm ▸ H⟩

theorem readPduFields_inv {r r' : BerReader} {tag : UInt8} {pdu : DecodedPdu} (hr : r.Bounded)
    (h : (Ber.readPduFields tag).run r = .ok (pdu, r')) :
    ∃ first second third t₁ t₂ varbinds, Field tagInteger first t₁ r.rest ∧
      Field tagInteger second t₂ t₁ ∧ Field tagInteger third pdu.rawVarbindList t₂ ∧
      IsTlv tagSequence varbinds pdu.rawVarbindList := by
  simp only [Ber.readPduFields, Act.bind_eq_ok] at h
  obtain ⟨_, r₁, h₁, h⟩ := h
  obtain ⟨hr₁, first, H₁⟩ := readInteger_inv hr h₁
  -- Both kinds of PDU go on with two integers and the list.
  have hfields {f : Int32 → Int32 → Bytes → DecodedPdu}
      (hf : ∀ a b list, (f a b list).rawVarbindList = list)
      (h : (do
        let a ← readInteger
        let b ← readInteger
        let list ← Ber.readValidatedVarbindList
        return f a b list).run r₁ = .ok (pdu, r')) :
      ∃ second third t₂ varbinds, Field tagInteger second t₂ r₁.rest ∧
        Field tagInteger third pdu.rawVarbindList t₂ ∧
        IsTlv tagSequence varbinds pdu.rawVarbindList := by
    simp only [Act.bind_eq_ok, Act.pure_eq_ok] at h
    obtain ⟨_, r₂, h₂, _, r₃, h₃, list, _, hlist, rfl, -⟩ := h
    obtain ⟨hr₂, second, H₂⟩ := readInteger_inv hr₁ h₂
    obtain ⟨hr₃, third, H₃⟩ := readInteger_inv hr₂ h₃
    obtain ⟨varbinds, H, hrest⟩ := readValidatedVarbindList_inv hr₃ hlist
    rw [hf]
    exact ⟨second, third, _, varbinds, H₂, hrest ▸ H₃, H⟩
  have hfound : ∃ second third t₂ varbinds, Field tagInteger second t₂ r₁.rest ∧
      Field tagInteger third pdu.rawVarbindList t₂ ∧
      IsTlv tagSequence varbinds pdu.rawVarbindList := by
    split at h
    · exact hfields (fun _ _ _ => rfl) h
    split at h
    · exact hfields (fun _ _ _ => rfl) h
    · simp at h
  obtain ⟨second, third, t₂, varbinds, H₂, H₃, H⟩ := hfound
  exact ⟨first, second, third, _, t₂, varbinds, H₁, H₂, H₃, H⟩

/-- Nothing follows the list in what `decode_pdu` accepts. -/
theorem listInPdu_of_decodePdu {rawPdu : Bytes} {pdu : DecodedPdu}
    (hlen : rawPdu.length < usizeSize)
    (h : Ber.decodePdu rawPdu = .ok pdu) : ListInPdu pdu.rawVarbindList [] rawPdu := by
  simp only [Ber.decodePdu, Res.bind_eq_ok, Res.guard_eq_ok, Act.on_eq_ok, Prod.exists] at h
  obtain ⟨tag, -, sub, outer, hsub, hempty, _, _, hfields, h⟩ := h
  cases h
  obtain ⟨v, tail, H, rfl, rfl⟩ := (readConstructed_eq_ok (bounded_new hlen)).mp hsub
  have htail : tail = [] := by
    obtain ⟨raw, -, hraw⟩ := H
    rwa [Bool.not_eq_true, Bool.not_eq_false', BerReader.isEmpty_iff, rest_leaving hraw] at hempty
  subst htail
  obtain ⟨first, second, third, t₁, t₂, varbinds, H₁, H₂, H₃, Hlist⟩ :=
    readPduFields_inv (bounded_newWithOffset H _) hfields
  exact ⟨tag, v, [], first, second, third, t₁, t₂, _, varbinds, [], H, H₁, H₂, H₃, Hlist,
    (List.append_nil _).symm, rfl⟩

theorem listInContents_of_decode {fields : DecodedScopedPduFields} {v : Bytes}
    {decoded : DecodedPdu} {pdu : InboundPdu} (hlen : v.length < 2 ^ 64) (H : IsScopedPdu fields v)
    (hdecoded : Ber.decodePdu fields.rawPdu = .ok decoded)
    (hpdu : decodedPduToInbound decoded = .ok pdu) :
    ∃ list, ListInContents list [] v ∧ decodeVarbindListToVarbinds list = .ok pdu.varbinds := by
  obtain ⟨t₁, H₁, H₂⟩ := H
  have h₁ := H₁.length_add_le
  have h₂ := H₂.length_add_le
  have hraw : fields.rawPdu.length < usizeSize := by
    change _ < 2 ^ 64
    omega
  exact ⟨_, ⟨_, _, t₁, _, H₁, H₂, listInPdu_of_decodePdu hraw hdecoded⟩,
    varbinds_of_decodedPduToInbound hpdu⟩

/-! ## Whole messages -/

/-- What the decoder of messages does not look at. -/
theorem payload_of_decodeV3Message {bytes : Bytes} {msg : V3InboundMessage}
    (h : decodeV3Message bytes = .ok msg) :
    ∃ tag scopedData inner outer, MessageParts tag scopedData inner outer bytes ∧
      (inner = [] → outer = [] → PayloadAtEnd bytes msg.scopedData) := by
  obtain ⟨env, _, _, scopedData, H, hscoped, rfl⟩ := decodeV3Message_eq_ok.mp h
  obtain ⟨v, outer, raw, inner, _, Hraw, rfl, -, ⟨t₁, t₂, t₃, _, _, _, H₁, H₂, -, H₃, Hdata, -⟩,
    -⟩ := H
  obtain ⟨version, H₁, -⟩ := H₁
  obtain ⟨usmBytes, _, _, _, _, H₃, -⟩ := H₃
  have Hv : Field tagSequence v outer (raw ++ outer) := ⟨raw, Hraw, rfl⟩
  have Hpre : Preamble t₃ v := ⟨_, _, _, t₁, t₂, H₁, H₂, H₃⟩
  cases hdata : env.scopedData with
  | plaintext contextEngineId contextName rawPdu =>
    rw [hdata] at Hdata hscoped
    obtain ⟨w, Hw, Hfields⟩ := Hdata
    simp only [decodeScopedData, Res.bind_eq_ok, Res.mapErr_eq_ok, Res.ok.injEq, Prod.mk.injEq]
      at hscoped
    obtain ⟨decoded, hdecoded, pdu, hpdu, -, -, rfl⟩ := hscoped
    refine ⟨tagSequence, w, inner, outer, ⟨v, t₃, Hv, Hpre, Hw⟩, ?_⟩
    rintro rfl rfl
    obtain ⟨list, Hlist, hvarbinds⟩ := listInContents_of_decode Hw.value_lt Hfields hdecoded hpdu
    exact ⟨list, ⟨w, [], [], [], ⟨v, t₃, Hv, Hpre, Hw⟩, Hlist, rfl⟩, hvarbinds⟩
  | encrypted ciphertext =>
    rw [hdata] at Hdata hscoped
    cases hscoped
    refine ⟨tagOctetString, ciphertext, inner, outer, ⟨v, t₃, Hv, Hpre, Hdata⟩, ?_⟩
    rintro rfl rfl
    exact ⟨v, t₃, Hv, Hpre, Hdata⟩

theorem nothingBehind_of_payloadAtEnd {bytes : Bytes} {scopedData : V3ScopedData}
    (h : PayloadAtEnd bytes scopedData) : NothingBehind bytes := by
  cases scopedData with
  | plaintext pdu =>
    obtain ⟨_, ⟨contents, _, inner, outer, H, -, h⟩, -⟩ := h
    obtain ⟨-, h⟩ := List.append_eq_nil_iff.mp h.symm
    obtain ⟨rfl, rfl⟩ := List.append_eq_nil_iff.mp h
    exact ⟨_, contents, H⟩
  | encrypted ciphertext => exact ⟨_, ciphertext, h⟩

/-- **Trailing bytes.** The payload is at the end of what is decoded if and only if nothing stands
behind the message and behind `ScopedPduData`, or behind the decrypted `ScopedPdu`. -/
theorem payload_at_end_iff (bytes : Bytes) :
    (∀ msg, decodeV3Message bytes = .ok msg →
      (PayloadAtEnd bytes msg.scopedData ↔ NothingBehind bytes)) ∧
    (∀ scopedPdu, decodeScopedPdu bytes = .ok scopedPdu →
      ((∃ list, ListInScopedPdu list [] bytes ∧
          decodeVarbindListToVarbinds list = .ok scopedPdu.pdu.varbinds) ↔
        ∃ v, Field tagSequence v [] bytes)) := by
  refine ⟨fun msg h => ⟨nothingBehind_of_payloadAtEnd, ?_⟩, fun scopedPdu h => ⟨?_, ?_⟩⟩
  · rintro ⟨tag, scopedData, H⟩
    obtain ⟨_, _, inner, outer, H', hend⟩ := payload_of_decodeV3Message h
    obtain ⟨hinner, houter⟩ := H.unique H'
    exact hend hinner.symm houter.symm
  · rintro ⟨_, ⟨v, outer, inner, H, -, h⟩, -⟩
    obtain ⟨-, rfl⟩ := List.append_eq_nil_iff.mp h.symm
    exact ⟨v, H⟩
  · rintro ⟨v, H⟩
    simp only [decodeScopedPdu, Res.bind_eq_ok, Res.mapErr_eq_ok, decodeScopedPdu_eq_ok,
      Res.ok.injEq] at h
    obtain ⟨fields, ⟨w, tail, raw, Hraw, rfl, -, Hfields⟩, decoded, hdecoded, pdu, hpdu, rfl⟩ := h
    obtain ⟨-, rfl, rfl⟩ := H.unique ⟨raw, Hraw, rfl⟩
    obtain ⟨list, Hlist, hvarbinds⟩ := listInContents_of_decode H.value_lt Hfields hdecoded hpdu
    exact ⟨list, ⟨v, [], [], H, Hlist, rfl⟩, hvarbinds⟩

/-- A `ScopedPdu` with an empty GET request. -/
def emptyGet : Bytes := scopedPduTlv [] [] (Ber.pduTlv tagGetRequest 1 0 0 (tlv tagSequence []))

/-- The request in the clear, with a byte behind its `ScopedPdu` and one behind the message. -/
def paddedGet : Bytes :=
  messageBytes ⟨1, 1500, 0x04, 3⟩ ⟨[], 0, 0, [], [], []⟩ (emptyGet ++ [0xAA]) ++ [0xBB]

/-- Bytes behind the payload are not noticed, in a message or in a decrypted `ScopedPdu`. -/
theorem trailing_bytes_accepted :
    (∃ msg, decodeV3Message paddedGet = .ok msg ∧ ¬ PayloadAtEnd paddedGet msg.scopedData) ∧
    ∃ scopedPdu, decodeScopedPdu (emptyGet ++ [0xCC]) = .ok scopedPdu ∧
      ¬ ∃ list, ListInScopedPdu list [] (emptyGet ++ [0xCC]) := by
  constructor
  · have hparts : MessageParts tagSequence _ [0xAA] [0xBB] paddedGet :=
      ⟨_, _, field_tlv (by decide) _, ⟨_, _, _, _, _, field_tlv (by decide) _,
        field_tlv (by decide) _, field_tlv (by decide) _⟩, field_tlv (by decide) _⟩
    refine ⟨{ msgId := 1, maxSize := 1500, securityModel := ⟨3⟩, engineId := [], contextName := [],
              userName := [], scopedData := .plaintext (.getRequest ⟨1, []⟩),
              usm := .ofWire ⟨[], 0, 0, [], [], []⟩ 0x04, rawMessage := paddedGet,
              authParamsOffset := none }, by decide +kernel, fun h => ?_⟩
    obtain ⟨_, _, H⟩ := nothingBehind_of_payloadAtEnd h
    cases (hparts.unique H).1
  · refine ⟨⟨[], [], .getRequest ⟨1, []⟩⟩, by decide +kernel, ?_⟩
    rintro ⟨_, v, outer, inner, H, -, h⟩
    obtain ⟨-, rfl⟩ := List.append_eq_nil_iff.mp h.symm
    cases (H.unique (field_tlv (by decide) [0xCC])).2.2

end SnmpAgent
