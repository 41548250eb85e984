import SnmpAgent.Transport.Bulk

/-!
# The size estimate

The sum of `estimated_varbind_wire_size` over the variable bindings, with an allowance of 512 bytes,
is an upper bound of the encoded response. So a GETBULK response that had room for a row is encoded
within its limit.
-/

namespace SnmpAgent
open Rust

/-- The parameters of a response: a context without a name, and an engine ID and a user name of at
most 32 bytes. -/
structure V3Params.ForResponse (p : V3Params) : Prop extends p.WF where
  engineId_le : p.engineId.length ≤ 32
  contextName_eq : p.contextName = []
  boots_lt : p.engineBoots < 0x80000000
  time_lt : p.engineTime < 0x80000000

section
variable {crypto : Crypto} {p : V3Params} {salt salt' : SaltCounter} {pdu : GetResponse}
  {bytes : Bytes}

/-- A message is as long as it was before it was signed. -/
theorem length_of_encodeV3Response (hp : p.WF)
    (h : (encodeV3Response crypto p pdu).run salt = .ok (bytes, salt')) :
    bytes.length = (p.unsigned crypto salt (responseTlv pdu)).length ∧ bytes.length ≤ isizeMax := by
  rw [run_encodeV3Response (errorIndex_lt_of_encodeV3Response h), Res.bind_eq_ok] at h
  obtain ⟨raw, hraw, h⟩ := h
  obtain ⟨rfl, -⟩ := capped_eq_ok.mp hraw
  obtain ⟨-, -, hsealed, hlen⟩ := encodeV3Envelope_inv hp h
  exact ⟨hsealed.length_eq, hlen⟩

theorem length_encodeV3Response_le (hp : p.ForResponse)
    (h : (encodeV3Response crypto p pdu).run salt = .ok (bytes, salt')) :
    bytes.length ≤ 512 + estimatedSize pdu.varbinds := by
  obtain ⟨heq, hlen⟩ := length_of_encodeV3Response hp.toWF h
  rw [heq] at hlen ⊢
  exact length_unsigned_response_le crypto salt hp.userName_le hp.engineId_le hp.contextName_eq
    (length_flatMap_le_unsigned.trans_lt (hlen.trans_lt (by decide)))

end

/-- **The estimate.** Every encoded response is within the estimate, and a response whose estimate a
machine can hold is encoded. A GETBULK response with a row is within the limit of the handler. -/
theorem response_within_estimate (crypto : Crypto) (p : V3Params) (hp : p.ForResponse)
    (salt : SaltCounter) :
    (∀ (pdu : GetResponse) bytes salt',
      (encodeV3Response crypto p pdu).run salt = .ok (bytes, salt') →
      bytes.length ≤ 512 + (pdu.varbinds.map estimatedVarbindWireSize).sum) ∧
    (∀ pdu : GetResponse, pdu.errorIndex < 0x80000000 → (p.privacy.isSome → p.auth.isSome) →
      512 + (pdu.varbinds.map estimatedVarbindWireSize).sum ≤ isizeMax →
      ∃ bytes salt', (encodeV3Response crypto p pdu).run salt = .ok (bytes, salt')) ∧
    ∀ (req : GetBulkRequest) (store : Store) (maxRepetitionsCap : UInt32) (maxResponseSize : Nat),
      req.nonRepeating.length <
        (handleGetBulk req store maxRepetitionsCap maxResponseSize).varbinds.length →
      ∀ bytes salt', (encodeV3Response crypto p
          (handleGetBulk req store maxRepetitionsCap maxResponseSize)).run salt =
        .ok (bytes, salt') → bytes.length ≤ maxResponseSize := by
  refine ⟨fun pdu bytes salt' h => length_encodeV3Response_le hp h,
    fun pdu hindex hauth hsize => ?_,
    fun req store maxRepetitionsCap maxResponseSize hmore bytes salt' h => ?_⟩
  · have hestimate : estimatedSize pdu.varbinds ≤ isizeMax := (Nat.le_add_left ..).trans hsize
    have hlist := length_flatMap_varbindTlv_le (hestimate.trans_lt (by decide))
    have hlen := length_unsigned_response_le crypto salt hp.userName_le hp.engineId_le
      hp.contextName_eq (hlist.trans_lt (hestimate.trans_lt (by decide)))
    have hx := capped_encodeV3Envelope crypto salt (responseTlv pdu) hp.toWF
      ⟨hp.boots_lt, hp.time_lt, hauth⟩
    rw [← run_encodeV3Response hindex] at hx
    obtain ⟨hlarge, -⟩ | ⟨-, bytes, h, -⟩ := hx
    · exact absurd (hlen.trans hsize) (Nat.not_le.mpr hlarge)
    · exact ⟨bytes, _, h⟩
  · obtain ⟨heq, hlen⟩ := length_of_encodeV3Response hp.toWF h
    rw [heq] at hlen ⊢
    rw [handleGetBulk_eq] at hmore hlen ⊢
    generalize hrows : bulkRowCount .. = rows at hmore hlen ⊢
    have hne : rows ≠ 0 := by
      rintro rfl
      simp [nonRepeatingResponse, handleGetNext, Store.bulkRows] at hmore
    have hcols : req.columns ≠ [] := by
      intro hnil
      rw [bulkRowCount, if_pos hnil] at hrows
      exact hne hrows.symm
    exact length_unsigned_of_rows crypto salt hp.userName_le hp.engineId_le hp.contextName_eq hlen
      hcols hne (hrows ▸ (isGreatest_bulkRowCount hcols _).1.2)

theorem response_within_estimate_sample :
    let p := responseParams (Sample.inputs (some Sample.privUser) .authPriv) 7 Sample.userName []
    p.privacy.isSome ∧
    (encodeV3Response Sample.crypto p Sample.response).run Sample.agentSalt =
      .ok (Sample.encryptedResponseFrame, Sample.agentSalt.next) ∧
    Sample.encryptedResponseFrame.length ≤
      512 + (Sample.response.varbinds.map estimatedVarbindWireSize).sum := by
  intro p
  have hp : p.ForResponse := by
    refine ⟨⟨by decide, by decide, ?_, ?_⟩, by decide, rfl, by decide, by decide⟩
    · rintro _ _ ⟨⟩
      rfl
    · rintro _ _ ⟨⟩
      rfl
  have h : (encodeV3Response Sample.crypto p Sample.response).run Sample.agentSalt =
      .ok (Sample.encryptedResponseFrame, Sample.agentSalt.next) := by decide +kernel
  exact ⟨by decide, h, (response_within_estimate Sample.crypto p hp Sample.agentSalt).1 _ _ _ h⟩

end SnmpAgent
