import SnmpAgent.Codec.Envelope
import SnmpAgent.Codec.Message

/-!
# What the message codec writes and reads

`V3Params.Sealed` describes the message that `encodeV3Envelope` returns: its envelope, and that the
authentication parameters are the MAC of the same message with zeros in their place. The encoder
returns a sealed message or runs out of memory (`encodeV3Envelope_ok`, `encodeV3Envelope_panic`).
-/

namespace SnmpAgent
open Rust Tlv

/-! ## Words -/

theorem i32TryFrom_eq_some {n : UInt32} {m : Int32} :
    i32TryFrom n = some m ↔ n < 0x80000000 ∧ n.toInt32 = m := by
  unfold i32TryFrom
  split <;> simp_all

theorem toInt_toInt32 {n : UInt32} (h : n < 0x80000000) : n.toInt32.toInt = n.toNat := by
  have h' : n.toNat < 2 ^ 31 := UInt32.lt_iff_toNat_lt.mp h
  change n.toBitVec.toInt = _
  rw [BitVec.toInt_eq_toNat_of_lt]
  · rfl
  · change 2 * n.toNat < 2 ^ 32
    omega

theorem u32TryFrom_toInt32 {n : UInt32} (h : n < 0x80000000) : u32TryFrom n.toInt32 = some n := by
  have hneg : ¬ n.toInt32 < 0 := by
    rw [Int32.lt_iff_toInt_lt, toInt_toInt32 h]
    exact Int.not_lt.mpr (Int.natCast_nonneg _)
  rw [u32TryFrom, if_neg hneg]
  rfl

/-- A word read from the wire is the signed value, or `u32::MAX` for all negative ones. -/
theorem toNat_u32TryFrom_getD (n : Int32) :
    (0 ≤ n.toInt ∧ (((u32TryFrom n).getD 0xFFFFFFFF).toNat : Int) = n.toInt) ∨
      (n.toInt < 0 ∧ ((u32TryFrom n).getD 0xFFFFFFFF).toNat = 0xFFFFFFFF) := by
  by_cases h : n < 0
  · rw [u32TryFrom, if_pos h]
    exact .inr ⟨Int32.lt_iff_toInt_lt.mp h, rfl⟩
  · rw [u32TryFrom, if_neg h]
    have h0 : 0 ≤ n.toInt := Int32.le_iff_toInt_le.mp (Int32.not_lt.mp h)
    have hval : n.toInt = n.toBitVec.toInt := rfl
    refine .inl ⟨h0, ?_⟩
    rw [hval, BitVec.toInt_eq_toNat_cond] at h0 ⊢
    have := n.toBitVec.isLt
    split at h0 <;> rename_i hc
    · rw [if_pos hc]
      rfl
    · omega

/-! ## Variable bindings -/

theorem mapM_capped {ε α : Type} (f : α → Bytes) (xs : List α)
    (h : ∀ x ∈ xs, (f x).length ≤ isizeMax) :
    (xs.mapM fun x => (capped (f x) : Res ε Bytes)) = .ok (xs.map f) := by
  induction xs with
  | nil => rfl
  | cons x xs ih =>
    have hx := capped_of_le (ε := ε) (h x List.mem_cons_self)
    have hxs := ih fun y hy => h y (List.mem_cons_of_mem x hy)
    rw [List.mapM_cons, hx, Res.ok_bind, hxs]
    rfl

theorem mapM_capped_panic {ε α : Type} (f : α → Bytes) (xs : List α)
    (h : ¬ ∀ x ∈ xs, (f x).length ≤ isizeMax) :
    (xs.mapM fun x => (capped (f x) : Res ε Bytes)) = .panic := by
  induction xs with
  | nil => exact absurd (fun _ hx => nomatch hx) h
  | cons x xs ih =>
    rw [List.mapM_cons]
    by_cases hx : (f x).length ≤ isizeMax
    · have hxs := ih fun hall => h (List.forall_mem_cons.mpr ⟨hx, hall⟩)
      rw [capped_of_le hx, Res.ok_bind, hxs, Res.panic_bind]
    · rw [capped, if_neg hx, Res.panic_bind]

theorem length_varbindTlv_le {vb : Varbind} {vbs : List Varbind} (h : vb ∈ vbs) :
    (varbindTlv vb).length ≤ (varbindListTlv vbs).length := by
  have h₁ : (varbindTlv vb).length ≤ (vbs.flatMap varbindTlv).length := by
    rw [List.length_flatMap]
    exact List.le_sum_of_mem (List.mem_map_of_mem h)
  have h₂ := le_tlvSize (vbs.flatMap varbindTlv).length
  rw [varbindListTlv, length_tlv]
  omega

theorem encodeVarbinds_eq (vbs : List Varbind) :
    encodeVarbinds vbs = capped (varbindListTlv vbs) := by
  have hone (vb : Varbind) : (do
      let encodedValue ← (encodeVarbindValue vb.value).mapErr
        (EncodeError.ofBer "varbind value encoding")
      encodeVarbind vb.oid encodedValue) = capped (varbindTlv vb) := by
    rw [encodeVarbindValue_eq]
    simp only [encodeVarbind_eq]
    have hle : (valueTlv vb.value).length ≤ (varbindTlv vb).length := by
      have := le_tlvSize (tlv tagOid (encodeOid vb.oid) ++ valueTlv vb.value).length
      rw [varbindTlv, length_tlv]
      rw [List.length_append] at this ⊢
      omega
    by_cases h : (valueTlv vb.value).length ≤ isizeMax
    · rw [capped_of_le h, Res.mapErr_ok, Res.ok_bind]
      rfl
    · rw [capped, if_neg h, Res.mapErr_panic, Res.panic_bind, capped, if_neg (by omega)]
  rw [encodeVarbinds]
  simp only [hone, encodeVarbindList_eq]
  by_cases h : ∀ vb ∈ vbs, (varbindTlv vb).length ≤ isizeMax
  · rw [mapM_capped _ _ h, Res.ok_bind, ← List.flatMap_def]
    rfl
  · rw [mapM_capped_panic _ _ h, Res.panic_bind, capped, if_neg]
    intro hlen
    exact h fun vb hvb => (length_varbindTlv_le hvb).trans hlen

theorem decodeVarbindListToVarbinds_varbindListTlv (vbs : List Varbind)
    (hlen : (varbindListTlv vbs).length < usizeSize) :
    decodeVarbindListToVarbinds (varbindListTlv vbs) = .ok vbs := by
  rw [decodeVarbindListToVarbinds, decodeVarbindList_varbindListTlv vbs hlen, Res.mapErr_ok,
    Res.ok_bind]
  clear hlen
  induction vbs with
  | nil => rfl
  | cons vb vbs ih =>
    rw [List.map_cons, List.mapM_cons, ih]
    simp only [decodeVarbindValueToValue_decodedValue, Res.mapErr_ok, Res.ok_bind, Res.pure_eq]

/-! ## Decoded messages -/

theorem decodeV3Message_eq_ok {bytes : Bytes} {msg : V3InboundMessage} :
    decodeV3Message bytes = .ok msg ↔ ∃ env engineId contextName scopedData,
      IsEnvelope env bytes ∧
      decodeScopedData env.usm.engineId env.scopedData = .ok (engineId, contextName, scopedData) ∧
      msg = { msgId := env.msgId, maxSize := env.maxSize, securityModel := ⟨env.securityModel⟩,
              engineId, contextName, userName := env.usm.userName, scopedData,
              usm := .ofWire env.usm env.securityFlags, rawMessage := bytes,
              authParamsOffset := env.authParamsOffset } := by
  simp only [decodeV3Message, Res.bind_eq_ok, Res.mapErr_eq_ok, decodeV3Envelope_eq_ok, Prod.exists,
    Res.ok.injEq]
  constructor
  · rintro ⟨env, H, engineId, contextName, scopedData, h, rfl⟩
    exact ⟨env, engineId, contextName, scopedData, H, h, rfl⟩
  · rintro ⟨env, engineId, contextName, scopedData, H, h, rfl⟩
    exact ⟨env, H, engineId, contextName, scopedData, h, rfl⟩

theorem IsEnvelope.msgId_nonneg {env : V3MessageEnvelope} {bytes : Bytes}
    (H : IsEnvelope env bytes) :
    0 ≤ env.msgId.toInt := by
  obtain ⟨_, _, _, _, _, _, _, _, ⟨_, _, _, _, _, _, _, _, ⟨_, _, _, _, h, _⟩, _⟩, _⟩ := H
  exact h

theorem IsEnvelope.userName_le {env : V3MessageEnvelope} {bytes : Bytes}
    (H : IsEnvelope env bytes) :
    env.usm.userName.length ≤ msgUserNameMaxLength := by
  obtain ⟨_, _, _, _, _, _, _, _, ⟨_, _, _, _, _, _, _, _, _, ⟨_, _, _, _, _, _, _,
    ⟨_, _, _, _, _, _, _, _, _, h, _⟩, _⟩, _⟩, _⟩ := H
  exact h

/-! ## Sealed messages -/

namespace V3Params
variable (crypto : Crypto) (p : V3Params) (salt : SaltCounter) (rawPdu : Bytes)

/-- The rules under which a receiver can decode the message. -/
structure WF : Prop where
  msgId_nonneg : 0 ≤ p.msgId.toInt
  userName_le : p.userName.length ≤ msgUserNameMaxLength
  length_authKey : ∀ protocol key, p.auth = some (protocol, key) → key.length = protocol.keyLen
  length_privKey : ∀ protocol key, p.privacy = some (protocol, key) → key.length = protocol.keyLen

/-- The rules that the encoder checks. -/
structure Sendable : Prop where
  boots_lt : p.engineBoots < 0x80000000
  time_lt : p.engineTime < 0x80000000
  auth_of_privacy : p.privacy.isSome → p.auth.isSome

def securityFlags : UInt8 := if p.privacy.isSome then 0x03 else if p.auth.isSome then 0x01 else 0x00

def header : HeaderData where
  msgId := p.msgId
  maxSize := msgMaxSizeUdp
  securityFlags := p.securityFlags
  securityModel := 3

def iv : Octets 16 := aesIv p.engineBoots p.engineTime salt.salt

def scopedPdu : Bytes := scopedPduTlv p.engineId p.contextName rawPdu

def scopedData : ScopedData :=
  match p.privacy with
  | some (protocol, key) =>
    .encrypted (crypto.cfbEncrypt protocol key (p.iv salt) (p.scopedPdu rawPdu)).val
  | none => .plaintext p.engineId p.contextName rawPdu

def privParams : Bytes := if p.privacy.isSome then salt.salt.val else []

/-- Only encryption draws a salt. -/
def saltAfter : SaltCounter := if p.privacy.isSome then salt.next else salt

def usm (authParams : Bytes) : UsmFields where
  engineId := p.engineId
  engineBoots := p.engineBoots.toInt32
  engineTime := p.engineTime.toInt32
  userName := p.userName
  authParams := authParams
  privParams := p.privParams salt

/-- The message with zeros for the authentication parameters. -/
def unsigned : Bytes :=
  messageBytes p.header (p.usm salt (authPlaceholder p.auth))
    (scopedDataTlv (p.scopedData crypto salt rawPdu))

def authParams : Bytes :=
  match p.auth with
  | some (protocol, key) => protocol.mac crypto key (p.unsigned crypto salt rawPdu)
  | none => []

def envelope (authParams : Bytes) (offset : Nat) : V3MessageEnvelope :=
  envelopeOf p.header (p.usm salt authParams) (p.scopedData crypto salt rawPdu) offset

/-- The message that `encodeV3Envelope` returns. -/
def Sealed (bytes : Bytes) : Prop :=
  ∃ pre post, p.unsigned crypto salt rawPdu = pre ++ authPlaceholder p.auth ++ post ∧
    bytes = pre ++ p.authParams crypto salt rawPdu ++ post ∧
    IsEnvelope (p.envelope crypto salt rawPdu (p.authParams crypto salt rawPdu) pre.length) bytes

theorem length_authParams :
    (p.authParams crypto salt rawPdu).length = (authPlaceholder p.auth).length := by
  rcases h : p.auth with _ | ⟨protocol, key⟩ <;> simp [authParams, authPlaceholder, h]

variable {crypto p salt rawPdu}

theorem Sealed.length_eq {bytes : Bytes} (H : p.Sealed crypto salt rawPdu bytes) :
    bytes.length = (p.unsigned crypto salt rawPdu).length := by
  obtain ⟨pre, post, h, rfl, -⟩ := H
  rw [h]
  simp [length_authParams]

theorem Sendable.flagsByte_eq (hp : p.Sendable) :
    flagsByte p.auth.isSome p.privacy.isSome = .ok p.securityFlags := by
  have := hp.auth_of_privacy
  unfold securityFlags
  cases hA : p.auth <;> cases hP : p.privacy <;> simp_all [flagsByte]

end V3Params

section
variable {crypto : Crypto} {p : V3Params} {salt : SaltCounter} {rawPdu : Bytes}

theorem protectScopedPdu_ok (crypto : Crypto) (salt : SaltCounter) (rawPdu : Bytes) (hp : p.WF) :
    ∃ payload, (protectScopedPdu crypto p.privacy p.engineBoots p.engineTime
        (p.scopedPdu rawPdu)).run salt =
      .ok ((payload, p.privParams salt, p.privacy.isSome), p.saltAfter salt) ∧
      (if p.privacy.isSome then octetStringTlv payload else payload) =
        scopedDataTlv (p.scopedData crypto salt rawPdu) := by
  rcases h : p.privacy with _ | ⟨protocol, key⟩
  · refine ⟨p.scopedPdu rawPdu, ?_, ?_⟩
    · simp [protectScopedPdu, V3Params.privParams, V3Params.saltAfter, h]
    · simp [V3Params.scopedData, h, scopedDataTlv, V3Params.scopedPdu]
  · have hkey := hp.length_privKey protocol key h
    refine ⟨(crypto.cfbEncrypt protocol key (p.iv salt) (p.scopedPdu rawPdu)).val, ?_, ?_⟩
    · simp [protectScopedPdu, nextPrivacySalt, V3Params.privParams, V3Params.saltAfter, h,
        PrivProtocol.encrypt_eq crypto protocol _ hkey, V3Params.iv]
    · simp only [V3Params.scopedData, h, scopedDataTlv, Option.isSome_some, if_true]

theorem length_scopedPdu_le :
    (p.scopedPdu rawPdu).length ≤ (p.unsigned crypto salt rawPdu).length := by
  have h₁ : (p.scopedPdu rawPdu).length ≤
      (scopedDataTlv (p.scopedData crypto salt rawPdu)).length := by
    rcases h : p.privacy with _ | ⟨protocol, key⟩
    · simp [V3Params.scopedData, h, scopedDataTlv, V3Params.scopedPdu]
    · simp only [V3Params.scopedData, h, scopedDataTlv, octetStringTlv, length_tlv,
        (crypto.cfbEncrypt _ _ _ _).property]
      exact le_tlvSize _
  have h₂ := le_tlvSize ((Ber.integerTlv snmpv3Version).length +
    (tlvSize (headerContents p.header).length +
    (tlvSize (tlvSize (usmContents (p.usm salt (authPlaceholder p.auth))).length) +
      (scopedDataTlv (p.scopedData crypto salt rawPdu)).length)))
  simp only [V3Params.unsigned, messageBytes, octetStringTlv, length_tlv, List.length_append]
  omega

/-- The placeholder message is in the grammar, and so is the message with the MAC in its place. -/
theorem sealed_of_unsigned (hp : p.WF)
    (hlen : (p.unsigned crypto salt rawPdu).length ≤ isizeMax) :
    ∃ pre post, p.unsigned crypto salt rawPdu = pre ++ authPlaceholder p.auth ++ post ∧
      Ber.findAuthParamsOffset (p.unsigned crypto salt rawPdu) (authPlaceholder p.auth).length =
        .ok (recordedOffset (authPlaceholder p.auth) pre.length) ∧
      p.Sealed crypto salt rawPdu (pre ++ p.authParams crypto salt rawPdu ++ post) := by
  obtain ⟨offset, H⟩ := isEnvelope_messageBytes p.header
    (p.usm salt (authPlaceholder p.auth)) (p.scopedData crypto salt rawPdu)
    hp.msgId_nonneg (by decide : 484 ≤ msgMaxSizeUdp.toInt) hp.userName_le
      (lt_of_le_of_lt hlen isizeMax_lt)
  obtain ⟨pre, post, hsplit, hoff, -, F⟩ := H.split
  refine ⟨pre, post, hsplit, ?_, pre, post, hsplit, rfl, ?_⟩
  · exact (findAuthParamsOffset_of_isEnvelope H).trans (congrArg _ hoff)
  · have hauth := V3Params.length_authParams crypto p salt rawPdu
    have H' := F _ hauth
    have henv : (envelopeOf p.header (p.usm salt (authPlaceholder p.auth))
        (p.scopedData crypto salt rawPdu) offset).withAuthParams (p.authParams crypto salt rawPdu) =
        p.envelope crypto salt rawPdu (p.authParams crypto salt rawPdu) pre.length := by
      simp only [V3MessageEnvelope.withAuthParams, V3Params.envelope, envelopeOf,
        V3Params.usm] at hoff ⊢
      rw [hoff, recordedOffset_congr hauth]
    exact henv ▸ H'

theorem signMessage_ok (hp : p.WF) {pre post : Bytes}
    (hlen : (p.unsigned crypto salt rawPdu).length ≤ isizeMax)
    (hsplit : p.unsigned crypto salt rawPdu = pre ++ authPlaceholder p.auth ++ post) :
    signMessage crypto p.auth (p.unsigned crypto salt rawPdu)
        (recordedOffset (authPlaceholder p.auth) pre.length) =
      .ok (pre ++ p.authParams crypto salt rawPdu ++ post) := by
  have hauth := V3Params.length_authParams crypto p salt rawPdu
  rcases h : p.auth with _ | ⟨protocol, key⟩
  · simp only [h, authPlaceholder] at hsplit
    simp only [signMessage, V3Params.authParams, h, hsplit]
  · have hmac : (authPlaceholder (some (protocol, key))).length = protocol.macLen :=
      List.length_replicate
    have hne : authPlaceholder (some (protocol, key)) ≠ [] := by
      rw [← List.length_pos_iff, hmac]
      exact protocol.macLen_pos
    have hfit : pre.length + protocol.macLen ≤ (p.unsigned crypto salt rawPdu).length := by
      rw [hsplit, h, List.length_append, List.length_append, hmac]
      omega
    have hadd : checkedAdd pre.length protocol.macLen = some (pre.length + protocol.macLen) :=
      if_pos (lt_of_le_of_lt (hfit.trans hlen) isizeMax_lt)
    have hparams : p.authParams crypto salt rawPdu =
        protocol.mac crypto key (p.unsigned crypto salt rawPdu) := by
      rw [V3Params.authParams, h]
    have hover : overwrite (p.unsigned crypto salt rawPdu) pre.length
        (protocol.mac crypto key (p.unsigned crypto salt rawPdu)) =
        pre ++ p.authParams crypto salt rawPdu ++ post := by
      rw [← hparams, hsplit]
      exact overwrite_append hauth
    simp only [signMessage, recordedOffset, if_neg hne, Res.okOr_some, Res.ok_bind,
      AuthProtocol.computeMac_eq crypto protocol _ (hp.length_authKey protocol key h),
      Res.mapErr_ok, hmac, hadd, if_neg (Nat.not_lt.mpr hfit), AuthProtocol.length_mac,
      ne_eq, not_true, if_false, hover]

/-- The first write of the message, before the offset is looked up in it. -/
theorem writeV3Message_unsigned {ε : Type} {payload : Bytes}
    (hpayload : (if p.privacy.isSome then octetStringTlv payload else payload) =
      scopedDataTlv (p.scopedData crypto salt rawPdu)) :
    (Ber.writeV3Message p.header (p.usm salt (authPlaceholder p.auth)) payload p.privacy.isSome :
      Res ε Bytes) = capped (p.unsigned crypto salt rawPdu) := by
  rw [writeV3Message_eq, hpayload]
  rfl

/-- A message that fits into memory is encoded. -/
theorem encodeV3Envelope_ok (hp : p.WF) (hs : p.Sendable)
    (hlen : (p.unsigned crypto salt rawPdu).length ≤ isizeMax) :
    ∃ bytes, (encodeV3Envelope crypto p rawPdu).run salt = .ok (bytes, p.saltAfter salt) ∧
      p.Sealed crypto salt rawPdu bytes := by
  obtain ⟨pre, post, hsplit, hfind, hsealed⟩ := sealed_of_unsigned hp hlen
  obtain ⟨payload, hprotect, hpayload⟩ := protectScopedPdu_ok crypto salt rawPdu hp
  have hscoped : (Ber.encodeScopedPdu p.engineId p.contextName rawPdu : Res EncodeError Bytes) =
      .ok (p.scopedPdu rawPdu) := by
    rw [encodeScopedPdu_eq]
    exact capped_of_le (length_scopedPdu_le.trans hlen)
  have hmessage : Ber.encodeV3Message p.header (p.usm salt (authPlaceholder p.auth)) payload
      p.privacy.isSome = .ok (p.unsigned crypto salt rawPdu,
        recordedOffset (authPlaceholder p.auth) pre.length) := by
    rw [Ber.encodeV3Message, writeV3Message_unsigned hpayload, capped_of_le hlen, Res.ok_bind]
    exact Res.bind_eq_ok.mpr ⟨_, hfind, rfl⟩
  refine ⟨_, ?_, hsealed⟩
  simp only [encodeV3Envelope, Act.bind_eq_ok, Act.lift_eq_ok, Res.okOr_eq_ok, i32TryFrom_eq_some,
    Res.mapErr_eq_ok]
  exact ⟨_, _, ⟨⟨hs.boots_lt, rfl⟩, rfl⟩, _, _, ⟨⟨hs.time_lt, rfl⟩, rfl⟩, _, _, ⟨hscoped, rfl⟩, _,
    _, ⟨hs.flagsByte_eq, rfl⟩, _, _, hprotect, _, _, ⟨hmessage, rfl⟩, signMessage_ok hp hlen hsplit,
    rfl⟩

theorem encodeV3Envelope_panic (hp : p.WF) (hs : p.Sendable)
    (hlen : isizeMax < (p.unsigned crypto salt rawPdu).length) :
    (encodeV3Envelope crypto p rawPdu).run salt = .panic := by
  obtain ⟨payload, hprotect, hpayload⟩ := protectScopedPdu_ok crypto salt rawPdu hp
  have hmessage : Ber.encodeV3Message p.header (p.usm salt (authPlaceholder p.auth)) payload
      p.privacy.isSome = .panic := by
    rw [Ber.encodeV3Message, writeV3Message_unsigned hpayload, capped, if_neg (Nat.not_le.mpr hlen),
      Res.panic_bind]
  have hboots := i32TryFrom_eq_some.mpr ⟨hs.boots_lt, rfl⟩
  have htime := i32TryFrom_eq_some.mpr ⟨hs.time_lt, rfl⟩
  simp only [encodeV3Envelope, StateT.run_bind, Act.run_lift, hboots, htime, Res.okOr_some,
    Res.mapErr_ok, Res.ok_bind, encodeScopedPdu_eq]
  change ((capped (p.scopedPdu rawPdu)).mapErr _ >>= _) >>= _ = _
  by_cases hscoped : (p.scopedPdu rawPdu).length ≤ isizeMax
  · rw [capped_of_le hscoped]
    simp only [Res.mapErr_ok, Res.ok_bind, hs.flagsByte_eq, hprotect]
    change ((Res.mapErr _ (Res.mapErr _ (Ber.encodeV3Message p.header
      (p.usm salt (authPlaceholder p.auth)) payload p.privacy.isSome))) >>= _) >>= _ = _
    rw [hmessage]
    simp only [Res.mapErr_panic, Res.panic_bind]
  · rw [capped, if_neg hscoped, Res.mapErr_panic, Res.panic_bind, Res.panic_bind]

theorem encodeV3Envelope_ne_err (hp : p.WF) (hs : p.Sendable) (e : EncodeError × SaltCounter) :
    (encodeV3Envelope crypto p rawPdu).run salt ≠ .err e := by
  by_cases hlen : (p.unsigned crypto salt rawPdu).length ≤ isizeMax
  · obtain ⟨bytes, h, -⟩ := encodeV3Envelope_ok hp hs hlen
    simp [h]
  · simp [encodeV3Envelope_panic hp hs (Nat.not_le.mp hlen)]

/-- What a returned message says about its parameters. -/
theorem encodeV3Envelope_inv (hp : p.WF) {bytes : Bytes} {salt' : SaltCounter}
    (h : (encodeV3Envelope crypto p rawPdu).run salt = .ok (bytes, salt')) :
    p.Sendable ∧ salt' = p.saltAfter salt ∧ p.Sealed crypto salt rawPdu bytes ∧
      bytes.length ≤ isizeMax := by
  have hs : p.Sendable := by
    simp only [encodeV3Envelope, Act.bind_eq_ok, Act.lift_eq_ok, Res.okOr_eq_ok, i32TryFrom_eq_some]
      at h
    obtain ⟨_, _, ⟨⟨hboots, -⟩, -⟩, _, _, ⟨⟨htime, -⟩, -⟩, _, _, -, _, _, ⟨hflags, -⟩, -⟩ := h
    refine ⟨hboots, htime, fun hpriv => ?_⟩
    by_contra hauth
    rw [hpriv, Bool.not_eq_true _ |>.mp hauth] at hflags
    cases hflags
  by_cases hlen : (p.unsigned crypto salt rawPdu).length ≤ isizeMax
  · obtain ⟨bytes', h', hsealed⟩ := encodeV3Envelope_ok hp hs hlen
    rw [h] at h'
    cases h'
    exact ⟨hs, rfl, hsealed, hsealed.length_eq ▸ hlen⟩
  · rw [encodeV3Envelope_panic hp hs (Nat.not_le.mp hlen)] at h
    cases h

theorem length_rawPdu_le : rawPdu.length ≤ (p.unsigned crypto salt rawPdu).length := by
  have hscoped : (p.scopedPdu rawPdu).length ≤ (p.unsigned crypto salt rawPdu).length :=
    length_scopedPdu_le
  refine le_trans ?_ hscoped
  have := le_tlvSize ((octetStringTlv p.engineId).length + ((octetStringTlv p.contextName).length +
    rawPdu.length))
  simp only [V3Params.scopedPdu, scopedPduTlv, length_tlv, List.length_append]
  omega

/-- The PDU is a vector of its own before the message is; the message decides whether both fit. -/
theorem capped_encodeV3Envelope (crypto : Crypto) (salt : SaltCounter) (rawPdu : Bytes) (hp : p.WF)
    (hs : p.Sendable) :
    let x := capped rawPdu >>= fun raw => (encodeV3Envelope crypto p raw).run salt
    (isizeMax < (p.unsigned crypto salt rawPdu).length ∧ x = .panic) ∨
      ((p.unsigned crypto salt rawPdu).length ≤ isizeMax ∧
        ∃ bytes, x = .ok (bytes, p.saltAfter salt) ∧ p.Sealed crypto salt rawPdu bytes) := by
  intro x
  by_cases hlen : (p.unsigned crypto salt rawPdu).length ≤ isizeMax
  · obtain ⟨bytes, h, hsealed⟩ := encodeV3Envelope_ok hp hs hlen
    refine .inr ⟨hlen, bytes, ?_, hsealed⟩
    rw [← h]
    simp only [x, capped_of_le (length_rawPdu_le.trans hlen), Res.ok_bind]
  · refine .inl ⟨Nat.not_le.mp hlen, ?_⟩
    by_cases hraw : rawPdu.length ≤ isizeMax
    · simp only [x, capped_of_le hraw, Res.ok_bind]
      exact encodeV3Envelope_panic hp hs (Nat.not_le.mp hlen)
    · simp only [x, capped, if_neg hraw, Res.panic_bind]

/-- Boots or a time beyond `i32::MAX` are refused before anything else happens. -/
theorem encodeV3Envelope_err (crypto : Crypto) (salt : SaltCounter) (rawPdu : Bytes)
    (h : ¬ (p.engineBoots < 0x80000000 ∧ p.engineTime < 0x80000000)) :
    ∃ e, (encodeV3Envelope crypto p rawPdu).run salt = .err (e, salt) := by
  by_cases hboots : p.engineBoots < 0x80000000
  · have htime : ¬ p.engineTime < 0x80000000 := fun h' => h ⟨hboots, h'⟩
    rw [encodeV3Envelope, StateT.run_bind, Act.run_lift, i32TryFrom, if_pos hboots, Res.okOr_some,
      Res.mapErr_ok, Res.ok_bind, Res.ok_bind, StateT.run_bind, Act.run_lift, i32TryFrom,
      if_neg htime, Res.okOr_none, Res.mapErr_err, Res.err_bind, Res.err_bind]
    exact ⟨_, rfl⟩
  · rw [encodeV3Envelope, StateT.run_bind, Act.run_lift, i32TryFrom, if_neg hboots, Res.okOr_none,
      Res.mapErr_err, Res.err_bind, Res.err_bind]
    exact ⟨_, rfl⟩

end

/-! ## Responses, traps and reports -/

def responseTlv (pdu : GetResponse) : Bytes :=
  Ber.pduTlv tagResponse pdu.requestId pdu.errorStatus.toI32 pdu.errorIndex.toInt32
    (varbindListTlv pdu.varbinds)

def trapTlv (pdu : WireTrapPdu) : Bytes :=
  Ber.pduTlv tagTrap pdu.requestId 0 0 (varbindListTlv pdu.varbinds)

def reportTlv (msgId : Int32) (counterOid : Oid) (counterValue : UInt32) : Bytes :=
  Ber.pduTlv tagReport msgId 0 0 (varbindListTlv [⟨counterOid, .value (.counter32 counterValue)⟩])

section
variable {crypto : Crypto} {p : V3Params} {salt : SaltCounter}

theorem length_varbindListTlv_le (tag : UInt8) (a b c : Int32) (vbs : List Varbind) :
    (varbindListTlv vbs).length ≤ (Ber.pduTlv tag a b c (varbindListTlv vbs)).length := by
  have := le_tlvSize (Ber.integerTlv a ++ (Ber.integerTlv b ++ (Ber.integerTlv c ++
    varbindListTlv vbs))).length
  simp only [List.length_append] at this
  rw [Ber.pduTlv, length_tlv]
  simp only [List.length_append]
  omega

/-- The list and the PDU around it are two vectors; the larger one decides. -/
theorem run_encodePdu {tag : UInt8} (htag : tag ∈ Ber.validStandardPduTags) (a b c : Int32)
    (vbs : List Varbind) (f : BerError → EncodeError)
    (k : Bytes → Act SaltCounter EncodeError Bytes) :
    ((encodeVarbinds vbs).mapErr (·, salt) >>= fun raw =>
        ((Ber.encodePdu tag a b c raw).mapErr f).mapErr (·, salt) >>= fun pdu => (k pdu).run salt) =
      capped (Ber.pduTlv tag a b c (varbindListTlv vbs)) >>= fun pdu => (k pdu).run salt := by
  have hle := length_varbindListTlv_le tag a b c vbs
  simp only [encodeVarbinds_eq, Ber.encodePdu_eq htag]
  by_cases h : (Ber.pduTlv tag a b c (varbindListTlv vbs)).length ≤ isizeMax
  · rw [capped_of_le (hle.trans h), Res.mapErr_ok, Res.ok_bind, capped_of_le h, capped_of_le h]
    rfl
  · have hpanic {ε : Type} : (capped (Ber.pduTlv tag a b c (varbindListTlv vbs)) : Res ε Bytes) =
        .panic := by rw [capped, if_neg h]
    by_cases h' : (varbindListTlv vbs).length ≤ isizeMax
    · rw [capped_of_le h', Res.mapErr_ok, Res.ok_bind, hpanic, hpanic]
      rfl
    · rw [hpanic, capped, if_neg h', Res.mapErr_panic, Res.panic_bind, Res.panic_bind]

theorem run_encodeV3Response {pdu : GetResponse} (hindex : pdu.errorIndex < 0x80000000) :
    (encodeV3Response crypto p pdu).run salt =
      capped (responseTlv pdu) >>= fun raw => (encodeV3Envelope crypto p raw).run salt := by
  have h := i32TryFrom_eq_some.mpr ⟨hindex, rfl⟩
  rw [responseTlv, ← run_encodePdu (by decide) _ _ _ pdu.varbinds
    (.ofBer "BER encoding of GetResponse PDU") (encodeV3Envelope crypto p)]
  simp only [encodeV3Response, StateT.run_bind, Act.run_lift, h, Res.okOr_some, Res.mapErr_ok,
    Res.ok_bind, bind_assoc]

/-- A response whose error index is not representable is not encoded. -/
theorem errorIndex_lt_of_encodeV3Response {pdu : GetResponse} {bytes : Bytes} {salt' : SaltCounter}
    (h : (encodeV3Response crypto p pdu).run salt = .ok (bytes, salt')) :
    pdu.errorIndex < 0x80000000 := by
  simp only [encodeV3Response, Act.bind_eq_ok, Act.lift_eq_ok, Res.okOr_eq_ok,
    i32TryFrom_eq_some] at h
  obtain ⟨_, _, -, _, _, ⟨⟨h, -⟩, -⟩, -⟩ := h
  exact h

theorem run_encodeV3Trap (pdu : WireTrapPdu) :
    (encodeV3Trap crypto p pdu).run salt =
      capped (trapTlv pdu) >>= fun raw => (encodeV3Envelope crypto p raw).run salt := by
  rw [trapTlv, ← run_encodePdu (by decide) _ _ _ pdu.varbinds
    (.ofBer "BER encoding of WireTrapPdu") (encodeV3Envelope crypto p)]
  simp only [encodeV3Trap, StateT.run_bind, Act.run_lift, Res.ok_bind, bind_assoc]

end

/-- The envelope of a report. -/
def reportParams (msgId : Int32) (engineId : Bytes) (engineBoots engineTime : UInt32) :
    V3Params where
  msgId := msgId
  engineId := engineId
  userName := []
  contextName := []
  engineBoots := engineBoots
  engineTime := engineTime
  auth := none
  privacy := none

theorem run_encodeV3Report (crypto : Crypto) (salt : SaltCounter) (msgId : Int32) (engineId : Bytes)
    (engineBoots engineTime : UInt32) (counterOid : Oid) (counterValue : UInt32) :
    (encodeV3Report crypto msgId engineId engineBoots engineTime counterOid counterValue).run salt =
      capped (reportTlv msgId counterOid counterValue) >>= fun raw =>
        (encodeV3Envelope crypto (reportParams msgId engineId engineBoots engineTime)
          raw).run salt := by
  rw [reportTlv, ← run_encodePdu (by decide) _ _ _ [⟨counterOid, .value (.counter32 counterValue)⟩]
    (.ofBer "BER encoding of Report PDU")
    (encodeV3Envelope crypto (reportParams msgId engineId engineBoots engineTime))]
  simp only [encodeV3Report, StateT.run_bind, Act.run_lift, Res.ok_bind, bind_assoc]
  rfl

/-! ## Requests

The source encodes no requests. A manager's request is written here with the same encoders; the two
error fields of a request may hold anything. -/

/-- The tag and the three leading integers of a request. -/
def InboundPdu.fields (errorStatus errorIndex : Int32) : InboundPdu → UInt8 × Int32 × Int32 × Int32
  | .getRequest req => (tagGetRequest, req.requestId, errorStatus, errorIndex)
  | .getNextRequest req => (tagGetNextRequest, req.requestId, errorStatus, errorIndex)
  | .setRequest req => (tagSetRequest, req.requestId, errorStatus, errorIndex)
  | .getBulkRequest req =>
    (tagGetBulkRequest, req.requestId, req.nonRepeaters.toInt32, req.maxRepetitions.toInt32)

def InboundPdu.varbinds : InboundPdu → List Varbind
  | .getRequest req => req.varbinds
  | .getNextRequest req => req.varbinds
  | .setRequest req => req.varbinds
  | .getBulkRequest req => req.varbinds

/-- The fields of a bulk request fit into the signed integers of the wire. -/
def InboundPdu.Representable : InboundPdu → Prop
  | .getBulkRequest req => req.nonRepeaters < 0x80000000 ∧ req.maxRepetitions < 0x80000000
  | _ => True

def encodeRequest (pdu : InboundPdu) (errorStatus errorIndex : Int32) : Res EncodeError Bytes := do
  let rawVarbindList ← encodeVarbinds pdu.varbinds
  match pdu with
  | .getRequest req => encodePdu tagGetRequest req.requestId rawVarbindList
  | .getNextRequest req => encodePdu tagGetNextRequest req.requestId rawVarbindList
  | .setRequest req => encodePdu tagSetRequest req.requestId rawVarbindList
  | .getBulkRequest req =>
    Ber.encodeBulkPdu req.requestId req.nonRepeaters.toInt32 req.maxRepetitions.toInt32
      rawVarbindList
where
  encodePdu (tag : UInt8) (requestId : Int32) (rawVarbindList : Bytes) : Res EncodeError Bytes :=
    (Ber.encodePdu tag requestId errorStatus errorIndex rawVarbindList).mapErr
      (.ofBer "BER encoding of request")

def requestTlv (pdu : InboundPdu) (errorStatus errorIndex : Int32) : Bytes :=
  let (tag, first, second, third) := pdu.fields errorStatus errorIndex
  Ber.pduTlv tag first second third (varbindListTlv pdu.varbinds)

section
variable {pdu : InboundPdu} {errorStatus errorIndex : Int32}

theorem encodeRequest_eq_ok {raw : Bytes} (h : encodeRequest pdu errorStatus errorIndex = .ok raw) :
    raw = requestTlv pdu errorStatus errorIndex ∧ raw.length ≤ isizeMax := by
  simp only [encodeRequest, Res.bind_eq_ok, encodeVarbinds_eq, capped_eq_ok] at h
  obtain ⟨_, ⟨rfl, -⟩, h⟩ := h
  cases pdu with
  | getBulkRequest req =>
    simp only [Ber.encodeBulkPdu_eq, capped_eq_ok] at h
    exact ⟨h.1, h.1 ▸ h.2⟩
  | _ =>
    simp only [encodeRequest.encodePdu, Res.mapErr_eq_ok] at h
    rw [Ber.encodePdu_eq (by decide), capped_eq_ok] at h
    exact ⟨h.1, h.1 ▸ h.2⟩

/-- What was requested is what the agent decodes. -/
theorem decodePdu_requestTlv (hpdu : pdu.Representable)
    (hlen : (requestTlv pdu errorStatus errorIndex).length < usizeSize) :
    ∃ decoded, Ber.decodePdu (requestTlv pdu errorStatus errorIndex) = .ok decoded ∧
      decodedPduToInbound decoded = .ok pdu := by
  have hvbs : (varbindListTlv pdu.varbinds).length < usizeSize :=
    (length_varbindListTlv_le ..).trans_lt hlen
  have hlist (mk : List Varbind → InboundPdu) :
      (decodeVarbindListToVarbinds (varbindListTlv pdu.varbinds) >>= fun vbs => .ok (mk vbs)) =
        .ok (mk pdu.varbinds) := by
    rw [decodeVarbindListToVarbinds_varbindListTlv pdu.varbinds hvbs, Res.ok_bind]
  have htag : (pdu.fields errorStatus errorIndex).1 = tagGetBulkRequest ∨
      (pdu.fields errorStatus errorIndex).1 ∈ Ber.validStandardPduTags := by
    cases pdu <;> simp only [InboundPdu.fields] <;> decide
  refine ⟨_, Ber.decodePdu_pduTlv htag hlen, ?_⟩
  cases pdu with
  | getRequest req => exact hlist fun vbs => .getRequest ⟨req.requestId, vbs⟩
  | getNextRequest req => exact hlist fun vbs => .getNextRequest ⟨req.requestId, vbs⟩
  | setRequest req => exact hlist fun vbs => .setRequest ⟨req.requestId, vbs⟩
  | getBulkRequest req =>
    simp only [Ber.decodedPdu, if_true, decodedPduToInbound, u32TryFrom_toInt32 hpdu.1,
      u32TryFrom_toInt32 hpdu.2, Option.getD_some]
    exact hlist fun vbs => .getBulkRequest ⟨req.requestId, req.nonRepeaters, req.maxRepetitions,
      vbs⟩

end

end SnmpAgent
