import SnmpAgent.Codec.MessageLemmas
import SnmpAgent.Transport.Dispatch

/-!
# What a MAC covers

The receiver zeroes the authentication parameters at the recorded offset and compares MACs. The
offset is the place of the parameters (`IsEnvelope.split`), so the zeroed message still decodes, and
every byte of a frame is either covered by the MAC or part of it.
-/

namespace SnmpAgent
open Rust

/-- The parameters inside the message are replaced by as many zeros. -/
theorem zeroAuthParamsInMessage_append {pre mid post : Bytes} {n : Nat} (hn : mid.length = n)
    (hlt : pre.length + n < usizeSize) :
    zeroAuthParamsInMessage (pre ++ mid ++ post) pre.length n = pre ++ .replicate n 0 ++ post := by
  have hlast : checkedAdd pre.length n = some (pre.length + n) := if_pos hlt
  have hfit : pre.length + n ≤ (pre ++ mid ++ post).length := by simp [hn]
  simp only [zeroAuthParamsInMessage, hlast, if_pos hfit]
  exact overwrite_append (by simp [hn])

section
variable {crypto : Crypto} {protocol : AuthProtocol} {key bytes : Bytes} {env : V3MessageEnvelope}

/-- The frame with zeros for the authentication parameters that it was decoded to. -/
def V3MessageEnvelope.zeroed (env : V3MessageEnvelope) (bytes : Bytes) : Bytes :=
  match env.authParamsOffset with
  | some offset => zeroAuthParamsInMessage bytes offset env.usm.authParams.length
  | none => bytes

theorem zeroed_eq {pre post : Bytes} (hbytes : bytes = pre ++ env.usm.authParams ++ post)
    (hoff : env.authParamsOffset = recordedOffset env.usm.authParams pre.length)
    (hlt : pre.length + env.usm.authParams.length < usizeSize) :
    env.zeroed bytes = pre ++ .replicate env.usm.authParams.length 0 ++ post := by
  by_cases hne : env.usm.authParams = []
  · rw [recordedOffset, if_pos hne] at hoff
    simp [V3MessageEnvelope.zeroed, hoff, hbytes, hne]
  · rw [recordedOffset, if_neg hne] at hoff
    simp only [V3MessageEnvelope.zeroed, hoff, hbytes]
    exact zeroAuthParamsInMessage_append rfl hlt

/-- The zeroed frame decodes to the same envelope with zeros in it. -/
theorem IsEnvelope.zeroed (H : IsEnvelope env bytes) :
    IsEnvelope (env.withAuthParams (.replicate env.usm.authParams.length 0))
    (env.zeroed bytes) := by
  obtain ⟨pre, post, hbytes, hoff, hlt, F⟩ := H.split
  rw [zeroed_eq hbytes hoff hlt]
  exact F _ List.length_replicate

/-- Frame and envelope as the parts around the parameters. -/
theorem IsEnvelope.eq_of_zeroed_eq {env' : V3MessageEnvelope} {bytes' : Bytes}
    (H : IsEnvelope env bytes) (H' : IsEnvelope env' bytes')
    (hauth : env.usm.authParams = env'.usm.authParams)
    (hz : env.zeroed bytes = env'.zeroed bytes') :
    bytes = bytes' := by
  obtain ⟨pre, post, rfl, hoff, hlt, -⟩ := H.split
  obtain ⟨pre', post', rfl, hoff', hlt', -⟩ := H'.split
  by_cases hne : env.usm.authParams = []
  · have hne' : env'.usm.authParams = [] := hauth ▸ hne
    rw [zeroed_eq rfl hoff hlt, zeroed_eq rfl hoff' hlt'] at hz
    simpa [hne, hne'] using hz
  -- The two zeroed frames are one frame, which decodes to one offset.
  have henv := decodeV3Envelope_eq_ok.mpr H.zeroed
  rw [hz, decodeV3Envelope_eq_ok.mpr H'.zeroed] at henv
  have hoffset := congrArg V3MessageEnvelope.authParamsOffset (Res.ok.inj henv)
  change env'.authParamsOffset = env.authParamsOffset at hoffset
  rw [hoff, hoff', ← hauth, recordedOffset, recordedOffset, if_neg hne, if_neg hne,
    Option.some.injEq] at hoffset
  rw [zeroed_eq rfl hoff hlt, zeroed_eq rfl hoff' hlt', ← hauth, List.append_assoc,
    List.append_assoc] at hz
  obtain ⟨rfl, htail⟩ := List.append_inj hz hoffset.symm
  rw [← hauth, List.append_cancel_left htail]

theorem verifyHmac_eq (protocol : AuthProtocol) (key : Bytes) :
    verifyHmac crypto protocol key bytes env.usm.authParams env.authParamsOffset =
      (env.authParamsOffset.isSome &&
        protocol.verifyMac crypto key (env.zeroed bytes) env.usm.authParams == .ok ()) := by
  cases h : env.authParamsOffset <;> simp [verifyHmac, V3MessageEnvelope.zeroed, h]

/-- Verification fails without parameters; otherwise they are the MAC of the zeroed frame. -/
theorem verifyHmac_iff (hkey : key.length = protocol.keyLen) (H : IsEnvelope env bytes) :
    verifyHmac crypto protocol key bytes env.usm.authParams env.authParamsOffset = true ↔
      env.usm.authParams = protocol.mac crypto key (env.zeroed bytes) := by
  rw [verifyHmac_eq, Bool.and_eq_true, beq_iff_eq,
    AuthProtocol.verifyMac_eq_ok crypto protocol _ hkey, and_iff_right_iff_imp]
  intro hmac
  obtain ⟨pre, post, -, hoff, -⟩ := H.split
  have hne : env.usm.authParams ≠ [] := by
    rw [hmac, ← List.length_pos_iff, AuthProtocol.length_mac]
    exact protocol.macLen_pos
  rw [hoff, recordedOffset, if_neg hne]
  rfl

/-- Two frames that verify and have one zeroed form are one frame: the MAC determines the bytes that
it does not cover. -/
theorem IsEnvelope.eq_of_verifyHmac {env' : V3MessageEnvelope} {bytes' : Bytes}
    (H : IsEnvelope env bytes) (H' : IsEnvelope env' bytes')
    (h : verifyHmac crypto protocol key bytes env.usm.authParams env.authParamsOffset = true)
    (h' : verifyHmac crypto protocol key bytes' env'.usm.authParams env'.authParamsOffset = true)
    (hz : env.zeroed bytes = env'.zeroed bytes') : bytes = bytes' := by
  have hkey : key.length = protocol.keyLen := by
    by_contra hne
    simp [verifyHmac_eq, AuthProtocol.verifyMac, hne] at h
  rw [verifyHmac_iff hkey H] at h
  rw [verifyHmac_iff hkey H'] at h'
  exact H.eq_of_zeroed_eq H' (by rw [h, h', hz]) hz

theorem getElem?_append_exchange {pre mid mid' post : Bytes} (hmid : mid'.length = mid.length)
    {i : Nat} (hi : i < pre.length ∨ pre.length + mid.length ≤ i) :
    (pre ++ mid' ++ post)[i]? = (pre ++ mid ++ post)[i]? := by
  rw [List.append_assoc, List.append_assoc]
  rcases hi with hi | hi
  · rw [List.getElem?_append_left hi, List.getElem?_append_left hi]
  · rw [List.getElem?_append_right (by omega), List.getElem?_append_right (by omega),
      List.getElem?_append_right (by omega), List.getElem?_append_right (by omega), hmid]

end

/-- **Authenticated frames are not malleable.** The recorded range holds the parameters; zeroing it
changes nothing else and moves nothing; and a frame that verifies is the only one that verifies with
its zeroed form. -/
theorem authenticated_frames_not_malleable (crypto : Crypto) (bytes : Bytes)
    (env : V3MessageEnvelope) (henv : Ber.decodeV3Envelope bytes = .ok env)
    (hauth : env.usm.authParams ≠ []) :
    (∃ offset, env.authParamsOffset = some offset ∧
      slice? bytes offset (offset + env.usm.authParams.length) = some env.usm.authParams ∧
      let zeroed := zeroAuthParamsInMessage bytes offset env.usm.authParams.length
      zeroed.length = bytes.length ∧
      slice? zeroed offset (offset + env.usm.authParams.length) =
        some (.replicate env.usm.authParams.length 0) ∧
      (∀ i, i < offset ∨ offset + env.usm.authParams.length ≤ i → zeroed[i]? = bytes[i]?) ∧
      Ber.decodeV3Envelope zeroed =
        .ok (env.withAuthParams (.replicate env.usm.authParams.length 0))) ∧
    ∀ (protocol : AuthProtocol) (key bytes' : Bytes) (env' : V3MessageEnvelope),
      Ber.decodeV3Envelope bytes' = .ok env' →
      verifyHmac crypto protocol key bytes env.usm.authParams env.authParamsOffset = true →
      verifyHmac crypto protocol key bytes' env'.usm.authParams env'.authParamsOffset = true →
      env.zeroed bytes = env'.zeroed bytes' → bytes = bytes' := by
  have H := decodeV3Envelope_eq_ok.mp henv
  refine ⟨?_, fun protocol key bytes' env' henv' =>
    H.eq_of_verifyHmac (decodeV3Envelope_eq_ok.mp henv')⟩
  obtain ⟨pre, post, hbytes, hoff, hlt, -⟩ := H.split
  have hzeroed := decodeV3Envelope_eq_ok.mpr H.zeroed
  rw [zeroed_eq hbytes hoff hlt] at hzeroed
  rw [recordedOffset, if_neg hauth] at hoff
  have hslice (mid : Bytes) : slice? (pre ++ mid ++ post) pre.length (pre.length + mid.length) =
      some mid := slice?_eq_some.mpr ⟨rfl, by simp, post, by simp⟩
  refine ⟨pre.length, hoff, hbytes ▸ hslice _, ?_⟩
  rw [hbytes, zeroAuthParamsInMessage_append rfl hlt]
  refine ⟨by simp, by simpa using hslice (.replicate env.usm.authParams.length 0), fun i hi => ?_,
    hzeroed⟩
  exact getElem?_append_exchange List.length_replicate hi

/-! ## A sample agent and a sample manager

The tags and key streams below are values of HMAC-SHA-256 and of AES-128 in CFB mode. -/

namespace Sample

def engineId : Bytes := [0x80, 0x00, 0x1f, 0x88, 0x04, 0x74, 0x65, 0x73, 0x74]
def userName : Bytes := [0x62, 0x6f, 0x62]
def key : Bytes := (List.range' 1 32).map UInt8.ofNat
def sysDescr : Oid := ⟨[1, 3, 6, 1, 2, 1, 1, 1, 0], rfl⟩

/-- The salts of the agent and of the manager. -/
def agentSalt : SaltCounter := ⟨0x0102030405060708, none⟩
def managerSalt : SaltCounter := ⟨0, some 5⟩

def request : InboundPdu := .getRequest ⟨1, [⟨sysDescr, .unspecified⟩]⟩
def response : GetResponse := ⟨1, .noError, 0, [⟨sysDescr, .noSuchObject⟩]⟩
def requestScopedPdu : Bytes := scopedPduTlv engineId [] (requestTlv request 0 0)
def responseScopedPdu : Bytes := scopedPduTlv engineId [] (responseTlv response)

def message (securityFlags : UInt8) (authParams privParams scopedDataBytes : Bytes) : Bytes :=
  messageBytes ⟨7, msgMaxSizeUdp, securityFlags, 3⟩
    ⟨engineId, 3, 1000, userName, authParams, privParams⟩ scopedDataBytes

/-- The same exchange, signed only and encrypted too. The parameters of a MAC are left open. -/
def signedRequest (authParams : Bytes) : Bytes := message 0x01 authParams [] requestScopedPdu
def signedResponse (authParams : Bytes) : Bytes := message 0x01 authParams [] responseScopedPdu
def encryptedRequest (keystream authParams : Bytes) : Bytes :=
  message 0x03 authParams managerSalt.salt.val
    (octetStringTlv (xorKeystream keystream requestScopedPdu))
def encryptedResponse (keystream authParams : Bytes) : Bytes :=
  message 0x03 authParams agentSalt.salt.val
    (octetStringTlv (xorKeystream keystream responseScopedPdu))

def signedRequestTag : Octets 32 :=
  ⟨[0x20, 0x0f, 0xae, 0x4a, 0x10, 0xf0, 0x59, 0xd2, 0x5e, 0xff, 0xde, 0xc7, 0x6b, 0xd1, 0xd8,
    0x66, 0x76, 0xbf, 0x00, 0xc4, 0xdf, 0x83, 0xe0, 0x20, 0xe8, 0xd1, 0xb2, 0x86, 0xc4, 0x4c,
    0x99, 0x44], rfl⟩
def signedResponseTag : Octets 32 :=
  ⟨[0x64, 0x02, 0x0a, 0x1c, 0x5e, 0x64, 0xb3, 0x80, 0xd9, 0x89, 0x25, 0x26, 0x56, 0xa9, 0x28,
    0xcb, 0xd6, 0x38, 0x3f, 0x83, 0x95, 0xcf, 0x3b, 0x64, 0xe4, 0xca, 0x2d, 0xf0, 0xc6, 0x5a,
    0xa8, 0x24], rfl⟩
def encryptedRequestTag : Octets 32 :=
  ⟨[0x48, 0x96, 0x58, 0x7d, 0xf4, 0xe4, 0x77, 0x70, 0x9f, 0x38, 0xcc, 0x1e, 0xba, 0xa9, 0x27,
    0x91, 0x22, 0x5a, 0x2f, 0x08, 0x0f, 0x5f, 0x75, 0xbd, 0x5a, 0x26, 0xcb, 0xd1, 0x32, 0xea,
    0x5a, 0x4b], rfl⟩
def encryptedResponseTag : Octets 32 :=
  ⟨[0x2c, 0x17, 0xed, 0xae, 0x99, 0xd9, 0xd7, 0x4e, 0xad, 0x03, 0xb5, 0x1f, 0xf7, 0xbe, 0xbc,
    0xfd, 0x62, 0x81, 0xba, 0x7a, 0xf3, 0xe7, 0x73, 0x98, 0x8a, 0xe1, 0xcb, 0xb0, 0x22, 0x91,
    0xa7, 0x95], rfl⟩
def requestKeystream : Bytes :=
  [0x7d, 0x14, 0x3a, 0xc5, 0xff, 0xaa, 0x5f, 0x81, 0x74, 0x8b, 0xcf, 0x9d, 0xbc, 0xdb, 0xe0, 0x3e,
  0x34, 0x6e, 0xc7, 0x38, 0x17, 0x3d, 0x80, 0x79, 0x39, 0xf0, 0x90, 0x50, 0xb1, 0xb8, 0xa2, 0x35,
  0xbc, 0xa6, 0x65, 0xca, 0x19, 0x90, 0xdf, 0xf9, 0xa3, 0x04]
def responseKeystream : Bytes :=
  [0x63, 0x61, 0x41, 0xc8, 0x25, 0x5e, 0x3c, 0x40, 0xb6, 0x0d, 0x84, 0x15, 0x1a, 0x66, 0x0e, 0x4d,
  0xbe, 0xda, 0x6b, 0x6d, 0x49, 0x37, 0x19, 0x5d, 0xbc, 0x89, 0x95, 0x2e, 0xa6, 0x19, 0x79, 0x86,
  0x35, 0xa4, 0x17, 0x4a, 0x00, 0x72, 0xba, 0x6c, 0xe0, 0x4f]

def crypto : Crypto := .tabulated
  [((key, signedRequest (.replicate 24 0)), signedRequestTag),
   ((key, signedResponse (.replicate 24 0)), signedResponseTag),
   ((key, encryptedRequest requestKeystream (.replicate 24 0)), encryptedRequestTag),
   ((key, encryptedResponse responseKeystream (.replicate 24 0)), encryptedResponseTag)]
  [((aesIv 3 1000 managerSalt.salt).val, requestKeystream),
   ((aesIv 3 1000 agentSalt.salt).val, responseKeystream)]

/-- The request as it is sent, signed and not encrypted. -/
def signedFrame : Bytes := signedRequest (signedRequestTag.val.take 24)

def signedEnvelope : V3MessageEnvelope :=
  envelopeOf ⟨7, msgMaxSizeUdp, 0x01, 3⟩
    ⟨engineId, 3, 1000, userName, signedRequestTag.val.take 24, []⟩
    (.plaintext engineId [] (requestTlv request 0 0)) 50

end Sample

theorem authenticated_frames_not_malleable_sample :
    Ber.decodeV3Envelope Sample.signedFrame = .ok Sample.signedEnvelope ∧
    verifyHmac Sample.crypto .hmacSha256 Sample.key Sample.signedFrame
      Sample.signedEnvelope.usm.authParams Sample.signedEnvelope.authParamsOffset = true ∧
    ∀ bytes' env', Ber.decodeV3Envelope bytes' = .ok env' →
      verifyHmac Sample.crypto .hmacSha256 Sample.key bytes' env'.usm.authParams
        env'.authParamsOffset = true →
      Sample.signedEnvelope.zeroed Sample.signedFrame = env'.zeroed bytes' →
      Sample.signedFrame = bytes' := by
  have henv : Ber.decodeV3Envelope Sample.signedFrame = .ok Sample.signedEnvelope := by
    decide +kernel
  have hverify : verifyHmac Sample.crypto .hmacSha256 Sample.key Sample.signedFrame
      Sample.signedEnvelope.usm.authParams Sample.signedEnvelope.authParamsOffset = true := by
    decide +kernel
  have H := authenticated_frames_not_malleable Sample.crypto _ _ henv (by decide)
  exact ⟨henv, hverify, fun bytes' env' henv' => H.2 .hmacSha256 Sample.key bytes' env' henv'
    hverify⟩

end SnmpAgent
