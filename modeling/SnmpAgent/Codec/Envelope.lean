import SnmpAgent.Codec.Grammar
import SnmpAgent.Codec.Snmp

/-!
# The grammar of SNMPv3 messages

`IsEnvelope env bytes` spells out which byte strings `Ber.decodeV3Envelope` accepts and what it
returns for them (`decodeV3Envelope_eq_ok`). Three things follow from the grammar alone. The
recorded offset locates the authentication parameters, and they can be exchanged for others of the
same length without moving anything (`IsEnvelope.split`). The encoder's output is in the grammar
(`isEnvelope_messageBytes`). The encoder finds the offset that the decoder will find
(`findAuthParamsOffset_of_isEnvelope`).
-/

namespace SnmpAgent
open Rust Tlv BerReader

/-! ## Header -/

/-- The contents of the `HeaderData` SEQUENCE, up to trailing bytes. -/
def IsHeader (h : HeaderData) (tail bs : Bytes) : Prop :=
  ∃ t₁ t₂ t₃, IntField h.msgId t₁ bs ∧ 0 ≤ h.msgId.toInt ∧ IntField h.maxSize t₂ t₁ ∧
    484 ≤ h.maxSize.toInt ∧ Field tagOctetString [h.securityFlags] t₃ t₂ ∧
    IntField h.securityModel tail t₃

theorem singleFlagsByte_eq_ok {bytes : Bytes} {b : UInt8} :
    Ber.singleFlagsByte bytes = .ok b ↔ bytes = [b] := by
  obtain _ | ⟨c, _ | ⟨d, bytes⟩⟩ := bytes <;> simp [Ber.singleFlagsByte]

theorem accepts_readHeaderFields :
    Accepts Ber.readHeaderFields fun _ h tail bs => IsHeader h tail bs := by
  refine (accepts_readInteger.bind fun msgId => (accepts_readInteger.bind fun maxSize =>
    (accepts_readOctetString.bind fun flagsBytes =>
      (Accepts.lift (Ber.singleFlagsByte flagsBytes)).bind fun flags =>
        accepts_readInteger.bind fun model =>
          .pure (HeaderData.mk msgId maxSize flags model)).guard).guard).congr ?_
  intro off h tail bs
  simp only [Int32.not_lt, Int32.le_iff_toInt_le, singleFlagsByte_eq_ok]
  constructor
  · rintro ⟨_, t₁, H₁, h₁, _, t₂, H₂, h₂, _, t₃, H₃, _, _, ⟨rfl, rfl⟩, _, _, H₄, rfl, rfl⟩
    exact ⟨t₁, t₂, _, H₁, h₁, H₂, h₂, H₃, H₄⟩
  · rintro ⟨t₁, t₂, t₃, H₁, h₁, H₂, h₂, H₃, H₄⟩
    exact ⟨_, t₁, H₁, h₁, _, t₂, H₂, h₂, _, t₃, H₃, _, _, ⟨rfl, rfl⟩, _, _, H₄, rfl, rfl⟩

theorem accepts_decodeHeaderData : Accepts Ber.decodeHeaderData fun _ h tail bs =>
    ∃ v rest, Field tagSequence v tail bs ∧ IsHeader h rest v := by
  refine (accepts_readHeaderFields.within tagSequence fun h => h).congr fun off h tail bs => ?_
  constructor
  · rintro ⟨_, v, rest, H, h', rfl⟩
    exact ⟨v, rest, H, h'⟩
  · rintro ⟨v, rest, H, h'⟩
    exact ⟨h, v, rest, H, h', rfl⟩

/-! ## Security parameters -/

/-- The contents of the USM SEQUENCE, up to trailing bytes, when the value of
`msgAuthenticationParameters` starts at `k`. -/
def IsUsm (usm : UsmFields) (k : Nat) (tail bs : Bytes) : Prop :=
  ∃ t₁ t₂ t₃ t₄ t₅, Field tagOctetString usm.engineId t₁ bs ∧ IntField usm.engineBoots t₂ t₁ ∧
    IntField usm.engineTime t₃ t₂ ∧ Field tagOctetString usm.userName t₄ t₃ ∧
    usm.userName.length ≤ msgUserNameMaxLength ∧ Field tagOctetString usm.authParams t₅ t₄ ∧
    Field tagOctetString usm.privParams tail t₅ ∧
    k = bs.length - t₅.length - usm.authParams.length

/-- The offset that the decoder records. -/
def recordedOffset (authParams : Bytes) (offset : Nat) : Option Nat :=
  if authParams = [] then none else some offset

theorem recordedOffset_congr {a b : Bytes} (h : a.length = b.length) (offset : Nat) :
    recordedOffset a offset = recordedOffset b offset := by
  have : a = [] ↔ b = [] := by rw [← List.length_eq_zero_iff, h, List.length_eq_zero_iff]
  simp only [recordedOffset, this]

theorem authParamsStart_eq {off : Nat} {authParams : Bytes} (h : authParams.length ≤ off) :
    Ber.authParamsStart off authParams =
      .ok (recordedOffset authParams (off - authParams.length)) := by
  unfold Ber.authParamsStart recordedOffset
  obtain _ | ⟨b, bs⟩ := authParams
  · rfl
  · rw [usizeSub_of_le h]
    rfl

/-- The offset behind the parameters is counted from field to field; it telescopes. -/
theorem authParamsStart_of_fields {t₁ t₂ t₃ t₄ t₅ bs engineId userName authParams : Bytes}
    {boots time : Int32} (off : Nat) (H₁ : Field tagOctetString engineId t₁ bs)
    (H₂ : IntField boots t₂ t₁) (H₃ : IntField time t₃ t₂)
    (H₄ : Field tagOctetString userName t₄ t₃) (H₅ : Field tagOctetString authParams t₅ t₄) :
    Ber.authParamsStart (off + (bs.length - t₁.length) + (t₁.length - t₂.length) +
      (t₂.length - t₃.length) + (t₃.length - t₄.length) + (t₄.length - t₅.length)) authParams =
    .ok (recordedOffset authParams (off + (bs.length - t₅.length - authParams.length))) := by
  have h₁ := H₁.length_add_le
  have h₂ := H₂.length_add_le
  have h₃ := H₃.length_add_le
  have h₄ := H₄.length_add_le
  have h₅ := H₅.length_add_le
  rw [authParamsStart_eq (by omega)]
  congr 2
  omega

theorem accepts_readUsmFields : Accepts Ber.readUsmFields fun off d tail bs =>
    ∃ k, IsUsm d.fields k tail bs ∧
      d.authParamsOffset = recordedOffset d.fields.authParams (off + k) := by
  have hrest (engineId : Bytes) (engineBoots engineTime : Int32) (userName authParams : Bytes) :=
    Accepts.offset_bind (f := fun off => do
      let authParamsOffset ← .lift (Ber.authParamsStart off authParams)
      let privParams ← readOctetString
      return (⟨{ engineId, engineBoots, engineTime, userName, authParams, privParams },
        authParamsOffset⟩ : DecodedUsm))
      fun off => (Accepts.lift _).bind fun _ => accepts_readOctetString.bind fun _ => .pure _
  refine (accepts_readOctetString.bind fun engineId => accepts_readInteger.bind fun boots =>
    accepts_readInteger.bind fun time => accepts_readOctetString.bind fun userName =>
    (accepts_readOctetString.bind fun authParams =>
      hrest engineId boots time userName authParams).guard).congr ?_
  intro off d tail bs
  constructor
  · rintro ⟨_, t₁, H₁, _, t₂, H₂, _, t₃, H₃, _, t₄, H₄, hlen, _, t₅, H₅, o, _, ⟨ho, rfl⟩, _, _, H₆,
      rfl, rfl⟩
    rw [authParamsStart_of_fields off H₁ H₂ H₃ H₄ H₅] at ho
    cases ho
    exact ⟨_, ⟨t₁, t₂, t₃, t₄, _, H₁, H₂, H₃, H₄, Nat.not_lt.mp hlen, H₅, H₆, rfl⟩, rfl⟩
  · rintro ⟨_, ⟨t₁, t₂, t₃, t₄, t₅, H₁, H₂, H₃, H₄, hlen, H₅, H₆, rfl⟩, ho⟩
    refine ⟨_, t₁, H₁, _, t₂, H₂, _, t₃, H₃, _, t₄, H₄, Nat.not_lt.mpr hlen, _, t₅, H₅, _, t₅,
      ⟨authParamsStart_of_fields off H₁ H₂ H₃ H₄ H₅, rfl⟩, _, tail, H₆, ?_, rfl⟩
    rw [← ho]

/-- The reader over the USM SEQUENCE stands at its contents. -/
theorem readUsmSequence_eq_ok {r r' sub : BerReader} (hr : r.Bounded) :
    Ber.readUsmSequence.run r = .ok (sub, r') ↔
      ∃ usmBytes tail v rest, Field tagOctetString usmBytes tail r.rest ∧
        Field tagSequence v rest usmBytes ∧ r' = r.leaving tail ∧
        sub = newWithOffset v (r'.offset - rest.length - v.length) := by
  have hle {usmBytes tail : Bytes} (H : Field tagOctetString usmBytes tail r.rest) :
      usmBytes.length ≤ (r.leaving tail).offset := by
    have := H.length_add_le
    rw [offset_leaving]
    omega
  have hoff {usmBytes tail v rest : Bytes} (H : Field tagOctetString usmBytes tail r.rest)
      (H' : Field tagSequence v rest usmBytes) :
      ((newWithOffset usmBytes ((r.leaving tail).offset - usmBytes.length)).leaving rest).offset -
        v.length = (r.leaving tail).offset - rest.length - v.length := by
    have h₁ := hle H
    have h₂ := H'.length_add_le
    rw [offset_leaving (newWithOffset _ _), offset_newWithOffset, rest_newWithOffset]
    omega
  simp only [Ber.readUsmSequence, Act.bind_eq_ok, Act.get_eq_ok, Act.lift_eq_ok, Act.liftM_eq_ok,
    Act.on_eq_ok, Act.pure_eq_ok, readOctetString_eq_ok hr]
  constructor
  · rintro ⟨usmBytes, _, ⟨tail, H, rfl⟩, _, _, ⟨rfl, rfl⟩, o, _, ⟨ho, rfl⟩, ⟨_, _⟩, _, ⟨h, rfl⟩,
      rfl, rfl⟩
    rw [usizeSub_of_le (hle H)] at ho
    cases ho
    obtain ⟨v, rest, H', rfl, rfl⟩ := (readConstructed_eq_ok (bounded_newWithOffset H _)).mp h
    exact ⟨usmBytes, tail, v, rest, H, H', rfl, congrArg _ (hoff H H')⟩
  · rintro ⟨usmBytes, tail, v, rest, H, H', rfl, rfl⟩
    have h := (readConstructed_eq_ok (bounded_newWithOffset H
      ((r.leaving tail).offset - usmBytes.length))).mpr ⟨v, rest, H', rfl, rfl⟩
    exact ⟨usmBytes, _, ⟨tail, H, rfl⟩, _, _, ⟨rfl, rfl⟩, _, _, ⟨usizeSub_of_le (hle H), rfl⟩,
      (_, _), _, ⟨h, rfl⟩, (congrArg _ (hoff H H')).symm, rfl⟩

/-- The `msgSecurityParameters` field, when the authentication parameters start at `k` in `bs`. -/
def IsSecurityParameters (usm : UsmFields) (k : Nat) (tail bs : Bytes) : Prop :=
  ∃ usmBytes v rest rest' k', Field tagOctetString usmBytes tail bs ∧
    Field tagSequence v rest usmBytes ∧ IsUsm usm k' rest' v ∧
    k = bs.length - tail.length - rest.length - v.length + k'

theorem accepts_decodeUsmSecurityParameters :
    Accepts Ber.decodeUsmSecurityParameters fun off d tail bs =>
      ∃ k, IsSecurityParameters d.fields k tail bs ∧
        d.authParamsOffset = recordedOffset d.fields.authParams (off + k) where
  run_eq_ok {r r' d} hr := by
    have hk {usmBytes tail v rest : Bytes} (k : Nat)
        (H : Field tagOctetString usmBytes tail r.rest) (H' : Field tagSequence v rest usmBytes) :
        r.offset + (r.rest.length - tail.length - rest.length - v.length + k) =
          (r.leaving tail).offset - rest.length - v.length + k := by
      have h₁ := H.length_add_le
      have h₂ := H'.length_add_le
      rw [offset_leaving]
      omega
    simp only [Ber.decodeUsmSecurityParameters, Act.bind_eq_ok, Act.liftM_eq_ok, Act.on_eq_ok,
      Act.pure_eq_ok, readUsmSequence_eq_ok hr]
    constructor
    · rintro ⟨_, _, ⟨usmBytes, tail, v, rest, H, H', rfl, rfl⟩, ⟨_, _⟩, _, ⟨h, rfl⟩, rfl, rfl⟩
      obtain ⟨rest', ⟨k, hU, ho⟩, -⟩ :=
        (accepts_readUsmFields.run_eq_ok (bounded_newWithOffset H' _)).mp h
      refine ⟨tail, ⟨_, ⟨usmBytes, v, rest, rest', k, H, H', hU, rfl⟩, ?_⟩, rfl⟩
      rw [hk k H H']
      exact ho
    · rintro ⟨tail, ⟨_, ⟨usmBytes, v, rest, rest', k, H, H', hU, rfl⟩, ho⟩, rfl⟩
      rw [hk k H H'] at ho
      have h := (accepts_readUsmFields.run_eq_ok (bounded_newWithOffset H' _)).mpr
        ⟨rest', ⟨k, hU, ho⟩, rfl⟩
      exact ⟨_, _, ⟨usmBytes, tail, v, rest, H, H', rfl, rfl⟩, (_, _), _, ⟨h, rfl⟩, rfl, rfl⟩
  suffix := fun ⟨_, ⟨_, _, _, _, _, ⟨raw, _, h⟩, _⟩, _⟩ => ⟨raw, h⟩

/-! ## Scoped data -/

/-- The contents of a `ScopedPdu`. -/
def IsScopedPdu (fields : DecodedScopedPduFields) (bs : Bytes) : Prop :=
  ∃ t₁, Field tagOctetString fields.contextEngineId t₁ bs ∧
    Field tagOctetString fields.contextName fields.rawPdu t₁

theorem accepts_readScopedFields : Accepts Ber.readScopedFields fun _ fields tail bs =>
    IsScopedPdu fields bs ∧ tail = fields.rawPdu := by
  refine (accepts_readOctetString.bind fun contextEngineId => accepts_readOctetString.bind
    fun contextName => .remaining_bind fun rawPdu =>
      DecodedScopedPduFields.mk contextEngineId contextName rawPdu).congr ?_
  intro off fields tail bs
  constructor
  · rintro ⟨_, t₁, H₁, _, _, H₂, rfl, rfl⟩
    exact ⟨⟨t₁, H₁, H₂⟩, rfl⟩
  · rintro ⟨⟨t₁, H₁, H₂⟩, rfl⟩
    exact ⟨_, t₁, H₁, _, _, H₂, rfl, rfl⟩

/-- The `ScopedPduData` CHOICE. -/
def IsScopedData : ScopedData → Bytes → Bytes → Prop
  | .plaintext contextEngineId contextName rawPdu, tail, bs =>
    ∃ v, Field tagSequence v tail bs ∧ IsScopedPdu ⟨contextEngineId, contextName, rawPdu⟩ v
  | .encrypted ciphertext, tail, bs => Field tagOctetString ciphertext tail bs

theorem accepts_readScopedData (tag : UInt8) :
    Accepts (Ber.readScopedData tag) fun _ d tail bs =>
      tag = tagSequence ∧ (∃ fields v, Field tagSequence v tail bs ∧ IsScopedPdu fields v ∧
        d = .plaintext fields.contextEngineId fields.contextName fields.rawPdu) ∨
      tag = tagOctetString ∧ ∃ ciphertext, Field tagOctetString ciphertext tail bs ∧
        d = .encrypted ciphertext := by
  unfold Ber.readScopedData
  refine (Accepts.ite (c := tag = tagSequence) (accepts_readScopedFields.within tagSequence
    fun fields => .plaintext fields.contextEngineId fields.contextName fields.rawPdu)
    (Accepts.ite (c := tag = tagOctetString) (accepts_readOctetString.bind fun ciphertext =>
      .pure (ScopedData.encrypted ciphertext)) (.fail _))).congr ?_
  intro off d tail bs
  constructor
  · rintro (⟨htag, fields, v, _, H, ⟨h, -⟩, rfl⟩ | ⟨-, ⟨htag, ct, _, H, rfl, rfl⟩ | ⟨-, h⟩⟩)
    · exact .inl ⟨htag, fields, v, H, h, rfl⟩
    · exact .inr ⟨htag, ct, H, rfl⟩
    · exact h.elim
  · rintro (⟨htag, fields, v, H, h, rfl⟩ | ⟨htag, ct, H, rfl⟩)
    · exact .inl ⟨htag, fields, v, _, H, ⟨h, rfl⟩, rfl⟩
    · exact .inr ⟨by rw [htag]; decide, .inl ⟨htag, ct, _, H, rfl, rfl⟩⟩

theorem accepts_decodeScopedPduData :
    Accepts Ber.decodeScopedPduData fun _ d tail bs => IsScopedData d tail bs := by
  refine (Accepts.peek_bind accepts_readScopedData).congr ?_
  intro off d tail bs
  constructor
  · rintro ⟨tag, -, ⟨-, fields, v, H, h, rfl⟩ | ⟨-, ct, H, rfl⟩⟩
    · exact ⟨v, H, h⟩
    · exact H
  · cases d with
    | plaintext contextEngineId contextName rawPdu =>
      rintro ⟨v, H, h⟩
      exact ⟨tagSequence, H.head_eq, .inl ⟨rfl, _, v, H, h, rfl⟩⟩
    | encrypted ciphertext =>
      intro H
      exact ⟨tagOctetString, H.head_eq, .inr ⟨rfl, ciphertext, H, rfl⟩⟩

/-! ## The whole message -/

/-- The contents of the message SEQUENCE, up to trailing bytes, when the authentication parameters
start at `k`. -/
def IsMessage (env : V3MessageEnvelope) (k : Nat) (tail bs : Bytes) : Prop :=
  ∃ t₁ t₂ t₃ headerBytes headerRest k', IntField snmpv3Version t₁ bs ∧
    Field tagSequence headerBytes t₂ t₁ ∧
    IsHeader ⟨env.msgId, env.maxSize, env.securityFlags, env.securityModel⟩ headerRest headerBytes ∧
    IsSecurityParameters env.usm k' t₃ t₂ ∧ IsScopedData env.scopedData tail t₃ ∧
    k = bs.length - t₂.length + k'

theorem accepts_readMessageFields : Accepts Ber.readMessageFields fun off env tail bs =>
    ∃ k, IsMessage env k tail bs ∧
      env.authParamsOffset = recordedOffset env.usm.authParams (off + k) := by
  refine (accepts_readInteger.bind fun version => (accepts_decodeHeaderData.bind fun header =>
    accepts_decodeUsmSecurityParameters.bind fun decodedUsm =>
      accepts_decodeScopedPduData.bind fun scopedData => .pure (V3MessageEnvelope.mk header.msgId
        header.maxSize header.securityFlags header.securityModel decodedUsm.fields scopedData
        decodedUsm.authParamsOffset)).guard).congr ?_
  intro off env tail bs
  have hk {t₁ t₂ v : Bytes} (k : Nat) (H₁ : IntField snmpv3Version t₁ bs)
      (H₂ : Field tagSequence v t₂ t₁) :
      off + (bs.length - t₁.length) + (t₁.length - t₂.length) + k =
        off + (bs.length - t₂.length + k) := by
    have h₁ := H₁.length_add_le
    have h₂ := H₂.length_add_le
    omega
  simp only [not_not]
  constructor
  · rintro ⟨_, t₁, H₁, rfl, header, t₂, ⟨v, rest, H₂, hh⟩, d, t₃, ⟨k, hU, ho⟩, sd, _, hS, rfl, rfl⟩
    rw [hk k H₁ H₂] at ho
    exact ⟨_, ⟨t₁, t₂, t₃, v, rest, k, H₁, H₂, hh, hU, hS, rfl⟩, ho⟩
  · rintro ⟨_, ⟨t₁, t₂, t₃, v, rest, k, H₁, H₂, hh, hU, hS, rfl⟩, ho⟩
    rw [← hk k H₁ H₂] at ho
    exact ⟨_, t₁, H₁, rfl, _, t₂, ⟨v, rest, H₂, hh⟩, ⟨env.usm, _⟩, t₃, ⟨k, hU, ho⟩, _, tail, hS,
      rfl, rfl⟩

/-- The byte strings that decode to `env`. Bytes behind the outer SEQUENCE are ignored. -/
def IsEnvelope (env : V3MessageEnvelope) (bytes : Bytes) : Prop :=
  ∃ v tail raw rest k, IsTlv tagSequence v raw ∧ bytes = raw ++ tail ∧ raw.length < usizeSize ∧
    IsMessage env k rest v ∧
    env.authParamsOffset = recordedOffset env.usm.authParams (raw.length - v.length + k)

theorem decodeV3Envelope_eq_ok {bytes : Bytes} {env : V3MessageEnvelope} :
    Ber.decodeV3Envelope bytes = .ok env ↔ IsEnvelope env bytes := by
  simp only [Ber.decodeV3Envelope, Res.bind_eq_ok, Act.on_eq_ok, Prod.exists, Res.ok.injEq]
  constructor
  · rintro ⟨sub, r', h, _, _, h', rfl⟩
    obtain ⟨v, tail, raw, H, rfl, hlt, rfl⟩ := readConstructed_new_eq_ok.mp ⟨r', h⟩
    have hr : (newWithOffset v (raw.length - v.length)).Bounded := ⟨Nat.zero_le _, H.length_lt⟩
    obtain ⟨rest, ⟨k, hM, ho⟩, -⟩ := (accepts_readMessageFields.run_eq_ok hr).mp h'
    exact ⟨v, tail, raw, rest, k, H, rfl, hlt, hM, ho⟩
  · rintro ⟨v, tail, raw, rest, k, H, hbytes, hlt, hM, ho⟩
    obtain ⟨r', h⟩ := readConstructed_new_eq_ok.mpr ⟨v, tail, raw, H, hbytes, hlt, rfl⟩
    have hr : (newWithOffset v (raw.length - v.length)).Bounded := ⟨Nat.zero_le _, H.length_lt⟩
    have h' := (accepts_readMessageFields.run_eq_ok hr).mpr ⟨rest, ⟨k, hM, ho⟩, rfl⟩
    exact ⟨_, r', h, env, _, h', rfl⟩

theorem decodeScopedPdu_eq_ok {bytes : Bytes} {fields : DecodedScopedPduFields} :
    Ber.decodeScopedPdu bytes = .ok fields ↔
      ∃ v tail raw, IsTlv tagSequence v raw ∧ bytes = raw ++ tail ∧ raw.length < usizeSize ∧
        IsScopedPdu fields v := by
  simp only [Ber.decodeScopedPdu, Res.bind_eq_ok, Act.on_eq_ok, Prod.exists, Res.ok.injEq]
  constructor
  · rintro ⟨sub, r', h, _, _, h', rfl⟩
    obtain ⟨v, tail, raw, H, rfl, hlt, rfl⟩ := readConstructed_new_eq_ok.mp ⟨r', h⟩
    have hr : (newWithOffset v (raw.length - v.length)).Bounded := ⟨Nat.zero_le _, H.length_lt⟩
    obtain ⟨_, ⟨hS, -⟩, -⟩ := (accepts_readScopedFields.run_eq_ok hr).mp h'
    exact ⟨v, tail, raw, H, rfl, hlt, hS⟩
  · rintro ⟨v, tail, raw, H, hbytes, hlt, hS⟩
    obtain ⟨r', h⟩ := readConstructed_new_eq_ok.mpr ⟨v, tail, raw, H, hbytes, hlt, rfl⟩
    have hr : (newWithOffset v (raw.length - v.length)).Bounded := ⟨Nat.zero_le _, H.length_lt⟩
    have h' := (accepts_readScopedFields.run_eq_ok hr).mpr ⟨_, ⟨hS, rfl⟩, rfl⟩
    exact ⟨_, r', h, fields, _, h', rfl⟩

/-! ## Exchanging the authentication parameters

No length field depends on what the parameters are, only on how many bytes they have. -/

theorem IsUsm.split {usm : UsmFields} {k : Nat} {tail bs : Bytes} (H : IsUsm usm k tail bs) :
    ∃ pre post, bs = pre ++ usm.authParams ++ post ∧ k = pre.length ∧
      ∀ a, a.length = usm.authParams.length →
        IsUsm { usm with authParams := a } k tail (pre ++ a ++ post) := by
  obtain ⟨t₁, t₂, t₃, t₄, t₅, H₁, H₂, H₃, H₄, hlen, H₅, H₆, rfl⟩ := H
  obtain ⟨r₁, rfl, F₁⟩ := H₁.front
  obtain ⟨r₂, rfl, F₂⟩ := H₂.front
  obtain ⟨r₃, rfl, F₃⟩ := H₃.front
  obtain ⟨r₄, rfl, F₄⟩ := H₄.front
  obtain ⟨h, rfl, F₅⟩ := H₅.hole
  refine ⟨r₁ ++ (r₂ ++ (r₃ ++ (r₄ ++ h))), t₅, by simp, by simp; omega, fun a ha => ?_⟩
  refine ⟨_, _, _, _, t₅, ?_, F₂ _, F₃ _, F₄ _, hlen, F₅ a ha, H₆, ?_⟩
  · simpa using F₁ (r₂ ++ (r₃ ++ (r₄ ++ (h ++ a ++ t₅))))
  · simp
    omega

theorem IsSecurityParameters.split {usm : UsmFields} {k : Nat} {tail bs : Bytes}
    (H : IsSecurityParameters usm k tail bs) :
    ∃ pre post, bs = pre ++ usm.authParams ++ post ∧ k = pre.length ∧
      ∀ a, a.length = usm.authParams.length →
        IsSecurityParameters { usm with authParams := a } k tail (pre ++ a ++ post) := by
  obtain ⟨usmBytes, v, rest, rest', k', H₁, H₂, H₃, rfl⟩ := H
  obtain ⟨pre, post, rfl, rfl, F₃⟩ := H₃.split
  obtain ⟨h₂, rfl, F₂⟩ := H₂.hole
  obtain ⟨h₁, rfl, F₁⟩ := H₁.hole
  refine ⟨h₁ ++ (h₂ ++ pre), post ++ (rest ++ tail), by simp, by simp; omega, fun a ha => ?_⟩
  refine ⟨h₂ ++ (pre ++ a ++ post) ++ rest, pre ++ a ++ post, rest, rest', pre.length, ?_,
    F₂ _ (by simp [ha]), F₃ a ha, ?_⟩
  · simpa using F₁ (h₂ ++ (pre ++ a ++ post) ++ rest) (by simp [ha])
  · simp
    omega

/-- An envelope with other authentication parameters. -/
def V3MessageEnvelope.withAuthParams (env : V3MessageEnvelope) (a : Bytes) : V3MessageEnvelope :=
  { env with usm := { env.usm with authParams := a } }

theorem IsMessage.split {env : V3MessageEnvelope} {k : Nat} {tail bs : Bytes}
    (H : IsMessage env k tail bs) :
    ∃ pre post, bs = pre ++ env.usm.authParams ++ post ∧ k = pre.length ∧
      ∀ a, a.length = env.usm.authParams.length →
        IsMessage (env.withAuthParams a) k tail (pre ++ a ++ post) := by
  obtain ⟨t₁, t₂, t₃, v, rest, k', H₁, H₂, hh, H₃, H₄, rfl⟩ := H
  obtain ⟨pre, post, rfl, rfl, F₃⟩ := H₃.split
  obtain ⟨r₂, rfl, F₂⟩ := H₂.front
  obtain ⟨r₁, rfl, F₁⟩ := H₁.front
  refine ⟨r₁ ++ (r₂ ++ pre), post, by simp, by simp; omega, fun a ha => ?_⟩
  refine ⟨_, pre ++ a ++ post, t₃, v, rest, pre.length, ?_, F₂ _, hh, F₃ a ha, H₄, ?_⟩
  · simpa using F₁ (r₂ ++ (pre ++ a ++ post))
  · simp
    omega

/-- The recorded offset is where the authentication parameters stand, and with others of the same
length in their place the message decodes to the same envelope. -/
theorem IsEnvelope.split {env : V3MessageEnvelope} {bytes : Bytes} (H : IsEnvelope env bytes) :
    ∃ pre post, bytes = pre ++ env.usm.authParams ++ post ∧
      env.authParamsOffset = recordedOffset env.usm.authParams pre.length ∧
      pre.length + env.usm.authParams.length < usizeSize ∧
      ∀ a, a.length = env.usm.authParams.length →
        IsEnvelope (env.withAuthParams a) (pre ++ a ++ post) := by
  obtain ⟨v, tail, raw, rest, k, H₁, rfl, hlt, H₂, ho⟩ := H
  obtain ⟨pre, post, rfl, rfl, F₂⟩ := H₂.split
  obtain ⟨h, hh, rfl⟩ := H₁
  refine ⟨h ++ pre, post ++ tail, by simp, ?_, ?_, fun a ha => ?_⟩
  · rw [ho]
    congr 1
    simp
  · simp only [List.length_append] at hlt ⊢
    omega
  · refine ⟨pre ++ a ++ post, tail, h ++ (pre ++ a ++ post), rest, pre.length,
      ⟨h, ?_, rfl⟩, by simp, by simpa [ha] using hlt, F₂ a ha, ?_⟩
    · simpa [ha] using hh
    · change env.authParamsOffset = recordedOffset a _
      rw [ho, recordedOffset_congr ha]
      congr 1
      simp

/-! ## What the encoders write -/

def octetStringTlv (v : Bytes) : Bytes := tlv tagOctetString v

def scopedPduTlv (contextEngineId contextName rawPdu : Bytes) : Bytes :=
  tlv tagSequence (octetStringTlv contextEngineId ++ (octetStringTlv contextName ++ rawPdu))

def usmContents (usm : UsmFields) : Bytes :=
  octetStringTlv usm.engineId ++ (Ber.integerTlv usm.engineBoots ++
    (Ber.integerTlv usm.engineTime ++ (octetStringTlv usm.userName ++
      (octetStringTlv usm.authParams ++ octetStringTlv usm.privParams))))

def headerContents (header : HeaderData) : Bytes :=
  Ber.integerTlv header.msgId ++ (Ber.integerTlv header.maxSize ++
    (octetStringTlv [header.securityFlags] ++ Ber.integerTlv header.securityModel))

/-- The `ScopedPduData` as it is written. -/
def scopedDataTlv : ScopedData → Bytes
  | .plaintext contextEngineId contextName rawPdu => scopedPduTlv contextEngineId contextName rawPdu
  | .encrypted ciphertext => octetStringTlv ciphertext

def messageBytes (header : HeaderData) (usm : UsmFields) (scopedDataBytes : Bytes) : Bytes :=
  tlv tagSequence (Ber.integerTlv snmpv3Version ++ (tlv tagSequence (headerContents header) ++
    (octetStringTlv (tlv tagSequence (usmContents usm)) ++ scopedDataBytes)))

section
variable {ε : Type}

theorem encodeScopedPdu_eq (contextEngineId contextName rawPdu : Bytes) :
    (Ber.encodeScopedPdu contextEngineId contextName rawPdu : Res ε Bytes) =
      capped (scopedPduTlv contextEngineId contextName rawPdu) := by
  simp only [Ber.encodeScopedPdu, Ber.wrapInOuterSequence, BerWriter.writeOctetString_eq,
    BerWriter.writeRaw_eq, BerWriter.writeSequence_eq, BerWriter.new_append, capped_bind_tlv,
    capped_bind_tlv_append, List.append_assoc]
  rfl

theorem encodeUsmParams_eq (usm : UsmFields) :
    (Ber.encodeUsmParams usm : Res ε Bytes) = capped (tlv tagSequence (usmContents usm)) := by
  simp only [Ber.encodeUsmParams, Ber.wrapInOuterSequence, BerWriter.writeOctetString_eq,
    BerWriter.writeInteger_eq, BerWriter.writeSequence_eq, BerWriter.new_append, capped_bind_tlv,
    capped_bind_tlv_append, List.append_assoc]
  rfl

theorem encodeHeaderData_eq (header : HeaderData) :
    (Ber.encodeHeaderData header : Res ε Bytes) =
      capped (tlv tagSequence (headerContents header)) := by
  simp only [Ber.encodeHeaderData, Ber.wrapInOuterSequence, BerWriter.writeOctetString_eq,
    BerWriter.writeInteger_eq, BerWriter.writeSequence_eq, BerWriter.new_append, capped_bind_tlv,
    capped_bind_tlv_append, List.append_assoc]
  rfl

theorem writeV3Message_eq (header : HeaderData) (usm : UsmFields) (scopedBytes : Bytes)
    (encrypted : Bool) :
    (Ber.writeV3Message header usm scopedBytes encrypted : Res ε Bytes) =
      capped (messageBytes header usm
        (if encrypted then octetStringTlv scopedBytes else scopedBytes)) := by
  have hle (h u s : Bytes) : h.length ≤ (tlv tagSequence (Ber.integerTlv snmpv3Version ++ (h ++
      (octetStringTlv u ++ s)))).length ∧ u.length ≤ (tlv tagSequence
        (Ber.integerTlv snmpv3Version ++ (h ++ (octetStringTlv u ++ s)))).length := by
    have h₁ := le_tlvSize (Ber.integerTlv snmpv3Version ++ (h ++ (octetStringTlv u ++ s))).length
    have h₂ := le_tlvSize u.length
    simp only [octetStringTlv, List.length_append, length_tlv] at *
    omega
  -- Header and parameters are vectors of their own before they become part of the message.
  have hparts (s : Bytes) : ((capped (tlv tagSequence (headerContents header)) : Res ε Bytes) >>=
      fun h => capped (tlv tagSequence (usmContents usm)) >>= fun u =>
        capped (tlv tagSequence (Ber.integerTlv snmpv3Version ++ (h ++ (octetStringTlv u ++ s))))) =
      capped (messageBytes header usm s) := by
    refine capped_bind (g := fun h => tlv tagSequence (Ber.integerTlv snmpv3Version ++ (h ++
      (octetStringTlv (tlv tagSequence (usmContents usm)) ++ s)))) (fun h => ?_) (hle _ _ s).1
    exact capped_bind (g := fun u => tlv tagSequence (Ber.integerTlv snmpv3Version ++ (h ++
      (octetStringTlv u ++ s)))) (fun _ => rfl) (hle _ _ s).2
  unfold Ber.writeV3Message
  cases encrypted <;>
    simp only [Ber.wrapInOuterSequence, encodeHeaderData_eq, encodeUsmParams_eq,
      BerWriter.writeOctetString_eq, BerWriter.writeInteger_eq, BerWriter.writeRaw_eq,
      BerWriter.writeSequence_eq, BerWriter.new_append, if_true, Bool.false_eq_true, if_false,
      capped_bind_tlv, capped_bind_tlv_append, List.append_assoc] <;>
    exact hparts _

end

/-! ## The encoder stays in the grammar -/

theorem intField_integerTlv (n : Int32) (tail : Bytes) :
    IntField n tail (Ber.integerTlv n ++ tail) :=
  ⟨_, field_tlv ((length_integerContent_le n).trans_lt (by decide)) tail, integerContent_ne_nil n,
    signed_integerContent n⟩

theorem field_octetStringTlv {v : Bytes} (h : v.length < 2 ^ 64) (tail : Bytes) :
    Field tagOctetString v tail (octetStringTlv v ++ tail) := field_tlv h tail

theorem field_nil {tag : UInt8} {v : Bytes} (h : v.length < 2 ^ 64) :
    Field tag v [] (tlv tag v) := by
  simpa using field_tlv h []

theorem isScopedData_scopedDataTlv {d : ScopedData} (h : (scopedDataTlv d).length < 2 ^ 64) :
    IsScopedData d [] (scopedDataTlv d) := by
  cases d with
  | plaintext contextEngineId contextName rawPdu =>
    simp only [scopedDataTlv, scopedPduTlv, octetStringTlv, length_tlv, List.length_append] at h
    have h₁ := le_tlvSize (tlvSize contextEngineId.length +
      (tlvSize contextName.length + rawPdu.length))
    have h₂ := le_tlvSize contextEngineId.length
    have h₃ := le_tlvSize contextName.length
    have hid : contextEngineId.length < 2 ^ 64 := by omega
    have hname : contextName.length < 2 ^ 64 := by omega
    refine ⟨_, field_nil ?_, _, field_octetStringTlv hid _, field_octetStringTlv hname _⟩
    simp only [octetStringTlv, length_tlv, List.length_append]
    omega
  | encrypted ciphertext =>
    have := le_tlvSize ciphertext.length
    simp only [scopedDataTlv, octetStringTlv, length_tlv] at h
    exact field_nil (by omega)

theorem isHeader_headerContents {header : HeaderData} (hid : 0 ≤ header.msgId.toInt)
    (hsize : 484 ≤ header.maxSize.toInt) : IsHeader header [] (headerContents header) := by
  refine ⟨_, _, _, intField_integerTlv _ _, hid, intField_integerTlv _ _, hsize,
    field_octetStringTlv (by simp) _, ?_⟩
  simpa using intField_integerTlv header.securityModel []

theorem isUsm_usmContents {usm : UsmFields} (hname : usm.userName.length ≤ msgUserNameMaxLength)
    (h : (usmContents usm).length < 2 ^ 64) : ∃ k, IsUsm usm k [] (usmContents usm) := by
  have h₁ := le_tlvSize usm.engineId.length
  have h₂ := le_tlvSize usm.userName.length
  have h₃ := le_tlvSize usm.authParams.length
  have h₄ := le_tlvSize usm.privParams.length
  simp only [usmContents, octetStringTlv, length_tlv, List.length_append] at h
  exact ⟨_, _, _, _, _, _, field_octetStringTlv (by omega) _, intField_integerTlv _ _,
    intField_integerTlv _ _, field_octetStringTlv (by omega) _, hname,
    field_octetStringTlv (by omega) _, field_nil (by omega), rfl⟩

theorem decodeScopedPdu_scopedPduTlv {contextEngineId contextName rawPdu : Bytes}
    (h : (scopedPduTlv contextEngineId contextName rawPdu).length < usizeSize) :
    Ber.decodeScopedPdu (scopedPduTlv contextEngineId contextName rawPdu) =
      .ok ⟨contextEngineId, contextName, rawPdu⟩ := by
  obtain ⟨v, ⟨raw, H, happ⟩, hv⟩ :=
    isScopedData_scopedDataTlv (d := .plaintext contextEngineId contextName rawPdu) h
  have hraw := happ.trans (List.append_nil raw)
  exact decodeScopedPdu_eq_ok.mpr ⟨v, [], raw, H, happ, hraw ▸ h, hv⟩

/-- The envelope that an encoded message decodes to. -/
def envelopeOf (header : HeaderData) (usm : UsmFields) (d : ScopedData) (offset : Nat) :
    V3MessageEnvelope where
  msgId := header.msgId
  maxSize := header.maxSize
  securityFlags := header.securityFlags
  securityModel := header.securityModel
  usm := usm
  scopedData := d
  authParamsOffset := recordedOffset usm.authParams offset

theorem isEnvelope_messageBytes (header : HeaderData) (usm : UsmFields) (d : ScopedData)
    (hid : 0 ≤ header.msgId.toInt) (hsize : 484 ≤ header.maxSize.toInt)
    (hname : usm.userName.length ≤ msgUserNameMaxLength)
    (hlen : (messageBytes header usm (scopedDataTlv d)).length < usizeSize) :
    ∃ offset, IsEnvelope (envelopeOf header usm d offset)
      (messageBytes header usm (scopedDataTlv d)) := by
  have hlen' : (messageBytes header usm (scopedDataTlv d)).length < 2 ^ 64 := hlen
  simp only [messageBytes, octetStringTlv, length_tlv, List.length_append] at hlen'
  have h₁ := le_tlvSize (usmContents usm).length
  have h₂ := le_tlvSize (tlvSize (usmContents usm).length)
  have h₃ := le_tlvSize (headerContents header).length
  have h₄ := le_tlvSize ((Ber.integerTlv snmpv3Version).length +
    (tlvSize (headerContents header).length + (tlvSize (tlvSize (usmContents usm).length) +
    (scopedDataTlv d).length)))
  obtain ⟨k, hU⟩ := isUsm_usmContents hname (by omega)
  have hS : IsSecurityParameters usm _ (scopedDataTlv d)
      (octetStringTlv (tlv tagSequence (usmContents usm)) ++ scopedDataTlv d) :=
    ⟨_, _, [], [], k, field_octetStringTlv (by rw [length_tlv]; omega) _, field_nil (by omega), hU,
      rfl⟩
  have hheader : (headerContents header).length < 2 ^ 64 := by omega
  have hdata := isScopedData_scopedDataTlv (d := d) (by omega)
  have hM (offset : Nat) : IsMessage (envelopeOf header usm d offset) _ [] _ :=
    ⟨_, _, _, headerContents header, [], _, intField_integerTlv _ _, field_tlv hheader _,
      isHeader_headerContents hid hsize, hS, hdata, rfl⟩
  refine ⟨_, _, [], _, [], _, isTlv_tlv ?_, (List.append_nil _).symm, hlen, hM _, rfl⟩
  simp only [octetStringTlv, length_tlv, List.length_append]
  omega

theorem readAuthParamsOffset_of_isUsm {usm : UsmFields} {k : Nat} {tail : Bytes} {r : BerReader}
    (hr : r.Bounded) (H : IsUsm usm k tail r.rest) :
    ∃ r', Ber.readAuthParamsOffset.run r = .ok (r.offset + k, r') := by
  obtain ⟨t₁, t₂, t₃, t₄, t₅, H₁, H₂, H₃, H₄, -, H₅, -, rfl⟩ := H
  have hacc : Accepts Ber.readAuthParamsOffset _ :=
    accepts_readOctetString.bind fun _ => accepts_readInteger.bind fun _ =>
      accepts_readInteger.bind fun _ => accepts_readOctetString.bind fun _ =>
        accepts_readOctetString.bind fun a => Accepts.offset_bind (f := fun off =>
          Act.lift (usizeSub off a.length)) fun _ => Accepts.lift _
  have h₁ := H₁.length_add_le
  have h₂ := H₂.length_add_le
  have h₃ := H₃.length_add_le
  have h₄ := H₄.length_add_le
  have h₅ := H₅.length_add_le
  refine ⟨r.leaving t₅, (hacc.run_eq_ok hr).mpr ⟨t₅,
    ⟨_, t₁, H₁, _, t₂, H₂, _, t₃, H₃, _, t₄, H₄, _, t₅, H₅, ?_, rfl⟩, rfl⟩⟩
  rw [usizeSub_of_le (by omega)]
  congr 1
  omega

/-- The encoder's second parse finds the offset that a decoder will record. -/
theorem findAuthParamsOffset_of_isEnvelope {env : V3MessageEnvelope} {bytes : Bytes}
    (H : IsEnvelope env bytes) :
    Ber.findAuthParamsOffset bytes env.usm.authParams.length = .ok env.authParamsOffset := by
  obtain ⟨v, tail, raw, rest, k, H₁, hbytes, hlt, H₂, ho⟩ := H
  obtain ⟨t₁, t₂, t₃, hv, hrest, k', F₁, F₂, -, F₃, -, rfl⟩ := H₂
  obtain ⟨usmBytes, v', rest', rest'', k'', G₁, G₂, G₃, rfl⟩ := F₃
  by_cases hauth : env.usm.authParams.length = 0
  · rw [Ber.findAuthParamsOffset, if_pos hauth, ho, recordedOffset,
      if_pos (List.length_eq_zero_iff.mp hauth)]
  · obtain ⟨r', h⟩ := readConstructed_new_eq_ok.mpr ⟨v, tail, raw, H₁, hbytes, hlt, rfl⟩
    have hr : (newWithOffset v (raw.length - v.length)).Bounded := ⟨Nat.zero_le _, H₁.length_lt⟩
    have h₁ := (readInteger_eq_ok hr).mpr ⟨t₁, F₁, rfl⟩
    have hl₁ := F₁.length_add_le
    have hl₂ := F₂.length_add_le
    have hl₃ := G₁.length_add_le
    have hl₄ := G₂.length_add_le
    obtain ⟨_, hv₁, -⟩ := F₁.front
    obtain ⟨_, hv₂, -⟩ := F₂.front
    have hrest₁ := rest_leaving (r := newWithOffset v (raw.length - v.length)) hv₁
    have hrest₂ := rest_leaving (hrest₁.trans hv₂)
    have h₂ := (readConstructed_eq_ok (hr.leaving t₁)).mpr ⟨hv, t₂, by rw [hrest₁]; exact F₂, rfl,
      rfl⟩
    have h₃ := (readUsmSequence_eq_ok ((hr.leaving t₁).leaving t₂)).mpr
      ⟨usmBytes, t₃, v', rest', by rw [hrest₂]; exact G₁, G₂, rfl, rfl⟩
    obtain ⟨r'', h₄⟩ := readAuthParamsOffset_of_isUsm (bounded_newWithOffset G₂
      ((((newWithOffset v (raw.length - v.length)).leaving t₁).leaving t₂ |>.leaving t₃).offset -
        rest'.length - v'.length)) G₃
    rw [Ber.findAuthParamsOffset, if_neg hauth, ho, recordedOffset,
      if_neg (by rwa [← List.length_eq_zero_iff])]
    simp only [Res.bind_eq_ok, Act.on_eq_ok, Prod.exists]
    refine ⟨_, _, h, _, _, h₁, _, _, h₂, _, _, h₃, _, _, h₄, ?_⟩
    simp only [offset_leaving, offset_newWithOffset, hrest₁, hrest₂, rest_newWithOffset]
    congr 2
    omega

end SnmpAgent
