import SnmpAgent.Codec.Envelope
import SnmpAgent.Codec.MessageLemmas
import SnmpAgent.Lib.Safe

/-!
# Decoding does not panic

Whatever the bytes, no `expect` of the decoders fails, no subtraction of lengths and offsets
underflows, and the loops end within their fuel. The invariant is `BerReader.Inside`: a reader
ranges over a part of the message, and its cursor does not leave that part. What is decoded is
therefore no larger than what it was decoded from (`decodeV3Envelope_payload`,
`within_of_decodedPduToInbound`).
-/

namespace SnmpAgent
open Rust Tlv BerReader

theorem returns_usizeSub {ε : Type} {a b : Nat} (h : b ≤ a) :
    (usizeSub a b : Res ε Nat).Returns := by
  rw [usizeSub_of_le h]
  exact Res.returns_ok _

/-! ## Contents -/

theorem returns_decodeSignedI32 (bs : Bytes) (off : Nat) : (decodeSignedI32 bs off).Returns := by
  by_cases hne : bs = []
  · subst hne
    exact Res.returns_err _
  · rw [decodeSignedI32_eq off hne]
    exact Res.returns_ite (fun _ => Res.returns_err _) fun _ => Res.returns_ok _

theorem returns_decodeUnsigned (width : Nat) (bs : Bytes) (off : Nat) :
    (decodeUnsigned width bs off).Returns := by
  obtain _ | ⟨b, bs⟩ := bs
  · exact Res.returns_err _
  by_cases hb : b.toNat < 128
  · rw [decodeUnsigned_eq bs off hb]
    exact Res.returns_ite (fun _ => Res.returns_err _) fun _ => Res.returns_ok _
  · simp only [decodeUnsigned, List.head?_cons, high_bit, decide_eq_true_eq,
      if_pos (Nat.not_lt.mp hb)]
    exact Res.returns_err _

theorem returns_decodeUnsignedU32 (bs : Bytes) (off : Nat) : (decodeUnsignedU32 bs off).Returns :=
  (returns_decodeUnsigned 4 bs off).bind fun _ _ =>
    Res.returns_ite (fun _ => Res.returns_ok _) fun _ => Res.returns_err _

theorem returns_decodeUnsignedU64 (bs : Bytes) (off : Nat) : (decodeUnsignedU64 bs off).Returns :=
  (returns_decodeUnsigned 8 bs off).bind fun _ _ => Res.returns_ok _

theorem returns_decodeBase128Loop (off : Nat) (bs : Bytes) (acc m : Nat) :
    (decodeBase128Loop off bs acc m).Returns := by
  induction bs generalizing acc m with
  | nil => exact Res.returns_err _
  | cons b bs ih =>
    refine Res.returns_okOr.bind fun acc _ => ?_
    exact Res.returns_ite (fun _ => Res.returns_ok _) fun _ => ih acc _

/-- A sub-identifier takes at least one byte, and only bytes that are there. -/
theorem decodeBase128Loop_consumed {off : Nat} {bs : Bytes} {acc m v m' : Nat}
    (h : decodeBase128Loop off bs acc m = .ok (v, m')) : m < m' ∧ m' ≤ m + bs.length := by
  induction bs generalizing acc m with
  | nil => cases h
  | cons b bs ih =>
    rw [decodeBase128Loop, Res.bind_eq_ok] at h
    obtain ⟨acc, -, h⟩ := h
    split at h
    · cases h
      exact ⟨Nat.lt_succ_self m, by simp⟩
    · have := ih h
      simp only [List.length_cons]
      omega

theorem decodeBase128_consumed {bs : Bytes} {off v m : Nat}
    (h : decodeBase128 bs off = .ok (v, m)) :
    0 < m ∧ m ≤ bs.length := by
  have := decodeBase128Loop_consumed h
  omega

/-- The fuel of the loop is enough, since every turn consumes a byte. -/
theorem returns_decodeSubIdentifiers (off : Nat) {fuel : Nat} {bs : Bytes} (h : bs.length ≤ fuel) :
    (decodeSubIdentifiers off fuel bs).Returns := by
  induction fuel generalizing bs with
  | zero =>
    obtain rfl := List.length_eq_zero_iff.mp (Nat.le_zero.mp h)
    exact Res.returns_ok _
  | succ fuel ih =>
    obtain _ | ⟨b, bs⟩ := bs
    · exact Res.returns_ok _
    refine (returns_decodeBase128Loop off (b :: bs) 0 0).bind fun p hp => ?_
    obtain ⟨hpos, hle⟩ := decodeBase128_consumed hp
    refine Res.returns_ite (fun _ => Res.returns_err _) fun _ => ?_
    rw [sliceFrom?_of_le hle, Res.expect_some, Res.ok_bind]
    refine (ih ?_).bind fun _ _ => Res.returns_ok _
    rw [List.length_drop]
    omega

theorem returns_arcsToU32 (off : Nat) (arcs : List Nat) : (arcsToU32 off arcs).Returns := by
  induction arcs with
  | nil => exact Res.returns_ok _
  | cons arc arcs ih =>
    refine Res.Returns.bind ?_ fun _ _ => ih.bind fun _ _ => Res.returns_ok _
    exact Res.returns_ite (fun _ => Res.returns_ok _) fun _ => Res.returns_err _

theorem returns_decodeOid (bs : Bytes) (off : Nat) : (decodeOid bs off).Returns := by
  have harc (name : String) (arc : Nat) : (arcToU32 name off arc).Returns :=
    Res.returns_ite (fun _ => Res.returns_ok _) fun _ => Res.returns_err _
  refine Res.returns_ite (fun _ => Res.returns_err _) fun _ => ?_
  refine (returns_decodeSubIdentifiers off le_rfl).bind fun subIds _ => ?_
  cases subIds with
  | nil => exact Res.returns_err _
  | cons first subIds =>
    refine (harc _ _).bind fun first _ => (harc _ _).bind fun second _ => ?_
    refine (returns_arcsToU32 off subIds).bind fun arcs _ => ?_
    cases Oid.tryFrom (first :: second :: arcs) with
    | ok oid => exact Res.returns_ok _
    | error kind => exact Res.returns_err _

/-! ## The reader -/

namespace BerReader

/-- The reader ranges over a part of the first `n` bytes of the message. -/
structure Inside (n : Nat) (r : BerReader) : Prop where
  position_le : r.position ≤ r.input.length
  offset_le : r.baseOffset + r.input.length ≤ n

variable {n : Nat}

theorem inside_new (input : Bytes) : (new input).Inside input.length :=
  ⟨Nat.zero_le _, (Nat.zero_add _).le⟩

/-- A sub-reader over bytes that end where the cursor stands. -/
theorem Inside.sub {r : BerReader} (h : r.Inside n) {v : Bytes} (hv : v.length ≤ r.position) :
    (newWithOffset v (r.offset - v.length)).Inside n := by
  have h₁ := h.position_le
  have h₂ := h.offset_le
  refine ⟨Nat.zero_le _, ?_⟩
  simp only [newWithOffset, offset]
  omega

theorem Inside.length_le {r : BerReader} (h : r.Inside n) {v : Bytes} (hv : v.length ≤ r.position) :
    v.length ≤ n := by
  have h₁ := h.position_le
  have h₂ := h.offset_le
  omega

theorem returns_accumulateLength (off : Nat) (bs : Bytes) (length : Nat) :
    (accumulateLength off bs length).Returns := by
  induction bs generalizing length with
  | nil => exact Res.returns_ok _
  | cons b bs ih => exact Res.returns_okOr.bind fun length _ => ih length

theorem total_readTag : Act.Total readTag :=
  Act.Total.get.bind fun _ => (Act.Total.lift Res.returns_okOr).bind fun tag =>
    (Act.Total.modify _).bind fun _ => .pure tag

theorem total_readLongFormLength (b : UInt8) : Act.Total (readLongFormLength b) := by
  refine Act.Total.get.bind fun r => .ite (fun _ => .fail _) fun _ =>
    .ite (fun _ => .fail _) fun _ =>
    .ite (fun _ => .fail _) fun _ => ?_
  exact (Act.Total.lift Res.returns_okOr).bind fun bs => (Act.Total.modify _).bind fun _ =>
    .lift (returns_accumulateLength _ _ _)

theorem total_readLength : Act.Total readLength :=
  Act.Total.get.bind fun _ => (Act.Total.lift Res.returns_okOr).bind fun b =>
    (Act.Total.modify _).bind fun _ =>
      .ite (fun _ => .pure _) fun _ => total_readLongFormLength b

theorem total_readTlv : Act.Total readTlv :=
  total_readTag.bind fun _ => total_readLength.bind fun _ => Act.Total.get.bind fun _ =>
    (Act.Total.lift Res.returns_okOr).bind fun _ => (Act.Total.modify _).bind fun _ => .pure _

/-- A TLV ends where the cursor stands, and something of the input is used up. -/
theorem safe_readTlv (n k : Nat) :
    Act.Safe (fun r => r.Inside n ∧ r.rest.length ≤ k) readTlv fun p r' =>
      (r'.Inside n ∧ r'.rest.length < k) ∧ p.2.length ≤ r'.position := by
  rintro r ⟨hr, hk⟩
  refine ⟨total_readTlv r, ?_⟩
  rintro ⟨tag, v⟩ r' h
  obtain ⟨raw, H, hrest, rfl, -⟩ := readTlv_eq_ok.mp h
  have hlen := position_add_length H.ne_nil hrest
  have hne := List.length_pos_iff.mpr H.ne_nil
  have hk' := congrArg List.length hrest
  rw [List.length_append] at hk'
  have hoff := hr.offset_le
  obtain ⟨pre, -, rfl⟩ := H
  simp only [List.length_append] at *
  refine ⟨⟨⟨?_, hoff⟩, by omega⟩, ?_⟩
  · simp only [position_advance, input_advance]
    omega
  · simp only [position_advance]
    omega

/-- The methods below are safe in this sense: they keep the reader inside, and `k` bounds what is
left to read. -/
def Keeps (n k : Nat) (r : BerReader) : Prop := r.Inside n ∧ r.rest.length ≤ k

section
variable {k : Nat}

theorem safe_readExpectedTlv (tag : UInt8) (name : String) :
    Act.Safe (Keeps n k) (readExpectedTlv tag name) fun p r' =>
      Keeps n k r' ∧ p.2.length ≤ r'.position := by
  refine .get_bind fun r _ => ?_
  refine (safe_readTlv n k).bind fun p => ?_
  refine .ite (fun _ => .fail _) fun _ => .pure fun r' h => ?_
  exact ⟨⟨h.1.1, h.1.2.le⟩, h.2⟩

/-- The sub-reader has less to read than the reader had. -/
theorem safe_readConstructed (tag : UInt8) :
    Act.Safe (Keeps n k) (readConstructed tag) fun sub r' =>
      (Keeps n k r' ∧ r'.rest.length < k) ∧ Keeps n sub.input.length sub := by
  refine .get_bind fun r _ => ?_
  refine (safe_readTlv n k).bind fun p => .ite (fun _ => .fail _) fun _ => ?_
  refine .get_bind fun r' hr' => ?_
  obtain ⟨⟨hin, -⟩, hv⟩ := hr'
  have hle : p.2.length ≤ r'.offset := hv.trans (Nat.le_add_left ..)
  refine .lift_bind (returns_usizeSub hle) fun off hoff => .pure fun s hs => ?_
  rw [usizeSub_of_le hle] at hoff
  cases hoff
  exact ⟨⟨⟨hs.1.1, hs.1.2.le⟩, hs.1.2⟩, hin.sub hv, le_rfl⟩

/-- A method that reads one field and decodes its contents. -/
theorem safe_readField {α : Type} (tag : UInt8) (name : String)
    {f : Nat → Bytes → Act BerReader BerError α} (hf : ∀ off v, Act.Total (f off v))
    (hkeep : ∀ off v r a r', (f off v).run r = .ok (a, r') → r' = r) :
    Act.Safe (Keeps n k) (readExpectedTlv tag name >>= fun p => f p.1 p.2) fun _ r' =>
      Keeps n k r' := by
  refine (safe_readExpectedTlv tag name).bind fun p r hr => ⟨hf p.1 p.2 r, fun a r' h => ?_⟩
  obtain rfl := hkeep _ _ _ _ _ h
  exact hr.1

theorem safe_readDecoded {α : Type} (tag : UInt8) (name : String)
    {decode : Bytes → Nat → Res BerError α} (h : ∀ v off, (decode v off).Returns) :
    Act.Safe (Keeps n k) (readExpectedTlv tag name >>= fun p => Act.lift (decode p.2 p.1))
      fun _ r' => Keeps n k r' :=
  safe_readField tag name (f := fun off v => Act.lift (decode v off))
    (fun off v => .lift (h v off)) fun _ _ _ _ _ h => (Act.lift_eq_ok.mp h).2

theorem safe_readInteger : Act.Safe (Keeps n k) readInteger fun _ r' => Keeps n k r' :=
  safe_readDecoded tagInteger "INTEGER" returns_decodeSignedI32

theorem safe_readUnsigned32 : Act.Safe (Keeps n k) readUnsigned32 fun _ r' => Keeps n k r' :=
  safe_readDecoded tagInteger "INTEGER" returns_decodeUnsignedU32

theorem safe_readUnsigned64 : Act.Safe (Keeps n k) readUnsigned64 fun _ r' => Keeps n k r' :=
  safe_readDecoded tagInteger "INTEGER" returns_decodeUnsignedU64

theorem safe_readTaggedUnsigned32 (tag : UInt8) :
    Act.Safe (Keeps n k) (readTaggedUnsigned32 tag) fun _ r' => Keeps n k r' :=
  safe_readDecoded tag "tagged unsigned32" returns_decodeUnsignedU32

theorem safe_readTaggedUnsigned64 (tag : UInt8) :
    Act.Safe (Keeps n k) (readTaggedUnsigned64 tag) fun _ r' => Keeps n k r' :=
  safe_readDecoded tag "tagged unsigned64" returns_decodeUnsignedU64

theorem safe_readOid : Act.Safe (Keeps n k) readOid fun _ r' => Keeps n k r' :=
  safe_readDecoded tagOid "OID" returns_decodeOid

/-- The string ends where the cursor stands. -/
theorem safe_readOctetString_sub :
    Act.Safe (Keeps n k) readOctetString fun v r' => Keeps n k r' ∧ v.length ≤ r'.position :=
  (safe_readExpectedTlv tagOctetString "OCTET STRING").bind fun _ => .pure fun _ h => h

theorem safe_readOctetString : Act.Safe (Keeps n k) readOctetString fun _ r' => Keeps n k r' :=
  safe_readOctetString_sub.mono (fun _ h => h) fun _ _ h => h.1

theorem safe_readNull : Act.Safe (Keeps n k) readNull fun _ r' => Keeps n k r' :=
  (safe_readExpectedTlv tagNull "NULL").bind fun _ =>
    .ite (fun _ => .pure fun _ h => h.1) fun _ => .fail _

theorem safe_readSequence : Act.Safe (Keeps n k) readSequence fun sub r' =>
    (Keeps n k r' ∧ r'.rest.length < k) ∧ Keeps n sub.input.length sub :=
  safe_readConstructed tagSequence

theorem remaining_eq {ε : Type} {r : BerReader} (h : Keeps n k r) :
    (r.remaining : Res ε Bytes) = .ok r.rest := by
  rw [remaining, sliceFrom?_of_le h.1.position_le]
  rfl

theorem returns_remaining {ε : Type} {r : BerReader} (h : Keeps n k r) :
    (r.remaining : Res ε Bytes).Returns := by
  rw [remaining_eq h]
  exact Res.returns_ok _

theorem length_of_remaining {ε : Type} {r : BerReader} {bs : Bytes} (h : Keeps n k r)
    (hbs : (r.remaining : Res ε Bytes) = .ok bs) : bs.length ≤ n := by
  have hoff := h.1.offset_le
  rw [remaining_eq h] at hbs
  cases hbs
  rw [rest, List.length_drop]
  omega

theorem keeps_new (input : Bytes) : Keeps input.length input.length (new input) :=
  ⟨inside_new input, le_rfl⟩

end

end BerReader

/-! ## Variable bindings and PDUs -/

section
variable {n k : Nat}

theorem safe_peek_bind {α : Type} {f : UInt8 → Act BerReader BerError α} {Q : α → BerReader → Prop}
    (hf : ∀ tag, Act.Safe (Keeps n k) (f tag) Q) :
    Act.Safe (Keeps n k) (do let r : BerReader ← get; let tag ← Act.lift r.peekTag; f tag) Q :=
  .get_bind fun _ _ => .lift_bind Res.returns_okOr fun tag _ => hf tag

/-- The bytes that a decoded value holds on to. -/
def DecodedVarbindValue.size : DecodedVarbindValue → Nat
  | .octetString bytes | .raw _ bytes => bytes.length
  | _ => 0

theorem safe_readException (tag : UInt8) :
    Act.Safe (Keeps n k) (readException tag) fun v r' => Keeps n k r' ∧ v.size ≤ n := by
  refine (safe_readTlv n k).bind fun p => .ite (fun _ => .fail _) fun _ => ?_
  have hkeep {v : DecodedVarbindValue} (hv : v.size = 0) : Act.Safe (ε := BerError)
      (fun r => (r.Inside n ∧ r.rest.length < k) ∧ p.2.length ≤ r.position) (pure v) fun v r' =>
        Keeps n k r' ∧ v.size ≤ n := .pure fun _ h => ⟨⟨h.1.1, h.1.2.le⟩, hv ▸ Nat.zero_le n⟩
  exact .ite (fun _ => hkeep rfl) fun _ => .ite (fun _ => hkeep rfl) fun _ =>
    .ite (fun _ => hkeep rfl) fun _ => .fail _

theorem safe_readChoice (tag : UInt8) :
    Act.Safe (Keeps n k) (readChoice tag) fun v r' => Keeps n k r' ∧ v.size ≤ n := by
  refine .ite (fun _ => safe_readNull.bind fun _ => .pure fun _ h => ⟨h, Nat.zero_le n⟩) fun _ => ?_
  refine .ite (fun _ => safe_readException tag) fun _ => ?_
  refine .ite (fun _ => safe_readInteger.bind fun _ => .pure fun _ h => ⟨h, Nat.zero_le n⟩) fun _ =>
    ?_
  refine .ite (fun _ => safe_readOctetString_sub.bind fun _ => .pure fun _ h =>
    ⟨h.1, h.1.1.length_le h.2⟩) fun _ => ?_
  refine .ite (fun _ => safe_readOid.bind fun _ => .pure fun _ h => ⟨h, Nat.zero_le n⟩) fun _ => ?_
  exact (safe_readTlv n k).bind fun p => .pure fun _ h =>
    ⟨⟨h.1.1, h.1.2.le⟩, h.1.1.length_le h.2⟩

theorem safe_decodeVarbindValue :
    Act.Safe (Keeps n k) decodeVarbindValue fun v r' => Keeps n k r' ∧ v.size ≤ n := by
  refine safe_peek_bind fun tag => (safe_readChoice tag).bind fun value => ?_
  refine .get_bind fun r hr => .ite (fun _ => .pure fun _ h => h) fun _ => ?_
  exact .lift_bind (returns_remaining hr.1) fun _ _ => .fail _

theorem safe_decodeVarbind : Act.Safe (Keeps n k) decodeVarbind fun vb r' =>
    (Keeps n k r' ∧ r'.rest.length < k) ∧ vb.value.size ≤ n := by
  refine safe_readSequence.bind fun sub => .assume fun hsub => ?_
  refine .lift_bind (safe_readOid.on hsub) fun p hp => ?_
  have hsub' := safe_readOid.on_eq_ok hsub hp
  refine .lift_bind (safe_decodeVarbindValue.on hsub') fun q hq => .pure fun _ h => ⟨h, ?_⟩
  exact (safe_decodeVarbindValue.on_eq_ok hsub' hq).2

/-- The fuel of the loop is enough, since every variable binding is a TLV. -/
theorem safe_decodeVarbinds (fuel : Nat) :
    Act.Safe (Keeps n fuel) (decodeVarbinds fuel) fun vbs _ =>
      vbs.length ≤ fuel ∧ ∀ vb ∈ vbs, vb.value.size ≤ n := by
  induction fuel with
  | zero =>
    refine .get_bind fun r hr => ?_
    have hempty : r.isEmpty = true :=
      (isEmpty_iff r).mpr (List.length_eq_zero_iff.mp (Nat.le_zero.mp hr.2))
    rw [if_pos hempty]
    exact .pure fun _ _ => ⟨Nat.le_refl 0, nofun⟩
  | succ fuel ih =>
    refine .get_bind fun r _ => .ite (fun _ => .pure fun _ _ => ⟨Nat.zero_le _, nofun⟩) fun _ => ?_
    have hone : Act.Safe (Keeps n (fuel + 1)) decodeVarbind fun vb r' =>
        Keeps n fuel r' ∧ vb.value.size ≤ n :=
      safe_decodeVarbind.mono (fun _ h => h) fun _ _ h =>
        ⟨⟨h.1.1.1, Nat.le_of_lt_succ h.1.2⟩, h.2⟩
    refine hone.bind fun vb => .assume fun hvb => ih.bind fun vbs => .pure fun _ h => ?_
    refine ⟨Nat.succ_le_succ h.1, fun vb' hvb' => ?_⟩
    rcases List.mem_cons.mp hvb' with rfl | hvb'
    · exact hvb
    · exact h.2 vb' hvb'

theorem returns_decodeVarbindList (raw : Bytes) : (decodeVarbindList raw).Returns := by
  refine (safe_readSequence.on (keeps_new raw)).bind fun p hp => ?_
  obtain ⟨-, hsub⟩ := safe_readSequence.on_eq_ok (keeps_new raw) hp
  refine Res.returns_ite (fun _ => Res.returns_err _) fun _ => ?_
  exact ((safe_decodeVarbinds p.1.input.length).on hsub).bind fun _ _ => Res.returns_ok _

theorem size_of_decodeVarbindList {raw : Bytes} {vbs : List DecodedVarbind}
    (h : decodeVarbindList raw = .ok vbs) :
    vbs.length ≤ raw.length ∧ ∀ vb ∈ vbs, vb.value.size ≤ raw.length := by
  simp only [decodeVarbindList, Res.bind_eq_ok, Res.guard_eq_ok] at h
  obtain ⟨p, hp, -, q, hq, h⟩ := h
  cases h
  obtain ⟨-, hsub⟩ := safe_readSequence.on_eq_ok (keeps_new raw) hp
  obtain ⟨hlen, hsize⟩ := (safe_decodeVarbinds p.1.input.length).on_eq_ok hsub hq
  have hoff := hsub.1.offset_le
  exact ⟨by omega, hsize⟩

/-- The bytes of a value in memory. -/
def Value.size : Value → Nat
  | .integer32 _ | .ipAddress _ | .counter32 _ | .gauge32 _ | .timeTicks _ => 4
  | .counter64 _ => 8
  | .objectIdentifier oid => 4 * oid.arcs.length
  | .octetString bytes | .opaque_ bytes => bytes.length

/-- At most `n` variable bindings, and no value but an object identifier larger than `n`. -/
structure Within (n : Nat) (vbs : List Varbind) : Prop where
  length_le : vbs.length ≤ n
  size_le : ∀ vb ∈ vbs, ∀ v, vb.value = .value v → v.size ≤ max n 512

theorem Within.mono {m n : Nat} {vbs : List Varbind} (h : Within m vbs) (hmn : m ≤ n) :
    Within n vbs :=
  ⟨h.length_le.trans hmn, fun vb hvb v hv => (h.size_le vb hvb v hv).trans (by omega)⟩

theorem returns_decodeApplicationValue (tag : UInt8) (bs : Bytes) :
    (decodeApplicationValue tag bs).Returns := by
  have h32 := returns_decodeUnsignedU32 bs 0
  unfold decodeApplicationValue
  refine Res.returns_ite (fun _ => ?_) fun _ => ?_
  · split
    · exact Res.returns_ok _
    · exact Res.returns_err _
  refine Res.returns_ite (fun _ => h32.map _) fun _ => Res.returns_ite (fun _ => h32.map _) fun _ =>
    Res.returns_ite (fun _ => h32.map _) fun _ =>
      Res.returns_ite (fun _ => Res.returns_ok _) fun _ =>
        Res.returns_ite (fun _ => (returns_decodeUnsignedU64 bs 0).map _) fun _ => Res.returns_err _

theorem returns_decodeVarbindListToVarbinds (raw : Bytes) :
    (decodeVarbindListToVarbinds raw).Returns := by
  refine (Res.returns_mapErr.mpr (returns_decodeVarbindList raw)).bind fun vbs _ => ?_
  refine Res.returns_mapM fun vb _ => Res.Returns.bind (Res.returns_mapErr.mpr ?_) fun _ _ =>
    Res.returns_ok _
  cases vb.value with
  | raw tag bs => exact (returns_decodeApplicationValue tag bs).map _
  | _ => exact Res.returns_ok _

theorem size_of_decodeApplicationValue {tag : UInt8} {bs : Bytes} {v : Value}
    (h : decodeApplicationValue tag bs = .ok v) : v.size ≤ max bs.length 512 := by
  unfold decodeApplicationValue at h
  split at h
  · split at h
    · cases h
      simp [Value.size]
    · cases h
  split at h
  · obtain ⟨_, -, rfl⟩ := Res.map_eq_ok.mp h
    simp [Value.size]
  split at h
  · obtain ⟨_, -, rfl⟩ := Res.map_eq_ok.mp h
    simp [Value.size]
  split at h
  · obtain ⟨_, -, rfl⟩ := Res.map_eq_ok.mp h
    simp [Value.size]
  split at h
  · cases h
    exact Nat.le_max_left ..
  split at h
  · obtain ⟨_, -, rfl⟩ := Res.map_eq_ok.mp h
    simp [Value.size]
  · cases h

theorem size_of_decodeVarbindValueToValue {decoded : DecodedVarbindValue} {v : Value}
    (h : decodeVarbindValueToValue decoded = .ok (.value v)) : v.size ≤ max decoded.size 512 := by
  cases decoded with
  | integer n =>
    cases h
    simp [Value.size]
  | octetString bytes =>
    cases h
    exact Nat.le_max_left ..
  | objectIdentifier oid =>
    cases h
    have := oid.length_le
    simp only [Value.size]
    omega
  | raw tag bytes =>
    obtain ⟨v', hv, h⟩ := Res.map_eq_ok.mp h
    cases h
    exact size_of_decodeApplicationValue hv
  | _ => cases h

theorem within_of_decodeVarbindListToVarbinds {raw : Bytes} {vbs : List Varbind}
    (h : decodeVarbindListToVarbinds raw = .ok vbs) : Within raw.length vbs := by
  simp only [decodeVarbindListToVarbinds, Res.bind_eq_ok, Res.mapErr_eq_ok] at h
  obtain ⟨decoded, hdecoded, h⟩ := h
  obtain ⟨hlen, hsize⟩ := size_of_decodeVarbindList hdecoded
  obtain ⟨hlen', hmem⟩ := Res.mapM_eq_ok h
  refine ⟨hlen' ▸ hlen, fun vb hvb v hv => ?_⟩
  obtain ⟨d, hd, hdv⟩ := hmem vb hvb
  simp only [Res.bind_eq_ok, Res.mapErr_eq_ok] at hdv
  obtain ⟨value, hvalue, hdv⟩ := hdv
  cases hdv
  have := hsize d hd
  exact (size_of_decodeVarbindValueToValue (hvalue.trans (congrArg _ hv))).trans (by omega)

theorem safe_readValidatedVarbindList :
    Act.Safe (Keeps n k) Ber.readValidatedVarbindList fun raw _ => raw.length ≤ n := by
  refine .get_bind fun r hr => .ite (fun _ => .fail _) fun _ => ?_
  refine .lift_bind (returns_remaining hr) fun raw hraw => safe_readSequence.bind fun _ => ?_
  exact .get_bind fun _ _ => .ite (fun _ => .pure fun _ _ => length_of_remaining hr hraw) fun _ =>
    .fail _

def DecodedPdu.rawVarbindList : DecodedPdu → Bytes
  | .standard _ _ raw | .bulk _ _ _ raw => raw

theorem safe_readPduFields (tag : UInt8) :
    Act.Safe (Keeps n k) (Ber.readPduFields tag) fun pdu _ => pdu.rawVarbindList.length ≤ n := by
  refine safe_readInteger.bind fun _ => .ite (fun _ => ?_) fun _ => .ite (fun _ => ?_) fun _ =>
    .fail _
  · exact safe_readInteger.bind fun _ => safe_readInteger.bind fun _ =>
      safe_readValidatedVarbindList.bind fun _ => .pure fun _ h => h
  · exact safe_readInteger.bind fun _ => safe_readInteger.bind fun _ =>
      safe_readValidatedVarbindList.bind fun _ => .pure fun _ h => h

theorem returns_decodePdu (raw : Bytes) : (Ber.decodePdu raw).Returns := by
  refine Res.returns_okOr.bind fun tag _ => ?_
  refine ((safe_readConstructed tag).on (keeps_new raw)).bind fun p hp => ?_
  obtain ⟨-, hsub⟩ := (safe_readConstructed tag).on_eq_ok (keeps_new raw) hp
  refine Res.returns_ite (fun _ => Res.returns_err _) fun _ => ?_
  exact ((safe_readPduFields tag).on hsub).bind fun _ _ => Res.returns_ok _

theorem size_of_decodePdu {raw : Bytes} {pdu : DecodedPdu} (h : Ber.decodePdu raw = .ok pdu) :
    pdu.rawVarbindList.length ≤ raw.length := by
  simp only [Ber.decodePdu, Res.bind_eq_ok, Res.guard_eq_ok] at h
  obtain ⟨tag, -, p, hp, -, q, hq, h⟩ := h
  cases h
  obtain ⟨-, hsub⟩ := (safe_readConstructed tag).on_eq_ok (keeps_new raw) hp
  exact (safe_readPduFields tag).on_eq_ok hsub hq

theorem returns_decodedPduToInbound (pdu : DecodedPdu) : (decodedPduToInbound pdu).Returns := by
  cases pdu with
  | standard tag requestId raw =>
    have hlist (mk : List Varbind → InboundPdu) :
        (decodeVarbindListToVarbinds raw >>= fun vbs => .ok (mk vbs)).Returns :=
      (returns_decodeVarbindListToVarbinds raw).bind fun _ _ => Res.returns_ok _
    exact Res.returns_ite (fun _ => hlist _) fun _ => Res.returns_ite (fun _ => hlist _) fun _ =>
      Res.returns_ite (fun _ => hlist _) fun _ => Res.returns_err _
  | bulk requestId nonRepeaters maxRepetitions raw =>
    exact (returns_decodeVarbindListToVarbinds raw).bind fun _ _ => Res.returns_ok _

theorem varbinds_of_decodedPduToInbound {pdu : DecodedPdu} {inbound : InboundPdu}
    (h : decodedPduToInbound pdu = .ok inbound) :
    decodeVarbindListToVarbinds pdu.rawVarbindList = .ok inbound.varbinds := by
  have hlist {raw : Bytes} {mk : List Varbind → InboundPdu} (hmk : ∀ vbs, (mk vbs).varbinds = vbs)
      (h : (decodeVarbindListToVarbinds raw >>= fun vbs => .ok (mk vbs)) = .ok inbound) :
      decodeVarbindListToVarbinds raw = .ok inbound.varbinds := by
    obtain ⟨vbs, hvbs, h⟩ := Res.bind_eq_ok.mp h
    cases h
    rw [hmk, hvbs]
  cases pdu with
  | standard tag requestId raw =>
    rw [decodedPduToInbound] at h
    split at h
    · exact hlist (fun _ => rfl) h
    split at h
    · exact hlist (fun _ => rfl) h
    split at h
    · exact hlist (fun _ => rfl) h
    · cases h
  | bulk requestId nonRepeaters maxRepetitions raw => exact hlist (fun _ => rfl) h

theorem within_of_decodedPduToInbound {pdu : DecodedPdu} {inbound : InboundPdu}
    (h : decodedPduToInbound pdu = .ok inbound) :
    Within pdu.rawVarbindList.length inbound.varbinds :=
  within_of_decodeVarbindListToVarbinds (varbinds_of_decodedPduToInbound h)

/-! ## Messages -/

theorem returns_singleFlagsByte (bs : Bytes) : (Ber.singleFlagsByte bs).Returns := by
  unfold Ber.singleFlagsByte
  split
  · exact Res.returns_ok _
  · exact Res.returns_err _

theorem safe_readHeaderFields :
    Act.Safe (Keeps n k) Ber.readHeaderFields fun _ r' => Keeps n k r' := by
  refine safe_readInteger.bind fun _ => .ite (fun _ => .fail _) fun _ => ?_
  refine safe_readInteger.bind fun _ => .ite (fun _ => .fail _) fun _ => ?_
  refine safe_readOctetString.bind fun bs => ?_
  exact .lift_bind (returns_singleFlagsByte bs) fun _ _ =>
    safe_readInteger.bind fun _ => .pure fun _ h => h

/-- A method whose rest runs on the sub-reader of a constructed field. -/
theorem safe_within {α β : Type} {x : Act BerReader BerError α} {f : α → β} {A : β → Prop}
    (hx : ∀ {k}, Act.Safe (Keeps n k) x fun a _ => A (f a)) :
    Act.Safe (Keeps n k) (do
      let sub ← readSequence
      let (a, _) ← Act.lift (Act.on sub x)
      return f a) fun b r' => Keeps n k r' ∧ A b := by
  refine safe_readSequence.bind fun sub => .assume fun hsub => ?_
  refine .lift_bind (hx.on hsub) fun p hp => .pure fun _ h => ⟨h.1, ?_⟩
  exact hx.on_eq_ok hsub hp

theorem safe_decodeHeaderData :
    Act.Safe (Keeps n k) Ber.decodeHeaderData fun _ r' => Keeps n k r' :=
  (safe_within (f := id) (A := fun _ => True)
    (safe_readHeaderFields.mono (fun _ h => h) fun _ _ _ => trivial)).mono
    (fun _ h => h) fun _ _ h => h.1

theorem safe_readUsmFields :
    Act.Safe (Keeps n k) Ber.readUsmFields fun _ r' => Keeps n k r' := by
  refine safe_readOctetString.bind fun _ => safe_readInteger.bind fun _ =>
    safe_readInteger.bind fun _ => safe_readOctetString.bind fun _ =>
      .ite (fun _ => .fail _) fun _ => ?_
  refine safe_readOctetString_sub.bind fun authParams => .get_bind fun r hr => ?_
  have hle : authParams.length ≤ r.offset := hr.2.trans (Nat.le_add_left ..)
  refine .lift_bind ?_ fun _ _ => ?_
  · exact Res.returns_ite (fun _ => Res.returns_ok _) fun _ => (returns_usizeSub hle).map _
  · exact (safe_readOctetString.mono (fun _ h => h.1) fun _ _ h => h).bind fun _ =>
      .pure fun _ h => h

theorem safe_readUsmSequence :
    Act.Safe (Keeps n k) Ber.readUsmSequence fun sub r' =>
      Keeps n k r' ∧ Keeps n sub.input.length sub := by
  refine safe_readOctetString_sub.bind fun usmBytes => .get_bind fun r hr => ?_
  have hle : usmBytes.length ≤ r.offset := hr.2.trans (Nat.le_add_left ..)
  refine .lift_bind (returns_usizeSub hle) fun off hoff => ?_
  rw [usizeSub_of_le hle] at hoff
  cases hoff
  have husm : Keeps n usmBytes.length (newWithOffset usmBytes (r.offset - usmBytes.length)) :=
    ⟨hr.1.1.sub hr.2, le_rfl⟩
  refine .lift_bind (safe_readSequence.on husm) fun p hp => .pure fun _ h => ?_
  exact ⟨h.1, (safe_readSequence.on_eq_ok husm hp).2⟩

theorem safe_decodeUsmSecurityParameters :
    Act.Safe (Keeps n k) Ber.decodeUsmSecurityParameters fun _ r' => Keeps n k r' := by
  refine safe_readUsmSequence.bind fun sub => .assume fun hsub => ?_
  exact .lift_bind (safe_readUsmFields.on hsub) fun _ _ => .pure fun _ h => h

/-- The raw PDU, or the ciphertext. -/
def ScopedData.payload : ScopedData → Bytes
  | .plaintext _ _ rawPdu => rawPdu
  | .encrypted ciphertext => ciphertext

theorem safe_readScopedFields :
    Act.Safe (Keeps n k) Ber.readScopedFields fun fields _ => fields.rawPdu.length ≤ n := by
  refine safe_readOctetString.bind fun _ => safe_readOctetString.bind fun _ =>
    .get_bind fun r hr => ?_
  exact .lift_bind (returns_remaining hr) fun _ hraw => .pure fun _ _ => length_of_remaining hr hraw

theorem safe_readScopedData (tag : UInt8) :
    Act.Safe (Keeps n k) (Ber.readScopedData tag) fun data _ => data.payload.length ≤ n := by
  refine .ite (fun _ => ?_) fun _ => .ite (fun _ => ?_) fun _ => .fail _
  · exact (safe_within (f := fun fields : DecodedScopedPduFields =>
      ScopedData.plaintext fields.contextEngineId fields.contextName fields.rawPdu)
      (A := fun data : ScopedData => data.payload.length ≤ n) safe_readScopedFields).mono
      (fun _ h => h)
        fun _ _ h => h.2
  · exact safe_readOctetString_sub.bind fun _ => .pure fun _ h => h.1.1.length_le h.2

theorem safe_readMessageFields :
    Act.Safe (Keeps n k) Ber.readMessageFields fun env _ => env.scopedData.payload.length ≤ n := by
  refine safe_readInteger.bind fun _ => .ite (fun _ => .fail _) fun _ => ?_
  exact safe_decodeHeaderData.bind fun _ => safe_decodeUsmSecurityParameters.bind fun _ =>
    (safe_peek_bind safe_readScopedData).bind fun _ => .pure fun _ h => h

theorem returns_decodeV3Envelope (bytes : Bytes) : (Ber.decodeV3Envelope bytes).Returns := by
  refine (safe_readSequence.on (keeps_new bytes)).bind fun p hp => ?_
  obtain ⟨-, hsub⟩ := safe_readSequence.on_eq_ok (keeps_new bytes) hp
  exact (safe_readMessageFields.on hsub).bind fun _ _ => Res.returns_ok _

theorem decodeV3Envelope_payload {bytes : Bytes} {env : V3MessageEnvelope}
    (h : Ber.decodeV3Envelope bytes = .ok env) : env.scopedData.payload.length ≤ bytes.length := by
  simp only [Ber.decodeV3Envelope, Res.bind_eq_ok] at h
  obtain ⟨p, hp, q, hq, h⟩ := h
  cases h
  obtain ⟨-, hsub⟩ := safe_readSequence.on_eq_ok (keeps_new bytes) hp
  exact safe_readMessageFields.on_eq_ok hsub hq

theorem returns_decodeScopedPduFields (bytes : Bytes) : (Ber.decodeScopedPdu bytes).Returns := by
  refine (safe_readSequence.on (keeps_new bytes)).bind fun p hp => ?_
  obtain ⟨-, hsub⟩ := safe_readSequence.on_eq_ok (keeps_new bytes) hp
  exact (safe_readScopedFields.on hsub).bind fun _ _ => Res.returns_ok _

theorem returns_decodeScopedPdu (bytes : Bytes) : (decodeScopedPdu bytes).Returns := by
  refine (Res.returns_mapErr.mpr (returns_decodeScopedPduFields bytes)).bind fun fields _ => ?_
  refine (Res.returns_mapErr.mpr (returns_decodePdu fields.rawPdu)).bind fun pdu _ => ?_
  exact (returns_decodedPduToInbound pdu).bind fun _ _ => Res.returns_ok _

theorem length_rawPdu_of_decodeScopedPdu {bytes : Bytes} {fields : DecodedScopedPduFields}
    (h : Ber.decodeScopedPdu bytes = .ok fields) : fields.rawPdu.length ≤ bytes.length := by
  simp only [Ber.decodeScopedPdu, Res.bind_eq_ok] at h
  obtain ⟨p, hp, q, hq, hfields⟩ := h
  cases hfields
  obtain ⟨-, hsub⟩ := safe_readSequence.on_eq_ok (keeps_new bytes) hp
  exact safe_readScopedFields.on_eq_ok hsub hq

theorem within_of_decodeScopedPdu {bytes : Bytes} {decoded : DecodedScopedPdu}
    (h : decodeScopedPdu bytes = .ok decoded) : Within bytes.length decoded.pdu.varbinds := by
  simp only [decodeScopedPdu, Res.bind_eq_ok, Res.mapErr_eq_ok] at h
  obtain ⟨fields, hfields, pdu, hpdu, inbound, hinbound, h⟩ := h
  cases h
  have hraw := length_rawPdu_of_decodeScopedPdu hfields
  exact (within_of_decodedPduToInbound hinbound).mono ((size_of_decodePdu hpdu).trans hraw)

/-- No frame makes the decoder panic. -/
theorem returns_decodeV3Message (bytes : Bytes) : (decodeV3Message bytes).Returns := by
  refine (Res.returns_mapErr.mpr (returns_decodeV3Envelope bytes)).bind fun env _ => ?_
  refine Res.Returns.bind ?_ fun _ _ => Res.returns_ok _
  cases env.scopedData with
  | plaintext contextEngineId contextName rawPdu =>
    refine (Res.returns_mapErr.mpr (returns_decodePdu rawPdu)).bind fun pdu _ => ?_
    exact (returns_decodedPduToInbound pdu).bind fun _ _ => Res.returns_ok _
  | encrypted ciphertext => exact Res.returns_ok _

end

end SnmpAgent
