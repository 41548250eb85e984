import SnmpAgent.Codec.Ber
import SnmpAgent.Lib.Tlv

/-!
# The primitive codecs

What the contents codecs of `Ber` compute: `encodeLength` writes the shortest length field,
`decodeSignedI32` and `decodeUnsigned` read exactly the two's-complement values in range, and the
encoders are their right inverses. Each writer operation is a pure append below the capacity of a
vector (`BerWriter.writeTlv_eq`).
-/

namespace SnmpAgent
open Rust Tlv

variable {ε : Type}

/-! ## Length fields -/

theorem log256_eq (n : Nat) : Nat.log 256 n = n.log2 / 8 := by
  by_cases h0 : n = 0
  · subst h0
    rfl
  have hpow : ∀ k, 256 ^ k = 2 ^ (8 * k) := fun k => by rw [Nat.pow_mul]
  apply Nat.log_eq_of_pow_le_of_lt_pow
  · rw [hpow]
    exact (Nat.pow_le_pow_right (by decide) (by omega)).trans (Nat.log2_self_le h0)
  · rw [hpow]
    exact Nat.lt_log2_self.trans_le (Nat.pow_le_pow_right (by decide) (by omega))

theorem encodeLength_eq {n : Nat} (dest : Bytes) (h : n < 2 ^ 64) :
    (encodeLength dest n : Res ε Bytes) = capped (dest ++ lengthField n) := by
  unfold encodeLength lengthField
  split
  · rfl
  · rename_i hn
    have h0 : n ≠ 0 := by omega
    have hlog : n.log2 < 64 := (Nat.log2_lt h0).mpr h
    have hskip : usizeLeadingZeros n / 8 = 8 - byteCount n := by
      rw [usizeLeadingZeros, if_neg h0, byteCount, log256_eq]
      omega
    have hcount : byteCount n ≤ 8 := byteCount_le_eight h
    have hsig : sliceFrom? (toBE 8 n) (usizeLeadingZeros n / 8) = some (toBE (byteCount n) n) := by
      rw [hskip, sliceFrom?_of_le (by simp), drop_toBE (by omega)]
      congr 2
      omega
    simp only [hsig, Res.expect_some, Res.ok_bind, extend, length_toBE]
    rw [capped_bind_append, List.append_assoc, UInt8.ofNat_add]
    rfl

/-! ## INTEGER contents -/

/-- The shortest two's-complement contents of an `i32`. -/
def integerContent (value : Int32) : Bytes := stripSigned (i32ToBe value)

@[simp] theorem length_i32ToBe (value : Int32) : (i32ToBe value).length = 4 := length_toBE ..

theorem toUInt32_toNat (value : Int32) : (value.toUInt32.toNat : Int) = value.toInt % 2 ^ 32 := by
  have h : value.toUInt32.toNat = value.toBitVec.toNat := rfl
  have hlt := value.toBitVec.isLt
  rw [h, ← Int32.toInt_toBitVec, BitVec.toInt_eq_toNat_cond]
  split <;> omega

theorem i32ToBe_eq (value : Int32) : ∃ b0 b1 b2 b3 : UInt8, i32ToBe value = [b0, b1, b2, b3] := by
  exact ⟨_, _, _, _, rfl⟩

theorem signed_i32ToBe (value : Int32) : signed (i32ToBe value) = value.toInt := by
  have hnat : (fromBE (i32ToBe value) : Int) = value.toInt % 2 ^ 32 := by
    rw [i32ToBe, fromBE_toBE_of_lt value.toUInt32.toNat_lt, toUInt32_toNat]
  obtain ⟨b0, b1, b2, b3, hb⟩ := i32ToBe_eq value
  have hr := signed_range b0 [b1, b2, b3]
  have hlo := value.le_toInt
  have hhi := value.toInt_lt
  have hs : signed (i32ToBe value) % 2 ^ 32 = value.toInt % 2 ^ 32 := by
    rw [← hnat]
    unfold signed
    have hlt := fromBE_lt (i32ToBe value)
    rw [length_i32ToBe] at *
    split <;> omega
  rw [hb] at *
  norm_num at hr
  omega

theorem i32FromBe_eq {word : Bytes} {value : Int32} (hl : word.length = 4)
    (h : signed word = value.toInt) : i32FromBe word = value := by
  have hw : word = i32ToBe value :=
    signed_inj (hl.trans (length_i32ToBe value).symm) (h.trans (signed_i32ToBe value).symm)
  subst hw
  rw [i32FromBe, i32ToBe, fromBE_toBE_of_lt value.toUInt32.toNat_lt, UInt32.ofNat_toNat]
  rfl

theorem exists_int32 {n : Int} (h1 : -2 ^ 31 ≤ n) (h2 : n < 2 ^ 31) :
    ∃ value : Int32, value.toInt = n :=
  ⟨Int32.ofInt n, Int32.toInt_ofInt_of_le h1 h2⟩

theorem high_bit (b : UInt8) : (b &&& 0x80 != 0) = decide (128 ≤ b.toNat) := by
  rw [bne, Bool.not_eq_eq_eq_not, ← decide_not, Bool.beq_eq_decide_eq]
  exact decide_eq_decide.mpr (by rw [Byte.and_high_eq_zero]; omega)

theorem high_bit_clear (b : UInt8) : (b &&& 0x80 == 0) = decide (b.toNat < 128) := by
  rw [Bool.beq_eq_decide_eq]
  exact decide_eq_decide.mpr Byte.and_high_eq_zero

/-- A sign byte is redundant in front of a byte with its sign. -/
theorem redundant_iff_sign {c n : UInt8} (hc : c = 0 ∨ c = 0xFF) :
    Redundant c n ↔ (128 ≤ n.toNat ↔ c = 0xFF) := by
  rcases hc with rfl | rfl
  · simp [Redundant]
  · simp [Redundant]

theorem eq_of_redundant {b c n : UInt8} (hc : c = 0 ∨ c = 0xFF)
    (hsign : 128 ≤ b.toNat ↔ c = 0xFF) (h : Redundant b n) : b = c := by
  rcases hc with rfl | rfl <;> rcases h with ⟨rfl, -⟩ | ⟨rfl, -⟩
  · rfl
  · exact absurd (hsign.mp (by decide)) (by decide)
  · exact absurd (hsign.mpr rfl) (by decide)
  · rfl

/-- Where the encoder cuts: it skips the leading sign bytes and steps back one when the byte it
then sees has the wrong sign bit. The induction is on the bytes that may still be skipped. -/
theorem drop_skip_eq_stripSigned {c : UInt8} {wrong : UInt8 → Bool} (hc : c = 0 ∨ c = 0xFF)
    {raw : Bytes} (hsign : ∀ b ∈ raw.head?, 128 ≤ b.toNat ↔ c = 0xFF)
    (hwrong : ∀ b ∈ raw, wrong b = true ↔ ¬ (128 ≤ b.toNat ↔ c = 0xFF)) :
    raw.drop (let skip := ((raw.take (raw.length - 1)).takeWhile (· == c)).length
      if raw[skip]?.any wrong then skip - 1 else skip) = stripSigned raw := by
  have hcsign : 128 ≤ c.toNat ↔ c = 0xFF := by rcases hc with rfl | rfl <;> decide
  induction raw with
  | nil => rfl
  | cons b raw ih =>
    have hb : wrong b = false := by
      rw [← Bool.not_eq_true, hwrong b List.mem_cons_self, not_not]
      exact hsign b rfl
    obtain _ | ⟨n, raw⟩ := raw
    · simp [hb, stripSigned]
    by_cases hbc : b = c
    · subst hbc
      have hrun : (((b :: n :: raw).take ((b :: n :: raw).length - 1)).takeWhile (· == b)).length =
          (((n :: raw).take ((n :: raw).length - 1)).takeWhile (· == b)).length + 1 := by simp
      have hn := hwrong n (List.mem_cons_of_mem _ List.mem_cons_self)
      rw [hrun]
      by_cases hw : wrong n = true
      · -- The next byte has the other sign: it stops the loop and brings `b` back.
        have hne : (n == b) = false := beq_eq_false_iff_ne.mpr fun h => hn.mp hw (h ▸ hcsign)
        have hnr : ¬ Redundant b n := (redundant_iff_sign hc).not.mpr (hn.mp hw)
        have hskip : (((n :: raw).take ((n :: raw).length - 1)).takeWhile (· == b)).length = 0 := by
          obtain _ | ⟨m, raw⟩ := raw <;> simp [hne]
        rw [hskip, stripSigned, if_neg hnr]
        simp [hw]
      · have hsn : 128 ≤ n.toNat ↔ b = 0xFF := by
          by_contra hcon
          exact hw (hn.mpr hcon)
        have hr : Redundant b n := (redundant_iff_sign hc).mpr hsn
        have ih := ih (fun _ h => by cases h; exact hsn)
          (fun _ h => hwrong _ (List.mem_cons_of_mem _ h))
        rw [stripSigned, if_pos hr, ← ih]
        generalize (((n :: raw).take ((n :: raw).length - 1)).takeWhile (· == b)).length = skip
        obtain _ | skip := skip
        · simp [hw]
        · simp only [Nat.add_sub_cancel, List.getElem?_cons_succ]
          split <;> rfl
    · have hnr : ¬ Redundant b n := fun h => hbc (eq_of_redundant hc (hsign b rfl) h)
      have hskip : (((b :: n :: raw).take ((b :: n :: raw).length - 1)).takeWhile
          (· == c)).length = 0 := by simp [hbc]
      rw [hskip, stripSigned, if_neg hnr]
      simp [hb]

theorem skip_le {c : UInt8} (raw : Bytes) :
    ((raw.take (raw.length - 1)).takeWhile (· == c)).length ≤ raw.length := by
  refine (List.takeWhile_sublist _).length_le.trans ?_
  rw [List.length_take]
  omega

theorem encodeSignedI32_eq (value : Int32) :
    (encodeSignedI32 value : Res ε Bytes) = .ok (integerContent value) := by
  have hneg : value < 0 ↔ value.toInt < 0 := Int32.lt_iff_toInt_lt
  have hpos : 0 < value ↔ 0 < value.toInt := Int32.lt_iff_toInt_lt
  have hnonneg : 0 ≤ value ↔ 0 ≤ value.toInt := Int32.le_iff_toInt_le
  have hsign := signed_neg_iff (i32ToBe value)
  rw [signed_i32ToBe] at hsign
  have hc : (if 0 ≤ value then 0 else 0xFF : UInt8) = 0xFF ↔ value.toInt < 0 := by
    simp only [hnonneg]
    split <;> simp <;> omega
  unfold encodeSignedI32
  dsimp only
  rw [sliceFrom?_of_le, Res.expect_some]
  · congr 1
    refine drop_skip_eq_stripSigned (by split <;> simp) ?_ ?_
    · intro b hb
      rw [hc, hsign]
      exact ⟨fun h => ⟨b, hb, h⟩, fun ⟨_, hb', h⟩ => by cases hb.symm.trans hb'; exact h⟩
    · intro b hb
      simp only [high_bit, high_bit_clear, hneg, hpos, hc, Bool.or_eq_true, Bool.and_eq_true,
        decide_eq_true_eq]
      -- Zero has no byte with the sign bit, so the strictness of `0 < value` does not matter.
      have hzero : value.toInt = 0 → b.toNat < 128 := by
        intro h0
        have : value = 0 := Int32.toInt_inj.mp h0
        subst this
        have : b = 0 := List.eq_of_mem_replicate (n := 4) hb
        subst this
        decide
      omega
  · generalize (if 0 ≤ value then 0 else 0xFF : UInt8) = c
    have := skip_le (c := c) (i32ToBe value)
    split <;> omega

theorem integerContent_ne_nil (value : Int32) : integerContent value ≠ [] :=
  stripSigned_ne_nil (List.ne_nil_of_length_pos (by simp))

@[simp] theorem signed_integerContent (value : Int32) :
    signed (integerContent value) = value.toInt := by
  rw [integerContent, signed_stripSigned, signed_i32ToBe]

theorem length_integerContent_le (value : Int32) : (integerContent value).length ≤ 4 := by
  have hlo := value.le_toInt
  have hhi := value.toInt_lt
  refine length_stripSigned_le (k := 3) ?_ ?_ <;> rw [signed_i32ToBe] <;> omega

/-- Where the decoder cuts: at the first pair of neighbours whose first byte is needed. -/
theorem drop_first_eq_stripSigned {c s : UInt8} (hcs : c = 0 ∧ s = 0 ∨ c = 0xFF ∧ s = 0x80)
    {bs : Bytes} (hne : bs ≠ []) (hsign : ∀ b ∈ bs.head?, 128 ≤ b.toNat ↔ c = 0xFF) :
    bs.drop (((bs.zip (bs.drop 1)).findIdx? fun (leading, next) =>
      leading != c || next &&& 0x80 != s).getD (bs.length - 1)) = stripSigned bs := by
  induction bs with
  | nil => exact absurd rfl hne
  | cons b bs ih =>
    obtain _ | ⟨n, bs⟩ := bs
    · rfl
    have hb := hsign b rfl
    have hstop : (b != c || n &&& 0x80 != s) = true ↔ ¬ Redundant b n := by
      rw [Bool.or_eq_true, bne_iff_ne, bne_iff_ne, ← not_and_or, Redundant]
      refine not_congr ?_
      rcases hcs with ⟨rfl, rfl⟩ | ⟨rfl, rfl⟩
      · rw [Byte.and_high_eq_zero]
        exact ⟨.inl, fun h => h.resolve_right fun ⟨h, _⟩ => by subst h; cases hb.mp (by decide)⟩
      · rw [Byte.and_high_eq_high]
        exact ⟨.inr, fun h => h.resolve_left fun ⟨h, _⟩ => by subst h; cases hb.mpr rfl⟩
    rw [List.drop_one, List.tail_cons, List.zip_cons_cons, List.findIdx?_cons, stripSigned]
    by_cases hr : Redundant b n
    · have hsign' : ∀ b ∈ (n :: bs).head?, 128 ≤ b.toNat ↔ c = 0xFF := by
        intro _ h
        cases h
        exact hr.high_iff.symm.trans hb
      rw [if_neg fun h => hstop.mp h hr, if_pos hr, ← ih (List.cons_ne_nil _ _) hsign']
      rw [List.drop_one, List.tail_cons]
      generalize List.findIdx? _ ((n :: bs).zip bs) = found
      cases found <;> rfl
    · rw [if_pos (hstop.mpr hr), if_neg hr]
      rfl

theorem findIdx?_getD_le {α : Type} {xs : List α} {p : α → Bool} {d n : Nat} (hxs : xs.length ≤ n)
    (hd : d ≤ n) : (xs.findIdx? p).getD d ≤ n := by
  cases h : xs.findIdx? p with
  | none => exact hd
  | some i => exact (List.findIdx?_eq_some_iff_findIdx_eq.mp h).1.le.trans hxs

theorem any_high_bit (bs : Bytes) :
    (bs.head?.any fun byte => byte &&& 0x80 != 0) = decide (negative bs) := by
  obtain _ | ⟨b, bs⟩ := bs
  · rfl
  · simp only [List.head?_cons, Option.any_some, high_bit, negative_cons]

/-- Sign extension to four bytes. -/
def signExtend (bs : Bytes) : Bytes :=
  List.replicate (4 - bs.length) (if negative bs then 0xFF else 0) ++ bs

theorem decodeSignedI32_eq {bs : Bytes} (off : Nat) (hne : bs ≠ []) :
    decodeSignedI32 bs off =
      if 4 < (stripSigned bs).length then
        let n := (stripSigned bs).length
        .err (.new s!"BER: INTEGER value too large for i32 ({n} bytes) at offset {off}")
      else .ok (i32FromBe (signExtend (stripSigned bs))) := by
  unfold decodeSignedI32
  simp only [any_high_bit, decide_eq_true_eq, List.isEmpty_eq_false_iff.mpr hne,
    Bool.false_eq_true, if_false]
  split
  · rw [sliceFrom?_of_le, Res.expect_some, Res.ok_bind, drop_first_eq_stripSigned _ hne]
    · rfl
    · intro b hb
      have : negative bs ↔ 128 ≤ b.toNat :=
        ⟨fun ⟨_, hb', h⟩ => by cases hb.symm.trans hb'; exact h, fun h => ⟨b, hb, h⟩⟩
      rw [← this]
      split <;> simpa
    · split <;> simp
    · refine findIdx?_getD_le ?_ (Nat.sub_le _ _)
      rw [List.length_zip]
      exact Nat.min_le_left _ _
  · rename_i hlen
    have hone : stripSigned bs = bs := by
      obtain _ | ⟨b, _ | ⟨n, bs⟩⟩ := bs
      · rfl
      · rfl
      · simp at hlen
    rw [hone]
    rfl

theorem decodeSignedI32_eq_ok {bs : Bytes} {off : Nat} {value : Int32} :
    decodeSignedI32 bs off = .ok value ↔ bs ≠ [] ∧ signed bs = value.toInt := by
  by_cases hne : bs = []
  · subst hne
    exact ⟨(nomatch ·), fun h => absurd rfl h.1⟩
  rw [decodeSignedI32_eq off hne, and_iff_right hne]
  have hword : signed (signExtend (stripSigned bs)) = signed bs := by
    rw [signExtend, signed_replicate (stripSigned_ne_nil hne), signed_stripSigned]
  split
  · rename_i hlen
    refine ⟨(nomatch ·), fun h => ?_⟩
    have hlo := value.le_toInt
    have hhi := value.toInt_lt
    have hle := length_stripSigned_le (k := 3) (by rw [h]; omega) (by rw [h]; omega)
    omega
  · rename_i hlen
    have hlen4 : (signExtend (stripSigned bs)).length = 4 := by
      rw [signExtend, List.length_append, List.length_replicate]
      omega
    refine ⟨fun h => ?_, fun h => by rw [i32FromBe_eq hlen4 (hword.trans h)]⟩
    obtain ⟨b, b', hb⟩ := List.exists_cons_of_length_eq_add_one hlen4
    have hr := signed_range b b'
    have hl : b'.length = 3 := by rw [hb] at hlen4; simpa using hlen4
    rw [← hb, hword, hl] at hr
    obtain ⟨value', hv⟩ := exists_int32 (n := signed bs) (by omega) (by omega)
    have hdec := i32FromBe_eq hlen4 (hword.trans hv.symm)
    cases h
    rw [hdec, hv]

/-! ## Unsigned contents -/

/-- The shortest two's-complement contents of an unsigned number given in big-endian bytes. -/
def unsignedContent (raw : Bytes) : Bytes := stripSigned (0 :: raw)

theorem drop_skip_eq_stripZeros (raw : Bytes) :
    raw.drop ((raw.take (raw.length - 1)).takeWhile (· == 0)).length = stripZeros raw := by
  induction raw with
  | nil => rfl
  | cons b raw ih =>
    obtain _ | ⟨n, raw⟩ := raw
    · rfl
    by_cases hb : b = 0
    · subst hb
      rw [stripZeros, ← ih]
      simp
    · rw [stripZeros_of_ne hb]
      simp [hb]

theorem drop_first_eq_stripZeros (bs : Bytes) :
    bs.drop ((bs.findIdx? (· != 0)).getD (bs.length - 1)) = stripZeros bs := by
  induction bs with
  | nil => rfl
  | cons b bs ih =>
    obtain _ | ⟨n, bs⟩ := bs
    · by_cases hb : b = 0 <;> simp [hb, List.findIdx?_cons, stripZeros]
    by_cases hb : b = 0
    · subst hb
      rw [stripZeros, ← ih, List.findIdx?_cons, if_neg (by simp)]
      generalize List.findIdx? _ (n :: bs) = found
      cases found <;> rfl
    · rw [stripZeros_of_ne hb, List.findIdx?_cons, if_pos (by simp [hb])]
      rfl

theorem encodeUnsignedBytes_eq {raw : Bytes} (hne : raw ≠ []) :
    (encodeUnsignedBytes raw : Res ε Bytes) = .ok (unsignedContent raw) := by
  unfold encodeUnsignedBytes
  dsimp only
  rw [sliceFrom?_of_le (skip_le raw), drop_skip_eq_stripZeros, unsignedContent,
    stripSigned_zero_cons hne]
  obtain ⟨b, bs, hb⟩ := List.exists_cons_of_ne_nil (stripZeros_ne_nil hne)
  simp only [Res.expect_some, Res.ok_bind, hb, List.head?_cons, high_bit, decide_eq_true_eq,
    negative_cons]
  split <;> rfl

theorem decodeUnsigned_eq {width : Nat} {b : UInt8} (bs : Bytes) (off : Nat) (hb : b.toNat < 128) :
    decodeUnsigned width (b :: bs) off =
      if width < (stripZeros (b :: bs)).length then
        let bits := width * 8
        let n := (stripZeros (b :: bs)).length
        .err (.new s!"BER: INTEGER value too large for u{bits} ({n} bytes) at offset {off}")
      else .ok (fromBE (b :: bs)) := by
  have hword (sig : Bytes) (h : sig = stripZeros (b :: bs)) :
      fromBE (List.replicate (8 - sig.length) 0 ++ sig) = fromBE (b :: bs) := by
    rw [fromBE_replicate_zero, h, fromBE_stripZeros]
  unfold decodeUnsigned
  simp only [List.head?_cons, high_bit, decide_eq_true_eq, if_neg (Nat.not_le.mpr hb)]
  split
  · rw [sliceFrom?_of_le (findIdx?_getD_le le_rfl (Nat.sub_le _ _)), Res.expect_some,
      Res.ok_bind, drop_first_eq_stripZeros, hword _ rfl]
  · rename_i hlen
    have hone : stripZeros (b :: bs) = b :: bs := by
      obtain _ | ⟨n, bs⟩ := bs
      · rfl
      · simp at hlen
    rw [Res.ok_bind, hone, hword _ hone.symm]

theorem decodeUnsigned_eq_ok {k : Nat} {bs : Bytes} {off v : Nat} :
    decodeUnsigned (k + 1) bs off = .ok v ↔ bs ≠ [] ∧ signed bs = v ∧ v < 256 ^ (k + 1) := by
  obtain _ | ⟨b, bs⟩ := bs
  · exact ⟨(nomatch ·), fun h => absurd rfl h.1⟩
  rw [and_iff_right (List.cons_ne_nil _ _)]
  by_cases hb : 128 ≤ b.toNat
  · have hneg := (signed_neg_iff (b :: bs)).mpr (negative_cons.mpr hb)
    constructor
    · intro h
      simp [decodeUnsigned, high_bit, hb] at h
    · intro h
      omega
  · rw [decodeUnsigned_eq bs off (by omega), signed_cons_of_lt (by omega), Int.natCast_inj]
    split
    · rename_i hlen
      refine ⟨(nomatch ·), ?_⟩
      rintro ⟨rfl, h⟩
      have := length_stripZeros_le h
      omega
    · rename_i hlen
      have hlt := fromBE_lt (stripZeros (b :: bs))
      rw [fromBE_stripZeros] at hlt
      have hle : 256 ^ (stripZeros (b :: bs)).length ≤ 256 ^ (k + 1) :=
        Nat.pow_le_pow_right (by decide) (by omega)
      rw [Res.ok.injEq]
      exact ⟨fun h => ⟨h, h ▸ hlt.trans_le hle⟩, fun h => h.1⟩

theorem decodeUnsignedU32_eq_ok {bs : Bytes} {off : Nat} {v : UInt32} :
    decodeUnsignedU32 bs off = .ok v ↔ bs ≠ [] ∧ signed bs = v.toNat := by
  simp only [decodeUnsignedU32, Res.bind_eq_ok, decodeUnsigned_eq_ok]
  constructor
  · rintro ⟨n, ⟨hne, hs, hlt⟩, h⟩
    have hlt : n < 2 ^ 32 := hlt
    rw [if_pos hlt] at h
    cases h
    rw [UInt32.toNat_ofNat_of_lt' hlt]
    exact ⟨hne, hs⟩
  · rintro ⟨hne, hs⟩
    refine ⟨v.toNat, ⟨hne, hs, v.toNat_lt⟩, ?_⟩
    rw [if_pos v.toNat_lt, UInt32.ofNat_toNat]

theorem decodeUnsignedU64_eq_ok {bs : Bytes} {off : Nat} {v : UInt64} :
    decodeUnsignedU64 bs off = .ok v ↔ bs ≠ [] ∧ signed bs = v.toNat := by
  simp only [decodeUnsignedU64, Res.bind_eq_ok, decodeUnsigned_eq_ok]
  constructor
  · rintro ⟨n, ⟨hne, hs, hlt⟩, h⟩
    cases h
    rw [UInt64.toNat_ofNat_of_lt' hlt]
    exact ⟨hne, hs⟩
  · rintro ⟨hne, hs⟩
    refine ⟨v.toNat, ⟨hne, hs, v.toNat_lt⟩, ?_⟩
    rw [UInt64.ofNat_toNat]

theorem unsignedContent_ne_nil (raw : Bytes) : unsignedContent raw ≠ [] :=
  stripSigned_ne_nil (List.cons_ne_nil _ _)

theorem signed_unsignedContent (k n : Nat) (h : n < 256 ^ k) :
    signed (unsignedContent (toBE k n)) = n := by
  rw [unsignedContent, signed_stripSigned, signed_cons_of_lt (by decide), fromBE_zero_cons,
    fromBE_toBE_of_lt h]

/-! ## The writer -/

theorem encodeLength_ne_err {dest : Bytes} {n : Nat} (e : ε) : encodeLength dest n ≠ .err e := by
  have hzeros : usizeLeadingZeros n / 8 ≤ (toBE 8 n).length := by
    rw [length_toBE, usizeLeadingZeros]
    split <;> omega
  unfold encodeLength
  split
  · exact capped_ne_err
  · simp only [sliceFrom?_of_le hzeros, Res.expect_some, Res.ok_bind, extend, capped_bind_append,
      List.append_assoc]
    exact capped_ne_err

/-- Also for contents that no vector holds: then both sides run out of memory. -/
theorem BerWriter.writeTlv_eq (w : BerWriter) (tag : UInt8) (value : Bytes) :
    (w.writeTlv tag value : Res ε BerWriter) = capped (w ++ tlv tag value) := by
  have htlv : tlv tag value = [tag] ++ (lengthField value.length ++ value) := by simp [tlv, head]
  unfold writeTlv
  by_cases h : value.length < 2 ^ 64
  · simp only [extend, encodeLength_eq _ h, capped_bind_append, List.append_assoc, htlv]
  · have hlong : isizeMax < value.length := by
      simp only [isizeMax]
      omega
    have hpanic (w : Bytes) : (extend w value : Res ε Bytes) = .panic := by
      rw [extend, capped, if_neg (by simp; omega)]
    have hcapped : (capped (w ++ tlv tag value) : Res ε Bytes) = .panic := by
      rw [capped, if_neg (by simp [htlv]; omega)]
    simp only [hpanic, Res.bind_panic encodeLength_ne_err, hcapped]
    exact Res.bind_panic fun _ => capped_ne_err

/-- Contents that are wrapped afterwards need no check of their own. -/
theorem capped_bind_tlv (tag : UInt8) (contents : Bytes) :
    ((capped contents : Res ε Bytes) >>= fun contents => capped (tlv tag contents)) =
      capped (tlv tag contents) :=
  capped_bind (fun _ => rfl) (by rw [length_tlv]; exact le_tlvSize _)

theorem capped_bind_tlv_append (tag : UInt8) (xs ys : Bytes) :
    ((capped xs : Res ε Bytes) >>= fun xs => capped (tlv tag (xs ++ ys))) =
      capped (tlv tag (xs ++ ys)) := by
  refine capped_bind (g := fun xs => tlv tag (xs ++ ys)) (fun _ => rfl) ?_
  have := le_tlvSize (xs ++ ys).length
  rw [List.length_append] at this
  rw [length_tlv, List.length_append]
  omega

namespace BerWriter
variable (w : BerWriter)

@[simp] theorem new_append (bytes : Bytes) : BerWriter.new ++ bytes = bytes := rfl

theorem writeRaw_eq (bytes : Bytes) :
    (w.writeRaw bytes : Res ε BerWriter) = capped (w ++ bytes) := rfl

theorem writeSequence_eq (contents : Bytes) :
    (w.writeSequence contents : Res ε BerWriter) = capped (w ++ tlv tagSequence contents) :=
  writeTlv_eq ..

theorem writeConstructed_eq (tag : UInt8) (contents : Bytes) :
    (w.writeConstructed tag contents : Res ε BerWriter) = capped (w ++ tlv tag contents) :=
  writeTlv_eq ..

theorem writeInteger_eq (value : Int32) :
    (w.writeInteger value : Res ε BerWriter) =
      capped (w ++ tlv tagInteger (integerContent value)) := by
  rw [writeInteger, encodeSignedI32_eq, Res.ok_bind, writeTlv_eq]

theorem writeTaggedUnsigned32_eq (tag : UInt8) (value : UInt32) :
    (w.writeTaggedUnsigned32 tag value : Res ε BerWriter) =
      capped (w ++ tlv tag (unsignedContent (toBE 4 value.toNat))) := by
  rw [writeTaggedUnsigned32, encodeUnsignedU32, encodeUnsignedBytes_eq (by simp [toBE]),
    Res.ok_bind, writeTlv_eq]

theorem writeTaggedUnsigned64_eq (tag : UInt8) (value : UInt64) :
    (w.writeTaggedUnsigned64 tag value : Res ε BerWriter) =
      capped (w ++ tlv tag (unsignedContent (toBE 8 value.toNat))) := by
  rw [writeTaggedUnsigned64, encodeUnsignedU64, encodeUnsignedBytes_eq (by simp [toBE]),
    Res.ok_bind, writeTlv_eq]

theorem writeOctetString_eq (bytes : Bytes) :
    (w.writeOctetString bytes : Res ε BerWriter) = capped (w ++ tlv tagOctetString bytes) :=
  writeTlv_eq ..

theorem writeOid_eq (oid : Oid) :
    (w.writeOid oid : Res ε BerWriter) = capped (w ++ tlv tagOid (encodeOid oid)) :=
  writeTlv_eq ..

end BerWriter

end SnmpAgent
