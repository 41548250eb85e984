import SnmpAgent.Codec.OidCodec

/-!
# What the decoders of contents accept

INTEGER decoders accept every spelling of the numbers in their range and no other byte string, and
the encoders write the shortest spelling. The decoder of object identifiers reads base-128 numerals
modulo `2 ^ 64`; so it is exact except on the numerals that this makes smaller.
-/

namespace SnmpAgent
open Rust

/-! ## INTEGER contents -/

section
variable {α : Type}

/-- A decoder for the numbers from `lo` to `hi`, in any spelling. -/
structure ExactDecoder (decode : Bytes → Res BerError α) (value : α → Int) (lo hi : Int) :
    Prop where
  succeeds : ∀ bytes, (∃ a, decode bytes = .ok a) ↔
    bytes ≠ [] ∧ lo ≤ signed bytes ∧ signed bytes ≤ hi
  returns : ∀ bytes a, decode bytes = .ok a → value a = signed bytes

/-- An encoder that writes the shortest spelling. -/
def MinimalEncoder (encode : α → Res BerError Bytes) (value : α → Int) : Prop :=
  ∀ a, ∃ content, encode a = .ok content ∧ Shortest content (value a)

theorem exactDecoder_of_eq_ok {decode : Bytes → Res BerError α} {value : α → Int} {lo hi : Int}
    (heq : ∀ bytes a, decode bytes = .ok a ↔ bytes ≠ [] ∧ signed bytes = value a)
    (hrange : ∀ n, (∃ a, value a = n) ↔ lo ≤ n ∧ n ≤ hi) : ExactDecoder decode value lo hi where
  succeeds bytes := by
    constructor
    · rintro ⟨a, h⟩
      obtain ⟨hne, hvalue⟩ := (heq bytes a).mp h
      exact ⟨hne, (hrange _).mp ⟨a, hvalue.symm⟩⟩
    · rintro ⟨hne, h⟩
      obtain ⟨a, hvalue⟩ := (hrange _).mpr h
      exact ⟨a, (heq bytes a).mpr ⟨hne, hvalue.symm⟩⟩
  returns bytes a h := ((heq bytes a).mp h).2.symm

end

theorem range_int32 (n : Int) :
    (∃ value : Int32, value.toInt = n) ↔ -2147483648 ≤ n ∧ n ≤ 2147483647 := by
  constructor
  · rintro ⟨value, rfl⟩
    have hlo := value.le_toInt
    have hhi := value.toInt_lt
    omega
  · rintro ⟨hlo, hhi⟩
    exact exists_int32 hlo (by omega)

theorem range_uint32 (n : Int) :
    (∃ value : UInt32, (value.toNat : Int) = n) ↔ 0 ≤ n ∧ n ≤ 4294967295 := by
  constructor
  · rintro ⟨value, rfl⟩
    have := value.toNat_lt
    omega
  · rintro ⟨hlo, hhi⟩
    obtain ⟨k, rfl⟩ := Int.eq_ofNat_of_zero_le hlo
    exact ⟨UInt32.ofNat k, by rw [UInt32.toNat_ofNat_of_lt' (by change k < 2 ^ 32; omega)]⟩

theorem range_uint64 (n : Int) :
    (∃ value : UInt64, (value.toNat : Int) = n) ↔ 0 ≤ n ∧ n ≤ 18446744073709551615 := by
  constructor
  · rintro ⟨value, rfl⟩
    have := value.toNat_lt
    omega
  · rintro ⟨hlo, hhi⟩
    obtain ⟨k, rfl⟩ := Int.eq_ofNat_of_zero_le hlo
    exact ⟨UInt64.ofNat k, by rw [UInt64.toNat_ofNat_of_lt' (by change k < 2 ^ 64; omega)]⟩

theorem minimal_encodeUnsignedBytes {k n : Nat} (hk : k ≠ 0) (h : n < 256 ^ k) :
    ∃ content, (encodeUnsignedBytes (toBE k n) : Res BerError Bytes) = .ok content ∧
      Shortest content n := by
  have hne : toBE k n ≠ [] := by
    rw [← List.length_pos_iff, length_toBE]
    exact Nat.pos_of_ne_zero hk
  have hvalue : signed (0 :: toBE k n) = n := by
    rw [signed_cons_of_lt (by decide), fromBE_zero_cons, fromBE_toBE_of_lt h]
  exact ⟨_, encodeUnsignedBytes_eq hne, hvalue ▸ shortest_stripSigned (List.cons_ne_nil _ _)⟩

/-- **INTEGERs.** The decoders accept the numbers of their types in every spelling, and the encoders
write the shortest one. -/
theorem integer_codecs_exact (off : Nat) :
    ExactDecoder (decodeSignedI32 · off) Int32.toInt (-2147483648) 2147483647 ∧
    ExactDecoder (decodeUnsignedU32 · off) (·.toNat) 0 4294967295 ∧
    ExactDecoder (decodeUnsignedU64 · off) (·.toNat) 0 18446744073709551615 ∧
    MinimalEncoder encodeSignedI32 Int32.toInt ∧
    MinimalEncoder encodeUnsignedU32 (·.toNat) ∧
    MinimalEncoder encodeUnsignedU64 (·.toNat) := by
  refine ⟨exactDecoder_of_eq_ok (fun _ _ => decodeSignedI32_eq_ok) range_int32,
    exactDecoder_of_eq_ok (fun _ _ => decodeUnsignedU32_eq_ok) range_uint32,
    exactDecoder_of_eq_ok (fun _ _ => decodeUnsignedU64_eq_ok) range_uint64,
    fun value => ?_, fun value => ?_, fun value => ?_⟩
  · have hne : i32ToBe value ≠ [] := List.ne_nil_of_length_pos (by simp)
    have h := shortest_stripSigned hne
    rw [signed_i32ToBe] at h
    exact ⟨_, encodeSignedI32_eq value, h⟩
  · exact minimal_encodeUnsignedBytes (by decide) value.toNat_lt
  · exact minimal_encodeUnsignedBytes (by decide) value.toNat_lt

/-! ## Object identifiers -/

/-- The numbers that a byte string spells in base 128, the first one read on from `acc`. A byte with
a clear high bit ends a number. -/
def subIdentifiersFrom (acc : Nat) : Bytes → List Nat
  | [] => []
  | byte :: bytes =>
    if byte.toNat < 128 then (acc * 128 + byte.toNat % 128) :: subIdentifiersFrom 0 bytes
    else subIdentifiersFrom (acc * 128 + byte.toNat % 128) bytes

def subIdentifiers (bytes : Bytes) : List Nat := subIdentifiersFrom 0 bytes

/-- The last number of the byte string is complete. -/
def Terminated (bytes : Bytes) : Prop := ∃ byte ∈ bytes.getLast?, byte.toNat < 128

/-- X.690, 8.19.4: the first two arcs are sent as one number. Only three values are in use for the
first, and below the first two of them at most 39 for the second. -/
structure Combined (firstArc secondArc firstCombined : Nat) : Prop where
  eq : firstCombined = firstArc * 40 + secondArc
  first_le : firstArc ≤ 2
  second_lt : firstArc < 2 → secondArc < 40

/-- The first arc in such a number. -/
def firstArcOf (firstCombined : Nat) : Nat := min (firstCombined / 40) 2

/-- The second arc in such a number. -/
def secondArcOf (firstCombined : Nat) : Nat := firstCombined - firstArcOf firstCombined * 40

/-- Every number stands for one pair of arcs. -/
theorem combined_iff {firstArc secondArc firstCombined : Nat} :
    Combined firstArc secondArc firstCombined ↔
      firstArc = firstArcOf firstCombined ∧ secondArc = secondArcOf firstCombined := by
  simp only [firstArcOf, secondArcOf]
  constructor
  · rintro ⟨heq, hfirst, hsecond⟩
    omega
  · rintro ⟨hfirst, hsecond⟩
    exact ⟨by omega, by omega, by omega⟩

/-- The arcs of sub-identifiers: the first one holds two of them. -/
def arcsOf : List Nat → List Nat
  | [] => []
  | firstCombined :: subIds => firstArcOf firstCombined :: secondArcOf firstCombined :: subIds

/-- The decoder takes the number apart in the same way. -/
theorem splitFirst_eq (firstCombined : Nat) :
    splitFirst firstCombined = (firstArcOf firstCombined, secondArcOf firstCombined) := by
  simp only [splitFirst, firstArcOf, secondArcOf]
  split
  · rw [Prod.mk.injEq]
    omega
  split <;> rw [Prod.mk.injEq] <;> omega

/-- Arcs of an object identifier as far as their number and size go. -/
def ArcsFit (arcs : List Nat) : Prop :=
  arcs.length ≤ maxOidSubIdentifiers ∧ ∀ arc ∈ arcs, arc < 2 ^ 32

/-- What `decode_oid` does with a byte string is what the numbers in it say. -/
structure OidExact (off : Nat) (bytes : Bytes) : Prop where
  succeeds : (∃ oid, decodeOid bytes off = .ok oid) ↔
    bytes ≠ [] ∧ Terminated bytes ∧ ArcsFit (arcsOf (subIdentifiers bytes))
  returns : ∀ oid, decodeOid bytes off = .ok oid →
    oid.arcs.map UInt32.toNat = arcsOf (subIdentifiers bytes)

/-- A number of the byte string does not fit into a `u64`, and without the bits that are lost all of
them make an object identifier. -/
def Overflows (bytes : Bytes) : Prop :=
  Terminated bytes ∧ (∃ subId ∈ subIdentifiers bytes, 2 ^ 64 ≤ subId) ∧
    ArcsFit (arcsOf ((subIdentifiers bytes).map (· % 2 ^ 64)))

theorem Terminated.ne_nil {bytes : Bytes} (h : Terminated bytes) : bytes ≠ [] := by
  rintro rfl
  obtain ⟨_, h, -⟩ := h
  cases h

theorem terminated_cons_cons {byte next : UInt8} {bytes : Bytes} :
    Terminated (byte :: next :: bytes) ↔ Terminated (next :: bytes) := by
  unfold Terminated
  rw [List.getLast?_cons_cons]

/-- The accumulator of the loop holds the number read so far, as far as it fits. -/
theorem decodeBase128Loop_mod (off : Nat) (byte : UInt8) (bytes : Bytes) (acc n : Nat) :
    decodeBase128Loop off (byte :: bytes) (acc % 2 ^ 64) n =
      if byte.toNat < 128 then .ok ((acc * 128 + byte.toNat % 128) % 2 ^ 64, n + 1)
      else decodeBase128Loop off bytes ((acc * 128 + byte.toNat % 128) % 2 ^ 64) (n + 1) := by
  have hadd : checkedAdd (acc % 2 ^ 64 * 128 % 2 ^ 64) (byte.toNat % 128) =
      some ((acc * 128 + byte.toNat % 128) % 2 ^ 64) := by
    have hsum : acc % 2 ^ 64 * 128 % 2 ^ 64 + byte.toNat % 128 =
        (acc * 128 + byte.toNat % 128) % 2 ^ 64 := by omega
    rw [checkedAdd, hsum]
    exact if_pos (Nat.mod_lt _ (by decide))
  rw [decodeBase128Loop]
  simp only [Byte.toNat_and_low, hadd, Res.okOr_some, Res.ok_bind, high_bit_clear,
    decide_eq_true_eq]

/-- The loop takes the first number off the front, or it finds that the number is not complete. -/
theorem decodeBase128Loop_cases (off : Nat) (bytes : Bytes) (acc n : Nat) :
    (∃ value k rest, decodeBase128Loop off bytes (acc % 2 ^ 64) n = .ok (value % 2 ^ 64, n + k) ∧
      0 < k ∧ k ≤ bytes.length ∧ bytes.drop k = rest ∧
      subIdentifiersFrom acc bytes = value :: subIdentifiersFrom 0 rest ∧
      (Terminated bytes ↔ rest = [] ∨ Terminated rest)) ∨
    ((∃ e, decodeBase128Loop off bytes (acc % 2 ^ 64) n = .err e) ∧ ¬ Terminated bytes) := by
  induction bytes generalizing acc n with
  | nil => exact .inr ⟨⟨_, rfl⟩, fun h => h.ne_nil rfl⟩
  | cons byte bytes ih =>
    rw [decodeBase128Loop_mod]
    by_cases hlast : byte.toNat < 128
    · rw [if_pos hlast]
      refine .inl ⟨_, 1, bytes, rfl, Nat.one_pos, by simp, rfl, ?_, ?_⟩
      · rw [subIdentifiersFrom, if_pos hlast]
      · cases bytes with
        | nil => simp [Terminated, hlast]
        | cons next bytes => rw [terminated_cons_cons]; simp
    · rw [if_neg hlast]
      -- A byte that is not the last of its number only matters with what follows it.
      have hterminated : Terminated (byte :: bytes) ↔ Terminated bytes := by
        cases bytes with
        | nil => simp [Terminated, hlast]
        | cons next bytes => exact terminated_cons_cons
      rcases ih (acc * 128 + byte.toNat % 128) (n + 1) with
        ⟨value, k, rest, hloop, hpos, hle, hdrop, hvalues, hrest⟩ | ⟨herr, hnot⟩
      · refine .inl ⟨value, k + 1, rest, ?_, Nat.succ_pos k, Nat.succ_le_succ hle, hdrop, ?_, ?_⟩
        · rw [hloop, Nat.add_assoc, Nat.add_comm 1]
        · rw [subIdentifiersFrom, if_neg hlast, hvalues]
        · rw [hterminated, hrest]
      · exact .inr ⟨herr, hterminated.not.mpr hnot⟩

theorem decodeSubIdentifiers_eq_ok {off fuel : Nat} {bytes : Bytes} {subIds : List Nat}
    (hfuel : bytes.length ≤ fuel) :
    decodeSubIdentifiers off fuel bytes = .ok subIds ↔
      (bytes = [] ∨ Terminated bytes) ∧ subIds = (subIdentifiers bytes).map (· % 2 ^ 64) := by
  induction fuel generalizing bytes subIds with
  | zero =>
    obtain rfl := List.length_eq_zero_iff.mp (Nat.le_zero.mp hfuel)
    simp [decodeSubIdentifiers, subIdentifiers, subIdentifiersFrom, eq_comm]
  | succ fuel ih =>
    cases bytes with
    | nil => simp [decodeSubIdentifiers, subIdentifiers, subIdentifiersFrom, eq_comm]
    | cons byte bytes =>
      rcases decodeBase128Loop_cases off (byte :: bytes) 0 0 with
        ⟨value, k, rest, hloop, hpos, hle, hdrop, hvalues, hrest⟩ | ⟨⟨e, herr⟩, hnot⟩
      · rw [Nat.zero_mod, Nat.zero_add] at hloop
        have hslice : sliceFrom? (byte :: bytes) k = some rest := by
          rw [sliceFrom?_of_le hle, hdrop]
        have hlen : rest.length ≤ fuel := by
          rw [← hdrop, List.length_drop]
          omega
        rw [decodeSubIdentifiers_of_decode fuel (List.cons_ne_nil _ _) hloop (Nat.ne_of_gt hpos)
          hslice, Res.bind_eq_ok]
        have hvalues : subIdentifiers (byte :: bytes) = value :: subIdentifiers rest := hvalues
        simp only [ih hlen, hrest, hvalues, reduceCtorEq, false_or, List.map_cons, Res.ok.injEq]
        constructor
        · rintro ⟨_, ⟨h, rfl⟩, rfl⟩
          exact ⟨h, rfl⟩
        · rintro ⟨h, rfl⟩
          exact ⟨_, ⟨h, rfl⟩, rfl⟩
      · have herr : decodeBase128 (byte :: bytes) off = .err e := by
          rwa [Nat.zero_mod] at herr
        simp [decodeSubIdentifiers, herr, hnot]

theorem arcToU32_eq_ok {name : String} {off arc : Nat} {v : UInt32} :
    arcToU32 name off arc = .ok v ↔ v.toNat = arc := by
  constructor
  · intro h
    obtain ⟨hlt, h⟩ := Res.guard_not_eq_ok.mp h
    cases h
    exact UInt32.toNat_ofNat_of_lt' hlt
  · rintro rfl
    rw [arcToU32, if_pos v.toNat_lt, UInt32.ofNat_toNat]

theorem arcsToU32_eq_ok {off : Nat} {subIds : List Nat} {arcs : List UInt32} :
    arcsToU32 off subIds = .ok arcs ↔ arcs.map UInt32.toNat = subIds := by
  constructor
  · intro h
    induction subIds generalizing arcs with
    | nil =>
      cases h
      rfl
    | cons subId subIds ih =>
      simp only [arcsToU32, Res.bind_eq_ok, arcToU32_eq_ok, Res.ok.injEq] at h
      obtain ⟨arc, rfl, arcs, harcs, rfl⟩ := h
      rw [List.map_cons, ih harcs]
  · rintro rfl
    exact arcsToU32_map off arcs

theorem decodeOid_eq_ok {off : Nat} {bytes : Bytes} {oid : Oid} :
    decodeOid bytes off = .ok oid ↔ Terminated bytes ∧
      oid.arcs.map UInt32.toNat = arcsOf ((subIdentifiers bytes).map (· % 2 ^ 64)) := by
  by_cases hne : bytes = []
  · subst hne
    exact ⟨(nomatch ·), fun h => absurd rfl h.1.ne_nil⟩
  have hempty : bytes.isEmpty = false := List.isEmpty_eq_false_iff.mpr hne
  simp only [decodeOid, hempty, Bool.false_eq_true, if_false, Res.bind_eq_ok,
    decodeSubIdentifiers_eq_ok le_rfl, or_iff_right hne]
  cases hsub : (subIdentifiers bytes).map (· % 2 ^ 64) with
  | nil =>
    -- An object identifier has arcs.
    have harcs : oid.arcs.map UInt32.toNat ≠ arcsOf [] := by
      rw [Oid.arcs_eq]
      exact List.cons_ne_nil _ _
    constructor
    · rintro ⟨_, ⟨-, rfl⟩, h⟩
      cases h
    · exact fun h => absurd h.2 harcs
  | cons firstCombined subIds =>
    constructor
    · rintro ⟨_, ⟨hterminated, rfl⟩, h⟩
      simp only [Res.bind_eq_ok, arcToU32_eq_ok, arcsToU32_eq_ok, splitFirst_eq] at h
      obtain ⟨firstArc, hfirst, secondArc, hsecond, arcs, harcs, h⟩ := h
      refine ⟨hterminated, ?_⟩
      split at h
      · rename_i htry
        cases h
        rw [Oid.tryFrom_eq_ok.mp htry, List.map_cons, List.map_cons, hfirst, hsecond, harcs, arcsOf]
      · cases h
    · rintro ⟨hterminated, harcs⟩
      refine ⟨_, ⟨hterminated, rfl⟩, ?_⟩
      rw [Oid.arcs_eq] at harcs
      simp only [arcsOf, List.map_cons, List.cons.injEq] at harcs
      obtain ⟨hfirst, hsecond, hrest⟩ := harcs
      simp only [Res.bind_eq_ok, arcToU32_eq_ok, arcsToU32_eq_ok, splitFirst_eq]
      refine ⟨_, hfirst, _, hsecond, _, hrest, ?_⟩
      rw [← Oid.arcs_eq, Oid.tryFrom_arcs]

/-- The arcs of sub-identifiers only have to fit. -/
theorem exists_oid_arcsOf {subIds : List Nat} (hne : subIds ≠ []) :
    (∃ oid : Oid, oid.arcs.map UInt32.toNat = arcsOf subIds) ↔ ArcsFit (arcsOf subIds) := by
  constructor
  · rintro ⟨oid, h⟩
    rw [← h]
    refine ⟨?_, fun arc harc => ?_⟩
    · rw [List.length_map]
      exact oid.length_le
    · obtain ⟨arc, -, rfl⟩ := List.mem_map.mp harc
      exact arc.toNat_lt
  · rintro ⟨hlen, hfit⟩
    obtain ⟨firstCombined, subIds, rfl⟩ := List.exists_cons_of_ne_nil hne
    have hcombined : Combined _ _ firstCombined := combined_iff.mpr ⟨rfl, rfl⟩
    have hmap : ((arcsOf (firstCombined :: subIds)).map UInt32.ofNat).map UInt32.toNat =
        arcsOf (firstCombined :: subIds) := by
      rw [List.map_map]
      refine (List.map_congr_left fun arc harc => ?_).trans (List.map_id _)
      exact UInt32.toNat_ofNat_of_lt' (hfit arc harc)
    refine ⟨⟨(arcsOf (firstCombined :: subIds)).map UInt32.ofNat, ?_⟩, hmap⟩
    simp only [arcsOf, List.map_cons, List.cons.injEq] at hmap
    obtain ⟨h1, h2, -⟩ := hmap
    simp only [arcsOf, List.map_cons, validateOidComponents]
    rw [if_neg, if_neg, if_neg]
    · simpa [arcsOf] using hlen
    · rintro ⟨hle, hlt⟩
      rw [UInt32.le_iff_toNat_le, h1] at hle
      rw [UInt32.lt_iff_toNat_lt, h2] at hlt
      exact absurd (hcombined.second_lt (Nat.lt_succ_of_le hle)) (Nat.not_lt.mpr hlt)
    · rw [UInt32.lt_iff_toNat_lt, h1]
      exact Nat.not_lt.mpr hcombined.first_le

theorem subIdentifiers_ne_nil {bytes : Bytes} (h : Terminated bytes) :
    subIdentifiers bytes ≠ [] := by
  rcases decodeBase128Loop_cases 0 bytes 0 0 with ⟨_, _, _, -, -, -, -, hvalues, -⟩ | ⟨-, hnot⟩
  · rw [subIdentifiers, hvalues]
    exact List.cons_ne_nil _ _
  · exact absurd h hnot

/-- A sub-identifier that is too large for a `u64` is too large for an arc. -/
theorem lt_of_arcsFit {subIds : List Nat} (h : ArcsFit (arcsOf subIds)) :
    ∀ subId ∈ subIds, subId < 2 ^ 64 := by
  obtain _ | ⟨firstCombined, subIds⟩ := subIds
  · exact fun _ h => absurd h List.not_mem_nil
  have hsecond := h.2 (secondArcOf firstCombined) (by simp [arcsOf])
  obtain ⟨heq, hfirst, -⟩ : Combined _ _ firstCombined := combined_iff.mpr ⟨rfl, rfl⟩
  rw [List.forall_mem_cons]
  refine ⟨by omega, fun subId hmem => ?_⟩
  have := h.2 subId (by simp [arcsOf, hmem])
  omega

/-- **Object identifiers.** Decoding is exact, except where a number of the byte string overflows
without being noticed. -/
theorem decodeOid_exact_iff (off : Nat) (bytes : Bytes) :
    OidExact off bytes ↔ ¬ Overflows bytes := by
  constructor
  · rintro H ⟨hterminated, ⟨subId, hmem, hlarge⟩, hfit⟩
    have hne : (subIdentifiers bytes).map (· % 2 ^ 64) ≠ [] := by
      simpa using subIdentifiers_ne_nil hterminated
    obtain ⟨oid, hoid⟩ := (exists_oid_arcsOf hne).mpr hfit
    have hspec := H.succeeds.mp ⟨oid, decodeOid_eq_ok.mpr ⟨hterminated, hoid⟩⟩
    exact absurd (lt_of_arcsFit hspec.2.2 subId hmem) (Nat.not_lt.mpr hlarge)
  · intro hno
    -- Where no number is too large nothing is lost.
    have hmod (h : ∀ subId ∈ subIdentifiers bytes, subId < 2 ^ 64) :
        (subIdentifiers bytes).map (· % 2 ^ 64) = subIdentifiers bytes :=
      (List.map_congr_left fun subId hmem => Nat.mod_eq_of_lt (h subId hmem)).trans (List.map_id _)
    have hsmall {oid : Oid} (h : decodeOid bytes off = .ok oid) :
        Terminated bytes ∧ oid.arcs.map UInt32.toNat = arcsOf (subIdentifiers bytes) := by
      obtain ⟨hterminated, hoid⟩ := decodeOid_eq_ok.mp h
      have hne : (subIdentifiers bytes).map (· % 2 ^ 64) ≠ [] := by
        simpa using subIdentifiers_ne_nil hterminated
      have hall : ∀ subId ∈ subIdentifiers bytes, subId < 2 ^ 64 := by
        intro subId hmem
        by_contra hlarge
        exact hno ⟨hterminated, ⟨subId, hmem, Nat.not_lt.mp hlarge⟩,
          (exists_oid_arcsOf hne).mp ⟨oid, hoid⟩⟩
      exact ⟨hterminated, hmod hall ▸ hoid⟩
    refine ⟨⟨?_, ?_⟩, fun oid h => (hsmall h).2⟩
    · rintro ⟨oid, h⟩
      obtain ⟨hterminated, hoid⟩ := hsmall h
      exact ⟨hterminated.ne_nil, hterminated,
        (exists_oid_arcsOf (subIdentifiers_ne_nil hterminated)).mp ⟨oid, hoid⟩⟩
    · rintro ⟨-, hterminated, hfit⟩
      obtain ⟨oid, hoid⟩ := (exists_oid_arcsOf (subIdentifiers_ne_nil hterminated)).mpr hfit
      refine ⟨oid, decodeOid_eq_ok.mpr ⟨hterminated, ?_⟩⟩
      rw [hmod (lt_of_arcsFit hfit), hoid]

/-- The identifier 1.3 and a third sub-identifier `2 ^ 64 + 5` are decoded as 1.3.5. -/
theorem overflowing_oid_accepted :
    let bytes : Bytes := [0x2B, 0x82, 0x80, 0x80, 0x80, 0x80, 0x80, 0x80, 0x80, 0x80, 0x05]
    subIdentifiers bytes = [43, 2 ^ 64 + 5] ∧ decodeOid bytes 0 = .ok ⟨[1, 3, 5], rfl⟩ ∧
      ¬ OidExact 0 bytes := by
  intro bytes
  have hdecode : decodeOid bytes 0 = .ok ⟨[1, 3, 5], rfl⟩ := by decide +kernel
  refine ⟨by decide +kernel, hdecode, fun H => ?_⟩
  have harcs := H.returns _ hdecode
  revert harcs
  decide +kernel

end SnmpAgent
