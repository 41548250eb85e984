import SnmpAgent.Codec.BerLemmas

/-!
# OBJECT IDENTIFIER contents

`decodeOid` inverts `encodeOid` (`decodeOid_encodeOid`). Sub-identifiers are base-128 numerals in
which only the last byte has a clear high bit; a `u64` never takes more than ten of them, so the
loop of `encodeBase128` ends within its fuel and the accumulator of `decodeBase128` never loses a
bit on what the encoder wrote.
-/

namespace SnmpAgent
open Rust

/-! ## Base-128 numerals -/

/-- The value of big-endian groups of seven bits, read on from `acc`. -/
def fromBase128 (acc : Nat) (groups : Bytes) : Nat :=
  groups.foldl (fun acc group => acc * 128 + group.toNat) acc

theorem le_fromBase128 (acc : Nat) (groups : Bytes) : acc ≤ fromBase128 acc groups := by
  induction groups generalizing acc with
  | nil => exact le_rfl
  | cons g gs ih =>
    refine le_trans ?_ (ih (acc * 128 + g.toNat))
    omega

theorem base128Groups_lt (fuel v : Nat) : ∀ g ∈ base128Groups fuel v, g.toNat < 128 := by
  induction fuel generalizing v with
  | zero => simp [base128Groups]
  | succ fuel ih =>
    unfold base128Groups
    split
    · intro g hg
      rcases List.mem_cons.mp hg with rfl | hg
      · rw [Byte.toNat_ofNat (by omega)]
        omega
      · exact ih _ g hg
    · simp

theorem length_base128Groups_le {fuel v k : Nat} (h : v < 128 ^ k) :
    (base128Groups fuel v).length ≤ k := by
  induction fuel generalizing v k with
  | zero => simp [base128Groups]
  | succ fuel ih =>
    unfold base128Groups
    split
    · obtain _ | k := k
      · omega
      rw [List.length_cons]
      exact Nat.succ_le_succ (ih (by rw [Nat.div_lt_iff_lt_mul (by decide), ← pow_succ]; exact h))
    · simp

theorem fromBase128_groups {fuel v : Nat} (h : v < 128 ^ fuel) :
    fromBase128 0 (base128Groups fuel v).reverse = v := by
  rw [fromBase128, List.foldl_reverse]
  induction fuel generalizing v with
  | zero => simp at h; simp [base128Groups, h]
  | succ fuel ih =>
    unfold base128Groups
    split
    · have hlt : v / 128 < 128 ^ fuel := by
        rw [Nat.div_lt_iff_lt_mul (by decide), ← pow_succ]
        exact h
      rw [List.foldr_cons, ih hlt, Byte.toNat_ofNat (by omega)]
      omega
    · simp
      omega

theorem decodeBase128Loop_cons {byte : UInt8} {acc : Nat} (off : Nat) (bytes : Bytes) (n : Nat)
    (h : acc * 128 + byte.toNat % 128 < 2 ^ 64) :
    decodeBase128Loop off (byte :: bytes) acc n =
      if byte.toNat < 128 then .ok (acc * 128 + byte.toNat % 128, n + 1)
      else decodeBase128Loop off bytes (acc * 128 + byte.toNat % 128) (n + 1) := by
  have hadd : checkedAdd (acc * 128 % 2 ^ 64) (byte.toNat % 128) =
      some (acc * 128 + byte.toNat % 128) := by
    rw [Nat.mod_eq_of_lt (by omega)]
    exact if_pos h
  rw [decodeBase128Loop]
  simp only [Byte.toNat_and_low, hadd, Res.okOr_some, Res.ok_bind, high_bit_clear,
    decide_eq_true_eq]

/-- The decoding loop on groups of which all but the last carry the continuation bit. -/
theorem decodeBase128Loop_append {hs : Bytes} {g : UInt8} {acc n : Nat} (off : Nat) (rest : Bytes)
    (hhs : ∀ h ∈ hs, h.toNat < 128) (hg : g.toNat < 128)
    (hlt : fromBase128 acc (hs ++ [g]) < 2 ^ 64) :
    decodeBase128Loop off (hs.map (· + 0x80) ++ g :: rest) acc n =
      .ok (fromBase128 acc (hs ++ [g]), n + hs.length + 1) := by
  induction hs generalizing acc n with
  | nil =>
    have hgroup : acc * 128 + g.toNat % 128 = fromBase128 acc ([] ++ [g]) := by
      rw [Nat.mod_eq_of_lt hg]
      rfl
    rw [List.map_nil, List.nil_append, decodeBase128Loop_cons off rest n (hgroup ▸ hlt),
      if_pos hg, hgroup]
    rfl
  | cons h hs ih =>
    have hh := hhs h List.mem_cons_self
    have hbyte : (h + 0x80).toNat = h.toNat + 128 := by
      rw [UInt8.toNat_add]
      exact Nat.mod_eq_of_lt (by change h.toNat + 128 < 256; omega)
    have hgroup : acc * 128 + (h + 0x80).toNat % 128 = acc * 128 + h.toNat := by omega
    have hle := le_fromBase128 (acc * 128 + h.toNat) (hs ++ [g])
    rw [List.map_cons, List.cons_append, decodeBase128Loop_cons _ _ _
      (by rw [hgroup]; exact hle.trans_lt hlt), if_neg (by omega), hgroup,
      ih (fun k hk => hhs k (List.mem_cons_of_mem _ hk)) hlt]
    simp only [List.length_cons, fromBase128, List.cons_append, List.foldl_cons]
    congr 2
    omega

theorem decodeBase128_encodeBase128 {v : Nat} (off : Nat) (rest : Bytes) (h : v < 2 ^ 64) :
    decodeBase128 (encodeBase128 v ++ rest) off = .ok (v, (encodeBase128 v).length) := by
  unfold encodeBase128 decodeBase128
  split
  · rename_i h0
    subst h0
    rfl
  · rename_i h0
    have hval := fromBase128_groups (by omega : v < 128 ^ 10)
    have hlt := base128Groups_lt 10 v
    cases hgs : base128Groups 10 v with
    | nil =>
      rw [hgs] at hval
      exact absurd hval.symm h0
    | cons g gs =>
      rw [hgs] at hval hlt
      rw [List.reverse_cons] at hval
      rw [emitGroups, List.append_assoc, List.singleton_append,
        decodeBase128Loop_append off rest
          (fun k hk => hlt k (List.mem_cons_of_mem _ (List.mem_reverse.mp hk)))
          (hlt g List.mem_cons_self) (by rw [hval]; exact h), hval]
      simp

theorem length_emitGroups (gs : Bytes) : (emitGroups gs).length = gs.length := by
  cases gs <;> simp [emitGroups]

theorem encodeBase128_ne_nil (v : Nat) : encodeBase128 v ≠ [] := by
  unfold encodeBase128
  split
  · exact List.cons_ne_nil _ _
  · rename_i h0
    rw [base128Groups, if_pos (Nat.pos_of_ne_zero h0), emitGroups]
    exact List.append_ne_nil_of_right_ne_nil _ (List.cons_ne_nil _ _)

theorem length_encodeBase128_le {v k : Nat} (h : v < 128 ^ (k + 1)) :
    (encodeBase128 v).length ≤ k + 1 := by
  unfold encodeBase128
  split
  · simp
  · rw [length_emitGroups]
    exact length_base128Groups_le h

/-! ## The list of sub-identifiers -/

/-- One round of the loop. -/
theorem decodeSubIdentifiers_of_decode {bytes rest : Bytes} {off subId bytesConsumed : Nat}
    (fuel : Nat) (hne : bytes ≠ []) (hdec : decodeBase128 bytes off = .ok (subId, bytesConsumed))
    (hpos : bytesConsumed ≠ 0) (hslice : sliceFrom? bytes bytesConsumed = some rest) :
    decodeSubIdentifiers off (fuel + 1) bytes =
      (decodeSubIdentifiers off fuel rest >>= fun subIds => .ok (subId :: subIds)) := by
  obtain ⟨byte, bytes, rfl⟩ := List.exists_cons_of_ne_nil hne
  simp only [decodeSubIdentifiers, hdec, Res.ok_bind, if_neg hpos, hslice, Res.expect_some]

theorem decodeSubIdentifiers_flatMap {vs : List Nat} {fuel : Nat} (off : Nat)
    (hvs : ∀ v ∈ vs, v < 2 ^ 64) (hfuel : (vs.flatMap encodeBase128).length ≤ fuel) :
    decodeSubIdentifiers off fuel (vs.flatMap encodeBase128) = .ok vs := by
  induction vs generalizing fuel with
  | nil => cases fuel <;> rfl
  | cons v vs ih =>
    obtain ⟨b, bs, hb⟩ := List.exists_cons_of_ne_nil (encodeBase128_ne_nil v)
    have hdec := decodeBase128_encodeBase128 off (vs.flatMap encodeBase128)
      (hvs v List.mem_cons_self)
    rw [List.flatMap_cons, List.length_append] at hfuel
    rw [List.flatMap_cons]
    obtain _ | fuel := fuel
    · simp [hb] at hfuel
    have hpos : (encodeBase128 v).length ≠ 0 := by simp [hb]
    have ih := @ih fuel (fun v hv => hvs v (List.mem_cons_of_mem _ hv)) (by omega)
    generalize hrest : vs.flatMap encodeBase128 = rest at *
    have hslice : sliceFrom? (encodeBase128 v ++ rest) (encodeBase128 v).length = some rest := by
      rw [sliceFrom?_of_le (by simp), List.drop_left]
    rw [decodeSubIdentifiers_of_decode fuel (by simp [hb]) hdec hpos hslice, ih, Res.ok_bind]

theorem arcsToU32_map (off : Nat) (arcs : List UInt32) :
    arcsToU32 off (arcs.map UInt32.toNat) = .ok arcs := by
  induction arcs with
  | nil => rfl
  | cons a arcs ih => simp [arcsToU32, arcToU32, ih, a.toNat_lt]

theorem splitFirst_combined {first second : Nat} (h : first ≤ 2) (h' : first ≤ 1 → second ≤ 39) :
    splitFirst (first * 40 + second) = (first, second) := by
  unfold splitFirst
  split
  · exact Prod.ext (by omega) (by omega)
  split
  · exact Prod.ext (by simp; omega) (by simp; omega)
  · exact Prod.ext (by simp; omega) (by simp; omega)

theorem encodeOid_eq (oid : Oid) : encodeOid oid =
    ((oid.decompose.1.toNat * 40 + oid.decompose.2.1.toNat) ::
      oid.decompose.2.2.map UInt32.toNat).flatMap encodeBase128 := by
  rw [List.flatMap_cons, List.flatMap_map]
  rfl

theorem encodeOid_ne_nil (oid : Oid) : encodeOid oid ≠ [] := by
  rw [encodeOid_eq, List.flatMap_cons]
  exact List.append_ne_nil_of_left_ne_nil (encodeBase128_ne_nil _) _

theorem decodeOid_encodeOid (oid : Oid) (off : Nat) : decodeOid (encodeOid oid) off = .ok oid := by
  have hempty : (encodeOid oid).isEmpty = false := by
    rw [List.isEmpty_eq_false_iff]
    exact encodeOid_ne_nil oid
  obtain ⟨hfirst, hsecond, -⟩ := oid.decompose_valid
  have hsub : decodeSubIdentifiers off (encodeOid oid).length (encodeOid oid) =
      .ok ((oid.decompose.1.toNat * 40 + oid.decompose.2.1.toNat) ::
        oid.decompose.2.2.map UInt32.toNat) := by
    rw [encodeOid_eq]
    refine decodeSubIdentifiers_flatMap off (fun v hv => ?_) le_rfl
    rcases List.mem_cons.mp hv with rfl | hv
    · have h1 : oid.decompose.1.toNat ≤ 2 := hfirst
      have h2 := oid.decompose.2.1.toNat_lt
      omega
    · obtain ⟨arc, -, rfl⟩ := List.mem_map.mp hv
      have := arc.toNat_lt
      omega
  have hsplit : splitFirst (oid.decompose.1.toNat * 40 + oid.decompose.2.1.toNat) =
      (oid.decompose.1.toNat, oid.decompose.2.1.toNat) := splitFirst_combined hfirst hsecond
  simp only [decodeOid, hempty, hsub, Res.ok_bind, hsplit, arcToU32, UInt32.toNat_lt, if_true,
    UInt32.ofNat_toNat, arcsToU32_map, ← Oid.arcs_eq, Oid.tryFrom_arcs, Bool.false_eq_true,
    if_false]

/-- Five bytes for each arc are enough: the first two share a sub-identifier. -/
theorem length_encodeOid_le (oid : Oid) : (encodeOid oid).length ≤ oid.arcs.length * 5 := by
  have hfirst : oid.decompose.1.toNat ≤ 2 := oid.decompose_valid.1
  have hsecond := oid.decompose.2.1.toNat_lt
  have hhead := length_encodeBase128_le (k := 4)
    (v := oid.decompose.1.toNat * 40 + oid.decompose.2.1.toNat) (by omega)
  have hrest (arcs : List UInt32) :
      ((arcs.map UInt32.toNat).flatMap encodeBase128).length ≤ arcs.length * 5 := by
    induction arcs with
    | nil => simp
    | cons a arcs ih =>
      have hlt := a.toNat_lt
      have ha := length_encodeBase128_le (k := 4) (v := a.toNat) (by omega)
      rw [List.map_cons, List.flatMap_cons, List.length_append, List.length_cons]
      omega
  rw [encodeOid_eq, Oid.arcs_eq, List.flatMap_cons, List.length_append]
  have := hrest oid.decompose.2.2
  simp only [List.length_cons]
  omega

end SnmpAgent
