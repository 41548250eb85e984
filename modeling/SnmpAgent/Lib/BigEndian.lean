import Mathlib.Data.Nat.Log
import Mathlib.Tactic.Ring
import Mathlib.Tactic.Linarith
import Mathlib.Tactic.Positivity
import Mathlib.Tactic.Zify

/-!
# Big-endian numerals

`fromBE` reads a byte string as a base-256 numeral, most significant byte first, and `toBE k n`
writes `n` modulo `256 ^ k` in `k` bytes. `signed` is the two's-complement reading of a byte string.
`byteCount n` is the number of bytes of the shortest numeral of `n`.
-/

namespace Rust

abbrev Bytes := List UInt8

/-- A fixed-size array `[u8; n]`. -/
abbrev Octets (n : Nat) := { b : Bytes // b.length = n }

/-! ## Bits of a byte -/

theorem Byte.forall_of_fin {p : UInt8 → Prop} (h : ∀ n : Fin 256, p (UInt8.ofNat n)) (b : UInt8) :
    p b := by
  have := h ⟨b.toNat, b.toNat_lt⟩
  simpa using this

theorem Byte.and_high_eq_zero {b : UInt8} : b &&& 0x80 = 0 ↔ b.toNat < 128 := by
  revert b
  apply Byte.forall_of_fin
  decide +kernel

theorem Byte.and_high_ne_zero {b : UInt8} : b &&& 0x80 ≠ 0 ↔ 128 ≤ b.toNat := by
  rw [Ne, Byte.and_high_eq_zero]
  omega

theorem Byte.and_high_eq_high {b : UInt8} : b &&& 0x80 = 0x80 ↔ 128 ≤ b.toNat := by
  revert b
  apply Byte.forall_of_fin
  decide +kernel

theorem Byte.toNat_and_low (b : UInt8) : (b &&& 0x7F).toNat = b.toNat % 128 := by
  revert b
  apply Byte.forall_of_fin
  decide +kernel

theorem Byte.toNat_ofNat {n : Nat} (h : n < 256) : (UInt8.ofNat n).toNat = n := by
  rw [UInt8.toNat_ofNat']
  omega

/-! ## Unsigned numerals -/

def fromBE : Bytes → Nat
  | [] => 0
  | b :: bs => b.toNat * 256 ^ bs.length + fromBE bs

def toBE : Nat → Nat → Bytes
  | 0, _ => []
  | k + 1, n => UInt8.ofNat (n / 256 ^ k) :: toBE k n

@[simp] theorem fromBE_nil : fromBE [] = 0 := rfl

theorem fromBE_cons (b : UInt8) (bs : Bytes) :
    fromBE (b :: bs) = b.toNat * 256 ^ bs.length + fromBE bs := rfl

@[simp] theorem fromBE_zero_cons (bs : Bytes) : fromBE (0 :: bs) = fromBE bs := by
  simp [fromBE_cons]

@[simp] theorem length_toBE (k n : Nat) : (toBE k n).length = k := by
  induction k with
  | zero => rfl
  | succ k ih => simp [toBE, ih]

theorem fromBE_lt (bs : Bytes) : fromBE bs < 256 ^ bs.length := by
  induction bs with
  | nil => simp
  | cons b bs ih =>
    have hb := b.toNat_lt
    calc fromBE (b :: bs) < (b.toNat + 1) * 256 ^ bs.length := by rw [fromBE_cons]; lia
      _ ≤ 256 * 256 ^ bs.length := Nat.mul_le_mul_right _ hb
      _ = 256 ^ (b :: bs).length := by rw [List.length_cons, Nat.pow_succ, Nat.mul_comm]

/-- Bytes shifted in from the right. -/
theorem foldl_shiftLeft_or (bs : Bytes) (acc : Nat) :
    bs.foldl (fun acc b => acc <<< 8 ||| b.toNat) acc = acc * 256 ^ bs.length + fromBE bs := by
  induction bs generalizing acc with
  | nil => simp
  | cons b bs ih =>
    have hb : b.toNat < 2 ^ 8 := b.toNat_lt
    rw [List.foldl_cons, ih, ← Nat.shiftLeft_add_eq_or_of_lt hb, Nat.shiftLeft_eq, fromBE_cons,
      List.length_cons, pow_succ]
    ring

theorem fromBE_toBE (k n : Nat) : fromBE (toBE k n) = n % 256 ^ k := by
  induction k with
  | zero => simp [toBE, Nat.mod_one]
  | succ k ih =>
    have hmod : n % 256 ^ (k + 1) = n % 256 ^ k + 256 ^ k * (n / 256 ^ k % 256) := by
      rw [Nat.pow_succ, Nat.mod_mul]
    rw [toBE, fromBE_cons, length_toBE, ih, UInt8.toNat_ofNat', hmod, Nat.mul_comm, Nat.add_comm]

theorem fromBE_toBE_of_lt {k n : Nat} (h : n < 256 ^ k) : fromBE (toBE k n) = n := by
  rw [fromBE_toBE, Nat.mod_eq_of_lt h]

/-- A byte string is determined by its length and the number it spells. -/
theorem fromBE_inj {as bs : Bytes} (hl : as.length = bs.length) (h : fromBE as = fromBE bs) :
    as = bs := by
  induction as generalizing bs with
  | nil => exact (List.length_eq_zero_iff.mp hl.symm).symm
  | cons a as ih =>
    obtain _ | ⟨b, bs⟩ := bs
    · simp at hl
    have hl' : as.length = bs.length := by simpa using hl
    rw [fromBE_cons, fromBE_cons, hl'] at h
    have ha := fromBE_lt as
    have hb := fromBE_lt bs
    rw [hl'] at ha
    have hab : a.toNat = b.toNat := by
      have hp : 0 < 256 ^ bs.length := Nat.pow_pos (by decide)
      have h1 := congrArg (· / 256 ^ bs.length) h
      simpa only [Nat.mul_comm _ (256 ^ bs.length), Nat.mul_add_div hp, Nat.div_eq_of_lt ha,
        Nat.div_eq_of_lt hb, Nat.add_zero] using h1
    rw [hab] at h
    rw [UInt8.toNat_inj.mp hab, ih hl' (by omega)]

theorem toBE_fromBE (bs : Bytes) : toBE bs.length (fromBE bs) = bs :=
  fromBE_inj (length_toBE ..) (fromBE_toBE_of_lt (fromBE_lt bs))

@[simp] theorem fromBE_replicate_zero (k : Nat) (bs : Bytes) :
    fromBE (List.replicate k 0 ++ bs) = fromBE bs := by
  induction k with
  | zero => simp
  | succ k ih => rw [List.replicate_succ, List.cons_append, fromBE_zero_cons, ih]

/-! ## The shortest numeral -/

/-- The number of significant bytes of `n`. -/
def byteCount (n : Nat) : Nat := Nat.log 256 n + 1

theorem lt_pow_byteCount (n : Nat) : n < 256 ^ byteCount n :=
  Nat.lt_pow_succ_log_self (by decide) n

theorem byteCount_le {n k : Nat} (h : n < 256 ^ k) (hk : 0 < k) : byteCount n ≤ k := by
  by_cases h0 : n = 0
  · subst h0
    simpa [byteCount, Nat.one_le_iff_ne_zero, Nat.pos_iff_ne_zero] using hk
  · exact Nat.succ_le_of_lt (Nat.log_lt_of_lt_pow h0 h)

theorem byteCount_mono {m n : Nat} (h : m ≤ n) : byteCount m ≤ byteCount n :=
  Nat.succ_le_succ (Nat.log_mono_right h)

/-- Dropping leading zero bytes of a numeral keeps the shorter numeral. -/
theorem drop_toBE {j k n : Nat} (h : j ≤ k) : (toBE k n).drop j = toBE (k - j) n := by
  induction j generalizing k with
  | zero => simp
  | succ j ih =>
    obtain _ | k := k
    · simp at h
    · simp only [toBE, List.drop_succ_cons, Nat.add_sub_add_right]
      exact ih (by omega)

/-! ## Two's complement -/

/-- The sign bit of a big-endian byte string. -/
def negative (bs : Bytes) : Prop := ∃ b ∈ bs.head?, 128 ≤ b.toNat

instance (bs : Bytes) : Decidable (negative bs) := by unfold negative; infer_instance

/-- The two's-complement value of a big-endian byte string. -/
def signed (bs : Bytes) : Int :=
  if negative bs then (fromBE bs : Int) - 256 ^ bs.length else fromBE bs

@[simp] theorem negative_cons {b : UInt8} {bs : Bytes} : negative (b :: bs) ↔ 128 ≤ b.toNat := by
  simp [negative]

theorem signed_cons_of_lt {b : UInt8} {bs : Bytes} (h : b.toNat < 128) :
    signed (b :: bs) = fromBE (b :: bs) := by
  rw [signed, if_neg (by rw [negative_cons]; omega)]

theorem signed_cons_of_ge {b : UInt8} {bs : Bytes} (h : 128 ≤ b.toNat) :
    signed (b :: bs) = (fromBE (b :: bs) : Int) - 256 ^ (bs.length + 1) := by
  rw [signed, if_pos (negative_cons.mpr h), List.length_cons]

/-- The value of the leading byte, sign included, above the rest. -/
theorem signed_cons (b : UInt8) (bs : Bytes) :
    signed (b :: bs) =
      ((b.toNat : Int) - if 128 ≤ b.toNat then 256 else 0) * 256 ^ bs.length + fromBE bs := by
  have hc : (fromBE (b :: bs) : Int) = b.toNat * 256 ^ bs.length + fromBE bs := by
    rw [fromBE_cons]
    push_cast
    rfl
  split
  · rename_i h
    rw [signed_cons_of_ge h, hc]
    ring
  · rename_i h
    rw [signed_cons_of_lt (by omega), hc]
    ring

private theorem fromBE_lt_int (bs : Bytes) : (fromBE bs : Int) < 256 ^ bs.length := by
  exact_mod_cast fromBE_lt bs

theorem signed_neg_iff (bs : Bytes) : signed bs < 0 ↔ negative bs := by
  have hlt := fromBE_lt_int bs
  unfold signed
  split
  · rename_i h
    exact ⟨fun _ => h, fun _ => by omega⟩
  · rename_i h
    exact ⟨fun hneg => by omega, fun h' => absurd h' h⟩

/-- A byte string of `k + 1` bytes spells a number of `8 * k + 8` bits. -/
theorem signed_range (b : UInt8) (bs : Bytes) :
    -(128 * 256 ^ bs.length) ≤ signed (b :: bs) ∧ signed (b :: bs) < 128 * 256 ^ bs.length := by
  have hb := b.toNat_lt
  have hlt := fromBE_lt_int bs
  have hp : (0 : Int) < 256 ^ bs.length := by positivity
  rw [signed_cons]
  generalize (256 : Int) ^ bs.length = p at *
  split <;> constructor <;> nlinarith

/-- A leading byte that only repeats the sign bit of the next. -/
def Redundant (b n : UInt8) : Prop := b = 0 ∧ n.toNat < 128 ∨ b = 0xFF ∧ 128 ≤ n.toNat

instance (b n : UInt8) : Decidable (Redundant b n) := by unfold Redundant; infer_instance

theorem Redundant.high_iff {b n : UInt8} (h : Redundant b n) : 128 ≤ b.toNat ↔ 128 ≤ n.toNat := by
  rcases h with ⟨rfl, h⟩ | ⟨rfl, h⟩
  · have : (0 : UInt8).toNat = 0 := rfl
    omega
  · have : (0xFF : UInt8).toNat = 255 := rfl
    omega

theorem Redundant.signed_cons {b n : UInt8} (h : Redundant b n) (bs : Bytes) :
    signed (b :: n :: bs) = signed (n :: bs) := by
  have hc : (fromBE (n :: bs) : Int) = n.toNat * 256 ^ bs.length + fromBE bs := by
    rw [fromBE_cons]
    push_cast
    rfl
  rw [Rust.signed_cons b, Rust.signed_cons n, List.length_cons, hc, pow_succ]
  rcases h with ⟨rfl, h⟩ | ⟨rfl, h⟩
  · rw [if_neg (by decide), if_neg (by omega)]
    simp
  · rw [if_pos (by decide), if_pos h]
    have : ((0xFF : UInt8).toNat : Int) = 255 := rfl
    rw [this]
    ring

/-- Without a redundant leading byte the number needs all the bytes. -/
theorem signed_not_redundant {b n : UInt8} {bs : Bytes} (h : ¬ Redundant b n) :
    signed (b :: n :: bs) < -(128 * 256 ^ bs.length) ∨
      128 * 256 ^ bs.length ≤ signed (b :: n :: bs) := by
  have hb := b.toNat_lt
  have hn := n.toNat_lt
  have hlt := fromBE_lt_int bs
  have hnn : (0 : Int) ≤ fromBE bs := Int.natCast_nonneg _
  have hp : (0 : Int) < 256 ^ bs.length := by positivity
  have hc : (fromBE (n :: bs) : Int) = n.toNat * 256 ^ bs.length + fromBE bs := by
    rw [fromBE_cons]
    push_cast
    rfl
  rw [signed_cons, List.length_cons, hc, pow_succ]
  generalize (256 : Int) ^ bs.length = p at *
  by_cases h128 : 128 ≤ b.toNat
  · left
    rw [if_pos h128]
    have : b.toNat < 255 ∨ b.toNat = 255 ∧ n.toNat < 128 := by
      by_contra hcon
      apply h
      right
      exact ⟨UInt8.toNat_inj.mp (by change _ = 255; omega), by omega⟩
    rcases this with hb' | ⟨hb', hn'⟩ <;> zify at * <;> nlinarith
  · right
    rw [if_neg h128]
    have : 0 < b.toNat ∨ b.toNat = 0 ∧ 128 ≤ n.toNat := by
      by_contra hcon
      apply h
      left
      exact ⟨UInt8.toNat_inj.mp (by change _ = 0; omega), by omega⟩
    rcases this with hb' | ⟨hb', hn'⟩ <;> zify at * <;> nlinarith

/-- The shortest byte string of the same value. -/
def stripSigned : Bytes → Bytes
  | b :: n :: bs => if Redundant b n then stripSigned (n :: bs) else b :: n :: bs
  | bs => bs

@[simp] theorem signed_stripSigned (bs : Bytes) : signed (stripSigned bs) = signed bs := by
  induction bs with
  | nil => rfl
  | cons b bs ih =>
    obtain _ | ⟨n, bs⟩ := bs
    · rfl
    rw [stripSigned]
    split
    · rename_i h
      rw [ih, h.signed_cons]
    · rfl

theorem stripSigned_ne_nil {bs : Bytes} (h : bs ≠ []) : stripSigned bs ≠ [] := by
  induction bs with
  | nil => exact absurd rfl h
  | cons b bs ih =>
    obtain _ | ⟨n, bs⟩ := bs
    · exact h
    rw [stripSigned]
    split
    · exact ih (List.cons_ne_nil _ _)
    · exact List.cons_ne_nil _ _

/-- A stripped byte string is as short as its value allows. -/
theorem length_stripSigned_le {bs : Bytes} {k : Nat} (h1 : -(128 * 256 ^ k) ≤ signed bs)
    (h2 : signed bs < 128 * 256 ^ k) : (stripSigned bs).length ≤ k + 1 := by
  induction bs with
  | nil => simp [stripSigned]
  | cons b bs ih =>
    obtain _ | ⟨n, bs⟩ := bs
    · simp [stripSigned]
    rw [stripSigned]
    split
    · rename_i h
      rw [h.signed_cons] at h1 h2
      exact ih h1 h2
    · rename_i h
      simp only [List.length_cons]
      by_contra hcon
      have hle : (256 : Int) ^ k ≤ 256 ^ bs.length :=
        pow_le_pow_right₀ (by norm_num) (by omega)
      rcases (signed_not_redundant h : _ < -(128 * 256 ^ bs.length) ∨ _) with h' | h' <;> linarith

/-- A byte string without its leading zeros, the last byte kept. -/
def stripZeros : Bytes → Bytes
  | b :: n :: bs => if b = 0 then stripZeros (n :: bs) else b :: n :: bs
  | bs => bs

theorem stripZeros_of_ne {b : UInt8} (hb : b ≠ 0) (bs : Bytes) :
    stripZeros (b :: bs) = b :: bs := by
  cases bs with
  | nil => rfl
  | cons n bs => rw [stripZeros, if_neg hb]

@[simp] theorem fromBE_stripZeros (bs : Bytes) : fromBE (stripZeros bs) = fromBE bs := by
  induction bs with
  | nil => rfl
  | cons b bs ih =>
    obtain _ | ⟨n, bs⟩ := bs
    · rfl
    rw [stripZeros]
    split
    · rename_i h
      rw [ih, h, fromBE_zero_cons]
    · rfl

theorem stripZeros_ne_nil {bs : Bytes} (h : bs ≠ []) : stripZeros bs ≠ [] := by
  induction bs with
  | nil => exact absurd rfl h
  | cons b bs ih =>
    obtain _ | ⟨n, bs⟩ := bs
    · exact h
    rw [stripZeros]
    split
    · exact ih (List.cons_ne_nil _ _)
    · exact List.cons_ne_nil _ _

/-- Without leading zeros a number takes as many bytes as its size needs. -/
theorem length_stripZeros_le {bs : Bytes} {k : Nat} (h : fromBE bs < 256 ^ (k + 1)) :
    (stripZeros bs).length ≤ k + 1 := by
  induction bs with
  | nil => simp [stripZeros]
  | cons b bs ih =>
    obtain _ | ⟨n, bs⟩ := bs
    · simp [stripZeros]
    rw [stripZeros]
    split
    · rename_i hb
      rw [hb, fromBE_zero_cons] at h
      exact ih h
    · rename_i hb
      rw [fromBE_cons] at h
      have hpos : 0 < b.toNat := Nat.pos_of_ne_zero fun h0 => hb (UInt8.toNat_inj.mp h0)
      have hlt : 256 ^ (n :: bs).length < 256 ^ (k + 1) :=
        (Nat.le_mul_of_pos_left _ hpos).trans_lt ((Nat.le_add_right _ _).trans_lt h)
      rw [List.length_cons]
      exact (Nat.pow_lt_pow_iff_right (by decide)).mp hlt

theorem stripSigned_of_ne {b : UInt8} (h0 : b ≠ 0) (hff : b ≠ 0xFF) (bs : Bytes) :
    stripSigned (b :: bs) = b :: bs := by
  cases bs with
  | nil => rfl
  | cons n bs => exact if_neg fun h => h.elim (fun h => h0 h.1) (fun h => hff h.1)

/-- As a signed number, an unsigned one keeps a zero before a byte with the high bit. -/
theorem stripSigned_zero_cons {bs : Bytes} (hne : bs ≠ []) :
    stripSigned (0 :: bs) =
      if negative (stripZeros bs) then 0 :: stripZeros bs else stripZeros bs := by
  induction bs with
  | nil => exact absurd rfl hne
  | cons b bs ih =>
    rw [stripSigned]
    by_cases hb : b = 0
    · subst hb
      rw [if_pos (.inl ⟨rfl, by decide⟩)]
      obtain _ | ⟨n, bs⟩ := bs
      · rfl
      · rw [stripZeros, if_pos rfl]
        exact ih (List.cons_ne_nil _ _)
    · simp only [stripZeros_of_ne hb, negative_cons]
      by_cases h : 128 ≤ b.toNat
      · rw [if_pos h, if_neg]
        rintro (⟨_, h'⟩ | ⟨h', _⟩)
        · omega
        · cases h'
      · rw [if_neg h, if_pos (.inl ⟨rfl, by omega⟩), stripSigned_of_ne hb]
        rintro rfl
        exact h (by decide)

/-- Sign extension keeps the value. -/
theorem signed_replicate {bs : Bytes} (hne : bs ≠ []) (k : Nat) :
    signed (List.replicate k (if negative bs then 0xFF else 0) ++ bs) = signed bs := by
  obtain ⟨n, bs, rfl⟩ := List.exists_cons_of_ne_nil hne
  simp only [negative_cons]
  induction k with
  | zero => rfl
  | succ k ih =>
    obtain _ | k := k
    · refine Redundant.signed_cons ?_ bs
      split
      · exact .inr ⟨rfl, ‹_›⟩
      · exact .inl ⟨rfl, by omega⟩
    · rw [← ih]
      simp only [List.replicate_succ, List.cons_append]
      refine Redundant.signed_cons ?_ _
      split
      · exact .inr ⟨rfl, by decide⟩
      · exact .inl ⟨rfl, by decide⟩

/-- A byte string is determined by its length and its two's-complement value. -/
theorem signed_inj {as bs : Bytes} (hl : as.length = bs.length) (h : signed as = signed bs) :
    as = bs := by
  obtain _ | ⟨a, as⟩ := as
  · exact (List.length_eq_zero_iff.mp hl.symm).symm
  obtain _ | ⟨b, bs⟩ := bs
  · simp at hl
  apply fromBE_inj hl
  have hl' : as.length = bs.length := by simpa using hl
  have ha := fromBE_lt_int (a :: as)
  have hb := fromBE_lt_int (b :: bs)
  rw [List.length_cons, hl'] at ha
  rw [List.length_cons] at hb
  unfold signed at h
  rw [List.length_cons, List.length_cons, hl'] at h
  generalize (256 : Int) ^ (bs.length + 1) = p at *
  split at h <;> split at h <;> omega

/-- The spelling of a number that is shorter than every other one. -/
structure Shortest (content : Bytes) (n : Int) : Prop where
  ne_nil : content ≠ []
  value : signed content = n
  length_le : ∀ bytes, bytes ≠ [] → signed bytes = n → content.length ≤ bytes.length
  unique : ∀ bytes, signed bytes = n → bytes.length = content.length → bytes = content

theorem shortest_stripSigned {bs : Bytes} (hne : bs ≠ []) :
    Shortest (stripSigned bs) (signed bs) where
  ne_nil := stripSigned_ne_nil hne
  value := signed_stripSigned bs
  length_le bytes hbytes h := by
    obtain ⟨b, bytes, rfl⟩ := List.exists_cons_of_ne_nil hbytes
    have hrange := signed_range b bytes
    rw [h] at hrange
    exact length_stripSigned_le hrange.1 hrange.2
  unique bytes h hl := signed_inj hl (h.trans (signed_stripSigned bs).symm)

end Rust
