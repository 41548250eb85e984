import SnmpAgent.Lib.BigEndian

/-!
# Definite-length TLVs

The grammar of tag-length-value encodings with definite lengths of at most eight octets. `IsLength`,
`IsHead` and `IsTlv` admit every legal spelling of a length, minimal or not; `lengthField`, `head`
and `tlv` write the shortest one. A head depends on its value only through the length of the value.
-/

namespace Tlv
open Rust

variable {tag : UInt8} {n n' : Nat} {v raw f h r : Bytes}

/-- `IsLength f n`: the length field `f` announces `n` bytes. -/
inductive IsLength : Bytes → Nat → Prop
  | short {b : UInt8} : b.toNat < 128 → IsLength [b] b.toNat
  | long {b : UInt8} {bs : Bytes} : bs ≠ [] → bs.length ≤ 8 → b.toNat = 128 + bs.length →
    IsLength (b :: bs) (fromBE bs)

/-- The shortest length field. -/
def lengthField (n : Nat) : Bytes :=
  if n ≤ 127 then [UInt8.ofNat n] else UInt8.ofNat (0x80 + byteCount n) :: toBE (byteCount n) n

theorem byteCount_le_eight (h : n < 2 ^ 64) : byteCount n ≤ 8 :=
  byteCount_le (by simpa using h) (by decide)

theorem isLength_lengthField (h : n < 2 ^ 64) : IsLength (lengthField n) n := by
  unfold lengthField
  split
  · have hb : (UInt8.ofNat n).toNat = n := Byte.toNat_ofNat (by omega)
    conv => rhs; rw [← hb]
    exact .short (by omega)
  · have h8 := byteCount_le_eight h
    have hlen : (toBE (byteCount n) n).length = byteCount n := length_toBE ..
    conv => rhs; rw [← fromBE_toBE_of_lt (lt_pow_byteCount n)]
    refine .long (List.ne_nil_of_length_pos ?_) (by omega) ?_
    · rw [hlen]; exact Nat.succ_pos _
    · rw [hlen, Byte.toNat_ofNat (by omega)]

theorem length_lengthField (n : Nat) :
    (lengthField n).length = if n ≤ 127 then 1 else 1 + byteCount n := by
  unfold lengthField
  split <;> simp [Nat.add_comm]

theorem length_lengthField_mono (h : n ≤ n') :
    (lengthField n).length ≤ (lengthField n').length := by
  have := byteCount_mono h
  rw [length_lengthField, length_lengthField]
  split <;> split <;> omega

theorem IsLength.lt (H : IsLength f n) : n < 2 ^ 64 := by
  cases H with
  | short h => omega
  | long _ h _ =>
    refine (fromBE_lt _).trans_le ?_
    calc 256 ^ _ ≤ 256 ^ 8 := Nat.pow_le_pow_right (by decide) h
      _ = 2 ^ 64 := by norm_num

/-- No length field is shorter. -/
theorem IsLength.length_lengthField_le (H : IsLength f n) :
    (lengthField n).length ≤ f.length := by
  rw [length_lengthField]
  cases H with
  | short h => rw [if_pos (by omega), List.length_singleton]
  | @long _ bs hne _ _ =>
    have := byteCount_le (fromBE_lt bs) (List.length_pos_iff.mpr hne)
    rw [List.length_cons]
    split <;> omega

theorem IsLength.ne_nil (H : IsLength f n) : f ≠ [] := by cases H <;> simp

/-- The first byte tells where a length field ends. -/
theorem IsLength.unique {f' r' : Bytes} (H : IsLength f n) (H' : IsLength f' n')
    (h : f ++ r = f' ++ r') : f = f' ∧ n = n' ∧ r = r' := by
  cases H with
  | short hb =>
    cases H' with
    | short _ =>
      obtain ⟨rfl, rfl⟩ := List.cons_eq_cons.mp h
      exact ⟨rfl, rfl, rfl⟩
    | long _ _ hb' =>
      obtain ⟨rfl, -⟩ := List.cons_eq_cons.mp h
      omega
  | long _ _ hb =>
    cases H' with
    | short hb' =>
      obtain ⟨rfl, -⟩ := List.cons_eq_cons.mp h
      omega
    | long _ _ hb' =>
      obtain ⟨rfl, htail⟩ := List.cons_eq_cons.mp h
      obtain ⟨rfl, rfl⟩ := List.append_inj htail (by omega)
      exact ⟨rfl, rfl, rfl⟩

/-! ## Heads and whole TLVs -/

/-- `IsHead tag n h`: `h` is a tag and a length field for `n` bytes of value. -/
def IsHead (tag : UInt8) (n : Nat) (h : Bytes) : Prop := ∃ f, IsLength f n ∧ h = tag :: f

/-- `IsTlv tag v raw`: `raw` is a TLV with this tag and value. -/
def IsTlv (tag : UInt8) (v raw : Bytes) : Prop := ∃ h, IsHead tag v.length h ∧ raw = h ++ v

def head (tag : UInt8) (n : Nat) : Bytes := tag :: lengthField n

def tlv (tag : UInt8) (v : Bytes) : Bytes := head tag v.length ++ v

theorem isHead_head (h : n < 2 ^ 64) : IsHead tag n (head tag n) :=
  ⟨_, isLength_lengthField h, rfl⟩

theorem isTlv_tlv (h : v.length < 2 ^ 64) : IsTlv tag v (tlv tag v) := ⟨_, isHead_head h, rfl⟩

theorem IsTlv.length_lt (H : IsTlv tag v raw) : v.length < 2 ^ 64 :=
  let ⟨_, ⟨_, hf, _⟩, _⟩ := H; hf.lt

theorem IsHead.two_le (H : IsHead tag n h) : 2 ≤ h.length := by
  obtain ⟨f, hf, rfl⟩ := H
  have := List.length_pos_iff.mpr hf.ne_nil
  simp only [List.length_cons]
  omega

theorem IsTlv.two_le (H : IsTlv tag v raw) : 2 ≤ raw.length := by
  obtain ⟨h, hh, rfl⟩ := H
  have := hh.two_le
  simp only [List.length_append]
  omega

theorem IsTlv.ne_nil (H : IsTlv tag v raw) : raw ≠ [] := by
  have := H.two_le
  exact List.ne_nil_of_length_pos (by omega)

theorem IsTlv.head_tag (H : IsTlv tag v raw) : (raw ++ r).head? = some tag := by
  obtain ⟨_, ⟨f, _, rfl⟩, rfl⟩ := H
  rfl

/-! ## Fields

`Field tag v tail bs`: the byte string `bs` starts with a TLV, and `tail` follows it. -/

def Field (tag : UInt8) (v tail bs : Bytes) : Prop := ∃ raw, IsTlv tag v raw ∧ bs = raw ++ tail

theorem field_tlv (h : v.length < 2 ^ 64) (tail : Bytes) : Field tag v tail (tlv tag v ++ tail) :=
  ⟨_, isTlv_tlv h, rfl⟩

theorem Field.value_lt (H : Field tag v r raw) : v.length < 2 ^ 64 :=
  let ⟨_, h, _⟩ := H; h.length_lt

theorem Field.head_eq (H : Field tag v r raw) : raw.head? = some tag := by
  obtain ⟨t, ht, rfl⟩ := H
  exact ht.head_tag

theorem Field.length_add_le (H : Field tag v r raw) : v.length + r.length + 2 ≤ raw.length := by
  obtain ⟨_, ⟨h, hh, rfl⟩, rfl⟩ := H
  have := hh.two_le
  simp only [List.length_append]
  omega

/-- A byte string starts with at most one TLV. -/
theorem Field.unique {tag' : UInt8} {v' r' : Bytes} (H : Field tag v r raw)
    (H' : Field tag' v' r' raw) : tag = tag' ∧ v = v' ∧ r = r' := by
  obtain ⟨_, ⟨_, ⟨f, hf, rfl⟩, rfl⟩, rfl⟩ := H
  obtain ⟨_, ⟨_, ⟨f', hf', rfl⟩, rfl⟩, h⟩ := H'
  simp only [List.append_assoc, List.cons_append, List.cons.injEq] at h
  obtain ⟨rfl, h⟩ := h
  obtain ⟨rfl, hlen, htail⟩ := hf.unique hf' h
  obtain ⟨rfl, rfl⟩ := List.append_inj htail hlen
  exact ⟨rfl, rfl, rfl⟩

/-- The value of a field, exchanged for another of the same length. -/
theorem Field.hole (H : Field tag v r raw) :
    ∃ h, raw = h ++ v ++ r ∧ ∀ v', v'.length = v.length → Field tag v' r (h ++ v' ++ r) := by
  obtain ⟨_, ⟨h, hh, rfl⟩, rfl⟩ := H
  exact ⟨h, rfl, fun v' hl => ⟨_, ⟨h, hl ▸ hh, rfl⟩, rfl⟩⟩

/-- What follows a field, exchanged. -/
theorem Field.front (H : Field tag v r raw) :
    ∃ t, raw = t ++ r ∧ ∀ r', Field tag v r' (t ++ r') := by
  obtain ⟨t, ht, rfl⟩ := H
  exact ⟨t, rfl, fun r' => ⟨t, ht, rfl⟩⟩

/-! ## Sizes of the shortest encodings -/

/-- The size of the shortest TLV around `n` bytes. -/
def tlvSize (n : Nat) : Nat := 1 + (lengthField n).length + n

@[simp] theorem length_tlv (tag : UInt8) (v : Bytes) : (tlv tag v).length = tlvSize v.length := by
  simp [tlv, head, tlvSize]
  omega

theorem tlvSize_mono (h : n ≤ n') : tlvSize n ≤ tlvSize n' := by
  have := length_lengthField_mono h
  simp only [tlvSize]
  omega

theorem le_tlvSize (n : Nat) : n ≤ tlvSize n := by simp only [tlvSize]; omega

theorem tlvSize_of_le (h : n ≤ 127) : tlvSize n = n + 2 := by
  simp only [tlvSize, length_lengthField, if_pos h]
  omega

theorem tlvSize_le (h : n < 2 ^ 64) : tlvSize n ≤ n + 10 := by
  have := byteCount_le_eight h
  simp only [tlvSize, length_lengthField]
  split <;> omega

end Tlv
