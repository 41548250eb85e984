import SnmpAgent.Codec.BerLemmas

/-!
# The reader (`BerReader` of `codec/ber.rs`)

A cursor over a byte slice. Its methods are `Act BerReader BerError`: a failing method leaves the
cursor where it stopped. What they accept is the grammar of `Tlv`: `readTlv_eq_ok` says that a TLV
was read exactly when the bytes ahead start with it, and the typed readers refine that. Every
statement speaks of the bytes ahead (`rest`) and the absolute `offset` only.
-/

namespace SnmpAgent
open Rust Tlv

structure BerReader where
  input : Bytes
  position : Nat
  /-- Offset of the first byte of `input` from the beginning of the outermost message. -/
  baseOffset : Nat
  deriving DecidableEq, Repr

namespace BerReader

def new (input : Bytes) : BerReader := ⟨input, 0, 0⟩

def newWithOffset (input : Bytes) (baseOffset : Nat) : BerReader := ⟨input, 0, baseOffset⟩

def offset (r : BerReader) : Nat := r.baseOffset + r.position

def isEmpty (r : BerReader) : Bool := r.input.length ≤ r.position

def remaining {ε : Type} (r : BerReader) : Res ε Bytes := .expect (sliceFrom? r.input r.position)

def peekTag (r : BerReader) : Res BerError UInt8 :=
  let offset := r.offset
  .okOr (.new s!"BER: unexpected end of input at offset {offset} while peeking tag")
    r.input[r.position]?

/-- Move the cursor. -/
def advance (r : BerReader) (n : Nat) : BerReader := { r with position := r.position + n }

def readTag : Act BerReader BerError UInt8 := do
  let tag ← (← get).peekTag
  modify (·.advance 1)
  return tag

/-- The loop that accumulates a long-form length. -/
def accumulateLength (offset : Nat) : Bytes → Nat → Res BerError Nat
  | [], length => .ok length
  | lengthByte :: lengthBytes, length => do
    let length ← .okOr (.new s!"BER: length value overflows usize at offset {offset}")
      ((checkedMul length 256).bind (checkedAdd · lengthByte.toNat))
    accumulateLength offset lengthBytes length

def readLongFormLength (firstByte : UInt8) : Act BerReader BerError Nat := do
  let r ← get
  let offset := r.offset
  if firstByte = 0xFF then
    .fail (.new s!"BER: reserved length byte 0xFF at offset {offset}")
  else
    let extraByteCount := (firstByte &&& 0x7F).toNat
    if extraByteCount = 0 then
      .fail (.new
        s!"BER: indefinite-length encoding is not permitted in SNMP at offset {offset}")
    -- `size_of::<usize>()` is 8.
    else if 8 < extraByteCount then
      .fail (.new s!"BER: length field too large ({extraByteCount} bytes) at offset {offset}")
    else
      let lengthBytes ← .lift (.okOr
        (.new s!"BER: truncated length field: need {extraByteCount} bytes at offset {offset}")
        (slice? r.input r.position (r.position + extraByteCount)))
      modify (·.advance extraByteCount)
      .lift (accumulateLength (r.advance extraByteCount).offset lengthBytes 0)

def readLength : Act BerReader BerError Nat := do
  let r ← get
  let offset := r.offset
  let firstByte ← .lift (.okOr
    (.new s!"BER: unexpected end of input at offset {offset} while reading length")
    r.input[r.position]?)
  modify (·.advance 1)
  if firstByte &&& 0x80 = 0 then return firstByte.toNat
  else readLongFormLength firstByte

def readTlv : Act BerReader BerError (UInt8 × Bytes) := do
  let tag ← readTag
  let length ← readLength
  let r ← get
  let offset := r.offset
  let left := r.input.length - r.position
  let tagHex := hex2 tag
  let valueSlice ← .lift (.okOr
    (.new s!"BER: truncated value: length field ({length}) exceeds remaining input ({left} bytes) for tag 0x{tagHex} at offset {offset}")
    ((checkedAdd r.position length).bind (slice? r.input r.position)))
  modify (·.advance length)
  return (tag, valueSlice)

def readExpectedTlv (expectedTag : UInt8) (typeName : String) :
    Act BerReader BerError (Nat × Bytes) := do
  let tagStartOffset := (← get).offset
  let (tag, valueBytes) ← readTlv
  if tag ≠ expectedTag then
    let expectedHex := hex2 expectedTag
    let tagHex := hex2 tag
    .fail (.new
      s!"BER: expected {typeName} (0x{expectedHex}), got 0x{tagHex} at offset {tagStartOffset}")
  else return (tagStartOffset, valueBytes)

def readConstructed (expectedTag : UInt8) : Act BerReader BerError BerReader := do
  let tagStartOffset := (← get).offset
  let (tag, contents) ← readTlv
  if tag ≠ expectedTag then
    let expectedHex := hex2 expectedTag
    let tagHex := hex2 tag
    .fail (.new s!"BER: expected tag 0x{expectedHex}, got 0x{tagHex} at offset {tagStartOffset}")
  else
    let contentsOffset ← .lift (usizeSub (← get).offset contents.length)
    return newWithOffset contents contentsOffset

def readSequence : Act BerReader BerError BerReader := readConstructed tagSequence

def readInteger : Act BerReader BerError Int32 := do
  let (tagStartOffset, integerBytes) ← readExpectedTlv tagInteger "INTEGER"
  decodeSignedI32 integerBytes tagStartOffset

def readUnsigned32 : Act BerReader BerError UInt32 := do
  let (tagStartOffset, integerBytes) ← readExpectedTlv tagInteger "INTEGER"
  decodeUnsignedU32 integerBytes tagStartOffset

def readUnsigned64 : Act BerReader BerError UInt64 := do
  let (tagStartOffset, integerBytes) ← readExpectedTlv tagInteger "INTEGER"
  decodeUnsignedU64 integerBytes tagStartOffset

def readTaggedUnsigned32 (expectedTag : UInt8) : Act BerReader BerError UInt32 := do
  let (tagStartOffset, integerBytes) ← readExpectedTlv expectedTag "tagged unsigned32"
  decodeUnsignedU32 integerBytes tagStartOffset

def readTaggedUnsigned64 (expectedTag : UInt8) : Act BerReader BerError UInt64 := do
  let (tagStartOffset, integerBytes) ← readExpectedTlv expectedTag "tagged unsigned64"
  decodeUnsignedU64 integerBytes tagStartOffset

def readOctetString : Act BerReader BerError Bytes := do
  let (_, stringBytes) ← readExpectedTlv tagOctetString "OCTET STRING"
  return stringBytes

def readNull : Act BerReader BerError Unit := do
  let (tagStartOffset, nullContents) ← readExpectedTlv tagNull "NULL"
  if nullContents.isEmpty then return ()
  else
    let n := nullContents.length
    .fail (.new s!"BER: NULL value must have length 0, got {n} at offset {tagStartOffset}")

def readOid : Act BerReader BerError Oid := do
  let (tagStartOffset, oidBytes) ← readExpectedTlv tagOid "OID"
  decodeOid oidBytes tagStartOffset

/-! ## What the cursor has ahead -/

/-- The bytes ahead of the cursor. -/
def rest (r : BerReader) : Bytes := r.input.drop r.position

@[simp] theorem rest_newWithOffset (input : Bytes) (off : Nat) :
    (newWithOffset input off).rest = input := rfl

@[simp] theorem rest_new (input : Bytes) : (new input).rest = input := rfl

@[simp] theorem offset_new (input : Bytes) : (new input).offset = 0 := rfl

@[simp] theorem offset_newWithOffset (input : Bytes) (off : Nat) :
    (newWithOffset input off).offset = off := rfl

@[simp] theorem rest_advance (r : BerReader) (n : Nat) : (r.advance n).rest = r.rest.drop n := by
  simp [rest, advance]

@[simp] theorem offset_advance (r : BerReader) (n : Nat) :
    (r.advance n).offset = r.offset + n := by
  simp [offset, advance, Nat.add_assoc]

@[simp] theorem advance_advance (r : BerReader) (m n : Nat) :
    (r.advance m).advance n = r.advance (m + n) := by
  simp [advance, Nat.add_assoc]

@[simp] theorem input_advance (r : BerReader) (n : Nat) : (r.advance n).input = r.input := rfl

@[simp] theorem position_advance (r : BerReader) (n : Nat) :
    (r.advance n).position = r.position + n := rfl

theorem rest_advance_of_eq {r : BerReader} {raw tail : Bytes} (h : r.rest = raw ++ tail) :
    (r.advance raw.length).rest = tail := by
  rw [rest_advance, h, List.drop_left]

theorem isEmpty_iff (r : BerReader) : r.isEmpty = true ↔ r.rest = [] := by
  simp [isEmpty, rest]

theorem peekTag_eq_ok {r : BerReader} {tag : UInt8} :
    r.peekTag = .ok tag ↔ r.rest.head? = some tag := by
  simp [peekTag, rest]

theorem readTag_eq_ok {r r' : BerReader} {tag : UInt8} :
    readTag.run r = .ok (tag, r') ↔ r.rest.head? = some tag ∧ r' = r.advance 1 := by
  simp only [readTag, Act.bind_eq_ok, Act.get_eq_ok, Act.liftM_eq_ok, Act.modify_eq_ok,
    Act.pure_eq_ok, peekTag_eq_ok]
  constructor
  · rintro ⟨_, _, ⟨rfl, rfl⟩, _, _, ⟨h, rfl⟩, _, _, rfl, rfl, rfl⟩
    exact ⟨h, rfl⟩
  · rintro ⟨h, rfl⟩
    exact ⟨r, r, ⟨rfl, rfl⟩, tag, r, ⟨h, rfl⟩, (), _, rfl, rfl, rfl⟩

/-- Eight bytes never overflow the accumulator. -/
theorem accumulateLength_eq {bs : Bytes} {off length : Nat}
    (h : (length + 1) * 256 ^ bs.length ≤ usizeSize) :
    accumulateLength off bs length = .ok (length * 256 ^ bs.length + fromBE bs) := by
  induction bs generalizing length with
  | nil => simp [accumulateLength]
  | cons b bs ih =>
    have hb := b.toNat_lt
    rw [List.length_cons, pow_succ] at h
    have hp : 0 < 256 ^ bs.length := by positivity
    have hnext : (length * 256 + b.toNat + 1) * 256 ^ bs.length ≤ usizeSize :=
      calc (length * 256 + b.toNat + 1) * 256 ^ bs.length
          ≤ ((length + 1) * 256) * 256 ^ bs.length := Nat.mul_le_mul_right _ (by omega)
        _ = (length + 1) * (256 ^ bs.length * 256) := by ring
        _ ≤ usizeSize := h
    have hle : length * 256 + b.toNat + 1 ≤ usizeSize :=
      le_trans (Nat.le_mul_of_pos_right _ hp) hnext
    have hmul : checkedMul length 256 = some (length * 256) := if_pos (by omega)
    have hadd : checkedAdd (length * 256) b.toNat = some (length * 256 + b.toNat) :=
      if_pos (by omega)
    rw [accumulateLength, hmul, Option.bind_some, hadd, Res.okOr_some, Res.ok_bind, ih hnext,
      fromBE_cons, List.length_cons, pow_succ]
    congr 1
    ring

theorem readLongFormLength_eq_ok {r r' : BerReader} {b : UInt8} {n : Nat} (hb : 128 ≤ b.toNat) :
    (readLongFormLength b).run r = .ok (n, r') ↔
      ∃ bs, IsLength (b :: bs) n ∧ r.rest = bs ++ r'.rest ∧ r' = r.advance bs.length := by
  have hlow := Byte.toNat_and_low b
  have hlt := b.toNat_lt
  have hcount (bs : Bytes) : IsLength (b :: bs) n ↔
      (b &&& 0x7F).toNat = bs.length ∧ bs ≠ [] ∧ bs.length ≤ 8 ∧ n = fromBE bs := by
    constructor
    · intro H
      cases H with
      | short h => omega
      | long hne h8 hl => exact ⟨by omega, hne, h8, rfl⟩
    · rintro ⟨hl, hne, h8, rfl⟩
      exact .long hne h8 (by omega)
  have hff : b = 0xFF → (b &&& 0x7F).toNat = 127 := by
    rintro rfl
    rfl
  simp only [hcount, readLongFormLength, Act.bind_eq_ok, Act.get_eq_ok, Act.guard_eq_ok,
    Act.lift_eq_ok, Act.modify_eq_ok, Res.okOr_eq_ok, slice?_eq_some]
  generalize (b &&& 0x7F).toNat = k at *
  have hacc {bs : Bytes} (h8 : bs.length ≤ 8) (off : Nat) :
      accumulateLength off bs 0 = .ok (fromBE bs) := by
    rw [accumulateLength_eq, Nat.zero_mul, Nat.zero_add]
    rw [Nat.zero_add, Nat.one_mul]
    exact (Nat.pow_le_pow_right (by decide) h8).trans (by decide)
  constructor
  · rintro ⟨_, _, ⟨rfl, rfl⟩, -, hk0, hk8, bs, _, ⟨⟨hl, -, tail, hrest⟩, rfl⟩, _, _, rfl, h, rfl⟩
    rw [hacc (by omega)] at h
    cases h
    have hne : bs ≠ [] := List.ne_nil_of_length_pos (by omega)
    refine ⟨bs, ⟨hl.symm, hne, by omega, rfl⟩, ?_, by rw [hl]⟩
    rw [rest_advance, rest, hrest, ← hl, List.drop_left]
  · rintro ⟨bs, ⟨hk, hne, h8, rfl⟩, hrest, rfl⟩
    have hpos := List.length_pos_iff.mpr hne
    have hle : r.position ≤ r.input.length := by
      by_contra hlt
      rw [rest, List.drop_eq_nil_of_le (by omega)] at hrest
      exact hne (List.append_eq_nil_iff.mp hrest.symm).1
    refine ⟨r, r, ⟨rfl, rfl⟩, fun h => by have := hff h; omega, by omega, by omega, bs, r,
      ⟨⟨hk.symm, hle, _, hrest⟩, rfl⟩, (), _, rfl, hacc h8 _, by rw [hk]⟩

theorem readLength_eq_ok {r r' : BerReader} {n : Nat} :
    readLength.run r = .ok (n, r') ↔
      ∃ f, IsLength f n ∧ r.rest = f ++ r'.rest ∧ r' = r.advance f.length := by
  have hhead (r : BerReader) (b : UInt8) :
      r.input[r.position]? = some b ↔ ∃ tail, r.rest = b :: tail := by
    rw [← List.head?_drop]
    exact List.head?_eq_some_iff
  simp only [readLength, Act.bind_eq_ok, Act.get_eq_ok, Act.lift_eq_ok, Act.modify_eq_ok,
    Res.okOr_eq_ok, hhead]
  constructor
  · rintro ⟨_, _, ⟨rfl, rfl⟩, b, _, ⟨⟨tail, hrest⟩, rfl⟩, _, _, rfl, h⟩
    split at h
    · rename_i hb
      rw [Act.pure_eq_ok] at h
      obtain ⟨rfl, rfl⟩ := h
      exact ⟨[b], .short (Byte.and_high_eq_zero.mp hb), by simp [hrest], rfl⟩
    · rename_i hb
      obtain ⟨bs, hlen, hbs, rfl⟩ := (readLongFormLength_eq_ok (Byte.and_high_ne_zero.mp hb)).mp h
      refine ⟨b :: bs, hlen, ?_, by rw [advance_advance, Nat.add_comm]; rfl⟩
      rw [rest_advance, hrest] at hbs
      rw [hrest]
      exact congrArg (b :: ·) hbs
  · rintro ⟨f, H, hrest, rfl⟩
    cases H with
    | @short b hb =>
      refine ⟨r, r, ⟨rfl, rfl⟩, b, r, ⟨⟨_, hrest⟩, rfl⟩, (), _, rfl, ?_⟩
      rw [if_pos (Byte.and_high_eq_zero.mpr hb), Act.pure_eq_ok]
      exact ⟨rfl, rfl⟩
    | @long b bs hne h8 hb =>
      refine ⟨r, r, ⟨rfl, rfl⟩, b, r, ⟨⟨_, hrest⟩, rfl⟩, (), _, rfl, ?_⟩
      rw [if_neg (Byte.and_high_ne_zero.mpr (by omega)), readLongFormLength_eq_ok (by omega)]
      refine ⟨bs, .long hne h8 hb, ?_, by rw [advance_advance, Nat.add_comm]; rfl⟩
      rw [rest_advance, hrest]
      rfl

/-- The bytes of a value are there, and its end is a `usize`. -/
theorem valueSlice_eq_some {r : BerReader} {n : Nat} {v : Bytes} :
    (checkedAdd r.position n).bind (slice? r.input r.position) = some v ↔
      v.length = n ∧ r.position ≤ r.input.length ∧ (∃ tail, r.rest = v ++ tail) ∧
        r.position + n < usizeSize := by
  unfold checkedAdd
  split
  · rw [Option.bind_some, slice?_eq_some]
    simp only [rest, *, and_true]
  · simp [*]

theorem readTlv_eq_ok {r r' : BerReader} {tag : UInt8} {v : Bytes} :
    readTlv.run r = .ok ((tag, v), r') ↔
      ∃ raw, IsTlv tag v raw ∧ r.rest = raw ++ r'.rest ∧ r' = r.advance raw.length ∧
        r.position + raw.length < usizeSize := by
  simp only [readTlv, Act.bind_eq_ok, Act.get_eq_ok, Act.lift_eq_ok, Act.modify_eq_ok,
    Act.pure_eq_ok, Res.okOr_eq_ok, readTag_eq_ok, readLength_eq_ok, valueSlice_eq_some,
    Prod.mk.injEq]
  constructor
  · rintro ⟨_, _, ⟨htag, rfl⟩, n, _, ⟨f, hf, hrest, rfl⟩, _, _, ⟨rfl, rfl⟩, _, _,
      ⟨⟨rfl, -, ⟨tail, htail⟩, hlt⟩, rfl⟩, _, _, rfl, ⟨rfl, rfl⟩, rfl⟩
    obtain ⟨bs, hbs⟩ := List.head?_eq_some_iff.mp htag
    have hone : (r.advance 1).rest = bs := rest_advance_of_eq (show r.rest = [tag] ++ bs from hbs)
    rw [hone, htail] at hrest
    have hall : r.rest = tag :: f ++ v ++ tail := by simp [hbs, hrest]
    have hadv : ((r.advance 1).advance f.length).advance v.length =
        r.advance (tag :: f ++ v).length := by
      simp only [advance_advance, List.length_append, List.length_cons]
      congr 1
      omega
    refine ⟨tag :: f ++ v, ⟨_, ⟨f, hf, rfl⟩, rfl⟩, ?_, hadv, ?_⟩
    · rw [hadv, rest_advance_of_eq hall, hall]
    · simp only [position_advance, List.length_append, List.length_cons] at *
      omega
  · rintro ⟨_, ⟨_, ⟨f, hf, rfl⟩, rfl⟩, hrest, rfl, hlt⟩
    generalize htail : (r.advance (tag :: f ++ v).length).rest = tail at *
    have hhead : r.rest.head? = some tag := by rw [hrest]; rfl
    have hone : (r.advance 1).rest = f ++ (v ++ tail) :=
      rest_advance_of_eq (show r.rest = [tag] ++ (f ++ (v ++ tail)) by simp [hrest])
    have htwo := rest_advance_of_eq hone
    simp only [List.length_append, List.length_cons] at hlt
    refine ⟨tag, _, ⟨hhead, rfl⟩, v.length, _, ⟨f, hf, by rw [htwo, hone], rfl⟩, _, _, ⟨rfl, rfl⟩,
      v, _, ⟨⟨rfl, ?_, ⟨tail, htwo⟩, ?_⟩, rfl⟩, (), _, rfl, ⟨rfl, rfl⟩, ?_⟩
    · have hlen := congrArg List.length hrest
      simp only [rest, List.length_drop, List.length_append, List.length_cons] at hlen
      simp only [position_advance, input_advance]
      omega
    · simp only [position_advance]
      omega
    · simp only [advance_advance, List.length_append, List.length_cons]
      congr 1
      omega

/-! ## Fields of the contents

A sub-reader ranges over the contents of a TLV, which are shorter than `usize::MAX`; on it the
readers accept exactly the fields of the grammar. -/

/-- The reader when only `tail` is left. -/
def leaving (r : BerReader) (tail : Bytes) : BerReader := r.advance (r.rest.length - tail.length)

theorem rest_leaving {r : BerReader} {raw tail : Bytes} (h : r.rest = raw ++ tail) :
    (r.leaving tail).rest = tail := by
  rw [leaving, h, List.length_append, Nat.add_sub_cancel, rest_advance_of_eq h]

@[simp] theorem leaving_rest (r : BerReader) : r.leaving r.rest = r := by simp [leaving, advance]

theorem leaving_leaving {r : BerReader} {raw raw' mid tail : Bytes} (h : r.rest = raw ++ mid)
    (h' : mid = raw' ++ tail) : (r.leaving mid).leaving tail = r.leaving tail := by
  rw [leaving, rest_leaving h, leaving, leaving, advance_advance, h, h']
  simp only [List.length_append]
  congr 1
  omega

theorem offset_leaving (r : BerReader) (tail : Bytes) :
    (r.leaving tail).offset = r.offset + (r.rest.length - tail.length) := offset_advance ..

/-- The cursor is inside the input, and the input is a slice of a machine's memory. -/
structure Bounded (r : BerReader) : Prop where
  position_le : r.position ≤ r.input.length
  length_lt : r.input.length < usizeSize

theorem bounded_new {input : Bytes} (h : input.length < usizeSize) : (new input).Bounded :=
  ⟨Nat.zero_le _, h⟩

theorem Bounded.leaving {r : BerReader} (h : r.Bounded) (tail : Bytes) :
    (r.leaving tail).Bounded := by
  have := h.position_le
  refine ⟨?_, h.length_lt⟩
  simp only [BerReader.leaving, position_advance, input_advance, rest, List.length_drop]
  omega

theorem Bounded.remaining_eq {ε : Type} {r : BerReader} (h : r.Bounded) :
    (r.remaining : Res ε Bytes) = .ok r.rest := by
  rw [remaining, sliceFrom?_of_le h.position_le, Res.expect_some]
  rfl

theorem position_add_length {r : BerReader} {raw tail : Bytes} (hne : raw ≠ [])
    (h : r.rest = raw ++ tail) : r.position + raw.length + tail.length = r.input.length := by
  have hpos := List.length_pos_iff.mpr hne
  have hlen := congrArg List.length h
  simp only [rest, List.length_drop, List.length_append] at hlen
  omega

theorem readTlv_eq_ok_of_bounded {r r' : BerReader} {tag : UInt8} {v : Bytes} (hr : r.Bounded) :
    readTlv.run r = .ok ((tag, v), r') ↔ ∃ tail, Field tag v tail r.rest ∧ r' = r.leaving tail := by
  rw [readTlv_eq_ok]
  constructor
  · rintro ⟨raw, H, hrest, hr', -⟩
    refine ⟨r'.rest, ⟨raw, H, hrest⟩, ?_⟩
    rw [leaving, hrest, List.length_append, Nat.add_sub_cancel, ← hr']
  · rintro ⟨tail, ⟨raw, H, hrest⟩, rfl⟩
    have hlen := position_add_length H.ne_nil hrest
    refine ⟨raw, H, by rw [rest_leaving hrest]; exact hrest, ?_, ?_⟩
    · rw [leaving, hrest, List.length_append, Nat.add_sub_cancel]
    · have := hr.length_lt
      omega

theorem Bounded.field_tlv {r : BerReader} {tag : UInt8} {v tail : Bytes} (hr : r.Bounded)
    (h : r.rest = tlv tag v ++ tail) : Field tag v tail r.rest := by
  have hlen := congrArg List.length h
  have hle := le_tlvSize v.length
  simp only [rest, List.length_drop, List.length_append, length_tlv] at hlen
  rw [h]
  refine Tlv.field_tlv ?_ tail
  change _ < usizeSize
  have := hr.length_lt
  omega

/-- An INTEGER field, in any of its encodings. -/
def IntField (n : Int32) (tail bs : Bytes) : Prop :=
  ∃ c, Field tagInteger c tail bs ∧ c ≠ [] ∧ signed c = n.toInt

theorem IntField.length_add_le {n : Int32} {tail bs : Bytes} (h : IntField n tail bs) :
    tail.length + 2 ≤ bs.length := by
  obtain ⟨c, H, -⟩ := h
  have := H.length_add_le
  omega

theorem IntField.front {n : Int32} {tail bs : Bytes} (h : IntField n tail bs) :
    ∃ t, bs = t ++ tail ∧ ∀ tail', IntField n tail' (t ++ tail') := by
  obtain ⟨c, H, hc⟩ := h
  obtain ⟨t, ht, H⟩ := H.front
  exact ⟨t, ht, fun tail' => ⟨c, H tail', hc⟩⟩

theorem Bounded.intField_tlv {r : BerReader} {n : Int32} {tail : Bytes} (hr : r.Bounded)
    (h : r.rest = tlv tagInteger (integerContent n) ++ tail) : IntField n tail r.rest :=
  ⟨_, hr.field_tlv h, integerContent_ne_nil n, signed_integerContent n⟩

theorem bounded_newWithOffset {tag : UInt8} {v tail bs : Bytes} (H : Field tag v tail bs)
    (off : Nat) : (newWithOffset v off).Bounded := ⟨Nat.zero_le _, H.value_lt⟩

section
variable {r r' : BerReader} {tag : UInt8} {v : Bytes}

theorem readExpectedTlv_eq_ok (hr : r.Bounded) {name : String} {off : Nat} :
    (readExpectedTlv tag name).run r = .ok ((off, v), r') ↔
      off = r.offset ∧ ∃ tail, Field tag v tail r.rest ∧ r' = r.leaving tail := by
  simp only [readExpectedTlv, Act.bind_eq_ok, Act.get_eq_ok, Act.guard_eq_ok, Act.pure_eq_ok,
    not_not, Prod.mk.injEq]
  constructor
  · rintro ⟨_, _, ⟨rfl, rfl⟩, ⟨t, u⟩, _, h, rfl, ⟨rfl, rfl⟩, rfl⟩
    exact ⟨rfl, (readTlv_eq_ok_of_bounded hr).mp h⟩
  · rintro ⟨rfl, h⟩
    exact ⟨r, r, ⟨rfl, rfl⟩, (tag, v), r', (readTlv_eq_ok_of_bounded hr).mpr h, rfl, ⟨rfl, rfl⟩,
      rfl⟩

/-- The value of a TLV ends where the cursor stands. -/
theorem value_le_offset (h : readTlv.run r = .ok ((tag, v), r')) : v.length ≤ r'.offset := by
  obtain ⟨raw, ⟨head, -, rfl⟩, -, rfl, -⟩ := readTlv_eq_ok.mp h
  rw [offset_advance, List.length_append]
  omega

/-- A sub-reader ranges over the value of the TLV. -/
theorem readConstructed_iff {sub : BerReader} :
    (readConstructed tag).run r = .ok (sub, r') ↔
      ∃ v, readTlv.run r = .ok ((tag, v), r') ∧ sub = newWithOffset v (r'.offset - v.length) := by
  simp only [readConstructed, Act.bind_eq_ok, Act.get_eq_ok, Act.guard_eq_ok, Act.pure_eq_ok,
    Act.lift_eq_ok, not_not]
  constructor
  · rintro ⟨_, _, ⟨rfl, rfl⟩, ⟨t, v⟩, _, h, rfl, _, _, ⟨rfl, rfl⟩, _, _, ⟨hoff, rfl⟩, rfl, rfl⟩
    rw [usizeSub_of_le (value_le_offset h)] at hoff
    cases hoff
    exact ⟨v, h, rfl⟩
  · rintro ⟨v, h, rfl⟩
    exact ⟨r, r, ⟨rfl, rfl⟩, (tag, v), _, h, rfl, _, _, ⟨rfl, rfl⟩, _, _,
      ⟨usizeSub_of_le (value_le_offset h), rfl⟩, rfl, rfl⟩

theorem readConstructed_eq_ok (hr : r.Bounded) {sub : BerReader} :
    (readConstructed tag).run r = .ok (sub, r') ↔
      ∃ v tail, Field tag v tail r.rest ∧ r' = r.leaving tail ∧
        sub = newWithOffset v (r'.offset - v.length) := by
  simp only [readConstructed_iff, readTlv_eq_ok_of_bounded hr]
  constructor
  · rintro ⟨v, ⟨tail, H, hr'⟩, hsub⟩
    exact ⟨v, tail, H, hr', hsub⟩
  · rintro ⟨v, tail, H, hr', hsub⟩
    exact ⟨v, ⟨tail, H, hr'⟩, hsub⟩

/-- At the top level the input may be longer than what the TLV announces. -/
theorem readConstructed_new_eq_ok {bytes : Bytes} {sub : BerReader} :
    (∃ r', (readConstructed tag).run (new bytes) = .ok (sub, r')) ↔
      ∃ v tail raw, IsTlv tag v raw ∧ bytes = raw ++ tail ∧ raw.length < usizeSize ∧
        sub = newWithOffset v (raw.length - v.length) := by
  have hoff (n : Nat) : ((new bytes).advance n).offset = n := by simp
  simp only [readConstructed_iff, readTlv_eq_ok]
  constructor
  · rintro ⟨_, v, ⟨raw, H, hrest, rfl, hlt⟩, rfl⟩
    rw [hoff]
    exact ⟨v, _, raw, H, hrest, (Nat.le_add_left ..).trans_lt hlt, rfl⟩
  · rintro ⟨v, tail, raw, H, rfl, hlt, rfl⟩
    have hrest : ((new (raw ++ tail)).advance raw.length).rest = tail := rest_advance_of_eq rfl
    refine ⟨_, v, ⟨raw, H, by rw [hrest]; rfl, rfl, (Nat.zero_add _).trans_lt hlt⟩, ?_⟩
    rw [hoff]

theorem readInteger_eq_ok (hr : r.Bounded) {n : Int32} :
    readInteger.run r = .ok (n, r') ↔ ∃ tail, IntField n tail r.rest ∧ r' = r.leaving tail := by
  simp only [readInteger, Act.bind_eq_ok, Act.liftM_eq_ok, Prod.exists, readExpectedTlv_eq_ok hr,
    decodeSignedI32_eq_ok]
  constructor
  · rintro ⟨_, bs, _, ⟨-, tail, H, rfl⟩, h, rfl⟩
    exact ⟨tail, ⟨bs, H, h⟩, rfl⟩
  · rintro ⟨tail, ⟨bs, H, h⟩, rfl⟩
    exact ⟨_, bs, _, ⟨rfl, tail, H, rfl⟩, h, rfl⟩

theorem readOctetString_eq_ok (hr : r.Bounded) :
    readOctetString.run r = .ok (v, r') ↔
      ∃ tail, Field tagOctetString v tail r.rest ∧ r' = r.leaving tail := by
  simp only [readOctetString, Act.bind_eq_ok, Act.pure_eq_ok, Prod.exists, readExpectedTlv_eq_ok hr]
  constructor
  · rintro ⟨_, _, _, ⟨-, h⟩, rfl, rfl⟩
    exact h
  · intro h
    exact ⟨_, v, _, ⟨rfl, h⟩, rfl, rfl⟩

theorem readNull_eq_ok (hr : r.Bounded) {u : Unit} :
    readNull.run r = .ok (u, r') ↔ ∃ tail, Field tagNull [] tail r.rest ∧ r' = r.leaving tail := by
  simp only [readNull, Act.bind_eq_ok, Act.pure_eq_ok, Prod.exists, readExpectedTlv_eq_ok hr,
    Act.guard_not_eq_ok, List.isEmpty_iff]
  constructor
  · rintro ⟨_, _, _, ⟨-, h⟩, rfl, -, rfl⟩
    exact h
  · intro h
    exact ⟨_, [], _, ⟨rfl, h⟩, rfl, trivial, rfl⟩

theorem readOid_eq_ok (hr : r.Bounded) {oid : Oid} :
    readOid.run r = .ok (oid, r') ↔
      ∃ bs tail, Field tagOid bs tail r.rest ∧ r' = r.leaving tail ∧
        decodeOid bs r.offset = .ok oid := by
  simp only [readOid, Act.bind_eq_ok, Act.liftM_eq_ok, Prod.exists, readExpectedTlv_eq_ok hr]
  constructor
  · rintro ⟨_, bs, _, ⟨rfl, tail, H, rfl⟩, h, rfl⟩
    exact ⟨bs, tail, H, rfl, h⟩
  · rintro ⟨bs, tail, H, rfl, h⟩
    exact ⟨_, bs, _, ⟨rfl, tail, H, rfl⟩, h, rfl⟩

end

end BerReader

end SnmpAgent
