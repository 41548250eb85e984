import SnmpAgent.Codec.Safety
import SnmpAgent.Lib.Checked

/-!
# The codec in a debug build

Every function of `codec/ber.rs` that adds, subtracts or multiplies without a check of its own, as
it runs in a build with overflow checks and debug assertions. On readers inside a message that fits
into memory the reader computes what it computes without them, and so do the codecs of lengths,
integers and object identifiers.
-/

namespace SnmpAgent
open Rust Tlv

namespace Debug

/-! ## Lengths and integers -/

def encodeLength {ε : Type} (dest : Bytes) (length : Nat) : Res ε Bytes :=
  if length ≤ 127 then do
    let lengthByte ← expectU8 length
    extend dest [lengthByte]
  else do
    let lengthBytes := toBE 8 length
    let leadingZeroBytes := usizeLeadingZeros length / 8
    let significantBytes ← .expect (sliceFrom? lengthBytes leadingZeroBytes)
    let count ← expectU8 significantBytes.length
    let indicator ← u8Add 0x80 count
    let dest ← extend dest [indicator]
    extend dest significantBytes

theorem encodeLength_eq {ε : Type} (dest : Bytes) (length : Nat) :
    (encodeLength dest length : Res ε Bytes) = SnmpAgent.encodeLength dest length := by
  unfold encodeLength SnmpAgent.encodeLength
  refine ite_congr rfl (fun h => ?_) fun _ => ?_
  · rw [expectU8_of_lt (by omega), Res.ok_bind]
  · refine Res.bind_congr fun significant hs => ?_
    have hle : significant.length ≤ 8 := by
      rw [Res.expect_eq_ok, sliceFrom?] at hs
      split at hs
      · cases hs
        rw [List.length_drop, length_toBE]
        omega
      · cases hs
    have hcount : (UInt8.ofNat significant.length).toNat = significant.length :=
      UInt8.toNat_ofNat_of_lt (Nat.lt_of_le_of_lt hle (by decide))
    have hsum : (0x80 : UInt8).toNat + (UInt8.ofNat significant.length).toNat < 256 := by
      rw [hcount, show (0x80 : UInt8).toNat = 128 from rfl]
      omega
    rw [expectU8_of_lt (by omega), Res.ok_bind, u8Add_of_lt hsum, Res.ok_bind]

def encodeSignedI32 {ε : Type} (value : Int32) : Res ε Bytes := do
  let rawBytes := i32ToBe value
  let stripByte : UInt8 := if 0 ≤ value then 0x00 else 0xFF
  let last ← usizeSub rawBytes.length 1
  let skipCount := ((rawBytes.take last).takeWhile (· == stripByte)).length
  let needsSignPreservation := rawBytes[skipCount]?.any fun byte =>
    (0 < value && byte &&& 0x80 != 0) || (value < 0 && byte &&& 0x80 == 0)
  let start := if needsSignPreservation then skipCount - 1 else skipCount
  .expect (sliceFrom? rawBytes start)

theorem encodeSignedI32_eq {ε : Type} (value : Int32) :
    (encodeSignedI32 value : Res ε Bytes) = SnmpAgent.encodeSignedI32 value := by
  have hlen : 1 ≤ (i32ToBe value).length := by simp [i32ToBe]
  unfold encodeSignedI32 SnmpAgent.encodeSignedI32
  dsimp only
  rw [usizeSub_of_le hlen, Res.ok_bind]

def encodeUnsignedBytes {ε : Type} (rawBytes : Bytes) : Res ε Bytes := do
  let skipCount := ((rawBytes.take (rawBytes.length - 1)).takeWhile (· == 0)).length
  let significant ← .expect (sliceFrom? rawBytes skipCount)
  match significant.head? with
  | some firstByte =>
    if firstByte &&& 0x80 != 0 then do
      -- The capacity of the vector with the sign byte.
      let _ ← usizeAdd significant.length 1
      .ok (0x00 :: significant)
    else .ok significant
  | none => .ok significant

def encodeUnsignedU32 {ε : Type} (value : UInt32) : Res ε Bytes :=
  encodeUnsignedBytes (toBE 4 value.toNat)

def encodeUnsignedU64 {ε : Type} (value : UInt64) : Res ε Bytes :=
  encodeUnsignedBytes (toBE 8 value.toNat)

theorem encodeUnsignedBytes_eq {ε : Type} {rawBytes : Bytes} (h : rawBytes.length ≤ 8) :
    (encodeUnsignedBytes rawBytes : Res ε Bytes) = SnmpAgent.encodeUnsignedBytes rawBytes := by
  refine Res.bind_congr fun significant hsignificant => ?_
  have hlen : significant.length + 1 < usizeSize := by
    rw [Res.expect_eq_ok, sliceFrom?] at hsignificant
    split at hsignificant
    · cases hsignificant
      simp only [List.length_drop, usizeSize]
      omega
    · cases hsignificant
  cases significant.head? with
  | none => rfl
  | some firstByte =>
    dsimp only
    rw [usizeAdd_of_lt hlen, Res.ok_bind]

theorem encodeUnsignedU32_eq {ε : Type} (value : UInt32) :
    (encodeUnsignedU32 value : Res ε Bytes) = SnmpAgent.encodeUnsignedU32 value :=
  encodeUnsignedBytes_eq (by rw [length_toBE]; decide)

theorem encodeUnsignedU64_eq {ε : Type} (value : UInt64) :
    (encodeUnsignedU64 value : Res ε Bytes) = SnmpAgent.encodeUnsignedU64 value :=
  encodeUnsignedBytes_eq (by rw [length_toBE])

/-- The value of the significant bytes of an integer. -/
def signExtend (significant : Bytes) (errorOffset : Nat) : Res BerError Int32 :=
  if 4 < significant.length then
    let n := significant.length
    .err (.new s!"BER: INTEGER value too large for i32 ({n} bytes) at offset {errorOffset}")
  else do
    let signByte : UInt8 := if significant.head?.any fun byte => byte &&& 0x80 != 0 then 0xFF else 0
    let start ← usizeSub 4 significant.length
    let word ← copyTail (.replicate 4 signByte) start significant
    .ok (i32FromBe word)

def decodeSignedI32 (integerBytes : Bytes) (errorOffset : Nat) : Res BerError Int32 :=
  if integerBytes.isEmpty then
    .err (.new s!"BER: INTEGER value has zero length at offset {errorOffset}")
  else do
    let isNegative := integerBytes.head?.any fun byte => byte &&& 0x80 != 0
    if 1 < integerBytes.length then
      let redundantByte : UInt8 := if isNegative then 0xFF else 0x00
      let signBitOfNext : UInt8 := if isNegative then 0x80 else 0x00
      let last ← usizeSub integerBytes.length 1
      let firstSignificant :=
        ((integerBytes.zip (integerBytes.drop 1)).findIdx? fun (leading, next) =>
          leading != redundantByte || next &&& 0x80 != signBitOfNext).getD last
      let significant ← .expect (sliceFrom? integerBytes firstSignificant)
      signExtend significant errorOffset
    else signExtend integerBytes errorOffset

theorem signExtend_eq (significant : Bytes) (errorOffset : Nat) :
    signExtend significant errorOffset =
      if 4 < significant.length then
        let n := significant.length
        .err (.new s!"BER: INTEGER value too large for i32 ({n} bytes) at offset {errorOffset}")
      else
        let signByte : UInt8 :=
          if significant.head?.any fun byte => byte &&& 0x80 != 0 then 0xFF else 0
        .ok (i32FromBe (.replicate (4 - significant.length) signByte ++ significant)) := by
  refine ite_congr rfl (fun _ => rfl) fun hle => ?_
  dsimp only
  rw [usizeSub_of_le (Nat.not_lt.mp hle), Res.ok_bind, copyTail_replicate (Nat.not_lt.mp hle),
    Res.ok_bind]

theorem decodeSignedI32_eq (integerBytes : Bytes) (errorOffset : Nat) :
    decodeSignedI32 integerBytes errorOffset =
      SnmpAgent.decodeSignedI32 integerBytes errorOffset := by
  unfold decodeSignedI32 SnmpAgent.decodeSignedI32
  refine ite_congr rfl (fun _ => rfl) fun hne => ite_congr rfl (fun hlen => ?_) fun _ => ?_
  · rw [usizeSub_of_le (Nat.le_of_lt hlen), Res.ok_bind]
    exact Res.bind_congr fun significant _ => signExtend_eq significant errorOffset
  · exact signExtend_eq integerBytes errorOffset

/-- The value of the significant bytes of an unsigned integer. -/
def zeroExtend (width : Nat) (significant : Bytes) (errorOffset : Nat) : Res BerError Nat :=
  if width < significant.length then do
    let bits ← usizeMul width 8
    let n := significant.length
    .err (.new s!"BER: INTEGER value too large for u{bits} ({n} bytes) at offset {errorOffset}")
  else do
    let start ← usizeSub 8 significant.length
    let word ← copyTail (.replicate 8 0) start significant
    .ok (fromBE word)

def decodeUnsigned (width : Nat) (integerBytes : Bytes) (errorOffset : Nat) : Res BerError Nat :=
  match integerBytes.head? with
  | none => .err (.new s!"BER: INTEGER value has zero length at offset {errorOffset}")
  | some firstByte =>
    if firstByte &&& 0x80 != 0 then
      .err (.new
        s!"BER: negative INTEGER cannot be decoded as unsigned at offset {errorOffset}")
    else if 1 < integerBytes.length then do
      let last ← usizeSub integerBytes.length 1
      let firstNonzero := (integerBytes.findIdx? (· != 0)).getD last
      let significant ← .expect (sliceFrom? integerBytes firstNonzero)
      zeroExtend width significant errorOffset
    else zeroExtend width integerBytes errorOffset

theorem zeroExtend_eq {width : Nat} (hwidth : width ≤ 8) (significant : Bytes) (errorOffset : Nat) :
    zeroExtend width significant errorOffset =
      if width < significant.length then
        let bits := width * 8
        let n := significant.length
        .err (.new s!"BER: INTEGER value too large for u{bits} ({n} bytes) at offset {errorOffset}")
      else .ok (fromBE (.replicate (8 - significant.length) 0 ++ significant)) := by
  refine ite_congr rfl (fun _ => ?_) fun hle => ?_
  · have hbits : width * 8 < usizeSize :=
      Nat.lt_of_le_of_lt (Nat.mul_le_mul_right 8 hwidth) (by decide)
    rw [usizeMul_of_lt hbits, Res.ok_bind]
  · have hle : significant.length ≤ 8 := (Nat.not_lt.mp hle).trans hwidth
    rw [usizeSub_of_le hle, Res.ok_bind, copyTail_replicate hle, Res.ok_bind]

/-- The widths of the source are 4 and 8. -/
theorem decodeUnsigned_eq {width : Nat} (hwidth : width ≤ 8) (integerBytes : Bytes)
    (errorOffset : Nat) :
    decodeUnsigned width integerBytes errorOffset =
      SnmpAgent.decodeUnsigned width integerBytes errorOffset := by
  unfold decodeUnsigned SnmpAgent.decodeUnsigned
  cases integerBytes.head? with
  | none => rfl
  | some firstByte =>
    refine ite_congr rfl (fun _ => rfl) fun _ => ite_congr rfl (fun hlen => ?_) fun _ => ?_
    · rw [usizeSub_of_le (Nat.le_of_lt hlen), Res.ok_bind]
      exact Res.bind_congr fun significant _ => zeroExtend_eq hwidth significant errorOffset
    · exact zeroExtend_eq hwidth integerBytes errorOffset

def decodeUnsignedU32 (integerBytes : Bytes) (errorOffset : Nat) : Res BerError UInt32 := do
  let value ← decodeUnsigned 4 integerBytes errorOffset
  if value < 2 ^ 32 then .ok (UInt32.ofNat value)
  else .err (.new
    s!"BER: decoded unsigned value {value} exceeds u32 range at offset {errorOffset}")

def decodeUnsignedU64 (integerBytes : Bytes) (errorOffset : Nat) : Res BerError UInt64 := do
  let value ← decodeUnsigned 8 integerBytes errorOffset
  .ok (UInt64.ofNat value)

theorem decodeUnsignedU32_eq (integerBytes : Bytes) (errorOffset : Nat) :
    decodeUnsignedU32 integerBytes errorOffset =
      SnmpAgent.decodeUnsignedU32 integerBytes errorOffset := by
  rw [decodeUnsignedU32, decodeUnsigned_eq (by decide)]
  rfl

theorem decodeUnsignedU64_eq (integerBytes : Bytes) (errorOffset : Nat) :
    decodeUnsignedU64 integerBytes errorOffset =
      SnmpAgent.decodeUnsignedU64 integerBytes errorOffset := by
  rw [decodeUnsignedU64, decodeUnsigned_eq (by decide)]
  rfl

/-! ## Object identifiers -/

def base128Groups {ε : Type} : Nat → Nat → Res ε Bytes
  | 0, _ => .ok []
  | fuel + 1, remaining =>
    if 0 < remaining then do
      let group ← expectU8 (remaining % 128)
      let groups ← base128Groups fuel (remaining / 128)
      .ok (group :: groups)
    else .ok []

def emitGroups {ε : Type} : Bytes → Res ε Bytes
  | [] => .ok []
  | group :: groups => do
    let high ← groups.reverse.mapM (u8Add · 0x80)
    let last ← u8Add group 0x00
    .ok (high ++ [last])

def encodeBase128 {ε : Type} (value : Nat) : Res ε Bytes :=
  if value = 0 then .ok [0x00]
  else do
    let groups ← base128Groups 10 value
    emitGroups groups

def encodeOid {ε : Type} (oid : Oid) : Res ε Bytes := do
  let (firstArc, secondArc, remainingArcs) := oid.decompose
  let product ← usizeMul firstArc.toNat 40
  let firstCombined ← usizeAdd product secondArc.toNat
  let first ← encodeBase128 firstCombined
  let remaining ← remainingArcs.mapM fun arc => encodeBase128 arc.toNat
  .ok (first ++ remaining.flatten)

theorem base128Groups_eq {ε : Type} (fuel remaining : Nat) :
    (base128Groups fuel remaining : Res ε Bytes) =
      .ok (SnmpAgent.base128Groups fuel remaining) := by
  induction fuel generalizing remaining with
  | zero => rfl
  | succ fuel ih =>
    unfold base128Groups SnmpAgent.base128Groups
    split
    · rw [expectU8_of_lt (by omega), Res.ok_bind, ih, Res.ok_bind]
    · rfl

theorem emitGroups_eq {ε : Type} {groups : Bytes} (h : ∀ group ∈ groups, group.toNat < 128) :
    (emitGroups groups : Res ε Bytes) = .ok (SnmpAgent.emitGroups groups) := by
  cases groups with
  | nil => rfl
  | cons group groups =>
    have hhigh : groups.reverse.mapM (u8Add · 0x80) =
        (.ok (groups.reverse.map (· + 0x80)) : Res ε Bytes) := by
      refine mapM_ok fun group' hgroup' => u8Add_of_lt ?_
      have := h group' (List.mem_cons_of_mem group (List.mem_reverse.mp hgroup'))
      rw [show (0x80 : UInt8).toNat = 128 from rfl]
      omega
    have hlast : group.toNat + (0x00 : UInt8).toNat < 256 := by
      have := h group List.mem_cons_self
      rw [show (0x00 : UInt8).toNat = 0 from rfl]
      omega
    rw [emitGroups, hhigh, Res.ok_bind, u8Add_of_lt hlast, Res.ok_bind, UInt8.add_zero]
    rfl

theorem encodeBase128_eq {ε : Type} (value : Nat) :
    (encodeBase128 value : Res ε Bytes) = .ok (SnmpAgent.encodeBase128 value) := by
  unfold encodeBase128 SnmpAgent.encodeBase128
  split
  · rfl
  · rw [base128Groups_eq, Res.ok_bind]
    exact emitGroups_eq (base128Groups_lt 10 value)

theorem encodeOid_eq {ε : Type} (oid : Oid) :
    (encodeOid oid : Res ε Bytes) = .ok (SnmpAgent.encodeOid oid) := by
  have hfirst := oid.decompose.1.toNat_lt
  have hsecond := oid.decompose.2.1.toNat_lt
  have hproduct : oid.decompose.1.toNat * 40 < usizeSize := by
    simp only [usizeSize]
    omega
  have hsum : oid.decompose.1.toNat * 40 + oid.decompose.2.1.toNat < usizeSize := by
    simp only [usizeSize]
    omega
  have hrest : oid.decompose.2.2.mapM (fun arc => encodeBase128 arc.toNat) =
      (.ok (oid.decompose.2.2.map fun arc => SnmpAgent.encodeBase128 arc.toNat) :
        Res ε (List Bytes)) :=
    mapM_ok fun arc _ => encodeBase128_eq arc.toNat
  unfold encodeOid
  dsimp only
  rw [usizeMul_of_lt hproduct, Res.ok_bind, usizeAdd_of_lt hsum, Res.ok_bind, encodeBase128_eq,
    Res.ok_bind, hrest, Res.ok_bind, ← List.flatMap_def]
  rfl

def decodeBase128Loop (errorOffset : Nat) :
    Bytes → (accumulator bytesConsumed : Nat) → Res BerError (Nat × Nat)
  | [], _, _ => .err (.new s!"BER: truncated OID sub-identifier at offset {errorOffset}")
  | byte :: bytes, accumulator, bytesConsumed => do
    let bytesConsumed ← usizeAdd bytesConsumed 1
    let shifted := accumulator * 128 % 2 ^ 64
    let accumulator ← .okOr
      (.new s!"BER: OID sub-identifier overflows u64 at offset {errorOffset}")
      (checkedAdd shifted (byte &&& 0x7F).toNat)
    if byte &&& 0x80 == 0 then .ok (accumulator, bytesConsumed)
    else decodeBase128Loop errorOffset bytes accumulator bytesConsumed

def decodeSubIdentifiers (errorOffset : Nat) : Nat → Bytes → Res BerError (List Nat)
  | _, [] => .ok []
  | 0, _ :: _ => .panic
  | fuel + 1, remaining => do
    let (subId, bytesConsumed) ← decodeBase128Loop errorOffset remaining 0 0
    debugAssert (bytesConsumed ≠ 0)
    if bytesConsumed = 0 then
      .err (.new s!"BER: internal error: zero bytes consumed decoding OID sub-identifier at offset {errorOffset}")
    else
      let remaining ← .expect (sliceFrom? remaining bytesConsumed)
      let subIds ← decodeSubIdentifiers errorOffset fuel remaining
      .ok (subId :: subIds)

/-- The first combined sub-identifier, split into two arcs. -/
def splitFirst {ε : Type} (firstCombined : Nat) : Res ε (Nat × Nat) :=
  if firstCombined < 40 then .ok (0, firstCombined)
  else if firstCombined < 80 then do
    let secondArc ← usizeSub firstCombined 40
    .ok (1, secondArc)
  else do
    let secondArc ← usizeSub firstCombined 80
    .ok (2, secondArc)

def decodeOid (oidBytes : Bytes) (errorOffset : Nat) : Res BerError Oid :=
  if oidBytes.isEmpty then
    .err (.new s!"BER: OID value has zero length at offset {errorOffset}")
  else do
    match ← decodeSubIdentifiers errorOffset oidBytes.length oidBytes with
    | [] => .err (.new s!"BER: OID has no sub-identifiers at offset {errorOffset}")
    | firstCombined :: subIdentifiers =>
      let (firstArc, secondArc) ← splitFirst firstCombined
      let firstArc ← arcToU32 "first arc" errorOffset firstArc
      let secondArc ← arcToU32 "second arc" errorOffset secondArc
      -- The capacity of the vector of arcs.
      let _ ← usizeAdd (firstCombined :: subIdentifiers).length 1
      let arcs ← arcsToU32 errorOffset subIdentifiers
      match Oid.tryFrom (firstArc :: secondArc :: arcs) with
      | .ok oid => .ok oid
      | .error kind =>
        let oidError := kind.message
        .err (.new
          s!"BER: decoded OID is structurally invalid at offset {errorOffset}: {oidError}")

theorem decodeBase128Loop_eq (errorOffset : Nat) {bytes : Bytes} {consumed : Nat}
    (accumulator : Nat) (h : consumed + bytes.length < usizeSize) :
    decodeBase128Loop errorOffset bytes accumulator consumed =
      SnmpAgent.decodeBase128Loop errorOffset bytes accumulator consumed := by
  induction bytes generalizing accumulator consumed with
  | nil => rfl
  | cons byte bytes ih =>
    rw [List.length_cons] at h
    unfold decodeBase128Loop SnmpAgent.decodeBase128Loop
    rw [usizeAdd_of_lt (by omega), Res.ok_bind]
    refine Res.bind_congr fun accumulator _ => ite_congr rfl (fun _ => rfl) fun _ => ?_
    exact ih accumulator (by omega)

theorem decodeSubIdentifiers_eq (errorOffset fuel : Nat) {bytes : Bytes}
    (h : bytes.length < usizeSize) :
    decodeSubIdentifiers errorOffset fuel bytes =
      SnmpAgent.decodeSubIdentifiers errorOffset fuel bytes := by
  induction fuel generalizing bytes with
  | zero => cases bytes <;> rfl
  | succ fuel ih =>
    cases bytes with
    | nil => rfl
    | cons byte bytes =>
      unfold decodeSubIdentifiers SnmpAgent.decodeSubIdentifiers
      rw [decodeBase128Loop_eq errorOffset 0 (by omega)]
      refine Res.bind_congr fun p hp => ?_
      have hpos : p.2 ≠ 0 := Nat.pos_iff_ne_zero.mp (decodeBase128_consumed hp).1
      dsimp only
      rw [debugAssert_of hpos, Res.ok_bind]
      refine ite_congr rfl (fun _ => rfl) fun _ => Res.bind_congr fun remaining hremaining => ?_
      rw [ih]
      rw [Res.expect_eq_ok, sliceFrom?] at hremaining
      split at hremaining
      · cases hremaining
        rw [List.length_drop]
        omega
      · cases hremaining

theorem splitFirst_eq {ε : Type} (firstCombined : Nat) :
    (splitFirst firstCombined : Res ε (Nat × Nat)) = .ok (SnmpAgent.splitFirst firstCombined) := by
  unfold splitFirst SnmpAgent.splitFirst
  split
  · rfl
  split
  · rw [usizeSub_of_le (by omega), Res.ok_bind]
  · rw [usizeSub_of_le (by omega), Res.ok_bind]

theorem length_decodeSubIdentifiers_le {errorOffset fuel : Nat} {bytes : Bytes} {subIds : List Nat}
    (h : SnmpAgent.decodeSubIdentifiers errorOffset fuel bytes = .ok subIds) :
    subIds.length ≤ fuel := by
  induction fuel generalizing bytes subIds with
  | zero =>
    cases bytes with
    | nil =>
      cases h
      exact Nat.le_refl 0
    | cons => cases h
  | succ fuel ih =>
    cases bytes with
    | nil =>
      cases h
      exact Nat.zero_le _
    | cons byte bytes =>
      simp only [SnmpAgent.decodeSubIdentifiers, Res.bind_eq_ok, Res.guard_eq_ok] at h
      obtain ⟨_, -, -, _, -, subIds, hsub, h⟩ := h
      cases h
      exact Nat.succ_le_succ (ih hsub)

theorem decodeOid_eq {oidBytes : Bytes} (errorOffset : Nat) (h : oidBytes.length ≤ isizeMax) :
    decodeOid oidBytes errorOffset = SnmpAgent.decodeOid oidBytes errorOffset := by
  unfold decodeOid SnmpAgent.decodeOid
  refine ite_congr rfl (fun _ => rfl) fun _ => ?_
  rw [decodeSubIdentifiers_eq errorOffset _ (Nat.lt_of_le_of_lt h isizeMax_lt)]
  refine Res.bind_congr fun subIds hsub => ?_
  cases subIds with
  | nil => rfl
  | cons firstCombined subIds =>
    have hcapacity : (firstCombined :: subIds).length + 1 < usizeSize := by
      have := length_decodeSubIdentifiers_le hsub
      simp only [isizeMax] at h
      simp only [usizeSize]
      omega
    dsimp only
    rw [splitFirst_eq, Res.ok_bind]
    refine Res.bind_congr fun firstArc _ => Res.bind_congr fun secondArc _ => ?_
    rw [usizeAdd_of_lt hcapacity]
    refine (Res.ok_bind _ _).trans (Res.bind_congr fun arcs _ => ?_)
    cases Oid.tryFrom (firstArc :: secondArc :: arcs) <;> rfl

/-! ## The reader -/

section
variable {n : Nat}

def offset {ε : Type} (r : BerReader) : Res ε Nat := usizeAdd r.baseOffset r.position

/-- `ok_or_else` with an error that names the offset. -/
def okOrAt {α : Type} (r : BerReader) (message : Nat → String) : Option α → Res BerError α
  | some a => .ok a
  | none => do
    let offset ← offset r
    .err (.new (message offset))

def peekTag (r : BerReader) : Res BerError UInt8 :=
  okOrAt r (fun offset => s!"BER: unexpected end of input at offset {offset} while peeking tag")
    r.input[r.position]?

/-- `self.position += n`. -/
def advance {ε : Type} (n : Nat) : Act BerReader ε Unit := do
  let r ← get
  let position ← Act.lift (usizeAdd r.position n)
  set { r with position }

def readTag : Act BerReader BerError UInt8 := do
  let r ← get
  let tag ← Act.lift (peekTag r)
  advance 1
  return tag

/-- `return Err(..)` with an error that names the offset. -/
def failAt {α : Type} (r : BerReader) (message : Nat → String) : Act BerReader BerError α := do
  let offset ← Act.lift (offset r)
  .fail (.new (message offset))

def accumulateLength (r : BerReader) : Bytes → Nat → Res BerError Nat
  | [], length => .ok length
  | lengthByte :: lengthBytes, length => do
    let length ← okOrAt r (fun offset => s!"BER: length value overflows usize at offset {offset}")
      ((checkedMul length 256).bind (checkedAdd · lengthByte.toNat))
    accumulateLength r lengthBytes length

def readLongFormLength (firstByte : UInt8) : Act BerReader BerError Nat := do
  let r ← get
  if firstByte = 0xFF then
    failAt r fun offset => s!"BER: reserved length byte 0xFF at offset {offset}"
  else
    let extraByteCount := (firstByte &&& 0x7F).toNat
    if extraByteCount = 0 then
      failAt r fun offset =>
        s!"BER: indefinite-length encoding is not permitted in SNMP at offset {offset}"
    else if 8 < extraByteCount then
      failAt r fun offset =>
        s!"BER: length field too large ({extraByteCount} bytes) at offset {offset}"
    else
      let last ← Act.lift (usizeAdd r.position extraByteCount)
      let lengthBytes ← Act.lift (okOrAt r
        (fun offset =>
          s!"BER: truncated length field: need {extraByteCount} bytes at offset {offset}")
        (slice? r.input r.position last))
      advance extraByteCount
      let r ← get
      Act.lift (accumulateLength r lengthBytes 0)

def readLength : Act BerReader BerError Nat := do
  let r ← get
  let firstByte ← Act.lift (okOrAt r
    (fun offset => s!"BER: unexpected end of input at offset {offset} while reading length")
    r.input[r.position]?)
  advance 1
  if firstByte &&& 0x80 = 0 then return firstByte.toNat
  else readLongFormLength firstByte

def readTlv : Act BerReader BerError (UInt8 × Bytes) := do
  let tag ← readTag
  let length ← readLength
  let r ← get
  let left := r.input.length - r.position
  let tagHex := hex2 tag
  let valueSlice ← Act.lift (okOrAt r
    (fun offset =>
      s!"BER: truncated value: length field ({length}) exceeds remaining input ({left} bytes) for tag 0x{tagHex} at offset {offset}")
    ((checkedAdd r.position length).bind (slice? r.input r.position)))
  advance length
  return (tag, valueSlice)

def readExpectedTlv (expectedTag : UInt8) (typeName : String) :
    Act BerReader BerError (Nat × Bytes) := do
  let r ← get
  let tagStartOffset ← Act.lift (offset r)
  let (tag, valueBytes) ← readTlv
  if tag ≠ expectedTag then
    let expectedHex := hex2 expectedTag
    let tagHex := hex2 tag
    .fail (.new
      s!"BER: expected {typeName} (0x{expectedHex}), got 0x{tagHex} at offset {tagStartOffset}")
  else return (tagStartOffset, valueBytes)

def readConstructed (expectedTag : UInt8) : Act BerReader BerError BerReader := do
  let r ← get
  let tagStartOffset ← Act.lift (offset r)
  let (tag, contents) ← readTlv
  if tag ≠ expectedTag then
    let expectedHex := hex2 expectedTag
    let tagHex := hex2 tag
    .fail (.new s!"BER: expected tag 0x{expectedHex}, got 0x{tagHex} at offset {tagStartOffset}")
  else
    let r ← get
    let contentsEnd ← Act.lift (offset r)
    let contentsOffset ← Act.lift (usizeSub contentsEnd contents.length)
    return .newWithOffset contents contentsOffset

def readInteger : Act BerReader BerError Int32 := do
  let (tagStartOffset, integerBytes) ← readExpectedTlv tagInteger "INTEGER"
  Act.lift (decodeSignedI32 integerBytes tagStartOffset)

def readOid : Act BerReader BerError Oid := do
  let (tagStartOffset, oidBytes) ← readExpectedTlv tagOid "OID"
  Act.lift (decodeOid oidBytes tagStartOffset)

variable {r : BerReader}

theorem offset_eq {ε : Type} (hn : n ≤ isizeMax) (h : r.Inside n) :
    (offset r : Res ε Nat) = .ok r.offset := by
  have h₁ := h.position_le
  have h₂ := h.offset_le
  have h₃ := isizeMax_lt
  exact usizeAdd_of_lt (by omega)

theorem okOrAt_eq (hn : n ≤ isizeMax) (h : r.Inside n) {α : Type} (message : Nat → String)
    (o : Option α) : okOrAt r message o = .okOr (.new (message r.offset)) o := by
  cases o with
  | none => rw [okOrAt, offset_eq hn h, Res.ok_bind, Res.okOr_none]
  | some a => rfl

theorem peekTag_eq (hn : n ≤ isizeMax) (h : r.Inside n) : peekTag r = r.peekTag :=
  okOrAt_eq hn h ..

theorem agree_failAt (hn : n ≤ isizeMax) (h : r.Inside n) {α : Type} (message : Nat → String)
    {P : BerReader → Prop} {Q : α → BerReader → Prop} :
    Act.Agree P (failAt r message) (Act.fail (.new (message r.offset))) Q :=
  .lift_left (offset_eq hn h) (.fail _)

/-- The cursor moves over bytes that are there. -/
theorem agree_advance {ε : Type} {k : Nat} (hn : n ≤ isizeMax) (h : r.Inside n)
    (hk : r.position + k ≤ r.input.length) :
    Act.Agree (ε := ε) (· = r) (advance k) (modify (·.advance k)) fun _ r' =>
      r' = r.advance k ∧ r'.Inside n := by
  have hlt : r.position + k < usizeSize := by
    have h₁ := h.offset_le
    have h₂ := isizeMax_lt
    omega
  have hinside : (r.advance k).Inside n := ⟨hk, h.offset_le⟩
  rintro r rfl
  refine ⟨?_, fun _ r' h' => ?_⟩
  · rw [advance, StateT.run_bind, StateT.run_get, Res.pure_eq, Res.ok_bind, StateT.run_bind,
      Act.run_lift, usizeAdd_of_lt hlt, Res.mapErr_ok, Res.ok_bind, Res.ok_bind]
    rfl
  · obtain rfl := Act.modify_eq_ok.mp h'
    exact ⟨rfl, hinside⟩

theorem lt_of_getElem? {tag : UInt8} (h : r.input[r.position]? = some tag) :
    r.position + 1 ≤ r.input.length :=
  (List.getElem?_eq_some_iff.mp h).1

theorem agree_readTag (hn : n ≤ isizeMax) :
    Act.Agree (BerReader.Inside n) readTag BerReader.readTag fun _ r' => r'.Inside n := by
  refine .get_bind fun r hr => .lift_bind (peekTag_eq hn hr) fun tag htag => ?_
  refine (agree_advance hn hr (lt_of_getElem? (Res.okOr_eq_ok.mp htag))).bind fun _ => ?_
  exact .pure fun _ h => h.2

theorem accumulateLength_eq (hn : n ≤ isizeMax) (h : r.Inside n) (bytes : Bytes) (length : Nat) :
    accumulateLength r bytes length = BerReader.accumulateLength r.offset bytes length := by
  induction bytes generalizing length with
  | nil => rfl
  | cons byte bytes ih =>
    unfold accumulateLength BerReader.accumulateLength
    rw [okOrAt_eq hn h]
    exact Res.bind_congr fun length _ => ih length

theorem agree_readLongFormLength (hn : n ≤ isizeMax) (firstByte : UInt8) :
    Act.Agree (BerReader.Inside n) (readLongFormLength firstByte)
      (BerReader.readLongFormLength firstByte) fun _ r' => r'.Inside n := by
  refine .get_bind fun r hr => .ite (fun _ => agree_failAt hn hr _) fun _ =>
    .ite (fun _ => agree_failAt hn hr _) fun _ => .ite (fun _ => agree_failAt hn hr _) fun hcount =>
      ?_
  have hsum : r.position + (firstByte &&& 0x7F).toNat < usizeSize := by
    have h₁ := hr.position_le
    have h₂ := hr.offset_le
    simp only [isizeMax] at hn
    simp only [usizeSize]
    omega
  refine .lift_left (usizeAdd_of_lt hsum) (.lift_bind (okOrAt_eq hn hr _ _) fun bytes hbytes => ?_)
  obtain ⟨hlen, hle, tail, htail⟩ := slice?_eq_some.mp (Res.okOr_eq_ok.mp hbytes)
  have hk : r.position + (firstByte &&& 0x7F).toNat ≤ r.input.length := by
    have := congrArg List.length htail
    simp only [List.length_drop, List.length_append] at this
    omega
  refine (agree_advance hn hr hk).bind fun _ => .intro fun r' hr' => ?_
  obtain ⟨rfl, hinside⟩ := hr'
  exact .get_left (.lift (accumulateLength_eq hn hinside _ _) fun _ _ h _ => h ▸ hinside)

theorem agree_readLength (hn : n ≤ isizeMax) :
    Act.Agree (BerReader.Inside n) readLength BerReader.readLength fun _ r' => r'.Inside n := by
  refine .get_bind fun r hr => .lift_bind (okOrAt_eq hn hr _ _) fun firstByte hbyte => ?_
  refine (agree_advance hn hr (lt_of_getElem? (Res.okOr_eq_ok.mp hbyte))).bind fun _ => ?_
  refine .ite (fun _ => .pure fun _ h => h.2) fun _ => ?_
  exact (agree_readLongFormLength hn firstByte).mono (fun _ h => h.2) fun _ _ h => h

theorem agree_readTlv (hn : n ≤ isizeMax) :
    Act.Agree (BerReader.Inside n) readTlv BerReader.readTlv fun p r' =>
      r'.Inside n ∧ p.2.length ≤ r'.position := by
  refine (agree_readTag hn).bind fun tag => (agree_readLength hn).bind fun length => ?_
  refine .get_bind fun r hr => .lift_bind (okOrAt_eq hn hr _ _) fun v hv => ?_
  obtain ⟨last, hlast, hv⟩ := Option.bind_eq_some_iff.mp (Res.okOr_eq_ok.mp hv)
  unfold checkedAdd at hlast
  split at hlast
  · cases hlast
    obtain ⟨hlen, hle, tail, htail⟩ := slice?_eq_some.mp hv
    have hk : r.position + length ≤ r.input.length := by
      have := congrArg List.length htail
      simp only [List.length_drop, List.length_append] at this
      omega
    refine (agree_advance hn hr hk).bind fun _ => .pure fun r' h => ⟨h.2, ?_⟩
    rw [h.1, hlen]
    exact Nat.le_add_left ..
  · cases hlast

theorem agree_readExpectedTlv (hn : n ≤ isizeMax) (expectedTag : UInt8) (typeName : String) :
    Act.Agree (BerReader.Inside n) (readExpectedTlv expectedTag typeName)
      (BerReader.readExpectedTlv expectedTag typeName) fun p r' =>
        r'.Inside n ∧ p.2.length ≤ r'.position := by
  refine .get_bind fun r hr => .lift_left (offset_eq hn hr) ?_
  refine ((agree_readTlv hn).at hr).bind fun p => ?_
  exact .ite (fun _ => .fail _) fun _ => .pure fun _ h => h

theorem agree_readConstructed (hn : n ≤ isizeMax) (expectedTag : UInt8) :
    Act.Agree (BerReader.Inside n) (readConstructed expectedTag)
      (BerReader.readConstructed expectedTag) fun sub r' => r'.Inside n ∧ sub.Inside n := by
  refine .get_bind fun r hr => .lift_left (offset_eq hn hr) ?_
  refine ((agree_readTlv hn).at hr).bind fun p => ?_
  refine .ite (fun _ => .fail _) fun _ => .get_bind fun r' hr' => .lift_left (offset_eq hn hr'.1) ?_
  refine .lift_bind rfl fun off hoff => .pure fun s hs => ?_
  have hle : p.2.length ≤ r'.offset := hr'.2.trans (Nat.le_add_left ..)
  rw [usizeSub_of_le hle] at hoff
  cases hoff
  exact ⟨hs ▸ hr'.1, hr'.1.sub hr'.2⟩

theorem agree_readInteger (hn : n ≤ isizeMax) :
    Act.Agree (BerReader.Inside n) readInteger BerReader.readInteger fun _ r' => r'.Inside n :=
  (agree_readExpectedTlv hn _ _).bind fun _ =>
    .lift (decodeSignedI32_eq _ _) fun _ _ h _ => h.1

theorem agree_readOid (hn : n ≤ isizeMax) :
    Act.Agree (BerReader.Inside n) readOid BerReader.readOid fun _ r' => r'.Inside n := by
  refine (agree_readExpectedTlv hn _ _).bind fun p => .intro fun r' hr' => ?_
  have hlen : p.2.length ≤ isizeMax := by
    have h₁ := hr'.1.position_le
    have h₂ := hr'.1.offset_le
    have h₃ := hr'.2
    omega
  exact .lift (decodeOid_eq p.1 hlen) fun _ _ h _ => h ▸ hr'.1

end

end Debug

end SnmpAgent
