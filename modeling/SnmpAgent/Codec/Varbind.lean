import SnmpAgent.Codec.Reader
import SnmpAgent.Codec.OidCodec
import SnmpAgent.Codec.Value

/-!
# Variable bindings on the wire (`codec/ber/varbind.rs`)

`encodeVarbindValue` writes one TLV (`encodeVarbindValue_eq`), and what the decoder of the agent
reads back from an encoded list is the list (`decodeVarbindList_varbindListTlv` followed by
`decodeVarbindValueToValue_decodedValue`). The decoding loop never runs out of fuel.
-/

namespace SnmpAgent
open Rust Tlv BerReader

/-! ## Decoding -/

/-- The value CHOICE of a variable binding; APPLICATION types stay raw at this layer. -/
inductive DecodedVarbindValue where
  | unspecified
  | noSuchObject
  | noSuchInstance
  | endOfMibView
  | integer (n : Int32)
  | octetString (bytes : Bytes)
  | objectIdentifier (oid : Oid)
  | raw (tag : UInt8) (valueBytes : Bytes)
  deriving DecidableEq

structure DecodedVarbind where
  name : Oid
  value : DecodedVarbindValue
  deriving DecidableEq

/-- The three exceptions, which must be empty. -/
def readException (tag : UInt8) : Act BerReader BerError DecodedVarbindValue := do
  let (_, exceptionBytes) ← readTlv
  if exceptionBytes ≠ [] then
    let tagHex := hex2 tag
    let n := exceptionBytes.length
    .fail (.new s!"BER: exception tag 0x{tagHex} must have length 0, got {n}")
  else if tag = tagNoSuchObject then return .noSuchObject
  else if tag = tagNoSuchInstance then return .noSuchInstance
  else if tag = tagEndOfMibView then return .endOfMibView
  else
    let tagHex := hex2 tag
    .fail (.new s!"BER: unexpected exception tag 0x{tagHex}")

/-- The `match` of `decode_varbind_value` on the tag ahead. -/
def readChoice (tag : UInt8) : Act BerReader BerError DecodedVarbindValue :=
  if tag = tagNull then do
    readNull
    return .unspecified
  else if tag = tagNoSuchObject ∨ tag = tagNoSuchInstance ∨ tag = tagEndOfMibView then
    readException tag
  else if tag = tagInteger then return .integer (← readInteger)
  else if tag = tagOctetString then return .octetString (← readOctetString)
  else if tag = tagOid then return .objectIdentifier (← readOid)
  else do
    let (rawTag, rawValue) ← readTlv
    return .raw rawTag rawValue

def decodeVarbindValue : Act BerReader BerError DecodedVarbindValue := do
  let tag ← (← get).peekTag
  let value ← readChoice tag
  let r ← get
  if r.isEmpty then return value
  else
    let left ← .lift r.remaining
    let n := left.length
    .fail (.new s!"BER: trailing bytes in VarBind SEQUENCE: {n} byte(s) remain after value")

/-- One iteration of `decode_varbind_list`. -/
def decodeVarbind : Act BerReader BerError DecodedVarbind := do
  let varbindReader ← readSequence
  let (name, varbindReader) ← Act.on varbindReader readOid
  let (value, _) ← Act.on varbindReader decodeVarbindValue
  return ⟨name, value⟩

/-- The loop of `decode_varbind_list`. Every iteration consumes a TLV, so the number of bytes is
enough fuel. -/
def decodeVarbinds : Nat → Act BerReader BerError (List DecodedVarbind)
  | 0 => do
    if (← get).isEmpty then return []
    else .lift .panic
  | fuel + 1 => do
    if (← get).isEmpty then return []
    else
      let varbind ← decodeVarbind
      let varbinds ← decodeVarbinds fuel
      return varbind :: varbinds

def decodeVarbindList (rawVarbindListBytes : Bytes) : Res BerError (List DecodedVarbind) := do
  let (listReader, outerReader) ← Act.on (new rawVarbindListBytes) readSequence
  if !outerReader.isEmpty then
    .err (.new "BER: trailing bytes after VarBindList SEQUENCE")
  else
    let (varbinds, _) ← Act.on listReader (decodeVarbinds listReader.input.length)
    .ok varbinds

/-- The APPLICATION types of SMIv2, told by their tag. -/
def decodeApplicationValue (tag : UInt8) (valueBytes : Bytes) : Res BerError Value :=
  if tag = tagIpAddress then
    if h : valueBytes.length = 4 then .ok (.ipAddress ⟨valueBytes, h⟩)
    else
      let n := valueBytes.length
      .err (.new s!"BER: IpAddress must be exactly 4 bytes, got {n}")
  else if tag = tagCounter32 then .counter32 <$> decodeUnsignedU32 valueBytes 0
  else if tag = tagGauge32 then .gauge32 <$> decodeUnsignedU32 valueBytes 0
  else if tag = tagTimeticks then .timeTicks <$> decodeUnsignedU32 valueBytes 0
  else if tag = tagOpaque then .ok (.opaque_ valueBytes)
  else if tag = tagCounter64 then .counter64 <$> decodeUnsignedU64 valueBytes 0
  else
    let tagHex := hex2 tag
    .err (.new s!"BER: unsupported APPLICATION tag 0x{tagHex} in VarBind value")

def decodeVarbindValueToValue : DecodedVarbindValue → Res BerError VarbindValue
  | .unspecified => .ok .unspecified
  | .noSuchObject => .ok .noSuchObject
  | .noSuchInstance => .ok .noSuchInstance
  | .endOfMibView => .ok .endOfMibView
  | .integer n => .ok (.value (.integer32 n))
  | .octetString bytes => .ok (.value (.octetString bytes))
  | .objectIdentifier oid => .ok (.value (.objectIdentifier oid))
  | .raw tag valueBytes => .value <$> decodeApplicationValue tag valueBytes

/-! ## Encoding -/

def encodeNullValue : Bytes := [tagNull, 0x00]

def encodeException (tag : UInt8) : Res BerError Bytes :=
  if tag ≠ tagNoSuchObject ∧ tag ≠ tagNoSuchInstance ∧ tag ≠ tagEndOfMibView then
    let tagHex := hex2 tag
    .err (.new s!"BER: invalid exception tag 0x{tagHex}")
  else .ok [tag, 0x00]

def encodeVarbindValue : VarbindValue → Res BerError Bytes
  | .unspecified => .ok encodeNullValue
  | .noSuchObject => encodeException tagNoSuchObject
  | .noSuchInstance => encodeException tagNoSuchInstance
  | .endOfMibView => encodeException tagEndOfMibView
  | .value (.integer32 n) => BerWriter.new.writeInteger n
  | .value (.octetString bytes) => BerWriter.new.writeOctetString bytes
  | .value (.objectIdentifier oid) => BerWriter.new.writeOid oid
  | .value (.ipAddress octets) => BerWriter.new.writeTlv tagIpAddress octets.val
  | .value (.counter32 n) => BerWriter.new.writeTaggedUnsigned32 tagCounter32 n
  | .value (.gauge32 n) => BerWriter.new.writeTaggedUnsigned32 tagGauge32 n
  | .value (.timeTicks n) => BerWriter.new.writeTaggedUnsigned32 tagTimeticks n
  | .value (.opaque_ bytes) => BerWriter.new.writeTlv tagOpaque bytes
  | .value (.counter64 n) => BerWriter.new.writeTaggedUnsigned64 tagCounter64 n

def encodeVarbind {ε : Type} (oid : Oid) (encodedValueTlv : Bytes) : Res ε Bytes := do
  let innerWriter ← BerWriter.new.writeOid oid
  let innerWriter ← innerWriter.writeRaw encodedValueTlv
  BerWriter.new.writeSequence innerWriter

/-- The loop of `encode_varbind_list`. -/
def writeAll {ε : Type} (w : BerWriter) : List Bytes → Res ε BerWriter
  | [] => .ok w
  | encodedVarbind :: encodedVarbinds => do
    let w ← w.writeRaw encodedVarbind
    writeAll w encodedVarbinds

def encodeVarbindList {ε : Type} (encodedVarbinds : List Bytes) : Res ε Bytes := do
  let innerWriter ← writeAll BerWriter.new encodedVarbinds
  BerWriter.new.writeSequence innerWriter

/-! ## What the encoders write -/

def valueTag : VarbindValue → UInt8
  | .unspecified => tagNull
  | .noSuchObject => tagNoSuchObject
  | .noSuchInstance => tagNoSuchInstance
  | .endOfMibView => tagEndOfMibView
  | .value (.integer32 _) => tagInteger
  | .value (.octetString _) => tagOctetString
  | .value (.objectIdentifier _) => tagOid
  | .value (.ipAddress _) => tagIpAddress
  | .value (.counter32 _) => tagCounter32
  | .value (.gauge32 _) => tagGauge32
  | .value (.timeTicks _) => tagTimeticks
  | .value (.opaque_ _) => tagOpaque
  | .value (.counter64 _) => tagCounter64

def valueContent : VarbindValue → Bytes
  | .value (.integer32 n) => integerContent n
  | .value (.octetString bytes) => bytes
  | .value (.objectIdentifier oid) => encodeOid oid
  | .value (.ipAddress octets) => octets.val
  | .value (.counter32 n) => unsignedContent (toBE 4 n.toNat)
  | .value (.gauge32 n) => unsignedContent (toBE 4 n.toNat)
  | .value (.timeTicks n) => unsignedContent (toBE 4 n.toNat)
  | .value (.opaque_ bytes) => bytes
  | .value (.counter64 n) => unsignedContent (toBE 8 n.toNat)
  | _ => []

def valueTlv (v : VarbindValue) : Bytes := tlv (valueTag v) (valueContent v)

def varbindTlv (vb : Varbind) : Bytes :=
  tlv tagSequence (tlv tagOid (encodeOid vb.oid) ++ valueTlv vb.value)

def varbindListTlv (vbs : List Varbind) : Bytes := tlv tagSequence (vbs.flatMap varbindTlv)

theorem encodeVarbindValue_eq (v : VarbindValue) : encodeVarbindValue v = capped (valueTlv v) := by
  cases v with
  | value v =>
    cases v <;> simp only [encodeVarbindValue, BerWriter.writeInteger_eq,
      BerWriter.writeOctetString_eq, BerWriter.writeOid_eq, BerWriter.writeTlv_eq,
      BerWriter.writeTaggedUnsigned32_eq, BerWriter.writeTaggedUnsigned64_eq] <;> rfl
  | _ => rfl

theorem encodeVarbind_eq {ε : Type} (oid : Oid) (t : Bytes) :
    (encodeVarbind oid t : Res ε Bytes) =
      capped (tlv tagSequence (tlv tagOid (encodeOid oid) ++ t)) := by
  simp only [encodeVarbind, BerWriter.writeOid_eq, BerWriter.writeRaw_eq,
    BerWriter.writeSequence_eq, BerWriter.new_append, capped_bind_tlv, capped_bind_tlv_append]

theorem writeAll_eq {ε : Type} (ts : List Bytes) {w : BerWriter} (hw : w.length ≤ isizeMax) :
    (writeAll w ts : Res ε BerWriter) = capped (w ++ ts.flatten) := by
  induction ts generalizing w with
  | nil => rw [writeAll, List.flatten_nil, List.append_nil, capped_of_le hw]
  | cons t ts ih =>
    rw [writeAll, BerWriter.writeRaw_eq, List.flatten_cons, ← List.append_assoc]
    by_cases h : (w ++ t).length ≤ isizeMax
    · rw [capped_of_le h, Res.ok_bind, ih h]
    · rw [capped, if_neg h, Res.panic_bind, capped, if_neg]
      rw [List.length_append]
      omega

theorem encodeVarbindList_eq {ε : Type} (ts : List Bytes) :
    (encodeVarbindList ts : Res ε Bytes) = capped (tlv tagSequence ts.flatten) := by
  have hnew : BerWriter.new.length ≤ isizeMax := by decide
  simp only [encodeVarbindList, writeAll_eq ts hnew, BerWriter.writeSequence_eq,
    BerWriter.new_append, capped_bind_tlv]

/-! ## Decoding what was encoded -/

/-- What the structural decoder makes of an encoded value. -/
def decodedValue : VarbindValue → DecodedVarbindValue
  | .unspecified => .unspecified
  | .noSuchObject => .noSuchObject
  | .noSuchInstance => .noSuchInstance
  | .endOfMibView => .endOfMibView
  | .value (.integer32 n) => .integer n
  | .value (.octetString bytes) => .octetString bytes
  | .value (.objectIdentifier oid) => .objectIdentifier oid
  | v => .raw (valueTag v) (valueContent v)

theorem decodeVarbindValueToValue_decodedValue (v : VarbindValue) :
    decodeVarbindValueToValue (decodedValue v) = .ok v := by
  have h32 (n : UInt32) : decodeUnsignedU32 (unsignedContent (toBE 4 n.toNat)) 0 = .ok n :=
    decodeUnsignedU32_eq_ok.mpr
      ⟨unsignedContent_ne_nil _, signed_unsignedContent 4 n.toNat n.toNat_lt⟩
  have h64 (n : UInt64) : decodeUnsignedU64 (unsignedContent (toBE 8 n.toNat)) 0 = .ok n :=
    decodeUnsignedU64_eq_ok.mpr
      ⟨unsignedContent_ne_nil _, signed_unsignedContent 8 n.toNat n.toNat_lt⟩
  cases v with
  | value v =>
    cases v with
    | ipAddress octets =>
      have h : decodeApplicationValue tagIpAddress octets.val = .ok (.ipAddress octets) := by
        rw [decodeApplicationValue, if_pos rfl, dif_pos octets.property]
      simp only [decodedValue, valueTag, valueContent, decodeVarbindValueToValue, h, Res.map_ok]
    | counter32 n =>
      have h : decodeApplicationValue tagCounter32 (unsignedContent (toBE 4 n.toNat)) =
        .ok (.counter32 n) := congrArg (Value.counter32 <$> ·) (h32 n)
      simp only [decodedValue, valueTag, valueContent, decodeVarbindValueToValue, h, Res.map_ok]
    | gauge32 n =>
      have h : decodeApplicationValue tagGauge32 (unsignedContent (toBE 4 n.toNat)) =
        .ok (.gauge32 n) := congrArg (Value.gauge32 <$> ·) (h32 n)
      simp only [decodedValue, valueTag, valueContent, decodeVarbindValueToValue, h, Res.map_ok]
    | timeTicks n =>
      have h : decodeApplicationValue tagTimeticks (unsignedContent (toBE 4 n.toNat)) =
        .ok (.timeTicks n) := congrArg (Value.timeTicks <$> ·) (h32 n)
      simp only [decodedValue, valueTag, valueContent, decodeVarbindValueToValue, h, Res.map_ok]
    | counter64 n =>
      have h : decodeApplicationValue tagCounter64 (unsignedContent (toBE 8 n.toNat)) =
        .ok (.counter64 n) := congrArg (Value.counter64 <$> ·) (h64 n)
      simp only [decodedValue, valueTag, valueContent, decodeVarbindValueToValue, h, Res.map_ok]
    | _ => rfl
  | _ => rfl

section
variable {r : BerReader} {tail : Bytes}

theorem readException_of_field {tag : UInt8} (hr : r.Bounded) (H : Field tag [] tail r.rest) :
    (readException tag).run r =
      (if tag = tagNoSuchObject then return .noSuchObject
      else if tag = tagNoSuchInstance then return .noSuchInstance
      else if tag = tagEndOfMibView then return .endOfMibView
      else
        let tagHex := hex2 tag
        .fail (.new s!"BER: unexpected exception tag 0x{tagHex}") :
          Act BerReader BerError DecodedVarbindValue).run (r.leaving tail) := by
  have h := (readTlv_eq_ok_of_bounded hr).mpr ⟨tail, H, rfl⟩
  rw [readException, StateT.run_bind, h]
  rfl

theorem readChoice_raw (tag : UInt8) {v : Bytes} (hr : r.Bounded)
    (htag : tag ∉ [tagNull, tagNoSuchObject, tagNoSuchInstance, tagEndOfMibView, tagInteger,
      tagOctetString, tagOid]) (H : Field tag v tail r.rest) :
    (readChoice tag).run r = .ok (.raw tag v, r.leaving tail) := by
  simp only [List.mem_cons, List.not_mem_nil, or_false, not_or] at htag
  obtain ⟨h1, h2, h3, h4, h5, h6, h7⟩ := htag
  rw [readChoice, if_neg h1, if_neg (by simp [*]), if_neg h5, if_neg h6, if_neg h7,
    Act.bind_eq_ok]
  exact ⟨(tag, v), _, (readTlv_eq_ok_of_bounded hr).mpr ⟨tail, H, rfl⟩, rfl⟩

theorem readChoice_valueTag (v : VarbindValue) (hr : r.Bounded)
    (H : Field (valueTag v) (valueContent v) tail r.rest) :
    (readChoice (valueTag v)).run r = .ok (decodedValue v, r.leaving tail) := by
  cases v with
  | unspecified =>
    rw [valueTag, readChoice, if_pos rfl, Act.bind_eq_ok]
    exact ⟨(), _, (readNull_eq_ok hr).mpr ⟨tail, H, rfl⟩, rfl⟩
  | noSuchObject => exact readException_of_field hr H
  | noSuchInstance => exact readException_of_field hr H
  | endOfMibView => exact readException_of_field hr H
  | value v =>
    cases v with
    | integer32 n =>
      have h := (readInteger_eq_ok hr).mpr
        ⟨tail, ⟨_, H, integerContent_ne_nil n, signed_integerContent n⟩, rfl⟩
      exact Act.bind_eq_ok.mpr ⟨n, _, h, rfl⟩
    | octetString bytes =>
      exact Act.bind_eq_ok.mpr ⟨bytes, _, (readOctetString_eq_ok hr).mpr ⟨tail, H, rfl⟩, rfl⟩
    | objectIdentifier oid =>
      have h := (readOid_eq_ok hr).mpr ⟨_, tail, H, rfl, decodeOid_encodeOid oid r.offset⟩
      exact Act.bind_eq_ok.mpr ⟨oid, _, h, rfl⟩
    | ipAddress octets => exact readChoice_raw tagIpAddress hr (by decide) H
    | counter32 n => exact readChoice_raw tagCounter32 hr (by decide) H
    | gauge32 n => exact readChoice_raw tagGauge32 hr (by decide) H
    | timeTicks n => exact readChoice_raw tagTimeticks hr (by decide) H
    | opaque_ bytes => exact readChoice_raw tagOpaque hr (by decide) H
    | counter64 n => exact readChoice_raw tagCounter64 hr (by decide) H

theorem decodeVarbindValue_valueTlv (v : VarbindValue) (hr : r.Bounded)
    (hrest : r.rest = valueTlv v) :
    decodeVarbindValue.run r = .ok (decodedValue v, r.leaving []) := by
  have H : Field (valueTag v) (valueContent v) [] r.rest :=
    hr.field_tlv (by rw [hrest, List.append_nil]; rfl)
  have hempty : (r.leaving []).isEmpty = true :=
    (BerReader.isEmpty_iff _).mpr (rest_leaving (hrest.trans (List.append_nil _).symm))
  simp only [decodeVarbindValue, Act.bind_eq_ok, Act.get_eq_ok, Act.liftM_eq_ok, peekTag_eq_ok]
  refine ⟨r, r, ⟨rfl, rfl⟩, valueTag v, r, ⟨H.head_eq, rfl⟩, decodedValue v, r.leaving [],
    readChoice_valueTag v hr H, _, _, ⟨rfl, rfl⟩, ?_⟩
  rw [if_pos hempty]
  rfl

/-- One element of an encoded list. -/
theorem decodeVarbind_varbindTlv (vb : Varbind) (hr : r.Bounded)
    (hrest : r.rest = varbindTlv vb ++ tail) :
    decodeVarbind.run r = .ok (⟨vb.oid, decodedValue vb.value⟩, r.leaving tail) := by
  have H := hr.field_tlv hrest
  let sub := newWithOffset (tlv tagOid (encodeOid vb.oid) ++ valueTlv vb.value)
    ((r.leaving tail).offset - (tlv tagOid (encodeOid vb.oid) ++ valueTlv vb.value).length)
  have hsub : sub.Bounded := bounded_newWithOffset H _
  have hseq : readSequence.run r = .ok (sub, r.leaving tail) :=
    (readConstructed_eq_ok hr).mpr ⟨_, tail, H, rfl, rfl⟩
  have hoid : readOid.run sub = .ok (vb.oid, sub.leaving (valueTlv vb.value)) :=
    (readOid_eq_ok hsub).mpr ⟨_, _, hsub.field_tlv rfl, rfl, decodeOid_encodeOid vb.oid _⟩
  have hvalue := decodeVarbindValue_valueTlv vb.value (hsub.leaving (valueTlv vb.value))
    (rest_leaving rfl)
  simp only [decodeVarbind, Act.bind_eq_ok, Act.liftM_eq_ok, Act.on_eq_ok, Act.pure_eq_ok]
  exact ⟨sub, _, hseq, (_, _), _, ⟨hoid, rfl⟩, (_, _), _, ⟨hvalue, rfl⟩, rfl, rfl⟩

theorem varbindTlv_ne_nil (vb : Varbind) : varbindTlv vb ≠ [] := List.cons_ne_nil _ _

theorem length_le_flatMap_varbindTlv (vbs : List Varbind) :
    vbs.length ≤ (vbs.flatMap varbindTlv).length := by
  induction vbs with
  | nil => exact le_rfl
  | cons vb vbs ih =>
    have := List.length_pos_iff.mpr (varbindTlv_ne_nil vb)
    rw [List.flatMap_cons, List.length_append, List.length_cons]
    omega

theorem decodeVarbinds_flatMap (vbs : List Varbind) {fuel : Nat} (hr : r.Bounded)
    (hrest : r.rest = vbs.flatMap varbindTlv) (hfuel : vbs.length ≤ fuel) :
    ∃ r', (decodeVarbinds fuel).run r =
      .ok (vbs.map fun vb => ⟨vb.oid, decodedValue vb.value⟩, r') := by
  induction vbs generalizing r fuel with
  | nil =>
    have hempty : r.isEmpty = true := (BerReader.isEmpty_iff r).mpr hrest
    refine ⟨r, ?_⟩
    cases fuel <;> simp [decodeVarbinds, hempty]
  | cons vb vbs ih =>
    obtain _ | fuel := fuel
    · simp at hfuel
    rw [List.flatMap_cons] at hrest
    have hone := decodeVarbind_varbindTlv vb hr hrest
    obtain ⟨r', htail⟩ := ih (hr.leaving _) (rest_leaving hrest) (Nat.le_of_succ_le_succ hfuel)
    have hne : ¬ r.isEmpty = true := by
      rw [BerReader.isEmpty_iff, hrest]
      exact List.append_ne_nil_of_left_ne_nil (varbindTlv_ne_nil vb) _
    simp only [decodeVarbinds, Act.bind_eq_ok, Act.get_eq_ok]
    refine ⟨r', r, r, ⟨rfl, rfl⟩, ?_⟩
    rw [if_neg hne]
    simp only [Act.bind_eq_ok, Act.pure_eq_ok]
    exact ⟨_, _, hone, _, _, htail, rfl, rfl⟩

end

theorem decodeVarbindList_varbindListTlv (vbs : List Varbind)
    (hlen : (varbindListTlv vbs).length < usizeSize) :
    decodeVarbindList (varbindListTlv vbs) =
      .ok (vbs.map fun vb => ⟨vb.oid, decodedValue vb.value⟩) := by
  have hr := bounded_new hlen
  have H : Field tagSequence (vbs.flatMap varbindTlv) [] (varbindListTlv vbs) :=
    hr.field_tlv (List.append_nil _).symm
  have hseq := (readConstructed_eq_ok hr).mpr ⟨_, [], H, rfl, rfl⟩
  have hempty : ((new (varbindListTlv vbs)).leaving []).isEmpty = true :=
    (BerReader.isEmpty_iff _).mpr (rest_leaving (List.append_nil _).symm)
  obtain ⟨r', hloop⟩ := decodeVarbinds_flatMap vbs (bounded_newWithOffset H _) rfl
    (length_le_flatMap_varbindTlv vbs)
  simp only [decodeVarbindList, Res.bind_eq_ok, Act.on_eq_ok]
  refine ⟨(_, _), hseq, ?_⟩
  simp only [hempty, Bool.not_true, Bool.false_eq_true, if_false, Res.bind_eq_ok, Act.on_eq_ok]
  exact ⟨(_, r'), hloop, rfl⟩

end SnmpAgent
