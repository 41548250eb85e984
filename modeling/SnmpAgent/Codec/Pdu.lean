import SnmpAgent.Codec.Varbind

/-!
# PDUs on the wire (`codec/ber/pdu.rs`)

The context-tagged PDU around a list of variable bindings, which stays raw at this layer. Both
encoders are inverted by `Ber.decodePdu`, which drops the error fields of a standard PDU.
-/

namespace SnmpAgent
open Rust Tlv BerReader

inductive DecodedPdu where
  | standard (tag : UInt8) (requestId : Int32) (rawVarbindList : Bytes)
  | bulk (requestId nonRepeaters maxRepetitions : Int32) (rawVarbindList : Bytes)
  deriving DecidableEq

namespace Ber

def readValidatedVarbindList : Act BerReader BerError Bytes := do
  let pduReader ← get
  if pduReader.isEmpty then .fail (.new "BER: PDU missing VarBindList")
  else
    let rawVarbindList ← .lift pduReader.remaining
    let _ ← readSequence
    if (← get).isEmpty then return rawVarbindList
    else .fail (.new "BER: trailing bytes after VarBindList in PDU")

/-- The tags of `Pdus` other than the bulk request. -/
def validStandardPduTags : List UInt8 :=
  [tagGetRequest, tagGetNextRequest, tagResponse, tagSetRequest, tagInformRequest, tagTrap,
    tagReport]

/-- The fields behind the PDU tag. -/
def readPduFields (pduTag : UInt8) : Act BerReader BerError DecodedPdu := do
  let requestId ← readInteger
  if pduTag = tagGetBulkRequest then
    let nonRepeaters ← readInteger
    let maxRepetitions ← readInteger
    let rawVarbindList ← readValidatedVarbindList
    return .bulk requestId nonRepeaters maxRepetitions rawVarbindList
  else if pduTag ∈ validStandardPduTags then
    -- error-status and error-index are skipped.
    let _ ← readInteger
    let _ ← readInteger
    let rawVarbindList ← readValidatedVarbindList
    return .standard pduTag requestId rawVarbindList
  else
    let tagHex := hex2 pduTag
    .fail (.new s!"BER: unrecognised PDU tag 0x{tagHex}")

def decodePdu (rawPduBytes : Bytes) : Res BerError DecodedPdu := do
  let outerReader := new rawPduBytes
  let pduTag ← outerReader.peekTag
  let (pduReader, outerReader) ← Act.on outerReader (readConstructed pduTag)
  if !outerReader.isEmpty then .err (.new "BER: trailing bytes after PDU TLV")
  else
    let (pdu, _) ← Act.on pduReader (readPduFields pduTag)
    .ok pdu

/-- The fields that both encoders write before the list. -/
def writePduFields {ε : Type} (first second third : Int32) (rawVarbindList : Bytes) :
    Res ε BerWriter := do
  let inner ← BerWriter.new.writeInteger first
  let inner ← inner.writeInteger second
  let inner ← inner.writeInteger third
  inner.writeRaw rawVarbindList

def encodePdu (tag : UInt8) (requestId errorStatus errorIndex : Int32) (rawVarbindList : Bytes) :
    Res BerError Bytes :=
  if tag ∉ validStandardPduTags then
    let tagHex := hex2 tag
    .err (.new s!"BER: invalid standard PDU tag 0x{tagHex}")
  else do
    let inner ← writePduFields requestId errorStatus errorIndex rawVarbindList
    BerWriter.new.writeConstructed tag inner

def encodeBulkPdu {ε : Type} (requestId nonRepeaters maxRepetitions : Int32)
    (rawVarbindList : Bytes) : Res ε Bytes := do
  let inner ← writePduFields requestId nonRepeaters maxRepetitions rawVarbindList
  BerWriter.new.writeConstructed tagGetBulkRequest inner

/-! ## What the encoders write -/

def integerTlv (n : Int32) : Bytes := tlv tagInteger (integerContent n)

/-- A PDU with three leading integers. -/
def pduTlv (tag : UInt8) (first second third : Int32) (rawVarbindList : Bytes) : Bytes :=
  tlv tag (integerTlv first ++ (integerTlv second ++ (integerTlv third ++ rawVarbindList)))

theorem writePduFields_eq {ε : Type} (first second third : Int32) (raw : Bytes) :
    (writePduFields first second third raw : Res ε BerWriter) =
      capped (integerTlv first ++ (integerTlv second ++ (integerTlv third ++ raw))) := by
  simp only [writePduFields, BerWriter.writeInteger_eq, BerWriter.writeRaw_eq,
    BerWriter.new_append, capped_bind_append, List.append_assoc, integerTlv]

theorem encodePdu_eq {tag : UInt8} (h : tag ∈ validStandardPduTags)
    (requestId errorStatus errorIndex : Int32) (raw : Bytes) :
    encodePdu tag requestId errorStatus errorIndex raw =
      capped (pduTlv tag requestId errorStatus errorIndex raw) := by
  rw [encodePdu, if_neg (not_not.mpr h)]
  simp only [writePduFields_eq, BerWriter.writeConstructed_eq, BerWriter.new_append,
    capped_bind_tlv]
  rfl

theorem encodeBulkPdu_eq {ε : Type} (requestId nonRepeaters maxRepetitions : Int32) (raw : Bytes) :
    (encodeBulkPdu requestId nonRepeaters maxRepetitions raw : Res ε Bytes) =
      capped (pduTlv tagGetBulkRequest requestId nonRepeaters maxRepetitions raw) := by
  simp only [encodeBulkPdu, writePduFields_eq, BerWriter.writeConstructed_eq,
    BerWriter.new_append, capped_bind_tlv]
  rfl

/-! ## Decoding what was encoded -/

theorem readInteger_integerTlv {r : BerReader} {tail : Bytes} (n : Int32) (hr : r.Bounded)
    (hrest : r.rest = integerTlv n ++ tail) : readInteger.run r = .ok (n, r.leaving tail) :=
  (readInteger_eq_ok hr).mpr ⟨tail, hr.intField_tlv hrest, rfl⟩

theorem readValidatedVarbindList_tlv {r : BerReader} {v : Bytes} (hr : r.Bounded)
    (hrest : r.rest = tlv tagSequence v) :
    readValidatedVarbindList.run r = .ok (tlv tagSequence v, r.leaving []) := by
  have hrest' : r.rest = tlv tagSequence v ++ [] := by rw [hrest, List.append_nil]
  have hne : ¬ r.isEmpty = true := by
    rw [BerReader.isEmpty_iff, hrest]
    exact List.cons_ne_nil _ _
  have hempty : (r.leaving []).isEmpty = true := (BerReader.isEmpty_iff _).mpr (rest_leaving hrest')
  have hseq := (readConstructed_eq_ok hr).mpr ⟨_, [], hr.field_tlv hrest', rfl, rfl⟩
  simp only [readValidatedVarbindList, Act.bind_eq_ok, Act.get_eq_ok, Act.guard_eq_ok,
    Act.lift_eq_ok, Act.guard_not_eq_ok, Act.pure_eq_ok]
  exact ⟨r, r, ⟨rfl, rfl⟩, hne, _, _, ⟨hr.remaining_eq, rfl⟩, _, _, hseq, _, _, ⟨rfl, rfl⟩, hempty,
    hrest.symm, rfl⟩

/-- What the structural decoder makes of an encoded PDU. -/
def decodedPdu (tag : UInt8) (first second third : Int32) (raw : Bytes) : DecodedPdu :=
  if tag = tagGetBulkRequest then .bulk first second third raw else .standard tag first raw

theorem readPduFields_fields {r : BerReader} {tag : UInt8} {first second third : Int32} {v : Bytes}
    (htag : tag = tagGetBulkRequest ∨ tag ∈ validStandardPduTags) (hr : r.Bounded)
    (hrest : r.rest = integerTlv first ++ (integerTlv second ++
      (integerTlv third ++ tlv tagSequence v))) :
    ∃ r', (readPduFields tag).run r =
      .ok (decodedPdu tag first second third (tlv tagSequence v), r') := by
  have h1 := readInteger_integerTlv first hr hrest
  have hrest1 := rest_leaving hrest
  have hr1 := hr.leaving (integerTlv second ++ (integerTlv third ++ tlv tagSequence v))
  have h2 := readInteger_integerTlv second hr1 hrest1
  have hrest2 := rest_leaving hrest1
  have hr2 := hr1.leaving (integerTlv third ++ tlv tagSequence v)
  have h3 := readInteger_integerTlv third hr2 hrest2
  have h4 := readValidatedVarbindList_tlv (hr2.leaving (tlv tagSequence v)) (rest_leaving hrest2)
  rw [readPduFields, StateT.run_bind, h1, Res.ok_bind, decodedPdu]
  split
  · simp only [StateT.run_bind, h2, h3, h4, Res.ok_bind]
    exact ⟨_, rfl⟩
  · rename_i hbulk
    simp only [if_pos (htag.resolve_left hbulk), StateT.run_bind, h2, h3, h4, Res.ok_bind]
    exact ⟨_, rfl⟩

theorem decodePdu_pduTlv {tag : UInt8} {first second third : Int32} {v : Bytes}
    (htag : tag = tagGetBulkRequest ∨ tag ∈ validStandardPduTags)
    (hlen : (pduTlv tag first second third (tlv tagSequence v)).length < usizeSize) :
    decodePdu (pduTlv tag first second third (tlv tagSequence v)) =
      .ok (decodedPdu tag first second third (tlv tagSequence v)) := by
  have hr := bounded_new hlen
  have H := hr.field_tlv (List.append_nil _).symm
  have hcons := (readConstructed_eq_ok hr).mpr ⟨_, [], H, rfl, rfl⟩
  have hempty : ((new (pduTlv tag first second third (tlv tagSequence v))).leaving []).isEmpty =
      true := (BerReader.isEmpty_iff _).mpr (rest_leaving (List.append_nil _).symm)
  obtain ⟨r', hfields⟩ := readPduFields_fields htag (bounded_newWithOffset H _) rfl
  simp only [decodePdu, Res.bind_eq_ok, Act.on_eq_ok, peekTag_eq_ok]
  refine ⟨tag, H.head_eq, (_, _), hcons, ?_⟩
  simp only [hempty, Bool.not_true, Bool.false_eq_true, if_false, Res.bind_eq_ok, Act.on_eq_ok]
  exact ⟨(_, r'), hfields, rfl⟩

end Ber

end SnmpAgent
