import SnmpAgent.Codec.Safety
import SnmpAgent.Lib.Course

/-!
# Positions of nested readers

A reader and the sub-readers that it returns are used in any order, and a read that fails may leave
its cursor inside a TLV. `Session` is the list of all readers over one message; a call addresses one
of them by its place in the list. Whatever the calls are, every reader ranges over the bytes of the
message from its base offset on, its cursor only moves forward, and the TLVs that were read from it
lie one behind the other.
-/

namespace SnmpAgent
open Rust Tlv

namespace BerReader

/-! ## Reads -/

/-- The methods of a reader. -/
inductive Read where
  | peekTag
  | tag
  | length
  | remaining
  | tlv
  | sequence
  | constructed (expectedTag : UInt8)
  | integer
  | unsigned32
  | unsigned64
  | taggedUnsigned32 (expectedTag : UInt8)
  | taggedUnsigned64 (expectedTag : UInt8)
  | octetString
  | null
  | oid

namespace Read

/-- A call that does not return a reader. -/
def plain {α : Type} (x : Act BerReader BerError α) :
    Act BerReader BerError (Option BerReader) := do
  let _ ← x
  return none

/-- A call that returns a sub-reader. -/
def nested (x : Act BerReader BerError BerReader) : Act BerReader BerError (Option BerReader) := do
  let sub ← x
  return some sub

def call : Read → Act BerReader BerError (Option BerReader)
  | peekTag => plain do .lift (← get).peekTag
  | tag => plain readTag
  | length => plain readLength
  | remaining => plain do .lift (← get).remaining
  | tlv => plain readTlv
  | sequence => nested readSequence
  | constructed expectedTag => nested (readConstructed expectedTag)
  | integer => plain readInteger
  | unsigned32 => plain readUnsigned32
  | unsigned64 => plain readUnsigned64
  | taggedUnsigned32 expectedTag => plain (readTaggedUnsigned32 expectedTag)
  | taggedUnsigned64 expectedTag => plain (readTaggedUnsigned64 expectedTag)
  | octetString => plain readOctetString
  | null => plain readNull
  | oid => plain readOid

/-- Whether the method begins with `read_tlv`. -/
def readsTlv : Read → Bool
  | peekTag | tag | length | remaining => false
  | _ => true

end Read

/-! ## Cursors -/

/-- The same input, with the cursor at the same place or further on, and inside if it was. -/
structure Ahead (r r' : BerReader) : Prop where
  input_eq : r'.input = r.input
  baseOffset_eq : r'.baseOffset = r.baseOffset
  position_le : r.position ≤ r'.position
  inside : r.position ≤ r.input.length → r'.position ≤ r.input.length

instance : Std.Refl Ahead where
  refl _ := ⟨rfl, rfl, le_rfl, id⟩

instance : IsTrans BerReader Ahead where
  trans _ _ _ h h' := ⟨h'.input_eq.trans h.input_eq, h'.baseOffset_eq.trans h.baseOffset_eq,
    h.position_le.trans h'.position_le,
    fun hle => h.input_eq ▸ h'.inside (h.input_eq ▸ h.inside hle)⟩

theorem ahead_advance {r : BerReader} {raw tail : Bytes} (h : r.rest = raw ++ tail) :
    Ahead r (r.advance raw.length) := by
  refine ⟨rfl, rfl, Nat.le_add_right .., fun hle => ?_⟩
  have hlen := congrArg List.length h
  simp only [rest, List.length_drop, List.length_append] at hlen
  rw [position_advance]
  omega

theorem Ahead.offset_le {r r' : BerReader} (h : Ahead r r') : r.offset ≤ r'.offset := by
  rw [offset, offset, h.baseOffset_eq]
  exact Nat.add_le_add_left h.position_le _

theorem leads_readTag (r : BerReader) : Act.Leads Ahead readTag r := by
  refine .get_bind (.lift_bind fun tag htag => .modify_bind ?_ (.pure tag _))
  obtain ⟨tail, htail⟩ := List.head?_eq_some_iff.mp (peekTag_eq_ok.mp htag)
  have hrest : r.rest = [tag] ++ tail := htail
  exact ahead_advance hrest

theorem leads_readLongFormLength (firstByte : UInt8) (r : BerReader) :
    Act.Leads Ahead (readLongFormLength firstByte) r := by
  refine .get_bind (.ite (fun _ => .fail _ r) fun _ => .ite (fun _ => .fail _ r) fun _ =>
    .ite (fun _ => .fail _ r) fun _ => .lift_bind fun bs hbs => .modify_bind ?_ (.lift _ _))
  obtain ⟨hlen, -, tail, htail⟩ := slice?_eq_some.mp (Res.okOr_eq_ok.mp hbs)
  rw [← hlen]
  exact ahead_advance htail

theorem leads_readLength (r : BerReader) : Act.Leads Ahead readLength r := by
  refine .get_bind (.lift_bind fun firstByte hfirst => .modify_bind ?_ (.ite
    (fun _ => .pure _ _) fun _ => leads_readLongFormLength firstByte _))
  rw [Res.okOr_eq_ok, ← List.head?_drop] at hfirst
  obtain ⟨tail, htail⟩ := List.head?_eq_some_iff.mp hfirst
  have hrest : r.rest = [firstByte] ++ tail := htail
  exact ahead_advance hrest

theorem leads_readTlv (r : BerReader) : Act.Leads Ahead readTlv r := by
  refine (leads_readTag r).bind fun tag r₁ _ => (leads_readLength r₁).bind fun n r₂ _ => ?_
  refine .get_bind (.lift_bind fun v hv => .modify_bind ?_ (.pure _ _))
  obtain ⟨hlen, -, ⟨tail, htail⟩, -⟩ := valueSlice_eq_some.mp (Res.okOr_eq_ok.mp hv)
  rw [← hlen]
  exact ahead_advance htail

theorem ends_readExpectedTlv (tag : UInt8) (name : String) (r : BerReader) :
    Act.Leads readTlv.Ends (readExpectedTlv tag name) r := by
  refine .get_bind (.bind_same (fun _ h => h) fun p r' _ => ?_)
  exact .ite (fun _ => .fail _ r') fun _ => .pure _ r'

theorem ends_readConstructed (tag : UInt8) (r : BerReader) :
    Act.Leads readTlv.Ends (readConstructed tag) r := by
  refine .get_bind (.bind_same (fun _ h => h) fun p r' _ => ?_)
  exact .ite (fun _ => .fail _ r') fun _ => .get_bind (.lift_bind fun _ _ => .pure _ r')

theorem Read.leads_plain {R : BerReader → BerReader → Prop} {α : Type}
    {x : Act BerReader BerError α} {r : BerReader} (hx : Act.Leads R x r) :
    Act.Leads R (plain x) r := hx.bind_same fun _ r' _ => .pure none r'

/-- A method that begins with `read_tlv` leaves the cursor where that leaves it. -/
theorem Read.ends_call {read : Read} (h : read.readsTlv = true) (r : BerReader) :
    Act.Leads readTlv.Ends read.call r := by
  have hnested {x : Act BerReader BerError BerReader} (hx : Act.Leads readTlv.Ends x r) :
      Act.Leads readTlv.Ends (nested x) r := hx.bind_same fun sub r' _ => .pure (some sub) r'
  have hfield {α : Type} (tag : UInt8) (name : String) (f : Nat × Bytes → Act BerReader BerError α)
      (hf : ∀ p r', Act.Leads Eq (f p) r') :
      Act.Leads readTlv.Ends (plain (readExpectedTlv tag name >>= f)) r :=
    leads_plain ((ends_readExpectedTlv tag name r).bind_same fun p r' _ => hf p r')
  cases read with
  | peekTag | tag | length | remaining => cases h
  | tlv => exact leads_plain fun _ h => h
  | sequence => exact hnested (ends_readConstructed tagSequence r)
  | constructed expectedTag => exact hnested (ends_readConstructed expectedTag r)
  | integer | unsigned32 | unsigned64 | oid => exact hfield _ _ _ fun p r' => .lift _ r'
  | taggedUnsigned32 expectedTag | taggedUnsigned64 expectedTag =>
    exact hfield _ _ _ fun p r' => .lift _ r'
  | octetString => exact hfield _ _ _ fun p r' => .pure _ r'
  | null => exact hfield _ _ _ fun p r' => .ite (fun _ => .pure _ r') fun _ => .fail _ r'

theorem Read.leads_call (read : Read) (r : BerReader) : Act.Leads Ahead read.call r := by
  cases h : read.readsTlv with
  | true => exact (ends_call h r).mono (leads_readTlv r)
  | false =>
    cases read with
    | peekTag => exact leads_plain (.get_bind (.lift _ r))
    | tag => exact leads_plain (leads_readTag r)
    | length => exact leads_plain (leads_readLength r)
    | remaining => exact leads_plain (.get_bind (.lift _ r))
    | _ => cases h

/-- With the cursor inside, no call panics. -/
theorem Read.returns_call (read : Read) {r : BerReader} (h : r.position ≤ r.input.length) :
    (read.call.run r).Returns := by
  let n := r.baseOffset + r.input.length
  have hr : Keeps n r.rest.length r := ⟨⟨h, le_rfl⟩, le_rfl⟩
  have hsafe {α : Type} {x : Act BerReader BerError α} {f : α → Option BerReader}
      {Q : α → BerReader → Prop} (hx : Act.Safe (Keeps n r.rest.length) x Q) :
      ((x >>= fun a => pure (f a)).run r).Returns :=
    ((hx.bind fun a => .pure (Q := fun _ _ => True) fun _ _ => trivial) r hr).1
  have htotal {α : Type} {x : Act BerReader BerError α} (hx : Act.Total x) :
      ((plain x).run r).Returns := hx.bind (fun _ => .pure none) r
  cases read with
  | peekTag => exact htotal (Act.Total.get.bind fun _ => .lift Res.returns_okOr)
  | tag => exact htotal total_readTag
  | length => exact htotal total_readLength
  | remaining =>
    exact hsafe (Q := fun _ _ => True) (.get_bind fun r' hr' =>
      .lift (returns_remaining hr') fun _ _ _ _ => trivial)
  | tlv => exact htotal total_readTlv
  | sequence => exact hsafe safe_readSequence
  | constructed expectedTag => exact hsafe (safe_readConstructed expectedTag)
  | integer => exact hsafe safe_readInteger
  | unsigned32 => exact hsafe safe_readUnsigned32
  | unsigned64 => exact hsafe safe_readUnsigned64
  | taggedUnsigned32 expectedTag => exact hsafe (safe_readTaggedUnsigned32 expectedTag)
  | taggedUnsigned64 expectedTag => exact hsafe (safe_readTaggedUnsigned64 expectedTag)
  | octetString => exact hsafe safe_readOctetString
  | null => exact hsafe safe_readNull
  | oid => exact hsafe safe_readOid

/-- Sub-readers come from `read_constructed`. -/
theorem Read.readConstructed_of_call {read : Read} {r r' sub : BerReader}
    (h : read.call.run r = .ok (some sub, r')) :
    ∃ tag, (readConstructed tag).run r = .ok (sub, r') := by
  have hnested {x : Act BerReader BerError BerReader}
      (h : (nested x).run r = .ok (some sub, r')) : x.run r = .ok (sub, r') := by
    simp only [nested, Act.bind_eq_ok, Act.pure_eq_ok, Option.some.injEq] at h
    obtain ⟨_, _, h, rfl, rfl⟩ := h
    exact h
  have hplain {α : Type} {x : Act BerReader BerError α} :
      (plain x).run r ≠ .ok (some sub, r') := by
    intro h
    simp only [plain, Act.bind_eq_ok, Act.pure_eq_ok] at h
    obtain ⟨_, _, _, h, _⟩ := h
    cases h
  cases read with
  | sequence => exact ⟨tagSequence, hnested h⟩
  | constructed expectedTag => exact ⟨expectedTag, hnested h⟩
  | _ => exact absurd h hplain

/-! ## Readers over a message -/

/-- The input is the part of the message from the base offset on, and the cursor is inside. -/
structure Within (bytes : Bytes) (r : BerReader) : Prop where
  position_le : r.position ≤ r.input.length
  input_eq : slice? bytes r.baseOffset (r.baseOffset + r.input.length) = some r.input

section
variable {bytes : Bytes} {r r' : BerReader}

theorem within_new (bytes : Bytes) : (new bytes).Within bytes :=
  ⟨Nat.zero_le _, slice?_eq_some.mpr ⟨rfl, Nat.zero_le _, [], (List.append_nil bytes).symm⟩⟩

theorem Within.ahead (H : r.Within bytes) (h : Ahead r r') : r'.Within bytes := by
  refine ⟨?_, ?_⟩
  · rw [h.input_eq]
    exact h.inside H.position_le
  · rw [h.input_eq, h.baseOffset_eq]
    exact H.input_eq

/-- The bytes ahead of the cursor are those of the message from the offset on. -/
theorem Within.rest_eq (H : r.Within bytes) :
    slice? bytes r.offset (r.offset + r.rest.length) = some r.rest := by
  have hsplit : r.input = r.input.take r.position ++ r.rest := (List.take_append_drop ..).symm
  have hslice := H.input_eq
  rw [hsplit] at hslice
  have hrest := (slice?_append hslice).2
  have hlen : r.baseOffset + (r.input.take r.position).length = r.offset := by
    rw [List.length_take, Nat.min_eq_left H.position_le, offset]
  have hstop : r.baseOffset + (r.input.take r.position ++ r.rest).length =
      r.offset + r.rest.length := by
    rw [List.length_append, ← Nat.add_assoc, hlen]
  rwa [hstop, hlen] at hrest

/-- What `read_tlv` consumes: the tag, the length field and the value. -/
theorem Within.tlv (H : r.Within bytes) {tag : UInt8} {v : Bytes}
    (h : readTlv.run r = .ok ((tag, v), r')) :
    ∃ f, IsLength f v.length ∧ r'.offset = r.offset + (1 + f.length + v.length) ∧
      slice? bytes r.offset r'.offset = some (tag :: (f ++ v)) ∧
      slice? bytes (r'.offset - v.length) r'.offset = some v := by
  obtain ⟨raw, ⟨head, ⟨f, hf, rfl⟩, rfl⟩, hrest, rfl, -⟩ := readTlv_eq_ok.mp h
  have hslice := H.rest_eq
  rw [hrest] at hslice
  have hraw := (slice?_append hslice).1
  have hvalue := (slice?_append hraw).2
  refine ⟨f, hf, ?_, ?_, ?_⟩
  · rw [offset_advance, List.length_append, List.length_cons, Nat.add_comm f.length]
  · rw [offset_advance]
    exact hraw
  · rw [offset_advance]
    rw [List.length_append, ← Nat.add_assoc] at hvalue ⊢
    rwa [Nat.add_sub_cancel]

theorem Within.sub (H : r.Within bytes) {tag : UInt8} {sub : BerReader}
    (h : (readConstructed tag).run r = .ok (sub, r')) : sub.Within bytes := by
  obtain ⟨v, htlv, rfl⟩ := readConstructed_iff.mp h
  obtain ⟨f, -, -, -, hvalue⟩ := H.tlv htlv
  refine ⟨Nat.zero_le _, ?_⟩
  simp only [newWithOffset]
  rwa [Nat.sub_add_cancel (value_le_offset htlv)]

theorem Within.next_byte (H : r.Within bytes) (h : r.position < r.input.length) :
    r.input[r.position]? = bytes[r.offset]? := by
  obtain ⟨-, -, tail, htail⟩ := slice?_eq_some.mp H.rest_eq
  have hne : r.rest ≠ [] := by
    rw [rest, Ne, List.drop_eq_nil_iff]
    omega
  rw [← List.head?_drop, ← List.head?_drop, htail, List.head?_append_of_ne_nil _ hne]
  rfl

end

/-- A reader tells the truth about the message: its input is where it says, its cursor is inside and
stands at the offset in the message, and a TLV that is read is what stands there. -/
structure Faithful (bytes : Bytes) (r : BerReader) : Prop extends Within bytes r where
  remaining_eq : ∃ rest, (r.remaining : Res BerError Bytes) = .ok rest ∧
    slice? bytes r.offset (r.offset + rest.length) = some rest
  next_byte : r.position < r.input.length → r.input[r.position]? = bytes[r.offset]?
  tlv_eq : ∀ tag v r', readTlv.run r = .ok ((tag, v), r') →
    ∃ f, IsLength f v.length ∧ r'.offset = r.offset + (1 + f.length + v.length) ∧
      slice? bytes r.offset r'.offset = some (tag :: (f ++ v))

theorem Within.faithful {bytes : Bytes} {r : BerReader} (H : r.Within bytes) :
    r.Faithful bytes where
  toWithin := H
  remaining_eq := by
    refine ⟨r.rest, ?_, H.rest_eq⟩
    rw [remaining, sliceFrom?_of_le H.position_le]
    rfl
  next_byte := H.next_byte
  tlv_eq tag v r' h := by
    obtain ⟨f, hf, hoff, hraw, -⟩ := H.tlv h
    exact ⟨f, hf, hoff, hraw⟩

end BerReader

/-! ## Sessions -/

/-- A TLV that was read, the reader it was read from, and its range in the message. -/
structure TlvRead where
  reader : Nat
  start : Nat
  stop : Nat
  tag : UInt8
  value : Bytes

/-- The readers over a message in the order in which they were made, and the TLVs read so far, the
latest first. The readers do not know of the list. -/
structure Session where
  readers : List BerReader
  tlvs : List TlvRead

namespace Session
open BerReader

def start (bytes : Bytes) : Session := ⟨[.new bytes], []⟩

/-- The TLV that a call reads, also if it refuses it afterwards. -/
def tlvOf (i : Nat) (r : BerReader) (read : Read) : Option TlvRead :=
  if read.readsTlv then
    match readTlv.run r with
    | .ok ((tag, value), r') => some ⟨i, r.offset, r'.offset, tag, value⟩
    | _ => none
  else none

/-- A call on the reader at this place, if there is one. -/
def step (s : Session) (call : Nat × Read) : Res Empty Session :=
  match s.readers[call.1]? with
  | none => .ok s
  | some r =>
    let tlvs := (tlvOf call.1 r call.2).toList ++ s.tlvs
    match call.2.call.run r with
    | .ok (sub, r') => .ok ⟨s.readers.set call.1 r' ++ sub.toList, tlvs⟩
    | .err (_, r') => .ok ⟨s.readers.set call.1 r', tlvs⟩
    | .panic => .panic

def run (calls : List (Nat × Read)) (s : Session) : Res Empty Session := calls.foldlM step s

/-- What a call does: nothing, or it moves one reader on and may add a sub-reader. -/
theorem step_eq_ok {s s' : Session} {i : Nat} {read : Read} (h : s.step (i, read) = .ok s') :
    s' = s ∨ ∃ r r' subs, s.readers[i]? = some r ∧ read.call.Ends r r' ∧
      (∀ sub ∈ subs, ∃ tag, (readConstructed tag).run r = .ok (sub, r')) ∧
      s' = ⟨s.readers.set i r' ++ subs, (tlvOf i r read).toList ++ s.tlvs⟩ := by
  rw [step] at h
  dsimp only at h
  split at h
  · cases h
    exact .inl rfl
  rename_i r hr
  refine .inr ⟨r, ?_⟩
  split at h
  · rename_i sub r' hcall
    cases h
    refine ⟨r', sub.toList, hr, .inl ⟨sub, hcall⟩, fun q hq => ?_, rfl⟩
    rw [Option.mem_toList] at hq
    cases hq
    exact Read.readConstructed_of_call hcall
  · rename_i e r' hcall
    cases h
    exact ⟨r', [], hr, .inr ⟨e, hcall⟩, fun _ hq => absurd hq List.not_mem_nil,
      by rw [List.append_nil]⟩
  · cases h

theorem tlvOf_eq_some {i : Nat} {r : BerReader} {read : Read} {t : TlvRead}
    (h : tlvOf i r read = some t) :
    ∃ r', read.readsTlv = true ∧ readTlv.run r = .ok ((t.tag, t.value), r') ∧ t.reader = i ∧
      t.start = r.offset ∧ t.stop = r'.offset := by
  rw [tlvOf] at h
  split at h
  · rename_i hreads
    split at h
    · rename_i tag value r' hr'
      cases h
      exact ⟨r', hreads, hr', rfl, rfl, rfl⟩
    · cases h
  · cases h

/-! ## Runs -/

/-- Every reader is faithful, and so are the records of the TLVs. From one reader a later TLV begins
where the earlier one ends, or behind that. -/
structure Faithful (bytes : Bytes) (s : Session) : Prop where
  readers : ∀ r ∈ s.readers, r.Faithful bytes
  tlvs : ∀ t ∈ s.tlvs, ∃ f, IsLength f t.value.length ∧
    slice? bytes t.start t.stop = some (t.tag :: (f ++ t.value))
  passed : ∀ t ∈ s.tlvs, ∃ r, s.readers[t.reader]? = some r ∧ t.stop ≤ r.offset
  apart : s.tlvs.Pairwise fun later earlier =>
    later.reader = earlier.reader → earlier.stop ≤ later.start

/-- No reader has moved back or to another input. -/
structure Later (s s' : Session) : Prop where
  readers : ∀ (i : Nat) r, s.readers[i]? = some r → ∃ r', s'.readers[i]? = some r' ∧ Ahead r r'
  tlvs : s.tlvs <:+ s'.tlvs

variable {bytes : Bytes} {s s' s'' : Session} {i : Nat} {read : Read}

theorem Later.refl (s : Session) : s.Later s :=
  ⟨fun _ r hr => ⟨r, hr, refl_of Ahead r⟩, List.suffix_refl _⟩

theorem Later.trans (h : s.Later s') (h' : s'.Later s'') : s.Later s'' := by
  refine ⟨fun i r hr => ?_, h.tlvs.trans h'.tlvs⟩
  obtain ⟨r', hr', hahead⟩ := h.readers i r hr
  obtain ⟨r'', hr'', hahead'⟩ := h'.readers i r' hr'
  exact ⟨r'', hr'', trans_of Ahead hahead hahead'⟩

/-- The other readers stay as they are. -/
theorem getElem?_set_append {readers subs : List BerReader} {j : Nat} {r' q : BerReader}
    (h : readers[j]? = some q) :
    (readers.set i r' ++ subs)[j]? = some (if i = j then r' else q) := by
  obtain ⟨hj, rfl⟩ := List.getElem?_eq_some_iff.mp h
  rw [List.getElem?_append_left (by rwa [List.length_set]), List.getElem?_set]
  split
  · rename_i hij
    rw [if_pos (hij ▸ hj)]
  · exact h

theorem later_step (h : s.step (i, read) = .ok s') : s.Later s' := by
  rcases step_eq_ok h with rfl | ⟨r, r', subs, hr, hends, -, rfl⟩
  · exact .refl s'
  refine ⟨fun j q hq => ⟨_, getElem?_set_append hq, ?_⟩, List.suffix_append ..⟩
  split
  · rename_i hij
    subst hij
    cases hr.symm.trans hq
    exact Read.leads_call read r r' hends
  · exact refl_of Ahead q

theorem faithful_start (bytes : Bytes) : (start bytes).Faithful bytes where
  readers r hr := by
    cases List.mem_singleton.mp hr
    exact (within_new bytes).faithful
  tlvs _ ht := absurd ht List.not_mem_nil
  passed _ ht := absurd ht List.not_mem_nil
  apart := .nil

/-- A TLV that has just been read is a part of the message, and ends where the cursor is now. -/
theorem Faithful.tlvOf (H : s.Faithful bytes) {r r' : BerReader} (hr : s.readers[i]? = some r)
    (hends : read.call.Ends r r') {t : TlvRead} (ht : tlvOf i r read = some t) :
    t.reader = i ∧ t.start = r.offset ∧ t.stop = r'.offset ∧
      ∃ f, IsLength f t.value.length ∧
        slice? bytes t.start t.stop = some (t.tag :: (f ++ t.value)) := by
  obtain ⟨r'', hreads, htlv, hreader, hstart, hstop⟩ := tlvOf_eq_some ht
  obtain rfl := (Read.ends_call hreads r r' hends).eq_of_ok htlv
  obtain ⟨f, hf, -, hraw⟩ := (H.readers r (List.mem_of_getElem? hr)).tlv_eq _ _ _ htlv
  refine ⟨hreader, hstart, hstop, f, hf, ?_⟩
  rw [hstart, hstop]
  exact hraw

theorem Faithful.stop_le (H : s.Faithful bytes) {r : BerReader} (hr : s.readers[i]? = some r)
    {t : TlvRead} (ht : t ∈ s.tlvs) (h : t.reader = i) : t.stop ≤ r.offset := by
  obtain ⟨q, hq, hle⟩ := H.passed t ht
  rw [h] at hq
  cases hr.symm.trans hq
  exact hle

/-- A call keeps all of it. -/
theorem Faithful.step (H : s.Faithful bytes) (h : s.step (i, read) = .ok s') :
    s'.Faithful bytes := by
  have hlater := later_step h
  rcases step_eq_ok h with rfl | ⟨r, r', subs, hr, hends, hsubs, rfl⟩
  · exact H
  have hwithin : r.Within bytes := (H.readers r (List.mem_of_getElem? hr)).toWithin
  have hnew (t : TlvRead) (ht : t ∈ (Session.tlvOf i r read).toList) :=
    H.tlvOf hr hends (Option.mem_toList.mp ht)
  refine ⟨?_, ?_, ?_, ?_⟩
  · intro q hq
    rcases List.mem_append.mp hq with hq | hq
    · rcases List.mem_or_eq_of_mem_set hq with hq | rfl
      · exact H.readers q hq
      · exact (hwithin.ahead (Read.leads_call read r q hends)).faithful
    · obtain ⟨tag, hsub⟩ := hsubs q hq
      exact (hwithin.sub hsub).faithful
  · intro t ht
    rcases List.mem_append.mp ht with ht | ht
    · exact (hnew t ht).2.2.2
    · exact H.tlvs t ht
  · intro t ht
    rcases List.mem_append.mp ht with ht | ht
    · obtain ⟨hreader, -, hstop, -⟩ := hnew t ht
      rw [hreader, getElem?_set_append hr, if_pos rfl]
      exact ⟨r', rfl, hstop.le⟩
    · obtain ⟨q, hq, hle⟩ := H.passed t ht
      obtain ⟨q', hq', hahead⟩ := hlater.readers _ q hq
      exact ⟨q', hq', hle.trans hahead.offset_le⟩
  · refine List.pairwise_append.mpr ⟨?_, H.apart, ?_⟩
    · cases Session.tlvOf i r read with
      | none => exact .nil
      | some t => exact List.pairwise_singleton ..
    · intro t ht earlier hearlier hsame
      obtain ⟨hreader, hstart, -⟩ := hnew t ht
      rw [hstart]
      exact H.stop_le hr hearlier (hsame.symm.trans hreader)

theorem Faithful.exists_step (H : s.Faithful bytes) (call : Nat × Read) :
    ∃ s', s.step call = .ok s' := by
  rw [Session.step]
  split
  · exact ⟨s, rfl⟩
  rename_i r hr
  have hreturns := call.2.returns_call (H.readers r (List.mem_of_getElem? hr)).position_le
  dsimp only
  split
  · exact ⟨_, rfl⟩
  · exact ⟨_, rfl⟩
  · exact absurd ‹_› hreturns

theorem Faithful.exists_run (H : s.Faithful bytes) (calls : List (Nat × Read)) :
    ∃ s', run calls s = .ok s' ∧ s'.Faithful bytes ∧ s.Later s' := by
  induction calls generalizing s with
  | nil => exact ⟨s, rfl, H, .refl s⟩
  | cons call calls ih =>
    obtain ⟨s₁, hs₁⟩ := H.exists_step call
    obtain ⟨s', hs', H', hlater⟩ := ih (H.step hs₁)
    refine ⟨s', ?_, H', (later_step hs₁).trans hlater⟩
    rw [run, List.foldlM_cons, hs₁]
    exact hs'

end Session

/-- **Positions.** Whatever is called on the readers over a message, no call panics, every reader is
faithful to the message at every time, and none of them moves back while more is called. -/
theorem reader_positions_faithful (bytes : Bytes) (calls more : List (Nat × BerReader.Read)) :
    ∃ s s', Session.run calls (.start bytes) = .ok s ∧ Session.run more s = .ok s' ∧
      s.Faithful bytes ∧ s'.Faithful bytes ∧ s.Later s' := by
  obtain ⟨s, hs, H, -⟩ := (Session.faithful_start bytes).exists_run calls
  obtain ⟨s', hs', H', hlater⟩ := H.exists_run more
  exact ⟨s, s', hs, hs', H, H', hlater⟩

-- The read that fails leaves the cursor of the sub-reader behind the tag that it has read.
example :
    (do
      let s ← Session.run [(0, .sequence), (1, .integer), (1, .tlv)]
        (.start [0x30, 0x04, 0x02, 0x01, 0x05, 0xFF])
      return s.readers.map BerReader.offset) = Res.ok [6, 6] := by
  decide

end SnmpAgent
