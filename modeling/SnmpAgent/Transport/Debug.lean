import SnmpAgent.Codec.Debug
import SnmpAgent.Transport.Bulk

/-!
# Requests in a debug build

The dispatch of `Transport.Dispatch` has a panic for every `expect`, every slice and every
subtraction that can fail, and it does not panic. What it leaves out are the sums and products on
machine words and the debug assertions. The functions outside the codec that have some are written
here with these checks, and on a request that came in a frame they compute the same.
-/

namespace SnmpAgent
open Rust Tlv

/-- The bytes of the values in the store. -/
def Store.size (store : Store) : Nat := (store.entries.map fun e => e.2.size).sum

theorem Store.size_le {store : Store} {e : Oid × Value} (h : e ∈ store.entries) :
    e.2.size ≤ store.size :=
  List.le_sum_of_mem (List.mem_map_of_mem h)

namespace Debug

/-! ## Size estimates -/

def lengthOfLength {ε : Type} (contentLength : Nat) : Res ε Nat :=
  if contentLength < 128 then .ok 1
  else do
    let bits ← usizeSub 64 (usizeLeadingZeros contentLength)
    let significantBytes := (bits + 7) / 8
    -- `u8::try_from(significant_bytes).unwrap_or(u8::MAX)`
    usizeAdd 1 (min significantBytes 255)

/-- `1 + length_of_length(n) + n`. -/
def tlvUpperBound {ε : Type} (contentUpperBound : Nat) : Res ε Nat := do
  let lengthSize ← lengthOfLength contentUpperBound
  let headerSize ← usizeAdd 1 lengthSize
  usizeAdd headerSize contentUpperBound

def valueContentUpperBound {ε : Type} : VarbindValue → Res ε Nat
  | .value (.objectIdentifier oid) => usizeMul oid.arcs.length 5
  | value => .ok (SnmpAgent.valueContentUpperBound value)

def estimatedVarbindWireSize {ε : Type} (varbind : Varbind) : Res ε Nat := do
  let oidContentUpperBound ← usizeMul varbind.oid.arcs.length 5
  let oidTlvSize ← tlvUpperBound oidContentUpperBound
  let valueContentUpperBound ← valueContentUpperBound varbind.value
  let valueTlvSize ← tlvUpperBound valueContentUpperBound
  let innerSize ← usizeAdd oidTlvSize valueTlvSize
  tlvUpperBound innerSize

section
variable {ε : Type}

theorem lengthOfLength_eq (n : Nat) :
    (lengthOfLength n : Res ε Nat) = .ok (SnmpAgent.lengthOfLength n) := by
  have hzeros : usizeLeadingZeros n ≤ 64 := by
    unfold usizeLeadingZeros
    split <;> omega
  unfold lengthOfLength SnmpAgent.lengthOfLength
  split
  · rfl
  · have hbytes : (64 - usizeLeadingZeros n + 7) / 8 ≤ 255 := by omega
    rw [usizeSub_of_le hzeros, Res.ok_bind]
    dsimp only
    rw [Nat.min_eq_left hbytes, usizeAdd_of_lt]
    simp only [usizeSize]
    omega

theorem lengthOfLength_le (n : Nat) : SnmpAgent.lengthOfLength n ≤ 9 := by
  unfold SnmpAgent.lengthOfLength
  split <;> omega

theorem tlvUpperBound_eq {n : Nat} (h : n ≤ isizeMax) :
    (tlvUpperBound n : Res ε Nat) = .ok (1 + SnmpAgent.lengthOfLength n + n) := by
  have hlen := lengthOfLength_le n
  simp only [isizeMax] at h
  rw [tlvUpperBound, lengthOfLength_eq, Res.ok_bind, usizeAdd_of_lt, Res.ok_bind, usizeAdd_of_lt]
  all_goals
    simp only [usizeSize]
    omega

/-- A variable binding whose value has less than `2 ^ 40` bytes. -/
def Light (vb : Varbind) : Prop := SnmpAgent.valueContentUpperBound vb.value < 2 ^ 40

theorem valueContentUpperBound_eq (v : VarbindValue) :
    (valueContentUpperBound v : Res ε Nat) = .ok (SnmpAgent.valueContentUpperBound v) := by
  unfold valueContentUpperBound
  split
  · rename_i oid
    have := oid.length_le
    refine usizeMul_of_lt ?_
    simp only [usizeSize]
    omega
  · rfl

theorem estimatedVarbindWireSize_eq {vb : Varbind} (h : Light vb) :
    (estimatedVarbindWireSize vb : Res ε Nat) = .ok (SnmpAgent.estimatedVarbindWireSize vb) := by
  have hoid := vb.oid.length_le
  have h₁ := lengthOfLength_le (vb.oid.arcs.length * 5)
  have h₂ := lengthOfLength_le (SnmpAgent.valueContentUpperBound vb.value)
  unfold Light at h
  rw [estimatedVarbindWireSize, usizeMul_of_lt, Res.ok_bind, tlvUpperBound_eq, Res.ok_bind,
    valueContentUpperBound_eq, Res.ok_bind, tlvUpperBound_eq, Res.ok_bind, usizeAdd_of_lt,
    Res.ok_bind, tlvUpperBound_eq]
  · rfl
  all_goals
    simp only [usizeSize, isizeMax]
    omega

theorem estimatedVarbindWireSize_le {vb : Varbind} (h : Light vb) :
    SnmpAgent.estimatedVarbindWireSize vb ≤ 2 ^ 41 := by
  have hoid := vb.oid.length_le
  have h₁ := lengthOfLength_le (vb.oid.arcs.length * 5)
  have h₂ := lengthOfLength_le (SnmpAgent.valueContentUpperBound vb.value)
  have h₃ := lengthOfLength_le (1 + SnmpAgent.lengthOfLength (vb.oid.arcs.length * 5) +
    vb.oid.arcs.length * 5 +
    (1 + SnmpAgent.lengthOfLength (SnmpAgent.valueContentUpperBound vb.value) +
      SnmpAgent.valueContentUpperBound vb.value))
  unfold Light at h
  simp only [SnmpAgent.estimatedVarbindWireSize]
  omega

/-- The size of as many light variable bindings as fit into a frame. -/
theorem estimatedSize_le {vbs : List Varbind} (hlen : vbs.length ≤ 2 ^ 16)
    (h : ∀ vb ∈ vbs, Light vb) :
    estimatedSize vbs ≤ 2 ^ 57 := by
  have hsum : (vbs.map SnmpAgent.estimatedVarbindWireSize).sum ≤ vbs.length * 2 ^ 41 := by
    have hall : ∀ size ∈ vbs.map SnmpAgent.estimatedVarbindWireSize, size ≤ 2 ^ 41 := by
      intro size hsize
      obtain ⟨vb, hvb, rfl⟩ := List.mem_map.mp hsize
      exact estimatedVarbindWireSize_le (h vb hvb)
    simpa using List.sum_le_card_nsmul _ _ hall
  rw [estimatedSize]
  omega

theorem valueContentUpperBound_lt {v : Value} (h : v.size < 2 ^ 40) :
    SnmpAgent.valueContentUpperBound (.value v) < 2 ^ 40 := by
  cases v with
  | objectIdentifier oid =>
    have := oid.length_le
    simp only [SnmpAgent.valueContentUpperBound]
    omega
  | octetString bytes => exact h
  | opaque_ bytes => exact h
  | _ => simp [SnmpAgent.valueContentUpperBound]

theorem light_get {store : Store} (h : store.size < 2 ^ 40) (oid oid' : Oid) :
    Light ⟨oid', (store.get oid).elim .noSuchObject .value⟩ := by
  cases hget : store.get oid with
  | none => exact (by decide : 0 < 2 ^ 40)
  | some v =>
    have hmem : (oid, v) ∈ store.entries := OrderedMap.mem_entries.mpr hget
    exact valueContentUpperBound_lt ((Store.size_le hmem).trans_lt h)

/-- What a store of less than `2 ^ 40` bytes answers is light. -/
theorem light_resolve {store : Store} (h : store.size < 2 ^ 40) (oid : Oid) :
    Light (resolveGetNextVarbind store oid) := by
  unfold resolveGetNextVarbind
  split
  · rename_i nextOid nextValue hnext
    have hmem : (nextOid, nextValue) ∈ store.entries := List.mem_of_find?_eq_some hnext
    exact valueContentUpperBound_lt ((Store.size_le hmem).trans_lt h)
  · exact (by decide : 0 < 2 ^ 40)

end

/-! ## Handlers -/

def addColumn {ε : Type} (store : Store) (acc : RepeatingRow × List Oid) (currentOid : Oid) :
    Res ε (RepeatingRow × List Oid) := do
  let (row, movedOids) := acc
  let resolved := resolveGetNextVarbind store currentOid
  let size ← estimatedVarbindWireSize resolved
  let estimatedSize ← usizeAdd row.estimatedSize size
  let row : RepeatingRow := {
    varbinds := row.varbinds ++ [resolved]
    estimatedSize
    allEndOfMib := row.allEndOfMib }
  match resolved.value with
  | .value _ => .ok ({ row with allEndOfMib := false }, movedOids ++ [resolved.oid])
  | _ => .ok (row, movedOids ++ [currentOid])

def buildRepeatingRow {ε : Type} (store : Store) (currentOids : List Oid) :
    Res ε (RepeatingRow × List Oid) :=
  currentOids.foldlM (addColumn store) (⟨[], 0, true⟩, [])

def repeatRows {ε : Type} (store : Store) (varbindBudget : Nat) : Nat → BulkState → Res ε BulkState
  | 0, s => .ok s
  | n + 1, s => do
    let (row, currentOids) ← buildRepeatingRow store s.currentOids
    let total ← usizeAdd s.estimatedResponseSize row.estimatedSize
    if total > varbindBudget then .ok { s with currentOids }
    else
      let estimatedResponseSize ← usizeAdd s.estimatedResponseSize row.estimatedSize
      let s : BulkState := {
        currentOids
        responseVarbinds := s.responseVarbinds ++ row.varbinds
        estimatedResponseSize }
      if row.allEndOfMib then .ok s else repeatRows store varbindBudget n s

/-- One iteration of the loop over the non-repeating variable bindings. -/
def addResolved {ε : Type} (store : Store) (s : BulkState) (vb : Varbind) : Res ε BulkState := do
  let resolved := resolveGetNextVarbind store vb.oid
  let size ← estimatedVarbindWireSize resolved
  let estimatedResponseSize ← usizeAdd s.estimatedResponseSize size
  .ok { s with responseVarbinds := s.responseVarbinds ++ [resolved], estimatedResponseSize }

def resolveNonRepeating {ε : Type} (store : Store) (varbinds : List Varbind) : Res ε BulkState :=
  varbinds.foldlM (addResolved store) ⟨[], [], 0⟩

/-- `split_at`, which panics past the end. -/
def splitAt {ε α : Type} (xs : List α) (n : Nat) : Res ε (List α × List α) :=
  if n ≤ xs.length then .ok (xs.splitAt n) else .panic

def handleGetBulk {ε : Type} (req : GetBulkRequest) (store : Store) (maxRepetitionsCap : UInt32)
    (maxResponseSize : Nat) : Res ε GetResponse := do
  let varbindCount := req.varbinds.length
  let nonRepeaters := min req.nonRepeaters.toNat varbindCount
  let maxRepetitions := min req.maxRepetitions maxRepetitionsCap
  let varbindBudget := maxResponseSize - v3EnvelopeOverhead
  let (nonRepeatingVarbinds, repeatingVarbinds) ← splitAt req.varbinds nonRepeaters
  let s ← resolveNonRepeating store nonRepeatingVarbinds
  let s ←
    if repeatingVarbinds ≠ [] ∧ maxRepetitions > 0 then
      repeatRows store varbindBudget maxRepetitions.toNat
        { s with currentOids := repeatingVarbinds.map (·.oid) }
    else .ok s
  .ok {
    requestId := req.requestId
    errorStatus := .noError
    errorIndex := 0
    varbinds := s.responseVarbinds }

def handleRequest {ε : Type} (maxSize : Int32) (mib : Store) : InboundPdu → Res ε GetResponse
  | .getBulkRequest req =>
    handleGetBulk req mib maxBulkRepetitions (min maxSize.toInt.toNat maxFrameSize)
  | pdu => .ok (SnmpAgent.handleRequest maxSize mib pdu)

section
variable {ε : Type} {store : Store} (hstore : store.size < 2 ^ 40)
include hstore

theorem foldlM_addColumn {oids : List Oid} {acc : RepeatingRow × List Oid}
    (h : acc.1.estimatedSize + oids.length * 2 ^ 41 < usizeSize) :
    oids.foldlM (addColumn store) acc =
      (.ok (oids.foldl (RepeatingRow.addColumn store) acc) : Res ε (RepeatingRow × List Oid)) := by
  induction oids generalizing acc with
  | nil => rfl
  | cons oid oids ih =>
    have hlight := light_resolve hstore oid
    have hle := estimatedVarbindWireSize_le hlight
    rw [List.length_cons, Nat.add_mul, Nat.one_mul] at h
    have hone : (addColumn store acc oid : Res ε (RepeatingRow × List Oid)) =
        .ok (RepeatingRow.addColumn store acc oid) := by
      unfold addColumn RepeatingRow.addColumn
      dsimp only
      rw [estimatedVarbindWireSize_eq hlight, Res.ok_bind, usizeAdd_of_lt (by omega), Res.ok_bind]
      cases (resolveGetNextVarbind store oid).value <;> rfl
    rw [List.foldlM_cons, hone, Res.ok_bind, List.foldl_cons]
    refine ih ?_
    rw [show acc = (acc.1, acc.2) from rfl, RepeatingRow.addColumn_eq]
    dsimp only
    omega

theorem buildRepeatingRow_eq {oids : List Oid} (h : oids.length ≤ 2 ^ 16) :
    (buildRepeatingRow store oids : Res ε (RepeatingRow × List Oid)) =
      .ok (SnmpAgent.buildRepeatingRow store oids) := by
  refine foldlM_addColumn hstore ?_
  simp only [usizeSize]
  omega

/-- A row of at most `2 ^ 16` columns. -/
theorem buildRepeatingRow_le {oids : List Oid} (h : oids.length ≤ 2 ^ 16) :
    (SnmpAgent.buildRepeatingRow store oids).1.estimatedSize ≤ 2 ^ 57 ∧
      (SnmpAgent.buildRepeatingRow store oids).2.length = oids.length := by
  have hsize : estimatedSize (oids.map (resolveGetNextVarbind store)) ≤ 2 ^ 57 := by
    refine estimatedSize_le ((List.length_map _).trans_le h) fun vb hvb => ?_
    obtain ⟨oid, -, rfl⟩ := List.mem_map.mp hvb
    exact light_resolve hstore oid
  rw [SnmpAgent.buildRepeatingRow, foldl_addColumn]
  refine ⟨?_, by simp⟩
  dsimp only
  omega

theorem estimatedSize_handleGetNext_le (req : GetNextRequest) (h : req.varbinds.length ≤ 2 ^ 16) :
    estimatedSize (handleGetNext req store).varbinds ≤ 2 ^ 57 := by
  refine estimatedSize_le ((List.length_map _).trans_le h) fun vb hvb => ?_
  obtain ⟨vb, -, rfl⟩ := List.mem_map.mp hvb
  exact light_resolve hstore vb.oid

theorem repeatRows_eq {budget n : Nat} {s : BulkState} (hbudget : budget ≤ 2 ^ 62)
    (hs : s.estimatedResponseSize ≤ 2 ^ 62) (hoids : s.currentOids.length ≤ 2 ^ 16) :
    (repeatRows store budget n s : Res ε BulkState) =
      .ok (SnmpAgent.repeatRows store budget n s) := by
  induction n generalizing s with
  | zero => rfl
  | succ n ih =>
    obtain ⟨hrow, hmoved⟩ := buildRepeatingRow_le hstore hoids
    have hsum : s.estimatedResponseSize +
        (SnmpAgent.buildRepeatingRow store s.currentOids).1.estimatedSize < usizeSize := by
      simp only [usizeSize]
      omega
    unfold repeatRows SnmpAgent.repeatRows
    rw [buildRepeatingRow_eq hstore hoids, Res.ok_bind]
    dsimp only
    rw [usizeAdd_of_lt hsum, Res.ok_bind]
    split
    · rfl
    · rename_i hfits
      rw [Res.ok_bind]
      split
      · rfl
      · exact ih (by dsimp only; omega) (by dsimp only; omega)

theorem foldlM_addResolved {vbs : List Varbind} {s : BulkState}
    (h : s.estimatedResponseSize + vbs.length * 2 ^ 41 < usizeSize) :
    vbs.foldlM (addResolved store) s =
      (.ok (vbs.foldl (fun s vb =>
        let resolved := resolveGetNextVarbind store vb.oid
        { s with
          responseVarbinds := s.responseVarbinds ++ [resolved]
          estimatedResponseSize :=
            s.estimatedResponseSize + SnmpAgent.estimatedVarbindWireSize resolved }) s) :
        Res ε BulkState) := by
  induction vbs generalizing s with
  | nil => rfl
  | cons vb vbs ih =>
    have hlight := light_resolve hstore vb.oid
    have hle := estimatedVarbindWireSize_le hlight
    rw [List.length_cons, Nat.add_mul, Nat.one_mul] at h
    rw [List.foldlM_cons, addResolved, estimatedVarbindWireSize_eq hlight, Res.ok_bind,
      usizeAdd_of_lt (by omega), Res.ok_bind, Res.ok_bind, List.foldl_cons]
    exact ih (by dsimp only; omega)

theorem resolveNonRepeating_eq {vbs : List Varbind} (h : vbs.length ≤ 2 ^ 16) :
    (resolveNonRepeating store vbs : Res ε BulkState) =
      .ok (SnmpAgent.resolveNonRepeating store vbs) := by
  refine foldlM_addResolved hstore ?_
  simp only [usizeSize]
  omega

theorem handleGetBulk_eq {req : GetBulkRequest} {maxResponseSize : Nat} (cap : UInt32)
    (hreq : req.varbinds.length ≤ 2 ^ 16) (hmax : maxResponseSize ≤ 2 ^ 62) :
    (handleGetBulk req store cap maxResponseSize : Res ε GetResponse) =
      .ok (SnmpAgent.handleGetBulk req store cap maxResponseSize) := by
  have hsplit : (splitAt req.varbinds (min req.nonRepeaters.toNat req.varbinds.length) :
      Res ε (List Varbind × List Varbind)) =
        .ok (req.varbinds.splitAt (min req.nonRepeaters.toNat req.varbinds.length)) :=
    if_pos (Nat.min_le_right ..)
  have hpre : req.nonRepeating.length ≤ 2 ^ 16 := (List.length_take_le' ..).trans hreq
  have hstart := estimatedSize_handleGetNext_le hstore ⟨req.requestId, req.nonRepeating⟩ hpre
  have hcolumns : req.columns.length ≤ 2 ^ 16 := by
    rw [GetBulkRequest.columns, List.length_map, List.length_drop]
    omega
  unfold handleGetBulk SnmpAgent.handleGetBulk
  dsimp only
  rw [hsplit, Res.ok_bind, List.splitAt_eq]
  dsimp only
  rw [← GetBulkRequest.nonRepeating, resolveNonRepeating_eq hstore hpre, Res.ok_bind,
    SnmpAgent.resolveNonRepeating_eq]
  split
  · rw [repeatRows_eq hstore (by omega) (hstart.trans (by decide)) hcolumns, Res.ok_bind]
  · rfl

theorem handleRequest_eq {pdu : InboundPdu} (maxSize : Int32)
    (hpdu : pdu.varbinds.length ≤ 2 ^ 16) :
    (handleRequest maxSize store pdu : Res ε GetResponse) =
      .ok (SnmpAgent.handleRequest maxSize store pdu) := by
  cases pdu with
  | getBulkRequest req =>
    refine handleGetBulk_eq hstore maxBulkRepetitions hpdu ?_
    simp only [maxFrameSize]
    omega
  | _ => rfl

end

/-! ## Checks -/

def verifyHmac {ε : Type} (crypto : Crypto) (authProtocol : AuthProtocol)
    (authKey rawMessage authParams : Bytes) (authParamsOffset : Option Nat) : Res ε Bool :=
  match authParamsOffset with
  | none => .ok false
  | some offset => do
    debugAssert (authParams.length > 0)
    let zeroed := zeroAuthParamsInMessage rawMessage offset authParams.length
    .ok (authProtocol.verifyMac crypto authKey zeroed authParams == .ok ())

def securityLevel {ε : Type} (user : UsmUser) : Res ε SecurityLevel :=
  match user.authCredentials, user.privCredentials with
  | some _, some _ => .ok .authPriv
  | some _, none => .ok .authNoPriv
  | none, none => .ok .noAuthNoPriv
  | none, some _ => do
    debugAssert False
    .ok .noAuthNoPriv

def isInTimeWindow {ε : Type} (msgBoots msgTime engineBoots engineTime : UInt32) : Res ε Bool :=
  if msgBoots ≠ engineBoots then .ok false
  else do
    let timeDiff ← i64Sub msgTime.toNat engineTime.toNat
    .ok (decide (timeDiff.natAbs ≤ 150))

section
variable {ε : Type}

theorem verifyHmac_eq (crypto : Crypto) (protocol : AuthProtocol) (key rawMessage : Bytes)
    {authParams : Bytes} {authParamsOffset : Option Nat}
    (h : authParamsOffset.isSome → authParams ≠ []) :
    (verifyHmac crypto protocol key rawMessage authParams authParamsOffset : Res ε Bool) =
      .ok (SnmpAgent.verifyHmac crypto protocol key rawMessage authParams authParamsOffset) := by
  cases authParamsOffset with
  | none => rfl
  | some offset =>
    rw [verifyHmac, debugAssert_of (List.length_pos_iff.mpr (h rfl)), Res.ok_bind]
    rfl

theorem securityLevel_eq (user : UsmUser) :
    (securityLevel user : Res ε SecurityLevel) = .ok user.securityLevel := by
  have hauth := user.auth_of_priv
  unfold securityLevel UsmUser.securityLevel
  cases ha : user.authCredentials <;> cases hp : user.privCredentials
  · rfl
  · rw [ha, hp] at hauth
    cases hauth rfl
  · rfl
  · rfl

theorem isInTimeWindow_eq (msgBoots msgTime engineBoots engineTime : UInt32) :
    (isInTimeWindow msgBoots msgTime engineBoots engineTime : Res ε Bool) =
      .ok (SnmpAgent.isInTimeWindow msgBoots msgTime engineBoots engineTime) := by
  have h₁ := msgTime.toNat_lt
  have h₂ := engineTime.toNat_lt
  unfold isInTimeWindow SnmpAgent.isInTimeWindow
  split
  · rfl
  · rw [i64Sub, if_pos (by omega), Res.ok_bind]

end

/-! ## The size of an answer -/

theorem estimatedSize_handleGetBulk_le {store : Store} (hstore : store.size < 2 ^ 40)
    (req : GetBulkRequest) (h : req.varbinds.length ≤ 2 ^ 16) (cap : UInt32) {maxResponseSize : Nat}
    (hmax : maxResponseSize ≤ 2 ^ 16) :
    estimatedSize (SnmpAgent.handleGetBulk req store cap maxResponseSize).varbinds ≤ 2 ^ 57 := by
  have hpre : req.nonRepeating.length ≤ 2 ^ 16 := (List.length_take_le' ..).trans h
  have hstart := estimatedSize_handleGetNext_le hstore ⟨req.requestId, req.nonRepeating⟩ hpre
  rw [SnmpAgent.handleGetBulk_eq, estimatedSize_append]
  set rows := bulkRowCount store req.columns _ _ _ with hrows
  have hfit : RowsFit store req.columns (estimatedSize (nonRepeatingResponse req store).varbinds)
      (maxResponseSize - 512) rows := by
    by_cases hne : req.columns = []
    · exact .inl (by rw [hrows, bulkRowCount, if_pos hne])
    · exact (isGreatest_bulkRowCount hne _).1.2
  rcases hfit with hzero | ⟨hsize, -⟩
  · rw [hzero]
    exact hstart
  · omega

theorem estimatedSize_handleRequest_le {store : Store} (hstore : store.size < 2 ^ 40) {n : Nat}
    (hn : n ≤ maxFrameSize) (maxSize : Int32) {pdu : InboundPdu} (hpdu : Within n pdu.varbinds) :
    estimatedSize (SnmpAgent.handleRequest maxSize store pdu).varbinds ≤ 2 ^ 57 := by
  simp only [maxFrameSize] at hn
  have hlen : pdu.varbinds.length ≤ 2 ^ 16 := hpdu.length_le.trans (by omega)
  cases pdu with
  | getRequest req =>
    refine estimatedSize_le ((List.length_map _).trans_le hlen) fun vb hvb => ?_
    obtain ⟨vb, -, rfl⟩ := List.mem_map.mp hvb
    exact light_get hstore vb.oid vb.oid
  | getNextRequest req => exact estimatedSize_handleGetNext_le hstore req hlen
  | getBulkRequest req =>
    refine estimatedSize_handleGetBulk_le hstore req hlen maxBulkRepetitions ?_
    simp only [maxFrameSize]
    omega
  | setRequest req =>
    refine estimatedSize_le hlen fun vb hvb => ?_
    unfold Light
    cases hv : vb.value with
    | value v =>
      have := hpdu.size_le vb hvb v hv
      exact valueContentUpperBound_lt (by omega)
    | _ => exact (by decide : 0 < 2 ^ 40)

end Debug

/-! ## Dispatch returns -/

section
variable {crypto : Crypto} {agent : Agent} {frame : Bytes} {mib : Store} {msg : V3InboundMessage}

/-- A message that fits into memory is encoded, or refused for the engine's boots or time. -/
theorem returns_encodeV3Envelope {p : V3Params} {salt : SaltCounter} {rawPdu : Bytes} (hp : p.WF)
    (hauth : p.privacy.isSome → p.auth.isSome)
    (hlen : (p.unsigned crypto salt rawPdu).length ≤ isizeMax) :
    (capped rawPdu >>= fun raw => (encodeV3Envelope crypto p raw).run salt).Returns := by
  by_cases hs : p.engineBoots < 0x80000000 ∧ p.engineTime < 0x80000000
  · rcases capped_encodeV3Envelope crypto salt rawPdu hp ⟨hs.1, hs.2, hauth⟩ with
      ⟨hlong, -⟩ | ⟨-, bytes, hx, -⟩
    · omega
    · rw [hx]
      exact Res.returns_ok _
  · obtain ⟨e, he⟩ := encodeV3Envelope_err crypto salt rawPdu hs
    rw [capped_of_le (length_rawPdu_le.trans hlen), Res.ok_bind, he]
    exact Res.returns_err _

/-- The request that is served came in the frame. -/
theorem within_of_admission {inputs : DispatchInputs} {r : InboundPdu × Bytes}
    (hmsg : decodeV3Message frame = .ok msg) (hadm : admission crypto inputs msg = .ok r) :
    Within frame.length r.1.varbinds ∧ r.2 = [] := by
  obtain ⟨env, M⟩ := isInbound_of_decode hmsg
  obtain ⟨-, -, hid, -, -, -, -, -, hctx, hopened⟩ := admission_eq_ok.mp hadm
  obtain ⟨hnil, hcarries, -⟩ := M.opened_iff.mp ⟨hid, hctx, hopened⟩
  refine ⟨?_, hnil⟩
  have hpayload := decodeV3Envelope_payload (decodeV3Envelope_eq_ok.mpr M.envelope)
  unfold V3MessageEnvelope.Carries at hcarries
  cases hd : env.scopedData with
  | plaintext contextEngineId contextName rawPdu =>
    rw [hd] at hcarries hpayload
    obtain ⟨-, -, decoded, hdecoded, hpdu⟩ := hcarries
    exact (within_of_decodedPduToInbound hpdu).mono ((size_of_decodePdu hdecoded).trans hpayload)
  | encrypted ciphertext =>
    rw [hd] at hcarries hpayload
    obtain ⟨_, -, credentials, -, salt, -, hdecoded⟩ := hcarries
    have hwithin := within_of_decodeScopedPdu hdecoded
    rw [(crypto.cfbDecrypt ..).property] at hwithin
    exact hwithin.mono hpayload

theorem returns_respond (hframe : frame.length ≤ maxFrameSize)
    (hengine : agent.ctx.inputs.engineId.length < 2 ^ 60) (hstore : mib.size < 2 ^ 40)
    {r : InboundPdu × Bytes} (hmsg : decodeV3Message frame = .ok msg)
    (hadm : admission crypto agent.ctx.inputs msg = .ok r) :
    (agent.respond crypto mib msg r.1 r.2).Returns := by
  obtain ⟨hpdu, hnil⟩ := within_of_admission hmsg hadm
  have hwf := wf_responseParams agent.ctx.inputs r.2 hmsg
  have hsize := Debug.estimatedSize_handleRequest_le hstore hframe msg.maxSize hpdu
  have hlist := length_flatMap_varbindTlv_le (hsize.trans_lt (by decide))
  have hraw : (responseTlv (handleRequest msg.maxSize mib r.1)).length ≤ 2 ^ 57 + 38 :=
    length_pduTlv_le _ _ _ _ (hlist.trans hsize) (by decide)
  have hunsigned := length_unsigned_le crypto agent.salt hwf.userName_le hengine
    (by simp [responseParams, hnil]) (hraw.trans_lt (by decide))
  rw [Agent.respond, run_encodeV3Response (errorIndex_handleRequest ..)]
  refine returns_encodeV3Envelope hwf (fun h => ?_) (hunsigned.trans ?_)
  · have hlevel := (isSome_privacy agent.ctx.inputs).mp h
    exact (isSome_auth agent.ctx.inputs).mpr (hlevel ▸ SecurityLevel.le_authPriv _)
  · simp only [responseParams, hnil, List.length_nil, isizeMax]
    omega

theorem returns_encodeV3Report (crypto : Crypto) (salt : SaltCounter) {msgId : Int32}
    (hid : 0 ≤ msgId.toInt) {engineId : Bytes} (hengine : engineId.length < 2 ^ 60)
    (engineBoots engineTime : UInt32) (counterOid : Oid) (counterValue : UInt32) :
    ((encodeV3Report crypto msgId engineId engineBoots engineTime counterOid counterValue).run
      salt).Returns := by
  have hsize : estimatedSize [⟨counterOid, .value (.counter32 counterValue)⟩] ≤ 2 ^ 57 :=
    Debug.estimatedSize_le (by simp) fun vb hvb => by
      obtain rfl := List.mem_singleton.mp hvb
      exact (by decide : 5 < 2 ^ 40)
  have hlist := length_flatMap_varbindTlv_le (hsize.trans_lt (by decide))
  have hraw : (reportTlv msgId counterOid counterValue).length ≤ 2 ^ 57 + 38 :=
    length_pduTlv_le _ _ _ _ (hlist.trans hsize) (by decide)
  have hwf := wf_reportParams hid engineId engineBoots engineTime
  have hunsigned := length_unsigned_le crypto salt hwf.userName_le hengine (Nat.two_pow_pos 60)
    (hraw.trans_lt (by decide))
  rw [run_encodeV3Report]
  refine returns_encodeV3Envelope hwf nofun (hunsigned.trans ?_)
  simp only [reportParams, List.length_nil, isizeMax]
  omega

theorem returns_reject {α : Type} (check : Check) (hid : 0 ≤ msg.msgId.toInt)
    (hengine : agent.ctx.inputs.engineId.length < 2 ^ 60) :
    ((check.reject crypto msg : Act Agent Reject α).run agent).Returns := by
  unfold Check.reject
  rcases check.report? with _ | ⟨counter, oid⟩
  · exact Res.returns_err _
  · have hconfig : (agent.count counter).ctx.inputs.engineId = agent.ctx.inputs.engineId := by
      cases counter <;> rfl
    have henc := returns_encodeV3Report crypto (agent.count counter).salt hid (hconfig ▸ hengine)
      (agent.count counter).ctx.inputs.engineBoots (agent.count counter).ctx.inputs.engineTime oid
      (counter.select (agent.count counter).ctx.inputs).value
    dsimp only
    rw [rejectWithReport, StateT.run_bind]
    refine Res.Returns.bind ?_ fun _ _ => Res.returns_err _
    cases hflag : msg.usm.securityFlags.isReportable with
    | false => simp [emitReportResponse, hflag]
    | true =>
      cases hx : (encodeV3Report crypto msg.msgId (agent.count counter).ctx.inputs.engineId
          (agent.count counter).ctx.inputs.engineBoots (agent.count counter).ctx.inputs.engineTime
          oid (counter.select (agent.count counter).ctx.inputs).value).run
          (agent.count counter).salt with
      | ok r => simp [emitReportResponse, hflag, Agent.run_encode, hx]
      | err e => simp [emitReportResponse, hflag, Agent.run_encode, hx]
      | panic => exact absurd hx henc

theorem returns_processSnmpv3Request (hframe : frame.length ≤ maxFrameSize)
    (hengine : agent.ctx.inputs.engineId.length < 2 ^ 60) (hstore : mib.size < 2 ^ 40) :
    (processSnmpv3Request crypto frame mib agent).Returns := by
  cases hmsg : decodeV3Message frame with
  | panic => exact absurd hmsg (returns_decodeV3Message frame)
  | err e =>
    rw [processSnmpv3Request_undecodable hmsg]
    exact Res.returns_ok _
  | ok msg =>
    cases hadm : admission crypto agent.ctx.inputs msg with
    | panic => exact absurd hadm (returns_admission crypto agent.ctx.inputs msg)
    | err check =>
      have hreject : ((check.reject crypto msg : Act Agent Reject Bytes).run agent).Returns :=
        returns_reject check (msgId_nonneg_of_decode hmsg) hengine
      rw [processSnmpv3Request_eq_reject hmsg hadm]
      cases hx : (check.reject crypto msg : Act Agent Reject Bytes).run agent with
      | ok r => exact Res.returns_ok _
      | err e => exact Res.returns_ok _
      | panic => exact absurd hx hreject
    | ok r =>
      have hrespond := returns_respond hframe hengine hstore hmsg hadm
      rw [processSnmpv3Request_admitted hmsg hadm]
      cases hx : agent.respond crypto mib msg r.1 r.2 with
      | ok r => exact Res.returns_ok _
      | err e => exact Res.returns_ok _
      | panic => exact absurd hx hrespond

theorem authParams_ne_nil (hmsg : decodeV3Message frame = .ok msg)
    (h : msg.authParamsOffset.isSome) :
    (msg.usm.authParams.map (·.bytes)).getD [] ≠ [] := by
  obtain ⟨env, M⟩ := isInbound_of_decode hmsg
  obtain ⟨pre, post, -, hoff, -⟩ := M.envelope.split
  rw [M.usm, UsmSecurityFields.ofWire, AuthenticationParams.tryFrom_bytes]
  intro hnil
  rw [M.authParamsOffset, hoff, recordedOffset, if_pos hnil] at h
  cases h

end

end SnmpAgent
