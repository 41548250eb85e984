import Mathlib.Data.Nat.Find
import Mathlib.Order.Bounds.Basic
import SnmpAgent.Transport.Exchange

/-!
# GETBULK: the rows of a response and its size

`handleGetBulk_eq` describes a response by the rows that fit: `RowsFit` is the condition on their
number, and the number sent is the greatest one that satisfies it. The estimate that decides it is
an upper bound of what is encoded (`length_varbindTlv_le_estimate`), and 512 bytes cover everything
around the variable bindings (`length_unsigned_le`); but only rows are weighed, not the
non-repeating bindings.
-/

namespace SnmpAgent
open Rust Tlv

/-! ## Rows -/

/-- The entry in row `r` of the column behind `start`. A column that has run out stays where it
is. -/
def Store.bulkCell (store : Store) (start : Oid) (r : Nat) : Varbind :=
  match store.successor? start r with
  | some (oid, value) => ⟨oid, .value value⟩
  | none => ⟨store.reached start r, .endOfMibView⟩

def Store.bulkRow (store : Store) (starts : List Oid) (r : Nat) : List Varbind :=
  starts.map (store.bulkCell · r)

def Store.bulkRows (store : Store) (starts : List Oid) (n : Nat) : List Varbind :=
  (List.range n).flatMap (store.bulkRow starts)

def estimatedSize (varbinds : List Varbind) : Nat := (varbinds.map estimatedVarbindWireSize).sum

/-- No row, or rows within the budget of which only the last one may have nothing but ends. -/
def RowsFit (store : Store) (starts : List Oid) (base budget n : Nat) : Prop :=
  n = 0 ∨ base + estimatedSize (store.bulkRows starts n) ≤ budget ∧
    ∀ r < n - 1, ∃ vb ∈ store.bulkRow starts r, vb.value ≠ .endOfMibView

instance (store : Store) (starts : List Oid) (base budget : Nat) :
    DecidablePred (RowsFit store starts base budget) := fun n => by
  unfold RowsFit
  infer_instance

/-- The number of rows of a response, out of `n`. -/
def bulkRowCount (store : Store) (starts : List Oid) (base budget n : Nat) : Nat :=
  if starts = [] then 0 else Nat.findGreatest (RowsFit store starts base budget) n

theorem estimatedSize_append (xs ys : List Varbind) :
    estimatedSize (xs ++ ys) = estimatedSize xs + estimatedSize ys := by
  simp [estimatedSize]

section
variable {store : Store} {starts : List Oid} {base budget : Nat}

theorem Store.bulkRows_succ (store : Store) (starts : List Oid) (n : Nat) :
    store.bulkRows starts (n + 1) = store.bulkRows starts n ++ store.bulkRow starts n := by
  simp [bulkRows, List.range_succ]

theorem Store.estimatedSize_bulkRows_mono (store : Store) (starts : List Oid) :
    Monotone fun n => estimatedSize (store.bulkRows starts n) := by
  refine monotone_nat_of_le_succ fun n => ?_
  rw [bulkRows_succ, estimatedSize_append]
  exact Nat.le_add_right ..

theorem RowsFit.of_le {m n : Nat} (h : RowsFit store starts base budget n) (hmn : m ≤ n) :
    RowsFit store starts base budget m := by
  obtain rfl | hm := Nat.eq_zero_or_pos m
  · exact .inl rfl
  rcases h with rfl | ⟨hsize, hend⟩
  · omega
  · have := store.estimatedSize_bulkRows_mono starts hmn
    exact .inr ⟨by dsimp only at this; omega, fun r hr => hend r (by omega)⟩

theorem isGreatest_bulkRowCount (hne : starts ≠ []) (n : Nat) :
    IsGreatest {m | m ≤ n ∧ RowsFit store starts base budget m}
      (bulkRowCount store starts base budget n) := by
  rw [bulkRowCount, if_neg hne]
  refine ⟨⟨Nat.findGreatest_le n, Nat.findGreatest_spec (Nat.zero_le n) (.inl rfl)⟩, ?_⟩
  exact fun m hm => Nat.le_findGreatest hm.1 hm.2

/-! ## One row of the source -/

/-- Where a column is after a step. -/
def Store.advance (store : Store) (oid : Oid) : Oid := ((store.next? oid).map Prod.fst).getD oid

theorem RepeatingRow.addColumn_eq (row : RepeatingRow) (movedOids : List Oid) (oid : Oid) :
    RepeatingRow.addColumn store (row, movedOids) oid =
      (⟨row.varbinds ++ [resolveGetNextVarbind store oid],
        row.estimatedSize + estimatedVarbindWireSize (resolveGetNextVarbind store oid),
        row.allEndOfMib && decide ((resolveGetNextVarbind store oid).value = .endOfMibView)⟩,
        movedOids ++ [store.advance oid]) := by
  rw [RepeatingRow.addColumn, resolveGetNextVarbind, Store.next, Store.advance]
  cases store.next? oid <;> simp

theorem foldl_addColumn (oids : List Oid) (row : RepeatingRow) (movedOids : List Oid) :
    oids.foldl (RepeatingRow.addColumn store) (row, movedOids) =
      (⟨row.varbinds ++ oids.map (resolveGetNextVarbind store),
        row.estimatedSize + estimatedSize (oids.map (resolveGetNextVarbind store)),
        row.allEndOfMib && (oids.map (resolveGetNextVarbind store)).all (·.value = .endOfMibView)⟩,
        movedOids ++ oids.map store.advance) := by
  induction oids generalizing row movedOids with
  | nil => simp [estimatedSize]
  | cons oid oids ih =>
    rw [List.foldl_cons, RepeatingRow.addColumn_eq, ih]
    simp [estimatedSize, Nat.add_assoc, Bool.and_assoc]

theorem Store.resolve_reached (store : Store) (start : Oid) (r : Nat) :
    resolveGetNextVarbind store (store.reached start r) = store.bulkCell start r := by
  cases h : store.successor? start r <;>
    simp [resolveGetNextVarbind, Store.next, OrderedMap.next?_reached, bulkCell, h]

/-- A row of the loop is a row of the response, whatever becomes of it. -/
theorem buildRepeatingRow_reached (store : Store) (starts : List Oid) (r : Nat) :
    buildRepeatingRow store (starts.map (store.reached · r)) =
      (⟨store.bulkRow starts r, estimatedSize (store.bulkRow starts r),
        (store.bulkRow starts r).all (·.value = .endOfMibView)⟩,
        starts.map (store.reached · (r + 1))) := by
  have hrow : (starts.map (store.reached · r)).map (resolveGetNextVarbind store) =
      store.bulkRow starts r := by
    rw [List.map_map]
    exact List.map_congr_left fun start _ => store.resolve_reached start r
  have hmoved : (starts.map (store.reached · r)).map store.advance =
      starts.map (store.reached · (r + 1)) := List.map_map
  rw [buildRepeatingRow, foldl_addColumn, hrow, hmoved]
  simp

/-! ## The loop -/

/-- `r` rows are committed and the loop is about to try the next one. -/
structure BulkState.After (store : Store) (starts : List Oid) (pre : List Varbind) (budget r : Nat)
    (s : BulkState) : Prop where
  currentOids : s.currentOids = starts.map (store.reached · r)
  varbinds : s.responseVarbinds = pre ++ store.bulkRows starts r
  size : s.estimatedResponseSize = estimatedSize (pre ++ store.bulkRows starts r)
  fits : RowsFit store starts (estimatedSize pre) budget r
  open_ : ∀ i < r, ∃ vb ∈ store.bulkRow starts i, vb.value ≠ .endOfMibView

theorem not_all_end {vbs : List Varbind} :
    (vbs.all (·.value = .endOfMibView)) = false ↔ ∃ vb ∈ vbs, vb.value ≠ .endOfMibView := by
  simp [List.all_eq_false]

theorem repeatRows_rows {pre : List Varbind} {n r : Nat} {s : BulkState}
    (H : s.After store starts pre budget r) :
    ∃ m, (repeatRows store budget n s).responseVarbinds = pre ++ store.bulkRows starts m ∧
      IsGreatest {m | m ≤ r + n ∧ RowsFit store starts (estimatedSize pre) budget m} m := by
  induction n generalizing r s with
  | zero => exact ⟨r, H.varbinds, ⟨Nat.le_refl r, H.fits⟩, fun m hm => hm.1⟩
  | succ n ih =>
    rw [repeatRows, H.currentOids, buildRepeatingRow_reached]
    dsimp only
    have hsucc : estimatedSize (pre ++ store.bulkRows starts (r + 1)) =
        s.estimatedResponseSize + estimatedSize (store.bulkRow starts r) := by
      rw [H.size, store.bulkRows_succ, ← List.append_assoc, estimatedSize_append]
    rw [estimatedSize_append] at hsucc
    split
    · -- The next row is too large, and so is every larger number of rows.
      rename_i hlarge
      refine ⟨r, H.varbinds, ⟨by omega, H.fits⟩, fun m hm => Nat.not_lt.mp fun hlt => ?_⟩
      rcases hm.2.of_le (m := r + 1) hlt with h | ⟨h, -⟩ <;> omega
    · rename_i hsmall
      have hfits : RowsFit store starts (estimatedSize pre) budget (r + 1) :=
        .inr ⟨by omega, fun i hi => H.open_ i (by omega)⟩
      have hvarbinds : s.responseVarbinds ++ store.bulkRow starts r =
          pre ++ store.bulkRows starts (r + 1) := by
        rw [H.varbinds, store.bulkRows_succ, List.append_assoc]
      split
      · -- Nothing but ends: the row is the last one.
        rename_i hend
        refine ⟨r + 1, hvarbinds, ⟨by omega, hfits⟩, fun m hm => Nat.not_lt.mp fun hlt => ?_⟩
        rcases hm.2 with rfl | ⟨-, hopen⟩
        · omega
        · rw [not_all_end.mpr (hopen r (by omega))] at hend
          cases hend
      · rename_i hopen
        rw [Nat.add_comm n 1, ← Nat.add_assoc]
        refine ih ⟨rfl, hvarbinds, ?_, hfits, fun i hi => ?_⟩
        · rw [estimatedSize_append]
          exact hsucc.symm
        · rcases Nat.lt_succ_iff_lt_or_eq.mp hi with hi | rfl
          · exact H.open_ i hi
          · exact not_all_end.mp (Bool.not_eq_true _ ▸ hopen)

theorem resolveNonRepeating_eq (store : Store) (varbinds : List Varbind) :
    resolveNonRepeating store varbinds =
      ⟨[], varbinds.map fun vb => resolveGetNextVarbind store vb.oid,
        estimatedSize (varbinds.map fun vb => resolveGetNextVarbind store vb.oid)⟩ := by
  suffices h : ∀ s : BulkState, varbinds.foldl (fun s vb =>
      { s with
        responseVarbinds := s.responseVarbinds ++ [resolveGetNextVarbind store vb.oid]
        estimatedResponseSize :=
          s.estimatedResponseSize +
            estimatedVarbindWireSize (resolveGetNextVarbind store vb.oid) }) s =
      ⟨s.currentOids,
        s.responseVarbinds ++ varbinds.map fun vb => resolveGetNextVarbind store vb.oid,
        s.estimatedResponseSize +
          estimatedSize (varbinds.map fun vb => resolveGetNextVarbind store vb.oid)⟩ by
    rw [resolveNonRepeating]
    simpa [estimatedSize] using h ⟨[], [], 0⟩
  induction varbinds with
  | nil => simp [estimatedSize]
  | cons vb vbs ih =>
    intro s
    rw [List.foldl_cons, ih]
    simp [estimatedSize, Nat.add_assoc]

end

/-! ## The response -/

/-- The varbinds that are answered once, as by GETNEXT. -/
def GetBulkRequest.nonRepeating (req : GetBulkRequest) : List Varbind :=
  req.varbinds.take (min req.nonRepeaters.toNat req.varbinds.length)

/-- The object identifiers at which the columns start. -/
def GetBulkRequest.columns (req : GetBulkRequest) : List Oid :=
  (req.varbinds.drop (min req.nonRepeaters.toNat req.varbinds.length)).map (·.oid)

/-- The answer without any row. -/
def nonRepeatingResponse (req : GetBulkRequest) (store : Store) : GetResponse :=
  handleGetNext ⟨req.requestId, req.nonRepeating⟩ store

theorem handleGetBulk_eq (req : GetBulkRequest) (store : Store) (maxRepetitionsCap : UInt32)
    (maxResponseSize : Nat) :
    handleGetBulk req store maxRepetitionsCap maxResponseSize =
      { requestId := req.requestId, errorStatus := .noError, errorIndex := 0,
        varbinds := (nonRepeatingResponse req store).varbinds ++ store.bulkRows req.columns
          (bulkRowCount store req.columns (estimatedSize (nonRepeatingResponse req store).varbinds)
            (maxResponseSize - 512) (min req.maxRepetitions.toNat maxRepetitionsCap.toNat)) } := by
  have hpre : (nonRepeatingResponse req store).varbinds =
      req.nonRepeating.map fun vb => resolveGetNextVarbind store vb.oid := rfl
  have hmin : (min req.maxRepetitions maxRepetitionsCap).toNat =
      min req.maxRepetitions.toNat maxRepetitionsCap.toNat := UInt32.toNat_min ..
  have hcols : req.columns = [] ↔
      req.varbinds.drop (min req.nonRepeaters.toNat req.varbinds.length) = [] := List.map_eq_nil_iff
  rw [handleGetBulk, List.splitAt_eq]
  dsimp only
  rw [← GetBulkRequest.nonRepeating, resolveNonRepeating_eq, ← hpre, ← hmin]
  by_cases hne : req.columns = []
  · rw [if_neg fun h => h.1 (hcols.mp hne), bulkRowCount, if_pos hne]
    simp [Store.bulkRows]
  by_cases hpos : 0 < min req.maxRepetitions maxRepetitionsCap
  · rw [if_pos ⟨fun h => hne (hcols.mpr h), hpos⟩]
    have hstart : BulkState.After store req.columns (nonRepeatingResponse req store).varbinds
        (maxResponseSize - 512) 0 ⟨req.columns, (nonRepeatingResponse req store).varbinds,
          estimatedSize (nonRepeatingResponse req store).varbinds⟩ :=
      ⟨(List.map_id _).symm, by simp [Store.bulkRows], by simp [Store.bulkRows], .inl rfl, nofun⟩
    obtain ⟨rows, hrows, hgreatest⟩ := repeatRows_rows
      (n := (min req.maxRepetitions maxRepetitionsCap).toNat) hstart
    rw [Nat.zero_add] at hgreatest
    rw [(isGreatest_bulkRowCount hne _).unique hgreatest, ← hrows]
    rfl
  · have hzero : (min req.maxRepetitions maxRepetitionsCap).toNat = 0 :=
      Nat.le_zero.mp (UInt32.not_lt.mp hpos)
    rw [if_neg fun h => hpos h.2, hzero, bulkRowCount, if_neg hne, Nat.findGreatest_zero]
    simp [Store.bulkRows]

/-- **GETBULK.** The non-repeating bindings are answered as by GETNEXT. As many rows follow as are
asked for, allowed and fit. -/
theorem handleGetBulk_rows (req : GetBulkRequest) (store : Store) (maxRepetitionsCap : UInt32)
    (maxResponseSize : Nat) :
    let response := handleGetBulk req store maxRepetitionsCap maxResponseSize
    response.errorStatus = .noError ∧ response.errorIndex = 0 ∧ response.requestId = req.requestId ∧
      ∃ rows, response.varbinds =
          (handleGetNext ⟨req.requestId, req.nonRepeating⟩ store).varbinds ++
            store.bulkRows req.columns rows ∧
        (req.columns = [] → rows = 0) ∧
        (req.columns ≠ [] → IsGreatest
          {n | n ≤ min req.maxRepetitions.toNat maxRepetitionsCap.toNat ∧
            RowsFit store req.columns
              (estimatedSize (handleGetNext ⟨req.requestId, req.nonRepeating⟩ store).varbinds)
              (maxResponseSize - 512) n} rows) := by
  intro response
  have heq : response = _ := handleGetBulk_eq req store maxRepetitionsCap maxResponseSize
  rw [heq]
  refine ⟨rfl, rfl, rfl, _, rfl, fun hnil => ?_, fun hne => isGreatest_bulkRowCount hne _⟩
  rw [bulkRowCount, if_pos hnil]

/-! ## The estimate -/

theorem lengthOfLength_eq {n : Nat} (h : n < 2 ^ 64) :
    lengthOfLength n = (lengthField n).length := by
  rw [lengthOfLength, length_lengthField]
  split
  · rw [if_pos (by omega)]
  · have h0 : n ≠ 0 := by omega
    have hlog : n.log2 < 64 := (Nat.log2_lt h0).mpr h
    rw [if_neg (by omega), usizeLeadingZeros, if_neg h0, byteCount, log256_eq]
    omega

theorem length_unsignedContent_le {k n : Nat} (h : n < 256 ^ k) :
    (unsignedContent (toBE k n)).length ≤ k + 1 := by
  have hpow : (256 : Int) ^ k = ((256 ^ k : Nat) : Int) := by norm_cast
  have hsigned : signed (0 :: toBE k n) = n := by
    rw [signed_cons_of_lt (by decide), fromBE_zero_cons, fromBE_toBE_of_lt h]
  refine length_stripSigned_le (k := k) ?_ ?_ <;> rw [hsigned, hpow] <;> omega

theorem length_valueContent_le (v : VarbindValue) :
    (valueContent v).length ≤ valueContentUpperBound v := by
  have h32 (n : UInt32) : (unsignedContent (toBE 4 n.toNat)).length ≤ 5 :=
    length_unsignedContent_le n.toNat_lt
  have h64 (n : UInt64) : (unsignedContent (toBE 8 n.toNat)).length ≤ 9 :=
    length_unsignedContent_le n.toNat_lt
  cases v with
  | value v =>
    cases v with
    | integer32 n => exact length_integerContent_le n
    | objectIdentifier oid => exact length_encodeOid_le oid
    | ipAddress octets => exact octets.property.le
    | octetString bytes => exact Nat.le_refl bytes.length
    | counter32 n => exact h32 n
    | counter64 n => exact h64 n
    | gauge32 n => exact h32 n
    | timeTicks n => exact h32 n
    | opaque_ bytes => exact Nat.le_refl bytes.length
  | _ => exact Nat.le_refl 0

/-- A TLV is within the size computed from a bound of its contents. -/
theorem tlvSize_le_estimate {n n' : Nat} (h : n ≤ n') (hn' : n' < 2 ^ 64) :
    tlvSize n ≤ 1 + lengthOfLength n' + n' := by
  rw [lengthOfLength_eq hn']
  exact tlvSize_mono h

theorem length_varbindTlv_le_estimate {vb : Varbind} (h : estimatedVarbindWireSize vb < 2 ^ 64) :
    (varbindTlv vb).length ≤ estimatedVarbindWireSize vb := by
  have hoid := length_encodeOid_le vb.oid
  have hvalue := length_valueContent_le vb.value
  simp only [estimatedVarbindWireSize] at h ⊢
  simp only [varbindTlv, valueTlv, length_tlv, List.length_append]
  refine tlvSize_le_estimate (Nat.add_le_add ?_ ?_) (by omega)
  · exact tlvSize_le_estimate hoid (by omega)
  · exact tlvSize_le_estimate hvalue (by omega)

theorem length_flatMap_varbindTlv_le {vbs : List Varbind} (h : estimatedSize vbs < 2 ^ 64) :
    (vbs.flatMap varbindTlv).length ≤ estimatedSize vbs := by
  induction vbs with
  | nil => exact Nat.le_refl 0
  | cons vb vbs ih =>
    rw [estimatedSize, List.map_cons, List.sum_cons, ← estimatedSize] at h ⊢
    have hlt : estimatedVarbindWireSize vb < 2 ^ 64 := by omega
    have hvb := length_varbindTlv_le_estimate hlt
    have hvbs := ih (by omega)
    rw [List.flatMap_cons, List.length_append]
    omega

/-- The estimate is never too small for a list that a machine can hold. -/
theorem length_flatMap_le_estimatedSize {vbs : List Varbind}
    (h : (vbs.flatMap varbindTlv).length < 2 ^ 64) :
    (vbs.flatMap varbindTlv).length ≤ estimatedSize vbs := by
  by_cases hsize : estimatedSize vbs < 2 ^ 64
  · exact length_flatMap_varbindTlv_le hsize
  · omega

/-! ## Around the variable bindings -/

section
variable {crypto : Crypto} {p : V3Params} {salt : SaltCounter} {rawPdu rawPdu' : Bytes}

theorem length_integerTlv_le (n : Int32) : (Ber.integerTlv n).length ≤ 6 := by
  have h := length_integerContent_le n
  rw [Ber.integerTlv, length_tlv, tlvSize_of_le (by omega)]
  omega

theorem length_authPlaceholder_le (auth : Option (AuthProtocol × Bytes)) :
    (authPlaceholder auth).length ≤ 48 := by
  obtain _ | ⟨protocol, key⟩ := auth
  · exact Nat.zero_le _
  · rw [authPlaceholder, List.length_replicate]
    cases protocol <;> decide

theorem length_privParams_le (p : V3Params) (salt : SaltCounter) :
    (p.privParams salt).length ≤ 8 := by
  unfold V3Params.privParams
  split
  · exact salt.salt.property.le
  · exact Nat.zero_le _

theorem length_scopedDataTlv (crypto : Crypto) (p : V3Params) (salt : SaltCounter)
    (rawPdu : Bytes) :
    (scopedDataTlv (p.scopedData crypto salt rawPdu)).length =
      if p.privacy.isSome then tlvSize (p.scopedPdu rawPdu).length
        else (p.scopedPdu rawPdu).length := by
  rcases h : p.privacy with _ | ⟨protocol, key⟩
  · simp [V3Params.scopedData, h, scopedDataTlv, V3Params.scopedPdu]
  · simp only [V3Params.scopedData, h, scopedDataTlv, octetStringTlv, length_tlv,
      (crypto.cfbEncrypt _ _ _ _).property, Option.isSome_some, if_true]

theorem length_unsigned_mono (crypto : Crypto) (p : V3Params) (salt : SaltCounter)
    (h : rawPdu.length ≤ rawPdu'.length) :
    (p.unsigned crypto salt rawPdu).length ≤ (p.unsigned crypto salt rawPdu').length := by
  have hscoped : (p.scopedPdu rawPdu).length ≤ (p.scopedPdu rawPdu').length := by
    simp only [V3Params.scopedPdu, scopedPduTlv, length_tlv, List.length_append]
    exact tlvSize_mono (by omega)
  have hdata : (scopedDataTlv (p.scopedData crypto salt rawPdu)).length ≤
      (scopedDataTlv (p.scopedData crypto salt rawPdu')).length := by
    rw [length_scopedDataTlv, length_scopedDataTlv]
    split
    · exact tlvSize_mono hscoped
    · exact hscoped
  simp only [V3Params.unsigned, messageBytes, length_tlv, List.length_append]
  exact tlvSize_mono (by omega)

theorem length_usmContents_le (salt : SaltCounter)
    (huser : p.userName.length ≤ msgUserNameMaxLength) (hengine : p.engineId.length < 2 ^ 60) :
    (usmContents (p.usm salt (authPlaceholder p.auth))).length ≤ p.engineId.length + 126 := by
  have hauth := length_authPlaceholder_le p.auth
  have hpriv := length_privParams_le p salt
  have hid := tlvSize_le (n := p.engineId.length) (by omega)
  have hboots := length_integerTlv_le p.engineBoots.toInt32
  have htime := length_integerTlv_le p.engineTime.toInt32
  simp only [usmContents, V3Params.usm, octetStringTlv, length_tlv, List.length_append]
  simp only [msgUserNameMaxLength] at huser
  rw [tlvSize_of_le (n := p.userName.length) (by omega),
    tlvSize_of_le (n := (authPlaceholder p.auth).length) (by omega),
    tlvSize_of_le (n := (p.privParams salt).length) (by omega)]
  omega

theorem length_headerContents_le (header : HeaderData) : (headerContents header).length ≤ 21 := by
  have hmsgId := length_integerTlv_le header.msgId
  have hmaxSize := length_integerTlv_le header.maxSize
  have hmodel := length_integerTlv_le header.securityModel
  simp only [headerContents, octetStringTlv, length_tlv, List.length_append,
    List.length_singleton, tlvSize_of_le (n := 1) (by decide)]
  omega

theorem length_scopedPdu_le_add (hengine : p.engineId.length < 2 ^ 60)
    (hcontext : p.contextName.length < 2 ^ 60) (hraw : rawPdu.length < 2 ^ 63 + 2 ^ 60) :
    (p.scopedPdu rawPdu).length ≤
      rawPdu.length + p.engineId.length + p.contextName.length + 30 := by
  have h₁ := tlvSize_le (n := p.engineId.length) (by omega)
  have h₂ := tlvSize_le (n := p.contextName.length) (by omega)
  have h₃ := tlvSize_le (n := tlvSize p.engineId.length + (tlvSize p.contextName.length +
    rawPdu.length)) (by omega)
  simp only [V3Params.scopedPdu, scopedPduTlv, octetStringTlv, length_tlv, List.length_append]
  omega

/-- The engine ID stands in the security parameters and in the `ScopedPdu`. -/
theorem length_unsigned_le (crypto : Crypto) (salt : SaltCounter)
    (huser : p.userName.length ≤ msgUserNameMaxLength) (hengine : p.engineId.length < 2 ^ 60)
    (hcontext : p.contextName.length < 2 ^ 60) (hraw : rawPdu.length < 2 ^ 63 + 2 ^ 60) :
    (p.unsigned crypto salt rawPdu).length ≤
      rawPdu.length + 2 * p.engineId.length + p.contextName.length + 264 := by
  have husm := length_usmContents_le salt huser hengine
  have hheader := length_headerContents_le p.header
  have hscoped := length_scopedPdu_le_add hengine hcontext hraw
  have hdata : (scopedDataTlv (p.scopedData crypto salt rawPdu)).length ≤
      rawPdu.length + p.engineId.length + p.contextName.length + 40 := by
    have h := tlvSize_le (n := (p.scopedPdu rawPdu).length) (by omega)
    rw [length_scopedDataTlv]
    split <;> omega
  have h₁ := tlvSize_le (n := (usmContents (p.usm salt (authPlaceholder p.auth))).length) (by omega)
  have h₂ := tlvSize_le (n := tlvSize (usmContents (p.usm salt (authPlaceholder p.auth))).length)
    (by omega)
  have h₃ := tlvSize_of_le (n := (headerContents p.header).length) (by omega)
  have h₄ := length_integerTlv_le snmpv3Version
  have h₅ := tlvSize_le (n := (Ber.integerTlv snmpv3Version).length +
    (tlvSize (headerContents p.header).length +
      (tlvSize (tlvSize (usmContents (p.usm salt (authPlaceholder p.auth))).length) +
        (scopedDataTlv (p.scopedData crypto salt rawPdu)).length))) (by omega)
  simp only [V3Params.unsigned, messageBytes, octetStringTlv, length_tlv, List.length_append]
  omega

end

/-! ## The size of a response -/

/-- The size limit of a response to this request. -/
def V3MessageEnvelope.responseLimit (env : V3MessageEnvelope) : Nat :=
  min env.maxSize.toInt.toNat 65535

theorem length_pduTlv_le (tag : UInt8) (first second third : Int32) {vbs : List Varbind} {n : Nat}
    (h : (vbs.flatMap varbindTlv).length ≤ n) (hn : n < 2 ^ 63) :
    (Ber.pduTlv tag first second third (varbindListTlv vbs)).length ≤ n + 38 := by
  have h₁ := length_integerTlv_le first
  have h₂ := length_integerTlv_le second
  have h₃ := length_integerTlv_le third
  have h₄ := tlvSize_le (n := (vbs.flatMap varbindTlv).length) (by omega)
  have h₅ := tlvSize_le (n := (Ber.integerTlv first).length + ((Ber.integerTlv second).length +
    ((Ber.integerTlv third).length + tlvSize (vbs.flatMap varbindTlv).length))) (by omega)
  simp only [Ber.pduTlv, varbindListTlv, length_tlv, List.length_append]
  omega

theorem length_responseTlv_mono (requestId : Int32) (errorStatus : ErrorStatus)
    (errorIndex : UInt32) (vbs vbs' : List Varbind) :
    (responseTlv ⟨requestId, errorStatus, errorIndex, vbs⟩).length ≤
      (responseTlv ⟨requestId, errorStatus, errorIndex, vbs ++ vbs'⟩).length := by
  simp only [responseTlv, Ber.pduTlv, varbindListTlv, length_tlv, List.length_append,
    List.flatMap_append]
  refine tlvSize_mono (Nat.add_le_add_left (Nat.add_le_add_left (Nat.add_le_add_left ?_ _) _) _)
  exact tlvSize_mono (Nat.le_add_right ..)

theorem bulkRow_pos (store : Store) {starts : List Oid} (hne : starts ≠ []) (r : Nat) :
    0 < estimatedSize (store.bulkRow starts r) := by
  obtain ⟨start, starts, rfl⟩ := List.exists_cons_of_ne_nil hne
  rw [Store.bulkRow, List.map_cons, estimatedSize, List.map_cons, List.sum_cons,
    estimatedVarbindWireSize]
  omega

section
variable {crypto : Crypto} {p : V3Params} {salt : SaltCounter} {pdu : GetResponse}

theorem length_flatMap_le_unsigned : (pdu.varbinds.flatMap varbindTlv).length ≤
    (p.unsigned crypto salt (responseTlv pdu)).length := by
  have hlist : (pdu.varbinds.flatMap varbindTlv).length ≤ (varbindListTlv pdu.varbinds).length := by
    rw [varbindListTlv, length_tlv]
    exact le_tlvSize _
  exact hlist.trans ((length_varbindListTlv_le ..).trans length_rawPdu_le)

/-- The allowance covers everything around the variable bindings. -/
theorem length_unsigned_response_le (crypto : Crypto) (salt : SaltCounter)
    (huser : p.userName.length ≤ msgUserNameMaxLength) (hengine : p.engineId.length ≤ 32)
    (hcontext : p.contextName = []) (hlist : (pdu.varbinds.flatMap varbindTlv).length < 2 ^ 63) :
    (p.unsigned crypto salt (responseTlv pdu)).length ≤ 512 + estimatedSize pdu.varbinds := by
  have hcontent := length_flatMap_le_estimatedSize (hlist.trans (by decide))
  have hraw : (responseTlv pdu).length ≤ _ := length_pduTlv_le _ _ _ _ le_rfl hlist
  have hmessage := length_unsigned_le (p := p) crypto salt huser (by omega) (by simp [hcontext])
    (lt_of_le_of_lt hraw (by omega))
  rw [hcontext, List.length_nil] at hmessage
  omega

end

/-- A response with a row in it is within its limit, whatever was asked for before the rows. -/
theorem length_unsigned_of_rows {store : Store} {req : GetBulkRequest} {p : V3Params}
    {limit rows : Nat} (crypto : Crypto) (salt : SaltCounter)
    (huser : p.userName.length ≤ msgUserNameMaxLength)
    (hengine : p.engineId.length ≤ 32) (hcontext : p.contextName = [])
    (hlen : (p.unsigned crypto salt (responseTlv ⟨req.requestId, .noError, 0,
      (nonRepeatingResponse req store).varbinds ++ store.bulkRows req.columns rows⟩)).length ≤
        isizeMax)
    (hcols : req.columns ≠ []) (hrows : rows ≠ 0)
    (hfit : RowsFit store req.columns (estimatedSize (nonRepeatingResponse req store).varbinds)
      (limit - 512) rows) :
    (p.unsigned crypto salt (responseTlv ⟨req.requestId, .noError, 0,
      (nonRepeatingResponse req store).varbinds ++ store.bulkRows req.columns rows⟩)).length ≤
      limit := by
  obtain h | ⟨hsize, -⟩ := hfit
  · exact absurd h hrows
  -- A row has a size, so the budget is positive and the limit is above the allowance.
  have hpos : 0 < estimatedSize (store.bulkRows req.columns rows) := by
    obtain ⟨n, rfl⟩ := Nat.exists_eq_succ_of_ne_zero hrows
    have := bulkRow_pos store hcols n
    rw [Store.bulkRows_succ, estimatedSize_append]
    omega
  have hmessage := length_unsigned_response_le crypto salt huser hengine hcontext
    (length_flatMap_le_unsigned.trans_lt (hlen.trans_lt (by decide)))
  rw [estimatedSize_append] at hmessage
  omega

/-- **The size of a GETBULK response.** It is within the limit of the request exactly if the answers
to the non-repeating bindings are on their own. -/
theorem bulk_response_within_limit_iff (crypto : Crypto) (frame : Bytes) (mib : Store)
    (agent : Agent) (hboots : agent.ctx.inputs.engineBoots < 0x80000000)
    (htime : agent.ctx.inputs.engineTime < 0x80000000)
    (hengine : agent.ctx.inputs.engineId.length ≤ 32)
    (env : V3MessageEnvelope) (henv : Ber.decodeV3Envelope frame = .ok env)
    (contextEngineId contextName : Bytes) (req : GetBulkRequest)
    (hreq : env.Carries crypto agent.ctx.inputs.usmUser
      ⟨contextEngineId, contextName, .getBulkRequest req⟩) (bytes : Bytes) (agent' : Agent)
    (h : processSnmpv3Request crypto frame mib agent = .ok (some bytes, agent'))
    (hresponse : isReport bytes = false) :
    bytes.length ≤ env.responseLimit ↔
      ∃ bytes₀ salt, (encodeV3Response crypto
          (responseParams agent.ctx.inputs env.msgId env.usm.userName [])
          (nonRepeatingResponse req mib)).run agent.salt = .ok (bytes₀, salt) ∧
        bytes₀.length ≤ env.responseLimit := by
  obtain ⟨msg, pdu, contextName', _, hmsg, hadm, hr, -⟩ :=
    processSnmpv3Request_response.mp ⟨h, hresponse⟩
  obtain ⟨env', M⟩ := isInbound_of_decode hmsg
  obtain rfl := M.unique henv
  obtain ⟨rfl, A⟩ := (M.admission_iff hboots htime).mp hadm
  cases hreq.unique A.context
  obtain ⟨hs, -, hsealed, hlen⟩ := respond_inv hmsg hr
  have hp := wf_responseParams agent.ctx.inputs [] hmsg
  rw [hsealed.length_eq] at hlen ⊢
  rw [M.msgId, M.userName] at hp hs hlen ⊢
  have hhandle : handleRequest msg.maxSize mib (.getBulkRequest req) =
      handleGetBulk req mib maxBulkRepetitions env.responseLimit := by
    rw [M.maxSize]
    rfl
  rw [hhandle, handleGetBulk_eq] at hlen ⊢
  generalize hrows : bulkRowCount .. = rows at hlen ⊢
  -- The answers alone are encoded whenever the whole response is.
  have hle := length_unsigned_mono crypto
    (responseParams agent.ctx.inputs env.msgId env.usm.userName []) agent.salt
    (length_responseTlv_mono req.requestId .noError 0 (nonRepeatingResponse req mib).varbinds
      (mib.bulkRows req.columns rows))
  have hindex : (nonRepeatingResponse req mib).errorIndex < 0x80000000 :=
    (by decide : (0 : UInt32) < 0x80000000)
  have halone := capped_encodeV3Envelope crypto agent.salt
    (responseTlv (nonRepeatingResponse req mib)) hp hs
  rw [← run_encodeV3Response hindex] at halone
  obtain ⟨hlarge, -⟩ | ⟨-, bytes₀, hbytes₀, hsealed₀⟩ := halone
  · exact absurd (hle.trans hlen) (Nat.not_le.mpr hlarge)
  constructor
  · intro hfull
    exact ⟨bytes₀, _, hbytes₀, hsealed₀.length_eq.trans_le (hle.trans hfull)⟩
  · rintro ⟨bytes₁, salt₁, hbytes₁, hlimit⟩
    rw [hbytes₀] at hbytes₁
    cases hbytes₁
    obtain rfl | hne := Nat.eq_zero_or_pos rows
    · rw [Store.bulkRows, List.range_zero, List.flatMap_nil, List.append_nil]
      exact hsealed₀.length_eq.symm.trans_le hlimit
    · have hcols : req.columns ≠ [] := by
        intro hnil
        rw [bulkRowCount, if_pos hnil] at hrows
        omega
      exact length_unsigned_of_rows crypto agent.salt hp.userName_le hengine rfl hlen hcols
        (Nat.ne_of_gt hne) (hrows ▸ (isGreatest_bulkRowCount hcols _).1.2)

namespace Sample

def root : Oid := ⟨[1, 3], rfl⟩

/-- A store with one long text. -/
def longText : Value := .octetString (.replicate 500 0x61)
def longStore : Store := Store.new.set sysDescr longText

/-- A bulk request from a manager that takes 484 bytes, for one binding. -/
def bulkRequest (nonRepeaters : UInt32) : GetBulkRequest :=
  ⟨1, nonRepeaters, 1, [⟨root, .unspecified⟩]⟩

def bulkEnvelope (nonRepeaters : UInt32) : V3MessageEnvelope :=
  envelopeOf ⟨7, 484, 0x00, 3⟩ ⟨engineId, 3, 1000, userName, [], []⟩
    (.plaintext engineId [] (requestTlv (.getBulkRequest (bulkRequest nonRepeaters)) 0 0)) 0

def bulkFrame (nonRepeaters : UInt32) : Bytes :=
  messageBytes ⟨7, 484, 0x00, 3⟩ ⟨engineId, 3, 1000, userName, [], []⟩
    (scopedPduTlv engineId [] (requestTlv (.getBulkRequest (bulkRequest nonRepeaters)) 0 0))

def bulkResponse (varbinds : List Varbind) : Bytes :=
  message 0x00 [] [] (scopedPduTlv engineId [] (responseTlv ⟨1, .noError, 0, varbinds⟩))

theorem carries_bulkRequest (nonRepeaters : UInt32) (h : nonRepeaters < 0x80000000)
    (hlen : (requestTlv (.getBulkRequest (bulkRequest nonRepeaters)) 0 0).length < usizeSize) :
    (bulkEnvelope nonRepeaters).Carries crypto none
      ⟨engineId, [], .getBulkRequest (bulkRequest nonRepeaters)⟩ :=
  ⟨rfl, rfl, decodePdu_requestTlv ⟨h, (by decide : (1 : UInt32) < 0x80000000)⟩ hlen⟩

end Sample

/-- The long text asked for in a row is left out. -/
theorem bulk_response_within_limit_iff_sample :
    (Sample.bulkResponse []).length ≤ (Sample.bulkEnvelope 0).responseLimit ↔
      ∃ bytes₀ salt, (encodeV3Response Sample.crypto
          (responseParams (Sample.inputs none .noAuthNoPriv) 7 Sample.userName [])
          (nonRepeatingResponse (Sample.bulkRequest 0) Sample.longStore)).run Sample.agentSalt =
            .ok (bytes₀, salt) ∧
        bytes₀.length ≤ (Sample.bulkEnvelope 0).responseLimit :=
  bulk_response_within_limit_iff Sample.crypto (Sample.bulkFrame 0) Sample.longStore
    (Sample.agent none .noAuthNoPriv) (by decide) (by decide) (by decide) (Sample.bulkEnvelope 0)
    (by decide +kernel) Sample.engineId [] (Sample.bulkRequest 0)
    (Sample.carries_bulkRequest 0 (by decide) (by decide +kernel)) _
    (Sample.agent none .noAuthNoPriv) (by decide +kernel) (by decide +kernel)

/-- The same text asked for once is sent to a manager that cannot take it. -/
theorem oversized_bulk_response :
    Ber.decodeV3Envelope (Sample.bulkFrame 1) = .ok (Sample.bulkEnvelope 1) ∧
    (Sample.bulkEnvelope 1).Carries Sample.crypto none
      ⟨Sample.engineId, [], .getBulkRequest (Sample.bulkRequest 1)⟩ ∧
    processSnmpv3Request Sample.crypto (Sample.bulkFrame 1) Sample.longStore
        (Sample.agent none .noAuthNoPriv) =
      .ok (some (Sample.bulkResponse [⟨Sample.sysDescr, .value Sample.longText⟩]),
        Sample.agent none .noAuthNoPriv) ∧
    isReport (Sample.bulkResponse [⟨Sample.sysDescr, .value Sample.longText⟩]) = false ∧
    ¬ (Sample.bulkResponse [⟨Sample.sysDescr, .value Sample.longText⟩]).length ≤
      (Sample.bulkEnvelope 1).responseLimit := by
  refine ⟨by decide +kernel, Sample.carries_bulkRequest 1 (by decide) (by decide +kernel),
    by decide +kernel, by decide +kernel, by decide +kernel⟩

end SnmpAgent
