import SnmpAgent.Codec.Message
import SnmpAgent.Lib.OrderedMap

/-!
# The MIB store and the request handlers (`mib.rs`, `transport/request.rs`)

The handlers answer a decoded PDU from the store. The bulk handler keeps an estimate of the size of
its response; sizes are natural numbers, since no `usize` sum of sizes of values in memory
overflows.
-/

namespace SnmpAgent
open Rust

/-! ## Store -/

abbrev Store := OrderedMap Oid Value

namespace Store

def new : Store := .empty

def set (store : Store) (oid : Oid) (value : Value) : Store := store.insert oid value

def get (store : Store) (oid : Oid) : Option Value := store.get? oid

def next (store : Store) (oid : Oid) : Option (Oid × Value) := store.next? oid

end Store

/-! ## GET, GETNEXT and SET -/

def handleGet (req : GetRequest) (store : Store) : GetResponse where
  requestId := req.requestId
  errorStatus := .noError
  errorIndex := 0
  varbinds := req.varbinds.map fun vb =>
    { oid := vb.oid, value := (store.get vb.oid).elim .noSuchObject .value }

def resolveGetNextVarbind (store : Store) (oid : Oid) : Varbind :=
  match store.next oid with
  | some (nextOid, nextValue) => { oid := nextOid, value := .value nextValue }
  | none => { oid, value := .endOfMibView }

def handleGetNext (req : GetNextRequest) (store : Store) : GetResponse where
  requestId := req.requestId
  errorStatus := .noError
  errorIndex := 0
  varbinds := req.varbinds.map fun vb => resolveGetNextVarbind store vb.oid

def handleSet (req : SetRequest) : GetResponse where
  requestId := req.requestId
  errorStatus := .notWritable
  errorIndex := 1
  varbinds := req.varbinds

/-! ## Size estimates -/

/-- The allowance for everything in a message around the variable bindings. -/
def v3EnvelopeOverhead : Nat := 512

def lengthOfLength (contentLength : Nat) : Nat :=
  if contentLength < 128 then 1
  -- The bits of the length, with `div_ceil(8)`.
  else 1 + (64 - usizeLeadingZeros contentLength + 7) / 8

/-- An upper bound of the content of a value. -/
def valueContentUpperBound : VarbindValue → Nat
  | .value (.integer32 _) | .value (.ipAddress _) => 4
  | .value (.counter32 _) | .value (.gauge32 _) | .value (.timeTicks _) => 5
  | .value (.counter64 _) => 9
  | .value (.octetString octets) | .value (.opaque_ octets) => octets.length
  | .value (.objectIdentifier oid) => oid.arcs.length * 5
  | .noSuchObject | .noSuchInstance | .endOfMibView | .unspecified => 0

def estimatedVarbindWireSize (varbind : Varbind) : Nat :=
  let oidContentUpperBound := varbind.oid.arcs.length * 5
  let oidTlvSize := 1 + lengthOfLength oidContentUpperBound + oidContentUpperBound
  let valueContentUpperBound := valueContentUpperBound varbind.value
  let valueTlvSize := 1 + lengthOfLength valueContentUpperBound + valueContentUpperBound
  let innerSize := oidTlvSize + valueTlvSize
  1 + lengthOfLength innerSize + innerSize

/-! ## GETBULK -/

/-- The variable bindings of one repetition, before it is decided whether they fit. -/
structure RepeatingRow where
  varbinds : List Varbind
  estimatedSize : Nat
  allEndOfMib : Bool
  deriving DecidableEq

/-- One iteration of `build_repeating_row`, over the row so far and the columns moved so far. -/
def RepeatingRow.addColumn (store : Store) (acc : RepeatingRow × List Oid) (currentOid : Oid) :
    RepeatingRow × List Oid :=
  let (row, movedOids) := acc
  let resolved := resolveGetNextVarbind store currentOid
  let row : RepeatingRow := {
    varbinds := row.varbinds ++ [resolved]
    estimatedSize := row.estimatedSize + estimatedVarbindWireSize resolved
    allEndOfMib := row.allEndOfMib }
  match resolved.value with
  | .value _ => ({ row with allEndOfMib := false }, movedOids ++ [resolved.oid])
  | _ => (row, movedOids ++ [currentOid])

/-- The row, and the columns moved one step forward. -/
def buildRepeatingRow (store : Store) (currentOids : List Oid) : RepeatingRow × List Oid :=
  currentOids.foldl (RepeatingRow.addColumn store) (⟨[], 0, true⟩, [])

/-- The local variables of `handle_get_bulk`. -/
structure BulkState where
  currentOids : List Oid
  responseVarbinds : List Varbind
  estimatedResponseSize : Nat
  deriving DecidableEq

/-- The loop over the repetitions. The columns move before the row is known to fit. -/
def repeatRows (store : Store) (varbindBudget : Nat) : Nat → BulkState → BulkState
  | 0, s => s
  | n + 1, s =>
    let (row, currentOids) := buildRepeatingRow store s.currentOids
    if s.estimatedResponseSize + row.estimatedSize > varbindBudget then { s with currentOids }
    else
      let s : BulkState := {
        currentOids
        responseVarbinds := s.responseVarbinds ++ row.varbinds
        estimatedResponseSize := s.estimatedResponseSize + row.estimatedSize }
      if row.allEndOfMib then s else repeatRows store varbindBudget n s

/-- The loop over the non-repeating variable bindings. -/
def resolveNonRepeating (store : Store) (varbinds : List Varbind) : BulkState :=
  varbinds.foldl (fun s vb =>
    let resolved := resolveGetNextVarbind store vb.oid
    { s with
      responseVarbinds := s.responseVarbinds ++ [resolved]
      estimatedResponseSize := s.estimatedResponseSize + estimatedVarbindWireSize resolved })
    ⟨[], [], 0⟩

def handleGetBulk (req : GetBulkRequest) (store : Store) (maxRepetitionsCap : UInt32)
    (maxResponseSize : Nat) : GetResponse :=
  let varbindCount := req.varbinds.length
  let nonRepeaters := min req.nonRepeaters.toNat varbindCount
  let maxRepetitions := min req.maxRepetitions maxRepetitionsCap
  -- Subtraction saturates at zero, as on natural numbers.
  let varbindBudget := maxResponseSize - v3EnvelopeOverhead
  let (nonRepeatingVarbinds, repeatingVarbinds) := req.varbinds.splitAt nonRepeaters
  let s := resolveNonRepeating store nonRepeatingVarbinds
  let s :=
    if repeatingVarbinds ≠ [] ∧ maxRepetitions > 0 then
      repeatRows store varbindBudget maxRepetitions.toNat
        { s with currentOids := repeatingVarbinds.map (·.oid) }
    else s
  { requestId := req.requestId
    errorStatus := .noError
    errorIndex := 0
    varbinds := s.responseVarbinds }

end SnmpAgent
