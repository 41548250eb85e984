import Mathlib.Data.List.Forall2
import SnmpAgent.Transport.Gate

/-!
# Answers to requests

What a manager may expect of a response: it belongs to the request, its error fields agree with each
other, and its variable bindings answer those of the request one by one. The handlers give such
answers, except to a SET request without variable bindings, whose error index points at a variable
binding that is not there.
-/

namespace SnmpAgent
open Rust

def InboundPdu.requestId : InboundPdu → Int32
  | .getRequest req => req.requestId
  | .getNextRequest req => req.requestId
  | .setRequest req => req.requestId
  | .getBulkRequest req => req.requestId

/-- The variable bindings of a response against those of the request. -/
def InboundPdu.AnsweredBy : InboundPdu → List Varbind → Prop
  | .getRequest req, varbinds =>
    List.Forall₂ (fun asked answered => answered.oid = asked.oid) req.varbinds varbinds
  | .getNextRequest req, varbinds =>
    List.Forall₂ (fun asked answered => asked.oid < answered.oid ∨
      answered = ⟨asked.oid, .endOfMibView⟩) req.varbinds varbinds
  | .setRequest req, varbinds => varbinds = req.varbinds
  | .getBulkRequest _, _ => True

structure IsAnswer (request : InboundPdu) (response : GetResponse) : Prop where
  requestId : response.requestId = request.requestId
  errorIndex_eq_zero : response.errorIndex = 0 ↔ response.errorStatus = .noError
  errorIndex_le : response.errorStatus ≠ .noError →
    1 ≤ response.errorIndex.toNat ∧ response.errorIndex.toNat ≤ response.varbinds.length
  varbinds : request.AnsweredBy response.varbinds

def InboundPdu.IsEmptySet (request : InboundPdu) : Prop :=
  ∃ req, request = .setRequest req ∧ req.varbinds = []

theorem forall₂_map_right {α β : Type} {R : α → β → Prop} {f : α → β} (xs : List α)
    (h : ∀ x, R x (f x)) : List.Forall₂ R xs (xs.map f) := by
  rw [List.forall₂_map_right_iff, List.forall₂_same]
  exact fun x _ => h x

theorem resolveGetNextVarbind_greater (store : Store) (oid : Oid) :
    oid < (resolveGetNextVarbind store oid).oid ∨
      resolveGetNextVarbind store oid = ⟨oid, .endOfMibView⟩ := by
  unfold resolveGetNextVarbind
  cases h : store.next oid with
  | none => exact .inr rfl
  | some entry => exact .inl (by simpa using List.find?_some h)

/-- A response without an error only has to have the right variable bindings. -/
theorem isAnswer_of_noError {request : InboundPdu} {response : GetResponse}
    (hid : response.requestId = request.requestId) (hstatus : response.errorStatus = .noError)
    (hindex : response.errorIndex = 0) (hvarbinds : request.AnsweredBy response.varbinds) :
    IsAnswer request response where
  requestId := hid
  errorIndex_eq_zero := ⟨fun _ => hstatus, fun _ => hindex⟩
  errorIndex_le h := absurd hstatus h
  varbinds := hvarbinds

theorem isAnswer_handleSet (req : SetRequest) :
    IsAnswer (.setRequest req) (handleSet req) ↔ req.varbinds ≠ [] := by
  constructor
  · intro H hnil
    have hle : 1 ≤ req.varbinds.length := (H.errorIndex_le nofun).2
    rw [hnil] at hle
    cases hle
  · intro hne
    refine ⟨rfl, ⟨fun h => absurd h (by decide : (1 : UInt32) ≠ 0), nofun⟩, fun _ => ⟨?_, ?_⟩, rfl⟩
    · exact Nat.le_refl 1
    · exact List.length_pos_iff.mpr hne

theorem isAnswer_handleRequest (maxSize : Int32) (mib : Store) (request : InboundPdu) :
    IsAnswer request (handleRequest maxSize mib request) ↔ ¬ request.IsEmptySet := by
  cases request with
  | getRequest req =>
    refine iff_of_true (isAnswer_of_noError rfl rfl rfl ?_) (by rintro ⟨_, h, -⟩; cases h)
    exact forall₂_map_right _ fun _ => rfl
  | getNextRequest req =>
    refine iff_of_true (isAnswer_of_noError rfl rfl rfl ?_) (by rintro ⟨_, h, -⟩; cases h)
    exact forall₂_map_right _ fun vb => resolveGetNextVarbind_greater mib vb.oid
  | getBulkRequest req =>
    exact iff_of_true (isAnswer_of_noError rfl rfl rfl trivial) (by rintro ⟨_, h, -⟩; cases h)
  | setRequest req =>
    refine (isAnswer_handleSet req).trans (not_congr ⟨fun h => ⟨req, rfl, h⟩, ?_⟩)
    rintro ⟨_, h, hnil⟩
    cases h
    exact hnil

/-- **Answers.** A frame that gets a response carries a request, and the response is an answer to it
if and only if the request is not a SET request without variable bindings. -/
theorem responses_are_answers_iff (crypto : Crypto) (frame : Bytes) (mib : Store) (agent : Agent)
    (bytes : Bytes) (agent' : Agent)
    (h : processSnmpv3Request crypto frame mib agent = .ok (some bytes, agent'))
    (hresponse : isReport bytes = false) :
    ∃ env request, Authentic crypto agent.ctx.inputs frame env request ∧
      (encodeV3Response crypto
          (responseParams agent.ctx.inputs env.msgId env.usm.userName [])
          (handleRequest env.maxSize mib request)).run agent.salt = .ok (bytes, agent'.salt) ∧
      (IsAnswer request (handleRequest env.maxSize mib request) ↔ ¬ request.IsEmptySet) := by
  obtain ⟨msg, request, contextName, salt, hmsg, hadm, hr, rfl⟩ :=
    processSnmpv3Request_response.mp ⟨h, hresponse⟩
  obtain ⟨env, M⟩ := isInbound_of_decode hmsg
  obtain ⟨hs, -⟩ := respond_inv hmsg hr
  obtain ⟨rfl, A⟩ := (M.admission_iff hs.boots_lt hs.time_lt).mp hadm
  refine ⟨env, request, A, ?_, isAnswer_handleRequest ..⟩
  rw [← M.msgId, ← M.userName, ← M.maxSize]
  exact hr

theorem responses_are_answers_iff_sample :
    ∃ env request,
      Authentic Sample.crypto (Sample.inputs (some Sample.authUser) .authNoPriv) Sample.signedFrame
        env request ∧
      (encodeV3Response Sample.crypto (responseParams
          (Sample.inputs (some Sample.authUser) .authNoPriv) env.msgId env.usm.userName [])
          (handleRequest env.maxSize .new request)).run Sample.agentSalt =
        .ok (Sample.signedResponse (Sample.signedResponseTag.val.take 24), Sample.agentSalt) ∧
      (IsAnswer request (handleRequest env.maxSize .new request) ↔ ¬ request.IsEmptySet) :=
  responses_are_answers_iff Sample.crypto Sample.signedFrame .new
    (Sample.agent (some Sample.authUser) .authNoPriv) _
    (Sample.agent (some Sample.authUser) .authNoPriv) (by decide +kernel) (by decide +kernel)

namespace Sample

/-- An empty SET request in the clear, and the response to it. -/
def emptySet : InboundPdu := .setRequest ⟨1, []⟩
def emptySetFrame : Bytes := message 0x00 [] [] (scopedPduTlv engineId [] (requestTlv emptySet 0 0))
def emptySetResponse : GetResponse := ⟨1, .notWritable, 1, []⟩
def emptySetResponseFrame : Bytes :=
  message 0x00 [] [] (scopedPduTlv engineId [] (responseTlv emptySetResponse))

end Sample

theorem empty_set_not_answered :
    decodeV3Message Sample.emptySetFrame = .ok {
      msgId := 7, maxSize := msgMaxSizeUdp, securityModel := .usm, engineId := Sample.engineId,
      contextName := [], userName := Sample.userName, scopedData := .plaintext Sample.emptySet,
      usm := .ofWire ⟨Sample.engineId, 3, 1000, Sample.userName, [], []⟩ 0x00,
      rawMessage := Sample.emptySetFrame, authParamsOffset := none } ∧
    processSnmpv3Request Sample.crypto Sample.emptySetFrame .new
        (Sample.agent none .noAuthNoPriv) =
      .ok (some Sample.emptySetResponseFrame, Sample.agent none .noAuthNoPriv) ∧
    (encodeV3Response Sample.crypto
        (responseParams (Sample.inputs none .noAuthNoPriv) 7 Sample.userName [])
        Sample.emptySetResponse).run Sample.agentSalt =
      .ok (Sample.emptySetResponseFrame, Sample.agentSalt) ∧
    ¬ IsAnswer Sample.emptySet Sample.emptySetResponse := by
  refine ⟨by decide +kernel, by decide +kernel, by decide +kernel, fun H => ?_⟩
  exact absurd (H.errorIndex_le (by decide)).2 (by decide)

end SnmpAgent
