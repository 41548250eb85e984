import SnmpAgent.Lib.Tickets
import SnmpAgent.Transport.Startup

/-!
# Initialisation vectors

The event loop and the threads that send traps encrypt messages at the same time. They share one
thing, the counter from which `next_privacy_salt` takes a salt, and `encodeV3Envelope` comes to it
once (`run_encodeV3Envelope`). So what threads do in any order is a schedule of `Tickets.Step`s, and
each message is the encoder's with the counter at the ticket (`exists_current_of_mem_encryptions`).
Within one start-up the salts differ, and from one start-up to the next the boots values do.
-/

namespace SnmpAgent
open Rust

/-! ## One call -/

/-- What `encode_v3_envelope` has worked out when it comes to the salt. -/
structure PreparedMessage where
  berBoots : Int32
  berTime : Int32
  scopedPduBytes : Bytes
  securityFlags : UInt8

/-- The salt that a ticket of the counter stands for. -/
def privacySalt (ticket : UInt64) : PrivacySalt := ⟨toBE 8 ticket.toNat, length_toBE ..⟩

theorem SaltCounter.salt_eq (salt : SaltCounter) : salt.salt = privacySalt salt.current := rfl

namespace V3Params
variable (crypto : Crypto) (p : V3Params) (rawPduBytes : Bytes)

/-- `encode_v3_envelope` up to the salt. -/
def prepare : Res EncodeError PreparedMessage := do
  let berBoots ← .okOr ⟨s!"engine_boots {p.engineBoots} exceeds maximum BER INTEGER value for i32"⟩
    (i32TryFrom p.engineBoots)
  let berTime ← .okOr ⟨s!"engine_time {p.engineTime} exceeds maximum BER INTEGER value for i32"⟩
    (i32TryFrom p.engineTime)
  let scopedPduBytes ← Ber.encodeScopedPdu p.engineId p.contextName rawPduBytes
  let securityFlags ← flagsByte p.auth.isSome p.privacy.isSome
  .ok { berBoots, berTime, scopedPduBytes, securityFlags }

/-- The initialisation vector with this salt. -/
def ivWith (salt : PrivacySalt) : Octets 16 := aesIv p.engineBoots p.engineTime salt

/-- `encode_v3_envelope` from the salt on. -/
def encryptAndFinish (privacy : PrivProtocol × Bytes) (prepared : PreparedMessage)
    (salt : PrivacySalt) : Res EncodeError Bytes := do
  let encrypted := privacy.1.encrypt crypto (p.ivWith salt) privacy.2 prepared.scopedPduBytes
  let ciphertext ← encrypted.mapErr fun e =>
    let text := e.message
    ⟨s!"AES encryption failed: {text}"⟩
  let (encodedMessage, authParamsOffset) ← (Ber.encodeV3Message
    { msgId := p.msgId, maxSize := msgMaxSizeUdp, securityFlags := prepared.securityFlags,
      securityModel := 3 }
    { engineId := p.engineId, engineBoots := prepared.berBoots, engineTime := prepared.berTime,
      userName := p.userName, authParams := authPlaceholder p.auth, privParams := salt.val }
    ciphertext true).mapErr (.ofBer "BER encoding of SNMPv3 Message")
  signMessage crypto p.auth encodedMessage authParamsOffset

/-- The encoder takes one salt, and nothing else of it depends on the counter. -/
theorem run_encodeV3Envelope {privacy : PrivProtocol × Bytes} (h : p.privacy = some privacy)
    (salt : SaltCounter) :
    (encodeV3Envelope crypto p rawPduBytes).run salt =
      ((p.prepare rawPduBytes).mapErr (·, salt)) >>= fun prepared =>
        ((p.encryptAndFinish crypto privacy prepared salt.salt).mapErr (·, salt.next)) >>=
          fun bytes => .ok (bytes, salt.next) := by
  obtain ⟨protocol, key⟩ := privacy
  simp only [encodeV3Envelope, prepare, StateT.run_bind, Act.run_lift, h]
  cases i32TryFrom p.engineBoots with
  | none => rfl
  | some berBoots =>
  cases i32TryFrom p.engineTime with
  | none => rfl
  | some berTime =>
  cases (Ber.encodeScopedPdu p.engineId p.contextName rawPduBytes : Res EncodeError Bytes) with
  | err e => rfl
  | panic => rfl
  | ok scopedPduBytes =>
  cases flagsByte p.auth.isSome (some (protocol, key)).isSome with
  | err e => rfl
  | panic => rfl
  | ok securityFlags =>
  simp only [Res.okOr_some, Res.mapErr_ok, Res.ok_bind, encryptAndFinish, protectScopedPdu,
    nextPrivacySalt, StateT.run_bind, StateT.run_get, Act.run_lift, ivWith, SaltCounter.salt_eq,
    StateT.run_modify, StateT.run_pure, Res.pure_eq, Res.ok_bind]
  cases protocol.encrypt crypto (aesIv p.engineBoots p.engineTime (privacySalt salt.current)) key
    scopedPduBytes with
  | err e => rfl
  | panic => rfl
  | ok ciphertext =>
  simp only [Res.mapErr_ok, Res.ok_bind]
  cases Ber.encodeV3Message ⟨p.msgId, msgMaxSizeUdp, securityFlags, 3⟩
    ⟨p.engineId, berBoots, berTime, p.userName, authPlaceholder p.auth,
      (privacySalt salt.current).val⟩
    ciphertext true with
  | err e => rfl
  | panic => rfl
  | ok message => rfl

end V3Params

/-! ## A process -/

/-- A call of `encode_v3_envelope` by the event loop or by a thread that sends a trap. -/
inductive Call where
  | response (engineTime : UInt32) (msgId : Int32) (userName contextName rawPduBytes : Bytes)
  | trap (engineTime : UInt32) (msgId : Int32) (rawPduBytes : Bytes)

namespace Call

def rawPduBytes : Call → Bytes
  | response _ _ _ _ rawPduBytes => rawPduBytes
  | trap _ _ rawPduBytes => rawPduBytes

/-- The other arguments of the call. A trap without a user is not sent this way. -/
def params (loop : EventLoop) (sender : TrapSender) : Call → Option V3Params
  | response engineTime msgId userName contextName _ =>
    some (responseParams (loop.agent.atTime engineTime).ctx.inputs msgId userName contextName)
  | trap engineTime msgId _ => sender.usmUser.map (sender.params · msgId engineTime)

/-- The initialisation vector that the call hands to AES with this salt, if it comes to that. -/
def iv? (loop : EventLoop) (sender : TrapSender) (call : Call) (salt : PrivacySalt) :
    Option (Octets 16) := do
  let p ← call.params loop sender
  let _ ← p.privacy
  let _ ← (p.prepare call.rawPduBytes).ok?
  return p.ivWith salt

/-- The call is a run of `encode_v3_envelope` on this salt counter that hands this vector to AES. -/
def Encrypts (crypto : Crypto) (loop : EventLoop) (sender : TrapSender) (call : Call)
    (salt : SaltCounter) (iv : Octets 16) : Prop :=
  ∃ p privacy prepared, call.params loop sender = some p ∧ p.privacy = some privacy ∧
    p.prepare call.rawPduBytes = .ok prepared ∧ iv = p.ivWith salt.salt ∧
    (nextPrivacySalt : Act SaltCounter EncodeError PrivacySalt).run salt =
      .ok (salt.salt, salt.next) ∧
    (encodeV3Envelope crypto p call.rawPduBytes).run salt =
      ((p.encryptAndFinish crypto privacy prepared salt.salt).mapErr (·, salt.next)) >>=
        fun bytes => .ok (bytes, salt.next)

theorem iv?_eq_some_iff_encrypts (crypto : Crypto) {loop : EventLoop} {sender : TrapSender}
    {call : Call} {salt : SaltCounter} {iv : Octets 16} :
    call.iv? loop sender salt.salt = some iv ↔ call.Encrypts crypto loop sender salt iv := by
  simp only [iv?, Option.bind_eq_bind, Option.bind_eq_some_iff, Option.pure_def, Option.some.injEq,
    Res.ok?_eq_some]
  constructor
  · rintro ⟨p, hp, privacy, hprivacy, prepared, hprepared, rfl⟩
    refine ⟨p, privacy, prepared, hp, hprivacy, hprepared, rfl, rfl, ?_⟩
    rw [p.run_encodeV3Envelope crypto call.rawPduBytes hprivacy, hprepared, Res.mapErr_ok,
      Res.ok_bind]
  · rintro ⟨p, privacy, prepared, hp, hprivacy, hprepared, rfl, -⟩
    exact ⟨p, hp, privacy, hprivacy, prepared, hprepared, rfl⟩

end Call

section
variable {T : Type} [DecidableEq T]

def SaltCounter.seed (salt : SaltCounter) : UInt64 := salt.randomU64 ||| 1

/-- The calls of a process with their tickets, from a state of the salt counter in which no thread
is encrypting. -/
def encryptions (salt : SaltCounter) (schedule : List (Tickets.Step T Call)) :
    List (Call × UInt64) :=
  (Tickets.run salt.seed schedule ⟨salt.counter, fun _ => .idle, []⟩).used

/-- The salts that one thread would take one after the other. -/
theorem SaltCounter.current_iterate_next (salt : SaltCounter) (i : Nat) :
    (next^[i] salt).current = Tickets.ticket salt.current i := by
  induction i with
  | zero => exact (UInt64.add_zero _).symm
  | succ i ih =>
    rw [Function.iterate_succ_apply', ← Tickets.ticket_succ, ← ih]
    rfl

/-- In whatever order the threads come to the counter, a call finds it as after some number of
calls of `next_privacy_salt`. -/
theorem exists_current_of_mem_encryptions {salt : SaltCounter}
    {schedule : List (Tickets.Step T Call)}
    (hschedule : schedule.countP Tickets.Step.isFetchAdd ≤ 2 ^ 64) {x : Call × UInt64}
    (hx : x ∈ encryptions salt schedule) : ∃ i, x.2 = (SaltCounter.next^[i] salt).current := by
  obtain ⟨i, hi⟩ := Tickets.exists_ticket_of_mem_run salt.seed salt.counter hschedule hx
  exact ⟨i, hi.trans (salt.current_iterate_next i).symm⟩

theorem privacySalt_injective : Function.Injective privacySalt := by
  intro x y h
  have h := congrArg (fun salt : PrivacySalt => fromBE salt.val) h
  simp only [privacySalt] at h
  rw [fromBE_toBE_of_lt x.toNat_lt, fromBE_toBE_of_lt y.toNat_lt] at h
  exact UInt64.toNat_inj.mp h

theorem aesIv_inj {boots time boots' time' : UInt32} {salt salt' : PrivacySalt}
    (h : aesIv boots time salt = aesIv boots' time' salt') : boots = boots' ∧ salt = salt' := by
  have h := congrArg Subtype.val h
  simp only [aesIv, List.append_assoc] at h
  obtain ⟨hboots, h⟩ := List.append_inj h (by simp)
  obtain ⟨-, hsalt⟩ := List.append_inj h (by simp)
  have hboots := congrArg fromBE hboots
  rw [fromBE_toBE_of_lt boots.toNat_lt, fromBE_toBE_of_lt boots'.toNat_lt] at hboots
  exact ⟨UInt32.toNat_inj.mp hboots, Subtype.ext hsalt⟩

/-- All messages of a process carry its boots value. -/
theorem Call.iv?_eq {loop : EventLoop} {sender : TrapSender}
    (hboots : loop.agent.ctx.inputs.engineBoots = sender.engineBoots) {call : Call}
    {salt : PrivacySalt} {iv : Octets 16} (h : call.iv? loop sender salt = some iv) :
    ∃ time, iv = aesIv sender.engineBoots time salt := by
  simp only [Call.iv?, Option.bind_eq_bind, Option.bind_eq_some_iff, Option.pure_def,
    Option.some.injEq] at h
  obtain ⟨p, hp, -, -, -, -, rfl⟩ := h
  cases call with
  | response engineTime msgId userName contextName rawPduBytes =>
    cases hp
    exact ⟨engineTime, congrArg (aesIv · engineTime salt) hboots⟩
  | trap engineTime msgId rawPduBytes =>
    obtain ⟨user, -, rfl⟩ := Option.map_eq_some_iff.mp hp
    exact ⟨engineTime, rfl⟩

theorem exists_aesIv {loop : EventLoop} {sender : TrapSender}
    (hboots : loop.agent.ctx.inputs.engineBoots = sender.engineBoots) {xs : List (Call × UInt64)}
    {iv : Octets 16} (h : iv ∈ xs.filterMap fun x => x.1.iv? loop sender (privacySalt x.2)) :
    ∃ time salt, iv = aesIv sender.engineBoots time salt := by
  obtain ⟨x, -, hx⟩ := List.mem_filterMap.mp h
  obtain ⟨time, heq⟩ := Call.iv?_eq hboots hx
  exact ⟨time, _, heq⟩

/-- Within one process no two messages are encrypted under the same vector. -/
theorem nodup_ivs {loop : EventLoop} {sender : TrapSender}
    (hboots : loop.agent.ctx.inputs.engineBoots = sender.engineBoots) (salt : SaltCounter)
    {schedule : List (Tickets.Step T Call)}
    (hschedule : schedule.countP Tickets.Step.isFetchAdd ≤ 2 ^ 64) :
    ((encryptions salt schedule).filterMap fun x =>
      x.1.iv? loop sender (privacySalt x.2)).Nodup := by
  have htickets := Tickets.nodup_run salt.seed salt.counter schedule hschedule
  rw [List.Nodup, List.pairwise_map] at htickets
  refine List.pairwise_filterMap.mpr (htickets.imp ?_)
  intro x y hne iv hx iv' hy heq
  obtain ⟨time, rfl⟩ := Call.iv?_eq hboots hx
  obtain ⟨time', rfl⟩ := Call.iv?_eq hboots hy
  exact hne (privacySalt_injective (aesIv_inj heq).2)

end

/-! ## Restarts -/

/-- A configuration with privacy. -/
structure PrivateConfig where
  engineId : EngineId
  user : UsmUser
  level : user.securityLevel = .authPriv
  maxConnections : Nat
  timeoutConfig : ConnectionTimeoutConfig

/-- One start-up: the store that it brings, the call that the operating system refuses if any, the
salt counter of the process, and what the threads do from then on. -/
structure Life (σ ε T : Type) where
  store : EngineBootsStore σ ε
  os : Option (AgentError ε)
  salt : SaltCounter
  schedule : List (Tickets.Step T Call)

section
variable {σ ε T : Type} [DecidableEq T]

def PrivateConfig.builder (config : PrivateConfig) (store : EngineBootsStore σ ε) :
    AgentBuilder σ ε where
  engineId := config.engineId
  security := .authPriv config.user config.level store
  maxConnections := config.maxConnections
  timeoutConfig := config.timeoutConfig

/-- The vectors of all start-ups. -/
def PrivateConfig.ivs (config : PrivateConfig) : List (Life σ ε T) → σ → List (Octets 16)
  | [], _ => []
  | life :: lives, s =>
    match ((config.builder life.store).build life.salt life.os).run s with
    | .ok ((loop, sender), s) =>
      (encryptions life.salt life.schedule).filterMap
          (fun x => x.1.iv? loop sender (privacySalt x.2)) ++ config.ivs lives s
    | .err (_, s) => config.ivs lives s
    | .panic => config.ivs lives s

variable {contents : σ → Contents} {config : PrivateConfig} {lives : List (Life σ ε T)}

/-- Later start-ups use later boots values. -/
theorem PrivateConfig.nodup_ivs_since
    (hfaithful : ∀ life ∈ lives, life.store.Faithful config.engineId.bytes contents)
    (hschedule : ∀ life ∈ lives, life.schedule.countP Tickets.Step.isFetchAdd ≤ 2 ^ 64) {n : Nat}
    {s : σ} (H : Since contents config.engineId.bytes n s) :
    (config.ivs lives s).Nodup ∧ ∀ iv ∈ config.ivs lives s,
      ∃ boots time salt, iv = aesIv boots time salt ∧ n < boots.toNat := by
  induction lives generalizing n s with
  | nil => exact ⟨List.nodup_nil, nofun⟩
  | cons life lives ih =>
    have ih' := fun {m s} => @ih (fun l hl => hfaithful l (List.mem_cons_of_mem _ hl))
      (fun l hl => hschedule l (List.mem_cons_of_mem _ hl)) m s
    have hstep := fun {r s'} => @startUp_since σ ε config.engineId.bytes life.store contents s s' r
      (hfaithful life List.mem_cons_self) n H
    have hstore : (config.builder life.store).security.bootsStore = some life.store := rfl
    rw [PrivateConfig.ivs]
    cases hbuild : ((config.builder life.store).build life.salt life.os).run s with
    | panic => exact ih' H
    | err r =>
      obtain ⟨e, s'⟩ := r
      obtain ⟨boots?, hup⟩ := AgentBuilder.build_err hstore hbuild
      exact ih' (hstep hup).2
    | ok r =>
      obtain ⟨⟨loop, sender⟩, s'⟩ := r
      obtain ⟨hup, hboots⟩ := AgentBuilder.build_ok hstore hbuild
      obtain ⟨hlt, -, hsince⟩ := (hstep hup).1 sender.engineBoots rfl
      obtain ⟨hnodup, hlater⟩ := ih' hsince
      constructor
      · refine List.nodup_append.mpr
          ⟨nodup_ivs hboots life.salt (hschedule life List.mem_cons_self), hnodup, ?_⟩
        intro iv hiv iv' hiv' heq
        obtain ⟨time, salt, rfl⟩ := exists_aesIv hboots hiv
        obtain ⟨boots, time', salt', rfl, hgt⟩ := hlater iv' hiv'
        rw [(aesIv_inj heq).1] at hgt
        omega
      · intro iv hiv
        rcases List.mem_append.mp hiv with hiv | hiv
        · obtain ⟨time, salt, rfl⟩ := exists_aesIv hboots hiv
          exact ⟨_, _, _, rfl, hlt⟩
        · obtain ⟨boots, time, salt, rfl, hgt⟩ := hlater iv hiv
          exact ⟨_, _, _, rfl, by omega⟩

/-- **Initialisation vectors never repeat** in all start-ups of one configuration, whatever their
salts, clocks and threads do, as long as no start-up encrypts 2^64 messages. They are the vectors of
the encoder: each message that a thread encrypts is what `encode_v3_envelope` makes of the salt
counter after some number of calls of `next_privacy_salt`. -/
theorem PrivateConfig.ivs_never_repeat (config : PrivateConfig) (crypto : Crypto)
    (contents : σ → Contents) (lives : List (Life σ ε T))
    (hfaithful : ∀ life ∈ lives, life.store.Faithful config.engineId.bytes contents)
    (hschedule : ∀ life ∈ lives, life.schedule.countP Tickets.Step.isFetchAdd < 2 ^ 64) (s : σ) :
    (config.ivs lives s).Nodup ∧
    ∀ life ∈ lives, ∀ x ∈ encryptions life.salt life.schedule, ∃ i,
      x.2 = (SaltCounter.next^[i] life.salt).current ∧
      ∀ loop sender iv, x.1.iv? loop sender (privacySalt x.2) = some iv ↔
        x.1.Encrypts crypto loop sender (SaltCounter.next^[i] life.salt) iv := by
  have hle : ∀ life ∈ lives, life.schedule.countP Tickets.Step.isFetchAdd ≤ 2 ^ 64 :=
    fun life hlife => (hschedule life hlife).le
  have hzero : Since contents config.engineId.bytes 0 s := .inl rfl
  refine ⟨(nodup_ivs_since hfaithful hle hzero).1, fun life hlife x hx => ?_⟩
  obtain ⟨i, hi⟩ := exists_current_of_mem_encryptions (hle life hlife) hx
  refine ⟨i, hi, fun loop sender iv => ?_⟩
  rw [hi]
  exact Call.iv?_eq_some_iff_encrypts crypto

end

namespace Sample

theorem faithful_memStore (engineId : Bytes) : memStore.Faithful engineId .holds where
  load_ok h := by
    cases h
    exact ⟨rfl, rfl⟩
  load_err h := by cases h
  save_ok h := by
    cases h
    rfl
  save_err h := by cases h

def privateConfig : PrivateConfig where
  engineId := ⟨engineId, by decide, by decide⟩
  user := privUser
  level := rfl
  maxConnections := 64
  timeoutConfig := {}

/-- A response and a trap at the same time. -/
def life : Life (Option StoredBootsState) Empty Bool where
  store := memStore
  os := none
  salt := agentSalt
  schedule := [.enter false (.response 1000 7 userName [] []), .enter true (.trap 1000 8 []),
    .callOnce true, .callOnce false, .fetchAdd false, .fetchAdd true, .use true, .use false]

end Sample

/-- Two start-ups with the same seed and at the same engine time. -/
theorem PrivateConfig.ivs_never_repeat_sample :
    (Sample.privateConfig.ivs [Sample.life, Sample.life] none).length = 4 ∧
      (Sample.privateConfig.ivs [Sample.life, Sample.life] none).Nodup := by
  have hlives : ∀ life ∈ [Sample.life, Sample.life], life = Sample.life := by simp
  refine ⟨by decide +kernel,
    (Sample.privateConfig.ivs_never_repeat Sample.crypto .holds _ ?_ ?_ none).1⟩
  · intro life hlife
    rw [hlives life hlife]
    exact Sample.faithful_memStore _
  · intro life hlife
    rw [hlives life hlife]
    decide

end SnmpAgent
