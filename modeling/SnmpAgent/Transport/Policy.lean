import SnmpAgent.Transport.Accounting

/-!
# Where the checks and the policy part

Three rules that the pipeline follows for some configurations and frames only. The level of a
request is read from its flags, while the protection of the answer, and whether the request is
authenticated at all, follow from the credentials of the configured user. The authoritative engine
of a message in clear is read, and only its absence is noticed. Each result says when the rule is
kept.
-/

namespace SnmpAgent
open Rust

/-! ## The level of a response -/

section
variable {crypto : Crypto} {p : V3Params} {salt : SaltCounter} {rawPdu bytes : Bytes}

/-- What the envelope of a sealed message shows of its credentials. -/
theorem V3Params.Sealed.protection (H : p.Sealed crypto salt rawPdu bytes) (hs : p.Sendable) :
    ∃ env, Ber.decodeV3Envelope bytes = .ok env ∧
      ((MsgFlags.mk env.securityFlags).isAuth ↔ p.auth.isSome) ∧
      ((MsgFlags.mk env.securityFlags).isPriv ↔ p.privacy.isSome) ∧
      (env.usm.authParams ≠ [] ↔ p.auth.isSome) ∧
      env.scopedData.isEncrypted = p.privacy.isSome := by
  obtain ⟨pre, post, -, -, henv⟩ := H
  refine ⟨_, decodeV3Envelope_eq_ok.mpr henv, ?_, ?_, ?_, ?_⟩
  · change (MsgFlags.mk p.securityFlags).isAuth ↔ _
    have := hs.auth_of_privacy
    unfold V3Params.securityFlags
    cases hA : p.auth.isSome <;> cases hP : p.privacy.isSome <;> simp_all <;> decide
  · change (MsgFlags.mk p.securityFlags).isPriv ↔ _
    unfold V3Params.securityFlags
    cases hA : p.auth.isSome <;> cases hP : p.privacy.isSome <;> simp <;> decide
  · change p.authParams crypto salt rawPdu ≠ [] ↔ _
    rw [← List.length_pos_iff, V3Params.length_authParams]
    rcases p.auth with _ | ⟨protocol, key⟩
    · simp [authPlaceholder]
    · simpa [authPlaceholder] using protocol.macLen_pos
  · change (p.scopedData crypto salt rawPdu).isEncrypted = _
    rcases h : p.privacy with _ | ⟨protocol, key⟩ <;>
      simp [V3Params.scopedData, h, ScopedData.isEncrypted]

end

namespace Sample

def encryptedResponseFrame : Bytes :=
  encryptedResponse responseKeystream (encryptedResponseTag.val.take 24)

end Sample

/-- The stages before this one. -/
def Stage.before (stage : Stage) : List Stage := Stage.all.takeWhile (· ≠ stage)

section
variable {crypto : Crypto} {inputs : DispatchInputs} {frame : Bytes} {msg : V3InboundMessage}

/-- A message that does not pass a stage fails there or before. -/
theorem firstFailing_of_fails (stage : Stage) (hmsg : decodeV3Message frame = .ok msg)
    (hfail : stage.passes crypto inputs msg = false) :
    ∃ stage', firstFailing crypto inputs frame = some stage' ∧
      (stage' = stage ∨ stage' ∈ stage.before) := by
  obtain ⟨rest, hall⟩ : ∃ rest, Stage.all = stage.before ++ stage :: rest := by
    cases stage <;> exact ⟨_, rfl⟩
  simp only [firstFailing, hmsg]
  rw [hall, List.find?_append, List.find?_cons_of_pos (by simpa using hfail)]
  cases h : stage.before.find? fun stage => !stage.passes crypto inputs msg with
  | none => exact ⟨stage, rfl, .inl rfl⟩
  | some stage' => exact ⟨stage', rfl, .inr (List.mem_of_find?_eq_some h)⟩

theorem fails_of_firstFailing {stage : Stage} (hmsg : decodeV3Message frame = .ok msg)
    (h : firstFailing crypto inputs frame = some stage) :
    stage.passes crypto inputs msg = false := by
  simp only [firstFailing, hmsg] at h
  simpa using List.find?_some h

end

/-! ## Unauthenticated requests -/

/-- The message says that it is not authenticated, and it passes the checks that do not depend on
its level. -/
structure ClaimsNoAuth (inputs : DispatchInputs) (frame : Bytes) (msg : V3InboundMessage) :
    Prop where
  decodes : decodeV3Message frame = .ok msg
  level : msg.usm.securityFlags.securityLevel = .ok .noAuthNoPriv
  passes : ∀ crypto, ∀ stage ∈ [Stage.securityModel, .engineId, .userName, .privFlag],
    stage.passes crypto inputs msg = true

/-- The two frames differ in their authentication parameters, boots and times only. -/
def SameButAuthentication (frame frame' : Bytes) : Prop :=
  ∃ env authParams engineBoots engineTime authParamsOffset, Ber.decodeV3Envelope frame = .ok env ∧
    Ber.decodeV3Envelope frame' = .ok { env with
      usm := { env.usm with authParams, engineBoots, engineTime }
      authParamsOffset }

/-- The frame is handled as one that is not to be authenticated. -/
structure NotAuthenticated (ctx : DispatchContext) (frame : Bytes) (msg : V3InboundMessage) :
    Prop where
  unchecked : ∀ crypto, firstFailing crypto ctx.inputs frame ≠ some .digest ∧
    firstFailing crypto ctx.inputs frame ≠ some .timeWindow
  counters : ∀ crypto mib salt out agent',
    processSnmpv3Request crypto frame mib ⟨ctx, salt⟩ = .ok (out, agent') →
    agent'.ctx.inputs.wrongDigestsCounter = ctx.inputs.wrongDigestsCounter ∧
      agent'.ctx.inputs.notInTimeWindowsCounter = ctx.inputs.notInTimeWindowsCounter
  dispatched : msg.contextName = [] → ∃ pdu, msg.scopedData = .plaintext pdu ∧ ∀ crypto mib salt,
    (runValidationPipeline crypto frame mib).run ⟨ctx, salt⟩ =
      (answer crypto mib msg (pdu, [])).run ⟨ctx, salt⟩
  independent : ∀ frame', SameButAuthentication frame frame' → ∀ crypto crypto' mib salt,
    processSnmpv3Request crypto' frame' mib ⟨ctx, salt⟩ =
      processSnmpv3Request crypto frame mib ⟨ctx, salt⟩

section
variable {crypto crypto' : Crypto} {inputs : DispatchInputs} {frame frame' : Bytes}
  {msg msg' : V3InboundMessage}

/-- Without credentials nothing of a message depends on the primitives. -/
theorem encodeV3Envelope_congr {p : V3Params} (hauth : p.auth = none) (hprivacy : p.privacy = none)
    (rawPdu : Bytes) : encodeV3Envelope crypto p rawPdu = encodeV3Envelope crypto' p rawPdu := by
  simp only [encodeV3Envelope, hauth, hprivacy, protectScopedPdu, signMessage]

theorem auth_eq_none : inputs.usmUser.bind UsmUser.auth = none ↔
    ∀ user ∈ inputs.usmUser, user.authCredentials = none := by
  cases inputs.usmUser <;> simp [UsmUser.auth_eq]

theorem privacy_eq_none (hauth : ∀ user ∈ inputs.usmUser, user.authCredentials = none) :
    inputs.usmUser.bind UsmUser.privacy = none := by
  rcases h : inputs.usmUser with _ | user
  · rfl
  · have hnone := hauth user h
    rw [Option.bind_some, UsmUser.privacy_eq, Option.map_eq_none_iff,
      ← Option.not_isSome_iff_eq_none]
    intro hpriv
    have := user.auth_of_priv hpriv
    rw [hnone] at this
    cases this

/-- Without credentials only the context name is left to be checked. -/
theorem ClaimsNoAuth.admission_eq (H : ClaimsNoAuth inputs frame msg)
    (hfloor : inputs.minimumSecurityLevel = .noAuthNoPriv)
    (hauth : ∀ user ∈ inputs.usmUser, user.authCredentials = none) :
    ∃ pdu, msg.scopedData = .plaintext pdu ∧ ∀ crypto, admission crypto inputs msg =
      if msg.contextName = [] then .ok (pdu, []) else .err .contextName := by
  have hlevel : inputs.shouldRejectSecurityLevel msg.usm.securityFlags.securityLevel = false :=
    shouldRejectSecurityLevel_eq_false.mpr
      ⟨_, H.level, hfloor ▸ le_refl _, SecurityLevel.noAuthNoPriv_le _⟩
  have hdigest (crypto : Crypto) : inputs.digestValid crypto msg = true := by
    rw [DispatchInputs.digestValid, auth_eq_none.mpr hauth]
  have htimely : inputs.timely msg = true := by
    have hnone : inputs.usmUser.bind UsmUser.authProtocol = none := by
      rcases h : inputs.usmUser with _ | user
      · rfl
      · simp [UsmUser.authProtocol, hauth user h]
    rw [DispatchInputs.timely, hnone]
  have hpasses (crypto : Crypto) := H.passes crypto
  simp only [List.forall_mem_cons, List.not_mem_nil, false_imp_iff, implies_true, and_true,
    Stage.passes, Bool.and_eq_true, Bool.not_eq_true', decide_eq_true_eq] at hpasses
  have hpriv : msg.usm.securityFlags.isPriv = false := by
    rw [← Bool.not_eq_true, (MsgFlags.securityLevel_eq_ok.mp H.level).2]
    decide
  cases hdata : msg.scopedData with
  | encrypted ciphertext =>
    have h := (hpasses (Crypto.tabulated [] [])).2.2.2
    rw [hpriv, hdata] at h
    cases h
  | plaintext pdu =>
    refine ⟨pdu, rfl, fun crypto => ?_⟩
    obtain ⟨husm, ⟨hne, hid⟩, hname, hflag⟩ := hpasses crypto
    by_cases hctx : msg.contextName = [] <;>
      simp [admission, ensure, husm, hne, hid, hname, hlevel, hflag, hdigest crypto, htimely, hctx,
        DispatchInputs.opened, hdata]

theorem ClaimsNoAuth.firstFailing_eq (H : ClaimsNoAuth inputs frame msg)
    (hfloor : inputs.minimumSecurityLevel = .noAuthNoPriv)
    (hauth : ∀ user ∈ inputs.usmUser, user.authCredentials = none) (crypto : Crypto) :
    firstFailing crypto inputs frame = if msg.contextName =
      [] then none else some .contextName := by
  obtain ⟨pdu, -, hadm⟩ := H.admission_eq hfloor hauth
  by_cases hctx : msg.contextName = []
  · rw [if_pos hctx]
    exact firstFailing_eq_none.mpr
      ⟨msg, _, H.decodes, (hadm crypto).trans (if_pos hctx)⟩
  · rw [if_neg hctx]
    exact (firstFailing_of_admission_err H.decodes
      ((hadm crypto).trans (if_neg hctx))).1

theorem ClaimsNoAuth.congr (H : ClaimsNoAuth inputs frame msg)
    (hdecode : decodeV3Message frame' = .ok msg')
    (hauthId : msg'.usm.authEngineId = msg.usm.authEngineId)
    (hflags : msg'.usm.securityFlags = msg.usm.securityFlags)
    (hmodel : msg'.securityModel = msg.securityModel) (hid : msg'.engineId = msg.engineId)
    (hname : msg'.userName = msg.userName) (hdata : msg'.scopedData = msg.scopedData) :
    ClaimsNoAuth inputs frame' msg' := by
  refine ⟨hdecode, hflags ▸ H.level, fun crypto stage hstage => ?_⟩
  rw [← H.passes crypto stage hstage]
  simp only [List.mem_cons, List.not_mem_nil, or_false] at hstage
  rcases hstage with rfl | rfl | rfl | rfl <;>
    simp only [Stage.passes, DispatchInputs.nameMatches, hauthId, hflags, hmodel, hid, hname, hdata]

-- The kernel must not compare whole parameter records: that unfolds the words of boots and time.
theorem authEngineId_ofWire (usm : UsmFields) (flags : UInt8) :
    (UsmSecurityFields.ofWire usm flags).authEngineId = usm.engineId := rfl

theorem securityFlags_ofWire (usm : UsmFields) (flags : UInt8) :
    (UsmSecurityFields.ofWire usm flags).securityFlags = ⟨flags⟩ := rfl

/-- The message in a frame that differs in its authentication only. -/
theorem ClaimsNoAuth.variant (H : ClaimsNoAuth inputs frame msg)
    (h : SameButAuthentication frame frame') : ∃ msg', ClaimsNoAuth inputs frame' msg' ∧
      msg'.msgId = msg.msgId ∧ msg'.maxSize = msg.maxSize ∧ msg'.userName = msg.userName ∧
      msg'.contextName = msg.contextName ∧ msg'.scopedData = msg.scopedData := by
  obtain ⟨env, a, b, t, o, henv, henv'⟩ := h
  obtain ⟨env₀, engineId, contextName, scopedData, henv₀, hdata, rfl⟩ :=
    decodeV3Message_eq_ok.mp H.decodes
  obtain rfl := Res.ok.inj (henv.symm.trans (decodeV3Envelope_eq_ok.mpr henv₀))
  have hdecode := decodeV3Message_eq_ok.mpr ⟨_, engineId, contextName, scopedData,
    decodeV3Envelope_eq_ok.mp henv', hdata, rfl⟩
  refine ⟨_, H.congr hdecode ?_ ?_ rfl rfl rfl rfl, rfl, rfl, rfl, rfl, rfl⟩
  · simp only [authEngineId_ofWire]
  · simp only [securityFlags_ofWire]

/-- The outcome of a message without credentials, in terms of what it asks for. -/
theorem ClaimsNoAuth.process_eq (H : ClaimsNoAuth inputs frame msg) {pdu : InboundPdu}
    (hfloor : inputs.minimumSecurityLevel = .noAuthNoPriv)
    (hauth : ∀ user ∈ inputs.usmUser, user.authCredentials = none)
    (hdata : msg.scopedData = .plaintext pdu) (mib : Store) (salt : SaltCounter) :
    processSnmpv3Request crypto frame mib ⟨⟨inputs⟩, salt⟩ =
      if msg.contextName = [] then
        match (⟨⟨inputs⟩, salt⟩ : Agent).respond crypto mib msg pdu [] with
        | .panic => .panic
        | .err (_, salt) => .ok (none, ⟨⟨inputs⟩, salt⟩)
        | .ok (bytes, salt) => .ok (some bytes, ⟨⟨inputs⟩, salt⟩)
      else .ok (none, ⟨⟨inputs⟩, salt⟩) := by
  obtain ⟨pdu', hdata', hadm⟩ := H.admission_eq hfloor hauth
  cases hdata.symm.trans hdata'
  by_cases hctx : msg.contextName = []
  · have hok : admission crypto (Agent.mk ⟨inputs⟩ salt).ctx.inputs msg = .ok (pdu, []) :=
      (hadm crypto).trans (if_pos hctx)
    rw [if_pos hctx]
    refine Eq.trans (processSnmpv3Request_admitted H.decodes hok) ?_
    cases Agent.respond crypto ⟨⟨inputs⟩, salt⟩ mib msg pdu [] <;> rfl
  · have hrejected : admission crypto (Agent.mk ⟨inputs⟩ salt).ctx.inputs msg = .err .contextName :=
      (hadm crypto).trans (if_neg hctx)
    rw [if_neg hctx, processSnmpv3Request_eq_reject H.decodes hrejected]
    rfl

theorem ClaimsNoAuth.notAuthenticated (H : ClaimsNoAuth inputs frame msg)
    (hfloor : inputs.minimumSecurityLevel = .noAuthNoPriv)
    (hauth : ∀ user ∈ inputs.usmUser, user.authCredentials = none) :
    NotAuthenticated ⟨inputs⟩ frame msg := by
  have hfirst := H.firstFailing_eq hfloor hauth
  obtain ⟨pdu, hdata, hadm⟩ := H.admission_eq hfloor hauth
  refine ⟨fun crypto => ?_, fun crypto mib salt out agent' h => ?_, fun hctx => ⟨pdu, hdata, ?_⟩,
    ?_⟩
  · rw [hfirst crypto]
    split <;> simp
  · have hinputs := processSnmpv3Request_inputs h
    have hcounted : countedBy crypto inputs frame = none := by
      rw [countedBy, hfirst crypto]
      split <;> rfl
    rw [hcounted] at hinputs
    rw [hinputs]
    exact ⟨rfl, rfl⟩
  · intro crypto mib salt
    have hval : (validate crypto msg).run ⟨⟨inputs⟩, salt⟩ = _ := decides_validate
    rw [(hadm crypto).trans (if_pos hctx)] at hval
    rw [runValidationPipeline_eq H.decodes, StateT.run_bind, hval, Res.ok_bind]
  · intro frame' h crypto crypto' mib salt
    obtain ⟨msg', H', hid, hsize, hname, hctx, hscoped⟩ := H.variant h
    have hrespond : (⟨⟨inputs⟩, salt⟩ : Agent).respond crypto' mib msg' pdu [] =
        (⟨⟨inputs⟩, salt⟩ : Agent).respond crypto mib msg pdu [] := by
      simp only [Agent.respond, run_encodeV3Response (errorIndex_handleRequest ..), hid, hsize,
        hname]
      have hcongr (rawPdu : Bytes) :
          encodeV3Envelope crypto' (responseParams inputs msg.msgId msg.userName []) rawPdu =
            encodeV3Envelope crypto (responseParams inputs msg.msgId msg.userName []) rawPdu :=
        encodeV3Envelope_congr (auth_eq_none.mpr hauth) (privacy_eq_none hauth) rawPdu
      simp only [hcongr]
    rw [H.process_eq hfloor hauth hdata, H'.process_eq hfloor hauth (hscoped.trans hdata), hctx,
      hrespond]

/-- With credentials the digest is the first check that is left. -/
theorem ClaimsNoAuth.firstFailing_digest (H : ClaimsNoAuth inputs frame msg)
    (hfloor : inputs.minimumSecurityLevel = .noAuthNoPriv)
    (hfail : inputs.digestValid crypto msg = false) :
    firstFailing crypto inputs frame = some .digest := by
  obtain ⟨stage, h, rfl | hbefore⟩ := firstFailing_of_fails .digest H.decodes hfail
  · exact h
  · have hfails := fails_of_firstFailing H.decodes h
    have hpasses := H.passes crypto
    have hlevel : inputs.shouldRejectSecurityLevel msg.usm.securityFlags.securityLevel = false :=
      shouldRejectSecurityLevel_eq_false.mpr
        ⟨_, H.level, hfloor ▸ le_refl _, SecurityLevel.noAuthNoPriv_le _⟩
    have hpass : stage.passes crypto inputs msg = true := by
      have hmem : stage = .decoding ∨ stage = .securityLevel ∨
          stage ∈ [Stage.securityModel, .engineId, .userName, .privFlag] := by
        revert hbefore
        cases stage <;> decide
      rcases hmem with rfl | rfl | hmem
      · rfl
      · rw [Stage.passes, hlevel]
        rfl
      · exact hpasses stage hmem
    rw [hpass] at hfails
    cases hfails

end

/-- A hash that always returns the same byte. -/
def Crypto.constant (byte : UInt8) : Crypto where
  hmacSha256 _ _ := ⟨.replicate 32 byte, List.length_replicate⟩
  hmacSha512 _ _ := ⟨.replicate 64 byte, List.length_replicate⟩
  cfbEncrypt _ _ _ plaintext := ⟨plaintext, rfl⟩
  cfbDecrypt _ _ _ ciphertext := ⟨ciphertext, rfl⟩

theorem mac_constant (protocol : AuthProtocol) (byte : UInt8) (key message : Bytes) :
    protocol.mac (.constant byte) key message = .replicate protocol.macLen byte := by
  cases protocol <;> simp [AuthProtocol.mac, AuthProtocol.hmac, Crypto.constant,
    AuthProtocol.macLen]

/-- No frame has the right MAC for every hash. -/
theorem exists_digest_invalid {inputs : DispatchInputs} {frame : Bytes} {env : V3MessageEnvelope}
    {msg : V3InboundMessage} {user : UsmUser} {credentials : AuthCredentials}
    (M : IsInbound env frame msg) (huser : user ∈ inputs.usmUser)
    (hc : user.authCredentials = some credentials) :
    ∃ crypto, inputs.digestValid crypto msg = false := by
  by_contra hall
  have hmac (byte : UInt8) : env.usm.authParams = .replicate credentials.protocol.macLen byte := by
    have hvalid : inputs.digestValid (.constant byte) msg = true :=
      Bool.not_eq_false _ |>.mp fun h => hall ⟨_, h⟩
    obtain ⟨_, _, -, -, h⟩ := M.digestValid_iff.mp hvalid user huser credentials hc
    rw [h, mac_constant]
  have heq := (hmac 0).symm.trans (hmac 1)
  rcases List.replicate_right_inj'.mp heq with h | h
  · exact absurd h credentials.protocol.macLen_pos.ne'
  · exact absurd h (by decide)

/-- **Unauthenticated requests.** A request that says that it is not authenticated is handled as
such exactly if the configured user, if there is one, has no authentication credentials. -/
theorem not_authenticated_iff (inputs : DispatchInputs) (ctx : DispatchContext)
    (hctx : DispatchContext.new inputs = .ok ctx)
    (hfloor : inputs.minimumSecurityLevel = .noAuthNoPriv) (frame : Bytes) (msg : V3InboundMessage)
    (H : ClaimsNoAuth inputs frame msg) :
    NotAuthenticated ctx frame msg ↔ ∀ user ∈ inputs.usmUser, user.authCredentials = none := by
  obtain rfl := new_eq_ok hctx
  refine ⟨fun N user huser => ?_, H.notAuthenticated hfloor⟩
  by_contra hne
  obtain ⟨credentials, hc⟩ := Option.ne_none_iff_exists'.mp hne
  obtain ⟨env, M⟩ := isInbound_of_decode H.decodes
  obtain ⟨crypto, hinvalid⟩ := exists_digest_invalid M huser hc
  exact (N.unchecked crypto).1 (H.firstFailing_digest hfloor hinvalid)

namespace Sample

def plainMessage : V3InboundMessage where
  msgId := 7
  maxSize := msgMaxSizeUdp
  securityModel := .usm
  engineId := engineId
  contextName := []
  userName := userName
  scopedData := .plaintext request
  usm := ⟨engineId, 3, 1000, ⟨0x04⟩, none, none⟩
  rawMessage := plainFrame
  authParamsOffset := none

theorem claimsNoAuth_plainMessage {usmUser : Option UsmUser}
    (huser : ∀ user ∈ usmUser, user.name.asBytes = userName) :
    ClaimsNoAuth (inputs usmUser .noAuthNoPriv) plainFrame plainMessage := by
  refine ⟨by decide +kernel, rfl, fun crypto => ?_⟩
  have hname : (inputs usmUser .noAuthNoPriv).nameMatches plainMessage = true := by
    cases usmUser with
    | none => rfl
    | some user =>
      simpa [DispatchInputs.nameMatches, inputs, plainMessage] using (huser user rfl).symm
  simp only [List.forall_mem_cons, List.not_mem_nil, false_imp_iff, implies_true, and_true]
  exact ⟨rfl, rfl, hname, rfl⟩

end Sample

/-- Without a user. -/
theorem not_authenticated_iff_sample :
    ClaimsNoAuth (Sample.inputs none .noAuthNoPriv) Sample.plainFrame Sample.plainMessage ∧
    NotAuthenticated (Sample.agent none .noAuthNoPriv).ctx Sample.plainFrame
      Sample.plainMessage := by
  have H : ClaimsNoAuth (Sample.inputs none .noAuthNoPriv) Sample.plainFrame Sample.plainMessage :=
    Sample.claimsNoAuth_plainMessage nofun
  exact ⟨H, (not_authenticated_iff (Sample.inputs none .noAuthNoPriv)
    (Sample.agent none .noAuthNoPriv).ctx (by decide +kernel) rfl _ _ H).mpr nofun⟩

/-- A request that says that it is not authenticated, to a user who has credentials: it is counted
as one with a wrong digest. -/
theorem unauthenticated_request_counted :
    let agent := Sample.agent (some Sample.authUser) .noAuthNoPriv
    let agent' := agent.count .wrongDigests
    DispatchContext.new (Sample.inputs (some Sample.authUser) .noAuthNoPriv) = .ok agent.ctx ∧
    ClaimsNoAuth agent.ctx.inputs Sample.plainFrame Sample.plainMessage ∧
    processSnmpv3Request Sample.crypto Sample.plainFrame .new agent =
      .ok (some (reportBytes agent'.ctx.inputs 7 .wrongDigests), agent') ∧
    agent'.ctx.inputs.wrongDigestsCounter ≠ agent.ctx.inputs.wrongDigestsCounter ∧
    ¬ NotAuthenticated agent.ctx Sample.plainFrame Sample.plainMessage := by
  intro agent agent'
  have hprocess : processSnmpv3Request Sample.crypto Sample.plainFrame .new agent =
      .ok (some (reportBytes agent'.ctx.inputs 7 .wrongDigests), agent') := by
    decide +kernel
  have hcount : agent'.ctx.inputs.wrongDigestsCounter ≠ agent.ctx.inputs.wrongDigestsCounter := by
    decide
  refine ⟨by decide +kernel, Sample.claimsNoAuth_plainMessage ?_, hprocess, hcount, fun N => ?_⟩
  · rintro user ⟨⟩
    rfl
  · exact hcount (N.counters _ _ _ _ _ hprocess).1

/-! ## Addressees -/

/-- The context engine of the payload, as far as the agent can see it. -/
def V3MessageEnvelope.HasContextEngineId (crypto : Crypto) (usmUser : Option UsmUser)
    (env : V3MessageEnvelope) (contextEngineId : Bytes) : Prop :=
  match env.scopedData with
  | .plaintext id _ _ => id = contextEngineId
  | .encrypted _ => ∃ scoped_, env.Carries crypto usmUser scoped_ ∧
      scoped_.contextEngineId = contextEngineId

/-- The frame is counted as one for another engine at this stage, or it fails before. -/
def UnknownEngine (crypto : Crypto) (agent : Agent) (mib : Store) (frame : Bytes) (stage : Stage) :
    Prop :=
  ∃ stage', firstFailing crypto agent.ctx.inputs frame = some stage' ∧
    (stage' = stage ∧ (∀ out agent', processSnmpv3Request crypto frame mib agent =
      .ok (out, agent') →
        agent'.ctx = (agent.count .unknownEngineIds).ctx) ∨
      stage' ∈ stage.before)

/-- What is served is for this engine, and what is for another engine is turned away as such. -/
structure OnlyAddressed (crypto : Crypto) (agent : Agent) (mib : Store) (frame : Bytes) : Prop where
  served : ∀ bytes agent', processSnmpv3Request crypto frame mib agent = .ok (some bytes, agent') →
    isReport bytes = false → ∃ env, Ber.decodeV3Envelope frame = .ok env ∧
      env.usm.engineId = agent.ctx.inputs.engineId ∧
      env.HasContextEngineId crypto agent.ctx.inputs.usmUser agent.ctx.inputs.engineId
  authoritative : ∀ env, Ber.decodeV3Envelope frame = .ok env →
    env.usm.engineId ≠ agent.ctx.inputs.engineId → UnknownEngine crypto agent mib frame .engineId
  context : ∀ env contextEngineId, Ber.decodeV3Envelope frame = .ok env →
    env.HasContextEngineId crypto agent.ctx.inputs.usmUser contextEngineId →
    contextEngineId ≠ agent.ctx.inputs.engineId →
    UnknownEngine crypto agent mib frame (if env.scopedData.isEncrypted then .contextEngineId
      else .engineId)

/-- A message in clear that names another authoritative engine than its context engine. -/
def Misaddressed (engineId frame : Bytes) : Prop :=
  ∃ env msg contextName rawPdu, Ber.decodeV3Envelope frame = .ok env ∧
    decodeV3Message frame = .ok msg ∧ env.securityModel = 3 ∧
    env.scopedData = .plaintext engineId contextName rawPdu ∧ env.usm.engineId ≠ [] ∧
    env.usm.engineId ≠ engineId

section
variable {crypto : Crypto} {agent : Agent} {frame : Bytes} {msg : V3InboundMessage} {mib : Store}
  {env : V3MessageEnvelope}

theorem unknownEngine_of_undecodable {stage : Stage} (hstage : .decoding ∈ stage.before)
    (hmsg : ∀ msg, decodeV3Message frame ≠ .ok msg) :
    UnknownEngine crypto agent mib frame stage := by
  refine ⟨.decoding, ?_, .inr hstage⟩
  rw [firstFailing]
  split
  · exact absurd ‹_› (hmsg _)
  · rfl

theorem unknownEngine_of_fails {stage : Stage} (hstage : stage.counter? = some .unknownEngineIds)
    (hmsg : decodeV3Message frame = .ok msg)
    (hfail : stage.passes crypto agent.ctx.inputs msg = false) :
    UnknownEngine crypto agent mib frame stage := by
  obtain ⟨stage', h, hle⟩ := firstFailing_of_fails _ hmsg hfail
  refine ⟨stage', h, hle.imp_left fun heq => ⟨heq, fun out agent' hp => ?_⟩⟩
  have hinputs := processSnmpv3Request_inputs hp
  rw [countedBy, h, heq, Option.bind_some, hstage, Option.elim_some] at hinputs
  exact congrArg DispatchContext.mk hinputs

/-- Where the engine check takes its engine from. -/
theorem IsInbound.engineId_eq (M : IsInbound env frame msg) :
    (∃ name rawPdu, env.scopedData = .plaintext msg.engineId name rawPdu) ∨
      (env.scopedData.isEncrypted = true ∧ msg.engineId = env.usm.engineId) := by
  have hdata := M.scopedData
  cases hd : env.scopedData with
  | plaintext contextEngineId name rawPdu =>
    simp only [hd, decodeScopedData, Res.bind_eq_ok, Res.ok.injEq, Prod.mk.injEq] at hdata
    obtain ⟨_, _, _, _, rfl, _, _⟩ := hdata
    exact .inl ⟨name, rawPdu, rfl⟩
  | encrypted ciphertext =>
    simp only [hd, decodeScopedData, Res.ok.injEq, Prod.mk.injEq] at hdata
    exact .inr ⟨rfl, hdata.1.symm⟩

theorem IsInbound.unique {env' : V3MessageEnvelope} (M : IsInbound env frame msg)
    (h : Ber.decodeV3Envelope frame = .ok env') : env' = env :=
  Res.ok.inj (h.symm.trans (decodeV3Envelope_eq_ok.mpr M.envelope))

theorem IsInbound.scopedPdu?_of_carries {inputs : DispatchInputs} {scoped_ : DecodedScopedPdu}
    (M : IsInbound env frame msg) (henc : env.scopedData.isEncrypted = true)
    (h : env.Carries crypto inputs.usmUser scoped_) :
    inputs.scopedPdu? crypto msg = some scoped_ := by
  have hdata := M.scopedData
  cases hd : env.scopedData with
  | plaintext contextEngineId name rawPdu =>
    rw [hd] at henc
    cases henc
  | encrypted ciphertext =>
    simp only [V3MessageEnvelope.Carries, hd] at h
    obtain ⟨user, huser, credentials, hc, salt, hsalt, hdecode⟩ := h
    simp only [hd, decodeScopedData, Res.ok.injEq, Prod.mk.injEq] at hdata
    have hprivacy := UsmUser.bind_privacy_eq_some huser hc
    have hparams : PrivacySalt.tryFrom env.usm.privParams = some salt :=
      PrivacySalt.tryFrom_eq_some.mpr hsalt
    simp only [DispatchInputs.scopedPdu?, ← hdata.2.2, hprivacy, M.usm, UsmSecurityFields.ofWire,
      hparams, Option.bind_eq_bind, Option.bind_some,
      PrivProtocol.decrypt_eq crypto _ _ credentials.length_key, Res.ok?_ok, hdecode]

theorem passes_engineId_iff (M : IsInbound env frame msg) :
    Stage.engineId.passes crypto agent.ctx.inputs msg = true ↔
      env.usm.engineId ≠ [] ∧ msg.engineId = agent.ctx.inputs.engineId := by
  simp [Stage.passes, M.usm, UsmSecurityFields.ofWire]

theorem V3MessageEnvelope.hasContextEngineId_of_encrypted {usmUser : Option UsmUser}
    {contextEngineId : Bytes} (henc : env.scopedData.isEncrypted = true) :
    env.HasContextEngineId crypto usmUser contextEngineId ↔
      ∃ scopedPdu, env.Carries crypto usmUser scopedPdu ∧
        scopedPdu.contextEngineId = contextEngineId := by
  unfold HasContextEngineId
  cases hd : env.scopedData with
  | plaintext =>
    rw [hd] at henc
    cases henc
  | encrypted ciphertext => exact Iff.rfl

/-- What may be assumed of a frame in order to show that it is turned away. -/
theorem unknownEngine_of_decoded {stage : Stage} (hstage : .decoding ∈ stage.before)
    (henv : Ber.decodeV3Envelope frame = .ok env)
    (h : ∀ msg, decodeV3Message frame = .ok msg → IsInbound env frame msg →
      UnknownEngine crypto agent mib frame stage) :
    UnknownEngine crypto agent mib frame stage := by
  by_cases hdecodes : ∃ msg, decodeV3Message frame = .ok msg
  · obtain ⟨msg, hmsg⟩ := hdecodes
    obtain ⟨env', M⟩ := isInbound_of_decode hmsg
    obtain rfl := M.unique henv
    exact h msg hmsg M
  · exact unknownEngine_of_undecodable hstage fun msg hmsg => hdecodes ⟨msg, hmsg⟩

theorem not_misaddressed_of_authoritative
    (H : ∀ env, Ber.decodeV3Envelope frame = .ok env →
      env.usm.engineId ≠ agent.ctx.inputs.engineId →
      UnknownEngine crypto agent mib frame .engineId) :
    ¬ Misaddressed agent.ctx.inputs.engineId frame := by
  rintro ⟨env, msg, name, rawPdu, henv, hmsg, husm, hdata, hne, hother⟩
  obtain ⟨env', M⟩ := isInbound_of_decode hmsg
  obtain rfl := M.unique henv
  obtain ⟨stage, hstage, hle⟩ := H env henv hother
  have hfails := fails_of_firstFailing hmsg hstage
  have hid : msg.engineId = agent.ctx.inputs.engineId := by
    rcases M.engineId_eq with ⟨_, _, h⟩ | ⟨h, -⟩
    · exact (ScopedData.plaintext.inj (hdata.symm.trans h)).1.symm
    · rw [hdata] at h
      cases h
  have hpass : Stage.engineId.passes crypto agent.ctx.inputs msg = true :=
    (passes_engineId_iff M).mpr ⟨hne, hid⟩
  -- The security model and the engine check both pass.
  rcases hle with ⟨rfl, -⟩ | hbefore
  · rw [hpass] at hfails
    cases hfails
  · have hstages : stage = .decoding ∨ stage = .securityModel := by
      simpa [Stage.before, Stage.all] using hbefore
    rcases hstages with rfl | rfl
    · cases hfails
    · rw [Stage.passes, M.isUsm_iff.mpr husm] at hfails
      cases hfails

section
variable (hmis : ¬ Misaddressed agent.ctx.inputs.engineId frame)
include hmis

/-- The engine check is then about the authoritative engine. -/
theorem usmEngineId_of_passes (hmsg : decodeV3Message frame = .ok msg)
    (M : IsInbound env frame msg) (husm : env.securityModel = 3)
    (hpass : Stage.engineId.passes crypto agent.ctx.inputs msg = true) :
    env.usm.engineId = agent.ctx.inputs.engineId := by
  obtain ⟨hne, hid⟩ := (passes_engineId_iff M).mp hpass
  rcases M.engineId_eq with ⟨name, rawPdu, hdata⟩ | ⟨-, h⟩
  · by_contra hother
    exact hmis ⟨env, msg, name, rawPdu, decodeV3Envelope_eq_ok.mpr M.envelope, hmsg, husm,
      hid ▸ hdata, hne, hother⟩
  · exact h.symm.trans hid

theorem addressed_of_response {bytes : Bytes} {agent' : Agent}
    (h : processSnmpv3Request crypto frame mib agent = .ok (some bytes, agent'))
    (hresponse : isReport bytes = false) :
    ∃ env, Ber.decodeV3Envelope frame = .ok env ∧
      env.usm.engineId = agent.ctx.inputs.engineId ∧
      env.HasContextEngineId crypto agent.ctx.inputs.usmUser agent.ctx.inputs.engineId := by
  obtain ⟨msg, pdu, contextName, _, hmsg, hadm, -, -⟩ :=
    processSnmpv3Request_response.mp ⟨h, hresponse⟩
  obtain ⟨env, M⟩ := isInbound_of_decode hmsg
  obtain ⟨husm, hne, hid, -, -, -, -, -, hname, hopened⟩ := admission_eq_ok.mp hadm
  rw [M.usm] at hne
  have hpass : Stage.engineId.passes crypto agent.ctx.inputs msg = true :=
    (passes_engineId_iff M).mpr ⟨hne, hid⟩
  refine ⟨env, decodeV3Envelope_eq_ok.mpr M.envelope,
    usmEngineId_of_passes hmis hmsg M (M.isUsm_iff.mp husm) hpass, ?_⟩
  rcases M.engineId_eq with ⟨name, rawPdu, hdata⟩ | ⟨henc, -⟩
  · rw [V3MessageEnvelope.HasContextEngineId, hdata]
    exact hid
  · obtain ⟨-, hcarries, -⟩ := M.opened_iff.mp ⟨hid, hname, hopened⟩
    exact (V3MessageEnvelope.hasContextEngineId_of_encrypted henc).mpr ⟨_, hcarries, rfl⟩

theorem unknownEngine_of_authoritative (henv : Ber.decodeV3Envelope frame = .ok env)
    (hother : env.usm.engineId ≠ agent.ctx.inputs.engineId) :
    UnknownEngine crypto agent mib frame .engineId := by
  refine unknownEngine_of_decoded (by decide) henv fun msg hmsg M => ?_
  by_cases husm : env.securityModel = 3
  · refine unknownEngine_of_fails rfl hmsg (Bool.eq_false_iff.mpr fun hpass => ?_)
    exact hother (usmEngineId_of_passes hmis hmsg M husm hpass)
  · have hfail : Stage.securityModel.passes crypto agent.ctx.inputs msg = false :=
      Bool.eq_false_iff.mpr fun hpass => husm (M.isUsm_iff.mp hpass)
    obtain ⟨stage, hstage, hle⟩ := firstFailing_of_fails _ hmsg hfail
    refine ⟨stage, hstage, .inr ?_⟩
    rcases hle with rfl | hbefore
    · decide
    · exact List.mem_of_mem_dropLast (l := Stage.engineId.before) hbefore

end

theorem unknownEngine_of_context {contextEngineId : Bytes}
    (henv : Ber.decodeV3Envelope frame = .ok env)
    (hcontext : env.HasContextEngineId crypto agent.ctx.inputs.usmUser contextEngineId)
    (hother : contextEngineId ≠ agent.ctx.inputs.engineId) :
    UnknownEngine crypto agent mib frame (if env.scopedData.isEncrypted then .contextEngineId
      else .engineId) := by
  refine unknownEngine_of_decoded (by split <;> decide) henv fun msg hmsg M => ?_
  rcases M.engineId_eq with ⟨name, rawPdu, hdata⟩ | ⟨henc, -⟩
  · simp only [V3MessageEnvelope.HasContextEngineId, hdata] at hcontext
    rw [hdata]
    change UnknownEngine crypto agent mib frame .engineId
    refine unknownEngine_of_fails rfl hmsg (Bool.eq_false_iff.mpr fun hpass => ?_)
    exact hother (hcontext.symm.trans ((passes_engineId_iff M).mp hpass).2)
  · obtain ⟨scopedPdu, hcarries, rfl⟩ :=
      (V3MessageEnvelope.hasContextEngineId_of_encrypted henc).mp hcontext
    rw [henc, if_pos rfl]
    refine unknownEngine_of_fails rfl hmsg ?_
    simpa [Stage.passes, M.scopedPdu?_of_carries henc hcarries] using hother

end

/-- **Addressees.** The agent keeps to its own engine exactly for the frames that are not
misaddressed. -/
theorem only_addressed_iff (crypto : Crypto) (agent : Agent) (mib : Store) (frame : Bytes) :
    OnlyAddressed crypto agent mib frame ↔ ¬ Misaddressed agent.ctx.inputs.engineId frame := by
  constructor
  · intro H
    exact not_misaddressed_of_authoritative H.authoritative
  · intro hmis
    refine ⟨?_, ?_, ?_⟩
    · intro bytes agent' h hresponse
      exact addressed_of_response hmis h hresponse
    · intro env henv hother
      exact unknownEngine_of_authoritative hmis henv hother
    · intro env contextEngineId henv hcontext hother
      exact unknownEngine_of_context henv hcontext hother

namespace Sample

/-- A request in clear for this agent, in a message for another authoritative engine. -/
def misaddressedFrame : Bytes :=
  messageBytes ⟨7, msgMaxSizeUdp, 0x00, 3⟩ ⟨[0x80, 0x00, 0x00, 0x00, 0x01], 3, 1000, userName, [],
    []⟩
    requestScopedPdu

def misaddressedEnvelope : V3MessageEnvelope :=
  envelopeOf ⟨7, msgMaxSizeUdp, 0x00, 3⟩
    ⟨[0x80, 0x00, 0x00, 0x00, 0x01], 3, 1000, userName, [], []⟩
    (.plaintext engineId [] (requestTlv request 0 0)) 0

end Sample

/-- A message for another authoritative engine is served. -/
theorem misaddressed_frame_served :
    Ber.decodeV3Envelope Sample.misaddressedFrame = .ok Sample.misaddressedEnvelope ∧
    Sample.misaddressedEnvelope.usm.engineId ≠ Sample.engineId ∧
    processSnmpv3Request Sample.crypto Sample.misaddressedFrame .new
      (Sample.agent none .noAuthNoPriv) =
      .ok (some (Sample.message 0x00 [] [] Sample.responseScopedPdu),
        Sample.agent none .noAuthNoPriv) ∧
    isReport (Sample.message 0x00 [] [] Sample.responseScopedPdu) = false ∧
    ¬ OnlyAddressed Sample.crypto (Sample.agent none .noAuthNoPriv) .new
      Sample.misaddressedFrame := by
  have henv : Ber.decodeV3Envelope Sample.misaddressedFrame = .ok Sample.misaddressedEnvelope := by
    decide +kernel
  have hprocess : processSnmpv3Request Sample.crypto Sample.misaddressedFrame .new
      (Sample.agent none .noAuthNoPriv) =
        .ok (some (Sample.message 0x00 [] [] Sample.responseScopedPdu),
          Sample.agent none .noAuthNoPriv) := by
    decide +kernel
  have hresponse : isReport (Sample.message 0x00 [] [] Sample.responseScopedPdu) = false := by
    decide +kernel
  refine ⟨henv, by decide, hprocess, hresponse, fun H => ?_⟩
  obtain ⟨env, henv', hid, -⟩ := H.served _ _ hprocess hresponse
  cases henv.symm.trans henv'
  exact absurd hid (by decide)

end SnmpAgent
