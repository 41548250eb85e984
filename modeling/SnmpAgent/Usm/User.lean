import Mathlib.Order.Lattice
import SnmpAgent.Usm.Crypto

/-!
# Users, security levels and security parameters
(`usm/user.rs`, `usm/security_params.rs`, `usm/time_window.rs`, `usm/counters.rs`)

A `UsmUser` carries the rules of the constructors of the source: keys have the length of their
protocol, and privacy credentials come with authentication credentials.
-/

namespace SnmpAgent
open Rust

/-! ## Security levels -/

inductive SecurityLevel where
  | noAuthNoPriv
  | authNoPriv
  | authPriv
  deriving DecidableEq

namespace SecurityLevel

def rank : SecurityLevel → Nat
  | noAuthNoPriv => 0
  | authNoPriv => 1
  | authPriv => 2

theorem rank_injective : Function.Injective rank := by
  intro a b h
  cases a <;> cases b <;> first | rfl | cases h

/-- The derived order: each level adds a protection. -/
instance : LinearOrder SecurityLevel := LinearOrder.lift' rank rank_injective

theorem le_iff_rank {a b : SecurityLevel} : a ≤ b ↔ a.rank ≤ b.rank := .rfl

theorem noAuthNoPriv_le (level : SecurityLevel) : noAuthNoPriv ≤ level := Nat.zero_le _

theorem le_authPriv (level : SecurityLevel) : level ≤ authPriv := by
  cases level <;> exact le_iff_rank.mpr (by decide)

end SecurityLevel

/-- The `msgFlags` byte. -/
structure MsgFlags where
  byte : UInt8
  deriving DecidableEq

namespace MsgFlags

def authBit : UInt8 := 0x01
def privBit : UInt8 := 0x02
def reportableBit : UInt8 := 0x04

def isAuth (flags : MsgFlags) : Bool := flags.byte &&& authBit ≠ 0
def isPriv (flags : MsgFlags) : Bool := flags.byte &&& privBit ≠ 0
def isReportable (flags : MsgFlags) : Bool := flags.byte &&& reportableBit ≠ 0

end MsgFlags

/-- `privFlag` without `authFlag`. -/
structure InvalidMsgFlags where
  flags : UInt8
  deriving DecidableEq

def SecurityLevel.tryFrom (flags : UInt8) : Except InvalidMsgFlags SecurityLevel :=
  match (MsgFlags.mk flags).isAuth, (MsgFlags.mk flags).isPriv with
  | false, false => .ok .noAuthNoPriv
  | true, false => .ok .authNoPriv
  | true, true => .ok .authPriv
  | false, true => .error ⟨flags⟩

def MsgFlags.securityLevel (flags : MsgFlags) : Except InvalidMsgFlags SecurityLevel :=
  SecurityLevel.tryFrom flags.byte

/-- The level names the two flags. -/
theorem MsgFlags.securityLevel_eq_ok {flags : MsgFlags} {level : SecurityLevel} :
    flags.securityLevel = .ok level ↔
      (flags.isAuth = true ↔ .authNoPriv ≤ level) ∧ (flags.isPriv = true ↔ level = .authPriv) := by
  unfold securityLevel SecurityLevel.tryFrom
  cases hA : flags.isAuth <;> cases hP : flags.isPriv <;> cases level <;> simp <;> decide

/-! ## Users -/

/-- The bytes of a user name. -/
structure UserName where
  asBytes : Bytes
  ne_nil : asBytes ≠ []
  length_le : asBytes.length ≤ 32
  deriving DecidableEq

structure AuthCredentials where
  protocol : AuthProtocol
  key : Bytes
  length_key : key.length = protocol.keyLen
  deriving DecidableEq

structure PrivCredentials where
  protocol : PrivProtocol
  key : Bytes
  length_key : key.length = protocol.keyLen
  deriving DecidableEq

structure UsmUser where
  name : UserName
  authCredentials : Option AuthCredentials
  privCredentials : Option PrivCredentials
  auth_of_priv : privCredentials.isSome → authCredentials.isSome
  deriving DecidableEq

namespace UsmUser
variable (user : UsmUser)

def securityLevel : SecurityLevel :=
  match user.authCredentials, user.privCredentials with
  | some _, some _ => .authPriv
  | some _, none => .authNoPriv
  | none, none => .noAuthNoPriv
  -- Excluded by `auth_of_priv`.
  | none, some _ => .noAuthNoPriv

def authProtocol : Option AuthProtocol := user.authCredentials.map (·.protocol)
def authKey : Option Bytes := user.authCredentials.map (·.key)
def privProtocol : Option PrivProtocol := user.privCredentials.map (·.protocol)
def privKey : Option Bytes := user.privCredentials.map (·.key)

/-- `auth_protocol().zip(auth_key())`. -/
def auth : Option (AuthProtocol × Bytes) :=
  user.authProtocol.bind fun protocol => user.authKey.map (protocol, ·)

/-- `priv_protocol().zip(priv_key())`. -/
def privacy : Option (PrivProtocol × Bytes) :=
  user.privProtocol.bind fun protocol => user.privKey.map (protocol, ·)

theorem auth_eq : user.auth = user.authCredentials.map fun c => (c.protocol, c.key) := by
  unfold auth authProtocol authKey
  cases user.authCredentials <;> rfl

theorem privacy_eq : user.privacy = user.privCredentials.map fun c => (c.protocol, c.key) := by
  unfold privacy privProtocol privKey
  cases user.privCredentials <;> rfl

theorem bind_privacy_eq_some {user : UsmUser} {usmUser : Option UsmUser}
    {credentials : PrivCredentials} (huser : user ∈ usmUser)
    (hc : user.privCredentials = some credentials) :
    usmUser.bind privacy = some (credentials.protocol, credentials.key) := by
  rw [Option.mem_def.mp huser, Option.bind_some, privacy_eq, hc, Option.map_some]

theorem authNoPriv_le_securityLevel :
    .authNoPriv ≤ user.securityLevel ↔ user.authCredentials.isSome := by
  unfold securityLevel
  have h := user.auth_of_priv
  cases hA : user.authCredentials <;> cases hP : user.privCredentials <;> simp_all <;> decide

theorem securityLevel_eq_authPriv :
    user.securityLevel = .authPriv ↔ user.privCredentials.isSome := by
  unfold securityLevel
  have h := user.auth_of_priv
  cases hA : user.authCredentials <;> cases hP : user.privCredentials <;> simp_all

end UsmUser

structure InvalidKeyLength where
  expected : Nat
  actual : Nat
  deriving DecidableEq

/-- `AuthNoPrivUser::new`, converted to a `UsmUser`. -/
def UsmUser.newAuthNoPriv (name : UserName) (authProtocol : AuthProtocol) (authKey : Bytes) :
    Except InvalidKeyLength UsmUser :=
  if h : authKey.length = authProtocol.keyLen then
    .ok ⟨name, some ⟨authProtocol, authKey, h⟩, none, nofun⟩
  else .error ⟨authProtocol.keyLen, authKey.length⟩

/-- `AuthPrivUser::new`, converted to a `UsmUser`: the privacy key is the front of the
authentication key, which is always long enough. -/
def UsmUser.newAuthPriv (name : UserName) (authProtocol : AuthProtocol) (authKey : Bytes)
    (privProtocol : PrivProtocol) : Except InvalidKeyLength UsmUser :=
  if h : authKey.length = authProtocol.keyLen then
    .ok ⟨name, some ⟨authProtocol, authKey, h⟩,
      some ⟨privProtocol, authKey.take privProtocol.keyLen, by rw [List.length_take, h,
      Nat.min_eq_left (privProtocol.keyLen_le authProtocol)]⟩, fun _ => rfl⟩
  else .error ⟨authProtocol.keyLen, authKey.length⟩

def securityLevelRequiresUser (usmUser : Option UsmUser) (minimumSecurityLevel : SecurityLevel) :
    Bool :=
  usmUser.isNone && decide (minimumSecurityLevel > .noAuthNoPriv)

/-! ## Security parameters -/

/-- The bytes of a non-empty `msgAuthenticationParameters` field. -/
structure AuthenticationParams where
  bytes : Bytes
  ne_nil : bytes ≠ []
  deriving DecidableEq

/-- `AuthenticationParams::try_from`, its error dropped. -/
def AuthenticationParams.tryFrom (bytes : Bytes) : Option AuthenticationParams :=
  if h : bytes = [] then none else some ⟨bytes, h⟩

theorem AuthenticationParams.tryFrom_bytes (bytes : Bytes) :
    ((tryFrom bytes).map (·.bytes)).getD [] = bytes := by
  unfold tryFrom
  split
  · rename_i h
    exact h.symm
  · rfl

/-- The eight bytes of a `msgPrivacyParameters` field. -/
abbrev PrivacySalt := Octets 8

/-- `PrivacySalt::try_from`, its error dropped. -/
def PrivacySalt.tryFrom (bytes : Bytes) : Option PrivacySalt :=
  if h : bytes.length = 8 then some ⟨bytes, h⟩ else none

theorem PrivacySalt.tryFrom_val (salt : PrivacySalt) : tryFrom salt.val = some salt :=
  dif_pos salt.property

theorem PrivacySalt.tryFrom_eq_some {bytes : Bytes} {salt : PrivacySalt} :
    tryFrom bytes = some salt ↔ salt.val = bytes := by
  constructor
  · unfold tryFrom
    split
    · rintro ⟨⟩
      rfl
    · nofun
  · rintro rfl
    exact tryFrom_val salt

/-! ## Time window -/

def isInTimeWindow (msgBoots msgTime engineBoots engineTime : UInt32) : Bool :=
  if msgBoots ≠ engineBoots then false
  else ((msgTime.toNat : Int) - engineTime.toNat).natAbs ≤ 150

theorem isInTimeWindow_iff {msgBoots msgTime engineBoots engineTime : UInt32} :
    isInTimeWindow msgBoots msgTime engineBoots engineTime = true ↔
      msgBoots = engineBoots ∧ ((msgTime.toNat : Int) - engineTime.toNat).natAbs ≤ 150 := by
  unfold isInTimeWindow
  split <;> simp_all

/-! ## Counters -/

structure UsmStatsCounter where
  value : UInt32
  deriving DecidableEq

/-- `u32::saturating_add(1)`. -/
def UsmStatsCounter.saturatingIncrement (counter : UsmStatsCounter) : UsmStatsCounter :=
  if counter.value = 0xFFFFFFFF then counter else ⟨counter.value + 1⟩

end SnmpAgent
