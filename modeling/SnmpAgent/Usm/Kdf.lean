import SnmpAgent.Lib.Cyclic
import SnmpAgent.Usm.Crypto

/-!
# Key derivation from passwords (`usm/kdf.rs`)

The password is fed to a hash again and again, up to a fixed number of bytes, and the digest is
localised for an engine. A hasher keeps the bytes it was fed. The hash functions are parameters, as
in `Crypto`, and only the sizes of their digests are known.
-/

namespace SnmpAgent
open Rust

def kdfStreamLen : Nat := 0x00100000

inductive KdfError where
  | emptyPassword
  | passwordTooShort (length : Nat)
  deriving DecidableEq

/-! ## Hashers -/

/-- The functions of the `sha2` crate. -/
structure Hashes where
  sha256 : Bytes → Octets 32
  sha512 : Bytes → Octets 64

def Hashes.hash (hashes : Hashes) : AuthProtocol → Bytes → Bytes
  | .hmacSha256, bytes => (hashes.sha256 bytes).val
  | .hmacSha512, bytes => (hashes.sha512 bytes).val

/-- A `sha2::Digest`: the digest depends on the concatenation of all updates. -/
structure Hasher where
  digest : Bytes → Bytes
  fed : Bytes

namespace Hasher

def new (digest : Bytes → Bytes) : Hasher := ⟨digest, []⟩

def update (hasher : Hasher) (bytes : Bytes) : Hasher :=
  { hasher with fed := hasher.fed ++ bytes }

def finaliseIntoSecretKey (hasher : Hasher) : Bytes := hasher.digest hasher.fed

/-- The loop over the full copies of the password. -/
def updateTimes (bytes : Bytes) : Nat → Hasher → Hasher
  | 0, hasher => hasher
  | n + 1, hasher => updateTimes bytes n (hasher.update bytes)

/-- The stream of step 1. Splitting the password at the length of the last chunk panics when the
chunk is longer. -/
def feedPassword {ε : Type} (password : Bytes) (hasher : Hasher) : Res ε Hasher := do
  let fullCopies := kdfStreamLen / password.length
  let remainderLen := kdfStreamLen % password.length
  let finalChunk ← .expect (slice? password 0 remainderLen)
  .ok ((hasher.updateTimes password fullCopies).update finalChunk)

end Hasher

/-- `SecretKey::truncate`, which asserts that the key is long enough. -/
def truncateKey {ε : Type} (key : Bytes) (newLen : Nat) : Res ε Bytes :=
  if newLen ≤ key.length then .ok (key.take newLen) else .panic

section
variable (hashes : Hashes)

def localiseKey (key engineId : Bytes) (protocol : AuthProtocol) : Bytes :=
  ((((Hasher.new (hashes.hash protocol)).update key).update engineId).update key)
    |>.finaliseIntoSecretKey

def passwordToLocalisedKey (password engineId : Bytes) (protocol : AuthProtocol) :
    Res KdfError Bytes :=
  if password.isEmpty then .err .emptyPassword
  else if password.length < 8 then .err (.passwordTooShort password.length)
  else do
    let hasher ← (Hasher.new (hashes.hash protocol)).feedPassword password
    let masterKey := hasher.finaliseIntoSecretKey
    truncateKey (localiseKey hashes masterKey engineId protocol) protocol.keyLen

end

/-! ## The stream -/

/-- Byte `i` is the byte of the password at `i` modulo its length. -/
def passwordStream (password : Bytes) : Bytes :=
  (List.range 1048576).map fun i => password.getD (i % password.length) 0

/-- What is hashed for an engine, and the key that comes of it. -/
structure HashesStream (hashes : Hashes) (password : Bytes) (protocol : AuthProtocol) : Prop where
  fed : ∃ hasher,
    ((Hasher.new (hashes.hash protocol)).feedPassword password : Res KdfError Hasher) =
      .ok hasher ∧ hasher.fed = passwordStream password
  key : ∀ engineId, passwordToLocalisedKey hashes password engineId protocol =
    .ok (hashes.hash protocol
      (hashes.hash protocol (passwordStream password) ++ engineId ++
        hashes.hash protocol (passwordStream password)))

section
variable {hashes : Hashes} {password : Bytes}

theorem Hasher.updateTimes_eq (bytes : Bytes) (n : Nat) (hasher : Hasher) :
    hasher.updateTimes bytes n =
      { hasher with fed := hasher.fed ++ (List.replicate n bytes).flatten } := by
  induction n generalizing hasher with
  | zero => simp [updateTimes]
  | succ n ih =>
    rw [updateTimes, ih, update, List.replicate_succ, List.flatten_cons, List.append_assoc]

theorem Hasher.feedPassword_eq {ε : Type} (hne : password ≠ []) (digest : Bytes → Bytes) :
    ((Hasher.new digest).feedPassword password : Res ε Hasher) =
      .ok ⟨digest, passwordStream password⟩ := by
  have hlt : kdfStreamLen % password.length < password.length :=
    Nat.mod_lt _ (List.length_pos_iff.mpr hne)
  have hstream := Cyclic.flatten_replicate_append_take (d := 0) (kdfStreamLen / password.length)
    hlt.le
  rw [Nat.div_add_mod'] at hstream
  rw [feedPassword, slice?_zero, if_pos hlt.le, Res.expect_some, Res.ok_bind, updateTimes_eq]
  exact congrArg (fun fed => Res.ok (Hasher.mk digest fed)) hstream

theorem localiseKey_eq (key engineId : Bytes) (protocol : AuthProtocol) :
    localiseKey hashes key engineId protocol = hashes.hash protocol (key ++ engineId ++ key) := rfl

theorem Hashes.length_hash (hashes : Hashes) (protocol : AuthProtocol) (bytes : Bytes) :
    (hashes.hash protocol bytes).length = protocol.keyLen := by
  cases protocol with
  | hmacSha256 => exact (hashes.sha256 bytes).property
  | hmacSha512 => exact (hashes.sha512 bytes).property

/-- The key is as long as the digest, so nothing is cut off. -/
theorem truncateKey_hash {ε : Type} (protocol : AuthProtocol) (bytes : Bytes) :
    (truncateKey (hashes.hash protocol bytes) protocol.keyLen : Res ε Bytes) =
      .ok (hashes.hash protocol bytes) := by
  have hlen := hashes.length_hash protocol bytes
  rw [truncateKey, if_pos hlen.ge, List.take_of_length_le hlen.le]

theorem hashesStream (h : 8 ≤ password.length) (protocol : AuthProtocol) :
    HashesStream hashes password protocol := by
  have hne : password ≠ [] := List.ne_nil_of_length_pos (by omega)
  refine ⟨⟨_, Hasher.feedPassword_eq hne _, by simp only⟩, fun engineId => ?_⟩
  have hempty : ¬ password.isEmpty = true := by simpa using hne
  rw [passwordToLocalisedKey, if_neg hempty, if_neg (Nat.not_lt.mpr h),
    Hasher.feedPassword_eq hne, Res.ok_bind]
  simp only [Hasher.finaliseIntoSecretKey, localiseKey_eq, truncateKey_hash]

end

/-- **Key derivation.** For a password of at least eight bytes the stream is its cyclic repetition,
and the key is the localised digest of that. So passwords with one stream have one key. -/
theorem key_derivation_hashes_stream (hashes : Hashes) (password : Bytes)
    (h : 8 ≤ password.length) :
    (∀ protocol, HashesStream hashes password protocol) ∧
    ∀ password', 8 ≤ password'.length → passwordStream password' = passwordStream password →
      ∀ engineId protocol, passwordToLocalisedKey hashes password' engineId protocol =
        passwordToLocalisedKey hashes password engineId protocol := by
  refine ⟨hashesStream h, fun password' h' hstream engineId protocol => ?_⟩
  rw [(hashesStream h' protocol).key, (hashesStream h protocol).key, hstream]

/-! ## A password with its digests -/

/-- SHA-256 given by its values on finitely many inputs. -/
def Hashes.tabulated (digests : List (Bytes × Octets 32)) : Hashes where
  sha256 bytes := (digests.lookup bytes).getD (zeroOctets 32)
  sha512 _ := zeroOctets 64

theorem Hashes.hash_tabulated_pair {first second : Bytes} (hne : second ≠ first)
    (digest digest' : Octets 32) :
    let hashes := Hashes.tabulated [(first, digest), (second, digest')]
    hashes.hash .hmacSha256 first = digest.val ∧ hashes.hash .hmacSha256 second = digest'.val := by
  simp [Hashes.hash, Hashes.tabulated, List.lookup_cons, beq_false_of_ne hne]

/-- The two digests that make the key of a password for an engine. -/
def Hashes.ofPassword (password engineId : Bytes) (masterKey key : Octets 32) : Hashes :=
  .tabulated [(passwordStream password, masterKey),
    (masterKey.val ++ engineId ++ masterKey.val, key)]

theorem passwordToLocalisedKey_ofPassword {password engineId : Bytes} (h : 8 ≤ password.length)
    (hengine : engineId.length ≤ 32) (masterKey key : Octets 32) :
    passwordToLocalisedKey (.ofPassword password engineId masterKey key) password engineId
      .hmacSha256 = .ok key.val := by
  have hlen : (passwordStream password).length = 1048576 := by simp [passwordStream]
  -- what is hashed for the engine is much shorter than the stream
  have hne : masterKey.val ++ engineId ++ masterKey.val ≠ passwordStream password := by
    intro heq
    have := congrArg List.length heq
    rw [hlen, List.length_append, List.length_append, masterKey.property] at this
    omega
  obtain ⟨hmaster, hkey⟩ := Hashes.hash_tabulated_pair hne masterKey key
  rw [(hashesStream h .hmacSha256).key, Hashes.ofPassword, hmaster, hkey]

namespace Sample

/-- "maplesyrup", the last copy of which is cut behind six bytes. -/
def password : Bytes := [0x6d, 0x61, 0x70, 0x6c, 0x65, 0x73, 0x79, 0x72, 0x75, 0x70]

def masterKey : Octets 32 :=
  ⟨[0xab, 0x51, 0x01, 0x4d, 0x1e, 0x07, 0x7f, 0x60, 0x17, 0xdf, 0x2b, 0x12, 0xbe, 0xe5, 0xf5,
    0xaa, 0x72, 0x99, 0x31, 0x77, 0xe9, 0xbb, 0x56, 0x9c, 0x4d, 0xff, 0x5a, 0x4c, 0xa0, 0xb4,
    0xaf, 0xac], rfl⟩

def mapleEngineId : Bytes := .replicate 11 0 ++ [0x02]

def mapleKey : Octets 32 :=
  ⟨[0x89, 0x82, 0xe0, 0xe5, 0x49, 0xe8, 0x66, 0xdb, 0x36, 0x1a, 0x6b, 0x62, 0x5d, 0x84, 0xcc,
    0xcc, 0x11, 0x16, 0x2d, 0x45, 0x3e, 0xe8, 0xce, 0x3a, 0x64, 0x45, 0xc2, 0xd6, 0x77, 0x6f,
    0x0f, 0x8b], rfl⟩

end Sample

theorem key_derivation_hashes_stream_sample :
    let hashes := Hashes.ofPassword Sample.password Sample.mapleEngineId Sample.masterKey
      Sample.mapleKey
    kdfStreamLen % Sample.password.length = 6 ∧
      HashesStream hashes Sample.password .hmacSha256 ∧
      passwordToLocalisedKey hashes Sample.password Sample.mapleEngineId .hmacSha256 =
        .ok Sample.mapleKey.val :=
  ⟨by decide, (key_derivation_hashes_stream _ _ (by decide)).1 .hmacSha256,
    passwordToLocalisedKey_ofPassword (by decide) (by decide) _ _⟩

end SnmpAgent
