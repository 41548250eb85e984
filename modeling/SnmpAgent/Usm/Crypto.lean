import SnmpAgent.Lib.Slice

/-!
# Authentication and privacy protocols (`usm/auth.rs`, `usm/privacy.rs`)

The hash and cipher implementations come from other crates. They are a parameter of the model, the
structure `Crypto`, of which only the sizes of the outputs are known.
-/

namespace SnmpAgent
open Rust

inductive AuthProtocol where
  | hmacSha256
  | hmacSha512
  deriving DecidableEq

inductive PrivProtocol where
  | aes128
  | aes256
  deriving DecidableEq

def AuthProtocol.keyLen : AuthProtocol → Nat
  | .hmacSha256 => 32
  | .hmacSha512 => 64

def AuthProtocol.macLen : AuthProtocol → Nat
  | .hmacSha256 => 24
  | .hmacSha512 => 48

def PrivProtocol.keyLen : PrivProtocol → Nat
  | .aes128 => 16
  | .aes256 => 32

theorem AuthProtocol.macLen_pos (protocol : AuthProtocol) : 0 < protocol.macLen := by
  cases protocol <;> decide

theorem PrivProtocol.keyLen_le (privProtocol : PrivProtocol) (authProtocol : AuthProtocol) :
    privProtocol.keyLen ≤ authProtocol.keyLen := by
  cases privProtocol <;> cases authProtocol <;> decide

/-- The primitives of the `hmac` and `cfb-mode` crates: a tag of a key and a message, and a stream
cipher on a key, an initialisation vector and a text. -/
structure Crypto where
  hmacSha256 : Bytes → Bytes → Octets 32
  hmacSha512 : Bytes → Bytes → Octets 64
  cfbEncrypt : PrivProtocol → Bytes → Octets 16 → (plaintext : Bytes) → Octets plaintext.length
  cfbDecrypt : PrivProtocol → Bytes → Octets 16 → (ciphertext : Bytes) → Octets ciphertext.length

/-- Decryption inverts encryption under the same key and initialisation vector. -/
def Crypto.DecryptInverts (crypto : Crypto) : Prop :=
  ∀ protocol key iv plaintext, key.length = protocol.keyLen →
    (crypto.cfbDecrypt protocol key iv (crypto.cfbEncrypt protocol key iv plaintext).val).val =
      plaintext

/-! ## Authentication -/

inductive AuthError where
  | invalidKeyLength (expected actual : Nat)
  | invalidMacLength (expected actual : Nat)
  | macMismatch
  | hmacInitialisation
  deriving DecidableEq

def AuthError.message : AuthError → String
  | .invalidKeyLength expected actual =>
    s!"invalid authentication key length: expected {expected} bytes, got {actual}"
  | .invalidMacLength expected actual =>
    s!"invalid MAC length: expected {expected} bytes, got {actual}"
  | .macMismatch => "authentication MAC mismatch"
  | .hmacInitialisation => "HMAC initialisation failed"

namespace AuthProtocol
variable (crypto : Crypto) (protocol : AuthProtocol) (key message : Bytes)

/-- The whole tag, which HMAC has for keys of any length. -/
def hmac : Bytes :=
  match protocol with
  | .hmacSha256 => (crypto.hmacSha256 key message).val
  | .hmacSha512 => (crypto.hmacSha512 key message).val

/-- The tag truncated to `macLen`. -/
def mac : Bytes := (protocol.hmac crypto key message).take protocol.macLen

def computeMac : Res AuthError Bytes :=
  if key.length ≠ protocol.keyLen then .err (.invalidKeyLength protocol.keyLen key.length)
  else .ok (protocol.mac crypto key message)

/-- `verify_truncated_left` compares the carried bytes with as many leading bytes of the tag. -/
def verifyMac (expectedMac : Bytes) : Res AuthError Unit :=
  if key.length ≠ protocol.keyLen then .err (.invalidKeyLength protocol.keyLen key.length)
  else if expectedMac.length ≠ protocol.macLen then
    .err (.invalidMacLength protocol.macLen expectedMac.length)
  else if (protocol.hmac crypto key message).take expectedMac.length = expectedMac then .ok ()
  else .err .macMismatch

theorem macLen_le_length_hmac : protocol.macLen ≤ (protocol.hmac crypto key message).length := by
  cases protocol with
  | hmacSha256 => exact (crypto.hmacSha256 key message).property.symm ▸ (by decide : 24 ≤ 32)
  | hmacSha512 => exact (crypto.hmacSha512 key message).property.symm ▸ (by decide : 48 ≤ 64)

@[simp] theorem length_mac : (protocol.mac crypto key message).length = protocol.macLen := by
  rw [mac, List.length_take, Nat.min_eq_left (macLen_le_length_hmac ..)]

variable {key}

theorem computeMac_eq (hkey : key.length = protocol.keyLen) :
    protocol.computeMac crypto key message = .ok (protocol.mac crypto key message) := by
  rw [computeMac, if_neg (not_not.mpr hkey)]

theorem verifyMac_eq_ok (hkey : key.length = protocol.keyLen) {expectedMac : Bytes} :
    protocol.verifyMac crypto key message expectedMac = .ok () ↔
      expectedMac = protocol.mac crypto key message := by
  simp only [verifyMac, Res.guard_eq_ok, Res.guard_not_eq_ok, not_not, hkey, true_and, and_true]
  constructor
  · rintro ⟨hlen, h⟩
    rw [← h, hlen]
    rfl
  · rintro rfl
    rw [length_mac]
    exact ⟨rfl, rfl⟩

end AuthProtocol

/-! ## Privacy -/

inductive PrivError where
  | invalidKeyLength (expected actual : Nat)
  | cipherInitialisation
  deriving DecidableEq

def PrivError.message : PrivError → String
  | .invalidKeyLength expected actual =>
    s!"invalid privacy key length: expected {expected} bytes, got {actual}"
  | .cipherInitialisation => "cipher initialisation failed"

namespace PrivProtocol
variable (crypto : Crypto) (protocol : PrivProtocol) {key : Bytes} (iv : Octets 16)

def encrypt (key : Bytes) (plaintext : Bytes) : Res PrivError Bytes :=
  if key.length ≠ protocol.keyLen then .err (.invalidKeyLength protocol.keyLen key.length)
  else .ok (crypto.cfbEncrypt protocol key iv plaintext).val

def decrypt (key : Bytes) (ciphertext : Bytes) : Res PrivError Bytes :=
  if key.length ≠ protocol.keyLen then .err (.invalidKeyLength protocol.keyLen key.length)
  else .ok (crypto.cfbDecrypt protocol key iv ciphertext).val

theorem encrypt_eq (hkey : key.length = protocol.keyLen) (plaintext : Bytes) :
    protocol.encrypt crypto iv key plaintext =
      .ok (crypto.cfbEncrypt protocol key iv plaintext).val := by
  rw [encrypt, if_neg (not_not.mpr hkey)]

theorem decrypt_eq (hkey : key.length = protocol.keyLen) (ciphertext : Bytes) :
    protocol.decrypt crypto iv key ciphertext =
      .ok (crypto.cfbDecrypt protocol key iv ciphertext).val := by
  rw [decrypt, if_neg (not_not.mpr hkey)]

theorem length_of_decrypt {ciphertext plaintext : Bytes}
    (h : protocol.decrypt crypto iv key ciphertext = .ok plaintext) :
    plaintext.length = ciphertext.length := by
  unfold decrypt at h
  split at h
  · cases h
  · cases h
    exact (crypto.cfbDecrypt ..).property

end PrivProtocol

/-- The initialisation vector: boots and time in four bytes each, then the salt. -/
def aesIv (engineBoots engineTime : UInt32) (salt : Octets 8) : Octets 16 :=
  ⟨toBE 4 engineBoots.toNat ++ toBE 4 engineTime.toNat ++ salt.val, by
    simp [length_toBE, salt.property]⟩

/-! ## Tabulated primitives -/

def zeroOctets (n : Nat) : Octets n := ⟨.replicate n 0, List.length_replicate⟩

/-- A text under a key stream. Past the end of the stream the text is left alone. -/
def xorKeystream : Bytes → Bytes → Bytes
  | [], text => text
  | _ :: _, [] => []
  | k :: keystream, b :: text => (b ^^^ k) :: xorKeystream keystream text

theorem length_xorKeystream (keystream text : Bytes) :
    (xorKeystream keystream text).length = text.length := by
  fun_induction xorKeystream keystream text <;> simp_all

theorem xorKeystream_xorKeystream (keystream text : Bytes) :
    xorKeystream keystream (xorKeystream keystream text) = text := by
  fun_induction xorKeystream keystream text with
  | case1 text => rfl
  | case2 => rfl
  | case3 k keystream b text ih =>
    rw [xorKeystream, ih, UInt8.xor_assoc, UInt8.xor_self, UInt8.xor_zero]

/-- Primitives given by their values on finitely many inputs: tags by key and message, and key
streams by initialisation vector. -/
def Crypto.tabulated (tags : List ((Bytes × Bytes) × Octets 32))
    (keystreams : List (Bytes × Bytes)) : Crypto where
  hmacSha256 key message := (tags.lookup (key, message)).getD (zeroOctets 32)
  hmacSha512 _ _ := zeroOctets 64
  cfbEncrypt _ _ iv plaintext :=
    ⟨xorKeystream ((keystreams.lookup iv.val).getD []) plaintext, length_xorKeystream ..⟩
  cfbDecrypt _ _ iv ciphertext :=
    ⟨xorKeystream ((keystreams.lookup iv.val).getD []) ciphertext, length_xorKeystream ..⟩

theorem Crypto.decryptInverts_tabulated (tags : List ((Bytes × Bytes) × Octets 32))
    (keystreams : List (Bytes × Bytes)) : (tabulated tags keystreams).DecryptInverts :=
  fun _ _ _ _ _ => xorKeystream_xorKeystream ..

end SnmpAgent
