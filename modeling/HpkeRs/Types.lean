import Mathlib.Data.List.Basic
import Mathlib.Tactic.Basic

/-! The data model of hpke-rs: the IANA algorithm identifiers and their fixed sizes
(`traits/src/types.rs`), the four HPKE modes, the provider's error type and the library's
`HpkeError` with the conversion between them, and the key wrappers (`src/lib.rs`).
Enums are `repr(u16)` (`repr(u8)` for `Mode`); `as u16` reads the discriminant and `TryFrom`
inverts it. -/

namespace HpkeRs

/-- `Vec<u8>` and `&[u8]`. -/
abbrev Bytes := List UInt8

/-- Results compare by their constructor and payload, so that results can be decided. -/
instance instDecidableEqExcept {ε α : Type} [DecidableEq ε] [DecidableEq α] :
    DecidableEq (Except ε α)
  | .error a, .error b =>
      if h : a = b then isTrue (h ▸ rfl) else isFalse fun h' => h (Except.error.inj h')
  | .ok a, .ok b => if h : a = b then isTrue (h ▸ rfl) else isFalse fun h' => h (Except.ok.inj h')
  | .error _, .ok _ => isFalse Except.noConfusion
  | .ok _, .error _ => isFalse Except.noConfusion

/-- `KemAlgorithm`. -/
inductive KemAlgorithm
  | dhKemP256 | dhKemP384 | dhKemP521 | dhKemK256 | dhKem25519 | dhKem448 | xWingDraft06
  deriving DecidableEq, Repr

/-- `AeadAlgorithm`. -/
inductive AeadAlgorithm
  | aes128Gcm | aes256Gcm | chaCha20Poly1305 | hpkeExport
  deriving DecidableEq, Repr

/-- `KdfAlgorithm`. -/
inductive KdfAlgorithm
  | hkdfSha256 | hkdfSha384 | hkdfSha512
  deriving DecidableEq, Repr

/-- `Mode`. -/
inductive Mode
  | base | psk | auth | authPsk
  deriving DecidableEq, Repr

/-- `hpke_rs_crypto::error::Error`, the providers' error type. Its declaration
(`traits/src/error.rs`) is not in the sources; the variants are those that the exhaustive match
of `From<Error> for HpkeError` lists. -/
inductive Error
  | aeadOpenError | aeadInvalidNonce | aeadInvalidCiphertext | unknownAeadAlgorithm
  | cryptoLibraryError (message : String)
  | hpkeInvalidOutputLength | unknownKdfAlgorithm | kemInvalidSecretKey | kemInvalidPublicKey
  | unknownKemAlgorithm | insufficientRandomness | unsupportedKemOperation | kemInvalidCiphertext
  deriving DecidableEq, Repr

/-- `HpkeError`. -/
inductive HpkeError
  | openError | invalidConfig | invalidInput | unknownMode
  | inconsistentPsk | missingPsk | unnecessaryPsk | insecurePsk
  | cryptoError (message : String)
  | messageLimitReached | insufficientRandomness
  deriving DecidableEq, Repr

namespace KemAlgorithm

/-- `kem_id as u16`. -/
def toU16 : KemAlgorithm → UInt16
  | dhKemP256 => 0x0010
  | dhKemP384 => 0x0011
  | dhKemP521 => 0x0012
  | dhKemK256 => 0x0016
  | dhKem25519 => 0x0020
  | dhKem448 => 0x0021
  | xWingDraft06 => 0x004D

/-- `TryFrom<u16> for KemAlgorithm`. -/
def tryFrom (x : UInt16) : Except Error KemAlgorithm :=
  match x with
  | 0x0010 => .ok dhKemP256
  | 0x0011 => .ok dhKemP384
  | 0x0012 => .ok dhKemP521
  | 0x0016 => .ok dhKemK256
  | 0x0020 => .ok dhKem25519
  | 0x0021 => .ok dhKem448
  | 0x004D => .ok xWingDraft06
  | _ => .error .unknownKemAlgorithm

/-- `KemAlgorithm::private_key_len`. -/
def privateKeyLen : KemAlgorithm → Nat
  | dhKemP256 => 32
  | dhKemP384 => 48
  | dhKemP521 => 66
  | dhKemK256 => 32
  | dhKem25519 => 32
  | dhKem448 => 56
  | xWingDraft06 => 32

/-- `KemAlgorithm::shared_secret_len`. -/
def sharedSecretLen : KemAlgorithm → Nat
  | dhKemP256 => 32
  | dhKemP384 => 48
  | dhKemP521 => 64
  | dhKemK256 => 32
  | dhKem25519 => 32
  | dhKem448 => 64
  | xWingDraft06 => 32

end KemAlgorithm

namespace AeadAlgorithm

/-- `aead_id as u16`. -/
def toU16 : AeadAlgorithm → UInt16
  | aes128Gcm => 0x0001
  | aes256Gcm => 0x0002
  | chaCha20Poly1305 => 0x0003
  | hpkeExport => 0xFFFF

/-- `TryFrom<u16> for AeadAlgorithm`. -/
def tryFrom (x : UInt16) : Except Error AeadAlgorithm :=
  match x with
  | 0x0001 => .ok aes128Gcm
  | 0x0002 => .ok aes256Gcm
  | 0x0003 => .ok chaCha20Poly1305
  | 0xFFFF => .ok hpkeExport
  | _ => .error .unknownAeadAlgorithm

/-- `AeadAlgorithm::tag_length`. -/
def tagLength : AeadAlgorithm → Nat
  | aes128Gcm | aes256Gcm | chaCha20Poly1305 => 16
  | hpkeExport => 0

/-- `AeadAlgorithm::key_length`. -/
def keyLength : AeadAlgorithm → Nat
  | aes128Gcm => 16
  | aes256Gcm | chaCha20Poly1305 => 32
  | hpkeExport => 0

/-- `AeadAlgorithm::nonce_length`: the export-only identifier has no nonce. -/
def nonceLength : AeadAlgorithm → Nat
  | aes128Gcm | aes256Gcm | chaCha20Poly1305 => 12
  | hpkeExport => 0

end AeadAlgorithm

namespace KdfAlgorithm

/-- `kdf_id as u16`. -/
def toU16 : KdfAlgorithm → UInt16
  | hkdfSha256 => 0x0001
  | hkdfSha384 => 0x0002
  | hkdfSha512 => 0x0003

/-- `TryFrom<u16> for KdfAlgorithm`. -/
def tryFrom (x : UInt16) : Except Error KdfAlgorithm :=
  match x with
  | 0x0001 => .ok hkdfSha256
  | 0x0002 => .ok hkdfSha384
  | 0x0003 => .ok hkdfSha512
  | _ => .error .unknownKdfAlgorithm

/-- `From<KemAlgorithm> for KdfAlgorithm`. -/
def ofKem : KemAlgorithm → KdfAlgorithm
  | .dhKemP256 | .dhKemK256 | .dhKem25519 => hkdfSha256
  | .dhKemP384 => hkdfSha384
  | .dhKemP521 | .dhKem448 | .xWingDraft06 => hkdfSha512

end KdfAlgorithm

namespace Mode

/-- `mode as u8`. -/
def toU8 : Mode → UInt8
  | base => 0x00
  | psk => 0x01
  | auth => 0x02
  | authPsk => 0x03

/-- `TryFrom<u8> for Mode`. -/
def tryFrom (x : UInt8) : Except HpkeError Mode :=
  match x with
  | 0x00 => .ok base
  | 0x01 => .ok psk
  | 0x02 => .ok auth
  | 0x03 => .ok authPsk
  | _ => .error .unknownMode

end Mode

/-- `From<hpke_rs_crypto::error::Error> for HpkeError`, the conversion behind every `?` on a
provider call. -/
def HpkeError.fromError : Error → HpkeError
  | .aeadOpenError => .openError
  | .aeadInvalidNonce | .aeadInvalidCiphertext => .invalidInput
  | .unknownAeadAlgorithm => .unknownMode
  | .cryptoLibraryError s => .cryptoError s
  | .hpkeInvalidOutputLength => .cryptoError "Invalid HPKE output length"
  | .unknownKdfAlgorithm => .cryptoError "Unknown KDF algorithm."
  | .kemInvalidSecretKey => .cryptoError "Invalid KEM secret key"
  | .kemInvalidPublicKey => .cryptoError "Invalid KEM public key"
  | .unknownKemAlgorithm => .cryptoError "Unknown KEM algorithm"
  | .insufficientRandomness => .insufficientRandomness
  | .unsupportedKemOperation => .invalidConfig
  | .kemInvalidCiphertext => .invalidInput

/-- The closure `|e| HpkeError::CryptoError(format!("Crypto error: {}", e))` of the key schedule
and the exporter. `fmtError` is `Display for Error`, whose implementation (`traits/src/error.rs`)
is not in the sources. -/
def HpkeError.ofDisplay (fmtError : Error → String) (e : Error) : HpkeError :=
  .cryptoError ("Crypto error: " ++ fmtError e)

/-- `HpkePublicKey`. -/
structure HpkePublicKey where
  value : Bytes
  deriving DecidableEq, Repr

/-- `HpkePrivateKey`; its equality is the hand-written `PartialEq` of `PrivateKey.lean`. -/
structure HpkePrivateKey where
  value : Bytes

/-- `Hpke<Crypto>`: the mode and the three algorithms. The `prng` field is not part of it: the
copy a context holds is a fresh one (`Clone` calls `Crypto::prng()`) that no context operation
reads, and the setup functions take the caller's PRNG state as an argument of their own. -/
structure Hpke where
  mode : Mode
  kemId : KemAlgorithm
  kdfId : KdfAlgorithm
  aeadId : AeadAlgorithm
  deriving DecidableEq, Repr

theorem KemAlgorithm.tryFrom_eq_ok_iff {x : UInt16} {k : KemAlgorithm} :
    KemAlgorithm.tryFrom x = .ok k ↔ k.toU16 = x := by
  refine ⟨fun h => ?_, fun h => h ▸ ?_⟩
  · unfold tryFrom at h
    split at h <;> cases h <;> rfl
  · cases k <;> rfl

theorem AeadAlgorithm.tryFrom_eq_ok_iff {x : UInt16} {a : AeadAlgorithm} :
    AeadAlgorithm.tryFrom x = .ok a ↔ a.toU16 = x := by
  refine ⟨fun h => ?_, fun h => h ▸ ?_⟩
  · unfold tryFrom at h
    split at h <;> cases h <;> rfl
  · cases a <;> rfl

theorem KdfAlgorithm.tryFrom_eq_ok_iff {x : UInt16} {k : KdfAlgorithm} :
    KdfAlgorithm.tryFrom x = .ok k ↔ k.toU16 = x := by
  refine ⟨fun h => ?_, fun h => h ▸ ?_⟩
  · unfold tryFrom at h
    split at h <;> cases h <;> rfl
  · cases k <;> rfl

theorem Mode.tryFrom_eq_ok_iff {x : UInt8} {m : Mode} : Mode.tryFrom x = .ok m ↔ m.toU8 = x := by
  refine ⟨fun h => ?_, fun h => h ▸ ?_⟩
  · unfold tryFrom at h
    split at h <;> cases h <;> rfl
  · cases m <;> rfl

end HpkeRs
