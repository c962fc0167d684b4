import HpkeRs.Libcrux

/-! The key-encapsulation side of the libcrux provider (`HpkeLibcrux::dh`, `secret_to_public`,
`kem_key_gen`, `kem_key_gen_derand`, `kem_encaps`, `kem_decaps`, `dh_validate_sk` and their
helpers, `libcrux_provider/src/lib.rs` lines 46-131 and 242-289). The crates `libcrux_ecdh` and
`libcrux_kem` are a parameter (`LibcruxKemPrimitives`), over the state `σ` of the generator that
they draw from.

`libcrux_kem` returns key pairs as `(sk, pk)`, which the provider turns around to `(pk, sk)`; a
P-256 public key is the curve's raw `X ∥ Y` behind `0x04` (`nist_format_uncompressed`) and a P-256
shared secret is the first 32 bytes of the raw output. Every function answers an algorithm that
`supports_kem` rejects with `UnknownKemAlgorithm` before the generator is drawn from. -/

namespace HpkeRs

/-- `libcrux_ecdh::Algorithm`, as far as the provider names it. -/
inductive LibcruxEcdhAlgorithm
  | x25519 | p256
  deriving DecidableEq, Repr

/-- `libcrux_kem::Algorithm`, as far as the provider names it. -/
inductive LibcruxKemAlgorithm
  | x25519 | secp256r1 | xWingKemDraft06
  deriving DecidableEq, Repr

/-- The functions of `libcrux_ecdh` and `libcrux_kem` that the provider calls, over the state `σ`
of the generator. An error is given by its `Debug` rendering, a decoded key or ciphertext by the
bytes it decodes, and `key_gen` returns `(sk, pk)` encoded. -/
structure LibcruxKemPrimitives (σ : Type) where
  derive : LibcruxEcdhAlgorithm → Bytes → Bytes → Except String Bytes
  secretToPublic : LibcruxEcdhAlgorithm → Bytes → Except String Bytes
  generateSecret : LibcruxEcdhAlgorithm → σ → Except String Bytes × σ
  validateScalarSlice : Bytes → Except String Bytes
  keyGen : LibcruxKemAlgorithm → σ → Except String (Bytes × Bytes) × σ
  keyGenDerand : LibcruxKemAlgorithm → Bytes → Except String (Bytes × Bytes)
  publicKeyDecode : LibcruxKemAlgorithm → Bytes → Option Bytes
  encapsulate : LibcruxKemAlgorithm → Bytes → σ → Except String (Bytes × Bytes) × σ
  ctDecode : LibcruxKemAlgorithm → Bytes → Option Bytes
  privateKeyDecode : LibcruxKemAlgorithm → Bytes → Option Bytes
  decapsulate : LibcruxKemAlgorithm → Bytes → Bytes → Except String Bytes

namespace HpkeLibcrux

/-- `kem_key_type_to_libcrux_alg`. -/
def kemKeyTypeToLibcruxAlg : KemAlgorithm → Except Error LibcruxKemAlgorithm
  | .dhKem25519 => .ok .x25519
  | .dhKemP256 => .ok .secp256r1
  | .xWingDraft06 => .ok .xWingKemDraft06
  | _ => .error .unknownKemAlgorithm

/-- `kem_key_type_to_ecdh_alg`. -/
def kemKeyTypeToEcdhAlg : KemAlgorithm → Except Error LibcruxEcdhAlgorithm
  | .dhKem25519 => .ok .x25519
  | .dhKemP256 => .ok .p256
  | _ => .error .unknownKemAlgorithm

/-- `nist_format_uncompressed`: `0x04` in front of the point. -/
def nistFormatUncompressed (pk : Bytes) : Bytes := 0x04 :: pk

variable {σ : Type} (Q : LibcruxKemPrimitives σ)

/-- `kem_ecdh_secret_to_public`. -/
def kemEcdhSecretToPublic (alg : LibcruxEcdhAlgorithm) (sk : Bytes) : Except Error Bytes :=
  ((Q.secretToPublic alg sk).mapError
    fun e => .cryptoLibraryError ("ECDH derive base error: " ++ e)).map
    fun p => if alg = .p256 then nistFormatUncompressed p else p

/-- `HpkeLibcrux::dh`; `p.truncate(32)` keeps the first 32 bytes. -/
def dh (alg : KemAlgorithm) (pk sk : Bytes) : Except Error Bytes := do
  let alg ← kemKeyTypeToEcdhAlg alg
  ((Q.derive alg pk sk).mapError fun e => .cryptoLibraryError ("ECDH derive error: " ++ e)).map
    fun p => if alg = .p256 then p.take 32 else p

/-- `HpkeLibcrux::secret_to_public`. -/
def secretToPublic (alg : KemAlgorithm) (sk : Bytes) : Except Error Bytes := do
  let alg ← kemKeyTypeToEcdhAlg alg
  kemEcdhSecretToPublic Q alg sk

/-- `HpkeLibcrux::kem_key_gen`: `(pk, sk)`, and the generator after the draw. -/
def kemKeyGen (alg : KemAlgorithm) (prng : σ) : Except Error (Bytes × Bytes) × σ :=
  match alg with
  | .xWingDraft06 =>
      let (r, prng') := Q.keyGen .xWingKemDraft06 prng
      (((r.map fun (sk, pk) => (pk, sk)).mapError
        fun e => .cryptoLibraryError ("KEM key gen error: " ++ e)), prng')
  | other =>
      match kemKeyTypeToEcdhAlg other with
      | .error e => (.error e, prng)
      | .ok ecdhAlg =>
          match Q.generateSecret ecdhAlg prng with
          | (.error e, prng') => (.error (.cryptoLibraryError ("KEM key gen error: " ++ e)), prng')
          | (.ok sk, prng') => ((kemEcdhSecretToPublic Q ecdhAlg sk).map fun pk => (pk, sk), prng')

/-- `HpkeLibcrux::kem_key_gen_derand`: `(pk, sk)`. -/
def kemKeyGenDerand (alg : KemAlgorithm) (seed : Bytes) : Except Error (Bytes × Bytes) := do
  let alg ← kemKeyTypeToLibcruxAlg alg
  ((Q.keyGenDerand alg seed).mapError
    fun e => .cryptoLibraryError ("KEM key gen error: " ++ e)).map fun (sk, pk) => (pk, sk)

/-- `HpkeLibcrux::kem_encaps`: `(shared secret, encapsulation)`, and the generator after it. -/
def kemEncaps (alg : KemAlgorithm) (pkR : Bytes) (prng : σ) : Except Error (Bytes × Bytes) × σ :=
  match kemKeyTypeToLibcruxAlg alg with
  | .error e => (.error e, prng)
  | .ok alg =>
      match Q.publicKeyDecode alg pkR with
      | none => (.error .kemInvalidPublicKey, prng)
      | some pk =>
          let (r, prng') := Q.encapsulate alg pk prng
          (r.mapError fun e => .cryptoLibraryError ("Encaps error " ++ e), prng')

/-- `HpkeLibcrux::kem_decaps`. A ciphertext that does not decode is reported as
`AeadInvalidCiphertext`. -/
def kemDecaps (alg : KemAlgorithm) (ct skR : Bytes) : Except Error Bytes := do
  let alg ← kemKeyTypeToLibcruxAlg alg
  match Q.ctDecode alg ct, Q.privateKeyDecode alg skR with
  | none, _ => .error .aeadInvalidCiphertext
  | some _, none => .error .kemInvalidSecretKey
  | some ct, some sk =>
      (Q.decapsulate alg ct sk).mapError fun e => .cryptoLibraryError ("Decaps error " ++ e)

/-- `HpkeLibcrux::dh_validate_sk`: only P-256. -/
def dhValidateSk (alg : KemAlgorithm) (sk : Bytes) : Except Error Bytes :=
  match alg with
  | .dhKemP256 => (Q.validateScalarSlice sk).mapError
      fun e => .cryptoLibraryError ("ECDH invalid sk error: " ++ e)
  | _ => .error .unknownKemAlgorithm

end HpkeLibcrux

end HpkeRs
