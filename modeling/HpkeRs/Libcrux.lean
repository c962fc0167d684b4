import HpkeRs.KeySchedule

/-! The libcrux provider (`HpkeLibcrux`, `libcrux_provider/src/lib.rs` lines 13-289): HKDF,
ChaCha20-Poly1305 and the algorithm support tables. The crates `libcrux_hkdf` and
`libcrux_chacha20poly1305` are a parameter (`LibcruxPrimitives`).

`aead_open` rejects a ciphertext shorter than the tag with `AeadInvalidCiphertext`, which the
core maps to `InvalidInput`, but a tag that does not verify comes back from
`libcrux_chacha20poly1305::decrypt` as `InvalidCiphertext` and is mapped to
`CryptoLibraryError`, which the core turns into `CryptoError`: `Context::open` never returns
`OpenError` with this provider (`open_ne_openError`, `open_tag_mismatch`). -/

namespace HpkeRs

/-- `libcrux_hkdf::Algorithm`. -/
inductive LibcruxHkdfAlgorithm
  | sha256 | sha384 | sha512
  deriving DecidableEq, Repr

/-- The errors of `libcrux_chacha20poly1305` that the provider tells apart: `InvalidCiphertext`,
returned when the tag does not verify, and the others. -/
inductive AeadError
  | invalidCiphertext | other
  deriving DecidableEq, Repr

/-- The functions of `libcrux_hkdf` and `libcrux_chacha20poly1305` that the provider calls.
An HKDF error is given by its `Debug` rendering. `encrypt` and `decrypt` write into a mutable
slice (the ciphertext buffer, the plaintext buffer), which keeps its length. -/
structure LibcruxPrimitives where
  hkdfExtract : LibcruxHkdfAlgorithm → Bytes → Bytes → Except String Bytes
  hkdfExpand : LibcruxHkdfAlgorithm → Bytes → Bytes → Nat → Except String Bytes
  encrypt : (key msg ctxt aad iv : Bytes) →
    Except AeadError {out : Bytes // out.length = ctxt.length}
  decrypt : (key ptxt ctxt aad iv : Bytes) →
    Except AeadError {out : Bytes // out.length = ptxt.length}

/-- `kdf_algorithm_to_libcrux_hkdf_algorithm`. -/
def kdfAlgorithmToLibcruxHkdfAlgorithm : KdfAlgorithm → LibcruxHkdfAlgorithm
  | .hkdfSha256 => .sha256
  | .hkdfSha384 => .sha384
  | .hkdfSha512 => .sha512

namespace HpkeLibcrux

variable (P : LibcruxPrimitives)

/-- `HpkeLibcrux::kdf_extract`. -/
def kdfExtract (alg : KdfAlgorithm) (salt ikm : Bytes) : Except Error Bytes :=
  (P.hkdfExtract (kdfAlgorithmToLibcruxHkdfAlgorithm alg) salt ikm).mapError
    fun e => .cryptoLibraryError ("KDF extract error: " ++ e)

/-- `HpkeLibcrux::kdf_expand`. -/
def kdfExpand (alg : KdfAlgorithm) (prk info : Bytes) (outputSize : Nat) : Except Error Bytes :=
  (P.hkdfExpand (kdfAlgorithmToLibcruxHkdfAlgorithm alg) prk info outputSize).mapError
    fun e => .cryptoLibraryError ("KDF expand error: " ++ e)

/-- `HpkeLibcrux::aead_seal`: only ChaCha20-Poly1305; the nonce and the key must convert to
`[u8; 12]` and `[u8; 32]`; the output buffer has room for the tag. -/
def aeadSeal (alg : AeadAlgorithm) (key nonce aad msg : Bytes) : Except Error Bytes :=
  if alg ≠ .chaCha20Poly1305 then .error .unknownAeadAlgorithm
  else if nonce.length ≠ 12 then .error .aeadInvalidNonce
  else if key.length ≠ 32 then .error (.cryptoLibraryError "AEAD invalid key length")
  else
    match P.encrypt key msg (List.replicate (msg.length + 16) 0) aad nonce with
    | .error _ => .error (.cryptoLibraryError "Invalid configuration")
    | .ok msgCtx => .ok msgCtx.1

/-- The end of `aead_open`: the `map_err` on the result of `decrypt`, then `Ok(ptext)`. The tag
check's failure, `InvalidCiphertext`, is rendered as `format!("AEAD decryption error: {:?}", e)`. -/
def decryptResult {p : Bytes → Prop} : Except AeadError (Subtype p) → Except Error Bytes
  | .error .invalidCiphertext =>
      .error (.cryptoLibraryError "AEAD decryption error: InvalidCiphertext")
  | .error _ => .error (.cryptoLibraryError "Invalid configuration")
  | .ok ptext => .ok ptext.1

/-- `HpkeLibcrux::aead_open`. -/
def aeadOpen (alg : AeadAlgorithm) (key nonce aad cipherTxt : Bytes) : Except Error Bytes :=
  if alg ≠ .chaCha20Poly1305 then .error .unknownAeadAlgorithm
  else if cipherTxt.length < 16 then .error .aeadInvalidCiphertext
  else
    let boundary := cipherTxt.length - 16
    let ptext := List.replicate boundary 0
    if nonce.length ≠ 12 then .error .aeadInvalidNonce
    else if key.length ≠ 32 then .error (.cryptoLibraryError "AEAD invalid key length")
    else decryptResult (P.decrypt key ptext cipherTxt aad nonce)

/-- `HpkeLibcrux::supports_kdf`. -/
def supportsKdf (_ : KdfAlgorithm) : Except Error Unit := .ok ()

/-- `HpkeLibcrux::supports_kem`. -/
def supportsKem : KemAlgorithm → Except Error Unit
  | .dhKem25519 | .dhKemP256 | .xWingDraft06 => .ok ()
  | _ => .error .unknownKemAlgorithm

/-- `HpkeLibcrux::supports_aead`: the export-only identifier is supported. -/
def supportsAead : AeadAlgorithm → Except Error Unit
  | .aes128Gcm | .aes256Gcm => .error .unknownAeadAlgorithm
  | .chaCha20Poly1305 | .hpkeExport => .ok ()

end HpkeLibcrux

/-- `HpkeLibcrux` as a provider; the length functions are the trait's defaults. -/
def hpkeLibcrux (P : LibcruxPrimitives) : HpkeCrypto where
  kdfExtract := HpkeLibcrux.kdfExtract P
  kdfExpand := HpkeLibcrux.kdfExpand P
  aeadSeal := HpkeLibcrux.aeadSeal P
  aeadOpen := HpkeLibcrux.aeadOpen P

namespace HpkeLibcrux

variable {P : LibcruxPrimitives} {key nonce aad ct : Bytes}

theorem aeadOpen_of_short (h : ct.length < 16) :
    aeadOpen P .chaCha20Poly1305 key nonce aad ct = .error .aeadInvalidCiphertext := by
  simp [aeadOpen, h]

theorem aeadOpen_of_decrypt (hct : 16 ≤ ct.length) (hn : nonce.length = 12)
    (hk : key.length = 32) :
    aeadOpen P .chaCha20Poly1305 key nonce aad ct =
      decryptResult (P.decrypt key (List.replicate (ct.length - 16) 0) ct aad nonce) := by
  simp [aeadOpen, Nat.not_lt.mpr hct, hn, hk]

theorem decryptResult_ne_aeadOpenError {p : Bytes → Prop} (r : Except AeadError (Subtype p)) :
    decryptResult r ≠ .error .aeadOpenError := by
  rcases r with (_ | _) | _ <;> simp [decryptResult]

/-- The provider never reports `AeadOpenError`, the error the core maps to `OpenError`. -/
theorem aeadOpen_ne_aeadOpenError (alg : AeadAlgorithm) :
    aeadOpen P alg key nonce aad ct ≠ .error .aeadOpenError := by
  unfold aeadOpen
  split_ifs <;> simp [decryptResult_ne_aeadOpenError]

end HpkeLibcrux

namespace Context

open HpkeLibcrux

variable {P : LibcruxPrimitives} {ctx : Context} {aad ct : Bytes}

theorem computeNonce_of_twelve (h : ctx.nonce.length = 12) :
    ∃ nonce, ctx.computeNonce = some nonce ∧ nonce.length = 12 := by
  have hn := computeNonce_of_le (show 4 ≤ ctx.nonce.length by omega)
  exact ⟨_, hn, (length_of_computeNonce hn).trans h⟩

/-- With `HpkeLibcrux`, `Context::open` never returns `OpenError`, on any context and input. -/
theorem open_ne_openError {r : Except HpkeError Bytes} {ctx' : Context}
    (h : ctx.open (hpkeLibcrux P) aad ct = some (r, ctx')) : r ≠ .error .openError := by
  obtain ⟨nonce, -, ⟨e, he, rfl, -⟩ | ⟨-, -, -, rfl, -⟩ | ⟨-, -, -, rfl⟩⟩ :=
    aeadCall_cases h
  · intro heq
    cases e <;> simp_all [HpkeError.fromError, hpkeLibcrux, aeadOpen_ne_aeadOpenError]
  · simp
  · simp

/-- A ciphertext shorter than the tag: `InvalidInput`, and the context is unchanged. -/
theorem open_of_short (hc : ctx.hpke.aeadId = .chaCha20Poly1305) (hn : ctx.nonce.length = 12)
    (hct : ct.length < 16) :
    ctx.open (hpkeLibcrux P) aad ct = some (.error .invalidInput, ctx) := by
  obtain ⟨nonce, hnonce, -⟩ := computeNonce_of_twelve hn
  have hopen : (hpkeLibcrux P).aeadOpen ctx.hpke.aeadId ctx.key nonce aad ct =
      .error .aeadInvalidCiphertext := by
    simp only [hpkeLibcrux, hc, aeadOpen_of_short hct]
  exact aeadCall_of_error hnonce hopen

/-- A ChaCha20-Poly1305 context under `HpkeLibcrux`: a ciphertext whose tag
`libcrux_chacha20poly1305::decrypt` rejects gives `CryptoError`, and the context is unchanged. -/
theorem open_tag_mismatch (hc : ctx.hpke.aeadId = .chaCha20Poly1305)
    (hk : ctx.key.length = 32) {nonce : Bytes} (hnonce : ctx.computeNonce = some nonce)
    (hn : nonce.length = 12) (hct : 16 ≤ ct.length)
    (hdec : P.decrypt ctx.key (List.replicate (ct.length - 16) 0) ct aad nonce =
      .error .invalidCiphertext) :
    ctx.open (hpkeLibcrux P) aad ct =
      some (.error (.cryptoError "AEAD decryption error: InvalidCiphertext"), ctx) := by
  have hopen : (hpkeLibcrux P).aeadOpen ctx.hpke.aeadId ctx.key nonce aad ct =
      .error (.cryptoLibraryError "AEAD decryption error: InvalidCiphertext") := by
    simp only [hpkeLibcrux, hc, aeadOpen_of_decrypt hct hn hk, hdec, decryptResult]
  exact aeadCall_of_error hnonce hopen

/-- A `libcrux_chacha20poly1305` whose tag check rejects every ciphertext. -/
def rejectingPrimitives : LibcruxPrimitives where
  hkdfExtract _ _ _ := .ok []
  hkdfExpand _ _ _ n := .ok (List.replicate n 0)
  encrypt _ _ ctxt _ _ := .ok ⟨ctxt, rfl⟩
  decrypt _ _ _ _ _ := .error .invalidCiphertext

/-- A ChaCha20-Poly1305 context with an all-zero key and base nonce. -/
def zeroChaChaContext : Context :=
  { key := List.replicate 32 0, nonce := List.replicate 12 0, exporterSecret := [],
    sequenceNumber := 0, hpke := ⟨.base, .dhKem25519, .hkdfSha256, .chaCha20Poly1305⟩ }

/-- Opening sixteen zero bytes whose tag does not verify: `CryptoError`, not `OpenError`. At
this context no input makes `open` return `OpenError`, whatever `libcrux_chacha20poly1305` does,
and a ciphertext shorter than the tag gives `InvalidInput`. -/
theorem open_tag_mismatch_zero :
    zeroChaChaContext.open (hpkeLibcrux rejectingPrimitives) [] (List.replicate 16 0) =
      some (.error (.cryptoError "AEAD decryption error: InvalidCiphertext"),
        zeroChaChaContext) ∧
    ∀ (P : LibcruxPrimitives) (aad ct : Bytes),
      (∀ r ctx', zeroChaChaContext.open (hpkeLibcrux P) aad ct = some (r, ctx') →
        r ≠ .error .openError) ∧
      (ct.length < 16 → zeroChaChaContext.open (hpkeLibcrux P) aad ct =
        some (.error .invalidInput, zeroChaChaContext)) := by
  obtain ⟨_, hnonce, hn⟩ :=
    computeNonce_of_twelve (show zeroChaChaContext.nonce.length = 12 from rfl)
  exact ⟨open_tag_mismatch rfl rfl hnonce hn (by simp) rfl,
    fun _ _ _ => ⟨fun _ _ => open_ne_openError, open_of_short rfl rfl⟩⟩

end Context

end HpkeRs
