import HpkeRs.Types
import Mathlib.Data.Nat.Bitwise
import Mathlib.Data.String.Basic

/-! The provider interface and the byte helpers the core builds on. A provider (`HpkeCrypto`) is
the record of the trait's functions that the key schedule and the context call. The files
`src/util.rs`, `src/kdf.rs` and `traits/src/lib.rs` are not in the sources: `concat`,
`xorBytes`, `labeledExtract`, `labeledExpand` and the trait's default length functions are
modelled from the spec (RFC 9180, Sections 4 and 5.2). -/

/-- `u16::to_be_bytes`: the two bytes of `x`, most significant first. -/
def UInt16.toBeBytes (x : UInt16) : List UInt8 :=
  [UInt8.ofNat (x.toNat / 2 ^ 8), UInt8.ofNat x.toNat]

/-- `u32::to_be_bytes`: the four bytes of `x`, most significant first. -/
def UInt32.toBeBytes (x : UInt32) : List UInt8 :=
  [UInt8.ofNat (x.toNat / 2 ^ 24), UInt8.ofNat (x.toNat / 2 ^ 16),
    UInt8.ofNat (x.toNat / 2 ^ 8), UInt8.ofNat x.toNat]

namespace HpkeRs

/-- Modelled from the spec: `KdfAlgorithm`'s digest length `Nh`, the trait default of
`HpkeCrypto::kdf_digest_length`. -/
def KdfAlgorithm.digestLength : KdfAlgorithm → Nat
  | .hkdfSha256 => 32
  | .hkdfSha384 => 48
  | .hkdfSha512 => 64

/-- The trait `HpkeCrypto`, as far as the key schedule and the context use it. The three length
functions are provided methods of the trait; their defaults are the algorithms' declared sizes. -/
structure HpkeCrypto where
  kdfExtract : KdfAlgorithm → Bytes → Bytes → Except Error Bytes
  kdfExpand : KdfAlgorithm → Bytes → Bytes → Nat → Except Error Bytes
  kdfDigestLength : KdfAlgorithm → Nat := KdfAlgorithm.digestLength
  aeadSeal : AeadAlgorithm → Bytes → Bytes → Bytes → Bytes → Except Error Bytes
  aeadOpen : AeadAlgorithm → Bytes → Bytes → Bytes → Bytes → Except Error Bytes
  aeadKeyLength : AeadAlgorithm → Nat := AeadAlgorithm.keyLength
  aeadNonceLength : AeadAlgorithm → Nat := AeadAlgorithm.nonceLength

/-- A provider whose AEAD passes messages through unchanged and whose `Expand` returns zero
bytes of the requested length: the AEAD's correctness law holds for it, so the model's theorems
can be instantiated at fixed inputs with it. -/
def HpkeCrypto.plain : HpkeCrypto where
  kdfExtract _ _ ikm := .ok ikm
  kdfExpand _ _ _ len := .ok (List.replicate len 0)
  aeadSeal _ _ _ _ pt := .ok pt
  aeadOpen _ _ _ _ ct := .ok ct

/-- The AEAD's correctness law: what `seal` returns under a key, a nonce and an aad, `open`
turns back into the plaintext. -/
def HpkeCrypto.AeadCorrect (C : HpkeCrypto) : Prop :=
  ∀ alg key nonce aad pt ct, C.aeadSeal alg key nonce aad pt = .ok ct →
    C.aeadOpen alg key nonce aad ct = .ok pt

theorem HpkeCrypto.plain_aeadCorrect : HpkeCrypto.plain.AeadCorrect := by
  rintro _ _ _ _ _ _ ⟨⟩
  rfl

/-- Modelled from the spec: `util::concat`, the concatenation of a list of byte strings. -/
def concat (xs : List Bytes) : Bytes := xs.flatten

/-- Modelled from the spec: `util::xor_bytes`, the byte-wise XOR of two byte strings. -/
def xorBytes (a b : Bytes) : Bytes := List.zipWith (· ^^^ ·) a b

/-- The version label `"HPKE-v1"` of RFC 9180. -/
def hpkeVersion : Bytes := "HPKE-v1".toUTF8.toList

/-- Modelled from the spec: `kdf::labeled_extract`, RFC 9180's
`LabeledExtract(salt, label, ikm) = Extract(salt, "HPKE-v1" ∥ suite_id ∥ label ∥ ikm)`. -/
def labeledExtract (C : HpkeCrypto) (alg : KdfAlgorithm) (salt suiteId : Bytes) (label : String)
    (ikm : Bytes) : Except Error Bytes :=
  C.kdfExtract alg salt (concat [hpkeVersion, suiteId, label.toUTF8.toList, ikm])

/-- Modelled from the spec: `kdf::labeled_expand`, RFC 9180's
`LabeledExpand(prk, label, info, L) =
Expand(prk, I2OSP(L, 2) ∥ "HPKE-v1" ∥ suite_id ∥ label ∥ info, L)`.
`I2OSP(L, 2)` is taken as the two low bytes of `L`, which it is for every `L < 2^16`. -/
def labeledExpand (C : HpkeCrypto) (alg : KdfAlgorithm) (prk suiteId : Bytes) (label : String)
    (info : Bytes) (len : Nat) : Except Error Bytes :=
  C.kdfExpand alg prk
    (concat [(UInt16.ofNat len).toBeBytes, hpkeVersion, suiteId, label.toUTF8.toList, info]) len

/-- `Hpke::ciphersuite`: `"HPKE" ∥ I2OSP(kem_id, 2) ∥ I2OSP(kdf_id, 2) ∥ I2OSP(aead_id, 2)`. -/
def Hpke.ciphersuite (hpke : Hpke) : Bytes :=
  concat ["HPKE".toUTF8.toList, hpke.kemId.toU16.toBeBytes, hpke.kdfId.toU16.toBeBytes,
    hpke.aeadId.toU16.toBeBytes]

@[simp] theorem UInt8.toNat_ofNat' (n : Nat) : (UInt8.ofNat n).toNat = n % 256 :=
  BitVec.toNat_ofNat ..

@[simp] theorem length_xorBytes (a b : Bytes) :
    (xorBytes a b).length = min a.length b.length := List.length_zipWith ..

theorem xor_xor_cancel (a b : UInt8) : a ^^^ b ^^^ b = a :=
  UInt8.eq_of_toBitVec_eq (by
    show a.toBitVec ^^^ b.toBitVec ^^^ b.toBitVec = a.toBitVec
    rw [BitVec.xor_assoc, BitVec.xor_self, BitVec.xor_zero])

/-- XOR with a fixed string is its own inverse on strings no longer than it. -/
theorem xorBytes_xorBytes {a b : Bytes} (h : a.length ≤ b.length) :
    xorBytes (xorBytes a b) b = a := by
  induction a generalizing b with
  | nil => rfl
  | cons x a ih =>
      cases b with
      | nil => simp at h
      | cons y b =>
          simp only [xorBytes, List.zipWith_cons_cons] at ih ⊢
          rw [xor_xor_cancel, ih (by simpa using h)]

theorem xorBytes_left_injective {a a' b : Bytes} (ha : a.length ≤ b.length)
    (ha' : a'.length ≤ b.length) (h : xorBytes a b = xorBytes a' b) : a = a' := by
  rw [← xorBytes_xorBytes ha, ← xorBytes_xorBytes ha', h]

theorem UInt32.toBeBytes_injective {x y : UInt32} (h : x.toBeBytes = y.toBeBytes) : x = y := by
  simp only [UInt32.toBeBytes, List.cons.injEq, and_true] at h
  obtain ⟨h24, h16, h8, h0⟩ := h
  have hx := x.toNat_lt_size
  have hy := y.toNat_lt_size
  replace h24 := congrArg UInt8.toNat h24
  replace h16 := congrArg UInt8.toNat h16
  replace h8 := congrArg UInt8.toNat h8
  replace h0 := congrArg UInt8.toNat h0
  simp only [UInt8.toNat_ofNat', UInt32.size] at h24 h16 h8 h0 hx hy
  exact UInt32.toNat.inj (by omega)

theorem Except.bind_eq_ok {ε α β : Type} {x : Except ε α} {f : α → Except ε β} {b : β} :
    x >>= f = .ok b ↔ ∃ a, x = .ok a ∧ f a = .ok b := by
  cases x <;> simp [bind, Except.bind]

theorem Except.bind_eq_error {ε α β : Type} {x : Except ε α} {f : α → Except ε β} {e : ε} :
    x >>= f = .error e ↔ x = .error e ∨ ∃ a, x = .ok a ∧ f a = .error e := by
  cases x <;> simp [bind, Except.bind]

@[simp] theorem Except.mapError_eq_ok {ε ε' α : Type} {x : Except ε α} {g : ε → ε'} {a : α} :
    x.mapError g = .ok a ↔ x = .ok a := by
  cases x <;> simp [Except.mapError]

theorem Except.mapError_eq_error {ε ε' α : Type} {x : Except ε α} {g : ε → ε'} {e : ε'} :
    x.mapError g = .error e ↔ ∃ e', x = .error e' ∧ g e' = e := by
  cases x <;> simp [Except.mapError]

theorem Except.map_eq_ok {ε α β : Type} {x : Except ε α} {f : α → β} {b : β} :
    x.map f = .ok b ↔ ∃ a, x = .ok a ∧ f a = b := by
  cases x <;> simp [Except.map]

@[simp] theorem UInt32.length_toBeBytes (x : UInt32) : x.toBeBytes.length = 4 := rfl

end HpkeRs
