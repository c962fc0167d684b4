import HpkeRs.Crypto

/-! The encryption context (`Context<Crypto>`, `src/lib.rs` lines 214-340): the nonce of the
current message, the message counter, `seal`, `open` and `export`.

`seal` and `open` are one body applied to the provider's two AEAD functions (`aeadCall`), and
everything about them follows from one inversion lemma, `aeadCall_cases`: a call panics exactly
when the nonce cannot be formed, fails with the context unchanged, or succeeds having advanced
only the counter (`aeadCall_frame`). `computeNonce_layout` is the nonce layout of RFC 9180,
Section 5.2, and its injectivity in the counter. -/

namespace HpkeRs

/-- `Context<Crypto>`. -/
structure Context where
  key : Bytes
  nonce : Bytes
  exporterSecret : Bytes
  sequenceNumber : UInt32
  hpke : Hpke
  deriving DecidableEq, Repr

namespace Context

/-- `compute_nonce`. `vec![0u8; self.nonce.len() - seq.len()]` panics (`none`) on a nonce shorter
than the four counter bytes: the `usize` subtraction underflows, which panics under overflow
checks and otherwise asks `vec!` for more than `isize::MAX` bytes, a capacity-overflow panic. -/
def computeNonce (ctx : Context) : Option Bytes :=
  let seq := ctx.sequenceNumber.toBeBytes
  if ctx.nonce.length < seq.length then none
  else some (xorBytes (List.replicate (ctx.nonce.length - seq.length) 0 ++ seq) ctx.nonce)

/-- The limit `(1u128 << (8 * Nn)) - 1` of `increment_seq`; a `u128` shift takes its amount
modulo 128. -/
def messageLimit (nn : Nat) : Nat := 2 ^ (8 * nn % 128) - 1

variable (C : HpkeCrypto)

/-- `increment_seq`. `self.sequence_number += 1` is `u32` addition, which wraps without overflow
checks (a release build); with them it panics at `u32::MAX`. -/
def incrementSeq (ctx : Context) : Except HpkeError Context :=
  if messageLimit (C.aeadNonceLength ctx.hpke.aeadId) ≤ ctx.sequenceNumber.toNat then
    .error .messageLimitReached
  else .ok { ctx with sequenceNumber := ctx.sequenceNumber + 1 }

/-- The body `seal` and `open` share: the AEAD operation `aead` under the key and the current
nonce, then `increment_seq`; each `?` returns its error with the context as it was. `none` is a
panic. -/
def aeadCall (aead : AeadAlgorithm → Bytes → Bytes → Bytes → Bytes → Except Error Bytes)
    (ctx : Context) (aad input : Bytes) : Option (Except HpkeError Bytes × Context) :=
  ctx.computeNonce.map fun nonce =>
    match aead ctx.hpke.aeadId ctx.key nonce aad input with
    | .error e => (.error (.fromError e), ctx)
    | .ok output =>
        match incrementSeq C ctx with
        | .error e => (.error e, ctx)
        | .ok ctx' => (.ok output, ctx')

/-- `Context::seal`. -/
def «seal» (ctx : Context) (aad plainTxt : Bytes) : Option (Except HpkeError Bytes × Context) :=
  aeadCall C C.aeadSeal ctx aad plainTxt

/-- `Context::open`. -/
def «open» (ctx : Context) (aad cipherTxt : Bytes) : Option (Except HpkeError Bytes × Context) :=
  aeadCall C C.aeadOpen ctx aad cipherTxt

/-- `Context::export`: `LabeledExpand(exporter_secret, "sec", exporter_context, L)`. -/
def «export» (fmtError : Error → String) (ctx : Context) (exporterContext : Bytes)
    (length : Nat) : Except HpkeError Bytes :=
  (labeledExpand C ctx.hpke.kdfId ctx.exporterSecret ctx.hpke.ciphersuite "sec" exporterContext
    length).mapError (HpkeError.ofDisplay fmtError)

/-! ## The nonce -/

theorem computeNonce_of_le {ctx : Context} (h : 4 ≤ ctx.nonce.length) :
    ctx.computeNonce = some (xorBytes
      (List.replicate (ctx.nonce.length - 4) 0 ++ ctx.sequenceNumber.toBeBytes) ctx.nonce) := by
  simp [computeNonce, Nat.not_lt.mpr h]

theorem computeNonce_eq_none_iff {ctx : Context} :
    ctx.computeNonce = none ↔ ctx.nonce.length < 4 := by
  by_cases h : ctx.nonce.length < 4 <;> simp [computeNonce, h]

theorem four_le_of_computeNonce {ctx : Context} {nonce : Bytes}
    (h : ctx.computeNonce = some nonce) : 4 ≤ ctx.nonce.length :=
  Nat.le_of_not_lt fun h4 => by rw [computeNonce_eq_none_iff.mpr h4] at h; cases h

theorem xorBytes_comm (a b : Bytes) : xorBytes a b = xorBytes b a :=
  List.zipWith_comm_of_comm _ (fun _ _ => UInt8.eq_of_toBitVec_eq (BitVec.xor_comm _ _)) a b

theorem length_of_computeNonce {ctx : Context} {nonce : Bytes} (h : ctx.computeNonce = some nonce) :
    nonce.length = ctx.nonce.length := by
  simp only [computeNonce, UInt32.length_toBeBytes] at h
  split_ifs at h with hlt
  cases h
  simp only [length_xorBytes, List.length_append, List.length_replicate,
    UInt32.length_toBeBytes]
  omega

/-- Under one base nonce of at least four bytes, the nonce determines the counter. -/
theorem computeNonce_injective {ctx ctx' : Context} (h : 4 ≤ ctx.nonce.length)
    (hn : ctx'.nonce = ctx.nonce) (heq : ctx'.computeNonce = ctx.computeNonce) :
    ctx'.sequenceNumber = ctx.sequenceNumber := by
  have hpad : ∀ q : UInt32,
      (List.replicate (ctx.nonce.length - 4) (0 : UInt8) ++ q.toBeBytes).length =
        ctx.nonce.length := fun q => by simp; omega
  rw [computeNonce_of_le h, computeNonce_of_le (hn ▸ h), hn, Option.some.injEq] at heq
  have := xorBytes_left_injective (hpad _).le (hpad _).le heq
  exact UInt32.toBeBytes_injective (List.append_cancel_left this)

/-- `compute_nonce` on a nonce `b` of at least four bytes is `b XOR (0^(|b|-4) ∥ BE32(seq))`, of
the length of `b`; under one base nonce, distinct counters give distinct nonces. -/
theorem computeNonce_layout (ctx : Context) (h : 4 ≤ ctx.nonce.length) :
    (∃ nonce, ctx.computeNonce = some nonce ∧ nonce.length = ctx.nonce.length ∧
      nonce = xorBytes ctx.nonce
        (List.replicate (ctx.nonce.length - 4) 0 ++ ctx.sequenceNumber.toBeBytes)) ∧
    ∀ ctx' : Context, ctx'.nonce = ctx.nonce → ctx'.computeNonce = ctx.computeNonce →
      ctx'.sequenceNumber = ctx.sequenceNumber :=
  ⟨⟨_, computeNonce_of_le h, length_of_computeNonce (computeNonce_of_le h), xorBytes_comm _ _⟩,
    fun _ => computeNonce_injective h⟩

theorem computeNonce_layout_twelve :
    let ctx : Context := ⟨[], List.replicate 12 7, [], 258,
      ⟨.base, .dhKem25519, .hkdfSha256, .chaCha20Poly1305⟩⟩
    4 ≤ ctx.nonce.length ∧
    (∃ nonce, ctx.computeNonce = some nonce ∧ nonce.length = ctx.nonce.length ∧
      nonce = xorBytes ctx.nonce
        (List.replicate (ctx.nonce.length - 4) 0 ++ ctx.sequenceNumber.toBeBytes)) ∧
    ∀ ctx' : Context, ctx'.nonce = ctx.nonce → ctx'.computeNonce = ctx.computeNonce →
      ctx'.sequenceNumber = ctx.sequenceNumber :=
  ⟨by decide, computeNonce_layout _ (by decide)⟩

/-! ## The counter -/

theorem incrementSeq_eq_ok {ctx ctx' : Context} :
    incrementSeq C ctx = .ok ctx' ↔
      ctx.sequenceNumber.toNat < messageLimit (C.aeadNonceLength ctx.hpke.aeadId) ∧
        ctx' = { ctx with sequenceNumber := ctx.sequenceNumber + 1 } := by
  unfold incrementSeq
  split <;> simp_all [eq_comm]

theorem incrementSeq_eq_error {ctx : Context} {e : HpkeError} :
    incrementSeq C ctx = .error e ↔
      messageLimit (C.aeadNonceLength ctx.hpke.aeadId) ≤ ctx.sequenceNumber.toNat ∧
        e = .messageLimitReached := by
  unfold incrementSeq
  split <;> simp_all [eq_comm]

/-- With a 12-byte nonce length the limit is `2^96 - 1`, above every `u32`: the increment always
succeeds, and at `u32::MAX` it wraps to 0. -/
theorem incrementSeq_of_twelve {ctx : Context} (h : C.aeadNonceLength ctx.hpke.aeadId = 12) :
    incrementSeq C ctx = .ok { ctx with sequenceNumber := ctx.sequenceNumber + 1 } := by
  have := ctx.sequenceNumber.toNat_lt_size
  refine (incrementSeq_eq_ok C).mpr ⟨?_, rfl⟩
  rw [h]
  show ctx.sequenceNumber.toNat < 2 ^ 96 - 1
  simp only [UInt32.size] at this
  omega

/-! ## `seal` and `open` -/

variable {C} {aead : AeadAlgorithm → Bytes → Bytes → Bytes → Bytes → Except Error Bytes}
  {ctx ctx' : Context} {aad input : Bytes} {r : Except HpkeError Bytes}

/-- Everything one `seal` or `open` can do: the nonce is formed, then the AEAD fails, or it
succeeds and the counter is at its limit, or both succeed. -/
theorem aeadCall_cases (h : aeadCall C aead ctx aad input = some (r, ctx')) :
    ∃ nonce, ctx.computeNonce = some nonce ∧
      ((∃ e, aead ctx.hpke.aeadId ctx.key nonce aad input = .error e ∧
          r = .error (.fromError e) ∧ ctx' = ctx) ∨
        (∃ output, aead ctx.hpke.aeadId ctx.key nonce aad input = .ok output ∧
          incrementSeq C ctx = .error .messageLimitReached ∧
          r = .error .messageLimitReached ∧ ctx' = ctx) ∨
        (∃ output, aead ctx.hpke.aeadId ctx.key nonce aad input = .ok output ∧
          incrementSeq C ctx = .ok ctx' ∧ r = .ok output)) := by
  obtain ⟨nonce, hn, hcall⟩ := Option.map_eq_some'.mp h
  refine ⟨nonce, hn, ?_⟩
  split at hcall
  · rename_i e he
    exact .inl ⟨e, he, by cases hcall; exact ⟨rfl, rfl⟩⟩
  · rename_i output ho
    split at hcall
    · rename_i e hinc
      obtain ⟨-, rfl⟩ := (incrementSeq_eq_error C).mp hinc
      exact .inr (.inl ⟨output, ho, hinc, by cases hcall; exact ⟨rfl, rfl⟩⟩)
    · rename_i ctx'' hinc
      cases hcall
      exact .inr (.inr ⟨output, ho, hinc, rfl⟩)

theorem aeadCall_of_error {nonce : Bytes} {e : Error} (hn : ctx.computeNonce = some nonce)
    (he : aead ctx.hpke.aeadId ctx.key nonce aad input = .error e) :
    aeadCall C aead ctx aad input = some (.error (.fromError e), ctx) := by
  simp [aeadCall, hn, he]

theorem aeadCall_of_ok {nonce output : Bytes} (hn : ctx.computeNonce = some nonce)
    (ho : aead ctx.hpke.aeadId ctx.key nonce aad input = .ok output)
    (hinc : incrementSeq C ctx = .ok ctx') :
    aeadCall C aead ctx aad input = some (.ok output, ctx') := by
  simp [aeadCall, hn, ho, hinc]

/-- A call of `aead` that returns `ct` for `pt` is undone by a call of `aead'` that inverts it at
the same key, nonce and aad: it returns `pt`, and the context after it is the same. -/
theorem aeadCall_of_inverse {aead' : AeadAlgorithm → Bytes → Bytes → Bytes → Bytes →
    Except Error Bytes} {pt ct : Bytes}
    (hinv : ∀ nonce, aead ctx.hpke.aeadId ctx.key nonce aad pt = .ok ct →
      aead' ctx.hpke.aeadId ctx.key nonce aad ct = .ok pt)
    (h : aeadCall C aead ctx aad pt = some (.ok ct, ctx')) :
    aeadCall C aead' ctx aad ct = some (.ok pt, ctx') := by
  obtain ⟨_, hn, ⟨_, _, ⟨⟩, -⟩ | ⟨_, _, _, ⟨⟩, -⟩ | ⟨_, hout, hinc, ⟨⟩⟩⟩ :=
    aeadCall_cases h
  exact aeadCall_of_ok hn (hinv _ hout) hinc

/-- What a call returns: an error with the context as it was, or `Ok` with the counter advanced
by one. -/
theorem aeadCall_outcome (h : aeadCall C aead ctx aad input = some (r, ctx')) :
    ∃ nonce, ctx.computeNonce = some nonce ∧
      ((∃ e, r = .error e ∧ ctx' = ctx) ∨
        (∃ out, r = .ok out ∧ ctx' = { ctx with sequenceNumber := ctx.sequenceNumber + 1 })) := by
  obtain ⟨nonce, hn, ⟨-, -, rfl, rfl⟩ | ⟨-, -, -, rfl, rfl⟩ | ⟨out, -, hinc, rfl⟩⟩ :=
    aeadCall_cases h
  · exact ⟨nonce, hn, .inl ⟨_, rfl, rfl⟩⟩
  · exact ⟨nonce, hn, .inl ⟨_, rfl, rfl⟩⟩
  · exact ⟨nonce, hn, .inr ⟨out, rfl, ((incrementSeq_eq_ok C).mp hinc).2⟩⟩

/-- A failed call leaves the context as it was; a successful one changes only the counter. -/
theorem aeadCall_frame (h : aeadCall C aead ctx aad input = some (r, ctx')) :
    (∀ e, r = .error e → ctx' = ctx) ∧
      ctx' = { ctx with sequenceNumber := ctx'.sequenceNumber } := by
  obtain ⟨-, -, ⟨-, rfl, rfl⟩ | ⟨-, rfl, rfl⟩⟩ := aeadCall_outcome h
  · exact ⟨fun _ _ => rfl, rfl⟩
  · exact ⟨fun _ h => (nomatch h), rfl⟩

theorem aeadCall_ok_counter {out : Bytes}
    (h : aeadCall C aead ctx aad input = some (.ok out, ctx')) :
    ctx' = { ctx with sequenceNumber := ctx.sequenceNumber + 1 } := by
  obtain ⟨-, -, ⟨-, ⟨⟩, -⟩ | ⟨-, -, rfl⟩⟩ := aeadCall_outcome h
  rfl

/-- A call that returns `Ok` returns what the AEAD returned at the current nonce. -/
theorem aeadCall_eq_ok {out : Bytes} (h : aeadCall C aead ctx aad input = some (.ok out, ctx')) :
    ∃ nonce, ctx.computeNonce = some nonce ∧
      aead ctx.hpke.aeadId ctx.key nonce aad input = .ok out ∧
      ctx' = { ctx with sequenceNumber := ctx.sequenceNumber + 1 } := by
  obtain ⟨nonce, hn, ⟨-, -, ⟨⟩, -⟩ | ⟨-, -, -, ⟨⟩, -⟩ | ⟨_, hout, hinc, ⟨⟩⟩⟩ := aeadCall_cases h
  exact ⟨nonce, hn, hout, ((incrementSeq_eq_ok C).mp hinc).2⟩

/-- For every context and every input, a `seal` or `open` that returns an error leaves the key,
the nonce, the exporter secret and the counter as they were, and one that returns `Ok` changes
only the counter. -/
theorem seal_open_frame (h : ctx.«seal» C aad input = some (r, ctx') ∨
      ctx.«open» C aad input = some (r, ctx')) :
    (∀ e, r = .error e → ctx' = ctx) ∧
      ctx' = { ctx with sequenceNumber := ctx'.sequenceNumber } :=
  h.elim aeadCall_frame aeadCall_frame

/-- An `open` whose AEAD rejects the ciphertext returns the error with the context as it was. -/
theorem seal_open_frame_rejecting :
    let C : HpkeCrypto :=
      { HpkeCrypto.plain with aeadOpen := fun _ _ _ _ _ => .error .aeadOpenError }
    let ctx : Context := ⟨[], List.replicate 12 0, [], 5,
      ⟨.base, .dhKem25519, .hkdfSha256, .chaCha20Poly1305⟩⟩
    (ctx.seal C [] [1] = some (.error .openError, ctx) ∨
      ctx.open C [] [1] = some (.error .openError, ctx)) ∧
    (∀ e, (.error .openError : Except HpkeError Bytes) = .error e → ctx = ctx) ∧
      ctx = { ctx with sequenceNumber := ctx.sequenceNumber } :=
  have h := Or.inr (by decide)
  ⟨h, seal_open_frame h⟩

end Context

end HpkeRs
