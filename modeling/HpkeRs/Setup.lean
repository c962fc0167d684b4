import HpkeRs.KeySchedule

/-! Setting up sender and receiver contexts and the single-shot API (`Hpke::setup_sender`,
`Hpke::setup_receiver`, `Hpke::seal`, `Hpke::open`, `Hpke::send_export`,
`Hpke::receiver_export`, `src/lib.rs` lines 400-594).

The KEM layer (`src/kem.rs`, `src/dh_kem.rs`) is not in the sources; its four entry points are a
parameter `Kem σ`, where `σ` is the state of the configuration's PRNG that encapsulation draws
from. A missing `sk_s` or `pk_s` in an authenticated mode is rejected before the KEM runs; absent
PSK arguments are the empty string (`unwrap_or_default`). A configuration whose AEAD has no
nonce, the export-only one, gets a context on which `seal` and `open` panic
(`keySchedule_seal_open_none`), and so do the single-shot `seal` and `open` once their setup has
succeeded (`seal_open_none_of_setup`). -/

namespace HpkeRs

/-- The entry points of `src/kem.rs` that the setup functions call: `encaps` and `auth_encaps`
take the configuration (`&mut Hpke`, for its KEM and its PRNG) and return the shared secret and
the encapsulation; `decaps` and `auth_decaps` return the shared secret. -/
structure Kem (σ : Type) where
  encaps : Hpke → σ → Bytes → Except HpkeError (Bytes × Bytes) × σ
  authEncaps : Hpke → σ → Bytes → Bytes → Except HpkeError (Bytes × Bytes) × σ
  decaps : KemAlgorithm → Bytes → Bytes → Except HpkeError Bytes
  authDecaps : KemAlgorithm → Bytes → Bytes → Bytes → Except HpkeError Bytes

namespace Hpke

variable (C : HpkeCrypto) (fmtError : Error → String) {σ : Type} (K : Kem σ)

/-- The `let (zz, enc) = match self.mode { .. }` of `setup_sender`. -/
def senderKem (hpke : Hpke) (prng : σ) (pkR : HpkePublicKey) (skS : Option HpkePrivateKey) :
    Except HpkeError (Bytes × Bytes) × σ :=
  match hpke.mode with
  | .base | .psk => K.encaps hpke prng pkR.value
  | .auth | .authPsk =>
      match skS with
      | some s => K.authEncaps hpke prng pkR.value s.value
      | none => (.error .invalidInput, prng)

/-- `Hpke::setup_sender`: the encapsulation and the sender's context, and the PRNG after it. -/
def setupSender (hpke : Hpke) (prng : σ) (pkR : HpkePublicKey) (info : Bytes)
    (psk pskId : Option Bytes) (skS : Option HpkePrivateKey) :
    Except HpkeError (Bytes × Context) × σ :=
  let (kemResult, prng') := hpke.senderKem K prng pkR skS
  ((do
    let (zz, enc) ← kemResult
    let ctx ← hpke.keySchedule C fmtError zz info (psk.getD []) (pskId.getD [])
    pure (enc, ctx)), prng')

/-- The `let zz = match self.mode { .. }` of `setup_receiver`. -/
def receiverKem (hpke : Hpke) (enc : Bytes) (skR : HpkePrivateKey) (pkS : Option HpkePublicKey) :
    Except HpkeError Bytes :=
  match hpke.mode with
  | .base | .psk => K.decaps hpke.kemId enc skR.value
  | .auth | .authPsk =>
      match pkS with
      | some s => K.authDecaps hpke.kemId enc skR.value s.value
      | none => .error .invalidInput

/-- `Hpke::setup_receiver`. -/
def setupReceiver (hpke : Hpke) (enc : Bytes) (skR : HpkePrivateKey) (info : Bytes)
    (psk pskId : Option Bytes) (pkS : Option HpkePublicKey) : Except HpkeError Context := do
  let zz ← hpke.receiverKem K enc skR pkS
  hpke.keySchedule C fmtError zz info (psk.getD []) (pskId.getD [])

/-- `Hpke::seal`, the single-shot encryption; `none` is a panic of `Context::seal`. -/
def «seal» (hpke : Hpke) (prng : σ) (pkR : HpkePublicKey) (info aad plainTxt : Bytes)
    (psk pskId : Option Bytes) (skS : Option HpkePrivateKey) :
    Option (Except HpkeError (Bytes × Bytes) × σ) :=
  match hpke.setupSender C fmtError K prng pkR info psk pskId skS with
  | (.error e, prng') => some (.error e, prng')
  | (.ok (enc, ctx), prng') => (ctx.seal C aad plainTxt).map fun r => (r.1.map (enc, ·), prng')

/-- `Hpke::open`, the single-shot decryption; `none` is a panic of `Context::open`. -/
def «open» (hpke : Hpke) (enc : Bytes) (skR : HpkePrivateKey) (info aad ct : Bytes)
    (psk pskId : Option Bytes) (pkS : Option HpkePublicKey) : Option (Except HpkeError Bytes) :=
  match hpke.setupReceiver C fmtError K enc skR info psk pskId pkS with
  | .error e => some (.error e)
  | .ok ctx => (ctx.open C aad ct).map Prod.fst

/-- `Hpke::send_export`. -/
def sendExport (hpke : Hpke) (prng : σ) (pkR : HpkePublicKey) (info : Bytes)
    (psk pskId : Option Bytes) (skS : Option HpkePrivateKey) (exporterContext : Bytes)
    (length : Nat) : Except HpkeError (Bytes × Bytes) × σ :=
  match hpke.setupSender C fmtError K prng pkR info psk pskId skS with
  | (.error e, prng') => (.error e, prng')
  | (.ok (enc, ctx), prng') => ((ctx.export C fmtError exporterContext length).map (enc, ·), prng')

/-- `Hpke::receiver_export`. -/
def receiverExport (hpke : Hpke) (enc : Bytes) (skR : HpkePrivateKey) (info : Bytes)
    (psk pskId : Option Bytes) (pkS : Option HpkePublicKey) (exporterContext : Bytes)
    (length : Nat) : Except HpkeError Bytes := do
  let ctx ← hpke.setupReceiver C fmtError K enc skR info psk pskId pkS
  ctx.export C fmtError exporterContext length

end Hpke

variable {C : HpkeCrypto} {fmtError : Error → String} {σ : Type} {K : Kem σ} {hpke : Hpke}

theorem setupSender_of_senderKem {prng prng' : σ} {pkR : HpkePublicKey} {info zz enc : Bytes}
    {psk pskId : Option Bytes} {skS : Option HpkePrivateKey}
    (h : hpke.senderKem K prng pkR skS = (.ok (zz, enc), prng')) :
    hpke.setupSender C fmtError K prng pkR info psk pskId skS =
      ((hpke.keySchedule C fmtError zz info (psk.getD []) (pskId.getD [])).map (enc, ·),
        prng') := by
  simp only [Hpke.setupSender, h]
  rfl

theorem setupReceiver_of_receiverKem {enc zz info : Bytes} {skR : HpkePrivateKey}
    {psk pskId : Option Bytes} {pkS : Option HpkePublicKey}
    (h : hpke.receiverKem K enc skR pkS = .ok zz) :
    hpke.setupReceiver C fmtError K enc skR info psk pskId pkS =
      hpke.keySchedule C fmtError zz info (psk.getD []) (pskId.getD []) := by
  simp only [Hpke.setupReceiver, h]
  rfl

/-- For every mode and all byte strings `psk` and `psk_id`: the key schedule passes the PSK check
exactly under the spec's three conditions; a failing check returns the first applicable of the
spec's four errors before anything is derived (whatever the provider, the shared secret and the
info); past the check no PSK error can occur. The setup functions hand the key schedule
`psk.unwrap_or_default()` and `psk_id.unwrap_or_default()`, so `None` and `Some([])` are one
input. -/
theorem keySchedule_psk_validation (C : HpkeCrypto) (fmtError : Error → String) (hpke : Hpke)
    (psk pskId : Bytes) :
    (hpke.verifyPskInputs psk pskId = .ok () ↔ PskInputsValid hpke.mode psk pskId) ∧
    (∀ e, hpke.verifyPskInputs psk pskId = .error e ↔ pskError hpke.mode psk pskId = some e) ∧
    (∀ e, pskError hpke.mode psk pskId = some e → ∀ sharedSecret info,
      hpke.keySchedule C fmtError sharedSecret info psk pskId = .error e) ∧
    (PskInputsValid hpke.mode psk pskId → ∀ sharedSecret info e,
      hpke.keySchedule C fmtError sharedSecret info psk pskId = .error e → ¬e.IsPskError) ∧
    (∀ {σ} (K : Kem σ) prng prng' pkR skS info zz enc (psk' pskId' : Option Bytes),
      psk'.getD [] = psk → pskId'.getD [] = pskId →
      hpke.senderKem K prng pkR skS = (.ok (zz, enc), prng') →
      hpke.setupSender C fmtError K prng pkR info psk' pskId' skS =
        ((hpke.keySchedule C fmtError zz info psk pskId).map (enc, ·), prng')) ∧
    (∀ {σ} (K : Kem σ) enc skR pkS info zz (psk' pskId' : Option Bytes),
      psk'.getD [] = psk → pskId'.getD [] = pskId →
      hpke.receiverKem K enc skR pkS = .ok zz →
      hpke.setupReceiver C fmtError K enc skR info psk' pskId' pkS =
        hpke.keySchedule C fmtError zz info psk pskId) := by
  have hv := verifyPskInputs_eq_pskError hpke psk pskId
  refine ⟨?_, fun e => ?_, fun e he ss info => ?_, fun hvalid ss info e h => ?_,
    fun K _ _ _ _ _ _ _ _ _ h1 h2 hk => h1 ▸ h2 ▸ setupSender_of_senderKem hk,
    fun K _ _ _ _ _ _ _ h1 h2 hk => h1 ▸ h2 ▸ setupReceiver_of_receiverKem hk⟩
  · rw [hv, ← pskError_eq_none_iff]
    cases pskError hpke.mode psk pskId <;> simp
  · rw [hv]
    cases pskError hpke.mode psk pskId <;> simp
  · simp only [Hpke.keySchedule, hv, he]
    rfl
  · rcases keySchedule_eq_error h with h' | h'
    · rw [hv, (pskError_eq_none_iff _ _ _).mpr hvalid] at h'
      cases h'
    · exact h'

/-! ## Export-only configurations -/

theorem setupSender_eq_ok {prng prng' : σ} {pkR : HpkePublicKey} {info enc : Bytes}
    {psk pskId : Option Bytes} {skS : Option HpkePrivateKey} {ctx : Context}
    (h : hpke.setupSender C fmtError K prng pkR info psk pskId skS = (.ok (enc, ctx), prng')) :
    ∃ zz, hpke.keySchedule C fmtError zz info (psk.getD []) (pskId.getD []) = .ok ctx := by
  cases hk : hpke.senderKem K prng pkR skS with
  | mk kemResult _ =>
      simp only [Hpke.setupSender, hk, Prod.mk.injEq] at h
      obtain ⟨⟨zz, _⟩, -, h⟩ := Except.bind_eq_ok.mp h.1
      obtain ⟨_, hks, ⟨⟩⟩ := Except.bind_eq_ok.mp h
      exact ⟨zz, hks⟩

theorem setupReceiver_eq_ok {enc info : Bytes} {skR : HpkePrivateKey} {psk pskId : Option Bytes}
    {pkS : Option HpkePublicKey} {ctx : Context}
    (h : hpke.setupReceiver C fmtError K enc skR info psk pskId pkS = .ok ctx) :
    ∃ zz, hpke.keySchedule C fmtError zz info (psk.getD []) (pskId.getD []) = .ok ctx := by
  obtain ⟨zz, -, h⟩ := Except.bind_eq_ok.mp h
  exact ⟨zz, h⟩

/-- A context the key schedule derives for an AEAD of nonce length 0 has an empty base nonce
(under a provider whose `Expand` returns the requested length), so `compute_nonce` panics in
every `seal` and `open` on it, under any provider. -/
theorem keySchedule_seal_open_none (hC : C.ExpandsToLength)
    (hnn : C.aeadNonceLength hpke.aeadId = 0) {sharedSecret info psk pskId : Bytes} {ctx : Context}
    (h : hpke.keySchedule C fmtError sharedSecret info psk pskId = .ok ctx) :
    ctx.nonce = [] ∧ ∀ (C' : HpkeCrypto) aad input,
      ctx.seal C' aad input = none ∧ ctx.open C' aad input = none := by
  obtain ⟨hnl, -, rfl⟩ := length_nonce_of_keySchedule hC h
  have hnone : ctx.computeNonce = none := Context.computeNonce_eq_none_iff.mpr (by omega)
  exact ⟨List.eq_nil_of_length_eq_zero (hnl.trans hnn), fun _ _ _ =>
    ⟨Option.map_eq_none'.mpr hnone, Option.map_eq_none'.mpr hnone⟩⟩

/-- For such a configuration the single-shot `seal` and `open` panic whenever their setup
succeeds. -/
theorem seal_open_none_of_setup (hC : C.ExpandsToLength)
    (hnn : C.aeadNonceLength hpke.aeadId = 0) {info aad input : Bytes} {psk pskId : Option Bytes} :
    (∀ {prng prng' : σ} {pkR : HpkePublicKey} {skS : Option HpkePrivateKey} {enc : Bytes}
        {ctx : Context},
      hpke.setupSender C fmtError K prng pkR info psk pskId skS = (.ok (enc, ctx), prng') →
      hpke.seal C fmtError K prng pkR info aad input psk pskId skS = none) ∧
    (∀ {enc : Bytes} {skR : HpkePrivateKey} {pkS : Option HpkePublicKey} {ctx : Context},
      hpke.setupReceiver C fmtError K enc skR info psk pskId pkS = .ok ctx →
      hpke.open C fmtError K enc skR info aad input psk pskId pkS = none) := by
  refine ⟨fun h => ?_, fun h => ?_⟩
  · obtain ⟨_, hks⟩ := setupSender_eq_ok h
    simp only [Hpke.seal, h, ((keySchedule_seal_open_none hC hnn hks).2 C aad input).1,
      Option.map_none']
  · obtain ⟨_, hks⟩ := setupReceiver_eq_ok h
    simp only [Hpke.open, h, ((keySchedule_seal_open_none hC hnn hks).2 C aad input).2,
      Option.map_none']

/-- The export-only configuration: the key schedule derives an empty key and base nonce, `seal`
and `open` on the context panic for every provider and every input, and so do the single-shot
`seal` and `open` whenever their setup succeeds. -/
theorem keySchedule_exportOnly_panics :
    let hpke : Hpke := ⟨.base, .dhKem25519, .hkdfSha256, .hpkeExport⟩
    let ctx : Context := ⟨[], [], List.replicate 32 0, 0, hpke⟩
    hpke.keySchedule .plain (fun _ => "") [] [] [] [] = .ok ctx ∧
      (∀ (C : HpkeCrypto) aad input, ctx.seal C aad input = none ∧ ctx.open C aad input = none) ∧
      ∀ {σ : Type} (K : Kem σ) (info aad input : Bytes) (psk pskId : Option Bytes),
        (∀ (prng prng' : σ) pkR skS enc (ctx' : Context),
          hpke.setupSender .plain (fun _ => "") K prng pkR info psk pskId skS =
            (.ok (enc, ctx'), prng') →
          hpke.seal .plain (fun _ => "") K prng pkR info aad input psk pskId skS = none) ∧
        (∀ enc skR pkS (ctx' : Context),
          hpke.setupReceiver .plain (fun _ => "") K enc skR info psk pskId pkS = .ok ctx' →
          hpke.open .plain (fun _ => "") K enc skR info aad input psk pskId pkS = none) := by
  intro hpke ctx
  have hks : hpke.keySchedule .plain (fun _ => "") [] [] [] [] = .ok ctx := rfl
  have hnn : HpkeCrypto.plain.aeadNonceLength hpke.aeadId = 0 := rfl
  exact ⟨hks, (keySchedule_seal_open_none HpkeCrypto.plain_expandsToLength hnn hks).2,
    fun _ _ _ _ _ _ => ⟨fun _ _ _ _ _ _ =>
      (seal_open_none_of_setup HpkeCrypto.plain_expandsToLength hnn).1,
    fun _ _ _ _ => (seal_open_none_of_setup HpkeCrypto.plain_expandsToLength hnn).2⟩⟩

end HpkeRs
