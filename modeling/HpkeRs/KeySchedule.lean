import HpkeRs.Context

/-! The key schedule (`Hpke::verify_psk_inputs`, `Hpke::key_schedule_context` and
`Hpke::key_schedule`, `src/lib.rs` lines 596-698).

The PSK check is compared with the spec's four rules, read as an ordered list (`pskError`), and
with the three conditions under which a PSK is acceptable (`PskInputsValid`). A context the
schedule derives has counter 0, the configuration it ran under, and key, nonce and exporter secret
expanded from one secret (`keySchedule_eq_ok`); when the provider's `Expand` returns the length it
is asked for, its base nonce is `Nn` bytes long (`length_nonce_of_keySchedule`). -/

namespace HpkeRs

namespace Hpke

/-- `Hpke::verify_psk_inputs`. -/
def verifyPskInputs (hpke : Hpke) (psk pskId : Bytes) : Except HpkeError Unit :=
  let gotPsk := !psk.isEmpty
  let gotPskId := !pskId.isEmpty
  if (gotPsk && !gotPskId) || (!gotPsk && gotPskId) then .error .inconsistentPsk
  else if gotPsk && (hpke.mode == .base || hpke.mode == .auth) then .error .unnecessaryPsk
  else if !gotPsk && (hpke.mode == .psk || hpke.mode == .authPsk) then .error .missingPsk
  else if (hpke.mode == .psk || hpke.mode == .authPsk) && psk.length < 32 then
    .error .insecurePsk
  else .ok ()

/-- `Hpke::key_schedule_context`: `mode ∥ psk_id_hash ∥ info_hash`. -/
def keyScheduleContext (C : HpkeCrypto) (hpke : Hpke) (info pskId suiteId : Bytes) :
    Except HpkeError Bytes := do
  let pskIdHash ←
    (labeledExtract C hpke.kdfId [0] suiteId "psk_id_hash" pskId).mapError .fromError
  let infoHash ← (labeledExtract C hpke.kdfId [0] suiteId "info_hash" info).mapError .fromError
  pure (concat [[hpke.mode.toU8], pskIdHash, infoHash])

/-- `Hpke::key_schedule`. -/
def keySchedule (C : HpkeCrypto) (fmtError : Error → String) (hpke : Hpke)
    (sharedSecret info psk pskId : Bytes) : Except HpkeError Context := do
  hpke.verifyPskInputs psk pskId
  let suiteId := hpke.ciphersuite
  let keyScheduleContext ← hpke.keyScheduleContext C info pskId suiteId
  let secret ← (labeledExtract C hpke.kdfId sharedSecret suiteId "secret" psk).mapError
    (.ofDisplay fmtError)
  let key ← (labeledExpand C hpke.kdfId secret suiteId "key" keyScheduleContext
    (C.aeadKeyLength hpke.aeadId)).mapError (.ofDisplay fmtError)
  let baseNonce ← (labeledExpand C hpke.kdfId secret suiteId "base_nonce" keyScheduleContext
    (C.aeadNonceLength hpke.aeadId)).mapError (.ofDisplay fmtError)
  let exporterSecret ← (labeledExpand C hpke.kdfId secret suiteId "exp" keyScheduleContext
    (C.kdfDigestLength hpke.kdfId)).mapError (.ofDisplay fmtError)
  pure { key, nonce := baseNonce, exporterSecret, sequenceNumber := 0, hpke }

end Hpke

/-! ## The PSK rules -/

/-- The modes that take a PSK. -/
def Mode.usesPsk (mode : Mode) : Prop := mode = .psk ∨ mode = .authPsk

instance (mode : Mode) : Decidable mode.usesPsk := inferInstanceAs (Decidable (_ ∨ _))

/-- The spec's acceptable PSK inputs: both or neither given, given exactly in the PSK modes, and
at least 32 bytes there. -/
def PskInputsValid (mode : Mode) (psk pskId : Bytes) : Prop :=
  (psk = [] ↔ pskId = []) ∧ (psk ≠ [] ↔ mode.usesPsk) ∧ (mode.usesPsk → 32 ≤ psk.length)

/-- The spec's four PSK rules in their order; the result is the error of the first that applies. -/
def pskError (mode : Mode) (psk pskId : Bytes) : Option HpkeError :=
  if ¬(psk = [] ↔ pskId = []) then some .inconsistentPsk
  else if psk ≠ [] ∧ pskId ≠ [] ∧ ¬mode.usesPsk then some .unnecessaryPsk
  else if psk = [] ∧ pskId = [] ∧ mode.usesPsk then some .missingPsk
  else if mode.usesPsk ∧ psk.length < 32 then some .insecurePsk
  else none

/-- The four errors of the PSK check. -/
def HpkeError.IsPskError (e : HpkeError) : Prop :=
  e = .inconsistentPsk ∨ e = .unnecessaryPsk ∨ e = .missingPsk ∨ e = .insecurePsk

theorem verifyPskInputs_eq_pskError (hpke : Hpke) (psk pskId : Bytes) :
    hpke.verifyPskInputs psk pskId =
      match pskError hpke.mode psk pskId with
      | some e => .error e
      | none => .ok () := by
  cases hpke with
  | mk mode _ _ _ =>
      cases mode <;> cases psk <;> cases pskId <;>
        simp [Hpke.verifyPskInputs, pskError, Mode.usesPsk] <;> split_ifs <;> rfl

theorem pskError_eq_none_iff (mode : Mode) (psk pskId : Bytes) :
    pskError mode psk pskId = none ↔ PskInputsValid mode psk pskId := by
  cases mode <;> cases psk <;> cases pskId <;>
    simp [pskError, PskInputsValid, Mode.usesPsk]

theorem fromError_not_isPskError (e : Error) : ¬(HpkeError.fromError e).IsPskError := by
  cases e <;> simp [HpkeError.fromError, HpkeError.IsPskError]

theorem ofDisplay_not_isPskError (fmtError : Error → String) (e : Error) :
    ¬(HpkeError.ofDisplay fmtError e).IsPskError := by
  simp [HpkeError.ofDisplay, HpkeError.IsPskError]

/-! ## What the schedule derives -/

/-- The provider's `Expand` returns as many bytes as it is asked for. -/
def HpkeCrypto.ExpandsToLength (C : HpkeCrypto) : Prop :=
  ∀ alg prk info len out, C.kdfExpand alg prk info len = .ok out → out.length = len

theorem HpkeCrypto.plain_expandsToLength : HpkeCrypto.plain.ExpandsToLength := by
  rintro _ _ _ len _ ⟨⟩
  exact List.length_replicate len 0

variable {C : HpkeCrypto} {fmtError : Error → String} {hpke : Hpke}
  {sharedSecret info psk pskId : Bytes}

theorem length_of_labeledExpand (hC : C.ExpandsToLength) {alg : KdfAlgorithm}
    {prk suiteId info out : Bytes} {label : String} {len : Nat}
    (h : labeledExpand C alg prk suiteId label info len = .ok out) : out.length = len :=
  hC _ _ _ _ _ h

theorem keyScheduleContext_eq_error {suiteId : Bytes} {e : HpkeError}
    (h : hpke.keyScheduleContext C info pskId suiteId = .error e) : ∃ e', e = .fromError e' := by
  simp only [Hpke.keyScheduleContext, Except.bind_eq_error, Except.mapError_eq_error,
    Except.mapError_eq_ok] at h
  rcases h with ⟨e', -, rfl⟩ | ⟨_, -, ⟨e', -, rfl⟩ | ⟨_, -, h⟩⟩
  · exact ⟨e', rfl⟩
  · exact ⟨e', rfl⟩
  · cases h

/-- A failure of the key schedule is the PSK check's, or an error that is not a PSK error. -/
theorem keySchedule_eq_error {e : HpkeError}
    (h : hpke.keySchedule C fmtError sharedSecret info psk pskId = .error e) :
    hpke.verifyPskInputs psk pskId = .error e ∨ ¬e.IsPskError := by
  simp only [Hpke.keySchedule, Except.bind_eq_error, Except.mapError_eq_error,
    Except.mapError_eq_ok] at h
  rcases h with h | ⟨_, -, h | ⟨_, -, h⟩⟩
  · exact .inl h
  · obtain ⟨e', rfl⟩ := keyScheduleContext_eq_error h
    exact .inr (fromError_not_isPskError e')
  · rcases h with ⟨e', -, rfl⟩ | ⟨_, -, ⟨e', -, rfl⟩ | ⟨_, -, ⟨e', -, rfl⟩ | ⟨_, -,
      ⟨e', -, rfl⟩ | ⟨_, -, h⟩⟩⟩⟩ <;>
      first | exact .inr (ofDisplay_not_isPskError fmtError e') | cases h

/-- A successful key schedule: counter 0, the configuration it ran under, and the key, base nonce
and exporter secret expanded from one secret and one key schedule context. -/
theorem keySchedule_eq_ok {ctx : Context}
    (h : hpke.keySchedule C fmtError sharedSecret info psk pskId = .ok ctx) :
    ctx.sequenceNumber = 0 ∧ ctx.hpke = hpke ∧ ∃ secret ksc,
      labeledExpand C hpke.kdfId secret hpke.ciphersuite "key" ksc
        (C.aeadKeyLength hpke.aeadId) = .ok ctx.key ∧
      labeledExpand C hpke.kdfId secret hpke.ciphersuite "base_nonce" ksc
        (C.aeadNonceLength hpke.aeadId) = .ok ctx.nonce ∧
      labeledExpand C hpke.kdfId secret hpke.ciphersuite "exp" ksc
        (C.kdfDigestLength hpke.kdfId) = .ok ctx.exporterSecret := by
  simp only [Hpke.keySchedule, Except.bind_eq_ok, Except.mapError_eq_ok] at h
  obtain ⟨_, -, ksc, -, secret, -, key, hkey, nonce, hnonce, exp, hexp, h⟩ := h
  cases h
  exact ⟨rfl, rfl, secret, ksc, hkey, hnonce, hexp⟩

/-- The base nonce of a derived context has the AEAD's nonce length. -/
theorem length_nonce_of_keySchedule (hC : C.ExpandsToLength) {ctx : Context}
    (h : hpke.keySchedule C fmtError sharedSecret info psk pskId = .ok ctx) :
    ctx.nonce.length = C.aeadNonceLength hpke.aeadId ∧ ctx.sequenceNumber = 0 ∧
      ctx.hpke = hpke := by
  obtain ⟨hseq, rfl, _, _, -, hnonce, -⟩ := keySchedule_eq_ok h
  exact ⟨length_of_labeledExpand hC hnonce, hseq, rfl⟩

end HpkeRs
