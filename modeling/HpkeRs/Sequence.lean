import HpkeRs.KeySchedule
import Mathlib.Data.List.Nodup

/-! Runs of `seal` and `open` on one context and the nonces they hand to the AEAD.

A call that fails leaves the context as it was, and one that succeeds adds one to the `u32`
counter, so after a run the counter has advanced by the number of successful calls modulo
`2^32`, and the `i`-th successful call used the nonce of counter `seq + i` (`run_spec`). Up to
`2^32` successful calls the nonces are therefore pairwise distinct (`run_nonces_nodup`). With a
12-byte nonce the limit check of `increment_seq` compares against `2^96 - 1`, which a `u32` never
reaches: the `2^32`-th successful call wraps the counter to where it started, and the next
seal reuses the first nonce (`seal_run_reuses_nonce`). -/

namespace HpkeRs

/-- A call on a context: `seal(aad, plain_txt)` or `open(aad, cipher_txt)`. -/
inductive Call
  | seal (aad plainTxt : Bytes)
  | «open» (aad cipherTxt : Bytes)

theorem UInt32.toNat_ofNat' (n : Nat) : (UInt32.ofNat n).toNat = n % 2 ^ 32 :=
  BitVec.toNat_ofNat ..

theorem UInt32.add_one_add_ofNat (q : UInt32) (i : Nat) :
    q + 1 + UInt32.ofNat i = q + UInt32.ofNat (i + 1) := by
  apply UInt32.toNat.inj
  simp only [UInt32.toNat_add, UInt32.size, UInt32.toNat_ofNat',
    show (1 : UInt32).toNat = 1 from rfl]
  omega

theorem UInt32.add_ofNat_add_one (q : UInt32) (i : Nat) :
    q + UInt32.ofNat i + 1 = q + UInt32.ofNat (i + 1) := by
  apply UInt32.toNat.inj
  simp only [UInt32.toNat_add, UInt32.size, UInt32.toNat_ofNat',
    show (1 : UInt32).toNat = 1 from rfl]
  omega

theorem UInt32.add_ofNat_zero (q : UInt32) : q + UInt32.ofNat 0 = q := by
  apply UInt32.toNat.inj
  simp only [UInt32.toNat_add, UInt32.size, UInt32.toNat_ofNat']
  have : q.toNat < 4294967296 := q.toNat_lt_size
  omega

namespace Context

variable (C : HpkeCrypto)

/-- One call on the context. -/
def apply (ctx : Context) : Call → Option (Except HpkeError Bytes × Context)
  | .seal aad plainTxt => ctx.seal C aad plainTxt
  | .open aad cipherTxt => ctx.open C aad cipherTxt

/-- The calls in order: the nonces of the calls that return `Ok`, and the context after the last
call; `none` if a call panics. -/
def run : Context → List Call → Option (List Bytes × Context)
  | ctx, [] => some ([], ctx)
  | ctx, call :: calls =>
      match ctx.apply C call, ctx.computeNonce with
      | some (.ok _, ctx'), some nonce => (run ctx' calls).map fun (ns, c) => (nonce :: ns, c)
      | some (.error _, ctx'), some _ => run ctx' calls
      | _, _ => none

/-- The nonce of counter `q` under the context's base nonce. -/
def nonceAt (ctx : Context) (q : UInt32) : Option Bytes :=
  { ctx with sequenceNumber := q }.computeNonce

variable {C} {ctx ctx' : Context}

/-- One call: it fails with the context unchanged, or succeeds with the counter advanced. -/
theorem apply_cases {call : Call} {r : Except HpkeError Bytes}
    (h : ctx.apply C call = some (r, ctx')) :
    ∃ nonce, ctx.computeNonce = some nonce ∧
      ((∃ e, r = .error e ∧ ctx' = ctx) ∨
        (∃ out, r = .ok out ∧ ctx' = { ctx with sequenceNumber := ctx.sequenceNumber + 1 })) := by
  cases call <;> exact aeadCall_outcome h

/-- The run lemma: the counter after a run, and the nonce of every successful call. -/
theorem run_spec {calls : List Call} {ns : List Bytes} (h : ctx.run C calls = some (ns, ctx')) :
    ctx' = { ctx with sequenceNumber := ctx.sequenceNumber + UInt32.ofNat ns.length } ∧
      ns.map some = (List.range ns.length).map
        fun i => ctx.nonceAt (ctx.sequenceNumber + UInt32.ofNat i) := by
  induction calls generalizing ctx ns with
  | nil =>
      cases h
      exact ⟨by rw [List.length_nil, UInt32.add_ofNat_zero], rfl⟩
  | cons call calls ih =>
      simp only [run] at h
      cases happ : ctx.apply C call with
      | none => simp [happ] at h
      | some p =>
          obtain ⟨r, c⟩ := p
          obtain ⟨nonce, hnonce, ⟨e, rfl, rfl⟩ | ⟨out, rfl, rfl⟩⟩ := apply_cases happ
          · simp only [happ, hnonce] at h
            exact ih h
          · simp only [happ, hnonce, Option.map_eq_some', Prod.mk.injEq] at h
            obtain ⟨⟨ns', c'⟩, hrun, rfl, rfl⟩ := h
            obtain ⟨rfl, hns⟩ := ih hrun
            refine ⟨by simp only [List.length_cons, UInt32.add_one_add_ofNat], ?_⟩
            simp only [List.map_cons, hns, List.length_cons, List.range_succ_eq_map, List.map_map]
            refine congrArg₂ _ ?_ (List.map_congr_left fun i _ => ?_)
            · simp only [nonceAt, UInt32.add_ofNat_zero, hnonce]
            · simp only [Function.comp, nonceAt, UInt32.add_one_add_ofNat]

theorem apply_isSome_iff (call : Call) : (ctx.apply C call).isSome ↔ 4 ≤ ctx.nonce.length := by
  cases call <;> simp [apply, Context.seal, Context.open, aeadCall, Option.isSome_map,
    Option.isSome_iff_ne_none, computeNonce_eq_none_iff]

theorem run_isSome_iff (calls : List Call) :
    (ctx.run C calls).isSome ↔ calls = [] ∨ 4 ≤ ctx.nonce.length := by
  induction calls generalizing ctx with
  | nil => simp [run]
  | cons call calls ih =>
      simp only [run, List.cons_ne_nil, false_or]
      cases happ : ctx.apply C call with
      | none =>
          have h4 := (@apply_isSome_iff C ctx call).not.mp (by simp [happ])
          simp [h4]
      | some p =>
          obtain ⟨r, c⟩ := p
          have h4 := (@apply_isSome_iff C ctx call).mp (by simp [happ])
          obtain ⟨nonce, hnonce, ⟨e, rfl, rfl⟩ | ⟨out, rfl, rfl⟩⟩ := apply_cases happ
          all_goals simp [hnonce, ih, h4]

/-- For every context and every sequence of `seal` and `open` calls: the calls run to the end
without a panic exactly when the base nonce has at least four bytes (or there are none). The
context after them differs from the one before only in its counter, which has advanced by the
number of calls that returned `Ok`, modulo `2^32`; every secret it exports is the same. This is
the release build, where `sequence_number += 1` wraps (`incrementSeq`); with overflow checks, as
in a debug build, a successful call at `u32::MAX` panics instead. -/
theorem run_completes_frame (calls : List Call) :
    ((ctx.run C calls).isSome ↔ calls = [] ∨ 4 ≤ ctx.nonce.length) ∧
    ∀ ns ctx', ctx.run C calls = some (ns, ctx') →
      ctx' = { ctx with sequenceNumber := ctx.sequenceNumber + UInt32.ofNat ns.length } ∧
      ctx'.sequenceNumber.toNat = (ctx.sequenceNumber.toNat + ns.length) % 2 ^ 32 ∧
      ∀ fmtError exporterContext length,
        ctx'.export C fmtError exporterContext length =
          ctx.export C fmtError exporterContext length := by
  refine ⟨run_isSome_iff calls, fun ns ctx' h => ?_⟩
  obtain ⟨rfl, -⟩ := run_spec h
  refine ⟨rfl, ?_, fun _ _ _ => rfl⟩
  simp only [UInt32.toNat_add, UInt32.size, UInt32.toNat_ofNat']
  omega

/-- Below the wrap, distinct offsets from the counter give distinct nonces. -/
theorem nonceAt_injective (hn : 4 ≤ ctx.nonce.length) {i j : Nat} (hi : i < 2 ^ 32)
    (hj : j < 2 ^ 32)
    (h : ctx.nonceAt (ctx.sequenceNumber + UInt32.ofNat i) =
      ctx.nonceAt (ctx.sequenceNumber + UInt32.ofNat j)) : i = j := by
  have hq := @computeNonce_injective
    { ctx with sequenceNumber := ctx.sequenceNumber + UInt32.ofNat j }
    { ctx with sequenceNumber := ctx.sequenceNumber + UInt32.ofNat i } hn rfl h
  have := congrArg UInt32.toNat hq
  simp only [UInt32.toNat_add, UInt32.size, UInt32.toNat_ofNat'] at this
  omega

/-- Up to `2^32` successful calls from one context, the nonces they use are pairwise distinct. -/
theorem run_nonces_nodup {calls : List Call} {ns : List Bytes}
    (h : ctx.run C calls = some (ns, ctx')) (hn : 4 ≤ ctx.nonce.length)
    (hlen : ns.length ≤ 2 ^ 32) :
    ns.Nodup := by
  apply List.Nodup.of_map some
  rw [(run_spec h).2]
  exact (List.nodup_range _).map_on fun i hi j hj hij =>
    nonceAt_injective hn (by simp at hi; omega) (by simp at hj; omega) hij

theorem run_nonces_nodup_plain :
    let ctx : Context := ⟨[], List.replicate 12 0, [], 0,
      ⟨.base, .dhKem25519, .hkdfSha256, .chaCha20Poly1305⟩⟩
    let ns : List Bytes := [List.replicate 12 0, List.replicate 11 0 ++ [1]]
    ctx.run .plain [.seal [] [1], .open [] [1]] = some (ns, { ctx with sequenceNumber := 2 }) ∧
      4 ≤ ctx.nonce.length ∧ ns.length ≤ 2 ^ 32 ∧ ns.Nodup := by
  intro ctx ns
  have hrun : ctx.run .plain [.seal [] [1], .open [] [1]] =
      some (ns, { ctx with sequenceNumber := 2 }) := by decide
  exact ⟨hrun, by decide, by decide, run_nonces_nodup hrun (by decide) (by decide)⟩

/-- With an AEAD whose `seal` succeeds and a 12-byte nonce length, `n` seals run to the end and
all succeed. -/
theorem run_replicate_seal
    (hseal : ∀ alg key nonce aad pt, ∃ ct, C.aeadSeal alg key nonce aad pt = .ok ct)
    (h12 : C.aeadNonceLength ctx.hpke.aeadId = 12) (hn : 4 ≤ ctx.nonce.length) (aad pt : Bytes)
    (n : Nat) :
    ∃ ns ctx', ctx.run C (List.replicate n (.seal aad pt)) = some (ns, ctx') ∧ ns.length = n := by
  induction n generalizing ctx with
  | zero => exact ⟨[], ctx, rfl, rfl⟩
  | succ n ih =>
      obtain ⟨nonce, hnonce⟩ : ∃ nonce, ctx.computeNonce = some nonce :=
        ⟨_, computeNonce_of_le hn⟩
      obtain ⟨ct, hct⟩ := hseal ctx.hpke.aeadId ctx.key nonce aad pt
      have happ : ctx.apply C (.seal aad pt) =
          some (.ok ct, { ctx with sequenceNumber := ctx.sequenceNumber + 1 }) :=
        aeadCall_of_ok hnonce hct (incrementSeq_of_twelve C h12)
      obtain ⟨ns, c, hrun, hlen⟩ :=
        @ih { ctx with sequenceNumber := ctx.sequenceNumber + 1 } h12 hn
      exact ⟨nonce :: ns, c,
        by simp only [List.replicate_succ, run, happ, hnonce, hrun, Option.map_some'],
        by rw [List.length_cons, hlen]⟩

/-- With a 12-byte nonce length the `u32` counter never reaches the limit `2^96 - 1`: a context
on which `2^32 + 1` seals all succeed uses the same nonce for the first and the last, so the
nonces of its successful calls are not pairwise distinct. -/
theorem seal_run_reuses_nonce
    (hseal : ∀ alg key nonce aad pt, ∃ ct, C.aeadSeal alg key nonce aad pt = .ok ct)
    (h12 : C.aeadNonceLength ctx.hpke.aeadId = 12) (hn : 4 ≤ ctx.nonce.length) (aad pt : Bytes) :
    ∃ ns ctx', ctx.run C (List.replicate (2 ^ 32 + 1) (.seal aad pt)) = some (ns, ctx') ∧
      ns.length = 2 ^ 32 + 1 ∧ ns[0]? = ns[2 ^ 32]? ∧ ¬ns.Nodup := by
  obtain ⟨ns, ctx', hrun, hlen⟩ := run_replicate_seal hseal h12 hn aad pt (2 ^ 32 + 1)
  have hmap := (run_spec hrun).2
  have hwrap : UInt32.ofNat (2 ^ 32) = UInt32.ofNat 0 := rfl
  have hsame : ns[0]?.map some = ns[2 ^ 32]?.map some := by
    rw [← List.getElem?_map, ← List.getElem?_map, hmap, List.getElem?_map, List.getElem?_map,
      List.getElem?_range (by omega), List.getElem?_range (by omega), Option.map_some',
      Option.map_some', hwrap]
  have hfirst : ns[0]? = ns[2 ^ 32]? := Option.map_injective (Option.some_injective _) hsame
  refine ⟨ns, ctx', hrun, hlen, hfirst, fun hnd => ?_⟩
  rw [List.getElem?_eq_getElem (by omega), List.getElem?_eq_getElem (by omega),
    Option.some_inj, hnd.getElem_inj_iff] at hfirst
  omega

/-- Every context the key schedule derives for a 12-byte nonce, under a provider whose `Expand`
returns the requested length and whose `seal` succeeds: `2^32 + 1` seals on it all return `Ok`,
the counter ends at `1` instead of `2^32 + 1`, and the last seal hands the AEAD the nonce of the
first. -/
theorem keySchedule_seal_reuses_nonce {fmtError : Error → String} {hpke : Hpke}
    {sharedSecret info psk pskId : Bytes} (hC : C.ExpandsToLength)
    (hseal : ∀ alg key nonce aad pt, ∃ ct, C.aeadSeal alg key nonce aad pt = .ok ct)
    (h12 : C.aeadNonceLength hpke.aeadId = 12)
    (h : hpke.keySchedule C fmtError sharedSecret info psk pskId = .ok ctx) (aad pt : Bytes) :
    ∃ ns ctx', ctx.run C (List.replicate (2 ^ 32 + 1) (.seal aad pt)) = some (ns, ctx') ∧
      ns.length = 2 ^ 32 + 1 ∧ ctx'.sequenceNumber = 1 ∧ ns[0]? = ns[2 ^ 32]? ∧ ¬ns.Nodup := by
  obtain ⟨hnl, hseq, rfl⟩ := length_nonce_of_keySchedule hC h
  have hn : 4 ≤ ctx.nonce.length := by rw [hnl, h12]; decide
  obtain ⟨ns, ctx', hrun, hlen, hfirst, hdup⟩ := seal_run_reuses_nonce hseal h12 hn aad pt
  refine ⟨ns, ctx', hrun, hlen, ?_, hfirst, hdup⟩
  rw [(run_spec hrun).1, hlen, hseq]
  rfl

/-- The sender context that the key schedule derives for `ChaCha20Poly1305` with the
pass-through provider: `2^32 + 1` seals on it all return `Ok`, the counter ends at `1`, and the
last seal reuses the first nonce. -/
theorem keySchedule_seal_wraps :
    ∃ ctx, (Hpke.mk .base .dhKem25519 .hkdfSha256 .chaCha20Poly1305).keySchedule HpkeCrypto.plain
        (fun _ => "") [] [] [] [] = .ok ctx ∧
      ∃ ns ctx', ctx.run HpkeCrypto.plain (List.replicate (2 ^ 32 + 1) (.seal [] [])) =
        some (ns, ctx') ∧ ns.length = 2 ^ 32 + 1 ∧ ctx'.sequenceNumber = 1 ∧
        ns[0]? = ns[2 ^ 32]? ∧ ¬ns.Nodup := by
  have h : (Hpke.mk .base .dhKem25519 .hkdfSha256 .chaCha20Poly1305).keySchedule HpkeCrypto.plain
      (fun _ => "") [] [] [] [] = .ok ⟨List.replicate 32 0, List.replicate 12 0,
        List.replicate 32 0, 0, ⟨.base, .dhKem25519, .hkdfSha256, .chaCha20Poly1305⟩⟩ := rfl
  exact ⟨_, h, keySchedule_seal_reuses_nonce HpkeCrypto.plain_expandsToLength
    (fun _ _ _ _ pt => ⟨pt, rfl⟩) (by rfl) h [] []⟩

end Context

end HpkeRs
