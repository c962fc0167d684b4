import HpkeRs.Setup
import HpkeRs.Sequence
import Mathlib.Logic.Relation

/-! A sender and a receiver context derived from the same key schedule, with the genuine
ciphertexts in flight between them (`Channel`). A run interleaves four kinds of step (`Step`):
the sender seals, successfully or not; the receiver opens the oldest genuine ciphertext; or the
receiver opens inputs that the AEAD rejects at its current nonce.

Under a correct AEAD the receiver stays the sender lagging behind by the ciphertexts in flight
(`Inv`): both hold the same key, base nonce, exporter secret and configuration, the sender's
counter is the receiver's plus the number in flight, and the `i`-th ciphertext in flight is what
`seal` returned at the receiver's counter plus `i`. So every genuine open returns its plaintext
and takes the receiver's counter to the sender's right after that seal, and both sides export
the same secrets (`keySchedule_channel_agrees`). The counters are equal only when nothing is in
flight: a sender that seals twice before the first delivery is one ahead after it. -/

namespace HpkeRs

/-- A genuine ciphertext: the aad and plaintext the sender sealed, the ciphertext `seal`
returned, and the sender's counter right after that seal. -/
structure Message where
  aad : Bytes
  plainTxt : Bytes
  cipherTxt : Bytes
  seqAfter : UInt32
  deriving DecidableEq

/-- The sender's and the receiver's context, and the genuine ciphertexts sealed and not yet
delivered, oldest first. -/
structure Channel where
  sender : Context
  receiver : Context
  inFlight : List Message
  deriving DecidableEq

/-- `m` is what `seal` returned on `ctx`. -/
def Message.SealedOn (C : HpkeCrypto) (m : Message) (ctx : Context) : Prop :=
  ctx.seal C m.aad m.plainTxt = some (.ok m.cipherTxt, { ctx with sequenceNumber := m.seqAfter })

namespace Channel

variable (C : HpkeCrypto)

/-- One step of a run; each runs the code's `seal` or `open`. -/
inductive Step : Channel → Channel → Prop
  | seal {ch aad pt ct S'} : ch.sender.seal C aad pt = some (.ok ct, S') →
      Step ch ⟨S', ch.receiver, ch.inFlight ++ [⟨aad, pt, ct, S'.sequenceNumber⟩]⟩
  | sealError {ch aad pt e S'} : ch.sender.seal C aad pt = some (.error e, S') →
      Step ch { ch with sender := S' }
  | deliver {ch m rest r R'} : ch.inFlight = m :: rest →
      ch.receiver.open C m.aad m.cipherTxt = some (r, R') → Step ch ⟨ch.sender, R', rest⟩
  | reject {ch aad ct nonce e r R'} : ch.receiver.computeNonce = some nonce →
      C.aeadOpen ch.receiver.hpke.aeadId ch.receiver.key nonce aad ct = .error e →
      ch.receiver.open C aad ct = some (r, R') → Step ch { ch with receiver := R' }

/-- The receiver is the sender lagging behind by the ciphertexts in flight. -/
structure Inv (ch : Channel) : Prop where
  same : { ch.receiver with sequenceNumber := 0 } = { ch.sender with sequenceNumber := 0 }
  sender_seq : ch.sender.sequenceNumber =
    ch.receiver.sequenceNumber + UInt32.ofNat ch.inFlight.length
  sealed : ∀ (j : Nat) (m : Message), ch.inFlight[j]? = some m →
    m.SealedOn C { ch.receiver with sequenceNumber := ch.receiver.sequenceNumber + UInt32.ofNat j }

/-- What a state promises: the oldest genuine ciphertext opens to its plaintext, taking the
receiver's counter to the sender's right after that seal; the sender's counter is the receiver's
plus the number in flight, so with nothing in flight the counters are equal; both sides export
the same secrets. -/
structure Agrees (fmtError : Error → String) (ch : Channel) : Prop where
  deliver_opens : ∀ m rest, ch.inFlight = m :: rest →
    ch.receiver.open C m.aad m.cipherTxt =
      some (.ok m.plainTxt, { ch.receiver with sequenceNumber := m.seqAfter })
  sender_seq : ch.sender.sequenceNumber =
    ch.receiver.sequenceNumber + UInt32.ofNat ch.inFlight.length
  seq_eq : ch.inFlight = [] → ch.sender.sequenceNumber = ch.receiver.sequenceNumber
  export_eq : ∀ exporterContext length,
    ch.sender.export C fmtError exporterContext length =
      ch.receiver.export C fmtError exporterContext length

variable {C} {ch : Channel}

theorem Inv.init {S R : Context} (h : S = R) : Inv C ⟨S, R, []⟩ :=
  ⟨h ▸ rfl, by rw [h, List.length_nil, UInt32.add_ofNat_zero], fun _ _ h => nomatch h⟩

theorem Inv.sender_eq (hi : Inv C ch) : ch.sender =
    { ch.receiver with sequenceNumber :=
      ch.receiver.sequenceNumber + UInt32.ofNat ch.inFlight.length } := by
  rw [← hi.sender_seq]
  exact (congrArg (fun c => { c with sequenceNumber := ch.sender.sequenceNumber }) hi.same).symm

theorem Inv.opens (hC : C.AeadCorrect) (hi : Inv C ch) {m : Message} {rest : List Message}
    (hm : ch.inFlight = m :: rest) :
    ch.receiver.open C m.aad m.cipherTxt =
      some (.ok m.plainTxt, { ch.receiver with sequenceNumber := m.seqAfter }) ∧
      m.seqAfter = ch.receiver.sequenceNumber + 1 := by
  have h0 := hi.sealed 0 m (by simp [hm])
  rw [UInt32.add_ofNat_zero] at h0
  exact ⟨Context.aeadCall_of_inverse (fun _ => hC _ _ _ _ _ _) h0,
    congrArg Context.sequenceNumber (Context.aeadCall_ok_counter h0)⟩

theorem Inv.seal (hi : Inv C ch) {aad pt ct : Bytes} {S' : Context}
    (h : ch.sender.seal C aad pt = some (.ok ct, S')) :
    Inv C ⟨S', ch.receiver, ch.inFlight ++ [⟨aad, pt, ct, S'.sequenceNumber⟩]⟩ := by
  have hS := hi.sender_eq
  obtain rfl := Context.aeadCall_ok_counter h
  refine ⟨hi.same, ?_, fun j m hj => ?_⟩
  · rw [List.length_append, List.length_singleton, ← UInt32.add_ofNat_add_one, ← hi.sender_seq]
  · rcases Nat.lt_or_ge j ch.inFlight.length with hlt | hge
    · rw [List.getElem?_append_left hlt] at hj
      exact hi.sealed j m hj
    · obtain ⟨hlen, -⟩ := List.getElem?_eq_some_iff.mp hj
      obtain rfl : j = ch.inFlight.length := by simp at hlen; omega
      rw [List.getElem?_concat_length] at hj
      cases hj
      rw [← hS]
      exact h

theorem Inv.deliver (hC : C.AeadCorrect) (hi : Inv C ch) {m : Message} {rest : List Message}
    {r : Except HpkeError Bytes} {R' : Context} (hm : ch.inFlight = m :: rest)
    (h : ch.receiver.open C m.aad m.cipherTxt = some (r, R')) : Inv C ⟨ch.sender, R', rest⟩ := by
  obtain ⟨hopen, hafter⟩ := hi.opens hC hm
  obtain ⟨-, rfl⟩ := Prod.mk.inj (Option.some.inj (h.symm.trans hopen))
  refine ⟨hi.same, ?_, fun j m' hj => ?_⟩
  · rw [hi.sender_seq, hm, List.length_cons, ← UInt32.add_one_add_ofNat, ← hafter]
  · rw [hafter, UInt32.add_one_add_ofNat]
    exact hi.sealed (j + 1) m' (by rw [hm, List.getElem?_cons_succ]; exact hj)

theorem Inv.sealError (hi : Inv C ch) {aad pt : Bytes} {e : HpkeError} {S' : Context}
    (h : ch.sender.seal C aad pt = some (.error e, S')) : Inv C { ch with sender := S' } := by
  obtain rfl := (Context.aeadCall_frame h).1 e rfl
  exact hi

theorem Inv.reject (hi : Inv C ch) {aad ct : Bytes} {r : Except HpkeError Bytes} {R' : Context}
    {nonce : Bytes} {e : Error} (hn : ch.receiver.computeNonce = some nonce)
    (he : C.aeadOpen ch.receiver.hpke.aeadId ch.receiver.key nonce aad ct = .error e)
    (h : ch.receiver.open C aad ct = some (r, R')) : Inv C { ch with receiver := R' } := by
  obtain ⟨⟩ := Option.some.inj ((Context.aeadCall_of_error hn he).symm.trans h)
  exact hi

/-- The step lemma: every kind of step keeps the invariant. -/
theorem Inv.step (hC : C.AeadCorrect) (hi : Inv C ch) {ch' : Channel} (hs : Step C ch ch') :
    Inv C ch' := by
  cases hs with
  | «seal» h => exact hi.seal h
  | sealError h => exact hi.sealError h
  | deliver hm h => exact hi.deliver hC hm h
  | reject hn he h => exact hi.reject hn he h

/-- The run lemma. -/
theorem Inv.reachable (hC : C.AeadCorrect) {ch₀ : Channel} (hi : Inv C ch₀)
    (hreach : Relation.ReflTransGen (Step C) ch₀ ch) : Inv C ch := by
  induction hreach with
  | refl => exact hi
  | tail _ hs ih => exact ih.step hC hs

theorem export_eq_of_same {fmtError : Error → String} {a b : Context}
    (h : { a with sequenceNumber := 0 } = { b with sequenceNumber := 0 })
    (exporterContext : Bytes) (length : Nat) :
    a.export C fmtError exporterContext length = b.export C fmtError exporterContext length := by
  obtain ⟨-, -, hsecret, -, hhpke⟩ := Context.mk.inj h
  simp only [Context.export, hsecret, hhpke]

theorem Inv.agrees (hC : C.AeadCorrect) (fmtError : Error → String) (hi : Inv C ch) :
    ch.Agrees C fmtError where
  deliver_opens _ _ hm := (hi.opens hC hm).1
  sender_seq := hi.sender_seq
  seq_eq h := by rw [hi.sender_seq, h, List.length_nil, UInt32.add_ofNat_zero]
  export_eq := export_eq_of_same hi.same.symm

end Channel

/-- The single-shot API: when the receiver's KEM recovers the shared secret the sender's KEM
produced, `Hpke::open` turns what `Hpke::seal` returned back into the plaintext, and
`send_export` and `receiver_export` return the same secret. -/
def Hpke.SingleShotAgrees (C : HpkeCrypto) (fmtError : Error → String) (hpke : Hpke) : Prop :=
  ∀ {σ : Type} (K : Kem σ) (prng prng' : σ) (pkR : HpkePublicKey) (skS : Option HpkePrivateKey)
    (skR : HpkePrivateKey) (pkS : Option HpkePublicKey) (zz enc info : Bytes)
    (psk pskId : Option Bytes),
    hpke.senderKem K prng pkR skS = (.ok (zz, enc), prng') →
    hpke.receiverKem K enc skR pkS = .ok zz →
    (∀ aad pt enc' ct prng'', hpke.seal C fmtError K prng pkR info aad pt psk pskId skS =
        some (.ok (enc', ct), prng'') →
      enc' = enc ∧ hpke.open C fmtError K enc skR info aad ct psk pskId pkS = some (.ok pt)) ∧
    ∀ exporterContext length,
      (hpke.sendExport C fmtError K prng pkR info psk pskId skS exporterContext length).1.map
          Prod.snd =
        hpke.receiverExport C fmtError K enc skR info psk pskId pkS exporterContext length

theorem Hpke.singleShotAgrees {C : HpkeCrypto} (hC : C.AeadCorrect) (fmtError : Error → String)
    (hpke : Hpke) : hpke.SingleShotAgrees C fmtError := by
  intro σ K prng prng' pkR skS skR pkS zz enc info psk pskId hs hr
  simp only [Hpke.seal, Hpke.open, Hpke.sendExport, Hpke.receiverExport,
    setupSender_of_senderKem hs, setupReceiver_of_receiverKem hr]
  cases hpke.keySchedule C fmtError zz info (psk.getD []) (pskId.getD []) with
  | error e => exact ⟨fun _ _ _ _ _ h => by simp [Except.map] at h, fun _ _ => rfl⟩
  | ok ctx =>
      refine ⟨fun aad pt enc' ct prng'' h => ?_, fun exporterContext length => ?_⟩
      · obtain ⟨⟨r, ctx'⟩, hseal, hr'⟩ := Option.map_eq_some'.mp h
        cases r with
        | error => simp [Except.map] at hr'
        | ok c =>
            simp only [Except.map, Prod.mk.injEq, Except.ok.injEq] at hr'
            obtain ⟨⟨rfl, rfl⟩, -⟩ := hr'
            have hopen : ctx.open C aad c = some (.ok pt, ctx') :=
              Context.aeadCall_of_inverse (fun _ => hC _ _ _ _ _ _) hseal
            simp [hopen]
      · show ((ctx.export C fmtError exporterContext length).map (enc, ·)).map Prod.snd =
          ctx.export C fmtError exporterContext length
        cases ctx.export C fmtError exporterContext length <;> rfl

/-- Sender and receiver contexts that the key schedule derives from one configuration and equal
inputs, under a correct AEAD: every state of every run from them agrees, and the single-shot API
is the one-message case. -/
theorem keySchedule_channel_agrees {C : HpkeCrypto} (hC : C.AeadCorrect)
    {fmtError : Error → String} {hpke : Hpke} {sharedSecret info psk pskId : Bytes}
    {S R : Context} {ch : Channel}
    (hS : hpke.keySchedule C fmtError sharedSecret info psk pskId = .ok S)
    (hR : hpke.keySchedule C fmtError sharedSecret info psk pskId = .ok R)
    (hreach : Relation.ReflTransGen (Channel.Step C) ⟨S, R, []⟩ ch) :
    ch.Agrees C fmtError ∧ hpke.SingleShotAgrees C fmtError :=
  ⟨((Channel.Inv.init (Except.ok.inj (hS.symm.trans hR))).reachable hC hreach).agrees hC fmtError,
    Hpke.singleShotAgrees hC fmtError hpke⟩

theorem keySchedule_channel_agrees_plain :
    let hpke : Hpke := ⟨.base, .dhKem25519, .hkdfSha256, .chaCha20Poly1305⟩
    let ctx : Context := ⟨List.replicate 32 0, List.replicate 12 0, List.replicate 32 0, 0, hpke⟩
    let ch : Channel := ⟨{ ctx with sequenceNumber := 1 }, ctx, [⟨[], [1], [1], 1⟩]⟩
    HpkeCrypto.plain.AeadCorrect ∧ hpke.keySchedule .plain (fun _ => "") [] [] [] [] = .ok ctx ∧
      Relation.ReflTransGen (Channel.Step .plain) ⟨ctx, ctx, []⟩ ch ∧
      ch.Agrees .plain (fun _ => "") ∧ hpke.SingleShotAgrees .plain (fun _ => "") := by
  intro hpke ctx ch
  have hks : hpke.keySchedule .plain (fun _ => "") [] [] [] [] = .ok ctx := rfl
  have hreach : Relation.ReflTransGen (Channel.Step .plain) ⟨ctx, ctx, []⟩ ch :=
    .single (@Channel.Step.seal .plain ⟨ctx, ctx, []⟩ [] [1] [1] ch.sender (by decide))
  exact ⟨HpkeCrypto.plain_aeadCorrect, hks, hreach,
    keySchedule_channel_agrees HpkeCrypto.plain_aeadCorrect hks hks hreach⟩

/-- Two seals and the delivery of the first: the receiver opens it, and the counters differ. -/
theorem channel_counters_differ :
    let hpke : Hpke := ⟨.base, .dhKem25519, .hkdfSha256, .chaCha20Poly1305⟩
    let ctx : Context := ⟨List.replicate 32 0, List.replicate 12 0, List.replicate 32 0, 0, hpke⟩
    let m₁ : Message := ⟨[], [1], [1], 1⟩
    let m₂ : Message := ⟨[], [2], [2], 2⟩
    let ch : Channel := ⟨{ ctx with sequenceNumber := 2 }, ctx, [m₁, m₂]⟩
    let ch' : Channel := ⟨{ ctx with sequenceNumber := 2 }, { ctx with sequenceNumber := 1 }, [m₂]⟩
    hpke.keySchedule .plain (fun _ => "") [] [] [] [] = .ok ctx ∧
      Relation.ReflTransGen (Channel.Step .plain) ⟨ctx, ctx, []⟩ ch ∧
      ctx.open .plain m₁.aad m₁.cipherTxt = some (.ok m₁.plainTxt, ch'.receiver) ∧
      Channel.Step .plain ch ch' ∧ ch'.sender.sequenceNumber ≠ ch'.receiver.sequenceNumber := by
  intro hpke ctx m₁ m₂ ch ch'
  have hopen : ctx.open .plain m₁.aad m₁.cipherTxt = some (.ok m₁.plainTxt, ch'.receiver) := by
    decide
  have hreach : Relation.ReflTransGen (Channel.Step .plain) ⟨ctx, ctx, []⟩ ch :=
    .tail (.single (@Channel.Step.seal .plain ⟨ctx, ctx, []⟩ [] [1] [1]
        { ctx with sequenceNumber := 1 } (by decide)))
      (@Channel.Step.seal .plain _ [] [2] [2] ch.sender (by decide))
  exact ⟨rfl, hreach, hopen, .deliver rfl hopen, by decide⟩

end HpkeRs
