import HpkeRs.Channel

/-! A sender and a receiver context behind a network that an adversary controls (`Network`). The
adversary sees every ciphertext the sender's `seal` returns and may hand the receiver any of
them, any number of times and in any order, with any aad; it may also hand it inputs of its own,
which the receiver's `open` refuses. It does not hold the key: the only inputs the receiver
accepts are ciphertexts the sender produced (`Network.Step`).

The AEAD is taken as binding (`HpkeCrypto.AeadBinding`): a ciphertext that `seal` returned opens
under no other nonce or aad, and to nothing but its plaintext. That is the idealisation of an
AEAD's integrity for an adversary without the key; `HpkeCrypto.framed` is a provider that has it
exactly.

The receiver's counter then decides what it accepts. Its `i`-th acceptance is the sender's
`j`-th ciphertext with its own aad and plaintext for some `j` equal to `i` modulo `2^32`, the
width of the `u32` counter; so while the sender has sealed fewer than `2^32` messages, what the
receiver accepted is a prefix of what the sender sealed: nothing is accepted twice, out of order
or under another aad (`keySchedule_network_prefix`). In every reachable state the receiver opens
a sent ciphertext exactly when its position equals the number of acceptances modulo `2^32` and it
comes with its own aad (`keySchedule_network_next`): the next one, and after `2^32` acceptances,
when the counter has wrapped (`Context.keySchedule_seal_wraps`), a replay of the first. -/

namespace HpkeRs

/-- The AEAD's binding law: what `seal` returned under a key, a nonce and an aad opens under that
key only at that nonce and aad, and to the plaintext that was sealed. -/
def HpkeCrypto.AeadBinding (C : HpkeCrypto) : Prop :=
  ∀ alg key nonce aad pt ct nonce' aad' pt', C.aeadSeal alg key nonce aad pt = .ok ct →
    C.aeadOpen alg key nonce' aad' ct = .ok pt' → nonce' = nonce ∧ aad' = aad ∧ pt' = pt

/-- A self-delimiting encoding of a byte string: each byte behind a `1`, and a `0` at the end. -/
def frame : Bytes → Bytes
  | [] => [0]
  | b :: bs => 1 :: b :: frame bs

theorem frame_append_inj : ∀ {a b x y : Bytes}, frame a ++ x = frame b ++ y → a = b ∧ x = y
  | [], [], _, _, h => ⟨rfl, List.cons.inj h |>.2⟩
  | [], _ :: _, _, _, h => nomatch (List.cons.inj h).1
  | _ :: _, [], _, _, h => nomatch (List.cons.inj h).1
  | _ :: _, _ :: _, _, _, h => by
      simp only [frame, List.cons_append, List.cons.injEq, true_and] at h
      obtain ⟨rfl, h⟩ := h
      obtain ⟨rfl, rfl⟩ := frame_append_inj h
      exact ⟨rfl, rfl⟩

/-- A provider whose ciphertext is the nonce and the aad, framed, in front of the plaintext, and
whose `open` checks them: its AEAD is correct and binding. The KDF is that of `HpkeCrypto.plain`. -/
def HpkeCrypto.framed : HpkeCrypto where
  kdfExtract _ _ ikm := .ok ikm
  kdfExpand _ _ _ len := .ok (List.replicate len 0)
  aeadSeal _ _ nonce aad pt := .ok (frame nonce ++ frame aad ++ pt)
  aeadOpen _ _ nonce aad ct :=
    if (frame nonce ++ frame aad).isPrefixOf ct then .ok (ct.drop (frame nonce ++ frame aad).length)
    else .error .aeadOpenError

theorem HpkeCrypto.framed_aeadCorrect : HpkeCrypto.framed.AeadCorrect := by
  rintro _ _ nonce aad pt _ ⟨⟩
  simp only [framed, List.isPrefixOf_iff_prefix.mpr (List.prefix_append _ _), if_true,
    List.drop_left]

theorem HpkeCrypto.framed_aeadBinding : HpkeCrypto.framed.AeadBinding := by
  rintro _ _ nonce aad pt _ nonce' aad' pt' ⟨⟩ h
  simp only [framed] at h
  split_ifs at h with hp
  obtain ⟨t, ht⟩ := List.isPrefixOf_iff_prefix.mp hp
  rw [List.append_assoc, List.append_assoc] at ht
  obtain ⟨rfl, ht'⟩ := frame_append_inj ht
  obtain ⟨rfl, rfl⟩ := frame_append_inj ht'
  cases h
  exact ⟨rfl, rfl, List.drop_left _ _⟩

/-- A run's state: both contexts, every genuine ciphertext in the order `seal` returned it, and
the aad and plaintext of every input the receiver accepted, in order. -/
structure Network where
  sender : Context
  receiver : Context
  sent : List Message
  accepted : List (Bytes × Bytes)
  deriving DecidableEq

namespace Network

variable (C : HpkeCrypto)

/-- One step; each runs the code's `seal` or `open`. The receiver accepts only ciphertexts the
sender produced, with whatever aad the adversary pairs them, and refuses anything. -/
inductive Step : Network → Network → Prop
  | seal {n aad pt ct S'} : n.sender.seal C aad pt = some (.ok ct, S') →
      Step n { n with sender := S', sent := n.sent ++ [⟨aad, pt, ct, S'.sequenceNumber⟩] }
  | sealError {n aad pt e S'} : n.sender.seal C aad pt = some (.error e, S') →
      Step n { n with sender := S' }
  | deliver {n m aad pt R'} : m ∈ n.sent → n.receiver.open C aad m.cipherTxt = some (.ok pt, R') →
      Step n { n with receiver := R', accepted := n.accepted ++ [(aad, pt)] }
  | refuse {n aad ct e R'} : n.receiver.open C aad ct = some (.error e, R') →
      Step n { n with receiver := R' }

/-- Both parties are the context `ctx₀` with the counter advanced by what they sealed or
accepted; the `j`-th ciphertext was sealed at counter `j`; the `i`-th acceptance is a sent
ciphertext's aad and plaintext, sealed at a counter equal to `i` modulo `2^32`. -/
structure Inv (ctx₀ : Context) (n : Network) : Prop where
  sender_eq : n.sender =
    { ctx₀ with sequenceNumber := ctx₀.sequenceNumber + UInt32.ofNat n.sent.length }
  receiver_eq : n.receiver =
    { ctx₀ with sequenceNumber := ctx₀.sequenceNumber + UInt32.ofNat n.accepted.length }
  sealed : ∀ (j : Nat) (m : Message), n.sent[j]? = some m →
    m.SealedOn C { ctx₀ with sequenceNumber := ctx₀.sequenceNumber + UInt32.ofNat j }
  accepted_sent : ∀ (i : Nat) (a : Bytes × Bytes), n.accepted[i]? = some a →
    ∃ j m, n.sent[j]? = some m ∧ j % 2 ^ 32 = i % 2 ^ 32 ∧ a = (m.aad, m.plainTxt)

variable {C} {ctx₀ : Context} {n : Network}

theorem Inv.init : Inv C ctx₀ ⟨ctx₀, ctx₀, [], []⟩ :=
  ⟨(by rw [List.length_nil, UInt32.add_ofNat_zero]),
    (by rw [List.length_nil, UInt32.add_ofNat_zero]),
    (fun _ _ h => nomatch h), fun _ _ h => nomatch h⟩

theorem getElem?_append_of_getElem? {α : Type} {l : List α} {j : Nat} {a : α} (l' : List α)
    (h : l[j]? = some a) : (l ++ l')[j]? = some a := by
  rw [List.getElem?_append_left (List.getElem?_eq_some_iff.mp h).1, h]

theorem getElem?_concat_eq_some {α : Type} {l : List α} {x a : α} {i : Nat}
    (h : (l ++ [x])[i]? = some a) : l[i]? = some a ∨ i = l.length ∧ a = x := by
  rcases Nat.lt_or_ge i l.length with hlt | hge
  · exact .inl (by rwa [List.getElem?_append_left hlt] at h)
  · obtain ⟨hlen, -⟩ := List.getElem?_eq_some_iff.mp h
    obtain rfl : i = l.length := by simp at hlen; omega
    rw [List.getElem?_concat_length] at h
    exact .inr ⟨rfl, (Option.some.inj h).symm⟩

/-- The heart of the matter: a sent ciphertext that the receiver opens is the one sealed at the
receiver's counter, modulo `2^32`, opened under its own aad to its own plaintext. -/
theorem Inv.opens_sent (hB : C.AeadBinding) (hi : Inv C ctx₀ n) {j : Nat} {m : Message}
    {aad pt : Bytes} {R' : Context} (hj : n.sent[j]? = some m)
    (h : n.receiver.open C aad m.cipherTxt = some (.ok pt, R')) :
    j % 2 ^ 32 = n.accepted.length % 2 ^ 32 ∧ aad = m.aad ∧ pt = m.plainTxt ∧
      R' = { ctx₀ with
        sequenceNumber := ctx₀.sequenceNumber + UInt32.ofNat (n.accepted.length + 1) } := by
  obtain ⟨nS, hnS, hseal, -⟩ := Context.aeadCall_eq_ok (hi.sealed j m hj)
  rw [hi.receiver_eq] at h
  obtain ⟨nR, hnR, hopen, rfl⟩ := Context.aeadCall_eq_ok h
  obtain ⟨rfl, rfl, rfl⟩ := hB _ _ _ _ _ _ _ _ _ hseal hopen
  have hq := congrArg UInt32.toNat (Context.computeNonce_injective
    (Context.four_le_of_computeNonce hnS) (by rfl) (hnR.trans hnS.symm))
  simp only [UInt32.toNat_add, UInt32.size, UInt32.toNat_ofNat'] at hq
  exact ⟨by omega, rfl, rfl, by rw [UInt32.add_ofNat_add_one]⟩

/-- The converse: under a correct AEAD, a sent ciphertext whose position equals the receiver's
counter modulo `2^32` opens under its own aad to its plaintext. -/
theorem Inv.opens_of_mod (hC : C.AeadCorrect) (hi : Inv C ctx₀ n) {j : Nat} {m : Message}
    (hj : n.sent[j]? = some m) (hmod : j % 2 ^ 32 = n.accepted.length % 2 ^ 32) :
    n.receiver.open C m.aad m.cipherTxt =
      some (.ok m.plainTxt, { n.receiver with sequenceNumber := m.seqAfter }) := by
  have hsealed := hi.sealed j m hj
  have hq : UInt32.ofNat j = UInt32.ofNat n.accepted.length :=
    UInt32.toNat.inj (by rw [UInt32.toNat_ofNat', UInt32.toNat_ofNat', hmod])
  rw [hq, ← hi.receiver_eq] at hsealed
  exact Context.aeadCall_of_inverse (fun _ => hC _ _ _ _ _ _) hsealed

theorem Inv.seal (hi : Inv C ctx₀ n) {aad pt ct : Bytes} {S' : Context}
    (h : n.sender.seal C aad pt = some (.ok ct, S')) :
    Inv C ctx₀ { n with sender := S', sent := n.sent ++ [⟨aad, pt, ct, S'.sequenceNumber⟩] } := by
  have hS := hi.sender_eq
  obtain rfl := Context.aeadCall_ok_counter h
  refine ⟨?_, hi.receiver_eq, fun j m hj => ?_, fun i a ha => ?_⟩
  · rw [hS, List.length_append, List.length_singleton, UInt32.add_ofNat_add_one]
  · rcases getElem?_concat_eq_some hj with hj | ⟨rfl, rfl⟩
    · exact hi.sealed j m hj
    · rw [← hS]
      exact h
  · obtain ⟨j, m, hj, hmod, rfl⟩ := hi.accepted_sent i a ha
    exact ⟨j, m, getElem?_append_of_getElem? _ hj, hmod, rfl⟩

theorem Inv.deliver (hB : C.AeadBinding) (hi : Inv C ctx₀ n) {m : Message} {aad pt : Bytes}
    {R' : Context} (hm : m ∈ n.sent) (h : n.receiver.open C aad m.cipherTxt = some (.ok pt, R')) :
    Inv C ctx₀ { n with receiver := R', accepted := n.accepted ++ [(aad, pt)] } := by
  obtain ⟨j, hj⟩ := List.mem_iff_getElem?.mp hm
  obtain ⟨hmod, rfl, rfl, rfl⟩ := hi.opens_sent hB hj h
  refine ⟨hi.sender_eq, by rw [List.length_append, List.length_singleton], hi.sealed,
    fun i a ha => ?_⟩
  rcases getElem?_concat_eq_some ha with ha | ⟨rfl, rfl⟩
  · exact hi.accepted_sent i a ha
  · exact ⟨j, m, hj, hmod, rfl⟩

/-- The step lemma: every kind of step keeps the invariant. -/
theorem Inv.step (hB : C.AeadBinding) (hi : Inv C ctx₀ n) {n' : Network} (hs : Step C n n') :
    Inv C ctx₀ n' := by
  cases hs with
  | «seal» h => exact hi.seal h
  | deliver hm h => exact hi.deliver hB hm h
  | sealError h | refuse h =>
      obtain rfl := (Context.aeadCall_frame h).1 _ rfl
      exact hi

/-- The run lemma. -/
theorem Inv.reachable (hB : C.AeadBinding)
    (hreach : Relation.ReflTransGen (Step C) ⟨ctx₀, ctx₀, [], []⟩ n) :
    Inv C ctx₀ n := by
  induction hreach with
  | refl => exact Inv.init
  | tail _ hs ih => exact ih.step hB hs

/-- An index-wise correspondence modulo `2^32` with fewer than `2^32` targets is a prefix. -/
theorem prefix_of_getElem?_mod {α β : Type} {l : List α} {s : List β} {f : β → α}
    (hs : s.length < 2 ^ 32)
    (h : ∀ i a, l[i]? = some a → ∃ j b, s[j]? = some b ∧ j % 2 ^ 32 = i % 2 ^ 32 ∧ a = f b) :
    l <+: s.map f := by
  have hlen : l.length ≤ s.length := by
    by_contra hlt
    obtain ⟨j, b, hb, hmod, -⟩ := h s.length _ (List.getElem?_eq_getElem (Nat.lt_of_not_le hlt))
    have hj := (List.getElem?_eq_some_iff.mp hb).1
    omega
  rw [List.prefix_iff_eq_take]
  refine List.ext_getElem? fun i => ?_
  rw [List.getElem?_take]
  split_ifs with hi
  · obtain ⟨j, b, hb, hmod, heq⟩ := h i _ (List.getElem?_eq_getElem hi)
    have hj := (List.getElem?_eq_some_iff.mp hb).1
    obtain rfl : j = i := by omega
    rw [List.getElem?_eq_getElem hi, List.getElem?_map, hb, Option.map_some', heq]
  · exact List.getElem?_eq_none (Nat.le_of_not_lt hi)

end Network

variable {C : HpkeCrypto} {fmtError : Error → String} {hpke : Hpke}
  {sharedSecret info psk pskId : Bytes} {S R : Context} {n : Network}

/-- A sender and a receiver context that the key schedule derives alike, behind a network that
the adversary controls, under a binding AEAD: every acceptance is a sent ciphertext's aad and
plaintext, sealed at a counter equal to the acceptance's position modulo `2^32`; and while fewer
than `2^32` messages have been sealed, what the receiver accepted is a prefix of what was
sealed. -/
theorem keySchedule_network_prefix (hB : C.AeadBinding)
    (hS : hpke.keySchedule C fmtError sharedSecret info psk pskId = .ok S)
    (hR : hpke.keySchedule C fmtError sharedSecret info psk pskId = .ok R)
    (hrun : Relation.ReflTransGen (Network.Step C) ⟨S, R, [], []⟩ n) :
    (∀ i a, n.accepted[i]? = some a → ∃ j m, n.sent[j]? = some m ∧ j % 2 ^ 32 = i % 2 ^ 32 ∧
      a = (m.aad, m.plainTxt)) ∧
    (n.sent.length < 2 ^ 32 → n.accepted <+: n.sent.map fun m => (m.aad, m.plainTxt)) := by
  obtain rfl := Except.ok.inj (hS.symm.trans hR)
  have hi := Network.Inv.reachable hB hrun
  exact ⟨hi.accepted_sent, fun hlen => Network.prefix_of_getElem?_mod hlen hi.accepted_sent⟩

theorem keySchedule_network_prefix_framed :
    let hpke : Hpke := ⟨.base, .dhKem25519, .hkdfSha256, .chaCha20Poly1305⟩
    let ctx : Context := ⟨List.replicate 32 0, List.replicate 12 0, List.replicate 32 0, 0, hpke⟩
    let m : Message := ⟨[], [1], frame (List.replicate 12 0) ++ frame [] ++ [1], 1⟩
    let n : Network :=
      ⟨{ ctx with sequenceNumber := 1 }, { ctx with sequenceNumber := 1 }, [m], [([], [1])]⟩
    HpkeCrypto.framed.AeadBinding ∧ hpke.keySchedule .framed (fun _ => "") [] [] [] [] = .ok ctx ∧
      Relation.ReflTransGen (Network.Step .framed) ⟨ctx, ctx, [], []⟩ n ∧
      (∀ i a, n.accepted[i]? = some a → ∃ j m, n.sent[j]? = some m ∧ j % 2 ^ 32 = i % 2 ^ 32 ∧
        a = (m.aad, m.plainTxt)) ∧
      (n.sent.length < 2 ^ 32 → n.accepted <+: n.sent.map fun m => (m.aad, m.plainTxt)) := by
  intro hpke ctx m n
  have hks : hpke.keySchedule .framed (fun _ => "") [] [] [] [] = .ok ctx := rfl
  have hseal : ctx.seal .framed [] [1] =
      some (.ok m.cipherTxt, { ctx with sequenceNumber := 1 }) := by decide
  have hopen : ctx.open .framed [] m.cipherTxt =
      some (.ok [1], { ctx with sequenceNumber := 1 }) := by decide
  have hrun : Relation.ReflTransGen (Network.Step .framed) ⟨ctx, ctx, [], []⟩ n :=
    .tail (.single (@Network.Step.seal .framed ⟨ctx, ctx, [], []⟩ [] [1] _ _ hseal))
      (@Network.Step.deliver .framed _ m [] [1] _ (List.mem_singleton_self m) hopen)
  exact ⟨HpkeCrypto.framed_aeadBinding, hks, hrun,
    keySchedule_network_prefix HpkeCrypto.framed_aeadBinding hks hks hrun⟩

/-- In every reachable state of such a run, the receiver's `open` returns `Ok` on a sent
ciphertext exactly when its position in the order of sealing equals the receiver's number of
acceptances modulo `2^32` and it comes with its own aad, and then returns the plaintext that was
sealed. While fewer than `2^32` messages have been sealed that is the next one only; after `2^32`
acceptances it is the first one again. -/
theorem keySchedule_network_next (hC : C.AeadCorrect) (hB : C.AeadBinding)
    (hS : hpke.keySchedule C fmtError sharedSecret info psk pskId = .ok S)
    (hR : hpke.keySchedule C fmtError sharedSecret info psk pskId = .ok R)
    (hrun : Relation.ReflTransGen (Network.Step C) ⟨S, R, [], []⟩ n) :
    ∀ j m aad, n.sent[j]? = some m →
      (∀ pt R', n.receiver.open C aad m.cipherTxt = some (.ok pt, R') →
        j % 2 ^ 32 = n.accepted.length % 2 ^ 32 ∧ aad = m.aad ∧ pt = m.plainTxt) ∧
      (j % 2 ^ 32 = n.accepted.length % 2 ^ 32 → aad = m.aad →
        n.receiver.open C aad m.cipherTxt =
          some (.ok m.plainTxt, { n.receiver with sequenceNumber := m.seqAfter })) := by
  obtain rfl := Except.ok.inj (hS.symm.trans hR)
  have hi := Network.Inv.reachable hB hrun
  refine fun j m aad hj => ⟨fun pt R' h => ?_, fun hmod haad => ?_⟩
  · obtain ⟨hmod, haad, hpt, -⟩ := hi.opens_sent hB hj h
    exact ⟨hmod, haad, hpt⟩
  · subst haad
    exact hi.opens_of_mod hC hj hmod

theorem keySchedule_network_next_framed :
    let hpke : Hpke := ⟨.base, .dhKem25519, .hkdfSha256, .chaCha20Poly1305⟩
    let ctx : Context := ⟨List.replicate 32 0, List.replicate 12 0, List.replicate 32 0, 0, hpke⟩
    let m : Message := ⟨[], [1], frame (List.replicate 12 0) ++ frame [] ++ [1], 1⟩
    let n : Network := ⟨{ ctx with sequenceNumber := 1 }, ctx, [m], []⟩
    HpkeCrypto.framed.AeadCorrect ∧ HpkeCrypto.framed.AeadBinding ∧
      hpke.keySchedule .framed (fun _ => "") [] [] [] [] = .ok ctx ∧
      Relation.ReflTransGen (Network.Step .framed) ⟨ctx, ctx, [], []⟩ n ∧
      ∀ j m aad, n.sent[j]? = some m →
        (∀ pt R', n.receiver.open .framed aad m.cipherTxt = some (.ok pt, R') →
          j % 2 ^ 32 = n.accepted.length % 2 ^ 32 ∧ aad = m.aad ∧ pt = m.plainTxt) ∧
        (j % 2 ^ 32 = n.accepted.length % 2 ^ 32 → aad = m.aad →
          n.receiver.open .framed aad m.cipherTxt =
            some (.ok m.plainTxt, { n.receiver with sequenceNumber := m.seqAfter })) := by
  intro hpke ctx m n
  have hks : hpke.keySchedule .framed (fun _ => "") [] [] [] [] = .ok ctx := rfl
  have hseal : ctx.seal .framed [] [1] =
      some (.ok m.cipherTxt, { ctx with sequenceNumber := 1 }) := by decide
  have hrun : Relation.ReflTransGen (Network.Step .framed) ⟨ctx, ctx, [], []⟩ n :=
    .single (@Network.Step.seal .framed ⟨ctx, ctx, [], []⟩ [] [1] _ _ hseal)
  exact ⟨HpkeCrypto.framed_aeadCorrect, HpkeCrypto.framed_aeadBinding, hks, hrun,
    keySchedule_network_next HpkeCrypto.framed_aeadCorrect HpkeCrypto.framed_aeadBinding hks hks
      hrun⟩

end HpkeRs
