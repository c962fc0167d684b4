import HpkeRs.Types

/-! The deterministic generator of the libcrux provider (`impl HpkeTestRng for HpkeLibcruxPrng`
under the feature `deterministic-prng`, `libcrux_provider/src/lib.rs` lines 306-331).

`seed` replaces the pool `fake_rng`; a draw of `k` bytes fails on a pool of fewer than `k` bytes
and otherwise returns the pool's last `k` bytes and keeps the rest (`split_off`). After `seed(s)`
the pool is always a prefix `s[0 .. n-K]` of the seed, where `K` is the total drawn so far
(`tryFillTestBytes_take`), so the code refines the spec's account of a run (`seededDraws`): every
sequence of draws returns what the spec says, and the successful draws, last first, tile the
seed's last `K` bytes (`fillRun_seed`). `Hpke::random` draws through it
(`length_of_random`). -/

namespace HpkeRs

/-- `HpkeLibcruxPrng` under `deterministic-prng`, as far as `seed` and `try_fill_test_bytes` read
it: the pool `fake_rng`. -/
structure HpkeLibcruxPrng where
  fakeRng : Bytes
  deriving DecidableEq, Repr

namespace HpkeLibcruxPrng

/-- `HpkeTestRng::seed`. -/
def seed (self : HpkeLibcruxPrng) (seed : Bytes) : HpkeLibcruxPrng :=
  { self with fakeRng := seed }

/-- `HpkeTestRng::try_fill_test_bytes` on a buffer `dest` of `destLen` bytes: what is written to
`dest`, and the generator after the call. -/
def tryFillTestBytes (self : HpkeLibcruxPrng) (destLen : Nat) :
    Except Error Bytes × HpkeLibcruxPrng :=
  if destLen > self.fakeRng.length then (.error .insufficientRandomness, self)
  else
    let cut := self.fakeRng.length - destLen
    (.ok (self.fakeRng.drop cut), { self with fakeRng := self.fakeRng.take cut })

/-- Draws of the lengths `lens` in order: their results, and the generator after the last. -/
def fillRun (self : HpkeLibcruxPrng) : List Nat → List (Except Error Bytes) × HpkeLibcruxPrng
  | [] => ([], self)
  | len :: lens =>
      let (r, p) := self.tryFillTestBytes len
      let (rs, p') := p.fillRun lens
      (r :: rs, p')

end HpkeLibcruxPrng

/-- `Hpke::random` under `hpke-test-prng` with the libcrux generator (`src/lib.rs` lines 719-732):
`len` bytes from `try_fill_test_bytes`, a failure reported as `InsufficientRandomness`. It reads
only the configuration's generator. -/
def Hpke.random (prng : HpkeLibcruxPrng) (len : Nat) : Except HpkeError Bytes × HpkeLibcruxPrng :=
  let (r, prng') := prng.tryFillTestBytes len
  (r.mapError fun _ => .insufficientRandomness, prng')

/-- A successful draw returns `len` bytes, the pool's last, and keeps the rest. -/
theorem length_of_random {p p' : HpkeLibcruxPrng} {len : Nat} {out : Bytes}
    (h : Hpke.random p len = (.ok out, p')) : out.length = len ∧ p'.fakeRng ++ out = p.fakeRng := by
  simp only [Hpke.random, HpkeLibcruxPrng.tryFillTestBytes] at h
  split_ifs at h with hlen
  · simp [Except.mapError] at h
  · simp only [Except.mapError, Prod.mk.injEq, Except.ok.injEq] at h
    obtain ⟨rfl, rfl⟩ := h
    exact ⟨by simp only [List.length_drop]; omega, List.take_append_drop _ _⟩

/-- The spec's account of draws from a pool seeded with `s`, after successful draws of `used`
bytes in total: a draw of `len` bytes succeeds exactly when at most `n - used` remain, and then
returns `s[n-(used+len) .. n-used]`; a failed draw takes nothing. The second component is the
total drawn at the end. -/
def seededDraws (s : Bytes) (used : Nat) : List Nat → List (Except Error Bytes) × Nat
  | [] => ([], used)
  | len :: lens =>
      if len ≤ s.length - used then
        let (rs, total) := seededDraws s (used + len) lens
        (.ok ((s.take (s.length - used)).drop (s.length - (used + len))) :: rs, total)
      else
        let (rs, total) := seededDraws s used lens
        (.error .insufficientRandomness :: rs, total)

/-- The successful draws of a run. -/
def drawn (rs : List (Except Error Bytes)) : List Bytes :=
  rs.filterMap fun r => match r with
    | .ok bytes => some bytes
    | .error _ => none

namespace HpkeLibcruxPrng

variable {s : Bytes} {used : Nat}

/-- The step lemma: on the pool `s[0 .. n-used]` a draw behaves as the spec says. -/
theorem tryFillTestBytes_take (h : used ≤ s.length) (len : Nat) :
    (⟨s.take (s.length - used)⟩ : HpkeLibcruxPrng).tryFillTestBytes len =
      if len ≤ s.length - used then
        (.ok ((s.take (s.length - used)).drop (s.length - (used + len))),
          ⟨s.take (s.length - (used + len))⟩)
      else (.error .insufficientRandomness, ⟨s.take (s.length - used)⟩) := by
  have hlen : (s.take (s.length - used)).length = s.length - used := by
    rw [List.length_take]
    omega
  unfold tryFillTestBytes
  dsimp only
  rw [hlen]
  by_cases hk : len ≤ s.length - used
  · rw [if_neg (by omega), if_pos hk, List.take_take, Nat.sub_sub, Nat.min_eq_left (by omega)]
  · rw [if_pos (by omega), if_neg hk]

/-- The run lemma: from the pool `s[0 .. n-used]`, a run returns what the spec says and leaves the
pool `s[0 .. n-total]`. -/
theorem fillRun_take (h : used ≤ s.length) (lens : List Nat) :
    (⟨s.take (s.length - used)⟩ : HpkeLibcruxPrng).fillRun lens =
      ((seededDraws s used lens).1, ⟨s.take (s.length - (seededDraws s used lens).2)⟩) := by
  induction lens generalizing used with
  | nil => rfl
  | cons len lens ih =>
      simp only [fillRun, seededDraws, tryFillTestBytes_take h]
      by_cases hk : len ≤ s.length - used
      · simp only [if_pos hk, ih (show used + len ≤ s.length by omega)]
      · simp only [if_neg hk, ih h]

end HpkeLibcruxPrng

theorem take_drop_append_take_drop (s : Bytes) {a b c : Nat} (hab : a ≤ b) (hbc : b ≤ c)
    (hc : c ≤ s.length) : (s.take b).drop a ++ (s.take c).drop b = (s.take c).drop a := by
  conv_rhs => rw [← List.take_append_drop b (s.take c)]
  rw [List.drop_append_of_le_length (by simp; omega), List.take_take, Nat.min_eq_left hbc]

/-- What the spec's run draws: never more than the seed, and the successful draws, last first,
tile `s[n-total .. n-used]`. -/
theorem seededDraws_tile {s : Bytes} {used : Nat} (h : used ≤ s.length) (lens : List Nat) :
    used ≤ (seededDraws s used lens).2 ∧ (seededDraws s used lens).2 ≤ s.length ∧
      (drawn (seededDraws s used lens).1).reverse.flatten =
        (s.take (s.length - used)).drop (s.length - (seededDraws s used lens).2) := by
  induction lens generalizing used with
  | nil => exact ⟨le_rfl, h, (List.drop_eq_nil_of_le (by simp [seededDraws])).symm⟩
  | cons len lens ih =>
      by_cases hk : len ≤ s.length - used
      · obtain ⟨hused, htotal, htile⟩ := ih (show used + len ≤ s.length by omega)
        simp only [seededDraws, if_pos hk, drawn, List.filterMap_cons, List.reverse_cons,
          List.flatten_append, List.flatten_singleton] at htile ⊢
        refine ⟨by omega, htotal, ?_⟩
        rw [htile, take_drop_append_take_drop s (by omega) (by omega) (by omega)]
      · simpa only [seededDraws, if_neg hk, drawn, List.filterMap_cons] using ih h

/-- After `seed(s)`, from any generator, every sequence of draws returns exactly what the spec
says; the pool is then the seed's first `n - K` bytes, where `K ≤ n` is the total drawn, and the
successful draws, last first, are the seed's last `K` bytes, so none is returned twice. -/
theorem fillRun_seed (p : HpkeLibcruxPrng) (s : Bytes) (lens : List Nat) :
    (p.seed s).fillRun lens =
      ((seededDraws s 0 lens).1, ⟨s.take (s.length - (seededDraws s 0 lens).2)⟩) ∧
    (seededDraws s 0 lens).2 ≤ s.length ∧
    (drawn (seededDraws s 0 lens).1).reverse.flatten =
      s.drop (s.length - (seededDraws s 0 lens).2) := by
  have hseed : p.seed s = ⟨s.take (s.length - 0)⟩ := by
    rw [Nat.sub_zero, List.take_length]
    rfl
  obtain ⟨-, htotal, htile⟩ := seededDraws_tile (Nat.zero_le s.length) lens
  rw [Nat.sub_zero, List.take_length] at htile
  exact ⟨hseed ▸ HpkeLibcruxPrng.fillRun_take (Nat.zero_le _) lens, htotal, htile⟩

end HpkeRs
