import HpkeRs.Crypto

/-! Equality of private keys (`impl PartialEq for HpkePrivateKey`, `src/lib.rs` lines 812-826).

Keys of different lengths compare unequal at once. Otherwise the loop ORs the XOR of every byte
pair into `different_bits`, and the final expression is meant to be `1` exactly when that byte
is `0`. On a `u8`, `wrapping_shr(8)` shifts by `8 mod 8 = 0`, so the expression computes
`1 & (different_bits - 2)`: the comparison reports equality whenever the accumulated difference
is even (`finalCheck_iff`), that is, whenever the keys agree in the lowest bit of every byte
(`eq_eq_true_iff_lowBits`). That holds for equal keys, but also for `[0x00]` and `[0x02]`
(`eq_zero_two`). It is an equivalence on keys, as `PartialEq` asks, but not equality
(`eq_lowBits_laws`). -/

namespace HpkeRs

/-- `u8::wrapping_shr`: the shift amount is taken modulo the width, 8. -/
def wrappingShr (x : UInt8) (rhs : UInt32) : UInt8 := x >>> (rhs % 8).toUInt8

/-- The loop's `different_bits |= byte_a ^ byte_b` over the zipped key bytes. -/
def differentBits (a b : Bytes) : UInt8 :=
  (a.zip b).foldl (fun acc p => acc ||| (p.1 ^^^ p.2)) 0

/-- `PartialEq::eq for HpkePrivateKey`; `-` on `UInt8` is `wrapping_sub`. -/
def HpkePrivateKey.eq (self other : HpkePrivateKey) : Bool :=
  if self.value.length ≠ other.value.length then false
  else (1 &&& (wrappingShr (differentBits self.value other.value - 1) 8 - 1)) == 0

theorem wrappingShr_eight (x : UInt8) : wrappingShr x 8 = x := by
  apply UInt8.eq_of_toBitVec_eq
  simp [wrappingShr, HShiftRight.hShiftRight, UInt8.shiftRight, UInt8.mod]
  rfl

theorem UInt8.or_mod_two_eq_zero {a b : UInt8} :
    (a ||| b).toNat % 2 = 0 ↔ a.toNat % 2 = 0 ∧ b.toNat % 2 = 0 := by
  rw [show (a ||| b).toNat = a.toNat ||| b.toNat from BitVec.toNat_or ..]
  have := @Nat.or_mod_two_eq_one a.toNat b.toNat
  omega

theorem UInt8.xor_mod_two_eq_zero {a b : UInt8} :
    (a ^^^ b).toNat % 2 = 0 ↔ a.toNat % 2 = b.toNat % 2 := by
  rw [show (a ^^^ b).toNat = a.toNat ^^^ b.toNat from BitVec.toNat_xor .., Nat.xor_mod_two_eq]
  omega

theorem foldl_differentBits_mod_two (l : List (UInt8 × UInt8)) (acc : UInt8) :
    (l.foldl (fun acc p => acc ||| (p.1 ^^^ p.2)) acc).toNat % 2 = 0 ↔
      acc.toNat % 2 = 0 ∧ ∀ p ∈ l, p.1.toNat % 2 = p.2.toNat % 2 := by
  induction l generalizing acc with
  | nil => simp
  | cons p l ih =>
      simp only [List.foldl_cons, ih, UInt8.or_mod_two_eq_zero, UInt8.xor_mod_two_eq_zero,
        List.mem_cons, forall_eq_or_imp, and_assoc]

/-- The final expression of the comparison is `0` exactly when the accumulated difference is
even. -/
theorem finalCheck_iff (d : UInt8) :
    ((1 &&& (wrappingShr (d - 1) 8 - 1)) == 0) = true ↔ d.toNat % 2 = 0 := by
  simp only [beq_iff_eq, UInt8.ext_iff, UInt8.and_toNat, UInt8.toNat_sub, wrappingShr_eight,
    UInt8.toNat_zero, show (1 : UInt8).toNat = 1 from rfl, Nat.one_and_eq_mod_two, UInt8.size]
  have : d.toNat < 256 := d.toNat_lt_size
  omega

theorem forall_zip_iff_map_eq (f : UInt8 → Nat) :
    ∀ {a b : Bytes}, a.length = b.length →
      ((∀ p ∈ a.zip b, f p.1 = f p.2) ↔ a.map f = b.map f)
  | [], [], _ => by simp
  | x :: a, y :: b, h => by
      simp only [List.zip_cons_cons, List.mem_cons, forall_eq_or_imp, List.map_cons,
        List.cons.injEq, forall_zip_iff_map_eq f (Nat.succ.inj h)]
  | [], _ :: _, h | _ :: _, [], h => by simp at h

/-- The comparison looks only at the lowest bit of each byte. -/
theorem eq_eq_true_iff_lowBits (a b : HpkePrivateKey) :
    a.eq b = true ↔ a.value.map (·.toNat % 2) = b.value.map (·.toNat % 2) := by
  unfold HpkePrivateKey.eq
  by_cases h : a.value.length = b.value.length
  · rw [if_neg (not_not.mpr h), finalCheck_iff, differentBits, foldl_differentBits_mod_two,
      ← forall_zip_iff_map_eq _ h]
    simp
  · simp only [h, ne_eq, not_false_eq_true, if_true, Bool.false_eq_true, false_iff]
    exact fun hm => h (by simpa using congrArg List.length hm)

/-- The keys `[0x00]` and `[0x02]` differ, and the comparison reports them equal. -/
theorem eq_zero_two : HpkePrivateKey.eq ⟨[0x00]⟩ ⟨[0x02]⟩ = true ∧ ([0x00] : Bytes) ≠ [0x02] :=
  ⟨(eq_eq_true_iff_lowBits _ _).mpr rfl, by decide⟩

/-- For all keys, the comparison reports equality exactly when the keys agree in the lowest bit
of every byte. It is therefore symmetric and transitive, the laws of `PartialEq`, though it is
not equality of keys. -/
theorem eq_lowBits_laws (a b c : HpkePrivateKey) :
    (a.eq b = true ↔ a.value.map (·.toNat % 2) = b.value.map (·.toNat % 2)) ∧
      a.eq b = b.eq a ∧ (a.eq b = true → b.eq c = true → a.eq c = true) := by
  refine ⟨eq_eq_true_iff_lowBits a b, Bool.eq_iff_iff.mpr ?_, fun hab hbc => ?_⟩
  · rw [eq_eq_true_iff_lowBits, eq_eq_true_iff_lowBits]
    exact eq_comm
  · rw [eq_eq_true_iff_lowBits] at hab hbc ⊢
    exact hab.trans hbc

end HpkeRs
