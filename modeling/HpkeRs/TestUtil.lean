import HpkeRs.Crypto

/-! The hex helpers of `test_util` (`src/lib.rs` lines 962-979). `bytes_to_hex` appends two
upper-case digits per byte (`{:02X}`); `hex_to_bytes` asserts an even length and parses the
two-byte slices `hex[2i..2i+2]` in order with `u8::from_str_radix(.., 16).unwrap()`. A Rust
string is its UTF-8 bytes, and so is the model's; a panic is `none`.

Reading back what `bytes_to_hex` wrote gives the bytes (`hexToBytes_bytesToHex`). The converse
fails: `from_str_radix` also reads lower-case digits and a leading `+`, so `"+A"`, `"0a"` and
`"0A"` all decode to `[0x0A]`. -/

namespace HpkeRs

/-- The upper-case hex digit of `d < 16`, as an ASCII byte. -/
def hexDigitUpper (d : Nat) : UInt8 :=
  if d < 10 then UInt8.ofNat (48 + d) else UInt8.ofNat (55 + d)

/-- `format!("{:02X}", b)`: the two digits of `b`, high first. -/
def hexByte (b : UInt8) : Bytes :=
  [hexDigitUpper (b.toNat / 16), hexDigitUpper (b.toNat % 16)]

/-- `test_util::bytes_to_hex`. -/
def bytesToHex (bytes : Bytes) : Bytes :=
  bytes.foldl (fun hex b => hex ++ hexByte b) []

/-- `char::to_digit(16)` of a byte read as a character: `0-9`, `a-f` and `A-F`. -/
def toDigit (c : UInt8) : Option Nat :=
  if 48 ≤ c.toNat ∧ c.toNat ≤ 57 then some (c.toNat - 48)
  else if 97 ≤ c.toNat ∧ c.toNat ≤ 102 then some (c.toNat - 87)
  else if 65 ≤ c.toNat ∧ c.toNat ≤ 70 then some (c.toNat - 55)
  else none

/-- `u8::from_str_radix(s, 16)` on a two-byte slice `s = [h, l]`: a leading `+` is skipped (a `-`
is not, for an unsigned type), and what follows must be hex digits. A slice that cuts a
multi-byte character panics in Rust; it holds a byte above `0x7F`, which is no digit, so both
panics are `none`. -/
def fromStrRadix16 (h l : UInt8) : Option UInt8 :=
  if h = 43 then (toDigit l).map UInt8.ofNat
  else do
    let a ← toDigit h
    let b ← toDigit l
    pure (UInt8.ofNat (a * 16 + b))

/-- `test_util::hex_to_bytes`. -/
def hexToBytes (hex : Bytes) : Option Bytes :=
  if hex.length % 2 ≠ 0 then none else loop hex
where
  /-- The loop over the slices `hex[2i..2i+2]`. -/
  loop : Bytes → Option Bytes
    | h :: l :: rest => do
        let b ← fromStrRadix16 h l
        let bytes ← loop rest
        pure (b :: bytes)
    | _ => some []

theorem bytesToHex_cons (b : UInt8) (bytes : Bytes) :
    bytesToHex (b :: bytes) = hexByte b ++ bytesToHex bytes := by
  have hfold : ∀ (bs acc : Bytes),
      bs.foldl (fun hex b => hex ++ hexByte b) acc = acc ++ bytesToHex bs := by
    intro bs
    induction bs with
    | nil => exact fun acc => (List.append_nil acc).symm
    | cons c bs ih =>
        intro acc
        show bs.foldl _ (acc ++ hexByte c) = acc ++ bs.foldl _ ([] ++ hexByte c)
        rw [ih, ih, List.nil_append, List.append_assoc]
  show bytes.foldl _ ([] ++ hexByte b) = _
  rw [hfold, List.nil_append]

theorem length_bytesToHex (bytes : Bytes) : (bytesToHex bytes).length = 2 * bytes.length := by
  induction bytes with
  | nil => rfl
  | cons b bytes ih =>
      simp only [bytesToHex_cons, hexByte, List.length_append, ih, List.length_cons,
        List.length_nil]
      omega

/-- The sixteen digits `bytes_to_hex` writes: each reads back as itself, and none is `+`. -/
theorem toDigit_hexDigitUpper {d : Nat} (h : d < 16) :
    toDigit (hexDigitUpper d) = some d ∧ hexDigitUpper d ≠ 43 :=
  (show ∀ d < 16, toDigit (hexDigitUpper d) = some d ∧ hexDigitUpper d ≠ 43 by decide) d h

theorem fromStrRadix16_hexByte (b : UInt8) :
    fromStrRadix16 (hexDigitUpper (b.toNat / 16)) (hexDigitUpper (b.toNat % 16)) = some b := by
  have hb : b.toNat < 256 := b.toNat_lt_size
  obtain ⟨hhigh, hplus⟩ := toDigit_hexDigitUpper (show b.toNat / 16 < 16 by omega)
  have hlow := (toDigit_hexDigitUpper (Nat.mod_lt b.toNat (show 16 > 0 by decide))).1
  simp only [fromStrRadix16, hplus, if_false, hhigh, hlow]
  exact congrArg some (UInt8.toNat.inj (by rw [UInt8.toNat_ofNat']; omega))

/-- Reading back what `bytes_to_hex` wrote gives the bytes, with no panic. -/
theorem hexToBytes_bytesToHex (bytes : Bytes) : hexToBytes (bytesToHex bytes) = some bytes := by
  have hloop : hexToBytes.loop (bytesToHex bytes) = some bytes := by
    induction bytes with
    | nil => rfl
    | cons b bytes ih =>
        simp only [bytesToHex_cons, hexByte, List.cons_append, List.nil_append, hexToBytes.loop,
          fromStrRadix16_hexByte, ih]
        rfl
  simp [hexToBytes, length_bytesToHex, hloop]

/-- Writing back what `hex_to_bytes` read need not give the string: `"+A"`, `"0A"` and `"0a"`
decode alike. -/
example : hexToBytes [0x2B, 0x41] = some [0x0A] ∧ hexToBytes [0x30, 0x41] = some [0x0A] ∧
    hexToBytes [0x30, 0x61] = some [0x0A] := by
  decide

end HpkeRs
