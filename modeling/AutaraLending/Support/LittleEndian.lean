import Mathlib.Data.Nat.Digits.Defs
import Mathlib.Tactic

/-! Numbers as byte strings of a fixed length, lowest byte first. -/

namespace Support.LittleEndian

def encode : (width : Nat) → Nat → List UInt8
  | 0, _ => []
  | width + 1, n => UInt8.ofNat n :: encode width (n / 256)

def decode (bytes : List UInt8) : Nat := Nat.ofDigits 256 (bytes.map UInt8.toNat)

@[simp] theorem length_encode (width n : Nat) : (encode width n).length = width := by
  induction width generalizing n with
  | zero => rfl
  | succ width ih => rw [encode, List.length_cons, ih]

@[simp] theorem decode_cons (byte : UInt8) (bytes : List UInt8) :
    decode (byte :: bytes) = byte.toNat + 256 * decode bytes := by
  rw [decode, List.map_cons, Nat.ofDigits_cons]
  rfl

theorem decode_encode (width n : Nat) (fits : n < 256 ^ width) : decode (encode width n) = n := by
  induction width generalizing n with
  | zero =>
      rw [pow_zero] at fits
      rw [encode, Nat.lt_one_iff.mp fits]
      rfl
  | succ width ih =>
      rw [pow_succ] at fits
      rw [encode, decode_cons, ih (n / 256) (by omega), UInt8.toNat_ofNat']
      omega

end Support.LittleEndian
