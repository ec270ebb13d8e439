import AutaraLending.Support.FixedPoint
import AutaraLending.Support.LittleEndian

/-! Types whose values are laid out as byte strings of one length and read back from them. -/

namespace Support

class Pod (α : Type) where
  size : Nat
  bytesOf : α → List UInt8
  fromBytes : List UInt8 → α
  length_bytesOf : ∀ a, (bytesOf a).length = size
  fromBytes_bytesOf : ∀ a, fromBytes (bytesOf a) = a

namespace Pod

variable {α β : Type}

instance pair [Pod α] [Pod β] : Pod (α × β) where
  size := size α + size β
  bytesOf ab := bytesOf ab.1 ++ bytesOf ab.2
  fromBytes bytes := (fromBytes (bytes.take (size α)), fromBytes (bytes.drop (size α)))
  length_bytesOf ab := by rw [List.length_append, length_bytesOf, length_bytesOf]
  fromBytes_bytesOf ab := by
    rw [List.take_left' (length_bytesOf ab.1), List.drop_left' (length_bytesOf ab.1),
      fromBytes_bytesOf, fromBytes_bytesOf]

@[reducible] def ofFields [Pod β] (fields : α ≃ β) : Pod α where
  size := size β
  bytesOf a := bytesOf (fields a)
  fromBytes bytes := fields.symm (fromBytes bytes)
  length_bytesOf a := length_bytesOf (fields a)
  fromBytes_bytesOf a := by rw [fromBytes_bytesOf, Equiv.symm_apply_apply]

section Arrays

variable [Pod α]

def readMany : Nat → List UInt8 → List α
  | 0, _ => []
  | count + 1, bytes =>
      fromBytes (bytes.take (size α)) :: readMany count (bytes.drop (size α))

theorem length_readMany (count : Nat) (bytes : List UInt8) :
    (readMany count bytes : List α).length = count := by
  induction count generalizing bytes with
  | zero => rfl
  | succ count ih => rw [readMany, List.length_cons, ih]

theorem length_flatMap_bytesOf (values : List α) :
    (values.flatMap bytesOf).length = values.length * size α := by
  simp only [List.length_flatMap, length_bytesOf, List.map_const', List.sum_replicate, smul_eq_mul]

theorem readMany_flatMap_bytesOf (values : List α) :
    readMany values.length (values.flatMap bytesOf) = values := by
  induction values with
  | nil => rfl
  | cons value values ih =>
      have front := length_bytesOf value
      rw [List.flatMap_cons, List.length_cons, readMany, List.take_left' front,
        List.drop_left' front, fromBytes_bytesOf, ih]

instance array (count : Nat) : Pod (Vector α count) where
  size := count * size α
  bytesOf values := values.toList.flatMap bytesOf
  fromBytes bytes := ⟨(readMany count bytes).toArray, length_readMany count bytes⟩
  length_bytesOf values := by rw [length_flatMap_bytesOf, Vector.length_toList]
  fromBytes_bytesOf values := by
    have readBack := readMany_flatMap_bytesOf values.toList
    rw [Vector.length_toList] at readBack
    apply Vector.toList_inj.mp
    exact readBack

end Arrays

instance byte : Pod UInt8 where
  size := 1
  bytesOf value := [value]
  fromBytes bytes := bytes.headD 0
  length_bytesOf _ := rfl
  fromBytes_bytesOf _ := rfl

instance halfWord : Pod UInt16 where
  size := 2
  bytesOf value := LittleEndian.encode 2 value.toNat
  fromBytes bytes := UInt16.ofNat (LittleEndian.decode bytes)
  length_bytesOf value := LittleEndian.length_encode 2 value.toNat
  fromBytes_bytesOf value := by
    rw [LittleEndian.decode_encode 2 value.toNat value.toNat_lt, UInt16.ofNat_toNat]

instance doubleWord : Pod UInt64 where
  size := 8
  bytesOf value := LittleEndian.encode 8 value.toNat
  fromBytes bytes := UInt64.ofNat (LittleEndian.decode bytes)
  length_bytesOf value := LittleEndian.length_encode 8 value.toNat
  fromBytes_bytesOf value := by
    rw [LittleEndian.decode_encode 8 value.toNat value.toNat_lt, UInt64.ofNat_toNat]

instance signedDoubleWord : Pod Int64 where
  size := 8
  bytesOf value := bytesOf value.toUInt64
  fromBytes bytes := (fromBytes bytes : UInt64).toInt64
  length_bytesOf value := length_bytesOf value.toUInt64
  fromBytes_bytesOf value := by rw [fromBytes_bytesOf, Int64.toInt64_toUInt64]

instance word : Pod UInt32 where
  size := 4
  bytesOf value := LittleEndian.encode 4 value.toNat
  fromBytes bytes := UInt32.ofNat (LittleEndian.decode bytes)
  length_bytesOf value := LittleEndian.length_encode 4 value.toNat
  fromBytes_bytesOf value := by
    rw [LittleEndian.decode_encode 4 value.toNat value.toNat_lt, UInt32.ofNat_toNat]

end Pod

namespace Fixed

variable (format : Format)

theorem wrap_range (bits : Int) :
    format.minBits ≤ wrap format bits ∧ wrap format bits ≤ format.maxBits := by
  have positive : (0 : Int) < 2 ^ format.width := by positivity
  have lower := Int.emod_nonneg (bits - format.minBits) positive.ne'
  have upper := Int.emod_lt_of_pos (bits - format.minBits) positive
  unfold wrap Format.maxBits
  omega

theorem wrap_emod (bits : Int) : wrap format (bits % 2 ^ format.width) = wrap format bits := by
  unfold wrap
  rw [Int.emod_sub_emod]

@[reducible] def pod (count : Nat) (bytes : format.width = 8 * count) : Pod (Fixed format) where
  size := count
  bytesOf a := LittleEndian.encode count (a.bits % 2 ^ format.width).toNat
  fromBytes bytes :=
    ⟨wrap format (LittleEndian.decode bytes), (wrap_range format _).1, (wrap_range format _).2⟩
  length_bytesOf a := LittleEndian.length_encode count _
  fromBytes_bytesOf a := by
    have positive : (0 : Int) < 2 ^ format.width := by positivity
    have lower := Int.emod_nonneg a.bits positive.ne'
    have upper := Int.emod_lt_of_pos a.bits positive
    have fits : (a.bits % 2 ^ format.width).toNat < 256 ^ count := by
      have total : (256 : Nat) ^ count = 2 ^ format.width := by
        rw [bytes, pow_mul]
        norm_num
      rw [total, ← Int.ofNat_lt, Int.toNat_of_nonneg lower]
      exact_mod_cast upper
    apply ext_bits
    dsimp only
    rw [LittleEndian.decode_encode count _ fits, Int.toNat_of_nonneg lower, wrap_emod,
      wrap_of_range a.bits a.lower a.upper]

end Fixed

end Support
