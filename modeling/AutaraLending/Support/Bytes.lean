import Mathlib.Data.List.Basic
import Mathlib.Tactic

/-! Regions of byte strings, read and overwritten in place, and little-endian words. -/

namespace Support.Bytes

variable {α : Type}

def region (bytes : List α) (start stop : Nat) : List α := (bytes.drop start).take (stop - start)

def overwrite (bytes : List α) (start : Nat) (patch : List α) : List α :=
  bytes.take start ++ (patch ++ bytes.drop (start + patch.length))

theorem length_region (bytes : List α) (start stop : Nat) (inside : stop ≤ bytes.length) :
    (region bytes start stop).length = stop - start := by
  simp only [region, List.length_take, List.length_drop]
  omega

theorem length_overwrite (bytes : List α) (start : Nat) (patch : List α)
    (inside : start + patch.length ≤ bytes.length) :
    (overwrite bytes start patch).length = bytes.length := by
  simp only [overwrite, List.length_append, List.length_take, List.length_drop]
  omega

theorem mem_of_mem_region {bytes : List α} {start stop : Nat} {a : α}
    (member : a ∈ region bytes start stop) : a ∈ bytes :=
  List.mem_of_mem_drop (List.mem_of_mem_take member)

theorem getElem?_region (bytes : List α) (start stop i : Nat) :
    (region bytes start stop)[i]? = if start + i < stop then bytes[start + i]? else none := by
  simp only [region, List.getElem?_take, List.getElem?_drop]
  by_cases below : start + i < stop
  · rw [if_pos below, if_pos (by omega)]
  · rw [if_neg below, if_neg (by omega)]

theorem getElem?_overwrite (bytes : List α) (start : Nat) (patch : List α) (i : Nat)
    (inside : start + patch.length ≤ bytes.length) :
    (overwrite bytes start patch)[i]? =
      if start ≤ i ∧ i < start + patch.length then patch[i - start]? else bytes[i]? := by
  have front : (bytes.take start).length = start := by
    rw [List.length_take]
    omega
  unfold overwrite
  by_cases before : i < start
  · rw [List.getElem?_append_left (by omega), List.getElem?_take, if_pos before, if_neg (by omega)]
  · rw [List.getElem?_append_right (by omega), front]
    by_cases within : i < start + patch.length
    · rw [List.getElem?_append_left (by omega), if_pos (by omega)]
    · rw [List.getElem?_append_right (by omega), List.getElem?_drop, if_neg (by omega)]
      congr 1
      omega

theorem region_overwrite (bytes : List α) (start : Nat) (patch : List α)
    (inside : start + patch.length ≤ bytes.length) :
    region (overwrite bytes start patch) start (start + patch.length) = patch := by
  apply List.ext_getElem?
  intro i
  rw [getElem?_region, getElem?_overwrite _ _ _ _ inside]
  by_cases below : start + i < start + patch.length
  · rw [if_pos below, if_pos (by omega)]
    congr 1
    omega
  · rw [if_neg below, List.getElem?_eq_none (by omega)]

theorem overwrite_overwrite (bytes : List α) (start : Nat) (patch patch' : List α)
    (inside : start + patch.length ≤ bytes.length) (same : patch'.length = patch.length) :
    overwrite (overwrite bytes start patch) start patch' = overwrite bytes start patch' := by
  apply List.ext_getElem?
  intro i
  rw [getElem?_overwrite _ _ _ _ (by rw [length_overwrite _ _ _ inside]; omega),
    getElem?_overwrite _ _ _ _ inside, getElem?_overwrite _ _ _ _ (by omega), same]
  by_cases within : start ≤ i ∧ i < start + patch.length
  · rw [if_pos within, if_pos within]
  · rw [if_neg within, if_neg within, if_neg within]

theorem region_overwrite_end (bytes : List α) (start offset : Nat) (patch : List α)
    (before : start ≤ offset) (inside : offset + patch.length ≤ bytes.length) :
    region (overwrite bytes offset patch) start (offset + patch.length) =
      region bytes start offset ++ patch := by
  have front : (region bytes start offset).length = offset - start :=
    length_region _ _ _ (by omega)
  apply List.ext_getElem?
  intro i
  rw [getElem?_region, getElem?_overwrite _ _ _ _ inside]
  by_cases early : start + i < offset
  · rw [if_pos (by omega), if_neg (by omega), List.getElem?_append_left (by omega), getElem?_region,
      if_pos early]
  · rw [List.getElem?_append_right (by omega), front]
    by_cases below : start + i < offset + patch.length
    · rw [if_pos below, if_pos (by omega)]
      congr 1
      omega
    · rw [if_neg below, List.getElem?_eq_none (by omega)]

theorem region_overwrite_disjoint (bytes : List α) (offset : Nat) (patch : List α)
    (start stop : Nat) (inside : offset + patch.length ≤ bytes.length)
    (disjoint : stop ≤ offset ∨ offset + patch.length ≤ start) :
    region (overwrite bytes offset patch) start stop = region bytes start stop := by
  apply List.ext_getElem?
  intro i
  rw [getElem?_region, getElem?_region, getElem?_overwrite _ _ _ _ inside]
  by_cases below : start + i < stop
  · rw [if_pos below, if_pos below, if_neg (by omega)]
  · rw [if_neg below, if_neg below]

theorem drop_overwrite (bytes : List α) (header start : Nat) (patch : List α)
    (inside : header + start + patch.length ≤ bytes.length) :
    (overwrite bytes (header + start) patch).drop header =
      overwrite (bytes.drop header) start patch := by
  apply List.ext_getElem?
  intro i
  rw [List.getElem?_drop, getElem?_overwrite _ _ _ _ inside,
    getElem?_overwrite _ _ _ _ (by rw [List.length_drop]; omega), List.getElem?_drop,
    Nat.add_sub_add_left]
  by_cases within : start ≤ i ∧ i < start + patch.length
  · rw [if_pos within, if_pos (by omega)]
  · rw [if_neg within, if_neg (by omega)]

theorem region_append (bytes rest : List α) (start stop : Nat) (inside : stop ≤ bytes.length) :
    region (bytes ++ rest) start stop = region bytes start stop := by
  apply List.ext_getElem?
  intro i
  rw [getElem?_region, getElem?_region]
  by_cases below : start + i < stop
  · rw [if_pos below, if_pos below, List.getElem?_append_left (by omega)]
  · rw [if_neg below, if_neg below]

def ofUInt32 (word : UInt32) : List UInt8 :=
  [word.toUInt8, (word >>> 8).toUInt8, (word >>> 16).toUInt8, (word >>> 24).toUInt8]

def ofUInt64 (word : UInt64) : List UInt8 :=
  [word.toUInt8, (word >>> 8).toUInt8, (word >>> 16).toUInt8, (word >>> 24).toUInt8,
    (word >>> 32).toUInt8, (word >>> 40).toUInt8, (word >>> 48).toUInt8, (word >>> 56).toUInt8]

@[simp] theorem length_ofUInt64 (word : UInt64) : (ofUInt64 word).length = 8 := rfl

def toUInt32 (bytes : List UInt8) : UInt32 :=
  bytes.foldr (fun byte word => word <<< 8 ||| byte.toUInt32) 0

@[simp] theorem length_ofUInt32 (word : UInt32) : (ofUInt32 word).length = 4 := rfl

theorem toUInt32_ofUInt32 (word : UInt32) : toUInt32 (ofUInt32 word) = word := by
  apply UInt32.toBitVec_inj.mp
  apply BitVec.eq_of_getLsbD_eq
  intro i below
  have byte : i < 8 ∨ (8 ≤ i ∧ i < 16) ∨ (16 ≤ i ∧ i < 24) ∨ 24 ≤ i := by omega
  simp [toUInt32, ofUInt32, -UInt32.toUInt32_toUInt8, -UInt32.toBitVec_mod, below]
  grind

end Support.Bytes
