import AutaraLending.Support.Bytes

/-! A document that is sent in blocks of one size to a store that keeps what lands. A block may land
late, land twice or be lost. -/

namespace Support.Blocks

open Bytes

variable {α : Type} (doc : List α) (size : Nat)

def count : Nat := (doc.length + size - 1) / size

def block (i : Nat) : List α := region doc (i * size) (min ((i + 1) * size) doc.length)

/-- The store has the document's elements all along a block. -/
def Holds (store : List α) (i : Nat) : Prop :=
  ∀ k, k / size = i → k < doc.length → store[k]? = doc[k]?

def land (store : List α) (i : Nat) : List α := overwrite store (i * size) (block doc size i)

section

variable {doc : List α} {size : Nat} {store : List α} {i : Nat}

theorem lt_count_iff (positive : 0 < size) : i < count doc size ↔ i * size < doc.length := by
  unfold count
  rw [Nat.lt_div_iff_mul_lt positive]
  omega

theorem div_eq_iff_within (positive : 0 < size) (k : Nat) :
    k / size = i ↔ i * size ≤ k ∧ k < (i + 1) * size := by
  rw [Nat.div_eq_iff positive, Nat.succ_mul]
  omega

theorem length_block :
    (block doc size i).length = min ((i + 1) * size) doc.length - i * size :=
  length_region _ _ _ (Nat.min_le_right _ _)

theorem block_end (started : i * size < doc.length) :
    i * size + (block doc size i).length = min ((i + 1) * size) doc.length := by
  rw [length_block, Nat.succ_mul]
  omega

theorem block_eq_take : block doc size i = (doc.drop (i * size)).take size := by
  apply List.ext_getElem?
  intro k
  rw [block, getElem?_region, List.getElem?_take, List.getElem?_drop, Nat.succ_mul]
  by_cases inside : k < size
  · rw [if_pos inside]
    by_cases present : i * size + k < doc.length
    · rw [if_pos (by omega)]
    · rw [if_neg (by omega), List.getElem?_eq_none (by omega)]
  · rw [if_neg inside, if_neg (by omega)]

theorem getElem?_block (k : Nat) (before : i * size ≤ k)
    (inside : k < min ((i + 1) * size) doc.length) :
    (block doc size i)[k - i * size]? = doc[k]? := by
  rw [block, getElem?_region, if_pos (by omega)]
  congr 1
  omega

theorem holds_iff_region (positive : 0 < size) (started : i * size < doc.length) :
    Holds doc size store i ↔
      i * size + (block doc size i).length ≤ store.length ∧
        region store (i * size) (i * size + (block doc size i).length) = block doc size i := by
  have stop := block_end started
  constructor
  · intro holds
    have agree (k : Nat) (before : i * size ≤ k) (inside : k < min ((i + 1) * size) doc.length) :
        store[k]? = doc[k]? :=
      holds k ((div_eq_iff_within positive k).mpr ⟨before, by omega⟩) (by omega)
    have room : i * size + (block doc size i).length ≤ store.length := by
      -- the last element of the block is in the store
      have inside : min ((i + 1) * size) doc.length - 1 < doc.length := by omega
      have last := agree (min ((i + 1) * size) doc.length - 1)
        (by rw [Nat.succ_mul]; omega) (by rw [Nat.succ_mul]; omega)
      rw [List.getElem?_eq_getElem inside] at last
      have below := (List.getElem?_eq_some_iff.mp last).1
      omega
    refine ⟨room, ?_⟩
    apply List.ext_getElem?
    intro k
    rw [getElem?_region, stop]
    by_cases inside : i * size + k < min ((i + 1) * size) doc.length
    · rw [if_pos inside, agree _ (by omega) inside, ← getElem?_block _ (by omega) inside]
      congr 1
      omega
    · rw [if_neg inside, List.getElem?_eq_none (by omega)]
  · rintro ⟨-, same⟩ k place below
    obtain ⟨before, after⟩ := (div_eq_iff_within positive k).mp place
    have inside : k < min ((i + 1) * size) doc.length := by omega
    have read := getElem?_region store (i * size) (i * size + (block doc size i).length)
      (k - i * size)
    rw [if_pos (by omega), same, getElem?_block k before inside, Nat.add_sub_cancel' before] at read
    exact read.symm

variable (size) in
theorem prefix_iff_holds :
    doc <+: store ↔ ∀ i, i * size < doc.length → Holds doc size store i := by
  rw [List.prefix_iff_getElem?]
  constructor
  · intro agree i _ k _ below
    rw [agree k below, List.getElem?_eq_getElem below]
  · intro held k below
    rw [held (k / size) (lt_of_le_of_lt (Nat.div_mul_le_self k size) below) k rfl below,
      List.getElem?_eq_getElem below]

theorem getElem?_land (positive : 0 < size) (room : doc.length ≤ store.length)
    (started : i * size < doc.length) (k : Nat) :
    (land doc size store i)[k]? = if k / size = i ∧ k < doc.length then doc[k]? else store[k]? := by
  have stop := block_end started
  have within := div_eq_iff_within (i := i) positive k
  rw [land, getElem?_overwrite _ _ _ _ (by omega), stop]
  by_cases inside : i * size ≤ k ∧ k < min ((i + 1) * size) doc.length
  · rw [if_pos inside, if_pos ⟨within.mpr ⟨inside.1, by omega⟩, by omega⟩,
      getElem?_block k inside.1 inside.2]
  · rw [if_neg inside, if_neg (fun place => inside (by have := within.mp place.1; omega))]

theorem holds_land (positive : 0 < size) (room : doc.length ≤ store.length)
    (started : i * size < doc.length) (j : Nat) :
    Holds doc size (land doc size store i) j ↔ j = i ∨ Holds doc size store j := by
  by_cases same : j = i
  · refine ⟨fun _ => Or.inl same, fun _ k place below => ?_⟩
    rw [getElem?_land positive room started, if_pos ⟨place.trans same, below⟩]
  · have untouched (k : Nat) (place : k / size = j) : (land doc size store i)[k]? = store[k]? := by
      rw [getElem?_land positive room started,
        if_neg (fun landed => same (place.symm.trans landed.1))]
    constructor
    · intro holds
      exact Or.inr fun k place below => (untouched k place).symm.trans (holds k place below)
    · intro holds k place below
      exact (untouched k place).trans ((holds.resolve_left same) k place below)

end

end Support.Blocks
