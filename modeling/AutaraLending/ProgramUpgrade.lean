import AutaraLending.IdlPublishing
import AutaraLending.Support.Blocks

/-! The client that upgrades a program in place. It writes the ELF in chunks and never confirms a
write: the program account, read again, decides which chunks are still missing. -/

namespace AutaraLending

open Support

namespace Upgrade

def getFrom (bytes : List UInt8) (start : Nat) : Option (List UInt8) :=
  if start ≤ bytes.length then some (bytes.drop start) else none

def getRange (bytes : List UInt8) (start stop : Nat) : Option (List UInt8) :=
  if start ≤ stop ∧ stop ≤ bytes.length then some (Bytes.region bytes start stop) else none

structure LoaderWrite where
  offset : UInt32
  bytes : List UInt8
  deriving DecidableEq, Repr

/-- The loader, which is not part of the repository. A write stores its bytes behind the header at
its offset and changes nothing else. What becomes of a write beyond the account is left open. -/
structure Loader where
  programDataOffset : Nat
  write : LoaderWrite → List UInt8 → List UInt8
  stores : ∀ instruction accountData,
    programDataOffset + instruction.offset.toNat + instruction.bytes.length ≤ accountData.length →
      write instruction accountData = Bytes.overwrite accountData
        (programDataOffset + instruction.offset.toNat) instruction.bytes

def chunkDiffers (onchain : List UInt8) (chunkSize : Nat) : List UInt8 × Nat → Bool
  | (want, i) =>
      let start := i * chunkSize
      (getRange onchain start (start + want.length)).all fun got => got != want

section

variable (loader : Loader) (elf : List UInt8) (chunkSize : Nat)

/-- The indices of the chunks whose bytes on the chain do not match the ELF. -/
def missingChunks (accountData : List UInt8) : List Nat :=
  let onchain := (getFrom accountData loader.programDataOffset).getD []
  ((Idl.chunks chunkSize elf).zipIdx.filter (chunkDiffers onchain chunkSize)).map Prod.snd

/-- The write that `upgrade_in_place` sends for a missing chunk. The offset is cast to 32 bits. -/
def chunkWrite (i : Nat) : LoaderWrite where
  offset := UInt32.ofNat (i * chunkSize)
  bytes := Bytes.region elf (i * chunkSize) (min ((i + 1) * chunkSize) elf.length)

/-- The account after chunk writes have landed in the order of the list. -/
def landAll (landed : List Nat) (accountData : List UInt8) : List UInt8 :=
  landed.foldl (fun accountData i => loader.write (chunkWrite elf chunkSize i) accountData)
    accountData

/-- Whatever part of the missing chunks lands, what is missing then is what did not land, and when
all of it has landed the ELF is complete. -/
def Reconciles (accountData : List UInt8) : Prop :=
  ∀ landed : List Nat, (∀ i ∈ landed, i ∈ missingChunks loader elf chunkSize accountData) →
    missingChunks loader elf chunkSize (landAll loader elf chunkSize landed accountData) =
        (missingChunks loader elf chunkSize accountData).filter (fun i => i ∉ landed) ∧
      ((∀ i ∈ missingChunks loader elf chunkSize accountData, i ∈ landed) →
        elf <+: (landAll loader elf chunkSize landed accountData).drop loader.programDataOffset)

end

section

variable {loader : Loader} {elf accountData want : List UInt8} {chunkSize i : Nat}

/-! The sender and the checker cut the ELF in the same places. -/

theorem getElem?_chunks (positive : 0 < chunkSize) :
    (Idl.chunks chunkSize elf)[i]? = some want ↔
      i * chunkSize < elf.length ∧ want = Blocks.block elf chunkSize i := by
  have bound : i < Blocks.count elf chunkSize ↔ i * chunkSize < elf.length :=
    Blocks.lt_count_iff positive
  unfold Blocks.count at bound
  rw [Idl.chunks, List.getElem?_map, Option.map_eq_some_iff, Blocks.block_eq_take]
  constructor
  · rintro ⟨j, read, rfl⟩
    obtain ⟨below, rfl⟩ := List.getElem?_eq_some_iff.mp read
    rw [List.getElem_range]
    rw [List.length_range] at below
    exact ⟨bound.mp below, rfl⟩
  · rintro ⟨started, rfl⟩
    exact ⟨i, List.getElem?_range (bound.mpr started), rfl⟩

theorem getFrom_getD (bytes : List UInt8) (start : Nat) :
    (getFrom bytes start).getD [] = bytes.drop start := by
  unfold getFrom
  by_cases inside : start ≤ bytes.length
  · rw [if_pos inside, Option.getD_some]
  · rw [if_neg inside, Option.getD_none, List.drop_of_length_le (by omega)]

theorem chunkDiffers_iff (positive : 0 < chunkSize) (started : i * chunkSize < elf.length)
    (onchain : List UInt8) :
    chunkDiffers onchain chunkSize (Blocks.block elf chunkSize i, i) = true ↔
      ¬ Blocks.Holds elf chunkSize onchain i := by
  rw [Blocks.holds_iff_region positive started]
  simp only [chunkDiffers, getRange, Nat.le_add_right, true_and]
  by_cases room : i * chunkSize + (Blocks.block elf chunkSize i).length ≤ onchain.length
  · rw [if_pos room, Option.all_some, bne_iff_ne]
    exact ⟨fun differ same => differ same.2, fun missing same => missing ⟨room, same⟩⟩
  · rw [if_neg room]
    exact ⟨fun _ same => room same.1, fun _ => rfl⟩

theorem mem_missingChunks (positive : 0 < chunkSize) :
    i ∈ missingChunks loader elf chunkSize accountData ↔
      i * chunkSize < elf.length ∧
        ¬ Blocks.Holds elf chunkSize (accountData.drop loader.programDataOffset) i := by
  simp only [missingChunks, getFrom_getD, List.mem_map, List.mem_filter, Prod.exists,
    List.mk_mem_zipIdx_iff_getElem?]
  constructor
  · rintro ⟨want, j, ⟨read, differs⟩, rfl⟩
    obtain ⟨started, rfl⟩ := (getElem?_chunks positive).mp read
    exact ⟨started, (chunkDiffers_iff positive started _).mp differs⟩
  · rintro ⟨started, missing⟩
    exact ⟨_, i, ⟨(getElem?_chunks positive).mpr ⟨started, rfl⟩,
      (chunkDiffers_iff positive started _).mpr missing⟩, rfl⟩

/-! A chunk that lands where it belongs is a block of the ELF that lands. -/

theorem chunkWrite_bytes : (chunkWrite elf chunkSize i).bytes = Blocks.block elf chunkSize i := rfl

theorem chunkWrite_offset : (chunkWrite elf chunkSize i).offset.toNat = i * chunkSize % 2 ^ 32 :=
  UInt32.toNat_ofNat'

/-- A write stays inside an account that has room for the ELF, wherever its offset wraps to. -/
theorem chunkWrite_inside (room : loader.programDataOffset + elf.length ≤ accountData.length)
    (started : i * chunkSize < elf.length) :
    loader.programDataOffset + (chunkWrite elf chunkSize i).offset.toNat +
      (chunkWrite elf chunkSize i).bytes.length ≤ accountData.length := by
  have stop := Blocks.block_end started
  have wrapped := Nat.mod_le (i * chunkSize) (2 ^ 32)
  rw [chunkWrite_offset, chunkWrite_bytes]
  omega

theorem write_eq (room : loader.programDataOffset + elf.length ≤ accountData.length)
    (started : i * chunkSize < elf.length) :
    loader.write (chunkWrite elf chunkSize i) accountData =
      Bytes.overwrite accountData (loader.programDataOffset + i * chunkSize % 2 ^ 32)
        (Blocks.block elf chunkSize i) := by
  rw [loader.stores _ _ (chunkWrite_inside room started), chunkWrite_offset, chunkWrite_bytes]

theorem length_write (room : loader.programDataOffset + elf.length ≤ accountData.length)
    (started : i * chunkSize < elf.length) :
    (loader.write (chunkWrite elf chunkSize i) accountData).length = accountData.length := by
  rw [loader.stores _ _ (chunkWrite_inside room started)]
  exact Bytes.length_overwrite _ _ _ (chunkWrite_inside room started)

theorem drop_write (room : loader.programDataOffset + elf.length ≤ accountData.length)
    (started : i * chunkSize < elf.length) :
    (loader.write (chunkWrite elf chunkSize i) accountData).drop loader.programDataOffset =
      Bytes.overwrite (accountData.drop loader.programDataOffset) (i * chunkSize % 2 ^ 32)
        (Blocks.block elf chunkSize i) := by
  have inside := chunkWrite_inside room started
  rw [chunkWrite_offset, chunkWrite_bytes] at inside
  rw [write_eq room started, Bytes.drop_overwrite _ _ _ _ inside]

theorem holds_write (positive : 0 < chunkSize)
    (room : loader.programDataOffset + elf.length ≤ accountData.length)
    (started : i * chunkSize < elf.length) (fits : i * chunkSize < 2 ^ 32) (j : Nat) :
    Blocks.Holds elf chunkSize
        ((loader.write (chunkWrite elf chunkSize i) accountData).drop loader.programDataOffset) j ↔
      j = i ∨ Blocks.Holds elf chunkSize (accountData.drop loader.programDataOffset) j := by
  rw [drop_write room started, Nat.mod_eq_of_lt fits]
  exact Blocks.holds_land positive (by rw [List.length_drop]; omega) started j

theorem missingChunks_eq_nil (positive : 0 < chunkSize) :
    missingChunks loader elf chunkSize accountData = [] ↔
      elf <+: accountData.drop loader.programDataOffset := by
  rw [Blocks.prefix_iff_holds chunkSize, List.eq_nil_iff_forall_not_mem]
  constructor
  · intro none i started
    by_contra missing
    exact none i ((mem_missingChunks positive).mpr ⟨started, missing⟩)
  · intro held i member
    obtain ⟨started, missing⟩ := (mem_missingChunks positive).mp member
    exact missing (held i started)

theorem missingChunks_write (positive : 0 < chunkSize)
    (room : loader.programDataOffset + elf.length ≤ accountData.length)
    (started : i * chunkSize < elf.length) (fits : i * chunkSize < 2 ^ 32) :
    missingChunks loader elf chunkSize (loader.write (chunkWrite elf chunkSize i) accountData) =
      (missingChunks loader elf chunkSize accountData).filter (fun j => j ≠ i) := by
  simp only [missingChunks, getFrom_getD, List.filter_map, List.filter_filter]
  congr 1
  apply List.filter_congr
  rintro ⟨want, j⟩ member
  obtain ⟨started_j, rfl⟩ :=
    (getElem?_chunks positive).mp (List.mk_mem_zipIdx_iff_getElem?.mp member)
  rw [Bool.eq_iff_iff, Bool.and_eq_true, chunkDiffers_iff positive started_j,
    chunkDiffers_iff positive started_j, holds_write positive room started fits, not_or,
    Function.comp_apply, decide_eq_true_eq]

/-- The order in which chunks land and their repetitions make no difference. -/
theorem missingChunks_landAll (positive : 0 < chunkSize) (landed : List Nat)
    (room : loader.programDataOffset + elf.length ≤ accountData.length)
    (started : ∀ i ∈ landed, i * chunkSize < elf.length)
    (fits : ∀ i ∈ landed, i * chunkSize < 2 ^ 32) :
    missingChunks loader elf chunkSize (landAll loader elf chunkSize landed accountData) =
      (missingChunks loader elf chunkSize accountData).filter (fun i => i ∉ landed) := by
  induction landed generalizing accountData with
  | nil => simp [landAll]
  | cons i rest ih =>
      have started_i := started i (List.mem_cons_self ..)
      have kept := length_write room started_i
      have later := @ih (loader.write (chunkWrite elf chunkSize i) accountData)
        (by omega) (fun j member => started j (List.mem_cons_of_mem _ member))
        (fun j member => fits j (List.mem_cons_of_mem _ member))
      rw [missingChunks_write positive room started_i (fits i (List.mem_cons_self ..)),
        List.filter_filter] at later
      rw [landAll, List.foldl_cons, ← landAll, later]
      apply List.filter_congr
      intro j _
      rw [Bool.eq_iff_iff, Bool.and_eq_true, decide_eq_true_eq, decide_eq_true_eq,
        decide_eq_true_eq, List.mem_cons, not_or, and_comm]

theorem reconciles_of_fits (positive : 0 < chunkSize)
    (room : loader.programDataOffset + elf.length ≤ accountData.length)
    (fits : ∀ i ∈ missingChunks loader elf chunkSize accountData, i * chunkSize < 2 ^ 32) :
    Reconciles loader elf chunkSize accountData := by
  intro landed listed
  have left := missingChunks_landAll positive landed room
    (fun i member => ((mem_missingChunks positive).mp (listed i member)).1)
    (fun i member => fits i (listed i member))
  refine ⟨left, fun all => ?_⟩
  rw [← missingChunks_eq_nil positive, left, List.filter_eq_nil_iff]
  intro i member
  simpa using all i member

/-! A chunk that starts at `2 ^ 32` or later is written elsewhere. -/

/-- A wrong byte of a chunk, behind the place that the write of the chunk wraps to, stays wrong. -/
theorem missing_after_wrapped (positive : 0 < chunkSize)
    (room : loader.programDataOffset + elf.length ≤ accountData.length)
    (started : i * chunkSize < elf.length) (k : Nat) (place : k / chunkSize = i)
    (below : k < elf.length) (wrong : (accountData.drop loader.programDataOffset)[k]? ≠ elf[k]?)
    (behind : i * chunkSize % 2 ^ 32 + (Blocks.block elf chunkSize i).length ≤ k) :
    i ∈ missingChunks loader elf chunkSize (landAll loader elf chunkSize [i] accountData) := by
  refine (mem_missingChunks positive).mpr ⟨started, fun holds => wrong ?_⟩
  have inside := chunkWrite_inside room started
  rw [chunkWrite_offset, chunkWrite_bytes] at inside
  have read := holds k place below
  rw [landAll, List.foldl_cons, List.foldl_nil, drop_write room started,
    Bytes.getElem?_overwrite _ _ _ _ (by rw [List.length_drop]; omega), if_neg (by omega)] at read
  exact read

theorem not_reconciles (missing : i ∈ missingChunks loader elf chunkSize accountData)
    (still : i ∈ missingChunks loader elf chunkSize
      (landAll loader elf chunkSize [i] accountData)) :
    ¬ Reconciles loader elf chunkSize accountData := by
  intro reconciles
  rw [(reconciles [i] (by simpa using missing)).1, List.mem_filter] at still
  simp at still

theorem fits_of_reconciles (positive : 0 < chunkSize) (small : chunkSize ≤ 2 ^ 32)
    (room : loader.programDataOffset + elf.length ≤ accountData.length)
    (reconciles : Reconciles loader elf chunkSize accountData)
    (missing : i ∈ missingChunks loader elf chunkSize accountData) : i * chunkSize < 2 ^ 32 := by
  by_contra far
  obtain ⟨started, differs⟩ := (mem_missingChunks positive).mp missing
  simp only [Blocks.Holds, not_forall] at differs
  obtain ⟨k, place, below, wrong⟩ := differs
  obtain ⟨before, -⟩ := (Blocks.div_eq_iff_within positive k).mp place
  have stop := Blocks.block_end started
  have next : (i + 1) * chunkSize = i * chunkSize + chunkSize := Nat.succ_mul _ _
  -- the write wraps to at least a whole chunk before the chunk
  exact not_reconciles missing
    (missing_after_wrapped positive room started k place below wrong (by omega)) reconciles

/-- An account without a right byte. -/
def wrongAccount (loader : Loader) (elf : List UInt8) : List UInt8 :=
  List.replicate loader.programDataOffset 0 ++ elf.map (· + 1)

variable (loader) in
theorem wrongAccount_room :
    loader.programDataOffset + elf.length ≤ (wrongAccount loader elf).length := by
  rw [wrongAccount, List.length_append, List.length_replicate, List.length_map]

variable (loader) in
theorem wrongAccount_wrong (k : Nat) (below : k < elf.length) :
    ((wrongAccount loader elf).drop loader.programDataOffset)[k]? ≠ elf[k]? := by
  rw [wrongAccount, List.drop_left' List.length_replicate, List.getElem?_map,
    List.getElem?_eq_getElem below, Option.map_some]
  simp

variable (loader) in
theorem wrongAccount_missing (positive : 0 < chunkSize) (started : i * chunkSize < elf.length) :
    i ∈ missingChunks loader elf chunkSize (wrongAccount loader elf) ∧
      (2 ^ 32 ≤ i * chunkSize → i ∈ missingChunks loader elf chunkSize
        (landAll loader elf chunkSize [i] (wrongAccount loader elf))) := by
  have stop := Blocks.block_end started
  have next : (i + 1) * chunkSize = i * chunkSize + chunkSize := Nat.succ_mul _ _
  have last : (min ((i + 1) * chunkSize) elf.length - 1) / chunkSize = i :=
    (Blocks.div_eq_iff_within positive _).mpr (by omega)
  have below : min ((i + 1) * chunkSize) elf.length - 1 < elf.length := by omega
  have wrong := wrongAccount_wrong loader _ below
  refine ⟨(mem_missingChunks positive).mpr ⟨started, fun holds => wrong (holds _ last below)⟩, ?_⟩
  -- the last byte of the chunk is behind the write, however long the chunk is
  intro far
  exact missing_after_wrapped positive (wrongAccount_room loader) started _ last below wrong
    (by omega)

theorem fits_of_all_reconcile (positive : 0 < chunkSize)
    (reconcile : ∀ accountData : List UInt8,
      loader.programDataOffset + elf.length ≤ accountData.length →
        Reconciles loader elf chunkSize accountData)
    (started : i * chunkSize < elf.length) : i * chunkSize < 2 ^ 32 := by
  by_contra far
  obtain ⟨missing, still⟩ := wrongAccount_missing loader positive started
  exact not_reconciles missing (still (not_lt.mp far)) (reconcile _ (wrongAccount_room loader))

end

/-- For every ELF and chunk size: the list is empty exactly when the ELF is in place; reconciliation
works for an account when the missing chunks start below `2 ^ 32`, and only then as long as a chunk
is no longer than that; and it works for every account with room exactly when all chunks start
there. -/
theorem reconciliation_iff (loader : Loader) (elf : List UInt8) (chunkSize : Nat)
    (positive : 1 ≤ chunkSize) :
    (∀ accountData, missingChunks loader elf chunkSize accountData = [] ↔
      elf <+: accountData.drop loader.programDataOffset) ∧
    (∀ accountData, loader.programDataOffset + elf.length ≤ accountData.length →
      ((∀ i ∈ missingChunks loader elf chunkSize accountData, i * chunkSize < 2 ^ 32) →
        Reconciles loader elf chunkSize accountData) ∧
      (chunkSize ≤ 2 ^ 32 → Reconciles loader elf chunkSize accountData →
        ∀ i ∈ missingChunks loader elf chunkSize accountData, i * chunkSize < 2 ^ 32)) ∧
    ((∀ accountData, loader.programDataOffset + elf.length ≤ accountData.length →
        Reconciles loader elf chunkSize accountData) ↔
      ∀ i, i * chunkSize < elf.length → i * chunkSize < 2 ^ 32) := by
  refine ⟨fun accountData => missingChunks_eq_nil positive, fun accountData room => ⟨?_, ?_⟩, ?_⟩
  · exact reconciles_of_fits positive room
  · intro small reconciles i missing
    exact fits_of_reconciles positive small room reconciles missing
  · constructor
    · intro reconcile i started
      exact fits_of_all_reconcile positive reconcile started
    · intro fits accountData room
      exact reconciles_of_fits positive room fun i missing =>
        fits i ((mem_missingChunks positive).mp missing).1

def plainLoader : Loader where
  programDataOffset := 40
  write instruction accountData :=
    if 40 + instruction.offset.toNat + instruction.bytes.length ≤ accountData.length then
      Bytes.overwrite accountData (40 + instruction.offset.toNat) instruction.bytes
    else accountData
  stores _ _ inside := if_pos inside

theorem lost_chunk_reported :
    missingChunks plainLoader [1, 2, 3, 4, 5] 2 (List.replicate 45 0) = [0, 1, 2] ∧
      missingChunks plainLoader [1, 2, 3, 4, 5] 2
        (landAll plainLoader [1, 2, 3, 4, 5] 2 [2, 0, 2] (List.replicate 45 0)) = [1] := by
  have listed : missingChunks plainLoader [1, 2, 3, 4, 5] 2 (List.replicate 45 0) = [0, 1, 2] := by
    decide
  have reconciles := ((reconciliation_iff plainLoader [1, 2, 3, 4, 5] 2 (by decide)).2.1
    (List.replicate 45 0) (by decide)).1 (by rw [listed]; decide)
  refine ⟨listed, ?_⟩
  rw [(reconciles [2, 0, 2] (by rw [listed]; decide)).1, listed]
  decide

def ones (length : Nat) : List UInt8 := List.replicate length 1

/-- In chunks of 1024 bytes, the one that starts at `2 ^ 32` is sent with offset 0 and stays
missing. -/
theorem far_chunk_not_reconciled :
    plainLoader.programDataOffset + (ones (2 ^ 32 + 1)).length ≤
        (wrongAccount plainLoader (ones (2 ^ 32 + 1))).length ∧
      (chunkWrite (ones (2 ^ 32 + 1)) 1024 4194304).offset = 0 ∧
      4194304 ∈ missingChunks plainLoader (ones (2 ^ 32 + 1)) 1024
        (wrongAccount plainLoader (ones (2 ^ 32 + 1))) ∧
      4194304 ∈ missingChunks plainLoader (ones (2 ^ 32 + 1)) 1024
        (landAll plainLoader (ones (2 ^ 32 + 1)) 1024 [4194304]
          (wrongAccount plainLoader (ones (2 ^ 32 + 1)))) ∧
      ¬ Reconciles plainLoader (ones (2 ^ 32 + 1)) 1024
        (wrongAccount plainLoader (ones (2 ^ 32 + 1))) := by
  have length_eq : (ones (2 ^ 32 + 1)).length = 2 ^ 32 + 1 := List.length_replicate
  have started : 4194304 * 1024 < (ones (2 ^ 32 + 1)).length := by
    rw [length_eq]
    decide
  obtain ⟨missing, still⟩ := wrongAccount_missing plainLoader (by decide) started
  exact ⟨wrongAccount_room plainLoader, rfl, missing, still (by decide),
    not_reconciles missing (still (by decide))⟩

end Upgrade

end AutaraLending
