import Mathlib.Data.Set.Function
import RethBsc.Parlia.SnapshotProvider

/-!
# Snapshots of an ancestry

What the snapshot of a block is meant to be: the genesis snapshot with the headers of the block's
own ancestors applied to it, where a switch block takes its validators from a checkpoint that is
an ancestor.  Nothing here depends on caches or on other forks.

* `HeaderTree` is a set of headers, linked by hash, in which nothing comes before a block 0.
* `Ancestry` is a block with its ancestors, the newest first, and `Ancestry.unique` says that the
  hash of the block determines it.
* `ancestrySnapshot` is the fold, and `IsSnapshotOf` relates a hash to the snapshot of its block.
-/

namespace RethBsc

open Rust Outcome

/-- Headers of any number of forks.  Their hashes do not collide, and a block 0 has no parent. -/
structure HeaderTree (hashSlow : Header → B256) where
  known : Set Header
  hash_injOn : Set.InjOn hashSlow known
  root : ∀ genesis ∈ known, genesis.number = 0 → ∀ h ∈ known, hashSlow h ≠ genesis.parentHash

/-! ## Ancestors -/

/-- A block with all of its ancestors, the newest first. -/
inductive Ancestry {hashSlow : Header → B256} (tree : HeaderTree hashSlow) : List Header → Prop
  | root {genesis : Header} (hknown : genesis ∈ tree.known) (hnumber : genesis.number = 0) :
      Ancestry tree [genesis]
  | block {header parent : Header} {before : List Header} (hknown : header ∈ tree.known)
      (hnumber : header.number ≠ 0) (hparent : hashSlow parent = header.parentHash)
      (ancestry : Ancestry tree (parent :: before)) : Ancestry tree (header :: parent :: before)

namespace Ancestry

variable {hashSlow : Header → B256} {tree : HeaderTree hashSlow} {header other : Header}
  {before before' : List Header}

theorem head_mem (h : Ancestry tree (header :: before)) : header ∈ tree.known := by
  cases h with
  | root hknown _ => exact hknown
  | block hknown _ _ _ => exact hknown

/-- A block with an ancestor is not a block 0. -/
theorem number_ne_zero (h : Ancestry tree (header :: before)) (hne : before ≠ []) :
    header.number ≠ 0 := by
  cases h with
  | root _ _ => exact absurd rfl hne
  | block _ hnumber _ _ => exact hnumber

theorem of_append {later : List Header} (h : Ancestry tree (later ++ header :: before)) :
    Ancestry tree (header :: before) := by
  induction later with
  | nil => exact h
  | cons first later ih =>
    refine ih ?_
    generalize hl : later ++ header :: before = headers at h
    rw [List.cons_append, hl] at h
    cases h with
    | root _ _ => simp at hl
    | block _ _ _ ancestry => exact ancestry

/-- A block has one list of ancestors. -/
theorem unique (h : Ancestry tree (header :: before)) (h' : Ancestry tree (other :: before'))
    (hhash : hashSlow header = hashSlow other) : header :: before = other :: before' := by
  generalize hl : header :: before = headers at h
  induction h generalizing header before other before' with
  | root hknown hnumber =>
    obtain ⟨rfl, rfl⟩ := List.cons.inj hl
    have hsame : header = other := tree.hash_injOn hknown h'.head_mem hhash
    subst hsame
    cases h' with
    | root _ _ => rfl
    | block _ hne _ _ => exact absurd hnumber hne
  | block hknown hnumber hparent ancestry ih =>
    obtain ⟨rfl, rfl⟩ := List.cons.inj hl
    have hsame : header = other := tree.hash_injOn hknown h'.head_mem hhash
    subst hsame
    cases h' with
    | root _ hzero => exact absurd hzero hnumber
    | block _ _ hparent' ancestry' =>
      rw [ih ancestry' (hparent.trans hparent'.symm) rfl]

end Ancestry

/-! ## The fold -/

/-- The block of this number among the given ones. -/
def ancestorByNumber (headers : List Header) (number : UInt64) : Option Header :=
  headers.find? fun h => h.number = number

section Fold

variable (c : Crypto) (p : Parlia)

/-- The snapshot of a block, from the block and its ancestors. -/
def ancestrySnapshot : List Header → Outcome QueryEnd Snapshot
  | [] => .err .notFound
  | [genesis] => genesisSnapshot c p genesis
  | header :: parent :: before => do
    let snap ← ancestrySnapshot (parent :: before)
    replayHeader c p (ancestorByNumber (header :: parent :: before)) snap header

/-- `snap` is the snapshot of the block with this hash. -/
def IsSnapshotOf (tree : HeaderTree c.hashSlow) (blockHash : B256) (snap : Snapshot) : Prop :=
  ∃ header before, Ancestry tree (header :: before) ∧ c.hashSlow header = blockHash ∧
    ancestrySnapshot c p (header :: before) = .ok snap

variable {c p} {tree : HeaderTree c.hashSlow} {header : Header} {before : List Header}
  {snap snap' : Snapshot} {blockHash : B256}

theorem genesisSnapshot_blockHash (h : genesisSnapshot c p header = .ok snap) :
    snap.blockHash = c.hashSlow header := by
  obtain ⟨info, -, h⟩ := bind_eq_ok.mp h
  obtain ⟨_, -, hsnap⟩ := bind_eq_ok.mp (mapErr_eq_ok.mp h)
  rw [← ok.inj hsnap]

theorem replayHeader_blockHash {headerByNumber : UInt64 → Option Header}
    (h : replayHeader c p headerByNumber snap header = .ok snap') :
    snap'.blockHash = c.hashSlow header := by
  obtain ⟨_, -, h⟩ := bind_eq_ok.mp h
  obtain ⟨_, -, h⟩ := bind_eq_ok.mp h
  exact (Snapshot.apply_spec (mapErr_eq_ok.mp h)).blockHash

theorem IsSnapshotOf.blockHash_eq (h : IsSnapshotOf c p tree blockHash snap) :
    snap.blockHash = blockHash := by
  obtain ⟨header, before, -, rfl, hsnap⟩ := h
  cases before with
  | nil => exact genesisSnapshot_blockHash hsnap
  | cons parent before =>
    obtain ⟨_, -, hreplay⟩ := bind_eq_ok.mp hsnap
    exact replayHeader_blockHash hreplay

/-- A hash has at most one snapshot. -/
theorem IsSnapshotOf.unique (h : IsSnapshotOf c p tree blockHash snap)
    (h' : IsSnapshotOf c p tree blockHash snap') : snap = snap' := by
  obtain ⟨header, before, hancestry, hhash, hsnap⟩ := h
  obtain ⟨header', before', hancestry', hhash', hsnap'⟩ := h'
  rw [hancestry.unique hancestry' (hhash.trans hhash'.symm)] at hsnap
  exact ok.inj (hsnap.symm.trans hsnap')

end Fold

end RethBsc
