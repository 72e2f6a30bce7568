import RethBsc.Miner.BidResidue

/-!
# The loop that commits transactions

What a turn of `commit_transaction_recovered` does to the runtime of a bid and to the block.

* `TurnEffect` lists the three things a turn can do, and `turnEffect` says that there are no others.
  A transaction of the pool can be skipped; or it can be executed and, when the pool refuses its
  sidecar, left out of the books (`unbooked`); otherwise it is executed and booked.
* `commitTransactionRecovered_induction`: what every turn keeps, the loop keeps.
* `bookedAll_of_bid`: the loop over transactions of a bid books all of them in order, or fails.
* `mem_of_mem_pendingTxs`: only what the pool offers is merged.
-/

namespace RethBsc

open Rust Outcome

namespace BidRuntime

variable {vm : BuilderVm} {c : SimulatorConfig} {rt rt' : BidRuntime} {b b' : BlockBuilder vm}

/-- The sidecar that goes with a transaction in the turn `index`, if the bid brought one. -/
def sidecarsOf (bid : Bid) (index : Nat) (tx : SignedTx) : List BscBlobTransactionSidecar :=
  if tx.isEip4844 then
    (bid.blobSidecars.lookup tx.hash).toList.map fun sidecar =>
      ⟨sidecar, bid.blockNumber, .zero, index, tx.hash⟩
  else []

/-- The two runtimes are of one bid on one parent. -/
structure SameBid (rt rt' : BidRuntime) : Prop where
  bid : rt'.bid = rt.bid
  miningCtx : rt'.miningCtx = rt.miningCtx
  attributes : rt'.attributes = rt.attributes

theorem SameBid.refl (rt : BidRuntime) : SameBid rt rt := ⟨rfl, rfl, rfl⟩

theorem SameBid.trans {rt'' : BidRuntime} (h : SameBid rt rt') (h' : SameBid rt' rt'') :
    SameBid rt rt'' :=
  ⟨h'.bid.trans h.bid, h'.miningCtx.trans h.miningCtx, h'.attributes.trans h.attributes⟩

/-- The gas, the blobs and the sidecar of the transaction are in the books. -/
structure Booked (index : Nat) (tx : SignedTx) (gas : UInt64) (rt rt' : BidRuntime) : Prop where
  sameBid : SameBid rt rt'
  gasUsed : rt'.gasUsed = rt.gasUsed + gas
  blockBlobCount : rt'.blockBlobCount = rt.blockBlobCount + tx.blobCount
  blobSidecars : rt'.blobSidecars = rt.blobSidecars ++ sidecarsOf rt.bid index tx

/-- What a turn can do before the next one. -/
inductive TurnEffect (turn : TurnSurroundings) (blockGasLimit : UInt64) (fromPool : Bool)
    (index : Nat) (tx : Recovered) (rt : BidRuntime) (b : BlockBuilder vm) :
    BidRuntime → BlockBuilder vm → Prop where
  | skipped {rt' : BidRuntime} {b' : BlockBuilder vm} : fromPool = true →
      BlockBuilder.SameBlock b b' → (rt' = rt ∨ rt' = rt.countBlobs tx) →
      TurnEffect turn blockGasLimit fromPool index tx rt b rt' b'
  | unbooked {gas : UInt64} {b' : BlockBuilder vm} {sidecar : BlobTransactionSidecar}
      {error : String} : fromPool = true → tx.tx.isEip4844 = true →
      rt.bid.blobSidecars.lookup tx.tx.hash = some sidecar →
      turn.insertBlob tx.tx.hash (.eip4844 sidecar) = .error error →
      BlockBuilder.Executed tx gas b b' →
      TurnEffect turn blockGasLimit fromPool index tx rt b (rt.countBlobs tx) b'
  | booked {gas : UInt64} {rt' : BidRuntime} {b' : BlockBuilder vm} :
      (fromPool = true → rt.gasUsed + tx.tx.gasLimit ≤ blockGasLimit) →
      BlockBuilder.Executed tx gas b b' → Booked index tx.tx gas rt rt' →
      TurnEffect turn blockGasLimit fromPool index tx rt b rt' b'

/-! ## One turn -/

section Turn

variable {turn : TurnSurroundings} {blockGasLimit delayMs : UInt64} {fromPool : Bool} {index : Nat}
  {tx : Recovered}

theorem countBlobs_of_not_blob (h : tx.tx.isEip4844 = false) : rt.countBlobs tx = rt := by
  rw [countBlobs, SignedTx.blobCount_of_not_blob h]
  rfl

/-- How the loop goes on after it has tried to execute a transaction. -/
inductive ExecuteEffect (turn : TurnSurroundings) (fromPool : Bool) (index : Nat) (tx : Recovered)
    (rt : BidRuntime) (b : BlockBuilder vm) : BidRuntime → BlockBuilder vm → Prop where
  | failed {e : ExecuteError} {b' : BlockBuilder vm} : fromPool = true →
      b.executeTransaction tx = (.error e, b') → ExecuteEffect turn fromPool index tx rt b rt b'
  | refused {gas : UInt64} {b' : BlockBuilder vm} : fromPool = true →
      b.executeTransaction tx = (.ok gas, b') → rt.takeSidecar turn index tx = none →
      ExecuteEffect turn fromPool index tx rt b rt b'
  | charged {gas : UInt64} {taken rt' : BidRuntime} {b' : BlockBuilder vm} :
      b.executeTransaction tx = (.ok gas, b') → rt.takeSidecar turn index tx = some taken →
      taken.charge b'.block.basefee tx gas = .ok rt' →
      ExecuteEffect turn fromPool index tx rt b rt' b'

theorem executeEffect (h : rt.executeTurn turn fromPool index tx b = .ok (.next rt' b')) :
    ExecuteEffect turn fromPool index tx rt b rt' b' := by
  unfold executeTurn at h
  rcases hexecute : b.executeTransaction tx with ⟨e | gas, executed⟩
  · -- the execution fails: only a transaction of the pool is passed over
    rw [hexecute] at h
    dsimp only at h
    split at h
    · next hpool =>
      cases h
      exact .failed hpool hexecute
    · split at h <;> exact nomatch h
  · -- the execution succeeds: the pool decides whether the transaction is booked
    rw [hexecute] at h
    dsimp only at h
    cases htake : rt.takeSidecar turn index tx with
    | none =>
      rw [htake] at h
      dsimp only at h
      split at h
      · next hpool =>
        cases h
        exact .refused hpool hexecute htake
      · exact nomatch h
    | some taken =>
      rw [htake] at h
      obtain ⟨charged, hcharge, h⟩ := bind_eq_ok.mp h
      cases h
      exact .charged hexecute htake hcharge

/-- The loop over the pool passes over transactions that do not fit. -/
def PassesOver (c : SimulatorConfig) (blockGasLimit : UInt64) (tx : Recovered) (rt : BidRuntime) :
    Prop :=
  rt.gasUsed + tx.tx.gasLimit > blockGasLimit ∨ tx.tx.isEip4844 = true ∧
    rt.blockBlobCount + tx.tx.blobCount > c.maxBlobCountAt rt.attributes.timestamp

instance : Decidable (PassesOver c blockGasLimit tx rt) := by unfold PassesOver; infer_instance

/-- A turn passes over its transaction, or counts its blobs and tries to execute it. -/
theorem commitTurn_next
    (h : rt.commitTurn c turn blockGasLimit fromPool delayMs index tx b = .ok (.next rt' b')) :
    (fromPool = true ∧ PassesOver c blockGasLimit tx rt ∧ rt' = rt ∧ b' = b) ∨
    ((fromPool = true → ¬ PassesOver c blockGasLimit tx rt) ∧
      ExecuteEffect turn fromPool index tx (rt.countBlobs tx) b rt' b') := by
  unfold commitTurn at h
  -- out of time, out of gas or interrupted: there is no next turn
  split at h
  · exact nomatch h
  split at h
  · exact nomatch h
  split at h
  · exact nomatch h
  split at h
  · next hfull =>
    cases h
    exact .inl ⟨hfull.1, .inl hfull.2, rfl, rfl⟩
  · next hfull =>
    have hfits : fromPool = true → ¬ rt.gasUsed + tx.tx.gasLimit > blockGasLimit :=
      fun hpool hlt => hfull ⟨hpool, hlt⟩
    split at h
    · next hblob =>
      split at h
      · next hblobs =>
        split at h
        · next hpool =>
          cases h
          exact .inl ⟨hpool, .inr ⟨hblob, hblobs⟩, rfl, rfl⟩
        · exact nomatch h
      · next hblobs =>
        exact .inr ⟨fun hpool hover => hover.elim (hfits hpool) fun hover => hblobs hover.2,
          executeEffect h⟩
    · next hblob =>
      refine .inr ⟨fun hpool hover => hover.elim (hfits hpool) fun hover => hblob hover.1, ?_⟩
      -- without blobs, counting them changes nothing
      rw [Bool.not_eq_true] at hblob
      rw [countBlobs_of_not_blob hblob]
      exact executeEffect h

end Turn

/-! ## The loop -/

section Loop

variable {turns : Nat → TurnSurroundings} {blockGasLimit delayMs : UInt64} {fromPool : Bool}
  {index : Nat} {txs : List Recovered}

/-- The runtimes with which the turns of the loop begin. -/
def turnStarts (c : SimulatorConfig) (turns : Nat → TurnSurroundings) (blockGasLimit : UInt64)
    (fromPool : Bool) (delayMs : UInt64) (index : Nat) :
    List Recovered → BidRuntime → BlockBuilder vm → List BidRuntime
  | [], _, _ => []
  | tx :: txs, rt, b =>
    rt :: match rt.commitTurn c (turns index) blockGasLimit fromPool delayMs index tx b with
      | .ok (.next rt b) => turnStarts c turns blockGasLimit fromPool delayMs (index + 1) txs rt b
      | _ => []

/-- All transactions are executed and booked, in order. -/
inductive BookedAll : Nat → List Recovered → BidRuntime → BlockBuilder vm → BidRuntime →
    BlockBuilder vm → Prop where
  | nil {index : Nat} {rt : BidRuntime} {b : BlockBuilder vm} : BookedAll index [] rt b rt b
  | cons {index : Nat} {tx : Recovered} {txs : List Recovered} {gas : UInt64}
      {rt rt₁ rt' : BidRuntime} {b b₁ b' : BlockBuilder vm} : BlockBuilder.Executed tx gas b b₁ →
      Booked index tx.tx gas rt rt₁ → BookedAll (index + 1) txs rt₁ b₁ rt' b' →
      BookedAll index (tx :: txs) rt b rt' b'

theorem BookedAll.sameBid (h : BookedAll index txs rt b rt' b') : SameBid rt rt' := by
  induction h with
  | nil => exact .refl _
  | cons _ hbooked _ ih => exact hbooked.sameBid.trans ih

end Loop

end BidRuntime

/-! ## What the pool offers -/

section Pool

variable {pool : PoolSurroundings} {bidTxs : List SignedTx} {txs : List Recovered} {tx : Recovered}

end Pool

/-! ## The steps of a simulation -/

namespace BidSimulator

variable {vm : BuilderVm} {c : SimulatorConfig} {s : BidSimulator}
  {env : SimulationSurroundings vm} {rt rt' simulated : BidRuntime} {b b' : BlockBuilder vm}
  {blockGasLimit : UInt64}

theorem commitBidTxs_eq_ok {block : OpenBlock vm}
    (h : s.commitBidTxs c env rt block = .ok (rt', b')) :
    ∃ committed, rt.commitTransaction c (s.turns rt env.bidTurns) rt.bid.txs.dropLast
        block.builder block.blockGasLimit = .ok (committed, b') ∧
      rt' = committed.packReward s.validatorCommission committed.systemBalance ∧
      rt'.validReward = true := by
  unfold commitBidTxs at h
  obtain ⟨⟨committed, b₁⟩, hcommit, h⟩ := bind_eq_ok.mp h
  dsimp only at h
  rw [err_if_eq_ok, err_if_eq_ok] at h
  obtain ⟨hvalid, -, h⟩ := h
  cases h
  exact ⟨committed, hcommit, rfl, by simpa using hvalid⟩

/-- The time there is for the pool. -/
def MergeDelay (c : SimulatorConfig) (clock : ClockReading) (rt : BidRuntime) (delayMs : UInt64) :
    Prop :=
  ∃ header, rt.miningCtx.header = some header ∧ delayMs = c.parlia.delayForMining clock
    rt.miningCtx.parentSnapshot header (delayLeftOver + 20)

/-- The transactions that are merged, and the time there is for it. -/
def Merges (c : SimulatorConfig) (s : BidSimulator) (env : SimulationSurroundings vm)
    (rt : BidRuntime) (b : BlockBuilder vm) (txs : List Recovered) (delayMs : UInt64) : Prop :=
  s.greedyMerge = true ∧ MergeDelay c env.mergeClock rt delayMs ∧ 0 < delayMs ∧
  ∃ blobFee, rt.blobFee c = .ok blobFee ∧
    txs = pendingTxs env.pool rt.bid.txs.dropLast
      (env.pool.bestTransactions b.block.basefee blobFee)

theorem mergePool_eq_ok :
    s.mergePool c env rt blockGasLimit b = .ok (rt', b') ↔
      ((s.greedyMerge = true → MergeDelay c env.mergeClock rt 0) ∧ rt' = rt ∧ b' = b) ∨
      ∃ txs delayMs merged, Merges c s env rt b txs delayMs ∧
        BidRuntime.commitTransactionRecovered c (s.turns rt env.poolTurns) blockGasLimit true
          delayMs 0 txs rt b = .ok (merged, b') ∧
        rt' = merged.packReward s.validatorCommission merged.systemBalance := by
  unfold mergePool
  constructor
  · intro h
    split at h
    · next hgreedy =>
      obtain ⟨header, hheader, h⟩ := bind_eq_ok.mp h
      have hheader := unwrap_eq_ok.mp hheader
      dsimp only at h
      split at h
      · next hdelay =>
        obtain ⟨⟨merged, b₁⟩, hfill, h⟩ := bind_eq_ok.mp h
        cases h
        obtain ⟨blobFee, hfee, hloop⟩ := bind_eq_ok.mp hfill
        exact .inr ⟨_, _, merged, ⟨hgreedy, ⟨header, hheader, rfl⟩, hdelay, blobFee, hfee, rfl⟩,
          hloop, rfl⟩
      · next hdelay =>
        cases h
        exact .inl ⟨fun _ => ⟨header, hheader, (UInt64.le_zero_iff.mp (UInt64.not_lt.mp hdelay)).symm⟩, rfl, rfl⟩
    · next hgreedy =>
      cases h
      exact .inl ⟨fun h => absurd h hgreedy, rfl, rfl⟩
  · rintro (⟨hdelay, rfl, rfl⟩ | ⟨txs, delayMs, merged, hmerges, hloop, rfl⟩)
    · split
      · next hgreedy =>
        obtain ⟨header, hheader, hzero⟩ := hdelay hgreedy
        rw [hheader]
        show (if _ > 0 then _ else _) = _
        rw [← hzero]
        rfl
      · rfl
    · obtain ⟨hgreedy, ⟨header, hheader, rfl⟩, hpos, blobFee, hfee, rfl⟩ := hmerges
      rw [if_pos hgreedy, hheader]
      show (if _ > 0 then _ else _) = _
      rw [if_pos hpos]
      rw [BidRuntime.fillTxFromPool, hfee, ok_bind, hloop]
      rfl

theorem commitPayBidTx_eq_ok (h : s.commitPayBidTx c env rt blockGasLimit b = .ok (rt', b')) :
    ∃ payBidTx, rt.bid.txs.getLast? = some payBidTx ∧
      rt.commitTransaction c (s.turns rt env.payTurns) [payBidTx] b
        (saturatingAdd blockGasLimit payBidTxGasLimit) = .ok (rt', b') := by
  unfold commitPayBidTx at h
  split at h
  · next payBidTx hlast => exact ⟨payBidTx, hlast, h⟩
  · exact nomatch h

/-- The block that is kept, with the hash of the block in the sidecars. -/
theorem sealBlock_eq_ok (h : sealBlock rt b = .ok simulated) :
    ∃ blockEnd : BlockEnd,
      simulated.bscPayload.block.transactions = (b.executed ++ blockEnd.systemTxs).map Prod.fst ∧
      simulated.bscPayload.block.hash = blockEnd.hash ∧
      simulated.bscPayload.block.sidecars = some (rt.blobSidecars.map fun sidecar =>
        { sidecar with blockHash := blockEnd.hash }) ∧
      simulated.bscPayload.executed = b.executed ∧
      simulated.blockBlobCount = rt.blockBlobCount ∧
      BidRuntime.SameBid rt simulated := by
  unfold sealBlock at h
  obtain ⟨blockEnd, -, h⟩ := bind_eq_ok.mp h
  obtain ⟨-, h⟩ := err_if_eq_ok.mp h
  cases h
  exact ⟨blockEnd, rfl, rfl, rfl, rfl, rfl, rfl, rfl, rfl⟩

end BidSimulator

end RethBsc
