import RethBsc.Miner.BlockBuilder
import RethBsc.Miner.Reserve

/-!
# Bids and their runtimes

The types of `src/node/miner/bid_simulator.rs`, and `BidRuntime`, which commits the transactions of
a bid to a block.  Block builders outside the node send bids: transactions for the next block, the
last of which pays the validator.

A release build wraps on overflow, so the gas counters here are `UInt64`; a `U256` is a bit vector,
whose arithmetic wraps too.

* `commitTurn` is one turn of the loop over transactions, `commitTransactionRecovered` the loop.
* `fillTxFromPool` runs the same loop over transactions of the pool.
-/

namespace RethBsc

open Rust

def noInterruptLeftOver : UInt64 := 500
def payBidTxGasLimit : UInt64 := 25000
def txGas : UInt64 := 21000
def delayLeftOver : UInt64 := 50

abbrev U256 := BitVec 256

def U256.ofUInt64 (x : UInt64) : U256 := BitVec.ofNat 256 x.toNat

/-- The tips of a transaction as the two builders compute them. -/
theorem ofNat_tipOf {baseFee : UInt64} {tx : SignedTx} {tip : Nat} (result : TxResult)
    (h : tx.effectiveTipPerGas baseFee = some tip) :
    BitVec.ofNat 256 (tipOf baseFee (tx, result))
      = BitVec.ofNat 256 tip * U256.ofUInt64 result.gasUsed := by
  have htip : tipOf baseFee (tx, result) = tip * result.gasUsed.toNat := by
    rw [tipOf, h]
    rfl
  rw [htip, BitVec.ofNat_mul]
  rfl

structure Bid where
  builder : Address
  blockNumber : UInt64
  parentHash : B256
  txs : List SignedTx
  blobSidecars : Map B256 BlobTransactionSidecar
  unRevertible : List B256
  gasUsed : UInt64
  gasFee : U256
  builderFee : U256
  committed : Bool
  bidHash : B256
  /-- Which flag: clones of a bid share it. -/
  interruptFlag : Nat
  deriving DecidableEq

structure MiningContext where
  header : Option Header
  parentHeader : Header
  parentSnapshot : Snapshot

/-- A block with its sidecars. -/
structure SealedBlock where
  number : UInt64
  hash : B256
  transactions : List SignedTx
  sidecars : Option (List BscBlobTransactionSidecar)
  deriving DecidableEq

structure BscBuiltPayload where
  block : SealedBlock
  fees : U256
  /-- The receipts of the executed transactions, and those of the system transactions behind them;
  the source has them in one list. -/
  executed : List (SignedTx × TxResult)
  systemTxs : List (SignedTx × TxResult)
  deriving DecidableEq

/-- `BscBuiltPayload::default()`. -/
instance : Inhabited BscBuiltPayload := ⟨⟨⟨0, .zero, [], none⟩, 0, [], []⟩⟩

structure BidRuntime where
  bid : Bid
  miningCtx : MiningContext
  expectedBlockReward : U256
  expectedValidatorReward : U256
  packedBlockReward : U256
  packedValidatorReward : U256
  attributes : EthPayloadBuilderAttributes
  bscPayload : BscBuiltPayload
  gasUsed : UInt64
  gasFee : U256
  systemBalance : U256
  blobSidecars : List BscBlobTransactionSidecar
  blockBlobCount : Nat

/-- What a simulator is configured with.  The functions are of other crates. -/
structure SimulatorConfig where
  evmConfig : BscEvmConfig
  hashSlow : Header → B256
  validatorAddress : Address
  /-- The variable BREATHE_BLOCK_INTERVAL of the process. -/
  breatheBlockInterval : UInt64
  /-- `EthereumBuilderConfig::gas_limit`, from the gas limit of the parent. -/
  gasLimit : UInt64 → UInt64
  maxBlobCount : evmConfig.blobs.BlobParams → Nat
  /-- `fake_exponential` with the factor 1, from the numerator and the denominator. -/
  fakeExponential : UInt64 → UInt64 → Nat

namespace SimulatorConfig

variable (c : SimulatorConfig)

def chainSpec : ChainSpec := c.evmConfig.chainSpec

def parlia : Parlia := c.evmConfig.parlia

/-- No blobs before the parameters are known. -/
def maxBlobCountAt (timestamp : UInt64) : Nat :=
  ((c.evmConfig.blobParamsAtTimestamp timestamp).map c.maxBlobCount).getD 0

def systemTxsGas {ε : Type} (parent : Header) (timestamp : UInt64) : Outcome ε UInt64 :=
  c.parlia.estimateGasReservedForSystemTxs c.breatheBlockInterval (some parent.timestamp)
    (parent.number + 1) timestamp

end SimulatorConfig

/-! ## Blob fees -/

def cancunUpdateFraction : UInt64 := 3338477
def pectraUpdateFraction : UInt64 := 5007716

/-- `src/consensus/eip4844/blob_fee.rs`. -/
def getUpdateFraction {ε : Type} (spec : ChainSpec) (timestamp : UInt64) : Outcome ε UInt64 :=
  if (spec.bscForkActivation .fermi).activeAtTimestamp timestamp ||
      (spec.bscForkActivation .maxwell).activeAtTimestamp timestamp ||
      (spec.bscForkActivation .lorentz).activeAtTimestamp timestamp ||
      (spec.ethereumForkActivation .prague).activeAtTimestamp timestamp then
    pure pectraUpdateFraction
  else if (spec.bscForkActivation .cancun).activeAtTimestamp timestamp then
    pure cancunUpdateFraction
  else .panic

def SimulatorConfig.calcBlobFee {ε : Type} (c : SimulatorConfig) (header : Header) :
    Outcome ε Nat := do
  let frac ← getUpdateFraction c.chainSpec header.timestamp
  pure (c.fakeExponential (header.excessBlobGas.getD 0) frac)

/-! ## Committing transactions -/

/-- What one turn of a commit loop finds around it. -/
structure TurnSurroundings where
  /-- Nanoseconds since the loop began. -/
  elapsed : Nat
  /-- The interrupt flag of the bid. -/
  interrupted : Bool
  /-- `insert_blob` of the pool. -/
  insertBlob : B256 → BlobTransactionSidecarVariant → Except String Unit

namespace BidRuntime

def new (bid : Bid) (attributes : EthPayloadBuilderAttributes) (miningCtx : MiningContext) :
    BidRuntime where
  bid
  miningCtx
  expectedBlockReward := 0
  expectedValidatorReward := 0
  packedBlockReward := 0
  packedValidatorReward := 0
  attributes
  bscPayload := default
  gasUsed := 0
  gasFee := 0
  systemBalance := 0
  blobSidecars := []
  blockBlobCount := 0

variable {vm : BuilderVm} (c : SimulatorConfig) (rt : BidRuntime)

def isExpectedBetterThan (other : BidRuntime) : Bool :=
  other.expectedBlockReward ≤ rt.expectedBlockReward &&
    other.expectedValidatorReward ≤ rt.expectedValidatorReward

/-- Counts the blobs of a transaction, before it is executed. -/
def countBlobs (tx : Recovered) : BidRuntime :=
  { rt with blockBlobCount := rt.blockBlobCount + tx.tx.blobCount }

/-- The sidecar that the bid brought for a transaction, under the index of the transaction in its
loop.  The hash of the block is filled in later. -/
def addSidecar (tx : Recovered) (index : Nat) (sidecar : BlobTransactionSidecar) : BidRuntime :=
  { rt with
    blobSidecars := rt.blobSidecars ++
      [⟨sidecar, rt.bid.blockNumber, .zero, index, tx.tx.hash⟩] }

/-- `none` when the pool refuses the sidecar. -/
def takeSidecar (turn : TurnSurroundings) (index : Nat) (tx : Recovered) : Option BidRuntime :=
  if tx.tx.isEip4844 then
    match rt.bid.blobSidecars.lookup tx.tx.hash with
    | none => some rt
    | some sidecar =>
      match turn.insertBlob tx.tx.hash (.eip4844 sidecar) with
      | .error _ => none
      | .ok () => some (rt.addSidecar tx index sidecar)
  else some rt

/-- Counts the gas and the fees of a transaction that was executed. -/
def charge (baseFee : UInt64) (tx : Recovered) (gas : UInt64) : Outcome String BidRuntime := do
  let tip ← Outcome.unwrap (tx.tx.effectiveTipPerGas baseFee)
  let tip := BitVec.ofNat 256 tip
  pure { rt with
    gasUsed := rt.gasUsed + gas
    gasFee := rt.gasFee + (tip + U256.ofUInt64 baseFee) * U256.ofUInt64 gas
    systemBalance := rt.systemBalance + tip * U256.ofUInt64 gas }

/-- How a turn of a commit loop ends. -/
inductive Turn (vm : BuilderVm) where
  | stop
  | next (rt : BidRuntime) (b : BlockBuilder vm)

/-- From the execution of a transaction to the end of its turn. -/
def executeTurn (turn : TurnSurroundings) (fromPool : Bool) (index : Nat) (tx : Recovered)
    (b : BlockBuilder vm) : Outcome String (Turn vm) :=
  match b.executeTransaction tx with
  | (.error e, b) =>
    -- a skipped transaction leaves its blobs counted
    if fromPool then pure (.next rt b)
    else
      match e with
      | .invalidTx _ _ => .err "invalid transaction"
      | .evm error => .err error
      | .transactionGasLimitMoreThanAvailableBlockGas _ _ =>
        .err "transaction gas limit more than available block gas"
  | (.ok gas, b) =>
    match rt.takeSidecar turn index tx with
    | none =>
      -- the transaction stays in the body, but its gas is not counted
      if fromPool then pure (.next rt b) else .err "Failed to insert blob sidecar"
    | some rt => do
      let rt ← rt.charge b.block.basefee tx gas
      pure (.next rt b)

/-- The gas of a transaction is checked beforehand only if it comes from the pool. -/
def commitTurn (turn : TurnSurroundings) (blockGasLimit : UInt64) (fromPool : Bool)
    (delayMs : UInt64) (index : Nat) (tx : Recovered) (b : BlockBuilder vm) :
    Outcome String (Turn vm) :=
  if fromPool ∧ delayMs.toNat * 1000000 ≤ turn.elapsed then pure .stop
  -- this difference and the sum below wrap
  else if fromPool ∧ blockGasLimit - rt.gasUsed < txGas then pure .stop
  else if turn.interrupted then .err "bid runtime interrupted"
  else if fromPool ∧ rt.gasUsed + tx.tx.gasLimit > blockGasLimit then pure (.next rt b)
  else if tx.tx.isEip4844 then
    if rt.blockBlobCount + tx.tx.blobCount > c.maxBlobCountAt rt.attributes.timestamp then
      if fromPool then pure (.next rt b) else .err "blob transaction limit exceeded"
    else (rt.countBlobs tx).executeTurn turn fromPool index tx b
  else rt.executeTurn turn fromPool index tx b

/-- The loop, from the turn `index` on. -/
def commitTransactionRecovered (turns : Nat → TurnSurroundings) (blockGasLimit : UInt64)
    (fromPool : Bool) (delayMs : UInt64) (index : Nat) :
    List Recovered → BidRuntime → BlockBuilder vm → Outcome String (BidRuntime × BlockBuilder vm)
  | [], rt, b => pure (rt, b)
  | tx :: txs, rt, b => do
    match ← rt.commitTurn c (turns index) blockGasLimit fromPool delayMs index tx b with
    | .stop => pure (rt, b)
    | .next rt b =>
      commitTransactionRecovered turns blockGasLimit fromPool delayMs (index + 1) txs rt b

/-- Transactions of the bid; all signers are recovered before the first is executed. -/
def commitTransaction (turns : Nat → TurnSurroundings) (bidTxs : List SignedTx)
    (b : BlockBuilder vm) (blockGasLimit : UInt64) :
    Outcome String (BidRuntime × BlockBuilder vm) := do
  let recoveredTxs ← bidTxs.mapM fun tx =>
    Outcome.okOr "Failed to recover transaction signature" tx.tryIntoRecovered
  commitTransactionRecovered c turns blockGasLimit false 0 0 recoveredTxs rt b

def packReward (validatorCommission : UInt64) (systemBalance : U256) : BidRuntime :=
  { rt with
    packedBlockReward := systemBalance
    -- wraps if the fee of the builder exceeds the commission
    packedValidatorReward :=
      systemBalance * U256.ofUInt64 validatorCommission / 10000 - rt.bid.builderFee }

def validReward : Bool :=
  rt.expectedBlockReward ≤ rt.packedBlockReward &&
    rt.expectedValidatorReward ≤ rt.packedValidatorReward

end BidRuntime

/-! ## Filling up from the pool -/

/-- The transaction pool, and the order of a `HashMap`. -/
structure PoolSurroundings where
  /-- `best_transactions_with_attributes`, from the base fee and the blob fee. -/
  bestTransactions : UInt64 → Option UInt64 → List Recovered
  intoValues : Map Address (List Recovered) → List (List Recovered)
  intoValues_perm : ∀ m : Map Address (List Recovered),
    (intoValues m).Perm (m.entries.map Sigma.snd)

def groupBySender (txs : List Recovered) : Map Address (List Recovered) :=
  txs.foldl (fun groups tx =>
    groups.insert tx.signer ((groups.lookup tx.signer).getD [] ++ [tx])) ∅

/-- What follows the last element with `p`, all of the list if there is none. -/
def dropThroughLast {α : Type} (p : α → Bool) : List α → List α
  | [] => []
  | x :: xs => if xs.any p then dropThroughLast p xs else if p x then xs else x :: xs

/-- A sender's transactions up to the last one in the bid are left out. -/
def pendingTxs (pool : PoolSurroundings) (bidTxs : List SignedTx) (bestTxs : List Recovered) :
    List Recovered :=
  let bidTxHashes := bidTxs.map SignedTx.hash
  ((pool.intoValues (groupBySender bestTxs)).map
    (dropThroughLast fun tx => bidTxHashes.contains tx.tx.hash)).flatten

namespace BidRuntime

variable {vm : BuilderVm} (c : SimulatorConfig) (rt : BidRuntime)

/-- The blob fee that the pool is asked for; there is none without excess blob gas. -/
def blobFee : Outcome String (Option UInt64) :=
  let parent := rt.miningCtx.parentHeader
  if c.chainSpec.isCancunActiveAtTimestamp parent.number parent.timestamp then do
    let header ← Outcome.unwrap rt.miningCtx.header
    match header.excessBlobGas with
    | none => pure none
    | some excess =>
      if excess = 0 then pure none
      else
        let fee ← c.calcBlobFee header
        pure (some (UInt64.ofNat fee))
  else pure none

def fillTxFromPool (pool : PoolSurroundings) (turns : Nat → TurnSurroundings)
    (b : BlockBuilder vm) (bidTxs : List SignedTx) (blockGasLimit delayMs : UInt64) :
    Outcome String (BidRuntime × BlockBuilder vm) := do
  let blobFee ← rt.blobFee c
  let bestTxs := pool.bestTransactions b.block.basefee blobFee
  commitTransactionRecovered c turns blockGasLimit true delayMs 0 (pendingTxs pool bidTxs bestTxs)
    rt b

end BidRuntime

end RethBsc
