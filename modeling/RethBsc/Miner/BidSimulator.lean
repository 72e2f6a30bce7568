import RethBsc.Miner.BidRuntime

/-!
# The bid simulator

`BidSimulator` of `src/node/miner/bid_simulator.rs`, and the worker of `src/node/miner/bsc_miner.rs`
that runs it.  `commitNewBid` picks the bid to simulate on a parent.  `bidSimulate` executes it,
possibly fills the block up from the transaction pool, and keeps the result if it earns more than
the best block so far on this parent.

The steps of a simulation are `openBlock`, `commitBidTxs`, `mergePool`, `commitPayBidTx` and
`sealBlock`; an early return of `bid_simulate` is an `Outcome.err` with the text that the source
logs.
-/

namespace RethBsc

open Rust Outcome

/-! ## The simulator -/

structure BidSimulator where
  bestBidToRun : Map B256 Bid
  simulatingBid : Map B256 Bid
  bestBid : Map B256 BidRuntime
  /-- By block number, builder and hash, which the source joins into one text. -/
  pendingBid : Map (UInt64 × Address × B256) UInt8
  bidReceiving : Bool
  minGasPrice : U256
  validatorCommission : UInt64
  greedyMerge : Bool
  /-- The interrupt flags that are set. -/
  raised : List Nat

/-- What a simulation finds around it: the three commit loops, the clock that decides whether there
is time to merge, and the pool. -/
structure SimulationSurroundings (vm : BuilderVm) where
  stateByBlockHash : B256 → Except String vm.Database
  bidTurns : Nat → TurnSurroundings
  poolTurns : Nat → TurnSurroundings
  payTurns : Nat → TurnSurroundings
  mergeClock : ClockReading
  pool : PoolSurroundings

/-- A block that transactions can be committed to. -/
structure OpenBlock (vm : BuilderVm) where
  builder : BlockBuilder vm
  blockGasLimit : UInt64

namespace BidSimulator

def new (validatorCommission : UInt64) (greedyMerge : Bool) : BidSimulator where
  bestBidToRun := ∅
  simulatingBid := ∅
  bestBid := ∅
  pendingBid := ∅
  bidReceiving := true
  minGasPrice := 0
  validatorCommission
  greedyMerge
  raised := []

/-! ### The steps of a simulation -/

section Simulate

variable {vm : BuilderVm} (c : SimulatorConfig) (s : BidSimulator)
  (env : SimulationSurroundings vm) (rt : BidRuntime)

/-- The turns of a loop over transactions of a bid whose flag may be set already. -/
def turns (around : Nat → TurnSurroundings) (index : Nat) : TurnSurroundings :=
  { around index with
    interrupted := s.raised.contains rt.bid.interruptFlag || (around index).interrupted }

/-- A builder for the block of the bid, after the check of the gas that the bid declares. -/
def openBlock : Outcome String (OpenBlock vm) := do
  let parent := rt.miningCtx.parentHeader
  let database ← okOr "Failed to get state provider by block hash"
    (env.stateByBlockHash (c.hashSlow parent)).toOption
  let gasLimit := c.gasLimit parent.gasLimit
  let systemTxsGas ← c.systemTxsGas parent rt.attributes.timestamp
  -- both subtractions wrap, those of the limit below saturate
  if rt.bid.gasUsed > gasLimit - systemTxsGas - payBidTxGasLimit then
    .err "bidSimulator: gas limit exceeded, ignore"
  else
    let attributes := rt.attributes.nextBlock gasLimit
    let evm ← okOr "Failed to create builder for next block"
      (vm.builderForNextBlock database parent attributes).toOption
    let block := (c.evmConfig.nextEvmEnv parent attributes).blockEnv
    let evm ← okOr "Failed to apply pre-execution changes"
      (vm.applyPreExecutionChanges evm).toOption
    pure ⟨.new evm block,
      saturatingSub (saturatingSub block.gasLimit systemTxsGas) payBidTxGasLimit⟩

/-- The transactions of the bid but the last, and whether they earn what the bid says. -/
def commitBidTxs (opened : OpenBlock vm) : Outcome String (BidRuntime × BlockBuilder vm) := do
  let (rt, b) ← rt.commitTransaction c (s.turns rt env.bidTurns) rt.bid.txs.dropLast opened.builder
    opened.blockGasLimit
  let rt := rt.packReward s.validatorCommission rt.systemBalance
  if !rt.validReward then .err "bidSimulator: invalid bid, ignore"
  else if rt.gasUsed ≠ 0 ∧ rt.gasFee / U256.ofUInt64 rt.gasUsed < s.minGasPrice then
    .err "bid gas price is lower than min gas price"
  else pure (rt, b)

def mergePool (blockGasLimit : UInt64) (b : BlockBuilder vm) :
    Outcome String (BidRuntime × BlockBuilder vm) :=
  if s.greedyMerge then do
    let header ← unwrap rt.miningCtx.header
    let delayMs := c.parlia.delayForMining env.mergeClock rt.miningCtx.parentSnapshot header
      (delayLeftOver + 20)
    if delayMs > 0 then
      let (rt, b) ← rt.fillTxFromPool c env.pool (s.turns rt env.poolTurns) b rt.bid.txs.dropLast
        blockGasLimit delayMs
      pure (rt.packReward s.validatorCommission rt.systemBalance, b)
    else pure (rt, b)
  else pure (rt, b)

def commitPayBidTx (blockGasLimit : UInt64) (b : BlockBuilder vm) :
    Outcome String (BidRuntime × BlockBuilder vm) :=
  match rt.bid.txs.getLast? with
  | some payBidTx =>
    rt.commitTransaction c (s.turns rt env.payTurns) [payBidTx] b
      (saturatingAdd blockGasLimit payBidTxGasLimit)
  | none => .err "No pay bid transaction found, skipping bid"

/-- The bid named the transaction as one that must not fail, and it failed. -/
def violates (bid : Bid) (entry : SignedTx × TxResult) : Bool :=
  !entry.2.success && bid.unRevertible.contains entry.1.hash

/-- The finished block; its hash goes into the sidecars. -/
def sealBlock (b : BlockBuilder vm) : Outcome String BidRuntime := do
  let blockEnd ← okOr "Failed to finish builder" (vm.finish b.evm b.executed).toOption
  -- the receipts in the order of the body, those of the system transactions last
  if (b.executed ++ blockEnd.systemTxs).any (violates rt.bid) then
    .err "bidSimulator: un_revertible transaction failed, rejecting bid"
  else
    let sidecars := rt.blobSidecars.map fun sidecar => { sidecar with blockHash := blockEnd.hash }
    pure { rt with
      blobSidecars := sidecars
      bscPayload :=
        { block :=
            { number := blockEnd.number
              hash := blockEnd.hash
              transactions := (b.executed ++ blockEnd.systemTxs).map Prod.fst
              sidecars := some sidecars }
          fees := rt.gasFee
          executed := b.executed
          systemTxs := blockEnd.systemTxs } }

/-- A simulation, up to its early returns. -/
def simulate : Outcome String BidRuntime := do
  let opened ← openBlock c env rt
  let (rt, b) ← s.commitBidTxs c env rt opened
  let (rt, b) ← s.mergePool c env rt opened.blockGasLimit b
  let (rt, b) ← s.commitPayBidTx c env rt opened.blockGasLimit b
  sealBlock rt b

/-- The block of the bid earns more than the best block on the same parent. -/
def isBetter (parentHash : B256) : Bool :=
  match s.bestBid.lookup parentHash with
  | some best => best.packedBlockReward < rt.packedBlockReward
  | none => true

def startSimulation : BidSimulator :=
  { s with simulatingBid := s.simulatingBid.insert rt.bid.parentHash rt.bid }

def finishSimulation (parentHash : B256) : BidSimulator :=
  { s with
    bestBid := if s.isBetter rt parentHash then s.bestBid.insert parentHash rt else s.bestBid
    simulatingBid := s.simulatingBid.erase parentHash
    bestBidToRun :=
      if s.isBetter rt parentHash then s.bestBidToRun else s.bestBidToRun.erase parentHash }

def bidSimulate : Outcome String BidSimulator :=
  if !s.bidReceiving then pure s
  else
    match s.simulate c env rt with
    | .ok simulated => pure ((s.startSimulation rt).finishSimulation simulated rt.bid.parentHash)
    -- an early return drops the runtime and leaves the maps alone
    | .err _ => pure (s.startSimulation rt)
    | .panic => .panic

end Simulate

/-! ### Committing bids -/

section Commit

variable (c : SimulatorConfig) (s : BidSimulator)

/-- What a call of `commit_new_bid` finds around it. -/
structure CommitSurroundings where
  finalizedBlockNumber : Except String (Option UInt64)
  header : B256 → Except String (Option Header)
  snapshotByHash : B256 → Option Snapshot
  /-- The clock, twice while the attributes are prepared. -/
  now : UInt64
  later : UInt64
  fuel : Nat
  delayClock : ClockReading

def checkPendingBid (bid : Bid) : Bool :=
  match s.pendingBid.lookup (bid.blockNumber, bid.builder, bid.bidHash) with
  | some exist => !(exist > 0)
  | none => true

def addPendingBid (bid : Bid) : BidSimulator :=
  { s with pendingBid := s.pendingBid.insert (bid.blockNumber, bid.builder, bid.bidHash) 1 }

/-- What the bid promises to the validator, before the builder's fee is taken off. -/
def commissionOf (bid : Bid) : U256 :=
  bid.gasFee * U256.ofUInt64 s.validatorCommission / 10000

def newBidRuntime (bid : Bid) (attributes : EthPayloadBuilderAttributes)
    (miningCtx : MiningContext) : Except String BidRuntime :=
  if s.commissionOf bid < bid.builderFee then
    .error "invalid bid: builder fee exceeds validator reward"
  else
    .ok { BidRuntime.new bid attributes miningCtx with
      expectedBlockReward := bid.gasFee
      expectedValidatorReward := s.commissionOf bid - bid.builderFee }

/-- The runtime of a bid that passes the checks, `none` for any other. -/
def runtimeOfBid (env : CommitSurroundings) (bid : Bid) : Outcome String (Option BidRuntime) :=
  match env.finalizedBlockNumber with
  | .error _ | .ok none => pure none
  | .ok (some finalBlockNumber) =>
    if bid.blockNumber ≤ finalBlockNumber then pure none
    else
      match env.header bid.parentHash, env.snapshotByHash bid.parentHash with
      | .ok (some parentHeader), some parentSnapshot => do
        let (attributes, header) ← prepareNewAttributes c.evmConfig c.hashSlow
          "out of fuel" env.fuel env.now env.later parentSnapshot parentHeader c.validatorAddress
        pure (s.newBidRuntime bid attributes ⟨some header, parentHeader, parentSnapshot⟩).toOption
      | _, _ => pure none

/-- The runtime to run: the new one, or that of the best bid so far if this was not committed.  It
is `none` when the new bid is discarded. -/
def selectBid (parentHash : B256) (rt : BidRuntime) : Option BidRuntime :=
  match s.bestBidToRun.lookup parentHash with
  | none => some rt
  | some bestBid =>
    match s.newBidRuntime bestBid rt.attributes rt.miningCtx with
    | .error _ => none
    | .ok bestRt =>
      -- the new bid wins a tie
      if rt.isExpectedBetterThan bestRt then some rt
      else if !bestBid.committed then some bestRt
      else none

/-- Sets the flag in the runtime, not in the map. -/
def commitBid (rt : BidRuntime) : BidRuntime := { rt with bid := { rt.bid with committed := true } }

/-- A simulation in progress is interrupted if there is time for another, or none is left. -/
def mayInterrupt (delayMs : UInt64) : Bool := noInterruptLeftOver ≤ delayMs || delayMs = 0

/-- Registers the bid to run and asks for its simulation. -/
def requestSimulation (clock : ClockReading) (parentHash : B256) (rt : BidRuntime) :
    Outcome String (Option BidRuntime × BidSimulator) :=
  -- the copy in the map is taken before the bid is marked as committed
  let s := { s with bestBidToRun := s.bestBidToRun.insert rt.bid.parentHash rt.bid }
  match s.simulatingBid.lookup parentHash with
  | none => pure (some (commitBid rt), s)
  | some simulating => do
    let header ← unwrap rt.miningCtx.header
    let delayMs := c.parlia.delayForMining clock rt.miningCtx.parentSnapshot header delayLeftOver
    if mayInterrupt delayMs then
      pure (some (commitBid rt), { s with raised := simulating.interruptFlag :: s.raised })
    else pure (none, s)

def commitNewBid (env : CommitSurroundings) (bid : Bid) :
    Outcome String (Option BidRuntime × BidSimulator) :=
  if !s.checkPendingBid bid then pure (none, s)
  else do
    -- also a bid that fails a check below is pending from here on
    let s := s.addPendingBid bid
    match ← s.runtimeOfBid c env bid with
    | none => pure (none, s)
    | some rt =>
      match s.selectBid bid.parentHash rt with
      | none => pure (none, s)
      | some rt => s.requestSimulation c env.delayClock bid.parentHash rt

end Commit

/-- Forgets the bids for blocks more than five behind. -/
def clear (s : BidSimulator) (blockNumber : UInt64) : BidSimulator :=
  let minBlockNumber := saturatingSub blockNumber 5
  { s with
    bestBidToRun := Map.retain (fun _ bid => minBlockNumber ≤ bid.blockNumber) s.bestBidToRun
    simulatingBid := Map.retain (fun _ bid => minBlockNumber ≤ bid.blockNumber) s.simulatingBid
    bestBid := Map.retain (fun _ rt => minBlockNumber ≤ rt.bid.blockNumber) s.bestBid
    pendingBid := Map.retain (fun key _ => minBlockNumber ≤ key.1) s.pendingBid }

end BidSimulator

/-! ## The worker -/

/-- `MevWorkWorker`: one task that commits bids, simulates what was requested, and clears. -/
structure MevWorkWorker where
  simulator : BidSimulator
  /-- The channel of simulation requests. -/
  requests : List BidRuntime

namespace MevWorkWorker

/-- What wakes the worker up. -/
inductive Event (vm : BuilderVm) where
  | bidPackage (env : BidSimulator.CommitSurroundings) (bid : Bid)
  | simulateRequest (env : SimulationSurroundings vm)
  | clear (lastBlockNumber : UInt64)

variable {vm : BuilderVm} (c : SimulatorConfig)

def step (w : MevWorkWorker) : Event vm → Outcome String MevWorkWorker
  | .bidPackage env bid => do
    let (request, simulator) ← w.simulator.commitNewBid c env bid
    pure ⟨simulator, w.requests ++ request.toList⟩
  | .simulateRequest env =>
    match w.requests with
    | [] => pure w
    | rt :: requests => do
      let simulator ← w.simulator.bidSimulate c env rt
      pure ⟨simulator, requests⟩
  | .clear lastBlockNumber => pure { w with simulator := w.simulator.clear lastBlockNumber }

def run (w : MevWorkWorker) (events : List (Event vm)) : Outcome String MevWorkWorker :=
  events.foldlM (step c) w

end MevWorkWorker

end RethBsc
