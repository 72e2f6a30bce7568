import RethBsc.Miner.BidRuntime

/-!
# Building a payload

`build_payload` of `src/node/miner/payload.rs`.  The builder executes transactions of the pool in
the order in which the pool offers them, finishes the block, and attaches the sidecars of the blob
transactions in its body.  It takes a sidecar from the blob store before it executes the
transaction: from Osaka on only one with cell proofs (EIP-7594), before Osaka only one with blob
proofs (EIP-4844).

* `fillTurn` is one turn of the loop over the pool, `fillLoop` the loop.
* `attachSidecars` is the loop over the body.
-/

namespace RethBsc

open Rust Outcome

/-! ## The blacklist -/

/-- `src/evm/blacklist.rs`. -/
def nanoBlacklist : List Address :=
  [⟨[0x48, 0x9A, 0x87, 0x56, 0xC1, 0x8C, 0x0b, 0x8B, 0x24, 0xEC,
      0x2a, 0x2b, 0x9F, 0xF3, 0xD4, 0xd4, 0x47, 0xF7, 0x9B, 0xEc], rfl⟩,
   ⟨[0xFd, 0x60, 0x42, 0xDf, 0x3D, 0x74, 0xce, 0x99, 0x59, 0x92,
      0x2F, 0xeC, 0x55, 0x9d, 0x79, 0x95, 0xF3, 0x93, 0x3c, 0x55], rfl⟩,
   ⟨[0xdb, 0x78, 0x9E, 0xb5, 0xBD, 0xb4, 0xE5, 0x59, 0xbe, 0xD1,
      0x99, 0xB8, 0xb8, 0x2d, 0xED, 0x94, 0xe1, 0xd0, 0x56, 0xC9], rfl⟩]

def isBlacklisted (address : Address) : Bool := nanoBlacklist.contains address

def checkTxBasicBlacklist (sender : Address) (toAddr : Option Address) : Bool :=
  isBlacklisted sender || toAddr.any isBlacklisted

/-! ## The builder -/

/-- The iterator over the transactions of the pool.  `mark_invalid` and `skip_blobs` may take
transactions away from what is left, which is finite. -/
structure BestTransactions where
  Iter : Type
  next : Iter → Option (Recovered × Iter)
  markInvalid : Iter → Recovered → Iter
  skipBlobs : Iter → Iter
  /-- A bound for what is left. -/
  remaining : Iter → Nat
  remaining_next : ∀ it tx it', next it = some (tx, it') → remaining it' < remaining it
  remaining_markInvalid : ∀ it tx, remaining (markInvalid it tx) ≤ remaining it
  remaining_skipBlobs : ∀ it, remaining (skipBlobs it) ≤ remaining it

/-- What a build finds around it; the turns of the loop over the pool are numbered. -/
structure BuildSurroundings (vm : BuilderVm) where
  stateByBlockHash : B256 → Except String vm.Database
  pool : BestTransactions
  /-- `best_transactions_with_attributes`, from the base fee and the blob fee. -/
  bestTransactions : UInt64 → Option UInt64 → pool.Iter
  cancelled : Nat → Bool
  /-- `get_blob` of the blob store. -/
  getBlob : Nat → B256 → Except String (Option BlobTransactionSidecarVariant)

structure BscBuildArguments where
  parentHeader : Header
  attributes : EthPayloadBuilderAttributes
  minGasTip : Nat

/-- The chain is configured as for a simulator; the validator is not read. -/
structure BscPayloadBuilder where
  config : SimulatorConfig
  /-- `ethereum_fork_activation` of Osaka, which no chain spec of the source lists. -/
  osakaActivation : ForkCondition
  ctx : MiningContext

/-- The block while it is filled. -/
structure Filling (vm : BuilderVm) where
  builder : BlockBuilder vm
  totalFees : U256
  cumulativeGasUsed : UInt64
  blockBlobCount : Nat
  sidecars : Map B256 BlobTransactionSidecarVariant

def blobTxBlobGasPerBlob : Nat := 2 ^ 17

/-- What a transaction pays for its blobs. -/
def SignedTx.blobGasUsed (tx : SignedTx) : Nat := tx.blobCount * 131072

/-- What is decided about a transaction before it is executed. -/
inductive Verdict where
  | skip
  | invalid
  | execute (sidecar : Option BlobTransactionSidecarVariant)

namespace BscPayloadBuilder

variable {vm : BuilderVm} (p : BscPayloadBuilder) (args : BscBuildArguments)

def isOsakaActiveAtTimestamp (timestamp : UInt64) : Bool :=
  p.osakaActivation.activeAtTimestamp timestamp

def maxBlobCount : Nat := p.config.maxBlobCountAt args.attributes.timestamp

/-- The sidecar must be of the kind that the fork asks for. -/
def acceptSidecar (timestamp : UInt64) (sidecar : BlobTransactionSidecarVariant) : Verdict :=
  if p.isOsakaActiveAtTimestamp timestamp then
    if sidecar.isEip7594 then .execute (some sidecar) else .invalid
  else if sidecar.isEip4844 then .execute (some sidecar)
  else .invalid

def judgeBlobs (getBlob : B256 → Except String (Option BlobTransactionSidecarVariant))
    (blockBlobCount : Nat) (tx : SignedTx) : Outcome String Verdict :=
  let timestamp := args.attributes.timestamp
  if blockBlobCount + tx.blobCount > p.maxBlobCount args then pure .invalid
  -- the same bound again, this time by the blob gas
  else if p.config.chainSpec.isCancunActiveAtTimestamp (args.parentHeader.number + 1) timestamp &&
      p.maxBlobCount args - blockBlobCount < tx.blobGasUsed / blobTxBlobGasPerBlob then
    pure .invalid
  else do
    match ← ofExcept (getBlob tx.hash) with
    | none => pure .invalid
    | some sidecar => pure (p.acceptSidecar timestamp sidecar)

def judge (getBlob : B256 → Except String (Option BlobTransactionSidecarVariant))
    (blockGasLimit : UInt64) (st : Filling vm) (tx : Recovered) : Outcome String Verdict :=
  let tip := (tx.tx.effectiveTipPerGas st.builder.block.basefee).getD 0
  if p.config.chainSpec.isNanoActiveAtBlock (args.parentHeader.number + 1) &&
      checkTxBasicBlacklist tx.signer tx.tx.toAddr then pure .invalid
  -- an underpriced transaction is not marked, its descendants are still offered
  else if tip < args.minGasTip then pure .skip
  else if st.cumulativeGasUsed + tx.tx.gasLimit > blockGasLimit then pure .invalid
  else if tx.tx.isEip4844 then p.judgeBlobs args getBlob st.blockBlobCount tx.tx
  else pure (.execute none)

/-- Counts the blobs, the fees and the gas of an executed transaction, and keeps its sidecar. -/
def book (st : Filling vm) (b : BlockBuilder vm) (tx : SignedTx) (gas : UInt64)
    (sidecar : Option BlobTransactionSidecarVariant) : Outcome String (Filling vm) := do
  let minerFee ← unwrap (tx.effectiveTipPerGas b.block.basefee)
  pure
    { builder := b
      totalFees := st.totalFees + BitVec.ofNat 256 minerFee * U256.ofUInt64 gas
      cumulativeGasUsed := st.cumulativeGasUsed + gas
      blockBlobCount := st.blockBlobCount + tx.blobCount
      sidecars :=
        match sidecar with
        | some sidecar => st.sidecars.insert tx.hash sidecar
        | none => st.sidecars }

/-- The rest of a turn.  A transaction that the EVM finds invalid is passed over; any other error
ends the build. -/
def executeTx (pool : BestTransactions) (it : pool.Iter) (st : Filling vm) (tx : Recovered)
    (sidecar : Option BlobTransactionSidecarVariant) : Outcome String (Filling vm × pool.Iter) :=
  match st.builder.executeTransaction tx with
  | (.error (.invalidTx _ _), b) => pure ({ st with builder := b }, pool.markInvalid it tx)
  | (.error (.evm error), _) => .err error
  | (.error (.transactionGasLimitMoreThanAvailableBlockGas _ _), _) =>
    .err "transaction gas limit more than available block gas"
  | (.ok gas, b) => do
    let st ← book st b tx.tx gas sidecar
    -- with the last blob there is no room for blob transactions any more
    if tx.tx.isEip4844 && st.blockBlobCount == p.maxBlobCount args then
      pure (st, pool.skipBlobs it)
    else pure (st, it)

def fillTurn (env : BuildSurroundings vm) (blockGasLimit : UInt64) (turn : Nat) (tx : Recovered)
    (it : env.pool.Iter) (st : Filling vm) : Outcome String (Filling vm × env.pool.Iter) := do
  match ← p.judge args (env.getBlob turn) blockGasLimit st tx with
  | .skip => pure (st, it)
  | .invalid => pure (st, env.pool.markInvalid it tx)
  | .execute sidecar => p.executeTx args env.pool it st tx sidecar

/-- The loop over the pool; `fuel` is at least what the iterator has left. -/
def fillLoop (env : BuildSurroundings vm) (blockGasLimit : UInt64) :
    (fuel turn : Nat) → env.pool.Iter → Filling vm → Outcome String (Filling vm)
  | 0, _, _, st => pure st
  | fuel + 1, turn, it, st =>
    match env.pool.next it with
    | none => pure st
    | some (tx, it) =>
      if env.cancelled turn then pure st
      else do
        let (st, it) ← p.fillTurn args env blockGasLimit turn tx it st
        fillLoop env blockGasLimit fuel (turn + 1) it st

/-- The blob fee that the pool is asked for; unlike a bid, the builder asks for the fork of the new
header. -/
def blobFee (header : Header) : Outcome String (Option UInt64) :=
  if p.config.chainSpec.isCancunActiveAtTimestamp header.number header.timestamp then
    match header.excessBlobGas with
    | none => pure none
    | some excess =>
      if excess = 0 then pure none
      else do
        let fee ← p.config.calcBlobFee header
        pure (some (UInt64.ofNat fee))
  else pure none

/-- Everything up to the finished block. -/
def fillBlock (env : BuildSurroundings vm) : Outcome String (Filling vm × BlockEnd) := do
  let parent := args.parentHeader
  let database ← ofExcept (env.stateByBlockHash (p.config.hashSlow parent))
  let attributes := args.attributes.nextBlock (p.config.gasLimit parent.gasLimit)
  let evm ← ofExcept (vm.builderForNextBlock database parent attributes)
  let block := (p.config.evmConfig.nextEvmEnv parent attributes).blockEnv
  let evm ← ofExcept (vm.applyPreExecutionChanges evm)
  let systemTxsGas ← p.config.systemTxsGas parent args.attributes.timestamp
  let header ← okOr "Missing header in mining context" p.ctx.header
  let blobFee ← p.blobFee header
  let it := env.bestTransactions block.basefee blobFee
  let st ← p.fillLoop args env (saturatingSub block.gasLimit systemTxsGas) (env.pool.remaining it) 0
    it ⟨.new evm block, 0, 0, 0, ∅⟩
  let blockEnd ← ofExcept (vm.finish st.builder.evm st.builder.executed)
  pure (st, blockEnd)

/-- The sidecars of the blob transactions in a body, from the index `index` on. -/
def attachSidecars (sidecars : Map B256 BlobTransactionSidecarVariant) (number : UInt64)
    (hash : B256) : (index : Nat) → List SignedTx → Outcome String (List BscBlobTransactionSidecar)
  | _, [] => pure []
  | index, tx :: txs =>
    if tx.isEip4844 then do
      -- both panic: a sidecar that was not kept, and one with cell proofs
      let sidecar ← unwrap (sidecars.lookup tx.hash)
      let inner ← unwrap sidecar.asEip4844
      let rest ← attachSidecars sidecars number hash (index + 1) txs
      pure (⟨inner, number, hash, index, tx.hash⟩ :: rest)
    else attachSidecars sidecars number hash (index + 1) txs

/-- The payload of a finished block, with the sidecars attached. -/
def attach (st : Filling vm) (blockEnd : BlockEnd) : Outcome String BscBuiltPayload := do
  let transactions := (st.builder.executed ++ blockEnd.systemTxs).map Prod.fst
  let sidecars ← attachSidecars st.sidecars blockEnd.number blockEnd.hash 0 transactions
  pure
    { block := ⟨blockEnd.number, blockEnd.hash, transactions, some sidecars⟩
      fees := st.totalFees
      executed := st.builder.executed
      systemTxs := blockEnd.systemTxs }

def buildPayload (env : BuildSurroundings vm) : Outcome String BscBuiltPayload := do
  let (st, blockEnd) ← p.fillBlock args env
  attach st blockEnd

end BscPayloadBuilder

end RethBsc
