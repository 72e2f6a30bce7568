import RethBsc.Node.Executor
import RethBsc.Parlia.EpochCheck

/-!
# Finishing a block

`finish` of `src/node/evm/executor.rs` and what it calls in `post_execution.rs`.  After the
transactions of the body the executor generates the system transactions of the block: contract
initialisation, a slash, the rewards, a new validator set.  A node that checks a block ends with
`postCheckNewBlock`, a miner with `finalizeNewBlock`; both go through the same generating steps.
-/

namespace RethBsc

open Rust Outcome

def ffRewardDistributionInterval : UInt64 := 200
def collectAdditionalVotesRewardRatio : Nat := 100
def systemRewardPercent : Nat := 4
def maxSystemReward : Nat := 100 * 10 ^ 18

/-- A zero interval divides by zero. -/
def isSameDayInUtc {ε : Type} (interval first second : UInt64) : Outcome ε Bool :=
  if interval = 0 then .panic else .ok (first / interval == second / interval)

/-- The first block of a day, by the time of the block before. -/
def isBreatheBlock {ε : Type} (interval lastBlockTime blockTime : UInt64) : Outcome ε Bool :=
  if lastBlockTime = 0 then .ok false
  else do
    let same ← isSameDayInUtc interval lastBlockTime blockTime
    pure (!same)

/-! ## Finality rewards -/

/-- `*weights.entry(a).or_insert(0) += w`. -/
def addWeight (weights : Map Address Nat) (a : Address) (w : Nat) : Map Address Nat :=
  weights.insert a ((weights.lookup a).getD 0 + w)

section Rewards

variable (ctx : ExecutionCtx)

/-- The weights of the voters of an attestation in `header`, and of the proposer who collected more
votes than a quorum. -/
def processAttestation (attestation : VoteAttestation) (header : Header)
    (weights : Map Address Nat) : Outcome BlockExecutionError (Map Address Nat) := do
  let headerNotFound (hash : B256) : BlockExecutionError :=
    .msg ("Header not found, block_hash: " ++ hash.toHex)
  let justifiedHeader ← okOr (headerNotFound attestation.data.targetHash)
    (ctx.lookups.headerByHash attestation.data.targetHash)
  let parent ← okOr (headerNotFound justifiedHeader.parentHash)
    (ctx.lookups.headerByHash justifiedHeader.parentHash)
  let snapshot ← unwrap (ctx.lookups.snapshotByHash (ctx.crypto.hashSlow parent))
  let bits := countOnes attestation.voteAddressSet
  if bits > snapshot.validators.length then
    .err (.invalidAttestationVoteCount bits snapshot.validators.length)
  else
    let voters := (snapshot.validators.zipIdx.filter fun vi =>
      vi.2 < 64 && hasBit attestation.voteAddressSet vi.2).map Prod.fst
    let weights := voters.foldl (fun weights voter => addWeight weights voter 1) weights
    if voters.length > snapshot.quorum then
      let reward :=
        (voters.length - snapshot.quorum) * collectAdditionalVotesRewardRatio / 100
      pure (addWeight weights header.beneficiary reward)
    else pure weights

/-- The weights of the attestations in `n` headers, walking back from `targetHash`. -/
def accumulateWeights : Nat → B256 → Map Address Nat → Outcome BlockExecutionError (Map Address Nat)
  | 0, _, weights => pure weights
  | n + 1, targetHash, weights => do
    let header ← okOr (.msg ("Header not found for block hash: " ++ targetHash.toHex))
      (ctx.lookups.headerByHash targetHash)
    let snap ← okOr (.msg "Failed to get snapshot from snapshot provider")
      (ctx.lookups.snapshotByHash header.parentHash)
    match ctx.parlia.getVoteAttestationFromHeader header ctx.crypto.decode snap.epochNum with
    | .error e => .err (.parliaConsensusError e)
    | .ok none => accumulateWeights n header.parentHash weights
    | .ok (some attestation) => do
      let weights ← processAttestation ctx attestation header weights
      accumulateWeights n header.parentHash weights

end Rewards

namespace BscBlockExecutor

variable {m : Machine} (ctx : ExecutionCtx) (e : BscBlockExecutor m)

/-- One transaction for the attestations of the last 200 blocks. -/
def distributeFinalityReward : Outcome BlockExecutionError (BscBlockExecutor m) :=
  if !isMultipleOf ctx.blockNumber ffRewardDistributionInterval then pure e
  else do
    let start := max (ctx.blockNumber - ffRewardDistributionInterval) 1
    let weights ← accumulateWeights ctx (ctx.blockNumber.toNat - start.toNat) ctx.parentHash ∅
    let validators := weights.keys.insertionSort (· ≤ ·)
    e.transactSystemTx ctx
      (ctx.systemContracts.distributeFinalityReward validators
        (validators.map fun v => (weights.lookup v).getD 0))
      ctx.block.beneficiary

/-! ## Fees -/

/-- Before Kepler a sixteenth of the fees goes to the system reward contract, unless that is rich
enough.  Returns what is left. -/
def distributeToSystem (validator : Address) (blockReward systemRewardBalance : Nat) :
    Outcome BlockExecutionError (Nat × BscBlockExecutor m) :=
  if !ctx.spec.isKeplerActiveAtTimestamp ctx.blockNumber ctx.blockTimestamp &&
      systemRewardBalance < maxSystemReward then
    let rewardToSystem := blockReward >>> systemRewardPercent
    if rewardToSystem > 0 then do
      let e ← e.transactSystemTx ctx (ctx.systemContracts.distributeToSystem rewardToSystem) validator
      pure (blockReward - rewardToSystem, e)
    else pure (blockReward - rewardToSystem, e)
  else pure (blockReward, e)

/-- The fees that the block collected, moved to the proposer and from there to the contracts. -/
def distributeIncoming (validator : Address) :
    Outcome BlockExecutionError (BscBlockExecutor m) := do
  let (balance, evm) ← ofResult .other (m.loadCacheAccount e.evm systemAddress)
  if balance.getD 0 = 0 then pure { e with evm }
  else
    let (blockReward, evm) := m.drainBalance evm systemAddress
    let evm ← ofResult .other (m.incrementBalance evm validator blockReward)
    let (account, evm) ← ofResult .other (m.basic evm systemRewardContract)
    let (blockReward, e) ← { e with evm }.distributeToSystem ctx validator blockReward
      (account.getD default).balance
    e.transactSystemTx ctx (ctx.systemContracts.distributeToValidator validator blockReward) validator

/-! ## Slashing and elections -/

def slashSpoiledValidator (validator spoiledVal : Address) :
    Outcome BlockExecutionError (BscBlockExecutor m) :=
  e.transactSystemTx ctx (ctx.systemContracts.slash spoiledVal) validator

/-- The validator in turn is excused if it signed recently, which Plato changed the meaning of. -/
def slashUnlessSignedRecently (snap : Snapshot) (spoiledVal : Address) :
    Outcome BlockExecutionError (BscBlockExecutor m) :=
  let signedRecently :=
    if ctx.spec.isPlatoActiveAtBlock ctx.blockNumber then snap.signRecently spoiledVal
    else snap.recentProposers.entries.any fun p => p.2 == spoiledVal
  if !signedRecently then e.slashSpoiledValidator ctx ctx.block.beneficiary spoiledVal else pure e

def updateValidatorSetV2 (maxElectedValidators : Nat) (info : List ValidatorElectionInfo)
    (validator : Address) : Outcome BlockExecutionError (BscBlockExecutor m) := do
  let elected ← getTopValidatorsByVotingPower ctx.addressText info maxElectedValidators
  e.transactSystemTx ctx
    (ctx.systemContracts.updateValidatorSetV2 elected.validators elected.votingPowers
      elected.voteAddrs)
    validator

/-- From Feynman on, the first block of a day installs an elected validator set. -/
def updateOnBreatheBlock : Outcome BlockExecutionError (BscBlockExecutor m) := do
  let parent ← unwrap ctx.innerCtx.parentHeader
  if !ctx.spec.isFeynmanActiveAtTimestamp ctx.blockNumber ctx.blockTimestamp then pure e
  else
    let breathe ← isBreatheBlock ctx.breatheBlockInterval parent.timestamp ctx.blockTimestamp
    if breathe && !ctx.spec.isFeynmanTransitionAtTimestamp ctx.blockNumber ctx.blockTimestamp
        parent.timestamp then
      e.updateValidatorSetV2 ctx (ctx.innerCtx.maxElectedValidators.getD 21)
        (ctx.innerCtx.validatorsElectionInfo.getD []) ctx.block.beneficiary
    else pure e

def rewardFromPlato : Outcome BlockExecutionError (BscBlockExecutor m) :=
  if ctx.spec.isPlatoActiveAtBlock ctx.blockNumber then e.distributeFinalityReward ctx else pure e

/-- What both kinds of node generate after a slash. -/
def distributeAndElect : Outcome BlockExecutionError (BscBlockExecutor m) := do
  let e ← e.distributeIncoming ctx ctx.block.beneficiary
  let e ← e.rewardFromPlato ctx
  e.updateOnBreatheBlock ctx

/-! ## Checking a block -/

def verifyTurnLength : Outcome BlockExecutionError (BscBlockExecutor m) := do
  let header ← unwrap ctx.innerCtx.header
  let snap ← unwrap ctx.innerCtx.snap
  if !isMultipleOf header.number snap.epochNum ||
      !ctx.spec.isBohrActiveAtTimestamp header.number header.timestamp then pure e
  else
    match ctx.parlia.getTurnLengthFromHeader header snap.epochNum with
    | .ok none => pure e
    | .error error => .err (.parliaConsensusError error)
    | .ok (some turnLengthFromHeader) => do
      let (turnLengthFromContract, e) ← e.getTurnLength ctx header.number header.timestamp
      if turnLengthFromHeader = turnLengthFromContract then pure e
      else .err .mismatchingEpochTurnLengthError

/-- A block whose difficulty says that it is out of turn owes a slash. -/
def slashByDifficulty : Outcome BlockExecutionError (BscBlockExecutor m) := do
  let header ← unwrap ctx.innerCtx.header
  if header.difficulty = diffInturn then pure e
  else
    let snap ← unwrap ctx.innerCtx.snap
    let spoiledValidator ← snap.inturnValidator
    e.slashUnlessSignedRecently ctx snap spoiledValidator

/-- The validators and the turn length for an epoch that starts with the next block. -/
def cacheForNextEpoch : Outcome BlockExecutionError (BscBlockExecutor m) := do
  let header ← unwrap ctx.innerCtx.header
  let blockHash := ctx.crypto.hashSlow header
  let currentSnap ← okOr
    (.msg "Failed to get current snapshot from snapshot provider")
    (ctx.lookups.snapshotByHash blockHash)
  if !isMultipleOf (header.number + 1) currentSnap.epochNum then pure e
  else
    let (_, e) ← e.getCurrentValidatorsWithCache ctx header.number blockHash
    if !ctx.spec.isBohrActiveAtTimestamp header.number header.timestamp then pure e
    else
      let (turnLength, e) ← e.getTurnLength ctx header.number header.timestamp
      pure { e with turnLengthCache := e.turnLengthCache.insert blockHash turnLength }

def postCheckNewBlock : Outcome BlockExecutionError (BscBlockExecutor m) := do
  let _ ← (ctx.parlia.verifyValidators ctx.innerCtx.snap ctx.innerCtx.currentValidators
    ctx.innerCtx.header).mapErr .msg
  let e ← e.verifyTurnLength ctx
  let e ← e.slashByDifficulty ctx
  let e ← e.distributeAndElect ctx
  if e.systemTxs ≠ [] then .err .unexpectedSystemTx else e.cacheForNextEpoch ctx

/-! ## Mining a block -/

/-- A miner out of turn slashes the validator in turn. -/
def slashByBeneficiary (snap : Snapshot) : Outcome BlockExecutionError (BscBlockExecutor m) := do
  let expectedValidator ← snap.inturnValidator
  if ctx.block.beneficiary = expectedValidator then pure e
  else e.slashUnlessSignedRecently ctx snap expectedValidator

/-- Here the epoch length is that of the parent snapshot, and the results go to the shared context:
the block has no hash yet. -/
def shareForNextEpoch (snap : Snapshot) : Outcome BlockExecutionError (BscBlockExecutor m) :=
  if !isMultipleOf (ctx.blockNumber + 1) snap.epochNum then pure e
  else do
    let (validators, e) ← e.getCurrentValidators ctx ctx.blockNumber
    let e := { e with sharedValidators := some validators }
    if !ctx.spec.isBohrActiveAtTimestamp ctx.blockNumber ctx.blockTimestamp then pure e
    else
      let (turnLength, e) ← e.getTurnLength ctx ctx.blockNumber ctx.blockTimestamp
      pure { e with sharedTurnLength := some turnLength }

def finalizeNewBlock : Outcome BlockExecutionError (BscBlockExecutor m) := do
  let snap ← unwrap ctx.innerCtx.snap
  let e ← e.slashByBeneficiary ctx snap
  let e ← e.distributeAndElect ctx
  e.shareForNextEpoch ctx snap

/-! ## The end of a block -/

/-- `try_update_build_in_system_contract` at the end of a block. -/
def upgradeAtBlockEnd (parentTimestamp : UInt64) :
    Outcome BlockExecutionError (BscBlockExecutor m) :=
  if ctx.spec.isFeynmanActiveAtTimestamp ctx.blockNumber parentTimestamp then do
    let evm ← ofResult .msg
      (m.upgradeContracts e.evm ctx.blockNumber ctx.blockTimestamp parentTimestamp)
    pure { e with evm }
  else pure e

def initializeFeynmanContracts : Outcome BlockExecutionError (BscBlockExecutor m) :=
  transactSystemTxs ctx ctx.block.beneficiary ctx.systemContracts.feynmanContractsTxs e

def deployGenesisContracts : Outcome BlockExecutionError (BscBlockExecutor m) :=
  transactSystemTxs ctx ctx.block.beneficiary ctx.systemContracts.genesisContractsTxs e

def initializeInFeynmanTransition (parentTimestamp : UInt64) :
    Outcome BlockExecutionError (BscBlockExecutor m) :=
  if ctx.spec.isFeynmanTransitionAtTimestamp ctx.blockNumber ctx.blockTimestamp parentTimestamp then
    e.initializeFeynmanContracts ctx
  else pure e

def deployInBlockOne : Outcome BlockExecutionError (BscBlockExecutor m) :=
  if ctx.block.number = 1 then e.deployGenesisContracts ctx else pure e

def finish : Outcome BlockExecutionError (BscBlockExecutor m) := do
  let parent ← unwrap ctx.innerCtx.parentHeader
  let e ← e.upgradeAtBlockEnd ctx parent.timestamp
  let e ← e.initializeInFeynmanTransition ctx parent.timestamp
  let e ← e.deployInBlockOne ctx
  if ctx.isMiner then e.finalizeNewBlock ctx else e.postCheckNewBlock ctx

/-- A whole block body, from the start of the block. -/
def executeBlock (body : List TransactionSigned) :
    Outcome BlockExecutionError (BscBlockExecutor m) := do
  let e ← executeTransactions ctx body e
  e.finish ctx

end BscBlockExecutor

end RethBsc
