import RethBsc.Contracts.SystemContracts
import RethBsc.Evm.BlockEnv
import RethBsc.Parlia.Attestation
import RethBsc.Rust.LruMap

/-!
# The block executor

`src/node/evm/executor.rs`, and `transact_system_tx` of `post_execution.rs`.  The transactions of a
block are handed to the executor one by one.  A user transaction runs at once.  A system
transaction is put in a queue; the executor generates the system transactions it expects when the
block is finished, and takes each from the queue (`transactSystemTx`).

* `Machine` is the EVM over its database, with the receipt builder.
* `ExecutionCtx` is what stays fixed while a block runs, `BscBlockExecutor` what changes.
* A receipt is kept as the context it is built from; `BscBlockExecutor.result` builds it.
-/

namespace RethBsc

open Rust Outcome

/-! ## The EVM -/

/-- What a transaction environment says; system calls fill it in themselves. -/
structure BscTxEnv where
  caller : Address
  /-- The callee. -/
  kind : Address
  nonce : UInt64
  gasLimit : UInt64
  value : Nat
  data : Bytes
  gasPrice : Nat
  chainId : Option UInt64
  isSystemTransaction : Bool
  deriving DecidableEq

/-- What the EVM is given: a transaction of the block with its signer, or an environment. -/
inductive TxInput where
  | recovered (tx : TransactionSigned) (signer : Address)
  | env (env : BscTxEnv)
  deriving DecidableEq

structure AccountInfo where
  balance : Nat
  nonce : UInt64
  deriving DecidableEq

/-- `AccountInfo::default()`. -/
instance : Inhabited AccountInfo := ⟨⟨0, 0⟩⟩

/-- What a receipt is built from. -/
structure ReceiptBuilderCtx (Evm Result State : Type) where
  tx : TransactionSigned
  evm : Evm
  result : Result
  state : State
  cumulativeGasUsed : UInt64
  deriving DecidableEq

/-- The EVM over its database, and the receipt builder.  A call that can change the EVM returns it;
after an error nothing is read from it any more. -/
structure Machine where
  Evm : Type
  ExecutionResult : Type
  /-- The changes of a transaction before they are committed. -/
  EvmState : Type
  Receipt : Type
  gasUsed : ExecutionResult → UInt64
  isSuccess : ExecutionResult → Bool
  output : ExecutionResult → Option Bytes
  transact : Evm → TxInput → Except String (ExecutionResult × EvmState × Evm)
  commit : Evm → EvmState → Evm
  buildReceipt : ReceiptBuilderCtx Evm ExecutionResult EvmState → Receipt
  /-- `Database::basic`. -/
  basic : Evm → Address → Except String (Option AccountInfo × Evm)
  /-- `load_cache_account`, with the balance of the account if it exists. -/
  loadCacheAccount : Evm → Address → Except String (Option Nat × Evm)
  /-- `drain_balance` with the transition applied. -/
  drainBalance : Evm → Address → Nat × Evm
  incrementBalance : Evm → Address → Nat → Except String Evm
  /-- `HertzPatchManager`: corrections of the state around some transactions of the main net. -/
  patchBeforeTx : Evm → TransactionSigned → Except String Evm
  patchAfterTx : Evm → TransactionSigned → Except String Evm
  /-- `upgrade_contracts`: new code for system contracts. -/
  upgradeContracts : Evm → (blockNumber blockTimestamp parentTimestamp : UInt64) → Except String Evm

/-! ## Contexts -/

/-- The errors of executing a block. -/
inductive BlockExecutionError where
  | msg (text : String)
  | evm (error : String) (tx : TransactionSigned)
  | other (error : String)
  | transactionGasLimitMoreThanAvailableBlockGas (transactionGasLimit blockAvailableGas : UInt64)
  | unexpectedSystemTx
  | mismatchingEpochTurnLengthError
  | parliaConsensusError (error : ParliaConsensusError)
  | invalidAttestationVoteCount (got expected : Nat)
  | failedToSignSystemTransaction (error : String)
  | globalSignerNotInitializedForMiningMode
  deriving DecidableEq

/-- What the checks before execution leave behind. -/
structure InnerExecutionContext where
  currentValidators : Option (List Address × Map Address VoteAddress)
  maxElectedValidators : Option Nat
  validatorsElectionInfo : Option (List ValidatorElectionInfo)
  snap : Option Snapshot
  header : Option Header
  parentHeader : Option Header

/-- What is fixed while a block runs.  The number and the time of an EVM environment come from
fields of a header, so they fit in a `u64`. -/
structure ExecutionCtx where
  parlia : Parlia
  crypto : Crypto
  lookups : Lookups
  systemContracts : SystemContract
  block : BlockEnv
  blockNumber : UInt64
  blockTimestamp : UInt64
  number_eq : block.number = blockNumber.toNat
  timestamp_eq : block.timestamp = blockTimestamp.toNat
  isMiner : Bool
  parentHash : B256
  innerCtx : InnerExecutionContext
  /-- The sender that a signature recovers to. -/
  signer : TransactionSigned → Address
  /-- `SignableTransaction::signature_hash`. -/
  signatureHash : Transaction → B256
  /-- `sign_system_transaction`, once a global signer is initialised. -/
  signSystemTransaction : Option (Transaction → Except String TransactionSigned)
  /-- The variable BREATHE_BLOCK_INTERVAL of the process, one day by default. -/
  breatheBlockInterval : UInt64
  /-- `Address::to_string`. -/
  addressText : Address → String

def ExecutionCtx.spec (ctx : ExecutionCtx) : ChainSpec := ctx.parlia.spec

/-- The transaction is a system transaction of this block. -/
def ExecutionCtx.isSystem (ctx : ExecutionCtx) (tx : TransactionSigned) : Bool :=
  isSystemTransaction tx.transaction (ctx.signer tx) ctx.block.beneficiary

/-- `Result::map_err` over a `Result` of another crate. -/
def ofResult {α : Type} (f : String → BlockExecutionError) :
    Except String α → Outcome BlockExecutionError α
  | .ok a => .ok a
  | .error e => .err (f e)

/-- The executor; the caches of the process and the context shared with the miner are part of it. -/
structure BscBlockExecutor (m : Machine) where
  evm : m.Evm
  gasUsed : UInt64
  receipts : List (ReceiptBuilderCtx m.Evm m.ExecutionResult m.EvmState)
  systemTxs : List TransactionSigned
  assembledSystemTxs : List TransactionSigned
  /-- The validators and the turn length that the miner caches once the block has a hash. -/
  sharedValidators : Option (List Address × List VoteAddress)
  sharedTurnLength : Option UInt8
  /-- `VALIDATOR_CACHE` and `TURN_LENGTH_CACHE`. -/
  validatorCache : LruMap B256 (List Address × List VoteAddress)
  turnLengthCache : LruMap B256 UInt8

structure BlockExecutionResult (Receipt : Type) where
  receipts : List Receipt
  gasUsed : UInt64
  deriving DecidableEq

namespace BscBlockExecutor

variable {m : Machine}

/-- An executor at the start of a block. -/
def new (evm : m.Evm) (validatorCache : LruMap B256 (List Address × List VoteAddress))
    (turnLengthCache : LruMap B256 UInt8) : BscBlockExecutor m where
  evm
  gasUsed := 0
  receipts := []
  systemTxs := []
  assembledSystemTxs := []
  sharedValidators := none
  sharedTurnLength := none
  validatorCache
  turnLengthCache

def result (e : BscBlockExecutor m) : BlockExecutionResult m.Receipt :=
  ⟨e.receipts.map m.buildReceipt, e.gasUsed⟩

variable (ctx : ExecutionCtx) (e : BscBlockExecutor m)

/-! ## Transactions of the block -/

/-- Counts the gas of a transaction that ran, pushes its receipt and commits its changes. -/
def commitTransaction (tx : TransactionSigned) (result : m.ExecutionResult) (state : m.EvmState) :
    BscBlockExecutor m :=
  let gasUsed := e.gasUsed + m.gasUsed result
  { e with
    gasUsed
    receipts := e.receipts ++ [⟨tx, e.evm, result, state, gasUsed⟩]
    evm := m.commit e.evm state }

/-- A system transaction is queued, any other runs.  Nothing asks what was queued before. -/
def executeTransactionWithResultClosure (tx : TransactionSigned) :
    Outcome BlockExecutionError (UInt64 × BscBlockExecutor m) :=
  if ctx.isSystem tx then pure (0, { e with systemTxs := e.systemTxs ++ [tx] })
  else do
    let evm ← ofResult .other (m.patchBeforeTx e.evm tx)
    let blockAvailableGas := ctx.block.gasLimit - e.gasUsed
    if tx.transaction.gasLimit > blockAvailableGas then
      .err (.transactionGasLimitMoreThanAvailableBlockGas tx.transaction.gasLimit blockAvailableGas)
    else
      let (result, state, evm) ← ofResult (.evm · tx) (m.transact evm (.recovered tx (ctx.signer tx)))
      let e := { e with evm }.commitTransaction tx result state
      let evm ← ofResult .other (m.patchAfterTx e.evm tx)
      pure (m.gasUsed result, { e with evm })

/-- The transactions of a block body, in order. -/
def executeTransactions : List TransactionSigned → BscBlockExecutor m →
    Outcome BlockExecutionError (BscBlockExecutor m)
  | [], e => pure e
  | tx :: body, e => do
    let (_, e) ← e.executeTransactionWithResultClosure ctx tx
    executeTransactions body e

/-! ## System transactions -/

/-- The signed form of a generated transaction.  A node that checks a block takes it from the
queue; a slash transaction may be missing there, which is `none`.  A miner signs it. -/
def takeSystemTx (transaction : Transaction) :
    Outcome BlockExecutionError (Option (TransactionSigned × BscBlockExecutor m)) :=
  if !ctx.isMiner then
    match e.systemTxs with
    | [] =>
      if transaction.toAddr = some slashContract then pure none else .err .unexpectedSystemTx
    | head :: rest =>
      if ctx.signatureHash transaction ≠ ctx.signatureHash head.transaction then
        if transaction.toAddr = some slashContract ∧
            head.transaction.toAddr.getD .zero ≠ slashContract then pure none
        else .err .unexpectedSystemTx
      else pure (some (head, { e with systemTxs := rest }))
  else
    match ctx.signSystemTransaction with
    | none => .err .globalSignerNotInitializedForMiningMode
    | some sign => do
      let signed ← ofResult .failedToSignSystemTransaction (sign transaction)
      pure (some (signed, { e with assembledSystemTxs := e.assembledSystemTxs ++ [signed] }))

/-- The environment that a generated transaction runs in. -/
def systemTxEnv (transaction : Transaction) (sender kind : Address) (nonce : UInt64) : BscTxEnv where
  caller := sender
  kind
  nonce
  gasLimit := SystemContract.systemGasLimit
  value := transaction.value
  data := transaction.input
  gasPrice := 0
  chainId := some ctx.systemContracts.chainId
  isSystemTransaction := true

def transactSystemTx (transaction : Transaction) (sender : Address) :
    Outcome BlockExecutionError (BscBlockExecutor m) := do
  let (account, evm) ← ofResult .other (m.basic e.evm sender)
  let e := { e with evm }
  let nonce := (account.getD default).nonce
  let transaction := setNonce transaction nonce
  match ← e.takeSystemTx ctx transaction with
  | none => pure e
  | some (signedTx, e) =>
    let kind ← unwrap transaction.toAddr
    let (result, state, evm) ← ofResult .other
      (m.transact e.evm (.env (systemTxEnv ctx transaction sender kind nonce)))
    pure ({ e with evm }.commitTransaction signedTx result state)

/-- Generated transactions, in order, all from one sender. -/
def transactSystemTxs (sender : Address) : List Transaction → BscBlockExecutor m →
    Outcome BlockExecutionError (BscBlockExecutor m)
  | [], e => pure e
  | tx :: txs, e => do
    let e ← e.transactSystemTx ctx tx sender
    transactSystemTxs sender txs e

/-! ## Reading the contracts -/

/-- A call whose changes are dropped. -/
def ethCall (contract : Address) (data : Bytes) :
    Outcome BlockExecutionError (Bytes × BscBlockExecutor m) := do
  let env : BscTxEnv :=
    { caller := .zero, kind := contract, nonce := 0, gasLimit := ctx.block.gasLimit,
      value := 0, data, gasPrice := 0, chainId := some ctx.systemContracts.chainId,
      isSystemTransaction := false }
  let (result, _, evm) ← ofResult .other (m.transact e.evm (.env env))
  if !m.isSuccess result then .err (.msg "ETH call failed")
  else
    let output ← okOr (.msg "ETH call output is None") (m.output result)
    pure (output, { e with evm })

def getCurrentValidators (blockNumber : UInt64) :
    Outcome BlockExecutionError ((List Address × List VoteAddress) × BscBlockExecutor m) :=
  let sc := ctx.systemContracts
  if ctx.spec.isLubanActiveAtBlock blockNumber then do
    let (output, e) ← e.ethCall ctx validatorContract sc.getMiningValidatorsInput
    let validators ← unwrap (sc.unpackDataIntoValidatorSet output)
    pure (validators, e)
  else do
    let input :=
      if ctx.spec.isEulerActiveAtBlock blockNumber then sc.getMiningValidatorsInputBeforeLuban
      else sc.getValidatorsInputBeforeLuban
    let (output, e) ← e.ethCall ctx validatorContract input
    let validators ← unwrap (sc.unpackDataIntoValidatorSetBeforeLuban output)
    pure ((validators, []), e)

def getCurrentValidatorsWithCache (blockNumber : UInt64) (blockHash : B256) :
    Outcome BlockExecutionError ((List Address × List VoteAddress) × BscBlockExecutor m) :=
  match e.validatorCache.get blockHash with
  | (some validators, validatorCache) => pure (validators, { e with validatorCache })
  | (none, _) => do
    let (validators, e) ← e.getCurrentValidators ctx blockNumber
    pure (validators, { e with validatorCache := e.validatorCache.insert blockHash validators })

def getTurnLength (headerNumber headerTimestamp : UInt64) :
    Outcome BlockExecutionError (UInt8 × BscBlockExecutor m) :=
  if ctx.spec.isBohrActiveAtTimestamp headerNumber headerTimestamp then do
    let (output, e) ← e.ethCall ctx validatorContract ctx.systemContracts.getTurnLengthInput
    let turnLength ← unwrap (ctx.systemContracts.unpackDataIntoTurnLength output)
    pure (turnLength, e)
  else pure (defaultTurnLength, e)

end BscBlockExecutor

end RethBsc
