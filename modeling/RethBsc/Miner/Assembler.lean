import Mathlib.Data.UInt
import RethBsc.Miner.NewHeader
import RethBsc.Parlia.Validation

/-!
# Assembling a block

`assemble_block_bsc` of `src/node/evm/assembler.rs`, with the part of `src/node/evm/builder.rs` that
calls it.  The header is filled from the environment that the block was executed in, from the
chain spec and from the results of the execution, and is then finished and sealed.

* `assembleBlockBsc_eq_ok`: an assembled header is the filled one with the difficulty of the
  proposer's turn and other extra data.
-/

namespace RethBsc

open Rust Outcome

def emptyWithdrawalsHash : B256 :=
  ⟨[0x56, 0xe8, 0x1f, 0x17, 0x1b, 0xcc, 0x55, 0xa6, 0xff, 0x83, 0x45, 0xe6, 0x92, 0xc0, 0xf8, 0x6e,
    0x5b, 0x48, 0xe0, 0x1b, 0x99, 0x6c, 0xad, 0xc0, 0x01, 0x62, 0x2f, 0xb5, 0xe3, 0x63, 0xb4, 0x21],
    rfl⟩

def emptyRequestsHash : B256 :=
  ⟨[0xe3, 0xb0, 0xc4, 0x42, 0x98, 0xfc, 0x1c, 0x14, 0x9a, 0xfb, 0xf4, 0xc8, 0x99, 0x6f, 0xb9, 0x24,
    0x27, 0xae, 0x41, 0xe4, 0x64, 0x9b, 0x93, 0x4c, 0xa4, 0x95, 0x99, 0x1b, 0x78, 0x52, 0xb8, 0x55],
    rfl⟩

/-- `U256::saturating_to::<u64>`. -/
def saturatingTo (x : Nat) : UInt64 :=
  if x < 2 ^ 64 then UInt64.ofNat x else 0xffffffffffffffff

@[simp] theorem saturatingTo_toNat (x : UInt64) : saturatingTo x.toNat = x := by
  rw [saturatingTo, if_pos x.toNat_lt, UInt64.ofNat_toNat]

/-! ## Blocks -/

/-- Roots and blob gas, computed by other crates. -/
structure BlockCodec where
  Tx : Type
  Receipt : Type
  transactionRoot : List Tx → B256
  receiptRoot : List Receipt → B256
  logsBloom : List Receipt → FixedBytes 256
  blobGasUsed : Tx → Option UInt64

structure Withdrawal where
  index : UInt64
  validatorIndex : UInt64
  address : Address
  amount : UInt64
  deriving DecidableEq

structure BscBlock (codec : BlockCodec) where
  header : Header
  transactions : List codec.Tx
  ommers : List Header
  withdrawals : Option (List Withdrawal)

structure BscBlockAssemblerInput (codec : BlockCodec) where
  evmEnv : EvmEnv
  /-- The parent hash of the execution context. -/
  parentHash : B256
  parent : Header
  transactions : List codec.Tx
  receipts : List codec.Receipt
  gasUsed : UInt64
  stateRoot : B256

section Assemble

variable (c : BscEvmConfig) {codec : BlockCodec} (input : BscBlockAssemblerInput codec)

/-- The excess blob gas of a block at `number` and `timestamp`. -/
def nextExcessBlobGas (parent : Header) (number timestamp : UInt64) : Option UInt64 :=
  if c.chainSpec.isCancunActiveAtTimestamp number timestamp then
    if c.chainSpec.isCancunActiveAtTimestamp parent.number parent.timestamp then
      c.blobs.maybeNextBlockExcessBlobGas (c.blobParamsAtTimestamp timestamp) parent
    else
      -- the first block of Cancun
      some (c.blobs.nextBlockExcessBlobGasOsaka c.blobs.cancun 0 0 0)
  else none

/-- The header before it is finished. -/
def unsealedHeader : Header :=
  let env := input.evmEnv.blockEnv
  let timestamp := saturatingTo env.timestamp
  let number := saturatingTo env.number
  let isCancun := c.chainSpec.isCancunActiveAtTimestamp number timestamp
  { parentHash := input.parentHash
    ommersHash := emptyOmmerRootHash
    beneficiary := env.beneficiary
    stateRoot := input.stateRoot
    transactionsRoot := codec.transactionRoot input.transactions
    receiptsRoot := codec.receiptRoot input.receipts
    logsBloom := codec.logsBloom input.receipts
    difficulty := env.difficulty
    number
    gasLimit := env.gasLimit
    gasUsed := input.gasUsed
    timestamp
    extraData := []
    mixHash := env.prevrandao.getD .zero
    nonce := .zero
    baseFeePerGas := if c.chainSpec.isLondonActiveAtBlock number then some env.basefee else none
    withdrawalsRoot := if isCancun then some emptyWithdrawalsHash else none
    blobGasUsed :=
      if isCancun then
        some (input.transactions.map fun tx => (codec.blobGasUsed tx).getD 0).sum
      else none
    excessBlobGas := nextExcessBlobGas c input.parent number timestamp
    parentBeaconBlockRoot :=
      if isCancun && c.chainSpec.isBohrActiveAtTimestamp number timestamp then
        some .zero
      else none
    requestsHash :=
      if isCancun && c.chainSpec.isPragueActiveAtBlockAndTimestamp number timestamp then
        some emptyRequestsHash
      else none }

/-- `provider` is the snapshot provider of the node with its header caches, once it is set. -/
def assembleBlockBsc (crypto : Crypto) (provider : Option Lookups) (state : MinerState) :
    Outcome String (BscBlock codec) := do
  let lookups ← okOr "Snapshot provider not available" provider
  let header := unsealedHeader c input
  let parentHeader ← okOr "Failed to get header from global header reader"
    (lookups.headerByHash header.parentHash)
  let parentSnap ← okOr "Failed to get snapshot from snapshot provider"
    (lookups.snapshotByHash header.parentHash)
  let sealed ← (finalizeNewHeader c crypto lookups state parentSnap parentHeader header).mapErr
    fun e => "Failed to finalize header: " ++ e.message
  pure
    { header := sealed
      transactions := input.transactions
      ommers := []
      withdrawals :=
        if c.chainSpec.isCancunActiveAtTimestamp header.number header.timestamp then some []
        else none }

end Assemble

/-- **What an assembled header is.** -/
theorem assembleBlockBsc_eq_ok {c : BscEvmConfig} {codec : BlockCodec}
    {input : BscBlockAssemblerInput codec} {crypto : Crypto} {lookups : Lookups}
    {state : MinerState} {snap : Snapshot} {block : BscBlock codec}
    (hsnap : lookups.snapshotByHash input.parentHash = some snap)
    (h : assembleBlockBsc c input crypto (some lookups) state = .ok block) :
    ∃ difficulty, (calculateDifficulty snap input.evmEnv.blockEnv.beneficiary
        : Outcome SignerError Nat) = .ok difficulty ∧
      SameButExtra { unsealedHeader c input with difficulty } block.header := by
  unfold assembleBlockBsc at h
  rw [okOr_some, ok_bind] at h
  obtain ⟨parentHeader, -, h⟩ := bind_eq_ok.mp h
  obtain ⟨snap', hsnap', h⟩ := bind_eq_ok.mp h
  obtain ⟨header, hseal, h⟩ := bind_eq_ok.mp h
  cases h
  have hsame : some snap' = some snap := (okOr_eq_ok.mp hsnap').symm.trans hsnap
  cases hsame
  exact finalizeNewHeader_eq_ok (mapErr_eq_ok.mp hseal)

/-- A block that is built on `parent`: executed in the environment for the next block, with the
hash of the parent in the execution context. -/
def builderInput (c : BscEvmConfig) (hashSlow : Header → B256) {codec : BlockCodec}
    (parent : Header) (attributes : NextBlockEnvAttributes) (transactions : List codec.Tx)
    (receipts : List codec.Receipt) (gasUsed : UInt64) (stateRoot : B256) :
    BscBlockAssemblerInput codec :=
  { evmEnv := c.nextEvmEnv parent attributes
    parentHash := hashSlow parent
    parent, transactions, receipts, gasUsed, stateRoot }

end RethBsc
