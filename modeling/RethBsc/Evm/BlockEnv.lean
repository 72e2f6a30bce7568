import RethBsc.Chain.Header
import RethBsc.Evm.Spec

/-!
# EVM environments

`evm_env` and `next_evm_env` of `src/node/evm/config.rs`, with `blob_params_at_timestamp` of
`src/chainspec/mod.rs`.  A validator reads the environment of a block off its header (`evmEnv`);
a miner, who has no header yet, builds it from the parent and the payload attributes
(`nextEvmEnv`).

* `SameEnv` says that two environments show a transaction the same block.
* `difficultyOpcode` is what the opcode DIFFICULTY, later PREVRANDAO, pushes: from the merge on
  `revm` reads it from `prevrandao`, before from `difficulty`.
-/

namespace RethBsc

open Rust

/-! ## Configuration -/

/-- The blob arithmetic of other crates. -/
structure BlobRules where
  BlobParams : Type
  /-- `BlobParams::cancun`. -/
  cancun : BlobParams
  /-- `blob_params.cancun` of the inner chain spec. -/
  chainCancun : BlobParams
  maxBlobsPerTx : BlobParams → UInt64
  calcBlobFee : BlobParams → UInt64 → Nat
  /-- From the excess, the blob gas used and the base fee of the parent. -/
  nextBlockExcessBlobGasOsaka : BlobParams → UInt64 → UInt64 → UInt64 → UInt64
  /-- `Header::maybe_next_block_excess_blob_gas`. -/
  maybeNextBlockExcessBlobGas : Option BlobParams → Header → Option UInt64
  /-- Without parameters there is no excess. -/
  maybeNext_none : ∀ parent, maybeNextBlockExcessBlobGas none parent = none

/-- What the EVM configuration reads of the chain. -/
structure BscEvmConfig where
  chainSpec : ChainSpec
  chainId : UInt64
  blobs : BlobRules

namespace BscEvmConfig

/-- BSC keeps the Cancun parameters in Prague.  Unlike the other checks this one asks the Ethereum
schedule, and for the timestamp alone. -/
def blobParamsAtTimestamp (c : BscEvmConfig) (timestamp : UInt64) : Option c.blobs.BlobParams :=
  if (c.chainSpec.ethereumForkActivation .cancun).activeAtTimestamp timestamp then
    some c.blobs.chainCancun
  else none

end BscEvmConfig

/-! ## Environments -/

structure BlobExcessGasAndPrice where
  excessBlobGas : UInt64
  blobGasprice : Nat
  deriving DecidableEq

structure BlockEnv where
  number : Nat
  beneficiary : Address
  timestamp : Nat
  difficulty : Nat
  prevrandao : Option B256
  gasLimit : UInt64
  basefee : UInt64
  blobExcessGasAndPrice : Option BlobExcessGasAndPrice
  deriving DecidableEq

structure CfgEnv where
  chainId : UInt64
  spec : BscHardfork
  maxBlobsPerTx : Option UInt64
  deriving DecidableEq

structure EvmEnv where
  cfgEnv : CfgEnv
  blockEnv : BlockEnv
  deriving DecidableEq

/-- `U256` to `B256`. -/
def b256OfNat (x : Nat) : B256 := ⟨natToBeBytes 32 x, by simp⟩

def b256ToNat (x : B256) : Nat := natOfBeBytes x.val

theorem b256ToNat_b256OfNat {x : Nat} (h : x < 2 ^ 256) : b256ToNat (b256OfNat x) = x := by
  have hpow : (256 : Nat) ^ 32 = 2 ^ 256 := rfl
  rw [b256ToNat, b256OfNat, natOfBeBytes_natToBeBytes, hpow, Nat.mod_eq_of_lt h]

theorem b256ToNat_b256OfUInt64 (x : UInt64) : b256ToNat (b256OfUInt64 x) = x.toNat := by
  rw [b256ToNat, b256OfUInt64, natOfBeBytes_replicate_zero_append, natOfBeBytes_toBeBytes]

@[simp] theorem b256ToNat_zero : b256ToNat .zero = 0 := by decide

namespace EvmEnv

/-- The spec of `revm` that the environment runs. -/
def specId (env : EvmEnv) : SpecId := env.cfgEnv.spec.specId

/-- What DIFFICULTY pushes; from the merge on a missing `prevrandao` would be a panic. -/
def difficultyOpcode (env : EvmEnv) : Option Nat :=
  if env.specId.isEnabledIn .merge then env.blockEnv.prevrandao.map b256ToNat
  else some env.blockEnv.difficulty

/-- What BLOBBASEFEE pushes. -/
def blobPrice (env : EvmEnv) : Option Nat :=
  env.blockEnv.blobExcessGasAndPrice.map BlobExcessGasAndPrice.blobGasprice

end EvmEnv

/-- The two environments run the same fork and show the same block. -/
structure SameEnv (a b : EvmEnv) : Prop where
  spec : a.cfgEnv.spec = b.cfgEnv.spec
  number : a.blockEnv.number = b.blockEnv.number
  beneficiary : a.blockEnv.beneficiary = b.blockEnv.beneficiary
  timestamp : a.blockEnv.timestamp = b.blockEnv.timestamp
  gasLimit : a.blockEnv.gasLimit = b.blockEnv.gasLimit
  basefee : a.blockEnv.basefee = b.blockEnv.basefee
  blobPrice : a.blobPrice = b.blobPrice
  difficultyOpcode : a.difficultyOpcode = b.difficultyOpcode

/-! ## The environment of a header -/

namespace BscEvmConfig

variable (c : BscEvmConfig)

def evmEnv (header : Header) : EvmEnv :=
  let blobParams :=
    if c.chainSpec.isCancunActiveAtTimestamp header.number header.timestamp then
      c.blobParamsAtTimestamp header.timestamp
    else none
  let spec := c.chainSpec.revmSpecByTimestampAndBlockNumber header.timestamp header.number
  let isMerge := spec.specId.isEnabledIn .merge
  { cfgEnv := ⟨c.chainId, spec, blobParams.map c.blobs.maxBlobsPerTx⟩
    blockEnv :=
      { number := header.number.toNat
        beneficiary := header.beneficiary
        timestamp := header.timestamp.toNat
        difficulty := if isMerge then 0 else header.difficulty
        -- the opcode is to show the difficulty also after the merge
        prevrandao := if isMerge then some (b256OfNat header.difficulty) else none
        gasLimit := header.gasLimit
        basefee := header.baseFeePerGas.getD 0
        blobExcessGasAndPrice := do
          let excess ← header.excessBlobGas
          let params ← blobParams
          pure ⟨excess, c.blobs.calcBlobFee params excess⟩ } }

/-! ## The environment of the next block -/

end BscEvmConfig

/-- The attributes that `next_evm_env` reads. -/
structure NextBlockEnvAttributes where
  timestamp : UInt64
  suggestedFeeRecipient : Address
  prevRandao : B256
  gasLimit : UInt64
  parentBeaconBlockRoot : Option B256
  deriving DecidableEq

def eip1559InitialBaseFee : UInt64 := 0

namespace BscEvmConfig

variable (c : BscEvmConfig)

/-- The gas limit that the source scales at the London boundary is not the one it uses. -/
def nextEvmEnv (parent : Header) (attributes : NextBlockEnvAttributes) : EvmEnv :=
  let spec :=
    c.chainSpec.revmSpecByTimestampAndBlockNumber attributes.timestamp (parent.number + 1)
  let blobParams := c.blobParamsAtTimestamp attributes.timestamp
  let excess := (c.blobs.maybeNextBlockExcessBlobGas blobParams parent).or
    (if spec.specId.isEnabledIn .cancun then some 0 else none)
  { cfgEnv := ⟨c.chainId, spec, none⟩
    blockEnv :=
      { number := (parent.number + 1).toNat
        beneficiary := attributes.suggestedFeeRecipient
        timestamp := attributes.timestamp.toNat
        difficulty := 0
        prevrandao := some attributes.prevRandao
        gasLimit := attributes.gasLimit
        basefee := eip1559InitialBaseFee
        blobExcessGasAndPrice := excess.map fun e =>
          ⟨e, c.blobs.calcBlobFee (blobParams.getD c.blobs.cancun) e⟩ } }

/-- From the merge on the miner's opcode shows the attributes' `prev_randao`, before it shows 0. -/
theorem difficultyOpcode_nextEvmEnv (parent : Header) (attributes : NextBlockEnvAttributes) :
    (c.nextEvmEnv parent attributes).difficultyOpcode =
      if (c.nextEvmEnv parent attributes).specId.isEnabledIn .merge then
        some (b256ToNat attributes.prevRandao)
      else some 0 := rfl

/-- The validators' opcode shows the difficulty of the header under every spec. -/
theorem difficultyOpcode_evmEnv {header : Header} (h : header.difficulty < 2 ^ 256) :
    (c.evmEnv header).difficultyOpcode = some header.difficulty := by
  unfold EvmEnv.difficultyOpcode
  cases hmerge : (c.evmEnv header).specId.isEnabledIn .merge with
  | false =>
    have hbranch : (c.chainSpec.revmSpecByTimestampAndBlockNumber header.timestamp
      header.number).specId.isEnabledIn .merge = false := hmerge
    simp [evmEnv, hbranch]
  | true =>
    have hbranch : (c.chainSpec.revmSpecByTimestampAndBlockNumber header.timestamp
      header.number).specId.isEnabledIn .merge = true := hmerge
    simp [evmEnv, hbranch, b256ToNat_b256OfNat h]

end BscEvmConfig

end RethBsc
