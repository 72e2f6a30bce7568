import Mathlib.Data.List.Sort
import RethBsc.Chain.Transaction
import RethBsc.Parlia.Vote

/-!
# System contracts

`src/system_contracts/mod.rs` and `feynman_fork.rs`: the contracts that BSC keeps its validator set
in, the transactions that a block executor generates for them, and the election of validators.

* `SystemContract` carries the ABI codings, which are those of another crate.
* Every generated transaction is a `systemTransaction`: legacy, without a gas price, to one of the
  contracts.  `isSystemTransaction` recognises such transactions in a block, by their signer.
-/

namespace RethBsc

open Rust

/-! ## Addresses -/

/-- The address that ends in the two bytes. -/
def contractAddress (hi lo : UInt8) : Address := ⟨List.replicate 18 0 ++ [hi, lo], by simp⟩

def validatorContract : Address := contractAddress 0x10 0x00
def slashContract : Address := contractAddress 0x10 0x01
def systemRewardContract : Address := contractAddress 0x10 0x02
def lightClientContract : Address := contractAddress 0x10 0x03
def tokenHubContract : Address := contractAddress 0x10 0x04
def relayerIncentivizeContract : Address := contractAddress 0x10 0x05
def relayerHubContract : Address := contractAddress 0x10 0x06
def govHubContract : Address := contractAddress 0x10 0x07
def tokenManagerContract : Address := contractAddress 0x10 0x08
def crossChainContract : Address := contractAddress 0x20 0x00
def stakingContract : Address := contractAddress 0x20 0x01
def stakeHubContract : Address := contractAddress 0x20 0x02
def stakeCreditContract : Address := contractAddress 0x20 0x03
def governorContract : Address := contractAddress 0x20 0x04
def govTokenContract : Address := contractAddress 0x20 0x05
def timelockContract : Address := contractAddress 0x20 0x06
def tokenRecoverPortalContract : Address := contractAddress 0x30 0x00

def systemContractsSet : List Address :=
  [validatorContract, slashContract, systemRewardContract, lightClientContract, tokenHubContract,
    relayerIncentivizeContract, relayerHubContract, govHubContract, tokenManagerContract,
    crossChainContract, stakingContract, stakeHubContract, stakeCreditContract, governorContract,
    govTokenContract, timelockContract, tokenRecoverPortalContract]

/-- The account that collects the fees of a block. -/
def systemAddress : Address := ⟨List.replicate 19 0xff ++ [0xfe], by simp⟩

def isInvokeSystemContract (addr : Address) : Bool := systemContractsSet.contains addr

/-- A call of a system contract, for free, by the proposer of the block. -/
def isSystemTransaction (tx : Transaction) (signer coinbase : Address) : Bool :=
  match tx.toAddr with
  | some addr => signer == coinbase && isInvokeSystemContract addr && tx.maxFeePerGas == 0
  | none => false

/-! ## Generated transactions -/

/-- The codings of call data and results; a decoder that fails is a panic. -/
structure SystemContract where
  chainId : UInt64
  slashInput : Address → Bytes
  depositInput : Address → Bytes
  distributeFinalityRewardInput : List Address → List Nat → Bytes
  updateValidatorSetV2Input : List Address → List UInt64 → List Bytes → Bytes
  initInput : Bytes
  initializeInput : Bytes
  getMiningValidatorsInput : Bytes
  getMiningValidatorsInputBeforeLuban : Bytes
  getValidatorsInputBeforeLuban : Bytes
  getTurnLengthInput : Bytes
  unpackDataIntoValidatorSet : Bytes → Option (List Address × List VoteAddress)
  unpackDataIntoValidatorSetBeforeLuban : Bytes → Option (List Address)
  /-- With the conversion to `u8`, which also panics. -/
  unpackDataIntoTurnLength : Bytes → Option UInt8

namespace SystemContract

variable (sc : SystemContract)

/-- `u64::MAX / 2`. -/
def systemGasLimit : UInt64 := 9223372036854775807

/-- What the generated transactions have in common; the executor sets the nonce. -/
def systemTransaction (contract : Address) (value : Nat) (input : Bytes) : Transaction where
  txType := .legacy
  chainId := some sc.chainId
  nonce := 0
  gasLimit := systemGasLimit
  maxFeePerGas := 0
  value
  input
  toAddr := some contract
  rest := []

def slash (address : Address) : Transaction :=
  sc.systemTransaction slashContract 0 (sc.slashInput address)

def distributeToSystem (systemReward : Nat) : Transaction :=
  sc.systemTransaction systemRewardContract systemReward []

def distributeToValidator (address : Address) (blockReward : Nat) : Transaction :=
  sc.systemTransaction validatorContract blockReward (sc.depositInput address)

def distributeFinalityReward (validators : List Address) (weights : List Nat) : Transaction :=
  sc.systemTransaction validatorContract 0 (sc.distributeFinalityRewardInput validators weights)

def updateValidatorSetV2 (validators : List Address) (votingPowers : List UInt64)
    (voteAddresses : List Bytes) : Transaction :=
  sc.systemTransaction validatorContract 0
    (sc.updateValidatorSetV2Input validators votingPowers voteAddresses)

def genesisContractsTxs : List Transaction :=
  [validatorContract, slashContract, lightClientContract, relayerHubContract, tokenHubContract,
    relayerIncentivizeContract, crossChainContract].map
    fun contract => sc.systemTransaction contract 0 sc.initInput

def feynmanContractsTxs : List Transaction :=
  [stakeHubContract, governorContract, govTokenContract, timelockContract,
    tokenRecoverPortalContract].map fun contract => sc.systemTransaction contract 0 sc.initializeInput

end SystemContract

/-! ## Election -/

structure ValidatorElectionInfo where
  address : Address
  votingPower : Nat
  voteAddress : Bytes
  deriving DecidableEq

structure ElectedValidators where
  validators : List Address
  votingPowers : List UInt64
  voteAddrs : List Bytes
  deriving DecidableEq

/-- `U256::to::<u64>`. -/
def toU64 {ε : Type} (n : Nat) : Outcome ε UInt64 :=
  if n < 2 ^ 64 then .ok (UInt64.ofNat n) else .panic

/-- `a` leaves the heap before `b`: more voting power, then the smaller address as text, given by
`toText`. -/
def ElectedBefore (toText : Address → String) (a b : ValidatorElectionInfo) : Prop :=
  b.votingPower < a.votingPower ∨
    b.votingPower = a.votingPower ∧ toText a.address ≤ toText b.address

instance (toText : Address → String) : DecidableRel (ElectedBefore toText) := fun _ _ => by
  unfold ElectedBefore
  infer_instance

/-- The heap is emptied in the order of its elements, so it is kept as a sorted list. -/
def getTopValidatorsByVotingPower {ε : Type} (toText : Address → String)
    (validators : List ValidatorElectionInfo) (maxElectedValidators : Nat) :
    Outcome ε ElectedValidators := do
  let heap := (validators.filter fun info => 0 < info.votingPower).insertionSort
    (ElectedBefore toText)
  let topN ← toU64 maxElectedValidators
  let elected := heap.take topN.toNat
  let votingPowers ← elected.mapM fun item => toU64 (item.votingPower / 10 ^ 10)
  pure ⟨elected.map ValidatorElectionInfo.address, votingPowers,
    elected.map ValidatorElectionInfo.voteAddress⟩

end RethBsc
