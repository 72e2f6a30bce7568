import RethBsc.Miner.Assembler
import RethBsc.Parlia.AssembleRobust

/-!
# The environment of a mined block

A miner executes the transactions of a block in the environment that `next_evm_env` builds.  The
validators execute them again in the one that `evm_env` reads off the sealed header.  Fork,
number, beneficiary, timestamp, gas limit and base fee of the two agree (`MinedHeader.sameEnv_iff`).

* The opcode DIFFICULTY shows the validators the difficulty of the header, 2 for a block in turn
  and 1 for another.  It shows the miner 0 before Lorentz, and the milliseconds of the block time
  from Lorentz on (`MinedHeader.difficultyOpcode_iff`).
* The blob prices agree when the header has an excess and the schedule has parameters to price it
  with (`MinedHeader.blobPrice_iff`).
-/

namespace RethBsc

open Rust

/-! ## What the header takes from the environment -/

/-- The fields of a mined header that an environment is read from. -/
structure MinedHeader (c : BscEvmConfig) (parent : Header) (attributes : NextBlockEnvAttributes)
    (difficulty : Nat) (header : Header) : Prop where
  number : header.number = parent.number + 1
  timestamp : header.timestamp = attributes.timestamp
  beneficiary : header.beneficiary = attributes.suggestedFeeRecipient
  gasLimit : header.gasLimit = attributes.gasLimit
  baseFee : header.baseFeePerGas.getD 0 = eip1559InitialBaseFee
  excessBlobGas : header.excessBlobGas =
    nextExcessBlobGas c parent (parent.number + 1) attributes.timestamp
  difficulty : header.difficulty = difficulty

section MinedHeader

variable {c : BscEvmConfig} {parent header : Header} {attributes : NextBlockEnvAttributes}
  {difficulty : Nat}

theorem minedHeader_of_assembled {hashSlow : Header → B256} {codec : BlockCodec}
    {transactions : List codec.Tx} {receipts : List codec.Receipt} {gasUsed : UInt64}
    {stateRoot : B256}
    (h : SameButExtra { unsealedHeader c (builderInput c hashSlow parent attributes transactions
      receipts gasUsed stateRoot) with difficulty } header) :
    MinedHeader c parent attributes difficulty header := by
  unfold SameButExtra at h
  have hnumber : saturatingTo (parent.number + 1).toNat = parent.number + 1 := saturatingTo_toNat _
  have htimestamp : saturatingTo attributes.timestamp.toNat = attributes.timestamp :=
    saturatingTo_toNat _
  rw [h]
  constructor
  case number => exact hnumber
  case timestamp => exact htimestamp
  case beneficiary => rfl
  case gasLimit => rfl
  case baseFee =>
    -- before London the header has no base fee, and it is read as 0
    show (if _ then some eip1559InitialBaseFee else none : Option UInt64).getD 0 = _
    split <;> rfl
  case excessBlobGas =>
    show nextExcessBlobGas c parent (saturatingTo (parent.number + 1).toNat)
      (saturatingTo attributes.timestamp.toNat) = _
    rw [hnumber, htimestamp]
  case difficulty => rfl

namespace MinedHeader

/-- Apart from the blob price and the opcode the environments agree. -/
theorem sameEnv_iff (h : MinedHeader c parent attributes difficulty header) :
    SameEnv (c.evmEnv header) (c.nextEvmEnv parent attributes) ↔
      (c.evmEnv header).blobPrice = (c.nextEvmEnv parent attributes).blobPrice ∧
      (c.evmEnv header).difficultyOpcode = (c.nextEvmEnv parent attributes).difficultyOpcode := by
  constructor
  · intro hsame
    exact ⟨hsame.blobPrice, hsame.difficultyOpcode⟩
  · rintro ⟨hprice, hopcode⟩
    constructor
    case spec =>
      show c.chainSpec.revmSpecByTimestampAndBlockNumber header.timestamp header.number = _
      rw [h.timestamp, h.number]
      rfl
    case number => exact congrArg UInt64.toNat h.number
    case beneficiary => exact h.beneficiary
    case timestamp => exact congrArg UInt64.toNat h.timestamp
    case gasLimit => exact h.gasLimit
    case basefee => exact h.baseFee
    case blobPrice => exact hprice
    case difficultyOpcode => exact hopcode

/-- **The opcode.** With a block time of `ms` milliseconds the opcode agrees when Lorentz is active
and the milliseconds happen to be the difficulty. -/
theorem difficultyOpcode_iff (h : MinedHeader c parent attributes difficulty header) {ms : UInt64}
    (hpos : 0 < difficulty) (hlt : difficulty < 2 ^ 256) (hrandao : attributes.prevRandao =
      if c.chainSpec.isLorentzActiveAtTimestamp (parent.number + 1) attributes.timestamp then
        b256OfUInt64 (ms % 1000)
      else .zero) :
    (c.evmEnv header).difficultyOpcode = (c.nextEvmEnv parent attributes).difficultyOpcode ↔
      c.chainSpec.isLorentzActiveAtTimestamp (parent.number + 1) attributes.timestamp = true ∧
        (ms % 1000).toNat = difficulty := by
  rw [c.difficultyOpcode_evmEnv (h.difficulty ▸ hlt), h.difficulty, c.difficultyOpcode_nextEvmEnv,
    hrandao]
  cases hlorentz : c.chainSpec.isLorentzActiveAtTimestamp (parent.number + 1)
      attributes.timestamp with
  | true =>
    have hmerge : (c.nextEvmEnv parent attributes).specId.isEnabledIn .merge = true := by
      rw [show (c.nextEvmEnv parent attributes).specId = .prague from
        ChainSpec.specId_eq_prague hlorentz]
      rfl
    rw [if_pos hmerge, if_pos rfl, b256ToNat_b256OfUInt64, Option.some.injEq]
    exact ⟨fun heq => ⟨rfl, heq.symm⟩, fun heq => heq.2.symm⟩
  | false =>
    -- the miner sees 0 on either side of the merge
    simp
    omega

end MinedHeader

/-! ## Blob prices -/

variable (c parent) in
/-- The header of a block at `timestamp` has an excess of blob gas, and the price of the excess is
the one that the miner takes. -/
def BlobPriceAgrees (timestamp : UInt64) : Prop :=
  let params := c.blobParamsAtTimestamp timestamp
  let excess := c.blobs.maybeNextBlockExcessBlobGas params parent
  c.chainSpec.isCancunActiveAtTimestamp (parent.number + 1) timestamp = true ∧
    if c.chainSpec.isCancunActiveAtTimestamp parent.number parent.timestamp then
      excess.isSome = true
    else
      ∃ p, params = some p ∧ c.blobs.calcBlobFee p (excess.getD 0)
        = c.blobs.calcBlobFee p (c.blobs.nextBlockExcessBlobGasOsaka c.blobs.cancun 0 0 0)

/-- From Lorentz on the miner always has a price. -/
theorem blobPrice_nextEvmEnv
    (hlorentz : c.chainSpec.isLorentzActiveAtTimestamp (parent.number + 1) attributes.timestamp
      = true) :
    (c.nextEvmEnv parent attributes).blobPrice = some (c.blobs.calcBlobFee
        ((c.blobParamsAtTimestamp attributes.timestamp).getD c.blobs.cancun)
        ((c.blobs.maybeNextBlockExcessBlobGas (c.blobParamsAtTimestamp attributes.timestamp)
          parent).getD 0)) := by
  have hcancun : (c.chainSpec.revmSpecByTimestampAndBlockNumber attributes.timestamp
      (parent.number + 1)).specId.isEnabledIn .cancun = true := by
    rw [ChainSpec.specId_eq_prague hlorentz]
    rfl
  simp only [EvmEnv.blobPrice, BscEvmConfig.nextEvmEnv, hcancun, if_true]
  cases c.blobs.maybeNextBlockExcessBlobGas (c.blobParamsAtTimestamp attributes.timestamp) parent
    with
  | none => rfl
  | some excess => rfl

/-- The validators' price of a mined block. -/
theorem MinedHeader.blobPrice_evmEnv (h : MinedHeader c parent attributes difficulty header) :
    (c.evmEnv header).blobPrice =
      if c.chainSpec.isCancunActiveAtTimestamp (parent.number + 1) attributes.timestamp then do
        let excess ← nextExcessBlobGas c parent (parent.number + 1) attributes.timestamp
        let params ← c.blobParamsAtTimestamp attributes.timestamp
        pure (c.blobs.calcBlobFee params excess)
      else none := by
  simp only [EvmEnv.blobPrice, BscEvmConfig.evmEnv, h.excessBlobGas, h.number, h.timestamp]
  split
  · cases nextExcessBlobGas c parent (parent.number + 1) attributes.timestamp with
    | none => rfl
    | some excess => cases c.blobParamsAtTimestamp attributes.timestamp <;> rfl
  · cases nextExcessBlobGas c parent (parent.number + 1) attributes.timestamp <;> rfl

/-- **The blob price.** -/
theorem MinedHeader.blobPrice_iff (h : MinedHeader c parent attributes difficulty header)
    (hlorentz : c.chainSpec.isLorentzActiveAtTimestamp (parent.number + 1) attributes.timestamp
      = true) :
    (c.evmEnv header).blobPrice = (c.nextEvmEnv parent attributes).blobPrice ↔
      BlobPriceAgrees c parent attributes.timestamp := by
  rw [h.blobPrice_evmEnv, blobPrice_nextEvmEnv hlorentz]
  unfold BlobPriceAgrees nextExcessBlobGas
  have hnone := c.blobs.maybeNext_none parent
  cases c.chainSpec.isCancunActiveAtTimestamp (parent.number + 1) attributes.timestamp with
  | false => simp
  | true =>
    cases hparams : c.blobParamsAtTimestamp attributes.timestamp with
    | none => cases c.chainSpec.isCancunActiveAtTimestamp parent.number parent.timestamp <;>
        simp [hnone]
    | some params =>
      cases c.chainSpec.isCancunActiveAtTimestamp parent.number parent.timestamp with
      | true =>
        -- both sides price the same excess, if there is one
        cases hexcess : c.blobs.maybeNextBlockExcessBlobGas (some params) parent <;>
          simp [hexcess]
      | false => simp [eq_comm]

end MinedHeader

/-! ## The environments agree by accident only -/

section SameEnv

variable {ε : Type} {c : BscEvmConfig} {crypto : Crypto} {outOfFuel : ε} {fuel : Nat}
  {now later : UInt64} {snap : Snapshot} {parent : Header} {signer : Address}

variable (c crypto outOfFuel fuel now later snap parent signer) in
/-- Lorentz is active at the new block, the milliseconds of its block time are its difficulty, and
its blob gas has the miner's price. -/
def EnvAgrees : Prop :=
  ∃ ms difficulty,
    c.parlia.blockTimeForRamanujanFork outOfFuel fuel later snap parent
      (prepareNewHeader c crypto.hashSlow now parent signer) = .ok ms ∧
    (calculateDifficulty snap signer : Outcome SignerError Nat) = .ok difficulty ∧
    c.chainSpec.isLorentzActiveAtTimestamp (parent.number + 1) (ms / 1000) = true ∧
    (ms % 1000).toNat = difficulty ∧
    BlobPriceAgrees c parent (ms / 1000)

theorem calculateDifficulty_bounds {difficulty : Nat}
    (h : (calculateDifficulty snap signer : Outcome SignerError Nat) = .ok difficulty) :
    0 < difficulty ∧ difficulty < 2 ^ 256 := by
  unfold calculateDifficulty at h
  obtain ⟨inturn, -, h⟩ := Outcome.bind_eq_ok.mp h
  cases inturn <;> cases h <;> decide

/-- **The miner's environment is the validators' exactly under `EnvAgrees`.**  For every parent,
parent snapshot, clock and signer, and whatever was executed in the block. -/
theorem minedEnv_same_iff {codec : BlockCodec} {lookups : Lookups} {state : MinerState}
    {attributes : EthPayloadBuilderAttributes} {prepared : Header} (gasLimit : UInt64)
    (transactions : List codec.Tx) (receipts : List codec.Receipt) (gasUsed : UInt64)
    (stateRoot : B256) {block : BscBlock codec}
    (hsnap : lookups.snapshotByHash (crypto.hashSlow parent) = some snap)
    (hattributes : prepareNewAttributes c crypto.hashSlow outOfFuel fuel now later snap parent signer
      = .ok (attributes, prepared))
    (hblock : assembleBlockBsc c (builderInput c crypto.hashSlow parent
      (attributes.nextBlock gasLimit) transactions receipts gasUsed stateRoot) crypto
      (some lookups) state = .ok block) :
    SameEnv (c.evmEnv block.header) (c.nextEvmEnv parent (attributes.nextBlock gasLimit)) ↔
      EnvAgrees c crypto outOfFuel fuel now later snap parent signer := by
  obtain ⟨ms, hms, htimestamp, hrecipient, hrandao⟩ := prepareNewAttributes_eq_ok hattributes
  obtain ⟨difficulty, hdiff, hheader⟩ := assembleBlockBsc_eq_ok hsnap hblock
  have hmined := minedHeader_of_assembled hheader
  have hdiff : (calculateDifficulty snap signer : Outcome SignerError Nat) = .ok difficulty :=
    hrecipient ▸ hdiff
  obtain ⟨hpos, hlt⟩ := calculateDifficulty_bounds hdiff
  have hopcode := hmined.difficultyOpcode_iff hpos hlt
    (show attributes.prevRandao = if c.chainSpec.isLorentzActiveAtTimestamp (parent.number + 1)
      attributes.timestamp then b256OfUInt64 (ms % 1000) else _ from htimestamp ▸ hrandao)
  have htime : (attributes.nextBlock gasLimit).timestamp = ms / 1000 := htimestamp
  rw [hmined.sameEnv_iff, hopcode, htime]
  constructor
  · rintro ⟨hprice, hlorentz, hmillis⟩
    refine ⟨ms, difficulty, hms, hdiff, hlorentz, hmillis, ?_⟩
    exact htime ▸ (hmined.blobPrice_iff (htime ▸ hlorentz)).mp hprice
  · rintro ⟨ms', difficulty', hms', hdiff', hlorentz, hmillis, hprice⟩
    cases hms.symm.trans hms'
    cases hdiff.symm.trans hdiff'
    exact ⟨(hmined.blobPrice_iff (htime ▸ hlorentz)).mpr (htime ▸ hprice), hlorentz, hmillis⟩

/-! ### One block in turn

The chain runs every fork from genesis on, with one validator.  The parent, block 1, is at second
1000 and the clock shows an earlier time, so that the new block is due 3 seconds after it. -/

def fermiSpec : ChainSpec where
  bscForkActivation
    | .kepler | .feynman | .feynmanFix | .cancun | .haber | .haberFix | .bohr | .tycho | .pascal
    | .lorentz | .maxwell | .fermi => .timestamp 0
    | _ => .block 0
  ethereumForkActivation
    | .shanghai | .cancun | .prague => .timestamp 0
    | _ => .block 0

/-- The blob gas rules of Cancun, with a price that is right while there is no excess. -/
def calmBlobs : BlobRules where
  BlobParams := Unit
  cancun := ()
  chainCancun := ()
  maxBlobsPerTx _ := 6
  calcBlobFee _ excess := 1 + excess.toNat
  nextBlockExcessBlobGasOsaka _ excess used _ := saturatingSub (excess + used) 393216
  maybeNextBlockExcessBlobGas params parent := do
    let _ ← params
    let excess ← parent.excessBlobGas
    let used ← parent.blobGasUsed
    let _ ← parent.baseFeePerGas
    pure (saturatingSub (excess + used) 393216)
  maybeNext_none _ := rfl

def fermiConfig : BscEvmConfig := ⟨fermiSpec, 56, calmBlobs⟩

/-- The parent, with the milliseconds of its block time. -/
def parentAt (milliseconds : UInt64) : Header :=
  { timedHeader 1 1000 milliseconds with
    blobGasUsed := some 0
    excessBlobGas := some 0 }

def parentLookups (milliseconds : UInt64) : Lookups where
  snapshotByHash _ := some loneSnapshot
  headerByHash _ := some (parentAt milliseconds)
  headerByNumber _ := none
  canonicalHeaderByHash _ := none

/-- A signer is set; there are no votes, and nothing is cached. -/
def idleState : MinerState :=
  ⟨fun _ => none, fun _ => none, .new, some fun _ _ => .ok (.repeatByte 65 1)⟩

def emptyBlocks : BlockCodec :=
  ⟨Empty, Empty, fun _ => .zero, fun _ => .zero, fun _ => .zero,
    fun _ => none⟩

/-- The attributes of the block after `parentAt milliseconds`. -/
def dueAttributes (milliseconds : UInt64) : EthPayloadBuilderAttributes :=
  ⟨b256OfUInt64 1, 1003, loneValidator, b256OfUInt64 milliseconds, some .zero⟩

/-- An empty block after `parentAt milliseconds`. -/
def assembleEmptyBlock (milliseconds : UInt64) : Outcome String (BscBlock emptyBlocks) :=
  assembleBlockBsc fermiConfig (builderInput fermiConfig numberHash (parentAt milliseconds)
    ((dueAttributes milliseconds).nextBlock 30000000) [] [] 0 .zero) markedCrypto
    (some (parentLookups milliseconds)) idleState

/-- After a parent on the second the opcode shows the miner 0 and the validators 2. -/
theorem minedEnv_opcode_differs :
    (parentLookups 0).snapshotByHash (numberHash (parentAt 0)) = some loneSnapshot ∧
    ∃ prepared block,
      prepareNewAttributes fermiConfig numberHash () 0 999000 999000 loneSnapshot (parentAt 0)
        loneValidator = .ok (dueAttributes 0, prepared) ∧
      assembleEmptyBlock 0 = .ok block ∧
      (fermiConfig.evmEnv block.header).difficultyOpcode = some 2 ∧
      (fermiConfig.nextEvmEnv (parentAt 0)
        ((dueAttributes 0).nextBlock 30000000)).difficultyOpcode = some 0 ∧
      ¬ SameEnv (fermiConfig.evmEnv block.header)
        (fermiConfig.nextEvmEnv (parentAt 0) ((dueAttributes 0).nextBlock 30000000)) := by
  refine ⟨rfl, _, _, rfl, rfl, ?_, ?_, ?_⟩
  · decide +kernel
  · decide +kernel
  · intro hsame
    exact absurd hsame.difficultyOpcode (by decide +kernel)

theorem envAgrees_two :
    EnvAgrees fermiConfig markedCrypto () 0 999000 999000 loneSnapshot (parentAt 2)
      loneValidator := by
  refine ⟨1003002, 2, rfl, rfl, ?_, ?_, ?_, ?_⟩
  · decide +kernel
  · decide +kernel
  · decide +kernel
  · decide +kernel

/-- After a parent with 2 milliseconds the block is due at 2 milliseconds, its difficulty. -/
theorem minedEnv_same_after_two_milliseconds :
    ∃ prepared block,
      prepareNewAttributes fermiConfig numberHash () 0 999000 999000 loneSnapshot (parentAt 2)
        loneValidator = .ok (dueAttributes 2, prepared) ∧
      assembleEmptyBlock 2 = .ok block ∧
      SameEnv (fermiConfig.evmEnv block.header)
        (fermiConfig.nextEvmEnv (parentAt 2) ((dueAttributes 2).nextBlock 30000000)) := by
  have hsnap : (parentLookups 2).snapshotByHash (markedCrypto.hashSlow (parentAt 2))
      = some loneSnapshot := rfl
  obtain ⟨block, hblock⟩ : ∃ block, assembleEmptyBlock 2 = .ok block := ⟨_, rfl⟩
  refine ⟨_, block, rfl, hblock, ?_⟩
  exact (minedEnv_same_iff 30000000 [] [] 0 .zero hsnap rfl hblock).mpr envAgrees_two

end SameEnv

end RethBsc
