import RethBsc.Rust.Bytes
import RethBsc.Precompiles.Error

/-!
# The CometBFT light-block precompile

`src/evm/precompiles/cometbft.rs`.  The precompile takes a serialised consensus state and a
protobuf light block, checks that the block extends the state, and returns the next consensus
state in the same serialisation.

What comes from other crates is the record `Crates`: `prost`'s `merge`, the `TryFrom`
conversions of `cometbft`, the signature tally behind `has_sufficient_validators_overlap`, and the
two Merkle hashes.  Nothing is assumed of these functions here.

* `decodeLightBlockValidationInput` → `convertLightBlockFromProto` → `applyLightBlock` →
  `encode` are the four stages, in the order `cometbftLightBlockValidationRunInner` runs them.
* Strings are their UTF-8 bytes; `fromUtf8Lossy` is the standard library's replacement of
  maximal invalid subparts.
-/

namespace RethBsc.CometBft

open Rust Outcome

/-! ## Constants -/

def uint64TypeLength : Nat := 8
def consensusStateLengthBytesLength : Nat := 32
def validateResultMetadataLength : Nat := 32

def chainIdLength : Nat := 32
def heightLength : Nat := 8
def validatorSetHashLength : Nat := 32
def validatorPubkeyLength : Nat := 32
def validatorVotingPowerLength : Nat := 8
def relayerAddressLength : Nat := 20
def relayerBlsKeyLength : Nat := 48

def singleValidatorBytesLength : Nat :=
  validatorPubkeyLength + validatorVotingPowerLength + relayerAddressLength + relayerBlsKeyLength

def maxConsensusStateLength : Nat :=
  chainIdLength + heightLength + validatorSetHashLength + 99 * singleValidatorBytesLength

def cometbftLightBlockValidationBase : UInt64 := 3000

/-! ## The crates' data

The `cometbft` crate is built without its `secp256k1` feature, so that a public key is an
Ed25519 key of 32 bytes. -/

abbrev PublicKey := FixedBytes 32

/-- `cometbft::Hash`: an absent hash serialises to no bytes at all. -/
inductive Hash where
  | none
  | sha256 (digest : FixedBytes 32)
  deriving DecidableEq

def Hash.asBytes : Hash → Bytes
  | .none => []
  | .sha256 digest => digest.val

structure Validator where
  pubKey : PublicKey
  power : UInt64
  blsKey : Bytes
  relayerAddress : Bytes
  deriving DecidableEq

structure ValidatorSet where
  validators : List Validator
  deriving DecidableEq

/-- One vote of a commit: the validator it is attributed to and its signature. -/
structure CommitSig where
  pubKey : PublicKey
  signature : Bytes
  deriving DecidableEq

structure Commit where
  height : UInt64
  /-- `block_id.hash`. -/
  blockIdHash : Hash
  signatures : List CommitSig
  deriving DecidableEq

/-- The block header.  `rest` stands for the fields only the header hash reads. -/
structure TmHeader where
  chainId : Bytes
  height : UInt64
  validatorsHash : Hash
  nextValidatorsHash : Hash
  rest : Bytes
  deriving DecidableEq

structure SignedHeader where
  header : TmHeader
  commit : Commit
  deriving DecidableEq

structure LightBlock where
  signedHeader : SignedHeader
  validators : ValidatorSet
  nextValidators : ValidatorSet
  deriving DecidableEq

def LightBlock.height (lb : LightBlock) : UInt64 := lb.signedHeader.header.height

/-- The protobuf message: `prost` leaves a missing submessage absent. -/
structure TmLightBlock (σ ν : Type) where
  signedHeader : Option σ
  validatorSet : Option ν

inductive TrustThreshold where
  | oneThird
  | twoThirds
  deriving DecidableEq

/-- The functions of other crates, over raw signed headers `σ` and raw validator sets `ν`. -/
structure Crates (σ ν : Type) where
  /-- `TmLightBlock::default().merge(buf)`. -/
  merge : Bytes → Option (TmLightBlock σ ν)
  signedHeaderTryFrom : σ → Option SignedHeader
  setTryFrom : ν → Option ValidatorSet
  fromRawEd25519 : Bytes → Option PublicKey
  /-- `ValidatorSet::without_proposer`. -/
  withoutProposer : List Validator → ValidatorSet
  /-- Whether `ProdPredicates::has_sufficient_validators_overlap` returns `Ok`. -/
  hasSufficientValidatorsOverlap : SignedHeader → ValidatorSet → TrustThreshold → Bool
  /-- `ValidatorSet::hash`. -/
  validatorSetHash : ValidatorSet → Hash

structure ConsensusState where
  chainId : Bytes
  height : UInt64
  nextValidatorSetHash : Bytes
  validators : ValidatorSet
  deriving DecidableEq

/-! ## Strings -/

/-- The byte is a UTF-8 continuation byte, `byte & 192 == 128`. -/
def isContinuation (b : UInt8) : Bool := b &&& 192 == 128

/-- The second byte `c` continues the three-byte sequence that `b` starts. -/
def continuesThree (b c : UInt8) : Bool :=
  (b == 0xE0 && 0xA0 ≤ c && c ≤ 0xBF) || (0xE1 ≤ b && b ≤ 0xEC && 0x80 ≤ c && c ≤ 0xBF) ||
  (b == 0xED && 0x80 ≤ c && c ≤ 0x9F) || (0xEE ≤ b && b ≤ 0xEF && 0x80 ≤ c && c ≤ 0xBF)

/-- The second byte `c` continues the four-byte sequence that `b` starts. -/
def continuesFour (b c : UInt8) : Bool :=
  (b == 0xF0 && 0x90 ≤ c && c ≤ 0xBF) || (0xF1 ≤ b && b ≤ 0xF3 && 0x80 ≤ c && c ≤ 0xBF) ||
  (b == 0xF4 && 0x80 ≤ c && c ≤ 0x8F)

/-- U+FFFD in UTF-8. -/
def replacementCharacter : Bytes := [0xEF, 0xBF, 0xBD]

/-- `String::from_utf8_lossy`, on UTF-8 bytes: each maximal prefix of an ill-formed sequence
becomes one U+FFFD, and scanning resumes at the byte that broke it. -/
def fromUtf8Lossy : Bytes → Bytes
  | [] => []
  | b :: rest =>
    if b < 0x80 then b :: fromUtf8Lossy rest
    else if 0xC2 ≤ b && b ≤ 0xDF then
      match rest with
      | [] => replacementCharacter
      | c :: rest =>
        if isContinuation c then b :: c :: fromUtf8Lossy rest
        else replacementCharacter ++ fromUtf8Lossy (c :: rest)
    else if 0xE0 ≤ b && b ≤ 0xEF then
      match rest with
      | [] => replacementCharacter
      | c :: rest =>
        if continuesThree b c then
          match rest with
          | [] => replacementCharacter
          | d :: rest =>
            if isContinuation d then b :: c :: d :: fromUtf8Lossy rest
            else replacementCharacter ++ fromUtf8Lossy (d :: rest)
        else replacementCharacter ++ fromUtf8Lossy (c :: rest)
    else if 0xF0 ≤ b && b ≤ 0xF4 then
      match rest with
      | [] => replacementCharacter
      | c :: rest =>
        if continuesFour b c then
          match rest with
          | [] => replacementCharacter
          | d :: rest =>
            if isContinuation d then
              match rest with
              | [] => replacementCharacter
              | e :: rest =>
                if isContinuation e then b :: c :: d :: e :: fromUtf8Lossy rest
                else replacementCharacter ++ fromUtf8Lossy (e :: rest)
            else replacementCharacter ++ fromUtf8Lossy (d :: rest)
        else replacementCharacter ++ fromUtf8Lossy (c :: rest)
    else replacementCharacter ++ fromUtf8Lossy rest

/-- `trim_end_matches('\0')`: NUL is the one-byte sequence `00`. -/
def trimEndNul (bs : Bytes) : Bytes := (bs.reverse.dropWhile (· == 0)).reverse

/-! ## Decoding -/

section Stages

variable {σ ν : Type} (crates : Crates σ ν)

/-- The loop body of `decode_consensus_state` for the validator record `validator`. -/
def decodeValidator (validator : Bytes) : Outcome PrecompileError Validator := do
  let votingPower ← (slice validator validatorPubkeyLength
    (validatorPubkeyLength + validatorVotingPowerLength)) >>= fromBeSlice
  let relayerAddress ← slice validator (validatorPubkeyLength + validatorVotingPowerLength)
    (validatorPubkeyLength + validatorVotingPowerLength + relayerAddressLength)
  let relayerBlsKey ← sliceFrom validator
    (validatorPubkeyLength + validatorVotingPowerLength + relayerAddressLength)
  let rawKey ← slice validator 0 validatorPubkeyLength
  let pk ← okOr BscPrecompileError.invalidInput.into (crates.fromRawEd25519 rawKey)
  -- `Power::from(voting_power as u32)` keeps the low 32 bits only
  .ok ⟨pk, votingPower.toUInt32.toUInt64, relayerBlsKey, relayerAddress⟩

def decodeConsensusState (input : Bytes) : Outcome PrecompileError ConsensusState :=
  let minimumLength := chainIdLength + heightLength + validatorSetHashLength
  let inputLength := input.length
  if inputLength ≤ minimumLength ∨
      (inputLength - minimumLength) % singleValidatorBytesLength ≠ 0 then
    .err BscPrecompileError.invalidInput.into
  else do
    let chainId ← slice input 0 chainIdLength
    let chainId := trimEndNul (fromUtf8Lossy chainId)
    let pos := chainIdLength
    let height ← (slice input pos (pos + heightLength)) >>= fromBeSlice
    let pos := pos + heightLength
    let nextValidatorSetHash ← slice input pos (pos + validatorSetHashLength)
    let pos := pos + validatorSetHashLength
    let validatorSetLength := (inputLength - minimumLength) / singleValidatorBytesLength
    let validatorSetBytes ← sliceFrom input pos
    let validatorSet ← (List.range validatorSetLength).mapM fun i => do
      let validator ← slice validatorSetBytes (i * singleValidatorBytesLength)
        ((i + 1) * singleValidatorBytesLength)
      decodeValidator crates validator
    .ok ⟨chainId, height, nextValidatorSetHash, crates.withoutProposer validatorSet⟩

def decodeLightBlockValidationInput (input : Bytes) :
    Outcome PrecompileError (ConsensusState × TmLightBlock σ ν) :=
  if input.length < consensusStateLengthBytesLength then
    .err BscPrecompileError.invalidInput.into
  else do
    let csLength ← (slice input (consensusStateLengthBytesLength - uint64TypeLength)
      consensusStateLengthBytesLength) >>= fromBeSlice
    match checkedAdd (UInt64.ofNat consensusStateLengthBytesLength) csLength with
    | none => .err BscPrecompileError.invalidInput.into
    | some inputLengthChecked =>
      if input.length < inputLengthChecked.toNat then
        .err BscPrecompileError.invalidInput.into
      else do
        let decodeInput ← slice input consensusStateLengthBytesLength
          (consensusStateLengthBytesLength + csLength.toNat)
        let consensusState ← decodeConsensusState crates decodeInput
        let buf ← sliceFrom input (consensusStateLengthBytesLength + csLength.toNat)
        let lightBlockPb ← okOr BscPrecompileError.invalidInput.into (crates.merge buf)
        .ok (consensusState, lightBlockPb)

/-! ## Converting and applying the light block -/

def convertLightBlockFromProto (lightBlockProto : TmLightBlock σ ν) :
    Outcome PrecompileError LightBlock := do
  let rawHeader ← unwrap lightBlockProto.signedHeader
  let signedHeader ← okOr BscPrecompileError.invalidInput.into
    (crates.signedHeaderTryFrom rawHeader)
  let rawSet ← unwrap lightBlockProto.validatorSet
  let validatorSet ← okOr BscPrecompileError.invalidInput.into (crates.setTryFrom rawSet)
  .ok ⟨signedHeader, validatorSet, validatorSet⟩

/-- `ConsensusState::apply_light_block`: the new state and whether the validator set changed. -/
def ConsensusState.applyLightBlock (cs : ConsensusState) (lightBlock : LightBlock) :
    Outcome PrecompileError (ConsensusState × Bool) :=
  let header := lightBlock.signedHeader.header
  if lightBlock.height ≤ cs.height then .err BscPrecompileError.invalidInput.into
  else if header.chainId ≠ cs.chainId then .err BscPrecompileError.invalidInput.into
  else do
    if cs.height + 1 = lightBlock.height then
      if cs.nextValidatorSetHash ≠ header.validatorsHash.asBytes then
        .err BscPrecompileError.cometBftApplyBlockFailed.into
      else if !crates.hasSufficientValidatorsOverlap lightBlock.signedHeader
          lightBlock.validators .twoThirds then
        .err BscPrecompileError.cometBftApplyBlockFailed.into
      else .ok ()
    else
      if !crates.hasSufficientValidatorsOverlap lightBlock.signedHeader
          cs.validators .oneThird then
        .err BscPrecompileError.cometBftApplyBlockFailed.into
      else if !crates.hasSufficientValidatorsOverlap lightBlock.signedHeader
          lightBlock.validators .twoThirds then
        .err BscPrecompileError.cometBftApplyBlockFailed.into
      else .ok ()
    let validatorSetChanged :=
      (crates.validatorSetHash cs.validators).asBytes != header.validatorsHash.asBytes
    .ok ({ cs with
            height := lightBlock.height
            nextValidatorSetHash := header.nextValidatorsHash.asBytes
            validators := lightBlock.validators }, validatorSetChanged)

/-! ## Encoding -/

/-- The loop of `ConsensusState::encode` over the validators still to write, at `pos`. -/
def encodeValidators (output : Bytes) (pos : Nat) :
    List Validator → Outcome PrecompileError Bytes
  | [] => .ok output
  | validator :: rest => do
    let output ← copyFromSlice output pos (pos + validatorPubkeyLength) validator.pubKey.val
    let pos := pos + validatorPubkeyLength
    let output ← copyFromSlice output pos (pos + validatorVotingPowerLength)
      (toBeBytes validator.power)
    let pos := pos + validatorVotingPowerLength
    let output ← copyFromSlice output pos (pos + relayerAddressLength) validator.relayerAddress
    let pos := pos + relayerAddressLength
    let output ← copyFromSlice output pos (pos + relayerBlsKeyLength) validator.blsKey
    let pos := pos + relayerBlsKeyLength
    encodeValidators output pos rest

def ConsensusState.encode (cs : ConsensusState) : Outcome PrecompileError Bytes :=
  let validatorSetLength := cs.validators.validators.length
  let serializeLength := chainIdLength + heightLength + validatorSetHashLength
    + validatorSetLength * singleValidatorBytesLength
  if serializeLength > maxConsensusStateLength then
    .err BscPrecompileError.cometBftEncodeConsensusStateFailed.into
  else if cs.chainId.length > chainIdLength then
    .err BscPrecompileError.cometBftEncodeConsensusStateFailed.into
  else do
    let output := List.replicate serializeLength (0 : UInt8)
    let pos := 0
    let filledChainId ← copyFromSlice (List.replicate 32 (0 : UInt8)) 0 cs.chainId.length cs.chainId
    let output ← copyFromSlice output pos (pos + chainIdLength) filledChainId
    let pos := pos + chainIdLength
    let output ← copyFromSlice output pos (pos + heightLength) (toBeBytes cs.height)
    let pos := pos + heightLength
    let output ← copyFromSlice output pos (pos + validatorSetHashLength) cs.nextValidatorSetHash
    let pos := pos + validatorSetHashLength
    encodeValidators output pos cs.validators.validators

def encodeLightBlockValidationResult (validatorSetChanged : Bool) (consensusStateBytes : Bytes) :
    Outcome PrecompileError Bytes := do
  let output := List.replicate
    (validateResultMetadataLength + consensusStateBytes.length) (0 : UInt8)
  let output ← copyFromSlice output 0 1 [if validatorSetChanged then 1 else 0]
  let output ← copyFromSlice output 24 32
    (toBeBytes (UInt64.ofNat consensusStateBytes.length))
  copyFromSlice output 32 output.length consensusStateBytes

/-! ## The precompile -/

/-- The gas used and the returned bytes of a `PrecompileOutput`. -/
structure PrecompileOutput where
  gasUsed : UInt64
  bytes : Bytes
  deriving DecidableEq

def cometbftLightBlockValidationRunInner (input : Bytes) (gasLimit : UInt64) (isHertz : Bool) :
    Outcome PrecompileError PrecompileOutput :=
  if cometbftLightBlockValidationBase > gasLimit then .err .outOfGas
  else do
    let (consensusState, tmLightBlock) ← decodeLightBlockValidationInput crates input
    let lightBlock ← convertLightBlockFromProto crates tmLightBlock
    let (consensusState, validatorSetChanged) ← consensusState.applyLightBlock crates lightBlock
    let validatorSetChanged := if !isHertz then false else validatorSetChanged
    let consensusStateBytes ← consensusState.encode
    let bytes ← encodeLightBlockValidationResult validatorSetChanged consensusStateBytes
    .ok ⟨cometbftLightBlockValidationBase, bytes⟩

def cometbftLightBlockValidationRun (input : Bytes) (gasLimit : UInt64) :
    Outcome PrecompileError PrecompileOutput :=
  cometbftLightBlockValidationRunInner crates input gasLimit true

def cometbftLightBlockValidationRunBeforeHertz (input : Bytes) (gasLimit : UInt64) :
    Outcome PrecompileError PrecompileOutput :=
  cometbftLightBlockValidationRunInner crates input gasLimit false

end Stages

end RethBsc.CometBft
