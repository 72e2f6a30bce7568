import RethBsc.Evm.BlockEnv
import RethBsc.Parlia.Attestation
import RethBsc.Parlia.BackOff

/-!
# New headers

`src/node/miner/util.rs`, with the `prepare_*` functions of `src/consensus/parlia/consensus.rs`.
A miner prepares the payload attributes of a block before it executes the transactions
(`prepareNewAttributes`), and finishes and seals the header after it (`finalizeNewHeader`).

* `prepareNewAttributes_eq_ok`: the block time is split into seconds and, from Lorentz on, the
  milliseconds in `mix_hash`.
* `finalizeNewHeader_eq_ok`: finishing a header sets the difficulty and writes to the extra data;
  every other field stays as it was (`SameButExtra`).
-/

namespace RethBsc

open Rust Outcome

/-! ## Payload attributes -/

structure EthPayloadBuilderAttributes where
  parent : B256
  timestamp : UInt64
  suggestedFeeRecipient : Address
  prevRandao : B256
  parentBeaconBlockRoot : Option B256
  deriving DecidableEq

/-- The attributes that the payload builder hands on; the gas limit is its own. -/
def EthPayloadBuilderAttributes.nextBlock (attributes : EthPayloadBuilderAttributes)
    (gasLimit : UInt64) : NextBlockEnvAttributes :=
  ⟨attributes.timestamp, attributes.suggestedFeeRecipient, attributes.prevRandao, gasLimit,
    attributes.parentBeaconBlockRoot⟩

/-- A `Parlia` of the configured chain. -/
def BscEvmConfig.parlia (c : BscEvmConfig) : Parlia := .ofSpec c.chainSpec

section Prepare

variable {ε : Type} (c : BscEvmConfig) (hashSlow : Header → B256)

/-- The header that the attributes are taken from; `now` is the clock in milliseconds. -/
def prepareNewHeader (now : UInt64) (parent : Header) (signer : Address) : Header :=
  let timestamp := if now / 1000 ≤ parent.timestamp then parent.timestamp + 1 else now / 1000
  let number := parent.number + 1
  { (default : Header) with
    number, timestamp
    parentHash := hashSlow parent
    beneficiary := signer
    excessBlobGas :=
      if c.chainSpec.isCancunActiveAtTimestamp number timestamp then
        c.blobs.maybeNextBlockExcessBlobGas (c.blobParamsAtTimestamp timestamp) parent
      else none }

def Parlia.prepareTimestamp (p : Parlia) (outOfFuel : ε) (fuel : Nat) (now : UInt64)
    (parentSnap : Snapshot) (parent header : Header) : Outcome ε Header := do
  let ms ← p.blockTimeForRamanujanFork outOfFuel fuel now parentSnap parent header
  let header := { header with timestamp := ms / 1000 }
  pure <|
    if p.spec.isLorentzActiveAtTimestamp header.number header.timestamp then
      setMillisecondPartOfTimestamp ms header
    else { header with mixHash := .zero }

/-- The attributes, and the header that goes into the mining context.  The clock is read for the
new header and again for the block time. -/
def prepareNewAttributes (outOfFuel : ε) (fuel : Nat) (now later : UInt64) (parentSnap : Snapshot)
    (parent : Header) (signer : Address) : Outcome ε (EthPayloadBuilderAttributes × Header) := do
  let header ← c.parlia.prepareTimestamp outOfFuel fuel later parentSnap parent
    (prepareNewHeader c hashSlow now parent signer)
  pure
    ({ parent := header.parentHash
       timestamp := header.timestamp
       suggestedFeeRecipient := header.beneficiary
       prevRandao := header.mixHash
       parentBeaconBlockRoot :=
        if c.chainSpec.isBohrActiveAtTimestamp header.number header.timestamp then
          some .zero
        else none }, header)

end Prepare

/-! ## What the miner keeps -/

inductive SignerError where
  | notInitialized
  | alreadyInitialized
  | signingFailed (message : String)
  deriving DecidableEq

def SignerError.message : SignerError → String
  | .notInitialized => "Global signer not initialized"
  | .alreadyInitialized => "Global signer already initialized"
  | .signingFailed message => "Signing failed: " ++ message

/-- Global state that sealing reads. -/
structure MinerState where
  /-- `VALIDATOR_CACHE`, by block hash. -/
  validatorCache : B256 → Option (List Address × List VoteAddress)
  /-- `TURN_LENGTH_CACHE`, by block hash. -/
  turnLengthCache : B256 → Option UInt8
  pool : VotePool
  /-- `MinerSigner::seal_header` of the global signer, once there is one. -/
  globalSigner : Option (Header → UInt64 → Except SignerError (FixedBytes extraSealLen))

def MinerState.sealHeaderWithGlobalSigner (state : MinerState) (header : Header)
    (chainId : UInt64) : Outcome SignerError (FixedBytes extraSealLen) := do
  let sealHeader ← okOr .notInitialized state.globalSigner
  match sealHeader header chainId with
  | .ok sealData => pure sealData
  | .error e => .err e

/-! ## Finishing a header -/

def calculateDifficulty {ε : Type} (snap : Snapshot) (signer : Address) : Outcome ε Nat := do
  let inturn ← snap.isInturn signer
  pure (if inturn then diffInturn else diffNoturn)

namespace Parlia

variable {ε : Type} (p : Parlia)

/-- Appends the validators to the extra data of an epoch header.  Without validators there is
nothing to append, and the header stays as it is. -/
def prepareValidators (snap : Snapshot) (validators : Option (List Address × List VoteAddress))
    (header : Header) : Outcome ε Header :=
  if !isMultipleOf header.number snap.epochNum then pure header
  else
    match validators with
    | none => pure header
    | some (newValidators, voteAddresses) =>
      let sorted := newValidators.insertionSort (· ≤ ·)
      if !p.spec.isLubanActiveAtBlock header.number then
        pure { header with extraData := header.extraData ++ sorted.flatMap FixedBytes.val }
      else do
        let voteMap :=
          if p.spec.isLubanTransitionAtBlock header.number then
            Map.insertAll id (fun _ => .zero) newValidators ∅
          else
            Map.insertAll Prod.fst (fun vi => voteAddresses.getD vi.2 .zero)
              newValidators.zipIdx ∅
        let bytes ← sorted.mapM fun validator => do
          let voteAddr ← unwrap (voteMap.lookup validator)
          pure (validator.val ++ voteAddr.val)
        pure { header with
          extraData := header.extraData ++ UInt8.ofNat newValidators.length :: bytes.flatten }

/-- Appends the turn length of the parent to the extra data of an epoch header. -/
def prepareTurnLength (turnLengthCache : B256 → Option UInt8) (parentSnap : Snapshot)
    (header : Header) : Outcome ParliaConsensusError Header :=
  if !isMultipleOf header.number parentSnap.epochNum ||
      !p.spec.isBohrActiveAtTimestamp header.number header.timestamp then pure header
  else do
    let turnLength ← okOr (.turnLengthNotFound header.parentHash)
      (turnLengthCache header.parentHash)
    pure { header with extraData := header.extraData ++ [turnLength] }

end Parlia

/-- Room for the seal, and the seal in it. -/
def sealExtraData (state : MinerState) (chainId : UInt64) (header : Header) :
    Outcome SignerError Header := do
  let extraData := header.extraData ++ List.replicate extraSealLen 0
  let sealData ← state.sealHeaderWithGlobalSigner { header with extraData } chainId
  let extraData ← copyFromSlice extraData (extraData.length - extraSealLen) extraData.length
    sealData.val
  pure { header with extraData }

section Finalize

variable (c : BscEvmConfig) (crypto : Crypto) (lookups : Lookups) (state : MinerState)
  (parentSnap : Snapshot) (parent header : Header)

def setDifficultyAndVanity (difficulty : Nat) : Header :=
  { header with
    difficulty
    extraData :=
      if header.extraData.length < extraVanityLen then List.replicate extraVanityLen 0
      else header.extraData }

/-- An epoch header gets the validators that are cached for its parent. -/
def prepareCachedValidators : Outcome SignerError Header :=
  if isMultipleOf header.number parentSnap.epochNum then
    c.parlia.prepareValidators parentSnap (state.validatorCache (crypto.hashSlow parent)) header
  else pure header

/-- A failure to assemble the attestation is logged only. -/
def attestIfPossible : Outcome SignerError Header :=
  match c.parlia.assembleVoteAttestation crypto lookups state.pool parentSnap parent header with
  | .ok header => pure header
  | .err _ => pure header
  | .panic => .panic

/-- Difficulty, vanity, validators, turn length, attestation and seal, in this order. -/
def finalizeNewHeader : Outcome SignerError Header := do
  let difficulty ← calculateDifficulty parentSnap header.beneficiary
  let header := setDifficultyAndVanity header difficulty
  let header ← prepareCachedValidators c crypto state parentSnap parent header
  let header ← (c.parlia.prepareTurnLength state.turnLengthCache parentSnap header).mapErr fun e =>
    .signingFailed ("Failed to prepare turn length: " ++ e.message)
  let header ← attestIfPossible c crypto lookups state parentSnap parent header
  sealExtraData state c.chainId header

end Finalize

/-! ## What preparing and finishing do -/

/-- The prepared attributes, from the block time that was found. -/
theorem prepareNewAttributes_eq_ok {ε : Type} {c : BscEvmConfig} {hashSlow : Header → B256}
    {outOfFuel : ε} {fuel : Nat} {now later : UInt64} {snap : Snapshot} {parent header : Header}
    {signer : Address} {attributes : EthPayloadBuilderAttributes}
    (h : prepareNewAttributes c hashSlow outOfFuel fuel now later snap parent signer
      = .ok (attributes, header)) :
    ∃ ms, c.parlia.blockTimeForRamanujanFork outOfFuel fuel later snap parent
        (prepareNewHeader c hashSlow now parent signer) = .ok ms ∧
      attributes.timestamp = ms / 1000 ∧
      attributes.suggestedFeeRecipient = signer ∧
      attributes.prevRandao =
        if c.chainSpec.isLorentzActiveAtTimestamp (parent.number + 1) (ms / 1000) then
          b256OfUInt64 (ms % 1000)
        else .zero := by
  unfold prepareNewAttributes Parlia.prepareTimestamp at h
  simp only [bind_assoc, bind_eq_ok] at h
  obtain ⟨ms, htime, _, hheader, h⟩ := h
  rw [pure_eq, ok.injEq] at hheader h
  obtain ⟨rfl, -⟩ := Prod.mk.inj h
  subst hheader
  refine ⟨ms, htime, ?_, ?_, ?_⟩
  · dsimp only
    split <;> rfl
  · dsimp only
    split <;> rfl
  · show (if c.chainSpec.isLorentzActiveAtTimestamp (parent.number + 1) (ms / 1000) then _ else _
      : Header).mixHash = _
    split <;> rfl

/-- The two headers differ in the extra data at most. -/
def SameButExtra (h h' : Header) : Prop := h' = { h with extraData := h'.extraData }

namespace SameButExtra

theorem refl (h : Header) : SameButExtra h h := rfl

theorem of_update (h : Header) (extraData : Bytes) :
    SameButExtra h { h with extraData } := rfl

theorem trans {h h' h'' : Header} (hab : SameButExtra h h') (hbc : SameButExtra h' h'') :
    SameButExtra h h'' := by
  unfold SameButExtra at hab hbc ⊢
  rw [hbc, hab]

end SameButExtra

section Steps

variable {p : Parlia} {snap : Snapshot} {header header' : Header}

theorem Parlia.prepareValidators_sameButExtra {ε : Type}
    {validators : Option (List Address × List VoteAddress)}
    (h : (p.prepareValidators snap validators header : Outcome ε Header) = .ok header') :
    SameButExtra header header' := by
  unfold Parlia.prepareValidators at h
  split at h
  · cases h
    exact SameButExtra.refl _
  · cases validators with
    | none =>
      cases h
      exact SameButExtra.refl _
    | some validators =>
      dsimp only at h
      split at h
      · cases h
        exact SameButExtra.of_update _ _
      · obtain ⟨bytes, -, hbytes⟩ := bind_eq_ok.mp h
        cases hbytes
        exact SameButExtra.of_update _ _

theorem Parlia.prepareTurnLength_sameButExtra {cache : B256 → Option UInt8}
    (h : p.prepareTurnLength cache snap header = .ok header') : SameButExtra header header' := by
  unfold Parlia.prepareTurnLength at h
  split at h
  · cases h
    exact SameButExtra.refl _
  · obtain ⟨turnLength, -, hturn⟩ := bind_eq_ok.mp h
    cases hturn
    exact SameButExtra.of_update _ _

theorem Parlia.assembleVoteAttestation_sameButExtra {crypto : Crypto} {lookups : Lookups}
    {pool : VotePool} {parent : Header}
    (h : p.assembleVoteAttestation crypto lookups pool snap parent header = .ok header') :
    SameButExtra header header' := by
  unfold Parlia.assembleVoteAttestation at h
  split at h
  · cases h
    exact SameButExtra.refl _
  · obtain ⟨found, -, h⟩ := bind_eq_ok.mp h
    cases found with
    | none =>
      cases h
      exact SameButExtra.refl _
    | some target =>
      obtain ⟨attestation, -, h⟩ := bind_eq_ok.mp h
      cases attestation with
      | none =>
        cases h
        exact SameButExtra.refl _
      | some attestation =>
        cases h
        exact SameButExtra.of_update _ _

theorem sealExtraData_sameButExtra {state : MinerState} {chainId : UInt64}
    (h : sealExtraData state chainId header = .ok header') : SameButExtra header header' := by
  unfold sealExtraData at h
  obtain ⟨sealData, -, h⟩ := bind_eq_ok.mp h
  obtain ⟨extraData, -, h⟩ := bind_eq_ok.mp h
  cases h
  exact SameButExtra.of_update _ _

section Finalize

variable {c : BscEvmConfig} {crypto : Crypto} {lookups : Lookups} {state : MinerState}
  {parent : Header}

theorem prepareCachedValidators_sameButExtra
    (h : prepareCachedValidators c crypto state snap parent header = .ok header') :
    SameButExtra header header' := by
  unfold prepareCachedValidators at h
  split at h
  · exact Parlia.prepareValidators_sameButExtra h
  · cases h
    exact SameButExtra.refl _

theorem attestIfPossible_sameButExtra
    (h : attestIfPossible c crypto lookups state snap parent header = .ok header') :
    SameButExtra header header' := by
  unfold attestIfPossible at h
  split at h
  · next hok =>
    cases h
    exact Parlia.assembleVoteAttestation_sameButExtra hok
  · -- a failed attestation leaves the header as it was
    cases h
    exact SameButExtra.refl _
  · cases h

/-- **What sealing rewrites.** The finished header has the difficulty of the proposer's turn, new
extra data, and nothing else new. -/
theorem finalizeNewHeader_eq_ok
    (h : finalizeNewHeader c crypto lookups state snap parent header = .ok header') :
    ∃ difficulty, (calculateDifficulty snap header.beneficiary : Outcome SignerError Nat)
        = .ok difficulty ∧
      SameButExtra { header with difficulty } header' := by
  unfold finalizeNewHeader at h
  obtain ⟨difficulty, hdiff, h⟩ := bind_eq_ok.mp h
  obtain ⟨h₁, hvalidators, h⟩ := bind_eq_ok.mp h
  obtain ⟨h₂, hturn, h⟩ := bind_eq_ok.mp h
  obtain ⟨h₃, hvote, hseal⟩ := bind_eq_ok.mp h
  have hstart : SameButExtra { header with difficulty } (setDifficultyAndVanity header difficulty) :=
    SameButExtra.of_update _ _
  exact ⟨difficulty, hdiff, hstart.trans <|
    (prepareCachedValidators_sameButExtra hvalidators).trans <|
    (Parlia.prepareTurnLength_sameButExtra (mapErr_eq_ok.mp hturn)).trans <|
    (attestIfPossible_sameButExtra hvote).trans (sealExtraData_sameButExtra hseal)⟩

end Finalize

end Steps

end RethBsc
