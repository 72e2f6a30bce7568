import RethBsc.Parlia.Snapshot

/-!
# The extra data of a header

`src/consensus/parlia/consensus.rs`: vanity, validators, turn length, attestation and seal share
the `extra_data` field of a header, and several functions take it apart.

| bytes | before Luban | from Luban on |
| --- | --- | --- |
| vanity | 32 | 32 |
| epoch block | 20 for each validator | a count, 68 for each validator, from Bohr on a turn length |
| attestation | none | RLP |
| seal | 65 | 65 |

Each function decides on its own whether the block is an epoch block: `checkHeaderExtra` by the
forks of the header (`getEpochLength`), the others by an epoch length they are given.
-/

namespace RethBsc

open Rust

@[simp] abbrev extraVanityLen : Nat := 32
@[simp] abbrev extraSealLen : Nat := 65
@[simp] abbrev validatorNumberSize : Nat := 1
@[simp] abbrev validatorBytesLenBeforeLuban : Nat := 20
@[simp] abbrev validatorBytesLenAfterLuban : Nat := 68
@[simp] abbrev turnLengthSize : Nat := 1
@[simp] abbrev addressLength : Nat := 20

structure Parlia where
  spec : ChainSpec
  epoch : UInt64

/-- Every caller builds `Parlia` with an epoch of 200. -/
def Parlia.ofSpec (spec : ChainSpec) : Parlia := ⟨spec, 200⟩

structure ValidatorsInfo where
  consensusAddrs : List Address
  voteAddrs : Option (List VoteAddress)
  deriving DecidableEq

/-- The byte after the vanity: the number of validators in an epoch block since Luban.  The
callers have checked that the extra data is longer than vanity and seal. -/
def Header.validatorCount (h : Header) : Nat := (h.extraData.getD extraVanityLen 0).toNat

namespace Parlia

variable (p : Parlia) (h : Header)

def getEpochLength : UInt64 :=
  if p.spec.isMaxwellActiveAtTimestamp h.number h.timestamp then maxwellEpochLength
  else if p.spec.isLorentzActiveAtTimestamp h.number h.timestamp then lorentzEpochLength
  else p.epoch

def getValidatorBytesFromHeader (epochLength : UInt64) : Option Bytes :=
  let extraLen := h.extraData.length
  if extraLen ≤ extraVanityLen + extraSealLen then none
  else
    let isEpoch := isMultipleOf h.number epochLength
    if p.spec.isLubanActiveAtBlock h.number then
      if !isEpoch then none
      else
        let count := h.validatorCount
        let start := extraVanityLen + validatorNumberSize
        let stop := start + count * validatorBytesLenAfterLuban
        let extraMinLen := stop + extraSealLen +
          if p.spec.isBohrActiveAtTimestamp h.number h.timestamp then turnLengthSize else 0
        if count = 0 ∨ extraLen < extraMinLen then none
        else some ((h.extraData.take stop).drop start)
    else if isEpoch &&
        (extraLen - extraVanityLen - extraSealLen) % validatorBytesLenBeforeLuban != 0 then none
    else some ((h.extraData.take (extraLen - extraSealLen)).drop extraVanityLen)

def getTurnLengthFromHeader (epochLength : UInt64) : Except ParliaConsensusError (Option UInt8) :=
  if !isMultipleOf h.number epochLength ||
      !p.spec.isBohrActiveAtTimestamp h.number h.timestamp then .ok none
  else if h.extraData.length ≤ extraVanityLen + extraSealLen then
    .error (.invalidHeaderExtraLen h.extraData.length)
  else
    let pos := extraVanityLen + 1 + h.validatorCount * validatorBytesLenAfterLuban
    match h.extraData[pos]? with
    | none => .error .extraInvalidTurnLength
    | some turnLength => .ok (some turnLength)

/-- `decode` is the RLP decoder of `VoteAttestation`. -/
def getVoteAttestationFromHeader (decode : Bytes → Option VoteAttestation) (epochLength : UInt64) :
    Except ParliaConsensusError (Option VoteAttestation) :=
  let extraLen := h.extraData.length
  if extraLen ≤ extraVanityLen + extraSealLen then .ok none
  else if !p.spec.isLubanActiveAtBlock h.number then .ok none
  else
    let start :=
      if !isMultipleOf h.number epochLength then extraVanityLen
      else
        extraVanityLen + validatorNumberSize + h.validatorCount * validatorBytesLenAfterLuban +
          if p.spec.isBohrActiveAtTimestamp h.number h.timestamp then turnLengthSize else 0
    -- in an epoch block the validators can reach past the seal: there is no attestation then
    if extraLen - extraSealLen ≤ start then .ok none
    else
      match decode ((h.extraData.take (extraLen - extraSealLen)).drop start) with
      | some attestation => .ok (some attestation)
      | none => .error .extraInvalidAttestation

/-! ## Header checks -/

def getValidatorLenFromHeader : Except ParliaConsensusError Nat :=
  if !isMultipleOf h.number (p.getEpochLength h) then .ok 0
  else if !p.spec.isLubanActiveAtBlock h.number then
    .ok (h.extraData.length - extraVanityLen - extraSealLen)
  else .ok (h.validatorCount * validatorBytesLenAfterLuban)

def checkHeaderExtraLen : Except ParliaConsensusError Unit :=
  let extraLen := h.extraData.length
  if extraLen < extraVanityLen then .error .extraVanityMissing
  else if extraLen < extraVanityLen + extraSealLen then .error .extraSignatureMissing
  else if !isMultipleOf h.number (p.getEpochLength h) then .ok ()
  else if p.spec.isLubanActiveAtBlock h.number then
    let count := h.validatorCount
    let expect := extraVanityLen + validatorNumberSize + extraSealLen +
      count * validatorBytesLenAfterLuban
    if count = 0 ∨ extraLen < expect then .error (.invalidHeaderExtraLen extraLen) else .ok ()
  else
    let validatorBytesLen := extraLen - extraVanityLen - extraSealLen
    if validatorBytesLen / validatorBytesLenBeforeLuban = 0 ∨
        validatorBytesLen % validatorBytesLenBeforeLuban ≠ 0 then
      .error (.invalidHeaderExtraLen extraLen)
    else .ok ()

def checkHeaderExtra : Except ParliaConsensusError Unit := do
  p.checkHeaderExtraLen h
  let isEpoch := isMultipleOf h.number (p.getEpochLength h)
  let validatorBytesLen ← p.getValidatorLenFromHeader h
  if (!isEpoch && validatorBytesLen != 0) || (isEpoch && validatorBytesLen == 0) then
    .error (.invalidHeaderExtraValidatorBytesLen isEpoch validatorBytesLen)
  else .ok ()

/-! ## Parsing validators -/

/-- `Address::from_slice` and its like, on a part of a buffer. -/
def bytesAt {n : Nat} (bytes : Bytes) (start : Nat) : Outcome ParliaConsensusError (FixedBytes n) :=
  let part := (bytes.drop start).take n
  if hlen : part.length = n then .ok ⟨part, hlen⟩ else .panic

def parseValidatorsAfterLuban (validatorBytes : Bytes) :
    Outcome ParliaConsensusError ValidatorsInfo := do
  let count := validatorBytes.length / validatorBytesLenAfterLuban
  let pairs ← (List.range count).mapM fun i => do
    let consensusAddr ← bytesAt validatorBytes (i * validatorBytesLenAfterLuban)
    let voteAddr ← bytesAt validatorBytes (i * validatorBytesLenAfterLuban + addressLength)
    pure (consensusAddr, voteAddr)
  pure ⟨pairs.map Prod.fst, some (pairs.map Prod.snd)⟩

def parseValidatorsBeforeLuban (validatorBytes : Bytes) :
    Outcome ParliaConsensusError ValidatorsInfo := do
  let count := validatorBytes.length / validatorBytesLenBeforeLuban
  let addrs ← (List.range count).mapM fun i =>
    bytesAt validatorBytes (i * validatorBytesLenBeforeLuban)
  pure ⟨addrs, none⟩

def parseValidatorsFromHeader (epochLength : UInt64) :
    Outcome ParliaConsensusError ValidatorsInfo := do
  let valBytes ← Outcome.okOr (.invalidHeaderExtraLen h.extraData.length)
    (p.getValidatorBytesFromHeader h epochLength)
  if valBytes = [] then .err (.invalidHeaderExtraValidatorBytesLen true 0)
  else if p.spec.isLubanActiveAtBlock h.number then parseValidatorsAfterLuban valBytes
  else parseValidatorsBeforeLuban valBytes

end Parlia

end RethBsc
