import RethBsc.Chain.Header

/-!
# Votes and errors of the consensus

`src/consensus/parlia/vote.rs` and `error.rs`: the data of a fast-finality vote, of the
attestation that aggregates votes, and the errors of the functions modelled here.
-/

namespace RethBsc

open Rust

abbrev VoteAddress := FixedBytes 48
abbrev VoteSignature := FixedBytes 96

def maxAttestationExtraLength : Nat := 256

/-- A vote's range: the justified source block and the target block to justify. -/
structure VoteData where
  sourceNumber : UInt64
  sourceHash : B256
  targetNumber : UInt64
  targetHash : B256
  deriving DecidableEq

/-- `VoteData::default()`. -/
instance : Inhabited VoteData := ⟨⟨0, .zero, 0, .zero⟩⟩

structure VoteEnvelope where
  voteAddress : VoteAddress
  signature : VoteSignature
  data : VoteData
  deriving DecidableEq, Inhabited

/-- The aggregated vote of a super-majority; bit `i` of `voteAddressSet` stands for the `i`-th
validator. -/
structure VoteAttestation where
  voteAddressSet : UInt64
  aggSignature : VoteSignature
  data : VoteData
  extra : Bytes
  deriving DecidableEq, Inhabited

def VoteAttestation.newWithVoteData (data : VoteData) : VoteAttestation :=
  ⟨0, .zero, data, []⟩

/-- The variants of `ParliaConsensusError` that the modelled functions return. -/
inductive ParliaConsensusError where
  | extraVanityMissing
  | extraSignatureMissing
  | invalidHeaderExtraLen (headerExtraLen : Nat)
  | invalidHeaderExtraValidatorBytesLen (isEpoch : Bool) (validatorBytesLen : Nat)
  | headerNotFound (blockHash : B256)
  | snapshotNotFound (blockHash : B256)
  | extraInvalidTurnLength
  | extraInvalidAttestation
  | fetchVoteError (address : VoteAddress)
  | aggregateSignatureError
  | invalidAttestationVoteCount (got expected : Nat)
  | turnLengthNotFound (blockHash : B256)
  | recoverECDSAInnerError
  deriving DecidableEq

/-- The `#[error]` texts. -/
def ParliaConsensusError.message : ParliaConsensusError → String
  | .extraVanityMissing => "missing header extra vanity"
  | .extraSignatureMissing => "missing header extra signature"
  | .invalidHeaderExtraLen n => "header extra length " ++ toString n ++ " is invalid"
  | .invalidHeaderExtraValidatorBytesLen _ n =>
    "header extra validator bytes length " ++ toString n ++ " is invalid"
  | .headerNotFound h => "header not found: " ++ h.toHex
  | .snapshotNotFound h => "snapshot not found: " ++ h.toHex
  | .extraInvalidTurnLength => "invalid turnLength"
  | .extraInvalidAttestation => "invalid attestation"
  | .fetchVoteError _ => "fetch vote error"
  | .aggregateSignatureError => "aggregate signature failed"
  | .invalidAttestationVoteCount _ _ => "invalid attestation vote count"
  | .turnLengthNotFound _ => "turn length not found"
  | .recoverECDSAInnerError => "recover ecdsa inner error"

end RethBsc
