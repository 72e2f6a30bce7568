import RethBsc.Parlia.ExtraData
import RethBsc.Parlia.GoRng

/-!
# Back-off times and block times

`back_off_time` of `src/consensus/parlia/consensus.rs` and `src/consensus/parlia/ramanujan_fork.rs`.
The in-turn validator proposes at once; the others wait for a time that a shuffle seeded by the
block number gives them.  `blockTimeVerifyForRamanujanFork` checks that a block kept to it.

The shuffle draws random numbers in loops without a bound, so these functions take fuel;
`outOfFuel` is the value they fail with when it does not suffice.
-/

namespace RethBsc

open Rust

def backoffTimeOfInitial : UInt64 := 1000
def lorentzBackoffTimeOfInitial : UInt64 := 2000
def backoffTimeOfWiggle : UInt64 := 1000
def millisecondsUnit : UInt64 := 50

namespace Parlia

variable {ε : Type} (p : Parlia)

/-- The validators that take part in the shuffle, and the initial delay.  From Planck on, recent
proposers are left out, from Bohr on also the in-turn validator. -/
def backOffCandidates (snap : Snapshot) (header : Header) (delay : UInt64) :
    Outcome ε (UInt64 × List Address) :=
  if p.spec.isPlanckActiveAtBlock header.number then do
    let counts := snap.countRecentProposers
    let inturnAddr ← snap.inturnValidator
    let isBohr := p.spec.isBohrActiveAtTimestamp header.number header.timestamp
    pure (if snap.signRecentlyByCounts inturnAddr counts then 0 else delay,
      snap.validators.filter fun addr =>
        !(snap.signRecentlyByCounts addr counts || (isBohr && addr == inturnAddr)))
  else pure (delay, snap.validators)

/-- From Bohr on the seed is the same during a turn. -/
def backOffSeed (snap : Snapshot) (header : Header) : Outcome ε Int64 :=
  if p.spec.isBohrActiveAtTimestamp header.number header.timestamp then
    let turnLength := snap.turnLength.getD defaultTurnLength
    if turnLength = 0 then .panic
    else .ok (header.number.toInt64 / Int64.ofNat turnLength.toNat)
  else .ok snap.blockNumber.toInt64

/-- The waiting time for a shuffled step. -/
def backOffOfStep (isParentLorentz : Bool) (delay step : UInt64) : UInt64 :=
  -- if the in-turn validator has signed recently, the expected times are 0, 2, 3, ...
  if delay = 0 ∧ isParentLorentz then
    if step = 0 then 0 else lorentzBackoffTimeOfInitial + (step - 1) * backoffTimeOfWiggle
  else delay + step * backoffTimeOfWiggle

/-- The back-off time of the header's proposer in milliseconds, 0 if it is in turn. -/
def backOffTime (outOfFuel : ε) (fuel : Nat) (snap : Snapshot) (parent header : Header) :
    Outcome ε UInt64 := do
  let validator := header.beneficiary
  if ← snap.isInturn validator then pure 0
  else if p.spec.isPlanckActiveAtBlock header.number &&
      snap.signRecentlyByCounts validator snap.countRecentProposers then pure 0
  else
    let isParentLorentz := p.spec.isLorentzActiveAtTimestamp parent.number parent.timestamp
    let (delay, validators) ← p.backOffCandidates snap header
      (if isParentLorentz then lorentzBackoffTimeOfInitial else backoffTimeOfInitial)
    let seed ← p.backOffSeed snap header
    let backOffSteps ← (GoRng.shuffle fuel (GoRng.RngSource.new seed)
      ((List.range validators.length).map UInt64.ofNat)).mapErr fun _ => outOfFuel
    match validators.findIdx? (· == validator) with
    | some idx =>
      let step ← Outcome.unwrap backOffSteps[idx]?
      pure (backOffOfStep isParentLorentz delay step)
    | none => pure 0

/-- The block time, in milliseconds, that a producer aims at when its clock shows `now`. -/
def blockTimeForRamanujanFork (outOfFuel : ε) (fuel : Nat) (now : UInt64) (snap : Snapshot)
    (parent header : Header) : Outcome ε UInt64 := do
  let newBlockTs := calculateMillisecondTimestamp parent + snap.blockInterval
  let newBlockTs ←
    if p.spec.isRamanujanActiveAtBlock header.number then do
      let backOff ← p.backOffTime outOfFuel fuel snap parent header
      pure (newBlockTs + backOff)
    else pure newBlockTs
  -- `u64::div_ceil`
  let rounded := now / millisecondsUnit + if now % millisecondsUnit = 0 then 0 else 1
  pure (if newBlockTs < now then rounded * millisecondsUnit else newBlockTs)

inductive BlockTimeError where
  | futureBlock (blockNumber : UInt64) (hash : B256)
  | outOfFuel
  deriving DecidableEq

/-- `hashSlow` is the header hash. -/
def blockTimeVerifyForRamanujanFork (hashSlow : Header → B256) (fuel : Nat) (snap : Snapshot)
    (header parent : Header) : Outcome BlockTimeError Unit := do
  if p.spec.isRamanujanActiveAtBlock header.number then
    let currentTs := calculateMillisecondTimestamp header
    let parentTs := calculateMillisecondTimestamp parent
    let backOff ← p.backOffTime .outOfFuel fuel snap parent header
    if currentTs < parentTs + snap.blockInterval + backOff then
      .err (.futureBlock header.number (hashSlow header))
    else pure ()
  else pure ()

end Parlia

end RethBsc
