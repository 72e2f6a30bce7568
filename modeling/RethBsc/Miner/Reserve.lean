import RethBsc.Miner.NewHeader
import RethBsc.Node.PostExecution

/-!
# What a miner keeps in reserve

Time and gas that the payload builders of `src/node/miner` leave for the end of a block:
`delay_for_mining` and `estimate_gas_reserved_for_system_txs` of
`src/consensus/parlia/consensus.rs`, `delay_for_ramanujan_fork` of `ramanujan_fork.rs`.
-/

namespace RethBsc

open Rust

def fixedBackoffTimeBeforeForkMillis : UInt64 := 200
def wiggleTimeBeforeForkMillis : UInt64 := 500
def systemTxsGasSoftLimit : UInt64 := 1000000
def systemTxsGasHardLimit : UInt64 := 20000000

/-- What a call reads outside the program: the clock in milliseconds, and a random number below a
bound. -/
structure ClockReading where
  present : UInt64
  randomBelow : UInt64 → UInt64

namespace Parlia

variable (p : Parlia)

/-- Milliseconds until the time of the header.  Before Ramanujan a validator out of turn waits a
little longer. -/
def delayForRamanujanFork (s : ClockReading) (parentSnap : Snapshot) (header : Header) : UInt64 :=
  let headerTimestamp := calculateMillisecondTimestamp header
  let delayMs := if headerTimestamp > s.present then headerTimestamp - s.present else 0
  if p.spec.isRamanujanActiveAtBlock header.number then delayMs
  else if header.difficulty = diffNoturn then
    let wiggle := UInt64.ofNat (parentSnap.validators.length / 2 + 1) * wiggleTimeBeforeForkMillis
    delayMs + (fixedBackoffTimeBeforeForkMillis + s.randomBelow wiggle)
  else delayMs

/-- The time left to fill a block, without `leftOverMs` and at most the block interval, in the last
block of a turn half of it. -/
def delayForMining (s : ClockReading) (snap : Snapshot) (header : Header) (leftOverMs : UInt64) :
    UInt64 :=
  let periodMs := snap.blockInterval
  let delayMs := p.delayForRamanujanFork s snap header
  let delayMs :=
    if leftOverMs ≥ periodMs then delayMs
    else if leftOverMs ≥ delayMs then 0
    else delayMs - leftOverMs
  let timeForMiningMs :=
    if snap.lastBlockInOneTurn header.number then periodMs / 2 else periodMs
  if delayMs > timeForMiningMs then timeForMiningMs else delayMs

/-- From Feynman on, and outside the blocks that update the validators, the system transactions
are cheap. -/
def estimateGasReservedForSystemTxs {ε : Type} (breatheBlockInterval : UInt64)
    (parentTimestamp : Option UInt64) (currentNumber currentTimestamp : UInt64) :
    Outcome ε UInt64 :=
  match parentTimestamp with
  | none => pure systemTxsGasHardLimit
  | some parentTimestamp =>
    if p.spec.isFeynmanActiveAtTimestamp currentNumber currentTimestamp &&
        !p.spec.isFeynmanTransitionAtTimestamp currentNumber currentTimestamp parentTimestamp
    then do
      let breathe ← isBreatheBlock breatheBlockInterval parentTimestamp currentTimestamp
      pure (if breathe then systemTxsGasHardLimit else systemTxsGasSoftLimit)
    else pure systemTxsGasHardLimit

end Parlia

end RethBsc
