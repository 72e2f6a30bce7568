import Mathlib.Order.Lattice
import RethBsc.Chain.Hardforks
import RethBsc.Chain.Header

/-!
# The fork choice rule

`BscForkChoiceRule` compares an incoming header with the current head.  From Plato on the higher
justified number wins; otherwise, or if the numbers are equal, the total difficulties and then the
headers themselves decide.  The last tie is broken by a random number, here the argument `coin`.
-/

namespace RethBsc

open Rust

/-- The errors of the fork choice; an error of the provider or of the engine is its text. -/
inductive ParliaConsensusErr where
  | provider (error : String)
  | headHashNotFound
  | forkChoiceUpdateError (error : String)
  | unknownTotalDifficulty (hash : B256) (number : UInt64)
  | internal (error : String)
  deriving DecidableEq

/-- A header with what the fork choice needs to know of it. -/
structure HeaderForForkchoice where
  header : Header
  td : Option Nat
  justifiedNum : UInt64

structure BscForkChoiceRule where
  spec : ChainSpec

namespace BscForkChoiceRule

variable (rule : BscForkChoiceRule) (hashSlow : Header → B256) (coin : Bool)
  (incoming current : HeaderForForkchoice)

/-- The decision by justified numbers, if they can decide. -/
def headChoiceWithFastFinality : Option Bool :=
  if !rule.spec.isPlatoActiveAtBlock incoming.header.number &&
      !rule.spec.isPlatoActiveAtBlock current.header.number then
    none
  else if incoming.justifiedNum ≠ current.justifiedNum then
    some (decide (incoming.justifiedNum > current.justifiedNum))
  else
    none

/-- The decision between two headers of one total difficulty. -/
def headChoiceAtEqualTd (incoming current : Header) : Bool :=
  if incoming.number < current.number then true
  else if incoming.number > current.number then false
  else if incoming.timestamp = current.timestamp then
    if incoming.beneficiary = current.beneficiary then
      decide (hashSlow incoming < hashSlow current)
    else coin
  else decide (incoming.timestamp < current.timestamp)

/-- The decision by total difficulties, which have to be known. -/
def headChoiceWithTd : Except ParliaConsensusErr Bool :=
  match current.td, incoming.td with
  | none, _ =>
    .error (.unknownTotalDifficulty (hashSlow current.header) current.header.number)
  | some _, none =>
    .error (.unknownTotalDifficulty (hashSlow incoming.header) incoming.header.number)
  | some currentTd, some incomingTd =>
    if incomingTd > currentTd then .ok true
    else if incomingTd < currentTd then .ok false
    else .ok (headChoiceAtEqualTd hashSlow coin incoming.header current.header)

def isNeedReorg : Except ParliaConsensusErr Bool :=
  match rule.headChoiceWithFastFinality incoming current with
  | some needReorg => .ok needReorg
  | none => headChoiceWithTd hashSlow coin incoming current

end BscForkChoiceRule

end RethBsc
