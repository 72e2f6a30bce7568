import Mathlib.Data.List.Sort
import RethBsc.Chain.Hardforks

/-!
# The EVM spec of a block

`revm_spec_by_timestamp_and_block_number` of `src/node/evm/config.rs` picks the hardfork that the
EVM runs, and `src/hardforks/bsc.rs` maps it to a spec of `revm`.

* The forks of a block are asked for from the newest to the oldest.  Between Planck and Euler the
  order of Gibbs, Moran and Nano is that of their activation blocks in the chain spec.
* `specId_eq_prague`: from Lorentz on `revm` runs the rules of Prague.
-/

namespace RethBsc

/-! ## Specs of `revm` -/

/-- The specs that BSC forks are mapped to, and the ones the code compares with. -/
inductive SpecId where
  | muirGlacier | london | merge | shanghai | cancun | prague
  deriving DecidableEq

/-- The order of activation. -/
def SpecId.rank : SpecId → Nat
  | .muirGlacier => 9
  | .london => 12
  | .merge => 15
  | .shanghai => 16
  | .cancun => 17
  | .prague => 18

/-- `SpecId::is_enabled_in`, which is also `>=`. -/
def SpecId.isEnabledIn (s other : SpecId) : Bool := other.rank ≤ s.rank

/-- `SpecId::from`. -/
def BscHardfork.specId : BscHardfork → SpecId
  | .frontier | .ramanujan | .niels | .mirrorSync | .bruno | .euler | .gibbs | .nano | .moran
  | .planck | .luban | .plato => .muirGlacier
  | .hertz | .hertzFix => .london
  | .kepler | .feynman | .feynmanFix => .shanghai
  | .cancun | .haber | .haberFix | .bohr | .tycho => .cancun
  | .pascal | .lorentz | .maxwell | .fermi => .prague

/-! ## The fork of a block -/

namespace ChainSpec

variable (spec : ChainSpec)

/-- `get_activation_block`. -/
def activationBlock (fork : BscHardfork) : Option UInt64 :=
  match spec.bscForkActivation fork with
  | .block b => some b
  | _ => none

/-- Activation blocks as sort keys; a fork without one comes before all others. -/
def activationKey (fork : BscHardfork) : Nat :=
  match spec.activationBlock fork with
  | some b => b.toNat + 1
  | none => 0

/-- Gibbs, Moran and Nano, the one that is activated last first. -/
def dynamicForks : List BscHardfork :=
  [.gibbs, .moran, .nano].insertionSort fun a b => spec.activationKey b ≤ spec.activationKey a

def revmSpecByTimestampAndBlockNumber (timestamp blockNumber : UInt64) : BscHardfork :=
  if spec.isFermiActiveAtTimestamp blockNumber timestamp then .fermi
  else if spec.isMaxwellActiveAtTimestamp blockNumber timestamp then .maxwell
  else if spec.isLorentzActiveAtTimestamp blockNumber timestamp then .lorentz
  else if spec.isPascalActiveAtTimestamp blockNumber timestamp then .pascal
  else if spec.isBohrActiveAtTimestamp blockNumber timestamp then .bohr
  else if spec.isHaberFixActiveAtTimestamp blockNumber timestamp then .haberFix
  else if spec.isHaberActiveAtTimestamp blockNumber timestamp then .haber
  else if spec.isCancunActiveAtTimestamp blockNumber timestamp then .cancun
  else if spec.isFeynmanFixActiveAtTimestamp blockNumber timestamp then .feynmanFix
  else if spec.isFeynmanActiveAtTimestamp blockNumber timestamp then .feynman
  else if spec.isKeplerActiveAtTimestamp blockNumber timestamp then .kepler
  else if spec.isHertzFixActiveAtBlock blockNumber then .hertzFix
  else if spec.isHertzActiveAtBlock blockNumber then .hertz
  else if spec.isPlatoActiveAtBlock blockNumber then .plato
  else if spec.isLubanActiveAtBlock blockNumber then .luban
  else if spec.isPlanckActiveAtBlock blockNumber then .planck
  else
    match spec.dynamicForks.find? fun fork => spec.isActiveAtBlock fork blockNumber with
    | some fork => fork
    | none =>
      if spec.isEulerActiveAtBlock blockNumber then .euler
      else if spec.isBrunoActiveAtBlock blockNumber then .bruno
      else if spec.isMirrorSyncActiveAtBlock blockNumber then .mirrorSync
      else if spec.isNielsActiveAtBlock blockNumber then .niels
      else if spec.isRamanujanActiveAtBlock blockNumber then .ramanujan
      else .frontier

variable {spec} {timestamp blockNumber : UInt64}

/-- With Lorentz active the EVM runs Lorentz, Maxwell or Fermi. -/
theorem specId_eq_prague (h : spec.isLorentzActiveAtTimestamp blockNumber timestamp = true) :
    (spec.revmSpecByTimestampAndBlockNumber timestamp blockNumber).specId = .prague := by
  unfold revmSpecByTimestampAndBlockNumber
  -- the forks asked for after Lorentz are not reached
  simp only [h, if_true]
  split_ifs <;> rfl

end ChainSpec

end RethBsc
