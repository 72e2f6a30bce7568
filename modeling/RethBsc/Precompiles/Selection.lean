import RethBsc.Chain.Header
import RethBsc.Evm.Spec
import RethBsc.Rust.Map

/-!
# The precompiles of a block

`src/evm/precompiles/mod.rs`: each fork has a table of precompiles, which extends the table of an
earlier fork, and `BscPrecompiles::new` picks the table by the order in which the forks are
declared.  Gibbs is declared after Moran and Nano; on a chain that activates it before them the
order of declaration is not the order of activation.

* `istanbul_ne_nano`, `istanbul_ne_moran` and `nano_ne_moran`: the tables before Planck differ at
  address 101.
* `revmSpec_of_moran`, `revmSpec_of_gibbs`, `revmSpec_of_nano` and `revmSpec_of_none`: the fork of a
  block before Planck, by the activation blocks.
* `precompiles_follow_forks_iff`: when the table is that of the forks that are active.
-/

namespace RethBsc

open Rust

/-- `derive(PartialOrd)`: the order of declaration. -/
def BscHardfork.isAtLeast (fork other : BscHardfork) : Bool := other.ctorIdx ≤ fork.ctorIdx

/-! ## Tables -/

/-- What runs at an address: a function of this repository, or one of `revm`. -/
inductive PrecompileFn (φ : Type) where
  | tendermintHeaderValidationRun
  | tendermintHeaderValidationRunNano
  | iavlProofValidationRun
  | iavlProofValidationRunNano
  | iavlProofValidationRunMoran
  | iavlProofValidationRunPlanck
  | iavlProofValidationRunPlato
  | blsSignatureValidationRun
  | cometbftLightBlockValidationRun
  | cometbftLightBlockValidationRunBeforeHertz
  | doubleSignEvidenceValidationRun
  | tmSecp256k1SignatureRecoverRun
  | revm (f : φ)
  deriving DecidableEq

structure Precompile (φ : Type) where
  address : Address
  run : PrecompileFn φ

/-- The address that ends in the eight bytes of `x`. -/
def u64ToAddress (x : UInt64) : Address := ⟨List.replicate 12 0 ++ toBeBytes x, by simp⟩

section Constants

variable {φ : Type}

def tendermintHeaderValidation : Precompile φ := ⟨u64ToAddress 100, .tendermintHeaderValidationRun⟩
def tendermintHeaderValidationNano : Precompile φ :=
  ⟨u64ToAddress 100, .tendermintHeaderValidationRunNano⟩
def iavlProofValidation : Precompile φ := ⟨u64ToAddress 101, .iavlProofValidationRun⟩
def iavlProofValidationNano : Precompile φ := ⟨u64ToAddress 101, .iavlProofValidationRunNano⟩
def iavlProofValidationMoran : Precompile φ := ⟨u64ToAddress 101, .iavlProofValidationRunMoran⟩
def iavlProofValidationPlanck : Precompile φ := ⟨u64ToAddress 101, .iavlProofValidationRunPlanck⟩
def iavlProofValidationPlato : Precompile φ := ⟨u64ToAddress 101, .iavlProofValidationRunPlato⟩
def blsSignatureValidation : Precompile φ := ⟨u64ToAddress 102, .blsSignatureValidationRun⟩
def cometbftLightBlockValidation : Precompile φ :=
  ⟨u64ToAddress 103, .cometbftLightBlockValidationRun⟩
def cometbftLightBlockValidationBeforeHertz : Precompile φ :=
  ⟨u64ToAddress 103, .cometbftLightBlockValidationRunBeforeHertz⟩
def doubleSignEvidenceValidation : Precompile φ :=
  ⟨u64ToAddress 104, .doubleSignEvidenceValidationRun⟩
def tmSecp256k1SignatureRecover : Precompile φ :=
  ⟨u64ToAddress 105, .tmSecp256k1SignatureRecoverRun⟩

end Constants

abbrev Precompiles (φ : Type) := Map Address (PrecompileFn φ)

/-- `Precompiles::extend`: an address that is there already gets the new function. -/
def Precompiles.extend {φ : Type} (table : Precompiles φ) (precompiles : List (Precompile φ)) :
    Precompiles φ :=
  Map.insertAll Precompile.address Precompile.run precompiles table

/-- The tables and precompiles of `revm`. -/
structure RevmPrecompiles (φ : Type) where
  istanbul : Precompiles φ
  modexpBerlin : Precompile φ
  pointEvaluation : Precompile φ
  p256Verify : Precompile φ
  bls12381 : List (Precompile φ)

namespace RevmPrecompiles

variable {φ : Type} (revm : RevmPrecompiles φ)

/-- `istanbul()` of this repository. -/
def bscIstanbul : Precompiles φ :=
  Precompiles.extend revm.istanbul [tendermintHeaderValidation, iavlProofValidation]

def nano : Precompiles φ :=
  Precompiles.extend revm.bscIstanbul [tendermintHeaderValidationNano, iavlProofValidationNano]

def moran : Precompiles φ :=
  Precompiles.extend revm.bscIstanbul [tendermintHeaderValidation, iavlProofValidationMoran]

def planck : Precompiles φ :=
  Precompiles.extend revm.bscIstanbul [tendermintHeaderValidation, iavlProofValidationPlanck]

def luban : Precompiles φ :=
  Precompiles.extend revm.planck
    [blsSignatureValidation, cometbftLightBlockValidationBeforeHertz]

def plato : Precompiles φ := Precompiles.extend revm.luban [iavlProofValidationPlato]

def hertz : Precompiles φ :=
  Precompiles.extend revm.plato [cometbftLightBlockValidation, revm.modexpBerlin]

def feynman : Precompiles φ :=
  Precompiles.extend revm.hertz [doubleSignEvidenceValidation, tmSecp256k1SignatureRecover]

def cancun : Precompiles φ := Precompiles.extend revm.feynman [revm.pointEvaluation]

def haber : Precompiles φ := Precompiles.extend revm.cancun [revm.p256Verify]

def pascal : Precompiles φ := Precompiles.extend revm.haber revm.bls12381

end RevmPrecompiles

structure BscPrecompiles (φ : Type) where
  precompiles : Precompiles φ
  spec : SpecId

def BscPrecompiles.new {φ : Type} (revm : RevmPrecompiles φ) (spec : BscHardfork) :
    BscPrecompiles φ where
  precompiles :=
    if spec.isAtLeast .pascal then revm.pascal
    else if spec.isAtLeast .haber then revm.haber
    else if spec.isAtLeast .cancun then revm.cancun
    else if spec.isAtLeast .feynman then revm.feynman
    else if spec.isAtLeast .hertz then revm.hertz
    else if spec.isAtLeast .plato then revm.plato
    else if spec.isAtLeast .luban then revm.luban
    else if spec.isAtLeast .planck then revm.planck
    else if spec.isAtLeast .moran then revm.moran
    else if spec.isAtLeast .nano then revm.nano
    else revm.bscIstanbul
  spec := spec.specId

/-! ## The tables before Planck -/

section Tables

variable {φ : Type} (revm : RevmPrecompiles φ)

theorem lookup_extend {table : Precompiles φ} {precompiles : List (Precompile φ)}
    (haddresses : (precompiles.map Precompile.address).Nodup) {p : Precompile φ}
    (hp : p ∈ precompiles) : (Precompiles.extend table precompiles).lookup p.address = some p.run :=
  Map.lookup_insertAll haddresses hp

/-- What stands at address 101 after an extension by a Tendermint and an IAVL precompile. -/
theorem lookup_iavl (table : Precompiles φ) {first second : Precompile φ}
    (hfirst : first.address = u64ToAddress 100) (hsecond : second.address = u64ToAddress 101) :
    (Precompiles.extend table [first, second]).lookup (u64ToAddress 101) = some second.run := by
  rw [← hsecond]
  refine lookup_extend ?_ (List.mem_cons_of_mem _ List.mem_cons_self)
  simp only [List.map_cons, List.map_nil, hfirst, hsecond]
  decide

theorem lookup_bscIstanbul :
    revm.bscIstanbul.lookup (u64ToAddress 101) = some .iavlProofValidationRun :=
  lookup_iavl _ rfl rfl

theorem lookup_nano : revm.nano.lookup (u64ToAddress 101) = some .iavlProofValidationRunNano :=
  lookup_iavl _ rfl rfl

theorem lookup_moran : revm.moran.lookup (u64ToAddress 101) = some .iavlProofValidationRunMoran :=
  lookup_iavl _ rfl rfl

theorem istanbul_ne_nano : revm.bscIstanbul ≠ revm.nano := by
  intro h
  have hlookup := lookup_bscIstanbul revm
  rw [h, lookup_nano] at hlookup
  simp at hlookup

theorem istanbul_ne_moran : revm.bscIstanbul ≠ revm.moran := by
  intro h
  have hlookup := lookup_bscIstanbul revm
  rw [h, lookup_moran] at hlookup
  simp at hlookup

theorem nano_ne_moran : revm.nano ≠ revm.moran := by
  intro h
  have hlookup := lookup_nano revm
  rw [h, lookup_moran] at hlookup
  simp at hlookup

end Tables

/-! ## The fork of a block before Planck -/

namespace ChainSpec

/-- Planck and the forks declared after it are not active, by number or by time. -/
def BeforePlanck (spec : ChainSpec) (timestamp number : UInt64) : Prop :=
  ∀ fork : BscHardfork, fork.isAtLeast .planck = true →
    spec.isActiveAtBlock fork number = false ∧ spec.isActiveAtTimestamp fork number timestamp = false

/-- Gibbs, Nano and Moran have activation blocks, and Nano is activated no later than Moran. -/
structure DynamicBlocks (spec : ChainSpec) (gibbs nano moran : UInt64) : Prop where
  atGibbs : spec.bscForkActivation .gibbs = .block gibbs
  atNano : spec.bscForkActivation .nano = .block nano
  atMoran : spec.bscForkActivation .moran = .block moran
  nano_le_moran : nano ≤ moran

variable {spec : ChainSpec} {timestamp number gibbs nano moran : UInt64}

/-- Only the activation blocks of Gibbs, Moran and Nano are left to decide; without them the fork
is an older one. -/
theorem BeforePlanck.exists_revmSpec_eq (h : spec.BeforePlanck timestamp number) :
    ∃ older : BscHardfork, older.isAtLeast .nano = false ∧
      spec.revmSpecByTimestampAndBlockNumber timestamp number
        = (spec.dynamicForks.find? fun fork => spec.isActiveAtBlock fork number).getD older := by
  unfold revmSpecByTimestampAndBlockNumber
  simp only [isFermiActiveAtTimestamp, isMaxwellActiveAtTimestamp, isLorentzActiveAtTimestamp,
    isPascalActiveAtTimestamp, isBohrActiveAtTimestamp, isHaberFixActiveAtTimestamp,
    isHaberActiveAtTimestamp, isCancunActiveAtTimestamp, isFeynmanFixActiveAtTimestamp,
    isFeynmanActiveAtTimestamp, isKeplerActiveAtTimestamp, isHertzFixActiveAtBlock,
    isHertzActiveAtBlock, isPlatoActiveAtBlock, isLubanActiveAtBlock, isPlanckActiveAtBlock,
    (h .fermi rfl).2, (h .maxwell rfl).2, (h .lorentz rfl).2, (h .pascal rfl).2, (h .bohr rfl).2,
    (h .haberFix rfl).2, (h .haber rfl).2, (h .cancun rfl).2, (h .feynmanFix rfl).2,
    (h .feynman rfl).2, (h .kepler rfl).2, (h .hertzFix rfl).1, (h .hertz rfl).1, (h .plato rfl).1,
    (h .luban rfl).1, (h .planck rfl).1, Bool.false_eq_true, if_false]
  cases spec.dynamicForks.find? fun fork => spec.isActiveAtBlock fork number with
  | some fork => exact ⟨.frontier, rfl, rfl⟩
  | none =>
    dsimp only
    split_ifs
    · exact ⟨.euler, rfl, rfl⟩
    · exact ⟨.bruno, rfl, rfl⟩
    · exact ⟨.mirrorSync, rfl, rfl⟩
    · exact ⟨.niels, rfl, rfl⟩
    · exact ⟨.ramanujan, rfl, rfl⟩
    · exact ⟨.frontier, rfl, rfl⟩

/-- The three forks, the last one activated first; of two at one block Gibbs comes first, then
Moran. -/
theorem DynamicBlocks.dynamicForks_eq (h : DynamicBlocks spec gibbs nano moran) :
    spec.dynamicForks = if moran ≤ gibbs then [.gibbs, .moran, .nano]
      else if nano ≤ gibbs then [.moran, .gibbs, .nano]
      else [.moran, .nano, .gibbs] := by
  have hgibbs : spec.activationKey .gibbs = gibbs.toNat + 1 := by
    simp [activationKey, activationBlock, h.atGibbs]
  have hnano : spec.activationKey .nano = nano.toNat + 1 := by
    simp [activationKey, activationBlock, h.atNano]
  have hmoran : spec.activationKey .moran = moran.toNat + 1 := by
    simp [activationKey, activationBlock, h.atMoran]
  have hle : nano.toNat ≤ moran.toNat := UInt64.le_iff_toNat_le.mp h.nano_le_moran
  unfold dynamicForks
  simp only [List.insertionSort_cons, List.insertionSort_nil, List.orderedInsert_nil,
    List.orderedInsert_cons, hgibbs, hnano, hmoran, Nat.add_le_add_iff_right, hle, if_true,
    UInt64.le_iff_toNat_le]
  split_ifs
  · rfl
  · rfl
  · rfl

theorem DynamicBlocks.isActive_iff (h : DynamicBlocks spec gibbs nano moran) :
    (spec.isActiveAtBlock .gibbs number = true ↔ gibbs ≤ number) ∧
      (spec.isActiveAtBlock .nano number = true ↔ nano ≤ number) ∧
      (spec.isActiveAtBlock .moran number = true ↔ moran ≤ number) := by
  simp [isActiveAtBlock, ForkCondition.activeAtBlock, h.atGibbs, h.atNano, h.atMoran]

section Fork

variable (hbefore : spec.BeforePlanck timestamp number) (h : DynamicBlocks spec gibbs nano moran)
include hbefore h

/-- With Moran active the fork is Gibbs or Moran. -/
theorem revmSpec_of_moran (hmoran : moran ≤ number) :
    spec.revmSpecByTimestampAndBlockNumber timestamp number = .gibbs ∨
      spec.revmSpecByTimestampAndBlockNumber timestamp number = .moran := by
  obtain ⟨older, -, hspec⟩ := hbefore.exists_revmSpec_eq
  have hactive := h.isActive_iff.2.2.mpr hmoran
  rw [hspec, h.dynamicForks_eq]
  split_ifs
  · -- Gibbs is asked for first
    cases hgibbs : spec.isActiveAtBlock .gibbs number with
    | true => exact .inl (by simp [hgibbs])
    | false => exact .inr (by simp [hgibbs, hactive])
  · exact .inr (by simp [hactive])
  · exact .inr (by simp [hactive])

/-- Gibbs hides Nano if it was activated at the same block or later. -/
theorem revmSpec_of_gibbs (hmoran : ¬ moran ≤ number) (hgibbs : gibbs ≤ number)
    (hnano : number < nano ∨ nano ≤ gibbs) :
    spec.revmSpecByTimestampAndBlockNumber timestamp number = .gibbs := by
  obtain ⟨older, -, hspec⟩ := hbefore.exists_revmSpec_eq
  have hinactive : spec.isActiveAtBlock .moran number = false :=
    Bool.eq_false_iff.mpr fun hactive => hmoran (h.isActive_iff.2.2.mp hactive)
  have hactive := h.isActive_iff.1.mpr hgibbs
  rw [hspec, h.dynamicForks_eq]
  split_ifs with hle hle'
  · simp [hactive]
  · simp [hactive, hinactive]
  · have hnanoInactive : spec.isActiveAtBlock .nano number = false := by
      refine Bool.eq_false_iff.mpr fun hactive => ?_
      rcases hnano with hlt | hle
      · exact UInt64.not_le.mpr hlt (h.isActive_iff.2.1.mp hactive)
      · exact hle' hle
    simp [hactive, hinactive, hnanoInactive]

theorem revmSpec_of_nano (hmoran : ¬ moran ≤ number) (hnano : nano ≤ number)
    (hgibbs : number < gibbs ∨ gibbs < nano) :
    spec.revmSpecByTimestampAndBlockNumber timestamp number = .nano := by
  obtain ⟨older, -, hspec⟩ := hbefore.exists_revmSpec_eq
  have hinactive : spec.isActiveAtBlock .moran number = false :=
    Bool.eq_false_iff.mpr fun hactive => hmoran (h.isActive_iff.2.2.mp hactive)
  have hactive := h.isActive_iff.2.1.mpr hnano
  have hgibbsInactive : nano ≤ gibbs → spec.isActiveAtBlock .gibbs number = false := by
    intro hle
    refine Bool.eq_false_iff.mpr fun hactive => ?_
    rcases hgibbs with hlt | hlt
    · exact UInt64.not_le.mpr hlt (h.isActive_iff.1.mp hactive)
    · exact UInt64.not_le.mpr hlt hle
  rw [hspec, h.dynamicForks_eq]
  grind

theorem revmSpec_of_none (hmoran : ¬ moran ≤ number) (hnano : ¬ nano ≤ number)
    (hgibbs : ¬ gibbs ≤ number) :
    (spec.revmSpecByTimestampAndBlockNumber timestamp number).isAtLeast .nano = false := by
  obtain ⟨older, holder, hspec⟩ := hbefore.exists_revmSpec_eq
  have hnone : (spec.dynamicForks.find? fun fork => spec.isActiveAtBlock fork number) = none := by
    rw [h.dynamicForks_eq]
    split_ifs <;> simp [h.isActive_iff, hmoran, hnano, hgibbs]
  rwa [hspec, hnone]

end Fork

end ChainSpec

/-! ## The table of a block before Planck -/

theorem new_precompiles_of_older {φ : Type} (revm : RevmPrecompiles φ) {fork : BscHardfork}
    (h : fork.isAtLeast .nano = false) :
    (BscPrecompiles.new revm fork).precompiles = revm.bscIstanbul := by
  cases fork <;> first | rfl | exact absurd h (by decide)

/-- The table is `moran()` exactly with Moran active, `nano()` exactly with Nano and without Moran,
and `istanbul()` otherwise. -/
structure FollowsForks {φ : Type} (revm : RevmPrecompiles φ) (spec : ChainSpec) (number : UInt64)
    (table : Precompiles φ) : Prop where
  moran : table = revm.moran ↔ spec.isMoranActiveAtBlock number = true
  nano : table = revm.nano ↔
    spec.isNanoActiveAtBlock number = true ∧ spec.isMoranActiveAtBlock number = false
  istanbul : table = revm.bscIstanbul ↔
    spec.isNanoActiveAtBlock number = false ∧ spec.isMoranActiveAtBlock number = false

section FollowsForks

variable {φ : Type} {revm : RevmPrecompiles φ} {spec : ChainSpec}
  {timestamp number gibbs nano moran : UInt64}

/-- With the table of Moran, the forks are followed when Moran is active. -/
theorem followsForks_moran_iff :
    FollowsForks revm spec number revm.moran ↔ spec.isMoranActiveAtBlock number = true := by
  refine ⟨fun h => h.moran.mp rfl, fun hmoran => ⟨by simp [hmoran], ?_, ?_⟩⟩
  · simp [hmoran, (nano_ne_moran revm).symm]
  · simp [hmoran, (istanbul_ne_moran revm).symm]

theorem followsForks_nano (hnano : spec.isNanoActiveAtBlock number = true)
    (hmoran : spec.isMoranActiveAtBlock number = false) : FollowsForks revm spec number revm.nano := by
  refine ⟨?_, by simp [hnano, hmoran], ?_⟩
  · simp [hmoran, nano_ne_moran revm]
  · simp [hnano, (istanbul_ne_nano revm).symm]

theorem followsForks_istanbul (hnano : spec.isNanoActiveAtBlock number = false)
    (hmoran : spec.isMoranActiveAtBlock number = false) :
    FollowsForks revm spec number revm.bscIstanbul := by
  refine ⟨?_, ?_, by simp [hnano, hmoran]⟩
  · simp [hmoran, istanbul_ne_moran revm]
  · simp [hnano, istanbul_ne_nano revm]

/-- **When the precompiles are those of the active forks.**  Before Planck they are, unless Gibbs is
active without Moran and hides Nano, or comes without it. -/
theorem precompiles_follow_forks_iff (revm : RevmPrecompiles φ) (spec : ChainSpec)
    (timestamp number gibbs nano moran : UInt64) (hbefore : spec.BeforePlanck timestamp number)
    (hblocks : spec.DynamicBlocks gibbs nano moran) :
    FollowsForks revm spec number
        (BscPrecompiles.new revm (spec.revmSpecByTimestampAndBlockNumber timestamp number)).precompiles ↔
      (gibbs ≤ number → moran ≤ number ∨ nano ≤ number ∧ gibbs < nano) := by
  have hmoranIff : spec.isMoranActiveAtBlock number = true ↔ moran ≤ number :=
    hblocks.isActive_iff.2.2
  have hnanoIff : spec.isNanoActiveAtBlock number = true ↔ nano ≤ number := hblocks.isActive_iff.2.1
  by_cases hmoran : moran ≤ number
  · -- Gibbs and Moran share the table of Moran
    have htable : (BscPrecompiles.new revm
        (spec.revmSpecByTimestampAndBlockNumber timestamp number)).precompiles = revm.moran := by
      rcases ChainSpec.revmSpec_of_moran hbefore hblocks hmoran with hspec | hspec
      · rw [hspec]
        rfl
      · rw [hspec]
        rfl
    rw [htable, followsForks_moran_iff, hmoranIff]
    exact iff_of_true hmoran fun _ => .inl hmoran
  · have hmoranInactive : spec.isMoranActiveAtBlock number = false :=
      Bool.eq_false_iff.mpr fun hactive => hmoran (hmoranIff.mp hactive)
    by_cases hgibbs : gibbs ≤ number
    · by_cases hnano : nano ≤ number ∧ gibbs < nano
      · rw [ChainSpec.revmSpec_of_nano hbefore hblocks hmoran hnano.1 (.inr hnano.2)]
        exact iff_of_true (followsForks_nano (hnanoIff.mpr hnano.1) hmoranInactive) fun _ => .inr hnano
      · -- Gibbs is the newest active fork, and it stands for Moran
        have hhidden : number < nano ∨ nano ≤ gibbs := by
          rwa [not_and_or, UInt64.not_le, UInt64.not_lt] at hnano
        rw [ChainSpec.revmSpec_of_gibbs hbefore hblocks hmoran hgibbs hhidden]
        refine iff_of_false (fun hfollows => hmoran ?_) fun h => ?_
        · exact hmoranIff.mp (followsForks_moran_iff.mp hfollows)
        · exact (h hgibbs).elim hmoran hnano
    · refine iff_of_true ?_ fun h => absurd h hgibbs
      by_cases hnano : nano ≤ number
      · rw [ChainSpec.revmSpec_of_nano hbefore hblocks hmoran hnano (.inl (UInt64.not_le.mp hgibbs))]
        exact followsForks_nano (hnanoIff.mpr hnano) hmoranInactive
      · rw [new_precompiles_of_older revm
          (ChainSpec.revmSpec_of_none hbefore hblocks hmoran hnano hgibbs)]
        refine followsForks_istanbul (Bool.eq_false_iff.mpr fun hactive => ?_) hmoranInactive
        exact hnano (hnanoIff.mp hactive)

/-! ### The test net -/

/-- The activation blocks of the test net, of the forks that matter before Planck. -/
def chapelSpec : ChainSpec where
  bscForkActivation
    | .euler => .block 19203503
    | .gibbs => .block 22800220
    | .nano => .block 23482428
    | .moran => .block 23603940
    | .planck => .block 28196022
    | _ => .never
  ethereumForkActivation _ := .never

theorem chapelSpec_blocks : chapelSpec.DynamicBlocks 22800220 23482428 23603940 :=
  ⟨rfl, rfl, rfl, by decide⟩

theorem chapelSpec_beforePlanck {number : UInt64} (hnumber : number < 28196022)
    (timestamp : UInt64) : chapelSpec.BeforePlanck timestamp number := by
  intro fork hfork
  refine ⟨?_, ?_⟩
  · cases fork <;> first
      | rfl
      | exact absurd hfork (by decide)
      | exact decide_eq_false (UInt64.not_le.mpr hnumber)
  · cases fork <;> rfl

/-- A `revm` with the precompiles that BSC adds by name, and no others. -/
def bareRevm : RevmPrecompiles Nat where
  istanbul := ∅
  modexpBerlin := ⟨u64ToAddress 5, .revm 5⟩
  pointEvaluation := ⟨u64ToAddress 10, .revm 10⟩
  p256Verify := ⟨u64ToAddress 256, .revm 256⟩
  bls12381 := []

/-- Between Gibbs and Nano the test net runs the precompiles of Moran, which is not active. -/
theorem chapel_runs_moran_early :
    (BscPrecompiles.new bareRevm
        (chapelSpec.revmSpecByTimestampAndBlockNumber 0 23000000)).precompiles = bareRevm.moran ∧
      chapelSpec.isMoranActiveAtBlock 23000000 = false ∧
      chapelSpec.isNanoActiveAtBlock 23000000 = false ∧
      bareRevm.moran ≠ bareRevm.bscIstanbul := by
  have hspec : chapelSpec.revmSpecByTimestampAndBlockNumber 0 23000000 = .gibbs := by decide +kernel
  rw [hspec]
  exact ⟨rfl, rfl, rfl, (istanbul_ne_moran bareRevm).symm⟩

/-- From Nano on it runs the precompiles of its forks. -/
theorem chapel_follows_nano :
    FollowsForks bareRevm chapelSpec 23500000 (BscPrecompiles.new bareRevm
      (chapelSpec.revmSpecByTimestampAndBlockNumber 0 23500000)).precompiles :=
  (precompiles_follow_forks_iff bareRevm chapelSpec 0 23500000 22800220 23482428 23603940
    (chapelSpec_beforePlanck (by decide) 0) chapelSpec_blocks).mpr
    fun _ => .inr ⟨by decide, by decide⟩

end FollowsForks

end RethBsc
