import Mathlib.Order.Basic
import RethBsc.Rust.Bytes

/-!
# Hardfork schedules

`src/hardforks/mod.rs` and `src/hardforks/bsc.rs`.  A chain spec gives every fork a
`ForkCondition`; the code asks for a fork by block number, or by block number and timestamp.

* The timestamp predicates of `BscHardforks` are one family: London is active at the block, and
  the fork's timestamp is reached (`isActiveAtTimestamp`).
* `isActiveAtTimestamp_mono`: once active, such a fork is active at every later number and
  timestamp.  This is where fork persistence comes from, and it needs *both* to grow.
-/

namespace RethBsc

/-- When a fork activates. -/
inductive ForkCondition where
  | block (number : UInt64)
  | ttd (activationBlockNumber : UInt64)
  | timestamp (time : UInt64)
  | never
  deriving DecidableEq

namespace ForkCondition

def activeAtBlock : ForkCondition → UInt64 → Bool
  | .block b, current => b ≤ current
  | .ttd b, current => b ≤ current
  | _, _ => false

def transitionsAtBlock : ForkCondition → UInt64 → Bool
  | .block b, current => current == b
  | _, _ => false

def activeAtTimestamp : ForkCondition → UInt64 → Bool
  | .timestamp t, current => t ≤ current
  | _, _ => false

theorem activeAtBlock_mono {c : ForkCondition} {n n' : UInt64} (hn : n ≤ n')
    (h : c.activeAtBlock n = true) : c.activeAtBlock n' = true := by
  unfold activeAtBlock at h ⊢
  grind

theorem activeAtTimestamp_mono {c : ForkCondition} {t t' : UInt64} (ht : t ≤ t')
    (h : c.activeAtTimestamp t = true) : c.activeAtTimestamp t' = true := by
  unfold activeAtTimestamp at h ⊢
  grind

end ForkCondition

inductive BscHardfork where
  | frontier | ramanujan | niels | mirrorSync | bruno | euler | nano | moran | gibbs | planck
  | luban | plato | hertz | hertzFix | kepler | feynman | feynmanFix | cancun | haber | haberFix
  | bohr | tycho | pascal | lorentz | maxwell | fermi
  deriving DecidableEq

/-- The Ethereum forks that a BSC chain spec lists. -/
inductive EthereumHardfork where
  | frontier | homestead | tangerine | spuriousDragon | byzantium | constantinople | petersburg
  | istanbul | muirGlacier | berlin | london | shanghai | cancun | prague
  deriving DecidableEq

/-- What the consensus code asks of a chain spec. -/
structure ChainSpec where
  bscForkActivation : BscHardfork → ForkCondition
  ethereumForkActivation : EthereumHardfork → ForkCondition

namespace ChainSpec

variable (spec : ChainSpec)

/-! ## Forks activated by block number -/

def isLondonActiveAtBlock (blockNumber : UInt64) : Bool :=
  (spec.ethereumForkActivation .london).activeAtBlock blockNumber

def isActiveAtBlock (fork : BscHardfork) (blockNumber : UInt64) : Bool :=
  (spec.bscForkActivation fork).activeAtBlock blockNumber

def isRamanujanActiveAtBlock := spec.isActiveAtBlock .ramanujan
def isNielsActiveAtBlock := spec.isActiveAtBlock .niels
def isMirrorSyncActiveAtBlock := spec.isActiveAtBlock .mirrorSync
def isBrunoActiveAtBlock := spec.isActiveAtBlock .bruno
def isEulerActiveAtBlock := spec.isActiveAtBlock .euler
def isNanoActiveAtBlock := spec.isActiveAtBlock .nano
def isMoranActiveAtBlock := spec.isActiveAtBlock .moran
def isPlanckActiveAtBlock := spec.isActiveAtBlock .planck
def isLubanActiveAtBlock := spec.isActiveAtBlock .luban
def isPlatoActiveAtBlock := spec.isActiveAtBlock .plato
def isHertzActiveAtBlock := spec.isActiveAtBlock .hertz
def isHertzFixActiveAtBlock := spec.isActiveAtBlock .hertzFix

def isLubanTransitionAtBlock (blockNumber : UInt64) : Bool :=
  (spec.bscForkActivation .luban).transitionsAtBlock blockNumber

/-! ## Forks activated by timestamp -/

def isActiveAtTimestamp (fork : BscHardfork) (blockNumber timestamp : UInt64) : Bool :=
  spec.isLondonActiveAtBlock blockNumber &&
    (spec.bscForkActivation fork).activeAtTimestamp timestamp

def isKeplerActiveAtTimestamp := spec.isActiveAtTimestamp .kepler
def isFeynmanActiveAtTimestamp := spec.isActiveAtTimestamp .feynman
def isFeynmanFixActiveAtTimestamp := spec.isActiveAtTimestamp .feynmanFix
def isHaberActiveAtTimestamp := spec.isActiveAtTimestamp .haber
def isHaberFixActiveAtTimestamp := spec.isActiveAtTimestamp .haberFix
def isCancunActiveAtTimestamp := spec.isActiveAtTimestamp .cancun
def isBohrActiveAtTimestamp := spec.isActiveAtTimestamp .bohr
def isPascalActiveAtTimestamp := spec.isActiveAtTimestamp .pascal
def isLorentzActiveAtTimestamp := spec.isActiveAtTimestamp .lorentz
def isMaxwellActiveAtTimestamp := spec.isActiveAtTimestamp .maxwell
def isFermiActiveAtTimestamp := spec.isActiveAtTimestamp .fermi

/-- The block is the first with Feynman; the parent of block 0 counts as block 0. -/
def isFeynmanTransitionAtTimestamp (blockNumber timestamp parentTimestamp : UInt64) : Bool :=
  let parentNumber := Rust.saturatingSub blockNumber 1
  !spec.isFeynmanActiveAtTimestamp parentNumber parentTimestamp &&
    spec.isFeynmanActiveAtTimestamp blockNumber timestamp

/-- Prague is the one timestamp fork that is asked of the Ethereum schedule. -/
def isPragueActiveAtBlockAndTimestamp (blockNumber timestamp : UInt64) : Bool :=
  spec.isLondonActiveAtBlock blockNumber &&
    (spec.ethereumForkActivation .prague).activeAtTimestamp timestamp

variable {spec}

theorem isActiveAtTimestamp_mono {fork : BscHardfork} {n n' t t' : UInt64} (hn : n ≤ n')
    (ht : t ≤ t') (h : spec.isActiveAtTimestamp fork n t = true) :
    spec.isActiveAtTimestamp fork n' t' = true := by
  unfold isActiveAtTimestamp at h ⊢
  rw [Bool.and_eq_true] at h ⊢
  obtain ⟨hlondon, hfork⟩ := h
  exact ⟨ForkCondition.activeAtBlock_mono hn hlondon, ForkCondition.activeAtTimestamp_mono ht hfork⟩

end ChainSpec

/-- A spec with Luban from genesis on. -/
def lubanSpec : ChainSpec where
  bscForkActivation
    | .luban => .block 0
    | _ => .never
  ethereumForkActivation _ := .never

/-- A spec with Bohr, and not Lorentz, from genesis on. -/
def bohrSpec : ChainSpec where
  bscForkActivation
    | .luban => .block 0
    | .bohr => .timestamp 0
    | _ => .never
  ethereumForkActivation
    | .london => .block 0
    | _ => .never

/-- The same with Lorentz from the time `t` on. -/
def lorentzSpec (t : UInt64) : ChainSpec where
  bscForkActivation
    | .luban => .block 0
    | .bohr => .timestamp 0
    | .lorentz => .timestamp t
    | _ => .never
  ethereumForkActivation
    | .london => .block 0
    | _ => .never

end RethBsc
