import Mathlib.Data.List.Sort
import RethBsc.Rust.Map
import RethBsc.Chain.Hardforks
import RethBsc.Parlia.Vote

/-!
# The snapshot of the validator state

`src/consensus/parlia/snapshot.rs`.  A snapshot is what a node must know of a block's ancestry to
check the next header: the validator set, who proposed recently, and the vote data.
`Snapshot.apply` moves it over one header.

* Maps are association lists with distinct keys.  No result below depends on the order in which
  `HashMap` and `BTreeMap` iterate.
* `apply` is cut into the steps of the source, each a function of its own: `advance`,
  `overProposed`, `updateAttestation`, `clearFinalized`, `setBlockInterval`, `switchEpochNum`,
  `switchValidators`.
* `apply` returns `None` as `.err ()`; the assertion on the number of vote addresses and the
  division by the epoch length are its panics.
* `apply_eq_ok` is the one place where `apply` is unfolded; `apply_spec` lists what a successful
  step does to each field.
-/

namespace RethBsc

open Rust Outcome

def checkpointInterval : UInt64 := 1024

def defaultEpochLength : UInt64 := 200
def defaultTurnLength : UInt8 := 1
def lorentzEpochLength : UInt64 := 500
def maxwellEpochLength : UInt64 := 1000

/-- The difficulties of a block by its validator in turn and by any other. -/
def diffInturn : Nat := 2
def diffNoturn : Nat := 1

def defaultBlockInterval : UInt64 := 3000
def lorentzBlockInterval : UInt64 := 1500
def maxwellBlockInterval : UInt64 := 750
def fermiBlockInterval : UInt64 := 450

/-- `index` is the position in the sorted validator list, counted from 1. -/
structure ValidatorInfo where
  index : UInt64
  voteAddr : VoteAddress
  deriving DecidableEq

abbrev ValidatorsMap := Map Address ValidatorInfo
abbrev RecentProposers := Map UInt64 Address

structure Snapshot where
  epochNum : UInt64
  blockNumber : UInt64
  blockHash : B256
  validators : List Address
  validatorsMap : ValidatorsMap
  recentProposers : RecentProposers
  voteData : VoteData
  turnLength : Option UInt8
  blockInterval : UInt64
  deriving DecidableEq

namespace Snapshot

/-! ## Building the validator map -/

/-- Each validator of the sorted list gets its position as index. -/
def setIndices (sorted : List Address) (map : ValidatorsMap) : ValidatorsMap :=
  Map.updateAll Prod.fst (fun vi info => { info with index := UInt64.ofNat vi.2 + 1 })
    sorted.zipIdx map

/-- The validators sorted, and their map.  Vote addresses are paired with the validators in the
order given, before sorting. -/
def buildValidators (validators : List Address) (voteAddrs : Option (List VoteAddress)) :
    Outcome Unit (List Address × ValidatorsMap) :=
  let sorted := validators.insertionSort (· ≤ ·)
  match voteAddrs with
  | some voteAddrs =>
    if validators.length ≠ voteAddrs.length then .panic
    else
      let map := Map.insertAll Prod.fst (fun va => ⟨0, va.2⟩) (validators.zip voteAddrs) ∅
      .ok (sorted, setIndices sorted map)
  | none =>
    .ok (sorted, Map.insertAll Prod.fst
      (fun vi => ⟨UInt64.ofNat vi.2 + 1, .zero⟩) sorted.zipIdx ∅)

def new (validators : List Address) (blockNumber : UInt64) (blockHash : B256) (epochNum : UInt64)
    (voteAddrs : Option (List VoteAddress)) : Outcome Unit Snapshot := do
  let (validators, validatorsMap) ← buildValidators validators voteAddrs
  pure
    { epochNum := if epochNum = 0 then defaultEpochLength else epochNum
      blockNumber, blockHash, validators, validatorsMap
      recentProposers := ∅
      voteData := default
      turnLength := some defaultTurnLength
      blockInterval := defaultBlockInterval }

/-! ## Turns and recent proposers -/

variable (s : Snapshot)

/-- Number of blocks to look back when checking proposer history. -/
def minerHistoryCheckLen : UInt64 :=
  UInt64.ofNat (s.validators.length / 2 + 1) * (s.turnLength.getD 1).toUInt64 - 1

/-- The validator that should propose the next block.  A zero turn length and an empty validator
set both divide by zero. -/
def inturnValidator {ε : Type} : Outcome ε Address :=
  let turnLength := (s.turnLength.getD defaultTurnLength).toUInt64
  if turnLength = 0 ∨ s.validators.length = 0 then .panic
  else
    let offset := ((s.blockNumber + 1) / turnLength).toNat % s.validators.length
    unwrap s.validators[offset]?

def isInturn {ε : Type} (proposer : Address) : Outcome ε Bool := do
  let inturn ← s.inturnValidator
  pure (inturn == proposer)

def lastBlockInOneTurn (blockNumber : UInt64) : Bool :=
  let turnLength := (s.turnLength.getD defaultTurnLength).toUInt64
  if turnLength ≤ 1 then true else blockNumber % turnLength == turnLength - 1

/-- How often each validator proposed in the window; the counters are `u8` and wrap. -/
def countRecentProposers : Map Address UInt8 :=
  let leftBound :=
    if s.blockNumber > s.minerHistoryCheckLen then s.blockNumber - s.minerHistoryCheckLen else 0
  s.recentProposers.entries.foldl (fun counts e =>
    if e.1 ≤ leftBound ∨ e.2 = .zero then counts
    else counts.insert e.2 ((counts.lookup e.2).getD 0 + 1)) ∅

def signRecentlyByCounts (validator : Address) (counts : Map Address UInt8) :
    Bool :=
  match counts.lookup validator with
  | some times => (s.turnLength.getD 1).toUInt64 ≤ times.toUInt64
  | none => false

def signRecently (validator : Address) : Bool :=
  s.signRecentlyByCounts validator s.countRecentProposers

def getFinalizedNumber : UInt64 :=
  if s.voteData.sourceNumber > 0 then s.voteData.sourceNumber else 0

/-! ## Applying a header -/

/-- The block's hash and number, and the proposer that leaves the window. -/
def advance (hashSlow : Header → B256) (nextHeader : Header) : Snapshot :=
  let blockNumber := nextHeader.number
  let limit := s.minerHistoryCheckLen + 1
  { s with
    blockHash := hashSlow nextHeader
    blockNumber
    recentProposers :=
      if limit ≤ blockNumber then s.recentProposers.erase (blockNumber - limit)
      else s.recentProposers }

def overProposed (isBohr : Bool) (validator : Address) : Bool :=
  if isBohr then s.signRecently validator
  else s.recentProposers.entries.any fun e => e.2 == validator

/-- Before Fermi the target of an attestation has to be the parent block.  The source moves only
if it is the block before the target. -/
def updateAttestation (spec : ChainSpec) (header : Header) (attestation : Option VoteAttestation) :
    Snapshot :=
  match attestation with
  | none => s
  | some att =>
    if !spec.isFermiActiveAtTimestamp header.number header.timestamp &&
        (att.data.targetNumber + 1 != header.number || att.data.targetHash != header.parentHash)
    then s
    else if att.data.sourceNumber + 1 ≠ att.data.targetNumber then
      { s with voteData := { s.voteData with
          targetNumber := att.data.targetNumber, targetHash := att.data.targetHash } }
    else { s with voteData := att.data }

/-- BEP-524: entries up to the latest finalized block are dropped. -/
def clearFinalized : Snapshot :=
  { s with
    recentProposers :=
      (s.recentProposers.keys.filter fun n => n ≤ s.getFinalizedNumber).foldl
        (fun m n => m.erase n) s.recentProposers }

def setBlockInterval (isLorentz isMaxwell isFermi : Bool) : Snapshot :=
  { s with blockInterval :=
      if isFermi then fermiBlockInterval
      else if isMaxwell then maxwellBlockInterval
      else if isLorentz then lorentzBlockInterval
      else s.blockInterval }

/-- The epoch length grows in the block before a multiple of the new one; both steps can happen in
one block. -/
def switchEpochNum (isLorentz isMaxwell : Bool) (blockNumber : UInt64) : Snapshot :=
  let epochNum :=
    if s.epochNum = defaultEpochLength ∧ isLorentz ∧
        isMultipleOf (blockNumber + 1) lorentzEpochLength then lorentzEpochLength
    else s.epochNum
  { s with epochNum :=
      if epochNum = lorentzEpochLength ∧ isMaxwell ∧
          isMultipleOf (blockNumber + 1) maxwellEpochLength then maxwellEpochLength
      else epochNum }

/-- The proposers kept when the validator set changes: from Bohr on only a marker of the epoch,
before that the window of a smaller set is cut. -/
def switchRecentProposers (isBohr : Bool) (blockNumber epochKey : UInt64)
    (newValidators : List Address) : RecentProposers :=
  if isBohr then AList.insert epochKey .zero ∅
  else
    let oldLimit := s.validators.length / 2 + 1
    let newLimit := newValidators.length / 2 + 1
    (List.range (oldLimit - newLimit)).foldl
      (fun m i => m.erase (blockNumber - UInt64.ofNat newLimit - UInt64.ofNat i)) s.recentProposers

/-- A non-empty new validator set is installed, from Bohr on at most once an epoch. -/
def switchValidators (isBohr : Bool) (blockNumber epochLength : UInt64)
    (newValidators : List Address) (voteAddrs : Option (List VoteAddress))
    (turnLength : Option UInt8) : Outcome Unit Snapshot :=
  if epochLength = 0 then .panic
  else
    let epochKey := 0xFFFFFFFFFFFFFFFF - blockNumber / epochLength
    if newValidators ≠ [] ∧ (!isBohr || !(s.recentProposers.lookup epochKey).isSome) then do
      let recentProposers := s.switchRecentProposers isBohr blockNumber epochKey newValidators
      let (validators, validatorsMap) ← buildValidators newValidators voteAddrs
      pure { s with
        turnLength := turnLength <|> s.turnLength
        recentProposers, validators, validatorsMap }
    else .ok s

/-- The fields after the checks have passed and before the validator set is switched. -/
def record (spec : ChainSpec) (validator : Address) (nextHeader : Header)
    (attestation : Option VoteAttestation) : Snapshot :=
  let isActive fork := spec.isActiveAtTimestamp fork nextHeader.number nextHeader.timestamp
  let snap := s.updateAttestation spec nextHeader attestation
  let snap := { snap with
    recentProposers := snap.recentProposers.insert nextHeader.number validator }
  let snap := if isActive .maxwell then snap.clearFinalized else snap
  (snap.setBlockInterval (isActive .lorentz) (isActive .maxwell) (isActive .fermi)).switchEpochNum
    (isActive .lorentz) (isActive .maxwell) nextHeader.number

/-- Applies the next block to the snapshot. -/
def apply (hashSlow : Header → B256) (spec : ChainSpec) (validator : Address) (nextHeader : Header)
    (newValidators : List Address) (voteAddrs : Option (List VoteAddress))
    (attestation : Option VoteAttestation) (turnLength : Option UInt8) : Outcome Unit Snapshot :=
  if s.blockNumber + 1 ≠ nextHeader.number then .err ()
  else
    let snap := s.advance hashSlow nextHeader
    let isBohr := spec.isBohrActiveAtTimestamp nextHeader.number nextHeader.timestamp
    if validator ∉ snap.validators then .err ()
    else if snap.overProposed isBohr validator then .err ()
    else
      -- the key of the epoch marker is taken with the epoch length before this block's switch
      (snap.record spec validator nextHeader attestation).switchValidators isBohr nextHeader.number
        snap.epochNum newValidators voteAddrs turnLength

/-! ## What a step does to each field -/

section Step

variable {s} {s' : Snapshot} {hashSlow : Header → B256} {spec : ChainSpec} {validator : Address}
  {header : Header} {newValidators : List Address} {voteAddrs : Option (List VoteAddress)}
  {attestation : Option VoteAttestation} {turnLength : Option UInt8}

/-- Only the vote data depends on the attestation. -/
theorem updateAttestation_eq :
    s.updateAttestation spec header attestation
      = { s with voteData := (s.updateAttestation spec header attestation).voteData } := by
  cases attestation with
  | none => rfl
  | some att =>
    unfold updateAttestation
    dsimp only
    split
    · rfl
    · split <;> rfl

/-- The vote data after a step depends on the vote data before it and on nothing else of the
snapshot. -/
theorem updateAttestation_voteData_congr {t : Snapshot} (h : s.voteData = t.voteData) :
    (s.updateAttestation spec header attestation).voteData
      = (t.updateAttestation spec header attestation).voteData := by
  cases attestation with
  | none => exact h
  | some att =>
    unfold updateAttestation
    dsimp only
    split
    · exact h
    · split
      · rw [h]
      · rfl

variable (s spec validator header attestation) in
theorem record_eq :
    ∃ recentProposers, s.record spec validator header attestation = { s with
          recentProposers
          voteData := (s.updateAttestation spec header attestation).voteData
          blockInterval := (s.record spec validator header attestation).blockInterval
          epochNum := (s.switchEpochNum
            (spec.isLorentzActiveAtTimestamp header.number header.timestamp)
            (spec.isMaxwellActiveAtTimestamp header.number header.timestamp)
            header.number).epochNum } := by
  refine ⟨(s.record spec validator header attestation).recentProposers, ?_⟩
  rw [record, updateAttestation_eq]
  dsimp only
  split <;> rfl

/-- A successful `apply` from `s` to `s'`, field by field. -/
structure Applied (hashSlow : Header → B256) (spec : ChainSpec) (validator : Address)
    (header : Header) (newValidators : List Address) (voteAddrs : Option (List VoteAddress))
    (attestation : Option VoteAttestation) (s s' : Snapshot) : Prop where
  number : s.blockNumber + 1 = header.number
  proposer : validator ∈ s.validators
  blockNumber : s'.blockNumber = header.number
  blockHash : s'.blockHash = hashSlow header
  voteData : s'.voteData = (s.updateAttestation spec header attestation).voteData
  epochNum : s'.epochNum = (s.switchEpochNum
    (spec.isLorentzActiveAtTimestamp header.number header.timestamp)
    (spec.isMaxwellActiveAtTimestamp header.number header.timestamp) header.number).epochNum
  validators : (s'.validators = s.validators ∧ s'.validatorsMap = s.validatorsMap ∧
      s'.turnLength = s.turnLength) ∨
    (newValidators ≠ [] ∧ buildValidators newValidators voteAddrs
      = .ok (s'.validators, s'.validatorsMap))

/-- `apply` succeeds when the three checks pass and the validator set can be switched. -/
theorem apply_eq_ok :
    s.apply hashSlow spec validator header newValidators voteAddrs attestation turnLength = .ok s' ↔
      s.blockNumber + 1 = header.number ∧ validator ∈ s.validators ∧
      (s.advance hashSlow header).overProposed
        (spec.isBohrActiveAtTimestamp header.number header.timestamp) validator = false ∧
      ((s.advance hashSlow header).record spec validator header attestation).switchValidators
        (spec.isBohrActiveAtTimestamp header.number header.timestamp) header.number s.epochNum
        newValidators voteAddrs turnLength = .ok s' := by
  unfold apply
  dsimp only
  by_cases hnumber : s.blockNumber + 1 = header.number
  · rw [if_neg (by simpa using hnumber)]
    by_cases hmem : validator ∈ s.validators
    · rw [if_neg (by simpa [advance] using hmem)]
      cases hover : (s.advance hashSlow header).overProposed
          (spec.isBohrActiveAtTimestamp header.number header.timestamp) validator with
      | true => simp
      | false => simp [hnumber, hmem, show (s.advance hashSlow header).epochNum = s.epochNum from rfl]
    · rw [if_pos (by simpa [advance] using hmem)]
      simp [hmem]
  · rw [if_pos (by simpa using hnumber)]
    simp [hnumber]

variable (s newValidators) in
/-- There is a set to install, and from Bohr on the epoch has no marker yet. -/
def Switches (isBohr : Bool) (epochKey : UInt64) : Prop :=
  newValidators ≠ [] ∧ (isBohr = false ∨ s.recentProposers.lookup epochKey = none)

/-- A call that returns keeps the snapshot or installs the new set. -/
theorem switchValidators_eq_ok {isBohr : Bool} {blockNumber epochLength : UInt64}
    (h : s.switchValidators isBohr blockNumber epochLength newValidators voteAddrs turnLength
      = .ok s') :
    (¬ s.Switches newValidators isBohr (0xFFFFFFFFFFFFFFFF - blockNumber / epochLength) ∧ s' = s) ∨
    (s.Switches newValidators isBohr (0xFFFFFFFFFFFFFFFF - blockNumber / epochLength) ∧
      ∃ validators map, buildValidators newValidators voteAddrs = .ok (validators, map) ∧
        s' = { s with
          turnLength := turnLength <|> s.turnLength
          recentProposers := s.switchRecentProposers isBohr blockNumber
            (0xFFFFFFFFFFFFFFFF - blockNumber / epochLength) newValidators
          validators := validators
          validatorsMap := map }) := by
  unfold switchValidators at h
  split at h
  · simp at h
  · dsimp only at h
    split at h
    · next hnew =>
      obtain ⟨⟨validators, map⟩, hbuild, hs'⟩ := bind_eq_ok.mp h
      refine .inr ⟨⟨hnew.1, ?_⟩, validators, map, hbuild, (ok.inj hs').symm⟩
      simpa using hnew.2
    · next hnew =>
      refine .inl ⟨fun hswitches => hnew ⟨hswitches.1, ?_⟩, (ok.inj h).symm⟩
      simpa using hswitches.2

theorem apply_spec
    (h : s.apply hashSlow spec validator header newValidators voteAddrs attestation turnLength
      = .ok s') :
    Applied hashSlow spec validator header newValidators voteAddrs attestation s s' := by
  obtain ⟨hnumber, hmem, -, hswitch⟩ := apply_eq_ok.mp h
  obtain ⟨recents, hrecord⟩ :=
    record_eq (s.advance hashSlow header) spec validator header attestation
  have hvote : ((s.advance hashSlow header).updateAttestation spec header attestation).voteData
      = (s.updateAttestation spec header attestation).voteData :=
    updateAttestation_voteData_congr rfl
  rw [hvote] at hrecord
  rcases switchValidators_eq_ok hswitch with ⟨-, hs'⟩ | ⟨hnew, validators, map, hbuild, hs'⟩
  · rw [hrecord] at hs'
    subst hs'
    exact ⟨hnumber, hmem, rfl, rfl, rfl, rfl, .inl ⟨rfl, rfl, rfl⟩⟩
  · rw [hrecord] at hs'
    subst hs'
    exact ⟨hnumber, hmem, rfl, rfl, rfl, rfl, .inr ⟨hnew.1, hbuild⟩⟩

/-! ## Reachable snapshots -/

/-- Snapshots that successful applies lead to from a genesis snapshot, whatever validators, vote
addresses, attestation and turn length each step was given. -/
inductive Reachable (hashSlow : Header → B256) (spec : ChainSpec) : Snapshot → Prop
  | genesis {validators : List Address} {genesisHash : B256}
      {voteAddrs : Option (List VoteAddress)} {s : Snapshot}
      (h : new validators 0 genesisHash defaultEpochLength voteAddrs = .ok s) :
      Reachable hashSlow spec s
  | apply {s s' : Snapshot} {validator : Address} {header : Header} {newValidators : List Address}
      {voteAddrs : Option (List VoteAddress)} {attestation : Option VoteAttestation}
      {turnLength : Option UInt8} (hs : Reachable hashSlow spec s)
      (h : s.apply hashSlow spec validator header newValidators voteAddrs attestation turnLength
        = .ok s') :
      Reachable hashSlow spec s'

/-- Blocks of one proposer, without announcements. -/
theorem Reachable.foldlM {v : Address} {headers : List Header} {s' : Snapshot}
    (hs : Reachable hashSlow spec s) (h : headers.foldlM
      (fun s header => s.apply hashSlow spec v header [] none none none) s = .ok s') :
    Reachable hashSlow spec s' := by
  induction headers generalizing s with
  | nil => exact ok.inj h ▸ hs
  | cons header headers ih =>
    rw [List.foldlM_cons] at h
    obtain ⟨s₁, hstep, hrest⟩ := bind_eq_ok.mp h
    exact ih (hs.apply hstep) hrest

/-- The epoch lengths in use. -/
def EpochLength (n : UInt64) : Prop :=
  n = defaultEpochLength ∨ n = lorentzEpochLength ∨ n = maxwellEpochLength

theorem switchEpochNum_epochLength {isLorentz isMaxwell : Bool} {blockNumber : UInt64}
    (h : EpochLength s.epochNum) :
    EpochLength (s.switchEpochNum isLorentz isMaxwell blockNumber).epochNum := by
  unfold switchEpochNum
  dsimp only
  split
  · split
    · exact .inr (.inr rfl)
    · exact .inr (.inl rfl)
  · split
    · exact .inr (.inr rfl)
    · exact h

theorem Reachable.epochLength (h : Reachable hashSlow spec s) : EpochLength s.epochNum := by
  induction h with
  | genesis h =>
    obtain ⟨⟨validators, map⟩, -, hs⟩ := bind_eq_ok.mp h
    cases hs
    exact .inl rfl
  | apply hs happly ih =>
    rw [(apply_spec happly).epochNum]
    exact switchEpochNum_epochLength ih

end Step

end Snapshot

/-! ### A chain of one validator

The window of a lone validator holds its latest block.  Before Lorentz nothing else of its snapshots
changes. -/

def loneValidator : Address := .repeatByte 20 7

def loneVoteAddress : VoteAddress := .repeatByte 48 7

namespace Snapshot

def emptyHeader (number : UInt64) : Header := { (default : Header) with number }

/-- A snapshot of empty blocks by the given validators, with a turn length of 1. -/
def emptySnapshot (validators : List Address) (blockNumber : UInt64)
    (recentProposers : RecentProposers) : Snapshot :=
  { epochNum := defaultEpochLength
    blockNumber
    blockHash := numberHash (emptyHeader blockNumber)
    validators
    validatorsMap := Map.insertAll Prod.fst (fun vi => ⟨UInt64.ofNat vi.2 + 1, .zero⟩)
      validators.zipIdx ∅
    recentProposers
    voteData := default
    turnLength := some defaultTurnLength
    blockInterval := defaultBlockInterval }

/-- The time of the block is its number. -/
def tickHeader (n : Nat) : Header :=
  { (default : Header) with number := UInt64.ofNat n, timestamp := UInt64.ofNat n }

def soloSnapshot (n : Nat) : Snapshot :=
  emptySnapshot [loneValidator] (UInt64.ofNat n)
    (if n = 0 then ∅ else AList.insert (UInt64.ofNat n) loneValidator ∅)

/-- The lone validator makes the blocks 1 to `n` and announces nothing. -/
def soloRun (spec : ChainSpec) (n : Nat) : Outcome Unit Snapshot :=
  ((List.range n).map fun i => tickHeader (i + 1)).foldlM
    (fun s header => s.apply numberHash spec loneValidator header [] none none none)
    (soloSnapshot 0)

theorem reachable_soloRun {spec : ChainSpec} {n : Nat} {s : Snapshot}
    (h : soloRun spec n = .ok s) : Reachable numberHash spec s := by
  have hnew : new [loneValidator] 0 (numberHash (tickHeader 0)) defaultEpochLength none
      = .ok (soloSnapshot 0) := by decide +kernel
  exact (Reachable.genesis hnew).foldlM h

end Snapshot

end RethBsc
