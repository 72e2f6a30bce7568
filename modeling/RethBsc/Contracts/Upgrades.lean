import Mathlib.Logic.Function.Basic
import RethBsc.Chain.Hardforks
import RethBsc.Contracts.SystemContracts
import RethBsc.Rust.Map

/-!
# Upgrades of system contracts

`get_upgrade_system_contracts` of `src/system_contracts/mod.rs`, and the functions of
`src/node/evm/executor.rs` that write what it returns.  The first block of a fork replaces the code
of some system contracts.  Before Feynman this happens at the start of the block, from then on at
its end.

* `risingEdges_eq`: a property that is never lost along a list is gained at most once.
* `transitions_eq`: a fork is in transition in the block where it becomes active.
* `upgrades_once`: on every chain a fork is in transition in exactly one block.
* `upgradeContracts_frame`: an upgrade leaves balances and nonces as they were.
* `newest_code_in_force`: at the end of a chain a contract has the code of the newest active fork
  that replaces it.
-/

namespace RethBsc

open Rust

/-! ## Rising edges -/

section Edges

variable {α : Type} (p : α → Bool)

/-- How often `p` becomes true on the way from `a` through the list. -/
def risingEdges : α → List α → Nat
  | _, [] => 0
  | a, b :: l => (!p a && p b).toNat + risingEdges b l

/-- The last element of a list that starts with `a`. -/
def lastFrom (a : α) (l : List α) : α := l.getLastD a

variable {p}

theorem risingEdges_eq {a : α} {l : List α}
    (h : List.IsChain (fun a b => p a = true → p b = true) (a :: l)) :
    risingEdges p a l + (p a).toNat = (p (lastFrom a l)).toNat := by
  induction l generalizing a with
  | nil => simp [risingEdges, lastFrom]
  | cons b l ih =>
    rw [List.isChain_cons_cons] at h
    have hrest := ih h.2
    have hlast : lastFrom a (b :: l) = lastFrom b l := by
      unfold lastFrom
      rw [List.getLastD_cons]
    rw [hlast, ← hrest, risingEdges]
    cases ha : p a with
    | false => cases hb : p b <;> simp [Nat.add_comm]
    | true => simp [h.1 ha]

end Edges

/-! ## Transitions -/

/-- A fork that replaces contracts is scheduled by block number or by timestamp. -/
inductive Trigger where
  | block
  | timestamp
  deriving DecidableEq

/-- The forks that replace contracts, in the order in which they are applied. -/
def upgradeTable : List (BscHardfork × Trigger) :=
  [(.ramanujan, .block), (.niels, .block), (.mirrorSync, .block), (.bruno, .block),
    (.euler, .block), (.gibbs, .block), (.moran, .block), (.planck, .block), (.luban, .block),
    (.plato, .block), (.kepler, .timestamp), (.feynman, .timestamp), (.feynmanFix, .timestamp),
    (.haberFix, .timestamp), (.bohr, .timestamp), (.pascal, .timestamp), (.lorentz, .timestamp),
    (.maxwell, .timestamp), (.fermi, .timestamp)]

/-- What the schedule reads of a block. -/
structure BlockSlot where
  number : UInt64
  timestamp : UInt64
  deriving DecidableEq

namespace ChainSpec

variable (spec : ChainSpec)

def isTransitionAtTimestamp (fork : BscHardfork) (blockNumber timestamp parentTimestamp : UInt64) :
    Bool :=
  !spec.isActiveAtTimestamp fork (saturatingSub blockNumber 1) parentTimestamp &&
    spec.isActiveAtTimestamp fork blockNumber timestamp

def isPragueTransitionAtBlockAndTimestamp (blockNumber timestamp parentTimestamp : UInt64) : Bool :=
  spec.isPragueActiveAtBlockAndTimestamp blockNumber timestamp &&
    !spec.isPragueActiveAtBlockAndTimestamp (saturatingSub blockNumber 1) parentTimestamp

/-- The check before a fork's contracts are taken. -/
def transitions (entry : BscHardfork × Trigger) (blockNumber timestamp parentTimestamp : UInt64) :
    Bool :=
  match entry.2 with
  | .block => (spec.bscForkActivation entry.1).transitionsAtBlock blockNumber
  | .timestamp => spec.isTransitionAtTimestamp entry.1 blockNumber timestamp parentTimestamp

/-- The fork of the entry has begun.  A fork that is scheduled by difficulty has no first block. -/
def reached (entry : BscHardfork × Trigger) (slot : BlockSlot) : Bool :=
  match entry.2 with
  | .block =>
    match spec.bscForkActivation entry.1 with
    | .block b => b ≤ slot.number
    | _ => false
  | .timestamp => spec.isActiveAtTimestamp entry.1 slot.number slot.timestamp

end ChainSpec

/-- A block and its child.  Time does not go back between them. -/
structure Follows (parent block : BlockSlot) : Prop where
  number : block.number.toNat = parent.number.toNat + 1
  timestamp : parent.timestamp ≤ block.timestamp

namespace Follows

variable {parent block : BlockSlot} (h : Follows parent block)
include h

theorem parentNumber_eq : saturatingSub block.number 1 = parent.number := by
  rw [← UInt64.toNat_inj, toNat_saturatingSub, h.number]
  exact Nat.add_sub_cancel _ 1

theorem number_le : parent.number ≤ block.number := by
  rw [UInt64.le_iff_toNat_le, h.number]
  exact Nat.le_succ _

end Follows

namespace ChainSpec

variable {spec : ChainSpec} {entry : BscHardfork × Trigger} {parent block : BlockSlot}

/-- A fork that has begun stays. -/
theorem reached_of_follows (h : Follows parent block)
    (hreached : spec.reached entry parent = true) :
    spec.reached entry block = true := by
  unfold reached at hreached ⊢
  cases htrigger : entry.2 with
  | block =>
    rw [htrigger] at hreached
    cases hfork : spec.bscForkActivation entry.1 with
    | block b =>
      rw [hfork] at hreached
      simp only [decide_eq_true_eq] at hreached ⊢
      exact UInt64.le_trans hreached h.number_le
    | ttd b | timestamp t | never =>
      rw [hfork] at hreached
      simp at hreached
  | timestamp =>
    rw [htrigger] at hreached
    exact isActiveAtTimestamp_mono h.number_le h.timestamp hreached

/-- A fork is in transition in the block where it begins. -/
theorem transitions_eq (h : Follows parent block) :
    spec.transitions entry block.number block.timestamp parent.timestamp
      = (!spec.reached entry parent && spec.reached entry block) := by
  unfold transitions reached
  cases htrigger : entry.2 with
  | block =>
    cases hfork : spec.bscForkActivation entry.1 with
    | block b =>
      have hnumber := h.number
      rw [Bool.eq_iff_iff]
      simp only [ForkCondition.transitionsAtBlock, beq_iff_eq, Bool.and_eq_true,
        Bool.not_eq_true', decide_eq_false_iff_not, decide_eq_true_eq, UInt64.le_iff_toNat_le,
        ← UInt64.toNat_inj]
      omega
    | ttd b | timestamp t | never => rfl
  | timestamp =>
    show spec.isTransitionAtTimestamp _ _ _ _ = _
    rw [isTransitionAtTimestamp, h.parentNumber_eq]

theorem transitions_iff (h : Follows parent block) :
    spec.transitions entry block.number block.timestamp parent.timestamp = true ↔
      spec.reached entry parent = false ∧ spec.reached entry block = true := by
  rw [transitions_eq h, Bool.and_eq_true, Bool.not_eq_true']

end ChainSpec

/-- How many blocks after `first` the fork is in transition in. -/
def transitionsAlong (spec : ChainSpec) (entry : BscHardfork × Trigger) :
    BlockSlot → List BlockSlot → Nat
  | _, [] => 0
  | parent, block :: blocks =>
    (spec.transitions entry block.number block.timestamp parent.timestamp).toNat +
      transitionsAlong spec entry block blocks

theorem transitionsAlong_eq {spec : ChainSpec} {entry : BscHardfork × Trigger} {first : BlockSlot}
    {blocks : List BlockSlot} (hchain : List.IsChain Follows (first :: blocks)) :
    transitionsAlong spec entry first blocks = risingEdges (spec.reached entry) first blocks := by
  induction blocks generalizing first with
  | nil => rfl
  | cons block blocks ih =>
    rw [List.isChain_cons_cons] at hchain
    rw [transitionsAlong, risingEdges, ChainSpec.transitions_eq hchain.1, ih hchain.2]

/-- **A fork upgrades once.**  On every chain of blocks whose time does not go back, a fork that
begins on the way is in transition in one block, and any other fork in none. -/
theorem upgrades_once (spec : ChainSpec) (entry : BscHardfork × Trigger) (first : BlockSlot)
    (blocks : List BlockSlot) (hchain : List.IsChain Follows (first :: blocks)) :
    transitionsAlong spec entry first blocks =
      (!spec.reached entry first && spec.reached entry (lastFrom first blocks)).toNat := by
  have hkept : List.IsChain
      (fun a b => spec.reached entry a = true → spec.reached entry b = true) (first :: blocks) :=
    hchain.imp fun _ _ => ChainSpec.reached_of_follows
  have hedges := risingEdges_eq hkept
  rw [transitionsAlong_eq hchain]
  cases hfirst : spec.reached entry first with
  | false =>
    rw [hfirst] at hedges
    simpa using hedges
  | true =>
    rw [hfirst] at hedges
    have hle : (spec.reached entry (lastFrom first blocks)).toNat ≤ 1 := Bool.toNat_le _
    simp only [Bool.toNat_true, Bool.not_true, Bool.false_and, Bool.toNat_false] at hedges ⊢
    omega

/-! ## The contracts of a block -/

/-- `get_system_contract_codes`; an error stands for a chain that has no table. -/
abbrev ContractCodes : Type := BscHardfork → Except Unit (Map Address (Option Bytes))

section Upgrade

variable (spec : ChainSpec) (codes : ContractCodes)

/-- The contracts of one fork, over those of the forks before. -/
def insertFork (blockNumber timestamp parentTimestamp : UInt64) (m : Map Address (Option Bytes))
    (entry : BscHardfork × Trigger) : Map Address (Option Bytes) :=
  if spec.transitions entry blockNumber timestamp parentTimestamp then
    match codes entry.1 with
    | .ok contracts => Map.insertAll Sigma.fst Sigma.snd contracts.entries m
    | .error _ => m
  else m

def getUpgradeSystemContracts (blockNumber timestamp parentTimestamp : UInt64) :
    Map Address (Option Bytes) :=
  upgradeTable.foldl (insertFork spec codes blockNumber timestamp parentTimestamp) ∅

/-! ## Writing code -/

/-- The part of an account that an upgrade reads and writes; its storage stays. -/
structure ContractAccount where
  balance : Nat
  nonce : UInt64
  code : Option Bytes
  deriving DecidableEq

/-- `AccountInfo::default()`. -/
instance : Inhabited ContractAccount := ⟨⟨0, 0, none⟩⟩

abbrev ContractAccounts : Type := Address → Option ContractAccount

def upgradeSystemContract (accounts : ContractAccounts) (address : Address) (code : Bytes) :
    ContractAccounts :=
  Function.update accounts address
    (some { (accounts address).getD default with code := some code })

/-- In the order that the map is iterated in. -/
def upgradeContracts (blockNumber timestamp parentTimestamp : UInt64)
    (accounts : ContractAccounts) : ContractAccounts :=
  (getUpgradeSystemContracts spec codes blockNumber timestamp parentTimestamp).entries.foldl
    (fun accounts entry =>
      match entry.2 with
      | some code => upgradeSystemContract accounts entry.1 code
      | none => accounts) accounts

/-- `HISTORY_STORAGE_ADDRESS` and `HISTORY_STORAGE_CODE` of another crate. -/
structure HistoryStorage where
  address : Address
  code : Bytes

def applyHistoryStorageAccount (history : HistoryStorage) (accounts : ContractAccounts) :
    ContractAccounts :=
  Function.update accounts history.address (some ⟨0, 1, some history.code⟩)

def tryUpdateBuildInSystemContract (history : HistoryStorage)
    (blockNumber timestamp parentTimestamp : UInt64) (atBlockBegin : Bool)
    (accounts : ContractAccounts) : ContractAccounts :=
  if atBlockBegin then
    let accounts :=
      if !spec.isFeynmanActiveAtTimestamp blockNumber parentTimestamp then
        upgradeContracts spec codes blockNumber timestamp parentTimestamp accounts
      else accounts
    if spec.isPragueTransitionAtBlockAndTimestamp blockNumber timestamp parentTimestamp then
      applyHistoryStorageAccount history accounts
    else accounts
  else if spec.isFeynmanActiveAtTimestamp blockNumber parentTimestamp then
    upgradeContracts spec codes blockNumber timestamp parentTimestamp accounts
  else accounts

end Upgrade

/-- The code at an address. -/
def ContractAccounts.codeAt (accounts : ContractAccounts) (address : Address) : Option Bytes :=
  (accounts address).bind ContractAccount.code

section Write

variable {spec : ChainSpec} {codes : ContractCodes} {address : Address}
  {blockNumber timestamp parentTimestamp : UInt64}

/-- Writing the entries of a map changes an account by its own entry only, in whatever order the
map is iterated. -/
theorem foldl_upgrade_apply (entries : List (Sigma fun _ : Address => Option Bytes))
    (hnodup : (entries.map Sigma.fst).Nodup) (accounts : ContractAccounts) :
    (entries.foldl (fun accounts entry =>
        match entry.2 with
        | some code => upgradeSystemContract accounts entry.1 code
        | none => accounts) accounts) address
      = match entries.dlookup address with
        | some (some code) => some { (accounts address).getD default with code := some code }
        | _ => accounts address := by
  induction entries generalizing accounts with
  | nil => rfl
  | cons entry entries ih =>
    obtain ⟨key, value⟩ := entry
    rw [List.map_cons, List.nodup_cons] at hnodup
    rw [List.foldl_cons, ih hnodup.2]
    by_cases hkey : key = address
    · subst hkey
      -- the key does not come again
      have hrest : entries.dlookup key = none := List.dlookup_eq_none.mpr hnodup.1
      rw [hrest, List.dlookup_cons_eq]
      cases value with
      | none => rfl
      | some code => exact Function.update_self key _ accounts
    · rw [List.dlookup_cons_ne _ _ (Ne.symm hkey)]
      cases value with
      | none => rfl
      | some code =>
        have hother : upgradeSystemContract accounts key code address = accounts address :=
          Function.update_of_ne (Ne.symm hkey) _ accounts
        dsimp only
        rw [hother]

theorem upgradeContracts_apply (accounts : ContractAccounts) :
    upgradeContracts spec codes blockNumber timestamp parentTimestamp accounts address
      = match (getUpgradeSystemContracts spec codes blockNumber timestamp
            parentTimestamp).lookup address with
        | some (some code) => some { (accounts address).getD default with code := some code }
        | _ => accounts address :=
  foldl_upgrade_apply _ (AList.nodupKeys _) accounts

/-- The entries of the fork for `address`; none if its table cannot be read. -/
def forkCode (codes : ContractCodes) (fork : BscHardfork) (address : Address) :
    Option (Option Bytes) :=
  match codes fork with
  | .ok contracts => contracts.lookup address
  | .error _ => none

variable {m : Map Address (Option Bytes)}

theorem insertFork_lookup_of_not {entry : BscHardfork × Trigger}
    (h : spec.transitions entry blockNumber timestamp parentTimestamp = true →
      forkCode codes entry.1 address = none) :
    (insertFork spec codes blockNumber timestamp parentTimestamp m entry).lookup address
      = m.lookup address := by
  unfold insertFork
  split
  · next htransition =>
    have hnone := h htransition
    unfold forkCode at hnone
    split
    · next contracts hcontracts =>
      rw [hcontracts] at hnone
      exact Map.lookup_insertAll_of_notMem (AList.lookup_eq_none.mp hnone)
    · rfl
  · rfl

theorem insertFork_lookup {entry : BscHardfork × Trigger} {value : Option Bytes}
    (htransition : spec.transitions entry blockNumber timestamp parentTimestamp = true)
    (hcode : forkCode codes entry.1 address = some value) :
    (insertFork spec codes blockNumber timestamp parentTimestamp m entry).lookup address
      = some value := by
  rw [insertFork, if_pos htransition]
  unfold forkCode at hcode
  split at hcode
  · next contracts hcontracts =>
    have hmem : (⟨address, value⟩ : Sigma fun _ : Address => Option Bytes) ∈ contracts.entries :=
      AList.mem_lookup_iff.mp hcode
    exact Map.lookup_insertAll (f := Sigma.fst) (g := Sigma.snd) contracts.nodupKeys hmem
  · cases hcode

theorem foldl_insertFork_lookup_of_not {entries : List (BscHardfork × Trigger)}
    (h : ∀ entry ∈ entries, spec.transitions entry blockNumber timestamp parentTimestamp = true →
      forkCode codes entry.1 address = none) :
    (entries.foldl (insertFork spec codes blockNumber timestamp parentTimestamp) m).lookup address
      = m.lookup address := by
  induction entries generalizing m with
  | nil => rfl
  | cons entry entries ih =>
    rw [List.foldl_cons, ih fun e he => h e (List.mem_cons_of_mem _ he)]
    exact insertFork_lookup_of_not (h entry List.mem_cons_self)

/-- The code that an upgrade leaves. -/
theorem codeAt_upgradeContracts (accounts : ContractAccounts) :
    (upgradeContracts spec codes blockNumber timestamp parentTimestamp accounts).codeAt address
      = match (getUpgradeSystemContracts spec codes blockNumber timestamp
            parentTimestamp).lookup address with
        | some (some code) => some code
        | _ => accounts.codeAt address := by
  rw [ContractAccounts.codeAt, upgradeContracts_apply]
  split <;> rfl

/-- An upgrade writes code, and leaves balances and nonces as they were. -/
theorem upgradeContracts_frame (accounts : ContractAccounts) :
    let account := (accounts address).getD default
    let account' := (upgradeContracts spec codes blockNumber timestamp parentTimestamp accounts
      address).getD default
    account'.balance = account.balance ∧ account'.nonce = account.nonce := by
  dsimp only
  rw [upgradeContracts_apply]
  split <;> exact ⟨rfl, rfl⟩

end Write

/-! ## Whole chains -/

section Chain

variable (spec : ChainSpec) (codes : ContractCodes) (history : HistoryStorage)
  (Executes : ContractAccounts → ContractAccounts → Prop)

/-- The accounts after the blocks of a chain that follow `first`, the last block first.  `Executes`
is what transactions may do; `finish` makes those of the system after the upgrade at the end. -/
inductive UpgradeRun (first : BlockSlot) (accounts₀ : ContractAccounts) :
    List BlockSlot → BlockSlot → ContractAccounts → Prop
  | start : UpgradeRun first accounts₀ [] first accounts₀
  | block {slots : List BlockSlot} {parent block : BlockSlot}
      {accounts executed finished : ContractAccounts}
      (hrun : UpgradeRun first accounts₀ slots parent accounts) (hfollows : Follows parent block)
      (hexecutes : Executes (tryUpdateBuildInSystemContract spec codes history block.number
        block.timestamp parent.timestamp true accounts) executed)
      (hfinishes : Executes (tryUpdateBuildInSystemContract spec codes history block.number
        block.timestamp parent.timestamp false executed) finished) :
      UpgradeRun first accounts₀ (block :: slots) block finished

variable {spec codes history Executes} {address : Address} {accounts : ContractAccounts}

theorem UpgradeRun.last_mem {first last : BlockSlot} {accounts₀ : ContractAccounts}
    {slots : List BlockSlot}
    (h : UpgradeRun spec codes history Executes first accounts₀ slots last accounts)
    (hne : last ≠ first) : last ∈ slots := by
  cases h with
  | start => exact absurd rfl hne
  | block => exact List.mem_cons_self

theorem codeAt_applyHistoryStorageAccount (haddress : address ≠ history.address)
    (accounts : ContractAccounts) :
    (applyHistoryStorageAccount history accounts).codeAt address = accounts.codeAt address := by
  simp_all [ContractAccounts.codeAt, applyHistoryStorageAccount]

/-- A block upgrades once, at its start or at its end. -/
theorem codeAt_block {number timestamp parentTimestamp : UInt64}
    {executed : ContractAccounts} (haddress : address ≠ history.address)
    (hkeeps : ∀ s s', Executes s s' → s'.codeAt address = s.codeAt address)
    (hexecutes : Executes (tryUpdateBuildInSystemContract spec codes history number timestamp
      parentTimestamp true accounts) executed) :
    (tryUpdateBuildInSystemContract spec codes history number timestamp parentTimestamp false
        executed).codeAt address
      = (upgradeContracts spec codes number timestamp parentTimestamp accounts).codeAt address := by
  have hexecuted := hkeeps _ _ hexecutes
  unfold tryUpdateBuildInSystemContract at hexecuted ⊢
  simp only [if_true, Bool.false_eq_true, if_false] at hexecuted ⊢
  -- the deployment of the history contract is of another address
  have hhistory : ∀ accounts : ContractAccounts,
      (if spec.isPragueTransitionAtBlockAndTimestamp number timestamp parentTimestamp then
        applyHistoryStorageAccount history accounts else accounts).codeAt address
        = accounts.codeAt address := by
    intro accounts
    split
    · exact codeAt_applyHistoryStorageAccount haddress accounts
    · rfl
  rw [hhistory] at hexecuted
  cases hfeynman : spec.isFeynmanActiveAtTimestamp number parentTimestamp with
  | false =>
    rwa [hfeynman] at hexecuted
  | true =>
    rw [hfeynman] at hexecuted
    simp only [Bool.not_true, Bool.false_eq_true, if_false] at hexecuted
    simp only [if_true]
    rw [codeAt_upgradeContracts, codeAt_upgradeContracts, hexecuted]

/-- **The newest code is in force.**  Take a chain on which a fork begins that replaces a contract,
and no fork after it in the table that does.  If the forks before it in the table that replace the
contract have begun when it begins, then the contract has its code at the end of the chain. -/
theorem newest_code_in_force {first last : BlockSlot} {accounts₀ : ContractAccounts}
    {slots : List BlockSlot} {before after : List (BscHardfork × Trigger)}
    {entry : BscHardfork × Trigger} {code : Bytes}
    (hsplit : upgradeTable = before ++ entry :: after)
    (hcode : forkCode codes entry.1 address = some (some code))
    (haddress : address ≠ history.address)
    (hkeeps : ∀ s s', Executes s s' → s'.codeAt address = s.codeAt address)
    (hrun : UpgradeRun spec codes history Executes first accounts₀ slots last accounts)
    (hearlier : ∀ e ∈ before, forkCode codes e.1 address ≠ none → ∀ slot ∈ slots,
      spec.reached entry slot = true → spec.reached e slot = true)
    (hfirst : spec.reached entry first = false)
    (hlater : ∀ e ∈ after, forkCode codes e.1 address ≠ none → spec.reached e last = false)
    (hlast : spec.reached entry last = true) :
    accounts.codeAt address = some code := by
  induction hrun with
  | start => exact absurd (hfirst.symm.trans hlast) (by decide)
  | @block slots parent block accounts executed _ hrun hfollows hexecutes hfinishes ih =>
    have hafter : ∀ e ∈ after, spec.transitions e block.number block.timestamp parent.timestamp
        = true → forkCode codes e.1 address = none := by
      intro e he htransition
      by_contra hwrites
      have hbegun := ((ChainSpec.transitions_iff hfollows).mp htransition).2
      exact absurd ((hlater e he hwrites).symm.trans hbegun) (by decide)
    rw [hkeeps _ _ hfinishes, codeAt_block haddress hkeeps hexecutes, codeAt_upgradeContracts,
      getUpgradeSystemContracts, hsplit, List.foldl_append, List.foldl_cons,
      foldl_insertFork_lookup_of_not hafter]
    cases hparent : spec.reached entry parent with
    | false =>
      -- the fork begins in this block
      have htransition := (ChainSpec.transitions_iff hfollows).mpr ⟨hparent, hlast⟩
      rw [insertFork_lookup htransition hcode]
    | true =>
      -- it began before, and nothing writes to the address any more
      have hmem : parent ∈ slots := hrun.last_mem fun heq =>
        absurd (hfirst.symm.trans (heq ▸ hparent)) (by decide)
      have hquiet : ∀ e, spec.reached e parent = true →
          spec.transitions e block.number block.timestamp parent.timestamp ≠ true :=
        fun e hbegun htransition =>
          absurd (((ChainSpec.transitions_iff hfollows).mp htransition).1.symm.trans hbegun)
            (by decide)
      have hbefore : ∀ e ∈ before, spec.transitions e block.number block.timestamp
          parent.timestamp = true → forkCode codes e.1 address = none := by
        intro e he htransition
        by_contra hwrites
        exact hquiet e (hearlier e he hwrites parent (List.mem_cons_of_mem _ hmem) hparent)
          htransition
      rw [insertFork_lookup_of_not fun htransition => absurd htransition (hquiet entry hparent),
        foldl_insertFork_lookup_of_not hbefore]
      refine ih (fun e he hwrites slot hslot =>
        hearlier e he hwrites slot (List.mem_cons_of_mem _ hslot)) (fun e he hwrites => ?_) hparent
      by_contra hreached
      have hblock := ChainSpec.reached_of_follows hfollows (Bool.not_eq_false _ ▸ hreached)
      exact absurd ((hlater e he hwrites).symm.trans hblock) (by decide)

end Chain

/-! ### Luban in block 2, Kepler in block 3

Both replace the slash contract. -/

def lubanKeplerSpec : ChainSpec where
  bscForkActivation
    | .luban => .block 2
    | .kepler => .timestamp 10
    | _ => .never
  ethereumForkActivation
    | .london => .block 0
    | _ => .never

def slashCodes : ContractCodes
  | .luban => .ok ((∅ : Map Address (Option Bytes)).insert slashContract (some [1]))
  | .kepler => .ok ((∅ : Map Address (Option Bytes)).insert slashContract (some [2]))
  | _ => .ok ∅

def sampleHistory : HistoryStorage := ⟨.repeatByte 20 0x29, [0]⟩

theorem lubanKepler_follows :
    List.IsChain Follows [⟨1, 4⟩, ⟨2, 7⟩, ⟨3, 10⟩, ⟨4, 13⟩] :=
  .cons_cons ⟨by decide, by decide⟩ (.cons_cons ⟨by decide, by decide⟩
    (.cons_cons ⟨by decide, by decide⟩ (.singleton _)))

/-- Kepler is in transition in one of three blocks. -/
theorem kepler_upgrades_once :
    transitionsAlong lubanKeplerSpec (.kepler, .timestamp) ⟨1, 4⟩ [⟨2, 7⟩, ⟨3, 10⟩, ⟨4, 13⟩] = 1 :=
  upgrades_once _ _ _ _ lubanKepler_follows

theorem lubanKepler_run :
    ∃ accounts, UpgradeRun lubanKeplerSpec slashCodes sampleHistory Eq ⟨1, 4⟩ (fun _ => none)
      [⟨4, 13⟩, ⟨3, 10⟩, ⟨2, 7⟩] ⟨4, 13⟩ accounts := by
  obtain ⟨_, hluban⟩ : ∃ accounts, UpgradeRun lubanKeplerSpec slashCodes sampleHistory Eq ⟨1, 4⟩
      (fun _ => none) [⟨2, 7⟩] ⟨2, 7⟩ accounts := ⟨_, .block .start ⟨by decide, by decide⟩ rfl rfl⟩
  obtain ⟨_, hkepler⟩ : ∃ accounts, UpgradeRun lubanKeplerSpec slashCodes sampleHistory Eq ⟨1, 4⟩
      (fun _ => none) [⟨3, 10⟩, ⟨2, 7⟩] ⟨3, 10⟩ accounts :=
    ⟨_, .block hluban ⟨by decide, by decide⟩ rfl rfl⟩
  exact ⟨_, .block hkepler ⟨by decide, by decide⟩ rfl rfl⟩

/-- The transactions of the chain touch no contract. -/
theorem kepler_code_in_force :
    ∃ accounts, UpgradeRun lubanKeplerSpec slashCodes sampleHistory Eq ⟨1, 4⟩ (fun _ => none)
        [⟨4, 13⟩, ⟨3, 10⟩, ⟨2, 7⟩] ⟨4, 13⟩ accounts ∧
      accounts.codeAt slashContract = some [2] := by
  obtain ⟨accounts, hrun⟩ := lubanKepler_run
  have hsplit : upgradeTable
      = upgradeTable.take 10 ++ (.kepler, .timestamp) :: upgradeTable.drop 11 := rfl
  exact ⟨accounts, hrun, newest_code_in_force hsplit (by decide) (by decide)
    (fun _ _ heq => by rw [heq]) hrun (by decide) (by decide) (by decide) (by decide)⟩

end RethBsc
