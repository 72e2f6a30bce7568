import RethBsc.Miner.BidSimulator
import RethBsc.Miner.SameEnv

/-!
# What a simulation leaves behind

`simulating_bid` names the bid that is being simulated on a parent, `best_bid_to_run` the bid to
compare new ones with.

* `simulate_eq_ok`: a simulation is a chain of steps, each of which may return early; and
  `simulateEffect`: what a call does in the end.
* **`leavesNoResidue_iff`**: a call cleans up behind itself exactly if no step returned early.  An
  early return leaves its bid in `simulating_bid`, and in `best_bid_to_run`.
-/

namespace RethBsc

open Rust Outcome

namespace BidSimulator

/-! ## A simulation, step by step -/

section Steps

variable {vm : BuilderVm} {c : SimulatorConfig} {s : BidSimulator}
  {env : SimulationSurroundings vm} {rt : BidRuntime}

/-- The gas limit of the block that the bid is for. -/
def blockGas (c : SimulatorConfig) (rt : BidRuntime) : UInt64 :=
  c.gasLimit rt.miningCtx.parentHeader.gasLimit

/-- The state is found, the declared gas passes the check, the builder can be made and the changes
before execution go through. -/
structure Opens (c : SimulatorConfig) (env : SimulationSurroundings vm) (rt : BidRuntime)
    (database : vm.Database) (systemGas : UInt64) (created evm : vm.Evm) : Prop where
  state : env.stateByBlockHash (c.hashSlow rt.miningCtx.parentHeader) = .ok database
  system : c.systemTxsGas rt.miningCtx.parentHeader rt.attributes.timestamp
    = (.ok systemGas : Outcome String UInt64)
  gasCheck : ¬ rt.bid.gasUsed > blockGas c rt - systemGas - payBidTxGasLimit
  builder : vm.builderForNextBlock database rt.miningCtx.parentHeader
    (rt.attributes.nextBlock (blockGas c rt)) = .ok created
  preExecution : vm.applyPreExecutionChanges created = .ok evm

/-- What the transactions of the bid are committed to. -/
def opened (c : SimulatorConfig) (rt : BidRuntime) (systemGas : UInt64) (evm : vm.Evm) :
    OpenBlock vm where
  builder := .new evm (c.evmConfig.nextEvmEnv rt.miningCtx.parentHeader
    (rt.attributes.nextBlock (blockGas c rt))).blockEnv
  blockGasLimit := saturatingSub (saturatingSub (blockGas c rt) systemGas) payBidTxGasLimit

theorem toOption_eq_some {ε α : Type} {x : Except ε α} {a : α} :
    x.toOption = some a ↔ x = .ok a := by
  cases x with
  | ok b => simp [Except.toOption]
  | error e => simp [Except.toOption]

theorem openBlock_eq_ok {block : OpenBlock vm} :
    openBlock c env rt = .ok block ↔ ∃ database systemGas created evm,
        Opens c env rt database systemGas created evm ∧ block = opened c rt systemGas evm := by
  unfold openBlock
  simp only [bind_eq_ok, okOr_eq_ok, toOption_eq_some]
  constructor
  · rintro ⟨database, hstate, systemGas, hsystem, h⟩
    split at h
    · exact nomatch h
    · next hcheck =>
      simp only [bind_eq_ok, okOr_eq_ok, toOption_eq_some, pure_eq, ok.injEq] at h
      obtain ⟨created, hcreated, evm, hevm, rfl⟩ := h
      exact ⟨database, systemGas, created, evm, ⟨hstate, hsystem, hcheck, hcreated, hevm⟩, rfl⟩
  · rintro ⟨database, systemGas, created, evm, h, rfl⟩
    refine ⟨database, h.state, systemGas, h.system, ?_⟩
    rw [if_neg (show ¬ rt.bid.gasUsed > c.gasLimit rt.miningCtx.parentHeader.gasLimit - systemGas
      - payBidTxGasLimit from h.gasCheck)]
    simp only [bind_eq_ok, okOr_eq_ok, toOption_eq_some, pure_eq, ok.injEq]
    exact ⟨created, h.builder, evm, h.preExecution, rfl⟩

/-- Every step succeeds: the block is opened, the transactions of the bid are committed and earn
what was promised, the pool is merged, the bid is paid, and the block is finished without a failed
transaction that must not fail. -/
structure Completes (c : SimulatorConfig) (s : BidSimulator) (env : SimulationSurroundings vm)
    (rt : BidRuntime) (block : OpenBlock vm) (rt₁ rt₂ rt₃ simulated : BidRuntime)
    (b₁ b₂ b₃ : BlockBuilder vm) : Prop where
  openBlock : openBlock c env rt = .ok block
  commitBidTxs : s.commitBidTxs c env rt block = .ok (rt₁, b₁)
  mergePool : s.mergePool c env rt₁ block.blockGasLimit b₁ = .ok (rt₂, b₂)
  commitPayBidTx : s.commitPayBidTx c env rt₂ block.blockGasLimit b₂ = .ok (rt₃, b₃)
  sealBlock : sealBlock rt₃ b₃ = .ok simulated

theorem simulate_eq_ok {simulated : BidRuntime} :
    s.simulate c env rt = .ok simulated ↔ ∃ block rt₁ rt₂ rt₃ b₁ b₂ b₃,
        Completes c s env rt block rt₁ rt₂ rt₃ simulated b₁ b₂ b₃ := by
  unfold simulate
  simp only [bind_eq_ok]
  constructor
  · rintro ⟨block, hopen, ⟨rt₁, b₁⟩, hbid, ⟨rt₂, b₂⟩, hmerge, ⟨rt₃, b₃⟩, hpay, hseal⟩
    exact ⟨block, rt₁, rt₂, rt₃, b₁, b₂, b₃, hopen, hbid, hmerge, hpay, hseal⟩
  · rintro ⟨block, rt₁, rt₂, rt₃, b₁, b₂, b₃, h⟩
    exact ⟨block, h.openBlock, (rt₁, b₁), h.commitBidTxs, (rt₂, b₂), h.mergePool, (rt₃, b₃),
      h.commitPayBidTx, h.sealBlock⟩

end Steps

/-! ## Residues -/

/-- The call stored its bid: a stored runtime earns more than what it replaces, so it is another. -/
def Stored (before after : BidSimulator) (parentHash : B256) : Prop :=
  after.bestBid.lookup parentHash ≠ before.bestBid.lookup parentHash

/-- Nothing of a simulation that is over is left, and no other parent is touched. -/
structure LeavesNoResidue (before after : BidSimulator) (parentHash : B256) : Prop where
  simulatingBid : after.simulatingBid.lookup parentHash = none
  bestBidToRun : ¬ Stored before after parentHash → after.bestBidToRun.lookup parentHash = none
  others : ∀ other ≠ parentHash,
    after.simulatingBid.lookup other = before.simulatingBid.lookup other ∧
    after.bestBidToRun.lookup other = before.bestBidToRun.lookup other ∧
    after.bestBid.lookup other = before.bestBid.lookup other

section Residue

variable {vm : BuilderVm} {c : SimulatorConfig} {s after : BidSimulator}
  {env : SimulationSurroundings vm} {rt simulated : BidRuntime}

/-- How a call ends that does not panic. -/
theorem bidSimulate_eq_ok (hreceiving : s.bidReceiving = true) :
    s.bidSimulate c env rt = .ok after ↔ (∃ simulated, s.simulate c env rt = .ok simulated ∧
        after = (s.startSimulation rt).finishSimulation simulated rt.bid.parentHash) ∨
      ((∃ reason, s.simulate c env rt = .err reason) ∧ after = s.startSimulation rt) := by
  rw [bidSimulate, hreceiving]
  cases s.simulate c env rt with
  | ok simulated => simp [eq_comm]
  | err reason => simp [eq_comm]
  | panic => simp

theorem bidSimulate_of_not_receiving (hreceiving : s.bidReceiving = false) :
    s.bidSimulate c env rt = .ok s := by
  rw [bidSimulate, hreceiving]
  rfl

variable {parentHash : B256}

theorem finishSimulation_of_isBetter (hbetter : s.isBetter simulated parentHash = true) :
    s.finishSimulation simulated parentHash = { s with
        bestBid := s.bestBid.insert parentHash simulated
        simulatingBid := s.simulatingBid.erase parentHash } := by
  rw [finishSimulation, if_pos hbetter, if_pos hbetter]

theorem finishSimulation_of_not_isBetter (hbetter : s.isBetter simulated parentHash = false) :
    s.finishSimulation simulated parentHash = { s with
        simulatingBid := s.simulatingBid.erase parentHash
        bestBidToRun := s.bestBidToRun.erase parentHash } := by
  rw [finishSimulation, hbetter, if_neg Bool.false_ne_true, if_neg Bool.false_ne_true]

/-- What a call does: nothing if the simulator is closed; otherwise it stores the bid, drops one that
earns no more than the best, or returns early. -/
inductive SimulateEffect (c : SimulatorConfig) (s : BidSimulator) (env : SimulationSurroundings vm)
    (rt : BidRuntime) : BidSimulator → Prop where
  | closed : s.bidReceiving = false → SimulateEffect c s env rt s
  | stored {simulated : BidRuntime} : s.simulate c env rt = .ok simulated →
      SimulateEffect c s env rt
        { s.startSimulation rt with
          bestBid := s.bestBid.insert rt.bid.parentHash simulated
          simulatingBid := (s.startSimulation rt).simulatingBid.erase rt.bid.parentHash }
  | beaten {simulated : BidRuntime} : s.simulate c env rt = .ok simulated →
      SimulateEffect c s env rt
        { s.startSimulation rt with
          simulatingBid := (s.startSimulation rt).simulatingBid.erase rt.bid.parentHash
          bestBidToRun := s.bestBidToRun.erase rt.bid.parentHash }
  | failed {reason : String} : s.simulate c env rt = .err reason →
      SimulateEffect c s env rt (s.startSimulation rt)

theorem simulateEffect (h : s.bidSimulate c env rt = .ok after) :
    SimulateEffect c s env rt after := by
  cases hreceiving : s.bidReceiving with
  | false =>
    rw [bidSimulate_of_not_receiving hreceiving] at h
    cases h
    exact .closed hreceiving
  | true =>
    rcases (bidSimulate_eq_ok hreceiving).mp h with ⟨simulated, hok, rfl⟩ | ⟨⟨reason, herr⟩, rfl⟩
    · cases hbetter : (s.startSimulation rt).isBetter simulated rt.bid.parentHash with
      | true =>
        rw [finishSimulation_of_isBetter hbetter]
        exact .stored hok
      | false =>
        rw [finishSimulation_of_not_isBetter hbetter]
        exact .beaten hok
    · exact .failed herr

/-- Storing a runtime changes the entry. -/
theorem stored_of_isBetter (hbetter : s.isBetter simulated parentHash = true) :
    s.bestBid.lookup parentHash ≠ some simulated := by
  grind [isBetter]

theorem leavesNoResidue_finishSimulation :
    LeavesNoResidue s ((s.startSimulation rt).finishSimulation simulated rt.bid.parentHash)
      rt.bid.parentHash := by
  have hothers : ∀ other ≠ rt.bid.parentHash,
      ((s.simulatingBid.insert rt.bid.parentHash rt.bid).erase rt.bid.parentHash).lookup other
        = s.simulatingBid.lookup other := by
    intro other hother
    rw [AList.lookup_erase_ne hother, AList.lookup_insert_ne hother]
  cases hbetter : (s.startSimulation rt).isBetter simulated rt.bid.parentHash with
  | true =>
    rw [finishSimulation_of_isBetter hbetter]
    refine ⟨AList.lookup_erase _ _, fun hstored => ?_, fun other hother => ?_⟩
    · -- the bid was stored, which contradicts the assumption
      refine absurd ?_ hstored
      show (s.bestBid.insert rt.bid.parentHash simulated).lookup rt.bid.parentHash ≠ _
      rw [AList.lookup_insert]
      exact (stored_of_isBetter hbetter).symm
    · exact ⟨hothers other hother, rfl, AList.lookup_insert_ne hother⟩
  | false =>
    rw [finishSimulation_of_not_isBetter hbetter]
    refine ⟨AList.lookup_erase _ _, fun _ => AList.lookup_erase _ _, fun other hother => ?_⟩
    exact ⟨hothers other hother, AList.lookup_erase_ne hother, rfl⟩

/-- An early return leaves the bid in `simulating_bid`. -/
theorem not_leavesNoResidue_startSimulation :
    ¬ LeavesNoResidue s (s.startSimulation rt) rt.bid.parentHash := by
  intro h
  have hentry : (s.startSimulation rt).simulatingBid.lookup rt.bid.parentHash = some rt.bid :=
    AList.lookup_insert _
  rw [h.simulatingBid] at hentry
  exact nomatch hentry

theorem leavesNoResidue_self_iff :
    LeavesNoResidue s s parentHash ↔
      s.simulatingBid.lookup parentHash = none ∧ s.bestBidToRun.lookup parentHash = none := by
  constructor
  · intro h
    exact ⟨h.simulatingBid, h.bestBidToRun fun hstored => hstored rfl⟩
  · rintro ⟨hsimulating, hrun⟩
    exact ⟨hsimulating, fun _ => hrun, fun _ _ => ⟨rfl, rfl, rfl⟩⟩

/-- **A call cleans up exactly if every step of the simulation succeeds.**  A simulator that does
not receive bids does nothing, so that it leaves what was there before. -/
theorem leavesNoResidue_iff (hcall : s.bidSimulate c env rt = .ok after) :
    LeavesNoResidue s after rt.bid.parentHash ↔
      (s.bidReceiving = true ∧ ∃ block rt₁ rt₂ rt₃ simulated b₁ b₂ b₃,
        Completes c s env rt block rt₁ rt₂ rt₃ simulated b₁ b₂ b₃) ∨
      (s.bidReceiving = false ∧ s.simulatingBid.lookup rt.bid.parentHash = none ∧
        s.bestBidToRun.lookup rt.bid.parentHash = none) := by
  cases hreceiving : s.bidReceiving with
  | false =>
    rw [bidSimulate_of_not_receiving hreceiving] at hcall
    cases hcall
    simp [leavesNoResidue_self_iff]
  | true =>
    rcases (bidSimulate_eq_ok hreceiving).mp hcall with ⟨simulated, hok, rfl⟩ | ⟨herr, rfl⟩
    · refine iff_of_true leavesNoResidue_finishSimulation (.inl ⟨rfl, ?_⟩)
      obtain ⟨block, rt₁, rt₂, rt₃, b₁, b₂, b₃, h⟩ := simulate_eq_ok.mp hok
      exact ⟨block, rt₁, rt₂, rt₃, simulated, b₁, b₂, b₃, h⟩
    · -- an early return
      refine iff_of_false not_leavesNoResidue_startSimulation ?_
      obtain ⟨reason, herr⟩ := herr
      rintro (⟨-, block, rt₁, rt₂, rt₃, simulated, b₁, b₂, b₃, h⟩ | ⟨hfalse, -⟩)
      · rw [simulate_eq_ok.mpr ⟨block, rt₁, rt₂, rt₃, b₁, b₂, b₃, h⟩] at herr
        exact nomatch herr
      · exact nomatch hfalse

end Residue

/-! ## Bids on one parent -/

/-- A machine without an EVM: every transaction succeeds and uses all of its gas. -/
def spendingVm : BuilderVm where
  Database := Unit
  Evm := Unit
  builderForNextBlock _ _ _ := .ok ()
  applyPreExecutionChanges _ := .ok ()
  transact _ tx := (.ok ⟨tx.tx.gasLimit, true⟩, ())
  gasUsed_le := by
    rintro _ tx _ ⟨⟩
    exact Nat.le_refl _
  finish _ _ := .ok ⟨2, b256OfUInt64 2, [], by simp⟩

/-- `calculate_block_gas_limit`: the limit moves towards the desired one, at most by a 1024th. -/
def calculateBlockGasLimit (desired parent : UInt64) : UInt64 :=
  let delta := saturatingSub (parent / 1024) 1
  if desired < parent - delta then parent - delta
  else if desired > parent + delta then parent + delta
  else desired

def fermiSimulator : SimulatorConfig where
  evmConfig := fermiConfig
  hashSlow := numberHash
  validatorAddress := loneValidator
  breatheBlockInterval := 86400
  gasLimit := calculateBlockGasLimit 60000000
  maxBlobCount _ := 6
  fakeExponential _ _ := 1

def calmTurn : TurnSurroundings := ⟨0, false, fun _ _ => .ok ()⟩

/-- A pool, and a map that gives its values in the order in which they were entered. -/
def poolOf (txs : List Recovered) : PoolSurroundings where
  bestTransactions _ _ := txs
  intoValues groups := groups.entries.map Sigma.snd
  intoValues_perm _ := .refl _

def calmSimulation (txs : List Recovered) : SimulationSurroundings spendingVm where
  stateByBlockHash _ := .ok ()
  bidTurns _ := calmTurn
  poolTurns _ := calmTurn
  payTurns _ := calmTurn
  mergeClock := ⟨999000, fun _ => 0⟩
  pool := poolOf txs

/-- The parent of the bids, with a gas limit. -/
def bidParent (gasLimit : UInt64) : Header := { parentAt 0 with gasLimit }

def calmCommit (gasLimit : UInt64) : CommitSurroundings where
  finalizedBlockNumber := .ok (some 0)
  header _ := .ok (some (bidParent gasLimit))
  snapshotByHash _ := some loneSnapshot
  now := 999000
  later := 999000
  fuel := 0
  delayClock := ⟨999000, fun _ => 0⟩

def plainTx (n gasLimit : UInt64) : SignedTx where
  hash := b256OfUInt64 n
  sender := some loneValidator
  toAddr := none
  blobVersionedHashes := none
  gasLimit
  maxFeePerGas := 1
  maxPriorityFeePerGas := some 1

/-- A bid that promises `gasFee` and asks for nothing. -/
def bidOf (n : UInt64) (txs : List SignedTx) (gasFee : U256) : Bid where
  builder := loneValidator
  blockNumber := 2
  parentHash := b256OfUInt64 1
  txs
  blobSidecars := ∅
  unRevertible := []
  gasUsed := 0
  gasFee
  builderFee := 0
  committed := false
  bidHash := b256OfUInt64 n
  interruptFlag := n.toNat

/-- The state of the parent is gone. -/
def prunedSimulation : SimulationSurroundings spendingVm :=
  { calmSimulation [] with stateByBlockHash := fun _ => .error "pruned" }

def highBid : Bid := bidOf 1 [plainTx 1 21000, plainTx 2 21000] 10

/-- The state lookup fails, and both maps keep the bid. -/
theorem bidSimulate_leaves_entries :
    ∃ rt s after, (new 10000 false).commitNewBid fermiSimulator (calmCommit 60000000) highBid
        = .ok (some rt, s) ∧
      s.bidSimulate fermiSimulator prunedSimulation rt = .ok after ∧
      after.simulatingBid.lookup rt.bid.parentHash = some { highBid with committed := true } ∧
      after.bestBidToRun.lookup rt.bid.parentHash = some highBid ∧
      after.bestBid.lookup rt.bid.parentHash = none ∧
      ¬ LeavesNoResidue s after rt.bid.parentHash := by
  refine ⟨_, _, _, rfl, rfl, rfl, rfl, rfl, ?_⟩
  exact not_leavesNoResidue_startSimulation

/-- The same bid with the state at hand. -/
theorem leavesNoResidue_highBid :
    ∃ rt s after, (new 10000 false).commitNewBid fermiSimulator (calmCommit 60000000) highBid
        = .ok (some rt, s) ∧
      s.bidSimulate fermiSimulator (calmSimulation []) rt = .ok after ∧
      (LeavesNoResidue s after rt.bid.parentHash ↔
        (s.bidReceiving = true ∧ ∃ block rt₁ rt₂ rt₃ simulated b₁ b₂ b₃,
          Completes fermiSimulator s (calmSimulation []) rt block rt₁ rt₂ rt₃ simulated b₁ b₂ b₃) ∨
        (s.bidReceiving = false ∧ s.simulatingBid.lookup rt.bid.parentHash = none ∧
          s.bestBidToRun.lookup rt.bid.parentHash = none)) := by
  refine ⟨_, _, _, rfl, rfl, ?_⟩
  exact leavesNoResidue_iff rfl

end BidSimulator

end RethBsc
