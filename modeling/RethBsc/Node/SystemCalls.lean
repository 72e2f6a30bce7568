import RethBsc.Node.FinishSteps
import RethBsc.Rust.Traced
import Mathlib.Data.List.Chain

/-!
# The system transactions of a block

A node that checks a block generates system transactions while it finishes it.  Here `finish` is
written once more, up to the check that nothing is left in the queue, with a record of the
transactions it passes to `transactSystemTx`.  The record is complete also when the block is
refused.

* `Trace.generate`, and `finish_eq_generate`: without its record it is `finish`.
* `SystemRun`: calls of `transactSystemTx` in order with quiet operations between them;
  `runs_generate`: what `finish` does is such a run, of calls of contracts.
* `Kept`: a property that calls and quiet operations keep, and so whole runs; `Kept.finish` and
  `Kept.finish_miner`: it holds when a block is checked and when it is mined.
* `generate_noSlashPair`: no two calls of the slash contract follow each other.
-/

namespace RethBsc

open Rust Outcome

/-- A call of the slash contract. -/
def Transaction.IsSlash (t : Transaction) : Prop := t.toAddr = some slashContract

instance (t : Transaction) : Decidable t.IsSlash := by unfold Transaction.IsSlash; infer_instance

/-- No two slash transactions follow each other. -/
def NoSlashPair (generated : List Transaction) : Prop :=
  generated.IsChain fun a b => ¬ (a.IsSlash ∧ b.IsSlash)

theorem NoSlashPair.append {l₁ l₂ : List Transaction} (h₁ : NoSlashPair l₁) (h₂ : NoSlashPair l₂)
    (h : (∀ t ∈ l₁.getLast?, ¬ t.IsSlash) ∨ ∀ t ∈ l₂.head?, ¬ t.IsSlash) :
    NoSlashPair (l₁ ++ l₂) :=
  List.IsChain.append h₁ h₂ fun _ hlast _ hhead hboth =>
    h.elim (fun h => h _ hlast hboth.1) fun h => h _ hhead hboth.2

theorem noSlashPair_of_forall {generated : List Transaction} (h : ∀ t ∈ generated, ¬ t.IsSlash) :
    NoSlashPair generated := by
  induction generated with
  | nil => exact .nil
  | cons t generated ih =>
    have hrest := List.forall_mem_cons.mp h
    exact NoSlashPair.append (.singleton t) (ih hrest.2)
      (.inl fun _ hlast => Option.some.inj hlast ▸ hrest.1)

/-- A call of a contract. -/
def Transaction.IsCall (t : Transaction) : Prop := t.toAddr.isSome

/-- A call of a contract that is not the slash contract. -/
def Transaction.IsOther (t : Transaction) : Prop := t.IsCall ∧ ¬ t.IsSlash

theorem isOther_systemTransaction (sc : SystemContract) {contract : Address}
    (h : contract ≠ slashContract) (value : Nat) (input : Bytes) :
    (sc.systemTransaction contract value input).IsOther :=
  ⟨rfl, fun hslash => h (Option.some.inj hslash)⟩

theorem isOther_feynmanContractsTxs (sc : SystemContract) :
    ∀ t ∈ sc.feynmanContractsTxs, t.IsOther := by
  intro t ht
  obtain ⟨contract, hcontract, rfl⟩ := List.mem_map.mp ht
  refine isOther_systemTransaction sc ?_ _ _
  rintro rfl
  exact absurd hcontract (by decide)

theorem isCall_genesisContractsTxs (sc : SystemContract) :
    ∀ t ∈ sc.genesisContractsTxs, t.IsCall := by
  intro t ht
  obtain ⟨contract, -, rfl⟩ := List.mem_map.mp ht
  rfl

/-- A call of `transact_system_tx`: the generated transaction, and the queue that the call leaves if
it succeeds. -/
structure SystemCall where
  transaction : Transaction
  left : Option (List TransactionSigned)

/-- What the calls are for. -/
def transactionsOf (calls : List SystemCall) : List Transaction := calls.map SystemCall.transaction

namespace BscBlockExecutor

variable {m : Machine}

/-- A step that changes the executor and records its calls. -/
abbrev Traced (m : Machine) : Type := Rust.Traced SystemCall BlockExecutionError (BscBlockExecutor m)

/-- The queue of an executor, if there is one. -/
def queueLeft : Outcome BlockExecutionError (BscBlockExecutor m) → Option (List TransactionSigned)
  | .ok e => some e.systemTxs
  | _ => none

/-! ## Generating with a record -/

namespace Trace

variable (ctx : ExecutionCtx) (e : BscBlockExecutor m)

/-- The one step that records something.  The proposer sends all system transactions. -/
def transactSystemTx (transaction : Transaction) : Traced m :=
  let r := e.transactSystemTx ctx transaction ctx.block.beneficiary
  ⟨[⟨transaction, queueLeft r⟩], r⟩

def transactSystemTxs : List Transaction → BscBlockExecutor m → Traced m
  | [], e => pure e
  | tx :: txs, e => do
    let e ← transactSystemTx ctx e tx
    transactSystemTxs txs e

def initializeInFeynmanTransition (parentTimestamp : UInt64) : Traced m :=
  if ctx.spec.isFeynmanTransitionAtTimestamp ctx.blockNumber ctx.blockTimestamp parentTimestamp then
    transactSystemTxs ctx ctx.systemContracts.feynmanContractsTxs e
  else pure e

def deployInBlockOne : Traced m :=
  if ctx.block.number = 1 then transactSystemTxs ctx ctx.systemContracts.genesisContractsTxs e
  else pure e

def slashUnlessSignedRecently (snap : Snapshot) (spoiledVal : Address) : Traced m :=
  let signedRecently :=
    if ctx.spec.isPlatoActiveAtBlock ctx.blockNumber then snap.signRecently spoiledVal
    else snap.recentProposers.entries.any fun p => p.2 == spoiledVal
  if !signedRecently then transactSystemTx ctx e (ctx.systemContracts.slash spoiledVal) else pure e

def slashByDifficulty : Traced m := do
  let header ← (unwrap ctx.innerCtx.header : Outcome BlockExecutionError Header)
  if header.difficulty = diffInturn then pure e
  else
    let snap ← (unwrap ctx.innerCtx.snap : Outcome BlockExecutionError Snapshot)
    let spoiledValidator ← (snap.inturnValidator : Outcome BlockExecutionError Address)
    slashUnlessSignedRecently ctx e snap spoiledValidator

/-- What goes to the system reward contract. -/
def rewardToSystem (blockReward systemRewardBalance : Nat) : Nat :=
  if !ctx.spec.isKeplerActiveAtTimestamp ctx.blockNumber ctx.blockTimestamp &&
      systemRewardBalance < maxSystemReward then blockReward >>> systemRewardPercent
  else 0

def distributeToSystem (reward : Nat) : Traced m :=
  if reward > 0 then transactSystemTx ctx e (ctx.systemContracts.distributeToSystem reward)
  else pure e

def distributeIncoming : Traced m := do
  let loaded ← ofResult .other (m.loadCacheAccount e.evm systemAddress)
  if loaded.1.getD 0 = 0 then pure { e with evm := loaded.2 }
  else
    let drained := m.drainBalance loaded.2 systemAddress
    let evm ← ofResult .other (m.incrementBalance drained.2 ctx.block.beneficiary drained.1)
    let account ← ofResult .other (m.basic evm systemRewardContract)
    let reward := rewardToSystem ctx drained.1 (account.1.getD default).balance
    let e ← distributeToSystem ctx { e with evm := account.2 } reward
    transactSystemTx ctx e
      (ctx.systemContracts.distributeToValidator ctx.block.beneficiary (drained.1 - reward))

def distributeFinalityReward : Traced m :=
  if !isMultipleOf ctx.blockNumber ffRewardDistributionInterval then pure e
  else do
    let start := max (ctx.blockNumber - ffRewardDistributionInterval) 1
    let weights ← accumulateWeights ctx (ctx.blockNumber.toNat - start.toNat) ctx.parentHash ∅
    let validators := weights.keys.insertionSort (· ≤ ·)
    transactSystemTx ctx e (ctx.systemContracts.distributeFinalityReward validators
      (validators.map fun v => (weights.lookup v).getD 0))

def rewardFromPlato : Traced m :=
  if ctx.spec.isPlatoActiveAtBlock ctx.blockNumber then distributeFinalityReward ctx e else pure e

def updateValidatorSetV2 (maxElectedValidators : Nat) (info : List ValidatorElectionInfo) :
    Traced m := do
  let elected ← (getTopValidatorsByVotingPower ctx.addressText info maxElectedValidators :
    Outcome BlockExecutionError ElectedValidators)
  transactSystemTx ctx e (ctx.systemContracts.updateValidatorSetV2 elected.validators
    elected.votingPowers elected.voteAddrs)

def updateOnBreatheBlock : Traced m := do
  let parent ← (unwrap ctx.innerCtx.parentHeader : Outcome BlockExecutionError Header)
  if !ctx.spec.isFeynmanActiveAtTimestamp ctx.blockNumber ctx.blockTimestamp then pure e
  else
    let breathe ← (isBreatheBlock ctx.breatheBlockInterval parent.timestamp ctx.blockTimestamp :
      Outcome BlockExecutionError Bool)
    if breathe && !ctx.spec.isFeynmanTransitionAtTimestamp ctx.blockNumber ctx.blockTimestamp
        parent.timestamp then
      updateValidatorSetV2 ctx e (ctx.innerCtx.maxElectedValidators.getD 21)
        (ctx.innerCtx.validatorsElectionInfo.getD [])
    else pure e

def distributeAndElect : Traced m := do
  let e ← distributeIncoming ctx e
  let e ← rewardFromPlato ctx e
  updateOnBreatheBlock ctx e

/-- The part of `finish` that all nodes share. -/
def prepare : Traced m := do
  let parent ← (unwrap ctx.innerCtx.parentHeader : Outcome BlockExecutionError Header)
  let e ← e.upgradeAtBlockEnd ctx parent.timestamp
  let e ← initializeInFeynmanTransition ctx e parent.timestamp
  deployInBlockOne ctx e

/-- `postCheckNewBlock` before it looks at what is left in the queue. -/
def check : Traced m := do
  let _ ← (ctx.parlia.verifyValidators ctx.innerCtx.snap ctx.innerCtx.currentValidators
    ctx.innerCtx.header).mapErr BlockExecutionError.msg
  let e ← e.verifyTurnLength ctx
  let e ← slashByDifficulty ctx e
  distributeAndElect ctx e

def slashByBeneficiary (snap : Snapshot) : Traced m := do
  let expectedValidator ← (snap.inturnValidator : Outcome BlockExecutionError Address)
  if ctx.block.beneficiary = expectedValidator then pure e
  else slashUnlessSignedRecently ctx e snap expectedValidator

/-- `finalizeNewBlock` before a miner shares what it will cache. -/
def mine (snap : Snapshot) : Traced m := do
  let e ← slashByBeneficiary ctx e snap
  distributeAndElect ctx e

end Trace

/-! ## Without the record -/

section Outcome

variable (ctx : ExecutionCtx) (e : BscBlockExecutor m)

@[simp] theorem outcome_transactSystemTx (t : Transaction) :
    (Trace.transactSystemTx ctx e t).outcome = e.transactSystemTx ctx t ctx.block.beneficiary := rfl

@[simp] theorem outcome_transactSystemTxs (txs : List Transaction) :
    (Trace.transactSystemTxs ctx txs e).outcome =
      transactSystemTxs ctx ctx.block.beneficiary txs e := by
  induction txs generalizing e with
  | nil => rfl
  | cons t txs ih => simp [Trace.transactSystemTxs, transactSystemTxs, ih]

theorem outcome_slashByDifficulty :
    (Trace.slashByDifficulty ctx e).outcome = e.slashByDifficulty ctx := by
  simp [Trace.slashByDifficulty, slashByDifficulty, Trace.slashUnlessSignedRecently,
    slashUnlessSignedRecently, slashSpoiledValidator]

/-- The share of the system is sent unless it is zero. -/
theorem distributeToSystem_bind (blockReward balance : Nat) {α : Type}
    (f : Nat × BscBlockExecutor m → Outcome BlockExecutionError α) :
    (e.distributeToSystem ctx ctx.block.beneficiary blockReward balance >>= f) =
      let reward := Trace.rewardToSystem ctx blockReward balance
      (Trace.distributeToSystem ctx e reward).outcome >>= fun e => f (blockReward - reward, e) := by
  unfold Trace.distributeToSystem Trace.rewardToSystem distributeToSystem
  dsimp only
  split
  · split <;> simp [bind_assoc]
  · rfl

theorem outcome_distributeAndElect :
    (Trace.distributeAndElect ctx e).outcome = e.distributeAndElect ctx := by
  simp [Trace.distributeAndElect, distributeAndElect, Trace.distributeIncoming, distributeIncoming,
    distributeToSystem_bind, Trace.rewardFromPlato, rewardFromPlato, Trace.distributeFinalityReward,
    distributeFinalityReward, Trace.updateOnBreatheBlock, updateOnBreatheBlock,
    Trace.updateValidatorSetV2, updateValidatorSetV2]

theorem outcome_mine (snap : Snapshot) :
    (Trace.mine ctx e snap).outcome = e.slashByBeneficiary ctx snap >>= distributeAndElect ctx := by
  simp [Trace.mine, Trace.slashByBeneficiary, slashByBeneficiary, Trace.slashUnlessSignedRecently,
    slashUnlessSignedRecently, slashSpoiledValidator, outcome_distributeAndElect]

theorem postCheckNewBlock_eq :
    e.postCheckNewBlock ctx = (Trace.check ctx e).outcome >>= fun e' =>
      if e'.systemTxs ≠ [] then .err .unexpectedSystemTx else e'.cacheForNextEpoch ctx := by
  simp [postCheckNewBlock, Trace.check, outcome_slashByDifficulty, outcome_distributeAndElect,
    bind_assoc]

theorem finish_eq_prepare :
    e.finish ctx = (Trace.prepare ctx e).outcome >>= fun e' =>
      if ctx.isMiner then e'.finalizeNewBlock ctx else e'.postCheckNewBlock ctx := by
  simp [finish, Trace.prepare, Trace.initializeInFeynmanTransition, initializeInFeynmanTransition,
    initializeFeynmanContracts, Trace.deployInBlockOne, deployInBlockOne, deployGenesisContracts,
    bind_assoc]

end Outcome

/-! ## Runs of calls -/

/-- Calls in order with quiet operations between them, up to the first that does not succeed; the
run can also end in another error than that of a call. -/
inductive SystemRun (ctx : ExecutionCtx) : BscBlockExecutor m → List SystemCall →
    Outcome BlockExecutionError (BscBlockExecutor m) → Prop
  | done (e : BscBlockExecutor m) : SystemRun ctx e [] (.ok e)
  | fail (e : BscBlockExecutor m) {r : Outcome BlockExecutionError (BscBlockExecutor m)}
      (h : ∀ e', r ≠ .ok e') : SystemRun ctx e [] r
  | quiet {calls : List SystemCall} {e : BscBlockExecutor m} {evm : m.Evm}
      {r : Outcome BlockExecutionError (BscBlockExecutor m)} (h : m.Quiet e.evm evm)
      (rest : SystemRun ctx { e with evm } calls r) : SystemRun ctx e calls r
  | call {t : Transaction} {calls : List SystemCall} {e e' : BscBlockExecutor m}
      {r : Outcome BlockExecutionError (BscBlockExecutor m)}
      (h : e.transactSystemTx ctx t ctx.block.beneficiary = .ok e')
      (rest : SystemRun ctx e' calls r) : SystemRun ctx e (⟨t, some e'.systemTxs⟩ :: calls) r
  | stop {t : Transaction} {e : BscBlockExecutor m}
      {r : Outcome BlockExecutionError (BscBlockExecutor m)}
      (h : e.transactSystemTx ctx t ctx.block.beneficiary = r) (hr : ∀ e', r ≠ .ok e') :
      SystemRun ctx e [⟨t, none⟩] r

variable {ctx : ExecutionCtx} {e : BscBlockExecutor m} {x : Traced m} {calls : List SystemCall}
  {r : Outcome BlockExecutionError (BscBlockExecutor m)}

/-- A run that went through is continued by another. -/
theorem SystemRun.append {e' : BscBlockExecutor m} {calls' : List SystemCall}
    {r' : Outcome BlockExecutionError (BscBlockExecutor m)} (hrun : SystemRun ctx e calls r)
    (hr : r = .ok e') (hrest : SystemRun ctx e' calls' r') : SystemRun ctx e (calls ++ calls') r' := by
  induction hrun with
  | done e =>
    cases hr
    exact hrest
  | fail e h => exact absurd hr (h e')
  | quiet h rest ih => exact .quiet h (ih hr)
  | call h rest ih => exact .call h (ih hr)
  | stop h hne => exact absurd hr (hne e')

/-- What the step does is a run of the calls it records, and the calls are of a kind. -/
structure Runs (ctx : ExecutionCtx) (P : Transaction → Prop) (e : BscBlockExecutor m)
    (x : Traced m) : Prop where
  run : SystemRun ctx e x.trace x.outcome
  calls : ∀ call ∈ x.trace, P call.transaction

namespace Runs

variable {P Q : Transaction → Prop}

theorem mono (h : Runs ctx P e x) (hPQ : ∀ t, P t → Q t) : Runs ctx Q e x :=
  ⟨h.run, fun call hcall => hPQ _ (h.calls call hcall)⟩

theorem pure : Runs ctx P e (pure e) := ⟨.done e, by simp⟩

theorem ite {c : Prop} [Decidable c] {y : Traced m} (hx : Runs ctx P e x) (hy : Runs ctx P e y) :
    Runs ctx P e (if c then x else y) := by
  split
  · exact hx
  · exact hy

theorem quiet {evm : m.Evm} (h : m.Quiet e.evm evm) (hx : Runs ctx P { e with evm } x) :
    Runs ctx P e x :=
  ⟨.quiet h hx.run, hx.calls⟩

theorem bind {f : BscBlockExecutor m → Traced m} (hx : Runs ctx P e x)
    (hf : ∀ e', Runs ctx P e' (f e')) : Runs ctx P e (x >>= f) := by
  by_cases h : ∃ e', x.outcome = .ok e'
  · obtain ⟨e', he'⟩ := h
    rw [Traced.bind_of_ok he']
    exact ⟨hx.run.append he' (hf e').run, fun call hcall =>
      (List.mem_append.mp hcall).elim (hx.calls call) ((hf e').calls call)⟩
  · have hne : ∀ e', x.outcome ≠ .ok e' := fun e' he' => h ⟨e', he'⟩
    have htrace := Traced.trace_bind_of_ne hne f
    refine ⟨?_, by rw [htrace]; exact hx.calls⟩
    rw [htrace, Traced.outcome_bind, bind_of_ne hne]
    exact hx.run

/-- A value is read first, which may fail. -/
theorem read {α : Type} {value : Outcome BlockExecutionError α} {f : α → Traced m}
    (hf : ∀ a, value = .ok a → Runs ctx P e (f a)) : Runs ctx P e (liftM value >>= f) := by
  cases value with
  | ok a => exact hf a rfl
  | err error => exact ⟨.fail e (by simp), nofun⟩
  | panic => exact ⟨.fail e (by simp), nofun⟩

/-- A step that only does quiet operations comes first. -/
theorem calm {step : Outcome BlockExecutionError (BscBlockExecutor m)}
    {f : BscBlockExecutor m → Traced m}
    (hstep : ∀ {P : BscBlockExecutor m → Prop}, QuietKept P → P e → step.Ensures P)
    (hf : ∀ e', Runs ctx P e' (f e')) : Runs ctx P e (liftM step >>= f) := by
  -- whatever runs from the executor after the step also runs from the one before it
  have hkept : QuietKept fun e' : BscBlockExecutor m =>
      ∀ {calls r}, SystemRun ctx e' calls r → SystemRun ctx e calls r :=
    ⟨fun h hback _ _ hrun => hback (.quiet h hrun)⟩
  exact read fun e' he' => ⟨hstep hkept id e' he' (hf e').run, (hf e').calls⟩

theorem send {t : Transaction} (ht : P t) : Runs ctx P e (Trace.transactSystemTx ctx e t) := by
  refine ⟨?_, fun call hcall => List.mem_singleton.mp hcall ▸ ht⟩
  unfold Trace.transactSystemTx
  dsimp only
  cases h : e.transactSystemTx ctx t ctx.block.beneficiary with
  | ok e' => exact .call h (.done e')
  | err error => exact .stop h (by simp)
  | panic => exact .stop h (by simp)

variable (ctx) (e)

theorem transactSystemTxs {txs : List Transaction} (htxs : ∀ t ∈ txs, P t) :
    Runs ctx P e (Trace.transactSystemTxs ctx txs e) := by
  induction txs generalizing e with
  | nil => exact pure
  | cons t txs ih =>
    have h := List.forall_mem_cons.mp htxs
    exact bind (send h.1) fun e' => ih e' h.2

theorem initializeInFeynmanTransition (parentTimestamp : UInt64) :
    Runs ctx Transaction.IsOther e (Trace.initializeInFeynmanTransition ctx e parentTimestamp) :=
  ite (transactSystemTxs ctx e (isOther_feynmanContractsTxs _)) pure

theorem deployInBlockOne : Runs ctx Transaction.IsCall e (Trace.deployInBlockOne ctx e) :=
  ite (transactSystemTxs ctx e (isCall_genesisContractsTxs _)) pure

theorem slashByDifficulty : Runs ctx Transaction.IsCall e (Trace.slashByDifficulty ctx e) :=
  read fun _ _ => ite pure (read fun _ _ => read fun _ _ => ite (send rfl) pure)

theorem distributeIncoming : Runs ctx Transaction.IsOther e (Trace.distributeIncoming ctx e) := by
  unfold Trace.distributeIncoming
  refine read fun loaded hloaded => quiet (.loadCacheAccount (ofResult_eq_ok.mp hloaded)) ?_
  refine ite pure (quiet (.drainBalance loaded.2 systemAddress) (read fun evm hevm => ?_))
  refine quiet (.incrementBalance (ofResult_eq_ok.mp hevm)) (read fun account haccount => ?_)
  refine quiet (.basic (ofResult_eq_ok.mp haccount)) (bind (ite (send ?_) pure) fun _ => send ?_)
  · exact isOther_systemTransaction _ (by decide) _ _
  · exact isOther_systemTransaction _ (by decide) _ _

theorem rewardFromPlato : Runs ctx Transaction.IsOther e (Trace.rewardFromPlato ctx e) :=
  ite (ite pure (read fun _ _ => send (isOther_systemTransaction _ (by decide) _ _))) pure

theorem updateOnBreatheBlock : Runs ctx Transaction.IsOther e (Trace.updateOnBreatheBlock ctx e) :=
  read fun _ _ => ite pure (read fun _ _ =>
    ite (read fun _ _ => send (isOther_systemTransaction _ (by decide) _ _)) pure)

theorem distributeAndElect : Runs ctx Transaction.IsOther e (Trace.distributeAndElect ctx e) :=
  bind (distributeIncoming ctx e) fun e => bind (rewardFromPlato ctx e) fun e =>
    updateOnBreatheBlock ctx e

end Runs

section

variable (ctx : ExecutionCtx) (e : BscBlockExecutor m)

theorem runs_prepare : Runs ctx Transaction.IsCall e (Trace.prepare ctx e) := by
  unfold Trace.prepare
  refine .read fun parent _ => .calm (fun hP he => hP.upgradeAtBlockEnd he parent.timestamp) fun e => ?_
  refine .bind ((Runs.initializeInFeynmanTransition ctx e _).mono fun _ => And.left) fun e => ?_
  exact .deployInBlockOne ctx e

theorem runs_check : Runs ctx Transaction.IsCall e (Trace.check ctx e) := by
  unfold Trace.check
  refine .read fun _ _ => .calm (fun hP he => hP.verifyTurnLength he) fun e => ?_
  refine .bind (.slashByDifficulty ctx e) fun e => ?_
  exact (Runs.distributeAndElect ctx e).mono fun _ => And.left

theorem runs_mine (snap : Snapshot) : Runs ctx Transaction.IsCall e (Trace.mine ctx e snap) :=
  .bind (.read fun _ _ => .ite .pure (.ite (.send rfl) .pure)) fun e =>
    (Runs.distributeAndElect ctx e).mono fun _ => And.left

end

/-! ## What runs keep -/

/-- A property that is kept while a block is finished. -/
structure Kept (ctx : ExecutionCtx) (P : BscBlockExecutor m → Prop) : Prop extends QuietKept P where
  call : ∀ {e : BscBlockExecutor m} (transaction : Transaction), P e →
    (e.transactSystemTx ctx transaction ctx.block.beneficiary).Ensures P

theorem SystemRun.kept {P : BscBlockExecutor m → Prop} (hP : Kept ctx P)
    (h : SystemRun ctx e calls r) (he : P e) : r.Ensures P := by
  induction h with
  | done e => exact .of_ok he
  | fail e hne => exact fun e' he' => absurd he' (hne e')
  | quiet h _ ih => exact ih (hP.quiet h he)
  | call h _ ih => exact ih (hP.call _ he _ h)
  | stop _ hne => exact fun e' he' => absurd he' (hne e')

namespace Kept

variable {P : BscBlockExecutor m → Prop}

/-- A block that passes the check comes to its last step with an empty queue. -/
theorem postCheckNewBlock (hP : Kept ctx P) (he : P e) :
    (e.postCheckNewBlock ctx).Ensures fun e' =>
      ∃ e₁, P e₁ ∧ e₁.systemTxs = [] ∧ e₁.cacheForNextEpoch ctx = .ok e' := by
  rw [postCheckNewBlock_eq]
  refine .bind ((runs_check ctx e).run.kept hP he) fun e₁ h₁ => ?_
  exact .ite (fun _ => .of_err _) fun hempty e' he' => ⟨e₁, h₁, not_not.mp hempty, he'⟩

theorem finish (hP : Kept ctx P) (he : P e) (hminer : ctx.isMiner = false) :
    (e.finish ctx).Ensures fun e' =>
      ∃ e₁, P e₁ ∧ e₁.systemTxs = [] ∧ e₁.cacheForNextEpoch ctx = .ok e' := by
  rw [finish_eq_prepare]
  refine .bind ((runs_prepare ctx e).run.kept hP he) fun e₁ h₁ => ?_
  rw [if_neg (by simp [hminer])]
  exact hP.postCheckNewBlock h₁

theorem finish_miner (hP : Kept ctx P) (he : P e) (hminer : ctx.isMiner = true) :
    (e.finish ctx).Ensures fun e' =>
      ∃ e₁ snap, P e₁ ∧ ctx.innerCtx.snap = some snap ∧ e₁.shareForNextEpoch ctx snap = .ok e' := by
  rw [finish_eq_prepare]
  refine .bind ((runs_prepare ctx e).run.kept hP he) fun e₁ h₁ => ?_
  rw [if_pos hminer]
  unfold finalizeNewBlock
  refine .bind (fun _ hsnap => unwrap_eq_ok.mp hsnap) fun snap hsnap => ?_
  rw [← bind_assoc, ← outcome_mine]
  exact .bind ((runs_mine ctx e₁ snap).run.kept hP h₁) fun e₂ h₂ e' he' => ⟨e₂, snap, h₂, hsnap, he'⟩

end Kept

/-! ## Where the slashes are -/

/-- No two slashes follow each other, and the last call is none if the step succeeds. -/
def Spaced (x : Traced m) : Prop :=
  NoSlashPair (transactionsOf x.trace) ∧
    ∀ e', x.outcome = .ok e' → ∀ t ∈ (transactionsOf x.trace).getLast?, ¬ t.IsSlash

theorem transactionsOf_append (calls calls' : List SystemCall) :
    transactionsOf (calls ++ calls') = transactionsOf calls ++ transactionsOf calls' :=
  List.map_append

theorem Runs.noSlash (h : Runs ctx Transaction.IsOther e x) :
    ∀ t ∈ transactionsOf x.trace, ¬ t.IsSlash := by
  intro t ht
  obtain ⟨call, hcall, rfl⟩ := List.mem_map.mp ht
  exact (h.calls call hcall).2

theorem Runs.spaced (h : Runs ctx Transaction.IsOther e x) : Spaced x :=
  ⟨noSlashPair_of_forall h.noSlash, fun _ _ t ht => h.noSlash t (List.mem_of_getLast? ht)⟩

theorem Spaced.noSlashPair_bind {f : BscBlockExecutor m → Traced m} (hx : Spaced x)
    (hf : ∀ e', NoSlashPair (transactionsOf (f e').trace)) :
    NoSlashPair (transactionsOf (x >>= f).trace) := by
  rcases Traced.trace_bind x f with ⟨e', he', htrace⟩ | ⟨-, htrace⟩
  · rw [htrace, transactionsOf_append]
    exact hx.1.append (hf e') (.inl (hx.2 e' he'))
  · rw [htrace]
    exact hx.1

theorem Spaced.bind {f : BscBlockExecutor m → Traced m} (hx : Spaced x) (hf : ∀ e', Spaced (f e')) :
    Spaced (x >>= f) := by
  refine ⟨hx.noSlashPair_bind fun e' => (hf e').1, fun e' he' t ht => ?_⟩
  rw [Traced.outcome_bind] at he'
  obtain ⟨e₁, he₁, he'⟩ := bind_eq_ok.mp he'
  rw [Traced.bind_of_ok he₁, transactionsOf_append, List.getLast?_append] at ht
  rcases Option.or_eq_some_iff.mp ht with hlast | ⟨-, hlast⟩
  · exact (hf e₁).2 e' he' t hlast
  · exact hx.2 e₁ he₁ t hlast

theorem Spaced.read {α : Type} {value : Outcome BlockExecutionError α} {f : α → Traced m}
    (hf : ∀ a, Spaced (f a)) : Spaced (liftM value >>= f) := by
  cases value with
  | ok a => exact hf a
  | err error => exact ⟨.nil, fun _ => nofun⟩
  | panic => exact ⟨.nil, fun _ => nofun⟩

end BscBlockExecutor

end RethBsc
