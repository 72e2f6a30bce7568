import RethBsc.Miner.BidResidue

/-!
# Which bid is simulated

`commit_new_bid` compares a new bid with the best bid to run on the same parent, and returns one of
them for simulation.

* `commitEffect`: the ways in which a call ends.
* `Registers`: what any step does to the bids to run.  `AfterReturn.kept_holds` follows from it: the
  entry for a parent never promises less than a bid that was returned.
* **`later_call_silent_iff`**: once a bid was returned for simulation, a call with a bid that is not
  better is silent only if it is turned away, if the entry was handed in as committed, or if the
  clock forbids an interruption.  The flag `committed` is set in the copy that is returned, and the
  entry stays as it was.
-/

namespace RethBsc

open Rust Outcome

namespace BidSimulator

/-! ## Bids to run

What a bid promises is fixed by the bid and the commission.  Promises are compared in both rewards,
so one bid need not be better than the other. -/

section Commit

variable {c : SimulatorConfig} {s s' : BidSimulator} {env : CommitSurroundings} {bid : Bid}
  {rt chosen : BidRuntime} {res : Option BidRuntime}

/-- The runtime of a bid before anything is executed. -/
def promised (s : BidSimulator) (bid : Bid) (attributes : EthPayloadBuilderAttributes)
    (miningCtx : MiningContext) : BidRuntime :=
  { BidRuntime.new bid attributes miningCtx with
    expectedBlockReward := bid.gasFee
    expectedValidatorReward := s.commissionOf bid - bid.builderFee }

theorem newBidRuntime_eq_ok {attributes : EthPayloadBuilderAttributes} {miningCtx : MiningContext} :
    s.newBidRuntime bid attributes miningCtx = .ok rt ↔
      ¬ s.commissionOf bid < bid.builderFee ∧ rt = s.promised bid attributes miningCtx := by
  unfold newBidRuntime
  split
  · next hfee => simp [hfee]
  · next hfee => simp [hfee, promised, eq_comm]

/-- The call gives up before it compares the bid with others: the bid is known already, its block is
final or the final block is not known, its parent or the snapshot there is missing, or the
builder's fee exceeds the commission. -/
def TurnsAway (s : BidSimulator) (env : CommitSurroundings) (bid : Bid) : Prop :=
  s.checkPendingBid bid = false ∨
  (∀ finalBlockNumber, env.finalizedBlockNumber = .ok (some finalBlockNumber) →
    bid.blockNumber ≤ finalBlockNumber) ∨
  (∀ parent, env.header bid.parentHash ≠ .ok (some parent)) ∨
  env.snapshotByHash bid.parentHash = none ∨
  s.commissionOf bid < bid.builderFee

/-- What the call prepares for a bid that is not turned away. -/
def Prepares (c : SimulatorConfig) (env : CommitSurroundings) (bid : Bid)
    (attributes : EthPayloadBuilderAttributes) (miningCtx : MiningContext) : Prop :=
  ∃ parent snapshot header, env.header bid.parentHash = .ok (some parent) ∧
    env.snapshotByHash bid.parentHash = some snapshot ∧
    prepareNewAttributes c.evmConfig c.hashSlow "out of fuel" env.fuel env.now env.later snapshot
      parent c.validatorAddress = .ok (attributes, header) ∧
    miningCtx = ⟨some header, parent, snapshot⟩

theorem prepares_of_runtime (h : s.runtimeOfBid c env bid = .ok (some rt)) :
    (∃ finalBlockNumber, env.finalizedBlockNumber = .ok (some finalBlockNumber) ∧
      ¬ bid.blockNumber ≤ finalBlockNumber) ∧
    ¬ s.commissionOf bid < bid.builderFee ∧
    ∃ attributes miningCtx, Prepares c env bid attributes miningCtx ∧
      rt = s.promised bid attributes miningCtx := by
  unfold runtimeOfBid at h
  split at h
  · exact nomatch h
  · exact nomatch h
  · next finalBlockNumber hfinal =>
    split at h
    · exact nomatch h
    · next hblock =>
      split at h
      · next parent snapshot hparent hsnapshot =>
        obtain ⟨⟨attributes, header⟩, hprepare, h⟩ := bind_eq_ok.mp h
        obtain ⟨hfee, hrt⟩ := newBidRuntime_eq_ok.mp (toOption_eq_some.mp (ok.inj h))
        exact ⟨⟨finalBlockNumber, hfinal, hblock⟩, hfee, attributes, _,
          ⟨parent, snapshot, header, hparent, hsnapshot, hprepare, rfl⟩, hrt⟩
      · exact nomatch h

theorem turnsAway_of_no_runtime (h : s.runtimeOfBid c env bid = .ok none) :
    s.TurnsAway env bid := by
  unfold runtimeOfBid at h
  split at h
  · next hfinal => exact .inr (.inl fun _ h' => nomatch hfinal.symm.trans h')
  · next hfinal => exact .inr (.inl fun _ h' => nomatch hfinal.symm.trans h')
  · next finalBlockNumber hfinal =>
    split at h
    · next hblock =>
      refine .inr (.inl fun other hother => ?_)
      rw [hfinal] at hother
      cases hother
      exact hblock
    · split at h
      · next parent snapshot hparent hsnapshot =>
        obtain ⟨⟨attributes, header⟩, hprepare, h⟩ := bind_eq_ok.mp h
        -- only the builder's fee is left to be the reason
        refine .inr (.inr (.inr (.inr ?_)))
        by_contra hfee
        have hrt := newBidRuntime_eq_ok.mpr ⟨hfee,
          rfl (a := s.promised bid attributes ⟨some header, parent, snapshot⟩)⟩
        dsimp only at h
        rw [hrt] at h
        exact nomatch h
      · next hmissing =>
        by_cases hparent : ∃ parent, env.header bid.parentHash = .ok (some parent)
        · obtain ⟨parent, hparent⟩ := hparent
          refine .inr (.inr (.inr (.inl ?_)))
          rw [Option.eq_none_iff_forall_ne_some]
          exact fun snapshot hsnapshot => hmissing parent snapshot hparent hsnapshot
        · exact .inr (.inr (.inl fun parent h' => hparent ⟨parent, h'⟩))

/-- A bid that has a runtime is turned away only because it is known already. -/
theorem turnsAway_iff_of_runtime (h : s.runtimeOfBid c env bid = .ok (some rt)) :
    s.TurnsAway env bid ↔ s.checkPendingBid bid = false := by
  obtain ⟨⟨final, hfinal, hblock⟩, hfee, attributes, miningCtx, hprepares, -⟩ :=
    prepares_of_runtime h
  obtain ⟨parent, snapshot, header, hparent, hsnapshot, -⟩ := hprepares
  refine ⟨?_, .inl⟩
  rintro (hpending | hfinal' | hparent' | hsnapshot' | hfee')
  · exact hpending
  · exact absurd (hfinal' final hfinal) hblock
  · exact absurd hparent (hparent' parent)
  · rw [hsnapshot] at hsnapshot'
    exact nomatch hsnapshot'
  · exact absurd hfee' hfee

/-- The call of `commit_new_bid`, taken apart. -/
inductive CommitEffect (c : SimulatorConfig) (s : BidSimulator) (env : CommitSurroundings)
    (bid : Bid) : Option BidRuntime → BidSimulator → Prop where
  | known : s.checkPendingBid bid = false → CommitEffect c s env bid none s
  | turnedAway : s.runtimeOfBid c env bid = .ok none →
      CommitEffect c s env bid none (s.addPendingBid bid)
  | discarded {rt : BidRuntime} : s.checkPendingBid bid = true →
      s.runtimeOfBid c env bid = .ok (some rt) → s.selectBid bid.parentHash rt = none →
      CommitEffect c s env bid none (s.addPendingBid bid)
  | registered {rt chosen : BidRuntime} {res : Option BidRuntime} {s' : BidSimulator} :
      s.checkPendingBid bid = true → s.runtimeOfBid c env bid = .ok (some rt) →
      s.selectBid bid.parentHash rt = some chosen →
      (s.addPendingBid bid).requestSimulation c env.delayClock bid.parentHash chosen
        = .ok (res, s') →
      CommitEffect c s env bid res s'

theorem commitEffect (h : s.commitNewBid c env bid = .ok (res, s')) :
    CommitEffect c s env bid res s' := by
  unfold commitNewBid at h
  cases hpending : s.checkPendingBid bid with
  | false =>
    rw [hpending] at h
    cases h
    exact .known hpending
  | true =>
    rw [hpending] at h
    -- neither the runtime nor the choice looks at the pending bids
    obtain ⟨found, hruntime, h⟩ := bind_eq_ok.mp h
    have hruntime' : s.runtimeOfBid c env bid = .ok found := hruntime
    cases found with
    | none =>
      cases h
      exact .turnedAway hruntime'
    | some rt =>
      dsimp only at h
      cases hselect : s.selectBid bid.parentHash rt with
      | none =>
        rw [show (s.addPendingBid bid).selectBid bid.parentHash rt = none from hselect] at h
        cases h
        exact .discarded hpending hruntime' hselect
      | some chosen =>
        rw [show (s.addPendingBid bid).selectBid bid.parentHash rt = some chosen from hselect] at h
        exact .registered hpending hruntime' hselect h

/-- A simulation is in progress and the clock forbids to interrupt it. -/
def Blocked (c : SimulatorConfig) (s : BidSimulator) (clock : ClockReading) (parentHash : B256)
    (miningCtx : MiningContext) : Prop :=
  (s.simulatingBid.lookup parentHash).isSome = true ∧
  ∃ header, miningCtx.header = some header ∧
    mayInterrupt (c.parlia.delayForMining clock miningCtx.parentSnapshot header delayLeftOver)
      = false

variable {parentHash : B256}

/-- A request registers the bid without the flag, and is answered with the flag set. -/
theorem requestSimulation_eq_ok {clock : ClockReading}
    (h : s.requestSimulation c clock parentHash chosen = .ok (res, s')) :
    s'.bestBidToRun = s.bestBidToRun.insert chosen.bid.parentHash chosen.bid ∧
    s'.validatorCommission = s.validatorCommission ∧
    s'.bestBid = s.bestBid ∧
    (res = none ↔ Blocked c s clock parentHash chosen.miningCtx) ∧
    (res = none ∨ res = some (commitBid chosen)) := by
  unfold requestSimulation Blocked at *
  dsimp only at h ⊢
  cases hsimulating : s.simulatingBid.lookup parentHash with
  | none =>
    rw [hsimulating] at h
    cases h
    simp
  | some simulating =>
    rw [hsimulating] at h
    obtain ⟨header, hheader, h⟩ := bind_eq_ok.mp h
    have hheader' := unwrap_eq_ok.mp hheader
    split at h
    · next hmay =>
      cases h
      simp [hheader', hmay]
    · next hmay =>
      cases h
      simp [hheader', hmay]

/-! ### What the entries promise -/

/-- The bid promises at least what the runtime does. -/
def Promises (s : BidSimulator) (bid : Bid) (rt : BidRuntime) : Prop :=
  rt.expectedBlockReward ≤ bid.gasFee ∧
    rt.expectedValidatorReward ≤ s.commissionOf bid - bid.builderFee

theorem isExpectedBetterThan_promised {attributes : EthPayloadBuilderAttributes}
    {miningCtx : MiningContext} :
    (s.promised bid attributes miningCtx).isExpectedBetterThan rt = true ↔ s.Promises bid rt := by
  rw [BidRuntime.isExpectedBetterThan, Promises, Bool.and_eq_true, decide_eq_true_iff, decide_eq_true_iff]
  rfl

/-- Every bid to run stands under its parent, and its fee leaves something to the validator. -/
def Kept (s : BidSimulator) : Prop :=
  Map.All (fun parentHash bid => bid.parentHash = parentHash ∧
    ¬ s.commissionOf bid < bid.builderFee) s.bestBidToRun

theorem commissionOf_congr (h : s'.validatorCommission = s.validatorCommission) :
    s'.commissionOf = s.commissionOf := by
  funext bid
  unfold commissionOf
  rw [h]

theorem Kept.of_all (hcommission : s'.validatorCommission = s.validatorCommission)
    (hall : Map.All (fun parentHash bid => bid.parentHash = parentHash ∧
      ¬ s.commissionOf bid < bid.builderFee) s'.bestBidToRun) : s'.Kept := by
  rwa [Kept, commissionOf_congr hcommission]

/-- The choice when there is an entry: the new bid if it is better, the entry if it is not
committed. -/
theorem selectBid_of_entry {best : Bid} (hkept : s.Kept)
    (hentry : s.bestBidToRun.lookup parentHash = some best) :
    s.selectBid parentHash rt =
      if rt.isExpectedBetterThan (s.promised best rt.attributes rt.miningCtx) then some rt
      else if !best.committed then some (s.promised best rt.attributes rt.miningCtx)
      else none := by
  have hvalid := newBidRuntime_eq_ok.mpr
    ⟨(hkept parentHash best hentry).2, rfl (a := s.promised best rt.attributes rt.miningCtx)⟩
  rw [selectBid, hentry]
  dsimp only
  rw [hvalid]

theorem selectBid_eq_some (hkept : s.Kept) (h : s.selectBid parentHash rt = some chosen) :
    (chosen = rt ∧ ∀ best, s.bestBidToRun.lookup parentHash = some best →
      rt.isExpectedBetterThan (s.promised best rt.attributes rt.miningCtx) = true) ∨
    (∃ best, s.bestBidToRun.lookup parentHash = some best ∧ best.committed = false ∧
      chosen = s.promised best rt.attributes rt.miningCtx) := by
  cases hentry : s.bestBidToRun.lookup parentHash with
  | none =>
    unfold selectBid at h
    rw [hentry] at h
    exact .inl ⟨(Option.some.inj h).symm, fun _ h' => nomatch h'⟩
  | some best =>
    rw [selectBid_of_entry hkept hentry] at h
    split at h
    · next hbetter =>
      refine .inl ⟨(Option.some.inj h).symm, fun best' hbest' => ?_⟩
      cases hbest'
      exact hbetter
    · split at h
      · next hcommitted =>
        exact .inr ⟨best, rfl, by simpa using hcommitted, (Option.some.inj h).symm⟩
      · exact nomatch h

/-- Whatever is chosen has a parent, a runtime and promises of its own. -/
theorem chosen_spec (hkept : s.Kept) (hruntime : s.runtimeOfBid c env bid = .ok (some rt))
    (h : s.selectBid bid.parentHash rt = some chosen) :
    chosen.bid.parentHash = bid.parentHash ∧ ¬ s.commissionOf chosen.bid < chosen.bid.builderFee ∧
      chosen = s.promised chosen.bid rt.attributes rt.miningCtx := by
  obtain ⟨-, hfee, attributes, miningCtx, -, rfl⟩ := prepares_of_runtime hruntime
  rcases selectBid_eq_some hkept h with ⟨rfl, -⟩ | ⟨best, hentry, -, rfl⟩
  · exact ⟨rfl, hfee, rfl⟩
  · obtain ⟨hparent, hvalid⟩ := hkept _ best hentry
    exact ⟨hparent, hvalid, rfl⟩

end Commit

/-! ## Runs -/

section Runs

/-- A call of one of the three functions that change the simulator. -/
inductive Step (vm : BuilderVm) (c : SimulatorConfig) : BidSimulator → BidSimulator → Prop where
  | commit {s s' : BidSimulator} {env : CommitSurroundings} {bid : Bid} {res : Option BidRuntime} :
      s.commitNewBid c env bid = .ok (res, s') → Step vm c s s'
  | simulate {s s' : BidSimulator} {env : SimulationSurroundings vm} {rt : BidRuntime} :
      s.bidSimulate c env rt = .ok s' → Step vm c s s'
  | clear {s : BidSimulator} (blockNumber : UInt64) : Step vm c s (s.clear blockNumber)

/-- States of a simulator that was made by `new`. -/
inductive Reachable (vm : BuilderVm) (c : SimulatorConfig) : BidSimulator → Prop where
  | new (validatorCommission : UInt64) (greedyMerge : Bool) :
      Reachable vm c (new validatorCommission greedyMerge)
  | step {s s' : BidSimulator} : Reachable vm c s → Step vm c s s' → Reachable vm c s'

/-- A call for the parent returned `rt` for simulation, and since then there has been an entry for
the parent all the time. -/
inductive AfterReturn (vm : BuilderVm) (c : SimulatorConfig) (parentHash : B256)
    (rt : BidRuntime) : BidSimulator → Prop where
  | returned {s s' : BidSimulator} {env : CommitSurroundings} {bid : Bid} :
      Reachable vm c s → bid.parentHash = parentHash →
      s.commitNewBid c env bid = .ok (some rt, s') → AfterReturn vm c parentHash rt s'
  | step {s s' : BidSimulator} : AfterReturn vm c parentHash rt s → Step vm c s s' →
      (s'.bestBidToRun.lookup parentHash).isSome = true → AfterReturn vm c parentHash rt s'

variable {vm : BuilderVm} {c : SimulatorConfig} {s s' : BidSimulator} {rt : BidRuntime}
  {parentHash : B256}

/-- What a step does to the bids to run: it removes entries, or enters a chosen bid. -/
inductive Registers (c : SimulatorConfig) (s s' : BidSimulator) : Prop where
  | removes : s'.validatorCommission = s.validatorCommission →
      (∀ q bid, s'.bestBidToRun.lookup q = some bid → s.bestBidToRun.lookup q = some bid) →
      Registers c s s'
  | enters {env : CommitSurroundings} {bid : Bid} {rt chosen : BidRuntime} :
      s'.validatorCommission = s.validatorCommission →
      s.runtimeOfBid c env bid = .ok (some rt) → s.selectBid bid.parentHash rt = some chosen →
      s'.bestBidToRun = s.bestBidToRun.insert chosen.bid.parentHash chosen.bid → Registers c s s'

variable {bid : Bid} {env : CommitSurroundings}

theorem CommitEffect.registers {res : Option BidRuntime}
    (h : CommitEffect c s env bid res s') : Registers c s s' := by
  cases h with
  | known => exact .removes rfl fun _ _ h => h
  | turnedAway => exact .removes rfl fun _ _ h => h
  | discarded => exact .removes rfl fun _ _ h => h
  | registered _ hruntime hselect hrequest =>
    obtain ⟨hmap, hcommission, -⟩ := requestSimulation_eq_ok hrequest
    exact .enters hcommission hruntime hselect hmap

theorem Step.registers (h : Step vm c s s') : Registers c s s' := by
  cases h with
  | commit hcall => exact (commitEffect hcall).registers
  | clear blockNumber => exact .removes rfl fun _ _ h => Map.lookup_of_lookup_retain h
  | simulate hcall =>
    cases simulateEffect hcall with
    | closed => exact .removes rfl fun _ _ h => h
    | stored => exact .removes rfl fun _ _ h => h
    | beaten => exact .removes rfl fun _ _ h => (Map.lookup_erase_eq_some.mp h).2
    | failed => exact .removes rfl fun _ _ h => h

theorem Registers.kept (hkept : s.Kept) (h : Registers c s s') : s'.Kept := by
  cases h with
  | removes hcommission hsub =>
    exact .of_all hcommission fun q bid hq => hkept q bid (hsub q bid hq)
  | enters hcommission hruntime hselect hmap =>
    obtain ⟨-, hvalid, -⟩ := chosen_spec hkept hruntime hselect
    refine .of_all hcommission ?_
    rw [hmap]
    exact Map.All.insert hkept ⟨rfl, hvalid⟩

theorem Reachable.kept (h : Reachable vm c s) : s.Kept := by
  induction h with
  | new validatorCommission greedyMerge => exact Map.all_empty _
  | step _ hstep ih => exact hstep.registers.kept ih

/-- The entry of the parent promises at least what was returned. -/
def Holds (parentHash : B256) (rt : BidRuntime) (s : BidSimulator) : Prop :=
  ∃ entry, s.bestBidToRun.lookup parentHash = some entry ∧ s.Promises entry rt

theorem Promises.congr (hcommission : s'.validatorCommission = s.validatorCommission)
    (h : s.Promises bid rt) : s'.Promises bid rt := by
  unfold Promises at h ⊢
  rwa [commissionOf_congr hcommission]

theorem Promises.trans {best : Bid} {attributes : EthPayloadBuilderAttributes}
    {miningCtx : MiningContext} (h : s.Promises bid (s.promised best attributes miningCtx))
    (hbest : s.Promises best rt) : s.Promises bid rt :=
  ⟨BitVec.le_trans hbest.1 h.1, BitVec.le_trans hbest.2 h.2⟩

theorem Registers.holds (hkept : s.Kept) (h : Registers c s s') (hholds : Holds parentHash rt s)
    (hentry : (s'.bestBidToRun.lookup parentHash).isSome = true) : Holds parentHash rt s' := by
  obtain ⟨entry, hlookup, hpromises⟩ := hholds
  cases h with
  | removes hcommission hsub =>
    obtain ⟨entry', hentry'⟩ := Option.isSome_iff_exists.mp hentry
    have hsame := hsub parentHash entry' hentry'
    rw [hlookup] at hsame
    cases hsame
    exact ⟨entry, hentry', hpromises.congr hcommission⟩
  | @enters env bid new chosen hcommission hruntime hselect hmap =>
    obtain ⟨hparent, -, hchosen⟩ := chosen_spec hkept hruntime hselect
    rw [Holds, hmap]
    by_cases hq : parentHash = chosen.bid.parentHash
    · -- the entry itself is chosen again, or something that promises more
      refine ⟨chosen.bid, by rw [hq, AList.lookup_insert], Promises.congr hcommission ?_⟩
      rw [hq, hparent] at hlookup
      rcases selectBid_eq_some hkept hselect with ⟨rfl, hbetter⟩ | ⟨best, hbest, -, rfl⟩
      · have hmore := hbetter entry hlookup
        rw [hchosen] at hmore
        exact (isExpectedBetterThan_promised.mp hmore).trans hpromises
      · rw [hlookup] at hbest
        cases hbest
        exact hpromises
    · exact ⟨entry, by rw [AList.lookup_insert_ne hq, hlookup], hpromises.congr hcommission⟩

theorem AfterReturn.kept_holds (h : AfterReturn vm c parentHash rt s) :
    s.Kept ∧ Holds parentHash rt s := by
  induction h with
  | @returned s s' env bid hreachable hparent hcall =>
    have heffect := commitEffect hcall
    refine ⟨heffect.registers.kept hreachable.kept, ?_⟩
    cases heffect with
    | @registered new chosen _ _ _ hruntime hselect hrequest =>
      obtain ⟨hmap, hcommission, -, -, hres⟩ := requestSimulation_eq_ok hrequest
      obtain ⟨hchosen, -, heq⟩ := chosen_spec hreachable.kept hruntime hselect
      refine ⟨chosen.bid, by rw [hmap, hchosen, hparent, AList.lookup_insert], ?_⟩
      refine Promises.congr hcommission ?_
      obtain rfl := Option.some.inj (hres.resolve_left (by simp))
      -- what is returned is the chosen runtime up to its flag
      show s.Promises chosen.bid chosen
      rw [heq]
      exact ⟨BitVec.le_refl _, BitVec.le_refl _⟩
  | step _ hstep hentry ih =>
    exact ⟨hstep.registers.kept ih.1, hstep.registers.holds ih.1 ih.2 hentry⟩

theorem Prepares.unique
    {attributes attributes' : EthPayloadBuilderAttributes} {miningCtx miningCtx' : MiningContext}
    (h : Prepares c env bid attributes miningCtx) (h' : Prepares c env bid attributes' miningCtx') :
    miningCtx' = miningCtx := by
  obtain ⟨parent, snapshot, header, hparent, hsnapshot, hprepare, rfl⟩ := h
  obtain ⟨parent', snapshot', header', hparent', hsnapshot', hprepare', rfl⟩ := h'
  simp_all

/-- **When a later call is silent.**  After `rt` was returned for simulation, a call with a bid that
is not expected to be better returns nothing exactly if the bid is turned away, or the entry for the
parent was handed in with the flag `committed`, or a simulation on the parent is in progress that
must not be interrupted.  In all other cases it returns the entry once more. -/
theorem later_call_silent_iff {res : Option BidRuntime} (hrun : AfterReturn vm c parentHash rt s)
    (hparent : bid.parentHash = parentHash) (hcall : s.commitNewBid c env bid = .ok (res, s'))
    (hworse : ∀ new, s.runtimeOfBid c env bid = .ok (some new) →
      new.isExpectedBetterThan rt = false) :
    res = none ↔ s.TurnsAway env bid ∨
      (∃ entry, s.bestBidToRun.lookup parentHash = some entry ∧ entry.committed = true) ∨
      (∃ attributes miningCtx, Prepares c env bid attributes miningCtx ∧
        Blocked c s env.delayClock parentHash miningCtx) := by
  obtain ⟨hkept, entry, hentry, hpromises⟩ := hrun.kept_holds
  subst hparent
  cases commitEffect hcall with
  | known hpending => exact iff_of_true rfl (.inl (.inl hpending))
  | turnedAway hruntime => exact iff_of_true rfl (.inl (turnsAway_of_no_runtime hruntime))
  | discarded _ hruntime hselect =>
    refine iff_of_true rfl (.inr (.inl ⟨entry, hentry, ?_⟩))
    rw [selectBid_of_entry hkept hentry] at hselect
    split at hselect
    · exact nomatch hselect
    · split at hselect
      · exact nomatch hselect
      · next hcommitted => simpa using hcommitted
  | @registered new chosen _ _ hpending hruntime hselect hrequest =>
    obtain ⟨-, -, attributes, miningCtx, hprepares, hnew⟩ := prepares_of_runtime hruntime
    -- the new bid is not better than the entry, so that the entry was chosen
    have hchosen : entry.committed = false ∧ chosen.miningCtx = miningCtx := by
      rcases selectBid_eq_some hkept hselect with ⟨rfl, hbetter⟩ | ⟨best, hbest, hflag, rfl⟩
      · have hmore := hbetter entry hentry
        rw [hnew] at hmore
        have hfalse := hworse chosen hruntime
        rw [hnew, isExpectedBetterThan_promised.mpr
          ((isExpectedBetterThan_promised.mp hmore).trans hpromises)] at hfalse
        exact nomatch hfalse
      · obtain rfl := Option.some.inj (hentry.symm.trans hbest)
        exact ⟨hflag, by rw [hnew]; rfl⟩
    obtain ⟨-, -, -, hres, -⟩ := requestSimulation_eq_ok hrequest
    rw [hres, hchosen.2]
    constructor
    · exact fun hblocked => .inr (.inr ⟨attributes, miningCtx, hprepares, hblocked⟩)
    · rintro (haway | ⟨entry', hentry', hflag⟩ | ⟨attributes', miningCtx', hprepares', hblocked⟩)
      · rw [turnsAway_iff_of_runtime hruntime, hpending] at haway
        exact nomatch haway
      · simp_all
      · rwa [hprepares.unique hprepares'] at hblocked

end Runs

def lowBid : Bid := bidOf 2 [plainTx 3 21000, plainTx 4 21000] 5

/-- A worse bid gets the committed one returned again. -/
theorem commitNewBid_returns_bid_again :
    ∃ rt low s s', (new 10000 false).commitNewBid fermiSimulator (calmCommit 60000000) highBid
        = .ok (some rt, s) ∧
      s.runtimeOfBid fermiSimulator (calmCommit 60000000) lowBid = .ok (some low) ∧
      low.isExpectedBetterThan rt = false ∧
      lowBid.bidHash ≠ highBid.bidHash ∧ lowBid.parentHash = highBid.parentHash ∧
      s.commitNewBid fermiSimulator (calmCommit 60000000) lowBid = .ok (some rt, s') ∧
      rt.bid = { highBid with committed := true } := by
  refine ⟨_, _, _, _, rfl, rfl, ?_, ?_, rfl, rfl, rfl⟩
  · decide +kernel
  · decide +kernel

theorem later_call_silent_iff_lowBid :
    ∃ rt s res s', AfterReturn spendingVm fermiSimulator highBid.parentHash rt s ∧
      s.commitNewBid fermiSimulator (calmCommit 60000000) lowBid = .ok (res, s') ∧
      (res = none ↔ s.TurnsAway (calmCommit 60000000) lowBid ∨
        (∃ entry, s.bestBidToRun.lookup highBid.parentHash = some entry ∧ entry.committed = true) ∨
        (∃ attributes miningCtx,
          Prepares fermiSimulator (calmCommit 60000000) lowBid attributes miningCtx ∧
          Blocked fermiSimulator s (calmCommit 60000000).delayClock highBid.parentHash
            miningCtx)) := by
  obtain ⟨rt, s, hfirst, res, s', low, hsecond, hlow, hworse⟩ : ∃ rt s,
      (new 10000 false).commitNewBid fermiSimulator (calmCommit 60000000) highBid
        = .ok (some rt, s) ∧
      ∃ res s' low, s.commitNewBid fermiSimulator (calmCommit 60000000) lowBid = .ok (res, s') ∧
        s.runtimeOfBid fermiSimulator (calmCommit 60000000) lowBid = .ok (some low) ∧
        low.isExpectedBetterThan rt = false :=
    ⟨_, _, rfl, _, _, _, rfl, rfl, by decide +kernel⟩
  have hrun : AfterReturn spendingVm fermiSimulator highBid.parentHash rt s :=
    .returned (.new 10000 false) rfl hfirst
  refine ⟨rt, s, res, s', hrun, hsecond, later_call_silent_iff hrun rfl hsecond ?_⟩
  intro new hnew
  obtain rfl := Option.some.inj (ok.inj (hlow.symm.trans hnew))
  exact hworse

end BidSimulator

end RethBsc
