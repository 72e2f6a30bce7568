import RethBsc.Miner.BidGas

/-!
# The rewards of accepted bids

The reward that a bid promises to the validator, and the one that a simulation packs, are computed
in wrapping arithmetic of 256 bits, from a fee that the builder declares.  For a bid that is stored
nothing wraps: the fee is bounded by what the transactions paid, and the balance only grows between
the first packing and the last.

* `Earned`, `commitTurn_earned`: what a turn of a commit loop does to the balance.
* `Earns`: what the loop does, with `Earns.trans` and `earns_loop`.
* `toNat_commission`, `exactRewards_packReward`: packing a balance that leaves room for the
  multiplication.
* `Packed`: what holds after the transactions of the bid, and again after the merge.
* **`bid_rewards_exact`**: the rewards of a bid that a call of `bid_simulate` stores.
* `RunsWith.rewards_exact`: those of every best bid, in every run of the worker.
-/

namespace RethBsc

open Rust Outcome

namespace BidRuntime

variable {vm : BuilderVm} {c : SimulatorConfig} {rt rt' rt'' : BidRuntime}
  {b b' b'' : BlockBuilder vm} {tx : Recovered}

/-- The two runtimes are of one bid, with the same rewards. -/
structure SameRewards (rt rt' : BidRuntime) : Prop where
  bid : rt'.bid = rt.bid
  expectedBlock : rt'.expectedBlockReward = rt.expectedBlockReward
  expectedValidator : rt'.expectedValidatorReward = rt.expectedValidatorReward
  packedBlock : rt'.packedBlockReward = rt.packedBlockReward
  packedValidator : rt'.packedValidatorReward = rt.packedValidatorReward

theorem SameRewards.refl (rt : BidRuntime) : SameRewards rt rt := ⟨rfl, rfl, rfl, rfl, rfl⟩

theorem SameRewards.trans (h : SameRewards rt rt') (h' : SameRewards rt' rt'') :
    SameRewards rt rt'' :=
  ⟨h'.bid.trans h.bid, h'.expectedBlock.trans h.expectedBlock,
    h'.expectedValidator.trans h.expectedValidator, h'.packedBlock.trans h.packedBlock,
    h'.packedValidator.trans h.packedValidator⟩

/-! ## One turn -/

/-- What a turn does to the balance: it stays, with or without an execution, or grows by the tips
of the transaction that was executed. -/
inductive Earned (tx : Recovered) (rt : BidRuntime) (b : BlockBuilder vm) :
    BidRuntime → BlockBuilder vm → Prop where
  | skipped {rt' : BidRuntime} {b' : BlockBuilder vm} : BlockBuilder.SameBlock b b' →
      rt'.systemBalance = rt.systemBalance → Earned tx rt b rt' b'
  | unpaid {gas : UInt64} {rt' : BidRuntime} {b' : BlockBuilder vm} :
      BlockBuilder.Executed tx gas b b' → rt'.systemBalance = rt.systemBalance →
      Earned tx rt b rt' b'
  | paid {gas : UInt64} {success : Bool} {rt' : BidRuntime} {b' : BlockBuilder vm} :
      BlockBuilder.Executed tx gas b b' →
      b'.executed = b.executed ++ [(tx.tx, ⟨gas, success⟩)] →
      rt'.systemBalance = rt.systemBalance +
        BitVec.ofNat 256 (tipOf b.block.basefee (tx.tx, ⟨gas, success⟩)) →
      Earned tx rt b rt' b'

section Turn

variable {turn : TurnSurroundings} {blockGasLimit delayMs : UInt64} {fromPool : Bool} {index : Nat}

theorem takeSidecar_sameRewards (h : rt.takeSidecar turn index tx = some rt') :
    SameRewards rt rt' ∧ rt'.systemBalance = rt.systemBalance := by
  unfold takeSidecar at h
  split at h
  · split at h
    · cases h
      exact ⟨.refl rt, rfl⟩
    · split at h
      · exact nomatch h
      · cases h
        exact ⟨⟨rfl, rfl, rfl, rfl, rfl⟩, rfl⟩
  · cases h
    exact ⟨.refl rt, rfl⟩

theorem charge_balance {baseFee gas : UInt64} (success : Bool)
    (h : rt.charge baseFee tx gas = .ok rt') :
    SameRewards rt rt' ∧ rt'.systemBalance = rt.systemBalance +
      BitVec.ofNat 256 (tipOf baseFee (tx.tx, ⟨gas, success⟩)) := by
  unfold charge at h
  obtain ⟨tip, htip, h⟩ := bind_eq_ok.mp h
  cases h
  refine ⟨⟨rfl, rfl, rfl, rfl, rfl⟩, ?_⟩
  rw [ofNat_tipOf _ (unwrap_eq_ok.mp htip)]

theorem commitTurn_earned
    (h : rt.commitTurn c turn blockGasLimit fromPool delayMs index tx b = .ok (.next rt' b')) :
    SameRewards rt rt' ∧ Earned tx rt b rt' b' := by
  rcases commitTurn_next h with ⟨-, -, rfl, rfl⟩ | ⟨-, heffect⟩
  · exact ⟨.refl _, .skipped (.refl _) rfl⟩
  -- counting the blobs changes neither the rewards nor the balance
  have hcounted : SameRewards rt (rt.countBlobs tx) := ⟨rfl, rfl, rfl, rfl, rfl⟩
  cases heffect with
  | failed _ herror =>
    exact ⟨hcounted, .skipped (BlockBuilder.sameBlock_of_error herror) rfl⟩
  | refused _ hok _ => exact ⟨hcounted, .unpaid (BlockBuilder.executed_of_ok hok) rfl⟩
  | charged hok htake hcharge =>
    have hdone := BlockBuilder.executed_of_ok hok
    obtain ⟨hsame, hbalance⟩ := takeSidecar_sameRewards htake
    obtain ⟨success, hbody⟩ := hdone.executed
    obtain ⟨hsame', hpaid⟩ := charge_balance success hcharge
    rw [hbalance, hdone.block] at hpaid
    exact ⟨hcounted.trans (hsame.trans hsame'), .paid hdone hbody hpaid⟩

end Turn

/-! ## The loop -/

/-- The balance is at most what the executed transactions paid. -/
def Solvent (rt : BidRuntime) (b : BlockBuilder vm) : Prop :=
  rt.systemBalance.toNat ≤ totalTips b.block.basefee b.executed

/-- Fees per gas are numbers of 128 bits. -/
def Modest (executed : List (SignedTx × TxResult)) : Prop :=
  ∀ entry ∈ executed, entry.1.maxFeePerGas < 2 ^ 128

/-- What committing transactions does: the body grows, and so does the balance, if the fees are not
larger than they can be. -/
structure Earns (rt : BidRuntime) (b : BlockBuilder vm) (rt' : BidRuntime)
    (b' : BlockBuilder vm) : Prop where
  rewards : SameRewards rt rt'
  block : b'.block = b.block
  grows : b.executed <+: b'.executed
  accounted : b.Accounted → b'.Accounted
  balance : b.Accounted → Solvent rt b → Modest b'.executed →
    rt.systemBalance.toNat ≤ rt'.systemBalance.toNat ∧ Solvent rt' b'

theorem Earns.refl (rt : BidRuntime) (b : BlockBuilder vm) : Earns rt b rt b :=
  ⟨.refl rt, rfl, List.prefix_refl _, id, fun _ hsolvent _ => ⟨Nat.le_refl _, hsolvent⟩⟩

theorem Modest.of_grows {executed executed' : List (SignedTx × TxResult)}
    (h : Modest executed') (hgrows : executed <+: executed') : Modest executed :=
  fun entry hentry => h entry (hgrows.subset hentry)

theorem Earns.trans (h : Earns rt b rt' b') (h' : Earns rt' b' rt'' b'') :
    Earns rt b rt'' b'' := by
  refine ⟨h.rewards.trans h'.rewards, h'.block.trans h.block, h.grows.trans h'.grows,
    fun haccounted => h'.accounted (h.accounted haccounted), fun haccounted hsolvent hmodest => ?_⟩
  obtain ⟨hle, hsolvent'⟩ := h.balance haccounted hsolvent (hmodest.of_grows h'.grows)
  obtain ⟨hle', hsolvent''⟩ := h'.balance (h.accounted haccounted) hsolvent' hmodest
  exact ⟨Nat.le_trans hle hle', hsolvent''⟩

/-- A turn keeps the balance within what was paid, and the sum does not wrap. -/
theorem earns_of_earned (hsame : SameRewards rt rt') (h : Earned tx rt b rt' b') :
    Earns rt b rt' b' := by
  cases h with
  | skipped hblock hbalance =>
    refine ⟨hsame, hblock.block, hblock.executed ▸ List.prefix_refl _, fun h => h.same hblock,
      fun _ hsolvent _ => ?_⟩
    unfold Solvent at hsolvent ⊢
    rw [hbalance, hblock.block, hblock.executed]
    exact ⟨Nat.le_refl _, hsolvent⟩
  | unpaid hexecuted hbalance =>
    obtain ⟨success, hbody⟩ := hexecuted.executed
    refine ⟨hsame, hexecuted.block, hbody ▸ List.prefix_append _ _, fun h => hexecuted.accounted h,
      fun _ hsolvent _ => ?_⟩
    unfold Solvent at hsolvent ⊢
    rw [hbalance, hexecuted.block, hbody, totalTips_concat]
    exact ⟨Nat.le_refl _, Nat.le_add_right_of_le hsolvent⟩
  | @paid gas success _ _ hexecuted hbody hbalance =>
    refine ⟨hsame, hexecuted.block, hbody ▸ List.prefix_append _ _, fun h => hexecuted.accounted h,
      fun haccounted hsolvent hmodest => ?_⟩
    have hlt := (hexecuted.accounted haccounted).totalTips_lt hmodest b.block.basefee
    unfold Solvent at hsolvent ⊢
    rw [hexecuted.block]
    rw [hbody, totalTips_concat] at hlt ⊢
    simp_all
    omega

section Loop

variable {turns : Nat → TurnSurroundings} {blockGasLimit delayMs : UInt64} {fromPool : Bool}
  {index : Nat} {txs : List Recovered}

theorem earns_loop
    (h : commitTransactionRecovered c turns blockGasLimit fromPool delayMs index txs rt b
      = .ok (rt', b')) : Earns rt b rt' b' := by
  induction txs generalizing index rt b with
  | nil =>
    cases h
    exact .refl _ _
  | cons tx txs ih =>
    unfold commitTransactionRecovered at h
    obtain ⟨ended, hturn, h⟩ := bind_eq_ok.mp h
    cases ended with
    | stop =>
      cases h
      exact .refl _ _
    | next rt₁ b₁ =>
      obtain ⟨hsame, hearned⟩ := commitTurn_earned hturn
      exact (earns_of_earned hsame hearned).trans (ih h)

theorem earns_commitTransaction {bidTxs : List SignedTx}
    (h : rt.commitTransaction c turns bidTxs b blockGasLimit = .ok (rt', b')) :
    Earns rt b rt' b' := by
  unfold commitTransaction at h
  obtain ⟨recoveredTxs, -, h⟩ := bind_eq_ok.mp h
  exact earns_loop h

end Loop

/-! ## Packing -/

variable {commission : UInt64}

/-- The commission on a balance that leaves room for the multiplication. -/
theorem toNat_commission {balance : U256}
    (hbalance : balance.toNat * 10000 < 2 ^ 256) (hcommission : commission.toNat ≤ 10000) :
    (balance * U256.ofUInt64 commission / 10000).toNat
      = balance.toNat * commission.toNat / 10000 := by
  have hlt : commission.toNat < 2 ^ 256 := Nat.lt_of_le_of_lt hcommission (by decide)
  have hproduct : balance.toNat * commission.toNat < 2 ^ 256 :=
    Nat.lt_of_le_of_lt (Nat.mul_le_mul_left _ hcommission) hbalance
  have hfactor : (U256.ofUInt64 commission).toNat = commission.toNat := by
    rw [U256.ofUInt64, BitVec.toNat_ofNat, Nat.mod_eq_of_lt hlt]
  rw [BitVec.toNat_udiv, BitVec.toNat_mul, hfactor, Nat.mod_eq_of_lt hproduct]
  rfl

/-- The rewards of a runtime over the integers: the validator gets the commission on the block
reward without the builder's fee, and neither reward is below what the bid promised. -/
structure ExactRewards (commission : UInt64) (rt : BidRuntime) : Prop where
  validator : (rt.packedValidatorReward.toNat : ℤ)
    = rt.packedBlockReward.toNat * commission.toNat / 10000 - rt.bid.builderFee.toNat
  block : rt.bid.gasFee.toNat ≤ rt.packedBlockReward.toNat
  promised : (rt.bid.gasFee.toNat * commission.toNat / 10000 - rt.bid.builderFee.toNat : ℤ)
    ≤ rt.packedValidatorReward.toNat
  nonneg : (0 : ℤ) ≤ rt.bid.gasFee.toNat * commission.toNat / 10000 - rt.bid.builderFee.toNat

theorem ExactRewards.congr (h : ExactRewards commission rt)
    (hsame : SameRewards rt rt') : ExactRewards commission rt' := by
  refine ⟨?_, ?_, ?_, ?_⟩ <;> rw [hsame.bid]
  · rw [hsame.packedValidator, hsame.packedBlock]
    exact h.validator
  · rw [hsame.packedBlock]
    exact h.block
  · rw [hsame.packedValidator]
    exact h.promised
  · exact h.nonneg

/-- A balance that covers the declared fee is packed without wrapping, if the commission on the
declared fee covered the builder's. -/
theorem exactRewards_packReward {balance : U256} (hcommission : commission.toNat ≤ 10000)
    (hbalance : balance.toNat * 10000 < 2 ^ 256) (hcovers : rt.bid.gasFee.toNat ≤ balance.toNat)
    (hfee : ¬ rt.bid.gasFee * U256.ofUInt64 commission / 10000 < rt.bid.builderFee) :
    ExactRewards commission (rt.packReward commission balance) := by
  -- the declared fee is below the balance, so that neither product overflows
  have hdeclared : rt.bid.gasFee.toNat * 10000 < 2 ^ 256 :=
    Nat.lt_of_le_of_lt (Nat.mul_le_mul_right _ hcovers) hbalance
  rw [BitVec.lt_def, toNat_commission hdeclared hcommission, Nat.not_lt] at hfee
  have hmono : rt.bid.gasFee.toNat * commission.toNat / 10000
      ≤ balance.toNat * commission.toNat / 10000 :=
    Nat.div_le_div_right (Nat.mul_le_mul_right _ hcovers)
  have hpacked : (rt.packReward commission balance).packedValidatorReward.toNat
      = balance.toNat * commission.toNat / 10000 - rt.bid.builderFee.toNat := by
    show (balance * U256.ofUInt64 commission / 10000 - rt.bid.builderFee).toNat = _
    rw [BitVec.toNat_sub_of_le, toNat_commission hbalance hcommission]
    rw [BitVec.le_def, toNat_commission hbalance hcommission]
    exact Nat.le_trans hfee hmono
  have hblock : (rt.packReward commission balance).packedBlockReward = balance := rfl
  have hbid : (rt.packReward commission balance).bid = rt.bid := rfl
  refine ⟨?_, ?_, ?_, ?_⟩
  · rw [hpacked, hblock, hbid]
    omega
  · rwa [hblock, hbid]
  · rw [hpacked, hbid]
    omega
  · rw [hbid]
    omega

end BidRuntime

/-! ## A simulation -/

namespace BidSimulator

open BidRuntime

variable {vm : BuilderVm} {c : SimulatorConfig} {s s' : BidSimulator}
  {env : SimulationSurroundings vm} {rt rt₁ rt₂ rt₃ simulated : BidRuntime}
  {b₁ b₂ b₃ : BlockBuilder vm} {block : OpenBlock vm} {blockGasLimit : UInt64} {bid : Bid}

/-- The runtime of an admitted bid: nothing is earned yet, and the fee that the bid declares covers
the builder's. -/
structure Promising (s : BidSimulator) (rt : BidRuntime) : Prop where
  expectedBlock : rt.expectedBlockReward = rt.bid.gasFee
  fee : ¬ s.commissionOf rt.bid < rt.bid.builderFee
  balance : rt.systemBalance = 0

theorem Admitted.promising (h : s.Admitted rt) : Promising s rt := by
  obtain ⟨bid, attributes, miningCtx, admitted, hnew, hrt⟩ := h
  obtain ⟨hfee, rfl⟩ := newBidRuntime_eq_ok.mp hnew
  rcases hrt with rfl | rfl
  · exact ⟨rfl, hfee, rfl⟩
  · exact ⟨rfl, hfee, rfl⟩

/-- The rewards of the runtime were packed from its balance, which the block paid and which covers
what the bid declares. -/
structure Packed (s : BidSimulator) (bid : Bid) (rt : BidRuntime) (b : BlockBuilder vm) : Prop where
  sameBid : rt.bid = bid
  packed : ∃ earned : BidRuntime,
    rt = earned.packReward s.validatorCommission earned.systemBalance
  accounted : b.Accounted
  covers : Modest b.executed →
    bid.gasFee.toNat ≤ rt.systemBalance.toNat ∧ Solvent rt b

/-- After the transactions of the bid, whose rewards are found to be valid. -/
theorem packed_commitBidTxs (hpromising : Promising s rt) (hopen : openBlock c env rt = .ok block)
    (h : s.commitBidTxs c env rt block = .ok (rt₁, b₁)) : Packed s rt.bid rt₁ b₁ := by
  obtain ⟨database, systemGas, created, evm, -, rfl⟩ := openBlock_eq_ok.mp hopen
  obtain ⟨committed, hcommit, rfl, hvalid⟩ := commitBidTxs_eq_ok h
  have hearns := earns_commitTransaction hcommit
  have hnew : (opened c rt systemGas evm).builder.Accounted := BlockBuilder.accounted_new _ _
  have hstart : Solvent rt (opened c rt systemGas evm).builder := by
    rw [Solvent, hpromising.balance]
    exact Nat.zero_le _
  refine ⟨hearns.rewards.bid, ⟨committed, rfl⟩, hearns.accounted hnew, fun hmodest => ?_⟩
  refine ⟨?_, (hearns.balance hnew hstart hmodest).2⟩
  -- the check compares the balance with the declared fee
  have hblock : committed.expectedBlockReward ≤ committed.systemBalance := by
    unfold BidRuntime.validReward at hvalid
    exact of_decide_eq_true (Bool.and_eq_true_iff.mp hvalid).1
  rw [hearns.rewards.expectedBlock, hpromising.expectedBlock] at hblock
  exact BitVec.le_def.mp hblock

/-- The rewards are packed again after the merge, from a balance that has grown. -/
theorem packed_mergePool (hpacked : Packed s bid rt₁ b₁)
    (h : s.mergePool c env rt₁ blockGasLimit b₁ = .ok (rt₂, b₂)) : Packed s bid rt₂ b₂ := by
  rcases mergePool_eq_ok.mp h with ⟨-, rfl, rfl⟩ | ⟨txs, delayMs, merged, -, hloop, rfl⟩
  · exact hpacked
  · have hearns := earns_loop hloop
    refine ⟨hearns.rewards.bid.trans hpacked.sameBid, ⟨merged, rfl⟩,
      hearns.accounted hpacked.accounted, fun hmodest => ?_⟩
    obtain ⟨hcovers, hsolvent⟩ := hpacked.covers (hmodest.of_grows hearns.grows)
    obtain ⟨hle, hsolvent'⟩ := hearns.balance hpacked.accounted hsolvent hmodest
    exact ⟨Nat.le_trans hcovers hle, hsolvent'⟩

theorem Packed.exactRewards (hcommission : s.validatorCommission.toNat ≤ 10000)
    (hfee : ¬ s.commissionOf bid < bid.builderFee) (h : Packed s bid rt₂ b₂)
    (hmodest : Modest b₂.executed) : ExactRewards s.validatorCommission rt₂ := by
  obtain ⟨hcovers, hsolvent⟩ := h.covers hmodest
  have hlt := h.accounted.totalTips_lt hmodest b₂.block.basefee
  obtain ⟨earned, rfl⟩ := h.packed
  obtain rfl : earned.bid = bid := h.sameBid
  refine exactRewards_packReward hcommission ?_ hcovers hfee
  -- what a block pays is below `2 ^ 192`
  have hbalance : earned.systemBalance.toNat ≤ totalTips b₂.block.basefee b₂.executed := hsolvent
  omega

theorem sealBlock_sameRewards (h : sealBlock rt₃ b₃ = .ok simulated) :
    SameRewards rt₃ simulated := by
  unfold sealBlock at h
  obtain ⟨blockEnd, -, h⟩ := bind_eq_ok.mp h
  obtain ⟨-, h⟩ := err_if_eq_ok.mp h
  cases h
  exact ⟨rfl, rfl, rfl, rfl, rfl⟩

/-- The payment and the seal come after the last packing, and leave the rewards alone. -/
theorem Completes.exactRewards (hcommission : s.validatorCommission.toNat ≤ 10000)
    (hpromising : Promising s rt) (h : Completes c s env rt block rt₁ rt₂ rt₃ simulated b₁ b₂ b₃)
    (hmodest : Modest simulated.bscPayload.executed) :
    simulated.bid = rt.bid ∧ ExactRewards s.validatorCommission simulated ∧
      ∃ earned : BidRuntime, rt₂ = earned.packReward s.validatorCommission earned.systemBalance ∧
        simulated.packedBlockReward = earned.systemBalance := by
  have hpacked := packed_mergePool (packed_commitBidTxs hpromising h.openBlock h.commitBidTxs)
    h.mergePool
  obtain ⟨payBidTx, -, hpay⟩ := commitPayBidTx_eq_ok h.commitPayBidTx
  have hearns := earns_commitTransaction hpay
  have hsame := hearns.rewards.trans (sealBlock_sameRewards h.sealBlock)
  obtain ⟨-, -, -, -, hexecuted, -⟩ := sealBlock_eq_ok h.sealBlock
  rw [hexecuted] at hmodest
  have hrewards := hpacked.exactRewards hcommission hpromising.fee (hmodest.of_grows hearns.grows)
  refine ⟨hsame.bid.trans hpacked.sameBid, hrewards.congr hsame, ?_⟩
  obtain ⟨earned, rfl⟩ := hpacked.packed
  exact ⟨earned, rfl, hsame.packedBlock⟩

/-- What a call stores is what its simulation returned. -/
theorem simulate_of_stored {stored : BidRuntime} (hcall : s.bidSimulate c env rt = .ok s')
    (hstored : Stored s s' rt.bid.parentHash)
    (hlookup : s'.bestBid.lookup rt.bid.parentHash = some stored) :
    s.simulate c env rt = .ok stored := by
  cases simulateEffect hcall with
  | closed => exact absurd rfl hstored
  | stored hok => rw [hok, Option.some.inj ((AList.lookup_insert _).symm.trans hlookup)]
  | beaten => exact absurd rfl hstored
  | failed => exact absurd rfl hstored

/-- **The rewards of a stored bid are exact.**  Whatever fees an admitted bid declares, the rewards
that are stored with it were last packed from the balance at hand, without wrapping, and are not
below what the bid promised.  Fees per gas are of 128 bits, so that the balance times 10000 is below
`2 ^ 256`. -/
theorem bid_rewards_exact {stored : BidRuntime}
    (hcommission : s.validatorCommission.toNat ≤ 10000) (hadmitted : s.Admitted rt)
    (hcall : s.bidSimulate c env rt = .ok s') (hstored : Stored s s' rt.bid.parentHash)
    (hlookup : s'.bestBid.lookup rt.bid.parentHash = some stored)
    (hmodest : Modest stored.bscPayload.executed) :
    stored.bid = rt.bid ∧ ExactRewards s.validatorCommission stored ∧
      ∃ block rt₁ rt₂ rt₃ b₁ b₂ b₃, ∃ earned : BidRuntime,
        Completes c s env rt block rt₁ rt₂ rt₃ stored b₁ b₂ b₃ ∧
        rt₂ = earned.packReward s.validatorCommission earned.systemBalance ∧
        stored.packedBlockReward = earned.systemBalance := by
  obtain ⟨block, rt₁, rt₂, rt₃, b₁, b₂, b₃, hsteps⟩ :=
    simulate_eq_ok.mp (simulate_of_stored hcall hstored hlookup)
  obtain ⟨hbid, hrewards, earned, hlast, hblock⟩ :=
    hsteps.exactRewards hcommission hadmitted.promising hmodest
  exact ⟨hbid, hrewards, block, rt₁, rt₂, rt₃, b₁, b₂, b₃, earned, hsteps, hlast, hblock⟩

/-- Half of the declared fee goes to the builder; the pool then doubles the balance. -/
def feeBid : Bid := { highBid with gasFee := 21000, builderFee := 10500 }

theorem bid_rewards_exact_feeBid :
    ∃ rt s s' stored,
      (new 5000 true).commitNewBid fermiSimulator (calmCommit 60000000) feeBid = .ok (some rt, s) ∧
      s.bidSimulate fermiSimulator poolSimulation rt = .ok s' ∧
      s'.bestBid.lookup rt.bid.parentHash = some stored ∧
      stored.packedBlockReward = 42000 ∧ stored.packedValidatorReward = 10500 ∧
      ExactRewards 5000 stored := by
  obtain ⟨rt, s, hcommit, hbest, hsame, s', stored, hcall, hlookup, hblock, hvalidator, hmodest⟩ :
      ∃ rt s, (new 5000 true).commitNewBid fermiSimulator (calmCommit 60000000) feeBid
          = .ok (some rt, s) ∧
        s.bestBid.lookup rt.bid.parentHash = none ∧ s.validatorCommission = 5000 ∧
        ∃ s' stored, s.bidSimulate fermiSimulator poolSimulation rt = .ok s' ∧
          s'.bestBid.lookup rt.bid.parentHash = some stored ∧
          stored.packedBlockReward = 42000 ∧ stored.packedValidatorReward = 10500 ∧
          stored.bscPayload.executed.all (fun entry => entry.1.maxFeePerGas < 2 ^ 128) = true :=
    ⟨_, _, rfl, rfl, rfl, _, _, rfl, rfl, by decide +kernel, by decide +kernel, by decide +kernel⟩
  obtain ⟨-, hcommission, hadmitted⟩ := commitNewBid_spec hcommit
  have hstored : Stored s s' rt.bid.parentHash := by
    rw [Stored, hbest, hlookup]
    exact Option.some_ne_none _
  have hrewards := (bid_rewards_exact (hsame ▸ by decide) ((hadmitted rt rfl).congr hcommission)
    hcall hstored hlookup fun entry hentry => by
      simpa using List.all_eq_true.mp hmodest entry hentry).2.1
  rw [hsame] at hrewards
  exact ⟨rt, s, s', stored, hcommit, hcall, hlookup, hblock, hvalidator, hrewards⟩

end BidSimulator

namespace MevWorkWorker

open BidRuntime BidSimulator

variable {vm : BuilderVm} {c : SimulatorConfig} {w : MevWorkWorker}
  {Q : BidSimulator → SimulationSurroundings vm → BidRuntime → Prop}

/-- **In every run of the worker the best bids have exact rewards.** -/
theorem RunsWith.rewards_exact (h : RunsWith c Q w)
    (hcommission : w.simulator.validatorCommission.toNat ≤ 10000) :
    ∀ parentHash rt, w.simulator.bestBid.lookup parentHash = some rt →
      Modest rt.bscPayload.executed → ExactRewards w.simulator.validatorCommission rt := by
  refine h.bestBid (fun s env rt simulated hsame hadmitted _ hsimulate hmodest => ?_) rfl
  obtain ⟨block, rt₁, rt₂, rt₃, b₁, b₂, b₃, hsteps⟩ := simulate_eq_ok.mp hsimulate
  rw [← hsame] at hcommission ⊢
  exact (hsteps.exactRewards hcommission hadmitted.promising hmodest).2.1

/-- A worker that committed and simulated one bid. -/
theorem feeBid_rewards :
    ∃ w rt, RunsWith fermiSimulator
        (fun _ (_ : SimulationSurroundings spendingVm) _ => True) w ∧
      w.simulator.bestBid.lookup feeBid.parentHash = some rt ∧ ExactRewards 5000 rt := by
  obtain ⟨w₁, hcommit, request, hrequests, w₂, hsimulate, hsame, rt, hlookup, hmodest⟩ :
      ∃ w₁, MevWorkWorker.step fermiSimulator ⟨new 5000 true, []⟩ (.bidPackage
          (calmCommit 60000000) feeBid : Event spendingVm) = .ok w₁ ∧
        ∃ request, w₁.requests = [request] ∧
          ∃ w₂, w₁.step fermiSimulator (.simulateRequest poolSimulation) = .ok w₂ ∧
            w₂.simulator.validatorCommission = 5000 ∧
            ∃ rt, w₂.simulator.bestBid.lookup feeBid.parentHash = some rt ∧
              rt.bscPayload.executed.all (fun entry => entry.1.maxFeePerGas < 2 ^ 128) = true :=
    ⟨_, rfl, _, rfl, _, rfl, rfl, _, rfl, by decide +kernel⟩
  have hrun : RunsWith fermiSimulator
      (fun _ (_ : SimulationSurroundings spendingVm) _ => True) w₂ :=
    .commit_simulate hcommit hrequests trivial hsimulate
  have hrewards := hrun.rewards_exact (hsame ▸ by decide) _ _ hlookup fun entry hentry => by
    simpa using List.all_eq_true.mp hmodest entry hentry
  exact ⟨w₂, rt, hrun, hlookup, hsame ▸ hrewards⟩

end MevWorkWorker

end RethBsc
