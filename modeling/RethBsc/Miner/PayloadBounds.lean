import RethBsc.Miner.PayloadSidecars

/-!
# The resources of built payloads

The loop over the pool keeps four counts: gas, blobs, fees and, in the executor, the gas of the
whole block.  It decides with the gas limit of a transaction and books the gas that was used.

* `taken`: the transactions of the pool that end up in the body, in their order.
* `judge_eq_execute`: what is known of a transaction that is executed.
* `Ledger`: the counts are sums over the transactions taken, within their bounds; `Ledger.passed` and
  `Ledger.took` for the two things a turn can do, `Ledger.step` for a turn and `Ledger.run` for the
  loop.
* `payload_bounded`: the bounds for every payload that is built.
-/

namespace RethBsc

open Rust Outcome

namespace BscPayloadBuilder

variable {vm : BuilderVm} {p : BscPayloadBuilder} {args : BscBuildArguments}

/-- The transactions of the pool with which the turns of the loop extend the body. -/
def taken (p : BscPayloadBuilder) (args : BscBuildArguments) (env : BuildSurroundings vm)
    (blockGasLimit : UInt64) :
    (fuel turn : Nat) → env.pool.Iter → Filling vm → List (Recovered × TxResult)
  | 0, _, _, _ => []
  | fuel + 1, turn, it, st =>
    match env.pool.next it with
    | none => []
    | some (tx, it) =>
      if env.cancelled turn then []
      else
        match p.fillTurn args env blockGasLimit turn tx it st with
        | .ok (st', it) =>
          (st'.builder.executed.drop st.builder.executed.length).map (fun entry => (tx, entry.2)) ++
            taken p args env blockGasLimit fuel (turn + 1) it st'
        | _ => []

section Turn

variable {env : BuildSurroundings vm} {st st' : Filling vm} {it it' : env.pool.Iter}
  {tx : Recovered} {blockGasLimit : UInt64} {turn fuel : Nat}

/-! ## One turn -/

/-- The transaction may be in the block: it is not blacklisted and pays the tip. -/
structure Admitted (p : BscPayloadBuilder) (args : BscBuildArguments) (baseFee : UInt64)
    (tx : Recovered) : Prop where
  listed : p.config.chainSpec.isNanoActiveAtBlock (args.parentHeader.number + 1) = true →
    checkTxBasicBlacklist tx.signer tx.tx.toAddr = false
  tip : args.minGasTip ≤ (tx.tx.effectiveTipPerGas baseFee).getD 0

theorem judgeBlobs_eq_execute
    {getBlob : B256 → Except String (Option BlobTransactionSidecarVariant)} {blockBlobCount : Nat}
    {tx : SignedTx} {sidecar : Option BlobTransactionSidecarVariant}
    (h : p.judgeBlobs args getBlob blockBlobCount tx = .ok (.execute sidecar)) :
    blockBlobCount + tx.blobCount ≤ p.maxBlobCount args := by
  unfold judgeBlobs at h
  dsimp only at h
  split at h
  · exact nomatch h
  · next hfits => exact Nat.le_of_not_lt hfits

theorem book_counts {b : BlockBuilder vm} {gas : UInt64} (success : Bool)
    {sidecar : Option BlobTransactionSidecarVariant} (h : book st b tx.tx gas sidecar = .ok st') :
    st'.builder = b ∧ (tx.tx.effectiveTipPerGas b.block.basefee).isSome = true ∧
      st'.totalFees = st.totalFees +
        BitVec.ofNat 256 (tipOf b.block.basefee (tx.tx, ⟨gas, success⟩)) ∧
      st'.cumulativeGasUsed = st.cumulativeGasUsed + gas ∧
      st'.blockBlobCount = st.blockBlobCount + tx.tx.blobCount := by
  unfold book at h
  obtain ⟨fee, hfee, h⟩ := bind_eq_ok.mp h
  cases h
  have hfee := unwrap_eq_ok.mp hfee
  refine ⟨rfl, Option.isSome_iff_exists.mpr ⟨fee, hfee⟩, ?_, rfl, rfl⟩
  rw [ofNat_tipOf _ hfee]

end Turn

/-! ## The counts -/

section Ledger

variable {env : BuildSurroundings vm} {st st' : Filling vm} {it it' : env.pool.Iter}
  {tx : Recovered} {blockGasLimit : UInt64} {turn fuel : Nat} {block : BlockEnv}
  {entries : List (Recovered × TxResult)}

/-- The counts of a block that was filled with `entries`. -/
structure Ledger (p : BscPayloadBuilder) (args : BscBuildArguments) (block : BlockEnv)
    (blockGasLimit : UInt64) (entries : List (Recovered × TxResult)) (st : Filling vm) : Prop where
  environment : st.builder.block = block
  accounted : st.builder.Accounted
  body : st.builder.executed = entries.map fun entry => (entry.1.tx, entry.2)
  gas : st.cumulativeGasUsed = st.builder.gasUsed
  gas_le : st.cumulativeGasUsed.toNat ≤ blockGasLimit.toNat
  blobs : st.blockBlobCount = (entries.map fun entry => entry.1.tx.blobCount).sum
  blobs_le : st.blockBlobCount ≤ p.maxBlobCount args
  admitted : ∀ entry ∈ entries, Admitted p args block.basefee entry.1
  pays : ∀ entry ∈ entries, (entry.1.tx.effectiveTipPerGas block.basefee).isSome = true
  fees : st.totalFees = BitVec.ofNat 256 (totalTips block.basefee st.builder.executed)

theorem Ledger.empty (evm : vm.Evm) (block : BlockEnv) (blockGasLimit : UInt64) :
    Ledger p args block blockGasLimit [] (⟨.new evm block, 0, 0, 0, ∅⟩ : Filling vm) where
  environment := rfl
  accounted := BlockBuilder.accounted_new evm block
  body := rfl
  gas := rfl
  gas_le := Nat.zero_le _
  blobs := rfl
  blobs_le := Nat.zero_le _
  admitted := nofun
  pays := nofun
  fees := rfl

theorem Ledger.passed (h : Ledger p args block blockGasLimit entries st) {b : BlockBuilder vm}
    (hsame : BlockBuilder.SameBlock st.builder b) :
    Ledger p args block blockGasLimit entries { st with builder := b } :=
  { h with
    environment := hsame.block.trans h.environment
    accounted := h.accounted.same hsame
    body := hsame.executed.trans h.body
    gas := h.gas.trans hsame.gasUsed.symm
    fees := h.fees.trans (by rw [hsame.executed]) }

/-- The check with the gas limit bounds the gas used.  It cannot have overflown, as the executor
compares the gas limit with what is left in the block. -/
theorem Ledger.took_gas_le (h : Ledger p args block blockGasLimit entries st) {gas : UInt64}
    (hlimit : st.cumulativeGasUsed + tx.tx.gasLimit ≤ blockGasLimit)
    (hexecuted : BlockBuilder.Executed tx gas st.builder st'.builder) :
    (st.cumulativeGasUsed + gas).toNat ≤ blockGasLimit.toNat := by
  have hfits := hexecuted.fits_toNat h.accounted
  have hgas := hexecuted.gas_le
  have hlt := st.builder.block.gasLimit.toNat_lt
  have hle := UInt64.le_iff_toNat_le.mp hlimit
  rw [h.gas, UInt64.toNat_add] at hle ⊢
  omega

/-- A transaction that is executed passed the checks, and is booked. -/
theorem Ledger.took (h : Ledger p args block blockGasLimit entries st) {b : BlockBuilder vm}
    {gas : UInt64} {sidecar : Option BlobTransactionSidecarVariant}
    {getBlob : B256 → Except String (Option BlobTransactionSidecarVariant)}
    (hjudge : p.judge args getBlob blockGasLimit st tx = .ok (.execute sidecar))
    (hdone : BlockBuilder.Executed tx gas st.builder b)
    (hbook : book st b tx.tx gas sidecar = .ok st') :
    ∃ result, st'.builder.executed = st.builder.executed ++ [(tx.tx, result)] ∧
      Ledger p args block blockGasLimit (entries ++ [(tx, result)]) st' := by
  obtain ⟨hlisted, htip, hlimit, hverdict⟩ := judge_eq_execute hjudge
  have hroom : st.blockBlobCount + tx.tx.blobCount ≤ p.maxBlobCount args := by
    rcases hverdict with hjudged | ⟨hplain, -⟩
    · exact judgeBlobs_eq_execute hjudged
    · rw [SignedTx.blobCount_of_not_blob hplain]
      exact h.blobs_le
  obtain ⟨success, hbody⟩ := hdone.executed
  obtain ⟨rfl, hpays, hfees, hgas, hblobs⟩ := book_counts success hbook
  rw [hdone.block, h.environment] at hpays hfees
  rw [h.environment] at htip
  exact ⟨⟨gas, success⟩, hbody, {
    environment := hdone.block.trans h.environment
    accounted := hdone.accounted h.accounted
    body := by rw [hbody, h.body, List.map_append]; rfl
    gas := by rw [hgas, hdone.gasUsed, h.gas]
    gas_le := hgas ▸ h.took_gas_le hlimit hdone
    blobs := by rw [hblobs, h.blobs, List.map_append, List.sum_append]; rfl
    blobs_le := hblobs ▸ hroom
    admitted := List.forall_mem_append.mpr
      ⟨h.admitted, List.forall_mem_singleton.mpr ⟨hlisted, htip⟩⟩
    pays := List.forall_mem_append.mpr ⟨h.pays, List.forall_mem_singleton.mpr hpays⟩
    fees := by rw [hfees, h.fees, hbody, totalTips_concat, ← BitVec.ofNat_add] }⟩

/-- A turn books the transactions that it adds to the body. -/
theorem Ledger.step (h : Ledger p args block blockGasLimit entries st)
    (hturn : p.fillTurn args env blockGasLimit turn tx it st = .ok (st', it')) :
    Ledger p args block blockGasLimit (entries ++
      (st'.builder.executed.drop st.builder.executed.length).map fun entry => (tx, entry.2))
      st' := by
  rcases (fillTurn_eq_ok hturn).1 with ⟨b, hsame, rfl⟩ | ⟨sidecar, gas, b, hjudge, hdone, hbook⟩
  · show Ledger _ _ _ _ (entries ++ (b.executed.drop _).map _) _
    rw [hsame.executed, List.drop_length, List.map_nil, List.append_nil]
    exact h.passed hsame
  · obtain ⟨result, hbody, hledger⟩ := h.took hjudge hdone hbook
    rwa [hbody, List.drop_left]

/-- The loop books the transactions that it takes. -/
theorem Ledger.run (h : Ledger p args block blockGasLimit entries st)
    (hloop : p.fillLoop args env blockGasLimit fuel turn it st = .ok st') :
    Ledger p args block blockGasLimit
      (entries ++ taken p args env blockGasLimit fuel turn it st) st' := by
  induction fuel generalizing turn it st entries with
  | zero =>
    cases hloop
    rwa [taken, List.append_nil]
  | succ fuel ih =>
    unfold fillLoop at hloop
    unfold taken
    cases hnext : env.pool.next it with
    | none =>
      rw [hnext] at hloop
      cases hloop
      rwa [List.append_nil]
    | some next =>
      obtain ⟨tx, it₁⟩ := next
      rw [hnext] at hloop
      dsimp only at hloop ⊢
      by_cases hcancelled : env.cancelled turn = true
      · rw [if_pos hcancelled] at hloop ⊢
        cases hloop
        rwa [List.append_nil]
      · rw [if_neg hcancelled] at hloop ⊢
        obtain ⟨⟨st₁, it₂⟩, hturn, hrest⟩ := bind_eq_ok.mp hloop
        rw [hturn, ← List.append_assoc]
        exact ih (h.step hturn) hrest

end Ledger

/-! ## Built payloads -/

section Payload

/-- The transactions of the pool that a build takes, by the values of its steps. -/
def poolTxs (p : BscPayloadBuilder) (args : BscBuildArguments) (env : BuildSurroundings vm)
    (evm : vm.Evm) (systemTxsGas : UInt64) (blobFee : Option UInt64) :
    List (Recovered × TxResult) :=
  let it := env.bestTransactions (blockOf p args).basefee blobFee
  taken p args env (saturatingSub (blockOf p args).gasLimit systemTxsGas) (env.pool.remaining it) 0
    it ⟨.new evm (blockOf p args), 0, 0, 0, ∅⟩

/-- The resources of a payload with the transactions `entries` of the pool. -/
structure Bounded (p : BscPayloadBuilder) (args : BscBuildArguments) (systemTxsGas : UInt64)
    (entries : List (Recovered × TxResult)) (payload : BscBuiltPayload) : Prop where
  body : payload.executed = entries.map fun entry => (entry.1.tx, entry.2)
  gas : (entries.map fun entry => entry.2.gasUsed.toNat).sum
    ≤ (blockOf p args).gasLimit.toNat - systemTxsGas.toNat
  blobs : (entries.map fun entry => entry.1.tx.blobCount).sum ≤ p.maxBlobCount args
  listed : p.config.chainSpec.isNanoActiveAtBlock (args.parentHeader.number + 1) = true →
    ∀ entry ∈ entries, checkTxBasicBlacklist entry.1.signer entry.1.tx.toAddr = false
  tips : ∀ entry ∈ entries, ∃ tip,
    entry.1.tx.effectiveTipPerGas (blockOf p args).basefee = some tip ∧ args.minGasTip ≤ tip
  /-- The fees are those of all entries; a fee per gas is a number of 128 bits. -/
  fees : (∀ entry ∈ entries, entry.1.tx.maxFeePerGas < 2 ^ 128) →
    payload.fees.toNat
      = (entries.map fun entry => tipOf (blockOf p args).basefee (entry.1.tx, entry.2)).sum

variable {block : BlockEnv} {entries : List (Recovered × TxResult)} {st : Filling vm}
  {blockGasLimit : UInt64}

theorem Ledger.sum_gas (h : Ledger p args block blockGasLimit entries st) :
    (entries.map fun entry => entry.2.gasUsed.toNat).sum = st.cumulativeGasUsed.toNat := by
  rw [h.gas, h.accounted.gasUsed, h.body]
  rw [totalGas, List.map_map]
  rfl

/-- The fees do not overflow. -/
theorem Ledger.toNat_fees (h : Ledger p args block blockGasLimit entries st)
    (hfees : ∀ entry ∈ entries, entry.1.tx.maxFeePerGas < 2 ^ 128) :
    st.totalFees.toNat
      = (entries.map fun entry => tipOf block.basefee (entry.1.tx, entry.2)).sum := by
  have hexecuted : ∀ entry ∈ st.builder.executed, entry.1.maxFeePerGas < 2 ^ 128 := by
    rw [h.body]
    grind
  have hlt := h.accounted.totalTips_lt hexecuted block.basefee
  have hsum : totalTips block.basefee st.builder.executed
      = (entries.map fun entry => tipOf block.basefee (entry.1.tx, entry.2)).sum := by
    rw [h.body]
    rw [totalTips, List.map_map]
    rfl
  rw [h.fees, BitVec.toNat_ofNat, ← hsum]
  omega

theorem attach_eq_ok {blockEnd : BlockEnd} {payload : BscBuiltPayload}
    (h : attach st blockEnd = .ok payload) :
    payload.fees = st.totalFees ∧ payload.executed = st.builder.executed := by
  rw [attach_eq] at h
  obtain ⟨sidecars, -, h⟩ := bind_eq_ok.mp h
  rw [← ok.inj h]
  exact ⟨rfl, rfl⟩

theorem Ledger.bounded {systemTxsGas : UInt64} {payload : BscBuiltPayload}
    (h : Ledger p args (blockOf p args) (saturatingSub (blockOf p args).gasLimit systemTxsGas)
      entries st)
    (hfees : payload.fees = st.totalFees) (hbody : payload.executed = st.builder.executed) :
    Bounded p args systemTxsGas entries payload where
  body := hbody.trans h.body
  gas := by
    rw [h.sum_gas, ← toNat_saturatingSub]
    exact h.gas_le
  blobs := h.blobs ▸ h.blobs_le
  listed := fun hnano entry hentry => (h.admitted entry hentry).listed hnano
  tips := by
    intro entry hentry
    obtain ⟨tip, htip⟩ := Option.isSome_iff_exists.mp (h.pays entry hentry)
    have hle := (h.admitted entry hentry).tip
    rw [htip] at hle
    exact ⟨tip, htip, hle⟩
  fees := fun hbound => by rw [hfees, h.toNat_fees hbound]

/-- **Payloads stay within their resources.**  Whatever the pool offers, the execution says and
the cancellation does: the transactions of the pool in a payload fit behind the reserve, have no
more blobs than allowed, are not blacklisted and not underpriced, and the fees are theirs. -/
theorem payload_bounded (p : BscPayloadBuilder) (args : BscBuildArguments)
    (env : BuildSurroundings vm) (payload : BscBuiltPayload)
    (h : p.buildPayload args env = .ok payload) :
    ∃ database created evm systemTxsGas header blobFee st blockEnd,
      Fills p args env database created evm systemTxsGas header blobFee st blockEnd ∧
      Bounded p args systemTxsGas (poolTxs p args env evm systemTxsGas blobFee) payload := by
  unfold buildPayload at h
  obtain ⟨⟨st, blockEnd⟩, hfill, hattach⟩ := bind_eq_ok.mp h
  obtain ⟨database, created, evm, systemTxsGas, header, blobFee, hfills⟩ := fillBlock_eq_ok.mp hfill
  obtain ⟨hfees, hbody⟩ := attach_eq_ok hattach
  have hledger := (Ledger.empty evm (blockOf p args) _).run hfills.loop
  exact ⟨database, created, evm, systemTxsGas, header, blobFee, st, blockEnd, hfills,
    hledger.bounded hfees hbody⟩

/-- A pool with a transaction that needs more gas than a block has between two others. -/
def mixedPool : BuildSurroundings BidSimulator.spendingVm :=
  { oneBlobPool (.eip4844 ⟨[]⟩) with
    bestTransactions := fun _ _ =>
      [BidSimulator.plainTx 1 21000, BidSimulator.plainTx 2 70000000, oneBlobTx].map fun tx =>
        ⟨tx, .repeatByte 20 9⟩ }

/-- The payload has the first and the last of them, which use all of their gas limits. -/
theorem payload_bounded_mixedPool :
    ∃ payload, (payloadBuilder (.timestamp 1000)).buildPayload (buildArguments 999) mixedPool
        = .ok payload ∧
      payload.executed
        = [(BidSimulator.plainTx 1 21000, ⟨21000, true⟩), (oneBlobTx, ⟨21000, true⟩)] ∧
      ∃ evm systemTxsGas blobFee, Bounded (payloadBuilder (.timestamp 1000)) (buildArguments 999)
        systemTxsGas (poolTxs (payloadBuilder (.timestamp 1000)) (buildArguments 999) mixedPool evm
          systemTxsGas blobFee) payload := by
  obtain ⟨payload, hbuild, hbody⟩ : ∃ payload, (payloadBuilder (.timestamp 1000)).buildPayload
      (buildArguments 999) mixedPool = .ok payload ∧ payload.executed
        = [(BidSimulator.plainTx 1 21000, ⟨21000, true⟩), (oneBlobTx, ⟨21000, true⟩)] :=
    ⟨_, rfl, rfl⟩
  obtain ⟨_, _, evm, systemTxsGas, _, blobFee, _, _, _, hbounded⟩ :=
    payload_bounded _ _ _ payload hbuild
  exact ⟨payload, hbuild, hbody, evm, systemTxsGas, blobFee, hbounded⟩

end Payload

end BscPayloadBuilder

end RethBsc
