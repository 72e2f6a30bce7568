import RethBsc.Miner.NewHeader
import RethBsc.Miner.Sidecars

/-!
# The block builder

`src/node/evm/builder.rs`, with `execute_transaction_with_commit_condition` of
`src/node/evm/executor.rs`, as the payload builder and the bid simulator use them.  Transactions are
executed one by one and end up in the body in this order; the system transactions of the block
follow when the block is finished.

The executor refuses a transaction whose gas limit exceeds the gas that is left in the whole block.
It knows of no reserve for the system transactions.

* `executed_of_ok`: what a successful execution adds.
* `Accounted`: the gas counter of the executor is the sum over the executed transactions, and does
  not exceed the gas limit of the block.
* `Accounted.totalTips_lt`: what the transactions pay fits into 192 bits.
-/

namespace RethBsc

open Rust

/-- What execution says of a transaction. -/
structure TxResult where
  gasUsed : UInt64
  success : Bool
  deriving DecidableEq

inductive ExecuteError where
  | transactionGasLimitMoreThanAvailableBlockGas (transactionGasLimit blockAvailableGas : UInt64)
  /-- `BlockValidationError::InvalidTx`. -/
  | invalidTx (nonceTooLow : Bool) (error : String)
  | evm (error : String)
  deriving DecidableEq

/-- What finishing a block adds to it.  The system transactions are signed legacy transactions. -/
structure BlockEnd where
  number : UInt64
  hash : B256
  systemTxs : List (SignedTx × TxResult)
  systemTxs_legacy : ∀ entry ∈ systemTxs, entry.1.isEip4844 = false

/-- The EVM over a state, and the end of a block.  Execution may warm the caches of the EVM also
when it fails.  A transaction never uses more gas than its limit. -/
structure BuilderVm where
  Database : Type
  Evm : Type
  /-- `builder_for_next_block`. -/
  builderForNextBlock : Database → Header → NextBlockEnvAttributes → Except String Evm
  applyPreExecutionChanges : Evm → Except String Evm
  /-- `transact`, with the changes committed. -/
  transact : Evm → Recovered → Except ExecuteError TxResult × Evm
  gasUsed_le : ∀ evm tx result,
    (transact evm tx).1 = .ok result → result.gasUsed.toNat ≤ tx.tx.gasLimit.toNat
  /-- The end of a block with the given transactions. -/
  finish : Evm → List (SignedTx × TxResult) → Except String BlockEnd

structure BlockBuilder (vm : BuilderVm) where
  evm : vm.Evm
  block : BlockEnv
  /-- The gas counter of the executor. -/
  gasUsed : UInt64
  /-- The transactions with their receipts. -/
  executed : List (SignedTx × TxResult)

/-- The gas of some transactions. -/
def totalGas (executed : List (SignedTx × TxResult)) : Nat :=
  (executed.map fun entry => entry.2.gasUsed.toNat).sum

theorem totalGas_append (l l' : List (SignedTx × TxResult)) :
    totalGas (l ++ l') = totalGas l + totalGas l' := by
  unfold totalGas
  rw [List.map_append, List.sum_append]

theorem totalGas_singleton (entry : SignedTx × TxResult) :
    totalGas [entry] = entry.2.gasUsed.toNat := by
  simp [totalGas]

/-- What a transaction pays to the proposer. -/
def tipOf (baseFee : UInt64) (entry : SignedTx × TxResult) : Nat :=
  (entry.1.effectiveTipPerGas baseFee).getD 0 * entry.2.gasUsed.toNat

/-- What some transactions pay to the proposer. -/
def totalTips (baseFee : UInt64) (executed : List (SignedTx × TxResult)) : Nat :=
  (executed.map (tipOf baseFee)).sum

theorem totalTips_concat (baseFee : UInt64) (l : List (SignedTx × TxResult))
    (entry : SignedTx × TxResult) :
    totalTips baseFee (l ++ [entry]) = totalTips baseFee l + tipOf baseFee entry := by
  simp [totalTips]

/-- Transactions with bounded fees pay at most the bound for each unit of gas. -/
theorem totalTips_le {bound : Nat} (baseFee : UInt64) {executed : List (SignedTx × TxResult)}
    (h : ∀ entry ∈ executed, entry.1.maxFeePerGas < bound) :
    totalTips baseFee executed ≤ bound * totalGas executed := by
  induction executed with
  | nil => exact Nat.zero_le _
  | cons entry executed ih =>
    have hfee : entry.1.maxFeePerGas < bound := h entry List.mem_cons_self
    have hentry : tipOf baseFee entry ≤ bound * entry.2.gasUsed.toNat := Nat.mul_le_mul_right _
        (Nat.le_trans (entry.1.effectiveTipPerGas_le baseFee) (Nat.le_of_lt hfee))
    have hrest := ih fun entry' hentry' => h entry' (List.mem_cons_of_mem _ hentry')
    have htips : totalTips baseFee (entry :: executed)
        = tipOf baseFee entry + totalTips baseFee executed := by simp [totalTips]
    have hgas : totalGas (entry :: executed)
        = entry.2.gasUsed.toNat + totalGas executed := by simp [totalGas]
    rw [htips, hgas, Nat.mul_add]
    omega

namespace BlockBuilder

variable {vm : BuilderVm}

/-- A builder at the start of a block. -/
def new (evm : vm.Evm) (block : BlockEnv) : BlockBuilder vm := ⟨evm, block, 0, []⟩

def executeTransaction (b : BlockBuilder vm) (tx : Recovered) :
    Except ExecuteError UInt64 × BlockBuilder vm :=
  let blockAvailableGas := b.block.gasLimit - b.gasUsed
  if tx.tx.gasLimit > blockAvailableGas then
    (.error (.transactionGasLimitMoreThanAvailableBlockGas tx.tx.gasLimit blockAvailableGas), b)
  else
    match vm.transact b.evm tx with
    | (.error e, evm) => (.error e, { b with evm })
    | (.ok result, evm) =>
      (.ok result.gasUsed,
        { b with
          evm
          gasUsed := b.gasUsed + result.gasUsed
          executed := b.executed ++ [(tx.tx, result)] })

/-- The two builders differ in the state of the EVM only. -/
structure SameBlock (b b' : BlockBuilder vm) : Prop where
  block : b'.block = b.block
  gasUsed : b'.gasUsed = b.gasUsed
  executed : b'.executed = b.executed

theorem SameBlock.refl (b : BlockBuilder vm) : SameBlock b b := ⟨rfl, rfl, rfl⟩

/-- The transaction was executed and is the last of the body now. -/
structure Executed (tx : Recovered) (gas : UInt64) (b b' : BlockBuilder vm) : Prop where
  block : b'.block = b.block
  fits : tx.tx.gasLimit ≤ b.block.gasLimit - b.gasUsed
  gas_le : gas.toNat ≤ tx.tx.gasLimit.toNat
  gasUsed : b'.gasUsed = b.gasUsed + gas
  executed : ∃ success, b'.executed = b.executed ++ [(tx.tx, ⟨gas, success⟩)]

variable {b b' : BlockBuilder vm} {tx : Recovered}

variable {gas : UInt64}

theorem executed_of_ok (h : b.executeTransaction tx = (.ok gas, b')) :
    Executed tx gas b b' := by
  unfold executeTransaction at h
  dsimp only at h
  split at h
  · exact nomatch h
  · next hfits =>
    have hle : tx.tx.gasLimit ≤ b.block.gasLimit - b.gasUsed := UInt64.not_lt.mp hfits
    split at h
    · exact nomatch h
    · next result evm hrun =>
      have hgas := vm.gasUsed_le b.evm tx result (by rw [hrun])
      obtain ⟨hout, rfl⟩ := Prod.mk.inj h
      cases hout
      exact ⟨rfl, hle, hgas, rfl, result.success, rfl⟩

theorem sameBlock_of_error {e : ExecuteError} (h : b.executeTransaction tx = (.error e, b')) :
    SameBlock b b' := by
  unfold executeTransaction at h
  dsimp only at h
  split at h
  · obtain ⟨-, rfl⟩ := Prod.mk.inj h
    exact .refl b
  · split at h
    · obtain ⟨-, rfl⟩ := Prod.mk.inj h
      exact ⟨rfl, rfl, rfl⟩
    · exact nomatch h

/-! ## The gas counter -/

/-- The counter is the sum over the executed transactions, within the gas limit of the block. -/
structure Accounted (b : BlockBuilder vm) : Prop where
  gasUsed : b.gasUsed.toNat = totalGas b.executed
  gasUsed_le : b.gasUsed.toNat ≤ b.block.gasLimit.toNat

theorem accounted_new (evm : vm.Evm) (block : BlockEnv) : (new evm block).Accounted :=
  ⟨rfl, Nat.zero_le _⟩

theorem Accounted.same (h : b.Accounted) (hsame : SameBlock b b') : b'.Accounted := by
  refine ⟨?_, ?_⟩
  · rw [hsame.gasUsed, hsame.executed]
    exact h.gasUsed
  · rw [hsame.gasUsed, hsame.block]
    exact h.gasUsed_le

/-- The gas limit of a transaction that was executed fits behind the gas used before it. -/
theorem Executed.fits_toNat (h : b.Accounted) (hexec : Executed tx gas b b') :
    b.gasUsed.toNat + tx.tx.gasLimit.toNat ≤ b.block.gasLimit.toNat := by
  have hle := UInt64.le_iff_toNat_le.mp hexec.fits
  have hused := h.gasUsed_le
  rw [UInt64.toNat_sub_of_le _ _ (UInt64.le_iff_toNat_le.mpr hused)] at hle
  omega

theorem Executed.gasUsed_toNat (h : b.Accounted) (hexec : Executed tx gas b b') :
    b'.gasUsed.toNat = b.gasUsed.toNat + gas.toNat := by
  have hfits := hexec.fits_toNat h
  have hgas := hexec.gas_le
  have hlimit := b.block.gasLimit.toNat_lt
  rw [hexec.gasUsed, UInt64.toNat_add]
  omega

theorem Executed.accounted (h : b.Accounted) (hexec : Executed tx gas b b') :
    b'.Accounted := by
  have hfits := hexec.fits_toNat h
  have hgas := hexec.gas_le
  have hsum := hexec.gasUsed_toNat h
  obtain ⟨success, hbody⟩ := hexec.executed
  refine ⟨?_, ?_⟩
  · rw [hsum, hbody, totalGas_append, totalGas_singleton, h.gasUsed]
  · rw [hsum, hexec.block]
    omega

/-- A fee per gas is a number of 128 bits, and the gas one of 64. -/
theorem Accounted.totalTips_lt (h : b.Accounted)
    (hfees : ∀ entry ∈ b.executed, entry.1.maxFeePerGas < 2 ^ 128) (baseFee : UInt64) :
    totalTips baseFee b.executed < 2 ^ 192 := by
  have hle := totalTips_le baseFee hfees
  have hgas := b.gasUsed.toNat_lt
  rw [← h.gasUsed] at hle
  omega

end BlockBuilder

end RethBsc
