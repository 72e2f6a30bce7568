import RethBsc.Node.SystemCalls
import RethBsc.Parlia.AssembleRobust

/-!
# The order of receipts

The receipts of a block are numbered like its transactions: receipt `i` belongs to transaction `i`
of the body.  The executor pushes the receipts of user transactions while it walks over the body,
and those of system transactions when it finishes the block.

* `owed`: the transactions with a receipt, and after them those still in the queue.  No step of
  finishing a block changes it (`finish_owed`), since each receipt pushed is for the head of the
  queue.
* `executeBlock_receipts`: the receipts are those of the user transactions, in order, and then
  those of the system transactions, in order.
* `receipts_align_iff`: so they follow the body when no user transaction comes after a system
  transaction.  Nothing checks that.
-/

namespace RethBsc

open Rust

/-! ## Two phases -/

/-- Moving the elements with `p` to the end leaves a list as it is when they are there already. -/
theorem filter_not_append_filter_eq_self_iff {α : Type} {p : α → Bool} {l : List α} :
    (l.filter fun a => !p a) ++ l.filter p = l ↔ l.Pairwise fun a b => p a = true → p b = true := by
  induction l with
  | nil => simp
  | cons a l ih =>
    rw [List.pairwise_cons]
    cases hp : p a with
    | false => simp [hp, ih]
    | true =>
      rw [List.filter_cons_of_neg (by simp [hp]), List.filter_cons_of_pos hp]
      constructor
      · intro h
        -- a user transaction of the rest would stand first on the left
        have hnone : (l.filter fun b => !p b) = [] := by
          cases hfilter : l.filter fun b => !p b with
          | nil => rfl
          | cons b rest =>
            rw [hfilter, List.cons_append, List.cons.injEq] at h
            have hb := List.of_mem_filter (hfilter ▸ List.mem_cons_self : b ∈ l.filter fun b => !p b)
            rw [h.1, hp] at hb
            simp at hb
        simp_all
      · rintro ⟨hall, -⟩
        have hall : ∀ b ∈ l, p b = true := fun b hb => hall b hb rfl
        rw [List.filter_eq_nil_iff.mpr (by simpa using hall), List.filter_eq_self.mpr hall,
          List.nil_append]

namespace BscBlockExecutor

variable {m : Machine} {ctx : ExecutionCtx} {e : BscBlockExecutor m}

/-- The transactions that have a receipt, and after them those that wait for one. -/
def owed (e : BscBlockExecutor m) : List TransactionSigned :=
  e.receipts.map ReceiptBuilderCtx.tx ++ e.systemTxs

/-! ## Generated transactions -/

/-- A node that checks a block takes the head of the queue. -/
theorem takeSystemTx_eq_ok_some (hminer : ctx.isMiner = false) {transaction : Transaction}
    {tx : TransactionSigned} {e' : BscBlockExecutor m}
    (h : e.takeSystemTx ctx transaction = .ok (some (tx, e'))) :
    e.systemTxs = tx :: e'.systemTxs ∧ e'.receipts = e.receipts := by
  grind [takeSystemTx, Outcome.pure_eq, Outcome.ok.injEq, Option.some.injEq, Prod.mk.injEq]

theorem transactSystemTx_owed (hminer : ctx.isMiner = false) (transaction : Transaction)
    (sender : Address) :
    (e.transactSystemTx ctx transaction sender).Ensures fun e' => e'.owed = e.owed := by
  unfold transactSystemTx
  refine .bind_any fun r => .bind (fun _ htake => htake) fun taken htake => ?_
  match taken with
  | none => exact .of_ok rfl
  | some (tx, e') =>
    obtain ⟨hqueue, hreceipts⟩ := takeSystemTx_eq_ok_some hminer htake
    refine .bind_any fun kind => .bind_any fun result => .of_ok ?_
    show (e'.receipts ++ [_]).map ReceiptBuilderCtx.tx ++ e'.systemTxs = e.owed
    rw [owed, show e.systemTxs = tx :: e'.systemTxs from hqueue, hreceipts, List.map_append,
      List.append_assoc]
    rfl

/-- Nothing that finishes a block changes what is owed. -/
theorem owed_kept (hminer : ctx.isMiner = false) (owed : List TransactionSigned) :
    Kept ctx fun e : BscBlockExecutor m => e.owed = owed where
  quiet _ he := he
  call transaction he _ hcall := (transactSystemTx_owed hminer transaction _ _ hcall).trans he

/-- The check passes with an empty queue only, so nothing is owed but the receipts. -/
theorem finish_owed (hminer : ctx.isMiner = false) :
    (e.finish ctx).Ensures fun e' => e'.receipts.map ReceiptBuilderCtx.tx = e.owed := by
  intro e' he'
  obtain ⟨e₁, howed, hempty, hcache⟩ := (owed_kept hminer e.owed).finish rfl hminer e' he'
  have hreads : QuietKept fun e₂ : BscBlockExecutor m => e₂.receipts = e₁.receipts := ⟨fun _ h => h⟩
  rw [hreads.cacheForNextEpoch (fun _ _ h => h) rfl e' hcache, ← howed, owed, hempty,
    List.append_nil]

/-! ## The body -/

theorem executeTransaction_receipts (tx : TransactionSigned) :
    (e.executeTransactionWithResultClosure ctx tx).Ensures fun r =>
      r.2.receipts.map ReceiptBuilderCtx.tx
          = e.receipts.map ReceiptBuilderCtx.tx ++ [tx].filter (fun tx => !ctx.isSystem tx) ∧
        r.2.systemTxs = e.systemTxs ++ [tx].filter ctx.isSystem := by
  unfold executeTransactionWithResultClosure
  refine .ite (fun hsystem => .of_ok ?_) fun huser => ?_
  · simp [hsystem]
  · have huser : ctx.isSystem tx = false := by simpa using huser
    refine .bind_any fun evm => .ite (fun _ => .of_err _) fun _ => ?_
    refine .bind_any fun r => .bind_any fun _ => .of_ok ?_
    simp [huser, commitTransaction]

/-- User transactions get their receipts, system transactions are queued. -/
theorem executeTransactions_receipts (body : List TransactionSigned) :
    (executeTransactions ctx body e).Ensures fun e' =>
      e'.receipts.map ReceiptBuilderCtx.tx
          = e.receipts.map ReceiptBuilderCtx.tx ++ body.filter (fun tx => !ctx.isSystem tx) ∧
        e'.systemTxs = e.systemTxs ++ body.filter ctx.isSystem := by
  induction body generalizing e with
  | nil => exact .of_ok (by simp)
  | cons tx body ih =>
    refine .bind (executeTransaction_receipts tx) fun r h => ?_
    intro e' he'
    obtain ⟨hreceipts, hqueue⟩ := ih e' he'
    rw [hreceipts, hqueue, h.1, h.2, List.append_assoc, List.append_assoc, ← List.filter_append,
      ← List.filter_append]
    exact ⟨rfl, rfl⟩

/-- The receipts of a block that passes: user transactions first, then system transactions. -/
theorem executeBlock_receipts (hminer : ctx.isMiner = false) {evm : m.Evm}
    {validatorCache : LruMap B256 (List Address × List VoteAddress)}
    {turnLengthCache : LruMap B256 UInt8} (body : List TransactionSigned) :
    (executeBlock ctx (new evm validatorCache turnLengthCache) body).Ensures fun e' =>
      e'.receipts.map ReceiptBuilderCtx.tx
        = body.filter (fun tx => !ctx.isSystem tx) ++ body.filter ctx.isSystem := by
  unfold executeBlock
  refine .bind (executeTransactions_receipts body) fun e₁ h₁ => ?_
  intro e' he'
  rw [finish_owed hminer e' he', owed, h₁.1, h₁.2]
  rfl

/-! ## Alignment -/

/-- There are as many receipts as transactions, and receipt `i` is built for transaction `i`. -/
structure ReceiptsAlign (body : List TransactionSigned) (e : BscBlockExecutor m) : Prop where
  length : e.result.receipts.length = body.length
  built : ∀ (i : Nat) tx, body[i]? = some tx → ∃ built, built.tx = tx ∧ e.receipts[i]? = some built ∧
    e.result.receipts[i]? = some (m.buildReceipt built)

theorem receiptsAlign_iff_map_tx {body : List TransactionSigned} :
    ReceiptsAlign body e ↔ e.receipts.map ReceiptBuilderCtx.tx = body := by
  constructor
  · intro h
    refine List.ext_getElem? fun i => ?_
    rw [List.getElem?_map]
    cases hi : body[i]? with
    | some tx =>
      obtain ⟨built, rfl, hbuilt, -⟩ := h.built i tx hi
      rw [hbuilt]
      rfl
    | none =>
      have hlen : e.receipts.length = body.length := by simpa [result] using h.length
      simp_all
  · rintro rfl
    refine ⟨by simp [result], fun i tx hi => ?_⟩
    rw [List.getElem?_map, Option.map_eq_some_iff] at hi
    obtain ⟨built, hbuilt, htx⟩ := hi
    exact ⟨built, htx, hbuilt, by rw [result, List.getElem?_map, hbuilt]; rfl⟩

/-- No user transaction comes after a system transaction. -/
def SystemTxsLast (ctx : ExecutionCtx) (body : List TransactionSigned) : Prop :=
  body.Pairwise fun a b => ctx.isSystem a = true → ctx.isSystem b = true

/-- **When the receipts follow the body.**  For every block that a node checks with success, they do
exactly when its system transactions stand at the end. -/
theorem receipts_align_iff (ctx : ExecutionCtx) (hminer : ctx.isMiner = false) (evm : m.Evm)
    (validatorCache : LruMap B256 (List Address × List VoteAddress))
    (turnLengthCache : LruMap B256 UInt8) (body : List TransactionSigned) (e' : BscBlockExecutor m)
    (hexecute : executeBlock ctx (new evm validatorCache turnLengthCache) body = .ok e') :
    ReceiptsAlign body e' ↔ SystemTxsLast ctx body := by
  rw [receiptsAlign_iff_map_tx, executeBlock_receipts hminer body e' hexecute]
  exact filter_not_append_filter_eq_self_iff

/-! ### A block with its system transaction first -/

/-- An EVM of which only the collected fees are seen: a user transaction pays 21000. -/
def feeMachine : Machine where
  Evm := Nat
  ExecutionResult := UInt64
  EvmState := Nat
  Receipt := UInt64
  gasUsed gas := gas
  isSuccess _ := true
  output _ := none
  transact fees
    | .recovered _ _ => .ok (21000, fees + 21000, fees)
    | .env _ => .ok (50000, fees, fees)
  commit _ fees := fees
  buildReceipt built := built.cumulativeGasUsed
  basic fees _ := .ok (none, fees)
  loadCacheAccount fees _ := .ok (some fees, fees)
  drainBalance fees _ := (fees, 0)
  incrementBalance fees _ _ := .ok fees
  patchBeforeTx fees _ := .ok fees
  patchAfterTx fees _ := .ok fees
  upgradeContracts fees _ _ _ := .ok fees

/-- Call data that consists of its arguments. -/
def plainContracts : SystemContract where
  chainId := 56
  slashInput := FixedBytes.val
  depositInput := FixedBytes.val
  distributeFinalityRewardInput validators _ := validators.flatMap FixedBytes.val
  updateValidatorSetV2Input validators _ _ := validators.flatMap FixedBytes.val
  initInput := []
  initializeInput := []
  getMiningValidatorsInput := []
  getMiningValidatorsInputBeforeLuban := []
  getValidatorsInputBeforeLuban := []
  getTurnLengthInput := []
  unpackDataIntoValidatorSet _ := none
  unpackDataIntoValidatorSetBeforeLuban _ := none
  unpackDataIntoTurnLength _ := none

/-- A transfer of 7 that pays 21000 of fees. -/
def transferTx : TransactionSigned where
  transaction := ⟨.legacy, some 56, 0, 21000, 1, 7, [], some (.repeatByte 20 9), []⟩
  signature := .repeatByte 65 2

/-- What the proposer signs to pass the fees on. -/
def depositTx : TransactionSigned where
  transaction := plainContracts.distributeToValidator loneValidator 21000
  signature := .repeatByte 65 1

def keplerSpec : ChainSpec where
  bscForkActivation
    | .kepler => .timestamp 0
    | _ => .never
  ethereumForkActivation
    | .london => .block 0
    | _ => .never

/-- Block 2, which the lone validator proposed in turn. -/
def depositCtx : ExecutionCtx where
  parlia := .ofSpec keplerSpec
  crypto := markedCrypto
  lookups :=
    { voteLookups with
      snapshotByHash := fun h =>
        if h = b256OfUInt64 2 then
          some { voteSnapshot with blockNumber := 2, blockHash := b256OfUInt64 2 }
        else some voteSnapshot }
  systemContracts := plainContracts
  block := ⟨2, loneValidator, 6, diffInturn, none, 30000000, 0, none⟩
  blockNumber := 2
  blockTimestamp := 6
  number_eq := rfl
  timestamp_eq := rfl
  isMiner := false
  parentHash := b256OfUInt64 1
  innerCtx :=
    { currentValidators := none, maxElectedValidators := none, validatorsElectionInfo := none
      snap := some voteSnapshot
      header := some { loneHeader 2 with beneficiary := loneValidator, difficulty := diffInturn }
      parentHeader := some (loneHeader 1) }
  signer tx := if tx = depositTx then loneValidator else .repeatByte 20 8
  signatureHash transaction := b256OfNat transaction.value
  signSystemTransaction := none
  breatheBlockInterval := 86400
  addressText := FixedBytes.toHex

/-- Any order of the two transactions ends in this state. -/
def depositedExecutor : BscBlockExecutor feeMachine :=
  { BscBlockExecutor.new (m := feeMachine) (0 : Nat) (.new 1024) (.new 1024) with
    gasUsed := 71000
    receipts := [⟨transferTx, (0 : Nat), (21000 : UInt64), (21000 : Nat), 21000⟩,
      ⟨depositTx, (0 : Nat), (50000 : UInt64), (0 : Nat), 71000⟩] }

/-- The deposit stands first in the body, and its receipt comes last. -/
theorem deposit_first_misaligned :
    executeBlock depositCtx (new (m := feeMachine) (0 : Nat) (.new 1024) (.new 1024))
        [depositTx, transferTx] = .ok depositedExecutor ∧
      ¬ ReceiptsAlign [depositTx, transferTx] depositedExecutor := by
  refine ⟨by rfl, fun h => ?_⟩
  obtain ⟨built, htx, hbuilt, -⟩ := h.built 0 depositTx rfl
  cases hbuilt
  exact absurd htx (by decide)

theorem deposit_last_aligned : ReceiptsAlign [transferTx, depositTx] depositedExecutor :=
  (receipts_align_iff depositCtx rfl (0 : Nat) (.new 1024) (.new 1024) [transferTx, depositTx]
    depositedExecutor (by rfl)).mpr (by unfold SystemTxsLast; decide)

end BscBlockExecutor

end RethBsc
