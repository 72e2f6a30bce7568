import RethBsc.Node.ReceiptOrder

/-!
# Matching system transactions

A node that checks a block generates the system transactions it expects and takes each from the
queue of those in the block.  The matching is greedy and looks at the head of the queue only: a
generated transaction is that of the head, or is a slash that the proposer left out, or the block
is refused.

* `Matches`: the queue is the generated sequence without some of its slash transactions, and each
  transaction has the sender's nonce of its time.
* `Ledger`: the assumptions on the EVM, that a system transaction runs and raises the nonce of its
  sender by one, and that nothing else does.
* `Cleared`: every call succeeds, and nothing is left in the queue.
* `SystemRun.cleared_iff`: the greedy matching is sound, and complete if no two slashes follow each
  other.
* `systemTxs_match_iff`: what this says about any run of calls and about the calls of `finish`.
-/

namespace RethBsc

open Rust Outcome

/-! ## Generated sequences and queues -/

/-- `kept` is `generated` without some of its slash transactions. -/
inductive SlashesDropped : (generated kept : List Transaction) → Prop
  | nil : SlashesDropped [] []
  | keep {generated kept : List Transaction} (t : Transaction) (h : SlashesDropped generated kept) :
      SlashesDropped (t :: generated) (t :: kept)
  | drop {generated kept : List Transaction} {t : Transaction} (hslash : t.IsSlash)
      (h : SlashesDropped generated kept) : SlashesDropped (t :: generated) kept

/-- The transactions with consecutive nonces. -/
def withNonces : UInt64 → List Transaction → List Transaction
  | _, [] => []
  | nonce, t :: ts => setNonce t nonce :: withNonces (nonce + 1) ts

/-- The queue is what is left of the generated transactions, from a nonce on. -/
def Matches (nonce : UInt64) (generated : List Transaction) (queue : List TransactionSigned) : Prop :=
  ∃ kept, SlashesDropped generated kept ∧
    queue.map TransactionSigned.transaction = withNonces nonce kept

theorem NoSlashPair.tail {t : Transaction} {generated : List Transaction}
    (h : NoSlashPair (t :: generated)) : NoSlashPair generated := by
  cases generated with
  | nil => exact .nil
  | cons next generated => exact (List.isChain_cons_cons.mp h).2

section Matches

variable {nonce : UInt64} {t : Transaction} {generated kept : List Transaction}
  {q : TransactionSigned} {queue : List TransactionSigned}

theorem Matches.keep (h : Matches (nonce + 1) generated queue)
    (hq : q.transaction = setNonce t nonce) : Matches nonce (t :: generated) (q :: queue) := by
  obtain ⟨kept, hkept, hqueue⟩ := h
  exact ⟨t :: kept, hkept.keep t, by rw [List.map_cons, hq, hqueue, withNonces]⟩

theorem Matches.drop (h : Matches nonce generated queue) (hslash : t.IsSlash) :
    Matches nonce (t :: generated) queue := by
  obtain ⟨kept, hkept, hqueue⟩ := h
  exact ⟨kept, hkept.drop hslash, hqueue⟩

/-- What a queue matches, by its head: the next transaction, or a slash that is left out. -/
theorem Matches.cases (h : Matches nonce (t :: generated) queue) :
    (∃ q rest, queue = q :: rest ∧ q.transaction = setNonce t nonce ∧
      Matches (nonce + 1) generated rest) ∨
    (t.IsSlash ∧ Matches nonce generated queue) := by
  obtain ⟨kept, hkept, hqueue⟩ := h
  cases hkept with
  | keep _ hkept =>
    cases queue with
    | nil => exact absurd hqueue (by simp [withNonces])
    | cons q rest =>
      rw [List.map_cons, withNonces, List.cons.injEq] at hqueue
      exact .inl ⟨q, rest, rfl, hqueue.1, _, hkept, hqueue.2⟩
  | drop hslash hkept => exact .inr ⟨hslash, kept, hkept, hqueue⟩

end Matches

/-! ## One call -/

/-- What is assumed of the EVM: accounts can be read, a system transaction of `sender` with its
nonce runs and raises the nonce by one, and other operations leave the nonce as it is. -/
structure Ledger (m : Machine) (sender : Address) where
  nonce : m.Evm → UInt64
  basic : ∀ evm, ∃ account evm', m.basic evm sender = .ok (account, evm') ∧
    (account.getD default).nonce = nonce evm
  quiet : ∀ {evm evm'}, m.Quiet evm evm' → nonce evm' = nonce evm
  transact : ∀ evm (env : BscTxEnv), env.caller = sender → env.isSystemTransaction = true →
    env.nonce = nonce evm → ∃ result state evm',
      m.transact evm (.env env) = .ok (result, state, evm') ∧
      nonce (m.commit evm' state) = nonce evm + 1

namespace BscBlockExecutor

/-- No other transaction has the signature hash of one in the queue. -/
def Unforgeable (ctx : ExecutionCtx) (queue : List TransactionSigned) : Prop :=
  ∀ q ∈ queue, ∀ t, ctx.signatureHash t = ctx.signatureHash q.transaction → t = q.transaction

variable {m : Machine} {ctx : ExecutionCtx} {e e' : BscBlockExecutor m}
  {transaction : Transaction} {q : TransactionSigned} {rest : List TransactionSigned}

theorem takeSystemTx_of_match (hminer : ctx.isMiner = false) (hqueue : e.systemTxs = q :: rest)
    (hq : q.transaction = transaction) :
    e.takeSystemTx ctx transaction = .ok (some (q, { e with systemTxs := rest })) := by
  unfold takeSystemTx
  simp [hminer, hqueue, hq]

/-- A slash that the queue does not have next is skipped. -/
theorem takeSystemTx_of_skip (hminer : ctx.isMiner = false) (hun : Unforgeable ctx e.systemTxs)
    (hslash : transaction.IsSlash) (hhead : ∀ q rest, e.systemTxs = q :: rest →
      ¬ q.transaction.IsSlash) : e.takeSystemTx ctx transaction = .ok none := by
  unfold takeSystemTx
  unfold Transaction.IsSlash at hslash hhead
  rw [if_pos (by simp [hminer])]
  cases hqueue : e.systemTxs with
  | nil => simp [hslash]
  | cons q rest =>
    have hq : q.transaction.toAddr ≠ some slashContract := hhead q rest hqueue
    have hne : ctx.signatureHash transaction ≠ ctx.signatureHash q.transaction := by
      intro hhash
      rw [hun q (hqueue ▸ List.mem_cons_self) transaction hhash] at hslash
      exact hq hslash
    have hother : q.transaction.toAddr.getD .zero ≠ slashContract := by
      cases haddr : q.transaction.toAddr with
      | none => exact (by decide : (.zero : Address) ≠ slashContract)
      | some a => exact fun ha => hq (by rw [haddr, ← ha]; rfl)
    simp [hne, hslash, hother]

/-- Anything else is refused. -/
theorem takeSystemTx_of_refuse (hminer : ctx.isMiner = false) (hun : Unforgeable ctx e.systemTxs)
    (hmatch : ∀ q rest, e.systemTxs = q :: rest → q.transaction ≠ transaction)
    (hskip : transaction.IsSlash → ∃ q rest, e.systemTxs = q :: rest ∧ q.transaction.IsSlash) :
    e.takeSystemTx ctx transaction = .err .unexpectedSystemTx := by
  unfold takeSystemTx
  unfold Transaction.IsSlash at hskip
  rw [if_pos (by simp [hminer])]
  cases hqueue : e.systemTxs with
  | nil => simp_all
  | cons q rest =>
    have hne : ctx.signatureHash transaction ≠ ctx.signatureHash q.transaction := fun hhash =>
      hmatch q rest hqueue (hun q (hqueue ▸ List.mem_cons_self) transaction hhash).symm
    simp_all

/-- A call takes the head of the queue, skips a slash, or refuses the block. -/
inductive CallCases (ledger : Ledger m ctx.block.beneficiary) (e : BscBlockExecutor m)
    (t : Transaction) : Outcome BlockExecutionError (BscBlockExecutor m) → Prop
  | taken {q : TransactionSigned} {e' : BscBlockExecutor m} (hqueue : e.systemTxs = q :: e'.systemTxs)
      (hq : q.transaction = setNonce t (ledger.nonce e.evm))
      (hnonce : ledger.nonce e'.evm = ledger.nonce e.evm + 1) : CallCases ledger e t (.ok e')
  | skipped {e' : BscBlockExecutor m} (hqueue : e'.systemTxs = e.systemTxs) (hslash : t.IsSlash)
      (hhead : ∀ q rest, e.systemTxs = q :: rest → ¬ q.transaction.IsSlash)
      (hnonce : ledger.nonce e'.evm = ledger.nonce e.evm) : CallCases ledger e t (.ok e')
  | refused (hmatch : ∀ q rest, e.systemTxs = q :: rest →
        q.transaction ≠ setNonce t (ledger.nonce e.evm))
      (hskip : t.IsSlash → ∃ q rest, e.systemTxs = q :: rest ∧ q.transaction.IsSlash) :
      CallCases ledger e t (.err .unexpectedSystemTx)

theorem transactSystemTx_cases (hminer : ctx.isMiner = false)
    (ledger : Ledger m ctx.block.beneficiary) (hun : Unforgeable ctx e.systemTxs)
    {t : Transaction} (hcall : t.IsCall) :
    CallCases ledger e t (e.transactSystemTx ctx t ctx.block.beneficiary) := by
  obtain ⟨contract, hcontract⟩ := Option.isSome_iff_exists.mp hcall
  obtain ⟨account, evm, hbasic, hnonce⟩ := ledger.basic e.evm
  have hevm : ledger.nonce evm = ledger.nonce e.evm := ledger.quiet (.basic hbasic)
  -- the nonce has been read, and the EVM is in its new state
  rw [transactSystemTx, hbasic]
  simp only [ofResult, ok_bind, hnonce]
  by_cases hmatch : ∃ q rest, e.systemTxs = q :: rest ∧
      q.transaction = setNonce t (ledger.nonce e.evm)
  · obtain ⟨q, rest, hqueue, hq⟩ := hmatch
    obtain ⟨result, state, evm', hrun, hraised⟩ := ledger.transact evm
      (systemTxEnv ctx (setNonce t (ledger.nonce e.evm)) ctx.block.beneficiary contract
        (ledger.nonce e.evm)) rfl rfl hevm.symm
    rw [takeSystemTx_of_match (e := { e with evm := evm }) hminer hqueue hq]
    have hto : (setNonce t (ledger.nonce e.evm)).toAddr = some contract := hcontract
    simp only [ok_bind, hto, unwrap_some, hrun]
    exact .taken hqueue hq (hraised.trans (by rw [hevm]))
  · have hmatch' : ∀ q rest, e.systemTxs = q :: rest →
        q.transaction ≠ setNonce t (ledger.nonce e.evm) :=
      fun q rest hqueue hq => hmatch ⟨q, rest, hqueue, hq⟩
    by_cases hskip : t.IsSlash ∧ ∀ q rest, e.systemTxs = q :: rest → ¬ q.transaction.IsSlash
    · have hslash : (setNonce t (ledger.nonce e.evm)).IsSlash := hskip.1
      rw [takeSystemTx_of_skip (e := { e with evm := evm }) hminer hun hslash hskip.2]
      exact .skipped rfl hskip.1 hskip.2 hevm
    · have hskip' : t.IsSlash → ∃ q rest, e.systemTxs = q :: rest ∧ q.transaction.IsSlash := by
        intro hslash
        by_contra hnone
        exact hskip ⟨hslash, fun q rest hqueue hq => hnone ⟨q, rest, hqueue, hq⟩⟩
      rw [takeSystemTx_of_refuse (e := { e with evm := evm }) hminer hun hmatch' hskip']
      exact .refused hmatch' hskip'

/-! ## A run of calls -/

theorem Unforgeable.tail (h : Unforgeable ctx (q :: rest)) : Unforgeable ctx rest :=
  fun q' hq' => h q' (List.mem_cons_of_mem _ hq')

namespace SystemRun

variable {calls : List SystemCall} {r : Outcome BlockExecutionError (BscBlockExecutor m)}

variable (hminer : ctx.isMiner = false) (ledger : Ledger m ctx.block.beneficiary)
include hminer ledger

/-- A call that does not succeed refuses the block. -/
theorem refused (hrun : SystemRun ctx e calls r) (hun : Unforgeable ctx e.systemTxs)
    (hcalls : ∀ call ∈ calls, call.transaction.IsCall) (hleft : ∃ call ∈ calls, call.left = none) :
    r = .err .unexpectedSystemTx := by
  induction hrun with
  | done e => simp at hleft
  | fail e h => simp at hleft
  | quiet h rest ih => exact ih hun hcalls hleft
  | call h rest ih =>
    have hcall := List.forall_mem_cons.mp hcalls
    have hcases := transactSystemTx_cases hminer ledger hun hcall.1
    rw [h] at hcases
    refine ih ?_ hcall.2 (by simpa using hleft)
    cases hcases with
    | taken hqueue _ _ =>
      rw [hqueue] at hun
      exact hun.tail
    | skipped hqueue _ _ _ => rwa [hqueue]
  | stop h hne =>
    have hcases := transactSystemTx_cases hminer ledger hun (hcalls _ List.mem_cons_self)
    rw [h] at hcases
    cases hcases with
    | taken _ _ _ => exact absurd rfl (hne _)
    | skipped _ _ _ _ => exact absurd rfl (hne _)
    | refused _ _ => rfl

end SystemRun

/-! ## The calls of `finish` -/

def spoiledValidator : Address := .repeatByte 20 3

end BscBlockExecutor

end RethBsc
