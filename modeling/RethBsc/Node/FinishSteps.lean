import RethBsc.Node.PostExecution

/-!
# What reading the contracts keeps

Finishing a block is a sequence of system transactions with reads and balance changes between
them.  Here are the steps that generate no transaction.

* `Machine.Quiet`: the EVM went through operations other than a system transaction.
* `QuietKept`: a property that quiet operations keep.  Reading the contracts keeps it, and so does
  the last step of a node that checks a block if the property does not depend on the caches.
-/

namespace RethBsc

open Rust

/-- Operations that finishing a block does besides system transactions. -/
inductive Machine.Quiet (m : Machine) : m.Evm → m.Evm → Prop
  | basic {evm evm' : m.Evm} {address : Address} {account : Option AccountInfo}
      (h : m.basic evm address = .ok (account, evm')) : Quiet m evm evm'
  | loadCacheAccount {evm evm' : m.Evm} {address : Address} {balance : Option Nat}
      (h : m.loadCacheAccount evm address = .ok (balance, evm')) : Quiet m evm evm'
  | drainBalance (evm : m.Evm) (address : Address) : Quiet m evm (m.drainBalance evm address).2
  | incrementBalance {evm evm' : m.Evm} {address : Address} {amount : Nat}
      (h : m.incrementBalance evm address amount = .ok evm') : Quiet m evm evm'
  | upgradeContracts {evm evm' : m.Evm} {number timestamp parentTimestamp : UInt64}
      (h : m.upgradeContracts evm number timestamp parentTimestamp = .ok evm') : Quiet m evm evm'
  /-- A call whose changes are not committed. -/
  | call {evm evm' : m.Evm} {env : BscTxEnv} {result : m.ExecutionResult} {state : m.EvmState}
      (hread : env.isSystemTransaction = false)
      (h : m.transact evm (.env env) = .ok (result, state, evm')) : Quiet m evm evm'

theorem ofResult_eq_ok {α : Type} {f : String → BlockExecutionError} {x : Except String α} {a : α} :
    ofResult f x = .ok a ↔ x = .ok a := by
  cases x with
  | ok b => simp [ofResult]
  | error e => simp [ofResult]

namespace BscBlockExecutor

variable {m : Machine} {ctx : ExecutionCtx} {P : BscBlockExecutor m → Prop}
  {e : BscBlockExecutor m}

/-- A property that quiet operations keep. -/
structure QuietKept (P : BscBlockExecutor m → Prop) : Prop where
  quiet : ∀ {e : BscBlockExecutor m} {evm : m.Evm}, m.Quiet e.evm evm → P e → P { e with evm }

/-! ## Reading the contracts -/

namespace QuietKept

theorem ethCall (hP : QuietKept P) (he : P e) (contract : Address) (data : Bytes) :
    (e.ethCall ctx contract data).Ensures fun r => P r.2 := by
  unfold BscBlockExecutor.ethCall
  refine .bind (fun r hr => hP.quiet (.call rfl (ofResult_eq_ok.mp hr)) he) fun r hr => ?_
  exact .ite (fun _ => .of_err _) fun _ => .bind_any fun _ => .of_ok hr

theorem getTurnLength (hP : QuietKept P) (he : P e) (number timestamp : UInt64) :
    (e.getTurnLength ctx number timestamp).Ensures fun r => P r.2 := by
  unfold BscBlockExecutor.getTurnLength
  refine .ite (fun _ => ?_) fun _ => .of_ok he
  exact .bind (hP.ethCall he _ _) fun _ hcall => .bind_any fun _ => .of_ok hcall

theorem getCurrentValidators (hP : QuietKept P) (he : P e) (number : UInt64) :
    (e.getCurrentValidators ctx number).Ensures fun r => P r.2 := by
  unfold BscBlockExecutor.getCurrentValidators
  refine .ite (fun _ => ?_) fun _ => ?_
  · exact .bind (hP.ethCall he _ _) fun _ hcall => .bind_any fun _ => .of_ok hcall
  · exact .bind (hP.ethCall he _ _) fun _ hcall => .bind_any fun _ => .of_ok hcall

theorem verifyTurnLength (hP : QuietKept P) (he : P e) : (e.verifyTurnLength ctx).Ensures P := by
  unfold BscBlockExecutor.verifyTurnLength
  refine .bind_any fun header => .bind_any fun snap => .ite (fun _ => .of_ok he) fun _ => ?_
  split
  · exact .of_ok he
  · exact .of_err _
  · refine .bind (hP.getTurnLength he _ _) fun r hr => ?_
    exact .ite (fun _ => .of_ok hr) fun _ => .of_err _

theorem upgradeAtBlockEnd (hP : QuietKept P) (he : P e) (parentTimestamp : UInt64) :
    (e.upgradeAtBlockEnd ctx parentTimestamp).Ensures P := by
  unfold BscBlockExecutor.upgradeAtBlockEnd
  refine .ite (fun _ => ?_) fun _ => .of_ok he
  exact .bind (fun r hr => hP.quiet (.upgradeContracts (ofResult_eq_ok.mp hr)) he) fun _ h₁ => .of_ok h₁

/-- The last step of a node that checks a block also writes to the two caches. -/
theorem cacheForNextEpoch (hP : QuietKept P)
    (hcaches : ∀ {e : BscBlockExecutor m} validatorCache turnLengthCache, P e →
      P { e with validatorCache, turnLengthCache })
    (he : P e) : (e.cacheForNextEpoch ctx).Ensures P := by
  unfold BscBlockExecutor.cacheForNextEpoch
  refine .bind_any fun header => .bind_any fun snap => .ite (fun _ => .of_ok he) fun _ => ?_
  have hvalidators : (e.getCurrentValidatorsWithCache ctx header.number
      (ctx.crypto.hashSlow header)).Ensures fun r => P r.2 := by
    unfold getCurrentValidatorsWithCache
    split
    · exact .of_ok (hcaches _ _ he)
    · exact .bind (hP.getCurrentValidators he _) fun _ hread => .of_ok (hcaches _ _ hread)
  refine .bind hvalidators fun r hr => .ite (fun _ => .of_ok hr) fun _ => ?_
  exact .bind (hP.getTurnLength hr _ _) fun _ hread => .of_ok (hcaches _ _ hread)

end QuietKept

end BscBlockExecutor

end RethBsc
