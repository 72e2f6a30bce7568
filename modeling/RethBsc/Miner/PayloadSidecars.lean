import RethBsc.Miner.BidResidue
import RethBsc.Miner.Payload

/-!
# The sidecars of built payloads

`build_payload` keeps the sidecar of every blob transaction that it executes, and looks it up again
when the block is finished.  Up to Osaka this always succeeds.  From Osaka on the sidecars that it
keeps have cell proofs, and the code that attaches them expects blob proofs.

* `fillTurn_eq_ok`: what a turn of the loop over the pool does.
* `Provided`: there is a sidecar for every blob transaction of the body, of the kind that the fork
  asks for.
* `attach_returns_iff`: attaching panics exactly if Osaka is active and the body has a blob
  transaction.
* **`payload_sidecars_iff`**: payloads are built with the right sidecars, for every pool and every
  blob store, exactly at the timestamps before Osaka.
-/

namespace RethBsc

open Rust Outcome

namespace BscPayloadBuilder

variable {vm : BuilderVm} {p : BscPayloadBuilder} {args : BscBuildArguments}

/-! ## The loop over the pool -/

section Loop

variable {env : BuildSurroundings vm} {st st' : Filling vm} {it it' : env.pool.Iter}
  {tx : Recovered} {blockGasLimit : UInt64} {turn fuel : Nat}

/-- The sidecar with which a transaction is executed fits the transaction and the fork. -/
def Fits (p : BscPayloadBuilder) (timestamp : UInt64) (tx : SignedTx) :
    Option BlobTransactionSidecarVariant → Prop
  | none => tx.isEip4844 = false
  | some sidecar => sidecar.isEip7594 = p.isOsakaActiveAtTimestamp timestamp

variable {taken : Option BlobTransactionSidecarVariant}
  {getBlob : B256 → Except String (Option BlobTransactionSidecarVariant)}

theorem acceptSidecar_eq_execute {timestamp : UInt64} {sidecar : BlobTransactionSidecarVariant}
    (h : p.acceptSidecar timestamp sidecar = .execute taken) :
    taken = some sidecar ∧ sidecar.isEip7594 = p.isOsakaActiveAtTimestamp timestamp := by
  unfold acceptSidecar at h
  cases hosaka : p.isOsakaActiveAtTimestamp timestamp with
  | true => grind
  | false =>
    rw [hosaka, if_neg Bool.false_ne_true] at h
    split at h
    · next hkind =>
      refine ⟨(Verdict.execute.inj h).symm, ?_⟩
      rw [BlobTransactionSidecarVariant.isEip7594, hkind]
      rfl
    · exact nomatch h

theorem judgeBlobs_fits {blockBlobCount : Nat} {tx : SignedTx}
    (h : p.judgeBlobs args getBlob blockBlobCount tx = .ok (.execute taken)) :
    Fits p args.attributes.timestamp tx taken := by
  unfold judgeBlobs at h
  dsimp only at h
  split at h
  · exact nomatch h
  · split at h
    · exact nomatch h
    · obtain ⟨found, -, h⟩ := bind_eq_ok.mp h
      cases found with
      | none => exact nomatch h
      | some sidecar =>
        obtain ⟨rfl, hkind⟩ := acceptSidecar_eq_execute (ok.inj h)
        exact hkind

/-- A transaction that is executed passed all checks. -/
theorem judge_eq_execute (h : p.judge args getBlob blockGasLimit st tx = .ok (.execute taken)) :
    (p.config.chainSpec.isNanoActiveAtBlock (args.parentHeader.number + 1) = true →
      checkTxBasicBlacklist tx.signer tx.tx.toAddr = false) ∧
    args.minGasTip ≤ (tx.tx.effectiveTipPerGas st.builder.block.basefee).getD 0 ∧
    st.cumulativeGasUsed + tx.tx.gasLimit ≤ blockGasLimit ∧
    (p.judgeBlobs args getBlob st.blockBlobCount tx.tx = .ok (.execute taken) ∨
      tx.tx.isEip4844 = false ∧ taken = none) := by
  unfold judge at h
  dsimp only at h
  split at h
  · exact nomatch h
  next hlisted =>
  split at h
  · exact nomatch h
  next htip =>
  split at h
  · exact nomatch h
  next hgas =>
  refine ⟨fun hnano => ?_, Nat.le_of_not_lt htip, UInt64.not_lt.mp hgas, ?_⟩
  · rwa [hnano, Bool.true_and, Bool.not_eq_true] at hlisted
  · split at h
    · exact .inl h
    · next hplain =>
      rw [Bool.not_eq_true] at hplain
      exact .inr ⟨hplain, (Verdict.execute.inj (ok.inj h)).symm⟩

theorem judge_fits (h : p.judge args getBlob blockGasLimit st tx = .ok (.execute taken)) :
    Fits p args.attributes.timestamp tx.tx taken := by
  obtain ⟨-, -, -, hblobs | ⟨hplain, rfl⟩⟩ := judge_eq_execute h
  · exact judgeBlobs_fits hblobs
  · exact hplain

theorem book_eq_ok {b : BlockBuilder vm} {tx : SignedTx} {gas : UInt64}
    {sidecar : Option BlobTransactionSidecarVariant} (h : book st b tx gas sidecar = .ok st') :
    st'.builder = b ∧
      st'.sidecars = sidecar.elim st.sidecars fun kept => st.sidecars.insert tx.hash kept := by
  unfold book at h
  obtain ⟨minerFee, -, h⟩ := bind_eq_ok.mp h
  cases h
  cases sidecar with
  | none => exact ⟨rfl, rfl⟩
  | some sidecar => exact ⟨rfl, rfl⟩

/-- Executing a transaction: it is invalid, or it is booked. -/
theorem executeTx_eq_ok {sidecar : Option BlobTransactionSidecarVariant}
    (h : p.executeTx args env.pool it st tx sidecar = .ok (st', it')) :
    ((∃ b, BlockBuilder.SameBlock st.builder b ∧ st' = { st with builder := b }) ∨
      ∃ gas b, BlockBuilder.Executed tx gas st.builder b ∧ book st b tx.tx gas sidecar = .ok st') ∧
    env.pool.remaining it' ≤ env.pool.remaining it := by
  unfold executeTx at h
  split at h
  · next b hexecute =>
    cases h
    exact ⟨.inl ⟨b, BlockBuilder.sameBlock_of_error hexecute, rfl⟩,
      env.pool.remaining_markInvalid it tx⟩
  · exact nomatch h
  · exact nomatch h
  · next gas b hexecute =>
    obtain ⟨booked, hbook, hrest⟩ := bind_eq_ok.mp h
    have hdone := BlockBuilder.executed_of_ok hexecute
    split at hrest
    · cases hrest
      exact ⟨.inr ⟨gas, b, hdone, hbook⟩, env.pool.remaining_skipBlobs it⟩
    · cases hrest
      exact ⟨.inr ⟨gas, b, hdone, hbook⟩, Nat.le_refl _⟩

/-- A turn passes over its transaction, or executes and books it; and it does not add to what the
pool has left. -/
theorem fillTurn_eq_ok (h : p.fillTurn args env blockGasLimit turn tx it st = .ok (st', it')) :
    ((∃ b, BlockBuilder.SameBlock st.builder b ∧ st' = { st with builder := b }) ∨ ∃ sidecar gas b,
        p.judge args (env.getBlob turn) blockGasLimit st tx = .ok (.execute sidecar) ∧
        BlockBuilder.Executed tx gas st.builder b ∧ book st b tx.tx gas sidecar = .ok st') ∧
    env.pool.remaining it' ≤ env.pool.remaining it := by
  unfold fillTurn at h
  obtain ⟨verdict, hjudge, h⟩ := bind_eq_ok.mp h
  cases verdict with
  | skip =>
    cases h
    exact ⟨.inl ⟨_, .refl _, rfl⟩, Nat.le_refl _⟩
  | invalid =>
    cases h
    exact ⟨.inl ⟨_, .refl _, rfl⟩, env.pool.remaining_markInvalid it tx⟩
  | execute sidecar =>
    obtain ⟨hpassed | ⟨gas, b, hdone, hbook⟩, hleft⟩ := executeTx_eq_ok h
    · exact ⟨.inl hpassed, hleft⟩
    · exact ⟨.inr ⟨sidecar, gas, b, hjudge, hdone, hbook⟩, hleft⟩

/-- What every turn keeps, the loop keeps. -/
theorem fillLoop_induction {P : Filling vm → Prop}
    (hstep : ∀ turn tx it st ended, P st →
      p.fillTurn args env blockGasLimit turn tx it st = .ok ended → P ended.1)
    (hstart : P st) : (p.fillLoop args env blockGasLimit fuel turn it st).Ensures P := by
  induction fuel generalizing turn it st with
  | zero => exact .of_ok hstart
  | succ fuel ih =>
    unfold fillLoop
    split
    · exact .of_ok hstart
    · next tx it₁ _ =>
      refine .ite (fun _ => .of_ok hstart) fun _ => ?_
      have hturn : (p.fillTurn args env blockGasLimit turn tx it₁ st).Ensures fun ended =>
          P ended.1 := fun ended hok => hstep turn tx it₁ st ended hstart hok
      exact hturn.bind fun ended hended => ih hended

end Loop

/-! ## Kept sidecars -/

section Provided

variable {st st' : Filling vm} {timestamp : UInt64} {tx : Recovered}

/-- There is a sidecar for every blob transaction of the body, and all are of the kind that the fork
asks for. -/
structure Provided (p : BscPayloadBuilder) (timestamp : UInt64) (st : Filling vm) : Prop where
  body : ∀ entry ∈ st.builder.executed, entry.1.isEip4844 = true →
    (st.sidecars.lookup entry.1.hash).isSome = true
  kind : Map.All (fun _ sidecar => sidecar.isEip7594 = p.isOsakaActiveAtTimestamp timestamp)
    st.sidecars

theorem isSome_lookup_insert {sidecars : Map B256 BlobTransactionSidecarVariant} {hash hash' : B256}
    {sidecar : BlobTransactionSidecarVariant} (h : hash = hash' ∨ (sidecars.lookup hash).isSome) :
    ((sidecars.insert hash' sidecar).lookup hash).isSome = true := by
  by_cases heq : hash = hash'
  · rw [heq, AList.lookup_insert]
    rfl
  · rw [AList.lookup_insert_ne heq]
    exact h.resolve_left heq

/-- A transaction that is executed is booked with a sidecar that fits, if it has blobs. -/
theorem Provided.took (h : Provided p timestamp st) {b : BlockBuilder vm} {gas : UInt64}
    {sidecar : Option BlobTransactionSidecarVariant} (hfits : Fits p timestamp tx.tx sidecar)
    (hdone : BlockBuilder.Executed tx gas st.builder b)
    (hbook : book st b tx.tx gas sidecar = .ok st') : Provided p timestamp st' := by
  obtain ⟨rfl, hsidecars⟩ := book_eq_ok hbook
  obtain ⟨success, hbody⟩ := hdone.executed
  cases sidecar with
  | none =>
    refine ⟨?_, hsidecars ▸ h.kind⟩
    rw [hbody, hsidecars]
    refine List.forall_mem_append.mpr ⟨h.body, List.forall_mem_singleton.mpr fun hblob => ?_⟩
    exact absurd (hblob.symm.trans hfits) (by decide)
  | some sidecar =>
    refine ⟨?_, hsidecars ▸ h.kind.insert hfits⟩
    rw [hbody, hsidecars]
    refine List.forall_mem_append.mpr ⟨fun entry hentry hblob => ?_,
      List.forall_mem_singleton.mpr fun _ => isSome_lookup_insert (.inl rfl)⟩
    exact isSome_lookup_insert (.inr (h.body entry hentry hblob))

theorem Provided.step {env : BuildSurroundings vm} {blockGasLimit : UInt64} {turn : Nat}
    {it : env.pool.Iter} {ended : Filling vm × env.pool.Iter}
    (h : Provided p args.attributes.timestamp st)
    (hturn : p.fillTurn args env blockGasLimit turn tx it st = .ok ended) :
    Provided p args.attributes.timestamp ended.1 := by
  rcases (fillTurn_eq_ok hturn).1 with ⟨b, hsame, heq⟩ | ⟨sidecar, gas, b, hjudge, hdone, hbook⟩
  · rw [heq]
    exact ⟨hsame.executed.symm ▸ h.body, h.kind⟩
  · exact h.took (judge_fits hjudge) hdone hbook

/-- The environment of the new block. -/
def blockOf (p : BscPayloadBuilder) (args : BscBuildArguments) : BlockEnv :=
  (p.config.evmConfig.nextEvmEnv args.parentHeader
    (args.attributes.nextBlock (p.config.gasLimit args.parentHeader.gasLimit))).blockEnv

theorem gasLimit_blockOf (p : BscPayloadBuilder) (args : BscBuildArguments) :
    (blockOf p args).gasLimit = p.config.gasLimit args.parentHeader.gasLimit := rfl

/-- The steps of a build that gets as far as a finished block. -/
structure Fills (p : BscPayloadBuilder) (args : BscBuildArguments) (env : BuildSurroundings vm)
    (database : vm.Database) (created evm : vm.Evm) (systemTxsGas : UInt64) (header : Header)
    (blobFee : Option UInt64) (st : Filling vm) (blockEnd : BlockEnd) : Prop where
  state : env.stateByBlockHash (p.config.hashSlow args.parentHeader) = .ok database
  builder : vm.builderForNextBlock database args.parentHeader
    (args.attributes.nextBlock (p.config.gasLimit args.parentHeader.gasLimit)) = .ok created
  preExecution : vm.applyPreExecutionChanges created = .ok evm
  system : p.config.systemTxsGas args.parentHeader args.attributes.timestamp
    = (.ok systemTxsGas : Outcome String UInt64)
  context : p.ctx.header = some header
  fee : p.blobFee header = .ok blobFee
  loop : p.fillLoop args env (saturatingSub (blockOf p args).gasLimit systemTxsGas)
    (env.pool.remaining (env.bestTransactions (blockOf p args).basefee blobFee)) 0
    (env.bestTransactions (blockOf p args).basefee blobFee)
    ⟨.new evm (blockOf p args), 0, 0, 0, ∅⟩ = .ok st
  finish : vm.finish st.builder.evm st.builder.executed = .ok blockEnd

theorem fillBlock_eq_ok {env : BuildSurroundings vm} {blockEnd : BlockEnd} :
    p.fillBlock args env = .ok (st, blockEnd) ↔ ∃ database created evm systemTxsGas header blobFee,
        Fills p args env database created evm systemTxsGas header blobFee st blockEnd := by
  unfold fillBlock
  simp only [bind_eq_ok, ofExcept_eq_ok, okOr_eq_ok, pure_eq, ok.injEq, Prod.mk.injEq]
  constructor
  · rintro ⟨database, hstate, created, hcreated, evm, hevm, systemTxsGas, hsystem, header, hheader,
      blobFee, hfee, filled, hloop, ended, hfinish, rfl, rfl⟩
    exact ⟨database, created, evm, systemTxsGas, header, blobFee, hstate, hcreated, hevm, hsystem,
      hheader, hfee, hloop, hfinish⟩
  · rintro ⟨database, created, evm, systemTxsGas, header, blobFee, h⟩
    exact ⟨database, h.state, created, h.builder, evm, h.preExecution, systemTxsGas, h.system,
      header, h.context, blobFee, h.fee, st, h.loop, blockEnd, h.finish, rfl, rfl⟩

theorem provided_fillBlock {env : BuildSurroundings vm} {blockEnd : BlockEnd}
    (h : p.fillBlock args env = .ok (st, blockEnd)) :
    Provided p args.attributes.timestamp st := by
  obtain ⟨database, created, evm, systemTxsGas, header, blobFee, hfills⟩ := fillBlock_eq_ok.mp h
  refine fillLoop_induction (fun _ _ _ _ _ hst hturn => hst.step hturn) ?_ st hfills.loop
  exact ⟨nofun, Map.all_empty _⟩

end Provided

/-! ## Attaching -/

section Attach

variable {sidecars : Map B256 BlobTransactionSidecarVariant} {body : List SignedTx}
  (number : UInt64) (hash : B256) (index : Nat)

/-- If all sidecars of the body are there and have blob proofs, they are attached in order. -/
theorem attachSidecars_spec (h : ∀ tx ∈ body, tx.isEip4844 = true →
      ∃ inner, sidecars.lookup tx.hash = some (.eip4844 inner)) :
    ∃ attached, attachSidecars sidecars number hash index body = .ok attached ∧
      attached.map BscBlobTransactionSidecar.place
        = (blobTxs body index).map fun entry => (entry.2, entry.1.hash, hash) := by
  induction body generalizing index with
  | nil => exact ⟨[], rfl, rfl⟩
  | cons tx body ih =>
    obtain ⟨rest, hrest, hplaces⟩ := ih (index + 1) fun tx' htx' =>
      h tx' (List.mem_cons_of_mem _ htx')
    unfold attachSidecars
    cases hblob : tx.isEip4844 with
    | true =>
      obtain ⟨inner, hinner⟩ := h tx List.mem_cons_self hblob
      rw [if_pos rfl, hinner, unwrap_some, ok_bind]
      refine ⟨⟨inner, number, hash, index, tx.hash⟩ :: rest, ?_, ?_⟩
      · show (attachSidecars sidecars number hash (index + 1) body >>= _) = _
        rw [hrest]
        rfl
      · rw [List.map_cons, hplaces, blobTxs_cons, if_pos hblob]
        rfl
    | false =>
      refine ⟨rest, by rw [if_neg Bool.false_ne_true, hrest], ?_⟩
      rw [hplaces, blobTxs_cons, hblob, if_neg Bool.false_ne_true]

/-- A sidecar with cell proofs cannot be attached. -/
theorem attachSidecars_eq_panic {tx : SignedTx}
    (hkind : Map.All (fun _ sidecar => sidecar.isEip7594 = true) sidecars) (htx : tx ∈ body)
    (hblob : tx.isEip4844 = true) :
    attachSidecars sidecars number hash index body = .panic := by
  induction body generalizing index with
  | nil => exact absurd htx List.not_mem_nil
  | cons first body ih =>
    unfold attachSidecars
    cases hfirst : first.isEip4844 with
    | true =>
      -- already the first blob transaction panics, whether its sidecar is there or not
      rw [if_pos rfl]
      cases hlookup : sidecars.lookup first.hash with
      | none => rfl
      | some sidecar =>
        have hcells := hkind first.hash sidecar hlookup
        cases sidecar with
        | eip4844 inner => exact nomatch hcells
        | eip7594 bytes => rfl
    | false => grind

end Attach

section Payload

variable {env : BuildSurroundings vm} {st : Filling vm} {blockEnd : BlockEnd}

/-- The body of the finished block. -/
def bodyWith (st : Filling vm) (blockEnd : BlockEnd) : List SignedTx :=
  (st.builder.executed ++ blockEnd.systemTxs).map Prod.fst

/-- A blob transaction of the body was executed by the builder, as the system transactions have no
blobs. -/
theorem executed_of_mem_bodyWith {tx : SignedTx} (htx : tx ∈ bodyWith st blockEnd)
    (hblob : tx.isEip4844 = true) : ∃ entry ∈ st.builder.executed, entry.1 = tx := by
  obtain ⟨entry, hentry, rfl⟩ := List.mem_map.mp htx
  rcases List.mem_append.mp hentry with hexecuted | hsystem
  · exact ⟨entry, hexecuted, rfl⟩
  · rw [blockEnd.systemTxs_legacy entry hsystem] at hblob
    exact nomatch hblob

/-- The payload of the finished block with some sidecars. -/
def payloadWith (st : Filling vm) (blockEnd : BlockEnd)
    (sidecars : List BscBlobTransactionSidecar) : BscBuiltPayload where
  block := ⟨blockEnd.number, blockEnd.hash, bodyWith st blockEnd, some sidecars⟩
  fees := st.totalFees
  executed := st.builder.executed
  systemTxs := blockEnd.systemTxs

theorem attach_eq (st : Filling vm) (blockEnd : BlockEnd) :
    attach st blockEnd
      = attachSidecars st.sidecars blockEnd.number blockEnd.hash 0 (bodyWith st blockEnd) >>=
        fun sidecars => pure (payloadWith st blockEnd sidecars) := rfl

/-- The payload has one sidecar for every blob transaction of its body, in body order. -/
def Matched (payload : BscBuiltPayload) : Prop :=
  ∃ sidecars, payload.block.sidecars = some sidecars ∧
    SidecarsMatch payload.block.transactions payload.block.hash sidecars

/-- Before Osaka the sidecars are attached. -/
theorem attach_matched (hosaka : p.isOsakaActiveAtTimestamp args.attributes.timestamp = false)
    (h : p.fillBlock args env = .ok (st, blockEnd)) :
    ∃ payload, attach st blockEnd = .ok payload ∧ Matched payload := by
  have hprovided := provided_fillBlock h
  have hall : ∀ tx ∈ bodyWith st blockEnd, tx.isEip4844 = true →
      ∃ inner, st.sidecars.lookup tx.hash = some (.eip4844 inner) := by
    intro tx htx hblob
    obtain ⟨entry, hentry, rfl⟩ := executed_of_mem_bodyWith htx hblob
    obtain ⟨sidecar, hsidecar⟩ := Option.isSome_iff_exists.mp (hprovided.body entry hentry hblob)
    have hkind := hprovided.kind entry.1.hash sidecar hsidecar
    rw [hosaka] at hkind
    cases sidecar with
    | eip4844 inner => exact ⟨inner, hsidecar⟩
    | eip7594 bytes => exact nomatch hkind
  obtain ⟨attached, hattached, hplaces⟩ := attachSidecars_spec blockEnd.number blockEnd.hash 0 hall
  refine ⟨payloadWith st blockEnd attached, ?_, attached, rfl, hplaces⟩
  rw [attach_eq, hattached]
  rfl

/-- **When attaching panics.** -/
theorem attach_returns_iff (h : p.fillBlock args env = .ok (st, blockEnd)) :
    (attach st blockEnd).Returns ↔ p.isOsakaActiveAtTimestamp args.attributes.timestamp = false ∨
        ∀ tx ∈ bodyWith st blockEnd, tx.isEip4844 = false := by
  cases hosaka : p.isOsakaActiveAtTimestamp args.attributes.timestamp with
  | false =>
    obtain ⟨payload, hpayload, -⟩ := attach_matched hosaka h
    rw [hpayload]
    simp
  | true =>
    -- all kept sidecars have cell proofs, so that only a body without blobs passes
    have hkind := (provided_fillBlock h).kind
    rw [hosaka] at hkind
    constructor
    · intro hreturns
      refine .inr fun tx htx => ?_
      by_contra hblob
      rw [Bool.not_eq_false] at hblob
      have hpanic : attach st blockEnd = .panic := by
        rw [attach_eq, attachSidecars_eq_panic _ _ _ hkind htx hblob]
        rfl
      exact hreturns hpanic
    · rintro (hfalse | hplain)
      · exact nomatch hfalse
      · have hnone : ∀ tx ∈ bodyWith st blockEnd, tx.isEip4844 = true →
            ∃ inner, st.sidecars.lookup tx.hash = some (.eip4844 inner) := by
          intro tx htx hblob
          rw [hplain tx htx] at hblob
          exact nomatch hblob
        obtain ⟨attached, hattached, -⟩ := attachSidecars_spec blockEnd.number blockEnd.hash 0 hnone
        rw [attach_eq, hattached]
        simp

/-- The build does not panic while it attaches sidecars, and what it returns carries the right
ones. -/
structure AttachesSidecars (p : BscPayloadBuilder) (env : BuildSurroundings vm)
    (args : BscBuildArguments) : Prop where
  returns : ∀ st blockEnd, p.fillBlock args env = .ok (st, blockEnd) → (attach st blockEnd).Returns
  matched : ∀ payload, p.buildPayload args env = .ok payload → Matched payload

theorem attachesSidecars_before_osaka
    (hosaka : p.isOsakaActiveAtTimestamp args.attributes.timestamp = false) :
    AttachesSidecars p env args := by
  refine ⟨fun st blockEnd h => (attach_returns_iff h).mpr (.inl hosaka), fun payload h => ?_⟩
  unfold buildPayload at h
  obtain ⟨⟨st, blockEnd⟩, hfill, hattach⟩ := bind_eq_ok.mp h
  obtain ⟨payload', hpayload', hmatched⟩ := attach_matched hosaka hfill
  simp_all

end Payload

/-! ## One blob transaction in the pool -/

/-- A pool that offers the transactions of a list, and takes nothing away. -/
def listPool : BestTransactions where
  Iter := List Recovered
  next
    | [] => none
    | tx :: txs => some (tx, txs)
  markInvalid txs _ := txs
  skipBlobs txs := txs
  remaining := List.length
  remaining_next := by
    rintro (_ | ⟨first, rest⟩) tx txs h
    · exact nomatch h
    · cases h
      exact Nat.lt_succ_self _
  remaining_markInvalid _ _ := Nat.le_refl _
  remaining_skipBlobs _ := Nat.le_refl _

def oneBlobTx : SignedTx :=
  { BidSimulator.plainTx 9 21000 with blobVersionedHashes := some [b256OfUInt64 9] }

/-- The pool has one blob transaction, and the blob store has its sidecar. -/
def oneBlobPool (sidecar : BlobTransactionSidecarVariant) :
    BuildSurroundings BidSimulator.spendingVm where
  stateByBlockHash _ := .ok ()
  pool := listPool
  bestTransactions _ _ := [⟨oneBlobTx, .repeatByte 20 9⟩]
  cancelled _ := false
  getBlob _ _ := .ok (some sidecar)

/-- A builder on the first block of a chain. -/
def payloadBuilder (osaka : ForkCondition) : BscPayloadBuilder where
  config := BidSimulator.fermiSimulator
  osakaActivation := osaka
  ctx := ⟨some default, default, loneSnapshot⟩

def buildArguments (timestamp : UInt64) : BscBuildArguments where
  parentHeader := { (default : Header) with gasLimit := 60000000 }
  attributes := { dueAttributes 0 with timestamp }
  minGasTip := 0

/-- From Osaka on the build panics on the blob transaction, before it does not. -/
theorem buildPayload_panics_from_osaka :
    (payloadBuilder (.timestamp 1000)).buildPayload (buildArguments 1003)
      (oneBlobPool (.eip7594 [])) = .panic ∧
    ∃ payload, (payloadBuilder (.timestamp 1000)).buildPayload (buildArguments 999)
      (oneBlobPool (.eip4844 ⟨[]⟩)) = .ok payload ∧
      payload.block.sidecars = some [⟨⟨[]⟩, 2, b256OfUInt64 2, 0, oneBlobTx.hash⟩] := by
  exact ⟨rfl, _, rfl, rfl⟩

/-- Behind a block at time 0 the reserve is at most the hard limit. -/
theorem systemTxsGas_le {c : SimulatorConfig} {parent : Header} (hparent : parent.timestamp = 0)
    (timestamp : UInt64) : ∃ systemTxsGas, c.systemTxsGas parent timestamp
      = (.ok systemTxsGas : Outcome String UInt64) ∧ systemTxsGas.toNat ≤ 20000000 := by
  unfold SimulatorConfig.systemTxsGas Parlia.estimateGasReservedForSystemTxs isBreatheBlock
  simp only [if_pos hparent]
  split
  · exact ⟨systemTxsGasSoftLimit, rfl, by decide⟩
  · exact ⟨systemTxsGasHardLimit, rfl, by decide⟩

theorem maxBlobCount_payloadBuilder (osaka : ForkCondition) (timestamp : UInt64) :
    (payloadBuilder osaka).maxBlobCount (buildArguments timestamp) = 6 := by
  rfl

/-- The blob transaction with cell proofs is accepted from Osaka on. -/
theorem judge_oneBlobTx {osaka : ForkCondition} {timestamp blockGasLimit : UInt64}
    (st : Filling BidSimulator.spendingVm) (hosaka : osaka.activeAtTimestamp timestamp = true)
    (hgas : st.cumulativeGasUsed = 0) (hblobs : st.blockBlobCount = 0)
    (hlimit : 21000 ≤ blockGasLimit.toNat) :
    (payloadBuilder osaka).judge (buildArguments timestamp) (fun _ => .ok (some (.eip7594 [])))
      blockGasLimit st ⟨oneBlobTx, .repeatByte 20 9⟩
        = .ok (.execute (some (.eip7594 []))) := by
  have hlisted : checkTxBasicBlacklist (.repeatByte 20 9) oneBlobTx.toAddr = false := by
    decide +kernel
  have hfits : ¬ st.cumulativeGasUsed + oneBlobTx.gasLimit > blockGasLimit := by
    rw [hgas]
    exact UInt64.not_lt.mpr (UInt64.le_iff_toNat_le.mpr hlimit)
  have hmax := maxBlobCount_payloadBuilder osaka timestamp
  have hcount : oneBlobTx.blobCount = 1 := rfl
  have hblobGas : oneBlobTx.blobGasUsed / blobTxBlobGasPerBlob = 1 := by decide
  have haccept : (payloadBuilder osaka).acceptSidecar timestamp (.eip7594 [])
      = .execute (some (.eip7594 [])) := by
    have hactive : (payloadBuilder osaka).isOsakaActiveAtTimestamp timestamp = true := hosaka
    rw [acceptSidecar, if_pos hactive]
    rfl
  have hblob : (payloadBuilder osaka).judgeBlobs (buildArguments timestamp)
      (fun _ => .ok (some (.eip7594 []))) 0 oneBlobTx = .ok (.execute (some (.eip7594 []))) := by
    unfold judgeBlobs
    simp only [hmax, hcount, hblobGas]
    exact congrArg ok haccept
  unfold judge
  simp only [hlisted, Bool.and_false, Bool.false_eq_true, if_false, if_neg hfits]
  rwa [if_neg (show ¬ _ < (buildArguments timestamp).minGasTip from Nat.not_lt_zero _), hblobs]

/-- An empty block. -/
def emptyFilling (block : BlockEnv) : Filling BidSimulator.spendingVm :=
  ⟨.new () block, 0, 0, 0, ∅⟩

/-- The blob transaction is executed and ends up in the body. -/
theorem executeTx_oneBlobTx (osaka : ForkCondition) (timestamp : UInt64) {block : BlockEnv}
    (hgas : block.gasLimit = 60000000) (hfee : block.basefee = 0) :
    ∃ st, (payloadBuilder osaka).executeTx (buildArguments timestamp) listPool ([] : List Recovered)
        (emptyFilling block) ⟨oneBlobTx, .repeatByte 20 9⟩ (some (.eip7594 []))
          = .ok (st, ([] : List Recovered)) ∧
      st.builder.executed = [(oneBlobTx, ⟨21000, true⟩)] := by
  have hfits : ¬ oneBlobTx.gasLimit > block.gasLimit - 0 := by
    rw [hgas]
    decide
  obtain ⟨b, hexecute, hblock, hbody⟩ : ∃ b, (emptyFilling block).builder.executeTransaction
      ⟨oneBlobTx, .repeatByte 20 9⟩ = (.ok 21000, b) ∧ b.block = block ∧
      b.executed = [(oneBlobTx, ⟨21000, true⟩)] := ⟨_, if_neg hfits, rfl, rfl⟩
  have htip : oneBlobTx.effectiveTipPerGas b.block.basefee = some 1 := by
    rw [hblock, hfee]
    rfl
  unfold executeTx book
  rw [hexecute]
  dsimp only
  rw [htip, unwrap_some, ok_bind, pure_eq, ok_bind]
  -- the pool of the list takes nothing away, so that the two branches agree
  split
  · exact ⟨_, rfl, hbody⟩
  · exact ⟨_, rfl, hbody⟩

/-- The block with the one blob transaction is filled at every timestamp from Osaka on. -/
theorem fillBlock_oneBlobPool {osaka : ForkCondition} {timestamp : UInt64}
    (hosaka : osaka.activeAtTimestamp timestamp = true) :
    ∃ st blockEnd, (payloadBuilder osaka).fillBlock (buildArguments timestamp)
        (oneBlobPool (.eip7594 [])) = .ok (st, blockEnd) ∧
      oneBlobTx ∈ bodyWith st blockEnd := by
  have hparent : (buildArguments timestamp).parentHeader.timestamp = 0 := rfl
  obtain ⟨systemTxsGas, hsystem, hle⟩ :=
    systemTxsGas_le (c := BidSimulator.fermiSimulator) hparent timestamp
  have hgas : (blockOf (payloadBuilder osaka) (buildArguments timestamp)).gasLimit = 60000000 := by
    rw [gasLimit_blockOf]
    unfold payloadBuilder BidSimulator.fermiSimulator buildArguments
    dsimp only
    decide +kernel
  have hlimit : 21000 ≤ (saturatingSub (blockOf (payloadBuilder osaka)
      (buildArguments timestamp)).gasLimit systemTxsGas).toNat := by
    rw [hgas, toNat_saturatingSub, show (60000000 : UInt64).toNat = 60000000 from rfl]
    omega
  obtain ⟨st, hexecute, hbody⟩ := executeTx_oneBlobTx osaka timestamp hgas rfl
  have hjudge := judge_oneBlobTx (emptyFilling
    (blockOf (payloadBuilder osaka) (buildArguments timestamp))) hosaka rfl rfl hlimit
  refine ⟨st, ⟨2, b256OfUInt64 2, [], by simp⟩, ?_, ?_⟩
  · refine fillBlock_eq_ok.mpr ⟨(), (), (), systemTxsGas, default, none, rfl, rfl, rfl, hsystem,
      rfl, rfl, ?_, rfl⟩
    -- one turn, after which the iterator is empty
    exact bind_eq_ok.mpr ⟨(st, []), bind_eq_ok.mpr ⟨_, hjudge, hexecute⟩, rfl⟩
  · rw [bodyWith, hbody]
    exact List.mem_cons_self

/-- **Payloads carry the right sidecars before Osaka, and only before.**  At a timestamp before
Osaka every build, whatever the chain, the pool and the blob store, attaches the sidecars and
matches them with the body; at any other timestamp some build panics. -/
theorem payload_sidecars_iff (osaka : ForkCondition) (timestamp : UInt64) :
    (∀ (p : BscPayloadBuilder) (vm : BuilderVm) (env : BuildSurroundings vm)
      (args : BscBuildArguments), p.osakaActivation = osaka →
      args.attributes.timestamp = timestamp → AttachesSidecars p env args) ↔
    osaka.activeAtTimestamp timestamp = false := by
  constructor
  · intro h
    by_contra hosaka
    rw [Bool.not_eq_false] at hosaka
    obtain ⟨st, blockEnd, hfill, hmem⟩ := fillBlock_oneBlobPool hosaka
    have hattaches := h (payloadBuilder osaka) _ (oneBlobPool (.eip7594 []))
      (buildArguments timestamp) rfl rfl
    rcases (attach_returns_iff hfill).mp (hattaches.returns st blockEnd hfill) with hoff | hplain
    · rw [show (payloadBuilder osaka).isOsakaActiveAtTimestamp
        (buildArguments timestamp).attributes.timestamp = true from hosaka] at hoff
      exact nomatch hoff
    · exact nomatch (show oneBlobTx.isEip4844 = false from hplain oneBlobTx hmem)
  · rintro hosaka p vm env args rfl rfl
    exact attachesSidecars_before_osaka hosaka

end BscPayloadBuilder

end RethBsc
