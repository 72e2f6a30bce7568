import RethBsc.Node.ForkChoice
import RethBsc.Parlia.AccountableSafety

/-!
# Coherence of the fork choice states

The safe and the finalized block of a fork choice state come from two halves of the vote data of a
snapshot, and the two are not written together: an attestation always moves the target, and the
source only if it finalizes something.  Both stay ancestors of the head.

* `HashTree` asks only that the hashes of known headers do not collide.  `VerifiedRun` is a chain
  of verified headers with the snapshot of each; the caches may differ from header to header.
* `findAncestor_spec`: what the walk of the verifier finds is an ancestor.
* `VotesOnChain` is the invariant: the recorded target and source are ancestors, and the source is
  genesis or was the target of an earlier snapshot.  `VotesOnChain.keep` and `VotesOnChain.record`
  are the steps, `VerifiedRun.votesOnChain` is the run.
* `sent_coherent`: every state that is sent is coherent.
-/

namespace RethBsc

open Rust Relation

/-! ## Trees of headers -/

structure HashTree (hashSlow : Header → B256) where
  known : Set Header
  genesis : Header
  genesis_mem : genesis ∈ known
  hash_injOn : Set.InjOn hashSlow known

namespace HashTree

variable {hashSlow : Header → B256} (tree : HashTree hashSlow)

def IsParent (a b : Header) : Prop := a ∈ tree.known ∧ b.parentHash = hashSlow a

/-- `a` is below `b`: one or more parent hashes lead from `b` to `a`. -/
def IsBelow : Header → Header → Prop := TransGen tree.IsParent

end HashTree

def BlockTree.toHashTree {hashSlow : Header → B256} (tree : BlockTree hashSlow) :
    HashTree hashSlow :=
  ⟨tree.known, tree.genesis, tree.genesis_mem, tree.hash_injOn⟩

/-- The caches give known headers with the hash asked for, and no block 0 but genesis. -/
structure Lookups.FaithfulTo {hashSlow : Header → B256} (lookups : Lookups)
    (tree : HashTree hashSlow) : Prop where
  headerByHash : ∀ h header, lookups.headerByHash h = some header →
    header ∈ tree.known ∧ hashSlow header = h
  headerByNumber_zero : ∀ header, lookups.headerByNumber 0 = some header → header = tree.genesis

/-- A chain of headers down to genesis, the newest first, with their snapshots.  After genesis Plato
is active, each header was verified against the snapshot of its parent and then applied to it. -/
inductive VerifiedRun (c : Crypto) (p : Parlia) (tree : HashTree c.hashSlow) :
    List (Header × Snapshot) → Prop
  | genesis {validators : List Address} {voteAddrs : Option (List VoteAddress)} {s : Snapshot}
      (h : Snapshot.new validators 0 (c.hashSlow tree.genesis) defaultEpochLength voteAddrs
        = .ok s) :
      VerifiedRun c p tree [(tree.genesis, s)]
  | block {lookups : Lookups} {parent header : Header} {run : List (Header × Snapshot)}
      {s s' : Snapshot} {validator : Address} {newValidators : List Address}
      {voteAddrs : Option (List VoteAddress)} {attestation : Option VoteAttestation}
      {turnLength : Option UInt8} (before : VerifiedRun c p tree ((parent, s) :: run))
      (hl : lookups.FaithfulTo tree) (hknown : header ∈ tree.known)
      (hparent : header.parentHash = c.hashSlow parent)
      (hplato : p.spec.isPlatoActiveAtBlock header.number = true)
      (hverify : p.verifyVoteAttestation c lookups s header parent = .ok ())
      (hattestation : p.getVoteAttestationFromHeader header c.decode s.epochNum = .ok attestation)
      (happly : s.apply c.hashSlow p.spec validator header newValidators voteAddrs attestation
        turnLength = .ok s') :
      VerifiedRun c p tree ((header, s') :: (parent, s) :: run)

section Run

variable {c : Crypto} {lookups : Lookups} {p : Parlia} {tree : HashTree c.hashSlow}
  {run : List (Header × Snapshot)} {head parent header : Header} {s s' : Snapshot}
  {attestation : VoteAttestation}

namespace VerifiedRun

theorem head_known (h : VerifiedRun c p tree ((head, s) :: run)) : head ∈ tree.known := by
  cases h with
  | genesis _ => exact tree.genesis_mem
  | block _ _ hknown => exact hknown

theorem genesis_below (h : VerifiedRun c p tree ((head, s) :: run)) :
    ReflTransGen tree.IsParent tree.genesis head := by
  generalize hentries : (head, s) :: run = entries at h
  induction h generalizing head s run with
  | genesis _ => grind
  | block before _ _ hparent _ _ _ _ ih =>
    obtain ⟨⟨rfl, -⟩, -⟩ := by simpa using hentries
    exact (ih rfl).tail ⟨before.head_known, hparent⟩

end VerifiedRun

theorem VerifiedStep.verifiedRun {listed : List Header} {validator : Address}
    {attestation : Option VoteAttestation}
    (hstep : VerifiedStep c lookups p listed validator parent header s s' attestation)
    (hl : lookups.FaithfulTo tree) (hlisted : ∀ h ∈ listed, h ∈ tree.known)
    (hplato : p.spec.isPlatoActiveAtBlock header.number = true)
    (before : VerifiedRun c p tree ((parent, s) :: run)) :
    VerifiedRun c p tree ((header, s') :: (parent, s) :: run) :=
  before.block hl (hlisted _ hstep.1) hstep.2.1 hplato hstep.2.2.1 hstep.2.2.2.1 hstep.2.2.2.2

/-- The walk of the verifier finds the target among the parent and what is below it. -/
theorem findAncestor_spec (hl : lookups.FaithfulTo tree) {data : VoteData} {n : Nat}
    {ancestor : Header} (hknown : parent ∈ tree.known)
    (h : findAncestor c lookups data n parent = .ok ancestor) :
    ancestor ∈ tree.known ∧ ReflTransGen tree.IsParent ancestor parent ∧
      ancestor.number = data.targetNumber ∧ c.hashSlow ancestor = data.targetHash := by
  induction n generalizing parent with
  | zero => exact absurd h (by simp [findAncestor])
  | succ n ih =>
    rw [findAncestor] at h
    split at h
    · next hmatch =>
      cases h
      exact ⟨hknown, .refl, hmatch⟩
    · obtain ⟨next, hlookup, h⟩ := except_bind_eq_ok.mp h
      obtain ⟨hnext, hhash⟩ := hl.headerByHash _ _ (orError_eq_ok.mp hlookup)
      obtain ⟨hancestor, hbelow, hmatch⟩ := ih hnext h
      exact ⟨hancestor, hbelow.tail ⟨hnext, hhash.symm⟩, hmatch⟩

/-! ## The invariant -/

/-- The snapshot of `head` has recorded ancestors of `head`, whose snapshots are in `run`. -/
structure VotesOnChain (c : Crypto) (tree : HashTree c.hashSlow) (head : Header) (s : Snapshot)
    (run : List (Header × Snapshot)) : Prop where
  target : s.voteData = default ∨
    ∃ b ∈ tree.known, tree.IsBelow b head ∧ b.number = s.voteData.targetNumber ∧
      c.hashSlow b = s.voteData.targetHash
  source : s.voteData.sourceHash = .zero ∨
    ∃ b, tree.IsBelow b head ∧ b.number = s.voteData.sourceNumber ∧
      c.hashSlow b = s.voteData.sourceHash ∧
      (b = tree.genesis ∨ ∃ e ∈ run, e.2.voteData.targetNumber = b.number ∧
        e.2.voteData.targetHash = c.hashSlow b)

namespace VotesOnChain

/-- A block that records no source keeps the old one. -/
theorem source_keep (h : VotesOnChain c tree parent s run) (hparent : tree.IsParent parent header)
    (hnumber : s'.voteData.sourceNumber = s.voteData.sourceNumber)
    (hhash : s'.voteData.sourceHash = s.voteData.sourceHash) :
    s'.voteData.sourceHash = .zero ∨
      ∃ b, tree.IsBelow b header ∧ b.number = s'.voteData.sourceNumber ∧
        c.hashSlow b = s'.voteData.sourceHash ∧
        (b = tree.genesis ∨ ∃ e ∈ (parent, s) :: run, e.2.voteData.targetNumber = b.number ∧
          e.2.voteData.targetHash = c.hashSlow b) := by
  rw [hnumber, hhash]
  refine h.source.imp_right fun ⟨b, hbelow, hb, hbhash, horigin⟩ => ?_
  refine ⟨b, hbelow.tail hparent, hb, hbhash, horigin.imp_right fun ⟨e, he, htarget⟩ => ?_⟩
  exact ⟨e, List.mem_cons_of_mem _ he, htarget⟩

theorem keep (h : VotesOnChain c tree parent s run) (hparent : tree.IsParent parent header)
    (heq : s'.voteData = s.voteData) : VotesOnChain c tree header s' ((parent, s) :: run) where
  target := by
    rw [heq]
    exact h.target.imp_right fun ⟨b, hknown, hbelow, hmatch⟩ =>
      ⟨b, hknown, hbelow.tail hparent, hmatch⟩
  source := h.source_keep hparent (by rw [heq]) (by rw [heq])

/-- The justified block of a snapshot is genesis or its recorded target. -/
theorem justified (h : VotesOnChain c tree parent s run) (hl : lookups.FaithfulTo tree)
    (hgenesis : ReflTransGen tree.IsParent tree.genesis parent) {j : Header}
    (hj : getJustifiedHeader lookups s = .ok j) :
    ReflTransGen tree.IsParent j parent ∧ (j = tree.genesis ∨ s.voteData.targetNumber = j.number ∧
        s.voteData.targetHash = c.hashSlow j) := by
  unfold getJustifiedHeader at hj
  split at hj
  · rw [hl.headerByNumber_zero j (orError_eq_ok.mp hj)]
    exact ⟨hgenesis, .inl rfl⟩
  · next hrecorded =>
    obtain ⟨hknown, hhash⟩ := hl.headerByHash _ _ (orError_eq_ok.mp hj)
    rcases h.target with hdefault | ⟨b, hbknown, hbelow, hnumber, hbhash⟩
    · rw [hdefault] at hrecorded
      exact absurd ⟨rfl, rfl⟩ hrecorded
    · obtain rfl : j = b := tree.hash_injOn hknown hbknown (hhash.trans hbhash.symm)
      exact ⟨hbelow.to_reflTransGen, .inr ⟨hnumber.symm, hhash.symm⟩⟩

/-- A verified attestation makes its target the recorded one.  Its source is recorded only if it is
right below the target, and is the justified block of the parent's snapshot. -/
theorem record (h : VotesOnChain c tree parent s run) (hparent : tree.IsParent parent header)
    (hl : lookups.FaithfulTo tree) (hgenesis : ReflTransGen tree.IsParent tree.genesis parent)
    {n : Nat} {target justified : Header}
    (htarget : findAncestor c lookups attestation.data n parent = .ok target)
    (hjustified : getJustifiedHeader lookups s = .ok justified)
    (hnumber : attestation.data.sourceNumber = justified.number)
    (hhash : attestation.data.sourceHash = c.hashSlow justified)
    (hrecord : s'.voteData = recordVote s.voteData attestation.data) :
    VotesOnChain c tree header s' ((parent, s) :: run) where
  target := by
    obtain ⟨hknown, hbelow, htargetNumber, htargetHash⟩ := findAncestor_spec hl hparent.1 htarget
    refine .inr ⟨target, hknown, .tail' hbelow hparent, ?_, ?_⟩
    · rw [hrecord, recordVote_targetNumber, htargetNumber]
    · rw [hrecord, recordVote_targetHash, htargetHash]
  source := by
    unfold recordVote at hrecord
    split at hrecord
    · exact h.source_keep hparent (by rw [hrecord]) (by rw [hrecord])
    · obtain ⟨hbelow, horigin⟩ := h.justified hl hgenesis hjustified
      refine .inr ⟨justified, .tail' hbelow hparent, ?_, ?_, horigin.imp_right fun hs => ?_⟩
      · rw [hrecord, hnumber]
      · rw [hrecord, hhash]
      · exact ⟨(parent, s), List.mem_cons_self, hs⟩

end VotesOnChain

theorem VerifiedRun.votesOnChain (h : VerifiedRun c p tree ((head, s) :: run)) :
    VotesOnChain c tree head s run := by
  generalize hentries : (head, s) :: run = entries at h
  induction h generalizing head s run with
  | genesis hnew =>
    obtain ⟨⟨rfl, rfl⟩, rfl⟩ := by simpa using hentries
    obtain ⟨_, -, hs⟩ := Outcome.bind_eq_ok.mp hnew
    have hvote : s.voteData = default := by rw [← Outcome.ok.inj hs]
    exact ⟨.inl hvote, .inl (by rw [hvote]; rfl)⟩
  | @block lookups parent header run s s' _ _ _ attestation _ before hl hknown hparent hplato
      hverify hattestation happly ih =>
    obtain ⟨⟨rfl, rfl⟩, rfl⟩ := by simpa using hentries
    have hbefore := ih rfl
    have hlink : tree.IsParent parent head := ⟨before.head_known, hparent⟩
    have hupdate := (Snapshot.apply_spec happly).voteData
    cases attestation with
    | none => exact hbefore.keep hlink hupdate
    | some attestation =>
      obtain ⟨-, target, justified, -, htarget, hjustified, hnumber, hhash, -, -⟩ :=
        (verifyVoteAttestation_eq_ok hplato hattestation).mp hverify
      rw [updateAttestation_some] at hupdate
      split at hupdate
      · exact hbefore.keep hlink hupdate
      · exact hbefore.record hlink hl before.genesis_below htarget hjustified hnumber hhash hupdate

end Run

/-! ## The states sent -/

/-- The provider gives known headers, and the snapshot of a known header is the one of its own
chain. -/
structure Surroundings.FaithfulTo (io : Surroundings) (c : Crypto) (p : Parlia)
    (tree : HashTree c.hashSlow) : Prop where
  headerByNumber : ∀ n header, io.headerByNumber n = .ok (some header) → header ∈ tree.known
  snapshotOf : ∀ header ∈ tree.known, ∀ s,
    BscForkChoiceEngine.snapshotOf c.hashSlow io header = some s →
      ∃ run, VerifiedRun c p tree ((header, s) :: run)

/-- A fork choice state for `head` whose snapshot is `snap`: the safe block is zero or the target
that the snapshot has recorded, an ancestor of the head at the recorded number; the finalized block
is zero or the source, likewise, and is genesis or was the target of the snapshot of an ancestor. -/
structure ForkchoiceState.Coherent (c : Crypto) (p : Parlia) (tree : HashTree c.hashSlow)
    (head : Header) (snap : Option Snapshot) (state : ForkchoiceState) : Prop where
  known : head ∈ tree.known
  headBlockHash : state.headBlockHash = c.hashSlow head
  safe : state.safeBlockHash = .zero ∨
    ∃ s ∈ snap, state.safeBlockHash = s.voteData.targetHash ∧
      ∃ b, tree.IsBelow b head ∧ b.number = s.voteData.targetNumber ∧
        c.hashSlow b = state.safeBlockHash
  finalized : state.finalizedBlockHash = .zero ∨
    ∃ s ∈ snap, state.finalizedBlockHash = s.voteData.sourceHash ∧
      ∃ run, VerifiedRun c p tree ((head, s) :: run) ∧
        ∃ b, tree.IsBelow b head ∧ b.number = s.voteData.sourceNumber ∧
          c.hashSlow b = state.finalizedBlockHash ∧
          (b = tree.genesis ∨ ∃ e ∈ run, e.2.voteData.targetNumber = b.number ∧
            e.2.voteData.targetHash = c.hashSlow b)

namespace BscForkChoiceEngine

variable {c : Crypto} {p : Parlia} {tree : HashTree c.hashSlow} {io : Surroundings}
  {head : Header}

theorem currentHead_known (hio : io.FaithfulTo c p tree) (h : currentHead io = .ok head) :
    head ∈ tree.known := by
  unfold currentHead at h
  split at h
  · simp at h
  · split at h
    · simp at h
    · simp at h
    · next hheader =>
      cases h
      exact hio.headerByNumber _ _ hheader

theorem forkchoiceState_coherent (hio : io.FaithfulTo c p tree) (hknown : head ∈ tree.known)
    (spec : ChainSpec) :
    (forkchoiceState c.hashSlow spec io head).Coherent c p tree head
      (snapshotOf c.hashSlow io head) := by
  refine ⟨hknown, rfl, ?_, ?_⟩
  · unfold forkchoiceState getJustifiedNumberAndHash
    dsimp only
    split
    · exact .inl rfl
    · cases hsnap : snapshotOf c.hashSlow io head with
      | none => exact .inl rfl
      | some s =>
        obtain ⟨run, hrun⟩ := hio.snapshotOf head hknown s hsnap
        rcases hrun.votesOnChain.target with hdefault | ⟨b, -, hbelow, hnumber, hhash⟩
        · exact .inl (congrArg VoteData.targetHash hdefault)
        · exact .inr ⟨s, rfl, rfl, b, hbelow, hnumber, hhash⟩
  · unfold forkchoiceState getFinalizedNumberAndHash
    dsimp only
    split
    · exact .inl rfl
    · cases hsnap : snapshotOf c.hashSlow io head with
      | none => exact .inl rfl
      | some s =>
        obtain ⟨run, hrun⟩ := hio.snapshotOf head hknown s hsnap
        exact hrun.votesOnChain.source.imp_right fun hsource => ⟨s, rfl, rfl, run, hrun, hsource⟩

/-- The engine after calls of `update_forkchoice`, each in its own surroundings. -/
def updates (hashSlow : Header → B256) (spec : ChainSpec) :
    List (Surroundings × Header) → BscForkChoiceEngine → BscForkChoiceEngine
  | [], engine => engine
  | (io, incoming) :: calls, engine =>
    updates hashSlow spec calls ((updateForkchoice hashSlow spec io incoming) engine).2

theorem updates_sent {Q : ForkchoiceState → Prop} {hashSlow : Header → B256} {spec : ChainSpec}
    {calls : List (Surroundings × Header)}
    (hcalls : ∀ call ∈ calls, ∀ head, (head = call.2 ∨ currentHead call.1 = .ok head) →
      Q (forkchoiceState hashSlow spec call.1 head))
    {engine : BscForkChoiceEngine} (hsent : ∀ state ∈ engine.sent, Q state) :
    ∀ state ∈ (updates hashSlow spec calls engine).sent, Q state := by
  induction calls generalizing engine with
  | nil => exact hsent
  | cons call calls ih =>
    refine ih (fun call' hmem => hcalls call' (List.mem_cons_of_mem _ hmem)) ?_
    intro state hstate
    rcases updateForkchoice_sent call.2 engine with hnone | ⟨head, hhead, hone⟩
    · exact hsent state (hnone ▸ hstate)
    · grind

/-- **Coherence.** Every state that the fork choice engine ever sends is coherent, for the head it
was built for and the snapshot of that head. -/
theorem sent_coherent (c : Crypto) (p : Parlia) (tree : HashTree c.hashSlow)
    (calls : List (Surroundings × Header)) (hio : ∀ call ∈ calls, call.1.FaithfulTo c p tree)
    (hincoming : ∀ call ∈ calls, call.2 ∈ tree.known) :
    ∀ state ∈ (updates c.hashSlow p.spec calls .new).sent,
      ∃ call ∈ calls, ∃ head, (head = call.2 ∨ currentHead call.1 = .ok head) ∧
        state.Coherent c p tree head (snapshotOf c.hashSlow call.1 head) := by
  refine updates_sent (fun call hmem head hhead => ⟨call, hmem, head, hhead, ?_⟩) (by simp [new])
  refine forkchoiceState_coherent (hio call hmem) ?_ p.spec
  rcases hhead with rfl | hcurrent
  · exact hincoming call hmem
  · exact currentHead_known (hio call hmem) hcurrent

/-! ## A chain that finalizes a block

The first branch of the fork with one validator: its third block finalizes the first. -/

/-- The second block is the head, and the third comes in. -/
def finalizingSurroundings : Surroundings where
  bestNumber := .ok 2
  headerByNumber n := .ok (forkHeaders.find? fun header => header.number = n)
  snapshotProvider := some fun h =>
    if h = forkHashAt 1 3 then some (forkSnapshot 1 3 (forkVote 1 1)) else none
  queryTd number _ := .ok (some (number.toNat * 2))
  forkChoiceUpdated _ := .ok .valid
  coin := false

theorem finalizingRun : ∃ run, VerifiedRun forkCrypto (.ofSpec platoSpec)
    forkTree.toHashTree ((forkHeader 1 3, forkSnapshot 1 3 (forkVote 1 1)) :: run) := by
  have hl : forkLookups.FaithfulTo forkTree.toHashTree :=
    ⟨forkLookups_faithful.headerByHash, fun header h =>
      (Option.some.inj (forkLookups_faithful.headerByNumber_zero.symm.trans h)).symm⟩
  have hrun := (forkStep_one 1 (by decide)).verifiedRun hl (fun _ => id) rfl (.genesis forkGenesis)
  exact ⟨_, (forkStep_three 1 (by decide)).verifiedRun hl (fun _ => id) rfl
    ((forkStep_two 1 (by decide)).verifiedRun hl (fun _ => id) rfl hrun)⟩

/-- The third block becomes the head, the second is safe and the first finalized. -/
theorem finalizing_state_coherent :
    (updates forkHash platoSpec [(finalizingSurroundings, forkHeader 1 3)] .new).sent
        = [⟨forkHashAt 1 3, forkHashAt 1 2, forkHashAt 1 1⟩] ∧
      ∃ head, ForkchoiceState.Coherent forkCrypto (.ofSpec platoSpec) forkTree.toHashTree
        head (snapshotOf forkHash finalizingSurroundings head)
        ⟨forkHashAt 1 3, forkHashAt 1 2, forkHashAt 1 1⟩ := by
  have hsent : (updates forkHash platoSpec [(finalizingSurroundings, forkHeader 1 3)] .new).sent
      = [⟨forkHashAt 1 3, forkHashAt 1 2, forkHashAt 1 1⟩] := by decide +kernel
  have hio : finalizingSurroundings.FaithfulTo forkCrypto (.ofSpec platoSpec)
      forkTree.toHashTree := by
    refine ⟨fun n header h => ?_, fun header hknown s hsnap => ?_⟩
    · exact List.mem_of_find?_eq_some (Except.ok.inj h)
    · have hsnap : (if forkHash header = forkHashAt 1 3 then
          some (forkSnapshot 1 3 (forkVote 1 1)) else none) = some s := hsnap
      split at hsnap
      · next hhash =>
        obtain rfl : header = forkHeader 1 3 :=
          forkTree.hash_injOn hknown (show _ ∈ forkHeaders by decide +kernel) hhash
        exact Option.some.inj hsnap ▸ finalizingRun
      · simp at hsnap
  obtain ⟨call, hcall, head, -, hcoherent⟩ :=
    sent_coherent forkCrypto (.ofSpec platoSpec) forkTree.toHashTree
      [(finalizingSurroundings, forkHeader 1 3)]
      (fun call hcall => List.mem_singleton.mp hcall ▸ hio)
      (fun call hcall => List.mem_singleton.mp hcall ▸ show _ ∈ forkHeaders by decide +kernel)
      ⟨forkHashAt 1 3, forkHashAt 1 2, forkHashAt 1 1⟩ (hsent ▸ List.mem_cons_self)
  obtain rfl := List.mem_singleton.mp hcall
  exact ⟨hsent, head, hcoherent⟩

end BscForkChoiceEngine

end RethBsc
