import RethBsc.Node.ReceiptOrder
import RethBsc.Parlia.AccountableSafety
import RethBsc.Parlia.AppliedRun

/-!
# Finality rewards

Every 200 blocks `distribute_finality_reward` walks back over the headers since the last time, and
counts for each validator the votes in their attestations.  It looks up again what
`verify_vote_attestation` had looked up when the header came in, and checks again what that had
checked.  On a chain of accepted headers neither can fail.

* `AcceptedRun` is such a chain, with the snapshot of every block.  `Lookups.CorrectOn` says that
  the lookups find what is on it.
* `AcceptedRun.attested`: where the target of an accepted attestation is, and in whose snapshot its
  signers were checked.
* `processAttestation_rewards`: the growth of the weights for one attestation.
* `examined` are the headers of one walk.  `mem_examined_iff`: the walks of a chain do not overlap
  and leave nothing out.
-/

namespace RethBsc

open Rust Outcome

/-! ## Accepted chains -/

/-- The lookups find the header and the snapshot of every block of `run`, and nothing before
genesis. -/
structure Lookups.CorrectOn (hashSlow : Header → B256) (genesis : Header)
    (run : List (Header × Snapshot)) (lookups : Lookups) : Prop where
  headerByHash : ∀ b ∈ run, lookups.headerByHash (hashSlow b.1) = some b.1
  snapshotByHash : ∀ b ∈ run, lookups.snapshotByHash (hashSlow b.1) = some b.2
  genesis_header : lookups.headerByHash genesis.parentHash = none
  genesis_snapshot : lookups.snapshotByHash genesis.parentHash = none

/-- A chain of headers down to genesis, the newest first, with their snapshots.  After genesis Plato
is active, the attestation in each header was accepted on the snapshot of its parent, and the header
was applied to that. -/
inductive AcceptedRun (c : Crypto) (p : Parlia) (genesis : Header) :
    List (Header × Snapshot) → Prop
  | genesis {validators : List Address} {voteAddrs : Option (List VoteAddress)} {s : Snapshot}
      (hnumber : genesis.number = 0)
      (h : Snapshot.new validators 0 (c.hashSlow genesis) defaultEpochLength voteAddrs = .ok s) :
      AcceptedRun c p genesis [(genesis, s)]
  | block {lookups : Lookups} {parent header : Header} {run : List (Header × Snapshot)}
      {s s' : Snapshot} {validator : Address} {newValidators : List Address}
      {voteAddrs : Option (List VoteAddress)} {attestation : Option VoteAttestation}
      {turnLength : Option UInt8} (before : AcceptedRun c p genesis ((parent, s) :: run))
      (hl : lookups.CorrectOn c.hashSlow genesis ((parent, s) :: run))
      (hparent : header.parentHash = c.hashSlow parent)
      (hplato : p.spec.isPlatoActiveAtBlock header.number = true)
      (hverify : p.verifyVoteAttestation c lookups s header parent = .ok ())
      (hattestation : p.getVoteAttestationFromHeader header c.decode s.epochNum = .ok attestation)
      (happly : s.apply c.hashSlow p.spec validator header newValidators voteAddrs attestation
        turnLength = .ok s') :
      AcceptedRun c p genesis ((header, s') :: (parent, s) :: run)

section Accepted

variable {c : Crypto} {lookups : Lookups} {p : Parlia} {genesis parent header : Header}
  {run before : List (Header × Snapshot)} {b : Header × Snapshot} {s s' : Snapshot}
  {attestation : VoteAttestation}

theorem Lookups.CorrectOn.of_suffix {run' : List (Header × Snapshot)}
    (h : lookups.CorrectOn c.hashSlow genesis run) (hsuffix : run' <:+ run) :
    lookups.CorrectOn c.hashSlow genesis run' where
  headerByHash b hb := h.headerByHash b (hsuffix.subset hb)
  snapshotByHash b hb := h.snapshotByHash b (hsuffix.subset hb)
  genesis_header := h.genesis_header
  genesis_snapshot := h.genesis_snapshot

namespace AcceptedRun

/-- A block of an accepted chain with its ancestors is an accepted chain. -/
theorem of_suffix (h : AcceptedRun c p genesis run) (hsuffix : b :: before <:+ run) :
    AcceptedRun c p genesis (b :: before) := by
  induction h with
  | genesis hnumber hnew =>
    rcases List.suffix_cons_iff.mp hsuffix with heq | hnil
    · rw [heq]
      exact .genesis hnumber hnew
    · exact absurd (List.suffix_nil.mp hnil) (by simp)
  | block chain hl hparent hplato hverify hattestation happly ih =>
    rcases List.suffix_cons_iff.mp hsuffix with heq | hsuffix
    · rw [heq]
      exact .block chain hl hparent hplato hverify hattestation happly
    · exact ih hsuffix

theorem applied (h : AcceptedRun c p genesis run) :
    AppliedRun c.hashSlow p.spec genesis run := by
  induction h with
  | genesis hnumber hnew => exact .genesis hnumber hnew
  | block _ _ hparent _ _ _ happly ih => exact .block ih hparent happly

/-- The walk of the verifier stays on the chain. -/
theorem findAncestor_onRun (h : AcceptedRun c p genesis ((parent, s) :: before))
    (hl : lookups.CorrectOn c.hashSlow genesis ((parent, s) :: before)) {data : VoteData} {n : Nat}
    {ancestor : Header} (hfind : findAncestor c lookups data n parent = .ok ancestor) :
    ∃ snap older, (ancestor, snap) :: older <:+ (parent, s) :: before ∧
      ancestor.number = data.targetNumber ∧ c.hashSlow ancestor = data.targetHash := by
  induction n generalizing parent s before with
  | zero => exact absurd hfind (by simp [findAncestor])
  | succ n ih =>
    rw [findAncestor] at hfind
    split at hfind
    · next hmatch =>
      cases hfind
      exact ⟨s, before, List.suffix_refl _, hmatch⟩
    · obtain ⟨next, hlookup, hfind⟩ := except_bind_eq_ok.mp hfind
      rw [orError_eq_ok] at hlookup
      cases h with
      | genesis _ _ => exact absurd hlookup (by rw [hl.genesis_header]; simp)
      | @block _ grandparent _ rest s₀ _ _ _ _ _ _ chain _ hparent =>
        have hbelow := List.suffix_cons (parent, s) ((grandparent, s₀) :: rest)
        have hl := hl.of_suffix hbelow
        rw [hparent, hl.headerByHash (grandparent, s₀) List.mem_cons_self] at hlookup
        cases hlookup
        obtain ⟨snap, older, hsuffix, hmatch⟩ := ih chain hl hfind
        exact ⟨snap, older, hsuffix.trans hbelow, hmatch⟩

/-- The target of an accepted attestation is an ancestor and not genesis, and the signers were
checked in the snapshot of its parent. -/
theorem attested (h : AcceptedRun c p genesis ((header, s') :: (parent, s) :: before))
    (hattestation : p.getVoteAttestationFromHeader header c.decode s.epochNum
      = .ok (some attestation)) :
    ∃ target snap pre preSnap older,
      (target, snap) :: (pre, preSnap) :: older <:+ (parent, s) :: before ∧
      target.number = attestation.data.targetNumber ∧
      c.hashSlow target = attestation.data.targetHash ∧ target.parentHash = c.hashSlow pre ∧
      verifySigners c preSnap attestation = .ok () := by
  cases h with
  | block chain hl _ hplato hverify =>
    obtain ⟨-, target, _, preSnap, hancestor, -, -, -, hpre, hsigners⟩ :=
      (verifyVoteAttestation_eq_ok hplato hattestation).mp hverify
    obtain ⟨snap, older, hsuffix, hnumber, hhash⟩ := chain.findAncestor_onRun hl hancestor
    have hl := hl.of_suffix hsuffix
    cases chain.of_suffix hsuffix with
    -- genesis as the target would need a snapshot from before genesis
    | genesis _ _ => exact absurd hpre (by rw [hl.genesis_snapshot]; simp)
    | @block _ pre _ rest preSnap' _ _ _ _ _ _ _ _ hparent =>
      have hmem : (pre, preSnap') ∈ (target, snap) :: (pre, preSnap') :: rest :=
        List.mem_cons_of_mem _ List.mem_cons_self
      rw [hparent, hl.snapshotByHash _ hmem] at hpre
      cases hpre
      exact ⟨target, snap, pre, preSnap', rest, hsuffix, hnumber, hhash, hparent, hsigners⟩

/-- An accepted header has a well-formed extra field. -/
theorem exists_attestation (h : AcceptedRun c p genesis ((header, s') :: (parent, s) :: before)) :
    ∃ attestation, p.getVoteAttestationFromHeader header c.decode s.epochNum = .ok attestation := by
  cases h with
  | block _ _ _ _ _ hattestation _ => exact ⟨_, hattestation⟩

end AcceptedRun

end Accepted

/-! ## The weights of one attestation -/

/-- The validators whose bit is set. -/
def Snapshot.voters (snap : Snapshot) (set : UInt64) : List Address :=
  (snap.validators.zipIdx.filter fun vi => vi.2 < 64 && hasBit set vi.2).map Prod.fst

theorem bitSetVoteAddrs_voters {snap : Snapshot} {set : UInt64} {addrs : List VoteAddress}
    (h : bitSetVoteAddrs snap set = .ok addrs) : addrs = (snap.voters set).map snap.voteAddr := by
  rw [mapM_voteAddr_eq_ok h, Snapshot.voters, List.map_map]
  rfl

/-- The weights after the loop over the voters and the share of the proposer. -/
def rewardVoters (voters : List Address) (quorum : Nat) (proposer : Address)
    (weights : Map Address Nat) : Map Address Nat :=
  let weights := voters.foldl (fun weights voter => addWeight weights voter 1) weights
  if voters.length > quorum then
    addWeight weights proposer ((voters.length - quorum) * collectAdditionalVotesRewardRatio / 100)
  else weights

section RewardVoters

variable (voters : List Address) (quorum : Nat) (proposer a : Address) (weights : Map Address Nat)

/-- The ratio is one to one. -/
theorem rewardVoters_eq :
    rewardVoters voters quorum proposer weights = if voters.length > quorum then
        (voters.foldl (fun weights voter => Map.addTo weights voter 1) weights).addTo proposer
          (voters.length - quorum)
      else voters.foldl (fun weights voter => Map.addTo weights voter 1) weights := by
  have hratio : (voters.length - quorum) * collectAdditionalVotesRewardRatio / 100
      = voters.length - quorum := Nat.mul_div_cancel _ (by decide)
  rw [rewardVoters, hratio]
  rfl

theorem countOf_rewardVoters :
    (rewardVoters voters quorum proposer weights).countOf a = weights.countOf a +
      (voters.count a + if a = proposer then voters.length - quorum else 0) := by
  rw [rewardVoters_eq]
  split
  · rw [Map.countOf_addTo, Map.countOf_foldl_addTo, Nat.add_assoc]
  · next hle =>
    have hzero : voters.length - quorum = 0 := by omega
    rw [Map.countOf_foldl_addTo, hzero, ite_self, Nat.add_zero]

theorem total_rewardVoters :
    (rewardVoters voters quorum proposer weights).total = weights.total +
      (voters.length + (voters.length - quorum)) := by
  rw [rewardVoters_eq]
  split
  · rw [Map.total_addTo, Map.total_foldl_addTo, Nat.add_assoc]
  · next hle =>
    rw [Map.total_foldl_addTo]
    omega

end RewardVoters

/-- What an attestation in `header` adds to the weights: one for each validator whose vote address
was checked, and for the proposer of `header` the votes beyond a quorum. -/
structure Rewards (c : Crypto) (preSnap : Snapshot) (attestation : VoteAttestation)
    (header : Header) (weights weights' : Map Address Nat) : Prop where
  checked : ∃ addrs, bitSetVoteAddrs preSnap attestation.voteAddressSet = .ok addrs ∧
    c.verifyAggregate attestation.aggSignature (c.voteHash attestation.data) addrs = true ∧
    addrs = (preSnap.voters attestation.voteAddressSet).map preSnap.voteAddr
  quorum : preSnap.quorum ≤ (preSnap.voters attestation.voteAddressSet).length
  weight : ∀ a, weights'.countOf a = weights.countOf a +
    ((preSnap.voters attestation.voteAddressSet).count a +
      if a = header.beneficiary then
        (preSnap.voters attestation.voteAddressSet).length - preSnap.quorum
      else 0)
  total : weights'.total = weights.total + ((preSnap.voters attestation.voteAddressSet).length +
    ((preSnap.voters attestation.voteAddressSet).length - preSnap.quorum))

section Process

variable {ctx : ExecutionCtx} {attestation : VoteAttestation} {header target pre : Header}
  {preSnap : Snapshot}

/-- What was accepted once has not too many bits the second time. -/
theorem processAttestation_rewards
    (htarget : ctx.lookups.headerByHash attestation.data.targetHash = some target)
    (hpre : ctx.lookups.headerByHash target.parentHash = some pre)
    (hsnap : ctx.lookups.snapshotByHash (ctx.crypto.hashSlow pre) = some preSnap)
    (hsigners : verifySigners ctx.crypto preSnap attestation = .ok ()) (weights : Map Address Nat) :
    ∃ weights', processAttestation ctx attestation header weights = .ok weights' ∧
      Rewards ctx.crypto preSnap attestation header weights weights' := by
  obtain ⟨hones, addrs, haddrs, hquorum, hverify⟩ := verifySigners_eq_ok hsigners
  have hvoters := bitSetVoteAddrs_voters haddrs
  refine ⟨rewardVoters (preSnap.voters attestation.voteAddressSet) preSnap.quorum
    header.beneficiary weights, ?_, ⟨addrs, haddrs, hverify, hvoters⟩, ?_, fun a => ?_, ?_⟩
  -- nothing is missing and the bits are not too many, so the loop is reached
  · unfold processAttestation
    dsimp only
    rw [htarget, okOr_some, ok_bind, hpre, okOr_some, ok_bind,
      hsnap, unwrap_some, ok_bind, if_neg (Nat.not_lt.mpr hones)]
    exact (apply_ite ok _ _ _).symm
  · rwa [hvoters, List.length_map] at hquorum
  · exact countOf_rewardVoters _ _ _ _ _
  · exact total_rewardVoters _ _ _ _

end Process

/-! ## The walk -/

section Walk

variable (ctx : ExecutionCtx)

/-- The headers that a walk of `accumulateWeights` comes to. -/
def headersBack (lookups : Lookups) : Nat → B256 → List Header
  | 0, _ => []
  | n + 1, targetHash =>
    match lookups.headerByHash targetHash with
    | none => []
    | some header => header :: headersBack lookups n header.parentHash

/-- The body of the loop of `distribute_finality_reward`, for a header that was found. -/
def rewardHeader (weights : Map Address Nat) (header : Header) :
    Outcome BlockExecutionError (Map Address Nat) := do
  let snap ← okOr (.msg "Failed to get snapshot from snapshot provider")
    (ctx.lookups.snapshotByHash header.parentHash)
  match ctx.parlia.getVoteAttestationFromHeader header ctx.crypto.decode snap.epochNum with
  | .error e => .err (.parliaConsensusError e)
  | .ok none => pure weights
  | .ok (some attestation) => processAttestation ctx attestation header weights

variable {ctx}

theorem accumulateWeights_succ {targetHash : B256} {header : Header}
    (h : ctx.lookups.headerByHash targetHash = some header) (n : Nat) (weights : Map Address Nat) :
    accumulateWeights ctx (n + 1) targetHash weights
      = rewardHeader ctx weights header >>= accumulateWeights ctx n header.parentHash := by
  rw [accumulateWeights, h, okOr_some, ok_bind]
  unfold rewardHeader
  cases ctx.lookups.snapshotByHash header.parentHash with
  | none => rfl
  | some snap =>
    rw [okOr_some, ok_bind, ok_bind]
    cases ctx.parlia.getVoteAttestationFromHeader header ctx.crypto.decode snap.epochNum with
    | error e => rfl
    | ok attestation =>
      cases attestation with
      | none => rfl
      | some attestation => rfl

/-- Where all headers are found, the loop goes over them. -/
theorem accumulateWeights_eq_foldlM {n : Nat} {targetHash : B256}
    (h : (headersBack ctx.lookups n targetHash).length = n) (weights : Map Address Nat) :
    accumulateWeights ctx n targetHash weights
      = (headersBack ctx.lookups n targetHash).foldlM (rewardHeader ctx) weights := by
  induction n generalizing targetHash weights with
  | zero => rfl
  | succ n ih =>
    cases hlookup : ctx.lookups.headerByHash targetHash with
    -- a header that is not found cuts the walk short
    | none =>
      rw [headersBack, hlookup] at h
      simp at h
    | some header =>
      have hback : headersBack ctx.lookups (n + 1) targetHash
          = header :: headersBack ctx.lookups n header.parentHash := by rw [headersBack, hlookup]
      rw [hback, List.length_cons, Nat.add_right_cancel_iff] at h
      rw [accumulateWeights_succ hlookup, hback, List.foldlM_cons]
      exact bind_congr fun weights => ih h weights

end Walk

namespace AcceptedRun

variable {c : Crypto} {lookups : Lookups} {p : Parlia} {genesis : Header}
  {before : List (Header × Snapshot)} {b : Header × Snapshot}

/-- A walk from a block of the chain goes down the chain. -/
theorem headersBack_eq (h : AcceptedRun c p genesis (b :: before))
    (hl : lookups.CorrectOn c.hashSlow genesis (b :: before)) {n : Nat}
    (hn : n ≤ before.length + 1) :
    headersBack lookups n (c.hashSlow b.1) = ((b :: before).map Prod.fst).take n := by
  induction n generalizing b before with
  | zero => rfl
  | succ n ih =>
    rw [headersBack, hl.headerByHash b List.mem_cons_self, List.map_cons, List.take_succ_cons]
    refine congrArg (b.1 :: ·) ?_
    cases h with
    -- the walk does not go below genesis
    | genesis _ _ =>
      obtain rfl : n = 0 := by simpa using hn
      rfl
    | block chain _ hparent =>
      rw [hparent]
      exact ih chain (hl.of_suffix (List.suffix_cons _ _)) (by simpa using hn)

end AcceptedRun

/-! ## One walk for every header -/

/-- How many headers the block looks back at. -/
def ExecutionCtx.rewardCount (ctx : ExecutionCtx) : Nat :=
  ctx.blockNumber.toNat - (max (ctx.blockNumber - ffRewardDistributionInterval) 1).toNat

/-- The headers that `distribute_finality_reward` examines in a block. -/
def examined (ctx : ExecutionCtx) : List Header :=
  if !isMultipleOf ctx.blockNumber ffRewardDistributionInterval then []
  else headersBack ctx.lookups ctx.rewardCount ctx.parentHash

theorem toNat_max (a b : UInt64) : (max a b).toNat = max a.toNat b.toNat := by
  rw [Nat.max_def]
  show (if a ≤ b then b else a).toNat = _
  rw [apply_ite UInt64.toNat]
  rfl

section Block

variable {ctx : ExecutionCtx} {genesis parent : Header} {s : Snapshot}
  {before : List (Header × Snapshot)} {b : Header × Snapshot}

/-- In the first interval the walk ends before genesis. -/
theorem rewardCount_eq (hpos : 0 < ctx.blockNumber.toNat)
    (hmultiple : isMultipleOf ctx.blockNumber ffRewardDistributionInterval = true) :
    200 ≤ ctx.blockNumber.toNat ∧
      ctx.rewardCount = ctx.blockNumber.toNat - max (ctx.blockNumber.toNat - 200) 1 := by
  have hmod : ctx.blockNumber.toNat % 200 = 0 := isMultipleOf_iff.mp hmultiple
  have hle : 200 ≤ ctx.blockNumber.toNat := by omega
  have hsub : (ctx.blockNumber - ffRewardDistributionInterval).toNat
      = ctx.blockNumber.toNat - 200 := UInt64.toNat_sub_of_le _ _ hle
  refine ⟨hle, ?_⟩
  rw [ExecutionCtx.rewardCount, toNat_max, hsub]
  rfl

theorem height_le (hnumber : ctx.blockNumber.toNat = before.length + 1) :
    (b :: before).length ≤ 2 ^ 64 := by
  rw [List.length_cons, ← hnumber]
  exact ctx.blockNumber.toNat_lt.le

variable (hrun : AcceptedRun ctx.crypto ctx.parlia genesis ((parent, s) :: before))
  (hl : ctx.lookups.CorrectOn ctx.crypto.hashSlow genesis ((parent, s) :: before))
  (hparent : ctx.parentHash = ctx.crypto.hashSlow parent)
  (hnumber : ctx.blockNumber.toNat = before.length + 1)

include hrun hl hparent hnumber

/-- The headers of the walk, off the chain that the block is built on. -/
theorem examined_eq (hmultiple : isMultipleOf ctx.blockNumber ffRewardDistributionInterval = true) :
    headersBack ctx.lookups ctx.rewardCount ctx.parentHash
      = (((parent, s) :: before).map Prod.fst).take ctx.rewardCount ∧
    ctx.rewardCount ≤ before.length := by
  obtain ⟨hle, hcount⟩ := rewardCount_eq (by omega) hmultiple
  have hshort : ctx.rewardCount ≤ before.length := by omega
  refine ⟨?_, hshort⟩
  rw [hparent]
  exact hrun.headersBack_eq hl (Nat.le_succ_of_le hshort)

/-- A header is examined by the next block whose number is a multiple of 200, and by no other. -/
theorem mem_examined_iff (hb : b ∈ (parent, s) :: before) :
    b.1 ∈ examined ctx ↔
      1 ≤ b.1.number.toNat ∧ ctx.blockNumber.toNat = (b.1.number.toNat / 200 + 1) * 200 := by
  have hlen := height_le (b := (parent, s)) hnumber
  unfold examined
  cases hmultiple : isMultipleOf ctx.blockNumber ffRewardDistributionInterval with
  | false =>
    have hmod : ¬ ctx.blockNumber.toNat % 200 = 0 := fun h =>
      absurd (isMultipleOf_iff.mpr h) (by rw [hmultiple]; simp)
    refine ⟨fun h => absurd h (by simp), fun h => ?_⟩
    omega
  | true =>
    obtain ⟨hle, hcount⟩ := rewardCount_eq (by omega) hmultiple
    have hmod : ctx.blockNumber.toNat % 200 = 0 := isMultipleOf_iff.mp hmultiple
    obtain ⟨j, hj, hget⟩ := List.getElem_of_mem hb
    have hbelow := hrun.applied.number_getElem hlen hj
    rw [hget] at hbelow
    rw [Bool.not_true, if_neg Bool.false_ne_true,
      (examined_eq hrun hl hparent hnumber hmultiple).1, hrun.applied.mem_take_iff hlen hb, hcount]
    -- the numbers from one multiple of 200 to the next, without genesis
    rw [List.length_cons] at hbelow hj ⊢
    omega

/-- No header is examined twice. -/
theorem examined_nodup :
    (examined ctx).Nodup ∧ examined ctx ⊆ ((parent, s) :: before).map Prod.fst := by
  have hlen := height_le (b := (parent, s)) hnumber
  unfold examined
  cases hmultiple : isMultipleOf ctx.blockNumber ffRewardDistributionInterval with
  | false => exact ⟨List.nodup_nil, List.nil_subset _⟩
  | true =>
    rw [Bool.not_true, if_neg Bool.false_ne_true, (examined_eq hrun hl hparent hnumber hmultiple).1]
    exact ⟨(hrun.applied.headers_nodup hlen).sublist (List.take_sublist _ _), List.take_subset _ _⟩

theorem examined_subset {header : Header} (hmem : header ∈ examined ctx) :
    ∃ b ∈ (parent, s) :: before, b.1 = header ∧ 1 ≤ b.1.number.toNat := by
  obtain ⟨b, hb, rfl⟩ := List.mem_map.mp ((examined_nodup hrun hl hparent hnumber).2 hmem)
  exact ⟨b, hb, rfl, ((mem_examined_iff hrun hl hparent hnumber hb).mp hmem).1⟩

/-- The weights of the block come from the headers that it examines. -/
theorem distributeFinalityReward_eq {m : Machine} (e : BscBlockExecutor m)
    {weights : Map Address Nat}
    (hweights : (examined ctx).foldlM (rewardHeader ctx) ∅ = .ok weights) :
    e.distributeFinalityReward ctx =
      if isMultipleOf ctx.blockNumber ffRewardDistributionInterval then
        e.transactSystemTx ctx
          (ctx.systemContracts.distributeFinalityReward (weights.keys.insertionSort (· ≤ ·))
            ((weights.keys.insertionSort (· ≤ ·)).map weights.countOf))
          ctx.block.beneficiary
      else .ok e := by
  unfold BscBlockExecutor.distributeFinalityReward
  cases hmultiple : isMultipleOf ctx.blockNumber ffRewardDistributionInterval with
  | false => rfl
  | true =>
    obtain ⟨hback, hshort⟩ := examined_eq hrun hl hparent hnumber hmultiple
    have hlength : (headersBack ctx.lookups ctx.rewardCount ctx.parentHash).length
        = ctx.rewardCount := by
      rw [hback, List.length_take, List.length_map, List.length_cons]
      omega
    -- all headers are found, so the recursion is the loop over them
    have hsum : accumulateWeights ctx ctx.rewardCount ctx.parentHash ∅ = .ok weights := by
      rw [accumulateWeights_eq_foldlM hlength, ← hweights, examined, hmultiple]
      rfl
    show (accumulateWeights ctx ctx.rewardCount ctx.parentHash ∅ >>= _) = _
    rw [hsum]
    rfl

end Block

/-! ## The rewards of a header -/

/-- `preSnap` is the snapshot of the parent of the block that the attestation is for. -/
def TargetParentHas (c : Crypto) (run : List (Header × Snapshot)) (attestation : VoteAttestation)
    (preSnap : Snapshot) : Prop :=
  ∃ target snap pre older, (target, snap) :: (pre, preSnap) :: older <:+ run ∧
    target.number = attestation.data.targetNumber ∧
    c.hashSlow target = attestation.data.targetHash

section Header

variable {ctx : ExecutionCtx} {genesis header parent : Header} {s s' : Snapshot}
  {run older : List (Header × Snapshot)} {attestation : VoteAttestation}

/-- The snapshot of the parent is the one that the header was verified on. -/
theorem rewardHeader_eq (hrun : AcceptedRun ctx.crypto ctx.parlia genesis run)
    (hl : ctx.lookups.CorrectOn ctx.crypto.hashSlow genesis run)
    (hsuffix : (header, s') :: (parent, s) :: older <:+ run) (weights : Map Address Nat) :
    rewardHeader ctx weights header =
      match ctx.parlia.getVoteAttestationFromHeader header ctx.crypto.decode s.epochNum with
      | .error e => .err (.parliaConsensusError e)
      | .ok none => .ok weights
      | .ok (some attestation) => processAttestation ctx attestation header weights := by
  have hmem : (parent, s) ∈ run := hsuffix.subset (List.mem_cons_of_mem _ List.mem_cons_self)
  cases hrun.of_suffix hsuffix with
  | block _ _ hparent =>
    rw [rewardHeader, hparent, hl.snapshotByHash _ hmem, okOr_some, ok_bind]
    rfl

theorem processAttestation_of_run (hrun : AcceptedRun ctx.crypto ctx.parlia genesis run)
    (hl : ctx.lookups.CorrectOn ctx.crypto.hashSlow genesis run)
    (hsuffix : (header, s') :: (parent, s) :: older <:+ run)
    (hattestation : ctx.parlia.getVoteAttestationFromHeader header ctx.crypto.decode s.epochNum
      = .ok (some attestation)) :
    ∃ preSnap, TargetParentHas ctx.crypto ((parent, s) :: older) attestation preSnap ∧
      ∀ weights, ∃ weights', processAttestation ctx attestation header weights = .ok weights' ∧
        Rewards ctx.crypto preSnap attestation header weights weights' := by
  obtain ⟨target, snap, pre, preSnap, rest, hbelow, hnumber, hhash, hparent, hsigners⟩ :=
    (hrun.of_suffix hsuffix).attested hattestation
  refine ⟨preSnap, ⟨target, snap, pre, rest, hbelow, hnumber, hhash⟩, fun weights => ?_⟩
  -- the second time the lookups find what they found the first time
  have hl := hl.of_suffix ((hbelow.trans (List.suffix_cons (header, s') _)).trans hsuffix)
  have hpre : (pre, preSnap) ∈ (target, snap) :: (pre, preSnap) :: rest :=
    List.mem_cons_of_mem _ List.mem_cons_self
  have htarget : ctx.lookups.headerByHash attestation.data.targetHash = some target :=
    hhash ▸ hl.headerByHash _ List.mem_cons_self
  have hfound : ctx.lookups.headerByHash target.parentHash = some pre :=
    hparent ▸ hl.headerByHash _ hpre
  exact processAttestation_rewards htarget hfound (hl.snapshotByHash _ hpre) hsigners weights

theorem rewardHeader_ok (hrun : AcceptedRun ctx.crypto ctx.parlia genesis run)
    (hl : ctx.lookups.CorrectOn ctx.crypto.hashSlow genesis run)
    (hsuffix : (header, s') :: (parent, s) :: older <:+ run) (weights : Map Address Nat) :
    ∃ weights', rewardHeader ctx weights header = .ok weights' := by
  rw [rewardHeader_eq hrun hl hsuffix]
  obtain ⟨attestation, hattestation⟩ := (hrun.of_suffix hsuffix).exists_attestation
  rw [hattestation]
  cases attestation with
  | none => exact ⟨weights, rfl⟩
  | some attestation =>
    obtain ⟨_, -, hprocess⟩ := processAttestation_of_run hrun hl hsuffix hattestation
    obtain ⟨weights', hweights', -⟩ := hprocess weights
    exact ⟨weights', hweights'⟩

end Header

/-- **Finality rewards.** On an accepted chain every header after genesis is examined once, by the
next block whose number is a multiple of 200.  Its attestation, if it has one, adds one for each
voter that was checked when the header was accepted and the votes beyond a quorum for its proposer.
So the weights of every block can be computed. -/
theorem BscBlockExecutor.finality_rewards {m : Machine} (ctx : ExecutionCtx)
    (e : BscBlockExecutor m) (genesis parent : Header) (s : Snapshot)
    (before : List (Header × Snapshot))
    (hrun : AcceptedRun ctx.crypto ctx.parlia genesis ((parent, s) :: before))
    (hl : ctx.lookups.CorrectOn ctx.crypto.hashSlow genesis ((parent, s) :: before))
    (hparent : ctx.parentHash = ctx.crypto.hashSlow parent)
    (hnumber : ctx.blockNumber.toNat = before.length + 1) :
    (∀ b ∈ (parent, s) :: before, 1 ≤ b.1.number.toNat → (examined ctx).count b.1 =
        if ctx.blockNumber.toNat = (b.1.number.toNat / 200 + 1) * 200 then 1 else 0) ∧
    (∀ header ∈ examined ctx, 1 ≤ header.number.toNat ∧
      header ∈ ((parent, s) :: before).map Prod.fst) ∧
    (∀ header s' parent' s₀ older attestation,
      (header, s') :: (parent', s₀) :: older <:+ (parent, s) :: before →
      ctx.parlia.getVoteAttestationFromHeader header ctx.crypto.decode s₀.epochNum
        = .ok (some attestation) →
      ∃ preSnap, TargetParentHas ctx.crypto ((parent', s₀) :: older) attestation preSnap ∧
        ∀ weights, ∃ weights', rewardHeader ctx weights header = .ok weights' ∧
          processAttestation ctx attestation header weights = .ok weights' ∧
          Rewards ctx.crypto preSnap attestation header weights weights') ∧
    ∃ weights, (examined ctx).foldlM (rewardHeader ctx) ∅ = .ok weights ∧
      e.distributeFinalityReward ctx =
        if isMultipleOf ctx.blockNumber ffRewardDistributionInterval then
          e.transactSystemTx ctx
            (ctx.systemContracts.distributeFinalityReward (weights.keys.insertionSort (· ≤ ·))
              ((weights.keys.insertionSort (· ≤ ·)).map weights.countOf))
            ctx.block.beneficiary
        else .ok e := by
  refine ⟨fun b hb hone => ?_, fun header hmem => ?_, ?_, ?_⟩
  · have hiff := mem_examined_iff hrun hl hparent hnumber hb
    have hnodup := (examined_nodup hrun hl hparent hnumber).1
    split
    · next hnext => exact List.count_eq_one_of_mem hnodup (hiff.mpr ⟨hone, hnext⟩)
    · next hnot => exact List.count_eq_zero_of_not_mem fun h => hnot (hiff.mp h).2
  · obtain ⟨b, hb, rfl, hone⟩ := examined_subset hrun hl hparent hnumber hmem
    exact ⟨hone, List.mem_map_of_mem hb⟩
  · intro header s' parent' s₀ older attestation hsuffix hattestation
    obtain ⟨preSnap, htarget, hprocess⟩ := processAttestation_of_run hrun hl hsuffix hattestation
    refine ⟨preSnap, htarget, fun weights => ?_⟩
    obtain ⟨weights', hweights', hrewards⟩ := hprocess weights
    refine ⟨weights', ?_, hweights', hrewards⟩
    rwa [rewardHeader_eq hrun hl hsuffix, hattestation]
  · have hok : ∀ header ∈ examined ctx, ∀ weights, ∃ weights',
        rewardHeader ctx weights header = .ok weights' := by
      intro header hmem weights
      obtain ⟨b, hb, rfl, hone⟩ := examined_subset hrun hl hparent hnumber hmem
      obtain ⟨_, _, hsuffix⟩ := hrun.applied.exists_parent hb hone
      exact rewardHeader_ok hrun hl hsuffix weights
    obtain ⟨weights, hweights⟩ := foldlM_eq_ok hok ∅
    exact ⟨weights, hweights, distributeFinalityReward_eq hrun hl hparent hnumber e hweights⟩

/-! ## Three blocks

The first branch of the fork with one validator.  Its third block has a vote for the second. -/

def rewardRun : List (Header × Snapshot) :=
  [(forkHeader 1 3, forkSnapshot 1 3 (forkVote 1 1)),
    (forkHeader 1 2, forkSnapshot 1 2 (forkVote 1 0)),
    (forkHeader 1 1, forkSnapshot 1 1 default),
    (forkHeader 1 0, { forkSnapshot 1 0 default with recentProposers := ∅ })]

def rewardLookups : Lookups where
  snapshotByHash h := (rewardRun.find? fun b => forkHash b.1 = h).map Prod.snd
  headerByHash h := (rewardRun.find? fun b => forkHash b.1 = h).map Prod.fst
  headerByNumber n := (rewardRun.find? fun b => b.1.number = n).map Prod.fst
  canonicalHeaderByHash _ := none

theorem rewardLookups_correct : rewardLookups.CorrectOn forkHash (forkHeader 1 0) rewardRun :=
  ⟨by decide +kernel, by decide +kernel, by decide +kernel, by decide +kernel⟩

theorem rewardRun_accepted :
    AcceptedRun forkCrypto (.ofSpec platoSpec) (forkHeader 1 0) rewardRun := by
  obtain ⟨-, hparent₁, -, hatt₁, happly₁⟩ := forkStep_one 1 (by decide)
  obtain ⟨-, hparent₂, -, hatt₂, happly₂⟩ := forkStep_two 1 (by decide)
  obtain ⟨-, hparent₃, -, hatt₃, happly₃⟩ := forkStep_three 1 (by decide)
  have hl := rewardLookups_correct
  have hone := AcceptedRun.block (.genesis rfl forkGenesis)
    (hl.of_suffix (c := forkCrypto) ⟨rewardRun.take 3, rfl⟩) hparent₁ rfl (by decide +kernel)
    hatt₁ happly₁
  have htwo := hone.block (hl.of_suffix (c := forkCrypto) ⟨rewardRun.take 2, rfl⟩) hparent₂ rfl
    (by decide +kernel) hatt₂ happly₂
  exact htwo.block (hl.of_suffix (c := forkCrypto) ⟨rewardRun.take 1, rfl⟩) hparent₃ rfl
    (by decide +kernel) hatt₃ happly₃

/-- Block 4. -/
def rewardCtx : ExecutionCtx :=
  { BscBlockExecutor.depositCtx with
    parlia := .ofSpec platoSpec
    crypto := forkCrypto
    lookups := rewardLookups
    block := { BscBlockExecutor.depositCtx.block with number := 4 }
    blockNumber := 4
    number_eq := rfl
    parentHash := forkHash (forkHeader 1 3) }

/-- The vote in the third block counts once. -/
theorem vote_in_block3_rewarded :
    ∃ preSnap, TargetParentHas forkCrypto rewardRun.tail (forkAttestation 1 3) preSnap ∧ ∃ weights,
        processAttestation rewardCtx (forkAttestation 1 3) (forkHeader 1 3) ∅ = .ok weights ∧
        Rewards forkCrypto preSnap (forkAttestation 1 3) (forkHeader 1 3) ∅ weights ∧
        weights.countOf loneValidator = 1 ∧ weights.total = 1 := by
  obtain ⟨-, -, hrewards, -⟩ := BscBlockExecutor.finality_rewards rewardCtx
    (BscBlockExecutor.new (m := BscBlockExecutor.feeMachine) (0 : Nat) (.new 1024) (.new 1024))
    (forkHeader 1 0) (forkHeader 1 3) (forkSnapshot 1 3 (forkVote 1 1)) rewardRun.tail
    rewardRun_accepted rewardLookups_correct rfl rfl
  obtain ⟨preSnap, htarget, hprocess⟩ := hrewards (forkHeader 1 3) _ (forkHeader 1 2)
    (forkSnapshot 1 2 (forkVote 1 0)) _ (forkAttestation 1 3) (List.suffix_refl _)
    (by decide +kernel)
  obtain ⟨weights, -, hweights, hgrow⟩ := hprocess ∅
  have hvalue : processAttestation rewardCtx (forkAttestation 1 3) (forkHeader 1 3) ∅
      = .ok ((∅ : Map Address Nat).insert loneValidator 1) := by decide +kernel
  obtain rfl := ok.inj (hvalue.symm.trans hweights)
  exact ⟨preSnap, htarget, _, hvalue, hgrow, by decide +kernel, by decide +kernel⟩

end RethBsc
