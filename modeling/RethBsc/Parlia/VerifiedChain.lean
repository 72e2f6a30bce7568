import Mathlib.Data.Set.Function
import RethBsc.Parlia.Attestation

/-!
# Chains of verified headers

A node verifies the attestation in each header against the snapshot of its parent, and then applies
the header to that snapshot.  This module says what such chains look like, over whatever tree of
blocks the node knows.

* `BlockTree` is the set of known headers: hashes in it do not collide, and nothing comes before
  the genesis block.  `Lookups.Faithful` ties the caches of a node to it.
* `VerifiedChain` is a chain from genesis, the newest header first, with the snapshot of its head.
  A block with its ancestors is a suffix of the chain, so two blocks on one chain are comparable.
* `Attests` is what a verified attestation guarantees, and `VerifiedChain.records` what it does to
  the vote data of the snapshot.
* `VerifiedChain.target_onChain`: the recorded target is a block of the chain.
-/

namespace RethBsc

open Rust Outcome

/-! ## Known headers -/

/-- The headers there are. -/
structure BlockTree (hashSlow : Header → B256) where
  known : Set Header
  genesis : Header
  genesis_mem : genesis ∈ known
  genesis_number : genesis.number = 0
  genesis_root : ∀ h ∈ known, hashSlow h ≠ genesis.parentHash
  hash_injOn : Set.InjOn hashSlow known
  hash_ne_zero : ∀ h ∈ known, hashSlow h ≠ .zero

/-- The caches give known headers with the hash asked for, and genesis as block 0. -/
structure Lookups.Faithful {hashSlow : Header → B256} (lookups : Lookups)
    (tree : BlockTree hashSlow) : Prop where
  headerByHash : ∀ h header, lookups.headerByHash h = some header →
    header ∈ tree.known ∧ hashSlow header = h
  headerByNumber_zero : lookups.headerByNumber 0 = some tree.genesis

/-! ## Chains -/

/-- A chain of headers down to genesis, each linked to the one before it, verified against the
snapshot of that one and applied to it.  The data of all attestations meet `P`. -/
inductive VerifiedChain (c : Crypto) (lookups : Lookups) (p : Parlia)
    (tree : BlockTree c.hashSlow) (P : VoteData → Prop) : List Header → Snapshot → Prop
  | genesis {validators : List Address} {voteAddrs : Option (List VoteAddress)} {s : Snapshot}
      (h : Snapshot.new validators 0 (c.hashSlow tree.genesis) defaultEpochLength voteAddrs
        = .ok s) :
      VerifiedChain c lookups p tree P [tree.genesis] s
  | block {parent header : Header} {headers : List Header} {s s' : Snapshot} {validator : Address}
      {newValidators : List Address} {voteAddrs : Option (List VoteAddress)}
      {attestation : Option VoteAttestation} {turnLength : Option UInt8}
      (chain : VerifiedChain c lookups p tree P (parent :: headers) s)
      (hknown : header ∈ tree.known) (hparent : header.parentHash = c.hashSlow parent)
      (hverify : p.verifyVoteAttestation c lookups s header parent = .ok ())
      (hattestation : p.getVoteAttestationFromHeader header c.decode s.epochNum = .ok attestation)
      (hP : ∀ a, attestation = some a → P a.data)
      (happly : s.apply c.hashSlow p.spec validator header newValidators voteAddrs attestation
        turnLength = .ok s') :
      VerifiedChain c lookups p tree P (header :: parent :: headers) s'

/-! ### Listed headers

A tree, lookups in it and a step of a chain, all of which can be run. -/

/-- Genesis is listed and has no parent in the list, and no two hashes collide. -/
def treeChecks (hashSlow : Header → B256) (genesis : Header) (headers : List Header) : Bool :=
  decide (genesis ∈ headers ∧ genesis.number = 0 ∧
    (∀ h ∈ headers, hashSlow h ≠ genesis.parentHash ∧ hashSlow h ≠ .zero) ∧
    ∀ h ∈ headers, ∀ h' ∈ headers, hashSlow h = hashSlow h' → h = h')

def BlockTree.ofList {hashSlow : Header → B256} (genesis : Header) (headers : List Header)
    (h : treeChecks hashSlow genesis headers = true) : BlockTree hashSlow where
  known := {h | h ∈ headers}
  genesis
  genesis_mem := (of_decide_eq_true h).1
  genesis_number := (of_decide_eq_true h).2.1
  genesis_root header hheader := ((of_decide_eq_true h).2.2.1 header hheader).1
  hash_injOn header hheader header' := (of_decide_eq_true h).2.2.2 header hheader header'
  hash_ne_zero header hheader := ((of_decide_eq_true h).2.2.1 header hheader).2

def Lookups.ofList (hashSlow : Header → B256) (headers : List Header)
    (snapshotByHash : B256 → Option Snapshot) : Lookups where
  snapshotByHash
  headerByHash h := headers.find? fun header => hashSlow header = h
  headerByNumber n := headers.find? fun header => header.number = n
  canonicalHeaderByHash _ := none

theorem mem_of_find_hash {hashSlow : Header → B256} {headers : List Header} {h : B256}
    {header : Header} (hfind : headers.find? (fun header => hashSlow header = h) = some header) :
    header ∈ headers ∧ hashSlow header = h :=
  ⟨List.mem_of_find?_eq_some hfind, by simpa using List.find?_some hfind⟩

/-- The checks that make `header` the next block after `parent`. -/
abbrev VerifiedStep (c : Crypto) (lookups : Lookups) (p : Parlia) (headers : List Header)
    (validator : Address) (parent header : Header) (s s' : Snapshot)
    (attestation : Option VoteAttestation) : Prop :=
  header ∈ headers ∧ header.parentHash = c.hashSlow parent ∧
    p.verifyVoteAttestation c lookups s header parent = .ok () ∧
    p.getVoteAttestationFromHeader header c.decode s.epochNum = .ok attestation ∧
    s.apply c.hashSlow p.spec validator header [] none attestation none = .ok s'

section Chain

variable {c : Crypto} {lookups : Lookups} {p : Parlia} {tree : BlockTree c.hashSlow}
  {P : VoteData → Prop} {headers before : List Header} {h : Header} {s : Snapshot}

theorem VerifiedStep.chain {listed : List Header} {validator : Address} {parent header : Header}
    {s' : Snapshot} {attestation : Option VoteAttestation}
    (hstep : VerifiedStep c lookups p listed validator parent header s s' attestation)
    (hlisted : ∀ h ∈ listed, h ∈ tree.known)
    (before : VerifiedChain c lookups p tree P (parent :: headers) s)
    (hP : ∀ a, attestation = some a → P a.data) :
    VerifiedChain c lookups p tree P (header :: parent :: headers) s' :=
  before.block (hlisted _ hstep.1) hstep.2.1 hstep.2.2.1 hstep.2.2.2.1 hP hstep.2.2.2.2

namespace VerifiedChain

theorem reachable (chain : VerifiedChain c lookups p tree P headers s) :
    Snapshot.Reachable c.hashSlow p.spec s := by
  induction chain with
  | genesis h => exact .genesis h
  | block _ _ _ _ _ _ happly ih => exact .apply ih happly

theorem known (chain : VerifiedChain c lookups p tree P headers s) : ∀ h ∈ headers, h ∈ tree.known := by
  induction chain with
  | genesis _ =>
    intro h hh
    exact List.mem_singleton.mp hh ▸ tree.genesis_mem
  | block _ hknown _ _ _ _ _ ih => simp_all

theorem blockNumber_eq (chain : VerifiedChain c lookups p tree P (h :: before) s) :
    s.blockNumber = h.number := by
  cases chain with
  | genesis hnew =>
    obtain ⟨_, -, hs⟩ := bind_eq_ok.mp hnew
    rw [← ok.inj hs]
    exact tree.genesis_number.symm
  | block _ _ _ _ _ _ happly => exact (Snapshot.apply_spec happly).blockNumber

/-- The number of a block is the number of blocks before it. -/
theorem number_of_suffix (chain : VerifiedChain c lookups p tree P headers s)
    (hsuffix : h :: before <:+ headers) : h.number = UInt64.ofNat before.length := by
  induction chain generalizing h before with
  | genesis _ =>
    rcases List.suffix_cons_iff.mp hsuffix with heq | hnil
    · cases heq
      exact tree.genesis_number
    · exact absurd (List.suffix_nil.mp hnil) (by simp)
  | @block parent header headers s s' _ _ _ _ _ chain _ _ _ _ _ happly ih =>
    rcases List.suffix_cons_iff.mp hsuffix with heq | hsuffix
    · cases heq
      rw [← (Snapshot.apply_spec happly).number, chain.blockNumber_eq, ih (List.suffix_refl _)]
      exact (UInt64.ofNat_add _ 1).symm
    · exact ih hsuffix

/-- Below each block of the chain is the block with its parent hash, except below genesis. -/
theorem linked (chain : VerifiedChain c lookups p tree P headers s)
    (hsuffix : h :: before <:+ headers) :
    (h = tree.genesis ∧ before = []) ∨
      ∃ parent rest, before = parent :: rest ∧ h.parentHash = c.hashSlow parent := by
  induction chain generalizing h before with
  | genesis _ =>
    rcases List.suffix_cons_iff.mp hsuffix with heq | hnil
    · cases heq
      exact .inl ⟨rfl, rfl⟩
    · exact absurd (List.suffix_nil.mp hnil) (by simp)
  | block _ _ hparent _ _ _ _ ih =>
    rcases List.suffix_cons_iff.mp hsuffix with heq | hsuffix
    · cases heq
      exact .inr ⟨_, _, rfl, hparent⟩
    · exact ih hsuffix

end VerifiedChain

/-- The walk of the verifier stays on the chain. -/
theorem VerifiedChain.findAncestor_suffix (chain : VerifiedChain c lookups p tree P headers s)
    (hl : lookups.Faithful tree) {data : VoteData} {n : Nat} {parent ancestor : Header}
    {rest : List Header} (hsuffix : parent :: rest <:+ headers)
    (h : findAncestor c lookups data n parent = .ok ancestor) :
    ∃ before, ancestor :: before <:+ parent :: rest ∧ rest.length < before.length + n ∧
      ancestor.number = data.targetNumber ∧ c.hashSlow ancestor = data.targetHash := by
  induction n generalizing parent rest with
  | zero => exact absurd h (by simp [findAncestor])
  | succ n ih =>
    rw [findAncestor] at h
    split at h
    · next hmatch =>
      cases h
      exact ⟨rest, List.suffix_refl _, by omega, hmatch⟩
    · cases hlookup : lookups.headerByHash parent.parentHash with
      | none => rw [hlookup] at h; exact absurd h (by simp [orError, bind, Except.bind])
      | some next =>
        rw [hlookup] at h
        obtain ⟨hknown, hhash⟩ := hl.headerByHash _ _ hlookup
        rcases chain.linked hsuffix with ⟨rfl, -⟩ | ⟨grandparent, rest', rfl, hlink⟩
        -- nothing known has the hash that genesis gives for its parent
        · exact absurd hhash (tree.genesis_root next hknown)
        · have hbelow : grandparent :: rest' <:+ headers :=
            (List.suffix_cons parent _).trans hsuffix
          have hnext : next = grandparent :=
            tree.hash_injOn hknown (chain.known _ (hbelow.subset List.mem_cons_self))
              (hhash.trans hlink)
          obtain ⟨before, hbefore, hlen, hmatch⟩ := ih hbelow (hnext ▸ h)
          exact ⟨before, hbefore.trans (List.suffix_cons parent _),
            by rw [List.length_cons]; omega, hmatch⟩

/-! ## Vote data -/

/-- The vote data once an attestation with `data` has been recorded: the target always moves, the
source only to the block right below the target. -/
def recordVote (old data : VoteData) : VoteData :=
  if data.sourceNumber + 1 ≠ data.targetNumber then
    { old with targetNumber := data.targetNumber, targetHash := data.targetHash }
  else data

@[simp] theorem recordVote_targetNumber (old data : VoteData) :
    (recordVote old data).targetNumber = data.targetNumber := by
  unfold recordVote
  split <;> rfl

@[simp] theorem recordVote_targetHash (old data : VoteData) :
    (recordVote old data).targetHash = data.targetHash := by
  unfold recordVote
  split <;> rfl

theorem updateAttestation_some (s : Snapshot) (spec : ChainSpec) (header : Header)
    (attestation : VoteAttestation) :
    (s.updateAttestation spec header (some attestation)).voteData =
      if !spec.isFermiActiveAtTimestamp header.number header.timestamp &&
          (attestation.data.targetNumber + 1 != header.number ||
            attestation.data.targetHash != header.parentHash)
      then s.voteData
      else recordVote s.voteData attestation.data := by
  unfold Snapshot.updateAttestation recordVote
  dsimp only
  split
  · rfl
  · split <;> rfl

/-- A verified attestation on a chain whose head has snapshot `s`: its target is one of the last
three blocks, its source the justified block of `s`, and its signers were checked against the
snapshot of the target's parent. -/
structure Attests (c : Crypto) (lookups : Lookups) (s : Snapshot) (headers : List Header)
    (attestation : VoteAttestation) (target : Header) (before : List Header) (justified : Header)
    (preSnap : Snapshot) : Prop where
  onChain : target :: before <:+ headers
  near : headers.length ≤ before.length + 3
  targetNumber : target.number = attestation.data.targetNumber
  targetHash : c.hashSlow target = attestation.data.targetHash
  getJustifiedHeader : RethBsc.getJustifiedHeader lookups s = .ok justified
  sourceNumber : attestation.data.sourceNumber = justified.number
  sourceHash : attestation.data.sourceHash = c.hashSlow justified
  snapshotByHash : lookups.snapshotByHash target.parentHash = some preSnap
  signers : verifySigners c preSnap attestation = .ok ()

variable {parent header : Header} {s' : Snapshot} {validator : Address}
  {newValidators : List Address} {voteAddrs : Option (List VoteAddress)}
  {attestation : VoteAttestation} {turnLength : Option UInt8}

/-- Before Fermi the only target is the parent block, so a verified attestation passes the check of
`update_attestation` too. -/
theorem recordVote_of_findAncestor (hblock : s.blockNumber = parent.number)
    (hparent : header.parentHash = c.hashSlow parent)
    (happly : s.apply c.hashSlow p.spec validator header newValidators voteAddrs (some attestation)
      turnLength = .ok s') {ancestor : Header}
    (hancestor : findAncestor c lookups attestation.data (p.walkDepth header) parent
      = .ok ancestor) :
    s'.voteData = recordVote s.voteData attestation.data := by
  have happlied := Snapshot.apply_spec happly
  rw [happlied.voteData, updateAttestation_some, if_neg]
  intro hgate
  cases hfermi : p.spec.isFermiActiveAtTimestamp header.number header.timestamp with
  | true => rw [hfermi] at hgate; simp at hgate
  | false =>
    have hdepth : p.walkDepth header = 1 := by unfold Parlia.walkDepth; rw [hfermi]; rfl
    rw [hdepth, findAncestor] at hancestor
    split at hancestor
    · next hmatch =>
      obtain ⟨hnumber, hhash⟩ := hmatch
      rw [hfermi, ← hnumber, ← hhash, hparent, ← hblock, happlied.number] at hgate
      simp at hgate
    -- the walk was over after the parent
    · obtain ⟨_, _, hancestor⟩ := except_bind_eq_ok.mp hancestor
      exact absurd hancestor (by simp [findAncestor])

theorem VerifiedChain.records (chain : VerifiedChain c lookups p tree P (parent :: headers) s)
    (hparent : header.parentHash = c.hashSlow parent)
    (happly : s.apply c.hashSlow p.spec validator header newValidators voteAddrs (some attestation)
      turnLength = .ok s') {ancestor : Header}
    (hancestor : findAncestor c lookups attestation.data (p.walkDepth header) parent
      = .ok ancestor) :
    s'.voteData = recordVote s.voteData attestation.data :=
  recordVote_of_findAncestor chain.blockNumber_eq hparent happly hancestor

theorem VerifiedChain.attests (chain : VerifiedChain c lookups p tree P (parent :: headers) s)
    (hl : lookups.Faithful tree) (hplato : p.spec.isPlatoActiveAtBlock header.number = true)
    (hverify : p.verifyVoteAttestation c lookups s header parent = .ok ())
    (hattestation : p.getVoteAttestationFromHeader header c.decode s.epochNum
      = .ok (some attestation)) :
    ∃ target before justified preSnap,
      findAncestor c lookups attestation.data (p.walkDepth header) parent = .ok target ∧
      Attests c lookups s (parent :: headers) attestation target before justified preSnap := by
  obtain ⟨-, target, justified, preSnap, hancestor, hjustified, hnumber, hhash, hpre, hsigners⟩ :=
    (verifyVoteAttestation_eq_ok hplato hattestation).mp hverify
  obtain ⟨before, hsuffix, hlen, htargetNumber, htargetHash⟩ :=
    chain.findAncestor_suffix hl (List.suffix_refl _) hancestor
  have hdepth : p.walkDepth header ≤ 3 := by
    unfold Parlia.walkDepth kAncestorGenerationDepth
    split <;> omega
  exact ⟨target, before, justified, preSnap, hancestor, hsuffix, by rw [List.length_cons]; omega,
    htargetNumber, htargetHash, hjustified, hnumber, hhash, hpre, hsigners⟩

/-- The recorded target is a block of the chain. -/
def TargetOnChain (c : Crypto) (s : Snapshot) (headers : List Header) : Prop :=
  ∃ target ∈ headers, target.number = s.voteData.targetNumber ∧
    c.hashSlow target = s.voteData.targetHash

theorem TargetOnChain.cons (h : TargetOnChain c s headers) (heq : s'.voteData = s.voteData) :
    TargetOnChain c s' (header :: headers) := by
  obtain ⟨target, hmem, hnumber, hhash⟩ := h
  exact ⟨target, List.mem_cons_of_mem _ hmem, heq ▸ hnumber, heq ▸ hhash⟩

/-- **The recorded target.** On a verified chain either no attestation has been recorded or the
recorded target is a block of the chain.  Before Plato attestations are not verified, but as long
as Fermi is not active either, only the parent block can become the target. -/
theorem VerifiedChain.target_onChain (chain : VerifiedChain c lookups p tree P headers s)
    (hl : lookups.Faithful tree)
    (hforks : ∀ h ∈ headers, p.spec.isFermiActiveAtTimestamp h.number h.timestamp = true →
      p.spec.isPlatoActiveAtBlock h.number = true) :
    s.voteData = default ∨ TargetOnChain c s headers := by
  induction chain with
  | genesis hnew =>
    obtain ⟨_, -, hs⟩ := bind_eq_ok.mp hnew
    exact .inl (by rw [← ok.inj hs])
  | @block parent header headers s s' _ _ _ attestation _ chain hknown hparent hverify
      hattestation _ happly ih =>
    have happlied := Snapshot.apply_spec happly
    have hbefore := ih fun h hh => hforks h (List.mem_cons_of_mem _ hh)
    have hkeep : s'.voteData = s.voteData →
        s'.voteData = default ∨ TargetOnChain c s' (header :: parent :: headers) := fun heq =>
      hbefore.imp heq.trans (·.cons heq)
    cases attestation with
    | none => exact hkeep happlied.voteData
    | some attestation =>
      cases hplato : p.spec.isPlatoActiveAtBlock header.number with
      | true =>
        obtain ⟨target, before, _, _, hancestor, hatt⟩ := chain.attests hl hplato hverify hattestation
        have hrecord := chain.records hparent happly hancestor
        have hmem := hatt.onChain.subset List.mem_cons_self
        refine .inr ⟨target, List.mem_cons_of_mem _ hmem, ?_, ?_⟩
        · rw [hrecord, recordVote_targetNumber, hatt.targetNumber]
        · rw [hrecord, recordVote_targetHash, hatt.targetHash]
      | false =>
        have hfermi : p.spec.isFermiActiveAtTimestamp header.number header.timestamp = false := by
          simp_all
        have hupdate := happlied.voteData
        rw [updateAttestation_some, hfermi] at hupdate
        split at hupdate
        · exact hkeep hupdate
        · next hgate =>
          simp only [Bool.not_false, Bool.true_and, Bool.or_eq_true, bne_iff_ne, ne_eq, not_or,
            not_not] at hgate
          refine .inr ⟨parent, by simp, ?_, ?_⟩
          · rw [hupdate, recordVote_targetNumber, ← chain.blockNumber_eq]
            exact (UInt64.add_left_inj 1).mp (happlied.number.trans hgate.1.symm)
          · rw [hupdate, recordVote_targetHash, hgate.2, hparent]

end Chain

end RethBsc
