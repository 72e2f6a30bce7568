import Mathlib.Logic.Relation
import RethBsc.Finality.Casper
import RethBsc.Parlia.AssembleRobust
import RethBsc.Parlia.VerifiedChain

/-!
# Accountable safety of fast finality

Two verified chains that finalize blocks on different branches expose a third of the validators.
The general argument is in `RethBsc.Finality.Casper`; this module shows that the rules of the code
are an instance of it.

* `supermajority_of_verifySigners`: the checks of `verify_vote_attestation` on the signers give a
  two-thirds majority, provided that the aggregate check means what it should.
* `VerifiedChain.branch`: the blocks of a verified chain are a branch.
* `Progress` is the invariant of `update_attestation`: the justified block is justified by links
  along the chain, and the recorded source is finalized.  `Progress.keep` and `Progress.attest` are
  the steps and `VerifiedChain.progress` is the run.
* `accountable_safety`: the theorem.
-/

namespace RethBsc

open Rust

/-! ## Signers -/

section Signers

variable {c : Crypto} {base s : Snapshot} {set : UInt64} {addrs : List VoteAddress}
  {attestation : VoteAttestation} {signed : VoteAddress → VoteData → Prop}

/-- The vote addresses of the validators. -/
def Snapshot.voteAddrSet (s : Snapshot) : Finset VoteAddress :=
  (s.validators.map s.voteAddr).toFinset

theorem Snapshot.DistinctVoteAddrs.card_voteAddrSet (h : s.DistinctVoteAddrs) :
    s.voteAddrSet.card = s.validators.length := by
  rw [voteAddrSet, List.toFinset_card_of_nodup h, List.length_map]

/-- The snapshot has the validators of `base`. -/
def Snapshot.SameValidators (base s : Snapshot) : Prop :=
  s.validators = base.validators ∧ s.validatorsMap = base.validatorsMap

theorem Snapshot.SameValidators.voteAddr (h : base.SameValidators s) : s.voteAddr = base.voteAddr := by
  funext v
  rw [Snapshot.voteAddr, h.2]
  rfl

theorem mapM_voteAddr_eq_ok {l : List (Address × Nat)}
    (h : (l.mapM fun vi => orError (.voteAddrNotFoundInSnap vi.1)
      ((s.validatorsMap.lookup vi.1).map ValidatorInfo.voteAddr) :
        Except AttestationError (List VoteAddress)) = .ok addrs) :
    addrs = l.map fun vi => s.voteAddr vi.1 := by
  induction l generalizing addrs with
  | nil => exact (Except.ok.inj h).symm
  | cons vi l ih =>
    rw [List.mapM_cons] at h
    obtain ⟨addr, haddr, h⟩ := except_bind_eq_ok.mp h
    obtain ⟨rest, hrest, h⟩ := except_bind_eq_ok.mp h
    rw [← Except.ok.inj h, List.map_cons, ih hrest, Snapshot.voteAddr, orError_eq_ok.mp haddr]
    rfl

/-- The vote addresses behind a bit set are vote addresses of validators, in their order. -/
theorem bitSetVoteAddrs_sublist (h : bitSetVoteAddrs s set = .ok addrs) :
    addrs.Sublist (s.validators.map s.voteAddr) := by
  rw [mapM_voteAddr_eq_ok h]
  have hfst : s.validators.map s.voteAddr = s.validators.zipIdx.map fun vi => s.voteAddr vi.1 := by
    conv_lhs => rw [← List.zipIdx_map_fst 0 s.validators, List.map_map]
    rfl
  rw [hfst]
  exact List.filter_sublist.map _

/-- What `verify_vote_attestation` checks of the signers. -/
theorem verifySigners_eq_ok (h : verifySigners c s attestation = .ok ()) :
    countOnes attestation.voteAddressSet ≤ s.validators.length ∧
    ∃ addrs, bitSetVoteAddrs s attestation.voteAddressSet = .ok addrs ∧ s.quorum ≤ addrs.length ∧
      c.verifyAggregate attestation.aggSignature (c.voteHash attestation.data) addrs = true := by
  unfold verifySigners at h
  dsimp only at h
  obtain ⟨hcount, h⟩ := throw_if_eq_ok.mp h
  obtain ⟨addrs, haddrs, h⟩ := except_bind_eq_ok.mp h
  obtain ⟨hquorum, h⟩ := throw_if_eq_ok.mp h
  refine ⟨Nat.le_of_not_lt hcount, addrs, haddrs, Nat.le_of_not_lt hquorum, ?_⟩
  cases hverify : c.verifyAggregate attestation.aggSignature (c.voteHash attestation.data) addrs with
  | true => rfl
  | false => rw [hverify] at h; exact absurd h (by simp [throw, throwThe, MonadExceptOf.throw])

theorem supermajority_of_verifySigners
    (hbls : ∀ sig data addrs, c.verifyAggregate sig (c.voteHash data) addrs = true →
      ∀ a ∈ addrs, signed a data) (hdistinct : base.DistinctVoteAddrs)
    (hsame : base.SameValidators s) (h : verifySigners c s attestation = .ok ()) :
    Finality.Supermajority base.voteAddrSet signed attestation.data := by
  obtain ⟨-, addrs, haddrs, hquorum, hverify⟩ := verifySigners_eq_ok h
  have hsub : addrs.Sublist (base.validators.map base.voteAddr) := by
    rw [← hsame.1, ← hsame.voteAddr]
    exact bitSetVoteAddrs_sublist haddrs
  refine ⟨addrs.toFinset, fun a ha => ?_, ?_, fun a ha => ?_⟩
  · exact List.mem_toFinset.mpr (hsub.subset (List.mem_toFinset.mp ha))
  · rw [List.toFinset_card_of_nodup (hdistinct.sublist hsub), hdistinct.card_voteAddrSet]
    rw [Snapshot.quorum, hsame.1] at hquorum
    omega
  · exact hbls _ _ _ hverify a (List.mem_toFinset.mp ha)

end Signers

/-! ## Ancestors -/

/-- `a` is `b` or an ancestor of `b`: parent hashes lead from `b` to `a` through known headers. -/
def BlockTree.IsAncestor {hashSlow : Header → B256} (tree : BlockTree hashSlow) :
    Header → Header → Prop :=
  Relation.ReflTransGen fun a b => a ∈ tree.known ∧ b.parentHash = hashSlow a

section Chain

variable {c : Crypto} {lookups : Lookups} {p : Parlia} {tree : BlockTree c.hashSlow}
  {P : VoteData → Prop} {headers : List Header} {s : Snapshot}

theorem exists_suffix_of_mem {h : Header} (hmem : h ∈ headers) :
    ∃ before, h :: before <:+ headers := by
  obtain ⟨after, before, rfl⟩ := List.append_of_mem hmem
  exact ⟨before, List.suffix_append after _⟩

namespace VerifiedChain

/-- Lower on the chain means ancestor. -/
theorem isAncestor_of_suffix (chain : VerifiedChain c lookups p tree P headers s)
    {a b : Header} {beforeA beforeB : List Header} (hb : b :: beforeB <:+ headers)
    (hab : a :: beforeA <:+ b :: beforeB) : tree.IsAncestor a b := by
  induction beforeB generalizing b with
  | nil =>
    rcases List.suffix_cons_iff.mp hab with heq | hnil
    · exact (List.cons.inj heq).1 ▸ .refl
    · exact absurd (List.suffix_nil.mp hnil) (by simp)
  | cons parent rest ih =>
    rcases List.suffix_cons_iff.mp hab with heq | hab
    · exact (List.cons.inj heq).1 ▸ .refl
    · have hbelow : parent :: rest <:+ headers := (List.suffix_cons b _).trans hb
      have hlink : b.parentHash = c.hashSlow parent := by
        rcases chain.linked hb with ⟨-, hnil⟩ | ⟨parent', rest', heq, hlink⟩
        · simp at hnil
        · rwa [(List.cons.inj heq).1]
      have hknown := chain.known parent (hbelow.subset List.mem_cons_self)
      exact (ih hbelow hab).tail ⟨hknown, hlink⟩

/-- The parent of a block of the chain is on the chain. -/
theorem parent_mem (chain : VerifiedChain c lookups p tree P headers s) {a b : Header}
    (hb : b ∈ headers) (ha : a ∈ tree.known) (hlink : b.parentHash = c.hashSlow a) :
    a ∈ headers := by
  obtain ⟨before, hsuffix⟩ := exists_suffix_of_mem hb
  rcases chain.linked hsuffix with ⟨rfl, -⟩ | ⟨parent, rest, rfl, hparent⟩
  · exact absurd hlink.symm (tree.genesis_root a ha)
  · have hmem : parent ∈ headers := hsuffix.subset (by simp)
    rwa [tree.hash_injOn ha (chain.known _ hmem) (hlink.symm.trans hparent)]

theorem branch (chain : VerifiedChain c lookups p tree P headers s) :
    Finality.Branch tree.IsAncestor (· ∈ headers) := by
  refine ⟨fun a b hb hab => ?_, fun a b ha hb => ?_⟩
  · induction hab with
    | refl => exact hb
    | tail _ hstep ih => exact ih (chain.parent_mem hb hstep.1 hstep.2)
  · obtain ⟨beforeA, hsuffixA⟩ := exists_suffix_of_mem ha
    obtain ⟨beforeB, hsuffixB⟩ := exists_suffix_of_mem hb
    rcases List.suffix_or_suffix_of_suffix hsuffixA hsuffixB with hab | hba
    · exact .inl (chain.isAncestor_of_suffix hsuffixB hab)
    · exact .inr (chain.isAncestor_of_suffix hsuffixA hba)

/-- A block above genesis is not genesis: nothing known can be the parent of genesis. -/
theorem ne_genesis (chain : VerifiedChain c lookups p tree P headers s) {parent header : Header}
    (hmem : parent ∈ headers) (hlink : header.parentHash = c.hashSlow parent) :
    header ≠ tree.genesis := fun heq =>
  tree.genesis_root parent (chain.known _ hmem) (heq ▸ hlink).symm

end VerifiedChain

/-! ## Justified and finalized blocks of a chain -/

variable (c) in
/-- Two thirds of the validators of `base` signed a vote from `s` to `t`. -/
def VoteLink (base : Snapshot) (signed : VoteAddress → VoteData → Prop) (s t : Header) : Prop :=
  ∃ d, Finality.Link base.voteAddrSet signed (fun d => d.sourceNumber.toNat)
    (fun d => d.targetNumber.toNat) VoteData.targetHash (fun h => h.number.toNat) c.hashSlow d s t

/-- The block that the next attestation has to start from is justified, and the recorded source, if
it is above genesis, is finalized. -/
structure Progress (c : Crypto) (lookups : Lookups) (tree : BlockTree c.hashSlow) (base : Snapshot)
    (signed : VoteAddress → VoteData → Prop) (headers : List Header) (s : Snapshot) : Prop where
  justified : ∀ j, getJustifiedHeader lookups s = .ok j →
    Finality.Justified (VoteLink c base signed) tree.genesis (· ∈ headers) j ∧
      ∃ before, j :: before <:+ headers ∧
        (j = tree.genesis ∨ before.length + 2 ≤ headers.length)
  finalized : s.voteData.sourceNumber = 0 ∨
    ∃ f child, f.number = s.voteData.sourceNumber ∧ c.hashSlow f = s.voteData.sourceHash ∧
      Finality.Finalized (VoteLink c base signed) tree.IsAncestor (fun h => h.number.toNat)
        tree.genesis (· ∈ headers) f child

variable {base s' : Snapshot} {signed : VoteAddress → VoteData → Prop} {header parent : Header}

theorem getJustifiedHeader_congr (h : s'.voteData = s.voteData) :
    getJustifiedHeader lookups s' = getJustifiedHeader lookups s := by
  unfold getJustifiedHeader
  rw [h]

theorem Progress.keep (h : Progress c lookups tree base signed headers s)
    (heq : s'.voteData = s.voteData) :
    Progress c lookups tree base signed (header :: headers) s' := by
  have hmem : ∀ b, b ∈ headers → b ∈ header :: headers := fun b hb => List.mem_cons_of_mem _ hb
  refine ⟨fun j hj => ?_, ?_⟩
  · rw [getJustifiedHeader_congr heq] at hj
    obtain ⟨hjustified, before, hsuffix, hlen⟩ := h.justified j hj
    refine ⟨hjustified.mono hmem, before, hsuffix.trans (List.suffix_cons header _), ?_⟩
    exact hlen.imp_right fun hlen => by rw [List.length_cons]; omega
  · rw [heq]
    exact h.finalized.imp_right fun ⟨f, child, hnumber, hhash, hfinal⟩ =>
      ⟨f, child, hnumber, hhash, hfinal.mono hmem⟩

/-- The source of a verified attestation is below its target if the target is one higher.  Block
numbers wrap around, but not between two of the last blocks. -/
theorem VerifiedChain.isAncestor_of_number_succ
    (chain : VerifiedChain c lookups p tree P headers s) {f t : Header}
    {beforeF beforeT : List Header} (hf : f :: beforeF <:+ headers) (ht : t :: beforeT <:+ headers)
    (hlen : beforeF.length + 2 ≤ headers.length) (hnear : headers.length ≤ beforeT.length + 3)
    (hnumber : t.number = f.number + 1) : tree.IsAncestor f t := by
  rcases List.suffix_or_suffix_of_suffix hf ht with hft | htf
  · exact chain.isAncestor_of_suffix ht hft
  · have hle : beforeT.length ≤ beforeF.length := by
      have := htf.length_le
      rw [List.length_cons, List.length_cons] at this
      omega
    rw [chain.number_of_suffix hf, chain.number_of_suffix ht, ← UInt64.toNat_inj, UInt64.toNat_add,
      UInt64.toNat_ofNat', UInt64.toNat_ofNat'] at hnumber
    rw [show (1 : UInt64).toNat = 1 from rfl] at hnumber
    omega

theorem toNat_eq_succ {a b : UInt64} (hsucc : a + 1 = b) (hlt : a < b) :
    b.toNat = a.toNat + 1 := by
  rw [UInt64.lt_iff_toNat_lt] at hlt
  rw [← hsucc, UInt64.toNat_add, show (1 : UInt64).toNat = 1 from rfl] at hlt ⊢
  have := a.toNat_lt
  omega

/-- A verified attestation makes its target the justified block, and finalizes its source if that
is right below the target. -/
theorem Progress.attest {attestation : VoteAttestation} {target justified : Header}
    {before : List Header} {preSnap : Snapshot} (chain : VerifiedChain c lookups p tree P headers s)
    (hl : lookups.Faithful tree) (h : Progress c lookups tree base signed headers s)
    (hatt : Attests c lookups s headers attestation target before justified preSnap)
    (hsuper : Finality.Supermajority base.voteAddrSet signed attestation.data)
    (hlt : attestation.data.sourceNumber < attestation.data.targetNumber)
    (hrecord : s'.voteData = recordVote s.voteData attestation.data) :
    Progress c lookups tree base signed (header :: headers) s' := by
  have hmem : ∀ b, b ∈ headers → b ∈ header :: headers := fun b hb => List.mem_cons_of_mem _ hb
  have htarget : target ∈ headers := hatt.onChain.subset List.mem_cons_self
  have hknown := chain.known target htarget
  obtain ⟨hjustified, beforeJ, hsuffixJ, hlenJ⟩ := h.justified justified hatt.getJustifiedHeader
  have hlink : VoteLink c base signed justified target :=
    ⟨attestation.data, hsuper, by rw [hatt.sourceNumber], by rw [hatt.targetNumber],
      hatt.targetHash.symm⟩
  refine ⟨fun j hj => ?_, ?_⟩
  · -- the new justified block is the one with the hash of the target
    have htargetHash : s'.voteData.targetHash = c.hashSlow target := by
      rw [hrecord, recordVote_targetHash, hatt.targetHash]
    have hne : s'.voteData.targetHash ≠ .zero :=
      htargetHash ▸ tree.hash_ne_zero target hknown
    unfold getJustifiedHeader at hj
    rw [if_neg fun hzero => hne hzero.2, orError_eq_ok] at hj
    obtain ⟨hjknown, hjhash⟩ := hl.headerByHash _ _ hj
    obtain rfl : j = target := tree.hash_injOn hjknown hknown (hjhash.trans htargetHash)
    refine ⟨.link (hjustified.mono hmem) hlink (hmem _ htarget), before,
      hatt.onChain.trans (List.suffix_cons header _), .inr ?_⟩
    have := hatt.onChain.length_le
    rw [List.length_cons] at this ⊢
    omega
  · unfold recordVote at hrecord
    split at hrecord
    · rw [hrecord]
      exact h.finalized.imp_right fun ⟨f, child, hnumber, hhash, hfinal⟩ =>
        ⟨f, child, hnumber, hhash, hfinal.mono hmem⟩
    · next hsucc =>
      rw [ne_eq, not_not] at hsucc
      rw [hrecord]
      by_cases hzero : attestation.data.sourceNumber = 0
      · exact .inl hzero
      · have hheight : target.number.toNat = justified.number.toNat + 1 := by
          rw [hatt.targetNumber, ← hatt.sourceNumber]
          exact toNat_eq_succ hsucc hlt
        have hnotGenesis : justified ≠ tree.genesis := fun heq =>
          hzero (by rw [hatt.sourceNumber, heq, tree.genesis_number])
        have hbelow : tree.IsAncestor justified target :=
          chain.isAncestor_of_number_succ hsuffixJ hatt.onChain (hlenJ.resolve_left hnotGenesis)
            hatt.near (by rw [hatt.targetNumber, ← hsucc, hatt.sourceNumber])
        exact .inr ⟨justified, target, hatt.sourceNumber.symm, hatt.sourceHash.symm,
          hjustified.mono hmem, hlink, hmem _ htarget, hbelow, hheight⟩

/-- The invariant holds along every chain on which Plato is active after genesis and every
attestation goes up. -/
theorem VerifiedChain.progress
    (chain : VerifiedChain c lookups p tree (fun d => d.sourceNumber < d.targetNumber) headers s)
    (hl : lookups.Faithful tree)
    (hplato : ∀ h ∈ headers, h ≠ tree.genesis → p.spec.isPlatoActiveAtBlock h.number = true)
    (hdistinct : base.DistinctVoteAddrs)
    (hsame : ∀ h s, lookups.snapshotByHash h = some s → base.SameValidators s)
    (hbls : ∀ sig data addrs, c.verifyAggregate sig (c.voteHash data) addrs = true →
      ∀ a ∈ addrs, signed a data) :
    Progress c lookups tree base signed headers s := by
  induction chain with
  | genesis hnew =>
    obtain ⟨_, -, hs⟩ := Outcome.bind_eq_ok.mp hnew
    have hvote : _ = default := congrArg Snapshot.voteData (Outcome.ok.inj hs).symm
    refine ⟨fun j hj => ?_, .inl (by rw [hvote]; rfl)⟩
    unfold getJustifiedHeader at hj
    rw [if_pos ⟨by rw [hvote]; rfl, by rw [hvote]; rfl⟩, hl.headerByNumber_zero] at hj
    obtain rfl : tree.genesis = j := Except.ok.inj hj
    exact ⟨.root List.mem_cons_self, [], List.suffix_refl _, .inl rfl⟩
  | @block parent header headers s s' _ _ _ attestation _ chain hknown hparent hverify
      hattestation hP happly ih =>
    have hbefore := ih fun h hh => hplato h (List.mem_cons_of_mem _ hh)
    cases attestation with
    | none => exact hbefore.keep (Snapshot.apply_spec happly).voteData
    | some attestation =>
      have hactive := hplato header List.mem_cons_self
        (chain.ne_genesis List.mem_cons_self hparent)
      obtain ⟨target, before, justified, preSnap, hancestor, hatt⟩ :=
        chain.attests hl hactive hverify hattestation
      have hsuper := supermajority_of_verifySigners hbls hdistinct
        (hsame _ _ hatt.snapshotByHash) hatt.signers
      exact hbefore.attest chain hl hatt hsuper (hP attestation rfl)
        (chain.records hparent happly hancestor)

end Chain

/-! ## The theorem -/

/-- Somebody signed two different votes for one height, or two votes of which one surrounds the
other. -/
def BreaksVoteRules (signed : VoteAddress → VoteData → Prop) (a : VoteAddress) : Prop :=
  ∃ d d', signed a d ∧ signed a d' ∧
    ((d ≠ d' ∧ d.targetNumber = d'.targetNumber) ∨
      (d.sourceNumber < d'.sourceNumber ∧ d'.targetNumber < d.targetNumber))

theorem breaksVoteRules_of_slashable {signed : VoteAddress → VoteData → Prop} {a : VoteAddress}
    (h : Finality.Slashable signed (fun d => d.sourceNumber.toNat) (fun d => d.targetNumber.toNat)
      a) : BreaksVoteRules signed a := by
  obtain ⟨d, d', hd, hd', hconflict⟩ := h
  refine ⟨d, d', hd, hd', hconflict.imp (fun ⟨hne, heq⟩ => ⟨hne, ?_⟩) fun ⟨hs, ht⟩ => ⟨?_, ?_⟩⟩
  · exact UInt64.toNat_inj.mp heq
  · exact UInt64.lt_iff_toNat_lt.mpr hs
  · exact UInt64.lt_iff_toNat_lt.mpr ht

/-- The finalized block of a chain, above genesis. -/
theorem Progress.finalizedBlock {c : Crypto} {lookups : Lookups} {tree : BlockTree c.hashSlow}
    {base s : Snapshot} {signed : VoteAddress → VoteData → Prop} {headers : List Header}
    {f : Header} (h : Progress c lookups tree base signed headers s)
    (hknown : ∀ b ∈ headers, b ∈ tree.known) (hs : 0 < s.voteData.sourceNumber)
    (hf : f ∈ tree.known) (hhash : c.hashSlow f = s.voteData.sourceHash) :
    tree.genesis.number.toNat < f.number.toNat ∧
      ∃ child, Finality.Finalized (VoteLink c base signed) tree.IsAncestor
        (fun h => h.number.toNat) tree.genesis (· ∈ headers) f child := by
  rcases h.finalized with hzero | ⟨f', child, hnumber, hhash', hfinal⟩
  · rw [hzero] at hs
    exact absurd hs (UInt64.lt_irrefl 0)
  · obtain rfl : f = f' :=
      tree.hash_injOn hf (hknown _ hfinal.justified.mem) (hhash.trans hhash'.symm)
    refine ⟨?_, child, hfinal⟩
    rw [tree.genesis_number, hnumber]
    exact UInt64.lt_iff_toNat_lt.mp hs

/-- **Accountable safety.** The validators are those of `base`, in every snapshot consulted.  Two
verified chains from the same genesis, with Plato active after genesis and attestations that go up,
have finalized blocks of which neither comes before the other.  Then at least a third of the
validators broke a vote rule. -/
theorem accountable_safety (c : Crypto) (p : Parlia) (tree : BlockTree c.hashSlow)
    (lookups₁ lookups₂ : Lookups) (hl₁ : lookups₁.Faithful tree) (hl₂ : lookups₂.Faithful tree)
    (base : Snapshot) (hdistinct : base.DistinctVoteAddrs)
    (hsame₁ : ∀ h s, lookups₁.snapshotByHash h = some s → base.SameValidators s)
    (hsame₂ : ∀ h s, lookups₂.snapshotByHash h = some s → base.SameValidators s)
    (signed : VoteAddress → VoteData → Prop)
    (hbls : ∀ sig data addrs, c.verifyAggregate sig (c.voteHash data) addrs = true →
      ∀ a ∈ addrs, signed a data) (headers₁ headers₂ : List Header) (s₁ s₂ : Snapshot)
    (chain₁ : VerifiedChain c lookups₁ p tree (fun d => d.sourceNumber < d.targetNumber)
      headers₁ s₁)
    (chain₂ : VerifiedChain c lookups₂ p tree (fun d => d.sourceNumber < d.targetNumber)
      headers₂ s₂)
    (hplato₁ : ∀ h ∈ headers₁, h ≠ tree.genesis → p.spec.isPlatoActiveAtBlock h.number = true)
    (hplato₂ : ∀ h ∈ headers₂, h ≠ tree.genesis → p.spec.isPlatoActiveAtBlock h.number = true)
    (hs₁ : 0 < s₁.voteData.sourceNumber) (hs₂ : 0 < s₂.voteData.sourceNumber) (f₁ f₂ : Header)
    (hf₁ : f₁ ∈ tree.known) (hf₂ : f₂ ∈ tree.known)
    (hhash₁ : c.hashSlow f₁ = s₁.voteData.sourceHash)
    (hhash₂ : c.hashSlow f₂ = s₂.voteData.sourceHash) (hnot₁ : ¬ tree.IsAncestor f₁ f₂)
    (hnot₂ : ¬ tree.IsAncestor f₂ f₁) :
    ∃ offenders ⊆ base.voteAddrSet, (base.validators.length + 2) / 3 ≤ offenders.card ∧
      ∀ a ∈ offenders, BreaksVoteRules signed a := by
  have hprogress₁ := chain₁.progress hl₁ hplato₁ hdistinct hsame₁ hbls
  have hprogress₂ := chain₂.progress hl₂ hplato₂ hdistinct hsame₂ hbls
  obtain ⟨hroot₁, child₁, hfinal₁⟩ := hprogress₁.finalizedBlock chain₁.known hs₁ hf₁ hhash₁
  obtain ⟨hroot₂, child₂, hfinal₂⟩ := hprogress₂.finalizedBlock chain₂.known hs₂ hf₂ hhash₂
  obtain ⟨offenders, hsub, hcard, hslash⟩ :=
    Finality.accountable tree.hash_injOn chain₁.known chain₂.known
      chain₁.branch chain₂.branch hfinal₁ hfinal₂ hroot₁ hroot₂ hnot₁ hnot₂
  rw [hdistinct.card_voteAddrSet] at hcard
  exact ⟨offenders, hsub, hcard, fun a ha => breaksVoteRules_of_slashable (hslash a ha)⟩

/-! ## A fork with one validator

Two branches of three blocks.  The only validator votes for the first two blocks of both. -/

/-- Luban and Plato are active from genesis on. -/
def platoSpec : ChainSpec where
  bscForkActivation
    | .luban => .block 0
    | .plato => .block 0
    | _ => .never
  ethereumForkActivation _ := .never

/-- Hashes by number and branch, which is in the gas used. -/
def forkHash (h : Header) : B256 := b256OfUInt64 (h.number * 4 + h.gasUsed + 1)

/-- The hash of block `number` on a branch; block 0 is on both. -/
def forkHashAt (branch number : UInt64) : B256 :=
  b256OfUInt64 (number * 4 + (if number = 0 then 0 else branch) + 1)

/-- The vote from block `number` to the next one. -/
def forkVote (branch number : UInt64) : VoteData :=
  ⟨number, forkHashAt branch number, number + 1, forkHashAt branch (number + 1)⟩

/-- The attestation in block `number` of a branch. -/
def forkAttestation (branch number : UInt64) : VoteAttestation :=
  ⟨1, .repeatByte 96 1, forkVote branch (number - 2), []⟩

def forkHeader (branch number : UInt64) : Header :=
  { (default : Header) with
    parentHash := if number = 0 then .zero else forkHashAt branch (number - 1)
    number
    gasUsed := if number = 0 then 0 else branch
    extraData := List.replicate 32 0 ++
      (if number < 2 then [] else flatEncode (forkAttestation branch number)) ++
      List.replicate 65 0 }

def forkHeaders : List Header :=
  [forkHeader 1 0, forkHeader 1 1, forkHeader 1 2, forkHeader 1 3, forkHeader 2 1, forkHeader 2 2,
    forkHeader 2 3]

/-- What the validator has signed. -/
def forkVotes : List VoteData := [forkVote 1 0, forkVote 1 1, forkVote 2 0, forkVote 2 1]

def forkCrypto : Crypto :=
  { markedCrypto with
    hashSlow := forkHash
    voteHash := VoteData.targetHash
    decode := fun bytes => [forkAttestation 1 2, forkAttestation 1 3, forkAttestation 2 2,
      forkAttestation 2 3].find? fun attestation => flatEncode attestation = bytes
    fastAggregateVerify := fun sig message _ =>
      sig && (forkVotes.map VoteData.targetHash).contains message }

def forkSnapshot (branch number : UInt64) (voteData : VoteData) : Snapshot :=
  ⟨200, number, forkHashAt branch number, [loneValidator],
    (∅ : Map Address ValidatorInfo).insert loneValidator ⟨1, loneVoteAddress⟩,
    (∅ : Map UInt64 Address).insert number loneValidator, voteData, some 1, 3000⟩

def forkLookups : Lookups := .ofList forkHash forkHeaders fun _ => some (forkSnapshot 1 1 default)

def forkTree : BlockTree forkCrypto.hashSlow :=
  .ofList (forkHeader 1 0) forkHeaders (by decide +kernel)

theorem forkLookups_faithful : forkLookups.Faithful forkTree :=
  ⟨fun _ _ => mem_of_find_hash, by decide +kernel⟩

abbrev ForkStep : Header → Header → Snapshot → Snapshot → Option VoteAttestation → Prop :=
  VerifiedStep forkCrypto forkLookups (.ofSpec platoSpec) forkHeaders loneValidator

theorem forall_branches {P : UInt64 → Prop} (h₁ : P 1) (h₂ : P 2) :
    ∀ branch ∈ ([1, 2] : List UInt64), P branch := by
  simp [*]

theorem forkGenesis :
    Snapshot.new [loneValidator] 0 (forkHash (forkHeader 1 0)) defaultEpochLength
      (some [loneVoteAddress]) = .ok { forkSnapshot 1 0 default with recentProposers := ∅ } := rfl

theorem forkStep_one : ∀ branch ∈ ([1, 2] : List UInt64),
    ForkStep (forkHeader 1 0) (forkHeader branch 1)
      { forkSnapshot 1 0 default with recentProposers := ∅ } (forkSnapshot branch 1 default)
      none :=
  forall_branches (by decide +kernel) (by decide +kernel)

theorem forkStep_two : ∀ branch ∈ ([1, 2] : List UInt64),
    ForkStep (forkHeader branch 1) (forkHeader branch 2) (forkSnapshot branch 1 default)
      (forkSnapshot branch 2 (forkVote branch 0)) (forkAttestation branch 2) :=
  forall_branches (by decide +kernel) (by decide +kernel)

theorem forkStep_three : ∀ branch ∈ ([1, 2] : List UInt64),
    ForkStep (forkHeader branch 2) (forkHeader branch 3)
      (forkSnapshot branch 2 (forkVote branch 0)) (forkSnapshot branch 3 (forkVote branch 1))
      (forkAttestation branch 3) :=
  forall_branches (by decide +kernel) (by decide +kernel)

/-- The chain of a branch up to its last block. -/
theorem forkChain : ∀ branch ∈ ([1, 2] : List UInt64),
    VerifiedChain forkCrypto forkLookups (.ofSpec platoSpec) forkTree
      (fun d => d.sourceNumber < d.targetNumber)
      [forkHeader branch 3, forkHeader branch 2, forkHeader branch 1, forkHeader 1 0]
      (forkSnapshot branch 3 (forkVote branch 1)) := by
  intro branch hbranch
  refine (forkStep_three branch hbranch).chain (fun _ => id) ((forkStep_two branch hbranch).chain
    (fun _ => id) ((forkStep_one branch hbranch).chain (fun _ => id) (.genesis forkGenesis)
      nofun) ?_) ?_
  · rintro _ ⟨⟩
    exact show (0 : UInt64) < 1 by decide
  · rintro _ ⟨⟩
    exact show (1 : UInt64) < 2 by decide

/-- The first blocks of the two branches are both finalized, and the validator is exposed. -/
theorem fork_exposes_validator :
    ∃ offenders ⊆ (forkSnapshot 1 1 default).voteAddrSet, 1 ≤ offenders.card ∧ ∀ a ∈ offenders,
        BreaksVoteRules (fun _ d => d.targetHash ∈ forkVotes.map VoteData.targetHash) a := by
  have hsame : ∀ h s, forkLookups.snapshotByHash h = some s →
      (forkSnapshot 1 1 default).SameValidators s := fun h s hs => by
    cases hs
    exact ⟨rfl, rfl⟩
  have hbls : ∀ sig data addrs,
      forkCrypto.verifyAggregate sig (forkCrypto.voteHash data) addrs = true →
      ∀ a ∈ addrs, data.targetHash ∈ forkVotes.map VoteData.targetHash := by
    intro sig data addrs h a _
    unfold Crypto.verifyAggregate at h
    split at h
    · exact List.contains_iff_mem.mp (Bool.and_eq_true_iff.mp h).2
    · simp at h
  have hone := forkChain 1 (by decide)
  have htwo := forkChain 2 (by decide)
  exact accountable_safety forkCrypto (.ofSpec platoSpec) forkTree forkLookups forkLookups
    forkLookups_faithful forkLookups_faithful (forkSnapshot 1 1 default) (by decide +kernel) hsame
    hsame _ hbls _ _ _ _ hone htwo (fun _ _ _ => rfl) (fun _ _ _ => rfl) (by decide) (by decide)
    (forkHeader 1 1) (forkHeader 2 1) (show _ ∈ forkHeaders by decide +kernel)
    (show _ ∈ forkHeaders by decide +kernel) rfl rfl
    (fun hle => absurd (htwo.branch.below _ _ (by decide +kernel) hle) (by decide +kernel))
    (fun hle => absurd (hone.branch.below _ _ (by decide +kernel) hle) (by decide +kernel))

end RethBsc
