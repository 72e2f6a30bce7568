import RethBsc.Node.ForkChoiceCoherence
import RethBsc.Parlia.AppliedRun

/-!
# Justification and finality along a chain

The verifier checks that the source of an attestation is the justified block and that the target is
one of the last blocks, the parent before Fermi and one of three ancestors after it.  It does not
compare the two.  After Fermi the justified block can itself be among the last three, and a target
below it moves the justified block back.

* `VerifiedRun.attestation_record`: what one accepted attestation does to the vote data.
* `Snapshot.VotesAdvance` and `Snapshot.VotesOrdered` are the property of a step and of a state;
  `Snapshot.Records.votes_iff` is the step, for a snapshot that has the property.
* `VerifiedRun.neverBack_iff`: the run.
-/

namespace RethBsc

open Rust Relation

/-! ## The property -/

/-- From one snapshot to the next neither the target nor the source moves back. -/
def Snapshot.VotesAdvance (s s' : Snapshot) : Prop :=
  s.voteData.targetNumber ≤ s'.voteData.targetNumber ∧
    s.voteData.sourceNumber ≤ s'.voteData.sourceNumber

/-- Once an attestation has been recorded, the source is below the target and that below the
block. -/
def Snapshot.VotesOrdered (s : Snapshot) : Prop :=
  s.voteData ≠ default → s.voteData.sourceNumber < s.voteData.targetNumber ∧
    s.voteData.targetNumber < s.blockNumber

/-- Every snapshot of the run is in order, and every step goes forward. -/
structure NeverBack (run : List (Header × Snapshot)) : Prop where
  ordered : ∀ b ∈ run, b.2.VotesOrdered
  advance : ∀ header s' parent s older, (header, s') :: (parent, s) :: older <:+ run →
    s.VotesAdvance s'

/-- The target is not genesis and not below the source. -/
def VoteData.Forward (data : VoteData) : Prop :=
  data.targetNumber ≠ 0 ∧ data.sourceNumber ≤ data.targetNumber

instance (data : VoteData) : Decidable data.Forward := by
  unfold VoteData.Forward
  infer_instance

/-- The attestations in the headers of the run, as they are read off for verification. -/
def AllForward (c : Crypto) (p : Parlia) (run : List (Header × Snapshot)) : Prop :=
  ∀ header s' parent s older attestation, (header, s') :: (parent, s) :: older <:+ run →
    p.getVoteAttestationFromHeader header c.decode s.epochNum = .ok (some attestation) →
    attestation.data.Forward

section Lists

variable {run : List (Header × Snapshot)} {header parent : Header} {s s' : Snapshot}
  {c : Crypto} {p : Parlia}

/-- A block and its parent at the top of a chain, or further down. -/
theorem suffix_cons_cons_iff {b b' b₀ : Header × Snapshot} {older : List (Header × Snapshot)} :
    b :: b' :: older <:+ b₀ :: run ↔ (b = b₀ ∧ b' :: older = run) ∨ b :: b' :: older <:+ run := by
  rw [List.suffix_cons_iff, List.cons.injEq]

theorem neverBack_cons_iff :
    NeverBack ((header, s') :: (parent, s) :: run) ↔
      NeverBack ((parent, s) :: run) ∧ s'.VotesOrdered ∧ s.VotesAdvance s' := by
  refine ⟨fun h => ⟨⟨fun b hb => h.ordered b (List.mem_cons_of_mem _ hb), ?_⟩,
    h.ordered _ List.mem_cons_self, h.advance _ _ _ _ _ (List.suffix_refl _)⟩,
    fun ⟨hbefore, hordered, hadvance⟩ => ⟨?_, ?_⟩⟩
  · intro header₀ s₀' parent₀ s₀ older hsuffix
    exact h.advance _ _ _ _ _ (hsuffix.trans (List.suffix_cons _ _))
  · intro b hb
    rcases List.mem_cons.mp hb with rfl | hb
    · exact hordered
    · exact hbefore.ordered b hb
  · intro header₀ s₀' parent₀ s₀ older hsuffix
    rcases suffix_cons_cons_iff.mp hsuffix with ⟨htop, hrest⟩ | hbelow
    · obtain ⟨-, rfl⟩ := Prod.mk.inj htop
      obtain ⟨⟨-, rfl⟩, -⟩ := by simpa using hrest
      exact hadvance
    · exact hbefore.advance _ _ _ _ _ hbelow

theorem not_suffix_singleton {b b' b₀ : Header × Snapshot} {older : List (Header × Snapshot)} :
    ¬ b :: b' :: older <:+ [b₀] := fun h => absurd h.length_le (by simp)

theorem allForward_singleton (b : Header × Snapshot) : AllForward c p [b] :=
  fun _ _ _ _ _ _ hsuffix => absurd hsuffix not_suffix_singleton

theorem allForward_cons_iff {attestation : Option VoteAttestation}
    (hattestation : p.getVoteAttestationFromHeader header c.decode s.epochNum = .ok attestation) :
    AllForward c p ((header, s') :: (parent, s) :: run) ↔
      AllForward c p ((parent, s) :: run) ∧ ∀ a, attestation = some a → a.data.Forward := by
  refine ⟨fun h => ⟨?_, ?_⟩, fun ⟨hbefore, htop⟩ => ?_⟩
  · intro header₀ s₀' parent₀ s₀ older a hsuffix
    exact h _ _ _ _ _ a (hsuffix.trans (List.suffix_cons _ _))
  · rintro a rfl
    exact h _ _ _ _ _ a (List.suffix_refl _) hattestation
  · intro header₀ s₀' parent₀ s₀ older a hsuffix ha
    rcases suffix_cons_cons_iff.mp hsuffix with ⟨heq, hrest⟩ | hbelow
    · obtain ⟨rfl, -⟩ := Prod.mk.inj heq
      obtain ⟨⟨-, rfl⟩, -⟩ := by simpa using hrest
      exact htop a (Except.ok.inj (hattestation.symm.trans ha))
    · exact hbefore _ _ _ _ _ a hbelow ha

end Lists

/-! ## One step -/

/-- The attestation with `data` was recorded in the step from `s` to `s'`: it started from the
justified block of `s`, and its target is below the new block. -/
structure Snapshot.Records (s s' : Snapshot) (data : VoteData) : Prop where
  voteData : s'.voteData = recordVote s.voteData data
  recorded : s'.voteData ≠ default
  source : data.sourceNumber = s.voteData.targetNumber
  target : data.targetNumber < s'.blockNumber

section Step

variable {s s' : Snapshot} {data : VoteData}

/-- The source is at most the target, recorded or not. -/
theorem Snapshot.VotesOrdered.source_le (h : s.VotesOrdered) :
    s.voteData.sourceNumber ≤ s.voteData.targetNumber := by
  by_cases hdefault : s.voteData = default
  · rw [hdefault]
    exact UInt64.le_refl _
  · exact UInt64.le_of_lt (h hdefault).1

theorem Snapshot.VotesOrdered.keep (h : s.VotesOrdered) (hvote : s'.voteData = s.voteData)
    (hblock : s.blockNumber < s'.blockNumber) : s'.VotesOrdered ∧ s.VotesAdvance s' := by
  refine ⟨fun hrecorded => ?_, ?_⟩
  · rw [hvote] at hrecorded ⊢
    exact ⟨(h hrecorded).1, UInt64.lt_trans (h hrecorded).2 hblock⟩
  · rw [Snapshot.VotesAdvance, hvote]
    exact ⟨UInt64.le_refl _, UInt64.le_refl _⟩

/-- An attestation keeps the order exactly if it goes forward. -/
theorem Snapshot.Records.votes_iff (h : s.Records s' data) (hs : s.VotesOrdered) :
    s'.VotesOrdered ∧ s.VotesAdvance s' ↔ data.Forward := by
  have htarget : s'.voteData.targetNumber = data.targetNumber := by
    rw [h.voteData, recordVote_targetNumber]
  refine ⟨fun ⟨hordered, hadvance⟩ => ⟨fun hzero => ?_, ?_⟩, fun ⟨hnonzero, hforward⟩ => ?_⟩
  · have hlt := (hordered h.recorded).1
    simp_all
  · rw [h.source, ← htarget]
    exact hadvance.1
  · have hup : s.voteData.targetNumber ≤ s'.voteData.targetNumber := by
      rwa [htarget, ← h.source]
    have hsource := hs.source_le
    suffices hmove : s'.voteData.sourceNumber < data.targetNumber ∧
        s.voteData.sourceNumber ≤ s'.voteData.sourceNumber by
      refine ⟨fun _ => ?_, hup, hmove.2⟩
      rw [htarget]
      exact ⟨hmove.1, h.target⟩
    rw [h.voteData]
    unfold recordVote
    split
    -- the old source stays, and is below the old target if there is one
    · refine ⟨?_, UInt64.le_refl _⟩
      show s.voteData.sourceNumber < data.targetNumber
      by_cases hdefault : s.voteData = default
      · rw [hdefault]
        exact UInt64.pos_iff_ne_zero.mpr hnonzero
      · exact UInt64.lt_of_lt_of_le (hs hdefault).1 (htarget ▸ hup)
    -- the old target becomes the source
    · next hnext =>
      have hnext : data.sourceNumber + 1 = data.targetNumber := not_not.mp hnext
      refine ⟨UInt64.lt_of_le_of_ne hforward fun heq => ?_, ?_⟩
      · rw [heq] at hnext
        simp at hnext
      · rwa [h.source]

end Step

/-! ## Runs -/

section Run

variable {c : Crypto} {lookups : Lookups} {p : Parlia} {tree : BlockTree c.hashSlow}
  {run : List (Header × Snapshot)} {head parent header : Header} {s s' : Snapshot}
  {attestation : VoteAttestation}

theorem VerifiedRun.applied (h : VerifiedRun c p tree.toHashTree run) :
    AppliedRun c.hashSlow p.spec tree.genesis run := by
  induction h with
  | genesis hnew => exact .genesis tree.genesis_number hnew
  | block _ _ _ hparent _ _ _ happly ih => exact .block ih hparent happly

/-- What parent hashes lead to from the head is on the chain. -/
theorem VerifiedRun.mem_of_below (h : VerifiedRun c p tree.toHashTree ((head, s) :: run))
    {a : Header} (hbelow : ReflTransGen tree.toHashTree.IsParent a head) :
    ∃ snap, (a, snap) ∈ (head, s) :: run := by
  generalize hentries : (head, s) :: run = entries at h
  induction h generalizing head s run with
  | genesis _ =>
    obtain ⟨⟨rfl, rfl⟩, rfl⟩ := by simpa using hentries
    rcases hbelow.cases_tail with rfl | ⟨b, -, hb, hhash⟩
    · exact ⟨s, List.mem_cons_self⟩
    -- nothing known has the hash that genesis gives for its parent
    · exact absurd hhash.symm (tree.genesis_root b hb)
  | @block _ parent _ run s s' _ _ _ _ _ before _ _ hparent _ _ _ _ ih =>
    obtain ⟨⟨rfl, rfl⟩, rfl⟩ := by simpa using hentries
    rcases hbelow.cases_tail with rfl | ⟨b, hbelow, hb, hhash⟩
    · exact ⟨_, List.mem_cons_self⟩
    · obtain rfl : b = parent :=
        tree.hash_injOn hb before.head_known (hhash.symm.trans hparent)
      grind

/-- The justified block of a snapshot has the number of the recorded target, which is zero if there
is none. -/
theorem VotesOnChain.justified_number (h : VotesOnChain c tree.toHashTree parent s run)
    (hl : lookups.FaithfulTo tree.toHashTree) {justified : Header}
    (hjustified : getJustifiedHeader lookups s = .ok justified) :
    justified.number = s.voteData.targetNumber := by
  unfold getJustifiedHeader at hjustified
  split at hjustified
  · next hzero =>
    rw [hl.headerByNumber_zero _ (orError_eq_ok.mp hjustified)]
    rcases h.target with hdefault | ⟨b, hknown, -, -, hhash⟩
    · rw [hdefault]
      exact tree.genesis_number
    · exact absurd (hhash.trans hzero.2) (tree.hash_ne_zero b hknown)
  · next hrecorded =>
    obtain ⟨hknown, hhash⟩ := hl.headerByHash _ _ (orError_eq_ok.mp hjustified)
    rcases h.target with hdefault | ⟨b, hbknown, -, hnumber, hbhash⟩
    · rw [hdefault] at hrecorded
      exact absurd ⟨rfl, rfl⟩ hrecorded
    · rw [tree.hash_injOn hknown hbknown (hhash.trans hbhash.symm), hnumber]

variable {validator : Address} {newValidators : List Address}
  {voteAddrs : Option (List VoteAddress)} {turnLength : Option UInt8}

/-- An accepted attestation starts from the recorded target, and its own target is on the chain. -/
theorem VerifiedRun.attestation_record
    (before : VerifiedRun c p tree.toHashTree ((parent, s) :: run)) (hlen : run.length + 1 < 2 ^ 64)
    (hl : lookups.FaithfulTo tree.toHashTree) (hparent : header.parentHash = c.hashSlow parent)
    (hplato : p.spec.isPlatoActiveAtBlock header.number = true)
    (hverify : p.verifyVoteAttestation c lookups s header parent = .ok ())
    (hattestation : p.getVoteAttestationFromHeader header c.decode s.epochNum
      = .ok (some attestation))
    (happly : s.apply c.hashSlow p.spec validator header newValidators voteAddrs
      (some attestation) turnLength = .ok s') :
    s.Records s' attestation.data := by
  obtain ⟨-, target, justified, -, htarget, hjustified, hsource, -, -, -⟩ :=
    (verifyVoteAttestation_eq_ok hplato hattestation).mp hverify
  have hrecord := recordVote_of_findAncestor before.applied.numbers.2 hparent happly htarget
  obtain ⟨hknown, hbelow, hnumber, hhash⟩ := findAncestor_spec hl before.head_known htarget
  refine ⟨hrecord, fun hdefault => ?_, ?_, ?_⟩
  -- the default has the zero hash, which no header has
  · have hzero : c.hashSlow target = .zero := by
      rw [hhash, ← recordVote_targetHash s.voteData, ← hrecord, hdefault]
      rfl
    exact tree.hash_ne_zero target hknown hzero
  · rw [hsource, before.votesOnChain.justified_number hl hjustified]
  -- the target is on the chain below the new block
  · obtain ⟨snap, hmem⟩ := before.mem_of_below hbelow
    have hlt := before.applied.number_lt (by rw [List.length_cons]; omega) hmem
    have hheight : header.number = UInt64.ofNat (run.length + 1) :=
      (AppliedRun.block before.applied hparent happly).numbers.1
    rwa [(Snapshot.apply_spec happly).blockNumber, UInt64.lt_iff_toNat_lt, ← hnumber, hheight,
      UInt64.toNat_ofNat_of_lt' (by simpa [UInt64.size] using hlen)]

/-- The number of a block is above that of its parent. -/
theorem VerifiedRun.blockNumber_lt (before : VerifiedRun c p tree.toHashTree ((parent, s) :: run))
    (hlen : run.length + 1 < 2 ^ 64) {attestation : Option VoteAttestation}
    (happly : s.apply c.hashSlow p.spec validator header newValidators voteAddrs attestation
      turnLength = .ok s') : s.blockNumber < s'.blockNumber := by
  have happlied := Snapshot.apply_spec happly
  obtain ⟨hnumber, hblock⟩ := before.applied.numbers
  have hparent : s.blockNumber.toNat = run.length := by
    simp_all
    omega
  rw [happlied.blockNumber, ← happlied.number, UInt64.lt_iff_toNat_lt, UInt64.toNat_add, hparent]
  show run.length < (run.length + 1) % 2 ^ 64
  omega

end Run

/-- **Never back.** Along a chain of verified headers the recorded target and source never move back
and stay in order, in every snapshot, exactly if no attestation of the chain has a target below its
source, or genesis as its target. -/
theorem VerifiedRun.neverBack_iff (c : Crypto) (p : Parlia) (tree : BlockTree c.hashSlow)
    (run : List (Header × Snapshot)) (hrun : VerifiedRun c p tree.toHashTree run)
    (hlen : run.length ≤ 2 ^ 64) : NeverBack run ↔ AllForward c p run := by
  induction hrun with
  | @genesis validators voteAddrs s hnew =>
    obtain ⟨_, -, hs⟩ := Outcome.bind_eq_ok.mp hnew
    have hvote : s.voteData = default := by rw [← Outcome.ok.inj hs]
    refine ⟨fun _ => allForward_singleton _, fun _ => ⟨fun b hb => ?_, ?_⟩⟩
    · rw [List.mem_singleton.mp hb]
      exact fun hrecorded => absurd hvote hrecorded
    · exact fun _ _ _ _ _ hsuffix => absurd hsuffix not_suffix_singleton
  | @block lookups parent header run s s' _ _ _ attestation _ before hl _ hparent hplato hverify
      hattestation happly ih =>
    rw [List.length_cons, List.length_cons] at hlen
    rw [neverBack_cons_iff, allForward_cons_iff hattestation,
      ← ih (by rw [List.length_cons]; omega)]
    -- both sides have the chain before in them, and the step needs its last snapshot in order
    refine and_congr_right fun hbefore => ?_
    have hs : s.VotesOrdered := hbefore.ordered (parent, s) List.mem_cons_self
    cases attestation with
    | none =>
      have hkept := hs.keep (Snapshot.apply_spec happly).voteData
        (before.blockNumber_lt (by omega) happly)
      exact ⟨fun _ a ha => absurd ha (by simp), fun _ => hkept⟩
    | some attestation =>
      have hrecords := before.attestation_record (by omega) hl hparent hplato hverify hattestation
        happly
      rw [hrecords.votes_iff hs]
      exact ⟨fun h a ha => Option.some.inj ha ▸ h, fun h => h attestation rfl⟩

/-! ## A vote for a block below the justified one

The first three blocks are those of a branch of the fork.  The third justifies the second block, and
the fourth has a vote from the second block to the first. -/

/-- Luban, Plato and Fermi are active from genesis on. -/
def platoFermiSpec : ChainSpec where
  bscForkActivation
    | .luban => .block 0
    | .plato => .block 0
    | .fermi => .timestamp 0
    | _ => .never
  ethereumForkActivation
    | .london => .block 0
    | _ => .never

def backAttestation : VoteAttestation :=
  ⟨1, .repeatByte 96 1, ⟨2, forkHashAt 1 2, 1, forkHashAt 1 1⟩, []⟩

def backHeader : Header :=
  { forkHeader 1 4 with
    extraData := List.replicate 32 0 ++ flatEncode backAttestation ++ List.replicate 65 0 }

def backCrypto : Crypto :=
  { forkCrypto with
    decode := fun bytes => [forkAttestation 1 2, forkAttestation 1 3, backAttestation].find?
      fun attestation => flatEncode attestation = bytes
    fastAggregateVerify := fun _ _ _ => true }

def fermiSnapshot (number : UInt64) (voteData : VoteData) : Snapshot :=
  { forkSnapshot 1 number voteData with blockInterval := fermiBlockInterval }

/-- The chain up to the third block. -/
def upRun : List (Header × Snapshot) :=
  [(forkHeader 1 3, fermiSnapshot 3 (forkVote 1 1)),
    (forkHeader 1 2, fermiSnapshot 2 (forkVote 1 0)),
    (forkHeader 1 1, fermiSnapshot 1 default),
    (forkHeader 1 0, { forkSnapshot 1 0 default with recentProposers := ∅ })]

/-- The fourth block takes the target back to the first block. -/
def backRun : List (Header × Snapshot) :=
  (backHeader, fermiSnapshot 4 ⟨1, forkHashAt 1 1, 1, forkHashAt 1 1⟩) :: upRun

def backHeaders : List Header := backRun.map Prod.fst

def backLookups : Lookups :=
  .ofList forkHash backHeaders fun h => (backRun.find? fun b => forkHash b.1 = h).map Prod.snd

def backTree : BlockTree backCrypto.hashSlow :=
  .ofList (forkHeader 1 0) backHeaders (by decide +kernel)

theorem backLookups_faithful : backLookups.FaithfulTo backTree.toHashTree := by
  refine ⟨fun _ _ => mem_of_find_hash, fun header hfind => ?_⟩
  have hzero : backLookups.headerByNumber 0 = some (forkHeader 1 0) := by decide +kernel
  exact Option.some.inj (hfind.symm.trans hzero)

abbrev BackStep : Header → Header → Snapshot → Snapshot → Option VoteAttestation → Prop :=
  VerifiedStep backCrypto backLookups (.ofSpec platoFermiSpec) backHeaders loneValidator

theorem backStep_one : BackStep (forkHeader 1 0) (forkHeader 1 1)
    { forkSnapshot 1 0 default with recentProposers := ∅ } (fermiSnapshot 1 default) none := by
  decide +kernel

theorem backStep_two : BackStep (forkHeader 1 1) (forkHeader 1 2) (fermiSnapshot 1 default)
    (fermiSnapshot 2 (forkVote 1 0)) (some (forkAttestation 1 2)) := by
  decide +kernel

theorem backStep_three : BackStep (forkHeader 1 2) (forkHeader 1 3)
    (fermiSnapshot 2 (forkVote 1 0)) (fermiSnapshot 3 (forkVote 1 1))
    (some (forkAttestation 1 3)) := by
  decide +kernel

theorem upRun_verified :
    VerifiedRun backCrypto (.ofSpec platoFermiSpec) backTree.toHashTree upRun :=
  backStep_three.verifiedRun backLookups_faithful (fun _ => id) rfl
    (backStep_two.verifiedRun backLookups_faithful (fun _ => id) rfl
      (backStep_one.verifiedRun backLookups_faithful (fun _ => id) rfl (.genesis forkGenesis)))

/-- The fourth block is accepted, and the justified block goes back from the second to the first. -/
theorem vote_below_justified_accepted :
    VerifiedRun backCrypto (.ofSpec platoFermiSpec) backTree.toHashTree backRun ∧
      backRun.map (fun b => (b.2.voteData.sourceNumber, b.2.voteData.targetNumber))
        = [(1, 1), (1, 2), (0, 1), (0, 0), (0, 0)] ∧
      ¬ NeverBack backRun := by
  have hfour : BackStep (forkHeader 1 3) backHeader (fermiSnapshot 3 (forkVote 1 1))
      (fermiSnapshot 4 ⟨1, forkHashAt 1 1, 1, forkHashAt 1 1⟩) (some backAttestation) := by
    decide +kernel
  refine ⟨hfour.verifiedRun backLookups_faithful (fun _ => id) rfl upRun_verified,
    by decide +kernel, fun h => ?_⟩
  obtain ⟨htarget, -⟩ := h.advance _ _ _ _ _ (List.suffix_refl _)
  exact absurd htarget (by decide)

/-- Up to the third block all goes forward. -/
theorem up_to_block3_never_back : NeverBack upRun := by
  refine (VerifiedRun.neverBack_iff backCrypto (.ofSpec platoFermiSpec) backTree upRun
    upRun_verified (by decide)).mpr ?_
  obtain ⟨-, -, -, hone, -⟩ := backStep_one
  obtain ⟨-, -, -, htwo, -⟩ := backStep_two
  obtain ⟨-, -, -, hthree, -⟩ := backStep_three
  refine (allForward_cons_iff hthree).mpr ⟨(allForward_cons_iff htwo).mpr
    ⟨(allForward_cons_iff hone).mpr ⟨allForward_singleton _, ?_⟩, ?_⟩, ?_⟩
  · exact fun a ha => absurd ha (by simp)
  · exact fun a ha => Option.some.inj ha ▸ (by decide : (forkAttestation 1 2).data.Forward)
  · exact fun a ha => Option.some.inj ha ▸ (by decide : (forkAttestation 1 3).data.Forward)

end RethBsc
