import Mathlib.Data.String.Basic
import RethBsc.Chain.Checksum
import RethBsc.Contracts.SystemContracts
import RethBsc.Rust.BinaryHeap

/-!
# The election of validators

`src/system_contracts/feynman_fork.rs`: candidates are pushed onto a heap, and the heap is popped as
often as validators are to be elected.

* `cmp`: the order of the candidates in the heap, with `cmp_isLE_iff` to read it.
* `electLoop_eq`: the loop collects what the heap returns.
* `ranked_pairwise`: with distinct addresses the order decides between any two candidates.
* `getTopValidatorsByVotingPower_eq`: the heap elects what the sorted list of `SystemContracts`
  does.
* `election_sorted`: who is elected.
-/

namespace RethBsc

open Rust Outcome

namespace ValidatorElectionInfo

variable (toText : Address → String)

def cmp (a b : ValidatorElectionInfo) : Ordering :=
  match compare a.votingPower b.votingPower with
  | .eq => compare (toText b.address) (toText a.address)
  | other => other

/-- `a` is at most `b` if `b` may be elected before it. -/
theorem cmp_isLE_iff (a b : ValidatorElectionInfo) :
    (a.cmp toText b).isLE = true ↔ ElectedBefore toText b a := by
  unfold cmp ElectedBefore
  cases hpower : compare a.votingPower b.votingPower with
  | lt =>
    have hlt := compare_lt_iff_lt.mp hpower
    exact ⟨fun _ => .inl hlt, fun _ => rfl⟩
  | gt =>
    have hgt := compare_gt_iff_gt.mp hpower
    simp
    omega
  | eq =>
    have heq := compare_eq_iff_eq.mp hpower
    have htext : (compare (toText b.address) (toText a.address)).isLE = true ↔
        toText b.address ≤ toText a.address := by
      rw [Ordering.isLE_iff_ne_gt]
      exact compare_le_iff_le
    dsimp only
    rw [htext, heq]
    simp

/-- The heap of the candidates. -/
abbrev Heap : Type 1 := BinaryHeap ValidatorElectionInfo fun a b => (a.cmp toText b).isLE = true

end ValidatorElectionInfo

namespace ElectedBefore

variable {toText : Address → String} {a b c : ValidatorElectionInfo}

theorem total (a b : ValidatorElectionInfo) :
    ElectedBefore toText a b ∨ ElectedBefore toText b a := by
  grind [ElectedBefore]

theorem trans (hab : ElectedBefore toText a b) (hbc : ElectedBefore toText b c) :
    ElectedBefore toText a c := by
  grind [ElectedBefore]

instance : Std.Total (ElectedBefore toText) := ⟨total⟩

instance : IsTrans ValidatorElectionInfo (ElectedBefore toText) := ⟨fun _ _ _ => trans⟩

end ElectedBefore

/-! ## The election with a heap -/

namespace Election

variable {ε : Type} {toText : Address → String} (B : ValidatorElectionInfo.Heap toText)

/-- Candidates without voting power are not pushed. -/
def validatorHeap (validators : List ValidatorElectionInfo) : B.Heap :=
  validators.foldl (fun heap info => if 0 < info.votingPower then B.push heap info else heap) B.new

def electLoop : Nat → B.Heap → ElectedValidators → Outcome ε ElectedValidators
  | 0, _, elected => pure elected
  | n + 1, heap, elected =>
    match B.pop heap with
    | some (item, heap) => do
      let votingPower ← toU64 (item.votingPower / 10 ^ 10)
      electLoop n heap ⟨elected.validators ++ [item.address],
        elected.votingPowers ++ [votingPower], elected.voteAddrs ++ [item.voteAddress]⟩
    | none => electLoop n heap elected

def getTopValidatorsByVotingPower (validators : List ValidatorElectionInfo)
    (maxElectedValidators : Nat) : Outcome ε ElectedValidators := do
  let heap := validatorHeap B validators
  let topN ← toU64 maxElectedValidators
  let topN := if B.len heap < topN.toNat then B.len heap else topN.toNat
  electLoop B topN heap ⟨[], [], []⟩

variable {B} {validators : List ValidatorElectionInfo}

theorem elems_validatorHeap : (B.elems (validatorHeap B validators)).Perm
    (validators.filter fun info => 0 < info.votingPower) := by
  have hfold : ∀ heap, (B.elems (validators.foldl (fun heap info =>
      if 0 < info.votingPower then B.push heap info else heap) heap)).Perm
      ((validators.filter fun info => 0 < info.votingPower) ++ B.elems heap) := by
    induction validators with
    | nil => exact fun heap => .refl _
    | cons info validators ih =>
      intro heap
      rw [List.foldl_cons]
      by_cases hpower : 0 < info.votingPower
      · rw [if_pos hpower, List.filter_cons_of_pos (by simpa using hpower)]
        exact (ih _).trans (((B.elems_push heap info).append_left _).trans List.perm_middle)
      · simp [*]
  have hall := hfold B.new
  rwa [B.elems_new, List.append_nil] at hall

/-- The three vectors of the result grow by what the heap returns. -/
theorem electLoop_eq (n : Nat) (heap : B.Heap) (elected : ElectedValidators) :
    (electLoop B n heap elected : Outcome ε ElectedValidators) = (do
      let votingPowers ← (B.popped n heap).mapM fun item => toU64 (item.votingPower / 10 ^ 10)
      pure ⟨elected.validators ++ (B.popped n heap).map ValidatorElectionInfo.address,
        elected.votingPowers ++ votingPowers,
        elected.voteAddrs ++ (B.popped n heap).map ValidatorElectionInfo.voteAddress⟩) := by
  induction n generalizing heap elected with
  | zero => simp [electLoop, BinaryHeap.popped]
  | succ n ih =>
    rw [electLoop, BinaryHeap.popped]
    cases hpop : B.pop heap with
    | none =>
      have hnil : B.popped n heap = [] := by
        cases n with
        | zero => rfl
        | succ n => rw [BinaryHeap.popped, hpop]
      dsimp only
      rw [ih, hnil]
    | some p =>
      obtain ⟨item, rest⟩ := p
      dsimp only
      rw [List.mapM_cons]
      cases hpower : (toU64 (item.votingPower / 10 ^ 10) : Outcome ε UInt64) with
      | ok votingPower =>
        simp only [ok_bind, ih, List.append_assoc, bind_assoc, pure_bind, List.map_cons,
          List.singleton_append]
      | err e => rfl
      | panic => rfl

/-! ## Who is elected -/

variable (toText validators) in
/-- The candidates with voting power, in the order in which they are elected. -/
def ranked : List ValidatorElectionInfo :=
  (validators.filter fun info => 0 < info.votingPower).insertionSort (ElectedBefore toText)

def collect (elected : List ValidatorElectionInfo) : Outcome ε ElectedValidators := do
  let votingPowers ← elected.mapM fun item => toU64 (item.votingPower / 10 ^ 10)
  pure ⟨elected.map ValidatorElectionInfo.address, votingPowers,
    elected.map ValidatorElectionInfo.voteAddress⟩

theorem sorted_election (toText : Address → String) (validators : List ValidatorElectionInfo)
    (maxElected : Nat) :
    (RethBsc.getTopValidatorsByVotingPower toText validators maxElected
      : Outcome ε ElectedValidators) = (do
        let topN ← toU64 maxElected
        collect ((ranked toText validators).take topN.toNat)) := rfl

theorem toU64_eq_ok {n : Nat} (hn : n < 2 ^ 64) :
    (toU64 n : Outcome ε UInt64) = .ok (UInt64.ofNat n) := if_pos hn

theorem collect_eq_ok {elected : List ValidatorElectionInfo}
    (hpowers : ∀ info ∈ elected, info.votingPower / 10 ^ 10 < 2 ^ 64) :
    (collect elected : Outcome ε ElectedValidators) = .ok
      ⟨elected.map ValidatorElectionInfo.address,
        elected.map fun info => UInt64.ofNat (info.votingPower / 10 ^ 10),
        elected.map ValidatorElectionInfo.voteAddress⟩ := by
  rw [collect, mapM_eq_ok_map fun info hinfo => toU64_eq_ok (hpowers info hinfo)]
  rfl

/-- `a` is elected and `b` is not, if there is a place for one of them only. -/
def Outranks (toText : Address → String) (a b : ValidatorElectionInfo) : Prop :=
  b.votingPower < a.votingPower ∨
    b.votingPower = a.votingPower ∧ toText a.address < toText b.address

variable {a b : ValidatorElectionInfo}

theorem outranks_of_electedBefore (htext : Function.Injective toText)
    (hbefore : ElectedBefore toText a b) (hne : a.address ≠ b.address) : Outranks toText a b := by
  rcases hbefore with hpower | ⟨hpower, hle⟩
  · exact .inl hpower
  · exact .inr ⟨hpower, lt_of_le_of_ne hle fun heq => hne (htext heq)⟩

theorem Outranks.not_electedBefore (h : Outranks toText a b) :
    ¬ ElectedBefore toText b a := by
  rintro (hpower | ⟨hpower, hle⟩)
  · rcases h with hpower' | ⟨hpower', -⟩
    · omega
    · omega
  · rcases h with hpower' | ⟨-, hlt⟩
    · omega
    · exact absurd hle (not_le_of_gt hlt)

theorem Outranks.asymm (hab : Outranks toText a b) :
    ¬ Outranks toText b a := by
  intro hba
  refine hab.not_electedBefore ?_
  rcases hba with hpower | ⟨hpower, hlt⟩
  · exact .inl hpower
  · exact .inr ⟨hpower, le_of_lt hlt⟩

theorem ranked_perm :
    (ranked toText validators).Perm (validators.filter fun info => 0 < info.votingPower) :=
  List.perm_insertionSort _ _

theorem ranked_pairwise (htext : Function.Injective toText)
    (hdistinct : (validators.map ValidatorElectionInfo.address).Nodup) :
    (ranked toText validators).Pairwise (Outranks toText) := by
  have hsub : ((validators.filter fun info => 0 < info.votingPower).map
      ValidatorElectionInfo.address).Nodup :=
    hdistinct.sublist (List.filter_sublist.map _)
  have haddresses : (ranked toText validators).Pairwise fun a b => a.address ≠ b.address :=
    List.pairwise_map.mp ((ranked_perm.map _).nodup_iff.mpr hsub)
  have hsorted : (ranked toText validators).Pairwise (ElectedBefore toText) :=
    List.pairwise_insertionSort _ _
  exact (hsorted.and haddresses).imp fun h => outranks_of_electedBefore htext h.1 h.2

/-- The order of the input does not matter. -/
theorem ranked_eq_of_perm (htext : Function.Injective toText)
    (hdistinct : (validators.map ValidatorElectionInfo.address).Nodup)
    {validators' : List ValidatorElectionInfo} (hperm : validators'.Perm validators) :
    ranked toText validators' = ranked toText validators := by
  have hdistinct' := (hperm.map ValidatorElectionInfo.address).nodup_iff.mpr hdistinct
  exact List.Perm.eq_of_pairwise (fun a b _ _ hab hba => absurd hba hab.asymm)
    (ranked_pairwise htext hdistinct') (ranked_pairwise htext hdistinct)
    ((ranked_perm.trans (hperm.filter _)).trans ranked_perm.symm)

/-- **The heap and the sorted list.**  A heap elects the candidates that the sorted list begins
with. -/
theorem getTopValidatorsByVotingPower_eq (htext : Function.Injective toText)
    (hdistinct : (validators.map ValidatorElectionInfo.address).Nodup) (maxElected : Nat) :
    (getTopValidatorsByVotingPower B validators maxElected : Outcome ε ElectedValidators)
      = RethBsc.getTopValidatorsByVotingPower toText validators maxElected := by
  have hperm : (B.elems (validatorHeap B validators)).Perm (ranked toText validators) :=
    elems_validatorHeap.trans ranked_perm.symm
  have hsorted : (ranked toText validators).Pairwise fun a b =>
      ¬ (a.cmp toText b).isLE = true := by
    refine (ranked_pairwise htext hdistinct).imp fun houtranks hle => ?_
    exact houtranks.not_electedBefore ((ValidatorElectionInfo.cmp_isLE_iff ..).mp hle)
  rw [sorted_election]
  unfold getTopValidatorsByVotingPower
  cases htop : (toU64 maxElected : Outcome ε UInt64) with
  | err e => rfl
  | panic => rfl
  | ok topN =>
    -- more pops than there are candidates change nothing
    have htake : (ranked toText validators).take
        (if B.len (validatorHeap B validators) < topN.toNat then B.len (validatorHeap B validators)
          else topN.toNat) = (ranked toText validators).take topN.toNat := by
      split
      · next hlt =>
        rw [B.len_eq, hperm.length_eq] at hlt ⊢
        rw [List.take_length, List.take_of_length_le (Nat.le_of_lt hlt)]
      · rfl
    simp only [ok_bind]
    rw [electLoop_eq, BinaryHeap.popped_eq_take _ hperm hsorted, htake]
    rfl

end Election

/-- **Who is elected.**  The heap may be any that pops a greatest candidate.  Elected are the first
of the candidates with voting power, ranked by voting power and then by address, and each has its
own voting power and vote address.  The order of the input does not matter. -/
theorem Election.election_sorted {ε : Type} (keccak256 : Bytes → B256)
    (B : ValidatorElectionInfo.Heap (Address.toChecksum keccak256))
    (validators : List ValidatorElectionInfo)
    (hdistinct : (validators.map ValidatorElectionInfo.address).Nodup)
    (hpowers : ∀ info ∈ validators, info.votingPower / 10 ^ 10 < 2 ^ 64)
    (maxElected : Nat) (hmax : maxElected < 2 ^ 64) :
    (∃ sorted : List ValidatorElectionInfo,
      sorted.Perm (validators.filter fun info => 0 < info.votingPower) ∧
      sorted.Pairwise (Outranks (Address.toChecksum keccak256)) ∧
      (getTopValidatorsByVotingPower B validators maxElected : Outcome ε ElectedValidators) = .ok
        ⟨(sorted.take maxElected).map ValidatorElectionInfo.address,
          (sorted.take maxElected).map fun info => UInt64.ofNat (info.votingPower / 10 ^ 10),
          (sorted.take maxElected).map ValidatorElectionInfo.voteAddress⟩) ∧
    ∀ validators', validators'.Perm validators →
      (getTopValidatorsByVotingPower B validators' maxElected : Outcome ε ElectedValidators)
        = getTopValidatorsByVotingPower B validators maxElected := by
  have htext := Address.toChecksum_injective keccak256
  refine ⟨⟨_, ranked_perm, ranked_pairwise htext hdistinct, ?_⟩, fun validators' hperm => ?_⟩
  · have hfits : ∀ info ∈ (ranked (Address.toChecksum keccak256) validators).take maxElected,
        info.votingPower / 10 ^ 10 < 2 ^ 64 := by
      intro info hinfo
      have hmem := ranked_perm.mem_iff.mp (List.mem_of_mem_take hinfo)
      exact hpowers info (List.mem_filter.mp hmem).1
    rw [getTopValidatorsByVotingPower_eq htext hdistinct, sorted_election, toU64_eq_ok hmax,
      ok_bind, UInt64.toNat_ofNat_of_lt' hmax, collect_eq_ok hfits]
  · have hdistinct' := (hperm.map ValidatorElectionInfo.address).nodup_iff.mpr hdistinct
    rw [getTopValidatorsByVotingPower_eq htext hdistinct,
      getTopValidatorsByVotingPower_eq htext hdistinct', sorted_election, sorted_election,
      ranked_eq_of_perm htext hdistinct hperm]

/-! ### Three candidates for two places -/

/-- The sorted list as a heap. -/
def sortedHeap (toText : Address → String) : ValidatorElectionInfo.Heap toText :=
  .sorted _
    (fun a b => by
      rw [ValidatorElectionInfo.cmp_isLE_iff, ValidatorElectionInfo.cmp_isLE_iff]
      exact ElectedBefore.total b a)
    (fun a b c hab hbc => by
      rw [ValidatorElectionInfo.cmp_isLE_iff] at hab hbc ⊢
      exact hbc.trans hab)

/-- A candidate with `power` tokens of ten decimals. -/
def candidate (b : UInt8) (power : Nat) : ValidatorElectionInfo :=
  ⟨.repeatByte 20 b, power * 10 ^ 10, [b]⟩

/-- Equal powers are told apart by the addresses, in whatever order the candidates come. -/
theorem Election.election_sorted_three :
    (Election.getTopValidatorsByVotingPower
        (sortedHeap (Address.toChecksum fun _ => .zero))
        [candidate 2 100, candidate 3 300, candidate 1 100] 2 : Outcome Unit ElectedValidators)
      = .ok ⟨[.repeatByte 20 3, .repeatByte 20 1], [300, 100], [[3], [1]]⟩ :=
  ((Election.election_sorted _ _ [candidate 1 100, candidate 2 100, candidate 3 300] (by decide)
    (by decide) 2 (by decide)).2 _ (by decide)).trans (by decide +kernel)

end RethBsc
