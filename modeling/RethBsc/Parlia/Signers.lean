import Mathlib.Data.List.Perm.Basic
import RethBsc.Parlia.Attestation
import RethBsc.Parlia.ValidatorsMap

/-!
# The signers of an attestation

The producer collects the first vote of each validator, by iterating over the validator map, and
sets the bit at each voter's index.  The verifier goes through the validator list and takes the
vote address at every set bit.  For a well-indexed snapshot of at most 64 validators with distinct
vote addresses both arrive at `signers`:

* `orderedUnique_perm`: the producer's list is `signers` in some order;
* `bitSetVoteAddrs_voteSet`: the verifier reads back their vote addresses from the bit set;
* `countOnes_voters`: the bit set has one bit for each of them.
-/

namespace RethBsc

open Rust

/-! ## Bit sets -/

theorem hasBit_eq_testBit (set : UInt64) {i : Nat} (hi : i < 64) :
    hasBit set i = set.toNat.testBit i := by
  have hshift : (set >>> UInt64.ofNat i).toNat = set.toNat >>> i := by
    rw [UInt64.toNat_shiftRight, UInt64.toNat_ofNat', Nat.mod_eq_of_lt (show i < 2 ^ 64 by omega),
      Nat.mod_eq_of_lt hi]
  rw [hasBit, Nat.testBit, ← hshift, Bool.eq_iff_iff]
  simp only [bne_iff_ne, ne_eq, ← UInt64.toNat_inj, UInt64.toNat_and, Nat.and_comm 1]
  rfl

/-- The set of the bits at the positions `ps`. -/
def voteSet (ps : List Nat) : UInt64 :=
  ps.foldl (fun set p => set ||| ((1 : UInt64) <<< UInt64.ofNat p)) 0

theorem hasBit_or_shiftLeft (set : UInt64) {i p : Nat} (hi : i < 64) (hp : p < 64) :
    hasBit (set ||| ((1 : UInt64) <<< UInt64.ofNat p)) i = (hasBit set i || decide (i = p)) := by
  have hbit : ((1 : UInt64) <<< UInt64.ofNat p).toNat = 2 ^ p := by
    rw [UInt64.toNat_shiftLeft, UInt64.toNat_ofNat', Nat.mod_eq_of_lt (show p < 2 ^ 64 by omega),
      Nat.mod_eq_of_lt hp, show (1 : UInt64).toNat = 1 from rfl, Nat.one_shiftLeft,
      Nat.mod_eq_of_lt (Nat.pow_lt_pow_right (by omega) hp)]
  rw [hasBit_eq_testBit _ hi, hasBit_eq_testBit _ hi, UInt64.toNat_or, hbit, Nat.testBit_or,
    Nat.testBit_two_pow, eq_comm]
  simp [eq_comm]

theorem hasBit_voteSet {ps : List Nat} (hps : ∀ p ∈ ps, p < 64) {i : Nat} (hi : i < 64) :
    hasBit (voteSet ps) i = decide (i ∈ ps) := by
  have hfold : ∀ set : UInt64,
      hasBit (ps.foldl (fun set p => set ||| ((1 : UInt64) <<< UInt64.ofNat p)) set) i
        = (hasBit set i || decide (i ∈ ps)) := by
    induction ps with
    | nil => simp
    | cons p ps ih =>
      intro set
      rw [List.foldl_cons, ih (fun q hq => hps q (List.mem_cons_of_mem _ hq)),
        hasBit_or_shiftLeft _ hi (hps p List.mem_cons_self), Bool.or_assoc]
      simp [Bool.decide_or]
  have hzero : hasBit 0 i = false := by
    rw [hasBit_eq_testBit _ hi]
    simp
  rw [voteSet, hfold, hzero, Bool.false_or]

theorem countOnes_voteSet {ps : List Nat} (hps : ∀ p ∈ ps, p < 64) (hnodup : ps.Nodup) :
    countOnes (voteSet ps) = ps.length := by
  have hfilter : (List.range 64).filter (hasBit (voteSet ps))
      = (List.range 64).filter (fun i => decide (i ∈ ps)) :=
    List.filter_congr fun i hi => hasBit_voteSet hps (List.mem_range.mp hi)
  have hperm : ((List.range 64).filter (fun i => decide (i ∈ ps))).Perm ps := by
    rw [List.perm_ext_iff_of_nodup (List.nodup_range.filter _) hnodup]
    simp_all
  rw [countOnes, List.countP_eq_length_filter, hfilter, hperm.length_eq]

/-! ## Voters -/

/-- The vote that counts for a vote address. -/
def firstVote (votes : List VoteEnvelope) (a : VoteAddress) : Option VoteEnvelope :=
  votes.find? fun vote => vote.voteAddress = a

/-- The signature that counts for a vote address that voted. -/
def firstSignature (votes : List VoteEnvelope) (a : VoteAddress) : VoteSignature :=
  ((firstVote votes a).map VoteEnvelope.signature).getD .zero

/-- The validators that voted, with their positions. -/
def voters (s : Snapshot) (votes : List VoteEnvelope) : List (Address × Nat) :=
  s.validators.zipIdx.filter fun vi => (firstVote votes (s.voteAddr vi.1)).isSome

theorem filterMap_eq_map_filter {α β : Type} {f : α → Option β} {g : α → β}
    (hfg : ∀ x y, f x = some y → y = g x) (l : List α) :
    l.filterMap f = (l.filter fun x => (f x).isSome).map g := by
  induction l with
  | nil => rfl
  | cons x l ih => grind

theorem mapM_eq_ok_map {ε α β : Type} {f : α → Except ε β} {g : α → β} {l : List α}
    (hfg : ∀ x ∈ l, f x = .ok (g x)) : l.mapM f = .ok (l.map g) := by
  induction l with
  | nil => rfl
  | cons x l ih =>
    rw [List.mapM_cons, hfg x List.mem_cons_self, ih fun y hy => hfg y (List.mem_cons_of_mem _ hy)]
    rfl

section Voters

variable {s : Snapshot} {votes : List VoteEnvelope}

/-- The filter for validators changes nothing at the vote address of a validator. -/
theorem lookup_uniqueByAddr {info : ValidatorInfo}
    (hinfo : info ∈ s.validatorsMap.entries.map Sigma.snd) :
    (uniqueByAddr s votes).lookup info.voteAddr
      = (firstVote votes info.voteAddr).map VoteEnvelope.signature := by
  obtain ⟨e, he, rfl⟩ := List.mem_map.mp hinfo
  have hany : (s.validatorsMap.entries.any fun e' => e'.2.voteAddr == e.2.voteAddr) = true :=
    List.any_eq_true.mpr ⟨e, he, beq_self_eq_true _⟩
  have hfind : ((votes.filter fun vote =>
        s.validatorsMap.entries.any fun e => e.2.voteAddr == vote.voteAddress).find?
        fun vote => vote.voteAddress = e.2.voteAddr) = firstVote votes e.2.voteAddr := by
    rw [List.find?_filter, firstVote]
    congr 1
    funext vote
    by_cases hv : vote.voteAddress = e.2.voteAddr
    · rw [hv, hany]
      simp
    · simp [hv]
  rw [uniqueByAddr, Map.lookup_orInsertAll, hfind]
  rfl

/-- The producer's list of signers is the list of voters in some order. -/
theorem orderedUnique_perm (hwell : s.WellIndexed) (hnodup : s.validators.Nodup) :
    (orderedUnique s votes).Perm ((voters s votes).map fun vi =>
      (UInt64.ofNat vi.2 + 1, s.voteAddr vi.1, firstSignature votes (s.voteAddr vi.1))) := by
  have hmap : orderedUnique s votes = (s.validatorsMap.entries.map Sigma.snd).filterMap
      fun info => (firstVote votes info.voteAddr).map
        fun vote => (info.index, info.voteAddr, vote.signature) := by
    rw [orderedUnique, List.filterMap_map]
    refine List.filterMap_congr fun e he => ?_
    rw [lookup_uniqueByAddr (List.mem_map_of_mem he), Option.map_map]
    rfl
  rw [hmap]
  refine ((hwell.entries_perm hnodup).filterMap _).trans ?_
  rw [List.filterMap_map, filterMap_eq_map_filter (g := fun vi =>
    (UInt64.ofNat vi.2 + 1, s.voteAddr vi.1, firstSignature votes (s.voteAddr vi.1)))]
  · simp only [Function.comp_apply, Option.isSome_map]
    exact List.Perm.refl _
  · intro vi o ho
    obtain ⟨vote, hvote, rfl⟩ := Option.map_eq_some_iff.mp ho
    have hvote : firstVote votes (s.voteAddr vi.1) = some vote := hvote
    simp [firstSignature, hvote]

theorem voters_positions_nodup (s : Snapshot) (votes : List VoteEnvelope) :
    ((voters s votes).map Prod.snd).Nodup :=
  (List.nodup_zipIdx_map_snd s.validators).sublist (List.filter_sublist.map _)

theorem lt_of_mem_voters {vi : Address × Nat} (h : vi ∈ voters s votes) :
    vi.2 < s.validators.length :=
  (List.mem_zipIdx' (List.mem_of_mem_filter h)).1

theorem length_voters_le (s : Snapshot) (votes : List VoteEnvelope) :
    (voters s votes).length ≤ s.validators.length := by
  calc (voters s votes).length
    _ ≤ s.validators.zipIdx.length := List.length_filter_le _ _
    _ = s.validators.length := List.length_zipIdx

theorem voters_positions_lt (hlen : s.validators.length ≤ 64) :
    ∀ q ∈ (voters s votes).map Prod.snd, q < 64 := by
  intro q hq
  obtain ⟨vi, hvi, rfl⟩ := List.mem_map.mp hq
  exact lt_of_lt_of_le (lt_of_mem_voters hvi) hlen

/-- One bit for each voter. -/
theorem countOnes_voters (hlen : s.validators.length ≤ 64) :
    countOnes (voteSet ((voters s votes).map Prod.snd)) = (voters s votes).length := by
  rw [countOnes_voteSet (voters_positions_lt hlen) (voters_positions_nodup s votes),
    List.length_map]

/-- The bits that the producer sets are those of the voters. -/
theorem foldl_orderedUnique (hwell : s.WellIndexed) (hnodup : s.validators.Nodup) :
    (orderedUnique s votes).foldl (fun set o => set ||| ((1 : UInt64) <<< (o.1 - 1))) 0
      = voteSet ((voters s votes).map Prod.snd) := by
  have hcomm : RightCommutative fun (set : UInt64) (o : UInt64 × VoteAddress × VoteSignature) =>
      set ||| ((1 : UInt64) <<< (o.1 - 1)) :=
    ⟨fun set o o' => by rw [UInt64.or_assoc, UInt64.or_comm (_ <<< _), ← UInt64.or_assoc]⟩
  rw [(orderedUnique_perm hwell hnodup).foldl_eq, voteSet, List.foldl_map, List.foldl_map]
  simp

/-- The verifier reads the vote addresses of the voters back from the bits. -/
theorem bitSetVoteAddrs_voteSet (hwell : s.WellIndexed) (hnodup : s.validators.Nodup)
    (hlen : s.validators.length ≤ 64) :
    bitSetVoteAddrs s (voteSet ((voters s votes).map Prod.snd))
      = .ok ((voters s votes).map fun vi => s.voteAddr vi.1) := by
  have hfilter : (s.validators.zipIdx.filter fun vi =>
      vi.2 < 64 && hasBit (voteSet ((voters s votes).map Prod.snd)) vi.2) = voters s votes := by
    refine List.filter_congr fun vi hvi => ?_
    obtain ⟨hlt, hget⟩ := List.mem_zipIdx' hvi
    have hlt64 : vi.2 < 64 := by omega
    rw [hasBit_voteSet (voters_positions_lt hlen) hlt64, decide_eq_true hlt64, Bool.true_and,
      Bool.eq_iff_iff, decide_eq_true_iff]
    refine ⟨fun hmem => ?_, fun hsome => ?_⟩
    · -- the position determines the validator
      obtain ⟨vi', hvi', hpos⟩ := List.mem_map.mp hmem
      obtain ⟨hzip, hsome⟩ := List.mem_filter.mp hvi'
      obtain ⟨hlt', hget'⟩ := List.mem_zipIdx' hzip
      have heq : vi'.1 = vi.1 := by
        rw [hget, hget']
        congr 1
      rwa [heq] at hsome
    · exact List.mem_map.mpr ⟨vi, List.mem_filter.mpr ⟨hvi, hsome⟩, rfl⟩
  rw [bitSetVoteAddrs, hfilter]
  refine mapM_eq_ok_map fun vi hvi => ?_
  rw [hwell.lookup hnodup (List.mem_of_mem_filter hvi)]
  rfl

end Voters

end RethBsc
