import Mathlib.Data.List.Induction
import RethBsc.Node.VoteJournal

/-!
# Slashing safety of the vote journal

A validator is slashed for two votes for one height, and for a vote that surrounds another.  The
journal refuses both as far as it remembers: it keeps the last 512 votes, looks back over 256
blocks, and looks ahead over 11.

* `JournalRun`: votes that `under_rules` allowed and `write_vote` wrote, the oldest first.
* `backwardWindow_spec`, `forwardWindow_spec`, `underRules_spec`: what an allowed vote is checked
  against.
* `Keeps`: the journal keeps the data of the last 512 votes, which each write preserves.
* `journal_slashing_safe`: the run.
-/

namespace RethBsc.VoteJournal

open Rust

/-! ## The rules -/

section Rules

variable {lru : VoteDataLru} {source : UInt64} {vd : VoteData}

/-- A backward window that passes has no vote with a later source. -/
theorem backwardWindow_spec {n : Nat} {blockNumber k : UInt64}
    (hn : blockNumber.toNat + n < 2 ^ 64) (h : backwardWindow lru source n blockNumber = true)
    (hle : blockNumber.toNat ≤ k.toNat) (hlt : k.toNat < blockNumber.toNat + n)
    (hk : lru.get k = some vd) : vd.sourceNumber ≤ source := by
  induction n generalizing blockNumber with
  | zero => omega
  | succ n ih =>
    have hnext : (blockNumber + 1).toNat = blockNumber.toNat + 1 := by
      simp
      omega
    unfold backwardWindow at h
    by_cases hhere : k = blockNumber
    · simp_all
    · have hrest : backwardWindow lru source n (blockNumber + 1) = true := by
        split at h
        · split at h
          · simp at h
          · exact h
        · exact h
      rw [← UInt64.toNat_inj] at hhere
      exact ih (by omega) hrest (by omega) (by omega)

/-- A forward window that passes has no vote with an earlier source. -/
theorem forwardWindow_spec {fuel : Nat} {upper bn k : UInt64} (hupper : upper.toNat + 1 < 2 ^ 64)
    (h : forwardWindow lru source upper fuel bn = some true) (hle : bn.toNat ≤ k.toNat)
    (hk' : k.toNat ≤ upper.toNat) (hk : lru.get k = some vd) : source ≤ vd.sourceNumber := by
  induction fuel generalizing bn with
  | zero => exact absurd h (by simp [forwardWindow])
  | succ fuel ih =>
    unfold forwardWindow at h
    rw [if_pos (UInt64.le_iff_toNat_le.mpr (by omega))] at h
    by_cases hhere : k = bn
    · grind
    · have hrest : forwardWindow lru source upper fuel (bn + 1) = some true := by
        split at h
        · split at h
          · simp at h
          · exact h
        · exact h
      have hnext : (bn + 1).toNat = bn.toNat + 1 := by
        rw [UInt64.toNat_add]
        simp only [UInt64.reduceToNat]
        omega
      rw [← UInt64.toNat_inj] at hhere
      exact ih hrest (by omega)

variable (source) in
/-- Where the backward window starts. -/
def windowStart (target : UInt64) : UInt64 :=
  if saturatingAdd source 1 + maliciousVoteSlashScope < target then
    saturatingSub target maliciousVoteSlashScope
  else saturatingAdd source 1

/-- The window starts at most 256 blocks back, and never before the block after the source. -/
theorem toNat_windowStart {target : UInt64} (hsource : source < target)
    (htarget : target.toNat < 2 ^ 63) :
    (windowStart source target).toNat = max (source.toNat + 1) (target.toNat - 256) := by
  rw [UInt64.lt_iff_toNat_lt] at hsource
  have hadd : (source + 1).toNat = source.toNat + 1 := by
    simp
    omega
  have hsat : saturatingAdd source 1 = source + 1 := by
    rw [saturatingAdd, checkedAdd, if_pos (show source.toNat + (1 : UInt64).toNat < 2 ^ 64 by
      simp only [UInt64.reduceToNat]
      omega)]
    rfl
  have hscope : (source + 1 + maliciousVoteSlashScope).toNat = source.toNat + 257 := by
    rw [UInt64.toNat_add, hadd, show maliciousVoteSlashScope.toNat = 256 from rfl]
    omega
  rw [windowStart, hsat]
  split
  · next hfar =>
    rw [UInt64.lt_iff_toNat_lt, hscope] at hfar
    have hle : maliciousVoteSlashScope ≤ target := UInt64.le_iff_toNat_le.mpr
      (show 256 ≤ target.toNat by omega)
    rw [saturatingSub, if_neg (UInt64.not_lt.mpr hle), UInt64.toNat_sub_of_le _ _ hle,
      show maliciousVoteSlashScope.toNat = 256 from rfl]
    omega
  · next hnear =>
    rw [UInt64.lt_iff_toNat_lt, hscope] at hnear
    omega

/-- **What an allowed vote is checked against.**  Of the votes in memory none has the same target;
none that the vote would surround is at most 256 blocks behind, and none that would surround it is
at most 11 blocks ahead. -/
theorem underRules_spec {j : VoteJournal} {fuel : Nat} {target k : UInt64}
    (hsource : source < target) (htarget : target.toNat < 2 ^ 63)
    (h : j.underRules fuel source target = some true) (hk : j.lru.get k = some vd)
    (hvote : vd.sourceNumber < k) :
    k ≠ target ∧
      (source < vd.sourceNumber → k < target → k.toNat + 256 < target.toNat) ∧
      (vd.sourceNumber < source → target < k → target.toNat + 11 < k.toNat) := by
  have hstart := toNat_windowStart hsource htarget
  have hupper : (target + upperLimitOfVoteBlockNumber).toNat = target.toNat + 11 := by
    rw [UInt64.toNat_add, show upperLimitOfVoteBlockNumber.toNat = 11 from rfl]
    omega
  have hfirst : (target + 1).toNat = target.toNat + 1 := by
    simp
    omega
  have hmem : k ∈ j.lru.map := AList.lookup_isSome.mp (by rw [show j.lru.map.lookup k = _ from hk]; rfl)
  unfold underRules at h
  split at h
  · simp at h
  · next hnew =>
    have hwindows : (if backwardWindow j.lru source (target.toNat - (windowStart source target).toNat)
        (windowStart source target) = true then forwardWindow j.lru source
          (target + upperLimitOfVoteBlockNumber) fuel (target + 1) else some false) = some true := h
    split at hwindows
    · next hback =>
      rw [UInt64.lt_iff_toNat_lt] at hvote hsource
      refine ⟨?_, ?_, ?_⟩
      · rintro rfl
        exact hnew (decide_eq_true hmem)
      · -- a vote that is surrounded and close is in the backward window
        intro hsurrounds hbehind
        by_contra hclose
        have hle := backwardWindow_spec (by omega) hback
          (by rw [UInt64.lt_iff_toNat_lt] at hsurrounds; omega)
          (by rw [UInt64.lt_iff_toNat_lt] at hbehind; omega) hk
        exact UInt64.not_lt.mpr hle hsurrounds
      · intro hsurrounds hahead
        by_contra hclose
        rw [UInt64.lt_iff_toNat_lt] at hahead
        have hle := forwardWindow_spec (by omega) hwindows (by omega) (by omega) hk
        exact UInt64.not_lt.mpr hle hsurrounds
    · simp at hwindows

end Rules

/-! ## Runs -/

/-- The votes of a journal that was empty at first, the oldest first: each was allowed by
`under_rules` and then written. -/
inductive JournalRun : List VoteEnvelope → VoteJournal → Prop
  | empty : JournalRun [] ⟨.new maxRecentEntries⟩
  | vote {votes : List VoteEnvelope} {j j' : VoteJournal} {env : VoteEnvelope} {fuel : Nat}
      {io : JournalIo} (hrun : JournalRun votes j)
      (hallowed : j.underRules fuel env.data.sourceNumber env.data.targetNumber = some true)
      (hwrite : j.writeVote io env = .ok j') :
      JournalRun (votes ++ [env]) j'

/-- The journal has the data of the last 512 votes. -/
structure Keeps (votes : List VoteEnvelope) (j : VoteJournal) : Prop where
  wellFormed : j.WellFormed
  remembers : j.lru.Remembers (votes.reverse.map fun v => v.data.targetNumber)
  get : ∀ i v, votes.length ≤ i + maxRecentEntries → votes[i]? = some v →
    j.lru.get v.data.targetNumber = some v.data

theorem Keeps.vote {votes : List VoteEnvelope} {j : VoteJournal} {env : VoteEnvelope}
    (h : Keeps votes j) (hnew : env.data.targetNumber ∉ j.lru.map) :
    Keeps (votes ++ [env]) ⟨j.lru.add env.data.targetNumber env.data⟩ := by
  have hcap : 0 < j.lru.capacity := by
    rw [h.wellFormed.capacity]
    decide
  have hremembers : (j.lru.add env.data.targetNumber env.data).Remembers
      ((votes ++ [env]).reverse.map fun v => v.data.targetNumber) := by
    rw [List.reverse_append, List.reverse_singleton, List.singleton_append, List.map_cons]
    exact h.remembers.add h.wellFormed.lru hcap hnew
  refine ⟨h.wellFormed.add env, hremembers, fun i v hi hv => ?_⟩
  rw [List.length_append, List.length_singleton] at hi
  rcases Nat.lt_or_ge i votes.length with hlt | hge
  · rw [List.getElem?_append_left hlt] at hv
    have hget := h.get i v (by omega) hv
    have hmem : v.data.targetNumber ∈ j.lru.map :=
      AList.lookup_isSome.mp (by rw [show j.lru.map.lookup _ = _ from hget]; rfl)
    -- the vote is one of the last 512 after the write, so it was not the one dropped
    have hkept : v.data.targetNumber ∈ (j.lru.add env.data.targetNumber env.data).map := by
      refine hremembers.mem (h.wellFormed.lru.add hcap) ?_
      rw [VoteDataLru.capacity_add h.wellFormed.lru, h.wellFormed.capacity, ← List.map_take]
      refine List.mem_map_of_mem (f := fun v : VoteEnvelope => v.data.targetNumber) ?_
      rw [List.take_reverse, List.mem_reverse, List.length_append, List.length_singleton]
      have hidx : votes.length + 1 - maxRecentEntries
          + (i - (votes.length + 1 - maxRecentEntries)) = i := by omega
      refine List.mem_of_getElem? (i := i - (votes.length + 1 - maxRecentEntries)) ?_
      rw [List.getElem?_drop, hidx, List.getElem?_append_left hlt, hv]
    rwa [VoteDataLru.get_add_of_mem env.data h.wellFormed.lru hnew
      (fun heq => hnew (heq ▸ hmem)) hkept]
  · have hlast : i = votes.length := by
      have := (List.getElem?_eq_some_iff.mp hv).1
      rw [List.length_append, List.length_singleton] at this
      omega
    subst hlast
    rw [List.getElem?_append_right (Nat.le_refl _)] at hv
    simp only [Nat.sub_self, List.getElem?_cons_zero, Option.some.injEq] at hv
    subst hv
    exact VoteDataLru.get_add_self

theorem JournalRun.keeps {votes : List VoteEnvelope} {j : VoteJournal} (h : JournalRun votes j) :
    Keeps votes j := by
  induction h with
  | empty =>
    exact ⟨⟨VoteDataLru.wellFormed_new _, rfl⟩, VoteDataLru.remembers_nil,
      fun i v _ hv => absurd hv (by simp)⟩
  | vote hrun hallowed hwrite ih =>
    rw [writeVote_eq_ok hwrite]
    exact ih.vote (notMem_of_underRules hallowed)

/-- Two votes, the earlier one first, that do not make the validator slashable: the targets differ,
and one that surrounds the other is out of the reach of the rules. -/
structure Unslashable (earlier later : VoteData) : Prop where
  target : earlier.targetNumber ≠ later.targetNumber
  surrounds : later.sourceNumber < earlier.sourceNumber →
    earlier.targetNumber < later.targetNumber →
      256 < later.targetNumber.toNat - earlier.targetNumber.toNat
  surrounded : earlier.sourceNumber < later.sourceNumber →
    later.targetNumber < earlier.targetNumber →
      11 < earlier.targetNumber.toNat - later.targetNumber.toNat

/-- **Slashing safety of the journal.** -/
theorem journal_slashing_safe (votes : List VoteEnvelope) (j : VoteJournal)
    (hrun : JournalRun votes j) (hvotes : ∀ v ∈ votes, v.data.sourceNumber < v.data.targetNumber ∧
      v.data.targetNumber.toNat < 2 ^ 63) :
    ∀ i k vi vk, i < k → k ≤ i + maxRecentEntries → votes[i]? = some vi → votes[k]? = some vk →
      Unslashable vi.data vk.data := by
  induction hrun with
  | empty => exact fun i k vi vk _ _ hvi => absurd hvi (by simp)
  | @vote votes j j' env fuel io hrun hallowed hwrite ih =>
    intro i k vi vk hik hwindow hvi hvk
    obtain ⟨hprev, hlast⟩ := List.forall_mem_append.mp hvotes
    have hk : k < votes.length + 1 := by
      have := (List.getElem?_eq_some_iff.mp hvk).1
      rwa [List.length_append, List.length_singleton] at this
    rw [List.getElem?_append_left (show i < votes.length by omega)] at hvi
    rcases Nat.lt_or_ge k votes.length with hlt | hge
    · grind
    · -- the later vote is the last one, and the earlier one was in memory when it was checked
      obtain rfl : k = votes.length := by omega
      rw [List.getElem?_append_right (Nat.le_refl _)] at hvk
      simp only [Nat.sub_self, List.getElem?_cons_zero, Option.some.injEq] at hvk
      subst hvk
      obtain ⟨hsource, htarget⟩ := hlast env (List.mem_singleton_self env)
      have hget := hrun.keeps.get i vi hwindow hvi
      have hvote := (hprev vi (List.mem_of_getElem? hvi)).1
      obtain ⟨hne, hbehind, hahead⟩ := underRules_spec hsource htarget hallowed hget hvote
      exact ⟨hne, fun hs ht => by have := hbehind hs ht; omega,
        fun hs ht => by have := hahead hs ht; omega⟩

/-! ### Two votes -/

def journalVote (source target : UInt64) : VoteEnvelope :=
  { (default : VoteEnvelope) with
    data := { (default : VoteData) with sourceNumber := source, targetNumber := target } }

def memoryIo : JournalIo := ⟨true, false, false, false, false, false⟩

/-- The journal after the first vote. -/
def firstJournal : VoteJournal :=
  ⟨(VoteDataLru.new maxRecentEntries).add 5 (journalVote 4 5).data⟩

/-- A vote for block 5, and one for block 262 that surrounds it and is just far enough away. -/
theorem surrounding_run :
    JournalRun [journalVote 4 5, journalVote 0 262]
      ⟨firstJournal.lru.add 262 (journalVote 0 262).data⟩ := by
  have hallowed : underRules 20 ⟨.new maxRecentEntries⟩ 4 5 = some true := by decide +kernel
  have hwrite : writeVote memoryIo ⟨.new maxRecentEntries⟩ (journalVote 4 5) = .ok firstJournal := rfl
  have hallowed' : firstJournal.underRules 20 0 262 = some true := by decide +kernel
  have hwrite' : firstJournal.writeVote memoryIo (journalVote 0 262)
      = .ok ⟨firstJournal.lru.add 262 (journalVote 0 262).data⟩ := rfl
  have hfirst : JournalRun ([] ++ [journalVote 4 5]) firstJournal := .vote .empty hallowed hwrite
  exact .vote hfirst hallowed' hwrite'

theorem surrounding_votes_unslashable : Unslashable (journalVote 4 5).data (journalVote 0 262).data :=
  journal_slashing_safe _ _ surrounding_run
    (by
      intro v hv
      rcases List.mem_cons.mp hv with rfl | hv
      · decide
      · rw [List.mem_singleton.mp hv]
        decide)
    0 1 _ _ (by decide) (by decide) rfl rfl

end RethBsc.VoteJournal
