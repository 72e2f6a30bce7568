import Mathlib.Data.Prod.Lex
import RethBsc.Order.Champion
import RethBsc.Parlia.ForkChoiceRule

/-!
# The order behind the fork choice

From Plato on, and among candidates whose total difficulty is known, `isNeedReorg` compares two
candidates by five keys in turn: the higher justified number, the higher total difficulty, the
lower number, the earlier timestamp and the smaller hash.  The random bit is left for a tie of the
first four keys between two proposers.

* `rank` is the tuple of the five keys, in the lexicographic order.
* `isNeedReorg_eq`: without a tie between proposers the answer is a comparison of ranks, whatever
  the random bit.
* `headAfter` is the head after a sequence of candidates; it is the champion of their ranks
  (`headAfter_eq`), so what is known of champions holds of heads.
* `isNeedReorg_strict_order`: the answers are a strict order, a replaced head does not return, and
  the last head does not depend on the order of the candidates.
-/

namespace RethBsc

open Rust OrderDual

namespace BscForkChoiceRule

/-! ## Ranks -/

/-- The keys of a header: number, timestamp, hash. -/
def headerRank (hashSlow : Header → B256) (h : Header) : Nat ×ₗ Nat ×ₗ B256 :=
  toLex (h.number.toNat, toLex (h.timestamp.toNat, hashSlow h))

/-- The keys of a candidate.  The best candidate has the smallest rank, so the two numbers that
count upwards are taken in the dual order. -/
def rank (hashSlow : Header → B256) (a : HeaderForForkchoice) :
    Natᵒᵈ ×ₗ Natᵒᵈ ×ₗ Nat ×ₗ Nat ×ₗ B256 :=
  toLex (toDual a.justifiedNum.toNat, toLex (toDual (a.td.getD 0), headerRank hashSlow a.header))

/-- Candidates from Plato on whose total difficulty is known, without a tie between two proposers. -/
structure Candidates (rule : BscForkChoiceRule) (S : Set HeaderForForkchoice) : Prop where
  plato : ∀ a ∈ S, rule.spec.isPlatoActiveAtBlock a.header.number = true
  known : ∀ a ∈ S, a.td.isSome
  noTie : ∀ a ∈ S, ∀ b ∈ S, a.justifiedNum = b.justifiedNum → a.td = b.td →
    a.header.number = b.header.number → a.header.timestamp = b.header.timestamp →
    a.header.beneficiary = b.header.beneficiary

variable {rule : BscForkChoiceRule} {hashSlow : Header → B256} {S : Set HeaderForForkchoice}
  {a b c : HeaderForForkchoice}

theorem headerRank_lt {x y : Header} :
    headerRank hashSlow x < headerRank hashSlow y ↔ x.number < y.number ∨
      x.number = y.number ∧ (x.timestamp < y.timestamp ∨
        x.timestamp = y.timestamp ∧ hashSlow x < hashSlow y) := by
  unfold headerRank
  rw [Prod.Lex.toLex_lt_toLex, Prod.Lex.toLex_lt_toLex, UInt64.toNat_inj, UInt64.toNat_inj,
    ← UInt64.lt_iff_toNat_lt, ← UInt64.lt_iff_toNat_lt]

theorem rank_lt : rank hashSlow a < rank hashSlow b ↔ b.justifiedNum < a.justifiedNum ∨
    a.justifiedNum = b.justifiedNum ∧ (b.td.getD 0 < a.td.getD 0 ∨
      a.td.getD 0 = b.td.getD 0 ∧ headerRank hashSlow a.header < headerRank hashSlow b.header) := by
  unfold rank
  rw [Prod.Lex.toLex_lt_toLex, Prod.Lex.toLex_lt_toLex, toDual_lt_toDual, toDual_lt_toDual,
    toDual_inj, toDual_inj, UInt64.toNat_inj, ← UInt64.lt_iff_toNat_lt]

theorem hash_eq_of_rank_eq (h : rank hashSlow a = rank hashSlow b) :
    hashSlow a.header = hashSlow b.header := by
  obtain ⟨-, h⟩ := Prod.mk.inj (toLex.injective h)
  obtain ⟨-, h⟩ := Prod.mk.inj (toLex.injective h)
  obtain ⟨-, h⟩ := Prod.mk.inj (toLex.injective h)
  exact (Prod.mk.inj (toLex.injective h)).2

/-- Without hash collisions, candidates of one rank are one candidate. -/
theorem eq_of_rank_eq (hS : Candidates rule S) (hinj : hashSlow.Injective) (ha : a ∈ S)
    (hb : b ∈ S) (h : rank hashSlow a = rank hashSlow b) : a = b := by
  have hheader : a.header = b.header := hinj (hash_eq_of_rank_eq h)
  obtain ⟨hjustified, h⟩ := Prod.mk.inj (toLex.injective h)
  obtain ⟨htd, -⟩ := Prod.mk.inj (toLex.injective h)
  obtain ⟨aTd, haTd⟩ := Option.isSome_iff_exists.mp (hS.known a ha)
  obtain ⟨bTd, hbTd⟩ := Option.isSome_iff_exists.mp (hS.known b hb)
  rw [toDual_inj, haTd, hbTd, Option.getD_some, Option.getD_some] at htd
  have hsameTd : a.td = b.td := by rw [haTd, hbTd, htd]
  cases a
  cases b
  simp only [HeaderForForkchoice.mk.injEq]
  exact ⟨hheader, hsameTd, UInt64.toNat_inj.mp (toDual_inj.mp hjustified)⟩

/-! ## The decision -/

/-- At equal difficulties the keys of the headers decide, unless two proposers tie. -/
theorem headChoiceAtEqualTd_eq {x y : Header} (coin : Bool)
    (hbeneficiary : x.number = y.number → x.timestamp = y.timestamp →
      x.beneficiary = y.beneficiary) :
    headChoiceAtEqualTd hashSlow coin x y
      = decide (headerRank hashSlow x < headerRank hashSlow y) := by
  rw [headChoiceAtEqualTd, Bool.eq_iff_iff, decide_eq_true_iff, headerRank_lt]
  split_ifs with hlt hgt htime hsame
  · exact iff_of_true rfl (.inl hlt)
  · refine iff_of_false (by simp) ?_
    rintro (hlt' | ⟨heq, -⟩)
    · exact hlt hlt'
    · exact UInt64.lt_irrefl _ (heq ▸ hgt)
  · -- the hashes decide
    have hnumber : x.number = y.number :=
      UInt64.le_antisymm (UInt64.not_lt.mp hgt) (UInt64.not_lt.mp hlt)
    simp [hnumber, htime, UInt64.lt_irrefl]
  · have hnumber : x.number = y.number :=
      UInt64.le_antisymm (UInt64.not_lt.mp hgt) (UInt64.not_lt.mp hlt)
    exact absurd (hbeneficiary hnumber htime) hsame
  · have hnumber : x.number = y.number :=
      UInt64.le_antisymm (UInt64.not_lt.mp hgt) (UInt64.not_lt.mp hlt)
    simp [hnumber, htime, UInt64.lt_irrefl]

theorem isNeedReorg_eq (hS : Candidates rule S) (ha : a ∈ S) (hb : b ∈ S) (coin : Bool) :
    rule.isNeedReorg hashSlow coin a b
      = .ok (decide (rank hashSlow a < rank hashSlow b)) := by
  obtain ⟨aTd, haTd⟩ := Option.isSome_iff_exists.mp (hS.known a ha)
  obtain ⟨bTd, hbTd⟩ := Option.isSome_iff_exists.mp (hS.known b hb)
  rw [isNeedReorg, headChoiceWithFastFinality, hS.plato a ha]
  by_cases hjustified : a.justifiedNum = b.justifiedNum
  · -- the total difficulties decide, and then the headers
    have hrank : rank hashSlow a < rank hashSlow b ↔ bTd < aTd ∨
        aTd = bTd ∧ headerRank hashSlow a.header < headerRank hashSlow b.header := by
      rw [rank_lt, haTd, hbTd]
      simp [hjustified, UInt64.lt_irrefl]
    simp only [hjustified, headChoiceWithTd, haTd, hbTd, hrank]
    rcases Nat.lt_trichotomy aTd bTd with hlt | heq | hgt
    · simp [hlt, Nat.lt_asymm hlt, Nat.ne_of_lt hlt]
    · have hbeneficiary := hS.noTie a ha b hb hjustified (by rw [haTd, hbTd, heq])
      rw [headChoiceAtEqualTd_eq coin hbeneficiary]
      simp [heq]
    · simp [hgt]
  · have hrank : rank hashSlow a < rank hashSlow b ↔ b.justifiedNum < a.justifiedNum := by
      rw [rank_lt]
      simp [hjustified]
    simp [hjustified, hrank]

variable {coin : Bool}

theorem isNeedReorg_eq_true (hS : Candidates rule S) (ha : a ∈ S) (hb : b ∈ S) :
    rule.isNeedReorg hashSlow coin a b = .ok true ↔ rank hashSlow a < rank hashSlow b := by
  rw [isNeedReorg_eq hS ha hb, Except.ok.injEq, decide_eq_true_iff]

theorem isNeedReorg_eq_false (hS : Candidates rule S) (ha : a ∈ S) (hb : b ∈ S)
    (h : rank hashSlow b ≤ rank hashSlow a) : rule.isNeedReorg hashSlow coin a b = .ok false := by
  rw [isNeedReorg_eq hS ha hb, decide_eq_false (not_lt.mpr h)]

/-! ## Heads

`update_forkchoice` hands the incoming header on as the head if `isNeedReorg` says so, and the
current head otherwise. -/

/-- The head after a sequence of candidates, each with the random bit of its comparison. -/
def headAfter (rule : BscForkChoiceRule) (hashSlow : Header → B256) :
    HeaderForForkchoice → List (Bool × HeaderForForkchoice) →
      Except ParliaConsensusErr HeaderForForkchoice
  | head, [] => .ok head
  | head, (coin, incoming) :: offers => do
    let needReorg ← rule.isNeedReorg hashSlow coin incoming head
    headAfter rule hashSlow (if needReorg then incoming else head) offers

variable {head : HeaderForForkchoice} {offers : List (Bool × HeaderForForkchoice)}

/-- The current head and the candidates that were offered. -/
def offered (head : HeaderForForkchoice) (offers : List (Bool × HeaderForForkchoice)) :
    List HeaderForForkchoice :=
  head :: offers.map Prod.snd

theorem headAfter_cons (hS : Candidates rule S) {incoming : HeaderForForkchoice}
    (hincoming : incoming ∈ S) (hhead : head ∈ S) :
    headAfter rule hashSlow head ((coin, incoming) :: offers)
      = headAfter rule hashSlow (Champion.step (rank hashSlow) head incoming) offers := by
  rw [headAfter, isNeedReorg_eq hS hincoming hhead coin]
  show headAfter rule hashSlow (if decide (_ < _) = true then incoming else head) offers
    = headAfter rule hashSlow (if _ < _ then incoming else head) offers
  simp only [decide_eq_true_eq]

theorem headAfter_eq (hS : Candidates rule S) (hmem : ∀ a ∈ offered head offers, a ∈ S) :
    headAfter rule hashSlow head offers
      = .ok (Champion.final (rank hashSlow) head (offers.map Prod.snd)) := by
  induction offers generalizing head with
  | nil => rfl
  | cons offer offers ih =>
    obtain ⟨coin, incoming⟩ := offer
    have hhead : head ∈ S := hmem head List.mem_cons_self
    have hincoming : incoming ∈ S := hmem incoming (List.mem_cons_of_mem _ List.mem_cons_self)
    rw [headAfter_cons hS hincoming hhead, ih]
    · rfl
    · intro a ha
      rcases List.mem_cons.mp ha with rfl | ha
      · -- the next head is the incoming candidate or the old head
        unfold Champion.step
        split
        · exact hincoming
        · exact hhead
      · exact hmem a (List.mem_cons_of_mem _ (List.mem_cons_of_mem _ ha))

/-- A head that was replaced is not the head after any further candidates. -/
theorem headAfter_ne_replaced (hS : Candidates rule S) {before after}
    {incoming replaced : HeaderForForkchoice}
    (hmem : ∀ a ∈ offered head (before ++ (coin, incoming) :: after), a ∈ S)
    (hreplaced : headAfter rule hashSlow head before = .ok replaced)
    (hreorg : rule.isNeedReorg hashSlow coin incoming replaced = .ok true) :
    ∃ later, headAfter rule hashSlow head (before ++ (coin, incoming) :: after) = .ok later ∧
      later ≠ replaced := by
  have hbefore : ∀ a ∈ offered head before, a ∈ S := by simp_all [offered]
  rw [headAfter_eq hS hbefore] at hreplaced
  cases hreplaced
  have hincoming : incoming ∈ S := hmem incoming (by unfold offered; simp)
  rw [isNeedReorg_eq_true hS hincoming (hbefore _ Champion.final_mem)] at hreorg
  refine ⟨_, headAfter_eq hS hmem, fun heq => ?_⟩
  rw [List.map_append, Champion.final_append] at heq
  exact absurd (congrArg (rank hashSlow) heq) (Champion.rank_final_lt hreorg).ne

/-- **Fork choice is a strict order.**  Among candidates without a tie between proposers, and
whatever the random bits: no candidate wins against itself, of two candidates at most one wins
against the other, winning is transitive, and two headers with different hashes are decided.  So a
head that was replaced does not become head again, and the last head of two sequences with the same
candidates is the same. -/
theorem isNeedReorg_strict_order (rule : BscForkChoiceRule) (hashSlow : Header → B256)
    (S : Set HeaderForForkchoice) (hS : Candidates rule S) :
    (∀ a ∈ S, ∀ coin, rule.isNeedReorg hashSlow coin a a = .ok false) ∧
    (∀ a ∈ S, ∀ b ∈ S, ∀ coin coin', rule.isNeedReorg hashSlow coin a b = .ok true →
      rule.isNeedReorg hashSlow coin' b a = .ok false) ∧
    (∀ a ∈ S, ∀ b ∈ S, ∀ c ∈ S, ∀ coin coin' coin'',
      rule.isNeedReorg hashSlow coin a b = .ok true →
      rule.isNeedReorg hashSlow coin' b c = .ok true →
      rule.isNeedReorg hashSlow coin'' a c = .ok true) ∧
    (∀ a ∈ S, ∀ b ∈ S, hashSlow a.header ≠ hashSlow b.header → ∀ coin coin',
      rule.isNeedReorg hashSlow coin a b = .ok true ∨
      rule.isNeedReorg hashSlow coin' b a = .ok true) ∧
    (∀ head before coin incoming after replaced,
      (∀ a ∈ offered head (before ++ (coin, incoming) :: after), a ∈ S) →
      headAfter rule hashSlow head before = .ok replaced →
      rule.isNeedReorg hashSlow coin incoming replaced = .ok true →
      ∃ later, headAfter rule hashSlow head (before ++ (coin, incoming) :: after) = .ok later ∧
        later ≠ replaced) ∧
    (∀ head offers head' offers', (∀ a ∈ offered head offers, a ∈ S) →
      (∀ a, a ∈ offered head offers ↔ a ∈ offered head' offers') →
      ∃ last last', headAfter rule hashSlow head offers = .ok last ∧
        headAfter rule hashSlow head' offers' = .ok last' ∧
        hashSlow last.header = hashSlow last'.header ∧
        (hashSlow.Injective → last = last')) := by
  refine ⟨fun a ha coin => isNeedReorg_eq_false hS ha ha le_rfl, ?_, ?_, ?_, ?_, ?_⟩
  · intro a ha b hb coin coin' hab
    exact isNeedReorg_eq_false hS hb ha ((isNeedReorg_eq_true hS ha hb).mp hab).le
  · intro a ha b hb c hc coin coin' coin'' hab hbc
    rw [isNeedReorg_eq_true hS ha hb] at hab
    rw [isNeedReorg_eq_true hS hb hc] at hbc
    exact (isNeedReorg_eq_true hS ha hc).mpr (hab.trans hbc)
  · intro a ha b hb hhash coin coin'
    rcases lt_trichotomy (rank hashSlow a) (rank hashSlow b) with hlt | heq | hgt
    · exact .inl ((isNeedReorg_eq_true hS ha hb).mpr hlt)
    · exact absurd (hash_eq_of_rank_eq heq) hhash
    · exact .inr ((isNeedReorg_eq_true hS hb ha).mpr hgt)
  · intro head before coin incoming after replaced hmem hreplaced hreorg
    exact headAfter_ne_replaced hS hmem hreplaced hreorg
  · intro head offers head' offers' hmem hsame
    have hmem' : ∀ a ∈ offered head' offers', a ∈ S := fun a ha => hmem a ((hsame a).mpr ha)
    -- the two last heads have one rank, although the candidates came in another order
    have hrank : rank hashSlow (Champion.final (rank hashSlow) head (offers.map Prod.snd))
        = rank hashSlow (Champion.final (rank hashSlow) head' (offers'.map Prod.snd)) :=
      Champion.rank_final_eq hsame
    refine ⟨_, _, headAfter_eq hS hmem, headAfter_eq hS hmem', hash_eq_of_rank_eq hrank,
      fun hinj => ?_⟩
    exact eq_of_rank_eq hS hinj (hmem _ Champion.final_mem) (hmem' _ Champion.final_mem) hrank

/-! ### Candidates of one proposer -/

def platoRule : BscForkChoiceRule where
  spec :=
    { bscForkActivation := fun fork => if fork = .plato then .block 0 else .never
      ethereumForkActivation := fun _ => .never }

/-- All candidates with a known total difficulty that one proposer has signed. -/
def oneProposer : Set HeaderForForkchoice :=
  {a | a.td.isSome ∧ a.header.beneficiary = .zero}

theorem oneProposer_candidates : Candidates platoRule oneProposer where
  plato a _ := by
    show decide ((0 : UInt64) ≤ a.header.number) = true
    simp [UInt64.le_iff_toNat_le]
  known a ha := ha.1
  noTie a ha b hb _ _ _ _ := ha.2.trans hb.2.symm

/-- A candidate at a height, with its total difficulty. -/
def candidateAt (number : UInt64) (td : Nat) : HeaderForForkchoice :=
  ⟨{ (default : Header) with number, beneficiary := .zero }, some td, 0⟩

/-- Two competing blocks in either order leave the same head, the lower one. -/
theorem lower_block_stays_head :
    headAfter platoRule numberHash (candidateAt 1 2) [(true, candidateAt 3 4), (false, candidateAt 2 4)]
        = .ok (candidateAt 2 4) ∧
      ∃ last last', headAfter platoRule numberHash (candidateAt 1 2)
          [(true, candidateAt 3 4), (false, candidateAt 2 4)] = .ok last ∧
        headAfter platoRule numberHash (candidateAt 1 2)
          [(true, candidateAt 2 4), (false, candidateAt 3 4)] = .ok last' ∧
        numberHash last.header = numberHash last'.header := by
  refine ⟨by rfl, ?_⟩
  obtain ⟨-, -, -, -, -, horder⟩ :=
    isNeedReorg_strict_order platoRule numberHash oneProposer oneProposer_candidates
  obtain ⟨last, last', hlast, hlast', hhash, -⟩ := horder (candidateAt 1 2)
    [(true, candidateAt 3 4), (false, candidateAt 2 4)] (candidateAt 1 2)
    [(true, candidateAt 2 4), (false, candidateAt 3 4)]
    (by
      intro a ha
      simp only [offered, List.map_cons, List.map_nil, List.mem_cons, List.not_mem_nil] at ha
      rcases ha with rfl | rfl | rfl | h
      · exact ⟨rfl, rfl⟩
      · exact ⟨rfl, rfl⟩
      · exact ⟨rfl, rfl⟩
      · exact h.elim)
    (by
      intro a
      simp only [offered, List.map_cons, List.map_nil, List.mem_cons, List.not_mem_nil]
      tauto)
  exact ⟨last, last', hlast, hlast', hhash⟩

end BscForkChoiceRule

end RethBsc
