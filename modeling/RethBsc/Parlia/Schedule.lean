import RethBsc.Order.RoundRobin
import RethBsc.Parlia.RecentProposers

/-!
# The schedule of validators in turn

`inturn_validator` of `src/consensus/parlia/snapshot.rs` is a round robin: the validators of the
sorted list take turns of `turn_length` blocks each.

* `inturnOf`: the validator in turn for a block number, as the code finds it on the snapshot of the
  block before; `inturnOf_eq_ok` reads it off the round robin.
* **`inturn_schedule`**: each validator has its share of any full cycle, in whole turns, and
  `last_block_in_one_turn` tells where a turn ends.
-/

namespace RethBsc.Snapshot

open Rust RoundRobin

variable (s : Snapshot)

/-- The snapshot with another block number. -/
def atBlock (number : UInt64) : Snapshot := { s with blockNumber := number }

/-- The validator in turn for the block `number`, asked on the block before it. -/
def inturnOf (number : Nat) : Outcome Unit Address :=
  (s.atBlock (UInt64.ofNat number - 1)).inturnValidator

/-- The place of the block `number` in the round robin. -/
def inturnIndex (number : Nat) : Nat := player s.validators.length s.turns number

variable {s} {v : Address}

/-! ## The validator in turn -/

theorem inturnValidator_eq_ok {ε : Type} (hturns : 1 ≤ s.turns) :
    (s.inturnValidator : Outcome ε Address) = .ok v ↔
      s.validators[s.inturnIndex (s.blockNumber + 1).toNat]? = some v := by
  have hturn : (s.turnLength.getD defaultTurnLength).toUInt64.toNat = s.turns := by
    rw [UInt8.toNat_toUInt64]
    rfl
  have hne : (s.turnLength.getD defaultTurnLength).toUInt64 ≠ 0 := by
    intro h
    simp_all
    omega
  unfold inturnValidator
  dsimp only
  by_cases hempty : s.validators.length = 0
  · simp [*]
  · rw [if_neg (not_or.mpr ⟨hne, hempty⟩), Outcome.unwrap_eq_ok, UInt64.toNat_div, hturn]
    rfl

theorem inturnOf_eq_ok (hturns : 1 ≤ s.turns) {number : Nat} (hnumber : number < 2 ^ 64) :
    s.inturnOf number = .ok v ↔ s.validators[s.inturnIndex number]? = some v := by
  have hnext : (UInt64.ofNat number - 1 + 1).toNat = number := by
    rw [UInt64.sub_add_cancel, UInt64.toNat_ofNat_of_lt' hnumber]
  have hasked : s.inturnOf number = .ok v ↔
      s.validators[s.inturnIndex (UInt64.ofNat number - 1 + 1).toNat]? = some v :=
    inturnValidator_eq_ok (s := s.atBlock (UInt64.ofNat number - 1)) hturns
  rw [hasked, hnext]

theorem inturnIndex_lt (hne : s.validators ≠ []) (number : Nat) :
    s.inturnIndex number < s.validators.length :=
  player_lt (List.length_pos_iff.mpr hne)

/-- There is always a validator in turn. -/
theorem exists_inturn (hne : s.validators ≠ []) (number : Nat) :
    ∃ v ∈ s.validators, s.validators[s.inturnIndex number]? = some v := by
  have hlt : s.inturnIndex number < s.validators.length := inturnIndex_lt hne number
  exact ⟨s.validators[s.inturnIndex number], List.getElem_mem _, List.getElem?_eq_getElem hlt⟩

/-- Different places hold different validators. -/
theorem inturnIndex_eq (hnodup : s.validators.Nodup) {number number' : Nat}
    (h : s.validators[s.inturnIndex number]? = some v)
    (h' : s.validators[s.inturnIndex number']? = some v) :
    s.inturnIndex number = s.inturnIndex number' := by
  obtain ⟨hlt, -⟩ := List.getElem?_eq_some_iff.mp h
  exact (List.getElem?_inj hlt hnodup).mp (h.trans h'.symm)

theorem inturnOf_eq_iff (hne : s.validators ≠ []) (hnodup : s.validators.Nodup)
    (hturns : 1 ≤ s.turns) {number number' : Nat} (hnumber : number < 2 ^ 64)
    (hnumber' : number' < 2 ^ 64) :
    s.inturnOf number = s.inturnOf number' ↔ s.inturnIndex number = s.inturnIndex number' := by
  obtain ⟨v, -, hv⟩ := exists_inturn hne number
  rw [(inturnOf_eq_ok hturns hnumber).mpr hv, eq_comm, inturnOf_eq_ok hturns hnumber']
  constructor
  · exact fun hv' => inturnIndex_eq hnodup hv hv'
  · exact fun hindex => hindex ▸ hv

/-! ## Shares and turns -/

theorem card_inturnOf (hnodup : s.validators.Nodup) (hturns : 1 ≤ s.turns) (hv : v ∈ s.validators)
    {start : Nat} (hfits : start + s.validators.length * s.turns ≤ 2 ^ 64) :
    ((Finset.Ico start (start + s.validators.length * s.turns)).filter
      fun number => s.inturnOf number = .ok v).card = s.turns := by
  obtain ⟨i, hi, hget⟩ := List.getElem_of_mem hv
  refine Eq.trans (congrArg Finset.card (Finset.filter_congr fun number hmem => ?_))
    (card_player hturns hi start)
  have hnumber : number < 2 ^ 64 := by
    have := (Finset.mem_Ico.mp hmem).2
    omega
  have hplace : s.validators[i]? = some v := by rw [List.getElem?_eq_getElem hi, hget]
  rw [inturnOf_eq_ok hturns hnumber]
  constructor
  · intro h
    exact ((List.getElem?_inj hi hnodup).mp (hplace.trans h.symm)).symm
  · intro h
    rw [← hplace, ← h]
    rfl

theorem lastBlockInOneTurn_iff (hturns : 1 ≤ s.turns) (b : UInt64) :
    s.lastBlockInOneTurn b = true ↔ b.toNat % s.turns = s.turns - 1 := by
  have hturn : (s.turnLength.getD defaultTurnLength).toUInt64.toNat = s.turns := by
    rw [UInt8.toNat_toUInt64]
    rfl
  unfold lastBlockInOneTurn
  dsimp only
  split
  · next hle =>
    have hone : s.turns = 1 := by
      rw [UInt64.le_iff_toNat_le, hturn] at hle
      simp only [UInt64.reduceToNat] at hle
      omega
    simp [hone, Nat.mod_one]
  · next hle =>
    have hsub : ((s.turnLength.getD defaultTurnLength).toUInt64 - 1).toNat = s.turns - 1 := by
      rw [UInt64.toNat_sub_of_le, hturn]
      · rfl
      · exact UInt64.le_of_lt (UInt64.not_le.mp hle)
    rw [beq_iff_eq, ← UInt64.toNat_inj, UInt64.toNat_mod, hturn, hsub]

/-- **The schedule.**  In any `n * T` consecutive block numbers each validator is in turn for `T`.
Around a block of `v` the blocks of the same turn, which starts at a multiple of `T`, are `v`'s,
and with two or more validators the blocks next to the turn are not.  The last block of a turn is
the one after which the validator in turn changes. -/
theorem inturn_schedule (s : Snapshot) (hne : s.validators ≠ []) (hnodup : s.validators.Nodup)
    (hturns : 1 ≤ s.turns) :
    (∀ start, start + s.validators.length * s.turns ≤ 2 ^ 64 →
      ∀ v ∈ s.validators, ((Finset.Ico start (start + s.validators.length * s.turns)).filter
        fun number => s.inturnOf number = .ok v).card = s.turns) ∧
    (∀ number < 2 ^ 64, ∃ v ∈ s.validators, s.inturnOf number = .ok v) ∧
    (∀ number turn : Nat, ∀ v, number < 2 ^ 64 → turn * s.turns ≤ number →
      number < (turn + 1) * s.turns → s.inturnOf number = .ok v → ∀ other < 2 ^ 64,
        (turn * s.turns ≤ other → other < (turn + 1) * s.turns → s.inturnOf other = .ok v) ∧
        (2 ≤ s.validators.length → other + 1 = turn * s.turns ∨ other = (turn + 1) * s.turns →
          s.inturnOf other ≠ .ok v)) ∧
    (2 ≤ s.validators.length → ∀ b : UInt64, b.toNat + 1 < 2 ^ 64 →
      (s.lastBlockInOneTurn b = true ↔ s.inturnOf (b.toNat + 1) ≠ s.inturnOf b.toNat)) := by
  refine ⟨fun start hfits v hv => card_inturnOf hnodup hturns hv hfits, fun number hnumber => ?_,
    fun number turn v hnumber hle hlt hv other hother => ⟨fun hle' hlt' => ?_, fun htwo hnext => ?_⟩,
    fun htwo b hb => ?_⟩
  · obtain ⟨v, hmem, hv⟩ := exists_inturn hne number
    exact ⟨v, hmem, (inturnOf_eq_ok hturns hnumber).mpr hv⟩
  · rw [← hv, inturnOf_eq_iff hne hnodup hturns hother hnumber]
    refine player_congr ?_
    rw [Nat.div_eq_of_lt_le hle' hlt', Nat.div_eq_of_lt_le hle hlt]
  · rw [← hv, ne_eq, inturnOf_eq_iff hne hnodup hturns hother hnumber]
    have hturn : number / s.turns = turn := Nat.div_eq_of_lt_le hle hlt
    rcases hnext with hbefore | hafter
    · -- the block before the turn is in the turn before
      obtain ⟨q, rfl⟩ : ∃ q, turn = q + 1 := Nat.exists_eq_succ_of_ne_zero (by
        rintro rfl
        omega)
      refine player_ne_of_next_turn htwo ?_
      have hprevious : other / s.turns = q := by
        rw [Nat.succ_mul] at hbefore
        refine Nat.div_eq_of_lt_le (by omega) ?_
        rw [Nat.succ_mul]
        omega
      rw [hturn, hprevious]
    · refine (player_ne_of_next_turn htwo ?_).symm
      rw [hturn, hafter, Nat.mul_div_cancel _ hturns]
  · rw [lastBlockInOneTurn_iff hturns, ne_eq,
      inturnOf_eq_iff hne hnodup hturns hb (by omega)]
    exact (player_succ_ne_iff htwo hturns).symm

/-- Two validators with turns of four blocks. -/
def pairInTurns : Snapshot := { pairSnapshot 0 ∅ with turnLength := some 4 }

/-- Blocks 3 to 10: the first validator has block 3, and 8 to 10 of its next turn. -/
theorem inturn_schedule_pairInTurns :
    ((Finset.Ico 3 (3 + pairInTurns.validators.length * pairInTurns.turns)).filter
      fun number => pairInTurns.inturnOf number = .ok (nthValidator 1)).card = 4 :=
  (inturn_schedule pairInTurns (by decide +kernel) (by decide +kernel) (by decide +kernel)).1 3
    (by decide +kernel) (nthValidator 1) (by decide +kernel)

end RethBsc.Snapshot
