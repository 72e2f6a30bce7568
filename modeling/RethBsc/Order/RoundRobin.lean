import Mathlib.Data.Nat.Periodic
import Mathlib.Order.Interval.Finset.Nat

/-!
# Round robin in turns

`n` players take turns of `T` rounds each, so that round `k` belongs to player `k / T % n`.

* `player_congr`, `player_ne_of_next_turn`: a player's rounds come in turns, and two neighbouring
  turns belong to different players.
* `card_player`: in any `n * T` consecutive rounds each player has exactly `T`.
* `card_player_before_lt`: looking back from a round over less than that, its player has had fewer
  than `T`.
-/

namespace RoundRobin

/-- Whose round it is. -/
def player (n T k : ℕ) : ℕ := k / T % n

variable {n T k k' i : ℕ}

theorem player_lt (hn : 0 < n) : player n T k < n := Nat.mod_lt _ hn

theorem player_periodic (n : ℕ) (hT : 0 < T) : Function.Periodic (player n T) (n * T) := by
  intro k
  unfold player
  rw [Nat.add_mul_div_right _ _ hT, Nat.add_mod_right]

/-! ## Turns -/

theorem player_congr (h : k / T = k' / T) : player n T k = player n T k' := by
  unfold player
  rw [h]

theorem mod_ne_succ_mod (hn : 2 ≤ n) (q : ℕ) : q % n ≠ (q + 1) % n := by
  intro h
  have hdvd : n ∣ 1 := (Nat.modEq_iff_dvd' (Nat.le_succ q)).mp h |>.trans (by simp)
  exact absurd (Nat.le_of_dvd Nat.one_pos hdvd) (by omega)

theorem player_ne_of_next_turn (hn : 2 ≤ n) (h : k' / T = k / T + 1) :
    player n T k ≠ player n T k' := by
  unfold player
  rw [h]
  exact mod_ne_succ_mod hn _

/-- The next round is in the next turn exactly if this one was the last of its turn. -/
theorem succ_div_eq_iff (hT : 0 < T) : (k + 1) / T = k / T + 1 ↔ k % T = T - 1 := by
  have hdvd : T ∣ k + 1 ↔ k % T = T - 1 := by
    rw [Nat.dvd_iff_mod_eq_zero, ← Nat.mod_add_mod]
    rcases Nat.lt_or_eq_of_le (Nat.succ_le_of_lt (Nat.mod_lt k hT)) with hlt | heq
    · rw [Nat.mod_eq_of_lt hlt]
      omega
    · rw [show k % T + 1 = T from heq, Nat.mod_self]
      omega
  rw [← hdvd, Nat.succ_div]
  split
  · next h => simp [h]
  · next h => simp [h]

theorem player_succ_ne_iff (hn : 2 ≤ n) (hT : 0 < T) :
    player n T (k + 1) ≠ player n T k ↔ k % T = T - 1 := by
  rw [← succ_div_eq_iff hT]
  constructor
  · intro h
    by_contra hturn
    refine h (player_congr ?_)
    rw [Nat.succ_div] at hturn ⊢
    simp_all
  · exact fun h => (player_ne_of_next_turn hn h).symm

/-! ## Counting rounds -/

theorem count_player (hT : 0 < T) (hi : i < n) :
    Nat.count (fun k => player n T k = i) (n * T) = T := by
  -- in the first cycle the rounds of player `i` are one turn
  have hturn : (Finset.range (n * T)).filter (fun k => player n T k = i)
      = Finset.Ico (i * T) ((i + 1) * T) := by
    ext k
    rw [Finset.mem_filter, Finset.mem_range, Finset.mem_Ico, ← Nat.div_lt_iff_lt_mul hT,
      ← Nat.div_lt_iff_lt_mul hT, ← Nat.le_div_iff_mul_le hT]
    unfold player
    constructor
    · rintro ⟨hk, hplayer⟩
      rw [Nat.mod_eq_of_lt hk] at hplayer
      omega
    · rintro ⟨hle, hlt⟩
      have hk : k / T = i := by omega
      rw [hk]
      exact ⟨hi, Nat.mod_eq_of_lt hi⟩
  rw [Nat.count_eq_card_filter_range, hturn, Nat.card_Ico, Nat.succ_mul, Nat.add_sub_cancel_left]

/-- **Each player gets its share**, in a cycle that starts anywhere. -/
theorem card_player (hT : 0 < T) (hi : i < n) (start : ℕ) :
    ((Finset.Ico start (start + n * T)).filter fun k => player n T k = i).card = T := by
  rw [Nat.filter_Ico_card_eq_of_periodic _ _ _ fun k => by rw [player_periodic n hT k],
    count_player hT hi]

theorem card_player_before_lt (hT : 0 < T) (hn : 0 < n) {start : ℕ} (hle : start ≤ k)
    (hk : k < start + n * T) :
    ((Finset.Ico start k).filter fun j => player n T j = player n T k).card < T := by
  -- the cycle has `T` rounds of the player, round `k` among them
  calc ((Finset.Ico start k).filter fun j => player n T j = player n T k).card
      < ((Finset.Ico start (start + n * T)).filter fun j => player n T j = player n T k).card := by
        refine Finset.card_lt_card (Finset.ssubset_iff_of_subset ?_ |>.mpr ⟨k, ?_, ?_⟩)
        · exact Finset.filter_subset_filter _ (Finset.Ico_subset_Ico_right (Nat.le_of_lt hk))
        · exact Finset.mem_filter.mpr ⟨Finset.mem_Ico.mpr ⟨hle, hk⟩, rfl⟩
        · simp
    _ = T := card_player hT (player_lt hn) start

end RoundRobin
