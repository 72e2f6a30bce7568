import Mathlib.Data.List.Basic
import Mathlib.Order.Lattice

/-!
# Champions

A champion meets challengers one by one and is replaced by each that has a smaller rank.  Ranks
come from a linear order.

* `final_mem` and `rank_final_le`: the last champion is one of those that took part, and none of
  them has a smaller rank.
* `rank_final_lt`: once a champion is beaten, every later champion has a smaller rank than it had.
* `rank_final_eq`: the rank of the last champion depends on who took part only.
-/

namespace Champion

variable {α β : Type} [LinearOrder β] (rank : α → β)

/-- The champion after one challenge; a tie keeps the champion. -/
def step (champion challenger : α) : α :=
  if rank challenger < rank champion then challenger else champion

/-- The champion after a sequence of challenges. -/
def final (champion : α) (challengers : List α) : α := challengers.foldl (step rank) champion

variable {rank} {champion challenger : α} {challengers : List α}

theorem final_append (l l' : List α) :
    final rank champion (l ++ l') = final rank (final rank champion l) l' :=
  List.foldl_append

theorem rank_step_le_champion : rank (step rank champion challenger) ≤ rank champion := by
  grind [step]

theorem rank_step_le_challenger : rank (step rank champion challenger) ≤ rank challenger := by
  grind [step]

theorem final_mem : final rank champion challengers ∈ champion :: challengers := by
  induction challengers generalizing champion with
  | nil => exact List.mem_cons_self
  | cons challenger challengers ih =>
    have hmem : final rank champion (challenger :: challengers)
        ∈ step rank champion challenger :: challengers := ih
    rcases List.mem_cons.mp hmem with hfirst | hlater
    · grind [step]
    · exact List.mem_cons_of_mem _ (List.mem_cons_of_mem _ hlater)

theorem rank_final_le {x : α} (hx : x ∈ champion :: challengers) :
    rank (final rank champion challengers) ≤ rank x := by
  induction challengers generalizing champion x with
  | nil =>
    rw [List.mem_singleton.mp hx]
    exact le_rfl
  | cons challenger challengers ih =>
    have hstep : rank (final rank champion (challenger :: challengers))
        ≤ rank (step rank champion challenger) := ih List.mem_cons_self
    rcases List.mem_cons.mp hx with rfl | hx
    · exact hstep.trans rank_step_le_champion
    · rcases List.mem_cons.mp hx with rfl | hx
      · exact hstep.trans rank_step_le_challenger
      · exact ih (List.mem_cons_of_mem _ hx)

/-- **A beaten champion does not return**: whatever comes after the challenger that beat it, the
champion has a smaller rank. -/
theorem rank_final_lt (hbeaten : rank challenger < rank champion) :
    rank (final rank champion (challenger :: challengers)) < rank champion :=
  lt_of_le_of_lt (rank_final_le (List.mem_cons_of_mem _ List.mem_cons_self)) hbeaten

/-- **The order of the challenges does not matter.** -/
theorem rank_final_eq {champion' : α} {challengers' : List α}
    (hsame : ∀ x, x ∈ champion :: challengers ↔ x ∈ champion' :: challengers') :
    rank (final rank champion challengers) = rank (final rank champion' challengers') :=
  le_antisymm (rank_final_le ((hsame _).mpr final_mem)) (rank_final_le ((hsame _).mp final_mem))

end Champion
