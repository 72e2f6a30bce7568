import Mathlib.Data.List.Perm.Basic

/-!
# Taking the least element off a heap

`std::collections::BinaryHeap` promises that `pop` takes off a least element (a greatest one, seen
through `Reverse`), and says nothing about which one if several are least, nor about the order of
the rest.  A heap is therefore the list of its elements, in any order, and `PopMin` is what `pop`
may do to such a list.

* `PopMin.mem_iff`, `PopMin.length_eq`: the elements before and after.
* `PopMin.pop_singleton`: the only element is the one taken.
* `PopMin.first`: one `pop` that keeps the promise, which evaluates.
-/

namespace Rust

structure PopMin (α : Type) (key : α → Nat) where
  pop : List α → Option (α × List α)
  eq_nil_of_none : ∀ {l}, pop l = none → l = []
  perm_of_some : ∀ {l x rest}, pop l = some (x, rest) → l.Perm (x :: rest)
  least_of_some : ∀ {l x rest}, pop l = some (x, rest) → ∀ y ∈ l, key x ≤ key y

namespace PopMin

variable {α : Type} {key : α → Nat} (heap : PopMin α key) {l rest : List α} {x y : α}

theorem mem_iff (h : heap.pop l = some (x, rest)) : y ∈ l ↔ y = x ∨ y ∈ rest := by
  rw [(heap.perm_of_some h).mem_iff, List.mem_cons]

theorem length_eq (h : heap.pop l = some (x, rest)) : l.length = rest.length + 1 :=
  (heap.perm_of_some h).length_eq

theorem pop_singleton : heap.pop [x] = some (x, []) := by
  cases h : heap.pop [x] with
  | none => exact absurd (heap.eq_nil_of_none h) (by simp)
  | some p =>
    obtain ⟨y, rest⟩ := p
    obtain ⟨rfl, rfl⟩ := List.cons.inj (List.singleton_perm.mp (heap.perm_of_some h))
    rfl

/-! ## A heap that evaluates -/

/-- The first least element of a list, and the others. -/
def popFirst (key : α → Nat) : List α → Option (α × List α)
  | [] => none
  | x :: l =>
    match popFirst key l with
    | none => some (x, l)
    | some (y, rest) => if key x ≤ key y then some (x, l) else some (y, x :: rest)

theorem popFirst_eq_none (h : popFirst key l = none) : l = [] := by
  cases l with
  | nil => rfl
  | cons x l =>
    rw [popFirst] at h
    grind

theorem popFirst_spec (h : popFirst key l = some (x, rest)) :
    l.Perm (x :: rest) ∧ ∀ y ∈ l, key x ≤ key y := by
  induction l generalizing x rest with
  | nil => exact absurd h (by simp [popFirst])
  | cons a l ih =>
    rw [popFirst] at h
    cases hl : popFirst key l with
    | none =>
      rw [hl] at h
      cases h
      obtain rfl := popFirst_eq_none hl
      exact ⟨List.Perm.refl _, by simp⟩
    | some p =>
      obtain ⟨y, rest'⟩ := p
      obtain ⟨hperm, hleast⟩ := ih hl
      rw [hl] at h
      dsimp only at h
      split at h
      · next hle =>
        -- the head is at most the least element of the tail
        cases h
        refine ⟨List.Perm.refl _, fun z hz => ?_⟩
        grind
      · next hlt =>
        cases h
        refine ⟨(hperm.cons a).trans (List.Perm.swap _ _ _), fun z hz => ?_⟩
        grind

def first (α : Type) (key : α → Nat) : PopMin α key where
  pop := popFirst key
  eq_nil_of_none := popFirst_eq_none
  perm_of_some h := (popFirst_spec h).1
  least_of_some h := (popFirst_spec h).2

end PopMin

end Rust
