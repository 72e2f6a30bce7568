import Mathlib.Data.List.Sort

/-!
# What a binary heap promises

`std::collections::BinaryHeap` is a multiset with a `pop` that takes off a greatest element.  It
says nothing about which one if several are greatest, nor about how the rest is kept.

* `BinaryHeap`: any type of heaps with these promises; `elems` lists the elements in some order.
* `popped`: what a number of pops return, in their order.
* `popped_eq_take`: if the order decides between any two elements, these are the first ones of the
  sorted list.
* `BinaryHeap.sorted`: one that keeps the promises, which evaluates.
-/

namespace Rust

structure BinaryHeap (α : Type) (le : α → α → Prop) where
  Heap : Type
  new : Heap
  push : Heap → α → Heap
  pop : Heap → Option (α × Heap)
  len : Heap → Nat
  elems : Heap → List α
  elems_new : elems new = []
  elems_push : ∀ h x, (elems (push h x)).Perm (x :: elems h)
  len_eq : ∀ h, len h = (elems h).length
  elems_of_none : ∀ {h}, pop h = none → elems h = []
  perm_of_some : ∀ {h x rest}, pop h = some (x, rest) → (elems h).Perm (x :: elems rest)
  greatest_of_some : ∀ {h x rest}, pop h = some (x, rest) → ∀ y ∈ elems h, le y x

namespace BinaryHeap

variable {α : Type} {le : α → α → Prop} (B : BinaryHeap α le)

/-- The elements that `n` pops return. -/
def popped : Nat → B.Heap → List α
  | 0, _ => []
  | n + 1, h =>
    match B.pop h with
    | none => []
    | some (x, rest) => x :: popped n rest

variable {B} {h rest : B.Heap} {l : List α} {x y : α}

/-- The greatest element is the first one of the sorted list. -/
theorem pop_eq_head (hpop : B.pop h = some (x, rest)) (hperm : (B.elems h).Perm (y :: l))
    (hsorted : (y :: l).Pairwise fun a b => ¬ le a b) : x = y ∧ (B.elems rest).Perm l := by
  have hx : x ∈ y :: l := hperm.mem_iff.mp ((B.perm_of_some hpop).mem_iff.mpr List.mem_cons_self)
  have hle : le y x := B.greatest_of_some hpop y (hperm.mem_iff.mpr List.mem_cons_self)
  have heq : x = y := by
    rcases List.mem_cons.mp hx with heq | hx
    · exact heq
    · exact absurd hle (List.rel_of_pairwise_cons hsorted hx)
  subst heq
  exact ⟨rfl, ((B.perm_of_some hpop).symm.trans hperm).cons_inv⟩

theorem popped_eq_take (n : Nat) (hperm : (B.elems h).Perm l)
    (hsorted : l.Pairwise fun a b => ¬ le a b) : B.popped n h = l.take n := by
  induction n generalizing h l with
  | zero => rfl
  | succ n ih =>
    rw [popped]
    cases hpop : B.pop h with
    | none =>
      rw [B.elems_of_none hpop] at hperm
      rw [hperm.nil_eq.symm]
      rfl
    | some p =>
      obtain ⟨x, rest⟩ := p
      cases l with
      | nil => exact absurd ((B.perm_of_some hpop).symm.trans hperm) (by simp)
      | cons y l =>
        obtain ⟨rfl, hrest⟩ := pop_eq_head hpop hperm hsorted
        exact congrArg (x :: ·) (ih hrest hsorted.of_cons)

/-! ## A heap that evaluates -/

/-- A list in descending order. -/
def sorted (le : α → α → Prop) [DecidableRel le] (htotal : ∀ a b, le a b ∨ le b a)
    (htrans : ∀ a b c, le a b → le b c → le a c) : BinaryHeap α le :=
  have : Std.Total fun a b => le b a := ⟨fun a b => htotal b a⟩
  have : IsTrans α fun a b => le b a := ⟨fun a b c hab hbc => htrans c b a hbc hab⟩
  { Heap := { l : List α // l.Pairwise fun a b => le b a }
    new := ⟨[], .nil⟩
    push := fun h x => ⟨h.1.orderedInsert (fun a b => le b a) x, h.2.orderedInsert x h.1⟩
    pop := fun
      | ⟨[], _⟩ => none
      | ⟨x :: l, h⟩ => some (x, ⟨l, h.of_cons⟩)
    len := fun h => h.1.length
    elems := Subtype.val
    elems_new := rfl
    elems_push := fun h x => List.perm_orderedInsert _ x h.1
    len_eq := fun _ => rfl
    elems_of_none := by
      rintro ⟨_ | ⟨x, l⟩, h⟩ hpop
      · rfl
      · simp at hpop
    perm_of_some := by
      rintro ⟨_ | ⟨y, l⟩, h⟩ x rest hpop
      · simp at hpop
      · cases hpop
        exact .refl _
    greatest_of_some := by
      rintro ⟨_ | ⟨y, l⟩, h⟩ x rest hpop z hz
      · simp at hpop
      · obtain ⟨rfl, -⟩ := Prod.mk.inj (Option.some.inj hpop)
        rcases List.mem_cons.mp hz with rfl | hz
        · exact (htotal z z).elim id id
        · exact List.rel_of_pairwise_cons h hz }

end BinaryHeap

end Rust
