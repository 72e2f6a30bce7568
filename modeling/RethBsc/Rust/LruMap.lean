import Mathlib.Data.List.Basic

/-!
# Least-recently-used maps

`schnellru::LruMap` with a `ByLength` limit: a map of at most `limit` entries, kept in the order of
their last use.

* `find` reads without touching the order; `get` also makes the entry the most recent one.
* `insert` drops the oldest entries over the limit.
* `mem_of_mem_get` and `mem_of_mem_insert`: the entries of a map are entries that were put in.
-/

namespace Rust

/-- Most recently used entries first. -/
structure LruMap (κ υ : Type) where
  limit : Nat
  entries : List (κ × υ)
  deriving Repr

namespace LruMap

variable {κ υ : Type}

def new (limit : Nat) : LruMap κ υ := ⟨limit, []⟩

variable [DecidableEq κ] (m : LruMap κ υ) (k : κ) (v : υ)

/-- `peek`. -/
def find : Option υ := m.entries.lookup k

/-- The entries of the other keys. -/
def others : List (κ × υ) := m.entries.filter fun e => e.1 ≠ k

/-- The value at `k`, and the map with `k` as its most recent key. -/
def get : Option υ × LruMap κ υ :=
  match m.find k with
  | none => (none, m)
  | some v => (some v, { m with entries := (k, v) :: m.others k })

def insert : LruMap κ υ := { m with entries := ((k, v) :: m.others k).take m.limit }

variable {m k v}

theorem get_fst : (m.get k).1 = m.find k := by
  unfold get
  cases m.find k <;> rfl

theorem mem_of_find (h : m.find k = some v) : (k, v) ∈ m.entries := by
  unfold find at h
  generalize m.entries = l at h ⊢
  induction l with
  | nil => simp at h
  | cons e l ih => grind

/-- Reading moves an entry, and adds none. -/
theorem mem_of_mem_get {e : κ × υ} (he : e ∈ (m.get k).2.entries) : e ∈ m.entries := by
  unfold get at he
  cases hk : m.find k with
  | none => rwa [hk] at he
  | some v =>
    rw [hk] at he
    rcases List.mem_cons.mp he with rfl | hother
    · exact mem_of_find hk
    · exact List.mem_of_mem_filter hother

theorem mem_of_mem_insert {e : κ × υ} (he : e ∈ (m.insert k v).entries) :
    e = (k, v) ∨ e ∈ m.entries := by
  rcases List.mem_cons.mp (List.mem_of_mem_take he) with h | hother
  · exact .inl h
  · exact .inr (List.mem_of_mem_filter hother)

theorem find_insert_self (h : 0 < m.limit) : (m.insert k v).find k = some v := by
  unfold insert find
  obtain ⟨n, hn⟩ := Nat.exists_eq_succ_of_ne_zero (Nat.ne_of_gt h)
  dsimp only
  rw [hn, List.take_succ_cons, List.lookup_cons_self]

end LruMap

end Rust
