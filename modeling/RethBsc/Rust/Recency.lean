import Mathlib.Data.Finset.Card
import Mathlib.Data.Finset.Dedup
import RethBsc.Rust.LruMap

/-!
# What a least-recently-used map has forgotten

The keys of an LRU map, most recent first, change in one way only: the key used comes to the front
and the list is cut at the limit.  A key that was used and is gone again was pushed out by `limit`
other keys, all used after it.

* `touch`: one use of a key.
* `Recent`: a key is still there, and everything in front of it was used since a given moment.
* `limit_le_card_of_forgotten`: the count, over any sequence of uses.
* `mem_touch_of_room`: as long as all keys used fit, none is forgotten.
* `notMem_foldl_touch`: the first of `limit + 1` different keys is forgotten.
* `LruMap.keys_insert`, `LruMap.keys_get`: what the operations of a map do to its keys;
  `LruMap.find_get`, `LruMap.find_of_find_insert`, `LruMap.entries_insert_split`: what they do to
  its entries.
-/

namespace Rust

variable {κ : Type} [DecidableEq κ]

/-- `k` becomes the most recent of at most `limit` keys. -/
def touch (limit : Nat) (keys : List κ) (k : κ) : List κ :=
  (k :: keys.filter (· ≠ k)).take limit

section Touch

variable {limit : Nat} {keys : List κ} {k x : κ}

theorem nodup_touch (h : keys.Nodup) : (touch limit keys k).Nodup := by
  have hcons : (k :: keys.filter (· ≠ k)).Nodup := by
    rw [List.nodup_cons]
    exact ⟨by simp, h.filter _⟩
  exact hcons.sublist (List.take_sublist _ _)

theorem length_touch_le : (touch limit keys k).length ≤ limit := by
  rw [touch, List.length_take]
  exact Nat.min_le_left _ _

/-- Using a key twice in a row is using it once. -/
theorem touch_touch : touch limit (touch limit keys k) k = touch limit keys k := by
  unfold touch
  cases limit with
  | zero => rfl
  | succ n =>
    have hrest : ((keys.filter (· ≠ k)).take n).filter (· ≠ k) = (keys.filter (· ≠ k)).take n := by
      refine List.filter_eq_self.mpr fun x hx => ?_
      exact (List.mem_filter.mp (List.mem_of_mem_take hx)).2
    grind

/-- In front of `k` there are only keys of `since`. -/
def Recent (k : κ) (since keys : List κ) : Prop :=
  ∃ newer older, keys = newer ++ k :: older ∧ newer ⊆ since

omit [DecidableEq κ] in
theorem Recent.mem {since : List κ} (h : Recent k since keys) : k ∈ keys := by
  obtain ⟨newer, older, rfl, -⟩ := h
  simp

/-- The key used last is recent, whatever came before. -/
theorem recent_touch_self (hlimit : 0 < limit) (since : List κ) :
    Recent k since (touch limit keys k) := by
  obtain ⟨n, rfl⟩ := Nat.exists_eq_succ_of_ne_zero (Nat.ne_of_gt hlimit)
  refine ⟨[], (keys.filter (· ≠ k)).take n, ?_, List.nil_subset _⟩
  rw [touch, List.take_succ_cons]
  rfl

/-- Another key comes in front of `k`.  Either `k` is still recent, or `limit` keys used since are
in front of it and it is gone. -/
theorem Recent.touch {since : List κ} (h : Recent k since keys) (limit : Nat) (hnodup : keys.Nodup)
    (hx : x ≠ k) :
    Recent k (x :: since) (touch limit keys x)
      ∨ limit ≤ ((x :: since).toFinset.erase k).card := by
  obtain ⟨newer, older, rfl, hsub⟩ := h
  have hk : k ∉ newer := by grind
  -- the keys in front of `k` after the use
  have hfront : (newer ++ k :: older).filter (· ≠ x)
      = newer.filter (· ≠ x) ++ k :: older.filter (· ≠ x) := by
    rw [List.filter_append, List.filter_cons_of_pos (by simpa using Ne.symm hx)]
  have hsub' : x :: newer.filter (· ≠ x) ⊆ x :: since := by grind
  by_cases hroom : (x :: newer.filter (· ≠ x)).length < limit
  · left
    refine ⟨x :: newer.filter (· ≠ x),
      (older.filter (· ≠ x)).take (limit - (newer.filter (· ≠ x)).length - 2), ?_, hsub'⟩
    rw [List.length_cons] at hroom
    have hlimit : limit = (x :: newer.filter (· ≠ x)).length
        + (limit - (newer.filter (· ≠ x)).length - 2 + 1) := by
      rw [List.length_cons]
      omega
    rw [Rust.touch, hfront, ← List.cons_append, hlimit, List.take_length_add_append, List.take_succ_cons]
    congr 4
    omega
  · right
    have hfrontNodup : (x :: newer.filter (· ≠ x)).Nodup := by grind
    calc limit ≤ (x :: newer.filter (· ≠ x)).length := Nat.le_of_not_lt hroom
      _ = (x :: newer.filter (· ≠ x)).toFinset.card :=
        (List.toFinset_card_of_nodup hfrontNodup).symm
      _ ≤ ((x :: since).toFinset.erase k).card := by
        refine Finset.card_le_card fun y hy => ?_
        rw [List.mem_toFinset] at hy
        refine Finset.mem_erase.mpr ⟨?_, List.mem_toFinset.mpr (hsub' hy)⟩
        grind

/-- The order of the uses does not count. -/
theorem toFinset_use_append (x : κ) (uses since : List κ) :
    (x :: uses ++ since).toFinset = (uses ++ x :: since).toFinset := by
  simp

theorem card_erase_le_append (uses since : List κ) (k : κ) :
    (since.toFinset.erase k).card ≤ ((uses ++ since).toFinset.erase k).card := by
  refine Finset.card_le_card (Finset.erase_subset_erase _ fun y hy => ?_)
  simp [*]

/-- **A key is only forgotten for `limit` others.**  If `k` was recent and is gone after `uses`,
then `limit` other keys were used, since then or in `uses`. -/
theorem limit_le_card_of_forgotten {since : List κ} (uses : List κ) (h : Recent k since keys)
    (hnodup : keys.Nodup) (hgone : k ∉ uses.foldl (touch limit) keys) :
    limit ≤ ((uses ++ since).toFinset.erase k).card := by
  induction uses generalizing keys since with
  | nil => exact absurd h.mem hgone
  | cons x uses ih =>
    rw [List.foldl_cons] at hgone
    rw [toFinset_use_append]
    by_cases hx : x = k
    · -- `k` comes to the front; the uses before this one may count as well
      rcases Nat.eq_zero_or_pos limit with rfl | hlimit
      · exact Nat.zero_le _
      · subst hx
        exact ih (recent_touch_self hlimit _) (nodup_touch hnodup) hgone
    · rcases h.touch limit hnodup hx with hrecent | hcard
      · exact ih hrecent (nodup_touch hnodup) hgone
      · exact Nat.le_trans hcard (card_erase_le_append uses _ k)

/-- As long as all keys used so far fit, using one more forgets none. -/
theorem mem_touch_of_room {used : List κ} (hnodup : keys.Nodup) (hused : ∀ y, y ∈ keys ↔ y ∈ used)
    (hroom : used.length < limit) : x ∈ touch limit keys k ↔ x ∈ used ++ [k] := by
  -- different keys that were all used are not more than the uses
  have hle : (keys.filter (· ≠ k)).length ≤ used.length :=
    (List.subperm_of_subset (hnodup.filter _) fun y hy =>
      (hused y).mp (List.mem_of_mem_filter hy)).length_le
  have hlength : (k :: keys.filter (· ≠ k)).length ≤ limit := by
    rw [List.length_cons]
    omega
  rw [touch, List.take_of_length_le hlength, List.mem_cons, List.mem_append, List.mem_singleton,
    List.mem_filter, hused, decide_eq_true_eq]
  tauto

/-- After different keys, each used once, the last ones are there. -/
theorem foldl_touch_of_nodup {uses : List κ} (h : uses.Nodup) :
    uses.foldl (touch limit) [] = uses.reverse.take limit := by
  induction uses using List.reverseRecOn with
  | nil => simp
  | append_singleton uses k ih =>
    obtain ⟨huses, -, hnew⟩ := List.nodup_append.mp h
    have hne : ∀ y ∈ uses.reverse.take limit, (decide (y ≠ k)) = true := fun y hy =>
      decide_eq_true (hnew y (List.mem_reverse.mp (List.mem_of_mem_take hy)) k (by simp))
    rw [List.foldl_append, ih huses, List.foldl_cons, List.foldl_nil, touch,
      List.filter_eq_self.mpr hne, List.reverse_append, List.reverse_singleton,
      List.singleton_append]
    cases limit with
    | zero => rfl
    | succ n => rw [List.take_succ_cons, List.take_succ_cons, List.take_take, Nat.min_eq_left (by omega)]

/-- The first of `limit + 1` different keys is forgotten. -/
theorem notMem_foldl_touch {uses : List κ} (h : (k :: uses).Nodup) (hlength : uses.length = limit) :
    k ∉ (k :: uses).foldl (touch limit) [] := by
  rw [foldl_touch_of_nodup h, List.reverse_cons, ← hlength, ← List.length_reverse, List.take_left,
    List.mem_reverse]
  exact (List.nodup_cons.mp h).1

end Touch

/-! ## The keys of a map -/

namespace LruMap

variable {υ : Type} {m : LruMap κ υ} {k k' : κ} {v w : υ}

def keys (m : LruMap κ υ) : List κ := m.entries.map Prod.fst

/-- No key twice, and not more than the limit. -/
structure WellFormed (m : LruMap κ υ) : Prop where
  nodup : m.keys.Nodup
  length : m.keys.length ≤ m.limit

omit [DecidableEq κ] in
theorem wellFormed_new (limit : Nat) : (new limit : LruMap κ υ).WellFormed :=
  ⟨List.nodup_nil, Nat.zero_le _⟩

theorem keys_others : (m.others k).map Prod.fst = m.keys.filter (· ≠ k) := by
  rw [others, keys, List.filter_map]
  rfl

theorem keys_insert : (m.insert k v).keys = touch m.limit m.keys k := by
  unfold insert keys touch
  rw [List.map_take, List.map_cons, keys_others]
  rfl

theorem find_isSome_iff : (m.find k).isSome ↔ k ∈ m.keys := by
  unfold find keys
  induction m.entries with
  | nil => simp
  | cons e l ih => simp

/-- Reading a key that is there is a use of it. -/
theorem keys_get (h : m.WellFormed) :
    (m.get k).2.keys = if k ∈ m.keys then touch m.limit m.keys k else m.keys := by
  unfold get
  cases hk : m.find k with
  | none =>
    have hnot : k ∉ m.keys := fun hmem => by
      rw [← find_isSome_iff, hk] at hmem
      simp at hmem
    rw [if_neg hnot]
  | some v =>
    have hmem : k ∈ m.keys := find_isSome_iff.mp (by rw [hk]; rfl)
    rw [if_pos hmem]
    show k :: (m.others k).map Prod.fst = _
    have hlength : (k :: m.keys.filter (· ≠ k)).length ≤ m.limit := by
      have herase : m.keys.filter (· ≠ k) = m.keys.erase k := by
        rw [h.nodup.erase_eq_filter]
        exact List.filter_congr fun x _ => by simp [bne, beq_eq_decide]
      rw [List.length_cons, herase, List.length_erase_of_mem hmem]
      have hpos := List.length_pos_of_mem hmem
      have hle := h.length
      omega
    rw [keys_others, touch, List.take_of_length_le hlength]

@[simp] theorem limit_get : (m.get k).2.limit = m.limit := by
  unfold get
  cases m.find k <;> rfl

theorem WellFormed.insert (h : m.WellFormed) (k : κ) (v : υ) : (m.insert k v).WellFormed := by
  refine ⟨?_, ?_⟩
  · rw [keys_insert]
    exact nodup_touch h.nodup
  · rw [keys_insert]
    exact length_touch_le

theorem WellFormed.get (h : m.WellFormed) (k : κ) : (m.get k).2.WellFormed := by
  refine ⟨?_, ?_⟩
  · rw [keys_get h]
    split
    · exact nodup_touch h.nodup
    · exact h.nodup
  · rw [keys_get h, limit_get]
    split
    · exact length_touch_le
    · exact h.length

theorem lookup_others (hne : k' ≠ k) : (m.others k).lookup k' = m.find k' := by
  unfold others find
  induction m.entries with
  | nil => rfl
  | cons e l ih => grind

/-- An entry of another key that is found after an insertion was there before. -/
theorem find_of_find_insert (hne : k' ≠ k) (h : (m.insert k v).find k' = some w) :
    m.find k' = some w := by
  have hlookup : ((k, v) :: m.others k).lookup k' = m.find k' := by
    have hbeq : (k' == k) = false := by simpa using hne
    rw [List.lookup_cons, hbeq]
    exact lookup_others hne
  rw [← hlookup]
  exact (List.take_prefix _ _).lookup_eq_some h

/-- Reading changes no entry. -/
theorem find_get : (m.get k).2.find k' = m.find k' := by
  unfold get
  cases hk : m.find k with
  | none => rfl
  | some v =>
    show ((k, v) :: m.others k).lookup k' = m.find k'
    by_cases hne : k' = k
    · rw [hne, List.lookup_cons_self, hk]
    · have hbeq : (k' == k) = false := by simpa using hne
      rw [List.lookup_cons, hbeq]
      exact lookup_others hne

theorem mem_keys_get : k' ∈ (m.get k).2.keys ↔ k' ∈ m.keys := by
  rw [← find_isSome_iff, ← find_isSome_iff, find_get]

/-- An entry after an insertion is the new one, or was there before.  In the latter case the new
entry is in front of it, and what was in front of it still is, the old entry of the key apart. -/
theorem entries_insert_split {newer older : List (κ × υ)} {e : κ × υ}
    (hsplit : (m.insert k v).entries = newer ++ e :: older) :
    newer = [] ∧ e = (k, v) ∨ ∃ newer' older', m.entries = newer' ++ e :: older' ∧
        newer = (k, v) :: newer'.filter fun e => e.1 ≠ k := by
  have hcut : ((k, v) :: m.others k).take m.limit = newer ++ e :: older := hsplit
  have hall : (k, v) :: m.others k
      = newer ++ e :: (older ++ ((k, v) :: m.others k).drop m.limit) := by
    rw [← List.cons_append, ← List.append_assoc, ← hcut, List.take_append_drop]
  cases newer with
  | nil => exact .inl ⟨rfl, (List.cons.inj hall).1.symm⟩
  | cons first newer =>
    obtain ⟨rfl, hrest⟩ := List.cons.inj hall
    obtain ⟨front, back, hentries, hfront, hback⟩ := List.filter_eq_append_iff.mp hrest
    obtain ⟨skipped, older', rfl, hskipped, -, -⟩ := List.filter_eq_cons_iff.mp hback
    have hskip : (skipped.filter fun e => e.1 ≠ k) = [] := List.filter_eq_nil_iff.mpr hskipped
    refine .inr ⟨front ++ skipped, older', by rw [hentries, List.append_assoc], ?_⟩
    rw [List.filter_append, hfront, hskip, List.append_nil]

end LruMap

end Rust
