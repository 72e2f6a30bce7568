import Mathlib.Data.Finset.Card
import Mathlib.Data.Finset.Dedup
import Mathlib.Data.List.Induction
import RethBsc.Rust.Map

/-!
# Counting

How often something occurs: in a map of counters filled by a loop, among the entries of a map, and
in a window that slides over a list.

* `lookup_tally`: a loop that counts in `u8` counters counts modulo 256.
* `countEntries_erase`, `countEntries_insert`: what one operation on a map does to a count;
  `countEntries_le_card`: a count is bounded by the keys it can see.
* `count_window_le`: if an element is never appended where it occurs `T` times among the last `k`,
  then no window of `k + 1` elements has it more than `T` times.
-/

namespace Rust

/-! ## Counters -/

section Tally

variable {α : Type} [DecidableEq α]

/-- `for a in l { *m.entry(a).or_insert(0) += 1 }` with `u8` counters that wrap. -/
def tally (l : List α) : Map α UInt8 :=
  l.foldl (fun m a => m.insert a ((m.lookup a).getD 0 + 1)) ∅

theorem lookup_tally (l : List α) (a : α) :
    (tally l).lookup a = if a ∈ l then some (UInt8.ofNat (l.count a)) else none := by
  -- the loop is a fold from the left, so the induction takes elements off at the right
  induction l using List.reverseRecOn with
  | nil => rfl
  | append_singleton l b ih =>
    have hstep : tally (l ++ [b]) = (tally l).insert b (((tally l).lookup b).getD 0 + 1) := by
      simp [tally, List.foldl_append]
    rw [hstep]
    by_cases hab : a = b
    · subst hab
      have hcount : (l ++ [a]).count a = l.count a + 1 := by simp
      rw [AList.lookup_insert, if_pos (by simp), hcount, ih]
      by_cases hmem : a ∈ l
      · simp [*]
      · rw [if_neg hmem, List.count_eq_zero_of_not_mem hmem]
        rfl
    · have hcount : (l ++ [b]).count a = l.count a := by
        simp [List.count_append, Ne.symm hab]
      simp [*]

end Tally

/-! ## Entries of a map -/

namespace Map

variable {κ υ : Type} [DecidableEq κ] {p : κ → υ → Bool} {m : Map κ υ} {k : κ}

/-- The number of entries that meet `p`. -/
def countEntries (p : κ → υ → Bool) (m : Map κ υ) : Nat := m.entries.countP fun e => p e.1 e.2

/-- Erasing a key takes the entry it had, if it had one, out of the count. -/
theorem countEntries_erase :
    countEntries p m
      = countEntries p (m.erase k) + if (m.lookup k).any (p k) then 1 else 0 := by
  by_cases hk : k ∈ m
  · obtain ⟨v, l₁, l₂, -, hentries, herase⟩ := List.exists_of_kerase (AList.mem_keys.mp hk)
    have hlookup : m.lookup k = some v := lookup_eq_some_iff.mpr (by simp [hentries])
    unfold countEntries
    rw [hlookup, show (m.erase k).entries = l₁ ++ l₂ from herase, hentries]
    simp only [List.countP_append, List.countP_cons, Option.any_some]
    omega
  · have hlookup : m.lookup k = none := AList.lookup_eq_none.mpr hk
    unfold countEntries
    rw [hlookup, show (m.erase k).entries = m.entries from
      List.kerase_of_notMem_keys (fun h => hk (AList.mem_keys.mpr h))]
    simp

theorem countEntries_erase_of_not (h : ∀ v, m.lookup k = some v → p k v = false) :
    countEntries p (m.erase k) = countEntries p m := by
  rw [countEntries_erase (m := m) (k := k), if_neg]
  · rfl
  · simpa [Option.any_eq_true] using h

theorem insert_eq_erase_add {v : υ} :
    countEntries p (m.insert k v) = countEntries p (m.erase k) + if p k v then 1 else 0 := by
  rw [countEntries, AList.entries_insert, List.countP_cons]
  rfl

/-- Inserting at a key whose entry was not counted adds the new entry. -/
theorem countEntries_insert {v : υ} (h : ∀ w, m.lookup k = some w → p k w = false) :
    countEntries p (m.insert k v) = countEntries p m + if p k v then 1 else 0 := by
  rw [insert_eq_erase_add, countEntries_erase_of_not h]

theorem countEntries_congr {q : κ → υ → Bool}
    (h : ∀ k v, m.lookup k = some v → p k v = q k v) : countEntries p m = countEntries q m := by
  refine List.countP_congr fun e he => ?_
  rw [h e.1 e.2 (lookup_eq_some_iff.mpr he)]

theorem countEntries_insert_le {v : υ} :
    countEntries p (m.insert k v) ≤ countEntries p m + if p k v then 1 else 0 := by
  rw [insert_eq_erase_add, countEntries_erase (m := m) (k := k)]
  omega

/-- Every entry of `m'` is one of `m`. -/
def Sub (m' m : Map κ υ) : Prop := ∀ k v, m'.lookup k = some v → m.lookup k = some v

theorem Sub.refl (m : Map κ υ) : Sub m m := fun _ _ h => h

theorem Sub.trans {m₁ m₂ m₃ : Map κ υ} (h : Sub m₁ m₂) (h' : Sub m₂ m₃) : Sub m₁ m₃ :=
  fun k v hv => h' k v (h k v hv)

theorem erase_sub : Sub (m.erase k) m := fun _ _ h => (lookup_erase_eq_some.mp h).2

theorem foldl_erase_sub {ι : Type} (l : List ι) (f : ι → κ) (m : Map κ υ) :
    Sub (l.foldl (fun m i => m.erase (f i)) m) m := by
  induction l generalizing m with
  | nil => exact .refl m
  | cons i l ih => exact (ih (m.erase (f i))).trans erase_sub

theorem Sub.countEntries_le {m' : Map κ υ} (h : Sub m' m) :
    countEntries p m' ≤ countEntries p m := by
  have hnodup : m'.entries.Nodup := List.Nodup.of_map Sigma.fst m'.nodupKeys
  have hsubset : m'.entries ⊆ m.entries := fun e he =>
    lookup_eq_some_iff.mp (h e.1 e.2 (lookup_eq_some_iff.mpr he))
  exact (List.subperm_of_subset hnodup hsubset).countP_le _

omit [DecidableEq κ] in
theorem countEntries_mono {q : κ → υ → Bool} (h : ∀ k v, p k v = true → q k v = true) :
    countEntries p m ≤ countEntries q m := List.countP_mono_left fun e _ => h e.1 e.2

theorem countEntries_pos : 0 < countEntries p m ↔ ∃ k v, m.lookup k = some v ∧ p k v = true := by
  rw [countEntries, List.countP_pos_iff]
  constructor
  · rintro ⟨⟨k, v⟩, hmem, hp⟩
    exact ⟨k, v, lookup_eq_some_iff.mpr hmem, hp⟩
  · rintro ⟨k, v, hlookup, hp⟩
    exact ⟨⟨k, v⟩, lookup_eq_some_iff.mp hlookup, hp⟩

omit [DecidableEq κ] in
/-- The keys of the entries counted are distinct, so there are no more of them than places for
them. -/
theorem countEntries_le_card {ι : Type} [DecidableEq ι] {f : κ → ι} (hf : Function.Injective f)
    {places : Finset ι} (h : ∀ e ∈ m.entries, p e.1 e.2 = true → f e.1 ∈ places) :
    countEntries p m ≤ places.card := by
  have hnodup : ((m.entries.filter fun e => p e.1 e.2).map fun e => f e.1).Nodup := by
    have hkeys : ((m.entries.filter fun e => p e.1 e.2).map Sigma.fst).Nodup :=
      List.Nodup.sublist (List.filter_sublist.map _) m.nodupKeys
    simpa only [List.map_map, Function.comp_def] using hkeys.map hf
  rw [countEntries, List.countP_eq_length_filter, ← List.length_map (fun e => f e.1),
    ← List.toFinset_card_of_nodup hnodup]
  refine Finset.card_le_card fun i hi => ?_
  obtain ⟨e, he, rfl⟩ := List.mem_map.mp (List.mem_toFinset.mp hi)
  obtain ⟨hmem, hp⟩ := List.mem_filter.mp he
  exact h e hmem hp

end Map

/-! ## Windows -/

section Window

variable {α : Type} [DecidableEq α] {a : α} {l : List α} {k T : Nat}

/-- `a` does not occur in `l` where it already occurs `T` times among the `k` elements before. -/
def Spaced (k T : Nat) (a : α) (l : List α) : Prop :=
  ∀ i, l[i]? = some a → ((l.take i).drop (i - k)).count a < T

/-- **The window bound.**  Growing a window at its right end, the last occurrence of `a` that
enters it had fewer than `T` before it. -/
theorem count_window_le (hl : Spaced k T a l) (i : Nat) {w : Nat} (hw : w ≤ k + 1) :
    ((l.drop i).take w).count a ≤ T := by
  induction w with
  | zero => simp
  | succ w ih =>
    have hsucc : (l.drop i).take (w + 1) = (l.drop i).take w ++ (l[i + w]?).toList := by
      rw [List.take_add_one, List.getElem?_drop]
    rw [hsucc, List.count_append]
    cases hlast : l[i + w]? with
    | none => simpa using ih (by omega)
    | some b =>
      by_cases hb : b = a
      · subst hb
        have hbefore := hl (i + w) hlast
        grind
      · simpa [hb] using ih (by omega)

/-- Appending keeps a list spaced if what is appended is rare among the last `k`. -/
theorem Spaced.append (hl : Spaced k T a l) {b : α}
    (hb : b = a → (l.drop (l.length - k)).count a < T) : Spaced k T a (l ++ [b]) := by
  intro i hi
  rcases Nat.lt_trichotomy i l.length with hlt | heq | hgt
  · rw [List.getElem?_append_left hlt] at hi
    rw [List.take_append_of_le_length (by omega)]
    exact hl i hi
  · simp_all
  · grind

theorem spaced_nil : Spaced k T a ([] : List α) := by
  intro i h
  simp at h

end Window

end Rust
