import Mathlib.Algebra.GroupWithZero.Nat
import Mathlib.Data.List.AList

/-!
# Maps filled in a loop

A `HashMap` or `BTreeMap` is an association list with distinct keys.  Code that fills one in a
loop inserts, updates what is there, or inserts only what is absent.  For each of the three loops
there is a lemma on the keys and one on the value a key has in the end.

* `lookup_insertAll`: with distinct keys, every pair of the loop is in the map.
* `lookup_updateAll`: with distinct keys, every key present was updated once.
* `lookup_orInsertAll`: the first pair for a key is the one that stays.
* `entries_perm`: the entries of a map, from its keys.
* `All.insert`, `All.erase`, `All.retain`: a property of all entries is kept by inserting an entry
  that has it, and by removing entries.
* `countOf_foldl_addTo`, `total_foldl_addTo`: a loop that counts.
* `mem_flat`, `flat_insert`, `flat_perm`: the elements of a map of lists.
-/

namespace Rust

variable {κ υ ι : Type} [DecidableEq κ]

abbrev Map (κ υ : Type) := AList (fun _ : κ => υ)

namespace Map

/-- Equality of maps by their entries, which evaluates. -/
instance [DecidableEq υ] : DecidableEq (Map κ υ) := fun m m' =>
  decidable_of_iff (m.entries = m'.entries) AList.ext_iff.symm

/-- `for x in l { m.insert(f(x), g(x)) }`. -/
def insertAll (f : ι → κ) (g : ι → υ) (l : List ι) (m : Map κ υ) : Map κ υ :=
  l.foldl (fun m x => m.insert (f x) (g x)) m

/-- `for x in l { if let Some(v) = m.get_mut(f(x)) { *v = u(x, v) } }`. -/
def updateAll (f : ι → κ) (u : ι → υ → υ) (l : List ι) (m : Map κ υ) : Map κ υ :=
  l.foldl (fun m x =>
    match m.lookup (f x) with
    | some v => m.insert (f x) (u x v)
    | none => m) m

/-- `m.entry(k).or_insert(v)`. -/
def orInsert (k : κ) (v : υ) (m : Map κ υ) : Map κ υ :=
  if (m.lookup k).isSome then m else m.insert k v

/-- `for x in l { m.entry(f(x)).or_insert(g(x)) }`. -/
def orInsertAll (f : ι → κ) (g : ι → υ) (l : List ι) (m : Map κ υ) : Map κ υ :=
  l.foldl (fun m x => orInsert (f x) (g x) m) m

variable {f : ι → κ} {g : ι → υ} {u : ι → υ → υ} {l : List ι} {m : Map κ υ} {k : κ}

/-! ## Inserting -/

theorem mem_insertAll : k ∈ insertAll f g l m ↔ k ∈ l.map f ∨ k ∈ m := by
  induction l generalizing m with
  | nil => simp [insertAll]
  | cons x l ih =>
    have hstep : insertAll f g (x :: l) m = insertAll f g l (m.insert (f x) (g x)) := rfl
    rw [hstep, ih, AList.mem_insert, List.map_cons, List.mem_cons, or_left_comm, or_assoc]

theorem lookup_insertAll_of_notMem (hk : k ∉ l.map f) :
    (insertAll f g l m).lookup k = m.lookup k := by
  induction l generalizing m with
  | nil => rfl
  | cons x l ih =>
    rw [List.map_cons, List.mem_cons, not_or] at hk
    have hstep : insertAll f g (x :: l) m = insertAll f g l (m.insert (f x) (g x)) := rfl
    rw [hstep, ih hk.2, AList.lookup_insert_ne hk.1]

variable {x : ι} {v : υ} {R : κ → υ → Prop}

theorem lookup_insertAll (hl : (l.map f).Nodup) (hx : x ∈ l) :
    (insertAll f g l m).lookup (f x) = some (g x) := by
  induction l generalizing m with
  | nil => simp at hx
  | cons y l ih =>
    rw [List.map_cons, List.nodup_cons] at hl
    have hstep : insertAll f g (y :: l) m = insertAll f g l (m.insert (f y) (g y)) := rfl
    rw [hstep]
    rcases List.mem_cons.mp hx with rfl | hmem
    · rw [lookup_insertAll_of_notMem hl.1, AList.lookup_insert]
    · exact ih hl.2 hmem

/-! ## Updating -/

/-- One turn of the updating loop. -/
theorem updateAll_cons :
    updateAll f u (x :: l) m = updateAll f u l
      (match m.lookup (f x) with
        | some v => m.insert (f x) (u x v)
        | none => m) := rfl

theorem mem_updateAll : k ∈ updateAll f u l m ↔ k ∈ m := by
  induction l generalizing m with
  | nil => rfl
  | cons x l ih =>
    rw [updateAll_cons, ih]
    cases hlookup : m.lookup (f x) with
    | none => rfl
    | some v =>
      have hmem : f x ∈ m := AList.lookup_isSome.mp (by rw [hlookup]; rfl)
      simp_all

theorem lookup_updateAll_of_notMem (hk : k ∉ l.map f) :
    (updateAll f u l m).lookup k = m.lookup k := by
  induction l generalizing m with
  | nil => rfl
  | cons x l ih =>
    rw [List.map_cons, List.mem_cons, not_or] at hk
    rw [updateAll_cons, ih hk.2]
    cases m.lookup (f x) with
    | none => rfl
    | some v => exact AList.lookup_insert_ne hk.1

theorem lookup_updateAll (hl : (l.map f).Nodup) (hx : x ∈ l) :
    (updateAll f u l m).lookup (f x) = (m.lookup (f x)).map (u x) := by
  induction l generalizing m with
  | nil => simp at hx
  | cons y l ih =>
    rw [List.map_cons, List.nodup_cons] at hl
    rw [updateAll_cons]
    rcases List.mem_cons.mp hx with rfl | hmem
    · rw [lookup_updateAll_of_notMem hl.1]
      cases hlookup : m.lookup (f x) with
      | none => exact hlookup
      | some v => exact AList.lookup_insert _
    · have hne : f x ≠ f y := fun heq => hl.1 (heq ▸ List.mem_map_of_mem hmem)
      rw [ih hl.2 hmem]
      cases m.lookup (f y) with
      | none => rfl
      | some v => rw [AList.lookup_insert_ne hne]

/-! ## Inserting what is absent -/

theorem lookup_orInsert {k' : κ} :
    (orInsert k v m).lookup k' = if k' = k then some ((m.lookup k).getD v) else m.lookup k' := by
  unfold orInsert
  split
  · next hsome =>
    obtain ⟨w, hw⟩ := Option.isSome_iff_exists.mp hsome
    split
    · next heq => rw [heq, hw]; rfl
    · rfl
  · next hnone =>
    split
    · next heq =>
      rw [heq, AList.lookup_insert, Option.not_isSome_iff_eq_none.mp hnone]
      rfl
    · next hne => exact AList.lookup_insert_ne hne

/-- What was there stays; otherwise the first pair with the key is looked up. -/
theorem lookup_orInsertAll :
    (orInsertAll f g l m).lookup k
      = (m.lookup k).or ((l.find? fun x => f x = k).map g) := by
  induction l generalizing m with
  | nil => simp [orInsertAll]
  | cons x l ih =>
    have hstep : orInsertAll f g (x :: l) m = orInsertAll f g l (orInsert (f x) (g x) m) := rfl
    rw [hstep, ih, lookup_orInsert, List.find?_cons]
    by_cases hk : k = f x
    · rw [if_pos hk, hk]
      cases m.lookup (f x) with
      | none => simp
      | some v => simp
    · rw [if_neg hk]
      simp [Ne.symm hk]

/-! ## Entries -/

theorem lookup_eq_some_iff : m.lookup k = some v ↔ ⟨k, v⟩ ∈ m.entries :=
  AList.mem_lookup_iff

/-- What is left without a key. -/
theorem lookup_erase_eq_some {k' : κ} :
    (m.erase k').lookup k = some v ↔ k ≠ k' ∧ m.lookup k = some v := by
  by_cases hk : k = k'
  · rw [hk, AList.lookup_erase]
    simp
  · rw [AList.lookup_erase_ne hk]
    simp [hk]

/-- An entry, and what is left without its key. -/
theorem entries_perm_of_lookup (h : m.lookup k = some v) :
    m.entries.Perm (⟨k, v⟩ :: (m.erase k).entries) := by
  obtain ⟨w, l₁, l₂, -, hsplit, herase⟩ :=
    List.exists_of_kerase (List.mem_keys_of_mem (lookup_eq_some_iff.mp h))
  have hw : m.lookup k = some w := by
    refine lookup_eq_some_iff.mpr ?_
    rw [hsplit]
    exact List.mem_append_right _ List.mem_cons_self
  obtain rfl : v = w := Option.some.inj (h.symm.trans hw)
  have hrest : (m.erase k).entries = l₁ ++ l₂ := herase
  rw [hrest, hsplit]
  exact List.perm_middle

/-- A map that has, for every element of a list, a key of its own with a known value, and no other
keys, has these entries. -/
theorem entries_perm (hl : (l.map f).Nodup) (hkeys : ∀ k ∈ m, k ∈ l.map f)
    (hlookup : ∀ x ∈ l, m.lookup (f x) = some (g x)) :
    m.entries.Perm (l.map fun x => ⟨f x, g x⟩) := by
  have hnodup : (l.map fun x => (⟨f x, g x⟩ : Sigma fun _ : κ => υ)).Nodup := by
    refine List.Nodup.of_map Sigma.fst ?_
    rwa [List.map_map]
  have hentries : m.entries.Nodup := List.Nodup.of_map Sigma.fst m.nodupKeys
  rw [List.perm_ext_iff_of_nodup hentries hnodup]
  intro e
  obtain ⟨k, v⟩ := e
  refine ⟨fun he => ?_, fun he => ?_⟩
  · have hv : m.lookup k = some v := lookup_eq_some_iff.mpr he
    have hk : k ∈ m := AList.lookup_isSome.mp (by rw [hv]; rfl)
    grind
  · obtain ⟨x, hx, heq⟩ := List.mem_map.mp he
    obtain ⟨rfl, hv⟩ := Sigma.mk.inj heq
    exact lookup_eq_some_iff.mp (by rw [hlookup x hx, eq_of_heq hv])

/-! ## A property of all entries -/

/-- Every entry of the map meets `R`. -/
def All (R : κ → υ → Prop) (m : Map κ υ) : Prop := ∀ k v, m.lookup k = some v → R k v

theorem all_empty (R : κ → υ → Prop) : All R (∅ : Map κ υ) := by
  intro k v h
  rw [AList.lookup_empty] at h
  simp at h

theorem All.insert (hm : All R m) (hv : R k v) :
    All R (m.insert k v) := by
  intro k' v' h
  by_cases hk : k' = k
  · subst hk
    rw [AList.lookup_insert] at h
    exact Option.some.inj h ▸ hv
  · rw [AList.lookup_insert_ne hk] at h
    exact hm k' v' h

theorem All.erase (hm : All R m) (k : κ) : All R (m.erase k) :=
  fun k' v h => hm k' v (lookup_erase_eq_some.mp h).2

/-- `retain`: the entries with `p`. -/
def retain (p : κ → υ → Bool) (m : Map κ υ) : Map κ υ :=
  ⟨m.entries.filter fun e => p e.1 e.2, m.nodupKeys.sublist List.filter_sublist⟩

theorem lookup_of_lookup_retain {p : κ → υ → Bool} (h : (retain p m).lookup k = some v) :
    m.lookup k = some v :=
  lookup_eq_some_iff.mpr (List.mem_filter.mp (lookup_eq_some_iff.mp h)).1

theorem All.retain (hm : All R m) (p : κ → υ → Bool) : All R (m.retain p) :=
  fun k v h => hm k v (lookup_of_lookup_retain h)

/-! ## Counters -/

section Counters

variable (m : Map κ Nat) (k k' : κ) (n : Nat)

/-- The counter of a key, zero if there is none. -/
def countOf : Nat := (m.lookup k).getD 0

/-- The sum of all counters. -/
def total : Nat := (m.entries.map Sigma.snd).sum

/-- `*m.entry(k).or_insert(0) += n`. -/
def addTo : Map κ Nat := m.insert k (m.countOf k + n)

theorem countOf_addTo : (m.addTo k n).countOf k' = m.countOf k' + if k' = k then n else 0 := by
  rw [addTo, countOf]
  split
  · next heq => rw [heq, AList.lookup_insert]; rfl
  · next hne => rw [AList.lookup_insert_ne hne]; rfl

theorem sum_kerase (l : List (Sigma fun _ : κ => Nat)) :
    ((l.kerase k).map Sigma.snd).sum + (l.dlookup k).getD 0 = (l.map Sigma.snd).sum := by
  induction l with
  | nil => rfl
  | cons e l ih =>
    obtain ⟨k', n⟩ := e
    by_cases hk : k = k'
    · subst hk
      simp
      omega
    · simp_all
      omega

theorem total_addTo : (m.addTo k n).total = m.total + n := by
  have hrest := sum_kerase k m.entries
  have hsum : (m.addTo k n).total
      = m.countOf k + n + ((m.entries.kerase k).map Sigma.snd).sum := by
    rw [total, addTo, AList.entries_insert, List.map_cons, List.sum_cons]
  have hcount : m.countOf k = (m.entries.dlookup k).getD 0 := rfl
  rw [hsum, total]
  omega

/-- One more for every key of a list. -/
theorem countOf_foldl_addTo (l : List κ) :
    (l.foldl (fun m k => addTo m k 1) m).countOf k = m.countOf k + l.count k := by
  induction l generalizing m with
  | nil => rfl
  | cons k' l ih =>
    rw [List.foldl_cons, ih, countOf_addTo, List.count_cons]
    grind

theorem total_foldl_addTo (l : List κ) :
    (l.foldl (fun m k => addTo m k 1) m).total = m.total + l.length := by
  induction l generalizing m with
  | nil => rfl
  | cons k l ih =>
    rw [List.foldl_cons, ih, total_addTo, List.length_cons]
    omega

end Counters

/-! ## Maps of lists -/

section Buckets

variable {α : Type} {m : Map κ (List α)} {k : κ} {x : α}

/-- The elements of all lists of the map. -/
def flat (m : Map κ (List α)) : List α := m.entries.flatMap Sigma.snd

theorem mem_flat : x ∈ m.flat ↔ ∃ k l, m.lookup k = some l ∧ x ∈ l := by
  rw [flat, List.mem_flatMap]
  constructor
  · rintro ⟨⟨k, l⟩, he, hx⟩
    exact ⟨k, l, lookup_eq_some_iff.mpr he, hx⟩
  · rintro ⟨k, l, hl, hx⟩
    exact ⟨⟨k, l⟩, lookup_eq_some_iff.mp hl, hx⟩

theorem flat_insert (l : List α) : flat (m.insert k l) = l ++ flat (m.erase k) := by
  rw [flat, AList.entries_insert, List.flatMap_cons]
  rfl

/-- The list of a key, and the lists of the other keys. -/
theorem flat_perm : m.flat.Perm ((m.lookup k).getD [] ++ flat (m.erase k)) := by
  have hentries : ∀ l : List (Sigma fun _ : κ => List α),
      (l.flatMap Sigma.snd).Perm ((l.dlookup k).getD [] ++ (l.kerase k).flatMap Sigma.snd) := by
    intro l
    induction l with
    | nil => exact List.Perm.refl _
    | cons e l ih =>
      obtain ⟨k', l'⟩ := e
      by_cases hk : k = k'
      · subst hk
        simp
      · rw [List.kerase_cons_ne hk, List.dlookup_cons_ne _ _ hk, List.flatMap_cons,
          List.flatMap_cons]
        exact (ih.append_left l').trans (List.perm_append_comm_assoc _ _ _)
  exact hentries m.entries

end Buckets

end Map

end Rust
