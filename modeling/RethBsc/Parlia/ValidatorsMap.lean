import RethBsc.Parlia.Snapshot

/-!
# The validator map of a snapshot

`validators_map` is built next to the sorted validator list, twice in the source and in two ways.
Whatever the way, its keys are the validators and the index of a validator is its position counted
from 1, as long as no validator is listed twice.

* `buildValidators_wellIndexed`: the property for one construction.
* `Reachable.wellIndexed`: it holds in every reachable snapshot.
* `WellIndexed.entries_perm`: what iterating over the map amounts to.
-/

namespace RethBsc.Snapshot

open Rust

/-- The validators are the keys of the map, and indices are positions. -/
structure WellIndexed (s : Snapshot) : Prop where
  mem_iff : ∀ v, v ∈ s.validatorsMap ↔ v ∈ s.validators
  index : s.validators.Nodup → ∀ vi ∈ s.validators.zipIdx,
    ∃ voteAddr, s.validatorsMap.lookup vi.1 = some ⟨UInt64.ofNat vi.2 + 1, voteAddr⟩

/-- The vote address recorded for a validator. -/
def voteAddr (s : Snapshot) (v : Address) : VoteAddress :=
  ((s.validatorsMap.lookup v).map ValidatorInfo.voteAddr).getD .zero

/-- No two validators have the same vote address; in particular no validator is listed twice. -/
def DistinctVoteAddrs (s : Snapshot) : Prop := (s.validators.map s.voteAddr).Nodup

instance (s : Snapshot) : Decidable s.DistinctVoteAddrs := by
  unfold DistinctVoteAddrs; infer_instance

theorem DistinctVoteAddrs.nodup {s : Snapshot} (h : s.DistinctVoteAddrs) : s.validators.Nodup :=
  List.Nodup.of_map _ h

/-! ## Construction -/

theorem zipIdx_map_fst_nodup {l : List Address} (h : l.Nodup) : (l.zipIdx.map Prod.fst).Nodup := by
  rwa [List.zipIdx_map_fst]

theorem buildValidators_wellIndexed {validators sorted : List Address}
    {voteAddrs : Option (List VoteAddress)} {map : ValidatorsMap}
    (h : buildValidators validators voteAddrs = .ok (sorted, map)) :
    (∀ v, v ∈ map ↔ v ∈ sorted) ∧ (sorted.Nodup → ∀ vi ∈ sorted.zipIdx,
      ∃ voteAddr, map.lookup vi.1 = some ⟨UInt64.ofNat vi.2 + 1, voteAddr⟩) := by
  have hempty : ∀ v : Address, v ∉ (∅ : ValidatorsMap) := fun v => AList.notMem_empty v
  unfold buildValidators at h
  cases voteAddrs with
  | none =>
    simp only [Outcome.ok.injEq, Prod.mk.injEq] at h
    obtain ⟨rfl, rfl⟩ := h
    refine ⟨fun v => ?_, fun hnodup vi hvi => ?_⟩
    · rw [Map.mem_insertAll, List.zipIdx_map_fst, or_iff_left (hempty v)]
    · exact ⟨_, Map.lookup_insertAll (zipIdx_map_fst_nodup hnodup) hvi⟩
  | some voteAddrs =>
    dsimp only at h
    split at h
    · simp at h
    · next hlen =>
      simp only [Outcome.ok.injEq, Prod.mk.injEq] at h
      obtain ⟨rfl, rfl⟩ := h
      have hmem : ∀ v, v ∈ Map.insertAll Prod.fst (fun va => (⟨0, va.2⟩ : ValidatorInfo))
          (validators.zip voteAddrs) ∅ ↔ v ∈ validators.insertionSort (· ≤ ·) := by
        intro v
        rw [Map.mem_insertAll, or_iff_left (hempty v), List.map_fst_zip (by omega),
          List.mem_insertionSort]
      refine ⟨fun v => ?_, fun hnodup vi hvi => ?_⟩
      · rw [setIndices, Map.mem_updateAll, hmem]
      · have hv : vi.1 ∈ validators.insertionSort (· ≤ ·) := by
          have := List.mem_map_of_mem (f := Prod.fst) hvi
          rwa [List.zipIdx_map_fst] at this
        obtain ⟨info, hinfo⟩ := Option.isSome_iff_exists.mp
          (AList.lookup_isSome.mpr ((hmem vi.1).mpr hv))
        exact ⟨info.voteAddr, by
          rw [setIndices, Map.lookup_updateAll (zipIdx_map_fst_nodup hnodup) hvi, hinfo]
          rfl⟩

theorem Reachable.wellIndexed {hashSlow : Header → B256} {spec : ChainSpec} {s : Snapshot}
    (h : Reachable hashSlow spec s) : s.WellIndexed := by
  induction h with
  | genesis h =>
    obtain ⟨⟨validators, map⟩, hbuild, hs⟩ := Outcome.bind_eq_ok.mp h
    cases hs
    exact ⟨(buildValidators_wellIndexed hbuild).1, (buildValidators_wellIndexed hbuild).2⟩
  | apply hs happly ih =>
    rcases (apply_spec happly).validators with ⟨hvalidators, hmap, -⟩ | ⟨-, hbuild⟩
    · refine ⟨?_, ?_⟩
      · rw [hvalidators, hmap]; exact ih.mem_iff
      · rw [hvalidators, hmap]; exact ih.index
    · exact ⟨(buildValidators_wellIndexed hbuild).1, (buildValidators_wellIndexed hbuild).2⟩

/-! ## Iteration -/

variable {s : Snapshot}

theorem WellIndexed.lookup (h : s.WellIndexed) (hnodup : s.validators.Nodup)
    {vi : Address × Nat} (hvi : vi ∈ s.validators.zipIdx) :
    s.validatorsMap.lookup vi.1 = some ⟨UInt64.ofNat vi.2 + 1, s.voteAddr vi.1⟩ := by
  obtain ⟨voteAddr, hlookup⟩ := h.index hnodup vi hvi
  rw [hlookup, Snapshot.voteAddr, hlookup]
  rfl

/-- Iterating over the map visits every validator once, with its position and its vote address. -/
theorem WellIndexed.entries_perm (h : s.WellIndexed) (hnodup : s.validators.Nodup) :
    (s.validatorsMap.entries.map Sigma.snd).Perm
      (s.validators.zipIdx.map fun vi => ⟨UInt64.ofNat vi.2 + 1, s.voteAddr vi.1⟩) := by
  have hperm := Map.entries_perm (zipIdx_map_fst_nodup hnodup)
    (fun v hv => by rw [List.zipIdx_map_fst]; exact (h.mem_iff v).mp hv)
    (fun vi hvi => h.lookup hnodup hvi)
  have := hperm.map Sigma.snd
  rwa [List.map_map] at this

end RethBsc.Snapshot
