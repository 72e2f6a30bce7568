import RethBsc.Parlia.AssembleRobust
import RethBsc.Parlia.SnapshotQuery

/-!
# Runs of insertions and queries

A node inserts headers into its header cache and asks for snapshots, in any order and on any
forks.

* `Run.sound`: as long as each query meets `IndexAgrees`, everything the node keeps is right.
* `snapshots_follow_ancestry`: then an answer depends on the ancestors of the block alone.
* Without the condition it does not.  `checkpoint_of_sibling` has two blocks 200 with one parent: the
  answer for the first has the validators that the second announces.
-/

namespace RethBsc

open Rust

variable {c : Crypto} {p : Parlia} {tree : HeaderTree c.hashSlow} {outside : Outside}
  {snap : Snapshot} {blockHash : B256}

/-! ## Runs -/

variable (outside tree) in
/-- The canonical chain has headers of the tree, under their own hashes. -/
def Outside.Faithful : Prop :=
  ∀ blockHash header, outside.canonicalHeaderByHash blockHash = some header →
    header ∈ tree.known ∧ c.hashSlow header = blockHash

structure NodeState where
  headers : HeaderCacheReader
  snapshots : DbSnapshotProvider

namespace NodeState

def new : NodeState := ⟨.new, .new⟩

def insertHeader (hashSlow : Header → B256) (state : NodeState) (header : Header) : NodeState :=
  { state with headers := state.headers.insertHeaderToCache hashSlow header }

variable (c p outside) in
def query (fuel : Nat) (state : NodeState) (blockHash : B256) :
    Outcome QueryEnd Snapshot × NodeState :=
  let (answer, snapshots) :=
    snapshotByHash c p ⟨state.headers, outside⟩ fuel state.snapshots blockHash
  (answer, { state with snapshots })

theorem query_fst {fuel : Nat} {state : NodeState} :
    (state.query c p outside fuel blockHash).1
      = (snapshotByHash c p ⟨state.headers, outside⟩ fuel state.snapshots blockHash).1 := rfl

variable (p tree outside) in
def IndexAgrees (state : NodeState) (blockHash : B256) : Prop :=
  RethBsc.IndexAgrees p tree ⟨state.headers, outside⟩ state.snapshots blockHash

end NodeState

variable (c p tree) in
/-- Insertions of headers of the tree and queries under the condition, in any order. -/
inductive Run : NodeState → Prop
  | start : Run .new
  | insertHeader {state : NodeState} {header : Header} (run : Run state)
      (hknown : header ∈ tree.known) : Run (state.insertHeader c.hashSlow header)
  | query {state : NodeState} {outside : Outside} {fuel : Nat} {blockHash : B256} (run : Run state)
      (houtside : outside.Faithful tree) (hagree : state.IndexAgrees p tree outside blockHash) :
      Run (state.query c p outside fuel blockHash).2

variable (c p tree) in
structure NodeState.Sound (state : NodeState) : Prop where
  headers : state.headers.blockhashToHeader.All fun blockHash header =>
    header ∈ tree.known ∧ c.hashSlow header = blockHash
  snapshots : DbSnapshotProvider.Sound c p tree state.snapshots

variable {state : NodeState} {headers : List Header}

theorem NodeState.Sound.faithful (h : state.Sound c p tree)
    (houtside : outside.Faithful tree) : QueryEnv.Faithful tree ⟨state.headers, outside⟩ := by
  intro blockHash header hfound
  unfold QueryEnv.getHeaderByHash at hfound
  cases hcached : state.headers.blockhashToHeader.lookup blockHash with
  | some cached =>
    rw [hcached] at hfound
    exact Option.some.inj hfound ▸ h.headers _ _ hcached
  | none =>
    rw [hcached] at hfound
    exact houtside _ _ hfound

theorem Run.sound (run : Run c p tree state) : state.Sound c p tree := by
  induction run with
  | start => exact ⟨Map.all_empty _, DbSnapshotProvider.sound_new⟩
  | insertHeader _ hknown ih => exact ⟨ih.headers.insert ⟨hknown, rfl⟩, ih.snapshots⟩
  | query _ houtside hagree ih =>
    exact ⟨ih.headers, (snapshotByHash_spec (ih.faithful houtside) ih.snapshots hagree).1⟩

variable (c p tree) in
/-- Some run answers the query for `blockHash` with `snap`. -/
def Answers (blockHash : B256) (snap : Snapshot) : Prop :=
  ∃ (state : NodeState) (outside : Outside) (fuel : Nat), Run c p tree state ∧
    outside.Faithful tree ∧ state.IndexAgrees p tree outside blockHash ∧
    (state.query c p outside fuel blockHash).1 = .ok snap

theorem Answers.isSnapshotOf (h : Answers c p tree blockHash snap) :
    IsSnapshotOf c p tree blockHash snap := by
  obtain ⟨state, outside, fuel, run, houtside, hagree, hanswer⟩ := h
  have hsound := run.sound
  exact (snapshotByHash_spec (hsound.faithful houtside) hsound.snapshots hagree).2 snap hanswer

/-- **Snapshots follow the ancestry.**  In every run whose queries meet the condition, an answer is
the fold along the ancestors of the block asked for, and every run gives the same one. -/
theorem snapshots_follow_ancestry (h : Answers c p tree blockHash snap) :
    IsSnapshotOf c p tree blockHash snap ∧
      ∀ snap', Answers c p tree blockHash snap' → snap' = snap :=
  ⟨h.isSnapshotOf, fun _ h' => h'.isSnapshotOf.unique h.isSnapshotOf⟩

/-! ## Inserted headers -/

def NodeState.insertHeaders (hashSlow : Header → B256) (state : NodeState) (headers : List Header) :
    NodeState :=
  headers.foldl (NodeState.insertHeader hashSlow) state

theorem Run.insertHeaders (run : Run c p tree state) (hknown : ∀ h ∈ headers, h ∈ tree.known) :
    Run c p tree (state.insertHeaders c.hashSlow headers) := by
  induction headers generalizing state with
  | nil => exact run
  | cons header headers ih =>
    exact ih (run.insertHeader (hknown header List.mem_cons_self))
      fun h hmem => hknown h (List.mem_cons_of_mem _ hmem)

theorem snapshots_insertHeaders {hashSlow : Header → B256}
    : (state.insertHeaders hashSlow headers).snapshots = state.snapshots := by
  induction headers generalizing state with
  | nil => rfl
  | cons header headers ih => exact ih

/-- A header of the tree stays under its hash once it was inserted. -/
theorem lookup_insertHeaders {header : Header} (hknown : ∀ h ∈ headers, h ∈ tree.known)
    (hheader : header ∈ tree.known) (h : header ∈ headers ∨
      state.headers.blockhashToHeader.lookup (c.hashSlow header) = some header) :
    (state.insertHeaders c.hashSlow headers).headers.blockhashToHeader.lookup (c.hashSlow header)
      = some header := by
  induction headers generalizing state with
  | nil => exact h.resolve_left (by simp)
  | cons first headers ih =>
    refine ih (fun h hmem => hknown h (List.mem_cons_of_mem _ hmem)) ?_
    by_cases hhash : c.hashSlow header = c.hashSlow first
    · obtain rfl : header = first :=
        tree.hash_injOn hheader (hknown first List.mem_cons_self) hhash
      exact .inr (AList.lookup_insert _)
    · rcases h with hmem | hlookup
      · rcases List.mem_cons.mp hmem with rfl | hmem
        · exact absurd rfl hhash
        · exact .inl hmem
      · exact .inr ((AList.lookup_insert_ne hhash).trans hlookup)

/-! ### Siblings at an epoch block

One validator makes the blocks 1 to 199.  Two blocks 200 follow, and each announces another
validator for the next epoch.  With one validator a block 200 is its own checkpoint. -/

def quietSpec : ChainSpec := ⟨fun _ => .never, fun _ => .never⟩

/-- A hash that tells blocks of one number apart by the gas they used. -/
def siblingHashAt (number sibling : UInt64) : B256 :=
  ⟨(toBeBytes number).reverse ++ (toBeBytes sibling ++ List.replicate 16 0), by simp⟩

def siblingHash (h : Header) : B256 := siblingHashAt h.number h.gasUsed

def siblingCrypto : Crypto := { markedCrypto with hashSlow := siblingHash }

def blockAt (number sibling : UInt64) (announced : List Address) : Header :=
  { (default : Header) with
    parentHash :=
      if number = 0 then .repeatByte 32 255 else siblingHashAt (number - 1) 0
    beneficiary := loneValidator
    number
    gasUsed := sibling
    extraData := List.replicate 32 0 ++ announced.flatMap FixedBytes.val ++ List.replicate 65 0 }

def siblingAt (number sibling : UInt64) : Header :=
  blockAt number sibling <|
    if number = 0 then [loneValidator]
    else if sibling = 0 then []
    else [.repeatByte 20 sibling.toUInt8]

/-- The blocks `n` to 1. -/
def trunk : Nat → List Header
  | 0 => []
  | n + 1 => siblingAt (UInt64.ofNat (n + 1)) 0 :: trunk n

theorem siblingHashAt_inj {n n' s s' : UInt64} (h : siblingHashAt n s = siblingHashAt n' s') :
    n = n' ∧ s = s' := by
  have hval := congrArg FixedBytes.val h
  obtain ⟨hnumber, htail⟩ := List.append_inj hval (by simp)
  obtain ⟨hsibling, -⟩ := List.append_inj htail (by simp)
  exact ⟨toBeBytes_injective (List.reverse_injective hnumber), toBeBytes_injective hsibling⟩

theorem siblingHashAt_ne_root (n s : UInt64) :
    siblingHashAt n s ≠ FixedBytes.repeatByte 32 255 := by
  intro h
  have hlast := congrArg (fun b : B256 => b.val.getLast?) h
  simp [siblingHashAt, FixedBytes.repeatByte, List.getLast?_append] at hlast

/-- Only block 200 has siblings. -/
def siblingTree : HeaderTree siblingCrypto.hashSlow where
  known := {h | ∃ number sibling, (number = 200 ∨ sibling = 0) ∧ h = siblingAt number sibling}
  hash_injOn := by
    rintro _ ⟨n, s, -, rfl⟩ _ ⟨n', s', -, rfl⟩ h
    obtain ⟨hnumber, hsibling⟩ := siblingHashAt_inj h
    exact congrArg₂ siblingAt hnumber hsibling
  root := by
    rintro _ ⟨n, s, -, rfl⟩ hzero _ ⟨n', s', -, rfl⟩ h
    have hn : n = 0 := hzero
    subst hn
    exact siblingHashAt_ne_root _ _ h

theorem length_trunk (n : Nat) : (trunk n).length = n := by
  induction n with
  | zero => rfl
  | succ n ih => rw [trunk, List.length_cons, ih]

theorem trunk_known (n : Nat) : ∀ h ∈ trunk n, h ∈ siblingTree.known := by
  induction n with
  | zero => simp [trunk]
  | succ n ih =>
    intro h hmem
    rcases List.mem_cons.mp hmem with rfl | hmem
    · exact ⟨_, 0, .inr rfl, rfl⟩
    · exact ih h hmem

theorem ofNat_succ_ne_zero {n : Nat} (hn : n < 200) : UInt64.ofNat (n + 1) ≠ 0 := by
  intro h
  have htoNat := congrArg UInt64.toNat h
  rw [UInt64.toNat_ofNat', Nat.mod_eq_of_lt (by omega)] at htoNat
  simp at htoNat

theorem parentHash_siblingAt {n : Nat} (hn : n < 200) (sibling : UInt64) :
    siblingHashAt (UInt64.ofNat n) 0 = (siblingAt (UInt64.ofNat (n + 1)) sibling).parentHash := by
  show _ = if UInt64.ofNat (n + 1) = 0 then _ else siblingHashAt (UInt64.ofNat (n + 1) - 1) 0
  rw [if_neg (ofNat_succ_ne_zero hn), UInt64.ofNat_add]
  simp

/-- A block after the trunk, or on it, with its ancestors. -/
theorem trunk_ancestry {n : Nat} (hn : n < 200) {sibling : UInt64}
    (hsibling : n = 199 ∨ sibling = 0) :
    Ancestry siblingTree
      (siblingAt (UInt64.ofNat (n + 1)) sibling :: (trunk n ++ [siblingAt 0 0])) := by
  have hknown : siblingAt (UInt64.ofNat (n + 1)) sibling ∈ siblingTree.known :=
    ⟨_, _, hsibling.imp_left fun h => by rw [h]; rfl, rfl⟩
  have hnumber := ofNat_succ_ne_zero hn
  have hlink := parentHash_siblingAt hn sibling
  cases n with
  | zero => exact .block hknown hnumber hlink (.root ⟨0, 0, .inr rfl, rfl⟩ rfl)
  | succ n => exact .block hknown hnumber hlink (trunk_ancestry (by omega) (.inr rfl))

def firstSibling : Header := siblingAt 200 1
def secondSibling : Header := siblingAt 200 2

/-- An empty canonical chain, and a database that works. -/
def nothingOutside : Outside := ⟨fun _ => none, fun _ => none, fun _ => true, fun _ => true⟩

theorem nothingOutside_faithful : nothingOutside.Faithful tree := by
  intro _ _ hfound
  exact absurd hfound (by simp [nothingOutside])

/-- The node after genesis, the trunk and the two siblings, in the order given. -/
def siblingState (siblings : List Header) : NodeState :=
  NodeState.new.insertHeaders siblingHash (siblingAt 0 0 :: (trunk 199).reverse ++ siblings)

/-- The answer of that node for the first sibling. -/
def siblingAnswer (siblings : List Header) : Outcome QueryEnd Snapshot :=
  ((siblingState siblings).query siblingCrypto (.ofSpec quietSpec) nothingOutside 200
    (siblingHash firstSibling)).1

def siblingGenesisSnapshot : Snapshot :=
  ⟨200, 0, siblingHashAt 0 0, [loneValidator],
    (∅ : Map Address ValidatorInfo).insert loneValidator ⟨1, .zero⟩, ∅, default, some 1,
    3000⟩

/-- A view of the snapshot in an answer. -/
def answerView {α : Type} (view : Snapshot → α) : Outcome QueryEnd Snapshot → Option α
  | .ok snap => some (view snap)
  | _ => none

theorem answerView_eq_some {α : Type} {view : Snapshot → α} {answer : Outcome QueryEnd Snapshot}
    {a : α} (h : answerView view answer = some a) : ∃ snap, answer = .ok snap ∧ view snap = a := by
  cases answer with
  | ok snap => exact ⟨snap, rfl, Option.some.inj h⟩
  | err e => exact absurd h (by simp [answerView])
  | panic => exact absurd h (by simp [answerView])

section Siblings

variable {siblings : List Header}

theorem siblings_known (hsiblings : siblings ⊆ [firstSibling, secondSibling]) :
    ∀ h ∈ siblingAt 0 0 :: (trunk 199).reverse ++ siblings, h ∈ siblingTree.known := by
  intro h hmem
  rcases List.mem_append.mp hmem with hmem | hmem
  · rcases List.mem_cons.mp hmem with rfl | hmem
    · exact ⟨0, 0, .inr rfl, rfl⟩
    · exact trunk_known 199 h (List.mem_reverse.mp hmem)
  · rcases List.mem_cons.mp (hsiblings hmem) with rfl | hmem
    · exact ⟨200, 1, .inl rfl, rfl⟩
    · exact ⟨200, 2, .inl rfl, List.mem_singleton.mp hmem⟩

theorem siblingState_run (hsiblings : siblings ⊆ [firstSibling, secondSibling]) :
    Run siblingCrypto (.ofSpec quietSpec) siblingTree (siblingState siblings) :=
  Run.start.insertHeaders (siblings_known hsiblings)

theorem firstSibling_ancestry :
    Ancestry siblingTree (firstSibling :: (trunk 199 ++ [siblingAt 0 0])) :=
  trunk_ancestry (by omega) (.inl rfl)

/-- The answer, with the checkpoint that the number index of the node has. -/
theorem siblingAnswer_eq (hsiblings : siblings ⊆ [firstSibling, secondSibling])
    (hfirst : firstSibling ∈ siblings) :
    siblingAnswer siblings = (firstSibling :: trunk 199).reverse.foldlM
      (replayHeader siblingCrypto (.ofSpec quietSpec)
        (QueryEnv.getHeaderByNumber ⟨(siblingState siblings).headers, nothingOutside⟩))
      siblingGenesisSnapshot := by
  have hfinds : ∀ h ∈ firstSibling :: (trunk 199 ++ [siblingAt 0 0]),
      QueryEnv.getHeaderByHash ⟨(siblingState siblings).headers, nothingOutside⟩ (siblingHash h)
        = some h := by
    intro h hmem
    have hinserted : h ∈ siblingAt 0 0 :: (trunk 199).reverse ++ siblings := by grind
    have hknown := siblings_known hsiblings
    have hlookup : (siblingState siblings).headers.blockhashToHeader.lookup (siblingHash h)
        = some h := lookup_insertHeaders hknown (hknown h hinserted) (.inl hinserted)
    unfold QueryEnv.getHeaderByHash
    dsimp only
    rw [hlookup]
    rfl
  have hgenesis : genesisSnapshot siblingCrypto (.ofSpec quietSpec) (siblingAt 0 0)
      = .ok siblingGenesisSnapshot := by decide +kernel
  have hfresh : (siblingState siblings).snapshots = .new := snapshots_insertHeaders
  have hlength : (trunk 199).length < 200 := by rw [length_trunk]; decide
  rw [siblingAnswer, NodeState.query_fst, hfresh]
  exact snapshotByHash_new firstSibling_ancestry hfinds (fun _ => rfl) hgenesis hlength

theorem second_validators :
    answerView Snapshot.validators (siblingAnswer [firstSibling, secondSibling])
      = some [.repeatByte 20 2] := by
  rw [siblingAnswer_eq (by simp) (by simp)]
  decide +kernel

theorem first_validators :
    answerView Snapshot.validators (siblingAnswer [secondSibling, firstSibling])
      = some [.repeatByte 20 1] := by
  rw [siblingAnswer_eq (by simp) (by simp)]
  decide +kernel

theorem first_fold_validators :
    answerView Snapshot.validators (ancestrySnapshot siblingCrypto (.ofSpec quietSpec)
      (firstSibling :: (trunk 199 ++ [siblingAt 0 0]))) = some [.repeatByte 20 1] := by
  decide +kernel

/-- The answer for the first sibling has the validators that the second one announces.  With the
siblings inserted in the other order it has those of the first. -/
theorem checkpoint_of_sibling :
    Run siblingCrypto (.ofSpec quietSpec) siblingTree
        (siblingState [firstSibling, secondSibling]) ∧
      ∃ snap snap', siblingAnswer [firstSibling, secondSibling] = .ok snap ∧
        siblingAnswer [secondSibling, firstSibling] = .ok snap' ∧
        snap.validators = [.repeatByte 20 2] ∧
        snap'.validators = [.repeatByte 20 1] ∧
        ¬ IsSnapshotOf siblingCrypto (.ofSpec quietSpec) siblingTree (siblingHash firstSibling)
          snap := by
  obtain ⟨snap, hanswer, hvalidators⟩ := answerView_eq_some second_validators
  obtain ⟨snap', hanswer', hvalidators'⟩ := answerView_eq_some first_validators
  obtain ⟨right, hright, hrightValidators⟩ := answerView_eq_some first_fold_validators
  refine ⟨siblingState_run (by simp), snap, snap', hanswer, hanswer', hvalidators, hvalidators',
    fun hsnap => ?_⟩
  have hfold : IsSnapshotOf siblingCrypto (.ofSpec quietSpec) siblingTree
      (siblingHash firstSibling) right := ⟨_, _, firstSibling_ancestry, rfl, hright⟩
  rw [hsnap.unique hfold, hrightValidators] at hvalidators
  exact absurd hvalidators (by decide)

end Siblings

/-! ### A switch in a run that meets the condition

Genesis has three validators, so that block 1 is a switch block with genesis as its checkpoint. -/

def threeGenesis : Header :=
  blockAt 0 0 [loneValidator, .repeatByte 20 8, .repeatByte 20 9]

def threeTree : HeaderTree siblingCrypto.hashSlow where
  known := {threeGenesis, blockAt 1 0 []}
  hash_injOn := by
    rintro _ (rfl | rfl) _ (rfl | rfl) h
    · rfl
    · exact absurd h (by decide)
    · exact absurd h (by decide)
    · rfl
  root := by
    rintro _ (rfl | rfl) hzero _ (rfl | rfl)
    · decide
    · decide
    · exact absurd hzero (by decide)
    · exact absurd hzero (by decide)

def threeState : NodeState :=
  NodeState.new.insertHeaders siblingHash [threeGenesis, blockAt 1 0 []]

def threeAnswer : Outcome QueryEnd Snapshot :=
  (threeState.query siblingCrypto (.ofSpec quietSpec) nothingOutside 1 (siblingHashAt 1 0)).1

theorem three_ancestry : Ancestry threeTree [blockAt 1 0 [], threeGenesis] :=
  .block (.inr rfl) (by decide) rfl (.root (.inl rfl) rfl)

theorem three_indexAgrees :
    threeState.IndexAgrees (.ofSpec quietSpec) threeTree nothingOutside (siblingHashAt 1 0) := by
  intro target ancestors hancestry hhash later header before hsplit _ snap checkpoint hsnap _ hfound
  rw [hancestry.unique three_ancestry hhash] at hsplit
  -- block 1 is the one block with an ancestor
  cases later with
  | nil =>
    cases hsplit
    have hview : answerView (checkpointNumber · (blockAt 1 0 []))
        (ancestrySnapshot siblingCrypto (.ofSpec quietSpec) [threeGenesis]) = some 0 := by
      decide +kernel
    obtain ⟨snap', hsnap', hnumber⟩ := answerView_eq_some hview
    obtain rfl : snap' = snap := Outcome.ok.inj (hsnap'.symm.trans hsnap)
    rw [hnumber] at hfound ⊢
    have hindex : QueryEnv.getHeaderByNumber ⟨threeState.headers, nothingOutside⟩ 0
        = some threeGenesis := by decide +kernel
    rw [← hfound, hindex]
    decide +kernel
  | cons first later =>
    have hlength := congrArg List.length hsplit
    have hnil : before = [] := by
      simp only [List.length_cons, List.length_append, List.length_nil] at hlength
      exact List.eq_nil_of_length_eq_zero (by omega)
    simp_all [ancestrySnapshot]

/-- The snapshot of block 1 has the validators that genesis announces, from every run. -/
theorem three_snapshot_follows :
    ∃ snap, threeAnswer = .ok snap ∧
      IsSnapshotOf siblingCrypto (.ofSpec quietSpec) threeTree (siblingHashAt 1 0) snap ∧
      ∀ snap', Answers siblingCrypto (.ofSpec quietSpec) threeTree (siblingHashAt 1 0) snap' →
        snap' = snap := by
  have hvalidators : answerView Snapshot.validators threeAnswer = some [loneValidator,
      .repeatByte 20 8, .repeatByte 20 9] := by decide +kernel
  obtain ⟨snap, hanswer, -⟩ := answerView_eq_some hvalidators
  have hrun : Run siblingCrypto (.ofSpec quietSpec) threeTree threeState := by
    refine Run.start.insertHeaders fun h hmem => ?_
    rcases List.mem_cons.mp hmem with rfl | hmem
    · exact .inl rfl
    · exact .inr (List.mem_singleton.mp hmem)
  exact ⟨snap, hanswer, snapshots_follow_ancestry
    ⟨threeState, nothingOutside, 1, hrun, nothingOutside_faithful, three_indexAgrees, hanswer⟩⟩

end RethBsc
