import RethBsc.Parlia.Ancestry

/-!
# One query for a snapshot

What the provider keeps is right as long as the number index shows each rebuilt switch block a
checkpoint of its own ancestry.

* `DbSnapshotProvider.Sound`: every snapshot that is cached or persisted is the one of its block.
* `IndexAgrees` is the condition on a query.  It looks at the state before the query, and only at
  the switch blocks that the query rebuilds.
* `walkBack_eq_ok` and `replay_spec` say what the two loops do.
* `snapshotByHash_spec`: under the condition a query keeps the provider sound, and what it returns
  is right.
-/

namespace RethBsc

open Rust Outcome

variable {c : Crypto} {p : Parlia} {tree : HeaderTree c.hashSlow} {env : QueryEnv}
  {outside : Outside} {base : DbSnapshotProvider} {snap snap' : Snapshot} {blockHash : B256}
  {header : Header} {before : List Header}

/-! ## What the provider keeps -/

namespace DbSnapshotProvider

variable (c p tree base) in
/-- Every snapshot there is belongs to the block it is kept for. -/
structure Sound : Prop where
  cache : base.cacheByHash.All (IsSnapshotOf c p tree)
  db : base.db.All (IsSnapshotOf c p tree)

theorem sound_new : Sound c p tree new := ⟨Map.all_empty _, Map.all_empty _⟩

theorem snapshotByHash_new_eq : new.snapshotByHash outside blockHash = (none, new) := by
  simp [snapshotByHash, queryDbByHash, new]

/-- A query that finds nothing changes nothing. -/
theorem snapshotByHash_of_none (h : (base.snapshotByHash outside blockHash).1 = none) :
    (base.snapshotByHash outside blockHash).2 = base := by
  grind [snapshotByHash]

namespace Sound

theorem snapshotByHash (hbase : Sound c p tree base) :
    Sound c p tree (base.snapshotByHash outside blockHash).2 ∧
      ∀ snap, (base.snapshotByHash outside blockHash).1 = some snap →
        IsSnapshotOf c p tree blockHash snap := by
  unfold DbSnapshotProvider.snapshotByHash
  cases hcache : base.cacheByHash.lookup blockHash with
  | some snap =>
    refine ⟨hbase, fun snap' h => ?_⟩
    exact Option.some.inj h ▸ hbase.cache _ _ hcache
  | none =>
    cases hdb : base.queryDbByHash outside blockHash with
    | none => exact ⟨hbase, fun snap' h => absurd h (by simp)⟩
    | some snap =>
      have hright : IsSnapshotOf c p tree blockHash snap := by
        unfold queryDbByHash at hdb
        split at hdb
        · exact hbase.db _ _ hdb
        · simp at hdb
      refine ⟨⟨hbase.cache.insert hright, hbase.db⟩, fun snap' h => ?_⟩
      exact Option.some.inj h ▸ hright

theorem insertCacheOnly (hbase : Sound c p tree base)
    (hsnap : IsSnapshotOf c p tree snap.blockHash snap) :
    Sound c p tree (base.insertCacheOnly snap) :=
  ⟨hbase.cache.insert hsnap, hbase.db⟩

theorem persistToDb {base' : DbSnapshotProvider} (hbase : Sound c p tree base)
    (hsnap : IsSnapshotOf c p tree snap.blockHash snap)
    (h : base.persistToDb outside snap = some base') : Sound c p tree base' := by
  unfold DbSnapshotProvider.persistToDb at h
  split at h
  · exact Option.some.inj h ▸ ⟨hbase.cache, hbase.db.insert hsnap⟩
  · simp at h

theorem insert (hbase : Sound c p tree base) (hsnap : IsSnapshotOf c p tree snap.blockHash snap) :
    Sound c p tree (base.insert outside snap) := by
  have hcached := hbase.insertCacheOnly hsnap
  unfold DbSnapshotProvider.insert
  dsimp only
  split
  · cases hpersist : (base.insertCacheOnly snap).persistToDb outside snap with
    | none => exact hcached
    | some base' => exact hcached.persistToDb hsnap hpersist
  · exact hcached

end Sound

end DbSnapshotProvider

open DbSnapshotProvider (Sound)

/-! ## What a query needs -/

variable (env tree) in
/-- A header that is found under a hash is a header of the tree, and has that hash. -/
def QueryEnv.Faithful : Prop :=
  ∀ blockHash header, env.getHeaderByHash blockHash = some header →
    header ∈ tree.known ∧ c.hashSlow header = blockHash

variable (c p header before) in
/-- If `header` is a switch block after `before`, then the checkpoint found for it, if any, is the
ancestor of that number. -/
def CheckpointAgrees (headerByNumber : UInt64 → Option Header) : Prop :=
  ∀ snap checkpoint, ancestrySnapshot c p before = .ok snap → IsSwitchBlock snap header →
    headerByNumber (checkpointNumber snap header) = some checkpoint →
    ancestorByNumber (header :: before) (checkpointNumber snap header) = some checkpoint

variable (p tree env base blockHash) in
/-- The number index has the right checkpoint for each block that the query rebuilds: each ancestor
of the block asked for, from itself down to the first one with a snapshot. -/
def IndexAgrees : Prop :=
  ∀ target ancestors, Ancestry tree (target :: ancestors) → c.hashSlow target = blockHash →
    ∀ later header before, target :: ancestors = later ++ header :: before →
      (∀ h ∈ header :: later, (base.snapshotByHash env.outside (c.hashSlow h)).1 = none) →
      CheckpointAgrees c p header before env.getHeaderByNumber

/-! ## Genesis -/

theorem initGenesisSnapshot_spec (hknown : header ∈ tree.known) (hnumber : header.number = 0)
    (hbase : Sound c p tree base) :
    Sound c p tree (initGenesisSnapshot c p env base header).2 ∧
      ∀ snap, (initGenesisSnapshot c p env base header).1 = .ok snap →
        IsSnapshotOf c p tree (c.hashSlow header) snap := by
  unfold initGenesisSnapshot
  cases hgenesis : genesisSnapshot c p header with
  | ok snap =>
    have hright : IsSnapshotOf c p tree (c.hashSlow header) snap :=
      ⟨header, [], .root hknown hnumber, rfl, hgenesis⟩
    refine ⟨hbase.insert (genesisSnapshot_blockHash hgenesis ▸ hright), fun snap' h => ?_⟩
    exact ok.inj h ▸ hright
  | err e => exact ⟨hbase, fun snap' h => absurd h (by simp)⟩
  | panic => exact ⟨hbase, fun snap' h => absurd h (by simp)⟩

theorem initIfGenesis_sound {base' : DbSnapshotProvider} (hknown : header ∈ tree.known)
    (hbase : Sound c p tree base) (h : initIfGenesis c p env base header = some base') :
    Sound c p tree base' := by
  unfold initIfGenesis at h
  split at h
  · next hnumber =>
    have hsound : Sound c p tree (initGenesisSnapshot c p env base header).2 :=
      (initGenesisSnapshot_spec hknown hnumber hbase).1
    split at h
    · simp at h
    · simp_all
  · exact Option.some.inj h ▸ hbase

/-- Nothing is inserted for a block above genesis. -/
theorem initIfGenesis_of_ne_zero {base' : DbSnapshotProvider} (hnumber : header.number ≠ 0)
    (h : initIfGenesis c p env base header = some base') : base' = base := by
  simp_all [initIfGenesis]

/-! ## The walk -/

variable (c p tree base env) in
/-- What a walk from `header` finds: an ancestor with its snapshot, and the blocks between the two,
none of which has one. -/
structure WalkedBack (header : Header) (snap : Snapshot) (path before : List Header) : Prop where
  ancestry : Ancestry tree (header :: (path ++ before))
  snapshot : ancestrySnapshot c p before = .ok snap
  missing : ∀ h ∈ path, (base.snapshotByHash env.outside (c.hashSlow h)).1 = none

variable {path : List Header}

theorem WalkedBack.before_ne_nil
    (h : WalkedBack c p tree env base header snap path before) : before ≠ [] := by
  rintro rfl
  exact absurd h.snapshot (by simp [ancestrySnapshot])

theorem WalkedBack.number_ne_zero
    (h : WalkedBack c p tree env base header snap path before) : header.number ≠ 0 := by
  refine h.ancestry.number_ne_zero fun hnil => ?_
  exact h.before_ne_nil (List.append_eq_nil_iff.mp hnil).2

/-- A block without a snapshot lengthens the path. -/
theorem WalkedBack.cons {parent : Header}
    (h : WalkedBack c p tree env base parent snap path before) (hheader : header ∈ tree.known)
    (hnumber : header.number ≠ 0) (hlink : c.hashSlow parent = header.parentHash)
    (hnone : (base.snapshotByHash env.outside (c.hashSlow parent)).1 = none) :
    WalkedBack c p tree env base header snap (parent :: path) before where
  ancestry := .block hheader hnumber hlink h.ancestry
  snapshot := h.snapshot
  missing := by
    intro block hmem
    rcases List.mem_cons.mp hmem with rfl | hmem
    · exact hnone
    · exact h.missing block hmem

/-- Every outcome of a walk leaves the provider sound. -/
theorem walkBack_sound (henv : env.Faithful tree) {n : Nat} {parentHash : B256}
    {hashes : List B256} (hbase : Sound c p tree base) :
    Sound c p tree (walkBack c p env n base parentHash hashes).2 := by
  induction n generalizing base parentHash hashes with
  | zero => exact hbase
  | succ n ih =>
    unfold walkBack
    cases hparent : env.getHeaderByHash parentHash with
    | none => exact hbase
    | some parent =>
      dsimp only
      cases hinit : initIfGenesis c p env base parent with
      | none => exact hbase
      | some base₁ =>
        have hsound := initIfGenesis_sound (henv _ _ hparent).1 hbase hinit
        have hquery : Sound c p tree (base₁.snapshotByHash env.outside parentHash).2 :=
          hsound.snapshotByHash.1
        grind

/-- What a walk from a header of the tree returns. -/
theorem walkBack_eq_ok (henv : env.Faithful tree) {n : Nat} {hashes hashes' : List B256}
    (hbase : Sound c p tree base) (hheader : header ∈ tree.known)
    (h : (walkBack c p env n base header.parentHash hashes).1 = .ok (snap, hashes')) :
    ∃ path before, WalkedBack c p tree env base header snap path before ∧
      hashes' = (path.map c.hashSlow).reverse ++ hashes := by
  induction n generalizing base header hashes with
  | zero => exact absurd h (by simp [walkBack])
  | succ n ih =>
    unfold walkBack at h
    cases hparent : env.getHeaderByHash header.parentHash with
    | none => exact absurd h (by simp [hparent])
    | some parent =>
      obtain ⟨hknown, hlink⟩ := henv _ _ hparent
      -- a block 0 has no parent to be found
      have hnumber : header.number ≠ 0 := fun hzero => tree.root header hheader hzero _ hknown hlink
      rw [hparent] at h
      dsimp only at h
      cases hinit : initIfGenesis c p env base parent with
      | none => exact absurd h (by simp [hinit])
      | some base₁ =>
        have hsound := initIfGenesis_sound hknown hbase hinit
        rw [hinit] at h
        dsimp only at h
        split at h
        · next snap₁ base₂ heq =>
          cases h
          obtain ⟨ancestor, before, hancestry, hhash, hsnap⟩ :=
            hsound.snapshotByHash.2 _ (congrArg Prod.fst heq)
          refine ⟨[], ancestor :: before, ⟨?_, hsnap, by simp⟩, rfl⟩
          exact .block hheader hnumber hhash hancestry
        · next base₂ heq =>
          have hnone : (base₁.snapshotByHash env.outside header.parentHash).1 = none :=
            congrArg Prod.fst heq
          have hbase₂ : base₂ = base₁ :=
            (congrArg Prod.snd heq).symm.trans (DbSnapshotProvider.snapshotByHash_of_none hnone)
          subst hbase₂
          obtain ⟨path, before, hwalk, hhashes⟩ := ih hsound hknown h
          -- the parent has an ancestor, so it is not a block 0 and nothing was inserted
          obtain rfl := initIfGenesis_of_ne_zero hwalk.number_ne_zero hinit
          refine ⟨parent :: path, before, hwalk.cons hheader hnumber hlink (hlink ▸ hnone), ?_⟩
          rw [hhashes, List.map_cons, List.reverse_cons, List.append_assoc, hlink]
          rfl

/-! ## The replay -/

/-- A turn of the replay depends on the number index through the checkpoint of a switch block. -/
theorem replayHeader_congr {f g : UInt64 → Option Header}
    (hfg : IsSwitchBlock snap header → ∀ checkpoint,
      f (checkpointNumber snap header) = some checkpoint →
      g (checkpointNumber snap header) = some checkpoint)
    (h : replayHeader c p f snap header = .ok snap') :
    replayHeader c p g snap header = .ok snap' := by
  obtain ⟨info, hinfo, h⟩ := bind_eq_ok.mp h
  refine bind_eq_ok.mpr ⟨info, ?_, h⟩
  unfold checkpointInfo at hinfo ⊢
  split
  · next hzero => simp [hzero] at hinfo
  · next hzero =>
    rw [if_neg hzero] at hinfo
    split
    · next hswitch =>
      rw [if_pos hswitch] at hinfo
      obtain ⟨checkpoint, hfound, hinfo⟩ := bind_eq_ok.mp hinfo
      have hfound' := hfg hswitch checkpoint (okOr_eq_ok.mp hfound)
      exact bind_eq_ok.mpr ⟨checkpoint, okOr_eq_ok.mpr hfound', hinfo⟩
    · next hswitch => rwa [if_neg hswitch] at hinfo

/-- One turn of the replay, against the fold. -/
theorem replayHeader_eq_fold (hbefore : ancestrySnapshot c p before = .ok snap)
    (hagree : CheckpointAgrees c p header before env.getHeaderByNumber)
    (h : replayHeader c p env.getHeaderByNumber snap header = .ok snap') :
    ancestrySnapshot c p (header :: before) = .ok snap' := by
  cases before with
  | nil => exact absurd hbefore (by simp [ancestrySnapshot])
  | cons parent before =>
    have hstep := replayHeader_congr
      (fun hswitch checkpoint => hagree snap checkpoint hbefore hswitch) h
    exact bind_eq_ok.mpr ⟨snap, hbefore, hstep⟩

/-- **The replay is the fold.**  It replays the blocks `rest`, the oldest first, on the snapshot of
`before`.  The induction moves one block from `rest` to `before`. -/
theorem replay_spec (henv : env.Faithful tree) {rest : List Header}
    (hbase : Sound c p tree base) (hbefore : ancestrySnapshot c p before = .ok snap)
    (hchain : Ancestry tree (rest.reverse ++ before))
    (hagree : ∀ done header todo, rest = done ++ header :: todo →
      CheckpointAgrees c p header (done.reverse ++ before) env.getHeaderByNumber) :
    Sound c p tree (replay c p env (rest.map c.hashSlow) base snap).2 ∧
      ∀ snap', (replay c p env (rest.map c.hashSlow) base snap).1 = .ok snap' →
        ancestrySnapshot c p (rest.reverse ++ before) = .ok snap' := by
  induction rest generalizing base before snap with
  | nil => exact ⟨hbase, fun snap' h => ok.inj h ▸ hbefore⟩
  | cons header rest ih =>
    rw [List.reverse_cons, List.append_assoc, List.singleton_append] at hchain ⊢
    have hancestry : Ancestry tree (header :: before) := hchain.of_append
    rw [List.map_cons]
    unfold replay
    cases hfound : env.getHeaderByHash (c.hashSlow header) with
    | none => exact ⟨hbase, fun snap' h => absurd h (by simp)⟩
    | some found =>
      obtain ⟨hknown, hhash⟩ := henv _ _ hfound
      obtain rfl : found = header := tree.hash_injOn hknown hancestry.head_mem hhash
      dsimp only
      cases hreplay : replayHeader c p env.getHeaderByNumber snap found with
      | err e => exact ⟨hbase, fun snap' h => absurd h (by simp)⟩
      | panic => exact ⟨hbase, fun snap' h => absurd h (by simp)⟩
      | ok snap₁ =>
        have hfold : ancestrySnapshot c p (found :: before) = .ok snap₁ :=
          replayHeader_eq_fold hbefore (hagree [] found rest rfl) hreplay
        have hright : IsSnapshotOf c p tree snap₁.blockHash snap₁ :=
          ⟨found, before, hancestry, (replayHeader_blockHash hreplay).symm, hfold⟩
        have hcached := hbase.insertCacheOnly hright
        have hagree' : ∀ done header todo, rest = done ++ header :: todo →
            CheckpointAgrees c p header (done.reverse ++ found :: before)
              env.getHeaderByNumber := by
          intro done header todo hrest
          have hnext := hagree (found :: done) header todo (by rw [hrest, List.cons_append])
          rwa [List.reverse_cons, List.append_assoc, List.singleton_append] at hnext
        dsimp only
        split
        · -- a checkpoint goes to the database before the next turn
          cases hpersist : (base.insertCacheOnly snap₁).persistToDb env.outside snap₁ with
          | none => exact ⟨hcached, fun snap' h => absurd h (by simp)⟩
          | some base₁ => exact ih (hcached.persistToDb hright hpersist) hfold hchain hagree'
        · exact ih hcached hfold hchain hagree'

/-! ## One query -/

/-- The hashes that a walk collects, oldest first. -/
theorem reverse_map_append {hashSlow : Header → B256} :
    (path.map hashSlow).reverse ++ [hashSlow header] = (header :: path).reverse.map hashSlow := by
  rw [List.reverse_cons, List.map_append, List.map_reverse]
  rfl

/-- The blocks of the replay are those of the walk, turned around, and none of them has a
snapshot: so the number index agrees for each. -/
theorem IndexAgrees.along_path (hagree : IndexAgrees p tree env base (c.hashSlow header))
    (hpath : WalkedBack c p tree env base header snap path before)
    (hmissing : (base.snapshotByHash env.outside (c.hashSlow header)).1 = none) :
    ∀ done block todo, (header :: path).reverse = done ++ block :: todo →
      CheckpointAgrees c p block (done.reverse ++ before) env.getHeaderByNumber := by
  intro done block todo hsplit
  have hsplit : header :: path = todo.reverse ++ block :: done.reverse := by
    rw [← List.reverse_reverse (header :: path), hsplit]
    simp
  refine hagree header (path ++ before) hpath.ancestry rfl todo.reverse block
    (done.reverse ++ before) ?_ ?_
  · rw [← List.cons_append, hsplit]
    simp
  · intro h hmem
    have hmem : h ∈ header :: path := by grind
    rcases List.mem_cons.mp hmem with rfl | hmem
    · exact hmissing
    · exact hpath.missing h hmem

theorem tryRebuild_spec (henv : env.Faithful tree) {fuel : Nat} (hbase : Sound c p tree base)
    (hheader : header ∈ tree.known)
    (hmissing : (base.snapshotByHash env.outside (c.hashSlow header)).1 = none)
    (hagree : IndexAgrees p tree env base (c.hashSlow header)) :
    Sound c p tree (tryRebuild c p env fuel base header).2 ∧
      ∀ snap, (tryRebuild c p env fuel base header).1 = .ok snap →
        IsSnapshotOf c p tree (c.hashSlow header) snap := by
  unfold tryRebuild
  have hsound : Sound c p tree
      (walkBack c p env fuel base header.parentHash [c.hashSlow header]).2 :=
    walkBack_sound henv hbase
  split
  · next snap hashes base₁ hwalk =>
    rw [hwalk] at hsound
    obtain ⟨path, before, hpath, rfl⟩ :=
      walkBack_eq_ok henv hbase hheader (congrArg Prod.fst hwalk)
    have hchain : Ancestry tree ((header :: path).reverse.reverse ++ before) := by
      rw [List.reverse_reverse]
      exact hpath.ancestry
    rw [reverse_map_append]
    obtain ⟨hsound, hfold⟩ := replay_spec henv hsound hpath.snapshot hchain
      (hagree.along_path hpath hmissing)
    refine ⟨hsound, fun snap' h => ⟨header, path ++ before, hpath.ancestry, rfl, ?_⟩⟩
    have hsnap := hfold snap' h
    rwa [List.reverse_reverse] at hsnap
  · simp_all
  · simp_all

/-- **The step.**  If the number index agrees, a query keeps the provider sound and returns the
snapshot of the block asked for, if it returns one. -/
theorem snapshotByHash_spec (henv : env.Faithful tree) {fuel : Nat} (hbase : Sound c p tree base)
    (hagree : IndexAgrees p tree env base blockHash) :
    Sound c p tree (snapshotByHash c p env fuel base blockHash).2 ∧
      ∀ snap, (snapshotByHash c p env fuel base blockHash).1 = .ok snap →
        IsSnapshotOf c p tree blockHash snap := by
  have hquery : Sound c p tree (base.snapshotByHash env.outside blockHash).2 ∧ _ :=
    hbase.snapshotByHash
  unfold snapshotByHash
  split
  · next snap base₁ hhit =>
    rw [hhit] at hquery
    exact ⟨hquery.1, fun snap' h => hquery.2 snap' (congrArg some (ok.inj h))⟩
  · next base₁ hmiss =>
    have hnone : (base.snapshotByHash env.outside blockHash).1 = none := congrArg Prod.fst hmiss
    obtain rfl : base₁ = base := (congrArg Prod.snd hmiss).symm.trans
      (DbSnapshotProvider.snapshotByHash_of_none hnone)
    cases hfound : env.getHeaderByHash blockHash with
    | none => exact ⟨hbase, fun snap' h => absurd h (by simp)⟩
    | some target =>
      obtain ⟨hknown, rfl⟩ := henv _ _ hfound
      dsimp only
      split
      · next hnumber => exact initGenesisSnapshot_spec hknown hnumber hbase
      · have hrebuild : Sound c p tree (tryRebuild c p env fuel base₁ target).2 ∧ _ :=
          tryRebuild_spec henv hbase hknown hnone hagree
        split
        · next snap base₂ heq =>
          rw [heq] at hrebuild
          have hright := hrebuild.2 snap rfl
          have hhash : snap.blockHash = c.hashSlow target := hright.blockHash_eq
          refine ⟨hrebuild.1.insert (hhash ▸ hright), fun snap' h => ?_⟩
          exact ok.inj h ▸ hright
        · exact hrebuild

/-! ## A query on a fresh provider

Without snapshots to start from the walk goes down to genesis.  The answer is then known whatever
the number index holds: it is the replay of all ancestors, with the checkpoints of the index. -/

section Fresh

variable {genesis target : Header} {path : List Header}

theorem replay_fst {rest : List Header}
    (hfinds : ∀ h ∈ rest, env.getHeaderByHash (c.hashSlow h) = some h)
    (hwrites : ∀ blockHash, env.outside.dbWrites blockHash = true) :
    (replay c p env (rest.map c.hashSlow) base snap).1
      = rest.foldlM (replayHeader c p env.getHeaderByNumber) snap := by
  induction rest generalizing base snap with
  | nil => rfl
  | cons header rest ih =>
    have hrest : ∀ base snap, (replay c p env (rest.map c.hashSlow) base snap).1 = _ :=
      fun base snap => ih fun h hmem => hfinds h (List.mem_cons_of_mem _ hmem)
    rw [List.map_cons, List.foldlM_cons]
    rw [replay, hfinds header List.mem_cons_self]
    dsimp only
    cases replayHeader c p env.getHeaderByNumber snap header with
    | err e => rfl
    | panic => rfl
    | ok snap =>
      rw [ok_bind]
      dsimp only [DbSnapshotProvider.persistToDb]
      rw [if_pos (hwrites snap.blockHash)]
      split
      · exact hrest _ _
      · exact hrest _ _

/-- The genesis snapshot is found where it was inserted. -/
theorem snapshotByHash_insert :
    (base.insert outside snap).snapshotByHash outside snap.blockHash
      = (some snap, base.insert outside snap) := by
  have hcache : (base.insert outside snap).cacheByHash.lookup snap.blockHash = some snap := by
    unfold DbSnapshotProvider.insert DbSnapshotProvider.persistToDb
    dsimp only
    split
    · split <;> exact AList.lookup_insert _
    · exact AList.lookup_insert _
  rw [DbSnapshotProvider.snapshotByHash, hcache]

theorem walkBack_new (hchain : Ancestry tree (header :: (path ++ [genesis])))
    (hfinds : ∀ h ∈ path ++ [genesis], env.getHeaderByHash (c.hashSlow h) = some h)
    (hgenesis : genesisSnapshot c p genesis = .ok snap) {n : Nat} (hn : path.length < n)
    {hashes : List B256} :
    walkBack c p env n .new header.parentHash hashes
      = (.ok (snap, (path.map c.hashSlow).reverse ++ hashes),
        DbSnapshotProvider.new.insert env.outside snap) := by
  induction path generalizing header n hashes with
  | nil =>
    obtain ⟨n, rfl⟩ : ∃ m, n = m + 1 := ⟨n - 1, by simp at hn; omega⟩
    rw [List.nil_append] at hchain
    cases hchain with
    | block _ _ hlink hroot =>
      cases hroot with
      | root _ hnumber =>
        rw [walkBack, ← hlink, hfinds genesis (by simp)]
        dsimp only
        rw [initIfGenesis, if_pos hnumber, initGenesisSnapshot, hgenesis]
        dsimp only
        rw [← genesisSnapshot_blockHash hgenesis, snapshotByHash_insert]
        rfl
  | cons parent path ih =>
    obtain ⟨n, rfl⟩ : ∃ m, n = m + 1 := ⟨n - 1, by simp at hn; omega⟩
    rw [List.cons_append] at hchain
    cases hchain with
    | block _ _ hlink hancestry =>
      have hnumber : parent.number ≠ 0 := hancestry.number_ne_zero (by simp)
      rw [walkBack, ← hlink, hfinds parent (by simp)]
      dsimp only
      rw [initIfGenesis, if_neg hnumber]
      dsimp only
      rw [DbSnapshotProvider.snapshotByHash_new_eq]
      dsimp only
      rw [ih hancestry (fun h hmem => hfinds h (List.mem_cons_of_mem _ hmem))
        (by simpa using hn), List.map_cons, List.reverse_cons, List.append_assoc]
      rfl

/-- The answer of a fresh provider whose header cache has every ancestor of the target. -/
theorem snapshotByHash_new (hchain : Ancestry tree (target :: (path ++ [genesis])))
    (hfinds : ∀ h ∈ target :: (path ++ [genesis]), env.getHeaderByHash (c.hashSlow h) = some h)
    (hwrites : ∀ blockHash, env.outside.dbWrites blockHash = true)
    (hgenesis : genesisSnapshot c p genesis = .ok snap) {fuel : Nat} (hfuel : path.length < fuel) :
    (snapshotByHash c p env fuel .new (c.hashSlow target)).1
      = (target :: path).reverse.foldlM (replayHeader c p env.getHeaderByNumber) snap := by
  have hnumber : target.number ≠ 0 := hchain.number_ne_zero (by simp)
  have hwalk : walkBack c p env fuel .new target.parentHash [c.hashSlow target] = _ :=
    walkBack_new hchain (fun h hmem => hfinds h (List.mem_cons_of_mem _ hmem)) hgenesis hfuel
  unfold snapshotByHash tryRebuild
  rw [DbSnapshotProvider.snapshotByHash_new_eq, hfinds target List.mem_cons_self]
  dsimp only
  rw [if_neg hnumber, hwalk, reverse_map_append]
  dsimp only
  rw [← replay_fst (fun h hmem => hfinds h (by
    rw [List.mem_reverse] at hmem
    rw [← List.cons_append]
    exact List.mem_append_left _ hmem)) hwrites]
  split
  · next heq => rw [heq]
  · rfl

end Fresh

end RethBsc
