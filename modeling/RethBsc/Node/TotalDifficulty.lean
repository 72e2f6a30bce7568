import RethBsc.Node.ForkChoice
import RethBsc.Parlia.ForkChoiceOrder

/-!
# Total difficulties over time

The fork choice asks the execution engine for total difficulties and keeps the answers, also the
answer that a block is not known.  The execution engine learns blocks in the meantime.

* `TdState` is the fork choice engine together with what the execution engine knows, `TdEvent` a
  lookup or a block that becomes known, and `TdState.run` any interleaving of them.
* `TdState.Sound`: a total difficulty in the cache is the one the execution engine knows.  Every
  event keeps it (`Sound.step`), so the only wrong answer of the cache is a missing one.
* `fresh_iff_servable`: a lookup gives the present answer unless the cache holds a missing answer
  for a block that has become known.  The difficulty of the parent is used only when the
  execution engine fails, so a block it does not know yet has none.
-/

namespace RethBsc

open Rust

namespace BscForkChoiceEngine

/-! ## Events -/

/-- The same surroundings with an execution engine that knows these total difficulties. -/
def answering (io : Surroundings) (known : B256 → Option Nat) : Surroundings :=
  { io with queryTd := fun _ hash => .ok (known hash) }

structure TdState where
  engine : BscForkChoiceEngine
  /-- The total difficulties of the blocks that the execution engine has learnt. -/
  known : B256 → Option Nat

inductive TdEvent where
  | learn (hash : B256) (td : Nat)
  | headerTd (number : UInt64) (hash : B256)
  | headerTdFcu (incoming current : Header)

namespace TdState

variable (hashSlow : Header → B256) (io : Surroundings)

/-- A block is learnt once; its total difficulty does not change afterwards. -/
def step (s : TdState) : TdEvent → TdState
  | .learn hash td =>
    { s with known := fun h => if h = hash then some ((s.known hash).getD td) else s.known h }
  | .headerTd number hash =>
    { s with engine := (BscForkChoiceEngine.headerTd (answering io s.known) number hash s.engine).2 }
  | .headerTdFcu incoming current =>
    { s with engine := (BscForkChoiceEngine.headerTdFcu hashSlow (answering io s.known)
        incoming current s.engine).2 }

def run (s : TdState) (events : List TdEvent) : TdState := events.foldl (step hashSlow io) s

/-- An engine that has been asked nothing. -/
def start (known : B256 → Option Nat) : TdState := ⟨BscForkChoiceEngine.new, known⟩

/-! ## Fresh answers -/

/-- The total difficulty of a block: the one known, or that of the parent and its own difficulty. -/
def expectedTd (s : TdState) (incoming : Header) : Option Nat :=
  match s.known (hashSlow incoming) with
  | some td => some td
  | none => (s.known incoming.parentHash).map fun td => (td + incoming.difficulty) % 2 ^ 256

/-- The event is answered by what the execution engine knows at this time. -/
def Fresh (s : TdState) : TdEvent → Prop
  | .learn _ _ => True
  | .headerTd number hash =>
    (BscForkChoiceEngine.headerTd (answering io s.known) number hash s.engine).1
      = .ok (s.known hash)
  | .headerTdFcu incoming current =>
    (BscForkChoiceEngine.headerTdFcu hashSlow (answering io s.known) incoming current s.engine).1
      = .ok (s.expectedTd hashSlow incoming, s.known (hashSlow current))

/-- The cache holds a missing answer for a block that is known by now. -/
def Stale (s : TdState) (hash : B256) : Prop :=
  s.engine.headerTdCache.find hash = some none ∧ (s.known hash).isSome

/-- Nothing that the event asks for is stale, and an incoming block is known if its parent is.  The
lookup of the current head comes first and can drop an entry of the cache. -/
def Servable (s : TdState) : TdEvent → Prop
  | .learn _ _ => True
  | .headerTd _ hash => ¬ s.Stale hash
  | .headerTdFcu incoming current =>
    ¬ s.Stale (hashSlow current) ∧
    ¬ (s.step hashSlow io (.headerTd current.number (hashSlow current))).Stale (hashSlow incoming) ∧
    ((s.known incoming.parentHash).isSome → (s.known (hashSlow incoming)).isSome)

/-- The blocks that the event asks for are known. -/
def AsksKnown (s : TdState) : TdEvent → Prop
  | .learn _ _ => True
  | .headerTd _ hash => (s.known hash).isSome
  | .headerTdFcu incoming current =>
    (s.known (hashSlow incoming)).isSome ∧ (s.known (hashSlow current)).isSome

/-- Every total difficulty in the cache is the one that is known. -/
def Sound (s : TdState) : Prop :=
  ∀ hash td, (hash, some td) ∈ s.engine.headerTdCache.entries → s.known hash = some td

end TdState

/-! ## One lookup -/

variable {hashSlow : Header → B256} {io : Surroundings} {s : TdState} {number : UInt64}
  {hash : B256}

/-- A lookup never fails: the cache answers, or the execution engine does. -/
theorem headerTd_answering (io : Surroundings) (known : B256 → Option Nat) (number : UInt64)
    (hash : B256) (engine : BscForkChoiceEngine) :
    headerTd (answering io known) number hash engine
      = (.ok ((engine.headerTdCache.find hash).getD (known hash)),
        (headerTd (answering io known) number hash engine).2) := by
  refine Prod.ext ?_ rfl
  rw [headerTd, ← LruMap.get_fst]
  rcases engine.headerTdCache.get hash with ⟨_ | td, cache⟩
  · rfl
  · rfl

/-- A lookup adds at most the present answer to the cache. -/
theorem mem_of_mem_headerTd {known : B256 → Option Nat} {engine : BscForkChoiceEngine}
    {e : B256 × Option Nat}
    (he : e ∈ (headerTd (answering io known) number hash engine).2.headerTdCache.entries) :
    e = (hash, known hash) ∨ e ∈ engine.headerTdCache.entries := by
  unfold headerTd at he
  have hget : ∀ x ∈ (engine.headerTdCache.get hash).2.entries, x ∈ engine.headerTdCache.entries :=
    fun _ => LruMap.mem_of_mem_get
  rcases hcache : engine.headerTdCache.get hash with ⟨_ | td, cache⟩
  · rw [hcache] at he hget
    rcases LruMap.mem_of_mem_insert he with h | h
    · exact .inl h
    · exact .inr (hget e h)
  · rw [hcache] at he hget
    exact .inr (hget e he)

/-- The two lookups of a fork choice update, the current head first.  Neither fails, so the parent
is not asked for. -/
theorem headerTdFcu_answering (known : B256 → Option Nat) (engine : BscForkChoiceEngine)
    (incoming current : Header) :
    headerTdFcu hashSlow (answering io known) incoming current engine =
      let r := headerTd (answering io known) current.number (hashSlow current) engine
      (.ok ((r.2.headerTdCache.find (hashSlow incoming)).getD (known (hashSlow incoming)),
        (engine.headerTdCache.find (hashSlow current)).getD (known (hashSlow current))),
        (headerTd (answering io known) incoming.number (hashSlow incoming) r.2).2) := by
  rw [headerTdFcu, bind_run, headerTd_answering]
  dsimp only
  rw [bind_run, tryCatch_run, headerTd_answering]
  rfl

/-! ## Invariant -/

namespace TdState

theorem sound_start (known : B256 → Option Nat) : (start known).Sound :=
  fun _ _ h => absurd h List.not_mem_nil

theorem Sound.headerTd (hs : s.Sound) (number : UInt64) (hash : B256) :
    (s.step hashSlow io (.headerTd number hash)).Sound := by
  intro h td hmem
  rcases mem_of_mem_headerTd hmem with heq | hold
  · obtain ⟨rfl, htd⟩ := Prod.mk.inj heq
    exact htd.symm
  · exact hs h td hold

/-- A fork choice update is a lookup of the current head and one of the incoming block. -/
theorem step_headerTdFcu (s : TdState) (incoming current : Header) :
    s.step hashSlow io (.headerTdFcu incoming current)
      = (s.step hashSlow io (.headerTd current.number (hashSlow current))).step hashSlow io
          (.headerTd incoming.number (hashSlow incoming)) := by
  show TdState.mk (headerTdFcu hashSlow (answering io s.known) incoming current s.engine).2 _ = _
  rw [headerTdFcu_answering]
  rfl

theorem Sound.step (hs : s.Sound) (event : TdEvent) : (s.step hashSlow io event).Sound := by
  cases event with
  | learn hash td =>
    intro h td' hmem
    have hknown := hs h td' hmem
    show (if h = hash then some ((s.known hash).getD td) else s.known h) = some td'
    -- what was known already stays as it was
    grind
  | headerTd number hash => exact hs.headerTd number hash
  | headerTdFcu incoming current =>
    rw [step_headerTdFcu]
    exact (hs.headerTd _ _).headerTd _ _

theorem Sound.run (hs : s.Sound) (events : List TdEvent) : (s.run hashSlow io events).Sound := by
  induction events generalizing s with
  | nil => exact hs
  | cons event events ih => exact ih (hs.step event)

/-! ## When an answer is fresh -/

/-- In a sound state the cache is wrong exactly about stale blocks. -/
theorem Sound.cached_eq_iff (hs : s.Sound) :
    (s.engine.headerTdCache.find hash).getD (s.known hash) = s.known hash ↔ ¬ s.Stale hash := by
  unfold Stale
  cases hfind : s.engine.headerTdCache.find hash with
  | none => simp
  | some cached =>
    cases cached with
    | none =>
      show none = s.known hash ↔ _
      cases s.known hash <;> simp
    | some td =>
      have hknown := hs hash td (LruMap.mem_of_find hfind)
      simp [hknown]

variable {incoming : Header} {event : TdEvent}

/-- The parent plays a part when it is known and the block is not. -/
theorem expectedTd_eq_known_iff :
    s.expectedTd hashSlow incoming = s.known (hashSlow incoming) ↔
      ((s.known incoming.parentHash).isSome → (s.known (hashSlow incoming)).isSome) := by
  unfold expectedTd
  cases s.known (hashSlow incoming) with
  | some td => simp
  | none => cases s.known incoming.parentHash <;> simp

/-- The incoming block, after the lookup of the current head. -/
theorem Sound.incoming_eq_iff (hs : s.Sound) :
    (s.engine.headerTdCache.find (hashSlow incoming)).getD (s.known (hashSlow incoming))
        = s.expectedTd hashSlow incoming ↔
      ¬ s.Stale (hashSlow incoming) ∧
        ((s.known incoming.parentHash).isSome → (s.known (hashSlow incoming)).isSome) := by
  rw [← expectedTd_eq_known_iff, ← hs.cached_eq_iff]
  refine ⟨fun h => ?_, fun ⟨hcached, hexpected⟩ => hcached.trans hexpected.symm⟩
  cases hknown : s.known (hashSlow incoming) with
  | some td =>
    -- a block that is known is expected to have the difficulty known
    have hexpected : s.expectedTd hashSlow incoming = some td := by rw [expectedTd, hknown]
    rw [hknown] at h
    exact ⟨h.trans hexpected, hexpected⟩
  | none =>
    -- no answer in the cache can be about a block that is not known
    have hcached := hs.cached_eq_iff.mpr (fun hstale : s.Stale (hashSlow incoming) =>
      absurd hstale.2 (by simp [hknown]))
    simp_all

theorem Sound.fresh_iff (hs : s.Sound) (event : TdEvent) :
    s.Fresh hashSlow io event ↔ s.Servable hashSlow io event := by
  cases event with
  | learn hash td => exact .rfl
  | headerTd number hash =>
    show (BscForkChoiceEngine.headerTd _ number hash s.engine).1 = _ ↔ ¬ s.Stale hash
    rw [headerTd_answering, Except.ok.injEq]
    exact hs.cached_eq_iff
  | headerTdFcu incoming current =>
    have hnext : (s.step hashSlow io (.headerTd current.number (hashSlow current))).Sound :=
      hs.headerTd _ _
    show (headerTdFcu _ _ incoming current s.engine).1 = _ ↔ _ ∧ _ ∧ _
    rw [headerTdFcu_answering, Except.ok.injEq, Prod.mk.injEq, hs.cached_eq_iff, and_comm]
    exact and_congr_right fun _ => hnext.incoming_eq_iff

/-! ## Runs that ask for known blocks only -/

/-- Every event of the run asks for blocks that are known at its time. -/
def AsksKnownAlong (hashSlow : Header → B256) (io : Surroundings) : TdState → List TdEvent → Prop
  | _, [] => True
  | s, event :: events =>
    s.AsksKnown hashSlow event ∧ AsksKnownAlong hashSlow io (s.step hashSlow io event) events

/-- No missing answer has been kept. -/
def NoneMissing (s : TdState) : Prop := ∀ hash, (hash, none) ∉ s.engine.headerTdCache.entries

theorem NoneMissing.not_stale (hs : s.NoneMissing) : ¬ s.Stale hash :=
  fun hstale => hs hash (LruMap.mem_of_find hstale.1)

theorem NoneMissing.headerTd (hs : s.NoneMissing) (number : UInt64) (hknown : (s.known hash).isSome) :
    (s.step hashSlow io (.headerTd number hash)).NoneMissing := by
  intro h hmem
  rcases mem_of_mem_headerTd hmem with heq | hold
  · rw [← (Prod.mk.inj heq).2] at hknown
    simp at hknown
  · exact hs h hold

theorem NoneMissing.step (hs : s.NoneMissing)
    (hasks : s.AsksKnown hashSlow event) : (s.step hashSlow io event).NoneMissing := by
  cases event with
  | learn hash td => exact hs
  | headerTd number hash => exact hs.headerTd number hasks
  | headerTdFcu incoming current =>
    rw [step_headerTdFcu]
    exact (hs.headerTd current.number hasks.2).headerTd incoming.number hasks.1

theorem NoneMissing.run (hs : s.NoneMissing) {events : List TdEvent}
    (hasks : s.AsksKnownAlong hashSlow io (events ++ [event])) :
    (s.run hashSlow io events).NoneMissing ∧
      (s.run hashSlow io events).AsksKnown hashSlow event := by
  induction events generalizing s with
  | nil => exact ⟨hs, hasks.1⟩
  | cons first events ih => exact ih (hs.step hasks.1) hasks.2

theorem NoneMissing.servable (hs : s.NoneMissing)
    (hasks : s.AsksKnown hashSlow event) : s.Servable hashSlow io event := by
  cases event with
  | learn hash td => trivial
  | headerTd number hash => exact hs.not_stale
  | headerTdFcu incoming current =>
    exact ⟨hs.not_stale, (hs.headerTd current.number hasks.2).not_stale, fun _ => hasks.1⟩

/-! ## The decision -/

/-- With both total difficulties at hand the fork choice decides. -/
theorem isNeedReorg_of_headerTdFcu {spec : ChainSpec} {engine : BscForkChoiceEngine}
    {current : Header} {incomingTd currentTd : Nat}
    (h : (BscForkChoiceEngine.headerTdFcu hashSlow io incoming current engine).1
      = .ok (some incomingTd, some currentTd)) :
    ∃ needReorg, (BscForkChoiceEngine.isNeedReorg hashSlow spec io incoming current engine).1
      = .ok needReorg := by
  rw [BscForkChoiceEngine.isNeedReorg, bind_run]
  rcases hrun : BscForkChoiceEngine.headerTdFcu hashSlow io incoming current engine with ⟨r, engine'⟩
  rw [hrun] at h
  obtain rfl : r = _ := h
  show ∃ needReorg, BscForkChoiceRule.isNeedReorg _ _ _ _ _ = .ok needReorg
  unfold BscForkChoiceRule.isNeedReorg
  split
  · exact ⟨_, rfl⟩
  · unfold BscForkChoiceRule.headChoiceWithTd
    dsimp only
    split
    · exact ⟨_, rfl⟩
    · split
      · exact ⟨_, rfl⟩
      · exact ⟨_, rfl⟩

/-- **When lookups are fresh.**  After any interleaving, a lookup gives the present answer exactly
when it is servable; then a child of a known block can be compared with a known head.  In a run
that asks for known blocks only, every lookup is. -/
theorem fresh_iff_servable (hashSlow : Header → B256) (io : Surroundings)
    (known : B256 → Option Nat) (events : List TdEvent) (event : TdEvent) :
    (((start known).run hashSlow io events).Fresh hashSlow io event ↔
      ((start known).run hashSlow io events).Servable hashSlow io event) ∧
    (∀ spec incoming current s, s = (start known).run hashSlow io events →
      s.Servable hashSlow io (.headerTdFcu incoming current) →
      (s.known incoming.parentHash).isSome → (s.known (hashSlow current)).isSome →
      ∃ needReorg, (isNeedReorg hashSlow spec (answering io s.known) incoming current s.engine).1
        = .ok needReorg) ∧
    ((start known).AsksKnownAlong hashSlow io (events ++ [event]) →
      ((start known).run hashSlow io events).Fresh hashSlow io event) := by
  have hsound : ((start known).run hashSlow io events).Sound := (sound_start known).run events
  refine ⟨hsound.fresh_iff event, fun spec incoming current s hs hservable hparent hcurrent => ?_,
    fun hasks => ?_⟩
  · rw [← hs] at hsound
    obtain ⟨td, htd⟩ := Option.isSome_iff_exists.mp (hservable.2.2 hparent)
    obtain ⟨currentTd, hcurrentTd⟩ := Option.isSome_iff_exists.mp hcurrent
    have hfresh : (headerTdFcu hashSlow (answering io s.known) incoming current s.engine).1
        = .ok (s.expectedTd hashSlow incoming, s.known (hashSlow current)) :=
      (hsound.fresh_iff (.headerTdFcu incoming current)).mpr hservable
    rw [expectedTd_eq_known_iff.mpr hservable.2.2, htd, hcurrentTd] at hfresh
    exact isNeedReorg_of_headerTdFcu hfresh
  · have hmissing : (start known).NoneMissing := fun _ => List.not_mem_nil
    obtain ⟨hrun, hevent⟩ := hmissing.run hasks
    exact (hsound.fresh_iff event).mpr (hrun.servable hevent)

/-! ### Blocks asked for too early -/

/-- Nothing but the execution engine answers. -/
def silentSurroundings : Surroundings where
  bestNumber := .error ""
  headerByNumber _ := .error ""
  snapshotProvider := none
  queryTd _ _ := .ok none
  forkChoiceUpdated _ := .error ""
  coin := false

def childHeader : Header :=
  { (default : Header) with number := 2, parentHash := b256OfUInt64 1, difficulty := 2 }

/-- The execution engine knows block 1, with a total difficulty of 5. -/
def blockOneKnown (h : B256) : Option Nat := if h = b256OfUInt64 1 then some 5 else none

/-- The child of the known block 1 cannot be compared with it.  Once block 2 has been asked for, it
stays without a total difficulty after the execution engine has learnt it. -/
theorem asked_too_early :
    (isNeedReorg numberHash lubanSpec (answering silentSurroundings blockOneKnown) childHeader
        { childHeader with number := 1 } (start blockOneKnown).engine).1
      = .error (.unknownTotalDifficulty (b256OfUInt64 2) 2) ∧
    ∃ s, s = (start blockOneKnown).run numberHash silentSurroundings
        [.headerTd 2 (b256OfUInt64 2), .learn (b256OfUInt64 2) 7] ∧
      s.known (b256OfUInt64 2) = some 7 ∧
      (headerTd (answering silentSurroundings s.known) 2 (b256OfUInt64 2) s.engine).1 = .ok none ∧
      ¬ s.Fresh numberHash silentSurroundings (.headerTd 2 (b256OfUInt64 2)) := by
  refine ⟨by decide +kernel, _, rfl, by decide +kernel, by decide +kernel, ?_⟩
  show ¬ (headerTd _ _ _ _).1 = _
  decide +kernel

/-- Block 1 is asked for when it is known, and block 2 after it was learnt. -/
theorem asked_in_time :
    ((start blockOneKnown).run numberHash silentSurroundings
        [.headerTd 1 (b256OfUInt64 1), .learn (b256OfUInt64 2) 7]).Fresh numberHash
      silentSurroundings (.headerTd 2 (b256OfUInt64 2)) :=
  (fresh_iff_servable numberHash silentSurroundings blockOneKnown
    [.headerTd 1 (b256OfUInt64 1), .learn (b256OfUInt64 2) 7] (.headerTd 2 (b256OfUInt64 2))).2.2
    ⟨by show (blockOneKnown (b256OfUInt64 1)).isSome = true; decide, trivial, by
        show ((if b256OfUInt64 2 = b256OfUInt64 2 then some _ else none : Option Nat)).isSome = true
        rfl,
      trivial⟩

end TdState

/-! ## The head that is sent -/

/-- A header with its total difficulty and the justified number of its snapshot. -/
def candidate (hashSlow : Header → B256) (spec : ChainSpec) (io : Surroundings) (header : Header)
    (td : Option Nat) : HeaderForForkchoice :=
  ⟨header, td, ((getJustifiedNumberAndHash hashSlow spec io header).map Prod.fst).getD 0⟩

end BscForkChoiceEngine

end RethBsc
