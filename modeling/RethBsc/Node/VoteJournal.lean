import RethBsc.Parlia.Vote
import RethBsc.Rust.Map

/-!
# The vote journal

`src/node/vote_journal.rs`: the votes that the node has signed, on disk and in memory, and the
slashing rules that a new vote is checked against.

* `VoteDataLru` forgets the oldest target number when it is full.  `WellFormed` is its invariant and
  `Remembers.add` says which numbers it remembers after a new one.
* `underRules` may not return: the upper end of the forward window can be the largest `u64`
  (`none` when the fuel runs out).
* `writeVote` remembers a vote only after every file operation has succeeded.
-/

namespace RethBsc

open Rust

def maxRecentEntries : Nat := 512
def maliciousVoteSlashScope : UInt64 := 256
def upperLimitOfVoteBlockNumber : UInt64 := 11

/-! ## Votes by target number -/

/-- Vote data by target number; `order` is the order of arrival. -/
structure VoteDataLru where
  capacity : Nat
  order : List UInt64
  map : Map UInt64 VoteData
  deriving DecidableEq

namespace VoteDataLru

def new (capacity : Nat) : VoteDataLru := ⟨capacity, [], ∅⟩

variable (l : VoteDataLru) (key : UInt64) (value : VoteData)

/-- Drops the oldest key if there are too many. -/
def popFront : VoteDataLru :=
  if l.order.length > l.capacity then
    match l.order with
    | [] => l
    | old :: order => { l with order, map := l.map.erase old }
  else l

def add : VoteDataLru :=
  let l := if key ∈ l.map then l else { l with order := l.order ++ [key] }.popFront
  { l with map := l.map.insert key value }

def contains : Bool := key ∈ l.map

def get : Option VoteData := l.map.lookup key

/-- The map has the keys in `order`, each once and not too many. -/
structure WellFormed : Prop where
  nodup : l.order.Nodup
  mem : ∀ k, k ∈ l.map ↔ k ∈ l.order
  length : l.order.length ≤ l.capacity

/-- The latest of `keys`, which are the newest first, are in the map. -/
def Remembers (keys : List UInt64) : Prop := (keys.take l.capacity).reverse <:+ l.order

variable {l key value} {keys : List UInt64}

theorem wellFormed_new (capacity : Nat) : (new capacity).WellFormed :=
  ⟨List.nodup_nil, fun k => by simp [new], Nat.zero_le _⟩

theorem remembers_nil : l.Remembers [] := by
  rw [Remembers, List.take_nil, List.reverse_nil]
  exact List.nil_suffix

/-- What `add` does with a key that is already there. -/
theorem add_of_mem (hkey : key ∈ l.map) :
    l.add key value = { l with map := l.map.insert key value } := by
  rw [add, if_pos hkey]

variable (value) in
/-- What `add` does with a new key: it comes last, and if the map was full the first one goes. -/
theorem add_of_notMem (h : l.WellFormed) (hkey : key ∉ l.map) :
    (l.order.length < l.capacity ∧ l.add key value =
      { l with order := l.order ++ [key], map := l.map.insert key value }) ∨
    ∃ old order, l.order ++ [key] = old :: order ∧ order.length = l.capacity ∧
      l.add key value = { l with order, map := (l.map.erase old).insert key value } := by
  have hlength := h.length
  rw [add, if_neg hkey]
  unfold popFront
  dsimp only
  rw [List.length_append, List.length_singleton]
  split
  · next hfull =>
    refine .inr ?_
    cases horder : l.order ++ [key] with
    | nil => simp at horder
    | cons old order =>
      have := congrArg List.length horder
      simp only [List.length_append, List.length_cons, List.length_nil] at this
      exact ⟨old, order, rfl, by omega, rfl⟩
  · exact .inl ⟨by omega, rfl⟩

theorem mem_of_mem_add {k : UInt64} (h : k ∈ (l.add key value).map) : k = key ∨ k ∈ l.map := by
  refine ((AList.mem_insert _).mp h).imp_right fun hmem => ?_
  unfold popFront at hmem
  grind [AList.mem_erase]

@[simp] theorem capacity_add (h : l.WellFormed) : (l.add key value).capacity = l.capacity := by
  by_cases hkey : key ∈ l.map
  · rw [add_of_mem hkey]
  · rcases add_of_notMem value h hkey with ⟨-, heq⟩ | ⟨_, _, -, -, heq⟩ <;> rw [heq]

theorem WellFormed.add (h : l.WellFormed) (hcap : 0 < l.capacity) :
    (l.add key value).WellFormed := by
  by_cases hkey : key ∈ l.map
  · rw [add_of_mem hkey]
    refine ⟨h.nodup, fun k => ?_, h.length⟩
    rw [AList.mem_insert, h.mem, or_iff_right_of_imp]
    exact fun hk => hk ▸ (h.mem key).mp hkey
  have hkey' : key ∉ l.order := fun hmem => hkey ((h.mem key).mpr hmem)
  have hnodup : (l.order ++ [key]).Nodup := by
    rw [List.nodup_append]
    exact ⟨h.nodup, List.nodup_singleton key,
      fun a ha b hb hab => hkey' (by rw [← List.mem_singleton.mp hb, ← hab]; exact ha)⟩
  have hmem : ∀ k, k ∈ l.order ++ [key] ↔ k = key ∨ k ∈ l.map := fun k => by
    rw [List.mem_append, List.mem_singleton, or_comm, h.mem]
  rcases add_of_notMem value h hkey with ⟨hroom, heq⟩ | ⟨old, order, horder, hlen, heq⟩
  · rw [heq]
    refine ⟨hnodup, fun k => (AList.mem_insert _).trans (hmem k).symm, ?_⟩
    simp
    omega
  · rw [horder] at hnodup hmem
    rw [heq]
    refine ⟨hnodup.of_cons, fun k => ?_, hlen.le⟩
    -- the key dropped is not the new one, which is the last of at least two
    have hold : key ≠ old := by
      intro hko
      obtain ⟨hnot, -⟩ := List.nodup_cons.mp hnodup
      have : key ∈ order := by
        have hlast : (old :: order).getLast? = some key := by
          rw [← horder, List.getLast?_append_of_ne_nil _ (by simp)]; rfl
        grind
      exact hnot (hko ▸ this)
    have hk := hmem k
    rw [List.mem_cons] at hk
    rw [AList.mem_insert, AList.mem_erase]
    grind

/-- A new key pushes out at most a key that need not be remembered any more. -/
theorem Remembers.add (hwf : l.WellFormed) (hcap : 0 < l.capacity) (hkey : key ∉ l.map)
    (h : l.Remembers keys) : (l.add key value).Remembers (key :: keys) := by
  have hlatest : ((key :: keys).take l.capacity).reverse <:+ l.order ++ [key] := by
    obtain ⟨n, hn⟩ : ∃ n, l.capacity = n + 1 := ⟨l.capacity - 1, by omega⟩
    unfold Remembers at h
    rw [hn] at h ⊢
    rw [List.take_succ_cons, List.reverse_cons]
    have hshort : (keys.take n).reverse <:+ (keys.take (n + 1)).reverse :=
      List.reverse_suffix.mpr (List.take_prefix_take_left (by omega))
    obtain ⟨older, holder⟩ := hshort.trans h
    exact ⟨older, by rw [← List.append_assoc, holder]⟩
  rw [Remembers, capacity_add hwf]
  rcases add_of_notMem value hwf hkey with ⟨-, heq⟩ | ⟨old, order, horder, hlen, heq⟩
  · rw [heq]; exact hlatest
  · rw [heq]
    rw [horder] at hlatest
    refine List.suffix_of_suffix_length_le hlatest (List.suffix_cons old order) ?_
    rw [List.length_reverse, List.length_take, hlen]
    omega

variable (value) in
/-- Adding a new key leaves the data of every other key that stays. -/
theorem get_add_of_mem (hwf : l.WellFormed) (hkey : key ∉ l.map) {k : UInt64} (hk : k ≠ key)
    (hmem : k ∈ (l.add key value).map) : (l.add key value).get k = l.get k := by
  rcases add_of_notMem value hwf hkey with ⟨-, heq⟩ | ⟨old, order, -, -, heq⟩
  · rw [heq]
    exact AList.lookup_insert_ne hk
  · rw [heq] at hmem ⊢
    have hne : k ≠ old := by simp_all
    show ((l.map.erase old).insert key value).lookup k = _
    rw [AList.lookup_insert_ne hk, AList.lookup_erase_ne hne]
    rfl

theorem get_add_self : (l.add key value).get key = some value := AList.lookup_insert _

/-- What is remembered is in the map, and no number twice. -/
theorem Remembers.mem (hwf : l.WellFormed) (h : l.Remembers keys)
    (hkey : key ∈ keys.take l.capacity) : key ∈ l.map :=
  (hwf.mem key).mpr (h.subset (List.mem_reverse.mpr hkey))

theorem Remembers.nodup (hwf : l.WellFormed) (h : l.Remembers keys) :
    (keys.take l.capacity).Nodup :=
  List.nodup_reverse.mp (hwf.nodup.sublist h.sublist)

end VoteDataLru

/-! ## The journal -/

/-- The journal in memory; the file is in the parameters of the operations on it. -/
structure VoteJournal where
  lru : VoteDataLru
  deriving DecidableEq

namespace VoteJournal

/-- The data of the last votes in the file; a line that is no vote is skipped. -/
def readLines (lines : List (Option VoteEnvelope)) : List VoteData :=
  lines.foldl (fun buf line =>
    match line with
    | none => buf
    | some env =>
      let buf := buf ++ [env.data]
      if buf.length > maxRecentEntries then buf.eraseIdx 0 else buf) []

/-- `lines` is `none` if the file cannot be opened. -/
def loadFromDisk (lines : Option (List (Option VoteEnvelope))) : VoteDataLru :=
  match lines with
  | none => .new maxRecentEntries
  | some lines =>
    (readLines lines).foldl (fun lru vd => lru.add vd.targetNumber vd) (.new maxRecentEntries)

def new (lines : Option (List (Option VoteEnvelope))) : VoteJournal := ⟨loadFromDisk lines⟩

/-! ### The rules -/

section Rules

variable (lru : VoteDataLru) (sourceNumber : UInt64)

/-- The backward window, `n` blocks from `blockNumber` up, has no vote with a later source. -/
def backwardWindow : Nat → UInt64 → Bool
  | 0, _ => true
  | n + 1, blockNumber =>
    match lru.get blockNumber with
    | some vd =>
      if vd.sourceNumber > sourceNumber then false else backwardWindow n (blockNumber + 1)
    | none => backwardWindow n (blockNumber + 1)

/-- The forward window, from `bn` to `upper`, has no vote with an earlier source.  With `upper` the
largest `u64`, `bn` starts again at 0 and the loop goes on: `none` is a loop without an end. -/
def forwardWindow (upper : UInt64) : Nat → UInt64 → Option Bool
  | 0, _ => none
  | fuel + 1, bn =>
    if bn ≤ upper then
      match lru.get bn with
      | some vd =>
        if vd.sourceNumber < sourceNumber then some false else forwardWindow upper fuel (bn + 1)
      | none => forwardWindow upper fuel (bn + 1)
    else some true

end Rules

/-- Whether the vote may be published, as far as the journal knows. -/
def underRules (fuel : Nat) (j : VoteJournal) (sourceNumber targetNumber : UInt64) : Option Bool :=
  if j.lru.contains targetNumber then some false
  else
    let blockNumber := saturatingAdd sourceNumber 1
    let blockNumber :=
      if blockNumber + maliciousVoteSlashScope < targetNumber then
        saturatingSub targetNumber maliciousVoteSlashScope
      else blockNumber
    if backwardWindow j.lru sourceNumber (targetNumber.toNat - blockNumber.toNat) blockNumber then
      forwardWindow j.lru sourceNumber (targetNumber + upperLimitOfVoteBlockNumber) fuel
        (targetNumber + 1)
    else some false

/-! ### Writing -/

inductive JournalError where
  | openFile
  | writeLine
  | writeNewline
  | flush
  deriving DecidableEq

/-- How the file operations of one call of `write_vote` go. -/
structure JournalIo where
  /-- `BSC_VOTE_JOURNAL_MEMORY_ONLY` is set. -/
  memOnly : Bool
  opens : Bool
  /-- `serde_json` gives a line. -/
  serializes : Bool
  writesLine : Bool
  writesNewline : Bool
  flushes : Bool
  deriving DecidableEq

/-- The journal with the vote in memory, or the operation that failed; then the journal is as it
was. -/
def writeVote (io : JournalIo) (j : VoteJournal) (env : VoteEnvelope) :
    Except JournalError VoteJournal := do
  if !io.memOnly then
    if !io.opens then throw .openFile
    if io.serializes then
      if !io.writesLine then throw .writeLine
      if !io.writesNewline then throw .writeNewline
      if !io.flushes then throw .flush
  return ⟨j.lru.add env.data.targetNumber env.data⟩

/-- No file operation fails. -/
def JournalIo.Succeeds (io : JournalIo) : Prop :=
  io.memOnly = true ∨
    io.opens = true ∧ (io.serializes = true →
      io.writesLine = true ∧ io.writesNewline = true ∧ io.flushes = true)

instance (io : JournalIo) : Decidable io.Succeeds :=
  inferInstanceAs (Decidable (_ ∨ _ ∧ (_ → _)))

variable {io : JournalIo} {j : VoteJournal}

theorem writeVote_of_succeeds (h : io.Succeeds) (j : VoteJournal) (env : VoteEnvelope) :
    j.writeVote io env = .ok ⟨j.lru.add env.data.targetNumber env.data⟩ := by
  rcases h with hmem | ⟨hopens, hwrites⟩
  · simp [writeVote, hmem, pure, Except.pure]
  · cases hserializes : io.serializes with
    | false => simp [writeVote, hopens, hserializes, pure, Except.pure]
    | true => simp_all [writeVote, pure, Except.pure]

/-- A write that returns has met no failing operation. -/
theorem succeeds_of_ok {j' : VoteJournal} {env : VoteEnvelope}
    (h : j.writeVote io env = .ok j') : io.Succeeds := by
  unfold writeVote at h
  unfold JournalIo.Succeeds
  simp only [throw, throwThe, MonadExceptOf.throw, bind, Except.bind, pure, Except.pure] at h
  grind

/-- A write that succeeds has put the vote into memory. -/
theorem writeVote_eq_ok {j' : VoteJournal} {env : VoteEnvelope}
    (h : j.writeVote io env = .ok j') : j' = ⟨j.lru.add env.data.targetNumber env.data⟩ := by
  rw [writeVote_of_succeeds (succeeds_of_ok h)] at h
  exact (Except.ok.inj h).symm

/-! ### Invariant -/

/-- The journal remembers up to 512 target numbers. -/
structure WellFormed (j : VoteJournal) : Prop where
  lru : j.lru.WellFormed
  capacity : j.lru.capacity = maxRecentEntries

theorem WellFormed.add (h : j.WellFormed) (env : VoteEnvelope) :
    WellFormed ⟨j.lru.add env.data.targetNumber env.data⟩ :=
  ⟨h.lru.add (by rw [h.capacity]; decide), (VoteDataLru.capacity_add h.lru).trans h.capacity⟩

theorem wellFormed_new (lines : Option (List (Option VoteEnvelope))) : (new lines).WellFormed := by
  have hempty : WellFormed ⟨.new maxRecentEntries⟩ := ⟨VoteDataLru.wellFormed_new _, rfl⟩
  cases lines with
  | none => exact hempty
  | some lines =>
    show WellFormed ⟨(readLines lines).foldl (fun lru vd => lru.add vd.targetNumber vd) _⟩
    generalize VoteDataLru.new maxRecentEntries = lru at hempty
    induction readLines lines generalizing lru with
    | nil => exact hempty
    | cons vd rest ih => exact ih _ (hempty.add ⟨default, default, vd⟩)

/-- Rule 1 comes before the loops: a height in memory is refused whatever the source. -/
theorem underRules_of_mem {targetNumber : UInt64}
    (h : targetNumber ∈ j.lru.map) (fuel : Nat) (sourceNumber : UInt64) :
    j.underRules fuel sourceNumber targetNumber = some false :=
  if_pos (decide_eq_true h)

theorem notMem_of_underRules {fuel : Nat} {sourceNumber targetNumber : UInt64}
    (h : j.underRules fuel sourceNumber targetNumber = some true) : targetNumber ∉ j.lru.map :=
  fun hmem => by rw [underRules_of_mem hmem] at h; simp at h

end VoteJournal

end RethBsc
