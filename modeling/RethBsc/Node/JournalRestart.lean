import RethBsc.Node.VoteJournal

/-!
# The vote journal after a restart

`load_from_disk` and the file side of `write_vote` in `src/node/vote_journal.rs`.  The memory of the
journal is bounded, the file is not: after a restart the last 512 lines of the file stand for the
memory that was lost.

* `textLines_append_newline`: one more line at the front of a text.
* `Mirrors`: a list of vote data is the memory of a journal, oldest first.  `Mirrors.add` compares
  one write with one more line in the buffer of `load_from_disk`, where both drop the oldest.
* `RecordedRun.restart_eq`: the journal read back is the journal that was written.
-/

namespace RethBsc

open Rust

/-! ## The text of a file -/

/-- What `BufRead::lines` takes off a line besides the line feed. -/
def chomp (line : List Char) : List Char :=
  if line.getLast? = some '\r' then line.dropLast else line

/-- `BufRead::lines`; `line` is what was read of the current line. -/
def textLines (line : List Char) : List Char → List (List Char)
  | [] => if line = [] then [] else [line]
  | c :: text => if c = '\n' then chomp line :: textLines [] text else textLines (line ++ [c]) text

theorem textLines_append_newline {line : List Char} (h : '\n' ∉ line) (start text : List Char) :
    textLines start (line ++ '\n' :: text) = chomp (start ++ line) :: textLines [] text := by
  induction line generalizing start with
  | nil =>
    rw [List.nil_append, List.append_nil, textLines]
    exact if_pos rfl
  | cons c line ih =>
    rw [List.mem_cons, not_or] at h
    rw [List.cons_append, textLines, if_neg (Ne.symm h.1), ih h.2, List.append_assoc]
    rfl

/-- `serde_json` on vote envelopes; the text is empty if `to_string` fails. -/
structure VoteJson where
  toStr : VoteEnvelope → List Char
  fromStr : List Char → Option VoteEnvelope

namespace VoteJson

/-- A vote is written as one line and read back unchanged.  A carriage return at the end would be
taken for a part of the line break. -/
structure Faithful (json : VoteJson) : Prop where
  nonempty : ∀ env, json.toStr env ≠ []
  one_line : ∀ env, '\n' ∉ json.toStr env
  no_return : ∀ env, (json.toStr env).getLast? ≠ some '\r'
  reads_back : ∀ env, json.fromStr (json.toStr env) = some env

variable (json : VoteJson)

/-- The lines of the file, as `load_from_disk` sees them: an empty line is skipped like a line that
is no vote. -/
def readFile (file : List Char) : List (Option VoteEnvelope) :=
  (textLines [] file).map fun line => if line = [] then none else json.fromStr line

/-- The file after a call of `write_vote`; `written` characters of a line that could not be written
in full. -/
def fileAfter (io : VoteJournal.JournalIo) (written : Nat) (file : List Char)
    (env : VoteEnvelope) : List Char :=
  if io.memOnly || !io.opens || !io.serializes then file
  else if !io.writesLine then file ++ (json.toStr env).take written
  else if !io.writesNewline then file ++ json.toStr env
  else file ++ json.toStr env ++ ['\n']

variable {json}

theorem Faithful.chomp_toStr (h : json.Faithful) (env : VoteEnvelope) :
    chomp (json.toStr env) = json.toStr env := if_neg (h.no_return env)

/-- A file of whole lines reads back as the votes written. -/
theorem Faithful.readFile_lines (h : json.Faithful) (votes : List VoteEnvelope) :
    json.readFile (votes.flatMap fun env => json.toStr env ++ ['\n']) = votes.map some := by
  induction votes with
  | nil => rfl
  | cons env votes ih =>
    have hline : (env :: votes).flatMap (fun env => json.toStr env ++ ['\n'])
        = json.toStr env ++ '\n' :: votes.flatMap fun env => json.toStr env ++ ['\n'] := by
      rw [List.flatMap_cons, List.append_assoc]
      rfl
    rw [hline, readFile, textLines_append_newline (h.one_line env), List.nil_append,
      h.chomp_toStr, List.map_cons, if_neg (h.nonempty env), h.reads_back, List.map_cons]
    exact congrArg (some env :: ·) ih

end VoteJson

namespace VoteJournal

/-! ## The buffer and the memory -/

/-- One more vote in the buffer of `load_from_disk`. -/
def pushRecent (buf : List VoteData) (vd : VoteData) : List VoteData :=
  if (buf ++ [vd]).length > maxRecentEntries then (buf ++ [vd]).eraseIdx 0 else buf ++ [vd]

theorem readLines_append (lines : List (Option VoteEnvelope)) (env : VoteEnvelope) :
    readLines (lines ++ [some env]) = pushRecent (readLines lines) env.data := by
  rw [readLines, List.foldl_append]
  rfl

/-- The entry that `add` makes. -/
def entryOf (vd : VoteData) : Sigma fun _ : UInt64 => VoteData := ⟨vd.targetNumber, vd⟩

/-- The memory holds exactly the data of the list, the oldest first. -/
structure Mirrors (buf : List VoteData) (lru : VoteDataLru) : Prop where
  length : buf.length ≤ maxRecentEntries
  nodup : (buf.map VoteData.targetNumber).Nodup
  capacity : lru.capacity = maxRecentEntries
  order : lru.order = buf.map VoteData.targetNumber
  entries : lru.map.entries = (buf.map entryOf).reverse

variable {buf : List VoteData} {lru lru' : VoteDataLru} {vd : VoteData}

theorem mirrors_new : Mirrors [] (.new maxRecentEntries) :=
  ⟨Nat.zero_le _, List.nodup_nil, rfl, rfl, rfl⟩

/-- The list determines the memory. -/
theorem Mirrors.unique (h : Mirrors buf lru) (h' : Mirrors buf lru') : lru = lru' := by
  obtain ⟨capacity, order, map⟩ := lru
  obtain ⟨capacity', order', map'⟩ := lru'
  obtain rfl : capacity = capacity' := h.capacity.trans h'.capacity.symm
  obtain rfl : order = order' := h.order.trans h'.order.symm
  obtain rfl : map = map' := AList.ext (h.entries.trans h'.entries.symm)
  rfl

theorem Mirrors.mem_iff (h : Mirrors buf lru) (k : UInt64) :
    k ∈ lru.map ↔ k ∈ buf.map VoteData.targetNumber := by
  have hkeys : lru.map.keys = (buf.map VoteData.targetNumber).reverse := by
    show lru.map.entries.map Sigma.fst = _
    rw [h.entries, List.map_reverse, List.map_map]
    rfl
  rw [AList.mem_keys, hkeys, List.mem_reverse]

theorem Mirrors.wellFormed (h : Mirrors buf lru) : lru.WellFormed where
  nodup := h.order ▸ h.nodup
  mem k := by rw [h.mem_iff, h.order]
  length := by rw [h.order, h.capacity, List.length_map]; exact h.length

/-- Erasing the oldest key leaves the entries of the others. -/
theorem kerase_oldest {first : VoteData} (h : first.targetNumber ∉ buf.map VoteData.targetNumber) :
    ((first :: buf).map entryOf).reverse.kerase first.targetNumber = (buf.map entryOf).reverse := by
  have hkeys : first.targetNumber ∉ (buf.map entryOf).reverse.keys := by
    rwa [List.keys, List.map_reverse, List.mem_reverse, List.map_map]
  rw [List.map_cons, List.reverse_cons, List.kerase_append_right hkeys]
  have hlast : List.kerase first.targetNumber [entryOf first] = [] := List.kerase_cons_eq rfl
  rw [hlast, List.append_nil]

/-- One more vote, of a new height, in the file and in memory: both have it last, and when they are
full both drop their first. -/
theorem Mirrors.add (h : Mirrors buf lru) (hnew : vd.targetNumber ∉ lru.map) :
    Mirrors (pushRecent buf vd) (lru.add vd.targetNumber vd) := by
  have hlength : lru.order.length = buf.length := by rw [h.order, List.length_map]
  have hmap : (buf ++ [vd]).map VoteData.targetNumber = lru.order ++ [vd.targetNumber] := by
    rw [List.map_append, h.order]
    rfl
  have hnodup : ((buf ++ [vd]).map VoteData.targetNumber).Nodup := by
    rw [hmap, List.nodup_append]
    refine ⟨h.wellFormed.nodup, List.nodup_singleton _, fun a ha b hb hab => hnew ?_⟩
    rwa [h.wellFormed.mem, ← List.mem_singleton.mp hb, ← hab]
  have hcap := h.capacity
  rcases VoteDataLru.add_of_notMem vd h.wellFormed hnew with
    ⟨hroom, heq⟩ | ⟨old, order, horder, hlen, heq⟩
  · -- there is room for one more
    have hfits : ¬ (buf ++ [vd]).length > maxRecentEntries := by
      rw [List.length_append, List.length_singleton]
      omega
    rw [pushRecent, if_neg hfits, heq]
    refine ⟨Nat.le_of_not_lt hfits, hnodup, h.capacity, hmap.symm, ?_⟩
    show (lru.map.insert vd.targetNumber vd).entries = _
    rw [AList.entries_insert_of_notMem hnew, h.entries, List.map_append, List.reverse_append]
    rfl
  · -- the memory is full, so the list has a first element, the one whose key is dropped
    have hsize : buf.length + 1 = maxRecentEntries + 1 := by
      grind [List.length_append, List.length_cons, List.length_nil]
    have hfull : (buf ++ [vd]).length > maxRecentEntries := by
      rw [List.length_append, List.length_singleton]
      omega
    rw [pushRecent, if_pos hfull, heq]
    cases buf with
    | nil => exact absurd hsize (by decide)
    | cons first buf =>
      obtain ⟨rfl, rfl⟩ : first.targetNumber = old
          ∧ (buf ++ [vd]).map VoteData.targetNumber = order := List.cons.inj (hmap.trans horder)
      have hold : first.targetNumber ∉ buf.map VoteData.targetNumber :=
        (List.nodup_cons.mp h.nodup).1
      have hstill : vd.targetNumber ∉ lru.map.erase first.targetNumber :=
        fun hmem => hnew (AList.mem_erase.mp hmem).2
      show Mirrors (buf ++ [vd]) _
      refine ⟨?_, (List.nodup_cons.mp hnodup).2, h.capacity, rfl, ?_⟩
      · rw [List.length_map, hcap] at hlen
        exact hlen.le
      · show ((lru.map.erase first.targetNumber).insert vd.targetNumber vd).entries = _
        have herase : (lru.map.erase first.targetNumber).entries = (buf.map entryOf).reverse := by
          show lru.map.entries.kerase first.targetNumber = _
          rw [h.entries, kerase_oldest hold]
        rw [AList.entries_insert_of_notMem hstill, herase, List.map_append, List.reverse_append]
        rfl

/-- The second loop of `load_from_disk`. -/
def refill (buf : List VoteData) : VoteDataLru :=
  buf.foldl (fun lru vd => lru.add vd.targetNumber vd) (.new maxRecentEntries)

/-- Refilling an empty memory from a buffer that fits. -/
theorem mirrors_refill (hlength : buf.length ≤ maxRecentEntries)
    (hnodup : (buf.map VoteData.targetNumber).Nodup) : Mirrors buf (refill buf) := by
  induction buf using List.reverseRecOn with
  | nil => exact mirrors_new
  | append_singleton buf vd ih =>
    rw [List.map_append, List.map_singleton] at hnodup
    have hparts := List.nodup_append.mp hnodup
    have hmirrors := ih (by rw [List.length_append] at hlength; omega) hparts.1
    have hnew : vd.targetNumber ∉ (refill buf).map := by
      rw [hmirrors.mem_iff]
      exact fun hmem => hparts.2.2 _ hmem _ (List.mem_singleton_self _) rfl
    have hadd := hmirrors.add hnew
    rw [pushRecent, if_neg (Nat.not_lt.mpr hlength)] at hadd
    rwa [refill, List.foldl_append]

/-! ## Runs -/

section Runs

variable {json : VoteJson}

/-- The votes of a journal whose file was empty at first, the oldest first, with the file that they
leave: each vote was allowed by `under_rules` and then written to the file and to memory. -/
inductive RecordedRun (json : VoteJson) : List VoteEnvelope → VoteJournal → List Char → Prop
  | empty : RecordedRun json [] (new (some (json.readFile []))) []
  | vote {votes : List VoteEnvelope} {j j' : VoteJournal} {file : List Char} {env : VoteEnvelope}
      {fuel written : Nat} {io : JournalIo} (hrun : RecordedRun json votes j file)
      (hallowed : j.underRules fuel env.data.sourceNumber env.data.targetNumber = some true)
      (hdisk : io.memOnly = false) (hline : io.serializes = !(json.toStr env).isEmpty)
      (hwrite : j.writeVote io env = .ok j') :
      RecordedRun json (votes ++ [env]) j' (json.fileAfter io written file env)

variable {j : VoteJournal} {votes : List VoteEnvelope}

/-- A write that succeeds has put a whole line into the file. -/
theorem fileAfter_of_ok (hjson : json.Faithful) {io : JournalIo} {j' : VoteJournal}
    {env : VoteEnvelope} (hdisk : io.memOnly = false)
    (hline : io.serializes = !(json.toStr env).isEmpty) (hwrite : j.writeVote io env = .ok j')
    (written : Nat) (file : List Char) :
    json.fileAfter io written file env = file ++ (json.toStr env ++ ['\n']) := by
  have hserializes : io.serializes = true := by
    rw [hline, List.isEmpty_eq_false_iff.mpr (hjson.nonempty env)]
    rfl
  rcases succeeds_of_ok hwrite with hmem | ⟨hopens, hwrites⟩
  · exact absurd hmem (by rw [hdisk]; simp)
  · simp_all [VoteJson.fileAfter]

/-- The file has the votes, one on a line. -/
theorem RecordedRun.file_eq (hjson : json.Faithful)
    {file : List Char} (h : RecordedRun json votes j file) :
    file = votes.flatMap fun env => json.toStr env ++ ['\n'] := by
  induction h with
  | empty => rfl
  | @vote votes j j' file env fuel written io hrun hallowed hdisk hline hwrite ih =>
    rw [fileAfter_of_ok hjson hdisk hline hwrite, ih, List.flatMap_append, List.flatMap_singleton]

/-- The memory has what `load_from_disk` would put into its buffer. -/
theorem RecordedRun.mirrors {file : List Char}
    (h : RecordedRun json votes j file) : Mirrors (readLines (votes.map some)) j.lru := by
  induction h with
  | empty => exact mirrors_new
  | @vote votes j j' file env fuel written io hrun hallowed hdisk hline hwrite ih =>
    rw [writeVote_eq_ok hwrite, List.map_append, List.map_singleton, readLines_append]
    exact ih.add (notMem_of_underRules hallowed)

theorem RecordedRun.restart_eq (hjson : json.Faithful)
    {file : List Char} (h : RecordedRun json votes j file) :
    new (some (json.readFile file)) = j := by
  have hmirrors := h.mirrors
  have hloaded : loadFromDisk (some (votes.map some)) = j.lru :=
    (mirrors_refill hmirrors.length hmirrors.nodup).unique hmirrors
  rw [h.file_eq hjson, hjson.readFile_lines, new, hloaded]

/-- **Restarting changes no answer.**  A journal read back from the file of a run of any length
allows and refuses what the running journal does. -/
theorem restart_underRules (json : VoteJson) (hjson : json.Faithful) (votes : List VoteEnvelope)
    (j : VoteJournal) (file : List Char) (h : RecordedRun json votes j file) (fuel : Nat)
    (sourceNumber targetNumber : UInt64) :
    (new (some (json.readFile file))).underRules fuel sourceNumber targetNumber
      = j.underRules fuel sourceNumber targetNumber := by
  rw [h.restart_eq hjson]

end Runs

end VoteJournal

/-! ## A text for votes -/

section Plain

/-- A printable character for every byte. -/
def byteChar (b : UInt8) : Char := Char.ofNat (b.toNat + 48)

def charByte (c : Char) : UInt8 := UInt8.ofNat (c.toNat - 48)

theorem toNat_byteChar (b : UInt8) : (byteChar b).toNat = b.toNat + 48 := by
  have hlt : b.toNat < 256 := b.toNat_lt
  have hvalid : (b.toNat + 48).isValidChar := .inl (by omega)
  rw [byteChar, Char.ofNat, dif_pos hvalid]
  rfl

theorem charByte_byteChar (b : UInt8) : charByte (byteChar b) = b := by
  rw [charByte, toNat_byteChar, Nat.add_sub_cancel, UInt8.ofNat_toNat]

/-- The fields of a vote in the order of the source. -/
def voteBytes (env : VoteEnvelope) : Bytes :=
  env.voteAddress.val ++ (env.signature.val ++ (toBeBytes env.data.sourceNumber
    ++ (env.data.sourceHash.val ++ (toBeBytes env.data.targetNumber ++ env.data.targetHash.val))))

def voteOfBytes (bs : Bytes) : Option VoteEnvelope :=
  if h : bs.length = 224 then
    some ⟨⟨bs.take 48, by simp [h]⟩, ⟨(bs.drop 48).take 96, by simp [h]⟩,
      UInt64.ofNat (natOfBeBytes ((bs.drop 144).take 8)), ⟨(bs.drop 152).take 32, by simp [h]⟩,
      UInt64.ofNat (natOfBeBytes ((bs.drop 184).take 8)), ⟨bs.drop 192, by simp [h]⟩⟩
  else none

theorem voteOfBytes_voteBytes (env : VoteEnvelope) : voteOfBytes (voteBytes env) = some env := by
  have hlen : (voteBytes env).length = 224 := by simp [voteBytes]
  rw [voteOfBytes, dif_pos hlen]
  have htake : ∀ x : UInt64, (toBeBytes x).take 8 = toBeBytes x := fun _ => rfl
  have hdrop : ∀ x : UInt64, ∀ n, (toBeBytes x).drop (8 + n) = [] := fun _ _ =>
    List.drop_of_length_le (Nat.le_add_right _ _)
  simp [voteBytes, List.take_append, List.drop_append, List.drop_of_length_le, htake, hdrop _ 0,
    hdrop _ 32, hdrop _ 40, natOfBeBytes_toBeBytes]

/-- A text that keeps what is assumed of `serde_json`. -/
def plainJson : VoteJson where
  toStr env := (voteBytes env).map byteChar
  fromStr line := voteOfBytes (line.map charByte)

/-- No byte is written as a control character. -/
theorem notMem_plain {c : Char} (hc : c.toNat < 48) (env : VoteEnvelope) :
    c ∉ plainJson.toStr env := by
  intro hmem
  obtain ⟨b, -, rfl⟩ := List.mem_map.mp hmem
  rw [toNat_byteChar] at hc
  omega

theorem plainJson_faithful : plainJson.Faithful where
  nonempty env hnil := by
    have hlen := congrArg List.length hnil
    simp [plainJson, voteBytes] at hlen
  one_line := notMem_plain (by decide)
  no_return env hlast := notMem_plain (c := '\r') (by decide) env (List.mem_of_getLast? hlast)
  reads_back env := by
    show voteOfBytes (((voteBytes env).map byteChar).map charByte) = some env
    have hid : charByte ∘ byteChar = id := funext charByte_byteChar
    rw [List.map_map, hid, List.map_id, voteOfBytes_voteBytes]

end Plain

namespace VoteJournal

/-- A vote for the block after the source. -/
def childVote (source : UInt64) : VoteEnvelope :=
  ⟨.zero, .zero, source, .zero, source + 1, .zero⟩

/-- Votes for the blocks 1 to `k`. -/
def childVotes (k : Nat) : List VoteEnvelope := (List.range k).map fun n => childVote (UInt64.ofNat n)

/-- File operations that succeed. -/
def diskIo : JournalIo := ⟨false, true, true, true, true, true⟩

theorem forwardWindow_of_none {lru : VoteDataLru} {source upper bn : UInt64} {fuel : Nat}
    (hnone : ∀ key : UInt64, bn.toNat ≤ key.toNat → lru.get key = none)
    (hupper : upper.toNat + 1 < 2 ^ 64) (hle : bn.toNat ≤ upper.toNat + 1)
    (hfuel : upper.toNat + 1 < bn.toNat + fuel) :
    forwardWindow lru source upper fuel bn = some true := by
  induction fuel generalizing bn with
  | zero => exact absurd hfuel (by omega)
  | succ fuel ih =>
    unfold forwardWindow
    split
    · next hle =>
      have hle := UInt64.le_iff_toNat_le.mp hle
      have hnext : (bn + 1).toNat = bn.toNat + 1 := by
        rw [UInt64.toNat_add]
        exact Nat.mod_eq_of_lt (by simp; omega)
      rw [hnone bn (Nat.le_refl _)]
      exact ih (fun key hkey => hnone key (by omega)) (by omega) (by omega)
    · rfl

/-- A vote for the next block is allowed if none for a later block is in memory. -/
theorem underRules_childVote {j : VoteJournal} {source : UInt64} (hsource : source.toNat < 1000)
    (h : ∀ key ∈ j.lru.map, key.toNat ≤ source.toNat) :
    j.underRules 20 source (source + 1) = some true := by
  have hnone : ∀ key : UInt64, source.toNat < key.toNat → key ∉ j.lru.map := fun key hkey hmem =>
    absurd (h key hmem) (by omega)
  have hstart : saturatingAdd source 1 = source + 1 := by
    rw [saturatingAdd, checkedAdd, if_pos (by simp; omega)]
    rfl
  have htarget : (source + 1).toNat = source.toNat + 1 := by simp; omega
  have hcontains : j.lru.contains (source + 1) = false := decide_eq_false (hnone _ (by omega))
  have hnear : ¬ source + 1 + maliciousVoteSlashScope < source + 1 := by
    rw [UInt64.lt_iff_toNat_lt, UInt64.toNat_add, htarget]
    simp [maliciousVoteSlashScope]
    omega
  unfold underRules
  simp only [hcontains, hstart, if_neg hnear, Nat.sub_self, backwardWindow, if_true,
    Bool.false_eq_true, if_false]
  have hupper : (source + 1 + upperLimitOfVoteBlockNumber).toNat = source.toNat + 12 := by
    rw [UInt64.toNat_add, htarget]
    simp [upperLimitOfVoteBlockNumber]
    omega
  have hnext : (source + 1 + 1).toNat = source.toNat + 2 := by simp; omega
  refine forwardWindow_of_none (fun key hkey => ?_) (by omega) (by omega) (by omega)
  exact AList.lookup_eq_none.mpr (hnone key (by omega))

/-- Each of the votes is allowed and written, and the last stays in memory. -/
theorem recordedRun_childVotes {k : Nat} (hk : k ≤ 1000) :
    ∃ j file, RecordedRun plainJson (childVotes k) j file ∧
      (∀ key ∈ j.lru.map, key.toNat ≤ k) ∧ (0 < k → UInt64.ofNat k ∈ j.lru.map) := by
  induction k with
  | zero => exact ⟨_, _, .empty, fun key hkey => absurd hkey (AList.notMem_empty key), by simp⟩
  | succ k ih =>
    obtain ⟨j, file, hrun, hkeys, -⟩ := ih (by omega)
    have hofNat : (UInt64.ofNat k).toNat = k := UInt64.toNat_ofNat_of_lt' (show k < 2 ^ 64 by omega)
    have hallowed : j.underRules 20 (UInt64.ofNat k) (UInt64.ofNat k + 1) = some true :=
      underRules_childVote (by omega) (by rwa [hofNat])
    have hnext : RecordedRun plainJson (childVotes k ++ [childVote (UInt64.ofNat k)]) _
        (plainJson.fileAfter diskIo 0 file (childVote (UInt64.ofNat k))) :=
      .vote hrun hallowed rfl rfl rfl
    have hlast : UInt64.ofNat (k + 1) = UInt64.ofNat k + 1 := by simp
    rw [childVotes, List.range_succ, List.map_append, hlast]
    refine ⟨_, _, hnext, fun key hkey => ?_, fun _ => (AList.mem_insert _).mpr (.inl rfl)⟩
    rcases VoteDataLru.mem_of_mem_add hkey with rfl | hmem
    · show (UInt64.ofNat k + 1).toNat ≤ k + 1
      simp
      omega
    · exact (hkeys key hmem).trans (Nat.le_succ k)

/-- After 600 votes, more than the memory holds. -/
theorem restart_underRules_childVotes :
    ∃ j file, RecordedRun plainJson (childVotes 600) j file ∧
      (new (some (plainJson.readFile file))).underRules 20 3 600 = some false ∧
      j.underRules 20 3 600 = some false := by
  obtain ⟨j, file, hrun, -, hlast⟩ := recordedRun_childVotes (show 600 ≤ 1000 by decide)
  have hrefused : j.underRules 20 3 600 = some false := underRules_of_mem (hlast (by decide)) 20 3
  refine ⟨j, file, hrun, ?_, hrefused⟩
  rw [restart_underRules plainJson plainJson_faithful _ _ _ hrun]
  exact hrefused

end VoteJournal

end RethBsc
