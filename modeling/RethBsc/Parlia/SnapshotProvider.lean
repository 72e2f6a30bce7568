import RethBsc.Parlia.Attestation

/-!
# The snapshot provider

`src/consensus/parlia/provider.rs` and the header cache of `src/node/evm/util.rs`.  A snapshot that is
neither cached nor in the database is rebuilt: the provider walks back from the block to an
ancestor that has a snapshot, and replays the headers in between.

* Headers are cached under their hash and under their number.  Under a number the cache keeps the
  header that was inserted last, whichever fork it is on.
* The walk and the replay find headers by hash.  The checkpoint header that a replayed block takes
  its validators from is found by number.
* The caches of the source forget old entries when they are full.  Here they are maps: the model
  is of a node whose caches have room.
-/

namespace RethBsc

open Rust

/-! ## The header cache -/

structure HeaderCacheReader where
  blocknumberToHeader : Map UInt64 Header
  blockhashToHeader : Map B256 Header

namespace HeaderCacheReader

def new : HeaderCacheReader := ⟨∅, ∅⟩

def insertHeaderToCache (hashSlow : Header → B256) (reader : HeaderCacheReader) (header : Header) :
    HeaderCacheReader :=
  { blocknumberToHeader := reader.blocknumberToHeader.insert header.number header
    blockhashToHeader := reader.blockhashToHeader.insert (hashSlow header) header }

end HeaderCacheReader

/-- What a query finds outside of the caches: the canonical chain of the node, and a database that
may fail to read or to write a snapshot. -/
structure Outside where
  canonicalHeaderByNumber : UInt64 → Option Header
  canonicalHeaderByHash : B256 → Option Header
  dbReads : B256 → Bool
  dbWrites : B256 → Bool

/-- What a query reads. -/
structure QueryEnv where
  headers : HeaderCacheReader
  outside : Outside

namespace QueryEnv

variable (env : QueryEnv)

def getHeaderByNumber (blockNumber : UInt64) : Option Header :=
  env.headers.blocknumberToHeader.lookup blockNumber <|>
    env.outside.canonicalHeaderByNumber blockNumber

def getHeaderByHash (blockHash : B256) : Option Header :=
  env.headers.blockhashToHeader.lookup blockHash <|> env.outside.canonicalHeaderByHash blockHash

end QueryEnv

/-! ## Cached and persisted snapshots -/

/-- The cache and the table of the database, both by block hash. -/
structure DbSnapshotProvider where
  cacheByHash : Map B256 Snapshot
  db : Map B256 Snapshot

namespace DbSnapshotProvider

def new : DbSnapshotProvider := ⟨∅, ∅⟩

variable (outside : Outside) (base : DbSnapshotProvider)

def queryDbByHash (blockHash : B256) : Option Snapshot :=
  if outside.dbReads blockHash then base.db.lookup blockHash else none

/-- A snapshot from the database goes into the cache. -/
def snapshotByHash (blockHash : B256) : Option Snapshot × DbSnapshotProvider :=
  match base.cacheByHash.lookup blockHash with
  | some snap => (some snap, base)
  | none =>
    match base.queryDbByHash outside blockHash with
    | some snap => (some snap, { base with cacheByHash := base.cacheByHash.insert blockHash snap })
    | none => (none, base)

def insertCacheOnly (snap : Snapshot) : DbSnapshotProvider :=
  { base with cacheByHash := base.cacheByHash.insert snap.blockHash snap }

/-- `none` if the database fails. -/
def persistToDb (snap : Snapshot) : Option DbSnapshotProvider :=
  if outside.dbWrites snap.blockHash then
    some { base with db := base.db.insert snap.blockHash snap }
  else none

/-- A failure of the database is logged only. -/
def insert (snap : Snapshot) : DbSnapshotProvider :=
  let base := base.insertCacheOnly snap
  if isMultipleOf snap.blockNumber checkpointInterval then
    (base.persistToDb outside snap).getD base
  else base

end DbSnapshotProvider

/-! ## Rebuilding -/

/-- How a query ends without a snapshot: `None`, or a walk that takes more steps than it was given
fuel for. -/
inductive QueryEnd where
  | notFound
  | outOfFuel
  deriving DecidableEq

section Step

variable (c : Crypto) (p : Parlia)

def genesisSnapshot (genesis : Header) : Outcome QueryEnd Snapshot := do
  let info ← (p.parseValidatorsFromHeader genesis p.epoch).mapErr fun _ => .notFound
  (Snapshot.new info.consensusAddrs 0 (c.hashSlow genesis) p.epoch info.voteAddrs).mapErr
    fun _ => .notFound

/-- The header is where the validators of the last checkpoint take over. -/
def IsSwitchBlock (snap : Snapshot) (header : Header) : Prop :=
  0 < header.number ∧ header.number % snap.epochNum = snap.minerHistoryCheckLen

instance (snap : Snapshot) (header : Header) : Decidable (IsSwitchBlock snap header) := by
  unfold IsSwitchBlock; infer_instance

/-- The number of the checkpoint that a switch block takes its validators from. -/
def checkpointNumber (snap : Snapshot) (header : Header) : UInt64 :=
  header.number - snap.minerHistoryCheckLen

/-- Validators and turn length for the next header; `headerByNumber` finds the checkpoint. -/
def checkpointInfo (headerByNumber : UInt64 → Option Header) (snap : Snapshot) (header : Header) :
    Outcome QueryEnd (ValidatorsInfo × Option UInt8) :=
  if snap.epochNum = 0 then .panic
  else if IsSwitchBlock snap header then do
    let checkpoint ← Outcome.okOr .notFound (headerByNumber (checkpointNumber snap header))
    let info ← (p.parseValidatorsFromHeader checkpoint snap.epochNum).mapErr fun _ => .notFound
    let turnLength ← Outcome.okOr .notFound
      (p.getTurnLengthFromHeader checkpoint snap.epochNum).toOption
    pure (info, turnLength)
  else pure (⟨[], none⟩, none)

/-- One turn of the replay, up to the caching of its result. -/
def replayHeader (headerByNumber : UInt64 → Option Header) (snap : Snapshot) (header : Header) :
    Outcome QueryEnd Snapshot := do
  let (info, turnLength) ← checkpointInfo p headerByNumber snap header
  let attestation ← Outcome.okOr .notFound
    (p.getVoteAttestationFromHeader header c.decode snap.epochNum).toOption
  (snap.apply c.hashSlow p.spec header.beneficiary header info.consensusAddrs info.voteAddrs
    attestation turnLength).mapErr fun _ => .notFound

end Step

section Query

variable (c : Crypto) (p : Parlia) (env : QueryEnv)

def initGenesisSnapshot (base : DbSnapshotProvider) (genesis : Header) :
    Outcome QueryEnd Snapshot × DbSnapshotProvider :=
  match genesisSnapshot c p genesis with
  | .ok snap => (.ok snap, base.insert env.outside snap)
  | .err e => (.err e, base)
  | .panic => (.panic, base)

/-- On a block 0 the walk inserts the genesis snapshot, and does not look at an error of it; `none`
if this panics. -/
def initIfGenesis (base : DbSnapshotProvider) (header : Header) : Option DbSnapshotProvider :=
  if header.number = 0 then
    match initGenesisSnapshot c p env base header with
    | (.panic, _) => none
    | (_, base) => some base
  else some base

/-- Walks back to the first ancestor with a snapshot.  Returns it with the hashes of the blocks to
replay on it, the oldest first. -/
def walkBack : Nat → DbSnapshotProvider → B256 → List B256 →
    Outcome QueryEnd (Snapshot × List B256) × DbSnapshotProvider
  | 0, base, _, _ => (.err .outOfFuel, base)
  | n + 1, base, parentHash, hashes =>
    match env.getHeaderByHash parentHash with
    | none => (.err .notFound, base)
    | some parent =>
      match initIfGenesis c p env base parent with
      | none => (.panic, base)
      | some base =>
        match base.snapshotByHash env.outside parentHash with
        | (some snap, base) => (.ok (snap, hashes), base)
        | (none, base) => walkBack n base parent.parentHash (parentHash :: hashes)

def replay : List B256 → DbSnapshotProvider → Snapshot →
    Outcome QueryEnd Snapshot × DbSnapshotProvider
  | [], base, snap => (.ok snap, base)
  | blockHash :: hashes, base, snap =>
    match env.getHeaderByHash blockHash with
    | none => (.err .notFound, base)
    | some header =>
      match replayHeader c p env.getHeaderByNumber snap header with
      | .ok snap =>
        let base := base.insertCacheOnly snap
        if isMultipleOf snap.blockNumber checkpointInterval then
          match base.persistToDb env.outside snap with
          | some base => replay hashes base snap
          | none => (.err .notFound, base)
        else replay hashes base snap
      | .err e => (.err e, base)
      | .panic => (.panic, base)

def tryRebuild (fuel : Nat) (base : DbSnapshotProvider) (target : Header) :
    Outcome QueryEnd Snapshot × DbSnapshotProvider :=
  match walkBack c p env fuel base target.parentHash [c.hashSlow target] with
  | (.ok (snap, hashes), base) => replay c p env hashes base snap
  | (.err e, base) => (.err e, base)
  | (.panic, base) => (.panic, base)

/-- `EnhancedDbSnapshotProvider::snapshot_by_hash`. -/
def snapshotByHash (fuel : Nat) (base : DbSnapshotProvider) (blockHash : B256) :
    Outcome QueryEnd Snapshot × DbSnapshotProvider :=
  match base.snapshotByHash env.outside blockHash with
  | (some snap, base) => (.ok snap, base)
  | (none, base) =>
    match env.getHeaderByHash blockHash with
    | none => (.err .notFound, base)
    | some target =>
      if target.number = 0 then initGenesisSnapshot c p env base target
      else
        match tryRebuild c p env fuel base target with
        | (.ok snap, base) => (.ok snap, base.insert env.outside snap)
        | failed => failed

end Query

end RethBsc
