import RethBsc.Network.Packets
import RethBsc.Parlia.VotePool

/-!
# Connections to peers

`BscProtocolConnection` of `src/node/network/bsc_protocol/stream.rs`: a stream that is polled for
the next frame to send.  It sends its capability first, then commands of the node and answers to the
peer.

* `Turns`: what one turn of the loop can do; `turn_turns` reads it off the source once.
* `turn_panic_iff`: the frames that make the task unwind.
-/

namespace RethBsc

open Rust

/-! ## The state

Instants and durations are in nanoseconds. -/

def handshakeTimeout : Nat := 5 * 10 ^ 9
def pendingReqTtl : Nat := 15 * 10 ^ 9
def pruneInterval : Nat := 5 * 10 ^ 9

/-- The commands of a node; those that wait for an answer have a sender `ω` for it. -/
inductive BscCommand (β ω : Type) where
  | capability (protocolVersion : UInt64) (extra : Bytes)
  | votes (votes : List VoteEnvelope)
  | getBlocksByRange (req : GetBlocksByRangePacket) (waiter : ω)
  | blocksByRange (packet : BlocksByRangePacket β)

structure BscProtocolConnection (β ω : Type) where
  handshakeDeadline : Option Nat
  handshakeCompleted : Bool
  initialCapability : Option (BscCommand β ω)
  pendingRangeReqs : Map UInt64 (ω × Nat)
  protoVersion : UInt64
  lastPrune : Nat

/-- What the connections of a node share. -/
structure Shared (β : Type) where
  pool : VotePool
  cache : BodyCache β

/-- What polling the commands, and without one the peer, finds. -/
inductive Ready (β ω : Type) where
  | command (cmd : BscCommand β ω)
  | frame (raw : Bytes)
  | closed
  | pending

/-- A turn of the loop: what is ready, what the clock shows whenever it is read, and whose receiver
is gone at an instant. -/
structure Input (β ω : Type) where
  ready : Ready β ω
  first : Nat
  second : Nat
  third : Nat
  isClosed : Nat → ω → Bool

/-- How a turn ends: `poll_next` returns a frame, the end of the stream or `Pending`, or the loop
goes on, or the task unwinds. -/
inductive Flow where
  | send (frame : Bytes)
  | close
  | pending
  | next
  | panic
  deriving DecidableEq

structure Turned (β ω : Type) where
  conn : BscProtocolConnection β ω
  shared : Shared β
  flow : Flow
  answered : Option (ω × BlocksByRangePacket β)

/-- The build and what is computed outside. -/
structure Wire (β : Type) where
  codec : FullBlockCodec β
  envelopeHash : VoteEnvelope → B256
  overflowChecks : Bool

namespace BscProtocolConnection

variable {β ω : Type} (wire : Wire β)

def new (now : Nat) (protoVersion : UInt64) : BscProtocolConnection β ω where
  handshakeDeadline := some (now + handshakeTimeout)
  handshakeCompleted := false
  initialCapability := some (.capability protoVersion [0x00])
  pendingRangeReqs := ∅
  protoVersion := protoVersion
  lastPrune := now

def prunePendingRequests (now : Nat) (isClosed : ω → Bool) (conn : BscProtocolConnection β ω) :
    BscProtocolConnection β ω :=
  if now - conn.lastPrune < pruneInterval then conn
  else
    { conn with
      lastPrune := now
      pendingRangeReqs := conn.pendingRangeReqs.retain fun _ (tx, ts) =>
        !(isClosed tx || decide (pendingReqTtl < now - ts)) }

def encodeCommand : BscCommand β ω → Bytes
  | .capability protocolVersion extra => BscCapPacket.encode ⟨protocolVersion, extra⟩
  | .votes votes => VotesPacket.encode votes
  | .getBlocksByRange req _ => req.encode
  | .blocksByRange packet => packet.encode wire.codec

/-! ## A turn of the loop -/

def pollOutgoingCommands (input : Input β ω) (conn : BscProtocolConnection β ω) :
    BscProtocolConnection β ω × Option Bytes :=
  let conn := conn.prunePendingRequests input.first (input.isClosed input.first)
  match input.ready with
  | .command (.getBlocksByRange req respTx) =>
    -- an entry with the same id is overwritten
    ({ conn with
        pendingRangeReqs := conn.pendingRangeReqs.insert req.requestId (respTx, input.second) },
      some req.encode)
  | .command other => (conn, some (encodeCommand wire other))
  | _ => (conn, none)

/-- `Poll<Option<Option<BytesMut>>>` as the end of a turn, or a frame to handle. -/
def pollIncomingFrame (input : Input β ω) (conn : BscProtocolConnection β ω) :
    BscProtocolConnection β ω × Except Flow Bytes :=
  match input.ready with
  | .frame [] => (conn, .error .next)
  | .frame raw =>
    (conn.prunePendingRequests input.second (input.isClosed input.second), .ok raw)
  | .closed => (conn, .error .close)
  | _ => (conn, .error .pending)

def handleHandshakeFrame (now : Nat) (frame : Bytes) (conn : BscProtocolConnection β ω) :
    BscProtocolConnection β ω × Flow :=
  if conn.handshakeDeadline.any (· ≤ now) then (conn, .close)
  else if frame.head? ≠ some capabilityId then (conn, .close)
  else
    match BscCapPacket.decode wire.overflowChecks frame with
    | .ok (pkt, _) =>
      if pkt.protocolVersion ≠ conn.protoVersion then (conn, .close)
      else ({ conn with handshakeCompleted := true, handshakeDeadline := none }, .next)
    | .err _ => (conn, .close)
    | .panic => (conn, .panic)

/-- A message whose kind is not known or that cannot be read is ignored. -/
def handleProtocolMessage (frame : Bytes) (conn : BscProtocolConnection β ω) (shared : Shared β) :
    Turned β ω :=
  let ignored : Turned β ω := ⟨conn, shared, .next, none⟩
  if frame.head? = some BscProtoMessageId.votes.code then
    match VotesPacket.decode frame with
    | .ok (packet, _) =>
      let pool := shared.pool.handleVotesBroadcast wire.envelopeHash packet
      { ignored with shared := { shared with pool } }
    | .error _ => ignored
  else if frame.head? = some BscProtoMessageId.getBlocksByRange.code then
    match GetBlocksByRangePacket.decode frame with
    | .ok (req, _) =>
      if req.count = 0 ∨ maxRequestRangeBlocksCount < req.count then ignored
      else
        let (resp, cache) := shared.cache.buildBlocksByRangeResponse req
        { ignored with
          shared := { shared with cache }
          flow := .send (encodeCommand wire (.blocksByRange resp : BscCommand β ω)) }
    | .error _ => ignored
  else if frame.head? = some BscProtoMessageId.blocksByRange.code then
    match BlocksByRangePacket.decode wire.codec frame with
    | .ok (res, _) =>
      match conn.pendingRangeReqs.lookup res.requestId with
      | some (waiter, _) =>
        { ignored with
          conn := { conn with pendingRangeReqs := conn.pendingRangeReqs.erase res.requestId }
          answered := some (waiter, res) }
      | none => ignored
    | .error _ => ignored
  else ignored

/-- A turn of the loop of `poll_next`. -/
def turn (input : Input β ω) (conn : BscProtocolConnection β ω) (shared : Shared β) :
    Turned β ω :=
  match conn.pollOutgoingCommands wire input with
  | (conn, some encodedCommand) => ⟨conn, shared, .send encodedCommand, none⟩
  | (conn, none) =>
    match conn.pollIncomingFrame input with
    | (conn, .error flow) => ⟨conn, shared, flow, none⟩
    | (conn, .ok rawFrame) =>
      if !conn.handshakeCompleted then
        let (conn, flow) := conn.handleHandshakeFrame wire input.third rawFrame
        ⟨conn, shared, flow, none⟩
      else conn.handleProtocolMessage wire rawFrame shared

/-- The loop, over the turns that are there before the stream would have to wait. -/
def pollLoop (conn : BscProtocolConnection β ω) (shared : Shared β) :
    List (Input β ω) → Turned β ω × List (ω × BlocksByRangePacket β)
  | [] => (⟨conn, shared, .pending, none⟩, [])
  | input :: inputs =>
    let turned := conn.turn wire input shared
    match turned.flow with
    | .next =>
      let (last, answered) := pollLoop turned.conn turned.shared inputs
      (last, turned.answered.toList ++ answered)
    | _ => (turned, turned.answered.toList)

/-- The last turn, and the waiters that were answered before it and in it. -/
def pollNext (conn : BscProtocolConnection β ω) (shared : Shared β) (inputs : List (Input β ω)) :
    Turned β ω × List (ω × BlocksByRangePacket β) :=
  match conn.initialCapability with
  | some initialCmd =>
    (⟨{ conn with initialCapability := none }, shared, .send (encodeCommand wire initialCmd), none⟩,
      [])
  | none => conn.pollLoop wire shared inputs

/-! ## What a turn can do -/

/-- The requests that wait are some of those before; nothing else shows. -/
structure Pruned (conn conn' : BscProtocolConnection β ω) : Prop where
  deadline : conn'.handshakeDeadline = conn.handshakeDeadline
  completed : conn'.handshakeCompleted = conn.handshakeCompleted
  initial : conn'.initialCapability = conn.initialCapability
  version : conn'.protoVersion = conn.protoVersion
  pending : conn'.pendingRangeReqs.entries.Sublist conn.pendingRangeReqs.entries

theorem Pruned.trans {a b c : BscProtocolConnection β ω} (hab : Pruned a b) (hbc : Pruned b c) :
    Pruned a c :=
  ⟨hbc.deadline.trans hab.deadline, hbc.completed.trans hab.completed,
    hbc.initial.trans hab.initial, hbc.version.trans hab.version, hbc.pending.trans hab.pending⟩

theorem pruned (now : Nat) (isClosed : ω → Bool) (conn : BscProtocolConnection β ω) :
    Pruned conn (conn.prunePendingRequests now isClosed) := by
  unfold prunePendingRequests
  split
  · exact ⟨rfl, rfl, rfl, rfl, .refl _⟩
  · exact ⟨rfl, rfl, rfl, rfl, List.filter_sublist⟩

/-- The deadline of the handshake, if there is one, is later. -/
def InTime (conn : BscProtocolConnection β ω) (now : Nat) : Prop :=
  conn.handshakeDeadline.any (· ≤ now) = false

/-- The frame is a capability of the version of the connection. -/
def Accepts (conn : BscProtocolConnection β ω) (frame : Bytes) : Prop :=
  ∃ pkt rest, BscCapPacket.decode wire.overflowChecks frame = .ok (pkt, rest) ∧
    pkt.protocolVersion = conn.protoVersion

/-- The turns of a connection, by what they do. -/
inductive Turns (conn : BscProtocolConnection β ω) (shared : Shared β) :
    Input β ω → Turned β ω → Prop
  | request {input conn' req waiter} (hprune : Pruned conn conn')
      (hready : input.ready = .command (.getBlocksByRange req waiter)) :
      Turns conn shared input
        ⟨{ conn' with
            pendingRangeReqs :=
              conn'.pendingRangeReqs.insert req.requestId (waiter, input.second) },
          shared, .send (encodeCommand wire (.getBlocksByRange req waiter : BscCommand β ω)), none⟩
  | command {input conn' cmd} (hprune : Pruned conn conn') (hready : input.ready = .command cmd)
      (hcmd : ∀ req waiter, cmd ≠ .getBlocksByRange req waiter) :
      Turns conn shared input ⟨conn', shared, .send (encodeCommand wire cmd), none⟩
  | empty {input conn'} (hprune : Pruned conn conn') (hready : input.ready = .frame []) :
      Turns conn shared input ⟨conn', shared, .next, none⟩
  | closed {input conn'} (hprune : Pruned conn conn') (hready : input.ready = .closed) :
      Turns conn shared input ⟨conn', shared, .close, none⟩
  | pending {input conn'} (hprune : Pruned conn conn') (hready : input.ready = .pending) :
      Turns conn shared input ⟨conn', shared, .pending, none⟩
  | refused {input conn' frame} (hprune : Pruned conn conn') (hready : input.ready = .frame frame)
      (hbefore : conn.handshakeCompleted = false)
      (hrefused : conn.InTime input.third →
        BscCapPacket.decode wire.overflowChecks frame ≠ .panic ∧ ¬ conn.Accepts wire frame) :
      Turns conn shared input ⟨conn', shared, .close, none⟩
  | unwound {input conn' frame} (hprune : Pruned conn conn') (hready : input.ready = .frame frame)
      (hbefore : conn.handshakeCompleted = false) (htime : conn.InTime input.third)
      (hpanic : BscCapPacket.decode wire.overflowChecks frame = .panic) :
      Turns conn shared input ⟨conn', shared, .panic, none⟩
  | handshake {input conn' frame} (hprune : Pruned conn conn') (hready : input.ready = .frame frame)
      (hbefore : conn.handshakeCompleted = false) (haccepts : conn.Accepts wire frame) :
      Turns conn shared input
        ⟨{ conn' with handshakeCompleted := true, handshakeDeadline := none }, shared, .next, none⟩
  | ignored {input conn' frame} (hprune : Pruned conn conn') (hready : input.ready = .frame frame)
      (hafter : conn.handshakeCompleted = true) :
      Turns conn shared input ⟨conn', shared, .next, none⟩
  | votes {input conn' frame packet rest} (hprune : Pruned conn conn')
      (hready : input.ready = .frame frame) (hafter : conn.handshakeCompleted = true)
      (hdecode : VotesPacket.decode frame = .ok (packet, rest)) :
      Turns conn shared input
        ⟨conn', { shared with pool := shared.pool.handleVotesBroadcast wire.envelopeHash packet },
          .next, none⟩
  | served {input conn' frame req rest} (hprune : Pruned conn conn')
      (hready : input.ready = .frame frame) (hafter : conn.handshakeCompleted = true)
      (hdecode : GetBlocksByRangePacket.decode frame = .ok (req, rest))
      (hcount : 0 < req.count.toNat ∧ req.count.toNat ≤ 64) :
      Turns conn shared input
        ⟨conn', { shared with cache := (shared.cache.buildBlocksByRangeResponse req).2 },
          .send ((shared.cache.buildBlocksByRangeResponse req).1.encode wire.codec), none⟩
  | answered {input conn' frame res rest waiter since} (hprune : Pruned conn conn')
      (hready : input.ready = .frame frame) (hafter : conn.handshakeCompleted = true)
      (hdecode : BlocksByRangePacket.decode wire.codec frame = .ok (res, rest))
      (hwaits : conn'.pendingRangeReqs.lookup res.requestId = some (waiter, since)) :
      Turns conn shared input
        ⟨{ conn' with pendingRangeReqs := conn'.pendingRangeReqs.erase res.requestId }, shared,
          .next, some (waiter, res)⟩

variable {wire} {conn conn' : BscProtocolConnection β ω} {shared : Shared β} {input : Input β ω}
  {frame : Bytes}

theorem Pruned.inTime_iff (h : Pruned conn conn') {now : Nat} :
    conn'.InTime now ↔ conn.InTime now := by
  unfold InTime
  rw [h.deadline]

theorem Pruned.accepts_iff (h : Pruned conn conn') :
    conn'.Accepts wire frame ↔ conn.Accepts wire frame := by
  unfold Accepts
  rw [h.version]

/-- What is not a capability is refused as such. -/
theorem decode_eq_err_of_head (h : frame.head? ≠ some capabilityId) :
    ∃ e, BscCapPacket.decode wire.overflowChecks frame = .err e := by
  obtain herr | ⟨payload, following, v, tail, rfl, -, -⟩ :=
    BscCapPacket.decode_cases wire.overflowChecks frame
  · exact herr
  · exact absurd rfl h

theorem not_accepts_of_err {e : CapError}
    (h : BscCapPacket.decode wire.overflowChecks frame = .err e) :
    BscCapPacket.decode wire.overflowChecks frame ≠ .panic ∧ ¬ conn.Accepts wire frame := by
  refine ⟨fun hpanic => absurd (h.symm.trans hpanic) (by nofun), ?_⟩
  rintro ⟨pkt, rest, hok, -⟩
  exact absurd (h.symm.trans hok) (by nofun)

theorem handleHandshakeFrame_turns (hprune : Pruned conn conn')
    (hready : input.ready = .frame frame) (hbefore : conn.handshakeCompleted = false) :
    Turns wire conn shared input ⟨(conn'.handleHandshakeFrame wire input.third frame).1, shared,
      (conn'.handleHandshakeFrame wire input.third frame).2, none⟩ := by
  unfold handleHandshakeFrame
  split
  · next hlate =>
    refine .refused hprune hready hbefore fun h => ?_
    exact absurd (hlate.symm.trans (hprune.inTime_iff.mpr h)) (by decide)
  next htime =>
  have htime : conn.InTime input.third := hprune.inTime_iff.mp (Bool.eq_false_iff.mpr htime)
  split
  · next hhead =>
    obtain ⟨e, herr⟩ : ∃ e, BscCapPacket.decode wire.overflowChecks frame = .err e :=
      decode_eq_err_of_head hhead
    exact .refused hprune hready hbefore fun _ => not_accepts_of_err herr
  cases hdecode : BscCapPacket.decode wire.overflowChecks frame with
  | err e => exact .refused hprune hready hbefore fun _ => not_accepts_of_err hdecode
  | panic => exact .unwound hprune hready hbefore htime hdecode
  | ok read =>
    obtain ⟨pkt, rest⟩ := read
    dsimp only
    split
    · next hversion =>
      refine .refused hprune hready hbefore fun _ => ⟨by rw [hdecode]; nofun, ?_⟩
      rintro ⟨pkt', rest', hok, hsame⟩
      obtain ⟨rfl, -⟩ := Prod.mk.inj (Outcome.ok.inj (hdecode.symm.trans hok))
      exact hversion (hsame.trans hprune.version.symm)
    · next hversion =>
      refine .handshake hprune hready hbefore (hprune.accepts_iff.mp ?_)
      exact ⟨pkt, rest, hdecode, not_not.mp hversion⟩

theorem handleProtocolMessage_turns (hprune : Pruned conn conn')
    (hready : input.ready = .frame frame) (hafter : conn.handshakeCompleted = true) :
    Turns wire conn shared input (conn'.handleProtocolMessage wire frame shared) := by
  have hignored : Turns wire conn shared input ⟨conn', shared, .next, none⟩ :=
    .ignored hprune hready hafter
  unfold handleProtocolMessage
  dsimp only
  split
  · cases hdecode : VotesPacket.decode frame with
    | error e => exact hignored
    | ok read => exact .votes hprune hready hafter hdecode
  split
  · cases hdecode : GetBlocksByRangePacket.decode frame with
    | error e => exact hignored
    | ok read =>
      obtain ⟨req, rest⟩ := read
      dsimp only
      split
      · exact hignored
      · next hcount =>
        obtain ⟨hzero, hmax⟩ := not_or.mp hcount
        refine .served hprune hready hafter hdecode ⟨?_, ?_⟩
        · exact Nat.pos_of_ne_zero fun h => hzero (UInt64.toNat_inj.mp h)
        · exact Nat.not_lt.mp fun h => hmax (UInt64.lt_iff_toNat_lt.mpr h)
  split
  · cases hdecode : BlocksByRangePacket.decode wire.codec frame with
    | error e => exact hignored
    | ok read =>
      obtain ⟨res, rest⟩ := read
      dsimp only
      cases hwaits : conn'.pendingRangeReqs.lookup res.requestId with
      | none => exact hignored
      | some entry => exact .answered hprune hready hafter hdecode hwaits
  · exact hignored

/-- What a turn does is one of the cases of `Turns`, with its condition. -/
theorem turn_turns (input : Input β ω) (conn : BscProtocolConnection β ω) (shared : Shared β) :
    Turns wire conn shared input (conn.turn wire input shared) := by
  have hfirst := conn.pruned input.first (input.isClosed input.first)
  unfold turn pollOutgoingCommands
  -- queued commands are looked at before the connection
  cases hready : input.ready with
  | command cmd =>
    cases cmd with
    | getBlocksByRange req waiter => exact .request hfirst hready
    | capability protocolVersion extra => exact .command hfirst hready (by simp)
    | votes votes => exact .command hfirst hready (by simp)
    | blocksByRange packet => exact .command hfirst hready (by simp)
  | closed =>
    dsimp only
    rw [pollIncomingFrame, hready]
    exact .closed hfirst hready
  | pending =>
    dsimp only
    rw [pollIncomingFrame, hready]
    exact .pending hfirst hready
  | frame raw =>
    dsimp only
    rw [pollIncomingFrame, hready]
    cases raw with
    | nil => exact .empty hfirst hready
    | cons msgId payload =>
      -- a frame with a message id prunes the waiters once more
      have hsecond := hfirst.trans (pruned input.second (input.isClosed input.second) _)
      dsimp only
      cases hcompleted : conn.handshakeCompleted with
      | false =>
        rw [hsecond.completed, hcompleted]
        exact handleHandshakeFrame_turns hsecond hready hcompleted
      | true =>
        rw [hsecond.completed, hcompleted]
        exact handleProtocolMessage_turns hsecond hready hcompleted

/-- Only before the handshake, and only with overflow checks, can a frame make the task unwind. -/
theorem turn_panic_iff :
    (conn.turn wire input shared).flow = .panic ↔
      wire.overflowChecks = true ∧ conn.handshakeCompleted = false ∧ conn.InTime input.third ∧
        ∃ v tail, input.ready = .frame (capabilityId :: 0xc0 :: (encodeU64 v ++ tail)) := by
  have hturns : Turns wire conn shared input _ := turn_turns input conn shared
  generalize conn.turn wire input shared = turned at hturns
  constructor
  · intro hpanic
    cases hturns with
    | unwound hprune hready hbefore htime hdecode =>
      obtain ⟨hchecks, v, tail, rfl⟩ := BscCapPacket.decode_eq_panic_iff.mp hdecode
      exact ⟨hchecks, hbefore, htime, v, tail, hready⟩
    | _ => simp at hpanic
  · rintro ⟨hchecks, hbefore, htime, v, tail, hframe⟩
    have hdecode := BscCapPacket.decode_eq_panic_iff.mpr ⟨hchecks, v, tail, rfl⟩
    have hready {frame : Bytes} (h : input.ready = .frame frame) :
        frame = capabilityId :: 0xc0 :: (encodeU64 v ++ tail) :=
      Ready.frame.inj (h.symm.trans hframe)
    cases hturns with
    | unwound => rfl
    | refused hprune h _ hrefused =>
      rw [hready h] at hrefused
      exact absurd hdecode (hrefused htime).1
    | handshake hprune h _ haccepts =>
      obtain ⟨pkt, rest, hok, -⟩ := haccepts
      rw [hready h, hdecode] at hok
      exact absurd hok (by nofun)
    | empty hprune h => exact absurd (hready h) (by nofun)
    | _ => simp_all

end BscProtocolConnection

end RethBsc
