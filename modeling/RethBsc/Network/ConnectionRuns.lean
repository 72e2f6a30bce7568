import Mathlib.Data.List.Perm.Subperm
import RethBsc.Network.Connection

/-!
# Runs of a connection

A connection takes turns, in whatever order commands and frames come, and writes a log of what goes
in and out.  Between two turns other connections may change the vote pool and the cache of blocks.

* `Reached.pollNext`: the calls of `poll_next` are such runs.
* `Reached.gate`: nothing of a peer is handled before it has sent a capability of the same version.
* `Reached.sent_origin`: where every frame that is sent comes from.
* `Reached.settled_subperm`: every request is answered once at most, to the one who made it.
-/

namespace RethBsc

open Rust

def Flow.frame? : Flow → Option Bytes
  | .send frame => some frame
  | _ => none

def Ready.frame? {β ω : Type} : Ready β ω → Option Bytes
  | .frame raw => some raw
  | _ => none

namespace BscProtocolConnection

/-- What goes into a connection and comes out of it, and what its turns find around them. -/
inductive Event (β ω : Type) where
  | found (shared : Shared β)
  | took (cmd : BscCommand β ω)
  | received (frame : Bytes)
  | sent (frame : Bytes)
  | answered (waiter : ω) (packet : BlocksByRangePacket β)

variable {β ω : Type}

def readyEvents : Ready β ω → List (Event β ω)
  | .command cmd => [.took cmd]
  | .frame raw => [.received raw]
  | _ => []

def flowEvents : Flow → List (Event β ω)
  | .send frame => [.sent frame]
  | _ => []

/-- The log of a turn. -/
def turnEvents (input : Input β ω) (shared : Shared β) (turned : Turned β ω) :
    List (Event β ω) :=
  .found shared :: readyEvents input.ready ++
    (turned.answered.toList.map fun a => .answered a.1 a.2) ++ flowEvents turned.flow

/-- The connection after any number of turns, with its log, on a node whose vote pool and cache meet
`has` at every turn. -/
inductive Reached (wire : Wire β) (has : Shared β → Prop) (start : BscProtocolConnection β ω) :
    List (Event β ω) → BscProtocolConnection β ω → Prop
  | start : Reached wire has start [] start
  | initial {log conn cmd} (h : Reached wire has start log conn)
      (hinitial : conn.initialCapability = some cmd) :
      Reached wire has start (log ++ [.sent (encodeCommand wire cmd)])
        { conn with initialCapability := none }
  | turn {log conn} (h : Reached wire has start log conn) (hinitial : conn.initialCapability = none)
      (input : Input β ω) (shared : Shared β) (hshared : has shared) :
      Reached wire has start (log ++ turnEvents input shared (conn.turn wire input shared))
        (conn.turn wire input shared).conn

/-! ## Calls of `poll_next` -/

def Event.answer? : Event β ω → Option (ω × BlocksByRangePacket β)
  | .answered waiter packet => some (waiter, packet)
  | _ => none

def answers (log : List (Event β ω)) : List (ω × BlocksByRangePacket β) :=
  log.filterMap Event.answer?

def Event.sent? : Event β ω → Option Bytes
  | .sent frame => some frame
  | _ => none

def sentFrames (log : List (Event β ω)) : List Bytes := log.filterMap Event.sent?

def Event.received? : Event β ω → Option Bytes
  | .received frame => some frame
  | _ => none

def receivedFrames (log : List (Event β ω)) : List Bytes := log.filterMap Event.received?

variable {wire : Wire β} {has : Shared β → Prop} {start conn : BscProtocolConnection β ω}
  {shared : Shared β} {input : Input β ω} {turned : Turned β ω} {log log' : List (Event β ω)}

@[simp] theorem answers_append : answers (log ++ log') = answers log ++ answers log' :=
  List.filterMap_append

@[simp] theorem sentFrames_append : sentFrames (log ++ log') = sentFrames log ++ sentFrames log' :=
  List.filterMap_append

@[simp] theorem receivedFrames_append :
    receivedFrames (log ++ log') = receivedFrames log ++ receivedFrames log' :=
  List.filterMap_append

theorem answers_turnEvents : answers (turnEvents input shared turned) = turned.answered.toList := by
  unfold turnEvents
  cases input.ready <;> cases turned.answered <;> cases turned.flow <;> rfl

theorem sentFrames_turnEvents :
    sentFrames (turnEvents input shared turned) = turned.flow.frame?.toList := by
  unfold turnEvents
  cases input.ready <;> cases turned.answered <;> cases turned.flow <;> rfl

theorem receivedFrames_turnEvents :
    receivedFrames (turnEvents input shared turned) = input.ready.frame?.toList := by
  unfold turnEvents
  cases input.ready <;> cases turned.answered <;> cases turned.flow <;> rfl

/-- No turn brings the first capability back or changes the version. -/
theorem Turns.kept (h : Turns wire conn shared input turned) :
    turned.conn.initialCapability = conn.initialCapability ∧
      turned.conn.protoVersion = conn.protoVersion := by
  cases h with
  | request hprune | command hprune | empty hprune | closed hprune | pending hprune
  | refused hprune | unwound hprune | handshake hprune | ignored hprune | votes hprune
  | served hprune | answered hprune => exact ⟨hprune.initial, hprune.version⟩

/-- The turns of the loop, up to the one that ends it. -/
theorem Reached.pollLoop (h : Reached wire has start log conn)
    (hinitial : conn.initialCapability = none)
    (hhas : ∀ (conn : BscProtocolConnection β ω) input shared, has shared →
      has (conn.turn wire input shared).shared) (hshared : has shared) (inputs : List (Input β ω)) :
    ∃ log', Reached wire has start (log ++ log') (conn.pollLoop wire shared inputs).1.conn ∧
      answers log' = (conn.pollLoop wire shared inputs).2 ∧
      sentFrames log' = (conn.pollLoop wire shared inputs).1.flow.frame?.toList := by
  induction inputs generalizing log conn shared with
  | nil => exact ⟨[], by rwa [List.append_nil], rfl, rfl⟩
  | cons input inputs ih =>
    have hturn := h.turn hinitial input shared hshared
    have hkept : Turns wire conn shared input _ := turn_turns input conn shared
    have hsent : sentFrames (turnEvents input shared (conn.turn wire input shared)) = _ :=
      sentFrames_turnEvents
    have hanswers : answers (turnEvents input shared (conn.turn wire input shared)) = _ :=
      answers_turnEvents
    unfold BscProtocolConnection.pollLoop
    dsimp only
    cases hflow : (conn.turn wire input shared).flow with
    | next =>
      obtain ⟨log', hreached, hanswers', hsent'⟩ :=
        ih hturn (hkept.kept.1.trans hinitial) (hhas conn input shared hshared)
      refine ⟨turnEvents input shared (conn.turn wire input shared) ++ log', ?_, ?_, ?_⟩
      · rwa [← List.append_assoc]
      · rw [answers_append, hanswers, hanswers']
      · rw [sentFrames_append, hsent, hsent', hflow]
        rfl
    | send | close | pending | panic => exact ⟨_, hturn, hanswers, hsent⟩

/-- A call of `poll_next` is a run; it sends the frame that it returns and no other. -/
theorem Reached.pollNext (h : Reached wire has start log conn)
    (hhas : ∀ (conn : BscProtocolConnection β ω) input shared, has shared →
      has (conn.turn wire input shared).shared) (hshared : has shared) (inputs : List (Input β ω)) :
    ∃ log', Reached wire has start (log ++ log') (conn.pollNext wire shared inputs).1.conn ∧
      answers log' = (conn.pollNext wire shared inputs).2 ∧
      sentFrames log' = (conn.pollNext wire shared inputs).1.flow.frame?.toList := by
  unfold BscProtocolConnection.pollNext
  cases hinitial : conn.initialCapability with
  | none => exact h.pollLoop hinitial hhas hshared inputs
  | some cmd => exact ⟨[.sent (encodeCommand wire cmd)], h.initial hinitial, rfl, rfl⟩

/-! ## Before the handshake -/

/-- Before the handshake a peer gets nothing done and no answer. -/
theorem Turns.before (h : Turns wire conn shared input turned)
    (hbefore : conn.handshakeCompleted = false) :
    turned.shared = shared ∧ turned.answered = none ∧ ∀ frame, turned.flow = .send frame →
        ∃ cmd, input.ready = .command cmd ∧ frame = encodeCommand wire cmd := by
  cases h with
  | request _ hready => exact ⟨rfl, rfl, fun frame h => ⟨_, hready, (Flow.send.inj h).symm⟩⟩
  | command _ hready => exact ⟨rfl, rfl, fun frame h => ⟨_, hready, (Flow.send.inj h).symm⟩⟩
  | empty | closed | pending | refused | unwound | handshake => exact ⟨rfl, rfl, nofun⟩
  | ignored _ _ hafter | votes _ _ hafter | served _ _ hafter | answered _ _ hafter =>
    exact absurd (hbefore.symm.trans hafter) (by decide)

/-- The handshake ends with a frame that is accepted. -/
theorem Turns.completed (h : Turns wire conn shared input turned)
    (hbefore : conn.handshakeCompleted = false) (hafter : turned.conn.handshakeCompleted = true) :
    ∃ frame, input.ready = .frame frame ∧ conn.Accepts wire frame := by
  cases h with
  | handshake _ hready _ haccepts => exact ⟨_, hready, haccepts⟩
  | request hprune | command hprune | empty hprune | closed hprune | pending hprune
  | refused hprune | unwound hprune | ignored hprune | votes hprune | served hprune
  | answered hprune =>
    exact absurd ((hprune.completed.trans hbefore).symm.trans hafter) (by decide)

theorem Reached.version (h : Reached wire has start log conn) :
    conn.protoVersion = start.protoVersion := by
  induction h with
  | start => rfl
  | initial _ _ ih => exact ih
  | turn _ _ input shared _ ih => exact (turn_turns input _ shared).kept.2.trans ih

/-- A connection that waits for a capability did so before, with the same deadline. -/
theorem Turns.deadline (h : Turns wire conn shared input turned)
    (hbefore : turned.conn.handshakeCompleted = false) :
    conn.handshakeCompleted = false ∧ turned.conn.handshakeDeadline = conn.handshakeDeadline := by
  cases h with
  | handshake => exact absurd hbefore (by nofun)
  | request hprune | command hprune | empty hprune | closed hprune | pending hprune
  | refused hprune | unwound hprune | ignored hprune | votes hprune | served hprune
  | answered hprune => exact ⟨hprune.completed.symm.trans hbefore, hprune.deadline⟩

theorem Reached.deadline (h : Reached wire has start log conn)
    (hbefore : conn.handshakeCompleted = false) :
    conn.handshakeDeadline = start.handshakeDeadline := by
  induction h with
  | start => rfl
  | initial _ _ ih => exact ih hbefore
  | turn _ _ input shared _ ih =>
    obtain ⟨hbefore, hdeadline⟩ := (turn_turns input _ shared).deadline hbefore
    exact hdeadline.trans (ih hbefore)

/-- A new connection waits for a capability until its deadline. -/
theorem Reached.inTime_iff {since : Nat} {version : UInt64}
    (h : Reached wire has (new since version) log conn)
    (hbefore : conn.handshakeCompleted = false) {now : Nat} :
    conn.InTime now ↔ now < since + handshakeTimeout := by
  have hdeadline : conn.handshakeDeadline = some (since + handshakeTimeout) := h.deadline hbefore
  rw [InTime, hdeadline, Option.any_some, decide_eq_false_iff_not, Nat.not_le]

/-- A handshake is complete only if a capability of the own version came. -/
theorem Reached.accepted (h : Reached wire has start log conn)
    (hstart : start.handshakeCompleted = false) (hcompleted : conn.handshakeCompleted = true) :
    ∃ frame ∈ receivedFrames log, start.Accepts wire frame := by
  induction h with
  | start => exact absurd (hstart.symm.trans hcompleted) (by decide)
  | initial _ _ ih =>
    obtain ⟨frame, hframe, haccepts⟩ := ih hcompleted
    exact ⟨frame, by rw [receivedFrames_append]; exact List.mem_append_left _ hframe, haccepts⟩
  | @turn log conn h _ input shared _ ih =>
    rw [receivedFrames_append, receivedFrames_turnEvents]
    cases hbefore : conn.handshakeCompleted with
    | true => grind
    | false =>
      obtain ⟨frame, hready, haccepts⟩ :=
        (turn_turns input conn shared).completed hbefore hcompleted
      refine ⟨frame, List.mem_append_right _ (by rw [hready]; exact List.mem_singleton_self _), ?_⟩
      unfold Accepts at haccepts ⊢
      rwa [h.version] at haccepts

/-- **The gate.**  As long as no capability of the own version has come, whatever comes leaves the
vote pool and the cache alone, reaches no waiter and gets no reply. -/
theorem Reached.gate (h : Reached wire has start log conn)
    (hstart : start.handshakeCompleted = false)
    (hnone : ∀ frame ∈ receivedFrames log, ¬ start.Accepts wire frame) (input : Input β ω)
    (shared : Shared β) :
    (conn.turn wire input shared).shared = shared ∧ (conn.turn wire input shared).answered = none ∧
      ∀ frame, (conn.turn wire input shared).flow = .send frame →
        ∃ cmd, input.ready = .command cmd ∧ frame = encodeCommand wire cmd := by
  refine (turn_turns input conn shared).before (Bool.eq_false_iff.mpr fun hcompleted => ?_)
  obtain ⟨frame, hframe, haccepts⟩ := h.accepted hstart hcompleted
  exact hnone frame hframe haccepts

/-! ## What is sent -/

/-- The capability is sent before anything else goes in or out. -/
theorem Reached.first_frame (h : Reached wire has start log conn) {cmd : BscCommand β ω}
    (hstart : start.initialCapability = some cmd) :
    conn.initialCapability = some cmd ∧ log = [] ∨
      conn.initialCapability = none ∧ ∃ later, log = .sent (encodeCommand wire cmd) :: later := by
  induction h with
  | start => exact .inl ⟨hstart, rfl⟩
  | initial _ hinitial ih =>
    obtain ⟨hcmd, rfl⟩ | ⟨hnone, -⟩ := ih
    · obtain rfl := Option.some.inj (hcmd.symm.trans hinitial)
      exact .inr ⟨rfl, [], rfl⟩
    · exact absurd (hnone.symm.trans hinitial) (by nofun)
  | turn _ hinitial input shared _ ih =>
    obtain ⟨hcmd, -⟩ | ⟨-, later, rfl⟩ := ih
    · exact absurd (hcmd.symm.trans hinitial) (by nofun)
    · exact .inr ⟨(turn_turns input _ shared).kept.1.trans hinitial, _, rfl⟩

/-- Where a frame comes from: it is the first capability, a command of the node, or the response to
a request of the peer that asks for at most 64 blocks, built from the cache that the turn with this
request found. -/
inductive Origin (wire : Wire β) (has : Shared β → Prop) (start : BscProtocolConnection β ω)
    (log : List (Event β ω)) (frame : Bytes) : Prop
  | initial (cmd : BscCommand β ω) (hcmd : start.initialCapability = some cmd)
      (hframe : frame = encodeCommand wire cmd)
  | command (cmd : BscCommand β ω) (hcmd : .took cmd ∈ log)
      (hframe : frame = encodeCommand wire cmd)
  | response (raw : Bytes) (req : GetBlocksByRangePacket) (rest : Bytes) (shared : Shared β)
      (hturn : [.found shared, .received raw, .sent frame] <:+: log)
      (hdecode : GetBlocksByRangePacket.decode raw = .ok (req, rest))
      (hcount : 0 < req.count.toNat ∧ req.count.toNat ≤ 64)
      (hshared : has shared)
      (hframe : frame = (shared.cache.buildBlocksByRangeResponse req).1.encode wire.codec)

variable {frame : Bytes} {packet : BlocksByRangePacket β}

theorem Origin.mono (h : Origin wire has start log frame) (hlog : log <:+: log') :
    Origin wire has start log' frame := by
  cases h with
  | initial cmd hcmd hframe => exact .initial cmd hcmd hframe
  | command cmd hcmd hframe => exact .command cmd (hlog.subset hcmd) hframe
  | response raw req rest shared hturn hdecode hcount hshared hframe =>
    exact .response raw req rest shared (hturn.trans hlog) hdecode hcount hshared hframe

theorem Turns.origin (h : Turns wire conn shared input turned) (hshared : has shared)
    (hsend : turned.flow = .send frame) :
    Origin wire has start (turnEvents input shared turned) frame := by
  have htook {cmd : BscCommand β ω} (hready : input.ready = .command cmd) :
      .took cmd ∈ turnEvents input shared turned := by
    rw [turnEvents, hready]
    exact List.mem_cons_of_mem _ List.mem_cons_self
  cases h with
  | request _ hready => exact .command _ (htook hready) (Flow.send.inj hsend).symm
  | command _ hready => exact .command _ (htook hready) (Flow.send.inj hsend).symm
  | served _ hready _ hdecode hcount =>
    obtain rfl := Flow.send.inj hsend
    refine .response _ _ _ shared ?_ hdecode hcount hshared rfl
    rw [turnEvents, hready]
    exact List.infix_refl _
  | empty | closed | pending | refused | unwound | handshake | ignored | votes | answered =>
    exact absurd hsend (by nofun)

theorem Reached.initial_or (h : Reached wire has start log conn) :
    conn.initialCapability = none ∨ conn.initialCapability = start.initialCapability := by
  induction h with
  | start => exact .inr rfl
  | initial => exact .inl rfl
  | turn _ hinitial input shared =>
    exact .inl ((turn_turns input _ shared).kept.1.trans hinitial)

theorem Reached.sent_origin (h : Reached wire has start log conn)
    (hframe : frame ∈ sentFrames log) : Origin wire has start log frame := by
  induction h with
  | start => exact absurd hframe List.not_mem_nil
  | initial h hinitial ih =>
    rw [sentFrames_append, List.mem_append] at hframe
    obtain hframe | hframe := hframe
    · exact (ih hframe).mono (List.prefix_append _ _).isInfix
    obtain rfl := List.mem_singleton.mp hframe
    obtain hnone | hstart := h.initial_or
    · exact absurd (hnone.symm.trans hinitial) (by nofun)
    · exact .initial _ (hstart.symm.trans hinitial) rfl
  | @turn log conn _ _ input shared hshared ih =>
    rw [sentFrames_append, List.mem_append, sentFrames_turnEvents] at hframe
    obtain hframe | hframe := hframe
    · exact (ih hframe).mono (List.prefix_append _ _).isInfix
    refine Origin.mono ?_ (List.suffix_append _ _).isInfix
    cases hflow : (conn.turn wire input shared).flow with
    | send sent =>
      rw [hflow] at hframe
      obtain rfl := List.mem_singleton.mp hframe
      exact (turn_turns input conn shared).origin hshared hflow
    | close | pending | next | panic =>
      rw [hflow] at hframe
      exact absurd hframe List.not_mem_nil

/-! ## Requests and their answers -/

def readyRequest : Ready β ω → List (UInt64 × ω)
  | .command (.getBlocksByRange req waiter) => [(req.requestId, waiter)]
  | _ => []

def Event.request? : Event β ω → Option (UInt64 × ω)
  | .took (.getBlocksByRange req waiter) => some (req.requestId, waiter)
  | _ => none

/-- The requests that were made, each with its id and who waits for it. -/
def requests (log : List (Event β ω)) : List (UInt64 × ω) := log.filterMap Event.request?

/-- The waiters that were answered, each with the id of the response. -/
def settled (log : List (Event β ω)) : List (UInt64 × ω) :=
  (answers log).map fun a => (a.2.requestId, a.1)

/-- The requests that wait. -/
def waiting (conn : BscProtocolConnection β ω) : List (UInt64 × ω) :=
  conn.pendingRangeReqs.entries.map fun e => (e.1, e.2.1)

theorem requests_turnEvents : requests (turnEvents input shared turned) = readyRequest input.ready := by
  unfold turnEvents
  cases input.ready with
  | command cmd => cases cmd <;> cases turned.answered <;> cases turned.flow <;> rfl
  | frame | closed | pending => cases turned.answered <;> cases turned.flow <;> rfl

theorem Pruned.waiting {conn' : BscProtocolConnection β ω} (h : Pruned conn conn') :
    conn'.waiting.Sublist conn.waiting := h.pending.map _

/-- A turn settles and keeps what waited before, or what it took. -/
theorem Turns.waiting (h : Turns wire conn shared input turned) :
    ((turned.answered.toList.map fun a => (a.2.requestId, a.1)) ++ turned.conn.waiting).Subperm
      (conn.waiting ++ readyRequest input.ready) := by
  have hkept {conn' : BscProtocolConnection β ω} (hprune : Pruned conn conn') :
      conn'.waiting.Subperm (conn.waiting ++ readyRequest input.ready) :=
    (hprune.waiting.trans (List.sublist_append_left _ _)).subperm
  cases h with
  | @request conn' req waiter hprune hready =>
    -- what waited under the same id is overwritten
    have herase : (conn'.pendingRangeReqs.entries.kerase req.requestId).Sublist
        conn.pendingRangeReqs.entries := (List.kerase_sublist _ _).trans hprune.pending
    rw [hready]
    refine List.Subperm.trans ?_ List.perm_append_comm.subperm
    exact (List.subperm_cons _).mpr (herase.map _).subperm
  | answered hprune _ _ _ hwaits =>
    have hperm := (Map.entries_perm_of_lookup hwaits).map fun e => (e.1, e.2.1)
    exact hperm.symm.subperm.trans (hkept hprune)
  | handshake hprune => exact (hkept hprune :)
  | command hprune | empty hprune | closed hprune | pending hprune | refused hprune
  | unwound hprune | ignored hprune | votes hprune | served hprune => exact hkept hprune

/-- What was settled and what waits are requests that were made, none of them counted twice. -/
theorem Reached.settled_waiting_subperm (h : Reached wire has start log conn)
    (hstart : start.waiting = []) :
    (settled log ++ conn.waiting).Subperm (requests log) := by
  induction h with
  | start =>
    rw [hstart]
    exact List.Subperm.refl _
  | @initial log conn cmd h hinitial ih =>
    have hsettled : settled (log ++ [.sent (encodeCommand wire cmd)]) = settled log := by
      rw [settled, answers_append]
      simp [settled, answers, Event.answer?]
    have hrequests : requests (log ++ [.sent (encodeCommand wire cmd)]) = requests log := by
      simp [requests, Event.request?]
    rw [hsettled, hrequests]
    exact ih
  | @turn log conn h hinitial input shared _ ih =>
    have hturn : Turns wire conn shared input _ := turn_turns input conn shared
    have hsettled : settled (log ++ turnEvents input shared (conn.turn wire input shared)) = settled log ++
        (conn.turn wire input shared).answered.toList.map fun a => (a.2.requestId, a.1) := by
      rw [settled, answers_append, answers_turnEvents, List.map_append]
      rfl
    have hrequests : requests (log ++ turnEvents input shared (conn.turn wire input shared))
        = requests log ++ readyRequest input.ready := by
      rw [requests, List.filterMap_append]
      exact congrArg _ requests_turnEvents
    rw [hsettled, hrequests, List.append_assoc]
    refine ((List.subperm_append_left _).mpr hturn.waiting).trans ?_
    rw [← List.append_assoc]
    exact (List.subperm_append_right _).mpr ih

theorem Turns.read_of_answered (h : Turns wire conn shared input turned) {waiter : ω}
    (hanswer : turned.answered = some (waiter, packet)) :
    ∃ frame rest, input.ready = .frame frame ∧
      BlocksByRangePacket.decode wire.codec frame = .ok (packet, rest) := by
  cases h with
  | answered _ hready _ hdecode _ =>
    obtain ⟨-, rfl⟩ := Prod.mk.inj (Option.some.inj hanswer)
    exact ⟨_, _, hready, hdecode⟩
  | request | command | empty | closed | pending | refused | unwound | handshake | ignored | votes
  | served => exact absurd hanswer (by nofun)

/-- **Answers.**  Every answer is to a request that was made, goes to the one who made it, and no
request is answered twice. -/
theorem Reached.settled_subperm (h : Reached wire has start log conn)
    (hstart : start.waiting = []) : (settled log).Subperm (requests log) :=
  (List.sublist_append_left _ _).subperm.trans (h.settled_waiting_subperm hstart)

/-- A waiter is handed what a frame of the peer was read as. -/
theorem Reached.answer_received (h : Reached wire has start log conn) {waiter : ω}
    (hanswer : (waiter, packet) ∈ answers log) :
    ∃ frame ∈ receivedFrames log, ∃ rest,
      BlocksByRangePacket.decode wire.codec frame = .ok (packet, rest) := by
  induction h with
  | start => exact absurd hanswer List.not_mem_nil
  | initial _ _ ih =>
    rw [answers_append, List.mem_append] at hanswer
    rw [receivedFrames_append]
    obtain ⟨frame, hframe, hread⟩ := ih (hanswer.resolve_right List.not_mem_nil)
    exact ⟨frame, List.mem_append_left _ hframe, hread⟩
  | @turn log conn _ _ input shared _ ih =>
    rw [answers_append, answers_turnEvents, List.mem_append] at hanswer
    rw [receivedFrames_append, receivedFrames_turnEvents]
    obtain hanswer | hanswer := hanswer
    · obtain ⟨frame, hframe, hread⟩ := ih hanswer
      exact ⟨frame, List.mem_append_left _ hframe, hread⟩
    · obtain ⟨frame, rest, hready, hread⟩ :=
        (turn_turns input conn shared).read_of_answered (Option.mem_toList.mp hanswer)
      refine ⟨frame, List.mem_append_right _ ?_, rest, hread⟩
      rw [hready]
      exact List.mem_singleton_self _

/-- A waiter that is answered made a request with the id of the response. -/
theorem Reached.answer_requested (h : Reached wire has start log conn) (hstart : start.waiting = [])
    {waiter : ω} (hanswer : (waiter, packet) ∈ answers log) :
    ∃ req, .took (.getBlocksByRange req waiter) ∈ log ∧ req.requestId = packet.requestId := by
  have hsettled : (packet.requestId, waiter) ∈ settled log := List.mem_map_of_mem hanswer
  obtain ⟨event, hevent, hrequest⟩ :=
    List.mem_filterMap.mp ((h.settled_waiting_subperm hstart).subset
      (List.mem_append_left _ hsettled))
  cases event with
  | took cmd =>
    cases cmd with
    | getBlocksByRange req waiter' =>
      obtain ⟨hid, rfl⟩ := Prod.mk.inj (Option.some.inj hrequest)
      exact ⟨req, hevent, hid⟩
    | capability | votes | blocksByRange => exact absurd hrequest (by nofun)
  | found | received | sent | answered => exact absurd hrequest (by nofun)

end BscProtocolConnection

end RethBsc
