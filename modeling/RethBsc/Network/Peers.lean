import RethBsc.Network.ConnectionRuns

/-!
# Two connected peers

Two nodes that run `BscProtocolConnection` against each other.  Frames arrive in the order in which
they were sent; otherwise the two take their turns in any order, and each serves its own commands.

* `Connected.agreement`: the handshake succeeds exactly between peers of one version below 128, and
  such peers stay connected unless a capability comes too late.
* `Connected.answer_blocks`: what a waiter gets are the blocks that the other peer found for the
  request of this waiter, in the cache as it was in the turn that sent the response.
-/

namespace RethBsc

open Rust BscProtocolConnection

/-- Two connections with their logs, the frames on the way to each, and when its stream ended. -/
structure Peers (β ω : Type) where
  conn : Bool → BscProtocolConnection β ω
  log : Bool → List (Event β ω)
  inbox : Bool → List Bytes
  ended : Bool → Option Nat

def Flow.ends : Flow → Bool
  | .close | .panic => true
  | _ => false

namespace Peers

variable {β ω : Type}

/-- What a peer can find ready, and the frames that are then left for it.  It finds the connection
closed only after the stream of the other peer has ended. -/
inductive Finds (p : Peers β ω) (i : Bool) : Ready β ω → List Bytes → Prop
  | command (cmd : BscCommand β ω) : Finds p i (.command cmd) (p.inbox i)
  | frame (raw : Bytes) (rest : List Bytes) (h : p.inbox i = raw :: rest) :
      Finds p i (.frame raw) rest
  | pending : Finds p i .pending (p.inbox i)
  | closed (h : p.ended (!i) ≠ none) : Finds p i .closed (p.inbox i)

/-- A move of the peer `i`, which leaves `rest` on the way to it. -/
def move (p : Peers β ω) (i : Bool) (conn : BscProtocolConnection β ω) (events : List (Event β ω))
    (rest : List Bytes) (flow : Flow) (now : Nat) : Peers β ω where
  conn j := if j = i then conn else p.conn j
  log j := if j = i then p.log j ++ events else p.log j
  inbox j := if j = i then rest else p.inbox j ++ flow.frame?.toList
  ended j := if j = i then (if flow.ends then some now else p.ended j) else p.ended j

section Move

variable (p : Peers β ω) (i : Bool) (conn : BscProtocolConnection β ω) (events : List (Event β ω))
  (rest : List Bytes) (flow : Flow) (now : Nat)

@[simp] theorem move_conn_self : (p.move i conn events rest flow now).conn i = conn := if_pos rfl

@[simp] theorem move_conn_other : (p.move i conn events rest flow now).conn (!i) = p.conn (!i) :=
  if_neg (Bool.not_ne_self i)

@[simp] theorem move_log_self : (p.move i conn events rest flow now).log i = p.log i ++ events :=
  if_pos rfl

@[simp] theorem move_log_other : (p.move i conn events rest flow now).log (!i) = p.log (!i) :=
  if_neg (Bool.not_ne_self i)

@[simp] theorem move_inbox_self : (p.move i conn events rest flow now).inbox i = rest := if_pos rfl

@[simp] theorem move_inbox_other :
    (p.move i conn events rest flow now).inbox (!i) = p.inbox (!i) ++ flow.frame?.toList :=
  if_neg (Bool.not_ne_self i)

@[simp] theorem move_ended_self :
    (p.move i conn events rest flow now).ended i = if flow.ends then some now else p.ended i :=
  if_pos rfl

@[simp] theorem move_ended_other : (p.move i conn events rest flow now).ended (!i) = p.ended (!i) :=
  if_neg (Bool.not_ne_self i)

end Move

/-- Two peers after any number of moves.  A peer whose stream has ended makes no more of them. -/
inductive Connected (wire : Wire β) (has : Bool → Shared β → Prop) (since : Bool → Nat)
    (version : Bool → UInt64) : Peers β ω → Prop
  | start :
      Connected wire has since version
        ⟨fun i => new (since i) (version i), fun _ => [], fun _ => [], fun _ => none⟩
  | initial {p cmd} (h : Connected wire has since version p) (i : Bool) (hended : p.ended i = none)
      (hinitial : (p.conn i).initialCapability = some cmd) :
      Connected wire has since version
        (p.move i { p.conn i with initialCapability := none } [.sent (encodeCommand wire cmd)]
          (p.inbox i) (.send (encodeCommand wire cmd)) 0)
  | turn {p} (h : Connected wire has since version p) (i : Bool) (hended : p.ended i = none)
      (hinitial : (p.conn i).initialCapability = none) (input : Input β ω) (shared : Shared β)
      (hshared : has i shared) {rest} (hfinds : p.Finds i input.ready rest) :
      Connected wire has since version
        (p.move i ((p.conn i).turn wire input shared).conn
          (turnEvents input shared ((p.conn i).turn wire input shared)) rest
          ((p.conn i).turn wire input shared).flow input.third)

variable {wire : Wire β} {has : Bool → Shared β → Prop} {since : Bool → Nat}
  {version : Bool → UInt64} {p : Peers β ω}

/-! ## Each peer, and the way between them -/

theorem Connected.reached (h : Connected wire has since version p) (i : Bool) :
    Reached wire (has i) (new (since i) (version i)) (p.log i) (p.conn i) := by
  induction h generalizing i with
  | start => exact .start
  | initial _ j _ hinitial ih =>
    rcases Bool.eq_or_eq_not i j with rfl | rfl
    · simpa using (ih i).initial hinitial
    · simpa using ih (!j)
  | turn _ j _ hinitial input shared hshared _ ih =>
    rcases Bool.eq_or_eq_not i j with rfl | rfl
    · simpa using (ih i).turn hinitial input shared hshared
    · simpa using ih (!j)

variable {i : Bool} {rest : List Bytes} {v : UInt64} {raw : Bytes} {packet : BlocksByRangePacket β}

theorem Finds.inbox_eq {ready : Ready β ω}
    (h : p.Finds i ready rest) : p.inbox i = ready.frame?.toList ++ rest := by
  cases h with
  | command | pending | closed => rfl
  | frame raw rest h => exact h

/-- A peer has received what the other has sent, up to what is on the way. -/
def InOrder (p : Peers β ω) : Prop :=
  ∀ i, sentFrames (p.log (!i)) = receivedFrames (p.log i) ++ p.inbox i

theorem InOrder.move (h : p.InOrder) {conn : BscProtocolConnection β ω} {events : List (Event β ω)}
    {flow : Flow} {now : Nat} (hreceived : p.inbox i = receivedFrames events ++ rest)
    (hsent : sentFrames events = flow.frame?.toList) :
    (p.move i conn events rest flow now).InOrder := by
  intro j
  rcases Bool.eq_or_eq_not j i with rfl | rfl
  · rw [move_log_other, move_log_self, move_inbox_self, receivedFrames_append, h j, hreceived,
      List.append_assoc]
  · have hother := h (!i)
    simp_all

theorem Connected.inOrder (h : Connected wire has since version p) : p.InOrder := by
  induction h with
  | start => exact fun _ => rfl
  | initial _ i _ _ ih => exact ih.move rfl rfl
  | turn _ i _ _ input shared _ hfinds ih =>
    refine ih.move ?_ sentFrames_turnEvents
    rw [receivedFrames_turnEvents, hfinds.inbox_eq]

/-! ## The handshake -/

/-- The frame that a peer of this version sends first. -/
def capFrame (version : UInt64) : Bytes := BscCapPacket.encode ⟨version, [0x00]⟩

theorem decode_capFrame_of_lt {overflowChecks : Bool} (hsmall : v < 128) :
    BscCapPacket.decode overflowChecks (capFrame v) = .ok (⟨v, [0x00]⟩, []) := by
  have hlen : (⟨v, [0x00]⟩ : BscCapPacket).extra.length < 2 ^ 63 := show 1 < 2 ^ 63 by decide
  rw [← List.append_nil (capFrame v)]
  exact (BscCapPacket.decode_encode_iff hlen).mpr hsmall

theorem decode_capFrame_of_le {overflowChecks : Bool} (hlarge : ¬ v < 128) :
    BscCapPacket.decode overflowChecks (capFrame v) = .err (.rlp .inputTooShort) := by
  have hlen : (⟨v, [0x00]⟩ : BscCapPacket).extra.length < 2 ^ 63 := show 1 < 2 ^ 63 by decide
  exact BscCapPacket.decode_encode_of_le hlen hlarge

theorem accepts_capFrame_iff {conn : BscProtocolConnection β ω} :
    conn.Accepts wire (capFrame v) ↔ v = conn.protoVersion ∧ v < 128 := by
  unfold BscProtocolConnection.Accepts
  by_cases hsmall : v < 128
  · rw [decode_capFrame_of_lt hsmall]
    simp [*]
  · rw [decode_capFrame_of_le hsmall]
    exact ⟨fun ⟨_, _, hok, _⟩ => absurd hok (by nofun), fun h => absurd h.2 hsmall⟩

/-- The first frame on the way to a peer is the capability of the other. -/
theorem Connected.first_received (h : Connected wire has since version p)
    (hnone : receivedFrames (p.log i) = []) (hinbox : p.inbox i = raw :: rest) :
    raw = capFrame (version (!i)) := by
  have hsent : sentFrames (p.log (!i)) = raw :: rest := by rw [h.inOrder i, hnone, hinbox]; rfl
  obtain ⟨-, hlog⟩ | ⟨-, later, hlog⟩ := (h.reached (!i)).first_frame rfl
  · rw [hlog] at hsent
    exact absurd hsent (by nofun)
  · rw [hlog] at hsent
    exact (List.cons.inj hsent).1.symm

/-- The two versions are one that the codec can carry. -/
def Agree (version : Bool → UInt64) (i : Bool) : Prop := version (!i) = version i ∧ version i < 128

theorem Connected.accepts_iff (h : Connected wire has since version p) (i : Bool) :
    (p.conn i).Accepts wire (capFrame (version (!i))) ↔ Agree version i := by
  have hversion : (p.conn i).protoVersion = version i := (h.reached i).version
  rw [accepts_capFrame_iff, hversion, Agree]
  exact and_congr_right fun heq => by rw [heq]

/-- What a turn does to the handshake.  Only the first frame can end it, in either way. -/
theorem Connected.turn_handshake (h : Connected wire has since version p)
    {input : Input β ω} {shared : Shared β} {turned : Turned β ω}
    (hfresh : (p.conn i).handshakeCompleted = false → receivedFrames (p.log i) = [])
    (hfinds : p.Finds i input.ready rest) (hturn : Turns wire (p.conn i) shared input turned) :
    turned.conn.handshakeCompleted = (p.conn i).handshakeCompleted ∧
        (turned.flow.ends = true → p.ended (!i) ≠ none) ∧
        ((p.conn i).handshakeCompleted = true ∨ input.ready.frame? = none) ∨
      turned.conn.handshakeCompleted = true ∧ turned.flow.ends = false ∧ Agree version i ∨
      turned.conn.handshakeCompleted = false ∧ turned.flow.ends = true ∧
        (turned.conn.InTime input.third → ¬ Agree version i) := by
  have hfirst {raw : Bytes} (hready : input.ready = .frame raw)
      (hbefore : (p.conn i).handshakeCompleted = false) : raw = capFrame (version (!i)) := by
    have hinbox := hfinds.inbox_eq
    rw [hready] at hinbox
    exact h.first_received (hfresh hbefore) hinbox
  cases hturn with
  | request hprune hready | command hprune hready | pending hprune hready =>
    exact .inl ⟨hprune.completed, nofun, .inr (by rw [hready]; rfl)⟩
  | closed hprune hready =>
    rw [hready] at hfinds
    cases hfinds with
    | closed hother => exact .inl ⟨hprune.completed, fun _ => hother, .inr (by rw [hready]; rfl)⟩
  | empty hprune hready =>
    refine .inl ⟨hprune.completed, nofun, .inl (Bool.eq_true_of_not_eq_false fun hbefore => ?_)⟩
    exact absurd (hfirst hready hbefore) (by nofun)
  | refused hprune hready hbefore hrefused =>
    refine .inr (.inr ⟨hprune.completed.trans hbefore, rfl, fun htime hagree => ?_⟩)
    refine (hrefused (hprune.inTime_iff.mp htime)).2 ?_
    rw [hfirst hready hbefore]
    exact (h.accepts_iff i).mpr hagree
  | unwound hprune hready hbefore _ hpanic =>
    refine .inr (.inr ⟨hprune.completed.trans hbefore, rfl, fun _ hagree => ?_⟩)
    obtain ⟨pkt, rest, hok, -⟩ := (h.accepts_iff i).mpr hagree
    rw [← hfirst hready hbefore, hpanic] at hok
    exact absurd hok (by nofun)
  | handshake hprune hready hbefore haccepts =>
    rw [hfirst hready hbefore] at haccepts
    exact .inr (.inl ⟨rfl, rfl, (h.accepts_iff i).mp haccepts⟩)
  | ignored hprune _ hafter | votes hprune _ hafter | served hprune _ hafter
  | answered hprune _ hafter => exact .inl ⟨hprune.completed, nofun, .inl hafter⟩

/-- A stream has ended because it refused the first frame. -/
def Refused (version : Bool → UInt64) (p : Peers β ω) : Prop :=
  ∃ j now, p.ended j = some now ∧ (p.conn j).handshakeCompleted = false ∧
    ((p.conn j).InTime now → ¬ Agree version j)

/-- How far the handshake is. -/
structure HandshakeState (version : Bool → UInt64) (p : Peers β ω) : Prop where
  /-- Until the handshake is over nothing was received. -/
  fresh : ∀ i, (p.conn i).handshakeCompleted = false → p.ended i = none →
    receivedFrames (p.log i) = []
  agreed : ∀ i, (p.conn i).handshakeCompleted = true → Agree version i
  cause : ∀ i, p.ended i ≠ none → Refused version p

section HandshakeMove

variable {i : Bool} {conn : BscProtocolConnection β ω} {events : List (Event β ω)}
  {rest : List Bytes} {flow : Flow} {now : Nat}

/-- A peer that is at its end does not move. -/
theorem Refused.move (h : Refused version p) (hended : p.ended i = none) :
    Refused version (p.move i conn events rest flow now) := by
  obtain ⟨j, at', hj, hrefused⟩ := h
  rcases Bool.eq_or_eq_not j i with rfl | rfl
  · exact absurd (hended.symm.trans hj) (by nofun)
  · exact ⟨!i, at', by rwa [move_ended_other], by rwa [move_conn_other]⟩

/-- It is enough to look at the peer that moves. -/
theorem HandshakeState.move (h : HandshakeState version p) (hended : p.ended i = none)
    (hfresh : conn.handshakeCompleted = false → flow.ends = false →
      receivedFrames (p.log i ++ events) = [])
    (hagreed : conn.handshakeCompleted = true → Agree version i)
    (hcause : flow.ends = true → Refused version (p.move i conn events rest flow now)) :
    HandshakeState version (p.move i conn events rest flow now) where
  fresh j hbefore hnone := by
    rcases Bool.eq_or_eq_not j i with rfl | rfl
    · simp_all
    · rw [move_conn_other] at hbefore
      rw [move_ended_other] at hnone
      rw [move_log_other]
      exact h.fresh _ hbefore hnone
  agreed j hafter := by
    rcases Bool.eq_or_eq_not j i with rfl | rfl
    · exact hagreed (by rwa [move_conn_self] at hafter)
    · exact h.agreed _ (by rwa [move_conn_other] at hafter)
  cause j hj := by
    rcases Bool.eq_or_eq_not j i with rfl | rfl
    · simp_all
    · rw [move_ended_other] at hj
      exact (h.cause _ hj).move hended

end HandshakeMove

theorem Connected.handshakeState (h : Connected wire has since version p) :
    HandshakeState version p := by
  induction h with
  | start => exact ⟨fun _ _ _ => rfl, nofun, fun _ hended => absurd rfl hended⟩
  | @initial p cmd _ i hended _ ih =>
    refine ih.move hended (fun hbefore _ => ?_) (fun hafter => ih.agreed i hafter) nofun
    rw [receivedFrames_append, ih.fresh i hbefore hended]
    rfl
  | @turn p h i hended _ input shared _ rest hfinds ih =>
    obtain ⟨hsame, hends, hquiet⟩ | ⟨hafter, hgoes, hagree⟩ | ⟨hbefore, hends, hrefused⟩ :=
      h.turn_handshake (fun hbefore => ih.fresh i hbefore hended) hfinds
        (turn_turns input (p.conn i) shared)
    · refine ih.move hended (fun hbefore _ => ?_)
        (fun hafter => ih.agreed i (hsame.symm.trans hafter))
        fun hclosed => (ih.cause _ (hends hclosed)).move hended
      have hbefore := hsame.symm.trans hbefore
      have hnone := hquiet.resolve_left (by rw [hbefore]; decide)
      rw [receivedFrames_append, ih.fresh i hbefore hended, receivedFrames_turnEvents, hnone]
      rfl
    · refine ih.move hended (fun hbefore _ => ?_) (fun _ => hagree) fun hclosed => ?_
      · exact absurd (hbefore.symm.trans hafter) (by decide)
      · exact absurd (hgoes.symm.trans hclosed) (by decide)
    · refine ih.move hended (fun _ hgoes => ?_) (fun hafter => ?_) fun _ => ?_
      · exact absurd (hgoes.symm.trans hends) (by decide)
      · exact absurd (hbefore.symm.trans hafter) (by decide)
      · refine ⟨i, input.third, ?_, ?_⟩
        · rw [move_ended_self, if_pos hends]
        · simp_all

theorem Agree.other (h : Agree version i) : Agree version (!i) := by
  unfold Agree at *
  rw [Bool.not_not, h.1]
  exact ⟨rfl, h.2⟩

/-- **Agreement.**  The handshake succeeds only between peers of one version below 128.  The
connection of such peers ends only if one of them gets the capability of the other too late. -/
theorem Connected.agreement (h : Connected wire has since version p) (i : Bool) :
    ((p.conn i).handshakeCompleted = true → Agree version i) ∧ (Agree version i → p.ended i ≠ none →
        ∃ j now, p.ended j = some now ∧ (p.conn j).handshakeCompleted = false ∧
          since j + handshakeTimeout ≤ now) := by
  refine ⟨h.handshakeState.agreed i, fun hagree hended => ?_⟩
  obtain ⟨j, now, hj, hbefore, hlate⟩ := h.handshakeState.cause i hended
  refine ⟨j, now, hj, hbefore, Nat.not_lt.mp fun htime => ?_⟩
  refine hlate (((h.reached j).inTime_iff hbefore).mpr htime) ?_
  rcases Bool.eq_or_eq_not j i with rfl | rfl
  · exact hagree
  · exact hagree.other

/-- Between peers of one version below 128 the first frame that comes in time completes the
handshake. -/
theorem Connected.completes (h : Connected wire has since version p) (hended : p.ended i = none)
    (hinitial : (p.conn i).initialCapability = none) {input : Input β ω} {shared : Shared β}
    (hshared : has i shared) (hready : input.ready = .frame raw) (hinbox : p.inbox i = raw :: rest)
    (hagree : Agree version i) (htime : input.third < since i + handshakeTimeout) :
    ((p.conn i).turn wire input shared).conn.handshakeCompleted = true := by
  have hfinds : p.Finds i input.ready rest := hready ▸ .frame raw rest hinbox
  obtain ⟨hsame, -, hafter | hnone⟩ | ⟨hafter, -⟩ | ⟨hbefore, -, hlate⟩ :=
    h.turn_handshake (fun hbefore => h.handshakeState.fresh i hbefore hended) hfinds
      (turn_turns input (p.conn i) shared)
  · exact hsame.trans hafter
  · rw [hready] at hnone
    exact absurd hnone (by nofun)
  · exact hafter
  · have hreached := (h.reached i).turn hinitial input shared hshared
    exact absurd hagree (hlate ((hreached.inTime_iff hbefore).mpr htime))

/-! ## Requests and responses -/

/-- A packet that is read back by the other peer. -/
def Fits (wire : Wire β) (packet : BlocksByRangePacket β) : Prop :=
  (packet.blocks.flatMap wire.codec.encode).length < 2 ^ 63 ∧
    ∀ block ∈ packet.blocks, wire.codec.Faithful block

theorem Fits.decode (h : Fits wire packet) :
    BlocksByRangePacket.decode wire.codec (packet.encode wire.codec) = .ok (packet, []) := by
  have hread := BlocksByRangePacket.decode_encode h.1 h.2 []
  rwa [List.append_nil] at hread

theorem decode_request (req : GetBlocksByRangePacket) :
    GetBlocksByRangePacket.decode req.encode = .ok (req, []) := by
  have hread := req.decode_encode []
  rwa [List.append_nil] at hread

/-- A frame that is read as a request was one of the commands of the peer that sent it. -/
theorem Connected.request_origin (h : Connected wire has since version p)
    (hraw : raw ∈ receivedFrames (p.log (!i))) {req : GetBlocksByRangePacket} {rest : Bytes}
    (hdecode : GetBlocksByRangePacket.decode raw = .ok (req, rest)) :
    ∃ waiter, .took (.getBlocksByRange req waiter) ∈ p.log i ∧ raw = req.encode := by
  have hsent : raw ∈ sentFrames (p.log i) := by
    have horder := h.inOrder (!i)
    simp_all
  obtain ⟨tail, htail, -⟩ := decodeFramed_eq_ok hdecode
  cases (h.reached i).sent_origin hsent with
  | initial cmd hcmd hframe =>
    cases hcmd
    exact absurd (List.cons.inj (hframe.symm.trans htail)).1 (by decide)
  | command cmd hcmd hframe =>
    cases cmd with
    | getBlocksByRange req' waiter =>
      rw [hframe] at hdecode
      obtain ⟨rfl, -⟩ := Prod.mk.inj (Except.ok.inj ((decode_request req').symm.trans hdecode))
      exact ⟨waiter, hcmd, hframe⟩
    | capability | votes | blocksByRange =>
      exact absurd (List.cons.inj (hframe.symm.trans htail)).1 (by decide)
  | response _ _ _ _ _ _ _ _ hframe =>
    exact absurd (List.cons.inj (hframe.symm.trans htail)).1 (by decide)

/-- What the answers to a peer rest on: its requests have ids of their own, the other peer sends no
responses but to requests, and what it finds in its cache can be read back. -/
structure Orderly (wire : Wire β) (has : Shared β → Prop) (p : Peers β ω) (i : Bool) : Prop where
  ids : ∀ req waiter req' waiter', .took (.getBlocksByRange req waiter) ∈ p.log i →
    .took (.getBlocksByRange req' waiter') ∈ p.log i → req.requestId = req'.requestId → req = req'
  commands : ∀ packet, .took (.blocksByRange packet) ∉ p.log (!i)
  fits : ∀ shared req, has shared → Fits wire (shared.cache.buildBlocksByRangeResponse req).1

/-- In one turn the peer with this log found `shared`, received the request, and sent the blocks of
its cache as the response. -/
structure Served (wire : Wire β) (log : List (Event β ω)) (shared : Shared β)
    (req : GetBlocksByRangePacket) (packet : BlocksByRangePacket β) : Prop where
  turn : [.found shared, .received req.encode, .sent (packet.encode wire.codec)] <:+: log
  built : packet = (shared.cache.buildBlocksByRangeResponse req).1

/-- A frame that is read as a response was built for a request of the peer that reads it. -/
theorem Connected.response_origin (h : Connected wire has since version p)
    (horderly : p.Orderly wire (has (!i)) i) (hraw : raw ∈ receivedFrames (p.log i)) {rest : Bytes}
    (hdecode : BlocksByRangePacket.decode wire.codec raw = .ok (packet, rest)) :
    ∃ req waiter shared, .took (.getBlocksByRange req waiter) ∈ p.log i ∧ has (!i) shared ∧
      Served wire (p.log (!i)) shared req packet := by
  have hsent : raw ∈ sentFrames (p.log (!i)) := by
    rw [h.inOrder i]
    exact List.mem_append_left _ hraw
  obtain ⟨tail, htail, -⟩ := decodeFramed_eq_ok hdecode
  cases (h.reached (!i)).sent_origin hsent with
  | initial cmd hcmd hframe =>
    cases hcmd
    exact absurd (List.cons.inj (hframe.symm.trans htail)).1 (by decide)
  | command cmd hcmd hframe =>
    cases cmd with
    | blocksByRange packet' => exact absurd hcmd (horderly.commands packet')
    | capability | votes | getBlocksByRange =>
      exact absurd (List.cons.inj (hframe.symm.trans htail)).1 (by decide)
  | response request req _ shared hturn hdecode' _ hshared hframe =>
    have hrequest : request ∈ receivedFrames (p.log (!i)) :=
      List.filterMap_subset _ hturn.subset (by simp [Event.received?])
    obtain ⟨waiter, htook, rfl⟩ := h.request_origin hrequest hdecode'
    have hread := (horderly.fits shared req hshared).decode
    rw [← hframe, hdecode] at hread
    obtain rfl := (Prod.mk.inj (Except.ok.inj hread)).1
    rw [hframe] at hturn
    exact ⟨req, waiter, shared, htook, hshared, hturn, rfl⟩

/-- A waiter gets what the other peer found in its cache for the request of this waiter. -/
theorem Connected.answer_end_to_end (h : Connected wire has since version p)
    (horderly : p.Orderly wire (has (!i)) i) {waiter : ω}
    (hanswer : (waiter, packet) ∈ answers (p.log i)) :
    ∃ req shared, .took (.getBlocksByRange req waiter) ∈ p.log i ∧ has (!i) shared ∧
      Served wire (p.log (!i)) shared req packet := by
  obtain ⟨req, htook, hid⟩ := (h.reached i).answer_requested rfl hanswer
  obtain ⟨raw, hraw, rest, hdecode⟩ := (h.reached i).answer_received hanswer
  obtain ⟨req', waiter', shared, htook', hshared, hserved⟩ :=
    h.response_origin horderly hraw hdecode
  have hid' : packet.requestId = req'.requestId := by
    rw [hserved.built, BodyCache.response_eq_follow]
  obtain rfl := horderly.ids req waiter req' waiter' htook htook' (hid.trans hid')
  exact ⟨req, shared, htook, hshared, hserved⟩

/-- **End to end.**  With caches that hold blocks under their hashes, a waiter gets a path of
ancestors from the block that it asked for.  The path is as long as the request and the cache that
the other peer found when it sent the response allow, and it is empty only if that cache did not
find the first block. -/
theorem Connected.answer_blocks {hashSlow : Header → B256} {written : Bool → List (FullBlock β)}
    (h : Connected wire
      (fun j shared => BodyCache.Coherent hashSlow (written j) shared.cache) since version p)
    (hnumbers : BodyCache.NumbersHashed hashSlow (written (!i))) (horderly : p.Orderly wire
      (fun shared => BodyCache.Coherent hashSlow (written (!i)) shared.cache) i) {waiter : ω}
    (hanswer : (waiter, packet) ∈ answers (p.log i)) :
    ∃ req shared, .took (.getBlocksByRange req waiter) ∈ p.log i ∧
      [.found shared, .received req.encode, .sent (packet.encode wire.codec)] <:+: p.log (!i) ∧
      BodyCache.PathFrom hashSlow shared.cache req packet.blocks ∧
      (packet.blocks = [] → min req.count.toNat 64 = 0 ∨ shared.cache.start req = none) := by
  obtain ⟨req, shared, htook, hcoherent, hturn, rfl⟩ := h.answer_end_to_end horderly hanswer
  exact ⟨req, shared, htook, hturn, hcoherent.pathFrom hnumbers req,
    BodyCache.start_of_response_nil⟩

/-! ### A request and its answer

Both peers hold two blocks of a chain whose blocks are hashed by number.  A block is written as its
number, in one byte. -/

def byteCodec : FullBlockCodec Unit where
  encode block := [block.number.toUInt8]
  decoder :=
    { read := fun
        | [] => .error .inputTooShort
        | x :: rest => .ok (BodyCache.chainBlock x.toUInt64, rest)
      consumes := by
        intro buf block rest h
        cases buf with
        | nil => cases h
        | cons x buf =>
          obtain ⟨-, rfl⟩ := Prod.mk.inj (Except.ok.inj h)
          exact Nat.lt_succ_self _ }

def byteWire : Wire Unit := ⟨byteCodec, fun _ => .zero, true⟩

def twoBlocks : List (FullBlock Unit) := [BodyCache.chainBlock 1, BodyCache.chainBlock 2]

def twoBlocksShared : Shared Unit :=
  ⟨.new, BodyCache.empty.run numberHash (twoBlocks.map .write)⟩

def HoldsTwo (shared : Shared Unit) : Prop := BodyCache.Coherent numberHash twoBlocks shared.cache

theorem holdsTwo_shared : HoldsTwo twoBlocksShared := by
  have hempty : BodyCache.Coherent numberHash twoBlocks BodyCache.empty := .empty
  exact hempty.run fun block hblock => by simpa using hblock

/-- The first capability of the peer `i` goes out. -/
def greet (p : Peers Unit Nat) (i : Bool) : Peers Unit Nat :=
  let frame := encodeCommand byteWire (.capability 1 [0x00] : BscCommand Unit Nat)
  p.move i { p.conn i with initialCapability := none } [.sent frame] (p.inbox i) (.send frame) 0

/-- The peer `i` takes a turn at the time `now`. -/
def act (p : Peers Unit Nat) (i : Bool) (now : Nat) (ready : Ready Unit Nat) (rest : List Bytes) :
    Peers Unit Nat :=
  let input : Input Unit Nat := ⟨ready, now, now, now, fun _ _ => false⟩
  let turned := (p.conn i).turn byteWire input twoBlocksShared
  p.move i turned.conn (turnEvents input twoBlocksShared turned) rest turned.flow now

def receive (p : Peers Unit Nat) (i : Bool) : Peers Unit Nat :=
  p.act i 0 (.frame ((p.inbox i).headD [])) (p.inbox i).tail

abbrev Exchanging : Peers Unit Nat → Prop :=
  Connected byteWire (fun _ => HoldsTwo) (fun _ => 0) fun _ => 1

theorem Connected.act {p : Peers Unit Nat} (h : Exchanging p) (i : Bool) (now : Nat)
    {ready : Ready Unit Nat}
    (hmoves : p.ended i = none ∧ (p.conn i).initialCapability.isNone = true)
    (hfinds : p.Finds i ready rest) : Exchanging (p.act i now ready rest) :=
  .turn h i hmoves.1 (Option.isNone_iff_eq_none.mp hmoves.2)
    ⟨ready, now, now, now, fun _ _ => false⟩ twoBlocksShared holdsTwo_shared hfinds

theorem Connected.receive {p : Peers Unit Nat} (h : Exchanging p) (i : Bool)
    (hmoves : p.ended i = none ∧ (p.conn i).initialCapability.isNone = true)
    (hinbox : p.inbox i ≠ []) : Exchanging (p.receive i) := by
  refine h.act i 0 hmoves ?_
  cases hframes : p.inbox i with
  | nil => exact absurd hframes hinbox
  | cons raw rest => exact .frame raw rest hframes

def greeted : Peers Unit Nat :=
  greet (greet ⟨fun _ => new 0 1, fun _ => [], fun _ => [], fun _ => none⟩ false) true

def shaken : Peers Unit Nat := (greeted.receive false).receive true

def rangeRequest : GetBlocksByRangePacket := ⟨7, 2, .zero, 10⟩

/-- One peer asks, the other answers, and the answer is read. -/
def exchanged : Peers Unit Nat :=
  ((shaken.act false 0 (.command (.getBlocksByRange rangeRequest 0)) (shaken.inbox false)).receive
    true).receive false

theorem greeted_connected : Exchanging greeted :=
  .initial (.initial .start false rfl rfl) true rfl rfl

theorem shaken_connected : Exchanging shaken :=
  (greeted_connected.receive false (by decide +kernel) (by decide +kernel)).receive true
    (by decide +kernel) (by decide +kernel)

theorem exchanged_connected : Exchanging exchanged := by
  have hasked := shaken_connected.act false 0 (by decide +kernel)
    (.command (.getBlocksByRange rangeRequest 0))
  exact (hasked.receive true (by decide +kernel) (by decide +kernel)).receive false
    (by decide +kernel) (by decide +kernel)

theorem exchanged_answers : answers (exchanged.log false)
    = [(0, ⟨7, [BodyCache.chainBlock 2, BodyCache.chainBlock 1]⟩)] := by decide +kernel

/-- The event takes no command but the request. -/
def asksAtMost : Event Unit Nat → Bool
  | .took (.getBlocksByRange req _) => req = rangeRequest
  | .took _ => false
  | _ => true

theorem exchanged_orderly : exchanged.Orderly byteWire HoldsTwo false where
  ids := by
    have hasks : (exchanged.log false).all asksAtMost = true := by decide +kernel
    intro req waiter req' waiter' hreq hreq' _
    have hone : req = rangeRequest := of_decide_eq_true (List.all_eq_true.mp hasks _ hreq)
    have hother : req' = rangeRequest := of_decide_eq_true (List.all_eq_true.mp hasks _ hreq')
    rw [hone, hother]
  commands := by
    have hnone : (exchanged.log true).all asksAtMost = true := by decide +kernel
    intro packet hpacket
    exact absurd (List.all_eq_true.mp hnone _ hpacket) Bool.false_ne_true
  fits := by
    intro shared req hshared
    have hlen : _ ≤ min req.count.toNat 64 := (hshared.pathFrom (by decide +kernel) req).length_le
    refine ⟨?_, fun block hblock => ?_⟩
    · have hbytes : ∀ blocks : List (FullBlock Unit), blocks.flatMap byteWire.codec.encode
          = blocks.map fun block => block.number.toUInt8 := fun _ => List.map_eq_flatMap.symm
      rw [hbytes, List.length_map]
      omega
    · have hmem := hshared.mem_written req block hblock
      rcases List.mem_cons.mp hmem with rfl | hmem
      · exact fun _ => rfl
      · obtain rfl := List.mem_singleton.mp hmem
        exact fun _ => rfl

/-- The waiter gets both blocks, and they are an answer to its request. -/
theorem exchanged_blocks :
    ∃ req shared, .took (.getBlocksByRange req 0) ∈ exchanged.log false ∧
      [.found shared, .received req.encode, .sent (BlocksByRangePacket.encode byteCodec
        ⟨7, [BodyCache.chainBlock 2, BodyCache.chainBlock 1]⟩)] <:+: exchanged.log true ∧
      BodyCache.PathFrom numberHash shared.cache req
        [BodyCache.chainBlock 2, BodyCache.chainBlock 1] := by
  have hanswer := exchanged_answers ▸ List.mem_singleton_self _
  obtain ⟨req, shared, htook, hturn, hpath, -⟩ :=
    exchanged_connected.answer_blocks (by decide +kernel) exchanged_orderly hanswer
  exact ⟨req, shared, htook, hturn, hpath⟩

theorem exchanged_settled :
    settled (exchanged.log false) = [(7, 0)] ∧
      (settled (exchanged.log false)).Subperm (requests (exchanged.log false)) :=
  ⟨by decide +kernel, (exchanged_connected.reached false).settled_subperm rfl⟩

/-- A request that comes before the capability is not served. -/
theorem greeted_gate :
    let turned := (greeted.conn false).turn byteWire
      ⟨.frame rangeRequest.encode, 0, 0, 0, fun _ _ => false⟩ twoBlocksShared
    turned.shared = twoBlocksShared ∧ turned.answered = none := by
  have hgate := (greeted_connected.reached false).gate rfl nofun
    ⟨.frame rangeRequest.encode, 0, 0, 0, fun _ _ => false⟩ twoBlocksShared
  exact ⟨hgate.1, hgate.2.1⟩

/-- One peer reads the capability of the other when its time is over. -/
def late : Peers Unit Nat := greeted.act false handshakeTimeout (.frame (capFrame 1)) []

theorem late_connected : Exchanging late :=
  greeted_connected.act false _ (by decide +kernel) (.frame _ _ (by decide +kernel))

/-- The handshake of these peers succeeds, unless a capability is late. -/
theorem exchanged_agreement :
    Agree (fun _ => 1) false ∧
      ∃ j now, late.ended j = some now ∧ (late.conn j).handshakeCompleted = false ∧
        0 + handshakeTimeout ≤ now :=
  ⟨(exchanged_connected.agreement false).1 (by decide +kernel),
    (late_connected.agreement false).2 ⟨rfl, by decide⟩ (by decide +kernel)⟩

theorem greeted_completes :
    ((greeted.conn false).turn byteWire ⟨.frame (capFrame 1), 0, 0, 0, fun _ _ => false⟩
      twoBlocksShared).conn.handshakeCompleted = true :=
  greeted_connected.completes rfl rfl holdsTwo_shared rfl rfl ⟨rfl, by decide⟩ (by decide)

end Peers

end RethBsc
