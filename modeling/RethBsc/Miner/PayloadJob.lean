import Mathlib.Data.List.MinMax
import RethBsc.Miner.BidSimulator
import RethBsc.Parlia.Validation

/-!
# Payload jobs

`BscPayloadJob` of `src/node/miner/payload.rs`.  A job builds payloads on one parent until its time
is over, and then hands the best of them to the worker that submits blocks; a bid of a builder
competes with what the job built itself.

The job is two nested loops around `select!`.  The outer loop starts builds and joins them; after a
build the inner loop waits for transactions that are worth another build.  A `Flow` says in which
loop the job is, `buildTurn` and `waitTurn` are one turn of each.  Which of the ready branches a
`select!` takes is not determined, so a run (`Reached`) may take any of them.

* `Reached.keeps` is what every run keeps, by one lemma for each kind of turn.
* `submits_best_of_run`: what a run submits earns the most of all that the run built and of the
  best bid, which wins a tie.
* `one_build_at_a_time`: one build at most is queued or running, and the outer loop always has one.
* `inturn_job_submits`: in turn, a job that is not aborted submits a block if it can.
-/

namespace RethBsc

open Rust

def timeMultiplier : Nat := 2

/-- The errors that a job ends with. -/
inductive BscPayloadJobError where
  | buildQueueSendError (error : String)
  | resultChannelSendError (error : String)
  | jobAborted
  | noPayloadsAvailable
  deriving DecidableEq

/-- A mining context with the field that only jobs read. -/
structure JobContext extends MiningContext where
  isInturn : Bool

/-- What a job hands over.  The flag that cancels builds is not read any more. -/
structure SubmitContext where
  miningCtx : JobContext
  payload : BscBuiltPayload

/-- Durations are in nanoseconds. -/
structure BscPayloadJob where
  miningCtx : JobContext
  /-- The constructor unwraps the header, so that the loops can. -/
  header_isSome : miningCtx.header.isSome
  timeout : Nat
  /-- The signals in the build queue, of which the job holds both ends. -/
  queued : Nat
  /-- The builds in the join set. -/
  building : Nat
  isAborted : Bool
  potentialPayloads : List BscBuiltPayload
  /-- The flag that builds ask whether to go on. -/
  cancelled : Bool
  retries : Nat
  /-- When the latest build was started. -/
  startTime : Nat

/-- What a turn of a loop finds around it. -/
structure JobSurroundings where
  /-- The time since the start of the job, at the head of the loop and when a branch is taken. -/
  jobElapsed : Nat
  taken : Nat
  /-- `send` on the build queue. -/
  sendBuild : Except String Unit
  /-- `get_best_bid`, for the hash of the parent. -/
  bestBid : Option BidRuntime
  /-- `send` on the result channel. -/
  sendResult : Except String Unit
  buildEmptyPayload : Except String BscBuiltPayload

/-- The clock of a job that waits: how long the latest build took, the transactions in its payload,
and the transactions that came since. -/
structure Waiting where
  elapsed : Nat
  payloadTxCount : Nat
  newTxCount : Nat

/-- The branches of the outer `select!`. -/
inductive BuildBranch where
  | tryBuild
  | queueClosed
  | built (payload : BscBuiltPayload)
  | buildFailed (error : String)
  | joinFailed (error : String)
  | nothingToJoin
  | timer
  | abort

/-- The payload that a branch of the outer loop brings. -/
def BuildBranch.payloads : BuildBranch → List BscBuiltPayload
  | .built payload => [payload]
  | _ => []

/-- The branches of the inner `select!`.  A transaction comes with what the clock says then. -/
inductive WaitBranch where
  | timer
  | abort
  | transaction (clock : ClockReading)

namespace BscPayloadJob

/-- Where a job is: in the outer loop, in the inner one, or at its end with what it submitted. -/
inductive Flow where
  | building (job : BscPayloadJob)
  | waiting (job : BscPayloadJob) (wait : Waiting)
  | returned (result : Except BscPayloadJobError Unit) (sent : Option SubmitContext)

def ofMillis (ms : UInt64) : Nat := ms.toNat * 1000000

def new {ε : Type} (p : Parlia) (clock : ClockReading) (ctx : JobContext) :
    Outcome ε BscPayloadJob :=
  match h : ctx.header with
  | none => .panic
  | some header =>
    .ok
      { miningCtx := ctx
        header_isSome := by rw [h, Option.isSome_some]
        timeout := ofMillis (p.delayForMining clock ctx.parentSnapshot header delayLeftOver)
        queued := 0
        building := 0
        isAborted := false
        potentialPayloads := []
        cancelled := false
        retries := 0
        startTime := 0 }

variable (p : Parlia) (env : JobSurroundings) (job : BscPayloadJob)

def header : Header := job.miningCtx.header.get job.header_isSome

/-! ## The end of a job -/

/-- `max_by_key` takes the last of several maxima, `argmax` the first. -/
def pickBestPayload : Option BscBuiltPayload :=
  job.potentialPayloads.reverse.argmax fun payload => payload.fees.toNat

def addBestBid : BscPayloadJob :=
  { job with
    potentialPayloads :=
      job.potentialPayloads ++ (env.bestBid.map BidRuntime.bscPayload).toList }

def submit (payload : BscBuiltPayload) : Flow :=
  match env.sendResult with
  | .ok () => .returned (.ok ()) (some ⟨job.miningCtx, payload⟩)
  | .error e => .returned (.error (.resultChannelSendError e)) none

/-- In turn a job without payloads falls back on an empty block. -/
def tryReturnBestPayload : Flow :=
  match (job.addBestBid env).pickBestPayload with
  | some bestPayload => job.submit env bestPayload
  | none =>
    if job.miningCtx.isInturn then
      match env.buildEmptyPayload with
      | .ok emptyPayload => job.submit env emptyPayload
      | .error _ => .returned (.error .noPayloadsAvailable) none
    else .returned (.error .noPayloadsAvailable) none

/-! ## The loops -/

def start : Flow :=
  match env.sendBuild with
  | .ok () => .building { job with queued := job.queued + 1 }
  | .error e => .returned (.error (.buildQueueSendError e)) none

def buildTurn : BuildBranch → Flow
  | .tryBuild => .building
    { job with
      queued := job.queued - 1
      building := job.building + 1
      retries := job.retries + 1
      startTime := env.taken }
  | .queueClosed => .returned (.ok ()) none
  | .built payload =>
    if job.isAborted then .returned (.error .jobAborted) none
    else .waiting
      { job with
        building := job.building - 1
        potentialPayloads := job.potentialPayloads ++ [payload] }
      ⟨env.taken - job.startTime, payload.block.transactions.length, 0⟩
  -- a build that fails ends the job, with the payloads of the builds before
  | .buildFailed _ => job.tryReturnBestPayload env
  | .joinFailed _ => job.tryReturnBestPayload env
  | .nothingToJoin => .building job
  | .timer => { job with cancelled := true }.tryReturnBestPayload env
  | .abort => .returned (.error .jobAborted) none

/-- Asks for another build. -/
def tryBuildAgain : Flow :=
  match env.sendBuild with
  | .ok () => .building { job with queued := job.queued + 1 }
  | .error _ => job.tryReturnBestPayload env

/-- A new transaction.  Another build must fit in the time that is left; it is started at once if a
third would not fit, and otherwise when as many transactions came as the last payload has. -/
def newTransaction (wait : Waiting) (miningDelay : Nat) : Flow :=
  let wait := { wait with newTxCount := wait.newTxCount + 1 }
  if miningDelay < wait.elapsed then job.tryReturnBestPayload env
  else if miningDelay < wait.elapsed * timeMultiplier then job.tryBuildAgain env
  else if wait.payloadTxCount ≤ wait.newTxCount then job.tryBuildAgain env
  else .waiting job wait

def waitTurn (wait : Waiting) : WaitBranch → Flow
  | .timer => job.tryReturnBestPayload env
  | .abort => .returned (.error .jobAborted) none
  | .transaction clock => job.newTransaction env wait
    (ofMillis (p.delayForMining clock job.miningCtx.parentSnapshot job.header delayLeftOver))

/-- The branch can be taken.  The build queue is never closed, since the job holds a sender. -/
def Ready : BuildBranch → Prop
  | .tryBuild => 0 < job.queued
  | .queueClosed => False
  | .built _ | .buildFailed _ | .joinFailed _ => 0 < job.building
  | .nothingToJoin => job.building = 0
  | .timer | .abort => True

/-- What a job has come to after `n` turns, of which turn `i` finds `around i`, and the payloads
that it built.  A loop that finds the time over returns at once. -/
inductive Reached (around : Nat → JobSurroundings) (first : BscPayloadJob) :
    Nat → List BscBuiltPayload → Flow → Prop where
  | start : Reached around first 1 [] (first.start (around 0))
  | buildTimeout {n : Nat} {built : List BscBuiltPayload} {job : BscPayloadJob}
      (h : Reached around first n built (.building job))
      (htime : job.timeout ≤ (around n).jobElapsed) :
      Reached around first (n + 1) built (job.tryReturnBestPayload (around n))
  | buildTurn {n : Nat} {built : List BscBuiltPayload} {job : BscPayloadJob}
      (h : Reached around first n built (.building job))
      (htime : (around n).jobElapsed < job.timeout) (branch : BuildBranch)
      (hready : job.Ready branch) :
      Reached around first (n + 1) (built ++ branch.payloads) (job.buildTurn (around n) branch)
  | waitTimeout {n : Nat} {built : List BscBuiltPayload} {job : BscPayloadJob} {wait : Waiting}
      (h : Reached around first n built (.waiting job wait))
      (htime : job.timeout ≤ (around n).jobElapsed) :
      Reached around first (n + 1) built (job.tryReturnBestPayload (around n))
  | waitTurn {n : Nat} {built : List BscBuiltPayload} {job : BscPayloadJob} {wait : Waiting}
      (h : Reached around first n built (.waiting job wait))
      (htime : (around n).jobElapsed < job.timeout) (branch : WaitBranch) :
      Reached around first (n + 1) built (job.waitTurn p (around n) wait branch)

/-! ## How a job ends -/

/-- What a job chooses from. -/
def candidates (built : List BscBuiltPayload) (bid : Option BidRuntime) : List BscBuiltPayload :=
  built ++ (bid.map BidRuntime.bscPayload).toList

/-- No candidate earns more than the payload, which is the bid unless a build earned more. -/
structure IsBest (built : List BscBuiltPayload) (bid : Option BidRuntime)
    (payload : BscBuiltPayload) : Prop where
  mem : payload ∈ candidates built bid
  le : ∀ other ∈ candidates built bid, other.fees.toNat ≤ payload.fees.toNat
  tie : ∀ rt, bid = some rt → (∀ other ∈ built, other.fees.toNat ≤ rt.bscPayload.fees.toNat) →
    payload = rt.bscPayload

/-- What a job with the context submits, after it built the payloads. -/
inductive Submits (ctx : JobContext) (built : List BscBuiltPayload) (env : JobSurroundings) :
    BscBuiltPayload → Prop where
  | best {payload : BscBuiltPayload} (h : IsBest built env.bestBid payload) :
      Submits ctx built env payload
  | fallback {payload : BscBuiltPayload} (hnone : candidates built env.bestBid = [])
      (hinturn : ctx.isInturn = true) (hempty : env.buildEmptyPayload = .ok payload) :
      Submits ctx built env payload

/-- Why a job submits nothing. -/
inductive Fails (ctx : JobContext) (built : List BscBuiltPayload) (env : JobSurroundings) :
    BscPayloadJobError → Prop where
  | aborted : Fails ctx built env .jobAborted
  | queue {error : String} (h : env.sendBuild = .error error) :
      Fails ctx built env (.buildQueueSendError error)
  | channel {error : String} (h : env.sendResult = .error error) :
      Fails ctx built env (.resultChannelSendError error)
  | nothing (hnone : candidates built env.bestBid = [])
      (h : ctx.isInturn = true → ∃ error, env.buildEmptyPayload = .error error) :
      Fails ctx built env .noPayloadsAvailable

/-- What holds of a job after a turn that found `env`. -/
inductive Keeps (ctx : JobContext) (built : List BscBuiltPayload) (env : JobSurroundings) :
    Flow → Prop where
  | building {job : BscPayloadJob} (hctx : job.miningCtx = ctx)
      (hbuilt : job.potentialPayloads = built) (hone : job.queued + job.building = 1)
      (halive : job.isAborted = false) : Keeps ctx built env (.building job)
  | waiting {job : BscPayloadJob} {wait : Waiting} (hctx : job.miningCtx = ctx)
      (hbuilt : job.potentialPayloads = built) (hqueued : job.queued = 0)
      (hbuilding : job.building = 0) (halive : job.isAborted = false) :
      Keeps ctx built env (.waiting job wait)
  | submitted {payload : BscBuiltPayload} (h : Submits ctx built env payload) :
      Keeps ctx built env (.returned (.ok ()) (some ⟨ctx, payload⟩))
  | failed {error : BscPayloadJobError} (h : Fails ctx built env error) :
      Keeps ctx built env (.returned (.error error) none)

section Turns

variable {p : Parlia} {env : JobSurroundings} {job : BscPayloadJob} {ctx : JobContext}
  {built : List BscBuiltPayload}

theorem isBest_of_pickBestPayload {payload : BscBuiltPayload}
    (h : (job.addBestBid env).pickBestPayload = some payload) :
    IsBest job.potentialPayloads env.bestBid payload := by
  have hmem : payload ∈ (candidates job.potentialPayloads env.bestBid).reverse := List.argmax_mem h
  refine ⟨List.mem_reverse.mp hmem, fun other hother => ?_, fun rt hbid hle => ?_⟩
  · exact List.le_of_mem_argmax (f := fun payload : BscBuiltPayload => payload.fees.toNat)
      (List.mem_reverse.mpr hother) h
  · -- the bid was pushed last, so that it comes first here
    have hcandidates : (job.addBestBid env).potentialPayloads.reverse
        = rt.bscPayload :: job.potentialPayloads.reverse := by
      simp [addBestBid, hbid]
    unfold pickBestPayload at h
    rw [hcandidates, List.argmax_cons] at h
    cases hrest : job.potentialPayloads.reverse.argmax fun payload => payload.fees.toNat with
    | none =>
      rw [hrest] at h
      exact (Option.some.inj h).symm
    | some best =>
      have hbest := hle best (List.mem_reverse.mp (List.argmax_mem hrest))
      rw [hrest] at h
      exact (Option.some.inj ((if_neg (Nat.not_lt.mpr hbest)).symm.trans h)).symm

theorem candidates_eq_nil_of_pickBestPayload (h : (job.addBestBid env).pickBestPayload = none) :
    candidates job.potentialPayloads env.bestBid = [] :=
  List.reverse_eq_nil_iff.mp (List.argmax_eq_none.mp h)

theorem submit_keeps {payload : BscBuiltPayload} (hctx : job.miningCtx = ctx)
    (h : Submits ctx built env payload) : Keeps ctx built env (job.submit env payload) := by
  unfold submit
  cases hsend : env.sendResult with
  | ok _ =>
    rw [hctx]
    exact .submitted h
  | error error => exact .failed (.channel hsend)

theorem tryReturnBestPayload_keeps (hctx : job.miningCtx = ctx)
    (hbuilt : job.potentialPayloads = built) :
    Keeps ctx built env (job.tryReturnBestPayload env) := by
  subst hbuilt
  unfold tryReturnBestPayload
  cases hpick : (job.addBestBid env).pickBestPayload with
  | some payload => exact submit_keeps hctx (.best (isBest_of_pickBestPayload hpick))
  | none =>
    have hnone := candidates_eq_nil_of_pickBestPayload hpick
    by_cases hinturn : job.miningCtx.isInturn = true
    · rw [if_pos hinturn]
      cases hempty : env.buildEmptyPayload with
      | ok payload => exact submit_keeps hctx (.fallback hnone (hctx ▸ hinturn) hempty)
      | error error => exact .failed (.nothing hnone fun _ => ⟨error, hempty⟩)
    · rw [if_neg hinturn]
      exact .failed (.nothing hnone fun h => absurd (hctx ▸ h) hinturn)

theorem buildTurn_keeps {last : JobSurroundings} {branch : BuildBranch}
    (h : Keeps ctx built last (.building job)) (hready : job.Ready branch) :
    Keeps ctx (built ++ branch.payloads) env (job.buildTurn env branch) := by
  cases h with
  | building hctx hbuilt hone halive =>
    have hkept : job.potentialPayloads = built ++ [] := by rw [hbuilt, List.append_nil]
    cases branch with
    | tryBuild =>
      have hqueued : 0 < job.queued := hready
      exact .building hctx hkept (by show job.queued - 1 + (job.building + 1) = 1; omega) halive
    | queueClosed => exact absurd hready id
    | built payload =>
      have hbuilding : 0 < job.building := hready
      rw [buildTurn, if_neg (by rw [halive]; exact Bool.false_ne_true)]
      exact .waiting hctx (congrArg (· ++ [payload]) hbuilt)
        (show job.queued = 0 by omega) (show job.building - 1 = 0 by omega) halive
    | buildFailed _ | joinFailed _ => exact tryReturnBestPayload_keeps hctx hkept
    | nothingToJoin => exact .building hctx hkept hone halive
    | timer => exact tryReturnBestPayload_keeps hctx hkept
    | abort => exact .failed .aborted

theorem tryBuildAgain_keeps (hctx : job.miningCtx = ctx) (hbuilt : job.potentialPayloads = built)
    (hqueued : job.queued = 0) (hbuilding : job.building = 0) (halive : job.isAborted = false) :
    Keeps ctx built env (job.tryBuildAgain env) := by
  unfold tryBuildAgain
  cases env.sendBuild with
  | ok _ =>
    exact .building hctx hbuilt (show job.queued + 1 + job.building = 1 by omega) halive
  | error _ => exact tryReturnBestPayload_keeps hctx hbuilt

theorem waitTurn_keeps {last : JobSurroundings} {wait : Waiting} (branch : WaitBranch)
    (h : Keeps ctx built last (.waiting job wait)) :
    Keeps ctx built env (job.waitTurn p env wait branch) := by
  cases h with
  | waiting hctx hbuilt hqueued hbuilding halive =>
    have hreturn : Keeps ctx built env (job.tryReturnBestPayload env) :=
      tryReturnBestPayload_keeps hctx hbuilt
    have hagain : Keeps ctx built env (job.tryBuildAgain env) :=
      tryBuildAgain_keeps hctx hbuilt hqueued hbuilding halive
    cases branch with
    | timer => exact hreturn
    | abort => exact .failed .aborted
    | transaction clock =>
      unfold waitTurn newTransaction
      dsimp only
      split
      · exact hreturn
      · split
        · exact hagain
        · split
          · exact hagain
          · exact .waiting hctx hbuilt hqueued hbuilding halive

end Turns

/-! ## Whole runs -/

section Runs

variable {ε : Type} {p : Parlia} {clock : ClockReading} {ctx : JobContext} {first : BscPayloadJob}
  {around : Nat → JobSurroundings} {n : Nat} {built : List BscBuiltPayload} {flow : Flow}

theorem start_keeps {env : JobSurroundings}
    (hnew : (new p clock ctx : Outcome ε BscPayloadJob) = .ok first) :
    Keeps ctx [] env (first.start env) := by
  unfold new at hnew
  split at hnew
  · exact absurd hnew (by nofun)
  · cases hnew
    unfold start
    cases hsend : env.sendBuild with
    | ok _ => exact .building rfl rfl rfl rfl
    | error error => exact .failed (.queue hsend)

/-- What every run keeps, from the turns. -/
theorem Reached.keeps (hnew : (new p clock ctx : Outcome ε BscPayloadJob) = .ok first)
    (h : Reached p around first (n + 1) built flow) : Keeps ctx built (around n) flow := by
  suffices hrun : ∀ m, Reached p around first m built flow →
      ∃ last, m = last + 1 ∧ Keeps ctx built (around last) flow by
    obtain ⟨last, hlast, hkeeps⟩ := hrun _ h
    rwa [Nat.succ.inj hlast]
  clear h
  intro m h
  induction h with
  | start => exact ⟨0, rfl, start_keeps hnew⟩
  | @buildTimeout m _ _ _ _ ih =>
    obtain ⟨_, -, hkeeps⟩ := ih
    cases hkeeps with
    | building hctx hbuilt => exact ⟨m, rfl, tryReturnBestPayload_keeps hctx hbuilt⟩
  | @buildTurn m _ _ _ _ _ hready ih =>
    obtain ⟨_, -, hkeeps⟩ := ih
    exact ⟨m, rfl, buildTurn_keeps hkeeps hready⟩
  | @waitTimeout m _ _ _ _ _ ih =>
    obtain ⟨_, -, hkeeps⟩ := ih
    cases hkeeps with
    | waiting hctx hbuilt => exact ⟨m, rfl, tryReturnBestPayload_keeps hctx hbuilt⟩
  | @waitTurn m _ _ _ _ _ branch ih =>
    obtain ⟨_, -, hkeeps⟩ := ih
    exact ⟨m, rfl, waitTurn_keeps branch hkeeps⟩

/-- **What a job submits.**  Whatever branches the loops take, a payload that is submitted is for
the context of the job and earns the most of all that the job built and of the best bid; without any
of these it is the empty block of a job in turn. -/
theorem submits_best_of_run {result : Except BscPayloadJobError Unit} {submitted : SubmitContext}
    (hnew : (new p clock ctx : Outcome ε BscPayloadJob) = .ok first)
    (h : Reached p around first (n + 1) built (.returned result (some submitted))) :
    submitted.miningCtx = ctx ∧ Submits ctx built (around n) submitted.payload := by
  cases h.keeps hnew with
  | submitted hsubmits => exact ⟨rfl, hsubmits⟩

/-- The builds that are queued or running. -/
def Flow.pendingBuilds : Flow → Nat
  | .building job | .waiting job _ => job.queued + job.building
  | .returned _ _ => 0

/-- **Builds of a job.**  No two builds run at a time, and a job in its outer loop has one to wait
for. -/
theorem one_build_at_a_time (hnew : (new p clock ctx : Outcome ε BscPayloadJob) = .ok first)
    (h : Reached p around first (n + 1) built flow) :
    flow.pendingBuilds ≤ 1 ∧ ∀ job, flow = .building job → flow.pendingBuilds = 1 := by
  cases h.keeps hnew with
  | building hctx hbuilt hone halive => exact ⟨Nat.le_of_eq hone, fun _ _ => hone⟩
  | @waiting job _ hctx hbuilt hqueued hbuilding halive =>
    refine ⟨?_, fun _ hflow => absurd hflow (by nofun)⟩
    show job.queued + job.building ≤ 1
    omega
  | submitted | failed => exact ⟨Nat.zero_le 1, fun _ hflow => absurd hflow (by nofun)⟩

/-- **In-turn jobs submit.**  A job of the validator in turn that ends otherwise than by an abort
submits a payload for its context, if the channels are open and an empty block can be built. -/
theorem inturn_job_submits {result : Except BscPayloadJobError Unit} {sent : Option SubmitContext}
    (hnew : (new p clock ctx : Outcome ε BscPayloadJob) = .ok first)
    (h : Reached p around first (n + 1) built (.returned result sent))
    (hinturn : ctx.isInturn = true) (hnotAborted : result ≠ .error .jobAborted)
    (hqueue : (around n).sendBuild = .ok ()) (hchannel : (around n).sendResult = .ok ())
    (hempty : ∃ payload, (around n).buildEmptyPayload = .ok payload) :
    result = .ok () ∧ ∃ payload, sent = some ⟨ctx, payload⟩ := by
  cases h.keeps hnew with
  | submitted => exact ⟨rfl, _, rfl⟩
  | failed hfails =>
    cases hfails with
    | aborted => exact absurd rfl hnotAborted
    | queue hsend => exact absurd (hqueue.symm.trans hsend) (by nofun)
    | channel hsend => exact absurd (hchannel.symm.trans hsend) (by nofun)
    | nothing hnone hfallback => grind

end Runs

/-! ### A job with two builds and a bid

It is started 5 seconds before the time of its block.  A transaction that comes after the first
build starts a second one, which earns as much as the bid, and the job ends by its timer. -/

def contestedContext : JobContext where
  header := some { (default : Header) with number := 2, timestamp := 10 }
  parentHeader := { (default : Header) with number := 1 }
  parentSnapshot := loneSnapshot
  isInturn := true

def payloadEarning (number : UInt64) (fees : U256) : BscBuiltPayload :=
  ⟨⟨number, .zero, [], none⟩, fees, [], []⟩

/-- The best bid on the parent. -/
def contestingBid : BidRuntime where
  bid := ⟨.zero, 2, .zero, [], ∅, [], 0, 0, 0, true, .zero, 0⟩
  miningCtx := contestedContext.toMiningContext
  expectedBlockReward := 0
  expectedValidatorReward := 0
  packedBlockReward := 0
  packedValidatorReward := 0
  attributes := ⟨.zero, 10, .zero, .zero, none⟩
  bscPayload := payloadEarning 3 2
  gasUsed := 0
  gasFee := 0
  systemBalance := 0
  blobSidecars := []
  blockBlobCount := 0

def contestedSurroundings : JobSurroundings where
  jobElapsed := 0
  taken := 0
  sendBuild := .ok ()
  bestBid := some contestingBid
  sendResult := .ok ()
  buildEmptyPayload := .ok default

def contestedJob : BscPayloadJob where
  miningCtx := contestedContext
  header_isSome := rfl
  timeout := 1500000000
  queued := 0
  building := 0
  isAborted := false
  potentialPayloads := []
  cancelled := false
  retries := 0
  startTime := 0

theorem contestedJob_new :
    (new (.ofSpec lubanSpec) ⟨5000, fun _ => 0⟩ contestedContext
      : Outcome Unit BscPayloadJob) = .ok contestedJob := by
  have htimeout : ofMillis ((Parlia.ofSpec lubanSpec).delayForMining ⟨5000, fun _ => 0⟩
      loneSnapshot { (default : Header) with number := 2, timestamp := 10 } delayLeftOver)
      = 1500000000 := by decide +kernel
  unfold new
  dsimp only [contestedContext]
  rw [htimeout]
  rfl

/-- One transaction is enough after a build that took no time and had none. -/
theorem newTransaction_of_empty (env : JobSurroundings) (job : BscPayloadJob) (miningDelay : Nat) :
    job.newTransaction env ⟨0, 0, 0⟩ miningDelay = job.tryBuildAgain env := by
  simp [newTransaction]

/-- The second build runs. -/
theorem contestedJob_building :
    Reached (.ofSpec lubanSpec) (fun _ => contestedSurroundings) contestedJob 5
      [payloadEarning 1 1]
      (.building { contestedJob with
        building := 1, retries := 2, potentialPayloads := [payloadEarning 1 1] }) := by
  have hstart : Reached (.ofSpec lubanSpec) (fun _ => contestedSurroundings) contestedJob 1 []
      (.building { contestedJob with queued := 1 }) := .start
  have hwait : Reached (.ofSpec lubanSpec) (fun _ => contestedSurroundings) contestedJob 3
      [payloadEarning 1 1] (.waiting { contestedJob with
        retries := 1, potentialPayloads := [payloadEarning 1 1] } ⟨0, 0, 0⟩) :=
    (hstart.buildTurn (by decide) .tryBuild Nat.one_pos).buildTurn (by decide)
      (.built (payloadEarning 1 1)) Nat.one_pos
  have hagain := hwait.waitTurn (by decide) (.transaction ⟨5000, fun _ => 0⟩)
  rw [waitTurn, newTransaction_of_empty] at hagain
  exact hagain.buildTurn (by decide) .tryBuild Nat.one_pos

theorem contestedJob_run :
    Reached (.ofSpec lubanSpec) (fun _ => contestedSurroundings) contestedJob 7
      [payloadEarning 1 1, payloadEarning 2 2]
      (.returned (.ok ()) (some ⟨contestedContext, payloadEarning 3 2⟩)) :=
  (contestedJob_building.buildTurn (by decide) (.built (payloadEarning 2 2))
    Nat.one_pos).waitTurn (by decide) .timer

theorem contestedJob_submits_best :
    Submits contestedContext [payloadEarning 1 1, payloadEarning 2 2] contestedSurroundings
      (payloadEarning 3 2) :=
  (submits_best_of_run contestedJob_new contestedJob_run).2

theorem contestedJob_builds_one :
    (Flow.building { contestedJob with
      building := 1, retries := 2, potentialPayloads := [payloadEarning 1 1] }).pendingBuilds = 1 :=
  (one_build_at_a_time contestedJob_new contestedJob_building).2 _ rfl

theorem contestedJob_submits :
    ∃ payload, some (⟨contestedContext, payloadEarning 3 2⟩ : SubmitContext)
      = some ⟨contestedContext, payload⟩ :=
  (inturn_job_submits contestedJob_new contestedJob_run rfl (by nofun) rfl rfl ⟨default, rfl⟩).2

end BscPayloadJob

end RethBsc
