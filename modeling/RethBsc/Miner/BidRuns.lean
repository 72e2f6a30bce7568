import RethBsc.Miner.BidCommit

/-!
# Runs of the worker

The worker hands a runtime that `commit_new_bid` returned to `bid_simulate`, which may store it as
the best bid.  `RunsWith` are the states that the worker reaches when all its simulations meet some
condition.

* `RunsWith.admitted`: the runtimes that wait for their simulation are those of admitted bids, and
  have executed nothing.
* `RunsWith.bestBid`: what every successful simulation of such a runtime gives, every best bid has.
-/

namespace RethBsc

open Rust

/-- Nothing is executed and nothing is booked. -/
structure BidRuntime.Fresh (rt : BidRuntime) : Prop where
  gasUsed : rt.gasUsed = 0
  blobSidecars : rt.blobSidecars = []
  blockBlobCount : rt.blockBlobCount = 0

namespace BidSimulator

variable {c : SimulatorConfig} {s s' : BidSimulator} {env : CommitSurroundings} {bid : Bid}

/-- The runtime was made by `new_bid_runtime`, and may be marked as committed since. -/
def Admitted (s : BidSimulator) (rt : BidRuntime) : Prop :=
  ∃ bid attributes miningCtx admitted, s.newBidRuntime bid attributes miningCtx = .ok admitted ∧
    (rt = admitted ∨ rt = commitBid admitted)

variable {rt : BidRuntime} {vm : BuilderVm}

theorem Admitted.fresh (h : s.Admitted rt) : rt.Fresh := by
  obtain ⟨bid, attributes, miningCtx, admitted, hnew, hrt⟩ := h
  obtain ⟨-, rfl⟩ := newBidRuntime_eq_ok.mp hnew
  rcases hrt with rfl | rfl
  · exact ⟨rfl, rfl, rfl⟩
  · exact ⟨rfl, rfl, rfl⟩

/-- Only the commission of the simulator matters. -/
theorem Admitted.congr (h : s.Admitted rt)
    (hcommission : s'.validatorCommission = s.validatorCommission) : s'.Admitted rt := by
  unfold Admitted newBidRuntime at *
  rwa [commissionOf_congr hcommission]

theorem runtimeOfBid_admitted (h : s.runtimeOfBid c env bid = .ok (some rt)) :
    ∃ attributes miningCtx, s.newBidRuntime bid attributes miningCtx = .ok rt := by
  obtain ⟨-, hfee, attributes, miningCtx, -, hrt⟩ := prepares_of_runtime h
  exact ⟨attributes, miningCtx, newBidRuntime_eq_ok.mpr ⟨hfee, hrt⟩⟩

/-- What is chosen is the new runtime, or one of the best bid. -/
theorem selectBid_new {parentHash : B256} {chosen : BidRuntime}
    (h : s.selectBid parentHash rt = some chosen) :
    chosen = rt ∨ ∃ best, s.newBidRuntime best rt.attributes rt.miningCtx = .ok chosen := by
  grind [selectBid]

/-- What a commit returns was admitted, and the best bids and the commission stay. -/
theorem commitNewBid_spec {res : Option BidRuntime} (h : s.commitNewBid c env bid = .ok (res, s')) :
    s'.bestBid = s.bestBid ∧ s'.validatorCommission = s.validatorCommission ∧
      ∀ rt ∈ res, s.Admitted rt := by
  cases commitEffect h with
  | known => exact ⟨rfl, rfl, fun _ hrt => absurd hrt (by simp)⟩
  | turnedAway => exact ⟨rfl, rfl, fun _ hrt => absurd hrt (by simp)⟩
  | discarded => exact ⟨rfl, rfl, fun _ hrt => absurd hrt (by simp)⟩
  | @registered rt chosen _ _ _ hruntime hselect hrequest =>
    obtain ⟨-, hcommission, hbest, -, hres⟩ := requestSimulation_eq_ok hrequest
    refine ⟨hbest, hcommission, fun rt hrt => ?_⟩
    rcases hres with rfl | rfl
    · simp at hrt
    · cases hrt
      rcases selectBid_new hselect with rfl | ⟨best, hnew⟩
      · obtain ⟨attributes, miningCtx, hnew⟩ := runtimeOfBid_admitted hruntime
        exact ⟨bid, attributes, miningCtx, _, hnew, .inr rfl⟩
      · exact ⟨best, _, _, _, hnew, .inr rfl⟩

theorem bidSimulate_commission {env : SimulationSurroundings vm}
    (h : s.bidSimulate c env rt = .ok s') : s'.validatorCommission = s.validatorCommission := by
  cases simulateEffect h <;> rfl

/-- A simulation stores what it returns, or nothing. -/
theorem bidSimulate_bestBid {env : SimulationSurroundings vm}
    {P : BidRuntime → Prop} (hbest : Map.All (fun _ rt => P rt) s.bestBid)
    (hP : ∀ simulated, s.simulate c env rt = .ok simulated → P simulated)
    (h : s.bidSimulate c env rt = .ok s') : Map.All (fun _ rt => P rt) s'.bestBid := by
  cases simulateEffect h with
  | closed => exact hbest
  | stored hok => exact hbest.insert (hP _ hok)
  | beaten => exact hbest
  | failed => exact hbest

end BidSimulator

namespace MevWorkWorker

variable {vm : BuilderVm}

/-- The event does not start a simulation, or it starts one that meets the condition. -/
def Meets (Q : BidSimulator → SimulationSurroundings vm → BidRuntime → Prop) (w : MevWorkWorker) :
    Event vm → Prop
  | .simulateRequest env => ∀ rt requests, w.requests = rt :: requests → Q w.simulator env rt
  | _ => True

/-- The states that a new worker reaches if all simulations meet the condition. -/
inductive RunsWith (c : SimulatorConfig)
    (Q : BidSimulator → SimulationSurroundings vm → BidRuntime → Prop) : MevWorkWorker → Prop where
  | new (validatorCommission : UInt64) (greedyMerge : Bool) :
      RunsWith c Q ⟨.new validatorCommission greedyMerge, []⟩
  | step {w w' : MevWorkWorker} {event : Event vm} : RunsWith c Q w → w.Meets Q event →
      w.step c event = .ok w' → RunsWith c Q w'

variable {c : SimulatorConfig} {w : MevWorkWorker}
  {Q : BidSimulator → SimulationSurroundings vm → BidRuntime → Prop}

/-- What a step of the worker does. -/
inductive StepEffect (c : SimulatorConfig) (w : MevWorkWorker) :
    Event vm → MevWorkWorker → Prop where
  | committed {env : BidSimulator.CommitSurroundings} {bid : Bid} {res : Option BidRuntime}
      {simulator : BidSimulator} : w.simulator.commitNewBid c env bid = .ok (res, simulator) →
      StepEffect c w (.bidPackage env bid) ⟨simulator, w.requests ++ res.toList⟩
  | idle {env : SimulationSurroundings vm} : StepEffect c w (.simulateRequest env) w
  | simulated {env : SimulationSurroundings vm} {rt : BidRuntime} {requests : List BidRuntime}
      {simulator : BidSimulator} : w.requests = rt :: requests →
      w.simulator.bidSimulate c env rt = .ok simulator →
      StepEffect c w (.simulateRequest env) ⟨simulator, requests⟩
  | cleared (lastBlockNumber : UInt64) :
      StepEffect c w (.clear lastBlockNumber)
        { w with simulator := w.simulator.clear lastBlockNumber }

theorem stepEffect {w' : MevWorkWorker} {event : Event vm} (h : w.step c event = .ok w') :
    StepEffect c w event w' := by
  cases event with
  | bidPackage env bid =>
    obtain ⟨⟨res, simulator⟩, hcommit, heq⟩ := Outcome.bind_eq_ok.mp h
    cases heq
    exact .committed hcommit
  | clear lastBlockNumber =>
    cases h
    exact .cleared lastBlockNumber
  | simulateRequest env =>
    unfold MevWorkWorker.step at h
    cases hrequests : w.requests with
    | nil =>
      rw [hrequests] at h
      cases h
      exact .idle
    | cons rt requests =>
      rw [hrequests] at h
      obtain ⟨simulator, hsimulate, heq⟩ := Outcome.bind_eq_ok.mp h
      cases heq
      exact .simulated hrequests hsimulate

theorem StepEffect.commission {w' : MevWorkWorker} {event : Event vm}
    (h : StepEffect c w event w') :
    w'.simulator.validatorCommission = w.simulator.validatorCommission := by
  cases h with
  | committed hcommit => exact (BidSimulator.commitNewBid_spec hcommit).2.1
  | idle => rfl
  | simulated _ hsimulate => exact BidSimulator.bidSimulate_commission hsimulate
  | cleared => rfl

/-- The runtimes that wait for their simulation were admitted under the commission. -/
theorem RunsWith.admitted (h : RunsWith c Q w) :
    ∀ rt ∈ w.requests, w.simulator.Admitted rt := by
  induction h with
  | new => exact fun _ hrt => absurd hrt List.not_mem_nil
  | @step w w' event _ _ hstep ih =>
    have heffect := stepEffect hstep
    have hold : ∀ rt ∈ w.requests, w'.simulator.Admitted rt :=
      fun rt hrt => (ih rt hrt).congr heffect.commission
    cases heffect with
    | committed hcommit =>
      obtain ⟨-, hcommission, hres⟩ := BidSimulator.commitNewBid_spec hcommit
      intro rt hrt
      rcases List.mem_append.mp hrt with hwaiting | hnew
      · exact hold rt hwaiting
      · exact (hres rt (Option.mem_toList.mp hnew)).congr hcommission
    | idle => exact hold
    | simulated hrequests => exact fun rt hrt => hold rt (hrequests ▸ List.mem_cons_of_mem _ hrt)
    | cleared => exact hold

/-- **What simulations give, best bids have.** -/
theorem RunsWith.bestBid {P : BidRuntime → Prop} {commission : UInt64}
    (hP : ∀ (s : BidSimulator) (env : SimulationSurroundings vm) (rt simulated : BidRuntime),
      s.validatorCommission = commission → s.Admitted rt → Q s env rt →
      s.simulate c env rt = .ok simulated → P simulated)
    (h : RunsWith c Q w) (hcommission : w.simulator.validatorCommission = commission) :
    Map.All (fun _ rt => P rt) w.simulator.bestBid := by
  induction h with
  | new => exact Map.all_empty _
  | @step w w' event hrun hmeets hstep ih =>
    have heffect := stepEffect hstep
    rw [heffect.commission] at hcommission
    have hbest := ih hcommission
    cases heffect with
    | @committed env bid res simulator hcommit =>
      show Map.All _ simulator.bestBid
      rw [(BidSimulator.commitNewBid_spec hcommit).1]
      exact hbest
    | idle => exact hbest
    | @simulated env rt requests simulator hrequests hsimulate =>
      have hadmitted := hrun.admitted rt (hrequests ▸ List.mem_cons_self)
      exact BidSimulator.bidSimulate_bestBid hbest
        (fun simulated => hP w.simulator env rt simulated hcommission hadmitted
          (hmeets rt requests hrequests))
        hsimulate
    | cleared => exact hbest.retain _

/-- A new worker commits a bid and simulates it. -/
theorem RunsWith.commit_simulate {validatorCommission : UInt64} {greedyMerge : Bool}
    {commitEnv : BidSimulator.CommitSurroundings} {bid : Bid} {env : SimulationSurroundings vm}
    {request : BidRuntime} {w₁ w₂ : MevWorkWorker}
    (hcommit : MevWorkWorker.step c ⟨.new validatorCommission greedyMerge, []⟩
      (.bidPackage commitEnv bid : Event vm) = .ok w₁)
    (hrequests : w₁.requests = [request]) (hQ : Q w₁.simulator env request)
    (hsimulate : w₁.step c (.simulateRequest env) = .ok w₂) : RunsWith c Q w₂ := by
  have hcommitted : RunsWith c Q w₁ := .step (.new validatorCommission greedyMerge)
      (show Meets Q _ (.bidPackage commitEnv bid) from trivial) hcommit
  refine .step hcommitted ?_ hsimulate
  intro rt requests heq
  simp_all

end MevWorkWorker

end RethBsc
