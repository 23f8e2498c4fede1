import OmniStreaming.Lib.Transition
import OmniStreaming.Duplex.Vocoder

/-!
# Talker results that arrive after the stop

The stop token makes `worker_1to2` drain the talker's queue, forget the ids of the turn's stage-1
requests and send the `_FINAL` window. Results that are already past the harvester, and results
of requests whose ids `padding_burst_task` registers afterwards, still reach it.

The file models the way of a stage-1 result (the stage worker, the harvester, `router_task`,
`worker_1to2`) together with the tasks that send further requests, in any interleaving, and proves
exactly which runs never submit a stage-2 task after a `_FINAL` one.
-/

namespace OmniStreaming

open Transition

variable {ρ : Type*}

/-! ## The lane of stage-1 results -/

/-- The stage-1 requests and results of a turn: registered numbers, queues, metadata, whether
`worker_1to2` runs, and the stage-2 tasks submitted. -/
structure TalkerLane (ρ : Type*) where
  chunkSeq : ℕ := 0
  padsLeft : Option ℕ := none
  registered : List ℕ := []
  inQueue : List ℕ := []
  taken : List ℕ := []
  outQueue : List (TalkerResult ρ) := []
  reqQueue : List (TalkerResult ρ) := []
  stageQueue : List (TalkerResult ρ) := []
  md : TurnMetadata ρ := {}
  alive : Bool := true
  tasks : List (Stage2Task ρ) := []
  deriving Repr, DecidableEq

/-- The steps of the lane. A step that sends something carries the answer of the connector. -/
inductive LaneAct (ρ : Type*)
  /-- `worker_0to1` sends the next stage-1 request. -/
  | relay (accepted : Bool)
  /-- `worker_0to1` spawns `padding_burst_task`. -/
  | spawnBurst (pads : ℕ)
  /-- `padding_burst_task` sends the next pad. -/
  | pad (accepted : Bool)
  /-- The stage worker takes a request from its queue. -/
  | take
  /-- The stage worker puts out a result of a request it has taken. -/
  | emit (r : TalkerResult ρ)
  /-- The harvester delivers a result whose id is registered and drops any other. -/
  | harvest
  /-- `router_task` hands a result to `worker_1to2`. -/
  | route
  /-- `worker_1to2` handles a result. -/
  | work (accepted : Bool)
  deriving Repr, DecidableEq

/-- Register and send the next stage-1 request. -/
def TalkerLane.sendRequest (s : TalkerLane ρ) (accepted : Bool) : TalkerLane ρ :=
  { s with
    chunkSeq := s.chunkSeq + 1
    registered := s.registered ++ [s.chunkSeq]
    inQueue := if accepted then s.inQueue ++ [s.chunkSeq] else s.inQueue }

/-- The stop handler: `selective_drain` removes the requests behind the stopping one, and every
stage-1 id is forgotten. -/
def TalkerLane.forgetRequests (s : TalkerLane ρ) (r : TalkerResult ρ) : TalkerLane ρ :=
  if r.isStop then
    { s with
      inQueue := s.inQueue.filter fun k => !(k ∈ s.registered ∧ r.idx < k : Bool)
      registered := [] }
  else s

/-- `worker_1to2` handles the result `r`. -/
def TalkerLane.handle [Zero ρ] (s : TalkerLane ρ) (r : TalkerResult ρ) (accepted : Bool) :
    TalkerLane ρ :=
  let o := worker1to2 s.md r
  { s.forgetRequests r with
    md := o.md
    alive := o.alive
    tasks := if accepted then s.tasks ++ o.sent.toList else s.tasks }

def laneStep [Zero ρ] (s : TalkerLane ρ) : LaneAct ρ → Option (TalkerLane ρ)
  | .relay accepted =>
    match s.padsLeft with
    | none => some (s.sendRequest accepted)
    | some _ => none
  | .spawnBurst pads =>
    match s.padsLeft with
    | none => some { s with padsLeft := some pads }
    | some _ => none
  | .pad accepted =>
    match s.padsLeft with
    | some (n + 1) => some { s.sendRequest accepted with padsLeft := some n }
    | _ => none
  | .take =>
    match s.inQueue with
    | k :: rest => some { s with inQueue := rest, taken := s.taken ++ [k] }
    | [] => none
  | .emit r => if r.idx ∈ s.taken then some { s with outQueue := s.outQueue ++ [r] } else none
  | .harvest =>
    match s.outQueue with
    | r :: rest =>
      some { s with
        outQueue := rest
        reqQueue := if r.idx ∈ s.registered then s.reqQueue ++ [r] else s.reqQueue }
    | [] => none
  | .route =>
    match s.reqQueue with
    | r :: rest => some { s with reqQueue := rest, stageQueue := s.stageQueue ++ [r] }
    | [] => none
  | .work accepted =>
    match s.alive, s.stageQueue with
    | true, r :: rest => some (TalkerLane.handle { s with stageQueue := rest } r accepted)
    | _, _ => none

/-! ## The `_FINAL` window is the last -/

/-- No task but the last one is a `_FINAL` one: at most one is submitted, and nothing after it. -/
def FinalLast (s : TalkerLane ρ) : Prop := ∀ t ∈ s.tasks.dropLast, t.isFinal = false

/-- Once a `_FINAL` window has been submitted, a result that reaches `worker_1to2` carries no stop
token and leaves less than a full window unsent, or carries it and leaves so many rows that the
worker fails, or the connector refuses what is sent. -/
def QuietAfterFinal (s : TalkerLane ρ) : LaneAct ρ → Prop
  | .work true =>
    ∀ r ∈ s.stageQueue.head?, (∃ t ∈ s.tasks, t.isFinal = true) →
      r.isStop = false ∧ s.md.unsent r < chunkUnit ∨
        r.isStop = true ∧ (s.md.unsent r = 0 ∨ chunkUnit < s.md.unsent r)
  | _ => True

instance (s : TalkerLane ρ) : Decidable (FinalLast s) := by
  unfold FinalLast
  infer_instance

instance (s : TalkerLane ρ) (a : LaneAct ρ) : Decidable (QuietAfterFinal s a) := by
  unfold QuietAfterFinal
  split <;> infer_instance

/-- Only `worker_1to2` submits stage-2 tasks. -/
lemma laneStep_tasks [Zero ρ] {s s' : TalkerLane ρ} {a : LaneAct ρ} (h : laneStep s a = some s') :
    s'.tasks = s.tasks ∨
      ∃ r rest, a = .work true ∧ s.stageQueue = r :: rest ∧
        s'.tasks = s.tasks ++ (worker1to2 s.md r).sent.toList := by
  cases a with
  | work accepted =>
    simp only [laneStep] at h
    split at h
    · rename_i r rest _ hq
      cases h
      cases accepted with
      | true => exact .inr ⟨r, rest, rfl, hq, by simp [TalkerLane.handle]⟩
      | false => exact .inl (by simp [TalkerLane.handle])
    · cases h
  | emit r =>
    simp only [laneStep] at h
    split at h
    · cases h
      exact .inl rfl
    · cases h
  | relay _ | spawnBurst _ | pad _ | take | harvest | route =>
    simp only [laneStep] at h
    split at h
    all_goals first
      | (obtain rfl := Option.some.inj h; exact .inl rfl)
      | cases h

/-- A further task leaves the `_FINAL` one last iff there was none before. -/
lemma finalLast_append {tasks : List (Stage2Task ρ)} (sent : Option (Stage2Task ρ))
    (h : ∀ t ∈ tasks.dropLast, t.isFinal = false) :
    (∀ t ∈ (tasks ++ sent.toList).dropLast, t.isFinal = false) ↔
      ((∃ t ∈ tasks, t.isFinal = true) → sent = none) := by
  cases sent with
  | none => simpa using h
  | some t =>
    rw [Option.toList_some, List.dropLast_concat]
    simp

/-- A step keeps the `_FINAL` window last iff it meets the condition. -/
lemma finalLast_step_iff [Zero ρ] {s s' : TalkerLane ρ} {a : LaneAct ρ} (hlast : FinalLast s)
    (hs : laneStep s a = some s') : FinalLast s' ↔ QuietAfterFinal s a := by
  have hsent : ∀ r, (worker1to2 s.md r).sent = none ↔
      r.isStop = false ∧ s.md.unsent r < chunkUnit ∨
        r.isStop = true ∧ (s.md.unsent r = 0 ∨ chunkUnit < s.md.unsent r) :=
    fun r => worker1to2_sent_eq_none_iff s.md r
  cases a with
  | work accepted =>
    simp only [laneStep] at hs
    split at hs
    · rename_i r rest _ hq
      cases hs
      cases accepted with
      | true =>
        have htasks : (TalkerLane.handle { s with stageQueue := rest } r true).tasks =
            s.tasks ++ (worker1to2 s.md r).sent.toList := rfl
        rw [FinalLast, htasks, finalLast_append _ hlast, hsent r]
        simp [QuietAfterFinal, hq]
      | false => exact iff_of_true hlast trivial
    · cases hs
  | relay _ | spawnBurst _ | pad _ | take | emit _ | harvest | route =>
    refine iff_of_true ?_ trivial
    rcases laneStep_tasks hs with htasks | ⟨r, rest, hact, -⟩
    · rw [FinalLast, htasks]
      exact hlast
    · cases hact

/-- Along a run the `_FINAL` window stays the last one iff every step meets the condition. -/
theorem finalLast_iff_quietAfterFinal [Zero ρ] {acts : List (LaneAct ρ)} {t : TalkerLane ρ}
    (hrun : run laneStep {} acts = some t) :
    EveryState laneStep FinalLast {} acts ↔ AllSteps laneStep QuietAfterFinal {} acts := by
  constructor
  · exact allSteps_of_everyState (fun s a s' hs hstep hs' => (finalLast_step_iff hs hstep).mp hs')
      hrun
  · refine everyState_of_allSteps
      (fun s a s' hs hok hstep => (finalLast_step_iff hs hstep).mpr hok) (fun _ h => h) ?_
    simp [FinalLast]

/-- One row with the stop token, then a pad whose result has neither. -/
def quietRun : List (LaneAct ℕ) :=
  [.relay true, .take, .emit ⟨0, [2150], some [7]⟩, .harvest, .route, .work true,
    .spawnBurst 150, .pad true, .take, .emit ⟨1, [11], none⟩, .harvest, .route, .work true]

/-- Along the quiet run the `_FINAL` window stays the last task. -/
theorem finalLast_quietRun : EveryState laneStep FinalLast {} quietRun := by
  have hrun : run laneStep {} quietRun = some _ := rfl
  exact (finalLast_iff_quietAfterFinal hrun).mpr (by decide)

/-- One row with the stop token, then a pad registered later whose result has the stop token
again. -/
def secondStopRun : List (LaneAct ℕ) :=
  [.relay true, .spawnBurst 150, .take, .emit ⟨0, [2150], some [7]⟩, .harvest, .route, .work true,
    .pad true, .take, .emit ⟨1, [2150], some [8]⟩, .harvest, .route, .work true]

/-- The second stop token submits a second `_FINAL` window behind the first. -/
theorem finalLast_fails_secondStop :
    ∃ s, run laneStep {} secondStopRun = some s ∧ s.tasks.map Stage2Task.isFinal = [true, true] ∧
      ¬ FinalLast s :=
  ⟨_, rfl, by decide, by decide⟩

end OmniStreaming
