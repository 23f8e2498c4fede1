import OmniStreaming.Duplex.RequestId
import OmniStreaming.Talker.Runner

/-!
# The talker stage around its engine

A task for the talker stage becomes a coroutine `generation_single_request`, which notes the payload
of the request in `GPUARModelRunner._STAGING_METADATA` and waits in `stage_engine.generate` until
the engine core reports the request finished. The engine core answers a step with one output for the
request that was scheduled, and the front end ends the `generate` calls that it names.

What the stage keeps of a turn is released by tests on request ids: `finish_requests` clears the
lockers for an aborted request or a finished `_stage_2_` request with `_FINAL`, and `_update_states`
resets the maps of the model for the latter only. `TalkerStage` is the engine with the coroutines,
the noted payloads and the ids finished since the last step.

The engine core fills `finished_requests` of its outputs only for the load balancer of several
data-parallel engines; it is left out.
-/

namespace OmniStreaming

open Transition

variable {η : Type*}

/-! ## Release by the shape of an id -/

/-- The statuses with which a request finishes. -/
inductive FinishedStatus
  | stopped
  | lengthCapped
  | aborted
  | ignored
  deriving Repr, DecidableEq

/-- The id of the last stage-2 request of a turn, by the test on its text. -/
def isFinalStage2 (rid : Key) : Bool := (stage2Mark ++ ['_']) <:+: rid ∧ finalMark <:+: rid

/-- `should_clear_all` in `finish_requests`. -/
def shouldClearAll (status : FinishedStatus) (rid : Key) : Bool :=
  status = .aborted || status = .ignored || isFinalStage2 rid

/-- The text of a request id of the talker. -/
def requestKey (id : TurnId × ℕ) : Key := stage1Key id.1.text id.2

/-- `finish_requests`: the lockers of the sessions of some ids are cleared, and the requests leave
the queue. -/
def SchedulerState.finishRequests (s : SchedulerState TurnId) (ids : List (TurnId × ℕ))
    (status : FinishedStatus) : SchedulerState TurnId :=
  { s with
    waiting := s.waiting.filter fun r => r.id ∉ ids
    lockers := fun t =>
      if ∃ id ∈ ids, shouldClearAll status (requestKey id) ∧
          splitHead stageMark (requestKey id) = t.text then {}
      else s.lockers t }

/-- `reset_session_state`; no value if `latest_history_cache` is `None`, which has no `pop`. -/
def ModelState.resetSessionState (m : ModelState TurnId η) (session : Key) :
    Option (ModelState TurnId η) :=
  m.latestHistoryCache.map fun cache =>
    { stg1CurrentPos := fun t => if t.text = session then none else m.stg1CurrentPos t
      stg1LastHidden := fun t => if t.text = session then none else m.stg1LastHidden t
      imStartIndexes := fun t => if t.text = session then false else m.imStartIndexes t
      latestHistoryCache := some fun t => if t.text = session then none else cache t }

/-- What `_update_states` does to the model for the ids that have finished. -/
def ModelState.updateStates (m : ModelState TurnId η) (finished : List Key) :
    Option (ModelState TurnId η) :=
  finished.foldlM
    (fun m rid =>
      if isFinalStage2 rid then m.resetSessionState (splitHead stageMark rid) else some m) m

/-! ## The stage -/

/-- An output of the engine core for a request, with which it finishes. -/
structure EngineCoreOutput (ι : Type*) where
  requestId : ι × ℕ
  newTokenIds : List ℕ
  finishReason : FinishReason
  deriving Repr, DecidableEq

/-- The outputs of a step: one, for the scheduled request. -/
def coreOutputs {ι : Type*} (cfg : EngineConfig) (o : Scheduled ι) (token : Option ℕ) :
    List (EngineCoreOutput ι) :=
  [{ requestId := o.request.id
     newTokenIds := token.toList
     finishReason := (o.stopReason cfg token).getD .stop }]

/-- The ids that a step finishes besides its own: after 2150 the later ones that start with the
turn, unless `check_stop` has ended the request. -/
def flushedIds (cfg : EngineConfig) (waiting : List (Request TurnId)) (o : Scheduled TurnId)
    (token : Option ℕ) : List (TurnId × ℕ) :=
  if o.stopReason cfg token = none ∧ token = some stopToken then
    (waiting.map Request.id).filter fun id =>
      o.request.turn.text <+: requestKey id ∧ o.request.idx < id.2
  else []

/-- The talker stage: its engine, the requests waited for in `generate`, the keys of
`_STAGING_METADATA`, and the requests finished since the runner was told. -/
structure TalkerStage (η : Type*) where
  engine : EngineState TurnId η
  generating : List (TurnId × ℕ) := []
  staging : List (TurnId × ℕ) := []
  finishedReqIds : List (TurnId × ℕ) := []

def TalkerStage.init (cfg : EngineConfig) : TalkerStage η where
  engine := EngineState.init cfg

/-- The requests that the scheduler knows. -/
abbrev TalkerStage.waiting (s : TalkerStage η) : List (Request TurnId) := s.engine.sched.waiting

inductive StageAct (η : Type*)
  /-- The coroutine of a new task runs until it waits for the engine. -/
  | task (turn : TurnId) (idx numPromptTokens : ℕ)
  /-- The coroutine of a request is cancelled and the request aborted. -/
  | abort (turn : TurnId) (idx : ℕ)
  /-- The engine core takes a step. -/
  | step (env : StepEnv η)
  /-- The engine core has nothing to schedule and only tells the runner what has finished. -/
  | idle

/-- `process_outputs`: the requests that the outputs name are done, and their coroutines end. -/
def processOutputs {ι : Type*} [DecidableEq ι] (generating : List (ι × ℕ))
    (outputs : List (EngineCoreOutput ι)) : List (ι × ℕ) :=
  generating.filter fun id => id ∉ outputs.map EngineCoreOutput.requestId

/-- One event of the stage. A task with the id of a running request notes its payload and is
refused. -/
def stageStep [Zero η] (cfg : EngineConfig) (s : TalkerStage η) :
    StageAct η → Option (TalkerStage η)
  | .task turn idx n =>
    if (turn, idx) ∈ s.generating then some { s with staging := s.staging ++ [(turn, idx)] }
    else
      (engineStep cfg s.engine (.add turn idx n)).map fun engine =>
        { s with
          engine := engine
          generating := s.generating ++ [(turn, idx)]
          staging := s.staging ++ [(turn, idx)] }
  | .abort turn idx =>
    (engineStep cfg s.engine (.abort turn idx)).map fun engine =>
      { s with
        engine := engine
        generating := s.generating.filter (· ≠ (turn, idx))
        finishedReqIds := s.finishedReqIds ++
          (s.waiting.map Request.id).filter (· = (turn, idx)) }
  | .step env =>
    (s.engine.model.updateStates (s.finishedReqIds.map requestKey)).bind fun model =>
      (schedule cfg s.engine.sched).bind fun o =>
        (engineStep cfg { s.engine with model := model } (.step env)).map fun engine =>
          { s with
            engine := engine
            generating := processOutputs s.generating (coreOutputs cfg o (o.sampled env.token))
            finishedReqIds := flushedIds cfg s.waiting.tail o (o.sampled env.token) ++
              [o.request.id] }
  | .idle =>
    match schedule cfg s.engine.sched with
    | some _ => none
    | none =>
      (s.engine.model.updateStates (s.finishedReqIds.map requestKey)).map fun model =>
        { s with engine := { s.engine with model := model }, finishedReqIds := [] }

/-! ## The tests on the ids of the talker -/

lemma isFinalStage2_requestKey (id : TurnId × ℕ) : isFinalStage2 (requestKey id) = false :=
  decide_eq_false fun h => not_final_infix_stage1Key id.1 id.2 h.2

@[simp] lemma shouldClearAll_requestKey (status : FinishedStatus) (id : TurnId × ℕ) :
    shouldClearAll status (requestKey id) = (status = .aborted || status = .ignored : Bool) := by
  simp [shouldClearAll, isFinalStage2_requestKey]

@[simp] lemma splitHead_requestKey (id : TurnId × ℕ) :
    splitHead stageMark (requestKey id) = id.1.text := splitHead_stage1Key id.1 id.2

/-- Aborting a request through `finish_requests` is `abortRequest`. -/
lemma finishRequests_aborted (s : SchedulerState TurnId) (turn : TurnId) (idx : ℕ) :
    s.finishRequests [(turn, idx)] .aborted = s.abortRequest turn idx := by
  have hid : ∀ r : Request TurnId, (r.id = (turn, idx)) = (r.turn = turn ∧ r.idx = idx) := by
    intro r
    rw [Request.id, Prod.mk.injEq]
  simp only [SchedulerState.finishRequests, SchedulerState.abortRequest, List.mem_singleton,
    exists_eq_left, shouldClearAll_requestKey, splitHead_requestKey, hid,
    TurnId.text_injective.eq_iff]
  congr 1
  · exact List.filter_congr fun r _ => by simp
  · funext t
    by_cases ht : t = turn
    · subst ht
      simp
    · simp [ht, Ne.symm ht]

@[simp] lemma updateStates_requestKey (m : ModelState TurnId η) (ids : List (TurnId × ℕ)) :
    m.updateStates (ids.map requestKey) = some m := by
  unfold ModelState.updateStates
  induction ids with
  | nil => rfl
  | cons id ids ih =>
    rw [List.map_cons, List.foldlM_cons, isFinalStage2_requestKey]
    exact ih

/-! ## What an event can do -/

variable [Zero η] {cfg : EngineConfig} {s s' : TalkerStage η} {a : StageAct η}

/-- An arrival in the engine. -/
lemma engineStep_add {es es' : EngineState TurnId η} {turn : TurnId} {idx n : ℕ}
    (h : engineStep cfg es (.add turn idx n) = some es') :
    ∃ hn : 0 < n, (∀ r ∈ es.sched.waiting, ¬ (r.turn = turn ∧ r.idx = idx)) ∧
      es' = { es with sched := es.sched.addRequest turn idx n hn } := by
  simp only [engineStep, EngineAct.sched, schedStep] at h
  split_ifs at h with hn hid
  · cases h
  · exact ⟨hn, fun r hr hr' => hid ⟨r, hr, hr'⟩, (Option.some.inj h).symm⟩
  · cases h

lemma stageStep_cases (h : stageStep cfg s a = some s') :
    (∃ turn idx n, a = .task turn idx n ∧ (turn, idx) ∈ s.generating ∧
      s' = { s with staging := s.staging ++ [(turn, idx)] }) ∨
    (∃ turn idx n, ∃ hn : 0 < n, a = .task turn idx n ∧
      (∀ r ∈ s.waiting, ¬ (r.turn = turn ∧ r.idx = idx)) ∧
      s' = { s with
        engine := { s.engine with sched := s.engine.sched.addRequest turn idx n hn }
        generating := s.generating ++ [(turn, idx)]
        staging := s.staging ++ [(turn, idx)] }) ∨
    (∃ turn idx, a = .abort turn idx ∧
      s' = { s with
        engine := { s.engine with sched := s.engine.sched.abortRequest turn idx }
        generating := s.generating.filter (· ≠ (turn, idx))
        finishedReqIds := s.finishedReqIds ++
          (s.waiting.map Request.id).filter (· = (turn, idx)) }) ∨
    (∃ env o m v, a = .step env ∧ schedule cfg s.engine.sched = some o ∧
      runnerStep s.engine.model o.request.turn o.data env = some (m, v) ∧
      s' = { s with
        engine := s.engine.afterStep cfg o env m v
        generating := processOutputs s.generating (coreOutputs cfg o (o.sampled env.token))
        finishedReqIds := flushedIds cfg s.waiting.tail o (o.sampled env.token) ++
          [o.request.id] }) ∨
    (a = .idle ∧ schedule cfg s.engine.sched = none ∧ s' = { s with finishedReqIds := [] }) := by
  cases a with
  | task turn idx n =>
    simp only [stageStep] at h
    split_ifs at h with hmem
    · exact .inl ⟨turn, idx, n, rfl, hmem, (Option.some.inj h).symm⟩
    · obtain ⟨engine, hengine, rfl⟩ := Option.map_eq_some_iff.mp h
      obtain ⟨hn, hnew, rfl⟩ := engineStep_add hengine
      exact .inr (.inl ⟨turn, idx, n, hn, rfl, hnew, rfl⟩)
  | abort turn idx =>
    exact .inr (.inr (.inl ⟨turn, idx, rfl, (Option.some.inj h).symm⟩))
  | step env =>
    simp only [stageStep, updateStates_requestKey, Option.bind_some] at h
    obtain ⟨o, ho, h⟩ := Option.bind_eq_some_iff.mp h
    obtain ⟨engine, hengine, rfl⟩ := Option.map_eq_some_iff.mp h
    obtain ⟨_, hnot, -⟩ | ⟨env', o', m, v, heq, ho', hrunner, rfl⟩ := engineStep_cases hengine
    · exact absurd rfl (hnot env.token)
    · obtain rfl : env = env' := by simpa using heq
      cases ho.symm.trans ho'
      exact .inr (.inr (.inr (.inl ⟨env, o, m, v, rfl, ho, hrunner, rfl⟩)))
  | idle =>
    simp only [stageStep, updateStates_requestKey, Option.map_some] at h
    split at h
    · cases h
    · rename_i hnone
      exact .inr (.inr (.inr (.inr ⟨rfl, hnone, (Option.some.inj h).symm⟩)))

end OmniStreaming
