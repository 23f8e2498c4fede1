import OmniStreaming.Talker.PayloadRelay

/-!
# The talker model and its runner

The model keeps what a turn needs from one request to the next in maps of its own: the M-RoPE
positions (`stg1_current_pos`), the last hidden row (`stg1_last_hidden`), the indexes of the prompt
(`im_start_indexes`) and the token history for the sampler (`latest_history_cache`). A step goes
through `talker_preprocess`, `_model_forward`, `sample_tokens` and `talker_postprocess`, which read
and write these maps and the payload of the request.

The network is not modelled: what it computes in a step (the last hidden row and the sampled token),
and what the base runner prepares for it (input ids and positions), are inputs of the step. Batches
are not padded. `EngineState` puts the scheduler and the model together.
-/

namespace OmniStreaming

open Function Transition

variable {ι η : Type*}

/-! ## The state of the model -/

/-- A column of M-RoPE positions. -/
abbrev Column := Fin 3 → ℕ

/-- The maps of the model. `latest_history_cache` may be `None`; of prompt indexes only the presence
matters. -/
structure ModelState (ι η : Type*) where
  stg1CurrentPos : ι → Option (List Column) := fun _ => none
  stg1LastHidden : ι → Option η := fun _ => none
  imStartIndexes : ι → Bool := fun _ => false
  latestHistoryCache : Option (ι → Option (List ℕ)) := some fun _ => none

/-- What the base runner prepares and what the network makes of it: input ids and positions, the
last hidden row and the sampled token. -/
structure StepEnv (η : Type*) where
  inputIds : ℕ → ℕ
  positions : ℕ → Column
  lastRow : η
  token : ℕ

/-- What a step shows to network and sampler: input ids, positions, last talker hidden, the history
in the payload and `sampling_metadata.output_token_ids`, with its last hidden row. -/
structure StepView (η : Type*) where
  inputIds : List ℕ
  positions : List Column
  lastTalkerHidden : η
  audioHistory : Option (List ℕ)
  outputTokenIds : List ℕ
  lastRow : η

/-! ## The functions of a step -/

/-- The last `n` columns of the positions, the slice `[:, -n:]`. -/
def lastColumns (n : ℕ) (columns : List Column) : List Column := columns.drop (columns.length - n)

/-- The column after a given one. -/
def nextColumn (c : Column) : Column := fun i => c i + 1

/-- The input ids: filled with the predicted token if the payload has one. -/
def inputIdsOf (data : NewRequestData) (env : StepEnv η) : List ℕ :=
  match data.info.predictedAudioToken with
  | some x => List.replicate data.numScheduledTokens x
  | none => (List.range data.numScheduledTokens).map env.inputIds

variable [DecidableEq ι]

/-- The history update of `talker_preprocess` for one token: the input is appended to the cached
history, or to that of the payload if the cached one is missing or empty. -/
def cacheWithInput (cache : Option (ι → Option (List ℕ))) (turn : ι) (info : AudioPayload)
    (inputIds : List ℕ) : ι → Option (List ℕ) :=
  let cache := cache.getD fun _ => none
  let sessionHistory := (cache turn).getD []
  let base := if sessionHistory = [] then info.audioHistory.getD [] else sessionHistory
  update cache turn (some (base ++ inputIds))

/-- `talker_preprocess`: a longer span is a prefill, which notes the prompt and makes sure of a last
hidden row; one token needs these notes, and the lookup raises without them. -/
def talkerPreprocess [Zero η] (m : ModelState ι η) (turn : ι) (data : NewRequestData)
    (inputIds : List ℕ) : Option (ModelState ι η) :=
  if 1 < data.numScheduledTokens then
    some { m with
      stg1LastHidden :=
        update m.stg1LastHidden turn (some ((m.stg1LastHidden turn).getD 0))
      imStartIndexes := update m.imStartIndexes turn true }
  else if m.imStartIndexes turn then
    some { m with
      latestHistoryCache := some (cacheWithInput m.latestHistoryCache turn data.info inputIds) }
  else none

/-- The positions that the base runner prepares. -/
def preparedPositions (data : NewRequestData) (env : StepEnv η) : List Column :=
  (List.range data.numScheduledTokens).map env.positions

variable (m : ModelState ι η)

/-- The positions that `_model_forward` uses: the end of the saved ones of the turn, if any. -/
def forwardPositions (turn : ι) (data : NewRequestData) (env : StepEnv η) : List Column :=
  match m.stg1CurrentPos turn with
  | some saved => lastColumns data.numScheduledTokens saved
  | none => preparedPositions data env

/-- `_model_forward` saves the positions of the turn with one more column, and the last hidden
row. -/
def saveForward (turn : ι) (data : NewRequestData) (env : StepEnv η) : ModelState ι η :=
  let lastPositions := (m.stg1CurrentPos turn).getD (preparedPositions data env)
  { m with
    stg1CurrentPos := update m.stg1CurrentPos turn
      (some (lastPositions ++ lastPositions.getLast?.toList.map nextColumn))
    stg1LastHidden := update m.stg1LastHidden turn (some env.lastRow) }

/-- The history that `sample_tokens` installs for the empty output: the cached one, if not empty. -/
def installedHistory (turn : ι) : List ℕ :=
  (m.latestHistoryCache.bind fun cache => cache turn).getD []

/-- `talker_postprocess`: the history of the payload goes into the cache, which `sample_tokens` has
reset to `None`. -/
def talkerPostprocess (turn : ι) (info : AudioPayload) : ModelState ι η :=
  { m with
    latestHistoryCache :=
      info.audioHistory.map fun h => update (fun _ => none) turn (some h) }

/-- A whole step of the runner for the one scheduled request. -/
def runnerStep [Zero η] (m : ModelState ι η) (turn : ι) (data : NewRequestData)
    (env : StepEnv η) : Option (ModelState ι η × StepView η) :=
  let inputIds := inputIdsOf data env
  (talkerPreprocess m turn data inputIds).map fun m =>
    let view : StepView η :=
      { inputIds := inputIds
        positions := forwardPositions m turn data env
        lastTalkerHidden := (m.stg1LastHidden turn).getD 0
        audioHistory := data.info.audioHistory
        outputTokenIds := installedHistory m turn
        lastRow := env.lastRow }
    (talkerPostprocess (saveForward m turn data env) turn data.info, view)

/-! ## The engine -/

/-- The engine of the talker stage, with the steps it has taken. -/
structure EngineState (ι η : Type*) where
  sched : SchedulerState ι
  model : ModelState ι η := {}
  steps : List (StepRecord ι × StepView η) := []

def EngineState.init (cfg : EngineConfig) : EngineState ι η where
  sched := SchedulerState.init cfg

inductive EngineAct (ι η : Type*)
  | add (turn : ι) (idx numPromptTokens : ℕ)
  | abort (turn : ι) (idx : ℕ)
  | step (env : StepEnv η)

/-- The scheduler's part in an event. -/
def EngineAct.sched : EngineAct ι η → SchedAct ι
  | .add turn idx n => .add turn idx n
  | .abort turn idx => .abort turn idx
  | .step env => .step env.token

/-- The steps of a turn, in order. -/
def EngineState.stepsOf (es : EngineState ι η) (t : ι) : List (StepRecord ι × StepView η) :=
  es.steps.filter fun e => e.1.request.turn = t

/-- The engine after a step with the given output of the runner. -/
def EngineState.afterStep (cfg : EngineConfig) (es : EngineState ι η) (o : Scheduled ι)
    (env : StepEnv η) (m : ModelState ι η) (v : StepView η) : EngineState ι η where
  sched := updateFromOutput cfg es.sched o (o.sampled env.token)
  model := m
  steps := es.steps ++ [(recordOf cfg es.sched o (o.sampled env.token), v)]

/-- Arrivals and aborts concern the scheduler only; a step is `schedule`, the model and
`update_from_output`. -/
def engineStep [Zero η] (cfg : EngineConfig) (es : EngineState ι η) :
    EngineAct ι η → Option (EngineState ι η)
  | .step env =>
    (schedule cfg es.sched).bind fun o =>
      (runnerStep es.model o.request.turn o.data env).map fun out =>
        es.afterStep cfg o env out.1 out.2
  | a => (schedStep cfg es.sched a.sched).map fun sched => { es with sched := sched }

/-! ## What an event can do -/

variable [Zero η] {cfg : EngineConfig} {es es' : EngineState ι η} {a : EngineAct ι η}
  {m m' : ModelState ι η} {v : StepView η} {t turn : ι} {data : NewRequestData} {env : StepEnv η}

/-- An event of the engine is one of the scheduler alone, or a step of the runner as well. -/
lemma engineStep_cases (h : engineStep cfg es a = some es') :
    (∃ sched, (∀ token, a.sched ≠ .step token) ∧ schedStep cfg es.sched a.sched = some sched ∧
      es' = { es with sched := sched }) ∨
    ∃ env o m v, a = .step env ∧ schedule cfg es.sched = some o ∧
      runnerStep es.model o.request.turn o.data env = some (m, v) ∧
      es' = es.afterStep cfg o env m v := by
  cases a with
  | add turn idx n =>
    rw [engineStep, Option.map_eq_some_iff] at h
    · obtain ⟨sched, hsched, rfl⟩ := h
      exact .inl ⟨sched, fun token hc => (by cases hc), hsched, rfl⟩
    · intro env hc
      cases hc
  | abort turn idx =>
    rw [engineStep, Option.map_eq_some_iff] at h
    · obtain ⟨sched, hsched, rfl⟩ := h
      exact .inl ⟨sched, fun token hc => (by cases hc), hsched, rfl⟩
    · intro env hc
      cases hc
  | step env =>
    obtain ⟨o, ho, h⟩ := Option.bind_eq_some_iff.mp h
    obtain ⟨⟨m, v⟩, hrunner, rfl⟩ := Option.map_eq_some_iff.mp h
    exact .inr ⟨env, o, m, v, rfl, ho, hrunner, rfl⟩

/-- The scheduler inside the engine takes the scheduler's part of the event. -/
lemma schedStep_of_engineStep (h : engineStep cfg es a = some es') :
    schedStep cfg es.sched a.sched = some es'.sched := by
  obtain ⟨sched, -, hsched, rfl⟩ | ⟨env, o, m, v, rfl, ho, -, rfl⟩ := engineStep_cases h
  · exact hsched
  · simp [EngineAct.sched, schedStep, ho, EngineState.afterStep]

lemma map_fst_steps_step (h : es.steps.map Prod.fst = es.sched.log)
    (hstep : engineStep cfg es a = some es') : es'.steps.map Prod.fst = es'.sched.log := by
  obtain ⟨sched, hnot, hsched, rfl⟩ | ⟨env, o, m, v, rfl, ho, -, rfl⟩ := engineStep_cases hstep
  · obtain ⟨_, _, _, _, -, -, rfl⟩ | ⟨_, _, -, rfl⟩ | ⟨token, _, heq, -, -⟩ :=
      schedStep_cases hsched
    · exact h
    · exact h
    · exact absurd heq (hnot token)
  · simp [EngineState.afterStep, h]

omit [Zero η] in
/-- A step of the turn is logged. -/
lemma stepsOf_afterStep_self (cfg : EngineConfig) (es : EngineState ι η) (o : Scheduled ι)
    (env : StepEnv η) (m : ModelState ι η) (v : StepView η) :
    (es.afterStep cfg o env m v).stepsOf o.request.turn =
      es.stepsOf o.request.turn ++ [(recordOf cfg es.sched o (o.sampled env.token), v)] := by
  simp [EngineState.stepsOf, EngineState.afterStep, recordOf]

omit [Zero η] in
/-- A step of another turn is not. -/
lemma stepsOf_afterStep_of_ne (cfg : EngineConfig) (es : EngineState ι η) {o : Scheduled ι}
    (env : StepEnv η) (m : ModelState ι η) (v : StepView η) (hne : o.request.turn ≠ t) :
    (es.afterStep cfg o env m v).stepsOf t = es.stepsOf t := by
  simp [EngineState.stepsOf, EngineState.afterStep, recordOf, hne]

/-- A step of the runner leaves the maps of the other turns. -/
lemma runnerStep_frame (h : runnerStep m turn data env = some (m', v)) (hne : t ≠ turn) :
    m'.stg1CurrentPos t = m.stg1CurrentPos t ∧ m'.stg1LastHidden t = m.stg1LastHidden t ∧
      m'.imStartIndexes t = m.imStartIndexes t := by
  obtain ⟨m₁, hpre, heq⟩ := Option.map_eq_some_iff.mp h
  cases heq
  unfold talkerPreprocess at hpre
  split_ifs at hpre <;> obtain rfl := Option.some.inj hpre <;>
    simp [talkerPostprocess, saveForward, update_of_ne hne]

/-- What a step of the runner shows and saves. -/
structure RunnerSpec (m : ModelState ι η) (turn : ι) (data : NewRequestData) (env : StepEnv η)
    (m' : ModelState ι η) (v : StepView η) : Prop where
  inputIds : v.inputIds = inputIdsOf data env
  positions : v.positions = forwardPositions m turn data env
  lastTalkerHidden : v.lastTalkerHidden = (m.stg1LastHidden turn).getD 0
  audioHistory : v.audioHistory = data.info.audioHistory
  outputTokenIds : data.numScheduledTokens = 1 → v.outputTokenIds =
    (cacheWithInput m.latestHistoryCache turn data.info (inputIdsOf data env) turn).getD []
  lastRow : v.lastRow = env.lastRow
  currentPos : m'.stg1CurrentPos turn =
    some ((m.stg1CurrentPos turn).getD (preparedPositions data env) ++
      ((m.stg1CurrentPos turn).getD (preparedPositions data env)).getLast?.toList.map nextColumn)
  lastHidden : m'.stg1LastHidden turn = some env.lastRow
  noted : m'.imStartIndexes turn = true
  cache : m'.latestHistoryCache =
    data.info.audioHistory.map fun h => update (fun _ => none) turn (some h)

/-- What a step of the runner does. -/
lemma runnerStep_spec (h : runnerStep m turn data env = some (m', v)) :
    RunnerSpec m turn data env m' v := by
  obtain ⟨m₁, hpre, heq⟩ := Option.map_eq_some_iff.mp h
  cases heq
  unfold talkerPreprocess at hpre
  split_ifs at hpre with hspan hnoted
  · cases hpre
    exact
      { inputIds := rfl
        positions := rfl
        lastTalkerHidden := by simp
        audioHistory := rfl
        outputTokenIds := fun hone => absurd hspan (by omega)
        lastRow := rfl
        currentPos := by simp [talkerPostprocess, saveForward]
        lastHidden := by simp [talkerPostprocess, saveForward]
        noted := by simp [talkerPostprocess, saveForward]
        cache := rfl }
  · cases hpre
    exact
      { inputIds := rfl
        positions := rfl
        lastTalkerHidden := rfl
        audioHistory := rfl
        outputTokenIds := fun _ => rfl
        lastRow := rfl
        currentPos := by simp [talkerPostprocess, saveForward]
        lastHidden := by simp [talkerPostprocess, saveForward]
        noted := hnoted
        cache := rfl }

/-- The runner takes a prefill of several tokens, and a single token of a turn whose prefill it has
seen. -/
lemma exists_runnerStep (m : ModelState ι η) (turn : ι) (data : NewRequestData) (env : StepEnv η)
    (h : 1 < data.numScheduledTokens ∨ m.imStartIndexes turn = true) :
    ∃ m' v, runnerStep m turn data env = some (m', v) := by
  unfold runnerStep talkerPreprocess
  by_cases hspan : 1 < data.numScheduledTokens
  · simp [hspan]
  · have hnoted := h.resolve_left hspan
    simp [hspan, hnoted]

/-! ## One turn in the engine -/

variable {o : Scheduled ι}

/-- An event that leaves everything that the engine holds of a turn. -/
structure LeavesTurn (t : ι) (es es' : EngineState ι η) : Prop where
  steps : es'.stepsOf t = es.stepsOf t
  log : es'.sched.stepsOf t = es.sched.stepsOf t
  lockers : es'.sched.lockers t = es.sched.lockers t
  positions : es'.model.stg1CurrentPos t = es.model.stg1CurrentPos t
  hidden : es'.model.stg1LastHidden t = es.model.stg1LastHidden t
  noted : es'.model.imStartIndexes t = es.model.imStartIndexes t

omit [Zero η] in
lemma leavesTurn_of_sched {sched : SchedulerState ι} {a : SchedAct ι} (hspare : a.SparesTurn t)
    (hnot : ∀ token, a ≠ .step token) (hstep : schedStep cfg es.sched a = some sched) :
    LeavesTurn t es { es with sched := sched } := by
  obtain ⟨_, _, _, _, rfl, -, rfl⟩ | ⟨_, idx, rfl, rfl⟩ | ⟨token, _, rfl, -, -⟩ :=
    schedStep_cases hstep
  · exact ⟨rfl, rfl, rfl, rfl, rfl, rfl⟩
  · exact ⟨rfl, rfl, lockers_abortRequest_of_ne es.sched idx (Ne.symm hspare), rfl, rfl, rfl⟩
  · exact absurd rfl (hnot token)

lemma leavesTurn_of_step (hne : o.request.turn ≠ t)
    (hrunner : runnerStep es.model o.request.turn o.data env = some (m, v)) :
    LeavesTurn t es (es.afterStep cfg o env m v) := by
  obtain ⟨hpos, hhidden, hnoted⟩ := runnerStep_frame hrunner hne.symm
  exact
    { steps := stepsOf_afterStep_of_ne cfg es env m v hne
      log := stepsOf_updateFromOutput_of_ne cfg es.sched _ hne
      lockers := lockers_updateFromOutput_of_ne cfg es.sched _ hne
      positions := hpos
      hidden := hhidden
      noted := hnoted }

/-- An event that aborts no request of the turn leaves the turn or is a step of it. -/
lemma leavesTurn_or_step (hspare : a.sched.SparesTurn t) (hstep : engineStep cfg es a = some es') :
    LeavesTurn t es es' ∨ ∃ env o m v, a = .step env ∧ schedule cfg es.sched = some o ∧
      o.request.turn = t ∧ runnerStep es.model o.request.turn o.data env = some (m, v) ∧
      es' = es.afterStep cfg o env m v := by
  obtain ⟨sched, hnot, hsched, rfl⟩ | ⟨env, o, m, v, rfl, ho, hrunner, rfl⟩ :=
    engineStep_cases hstep
  · exact .inl (leavesTurn_of_sched hspare hnot hsched)
  · by_cases heq : o.request.turn = t
    · exact .inr ⟨env, o, m, v, rfl, ho, heq, hrunner, rfl⟩
    · exact .inl (leavesTurn_of_step heq hrunner)

/-- A turn in order, in the engine: the scheduler's view, logs that agree, and the prompt noted
after the first step. -/
structure EngineInv (cfg : EngineConfig) (t : ι) (es : EngineState ι η) : Prop where
  turn : TurnInv cfg t es.sched
  log : es.steps.map Prod.fst = es.sched.log
  noted : es.stepsOf t ≠ [] → es.model.imStartIndexes t = true

omit [Zero η] in
/-- The steps of the turn in the engine are those in the scheduler. -/
lemma EngineInv.map_stepsOf (h : EngineInv cfg t es) :
    (es.stepsOf t).map Prod.fst = es.sched.stepsOf t := by
  rw [SchedulerState.stepsOf, ← h.log, List.filter_map]
  rfl

omit [Zero η] in
lemma engineInv_init (cfg : EngineConfig) (t : ι) :
    EngineInv cfg t (EngineState.init cfg : EngineState ι η) where
  turn := turnInv_init cfg t
  log := rfl
  noted := fun hne => absurd rfl hne

/-- The requests of the turn run in order at an event of the engine. -/
abbrev RunsInOrder (cfg : EngineConfig) (t : ι) (es : EngineState ι η) (a : EngineAct ι η) : Prop :=
  StepsOfTurn cfg t InOrder es.sched a.sched

/-- Every event at which the requests of the turn run in order keeps its state in the engine. -/
lemma engineInv_step (h : EngineInv cfg t es) (horder : RunsInOrder cfg t es a)
    (hstep : engineStep cfg es a = some es') : EngineInv cfg t es' := by
  refine ⟨turnInv_step h.turn horder (schedStep_of_engineStep hstep),
    map_fst_steps_step h.log hstep, ?_⟩
  obtain hleaves | ⟨env, o, m, v, rfl, ho, rfl, hrunner, rfl⟩ :=
    leavesTurn_or_step horder.sparesTurn hstep
  · rw [hleaves.steps, hleaves.noted]
    exact h.noted
  · exact fun _ => (runnerStep_spec hrunner).noted

/-- A scheduled relay request of the turn finds what it needs in the model. -/
lemma exists_engineStep (h : EngineInv cfg o.request.turn es) (ho : schedule cfg es.sched = some o)
    (hnext : InOrder es.sched o) (hidx : 0 < o.request.idx) (env : StepEnv η) :
    ∃ m v, runnerStep es.model o.request.turn o.data env = some (m, v) ∧
      engineStep cfg es (.step env) = some (es.afterStep cfg o env m v) := by
  have hne : es.stepsOf o.request.turn ≠ [] := by
    have hsteps := hnext.stepsOf_ne_nil hidx
    rwa [← h.map_stepsOf, Ne, List.map_eq_nil_iff] at hsteps
  obtain ⟨m, v, hrunner⟩ :=
    exists_runnerStep es.model o.request.turn o.data env (.inr (h.noted hne))
  refine ⟨m, v, hrunner, ?_⟩
  simp only [engineStep, ho, hrunner, Option.bind_some, Option.map_some]

/-- A step in which the prompt stands at the positions 0, 1, … and `x` is sampled. -/
def plainEnv (x : ℕ) : StepEnv ℕ where
  inputIds := fun _ => 0
  positions := fun i _ => i
  lastRow := x
  token := x

end OmniStreaming
