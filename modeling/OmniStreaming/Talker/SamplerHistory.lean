import OmniStreaming.Talker.Runner

/-!
# The history that the sampler sees

The repetition penalty of the talker is computed from the list that `sample_tokens` installs in
`sampling_metadata.output_token_ids`. `talker_preprocess` makes this list in
`latest_history_cache` by appending the input token to a base: the list that the last step left in
the cache, or the history of the payload if there is none. The first ends before the input token,
the second ends with it.

The cache holds only what the step right before has left there, so the base depends on which turn
that step belonged to. The file follows the cache through a run and says exactly when the list is
the true history, for turns with any sampled tokens.
-/

namespace OmniStreaming

open List Transition

variable {ι η : Type*} [DecidableEq ι]

/-! ## What the list depends on -/

/-- The step right before was one of the turn, with a history in its payload. -/
def ContinuesTurn (es : EngineState ι η) (t : ι) : Prop :=
  ∃ e ∈ es.steps.getLast?, e.1.request.turn = t ∧ e.1.data.info.audioHistory.isSome = true

instance (es : EngineState ι η) (t : ι) : Decidable (ContinuesTurn es t) :=
  inferInstanceAs (Decidable (∃ e ∈ _, _))

/-- The input of a relay step: the locked token if the payload arrives, and else what stands in the
buffer. -/
def relayInput (s : SchedulerState ι) (o : Scheduled ι) (env : StepEnv η) : Option ℕ :=
  if PayloadArrives s o then (s.lockers o.request.turn).token else some (env.inputIds 0)

/-- A step that continues its turn needs a turn none of whose steps before the last was ended by
`check_stop`, and the last token as its input. Any other step repeats the end of the locked history,
or has only the buffer. -/
def HistoryIntact (es : EngineState ι η) (o : Scheduled ι) (env : StepEnv η) : Prop :=
  let l := es.sched.lockers o.request.turn
  let steps := es.sched.stepsOf o.request.turn
  if ContinuesTurn es o.request.turn then
    (∀ e ∈ steps.dropLast, e.advanced = true) ∧
      relayInput es.sched o env = (tokensIn steps).getLast?
  else if PayloadArrives es.sched o then l.outputHistory ++ l.token.toList = tokensIn steps
  else [env.inputIds 0] = tokensIn steps

instance (es : EngineState ι η) (o : Scheduled ι) (env : StepEnv η) :
    Decidable (HistoryIntact es o env) := by
  unfold HistoryIntact
  infer_instance

/-- What the cache holds after a step: the history in its payload, for its turn. -/
def cacheAfter : Option (StepRecord ι × StepView η) → Option (ι → Option (List ℕ))
  | none => some fun _ => none
  | some e => e.1.data.info.audioHistory.map fun h =>
      Function.update (fun _ => none) e.1.request.turn (some h)

variable {cfg : EngineConfig} {es es' : EngineState ι η} {o : Scheduled ι} {env : StepEnv η}
  {m : ModelState ι η} {v : StepView η} {t : ι} {s : SchedulerState ι}

/-! ## The locked history -/

/-- A payload that arrives has a token. -/
lemma token_ne_none_of_payloadArrives (h : TurnInv cfg o.request.turn s)
    (harrives : PayloadArrives s o) : (s.lockers o.request.turn).token ≠ none := by
  rcases harrives with ⟨hsome, -⟩ | ⟨-, hpassed⟩
  · exact hsome
  · -- the last step of the turn passed, so its token is in the lockers
    obtain ⟨e, he, hadv⟩ := (Option.any_eq_true _ _).mp hpassed
    have hmem : e ∈ s.stepsOf o.request.turn := mem_of_mem_getLast? he
    obtain ⟨x, hx⟩ := Option.isSome_iff_exists.mp (h.sampled e hmem)
    have hin : x ∈ tokensIn (s.passedOf o.request.turn) :=
      mem_filterMap.mpr ⟨e, mem_filter.mpr ⟨hmem, hadv⟩, hx⟩
    rw [h.locker.token, Ne, getLast?_eq_none_iff]
    exact ne_nil_of_mem hin

lemma outputHistory_ne_nil_of_payloadArrives (h : TurnInv cfg o.request.turn s)
    (harrives : PayloadArrives s o) : (s.lockers o.request.turn).outputHistory ≠ [] := by
  have htoken := token_ne_none_of_payloadArrives h harrives
  rw [h.locker.token, Ne, getLast?_eq_none_iff] at htoken
  rwa [h.locker.history]

omit [DecidableEq ι] in
/-- No token is missing iff every step has passed `check_stop`. -/
lemma tokensIn_filter_eq_iff {steps : List (StepRecord ι)}
    (h : ∀ e ∈ steps, e.newTokenId.isSome = true) :
    tokensIn (steps.filter fun e => e.advanced) = tokensIn steps ↔
      ∀ e ∈ steps, e.advanced = true := by
  constructor
  · intro heq
    have hlen := congrArg length heq
    rw [length_tokensIn (fun e he => h e (mem_of_mem_filter he)), length_tokensIn h] at hlen
    exact length_filter_eq_length_iff.mp hlen
  · intro hall
    rw [filter_eq_self.mpr hall]

/-! ## The cache along a run -/

/-- The cache holds what the last step left, and a history in the payload of the turn's last step
has the tokens of the steps before it that passed `check_stop`. -/
structure HistoryInv (cfg : EngineConfig) (t : ι) (es : EngineState ι η) : Prop
    extends EngineInv cfg t es where
  cache : es.model.latestHistoryCache = cacheAfter es.steps.getLast?
  last : ∀ e ∈ (es.stepsOf t).getLast?, ∀ h ∈ e.1.data.info.audioHistory,
    h = tokensIn ((es.sched.stepsOf t).dropLast.filter fun e => e.advanced) ∧ h ≠ []

lemma historyInv_init (cfg : EngineConfig) (t : ι) :
    HistoryInv cfg t (EngineState.init cfg : EngineState ι η) where
  toEngineInv := engineInv_init cfg t
  cache := rfl
  last := fun _ he => absurd he (Option.not_mem_none _)

/-- A step leaves the history of its payload in the cache, an arrival or an abort leaves the cache
alone. -/
lemma cache_step [Zero η] {a : EngineAct ι η}
    (h : es.model.latestHistoryCache = cacheAfter es.steps.getLast?)
    (hstep : engineStep cfg es a = some es') :
    es'.model.latestHistoryCache = cacheAfter es'.steps.getLast? := by
  obtain ⟨sched, -, -, rfl⟩ | ⟨env, o, m, v, rfl, -, hrunner, rfl⟩ := engineStep_cases hstep
  · exact h
  · rw [EngineState.afterStep, getLast?_concat]
    exact (runnerStep_spec hrunner).cache

/-- The history in the payload of a step of the turn. -/
lemma last_afterStep (h : TurnInv cfg o.request.turn es.sched)
    (ho : schedule cfg es.sched = some o) (hnext : InOrder es.sched o) :
    ∀ e ∈ ((es.afterStep cfg o env m v).stepsOf o.request.turn).getLast?,
      ∀ h ∈ e.1.data.info.audioHistory,
        h = tokensIn (((es.afterStep cfg o env m v).sched.stepsOf
          o.request.turn).dropLast.filter fun e => e.advanced) ∧ h ≠ [] := by
  intro e he hist hhist
  rw [stepsOf_afterStep_self, getLast?_concat] at he
  cases he
  change hist ∈ o.data.info.audioHistory at hhist
  rw [info_of_schedule h ho hnext] at hhist
  rw [EngineState.afterStep, stepsOf_updateFromOutput_self, dropLast_concat]
  by_cases harrives : PayloadArrives es.sched o
  · rw [if_pos harrives] at hhist
    cases hhist
    exact ⟨h.locker.history, outputHistory_ne_nil_of_payloadArrives h harrives⟩
  · rw [if_neg harrives] at hhist
    cases hhist

/-- Every event at which the requests of the turn run in order keeps the state of its history. -/
lemma historyInv_step [Zero η] {a : EngineAct ι η} (h : HistoryInv cfg t es)
    (horder : RunsInOrder cfg t es a) (hstep : engineStep cfg es a = some es') :
    HistoryInv cfg t es' := by
  refine ⟨engineInv_step h.toEngineInv horder hstep, cache_step h.cache hstep, ?_⟩
  obtain hleaves | ⟨env, o, m, v, rfl, ho, rfl, -, rfl⟩ :=
    leavesTurn_or_step horder.sparesTurn hstep
  · rw [hleaves.steps, hleaves.log]
    exact h.last
  · exact last_afterStep h.turn ho (horder o ho rfl)

/-! ## The list for the sampler -/

/-- The cached history: what the step before has left if it continues the turn, else nothing. -/
lemma session_of_historyInv (h : HistoryInv cfg t es) :
    ((es.model.latestHistoryCache.getD fun _ => none) t).getD [] =
      (if ContinuesTurn es t then
        tokensIn ((es.sched.stepsOf t).dropLast.filter fun e => e.advanced) else []) ∧
    (ContinuesTurn es t →
      tokensIn ((es.sched.stepsOf t).dropLast.filter fun e => e.advanced) ≠ []) := by
  rw [h.cache]
  cases hlast : es.steps.getLast? with
  | none =>
    have hnot : ¬ ContinuesTurn es t := by
      rintro ⟨e, he, -⟩
      rw [hlast] at he
      cases he
    rw [if_neg hnot]
    exact ⟨rfl, fun hc => absurd hc hnot⟩
  | some e =>
    have hcont : ContinuesTurn es t ↔
        e.1.request.turn = t ∧ e.1.data.info.audioHistory.isSome = true := by
      simp [ContinuesTurn, hlast]
    cases hinfo : e.1.data.info.audioHistory with
    | none =>
      have hnot : ¬ ContinuesTurn es t := by simp [hcont, hinfo]
      rw [if_neg hnot]
      exact ⟨by simp [cacheAfter, hinfo], fun hc => absurd hc hnot⟩
    | some hist =>
      by_cases hturn : e.1.request.turn = t
      · -- the last step of the engine is the last step of the turn
        have hown : (es.stepsOf t).getLast? = some e := by
          obtain ⟨init, hinit⟩ := getLast?_eq_some_iff.mp hlast
          simp [EngineState.stepsOf, hinit, hturn]
        obtain ⟨heq, hne⟩ := h.last e hown hist hinfo
        rw [if_pos (hcont.mpr ⟨hturn, by rw [hinfo, Option.isSome_some]⟩), ← heq]
        exact ⟨by simp [cacheAfter, hinfo, hturn], fun _ => hne⟩
      · have hnot : ¬ ContinuesTurn es t := fun hc => hturn (hcont.mp hc).1
        rw [if_neg hnot]
        refine ⟨?_, fun hc => absurd hc hnot⟩
        simp [cacheAfter, hinfo, Function.update_of_ne (Ne.symm hturn)]

/-- The input of a step of one token. -/
lemma inputIdsOf_of_turnInv (h : TurnInv cfg o.request.turn s) (ho : schedule cfg s = some o)
    (hnext : InOrder s o) (hidx : 0 < o.request.idx) (env : StepEnv η) :
    ∃ x, relayInput s o env = some x ∧ inputIdsOf o.data env = [x] := by
  have hsched : o.data.numScheduledTokens = 1 := hnext.whole.trans (hnext.one_token hidx)
  rw [inputIdsOf, info_of_schedule h ho hnext, hsched, relayInput]
  by_cases harrives : PayloadArrives s o
  · obtain ⟨x, hx⟩ := Option.ne_none_iff_exists'.mp (token_ne_none_of_payloadArrives h harrives)
    rw [if_pos harrives, if_pos harrives, hx]
    exact ⟨x, rfl, rfl⟩
  · rw [if_neg harrives, if_neg harrives]
    exact ⟨env.inputIds 0, rfl, rfl⟩

/-- The list that a relay step installs, by the source of its base. -/
lemma outputTokenIds_of_historyInv [Zero η] (h : HistoryInv cfg o.request.turn es)
    (ho : schedule cfg es.sched = some o) (hnext : InOrder es.sched o) (hidx : 0 < o.request.idx)
    (hrunner : runnerStep es.model o.request.turn o.data env = some (m, v)) :
    v.outputTokenIds =
      (if ContinuesTurn es o.request.turn then
        tokensIn ((es.sched.stepsOf o.request.turn).dropLast.filter fun e => e.advanced)
      else if PayloadArrives es.sched o then (es.sched.lockers o.request.turn).outputHistory
      else []) ++ inputIdsOf o.data env := by
  obtain ⟨hsession, hne⟩ := session_of_historyInv h
  have hsched : o.data.numScheduledTokens = 1 := hnext.whole.trans (hnext.one_token hidx)
  have hinfo := info_of_schedule h.turn ho hnext
  rw [(runnerStep_spec hrunner).outputTokenIds hsched, cacheWithInput, Function.update_self,
    Option.getD_some, hsession]
  by_cases hcont : ContinuesTurn es o.request.turn
  · rw [if_pos hcont, if_neg (hne hcont), if_pos hcont]
  · rw [if_neg hcont, if_pos rfl, if_neg hcont, hinfo]
    by_cases harrives : PayloadArrives es.sched o
    · rw [if_pos harrives, if_pos harrives]
      rfl
    · rw [if_neg harrives, if_neg harrives]
      rfl

/-- The list is the true history exactly under the condition. -/
lemma outputTokenIds_eq_iff [Zero η] (h : HistoryInv cfg o.request.turn es)
    (ho : schedule cfg es.sched = some o) (hnext : InOrder es.sched o) (hidx : 0 < o.request.idx)
    (hrunner : runnerStep es.model o.request.turn o.data env = some (m, v)) :
    v.outputTokenIds = tokensIn (es.sched.stepsOf o.request.turn) ↔ HistoryIntact es o env := by
  obtain ⟨x, hinput, hids⟩ := inputIdsOf_of_turnInv h.turn ho hnext hidx env
  rw [outputTokenIds_of_historyInv h ho hnext hidx hrunner, hids]
  simp only [HistoryIntact]
  by_cases hcont : ContinuesTurn es o.request.turn
  · rw [if_pos hcont, if_pos hcont, hinput]
    -- split off the last step of the turn, whose token the input is compared with
    have hsampled := h.turn.sampled
    obtain ⟨init, e, hsteps⟩ :=
      (eq_nil_or_concat' _).resolve_left (hnext.stepsOf_ne_nil hidx)
    rw [hsteps] at hsampled ⊢
    obtain ⟨y, hy⟩ := Option.isSome_iff_exists.mp (hsampled e (by simp))
    have hinit := tokensIn_filter_eq_iff fun e he => hsampled e (mem_append_left _ he)
    rw [dropLast_concat, tokensIn_append_singleton, hy, Option.toList_some,
      getLast?_concat, Option.some.injEq, ← hinit]
    constructor
    · intro heq
      obtain ⟨hbase, hlast⟩ := append_inj' heq rfl
      exact ⟨hbase, singleton_inj.mp hlast⟩
    · rintro ⟨hbase, rfl⟩
      rw [hbase]
  · rw [if_neg hcont, if_neg hcont]
    rw [relayInput] at hinput
    by_cases harrives : PayloadArrives es.sched o
    · rw [if_pos harrives] at hinput
      rw [if_pos harrives, if_pos harrives, hinput, Option.toList_some]
    · rw [if_neg harrives] at hinput
      rw [if_neg harrives, if_neg harrives, nil_append, Option.some.inj hinput]

/-- In every run, the list of a relay step is the true history of its turn exactly under the
condition. -/
theorem sampler_history_iff [Zero η] {acts : List (EngineAct ι η)} {k : ℕ} (hk : 1 ≤ k)
    (hrun : run (engineStep cfg) (EngineState.init cfg) acts = some es)
    (horder : AllSteps (engineStep cfg) (RunsInOrder cfg o.request.turn) (EngineState.init cfg)
      acts)
    (ho : schedule cfg es.sched = some o) (hnext : InOrder es.sched o)
    (hidx : o.request.idx = k) (env : StepEnv η) :
    ∃ es' e v, engineStep cfg es (.step env) = some es' ∧ es'.steps = es.steps ++ [(e, v)] ∧
      e.toScheduled = o ∧
      (v.outputTokenIds = tokensIn (es.sched.stepsOf o.request.turn) ↔
        HistoryIntact es o env) := by
  subst hidx
  have h : HistoryInv cfg o.request.turn es :=
    run_invariant_of_allSteps (fun _ _ _ hinv hok hs => historyInv_step hinv hok hs)
      (historyInv_init cfg _) horder hrun
  obtain ⟨m, v, hrunner, hstep⟩ := exists_engineStep h.toEngineInv ho hnext hk env
  exact ⟨es.afterStep cfg o env m v, _, v, hstep, rfl, rfl,
    outputTokenIds_eq_iff h ho hnext hk hrunner⟩

/-- A prefill that samples 5 and steps with the given tokens, all queued from the start. -/
def queuedTurn (tokens : List ℕ) : List (EngineAct ℕ ℕ) :=
  [.add 0 0 9, .add 0 1 1, .add 0 2 1, .step (plainEnv 5)] ++ tokens.map fun x => .step (plainEnv x)

/-- The second relay step of an undisturbed turn sees the true history. -/
theorem sampler_history_second_step :
    ∃ es o, run (engineStep (smallEngine 8)) (EngineState.init (smallEngine 8)) (queuedTurn [6]) =
        some es ∧
      schedule (smallEngine 8) es.sched = some o ∧ o.request.idx = 2 ∧
      ∃ es' e v, engineStep (smallEngine 8) es (.step (plainEnv 7)) = some es' ∧
        es'.steps = es.steps ++ [(e, v)] ∧
        v.outputTokenIds = tokensIn (es.sched.stepsOf o.request.turn) := by
  obtain ⟨es, o, hes, ho, hturn, hnext, hidx, hintact⟩ : ∃ es o,
      run (engineStep (smallEngine 8)) (EngineState.init (smallEngine 8)) (queuedTurn [6]) =
        some es ∧
      schedule (smallEngine 8) es.sched = some o ∧ o.request.turn = 0 ∧
      InOrder es.sched o ∧ o.request.idx = 2 ∧ HistoryIntact es o (plainEnv 7) :=
    exists_of_run (by decide)
  obtain ⟨es', e, v, hstep, hsteps, -, hiff⟩ :=
    sampler_history_iff (by decide) hes (by rw [hturn]; decide) ho hnext hidx (plainEnv 7)
  exact ⟨es, o, hes, ho, hidx, es', e, v, hstep, hsteps, hiff.mpr hintact⟩

/-- The first relay step sees the token of the prefill twice. -/
theorem sampler_history_fails_first_step :
    ∃ es es', run (engineStep (smallEngine 8)) (EngineState.init (smallEngine 8)) (queuedTurn []) =
        some es ∧
      engineStep (smallEngine 8) es (.step (plainEnv 6)) = some es' ∧
      (∃ o ∈ schedule (smallEngine 8) es.sched, o.request.idx = 1 ∧ InOrder es.sched o ∧
        QueuedInTime es.sched o.request) ∧
      tokensIn (es.sched.stepsOf 0) = [5] ∧
      ∃ e ∈ es'.steps.getLast?, e.1.request.turn = 0 ∧ e.2.outputTokenIds = [5, 5] :=
  exists_of_run (by decide)

end OmniStreaming
