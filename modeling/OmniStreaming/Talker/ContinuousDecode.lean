import Mathlib.Data.List.Induction
import OmniStreaming.Talker.Runner

/-!
# The relay refines one continuous decode

`Decode` is what the relay stands in for: a single request that is prefilled once and then decodes
one token at a time, with its KV blocks, its computed tokens, its next position, the tokens sampled
so far and the last hidden row in one place.

The file proves that the engine, which runs a new request for every token and keeps the pieces in
the lockers of the scheduler and the maps of the model, simulates it: the relation `Simulates`
between the engine and a `Decode` is kept by every step of the turn, whatever other turns do in
between, and a step shows the network what the `Decode` would.
-/

namespace OmniStreaming

open List Option Transition

variable {ι η : Type*}

/-! ## One uninterrupted request -/

/-- A request between two steps of its decode. -/
structure Decode (η : Type*) where
  blockIds : List ℕ
  numComputedTokens : ℕ
  position : Column
  history : List ℕ
  lastHidden : η

/-- What a decode step shows to the network. -/
structure DecodeInput (η : Type*) where
  blockIds : List ℕ
  numComputedTokens : ℕ
  inputIds : List ℕ
  audioHistory : Option (List ℕ)
  positions : List Column
  lastTalkerHidden : η

/-- The next step of the request feeds the last token back at the next position. -/
def Decode.input (d : Decode η) : DecodeInput η where
  blockIds := d.blockIds
  numComputedTokens := d.numComputedTokens
  inputIds := d.history.getLast?.toList
  audioHistory := some d.history
  positions := [d.position]
  lastTalkerHidden := d.lastHidden

/-- A decode step that sampled `token` and ended with the hidden row `row`. -/
def Decode.next (d : Decode η) (token : Option ℕ) (row : η) : Decode η :=
  { d with
    numComputedTokens := d.numComputedTokens + 1
    position := nextColumn d.position
    history := d.history ++ token.toList
    lastHidden := row }

/-- The request after its prefill, which used the given positions. -/
def Decode.ofPrefill (e : StepRecord ι × StepView η) : Option (Decode η) :=
  e.2.positions.getLast?.map fun last =>
    { blockIds := e.1.data.blockIds
      numComputedTokens := e.1.data.numScheduledTokens
      position := nextColumn last
      history := e.1.newTokenId.toList
      lastHidden := e.2.lastRow }

/-- The uninterrupted request with the prefill of the first step and the outputs of all steps. -/
def uninterrupted : List (StepRecord ι × StepView η) → Option (Decode η)
  | [] => none
  | first :: rest =>
    (Decode.ofPrefill first).map fun d =>
      rest.foldl (fun d e => d.next e.1.newTokenId e.2.lastRow) d

/-- What a step of the engine shows to the network. -/
def shownInput (o : Scheduled ι) (v : StepView η) : DecodeInput η where
  blockIds := o.data.blockIds
  numComputedTokens := o.data.numComputedTokens
  inputIds := v.inputIds
  audioHistory := v.audioHistory
  positions := v.positions
  lastTalkerHidden := v.lastTalkerHidden

/-- The column `n` places behind a given one. -/
def Column.shift (c : Column) (n : ℕ) : Column := fun i => c i + n

lemma nextColumn_shift (c : Column) (n : ℕ) : nextColumn (c.shift n) = c.shift (n + 1) := rfl

variable {steps : List (StepRecord ι × StepView η)}

lemma uninterrupted_append (hne : steps ≠ []) (e : StepRecord ι × StepView η) :
    uninterrupted (steps ++ [e]) =
      (uninterrupted steps).map fun d => d.next e.1.newTokenId e.2.lastRow := by
  cases steps with
  | nil => exact absurd rfl hne
  | cons first rest => simp [uninterrupted, Function.comp_def]

/-- The state of the uninterrupted request in terms of its prefill and the number of steps. -/
lemma exists_uninterrupted {first : StepRecord ι × StepView η} {last : Column}
    (hfirst : steps.head? = some first) (hlast : first.2.positions.getLast? = some last) :
    ∃ d, uninterrupted steps = some d ∧ d.blockIds = first.1.data.blockIds ∧
      d.numComputedTokens + 1 = first.1.data.numScheduledTokens + steps.length ∧
      d.position = last.shift steps.length ∧ d.history = tokensIn (steps.map Prod.fst) ∧
      steps.getLast?.map (fun e => e.2.lastRow) = some d.lastHidden := by
  induction steps using reverseRecOn with
  | nil => cases hfirst
  | append_singleton steps e ih =>
    by_cases hne : steps = []
    · subst hne
      obtain rfl : e = first := some.inj hfirst
      refine ⟨_, by simp only [uninterrupted, Decode.ofPrefill, hlast, nil_append,
        map_some, foldl_nil]; rfl, rfl, rfl, rfl, ?_, rfl⟩
      exact (tokensIn_append_singleton [] e.1).symm
    · rw [head?_append_of_ne_nil _ hne] at hfirst
      obtain ⟨d, hd, hblocks, hcount, hpos, hhist, -⟩ := ih hfirst
      refine ⟨d.next e.1.newTokenId e.2.lastRow, ?_, hblocks, ?_, ?_, ?_, ?_⟩
      · rw [uninterrupted_append hne, hd, map_some]
      · rw [length_append, length_singleton, ← Nat.add_assoc, ← hcount]
        rfl
      · rw [length_append, length_singleton, ← nextColumn_shift, ← hpos]
        rfl
      · rw [map_append, map_singleton, tokensIn_append_singleton, ← hhist]
        rfl
      · rw [getLast?_concat, map_some]
        rfl

/-! ## The simulation -/

section Simulation

variable [DecidableEq ι]

/-- The lockers of the scheduler and the maps of the model hold the state of the request. -/
structure Simulates (es : EngineState ι η) (t : ι) (d : Decode η) : Prop where
  blocks : (es.sched.lockers t).blocks = some d.blockIds
  count : (es.sched.lockers t).historyCount = d.numComputedTokens
  history : (es.sched.lockers t).outputHistory = d.history
  token : (es.sched.lockers t).token = d.history.getLast?
  passed : es.sched.lastPassed t = true
  position : ∃ saved, es.model.stg1CurrentPos t = some saved ∧ saved.getLast? = some d.position
  hidden : es.model.stg1LastHidden t = some d.lastHidden

/-- The scheduled request is the next one of a turn that decodes: it is not ended for its length. -/
@[mk_iff]
structure DecodesNext (cfg : EngineConfig) (s : SchedulerState ι) (o : Scheduled ι) : Prop
    extends NextOfTurn cfg s o where
  fits : cfg.Fits o.request.numPromptTokens

instance (cfg : EngineConfig) (s : SchedulerState ι) (o : Scheduled ι) :
    Decidable (DecodesNext cfg s o) := decidable_of_iff' _ (decodesNext_iff cfg s o)

/-- The turn is in order, its prompts are not split, no positions are saved before the prefill, and
as long as no token ends the turn the engine simulates the uninterrupted request. -/
structure DecodeInv (cfg : EngineConfig) (t : ι) (es : EngineState ι η) : Prop
    extends EngineInv cfg t es where
  whole : ∀ e ∈ es.stepsOf t, e.1.data.numScheduledTokens = e.1.request.numPromptTokens
  fresh : es.stepsOf t = [] → es.model.stg1CurrentPos t = none
  simulates : es.stepsOf t ≠ [] → (∀ x ∈ tokensIn (es.sched.stepsOf t), cfg.Codec x) →
    ∃ d, uninterrupted (es.stepsOf t) = some d ∧ Simulates es t d

variable {cfg : EngineConfig} {es es' : EngineState ι η} {o : Scheduled ι} {env : StepEnv η}
  {m : ModelState ι η} {v : StepView η} {t : ι} {d : Decode η}

omit [DecidableEq ι] in
/-- The prepared positions of a request with tokens have a last column. -/
lemma exists_last_preparedPositions {data : NewRequestData} (h : 0 < data.numScheduledTokens)
    (env : StepEnv η) : ∃ last, (preparedPositions data env).getLast? = some last := by
  have hne : preparedPositions data env ≠ [] := by
    intro hnil
    have hlen := congrArg length hnil
    rw [preparedPositions, length_map, length_range, length_nil] at hlen
    omega
  exact ⟨_, getLast?_eq_some_getLast hne⟩

lemma decodeInv_init (cfg : EngineConfig) (t : ι) :
    DecodeInv cfg t (EngineState.init cfg : EngineState ι η) where
  toEngineInv := engineInv_init cfg t
  whole := fun _ he => absurd he not_mem_nil
  fresh := fun _ => rfl
  simulates := fun hne => absurd rfl hne

/-- No request of the turn is aborted, and a step of the turn is that of its next request. -/
abbrev DecodesTurn (cfg : EngineConfig) (t : ι) (es : EngineState ι η) (a : EngineAct ι η) : Prop :=
  StepsOfTurn cfg t (DecodesNext cfg) es.sched a.sched

lemma LeavesTurn.simulates (hleaves : LeavesTurn t es es') (h : Simulates es t d) :
    Simulates es' t d where
  blocks := hleaves.lockers ▸ h.blocks
  count := hleaves.lockers ▸ h.count
  history := hleaves.lockers ▸ h.history
  token := hleaves.lockers ▸ h.token
  passed := by
    rw [SchedulerState.lastPassed, hleaves.log]
    exact h.passed
  position := hleaves.positions ▸ h.position
  hidden := hleaves.hidden ▸ h.hidden

lemma LeavesTurn.decodeInv (hleaves : LeavesTurn t es es') (h : DecodeInv cfg t es)
    (hengine : EngineInv cfg t es') : DecodeInv cfg t es' where
  toEngineInv := hengine
  whole := hleaves.steps ▸ h.whole
  fresh := by
    rw [hleaves.steps, hleaves.positions]
    exact h.fresh
  simulates := by
    rw [hleaves.steps, hleaves.log]
    intro hne hcodec
    obtain ⟨d, hd, hsim⟩ := h.simulates hne hcodec
    exact ⟨d, hd, hleaves.simulates hsim⟩

lemma lastColumns_one {columns : List Column} {c : Column} (h : columns.getLast? = some c) :
    lastColumns 1 columns = [c] := by
  obtain ⟨init, rfl⟩ := getLast?_eq_some_iff.mp h
  simp [lastColumns]

omit [DecidableEq ι] in
/-- The uninterrupted request starts with a prefill that has a last position. -/
lemma exists_prefill {steps : List (StepRecord ι × StepView η)} (h : uninterrupted steps = some d) :
    ∃ first last, steps.head? = some first ∧ first.2.positions.getLast? = some last := by
  cases steps with
  | nil => cases h
  | cons first rest =>
    obtain ⟨d₀, hd₀, -⟩ := map_eq_some_iff.mp h
    obtain ⟨last, hlast, -⟩ := map_eq_some_iff.mp hd₀
    exact ⟨first, last, rfl, hlast⟩

section Step

variable (h : DecodeInv cfg o.request.turn es) (ho : schedule cfg es.sched = some o)
  (hnext : DecodesNext cfg es.sched o)
include h ho hnext

/-- As long as no token ends the turn, a step passes `check_stop` and leaves its summary in the
lockers. -/
lemma lockers_afterStep (hcodec : cfg.Codec env.token) :
    (es.afterStep cfg o env m v).sched.lockers o.request.turn =
        (es.sched.lockers o.request.turn).advance o.data (some env.token) ∧
      (es.afterStep cfg o env m v).sched.lastPassed o.request.turn = true := by
  have hadv : (recordOf cfg es.sched o (some env.token)).advanced = true := by
    refine (advanced_iff_fits h.turn.locker ho ?_).mpr hnext.fits
    intro y hy
    rcases mem_append.mp hy with hy | hy
    · exact hnext.codec y hy
    · exact mem_singleton.mp hy ▸ hcodec
  rw [EngineState.afterStep, sampled_of_whole hnext.whole]
  refine ⟨?_, ?_⟩
  · rw [lockers_updateFromOutput_self, if_pos hadv]
  · rw [lastPassed_updateFromOutput_self, hadv]

variable [Zero η]
  (hrunner : runnerStep es.model o.request.turn o.data env = some (m, v))
include hrunner

/-- The prefill starts the simulation. -/
lemma simulates_prefill (hnil : es.stepsOf o.request.turn = []) (hcodec : cfg.Codec env.token) :
    ∃ d, uninterrupted ((es.afterStep cfg o env m v).stepsOf o.request.turn) = some d ∧
      Simulates (es.afterStep cfg o env m v) o.request.turn d := by
  have hspec := runnerStep_spec hrunner
  have hpos := h.fresh hnil
  obtain ⟨hlock, hlast⟩ := lockers_afterStep (m := m) (v := v) h ho hnext hcodec
  have hempty : es.sched.stepsOf o.request.turn = [] := by rw [← h.map_stepsOf, hnil, map_nil]
  have hpassed : es.sched.passedOf o.request.turn = [] := by
    rw [SchedulerState.passedOf, hempty, filter_nil]
  have hsched : 0 < o.data.numScheduledTokens := by
    rw [hnext.whole]
    exact o.request.prompt_pos
  obtain ⟨last, hcol⟩ := exists_last_preparedPositions hsched env
  have hshown : v.positions = preparedPositions o.data env := by
    rw [hspec.positions, forwardPositions, hpos]
  rw [stepsOf_afterStep_self, hnil, nil_append, sampled_of_whole hnext.whole]
  refine ⟨_, by simp only [uninterrupted, Decode.ofPrefill, hshown, hcol, map_some,
    foldl_nil]; rfl, ?_⟩
  constructor
  · rw [hlock]
    rfl
  · rw [hlock, Locker.advance, h.turn.locker.count, hpassed]
    simp [recordOf]
  · rw [hlock, Locker.advance, h.turn.locker.history, hpassed]
    simp [recordOf]
  · rw [hlock]
    simp [Locker.advance, recordOf]
  · exact hlast
  · refine ⟨_, hspec.currentPos, ?_⟩
    rw [hpos, getD_none, hcol]
    simp
  · rw [hspec.lastRow]
    exact hspec.lastHidden

lemma simulates_relay (hone : o.request.numPromptTokens = 1) (hcodec : cfg.Codec env.token)
    (hsim : Simulates es o.request.turn d) :
    Simulates (es.afterStep cfg o env m v) o.request.turn (d.next (some env.token) v.lastRow) := by
  have hspec := runnerStep_spec hrunner
  obtain ⟨hlock, hlast⟩ := lockers_afterStep (m := m) (v := v) h ho hnext hcodec
  have hblocks : o.data.blockIds = d.blockIds := by
    obtain ⟨r, rest, n, -, -, -, rfl⟩ := schedule_eq_some ho
    simp [Locker.requestData, hsim.blocks]
  obtain ⟨saved, hsaved, hpos⟩ := hsim.position
  constructor
  · rw [hlock, Locker.advance, hblocks]
    rfl
  · rw [hlock, Locker.advance, hsim.count, hnext.whole, hone]
    rfl
  · rw [hlock, Locker.advance, hsim.history]
    rfl
  · rw [hlock]
    simp [Locker.advance, Decode.next]
  · exact hlast
  · refine ⟨_, hspec.currentPos, ?_⟩
    rw [hsaved, getD_some, hpos]
    simp [Decode.next]
  · rw [hspec.lastRow]
    exact hspec.lastHidden

lemma decodeInv_step_self (hengine : EngineInv cfg o.request.turn (es.afterStep cfg o env m v)) :
    DecodeInv cfg o.request.turn (es.afterStep cfg o env m v) := by
  have hsteps := stepsOf_afterStep_self cfg es o env m v
  refine ⟨hengine, ?_, ?_, ?_⟩
  · intro e he
    rw [hsteps] at he
    rcases mem_append.mp he with he | he
    · exact h.whole e he
    · obtain rfl := mem_singleton.mp he
      exact hnext.whole
  · intro hnil
    rw [hsteps] at hnil
    exact absurd hnil (append_ne_nil_of_right_ne_nil _ (cons_ne_nil _ _))
  · intro _ hcodec
    rw [EngineState.afterStep, stepsOf_updateFromOutput_self, tokensIn_append_singleton] at hcodec
    have htoken : cfg.Codec env.token := by
      refine hcodec env.token (mem_append_right _ ?_)
      rw [sampled_of_whole hnext.whole]
      exact mem_singleton.mpr rfl
    by_cases hnil : es.stepsOf o.request.turn = []
    · exact simulates_prefill h ho hnext hrunner hnil htoken
    · obtain ⟨d, hd, hsim⟩ := h.simulates hnil hnext.codec
      have hidx : 0 < o.request.idx := by
        rw [hnext.idx_eq, ← h.map_stepsOf, length_map]
        exact length_pos_iff.mpr hnil
      refine ⟨d.next (some env.token) v.lastRow, ?_,
        simulates_relay h ho hnext hrunner (hnext.one_token hidx) htoken hsim⟩
      rw [hsteps, uninterrupted_append hnil, hd, sampled_of_whole hnext.whole]
      rfl

/-! ## A relay step is presented as a decode step -/

/-- A scheduled request is presented as step `k` of one request that was prefilled by the first of
the given steps, in terms of that request and of the steps. -/
structure PresentedAsStep (steps : List (StepRecord ι × StepView η)) (k : ℕ) (o : Scheduled ι)
    (v : StepView η) : Prop where
  decode : (uninterrupted steps).map Decode.input = some (shownInput o v)
  prefill : ∃ first ∈ steps.head?,
    o.data.numComputedTokens = first.1.request.numPromptTokens + k - 1 ∧
      o.data.blockIds = first.1.data.blockIds ∧
      ∃ last ∈ first.2.positions.getLast?, v.positions = [last.shift k]
  tokens : ∃ ts : List ℕ, ts.map some = steps.map (fun e => e.1.newTokenId) ∧ ts.length = k ∧
    v.inputIds = ts.getLast?.toList ∧ v.audioHistory = some ts
  hidden : ∃ prev ∈ steps.getLast?, v.lastTalkerHidden = prev.2.lastRow

/-- A relay step that found its payload in time shows the network what the uninterrupted request
would. -/
lemma shownInput_eq_input (hone : o.request.numPromptTokens = 1)
    (hqueued : QueuedInTime es.sched o.request) (hsim : Simulates es o.request.turn d)
    (hhist : d.history ≠ []) :
    shownInput o v = d.input := by
  have hspec := runnerStep_spec hrunner
  have hsched : o.data.numScheduledTokens = 1 := hnext.whole.trans hone
  have hinfo := info_of_schedule h.turn ho hnext.toInOrder
  rw [if_pos (.inr ⟨hqueued, hsim.passed⟩), hsim.token, hsim.history] at hinfo
  obtain ⟨saved, hsaved, hpos⟩ := hsim.position
  have hinput : v.inputIds = d.history.getLast?.toList := by
    rw [hspec.inputIds, inputIdsOf, hinfo, hsched, getLast?_eq_some_getLast hhist]
    rfl
  have haudio : v.audioHistory = some d.history := by
    rw [hspec.audioHistory, hinfo]
  have hpositions : v.positions = [d.position] := by
    rw [hspec.positions, forwardPositions, hsaved, hsched]
    exact lastColumns_one hpos
  have hhidden : v.lastTalkerHidden = d.lastHidden := by
    rw [hspec.lastTalkerHidden, hsim.hidden, getD_some]
  have hdata : o.data.blockIds = d.blockIds ∧ o.data.numComputedTokens = d.numComputedTokens := by
    obtain ⟨r, rest, n, -, -, -, rfl⟩ := schedule_eq_some ho
    simp [Locker.requestData, hsim.blocks, hsim.count]
  rw [shownInput, Decode.input, hdata.1, hdata.2, hinput, haudio, hpositions, hhidden]

/-- What the simulation says of a relay step. -/
lemma presentedAsStep_of_decodeInv (hidx : 0 < o.request.idx)
    (hqueued : QueuedInTime es.sched o.request) :
    PresentedAsStep (es.stepsOf o.request.turn) o.request.idx o v := by
  have hlen : (es.stepsOf o.request.turn).length = o.request.idx := by
    rw [hnext.idx_eq, ← h.map_stepsOf, length_map]
  have hne : es.stepsOf o.request.turn ≠ [] := length_pos_iff.mp (hlen ▸ hidx)
  obtain ⟨d, hd, hsim⟩ := h.simulates hne hnext.codec
  obtain ⟨first, last, hfirst, hlast⟩ := exists_prefill hd
  obtain ⟨d', hd', hblocks, hcount, hpos, hhist, hhidden⟩ := exists_uninterrupted hfirst hlast
  cases hd.symm.trans hd'
  rw [h.map_stepsOf] at hhist
  have htokens : d.history.length = o.request.idx := by
    rw [hhist, length_tokensIn h.turn.sampled, ← h.map_stepsOf, length_map, hlen]
  have hshown : shownInput o v = d.input :=
    shownInput_eq_input h ho hnext hrunner (hnext.one_token hidx) hqueued hsim
      (length_pos_iff.mp (htokens ▸ hidx))
  have hcomputed : o.data.numComputedTokens = d.numComputedTokens :=
    congrArg DecodeInput.numComputedTokens hshown
  refine ⟨by rw [hd, hshown, map_some], ⟨first, hfirst, ?_, ?_, last, hlast, ?_⟩,
    ⟨d.history, ?_, htokens, congrArg DecodeInput.inputIds hshown,
      congrArg DecodeInput.audioHistory hshown⟩, ?_⟩
  · rw [hlen, h.whole first (mem_of_mem_head? hfirst)] at hcount
    omega
  · exact (congrArg DecodeInput.blockIds hshown).trans hblocks
  · rw [← hlen, ← hpos]
    exact congrArg DecodeInput.positions hshown
  · rw [hhist, map_some_tokensIn h.turn.sampled, ← h.map_stepsOf, List.map_map]
    rfl
  · obtain ⟨prev, hprev, hrow⟩ := map_eq_some_iff.mp hhidden
    exact ⟨prev, hprev, (congrArg DecodeInput.lastTalkerHidden hshown).trans hrow.symm⟩

end Step

/-- Every event at which the turn decodes keeps the simulation. -/
lemma decodeInv_step [Zero η] {a : EngineAct ι η} (h : DecodeInv cfg t es)
    (hdecodes : DecodesTurn cfg t es a) (hstep : engineStep cfg es a = some es') :
    DecodeInv cfg t es' := by
  have hengine : EngineInv cfg t es' :=
    engineInv_step h.toEngineInv (hdecodes.mono fun _ _ hok => hok.toInOrder) hstep
  obtain hleaves | ⟨env, o, m, v, rfl, ho, rfl, hrunner, rfl⟩ :=
    leavesTurn_or_step hdecodes.sparesTurn hstep
  · exact hleaves.decodeInv h hengine
  · exact decodeInv_step_self h ho (hdecodes o ho rfl) hrunner hengine

/-- In every run, a scheduled request of a turn that decodes, queued when its predecessor completed,
is presented to the network as the next step of one uninterrupted request, samples one token and is
gone after the step. -/
theorem relay_refines_decode [Zero η] {acts : List (EngineAct ι η)} {k : ℕ} (hk : 1 ≤ k)
    (hrun : run (engineStep cfg) (EngineState.init cfg) acts = some es)
    (hdecodes : AllSteps (engineStep cfg) (DecodesTurn cfg o.request.turn) (EngineState.init cfg)
      acts)
    (ho : schedule cfg es.sched = some o) (hnext : DecodesNext cfg es.sched o)
    (hidx : o.request.idx = k) (hqueued : QueuedInTime es.sched o.request) (env : StepEnv η) :
    ∃ es' e v, engineStep cfg es (.step env) = some es' ∧ es'.steps = es.steps ++ [(e, v)] ∧
      e.toScheduled = o ∧ PresentedAsStep (es.stepsOf o.request.turn) k o v ∧
      e.newTokenId = some env.token ∧ ∀ r ∈ es'.sched.waiting, r.id ≠ o.request.id := by
  subst hidx
  have h : DecodeInv cfg o.request.turn es :=
    run_invariant_of_allSteps (fun _ _ _ hinv hok hs => decodeInv_step hinv hok hs)
      (decodeInv_init cfg _) hdecodes hrun
  have hids : (es.sched.waiting.map Request.id).Nodup := by
    refine run_invariant (I := fun es : EngineState ι η => (es.sched.waiting.map Request.id).Nodup)
      (fun _ _ _ hinv hs => nodup_ids_step hinv (schedStep_of_engineStep hs)) ?_ hrun
    exact nodup_nil
  obtain ⟨m, v, hrunner, hstep⟩ := exists_engineStep h.toEngineInv ho hnext.toInOrder hk env
  exact ⟨es.afterStep cfg o env m v, _, v, hstep, rfl, rfl,
    presentedAsStep_of_decodeInv h ho hnext hrunner hk hqueued,
    sampled_of_whole hnext.whole env.token, fun r hr => id_ne_of_mem_waiting hids ho hr⟩

end Simulation

/-- Two steps of a turn, and the prefill of another turn before the third. -/
def interruptedTurn : List (EngineAct ℕ ℕ) :=
  [.add 0 0 9, .add 0 1 1, .add 1 0 5, .add 0 2 1,
    .step (plainEnv 0), .step (plainEnv 6), .step (plainEnv 7)]

/-- The third step of the turn is presented as the third step of one request. -/
theorem relay_refines_decode_interrupted :
    ∃ es o, run (engineStep (smallEngine 8)) (EngineState.init (smallEngine 8)) interruptedTurn =
        some es ∧
      schedule (smallEngine 8) es.sched = some o ∧
      ∃ es' e v, engineStep (smallEngine 8) es (.step (plainEnv 8)) = some es' ∧
        es'.steps = es.steps ++ [(e, v)] ∧ e.toScheduled = o ∧
        PresentedAsStep (es.stepsOf o.request.turn) 2 o v ∧
        e.newTokenId = some 8 ∧ ∀ r ∈ es'.sched.waiting, r.id ≠ o.request.id := by
  obtain ⟨es, o, hes, ho, hturn, hnext, hidx, hqueued⟩ : ∃ es o,
      run (engineStep (smallEngine 8)) (EngineState.init (smallEngine 8)) interruptedTurn =
        some es ∧
      schedule (smallEngine 8) es.sched = some o ∧ o.request.turn = 0 ∧
      DecodesNext (smallEngine 8) es.sched o ∧ o.request.idx = 2 ∧
      QueuedInTime es.sched o.request :=
    exists_of_run (by decide)
  refine ⟨es, o, hes, ho,
    relay_refines_decode (by decide) hes ?_ ho hnext hidx hqueued (plainEnv 8)⟩
  rw [hturn]
  decide

end OmniStreaming
