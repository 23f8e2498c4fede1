import OmniStreaming.Talker.Stage

/-!
# What the talker stage keeps of a turn

The lockers of the scheduler, three maps of the model and the noted payloads all have entries for a
turn. Only an abort clears the lockers; the maps are reset for a finished `_stage_2_` request with
`_FINAL`, which the process of the talker never sees; and nothing removes a noted payload.

So of a turn that has sent the stage a task something is left in every later state, whether the turn
has ended or not, and of a turn that has not there is nothing.
-/

namespace OmniStreaming

open Transition

variable {η : Type*}

/-- The stage holds no entry for the turn: in the lockers, the maps of the model, or the noted
payloads. (The count and the history of a locker are at their defaults iff there is no entry: a step
adds to both.) -/
structure Released (t : TurnId) (s : TalkerStage η) : Prop where
  lockers : s.engine.sched.lockers t = {}
  currentPos : s.engine.model.stg1CurrentPos t = none
  lastHidden : s.engine.model.stg1LastHidden t = none
  imStart : s.engine.model.imStartIndexes t = false
  staging : ∀ k, (t, k) ∉ s.staging

/-- The event is a task of the turn. -/
def StageAct.IsTaskOf (t : TurnId) : StageAct η → Prop
  | .task turn _ _ => turn = t
  | _ => False

instance (t : TurnId) : DecidablePred (StageAct.IsTaskOf t : StageAct η → Prop) := fun a => by
  unfold StageAct.IsTaskOf
  split <;> infer_instance

variable {cfg : EngineConfig} {s s' : TalkerStage η} {a : StageAct η} {t : TurnId}

/-- Nothing of the turn is held, and no request of it waits. -/
structure Untouched (t : TurnId) (s : TalkerStage η) : Prop extends Released t s where
  waiting : ∀ r ∈ s.waiting, r.turn ≠ t

lemma untouched_init (cfg : EngineConfig) (t : TurnId) :
    Untouched t (TalkerStage.init cfg : TalkerStage η) where
  lockers := rfl
  currentPos := rfl
  lastHidden := rfl
  imStart := rfl
  staging := fun _ => List.not_mem_nil
  waiting := fun _ hr => absurd hr List.not_mem_nil

/-- An event that is no task of the turn leaves it untouched. -/
lemma untouched_step [Zero η] (h : Untouched t s) (hact : ¬ a.IsTaskOf t)
    (hstep : stageStep cfg s a = some s') : Untouched t s' := by
  have hstaging : ∀ {turn : TurnId} {idx k : ℕ}, turn ≠ t →
      (t, k) ∉ s.staging ++ [(turn, idx)] := by
    intro turn idx k hne hmem
    rcases List.mem_append.mp hmem with hmem | hmem
    · exact h.staging k hmem
    · exact hne (Prod.mk.inj (List.mem_singleton.mp hmem)).1.symm
  obtain ⟨turn, idx, n, rfl, -, rfl⟩ | ⟨turn, idx, n, hn, rfl, -, rfl⟩ |
    ⟨turn, idx, rfl, rfl⟩ | ⟨env, o, m, v, rfl, ho, hrunner, rfl⟩ | ⟨rfl, -, rfl⟩ :=
    stageStep_cases hstep
  · exact { h with staging := fun k => hstaging hact }
  · refine { h with staging := fun k => hstaging hact, waiting := fun r hr => ?_ }
    rcases List.mem_append.mp hr with hr | hr
    · exact h.waiting r hr
    · rw [List.mem_singleton.mp hr]
      exact hact
  · refine { h with lockers := ?_, waiting := fun r hr => h.waiting r (List.mem_of_mem_filter hr) }
    by_cases hturn : t = turn
    · subst hturn
      exact lockers_abortRequest_self t idx
    · exact (lockers_abortRequest_of_ne _ idx hturn).trans h.lockers
  · have hne : o.request.turn ≠ t := by
      obtain ⟨r, rest, n, hwaiting, -, -, rfl⟩ := schedule_eq_some ho
      exact h.waiting r (by simp [TalkerStage.waiting, hwaiting])
    have hleaves : LeavesTurn t s.engine (s.engine.afterStep cfg o env m v) :=
      leavesTurn_of_step hne hrunner
    exact
      { lockers := hleaves.lockers.trans h.lockers
        currentPos := hleaves.positions.trans h.currentPos
        lastHidden := hleaves.hidden.trans h.lastHidden
        imStart := hleaves.noted.trans h.imStart
        staging := h.staging
        waiting := fun r hr => by
          obtain ⟨r₀, hr₀, hturn, -⟩ := exists_of_mem_waiting hr
          rw [hturn]
          exact h.waiting r₀ hr₀ }
  · exact { h with }

/-- No event removes a noted payload, and a task notes its own. -/
lemma staging_step [Zero η] (hstep : stageStep cfg s a = some s') :
    (∀ id ∈ s.staging, id ∈ s'.staging) ∧
      ∀ turn idx n, a = .task turn idx n → (turn, idx) ∈ s'.staging := by
  obtain ⟨turn, idx, n, rfl, -, rfl⟩ | ⟨turn, idx, n, hn, rfl, -, rfl⟩ |
    ⟨turn, idx, rfl, rfl⟩ | ⟨env, o, m, v, rfl, ho, hrunner, rfl⟩ | ⟨rfl, -, rfl⟩ :=
    stageStep_cases hstep
  · exact ⟨fun id hid => List.mem_append_left _ hid, by rintro _ _ _ ⟨⟩; simp⟩
  · exact ⟨fun id hid => List.mem_append_left _ hid, by rintro _ _ _ ⟨⟩; simp⟩
  · exact ⟨fun id hid => hid, by rintro _ _ _ ⟨⟩⟩
  · exact ⟨fun id hid => hid, by rintro _ _ _ ⟨⟩⟩
  · exact ⟨fun id hid => hid, by rintro _ _ _ ⟨⟩⟩

/-- The payloads of all tasks of a run are noted at its end. -/
lemma mem_staging_of_run [Zero η] {acts : List (StageAct η)} {turn : TurnId} {idx n : ℕ}
    (hrun : run (stageStep cfg) s acts = some s') (hmem : .task turn idx n ∈ acts) :
    (turn, idx) ∈ s'.staging := by
  induction acts generalizing s with
  | nil => exact absurd hmem List.not_mem_nil
  | cons a acts ih =>
    obtain ⟨s₁, hstep, hrest⟩ := run_cons_eq_some.mp hrun
    rcases List.mem_cons.mp hmem with rfl | hmem
    · have hnoted := (staging_step hstep).2 turn idx n rfl
      exact run_invariant (I := fun s => (turn, idx) ∈ s.staging)
        (fun _ _ _ h hstep => (staging_step hstep).1 _ h) hnoted hrest
    · exact ih hrest hmem

/-- At the end of a run, nothing is held for a turn iff no task of the turn has come. -/
theorem released_iff_no_task [Zero η] {acts : List (StageAct η)}
    (hrun : run (stageStep cfg) (TalkerStage.init cfg) acts = some s) (t : TurnId) :
    Released t s ↔ ∀ a ∈ acts, ¬ a.IsTaskOf t := by
  constructor
  · intro h a ha htask
    cases a with
    | task turn idx n =>
      obtain rfl : turn = t := htask
      exact h.staging idx (mem_staging_of_run hrun ha)
    | abort turn idx => exact htask
    | step env => exact htask
    | idle => exact htask
  · intro hnone
    have hall : AllSteps (stageStep cfg) (fun _ a => ¬ StageAct.IsTaskOf t a)
        (TalkerStage.init cfg) acts := allSteps_of_forall_mem hnone
    exact (run_invariant_of_allSteps (fun _ _ _ h hact hstep => untouched_step h hact hstep)
      (untouched_init cfg t) hall hrun).toReleased

/-- The maps of the model have entries for the turn. -/
structure MapsHeld (t : TurnId) (s : TalkerStage η) : Prop where
  currentPos : (s.engine.model.stg1CurrentPos t).isSome
  lastHidden : (s.engine.model.stg1LastHidden t).isSome
  imStart : s.engine.model.imStartIndexes t = true

/-- What the model has of a turn is kept by every event, and a step of the turn makes it. -/
lemma mapsHeld_step [Zero η] (hstep : stageStep cfg s a = some s')
    (h : s.engine.stepsOf t ≠ [] → MapsHeld t s) : s'.engine.stepsOf t ≠ [] → MapsHeld t s' := by
  obtain ⟨turn, idx, n, rfl, -, rfl⟩ | ⟨turn, idx, n, hn, rfl, -, rfl⟩ |
    ⟨turn, idx, rfl, rfl⟩ | ⟨env, o, m, v, rfl, ho, hrunner, rfl⟩ | ⟨rfl, -, rfl⟩ :=
    stageStep_cases hstep
  · exact fun hne => { h hne with }
  · exact fun hne => { h hne with }
  · exact fun hne => { h hne with }
  · by_cases hturn : o.request.turn = t
    · subst hturn
      have hspec := runnerStep_spec hrunner
      exact fun _ =>
        { currentPos := Option.isSome_iff_exists.mpr ⟨_, hspec.currentPos⟩
          lastHidden := Option.isSome_iff_exists.mpr ⟨_, hspec.lastHidden⟩
          imStart := hspec.noted }
    · have hleaves : LeavesTurn t s.engine (s.engine.afterStep cfg o env m v) :=
        leavesTurn_of_step hturn hrunner
      intro hne
      rw [hleaves.steps] at hne
      exact
        { currentPos := hleaves.positions ▸ (h hne).currentPos
          lastHidden := hleaves.hidden ▸ (h hne).lastHidden
          imStart := hleaves.noted.trans (h hne).imStart }
  · exact fun hne => { h hne with }

/-- The maps of the model keep every turn that has had a step, also if it is aborted later. -/
theorem mapsHeld_of_stepsOf [Zero η] {acts : List (StageAct η)}
    (hrun : run (stageStep cfg) (TalkerStage.init cfg) acts = some s)
    (hsteps : s.engine.stepsOf t ≠ []) : MapsHeld t s :=
  run_invariant (I := fun s => s.engine.stepsOf t ≠ [] → MapsHeld t s)
    (fun _ _ _ h hstep => mapsHeld_step hstep h) (fun h => absurd rfl h) hrun hsteps

/-- A turn of the same session, a second later. -/
def nextTurn : TurnId where
  session := someTurn.session
  time := 1700000001
  time_ge := by decide
  time_lt := by decide

/-- One turn: a prefill, the request that samples 2150, and the runner is told. -/
def wholeTurnRun : List (StageAct ℕ) :=
  [.task someTurn 0 9, .step (plainEnv 5), .task someTurn 1 1, .step (plainEnv 2150), .idle]

/-- Of a turn that sends no task nothing is held. -/
theorem released_nextTurn :
    ∃ s, run (stageStep (smallEngine 8)) (TalkerStage.init (smallEngine 8)) wholeTurnRun = some s ∧
      Released nextTurn s := by
  obtain ⟨s, hrun⟩ : ∃ s, run (stageStep (smallEngine 8)) (TalkerStage.init (smallEngine 8))
      wholeTurnRun = some s :=
    Option.isSome_iff_exists.mp (by decide +kernel)
  exact ⟨s, hrun, (released_iff_no_task hrun nextTurn).mpr (by decide)⟩

/-- After the stop token no request waits or is waited for and the runner has been told; but every
map still has its entry for the turn. -/
theorem not_released_wholeTurn :
    ∃ s, run (stageStep (smallEngine 8)) (TalkerStage.init (smallEngine 8)) wholeTurnRun = some s ∧
      (s.engine.stepsOf someTurn).map (fun e => e.1.newTokenId) = [some 5, some stopToken] ∧
      s.waiting = [] ∧ s.generating = [] ∧ s.finishedReqIds = [] ∧
      s.engine.sched.lockers someTurn =
        { token := some stopToken, blocks := some [1], historyCount := 10,
          outputHistory := [5, stopToken] } ∧
      MapsHeld someTurn s ∧ s.staging = [(someTurn, 0), (someTurn, 1)] ∧
      ¬ Released someTurn s := by
  obtain ⟨s, hrun, htokens, hwaiting, hgen, hfinished, hlockers, hstaging⟩ :
      ∃ s,
        run (stageStep (smallEngine 8)) (TalkerStage.init (smallEngine 8)) wholeTurnRun = some s ∧
        (s.engine.stepsOf someTurn).map (fun e => e.1.newTokenId) = [some 5, some stopToken] ∧
        s.waiting = [] ∧ s.generating = [] ∧ s.finishedReqIds = [] ∧
        s.engine.sched.lockers someTurn =
          { token := some stopToken, blocks := some [1], historyCount := 10,
            outputHistory := [5, stopToken] } ∧
        s.staging = [(someTurn, 0), (someTurn, 1)] :=
    exists_reached (by decide +kernel)
  have hmaps : MapsHeld someTurn s := mapsHeld_of_stepsOf hrun fun hnil => by
    rw [hnil] at htokens
    cases htokens
  refine ⟨s, hrun, htokens, hwaiting, hgen, hfinished, hlockers, hmaps, hstaging, fun h => ?_⟩
  exact absurd (h.imStart.symm.trans hmaps.imStart) (by decide)

end OmniStreaming
