import OmniStreaming.Talker.Scheduler

/-!
# The history of one turn

The lockers of a turn are a summary of its past: as long as no request of the turn is aborted, they
hold the blocks of the first step that passed `check_stop`, the tokens computed by all such steps,
and the tokens these have sampled. Steps of other turns do not touch them.
-/

namespace OmniStreaming

open Transition

variable {ι : Type*} [DecidableEq ι]

/-- The steps of a turn, in order. -/
def SchedulerState.stepsOf (s : SchedulerState ι) (t : ι) : List (StepRecord ι) :=
  s.log.filter fun e => e.request.turn = t

/-- The steps of a turn that passed `check_stop`. -/
def SchedulerState.passedOf (s : SchedulerState ι) (t : ι) : List (StepRecord ι) :=
  (s.stepsOf t).filter fun e => e.advanced

/-- The tokens that steps have sampled. -/
def tokensIn (steps : List (StepRecord ι)) : List ℕ := steps.filterMap fun e => e.newTokenId

/-- No request of the turn is aborted. -/
def SchedAct.SparesTurn (t : ι) : SchedAct ι → Prop
  | .abort turn _ => turn ≠ t
  | _ => True

/-- At an event no request of the turn is aborted, and a request of the turn that is scheduled is
`ok`. -/
def StepsOfTurn (cfg : EngineConfig) (t : ι) (ok : SchedulerState ι → Scheduled ι → Prop)
    (s : SchedulerState ι) : SchedAct ι → Prop
  | .abort turn _ => turn ≠ t
  | .add _ _ _ => True
  | .step _ => ∀ o ∈ schedule cfg s, o.request.turn = t → ok s o

instance (cfg : EngineConfig) (t : ι) (ok : SchedulerState ι → Scheduled ι → Prop)
    [∀ s o, Decidable (ok s o)] (s : SchedulerState ι) : DecidablePred (StepsOfTurn cfg t ok s)
  | .abort turn _ => inferInstanceAs (Decidable (turn ≠ t))
  | .add _ _ _ => isTrue trivial
  | .step _ =>
    inferInstanceAs (Decidable (∀ o ∈ schedule cfg s, o.request.turn = t → ok s o))

/-- The lockers of a turn summarise the steps that passed `check_stop`. -/
structure LockerInv (t : ι) (s : SchedulerState ι) : Prop where
  blocks : (s.lockers t).blocks = (s.passedOf t).head?.map fun e => e.newBlocks
  count : (s.lockers t).historyCount =
    ((s.passedOf t).map fun e => e.data.numScheduledTokens).sum
  history : (s.lockers t).outputHistory = tokensIn (s.passedOf t)
  token : (s.lockers t).token = (tokensIn (s.passedOf t)).getLast?

variable {cfg : EngineConfig} {s s' : SchedulerState ι} {o : Scheduled ι} {a : SchedAct ι} {t : ι}

omit [DecidableEq ι] in
lemma StepsOfTurn.sparesTurn {ok : SchedulerState ι → Scheduled ι → Prop}
    (h : StepsOfTurn cfg t ok s a) : a.SparesTurn t := by
  cases a with
  | abort turn idx => exact h
  | add turn idx n => trivial
  | step token => trivial

omit [DecidableEq ι] in
lemma StepsOfTurn.mono {ok ok' : SchedulerState ι → Scheduled ι → Prop}
    (himp : ∀ s o, ok s o → ok' s o) (h : StepsOfTurn cfg t ok s a) :
    StepsOfTurn cfg t ok' s a := by
  cases a with
  | abort turn idx => exact h
  | add turn idx n => trivial
  | step token => exact fun o ho hturn => himp s o (h o ho hturn)

/-! ## Steps of a turn after an event -/

/-- A step of the turn is logged. -/
lemma stepsOf_updateFromOutput_self (cfg : EngineConfig) (s : SchedulerState ι) (o : Scheduled ι)
    (token : Option ℕ) :
    (updateFromOutput cfg s o token).stepsOf o.request.turn =
      s.stepsOf o.request.turn ++ [recordOf cfg s o token] := by
  simp [SchedulerState.stepsOf, recordOf]

/-- A step of another turn is not. -/
lemma stepsOf_updateFromOutput_of_ne (cfg : EngineConfig) (s : SchedulerState ι) (token : Option ℕ)
    (h : o.request.turn ≠ t) :
    (updateFromOutput cfg s o token).stepsOf t = s.stepsOf t := by
  simp [SchedulerState.stepsOf, recordOf, h]

lemma passedOf_updateFromOutput_of_ne (cfg : EngineConfig) (s : SchedulerState ι) (token : Option ℕ)
    (h : o.request.turn ≠ t) :
    (updateFromOutput cfg s o token).passedOf t = s.passedOf t := by
  rw [SchedulerState.passedOf, stepsOf_updateFromOutput_of_ne _ _ token h, SchedulerState.passedOf]

lemma passedOf_updateFromOutput_self (cfg : EngineConfig) (s : SchedulerState ι) (o : Scheduled ι)
    (token : Option ℕ) :
    (updateFromOutput cfg s o token).passedOf o.request.turn =
      if (recordOf cfg s o token).advanced then
        s.passedOf o.request.turn ++ [recordOf cfg s o token]
      else s.passedOf o.request.turn := by
  rw [SchedulerState.passedOf, stepsOf_updateFromOutput_self, List.filter_append,
    SchedulerState.passedOf]
  cases hadv : (recordOf cfg s o token).advanced with
  | true => simp [hadv]
  | false => simp [hadv]

omit [DecidableEq ι] in
@[simp] lemma tokensIn_nil : tokensIn ([] : List (StepRecord ι)) = [] := rfl

omit [DecidableEq ι] in
/-- The token of one more step. -/
@[simp] lemma tokensIn_append_singleton (steps : List (StepRecord ι)) (e : StepRecord ι) :
    tokensIn (steps ++ [e]) = tokensIn steps ++ e.newTokenId.toList := by
  unfold tokensIn
  rw [List.filterMap_append]
  cases h : e.newTokenId with
  | none => simp [h]
  | some x => simp [h]

/-! ## The lockers summarise the history -/

/-- A step of the turn that passes `check_stop` extends the summary by itself. -/
lemma lockerInv_advance (h : LockerInv o.request.turn s) (ho : schedule cfg s = some o)
    (token : Option ℕ) (hadv : (recordOf cfg s o token).advanced = true) :
    LockerInv o.request.turn (updateFromOutput cfg s o token) := by
  have hlock := lockers_updateFromOutput_self cfg s o token
  have hpass := passedOf_updateFromOutput_self cfg s o token
  rw [if_pos hadv] at hlock hpass
  constructor
  · rw [hlock, hpass]
    obtain ⟨r, rest, n, -, -, -, rfl⟩ := schedule_eq_some ho
    have hblocks := h.blocks
    cases hold : s.passedOf r.turn with
    | nil =>
      rw [hold] at hblocks
      simp [Locker.advance, Locker.requestData, hblocks, recordOf]
    | cons e rest =>
      rw [hold] at hblocks
      simp [Locker.advance, Locker.requestData, hblocks]
  · rw [hlock, hpass, List.map_append, List.sum_append, ← h.count]
    simp [Locker.advance, recordOf]
  · rw [hlock, hpass, tokensIn_append_singleton, ← h.history]
    rfl
  · rw [hlock, hpass, tokensIn_append_singleton, Locker.advance, h.token]
    cases token with
    | none => simp [recordOf]
    | some x => simp [recordOf]

lemma lockerInv_step (h : LockerInv t s) (hspare : a.SparesTurn t)
    (hstep : schedStep cfg s a = some s') : LockerInv t s' := by
  obtain ⟨turn, idx, n, hn, rfl, -, rfl⟩ | ⟨turn, idx, rfl, rfl⟩ | ⟨token, o, rfl, ho, rfl⟩ :=
    schedStep_cases hstep
  · exact ⟨h.blocks, h.count, h.history, h.token⟩
  · have hlock := lockers_abortRequest_of_ne s idx (Ne.symm hspare)
    exact ⟨hlock ▸ h.blocks, hlock ▸ h.count, hlock ▸ h.history, hlock ▸ h.token⟩
  · by_cases hturn : o.request.turn = t
    · subst hturn
      by_cases hadv : (recordOf cfg s o (o.sampled token)).advanced = true
      · exact lockerInv_advance h ho _ hadv
      · have hlock := lockers_updateFromOutput_self cfg s o (o.sampled token)
        have hpass := passedOf_updateFromOutput_self cfg s o (o.sampled token)
        rw [if_neg hadv] at hlock hpass
        constructor
        · rw [hlock, hpass, h.blocks]
        · rw [hlock, hpass, h.count]
        · rw [hlock, hpass, h.history]
        · rw [hlock, hpass, h.token]
    · have hlock := lockers_updateFromOutput_of_ne cfg s (o.sampled token) hturn
      have hpass := passedOf_updateFromOutput_of_ne cfg s (o.sampled token) hturn
      constructor
      · rw [hlock, hpass, h.blocks]
      · rw [hlock, hpass, h.count]
      · rw [hlock, hpass, h.history]
      · rw [hlock, hpass, h.token]

lemma lockerInv_init (cfg : EngineConfig) (t : ι) :
    LockerInv t (SchedulerState.init cfg : SchedulerState ι) :=
  ⟨rfl, rfl, rfl, rfl⟩

end OmniStreaming
