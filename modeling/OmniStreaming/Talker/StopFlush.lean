import OmniStreaming.Talker.Stage

/-!
# What the stop token does to the later requests

When a step samples 2150, the later requests of the turn have no more work to do.
`update_from_output` finishes those that wait, but from inside the step: the engine core puts out
nothing for them, and their `generate` calls wait for ever. Where `check_stop` has ended the
stopping request before, nothing is finished at all.

So a stop is clean iff no later request of the turn is known to the scheduler by then.
-/

namespace OmniStreaming

open List Transition

variable {η : Type*}

/-! ## The queue after a step -/

variable {id : TurnId × ℕ}

/-- The ids that a step flushes. -/
lemma mem_flushedIds {cfg : EngineConfig} {waiting : List (Request TurnId)} {o : Scheduled TurnId}
    {token : Option ℕ} :
    id ∈ flushedIds cfg waiting o token ↔
      (o.stopReason cfg token = none ∧ token = some stopToken) ∧ id ∈ waiting.map Request.id ∧
        id.1 = o.request.turn ∧ o.request.idx < id.2 := by
  have hturn : o.request.turn.text <+: requestKey id ↔ id.1 = o.request.turn :=
    TurnId.text_prefix_stage1Key.trans eq_comm
  unfold flushedIds
  split_ifs with hstop
  · simp only [mem_filter, decide_eq_true_eq, hturn]
    exact (and_iff_right hstop).symm
  · exact iff_of_false not_mem_nil fun h => hstop h.1

/-- The relay changes no id, and the flush takes out the later requests of the turn. -/
lemma map_id_relayToNext (turn : TurnId) (idx : ℕ) (history : List ℕ) (token : Option ℕ)
    (waiting : List (Request TurnId)) :
    (relayToNext turn idx history token waiting).map Request.id =
      (waiting.map Request.id).filter fun id =>
        ¬ (token = some stopToken ∧ id.1 = turn ∧ idx < id.2) := by
  cases token with
  | none => simp [relayToNext]
  | some x =>
    have hid : ∀ r : Request TurnId, (if r.turn = turn ∧ r.idx = idx + 1 then
        { r with info := { predictedAudioToken := some x, audioHistory := some history } }
        else r).id = r.id := by
      intro r
      split_ifs <;> rfl
    simp only [relayToNext, map_map, Function.comp_def, hid, filter_map]
    by_cases hx : x = stopToken
    · simp only [hx, if_true, true_and]
      refine congrArg _ (filter_congr fun r _ => ?_)
      rw [Bool.eq_iff_iff]
      simp [Request.id]
    · simp [hx]

/-- After a step the queue holds what stood behind its head, without the flushed requests. -/
lemma map_id_waiting_updateFromOutput (cfg : EngineConfig) (s : SchedulerState TurnId)
    (o : Scheduled TurnId) (token : Option ℕ) :
    (updateFromOutput cfg s o token).waiting.map Request.id =
      (s.waiting.tail.map Request.id).filter (· ∉ flushedIds cfg s.waiting.tail o token) := by
  have hmem : ∀ id ∈ s.waiting.tail.map Request.id,
      (id ∉ flushedIds cfg s.waiting.tail o token ↔
        ¬ (o.stopReason cfg token = none ∧ token = some stopToken ∧
          id.1 = o.request.turn ∧ o.request.idx < id.2)) := by
    intro id hid
    rw [mem_flushedIds]
    tauto
  cases hstop : o.stopReason cfg token with
  | some reason =>
    simp only [updateFromOutput, hstop, Option.isSome_some, if_true]
    refine (filter_eq_self.mpr fun id hid => ?_).symm
    simpa [hstop] using hmem id hid
  | none =>
    simp only [updateFromOutput, hstop, Option.isSome_none, Bool.false_eq_true, if_false,
      map_id_relayToNext]
    refine filter_congr fun id hid => ?_
    simp only [hmem id hid, hstop, true_and]

/-! ## The invariant -/

/-- No id waits twice, and the coroutine of every waiting request waits for it. -/
structure StageInv (s : TalkerStage η) : Prop where
  nodup : (s.waiting.map Request.id).Nodup
  generating : ∀ id ∈ s.waiting.map Request.id, id ∈ s.generating

variable {cfg : EngineConfig} {s s' : TalkerStage η} {a : StageAct η} {o : Scheduled TurnId}
  {env : StepEnv η}

/-- The head of the queue is what `schedule` picks. -/
lemma ids_eq_of_schedule (ho : schedule cfg s.engine.sched = some o) :
    s.waiting.map Request.id = o.request.id :: s.waiting.tail.map Request.id := by
  obtain ⟨r, rest, n, hwaiting, -, -, rfl⟩ := schedule_eq_some ho
  simp [TalkerStage.waiting, hwaiting]

/-- The outputs of a step end the coroutine of the scheduled request only. -/
lemma mem_processOutputs {generating : List (TurnId × ℕ)} {token : Option ℕ} :
    id ∈ processOutputs generating (coreOutputs cfg o token) ↔
      id ∈ generating ∧ id ≠ o.request.id := by
  simp [processOutputs, coreOutputs]

lemma stageInv_init (cfg : EngineConfig) : StageInv (TalkerStage.init cfg : TalkerStage η) :=
  ⟨nodup_nil, fun _ hid => absurd hid not_mem_nil⟩

/-- Every event keeps the invariant. -/
lemma stageInv_step [Zero η] (h : StageInv s) (hstep : stageStep cfg s a = some s') :
    StageInv s' := by
  obtain ⟨turn, idx, n, rfl, -, rfl⟩ | ⟨turn, idx, n, hn, rfl, hnew, rfl⟩ |
    ⟨turn, idx, rfl, rfl⟩ | ⟨env, o, m, v, rfl, ho, -, rfl⟩ | ⟨rfl, -, rfl⟩ :=
    stageStep_cases hstep
  · exact ⟨h.nodup, h.generating⟩
  · have hids : (s.engine.sched.addRequest turn idx n hn).waiting.map Request.id =
        s.waiting.map Request.id ++ [(turn, idx)] := by
      simp [SchedulerState.addRequest, Request.id]
    constructor
    · rw [TalkerStage.waiting, hids]
      refine nodup_append.mpr ⟨h.nodup, nodup_singleton _, ?_⟩
      rintro id hid _ hid' rfl
      obtain ⟨r, hr, heq⟩ := mem_map.mp hid
      exact hnew r hr (Prod.mk.inj (heq.trans (mem_singleton.mp hid')))
    · intro id hid
      rw [TalkerStage.waiting, hids, mem_append] at hid
      exact mem_append.mpr (hid.imp_left (h.generating id))
  · have hids : (s.engine.sched.abortRequest turn idx).waiting.map Request.id =
        (s.waiting.map Request.id).filter (· ≠ (turn, idx)) := by
      rw [filter_map]
      exact congrArg _ (filter_congr fun r _ => by simp [Request.id])
    constructor
    · rw [TalkerStage.waiting, hids]
      exact h.nodup.filter _
    · intro id hid
      rw [TalkerStage.waiting, hids, mem_filter] at hid
      exact mem_filter.mpr ⟨h.generating id hid.1, hid.2⟩
  · have hhead := ids_eq_of_schedule ho
    have hnodup := h.nodup
    rw [hhead, nodup_cons] at hnodup
    constructor
    · rw [TalkerStage.waiting, EngineState.afterStep, map_id_waiting_updateFromOutput]
      exact hnodup.2.filter _
    · intro id hid
      rw [TalkerStage.waiting, EngineState.afterStep, map_id_waiting_updateFromOutput] at hid
      have hid := mem_of_mem_filter hid
      refine mem_processOutputs.mpr ⟨h.generating id ?_, ?_⟩
      · rw [hhead]
        exact mem_cons_of_mem _ hid
      · rintro rfl
        exact hnodup.1 hid
  · exact ⟨h.nodup, h.generating⟩

/-! ## Clean stops -/

/-- At a step that samples 2150, the later requests of the turn leave the scheduler, the coroutine
of every request that leaves ends, and no other turn's request leaves. -/
def StopsCleanly [Zero η] (cfg : EngineConfig) (s : TalkerStage η) (a : StageAct η) : Prop :=
  ∀ env o s', a = .step env → schedule cfg s.engine.sched = some o →
    o.sampled env.token = some stopToken → stageStep cfg s a = some s' →
      (∀ r ∈ s.waiting, r.turn = o.request.turn → o.request.idx < r.idx →
        r.id ∉ s'.waiting.map Request.id) ∧
      (∀ r ∈ s.waiting, r.id ∉ s'.waiting.map Request.id → r.id ∉ s'.generating) ∧
      ∀ r ∈ s.waiting, r.turn ≠ o.request.turn → r.id ∈ s'.waiting.map Request.id

/-- When a step samples 2150, the scheduler knows no later request of the turn. -/
def NothingLater (cfg : EngineConfig) (s : TalkerStage η) : StageAct η → Prop
  | .step env => ∀ o ∈ schedule cfg s.engine.sched, o.sampled env.token = some stopToken →
      ∀ r ∈ s.waiting, r.turn = o.request.turn → r.idx ≤ o.request.idx
  | _ => True

instance (cfg : EngineConfig) (s : TalkerStage η) : DecidablePred (NothingLater cfg s)
  | .step env => inferInstanceAs (Decidable
      (∀ o ∈ schedule cfg s.engine.sched, o.sampled env.token = some stopToken →
        ∀ r ∈ s.waiting, r.turn = o.request.turn → r.idx ≤ o.request.idx))
  | .task _ _ _ | .abort _ _ | .idle => isTrue trivial

/-- The queue after a step that samples 2150. -/
lemma mem_ids_afterStep [Zero η] {m : ModelState TurnId η} {v : StepView η}
    (h : StageInv s) (ho : schedule cfg s.engine.sched = some o)
    (hstop : o.sampled env.token = some stopToken) (hid : id ∈ s.waiting.map Request.id) :
    id ∈ (s.engine.afterStep cfg o env m v).sched.waiting.map Request.id ↔
      id ≠ o.request.id ∧
        ¬ (o.stopReason cfg (some stopToken) = none ∧ id.1 = o.request.turn ∧
          o.request.idx < id.2) := by
  have hnodup := h.nodup
  rw [ids_eq_of_schedule ho, nodup_cons] at hnodup
  have htail : id ∈ s.waiting.tail.map Request.id ↔ id ≠ o.request.id := by
    rw [ids_eq_of_schedule ho, mem_cons] at hid
    constructor
    · rintro hmem rfl
      exact hnodup.1 hmem
    · exact hid.resolve_left
  rw [EngineState.afterStep, map_id_waiting_updateFromOutput, mem_filter, hstop, htail]
  refine and_congr_right fun hne => ?_
  rw [decide_eq_true_eq, mem_flushedIds]
  simp only [true_and, and_true, htail.mpr hne]

/-- A stop is clean iff nothing later is known. -/
lemma stopsCleanly_iff [Zero η] (h : StageInv s) (hstep : stageStep cfg s a = some s') :
    StopsCleanly cfg s a ↔ NothingLater cfg s a := by
  obtain ⟨turn, idx, n, rfl, -, rfl⟩ | ⟨turn, idx, n, hn, rfl, -, rfl⟩ |
    ⟨turn, idx, rfl, rfl⟩ | ⟨env, o, m, v, rfl, ho, -, rfl⟩ | ⟨rfl, -, rfl⟩ :=
    stageStep_cases hstep
  · exact iff_of_true (fun env o s' hact => by cases hact) trivial
  · exact iff_of_true (fun env o s' hact => by cases hact) trivial
  · exact iff_of_true (fun env o s' hact => by cases hact) trivial
  · constructor
    · intro hclean o' ho' hstop r hr hturn
      cases ho.symm.trans ho'
      obtain ⟨hremoved, hended, -⟩ := hclean env o _ rfl ho hstop hstep
      by_contra hlt
      have hlt : o.request.idx < r.idx := Nat.lt_of_not_le hlt
      have hid : r.id ∈ s.waiting.map Request.id := mem_map_of_mem hr
      have hgone := hremoved r hr hturn hlt
      -- the flush has taken the request out of the queue, and nothing ends its coroutine
      have hne : r.id ≠ o.request.id := fun heq => absurd (Prod.mk.inj heq).2 hlt.ne'
      exact hended r hr hgone (mem_processOutputs.mpr ⟨h.generating _ hid, hne⟩)
    · intro hnothing env' o' t hact ho' hstop ht
      obtain rfl : env = env' := by simpa using hact
      cases ho.symm.trans ho'
      cases hstep.symm.trans ht
      have hkept : ∀ r ∈ s.waiting, r.id ≠ o.request.id →
          r.id ∈ (s.engine.afterStep cfg o env m v).sched.waiting.map Request.id := by
        intro r hr hne
        refine (mem_ids_afterStep h ho hstop (mem_map_of_mem hr)).mpr ⟨hne, ?_⟩
        rintro ⟨-, hturn, hlt⟩
        exact absurd (hnothing o ho hstop r hr hturn) (Nat.not_le.mpr hlt)
      refine ⟨fun r hr hturn hlt => ?_, fun r hr hgone => ?_, fun r hr hturn => ?_⟩
      · exact absurd (hnothing o ho hstop r hr hturn) (Nat.not_le.mpr hlt)
      · have heq : r.id = o.request.id := by
          by_contra hne
          exact hgone (hkept r hr hne)
        rw [heq]
        exact fun hmem => (mem_processOutputs.mp hmem).2 rfl
      · exact hkept r hr fun heq => hturn (Prod.mk.inj heq).1
  · exact iff_of_true (fun env o s' hact => by cases hact) trivial

/-- Along a run every stop is clean iff at every stop the scheduler knows no later request of the
turn. -/
theorem stops_cleanly_iff_nothingLater [Zero η] {acts : List (StageAct η)} {t : TalkerStage η}
    (hrun : run (stageStep cfg) (TalkerStage.init cfg) acts = some t) :
    AllSteps (stageStep cfg) (StopsCleanly cfg) (TalkerStage.init cfg) acts ↔
      AllSteps (stageStep cfg) (NothingLater cfg) (TalkerStage.init cfg) acts :=
  allSteps_iff_of_run (I := StageInv) (fun _ _ _ h hstep => stageInv_step h hstep)
    (fun _ _ _ h hstep => stopsCleanly_iff h hstep) (stageInv_init cfg) hrun

/-- A prefill and the next request, which samples 2150 while nothing else waits. -/
def lastRequestRun : List (StageAct ℕ) :=
  [.task someTurn 0 9, .step (plainEnv 5), .task someTurn 1 1, .step (plainEnv 2150)]

/-- The stop at the end of that run is clean. -/
theorem stops_cleanly_lastRequest :
    AllSteps (stageStep (smallEngine 8)) (StopsCleanly (smallEngine 8))
      (TalkerStage.init (smallEngine 8)) lastRequestRun := by
  obtain ⟨s, hrun⟩ : ∃ s, run (stageStep (smallEngine 8)) (TalkerStage.init (smallEngine 8))
      lastRequestRun = some s :=
    Option.isSome_iff_exists.mp (by decide +kernel)
  exact (stops_cleanly_iff_nothingLater hrun).mpr (by decide +kernel)

/-- A prefill and two more requests, which are queued when the first of them runs. -/
def queuedBehindRun : List (StageAct ℕ) :=
  [.task someTurn 0 9, .step (plainEnv 5), .task someTurn 1 1, .task someTurn 2 1]

/-- If the first of the two samples 2150, the second one leaves the queue and its coroutine waits
for ever. -/
theorem stops_not_cleanly_queuedBehind :
    ∃ s s', run (stageStep (smallEngine 8)) (TalkerStage.init (smallEngine 8)) queuedBehindRun =
        some s ∧
      stageStep (smallEngine 8) s (.step (plainEnv 2150)) = some s' ∧
      s'.waiting = [] ∧ s'.generating = [(someTurn, 2)] ∧
      ¬ StopsCleanly (smallEngine 8) s (.step (plainEnv 2150)) := by
  obtain ⟨s, s', hrun, hstep, hwaiting, hgen, hlater⟩ :
      ∃ s s', run (stageStep (smallEngine 8)) (TalkerStage.init (smallEngine 8)) queuedBehindRun =
        some s ∧ stageStep (smallEngine 8) s (.step (plainEnv 2150)) = some s' ∧
        s'.waiting = [] ∧ s'.generating = [(someTurn, 2)] ∧
        ¬ NothingLater (smallEngine 8) s (.step (plainEnv 2150)) :=
    exists_of_run (by decide +kernel)
  have hinv : StageInv s :=
    run_invariant (fun _ _ _ h hstep => stageInv_step h hstep) (stageInv_init _) hrun
  exact ⟨s, s', hrun, hstep, hwaiting, hgen, fun hclean =>
    hlater ((stopsCleanly_iff hinv hstep).mp hclean)⟩

end OmniStreaming
