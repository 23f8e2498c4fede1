import Mathlib.Data.Fintype.Basic
import OmniStreaming.Lib.FreeQueue
import OmniStreaming.Talker.Scheduler

/-!
# Who owns the KV blocks of a turn

Every talker request returns its blocks to the pool at the end of its step, while the next request
of the turn goes on using the blocks of the first one through `stage_block_locker`. Nothing but
the order of the free queue keeps these blocks from being handed out to another turn.

The file proves how long that order lasts: a turn's blocks come up again after as many blocks have
been handed out as the pool has besides them. A run in which every turn is over by then keeps the
locked blocks of the live turns apart and hands none of them to another turn.
-/

namespace OmniStreaming

open FreeQueue List Transition

variable {ι : Type*} [DecidableEq ι]

/-! ## Live turns and their blocks -/

variable (s : SchedulerState ι)

/-- The blocks in the locker of a turn. -/
def SchedulerState.entry (t : ι) : List ℕ := (s.lockers t).blocks.getD []

/-- The turn has locked blocks and a request in the queue. -/
def SchedulerState.Live (t : ι) : Prop :=
  (s.lockers t).blocks.isSome = true ∧ ∃ r ∈ s.waiting, r.turn = t

/-- The locked blocks of distinct live turns are disjoint. -/
def LiveDisjoint : Prop :=
  ∀ t u, t ≠ u → s.Live t → s.Live u → (s.entry t).Disjoint (s.entry u)

/-- A step hands out no block that a live turn other than its own has locked. -/
def HandsOutOwn (cfg : EngineConfig) (s : SchedulerState ι) (a : SchedAct ι) : Prop :=
  ∀ token, a = .step token → ∀ o, schedule cfg s = some o → ∀ t, t ≠ o.request.turn → s.Live t →
    o.newBlocks.Disjoint (s.entry t)

/-- The step locked its blocks for the turn `t`. -/
def StepRecord.locks (t : ι) (e : StepRecord ι) : Bool :=
  e.request.turn = t ∧ e.fresh = true ∧ e.advanced = true

/-- The number of blocks that the steps after the last one that passes the test have handed out. -/
def handedOutAfter (p : StepRecord ι → Bool) (log : List (StepRecord ι)) : ℕ :=
  ((log.reverse.takeWhile fun e => !p e).map fun e => e.newBlocks.length).sum

/-- The number of blocks handed out since the turn locked its own. -/
def SchedulerState.handedOutSince (t : ι) : ℕ :=
  handedOutAfter (StepRecord.locks t) s.log

/-- The action brings a request of the turn. -/
def SchedAct.addsTo (t : ι) : SchedAct ι → Bool
  | .add turn _ _ => turn = t
  | _ => false

/-- The turn has locked blocks, and requests in the queue or among the actions to come. -/
def Open (as : List (SchedAct ι)) (t : ι) : Prop :=
  (s.lockers t).blocks.isSome = true ∧
    ((∃ r ∈ s.waiting, r.turn = t) ∨ as.any (SchedAct.addsTo t) = true)

/-- For every other turn that is not over, the blocks handed out since it locked its own, those
handed out now and its own fit in the pool. -/
def PoolLasts (cfg : EngineConfig) (s : SchedulerState ι) (a : SchedAct ι)
    (as : List (SchedAct ι)) : Prop :=
  match a with
  | .step _ => ∀ o ∈ schedule cfg s, ∀ t, t ≠ o.request.turn → Open s as t →
      s.handedOutSince t + o.newBlocks.length + (s.entry t).length ≤ cfg.numGpuBlocks - 1
  | _ => True

instance (s : SchedulerState ι) (as : List (SchedAct ι)) (t : ι) : Decidable (Open s as t) :=
  inferInstanceAs (Decidable (_ ∧ _))

instance [Fintype ι] (cfg : EngineConfig) (s : SchedulerState ι) (a : SchedAct ι)
    (as : List (SchedAct ι)) : Decidable (PoolLasts cfg s a as) := by
  unfold PoolLasts
  split <;> infer_instance

/-! ## The order of the free queue -/

omit [DecidableEq ι] in
/-- The blocks handed out after one more step. -/
@[simp] lemma handedOutAfter_append (p : StepRecord ι → Bool) (log : List (StepRecord ι))
    (e : StepRecord ι) :
    handedOutAfter p (log ++ [e]) =
      if p e then 0 else e.newBlocks.length + handedOutAfter p log := by
  unfold handedOutAfter
  rw [reverse_append, reverse_singleton, singleton_append, takeWhile_cons]
  by_cases hp : p e = true
  · simp [hp]
  · simp [hp]

/-- The free queue holds every block once, and the blocks of a turn stand behind as many others as
have not been handed out since it locked them. -/
structure PoolInv (cfg : EngineConfig) (s : SchedulerState ι) : Prop where
  nodup : s.freeBlocks.Nodup
  length_eq : s.freeBlocks.length = cfg.numGpuBlocks - 1
  ahead : ∀ t e, (s.lockers t).blocks = some e →
    ∀ b ∈ s.freeBlocks.take (cfg.numGpuBlocks - 1 - e.length - s.handedOutSince t), b ∉ e

variable {cfg : EngineConfig} {s s' : SchedulerState ι} {o : Scheduled ι} {a : SchedAct ι}

/-- The whole pool is free at the start. -/
lemma poolInv_init (cfg : EngineConfig) :
    PoolInv cfg (SchedulerState.init cfg : SchedulerState ι) := by
  refine ⟨?_, by simp [SchedulerState.init], ?_⟩
  · exact (nodup_range).map (add_left_injective 1)
  · intro t e he
    cases he

omit [DecidableEq ι] in
/-- The blocks handed out are the front of the free queue. -/
lemma newBlocks_of_schedule (h : schedule cfg s = some o) :
    o.newBlocks = s.freeBlocks.take o.newBlocks.length ∧
      o.newBlocks.length ≤ s.freeBlocks.length := by
  obtain ⟨r, rest, n, -, -, hfree, rfl⟩ := schedule_eq_some h
  have hlen : (s.freeBlocks.take (cfg.blocksFor n)).length = cfg.blocksFor n := by
    rw [length_take, Nat.min_eq_left hfree]
  exact ⟨by rw [hlen], by rw [hlen]; exact hfree⟩

/-- A step recycles the blocks that it hands out. -/
lemma freeBlocks_of_schedule (h : schedule cfg s = some o) (token : Option ℕ) :
    (updateFromOutput cfg s o token).freeBlocks = recycle o.newBlocks.length s.freeBlocks := by
  rw [freeBlocks_updateFromOutput, recycle, ← (newBlocks_of_schedule h).1]

/-- An entry is made by the step from the blocks handed out, or was there before and the step locks
nothing for the turn. -/
lemma entry_after_step (h : schedule cfg s = some o) {token : Option ℕ} {t : ι} {e : List ℕ}
    (he : ((updateFromOutput cfg s o token).lockers t).blocks = some e) :
    (o.request.turn = t ∧ (recordOf cfg s o token).locks t = true ∧ e = o.newBlocks) ∨
      ((s.lockers t).blocks = some e ∧ (recordOf cfg s o token).locks t = false) := by
  by_cases hturn : o.request.turn = t
  · subst hturn
    rw [lockers_updateFromOutput_self] at he
    split_ifs at he with hadv
    · obtain ⟨r, rest, n, -, -, -, rfl⟩ := schedule_eq_some h
      cases hold : (s.lockers r.turn).blocks with
      | none =>
        simp only [Locker.advance, Locker.requestData, hold, Option.getD_none,
          Option.some.injEq] at he
        have hfresh : (s.lockers r.turn).blocks.isNone = true := by rw [hold]; rfl
        exact .inl ⟨rfl, decide_eq_true ⟨rfl, hfresh, hadv⟩, he.symm⟩
      | some e₀ =>
        simp only [Locker.advance, Locker.requestData, hold, Option.getD_some,
          Option.some.injEq] at he
        exact .inr ⟨by rw [he], by simp [StepRecord.locks, recordOf, hold]⟩
    · exact .inr ⟨he, by simp [StepRecord.locks, hadv]⟩
  · rw [lockers_updateFromOutput_of_ne _ _ token hturn] at he
    exact .inr ⟨he, by simp [StepRecord.locks, recordOf, hturn]⟩

/-- A step keeps the order of the free queue. -/
lemma poolInv_updateFromOutput (h : PoolInv cfg s) (ho : schedule cfg s = some o)
    (token : Option ℕ) : PoolInv cfg (updateFromOutput cfg s o token) := by
  obtain ⟨htake, hle⟩ := newBlocks_of_schedule ho
  have hlen := h.length_eq
  refine ⟨?_, ?_, ?_⟩
  · rw [freeBlocks_of_schedule ho]
    exact nodup_recycle h.nodup _
  · rw [freeBlocks_of_schedule ho, length_recycle, hlen]
  · intro t e he b hb
    rw [freeBlocks_of_schedule ho, SchedulerState.handedOutSince, log_updateFromOutput,
      handedOutAfter_append] at hb
    obtain ⟨-, hlock, rfl⟩ | ⟨hold, hlock⟩ := entry_after_step ho he
    · -- the blocks of this step are now the last ones of the queue
      rw [hlock, if_pos rfl, Nat.sub_zero, ← hlen] at hb
      rw [htake]
      exact notMem_take_of_mem_take_recycle h.nodup hle hb
    · -- an older entry has moved towards the front
      rw [hlock, if_neg Bool.false_ne_true] at hb
      set k := cfg.numGpuBlocks - 1 - e.length - s.handedOutSince t with hk
      have hnew : (recordOf cfg s o token).newBlocks.length = o.newBlocks.length := rfl
      have hcount : cfg.numGpuBlocks - 1 - e.length -
          ((recordOf cfg s o token).newBlocks.length + handedOutAfter (StepRecord.locks t) s.log) =
            k - o.newBlocks.length := by
        rw [hk, hnew, SchedulerState.handedOutSince]
        omega
      rw [hcount] at hb
      rcases Nat.le_total o.newBlocks.length k with hfit | hshort
      · refine h.ahead t e hold b ?_
        have hmem := mem_take_of_mem_take_recycle (by omega) hb
        rwa [Nat.sub_add_cancel hfit] at hmem
      · rw [Nat.sub_eq_zero_of_le hshort, take_zero] at hb
        cases hb

/-- Every event keeps the order of the free queue. -/
lemma poolInv_step (h : PoolInv cfg s) (hstep : schedStep cfg s a = some s') : PoolInv cfg s' := by
  obtain ⟨turn, idx, n, hn, rfl, -, rfl⟩ | ⟨turn, idx, rfl, rfl⟩ | ⟨token, o, rfl, ho, rfl⟩ :=
    schedStep_cases hstep
  · exact ⟨h.nodup, h.length_eq, h.ahead⟩
  · refine ⟨h.nodup, h.length_eq, fun t e he => ?_⟩
    by_cases ht : t = turn
    · subst ht
      rw [lockers_abortRequest_self] at he
      cases he
    · rw [lockers_abortRequest_of_ne _ idx ht] at he
      exact h.ahead t e he
  · exact poolInv_updateFromOutput h ho _

/-! ## Live turns stay apart while the pool lasts -/

/-- The order of the free queue, and disjoint entries for the turns that are not over. -/
structure OwnInv (cfg : EngineConfig) (s : SchedulerState ι) (as : List (SchedAct ι)) : Prop where
  pool : PoolInv cfg s
  disjoint : ∀ t u, t ≠ u → Open s as t → Open s as u → (s.entry t).Disjoint (s.entry u)

omit [DecidableEq ι] in
lemma entry_eq {t : ι} {e : List ℕ} (h : (s.lockers t).blocks = some e) : s.entry t = e := by
  rw [SchedulerState.entry, h, Option.getD_some]

/-- The blocks handed out while the pool lasts for a turn are not among those it has locked. -/
lemma disjoint_newBlocks (h : PoolInv cfg s) (ho : schedule cfg s = some o) {t : ι}
    (hlock : (s.lockers t).blocks.isSome = true) (hroom : s.handedOutSince t + o.newBlocks.length +
      (s.entry t).length ≤ cfg.numGpuBlocks - 1) : o.newBlocks.Disjoint (s.entry t) := by
  obtain ⟨e, he⟩ := Option.isSome_iff_exists.mp hlock
  rw [entry_eq he] at hroom ⊢
  intro b hnew hmem
  rw [(newBlocks_of_schedule ho).1] at hnew
  exact h.ahead t e he b (take_subset_take_left _ (by omega) hnew) hmem

/-- A turn that is not over after an event was not over before it, and has locked its blocks. -/
lemma open_of_step {t : ι} {as : List (SchedAct ι)} (hstep : schedStep cfg s a = some s')
    (hopen : Open s' as t) :
    (Open s (a :: as) t ∧ s'.entry t = s.entry t) ∨
      ∃ token o, a = .step token ∧ schedule cfg s = some o ∧ o.request.turn = t ∧
        s'.entry t = o.newBlocks := by
  obtain ⟨hlock, hmore⟩ := hopen
  obtain ⟨turn, idx, n, hn, rfl, -, rfl⟩ | ⟨turn, idx, rfl, rfl⟩ | ⟨token, o, rfl, ho, rfl⟩ :=
    schedStep_cases hstep
  · refine .inl ⟨⟨hlock, ?_⟩, rfl⟩
    obtain ⟨r, hr, rfl⟩ | hmore := hmore
    · rcases mem_append.mp hr with hr | hr
      · exact .inl ⟨r, hr, rfl⟩
      · obtain rfl := mem_singleton.mp hr
        exact .inr (by simp [SchedAct.addsTo])
    · exact .inr (by simp [hmore])
  · have hne : t ≠ turn := by
      rintro rfl
      rw [lockers_abortRequest_self] at hlock
      cases hlock
    rw [lockers_abortRequest_of_ne _ idx hne] at hlock
    refine .inl ⟨⟨hlock, ?_⟩, ?_⟩
    · obtain ⟨r, hr, rfl⟩ | hmore := hmore
      · exact .inl ⟨r, mem_of_mem_filter hr, rfl⟩
      · exact .inr (by simp [hmore])
    · rw [SchedulerState.entry, lockers_abortRequest_of_ne _ idx hne, SchedulerState.entry]
  · obtain ⟨e, he⟩ := Option.isSome_iff_exists.mp hlock
    rw [entry_eq he]
    obtain ⟨hturn, -, rfl⟩ | ⟨hold, -⟩ := entry_after_step ho he
    · exact .inr ⟨token, o, rfl, ho, hturn, rfl⟩
    · refine .inl ⟨⟨by rw [hold]; rfl, ?_⟩, (entry_eq hold).symm⟩
      obtain ⟨r, hr, rfl⟩ | hmore := hmore
      · obtain ⟨r₀, hr₀, hturn, -⟩ := exists_of_mem_waiting hr
        exact .inl ⟨r₀, hr₀, hturn.symm⟩
      · exact .inr (by simp [hmore])

/-- While the pool lasts, an event keeps the entries of the turns that are not over apart. -/
lemma ownInv_step {as : List (SchedAct ι)} (h : OwnInv cfg s (a :: as))
    (hlasts : PoolLasts cfg s a as) (hstep : schedStep cfg s a = some s') : OwnInv cfg s' as := by
  -- the entry of an older turn is disjoint from one that the step has just made
  have hnew : ∀ {token : ℕ} {o : Scheduled ι} {t : ι}, a = .step token → schedule cfg s = some o →
      t ≠ o.request.turn → Open s (a :: as) t → o.newBlocks.Disjoint (s.entry t) := by
    intro token o t ha ho hne hopen
    subst ha
    have hopen : Open s as t := by simpa [Open, SchedAct.addsTo] using hopen
    exact disjoint_newBlocks h.pool ho hopen.1 (hlasts o ho t hne hopen)
  refine ⟨poolInv_step h.pool hstep, fun t u hne ht hu => ?_⟩
  obtain ⟨hto, hte⟩ | ⟨token, o, ha, ho, rfl, hte⟩ := open_of_step hstep ht
  · obtain ⟨huo, hue⟩ | ⟨token, o, ha, ho, rfl, hue⟩ := open_of_step hstep hu
    · rw [hte, hue]
      exact h.disjoint t u hne hto huo
    · rw [hte, hue]
      exact List.disjoint_comm.mp (hnew ha ho hne hto)
  · obtain ⟨huo, hue⟩ | ⟨token', o', ha', ho', rfl, -⟩ := open_of_step hstep hu
    · rw [hte, hue]
      exact hnew ha ho hne.symm huo
    · cases ho.symm.trans ho'
      exact absurd rfl hne

/-- In every run in which the pool lasts, the locked blocks of distinct live turns are disjoint in
every state, and no step hands out a block that another live turn has locked. -/
theorem live_turns_own_blocks {acts : List (SchedAct ι)}
    (hlasts : AllStepsAhead (schedStep cfg) (PoolLasts cfg) (SchedulerState.init cfg) acts) :
    EveryState (schedStep cfg) LiveDisjoint (SchedulerState.init cfg) acts ∧
      AllSteps (schedStep cfg) (HandsOutOwn cfg) (SchedulerState.init cfg) acts := by
  refine everyState_allSteps_of_ahead (fun _ _ _ _ => ownInv_step) ?_ ?_
    (I := OwnInv cfg) ⟨poolInv_init cfg, ?_⟩ hlasts
  · intro s as h t u hne ht hu
    exact h.disjoint t u hne ⟨ht.1, .inl ht.2⟩ ⟨hu.1, .inl hu.2⟩
  · intro s a as h hok token ha o ho t hne hlive
    subst ha
    exact disjoint_newBlocks h.pool ho hlive.1 (hok o ho t hne ⟨hlive.1, .inl hlive.2⟩)
  · intro t u hne ht
    cases ht.1

/-- Two turns with a prefill and one relayed request each, in alternation. -/
def twoTurns : List (SchedAct Bool) :=
  [.add false 0 9, .add true 0 9, .add false 1 1, .add true 1 1, .step 5, .step 7, .step 6, .step 8]

/-- With five blocks besides the null block the pool lasts for the two turns. -/
theorem live_turns_own_blocks_twoTurns :
    EveryState (schedStep (smallEngine 6)) LiveDisjoint (SchedulerState.init (smallEngine 6))
        twoTurns ∧
      AllSteps (schedStep (smallEngine 6)) (HandsOutOwn (smallEngine 6))
        (SchedulerState.init (smallEngine 6)) twoTurns :=
  live_turns_own_blocks (by decide)

/-- With a single block besides the null block both turns lock it. -/
theorem live_turns_share_block :
    ∃ s, run (schedStep (smallEngine 2)) (SchedulerState.init (smallEngine 2)) (twoTurns.take 6) =
      some s ∧ ¬ LiveDisjoint s := by
  have hrun : (run (schedStep (smallEngine 2)) (SchedulerState.init (smallEngine 2))
      (twoTurns.take 6)).map (fun s => ((s.lockers false).blocks, (s.lockers true).blocks,
        s.waiting.map Request.turn)) = some (some [1], some [1], [false, true]) := by
    decide
  obtain ⟨s, hs, h⟩ := Option.map_eq_some_iff.mp hrun
  simp only [Prod.mk.injEq] at h
  obtain ⟨hfalse, htrue, hwaiting⟩ := h
  have hpending : ∀ t, ∃ r ∈ s.waiting, r.turn = t := by
    intro t
    refine mem_map.mp ?_
    rw [hwaiting]
    cases t <;> decide
  refine ⟨s, hs, fun hdisj => ?_⟩
  have hboth := hdisj false true Bool.false_ne_true ⟨by rw [hfalse]; rfl, hpending false⟩
    ⟨by rw [htrue]; rfl, hpending true⟩
  rw [entry_eq hfalse, entry_eq htrue] at hboth
  exact hboth (mem_singleton.mpr rfl) (mem_singleton.mpr rfl)

end OmniStreaming
