import OmniStreaming.Talker.TurnHistory

/-!
# The context and the locked blocks of a turn

To the base scheduler every relayed request is one of a single token: its length is checked against
`max_model_len` and its blocks are allocated for that token alone. The request that reaches the
runner continues a context that grows by one token with every step, in the blocks that were
allocated for the prefill.

The file says exactly which steps of a turn stay within `max_model_len` and the locked blocks.
-/

namespace OmniStreaming

open Transition

variable {ι : Type*} [DecidableEq ι]

/-- The tokens that the step computes end within the context and within the blocks it is given. -/
def WithinBounds (cfg : EngineConfig) (o : Scheduled ι) : Prop :=
  o.data.numComputedTokens + o.data.numScheduledTokens ≤ cfg.maxModelLen ∧
    o.data.numComputedTokens + o.data.numScheduledTokens ≤ cfg.blockSize * o.data.blockIds.length

/-- The prompt fits the context, and has one token if the request is not the first of its turn. -/
def ShortRequest (cfg : EngineConfig) (s : SchedulerState ι) (o : Scheduled ι) : Prop :=
  o.request.numPromptTokens ≤ cfg.maxModelLen ∧
    (s.stepsOf o.request.turn ≠ [] → o.request.numPromptTokens = 1)

/-- At an event no request of the turn is aborted, and a step of the turn is one of a short
request. -/
abbrev ShortRequests (cfg : EngineConfig) (t : ι) : SchedulerState ι → SchedAct ι → Prop :=
  StepsOfTurn cfg t (ShortRequest cfg)

instance (cfg : EngineConfig) (o : Scheduled ι) : Decidable (WithinBounds cfg o) :=
  inferInstanceAs (Decidable (_ ∧ _))

instance (cfg : EngineConfig) (s : SchedulerState ι) (o : Scheduled ι) :
    Decidable (ShortRequest cfg s o) := inferInstanceAs (Decidable (_ ∧ _))

variable {cfg : EngineConfig} {s s' : SchedulerState ι} {o : Scheduled ι} {a : SchedAct ι} {t : ι}

/-! ## One step -/

/-- The blocks allocated for a number of tokens hold them. -/
lemma le_mul_cdiv (a : ℕ) {b : ℕ} (hb : 0 < b) : a ≤ b * cdiv a b := by
  unfold cdiv
  have hdiv := Nat.div_add_mod (a + b - 1) b
  have hmod := Nat.mod_lt (a + b - 1) hb
  omega

/-- No more tokens are scheduled than the prompt has, and at least one. -/
lemma numNewTokens_bounds {numTokens n : ℕ} (hpos : 0 < numTokens)
    (h : cfg.numNewTokens numTokens = some n) : 0 < n ∧ n ≤ numTokens := by
  simp only [EngineConfig.numNewTokens] at h
  split_ifs at h <;> obtain rfl := Option.some.inj h <;> omega

omit [DecidableEq ι] in
/-- A request gets the blocks for its scheduled tokens, which are some of its prompt. -/
lemma newBlocks_length (ho : schedule cfg s = some o) :
    o.newBlocks.length = cfg.blocksFor o.data.numScheduledTokens ∧
      0 < o.data.numScheduledTokens ∧ o.data.numScheduledTokens ≤ o.request.numPromptTokens := by
  obtain ⟨r, rest, n, -, hn, hfree, rfl⟩ := schedule_eq_some ho
  refine ⟨?_, numNewTokens_bounds r.prompt_pos hn⟩
  rw [List.length_take, Nat.min_eq_left hfree]
  rfl

lemma blocksFor_of_le {n : ℕ} (h : n ≤ cfg.maxModelLen) :
    cfg.blocksFor n = cdiv n cfg.blockSize := by
  rw [EngineConfig.blocksFor, Nat.min_eq_left h]

/-! ## Whole turns -/

/-- With short requests, the first step that passed `check_stop` stayed within the context and got
blocks for its tokens, and every later one computed one token. -/
structure BoundInv (cfg : EngineConfig) (t : ι) (s : SchedulerState ι) : Prop where
  locker : LockerInv t s
  first : ∀ e ∈ (s.passedOf t).head?, e.data.numScheduledTokens ≤ cfg.maxModelLen ∧
    e.newBlocks.length = cdiv e.data.numScheduledTokens cfg.blockSize
  rest : ∀ e ∈ (s.passedOf t).tail, e.data.numScheduledTokens = 1

lemma boundInv_init (cfg : EngineConfig) (t : ι) :
    BoundInv cfg t (SchedulerState.init cfg : SchedulerState ι) where
  locker := lockerInv_init cfg t
  first := by simp [SchedulerState.passedOf, SchedulerState.stepsOf, SchedulerState.init]
  rest := by simp [SchedulerState.passedOf, SchedulerState.stepsOf, SchedulerState.init]

/-- A short request that is not the first to pass has one token scheduled. -/
lemma numScheduledTokens_eq_one (ho : schedule cfg s = some o) (hshort : ShortRequest cfg s o)
    (hne : s.passedOf o.request.turn ≠ []) : o.data.numScheduledTokens = 1 := by
  have hsteps : s.stepsOf o.request.turn ≠ [] := by
    intro hnil
    exact hne (by rw [SchedulerState.passedOf, hnil, List.filter_nil])
  obtain ⟨-, hpos, hle⟩ := newBlocks_length ho
  rw [hshort.2 hsteps] at hle
  omega

lemma boundInv_advance (h : BoundInv cfg o.request.turn s) (ho : schedule cfg s = some o)
    (hshort : ShortRequest cfg s o) {token : Option ℕ}
    (hadv : (recordOf cfg s o token).advanced = true)
    (hlock : LockerInv o.request.turn (updateFromOutput cfg s o token)) :
    BoundInv cfg o.request.turn (updateFromOutput cfg s o token) := by
  have hpass := passedOf_updateFromOutput_self cfg s o token
  rw [if_pos hadv] at hpass
  have hfirst := h.first
  have hrest := h.rest
  cases hold : s.passedOf o.request.turn with
  | nil =>
    -- the step is the one that locks the blocks
    obtain ⟨hlen, -, hle⟩ := newBlocks_length ho
    have hmax := hle.trans hshort.1
    rw [hold, List.nil_append] at hpass
    refine ⟨hlock, ?_, ?_⟩
    · intro e he
      rw [hpass] at he
      cases he
      exact ⟨hmax, hlen.trans (blocksFor_of_le hmax)⟩
    · intro e he
      rw [hpass] at he
      cases he
  | cons e₀ rest =>
    have hone := numScheduledTokens_eq_one ho hshort (by rw [hold]; exact List.cons_ne_nil _ _)
    rw [hold] at hpass hfirst hrest
    refine ⟨hlock, ?_, ?_⟩
    · rw [hpass]
      exact hfirst
    · intro e he
      rw [hpass] at he
      rcases List.mem_append.mp he with he | he
      · exact hrest e he
      · obtain rfl := List.mem_singleton.mp he
        exact hone

/-- Every event with short requests keeps the description of the turn. -/
lemma boundInv_step (h : BoundInv cfg t s) (hshort : ShortRequests cfg t s a)
    (hstep : schedStep cfg s a = some s') : BoundInv cfg t s' := by
  have hlock := lockerInv_step h.locker hshort.sparesTurn hstep
  obtain ⟨turn, idx, n, hn, rfl, -, rfl⟩ | ⟨turn, idx, rfl, rfl⟩ | ⟨x, o, rfl, ho, rfl⟩ :=
    schedStep_cases hstep
  · exact ⟨hlock, h.first, h.rest⟩
  · exact ⟨hlock, h.first, h.rest⟩
  · by_cases hturn : o.request.turn = t
    · subst hturn
      by_cases hadv : (recordOf cfg s o (o.sampled x)).advanced = true
      · exact boundInv_advance h ho (hshort o ho rfl) hadv hlock
      · have hpass := passedOf_updateFromOutput_self cfg s o (o.sampled x)
        rw [if_neg hadv] at hpass
        exact ⟨hlock, hpass ▸ h.first, hpass ▸ h.rest⟩
    · have hpass := passedOf_updateFromOutput_of_ne cfg s (o.sampled x) hturn
      exact ⟨hlock, hpass ▸ h.first, hpass ▸ h.rest⟩

/-- The steps that stay within the context and the locked blocks: those before one has passed
`check_stop`, and then exactly those for which the tokens of the first such step and the number of
such steps add up to at most `max_model_len` and what its blocks hold. -/
theorem withinBounds_iff {acts : List (SchedAct ι)}
    (hrun : run (schedStep cfg) (SchedulerState.init cfg) acts = some s)
    (hshorts : AllSteps (schedStep cfg) (ShortRequests cfg o.request.turn)
      (SchedulerState.init cfg) acts)
    (ho : schedule cfg s = some o) (hshort : ShortRequest cfg s o) :
    WithinBounds cfg o ↔
      ∀ e ∈ (s.passedOf o.request.turn).head?,
        e.data.numScheduledTokens + (s.passedOf o.request.turn).length ≤ cfg.maxModelLen ∧
        e.data.numScheduledTokens + (s.passedOf o.request.turn).length ≤
          cfg.blockSize * cdiv e.data.numScheduledTokens cfg.blockSize := by
  have h : BoundInv cfg o.request.turn s :=
    run_invariant_of_allSteps (fun _ _ _ hinv hok hs => boundInv_step hinv hok hs)
      (boundInv_init cfg _) hshorts hrun
  obtain ⟨hlen, -, hle⟩ := newBlocks_length ho
  have hdata : o.data.blockIds = (s.lockers o.request.turn).blocks.getD o.newBlocks ∧
      o.data.numComputedTokens = if (s.lockers o.request.turn).blocks.isSome then
        (s.lockers o.request.turn).historyCount else 0 := by
    obtain ⟨r, rest, n, -, -, -, rfl⟩ := schedule_eq_some ho
    exact ⟨rfl, rfl⟩
  unfold WithinBounds
  rw [hdata.1, hdata.2, h.locker.blocks, h.locker.count]
  cases hpassed : s.passedOf o.request.turn with
  | nil =>
    have hmax := hle.trans hshort.1
    have hblocks := le_mul_cdiv o.data.numScheduledTokens cfg.blockSize_pos
    rw [blocksFor_of_le hmax] at hlen
    simp [hmax, hlen, hblocks]
  | cons e rest =>
    have hone := numScheduledTokens_eq_one ho hshort (by rw [hpassed]; exact List.cons_ne_nil _ _)
    have hfirst := h.first e (by rw [hpassed]; rfl)
    have hrest := h.rest
    rw [hpassed, List.tail_cons] at hrest
    have hsum : (rest.map fun e => e.data.numScheduledTokens).sum = rest.length := by
      rw [List.map_congr_left hrest, List.map_const', List.sum_replicate_nat, Nat.mul_one]
    simp [hone, hsum, hfirst.2, Nat.add_assoc]

/-- A prefill of `n` tokens that samples a token, and the request behind it. -/
def prefillThenOne (n : ℕ) : List (SchedAct ℕ) := [.add 0 0 n, .step 5, .add 0 1 1]

/-- Behind a prefill of 15 tokens the first relayed step fills the block. -/
theorem withinBounds_fifteen :
    ∃ s o, run (schedStep (smallEngine 8)) (SchedulerState.init (smallEngine 8))
        (prefillThenOne 15) = some s ∧
      schedule (smallEngine 8) s = some o ∧ WithinBounds (smallEngine 8) o := by
  obtain ⟨s, o, hs, ho, hturn, hshort, hroom⟩ : ∃ s o,
      run (schedStep (smallEngine 8)) (SchedulerState.init (smallEngine 8)) (prefillThenOne 15) =
        some s ∧
      schedule (smallEngine 8) s = some o ∧ o.request.turn = 0 ∧
      ShortRequest (smallEngine 8) s o ∧ ∀ e ∈ (s.passedOf o.request.turn).head?,
        e.data.numScheduledTokens + (s.passedOf o.request.turn).length ≤ 64 ∧
        e.data.numScheduledTokens + (s.passedOf o.request.turn).length ≤
          16 * cdiv e.data.numScheduledTokens 16 :=
    exists_of_run (by decide)
  refine ⟨s, o, hs, ho, (withinBounds_iff hs ?_ ho hshort).mpr hroom⟩
  rw [hturn]
  decide

/-- Behind a prefill of 16 tokens it is past the only locked block. -/
theorem withinBounds_fails_sixteen :
    ∃ s o, run (schedStep (smallEngine 8)) (SchedulerState.init (smallEngine 8))
        (prefillThenOne 16) = some s ∧
      schedule (smallEngine 8) s = some o ∧ ShortRequest (smallEngine 8) s o ∧
      ¬ WithinBounds (smallEngine 8) o :=
  exists_of_run (by decide)

end OmniStreaming
