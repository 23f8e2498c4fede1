import OmniStreaming.Talker.TurnHistory

/-!
# The payload that one talker request hands to the next

The token and the history that a request needs reach it on two ways: `update_from_output` pushes
them into the request if it is waiting when its predecessor completes, and `schedule` pulls them
out of the lockers when the request is scheduled. The second way tests the token for truth, and a
codec token may be 0.

The file follows one turn through a run with any number of other turns and says exactly when a
scheduled request carries its payload.
-/

namespace OmniStreaming

open List Transition

variable {ι : Type*} [DecidableEq ι]

/-! ## Turns in order -/

/-- The token ends no turn: it is neither an end of sequence nor a stop token. -/
def EngineConfig.Codec (cfg : EngineConfig) (token : ℕ) : Prop :=
  ¬ (cfg.ignoreEos = false ∧ cfg.eosTokenId = some token) ∧ token ∉ cfg.stopTokenIds ∧
    token ≠ stopToken

/-- A request with `numPromptTokens` tokens that samples a codec token is not ended for its
length. -/
def EngineConfig.Fits (cfg : EngineConfig) (numPromptTokens : ℕ) : Prop :=
  1 < cfg.minTokens ∨ (numPromptTokens + 1 < cfg.maxModelLen ∧ 1 < cfg.maxTokens)

/-- The scheduled request is the next of its turn: its index is the number of the turn's steps, it
has one token unless it is the first, and its whole prompt is scheduled. -/
@[mk_iff]
structure InOrder (s : SchedulerState ι) (o : Scheduled ι) : Prop where
  idx_eq : o.request.idx = (s.stepsOf o.request.turn).length
  one_token : 0 < o.request.idx → o.request.numPromptTokens = 1
  whole : o.data.numScheduledTokens = o.request.numPromptTokens

/-- The scheduled request is the next one of its turn, and no token of the turn so far was one that
ends it. -/
@[mk_iff]
structure NextOfTurn (cfg : EngineConfig) (s : SchedulerState ι) (o : Scheduled ι) : Prop
    extends InOrder s o where
  codec : ∀ x ∈ tokensIn (s.stepsOf o.request.turn), cfg.Codec x

/-- No request of the turn is aborted, and a step of the turn is that of its next request, with
codec tokens before it. -/
abbrev RelaysTurn (cfg : EngineConfig) (t : ι) : SchedulerState ι → SchedAct ι → Prop :=
  StepsOfTurn cfg t (NextOfTurn cfg)

/-- The request was in the queue when its predecessor completed. -/
def QueuedInTime (s : SchedulerState ι) (r : Request ι) : Prop :=
  ∃ e ∈ s.log.drop r.arrivedAt, e.request.turn = r.turn ∧ e.request.idx + 1 = r.idx

/-- The data of request `k + 1` carries the token sampled by request `k` and all tokens sampled up
to `k`. -/
def CarriesPayload (s : SchedulerState ι) (o : Scheduled ι) (k : ℕ) : Prop :=
  o.data.info.predictedAudioToken = (tokensIn (s.stepsOf o.request.turn))[k]? ∧
    o.data.info.audioHistory = some ((tokensIn (s.stepsOf o.request.turn)).take (k + 1))

instance (cfg : EngineConfig) : DecidablePred cfg.Codec := fun _ =>
  inferInstanceAs (Decidable (_ ∧ _))

instance (cfg : EngineConfig) : DecidablePred cfg.Fits := fun _ =>
  inferInstanceAs (Decidable (_ ∨ _))

instance (s : SchedulerState ι) (o : Scheduled ι) (k : ℕ) : Decidable (CarriesPayload s o k) :=
  inferInstanceAs (Decidable (_ ∧ _))

instance (s : SchedulerState ι) (o : Scheduled ι) : Decidable (InOrder s o) :=
  decidable_of_iff' _ (inOrder_iff s o)

instance (cfg : EngineConfig) (s : SchedulerState ι) (o : Scheduled ι) :
    Decidable (NextOfTurn cfg s o) := decidable_of_iff' _ (nextOfTurn_iff cfg s o)

instance (s : SchedulerState ι) (r : Request ι) : Decidable (QueuedInTime s r) :=
  inferInstanceAs (Decidable (∃ e ∈ _, _))

/-! ## Steps that pass `check_stop` -/

variable {cfg : EngineConfig} {s s' : SchedulerState ι} {o : Scheduled ι} {a : SchedAct ι} {t : ι}
  {token : Option ℕ}

/-- A request that is not the first of its turn has a step before it. -/
lemma InOrder.stepsOf_ne_nil (h : InOrder s o) (hidx : 0 < o.request.idx) :
    s.stepsOf o.request.turn ≠ [] := by
  rw [h.idx_eq] at hidx
  exact length_pos_iff.mp hidx

/-- With a codec token at the end, only the length can end a request. -/
lemma checkStop_eq_none_iff {numPromptTokens x : ℕ} (hx : cfg.Codec x) :
    cfg.checkStop (numPromptTokens + 1) 1 x = none ↔ cfg.Fits numPromptTokens := by
  obtain ⟨heos, hstop, -⟩ := hx
  unfold EngineConfig.checkStop EngineConfig.Fits
  rw [if_neg heos, if_neg hstop]
  split_ifs with hmin hlen
  · simp [hmin]
  · simp only [false_iff]
    omega
  · simp only [true_iff]
    omega

omit [DecidableEq ι] in
lemma sampled_of_whole (h : o.data.numScheduledTokens = o.request.numPromptTokens) (x : ℕ) :
    o.sampled x = some x := by
  rw [Scheduled.sampled, if_neg (by omega)]

/-- While only codec tokens are sampled, a step of the turn passes `check_stop` iff its request
fits. -/
lemma advanced_iff_fits (hlock : LockerInv o.request.turn s) (ho : schedule cfg s = some o) {x : ℕ}
    (hcodec : ∀ y ∈ tokensIn (s.stepsOf o.request.turn) ++ [x], cfg.Codec y) :
    (recordOf cfg s o (some x)).advanced = true ↔ cfg.Fits o.request.numPromptTokens := by
  have hhist : o.history = tokensIn (s.passedOf o.request.turn) := by
    obtain ⟨r, rest, n, -, -, -, rfl⟩ := schedule_eq_some ho
    exact hlock.history
  -- the token at the end of `output_token_ids` is one that the turn has sampled
  obtain ⟨last, hlast, hmem⟩ : ∃ last,
      (if o.history = [] then (some x).toList else o.history).getLast? = some last ∧
        last ∈ tokensIn (s.stepsOf o.request.turn) ++ [x] := by
    split_ifs with hnil
    · exact ⟨x, rfl, by simp⟩
    · refine ⟨o.history.getLast hnil, getLast?_eq_some_getLast hnil, ?_⟩
      have hin : o.history.getLast hnil ∈ tokensIn (s.passedOf o.request.turn) :=
        hhist ▸ getLast_mem hnil
      obtain ⟨e, he, hx⟩ := mem_filterMap.mp hin
      exact mem_append_left _ (mem_filterMap.mpr ⟨e, mem_of_mem_filter he, hx⟩)
  rw [recordOf, Option.isNone_iff_eq_none, Scheduled.stopReason, hlast]
  exact checkStop_eq_none_iff (hcodec last hmem)

/-! ## The requests that wait -/

/-- The last step of the turn passed `check_stop`. -/
def SchedulerState.lastPassed (s : SchedulerState ι) (t : ι) : Bool :=
  (s.stepsOf t).getLast?.any fun e => e.advanced

/-- A turn relayed in order: the lockers summarise its past, every step has sampled a token, a step
passed `check_stop` iff its request fits, all requests but the first had one token, and a waiting
request has the locked payload if the last step passed and found it waiting, and none otherwise. -/
structure TurnInv (cfg : EngineConfig) (t : ι) (s : SchedulerState ι) : Prop where
  locker : LockerInv t s
  sampled : ∀ e ∈ s.stepsOf t, e.newTokenId.isSome = true
  one_token : ∀ e ∈ (s.stepsOf t).tail, e.request.numPromptTokens = 1
  advanced_iff : (∀ x ∈ tokensIn (s.stepsOf t), cfg.Codec x) → ∀ e ∈ s.stepsOf t,
    (e.advanced = true ↔ cfg.Fits e.request.numPromptTokens)
  arrived : ∀ r ∈ s.waiting, r.arrivedAt ≤ s.log.length
  later : ∀ r ∈ s.waiting, r.turn = t → (s.stepsOf t).length < r.idx → r.info = {}
  next : ∀ r ∈ s.waiting, r.turn = t → r.idx = (s.stepsOf t).length →
    r.info =
      if QueuedInTime s r ∧ s.lastPassed t = true then
        { predictedAudioToken := (s.lockers t).token
          audioHistory := some (s.lockers t).outputHistory }
      else {}

lemma turnInv_init (cfg : EngineConfig) (t : ι) :
    TurnInv cfg t (SchedulerState.init cfg : SchedulerState ι) where
  locker := lockerInv_init cfg t
  sampled := by simp [SchedulerState.stepsOf, SchedulerState.init]
  one_token := by simp [SchedulerState.stepsOf, SchedulerState.init]
  advanced_iff := by simp [SchedulerState.stepsOf, SchedulerState.init]
  arrived := by simp [SchedulerState.init]
  later := by simp [SchedulerState.init]
  next := by simp [SchedulerState.init]

/-- A step makes exactly the next request of its turn one that was queued in time. -/
lemma queuedInTime_updateFromOutput (cfg : EngineConfig) (o : Scheduled ι) (token : Option ℕ)
    {r r₀ : Request ι}
    (hturn : r.turn = r₀.turn) (hidx : r.idx = r₀.idx) (harr : r.arrivedAt = r₀.arrivedAt)
    (hle : r₀.arrivedAt ≤ s.log.length) :
    QueuedInTime (updateFromOutput cfg s o token) r ↔
      QueuedInTime s r₀ ∨ (o.request.turn = r.turn ∧ o.request.idx + 1 = r.idx) := by
  unfold QueuedInTime
  rw [log_updateFromOutput, harr, drop_append_of_le_length hle, hturn, hidx]
  constructor
  · rintro ⟨e, he, hmatch⟩
    rcases mem_append.mp he with he | he
    · exact .inl ⟨e, he, hmatch⟩
    · obtain rfl := mem_singleton.mp he
      exact .inr hmatch
  · rintro (⟨e, he, hmatch⟩ | hmatch)
    · exact ⟨e, mem_append_left _ he, hmatch⟩
    · exact ⟨_, mem_append_right _ (mem_singleton.mpr rfl), hmatch⟩

/-- The step passes as its record says. -/
lemma lastPassed_updateFromOutput_self (token : Option ℕ) :
    (updateFromOutput cfg s o token).lastPassed o.request.turn =
      (recordOf cfg s o token).advanced := by
  rw [SchedulerState.lastPassed, stepsOf_updateFromOutput_self, getLast?_concat]
  rfl

lemma arrived_updateFromOutput (h : ∀ r ∈ s.waiting, r.arrivedAt ≤ s.log.length) :
    ∀ r ∈ (updateFromOutput cfg s o token).waiting,
      r.arrivedAt ≤ (updateFromOutput cfg s o token).log.length := by
  intro r hr
  obtain ⟨r₀, hr₀, -, -, harr, -⟩ := exists_of_mem_waiting hr
  rw [harr, log_updateFromOutput, length_append]
  exact (h r₀ hr₀).trans (Nat.le_add_right _ _)

/-- A step of another turn leaves the state of the turn. -/
lemma turnInv_step_other (h : TurnInv cfg t s) (hne : o.request.turn ≠ t)
    (hlock : LockerInv t (updateFromOutput cfg s o token)) :
    TurnInv cfg t (updateFromOutput cfg s o token) := by
  have hsteps := stepsOf_updateFromOutput_of_ne cfg s token hne
  have hlockers := lockers_updateFromOutput_of_ne cfg s token hne
  have hlast : (updateFromOutput cfg s o token).lastPassed t = s.lastPassed t := by
    rw [SchedulerState.lastPassed, hsteps, SchedulerState.lastPassed]
  refine ⟨hlock, hsteps ▸ h.sampled, hsteps ▸ h.one_token, hsteps ▸ h.advanced_iff, ?_, ?_, ?_⟩
  · exact arrived_updateFromOutput h.arrived
  · intro r hr hturn hidx
    obtain ⟨r₀, hr₀, -, -, -, heq⟩ := exists_of_mem_waiting hr
    obtain rfl := heq (hturn ▸ hne.symm)
    rw [hsteps] at hidx
    exact h.later r hr₀ hturn hidx
  · intro r hr hturn hidx
    obtain ⟨r₀, hr₀, htr, hid, harr, heq⟩ := exists_of_mem_waiting hr
    have hqueued := queuedInTime_updateFromOutput cfg o token htr hid harr
      (h.arrived r₀ hr₀)
    rw [hsteps] at hidx
    obtain rfl := heq (hturn ▸ hne.symm)
    rw [h.next r hr₀ hturn hidx, hlast, hlockers]
    have hsame : QueuedInTime (updateFromOutput cfg s o token) r ↔ QueuedInTime s r := by
      rw [hqueued]
      exact or_iff_left fun hmatch => hne (hmatch.1.trans hturn)
    simp only [hsame]

/-- After a step, the request behind it has the payload if it passed `check_stop`, the later ones
none. -/
lemma info_of_mem_waiting_self (h : TurnInv cfg o.request.turn s) (hnext : InOrder s o) {x : ℕ}
    {r : Request ι} (hr : r ∈ (updateFromOutput cfg s o (some x)).waiting)
    (hturn : r.turn = o.request.turn) (hidx : o.request.idx < r.idx) :
    r.info =
      if (recordOf cfg s o (some x)).advanced = true ∧ r.idx = o.request.idx + 1 then
        { predictedAudioToken := some x
          audioHistory := some ((s.lockers o.request.turn).outputHistory ++ [x]) }
      else {} := by
  obtain ⟨r₀, hr₀, htr, hid, -, hinfo⟩ := mem_waiting_updateFromOutput hr
  by_cases hpushed : (recordOf cfg s o (some x)).advanced = true ∧ r.idx = o.request.idx + 1
  · rw [if_pos ⟨hpushed.1, hturn, hpushed.2⟩] at hinfo
    rw [if_pos hpushed, hinfo]
  · rw [if_neg (fun hc => hpushed ⟨hc.1, hc.2.2⟩)] at hinfo
    subst hinfo
    rw [if_neg hpushed]
    exact h.later r hr₀ hturn (by rw [← hnext.idx_eq]; exact hidx)

lemma turnInv_step_self (h : TurnInv cfg o.request.turn s) (ho : schedule cfg s = some o)
    (hnext : InOrder s o) {x : ℕ}
    (hlock : LockerInv o.request.turn (updateFromOutput cfg s o (some x))) :
    TurnInv cfg o.request.turn (updateFromOutput cfg s o (some x)) := by
  have hsteps := stepsOf_updateFromOutput_self cfg s o (some x)
  have hlen : ((updateFromOutput cfg s o (some x)).stepsOf o.request.turn).length =
      o.request.idx + 1 := by
    rw [hsteps, length_append, length_singleton, hnext.idx_eq]
  refine ⟨hlock, ?_, ?_, ?_, arrived_updateFromOutput h.arrived, ?_, ?_⟩
  · intro e he
    rw [hsteps] at he
    rcases mem_append.mp he with he | he
    · exact h.sampled e he
    · obtain rfl := mem_singleton.mp he
      rfl
  · intro e he
    rw [hsteps] at he
    cases hold : s.stepsOf o.request.turn with
    | nil =>
      rw [hold] at he
      cases he
    | cons e₀ rest =>
      have hone := h.one_token
      have hidx := hnext.idx_eq
      rw [hold] at he hone hidx
      rcases mem_append.mp he with he | he
      · exact hone e he
      · obtain rfl := mem_singleton.mp he
        exact hnext.one_token (by rw [hidx, length_cons]; omega)
  · intro hcodec e he
    rw [hsteps, tokensIn_append_singleton] at hcodec
    rw [hsteps] at he
    rcases mem_append.mp he with he | he
    · exact h.advanced_iff (fun y hy => hcodec y (mem_append_left _ hy)) e he
    · obtain rfl := mem_singleton.mp he
      exact advanced_iff_fits h.locker ho hcodec
  · intro r hr hturn hidx
    rw [hlen] at hidx
    rw [info_of_mem_waiting_self h hnext hr hturn (by omega), if_neg (fun hc => by omega)]
  · intro r hr hturn hidx
    rw [hlen] at hidx
    obtain ⟨r₀, hr₀, htr, hid, harr, -⟩ := exists_of_mem_waiting hr
    have hqueued : QueuedInTime (updateFromOutput cfg s o (some x)) r :=
      (queuedInTime_updateFromOutput cfg o _ htr hid harr (h.arrived r₀ hr₀)).mpr
        (.inr ⟨hturn.symm, hidx.symm⟩)
    rw [info_of_mem_waiting_self h hnext hr hturn (by omega), lastPassed_updateFromOutput_self,
      lockers_updateFromOutput_self]
    by_cases hadv : (recordOf cfg s o (some x)).advanced = true
    · rw [if_pos ⟨hadv, hidx⟩, if_pos ⟨hqueued, hadv⟩, if_pos hadv]
      rfl
    · rw [if_neg (fun hc => hadv hc.1), if_neg (fun hc => hadv hc.2)]

lemma turnInv_step (h : TurnInv cfg t s) (hrelay : StepsOfTurn cfg t InOrder s a)
    (hstep : schedStep cfg s a = some s') : TurnInv cfg t s' := by
  have hlock := lockerInv_step h.locker hrelay.sparesTurn hstep
  obtain ⟨turn, idx, n, hn, rfl, -, rfl⟩ | ⟨turn, idx, rfl, rfl⟩ | ⟨x, o, rfl, ho, rfl⟩ :=
    schedStep_cases hstep
  · refine ⟨hlock, h.sampled, h.one_token, h.advanced_iff, ?_, ?_, ?_⟩
    · intro r hr
      rcases mem_append.mp hr with hr | hr
      · exact h.arrived r hr
      · obtain rfl := mem_singleton.mp hr
        exact Nat.le_refl _
    · intro r hr hturn hidx
      rcases mem_append.mp hr with hr | hr
      · exact h.later r hr hturn hidx
      · obtain rfl := mem_singleton.mp hr
        rfl
    · intro r hr hturn hidx
      rcases mem_append.mp hr with hr | hr
      · exact h.next r hr hturn hidx
      · -- nothing has completed since the request arrived
        obtain rfl := mem_singleton.mp hr
        rw [if_neg]
        rintro ⟨⟨e, he, -⟩, -⟩
        rw [SchedulerState.addRequest, drop_length] at he
        cases he
  · have hlockers := lockers_abortRequest_of_ne s idx (Ne.symm hrelay)
    refine ⟨hlock, h.sampled, h.one_token, h.advanced_iff,
      fun r hr => h.arrived r (mem_of_mem_filter hr),
      fun r hr => h.later r (mem_of_mem_filter hr), fun r hr hturn hidx => ?_⟩
    rw [hlockers]
    exact h.next r (mem_of_mem_filter hr) hturn hidx
  · by_cases hturn : o.request.turn = t
    · subst hturn
      have hnext := hrelay o ho rfl
      rw [sampled_of_whole hnext.whole] at hlock ⊢
      exact turnInv_step_self h ho hnext hlock
    · exact turnInv_step_other h hturn hlock

/-! ## When the payload is there -/

omit [DecidableEq ι] in
lemma map_some_tokensIn {steps : List (StepRecord ι)}
    (h : ∀ e ∈ steps, e.newTokenId.isSome = true) :
    (tokensIn steps).map some = steps.map fun e => e.newTokenId := by
  induction steps with
  | nil => rfl
  | cons e steps ih =>
    obtain ⟨x, hx⟩ := Option.isSome_iff_exists.mp (h e mem_cons_self)
    have htail := ih fun e' he' => h e' (mem_cons_of_mem _ he')
    simpa [tokensIn, hx] using htail

omit [DecidableEq ι] in
lemma length_tokensIn {steps : List (StepRecord ι)} (h : ∀ e ∈ steps, e.newTokenId.isSome = true) :
    (tokensIn steps).length = steps.length := by
  have hlen := congrArg length (map_some_tokensIn h)
  rwa [length_map, length_map] at hlen

/-- If the first request of the turn fits, every step has passed `check_stop`. -/
lemma passedOf_eq_stepsOf (h : TurnInv cfg t s) (hcodec : ∀ x ∈ tokensIn (s.stepsOf t), cfg.Codec x)
    (hfits : ∀ e ∈ (s.stepsOf t).head?, cfg.Fits e.request.numPromptTokens) :
    s.passedOf t = s.stepsOf t := by
  refine filter_eq_self.mpr fun e he => (h.advanced_iff hcodec e he).mpr ?_
  have hone := h.one_token
  cases hsteps : s.stepsOf t with
  | nil =>
    rw [hsteps] at he
    cases he
  | cons e₀ rest =>
    rw [hsteps] at he hone hfits
    have hfirst : cfg.Fits e₀.request.numPromptTokens := hfits e₀ rfl
    rcases mem_cons.mp he with rfl | he
    · exact hfirst
    · rw [hone e he]
      have hpos := e₀.request.prompt_pos
      unfold EngineConfig.Fits at hfirst ⊢
      omega

/-- If the first request of the turn does not fit, the lockers lack a token. -/
lemma length_history_lt (h : TurnInv cfg t s) (hcodec : ∀ x ∈ tokensIn (s.stepsOf t), cfg.Codec x)
    {e : StepRecord ι} (he : e ∈ s.stepsOf t) (hfits : ¬ cfg.Fits e.request.numPromptTokens) :
    (s.lockers t).outputHistory.length < (s.stepsOf t).length := by
  have hpassed : ∀ e ∈ s.passedOf t, e.newTokenId.isSome = true := fun e he =>
    h.sampled e (mem_of_mem_filter he)
  rw [h.locker.history, length_tokensIn hpassed]
  have hnot : e.advanced ≠ true := fun hadv => hfits ((h.advanced_iff hcodec e he).mp hadv)
  exact length_filter_lt_length_iff_exists.mpr ⟨e, he, by simpa using hnot⟩

/-- The locked token is there and is not 0, or the request was queued when its predecessor passed
`check_stop`. -/
def PayloadArrives (s : SchedulerState ι) (o : Scheduled ι) : Prop :=
  (s.lockers o.request.turn).token ≠ none ∧ (s.lockers o.request.turn).token ≠ some 0 ∨
    QueuedInTime s o.request ∧ s.lastPassed o.request.turn = true

instance (s : SchedulerState ι) (o : Scheduled ι) : Decidable (PayloadArrives s o) :=
  inferInstanceAs (Decidable (_ ∨ _))

/-- The payload of the next request of the turn. -/
lemma info_of_schedule (h : TurnInv cfg o.request.turn s) (ho : schedule cfg s = some o)
    (hnext : InOrder s o) :
    o.data.info =
      if PayloadArrives s o then
        { predictedAudioToken := (s.lockers o.request.turn).token
          audioHistory := some (s.lockers o.request.turn).outputHistory }
      else {} := by
  obtain ⟨hmem, hdata⟩ : o.request ∈ s.waiting ∧
      o.data.info = (s.lockers o.request.turn).mergePayload o.request.info := by
    obtain ⟨r, rest, n, hwaiting, -, -, rfl⟩ := schedule_eq_some ho
    exact ⟨by rw [hwaiting]; exact mem_cons_self, rfl⟩
  rw [hdata, Locker.mergePayload_eq, h.next o.request hmem rfl hnext.idx_eq]
  by_cases htoken : (s.lockers o.request.turn).token ≠ none ∧
      (s.lockers o.request.turn).token ≠ some 0
  · rw [if_pos htoken, if_pos (.inl htoken)]
  · rw [if_neg htoken]
    by_cases hqueued : QueuedInTime s o.request ∧ s.lastPassed o.request.turn = true
    · rw [if_pos hqueued, if_pos (.inr hqueued)]
    · rw [if_neg hqueued, if_neg (fun harrives => harrives.elim htoken hqueued)]

/-- If every step has passed `check_stop`, the payload is missing only behind the token 0 at a
request not queued in time. -/
lemma payloadArrives_iff (h : TurnInv cfg o.request.turn s)
    (hpassed : s.passedOf o.request.turn = s.stepsOf o.request.turn)
    (hne : s.stepsOf o.request.turn ≠ []) :
    PayloadArrives s o ↔
      QueuedInTime s o.request ∨ (tokensIn (s.stepsOf o.request.turn)).getLast? ≠ some 0 := by
  have htoken : (s.lockers o.request.turn).token ≠ none := by
    rw [h.locker.token, hpassed, Ne, getLast?_eq_none_iff, ← length_eq_zero_iff,
      length_tokensIn h.sampled, length_eq_zero_iff]
    exact hne
  have hlast : s.lastPassed o.request.turn = true := by
    have hmem : (s.stepsOf o.request.turn).getLast hne ∈ s.passedOf o.request.turn := by
      rw [hpassed]
      exact getLast_mem hne
    rw [SchedulerState.lastPassed, getLast?_eq_some_getLast hne]
    exact (mem_filter.mp hmem).2
  rw [PayloadArrives, ← hpassed, ← h.locker.token]
  constructor
  · rintro (⟨-, hx⟩ | ⟨hq, -⟩)
    · exact .inr hx
    · exact .inl hq
  · rintro (hq | hx)
    · exact .inr ⟨hq, hlast⟩
    · exact .inl ⟨htoken, hx⟩

/-- A request carries its payload iff the first request of the turn was not ended for its length,
and the request was queued when its predecessor completed or the token of that is not 0. -/
theorem carriesPayload_iff {acts : List (SchedAct ι)} {k : ℕ}
    (hrun : run (schedStep cfg) (SchedulerState.init cfg) acts = some s)
    (hrelay : AllSteps (schedStep cfg) (RelaysTurn cfg o.request.turn) (SchedulerState.init cfg)
      acts)
    (ho : schedule cfg s = some o) (hnext : NextOfTurn cfg s o) (hk : o.request.idx = k + 1) :
    CarriesPayload s o k ↔
      (∀ e ∈ (s.stepsOf o.request.turn).head?, cfg.Fits e.request.numPromptTokens) ∧
        (QueuedInTime s o.request ∨ (tokensIn (s.stepsOf o.request.turn))[k]? ≠ some 0) := by
  have h : TurnInv cfg o.request.turn s :=
    run_invariant_of_allSteps
      (fun _ _ _ hinv hok hs => turnInv_step hinv (hok.mono fun _ _ h => h.toInOrder) hs)
      (turnInv_init cfg _) hrelay hrun
  have hsteps : (s.stepsOf o.request.turn).length = k + 1 := by rw [← hnext.idx_eq, hk]
  have hlen : (tokensIn (s.stepsOf o.request.turn)).length = k + 1 := by
    rw [length_tokensIn h.sampled, hsteps]
  have hinfo := info_of_schedule h ho hnext.toInOrder
  unfold CarriesPayload
  rw [take_of_length_le hlen.le]
  by_cases hfits : ∀ e ∈ (s.stepsOf o.request.turn).head?, cfg.Fits e.request.numPromptTokens
  · -- everything has passed, so the lockers hold the whole history
    have hpassed := passedOf_eq_stepsOf h hnext.codec hfits
    have hlast : (tokensIn (s.stepsOf o.request.turn)).getLast? =
        (tokensIn (s.stepsOf o.request.turn))[k]? := by
      rw [getLast?_eq_getElem?, hlen, Nat.add_sub_cancel]
    have harrives := payloadArrives_iff h hpassed (ne_nil_of_length_eq_add_one hsteps)
    rw [hlast] at harrives
    rw [hinfo, h.locker.token, h.locker.history, hpassed, hlast, ← harrives]
    by_cases hc : PayloadArrives s o
    · rw [if_pos hc]
      exact iff_of_true ⟨rfl, rfl⟩ ⟨hfits, hc⟩
    · rw [if_neg hc]
      exact iff_of_false (fun hcarry => by cases hcarry.2) (fun hcond => hc hcond.2)
  · -- the first step is missing in the lockers
    obtain ⟨e, he, hnot⟩ : ∃ e ∈ s.stepsOf o.request.turn,
        ¬ cfg.Fits e.request.numPromptTokens := by
      push Not at hfits
      obtain ⟨e, he, hnot⟩ := hfits
      exact ⟨e, mem_of_mem_head? he, hnot⟩
    have hshort := length_history_lt h hnext.codec he hnot
    refine iff_of_false ?_ (fun hc => hfits hc.1)
    rintro ⟨-, hhist⟩
    rw [hinfo] at hhist
    split_ifs at hhist
    have heq : (s.lockers o.request.turn).outputHistory = tokensIn (s.stepsOf o.request.turn) :=
      Option.some.inj hhist
    rw [heq] at hshort
    omega

/-- A request that arrives after its predecessor has sampled `x`. -/
def lateRequest (x : ℕ) : List (SchedAct ℕ) := [.add 0 0 9, .step x, .add 0 1 1]

/-- A late request carries its payload if the token before it is not 0. -/
theorem carriesPayload_late_nonzero :
    ∃ s o, run (schedStep (smallEngine 8)) (SchedulerState.init (smallEngine 8)) (lateRequest 5) =
        some s ∧
      schedule (smallEngine 8) s = some o ∧ CarriesPayload s o 0 := by
  obtain ⟨s, o, hs, ho, hturn, hnext, hidx, hfits, htoken⟩ : ∃ s o,
      run (schedStep (smallEngine 8)) (SchedulerState.init (smallEngine 8)) (lateRequest 5) =
        some s ∧
      schedule (smallEngine 8) s = some o ∧ o.request.turn = 0 ∧ NextOfTurn (smallEngine 8) s o ∧
      o.request.idx = 1 ∧
      (∀ e ∈ (s.stepsOf o.request.turn).head?, (smallEngine 8).Fits e.request.numPromptTokens) ∧
      (tokensIn (s.stepsOf o.request.turn))[0]? ≠ some 0 :=
    exists_of_run (by decide)
  refine ⟨s, o, hs, ho, (carriesPayload_iff hs ?_ ho hnext hidx).mpr ⟨hfits, .inr htoken⟩⟩
  rw [hturn]
  decide

/-- A late request behind the token 0 carries none. -/
theorem carriesPayload_fails_late_zero :
    ∃ s o, run (schedStep (smallEngine 8)) (SchedulerState.init (smallEngine 8)) (lateRequest 0) =
        some s ∧
      schedule (smallEngine 8) s = some o ∧ NextOfTurn (smallEngine 8) s o ∧ o.request.idx = 1 ∧
      ¬ CarriesPayload s o 0 :=
  exists_of_run (by decide)

end OmniStreaming
