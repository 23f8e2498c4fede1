import Mathlib.Data.List.Nodup
import OmniStreaming.Lib.Transition
import OmniStreaming.Duplex.Vocoder

/-!
# The scheduler of the talker stage

`OmniARScheduler` runs the talker on requests `{turn_id}_stage_1_{k}` that leave after one step
each. What one request has to hand over to the next one of its turn (the KV blocks, the number of
computed tokens, the tokens sampled so far) lives in four dictionaries on the class, the lockers,
keyed by the turn. `schedule` pulls it out of the lockers, and `update_from_output` puts it there
and also pushes it into the next request if that is waiting.

The stage runs one request at a time and the engine core calls `schedule`, the model and
`update_from_output` in one step, so the state is the waiting queue, the free block queue of the
pool and the lockers, with the list of the steps taken as a history variable. Turns are the elements
of a type `ι`.
-/

namespace OmniStreaming

open List Transition

variable {ι : Type*}

/-! ## Configuration, requests, lockers -/

/-- The settings that the scheduler reads, with the sampling parameters of the stage's requests. -/
structure EngineConfig where
  maxModelLen : ℕ
  blockSize : ℕ
  numGpuBlocks : ℕ
  maxNumBatchedTokens : ℕ
  longPrefillTokenThreshold : ℕ := 0
  enableChunkedPrefill : Bool := false
  minTokens : ℕ := 0
  maxTokens : ℕ
  ignoreEos : Bool := false
  eosTokenId : Option ℕ := none
  stopTokenIds : List ℕ := [stopToken]
  blockSize_pos : 0 < blockSize := by decide

/-- What the scheduler writes into a request: the element of `predicted_audio_token`, and
`audio_history`. -/
structure AudioPayload where
  predictedAudioToken : Option ℕ := none
  audioHistory : Option (List ℕ) := none
  deriving Repr, DecidableEq

/-- A waiting request `{turn}_stage_1_{idx}`, with its nonempty prompt and the steps taken when it
arrived. -/
structure Request (ι : Type*) where
  turn : ι
  idx : ℕ
  numPromptTokens : ℕ
  prompt_pos : 0 < numPromptTokens
  info : AudioPayload := {}
  arrivedAt : ℕ
  deriving Repr, DecidableEq

/-- The entries of a turn: `stage_token_locker`, `stage_block_locker`, `stage_history_count` and
`stage_output_history`. The last two are only read with a default. -/
structure Locker where
  token : Option ℕ := none
  blocks : Option (List ℕ) := none
  historyCount : ℕ := 0
  outputHistory : List ℕ := []
  deriving Repr, DecidableEq

/-- Why a request is reported finished. -/
inductive FinishReason
  | stop
  | length
  deriving Repr, DecidableEq

/-- The part of the request data sent to the runner that the lockers may change. -/
structure NewRequestData where
  blockIds : List ℕ
  numComputedTokens : ℕ
  numScheduledTokens : ℕ
  info : AudioPayload
  deriving Repr, DecidableEq

/-- What `schedule` decides: the request, its data, its blocks and the history written over its
`output_token_ids`. -/
structure Scheduled (ι : Type*) where
  request : Request ι
  data : NewRequestData
  newBlocks : List ℕ
  history : List ℕ
  deriving Repr, DecidableEq

/-- A step taken: what was scheduled, whether the turn had locked blocks, the sampled token, how the
request finished, and whether it passed `check_stop`. -/
structure StepRecord (ι : Type*) extends Scheduled ι where
  fresh : Bool
  newTokenId : Option ℕ
  reason : FinishReason
  advanced : Bool
  deriving Repr, DecidableEq

/-- The scheduler between two steps. -/
structure SchedulerState (ι : Type*) where
  waiting : List (Request ι) := []
  freeBlocks : List ℕ
  lockers : ι → Locker := fun _ => {}
  log : List (StepRecord ι) := []

/-- The scheduler at the start: block 0 is the null block, all others are free. -/
def SchedulerState.init (cfg : EngineConfig) : SchedulerState ι where
  freeBlocks := (range (cfg.numGpuBlocks - 1)).map (· + 1)

/-! ## `schedule` -/

def cdiv (a b : ℕ) : ℕ := (a + b - 1) / b

/-- The number of tokens scheduled for `numTokens` tokens; no value without budget, or if the
request does not fit it and must not be split. -/
def EngineConfig.numNewTokens (cfg : EngineConfig) (numTokens : ℕ) : Option ℕ :=
  let threshold := cfg.longPrefillTokenThreshold
  let n := if 0 < threshold ∧ threshold < numTokens then threshold else numTokens
  if cfg.maxNumBatchedTokens = 0 then none
  else if cfg.enableChunkedPrefill = false ∧ cfg.maxNumBatchedTokens < n then none
  else some (min n cfg.maxNumBatchedTokens)

/-- The number of blocks that `allocate_slots` asks for. -/
def EngineConfig.blocksFor (cfg : EngineConfig) (n : ℕ) : ℕ :=
  cdiv (min n cfg.maxModelLen) cfg.blockSize

/-- The locked token and history, unless the token is missing or 0, where `if token_1049` fails
too. -/
def Locker.mergePayload (l : Locker) (info : AudioPayload) : AudioPayload :=
  match l.token with
  | some token =>
    if token ≠ 0 then
      { predictedAudioToken := some token, audioHistory := some l.outputHistory }
    else info
  | none => info

/-- The data of a scheduled request: locked blocks stand in for its own, with their count of
computed tokens. -/
def Locker.requestData (l : Locker) (newBlocks : List ℕ) (numScheduled : ℕ) (info : AudioPayload) :
    NewRequestData where
  blockIds := l.blocks.getD newBlocks
  numComputedTokens := if l.blocks.isSome then l.historyCount else 0
  numScheduledTokens := numScheduled
  info := l.mergePayload info

/-- `schedule`: the head of the queue, if its tokens fit the budget and its blocks the pool. -/
def schedule (cfg : EngineConfig) (s : SchedulerState ι) : Option (Scheduled ι) :=
  s.waiting.head?.bind fun r =>
    (cfg.numNewTokens r.numPromptTokens).bind fun n =>
      let need := cfg.blocksFor n
      let l := s.lockers r.turn
      if need ≤ s.freeBlocks.length then
        some
          { request := r
            data := l.requestData (s.freeBlocks.take need) n r.info
            newBlocks := s.freeBlocks.take need
            history := l.outputHistory }
      else none

/-! ## `update_from_output` -/

/-- The runner keeps a sampled token only if the request's whole prompt has been computed. -/
def Scheduled.sampled (o : Scheduled ι) (token : ℕ) : Option ℕ :=
  if o.data.numComputedTokens + o.data.numScheduledTokens < o.request.numPromptTokens then none
  else some token

/-- `check_stop` for `numTokens` tokens, `numOutputTokens` of them generated, where `lastTokenId`
ends `output_token_ids`. -/
def EngineConfig.checkStop (cfg : EngineConfig) (numTokens numOutputTokens lastTokenId : ℕ) :
    Option FinishReason :=
  if numOutputTokens < cfg.minTokens then none
  else if cfg.ignoreEos = false ∧ cfg.eosTokenId = some lastTokenId then some .stop
  else if lastTokenId ∈ cfg.stopTokenIds then some .stop
  else if cfg.maxModelLen ≤ numTokens ∨ cfg.maxTokens ≤ numOutputTokens then some .length
  else none

/-- The check after a step. The `output_token_ids` are the history written by `schedule` if there is
one, to which the new token is not appended, else the new token. -/
def Scheduled.stopReason (cfg : EngineConfig) (o : Scheduled ι) (token : Option ℕ) :
    Option FinishReason :=
  ((if o.history = [] then token.toList else o.history).getLast?).bind fun last =>
    cfg.checkStop (o.request.numPromptTokens + token.toList.length) token.toList.length last

/-- What a step that passed `check_stop` leaves in the lockers of its turn. -/
def Locker.advance (l : Locker) (data : NewRequestData) (token : Option ℕ) : Locker where
  token := token <|> l.token
  blocks := some data.blockIds
  historyCount := l.historyCount + data.numScheduledTokens
  outputHistory := l.outputHistory ++ token.toList

variable [DecidableEq ι]

/-- After request `idx` of a turn has passed `check_stop`: after 2150 the later requests of the turn
are finished, and the token and the history are pushed into the next one if it is there. -/
def relayToNext (turn : ι) (idx : ℕ) (history : List ℕ) (token : Option ℕ)
    (waiting : List (Request ι)) : List (Request ι) :=
  match token with
  | none => waiting
  | some t =>
    let kept :=
      if t = stopToken then waiting.filter fun r => !(r.turn = turn ∧ idx < r.idx : Bool)
      else waiting
    kept.map fun r =>
      if r.turn = turn ∧ r.idx = idx + 1 then
        { r with info := { predictedAudioToken := some t, audioHistory := some history } }
      else r

/-- `update_from_output` for the request of the step: it leaves, and its blocks go back to the end
of the free queue in reverse order. -/
def updateFromOutput (cfg : EngineConfig) (s : SchedulerState ι) (o : Scheduled ι)
    (token : Option ℕ) : SchedulerState ι :=
  let turn := o.request.turn
  let stopped := o.stopReason cfg token
  let locker := (s.lockers turn).advance o.data token
  { waiting :=
      if stopped.isSome then s.waiting.tail
      else relayToNext turn o.request.idx locker.outputHistory token s.waiting.tail
    freeBlocks := s.freeBlocks.drop o.newBlocks.length ++ o.newBlocks.reverse
    lockers := if stopped.isSome then s.lockers else Function.update s.lockers turn locker
    log := s.log ++
      [{ o with
        fresh := (s.lockers turn).blocks.isNone
        newTokenId := token
        reason := stopped.getD .stop
        advanced := stopped.isNone }] }

/-! ## Runs -/

/-- A request arrives, an id is aborted, or the engine takes a step in which the model would sample
`token`. -/
inductive SchedAct (ι : Type*)
  | add (turn : ι) (idx numPromptTokens : ℕ)
  | abort (turn : ι) (idx : ℕ)
  | step (token : ℕ)
  deriving Repr, DecidableEq

/-- `add_request`: a request goes to the end of the queue. -/
def SchedulerState.addRequest (s : SchedulerState ι) (turn : ι) (idx numPromptTokens : ℕ)
    (prompt_pos : 0 < numPromptTokens) : SchedulerState ι :=
  { s with
    waiting := s.waiting ++
      [{ turn, idx, numPromptTokens, prompt_pos, arrivedAt := s.log.length }] }

/-- `finish_requests` for an aborted id: the lockers of its turn are cleared, even if the request is
gone, and it leaves the queue. -/
def SchedulerState.abortRequest (s : SchedulerState ι) (turn : ι) (idx : ℕ) : SchedulerState ι :=
  { s with
    waiting := s.waiting.filter fun r => !(r.turn = turn ∧ r.idx = idx : Bool)
    lockers := Function.update s.lockers turn {} }

/-- One event. A request has a prompt and an id that is not waiting already. -/
def schedStep (cfg : EngineConfig) (s : SchedulerState ι) : SchedAct ι → Option (SchedulerState ι)
  | .add turn idx numPromptTokens =>
    if prompt_pos : 0 < numPromptTokens then
      if ∃ r ∈ s.waiting, r.turn = turn ∧ r.idx = idx then none
      else some (s.addRequest turn idx numPromptTokens prompt_pos)
    else none
  | .abort turn idx => some (s.abortRequest turn idx)
  | .step token =>
    (schedule cfg s).map fun o => updateFromOutput cfg s o (o.sampled token)

/-! ## What a step can do -/

variable {cfg : EngineConfig} {s s' : SchedulerState ι} {o : Scheduled ι} {a : SchedAct ι}

omit [DecidableEq ι] in
lemma schedule_eq_some (h : schedule cfg s = some o) :
    ∃ r rest n, s.waiting = r :: rest ∧ cfg.numNewTokens r.numPromptTokens = some n ∧
      cfg.blocksFor n ≤ s.freeBlocks.length ∧
      o = { request := r
            data := (s.lockers r.turn).requestData (s.freeBlocks.take (cfg.blocksFor n)) n r.info
            newBlocks := s.freeBlocks.take (cfg.blocksFor n)
            history := (s.lockers r.turn).outputHistory } := by
  unfold schedule at h
  obtain ⟨r, hr, h⟩ := Option.bind_eq_some_iff.mp h
  obtain ⟨n, hn, h⟩ := Option.bind_eq_some_iff.mp h
  obtain ⟨rest, hrest⟩ := head?_eq_some_iff.mp hr
  simp only at h
  split_ifs at h with hfree
  exact ⟨r, rest, n, hrest, hn, hfree, (Option.some.inj h).symm⟩

/-- The locked payload replaces that of the request if the locked token is there and is not 0. -/
lemma Locker.mergePayload_eq (l : Locker) (info : AudioPayload) :
    l.mergePayload info =
      if l.token ≠ none ∧ l.token ≠ some 0 then
        { predictedAudioToken := l.token, audioHistory := some l.outputHistory }
      else info := by
  unfold Locker.mergePayload
  cases l.token with
  | none => simp
  | some x => simp

lemma schedStep_cases (h : schedStep cfg s a = some s') :
    (∃ turn idx n, ∃ hn : 0 < n, a = .add turn idx n ∧
      (∀ r ∈ s.waiting, ¬ (r.turn = turn ∧ r.idx = idx)) ∧ s' = s.addRequest turn idx n hn) ∨
    (∃ turn idx, a = .abort turn idx ∧ s' = s.abortRequest turn idx) ∨
    ∃ token o, a = .step token ∧ schedule cfg s = some o ∧
      s' = updateFromOutput cfg s o (o.sampled token) := by
  cases a with
  | add turn idx n =>
    simp only [schedStep] at h
    split_ifs at h with hn hid
    exact .inl ⟨turn, idx, n, hn, rfl, fun r hr hr' => hid ⟨r, hr, hr'⟩, (Option.some.inj h).symm⟩
  | abort turn idx => exact .inr (.inl ⟨turn, idx, rfl, (Option.some.inj h).symm⟩)
  | step token =>
    obtain ⟨o, ho, rfl⟩ := Option.map_eq_some_iff.mp h
    exact .inr (.inr ⟨token, o, rfl, ho, rfl⟩)

lemma lockers_abortRequest_of_ne (s : SchedulerState ι) {t turn : ι} (idx : ℕ) (h : t ≠ turn) :
    (s.abortRequest turn idx).lockers t = s.lockers t := Function.update_of_ne h _ _

lemma lockers_abortRequest_self (turn : ι) (idx : ℕ) :
    (s.abortRequest turn idx).lockers turn = {} := Function.update_self _ _ _

/-- The record that a step adds to the log. -/
def recordOf (cfg : EngineConfig) (s : SchedulerState ι) (o : Scheduled ι) (token : Option ℕ) :
    StepRecord ι :=
  { o with
    fresh := (s.lockers o.request.turn).blocks.isNone
    newTokenId := token
    reason := (o.stopReason cfg token).getD .stop
    advanced := (o.stopReason cfg token).isNone }

@[simp] lemma log_updateFromOutput (token : Option ℕ) :
    (updateFromOutput cfg s o token).log = s.log ++ [recordOf cfg s o token] := rfl

@[simp] lemma freeBlocks_updateFromOutput (token : Option ℕ) :
    (updateFromOutput cfg s o token).freeBlocks =
      s.freeBlocks.drop o.newBlocks.length ++ o.newBlocks.reverse := rfl

/-- The lockers of another turn stay as they are. -/
lemma lockers_updateFromOutput_of_ne (cfg : EngineConfig) (s : SchedulerState ι) {t : ι}
    (token : Option ℕ) (h : o.request.turn ≠ t) :
    (updateFromOutput cfg s o token).lockers t = s.lockers t := by
  simp only [updateFromOutput]
  split_ifs
  · rfl
  · exact Function.update_of_ne h.symm _ _

/-- The lockers of the turn of the step: unchanged if `check_stop` ended the request. -/
lemma lockers_updateFromOutput_self (cfg : EngineConfig) (s : SchedulerState ι) (o : Scheduled ι)
    (token : Option ℕ) :
    (updateFromOutput cfg s o token).lockers o.request.turn =
      if (recordOf cfg s o token).advanced then
        (s.lockers o.request.turn).advance o.data token
      else s.lockers o.request.turn := by
  cases hstop : o.stopReason cfg token with
  | none => simp [updateFromOutput, recordOf, hstop]
  | some reason => simp [updateFromOutput, recordOf, hstop]

variable {r : Request ι}

/-- After a relay, the next request of the turn has the pushed payload, any other stood there
before. -/
lemma mem_relayToNext {turn : ι} {idx x : ℕ} {history : List ℕ} {waiting : List (Request ι)}
    (h : r ∈ relayToNext turn idx history (some x) waiting) :
    ∃ r₀ ∈ waiting, r.turn = r₀.turn ∧ r.idx = r₀.idx ∧ r.arrivedAt = r₀.arrivedAt ∧
      if r.turn = turn ∧ r.idx = idx + 1 then
        r.info = { predictedAudioToken := some x, audioHistory := some history }
      else r = r₀ := by
  obtain ⟨r₀, hmem, rfl⟩ := mem_map.mp h
  have hmem : r₀ ∈ waiting := by
    split_ifs at hmem
    · exact mem_of_mem_filter hmem
    · exact hmem
  refine ⟨r₀, hmem, ?_⟩
  by_cases hnext : r₀.turn = turn ∧ r₀.idx = idx + 1
  · simp [hnext]
  · simp [hnext]

/-- After a step with a token, the next request has the payload if `check_stop` was passed, any
other stood there before. -/
lemma mem_waiting_updateFromOutput {x : ℕ} (h : r ∈ (updateFromOutput cfg s o (some x)).waiting) :
    ∃ r₀ ∈ s.waiting, r.turn = r₀.turn ∧ r.idx = r₀.idx ∧ r.arrivedAt = r₀.arrivedAt ∧
      if (recordOf cfg s o (some x)).advanced = true ∧ r.turn = o.request.turn ∧
          r.idx = o.request.idx + 1 then
        r.info = { predictedAudioToken := some x
                   audioHistory := some ((s.lockers o.request.turn).outputHistory ++ [x]) }
      else r = r₀ := by
  cases hstop : o.stopReason cfg (some x) with
  | some reason =>
    simp only [updateFromOutput, hstop, Option.isSome_some, if_true] at h
    exact ⟨r, mem_of_mem_tail h, rfl, rfl, rfl, by simp [recordOf, hstop]⟩
  | none =>
    simp only [updateFromOutput, hstop, Option.isSome_none, Bool.false_eq_true, if_false] at h
    obtain ⟨r₀, hr₀, hturn, hidx, harr, hinfo⟩ := mem_relayToNext h
    refine ⟨r₀, mem_of_mem_tail hr₀, hturn, hidx, harr, ?_⟩
    have hadv : (recordOf cfg s o (some x)).advanced = true := by simp [recordOf, hstop]
    simpa [hadv, Locker.advance] using hinfo

/-- A request in the queue after a step stood there before, possibly with another payload. -/
lemma exists_of_mem_waiting {token : Option ℕ} (h : r ∈ (updateFromOutput cfg s o token).waiting) :
    ∃ r₀ ∈ s.waiting, r.turn = r₀.turn ∧ r.idx = r₀.idx ∧ r.arrivedAt = r₀.arrivedAt ∧
      (r.turn ≠ o.request.turn → r = r₀) := by
  cases token with
  | some x =>
    obtain ⟨r₀, hr₀, hturn, hidx, harr, hinfo⟩ := mem_waiting_updateFromOutput h
    refine ⟨r₀, hr₀, hturn, hidx, harr, fun hne => ?_⟩
    rwa [if_neg (fun hc => hne hc.2.1)] at hinfo
  | none =>
    refine ⟨r, mem_of_mem_tail ?_, rfl, rfl, rfl, fun _ => rfl⟩
    simp only [updateFromOutput] at h
    split_ifs at h
    · exact h
    · exact h

/-! ## The ids in the queue -/

/-- The request id. -/
def Request.id (r : Request ι) : ι × ℕ := (r.turn, r.idx)

/-- A relay adds no request. -/
lemma map_id_relayToNext_sublist (turn : ι) (idx : ℕ) (history : List ℕ) (token : Option ℕ)
    (waiting : List (Request ι)) :
    List.Sublist ((relayToNext turn idx history token waiting).map Request.id)
      (waiting.map Request.id) := by
  cases token with
  | none => exact List.Sublist.refl _
  | some x =>
    have hid : ∀ r : Request ι, (if r.turn = turn ∧ r.idx = idx + 1 then
        { r with info := { predictedAudioToken := some x, audioHistory := some history } }
        else r).id = r.id := by
      intro r
      split_ifs <;> rfl
    simp only [relayToNext, map_map, Function.comp_def, hid]
    split_ifs
    · exact filter_sublist.map _
    · exact List.Sublist.refl _

lemma map_id_updateFromOutput_sublist (cfg : EngineConfig) (s : SchedulerState ι)
    (o : Scheduled ι) (token : Option ℕ) :
    List.Sublist ((updateFromOutput cfg s o token).waiting.map Request.id)
      (s.waiting.tail.map Request.id) := by
  simp only [updateFromOutput]
  split_ifs
  · exact List.Sublist.refl _
  · exact map_id_relayToNext_sublist _ _ _ _ _

/-- No id waits twice. -/
lemma nodup_ids_step (h : (s.waiting.map Request.id).Nodup) (hstep : schedStep cfg s a = some s') :
    (s'.waiting.map Request.id).Nodup := by
  obtain ⟨turn, idx, n, hn, rfl, hnew, rfl⟩ | ⟨turn, idx, rfl, rfl⟩ | ⟨x, o, rfl, ho, rfl⟩ :=
    schedStep_cases hstep
  · rw [SchedulerState.addRequest, map_append, map_singleton]
    refine nodup_append.mpr ⟨h, nodup_singleton _, ?_⟩
    intro id hid id' hid' heq
    obtain ⟨r, hr, rfl⟩ := mem_map.mp hid
    obtain rfl := mem_singleton.mp hid'
    exact hnew r hr (Prod.mk.inj heq)
  · exact h.sublist (filter_sublist.map _)
  · exact h.sublist ((map_id_updateFromOutput_sublist cfg s o _).trans
      ((tail_sublist _).map _))

/-- A request that was scheduled is gone after the step. -/
lemma id_ne_of_mem_waiting {token : Option ℕ} (h : (s.waiting.map Request.id).Nodup)
    (ho : schedule cfg s = some o) (hr : r ∈ (updateFromOutput cfg s o token).waiting) :
    r.id ≠ o.request.id := by
  intro hid
  have hmem : r.id ∈ s.waiting.tail.map Request.id :=
    (map_id_updateFromOutput_sublist cfg s o token).subset (mem_map_of_mem hr)
  obtain ⟨r₀, rest, n, hwaiting, -, -, rfl⟩ := schedule_eq_some ho
  rw [hwaiting, map_cons, nodup_cons] at h
  rw [hwaiting, tail_cons, hid] at hmem
  exact h.1 hmem

/-! ## A small engine -/

/-- A small engine: blocks of 16 tokens, a context of 64, and 2150 as the stop token. -/
def smallEngine (numGpuBlocks : ℕ) : EngineConfig where
  maxModelLen := 64
  blockSize := 16
  numGpuBlocks := numGpuBlocks
  maxNumBatchedTokens := 64
  maxTokens := 64

end OmniStreaming
