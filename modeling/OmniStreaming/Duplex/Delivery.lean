import OmniStreaming.Duplex.Orchestrator

/-!
# The way of a result from a stage to its worker

The harvester of a stage takes its results one by one from `out_q`, looks their id up in
`request_states` and puts them on the queue of the turn, or drops a result whose id it does not
find; `router_task` of the turn moves them on to `stage_queues[i]`, where the worker of the stage
takes them. Looking up and putting is done without awaiting anything, and so is registering an id
and submitting its task.

`Delivery` is the orchestrator with one turn, the three queues in front of it and, as histories,
what has been put, collected and taken. Each worker takes what its stage has put, in that order,
except for results whose id a stop or a barge-in has removed (`results_delivered_in_order`).
-/

namespace OmniStreaming

open Dictionary Function List Option Transition

variable {ε ρ τ : Type*}

/-! ## The queues of the stages -/

/-- The stages of the pipeline. -/
inductive StageName
  | thinker
  | talker
  | vocoder
  deriving DecidableEq

/-- The `stage_id` of a result. -/
def StageResult.stage : StageResult ε ρ τ → StageName
  | .thinker _ => .thinker
  | .talker _ => .talker
  | .vocoder _ => .vocoder

variable (t : Turn ε ρ τ)

/-- The ids of the tasks that a turn has submitted to a stage. -/
def Turn.submittedTo : StageName → List Key
  | .thinker => [t.turnId]
  | .talker => t.relay.st.submitted.map fun task => stage1Key t.turnId task.seq
  | .vocoder => t.stage2Tasks.map (stage2Key t.turnId)

/-- The results in `stage_queues[i]`. -/
def Turn.stageQueue : StageName → List (StageResult ε ρ τ)
  | .thinker => t.relay.inbox.map .thinker
  | .talker => t.stage1Queue.map fun e => .talker e.2
  | .vocoder => t.stage2Queue.map .vocoder

/-- The results of a stage that are on their way to its worker. -/
def Turn.waiting (i : StageName) : List (StageResult ε ρ τ) :=
  t.stageQueue i ++ (t.reqQueue.filter fun e => e.2.stage = i).map Prod.snd

/-- The worker of a stage takes a result and raises, as on the dictionary of a failed request. -/
def Turn.raiseIn : StageName → Option (Turn ε ρ τ)
  | .thinker =>
    match t.relay.raised, t.relay.idle, t.relay.inbox with
    | false, true, _ :: rest =>
      some { t with relay := { t.relay with inbox := rest, idle := false, raised := true } }
    | _, _, _ => none
  | .talker =>
    match t.senderAlive, t.stage1Queue with
    | true, _ :: rest => some { t with stage1Queue := rest, senderAlive := false }
    | _, _ => none
  | .vocoder =>
    match t.receiverDone, t.stage2Queue with
    | false, _ :: rest => some { t with stage2Queue := rest, receiverDone := true }
    | _, _ => none

/-- The orchestrator with the queues `out_q` and, as a history, what was put, collected and taken,
and the ids that a stop or a barge-in has removed. -/
structure Delivery (ε ρ τ : Type*) where
  orch : Orchestrator ε ρ τ
  outQ : StageName → List (Key × StageResult ε ρ τ) := fun _ => []
  put : StageName → List (Key × StageResult ε ρ τ) := fun _ => []
  collected : StageName → List ((Key × StageResult ε ρ τ) × Bool) := fun _ => []
  taken : StageName → List (StageResult ε ρ τ) := fun _ => []
  removed : List Key := []

/-- The start of a turn, with no other one there. -/
def Delivery.init (session : Key) (time : ℕ) : Delivery ε ρ τ where
  orch := Orchestrator.startTurn {} session time

/-- The events on the way of the results. -/
inductive DeliveryAct (ε ρ τ : Type*)
  /-- A stage puts a result for one of its tasks on its queue. -/
  | put (key : Key) (res : StageResult ε ρ τ)
  /-- The harvester of a stage collects a result. -/
  | harvest (i : StageName)
  /-- `router_task` moves a result. -/
  | route
  /-- The worker of a stage takes a result; `accepted` is the answer of the connector. -/
  | work (i : StageName) (accepted : Bool)
  /-- The worker of a stage takes a result and raises; `late` if it has handled a stop before. -/
  | raise (i : StageName) (late : Bool)
  /-- A coroutine of the relay runs. -/
  | tick
  /-- `cleanup_for_barge_in`. -/
  | bargeIn (session : Key)

/-- The event of the orchestrator when the worker of a stage takes a result. -/
def workEvent (i : StageName) (accepted : Bool) : OrchAct ε ρ τ :=
  match i with
  | .thinker => .relay 0 .recv
  | .talker => .talker 0 accepted
  | .vocoder => .vocoder 0

/-- The ids that are in the dictionary before and not afterwards. -/
def Orchestrator.lost (s o : Orchestrator ε ρ τ) : List Key :=
  s.requestStates.keys.filter fun k => (o.requestStates.lookup k).isNone

/-- The results in `stage_queues[i]` of the turn. -/
def Delivery.stageQueue (s : Delivery ε ρ τ) (i : StageName) : List (StageResult ε ρ τ) :=
  s.orch.turns.flatMap fun t => t.stageQueue i

/-- The results of a stage that the harvester has handed on and that have not been taken yet. -/
def Delivery.waiting (s : Delivery ε ρ τ) (i : StageName) : List (StageResult ε ρ τ) :=
  s.orch.turns.flatMap fun t => t.waiting i

/-- The worker of a stage has taken the first result of its queue; only that of the talker handles
stops. -/
def Delivery.take (s : Delivery ε ρ τ) (i : StageName) (o : Orchestrator ε ρ τ) : Delivery ε ρ τ :=
  { s with
    orch := o
    taken := update s.taken i (s.taken i ++ (s.stageQueue i).take 1)
    removed := if i = .talker then s.removed ++ s.orch.lost o else s.removed }

/-- The harvester of a stage collects a result. -/
def Delivery.collect [Zero ρ] (puts : ℕ → ℕ → Bool) (s : Delivery ε ρ τ) (i : StageName) :
    Option (Delivery ε ρ τ) :=
  match s.outQ i with
  | [] => none
  | e :: rest =>
    (orchStep puts s.orch (.harvest e.1 e.2)).map fun o =>
      { s with
        orch := o
        outQ := update s.outQ i rest
        collected := update s.collected i
          (s.collected i ++ [(e, (s.orch.requestStates.lookup e.1).isSome)]) }

/-- One event on the way of the results; a stage puts out results for tasks submitted to it. -/
def deliveryStep [Zero ρ] (puts : ℕ → ℕ → Bool) (s : Delivery ε ρ τ) :
    DeliveryAct ε ρ τ → Option (Delivery ε ρ τ)
  | .put key res =>
    if ∃ t ∈ s.orch.turns, key ∈ t.submittedTo res.stage then
      some
        { s with
          outQ := update s.outQ res.stage (s.outQ res.stage ++ [(key, res)])
          put := update s.put res.stage (s.put res.stage ++ [(key, res)]) }
    else none
  | .harvest i => s.collect puts i
  | .route => (orchStep puts s.orch (.route 0)).map fun o => { s with orch := o }
  | .work i accepted => (orchStep puts s.orch (workEvent i accepted)).map (s.take i)
  | .raise i late =>
    s.orch.turns[0]?.bind fun t =>
      (t.raiseIn i).map fun t' =>
        s.take i (s.orch.edit 0 t'
          (fun k => late && decide (i = .talker) && t.stopsNext && hasStage1Mark k) [])
  | .tick => (orchStep puts s.orch (.relay 0 .tick)).map fun o => { s with orch := o }
  | .bargeIn session =>
    some
      { s with
        orch := s.orch.cleanupForBargeIn session
        removed := s.removed ++ s.orch.lost (s.orch.cleanupForBargeIn session) }

/-- What a stage puts out is collected in order, what is not dropped is taken or on its way in
order, and a result is dropped only if its id has been removed. -/
structure StageInOrder (s : Delivery ε ρ τ) (i : StageName) : Prop where
  collected : s.put i = (s.collected i).map Prod.fst ++ s.outQ i
  delivered : ((s.collected i).filter Prod.snd).map (fun e => e.1.2) = s.taken i ++ s.waiting i
  dropped : ∀ e ∈ s.collected i, e.2 = false → e.1.1 ∈ s.removed

/-- Every task that has been submitted has its id in the dictionary, unless that was removed. -/
def SubmittedRegistered (s : Delivery ε ρ τ) : Prop :=
  ∀ t ∈ s.orch.turns, ∀ i, ∀ k ∈ t.submittedTo i,
    (s.orch.requestStates.lookup k).isSome ∨ k ∈ s.removed

/-! ## The relay registers what it submits -/

/-- The tasks that have been submitted between two states are for ids that have been registered in
between. -/
structure RelayState.Extends (st st' : RelayState ε) : Prop where
  registered : ∃ new, st'.registered = st.registered ++ new ∧
    ∀ task ∈ st'.submitted, task ∈ st.submitted ∨ task.seq ∈ new
  submitted : st.submitted ⊆ st'.submitted

variable {st st' : RelayState ε} {puts : ℕ → Bool} {t t' : Turn ε ρ τ} {pop : Key → Bool}
  {new : List Key}

lemma RelayState.Extends.of_eq (hreg : st'.registered = st.registered)
    (hsub : st'.submitted = st.submitted) : st.Extends st' where
  registered := ⟨[], by rw [hreg, append_nil], fun _ h => .inl (hsub ▸ h)⟩
  submitted := hsub ▸ List.Subset.refl _

lemma RelayState.Extends.trans {st'' : RelayState ε} (h : st.Extends st') (h' : st'.Extends st'') :
    st.Extends st'' := by
  obtain ⟨new, hreg, hnew⟩ := h.registered
  obtain ⟨new', hreg', hnew'⟩ := h'.registered
  refine ⟨⟨new ++ new', by rw [hreg', hreg, append_assoc], fun task htask => ?_⟩,
    fun task htask => h'.submitted (h.submitted htask)⟩
  rcases hnew' task htask with hold | hseq
  · exact (hnew task hold).imp_right fun h => mem_append_left _ h
  · exact .inr (mem_append_right _ hseq)

/-- Every task is submitted here, right after its id has been registered. -/
lemma extends_trySend {mid : RelayState ε} (hreg : mid.registered = st.registered)
    (hsub : mid.submitted = st.submitted) (seq : ℕ) (input : TalkerInput ε) :
    st.Extends (mid.trySend puts seq input) := by
  unfold RelayState.trySend
  refine ⟨⟨[seq], by rw [hreg], fun task htask => ?_⟩, fun task htask => ?_⟩
  · dsimp only at htask
    split at htask
    · rcases mem_append.mp htask with hold | hnew
      · exact .inl (hsub ▸ hold)
      · exact .inr (by rw [mem_singleton.mp hnew]; exact mem_singleton.mpr rfl)
    · exact .inl (hsub ▸ htask)
  · dsimp only
    split
    · exact mem_append_left _ (hsub.symm ▸ htask)
    · exact hsub.symm ▸ htask

/-- A task sent for a result. -/
lemma extends_toss {r : ThinkerResult ε} {x : ℕ} (h : st.toss puts r x = some st') :
    st.Extends st' := by
  unfold RelayState.toss at h
  dsimp only at h
  split at h
  · split at h
    all_goals
      obtain ⟨input, -, rfl⟩ := map_eq_some_iff.mp h
      apply extends_trySend <;> rfl
  · obtain ⟨input, -, rfl⟩ := map_eq_some_iff.mp h
    apply extends_trySend <;> rfl

lemma extends_sendStamped {v : ℤ} (h : st.sendStamped puts v = some st') : st.Extends st' := by
  obtain ⟨raw, -, h⟩ := bind_eq_some_iff.mp h
  obtain ⟨r, -, h⟩ := bind_eq_some_iff.mp h
  obtain ⟨input, -, rfl⟩ := map_eq_some_iff.mp h
  apply extends_trySend <;> rfl

/-- `process_and_send` of a row. -/
lemma extends_processAndSend {seq p : ℕ} (h : st.processAndSend puts seq p = some st') :
    st.Extends st' := by
  obtain ⟨r, -, h⟩ := bind_eq_some_iff.mp h
  obtain ⟨input, -, rfl⟩ := map_eq_some_iff.mp h
  apply extends_trySend <;> rfl

/-- The flush of the relay. -/
lemma extends_resumeFlush (puts : ℕ → Bool) (l : RelayLoop ε) (pos x : ℕ) :
    l.st.Extends (l.resumeFlush puts pos x).st := by
  unfold RelayLoop.resumeFlush
  split
  · exact .of_eq rfl rfl
  · split
    · exact .of_eq rfl rfl
    · next st hst => exact (extends_sendStamped hst).trans (.of_eq rfl rfl)

lemma extends_setBase {r : ThinkerResult ε} (h : st.setBase r = some st') : st.Extends st' := by
  unfold RelayState.setBase at h
  split at h
  · cases h
    exact .of_eq rfl rfl
  · obtain ⟨b, -, rfl⟩ := map_eq_some_iff.mp h
    exact .of_eq rfl rfl

lemma extends_noteFinished (st : RelayState ε) (r : ThinkerResult ε) :
    st.Extends (st.noteFinished r) := by
  unfold RelayState.noteFinished
  split <;> exact .of_eq rfl rfl

/-- A result received. -/
lemma extends_recvResult (puts : ℕ → Bool) (l : RelayLoop ε) (r : ThinkerResult ε) :
    l.st.Extends (l.recvResult puts r).st := by
  unfold RelayLoop.recvResult
  split
  · exact .of_eq rfl rfl
  · next st hst =>
    have hbase := (extends_setBase hst).trans (extends_noteFinished st r)
    dsimp only
    generalize (if (st.noteFinished r).isStg1Prefilled = true then 1 else 2) = required
    split
    · split
      · exact .of_eq rfl rfl
      · next st' hst' =>
        have htoss := hbase.trans (extends_toss hst')
        split
        · exact htoss.trans (extends_resumeFlush puts { l with st := st' } _ _)
        · exact htoss
    · exact hbase

/-- A coroutine that runs. -/
lemma extends_runTask (puts : ℕ → Bool) (l : RelayLoop ε) (t : RelayTask) :
    l.st.Extends (l.runTask puts t).st ∧ (l.runTask puts t).inbox = l.inbox := by
  cases t with
  | worker pos x => exact ⟨extends_resumeFlush puts l pos x, inbox_resumeFlush puts l pos x⟩
  | processAndSend seq p =>
    unfold RelayLoop.runTask
    dsimp only
    split
    · exact ⟨.of_eq rfl rfl, rfl⟩
    · next st hst => exact ⟨extends_processAndSend hst, rfl⟩
  | paddingBurst left =>
    cases left with
    | zero => exact ⟨.of_eq rfl rfl, rfl⟩
    | succ left =>
      unfold RelayLoop.runTask
      dsimp only
      split
      · exact ⟨.of_eq rfl rfl, rfl⟩
      · next st hst => exact ⟨extends_sendStamped hst, rfl⟩

/-! ## What an event does to the turn -/

/-- The turn is as open as before, and the tasks submitted in between have the ids `new`. -/
structure Turn.Proceeds (t t' : Turn ε ρ τ) (new : List Key) : Prop where
  closed : t'.closed = t.closed
  turnId : t'.turnId = t.turnId
  submitted : ∀ i, ∀ k ∈ t'.submittedTo i, k ∈ t.submittedTo i ∨ k ∈ new
  kept : ∀ i, t.submittedTo i ⊆ t'.submittedTo i

/-- The worker of a stage has taken the first result of its queue. -/
structure Turn.TakesFrom (t t' : Turn ε ρ τ) (i : StageName) : Prop where
  head : ∃ r, t.stageQueue i = r :: t'.stageQueue i
  others : ∀ j, j ≠ i → t'.stageQueue j = t.stageQueue j
  reqQueue : t'.reqQueue = t.reqQueue

lemma Turn.Proceeds.of_eq (hclosed : t'.closed = t.closed) (hsession : t'.session = t.session)
    (htime : t'.time = t.time) (hrelay : t'.relay.st.submitted = t.relay.st.submitted)
    (htasks : t'.stage2Tasks = t.stage2Tasks) : t.Proceeds t' [] := by
  have hid : t'.turnId = t.turnId := by rw [Turn.turnId, hsession, htime, Turn.turnId]
  have hsub : ∀ i, t'.submittedTo i = t.submittedTo i := by
    intro i
    cases i with
    | thinker => rw [Turn.submittedTo, hid, Turn.submittedTo]
    | talker => rw [Turn.submittedTo, hid, hrelay, Turn.submittedTo]
    | vocoder => rw [Turn.submittedTo, hid, htasks, Turn.submittedTo]
  exact ⟨hclosed, hid, fun i k hk => .inl (hsub i ▸ hk), fun i => hsub i ▸ List.Subset.refl _⟩

/-- A turn whose relay has gone on. -/
lemma Turn.Proceeds.of_relay {l : RelayLoop ε} (h : t.relay.st.Extends l.st) :
    t.Proceeds { t with relay := l }
      ((l.st.registered.drop t.relay.st.registered.length).map (stage1Key t.turnId)) := by
  obtain ⟨new, hreg, hnew⟩ := h.registered
  refine ⟨rfl, rfl, fun i k hk => ?_, fun i => ?_⟩
  · cases i with
    | thinker => exact .inl hk
    | talker =>
      obtain ⟨task, htask, rfl⟩ := List.mem_map.mp hk
      refine (hnew task htask).imp (fun hold => List.mem_map_of_mem hold) fun hseq => ?_
      rw [hreg, drop_left]
      exact List.mem_map_of_mem hseq
    | vocoder => exact .inl hk
  · cases i with
    | thinker => exact List.Subset.refl _
    | talker => exact map_subset _ h.submitted
    | vocoder => exact List.Subset.refl _

/-- The router takes nothing and puts nothing in another order. -/
lemma waiting_of_route (h : t.route = some t') (i : StageName) : t'.waiting i = t.waiting i := by
  unfold Turn.route at h
  split at h
  · cases h
  all_goals
    rename_i hq
    cases h
    cases i <;> simp [Turn.waiting, Turn.stageQueue, StageResult.stage, hq]

/-- `router_task` submits nothing. -/
lemma proceeds_of_route (h : t.route = some t') : t.Proceeds t' [] := by
  unfold Turn.route at h
  split at h
  · cases h
  all_goals
    cases h
    exact .of_eq rfl rfl rfl rfl rfl

/-- A worker that raises takes a result. -/
lemma takesFrom_of_raiseIn {i : StageName} (h : t.raiseIn i = some t') :
    t.TakesFrom t' i ∧ t.Proceeds t' [] := by
  cases i
  all_goals
    unfold Turn.raiseIn at h
    dsimp only at h
    split at h
    next hq =>
      cases h
      refine ⟨⟨?_, ?_, rfl⟩, .of_eq rfl rfl rfl rfl rfl⟩
      · simp only [Turn.stageQueue, hq, map_cons]
        exact ⟨_, rfl⟩
      · intro j hj
        cases j <;> first | rfl | exact absurd rfl hj
    next => cases h

section Steps

variable [Zero ρ] {puts : ℕ → ℕ → Bool} {s o : Orchestrator ε ρ τ} {t : Turn ε ρ τ}
  {i : StageName} {accepted : Bool}

/-- The relay of the only turn goes on. -/
lemma relay_eq {a : RelayAct} (ht : s.turns = [t]) (h : orchStep puts s (.relay 0 a) = some o) :
    ∃ l, relayStep (puts 0) t.relay a = some l ∧
      o = s.edit 0 { t with relay := l } (fun _ => false)
        ((l.st.registered.drop t.relay.st.registered.length).map (stage1Key t.turnId)) := by
  have hturn : s.turns[0]? = some t := by rw [ht]; rfl
  simp only [orchStep, hturn, bind_some] at h
  split at h
  · cases h
  · obtain ⟨l, hl, rfl⟩ := map_eq_some_iff.mp h
    exact ⟨l, hl, rfl⟩

/-- A coroutine of the relay leaves the queues of the turn alone. -/
lemma tick_eq (ht : s.turns = [t]) (h : orchStep puts s (.relay 0 .tick) = some o) :
    ∃ t' new, o = s.edit 0 t' (fun _ => false) new ∧ t.Proceeds t' new ∧
      ∀ i, t'.waiting i = t.waiting i := by
  obtain ⟨l, hl, rfl⟩ := relay_eq ht h
  simp only [relayStep] at hl
  split at hl
  · cases hl
  next task rest hready =>
    cases hl
    obtain ⟨hext, hinbox⟩ := extends_runTask (puts 0) { t.relay with ready := rest } task
    refine ⟨_, _, rfl, .of_relay hext, fun i => ?_⟩
    cases i with
    | thinker => simp only [Turn.waiting, Turn.stageQueue, hinbox]
    | talker => rfl
    | vocoder => rfl

/-- `worker_1to2` takes a result. -/
lemma handleTalker_eq (s : Orchestrator ε ρ τ) (accepted : Bool) {key : Key}
    {r : TalkerResult ρ} {rest : List (Key × TalkerResult ρ)}
    (hq : t.stage1Queue = (key, r) :: rest) :
    ∃ t' pop new, s.handleTalker 0 { t with stage1Queue := rest } key r accepted =
        s.edit 0 t' pop new ∧ t.TakesFrom t' .talker ∧ t.Proceeds t' new := by
  have htakes : ∀ t' : Turn ε ρ τ, t'.relay = t.relay → t'.stage1Queue = rest →
      t'.stage2Queue = t.stage2Queue → t'.reqQueue = t.reqQueue → t.TakesFrom t' .talker := by
    intro t' hrelay hqueue hqueue₂ hreq
    refine ⟨⟨.talker r, ?_⟩, fun j hj => ?_, hreq⟩
    · rw [Turn.stageQueue, Turn.stageQueue, hq, hqueue, map_cons]
    · cases j with
      | thinker => rw [Turn.stageQueue, hrelay, Turn.stageQueue]
      | talker => exact absurd rfl hj
      | vocoder => rw [Turn.stageQueue, hqueue₂, Turn.stageQueue]
  unfold Orchestrator.handleTalker
  split
  · exact ⟨_, _, _, rfl, htakes _ rfl rfl rfl rfl, .of_eq rfl rfl rfl rfl rfl⟩
  · refine ⟨_, _, _, rfl, htakes _ rfl rfl rfl rfl, rfl, rfl, fun j k hk => ?_, fun j => ?_⟩
    · cases j with
      | thinker => exact .inl hk
      | talker => exact .inl hk
      | vocoder =>
        obtain ⟨task, htask, rfl⟩ := List.mem_map.mp hk
        dsimp only at htask
        split at htask
        · exact (mem_append.mp htask).imp (fun hold => List.mem_map_of_mem hold)
            fun hnew => List.mem_map_of_mem hnew
        · exact .inl (List.mem_map_of_mem htask)
    · cases j with
      | thinker => exact List.Subset.refl _
      | talker => exact List.Subset.refl _
      | vocoder =>
        refine map_subset _ ?_
        dsimp only
        split
        · exact subset_append_left _ _
        · exact List.Subset.refl _

/-- A worker takes the first result of its queue; only that of the talker removes ids. -/
lemma work_eq (ht : s.turns = [t]) (h : orchStep puts s (workEvent i accepted) = some o) :
    ∃ t' pop new, o = s.edit 0 t' pop new ∧ t.TakesFrom t' i ∧ t.Proceeds t' new ∧
      (i ≠ .talker → ∀ k, pop k = false) := by
  have hturn : s.turns[0]? = some t := by rw [ht]; rfl
  cases i with
  | thinker =>
    obtain ⟨l, hl, rfl⟩ := relay_eq ht h
    simp only [relayStep] at hl
    split at hl
    next r rest hraised hidle hinbox =>
      cases hl
      refine ⟨_, _, _, rfl, ⟨⟨.thinker r, ?_⟩, fun j hj => ?_, rfl⟩,
        .of_relay (extends_recvResult (puts 0) { t.relay with inbox := rest } r), fun _ _ => rfl⟩
      · rw [Turn.stageQueue, Turn.stageQueue, inbox_recvResult, hinbox, map_cons]
      · cases j with
        | thinker => exact absurd rfl hj
        | talker => rfl
        | vocoder => rfl
    next => cases hl
  | talker =>
    simp only [workEvent, orchStep, hturn, bind_some] at h
    split at h
    next key r rest hclosed halive hq =>
      obtain ⟨t', pop, new, hedit, htakes, hproceeds⟩ :=
        handleTalker_eq s accepted hq
      exact ⟨t', pop, new, (some.inj h).symm.trans hedit, htakes, hproceeds,
        fun hne => absurd rfl hne⟩
    next => cases h
  | vocoder =>
    simp only [workEvent, orchStep, hturn, bind_some] at h
    split at h
    next v rest hclosed hdone hq =>
      refine ⟨_, _, _, (some.inj h).symm, ⟨⟨.vocoder v, ?_⟩, fun j hj => ?_, rfl⟩,
        .of_eq rfl rfl rfl rfl rfl, fun _ _ => rfl⟩
      · rw [Turn.stageQueue, Turn.stageQueue, hq, map_cons]
      · cases j with
        | thinker => rfl
        | talker => rfl
        | vocoder => exact absurd rfl hj
    next => cases h

end Steps

/-! ## The invariants -/

variable {s s' : Delivery ε ρ τ} {i : StageName}

/-- An id that is gone has been removed. -/
lemma mem_lost {s o : Orchestrator ε ρ τ} {k : Key} (h : (s.requestStates.lookup k).isSome)
    (hnone : o.requestStates.lookup k = none) : k ∈ s.lost o := by
  refine mem_filter.mpr ⟨AList.mem_keys.mp (AList.lookup_isSome.mp h), ?_⟩
  rw [hnone]
  rfl

/-- There is one turn, open and alone in the dictionary; what it submits is registered, and the
queues have results for these tasks only. -/
structure Accounted (s : Delivery ε ρ τ) : Prop where
  single : ∃ t, s.orch.turns = [t] ∧ t.closed = false
  owner : ∀ k n, s.orch.requestStates.lookup k = some n → n = 0
  submitted : SubmittedRegistered s
  outQ : ∀ t ∈ s.orch.turns, ∀ i, ∀ e ∈ s.outQ i, e.2.stage = i ∧ e.1 ∈ t.submittedTo i

lemma turns_edit {s : Orchestrator ε ρ τ} (ht : s.turns = [t]) (t' : Turn ε ρ τ) (pop : Key → Bool)
    (new : List Key) :
    (s.edit 0 t' pop new).turns =
      [{ t' with held := (t'.held.filter fun k => !pop k) ++ new }] := by
  rw [Orchestrator.edit, ht]
  rfl

/-- An edit of the turn keeps the account if the ids that it removes are noted. -/
lemma Accounted.edit (h : Accounted s) (ht : s.orch.turns = [t]) (hproceeds : t.Proceeds t' new)
    (horch : s'.orch = s.orch.edit 0 t' pop new) (hremoved : s.removed ⊆ s'.removed)
    (hpop : ∀ k, pop k = true → k ∈ s.orch.lost s'.orch → k ∈ s'.removed)
    (hout : ∀ i, s'.outQ i ⊆ s.outQ i) : Accounted s' := by
  obtain ⟨u, hu, hclosed⟩ := h.single
  obtain rfl : u = t := singleton_inj.mp (hu.symm.trans ht)
  have hturns := turns_edit ht t' pop new
  rw [← horch] at hturns
  have hlookup (k : Key) := lookup_edit s.orch 0 t' pop new k
  rw [← horch] at hlookup
  refine ⟨⟨_, hturns, hproceeds.closed.trans hclosed⟩, fun k n hk => ?_, ?_, ?_⟩
  · rw [hlookup] at hk
    split at hk
    · exact (some.inj hk).symm
    · split at hk
      · cases hk
      · exact h.owner k n hk
  · intro v hv j k hk
    rw [hturns, mem_singleton] at hv
    obtain rfl := hv
    have hmem : k ∈ t'.submittedTo j := hk
    by_cases hnew : k ∈ new
    · left
      rw [hlookup, if_pos hnew]
      rfl
    · have hold : k ∈ u.submittedTo j := (hproceeds.submitted j k hmem).resolve_right hnew
      rcases h.submitted u (ht ▸ mem_singleton_self u) j k hold with hsome | hgone
      · by_cases hp : pop k = true
        · refine .inr (hpop k hp (mem_lost hsome ?_))
          rw [hlookup, if_neg hnew, if_pos hp]
        · left
          rw [hlookup, if_neg hnew, if_neg hp]
          exact hsome
      · exact .inr (hremoved hgone)
  · intro v hv j e he
    rw [hturns, mem_singleton] at hv
    obtain rfl := hv
    obtain ⟨hstage, hkey⟩ := h.outQ u (ht ▸ mem_singleton_self u) j e (hout j he)
    exact ⟨hstage, hproceeds.kept j hkey⟩

lemma Accounted.edit_keeping (h : Accounted s) (ht : s.orch.turns = [t])
    (hproceeds : t.Proceeds t' new) (horch : s'.orch = s.orch.edit 0 t' (fun _ => false) new)
    (hremoved : s'.removed = s.removed) (hout : ∀ i, s'.outQ i ⊆ s.outQ i) : Accounted s' :=
  h.edit ht hproceeds horch (hremoved ▸ List.Subset.refl _)
    (fun _ hk => absurd hk Bool.false_ne_true) hout

/-- What is neither put nor collected stays in order if nothing on the way gets lost. -/
lemma StageInOrder.of_flow (h : StageInOrder s i) (hput : s'.put i = s.put i)
    (hout : s'.outQ i = s.outQ i) (hcollected : s'.collected i = s.collected i)
    (hremoved : s.removed ⊆ s'.removed)
    (hflow : s'.taken i ++ s'.waiting i = s.taken i ++ s.waiting i) : StageInOrder s' i where
  collected := by rw [hput, hcollected, hout, h.collected]
  delivered := by rw [hcollected, hflow, h.delivered]
  dropped e he hdropped := hremoved (h.dropped e (hcollected ▸ he) hdropped)

lemma waiting_of_turns (ht : s.orch.turns = [t]) (i : StageName) : s.waiting i = t.waiting i := by
  rw [Delivery.waiting, ht, flatMap_cons, flatMap_nil, append_nil]

lemma stageQueue_of_turns (ht : s.orch.turns = [t]) (i : StageName) :
    s.stageQueue i = t.stageQueue i := by
  rw [Delivery.stageQueue, ht, flatMap_cons, flatMap_nil, append_nil]

lemma removed_take (s : Delivery ε ρ τ) (j : StageName) (o : Orchestrator ε ρ τ) :
    s.removed ⊆ (s.take j o).removed := by
  rw [Delivery.take]
  split
  · exact subset_append_left _ _
  · exact List.Subset.refl _

variable {j : StageName}

/-- A worker that takes a result changes nothing in the order. -/
lemma stageInOrder_take (h : StageInOrder s i) (ht : s.orch.turns = [t])
    (htakes : t.TakesFrom t' j) :
    StageInOrder (s.take j (s.orch.edit 0 t' pop new)) i := by
  have hturns : (s.take j (s.orch.edit 0 t' pop new)).orch.turns =
      [{ t' with held := (t'.held.filter fun k => !pop k) ++ new }] := turns_edit ht t' pop new
  refine h.of_flow rfl rfl rfl (removed_take s j _) ?_
  rw [waiting_of_turns hturns, waiting_of_turns ht]
  change update s.taken j _ i ++ t'.waiting i = _
  by_cases hij : i = j
  · subst hij
    obtain ⟨r, hr⟩ := htakes.head
    have hhead : (s.stageQueue i).take 1 = [r] := by
      rw [stageQueue_of_turns ht, hr]
      rfl
    rw [update_self, hhead, Turn.waiting, Turn.waiting, htakes.reqQueue, hr,
      append_assoc]
    rfl
  · rw [update_of_ne hij, Turn.waiting, Turn.waiting, htakes.reqQueue,
      htakes.others i hij]

lemma inv_take (h : Accounted s) (horder : ∀ i, StageInOrder s i)
    (ht : s.orch.turns = [t]) (htakes : t.TakesFrom t' j) (hproceeds : t.Proceeds t' new)
    (hpop : j ≠ .talker → ∀ k, pop k = false) :
    Accounted (s.take j (s.orch.edit 0 t' pop new)) ∧
      ∀ i, StageInOrder (s.take j (s.orch.edit 0 t' pop new)) i := by
  refine ⟨h.edit ht hproceeds rfl (removed_take s j _) (fun k hk hlost => ?_)
    fun _ => List.Subset.refl _, fun i => stageInOrder_take (horder i) ht htakes⟩
  by_cases hj : j = .talker
  · subst hj
    exact mem_append_right _ hlost
  · rw [hpop hj k] at hk
    cases hk

/-- The harvester takes the next result, and drops it only if its id has been removed. -/
lemma StageInOrder.of_collect {e : Key × StageResult ε ρ τ} {rest : List (Key × StageResult ε ρ τ)}
    {found : Bool} (h : StageInOrder s i) (hq : s.outQ i = e :: rest) (hput : s'.put i = s.put i)
    (hout : s'.outQ i = rest) (hcollected : s'.collected i = s.collected i ++ [(e, found)])
    (hremoved : s'.removed = s.removed) (htaken : s'.taken i = s.taken i)
    (hwaiting : s'.waiting i = s.waiting i ++ if found then [e.2] else [])
    (hdropped : found = false → e.1 ∈ s.removed) : StageInOrder s' i where
  collected := by
    rw [hput, hout, hcollected, h.collected, hq, map_append, append_assoc]
    rfl
  delivered := by
    rw [hcollected, hwaiting, htaken, filter_append, map_append, h.delivered,
      append_assoc]
    cases found <;> rfl
  dropped f hf hfalse := by
    rw [hremoved]
    rw [hcollected, mem_append, mem_singleton] at hf
    rcases hf with hf | rfl
    · exact h.dropped f hf hfalse
    · exact hdropped hfalse

/-- A result that is put on the queue of the turn is the last one on the way to its stage. -/
lemma waiting_enqueue (t : Turn ε ρ τ) (e : Key × StageResult ε ρ τ) (i : StageName) :
    Turn.waiting { t with reqQueue := t.reqQueue ++ [e] } i =
      t.waiting i ++ if e.2.stage = i then [e.2] else [] := by
  have hqueue : Turn.stageQueue { t with reqQueue := t.reqQueue ++ [e] } i = t.stageQueue i := by
    cases i <;> rfl
  rw [Turn.waiting, hqueue, Turn.waiting, filter_append, map_append, append_assoc]
  by_cases hstage : e.2.stage = i <;> simp [hstage]

section Runs

variable [Zero ρ] {puts : ℕ → ℕ → Bool} {a : DeliveryAct ε ρ τ} {acts : List (DeliveryAct ε ρ τ)}
  {t : Turn ε ρ τ}

/-- A harvester always gets on: the result goes to the queue of the turn if its id is found. -/
lemma harvest_eq (puts : ℕ → ℕ → Bool) (h : Accounted s) (ht : s.orch.turns = [t])
    (e : Key × StageResult ε ρ τ) :
    ∃ o, orchStep puts s.orch (.harvest e.1 e.2) = some o ∧
      (s.orch.requestStates.lookup e.1 = none ∧ o = s.orch ∨
        (s.orch.requestStates.lookup e.1).isSome = true ∧
          o = s.orch.edit 0 { t with reqQueue := t.reqQueue ++ [e] } (fun _ => false) []) := by
  cases hlookup : s.orch.requestStates.lookup e.1 with
  | none => exact ⟨s.orch, by simp only [orchStep, hlookup], .inl ⟨rfl, rfl⟩⟩
  | some n =>
    obtain rfl := h.owner e.1 n hlookup
    refine ⟨_, ?_, .inr ⟨rfl, rfl⟩⟩
    simp only [orchStep, hlookup, ht, getElem?_cons_zero, map_some]

/-- A harvester collects a result. -/
lemma inv_collect (h : Accounted s) (horder : ∀ i, StageInOrder s i)
    (hstep : s.collect puts j = some s') : Accounted s' ∧ ∀ i, StageInOrder s' i := by
  obtain ⟨t, ht, -⟩ := h.single
  have hmem : t ∈ s.orch.turns := ht ▸ mem_singleton_self t
  unfold Delivery.collect at hstep
  split at hstep
  · cases hstep
  next e rest hq =>
    obtain ⟨hstage, hkey⟩ := h.outQ t hmem j e (hq ▸ mem_cons_self)
    obtain ⟨o, ho, hcases⟩ := harvest_eq puts h ht e
    rw [ho, map_some] at hstep
    cases hstep
    have hout : ∀ k, update s.outQ j rest k ⊆ s.outQ k := by
      intro k
      by_cases hk : k = j
      · subst hk
        rw [update_self, hq]
        exact subset_cons_self _ _
      · rw [update_of_ne hk]
        exact List.Subset.refl _
    rcases hcases with ⟨hnone, rfl⟩ | ⟨hsome, rfl⟩
    · -- the id was registered when the task was submitted, so it has been removed since
      have hremoved : e.1 ∈ s.removed :=
        (h.submitted t hmem j e.1 hkey).resolve_left (by simp [hnone])
      refine ⟨⟨h.single, h.owner, h.submitted, fun u hu k f hf => h.outQ u hu k f (hout k hf)⟩,
        fun k => ?_⟩
      by_cases hk : k = j
      · subst hk
        refine (horder k).of_collect hq rfl (update_self ..) (update_self ..) rfl
          rfl ?_ fun _ => hremoved
        rw [hnone]
        exact (append_nil _).symm
      · exact (horder k).of_flow rfl (update_of_ne hk ..) (update_of_ne hk ..)
          (List.Subset.refl _) rfl
    · have hproceeds : t.Proceeds { t with reqQueue := t.reqQueue ++ [e] } [] :=
        .of_eq rfl rfl rfl rfl rfl
      have hturns := turns_edit ht { t with reqQueue := t.reqQueue ++ [e] } (fun _ => false) []
      refine ⟨h.edit_keeping ht hproceeds rfl rfl hout, fun k => ?_⟩
      by_cases hk : k = j
      · subst hk
        refine (horder k).of_collect hq rfl (update_self ..) (update_self ..) rfl
          rfl ?_ fun hnone => by simp [hsome] at hnone
        rw [waiting_of_turns hturns, waiting_of_turns ht, hsome]
        refine (waiting_enqueue t e k).trans ?_
        rw [if_pos hstage, if_pos rfl]
      · refine (horder k).of_flow rfl (update_of_ne hk ..) (update_of_ne hk ..)
          (List.Subset.refl _) ?_
        rw [waiting_of_turns hturns, waiting_of_turns ht]
        refine congrArg (s.taken k ++ ·) ((waiting_enqueue t e k).trans ?_)
        rw [if_neg fun h => hk (h.symm.trans hstage), append_nil]

lemma inv_put {key : Key} {res : StageResult ε ρ τ} (h : Accounted s)
    (horder : ∀ i, StageInOrder s i) (hstep : deliveryStep puts s (.put key res) = some s') :
    Accounted s' ∧ ∀ i, StageInOrder s' i := by
  obtain ⟨t, ht, -⟩ := h.single
  simp only [deliveryStep] at hstep
  split at hstep
  next hsub =>
    cases hstep
    refine ⟨⟨h.single, h.owner, h.submitted, fun u hu i e he => ?_⟩, fun i => ?_⟩
    all_goals by_cases hi : i = res.stage
    · subst hi
      obtain rfl : u = t := by simpa [ht] using hu
      simp only [ht, mem_singleton, exists_eq_left] at hsub
      dsimp only at he
      rw [update_self, mem_append, mem_singleton] at he
      rcases he with he | rfl
      · exact h.outQ u hu _ e he
      · exact ⟨rfl, hsub⟩
    · dsimp only at he
      rw [update_of_ne hi] at he
      exact h.outQ u hu i e he
    · subst hi
      refine ⟨?_, (horder _).delivered, (horder _).dropped⟩
      simp only [update_self, (horder _).collected, append_assoc]
    · exact (horder i).of_flow (update_of_ne hi ..) (update_of_ne hi ..)
        rfl (List.Subset.refl _) rfl
  next => cases hstep

lemma inv_bargeIn (h : Accounted s) (horder : ∀ i, StageInOrder s i) (session : Key)
    (hstep : deliveryStep puts s (.bargeIn session) = some s') :
    Accounted s' ∧ ∀ i, StageInOrder s' i := by
  cases hstep
  obtain ⟨t, ht, hopen⟩ := h.single
  have hturns : (s.orch.cleanupForBargeIn session).turns = [t.leave session] := by
    rw [Orchestrator.cleanupForBargeIn, ht]
    rfl
  have hlookup (k : Key) : (s.orch.cleanupForBargeIn session).requestStates.lookup k =
      if session.isPrefixOf k then none else s.orch.requestStates.lookup k := lookup_popKeys ..
  have hsub : ∀ i, (t.leave session).submittedTo i = t.submittedTo i := by
    intro i
    unfold Turn.leave
    split
    · cases i <;> rfl
    · rfl
  have hwaiting : ∀ i, (t.leave session).waiting i = t.waiting i := by
    intro i
    unfold Turn.leave
    split
    · cases i <;> rfl
    · rfl
  have hmem : t ∈ s.orch.turns := ht ▸ mem_singleton_self t
  refine ⟨⟨⟨_, hturns, ?_⟩, fun k n hk => ?_, fun u hu i k hk => ?_, fun u hu i e he => ?_⟩,
    fun i => ?_⟩
  · unfold Turn.leave
    split <;> exact hopen
  · rw [hlookup] at hk
    split at hk
    · cases hk
    · exact h.owner k n hk
  · rw [hturns, mem_singleton] at hu
    subst hu
    rw [hsub] at hk
    rcases h.submitted t hmem i k hk with hsome | hgone
    · cases hk' : (s.orch.cleanupForBargeIn session).requestStates.lookup k with
      | none => exact .inr (mem_append_right _ (mem_lost hsome hk'))
      | some n => exact .inl rfl
    · exact .inr (mem_append_left _ hgone)
  · rw [hturns, mem_singleton] at hu
    subst hu
    rw [hsub]
    exact h.outQ t hmem i e he
  · refine (horder i).of_flow rfl rfl rfl (subset_append_left _ _) ?_
    rw [waiting_of_turns ht, waiting_of_turns hturns, hwaiting]

lemma inv_deliveryStep (h : Accounted s ∧ ∀ i, StageInOrder s i)
    (hstep : deliveryStep puts s a = some s') : Accounted s' ∧ ∀ i, StageInOrder s' i := by
  obtain ⟨h, horder⟩ := h
  obtain ⟨t, ht, hopen⟩ := h.single
  have hturn : s.orch.turns[0]? = some t := by rw [ht]; rfl
  cases a with
  | put key res => exact inv_put h horder hstep
  | harvest j => exact inv_collect h horder hstep
  | route =>
    obtain ⟨o, ho, rfl⟩ := map_eq_some_iff.mp hstep
    simp only [orchStep, hturn, hopen, bind_some, Bool.false_eq_true, if_false] at ho
    obtain ⟨t', ht', rfl⟩ := map_eq_some_iff.mp ho
    refine ⟨h.edit_keeping ht (proceeds_of_route ht') rfl rfl fun _ => List.Subset.refl _,
      fun i => ?_⟩
    refine (horder i).of_flow rfl rfl rfl (List.Subset.refl _) ?_
    rw [waiting_of_turns ht, waiting_of_turns (turns_edit ht t' (fun _ => false) [])]
    exact congrArg (s.taken i ++ ·) (waiting_of_route ht' i)
  | work j accepted =>
    obtain ⟨o, ho, rfl⟩ := map_eq_some_iff.mp hstep
    obtain ⟨t', pop, new, rfl, htakes, hproceeds, hpop⟩ := work_eq ht ho
    exact inv_take h horder ht htakes hproceeds hpop
  | raise j late =>
    simp only [deliveryStep, hturn, bind_some] at hstep
    obtain ⟨t', ht', rfl⟩ := map_eq_some_iff.mp hstep
    obtain ⟨htakes, hproceeds⟩ := takesFrom_of_raiseIn ht'
    refine inv_take h horder ht htakes hproceeds fun hj k => ?_
    simp [hj]
  | tick =>
    obtain ⟨o, ho, rfl⟩ := map_eq_some_iff.mp hstep
    obtain ⟨t', new, rfl, hproceeds, hwaiting⟩ := tick_eq ht ho
    refine ⟨h.edit_keeping ht hproceeds rfl rfl fun _ => List.Subset.refl _, fun i => ?_⟩
    refine (horder i).of_flow rfl rfl rfl (List.Subset.refl _) ?_
    rw [waiting_of_turns ht, waiting_of_turns (turns_edit ht t' (fun _ => false) new)]
    exact congrArg (s.taken i ++ ·) (hwaiting i)
  | bargeIn session => exact inv_bargeIn h horder session hstep

omit [Zero ρ] in
/-- Nothing is on the way at the start. -/
lemma accounted_init (session : Key) (time : ℕ) :
    Accounted (Delivery.init session time : Delivery ε ρ τ) where
  single := ⟨_, rfl, rfl⟩
  owner k n hk := by
    rw [Delivery.init, Orchestrator.startTurn, lookup_setKeys] at hk
    split at hk
    · exact (some.inj hk).symm
    · cases hk
  submitted t ht i k hk := by
    obtain rfl := mem_singleton.mp ht
    cases i with
    | thinker =>
      have hown : k ∈ [turnIdOf session time] := hk
      left
      rw [Delivery.init, Orchestrator.startTurn, lookup_setKeys, if_pos hown]
      rfl
    | talker => cases hk
    | vocoder => cases hk
  outQ _ _ _ _ he := nomatch he

omit [Zero ρ] in
lemma stageInOrder_init (session : Key) (time : ℕ) (i : StageName) :
    StageInOrder (Delivery.init session time : Delivery ε ρ τ) i where
  collected := rfl
  delivered := by cases i <;> rfl
  dropped _ he := nomatch he

lemma inv_run {session : Key} {time : ℕ}
    (hrun : run (deliveryStep puts) (Delivery.init session time) acts = some s) :
    Accounted s ∧ ∀ i, StageInOrder s i :=
  run_invariant (I := fun s => Accounted s ∧ ∀ i, StageInOrder s i)
    (fun _ _ _ h hstep => inv_deliveryStep h hstep)
    ⟨accounted_init session time, stageInOrder_init session time⟩ hrun

/-! ## Nothing stays on the way -/

/-- The harvesters and the router carry results on. -/
def DeliveryAct.carries : DeliveryAct ε ρ τ → Prop
  | .harvest _ | .route => True
  | _ => False

/-- How often the harvesters and the router have to act to get everything to the workers. -/
def Delivery.remaining (s : Delivery ε ρ τ) : ℕ :=
  2 * ((s.outQ .thinker).length + (s.outQ .talker).length + (s.outQ .vocoder).length) +
    (s.orch.turns.flatMap Turn.reqQueue).length

omit [Zero ρ] in
lemma exists_route {e : Key × StageResult ε ρ τ} {rest : List (Key × StageResult ε ρ τ)}
    (hq : t.reqQueue = e :: rest) :
    ∃ t', t.route = some t' ∧ t'.reqQueue = rest := by
  obtain ⟨key, res⟩ := e
  cases res <;> exact ⟨_, by rw [Turn.route, hq], rfl⟩

omit [Zero ρ] in
lemma remaining_of_turns (ht : s.orch.turns = [t]) :
    s.remaining =
      2 * ((s.outQ .thinker).length + (s.outQ .talker).length + (s.outQ .vocoder).length) +
        t.reqQueue.length := by
  rw [Delivery.remaining, ht, flatMap_cons, flatMap_nil, append_nil]

lemma collect_progress (puts : ℕ → ℕ → Bool) (h : Accounted s)
    (hne : s.outQ j ≠ []) :
    ∃ s', s.collect puts j = some s' ∧ s'.put = s.put ∧ s'.taken = s.taken ∧
      s'.remaining < s.remaining := by
  obtain ⟨t, ht, -⟩ := h.single
  obtain ⟨e, rest, hq⟩ := exists_cons_of_ne_nil hne
  obtain ⟨o, ho, hcases⟩ := harvest_eq puts h ht e
  have hturns : ∃ t', o.turns = [t'] ∧ t'.reqQueue.length ≤ t.reqQueue.length + 1 := by
    rcases hcases with ⟨-, rfl⟩ | ⟨-, rfl⟩
    · exact ⟨t, ht, Nat.le_succ _⟩
    · exact ⟨_, turns_edit ht _ _ _, (length_append ..).le⟩
  obtain ⟨t', ht', hle⟩ := hturns
  refine ⟨{ s with
    orch := o
    outQ := update s.outQ j rest
    collected := update s.collected j
      (s.collected j ++ [(e, (s.orch.requestStates.lookup e.1).isSome)]) }, ?_, rfl, rfl, ?_⟩
  · simp only [Delivery.collect, hq, ho, map_some]
  · rw [remaining_of_turns ht, remaining_of_turns ht']
    have hlen : (s.outQ j).length = rest.length + 1 := by rw [hq, length_cons]
    cases j <;> simp [update] <;> omega

/-- As long as a result is on its way, a harvester or the router can carry one on. -/
lemma carries_progress (puts : ℕ → ℕ → Bool) (h : Accounted s) (hne : s.remaining ≠ 0) :
    ∃ a s', a.carries ∧ deliveryStep puts s a = some s' ∧ s'.put = s.put ∧ s'.taken = s.taken ∧
      s'.remaining < s.remaining := by
  by_cases hout : ∃ j, s.outQ j ≠ []
  · obtain ⟨j, hj⟩ := hout
    obtain ⟨s', hs', hrest⟩ := collect_progress puts h hj
    exact ⟨.harvest j, s', trivial, hs', hrest⟩
  · obtain ⟨t, ht, hopen⟩ := h.single
    have hempty : ∀ j, s.outQ j = [] := fun j => not_not.mp (not_exists.mp hout j)
    rw [remaining_of_turns ht] at hne
    simp only [hempty, length_nil] at hne
    obtain ⟨e, rest, hq⟩ := exists_cons_of_ne_nil
      (ne_nil_of_length_pos (Nat.pos_of_ne_zero (by omega)) : t.reqQueue ≠ [])
    obtain ⟨t', ht', hrest⟩ := exists_route hq
    have hturns := turns_edit ht t' (fun _ => false) []
    refine ⟨.route, { s with orch := s.orch.edit 0 t' (fun _ => false) [] }, trivial, ?_, rfl, rfl,
      ?_⟩
    · simp [deliveryStep, orchStep, ht, hopen, ht']
    · rw [remaining_of_turns ht, remaining_of_turns hturns]
      simp [hempty, hrest, hq]

/-- The harvesters and the router can bring everything that has been put to the workers. -/
lemma exists_carried (puts : ℕ → ℕ → Bool) (h : Accounted s ∧ ∀ i, StageInOrder s i) :
    ∃ acts' s', (∀ a ∈ acts', a.carries) ∧ run (deliveryStep puts) s acts' = some s' ∧
      ∀ i, (s'.collected i).map Prod.fst = s.put i ∧
        ((s'.collected i).filter Prod.snd).map (fun e => e.1.2) = s.taken i ++ s'.stageQueue i := by
  have hprogress : ∀ u : Delivery ε ρ τ,
      (Accounted u ∧ ∀ i, StageInOrder u i) ∧ u.put = s.put ∧ u.taken = s.taken → u.remaining ≠ 0 →
      ∃ a u', DeliveryAct.carries a ∧ deliveryStep puts u a = some u' ∧
        ((Accounted u' ∧ ∀ i, StageInOrder u' i) ∧ u'.put = s.put ∧ u'.taken = s.taken) ∧
        u'.remaining < u.remaining := by
    rintro u ⟨hu, hput, htaken⟩ hne
    obtain ⟨a, u', ha, hstep, hput', htaken', hlt⟩ := carries_progress puts hu.1 hne
    exact ⟨a, u', ha, hstep,
      ⟨inv_deliveryStep hu hstep, hput'.trans hput, htaken'.trans htaken⟩, hlt⟩
  obtain ⟨acts', s', hacts, hrun, ⟨hinv, hput, htaken⟩, hzero⟩ :=
    exists_run_rank_zero hprogress ⟨h, rfl, rfl⟩
  refine ⟨acts', s', hacts, hrun, fun i => ?_⟩
  obtain ⟨t, ht, -⟩ := hinv.1.single
  rw [remaining_of_turns ht] at hzero
  have hreq : t.reqQueue = [] := length_eq_zero_iff.mp (by omega)
  have hout : s'.outQ i = [] := by
    refine length_eq_zero_iff.mp ?_
    cases i <;> omega
  have horder := hinv.2 i
  constructor
  · rw [← hput, horder.collected, hout, append_nil]
  · rw [horder.delivered, htaken, waiting_of_turns ht, stageQueue_of_turns ht, Turn.waiting, hreq]
    exact congrArg (s.taken i ++ ·) (append_nil _)

/-- In every run, each stage's results are collected in the order they were put, and its worker has
taken a beginning of them, without those whose id a stop or a barge-in has removed. The rest can be
brought to the worker. A submitted task has its id in the dictionary unless that has been
removed. -/
theorem results_delivered_in_order {session : Key} {time : ℕ}
    (hrun : run (deliveryStep puts) (Delivery.init session time) acts = some s) :
    SubmittedRegistered s ∧ (∀ i, StageInOrder s i) ∧
      ∃ acts' s', (∀ a ∈ acts', a.carries) ∧ run (deliveryStep puts) s acts' = some s' ∧
        ∀ i, StageInOrder s' i ∧ (s'.collected i).map Prod.fst = s.put i ∧
          ((s'.collected i).filter Prod.snd).map (fun e => e.1.2) =
            s.taken i ++ s'.stageQueue i := by
  have hinv := inv_run hrun
  obtain ⟨acts', s', hacts, hrun', hcarried⟩ := exists_carried puts hinv
  have hinv' := inv_run ((run_append ..).trans (by rw [hrun]; exact hrun'))
  exact ⟨hinv.1.submitted, hinv.2, acts', s', hacts, hrun', fun i => ⟨hinv'.2 i, hcarried i⟩⟩

end Runs

/-- The talker stops at once, and has put out another result before the stop is handled. -/
def stopAndLateResult : List (DeliveryAct ℕ ℕ ℕ) :=
  [.put (turnIdOf ['a'] 0) (.thinker (shortResult 2 false)), .harvest .thinker, .route,
    .work .thinker true,
    .put (stage1Key (turnIdOf ['a'] 0) 0)
      (.talker { idx := 0, tokenIds := [stopToken], audioCodes := some [7] }),
    .harvest .talker, .route,
    .put (stage1Key (turnIdOf ['a'] 0) 0)
      (.talker { idx := 0, tokenIds := [5], audioCodes := some [8] }),
    .work .talker true, .harvest .talker]

/-- The worker of the talker takes the stop, and the late result is dropped. -/
theorem results_delivered_in_order_late :
    ∃ s, run (deliveryStep fun _ _ => true) (Delivery.init ['a'] 0) stopAndLateResult = some s ∧
      ((s.collected .talker).map Prod.snd = [true, false] ∧ (s.taken .talker).length = 1) ∧
      SubmittedRegistered s ∧ (∀ i, StageInOrder s i) ∧
      ∃ acts' s', (∀ a ∈ acts', a.carries) ∧
        run (deliveryStep fun _ _ => true) s acts' = some s' ∧
        ∀ i, StageInOrder s' i ∧ (s'.collected i).map Prod.fst = s.put i ∧
          ((s'.collected i).filter Prod.snd).map (fun e => e.1.2) =
            s.taken i ++ s'.stageQueue i := by
  have hreached : ((run (deliveryStep fun _ _ => true) (Delivery.init ['a'] 0)
      stopAndLateResult).any fun s => decide
        ((s.collected .talker).map Prod.snd = [true, false] ∧ (s.taken .talker).length = 1)) =
      true := by
    decide +kernel
  obtain ⟨s, hrun, htaken⟩ := exists_reached hreached
  exact ⟨s, hrun, htaken, results_delivered_in_order hrun⟩

end OmniStreaming
