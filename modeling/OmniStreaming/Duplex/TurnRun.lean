import OmniStreaming.Duplex.Reassembly
import OmniStreaming.Duplex.TokenRelay

/-!
# A whole turn: `generate_realtime_final`

The generator of a turn submits the stage-0 task, starts `router_task` and the three workers, and
then waits on `final_output_q` until an audio output comes that is marked finished. Nothing else
ends it: it does not look at the workers, and a worker that raises is only logged or not even that.

`TurnRun` is the turn with the three stages around it. A stage answers its tasks in any order, with
a result or with the dictionary that `generation_single_request` puts out for a failed request,
which has no outputs; `_load` raises on that. The talker may also flush requests behind a stop
token, without an answer. An answer counts as given when the harvester collects it.
-/

namespace OmniStreaming

open Transition

variable {ε ρ : Type*}

/-! ## The parts of a turn -/

/-- What a stage puts out for a task: a result, or an error without outputs. -/
inductive StageMsg (α : Type*)
  | result (a : α)
  | error
  deriving Repr, DecidableEq

/-- A message on `req_state.queue`. -/
inductive TurnMsg (ε ρ : Type*)
  | thinker (m : StageMsg (ThinkerResult ε))
  | talker (m : StageMsg (TalkerResult ρ))
  | vocoder (m : StageMsg (VocoderResult (ρ × ℕ)))

/-- The three workers of a turn. -/
inductive Worker
  | zeroToOne
  | oneToTwo
  | twoToServer
  deriving Repr, DecidableEq

/-- What has become of a worker. -/
inductive WorkerStatus
  | running
  | returned
  | failed
  deriving Repr, DecidableEq

/-- An item on `final_output_q`: the text of a stage-0 result, or a piece of audio. -/
inductive FinalOutput
  | text
  | audio (finished : Bool)
  deriving Repr, DecidableEq

/-- A turn and its stages: the thinker's results to come, the queues, the workers, the output queue
and, as a history, the talker results handled. -/
structure TurnRun (ε ρ : Type*) where
  thinkerLeft : List (ThinkerResult ε)
  talkerQueue : List ℕ := []
  talkerTaken : List ℕ := []
  talkerStops : List ℕ := []
  vocoderTasks : List (Stage2Task ρ) := []
  registered : List ℕ := []
  reqQueue : List (TurnMsg ε ρ) := []
  stage0Queue : List (StageMsg (ThinkerResult ε)) := []
  stage1Queue : List (StageMsg (TalkerResult ρ)) := []
  stage2Queue : List (StageMsg (VocoderResult (ρ × ℕ))) := []
  relay : RelayLoop ε := { inbox := [] }
  md : TurnMetadata ρ := {}
  sender : WorkerStatus := .running
  receiver : WorkerStatus := .running
  finalQueue : List FinalOutput := []
  done : Bool := false
  handled : List (TalkerResult ρ) := []

inductive TurnAct (ρ : Type*)
  /-- The thinker puts out its next result. -/
  | thinker
  /-- The thinker puts out an error in place of the rest. -/
  | thinkerError
  /-- The talker stage takes a task from its queue. -/
  | talkerTake
  /-- The talker answers a task. -/
  | talker (r : TalkerResult ρ)
  /-- The talker answers task `k` with an error. -/
  | talkerError (k : ℕ)
  /-- The talker flushes task `k`. -/
  | talkerFlush (k : ℕ)
  /-- The vocoder answers one of its tasks. -/
  | vocoder (i : ℕ)
  /-- The vocoder answers one of its tasks with an error. -/
  | vocoderError (i : ℕ)
  /-- `router_task` moves a message to the queue of its stage. -/
  | route
  /-- `worker_0to1` takes a message. -/
  | work0
  /-- The coroutine of the relay that has been ready for longest runs. -/
  | tick
  /-- `worker_1to2` takes a message; `accepted` is the answer of the connector. -/
  | work1 (accepted : Bool)
  /-- `worker_2toServer` takes a message. -/
  | work2
  /-- A worker takes a message and raises while it works on it. -/
  | raise (w : Worker)
  /-- The generator takes an item from the output queue. -/
  | consume

/-! ## The events -/

variable (s : TurnRun ε ρ)

/-- The turn after a step of the relay: new ids and tasks, and the text if an iteration of
`worker_0to1` ends. -/
def TurnRun.withRelay (l : RelayLoop ε) (recv : Bool) : TurnRun ε ρ :=
  { s with
    relay := l
    registered := s.registered ++ l.st.registered.drop s.relay.st.registered.length
    talkerQueue := s.talkerQueue ++
      (l.st.submitted.drop s.relay.st.submitted.length).map Stage1Task.seq
    finalQueue :=
      if l.idle && !l.raised && (recv || !s.relay.idle) then s.finalQueue ++ [.text]
      else s.finalQueue }

/-- `worker_0to1` has raised. -/
def TurnRun.failRelay : TurnRun ε ρ :=
  { s with relay := { s.relay with idle := false, raised := true } }

/-- What the stop handler does to the talker's queue and to the registered ids. -/
def TurnRun.forget (r : TalkerResult ρ) : TurnRun ε ρ :=
  if r.isStop then
    { s with
      talkerQueue := s.talkerQueue.filter fun k => !(k ∈ s.registered ∧ r.idx < k : Bool)
      registered := [] }
  else s

/-- `worker_1to2` on a result. -/
def TurnRun.send [Zero ρ] (s : TurnRun ε ρ) (r : TalkerResult ρ) (accepted : Bool) : TurnRun ε ρ :=
  let o := worker1to2 s.md r
  { s.forget r with
    md := o.md
    sender := if o.alive then .running else .failed
    vocoderTasks := if accepted then s.vocoderTasks ++ o.sent.toList else s.vocoderTasks
    handled := s.handled ++ [r] }

/-- `worker_2toServer` on a result. -/
def TurnRun.receive (v : VocoderResult (ρ × ℕ)) : TurnRun ε ρ :=
  let o := worker2toServer s.md v
  { s with
    md := o.1
    receiver := if o.2.any AudioPiece.finished then .returned else .running
    finalQueue := s.finalQueue ++ (o.2.map fun p => FinalOutput.audio p.finished).toList }

/-- `router_task` moves a message. -/
def TurnRun.route : Option (TurnRun ε ρ) :=
  match s.reqQueue with
  | [] => none
  | .thinker m :: rest => some { s with reqQueue := rest, stage0Queue := s.stage0Queue ++ [m] }
  | .talker m :: rest => some { s with reqQueue := rest, stage1Queue := s.stage1Queue ++ [m] }
  | .vocoder m :: rest => some { s with reqQueue := rest, stage2Queue := s.stage2Queue ++ [m] }

/-- The talker puts out a message for task `k`, delivered if the id is registered. -/
def TurnRun.harvestTalker (k : ℕ) (m : StageMsg (TalkerResult ρ)) : TurnRun ε ρ :=
  { s with
    talkerTaken := s.talkerTaken.filter (· ≠ k)
    reqQueue := if k ∈ s.registered then s.reqQueue ++ [.talker m] else s.reqQueue }

/-- `worker_0to1` takes a message, if it runs and waits for one. -/
def TurnRun.takeMsg0 : Option (StageMsg (ThinkerResult ε) × TurnRun ε ρ) :=
  match s.done, s.relay.raised, s.relay.idle, s.stage0Queue with
  | false, false, true, m :: rest => some (m, { s with stage0Queue := rest })
  | _, _, _, _ => none

/-- `worker_1to2` takes a message, if it runs. -/
def TurnRun.takeMsg1 : Option (StageMsg (TalkerResult ρ) × TurnRun ε ρ) :=
  match s.done, s.sender, s.stage1Queue with
  | false, .running, m :: rest => some (m, { s with stage1Queue := rest })
  | _, _, _ => none

/-- `worker_2toServer` takes a message, if it runs. -/
def TurnRun.takeMsg2 : Option (StageMsg (VocoderResult (ρ × ℕ)) × TurnRun ε ρ) :=
  match s.done, s.receiver, s.stage2Queue with
  | false, .running, m :: rest => some (m, { s with stage2Queue := rest })
  | _, _, _ => none

/-- A worker takes a message and raises. -/
def TurnRun.raiseIn : Worker → Option (TurnRun ε ρ)
  | .zeroToOne => s.takeMsg0.map fun x => x.2.failRelay
  | .oneToTwo => s.takeMsg1.map fun x => { x.2 with sender := .failed }
  | .twoToServer => s.takeMsg2.map fun x => { x.2 with receiver := .failed }

/-- One event of a turn; `puts k` answers stage-1 task `k`. The end of the generator cancels its
tasks. -/
def turnStep [Zero ρ] (puts : ℕ → Bool) (s : TurnRun ε ρ) : TurnAct ρ → Option (TurnRun ε ρ)
  | .thinker =>
    match s.thinkerLeft with
    | [] => none
    | r :: rest =>
      some { s with thinkerLeft := rest, reqQueue := s.reqQueue ++ [.thinker (.result r)] }
  | .thinkerError =>
    match s.thinkerLeft with
    | [] => none
    | _ :: _ => some { s with thinkerLeft := [], reqQueue := s.reqQueue ++ [.thinker .error] }
  | .talkerTake =>
    match s.talkerQueue with
    | [] => none
    | k :: rest => some { s with talkerQueue := rest, talkerTaken := s.talkerTaken ++ [k] }
  | .talker r =>
    if r.idx ∈ s.talkerTaken then
      some { s.harvestTalker r.idx (.result r) with
        talkerStops := if r.isStop then s.talkerStops ++ [r.idx] else s.talkerStops }
    else none
  | .talkerError k =>
    if k ∈ s.talkerTaken then some (s.harvestTalker k .error) else none
  | .talkerFlush k =>
    if k ∈ s.talkerTaken ∧ ∃ i ∈ s.talkerStops, i < k then
      some { s with talkerTaken := s.talkerTaken.filter (· ≠ k) }
    else none
  | .vocoder i =>
    s.vocoderTasks[i]?.map fun t =>
      { s with
        vocoderTasks := s.vocoderTasks.eraseIdx i
        reqQueue := s.reqQueue ++ [.vocoder (.result (code2wavAnswer t))] }
  | .vocoderError i =>
    s.vocoderTasks[i]?.map fun _ =>
      { s with
        vocoderTasks := s.vocoderTasks.eraseIdx i
        reqQueue := s.reqQueue ++ [.vocoder .error] }
  | .route => if s.done then none else s.route
  | .work0 =>
    s.takeMsg0.map fun
      | (.result r, s) => s.withRelay (s.relay.recvResult puts r) true
      | (.error, s) => s.failRelay
  | .tick =>
    match s.done, s.relay.ready with
    | false, t :: rest =>
      some (s.withRelay (RelayLoop.runTask puts { s.relay with ready := rest } t) false)
    | _, _ => none
  | .work1 accepted =>
    s.takeMsg1.map fun
      | (.result r, s) => s.send r accepted
      | (.error, s) => { s with sender := .failed }
  | .work2 =>
    s.takeMsg2.map fun
      | (.result v, s) => s.receive v
      | (.error, s) => { s with receiver := .failed }
  | .raise w => s.raiseIn w
  | .consume =>
    match s.done, s.finalQueue with
    | false, o :: rest => some { s with finalQueue := rest, done := o = .audio true }
    | _, _ => none

/-! ## What an event can do -/

variable {s s' : TurnRun ε ρ}

/-- `worker_0to1` takes a message. -/
lemma takeMsg0_eq_some {m : StageMsg (ThinkerResult ε)} (h : s.takeMsg0 = some (m, s')) :
    ∃ rest, s.done = false ∧ s.relay.raised = false ∧ s.relay.idle = true ∧
      s.stage0Queue = m :: rest ∧ s' = { s with stage0Queue := rest } := by
  unfold TurnRun.takeMsg0 at h
  split at h
  · rename_i m' rest hdone hraised hidle hq
    cases Option.some.inj h
    exact ⟨rest, hdone, hraised, hidle, hq, rfl⟩
  · cases h

/-- `worker_1to2` takes a message. -/
lemma takeMsg1_eq_some {m : StageMsg (TalkerResult ρ)} (h : s.takeMsg1 = some (m, s')) :
    ∃ rest, s.done = false ∧ s.sender = .running ∧ s.stage1Queue = m :: rest ∧
      s' = { s with stage1Queue := rest } := by
  unfold TurnRun.takeMsg1 at h
  split at h
  · rename_i m' rest hdone hrunning hq
    cases Option.some.inj h
    exact ⟨rest, hdone, hrunning, hq, rfl⟩
  · cases h

/-- `worker_2toServer` takes a message. -/
lemma takeMsg2_eq_some {m : StageMsg (VocoderResult (ρ × ℕ))} (h : s.takeMsg2 = some (m, s')) :
    ∃ rest, s.done = false ∧ s.receiver = .running ∧ s.stage2Queue = m :: rest ∧
      s' = { s with stage2Queue := rest } := by
  unfold TurnRun.takeMsg2 at h
  split at h
  · rename_i m' rest hdone hrunning hq
    cases Option.some.inj h
    exact ⟨rest, hdone, hrunning, hq, rfl⟩
  · cases h

/-- The three ways of a message through the router. -/
lemma route_cases (h : s.route = some s') :
    (∃ m rest, s.reqQueue = .thinker m :: rest ∧
      s' = { s with reqQueue := rest, stage0Queue := s.stage0Queue ++ [m] }) ∨
    (∃ m rest, s.reqQueue = .talker m :: rest ∧
      s' = { s with reqQueue := rest, stage1Queue := s.stage1Queue ++ [m] }) ∨
    ∃ m rest, s.reqQueue = .vocoder m :: rest ∧
      s' = { s with reqQueue := rest, stage2Queue := s.stage2Queue ++ [m] } := by
  unfold TurnRun.route at h
  split at h
  · cases h
  · rename_i m rest hq
    exact .inl ⟨m, rest, hq, (Option.some.inj h).symm⟩
  · rename_i m rest hq
    exact .inr (.inl ⟨m, rest, hq, (Option.some.inj h).symm⟩)
  · rename_i m rest hq
    exact .inr (.inr ⟨m, rest, hq, (Option.some.inj h).symm⟩)

/-- The stop handler touches the talker's queue and the registered ids only. -/
lemma exists_forget (s : TurnRun ε ρ) (r : TalkerResult ρ) :
    ∃ queue registered,
      s.forget r = { s with talkerQueue := queue, registered := registered } := by
  unfold TurnRun.forget
  split_ifs
  · exact ⟨_, _, rfl⟩
  · exact ⟨s.talkerQueue, s.registered, rfl⟩

/-- The events that can happen in a turn, and what each of them leads to. -/
inductive TurnMove [Zero ρ] (puts : ℕ → Bool) (s : TurnRun ε ρ) : TurnAct ρ → TurnRun ε ρ → Prop
  | thinker {r : ThinkerResult ε} {rest : List (ThinkerResult ε)}
    (hleft : s.thinkerLeft = r :: rest) :
    TurnMove puts s .thinker
      { s with thinkerLeft := rest, reqQueue := s.reqQueue ++ [.thinker (.result r)] }
  | thinkerError :
    TurnMove puts s .thinkerError
      { s with thinkerLeft := [], reqQueue := s.reqQueue ++ [.thinker .error] }
  | talkerTake {k : ℕ} {rest : List ℕ} (hq : s.talkerQueue = k :: rest) :
    TurnMove puts s .talkerTake
      { s with talkerQueue := rest, talkerTaken := s.talkerTaken ++ [k] }
  | talker {r : TalkerResult ρ} (htaken : r.idx ∈ s.talkerTaken) :
    TurnMove puts s (.talker r)
      { s.harvestTalker r.idx (.result r) with
        talkerStops := if r.isStop then s.talkerStops ++ [r.idx] else s.talkerStops }
  | talkerError {k : ℕ} (htaken : k ∈ s.talkerTaken) :
    TurnMove puts s (.talkerError k) (s.harvestTalker k .error)
  | talkerFlush {k : ℕ} :
    TurnMove puts s (.talkerFlush k) { s with talkerTaken := s.talkerTaken.filter (· ≠ k) }
  | vocoder {i : ℕ} {t : Stage2Task ρ} (ht : s.vocoderTasks[i]? = some t) :
    TurnMove puts s (.vocoder i)
      { s with
        vocoderTasks := s.vocoderTasks.eraseIdx i
        reqQueue := s.reqQueue ++ [.vocoder (.result (code2wavAnswer t))] }
  | vocoderError {i : ℕ} {t : Stage2Task ρ} (ht : s.vocoderTasks[i]? = some t) :
    TurnMove puts s (.vocoderError i)
      { s with
        vocoderTasks := s.vocoderTasks.eraseIdx i
        reqQueue := s.reqQueue ++ [.vocoder .error] }
  | routeThinker {m : StageMsg (ThinkerResult ε)} {rest : List (TurnMsg ε ρ)}
    (hq : s.reqQueue = .thinker m :: rest) :
    TurnMove puts s .route { s with reqQueue := rest, stage0Queue := s.stage0Queue ++ [m] }
  | routeTalker {m : StageMsg (TalkerResult ρ)} {rest : List (TurnMsg ε ρ)}
    (hq : s.reqQueue = .talker m :: rest) :
    TurnMove puts s .route { s with reqQueue := rest, stage1Queue := s.stage1Queue ++ [m] }
  | routeVocoder {m : StageMsg (VocoderResult (ρ × ℕ))} {rest : List (TurnMsg ε ρ)}
    (hq : s.reqQueue = .vocoder m :: rest) :
    TurnMove puts s .route { s with reqQueue := rest, stage2Queue := s.stage2Queue ++ [m] }
  | work0 {r : ThinkerResult ε} {rest : List (StageMsg (ThinkerResult ε))}
    (hdone : s.done = false) (hq : s.stage0Queue = .result r :: rest) :
    TurnMove puts s .work0
      (({ s with stage0Queue := rest } : TurnRun ε ρ).withRelay (s.relay.recvResult puts r) true)
  | work0Error {rest : List (StageMsg (ThinkerResult ε))} (hdone : s.done = false)
    (hq : s.stage0Queue = .error :: rest) :
    TurnMove puts s .work0 ({ s with stage0Queue := rest } : TurnRun ε ρ).failRelay
  | tick {t : RelayTask} {rest : List RelayTask} (hdone : s.done = false)
    (hq : s.relay.ready = t :: rest) :
    TurnMove puts s .tick
      (s.withRelay (RelayLoop.runTask puts { s.relay with ready := rest } t) false)
  | work1 {accepted : Bool} {r : TalkerResult ρ} {rest : List (StageMsg (TalkerResult ρ))}
    (hdone : s.done = false) (hrunning : s.sender = .running)
    (hq : s.stage1Queue = .result r :: rest) :
    TurnMove puts s (.work1 accepted)
      (({ s with stage1Queue := rest } : TurnRun ε ρ).send r accepted)
  | work1Error {accepted : Bool} {rest : List (StageMsg (TalkerResult ρ))}
    (hdone : s.done = false) (hq : s.stage1Queue = .error :: rest) :
    TurnMove puts s (.work1 accepted) { s with stage1Queue := rest, sender := .failed }
  | work2 {v : VocoderResult (ρ × ℕ)} {rest : List (StageMsg (VocoderResult (ρ × ℕ)))}
    (hdone : s.done = false) (hrunning : s.receiver = .running)
    (hq : s.stage2Queue = .result v :: rest) :
    TurnMove puts s .work2 (({ s with stage2Queue := rest } : TurnRun ε ρ).receive v)
  | work2Error {rest : List (StageMsg (VocoderResult (ρ × ℕ)))} (hdone : s.done = false)
    (hq : s.stage2Queue = .error :: rest) :
    TurnMove puts s .work2 { s with stage2Queue := rest, receiver := .failed }
  | raise0 {rest : List (StageMsg (ThinkerResult ε))} (hdone : s.done = false) :
    TurnMove puts s (.raise .zeroToOne) ({ s with stage0Queue := rest } : TurnRun ε ρ).failRelay
  | raise1 {rest : List (StageMsg (TalkerResult ρ))} (hdone : s.done = false) :
    TurnMove puts s (.raise .oneToTwo) { s with stage1Queue := rest, sender := .failed }
  | raise2 {rest : List (StageMsg (VocoderResult (ρ × ℕ)))} (hdone : s.done = false) :
    TurnMove puts s (.raise .twoToServer) { s with stage2Queue := rest, receiver := .failed }
  | consume {o : FinalOutput} {rest : List FinalOutput} (hdone : s.done = false)
    (hq : s.finalQueue = o :: rest) :
    TurnMove puts s .consume { s with finalQueue := rest, done := o = .audio true }

/-- Every event of a turn is one of the moves. -/
lemma turnMove_of_step [Zero ρ] {puts : ℕ → Bool} {a : TurnAct ρ}
    (h : turnStep puts s a = some s') : TurnMove puts s a s' := by
  cases a with
  | thinker =>
    simp only [turnStep] at h
    split at h
    · cases h
    · rename_i r rest hleft
      exact Option.some.inj h ▸ .thinker hleft
  | thinkerError =>
    simp only [turnStep] at h
    split at h
    · cases h
    · exact Option.some.inj h ▸ .thinkerError
  | talkerTake =>
    simp only [turnStep] at h
    split at h
    · cases h
    · rename_i k rest hq
      exact Option.some.inj h ▸ .talkerTake hq
  | talker r =>
    simp only [turnStep] at h
    split at h
    · rename_i htaken
      exact Option.some.inj h ▸ .talker htaken
    · cases h
  | talkerError k =>
    simp only [turnStep] at h
    split at h
    · rename_i htaken
      exact Option.some.inj h ▸ .talkerError htaken
    · cases h
  | talkerFlush k =>
    simp only [turnStep] at h
    split at h
    · exact Option.some.inj h ▸ .talkerFlush
    · cases h
  | vocoder i =>
    obtain ⟨t, ht, rfl⟩ := Option.map_eq_some_iff.mp h
    exact .vocoder ht
  | vocoderError i =>
    obtain ⟨t, ht, rfl⟩ := Option.map_eq_some_iff.mp h
    exact .vocoderError ht
  | route =>
    simp only [turnStep] at h
    split at h
    · cases h
    · obtain ⟨m, rest, hq, rfl⟩ | ⟨m, rest, hq, rfl⟩ | ⟨m, rest, hq, rfl⟩ := route_cases h
      · exact .routeThinker hq
      · exact .routeTalker hq
      · exact .routeVocoder hq
  | work0 =>
    obtain ⟨⟨m, s₁⟩, htake, rfl⟩ := Option.map_eq_some_iff.mp h
    obtain ⟨rest, hdone, -, -, hq, rfl⟩ := takeMsg0_eq_some htake
    cases m with
    | result r => exact .work0 hdone hq
    | error => exact .work0Error hdone hq
  | tick =>
    simp only [turnStep] at h
    split at h
    · rename_i t rest hdone hq
      exact Option.some.inj h ▸ .tick hdone hq
    · cases h
  | work1 accepted =>
    obtain ⟨⟨m, s₁⟩, htake, rfl⟩ := Option.map_eq_some_iff.mp h
    obtain ⟨rest, hdone, hrunning, hq, rfl⟩ := takeMsg1_eq_some htake
    cases m with
    | result r => exact .work1 hdone hrunning hq
    | error => exact .work1Error hdone hq
  | work2 =>
    obtain ⟨⟨m, s₁⟩, htake, rfl⟩ := Option.map_eq_some_iff.mp h
    obtain ⟨rest, hdone, hrunning, hq, rfl⟩ := takeMsg2_eq_some htake
    cases m with
    | result v => exact .work2 hdone hrunning hq
    | error => exact .work2Error hdone hq
  | raise w =>
    cases w with
    | zeroToOne =>
      obtain ⟨⟨m, s₁⟩, htake, rfl⟩ := Option.map_eq_some_iff.mp h
      obtain ⟨rest, hdone, -, -, -, rfl⟩ := takeMsg0_eq_some htake
      exact .raise0 hdone
    | oneToTwo =>
      obtain ⟨⟨m, s₁⟩, htake, rfl⟩ := Option.map_eq_some_iff.mp h
      obtain ⟨rest, hdone, -, -, rfl⟩ := takeMsg1_eq_some htake
      exact .raise1 hdone
    | twoToServer =>
      obtain ⟨⟨m, s₁⟩, htake, rfl⟩ := Option.map_eq_some_iff.mp h
      obtain ⟨rest, hdone, -, -, rfl⟩ := takeMsg2_eq_some htake
      exact .raise2 hdone
  | consume =>
    simp only [turnStep] at h
    split at h
    · rename_i o rest hdone hq
      exact Option.some.inj h ▸ .consume hdone hq
    · cases h

/-- The event happens in a stage or in `router_task`. -/
def TurnAct.Outside : TurnAct ρ → Prop
  | .work0 | .tick | .work1 _ | .work2 | .raise _ | .consume => False
  | _ => True

/-- The workers, the output queue and the generator stand as before. -/
structure SameWorkers (s s' : TurnRun ε ρ) : Prop where
  relay : s'.relay = s.relay
  md : s'.md = s.md
  sender : s'.sender = s.sender
  receiver : s'.receiver = s.receiver
  finalQueue : s'.finalQueue = s.finalQueue
  done : s'.done = s.done
  handled : s'.handled = s.handled

/-- What the stages and the router do leaves the workers as they are. -/
lemma sameWorkers_of_outside [Zero ρ] {puts : ℕ → Bool} {a : TurnAct ρ} (hact : a.Outside)
    (h : turnStep puts s a = some s') : SameWorkers s s' := by
  cases turnMove_of_step h with
  | thinker | thinkerError | talkerTake | talker | talkerError | talkerFlush | vocoder
  | vocoderError | routeThinker | routeTalker | routeVocoder =>
    exact ⟨rfl, rfl, rfl, rfl, rfl, rfl, rfl⟩
  | work0 | work0Error | tick | work1 | work1Error | work2 | work2Error | raise0 | raise1 | raise2
  | consume => exact hact.elim

/-- The relay puts no audio on the output queue. -/
lemma mem_finalQueue_withRelay {l : RelayLoop ε} {recv b : Bool} :
    .audio b ∈ (s.withRelay l recv).finalQueue ↔ .audio b ∈ s.finalQueue := by
  unfold TurnRun.withRelay
  split_ifs
  · simp
  · exact Iff.rfl

/-! ## A short turn -/

/-- The first result of a thinker, with two tokens. -/
def firstResult : ThinkerResult ℕ where
  promptTokenIds := [imStartTokenId, userTokenId, imStartTokenId, assistantTokenId]
  tokenIds := [7, 8]
  mm := { embeds := [⟨0, none⟩], hidden := [0], ttsBosEmbed := [], ttsEosEmbed := [],
          ttsPadEmbed := [] }
  finished := false

/-- The prefill is answered with a row and the stop token, the one window is answered, and the
generator takes both outputs. -/
def shortTurnRun : List (TurnAct ℕ) :=
  [.thinker, .route, .work0, .talkerTake, .talker ⟨0, [2150], some [5]⟩, .route, .work1 true,
    .vocoder 0, .route, .work2, .consume, .consume]

end OmniStreaming
