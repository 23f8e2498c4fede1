import OmniStreaming.Duplex.RequestId
import OmniStreaming.Lib.OrderedDict

/-!
# The loop of a stage worker: `_stage_worker_async`

In each iteration a stage worker takes a task from its input queue. For a `GENERATE` task it starts
a coroutine `generation_single_request` and enters it in `active_generation_tasks` under its request
id; for an `ABORT` task it cancels the coroutines whose ids contain the session's id. Then it
collects what the coroutines have put on `generation_out_q`, sleeps, and puts the collected outputs
on `out_q`, except for those whose id is not active when the last task was not a `GENERATE`.

The map of active tasks is changed by the loop, the `finally` block of each coroutine and a
done-callback. The callback pops `rid`, the variable of the loop, whose value is `ridVar`.
-/

namespace OmniStreaming

variable {ω : Type*}

/-! ## The parts of a worker -/

/-- A task on the input queue. -/
inductive StageTask
  | generate (rid : Key)
  | abort (session : Key)
  deriving DecidableEq

/-- The values of `OmniStageTaskType` that a running worker sees. -/
inductive TaskType
  | generate
  | abort
  deriving Repr, DecidableEq

/-- Where a coroutine stands. -/
inductive GenerationStatus
  /-- Created, its body not entered. -/
  | created
  /-- Waiting for the next output of the engine. -/
  | waiting
  /-- Ended; the done-callback has not run. -/
  | ended
  /-- The done-callback has run. -/
  | released
  deriving Repr, DecidableEq

/-- A coroutine `generation_single_request`: its id, where it stands, the output received and not
yet put on the queue, and whether it is to be cancelled. -/
structure Generation (ω : Type*) where
  rid : Key
  status : GenerationStatus := .created
  held : Option ω := none
  cancelling : Bool := false

/-- What the worker puts on `out_q`. -/
inductive OutMsg (ω : Type*)
  | output (o : ω)
  | error
  deriving Repr, DecidableEq

/-- At its head, in the sleep after an empty input queue, or in that after it has collected a
batch. -/
inductive LoopPhase (ω : Type*)
  | head
  | idle
  | collected (batch : List (Key × ω))

/-- The state of a worker, with the coroutines in order; `produced` is what the engine has put
out. -/
structure StageWorker (ω : Type*) where
  inQ : List StageTask := []
  phase : LoopPhase ω := .head
  taskType : Option TaskType := none
  ridVar : Option Key := none
  active : List (Key × ℕ) := []
  abortedSessions : List Key := []
  lastProcessedSession : Option Key := none
  gens : List (Generation ω) := []
  generationOutQ : List (Key × ω) := []
  outQ : List (Key × OutMsg ω) := []
  produced : List (Key × ω) := []

inductive WorkerAct (ω : Type*)
  /-- A task arrives on the input queue. -/
  | submit (t : StageTask)
  /-- The loop takes a task, or goes to sleep. -/
  | poll
  /-- The loop wakes up from an empty input queue and collects. -/
  | wake
  /-- The loop puts the batch on the output queue. -/
  | flush
  /-- The body of coroutine `i` is entered. -/
  | start (i : ℕ)
  /-- The engine puts out `o` for coroutine `i`. -/
  | yield (i : ℕ) (o : ω)
  /-- Coroutine `i` puts its output on `generation_out_q`. -/
  | put (i : ℕ)
  /-- The engine has no more outputs for coroutine `i`. -/
  | finish (i : ℕ)
  /-- Coroutine `i` raises. -/
  | fail (i : ℕ)
  /-- Coroutine `i` is cancelled. -/
  | cancelled (i : ℕ)
  /-- The done-callback of coroutine `i` runs. -/
  | callback (i : ℕ)

/-! ## The loop -/

variable (s : StageWorker ω)

/-- Take everything from `generation_out_q`. -/
def StageWorker.collect : StageWorker ω :=
  { s with
    generationOutQ := []
    phase := .collected s.generationOutQ
    ridVar := (s.generationOutQ.getLast?.map Prod.fst) <|> s.ridVar }

/-- The branch for an `ABORT` task. -/
def StageWorker.abortTask (session : Key) : StageWorker ω :=
  let targets := s.active.filter fun e => session <:+: e.1
  { s with
    abortedSessions := session :: s.abortedSessions
    ridVar := (targets.getLast?.map Prod.fst) <|> some session
    gens := s.gens.mapIdx fun i g =>
      if targets.any fun e => e.2 = i then { g with cancelling := true } else g
    active := OrderedDict.popKeys s.active fun rid => session <:+: rid }

/-- The abort list as a `GENERATE` task finds it: cleared when the part of the id before `_stage_`
is a new one. -/
def StageWorker.noteSession (rid : Key) : StageWorker ω :=
  let currSession := splitHead stageMark rid
  { s with
    abortedSessions :=
      if s.lastProcessedSession.any (· ≠ currSession) then [] else s.abortedSessions
    lastProcessedSession := some currSession }

/-- Start a coroutine and enter it under its id. -/
def StageWorker.startTask (rid : Key) : StageWorker ω :=
  { s with
    gens := s.gens ++ [{ rid := rid }]
    active := OrderedDict.set s.active rid s.gens.length }

/-- The branch for a `GENERATE` task. A task of an aborted session is dropped, and the iteration
ends. -/
def StageWorker.generateTask (rid : Key) : StageWorker ω :=
  let s := { s with ridVar := some rid }.noteSession rid
  if s.abortedSessions.any fun session => session <:+: rid then s else (s.startTask rid).collect

/-- One iteration up to its first `await`. -/
def StageWorker.poll : StageWorker ω :=
  match s.inQ with
  | [] => { s with phase := .idle }
  | .abort session :: rest =>
    ({ s with inQ := rest, taskType := some .abort }.abortTask session).collect
  | .generate rid :: rest =>
    { s with inQ := rest, taskType := some .generate }.generateTask rid

/-- The test of the output loop: the output of an id goes out. -/
def StageWorker.passes (rid : Key) : Bool :=
  rid ∈ OrderedDict.keys s.active || s.taskType = some .generate

/-- The output loop. -/
def StageWorker.flush (batch : List (Key × ω)) : StageWorker ω :=
  { s with
    phase := .head
    ridVar := (batch.getLast?.map Prod.fst) <|> s.ridVar
    outQ := s.outQ ++ (batch.filter fun x => s.passes x.1).map fun x => (x.1, .output x.2) }

/-! ## The coroutines -/

/-- Change coroutine `i`, if it stands as `ready` says. -/
def StageWorker.onGen (i : ℕ) (ready : Generation ω → Bool) (f : Generation ω → StageWorker ω) :
    Option (StageWorker ω) :=
  s.gens[i]?.bind fun g => if ready g then some (f g) else none

def StageWorker.setGen (i : ℕ) (g : Generation ω) : StageWorker ω :=
  { s with gens := s.gens.set i g }

/-- The `finally` block of a coroutine. -/
def StageWorker.popActive (rid : Key) : StageWorker ω :=
  { s with active := OrderedDict.pop s.active rid }

/-- The coroutine waits for the engine and is not to be cancelled. -/
def Generation.ready (g : Generation ω) : Bool :=
  g.status = .waiting && g.held.isNone && !g.cancelling

def workerStep : WorkerAct ω → Option (StageWorker ω)
  | .submit t => some { s with inQ := s.inQ ++ [t] }
  | .poll =>
    match s.phase with
    | .head => some s.poll
    | _ => none
  | .wake =>
    match s.phase with
    | .idle => some s.collect
    | _ => none
  | .flush =>
    match s.phase with
    | .collected batch => some (s.flush batch)
    | _ => none
  | .start i =>
    s.onGen i (fun g => g.status = .created && !g.cancelling) fun g =>
      s.setGen i { g with status := .waiting }
  | .yield i o =>
    s.onGen i Generation.ready fun g =>
      { s.setGen i { g with held := some o } with produced := s.produced ++ [(g.rid, o)] }
  | .put i =>
    s.onGen i (fun g => g.status = .waiting && g.held.isSome && !g.cancelling) fun g =>
      { s.setGen i { g with held := none } with
        generationOutQ := s.generationOutQ ++ g.held.toList.map fun o => (g.rid, o) }
  | .finish i =>
    s.onGen i Generation.ready fun g => (s.setGen i { g with status := .ended }).popActive g.rid
  | .fail i =>
    s.onGen i Generation.ready fun g =>
      { (s.setGen i { g with status := .ended }).popActive g.rid with
        outQ := s.outQ ++ [(g.rid, .error)] }
  | .cancelled i =>
    -- a coroutine whose body has not been entered has no `finally` block to run
    s.onGen i (fun g => g.cancelling && (g.status = .created || g.status = .waiting)) fun g =>
      let s' := s.setGen i { g with status := .ended, held := none }
      if g.status = .created then s' else s'.popActive g.rid
  | .callback i =>
    s.onGen i (fun g => g.status = .ended) fun g =>
      let s' := s.setGen i { g with status := .released }
      s.ridVar.elim s' s'.popActive

/-! ## What an event can do -/

variable {s s' : StageWorker ω} {i : ℕ}

lemma generateTask_cases (s : StageWorker ω) (rid : Key) :
    s.generateTask rid = { s with ridVar := some rid }.noteSession rid ∨
      s.generateTask rid =
        (({ s with ridVar := some rid }.noteSession rid).startTask rid).collect := by
  unfold StageWorker.generateTask
  exact ite_eq_or_eq _ _ _

lemma poll_cases (s : StageWorker ω) :
    s.poll = { s with phase := .idle } ∨
    (∃ session rest, s.inQ = .abort session :: rest ∧
      s.poll = ({ s with inQ := rest, taskType := some .abort }.abortTask session).collect) ∨
    ∃ rid rest, s.inQ = .generate rid :: rest ∧
      s.poll = { s with inQ := rest, taskType := some .generate }.generateTask rid := by
  unfold StageWorker.poll
  split
  · exact .inl rfl
  · rename_i session rest hq
    exact .inr (.inl ⟨session, rest, hq, rfl⟩)
  · rename_i rid rest hq
    exact .inr (.inr ⟨rid, rest, hq, rfl⟩)

lemma onGen_eq_some {ready : Generation ω → Bool} {f : Generation ω → StageWorker ω}
    (h : s.onGen i ready f = some s') : ∃ g, s.gens[i]? = some g ∧ ready g = true ∧ s' = f g := by
  obtain ⟨g, hg, h⟩ := Option.bind_eq_some_iff.mp h
  split at h
  · exact ⟨g, hg, ‹_›, (Option.some.inj h).symm⟩
  · cases h

end OmniStreaming
