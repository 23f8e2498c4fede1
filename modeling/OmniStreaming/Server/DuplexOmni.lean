import OmniStreaming.Server.Disconnect

/-!
# The engine with the tasks of its turns

In `Server` a turn ends in one step. Really its task comes to the `finally` block of
`generate_realtime_final`, after the last output or because it is cancelled; there it cancels the
workers of the turn, waits for them, and then removes the request ids of the turn. If it is
cancelled while it waits, it skips the removal. The tasks that `worker_0to1` makes of
`process_and_send` are not among the workers that it cancels and waits for.

`DuplexOmni` is the server with these tasks and the contents of the result queues. `Wired` says
what holds in every run, and `serverStep_of_duplexStep` which of its events are events of the
server.
-/

namespace OmniStreaming

open Function List Option Transition

variable {μ : Type*}

/-! ## Turns and the tasks they make -/

/-- A running turn besides its workers: whether it waits in its `finally` block, is cancelled there,
and the chunk numbers of its `process_and_send` tasks. -/
structure TurnTasks where
  finalizing : Bool := false
  cut : Bool := false
  sends : List ℕ := []
  deriving DecidableEq

/-- The server with the tasks of its turns, the outputs in the result queues by turn, and the
sessions for which `stop_session` waits; and, as a history, those with an end of utterance since
they were torn down. -/
structure DuplexOmni (μ : Type*) where
  server : Server μ
  tasks : ℕ → TurnTasks := fun _ => {}
  results : SessionId → List ℕ := fun _ => []
  stopping : SessionId → Bool := fun _ => false
  heard : SessionId → Bool := fun _ => false

inductive DuplexAct (μ : Type*)
  /-- An event of the server that neither tears down a session nor ends a turn. -/
  | server (a : ServerAct μ)
  /-- `worker_0to1` of a turn makes a task of `process_and_send`. -/
  | spawn (n k : ℕ)
  /-- The first of these tasks runs and enters its request id. -/
  | send (n : ℕ)
  /-- The generator of a turn puts out an output, which goes to the result queue. -/
  | output (n : ℕ)
  /-- An output is taken from the result queue. -/
  | deliver (s : SessionId)
  /-- A turn comes to the `finally` block, after its last output or because it is cancelled. -/
  | finalize (n : ℕ)
  /-- The workers of the turn have ended, and its task leaves the `finally` block. -/
  | leave (n : ℕ)
  /-- A task that was cancelled before it has run ends. -/
  | drop (n : ℕ)
  /-- `cleanup_for_barge_in`. -/
  | bargeIn (s : SessionId)
  /-- `stop_session`, until it awaits the audio worker. -/
  | stop (s : SessionId)
  /-- The rest of `stop_session`. -/
  | stopped (s : SessionId)

/-- `cleanup_for_barge_in`: a turn that waits in its `finally` block is cancelled there. -/
def DuplexOmni.cleanupForBargeIn (e : DuplexOmni μ) (s : SessionId) : DuplexOmni μ where
  server := e.server.cleanupForBargeIn s
  tasks n :=
    if n ∈ (e.server.sessions s).activeTasks.getD [] ∧ (e.tasks n).finalizing then
      { e.tasks n with cut := true }
    else e.tasks n
  results := Function.update e.results s []
  stopping := e.stopping
  heard := Function.update e.heard s false

variable (e : DuplexOmni μ)

/-- `stop_session` up to the point where it awaits the audio worker, which it has cancelled. -/
def DuplexOmni.stopSession (s : SessionId) : DuplexOmni μ :=
  { e.cleanupForBargeIn s with
    server := (e.server.cleanupForBargeIn s).update s fun x =>
      { x with sessionWorker := false, worker := none }
    stopping := Function.update e.stopping s true }

/-- What `stop_session` does when the audio worker has ended. -/
def DuplexOmni.finishStop (s : SessionId) : DuplexOmni μ where
  server := e.server.update s fun x =>
    { x with inputQueue := none, resultQueue := false, eouState := none }
  tasks := e.tasks
  results := Function.update e.results s []
  stopping := Function.update e.stopping s false
  heard := Function.update e.heard s false

/-- Change the tasks of a turn. -/
def DuplexOmni.setTasks (n : ℕ) (x : TurnTasks) : DuplexOmni μ :=
  { e with tasks := Function.update e.tasks n x }

/-- A `process_and_send` task of a turn enters its request id. -/
def DuplexOmni.sendChunk (n k : ℕ) (rest : List ℕ) (t : StartedTurn μ) : DuplexOmni μ :=
  { e.setTasks n { e.tasks n with sends := rest } with
    server := { e.server with
      requestStates := OrderedDict.set e.server.requestStates ((SubRequest.stage1 k).key t.id) n } }

/-- The task of a turn puts an output on the result queue of its session, if there is one. -/
def DuplexOmni.putResult (n : ℕ) (t : StartedTurn μ) : DuplexOmni μ :=
  if (e.server.sessions t.id.session).resultQueue then
    { e with results := Function.update e.results t.id.session (e.results t.id.session ++ [n]) }
  else e

/-- The task of a turn leaves the `finally` block; if cancelled there, without removing anything. -/
def DuplexOmni.leaveFinally (n : ℕ) (t : StartedTurn μ) : DuplexOmni μ :=
  { e.setTasks n {} with
    server := if (e.tasks n).cut then e.server.discardTask n t else e.server.endTurn n t }

/-- An event of the server happens. -/
def DuplexOmni.setServer (a : ServerAct μ) (x : Server μ) : DuplexOmni μ :=
  { e with
    server := x
    heard := match a with
      | .endOfUtterance s _ _ => Function.update e.heard s true
      | _ => e.heard }

/-- The server's own events: the workers of a turn in its `finally` block do not run any more. -/
def DuplexOmni.accepts : ServerAct μ → Bool
  | .bargeIn _ | .finish _ | .cancelled _ => false
  | .register n _ | .stop n => !(e.tasks n).finalizing
  | _ => true

/-- The event is one of turn `n`, if that and its tasks stand as `ready` says. -/
def DuplexOmni.onTurn (n : ℕ) (ready : StartedTurn μ → TurnTasks → Bool)
    (f : StartedTurn μ → DuplexOmni μ) : Option (DuplexOmni μ) :=
  e.server.turns[n]?.bind fun t => if ready t (e.tasks n) then some (f t) else none

/-- One event of the engine. The `process_and_send` tasks of a turn are scheduled before its
`finally` block, so it leaves that after them. -/
def duplexStep [DecidableEq μ] (g : μ) (e : DuplexOmni μ) : DuplexAct μ → Option (DuplexOmni μ)
  | .server a => if e.accepts a then (serverStep g e.server a).map (e.setServer a) else none
  | .spawn n k =>
    e.onTurn n (fun t x => t.status = .running && !x.finalizing) fun _ =>
      e.setTasks n { e.tasks n with sends := (e.tasks n).sends ++ [k] }
  | .send n =>
    match (e.tasks n).sends with
    | [] => none
    | k :: rest => e.onTurn n (fun _ _ => true) (e.sendChunk n k rest)
  | .output n =>
    e.onTurn n (fun t x => t.status = .running && !t.cancelling && !x.finalizing) (e.putResult n)
  | .deliver s =>
    match e.results s with
    | [] => none
    | _ :: rest => some { e with results := Function.update e.results s rest }
  | .finalize n =>
    e.onTurn n (fun t x => t.status = .running && !x.finalizing) fun _ =>
      e.setTasks n { e.tasks n with finalizing := true }
  | .leave n =>
    e.onTurn n (fun t x => t.status = .running && x.finalizing && x.sends.isEmpty)
      (e.leaveFinally n)
  | .drop n =>
    e.onTurn n (fun t _ => t.status = .created && t.cancelling) fun t =>
      { e with server := e.server.discardTask n t }
  | .bargeIn s => some (e.cleanupForBargeIn s)
  | .stop s => some (e.stopSession s)
  | .stopped s => if e.stopping s then some (e.finishStop s) else none

def DuplexOmni.init (g : μ) (now : Second) : DuplexOmni μ := { server := .init g now }

/-! ## What an event can do -/

variable {g : μ} {e e' : DuplexOmni μ} {s : SessionId} {n : ℕ}

lemma duplex_onTurn_eq_some {ready : StartedTurn μ → TurnTasks → Bool}
    {f : StartedTurn μ → DuplexOmni μ} (h : e.onTurn n ready f = some e') :
    ∃ t, e.server.turns[n]? = some t ∧ ready t (e.tasks n) = true ∧ e' = f t := by
  obtain ⟨t, ht, h⟩ := bind_eq_some_iff.mp h
  split at h
  · exact ⟨t, ht, ‹_›, (some.inj h).symm⟩
  · cases h

/-- What an event of the engine can do. -/
inductive DuplexMove [DecidableEq μ] (g : μ) (e : DuplexOmni μ) : DuplexAct μ → DuplexOmni μ → Prop
  | server {a : ServerAct μ} {x : Server μ} (haccepts : e.accepts a = true)
      (hstep : serverStep g e.server a = some x) : DuplexMove g e (.server a) (e.setServer a x)
  | spawn {n : ℕ} {t : StartedTurn μ} (k : ℕ) (hturn : e.server.turns[n]? = some t)
      (hstatus : t.status = .running) (hserving : (e.tasks n).finalizing = false) :
    DuplexMove g e (.spawn n k)
      (e.setTasks n { e.tasks n with sends := (e.tasks n).sends ++ [k] })
  | send {n k : ℕ} {rest : List ℕ} {t : StartedTurn μ} (hturn : e.server.turns[n]? = some t)
      (hsends : (e.tasks n).sends = k :: rest) :
    DuplexMove g e (.send n) (e.sendChunk n k rest t)
  | output {n : ℕ} {t : StartedTurn μ} (hturn : e.server.turns[n]? = some t)
      (hstatus : t.status = .running) (hlive : t.cancelling = false) :
    DuplexMove g e (.output n) (e.putResult n t)
  | deliver {s : SessionId} {m : ℕ} {rest : List ℕ} (hresults : e.results s = m :: rest) :
    DuplexMove g e (.deliver s) { e with results := Function.update e.results s rest }
  | finalize {n : ℕ} {t : StartedTurn μ} (hturn : e.server.turns[n]? = some t)
      (hstatus : t.status = .running) :
    DuplexMove g e (.finalize n) (e.setTasks n { e.tasks n with finalizing := true })
  | leave {n : ℕ} {t : StartedTurn μ} (hturn : e.server.turns[n]? = some t)
      (hstatus : t.status = .running) (hsends : (e.tasks n).sends = []) :
    DuplexMove g e (.leave n) (e.leaveFinally n t)
  | drop {n : ℕ} {t : StartedTurn μ} (hturn : e.server.turns[n]? = some t)
      (hstatus : t.status = .created) (hcancelling : t.cancelling = true) :
    DuplexMove g e (.drop n) { e with server := e.server.discardTask n t }
  | bargeIn (s : SessionId) : DuplexMove g e (.bargeIn s) (e.cleanupForBargeIn s)
  | stop (s : SessionId) : DuplexMove g e (.stop s) (e.stopSession s)
  | stopped (s : SessionId) : DuplexMove g e (.stopped s) (e.finishStop s)

lemma duplexMove_of_step [DecidableEq μ] {a : DuplexAct μ} (h : duplexStep g e a = some e') :
    DuplexMove g e a e' := by
  cases a with
  | server a =>
    simp only [duplexStep] at h
    split at h
    next haccepts =>
      obtain ⟨x, hx, rfl⟩ := map_eq_some_iff.mp h
      exact .server haccepts hx
    next => cases h
  | spawn n k =>
    rw [duplexStep] at h
    obtain ⟨t, ht, hready, rfl⟩ := duplex_onTurn_eq_some h
    simp only [Bool.and_eq_true, decide_eq_true_eq, Bool.not_eq_true'] at hready
    exact .spawn k ht hready.1 hready.2
  | send n =>
    simp only [duplexStep] at h
    split at h
    · cases h
    next hsends =>
      obtain ⟨t, ht, -, rfl⟩ := duplex_onTurn_eq_some h
      exact .send ht hsends
  | output n =>
    rw [duplexStep] at h
    obtain ⟨t, ht, hready, rfl⟩ := duplex_onTurn_eq_some h
    simp only [Bool.and_eq_true, decide_eq_true_eq, Bool.not_eq_true'] at hready
    exact .output ht hready.1.1 hready.1.2
  | deliver s =>
    simp only [duplexStep] at h
    split at h
    · cases h
    next hresults => exact some.inj h ▸ .deliver hresults
  | finalize n =>
    rw [duplexStep] at h
    obtain ⟨t, ht, hready, rfl⟩ := duplex_onTurn_eq_some h
    simp only [Bool.and_eq_true, decide_eq_true_eq] at hready
    exact .finalize ht hready.1
  | leave n =>
    rw [duplexStep] at h
    obtain ⟨t, ht, hready, rfl⟩ := duplex_onTurn_eq_some h
    simp only [Bool.and_eq_true, decide_eq_true_eq, List.isEmpty_iff] at hready
    exact .leave ht hready.1.1 hready.2
  | drop n =>
    rw [duplexStep] at h
    obtain ⟨t, ht, hready, rfl⟩ := duplex_onTurn_eq_some h
    simp only [Bool.and_eq_true, decide_eq_true_eq] at hready
    exact .drop ht hready.1 hready.2
  | bargeIn s => exact some.inj h ▸ .bargeIn s
  | stop s => exact some.inj h ▸ .stop s
  | stopped s =>
    simp only [duplexStep] at h
    split at h
    · exact some.inj h ▸ .stopped s
    · cases h

/-- What an event of the server can do, unless it ends a turn or tears down a session. -/
inductive ServerEffect [DecidableEq μ] (g : μ) (x : Server μ) : ServerAct μ → Server μ → Prop
  | quiet {a : ServerAct μ} {x' : Server μ} (hturns : x'.turns = x.turns)
      (hrequests : x'.requestStates = x.requestStates)
      (hactive : ∀ s, (x'.sessions s).activeTasks = (x.sessions s).activeTasks) :
    ServerEffect g x a x'
  | start {s : SessionId} {x₀ : Server μ} (mode : Option μ) (hworker : (x.sessions s).worker ≠ none)
      (hturns : x₀.turns = x.turns) (hrequests : x₀.requestStates = x.requestStates)
      (hactive : ∀ s, (x₀.sessions s).activeTasks = (x.sessions s).activeTasks) :
    ServerEffect g x (.take s) (x₀.startTurn s mode)
  | submit {n : ℕ} {t : StartedTurn μ} (hturn : x.turns[n]? = some t)
      (hstatus : t.status = .created) (hlive : t.cancelling = false) :
    ServerEffect g x (.submit n) (x.submitTurn g n t)
  | register {n : ℕ} {t : StartedTurn μ} (r : SubRequest) (hturn : x.turns[n]? = some t)
      (hstatus : t.status = .running) :
    ServerEffect g x (.register n r)
      { x with requestStates := OrderedDict.set x.requestStates (r.key t.id) n }
  | stop {n : ℕ} :
    ServerEffect g x (.stop n)
      { x with requestStates := OrderedDict.popKeys x.requestStates fun k => stage1Mark <:+: k }

variable {a : ServerAct μ} {x x' : Server μ} {f : SessionState μ → SessionState μ} {s' : SessionId}
  {t : StartedTurn μ} {mode : Option μ}

lemma serverEffect_of_step [DecidableEq μ] (haccepts : e.accepts a = true)
    (hstep : serverStep g x a = some x') :
    ServerEffect g x a x' := by
  cases serverMove_of_step hstep with
  | connect _ =>
    refine .quiet rfl rfl fun s => ?_
    refine (read_update SessionState.activeTasks ?_).trans (read_update SessionState.activeTasks ?_)
    · exact fun _ => rfl
    · exact fun _ => rfl
  | @frame s data _ =>
    obtain ⟨items, hturns, hrequests, hsessions⟩ :=
      exists_putIncrementalInput x s (some data) (some g)
    refine .quiet hturns hrequests fun s => ?_
    rw [hsessions]
    exact read_update SessionState.activeTasks fun _ => rfl
  | @endOfUtterance s lastSeq mode _ =>
    obtain ⟨items, hturns, hrequests, hsessions⟩ := exists_putIncrementalInput
      (x.update s fun y => { y with eouState := some lastSeq }) s none mode
    refine .quiet hturns hrequests fun s => ?_
    rw [hsessions]
    refine (read_update SessionState.activeTasks ?_).trans (read_update SessionState.activeTasks ?_)
    · exact fun _ => rfl
    · exact fun _ => rfl
  | bargeIn _ => cases haccepts
  | takeFrame _ _ | takeMarker _ _ =>
    exact .quiet rfl rfl fun s => read_update SessionState.activeTasks fun _ => rfl
  | takeTurn hworker _ _ =>
    exact .start _ (by simp [hworker]) rfl rfl fun s =>
      read_update SessionState.activeTasks fun _ => rfl
  | submit hturn hstatus hlive => exact .submit hturn hstatus hlive
  | register r hturn hstatus => exact .register r hturn hstatus
  | stop _ _ => exact .stop
  | finish _ _ => cases haccepts
  | cancelledEarly _ _ _ => cases haccepts
  | cancelled _ _ _ => cases haccepts
  | poll _ =>
    unfold Server.pollTurns
    split
    · exact .quiet rfl rfl fun _ => rfl
    · exact .quiet rfl rfl fun s => read_update SessionState.activeTasks fun _ => rfl
  | close _ _ => exact .quiet rfl rfl fun s => read_update SessionState.activeTasks fun _ => rfl
  | clock _ => exact .quiet rfl rfl fun _ => rfl

/-- What an event of the server leaves of the queues and the worker of a session. -/
structure SessionKept (a : ServerAct μ) (s : SessionId) (x x' : SessionState μ) : Prop where
  eouState : (∀ lastSeq mode, a ≠ .endOfUtterance s lastSeq mode) → x'.eouState = x.eouState
  worker : a ≠ .connect s → x.worker = none → x'.worker = none
  inputQueue : a ≠ .connect s → x.inputQueue = none → x'.inputQueue = none
  resultQueue : a ≠ .connect s → x'.resultQueue = x.resultQueue
  sessionWorker : a ≠ .connect s → x'.sessionWorker = x.sessionWorker

lemma SessionKept.refl (a : ServerAct μ) (s : SessionId) (x : SessionState μ) :
    SessionKept a s x x :=
  ⟨fun _ => rfl, fun _ => id, fun _ => id, fun _ => rfl, fun _ => rfl⟩

lemma SessionKept.update (h : SessionKept a s' (x.sessions s') (f (x.sessions s'))) :
    SessionKept a s (x.sessions s) ((x.update s' f).sessions s) := by
  by_cases hs : s = s'
  · subst hs
    rw [update_sessions_self]
    exact h
  · rw [update_sessions_of_ne f hs]
    exact .refl a s _

lemma SessionKept.trans {x x' x'' : SessionState μ} (h : SessionKept a s x x')
    (h' : SessionKept a s x' x'') : SessionKept a s x x'' where
  eouState ha := (h'.eouState ha).trans (h.eouState ha)
  worker ha hx := h'.worker ha (h.worker ha hx)
  inputQueue ha hx := h'.inputQueue ha (h.inputQueue ha hx)
  resultQueue ha := (h'.resultQueue ha).trans (h.resultQueue ha)
  sessionWorker ha := (h'.sessionWorker ha).trans (h.sessionWorker ha)

/-- What an event keeps of a session. -/
lemma sessionKept_of_step [DecidableEq μ] (haccepts : e.accepts a = true)
    (hstep : serverStep g x a = some x') (s : SessionId) :
    SessionKept a s (x.sessions s) (x'.sessions s) := by
  -- only a connection adds to a session, and only an end of utterance sets its entry
  have hput : ∀ (y : Server μ) s' audio mode,
      SessionKept a s (y.sessions s) ((y.putIncrementalInput s' audio mode).sessions s) := by
    intro y s' audio mode
    obtain ⟨items, -, -, hsessions⟩ := exists_putIncrementalInput y s' audio mode
    rw [hsessions]
    exact SessionKept.update ⟨fun _ => rfl, fun _ => id, fun _ hq => by simp [hq], fun _ => rfl,
      fun _ => rfl⟩
  cases serverMove_of_step hstep with
  | connect _ =>
    refine SessionKept.trans (SessionKept.update ?_) (SessionKept.update ?_)
    · exact ⟨fun _ => rfl, fun ha => absurd rfl ha, fun ha => absurd rfl ha,
        fun ha => absurd rfl ha, fun ha => absurd rfl ha⟩
    · exact ⟨fun _ => rfl, fun _ => id, fun _ => id, fun _ => rfl, fun _ => rfl⟩
  | frame data _ => exact hput _ _ _ _
  | @endOfUtterance s' lastSeq mode _ =>
    refine SessionKept.trans (SessionKept.update ?_) (hput _ _ _ _)
    exact ⟨fun ha => absurd rfl (ha lastSeq mode), fun _ => id, fun _ => id, fun _ => rfl,
      fun _ => rfl⟩
  | bargeIn _ => cases haccepts
  | takeFrame hworker hqueue | takeMarker hworker hqueue =>
    exact SessionKept.update ⟨fun _ => rfl, fun _ hw => by simp [hw] at hworker,
      fun _ hq => by simp [hq] at hqueue, fun _ => rfl, fun _ => rfl⟩
  | takeTurn hworker hqueue _ =>
    rw [sessions_startTurn]
    refine SessionKept.trans (SessionKept.update ?_) (SessionKept.update ?_)
    · exact ⟨fun _ => rfl, fun _ => id, fun _ hq => by simp [hq] at hqueue, fun _ => rfl,
        fun _ => rfl⟩
    · rw [update_sessions_self]
      exact ⟨fun _ => rfl, fun _ hw => absurd (hworker.symm.trans hw) (by simp), fun _ => id,
        fun _ => rfl, fun _ => rfl⟩
  | submit _ _ _ | register _ _ _ | stop _ _ | clock _ => exact .refl _ s _
  | finish _ _ => cases haccepts
  | cancelledEarly _ _ _ => cases haccepts
  | cancelled _ _ _ => cases haccepts
  | poll _ =>
    unfold Server.pollTurns
    split
    · exact .refl _ s _
    · exact SessionKept.update ⟨fun _ => rfl, fun _ => id, fun _ => id, fun _ => rfl, fun _ => rfl⟩
  | close _ _ =>
    exact SessionKept.update ⟨fun _ => rfl, fun _ => id, fun _ => id, fun _ => rfl, fun _ => rfl⟩

/-! ## What holds in every run -/

lemma statusOf_ne_none : x.statusOf s n ≠ none ↔ ∃ t, x.turns[n]? = some t ∧ t.id.session = s := by
  constructor
  · intro h
    obtain ⟨status, hstatus⟩ := ne_none_iff_exists'.mp h
    obtain ⟨t, ht, hs, -⟩ := statusOf_eq_some.mp hstatus
    exact ⟨t, ht, hs⟩
  · rintro ⟨t, ht, hs⟩
    rw [statusOf_eq_some.mpr ⟨t, ht, hs, rfl⟩]
    exact some_ne_none _

/-- The turns are still there, under their numbers and ids. -/
def Server.TurnsKept (x x' : Server μ) : Prop :=
  ∀ (n : ℕ) (t : StartedTurn μ), x.turns[n]? = some t → ∃ t', x'.turns[n]? = some t' ∧ t'.id = t.id

lemma Server.TurnsKept.of_eq (h : x'.turns = x.turns) : x.TurnsKept x' :=
  fun _ t ht => ⟨t, h ▸ ht, rfl⟩

/-- One turn changes, but not its id. -/
lemma Server.TurnsKept.of_set {t' : StartedTurn μ} (h : x'.turns = x.turns.set n t')
    (ht : x.turns[n]? = some t) (hid : t'.id = t.id) :
    x.TurnsKept x' := by
  intro m u hu
  by_cases hnm : n = m
  · subst hnm
    cases ht.symm.trans hu
    exact ⟨t', by rw [h, getElem?_set_self (List.getElem?_eq_some_iff.mp ht).1], hid⟩
  · exact ⟨u, by rw [h, getElem?_set_ne hnm, hu], rfl⟩

lemma Server.TurnsKept.statusOf (h : x.TurnsKept x') (hn : x.statusOf s n ≠ none) :
    x'.statusOf s n ≠ none := by
  obtain ⟨t, ht, hs⟩ := statusOf_ne_none.mp hn
  obtain ⟨t', ht', hid⟩ := h n t ht
  exact statusOf_ne_none.mpr ⟨t', ht', hid ▸ hs⟩

/-- A barge-in keeps the turns. -/
lemma turnsKept_cleanupForBargeIn (x : Server μ) (s : SessionId) :
    x.TurnsKept (x.cleanupForBargeIn s) := by
  intro n t ht
  refine ⟨_, by rw [Server.cleanupForBargeIn, getElem?_mapIdx, ht, map_some], ?_⟩
  split_ifs <;> rfl

/-- What the engine holds for a session belongs to its turns, a request id is owned by its turn,
only running turns have tasks, and one is cancelled in its `finally` block only when it is there. -/
structure Wired (e : DuplexOmni μ) : Prop where
  tracked : Tracked e.server
  active : ∀ s, ∀ n ∈ (e.server.sessions s).activeTasks.getD [], e.server.statusOf s n ≠ none
  owned : ∀ k n, (k, n) ∈ e.server.requestStates → ∃ t, e.server.turns[n]? = some t ∧ t.id.Owns k
  running : ∀ n, e.tasks n ≠ {} → ∃ t, e.server.turns[n]? = some t ∧ t.status = .running
  cut : ∀ n, (e.tasks n).cut = true → (e.tasks n).finalizing = true ∧
    ∃ t, e.server.turns[n]? = some t ∧ t.cancelling = true
  eouState : ∀ s, e.heard s = false → (e.server.sessions s).eouState = none

/-- A turn that is not in its `finally` block has not been cancelled there. -/
lemma Wired.cut_eq_false (h : Wired e) (hserving : (e.tasks n).finalizing = false) :
    (e.tasks n).cut = false := by
  by_contra hcut
  have hfinal := (h.cut n (by simpa using hcut)).1
  simp [hserving] at hfinal

lemma wired_init (g : μ) (now : Second) : Wired (DuplexOmni.init g now) where
  tracked n t hturn := by simp [DuplexOmni.init, Server.init] at hturn
  active s n hn := by simp [DuplexOmni.init, Server.init] at hn
  owned k n hmem := by simp [DuplexOmni.init, Server.init] at hmem
  running n hne := absurd rfl hne
  cut n hcut := by simp [DuplexOmni.init] at hcut
  eouState _ _ := rfl

lemma owned_of_turnsKept (hkept : x.TurnsKept x')
    (howned : ∀ k n, (k, n) ∈ x.requestStates → ∃ t, x.turns[n]? = some t ∧ t.id.Owns k) {k : Key}
    (hmem : (k, n) ∈ x.requestStates) : ∃ t, x'.turns[n]? = some t ∧ t.id.Owns k := by
  obtain ⟨t, ht, hk⟩ := howned k n hmem
  obtain ⟨t', ht', hid⟩ := hkept n t ht
  exact ⟨t', ht', hid ▸ hk⟩

@[simp] lemma tasks_setTasks_self (e : DuplexOmni μ) (n : ℕ) (x : TurnTasks) :
    (e.setTasks n x).tasks n = x :=
  update_self ..

lemma tasks_setTasks_of_ne {m : ℕ} (h : m ≠ n) (x : TurnTasks) :
    (e.setTasks n x).tasks m = e.tasks m :=
  update_of_ne h ..

lemma tasks_sendChunk (e : DuplexOmni μ) (n k : ℕ) (rest : List ℕ) (t : StartedTurn μ) :
    (e.sendChunk n k rest t).tasks = (e.setTasks n { e.tasks n with sends := rest }).tasks := rfl

lemma wired_setTasks (h : Wired e) {x : TurnTasks} (ht : e.server.turns[n]? = some t)
    (hrunning : t.status = .running)
    (hcut : x.cut = true → x.finalizing = true ∧ (e.tasks n).cut = true) :
    Wired (e.setTasks n x) where
  tracked := h.tracked
  active := h.active
  owned := h.owned
  eouState := h.eouState
  running m hm := by
    by_cases hmn : m = n
    · subst hmn
      exact ⟨t, ht, hrunning⟩
    · rw [tasks_setTasks_of_ne hmn] at hm
      exact h.running m hm
  cut m hm := by
    by_cases hmn : m = n
    · subst hmn
      rw [tasks_setTasks_self] at hm ⊢
      exact ⟨(hcut hm).1, (h.cut m (hcut hm).2).2⟩
    · rw [tasks_setTasks_of_ne hmn] at hm ⊢
      exact h.cut m hm

/-- A `process_and_send` task runs. -/
lemma wired_sendChunk (h : Wired e) {k : ℕ} {rest : List ℕ} (ht : e.server.turns[n]? = some t)
    (hsends : (e.tasks n).sends = k :: rest) :
    Wired (e.sendChunk n k rest t) := by
  have hne : e.tasks n ≠ {} := fun heq => by simp [heq] at hsends
  obtain ⟨u, hu, hrunning⟩ := h.running n hne
  have hset : Wired (e.setTasks n { e.tasks n with sends := rest }) :=
    wired_setTasks h hu hrunning fun hcut => ⟨(h.cut n hcut).1, hcut⟩
  refine { hset with tracked := hset.tracked.congr rfl rfl, owned := fun k' m hmem => ?_ }
  rcases OrderedDict.mem_set hmem with ⟨rfl, rfl⟩ | hold
  · exact ⟨t, ht, SubRequest.owns_key _ _⟩
  · exact h.owned k' m hold

/-- The entry of a session after a turn: a task and the end of an utterance may be gone. -/
structure SessionState.Thinned (x x' : SessionState μ) : Prop where
  activeTasks : x'.activeTasks.getD [] ⊆ x.activeTasks.getD []
  activeKey : x'.activeTasks.isSome = x.activeTasks.isSome
  eouState : x'.eouState = none ∨ x'.eouState = x.eouState
  worker : x'.worker = x.worker
  inputQueue : x'.inputQueue = x.inputQueue
  resultQueue : x'.resultQueue = x.resultQueue
  sessionWorker : x'.sessionWorker = x.sessionWorker

lemma SessionState.Thinned.refl (x : SessionState μ) : x.Thinned x :=
  ⟨List.Subset.refl _, rfl, .inr rfl, rfl, rfl, rfl, rfl⟩

lemma SessionState.Thinned.trans {x x' x'' : SessionState μ} (h : x.Thinned x')
    (h' : x'.Thinned x'') : x.Thinned x'' where
  activeTasks := List.Subset.trans h'.activeTasks h.activeTasks
  activeKey := h'.activeKey.trans h.activeKey
  eouState := h'.eouState.elim .inl fun heq => h.eouState.imp heq.trans heq.trans
  worker := h'.worker.trans h.worker
  inputQueue := h'.inputQueue.trans h.inputQueue
  resultQueue := h'.resultQueue.trans h.resultQueue
  sessionWorker := h'.sessionWorker.trans h.sessionWorker

/-- A session that is thinned. -/
lemma SessionState.Thinned.update (h : (x.sessions s').Thinned (f (x.sessions s')))
    (s : SessionId) :
    (x.sessions s).Thinned ((x.update s' f).sessions s) := by
  by_cases hs : s = s'
  · subst hs
    rw [update_sessions_self]
    exact h
  · rw [update_sessions_of_ne f hs]
    exact .refl _

/-- The task of turn `n` has ended, with or without the rest of its `finally` block. -/
structure Server.EndOf (x x' : Server μ) (n : ℕ) (t : StartedTurn μ) : Prop where
  turns : x'.turns = x.turns.set n { t with status := .ended }
  requestStates : x'.requestStates ⊆ x.requestStates
  sessions : ∀ s, (x.sessions s).Thinned (x'.sessions s)
  tracked : Tracked x → Tracked x'

/-- A turn that is discarded ends. -/
lemma endOf_discardTask (ht : x.turns[n]? = some t) : x.EndOf (x.discardTask n t) n t where
  turns := rfl
  requestStates := List.Subset.refl _
  tracked h := h.discardTask ht
  sessions s := by
    rw [sessions_discardTask]
    refine SessionState.Thinned.update ⟨?_, ?_, .inr rfl, rfl, rfl, rfl, rfl⟩ s
    · cases (x.sessions t.id.session).activeTasks with
      | none => exact List.Subset.refl _
      | some tasks => exact filter_subset_self _
    · exact isSome_map

lemma endOf_endTurn (ht : x.turns[n]? = some t) : x.EndOf (x.endTurn n t) n t where
  turns := rfl
  requestStates := filter_subset_self _
  tracked h := h.endTurn ht
  sessions s := by
    have hforget : (x.sessions s).Thinned
        ((x.update t.id.session fun y => { y with eouState := none }).sessions s) :=
      SessionState.Thinned.update ⟨List.Subset.refl _, rfl, .inl rfl, rfl, rfl, rfl, rfl⟩ s
    refine hforget.trans ((endOf_discardTask ?_).sessions s)
    exact ht

/-- The end of a turn. -/
lemma Wired.of_endOf (h : Wired e) (ht : e.server.turns[n]? = some t)
    (hend : e.server.EndOf e'.server n t) (htasks : e'.tasks = Function.update e.tasks n {})
    (hheard : e'.heard = e.heard) : Wired e' := by
  have hkept : e.server.TurnsKept e'.server := .of_set hend.turns ht rfl
  have hother : ∀ m, m ≠ n → e'.server.turns[m]? = e.server.turns[m]? := by
    intro m hm
    rw [hend.turns, getElem?_set_ne (Ne.symm hm)]
  have hgone : ∀ {m}, e'.tasks m ≠ {} → m ≠ n := by
    rintro m hm rfl
    exact hm (by rw [htasks, update_self])
  refine ⟨hend.tracked h.tracked, fun s m hm => ?_, fun k m hm => ?_, fun m hm => ?_,
    fun m hm => ?_, fun s hs => ?_⟩
  · exact hkept.statusOf (h.active s m ((hend.sessions s).activeTasks hm))
  · exact owned_of_turnsKept hkept h.owned (hend.requestStates hm)
  · have hmn : m ≠ n := hgone hm
    rw [hother m hmn]
    rw [htasks, update_of_ne hmn] at hm
    exact h.running m hm
  · have hmn : m ≠ n := hgone fun heq => by simp [heq] at hm
    rw [hother m hmn]
    rw [htasks, update_of_ne hmn] at hm ⊢
    exact h.cut m hm
  · rw [hheard] at hs
    exact (hend.sessions s).eouState.elim id fun heq => heq.trans (h.eouState s hs)

/-- A turn leaves its `finally` block. -/
lemma wired_leaveFinally (h : Wired e) (ht : e.server.turns[n]? = some t) :
    Wired (e.leaveFinally n t) := by
  refine h.of_endOf ht ?_ rfl rfl
  rw [DuplexOmni.leaveFinally]
  split
  · exact endOf_discardTask ht
  · exact endOf_endTurn ht

lemma Wired.tasks_eq (h : Wired e) (ht : e.server.turns[n]? = some t)
    (hstatus : t.status ≠ .running) : e.tasks n = {} := by
  by_contra hne
  obtain ⟨u, hu, hrunning⟩ := h.running n hne
  cases ht.symm.trans hu
  exact hstatus hrunning

/-- A turn that never ran is dropped. -/
lemma wired_drop (h : Wired e) (ht : e.server.turns[n]? = some t) (hcreated : t.status = .created) :
    Wired { e with server := e.server.discardTask n t } := by
  refine h.of_endOf ht (endOf_discardTask ht) ?_ rfl
  rw [← h.tasks_eq ht (by simp [hcreated]), update_eq_self]

/-- An update of a session that keeps its tasks, and keeps or forgets its end of an utterance. -/
lemma Wired.update (h : Wired e) (s : SessionId) (hserver : e'.server = e.server.update s f)
    (htasks : e'.tasks = e.tasks) (hf : ∀ x, (f x).activeTasks = x.activeTasks)
    (heou : ∀ x, (f x).eouState = none ∨ (f x).eouState = x.eouState ∧ e'.heard s = e.heard s)
    (hheard : ∀ s', s' ≠ s → e'.heard s' = e.heard s') : Wired e' := by
  have hturns : e'.server.turns = e.server.turns := by rw [hserver, update_turns]
  refine ⟨?_, fun s' n hn => ?_, fun k n hmem => ?_, fun n hn => ?_, fun n hn => ?_,
    fun s' hs' => ?_⟩
  · rw [hserver]
    exact h.tracked.update s hf
  · rw [hserver, read_update SessionState.activeTasks hf] at hn
    exact (Server.TurnsKept.of_eq hturns).statusOf (h.active s' n hn)
  · rw [hserver] at hmem
    exact hturns ▸ h.owned k n hmem
  · exact hturns ▸ h.running n (htasks ▸ hn)
  · rw [htasks] at hn ⊢
    exact hturns ▸ h.cut n hn
  · rw [hserver]
    by_cases hs : s' = s
    · subst hs
      rw [update_sessions_self]
      exact (heou _).elim id fun ⟨hsame, hheard'⟩ =>
        hsame.trans (h.eouState s' (hheard'.symm.trans hs'))
    · rw [update_sessions_of_ne f hs]
      exact h.eouState s' ((hheard s' hs).symm.trans hs')

/-- A turn after `cleanup_for_barge_in`: it is cancelled if its task was active. -/
lemma exists_turn_cleanupForBargeIn (s : SessionId) (ht : x.turns[n]? = some t) :
    ∃ t', (x.cleanupForBargeIn s).turns[n]? = some t' ∧ t'.id = t.id ∧ t'.status = t.status ∧
      (t.cancelling = true → t'.cancelling = true) ∧
      (n ∈ (x.sessions s).activeTasks.getD [] → t.status ≠ .ended → t'.cancelling = true) := by
  refine ⟨_, by rw [Server.cleanupForBargeIn, getElem?_mapIdx, ht, map_some], ?_⟩
  split_ifs with hmarked
  · exact ⟨rfl, rfl, fun _ => rfl, fun _ _ => rfl⟩
  · exact ⟨rfl, rfl, id, fun hn hlive => absurd ⟨hn, hlive⟩ hmarked⟩

/-- A turn after `cleanup_for_barge_in` was there before. -/
lemma exists_turn_of_cleanupForBargeIn {t' : StartedTurn μ}
    (ht' : (x.cleanupForBargeIn s).turns[n]? = some t') :
    ∃ t, x.turns[n]? = some t ∧ t'.id = t.id ∧ t'.status = t.status ∧
      (t.cancelling = true → t'.cancelling = true) ∧
      (n ∈ (x.sessions s).activeTasks.getD [] → t.status ≠ .ended → t'.cancelling = true) := by
  have hbefore := ht'
  rw [Server.cleanupForBargeIn, getElem?_mapIdx] at hbefore
  obtain ⟨t, ht, -⟩ := map_eq_some_iff.mp hbefore
  obtain ⟨t'', ht'', hafter⟩ := exists_turn_cleanupForBargeIn s ht
  cases ht'.symm.trans ht''
  exact ⟨t, ht, hafter⟩

/-- `cleanup_for_barge_in` marks the active turns in their `finally` block. -/
lemma tasks_cleanupForBargeIn (e : DuplexOmni μ) (s : SessionId) (n : ℕ) :
    (e.cleanupForBargeIn s).tasks n = e.tasks n ∨
      n ∈ (e.server.sessions s).activeTasks.getD [] ∧ (e.tasks n).finalizing = true ∧
        (e.cleanupForBargeIn s).tasks n = { e.tasks n with cut := true } := by
  by_cases hn : n ∈ (e.server.sessions s).activeTasks.getD [] ∧ (e.tasks n).finalizing = true
  · exact .inr ⟨hn.1, hn.2, if_pos hn⟩
  · exact .inl (if_neg hn)

lemma sends_cleanupForBargeIn (e : DuplexOmni μ) (s : SessionId) (n : ℕ) :
    ((e.cleanupForBargeIn s).tasks n).sends = (e.tasks n).sends := by
  rcases tasks_cleanupForBargeIn e s n with heq | ⟨-, -, heq⟩ <;> rw [heq]

/-- `cleanup_for_barge_in` takes the tasks of the session out and marks their turns. -/
lemma wired_cleanupForBargeIn (h : Wired e) (s : SessionId) : Wired (e.cleanupForBargeIn s) := by
  have hkept := turnsKept_cleanupForBargeIn e.server s
  refine ⟨h.tracked.cleanupForBargeIn s, fun s' n hn => ?_, fun k n hmem => ?_, fun n hn => ?_,
    fun n hn => ?_, fun s' hs' => ?_⟩
  · refine hkept.statusOf (h.active s' n ?_)
    rw [DuplexOmni.cleanupForBargeIn, sessions_cleanupForBargeIn] at hn
    by_cases hs : s' = s
    · subst hs
      rw [update_sessions_self] at hn
      cases hn
    · rw [update_sessions_of_ne _ hs] at hn
      exact hn
  · exact owned_of_turnsKept hkept h.owned (filter_subset_self _ hmem)
  · have hold : e.tasks n ≠ {} := by
      rcases tasks_cleanupForBargeIn e s n with heq | ⟨-, hfinal, -⟩
      · exact heq ▸ hn
      · exact fun heq => by simp [heq] at hfinal
    obtain ⟨t, ht, hrunning⟩ := h.running n hold
    obtain ⟨t', ht', -, hstatus, -⟩ := exists_turn_cleanupForBargeIn s ht
    exact ⟨t', ht', hstatus.trans hrunning⟩
  · rcases tasks_cleanupForBargeIn e s n with heq | ⟨hactive, hfinal, heq⟩
    · rw [heq] at hn ⊢
      obtain ⟨hfinal, t, ht, hcancelling⟩ := h.cut n hn
      obtain ⟨t', ht', -, -, hmarked, -⟩ := exists_turn_cleanupForBargeIn s ht
      exact ⟨hfinal, t', ht', hmarked hcancelling⟩
    · rw [heq]
      obtain ⟨t, ht, hrunning⟩ := h.running n fun heq => by simp [heq] at hfinal
      obtain ⟨t', ht', -, -, -, hmarked⟩ := exists_turn_cleanupForBargeIn s ht
      exact ⟨hfinal, t', ht', hmarked hactive (by simp [hrunning])⟩
  · rw [DuplexOmni.cleanupForBargeIn, sessions_cleanupForBargeIn]
    by_cases hs : s' = s
    · subst hs
      rw [update_sessions_self]
    · rw [update_sessions_of_ne _ hs]
      exact h.eouState s' ((update_of_ne hs _ _).symm.trans hs')

lemma wired_stopSession (h : Wired e) (s : SessionId) : Wired (e.stopSession s) :=
  (wired_cleanupForBargeIn h s).update s
    (f := fun x => { x with sessionWorker := false, worker := none }) rfl rfl (fun _ => rfl)
    (fun _ => .inr ⟨rfl, rfl⟩) fun _ _ => rfl

lemma wired_finishStop (h : Wired e) (s : SessionId) : Wired (e.finishStop s) :=
  h.update s (f := fun x => { x with inputQueue := none, resultQueue := false, eouState := none })
    rfl rfl (fun _ => rfl) (fun _ => .inl rfl) fun _ hs => update_of_ne hs ..

/-- The turns from before a start. -/
lemma getElem?_startTurn_of_some (ht : x.turns[n]? = some t) :
    (x.startTurn s mode).turns[n]? = some t := by
  rw [Server.startTurn, getElem?_append_left (List.getElem?_eq_some_iff.mp ht).1, ht]

/-- The turn that is started. -/
lemma getElem?_startTurn_length (x : Server μ) (s : SessionId) (mode : Option μ) :
    (x.startTurn s mode).turns[x.turns.length]? =
      some { id := .start s x.clock, promptMode := x.aiMode, utteranceMode := mode } := by
  rw [Server.startTurn, getElem?_concat_length]

/-- The active tasks after a start. -/
lemma mem_activeTasks_startTurn (h : n ∈ ((x.startTurn s mode).sessions s').activeTasks.getD []) :
    n ∈ (x.sessions s').activeTasks.getD [] ∨ s' = s ∧ n = x.turns.length := by
  rw [sessions_startTurn] at h
  by_cases hs : s' = s
  · subst hs
    rw [update_sessions_self] at h
    exact (mem_append.mp h).imp_right fun hn => ⟨rfl, mem_singleton.mp hn⟩
  · rw [update_sessions_of_ne _ hs] at h
    exact .inl h

lemma Wired.startTurn (h : Wired e) (hturns : x.turns = e.server.turns)
    (hrequests : x.requestStates = e.server.requestStates)
    (hactive : ∀ s, (x.sessions s).activeTasks = (e.server.sessions s).activeTasks)
    (hserver : e'.server = x.startTurn s mode) (htasks : e'.tasks = e.tasks)
    (htracked : Tracked e'.server)
    (heou : ∀ s, e'.heard s = false → (e'.server.sessions s).eouState = none) : Wired e' := by
  have hturn : ∀ {n : ℕ} {t : StartedTurn μ}, e.server.turns[n]? = some t →
      e'.server.turns[n]? = some t := by
    intro n t ht
    rw [hserver]
    exact getElem?_startTurn_of_some (hturns ▸ ht)
  refine ⟨htracked, fun s' n hn => ?_, fun k n hmem => ?_, fun n hn => ?_, fun n hn => ?_, heou⟩
  · rw [hserver] at hn
    rcases mem_activeTasks_startTurn hn with hold | ⟨rfl, rfl⟩
    · obtain ⟨t, ht, hts⟩ := statusOf_ne_none.mp (h.active s' n (hactive s' ▸ hold))
      exact statusOf_ne_none.mpr ⟨t, hturn ht, hts⟩
    · rw [hserver]
      exact statusOf_ne_none.mpr ⟨_, getElem?_startTurn_length .., rfl⟩
  · rw [hserver] at hmem
    obtain ⟨t, ht, hk⟩ := h.owned k n (hrequests ▸ hmem)
    exact ⟨t, hturn ht, hk⟩
  · obtain ⟨t, ht, hrunning⟩ := h.running n (htasks ▸ hn)
    exact ⟨t, hturn ht, hrunning⟩
  · rw [htasks] at hn ⊢
    obtain ⟨hfinal, t, ht, hcancelling⟩ := h.cut n hn
    exact ⟨hfinal, t, hturn ht, hcancelling⟩

section Runs

variable [DecidableEq μ] {a : DuplexAct μ} {acts : List (DuplexAct μ)}

lemma Wired.submitTurn (h : Wired e) {m : ℕ} {t : StartedTurn μ}
    (hturn : e.server.turns[m]? = some t) (hstatus : t.status = .created)
    (hserver : e'.server = e.server.submitTurn g m t) (htasks : e'.tasks = e.tasks)
    (htracked : Tracked e'.server)
    (heou : ∀ s, e'.heard s = false → (e'.server.sessions s).eouState = none) : Wired e' := by
  have hnone : e.tasks m = {} := h.tasks_eq hturn (by simp [hstatus])
  have hturns : e'.server.turns = e.server.turns.set m
      { t with status := .running, voice := some (if e.server.aiMode = g then .g else .a) } := by
    rw [hserver]
    rfl
  have hkept : e.server.TurnsKept e'.server := .of_set hturns hturn rfl
  have hother : ∀ n, n ≠ m → e'.server.turns[n]? = e.server.turns[n]? := by
    intro n hn
    rw [hturns, getElem?_set_ne (Ne.symm hn)]
  refine ⟨htracked, fun s n hn => ?_, fun k n hmem => ?_, fun n hn => ?_, fun n hn => ?_, heou⟩
  · rw [hserver] at hn
    exact hkept.statusOf (h.active s n hn)
  · rw [hserver] at hmem
    rcases OrderedDict.mem_set hmem with ⟨rfl, rfl⟩ | hold
    · obtain ⟨t', ht', hid⟩ := hkept n t hturn
      exact ⟨t', ht', hid ▸ .stage0⟩
    · exact owned_of_turnsKept hkept h.owned hold
  · rw [htasks] at hn
    have hne : n ≠ m := by
      rintro rfl
      exact hn hnone
    rw [hother n hne]
    exact h.running n hn
  · rw [htasks] at hn ⊢
    have hne : n ≠ m := by
      rintro rfl
      simp [hnone] at hn
    rw [hother n hne]
    exact h.cut n hn

lemma eouState_setServer (h : Wired e) {a : ServerAct μ} {x : Server μ}
    (haccepts : e.accepts a = true) (hstep : serverStep g e.server a = some x)
    (hs : (e.setServer a x).heard s = false) : (x.sessions s).eouState = none := by
  have hkept := sessionKept_of_step haccepts hstep s
  cases a with
  | endOfUtterance s' lastSeq mode =>
    have hne : s ≠ s' := by
      rintro rfl
      have htrue : (e.setServer (.endOfUtterance s lastSeq mode) x).heard s = true :=
        update_self ..
      exact Bool.false_ne_true (hs.symm.trans htrue)
    refine (hkept.eouState fun _ _ heq => ?_).trans
      (h.eouState s ((update_of_ne hne _ _).symm.trans hs))
    cases heq
    exact hne rfl
  | _ => exact (hkept.eouState fun _ _ heq => by cases heq).trans (h.eouState s hs)

lemma wired_setServer (h : Wired e) {a : ServerAct μ} {x : Server μ}
    (haccepts : e.accepts a = true) (hstep : serverStep g e.server a = some x) :
    Wired (e.setServer a x) := by
  have htracked : Tracked x := tracked_step h.tracked hstep
  have heou : ∀ s, (e.setServer a x).heard s = false → (x.sessions s).eouState = none :=
    fun s hs => eouState_setServer h haccepts hstep hs
  cases serverEffect_of_step haccepts hstep with
  | quiet hturns hrequests hactive =>
    refine ⟨htracked, fun s n hn => ?_, fun k n hmem => ?_, fun n hn => ?_, fun n hn => ?_, heou⟩
    · exact (Server.TurnsKept.of_eq hturns).statusOf (h.active s n (hactive s ▸ hn))
    · exact hturns ▸ h.owned k n (hrequests ▸ hmem)
    · exact hturns ▸ h.running n hn
    · exact hturns ▸ h.cut n hn
  | start mode _ hturns hrequests hactive =>
    exact h.startTurn hturns hrequests hactive rfl rfl htracked heou
  | submit hturn hstatus _ => exact h.submitTurn hturn hstatus rfl rfl htracked heou
  | register r hturn hstatus =>
    refine ⟨htracked, h.active, fun k n hmem => ?_, h.running, h.cut, heou⟩
    rcases OrderedDict.mem_set hmem with ⟨rfl, rfl⟩ | hold
    · exact ⟨_, hturn, r.owns_key _⟩
    · exact h.owned k n hold
  | stop =>
    exact ⟨htracked, h.active, fun k n hmem => h.owned k n (filter_subset_self _ hmem),
      h.running, h.cut, heou⟩

lemma wired_step (h : Wired e) (hstep : duplexStep g e a = some e') : Wired e' := by
  cases duplexMove_of_step hstep with
  | server haccepts hx => exact wired_setServer h haccepts hx
  | spawn k hturn hstatus _ =>
    exact wired_setTasks h hturn hstatus fun hcut => ⟨(h.cut _ hcut).1, hcut⟩
  | send hturn hsends => exact wired_sendChunk h hturn hsends
  | output _ _ _ =>
    unfold DuplexOmni.putResult
    split
    · exact { h with }
    · exact h
  | deliver _ => exact { h with }
  | finalize hturn hstatus => exact wired_setTasks h hturn hstatus fun hcut => ⟨rfl, hcut⟩
  | leave hturn _ _ => exact wired_leaveFinally h hturn
  | drop hturn hstatus _ => exact wired_drop h hturn hstatus
  | bargeIn s => exact wired_cleanupForBargeIn h s
  | stop s => exact wired_stopSession h s
  | stopped s => exact wired_finishStop h s

lemma wired_run {now : Second} (hrun : run (duplexStep g) (.init g now) acts = some e) : Wired e :=
  run_invariant (fun _ _ _ h hstep => wired_step h hstep) (wired_init g now) hrun

end Runs

/-! ## The server in the engine -/

/-- Both parts of `stop_session` together are what it does to the server. -/
lemma server_stopSession (e : DuplexOmni μ) (s : SessionId) :
    ((e.stopSession s).finishStop s).server = e.server.stopSession s := by
  simp [DuplexOmni.finishStop, DuplexOmni.stopSession, Server.stopSession, Server.update]

/-- An event of the engine is one of the server or leaves that alone, unless it tears down a session
or ends a turn cancelled in its `finally` block. -/
theorem serverStep_of_duplexStep [DecidableEq μ] {a : DuplexAct μ} (h : Wired e)
    (hstep : duplexStep g e a = some e') :
    e'.server = e.server ∨ (∃ b, serverStep g e.server b = some e'.server) ∨
      (∃ n, a = .leave n ∧ (e.tasks n).cut = true) ∨
      ∃ s, a = .bargeIn s ∨ a = .stop s ∨ a = .stopped s := by
  cases duplexMove_of_step hstep with
  | server _ hx => exact .inr (.inl ⟨_, hx⟩)
  | spawn _ _ _ _ | deliver _ | finalize _ _ => exact .inl rfl
  | output _ _ _ =>
    unfold DuplexOmni.putResult
    split <;> exact .inl rfl
  | @send n k rest t hturn hsends =>
    obtain ⟨u, hu, hrunning⟩ := h.running n fun heq => by simp [heq] at hsends
    cases hturn.symm.trans hu
    refine .inr (.inl ⟨.register n (.stage1 k), ?_⟩)
    simp [serverStep, Server.onTurn, hturn, hrunning, DuplexOmni.sendChunk]
  | @leave n t hturn hrunning _ =>
    cases hcut : (e.tasks n).cut with
    | true => exact .inr (.inr (.inl ⟨n, rfl, hcut⟩))
    | false =>
      have hserver : (e.leaveFinally n t).server = e.server.endTurn n t := by
        rw [DuplexOmni.leaveFinally, hcut]
        rfl
      rw [hserver]
      cases hcancelling : t.cancelling with
      | true =>
        refine .inr (.inl ⟨.cancelled n, ?_⟩)
        simp [serverStep, Server.onTurn, hturn, hrunning, hcancelling]
      | false =>
        refine .inr (.inl ⟨.finish n, ?_⟩)
        simp [serverStep, Server.onTurn, hturn, hrunning, hcancelling]
  | @drop n t hturn hcreated hcancelling =>
    refine .inr (.inl ⟨.cancelled n, ?_⟩)
    simp [serverStep, Server.onTurn, hturn, hcreated, hcancelling]
  | bargeIn s => exact .inr (.inr (.inr ⟨s, .inl rfl⟩))
  | stop s => exact .inr (.inr (.inr ⟨s, .inr (.inl rfl)⟩))
  | stopped s => exact .inr (.inr (.inr ⟨s, .inr (.inr rfl)⟩))

/-- A barge-in comes from a served client, no turn is cut off in its `finally` block, and nothing
runs `stop_session`. -/
def Conforms (e : DuplexOmni μ) : DuplexAct μ → Prop
  | .bargeIn s => (e.server.sessions s).endpoint = .serving
  | .leave n => (e.tasks n).cut = false
  | .stop _ | .stopped _ => False
  | _ => True

/-- What a conforming run, barge-ins included, makes of the server is what some run of the server
makes of it. -/
theorem duplex_refines_server [DecidableEq μ] {now : Second} {acts : List (DuplexAct μ)}
    (hok : AllSteps (duplexStep g) Conforms (.init g now) acts)
    (hrun : run (duplexStep g) (.init g now) acts = some e) :
    ∃ bs, run (serverStep g) (.init g now) bs = some e.server := by
  refine (run_invariant_of_allSteps
    (I := fun e => Wired e ∧ ∃ bs, run (serverStep g) (.init g now) bs = some e.server)
    (fun e a e' h hok hstep => ⟨wired_step h.1 hstep, ?_⟩) ⟨wired_init g now, [], rfl⟩ hok hrun).2
  obtain ⟨hwired, bs, hbs⟩ := h
  have hsnoc (b) (hb : serverStep g e.server b = some e'.server) :
      ∃ bs, run (serverStep g) (.init g now) bs = some e'.server := by
    refine ⟨bs ++ [b], ?_⟩
    rw [run_append, hbs, bind_some, run_cons, hb]
    rfl
  obtain hsame | ⟨b, hb⟩ | ⟨n, rfl, hcut⟩ | ⟨s, rfl | rfl | rfl⟩ :=
    serverStep_of_duplexStep hwired hstep
  · exact ⟨bs, hsame ▸ hbs⟩
  · exact hsnoc b hb
  · exact absurd hok (by simp [Conforms, hcut])
  · cases hstep
    exact hsnoc (.bargeIn s) (if_pos hok)
  · exact hok.elim
  · exact hok.elim

instance (e : DuplexOmni μ) : DecidablePred (Conforms e) := fun a => by
  unfold Conforms
  split <;> infer_instance

/-- A client barges in while the answer comes: the turn is cancelled, comes to its `finally` block
and leaves it. -/
def clientBargesIn : List (DuplexAct ℕ) :=
  [.server (.connect someSession), .server (.frame someSession someFrame),
    .server (.endOfUtterance someSession none (some 1)), .server (.take someSession),
    .server (.take someSession), .server (.submit 0), .spawn 0 0, .send 0, .output 0,
    .bargeIn someSession, .finalize 0, .leave 0]

/-- Some run of the server ends the turn as well. -/
theorem duplex_refines_server_clientBargesIn :
    ∃ e, run (duplexStep 0) (.init 0 someSecond) clientBargesIn = some e ∧
      e.server.turns.map StartedTurn.status = [.ended] ∧
      ∃ bs, run (serverStep 0) (.init 0 someSecond) bs = some e.server := by
  have hok : AllSteps (duplexStep 0) Conforms (.init 0 someSecond) clientBargesIn := by
    decide +kernel
  have hrun : run (duplexStep 0) (.init 0 someSecond) clientBargesIn = some _ := rfl
  exact ⟨_, hrun, rfl, duplex_refines_server hok hrun⟩

end OmniStreaming
