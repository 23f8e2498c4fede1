import OmniStreaming.Duplex.RequestId
import OmniStreaming.Lib.OrderedDict

/-!
# Sessions of the server

`websocket_endpoint` opens a session of the engine for every connection, passes the client's
messages to it and polls `request_states` for new turns. The engine (`DuplexOmni`) has an input
queue and an audio worker for every session: the worker gathers audio until an end of utterance and
then starts a turn.

The mode (`ai_mode`) is a field of the engine, not of the session: every call of
`put_incremental_input` may set it, and a turn reads it twice, when the worker makes its prompt and
when `generate_realtime_final` submits its stage-0 task.

`Server` is the engine with all its sessions and turns, and `serverStep` has one event for every
message and for everything that a coroutine does between two awaits. Results and their senders are
not part of this model.
-/

namespace OmniStreaming

open List

variable {μ : Type*}

/-! ## The parts of the engine -/

/-- A second of the years 2001 to 2286. -/
abbrev Second := { n : ℕ // 10 ^ 9 ≤ n ∧ n < 10 ^ 10 }

/-- The id `{session_id}_{int(time.time())}`. -/
def TurnId.start (s : SessionId) (now : Second) : TurnId := ⟨s, now.1, now.2.1, now.2.2⟩

/-- An item of an input queue: a frame, or `EOS_MARKER`, with the mode of its end of utterance as a
history. -/
inductive AudioItem (μ : Type*)
  | pcm (seq : ℕ) (bytes : List UInt8)
  | eosMarker (mode : Option μ)
  deriving DecidableEq

/-- The `voice` field of a stage-0 task. -/
inductive Voice
  | g
  | a
  deriving Repr, DecidableEq

/-- Where the task of a turn stands: it has not run, it is in `generate_realtime_final`, or it has
ended. -/
inductive TurnStatus
  | created
  | running
  | ended
  deriving Repr, DecidableEq

/-- A turn that `_audio_worker` has started, with the voice of its stage-0 task, whether it is to be
cancelled, and, as a history, the mode of its end of utterance. -/
structure StartedTurn (μ : Type*) where
  id : TurnId
  promptMode : μ
  voice : Option Voice := none
  status : TurnStatus := .created
  cancelling : Bool := false
  utteranceMode : Option μ
  deriving DecidableEq

/-- `websocket_endpoint` of a session. -/
inductive Endpoint
  | absent
  | serving
  | returned
  deriving Repr, DecidableEq

/-- How a connection can end. -/
inductive EndReason
  | disconnectMessage
  | webSocketDisconnect
  | receiveLoopError
  | sendLoopError
  deriving Repr, DecidableEq

/-- What is held for a session: its entries in the dictionaries of the engine, the buffer of the
audio worker, if it runs, and the endpoint, with `last_turn_id` of its `send_loop` and, as a
history, the turns taken for new ones. -/
structure SessionState (μ : Type*) where
  inputQueue : Option (List (AudioItem μ)) := none
  resultQueue : Bool := false
  sessionWorker : Bool := false
  activeTasks : Option (List ℕ) := none
  eouState : Option (Option ℕ) := none
  worker : Option (List UInt8) := none
  endpoint : Endpoint := .absent
  lastTurnId : Option Key := none
  picked : List ℕ := []

/-- The engine, with its turns in the order of their start. -/
structure Server (μ : Type*) where
  aiMode : μ
  clock : Second
  sessions : SessionId → SessionState μ := fun _ => {}
  turns : List (StartedTurn μ) := []
  requestStates : List (Key × ℕ) := []

inductive ServerAct (μ : Type*)
  /-- A client connects. -/
  | connect (s : SessionId)
  /-- A binary message arrives. -/
  | frame (s : SessionId) (data : List UInt8)
  /-- An `end_of_utterance` arrives. -/
  | endOfUtterance (s : SessionId) (lastSeq : Option ℕ) (mode : Option μ)
  /-- A `barge_in` arrives. -/
  | bargeIn (s : SessionId)
  /-- The audio worker takes an item. -/
  | take (s : SessionId)
  /-- The task of a turn runs for the first time. -/
  | submit (n : ℕ)
  /-- A turn enters a request id. -/
  | register (n : ℕ) (r : SubRequest)
  /-- `worker_1to2` of a turn handles a stop token. -/
  | stop (n : ℕ)
  /-- The generator of a turn ends. -/
  | finish (n : ℕ)
  /-- A cancelled turn ends. -/
  | cancelled (n : ℕ)
  /-- `send_loop` polls. -/
  | poll (s : SessionId)
  /-- The connection ends, and `websocket_endpoint` returns. -/
  | close (s : SessionId) (reason : EndReason)
  /-- The clock shows a second. -/
  | clock (now : Second)

/-! ## Messages -/

/-- Change what is held for a session. -/
def Server.update (e : Server μ) (s : SessionId) (f : SessionState μ → SessionState μ) : Server μ :=
  { e with sessions := Function.update e.sessions s (f (e.sessions s)) }

variable (e : Server μ)

/-- `start_duplex_session`. -/
def Server.startDuplexSession (s : SessionId) : Server μ :=
  e.update s fun x =>
    { x with
      inputQueue := x.inputQueue <|> some []
      resultQueue := true
      sessionWorker := true
      worker := some [] }

/-- Put an item on the input queue of a session. -/
def Server.putNowait (s : SessionId) (item : AudioItem μ) : Server μ :=
  e.update s fun x => { x with inputQueue := x.inputQueue.map (· ++ [item]) }

/-- The item that a binary message becomes: four bytes of sequence number, then 16-bit samples. -/
def parseFrame (data : List UInt8) : Option (AudioItem μ) :=
  if data.length < 4 then none
  else if (data.drop 4).length % 2 ≠ 0 then none
  else some (.pcm ((data.take 4).foldr (fun b n => b.toNat + 256 * n) 0) (data.drop 4))

/-- `put_incremental_input`; `none` for the audio is the end of the utterance. -/
def Server.putIncrementalInput (s : SessionId) (audio : Option (List UInt8))
    (mode : Option μ) : Server μ :=
  if (e.sessions s).inputQueue.isNone then e
  else
    let e := { e with aiMode := mode.getD e.aiMode }
    match audio with
    | none => e.putNowait s (.eosMarker mode)
    | some data => (parseFrame data).elim e (e.putNowait s)

/-- `cleanup_for_barge_in`, without the `ABORT` that it sends to the stages. -/
def Server.cleanupForBargeIn (s : SessionId) : Server μ :=
  let tasks := (e.sessions s).activeTasks.getD []
  { e.update s fun x => { x with activeTasks := none, eouState := none } with
    turns := e.turns.mapIdx fun n t =>
      if n ∈ tasks ∧ t.status ≠ .ended then { t with cancelling := true } else t
    requestStates := OrderedDict.popKeys e.requestStates fun k => s.text.isPrefixOf k }

/-! ## Turns -/

/-- The audio worker starts a turn. -/
def Server.startTurn (s : SessionId) (mode : Option μ) : Server μ :=
  { e.update s fun x =>
      { x with worker := some [], activeTasks := some (x.activeTasks.getD [] ++ [e.turns.length]) }
    with
    turns := e.turns ++
      [{ id := .start s e.clock, promptMode := e.aiMode, utteranceMode := mode }] }

/-- The audio worker takes an item. -/
def Server.takeItem (s : SessionId) : Option (Server μ) :=
  match (e.sessions s).worker, (e.sessions s).inputQueue with
  | some buffer, some (.pcm _ bytes :: rest) =>
    some (e.update s fun x => { x with inputQueue := some rest, worker := some (buffer ++ bytes) })
  | some buffer, some (.eosMarker mode :: rest) =>
    let e := e.update s fun x => { x with inputQueue := some rest }
    some (if buffer.isEmpty then e else e.startTurn s mode)
  | _, _ => none

/-- `generate_realtime_final` enters the turn id and submits the stage-0 task; `g` is the mode
`"G"`. -/
def Server.submitTurn [DecidableEq μ] (g : μ) (e : Server μ) (n : ℕ) (t : StartedTurn μ) :
    Server μ :=
  { e with
    turns := e.turns.set n
      { t with status := .running, voice := some (if e.aiMode = g then .g else .a) }
    requestStates := OrderedDict.set e.requestStates t.id.text n }

/-- The task of a turn has ended: its done-callback takes it out of the active tasks. -/
def Server.discardTask (n : ℕ) (t : StartedTurn μ) : Server μ :=
  { e.update t.id.session fun x =>
      { x with activeTasks := x.activeTasks.map fun tasks => tasks.filter (· ≠ n) } with
    turns := e.turns.set n { t with status := .ended } }

/-- The `finally` block of `generate_realtime_final`, and the end of the task. -/
def Server.endTurn (n : ℕ) (t : StartedTurn μ) : Server μ :=
  { (e.update t.id.session fun x => { x with eouState := none }).discardTask n t with
    requestStates := OrderedDict.popKeys e.requestStates fun k => t.id.text.isPrefixOf k }

/-- The test of `send_loop` for a key: it is one of the session, and its turn is not
`last_turn_id`. -/
def Server.isNew (s : SessionId) (key : Key) : Bool :=
  s.text.isPrefixOf key && some (splitHead stageMark key) ≠ (e.sessions s).lastTurnId

/-- The first entry whose key passes the test. -/
def Server.newTurn (s : SessionId) : Option (Key × ℕ) :=
  e.requestStates.find? fun x => e.isNew s x.1

/-- One round of `send_loop`. -/
def Server.pollTurns (s : SessionId) : Server μ :=
  match e.newTurn s with
  | none => e
  | some (key, n) =>
    e.update s fun x =>
      { x with lastTurnId := some (splitHead stageMark key), picked := x.picked ++ [n] }

/-- `websocket_endpoint` leaves its `finally` block. It does not await `stop_session`, so nothing of
that runs. -/
def Server.closeEndpoint (s : SessionId) (_reason : EndReason) : Server μ :=
  e.update s fun x => { x with endpoint := .returned }

/-- `stop_session`, which nothing in the life of a connection runs. -/
def Server.stopSession (s : SessionId) : Server μ :=
  (e.cleanupForBargeIn s).update s fun x =>
    { x with
      sessionWorker := false
      worker := none
      inputQueue := none
      resultQueue := false
      eouState := none }

/-- The event needs the endpoint of the session. -/
def Server.served (s : SessionId) (f : Server μ → Server μ) : Option (Server μ) :=
  if (e.sessions s).endpoint = .serving then some (f e) else none

/-- The event is one of turn `n`, if that stands as `ready` says. -/
def Server.onTurn (n : ℕ) (ready : StartedTurn μ → Bool) (f : StartedTurn μ → Server μ) :
    Option (Server μ) :=
  e.turns[n]?.bind fun t => if ready t then some (f t) else none

/-- One event of the server; `g` is the mode `"G"`. -/
def serverStep [DecidableEq μ] (g : μ) (e : Server μ) : ServerAct μ → Option (Server μ)
  | .connect s =>
    if (e.sessions s).endpoint = .absent then
      some ((e.startDuplexSession s).update s fun x => { x with endpoint := .serving })
    else none
  | .frame s data => e.served s fun e => e.putIncrementalInput s (some data) (some g)
  | .endOfUtterance s lastSeq mode =>
    e.served s fun e =>
      (e.update s fun x => { x with eouState := some lastSeq }).putIncrementalInput s none mode
  | .bargeIn s => e.served s fun e => e.cleanupForBargeIn s
  | .take s => e.takeItem s
  | .submit n => e.onTurn n (fun t => t.status = .created && !t.cancelling) (e.submitTurn g n)
  | .register n r =>
    e.onTurn n (fun t => t.status = .running) fun t =>
      { e with requestStates := OrderedDict.set e.requestStates (r.key t.id) n }
  | .stop n =>
    e.onTurn n (fun t => t.status = .running) fun _ =>
      { e with requestStates := OrderedDict.popKeys e.requestStates fun k => stage1Mark <:+: k }
  | .finish n => e.onTurn n (fun t => t.status = .running && !t.cancelling) (e.endTurn n)
  | .cancelled n =>
    e.onTurn n (fun t => t.status ≠ .ended && t.cancelling) fun t =>
      if t.status = .created then e.discardTask n t else e.endTurn n t
  | .poll s => e.served s fun e => e.pollTurns s
  | .close s reason => e.served s fun e => e.closeEndpoint s reason
  | .clock now => if e.clock ≤ now then some { e with clock := now } else none

/-- The engine when the server starts, with the mode `"G"`. -/
def Server.init (g : μ) (now : Second) : Server μ := { aiMode := g, clock := now }

/-- The turns of a session, in the order of their start. -/
def Server.turnsOf (s : SessionId) : List (StartedTurn μ) :=
  e.turns.filter fun t => t.id.session = s

/-! ## What an event can do -/

variable {e e' : Server μ} {s s' : SessionId} {n : ℕ}

/-- An event of a served client. -/
lemma served_eq_some {f : Server μ → Server μ} (h : e.served s f = some e') :
    (e.sessions s).endpoint = .serving ∧ e' = f e := by
  unfold Server.served at h
  split at h
  · exact ⟨‹_›, (Option.some.inj h).symm⟩
  · cases h

lemma onTurn_eq_some {ready : StartedTurn μ → Bool} {f : StartedTurn μ → Server μ}
    (h : e.onTurn n ready f = some e') : ∃ t, e.turns[n]? = some t ∧ ready t = true ∧ e' = f t := by
  obtain ⟨t, ht, h⟩ := Option.bind_eq_some_iff.mp h
  split at h
  · exact ⟨t, ht, ‹_›, (Option.some.inj h).symm⟩
  · cases h

/-- What an event can do. -/
inductive ServerMove [DecidableEq μ] (g : μ) (e : Server μ) : ServerAct μ → Server μ → Prop
  | connect {s : SessionId} (habsent : (e.sessions s).endpoint = .absent) :
    ServerMove g e (.connect s)
      ((e.startDuplexSession s).update s fun x => { x with endpoint := .serving })
  | frame {s : SessionId} (data : List UInt8) (hserving : (e.sessions s).endpoint = .serving) :
    ServerMove g e (.frame s data) (e.putIncrementalInput s (some data) (some g))
  | endOfUtterance {s : SessionId} (lastSeq : Option ℕ) (mode : Option μ)
      (hserving : (e.sessions s).endpoint = .serving) :
    ServerMove g e (.endOfUtterance s lastSeq mode)
      ((e.update s fun x => { x with eouState := some lastSeq }).putIncrementalInput s none mode)
  | bargeIn {s : SessionId} (hserving : (e.sessions s).endpoint = .serving) :
    ServerMove g e (.bargeIn s) (e.cleanupForBargeIn s)
  | takeFrame {s : SessionId} {buffer bytes : List UInt8} {seq : ℕ} {rest : List (AudioItem μ)}
      (hworker : (e.sessions s).worker = some buffer)
      (hqueue : (e.sessions s).inputQueue = some (.pcm seq bytes :: rest)) :
    ServerMove g e (.take s)
      (e.update s fun x => { x with inputQueue := some rest, worker := some (buffer ++ bytes) })
  | takeMarker {s : SessionId} {mode : Option μ} {rest : List (AudioItem μ)}
      (hworker : (e.sessions s).worker = some [])
      (hqueue : (e.sessions s).inputQueue = some (.eosMarker mode :: rest)) :
    ServerMove g e (.take s) (e.update s fun x => { x with inputQueue := some rest })
  | takeTurn {s : SessionId} {buffer : List UInt8} {mode : Option μ}
      {rest : List (AudioItem μ)} (hworker : (e.sessions s).worker = some buffer)
      (hqueue : (e.sessions s).inputQueue = some (.eosMarker mode :: rest)) (haudio : buffer ≠ []) :
    ServerMove g e (.take s)
      ((e.update s fun x => { x with inputQueue := some rest }).startTurn s mode)
  | submit {n : ℕ} {t : StartedTurn μ} (hturn : e.turns[n]? = some t)
      (hstatus : t.status = .created) (hlive : t.cancelling = false) :
    ServerMove g e (.submit n) (e.submitTurn g n t)
  | register {n : ℕ} {t : StartedTurn μ} (r : SubRequest) (hturn : e.turns[n]? = some t)
      (hstatus : t.status = .running) :
    ServerMove g e (.register n r)
      { e with requestStates := OrderedDict.set e.requestStates (r.key t.id) n }
  | stop {n : ℕ} {t : StartedTurn μ} (hturn : e.turns[n]? = some t)
      (hstatus : t.status = .running) :
    ServerMove g e (.stop n)
      { e with requestStates := OrderedDict.popKeys e.requestStates fun k => stage1Mark <:+: k }
  | finish {n : ℕ} {t : StartedTurn μ} (hturn : e.turns[n]? = some t)
      (hstatus : t.status = .running) : ServerMove g e (.finish n) (e.endTurn n t)
  | cancelledEarly {n : ℕ} {t : StartedTurn μ} (hturn : e.turns[n]? = some t)
      (hstatus : t.status = .created) (hcancelling : t.cancelling = true) :
    ServerMove g e (.cancelled n) (e.discardTask n t)
  | cancelled {n : ℕ} {t : StartedTurn μ} (hturn : e.turns[n]? = some t)
      (hstatus : t.status = .running) (hcancelling : t.cancelling = true) :
    ServerMove g e (.cancelled n) (e.endTurn n t)
  | poll {s : SessionId} (hserving : (e.sessions s).endpoint = .serving) :
    ServerMove g e (.poll s) (e.pollTurns s)
  | close {s : SessionId} (reason : EndReason)
      (hserving : (e.sessions s).endpoint = .serving) :
    ServerMove g e (.close s reason) (e.closeEndpoint s reason)
  | clock {now : Second} (hle : e.clock ≤ now) : ServerMove g e (.clock now) { e with clock := now }

variable {g : μ} {a : ServerAct μ} {t : StartedTurn μ}

/-- The audio worker takes an item. -/
lemma serverMove_of_take [DecidableEq μ] (h : e.takeItem s = some e') :
    ServerMove g e (.take s) e' := by
  unfold Server.takeItem at h
  split at h
  · rename_i buffer seq bytes rest hworker hqueue
    exact Option.some.inj h ▸ .takeFrame hworker hqueue
  · rename_i buffer mode rest hworker hqueue
    by_cases hempty : buffer = []
    · subst hempty
      exact Option.some.inj h ▸ .takeMarker hworker hqueue
    · simp only [List.isEmpty_iff, hempty, if_false] at h
      exact Option.some.inj h ▸ .takeTurn hworker hqueue hempty
  · cases h

lemma serverMove_of_step [DecidableEq μ] (h : serverStep g e a = some e') :
    ServerMove g e a e' := by
  cases a with
  | connect s =>
    simp only [serverStep] at h
    split at h
    · exact Option.some.inj h ▸ .connect ‹_›
    · cases h
  | frame s data =>
    simp only [serverStep] at h
    obtain ⟨hserving, rfl⟩ := served_eq_some h
    exact .frame data hserving
  | endOfUtterance s lastSeq mode =>
    simp only [serverStep] at h
    obtain ⟨hserving, rfl⟩ := served_eq_some h
    exact .endOfUtterance lastSeq mode hserving
  | bargeIn s =>
    simp only [serverStep] at h
    obtain ⟨hserving, rfl⟩ := served_eq_some h
    exact .bargeIn hserving
  | take s => exact serverMove_of_take h
  | submit n =>
    obtain ⟨t, ht, hready, rfl⟩ := onTurn_eq_some h
    simp only [Bool.and_eq_true, decide_eq_true_eq, Bool.not_eq_true'] at hready
    exact .submit ht hready.1 hready.2
  | register n r =>
    obtain ⟨t, ht, hready, rfl⟩ := onTurn_eq_some h
    exact .register r ht (of_decide_eq_true hready)
  | stop n =>
    obtain ⟨t, ht, hready, rfl⟩ := onTurn_eq_some h
    exact .stop ht (of_decide_eq_true hready)
  | finish n =>
    obtain ⟨t, ht, hready, rfl⟩ := onTurn_eq_some h
    simp only [Bool.and_eq_true, decide_eq_true_eq] at hready
    exact .finish ht hready.1
  | cancelled n =>
    obtain ⟨t, ht, hready, rfl⟩ := onTurn_eq_some h
    simp only [Bool.and_eq_true, decide_eq_true_eq] at hready
    cases hstatus : t.status with
    | created =>
      simp only [if_true]
      exact .cancelledEarly ht hstatus hready.2
    | running =>
      simp only [reduceCtorEq, if_false]
      exact .cancelled ht hstatus hready.2
    | ended => exact absurd hstatus hready.1
  | poll s =>
    simp only [serverStep] at h
    obtain ⟨hserving, rfl⟩ := served_eq_some h
    exact .poll hserving
  | close s reason =>
    simp only [serverStep] at h
    obtain ⟨hserving, rfl⟩ := served_eq_some h
    exact .close reason hserving
  | clock now =>
    simp only [serverStep] at h
    split at h
    · exact Option.some.inj h ▸ .clock ‹_›
    · cases h

lemma sessions_cleanupForBargeIn (e : Server μ) (s : SessionId) :
    (e.cleanupForBargeIn s).sessions =
      (e.update s fun x => { x with activeTasks := none, eouState := none }).sessions := rfl

lemma sessions_startTurn (e : Server μ) (s : SessionId) (mode : Option μ) :
    (e.startTurn s mode).sessions =
      (e.update s fun x =>
        { x with
          worker := some []
          activeTasks := some (x.activeTasks.getD [] ++ [e.turns.length]) }).sessions := rfl

lemma sessions_discardTask (e : Server μ) (n : ℕ) (t : StartedTurn μ) :
    (e.discardTask n t).sessions =
      (e.update t.id.session fun x =>
        { x with activeTasks := x.activeTasks.map fun tasks => tasks.filter (· ≠ n) }).sessions :=
  rfl

lemma sessions_endTurn (e : Server μ) (n : ℕ) (t : StartedTurn μ) :
    (e.endTurn n t).sessions =
      ((e.update t.id.session fun x => { x with eouState := none }).discardTask n t).sessions := rfl

variable (f : SessionState μ → SessionState μ)

@[simp] lemma update_sessions_self : (e.update s f).sessions s = f (e.sessions s) := by
  simp [Server.update]

lemma update_sessions_of_ne (h : s' ≠ s) : (e.update s f).sessions s' = e.sessions s' := by
  simp [Server.update, h]

@[simp] lemma update_turns :
    (e.update s f).turns = e.turns := rfl

variable {f : SessionState μ → SessionState μ}

/-- A property of what is held for a session survives an update of any session that keeps it. -/
lemma update_keeps {P : SessionState μ → Prop} (h : P (e.sessions s'))
    (hf : P (e.sessions s) → P (f (e.sessions s))) :
    P ((e.update s f).sessions s') := by
  by_cases hs : s' = s
  · subst hs
    rw [update_sessions_self]
    exact hf h
  · rw [update_sessions_of_ne f hs]
    exact h

lemma read_update {β : Type*} (read : SessionState μ → β) (hf : ∀ x, read (f x) = read x) :
    read ((e.update s f).sessions s') = read (e.sessions s') := by
  by_cases hs : s' = s
  · subst hs
    rw [update_sessions_self, hf]
  · rw [update_sessions_of_ne f hs]

/-- A turn after a start is an old one or the new one. -/
lemma getElem?_turns_startTurn {mode : Option μ} (h : (e.startTurn s mode).turns[n]? = some t) :
    e.turns[n]? = some t ∨ n = e.turns.length ∧
      t = { id := .start s e.clock, promptMode := e.aiMode, utteranceMode := mode } := by
  rw [Server.startTurn, getElem?_append] at h
  split_ifs at h with hn
  · exact .inl h
  · rw [getElem?_singleton] at h
    split_ifs at h with hzero
    exact .inr ⟨by omega, (Option.some.inj h).symm⟩

/-- `put_incremental_input` changes only the mode and the input queue of its session, which
grows. -/
lemma exists_putIncrementalInput (e : Server μ) (s : SessionId) (audio : Option (List UInt8))
    (mode : Option μ) :
    ∃ items, (e.putIncrementalInput s audio mode).turns = e.turns ∧
      (e.putIncrementalInput s audio mode).requestStates = e.requestStates ∧
      (e.putIncrementalInput s audio mode).sessions =
        (e.update s fun x => { x with inputQueue := x.inputQueue.map (· ++ items) }).sessions := by
  have hsame : e.sessions =
      (e.update s fun x => { x with inputQueue := x.inputQueue.map (· ++ []) }).sessions := by
    simp [Server.update]
  unfold Server.putIncrementalInput
  split_ifs
  · exact ⟨[], rfl, rfl, hsame⟩
  · cases audio with
    | none => exact ⟨[.eosMarker mode], rfl, rfl, rfl⟩
    | some data =>
      simp only
      cases (parseFrame data : Option (AudioItem μ)) with
      | none => exact ⟨[], rfl, rfl, hsame⟩
      | some item => exact ⟨[item], rfl, rfl, rfl⟩

@[simp] lemma turns_putIncrementalInput (e : Server μ) (s : SessionId)
    (audio : Option (List UInt8)) (mode : Option μ) :
    (e.putIncrementalInput s audio mode).turns = e.turns := by
  obtain ⟨items, hturns, -, -⟩ := exists_putIncrementalInput e s audio mode
  exact hturns

@[simp] lemma requestStates_putIncrementalInput (e : Server μ) (s : SessionId)
    (audio : Option (List UInt8)) (mode : Option μ) :
    (e.putIncrementalInput s audio mode).requestStates = e.requestStates := by
  obtain ⟨items, -, hstates, -⟩ := exists_putIncrementalInput e s audio mode
  exact hstates

/-- The items that `put_incremental_input` puts on the queue. -/
def audioItems (audio : Option (List UInt8)) (mode : Option μ) : List (AudioItem μ) :=
  match audio with
  | none => [.eosMarker mode]
  | some data => (parseFrame data).toList

lemma putIncrementalInput_of_isSome (h : (e.sessions s).inputQueue.isSome)
    (audio : Option (List UInt8)) (mode : Option μ) :
    e.putIncrementalInput s audio mode =
      { e.update s fun x => { x with inputQueue := x.inputQueue.map (· ++ audioItems audio mode) }
        with aiMode := mode.getD e.aiMode } := by
  have hnone : (e.sessions s).inputQueue.isNone = false := by
    cases hq : (e.sessions s).inputQueue with
    | none => simp [hq] at h
    | some q => rfl
  rw [Server.putIncrementalInput, hnone]
  cases audio with
  | none => rfl
  | some data =>
    cases hitem : (parseFrame data : Option (AudioItem μ)) with
    | none => simp [audioItems, hitem, Server.update]
    | some item => simp [audioItems, hitem, Server.update, Server.putNowait]

/-! ## What happens to turns -/

/-- The task of the turn has not run yet, and is not cancelled. -/
def StartedTurn.Waiting (t : StartedTurn μ) : Prop := t.status = .created ∧ t.cancelling = false

/-- The voice of a mode. -/
def voiceOf [DecidableEq μ] (g mode : μ) : Voice := if mode = g then .g else .a

/-- What an event can make of a turn while the mode of the engine is `mode`. -/
structure StartedTurn.Follows [DecidableEq μ] (g mode : μ) (t t' : StartedTurn μ) : Prop where
  id : t'.id = t.id
  promptMode : t'.promptMode = t.promptMode
  utteranceMode : t'.utteranceMode = t.utteranceMode
  voice : t'.voice = t.voice ∨ t.Waiting ∧ t'.voice = some (voiceOf g mode)
  waiting : t'.Waiting → t.Waiting

section Follows

variable [DecidableEq μ] {g mode : μ} {t t' : StartedTurn μ}

lemma StartedTurn.Follows.refl (t : StartedTurn μ) : t.Follows g mode t :=
  ⟨rfl, rfl, rfl, .inl rfl, fun h => h⟩

lemma forall₂_follows_refl (turns : List (StartedTurn μ)) :
    List.Forall₂ (StartedTurn.Follows g mode) turns turns :=
  forall₂_same.mpr fun t _ => .refl t

/-- A change of one turn. -/
lemma forall₂_follows_set {turns : List (StartedTurn μ)} (ht : turns[n]? = some t)
    (h : t.Follows g mode t') :
    List.Forall₂ (StartedTurn.Follows g mode) turns (turns.set n t') := by
  rw [forall₂_iff_get]
  refine ⟨by simp, fun i hi hi' => ?_⟩
  simp only [get_eq_getElem, getElem_set]
  split_ifs with hn
  · subst hn
    rw [getElem?_eq_getElem hi] at ht
    rw [Option.some.inj ht]
    exact h
  · exact .refl _

/-- A barge-in only marks turns as cancelled. -/
lemma forall₂_follows_bargeIn (e : Server μ) (s : SessionId) :
    List.Forall₂ (StartedTurn.Follows g mode) e.turns (e.cleanupForBargeIn s).turns := by
  rw [forall₂_iff_get]
  refine ⟨by simp [Server.cleanupForBargeIn], fun i hi hi' => ?_⟩
  simp only [Server.cleanupForBargeIn, get_eq_getElem, getElem_mapIdx]
  split_ifs with hn
  · exact ⟨rfl, rfl, rfl, .inl rfl, fun hwaiting => by simp [StartedTurn.Waiting] at hwaiting⟩
  · exact .refl _

/-- A turn may end. -/
lemma StartedTurn.Follows.ended (t : StartedTurn μ) :
    t.Follows g mode { t with status := .ended } :=
  ⟨rfl, rfl, rfl, .inl rfl, fun hwaiting => by simp [StartedTurn.Waiting] at hwaiting⟩

lemma StartedTurn.Follows.submitted (h : t.Waiting) :
    t.Follows g mode { t with status := .running, voice := some (voiceOf g mode) } :=
  ⟨rfl, rfl, rfl, .inr ⟨h, rfl⟩, fun hwaiting => by simp [StartedTurn.Waiting] at hwaiting⟩

variable {a : ServerAct μ}

section

variable (hstep : serverStep g e a = some e')
include hstep

/-- Every event keeps the turns there are, and only the audio worker adds one. -/
lemma turns_step :
    List.Forall₂ (StartedTurn.Follows g e.aiMode) e.turns e'.turns ∨
      ∃ s mode, a = .take s ∧ e'.turns = e.turns ++
        [{ id := .start s e.clock, promptMode := e.aiMode, utteranceMode := mode }] := by
  cases serverMove_of_step hstep with
  | frame data _ | endOfUtterance lastSeq mode _ =>
    rw [turns_putIncrementalInput]
    exact .inl (forall₂_follows_refl _)
  | bargeIn _ => exact .inl (forall₂_follows_bargeIn _ _)
  | connect _ | takeFrame _ _ | takeMarker _ _ | register _ _ _ | stop _ _ | close _ _ | clock _ =>
    exact .inl (forall₂_follows_refl _)
  | poll _ =>
    unfold Server.pollTurns
    split
    · exact .inl (forall₂_follows_refl _)
    · exact .inl (forall₂_follows_refl _)
  | takeTurn _ _ _ => exact .inr ⟨_, _, rfl, rfl⟩
  | submit hturn hstatus hlive =>
    exact .inl (forall₂_follows_set hturn (.submitted ⟨hstatus, hlive⟩))
  | finish hturn _ | cancelled hturn _ _ | cancelledEarly hturn _ _ =>
    exact .inl (forall₂_follows_set hturn (.ended _))

/-- A turn keeps its number and its id. -/
lemma exists_turn_after (ht : e.turns[n]? = some t) :
    ∃ t', e'.turns[n]? = some t' ∧ t'.id = t.id := by
  obtain ⟨hn, rfl⟩ := List.getElem?_eq_some_iff.mp ht
  obtain hfollows | ⟨s, mode, -, hturns⟩ := turns_step hstep
  · have hn' : n < e'.turns.length := hfollows.length_eq ▸ hn
    exact ⟨e'.turns.get ⟨n, hn'⟩, getElem?_eq_getElem hn',
      ((forall₂_iff_get.mp hfollows).2 n hn hn').id⟩
  · exact ⟨_, by rw [hturns, getElem?_append_left hn, getElem?_eq_getElem hn], rfl⟩

/-- A turn was there before, or it is the one that is started. -/
lemma exists_turn_before (ht : e'.turns[n]? = some t) :
    (∃ t₀, e.turns[n]? = some t₀ ∧ t.id = t₀.id) ∨
      ∃ s, a = .take s ∧ n = e.turns.length ∧ t.id = .start s e.clock := by
  obtain hfollows | ⟨s, mode, ha, hturns⟩ := turns_step hstep
  · obtain ⟨hn, rfl⟩ := List.getElem?_eq_some_iff.mp ht
    have hn' : n < e.turns.length := hfollows.length_eq ▸ hn
    exact .inl ⟨e.turns.get ⟨n, hn'⟩, getElem?_eq_getElem hn',
      ((forall₂_iff_get.mp hfollows).2 n hn' hn).id⟩
  · by_cases hlt : n < e.turns.length
    · rw [hturns, getElem?_append_left hlt] at ht
      exact .inl ⟨_, ht, rfl⟩
    · rw [hturns, getElem?_append_right (by omega), getElem?_singleton] at ht
      split_ifs at ht with hzero
      exact .inr ⟨s, ha, by omega, congrArg StartedTurn.id (Option.some.inj ht).symm⟩

end

end Follows

/-- Where turn `n` stands, if it is one of the session. -/
def Server.statusOf (e : Server μ) (s : SessionId) (n : ℕ) : Option TurnStatus :=
  e.turns[n]?.bind fun t => if t.id.session = s then some t.status else none

/-- Where a turn of the session stands. -/
lemma statusOf_eq_some {status : TurnStatus} : e.statusOf s n = some status ↔
    ∃ t, e.turns[n]? = some t ∧ t.id.session = s ∧ t.status = status := by
  simp only [Server.statusOf, Option.bind_eq_some_iff, Option.ite_none_right_eq_some,
    Option.some.injEq]

lemma statusOf_of_turn (ht : e.turns[n]? = some t) (h : e.statusOf s n ≠ none) :
    t.id.session = s ∧ e.statusOf s n = some t.status := by
  obtain ⟨status, hstatus⟩ := Option.ne_none_iff_exists'.mp h
  obtain ⟨t', ht', hs, rfl⟩ := statusOf_eq_some.mp hstatus
  cases ht.symm.trans ht'
  exact ⟨hs, hstatus⟩

/-- A change of one turn. -/
lemma statusOf_set (e' : Server μ) (s : SessionId) (n : ℕ) {m : ℕ} {t' : StartedTurn μ}
    (hturns : e'.turns = e.turns.set m t') (ht : e.turns[m]? = some t) (hid : t'.id = t.id) :
    e'.statusOf s n = e.statusOf s n ∨
      n = m ∧ e.statusOf s n = some t.status ∧ e'.statusOf s n = some t'.status := by
  obtain ⟨hm, -⟩ := List.getElem?_eq_some_iff.mp ht
  by_cases hn : n = m
  · subst hn
    have ht' : e'.turns[n]? = some t' := by rw [hturns, getElem?_set_self hm]
    by_cases hs : t.id.session = s
    · exact .inr ⟨rfl, by simp [Server.statusOf, ht, hs], by simp [Server.statusOf, ht', hid, hs]⟩
    · exact .inl (by simp [Server.statusOf, ht, ht', hid, hs])
  · refine .inl ?_
    rw [Server.statusOf, hturns, getElem?_set_ne (Ne.symm hn), Server.statusOf]

lemma statusOf_cleanupForBargeIn (e : Server μ) (s' s : SessionId) (n : ℕ) :
    (e.cleanupForBargeIn s').statusOf s n = e.statusOf s n := by
  simp only [Server.statusOf, Server.cleanupForBargeIn, getElem?_mapIdx]
  cases e.turns[n]? with
  | none => rfl
  | some t =>
    simp only [Option.map_some, Option.bind_some]
    split_ifs
    all_goals rfl

/-- How an event can change where a turn of the session stands. -/
lemma statusOf_step [DecidableEq μ] (hstep : serverStep g e a = some e') (s : SessionId) (n : ℕ) :
    e'.statusOf s n = e.statusOf s n ∨
      (e.statusOf s n = none ∧ e'.statusOf s n = some .created) ∨
      (a = .submit n ∧ e.statusOf s n = some .created ∧ e'.statusOf s n = some .running) ∨
      (a = .finish n ∧ e.statusOf s n = some .running ∧ e'.statusOf s n = some .ended) ∨
      (a = .cancelled n ∧ e.statusOf s n ≠ none ∧ e'.statusOf s n = some .ended) := by
  cases serverMove_of_step hstep with
  | connect _ | takeFrame _ _ | takeMarker _ _ | register _ _ _ | stop _ _ | close _ _ | clock _ =>
    exact .inl rfl
  | frame data _ | endOfUtterance lastSeq mode _ =>
    exact .inl (by simp [Server.statusOf])
  | poll _ =>
    unfold Server.pollTurns
    split
    · exact .inl rfl
    · exact .inl rfl
  | @bargeIn s' _ => exact .inl (statusOf_cleanupForBargeIn e s' s n)
  | @takeTurn s' buffer mode rest _ _ _ =>
    by_cases hn : n < e.turns.length
    · refine .inl ?_
      simp [Server.statusOf, Server.startTurn, getElem?_append_left hn]
    · have hnone : e.statusOf s n = none := by
        simp [Server.statusOf, getElem?_eq_none (Nat.le_of_not_lt hn)]
      cases hnew : (Server.startTurn _ s' mode).statusOf s n with
      | none => exact .inl hnone.symm
      | some status =>
        obtain ⟨t, ht, -, rfl⟩ := statusOf_eq_some.mp hnew
        obtain hold | ⟨-, rfl⟩ := getElem?_turns_startTurn ht
        · exact absurd (List.getElem?_eq_some_iff.mp hold).1 hn
        · exact .inr (.inl ⟨hnone, rfl⟩)
  | @submit m t hturn hstatus _ =>
    obtain hsame | ⟨rfl, hold, hnew⟩ := statusOf_set (e := e) (e.submitTurn g m t) s n rfl hturn rfl
    · exact .inl hsame
    · exact .inr (.inr (.inl ⟨rfl, hstatus ▸ hold, hnew⟩))
  | @finish m t hturn hstatus =>
    obtain hsame | ⟨rfl, hold, hnew⟩ := statusOf_set (e := e) (e.endTurn m t) s n rfl hturn rfl
    · exact .inl hsame
    · exact .inr (.inr (.inr (.inl ⟨rfl, hstatus ▸ hold, hnew⟩)))
  | @cancelledEarly m t hturn _ _ =>
    obtain hsame | ⟨rfl, hold, hnew⟩ := statusOf_set (e := e) (e.discardTask m t) s n rfl hturn rfl
    · exact .inl hsame
    · exact .inr (.inr (.inr (.inr ⟨rfl, by simp [hold], hnew⟩)))
  | @cancelled m t hturn _ _ =>
    obtain hsame | ⟨rfl, hold, hnew⟩ := statusOf_set (e := e) (e.endTurn m t) s n rfl hturn rfl
    · exact .inl hsame
    · exact .inr (.inr (.inr (.inr ⟨rfl, by simp [hold], hnew⟩)))

/-! ## Queues and workers of connected sessions -/

/-- A session that has been connected has an input queue, and one that has not has no worker. -/
structure SessionState.Proper (x : SessionState μ) : Prop where
  inputQueue : x.endpoint ≠ .absent → x.inputQueue.isSome
  worker : x.endpoint = .absent → x.worker = none

lemma proper_init : (({} : SessionState μ)).Proper := ⟨fun h => absurd rfl h, fun _ => rfl⟩

lemma proper_putIncrementalInput (h : (e.sessions s).Proper) (s' : SessionId)
    (audio : Option (List UInt8)) (mode : Option μ) :
    ((e.putIncrementalInput s' audio mode).sessions s).Proper := by
  obtain ⟨items, -, -, hsessions⟩ := exists_putIncrementalInput e s' audio mode
  rw [hsessions]
  exact update_keeps h fun hx => ⟨fun hend => by simpa using hx.inputQueue hend, hx.worker⟩

/-- No event removes the input queue of a session that has been connected. -/
lemma proper_step [DecidableEq μ] (h : (e.sessions s).Proper) (hstep : serverStep g e a = some e') :
    (e'.sessions s).Proper := by
  -- a session with a worker has been connected
  have hpresent : ∀ {s' buffer}, (e.sessions s').worker = some buffer → (e.sessions s').Proper →
      (e.sessions s').endpoint ≠ .absent := by
    intro s' buffer hworker hx habsent
    simp [hx.worker habsent] at hworker
  cases serverMove_of_step hstep with
  | @connect s' _ =>
    by_cases hs : s = s'
    · subst hs
      refine ⟨fun _ => ?_, by simp⟩
      cases hq : (e.sessions s).inputQueue with
      | none => simp [Server.startDuplexSession, hq]
      | some q => simp [Server.startDuplexSession, hq]
    · rw [update_sessions_of_ne _ hs, Server.startDuplexSession, update_sessions_of_ne _ hs]
      exact h
  | frame data _ => exact proper_putIncrementalInput h _ _ _
  | endOfUtterance lastSeq mode _ =>
    exact proper_putIncrementalInput (update_keeps h fun hx => { hx with }) _ _ _
  | bargeIn _ =>
    rw [sessions_cleanupForBargeIn]
    exact update_keeps h fun hx => { hx with }
  | takeFrame hworker _ =>
    exact update_keeps (P := SessionState.Proper) h fun hx =>
      ⟨fun _ => rfl, fun hend => absurd hend (hpresent hworker hx)⟩
  | takeMarker _ _ =>
    exact update_keeps (P := SessionState.Proper) h fun hx => ⟨fun _ => rfl, hx.worker⟩
  | @takeTurn s' _ _ _ hworker _ _ =>
    rw [sessions_startTurn]
    by_cases hs : s = s'
    · subst hs
      rw [update_sessions_self, update_sessions_self]
      exact ⟨fun _ => rfl, fun hend => absurd hend (hpresent hworker h)⟩
    · rw [update_sessions_of_ne _ hs, update_sessions_of_ne _ hs]
      exact h
  | submit _ _ _ | register _ _ _ | stop _ _ | clock _ => exact h
  | finish _ _ | cancelled _ _ _ =>
    rw [sessions_endTurn, sessions_discardTask]
    exact update_keeps (update_keeps h fun hx => { hx with }) fun hx => { hx with }
  | cancelledEarly _ _ _ =>
    rw [sessions_discardTask]
    exact update_keeps h fun hx => { hx with }
  | poll _ =>
    unfold Server.pollTurns
    split
    · exact h
    · exact update_keeps (P := SessionState.Proper) h fun hx => { hx with }
  | close reason hserving =>
    exact update_keeps (P := SessionState.Proper) h fun hx =>
      ⟨fun _ => hx.inputQueue (by simp [hserving]), fun hend => by simp at hend⟩

/-! ## A session and a second for examples -/

def someSession : SessionId := .repeated 'c' (by decide)

def someSecond : Second := ⟨someTurn.time, someTurn.time_ge, someTurn.time_lt⟩

/-- A frame with one sample. -/
def someFrame : List UInt8 := [0, 0, 0, 0, 1, 0]

end OmniStreaming
