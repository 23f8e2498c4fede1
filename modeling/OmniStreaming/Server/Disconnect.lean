import OmniStreaming.Lib.Transition
import OmniStreaming.Server.Sessions

/-!
# What a closed connection leaves behind

`stop_session` releases everything that the engine holds for a session, but `websocket_endpoint`
calls it without `await`, so that it never runs. Hence no connection is ever released: its input
queue stays, whatever the history of the session and however the connection ends.

The second half shows that the turns of a session which still run are among its active tasks, so
that `stop_session` would find them.
-/

namespace OmniStreaming

open Transition

variable {μ : Type*}

/-- The engine holds nothing for the session, and none of its coroutines runs. -/
structure SessionReleased (e : Server μ) (s : SessionId) : Prop where
  inputQueue : (e.sessions s).inputQueue = none
  resultQueue : (e.sessions s).resultQueue = false
  sessionWorker : (e.sessions s).sessionWorker = false
  activeTasks : (e.sessions s).activeTasks = none
  eouState : (e.sessions s).eouState = none
  requestStates : ∀ k ∈ OrderedDict.keys e.requestStates, ¬ s.text <+: k
  worker : (e.sessions s).worker = none
  turns : ∀ t ∈ e.turns, t.id.session = s → t.status = .ended

variable {g : μ} {e e' : Server μ} {s : SessionId} {a : ServerAct μ}

/-- In every run, a session whose endpoint has returned is not released: its input queue is still
there. -/
theorem returned_not_released [DecidableEq μ] {now : Second} {acts : List (ServerAct μ)}
    (hrun : run (serverStep g) (Server.init g now) acts = some e)
    (hreturned : (e.sessions s).endpoint = .returned) : ¬ SessionReleased e s := by
  intro hreleased
  have hproper : (e.sessions s).Proper :=
    run_invariant (I := fun e => (e.sessions s).Proper)
      (fun _ _ _ h hstep => proper_step h hstep) proper_init hrun
  have hsome := hproper.inputQueue (by simp [hreturned])
  rw [hreleased.inputQueue] at hsome
  cases hsome

/-- A connection that drops while its first turn runs. -/
def droppedRun : List (ServerAct ℕ) :=
  [.connect someSession, .frame someSession someFrame, .endOfUtterance someSession none (some 1),
    .take someSession, .take someSession, .submit 0, .close someSession .webSocketDisconnect]

/-- Its session is not released when the endpoint has returned. -/
theorem returned_not_released_droppedRun :
    ∃ e : Server ℕ, run (serverStep 0) (Server.init 0 someSecond) droppedRun = some e ∧
      (e.sessions someSession).endpoint = .returned ∧ ¬ SessionReleased e someSession := by
  have hrun : run (serverStep 0) (Server.init 0 someSecond) droppedRun = some _ := rfl
  exact ⟨_, hrun, rfl, returned_not_released hrun rfl⟩

/-- The queues and the audio worker are still there, and the turn goes on. -/
theorem dropped_not_released :
    ∃ e : Server ℕ, run (serverStep 0) (Server.init 0 someSecond) droppedRun = some e ∧
      (e.sessions someSession).endpoint = .returned ∧
      (e.sessions someSession).inputQueue = some [] ∧
      (e.sessions someSession).resultQueue = true ∧
      (e.sessions someSession).worker = some [] ∧
      (e.sessions someSession).activeTasks = some [0] ∧
      e.turns.map StartedTurn.status = [.running] ∧ ¬ SessionReleased e someSession := by
  have hrun : run (serverStep 0) (Server.init 0 someSecond) droppedRun = some _ := rfl
  exact ⟨_, hrun, rfl, rfl, rfl, rfl, rfl, rfl, fun h => by cases h.inputQueue⟩

/-! ## What `stop_session` would find -/

/-- A turn that is neither over nor to be cancelled is among the active tasks of its session. -/
def Tracked (e : Server μ) : Prop :=
  ∀ n t, e.turns[n]? = some t → t.status ≠ .ended → t.cancelling = false →
    n ∈ (e.sessions t.id.session).activeTasks.getD []

section

variable (h : Tracked e)
include h

lemma Tracked.congr (hturns : e'.turns = e.turns) (hsessions : e'.sessions = e.sessions) :
    Tracked e' := by
  rw [Tracked, hturns, hsessions]
  exact h

/-- An update that keeps the active tasks of a session keeps its turns tracked. -/
lemma Tracked.update (s : SessionId) {f : SessionState μ → SessionState μ}
    (hf : ∀ x, (f x).activeTasks = x.activeTasks) : Tracked (e.update s f) := by
  intro n t hturn hstatus hlive
  refine update_keeps (P := fun x => n ∈ x.activeTasks.getD []) (h n t hturn hstatus hlive) ?_
  rw [hf]
  exact id

/-- A message of the client. -/
lemma Tracked.putIncrementalInput (s : SessionId) (audio : Option (List UInt8))
    (mode : Option μ) : Tracked (e.putIncrementalInput s audio mode) := by
  obtain ⟨items, hturns, -, hsessions⟩ := exists_putIncrementalInput e s audio mode
  have hupdate : Tracked (e.update s fun x =>
      { x with inputQueue := x.inputQueue.map (· ++ items) }) := h.update s fun _ => rfl
  exact hupdate.congr hturns hsessions

/-- A turn that has ended leaves the active tasks of its session, and no other one does. -/
lemma Tracked.discardTask {n : ℕ} {t : StartedTurn μ} (hturn : e.turns[n]? = some t) :
    Tracked (e.discardTask n t) := by
  intro m u hu hstatus hlive
  rw [Server.discardTask] at hu
  by_cases hnm : n = m
  · subst hnm
    rw [List.getElem?_set_self (List.getElem?_eq_some_iff.mp hturn).1] at hu
    cases hu
    exact absurd rfl hstatus
  · rw [List.getElem?_set_ne hnm] at hu
    have hold := h m u hu hstatus hlive
    rw [sessions_discardTask]
    refine update_keeps (P := fun x => m ∈ x.activeTasks.getD []) hold fun hmem => ?_
    cases htasks : (e.sessions t.id.session).activeTasks with
    | none => simp [htasks] at hmem
    | some tasks =>
      rw [htasks] at hmem
      simpa using ⟨hmem, Ne.symm hnm⟩

/-- The end of a turn. -/
lemma Tracked.endTurn {n : ℕ} {t : StartedTurn μ} (hturn : e.turns[n]? = some t) :
    Tracked (e.endTurn n t) := by
  have hforget : Tracked (e.update t.id.session fun x => { x with eouState := none }) :=
    h.update t.id.session fun _ => rfl
  exact (hforget.discardTask hturn).congr rfl rfl

/-- A barge-in marks the turns whose tasks it takes out. -/
lemma Tracked.cleanupForBargeIn (s : SessionId) : Tracked (e.cleanupForBargeIn s) := by
  intro n t hturn hstatus hlive
  rw [Server.cleanupForBargeIn, List.getElem?_mapIdx] at hturn
  obtain ⟨u, hu, rfl⟩ := Option.map_eq_some_iff.mp hturn
  split_ifs at hstatus hlive ⊢ with hmarked
  have hold := h n u hu hstatus hlive
  have hother : u.id.session ≠ s := by
    rintro rfl
    exact hmarked ⟨hold, hstatus⟩
  rw [sessions_cleanupForBargeIn, update_sessions_of_ne _ hother]
  exact hold

/-- A new turn is entered with its task. -/
lemma Tracked.startTurn (s : SessionId) (mode : Option μ) : Tracked (e.startTurn s mode) := by
  intro n t hturn hstatus hlive
  rw [sessions_startTurn]
  rcases getElem?_turns_startTurn hturn with hold | ⟨rfl, rfl⟩
  · refine update_keeps (P := fun x => n ∈ x.activeTasks.getD []) (h n t hold hstatus hlive) ?_
    simp +contextual
  · simp [TurnId.start]

lemma tracked_step [DecidableEq μ] (hstep : serverStep g e a = some e') : Tracked e' := by
  cases serverMove_of_step hstep with
  | @connect s _ =>
    refine Tracked.update ?_ s fun _ => rfl
    exact h.update s fun _ => rfl
  | frame data _ => exact h.putIncrementalInput _ _ _
  | @endOfUtterance s lastSeq mode _ =>
    refine Tracked.putIncrementalInput ?_ _ _ _
    exact h.update s fun _ => rfl
  | @bargeIn s _ => exact h.cleanupForBargeIn s
  | @takeFrame s _ _ _ _ _ _ => exact h.update s fun _ => rfl
  | @takeMarker s _ _ _ _ => exact h.update s fun _ => rfl
  | @takeTurn s _ _ _ _ _ _ =>
    refine Tracked.startTurn ?_ s _
    exact h.update s fun _ => rfl
  | @submit n t hturn hstatus hlive =>
    intro m u hu hstatus' hlive'
    by_cases hnm : n = m
    · subst hnm
      rw [Server.submitTurn, List.getElem?_set_self (List.getElem?_eq_some_iff.mp hturn).1] at hu
      cases hu
      exact h n t hturn (by simp [hstatus]) hlive
    · rw [Server.submitTurn, List.getElem?_set_ne hnm] at hu
      exact h m u hu hstatus' hlive'
  | register _ _ _ | stop _ _ | clock _ => exact h
  | finish hturn _ | cancelled hturn _ _ => exact h.endTurn hturn
  | cancelledEarly hturn _ _ => exact h.discardTask hturn
  | @poll s _ =>
    unfold Server.pollTurns
    split
    · exact h
    · exact h.update s fun _ => rfl
  | @close s reason _ => exact h.update s fun _ => rfl

end

end OmniStreaming
