import OmniStreaming.Lib.Transition
import OmniStreaming.Stage.Worker

/-!
# Which tasks an abort stops

The orchestrator starts turns, sends their tasks to a stage and, on a barge-in, an `ABORT` that
names the session. The worker should start no task of a turn that was started before an abort it
has taken, and should start every task of a turn that was started after it.

The worker only sees ids. It keeps the aborted sessions in a set, and clears the set when the turn
of a `GENERATE` task is not the turn of the one before. `TracedTask` keeps with a task what its
sender knows, `AbortsRespected` is what the worker should do, and `Covered` says from the order of
the tasks alone when the set still holds a session.
-/

namespace OmniStreaming

open Option Transition

variable {ω : Type*}

/-! ## The sender's side -/

/-- A task with the number and the id of its turn, or with how many turns had been started when the
abort was sent. The turn of `warm_up` belongs to no session. -/
inductive TracedTask
  | generate (n : ℕ) (t : TurnId) (r : Option SubRequest)
  | warmUp (rid : Key)
  | abort (session : SessionId) (begun : ℕ)
  deriving DecidableEq

/-- The task as it stands on the queue. -/
def TracedTask.task : TracedTask → StageTask
  | .generate _ t r => .generate (taskRid t r)
  | .warmUp rid => .generate rid
  | .abort session _ => .abort session.text

/-- The turn id of a `GENERATE` task. -/
def TracedTask.turnText : TracedTask → Option Key
  | .generate _ t _ => some t.text
  | .warmUp rid => some (splitHead stageMark rid)
  | .abort _ _ => none

/-- A stage worker and its sender: the turns started, the tasks on the queue, and those taken, the
last one first, with whether they were started. -/
structure AbortRun (ω : Type*) where
  worker : StageWorker ω := {}
  turns : List TurnId := []
  queue : List TracedTask := []
  taken : List (TracedTask × Bool) := []

/-- The events of the sender and the worker. -/
inductive AbortAct (ω : Type*)
  /-- A turn is started. -/
  | begin (t : TurnId)
  /-- A request of turn number `n` is sent. -/
  | generate (n : ℕ) (r : Option SubRequest)
  /-- A request of `warm_up` is sent. -/
  | warmUp (rid : Key)
  /-- A barge-in of a session. -/
  | abort (session : SessionId)
  /-- An event of the worker. -/
  | worker (a : WorkerAct ω)

variable (st : AbortRun ω)

/-- Put a task on the queue. -/
def AbortRun.send (x : TracedTask) : Option (AbortRun ω) :=
  (workerStep st.worker (.submit x.task)).map fun w =>
    { st with worker := w, queue := st.queue ++ [x] }

/-- The worker takes the task at the head of the queue, if there is one. -/
def AbortRun.take (w : StageWorker ω) : AbortRun ω :=
  match st.queue with
  | [] => { st with worker := w }
  | x :: rest =>
    { st with
      worker := w
      queue := rest
      taken := (x, decide (st.worker.gens.length < w.gens.length)) :: st.taken }

def abortStep : AbortAct ω → Option (AbortRun ω)
  | .begin t => some { st with turns := st.turns ++ [t] }
  | .generate n r => st.turns[n]?.bind fun t => st.send (.generate n t r)
  | .warmUp rid => st.send (.warmUp rid)
  | .abort session => st.send (.abort session st.turns.length)
  | .worker (.submit _) => none
  | .worker .poll => (workerStep st.worker .poll).map st.take
  | .worker a => (workerStep st.worker a).map fun w => { st with worker := w }

/-! ## What the worker should do, and when it does -/

/-- The task is an abort of the session that was sent after turn `n` had been started. -/
def TracedTask.revokes (session : SessionId) (n : ℕ) : TracedTask → Bool
  | .abort s begun => s = session && n < begun
  | _ => false

/-- An abort of the session that was sent after turn `n` had been started has been taken. -/
def Stale (session : SessionId) (n : ℕ) (taken : List (TracedTask × Bool)) : Prop :=
  ∃ x ∈ taken, x.1.revokes session n = true

instance (session : SessionId) (n : ℕ) (taken : List (TracedTask × Bool)) :
    Decidable (Stale session n taken) :=
  inferInstanceAs (Decidable (∃ x ∈ taken, x.1.revokes session n = true))

/-- Every task of a turn was started iff no abort taken before it was sent after the turn had been
started. -/
def RespectsAborts : List (TracedTask × Bool) → Prop
  | [] => True
  | (.generate n t _, started) :: rest =>
    (started = true ↔ ¬ Stale t.session n rest) ∧ RespectsAborts rest
  | (.warmUp _, _) :: rest => RespectsAborts rest
  | (.abort _ _, _) :: rest => RespectsAborts rest

/-- What the worker has done respects the aborts. -/
def AbortsRespected : Prop := RespectsAborts st.taken

/-- The turn id of the last `GENERATE` task. -/
def lastTurn : List (TracedTask × Bool) → Option Key
  | [] => none
  | x :: rest => x.1.turnText.or (lastTurn rest)

/-- An abort of the session has been taken, and the last `GENERATE` task before it, if any, and all
since have the turn id `text`. -/
def Covered (session : SessionId) (text : Key) : List (TracedTask × Bool) → Prop
  | [] => False
  | (.abort s _, _) :: rest =>
    (s = session ∧ ∀ y ∈ lastTurn rest, y = text) ∨ Covered session text rest
  | (.generate _ t _, _) :: rest => t.text = text ∧ Covered session text rest
  | (.warmUp rid, _) :: rest => splitHead stageMark rid = text ∧ Covered session text rest

/-- When the worker takes a task of a turn: if an abort has been taken that was sent after the start
of the turn, no `GENERATE` task of another turn id has come between, and otherwise one has. -/
def TasksTogether : AbortAct ω → Prop
  | .worker .poll =>
    match st.queue with
    | .generate n t _ :: _ => Stale t.session n st.taken ↔ Covered t.session t.text st.taken
    | _ => True
  | _ => True

/-! ## The abort list -/

/-- The session is on the abort list after these tasks. -/
def Standing (session : SessionId) : List (TracedTask × Bool) → Prop
  | [] => False
  | (.abort s _, _) :: rest => s = session ∨ Standing session rest
  | (.generate _ t _, _) :: rest => (∀ y ∈ lastTurn rest, y = t.text) ∧ Standing session rest
  | (.warmUp rid, _) :: rest =>
    (∀ y ∈ lastTurn rest, y = splitHead stageMark rid) ∧ Standing session rest

variable {session : SessionId} {text : Key} {x : TracedTask} {started : Bool}
  {rest : List TracedTask}

/-- A `GENERATE` task keeps the list if its turn is the last one, or the first. -/
lemma standing_cons {rest : List (TracedTask × Bool)} (hx : x.turnText = some text) :
    Standing session ((x, started) :: rest) ↔
      (∀ y ∈ lastTurn rest, y = text) ∧ Standing session rest := by
  cases x with
  | abort s begun => cases hx
  | generate n t r | warmUp rid =>
    cases hx
    rfl

lemma covered_cons {y : Key} {rest : List (TracedTask × Bool)} (hx : x.turnText = some y) :
    Covered session text ((x, started) :: rest) ↔ y = text ∧ Covered session text rest := by
  cases x with
  | abort s begun => cases hx
  | generate n t r | warmUp rid =>
    cases hx
    rfl

lemma lastTurn_cons {rest : List (TracedTask × Bool)} (hx : x.turnText = some text) :
    lastTurn ((x, started) :: rest) = some text := by
  rw [lastTurn, hx, some_or]

/-- A `GENERATE` task on the queue, and the turn that the worker reads from its id. -/
lemma TracedTask.exists_rid (hx : x.turnText = some text) :
    ∃ rid, x.task = .generate rid ∧ splitHead stageMark rid = text := by
  cases x with
  | abort s begun => cases hx
  | generate n t r =>
    cases hx
    exact ⟨taskRid t r, rfl, (owns_taskRid t r).splitHead⟩
  | warmUp rid =>
    cases hx
    exact ⟨rid, rfl, rfl⟩

/-- The session is still on the list for a task of the turn `text`. -/
lemma covered_iff_standing {taken : List (TracedTask × Bool)} :
    Covered session text taken ↔ (∀ y ∈ lastTurn taken, y = text) ∧ Standing session taken := by
  induction taken with
  | nil => simp [Covered, Standing]
  | cons x rest ih =>
    obtain ⟨x, started⟩ := x
    cases hx : x.turnText with
    | some y =>
      rw [covered_cons hx, standing_cons hx, lastTurn_cons hx, ih]
      constructor
      · rintro ⟨rfl, hrest⟩
        exact ⟨by simp, hrest⟩
      · rintro ⟨htext, hrest⟩
        obtain rfl := htext _ rfl
        exact ⟨rfl, hrest⟩
    | none =>
      cases x with
      | abort s begun =>
        have hlast : lastTurn ((TracedTask.abort s begun, started) :: rest) = lastTurn rest := rfl
        rw [Covered, Standing, ih, hlast]
        tauto
      | generate n t r | warmUp rid => cases hx

/-- The queue, the last turn and the abort list of the worker are those of the tasks sent and
taken. -/
structure Tracks (st : AbortRun ω) : Prop where
  queue : st.worker.inQ = st.queue.map TracedTask.task
  last : st.worker.lastProcessedSession = lastTurn st.taken
  aborted : ∀ k, k ∈ st.worker.abortedSessions ↔
    ∃ session : SessionId, k = session.text ∧ Standing session st.taken

variable {s s' : StageWorker ω} {st st' : AbortRun ω} {a : AbortAct ω} {rid : Key}

/-- A task is started unless it is dropped. -/
lemma length_gens_generateTask :
    (s.generateTask rid).gens.length = s.gens.length +
      if ∃ session ∈ (s.noteSession rid).abortedSessions, session <:+: rid then 0 else 1 := by
  have hdrop : ((s.noteSession rid).abortedSessions.any fun session => session <:+: rid) = true ↔
      ∃ session ∈ (s.noteSession rid).abortedSessions, session <:+: rid := by
    simp
  by_cases hany : ((s.noteSession rid).abortedSessions.any fun session => session <:+: rid) = true
  · have heq : s.generateTask rid = { s with ridVar := some rid }.noteSession rid := if_pos hany
    rw [heq, if_pos (hdrop.mp hany)]
    rfl
  · have heq : s.generateTask rid =
        (({ s with ridVar := some rid }.noteSession rid).startTask rid).collect := if_neg hany
    rw [heq, if_neg (mt hdrop.mpr hany)]
    simp [StageWorker.collect, StageWorker.startTask, StageWorker.noteSession]

/-- Whatever becomes of a `GENERATE` task, the list and the last turn are noted. -/
lemma generateTask_notes (s : StageWorker ω) (rid : Key) :
    (s.generateTask rid).inQ = s.inQ ∧
    (s.generateTask rid).lastProcessedSession = some (splitHead stageMark rid) ∧
    (s.generateTask rid).abortedSessions = (s.noteSession rid).abortedSessions := by
  rcases generateTask_cases s rid with heq | heq
  · rw [heq]
    exact ⟨rfl, rfl, rfl⟩
  · rw [heq]
    exact ⟨rfl, rfl, rfl⟩

/-- The list keeps its sessions if the turn is the last one, or the first. -/
lemma mem_noteSession_iff {k : Key} :
    k ∈ (s.noteSession rid).abortedSessions ↔
      (∀ y ∈ s.lastProcessedSession, y = splitHead stageMark rid) ∧ k ∈ s.abortedSessions := by
  unfold StageWorker.noteSession
  cases s.lastProcessedSession with
  | none => simp
  | some y =>
    by_cases hy : y = splitHead stageMark rid
    · simp [hy]
    · simp [hy]

lemma abortList_frame {b : WorkerAct ω} (h : workerStep s b = some s') (hpoll : b ≠ .poll)
    (hsubmit : ∀ t, b ≠ .submit t) :
    s'.inQ = s.inQ ∧ s'.lastProcessedSession = s.lastProcessedSession ∧
      s'.abortedSessions = s.abortedSessions := by
  cases b with
  | submit t => exact absurd rfl (hsubmit t)
  | poll => exact absurd rfl hpoll
  | wake | flush =>
    simp only [workerStep] at h
    split at h
    · exact some.inj h ▸ ⟨rfl, rfl, rfl⟩
    · cases h
  | start i | yield i o | put i | finish i | fail i =>
    obtain ⟨g, -, -, rfl⟩ := onGen_eq_some h
    exact ⟨rfl, rfl, rfl⟩
  | cancelled i =>
    obtain ⟨g, -, -, rfl⟩ := onGen_eq_some h
    split_ifs
    · exact ⟨rfl, rfl, rfl⟩
    · exact ⟨rfl, rfl, rfl⟩
  | callback i =>
    obtain ⟨g, -, -, rfl⟩ := onGen_eq_some h
    cases s.ridVar with
    | none => exact ⟨rfl, rfl, rfl⟩
    | some r => exact ⟨rfl, rfl, rfl⟩

section

variable (h : Tracks st)
include h

/-- A task is sent. -/
lemma Tracks.of_send (hsend : st.send x = some st') : Tracks st' := by
  obtain ⟨w, hw, rfl⟩ := map_eq_some_iff.mp hsend
  cases hw
  exact
    { queue := by simp [h.queue]
      last := h.last
      aborted := h.aborted }

lemma Tracks.poll_nil (hq : st.queue = []) :
    st.worker.poll = { st.worker with phase := .idle } := by
  have hqueue := h.queue
  rw [hq] at hqueue
  simp [StageWorker.poll, hqueue]

/-- The loop takes an `ABORT` task. -/
lemma Tracks.poll_abort {begun : ℕ} (hq : st.queue = .abort session begun :: rest) :
    st.worker.poll = ({ st.worker with
      inQ := rest.map TracedTask.task
      taskType := some .abort }.abortTask session.text).collect := by
  have hqueue := h.queue
  rw [hq, List.map_cons] at hqueue
  simp [StageWorker.poll, hqueue, TracedTask.task]

/-- The loop takes a `GENERATE` task. -/
lemma Tracks.poll_generate (hq : st.queue = x :: rest) (hx : x.task = .generate rid) :
    st.worker.poll = { st.worker with
      inQ := rest.map TracedTask.task, taskType := some .generate }.generateTask rid := by
  have hqueue := h.queue
  rw [hq, List.map_cons, hx] at hqueue
  simp [StageWorker.poll, hqueue]

/-- The abort list as a `GENERATE` task finds it. -/
lemma Tracks.mem_noteSession {k : Key} {w : StageWorker ω}
    (hlast : w.lastProcessedSession = st.worker.lastProcessedSession)
    (haborted : w.abortedSessions = st.worker.abortedSessions) :
    k ∈ (w.noteSession rid).abortedSessions ↔
      ∃ session : SessionId, k = session.text ∧
        Covered session (splitHead stageMark rid) st.taken := by
  rw [mem_noteSession_iff, hlast, haborted, h.last, h.aborted]
  constructor
  · rintro ⟨hsame, session, rfl, hstanding⟩
    exact ⟨session, rfl, covered_iff_standing.mpr ⟨hsame, hstanding⟩⟩
  · rintro ⟨session, rfl, hcovered⟩
    obtain ⟨hsame, hstanding⟩ := covered_iff_standing.mp hcovered
    exact ⟨hsame, session, rfl, hstanding⟩

lemma Tracks.take : Tracks (st.take st.worker.poll) := by
  unfold AbortRun.take
  split
  · rename_i hq
    rw [h.poll_nil hq]
    exact ⟨h.queue, h.last, h.aborted⟩
  · rename_i x rest hq
    cases hx : x.turnText with
    | none =>
      cases x with
      | abort session begun =>
        rw [h.poll_abort hq]
        refine ⟨rfl, h.last, fun k => ?_⟩
        simp only [StageWorker.collect, StageWorker.abortTask, List.mem_cons, h.aborted, Standing]
        constructor
        · rintro (rfl | ⟨other, rfl, hother⟩)
          · exact ⟨session, rfl, .inl rfl⟩
          · exact ⟨other, rfl, .inr hother⟩
        · rintro ⟨other, rfl, rfl | hother⟩
          · exact .inl rfl
          · exact .inr ⟨other, rfl, hother⟩
      | generate n t r | warmUp rid => cases hx
    | some text =>
      obtain ⟨rid, htask, rfl⟩ := x.exists_rid hx
      rw [h.poll_generate hq htask]
      obtain ⟨hinQ, hlast, haborted⟩ := generateTask_notes
        { st.worker with inQ := rest.map TracedTask.task, taskType := some .generate } rid
      refine ⟨hinQ, ?_, fun k => ?_⟩
      · rw [hlast, lastTurn_cons hx]
      · rw [haborted]
        refine (h.mem_noteSession (by rfl) (by rfl)).trans ?_
        refine exists_congr fun session => and_congr_right fun _ => ?_
        rw [standing_cons hx]
        exact covered_iff_standing

lemma tracks_step (hstep : abortStep st a = some st') : Tracks st' := by
  cases a with
  | begin t => exact some.inj hstep ▸ ⟨h.queue, h.last, h.aborted⟩
  | generate n r =>
    obtain ⟨t, -, hsend⟩ := bind_eq_some_iff.mp hstep
    exact h.of_send hsend
  | warmUp rid => exact h.of_send hstep
  | abort session => exact h.of_send hstep
  | worker b =>
    cases b with
    | submit t => cases hstep
    | poll =>
      obtain ⟨w, hw, rfl⟩ := map_eq_some_iff.mp hstep
      simp only [workerStep] at hw
      split at hw
      · exact some.inj hw ▸ h.take
      · cases hw
    | wake | flush | start i | yield i o | put i | finish i | fail i | cancelled i | callback i =>
      obtain ⟨w, hw, rfl⟩ := map_eq_some_iff.mp hstep
      obtain ⟨hinQ, hlast, haborted⟩ := abortList_frame hw (by simp) (by simp)
      exact ⟨hinQ.trans h.queue, hlast.trans h.last, by simpa only [haborted] using h.aborted⟩

/-! ## The tasks that are started -/

/-- A task of a turn is dropped if its session is still on the list. -/
lemma Tracks.dropped_iff {t : TurnId} (howns : t.Owns rid) {w : StageWorker ω}
    (hlast : w.lastProcessedSession = st.worker.lastProcessedSession)
    (haborted : w.abortedSessions = st.worker.abortedSessions) :
    (∃ k ∈ (w.noteSession rid).abortedSessions, k <:+: rid) ↔
      Covered t.session t.text st.taken := by
  constructor
  · rintro ⟨k, hk, hoccurs⟩
    obtain ⟨session, rfl, hcovered⟩ := (h.mem_noteSession hlast haborted).mp hk
    obtain rfl := SessionId.eq_of_infix howns hoccurs
    rwa [howns.splitHead] at hcovered
  · intro hcovered
    refine ⟨t.session.text, (h.mem_noteSession hlast haborted).mpr ⟨t.session, rfl, ?_⟩, ?_⟩
    · rwa [howns.splitHead]
    · exact ((SessionId.prefix_text t).trans howns.startsWith).isInfix

/-- Any other task of a turn is started. -/
lemma Tracks.started_iff {n : ℕ} {t : TurnId} {r : Option SubRequest}
    (hq : st.queue = .generate n t r :: rest) :
    st.worker.gens.length < st.worker.poll.gens.length ↔
      ¬ Covered t.session t.text st.taken := by
  rw [h.poll_generate hq rfl, length_gens_generateTask]
  split_ifs with hdrop
  · have hcovered := (h.dropped_iff (owns_taskRid t r) (by rfl) (by rfl)).mp hdrop
    exact iff_of_false (lt_irrefl _) (not_not.mpr hcovered)
  · have hcovered := mt (h.dropped_iff (owns_taskRid t r) (by rfl) (by rfl)).mpr hdrop
    exact iff_of_true (Nat.lt_succ_self _) hcovered

omit h in
/-- Sending starts nothing. -/
lemma AbortsRespected.of_send (h : AbortsRespected st) (hsend : st.send x = some st') :
    AbortsRespected st' := by
  obtain ⟨w, -, rfl⟩ := map_eq_some_iff.mp hsend
  exact h

/-- An event respects the aborts iff it finds the tasks together. -/
lemma abortsRespected_step_iff (hst : AbortsRespected st) (hstep : abortStep st a = some st') :
    AbortsRespected st' ↔ TasksTogether st a := by
  cases a with
  | begin t =>
    cases hstep
    exact iff_of_true hst trivial
  | generate n r =>
    obtain ⟨t, -, hsend⟩ := bind_eq_some_iff.mp hstep
    exact iff_of_true (hst.of_send hsend) trivial
  | warmUp rid => exact iff_of_true (hst.of_send hstep) trivial
  | abort session => exact iff_of_true (hst.of_send hstep) trivial
  | worker b =>
    cases b with
    | submit t => cases hstep
    | poll =>
      obtain ⟨w, hw, rfl⟩ := map_eq_some_iff.mp hstep
      simp only [workerStep] at hw
      split at hw
      · cases hw
        simp only [AbortRun.take, TasksTogether]
        cases hq : st.queue with
        | nil => exact iff_of_true hst trivial
        | cons x rest =>
          cases x with
          | abort session begun => exact iff_of_true hst trivial
          | warmUp rid => exact iff_of_true hst trivial
          | generate n t r =>
            simp only [AbortsRespected, RespectsAborts, decide_eq_true_eq, h.started_iff hq,
              not_iff_not]
            exact ⟨fun hboth => hboth.1.symm, fun hiff => ⟨hiff.symm, hst⟩⟩
      · cases hw
    | wake | flush | start i | yield i o | put i | finish i | fail i | cancelled i | callback i =>
      obtain ⟨w, -, rfl⟩ := map_eq_some_iff.mp hstep
      exact iff_of_true hst trivial

end

/-- In every run, the tasks started are in every state those of the turns that no abort had revoked,
iff the worker finds the tasks of an aborted turn together and those of a later turn apart. -/
theorem aborts_respected_iff_together {acts : List (AbortAct ω)}
    (hrun : run abortStep {} acts = some st) :
    EveryState abortStep AbortsRespected {} acts ↔ AllSteps abortStep TasksTogether {} acts := by
  have hinit : Tracks ({} : AbortRun ω) := ⟨rfl, rfl, by simp [Standing]⟩
  exact everyState_iff_allSteps (I := Tracks)
    (fun _ _ _ h _ hstep => tracks_step h hstep)
    (fun _ _ _ h hst hstep => abortsRespected_step_iff h hst hstep) hinit trivial
    (allSteps_of_forall_mem (p := fun _ => True) (by simp)) hrun

instance decidableRespectsAborts : ∀ taken, Decidable (RespectsAborts taken)
  | [] => isTrue trivial
  | (.generate n t _, started) :: rest =>
    have : Decidable (RespectsAborts rest) := decidableRespectsAborts rest
    inferInstanceAs (Decidable ((started = true ↔ ¬ Stale t.session n rest) ∧
      RespectsAborts rest))
  | (.warmUp _, _) :: rest => decidableRespectsAborts rest
  | (.abort _ _, _) :: rest => decidableRespectsAborts rest

instance : DecidablePred (AbortsRespected (ω := ω)) := fun st =>
  decidableRespectsAborts st.taken

instance decidableCovered (session : SessionId) (text : Key) :
    ∀ taken, Decidable (Covered session text taken)
  | [] => isFalse id
  | (.abort s _, _) :: rest =>
    have : Decidable (Covered session text rest) := decidableCovered session text rest
    inferInstanceAs (Decidable ((s = session ∧ ∀ y ∈ lastTurn rest, y = text) ∨
      Covered session text rest))
  | (.generate _ t _, _) :: rest =>
    have : Decidable (Covered session text rest) := decidableCovered session text rest
    inferInstanceAs (Decidable (t.text = text ∧ Covered session text rest))
  | (.warmUp rid, _) :: rest =>
    have : Decidable (Covered session text rest) := decidableCovered session text rest
    inferInstanceAs (Decidable (splitHead stageMark rid = text ∧ Covered session text rest))

instance (st : AbortRun ω) : DecidablePred (TasksTogether st) := fun a => by
  unfold TasksTogether
  repeat' split
  all_goals infer_instance

/-! ## Tasks of two sessions, and a session that is aborted first -/

/-- The next turn of the same session. -/
def laterTurn : TurnId :=
  { someTurn with time := 1700000021, time_ge := by decide, time_lt := by decide }

/-- A turn is aborted, its next task is taken, and the session starts another turn. -/
def bargeInRun : List (AbortAct ℕ) :=
  [.begin someTurn, .generate 0 (some (.stage1 0)), .worker .poll, .worker .flush,
    .abort someTurn.session, .generate 0 (some (.stage1 1)), .worker .poll, .worker .flush,
    .worker .poll, .begin laterTurn, .generate 1 (some (.stage1 0)), .worker .poll]

/-- The task of the aborted turn is dropped, and that of the next turn is started. -/
theorem aborts_respected_bargeInRun :
    EveryState abortStep AbortsRespected {} bargeInRun := by
  obtain ⟨st, hrun⟩ : ∃ st, run abortStep {} bargeInRun = some st :=
    isSome_iff_exists.mp (by decide +kernel)
  exact (aborts_respected_iff_together hrun).mpr (by decide +kernel)

/-- A task of another session is taken just before the abort, and a task of the aborted turn after
it. -/
def interleavedRun : List (AbortAct ℕ) :=
  [.begin someTurn, .begin foreignTurn, .generate 0 (some (.stage1 0)),
    .generate 1 (some (.stage1 0)), .abort someTurn.session, .generate 0 (some (.stage1 1)),
    .worker .poll, .worker .flush, .worker .poll, .worker .flush, .worker .poll, .worker .flush,
    .worker .poll]

/-- A session is aborted before the worker has taken any task, and starts a turn afterwards. -/
def abortFirstRun : List (AbortAct ℕ) :=
  [.abort someTurn.session, .begin someTurn, .generate 0 (some (.stage1 0)), .worker .poll,
    .worker .flush, .worker .poll]

/-- In the first run the aborted turn's task is started, in the second that of the new turn is
dropped. -/
theorem aborts_not_respected :
    (∃ st : AbortRun ℕ, run abortStep {} interleavedRun = some st ∧
      st.taken.head? = some (.generate 0 someTurn (some (.stage1 1)), true) ∧
      Stale someTurn.session 0 st.taken ∧ ¬ AbortsRespected st) ∧
    ∃ st : AbortRun ℕ, run abortStep {} abortFirstRun = some st ∧
      st.taken.head? = some (.generate 0 someTurn (some (.stage1 0)), false) ∧
      ¬ Stale someTurn.session 0 st.taken ∧ ¬ AbortsRespected st :=
  ⟨exists_reached (by decide +kernel), exists_reached (by decide +kernel)⟩

end OmniStreaming
