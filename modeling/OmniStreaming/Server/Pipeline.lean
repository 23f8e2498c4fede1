import OmniStreaming.Server.Identity
import OmniStreaming.Stage.Worker

/-!
# Turns in the engine and in the stage workers

`Pipeline` is the engine with its three stage workers. A turn that runs submits tasks under its
request ids, and a barge-in sends an `ABORT` for its session; otherwise engine and workers take
their steps independently.

The turns of a session are kept apart, in `request_states`, in the task maps of the workers and by
`send_loop`, in every run in which they start in different seconds, no turn handles a stop token
while another turn of the session has a stage-1 request, no done-callback of a worker runs while the
variable `rid` of its loop stands for another active request, and `send_loop` finds at most one
other turn beside one that waits.
-/

namespace OmniStreaming

open Transition

variable {μ ω : Type*}

/-! ## The engine and its workers -/

/-- The engine and the workers of its stages. -/
structure Pipeline (μ ω : Type*) where
  server : Server μ
  stages : Fin 3 → StageWorker ω := fun _ => {}

inductive PipelineAct (μ ω : Type*)
  /-- An event of the server. -/
  | server (a : ServerAct μ)
  /-- Turn `n` submits a task: that of stage 0, or one of a later stage. -/
  | submit (n : ℕ) (r : Option SubRequest)
  /-- A barge-in sends an `ABORT` to every stage. -/
  | abort (s : SessionId)
  /-- An event of the worker of a stage. -/
  | stage (i : Fin 3) (a : WorkerAct ω)

/-- The stage of a task. -/
def taskStage : Option SubRequest → Fin 3
  | none => 0
  | some (.stage1 _) => 1
  | some (.stage2 _ _) => 2

/-- Put a task on the input queue of a worker. -/
def StageWorker.enqueue (w : StageWorker ω) (t : StageTask) : StageWorker ω :=
  { w with inQ := w.inQ ++ [t] }

def pipelineStep [DecidableEq μ] (g : μ) (p : Pipeline μ ω) :
    PipelineAct μ ω → Option (Pipeline μ ω)
  | .server a => (serverStep g p.server a).map fun e => { p with server := e }
  | .submit n r =>
    p.server.turns[n]?.bind fun t =>
      if t.status = .running then
        some { p with
          stages := Function.update p.stages (taskStage r)
            ((p.stages (taskStage r)).enqueue (.generate (taskRid t.id r))) }
      else none
  | .abort s => some { p with stages := fun i => (p.stages i).enqueue (.abort s.text) }
  | .stage _ (.submit _) => none
  | .stage i a =>
    (workerStep (p.stages i) a).map fun w => { p with stages := Function.update p.stages i w }

def Pipeline.init (g : μ) (now : Second) : Pipeline μ ω := { server := .init g now }

/-! ## What is to be kept -/

/-- The request whose event it is: the one whose task the loop takes, or that of the coroutine. -/
def StageWorker.actor (w : StageWorker ω) : WorkerAct ω → Option Key
  | .poll =>
    match w.inQ with
    | .generate rid :: _ => some rid
    | _ => none
  | .start i | .yield i _ | .put i | .finish i | .fail i | .cancelled i | .callback i =>
    w.gens[i]?.map Generation.rid
  | _ => none

/-- A turn of the session leaves the entries of the session's other turns in `request_states`. -/
def EntriesKept [DecidableEq μ] (g : μ) (s : SessionId) (p : Pipeline μ ω) : PipelineAct μ ω → Prop
  | .server a => ∀ e', serverStep g p.server a = some e' →
    ∀ m n t u, Siblings s p.server m n t u → a.turn = some n →
    ∀ k, (k, m) ∈ p.server.requestStates → (k, m) ∈ e'.requestStates
  | _ => True

/-- A request of a turn leaves the entries of the session's other turns in the task map. -/
def TasksKept (s : SessionId) (p : Pipeline μ ω) : PipelineAct μ ω → Prop
  | .stage i a => ∀ w', workerStep (p.stages i) a = some w' →
    ∀ m n t u, Siblings s p.server m n t u →
    ∀ rid, (p.stages i).actor a = some rid → u.id.Owns rid →
    ∀ rid' j, t.id.Owns rid' → (rid', j) ∈ (p.stages i).active → (rid', j) ∈ w'.active
  | _ => True

/-- When a done-callback runs, `rid` is the id of its own request or of none that is active. -/
def OwnCallback (w : StageWorker ω) : WorkerAct ω → Prop
  | .callback i => ∀ r ∈ w.ridVar, r ∈ OrderedDict.keys w.active → ∀ gen ∈ w.gens[i]?, r = gen.rid
  | _ => True

/-- The polls of a session. -/
def PipelineAct.polls (s : SessionId) : PipelineAct μ ω → ℕ
  | .server a => a.polls s
  | _ => 0

/-- `send_loop` has taken a turn of the session when it has polled twice while its entry stood. -/
def Recognised [DecidableEq μ] (g : μ) (s : SessionId) (init : Pipeline μ ω)
    (acts : List (PipelineAct μ ω)) : Prop :=
  ∀ before during p q n, before ++ during <+: acts →
    run (pipelineStep g) init before = some p → run (pipelineStep g) p during = some q →
    EveryState (pipelineStep g) (fun p => p.server.Stands s n) p during →
    2 ≤ (during.map (PipelineAct.polls s)).sum → n ∈ (q.server.sessions s).picked

/-- The four conditions. -/
def PipelineSafe (s : SessionId) (p : Pipeline μ ω) : PipelineAct μ ω → Prop
  | .server a => FreshSecond s p.server a ∧ LoneStop s p.server a ∧ FewTurns s p.server a
  | .stage i a => OwnCallback (p.stages i) a
  | _ => True

instance (w : StageWorker ω) : DecidablePred (OwnCallback w) := fun a => by
  unfold OwnCallback
  split <;> infer_instance

instance (s : SessionId) (p : Pipeline μ ω) : DecidablePred (PipelineSafe s p) := fun a => by
  unfold PipelineSafe
  split <;> infer_instance

/-! ## The task map of a worker -/

variable {w w' : StageWorker ω}

/-- A request leaves the other entries of the task map alone. -/
lemma active_kept {a : WorkerAct ω} (hown : OwnCallback w a) (hstep : workerStep w a = some w')
    {rid rid' : Key} (hactor : w.actor a = some rid) (hne : rid' ≠ rid) {j : ℕ}
    (hj : (rid', j) ∈ w.active) : (rid', j) ∈ w'.active := by
  -- an event of a coroutine that pops its own id
  have hpop : ∀ {i : ℕ} {gen : Generation ω}, w.gens[i]? = some gen →
      w.gens[i]?.map Generation.rid = some rid → (rid', j) ∈ OrderedDict.pop w.active gen.rid := by
    intro i gen hgen hrid
    rw [hgen] at hrid
    exact OrderedDict.mem_pop.mpr ⟨hj, Option.some.inj hrid ▸ hne⟩
  cases a with
  | submit t => cases hactor
  | wake => cases hactor
  | flush => cases hactor
  | poll =>
    simp only [workerStep] at hstep
    split at hstep
    · cases hstep
      obtain hidle | ⟨session, rest, hq, -⟩ | ⟨rid₀, rest, hq, hpoll⟩ := poll_cases w
      · rw [hidle]
        exact hj
      · simp [StageWorker.actor, hq] at hactor
      · simp only [StageWorker.actor, hq, Option.some.injEq] at hactor
        subst hactor
        rw [hpoll]
        obtain hdrop | hstart :=
          generateTask_cases { w with inQ := rest, taskType := some .generate } rid₀
        · rw [hdrop]
          exact hj
        · rw [hstart]
          exact OrderedDict.mem_set_of_ne hj hne
    · cases hstep
  | start i =>
    obtain ⟨gen, hgen, -, rfl⟩ := onGen_eq_some hstep
    exact hj
  | yield i o =>
    obtain ⟨gen, hgen, -, rfl⟩ := onGen_eq_some hstep
    exact hj
  | put i =>
    obtain ⟨gen, hgen, -, rfl⟩ := onGen_eq_some hstep
    exact hj
  | finish i =>
    obtain ⟨gen, hgen, -, rfl⟩ := onGen_eq_some hstep
    exact hpop hgen hactor
  | fail i =>
    obtain ⟨gen, hgen, -, rfl⟩ := onGen_eq_some hstep
    exact hpop hgen hactor
  | cancelled i =>
    obtain ⟨gen, hgen, -, rfl⟩ := onGen_eq_some hstep
    simp only
    split
    · exact hj
    · exact hpop hgen hactor
  | callback i =>
    obtain ⟨gen, hgen, -, rfl⟩ := onGen_eq_some hstep
    cases hvar : w.ridVar with
    | none => exact hj
    | some r =>
      refine OrderedDict.mem_pop.mpr ⟨hj, ?_⟩
      rintro rfl
      have hactive : rid' ∈ OrderedDict.keys w.active := List.mem_map.mpr ⟨_, hj, rfl⟩
      simp only [StageWorker.actor, hgen, Option.map_some, Option.some.injEq] at hactor
      exact hne ((hown rid' hvar hactive gen hgen).trans hactor)

/-! ## Runs of the pipeline -/

variable [DecidableEq μ] {g : μ} {s : SessionId} {p p' : Pipeline μ ω} {a : PipelineAct μ ω}

/-- An event of the pipeline is one of the server, or the server does not move. -/
lemma server_of_step (hstep : pipelineStep g p a = some p') :
    (∃ b, a = .server b ∧ serverStep g p.server b = some p'.server) ∨ p'.server = p.server := by
  cases a with
  | server b =>
    obtain ⟨e, he, rfl⟩ := Option.map_eq_some_iff.mp hstep
    exact .inl ⟨b, rfl, he⟩
  | submit n r =>
    obtain ⟨t, -, h⟩ := Option.bind_eq_some_iff.mp hstep
    split at h
    · exact .inr (Option.some.inj h ▸ rfl)
    · cases h
  | abort s => exact .inr (Option.some.inj hstep ▸ rfl)
  | stage i b =>
    cases b with
    | submit t => cases hstep
    | _ =>
      obtain ⟨w, -, rfl⟩ := Option.map_eq_some_iff.mp hstep
      exact .inr rfl

/-- What the entries mean, and that the ids differ. -/
structure ApartInv (s : SessionId) (p : Pipeline μ ω) : Prop where
  entries : EntryInv s p.server
  distinct : DistinctIds s p.server

/-- Every safe event keeps the turns apart. -/
lemma apartInv_step (h : ApartInv s p) (hsafe : PipelineSafe s p a)
    (hstep : pipelineStep g p a = some p') : ApartInv s p' := by
  obtain ⟨b, rfl, hserver⟩ | hsame := server_of_step hstep
  · exact ⟨entryInv_step h.entries hserver, distinctIds_step h.distinct hsafe.1 hserver⟩
  · exact ⟨hsame ▸ h.entries, hsame ▸ h.distinct⟩

omit [DecidableEq μ] in
lemma apartInv_init (g : μ) (s : SessionId) (now : Second) :
    ApartInv s (Pipeline.init g now : Pipeline μ ω) :=
  ⟨⟨fun _ _ h => absurd h (by simp [Pipeline.init, Server.init]), fun _ h => by cases h⟩,
    fun _ _ _ _ h => by simp [Pipeline.init, Server.init] at h⟩

/-- No turn changes the entries of another in `request_states`. -/
lemma entriesKept_of_apartInv (h : ApartInv s p) (hsafe : PipelineSafe s p a) :
    EntriesKept g s p a := by
  cases a with
  | server b =>
    intro e' hstep m n t u hturns hactor k hk
    exact entry_kept h.entries h.distinct hsafe.2.1 hstep hturns hactor hk
  | _ => trivial

omit [DecidableEq μ] in
/-- No turn changes the entries of another in a task map. -/
lemma tasksKept_of_apartInv (h : ApartInv s p) (hsafe : PipelineSafe s p a) : TasksKept s p a := by
  cases a with
  | stage i b =>
    intro w' hstep m n t u hturns rid hactor howns rid' j howns' hj
    refine active_kept hsafe hstep hactor ?_ hj
    rintro rfl
    exact hturns.id_ne h.distinct (howns.eq howns')
  | _ => trivial

/-- A poll brings a turn whose entry stands nearer to being taken. -/
lemma pollsLeft_pipelineStep {n : ℕ} (h : ApartInv s p) (hstands : p.server.Stands s n)
    (hstands' : p'.server.Stands s n) (hsafe : PipelineSafe s p a)
    (hstep : pipelineStep g p a = some p') :
    p'.server.pollsLeft s n ≤ p.server.pollsLeft s n - a.polls s := by
  cases a with
  | server b =>
    obtain ⟨e, he, rfl⟩ := Option.map_eq_some_iff.mp hstep
    exact pollsLeft_step h.entries h.distinct hsafe.2.2 hstands hstands' he
  | _ =>
    obtain ⟨b, hb, -⟩ | hsame := server_of_step hstep
    · cases hb
    · rw [hsame]
      exact Nat.le_refl _

/-- In every run that meets the four conditions, the turns of the session have different ids, none
changes the entries of another in `request_states` or in a task map, and `send_loop` recognises
each. -/
theorem turns_apart {now : Second} {acts : List (PipelineAct μ ω)}
    (hsafe : AllSteps (pipelineStep g) (PipelineSafe s) (Pipeline.init g now) acts) :
    EveryState (pipelineStep g) (fun p => DistinctIds s p.server) (Pipeline.init g now) acts ∧
      AllSteps (pipelineStep g) (fun p a => EntriesKept g s p a ∧ TasksKept s p a)
        (Pipeline.init g now) acts ∧
      Recognised g s (Pipeline.init g now) acts := by
  have hstep : ∀ (p : Pipeline μ ω) a p', ApartInv s p → PipelineSafe s p a →
      pipelineStep g p a = some p' → ApartInv s p' := fun _ _ _ h hsafe hstep =>
    apartInv_step h hsafe hstep
  have hinit : ApartInv s (Pipeline.init g now : Pipeline μ ω) := apartInv_init g s now
  refine ⟨everyState_of_allSteps hstep (fun p h => h.distinct) hinit hsafe,
    allSteps_of_allSteps hstep
      (fun p a h hsafe => ⟨entriesKept_of_apartInv h hsafe, tasksKept_of_apartInv h hsafe⟩)
      hinit hsafe, ?_⟩
  rintro before during p q n ⟨after, rfl⟩ hbefore hduring hstands hpolls
  obtain ⟨hfirst, hrest⟩ := allSteps_append.mp (allSteps_append.mp hsafe).1
  have hle := run_rank_le hstep (fun p => p.server.pollsLeft s n) (PipelineAct.polls s)
    (fun p a p' h hstands hstands' hsafe hp => pollsLeft_pipelineStep h hstands hstands' hsafe hp)
    (run_invariant_of_allSteps hstep hinit hfirst hbefore) (hrest p hbefore) hstands hduring
  by_contra hpicked
  have htwo := p.server.pollsLeft_le_two s n
  simp only [Server.pollsLeft, if_neg hpicked] at hle htwo
  split_ifs at hle <;> omega

/-! ## Two turns in one second -/

def nextSecond : Second := ⟨1700000001, by decide, by decide⟩

/-- An utterance of one frame, its turn `n`, and the turn's stage-0 task. -/
def turnEvents (n : ℕ) : List (PipelineAct Char ℕ) :=
  [.server (.frame someSession someFrame), .server (.endOfUtterance someSession (some 0) none),
    .server (.take someSession), .server (.take someSession), .server (.submit n), .submit n none,
    .stage 0 .poll, .stage 0 .flush, .server (.poll someSession)]

/-- Two turns, with `between` in between. -/
def twoUtterances (between : List (PipelineAct Char ℕ)) : List (PipelineAct Char ℕ) :=
  .server (.connect someSession) :: (turnEvents 0 ++ between ++ turnEvents 1)

/-- Two utterances in different seconds. -/
theorem turns_apart_twoUtterances :
    (∃ p, run (pipelineStep 'G') (Pipeline.init 'G' someSecond)
        (twoUtterances [.server (.clock nextSecond)]) = some p ∧
      (p.server.sessions someSession).picked = [0, 1]) ∧
    EveryState (pipelineStep 'G') (fun p => DistinctIds someSession p.server)
      (Pipeline.init 'G' someSecond) (twoUtterances [.server (.clock nextSecond)]) ∧
    Recognised 'G' someSession (Pipeline.init 'G' someSecond)
      (twoUtterances [.server (.clock nextSecond)]) := by
  have hsafe : AllSteps (pipelineStep 'G') (PipelineSafe someSession)
      (Pipeline.init 'G' someSecond) (twoUtterances [.server (.clock nextSecond)]) := by
    decide +kernel
  exact ⟨exists_reached (by decide +kernel), (turns_apart hsafe).1, (turns_apart hsafe).2.2⟩

/-- Two turns that start in the same second have the same id: the second has overwritten the entries
of the first in `request_states` and in the task map of stage 0, and `send_loop` does not take
it. -/
theorem turns_collide_twoUtterances :
    ∃ p, run (pipelineStep 'G') (Pipeline.init 'G' someSecond) (twoUtterances []) = some p ∧
      p.server.turns.map (fun t => t.id) =
        [.start someSession someSecond, .start someSession someSecond] ∧
      p.server.requestStates = [((TurnId.start someSession someSecond).text, 1)] ∧
      (p.stages 0).active = [((TurnId.start someSession someSecond).text, 1)] ∧
      (p.server.sessions someSession).picked = [0] ∧ p.server.newTurn someSession = none :=
  exists_reached (by decide +kernel)

end OmniStreaming
