import OmniStreaming.Duplex.RequestId
import OmniStreaming.Lib.Custody
import OmniStreaming.Lib.Transition

/-!
# The synchronous stage worker: `_stage_worker`

The worker collects tasks from its queue into a batch, resolves the inputs of each of them, calls
the engine once for the batch and puts one result for each request on its output queue. An
exception of the engine is caught and answered by an error for each request of the batch. The
inputs are resolved before the `try` block: a payload that cannot be retrieved raises out of the
loop and ends the process.

Tasks are numbered in the order of their submission. `Serves` says that each task is waiting or has
exactly one result, and that the worker is alive.
-/

namespace OmniStreaming

open Custody List Transition

variable {ι ο : Type*}

/-! ## Resolving the inputs -/

/-- What `connector.get` gives: an exception, nothing, or data, perhaps without `engine_inputs`. -/
inductive ConnectorGet (ι : Type*)
  | raised
  | nothing
  | other
  | dict (engineInputs : Option (List ι))

/-- A `GENERATE` task: its request, where its inputs come from, and what is found there: in the
connector, or in the task itself (no value if loading raises). Inputs that are not a list count as a
list of one. -/
structure SyncTask (ι : Type*) where
  rid : Key
  fromConnector : Bool := false
  fromStage : Option ℕ := none
  get : ConnectorGet ι := .nothing
  engineInputs : Option (List ι) := none

/-- `try_recv_via_connector`, with the stages that the worker has a connector from. -/
def tryRecvViaConnector (connectors : ℕ → Bool) (t : SyncTask ι) : Option (List ι) :=
  if t.fromConnector then
    match t.fromStage with
    | none => none
    | some i =>
      if connectors i then
        match t.get with
        | .dict engineInputs => engineInputs
        | .raised | .nothing | .other => none
      else none
  else t.engineInputs

/-- The inputs of a batch are resolved if those of each task are. -/
lemma mapM_isSome_iff {α β : Type*} (f : α → Option β) (xs : List α) :
    (xs.mapM f).isSome ↔ ∀ x ∈ xs, (f x).isSome := by
  induction xs with
  | nil => simp
  | cons x xs ih =>
    rw [mapM_cons, forall_mem_cons, ← ih]
    cases f x with
    | none => simp
    | some y =>
      cases xs.mapM f with
      | none => simp
      | some ys => simp

/-! ## Generating and grouping -/

/-- The two values of `stage_type`. -/
inductive StageType
  | llm
  | diffusion
  deriving DecidableEq

/-- The engine on a batch: an exception, a list of outputs with ids if they have one, or one
output. -/
inductive EngineResult (ο : Type*)
  | raised
  | many (outs : List (Option Key × ο))
  | single (out : Option Key × ο)

/-- `gen_outputs`. A diffusion engine's outputs get the ids of the batch in order; an LLM engine's
are iterated. -/
def genOutputs (stageType : StageType) (rids : List Key) :
    EngineResult ο → Option (List (Option Key × ο))
  | .raised => none
  | .many outs =>
    match stageType with
    | .llm => some outs
    | .diffusion => some (outs.mapIdx fun idx out => (out.1 <|> rids[idx]?, out.2))
  | .single out =>
    match stageType with
    | .llm => none
    | .diffusion => some [(rids.head?, out.2)]

/-- `req_to_outputs[rid]`: the outputs with the id, and in turn those whose id is not in the
batch. -/
def reqToOutputs (rids : List Key) (outs : List (Option Key × ο)) (rid : Key) : List ο :=
  let unmapped := outs.filter fun out => !out.1.any (· ∈ rids)
  (outs.filter fun out => out.1 = some rid).map Prod.snd ++
    (unmapped.zipIdx.filter fun u => rids[u.2 % rids.length]? = some rid).map fun u => u.1.2

/-- A result on the output queue. -/
inductive SyncResult (ο : Type*)
  | engineOutputs (outs : List ο)
  | error

/-- The result of one request of a batch. -/
def batchResult (stageType : StageType) (rids : List Key) (g : EngineResult ο) (rid : Key) :
    SyncResult ο :=
  (genOutputs stageType rids g).elim .error fun outs => .engineOutputs (reqToOutputs rids outs rid)

/-! ## The loop -/

/-- A message on the input queue. -/
inductive SyncMsg (ι : Type*)
  | task (n : ℕ) (t : SyncTask ι)
  | shutdown

/-- The worker waits for a batch, collects one, has collected one, was shut down, or has raised. -/
inductive SyncPhase (ι : Type*)
  | idle
  | batching (batch : List (ℕ × SyncTask ι))
  | collected (batch : List (ℕ × SyncTask ι))
  | stopped
  | dead

/-- The worker has a batch, and goes on collecting or not. -/
def SyncPhase.ofBatch (batch : List (ℕ × SyncTask ι)) (done : Bool) : SyncPhase ι :=
  if done then .collected batch else .batching batch

/-- What is fixed for a worker. -/
structure SyncConfig where
  stageType : StageType := .llm
  connectors : ℕ → Bool := fun _ => true
  maxBatchSize : ℕ := 1

/-- A worker: its queues, the number of tasks submitted, where it stands, and the inputs of the
engine. A result has the number of its task. -/
structure SyncWorker (ι ο : Type*) where
  inQ : List (SyncMsg ι) := []
  submitted : ℕ := 0
  phase : SyncPhase ι := .idle
  calls : List (List ι) := []
  outQ : List (ℕ × Key × SyncResult ο) := []

inductive SyncAct (ι ο : Type*)
  /-- A task is submitted. -/
  | submit (t : SyncTask ι)
  /-- The worker is asked to shut down. -/
  | shutdown
  /-- The worker takes the first task of a batch. -/
  | first
  /-- The worker looks for one more task; `timedOut` says that the batch has waited long enough. -/
  | extra (timedOut : Bool)
  /-- The worker resolves the inputs of the batch and calls the engine. -/
  | process (g : EngineResult ο)

variable (C : SyncConfig) (s : SyncWorker ι ο)

/-- `task = in_q.get()`. -/
def SyncWorker.first : Option (SyncWorker ι ο) :=
  match s.inQ with
  | [] => none
  | .shutdown :: rest => some { s with inQ := rest, phase := .stopped }
  | .task n t :: rest =>
    some { s with inQ := rest, phase := .ofBatch [(n, t)] (C.maxBatchSize ≤ 1) }

/-- The loop that fills a batch. A request to shut down goes back to the end of the queue. -/
def SyncWorker.extra (batch : List (ℕ × SyncTask ι)) (timedOut : Bool) : SyncWorker ι ο :=
  if batch.length < C.maxBatchSize then
    match s.inQ with
    | [] => { s with phase := .ofBatch batch timedOut }
    | .shutdown :: rest => { s with inQ := rest ++ [.shutdown], phase := .collected batch }
    | .task n t :: rest =>
      { s with inQ := rest, phase := .ofBatch (batch ++ [(n, t)]) timedOut }
  else { s with phase := .collected batch }

/-- The rest of an iteration. The inputs are resolved outside of the `try` block. -/
def SyncWorker.process (batch : List (ℕ × SyncTask ι)) (g : EngineResult ο) : SyncWorker ι ο :=
  match batch.mapM fun t => tryRecvViaConnector C.connectors t.2 with
  | none => { s with phase := .dead }
  | some eins =>
    let rids := batch.map fun t => t.2.rid
    { s with
      phase := .idle
      calls := s.calls ++ [eins.flatten]
      outQ := s.outQ ++ batch.map fun t => (t.1, t.2.rid, batchResult C.stageType rids g t.2.rid) }

def syncStep : SyncAct ι ο → Option (SyncWorker ι ο)
  | .submit t =>
    some { s with inQ := s.inQ ++ [.task s.submitted t], submitted := s.submitted + 1 }
  | .shutdown => some { s with inQ := s.inQ ++ [.shutdown] }
  | .first =>
    match s.phase with
    | .idle => s.first C
    | _ => none
  | .extra timedOut =>
    match s.phase with
    | .batching batch => some (s.extra C batch timedOut)
    | _ => none
  | .process g =>
    match s.phase with
    | .collected batch => some (s.process C batch g)
    | _ => none

/-! ## One result for each task -/

/-- The tasks that have a result, with multiplicity. -/
def SyncWorker.answered : Multiset ℕ := s.outQ.map Prod.fst

/-- The number of a message, if it is a task. -/
def SyncMsg.number : SyncMsg ι → Multiset ℕ
  | .task n _ => {n}
  | .shutdown => 0

/-- The tasks of the batch. -/
def SyncPhase.numbers : SyncPhase ι → Multiset ℕ
  | .batching batch | .collected batch => batch.map Prod.fst
  | .idle | .stopped | .dead => 0

/-- The tasks that are in the queue or in the batch. -/
def SyncWorker.waiting : Multiset ℕ :=
  (s.inQ.map SyncMsg.number).sum + s.phase.numbers

/-- The process has ended with an exception. -/
def SyncPhase.isDead : SyncPhase ι → Bool
  | .dead => true
  | _ => false

lemma numbers_ofBatch (batch : List (ℕ × SyncTask ι)) (done : Bool) :
    (SyncPhase.ofBatch batch done).numbers = (batch.map Prod.fst : List ℕ) := by
  cases done with
  | true => rfl
  | false => rfl

lemma isDead_ofBatch (batch : List (ℕ × SyncTask ι)) (done : Bool) :
    (SyncPhase.ofBatch batch done).isDead = false := by
  cases done with
  | true => rfl
  | false => rfl

/-- Each task is waiting or has exactly one result, and the worker is alive. -/
def Serves : Prop :=
  Balanced s.submitted s.answered s.waiting ∧ s.phase.isDead = false

/-- The inputs of every task of the batch can be resolved when it is processed. -/
def PayloadsArrive : SyncAct ι ο → Prop
  | .process _ =>
    match s.phase with
    | .collected batch => ∀ t ∈ batch, (tryRecvViaConnector C.connectors t.2).isSome
    | _ => True
  | _ => True

instance (C : SyncConfig) (s : SyncWorker ι ο) : DecidablePred (PayloadsArrive C s) := fun a => by
  unfold PayloadsArrive
  repeat' split
  all_goals infer_instance

variable {C : SyncConfig} {s s' : SyncWorker ι ο} {a : SyncAct ι ο}

/-- The tasks that an event loses: the batch, if the inputs of one of its tasks cannot be
resolved. -/
def SyncWorker.lost (C : SyncConfig) (s : SyncWorker ι ο) : SyncAct ι ο → Multiset ℕ
  | .process _ =>
    match s.phase with
    | .collected batch =>
      if ∀ t ∈ batch, (tryRecvViaConnector C.connectors t.2).isSome then 0
      else batch.map Prod.fst
    | _ => 0
  | _ => 0

/-- A batch with a task whose inputs cannot be resolved is lost. -/
lemma lost_eq_zero_iff : s.lost C a = 0 ↔ PayloadsArrive C s a := by
  cases a with
  | process g =>
    simp only [SyncWorker.lost, PayloadsArrive]
    cases s.phase with
    | collected batch =>
      dsimp only
      split
      · rename_i h
        exact iff_of_true rfl h
      · rename_i h
        refine iff_of_false ?_ h
        intro hempty
        rw [Multiset.coe_eq_zero, map_eq_nil_iff] at hempty
        subst hempty
        exact h (by simp)
    | _ => exact iff_of_true rfl trivial
  | _ => exact iff_of_true rfl trivial

/-- The worker answers each task of a batch, or the batch is lost and the worker with it. -/
lemma process_accounts (batch : List (ℕ × SyncTask ι)) (g : EngineResult ο)
    (hphase : s.phase = .collected batch) :
    (s.process C batch g).submitted = s.submitted ∧
    (s.process C batch g).answered + (s.process C batch g).waiting + s.lost C (.process g) =
      s.answered + s.waiting ∧
    ((s.process C batch g).phase.isDead = false ↔ PayloadsArrive C s (.process g)) := by
  have hiff := mapM_isSome_iff
    (fun t : ℕ × SyncTask ι => tryRecvViaConnector C.connectors t.2) batch
  have hwaiting : s.waiting = (s.inQ.map SyncMsg.number).sum + (batch.map Prod.fst : List ℕ) := by
    rw [SyncWorker.waiting, hphase]
    rfl
  unfold SyncWorker.process
  simp only [SyncWorker.lost, PayloadsArrive, hphase, hwaiting]
  cases hrecv : batch.mapM fun t => tryRecvViaConnector C.connectors t.2 with
  | none =>
    rw [hrecv] at hiff
    have hfails := mt hiff.mpr (by simp)
    rw [if_neg hfails]
    refine ⟨rfl, ?_, iff_of_false nofun hfails⟩
    simp only [SyncWorker.answered, SyncWorker.waiting, SyncPhase.numbers]
    abel
  | some eins =>
    rw [hrecv] at hiff
    have harrive := hiff.mp rfl
    rw [if_pos harrive]
    refine ⟨rfl, ?_, iff_of_true rfl harrive⟩
    simp only [SyncWorker.answered, SyncWorker.waiting, SyncPhase.numbers, map_append,
      map_map, ← Multiset.coe_add, Function.comp_def]
    abel

/-- The event moves a task into the batch at most. -/
structure Moves (s s' : SyncWorker ι ο) : Prop where
  submitted : s'.submitted = s.submitted
  outQ : s'.outQ = s.outQ
  waiting : s'.waiting = s.waiting
  alive : s'.phase.isDead = false

/-- The first task of a batch. -/
lemma first_moves (hphase : s.phase = .idle) (hfirst : s.first C = some s') : Moves s s' := by
  unfold SyncWorker.first at hfirst
  split at hfirst
  · cases hfirst
  · rename_i rest hq
    cases hfirst
    refine ⟨rfl, rfl, ?_, rfl⟩
    simp [SyncWorker.waiting, hphase, hq, SyncMsg.number, SyncPhase.numbers]
  · rename_i n t rest hq
    cases hfirst
    refine ⟨rfl, rfl, ?_, isDead_ofBatch _ _⟩
    simp only [SyncWorker.waiting, numbers_ofBatch]
    simp only [hphase, hq, map_cons, map_nil, sum_cons, SyncMsg.number,
      SyncPhase.numbers, Multiset.coe_singleton]
    abel

lemma extra_moves {batch : List (ℕ × SyncTask ι)} (hphase : s.phase = .batching batch)
    (timedOut : Bool) : Moves s (s.extra C batch timedOut) := by
  have hwaiting : s.waiting = (s.inQ.map SyncMsg.number).sum + (batch.map Prod.fst : List ℕ) := by
    rw [SyncWorker.waiting, hphase]
    rfl
  unfold SyncWorker.extra
  split
  · split
    · refine ⟨rfl, rfl, ?_, isDead_ofBatch _ _⟩
      rw [hwaiting, SyncWorker.waiting, numbers_ofBatch]
    · rename_i rest hq
      refine ⟨rfl, rfl, ?_, rfl⟩
      rw [hwaiting, hq]
      simp [SyncWorker.waiting, SyncMsg.number, SyncPhase.numbers]
    · rename_i n t rest hq
      refine ⟨rfl, rfl, ?_, isDead_ofBatch _ _⟩
      rw [hwaiting, hq, SyncWorker.waiting, numbers_ofBatch]
      simp only [map_append, map_cons, map_nil, sum_cons, SyncMsg.number,
        ← Multiset.coe_add, Multiset.coe_singleton]
      abel
  · refine ⟨rfl, rfl, ?_, rfl⟩
    rw [hwaiting]
    rfl

/-- An event answers tasks, batches them, or loses them; the worker lives on if it loses none. -/
lemma serves_accounts (halive : s.phase.isDead = false) (hstep : syncStep C s a = some s') :
    (∃ new, Multiset.range s'.submitted = Multiset.range s.submitted + new ∧
      s'.answered + s'.waiting + s.lost C a = s.answered + s.waiting + new) ∧
    (s'.phase.isDead = false ↔ PayloadsArrive C s a) := by
  have hmoves (h : Moves s s') (hlost : s.lost C a = 0) (harrive : PayloadsArrive C s a) :
      (∃ new, Multiset.range s'.submitted = Multiset.range s.submitted + new ∧
        s'.answered + s'.waiting + s.lost C a = s.answered + s.waiting + new) ∧
      (s'.phase.isDead = false ↔ PayloadsArrive C s a) := by
    refine ⟨⟨0, by rw [h.submitted, add_zero], ?_⟩, iff_of_true h.alive harrive⟩
    rw [hlost, h.waiting, SyncWorker.answered, h.outQ]
    rfl
  cases a with
  | submit t =>
    cases hstep
    refine ⟨⟨{s.submitted}, ?_, ?_⟩, iff_of_true halive trivial⟩
    · rw [Multiset.range_succ, ← Multiset.singleton_add, add_comm]
    · simp only [SyncWorker.answered, SyncWorker.waiting, SyncWorker.lost, map_append,
        map_cons, map_nil, sum_append, sum_cons, sum_nil, SyncMsg.number]
      abel
  | shutdown =>
    cases hstep
    refine ⟨⟨0, (add_zero _).symm, ?_⟩, iff_of_true halive trivial⟩
    simp [SyncWorker.answered, SyncWorker.waiting, SyncWorker.lost, SyncMsg.number]
  | first =>
    simp only [syncStep] at hstep
    split at hstep
    · rename_i hphase
      exact hmoves (first_moves hphase hstep) rfl trivial
    · cases hstep
  | extra timedOut =>
    simp only [syncStep] at hstep
    split at hstep
    · rename_i batch hphase
      cases hstep
      exact hmoves (extra_moves hphase timedOut) rfl trivial
    · cases hstep
  | process g =>
    simp only [syncStep] at hstep
    split at hstep
    · rename_i batch hphase
      cases hstep
      obtain ⟨hsubmitted, hsum, hdead⟩ := process_accounts (C := C) batch g hphase
      exact ⟨⟨0, by rw [hsubmitted, add_zero], by rw [hsum, add_zero]⟩, hdead⟩
    · cases hstep

/-- A dead worker gets messages as one that has been shut down does. -/
lemma accounts_of_syncStep (hstep : syncStep C s a = some s') :
    ∃ new, Multiset.range s'.submitted = Multiset.range s.submitted + new ∧
      s'.answered + s'.waiting + s.lost C a = s.answered + s.waiting + new := by
  obtain ⟨inQ, submitted, phase, calls, outQ⟩ := s
  cases phase with
  | dead =>
    let stopped : SyncWorker ι ο := ⟨inQ, submitted, .stopped, calls, outQ⟩
    cases a with
    | submit t =>
      cases hstep
      exact (serves_accounts (C := C) (s := stopped) (a := .submit t) rfl rfl).1
    | shutdown =>
      cases hstep
      exact (serves_accounts (C := C) (s := stopped) (a := .shutdown) rfl rfl).1
    | _ => cases hstep
  | _ => exact (serves_accounts rfl hstep).1

/-- Whatever payloads are missing, no task gets two results, and none that still waits has one. -/
theorem tasks_answered_at_most_once (acts : List (SyncAct ι ο)) :
    EveryState (syncStep C) (fun s => s.answered + s.waiting ≤ Multiset.range s.submitted) {}
      acts := by
  refine everyState_of_invariant (fun s a s' h hstep => ?_) (fun _ h => h) (Multiset.zero_le _)
  obtain ⟨new, hcreated, hsum⟩ := accounts_of_syncStep hstep
  exact le_range_of_step h hcreated hsum

/-- In every run, each task has exactly one result as soon as its batch is processed and the worker
stays alive, in every state, iff the inputs of every task of every batch can be resolved. -/
theorem serves_iff_payloads_arrive {acts : List (SyncAct ι ο)}
    (hrun : run (syncStep C) {} acts = some s) :
    EveryState (syncStep C) Serves {} acts ↔ AllSteps (syncStep C) (PayloadsArrive C) {} acts := by
  have hstep : ∀ (t : SyncWorker ι ο) b t', Serves t → syncStep C t b = some t' →
      (Serves t' ↔ PayloadsArrive C t b) := by
    intro t b t' ht hstep
    obtain ⟨⟨new, hcreated, hsum⟩, halive⟩ := serves_accounts ht.2 hstep
    unfold Serves
    rw [balanced_iff_lost_eq_zero ht.1 hcreated hsum, lost_eq_zero_iff, halive, and_self]
  exact everyState_iff_allSteps (I := fun _ => True) (fun _ _ _ _ _ _ => trivial)
    (fun t b t' _ ht h => hstep t b t' ht h) trivial ⟨rfl, rfl⟩
    (allSteps_of_forall_mem (p := fun _ => True) (by simp)) hrun

/-- A task with its inputs in it. -/
def inlineTask : SyncTask ℕ := { rid := someTurn.text, engineInputs := some [7] }

/-- A task whose payload has expired in the connector. -/
def expiredTask : SyncTask ℕ :=
  { rid := foreignTurn.text, fromConnector := true, fromStage := some 0 }

/-- Two tasks are submitted, collected into one batch and processed. -/
def twoTasks (t t' : SyncTask ℕ) : List (SyncAct ℕ ℕ) :=
  [.submit t, .submit t', .first, .extra false, .extra true,
    .process (.many [(none, 70), (none, 80)])]

/-- Both tasks get their outputs. -/
theorem serves_twoTasks : EveryState (syncStep { maxBatchSize := 2 }) Serves {}
    (twoTasks inlineTask inlineTask) := by
  obtain ⟨s, hrun⟩ : ∃ s, run (syncStep { maxBatchSize := 2 }) {}
      (twoTasks inlineTask inlineTask) = some s :=
    Option.isSome_iff_exists.mp (by decide +kernel)
  exact (serves_iff_payloads_arrive hrun).mpr (by decide +kernel)

/-- The payload of the second task cannot be retrieved: neither task gets a result, the worker has
ended, and a later task stays in the queue. -/
theorem batch_lost_expiredTask : ∃ s, run (syncStep { maxBatchSize := 2 }) {}
    (twoTasks inlineTask expiredTask ++ [.submit inlineTask]) = some s ∧
      s.outQ.length = 0 ∧ s.waiting = {2} ∧ s.phase.isDead = true :=
  exists_reached (by decide +kernel)

end OmniStreaming
