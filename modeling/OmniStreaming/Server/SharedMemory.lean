import OmniStreaming.Lib.Custody
import OmniStreaming.Lib.Dict
import OmniStreaming.Lib.Transition
import OmniStreaming.Stage.Worker

/-!
# Shared-memory segments

A payload above the threshold travels in a shared-memory segment: `SharedMemoryConnector.put` makes
one for the inputs of a stage and `maybe_dump_to_shm` one for its outputs, and the message on the
queue names it. Whoever reads the payload unlinks the segment (`shm_read_bytes`), and so does
`selective_drain` for the tasks that it removes.

`ShmServer` follows the messages of the duplex server through the stages and the turns, with the
segments numbered in the order of their creation. A message leaves unread in four ways, and then
its segment stays: `dropped` is what an event leaves behind.
-/

namespace OmniStreaming

open Custody Dictionary List Option Prod Transition

/-! ## Messages that name segments -/

variable (xs : List (Option ℕ))

/-- The segments named by messages. -/
def segs : Multiset ℕ := (xs.map fun o => (o.toList : Multiset ℕ)).sum

/-- The segment named by the message at a place. -/
def segAt (j : ℕ) : Multiset ℕ := segs xs[j]?.toList

@[simp] lemma segs_nil : segs [] = 0 := rfl

@[simp] lemma segs_cons (o : Option ℕ) (xs : List (Option ℕ)) :
    segs (o :: xs) = (o.toList : Multiset ℕ) + segs xs := by
  simp [segs]

@[simp] lemma segs_append (xs ys : List (Option ℕ)) : segs (xs ++ ys) = segs xs + segs ys := by
  simp [segs]

/-- A segment that is read. -/
lemma segs_set_none (j : ℕ) : segs (xs.set j none) + segAt xs j = segs xs := by
  cases h : xs[j]? with
  | none => simp [segAt, h, set_eq_of_length_le (List.getElem?_eq_none_iff.mp h)]
  | some o =>
    have hset := sum_map_set (fun o : Option ℕ => (o.toList : Multiset ℕ)) h none
    simpa [segAt, h, segs] using hset

/-- A message that is removed. -/
lemma segs_eraseIdx (j : ℕ) : segs (xs.eraseIdx j) + segAt xs j = segs xs := by
  cases h : xs[j]? with
  | none => simp [segAt, h, eraseIdx_of_length_le (List.getElem?_eq_none_iff.mp h)]
  | some o =>
    have herase := sum_map_eraseIdx (fun o : Option ℕ => (o.toList : Multiset ℕ)) h
    simpa [segAt, h, segs] using herase

/-! ## A stage -/

/-- A stage worker with the segments on its input queue, of tasks not read, and on its output queue.
An output is given by whether it is above the threshold. -/
structure ShmStage where
  worker : StageWorker Bool := {}
  inSegs : List (Option ℕ) := []
  genSegs : List (Option ℕ) := []
  outMsgs : List (Key × Option ℕ) := []

variable (g : ShmStage)

/-- Put a task on the input queue. -/
def ShmStage.submit (t : StageTask) (seg : Option ℕ) : ShmStage :=
  { g with
    worker := { g.worker with inQ := g.worker.inQ ++ [t] }
    inSegs := g.inSegs ++ [seg] }

/-- The loop of the worker starts the task that it takes. -/
def ShmStage.starts : Bool := g.worker.gens.length < g.worker.poll.gens.length

/-- The segments after an event of the worker. A coroutine reads its payload as soon as its body is
entered. -/
def ShmStage.follow : WorkerAct Bool → ShmStage
  | .poll =>
    { g with
      inSegs := g.inSegs.tail
      genSegs := g.genSegs ++ if g.starts then g.inSegs.head?.toList else [] }
  | .start j => { g with genSegs := g.genSegs.set j none }
  | .cancelled j => { g with genSegs := g.genSegs.set j none }
  | _ => g

/-- The segments that an event of the worker unlinks. -/
def ShmStage.reads : WorkerAct Bool → Multiset ℕ
  | .start j => segAt g.genSegs j
  | _ => 0

/-- The segments of tasks that leave unread: one of an aborted session that the loop takes, and one
cancelled before its body is entered. -/
def ShmStage.drops : WorkerAct Bool → Multiset ℕ
  | .poll => if g.starts then 0 else segs g.inSegs.head?.toList
  | .cancelled j => segAt g.genSegs j
  | _ => 0

/-- `maybe_dump_to_shm` on the results of a batch: one above the threshold gets the next segment. -/
def dumpToShm : ℕ → List (Key × OutMsg Bool) → List (Key × Option ℕ)
  | _, [] => []
  | n, (rid, .output true) :: rest => (rid, some n) :: dumpToShm (n + 1) rest
  | n, (rid, .output false) :: rest => (rid, none) :: dumpToShm n rest
  | n, (rid, .error) :: rest => (rid, none) :: dumpToShm n rest

/-- The results that an event of the worker puts on the output queue. -/
def ShmStage.results (w : StageWorker Bool) (n : ℕ) : List (Key × Option ℕ) :=
  dumpToShm n (w.outQ.drop g.worker.outQ.length)

/-! ## The server -/

/-- A turn: the results that the harvesters have delivered and those handed on by `router_task`,
each with its stage. -/
structure ShmTurn where
  turnId : Key
  reqQueue : List (ℕ × Option ℕ) := []
  stageQueues : List (ℕ × Option ℕ) := []
  closed : Bool := false

/-- The stages, the turns, `request_states`, the number of segments created, and the segments
unlinked. -/
structure ShmServer where
  stages : List ShmStage := [{}, {}, {}]
  turns : List ShmTurn := []
  requestStates : Dict Key ℕ := ∅
  created : ℕ := 0
  unlinked : Multiset ℕ := 0

inductive ShmAct
  /-- A turn is started. -/
  | begin (turnId : Key)
  /-- `request_states[rid]` becomes turn `n`. -/
  | register (n : ℕ) (rid : Key)
  /-- A task is sent to a stage, above the threshold or not. -/
  | send (i : ℕ) (rid : Key) (large : Bool)
  /-- An event of the worker of a stage. -/
  | worker (i : ℕ) (a : WorkerAct Bool)
  /-- `selective_drain` removes the task at place `j`. -/
  | drain (i j : ℕ)
  /-- `selective_drain` puts the task at place `j` back at the end. -/
  | putBack (i j : ℕ)
  /-- The stop handler removes every key with `_stage_1`. -/
  | popStage1
  /-- The harvester of a stage collects a result. -/
  | harvest (i : ℕ)
  /-- `router_task` of turn `n` hands a result on. -/
  | route (n : ℕ)
  /-- A worker of turn `n` loads the result at place `j` of the stage queues. -/
  | load (n j : ℕ)
  /-- The generator of turn `n` ends. -/
  | close (n : ℕ)
  /-- `cleanup_for_barge_in`. -/
  | bargeIn (session : Key)

variable (st : ShmServer)

def ShmServer.setStage (i : ℕ) (g : ShmStage) : ShmServer :=
  { st with stages := st.stages.set i g }

def ShmServer.setTurn (n : ℕ) (t : ShmTurn) : ShmServer :=
  { st with turns := st.turns.set n t }

/-- The server after the event `b` of the worker of stage `i`. -/
def ShmServer.afterWorker (i : ℕ) (g : ShmStage) (b : WorkerAct Bool)
    (w : StageWorker Bool) : ShmServer :=
  let results := g.results w st.created
  { st.setStage i { g.follow b with worker := w, outMsgs := g.outMsgs ++ results } with
    created := st.created + (results.filterMap snd).length
    unlinked := st.unlinked + g.reads b }

/-- The turn that a result with this id goes to. -/
def ShmServer.recipient (rid : Key) : Option (ℕ × ShmTurn) :=
  (st.requestStates.lookup rid).bind fun n => st.turns[n]?.map fun t => (n, t)

/-- The harvester of stage `i` hands a result to the queue of its turn, or drops it if the request
is unknown. -/
def ShmServer.deliver (i : ℕ) (rid : Key) (seg : Option ℕ) : ShmServer :=
  match st.recipient rid with
  | none => st
  | some (n, t) => st.setTurn n { t with reqQueue := t.reqQueue ++ [(i, seg)] }

def shmStep : ShmAct → Option ShmServer
  | .begin turnId => some { st with turns := st.turns ++ [{ turnId := turnId }] }
  | .register n rid =>
    if n < st.turns.length then
      some { st with requestStates := setKeys st.requestStates [rid] n }
    else none
  | .send i rid large =>
    st.stages[i]?.map fun g =>
      let seg := if large then some st.created else none
      { st.setStage i (g.submit (.generate rid) seg) with
        created := st.created + seg.toList.length }
  | .worker _ (.submit _) => none
  | .worker i b =>
    st.stages[i]?.bind fun g => (workerStep g.worker b).map fun w => st.afterWorker i g b w
  | .drain i j =>
    st.stages[i]?.map fun g =>
      { st.setStage i
          { g with
            worker := { g.worker with inQ := g.worker.inQ.eraseIdx j }
            inSegs := g.inSegs.eraseIdx j } with
        unlinked := st.unlinked + segAt g.inSegs j }
  | .putBack i j =>
    st.stages[i]?.map fun g =>
      st.setStage i
        { g with
          worker := { g.worker with inQ := g.worker.inQ.eraseIdx j ++ g.worker.inQ[j]?.toList }
          inSegs := g.inSegs.eraseIdx j ++ g.inSegs[j]?.toList }
  | .popStage1 =>
    some { st with requestStates := popKeys st.requestStates (stage1Mark <:+: ·) }
  | .harvest i =>
    st.stages[i]?.bind fun g =>
      match g.outMsgs with
      | [] => none
      | (rid, seg) :: rest => some ((st.setStage i { g with outMsgs := rest }).deliver i rid seg)
  | .route n =>
    st.turns[n]?.bind fun t =>
      match t.closed, t.reqQueue with
      | false, m :: rest =>
        some (st.setTurn n { t with reqQueue := rest, stageQueues := t.stageQueues ++ [m] })
      | _, _ => none
  | .load n j =>
    st.turns[n]?.bind fun t =>
      if t.closed then none
      else
        some { st.setTurn n { t with stageQueues := t.stageQueues.eraseIdx j } with
          unlinked := st.unlinked + segAt (t.stageQueues.map snd) j }
  | .close n =>
    st.turns[n]?.map fun t =>
      { st.setTurn n { t with reqQueue := [], stageQueues := [], closed := true } with
        requestStates := popKeys st.requestStates (t.turnId.isPrefixOf ·) }
  | .bargeIn session =>
    some { st with
      stages := st.stages.map fun g => g.submit (.abort session) none
      requestStates := popKeys st.requestStates (session.isPrefixOf ·) }

/-! ## The ledger -/

/-- The segments named by the messages of a stage. -/
def ShmStage.named : Multiset ℕ :=
  segs g.inSegs + segs g.genSegs + segs (g.outMsgs.map snd)

/-- The segments named by the messages of a turn. -/
def ShmTurn.named (t : ShmTurn) : Multiset ℕ :=
  segs (t.reqQueue.map snd) + segs (t.stageQueues.map snd)

/-- The segments named by all messages in the system. -/
def ShmServer.named (st : ShmServer) : Multiset ℕ :=
  (st.stages.map ShmStage.named).sum + (st.turns.map ShmTurn.named).sum

/-- Every segment is named by one message and not unlinked, or by none and has been unlinked
once. -/
def UnlinkedOnce : Prop := Balanced st.created st.unlinked st.named

instance : DecidablePred UnlinkedOnce := fun st =>
  inferInstanceAs (Decidable (Balanced st.created st.unlinked st.named))

/-- The segments of messages that an event lets go unread: a task of an aborted session, a task
cancelled before it is read, a result of an unknown request, and what is left in the queues of a
turn that ends. -/
def ShmServer.dropped : ShmAct → Multiset ℕ
  | .worker i a => (st.stages[i]?.map fun g => g.drops a).getD 0
  | .harvest i =>
    match st.stages[i]? with
    | none => 0
    | some g =>
      match g.outMsgs with
      | [] => 0
      | (rid, seg) :: _ => if (st.recipient rid).isSome then 0 else segs [seg]
  | .close n => (st.turns[n]?.map ShmTurn.named).getD 0
  | _ => 0

/-- No message that names a segment goes unread. -/
def NothingDropped (a : ShmAct) : Prop := st.dropped a = 0

instance (st : ShmServer) : DecidablePred (NothingDropped st) := fun a =>
  inferInstanceAs (Decidable (st.dropped a = 0))

variable {st st' : ShmServer} {a : ShmAct}

/-- An event makes the segments `new`, and what it neither keeps nor unlinks has been dropped. -/
def Accounts (st : ShmServer) (a : ShmAct) (st' : ShmServer) : Prop :=
  ∃ new, Multiset.range st'.created = Multiset.range st.created + new ∧
    st'.unlinked + st'.named + st.dropped a = st.unlinked + st.named + new

/-- A change of one stage. -/
lemma accounts_of_stage {i : ℕ} {g g' : ShmStage} (new : Multiset ℕ)
    (hg : st.stages[i]? = some g) (hstages : st'.stages = st.stages.set i g')
    (hturns : st'.turns = st.turns)
    (hcreated : Multiset.range st'.created = Multiset.range st.created + new)
    (hstage : st'.unlinked + g'.named + st.dropped a = st.unlinked + g.named + new) :
    Accounts st a st' := by
  refine ⟨new, hcreated, ?_⟩
  have hset := sum_map_set ShmStage.named hg g'
  apply add_right_cancel (b := g.named)
  calc
    _ = st'.unlinked + st.dropped a + (st.turns.map ShmTurn.named).sum +
          (((st.stages.set i g').map ShmStage.named).sum + g.named) := by
      rw [ShmServer.named, hstages, hturns]
      abel
    _ = (st.stages.map ShmStage.named).sum + (st.turns.map ShmTurn.named).sum +
          (st'.unlinked + g'.named + st.dropped a) := by
      rw [hset]
      abel
    _ = _ := by
      rw [hstage, ShmServer.named]
      abel

/-- A change of one turn. -/
lemma accounts_of_turn {n : ℕ} {t t' : ShmTurn} (ht : st.turns[n]? = some t)
    (hturns : st'.turns = st.turns.set n t') (hstages : st'.stages = st.stages)
    (hcreated : st'.created = st.created)
    (hturn : st'.unlinked + t'.named + st.dropped a = st.unlinked + t.named) :
    Accounts st a st' := by
  refine ⟨0, by rw [hcreated, add_zero], ?_⟩
  have hset := sum_map_set ShmTurn.named ht t'
  apply add_right_cancel (b := t.named)
  calc
    _ = st'.unlinked + st.dropped a + (st.stages.map ShmStage.named).sum +
          (((st.turns.set n t').map ShmTurn.named).sum + t.named) := by
      rw [ShmServer.named, hstages, hturns]
      abel
    _ = (st.stages.map ShmStage.named).sum + (st.turns.map ShmTurn.named).sum +
          (st'.unlinked + t'.named + st.dropped a) := by
      rw [hset]
      abel
    _ = _ := by
      rw [hturn, ShmServer.named]
      abel

/-- An event that touches no message. -/
lemma accounts_of_frame (hnamed : st'.named = st.named) (hcreated : st'.created = st.created)
    (hunlinked : st'.unlinked = st.unlinked) (hdropped : st.dropped a = 0) :
    Accounts st a st' :=
  ⟨0, by rw [hcreated, add_zero], by rw [hnamed, hunlinked, hdropped]⟩

/-! ## The events one by one -/

lemma segs_map_snd {κ : Type*} (ms : List (κ × Option ℕ)) :
    segs (ms.map snd) = (ms.filterMap snd : List ℕ) := by
  induction ms with
  | nil => rfl
  | cons m ms ih =>
    obtain ⟨k, seg⟩ := m
    cases seg with
    | none => simpa [segs] using ih
    | some n =>
      rw [map_cons, segs_cons, ih, filterMap_cons]
      rfl

lemma range_add (n k : ℕ) :
    Multiset.range (n + k) = Multiset.range n + (range' n k : Multiset ℕ) := by
  rw [← Multiset.coe_range, ← Multiset.coe_range, Multiset.coe_add, List.range_add,
    range'_eq_map_range]

lemma filterMap_dumpToShm (n : ℕ) (ms : List (Key × OutMsg Bool)) :
    (dumpToShm n ms).filterMap snd =
      range' n ((dumpToShm n ms).filterMap snd).length := by
  induction ms generalizing n with
  | nil => rfl
  | cons m ms ih =>
    obtain ⟨rid, o⟩ := m
    cases o with
    | error => simpa [dumpToShm] using ih n
    | output large =>
      cases large with
      | false => simpa [dumpToShm] using ih n
      | true =>
        simp only [dumpToShm, filterMap_cons, length_cons, range'_succ]
        rw [← ih (n + 1)]

/-- What the worker has in hand is kept, read or dropped. -/
lemma named_follow (b : WorkerAct Bool) :
    segs (g.follow b).inSegs + segs (g.follow b).genSegs + (g.reads b + g.drops b) =
      segs g.inSegs + segs g.genSegs := by
  cases b with
  | poll =>
    cases hq : g.inSegs with
    | nil => simp [ShmStage.follow, ShmStage.reads, ShmStage.drops, hq]
    | cons seg rest =>
      cases hstarts : g.starts with
      | true =>
        simp only [ShmStage.follow, ShmStage.reads, ShmStage.drops, hq, hstarts, tail_cons,
          head?_cons, toList_some, if_true, segs_append, segs_cons, segs_nil]
        abel
      | false =>
        simp only [ShmStage.follow, ShmStage.reads, ShmStage.drops, hq, hstarts, tail_cons,
          head?_cons, toList_some, Bool.false_eq_true, if_false, segs_append,
          segs_cons, segs_nil]
        abel
  | start j =>
    have hset := segs_set_none g.genSegs j
    simp only [ShmStage.follow, ShmStage.reads, ShmStage.drops, add_zero, add_assoc, hset]
  | cancelled j =>
    have hset := segs_set_none g.genSegs j
    simp only [ShmStage.follow, ShmStage.reads, ShmStage.drops, zero_add, add_assoc, hset]
  | submit | wake | flush | yield | put | finish | fail | callback =>
    simp [ShmStage.follow, ShmStage.reads, ShmStage.drops]

/-- An event of a worker. -/
lemma accounts_worker {i : ℕ} {b : WorkerAct Bool} {g : ShmStage} {w : StageWorker Bool}
    (hg : st.stages[i]? = some g) : Accounts st (.worker i b) (st.afterWorker i g b w) := by
  have hnew := filterMap_dumpToShm st.created (w.outQ.drop g.worker.outQ.length)
  have hdropped : st.dropped (.worker i b) = g.drops b := by simp [ShmServer.dropped, hg]
  refine accounts_of_stage ((g.results w st.created).filterMap snd : List ℕ) hg (by rfl)
    (by rfl) ?_ ?_
  · rw [ShmServer.afterWorker, range_add]
    congr 2
    exact hnew.symm
  · rw [hdropped]
    simp only [ShmServer.afterWorker, ShmStage.named, map_append, segs_append, segs_map_snd]
    have hfollow := named_follow g b
    calc
      _ = st.unlinked + (segs (g.follow b).inSegs + segs (g.follow b).genSegs +
            (g.reads b + g.drops b)) + (g.outMsgs.filterMap snd : List ℕ) +
              ((g.results w st.created).filterMap snd : List ℕ) := by abel
      _ = _ := by
        rw [hfollow]
        abel

/-- The turn that a result belongs to. -/
lemma recipient_eq_some {rid : Key} {n : ℕ} {t : ShmTurn} (h : st.recipient rid = some (n, t)) :
    st.turns[n]? = some t := by
  obtain ⟨_, -, hturn⟩ := bind_eq_some_iff.mp h
  obtain ⟨_, ht, heq⟩ := map_eq_some_iff.mp hturn
  cases heq
  exact ht

/-- A harvester collects a result. -/
lemma accounts_harvest {i : ℕ} {g : ShmStage} {rid : Key} {seg : Option ℕ}
    {rest : List (Key × Option ℕ)} (hg : st.stages[i]? = some g)
    (hq : g.outMsgs = (rid, seg) :: rest) :
    Accounts st (.harvest i) ((st.setStage i { g with outMsgs := rest }).deliver i rid seg) := by
  have hrecipient : (st.setStage i { g with outMsgs := rest }).recipient rid =
      st.recipient rid := rfl
  have hdropped : st.dropped (.harvest i) =
      if (st.recipient rid).isSome then 0 else segs [seg] := by
    simp [ShmServer.dropped, hg, hq]
  have hstage : g.named = ShmStage.named { g with outMsgs := rest } + segs [seg] := by
    simp only [ShmStage.named, hq, map_cons, segs_cons, segs_nil]
    abel
  rw [ShmServer.deliver, hrecipient]
  cases hto : st.recipient rid with
  | none =>
    refine accounts_of_stage 0 hg rfl rfl (add_zero _).symm ?_
    rw [hdropped, hto, hstage, isSome_none, if_neg Bool.false_ne_true]
    simp only [ShmServer.setStage]
    abel
  | some found =>
    -- the message moves from the stage to the turn, so both sums change
    obtain ⟨n, t⟩ := found
    have ht := recipient_eq_some hto
    have hturns := sum_map_set ShmTurn.named ht { t with reqQueue := t.reqQueue ++ [(i, seg)] }
    have hstages := sum_map_set ShmStage.named hg { g with outMsgs := rest }
    have hqueue : ShmTurn.named { t with reqQueue := t.reqQueue ++ [(i, seg)] } =
        t.named + segs [seg] := by
      simp only [ShmTurn.named, map_append, map_cons, map_nil, segs_append]
      abel
    refine ⟨0, (add_zero _).symm, ?_⟩
    rw [hdropped, hto]
    simp only [ShmServer.setTurn, ShmServer.setStage, ShmServer.named, isSome_some, if_true,
      add_zero]
    rw [hqueue] at hturns
    rw [hstage] at hstages
    apply add_right_cancel (b := ShmStage.named { g with outMsgs := rest } + segs [seg] + t.named)
    calc
      _ = st.unlinked + (((st.stages.set i { g with outMsgs := rest }).map ShmStage.named).sum +
            (ShmStage.named { g with outMsgs := rest } + segs [seg])) +
              (((st.turns.set _ { t with reqQueue := t.reqQueue ++ [(i, seg)] }).map
                ShmTurn.named).sum + t.named) := by abel
      _ = _ := by
        rw [hstages, hturns]
        abel

/-- Every event accounts for the segments that it makes, unlinks and drops. -/
lemma accounts_step (hstep : shmStep st a = some st') : Accounts st a st' := by
  cases a with
  | begin turnId =>
    cases hstep
    exact accounts_of_frame (by simp [ShmServer.named, ShmTurn.named]) rfl rfl rfl
  | register n rid =>
    simp only [shmStep] at hstep
    split at hstep
    · exact some.inj hstep ▸ accounts_of_frame rfl rfl rfl rfl
    · cases hstep
  | send i rid large =>
    obtain ⟨g, hg, rfl⟩ := map_eq_some_iff.mp hstep
    refine accounts_of_stage (segs [if large then some st.created else none]) hg rfl rfl ?_ ?_
    · cases large with
      | true => exact range_add _ 1
      | false => exact (add_zero _).symm
    · simp only [ShmServer.setStage, ShmStage.named, ShmStage.submit, segs_append,
        ShmServer.dropped]
      abel
  | worker i b =>
    cases b with
    | submit t => cases hstep
    | poll | wake | flush | start | yield | put | finish | fail | cancelled | callback =>
      obtain ⟨g, hg, hstep⟩ := bind_eq_some_iff.mp hstep
      obtain ⟨w, -, rfl⟩ := map_eq_some_iff.mp hstep
      exact accounts_worker hg
  | drain i j =>
    obtain ⟨g, hg, rfl⟩ := map_eq_some_iff.mp hstep
    refine accounts_of_stage 0 hg rfl rfl (add_zero _).symm ?_
    simp only [ShmStage.named, ShmServer.dropped, add_zero]
    rw [← segs_eraseIdx g.inSegs j]
    abel
  | putBack i j =>
    obtain ⟨g, hg, rfl⟩ := map_eq_some_iff.mp hstep
    refine accounts_of_stage 0 hg rfl rfl (add_zero _).symm ?_
    have herase := segs_eraseIdx g.inSegs j
    simp only [ShmServer.setStage, ShmStage.named, ShmServer.dropped, add_zero, segs_append]
    rw [← segAt, herase]
  | popStage1 =>
    cases hstep
    exact accounts_of_frame rfl rfl rfl rfl
  | harvest i =>
    obtain ⟨g, hg, hstep⟩ := bind_eq_some_iff.mp hstep
    split at hstep
    · cases hstep
    · rename_i rid seg rest hq
      exact some.inj hstep ▸ accounts_harvest hg hq
  | route n =>
    obtain ⟨t, ht, hstep⟩ := bind_eq_some_iff.mp hstep
    split at hstep
    · rename_i m rest hclosed hq
      cases hstep
      refine accounts_of_turn ht rfl rfl rfl ?_
      simp only [ShmServer.setTurn, ShmTurn.named, ShmServer.dropped, hq, map_append,
        map_cons, map_nil, segs_append, segs_cons, segs_nil]
      abel
    · cases hstep
  | load n j =>
    obtain ⟨t, ht, hstep⟩ := bind_eq_some_iff.mp hstep
    split at hstep
    · cases hstep
    · cases hstep
      refine accounts_of_turn ht rfl rfl rfl ?_
      have herase := segs_eraseIdx (t.stageQueues.map snd) j
      simp only [ShmTurn.named, ShmServer.dropped, add_zero]
      rw [← herase, ← eraseIdx_map]
      abel
  | close n =>
    obtain ⟨t, ht, rfl⟩ := map_eq_some_iff.mp hstep
    refine accounts_of_turn ht rfl rfl rfl ?_
    simp [ShmServer.setTurn, ShmServer.dropped, ht, ShmTurn.named]
  | bargeIn session =>
    cases hstep
    refine accounts_of_frame ?_ rfl rfl rfl
    have hsubmit : ∀ g : ShmStage, (g.submit (.abort session) none).named = g.named := by
      intro g
      simp [ShmStage.named, ShmStage.submit, segs]
    simp [ShmServer.named, List.map_map, Function.comp_def, hsubmit]

/-- In every run, every segment is unlinked exactly once by the time its message has left, in every
state, iff no message that names a segment goes unread. -/
theorem unlinked_once_iff_nothing_dropped {acts : List ShmAct}
    (hrun : run shmStep {} acts = some st) :
    EveryState shmStep UnlinkedOnce {} acts ↔ AllSteps shmStep NothingDropped {} acts := by
  have hstep : ∀ s b s', UnlinkedOnce s → shmStep s b = some s' →
      (UnlinkedOnce s' ↔ NothingDropped s b) := by
    intro s b s' hs hstep
    obtain ⟨new, hcreated, hsum⟩ := accounts_step hstep
    exact balanced_iff_lost_eq_zero hs hcreated hsum
  exact everyState_iff_allSteps (I := fun _ => True) (fun _ _ _ _ _ _ => trivial)
    (fun s b s' _ hs h => hstep s b s' hs h) trivial rfl
    (allSteps_of_forall_mem (p := fun _ => True) (by simp)) hrun

/-- Whatever goes unread, no segment is unlinked twice or while a message names it, and no two
messages name the same. -/
theorem segments_unlinked_at_most_once (acts : List ShmAct) :
    EveryState shmStep (fun st => (st.unlinked + st.named).Nodup) {} acts := by
  refine everyState_of_invariant (I := fun st => st.unlinked + st.named ≤ Multiset.range st.created)
    (fun st a st' h hstep => ?_) (fun st h => Multiset.nodup_of_le h (Multiset.nodup_range _))
    (Multiset.zero_le _)
  obtain ⟨new, hcreated, hsum⟩ := accounts_step hstep
  exact le_range_of_step h hcreated hsum

/-! ## A turn that is served, and one that is interrupted -/

/-- The loop of stage `i` takes a task and starts it, and the body of coroutine 0 is entered. -/
def serveTask (i : ℕ) : List ShmAct :=
  [.worker i .poll, .worker i .flush, .worker i (.start 0)]

/-- Coroutine 0 of stage `i` puts out one large output, and the loop puts it on the output queue. -/
def answerTask (i : ℕ) : List ShmAct :=
  [.worker i (.yield 0 true), .worker i (.put 0), .worker i .poll, .worker i .wake,
    .worker i .flush]

/-- A large task is answered by a large output that the turn loads; a second task is removed from
the queue. -/
def servedRun : List ShmAct :=
  [.begin someTurn.text, .register 0 (stage1Key someTurn.text 0),
    .send 1 (stage1Key someTurn.text 0) true] ++ serveTask 1 ++ answerTask 1 ++
    [.harvest 1, .route 0, .load 0 0, .send 1 (stage1Key someTurn.text 1) true, .drain 1 0]

/-- Both tasks and the output are accounted for. -/
theorem unlinked_once_servedRun : EveryState shmStep UnlinkedOnce {} servedRun := by
  obtain ⟨st, hrun⟩ : ∃ st, run shmStep {} servedRun = some st :=
    isSome_iff_exists.mp (by decide +kernel)
  exact (unlinked_once_iff_nothing_dropped hrun).mpr (by decide +kernel)

/-- The thinker has put out a large output when the user barges in, and the harvester collects it
later. -/
def bargedRun : List ShmAct :=
  [.begin someTurn.text, .register 0 someTurn.text, .send 0 someTurn.text false] ++ serveTask 0 ++
    answerTask 0 ++ [.bargeIn someTurn.session.text, .close 0, .harvest 0]

/-- No message names the segment any more, and it has not been unlinked. -/
theorem segment_leaks_bargedRun :
    ∃ st, run shmStep {} bargedRun = some st ∧ st.created = 1 ∧ st.named = 0 ∧
      st.unlinked = 0 ∧ ¬ UnlinkedOnce st :=
  exists_reached (by decide +kernel)

end OmniStreaming
