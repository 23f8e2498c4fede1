import OmniStreaming.Omni.Async

/-!
# The walk through the stages

A call of `generate` is at one stage at a time, while the harvesters of all stages put results into
its queue and note the stage in its state. The loop asserts that the noted stage is its own.

`Walk` is what concerns one call: its part of the out queues of the stages, its queue, the tasks it
has submitted with the answers to them, and what it has taken and yielded. `Walk.Good` ties these
together: at every moment the answers of the current stage are what was taken, then what is in the
queue, then what is in the out queue of the stage. The system of all calls and stages moves one
walk at a time (`walks_step`), so all of its walks are good.
-/

namespace OmniStreaming

open Dictionary Function List Option Transition

variable {π ο ι : Type*}

/-! ## One call -/

/-- One call: where it stands, its queue, its results in the out queues, and for each stage its
tasks by their answers, the outputs taken and what was yielded. An output comes with its flag
`finished`. -/
structure Walk (ο : Type*) where
  finalStage : ℕ
  stage : ℕ
  status : GenerateStatus
  queue : List (ο × Bool)
  stageId : Option ℕ
  pending : ℕ → List (ο × Bool)
  tasks : ℕ → List (List (ο × Bool))
  consumed : ℕ → List (ο × Bool)
  yields : List (ℕ × ο)

/-- The last output, and only this one, is finished. -/
def Answered (outputs : List (ο × Bool)) : Prop :=
  ∃ before o, outputs = before ++ [(o, true)] ∧ ∀ a ∈ before, a.2 = false

/-- The outputs of the stages with a final output, in the order of the stages. -/
def finalOutputs (finalOutput : ℕ → Bool) (consumed : ℕ → List (ο × Bool)) (stages : ℕ) :
    List (ℕ × ο) :=
  (range stages).flatMap fun i =>
    if finalOutput i then (consumed i).map fun a => (i, a.1) else []

namespace Walk

/-- A call that has submitted its task to stage 0. -/
def start (finalStage : ℕ) : Walk ο where
  finalStage := finalStage
  stage := 0
  status := .waiting
  queue := []
  stageId := none
  pending _ := []
  tasks := update (fun _ => []) 0 [[]]
  consumed _ := []
  yields := []

/-- The answers of the current stage that can be seen: taken, in the queue, in the out queue. -/
def seen (w : Walk ο) : List (ο × Bool) := w.consumed w.stage ++ w.queue ++ w.pending w.stage

/-- The rest of an iteration, behind the `yield`. -/
def proceed (w : Walk ο) (finished : Bool) : Walk ο :=
  if finished then
    if w.stage < w.finalStage then
      { w with stage := w.stage + 1, status := .waiting,
               tasks := update w.tasks (w.stage + 1) (w.tasks (w.stage + 1) ++ [[]]) }
    else { w with status := .completed }
  else { w with status := .waiting }

/-- The loop takes an output from the queue. -/
def take (finalOutput : ℕ → Bool) (w : Walk ο) (a : ο × Bool) (rest : List (ο × Bool)) : Walk ο :=
  let taken : Walk ο :=
    { w with queue := rest
             consumed := update w.consumed w.stage (w.consumed w.stage ++ [a]) }
  if w.stageId = some w.stage then
    if finalOutput w.stage then
      { taken with status := .yielded a.2, yields := w.yields ++ [(w.stage, a.1)] }
    else taken.proceed a.2
  else { taken with status := .raised }

/-- What can happen to a call. -/
inductive Step (finalOutput : ℕ → Bool) (w : Walk ο) : Walk ο → Prop
  /-- A stage answers a task that it has not finished. -/
  | answer {i k : ℕ} {given : List (ο × Bool)} {a : ο × Bool}
      (htask : (w.tasks i)[k]? = some given) (hgiven : ∀ b ∈ given, b.2 = false) :
      Step finalOutput w
        { w with tasks := update w.tasks i ((w.tasks i).set k (given ++ [a]))
                 pending := update w.pending i (w.pending i ++ [a]) }
  /-- The harvester of a stage delivers a result. -/
  | harvest {i : ℕ} {a : ο × Bool} {rest : List (ο × Bool)} (hpending : w.pending i = a :: rest) :
      Step finalOutput w
        { w with pending := update w.pending i rest
                 queue := w.queue ++ [a]
                 stageId := some i }
  /-- The loop runs on with the first result of its queue. -/
  | take {a : ο × Bool} {rest : List (ο × Bool)} (hstatus : w.status = .waiting)
      (hqueue : w.queue = a :: rest) : Step finalOutput w (w.take finalOutput a rest)
  /-- The loop runs on behind a `yield`. -/
  | proceed {finished : Bool} (hstatus : w.status = .yielded finished) :
      Step finalOutput w (w.proceed finished)

/-- What holds of a call besides its status. -/
structure Sound (finalOutput : ℕ → Bool) (w : Walk ο) : Prop where
  done : ∀ i < w.stage, Answered (w.consumed i) ∧ w.tasks i = [w.consumed i] ∧ w.pending i = []
  ahead : ∀ i, w.stage < i → w.tasks i = [] ∧ w.consumed i = [] ∧ w.pending i = []
  current : w.tasks w.stage = [w.seen]
  unfinished : ∀ a ∈ w.seen.dropLast, a.2 = false
  noted : w.queue ≠ [] → w.stageId = some w.stage
  stage_le : w.stage ≤ w.finalStage
  yields_eq : w.yields = finalOutputs finalOutput w.consumed (w.stage + 1)

/-- The last output taken has the flag `finished`. -/
def TookLast (w : Walk ο) (finished : Bool) : Prop :=
  ∃ before o, w.consumed w.stage = before ++ [(o, finished)]

/-- What holds of a call. -/
structure Good (finalOutput : ℕ → Bool) (w : Walk ο) : Prop extends Sound finalOutput w where
  status_eq :
    match w.status with
    | .waiting => ∀ a ∈ w.consumed w.stage, a.2 = false
    | .yielded finished => w.TookLast finished
    | .completed => w.TookLast true ∧ w.stage = w.finalStage
    | .raised | .closed => False

variable {finalOutput : ℕ → Bool} {w w' : Walk ο} {a : ο × Bool} {i : ℕ} {rest : List (ο × Bool)}

/-- The outputs taken before the last one were not finished. -/
lemma Sound.unfinished_of_before (h : w.Sound finalOutput) {before : List (ο × Bool)}
    (hconsumed : w.consumed w.stage = before ++ [a]) : ∀ b ∈ before, b.2 = false := by
  intro b hb
  refine h.unfinished b ?_
  rw [seen, hconsumed, append_assoc, append_assoc, singleton_append,
    dropLast_append_of_ne_nil (cons_ne_nil _ _)]
  exact mem_append_left _ hb

lemma Sound.queues_eq_nil (h : w.Sound finalOutput) (hlast : w.TookLast true) :
    w.queue = [] ∧ w.pending w.stage = [] ∧ w.seen = w.consumed w.stage ∧
      Answered (w.consumed w.stage) := by
  obtain ⟨before, o, hconsumed⟩ := hlast
  have hnil : w.queue ++ w.pending w.stage = [] := by
    by_contra hne
    have hmem : (o, true) ∈ w.seen.dropLast := by
      rw [seen, append_assoc, dropLast_append_of_ne_nil hne, hconsumed]
      simp
    exact absurd (h.unfinished _ hmem) (by simp)
  obtain ⟨hq, hp⟩ := append_eq_nil_iff.mp hnil
  exact ⟨hq, hp, by rw [seen, append_assoc, hnil, append_nil], before, o, hconsumed,
    h.unfinished_of_before hconsumed⟩

/-- A call at its start. -/
lemma good_start (finalOutput : ℕ → Bool) (finalStage : ℕ) :
    (start finalStage : Walk ο).Good finalOutput where
  done i hi := absurd hi (Nat.not_lt_zero i)
  ahead i hi := by
    have hne : i ≠ 0 := ne_of_gt hi
    exact ⟨by simp only [start, update_of_ne hne], rfl, rfl⟩
  current := by simp only [start, update_self, seen, append_nil]
  unfinished a ha := absurd ha not_mem_nil
  noted h := absurd rfl h
  stage_le := Nat.zero_le _
  yields_eq := by simp [start, finalOutputs]
  status_eq a ha := absurd ha not_mem_nil

/-- The outputs of one more stage. -/
lemma finalOutputs_succ (finalOutput : ℕ → Bool) (consumed : ℕ → List (ο × Bool)) (n : ℕ) :
    finalOutputs finalOutput consumed (n + 1) = finalOutputs finalOutput consumed n ++
      if finalOutput n then (consumed n).map fun a => (n, a.1) else [] := by
  rw [finalOutputs, range_succ, flatMap_append, flatMap_singleton, finalOutputs]

/-- What is taken at a stage does not change the outputs of the stages before. -/
lemma finalOutputs_update (finalOutput : ℕ → Bool) (consumed : ℕ → List (ο × Bool)) (n : ℕ)
    (outputs : List (ο × Bool)) :
    finalOutputs finalOutput (update consumed n outputs) n =
      finalOutputs finalOutput consumed n := by
  refine flatMap_congr fun i hi => ?_
  rw [update_of_ne (mem_range.mp hi).ne]

/-- The rest of an iteration. -/
lemma Sound.proceed (h : w.Sound finalOutput) {finished : Bool} (hlast : w.TookLast finished) :
    (w.proceed finished).Good finalOutput := by
  cases finished with
  | false =>
    -- more outputs of the stage are to come
    refine ⟨⟨h.done, h.ahead, h.current, h.unfinished, h.noted, h.stage_le, h.yields_eq⟩, ?_⟩
    obtain ⟨before, o, hconsumed⟩ := hlast
    intro a ha
    rw [Walk.proceed] at ha
    obtain ha | rfl := (mem_append.mp (hconsumed ▸ ha)).imp_right mem_singleton.mp
    · exact h.unfinished_of_before hconsumed a ha
    · rfl
  | true =>
    obtain ⟨hqueue, hpending, hseen, hanswered⟩ := h.queues_eq_nil hlast
    rw [Walk.proceed, if_pos rfl]
    split
    · -- the task goes to the next stage
      rename_i hlt
      obtain ⟨htasks, hconsumed, hpending'⟩ := h.ahead (w.stage + 1) (Nat.lt_succ_self _)
      refine ⟨⟨fun i hi => ?_, fun i hi => ?_, ?_, ?_, ?_, hlt, ?_⟩, ?_⟩
      · simp only [update_of_ne hi.ne]
        obtain hi' | rfl := Nat.lt_succ_iff_lt_or_eq.mp hi
        · exact h.done i hi'
        · exact ⟨hanswered, hseen ▸ h.current, hpending⟩
      · simp only [update_of_ne hi.ne']
        exact h.ahead i ((Nat.lt_succ_self _).trans hi)
      · simp only [seen, update_self, htasks, hconsumed, hqueue, hpending',
          nil_append]
      · simp only [seen, hconsumed, hqueue, hpending', append_nil]
        exact fun a ha => absurd ha not_mem_nil
      · exact fun hne => absurd hqueue hne
      · rw [finalOutputs_succ, hconsumed, h.yields_eq]
        simp
      · simp only [hconsumed]
        exact fun a ha => absurd ha not_mem_nil
    · rename_i hge
      exact ⟨⟨h.done, h.ahead, h.current, h.unfinished, h.noted, h.stage_le, h.yields_eq⟩, hlast,
        le_antisymm h.stage_le (not_lt.mp hge)⟩

/-- An output moves from the queue to what was taken. -/
lemma Sound.taken (h : w.Sound finalOutput) (hqueue : w.queue = a :: rest)
    (status : GenerateStatus) :
    Sound finalOutput
      { w with queue := rest
               consumed := update w.consumed w.stage (w.consumed w.stage ++ [a])
               status := status
               yields := w.yields ++ if finalOutput w.stage then [(w.stage, a.1)] else [] } := by
  have hseen : w.consumed w.stage ++ [a] ++ rest ++ w.pending w.stage = w.seen := by
    rw [seen, hqueue]
    simp only [append_assoc, cons_append, nil_append]
  refine ⟨fun i hi => ?_, fun i hi => ?_, ?_, ?_, fun _ => ?_, h.stage_le, ?_⟩
  · simp only [update_of_ne hi.ne]
    exact h.done i hi
  · simp only [update_of_ne hi.ne']
    exact h.ahead i hi
  · simp only [seen, update_self, hseen]
    exact h.current
  · simp only [seen, update_self, hseen]
    exact h.unfinished
  · exact h.noted (hqueue ▸ cons_ne_nil _ _)
  · simp only [h.yields_eq, finalOutputs_succ, finalOutputs_update, update_self,
      append_assoc]
    cases finalOutput w.stage <;> simp

section

variable (h : w.Good finalOutput)
include h

/-- An unfinished task is the one of the current stage. -/
lemma Good.unfinished_task {k : ℕ} {given : List (ο × Bool)} (htask : (w.tasks i)[k]? = some given)
    (hgiven : ∀ b ∈ given, b.2 = false) :
    i = w.stage ∧ k = 0 ∧ given = w.seen ∧ w.status ≠ .completed := by
  have hanswered {l : List (ο × Bool)} (hl : Answered l) : l ≠ given := by
    rintro rfl
    obtain ⟨before, o, rfl, -⟩ := hl
    exact absurd (hgiven (o, true) (by simp)) (by simp)
  obtain hlt | rfl | hgt := lt_trichotomy i w.stage
  · obtain ⟨hdone, htasks, -⟩ := h.done i hlt
    rw [htasks, getElem?_singleton] at htask
    split at htask
    · exact absurd (some.inj htask) (hanswered hdone)
    · cases htask
  · rw [h.current, getElem?_singleton] at htask
    split at htask
    · rename_i hk
      cases htask
      refine ⟨rfl, hk, rfl, fun hcompleted => ?_⟩
      have hstatus := h.status_eq
      rw [hcompleted] at hstatus
      obtain ⟨-, -, hseen, hfinished⟩ := h.toSound.queues_eq_nil hstatus.1
      exact hanswered hfinished hseen.symm
    · cases htask
  · rw [(h.ahead i hgt).1] at htask
    cases htask

/-- A result in an out queue is one of the current stage. -/
lemma Good.stage_of_pending (hpending : w.pending i ≠ []) :
    i = w.stage ∧ w.status ≠ .completed := by
  obtain hlt | rfl | hgt := lt_trichotomy i w.stage
  · exact absurd (h.done i hlt).2.2 hpending
  · refine ⟨rfl, fun hcompleted => hpending ?_⟩
    have hstatus := h.status_eq
    rw [hcompleted] at hstatus
    exact (h.toSound.queues_eq_nil hstatus.1).2.1
  · exact absurd (h.ahead i hgt).2.2 hpending

/-- A stage answers. -/
lemma Good.answer {k : ℕ} {given : List (ο × Bool)} (htask : (w.tasks i)[k]? = some given)
    (hgiven : ∀ b ∈ given, b.2 = false) :
    Good finalOutput
      { w with tasks := update w.tasks i ((w.tasks i).set k (given ++ [a]))
               pending := update w.pending i (w.pending i ++ [a]) } := by
  obtain ⟨rfl, rfl, rfl, -⟩ := h.unfinished_task htask hgiven
  have hseen : w.consumed w.stage ++ w.queue ++ (w.pending w.stage ++ [a]) = w.seen ++ [a] := by
    rw [seen, ← append_assoc]
  refine ⟨⟨fun i hi => ?_, fun i hi => ?_, ?_, ?_, h.noted, h.stage_le, h.yields_eq⟩, h.status_eq⟩
  · simp only [update_of_ne hi.ne]
    exact h.done i hi
  · simp only [update_of_ne hi.ne']
    exact h.ahead i hi
  · simp only [seen, update_self, h.current, set_cons_zero, hseen]
  · simp only [seen, update_self, hseen, dropLast_concat]
    exact hgiven

/-- A harvester delivers. -/
lemma Good.harvest (hpending : w.pending i = a :: rest) :
    Good finalOutput
      { w with pending := update w.pending i rest
               queue := w.queue ++ [a]
               stageId := some i } := by
  obtain ⟨rfl, -⟩ := h.stage_of_pending (by rw [hpending]; exact cons_ne_nil _ _)
  have hseen : w.consumed w.stage ++ (w.queue ++ [a]) ++ rest = w.seen := by
    rw [seen, hpending]
    simp only [append_assoc, singleton_append]
  refine ⟨⟨fun i hi => ?_, fun i hi => ?_, ?_, ?_, fun _ => rfl, h.stage_le, h.yields_eq⟩,
    h.status_eq⟩
  · simp only [update_of_ne hi.ne]
    exact h.done i hi
  · simp only [update_of_ne hi.ne']
    exact h.ahead i hi
  · simp only [seen, update_self, hseen]
    exact h.current
  · simp only [seen, update_self, hseen]
    exact h.unfinished

/-- The noted stage is that of the loop, whose assertion therefore holds. -/
lemma Good.take (hqueue : w.queue = a :: rest) : (w.take finalOutput a rest).Good finalOutput := by
  have hnoted : w.stageId = some w.stage := h.noted (hqueue ▸ cons_ne_nil _ _)
  have hlast : update w.consumed w.stage (w.consumed w.stage ++ [a]) w.stage =
    w.consumed w.stage ++ [(a.1, a.2)] := update_self _ _ _
  rw [Walk.take, if_pos hnoted]
  split
  · rename_i hfinal
    have hsound := h.toSound.taken hqueue (.yielded a.2)
    rw [if_pos hfinal] at hsound
    exact ⟨hsound, _, _, hlast⟩
  · rename_i hfinal
    have hsound := h.toSound.taken hqueue w.status
    rw [if_neg hfinal, append_nil] at hsound
    exact hsound.proceed ⟨_, _, hlast⟩

end

end Walk

/-! ## All calls and all stages -/

/-- The orchestrator with the out queues and, for each call and stage, the tasks with their answers,
and what was taken and yielded. -/
structure Lockstep (π ο ι : Type*) where
  omni : AsyncOmni π ο ι := {}
  outQueues : ℕ → List (Key × ο × Bool) := fun _ => []
  tasks : ℕ → ℕ → List (List (ο × Bool)) := fun _ _ => []
  consumed : ℕ → ℕ → List (ο × Bool) := fun _ _ => []
  yields : ℕ → List (ℕ × ο) := fun _ => []

inductive LockAct (π ο : Type*)
  /-- `generate` is called, and submits its task to stage 0. -/
  | call (rid : Key) (prompt : π) (finalStage : ℕ)
  /-- Stage `i` answers task `k` of call `n`. -/
  | answer (n i k : ℕ) (a : ο × Bool)
  /-- The harvester of stage `i` takes a result from the out queue. -/
  | harvest (i : ℕ)
  /-- Call `n` runs to its next suspension, and a send succeeds. -/
  | resume (n : ℕ)

/-- Tasks of one call are submitted to stages. -/
def submitTo (stages : List ℕ) (tasks : ℕ → List (List (ο × Bool))) : ℕ → List (List (ο × Bool)) :=
  stages.foldl (fun tasks i => update tasks i (tasks i ++ [[]])) tasks

/-- What is yielded when a call has taken an output and has come to a status. -/
def yieldedBy (status : GenerateStatus) (i : ℕ) (o : ο) : List (ℕ × ο) :=
  match status with
  | .yielded _ => [(i, o)]
  | _ => []

namespace Lockstep

/-- What is recorded when call `n` has run from `r` to the state `omni`. -/
def record (s : Lockstep π ο ι) (n : ℕ) (r : OmniRequest π ο) (omni : AsyncOmni π ο ι) :
    Lockstep π ο ι :=
  let submitted := (omni.forwards.drop s.omni.forwards.length).map OmniForward.stage
  let s' := { s with omni := omni
                     tasks := update s.tasks n (submitTo submitted (s.tasks n)) }
  match r.status, r.queue with
  | .waiting, .outputs o finished :: _ =>
    let taken := s.consumed n r.stage ++ [(o, finished)]
    let yielded :=
      match omni.requests[n]? with
      | some r' => yieldedBy r'.status r.stage o
      | none => []
    { s' with consumed := update s.consumed n
                (update (s.consumed n) r.stage taken)
              yields := update s.yields n (s.yields n ++ yielded) }
  | _, _ => s'

/-- One event. A request id is not used while a call with it is going on. -/
def step (P : OmniStages π ο ι) (s : Lockstep π ο ι) : LockAct π ο → Option (Lockstep π ο ι)
  | .call rid prompt finalStage =>
    if (s.omni.requestStates.lookup rid).isSome then none
    else (omniStep P s.omni (.call rid prompt finalStage)).map fun omni =>
      let n := s.omni.requests.length
      { s with omni := omni
               tasks := update s.tasks n (submitTo [0] (s.tasks n)) }
  | .answer n i k a =>
    s.omni.requests[n]?.bind fun r => (s.tasks n i)[k]?.bind fun given =>
      if given.any (·.2) then none
      else some
        { s with
          tasks := update s.tasks n
            (update (s.tasks n) i ((s.tasks n i).set k (given ++ [a])))
          outQueues := update s.outQueues i (s.outQueues i ++ [(r.rid, a)]) }
  | .harvest i =>
    match s.outQueues i with
    | [] => none
    | (rid, o, finished) :: rest =>
      (omniStep P s.omni (.deliver i rid (.outputs o finished))).map fun omni =>
        { s with omni := omni, outQueues := update s.outQueues i rest }
  | .resume n =>
    s.omni.requests[n]?.bind fun r => (omniStep P s.omni (.resume n true)).map (s.record n r)

end Lockstep

/-- The outputs among the results of a queue. -/
def outputsOf (queue : List (OmniResult ο)) : List (ο × Bool) :=
  queue.filterMap fun
    | .outputs o finished => some (o, finished)
    | .error => none

/-- The walk of a request. -/
def OmniRequest.walk (r : OmniRequest π ο) (pending : ℕ → List (ο × Bool))
    (tasks : ℕ → List (List (ο × Bool))) (consumed : ℕ → List (ο × Bool)) (yields : List (ℕ × ο)) :
    Walk ο where
  finalStage := r.finalStage
  stage := r.stage
  status := r.status
  queue := outputsOf r.queue
  stageId := r.stageId
  pending := pending
  tasks := tasks
  consumed := consumed
  yields := yields

namespace Lockstep

/-- The results of call `n` in the out queues. -/
def pendingOf (s : Lockstep π ο ι) (n : ℕ) (rid : Key) (i : ℕ) : List (ο × Bool) :=
  if s.omni.requestStates.lookup rid = some n then
    ((s.outQueues i).filter (·.1 = rid)).map Prod.snd
  else []

/-- The walk of call `n`. -/
def walkOf (s : Lockstep π ο ι) (n : ℕ) (r : OmniRequest π ο) : Walk ο :=
  r.walk (s.pendingOf n r.rid) (s.tasks n) (s.consumed n) (s.yields n)

/-- What holds of call `n`. -/
structure CallInv (P : OmniStages π ο ι) (s : Lockstep π ο ι) (n : ℕ) (r : OmniRequest π ο) :
    Prop where
  live : r.status ≠ .completed → s.omni.requestStates.lookup r.rid = some n
  good : (s.walkOf n r).Good P.finalOutput
  noError : OmniResult.error ∉ r.queue
  slot : ∀ finished, r.status = .yielded finished → (s.omni.slots r.stage).isSome

/-- `request_states` has the calls that go on, and the out queues have results of such calls
only. -/
structure Inv (P : OmniStages π ο ι) (s : Lockstep π ο ι) : Prop where
  calls : ∀ (n : ℕ) (r : OmniRequest π ο), s.omni.requests[n]? = some r → CallInv P s n r
  registered : ∀ (rid : Key) (n : ℕ), s.omni.requestStates.lookup rid = some n →
    ∃ r, s.omni.requests[n]? = some r ∧ r.rid = rid ∧ r.status ≠ .completed
  queued : ∀ i, ∀ x ∈ s.outQueues i, (s.omni.requestStates.lookup x.1).isSome
  fresh : ∀ n, s.omni.requests.length ≤ n →
    s.tasks n = (fun _ => []) ∧ s.consumed n = (fun _ => []) ∧ s.yields n = []

variable {P : OmniStages π ο ι} {s s' : Lockstep π ο ι} {n : ℕ} {r r' : OmniRequest π ο}

lemma inv_init (P : OmniStages π ο ι) : ({} : Lockstep π ο ι).Inv P where
  calls n r hr := by simp at hr
  registered rid n hn := by simp at hn
  queued i x hx := by simp at hx
  fresh n _ := ⟨rfl, rfl, rfl⟩

variable {rid : Key}

/-- Results of one request id say nothing about those of another. -/
lemma filter_eq_of_filter_ne {rid' : Key} (hne : rid' ≠ rid) {xs ys : List (Key × ο × Bool)}
    (h : xs.filter (·.1 ≠ rid) = ys.filter (·.1 ≠ rid)) :
    xs.filter (·.1 = rid') = ys.filter (·.1 = rid') := by
  have hfilter (zs : List (Key × ο × Bool)) :
      (zs.filter (·.1 ≠ rid)).filter (·.1 = rid') = zs.filter (·.1 = rid') := by
    rw [List.filter_filter]
    refine filter_congr fun z _ => ?_
    by_cases hz : z.1 = rid' <;> simp [hz, hne]
  rw [← hfilter xs, h, hfilter]

/-- An event leaves a call alone. -/
lemma CallInv.other (h : CallInv P s n r)
    (hrecords : s'.tasks n = s.tasks n ∧ s'.consumed n = s.consumed n ∧ s'.yields n = s.yields n)
    (hkept : s'.omni.requestStates.lookup r.rid = some n ↔
      s.omni.requestStates.lookup r.rid = some n)
    (hqueues : s.omni.requestStates.lookup r.rid = some n → ∀ i,
      (s'.outQueues i).filter (·.1 = r.rid) = (s.outQueues i).filter (·.1 = r.rid))
    (hslots : ∀ i, (s.omni.slots i).isSome → (s'.omni.slots i).isSome) : CallInv P s' n r := by
  obtain ⟨htasks, hconsumed, hyields⟩ := hrecords
  have hpending : s'.pendingOf n r.rid = s.pendingOf n r.rid := by
    funext i
    rw [pendingOf, pendingOf]
    by_cases hreg : s.omni.requestStates.lookup r.rid = some n
    · rw [if_pos (hkept.mpr hreg), if_pos hreg, hqueues hreg i]
    · rw [if_neg (fun hreg' => hreg (hkept.mp hreg')), if_neg hreg]
  refine ⟨fun hlive => hkept.mpr (h.live hlive), ?_, h.noError,
    fun finished hf => hslots _ (h.slot finished hf)⟩
  rw [walkOf, htasks, hconsumed, hyields, hpending]
  exact h.good

/-- An event that concerns call `n` and turns `r` into `r'`. -/
structure Moves (s s' : Lockstep π ο ι) (n : ℕ) (r r' : OmniRequest π ο) : Prop where
  requests : s'.omni.requests = s.omni.requests.set n r'
  rid : r'.rid = r.rid
  others : ∀ rid, rid ≠ r.rid →
    s'.omni.requestStates.lookup rid = s.omni.requestStates.lookup rid
  own : s'.omni.requestStates.lookup r.rid = if r'.status = .completed then none else some n
  queues : ∀ i, (s'.outQueues i).filter (·.1 ≠ r.rid) = (s.outQueues i).filter (·.1 ≠ r.rid)
  empty : r'.status = .completed → ∀ i, (s'.outQueues i).filter (·.1 = r.rid) = []
  records : ∀ m, m ≠ n → s'.tasks m = s.tasks m ∧ s'.consumed m = s.consumed m ∧
    s'.yields m = s.yields m
  slots : ∀ i, (s.omni.slots i).isSome → (s'.omni.slots i).isSome

namespace Moves

/-- The other calls are left alone; the request id is that of call `n` only for one that has
ended. -/
lemma callInv_other (hmove : Moves s s' n r r')
    (hlookup : s.omni.requestStates.lookup r.rid = some n) {m : ℕ} (hmn : m ≠ n)
    {u : OmniRequest π ο} (hu : CallInv P s m u) : CallInv P s' m u := by
  have hkept : s'.omni.requestStates.lookup u.rid = some m ↔
      s.omni.requestStates.lookup u.rid = some m := by
    by_cases hsame : u.rid = r.rid
    · rw [hsame, hmove.own, hlookup]
      split
      · exact iff_of_false (by simp) (by simpa using Ne.symm hmn)
      · rfl
    · rw [hmove.others _ hsame]
  refine hu.other (hmove.records m hmn) hkept (fun hreg i => ?_) hmove.slots
  refine filter_eq_of_filter_ne (fun hsame => ?_) (hmove.queues i)
  rw [hsame, hlookup] at hreg
  exact hmn (some.inj hreg).symm

/-- The registered calls go on. -/
lemma registered (hmove : Moves s s' n r r') (h : s.Inv P) (hr : s.omni.requests[n]? = some r)
    {rid : Key} {m : ℕ} (hm : s'.omni.requestStates.lookup rid = some m) :
    ∃ u, s'.omni.requests[m]? = some u ∧ u.rid = rid ∧ u.status ≠ .completed := by
  have hn : n < s.omni.requests.length := (List.getElem?_eq_some_iff.mp hr).1
  by_cases hsame : rid = r.rid
  · subst hsame
    rw [hmove.own] at hm
    split at hm
    · cases hm
    · rename_i hstatus
      cases hm
      exact ⟨r', by rw [hmove.requests, getElem?_set_self hn], hmove.rid, hstatus⟩
  · rw [hmove.others rid hsame] at hm
    obtain ⟨u, hu, hurid, hstatus⟩ := h.registered rid m hm
    have hmn : n ≠ m := by
      rintro rfl
      cases hr.symm.trans hu
      exact hsame hurid.symm
    exact ⟨u, by rw [hmove.requests, getElem?_set_ne hmn, hu], hurid, hstatus⟩

lemma queued (hmove : Moves s s' n r r') (h : s.Inv P) {i : ℕ} {x : Key × ο × Bool}
    (hx : x ∈ s'.outQueues i) : (s'.omni.requestStates.lookup x.1).isSome := by
  by_cases hsame : x.1 = r.rid
  · rw [hsame, hmove.own]
    split
    · rename_i hstatus
      have hmem : x ∈ (s'.outQueues i).filter (·.1 = r.rid) :=
        mem_filter.mpr ⟨hx, decide_eq_true hsame⟩
      rw [hmove.empty hstatus i] at hmem
      cases hmem
    · rfl
  · have hmem : x ∈ (s'.outQueues i).filter (·.1 ≠ r.rid) :=
      mem_filter.mpr ⟨hx, decide_eq_true hsame⟩
    rw [hmove.queues i] at hmem
    rw [hmove.others _ hsame]
    exact h.queued i x (mem_filter.mp hmem).1

end Moves

lemma Inv.move (h : s.Inv P) (hr : s.omni.requests[n]? = some r) (hlive : r.status ≠ .completed)
    (hmove : Moves s s' n r r') (hgood : (s'.walkOf n r').Good P.finalOutput)
    (hnoError : OmniResult.error ∉ r'.queue)
    (hslot : ∀ finished, r'.status = .yielded finished → (s'.omni.slots r'.stage).isSome) :
    s'.Inv P := by
  have hn : n < s.omni.requests.length := (List.getElem?_eq_some_iff.mp hr).1
  have hlookup : s.omni.requestStates.lookup r.rid = some n := (h.calls n r hr).live hlive
  refine ⟨fun m u hu => ?_, fun rid m hm => hmove.registered h hr hm,
    fun i x hx => hmove.queued h hx, fun m hm => ?_⟩
  · rw [hmove.requests] at hu
    by_cases hmn : m = n
    · subst hmn
      cases (getElem?_set_self hn).symm.trans hu
      refine ⟨fun hu' => ?_, hgood, hnoError, hslot⟩
      rw [hmove.rid, hmove.own, if_neg hu']
    · rw [getElem?_set_ne (Ne.symm hmn)] at hu
      exact hmove.callInv_other hlookup hmn (h.calls m u hu)
  · rw [hmove.requests, length_set] at hm
    obtain ⟨htasks, hconsumed, hyields⟩ := hmove.records m (by omega)
    rw [htasks, hconsumed, hyields]
    exact h.fresh m hm

/-- The state after a new call. -/
def called (s : Lockstep π ο ι) (rid : Key) (prompt : π) (finalStage : ℕ) : Lockstep π ο ι :=
  { s with
    omni := s.omni.call rid prompt finalStage
    tasks := update s.tasks s.omni.requests.length
      (submitTo [0] (s.tasks s.omni.requests.length)) }

/-- The entry of a new call. -/
lemma lookup_called (s : Lockstep π ο ι) (rid : Key) (prompt : π) (finalStage : ℕ) (k : Key) :
    (s.called rid prompt finalStage).omni.requestStates.lookup k =
      if k = rid then some s.omni.requests.length else s.omni.requestStates.lookup k := by
  simp [called, AsyncOmni.call, lookup_setKeys]

/-- The calls from before are left alone. -/
lemma CallInv.called (h : CallInv P s n r) (hn : n < s.omni.requests.length)
    (hnone : s.omni.requestStates.lookup rid = none) (prompt : π) (finalStage : ℕ) :
    CallInv P (s.called rid prompt finalStage) n r := by
  refine h.other ⟨update_of_ne hn.ne _ _, rfl, rfl⟩ ?_ (fun _ _ => rfl) fun _ hi => hi
  rw [lookup_called]
  split
  · rename_i hsame
    rw [hsame, hnone]
    exact iff_of_false (by simpa using hn.ne') (by simp)
  · rfl

/-- A request id that is not registered has nothing in the out queues. -/
lemma Inv.filter_eq_nil (h : s.Inv P) (hnone : s.omni.requestStates.lookup rid = none) (i : ℕ) :
    (s.outQueues i).filter (·.1 = rid) = [] := by
  refine filter_eq_nil_iff.mpr fun x hx hxrid => ?_
  have hsome := h.queued i x hx
  rw [of_decide_eq_true hxrid, hnone] at hsome
  cases hsome

/-- The new call is at its start. -/
lemma Inv.callInv_new (h : s.Inv P) (hnone : s.omni.requestStates.lookup rid = none) {prompt : π}
    {finalStage : ℕ}
    (hr : (s.called rid prompt finalStage).omni.requests[s.omni.requests.length]? = some r) :
    CallInv P (s.called rid prompt finalStage) s.omni.requests.length r := by
  cases getElem?_concat_length.symm.trans hr
  obtain ⟨htasks, hconsumed, hyields⟩ := h.fresh _ (le_refl _)
  refine ⟨fun _ => (lookup_called ..).trans (if_pos rfl), ?_, not_mem_nil,
    fun _ h => by cases h⟩
  convert Walk.good_start P.finalOutput finalStage using 1
  simp only [walkOf, OmniRequest.walk, Walk.start, Lockstep.called, update_self, htasks,
    hconsumed, hyields, submitTo, foldl_cons, foldl_nil, nil_append]
  congr 1
  funext i
  simp only [pendingOf, h.filter_eq_nil hnone, map_nil, ite_self]

/-- A new call. -/
lemma Inv.call (h : s.Inv P) {prompt : π} {finalStage : ℕ}
    (hstep : s.step P (.call rid prompt finalStage) = some s') : s'.Inv P := by
  rw [step] at hstep
  split at hstep
  · cases hstep
  rename_i hfree
  have hnone : s.omni.requestStates.lookup rid = none := by simpa using hfree
  obtain rfl : s.called rid prompt finalStage = s' := some.inj hstep
  refine ⟨fun m u hu => ?_, fun k m hm => ?_, fun i x hx => ?_, fun m hm => ?_⟩
  · rcases lt_trichotomy m s.omni.requests.length with hlt | rfl | hgt
    · have hu' : s.omni.requests[m]? = some u := (getElem?_append_left hlt).symm.trans hu
      exact (h.calls m u hu').called hlt hnone prompt finalStage
    · exact h.callInv_new hnone hu
    · have hlt := (List.getElem?_eq_some_iff.mp hu).1
      simp only [called, AsyncOmni.call, length_append, length_singleton] at hlt
      omega
  · rw [lookup_called] at hm
    split at hm
    · cases hm
      rename_i hsame
      exact ⟨_, getElem?_concat_length, hsame.symm, by simp⟩
    · obtain ⟨u, hu, hurid, hstatus⟩ := h.registered k m hm
      exact ⟨u, (getElem?_append_left (List.getElem?_eq_some_iff.mp hu).1).trans hu, hurid,
        hstatus⟩
  · rw [lookup_called]
    split
    · rfl
    · exact h.queued i x hx
  · have hm' : s.omni.requests.length + 1 ≤ m := by simpa [called, AsyncOmni.call] using hm
    have hne : m ≠ s.omni.requests.length := by omega
    simp only [called, update_of_ne hne]
    exact h.fresh m (by omega)

/-- A stage answers. -/
lemma Inv.answer (h : s.Inv P) {i k : ℕ} {a : ο × Bool}
    (hstep : s.step P (.answer n i k a) = some s') : s'.Inv P := by
  obtain ⟨r, hr, hstep⟩ := bind_eq_some_iff.mp hstep
  obtain ⟨given, hgiven, hstep⟩ := bind_eq_some_iff.mp hstep
  split at hstep
  · cases hstep
  rename_i hunfinished
  cases hstep
  have hcall := h.calls n r hr
  have hall : ∀ b ∈ given, b.2 = false := by simpa using hunfinished
  have hlive : r.status ≠ .completed := (hcall.good.unfinished_task hgiven hall).2.2.2
  have hlookup := hcall.live hlive
  obtain ⟨hn, hget⟩ := List.getElem?_eq_some_iff.mp hr
  have hset : s.omni.requests = s.omni.requests.set n r := by
    rw [← hget, set_getElem_self]
  refine h.move hr hlive ⟨hset, rfl, fun _ _ => rfl, by rw [if_neg hlive]; exact hlookup,
    fun j => ?_, fun h => absurd h hlive, fun m hm => ⟨update_of_ne hm _ _, rfl, rfl⟩,
    fun _ h => h⟩ ?_ hcall.noError hcall.slot
  · by_cases hj : j = i
    · subst hj
      simp
    · simp only [update_of_ne hj]
  · convert hcall.good.answer (a := a) hgiven hall using 1
    simp only [walkOf, OmniRequest.walk, update_self]
    congr 1
    funext j
    by_cases hj : j = i
    · subst hj
      simp [pendingOf, hlookup]
    · simp only [pendingOf, update_of_ne hj]

/-- A harvester delivers. -/
lemma Inv.harvest (h : s.Inv P) {i : ℕ} (hstep : s.step P (.harvest i) = some s') : s'.Inv P := by
  rw [step] at hstep
  split at hstep
  · cases hstep
  rename_i rid o finished rest hqueue
  obtain ⟨omni, homni, rfl⟩ := map_eq_some_iff.mp hstep
  -- the result is one of a call that goes on
  obtain ⟨n, hlookup⟩ := isSome_iff_exists.mp
    (h.queued i (rid, o, finished) (hqueue ▸ mem_cons_self))
  obtain ⟨r, hr, rfl, hlive⟩ := h.registered rid n hlookup
  have hcall := h.calls n r hr
  simp only [omniStep, hlookup, hr, map_some] at homni
  cases homni
  have hpending : s.pendingOf n r.rid i =
      (o, finished) :: (rest.filter (·.1 = r.rid)).map Prod.snd := by
    simp [pendingOf, hlookup, hqueue]
  refine h.move hr hlive ⟨rfl, rfl, fun _ _ => rfl, ?_, fun j => ?_, fun h => absurd h hlive,
    fun m hm => ⟨rfl, rfl, rfl⟩, fun _ h => h⟩ ?_ ?_ hcall.slot
  · exact hlookup.trans (if_neg hlive).symm
  · by_cases hj : j = i
    · subst hj
      simp [hqueue]
    · simp only [update_of_ne hj]
  · convert hcall.good.harvest hpending using 1
    simp only [walkOf, OmniRequest.walk]
    congr 1
    · simp [outputsOf]
    · funext j
      by_cases hj : j = i
      · subst hj
        simp [pendingOf, AsyncOmni.setRequest, hlookup]
      · simp only [pendingOf, AsyncOmni.setRequest, update_of_ne hj]
  · simp [hcall.noError]

/-! ## A call runs -/

/-- The orchestrator after call `n` has run from `r` to `r'` and has submitted `fs`. -/
structure Ran (st st' : AsyncOmni π ο ι) (n : ℕ) (r r' : OmniRequest π ο)
    (fs : List (OmniForward π ο ι)) : Prop where
  requests_eq : st'.requests = st.requests.set n r'
  slots_some : ∀ i, (st.slots i).isSome → (st'.slots i).isSome
  forwards_eq : st'.forwards = st.forwards ++ fs
  requestStates_eq : st'.requestStates =
    if r'.status = .completed then popKeys st.requestStates (· = r.rid) else st.requestStates
  rid_eq : r'.rid = r.rid

lemma pending_eq_nil {w : Walk ο} (h : w.Good P.finalOutput) (hstatus : w.status = .completed)
    (i : ℕ) : w.pending i = [] := by
  by_contra hne
  exact (h.stage_of_pending hne).2 hstatus

/-- A call runs, and its walk stays good. -/
lemma Inv.ran (h : s.Inv P) (hr : s.omni.requests[n]? = some r) (hlive : r.status ≠ .completed)
    {omni : AsyncOmni π ο ι} {fs : List (OmniForward π ο ι)} (hran : Ran s.omni omni n r r' fs)
    {consumed : ℕ → List (ο × Bool)} {yields : List (ℕ × ο)}
    (hgood : (r'.walk (s.pendingOf n r.rid) (submitTo (fs.map OmniForward.stage) (s.tasks n))
      consumed yields).Good P.finalOutput)
    (hnoError : OmniResult.error ∉ r'.queue)
    (hslot : ∀ finished, r'.status = .yielded finished → (omni.slots r'.stage).isSome) :
    Inv P { s with
      omni := omni
      tasks := update s.tasks n (submitTo (fs.map OmniForward.stage) (s.tasks n))
      consumed := update s.consumed n consumed
      yields := update s.yields n yields } := by
  have hlookup := (h.calls n r hr).live hlive
  have hown : omni.requestStates.lookup r.rid =
      if r'.status = .completed then none else some n := by
    rw [hran.requestStates_eq]
    split
    · rw [lookup_popKeys, if_pos (decide_eq_true rfl)]
    · exact hlookup
  have hempty (hstatus : r'.status = .completed) (i : ℕ) :
      (s.outQueues i).filter (·.1 = r.rid) = [] := by
    have hpending : s.pendingOf n r.rid i = [] := pending_eq_nil hgood hstatus i
    rw [pendingOf, if_pos hlookup] at hpending
    exact map_eq_nil_iff.mp hpending
  refine h.move hr hlive ⟨hran.requests_eq, hran.rid_eq, fun rid hrid => ?_, hown, fun _ => rfl,
    hempty, fun m hm => ⟨update_of_ne hm _ _, update_of_ne hm _ _,
      update_of_ne hm _ _⟩, hran.slots_some⟩ ?_ hnoError hslot
  · rw [hran.requestStates_eq]
    split
    · rw [lookup_popKeys, if_neg (by simpa using hrid)]
    · rfl
  · convert hgood using 1
    simp only [walkOf, update_self]
    congr 1
    funext i
    rw [hran.rid_eq, pendingOf, pendingOf, hlookup, if_pos rfl]
    by_cases hstatus : r'.status = .completed
    · rw [hempty hstatus i, map_nil, ite_self]
    · rw [hown, if_neg hstatus, if_pos rfl]

section

variable (hinputs : ∀ i o p, (P.processEngineInputs i o p).isSome)
include hinputs

/-- The rest of an iteration, when no exception is raised. -/
lemma proceed_ran (st : AsyncOmni π ο ι) (n : ℕ) (r : OmniRequest π ο) (finished : Bool)
    (hslot : (st.slots r.stage).isSome) :
    ∃ r' fs, Ran st (st.proceed P n r finished true) n r r' fs ∧ r'.queue = r.queue ∧
      (∀ f, r'.status ≠ .yielded f) ∧
      ∀ pending tasks consumed yields, (r.walk pending tasks consumed yields).proceed finished =
        r'.walk pending (submitTo (fs.map OmniForward.stage) tasks) consumed yields := by
  cases finished with
  | false =>
    exact ⟨{ r with status := .waiting }, [],
      ⟨rfl, fun _ h => h, (append_nil _).symm, (if_neg (by simp)).symm, rfl⟩, rfl, by simp,
      fun _ _ _ _ => rfl⟩
  | true =>
    obtain ⟨slot, hslot⟩ := isSome_iff_exists.mp hslot
    obtain ⟨x, hx⟩ := isSome_iff_exists.mp (hinputs (r.stage + 1) slot.2 r.prompt)
    have hnext : st.nextInputs P r = some (slot.1, x) := by
      simp [AsyncOmni.nextInputs, hslot, hx]
    simp only [AsyncOmni.proceed, AsyncOmni.forward, hnext, if_true]
    by_cases hlt : r.stage < r.finalStage
    · rw [if_pos hlt]
      refine ⟨{ r with stage := r.stage + 1, status := .waiting },
        [⟨n, r.prompt, r.own, slot.1, r.stage + 1, x⟩],
        ⟨rfl, fun _ h => h, rfl, (if_neg (by simp)).symm, rfl⟩, rfl, by simp,
        fun pending tasks consumed yields => ?_⟩
      simp only [Walk.proceed, OmniRequest.walk, hlt, if_true]
      rfl
    · rw [if_neg hlt]
      refine ⟨{ r with status := .completed }, [],
        ⟨rfl, fun _ h => h, (append_nil _).symm, (if_pos rfl).symm, rfl⟩, rfl, by simp,
        fun pending tasks consumed yields => ?_⟩
      simp only [Walk.proceed, OmniRequest.walk, hlt, if_true, if_false]
      rfl

/-- A call takes outputs from its queue, and the noted stage is its own. -/
lemma handle_ran (st : AsyncOmni π ο ι) (n : ℕ) (hnoted : r.stageId = some r.stage) (o : ο)
    (finished : Bool) (rest : List (OmniResult ο)) :
    ∃ r' fs, Ran st (st.handle P n { r with queue := rest } (.outputs o finished) true) n r r' fs ∧
      r'.queue = rest ∧
      (∀ f, r'.status = .yielded f →
        ((st.handle P n { r with queue := rest } (.outputs o finished) true).slots
          r'.stage).isSome) ∧
      ∀ pending tasks consumed yields,
        (r.walk pending tasks consumed yields).take P.finalOutput (o, finished) (outputsOf rest) =
          r'.walk pending (submitTo (fs.map OmniForward.stage) tasks)
            (update consumed r.stage (consumed r.stage ++ [(o, finished)]))
            (yields ++ yieldedBy r'.status r.stage o) := by
  have hslots (i : ℕ) (hi : (st.slots i).isSome) :
      (update st.slots r.stage (some (n, o)) i).isSome := by
    by_cases hir : i = r.stage
    · rw [hir, update_self]
      rfl
    · rwa [update_of_ne hir]
  rw [AsyncOmni.handle, if_pos hnoted]
  dsimp only
  by_cases hfinal : P.finalOutput r.stage = true
  · rw [if_pos hfinal]
    refine ⟨{ r with queue := rest, own := some o, status := .yielded finished }, [],
      ⟨rfl, hslots, (append_nil _).symm, (if_neg (by simp)).symm, rfl⟩, rfl, fun _ _ => ?_,
      fun pending tasks consumed yields => ?_⟩
    · simp [AsyncOmni.setRequest]
    · simp only [Walk.take, OmniRequest.walk, hnoted, hfinal, if_true]
      rfl
  · rw [if_neg hfinal]
    obtain ⟨r', fs, hran, hqueue, hyield, hwalk⟩ := proceed_ran (P := P) hinputs
      { st with slots := update st.slots r.stage (some (n, o)) } n
      { r with queue := rest, own := some o } finished (by simp)
    have hnone : yieldedBy r'.status r.stage o = [] := by
      cases hstatus : r'.status with
      | yielded f => exact absurd hstatus (hyield f)
      | waiting | completed | raised | closed => rfl
    refine ⟨r', fs, ⟨hran.requests_eq, fun i hi => hran.slots_some i (hslots i hi),
      hran.forwards_eq, hran.requestStates_eq, hran.rid_eq⟩, hqueue,
      fun f hf => absurd hf (hyield f), fun pending tasks consumed yields => ?_⟩
    rw [hnone, append_nil, ← hwalk]
    simp only [Walk.take, OmniRequest.walk, hnoted, hfinal, if_true]
    rfl

/-- A call runs on. -/
lemma Inv.resume (h : s.Inv P) (hstep : s.step P (.resume n) = some s') : s'.Inv P := by
  obtain ⟨r, hr, hstep⟩ := bind_eq_some_iff.mp hstep
  obtain ⟨omni, homni, rfl⟩ := map_eq_some_iff.mp hstep
  have hcall := h.calls n r hr
  have hn : n < s.omni.requests.length := (List.getElem?_eq_some_iff.mp hr).1
  simp only [omniStep, hr, bind_some] at homni
  split at homni
  · -- it takes a result
    rename_i m rest hstatus hqueue
    have homni := some.inj homni
    cases m with
    | error => exact absurd (hqueue ▸ mem_cons_self) hcall.noError
    | outputs o finished =>
      have hwalkqueue : (s.walkOf n r).queue = (o, finished) :: outputsOf rest := by
        simp [walkOf, OmniRequest.walk, hqueue, outputsOf]
      have hnoted : r.stageId = some r.stage :=
        hcall.good.noted (hwalkqueue ▸ cons_ne_nil _ _)
      obtain ⟨r', fs, hran, hrest, hslot, hwalk⟩ :=
        handle_ran (P := P) hinputs s.omni n hnoted o finished rest
      rw [homni] at hran hslot
      have hgood := hcall.good.take hwalkqueue
      rw [walkOf, hwalk] at hgood
      have hinv := h.ran hr (by simp [hstatus]) hran hgood
        (hrest ▸ fun hmem => hcall.noError (hqueue ▸ mem_cons_of_mem _ hmem)) hslot
      simp only [record, hstatus, hqueue, hran.forwards_eq, drop_left, hran.requests_eq,
        getElem?_set_self hn]
      exact hinv
  · -- it goes on behind a `yield`
    rename_i finished hstatus
    cases homni
    obtain ⟨r', fs, hran, hqueue, hyield, hwalk⟩ :=
      proceed_ran (P := P) hinputs s.omni n r finished (hcall.slot finished hstatus)
    have hlast : (s.walkOf n r).TookLast finished := by
      have := hcall.good.status_eq
      simpa only [walkOf, OmniRequest.walk, hstatus] using this
    have hgood := hcall.good.toSound.proceed hlast
    rw [walkOf, hwalk] at hgood
    have hinv := h.ran hr (by simp [hstatus]) hran hgood (hqueue ▸ hcall.noError)
      fun f hf => absurd hf (hyield f)
    simpa only [record, hstatus, hran.forwards_eq, drop_left, update_eq_self]
      using hinv
  · cases homni

/-- Every event keeps the invariant. -/
lemma Inv.step (h : s.Inv P) {a : LockAct π ο} (hstep : s.step P a = some s') : s'.Inv P := by
  cases a with
  | call rid prompt finalStage => exact h.call hstep
  | answer n i k a => exact h.answer hstep
  | harvest i => exact h.harvest hstep
  | resume n => exact h.resume hinputs hstep

end

end Lockstep

/-- The walk of a call in every state: its loop has not failed; the stages before the current one
were answered by outputs of which the last is finished, and all were taken; of the current stage,
the outputs taken come first; each stage up to it has had one task, the later ones none; and what
was yielded are the outputs taken at the stages with a final output, in order. -/
structure InLockstep (P : OmniStages π ο ι) (s : Lockstep π ο ι) (n : ℕ) (r : OmniRequest π ο) :
    Prop where
  running : r.status ≠ .raised
  taken : ∀ i < r.stage, Answered (s.consumed n i) ∧ s.tasks n i = [s.consumed n i]
  taking : ∃ left, s.tasks n r.stage = [s.consumed n r.stage ++ left]
  completed : r.status = .completed →
    Answered (s.consumed n r.stage) ∧ s.tasks n r.stage = [s.consumed n r.stage] ∧
      r.stage = r.finalStage
  ahead : ∀ i, r.stage < i → s.tasks n i = [] ∧ s.consumed n i = []
  yielded : s.yields n = finalOutputs P.finalOutput (s.consumed n) (r.stage + 1)

/-- A good walk is in lockstep. -/
lemma inLockstep_of_good {P : OmniStages π ο ι} {s : Lockstep π ο ι} {n : ℕ} {r : OmniRequest π ο}
    (h : (s.walkOf n r).Good P.finalOutput) : InLockstep P s n r where
  running hraised := by
    have hstatus := h.status_eq
    simp only [Lockstep.walkOf, OmniRequest.walk, hraised] at hstatus
  taken i hi := ⟨(h.done i hi).1, (h.done i hi).2.1⟩
  taking := ⟨_, h.current.trans (by rw [Walk.seen, append_assoc]; rfl)⟩
  completed hcompleted := by
    have hstatus := h.status_eq
    simp only [Lockstep.walkOf, OmniRequest.walk, hcompleted] at hstatus
    obtain ⟨-, -, hseen, hanswered⟩ := h.toSound.queues_eq_nil hstatus.1
    exact ⟨hanswered, h.current.trans (by rw [hseen]; rfl), hstatus.2⟩
  ahead i hi := ⟨(h.ahead i hi).1, (h.ahead i hi).2.1⟩
  yielded := h.yields_eq

/-- However the stages, the harvesters and the calls take turns, all calls walk through their stages
in lockstep. -/
theorem generate_in_lockstep {P : OmniStages π ο ι}
    (hinputs : ∀ i o p, (P.processEngineInputs i o p).isSome) {acts : List (LockAct π ο)}
    {s : Lockstep π ο ι} (hrun : run (Lockstep.step P) {} acts = some s) {n : ℕ}
    {r : OmniRequest π ο} (hr : s.omni.requests[n]? = some r) : InLockstep P s n r := by
  have hinv : s.Inv P := run_invariant (I := Lockstep.Inv P)
    (fun _ _ _ h hstep => h.step hinputs hstep) (Lockstep.inv_init P) hrun
  exact inLockstep_of_good (hinv.calls n r hr).good

/-- Two stages with final outputs, the second of which continues the first. -/
def thinkThenTalk : OmniStages ℕ ℕ ℕ where
  finalOutput _ := true
  processEngineInputs _ o p := some (o + p)

/-- Two calls at once; the first one has two outputs of stage 0 waiting when it runs on. -/
def twoWalks : List (LockAct ℕ ℕ) :=
  [.call ['a'] 1 1, .call ['b'] 2 0, .answer 0 0 0 (10, false), .answer 1 0 0 (20, true),
    .answer 0 0 0 (11, true), .harvest 0, .harvest 0, .harvest 0, .resume 0, .resume 1, .resume 0,
    .resume 0, .resume 1, .resume 0, .answer 0 1 0 (12, true), .harvest 1, .resume 0, .resume 0]

theorem inLockstep_twoWalks :
    ∃ s r, run (Lockstep.step thinkThenTalk) {} twoWalks = some s ∧
      s.omni.requests[0]? = some r ∧ r.status = .completed ∧
      s.yields 0 = [(0, 10), (0, 11), (1, 12)] ∧ InLockstep thinkThenTalk s 0 r := by
  obtain ⟨s, hrun, hstatus, hyields⟩ : ∃ s, run (Lockstep.step thinkThenTalk) {} twoWalks = some s ∧
      s.omni.requests[0]?.map OmniRequest.status = some .completed ∧
      s.yields 0 = [(0, 10), (0, 11), (1, 12)] :=
    exists_reached (by decide +kernel)
  obtain ⟨r, hr, hcompleted⟩ := map_eq_some_iff.mp hstatus
  exact ⟨s, r, hrun, hr, hcompleted, hyields, generate_in_lockstep (fun _ _ _ => rfl) hrun hr⟩

end OmniStreaming
