import OmniStreaming.Lib.Transition
import OmniStreaming.Stage.Worker

/-!
# Taking tasks back from the queue: `OmniStage.selective_drain`

The orchestrator puts tasks into a buffer, which a feeder thread writes to a pipe, and the stage
worker takes them from the pipe. `selective_drain` also runs in the orchestrator: it takes tasks
from the pipe until it finds the pipe empty, or the reader's lock held by the worker, drops those
whose id is a target, and puts the others back at the end of the buffer.

`DrainQueue` is the queue with the history of what was submitted, dequeued and removed. The order in
which the worker will see the tasks is `line`: during the first loop of a call the tasks set aside
belong before those in the pipe, and after it they come behind everything.
-/

namespace OmniStreaming

open List Transition

/-! ## The queue -/

/-- `item.get("request_id")`. -/
def StageTask.requestId : StageTask → Key
  | .generate rid => rid
  | .abort session => session

/-- The turn of a `GENERATE` task. -/
def StageTask.turn : StageTask → Option Key
  | .generate rid => some (splitHead stageMark rid)
  | .abort _ => none

/-- A task with its place in the order of submission. -/
structure QueuedTask where
  number : ℕ
  task : StageTask
  deriving DecidableEq

/-- A call of `selective_drain`: none, or it takes tasks from the queue, or it puts back those
kept. -/
inductive DrainPhase
  | idle
  | emptying (targets : List Key) (retained : List QueuedTask)
  | refilling (targets : List Key) (retained : List QueuedTask)
  deriving DecidableEq

/-- The tasks that the call has kept and not put back. -/
def DrainPhase.retained : DrainPhase → List QueuedTask
  | .idle => []
  | .emptying _ retained => retained
  | .refilling _ retained => retained

/-- The queue, the call of `selective_drain`, and the history: the tasks submitted, dequeued and
removed, with their targets, and all targets. `locked`: the worker holds the lock of the pipe's
reader. -/
structure DrainQueue where
  buffer : List QueuedTask := []
  pipe : List QueuedTask := []
  locked : Bool := false
  phase : DrainPhase := .idle
  submitted : List QueuedTask := []
  dequeued : List QueuedTask := []
  removed : List (QueuedTask × List Key) := []
  targeted : List Key := []
  deriving DecidableEq

/-- The events of the queue. -/
inductive DrainAct
  /-- `submit`. -/
  | submit (t : StageTask)
  /-- The feeder thread writes a task to the pipe. -/
  | feed
  /-- The worker takes the lock. -/
  | lock
  /-- The worker takes a task, if there is one, and releases the lock. -/
  | dequeue
  /-- `selective_drain` is called. -/
  | call (targets : List Key)
  /-- One iteration of its first loop. -/
  | scan
  /-- One iteration of its second loop. -/
  | putBack
  deriving DecidableEq

variable (q : DrainQueue)

/-- One iteration of the first loop, which ends on an empty pipe, and by `queue.Empty` on a held
lock. -/
def DrainQueue.scan (targets : List Key) (retained : List QueuedTask) : DrainQueue :=
  match q.pipe, q.locked with
  | x :: pipe, false =>
    if x.task.requestId ∈ targets then
      { q with pipe := pipe, removed := q.removed ++ [(x, targets)] }
    else
      { q with pipe := pipe, phase := .emptying targets (retained ++ [x]) }
  | _, _ => { q with phase := .refilling targets retained }

/-- One iteration of the second loop. -/
def DrainQueue.putBack (targets : List Key) : List QueuedTask → DrainQueue
  | [] => { q with phase := .idle }
  | x :: retained => { q with buffer := q.buffer ++ [x], phase := .refilling targets retained }

/-- One event. A call is synchronous: nothing is submitted while it goes on. -/
def drainStep : DrainAct → Option DrainQueue
  | .submit t =>
    if q.phase = .idle then
      let x : QueuedTask := ⟨q.submitted.length, t⟩
      some { q with buffer := q.buffer ++ [x], submitted := q.submitted ++ [x] }
    else none
  | .feed =>
    match q.buffer with
    | [] => none
    | x :: buffer => some { q with buffer := buffer, pipe := q.pipe ++ [x] }
  | .lock => if q.locked then none else some { q with locked := true }
  | .dequeue =>
    if q.locked then
      match q.pipe with
      | [] => some { q with locked := false }
      | x :: pipe =>
        some { q with locked := false, pipe := pipe, dequeued := q.dequeued ++ [x] }
    else none
  | .call targets =>
    if q.phase = .idle then
      if targets = [] then some q
      else some { q with phase := .emptying targets [], targeted := q.targeted ++ targets }
    else none
  | .scan =>
    match q.phase with
    | .emptying targets retained => some (q.scan targets retained)
    | _ => none
  | .putBack =>
    match q.phase with
    | .refilling targets retained => some (q.putBack targets retained)
    | _ => none

/-! ## What a call should do -/

/-- The tasks in the order in which the worker gets them, from what it has dequeued and what is in
the queue. -/
def DrainPhase.arrange (dequeued queued : List QueuedTask) : DrainPhase → List QueuedTask
  | .idle => dequeued ++ queued
  | .emptying _ retained => dequeued ++ (retained ++ queued)
  | .refilling _ retained => dequeued ++ (queued ++ retained)

@[inherit_doc DrainPhase.arrange]
def DrainQueue.line : List QueuedTask :=
  q.phase.arrange q.dequeued (q.pipe ++ q.buffer)

/-- The two tasks belong to one turn, and none of the targets does. -/
def SameTurn (targeted : List Key) (x y : QueuedTask) : Prop :=
  x.task.turn ≠ none ∧ x.task.turn = y.task.turn ∧
    ∀ k ∈ targeted, x.task.turn ≠ some (splitHead stageMark k)

instance (targeted : List Key) (x y : QueuedTask) : Decidable (SameTurn targeted x y) :=
  inferInstanceAs (Decidable (_ ∧ _ ∧ _))

/-- If the tasks are siblings, the first was submitted first. -/
def Ahead (targeted : List Key) (x y : QueuedTask) : Prop :=
  SameTurn targeted x y → x.number < y.number

/-- No task is lost or duplicated, and only targets are removed. -/
def DrainQueue.Kept : Prop :=
  (q.line ++ q.removed.map Prod.fst).Perm q.submitted ∧
    ∀ e ∈ q.removed, e.1.task.requestId ∈ e.2

/-- Once a call has stopped taking tasks, no target of it is left in the queue. -/
def DrainQueue.TargetsGone : Prop :=
  match q.phase with
  | .refilling targets _ => ∀ x ∈ q.pipe ++ q.buffer, x.task.requestId ∉ targets
  | _ => True

/-- Everything a call should do; the worker gets the tasks of every turn without targets in
order. -/
def DrainsCleanly : Prop :=
  q.Kept ∧ q.TargetsGone ∧ q.line.Pairwise (Ahead q.targeted)

/-- While a call takes tasks, the worker takes none of a turn with a task set aside; and when the
call stops taking, neither a target nor a task of such a turn is left in the pipe or the buffer. -/
def DrainUndisturbed : DrainAct → Prop
  | .dequeue =>
    match q.phase, q.pipe with
    | .emptying _ retained, x :: _ => ∀ y ∈ retained, ¬ SameTurn q.targeted y x
    | _, _ => True
  | .scan =>
    match q.phase with
    | .emptying targets retained => (q.pipe = [] ∨ q.locked = true) →
        ∀ x ∈ q.pipe ++ q.buffer,
          x.task.requestId ∉ targets ∧ ∀ y ∈ retained, ¬ SameTurn q.targeted y x
    | _ => True
  | _ => True

/-! ## What an event can do -/

variable {q q' : DrainQueue} {a : DrainAct} {targeted : List Key} {x y : QueuedTask}

/-- The events by their effect. -/
inductive DrainEvent (q : DrainQueue) : DrainAct → DrainQueue → Prop
  | submit (t : StageTask) (hidle : q.phase = .idle) :
    DrainEvent q (.submit t) { q with
      buffer := q.buffer ++ [⟨q.submitted.length, t⟩]
      submitted := q.submitted ++ [⟨q.submitted.length, t⟩] }
  | feed {x : QueuedTask} {buffer : List QueuedTask} (hbuffer : q.buffer = x :: buffer) :
    DrainEvent q .feed { q with buffer := buffer, pipe := q.pipe ++ [x] }
  | lock : DrainEvent q .lock { q with locked := true }
  | miss (hpipe : q.pipe = []) : DrainEvent q .dequeue { q with locked := false }
  | dequeue {x : QueuedTask} {pipe : List QueuedTask} (hpipe : q.pipe = x :: pipe) :
    DrainEvent q .dequeue { q with
      locked := false, pipe := pipe, dequeued := q.dequeued ++ [x] }
  | noTargets : DrainEvent q (.call []) q
  | call (targets : List Key) (hidle : q.phase = .idle) :
    DrainEvent q (.call targets) { q with
      phase := .emptying targets [], targeted := q.targeted ++ targets }
  | remove {targets : List Key} {retained : List QueuedTask} {x : QueuedTask}
    {pipe : List QueuedTask} (hphase : q.phase = .emptying targets retained)
    (hpipe : q.pipe = x :: pipe) (hlocked : q.locked = false)
    (htarget : x.task.requestId ∈ targets) :
    DrainEvent q .scan { q with pipe := pipe, removed := q.removed ++ [(x, targets)] }
  | retain {targets : List Key} {retained : List QueuedTask} {x : QueuedTask}
    {pipe : List QueuedTask} (hphase : q.phase = .emptying targets retained)
    (hpipe : q.pipe = x :: pipe) (hlocked : q.locked = false)
    (htarget : x.task.requestId ∉ targets) :
    DrainEvent q .scan { q with pipe := pipe, phase := .emptying targets (retained ++ [x]) }
  | stop {targets : List Key} {retained : List QueuedTask}
    (hphase : q.phase = .emptying targets retained) (hend : q.pipe = [] ∨ q.locked = true) :
    DrainEvent q .scan { q with phase := .refilling targets retained }
  | putBack {targets : List Key} {retained : List QueuedTask} {x : QueuedTask}
    (hphase : q.phase = .refilling targets (x :: retained)) :
    DrainEvent q .putBack { q with
      buffer := q.buffer ++ [x], phase := .refilling targets retained }
  | done {targets : List Key} (hphase : q.phase = .refilling targets []) :
    DrainEvent q .putBack { q with phase := .idle }

lemma drainEvent_of_step (h : drainStep q a = some q') : DrainEvent q a q' := by
  cases a with
  | submit t =>
    simp only [drainStep] at h
    split at h
    · exact Option.some.inj h ▸ .submit t ‹_›
    · cases h
  | feed =>
    simp only [drainStep] at h
    split at h
    · cases h
    · exact Option.some.inj h ▸ .feed ‹_›
  | lock =>
    simp only [drainStep] at h
    split at h
    · cases h
    · exact Option.some.inj h ▸ .lock
  | dequeue =>
    simp only [drainStep] at h
    split at h
    · split at h
      · exact Option.some.inj h ▸ .miss ‹_›
      · exact Option.some.inj h ▸ .dequeue ‹_›
    · cases h
  | call targets =>
    simp only [drainStep] at h
    split at h
    · split at h
      · rename_i hnil
        subst hnil
        exact Option.some.inj h ▸ .noTargets
      · exact Option.some.inj h ▸ .call targets ‹_›
    · cases h
  | scan =>
    simp only [drainStep] at h
    split at h
    · rename_i targets retained hphase
      cases h
      unfold DrainQueue.scan
      split
      · rename_i hpipe hlocked
        split
        · exact .remove hphase hpipe hlocked ‹_›
        · exact .retain hphase hpipe hlocked ‹_›
      · rename_i hnot
        refine .stop hphase ?_
        cases hpipe : q.pipe with
        | nil => exact .inl rfl
        | cons x pipe =>
          cases hlocked : q.locked with
          | true => exact .inr rfl
          | false => exact absurd hlocked (hnot x pipe hpipe)
    · cases h
  | putBack =>
    simp only [drainStep] at h
    split at h
    · rename_i targets retained hphase
      cases h
      cases retained with
      | nil => exact .done hphase
      | cons x retained => exact .putBack hphase
    · cases h

/-! ## What an event does to the order -/

variable {α : Type*} {pipe retained : List QueuedTask}

/-- Two neighbouring parts of an ordered list may be exchanged if what comes to the front may stand
there. -/
lemma pairwise_exchange {R : α → α → Prop} {a b c d : List α}
    (h : (a ++ (b ++ (c ++ d))).Pairwise R) :
    (a ++ (c ++ (b ++ d))).Pairwise R ↔ ∀ x ∈ c, ∀ y ∈ b, R x y := by
  simp only [pairwise_append, mem_append] at h ⊢
  obtain ⟨ha, ⟨hb, ⟨hc, hd, hcd⟩, hbcd⟩, habcd⟩ := h
  constructor
  · rintro ⟨-, ⟨-, -, hcbd⟩, -⟩ x hx y hy
    exact hcbd x hx y (.inl hy)
  · intro hcb
    refine ⟨ha, ⟨hc, ⟨hb, hd, fun y hy z hz => hbcd y hy z (.inr hz)⟩, ?_⟩, ?_⟩
    · rintro x hx y (hy | hy)
      · exact hcb x hx y hy
      · exact hcd x hx y hy
    · rintro x hx y (hy | hy | hy)
      · exact habcd x hx y (.inr (.inl hy))
      · exact habcd x hx y (.inl hy)
      · exact habcd x hx y (.inr (.inr hy))

lemma perm_exchange (a b c d : List α) : (a ++ (c ++ (b ++ d))).Perm (a ++ (b ++ (c ++ d))) := by
  apply List.Perm.append_left
  rw [← append_assoc, ← append_assoc]
  exact perm_append_comm.append_right d

lemma perm_append_last (a b c : List α) (x : α) :
    (a ++ b ++ (c ++ [x])).Perm (a ++ x :: b ++ c) := by
  have hfront : (a ++ x :: (b ++ c)).Perm (x :: (a ++ (b ++ c))) := perm_middle
  have hlast := perm_append_singleton x (a ++ (b ++ c))
  simpa using hlast.trans hfront.symm

lemma SameTurn.symm (h : SameTurn targeted x y) : SameTurn targeted y x :=
  ⟨h.2.1 ▸ h.1, h.2.1.symm, h.2.1 ▸ h.2.2⟩

/-- Tasks in order may be exchanged if they are not siblings. -/
lemma ahead_iff_of_ahead (h : Ahead targeted y x) :
    Ahead targeted x y ↔ ¬ SameTurn targeted y x := by
  constructor
  · intro hxy hsib
    exact lt_asymm (h hsib) (hxy hsib.symm)
  · intro hnot hsib
    exact absurd hsib.symm hnot

/-- More targets, fewer demands. -/
lemma Ahead.append (h : Ahead targeted x y) (targets : List Key) :
    Ahead (targeted ++ targets) x y := fun hsib =>
  h ⟨hsib.1, hsib.2.1, fun k hk => hsib.2.2 k (mem_append_left _ hk)⟩

/-- The targets of the call that is going on. -/
def DrainPhase.targets : DrainPhase → List Key
  | .idle => []
  | .emptying targets _ => targets
  | .refilling targets _ => targets

/-- The numbers that have been given out are below the next one, and a call keeps no target. -/
structure DrainInv (q : DrainQueue) : Prop where
  numbered : ∀ x ∈ q.submitted, x.number < q.submitted.length
  retained : ∀ x ∈ q.phase.retained, x.task.requestId ∉ q.phase.targets

lemma drainInv_step (h : DrainInv q) (hevent : DrainEvent q a q') : DrainInv q' := by
  have hretained := h.retained
  cases hevent with
  | submit t hidle =>
    refine ⟨fun x hx => ?_, h.retained⟩
    simp only [length_append, length_singleton]
    rcases mem_append.mp hx with hx | hx
    · exact Nat.lt_succ_of_lt (h.numbered x hx)
    · rw [mem_singleton.mp hx]
      exact Nat.lt_succ_self _
  | feed | lock | miss | dequeue | noTargets | remove => exact ⟨h.numbered, h.retained⟩
  | call targets hidle => exact ⟨h.numbered, by simp [DrainPhase.retained]⟩
  | retain hphase hpipe hlocked htarget =>
    rw [hphase] at hretained
    refine ⟨h.numbered, fun x hx => ?_⟩
    rcases mem_append.mp hx with hx | hx
    · exact hretained x hx
    · rwa [mem_singleton.mp hx]
  | stop hphase hend =>
    rw [hphase] at hretained
    exact ⟨h.numbered, hretained⟩
  | putBack hphase =>
    rw [hphase] at hretained
    exact ⟨h.numbered, fun x hx => hretained x (mem_cons_of_mem _ hx)⟩
  | done hphase => exact ⟨h.numbered, by simp [DrainPhase.retained]⟩

section

variable (h : DrainsCleanly q)
include h

/-- An event that keeps the line and the history keeps all but perhaps the targets gone. -/
lemma DrainsCleanly.of_line_eq (hline : q'.line = q.line) (hremoved : q'.removed = q.removed)
    (hsubmitted : q'.submitted = q.submitted) (htargeted : q'.targeted = q.targeted)
    (hgone : q'.TargetsGone) : DrainsCleanly q' := by
  obtain ⟨⟨hperm, honly⟩, -, horder⟩ := h
  refine ⟨⟨?_, ?_⟩, hgone, ?_⟩
  · rwa [hline, hremoved, hsubmitted]
  · rwa [hremoved]
  · rwa [hline, htargeted]

/-- A task that has just been submitted is the last of the line. -/
lemma DrainsCleanly.submit (hinv : DrainInv q) (hidle : q.phase = .idle)
    (t : StageTask) :
    DrainsCleanly { q with
      buffer := q.buffer ++ [⟨q.submitted.length, t⟩]
      submitted := q.submitted ++ [⟨q.submitted.length, t⟩] } := by
  obtain ⟨⟨hperm, honly⟩, -, horder⟩ := h
  have hline : q.line = q.dequeued ++ (q.pipe ++ q.buffer) := by
    simp [DrainQueue.line, hidle, DrainPhase.arrange]
  have hnew : DrainQueue.line { q with
      buffer := q.buffer ++ [⟨q.submitted.length, t⟩]
      submitted := q.submitted ++ [⟨q.submitted.length, t⟩] } =
      q.line ++ [⟨q.submitted.length, t⟩] := by
    rw [hline]
    simp [DrainQueue.line, hidle, DrainPhase.arrange]
  refine ⟨⟨?_, honly⟩, by simp [DrainQueue.TargetsGone, hidle], ?_⟩
  · rw [hnew]
    refine List.Perm.trans ?_ (hperm.append_right _)
    rw [append_assoc, append_assoc]
    exact List.Perm.append_left _ perm_append_comm
  · rw [hnew, pairwise_append]
    refine ⟨horder, pairwise_singleton _ _, fun x hx y hy _ => ?_⟩
    rw [mem_singleton.mp hy]
    exact hinv.numbered x (hperm.subset (mem_append_left _ hx))

/-- An event that moves tasks only within the queue. -/
lemma DrainsCleanly.of_queued_eq (hqueued : q'.pipe ++ q'.buffer = q.pipe ++ q.buffer)
    (hphase : q'.phase = q.phase) (hdequeued : q'.dequeued = q.dequeued)
    (hremoved : q'.removed = q.removed) (hsubmitted : q'.submitted = q.submitted)
    (htargeted : q'.targeted = q.targeted) :
    DrainsCleanly q' := by
  have hgone := h.2.1
  refine h.of_line_eq ?_ hremoved hsubmitted htargeted ?_
  · rw [DrainQueue.line, DrainQueue.line, hphase, hdequeued, hqueued]
  · rwa [DrainQueue.TargetsGone, hphase, hqueued]

lemma DrainsCleanly.dequeue (hpipe : q.pipe = x :: pipe)
    (hphase : ∀ targets retained, q.phase ≠ .emptying targets retained) :
    DrainsCleanly { q with locked := false, pipe := pipe, dequeued := q.dequeued ++ [x] } := by
  have hgone := h.2.1
  refine h.of_line_eq ?_ rfl rfl rfl ?_
  · cases hq : q.phase with
    | emptying targets retained => exact absurd hq (hphase targets retained)
    | idle | refilling targets retained =>
      simp [DrainQueue.line, DrainPhase.arrange, hq, hpipe]
  · cases hq : q.phase with
    | emptying targets retained => exact absurd hq (hphase targets retained)
    | idle => trivial
    | refilling targets retained =>
      simp only [DrainQueue.TargetsGone, hq, hpipe] at hgone ⊢
      exact fun y hy => hgone y (mem_cons_of_mem _ hy)

variable {targets : List Key}

/-- The worker takes a task while a call does so too. -/
lemma drainsCleanly_dequeue_iff (hpipe : q.pipe = x :: pipe)
    (hphase : q.phase = .emptying targets retained) :
    DrainsCleanly { q with locked := false, pipe := pipe, dequeued := q.dequeued ++ [x] } ↔
      ∀ y ∈ retained, ¬ SameTurn q.targeted y x := by
  obtain ⟨⟨hperm, honly⟩, -, horder⟩ := h
  have hline : q.line = q.dequeued ++ (retained ++ ([x] ++ (pipe ++ q.buffer))) := by
    simp [DrainQueue.line, DrainPhase.arrange, hphase, hpipe]
  have hnew : DrainQueue.line { q with
      locked := false, pipe := pipe, dequeued := q.dequeued ++ [x] } =
      q.dequeued ++ ([x] ++ (retained ++ (pipe ++ q.buffer))) := by
    simp [DrainQueue.line, DrainPhase.arrange, hphase]
  rw [hline] at horder hperm
  have hahead : ∀ y ∈ retained, Ahead q.targeted y x := fun y hy =>
    (pairwise_append.mp (pairwise_append.mp horder).2.1).2.2 y hy x (by simp)
  have hkept : DrainQueue.Kept { q with
      locked := false, pipe := pipe, dequeued := q.dequeued ++ [x] } := by
    refine ⟨?_, honly⟩
    rw [hnew]
    exact ((perm_exchange _ _ _ _).append_right _).trans hperm
  have hgone : DrainQueue.TargetsGone { q with
      locked := false, pipe := pipe, dequeued := q.dequeued ++ [x] } := by
    simp [DrainQueue.TargetsGone, hphase]
  rw [DrainsCleanly, hnew, pairwise_exchange horder]
  constructor
  · rintro ⟨-, -, hcross⟩ y hy
    exact (ahead_iff_of_ahead (hahead y hy)).mp (hcross x (by simp) y hy)
  · intro hnot
    refine ⟨hkept, hgone, fun z hz y hy => ?_⟩
    obtain rfl := mem_singleton.mp hz
    exact (ahead_iff_of_ahead (hahead y hy)).mpr (hnot y hy)

/-- A call drops a target. -/
lemma DrainsCleanly.remove (hphase : q.phase = .emptying targets retained)
    (hpipe : q.pipe = x :: pipe) (htarget : x.task.requestId ∈ targets) :
    DrainsCleanly { q with pipe := pipe, removed := q.removed ++ [(x, targets)] } := by
  obtain ⟨⟨hperm, honly⟩, -, horder⟩ := h
  have hline : q.line = (q.dequeued ++ retained) ++ x :: (pipe ++ q.buffer) := by
    simp [DrainQueue.line, DrainPhase.arrange, hphase, hpipe]
  have hnew : DrainQueue.line { q with
      pipe := pipe, removed := q.removed ++ [(x, targets)] } =
      (q.dequeued ++ retained) ++ (pipe ++ q.buffer) := by
    simp [DrainQueue.line, DrainPhase.arrange, hphase]
  refine ⟨⟨?_, fun e he => ?_⟩, by simp [DrainQueue.TargetsGone, hphase], ?_⟩
  · rw [hnew, map_append]
    rw [hline] at hperm
    refine List.Perm.trans ?_ hperm
    exact perm_append_last _ _ _ x
  · rcases mem_append.mp he with he | he
    · exact honly e he
    · rw [mem_singleton.mp he]
      exact htarget
  · rw [hnew]
    rw [hline] at horder
    exact horder.sublist ((sublist_cons_self _ _).append_left _)

/-- A call stops taking tasks, and what it has kept goes behind what is left in the queue. -/
lemma drainsCleanly_stop_iff (hphase : q.phase = .emptying targets retained) :
    DrainsCleanly { q with phase := .refilling targets retained } ↔
      ∀ x ∈ q.pipe ++ q.buffer,
        x.task.requestId ∉ targets ∧ ∀ y ∈ retained, ¬ SameTurn q.targeted y x := by
  obtain ⟨⟨hperm, honly⟩, -, horder⟩ := h
  have hline : q.line = q.dequeued ++ (retained ++ ((q.pipe ++ q.buffer) ++ [])) := by
    simp [DrainQueue.line, DrainPhase.arrange, hphase]
  have hnew : DrainQueue.line { q with phase := .refilling targets retained } =
      q.dequeued ++ ((q.pipe ++ q.buffer) ++ (retained ++ [])) := by
    simp [DrainQueue.line, DrainPhase.arrange]
  rw [hline] at horder hperm
  have hahead : ∀ x ∈ q.pipe ++ q.buffer, ∀ y ∈ retained, Ahead q.targeted y x :=
    fun x hx y hy => (pairwise_append.mp (pairwise_append.mp horder).2.1).2.2 y hy x
      (mem_append_left _ hx)
  have hkept : DrainQueue.Kept { q with phase := .refilling targets retained } := by
    refine ⟨?_, honly⟩
    rw [hnew]
    exact ((perm_exchange _ _ _ _).append_right _).trans hperm
  rw [DrainsCleanly, hnew, pairwise_exchange horder]
  constructor
  · rintro ⟨-, hgone, hcross⟩ x hx
    exact ⟨hgone x hx, fun y hy => (ahead_iff_of_ahead (hahead x hx y hy)).mp (hcross x hx y hy)⟩
  · intro hleft
    refine ⟨hkept, fun x hx => (hleft x hx).1, fun x hx y hy => ?_⟩
    exact (ahead_iff_of_ahead (hahead x hx y hy)).mpr ((hleft x hx).2 y hy)

end

/-- An event of a clean run is clean iff it is undisturbed. -/
lemma drainsCleanly_step_iff (hinv : DrainInv q) (h : DrainsCleanly q)
    (hevent : DrainEvent q a q') : DrainsCleanly q' ↔ DrainUndisturbed q a := by
  have hgone := h.2.1
  have hretained := hinv.retained
  cases hevent with
  | submit t hidle => exact iff_of_true (h.submit hinv hidle t) trivial
  | feed hbuffer =>
    refine iff_of_true (h.of_queued_eq ?_ rfl rfl rfl rfl rfl) trivial
    simp [hbuffer]
  | lock => exact iff_of_true (h.of_queued_eq rfl rfl rfl rfl rfl rfl) trivial
  | miss hpipe =>
    refine iff_of_true (h.of_queued_eq rfl rfl rfl rfl rfl rfl) ?_
    simp [DrainUndisturbed, hpipe]
  | dequeue hpipe =>
    by_cases hphase : ∃ targets retained, q.phase = .emptying targets retained
    · obtain ⟨targets, retained, hphase⟩ := hphase
      rw [drainsCleanly_dequeue_iff h hpipe hphase]
      simp [DrainUndisturbed, hphase, hpipe]
    · push Not at hphase
      refine iff_of_true (h.dequeue hpipe hphase) ?_
      simp only [DrainUndisturbed]
      split
      · exact absurd ‹_› (hphase _ _)
      · trivial
  | noTargets => exact iff_of_true h trivial
  | call targets hidle =>
    refine iff_of_true ⟨?_, trivial, ?_⟩ trivial
    · simpa [DrainQueue.Kept, DrainQueue.line, DrainPhase.arrange, hidle] using h.1
    · have horder := h.2.2
      simp only [DrainQueue.line, DrainPhase.arrange, hidle] at horder ⊢
      exact horder.imp fun hxy => hxy.append targets
  | remove hphase hpipe hlocked htarget =>
    refine iff_of_true (h.remove hphase hpipe htarget) ?_
    simp [DrainUndisturbed, hphase, hpipe, hlocked]
  | retain hphase hpipe hlocked htarget =>
    refine iff_of_true (h.of_line_eq ?_ rfl rfl rfl trivial) ?_
    · simp [DrainQueue.line, DrainPhase.arrange, hphase, hpipe]
    · simp [DrainUndisturbed, hphase, hpipe, hlocked]
  | stop hphase hend =>
    rw [drainsCleanly_stop_iff h hphase]
    simp only [DrainUndisturbed, hphase]
    exact ⟨fun hleft _ => hleft, fun hleft => hleft hend⟩
  | putBack hphase =>
    refine iff_of_true (h.of_line_eq ?_ rfl rfl rfl ?_) trivial
    · simp [DrainQueue.line, DrainPhase.arrange, hphase]
    · simp only [DrainQueue.TargetsGone, hphase] at hgone ⊢
      rw [hphase] at hretained
      intro y hy
      rw [← append_assoc] at hy
      rcases mem_append.mp hy with hy | hy
      · exact hgone y hy
      · rw [mem_singleton.mp hy]
        exact hretained _ mem_cons_self
  | done hphase =>
    refine iff_of_true (h.of_line_eq ?_ rfl rfl rfl trivial) trivial
    simp [DrainQueue.line, DrainPhase.arrange, hphase]

/-- In every run of the queue, every call does what it should in every state iff no event disturbs
one. -/
theorem drains_cleanly_iff_undisturbed {acts : List DrainAct}
    (hrun : run drainStep {} acts = some q) :
    EveryState drainStep DrainsCleanly {} acts ↔ AllSteps drainStep DrainUndisturbed {} acts := by
  have hinit : DrainInv {} := ⟨by simp, by simp [DrainPhase.retained]⟩
  have hclean : DrainsCleanly {} :=
    ⟨⟨List.Perm.refl _, by simp⟩, trivial, List.Pairwise.nil⟩
  exact everyState_iff_allSteps (I := DrainInv)
    (fun _ _ _ h _ hstep => drainInv_step h (drainEvent_of_step hstep))
    (fun _ _ _ h hq hstep => drainsCleanly_step_iff h hq (drainEvent_of_step hstep)) hinit hclean
    (allSteps_of_forall_mem (p := fun _ => True) (by simp)) hrun

instance (targeted : List Key) : DecidableRel (Ahead targeted) := fun x y =>
  inferInstanceAs (Decidable (SameTurn targeted x y → x.number < y.number))

instance : DecidablePred DrainQueue.TargetsGone := fun a => by
  unfold DrainQueue.TargetsGone
  split <;> infer_instance

instance : DecidablePred DrainsCleanly := fun q =>
  inferInstanceAs (Decidable (((q.line ++ q.removed.map Prod.fst).Perm q.submitted ∧
    ∀ e ∈ q.removed, e.1.task.requestId ∈ e.2) ∧ q.TargetsGone ∧
      q.line.Pairwise (Ahead q.targeted)))

instance (q : DrainQueue) : DecidablePred (DrainUndisturbed q) := fun a => by
  unfold DrainUndisturbed
  repeat' split
  all_goals infer_instance

/-- The tasks of the line by the places where they are. -/
lemma count_line (q : DrainQueue) (x : QueuedTask) :
    q.line.count x =
      q.dequeued.count x + (q.pipe.count x + q.buffer.count x) + q.phase.retained.count x := by
  unfold DrainQueue.line
  cases q.phase with
  | idle => simp [DrainPhase.arrange, DrainPhase.retained]
  | _ =>
    simp only [DrainPhase.arrange, DrainPhase.retained, count_append]
    omega

/-- Whatever happens during the calls, no task is lost or duplicated, and only targets are
removed. -/
theorem drain_keeps_tasks (acts : List DrainAct) :
    EveryState drainStep DrainQueue.Kept {} acts := by
  refine everyState_of_invariant (fun q a q' h hstep => ?_) (fun _ h => h) ⟨.nil, nofun⟩
  obtain ⟨hperm, honly⟩ := h
  have hevent := drainEvent_of_step hstep
  refine ⟨perm_iff_count.mpr fun x => ?_, ?_⟩
  · -- an event takes a task from one place to another, or adds one to both sides
    have hcount := hperm.count_eq x
    rw [count_append, count_line] at hcount ⊢
    cases hevent <;> simp_all [DrainPhase.retained, count_cons] <;> omega
  · cases hevent with
    | remove _ _ _ htarget => exact forall_mem_append.mpr ⟨honly, by simpa using htarget⟩
    | _ => exact honly

/-! ## A stop in one turn while another is relayed -/

/-- A request of the turn that stops. -/
def stoppedRequest : Key := stage1Key someTurn.text 1

/-- A request of another turn. -/
def relayedRequest (k : ℕ) : StageTask := .generate (stage1Key foreignTurn.text k)

/-- Two tasks of another turn and a target are in the pipe when the call begins. -/
def drainStart : List DrainAct :=
  [.submit (relayedRequest 0), .submit (relayedRequest 1), .submit (.generate stoppedRequest),
    .feed, .feed, .feed, .call [stoppedRequest], .scan]

/-- The worker takes nothing until the call is over. -/
def drainAloneRun : List DrainAct :=
  drainStart ++ [.scan, .scan, .scan, .putBack, .putBack, .putBack, .feed, .feed, .lock, .dequeue,
    .lock, .dequeue]

/-- The other turn keeps its order. -/
theorem drains_cleanly_drainAloneRun : EveryState drainStep DrainsCleanly {} drainAloneRun := by
  obtain ⟨q, hrun⟩ : ∃ q, run drainStep {} drainAloneRun = some q :=
    Option.isSome_iff_exists.mp (by decide +kernel)
  exact (drains_cleanly_iff_undisturbed hrun).mpr (by decide +kernel)

/-- The worker takes a task between two iterations of the first loop. -/
def drainRaceRun : List DrainAct :=
  drainStart ++ [.lock, .dequeue, .scan, .scan, .putBack, .putBack, .feed, .lock, .dequeue]

/-- The target is submitted just before the call and still in the buffer. -/
def drainEarlyRun : List DrainAct :=
  [.submit (.generate stoppedRequest), .call [stoppedRequest], .scan, .putBack]

/-- In the first run the other turn's tasks come in the wrong order, in the second the target
stays. -/
theorem drain_not_clean :
    (∃ q, run drainStep {} drainRaceRun = some q ∧
      q.dequeued = [⟨1, relayedRequest 1⟩, ⟨0, relayedRequest 0⟩] ∧ ¬ DrainsCleanly q) ∧
    (∃ q, run drainStep {} drainEarlyRun = some q ∧ q.phase = .idle ∧ q.removed = [] ∧
      q.buffer = [⟨0, .generate stoppedRequest⟩]) ∧
    ¬ EveryState drainStep DrainsCleanly {} drainEarlyRun :=
  ⟨exists_reached (by decide +kernel), exists_reached (by decide +kernel), by decide +kernel⟩

end OmniStreaming
