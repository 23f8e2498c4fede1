import Mathlib.Algebra.Order.Ring.Int
import Mathlib.Data.List.Nodup
import OmniStreaming.Lib.Transition

/-!
# The scheduler of the generation stages: `OmniGenerationScheduler`

A request of a generation stage is to be run in one step: the fast path of `schedule` admits
requests from the front of the waiting queue, each with its whole prompt, and `update_from_output`
finishes every request that was scheduled. If the fast path admits nothing, `schedule` falls back to
the scheduler of vLLM, which first goes on with the running requests, preempting the last ones when
blocks are missing, and then admits waiting requests with as many tokens as the budget allows.

The engine may call `schedule` again before the output of an earlier step has come back, and
requests arrive and are aborted at any time. The `k`-th call of `allocate_slots` in a round is
answered by `alloc k`. The ids in the order of their arrival and the chunks scheduled so far are
history variables.
-/

namespace OmniStreaming

open List Transition

variable {ι : Type*}

/-! ## Requests -/

/-- The settings of the stage that the scheduler reads. -/
structure GenerationConfig where
  maxNumScheduledTokens : ℕ
  maxNumRunningReqs : ℕ
  maxModelLen : ℕ
  longPrefillTokenThreshold : ℕ := 0
  enableChunkedPrefill : Bool := true

/-- The status of an unfinished request. -/
inductive UnfinishedStatus
  | waiting
  | running
  | preempted
  deriving Repr, DecidableEq

/-- An unfinished request. No token is appended to it, so its tokens are those of its prompt. -/
structure GenerationRequest (ι : Type*) where
  requestId : ι
  numPromptTokens : ℕ
  numComputedTokens : ℤ := 0
  status : UnfinishedStatus := .waiting
  deriving Repr, DecidableEq

/-- What the scheduler output says about a scheduled request. -/
structure ScheduledChunk (ι : Type*) where
  requestId : ι
  numComputedTokens : ℤ
  numScheduledTokens : ℤ
  deriving Repr, DecidableEq

namespace GenerationRequest

/-- The chunk of the next `n` tokens. -/
def chunk (r : GenerationRequest ι) (n : ℤ) : ScheduledChunk ι where
  requestId := r.requestId
  numComputedTokens := r.numComputedTokens
  numScheduledTokens := n

/-- The request is admitted. -/
def start (r : GenerationRequest ι) : GenerationRequest ι := { r with status := .running }

/-- `_preempt_request`, but for the queue. -/
def preempt (r : GenerationRequest ι) : GenerationRequest ι :=
  { r with status := .preempted, numComputedTokens := 0 }

/-- `_update_after_schedule` for one request. -/
def advance [DecidableEq ι] (scheduled : List (ScheduledChunk ι)) (r : GenerationRequest ι) :
    GenerationRequest ι :=
  match scheduled.find? (·.requestId = r.requestId) with
  | some c => { r with numComputedTokens := r.numComputedTokens + c.numScheduledTokens }
  | none => r

end GenerationRequest

structure GenerationScheduler (ι : Type*) where
  waiting : List (GenerationRequest ι) := []
  running : List (GenerationRequest ι) := []
  /-- The scheduler outputs that have not come back. -/
  inFlight : List (List (ScheduledChunk ι)) := []
  arrived : List ι := []
  chunks : List (ScheduledChunk ι) := []

/-! ## The fast path -/

/-- The queues of a loop that admits requests, what it has scheduled, and the calls of
`allocate_slots`. -/
structure Admission (ι : Type*) where
  running : List (GenerationRequest ι)
  waiting : List (GenerationRequest ι)
  scheduled : List (ScheduledChunk ι) := []
  calls : ℕ

/-- The loop of the fast path. -/
def fastLoop (cfg : GenerationConfig) (alloc : ℕ → Bool) :
    List (GenerationRequest ι) → List (GenerationRequest ι) → ℤ → ℕ → Admission ι
  | running, [], _, k => { running := running, waiting := [], calls := k }
  | running, r :: rest, budget, k =>
    if 0 < budget ∧ running.length < cfg.maxNumRunningReqs then
      let requiredTokens : ℤ := max r.numPromptTokens 1
      if requiredTokens > budget then { running := running, waiting := r :: rest, calls := k }
      else if alloc k then
        let a := fastLoop cfg alloc (running ++ [r.start]) rest (budget - requiredTokens) (k + 1)
        { a with scheduled := r.chunk requiredTokens :: a.scheduled }
      else { running := running, waiting := r :: rest, calls := k + 1 }
    else { running := running, waiting := r :: rest, calls := k }

/-! ## The scheduler of vLLM -/

/-- The number of tokens for a running request. -/
def runningTokens (cfg : GenerationConfig) (budget : ℤ) (r : GenerationRequest ι) : ℤ :=
  let n : ℤ := r.numPromptTokens - r.numComputedTokens
  let n :=
    if 0 < cfg.longPrefillTokenThreshold ∧ cfg.longPrefillTokenThreshold < n then
      (cfg.longPrefillTokenThreshold : ℤ)
    else n
  min (min n budget) (cfg.maxModelLen - 1 - r.numComputedTokens)

/-- What the loop around `allocate_slots` comes to: whether there are blocks, the requests left
behind, the waiting queue and the number of calls. -/
structure Room (ι : Type*) where
  found : Bool
  behind : List (GenerationRequest ι)
  waiting : List (GenerationRequest ι)
  calls : ℕ

/-- The loop around `allocate_slots`, with the requests behind in reverse: the last is preempted
until there are blocks. -/
def popLoop (alloc : ℕ → Bool) :
    List (GenerationRequest ι) → List (GenerationRequest ι) → ℕ → Room ι
  | [], waiting, k => { found := alloc k, behind := [], waiting := waiting, calls := k + 1 }
  | p :: back, waiting, k =>
    if alloc k then { found := true, behind := p :: back, waiting := waiting, calls := k + 1 }
    else popLoop alloc back (p.preempt :: waiting) (k + 1)

/-- The blocks for a running request. -/
def makeRoom (alloc : ℕ → Bool) (rest waiting : List (GenerationRequest ι)) (k : ℕ) : Room ι :=
  let room := popLoop alloc rest.reverse waiting k
  { room with behind := room.behind.reverse }

/-- The requests are preempted from the back. -/
lemma popLoop_eq (alloc : ℕ → Bool) (back waiting : List (GenerationRequest ι)) (k : ℕ) :
    ∃ put, back = put ++ (popLoop alloc back waiting k).behind ∧
      (popLoop alloc back waiting k).waiting =
        put.reverse.map GenerationRequest.preempt ++ waiting ∧
      ((popLoop alloc back waiting k).found = false →
        (popLoop alloc back waiting k).behind = []) := by
  induction back generalizing waiting k with
  | nil => exact ⟨[], rfl, rfl, fun _ => rfl⟩
  | cons p back ih =>
    rw [popLoop]
    split
    · exact ⟨[], rfl, rfl, fun h => by cases h⟩
    · obtain ⟨put, hback, hwaiting, hfail⟩ := ih (p.preempt :: waiting) (k + 1)
      refine ⟨p :: put, congrArg _ hback, ?_, hfail⟩
      rw [hwaiting, reverse_cons, map_append, append_assoc]
      rfl

/-- The requests at the end go to the front of the waiting queue, in their order. -/
lemma makeRoom_eq (alloc : ℕ → Bool) (rest waiting : List (GenerationRequest ι)) (k : ℕ) :
    ∃ put, rest = (makeRoom alloc rest waiting k).behind ++ put ∧
      (makeRoom alloc rest waiting k).waiting = put.map GenerationRequest.preempt ++ waiting ∧
      ((makeRoom alloc rest waiting k).found = false →
        (makeRoom alloc rest waiting k).behind = []) := by
  obtain ⟨put, hback, hwaiting, hfail⟩ := popLoop_eq alloc rest.reverse waiting k
  refine ⟨put.reverse, ?_, hwaiting, fun h => reverse_eq_nil_iff.mpr (hfail h)⟩
  have hrest := congrArg reverse hback
  rwa [reverse_reverse, reverse_append] at hrest

/-- No request joins those behind. -/
lemma length_makeRoom_le (alloc : ℕ → Bool) (rest waiting : List (GenerationRequest ι)) (k : ℕ) :
    (makeRoom alloc rest waiting k).behind.length ≤ rest.length := by
  obtain ⟨put, hrest, -⟩ := makeRoom_eq alloc rest waiting k
  have hlen := congrArg length hrest
  rw [length_append] at hlen
  exact hlen ▸ Nat.le_add_right _ _

/-- The queues behind the loop over the running requests, and whether a request was preempted. -/
structure RunPass (ι : Type*) extends Admission ι where
  budget : ℤ
  preempted : Bool := false

/-- The loop over the running requests, of which `running` have been visited. -/
def runLoop (cfg : GenerationConfig) (alloc : ℕ → Bool)
    (running todo waiting : List (GenerationRequest ι)) (budget : ℤ) (k : ℕ) : RunPass ι :=
  match todo with
  | [] => { running := running, waiting := waiting, calls := k, budget := budget }
  | r :: rest =>
    if budget ≤ 0 then
      { running := running ++ r :: rest, waiting := waiting, calls := k, budget := budget }
    else
      let n := runningTokens cfg budget r
      if n = 0 then runLoop cfg alloc (running ++ [r]) rest waiting budget k
      else
        let room := makeRoom alloc rest waiting k
        if room.found then
          let pass := runLoop cfg alloc (running ++ [r]) room.behind room.waiting (budget - n)
            room.calls
          { pass with
            scheduled := r.chunk n :: pass.scheduled
            preempted := pass.preempted || room.behind.length < rest.length }
        else
          { running := running, waiting := r.preempt :: room.waiting, calls := room.calls
            budget := budget, preempted := true }
termination_by todo.length
decreasing_by
  · exact Nat.lt_succ_self _
  · exact Nat.lt_succ_of_le (length_makeRoom_le alloc rest waiting k)

/-- The number of tokens for a waiting request; no value where a prompt must not be split. -/
def waitingTokens (cfg : GenerationConfig) (budget : ℤ) (r : GenerationRequest ι) : Option ℤ :=
  let n : ℤ := r.numPromptTokens - r.numComputedTokens
  let n :=
    if 0 < cfg.longPrefillTokenThreshold ∧ cfg.longPrefillTokenThreshold < n then
      (cfg.longPrefillTokenThreshold : ℤ)
    else n
  if cfg.enableChunkedPrefill = false ∧ n > budget then none else some (min n budget)

/-- The loop over the waiting requests; no value if its assertion fails. -/
def waitLoop (cfg : GenerationConfig) (alloc : ℕ → Bool) :
    List (GenerationRequest ι) → List (GenerationRequest ι) → ℤ → ℕ → Option (Admission ι)
  | running, [], _, k => some { running := running, waiting := [], calls := k }
  | running, r :: rest, budget, k =>
    if 0 < budget ∧ running.length ≠ cfg.maxNumRunningReqs then
      match waitingTokens cfg budget r with
      | none => some { running := running, waiting := r :: rest, calls := k }
      | some n =>
        if n ≤ 0 then none
        else if alloc k then
          (waitLoop cfg alloc (running ++ [r.start]) rest (budget - n) (k + 1)).map fun a =>
            { a with scheduled := r.chunk n :: a.scheduled }
        else some { running := running, waiting := r :: rest, calls := k + 1 }
    else some { running := running, waiting := r :: rest, calls := k }

namespace GenerationScheduler

section Scheduling

variable [DecidableEq ι] (s : GenerationScheduler ι)

/-- The scheduler output, and `_update_after_schedule`. Only running requests are scheduled. -/
def afterSchedule (running waiting : List (GenerationRequest ι))
    (scheduled : List (ScheduledChunk ι)) : GenerationScheduler ι :=
  { s with
    running := running.map (GenerationRequest.advance scheduled)
    waiting := waiting
    inFlight := s.inFlight ++ [scheduled]
    chunks := s.chunks ++ scheduled }

/-- `schedule` of vLLM, with `k` calls of `allocate_slots` before it. -/
def baseSchedule (cfg : GenerationConfig) (alloc : ℕ → Bool) (k : ℕ) (s : GenerationScheduler ι) :
    Option (GenerationScheduler ι) :=
  let pass := runLoop cfg alloc [] s.running s.waiting cfg.maxNumScheduledTokens k
  if pass.preempted then some (s.afterSchedule pass.running pass.waiting pass.scheduled)
  else
    (waitLoop cfg alloc pass.running pass.waiting pass.budget pass.calls).map fun a =>
      s.afterSchedule a.running a.waiting (pass.scheduled ++ a.scheduled)

/-- The fast path of a round. -/
def fastPath (cfg : GenerationConfig) (alloc : ℕ → Bool) (s : GenerationScheduler ι) :
    Admission ι :=
  fastLoop cfg alloc s.running s.waiting cfg.maxNumScheduledTokens 0

/-- `schedule`; no value if an assertion fails. -/
def schedule (cfg : GenerationConfig) (alloc : ℕ → Bool) (s : GenerationScheduler ι) :
    Option (GenerationScheduler ι) :=
  let fast := s.fastPath cfg alloc
  if fast.scheduled = [] then
    baseSchedule cfg alloc fast.calls { s with running := fast.running, waiting := fast.waiting }
  else some (s.afterSchedule fast.running fast.waiting fast.scheduled)

/-! ## `update_from_output` -/

/-- A request is scheduled in an output. -/
def isScheduledIn (out : List (ScheduledChunk ι)) (r : GenerationRequest ι) : Bool :=
  out.any fun c => c.requestId = r.requestId

/-- Take requests out of the queue that their status tells. -/
def remove (p : GenerationRequest ι → Bool) : GenerationScheduler ι :=
  { s with
    running := s.running.filter fun r => !(p r && r.status = .running)
    waiting := s.waiting.filter fun r => !(p r && r.status ≠ .running) }

/-- `update_from_output` for the oldest output: every request in it that is still known is finished
and reported. No value if there is no output or an assertion fails. -/
def updateFromOutput : Option (GenerationScheduler ι × List (GenerationRequest ι)) :=
  match s.inFlight with
  | [] => none
  | out :: rest =>
    if out.all fun c => 0 < c.numScheduledTokens then
      some ({ s.remove (isScheduledIn out) with inFlight := rest },
        (s.running ++ s.waiting).filter (isScheduledIn out))
    else none

/-- What may happen: a request arrives or is aborted, or the engine calls the scheduler. -/
inductive Act (ι : Type*)
  | addRequest (requestId : ι) (numPromptTokens : ℕ)
  | abort (requestId : ι)
  | schedule (alloc : ℕ → Bool)
  | update

/-- One step. The id of a request is not used twice. -/
def step (cfg : GenerationConfig) (s : GenerationScheduler ι) :
    Act ι → Option (GenerationScheduler ι)
  | .addRequest id n =>
    if id ∈ s.arrived then none
    else
      some { s with
        waiting := s.waiting ++ [{ requestId := id, numPromptTokens := n }]
        arrived := s.arrived ++ [id] }
  | .abort id => some (s.remove fun r => r.requestId = id)
  | .schedule alloc => s.schedule cfg alloc
  | .update => s.updateFromOutput.map Prod.fst

/-! ## What the scheduler is for -/

/-- The ids of requests. -/
def ids (rs : List (GenerationRequest ι)) : List ι := rs.map GenerationRequest.requestId

/-- The token at a place of the prompt of a request has been scheduled. -/
def Covers (chunks : List (ScheduledChunk ι)) (id : ι) (p : ℕ) : Prop :=
  ∃ c ∈ chunks, c.requestId = id ∧ c.numComputedTokens ≤ p ∧
    p < c.numComputedTokens + c.numScheduledTokens

/-- A fast path that admits nothing changes nothing, the requests keep the order of their arrival,
and the budget is kept. -/
structure ScheduleRight (cfg : GenerationConfig) (alloc : ℕ → Bool)
    (s s' : GenerationScheduler ι) : Prop where
  fallback : (s.fastPath cfg alloc).scheduled = [] →
    (s.fastPath cfg alloc).running = s.running ∧ (s.fastPath cfg alloc).waiting = s.waiting
  kept : ids (s'.running ++ s'.waiting) = ids (s.running ++ s.waiting)
  order : (ids (s'.running ++ s'.waiting)).Sublist s'.arrived
  fifo : ∀ x y, x ∈ ids s.waiting → x ∈ ids s'.running → y ∈ ids s'.waiting →
    [x, y].Sublist s'.arrived
  budget : ∃ out, s'.inFlight = s.inFlight ++ [out] ∧
    (out.map ScheduledChunk.numScheduledTokens).sum ≤ (cfg.maxNumScheduledTokens : ℤ)

/-- The next round is right, and the next update reports a request finished only if its whole prompt
has been scheduled. -/
structure NextRight (cfg : GenerationConfig) (s : GenerationScheduler ι) : Prop where
  schedule : ∀ alloc s', s.schedule cfg alloc = some s' → ScheduleRight cfg alloc s s'
  finished : ∀ u ∈ s.updateFromOutput, ∀ r ∈ u.2, ∀ p < r.numPromptTokens,
    Covers s.chunks r.requestId p

/-- Nothing outside gives cause to split a prompt: a prompt is not empty and fits the budget and the
model, and `allocate_slots` refuses the fallback what it has refused the fast path. -/
def Fits (cfg : GenerationConfig) : Act ι → Prop
  | .addRequest _ n => 0 < n ∧ n ≤ cfg.maxNumScheduledTokens ∧ n < cfg.maxModelLen
  | .schedule alloc => alloc 0 = false → alloc 1 = false
  | .abort _ | .update => True

end Scheduling

/-! ## What the loops do -/

section Loops

variable {cfg : GenerationConfig} {alloc : ℕ → Bool} {running waiting : List (GenerationRequest ι)}
  {budget : ℤ}

lemma ids_append (xs ys : List (GenerationRequest ι)) : ids (xs ++ ys) = ids xs ++ ids ys :=
  map_append

/-- The ids of requests with the lengths of their prompts. -/
def prompts (rs : List (GenerationRequest ι)) : List (ι × ℕ) :=
  rs.map fun r => (r.requestId, r.numPromptTokens)

lemma prompts_append (xs ys : List (GenerationRequest ι)) :
    prompts (xs ++ ys) = prompts xs ++ prompts ys :=
  map_append

lemma map_fst_prompts (rs : List (GenerationRequest ι)) : (prompts rs).map Prod.fst = ids rs := by
  rw [prompts, map_map]
  rfl

/-- The number of tokens in an output. -/
def total (scheduled : List (ScheduledChunk ι)) : ℤ :=
  (scheduled.map ScheduledChunk.numScheduledTokens).sum

/-- Requests from the front of the waiting queue are admitted within the budget, with tokens as
`tokens` says. -/
def Admits (tokens : GenerationRequest ι → ℤ → Prop) (running waiting : List (GenerationRequest ι))
    (budget : ℤ) (a : Admission ι) : Prop :=
  ∃ taken : List (GenerationRequest ι × ℤ), waiting = taken.map Prod.fst ++ a.waiting ∧
    a.running = running ++ taken.map (fun x => x.1.start) ∧
    a.scheduled = taken.map (fun x => x.1.start.chunk x.2) ∧ (taken.map Prod.snd).sum ≤ budget ∧
    ∀ x ∈ taken, tokens x.1 x.2

variable {tokens : GenerationRequest ι → ℤ → Prop}

/-- A loop that stops at once. -/
lemma admits_none (h : 0 ≤ budget) (k : ℕ) :
    Admits tokens running waiting budget { running := running, waiting := waiting, calls := k } :=
  ⟨[], rfl, (append_nil running).symm, rfl, h, nofun⟩

/-- One more request is admitted. -/
lemma Admits.cons {r : GenerationRequest ι} {n : ℤ} {a : Admission ι} (hn : tokens r n)
    (h : Admits tokens (running ++ [r.start]) waiting (budget - n) a) :
    Admits tokens running (r :: waiting) budget
      { a with scheduled := r.chunk n :: a.scheduled } := by
  obtain ⟨taken, hwaiting, hrunning, hscheduled, hsum, htokens⟩ := h
  refine ⟨(r, n) :: taken, congrArg _ hwaiting, ?_, congrArg _ hscheduled, ?_,
    forall_mem_cons.mpr ⟨hn, htokens⟩⟩
  · rw [hrunning, append_assoc]
    rfl
  · rw [map_cons, sum_cons]
    exact le_sub_iff_add_le'.mp hsum

/-- The fast path admits whole prompts. -/
lemma fastLoop_admits (h : 0 ≤ budget) (k : ℕ) :
    Admits (fun r n => n = max (r.numPromptTokens : ℤ) 1) running waiting budget
      (fastLoop cfg alloc running waiting budget k) := by
  induction waiting generalizing running budget k with
  | nil => exact admits_none h k
  | cons r rest ih =>
    rw [fastLoop]
    split
    · dsimp only
      split
      · exact admits_none h k
      · next hfits =>
        split
        · exact (ih (sub_nonneg.mpr (not_lt.mp hfits)) (k + 1)).cons rfl
        · exact admits_none h (k + 1)
    · exact admits_none h k

/-- The fast path admits nothing only for want of requests, budget, place or blocks, or if the first
prompt is too long. -/
lemma fastLoop_none {k : ℕ}
    (h : (fastLoop cfg alloc running waiting budget k).scheduled = []) :
    waiting = [] ∨ budget ≤ 0 ∨ cfg.maxNumRunningReqs ≤ running.length ∨
      (∃ r ∈ waiting, budget < max (r.numPromptTokens : ℤ) 1) ∨
      (alloc k = false ∧ (fastLoop cfg alloc running waiting budget k).calls = k + 1) := by
  cases waiting with
  | nil => exact .inl rfl
  | cons r rest =>
    rw [fastLoop] at h ⊢
    split at h
    · next hgo =>
      rw [if_pos hgo]
      dsimp only at h ⊢
      split at h
      · next hlong => exact .inr (.inr (.inr (.inl ⟨r, mem_cons_self, hlong⟩)))
      · next hfits =>
        rw [if_neg hfits]
        split at h
        · cases h
        · next halloc =>
          rw [if_neg halloc]
          exact .inr (.inr (.inr (.inr ⟨Bool.eq_false_iff.mpr halloc, rfl⟩)))
    · omega

/-- The fast path keeps the limit of running requests. -/
lemma length_fastLoop_le (h : running.length ≤ cfg.maxNumRunningReqs) (k : ℕ) :
    (fastLoop cfg alloc running waiting budget k).running.length ≤ cfg.maxNumRunningReqs := by
  induction waiting generalizing running budget k with
  | nil => exact h
  | cons r rest ih =>
    rw [fastLoop]
    grind

/-- No request gets more than the budget. -/
lemma waitingTokens_le {r : GenerationRequest ι} {n : ℤ}
    (hn : waitingTokens cfg budget r = some n) : n ≤ budget := by
  unfold waitingTokens at hn
  extract_lets m m' at hn
  by_cases hsplit : cfg.enableChunkedPrefill = false ∧ m' > budget
  · rw [if_pos hsplit] at hn
    cases hn
  · rw [if_neg hsplit] at hn
    exact Option.some.inj hn ▸ min_le_right _ _

/-- The loop over the waiting requests admits from the front. -/
lemma waitLoop_admits (h : 0 ≤ budget) {k : ℕ} {a : Admission ι}
    (ha : waitLoop cfg alloc running waiting budget k = some a) :
    Admits (fun _ _ => True) running waiting budget a := by
  induction waiting generalizing running budget k a with
  | nil =>
    cases ha
    exact admits_none h k
  | cons r rest ih =>
    rw [waitLoop] at ha
    split at ha
    · split at ha
      · cases ha
        exact admits_none h k
      · next n hn =>
        split at ha
        · cases ha
        split at ha
        · obtain ⟨a', ha', rfl⟩ := Option.map_eq_some_iff.mp ha
          exact (ih (sub_nonneg.mpr (waitingTokens_le hn)) ha').cons trivial
        · cases ha
          exact admits_none h (k + 1)
    · cases ha
      exact admits_none h k

/-- The loop over the waiting requests admits nothing for want of requests, place, budget or
blocks. -/
lemma waitLoop_none {k : ℕ} {a : Admission ι}
    (ha : waitLoop cfg alloc running waiting budget k = some a)
    (h : waiting = [] ∨ budget ≤ 0 ∨ running.length = cfg.maxNumRunningReqs ∨ alloc k = false) :
    a.scheduled = [] := by
  cases waiting with
  | nil => exact Option.some.inj ha ▸ rfl
  | cons r rest =>
    rw [waitLoop] at ha
    split at ha
    · next hgo =>
      split at ha
      · exact Option.some.inj ha ▸ rfl
      · split at ha
        · cases ha
        · split at ha
          · next halloc => simp [halloc, hgo.2, not_le.mpr hgo.1] at h
          · exact Option.some.inj ha ▸ rfl
    · exact Option.some.inj ha ▸ rfl

/-- Admitting keeps the requests and their order. -/
lemma Admits.prompts_eq {a : Admission ι} (h : Admits tokens running waiting budget a) :
    prompts (a.running ++ a.waiting) = prompts (running ++ waiting) := by
  obtain ⟨taken, rfl, hrunning, -⟩ := h
  have hstart : prompts (taken.map fun x => x.1.start) = prompts (taken.map Prod.fst) := by
    simp only [prompts, map_map]
    rfl
  simp only [hrunning, prompts_append, hstart, append_assoc]

/-- The requests left waiting were waiting before. -/
lemma Admits.waiting_subset {a : Admission ι} (h : Admits tokens running waiting budget a) :
    a.waiting ⊆ waiting := by
  obtain ⟨taken, rfl, -⟩ := h
  exact subset_append_right _ _

/-- The scheduled tokens fit the budget. -/
lemma Admits.total_le {a : Admission ι} (h : Admits tokens running waiting budget a) :
    total a.scheduled ≤ budget := by
  obtain ⟨taken, -, -, hscheduled, hsum, -⟩ := h
  rw [hscheduled, total, map_map]
  exact hsum

/-- The running requests at the end are preempted to the front of the waiting queue, and the others
scheduled within the budget. -/
def Passes (running todo waiting : List (GenerationRequest ι)) (budget : ℤ) (p : RunPass ι) :
    Prop :=
  ∃ kept put : List (GenerationRequest ι), todo = kept ++ put ∧ p.running = running ++ kept ∧
    p.waiting = put.map GenerationRequest.preempt ++ waiting ∧
    total p.scheduled + p.budget = budget ∧ 0 ≤ p.budget

/-- The loop over the running requests preempts from the end. -/
lemma runLoop_passes (cfg : GenerationConfig) (alloc : ℕ → Bool)
    (running todo waiting : List (GenerationRequest ι)) (h : 0 ≤ budget) (k : ℕ) :
    Passes running todo waiting budget (runLoop cfg alloc running todo waiting budget k) := by
  fun_induction runLoop cfg alloc running todo waiting budget k with
  | case1 running waiting budget k =>
    exact ⟨[], [], rfl, (append_nil running).symm, rfl, zero_add _, h⟩
  | case2 running waiting budget k r rest hbudget =>
    exact ⟨r :: rest, [], (append_nil _).symm, rfl, rfl, zero_add _, h⟩
  | case3 running waiting budget k r rest hbudget n hn ih =>
    obtain ⟨kept, put, htodo, hrunning, hwaiting, hsum⟩ := ih h
    refine ⟨r :: kept, put, congrArg _ htodo, ?_, hwaiting, hsum⟩
    rw [hrunning, append_assoc]
    rfl
  | case4 running waiting budget k r rest hbudget n hn room hfound pass ih =>
    have hle : n ≤ budget := (min_le_left _ _).trans (min_le_right _ _)
    obtain ⟨kept, put, htodo, hrunning, hwaiting, hsum, hnonneg⟩ := ih (sub_nonneg.mpr hle)
    obtain ⟨popped, hrest, hroom, -⟩ := makeRoom_eq alloc rest waiting k
    refine ⟨r :: kept, put ++ popped, ?_, ?_, ?_, ?_, hnonneg⟩
    · rw [hrest, cons_append, ← append_assoc, ← htodo]
    · rw [hrunning, append_assoc]
      rfl
    · rw [hwaiting, hroom, map_append, append_assoc]
    · rw [total, map_cons, sum_cons, add_assoc, ← total, hsum]
      exact add_sub_cancel n budget
  | case5 running waiting budget k r rest hbudget n hn room hfound =>
    obtain ⟨popped, hrest, hroom, hfail⟩ := makeRoom_eq alloc rest waiting k
    rw [hfail (Bool.eq_false_iff.mpr hfound), nil_append] at hrest
    refine ⟨[], r :: rest, rfl, (append_nil running).symm, ?_, zero_add _, h⟩
    rw [← hrest] at hroom
    exact congrArg _ hroom

/-- Preempting keeps the requests and their order. -/
lemma Passes.prompts_eq {p : RunPass ι} (h : Passes [] running waiting budget p) :
    prompts (p.running ++ p.waiting) = prompts (running ++ waiting) := by
  obtain ⟨kept, put, rfl, hrunning, hwaiting, -⟩ := h
  have hput : prompts (put.map GenerationRequest.preempt) = prompts put := by
    simp only [prompts, map_map]
    rfl
  simp only [hrunning, hwaiting, nil_append, prompts_append, hput, append_assoc]

/-- A preempted request has computed nothing. -/
lemma Passes.untouched {p : RunPass ι} (h : Passes [] running waiting budget p)
    (hwaiting : ∀ r ∈ waiting, r.numComputedTokens = 0) :
    ∀ r ∈ p.waiting, r.numComputedTokens = 0 := by
  obtain ⟨kept, put, -, -, hput, -⟩ := h
  intro r hr
  rcases mem_append.mp (hput ▸ hr) with hr | hr
  · obtain ⟨x, -, rfl⟩ := mem_map.mp hr
    rfl
  · exact hwaiting r hr

/-- The loop over running requests that need no tokens does nothing. -/
lemma runLoop_idle (cfg : GenerationConfig) (alloc : ℕ → Bool)
    {running todo waiting : List (GenerationRequest ι)}
    (h : ∀ r ∈ todo, ∀ b, 0 < b → runningTokens cfg b r = 0) (k : ℕ) :
    runLoop cfg alloc running todo waiting budget k =
      { running := running ++ todo, waiting := waiting, calls := k, budget := budget } := by
  induction todo generalizing running with
  | nil => rw [runLoop, append_nil]
  | cons r rest ih =>
    rw [runLoop]
    split
    · rfl
    · next hbudget =>
      rw [if_pos (h r mem_cons_self budget (not_le.mp hbudget)),
        ih fun r' hr' => h r' (mem_cons_of_mem r hr'), append_assoc]
      rfl

end Loops

/-! ## The invariant -/

section Invariant

variable {cfg : GenerationConfig} {alloc : ℕ → Bool} {s s' : GenerationScheduler ι}
  {running waiting : List (GenerationRequest ι)} {scheduled : List (ScheduledChunk ι)}

/-- The running and then the waiting requests are in the order of arrival, and a waiting one has
computed nothing. -/
structure Inv (s : GenerationScheduler ι) : Prop where
  nodup : s.arrived.Nodup
  order : (ids (s.running ++ s.waiting)).Sublist s.arrived
  untouched : ∀ r ∈ s.waiting, r.numComputedTokens = 0

/-- The fast path admits whole prompts within the budget. -/
lemma fastPath_admits (cfg : GenerationConfig) (alloc : ℕ → Bool) (s : GenerationScheduler ι) :
    Admits (fun r n => n = max (r.numPromptTokens : ℤ) 1) s.running s.waiting
      cfg.maxNumScheduledTokens (s.fastPath cfg alloc) :=
  fastLoop_admits (Int.natCast_nonneg _) 0

/-- A fast path that schedules nothing has changed nothing. -/
lemma fastPath_unchanged (h : (s.fastPath cfg alloc).scheduled = []) :
    (s.fastPath cfg alloc).running = s.running ∧ (s.fastPath cfg alloc).waiting = s.waiting := by
  obtain ⟨taken, hwaiting, hrunning, hscheduled, -⟩ := fastPath_admits cfg alloc s
  obtain rfl : taken = [] := map_eq_nil_iff.mp (hscheduled.symm.trans h)
  exact ⟨hrunning.trans (append_nil _), hwaiting.symm⟩

/-- Requests leave. -/
lemma Inv.remove (h : s.Inv) (p : GenerationRequest ι → Bool) : (s.remove p).Inv :=
  ⟨h.nodup, ((filter_sublist.append filter_sublist).map _).trans h.order,
    fun r hr => h.untouched r (mem_of_mem_filter hr)⟩

/-- A request arrives. -/
lemma Inv.addRequest (h : s.Inv) {id : ι} (hid : id ∉ s.arrived) (n : ℕ) :
    ({ s with
        waiting := s.waiting ++ [{ requestId := id, numPromptTokens := n }]
        arrived := s.arrived ++ [id] } : GenerationScheduler ι).Inv := by
  refine ⟨?_, ?_, fun r hr => ?_⟩
  · exact nodup_append.mpr ⟨h.nodup, by simp, fun a ha b hb => by
      rw [mem_singleton.mp hb]
      exact fun hab => hid (hab ▸ ha)⟩
  · rw [← append_assoc, ids_append]
    exact h.order.append (List.Sublist.refl _)
  · rcases mem_append.mp hr with hr | hr
    · exact h.untouched r hr
    · obtain rfl := mem_singleton.mp hr
      rfl

/-! ## Runs that split no prompt -/

/-- Every prompt fits, the running requests have computed theirs, and every chunk is a whole
prompt. -/
structure Whole (cfg : GenerationConfig) (s : GenerationScheduler ι) : Prop where
  fits : ∀ x ∈ prompts (s.running ++ s.waiting), Fits cfg (.addRequest x.1 x.2)
  limit : s.running.length ≤ cfg.maxNumRunningReqs
  computed : ∀ r ∈ s.running, r.numComputedTokens = r.numPromptTokens
  arrived : ∀ c ∈ s.chunks, c.requestId ∈ s.arrived
  whole : ∀ c ∈ s.chunks, ∀ x ∈ prompts (s.running ++ s.waiting), c.requestId = x.1 →
    c.numComputedTokens = 0 ∧ c.numScheduledTokens = x.2
  inFlight : ∀ out ∈ s.inFlight, out ⊆ s.chunks

/-- Requests leave. -/
lemma Whole.remove (h : Whole cfg s) (p : GenerationRequest ι → Bool) : Whole cfg (s.remove p) := by
  have hsub : prompts ((s.remove p).running ++ (s.remove p).waiting) ⊆
      prompts (s.running ++ s.waiting) :=
    ((filter_sublist.append filter_sublist).map _).subset
  exact
    { fits := fun x hx => h.fits x (hsub hx)
      limit := (length_filter_le _ _).trans h.limit
      computed := fun r hr => h.computed r (mem_of_mem_filter hr)
      arrived := h.arrived
      whole := fun c hc x hx => h.whole c hc x (hsub hx)
      inFlight := h.inFlight }

/-- A request that fits arrives. -/
lemma Whole.addRequest (h : Whole cfg s) {id : ι} (hid : id ∉ s.arrived) {n : ℕ}
    (hn : Fits cfg (.addRequest id n)) :
    Whole cfg { s with
      waiting := s.waiting ++ [{ requestId := id, numPromptTokens := n }]
      arrived := s.arrived ++ [id] } := by
  have hprompts :
      prompts (s.running ++ (s.waiting ++ [{ requestId := id, numPromptTokens := n }])) =
        prompts (s.running ++ s.waiting) ++ [(id, n)] := by
    rw [← append_assoc, prompts_append]
    rfl
  refine ⟨fun x hx => ?_, h.limit, h.computed, fun c hc => mem_append_left _ (h.arrived c hc),
    fun c hc x hx heq => ?_, h.inFlight⟩
  · rcases mem_append.mp (hprompts ▸ hx) with hx | hx
    · exact h.fits x hx
    · exact mem_singleton.mp hx ▸ hn
  · rcases mem_append.mp (hprompts ▸ hx) with hx | hx
    · exact h.whole c hc x hx heq
    · -- no chunk has the id of a request that has just come
      obtain rfl := mem_singleton.mp hx
      have harrived := h.arrived c hc
      rw [heq] at harrived
      exact absurd harrived hid

/-- A round whose fast path admits nothing does nothing. -/
lemma Whole.baseSchedule_eq [DecidableEq ι] (h : Whole cfg s)
    (hfits : Fits cfg (.schedule alloc : Act ι)) (hnone : (s.fastPath cfg alloc).scheduled = [])
    (hbase : baseSchedule cfg alloc (s.fastPath cfg alloc).calls s = some s') :
    s' = s.afterSchedule s.running s.waiting [] := by
  have hprompt {r : GenerationRequest ι} (hr : r ∈ s.running ++ s.waiting) :
      Fits cfg (.addRequest r.requestId r.numPromptTokens) :=
    h.fits _ (mem_map_of_mem hr)
  have hidle (r : GenerationRequest ι) (hr : r ∈ s.running) (b : ℤ) (hb : 0 < b) :
      runningTokens cfg b r = 0 := by
    have hlen := (hprompt (mem_append_left _ hr)).2.2
    simp only [runningTokens, h.computed r hr]
    split_ifs <;> omega
  rw [baseSchedule, runLoop_idle cfg alloc hidle, nil_append] at hbase
  obtain ⟨a, ha, rfl⟩ := Option.map_eq_some_iff.mp hbase
  have hstop : s.waiting = [] ∨ (cfg.maxNumScheduledTokens : ℤ) ≤ 0 ∨
      s.running.length = cfg.maxNumRunningReqs ∨ alloc (s.fastPath cfg alloc).calls = false := by
    obtain hempty | hbudget | hplace | ⟨r, hr, hlong⟩ | ⟨hrefused, hcalls⟩ := fastLoop_none hnone
    · exact .inl hempty
    · exact .inr (.inl hbudget)
    · exact .inr (.inr (.inl (h.limit.antisymm hplace)))
    · have hr' := hprompt (mem_append_right s.running hr)
      have hpos := hr'.1
      have hle := hr'.2.1
      omega
    · refine .inr (.inr (.inr ?_))
      rw [fastPath, hcalls]
      exact hfits hrefused
  have hscheduled := waitLoop_none ha hstop
  obtain ⟨taken, hwaiting, hrunning, htaken, -⟩ := waitLoop_admits (Int.natCast_nonneg _) ha
  obtain rfl : taken = [] := map_eq_nil_iff.mp (htaken.symm.trans hscheduled)
  have hleft : a.running = s.running := hrunning.trans (append_nil _)
  have hright : a.waiting = s.waiting := hwaiting.symm
  rw [hscheduled, hleft, hright]
  rfl

variable [DecidableEq ι]

/-- A round keeps the prompts. -/
lemma prompts_afterSchedule (s : GenerationScheduler ι)
    (running waiting : List (GenerationRequest ι)) (scheduled : List (ScheduledChunk ι)) :
    prompts ((s.afterSchedule running waiting scheduled).running ++
      (s.afterSchedule running waiting scheduled).waiting) = prompts (running ++ waiting) := by
  have hadvance :
      prompts (running.map (GenerationRequest.advance scheduled)) = prompts running := by
    rw [prompts, map_map]
    refine map_congr_left fun r _ => ?_
    simp only [Function.comp_apply, GenerationRequest.advance]
    split <;> rfl
  rw [afterSchedule, prompts_append, prompts_append, hadvance]

/-- A round that keeps the prompts in order. -/
lemma Inv.afterSchedule (h : s.Inv)
    (hprompts : prompts (running ++ waiting) = prompts (s.running ++ s.waiting))
    (huntouched : ∀ r ∈ waiting, r.numComputedTokens = 0) :
    (s.afterSchedule running waiting scheduled).Inv := by
  refine ⟨h.nodup, ?_, huntouched⟩
  rw [← map_fst_prompts, prompts_afterSchedule, hprompts, map_fst_prompts]
  exact h.order

/-- A round schedules within the budget and keeps the requests and their order. -/
lemma schedule_eq (h : s.Inv) (hschedule : s.schedule cfg alloc = some s') :
    ∃ running waiting scheduled, s' = s.afterSchedule running waiting scheduled ∧
      prompts (running ++ waiting) = prompts (s.running ++ s.waiting) ∧
      (∀ r ∈ waiting, r.numComputedTokens = 0) ∧ total scheduled ≤ cfg.maxNumScheduledTokens := by
  rw [schedule] at hschedule
  split at hschedule
  · next hnone =>
    obtain ⟨hrunning, hwaiting⟩ := fastPath_unchanged hnone
    rw [hrunning, hwaiting, baseSchedule] at hschedule
    have hpass := runLoop_passes cfg alloc [] s.running s.waiting
      (Int.natCast_nonneg cfg.maxNumScheduledTokens) (s.fastPath cfg alloc).calls
    have huntouched := hpass.untouched h.untouched
    obtain ⟨-, -, -, -, -, htotal, hnonneg⟩ := id hpass
    dsimp only at hschedule
    split at hschedule
    · cases hschedule
      exact ⟨_, _, _, rfl, hpass.prompts_eq, huntouched, by omega⟩
    · obtain ⟨a, ha, rfl⟩ := Option.map_eq_some_iff.mp hschedule
      have hadmits := waitLoop_admits hnonneg ha
      have hrest := hadmits.total_le
      refine ⟨_, _, _, rfl, hadmits.prompts_eq.trans hpass.prompts_eq,
        fun r hr => huntouched r (hadmits.waiting_subset hr), ?_⟩
      rw [total, map_append, sum_append, ← total, ← total]
      omega
  · cases hschedule
    have hadmits := fastPath_admits cfg alloc s
    exact ⟨_, _, _, rfl, hadmits.prompts_eq, fun r hr => h.untouched r (hadmits.waiting_subset hr),
      hadmits.total_le⟩

/-- An update keeps the order. -/
lemma Inv.update {u : GenerationScheduler ι × List (GenerationRequest ι)} (h : s.Inv)
    (hu : s.updateFromOutput = some u) : u.1.Inv := by
  unfold updateFromOutput at hu
  split at hu
  · cases hu
  · next out rest hout =>
    have hrest := h.remove (isScheduledIn out)
    split at hu
    · cases hu
      exact ⟨hrest.nodup, hrest.order, hrest.untouched⟩
    · cases hu

/-- Every event keeps the order. -/
lemma Inv.step {a : Act ι} (h : s.Inv) (hstep : s.step cfg a = some s') : s'.Inv := by
  cases a with
  | addRequest id n =>
    rw [GenerationScheduler.step] at hstep
    split at hstep
    · cases hstep
    · next hid =>
      cases hstep
      exact h.addRequest hid n
  | abort id =>
    cases hstep
    exact h.remove _
  | schedule alloc =>
    obtain ⟨running, waiting, scheduled, rfl, hprompts, huntouched, -⟩ := schedule_eq h hstep
    exact h.afterSchedule hprompts huntouched
  | update =>
    obtain ⟨u, hu, rfl⟩ := Option.map_eq_some_iff.mp hstep
    exact h.update hu

section

variable (h : Whole cfg s) (hinv : s.Inv)
include h hinv

/-- A round in which every chunk is a whole prompt, and the other running requests are computed. -/
lemma Whole.afterSchedule
    (hprompts : prompts (running ++ waiting) = prompts (s.running ++ s.waiting))
    (hlimit : running.length ≤ cfg.maxNumRunningReqs)
    (hchunks : ∀ c ∈ scheduled, ∃ r ∈ running, r.numComputedTokens = 0 ∧
      c = r.chunk r.numPromptTokens)
    (hrest : ∀ r ∈ running, (∀ c ∈ scheduled, c.requestId ≠ r.requestId) →
      r.numComputedTokens = r.numPromptTokens) :
    Whole cfg (s.afterSchedule running waiting scheduled) := by
  have hids : ids (running ++ waiting) = ids (s.running ++ s.waiting) := by
    rw [← map_fst_prompts, hprompts, map_fst_prompts]
  have hnodup : (ids (running ++ waiting)).Nodup := hids ▸ hinv.nodup.sublist hinv.order
  -- the request with the id of a chunk is the one that the chunk is of
  have hown {c : ScheduledChunk ι} (hc : c ∈ scheduled) {r : GenerationRequest ι}
      (hr : r ∈ running ++ waiting) (hid : c.requestId = r.requestId) :
      r.numComputedTokens = 0 ∧ c = r.chunk r.numPromptTokens := by
    obtain ⟨r', hr', hzero, rfl⟩ := hchunks c hc
    obtain rfl := inj_on_of_nodup_map hnodup (mem_append_left _ hr') hr hid
    exact ⟨hzero, rfl⟩
  have hsame := (prompts_afterSchedule s running waiting scheduled).trans hprompts
  refine ⟨hsame ▸ h.fits, ?_, fun r hr => ?_, fun c hc => ?_, fun c hc x hx hid => ?_,
    fun out hout => ?_⟩
  · rw [GenerationScheduler.afterSchedule, length_map]
    exact hlimit
  · obtain ⟨x, hx, rfl⟩ := mem_map.mp hr
    unfold GenerationRequest.advance
    split
    · next c hfind =>
      have hid : c.requestId = x.requestId := by simpa using find?_some hfind
      obtain ⟨hzero, rfl⟩ := hown (mem_of_find?_eq_some hfind) (mem_append_left _ hx) hid
      rw [hzero]
      exact zero_add _
    · next hfind => exact hrest x hx fun c hc => by simpa using find?_eq_none.mp hfind c hc
  · rcases mem_append.mp hc with hc | hc
    · exact h.arrived c hc
    · obtain ⟨r, hr, -, rfl⟩ := hchunks c hc
      exact hinv.order.subset (hids ▸ mem_map.mpr ⟨r, mem_append_left _ hr, rfl⟩)
  · rcases mem_append.mp hc with hc | hc
    · exact h.whole c hc x (hsame ▸ hx) hid
    · rw [hsame, ← hprompts] at hx
      obtain ⟨r, hr, rfl⟩ := mem_map.mp hx
      obtain ⟨hzero, rfl⟩ := hown hc hr hid
      exact ⟨hzero, rfl⟩
  · rcases mem_append.mp hout with hout | hout
    · exact fun c hc => mem_append_left _ (h.inFlight out hout hc)
    · exact mem_singleton.mp hout ▸ subset_append_right _ _

/-- What the fast path schedules are whole prompts. -/
lemma Whole.fastPath (alloc : ℕ → Bool) :
    Whole cfg (s.afterSchedule (s.fastPath cfg alloc).running (s.fastPath cfg alloc).waiting
      (s.fastPath cfg alloc).scheduled) := by
  have hadmits := fastPath_admits cfg alloc s
  have hprompts := hadmits.prompts_eq
  obtain ⟨taken, hwaiting, hrunning, hscheduled, -, htokens⟩ := hadmits
  refine h.afterSchedule hinv hprompts (length_fastLoop_le h.limit 0) (fun c hc => ?_)
    fun r hr hnone => ?_
  · obtain ⟨x, hx, rfl⟩ := mem_map.mp (hscheduled ▸ hc)
    have hmem : x.1 ∈ s.waiting := hwaiting ▸ mem_append_left _ (mem_map_of_mem hx)
    have hpos := (h.fits _ (mem_map_of_mem (mem_append_right s.running hmem))).1
    have hall : x.2 = x.1.numPromptTokens :=
      (htokens x hx).trans (max_eq_left (Int.natCast_pos.mpr hpos))
    refine ⟨x.1.start, ?_, hinv.untouched x.1 hmem, hall ▸ rfl⟩
    rw [hrunning]
    exact mem_append_right _ (mem_map.mpr ⟨x, hx, rfl⟩)
  · rcases mem_append.mp (hrunning ▸ hr) with hr | hr
    · exact h.computed r hr
    · obtain ⟨x, hx, rfl⟩ := mem_map.mp hr
      exact absurd rfl (hnone (x.1.start.chunk x.2) (hscheduled ▸ mem_map_of_mem hx))

/-- A round without a cause to split a prompt. -/
lemma Whole.schedule (hfits : Fits cfg (.schedule alloc : Act ι))
    (hschedule : s.schedule cfg alloc = some s') : Whole cfg s' := by
  rw [GenerationScheduler.schedule] at hschedule
  split at hschedule
  · next hnone =>
    obtain ⟨hrunning, hwaiting⟩ := fastPath_unchanged hnone
    rw [hrunning, hwaiting] at hschedule
    rw [h.baseSchedule_eq hfits hnone hschedule]
    exact h.afterSchedule hinv rfl h.limit (fun c hc => absurd hc not_mem_nil)
      fun r hr _ => h.computed r hr
  · cases hschedule
    exact h.fastPath hinv alloc

end

/-- An update removes requests only. -/
lemma Whole.update {u : GenerationScheduler ι × List (GenerationRequest ι)} (h : Whole cfg s)
    (hu : s.updateFromOutput = some u) : Whole cfg u.1 := by
  unfold updateFromOutput at hu
  split at hu
  · cases hu
  · next out rest hout =>
    have hrest := h.remove (isScheduledIn out)
    split at hu
    · cases hu
      refine ⟨hrest.fits, hrest.limit, hrest.computed, hrest.arrived, hrest.whole, ?_⟩
      exact fun out' hout' => h.inFlight out' (hout ▸ mem_cons_of_mem out hout')
    · cases hu

/-- Every event that fits keeps the prompts whole. -/
lemma Whole.step {a : Act ι} (h : Whole cfg s) (hinv : s.Inv) (hfits : Fits cfg a)
    (hstep : s.step cfg a = some s') : Whole cfg s' := by
  cases a with
  | addRequest id n =>
    rw [GenerationScheduler.step] at hstep
    split at hstep
    · cases hstep
    · next hid =>
      cases hstep
      exact h.addRequest hid hfits
  | abort id =>
    cases hstep
    exact h.remove _
  | schedule alloc => exact h.schedule hinv hfits hstep
  | update =>
    obtain ⟨u, hu, rfl⟩ := Option.map_eq_some_iff.mp hstep
    exact h.update hu

/-! ## Rounds -/

/-- Every round is right. -/
lemma Inv.scheduleRight (h : s.Inv) (hschedule : s.schedule cfg alloc = some s') :
    ScheduleRight cfg alloc s s' := by
  have hnext : s'.Inv := h.step (a := .schedule alloc) hschedule
  obtain ⟨running, waiting, scheduled, rfl, hprompts, -, htotal⟩ := schedule_eq h hschedule
  refine ⟨fastPath_unchanged, ?_, hnext.order, fun x y _ hx hy => ?_, scheduled, rfl, htotal⟩
  · rw [← map_fst_prompts, prompts_afterSchedule, hprompts, map_fst_prompts]
  · refine List.Sublist.trans ?_ (ids_append _ _ ▸ hnext.order)
    exact (singleton_sublist.mpr hx).append (singleton_sublist.mpr hy)

/-- What an update reports finished has been scheduled as a whole. -/
lemma Whole.nextRight (h : Whole cfg s) (hinv : s.Inv) : NextRight cfg s := by
  refine ⟨fun alloc s' => hinv.scheduleRight, fun u hu r hr p hp => ?_⟩
  unfold updateFromOutput at hu
  split at hu
  · cases hu
  · next out rest hout =>
    split at hu
    · cases hu
      obtain ⟨hr, hin⟩ := mem_filter.mp hr
      obtain ⟨c, hc, hid⟩ := any_eq_true.mp hin
      have hid : c.requestId = r.requestId := of_decide_eq_true hid
      have hchunk : c ∈ s.chunks := h.inFlight out (hout ▸ mem_cons_self) hc
      obtain ⟨hzero, hall⟩ := h.whole c hchunk _ (mem_map_of_mem hr) hid
      refine ⟨c, hchunk, hid, hzero ▸ Int.natCast_nonneg p, ?_⟩
      rw [hzero, hall, zero_add]
      exact Int.ofNat_lt.mpr hp
    · cases hu

omit [DecidableEq ι] in
lemma inv_init : ({} : GenerationScheduler ι).Inv :=
  ⟨nodup_nil, List.Sublist.refl _, by simp⟩

omit [DecidableEq ι] in
lemma whole_init (cfg : GenerationConfig) : Whole cfg ({} : GenerationScheduler ι) :=
  ⟨by simp [prompts], Nat.zero_le _, by simp, by simp, by simp, by simp⟩

end Invariant

variable [DecidableEq ι]

/-- In every state of a run in which nothing gives cause to split a prompt, the next round and the
next update are right. -/
theorem generation_rounds_right {cfg : GenerationConfig} {acts : List (Act ι)}
    (hfits : ∀ a ∈ acts, Fits cfg a) : EveryState (step cfg) (NextRight cfg) {} acts :=
  everyState_of_allSteps (I := fun s => s.Inv ∧ Whole cfg s)
    (fun _ _ _ h hfits hstep => ⟨h.1.step hstep, h.2.step h.1 hfits hstep⟩)
    (fun _ h => h.2.nextRight h.1) ⟨inv_init, whole_init cfg⟩ (allSteps_of_forall_mem hfits)

/-- Two prompts that fit the budget together, and a third that waits until they are finished. -/
theorem generation_rounds_right_threeRequests :
    (∃ s, run (step { maxNumScheduledTokens := 16, maxNumRunningReqs := 4, maxModelLen := 64 }) {}
        [.addRequest 0 10, .addRequest 1 5, .addRequest 2 12, .schedule fun _ => true, .update,
          .schedule fun _ => true] = some s ∧
      s.updateFromOutput.map (fun u => ids u.2) = some [2]) ∧
    EveryState (step { maxNumScheduledTokens := 16, maxNumRunningReqs := 4, maxModelLen := 64 })
      (NextRight { maxNumScheduledTokens := 16, maxNumRunningReqs := 4, maxModelLen := 64 }) {}
      [.addRequest 0 10, .addRequest 1 5, .addRequest 2 12, .schedule fun _ => true, .update,
        .schedule fun _ => true] :=
  ⟨exists_reached (by decide +kernel), generation_rounds_right (by simp [Fits])⟩

/-- In every state of every run, whatever `allocate_slots` answers, the next round keeps the order
of arrival and stays within the budget. -/
theorem rounds_in_order (cfg : GenerationConfig) (acts : List (Act ι)) :
    EveryState (step cfg) (fun s => ∀ alloc s', s.schedule cfg alloc = some s' →
      ScheduleRight cfg alloc s s') {} acts :=
  everyState_of_invariant (I := Inv) (fun _ _ _ h => h.step) (fun _ h _ _ => h.scheduleRight)
    inv_init

instance (chunks : List (ScheduledChunk ι)) (id : ι) : DecidablePred (Covers chunks id) :=
  fun _ => inferInstanceAs (Decidable (∃ c ∈ chunks, _))

/-- A prompt of 25 tokens with a budget of 10: the fallback schedules 10 tokens, and the request is
reported finished. -/
theorem rounds_not_right_longPrompt :
    ∃ s, run (step { maxNumScheduledTokens := 10, maxNumRunningReqs := 4, maxModelLen := 64 }) {}
        [.addRequest 0 25, .schedule fun _ => true] = some s ∧
      s.updateFromOutput.map (fun u => ids u.2) = some [0] ∧ s.chunks = [⟨0, 0, 10⟩] ∧
      ¬ NextRight { maxNumScheduledTokens := 10, maxNumRunningReqs := 4, maxModelLen := 64 } s := by
  obtain ⟨s, hrun, hfinished, hchunks, hcut⟩ : ∃ s,
      run (step { maxNumScheduledTokens := 10, maxNumRunningReqs := 4, maxModelLen := 64 }) {}
        [.addRequest 0 25, .schedule fun _ => true] = some s ∧
      s.updateFromOutput.map (fun u => ids u.2) = some [0] ∧ s.chunks = [⟨0, 0, 10⟩] ∧
      ¬ ∀ u ∈ s.updateFromOutput, ∀ r ∈ u.2, ∀ p < r.numPromptTokens,
        Covers s.chunks r.requestId p :=
    exists_reached (by decide +kernel)
  exact ⟨s, hrun, hfinished, hchunks, fun hright => hcut hright.finished⟩

end GenerationScheduler

end OmniStreaming
