import OmniStreaming.Lib.LinkedList
import OmniStreaming.Talker.BlockOwnership

/-!
# The linked queue of free blocks

The scheduler's model has its free blocks in a list. In the source they are in a
`FreeKVCacheBlockQueue`: links that the blocks carry, between two fake blocks, and a counter.

The file proves that the queue refines the list, whatever is called, and that it does so for the
calls of every run of the scheduler.
-/

namespace OmniStreaming

open FreeQueue LinkedList LinkedList.Links List Transition

/-- A block, or one of the fake blocks at the ends of the queue. -/
inductive QueueBlock
  | head
  | block (id : ℕ)
  | tail
  deriving DecidableEq

/-- The queue: its counter, and the links of the blocks. -/
structure FreeKVCacheBlockQueue where
  numFreeBlocks : ℕ
  links : Links QueueBlock

namespace FreeKVCacheBlockQueue

/-- `__init__`: the blocks are linked one after the other, then to the fake blocks. -/
def init (blocks : List QueueBlock) : FreeKVCacheBlockQueue where
  numFreeBlocks := blocks.length
  links := match blocks with
    | [] => Links.join {} .head .tail
    | b :: bs => ((Links.joinAll {} b bs).join .head b).join (bs.getLastD b) .tail

variable (q : FreeKVCacheBlockQueue)

/-- `popleft`. There is no value where the code raises. -/
def popleft : Option (QueueBlock × FreeKVCacheBlockQueue) :=
  (q.links.next .head).bind fun first =>
    if first = .tail then none
    else (q.links.next first).map fun second =>
      (first, ⟨q.numFreeBlocks - 1, (q.links.join .head second).clear first⟩)

/-- The loop of `popleft_n`, at `curr_block`. -/
def popLoop : ℕ → Links QueueBlock → Option QueueBlock →
    Option (List QueueBlock × Links QueueBlock × Option QueueBlock)
  | 0, L, curr => some ([], L, curr)
  | _ + 1, _, none => none
  | n + 1, L, some b => (popLoop n (L.clear b) (L.next b)).map fun r => (b :: r.1, r.2)

/-- `popleft_n`: the head is linked to where the loop stops. -/
def popleftN (n : ℕ) : Option (List QueueBlock × FreeKVCacheBlockQueue) :=
  if n = 0 then some ([], q)
  else if n ≤ q.numFreeBlocks then
    (popLoop n q.links (q.links.next .head)).map fun r =>
      (r.1, ⟨q.numFreeBlocks - n, r.2.2.elim r.2.1 (r.2.1.join .head)⟩)
  else none

/-- `remove`: the neighbours are linked to each other. -/
def remove (block : QueueBlock) : Option FreeKVCacheBlockQueue :=
  (q.links.prev block).bind fun p =>
    (q.links.next block).map fun n => ⟨q.numFreeBlocks - 1, (q.links.join p n).clear block⟩

/-- `append_n`: the blocks come behind the last one, and the tail behind them. -/
def appendN (blocks : List QueueBlock) : Option FreeKVCacheBlockQueue :=
  if blocks = [] then some q
  else (q.links.prev .tail).map fun last =>
    ⟨q.numFreeBlocks + blocks.length,
      (q.links.joinAll last blocks).join (blocks.getLastD last) .tail⟩

/-- The calls at a queue. -/
inductive QueueAct
  | popleft
  | popleftN (n : ℕ)
  | remove (block : QueueBlock)
  | appendN (blocks : List QueueBlock)

/-- One call, with the blocks that the queue has returned so far. -/
def queueStep (s : FreeKVCacheBlockQueue × List QueueBlock) :
    QueueAct → Option (FreeKVCacheBlockQueue × List QueueBlock)
  | .popleft => s.1.popleft.map fun r => (r.2, s.2 ++ [r.1])
  | .popleftN n => (s.1.popleftN n).map fun r => (r.2, s.2 ++ r.1)
  | .remove b => (s.1.remove b).map (·, s.2)
  | .appendN bs => (s.1.appendN bs).map (·, s.2)

/-! ## The list that a queue stands for -/

/-- The blocks between the fake ones. -/
def nodes (blocks : List QueueBlock) : List QueueBlock := .head :: blocks ++ [.tail]

/-- The queue has exactly these blocks, in this order. -/
structure Holds (blocks : List QueueBlock) : Prop where
  count : q.numFreeBlocks = blocks.length
  nodup : (nodes blocks).Nodup
  linked : q.links.Linked (nodes blocks)

/-- The calls on a list: only its blocks are removed, and only other blocks appended. -/
def listStep (s : List QueueBlock × List QueueBlock) :
    QueueAct → Option (List QueueBlock × List QueueBlock)
  | .popleft => s.1.head?.map fun b => (s.1.tail, s.2 ++ [b])
  | .popleftN n => if n ≤ s.1.length then some (s.1.drop n, s.2 ++ s.1.take n) else none
  | .remove b => if b ∈ s.1 then some (s.1.erase b, s.2) else none
  | .appendN bs => if (nodes (s.1 ++ bs)).Nodup then some (s.1 ++ bs, s.2) else none

variable {q : FreeKVCacheBlockQueue} {L : Links QueueBlock} {b : QueueBlock}
  {blocks front back free free' out out' : List QueueBlock}

/-- A new queue holds its blocks. -/
lemma holds_init (h : (nodes blocks).Nodup) : (init blocks).Holds blocks := by
  refine ⟨rfl, h, ?_⟩
  cases blocks with
  | nil => exact Linked.join (u := []) (.singleton _) (.singleton _) h
  | cons b bs =>
    have hbs : (Links.joinAll {} b bs).Linked (b :: bs) :=
      Linked.joinAll (u := []) (.singleton b) (h.sublist (by simp [nodes]))
    have hhead := Linked.join (u := []) (.singleton .head) hbs (h.sublist (by simp [nodes]))
    exact Linked.join_getLastD (u := [QueueBlock.head]) hhead h

/-- There is a node in front of every place in the queue, and one behind it. -/
lemma exists_neighbours (front back : List QueueBlock) :
    (∃ xs p, QueueBlock.head :: front = xs ++ [p]) ∧ ∃ n ys, back ++ [.tail] = n :: ys :=
  ⟨⟨_, _, (dropLast_append_getLast (cons_ne_nil _ front)).symm⟩,
    exists_cons_of_ne_nil (by simp)⟩

/-- A block is removed. -/
lemma Holds.remove (h : q.Holds (front ++ b :: back)) :
    ∃ q', q.remove b = some q' ∧ q'.Holds (front ++ back) := by
  obtain ⟨⟨xs, p, hxs⟩, n, ys, hys⟩ := exists_neighbours front back
  have hold : nodes (front ++ b :: back) = xs ++ p :: b :: n :: ys := by
    rw [nodes, ← cons_append, hxs]
    simp [hys]
  have hnew : nodes (front ++ back) = xs ++ p :: n :: ys := by
    rw [nodes, ← cons_append, hxs]
    simp [hys]
  obtain ⟨hprev, hnext, hlinked⟩ := Linked.remove (hold ▸ h.linked) (hold ▸ h.nodup)
  refine ⟨_, by rw [FreeKVCacheBlockQueue.remove, hprev, hnext]; rfl, ?_, ?_, hnew ▸ hlinked⟩
  · simp [h.count, Nat.add_sub_assoc]
  · exact h.nodup.sublist (by simp [nodes])

/-- A block is taken from the front. -/
lemma Holds.popleft (h : q.Holds (b :: back)) : ∃ q', q.popleft = some (b, q') ∧ q'.Holds back := by
  obtain ⟨q', hremove, hq'⟩ := (show q.Holds ([] ++ b :: back) from h).remove
  obtain ⟨⟨hhead, hprev⟩, -⟩ := isChain_cons_cons.mp h.linked
  have hb : b ≠ .tail := by
    rintro rfl
    simpa [nodes] using h.nodup
  refine ⟨q', ?_, hq'⟩
  simp only [FreeKVCacheBlockQueue.remove, hprev, Option.bind_some] at hremove
  obtain ⟨n, hnext, rfl⟩ := Option.map_eq_some_iff.mp hremove
  simp [FreeKVCacheBlockQueue.popleft, hhead, hb, hnext]

/-- The loop takes the nodes in front of `b`, and stops there. -/
lemma popLoop_eq (h : L.Linked (front ++ b :: back)) (hnodup : (front ++ b :: back).Nodup) :
    ∃ M, popLoop front.length L (front ++ b :: back).head? = some (front, M, some b) ∧
      M.Linked (b :: back) := by
  induction front generalizing L with
  | nil => exact ⟨L, rfl, h⟩
  | cons c front ih =>
    obtain ⟨hc, hnodup⟩ := nodup_cons.mp hnodup
    have hnext : L.next c = (front ++ b :: back).head? := by
      cases front with
      | nil => exact (isChain_cons_cons.mp h).1.1
      | cons d front => exact (isChain_cons_cons.mp h).1.1
    obtain ⟨M, hloop, hM⟩ := ih (Linked.clear (List.IsChain.tail h) hc) hnodup
    refine ⟨M, ?_, hM⟩
    rw [← hnext] at hloop
    simp [popLoop, hloop]

/-- Blocks are taken from the front. -/
lemma Holds.popleftN (h : q.Holds (front ++ back)) :
    ∃ q', q.popleftN front.length = some (front, q') ∧ q'.Holds back := by
  obtain ⟨n, ys, hback⟩ := (exists_neighbours [] back).2
  have hold : nodes (front ++ back) = .head :: (front ++ n :: ys) := by simp [nodes, hback]
  have hnew : nodes back = .head :: n :: ys := by simp [nodes, hback]
  obtain ⟨hcount, hnodup, hlinked⟩ := h
  cases front with
  | nil => exact ⟨q, rfl, hcount, hnodup, hlinked⟩
  | cons c front =>
    rw [hold] at hnodup hlinked
    obtain ⟨M, hloop, hM⟩ := popLoop_eq (List.IsChain.tail hlinked) hnodup.tail
    have hnodup' : (nodes back).Nodup := hnew ▸ hnodup.sublist (by simp)
    refine ⟨⟨back.length, M.join .head n⟩, ?_, rfl, hnodup', ?_⟩
    · have hhead : q.links.next .head = (c :: front ++ n :: ys).head? :=
        (isChain_cons_cons.mp hlinked).1.1
      rw [FreeKVCacheBlockQueue.popleftN, hhead, hloop]
      simp [hcount]
    · rw [hnew] at hnodup' ⊢
      exact Linked.join (u := []) (.singleton _) hM hnodup'

/-- Blocks are appended. -/
lemma Holds.appendN (h : q.Holds blocks) (hnodup : (nodes (blocks ++ back)).Nodup) :
    ∃ q', q.appendN back = some q' ∧ q'.Holds (blocks ++ back) := by
  obtain rfl | hne := eq_or_ne back []
  · exact ⟨q, rfl, by rwa [append_nil]⟩
  obtain ⟨xs, p, hxs⟩ := (exists_neighbours blocks []).1
  have hold : nodes blocks = xs ++ p :: [.tail] := by simp [nodes, hxs]
  have hnew : nodes (blocks ++ back) = xs ++ p :: back ++ [.tail] := by
    rw [nodes, ← cons_append, hxs]
    simp
  obtain ⟨hinit, ⟨-, hprev⟩, -⟩ := isChain_append_cons_cons.mp (hold ▸ h.linked)
  rw [hnew] at hnodup
  have hall := Linked.joinAll hinit (hnodup.sublist (sublist_append_left _ _))
  refine ⟨_, by rw [FreeKVCacheBlockQueue.appendN, if_neg hne, hprev]; rfl, ?_, hnew ▸ hnodup, ?_⟩
  · simp [h.count]
  · exact hnew ▸ hall.join_getLastD hnodup

/-- The queue simulates the list. -/
lemma queueStep_of_listStep {a : QueueAct} (h : q.Holds free)
    (hstep : listStep (free, out) a = some (free', out')) :
    ∃ q', queueStep (q, out) a = some (q', out') ∧ q'.Holds free' := by
  cases a with
  | popleft =>
    cases free with
    | nil => cases hstep
    | cons b free =>
      obtain ⟨rfl, rfl⟩ : free = free' ∧ out ++ [b] = out' := by simpa [listStep] using hstep
      obtain ⟨q', hq, hq'⟩ := h.popleft
      exact ⟨q', by simp [queueStep, hq], hq'⟩
  | popleftN n =>
    obtain ⟨hn, rfl, rfl⟩ : n ≤ free.length ∧ free.drop n = free' ∧ out ++ free.take n = out' := by
      simpa [listStep] using hstep
    rw [← take_append_drop n free] at h
    obtain ⟨q', hq, hq'⟩ := h.popleftN
    rw [length_take, Nat.min_eq_left hn] at hq
    exact ⟨q', by simp [queueStep, hq], hq'⟩
  | remove b =>
    obtain ⟨hb, rfl, rfl⟩ : b ∈ free ∧ free.erase b = free' ∧ out = out' := by
      simpa [listStep] using hstep
    obtain ⟨front, back, -, rfl, herase⟩ := exists_erase_eq hb
    obtain ⟨q', hq, hq'⟩ := h.remove
    exact ⟨q', by simp [queueStep, hq], herase ▸ hq'⟩
  | appendN bs =>
    obtain ⟨hbs, rfl, rfl⟩ : (nodes (free ++ bs)).Nodup ∧ free ++ bs = free' ∧ out = out' := by
      simpa [listStep] using hstep
    obtain ⟨q', hq, hq'⟩ := h.appendN hbs
    exact ⟨q', by simp [queueStep, hq], hq'⟩

/-- By induction over the calls, it does so along every run. -/
lemma exists_run_queueStep {acts : List QueueAct} (h : q.Holds free)
    (hrun : run listStep (free, out) acts = some (free', out')) :
    ∃ q', run queueStep (q, out) acts = some (q', out') ∧ q'.Holds free' := by
  induction acts generalizing q free out with
  | nil =>
    cases hrun
    exact ⟨q, rfl, h⟩
  | cons a acts ih =>
    obtain ⟨⟨free₁, out₁⟩, hstep, hrest⟩ := run_cons_eq_some.mp hrun
    obtain ⟨q₁, hq₁, h₁⟩ := queueStep_of_listStep h hstep
    obtain ⟨q', hq', h'⟩ := ih h₁ hrest
    exact ⟨q', run_cons_eq_some.mpr ⟨_, hq₁, hq'⟩, h'⟩

/-- On a queue that is used like a list no call raises, the blocks of the list are returned, and the
links and the counter are those of the list. -/
theorem free_queue_refines_list {acts : List QueueAct} (hblocks : (nodes blocks).Nodup)
    (hrun : run listStep (blocks, []) acts = some (free, out)) :
    ∃ q, run queueStep (init blocks, []) acts = some (q, out) ∧ q.Holds free :=
  exists_run_queueStep (holds_init hblocks) hrun

/-- A block is removed from the middle of a queue, and comes back to its end. -/
theorem free_queue_refines_list_threeBlocks :
    ∃ q, run queueStep (init [.block 0, .block 1, .block 2], [])
        [.remove (.block 1), .popleft, .appendN [.block 0, .block 1], .popleftN 2] =
      some (q, [.block 0, .block 2, .block 0]) ∧ q.Holds [.block 1] :=
  free_queue_refines_list (by decide) (by decide)

/-! ## The queue of the scheduler -/

variable {ι : Type*} [DecidableEq ι] {cfg : EngineConfig} {s s' : SchedulerState ι} {a : SchedAct ι}

/-- The calls up to a state: the null block is taken first, and each step takes its blocks and
returns them in reverse order. -/
def poolCalls (log : List (StepRecord ι)) : List QueueAct :=
  .popleft :: log.flatMap fun e =>
    [.popleftN e.newBlocks.length, .appendN (e.newBlocks.map .block).reverse]

/-- The null block, and the blocks of the steps. -/
def handedOut (log : List (StepRecord ι)) : List QueueBlock :=
  .block 0 :: log.flatMap fun e => e.newBlocks.map .block

/-- The free blocks are what the calls leave of the list of all blocks. -/
def CallsLeave (cfg : EngineConfig) (s : SchedulerState ι) : Prop :=
  run listStep ((range cfg.numGpuBlocks).map .block, []) (poolCalls s.log) =
    some (s.freeBlocks.map .block, handedOut s.log)

lemma nodup_nodes {ids : List ℕ} (h : ids.Nodup) : (nodes (ids.map .block)).Nodup := by
  have hmap : (ids.map QueueBlock.block).Nodup := h.map fun _ _ => QueueBlock.block.inj
  simp [nodes, nodup_append, hmap]

omit [DecidableEq ι] in
lemma callsLeave_init (hpool : 0 < cfg.numGpuBlocks) :
    CallsLeave cfg (SchedulerState.init cfg : SchedulerState ι) := by
  obtain ⟨n, hn⟩ := Nat.exists_eq_add_one.mpr hpool
  simp [CallsLeave, SchedulerState.init, hn, range_succ_eq_map, poolCalls, listStep, handedOut]

/-- A step takes the front of the list and puts it back, reversed, at the end. -/
lemma callsLeave_step (hinv : PoolInv cfg s) (h : CallsLeave cfg s)
    (hstep : schedStep cfg s a = some s') : CallsLeave cfg s' := by
  obtain ⟨turn, idx, n, hn, rfl, -, rfl⟩ | ⟨turn, idx, rfl, rfl⟩ | ⟨token, o, rfl, ho, rfl⟩ :=
    schedStep_cases hstep
  · exact h
  · exact h
  · obtain ⟨htake, hlen⟩ := newBlocks_of_schedule ho
    have hnodup := nodup_nodes (nodup_recycle hinv.nodup o.newBlocks.length)
    rw [recycle, ← htake, map_append, map_drop, map_reverse] at hnodup
    have hcalls : poolCalls (s.log ++ [recordOf cfg s o (o.sampled token)]) = poolCalls s.log ++
        [.popleftN o.newBlocks.length, .appendN (o.newBlocks.map .block).reverse] := by
      simp [poolCalls, recordOf]
    have hout : handedOut (s.log ++ [recordOf cfg s o (o.sampled token)]) =
        handedOut s.log ++ o.newBlocks.map .block := by
      simp [handedOut, recordOf]
    rw [CallsLeave, log_updateFromOutput, hcalls, hout, run_append, h]
    simp [listStep, hlen, hnodup, ← map_take, ← htake]

/-- In every state, the calls of the steps raise no error, have returned the blocks of the steps,
and leave the queue with the free blocks. -/
theorem scheduler_queue_holds_free (hpool : 0 < cfg.numGpuBlocks) (acts : List (SchedAct ι)) :
    EveryState (schedStep cfg)
      (fun s => ∃ q, run queueStep (init ((range cfg.numGpuBlocks).map .block), [])
        (poolCalls s.log) = some (q, handedOut s.log) ∧ q.Holds (s.freeBlocks.map .block))
      (SchedulerState.init cfg) acts := by
  refine everyState_of_invariant (I := fun s => PoolInv cfg s ∧ CallsLeave cfg s) ?_ ?_
    ⟨poolInv_init cfg, callsLeave_init hpool⟩
  · exact fun s a s' h hstep => ⟨poolInv_step h.1 hstep, callsLeave_step h.1 h.2 hstep⟩
  · exact fun s h => exists_run_queueStep (holds_init (nodup_nodes nodup_range)) h.2

/-- Two turns in a pool of six blocks. -/
theorem scheduler_queue_holds_free_twoTurns :
    EveryState (schedStep (smallEngine 6))
      (fun s => ∃ q, run queueStep (init ((range 6).map .block), []) (poolCalls s.log) =
        some (q, handedOut s.log) ∧ q.Holds (s.freeBlocks.map .block))
      (SchedulerState.init (smallEngine 6)) twoTurns :=
  scheduler_queue_holds_free (by decide) twoTurns

end FreeKVCacheBlockQueue

end OmniStreaming
