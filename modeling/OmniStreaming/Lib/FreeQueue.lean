import Mathlib.Data.List.Nodup
import Mathlib.Data.List.TakeDrop

/-!
# Queues of free blocks

A pool keeps its free blocks in a queue: blocks are taken from the front and come back to the end,
the last one taken first. When everything taken in a step is returned in the same step, the step
is `recycle`: the queue is a permutation of what it was, and a block moves towards the front by
exactly the number of blocks taken.
-/

namespace FreeQueue

variable {α : Type*}

/-- Take `n` blocks from the front and return them to the end in reverse order. -/
def recycle (n : ℕ) (queue : List α) : List α := queue.drop n ++ (queue.take n).reverse

/-- The blocks are the same before and after. -/
lemma recycle_perm (n : ℕ) (queue : List α) : (recycle n queue).Perm queue := by
  have hrev : (queue.drop n ++ (queue.take n).reverse).Perm (queue.drop n ++ queue.take n) :=
    (List.reverse_perm _).append_left _
  have hswap : (queue.drop n ++ queue.take n).Perm (queue.take n ++ queue.drop n) :=
    List.perm_append_comm
  rw [List.take_append_drop] at hswap
  exact hrev.trans hswap

/-- The queue keeps its length. -/
lemma length_recycle (n : ℕ) (queue : List α) : (recycle n queue).length = queue.length :=
  (recycle_perm n queue).length_eq

variable {queue : List α}

/-- No block is in the queue twice. -/
lemma nodup_recycle (h : queue.Nodup) (n : ℕ) : (recycle n queue).Nodup :=
  (recycle_perm n queue).nodup_iff.mpr h

/-- Blocks that were not taken are `n` places further to the front. -/
lemma take_recycle {k n : ℕ} (h : k + n ≤ queue.length) :
    (recycle n queue).take k = (queue.drop n).take k := by
  have hlen : k ≤ (queue.drop n).length := by
    rw [List.length_drop]
    omega
  rw [recycle, List.take_append_of_le_length hlen]

/-- What stands in the first `k` places after a step stood in the first `k + n` before it. -/
lemma mem_take_of_mem_take_recycle {k n : ℕ} (h : k + n ≤ queue.length) {x : α}
    (hx : x ∈ (recycle n queue).take k) : x ∈ queue.take (k + n) := by
  rw [take_recycle h, List.take_drop] at hx
  rw [Nat.add_comm]
  exact List.mem_of_mem_drop hx

/-- What has just been returned stands behind everything that was not taken. -/
lemma notMem_take_of_mem_take_recycle {n : ℕ} (hnodup : queue.Nodup)
    (h : n ≤ queue.length) {x : α} (hx : x ∈ (recycle n queue).take (queue.length - n)) :
    x ∉ queue.take n := by
  rw [take_recycle (by omega)] at hx
  intro htake
  exact List.disjoint_take_drop hnodup (Nat.le_refl n) htake (List.mem_of_mem_take hx)

end FreeQueue
