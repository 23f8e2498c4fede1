import OmniStreaming.Duplex.Vocoder

/-!
# The number of vocoder results that a turn expects

At the stop token `worker_1to2` writes the number of stage-2 tasks it has sent into
`total_vocoder_expected`, and `worker_2toServer` waits for as many results. The worker counts its
calls of `try_send_via_connector`, which submits a task only if the `put` of the connector succeeds,
and reports a failure to a caller that does not look at it.

The count is set, and right, iff the turn has at least one row, the stop token finds at most
`CHUNK_UNIT` rows that have not been sent, and all puts succeed.
-/

namespace OmniStreaming

open List

variable {ρ : Type*}

/-! ## The connector -/

/-- How `put` of a connector ends. -/
inductive PutOutcome
  | success
  | failure
  | exception
  deriving Repr, DecidableEq

/-- `try_send_via_connector`: the answer to the caller and the queue of the next stage. Exceptions
are caught. -/
def trySendViaConnector {α : Type*} (put : PutOutcome) (queue : List α) (task : α) :
    Bool × List α :=
  match put with
  | .success => (true, queue ++ [task])
  | .failure => (false, queue)
  | .exception => (false, queue)

/-! ## The sender of a turn -/

/-- `worker_1to2`: the metadata, the tasks that stage 2 has received, and whether it still runs. -/
structure SenderState (ρ : Type*) where
  md : TurnMetadata ρ := {}
  stage2Queue : List (Stage2Task ρ) := []
  alive : Bool := true
  deriving Repr, DecidableEq

/-- The worker handles a result; `puts k` is the outcome of its put number `k`. -/
def SenderState.handle [Zero ρ] (puts : ℕ → PutOutcome) (s : SenderState ρ) (r : TalkerResult ρ) :
    SenderState ρ :=
  if s.alive then
    let o := worker1to2 s.md r
    { md := o.md
      stage2Queue := o.sent.elim s.stage2Queue fun task =>
        (trySendViaConnector (puts task.seq) s.stage2Queue task).2
      alive := o.alive }
  else s

/-- The worker handles results one after the other. -/
def SenderState.handleAll [Zero ρ] (puts : ℕ → PutOutcome) (s : SenderState ρ)
    (results : List (TalkerResult ρ)) : SenderState ρ :=
  results.foldl (SenderState.handle puts) s

/-! ## How many windows there are -/

/-- The number of windows that results with these numbers of rows fill, if `rows` have come and `n`
windows been sent before. -/
def windowsFilled : ℕ → ℕ → List ℕ → ℕ
  | _, n, [] => n
  | rows, n, c :: cs => windowsFilled (rows + c) (if 3 * n + 5 ≤ rows + c then n + 1 else n) cs

/-- The number of puts among the first `n` that succeed. -/
def successes (puts : ℕ → PutOutcome) (n : ℕ) : ℕ :=
  ((range n).filter fun k => puts k = .success).length

lemma successes_succ (puts : ℕ → PutOutcome) (n : ℕ) :
    successes puts (n + 1) = successes puts n + if puts n = .success then 1 else 0 := by
  rw [successes, range_succ, filter_append, length_append, successes]
  by_cases h : puts n = .success
  · simp [h]
  · simp [h]

lemma successes_eq_self_iff {puts : ℕ → PutOutcome} {n : ℕ} :
    successes puts n = n ↔ ∀ k < n, puts k = .success := by
  have hlen : successes puts n = n ↔
      ((range n).filter fun k => puts k = .success).length = (range n).length := by
    rw [length_range, successes]
  rw [hlen, length_filter_eq_length_iff]
  simp

lemma length_trySendViaConnector {α : Type*} (put : PutOutcome) (queue : List α) (task : α) :
    (trySendViaConnector put queue task).2.length =
      queue.length + if put = .success then 1 else 0 := by
  cases put with
  | success => simp [trySendViaConnector]
  | failure => rfl
  | exception => rfl

/-! ## The invariant -/

/-- Before the stop token, with `rows` rows buffered and `n` windows sent. -/
structure Counting (puts : ℕ → PutOutcome) (rows n : ℕ) (s : SenderState ρ) : Prop where
  alive : s.alive = true
  codes : s.md.codes.length = rows
  buffer : s.md.stg1AudioBuffer = [] ↔ rows = 0
  sentIdx : s.md.stg1SentIdx = 3 * n
  sentCount : s.md.stg2SentCount = n
  expected : s.md.totalVocoderExpected = none
  queue : s.stage2Queue.length = successes puts n
  ahead : n = 0 ∨ 3 * n + 2 ≤ rows

/-- Nothing is counted at the start. -/
lemma counting_start (puts : ℕ → PutOutcome) : Counting puts 0 0 ({} : SenderState ρ) where
  alive := rfl
  codes := rfl
  buffer := by simp
  sentIdx := rfl
  sentCount := rfl
  expected := rfl
  queue := rfl
  ahead := .inl rfl

variable {puts : ℕ → PutOutcome} {rows n : ℕ} {s : SenderState ρ} {r : TalkerResult ρ}

/-- The buffer after a result. -/
lemma Counting.buffered (h : Counting puts rows n s) (r : TalkerResult ρ) :
    (s.md.bufferCodes r).codes.length = rows + r.rows.length ∧
      ((s.md.bufferCodes r).stg1AudioBuffer = [] ↔ rows + r.rows.length = 0) := by
  rw [codes_bufferCodes, length_append, h.codes, bufferCodes_stg1AudioBuffer_eq_nil, h.buffer,
    ← length_eq_zero_iff]
  exact ⟨rfl, Nat.add_eq_zero_iff.symm⟩

variable [Zero ρ]

/-- A result without the stop token adds its rows, and a window if one is full. -/
lemma counting_handle (h : Counting puts rows n s) (hstop : r.isStop = false) :
    Counting puts (rows + r.rows.length)
      (if 3 * n + 5 ≤ rows + r.rows.length then n + 1 else n) (s.handle puts r) := by
  obtain ⟨hcodes, hbuffer⟩ := h.buffered r
  have hlen : (s.md.codes ++ r.rows).length = rows + r.rows.length := by
    rw [length_append, h.codes]
  have hahead := h.ahead
  simp only [SenderState.handle, h.alive, if_true]
  by_cases hfull : 3 * n + 5 ≤ rows + r.rows.length
  · rw [if_pos hfull, worker1to2_of_window hstop (by
      rw [hlen, h.sentIdx]
      exact hfull)]
    exact
      { alive := rfl
        codes := hcodes
        buffer := hbuffer
        sentIdx := by simp [sendWindow, h.sentIdx, chunkUnit, overlapSize]; omega
        sentCount := by simp [sendWindow, h.sentCount]
        expected := by simp [sendWindow, h.expected]
        queue := by
          simp [sendWindow, length_trySendViaConnector, h.queue, h.sentCount, successes_succ]
        ahead := by omega }
  · rw [if_neg hfull, worker1to2_of_wait hstop (by
      rw [hlen, h.sentIdx]
      exact Nat.lt_of_not_le hfull)]
    exact
      { alive := rfl
        codes := hcodes
        buffer := hbuffer
        sentIdx := by simp [h.sentIdx]
        sentCount := by simp [h.sentCount]
        expected := by simp [h.expected]
        queue := h.queue
        ahead := by omega }

/-- Results without the stop token add their rows and fill windows. -/
lemma counting_handleAll {results : List (TalkerResult ρ)} (h : Counting puts rows n s)
    (hstop : ∀ r ∈ results, r.isStop = false) :
    Counting puts (rows + (results.flatMap TalkerResult.rows).length)
      (windowsFilled rows n (results.map fun r => r.rows.length))
      (s.handleAll puts results) := by
  induction results generalizing rows n s with
  | nil => exact h
  | cons r results ih =>
    have hnext := ih (counting_handle h (hstop r mem_cons_self))
      fun r' hr' => hstop r' (mem_cons_of_mem r hr')
    rw [flatMap_cons, length_append, ← Nat.add_assoc]
    exact hnext

/-- The stop token sets a right count iff there are rows, not too many unsent, and all puts
succeed. -/
lemma counting_stop (h : Counting puts rows n s) (hstop : r.isStop = true) :
    (s.handle puts r).md.totalVocoderExpected = some (s.handle puts r).stage2Queue.length ↔
      0 < rows + r.rows.length ∧ rows + r.rows.length ≤ 3 * n + 5 ∧
        ∀ k < n + 1, puts k = .success := by
  obtain ⟨hcodes, hbuffer⟩ := h.buffered r
  have hahead := h.ahead
  have hsent : (s.md.bufferCodes r).stg1SentIdx = 3 * n := by simp [h.sentIdx]
  simp only [SenderState.handle, h.alive, if_true, worker1to2_of_stop _ hstop]
  rcases Nat.eq_zero_or_pos (rows + r.rows.length) with hzero | hpos
  · have hnil := hbuffer.mpr hzero
    have hfinal : (sendFinal (s.md.bufferCodes r)).md.totalVocoderExpected = none := by
      simp [sendFinal, hnil, h.expected]
    rw [hfinal]
    exact iff_of_false (by simp) (by omega)
  rcases Nat.lt_or_ge (3 * n + 5) (rows + r.rows.length) with hlong | hle
  · rw [sendFinal_of_long (by rw [hcodes, hsent]; exact hlong)]
    exact iff_of_false (by simp [h.expected]) (by omega)
  · rw [sendFinal_of_tail (by rw [hcodes, hsent]; omega) (by rw [hcodes, hsent]; exact hle)]
    simp only [bufferCodes_stg2SentCount, h.sentCount, Option.elim_some,
      length_trySendViaConnector, h.queue, ← successes_succ, Option.some.injEq]
    rw [eq_comm, successes_eq_self_iff]
    exact ⟨fun hall => ⟨hpos, hle, hall⟩, fun hall => hall.2.2⟩

/-- Once the first stop token is handled, the expected count is set and is the number of tasks that
stage 2 has received, iff the results have at least one row, at most `CHUNK_UNIT` rows were unsent,
and the puts of all windows have succeeded. -/
theorem vocoderExpected_eq_submitted_iff (puts : ℕ → PutOutcome) {init : List (TalkerResult ρ)}
    {last : TalkerResult ρ} (hinit : ∀ r ∈ init, r.isStop = false) (hlast : last.isStop = true) :
    (SenderState.handleAll puts {} (init ++ [last])).md.totalVocoderExpected =
        some (SenderState.handleAll puts {} (init ++ [last])).stage2Queue.length ↔
      0 < ((init ++ [last]).flatMap TalkerResult.rows).length ∧
      ((init ++ [last]).flatMap TalkerResult.rows).length ≤
        3 * windowsFilled 0 0 (init.map fun r => r.rows.length) + 5 ∧
      ∀ k < windowsFilled 0 0 (init.map fun r => r.rows.length) + 1, puts k = .success := by
  have hcount := counting_handleAll (counting_start puts) hinit
  rw [Nat.zero_add] at hcount
  have hsnoc : SenderState.handleAll puts {} (init ++ [last]) =
      (SenderState.handleAll puts {} init).handle puts last := by
    simp [SenderState.handleAll]
  have hrows : ((init ++ [last]).flatMap TalkerResult.rows).length =
      (init.flatMap TalkerResult.rows).length + last.rows.length := by
    simp
  rw [hsnoc, hrows]
  exact counting_stop hcount hlast

/-- Six rows: a window, and the stop token with the sixth row. -/
def sixRows : List (TalkerResult ℕ) :=
  [⟨0, [11], some [1]⟩, ⟨1, [12], some [2]⟩, ⟨2, [13], some [3]⟩, ⟨3, [14], some [4]⟩,
    ⟨4, [15], some [5]⟩]

/-- With all puts accepted, two tasks are submitted and expected. -/
theorem vocoderExpected_sixRows :
    (SenderState.handleAll (fun _ => .success) {} (sixRows ++
        [⟨5, [2150], some [6]⟩])).md.totalVocoderExpected =
      some (SenderState.handleAll (fun _ => .success) {} (sixRows ++
        [⟨5, [2150], some [6]⟩])).stage2Queue.length :=
  (vocoderExpected_eq_submitted_iff (fun _ => .success) (by decide) (by decide)).mpr
    ⟨by decide, by decide, fun _ _ => rfl⟩

/-- A stop token before any row sets no count, and with a refused put the count is one too large. -/
theorem vocoderExpected_fails :
    (SenderState.handleAll (fun _ => .success) ({} : SenderState ℕ)
      [⟨0, [2150], none⟩]).md.totalVocoderExpected = none ∧
    (SenderState.handleAll (fun k => if k = 0 then .failure else .success) {} (sixRows ++
      [⟨5, [2150], some [6]⟩])).md.totalVocoderExpected = some 2 ∧
    (SenderState.handleAll (fun k => if k = 0 then .failure else .success) {} (sixRows ++
      [⟨5, [2150], some [6]⟩])).stage2Queue.length = 1 :=
  ⟨rfl, rfl, rfl⟩

end OmniStreaming
