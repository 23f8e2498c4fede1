import OmniStreaming.Lib.Transition
import OmniStreaming.Duplex.Vocoder

/-!
# Exact reassembly of the audio of a turn

`worker_1to2` and `worker_2toServer` of one turn, interleaved in any order: the first takes the
talker's results, the second the answers of stage 2, which come in the order of the tasks and hold
`samplesPerRow` samples for every row of the window. A sample is named by its row and its offset
in the row.

The invariant is that between two results the rows not yet sent are at most four, and at least two
once a window has been sent; so the stop token finds between one and five rows, and the overlap
that the receiver cuts is exactly what the window before has already delivered.
-/

namespace OmniStreaming

open List Slices Transition

variable {ρ : Type*}

/-! ## The two workers of a turn -/

/-- The names of the samples of a row. -/
def sampleNames (row : ρ) : List (ρ × ℕ) := (range samplesPerRow).map fun j => (row, j)

/-- The answer of stage 2 to a task. -/
def code2wavAnswer (t : Stage2Task ρ) : VocoderResult (ρ × ℕ) where
  isFinal := t.isFinal
  outputs := [{ modelOutputs := some ((t.codes.flatMap sampleNames).map fun x => { src := x }) }]

/-- A turn between talker and client: results to come, metadata, stage-2 tasks, answers, pieces. -/
structure AudioPipe (ρ : Type*) where
  incoming : List (TalkerResult ρ)
  md : TurnMetadata ρ := {}
  tasks : List (Stage2Task ρ) := []
  senderAlive : Bool := true
  answered : ℕ := 0
  pieces : List (AudioPiece (ρ × ℕ)) := []
  receiverDone : Bool := false

inductive PipeAct
  | sender
  | receiver
  deriving Repr, DecidableEq

/-- One iteration of one of the two workers. -/
def pipeStep [Zero ρ] (s : AudioPipe ρ) : PipeAct → Option (AudioPipe ρ)
  | .sender =>
    match s.senderAlive, s.incoming with
    | true, r :: rest =>
      let o := worker1to2 s.md r
      some { s with
        incoming := rest
        md := o.md
        tasks := s.tasks ++ o.sent.toList
        senderAlive := o.alive }
    | _, _ => none
  | .receiver =>
    match s.receiverDone, s.tasks[s.answered]? with
    | false, some t =>
      let o := worker2toServer s.md (code2wavAnswer t)
      some { s with
        md := o.1
        answered := s.answered + 1
        pieces := s.pieces ++ o.2.toList
        receiverDone := o.2.any AudioPiece.finished }
    | _, _ => none

/-- The audio delivered so far, sample by sample. -/
def AudioPipe.audio (s : AudioPipe ρ) : List (ρ × ℕ) :=
  s.pieces.flatMap fun p => p.cleanAudio.map Sample.src

/-- A turn's talker results: at most one row each and one in all, the stop token in the last
only. -/
structure TalkerTurn (results : List (TalkerResult ρ)) : Prop where
  rows_le_one : ∀ r ∈ results, r.rows.length ≤ 1
  stop_last : ∃ init last, results = init ++ [last] ∧ last.isStop = true ∧
    ∀ r ∈ init, r.isStop = false
  rows_pos : 0 < (results.flatMap TalkerResult.rows).length

/-- Window `i` of the rows of a turn. -/
def window (rows : List ρ) (i : ℕ) : Stage2Task ρ where
  seq := i
  isFinal := false
  codes := slice rows (3 * i) (3 * i + 5)

/-- The `_FINAL` window behind `n` ordinary ones. -/
def finalWindow [Zero ρ] (rows : List ρ) (n : ℕ) : Stage2Task ρ where
  seq := n
  isFinal := true
  codes := rows.drop (3 * n) ++ replicate (5 - (rows.length - 3 * n)) 0

/-! ## The invariant -/

/-- Before the stop token, with `n` windows sent: the buffer is a prefix of the rows, of which at
most four, and at least two after a window, are not yet sent. -/
structure SenderOpen (rows : List ρ) (n : ℕ) (s : AudioPipe ρ) : Prop where
  stop_last : ∃ init last, s.incoming = init ++ [last] ∧ last.isStop = true ∧
    ∀ r ∈ init, r.isStop = false
  rows_le_one : ∀ r ∈ s.incoming, r.rows.length ≤ 1
  rows_eq : rows = s.md.codes ++ s.incoming.flatMap TalkerResult.rows
  sentIdx : s.md.stg1SentIdx = 3 * n
  sentCount : s.md.stg2SentCount = n
  tasks_eq : s.tasks = (range n).map (window rows)
  unsent_ge : n = 0 ∨ 3 * n + 2 ≤ s.md.codes.length
  unsent_le : s.md.codes.length ≤ 3 * n + 4
  not_finished : s.md.stg1IsFinished = false

/-- After the stop token, with `n` windows and the `_FINAL` one sent. -/
structure SenderClosed [Zero ρ] (rows : List ρ) (n : ℕ) (s : AudioPipe ρ) : Prop where
  incoming_eq : s.incoming = []
  tasks_eq : s.tasks = (range n).map (window rows) ++ [finalWindow rows n]
  expected : s.md.totalVocoderExpected = some (n + 1)
  lastLen : s.md.lastChunkActualLen = some (rows.length - 3 * n)
  finished : s.md.stg1IsFinished = true
  windows_le : n = 0 ∨ 3 * n + 2 ≤ rows.length
  tail_pos : 3 * n < rows.length
  tail_le : rows.length ≤ 3 * n + 5

/-- The number of rows whose samples are out once `m` windows have been answered. -/
def coveredRows (m : ℕ) : ℕ := if m = 0 then 0 else 3 * m + 2

/-- The receiver has counted the answers, delivered their rows, and returned iff nothing is left. -/
structure ReceiverInv (rows : List ρ) (s : AudioPipe ρ) : Prop where
  answered_le : s.answered ≤ s.tasks.length
  recvCount : s.md.stg2RecvCount = s.answered
  audio_eq : s.audio = (rows.take (coveredRows s.answered)).flatMap sampleNames
  done_iff : s.receiverDone = true ↔ s.incoming = [] ∧ s.answered = s.tasks.length

/-- The invariant of a turn between talker and client. -/
structure PipeInv [Zero ρ] (rows : List ρ) (s : AudioPipe ρ) : Prop where
  alive : s.senderAlive = true
  sender : ∃ n, SenderOpen rows n s ∨ SenderClosed rows n s
  receiver : ReceiverInv rows s

lemma pipeInv_start [Zero ρ] {results : List (TalkerResult ρ)} (h : TalkerTurn results) :
    PipeInv (results.flatMap TalkerResult.rows) { incoming := results } where
  alive := rfl
  sender := ⟨0, .inl
    { stop_last := h.stop_last
      rows_le_one := h.rows_le_one
      rows_eq := rfl
      sentIdx := rfl
      sentCount := rfl
      tasks_eq := rfl
      unsent_ge := .inl rfl
      unsent_le := Nat.zero_le _
      not_finished := rfl }⟩
  receiver :=
    { answered_le := Nat.zero_le _
      recvCount := rfl
      audio_eq := by simp [AudioPipe.audio, coveredRows]
      done_iff := by
        obtain ⟨init, last, hres, -⟩ := h.stop_last
        simp [hres] }

/-! ## The sender keeps the invariant -/

variable {rows : List ρ} {n : ℕ} {s : AudioPipe ρ} {r : TalkerResult ρ}
  {rest : List (TalkerResult ρ)}

section

variable (h : SenderOpen rows n s) (hin : s.incoming = r :: rest)
include h hin

/-- The results that come before the stop leave the sender open. -/
lemma senderOpen_tail (hstop : r.isStop = false) :
    ∃ init last, rest = init ++ [last] ∧ last.isStop = true ∧ ∀ r ∈ init, r.isStop = false := by
  obtain ⟨init, last, hinit, hlast, hns⟩ := h.stop_last
  cases init with
  | nil =>
    have hr : r = last := by simpa [hin] using congrArg head? hinit
    rw [hr, hlast] at hstop
    exact absurd hstop (by simp)
  | cons a init =>
    have hrest : rest = init ++ [last] := by
      rw [hin, cons_append] at hinit
      exact (cons.inj hinit).2
    exact ⟨init, last, hrest, hlast, fun r hr => hns r (mem_cons_of_mem a hr)⟩

/-- The stop comes with the last result. -/
lemma senderOpen_stop (hstop : r.isStop = true) : rest = [] := by
  obtain ⟨init, last, hinit, -, hns⟩ := h.stop_last
  cases init with
  | nil =>
    rw [hin, nil_append] at hinit
    exact (cons.inj hinit).2
  | cons a init =>
    rw [hin, cons_append] at hinit
    have hr : r = a := (cons.inj hinit).1
    have hfalse : r.isStop = false := hns r (by simp [hr])
    rw [hstop] at hfalse
    exact absurd hfalse (by simp)

/-- The state of the turn after the sender has handled a result. -/
def AudioPipe.afterSender [Zero ρ] (s : AudioPipe ρ) (r : TalkerResult ρ)
    (rest : List (TalkerResult ρ)) : AudioPipe ρ :=
  let o := worker1to2 s.md r
  { s with incoming := rest, md := o.md, tasks := s.tasks ++ o.sent.toList, senderAlive := o.alive }

/-- A result without the stop token leaves the sender open, with or without a new window. -/
lemma senderOpen_afterSender [Zero ρ] (hstop : r.isStop = false) :
    (s.afterSender r rest).senderAlive = true ∧
      ∃ m, SenderOpen rows m (s.afterSender r rest) := by
  have hrow : r.rows.length ≤ 1 := h.rows_le_one r (by simp [hin])
  have hsmall : ∀ r' ∈ rest, r'.rows.length ≤ 1 :=
    fun r' hr' => h.rows_le_one r' (by simp [hin, hr'])
  have hrows : rows = (s.md.codes ++ r.rows) ++ rest.flatMap TalkerResult.rows := by
    rw [h.rows_eq, hin, flatMap_cons, append_assoc]
  have hle := h.unsent_le
  have hge := h.unsent_ge
  rcases lt_or_ge (s.md.codes ++ r.rows).length (s.md.stg1SentIdx + chunkUnit) with hwait | hfull
  · -- not enough rows for a window: the row is only buffered
    have hout := worker1to2_of_wait hstop hwait
    rw [length_append, h.sentIdx, chunkUnit] at hwait
    refine ⟨by simp [AudioPipe.afterSender, hout], n, ?_⟩
    simp only [AudioPipe.afterSender, hout]
    exact
      { stop_last := senderOpen_tail h hin hstop
        rows_le_one := hsmall
        rows_eq := by simpa using hrows
        sentIdx := by simpa using h.sentIdx
        sentCount := by simpa using h.sentCount
        tasks_eq := by simpa using h.tasks_eq
        unsent_ge := by simp only [codes_bufferCodes, length_append]; omega
        unsent_le := by simp only [codes_bufferCodes, length_append]; omega
        not_finished := by simpa using h.not_finished }
  · -- the row completes window `n`
    have hout := worker1to2_of_window hstop hfull
    rw [h.sentIdx, chunkUnit] at hfull
    have hwindow : slice (s.md.codes ++ r.rows) (3 * n) (3 * n + 5) =
        slice rows (3 * n) (3 * n + 5) := by
      rw [hrows, slice_append_left _ _ hfull]
    rw [length_append] at hfull
    refine ⟨by simp [AudioPipe.afterSender, hout, sendWindow], n + 1, ?_⟩
    simp only [AudioPipe.afterSender, hout]
    exact
      { stop_last := senderOpen_tail h hin hstop
        rows_le_one := hsmall
        rows_eq := by simpa using hrows
        sentIdx := by simp [sendWindow, h.sentIdx, chunkUnit, overlapSize]; omega
        sentCount := by simp [sendWindow, h.sentCount]
        tasks_eq := by
          simp [sendWindow, h.tasks_eq, h.sentIdx, h.sentCount, chunkUnit, hwindow,
            range_succ, window]
        unsent_ge := by
          simp only [codes_sendWindow, codes_bufferCodes, length_append]
          omega
        unsent_le := by
          simp only [codes_sendWindow, codes_bufferCodes, length_append]
          omega
        not_finished := by simpa [sendWindow] using h.not_finished }

omit hin in
/-- The stop token closes the turn: one to five rows are left for the `_FINAL` window. -/
lemma senderClosed_afterSender [Zero ρ] (hpos : 0 < rows.length)
    (hin : s.incoming = r :: rest) (hstop : r.isStop = true) :
    (s.afterSender r rest).senderAlive = true ∧
      SenderClosed rows n (s.afterSender r rest) := by
  have hrest : rest = [] := senderOpen_stop h hin hstop
  have hrow : r.rows.length ≤ 1 := h.rows_le_one r (by simp [hin])
  have hrows : s.md.codes ++ r.rows = rows := by
    rw [h.rows_eq, hin, hrest, flatMap_cons, flatMap_nil, append_nil]
  have hlen : s.md.codes.length + r.rows.length = rows.length := by
    rw [← hrows, length_append]
  have hle := h.unsent_le
  have hge := h.unsent_ge
  have hcodes : (s.md.bufferCodes r).codes = rows := by rw [codes_bufferCodes, hrows]
  have hsent : (s.md.bufferCodes r).stg1SentIdx = 3 * n := by
    rw [bufferCodes_stg1SentIdx, h.sentIdx]
  have hpos' : (s.md.bufferCodes r).stg1SentIdx < (s.md.bufferCodes r).codes.length := by
    rw [hcodes, hsent]
    omega
  have hfit : (s.md.bufferCodes r).codes.length ≤
      (s.md.bufferCodes r).stg1SentIdx + chunkUnit := by
    rw [hcodes, hsent, chunkUnit]
    omega
  have hout := worker1to2_of_stop s.md hstop
  rw [sendFinal_of_tail hpos' hfit, hcodes, hsent, bufferCodes_stg2SentCount, h.sentCount] at hout
  refine ⟨by simp [AudioPipe.afterSender, hout], ?_⟩
  simp only [AudioPipe.afterSender, hout]
  exact
    { incoming_eq := hrest
      tasks_eq := by simp [h.tasks_eq, finalWindow, chunkUnit]
      expected := rfl
      lastLen := rfl
      finished := rfl
      windows_le := by omega
      tail_pos := by omega
      tail_le := by omega }

end

/-! ## The receiver keeps the invariant -/

lemma length_sampleNames (row : ρ) : (sampleNames row).length = samplesPerRow := by
  simp [sampleNames]

/-- Of the audio of a window the receiver keeps the valid rows, less the overlap with the window
before. -/
lemma map_src_cleanAudio (md : TurnMetadata ρ) {isFinal : Bool} {valid pad : List ρ} (m : ℕ)
    (hfinal : isFinal = true → md.lastChunkActualLen = some valid.length)
    (hpad : isFinal = false → pad = []) :
    (cleanAudio md isFinal m
      (((valid ++ pad).flatMap sampleNames).map fun x => ({ src := x } : Sample (ρ × ℕ)))).map
        Sample.src = (valid.drop (if 1 < m then overlapSize else 0)).flatMap sampleNames := by
  have hsrc : ∀ xs : List (ρ × ℕ),
      (xs.map fun x => ({ src := x } : Sample (ρ × ℕ))).map Sample.src = xs := by
    intro xs
    simp [Function.comp_def]
  have hvalid : (if isFinal then
      fadeOut ((((valid ++ pad).flatMap sampleNames).map fun x =>
        ({ src := x } : Sample (ρ × ℕ))).take
          (md.lastChunkActualLen.getD chunkUnit * samplesPerRow))
      else (((valid ++ pad).flatMap sampleNames).map fun x =>
        ({ src := x } : Sample (ρ × ℕ)))).map Sample.src = valid.flatMap sampleNames := by
    cases isFinal with
    | true =>
      rw [if_pos rfl, map_src_fadeOut, map_take, hsrc, hfinal rfl, Option.getD_some,
        take_mul_flatMap length_sampleNames, take_left]
    | false => simp only [Bool.false_eq_true, if_false, hsrc, hpad rfl, append_nil]
  simp only [cleanAudio]
  split
  · rw [map_drop, hvalid, drop_mul_flatMap length_sampleNames]
  · rw [hvalid, drop_zero]

/-- Task `i` holds the rows `3 i` to `3 i + 5` of the turn, then nothing but padding. -/
lemma task_rows [Zero ρ] (h : ∃ n, SenderOpen rows n s ∨ SenderClosed rows n s) {i : ℕ}
    {t : Stage2Task ρ} (ht : s.tasks[i]? = some t) :
    ∃ pad, t.codes = slice rows (3 * i) (3 * i + 5) ++ pad ∧
      (t.isFinal = true →
        s.md.lastChunkActualLen = some (slice rows (3 * i) (3 * i + 5)).length) ∧
      (t.isFinal = false → pad = []) := by
  obtain ⟨n, hopen | hclosed⟩ := h
  · rw [hopen.tasks_eq, getElem?_map, Option.map_eq_some_iff] at ht
    obtain ⟨j, hj, rfl⟩ := ht
    obtain ⟨-, rfl⟩ := List.getElem?_eq_some_iff.mp hj
    exact ⟨[], by simp [window], by simp [window], fun _ => rfl⟩
  · rw [hclosed.tasks_eq] at ht
    rcases lt_or_ge i n with hi | hi
    · rw [getElem?_append_left (by simpa using hi), getElem?_map,
        Option.map_eq_some_iff] at ht
      obtain ⟨j, hj, rfl⟩ := ht
      obtain ⟨-, rfl⟩ := List.getElem?_eq_some_iff.mp hj
      exact ⟨[], by simp [window], by simp [window], fun _ => rfl⟩
    · -- the task behind the ordinary windows is the final one
      obtain ⟨hlt, -⟩ := List.getElem?_eq_some_iff.mp ht
      have hin : i = n := by
        simp at hlt
        omega
      subst hin
      have htail := hclosed.tail_le
      have hslice : slice rows (3 * i) (3 * i + 5) = rows.drop (3 * i) := by
        rw [slice, take_of_length_le]
        rw [length_drop]
        omega
      have hget : t = finalWindow rows i := by
        simpa [eq_comm] using ht
      subst hget
      refine ⟨replicate (5 - (rows.length - 3 * i)) 0, ?_, ?_, ?_⟩
      · rw [hslice]
        rfl
      · intro _
        rw [hslice, length_drop, hclosed.lastLen]
      · intro hfalse
        exact absurd hfalse (by simp [finalWindow])

/-- One more answered window covers the next rows of the turn. -/
lemma take_coveredRows_succ (rows : List ρ) (i : ℕ) :
    rows.take (coveredRows i) ++
        (slice rows (3 * i) (3 * i + 5)).drop (if 1 < i + 1 then overlapSize else 0) =
      rows.take (coveredRows (i + 1)) := by
  rcases Nat.eq_zero_or_pos i with rfl | hi
  · simp [coveredRows, slice]
  · have hcov : coveredRows i = 3 * i + 2 := by simp [coveredRows, hi.ne']
    have hcov' : coveredRows (i + 1) = 3 * i + 5 := by simp [coveredRows]; omega
    rw [hcov, hcov', if_pos (by omega), drop_slice, overlapSize,
      take_append_slice rows (by omega)]

/-- The state of the turn after the receiver has handled the answer to `t`. -/
def AudioPipe.afterReceiver (s : AudioPipe ρ) (t : Stage2Task ρ) : AudioPipe ρ :=
  let o := worker2toServer s.md (code2wavAnswer t)
  { s with
    md := o.1
    answered := s.answered + 1
    pieces := s.pieces ++ o.2.toList
    receiverDone := o.2.any AudioPiece.finished }

/-- Handling an answer delivers the rows it covers and counts it. -/
lemma receiverInv_afterReceiver [Zero ρ] {t : Stage2Task ρ} (h : PipeInv rows s)
    (ht : s.tasks[s.answered]? = some t) :
    ReceiverInv rows (s.afterReceiver t) := by
  obtain ⟨hlt, -⟩ := List.getElem?_eq_some_iff.mp ht
  obtain ⟨pad, hcodes, hfinal, hpad⟩ := task_rows h.sender ht
  have hrecv := h.receiver.recvCount
  refine
    { answered_le := hlt
      recvCount := by simp [AudioPipe.afterReceiver, worker2toServer, code2wavAnswer,
        VocoderResult.audioTensor, hrecv]
      audio_eq := ?_
      done_iff := ?_ }
  · have hpiece : (s.afterReceiver t).audio = s.audio ++
        (cleanAudio s.md t.isFinal (s.answered + 1)
          ((t.codes.flatMap sampleNames).map fun x => ({ src := x } : Sample (ρ × ℕ)))).map
            Sample.src := by
      simp [AudioPipe.audio, AudioPipe.afterReceiver, worker2toServer, code2wavAnswer,
        VocoderResult.audioTensor, hrecv]
    rw [hpiece, hcodes, map_src_cleanAudio s.md _ hfinal hpad, h.receiver.audio_eq,
      ← flatMap_append, take_coveredRows_succ]
    rfl
  · have hdone : (s.afterReceiver t).receiverDone =
        (s.md.stg1IsFinished && decide (0 < s.md.expectedCnt) &&
          decide (s.md.expectedCnt ≤ (s.answered + 1 : ℕ))) := by
      simp [AudioPipe.afterReceiver, worker2toServer, code2wavAnswer, VocoderResult.audioTensor,
        hrecv]
    rw [hdone]
    change _ ↔ s.incoming = [] ∧ s.answered + 1 = s.tasks.length
    obtain ⟨n, hopen | hclosed⟩ := h.sender
    · obtain ⟨init, last, hinc, -⟩ := hopen.stop_last
      simp [hopen.not_finished, hinc]
    · have hlen : s.tasks.length = n + 1 := by simp [hclosed.tasks_eq]
      simp only [hclosed.finished, TurnMetadata.expectedCnt, hclosed.expected,
        hclosed.incoming_eq, Option.elim_some, Bool.true_and, Bool.and_eq_true, decide_eq_true_eq,
        true_and]
      omega

/-! ## Whole turns -/

/-- A step: the sender takes a result, or the receiver the answer to the oldest open task. -/
lemma pipeStep_cases [Zero ρ] {s' : AudioPipe ρ} {a : PipeAct} (h : pipeStep s a = some s') :
    (∃ r rest, s.incoming = r :: rest ∧ s' = s.afterSender r rest) ∨
      (∃ t, s.receiverDone = false ∧ s.tasks[s.answered]? = some t ∧ s' = s.afterReceiver t) := by
  cases a with
  | sender =>
    simp only [pipeStep] at h
    split at h
    · rename_i r rest _ hin
      exact .inl ⟨r, rest, hin, (Option.some.inj h).symm⟩
    · cases h
  | receiver =>
    simp only [pipeStep] at h
    split at h
    · rename_i t hdone ht
      exact .inr ⟨t, hdone, ht, (Option.some.inj h).symm⟩
    · cases h

/-- A step of the sender keeps the receiver's part of the invariant. -/
lemma receiverInv_afterSender [Zero ρ] (h : ReceiverInv rows s) (hopen : SenderOpen rows n s)
    (hin : s.incoming = r :: rest)
    (hnew : SenderClosed rows n (s.afterSender r rest) ∨
      ∃ m, SenderOpen rows m (s.afterSender r rest)) :
    ReceiverInv rows (s.afterSender r rest) := by
  have hsuffix : (s.afterSender r rest).tasks = s.tasks ++ (worker1to2 s.md r).sent.toList := rfl
  have hlen : s.answered ≤ (s.afterSender r rest).tasks.length := by
    rw [hsuffix, length_append]
    exact h.answered_le.trans (Nat.le_add_right _ _)
  have hrecv : (worker1to2 s.md r).md.stg2RecvCount = s.md.stg2RecvCount := by
    simp only [worker1to2, sendFinal, sendWindow]
    split_ifs <;> simp
  have hnotdone : s.receiverDone = false := by
    rw [Bool.eq_false_iff, Ne, h.done_iff, hin]
    simp
  refine
    { answered_le := hlen
      recvCount := hrecv.trans h.recvCount
      audio_eq := h.audio_eq
      done_iff := ?_ }
  change s.receiverDone = true ↔ rest = [] ∧ s.answered = (s.afterSender r rest).tasks.length
  have hclosedlen : ∀ hc : SenderClosed rows n (s.afterSender r rest),
      s.answered < (s.afterSender r rest).tasks.length := by
    intro hc
    have hold : s.tasks.length = n := by simp [hopen.tasks_eq]
    have hle := h.answered_le
    rw [hc.tasks_eq, length_append, length_map, length_range,
      length_singleton]
    omega
  rcases hnew with hc | ⟨m, ho⟩
  · have hlt := hclosedlen hc
    simp only [hnotdone, Bool.false_eq_true, false_iff, not_and]
    intro _
    omega
  · obtain ⟨init, last, hinc, -⟩ := ho.stop_last
    have hrest : rest = init ++ [last] := hinc
    simp [hnotdone, hrest]

lemma pipeInv_step [Zero ρ] (hpos : 0 < rows.length) {s' : AudioPipe ρ} {a : PipeAct}
    (h : PipeInv rows s) (hstep : pipeStep s a = some s') : PipeInv rows s' := by
  rcases pipeStep_cases hstep with ⟨r, rest, hin, rfl⟩ | ⟨t, -, ht, rfl⟩
  · obtain ⟨n, hopen | hclosed⟩ := h.sender
    · cases hstop : r.isStop with
      | false =>
        obtain ⟨halive, m, hm⟩ := senderOpen_afterSender hopen hin hstop
        exact ⟨halive, ⟨m, .inl hm⟩,
          receiverInv_afterSender h.receiver hopen hin (.inr ⟨m, hm⟩)⟩
      | true =>
        obtain ⟨halive, hc⟩ := senderClosed_afterSender hopen hpos hin hstop
        exact ⟨halive, ⟨n, .inr hc⟩, receiverInv_afterSender h.receiver hopen hin (.inl hc)⟩
    · rw [hclosed.incoming_eq] at hin
      cases hin
  · refine ⟨h.alive, ?_, receiverInv_afterReceiver h ht⟩
    -- the receiver changes only its own counter in the metadata
    have hmd : (s.afterReceiver t).md = { s.md with stg2RecvCount := s.md.stg2RecvCount + 1 } := by
      simp [AudioPipe.afterReceiver, worker2toServer, code2wavAnswer, VocoderResult.audioTensor]
    obtain ⟨n, hopen | hclosed⟩ := h.sender
    · refine ⟨n, .inl ?_⟩
      obtain ⟨h1, h2, h3, h4, h5, h6, h7, h8, h9⟩ := hopen
      exact ⟨h1, h2, by rw [hmd]; exact h3, by rw [hmd]; exact h4, by rw [hmd]; exact h5, h6,
        by rw [hmd]; exact h7, by rw [hmd]; exact h8, by rw [hmd]; exact h9⟩
    · refine ⟨n, .inr ?_⟩
      obtain ⟨h1, h2, h3, h4, h5, h6, h7, h8⟩ := hclosed
      exact ⟨h1, h2, by rw [hmd]; exact h3, by rw [hmd]; exact h4, by rw [hmd]; exact h5, h6, h7,
        h8⟩

/-- While something is left to do, one of the two workers can do it. -/
lemma pipeInv_progress [Zero ρ] (h : PipeInv rows s)
    (hleft : s.incoming ≠ [] ∨ s.answered ≠ s.tasks.length) : ∃ a s', pipeStep s a = some s' := by
  cases hin : s.incoming with
  | cons r rest => exact ⟨.sender, s.afterSender r rest, by simp [pipeStep, h.alive, hin]; rfl⟩
  | nil =>
    have hne : s.answered ≠ s.tasks.length := hleft.resolve_left (fun hne => hne hin)
    have hlt : s.answered < s.tasks.length := lt_of_le_of_ne h.receiver.answered_le hne
    have hdone : s.receiverDone = false := by
      rw [Bool.eq_false_iff, Ne, h.receiver.done_iff]
      exact fun hd => hne hd.2
    have hget := getElem?_eq_getElem hlt
    exact ⟨.receiver, s.afterReceiver _, by simp only [pipeStep, hdone, hget]; rfl⟩

/-- Along every interleaving of the two workers the sender never fails; once the stop token is
handled the tasks are the windows `[3 i, 3 i + 5)` and one `_FINAL` window with the one to five
remaining rows, as many as announced; once all are answered the pieces concatenate to the samples of
all rows, in order and each once; and no interleaving gets stuck before that. -/
theorem audio_reassembly_exact [Zero ρ] {results : List (TalkerResult ρ)}
    (hturn : TalkerTurn results) {acts : List PipeAct} {s : AudioPipe ρ}
    (hrun : run pipeStep { incoming := results } acts = some s) :
    s.senderAlive = true ∧
    (s.incoming = [] →
      ∃ n, 3 * n + 1 ≤ (results.flatMap TalkerResult.rows).length ∧
        (results.flatMap TalkerResult.rows).length ≤ 3 * n + 5 ∧
        (∀ i < n, 3 * i + 5 ≤ (results.flatMap TalkerResult.rows).length) ∧
        s.tasks = (range n).map (window (results.flatMap TalkerResult.rows)) ++
          [finalWindow (results.flatMap TalkerResult.rows) n] ∧
        s.md.totalVocoderExpected = some (n + 1)) ∧
    (s.incoming = [] → s.answered = s.tasks.length →
      s.audio = (results.flatMap TalkerResult.rows).flatMap sampleNames ∧
        s.receiverDone = true) ∧
    (s.incoming ≠ [] ∨ s.answered ≠ s.tasks.length → ∃ a s', pipeStep s a = some s') := by
  set rows := results.flatMap TalkerResult.rows with hrows
  have hinv : PipeInv rows s :=
    run_invariant (fun _ _ _ hi hs => pipeInv_step hturn.rows_pos hi hs) (pipeInv_start hturn) hrun
  have hclosed : s.incoming = [] → ∃ n, SenderClosed rows n s := by
    intro hin
    obtain ⟨n, hopen | hc⟩ := hinv.sender
    · obtain ⟨init, last, hinc, -⟩ := hopen.stop_last
      rw [hin] at hinc
      exact absurd hinc (by simp)
    · exact ⟨n, hc⟩
  refine ⟨hinv.alive, fun hin => ?_, fun hin hall => ?_, pipeInv_progress hinv⟩
  · obtain ⟨n, hc⟩ := hclosed hin
    refine ⟨n, hc.tail_pos, hc.tail_le, fun i hi => ?_, hc.tasks_eq, hc.expected⟩
    have hw := hc.windows_le
    omega
  · obtain ⟨n, hc⟩ := hclosed hin
    refine ⟨?_, hinv.receiver.done_iff.mpr ⟨hin, hall⟩⟩
    have hlen : s.answered = n + 1 := by simp [hall, hc.tasks_eq]
    have hcover : rows.length ≤ coveredRows (n + 1) := by
      have htail := hc.tail_le
      simp [coveredRows]
      omega
    rw [hinv.receiver.audio_eq, hlen, take_of_length_le hcover]

/-- A turn of seven rows and then the stop token. -/
def sevenRows : List (TalkerResult ℕ) :=
  (range 7).map (fun i => ⟨i, [11], some [i]⟩) ++ [⟨7, [2150], none⟩]

/-- The first window, of five rows, is answered while rows still come; the last has two of these
again and two more. -/
def sevenRowsRun : List PipeAct :=
  replicate 5 .sender ++ [.receiver, .sender, .sender, .sender, .receiver]

/-- What is heard of the seven rows are their samples, those of the overlap once. -/
theorem audio_reassembly_sevenRows :
    TalkerTurn sevenRows ∧
      ∃ s, run pipeStep { incoming := sevenRows } sevenRowsRun = some s ∧
        s.tasks = [window (range 7) 0, finalWindow (range 7) 1] ∧
        s.audio = (range 7).flatMap sampleNames := by
  have hturn : TalkerTurn sevenRows :=
    { rows_le_one := by decide
      stop_last := ⟨_, ⟨7, [2150], none⟩, rfl, rfl, by decide⟩
      rows_pos := by decide }
  have hrun : run pipeStep { incoming := sevenRows } sevenRowsRun = some _ := rfl
  exact ⟨hturn, _, hrun, rfl, ((audio_reassembly_exact hturn hrun).2.2.1 rfl rfl).1⟩

end OmniStreaming
