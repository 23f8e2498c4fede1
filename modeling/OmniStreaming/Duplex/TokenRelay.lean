import OmniStreaming.Lib.Slices
import OmniStreaming.Lib.Transition

/-!
# The token relay: `worker_0to1`

The thinker (stage 0) reports its text as cumulative results. `worker_0to1` of `duplex_engine.py`
turns them into stage-1 tasks for the talker: the first result with two tokens becomes the prefill,
every later result forwards one embedding row, and the final result flushes the missing rows, one
spawned `process_and_send` task at a time, then sends the end-of-text marker and spawns
`padding_burst_task`, which sends 150 pads.

The coroutines run on one event loop, which resumes them in the order in which they became ready.
`RelayLoop` is that loop, restricted to the coroutines of one turn that touch the relay; the others
only delay it.
-/

namespace OmniStreaming

open List Option Slices Transition

variable {ε : Type*}

/-! ## Results of the thinker and inputs of the talker -/

/-- A row of an embedding tensor, with the value written into its first cell, if any. -/
structure EmbRow (ε : Type*) where
  row : ε
  stamp : Option ℤ := none
  deriving Repr, DecidableEq

/-- The thinker's output: embeddings (key `"0"`), hidden states (key `"24"`) and three embeddings of
speech tokens. -/
structure MultimodalOutput (ε : Type*) where
  embeds : List (EmbRow ε)
  hidden : List ε
  ttsBosEmbed : List ε
  ttsEosEmbed : List ε
  ttsPadEmbed : List ε
  deriving Repr, DecidableEq

/-- A stage-0 result: cumulative output of the thinker. -/
structure ThinkerResult (ε : Type*) where
  promptTokenIds : List ℕ
  tokenIds : List ℕ
  mm : MultimodalOutput ε
  finished : Bool
  deriving Repr, DecidableEq

/-- What `thinker2talker` packs for the talker. -/
structure TalkerInput (ε : Type*) where
  promptTokenIds : List ℕ
  thinkerEmbeddings : List (EmbRow ε)
  thinkerHiddenStates : List ε
  thinkerSequences : List ℕ
  thinkerInputIds : List ℕ
  ttsBosEmbed : List ε
  ttsEosEmbed : List ε
  ttsPadEmbed : List ε
  deriving Repr, DecidableEq

/-- A stage-1 task: its id is `{turn_id}_stage_1_{seq}`. -/
structure Stage1Task (ε : Type*) where
  seq : ℕ
  input : TalkerInput ε
  deriving Repr, DecidableEq

/-- The token `<|im_start|>`. -/
def imStartTokenId : ℕ := 151644

/-- The role token of a system message. -/
def systemTokenId : ℕ := 8948

/-- The role token of a user message. -/
def userTokenId : ℕ := 872

/-- The role token of an assistant message. -/
def assistantTokenId : ℕ := 77091

/-- The positions of `<|im_start|>` in a prompt. -/
def imStartIndexes (ids : List ℕ) : List ℕ := ids.findIdxs (· == imStartTokenId)

/-- The number of talker positions for the message from `s` to `e`, if it has the role token. -/
def talkerSpanLength (inputIds : List ℕ) (isLast : Bool) (s e : ℕ) : Option ℕ :=
  inputIds[s + 1]?.map fun role =>
    if role = systemTokenId then 0
    else if role = userTokenId then e - s
    else if role = assistantTokenId ∧ isLast then 9
    else 0

/-- `_compute_talker_prompt_ids_length`: the number of placeholder tokens of a prefill. -/
def computeTalkerPromptIdsLength (inputIds sequences : List ℕ) : Option ℕ :=
  let idx := imStartIndexes inputIds ++ [sequences.length]
  ((idx.zip idx.tail).zipIdx.mapM fun x =>
    talkerSpanLength inputIds (x.2 + 2 == idx.length) x.1.1 x.1.2).map sum

/-- `thinker2talker`: one placeholder for a single row, else as many as the messages ask for. -/
def thinker2talker (r : ThinkerResult ε) : Option (TalkerInput ε) :=
  (if r.mm.embeds.length = 1 then some 1
    else computeTalkerPromptIdsLength r.promptTokenIds
      (r.promptTokenIds ++ r.tokenIds)).map fun n =>
    { promptTokenIds := replicate n 0
      thinkerEmbeddings := r.mm.embeds
      thinkerHiddenStates := r.mm.hidden
      thinkerSequences := r.promptTokenIds ++ r.tokenIds
      thinkerInputIds := r.promptTokenIds
      ttsBosEmbed := r.mm.ttsBosEmbed
      ttsEosEmbed := r.mm.ttsEosEmbed
      ttsPadEmbed := r.mm.ttsPadEmbed }

/-! ## The state that the coroutines share -/

/-- The variables and metadata of the relay, its current result, the ids it has entered and the
tasks that stage 1 has received. -/
structure RelayState (ε : Type*) where
  chunkSeq : ℕ := 0
  baseNum : ℕ := 0
  stage1TargetCnt : ℕ := 10000
  padEmbeds : Option (List (EmbRow ε)) := none
  lastEmbeds : List (EmbRow ε) := []
  stg0SentIdx : Option ℕ := none
  isStg1Prefilled : Bool := false
  nextInputs : Option (TalkerInput ε) := none
  current : Option (ThinkerResult ε) := none
  registered : List ℕ := []
  submitted : List (Stage1Task ε) := []
  deriving Repr, DecidableEq

/-- Count the task, enter its id in `request_states` and hand it to `try_send_via_connector`, whose
refusal the caller ignores. -/
def RelayState.trySend (puts : ℕ → Bool) (st : RelayState ε) (seq : ℕ) (input : TalkerInput ε) :
    RelayState ε :=
  { st with
    chunkSeq := st.chunkSeq + 1
    registered := st.registered ++ [seq]
    submitted := if puts seq then st.submitted ++ [⟨seq, input⟩] else st.submitted }

/-- The result after its tensors have been cut down to position `p`, the embeddings being taken
from `embeds`. -/
def ThinkerResult.sliceAt (r : ThinkerResult ε) (embeds : List (EmbRow ε)) (p : ℕ) :
    ThinkerResult ε :=
  { r with
    mm :=
      { embeds := slice embeds p (p + 1)
        hidden := slice r.mm.hidden p (p + 1)
        ttsBosEmbed := r.mm.ttsBosEmbed.take 1
        ttsEosEmbed := r.mm.ttsEosEmbed.take 1
        ttsPadEmbed := r.mm.ttsPadEmbed.take 1 } }

/-- The last entry of a list as a list, the slice `xs[-1:]`. -/
def lastSlice {α : Type*} (xs : List α) : List α := xs.drop (xs.length - 1)

/-- The result with its tensors cut down to their last rows, and `embeds` for the embeddings. -/
def ThinkerResult.withEmbeds (r : ThinkerResult ε) (embeds : List (EmbRow ε)) : ThinkerResult ε :=
  { r with
    mm :=
      { embeds := embeds
        hidden := lastSlice r.mm.hidden
        ttsBosEmbed := lastSlice r.mm.ttsBosEmbed
        ttsEosEmbed := lastSlice r.mm.ttsEosEmbed
        ttsPadEmbed := lastSlice r.mm.ttsPadEmbed } }

/-! ## One result -/

/-- `base_num`, from the third `<|im_start|>`. With a single one `torch.cat` refuses the squeezed
tensor; with none the index is out of range. -/
def computeBaseNum (r : ThinkerResult ε) : Option ℕ :=
  let im := imStartIndexes r.promptTokenIds
  if im.length = 1 then none
  else (im ++ [(r.promptTokenIds ++ r.tokenIds).length])[2]?.map (· + 3)

/-- The first result of the turn fixes `base_num`. -/
def RelayState.setBase (st : RelayState ε) (r : ThinkerResult ε) : Option (RelayState ε) :=
  match st.stg0SentIdx with
  | some _ => some st
  | none => (computeBaseNum r).map fun b => { st with baseNum := b, stg0SentIdx := some 0 }

/-- The final result fixes the number of tokens and the embeddings to flush from. -/
def RelayState.noteFinished (st : RelayState ε) (r : ThinkerResult ε) : RelayState ε :=
  if r.finished then
    { st with
      stage1TargetCnt := (r.promptTokenIds ++ r.tokenIds).length
      lastEmbeds := r.mm.embeds }
  else st

/-- Send one task: the prefill if there was none, else the next row. Past the target the row is not
cut out and the input of the task before goes out again. -/
def RelayState.toss (puts : ℕ → Bool) (st : RelayState ε) (r : ThinkerResult ε) (lastIdx : ℕ) :
    Option (RelayState ε) :=
  let position := st.baseNum + lastIdx + 1
  if st.isStg1Prefilled then
    if position < st.stage1TargetCnt then
      let cut := r.sliceAt r.mm.embeds position
      (thinker2talker cut).map fun input =>
        { st with
          padEmbeds := st.padEmbeds <|> some cut.mm.embeds
          nextInputs := some input
          current := some cut
          stg0SentIdx := some (lastIdx + 1) : RelayState ε }.trySend puts st.chunkSeq input
    else
      st.nextInputs.map fun input =>
        { st with current := some r, stg0SentIdx := some lastIdx : RelayState ε }.trySend puts
          st.chunkSeq input
  else
    (thinker2talker r).map fun input =>
      { st with
        isStg1Prefilled := true
        nextInputs := some input
        current := some r
        stg0SentIdx := some 0 : RelayState ε }.trySend puts st.chunkSeq input

/-- Write a value into the first cell of a tensor; a tensor without rows has none. -/
def stampFirst (v : ℤ) : List (EmbRow ε) → Option (List (EmbRow ε))
  | [] => none
  | x :: xs => some ({ x with stamp := some v } :: xs)

/-- Send the stored row with `v` in its first cell, as marker or pad, if there is one. -/
def RelayState.sendStamped (puts : ℕ → Bool) (v : ℤ) (st : RelayState ε) : Option (RelayState ε) :=
  (st.padEmbeds.bind (stampFirst v)).bind fun raw =>
    st.current.bind fun r =>
      let cut := r.withEmbeds raw
      (thinker2talker cut).map fun input =>
        { st with padEmbeds := some raw, current := some cut : RelayState ε }.trySend puts
          st.chunkSeq input

/-- `process_and_send`: send row `p` of the final embeddings under an id fixed by the caller. -/
def RelayState.processAndSend (puts : ℕ → Bool) (st : RelayState ε) (seq p : ℕ) :
    Option (RelayState ε) :=
  st.current.bind fun r =>
    let cut := r.sliceAt st.lastEmbeds p
    (thinker2talker cut).map fun input =>
      { st with current := some cut : RelayState ε }.trySend puts seq input

/-! ## The event loop -/

/-- A ready coroutine: `worker_0to1` in its flush loop, a spawned `process_and_send`, or
`padding_burst_task` with its pads to send. -/
inductive RelayTask
  | worker (pos lastIdx : ℕ)
  | processAndSend (seq p : ℕ)
  | paddingBurst (left : ℕ)
  deriving Repr, DecidableEq

/-- The relay on the event loop: state, results in `stage_queues[0]`, ready coroutines in order, and
whether `worker_0to1` waits or has raised. -/
structure RelayLoop (ε : Type*) where
  st : RelayState ε := {}
  inbox : List (ThinkerResult ε)
  ready : List RelayTask := []
  idle : Bool := true
  raised : Bool := false
  deriving Repr, DecidableEq

/-- The number of pads that `padding_burst_task` sends. -/
def padBurst : ℕ := 150

/-- `worker_0to1` in its flush loop at `pos`: spawn the task for that row and yield, or send the
marker and spawn the pads. -/
def RelayLoop.resumeFlush (puts : ℕ → Bool) (l : RelayLoop ε) (pos lastIdx : ℕ) : RelayLoop ε :=
  if pos < l.st.stage1TargetCnt - 1 then
    { l with
      st := { l.st with stg0SentIdx := some lastIdx }
      ready := l.ready ++ [.processAndSend l.st.chunkSeq pos, .worker (pos + 1) lastIdx]
      idle := false }
  else
    match l.st.sendStamped puts 999 with
    | none => { l with idle := false, raised := true }
    | some st =>
      { l with
        st := { st with stg0SentIdx := some (lastIdx + 1) }
        ready := l.ready ++ [.paddingBurst padBurst]
        idle := true }

/-- `worker_0to1` takes a result and runs until it awaits something. -/
def RelayLoop.recvResult (puts : ℕ → Bool) (l : RelayLoop ε) (r : ThinkerResult ε) : RelayLoop ε :=
  match l.st.setBase r with
  | none => { l with idle := false, raised := true }
  | some st =>
    let st := st.noteFinished r
    let lastIdx := st.stg0SentIdx.getD 0
    let minTokenRequired := if st.isStg1Prefilled then 1 else 2
    if lastIdx + minTokenRequired ≤ r.tokenIds.length then
      match st.toss puts r lastIdx with
      | none => { l with idle := false, raised := true }
      | some st =>
        if r.finished then
          let lastIdx := st.stg0SentIdx.getD 0
          RelayLoop.resumeFlush puts { l with st := st } (st.baseNum + lastIdx + 1) lastIdx
        else { l with st := st }
    else { l with st := st }

/-- Run one ready coroutine until it yields. An exception in a spawned task ends that task. -/
def RelayLoop.runTask (puts : ℕ → Bool) (l : RelayLoop ε) : RelayTask → RelayLoop ε
  | .worker pos lastIdx => l.resumeFlush puts pos lastIdx
  | .processAndSend seq p =>
    match l.st.processAndSend puts seq p with
    | none => l
    | some st => { l with st := st }
  | .paddingBurst 0 => l
  | .paddingBurst (left + 1) =>
    match l.st.sendStamped puts (-999) with
    | none => l
    | some st => { l with st := st, ready := l.ready ++ [.paddingBurst left] }

/-- `worker_0to1` receives a result, or the coroutine that has been ready for longest runs. -/
inductive RelayAct
  | recv
  | tick
  deriving Repr, DecidableEq

def relayStep (puts : ℕ → Bool) (l : RelayLoop ε) : RelayAct → Option (RelayLoop ε)
  | .recv =>
    match l.raised, l.idle, l.inbox with
    | false, true, r :: rest => some (RelayLoop.recvResult puts { l with inbox := rest } r)
    | _, _, _ => none
  | .tick =>
    match l.ready with
    | [] => none
    | t :: rest => some (RelayLoop.runTask puts { l with ready := rest } t)

/-! ## What one send does -/

/-- Every `<|im_start|>` of the prompt is followed by a role token. -/
def WellRoled (ids : List ℕ) : Prop := ∀ s ∈ imStartIndexes ids, s + 1 < ids.length

/-- With a role token behind every `<|im_start|>` the length of the talker prompt is defined. -/
lemma exists_computeTalkerPromptIdsLength {inputIds : List ℕ} (h : WellRoled inputIds)
    (sequences : List ℕ) : ∃ n, computeTalkerPromptIdsLength inputIds sequences = some n := by
  set idx := imStartIndexes inputIds ++ [sequences.length] with hidx
  have hspan : ∀ x ∈ (idx.zip idx.tail).zipIdx,
      ∃ n, talkerSpanLength inputIds (x.2 + 2 == idx.length) x.1.1 x.1.2 = some n := by
    rintro ⟨⟨a, b⟩, i⟩ hx
    obtain ⟨-, hlt, hget⟩ := mem_zipIdx hx
    rw [length_zip, length_tail, Nat.zero_add] at hlt
    have hi : i < (imStartIndexes inputIds).length := by
      simp only [hidx, length_append, length_singleton] at hlt
      omega
    have ha : a = (imStartIndexes inputIds)[i] := by
      have hab := congrArg Prod.fst hget
      simpa [hidx, getElem_append_left hi] using hab
    have hrole : a + 1 < inputIds.length := h a (ha ▸ getElem_mem hi)
    exact ⟨_, by rw [talkerSpanLength, getElem?_eq_getElem hrole, map_some]⟩
  suffices hmap : ∃ ns, (idx.zip idx.tail).zipIdx.mapM (fun x =>
      talkerSpanLength inputIds (x.2 + 2 == idx.length) x.1.1 x.1.2) = some ns by
    obtain ⟨ns, hns⟩ := hmap
    exact ⟨ns.sum, by simp only [computeTalkerPromptIdsLength, ← hidx, hns, map_some]⟩
  generalize (idx.zip idx.tail).zipIdx = spans at hspan
  induction spans with
  | nil => exact ⟨[], rfl⟩
  | cons x xs ih =>
    obtain ⟨n, hn⟩ := hspan x mem_cons_self
    obtain ⟨ns, hns⟩ := ih fun y hy => hspan y (mem_cons_of_mem x hy)
    exact ⟨n :: ns, by rw [mapM_cons, hn, hns]; rfl⟩

variable {r : ThinkerResult ε} {st : RelayState ε} {puts : ℕ → Bool} {l : RelayLoop ε}
  {I D : RelayState ε → ℕ → Prop} {base x : ℕ}

lemma exists_thinker2talker (h : WellRoled r.promptTokenIds) :
    ∃ input, thinker2talker r = some input ∧ input.thinkerEmbeddings = r.mm.embeds := by
  obtain ⟨n, hn⟩ := exists_computeTalkerPromptIdsLength h (r.promptTokenIds ++ r.tokenIds)
  unfold thinker2talker
  split
  · exact ⟨_, rfl, rfl⟩
  · exact ⟨_, by rw [hn]; rfl, rfl⟩

/-- The states before and after a task with the given id and embeddings is sent and accepted. -/
structure SentTask (st st' : RelayState ε) (seq : ℕ) (payload : List (EmbRow ε)) : Prop where
  chunkSeq : st'.chunkSeq = st.chunkSeq + 1
  submitted : ∃ input, input.thinkerEmbeddings = payload ∧
    st'.submitted = st.submitted ++ [⟨seq, input⟩]
  baseNum : st'.baseNum = st.baseNum
  target : st'.stage1TargetCnt = st.stage1TargetCnt
  lastEmbeds : st'.lastEmbeds = st.lastEmbeds
  current : ∃ r, st'.current = some r ∧ WellRoled r.promptTokenIds

section Accepting

variable {puts : ℕ → Bool} {st : RelayState ε} {r : ThinkerResult ε}

section

variable (hputs : ∀ i, puts i = true)
include hputs

/-- Sending from a state that differs from `st` only in fields `SentTask` does not constrain. -/
lemma sentTask_trySend {mid : RelayState ε} {seq : ℕ} {input : TalkerInput ε}
    (hseq : mid.chunkSeq = st.chunkSeq) (hsub : mid.submitted = st.submitted)
    (hbase : mid.baseNum = st.baseNum) (htarget : mid.stage1TargetCnt = st.stage1TargetCnt)
    (hlast : mid.lastEmbeds = st.lastEmbeds) (hcur : mid.current = some r)
    (hr : WellRoled r.promptTokenIds) :
    SentTask st (mid.trySend puts seq input) seq input.thinkerEmbeddings where
  chunkSeq := by simp [RelayState.trySend, hseq]
  submitted := ⟨input, rfl, by simp [RelayState.trySend, hputs, hsub]⟩
  baseNum := hbase
  target := htarget
  lastEmbeds := hlast
  current := ⟨r, hcur, hr⟩

lemma toss_prefill (x : ℕ) (hpre : st.isStg1Prefilled = false)
    (hr : WellRoled r.promptTokenIds) :
    ∃ st', st.toss puts r x = some st' ∧ SentTask st st' st.chunkSeq r.mm.embeds ∧
      st'.isStg1Prefilled = true ∧ st'.stg0SentIdx = some 0 ∧ st'.padEmbeds = st.padEmbeds ∧
      ∃ input, st'.nextInputs = some input ∧ input.thinkerEmbeddings = r.mm.embeds := by
  obtain ⟨input, hin, hemb⟩ := exists_thinker2talker hr
  refine ⟨RelayState.trySend puts { st with
      isStg1Prefilled := true
      nextInputs := some input
      current := some r
      stg0SentIdx := some 0 } st.chunkSeq input, ?_, ?_, rfl, rfl, rfl, input, rfl, hemb⟩
  · simp [RelayState.toss, hpre, hin]
  · rw [← hemb]
    exact sentTask_trySend hputs rfl rfl rfl rfl rfl rfl hr

/-- A later result forwards the row at the current position while that lies before the target. -/
lemma toss_row {x : ℕ} (hpre : st.isStg1Prefilled = true)
    (hpos : st.baseNum + x + 1 < st.stage1TargetCnt) (hr : WellRoled r.promptTokenIds) :
    ∃ st', st.toss puts r x = some st' ∧
      SentTask st st' st.chunkSeq
        (slice r.mm.embeds (st.baseNum + x + 1) (st.baseNum + x + 2)) ∧
      st'.isStg1Prefilled = true ∧ st'.stg0SentIdx = some (x + 1) ∧
      st'.padEmbeds = (st.padEmbeds <|>
        some (slice r.mm.embeds (st.baseNum + x + 1) (st.baseNum + x + 2))) ∧
      ∃ input, st'.nextInputs = some input ∧ input.thinkerEmbeddings =
        slice r.mm.embeds (st.baseNum + x + 1) (st.baseNum + x + 2) := by
  set cut := r.sliceAt r.mm.embeds (st.baseNum + x + 1) with hcut
  have hw : WellRoled cut.promptTokenIds := hr
  obtain ⟨input, hin, hemb⟩ := exists_thinker2talker hw
  have hslice : cut.mm.embeds = slice r.mm.embeds (st.baseNum + x + 1) (st.baseNum + x + 2) := rfl
  refine ⟨RelayState.trySend puts { st with
      padEmbeds := st.padEmbeds <|> some cut.mm.embeds
      nextInputs := some input
      current := some cut
      stg0SentIdx := some (x + 1) } st.chunkSeq input, ?_, ?_, hpre, rfl, rfl, input, rfl, hemb⟩
  · simp only [RelayState.toss, hpre, hpos, ← hcut, hin, if_true, map_some]
  · rw [← hslice, ← hemb]
    exact sentTask_trySend hputs rfl rfl rfl rfl rfl rfl hw

/-- At or past the target the input of the task before goes out once more. -/
lemma toss_stale {x : ℕ} {input : TalkerInput ε} (hpre : st.isStg1Prefilled = true)
    (hpos : st.stage1TargetCnt ≤ st.baseNum + x + 1) (hnext : st.nextInputs = some input)
    (hr : WellRoled r.promptTokenIds) :
    ∃ st', st.toss puts r x = some st' ∧
      SentTask st st' st.chunkSeq input.thinkerEmbeddings ∧
      st'.isStg1Prefilled = true ∧ st'.stg0SentIdx = some x ∧ st'.padEmbeds = st.padEmbeds ∧
      st'.nextInputs = some input := by
  have hnot : ¬ st.baseNum + x + 1 < st.stage1TargetCnt := by omega
  refine ⟨RelayState.trySend puts { st with current := some r, stg0SentIdx := some x } st.chunkSeq
    input, ?_, ?_, hpre, rfl, rfl, hnext⟩
  · simp only [RelayState.toss, hpre, hnot, hnext, if_true, if_false, map_some]
  · exact sentTask_trySend hputs rfl rfl rfl rfl rfl rfl hr

section

variable (hcur : ∃ r, st.current = some r ∧ WellRoled r.promptTokenIds)
include hcur

lemma processAndSend_sent (seq p : ℕ) :
    ∃ st', st.processAndSend puts seq p = some st' ∧
      SentTask st st' seq (slice st.lastEmbeds p (p + 1)) ∧ st'.padEmbeds = st.padEmbeds := by
  obtain ⟨r, hr, hroles⟩ := hcur
  set cut := r.sliceAt st.lastEmbeds p with hcut
  have hw : WellRoled cut.promptTokenIds := hroles
  obtain ⟨input, hin, hemb⟩ := exists_thinker2talker hw
  have hslice : cut.mm.embeds = slice st.lastEmbeds p (p + 1) := rfl
  refine ⟨RelayState.trySend puts { st with current := some cut } seq input, ?_, ?_, rfl⟩
  · simp only [RelayState.processAndSend, hr, bind_some, ← hcut, hin, map_some]
  · rw [← hslice, ← hemb]
    exact sentTask_trySend hputs rfl rfl rfl rfl rfl rfl hw

/-- With a stored row the marker and the pads go out. -/
lemma sendStamped_sent {e : EmbRow ε} {es : List (EmbRow ε)} (hpad : st.padEmbeds = some (e :: es))
    (v : ℤ) :
    ∃ st', st.sendStamped puts v = some st' ∧
      SentTask st st' st.chunkSeq ({ e with stamp := some v } :: es) ∧
      st'.padEmbeds = some ({ e with stamp := some v } :: es) := by
  obtain ⟨r, hr, hroles⟩ := hcur
  set raw := { e with stamp := some v } :: es with hraw
  set cut := r.withEmbeds raw with hcut
  have hw : WellRoled cut.promptTokenIds := hroles
  obtain ⟨input, hin, hemb⟩ := exists_thinker2talker hw
  have hembeds : cut.mm.embeds = raw := rfl
  refine ⟨RelayState.trySend puts { st with padEmbeds := some raw, current := some cut }
    st.chunkSeq input, ?_, ?_, rfl⟩
  · simp only [RelayState.sendStamped, hpad, stampFirst, hr, bind_some, ← hraw, ← hcut,
      hin, map_some]
  · rw [← hembeds, ← hemb]
    exact sentTask_trySend hputs rfl rfl rfl rfl rfl rfl hw

end

end

end Accepting

/-- Without a stored row the marker raises. -/
lemma sendStamped_of_no_row (puts : ℕ → Bool) (v : ℤ)
    (hpad : st.padEmbeds = none ∨ st.padEmbeds = some []) : st.sendStamped puts v = none := by
  rcases hpad with hpad | hpad <;> simp [RelayState.sendStamped, hpad, stampFirst]

/-! ## Steps of the loop -/

/-- A step: the waiting worker receives a result, or the head of the ready queue runs. -/
lemma relayStep_cases {l' : RelayLoop ε} {a : RelayAct} (h : relayStep puts l a = some l') :
    (∃ r rest, l.raised = false ∧ l.idle = true ∧ l.inbox = r :: rest ∧
      l' = RelayLoop.recvResult puts { l with inbox := rest } r) ∨
    (∃ t rest, l.ready = t :: rest ∧ l' = RelayLoop.runTask puts { l with ready := rest } t) := by
  cases a with
  | recv =>
    simp only [relayStep] at h
    split at h
    · rename_i r rest hraised hidle hinbox
      exact .inl ⟨r, rest, hraised, hidle, hinbox, (some.inj h).symm⟩
    · cases h
  | tick =>
    simp only [relayStep] at h
    split at h
    · cases h
    · rename_i t rest hready
      exact .inr ⟨t, rest, hready, (some.inj h).symm⟩

@[simp] lemma inbox_resumeFlush (puts : ℕ → Bool) (l : RelayLoop ε) (pos x : ℕ) :
    (l.resumeFlush puts pos x).inbox = l.inbox := by
  unfold RelayLoop.resumeFlush
  split
  · rfl
  · split <;> rfl

@[simp] lemma inbox_recvResult (puts : ℕ → Bool) (l : RelayLoop ε) (r : ThinkerResult ε) :
    (l.recvResult puts r).inbox = l.inbox := by
  simp only [RelayLoop.recvResult]
  repeat' split
  all_goals simp

/-- A rule for the flush: `I st pos` at the head of its loop, and `D st left` while `left` pads are
to be sent. -/
structure FlushRule (puts : ℕ → Bool) (I D : RelayState ε → ℕ → Prop) : Prop where
  setSentIdx : ∀ {st pos} (x : ℕ), I st pos → I { st with stg0SentIdx := some x } pos
  send : ∀ {st pos}, I st pos → pos < st.stage1TargetCnt - 1 →
    ∃ st', st.processAndSend puts st.chunkSeq pos = some st' ∧ I st' (pos + 1)
  mark : ∀ {st pos st'} (x : ℕ), I st pos → st.stage1TargetCnt - 1 ≤ pos →
    st.sendStamped puts 999 = some st' → D { st' with stg0SentIdx := some x } padBurst
  pad : ∀ {st left}, D st (left + 1) →
    ∃ st', st.sendStamped puts (-999) = some st' ∧ D st' left

/-- From the flush on: the worker is at the head of its loop, or behind the task it has spawned, or
the pads go out, or it has raised for want of a row. -/
inductive FlushPhase (puts : ℕ → Bool) (I D : RelayState ε → ℕ → Prop) (l : RelayLoop ε) : Prop
  | head (pos x : ℕ) (ready : l.ready = [.worker pos x]) (inbox : l.inbox = [])
      (idle : l.idle = false) (raised : l.raised = false) (inv : I l.st pos)
  | spawned (pos x : ℕ) (ready : l.ready = [.processAndSend l.st.chunkSeq pos, .worker (pos + 1) x])
      (inbox : l.inbox = []) (idle : l.idle = false) (raised : l.raised = false)
      (inv : I l.st pos) (more : pos < l.st.stage1TargetCnt - 1)
  | padding (left : ℕ) (ready : l.ready = [.paddingBurst left]) (inbox : l.inbox = [])
      (idle : l.idle = true) (raised : l.raised = false) (inv : D l.st left)
  | padded (ready : l.ready = []) (inbox : l.inbox = []) (idle : l.idle = true)
      (raised : l.raised = false) (inv : D l.st 0)
  | failed (pos : ℕ) (ready : l.ready = []) (inbox : l.inbox = []) (idle : l.idle = false)
      (raised : l.raised = true) (inv : I l.st pos) (noRow : l.st.sendStamped puts 999 = none)

/-- The worker enters or resumes its flush loop. -/
lemma flushPhase_resumeFlush (rule : FlushRule puts I D) {pos : ℕ} (x : ℕ) (hready : l.ready = [])
    (hinbox : l.inbox = []) (hraised : l.raised = false) (hinv : I l.st pos) :
    FlushPhase puts I D (l.resumeFlush puts pos x) := by
  unfold RelayLoop.resumeFlush
  by_cases hmore : pos < l.st.stage1TargetCnt - 1
  · rw [if_pos hmore]
    exact .spawned pos x (by simp [hready]) hinbox rfl hraised (rule.setSentIdx x hinv) hmore
  · rw [if_neg hmore]
    cases hmark : l.st.sendStamped puts 999 with
    | none => exact .failed pos hready hinbox rfl rfl hinv hmark
    | some st =>
      exact .padding padBurst (by simp [hready]) hinbox rfl hraised
        (rule.mark (x + 1) hinv (by omega) hmark)

/-- Once the flush has begun, every step of the loop stays in it. -/
lemma flushPhase_step (rule : FlushRule puts I D) {l' : RelayLoop ε} {a : RelayAct}
    (h : FlushPhase puts I D l) (hstep : relayStep puts l a = some l') :
    FlushPhase puts I D l' := by
  rcases relayStep_cases hstep with ⟨r, rest, -, -, hin, -⟩ | ⟨t, rest, hready, rfl⟩
  · -- no result is left to receive
    have hempty : l.inbox = [] := by cases h <;> assumption
    rw [hempty] at hin
    cases hin
  · cases h with
    | head pos x hr hin hidle hraised hinv =>
      rw [hr, cons.injEq] at hready
      obtain ⟨rfl, rfl⟩ := hready
      exact flushPhase_resumeFlush rule x rfl hin hraised hinv
    | spawned pos x hr hin hidle hraised hinv hmore =>
      rw [hr, cons.injEq] at hready
      obtain ⟨rfl, rfl⟩ := hready
      obtain ⟨st', hsend, hinv'⟩ := rule.send hinv hmore
      simp only [RelayLoop.runTask, hsend]
      exact .head (pos + 1) x rfl hin hidle hraised hinv'
    | padding left hr hin hidle hraised hinv =>
      rw [hr, cons.injEq] at hready
      obtain ⟨rfl, rfl⟩ := hready
      cases left with
      | zero => exact .padded rfl hin hidle hraised hinv
      | succ left =>
        obtain ⟨st', hsend, hinv'⟩ := rule.pad hinv
        simp only [RelayLoop.runTask, hsend]
        exact .padding left rfl hin hidle hraised hinv'
    | padded hr => rw [hr] at hready; cases hready
    | failed pos hr => rw [hr] at hready; cases hready

/-- A spawned task does not move the target of the flush. -/
lemma stage1TargetCnt_processAndSend {st' : RelayState ε} {seq p : ℕ}
    (h : st.processAndSend puts seq p = some st') : st'.stage1TargetCnt = st.stage1TargetCnt := by
  simp only [RelayState.processAndSend, bind_eq_some_iff, map_eq_some_iff] at h
  obtain ⟨r, -, input, -, rfl⟩ := h
  rfl

/-- From the head of its loop the worker gets to the end of the flush. -/
lemma exists_run_flush (rule : FlushRule puts I D) (n : ℕ) :
    ∀ (l : RelayLoop ε) (pos x : ℕ), l.ready = [.worker pos x] → l.inbox = [] →
      I l.st pos → l.st.stage1TargetCnt - 1 - pos = n →
      ∃ acts l', run (relayStep puts) l acts = some l' ∧ l'.inbox = [] ∧
        (l'.idle = true ∨ l'.raised = true) := by
  induction n with
  | zero =>
    intro l pos x hready hin _ hn
    have hend : ¬ pos < l.st.stage1TargetCnt - 1 := by omega
    refine ⟨[.tick], RelayLoop.resumeFlush puts { l with ready := [] } pos x, ?_, by simp [hin], ?_⟩
    · simp [relayStep, hready, RelayLoop.runTask]
    · simp only [RelayLoop.resumeFlush, hend, if_false]
      split <;> simp
  | succ n ih =>
    intro l pos x hready hin hinv hn
    have hmore : pos < l.st.stage1TargetCnt - 1 := by omega
    obtain ⟨st', hsend, hinv'⟩ := rule.send (rule.setSentIdx x hinv) hmore
    have htarget := stage1TargetCnt_processAndSend hsend
    obtain ⟨acts, l', hrun, hl'⟩ :=
      ih { l with st := st', ready := [.worker (pos + 1) x], idle := false } (pos + 1) x rfl hin
        hinv' (by simp only [htarget]; omega)
    refine ⟨.tick :: .tick :: acts, l', ?_, hl'⟩
    simp only [run_cons, relayStep, hready, RelayLoop.runTask, RelayLoop.resumeFlush, hmore,
      if_true, nil_append, bind_some, hsend, hrun]

/-- Wherever it stands in the flush, the worker gets to its end. -/
lemma FlushPhase.exists_run_end (rule : FlushRule puts I D) (h : FlushPhase puts I D l) :
    ∃ acts l', run (relayStep puts) l acts = some l' ∧ l'.inbox = [] ∧
      (l'.idle = true ∨ l'.raised = true) := by
  cases h with
  | head pos x hready hin hidle hraised hinv =>
    exact exists_run_flush rule _ l pos x hready hin hinv rfl
  | spawned pos x hready hin hidle hraised hinv hmore =>
    obtain ⟨st', hsend, hinv'⟩ := rule.send hinv hmore
    obtain ⟨acts, l', hrun, hl'⟩ :=
      exists_run_flush rule _ { l with st := st', ready := [.worker (pos + 1) x] } (pos + 1) x rfl
        hin hinv' rfl
    refine ⟨.tick :: acts, l', ?_, hl'⟩
    simp only [run_cons, relayStep, hready, RelayLoop.runTask, hsend, bind_some, hrun]
  | padding left _ hin hidle => exact ⟨[], l, rfl, hin, .inl hidle⟩
  | padded _ hin hidle => exact ⟨[], l, rfl, hin, .inl hidle⟩
  | failed pos _ hin _ hraised => exact ⟨[], l, rfl, hin, .inr hraised⟩

/-- The state in which `worker_0to1` decides on a result: base position set, and target and final
embeddings if it is finished. -/
def RelayState.prepared (st : RelayState ε) (r : ThinkerResult ε) (base x : ℕ) : RelayState ε :=
  { st with
    baseNum := base
    stg0SentIdx := some x
    stage1TargetCnt :=
      if r.finished then (r.promptTokenIds ++ r.tokenIds).length else st.stage1TargetCnt
    lastEmbeds := if r.finished then r.mm.embeds else st.lastEmbeds }

/-- The relay stands at row `x` behind `base`, or nothing is set and the result sets it to the
start. -/
def RelayState.StandsAt (st : RelayState ε) (r : ThinkerResult ε) (base x : ℕ) : Prop :=
  st.stg0SentIdx = none ∧ x = 0 ∧ computeBaseNum r = some base ∨
    st.stg0SentIdx = some x ∧ st.baseNum = base

/-- The two preparations of a result, with the base position known. -/
lemma setBase_noteFinished (h : st.StandsAt r base x) :
    ∃ st', st.setBase r = some st' ∧ st'.noteFinished r = st.prepared r base x := by
  rcases h with ⟨hidx, rfl, hbase⟩ | ⟨hidx, rfl⟩
  · refine ⟨{ st with baseNum := base, stg0SentIdx := some 0 }, ?_, ?_⟩
    · simp [RelayState.setBase, hidx, hbase]
    · cases hfin : r.finished <;> simp [RelayState.noteFinished, RelayState.prepared, hfin]
  · refine ⟨st, by simp [RelayState.setBase, hidx], ?_⟩
    cases hfin : r.finished <;> simp [RelayState.noteFinished, RelayState.prepared, hfin, ← hidx]

/-- A result with too few new tokens only prepares. -/
lemma recvResult_of_few (h : l.st.StandsAt r base x)
    (hfew : r.tokenIds.length < x + (if l.st.isStg1Prefilled then 1 else 2)) :
    l.recvResult puts r = { l with st := l.st.prepared r base x } := by
  obtain ⟨st', hset, hnote⟩ := setBase_noteFinished h
  have hnot : ¬ (l.st.prepared r base x).stg0SentIdx.getD 0 +
      (if (l.st.prepared r base x).isStg1Prefilled then 1 else 2) ≤ r.tokenIds.length :=
    not_le.mpr hfew
  simp only [RelayLoop.recvResult, hset, hnote, hnot, if_false]

/-- A non-final result with enough new tokens sends one task. -/
lemma recvResult_of_toss {st' : RelayState ε} (h : l.st.StandsAt r base x)
    (henough : x + (if l.st.isStg1Prefilled then 1 else 2) ≤ r.tokenIds.length)
    (htoss : (l.st.prepared r base x).toss puts r x = some st') :
    l.recvResult puts r =
      if r.finished then
        RelayLoop.resumeFlush puts { l with st := st' } (st'.baseNum + st'.stg0SentIdx.getD 0 + 1)
          (st'.stg0SentIdx.getD 0)
      else { l with st := st' } := by
  obtain ⟨st₀, hset, hnote⟩ := setBase_noteFinished h
  have hle : (l.st.prepared r base x).stg0SentIdx.getD 0 +
      (if (l.st.prepared r base x).isStg1Prefilled then 1 else 2) ≤ r.tokenIds.length := henough
  have hx : (l.st.prepared r base x).stg0SentIdx.getD 0 = x := rfl
  rw [hx] at hle
  simp only [RelayLoop.recvResult, hset, hnote, hx, hle, if_true, htoss]

end OmniStreaming
