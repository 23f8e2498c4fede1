import Mathlib.Data.List.Basic

/-!
# What a sender makes of the results of a turn

A turn puts the outputs of the thinker, with all the text so far, and the audio of the vocoder on
the result queue of its session. A sender task takes them off again: `queue_generator` counts the
pieces of audio and sends `end_of_response` when the count reaches the expected one, and
`process_stream_output` then sends the text that is new and the audio of the same result.

`StreamCounters.respond` is a fresh sender on a list of results, and `Delivered` says what the
client is to receive. The audio of the last result comes after `end_of_response`, so a regular turn
is delivered iff that audio is empty.
-/

namespace OmniStreaming

/-! ## Results and messages -/

/-- A result: an output of stage 0 with its text, or one of stage 2 with `audio_byte`,
`total_vocoder_expected` (no value for `-1`) and its text. -/
inductive ResultItem
  | text (text : List Char)
  | audio (bytes : List UInt8) (expected : Option ℕ) (text : List Char)
  deriving DecidableEq

/-- A message to the client. -/
inductive WireMessage
  | text (content : List Char)
  | audio (bytes : List UInt8)
  | endOfResponse
  deriving DecidableEq

/-- The text of `outputs[0]`. -/
def ResultItem.content : ResultItem → List Char
  | .text t => t
  | .audio _ _ t => t

/-- The audio of a result; empty audio is not sent. -/
def ResultItem.pieces : ResultItem → List (List UInt8)
  | .text _ => []
  | .audio bytes _ _ => if bytes.isEmpty then [] else [bytes]

/-! ## The turn -/

/-- What `worker_2toServer` keeps: `stg2_recv_count`, and whether the last chunk has gone out. -/
structure TurnProgress where
  received : ℕ := 0
  finished : Bool := false
  deriving DecidableEq

/-- `is_final_chunk`. -/
def isFinalChunk (expected : Option ℕ) (received : ℕ) : Bool :=
  expected.any fun cnt => 0 < cnt && cnt ≤ received

/-- The progress after one more result. -/
def TurnProgress.after (p : TurnProgress) : ResultItem → TurnProgress
  | .text _ => p
  | .audio _ expected _ =>
    { received := p.received + 1
      finished := p.finished || isFinalChunk expected (p.received + 1) }

/-- The progress of a turn that has put out these results. -/
def progressOf (items : List ResultItem) : TurnProgress := items.foldl TurnProgress.after {}

/-- The text of the last output of stage 0. -/
def finalText (items : List ResultItem) : List Char :=
  items.foldl (fun last item => match item with
    | .text t => t
    | .audio _ _ _ => last) []

/-! ## The sender -/

/-- A sender's `stage_2_recv_count`, `total_expected` (`queue_generator`) and `previous_text`
(`process_stream_output`). -/
structure StreamCounters where
  recvCount : ℕ := 0
  totalExpected : Option ℕ := none
  previousText : List Char := []
  deriving DecidableEq

variable (c : StreamCounters)

/-- The counters of `queue_generator` after a result. -/
def StreamCounters.count : ResultItem → StreamCounters
  | .text _ => c
  | .audio _ expected _ => { c with totalExpected := expected, recvCount := c.recvCount + 1 }

/-- The message of `queue_generator`. -/
def StreamCounters.ending : List WireMessage :=
  if c.totalExpected = some c.recvCount then [.endOfResponse] else []

/-- What a sender does with a result: the counters after it, and the messages in their order. -/
def StreamCounters.accept (item : ResultItem) : StreamCounters × List WireMessage :=
  let c := c.count item
  let audio := item.pieces.map WireMessage.audio
  if c.previousText.length < item.content.length then
    ({ c with previousText := item.content },
      c.ending ++ .text (item.content.drop c.previousText.length) :: audio)
  else (c, c.ending ++ audio)

/-- What a sender does with a list of results. -/
def StreamCounters.respond (c : StreamCounters) :
    List ResultItem → StreamCounters × List WireMessage
  | [] => (c, [])
  | item :: items =>
    let (c', messages) := c.accept item
    let (c'', messages') := c'.respond items
    (c'', messages ++ messages')

/-- One more result for the sender. -/
lemma respond_append_singleton (items : List ResultItem) (item : ResultItem) :
    c.respond (items ++ [item]) =
      (((c.respond items).1.accept item).1,
        (c.respond items).2 ++ ((c.respond items).1.accept item).2) := by
  induction items generalizing c with
  | nil => simp [StreamCounters.respond]
  | cons x items ih => simp [StreamCounters.respond, ih]

/-! ## What the client is to receive -/

/-- The text in the messages. -/
def textIn (messages : List WireMessage) : List Char :=
  messages.flatMap fun m => match m with
    | .text content => content
    | _ => []

/-- The audio in the messages. -/
def audioIn (messages : List WireMessage) : List (List UInt8) :=
  messages.filterMap fun m => match m with
    | .audio bytes => some bytes
    | _ => none

/-- The texts make up the final text, the audio is that of the results, in order, and there is
exactly one `end_of_response`, behind all audio. -/
structure Delivered (items : List ResultItem) (messages : List WireMessage) : Prop where
  text : textIn messages = finalText items
  audio : audioIn messages = items.flatMap ResultItem.pieces
  once : messages.count .endOfResponse = 1
  last : ∀ before after, messages = before ++ .endOfResponse :: after → audioIn after = []

/-- A regular turn: the text grows, only stage 0 has text, and no more audio comes than expected. -/
inductive Regular : List ResultItem → Prop
  | nil : Regular []
  | text {items : List ResultItem} {text : List Char} (h : Regular items)
    (hopen : (progressOf items).finished = false) (hgrows : finalText items <+: text) :
    Regular (items ++ [.text text])
  | audio {items : List ResultItem} {bytes : List UInt8} {expected : Option ℕ} (h : Regular items)
    (hopen : (progressOf items).finished = false)
    (hcount : ∀ cnt ∈ expected, (progressOf items).received + 1 ≤ cnt) :
    Regular (items ++ [.audio bytes expected []])

/-- The audio of the last result. -/
def lastPieces (items : List ResultItem) : List (List UInt8) :=
  (items.getLast?.map ResultItem.pieces).getD []

/-- One more result of the turn. -/
@[simp] lemma progressOf_append_singleton (items : List ResultItem) (item : ResultItem) :
    progressOf (items ++ [item]) = (progressOf items).after item := by
  simp [progressOf]

@[simp] lemma finalText_append_text (items : List ResultItem) (text : List Char) :
    finalText (items ++ [.text text]) = text := by
  simp [finalText]

@[simp] lemma finalText_append_audio (items : List ResultItem) (bytes : List UInt8)
    (expected : Option ℕ) (text : List Char) :
    finalText (items ++ [.audio bytes expected text]) = finalText items := by
  simp [finalText]

@[simp] lemma textIn_append (ms ms' : List WireMessage) :
    textIn (ms ++ ms') = textIn ms ++ textIn ms' := by
  simp [textIn]

@[simp] lemma audioIn_append (ms ms' : List WireMessage) :
    audioIn (ms ++ ms') = audioIn ms ++ audioIn ms' := by
  simp [audioIn]

/-- What a fresh sender has done with the results of a regular turn. -/
structure Responded (items : List ResultItem) (c : StreamCounters) (messages : List WireMessage) :
    Prop where
  recvCount : c.recvCount = (progressOf items).received
  previousText : c.previousText = finalText items
  ending : (progressOf items).finished = false → c.totalExpected ≠ some c.recvCount
  text : textIn messages = finalText items
  audio : audioIn messages = items.flatMap ResultItem.pieces
  unfinished : (progressOf items).finished = false → .endOfResponse ∉ messages
  finished : (progressOf items).finished = true →
    ∃ front, messages = front ++ .endOfResponse :: (lastPieces items).map .audio ∧
      .endOfResponse ∉ front

lemma responded_nil : Responded [] {} [] where
  recvCount := rfl
  previousText := rfl
  ending _ := by simp
  text := rfl
  audio := rfl
  unfinished _ := List.not_mem_nil
  finished h := absurd h (by simp [progressOf])

variable {items : List ResultItem} {c : StreamCounters} {messages : List WireMessage}

/-- Of a text that continues the previous one only the rest is sent. -/
lemma accept_text_append (hending : c.ending = []) (rest : List Char) :
    c.accept (.text (c.previousText ++ rest)) =
      ({ c with previousText := c.previousText ++ rest },
        if rest = [] then [] else [.text rest]) := by
  cases rest with
  | nil => simp [StreamCounters.accept, StreamCounters.count, ResultItem.content,
      ResultItem.pieces, hending]
  | cons x rest => simp [StreamCounters.accept, StreamCounters.count, ResultItem.content,
      ResultItem.pieces, hending]

/-- Of a result without text only the audio is sent, after `end_of_response` if it is the expected
one. -/
lemma accept_audio (c : StreamCounters) (bytes : List UInt8) (expected : Option ℕ) :
    c.accept (.audio bytes expected []) =
      ({ c with totalExpected := expected, recvCount := c.recvCount + 1 },
        StreamCounters.ending { c with totalExpected := expected, recvCount := c.recvCount + 1 } ++
          (ResultItem.audio bytes expected []).pieces.map .audio) := by
  rw [StreamCounters.accept]
  exact if_neg (Nat.not_lt_zero _)

@[simp] lemma textIn_ending (c : StreamCounters) : textIn c.ending = [] := by
  unfold StreamCounters.ending
  split_ifs
  · rfl
  · rfl

@[simp] lemma audioIn_ending (c : StreamCounters) : audioIn c.ending = [] := by
  unfold StreamCounters.ending
  split_ifs
  · rfl
  · rfl

@[simp] lemma textIn_map_audio (pieces : List (List UInt8)) : textIn (pieces.map .audio) = [] := by
  simp [textIn]

@[simp] lemma audioIn_map_audio (pieces : List (List UInt8)) :
    audioIn (pieces.map .audio) = pieces := by
  simp [audioIn, List.filterMap_map]

/-- A text that grows. -/
lemma responded_text {text : List Char} (h : Responded items c messages)
    (hopen : (progressOf items).finished = false) (hgrows : finalText items <+: text) :
    Responded (items ++ [.text text]) (c.accept (.text text)).1
      (messages ++ (c.accept (.text text)).2) := by
  have hending : c.ending = [] := if_neg (h.ending hopen)
  have hprogress : progressOf (items ++ [.text text]) = progressOf items :=
    progressOf_append_singleton _ _
  obtain ⟨rest, rfl⟩ := hgrows
  rw [← h.previousText] at hprogress ⊢
  rw [accept_text_append hending]
  have hnone : WireMessage.endOfResponse ∉ (if rest = [] then [] else [WireMessage.text rest]) := by
    split_ifs
    · exact List.not_mem_nil
    · simp
  constructor
  · rw [hprogress]
    exact h.recvCount
  · rw [finalText_append_text]
  · rw [hprogress]
    exact h.ending
  · rw [finalText_append_text, textIn_append, h.text, ← h.previousText]
    split_ifs with hrest
    · simp [textIn, hrest]
    · simp [textIn]
  · rw [audioIn_append, h.audio]
    split_ifs
    · simp [audioIn, ResultItem.pieces]
    · simp [audioIn, ResultItem.pieces]
  · rw [hprogress]
    exact fun hopen => by simp [h.unfinished hopen, hnone]
  · rw [hprogress, hopen]
    exact fun hfinished => by cases hfinished

/-- The chunk is final iff it is the expected one. -/
lemma isFinalChunk_iff {expected : Option ℕ} {received : ℕ}
    (hcount : ∀ cnt ∈ expected, received + 1 ≤ cnt) :
    isFinalChunk expected (received + 1) = true ↔ expected = some (received + 1) := by
  cases expected with
  | none => simp [isFinalChunk]
  | some cnt =>
    have hle := hcount cnt rfl
    simp only [isFinalChunk, Option.any_some, Bool.and_eq_true, decide_eq_true_eq,
      Option.some.injEq]
    omega

/-- A piece of audio. -/
lemma responded_audio {bytes : List UInt8} {expected : Option ℕ} (h : Responded items c messages)
    (hopen : (progressOf items).finished = false)
    (hcount : ∀ cnt ∈ expected, (progressOf items).received + 1 ≤ cnt) :
    Responded (items ++ [.audio bytes expected []]) (c.accept (.audio bytes expected [])).1
      (messages ++ (c.accept (.audio bytes expected [])).2) := by
  have hprogress : progressOf (items ++ [.audio bytes expected []]) =
      { received := (progressOf items).received + 1
        finished := isFinalChunk expected ((progressOf items).received + 1) } := by
    rw [progressOf_append_singleton, TurnProgress.after, hopen, Bool.false_or]
  have hfinal := isFinalChunk_iff hcount
  rw [accept_audio, h.recvCount]
  constructor
  · rw [hprogress]
  · rw [finalText_append_audio]
    exact h.previousText
  · rw [hprogress]
    exact fun hopen heq => by simp [hfinal.mpr heq] at hopen
  · rw [finalText_append_audio, textIn_append, h.text, textIn_append, textIn_ending,
      textIn_map_audio, List.append_nil, List.append_nil]
  · rw [audioIn_append, h.audio, List.flatMap_append, audioIn_append, audioIn_ending,
      audioIn_map_audio]
    simp
  · rw [hprogress]
    intro hopen'
    have hne : ¬ expected = some ((progressOf items).received + 1) := fun heq => by
      simp [hfinal.mpr heq] at hopen'
    simp [StreamCounters.ending, hne, h.unfinished hopen]
  · rw [hprogress]
    intro hfinished
    have heq := hfinal.mp hfinished
    refine ⟨messages, ?_, h.unfinished hopen⟩
    simp [StreamCounters.ending, heq, lastPieces]

/-- A fresh sender on the results of a regular turn. -/
lemma responded_of_regular (h : Regular items) :
    Responded items (StreamCounters.respond {} items).1 (StreamCounters.respond {} items).2 := by
  induction h with
  | nil => exact responded_nil
  | text _ hopen hgrows ih =>
    rw [respond_append_singleton]
    exact responded_text ih hopen hgrows
  | audio _ hopen hcount ih =>
    rw [respond_append_singleton]
    exact responded_audio ih hopen hcount

/-- A fresh sender that takes all results of a regular turn delivers them iff the last one has no
audio. -/
theorem delivered_iff_lastPieces (h : Regular items)
    (hfinished : (progressOf items).finished = true) :
    Delivered items (StreamCounters.respond {} items).2 ↔ lastPieces items = [] := by
  have hresponded := responded_of_regular h
  obtain ⟨front, hfront, hnot⟩ := hresponded.finished hfinished
  constructor
  · intro hdelivered
    have hlast := hdelivered.last front _ hfront
    rwa [audioIn_map_audio] at hlast
  · intro hempty
    rw [hempty, List.map_nil] at hfront
    refine ⟨hresponded.text, hresponded.audio, ?_, fun before after heq => ?_⟩
    · rw [hfront, List.count_append, List.count_eq_zero_of_not_mem hnot]
      rfl
    · -- nothing stands behind the only `end_of_response`
      rw [hfront] at heq
      obtain rfl | ⟨rest, x, rfl⟩ := List.eq_nil_or_concat after
      · rfl
      · have hsplit : front ++ [.endOfResponse] = (before ++ .endOfResponse :: rest) ++ [x] := by
          simpa using heq
        have hmem : .endOfResponse ∈ front := by
          rw [(List.append_inj' hsplit rfl).1]
          simp
        exact absurd hmem hnot

end OmniStreaming
