import Mathlib.Algebra.Order.BigOperators.Group.Finset
import Mathlib.Data.Fintype.BigOperators
import OmniStreaming.Lib.Transition

/-!
# Chat streaming: `chat_completion_stream_generator`

The generator sends a chunk for each output of each choice. The outputs are cumulative. The text
that a chunk carries is what the output has beyond the texts before it, but the token ids of a chunk
are those of the output, and `previous_num_tokens` adds up their numbers.

How the delta of an output becomes a message depends on the request: content as it is, tool calls,
reasoning, or the channels of harmony. `Deltas` is this part of the generator.

The usage that the stream reports is right iff no output of a choice comes after one that had tokens
(`accounts_iff_counted_once`).
-/

namespace OmniStreaming

open Function List Transition

variable {π τ μ : Type}

/-! ## Requests, outputs, chunks -/

/-- The options of a request: the choices, `return_token_ids`, the results of
`should_include_usage`, and the text that `echo` sends back, empty for none. -/
structure ChatRequest where
  numChoices : ℕ
  returnTokenIds : Bool
  includeUsage : Bool
  includeContinuousUsage : Bool
  echo : List Char
  numChoices_pos : 0 < numChoices
  usage_of_continuous : includeContinuousUsage = true → includeUsage = true

/-- The index of a choice. -/
abbrev ChatRequest.Choice (r : ChatRequest) := Fin r.numChoices

variable {r : ChatRequest}

/-- An output of a choice. -/
structure ChoiceOutput (r : ChatRequest) (τ : Type) where
  index : r.Choice
  text : Option (List Char)
  tokenIds : List τ
  finishReason : Option String

/-- The usage that a chunk reports; `total_tokens` is always the sum of the two. -/
structure UsageInfo where
  promptTokens : ℕ
  completionTokens : ℕ
  deriving DecidableEq

/-- The message of a chunk: a piece of content, or what a parser has made of it. -/
inductive DeltaMessage (μ : Type)
  | content (text : List Char)
  | parsed (m : μ)
  | empty

inductive Modality
  | text
  | audio
  deriving DecidableEq

/-- A chunk of the stream. -/
structure ChatChunk (r : ChatRequest) (τ μ : Type) where
  modality : Modality
  choice : Option r.Choice
  delta : DeltaMessage μ
  tokenIds : Option (List τ)
  finishReason : Option String
  usage : Option UsageInfo

/-- A chunk that has been sent, and the tokens generated by then, of its choice or of all for
audio. -/
structure SentChunk (r : ChatRequest) (τ μ : Type) where
  chunk : ChatChunk r τ μ
  generated : ℕ

/-- The content that a chunk adds to a choice. -/
def SentChunk.contentFor (c : SentChunk r τ μ) (i : r.Choice) : List Char :=
  match c.chunk.delta with
  | .content text => if c.chunk.choice = some i then text else []
  | _ => []

/-- The token ids that a chunk adds to a choice. -/
def SentChunk.idsFor (c : SentChunk r τ μ) (i : r.Choice) : List τ :=
  if c.chunk.choice = some i then c.chunk.tokenIds.getD [] else []

/-- The usage of a chunk, if it is one of the modality, is the number of tokens generated so far. -/
def SentChunk.UsageRight (m : Modality) (c : SentChunk r τ μ) : Prop :=
  c.chunk.modality = m → ∀ u ∈ c.chunk.usage, u.completionTokens = c.generated

/-- How the delta of an output becomes a message. `text` gives the delta, from what the output has
beyond the previous text; `message` the message, if any, and the text that counts as previous from
then on. -/
structure Deltas (r : ChatRequest) (π τ μ : Type) where
  start : π
  text : π → r.Choice → List Char → List τ → List Char × π
  message : π → r.Choice → List Char → List Char → List τ → Option String →
    Option (DeltaMessage μ) × List Char × π
  finishReason : π → r.Choice → String → String

/-- The deltas of a request without tools, reasoning and harmony: the content as it is. -/
structure Deltas.IsContent (D : Deltas r π τ μ) : Prop where
  text : ∀ (q : π) (i : r.Choice) (t : List Char) (ids : List τ), (D.text q i t ids).1 = t
  message : ∀ (q : π) (i : r.Choice) (previous delta : List Char) (ids : List τ)
    (finish : Option String), (D.message q i previous delta ids finish).1 = some (.content delta) ∧
      (D.message q i previous delta ids finish).2.1 = previous ++ delta

/-! ## The generator -/

/-- The state of the generator. `latestText` and `latestIds` are those of the last output of a
choice. -/
structure ChatStream (r : ChatRequest) (π τ μ : Type) where
  first : Bool := true
  failed : Bool := false
  numPromptTokens : ℕ := 0
  previousTexts : r.Choice → List Char := fun _ => []
  previousNumTokens : r.Choice → ℕ := fun _ => 0
  finishReasonSent : r.Choice → Bool := fun _ => false
  deltas : π
  sent : List (SentChunk r τ μ) := []
  latestText : r.Choice → List Char := fun _ => []
  latestIds : r.Choice → List τ := fun _ => []

/-- A result of the text stage, its outputs one by one, or a result of the audio stage. -/
inductive ChatAct (r : ChatRequest) (τ : Type)
  | textResult (promptTokens : Option ℕ)
  | output (o : ChoiceOutput r τ)
  | audioResult (promptTokens : Option ℕ)

namespace ChatStream

variable (s : ChatStream r π τ μ)

/-- The tokens of all choices. -/
def generated : ℕ := ∑ i, (s.latestIds i).length

/-- A chunk that is sent before the first output: the role, or the echo. -/
def opening (text : List Char) (i : r.Choice) : SentChunk r τ μ where
  chunk :=
    { modality := .text
      choice := some i
      delta := .content text
      tokenIds := none
      finishReason := none
      usage := if r.includeContinuousUsage then some ⟨s.numPromptTokens, 0⟩ else none }
  generated := (s.latestIds i).length

/-- `num_prompt_tokens`, if the result has a prompt. -/
def setPrompt (promptTokens : Option ℕ) : ChatStream r π τ μ :=
  { s with numPromptTokens := promptTokens.getD s.numPromptTokens }

/-- The first result of the text stage: the role of each choice, and the echo. -/
def textResult : ChatStream r π τ μ :=
  if s.first then
    { s with
      first := false
      sent := s.sent ++ (finRange r.numChoices).map (s.opening []) ++
        if r.echo = [] then [] else (finRange r.numChoices).map (s.opening r.echo) }
  else s

/-- A result of the audio stage. The role is set with the first text; before it, the generator
fails. -/
def audioResult : ChatStream r π τ μ :=
  if s.first then { s with failed := true }
  else
    { s with
      sent := s.sent ++
        [{ chunk :=
            { modality := .audio
              choice := none
              delta := .empty
              tokenIds := none
              finishReason := none
              usage := some ⟨s.numPromptTokens, 0⟩ }
           generated := s.generated }] }

/-- `output.text[len(previous_text):]`. -/
def newText (o : ChoiceOutput r τ) : List Char :=
  (o.text.map fun t => t.drop (s.previousTexts o.index).length).getD []

/-- The choice has got an output. -/
def receive (o : ChoiceOutput r τ) (q : π) : ChatStream r π τ μ :=
  { s with
    deltas := q
    latestText := update s.latestText o.index (o.text.getD [])
    latestIds := update s.latestIds o.index o.tokenIds }

/-- The counters after an output. -/
def count (o : ChoiceOutput r τ) (text : List Char) (q : π) : ChatStream r π τ μ :=
  { s with
    deltas := q
    previousTexts := update s.previousTexts o.index text
    previousNumTokens := update s.previousNumTokens o.index
      (s.previousNumTokens o.index + o.tokenIds.length) }

/-- Send the chunk of an output. -/
def send (D : Deltas r π τ μ) (s : ChatStream r π τ μ) (o : ChoiceOutput r τ)
    (delta : DeltaMessage μ) : ChatStream r π τ μ :=
  { s with
    sent := s.sent ++
      [{ chunk :=
          { modality := .text
            choice := some o.index
            delta := delta
            tokenIds := if r.returnTokenIds then some o.tokenIds else none
            finishReason := o.finishReason.map (D.finishReason s.deltas o.index)
            usage :=
              if r.includeContinuousUsage then
                some ⟨s.numPromptTokens, s.previousNumTokens o.index⟩
              else none }
         generated := (s.latestIds o.index).length }]
    finishReasonSent := update s.finishReasonSent o.index o.finishReason.isSome }

/-- The message of an output, and its chunk. Without a message there is a chunk only for the last
output. -/
def deliver (D : Deltas r π τ μ) (s : ChatStream r π τ μ) (o : ChoiceOutput r τ)
    (delta : List Char) : ChatStream r π τ μ :=
  let m := D.message s.deltas o.index (s.previousTexts o.index) delta o.tokenIds o.finishReason
  let s' := s.count o m.2.1 m.2.2
  match m.1 with
  | some message => s'.send D o message
  | none => if o.finishReason.isSome then s'.send D o .empty else s'

/-- The body of the loop over the outputs of a text result. -/
def output (D : Deltas r π τ μ) (s : ChatStream r π τ μ) (o : ChoiceOutput r τ) :
    ChatStream r π τ μ :=
  if s.finishReasonSent o.index then s
  else
    let d := D.text s.deltas o.index (s.newText o) o.tokenIds
    if d.1 = [] ∧ o.tokenIds = [] ∧ s.previousNumTokens o.index = 0 then s.receive o d.2
    else deliver D (s.receive o d.2) o d.1

/-- The usage at the end of the stream. -/
def finalUsage : UsageInfo :=
  ⟨s.numPromptTokens, ∑ i, s.previousNumTokens i⟩

/-- The content that has been sent for a choice. -/
def contents (i : r.Choice) : List Char :=
  s.sent.flatMap fun c => c.contentFor i

/-- The token ids that have been sent for a choice. -/
def streamedIds (i : r.Choice) : List τ :=
  s.sent.flatMap fun c => c.idsFor i

end ChatStream

def chatStep (D : Deltas r π τ μ) (s : ChatStream r π τ μ) :
    ChatAct r τ → Option (ChatStream r π τ μ)
  | .textResult p => if s.failed then none else some (s.setPrompt p).textResult
  | .output o => if s.failed || s.first then none else some (s.output D o)
  | .audioResult p => if s.failed then none else some (s.setPrompt p).audioResult

def ChatStream.init (D : Deltas r π τ μ) : ChatStream r π τ μ where
  deltas := D.start

/-! ## The property -/

namespace ChatStream

/-- The usage of every chunk of a modality is right. -/
def UsageRight (s : ChatStream r π τ μ) (m : Modality) : Prop := ∀ c ∈ s.sent, c.UsageRight m

/-- The usage at the end is the number of tokens generated. -/
def FinalUsageRight (s : ChatStream r π τ μ) : Prop :=
  s.finalUsage.completionTokens = s.generated

/-- The stream accounts for what has been generated. -/
structure Accounts (s : ChatStream r π τ μ) : Prop where
  text : ∀ i, s.contents i = s.latestText i
  ids : r.returnTokenIds = true → ∀ i, s.streamedIds i = s.latestIds i
  continuous : s.UsageRight .text
  final : r.includeUsage = true → s.FinalUsageRight

end ChatStream

/-- The outputs of a choice are cumulative, and its last one is the one that finishes it. -/
def CumulativeOutputs (s : ChatStream r π τ μ) : ChatAct r τ → Prop
  | .output o => s.finishReasonSent o.index = false ∧
    ∃ t, o.text = some t ∧ s.latestText o.index <+: t ∧ s.latestIds o.index <+: o.tokenIds
  | _ => True

/-- An output finds no tokens of its choice counted. -/
def CountedOnce (s : ChatStream r π τ μ) : ChatAct r τ → Prop
  | .output o => s.previousNumTokens o.index = 0
  | _ => True

/-- There is nothing to echo. -/
def EchoSilent (s : ChatStream r π τ μ) : ChatAct r τ → Prop
  | .textResult _ => s.first = true → r.echo = []
  | _ => True

/-- A result of the audio stage comes before any token. -/
def AudioEarly (s : ChatStream r π τ μ) : ChatAct r τ → Prop
  | .audioResult _ => s.generated = 0
  | _ => True

instance [DecidableEq τ] (s : ChatStream r π τ μ) :
    (a : ChatAct r τ) → Decidable (CumulativeOutputs s a) := fun a => by
  unfold CumulativeOutputs
  split <;> infer_instance

instance (s : ChatStream r π τ μ) : (a : ChatAct r τ) → Decidable (CountedOnce s a) := fun a => by
  unfold CountedOnce
  split <;> infer_instance

instance (s : ChatStream r π τ μ) : (a : ChatAct r τ) → Decidable (EchoSilent s a) := fun a => by
  unfold EchoSilent
  split <;> infer_instance

/-! ## What a step does -/

section Steps

variable {D : Deltas r π τ μ} {s s' : ChatStream r π τ μ} {o : ChoiceOutput r τ}

lemma deliver_counters (D : Deltas r π τ μ) (s : ChatStream r π τ μ) (o : ChoiceOutput r τ)
    (delta : List Char) :
    (ChatStream.deliver D s o delta).first = s.first ∧
    (ChatStream.deliver D s o delta).latestText = s.latestText ∧
    (ChatStream.deliver D s o delta).latestIds = s.latestIds ∧
    (ChatStream.deliver D s o delta).previousNumTokens =
      update s.previousNumTokens o.index
        (s.previousNumTokens o.index + o.tokenIds.length) := by
  unfold ChatStream.deliver
  dsimp only
  split
  · exact ⟨rfl, rfl, rfl, rfl⟩
  · split <;> exact ⟨rfl, rfl, rfl, rfl⟩

lemma output_counters (D : Deltas r π τ μ) (h : s.finishReasonSent o.index = false) :
    (s.output D o).first = s.first ∧
    (s.output D o).latestText = update s.latestText o.index (o.text.getD []) ∧
    (s.output D o).latestIds = update s.latestIds o.index o.tokenIds ∧
    (s.output D o).previousNumTokens =
      update s.previousNumTokens o.index
        (s.previousNumTokens o.index + o.tokenIds.length) := by
  unfold ChatStream.output
  rw [h, if_neg Bool.false_ne_true]
  dsimp only
  split
  · rename_i hskip
    -- a skipped output has no tokens to count
    refine ⟨rfl, rfl, rfl, ?_⟩
    rw [hskip.2.1, length_nil, Nat.add_zero, update_eq_self]
    rfl
  · exact deliver_counters D _ o _

lemma textResult_counters (s : ChatStream r π τ μ) :
    s.textResult.first = false ∧ s.textResult.latestText = s.latestText ∧
    s.textResult.latestIds = s.latestIds ∧
    s.textResult.previousNumTokens = s.previousNumTokens ∧
    s.textResult.previousTexts = s.previousTexts := by
  unfold ChatStream.textResult
  split
  · exact ⟨rfl, rfl, rfl, rfl, rfl⟩
  · rename_i hfirst
    exact ⟨Bool.eq_false_iff.mpr hfirst, rfl, rfl, rfl, rfl⟩

lemma audioResult_counters (s : ChatStream r π τ μ) :
    s.audioResult.first = s.first ∧ s.audioResult.latestText = s.latestText ∧
    s.audioResult.latestIds = s.latestIds ∧
    s.audioResult.previousNumTokens = s.previousNumTokens ∧
    s.audioResult.previousTexts = s.previousTexts := by
  unfold ChatStream.audioResult
  split <;> exact ⟨rfl, rfl, rfl, rfl, rfl⟩

/-- The kinds of a step. -/
inductive ChatEffect (D : Deltas r π τ μ) (s : ChatStream r π τ μ) :
    ChatAct r τ → ChatStream r π τ μ → Prop
  | text (p : Option ℕ) : ChatEffect D s (.textResult p) (s.setPrompt p).textResult
  | output (o : ChoiceOutput r τ) (h : s.first = false) :
    ChatEffect D s (.output o) (s.output D o)
  | audio (p : Option ℕ) : ChatEffect D s (.audioResult p) (s.setPrompt p).audioResult

variable {a : ChatAct r τ} {cs : List (SentChunk r τ μ)}

lemma chatEffect (h : chatStep D s a = some s') : ChatEffect D s a s' := by
  cases a with
  | textResult p =>
    simp only [chatStep] at h
    split at h
    · cases h
    · exact Option.some.inj h ▸ .text p
  | output o =>
    simp only [chatStep] at h
    split at h
    · cases h
    · rename_i hready
      obtain ⟨-, hfirst⟩ : s.failed = false ∧ s.first = false := by simpa using hready
      exact Option.some.inj h ▸ .output o hfirst
  | audioResult p =>
    simp only [chatStep] at h
    split at h
    · cases h
    · exact Option.some.inj h ▸ .audio p

/-! ## The counters -/

/-- At least the tokens of the last output are counted, and before the first text there is
nothing. -/
structure ChatInv (s : ChatStream r π τ μ) : Prop where
  counted : ∀ i, (s.latestIds i).length ≤ s.previousNumTokens i
  fresh : s.first = true → ∀ i, s.latestIds i = [] ∧ s.latestText i = []

lemma chatInv_step (hinv : ChatInv s) (hdom : CumulativeOutputs s a)
    (hstep : chatStep D s a = some s') : ChatInv s' := by
  cases chatEffect hstep with
  | text p =>
    obtain ⟨hfirst, -, hids, hnum, -⟩ := textResult_counters (s.setPrompt p)
    refine ⟨?_, ?_⟩
    · rw [hids, hnum]
      exact hinv.counted
    · rw [hfirst]
      nofun
  | output o h =>
    obtain ⟨hfirst, -, hids, hnum⟩ := output_counters D hdom.1
    refine ⟨fun i => ?_, ?_⟩
    · rw [hids, hnum]
      by_cases hi : i = o.index
      · subst hi
        rw [update_self, update_self]
        exact Nat.le_add_left _ _
      · rw [update_of_ne hi, update_of_ne hi]
        exact hinv.counted i
    · rw [hfirst, h]
      nofun
  | audio p =>
    obtain ⟨hfirst, htext, hids, hnum, -⟩ := audioResult_counters (s.setPrompt p)
    refine ⟨?_, ?_⟩
    · rw [hids, hnum]
      exact hinv.counted
    · rw [hfirst, hids, htext]
      exact hinv.fresh

/-- The usage at the end is right if the count of every choice is. -/
lemma finalUsageRight_iff (hinv : ChatInv s) :
    s.FinalUsageRight ↔ ∀ i, s.previousNumTokens i = (s.latestIds i).length := by
  unfold ChatStream.FinalUsageRight ChatStream.finalUsage ChatStream.generated
  rw [eq_comm, Finset.sum_eq_sum_iff_of_le fun i _ => hinv.counted i]
  exact ⟨fun h i => (h i (Finset.mem_univ i)).symm, fun h i _ => (h i).symm⟩

/-- After an output, the counts are right if they were and nothing was counted for the choice. -/
lemma counts_output (hinv : ChatInv s) (h : s.finishReasonSent o.index = false) :
    (∀ i, (s.output D o).previousNumTokens i = ((s.output D o).latestIds i).length) ↔
      (∀ i, s.previousNumTokens i = (s.latestIds i).length) ∧
        s.previousNumTokens o.index = 0 := by
  obtain ⟨-, -, hids, hnum⟩ := output_counters D h
  rw [hids, hnum]
  constructor
  · intro hright
    have hzero : s.previousNumTokens o.index = 0 := by
      have hself := hright o.index
      rw [update_self, update_self] at hself
      omega
    refine ⟨fun i => ?_, hzero⟩
    by_cases hi : i = o.index
    · have hle := hinv.counted o.index
      rw [hi]
      omega
    · have hother := hright i
      rwa [update_of_ne hi, update_of_ne hi] at hother
  · rintro ⟨hright, hzero⟩ i
    by_cases hi : i = o.index
    · subst hi
      rw [update_self, update_self, hzero, Nat.zero_add]
    · rw [update_of_ne hi, update_of_ne hi]
      exact hright i

/-- A step keeps the usage at the end right iff it counts once. -/
lemma finalUsageRight_step (hinv : ChatInv s) (hdom : CumulativeOutputs s a)
    (hstep : chatStep D s a = some s') :
    s'.FinalUsageRight ↔ s.FinalUsageRight ∧ CountedOnce s a := by
  rw [finalUsageRight_iff (chatInv_step hinv hdom hstep), finalUsageRight_iff hinv]
  cases chatEffect hstep with
  | text p =>
    obtain ⟨-, -, hids, hnum, -⟩ := textResult_counters (s.setPrompt p)
    rw [hids, hnum]
    exact (and_iff_left trivial).symm
  | output o _ => exact counts_output hinv hdom.1
  | audio p =>
    obtain ⟨-, -, hids, hnum, -⟩ := audioResult_counters (s.setPrompt p)
    rw [hids, hnum]
    exact (and_iff_left trivial).symm

/-! ## The chunks -/

/-- The usage of more chunks. -/
lemma usageRight_append {m : Modality} (h : s'.sent = s.sent ++ cs) :
    s'.UsageRight m ↔ s.UsageRight m ∧ ∀ c ∈ cs, c.UsageRight m := by
  unfold ChatStream.UsageRight
  rw [h]
  exact forall_mem_append

/-- The content of more chunks. -/
lemma contents_append (h : s'.sent = s.sent ++ cs) (i : r.Choice) :
    s'.contents i = s.contents i ++ cs.flatMap fun c => c.contentFor i := by
  unfold ChatStream.contents
  rw [h, flatMap_append]

/-- The token ids of more chunks. -/
lemma streamedIds_append (h : s'.sent = s.sent ++ cs) (i : r.Choice) :
    s'.streamedIds i = s.streamedIds i ++ cs.flatMap fun c => c.idsFor i := by
  unfold ChatStream.streamedIds
  rw [h, flatMap_append]

/-- The chunks that open the stream. -/
def openingChunks (s : ChatStream r π τ μ) : List (SentChunk r τ μ) :=
  if s.first then
    (finRange r.numChoices).map (s.opening []) ++
      if r.echo = [] then [] else (finRange r.numChoices).map (s.opening r.echo)
  else []

/-- The first result opens the stream. -/
lemma textResult_sent (s : ChatStream r π τ μ) : s.textResult.sent = s.sent ++ openingChunks s := by
  unfold ChatStream.textResult openingChunks
  split
  · exact append_assoc _ _ _
  · exact (append_nil _).symm

lemma mem_openingChunks {c : SentChunk r τ μ} (h : c ∈ openingChunks s) :
    s.first = true ∧ ∃ text i, c = s.opening text i := by
  unfold openingChunks at h
  split at h
  · rename_i hfirst
    refine ⟨hfirst, ?_⟩
    rcases mem_append.mp h with h | h
    · obtain ⟨i, -, rfl⟩ := mem_map.mp h
      exact ⟨[], i, rfl⟩
    · split at h
      · cases h
      · obtain ⟨i, -, rfl⟩ := mem_map.mp h
        exact ⟨r.echo, i, rfl⟩
  · cases h

/-- The usage of an opening chunk is right: nothing has been generated. -/
lemma usageRight_opening (hinv : ChatInv s) {c : SentChunk r τ μ} (h : c ∈ openingChunks s)
    (m : Modality) : c.UsageRight m := by
  obtain ⟨hfirst, text, i, rfl⟩ := mem_openingChunks h
  intro _ u hu
  have hzero : (s.latestIds i).length = 0 := by
    rw [(hinv.fresh hfirst i).1]
    rfl
  unfold ChatStream.opening at hu ⊢
  dsimp only at hu ⊢
  split at hu
  · cases hu
    exact hzero.symm
  · cases hu

/-- A delta adds chunks of text. -/
lemma deliver_sent (D : Deltas r π τ μ) (s : ChatStream r π τ μ) (o : ChoiceOutput r τ)
    (delta : List Char) : ∃ cs, (ChatStream.deliver D s o delta).sent = s.sent ++ cs ∧
      ∀ c ∈ cs, c.chunk.modality = .text := by
  unfold ChatStream.deliver
  dsimp only
  split
  · exact ⟨_, rfl, fun c hc => mem_singleton.mp hc ▸ rfl⟩
  · split
    · exact ⟨_, rfl, fun c hc => mem_singleton.mp hc ▸ rfl⟩
    · exact ⟨[], (append_nil _).symm, nofun⟩

/-- An output adds chunks of text. -/
lemma output_sent (D : Deltas r π τ μ) (s : ChatStream r π τ μ) (o : ChoiceOutput r τ) :
    ∃ cs, (s.output D o).sent = s.sent ++ cs ∧ ∀ c ∈ cs, c.chunk.modality = .text := by
  unfold ChatStream.output
  split
  · exact ⟨[], (append_nil _).symm, nofun⟩
  · dsimp only
    split
    · exact ⟨[], (append_nil _).symm, nofun⟩
    · exact deliver_sent D _ o _

/-- A step keeps the usage of the audio chunks right iff no audio comes after a token. -/
lemma audioUsage_step (hinv : ChatInv s) (hstep : chatStep D s a = some s') :
    s'.UsageRight .audio ↔ s.UsageRight .audio ∧ AudioEarly s a := by
  have hprompt : ∀ p, (s.setPrompt p).UsageRight .audio ↔ s.UsageRight .audio := fun _ => Iff.rfl
  cases chatEffect hstep with
  | text p =>
    have hinv' : ChatInv (s.setPrompt p) := ⟨hinv.counted, hinv.fresh⟩
    rw [usageRight_append (textResult_sent (s.setPrompt p)), hprompt]
    exact and_congr_right fun _ =>
      iff_of_true (fun c hc => usageRight_opening hinv' hc .audio) trivial
  | output o _ =>
    obtain ⟨cs, hsent, htext⟩ := output_sent D s o
    rw [usageRight_append hsent]
    refine and_congr_right fun _ => iff_of_true (fun c hc hm => ?_) trivial
    rw [htext c hc] at hm
    cases hm
  | audio p =>
    unfold ChatStream.audioResult
    split
    · rename_i hfirst
      refine (and_iff_left ?_).symm
      exact Finset.sum_eq_zero fun i _ => by
        rw [(hinv.fresh hfirst i).1]
        rfl
    · rw [usageRight_append (s := s.setPrompt p) rfl, hprompt]
      refine and_congr_right fun _ => ?_
      simp only [mem_singleton, forall_eq, SentChunk.UsageRight, Option.mem_some_iff,
        forall_eq', forall_const]
      exact eq_comm

/-! ## Content -/

lemma deliver_content (hD : D.IsContent) (s : ChatStream r π τ μ) (o : ChoiceOutput r τ)
    (delta : List Char) : ∃ q, ChatStream.deliver D s o delta =
      (s.count o (s.previousTexts o.index ++ delta) q).send D o (.content delta) := by
  obtain ⟨hmessage, htext⟩ := hD.message s.deltas o.index (s.previousTexts o.index) delta
    o.tokenIds o.finishReason
  unfold ChatStream.deliver
  dsimp only
  rw [hmessage, htext]
  exact ⟨_, rfl⟩

/-- What an output does when its delta is sent as it is. -/
structure ContentEffect (s s' : ChatStream r π τ μ) (o : ChoiceOutput r τ) : Prop where
  texts : s'.previousTexts =
    update s.previousTexts o.index (s.previousTexts o.index ++ s.newText o)
  contents : ∀ i, s'.contents i = s.contents i ++ if i = o.index then s.newText o else []
  ids : r.returnTokenIds = true → ∀ i,
    s'.streamedIds i = s.streamedIds i ++ if i = o.index then o.tokenIds else []
  usage : s'.UsageRight .text ↔ s.UsageRight .text ∧
    (r.includeContinuousUsage = true → s.previousNumTokens o.index = 0)

lemma contentEffect_receive (q : π) (htext : s.newText o = []) (hids : o.tokenIds = [])
    (hnum : s.previousNumTokens o.index = 0) : ContentEffect s (s.receive o q) o := by
  have hsent : (s.receive o q).sent = s.sent ++ [] := (append_nil _).symm
  constructor
  · rw [htext, append_nil, update_eq_self]
    rfl
  · intro i
    rw [contents_append hsent, htext, ite_self]
    rfl
  · intro _ i
    rw [streamedIds_append hsent, hids, ite_self]
    rfl
  · exact (and_iff_left fun _ => hnum).symm

/-- An output whose delta is sent. -/
lemma contentEffect_send (q q' : π) :
    ContentEffect s (((s.receive o q).count o (s.previousTexts o.index ++ s.newText o) q').send D o
      (.content (s.newText o))) o := by
  constructor
  · rfl
  · intro i
    rw [contents_append (s := s) rfl]
    simp only [flatMap_singleton, SentChunk.contentFor, Option.some.injEq, eq_comm]
  · intro hreturn i
    rw [streamedIds_append (s := s) rfl]
    simp only [flatMap_singleton, SentChunk.idsFor, Option.some.injEq, hreturn, if_true,
      Option.getD_some, eq_comm]
  · rw [usageRight_append (s := s) rfl]
    refine and_congr_right fun _ => ?_
    simp only [mem_singleton, forall_eq, SentChunk.UsageRight, forall_const,
      ChatStream.count, ChatStream.receive, update_self]
    cases r.includeContinuousUsage <;> simp

lemma contentEffect_output (hD : D.IsContent) (h : s.finishReasonSent o.index = false) :
    ContentEffect s (s.output D o) o := by
  have hdelta := hD.text s.deltas o.index (s.newText o) o.tokenIds
  unfold ChatStream.output
  rw [h, if_neg Bool.false_ne_true]
  dsimp only
  rw [hdelta]
  split
  · rename_i hskip
    exact contentEffect_receive _ hskip.1 hskip.2.1 hskip.2.2
  · obtain ⟨q, hdeliver⟩ := deliver_content hD
      (s.receive o (D.text s.deltas o.index (s.newText o) o.tokenIds).2) o (s.newText o)
    rw [hdeliver]
    exact contentEffect_send _ q

/-- One entry of a list. -/
lemma flatMap_ite_eq {ι α : Type*} [DecidableEq ι] {l : List ι} (hl : l.Nodup) {i : ι} (hi : i ∈ l)
    (x : List α) : (l.flatMap fun j => if j = i then x else []) = x := by
  induction l with
  | nil => cases hi
  | cons j l ih =>
    obtain ⟨hj, hl⟩ := nodup_cons.mp hl
    rw [flatMap_cons]
    rcases mem_cons.mp hi with rfl | hi
    · have hrest : (l.flatMap fun j => if j = i then x else []) = [] :=
        flatMap_eq_nil_iff.mpr fun k hk => if_neg (ne_of_mem_of_not_mem hk hj)
      rw [if_pos rfl, hrest, append_nil]
    · rw [if_neg (ne_of_mem_of_not_mem hi hj).symm, nil_append]
      exact ih hl hi

lemma contents_opening (s : ChatStream r π τ μ) (i : r.Choice) :
    (openingChunks s).flatMap (fun c => c.contentFor i) = if s.first then r.echo else [] := by
  have hone : ∀ text : List Char, ((finRange r.numChoices).map (s.opening text)).flatMap
      (fun c => c.contentFor i) = text := by
    intro text
    have hall := flatMap_ite_eq (nodup_finRange r.numChoices) (mem_finRange i) text
    simpa only [flatMap_map, SentChunk.contentFor, ChatStream.opening, Option.some.injEq]
      using hall
  unfold openingChunks
  split
  · rw [flatMap_append, hone, nil_append]
    split
    · rename_i hecho
      exact hecho.symm
    · exact hone r.echo
  · rfl

lemma ids_opening (s : ChatStream r π τ μ) (i : r.Choice) :
    (openingChunks s).flatMap (fun c => c.idsFor i) = [] := by
  refine flatMap_eq_nil_iff.mpr fun c hc => ?_
  obtain ⟨-, text, j, rfl⟩ := mem_openingChunks hc
  exact ite_self _

/-- What an audio result sends. -/
lemma audioResult_sent (s : ChatStream r π τ μ) (i : r.Choice) :
    s.audioResult.contents i = s.contents i ∧ s.audioResult.streamedIds i = s.streamedIds i ∧
      (s.audioResult.UsageRight .text ↔ s.UsageRight .text) := by
  unfold ChatStream.audioResult
  split
  · exact ⟨rfl, rfl, Iff.rfl⟩
  · refine ⟨?_, ?_, ?_⟩
    · rw [contents_append (s := s) rfl]
      exact append_nil _
    · rw [streamedIds_append (s := s) rfl]
      exact append_nil _
    · rw [usageRight_append (s := s) rfl]
      refine and_iff_left fun c hc hm => ?_
      rw [mem_singleton.mp hc] at hm
      cases hm

/-- Where deltas are sent as they are: the previous texts are those of the last outputs, and the
token ids sent are those counted. -/
structure ContentInv (s : ChatStream r π τ μ) : Prop extends ChatInv s where
  texts : ∀ i, s.previousTexts i = s.latestText i
  contents : ∀ i, s.contents i = (if s.first then [] else r.echo) ++ s.latestText i
  ids : r.returnTokenIds = true → ∀ i, (s.streamedIds i).length = s.previousNumTokens i

section

variable (hinv : ContentInv s)
include hinv

/-- What an output has beyond the previous text completes it. -/
lemma previous_append_newText {t : List Char} (ht : o.text = some t)
    (hext : s.latestText o.index <+: t) : s.latestText o.index ++ s.newText o = t := by
  obtain ⟨rest, rfl⟩ := hext
  unfold ChatStream.newText
  rw [ht, Option.map_some, Option.getD_some, hinv.texts, drop_left]

/-- A text result puts the echo out, once. -/
lemma contentInv_textResult (p : Option ℕ) (hcounts : ChatInv (s.setPrompt p).textResult) :
    ContentInv (s.setPrompt p).textResult := by
  obtain ⟨hfirst, htext, -, hnum, htexts⟩ := textResult_counters (s.setPrompt p)
  have hsent := textResult_sent (s.setPrompt p)
  refine ⟨hcounts, fun i => ?_, fun i => ?_, fun hreturn i => ?_⟩
  · rw [htexts, htext]
    exact hinv.texts i
  · have hfresh := hinv.fresh
    rw [contents_append hsent, contents_opening, hfirst, htext]
    change s.contents i ++ (if s.first then r.echo else []) = _ ++ s.latestText i
    rw [hinv.contents i]
    cases hf : s.first with
    | false => simp
    | true => simp [(hfresh hf i).2]
  · rw [streamedIds_append hsent, ids_opening, append_nil, hnum]
    exact hinv.ids hreturn i

omit hinv in
/-- An output that continues the text of its choice puts out what is new in it. -/
lemma contentInv_output (hD : D.IsContent) (hinv : ContentInv s)
    (hopen : s.finishReasonSent o.index = false) {t : List Char} (ht : o.text = some t)
    (hext : s.latestText o.index <+: t) (hcounts : ChatInv (s.output D o)) :
    ContentInv (s.output D o) := by
  obtain ⟨hfirst, htext, -, hnum⟩ := output_counters D hopen
  have heffect := contentEffect_output hD hopen
  have hnew := previous_append_newText hinv ht hext
  refine ⟨hcounts, fun i => ?_, fun i => ?_, fun hreturn i => ?_⟩
  · rw [heffect.texts, htext, ht]
    by_cases hi : i = o.index
    · subst hi
      rw [update_self, update_self, hinv.texts, hnew]
      rfl
    · rw [update_of_ne hi, update_of_ne hi]
      exact hinv.texts i
  · rw [heffect.contents, hfirst, htext, ht, hinv.contents i]
    by_cases hi : i = o.index
    · subst hi
      rw [update_self, if_pos rfl, append_assoc, hnew]
      rfl
    · rw [update_of_ne hi, if_neg hi, append_nil]
  · rw [heffect.ids hreturn, hnum, length_append, hinv.ids hreturn i]
    by_cases hi : i = o.index
    · subst hi
      rw [update_self, if_pos rfl]
    · rw [update_of_ne hi, if_neg hi]
      rfl

lemma contentInv_audioResult (p : Option ℕ) (hcounts : ChatInv (s.setPrompt p).audioResult) :
    ContentInv (s.setPrompt p).audioResult := by
  obtain ⟨hfirst, htext, -, hnum, htexts⟩ := audioResult_counters (s.setPrompt p)
  refine ⟨hcounts, fun i => ?_, fun i => ?_, fun hreturn i => ?_⟩
  · rw [htexts, htext]
    exact hinv.texts i
  · rw [(audioResult_sent (s.setPrompt p) i).1, hfirst, htext]
    exact hinv.contents i
  · rw [(audioResult_sent (s.setPrompt p) i).2.1, hnum]
    exact hinv.ids hreturn i

omit hinv in
/-- Every event keeps the content. -/
lemma contentInv_step (hD : D.IsContent) (hinv : ContentInv s) (hdom : CumulativeOutputs s a)
    (hstep : chatStep D s a = some s') : ContentInv s' := by
  have hcounts := chatInv_step hinv.toChatInv hdom hstep
  cases chatEffect hstep with
  | text p => exact contentInv_textResult hinv p hcounts
  | output o h =>
    obtain ⟨hopen, t, ht, hext, -⟩ := hdom
    exact contentInv_output hD hinv hopen ht hext hcounts
  | audio p => exact contentInv_audioResult hinv p hcounts

/-! ## Accounting -/

/-- The content of every choice is its text if there is no echo in it. -/
lemma text_iff : (∀ i, s.contents i = s.latestText i) ↔ (s.first = false → r.echo = []) := by
  constructor
  · intro htext hfirst
    have hone := htext ⟨0, r.numChoices_pos⟩
    rw [hinv.contents, hfirst] at hone
    simpa using hone
  · intro hecho i
    rw [hinv.contents i]
    cases hfirst : s.first with
    | true => rfl
    | false =>
      rw [hecho hfirst]
      rfl

/-- The four parts of the property. -/
lemma accounts_iff :
    s.Accounts ↔ (s.first = false → r.echo = []) ∧
      (r.returnTokenIds = true → ∀ i, s.streamedIds i = s.latestIds i) ∧
      s.UsageRight .text ∧ (r.includeUsage = true → s.FinalUsageRight) := by
  constructor
  · rintro ⟨htext, hids, hcontinuous, hfinal⟩
    exact ⟨(text_iff hinv).mp htext, hids, hcontinuous, hfinal⟩
  · rintro ⟨hecho, hids, hcontinuous, hfinal⟩
    exact ⟨(text_iff hinv).mpr hecho, hids, hcontinuous, hfinal⟩

end

lemma ids_output (hD : D.IsContent) (hinv : ContentInv s) (h : s.finishReasonSent o.index = false)
    (hreturn : r.returnTokenIds = true) :
    (∀ i, (s.output D o).streamedIds i = (s.output D o).latestIds i) ↔
      (∀ i, s.streamedIds i = s.latestIds i) ∧ s.previousNumTokens o.index = 0 := by
  obtain ⟨-, -, hids, -⟩ := output_counters D h
  have hsent := (contentEffect_output hD h).ids hreturn
  have hlength := hinv.ids hreturn o.index
  rw [hids]
  constructor
  · intro hright
    have hnone : s.streamedIds o.index = [] := by
      have hself := hright o.index
      rw [hsent, if_pos rfl, update_self] at hself
      exact append_left_eq_self.mp hself
    have hzero : s.previousNumTokens o.index = 0 := by rw [← hlength, hnone]; rfl
    refine ⟨fun i => ?_, hzero⟩
    by_cases hi : i = o.index
    · have hle := hinv.counted o.index
      rw [hi, hnone]
      exact (length_eq_zero_iff.mp (by omega)).symm
    · have hother := hright i
      rwa [hsent, if_neg hi, append_nil, update_of_ne hi] at hother
  · rintro ⟨hright, hzero⟩ i
    rw [hsent]
    by_cases hi : i = o.index
    · subst hi
      have hnone : s.streamedIds o.index = [] := length_eq_zero_iff.mp (hlength.trans hzero)
      rw [if_pos rfl, hnone, update_self]
      rfl
    · rw [if_neg hi, append_nil, update_of_ne hi]
      exact hright i

lemma echo_step (hdom : CumulativeOutputs s a) (hstep : chatStep D s a = some s') :
    (s'.first = false → r.echo = []) ↔ (s.first = false → r.echo = []) ∧ EchoSilent s a := by
  cases chatEffect hstep with
  | text p =>
    rw [(textResult_counters (s.setPrompt p)).1]
    simp only [EchoSilent]
    cases s.first <;> simp
  | output o _ =>
    rw [(output_counters D hdom.1).1]
    exact (and_iff_left trivial).symm
  | audio p =>
    rw [(audioResult_counters (s.setPrompt p)).1]
    exact (and_iff_left trivial).symm

/-- A step keeps the token ids that have been sent right iff it counts once. -/
lemma ids_step (hD : D.IsContent) (hinv : ContentInv s) (hdom : CumulativeOutputs s a)
    (hstep : chatStep D s a = some s') (hreturn : r.returnTokenIds = true) :
    (∀ i, s'.streamedIds i = s'.latestIds i) ↔
      (∀ i, s.streamedIds i = s.latestIds i) ∧ CountedOnce s a := by
  cases chatEffect hstep with
  | text p =>
    have hstreamed : ∀ i, (s.setPrompt p).textResult.streamedIds i = s.streamedIds i := by
      intro i
      rw [streamedIds_append (textResult_sent (s.setPrompt p)), ids_opening, append_nil]
      rfl
    rw [(textResult_counters (s.setPrompt p)).2.2.1, forall_congr fun i => by rw [hstreamed i]]
    exact (and_iff_left trivial).symm
  | output o _ => exact ids_output hD hinv hdom.1 hreturn
  | audio p =>
    rw [(audioResult_counters (s.setPrompt p)).2.2.1,
      forall_congr fun i => by rw [(audioResult_sent (s.setPrompt p) i).2.1]]
    exact (and_iff_left trivial).symm

/-- A step keeps the usage of the text chunks right iff, where it is asked for, it counts once. -/
lemma textUsage_step (hD : D.IsContent) (hinv : ChatInv s) (hdom : CumulativeOutputs s a)
    (hstep : chatStep D s a = some s') :
    s'.UsageRight .text ↔
      s.UsageRight .text ∧ (r.includeContinuousUsage = true → CountedOnce s a) := by
  cases chatEffect hstep with
  | text p =>
    have hinv' : ChatInv (s.setPrompt p) := ⟨hinv.counted, hinv.fresh⟩
    rw [usageRight_append (textResult_sent (s.setPrompt p))]
    exact and_congr Iff.rfl
      (iff_of_true (fun c hc => usageRight_opening hinv' hc .text) fun _ => trivial)
  | output o _ => exact (contentEffect_output hD hdom.1).usage
  | audio p =>
    rw [(audioResult_sent (s.setPrompt p) ⟨0, r.numChoices_pos⟩).2.2]
    exact (and_iff_left fun _ => trivial).symm

/-- A step keeps the accounts right iff nothing is echoed and, for token ids or usage, it counts
once. -/
lemma chatAccounts_step (hD : D.IsContent) (hinv : ContentInv s) (hdom : CumulativeOutputs s a)
    (hstep : chatStep D s a = some s') :
    s'.Accounts ↔ s.Accounts ∧ EchoSilent s a ∧
      (r.returnTokenIds = true ∨ r.includeUsage = true → CountedOnce s a) := by
  have hids := ids_step hD hinv hdom hstep
  have hfinal := finalUsageRight_step hinv.toChatInv hdom hstep
  rw [accounts_iff (contentInv_step hD hinv hdom hstep), accounts_iff hinv, echo_step hdom hstep,
    textUsage_step hD hinv.toChatInv hdom hstep]
  constructor
  · rintro ⟨⟨hecho, hsilent⟩, hsent, ⟨hcontinuous, -⟩, hend⟩
    refine ⟨⟨hecho, fun h => ((hids h).mp (hsent h)).1, hcontinuous,
      fun h => (hfinal.mp (hend h)).1⟩, hsilent, ?_⟩
    rintro (h | h)
    · exact ((hids h).mp (hsent h)).2
    · exact (hfinal.mp (hend h)).2
  · rintro ⟨⟨hecho, hsent, hcontinuous, hend⟩, hsilent, honce⟩
    exact ⟨⟨hecho, hsilent⟩, fun h => (hids h).mpr ⟨hsent h, honce (.inl h)⟩,
      ⟨hcontinuous, fun h => honce (.inr (r.usage_of_continuous h))⟩,
      fun h => hfinal.mpr ⟨hend h, honce (.inr h)⟩⟩

lemma contentInv_init (D : Deltas r π τ μ) : ContentInv (ChatStream.init D) where
  counted := fun _ => le_rfl
  fresh := fun _ _ => ⟨rfl, rfl⟩
  texts := fun _ => rfl
  contents := fun _ => rfl
  ids := fun _ _ => rfl

end Steps

/-- For every run of cumulative outputs: the usage at the end is right iff each output finds no
tokens of its choice counted; that of the audio chunks iff no audio comes after a token; and where
deltas are sent as they are, text, token ids and usage are right iff nothing is echoed and, where
token ids or usage are asked for, each output finds no tokens of its choice counted. -/
theorem accounts_iff_counted_once {D : Deltas r π τ μ} {acts : List (ChatAct r τ)}
    {st : ChatStream r π τ μ} (hrun : run (chatStep D) (ChatStream.init D) acts = some st)
    (hdom : AllSteps (chatStep D) CumulativeOutputs (ChatStream.init D) acts) :
    (st.FinalUsageRight ↔ AllSteps (chatStep D) CountedOnce (ChatStream.init D) acts) ∧
    (st.UsageRight .audio ↔ AllSteps (chatStep D) AudioEarly (ChatStream.init D) acts) ∧
    (D.IsContent →
      (st.Accounts ↔ AllSteps (chatStep D) (fun s a => EchoSilent s a ∧
        (r.returnTokenIds = true ∨ r.includeUsage = true → CountedOnce s a))
        (ChatStream.init D) acts)) := by
  have hinit := contentInv_init D
  have hchat : ∀ s a s', ChatInv s → CumulativeOutputs s a → chatStep D s a = some s' →
      ChatInv s' := fun s a s' => chatInv_step
  refine ⟨?_, ?_, fun hD => ?_⟩
  · rw [reached_iff_allSteps_of_guard hchat (fun s a s' => finalUsageRight_step)
      hinit.toChatInv hdom hrun]
    exact and_iff_right ((finalUsageRight_iff hinit.toChatInv).mpr fun _ => rfl)
  · rw [reached_iff_allSteps_of_guard hchat (fun s a s' hinv _ => audioUsage_step hinv)
      hinit.toChatInv hdom hrun]
    exact and_iff_right nofun
  · rw [reached_iff_allSteps_of_guard (fun s a s' => contentInv_step hD)
      (fun s a s' => chatAccounts_step hD) hinit hdom hrun]
    refine and_iff_right ((accounts_iff hinit).mpr ⟨nofun, fun _ _ => rfl, nofun, fun _ => ?_⟩)
    exact (finalUsageRight_iff hinit.toChatInv).mpr fun _ => rfl

/-- Where deltas are sent as they are, a choice has got in every state the echo and its text so far,
however that was split. -/
theorem streamed_text_right {D : Deltas r π τ μ} (hD : D.IsContent) {acts : List (ChatAct r τ)}
    (hdom : AllSteps (chatStep D) CumulativeOutputs (ChatStream.init D) acts) :
    EveryState (chatStep D) (fun s => ∀ i, s.contents i =
      (if s.first then [] else r.echo) ++ s.latestText i) (ChatStream.init D) acts :=
  everyState_of_allSteps (fun _ _ _ => contentInv_step hD) (fun _ h => h.contents)
    (contentInv_init D) hdom

/-! ## Two streams -/

/-- The deltas that are sent as they are. -/
def contentDeltas (r : ChatRequest) (τ μ : Type) : Deltas r Unit τ μ where
  start := ()
  text _ _ t _ := (t, ())
  message _ _ previous delta _ _ := (some (.content delta), previous ++ delta, ())
  finishReason _ _ reason := reason

/-- Such deltas are sent as they are. -/
lemma isContent_contentDeltas (r : ChatRequest) (τ μ : Type) : (contentDeltas r τ μ).IsContent where
  text _ _ _ _ := rfl
  message _ _ _ _ _ _ := ⟨rfl, rfl⟩

/-- A request that asks for token ids and for usage. -/
def fullRequest (n : ℕ) : ChatRequest where
  numChoices := n + 1
  returnTokenIds := true
  includeUsage := true
  includeContinuousUsage := true
  echo := []
  numChoices_pos := Nat.succ_pos n
  usage_of_continuous _ := rfl

/-- The content of such a request. -/
abbrev fullDeltas (n : ℕ) : Deltas (fullRequest n) Unit ℕ Unit :=
  contentDeltas (fullRequest n) ℕ Unit

def choice0 (n : ℕ) : (fullRequest n).Choice := ⟨0, Nat.succ_pos n⟩

def choice1 : (fullRequest 1).Choice := ⟨1, Nat.lt_succ_self 1⟩

/-- Two choices that get all their tokens in their last outputs. -/
def wholeOutputs : List (ChatAct (fullRequest 1) ℕ) :=
  [.textResult (some 3), .output ⟨choice0 1, some [], [], none⟩,
    .textResult (some 3), .output ⟨choice1, some ['a', 'b'], [5, 6], some "stop"⟩,
    .textResult (some 3), .output ⟨choice0 1, some ['c'], [7], some "stop"⟩]

/-- All tokens come with the last outputs. -/
theorem accounts_wholeOutputs :
    ∃ st, run (chatStep (fullDeltas 1)) (ChatStream.init (fullDeltas 1)) wholeOutputs = some st ∧
      st.Accounts := by
  obtain ⟨st, hrun⟩ : ∃ st, run (chatStep (fullDeltas 1)) (ChatStream.init (fullDeltas 1))
      wholeOutputs = some st := Option.isSome_iff_exists.mp (by decide +kernel)
  have hiff := (accounts_iff_counted_once hrun (by decide +kernel)).2.2
    (isContent_contentDeltas (fullRequest 1) ℕ Unit)
  exact ⟨st, hrun, hiff.mpr (by decide +kernel)⟩

/-- A choice that gets its two tokens one by one. -/
def tokenByToken : List (ChatAct (fullRequest 0) ℕ) :=
  [.textResult (some 3), .output ⟨choice0 0, some ['a'], [5], none⟩,
    .textResult (some 3), .output ⟨choice0 0, some ['a', 'b'], [5, 6], some "stop"⟩]

/-- The text of the stream is right. -/
theorem streamed_text_tokenByToken :
    EveryState (chatStep (fullDeltas 0)) (fun s => ∀ i, s.contents i =
      (if s.first then [] else []) ++ s.latestText i) (ChatStream.init (fullDeltas 0))
      tokenByToken :=
  streamed_text_right (isContent_contentDeltas _ _ _) (by decide +kernel)

/-- The first token is sent twice, and the usage is three tokens instead of two. -/
theorem tokens_counted_twice :
    AllSteps (chatStep (fullDeltas 0)) CumulativeOutputs (ChatStream.init (fullDeltas 0))
        tokenByToken ∧
      ∃ st, run (chatStep (fullDeltas 0)) (ChatStream.init (fullDeltas 0)) tokenByToken = some st ∧
        st.latestIds (choice0 0) = [5, 6] ∧ st.streamedIds (choice0 0) = [5, 5, 6] ∧
        st.generated = 2 ∧ st.finalUsage = ⟨3, 3⟩ ∧
        (st.sent.map fun c => (c.chunk.usage, c.generated)) =
          [(some ⟨3, 0⟩, 0), (some ⟨3, 1⟩, 1), (some ⟨3, 3⟩, 2)] :=
  ⟨by decide +kernel, exists_reached (by decide +kernel)⟩

end OmniStreaming
