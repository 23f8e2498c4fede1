import OmniStreaming.Server.ChatStream

/-!
# Chat streaming: which modalities a stream carries

A request names the modalities that it wants. `chat_completion_stream_generator` skips the results
of other modalities, sends the role of every choice with the first text result, a chunk for each
output of a text result, and one chunk for an audio result, which has the role again. An exception
becomes an error event, and `[DONE]` ends the stream in any case.

The variable `role` is assigned with the first text result only. The stream is well formed iff no
audio result that the request wants comes before a text result that it wants
(`wellFormed_iff_textFirst`); with a request for audio alone, no audio result may come at all.
-/

namespace OmniStreaming

open List

variable {π τ μ : Type} {r : ChatRequest}

/-! ## Results and events -/

/-- The type of a stage's outputs (`final_output_type`). -/
inductive OutputType
  | text
  | audio
  | other (name : String)
  deriving DecidableEq

/-- An output in the result of the audio stage. -/
structure AudioChoice (r : ChatRequest) (τ : Type) where
  index : r.Choice
  tokenIds : List τ

/-- A result of the engine: the length of its prompt, if any, and its outputs, audio as
`create_audio` writes it. -/
inductive StreamResult (r : ChatRequest) (τ : Type)
  | text (promptTokens : Option ℕ) (outputs : List (ChoiceOutput r τ))
  | audio (promptTokens : Option ℕ) (audio : List Char) (outputs : List (AudioChoice r τ))
  | other (name : String) (promptTokens : Option ℕ)

def StreamResult.outputType : StreamResult r τ → OutputType
  | .text _ _ => .text
  | .audio _ _ _ => .audio
  | .other name _ => .other name

/-- A choice in a chunk. -/
structure StreamChoice (r : ChatRequest) (τ μ : Type) where
  index : r.Choice
  role : Option String
  delta : DeltaMessage μ
  tokenIds : Option (List τ)
  finishReason : Option String

/-- Where an exception comes from: the generator itself, or the engine's results. -/
inductive ErrorCause
  | generator
  | engine
  deriving DecidableEq

/-- An event of the stream. -/
inductive SseEvent (r : ChatRequest) (τ μ : Type)
  | chunk (modality : OutputType) (choices : List (StreamChoice r τ μ)) (usage : Option UsageInfo)
  | finalUsage (usage : UsageInfo)
  | error (cause : ErrorCause)
  | done

/-! ## The generator -/

/-- The generator, with the events that it has sent. -/
structure ModalStream (r : ChatRequest) (π τ μ : Type) where
  chat : ChatStream r π τ μ
  events : List (SseEvent r τ μ) := []

/-- The event of a chunk of text. -/
def SentChunk.event (c : SentChunk r τ μ) (role : Option String) : SseEvent r τ μ :=
  .chunk .text
    (c.chunk.choice.toList.map fun i =>
      { index := i
        role := role
        delta := c.chunk.delta
        tokenIds := c.chunk.tokenIds
        finishReason := c.chunk.finishReason })
    c.chunk.usage

namespace ModalStream

/-- The role of each choice, and the echo. -/
def opening (role : String) (c : ChatStream r π τ μ) : List (SseEvent r τ μ) :=
  (finRange r.numChoices).map (fun i => (c.opening [] i).event (some role)) ++
    if r.echo = [] then []
    else (finRange r.numChoices).map fun i => (c.opening r.echo i).event none

/-- What a text result sends before its outputs. -/
def firstIteration (role : String) (c : ChatStream r π τ μ) : List (SseEvent r τ μ) :=
  if c.first then opening role c else []

variable (D : Deltas r π τ μ)

/-- A text result. -/
def textResult (role : String) (s : ModalStream r π τ μ) (promptTokens : Option ℕ)
    (outputs : List (ChoiceOutput r τ)) : ModalStream r π τ μ :=
  let c := s.chat.setPrompt promptTokens
  let started := c.textResult
  let chat := outputs.foldl (ChatStream.output D) started
  { chat := chat
    events := s.events ++ firstIteration role c ++
      (chat.sent.drop started.sent.length).map (SentChunk.event · none) }

/-- An audio result. It reads the variable `role`; before the first text result the generator
fails. -/
def audioResult (role : String) (s : ModalStream r π τ μ) (promptTokens : Option ℕ)
    (audio : List Char) (outputs : List (AudioChoice r τ)) : ModalStream r π τ μ :=
  let chat := (s.chat.setPrompt promptTokens).audioResult
  { chat := chat
    events := s.events ++ if chat.failed then [] else
      [.chunk .audio
        (outputs.map fun o =>
          { index := o.index
            role := some role
            delta := .content audio
            tokenIds := if r.returnTokenIds then some o.tokenIds else none
            finishReason := some "stop" })
        (some ⟨chat.numPromptTokens, 0⟩)] }

/-- A result of a requested type. -/
def branch (role : String) (s : ModalStream r π τ μ) :
    StreamResult r τ → ModalStream r π τ μ
  | .text promptTokens outputs => s.textResult D role promptTokens outputs
  | .audio promptTokens audio outputs => s.audioResult role promptTokens audio outputs
  | .other _ promptTokens => { s with chat := s.chat.setPrompt promptTokens }

/-- The body of the loop over the results, unless the generator has failed. -/
def result (role : String) (requested : List OutputType) (s : ModalStream r π τ μ)
    (x : StreamResult r τ) : ModalStream r π τ μ :=
  if s.chat.failed then s
  else if x.outputType ∉ requested then s
  else s.branch D role x

/-- The loop over the results. -/
def results (role : String) (requested : List OutputType) (xs : List (StreamResult r τ)) :
    ModalStream r π τ μ :=
  xs.foldl (result D role requested) { chat := .init D }

/-- The events after the loop, where the engine has raised if `raised`. -/
def ending (s : ModalStream r π τ μ) (raised : Bool) : List (SseEvent r τ μ) :=
  (if s.chat.failed then [.error .generator]
    else if raised then [.error .engine]
    else if r.includeUsage then [.finalUsage s.chat.finalUsage] else []) ++
    [.done]

end ModalStream

/-- `chat_completion_stream_generator`: the events for the modalities `requested`, where the engine
yields `xs` and then ends or, if `raised`, raises. -/
def chatCompletionStream (D : Deltas r π τ μ) (role : String) (requested : List OutputType)
    (xs : List (StreamResult r τ)) (raised : Bool) : List (SseEvent r τ μ) :=
  let s := ModalStream.results D role requested xs
  s.events ++ s.ending raised

/-! ## Well-formed streams -/

/-- The event has the role of a choice. -/
def SseEvent.bearsRole (i : r.Choice) : SseEvent r τ μ → Bool
  | .chunk _ choices _ => choices.any fun c => c.index = i && c.role.isSome
  | _ => false

/-- The event has something for a choice. -/
def SseEvent.concerns (i : r.Choice) : SseEvent r τ μ → Bool
  | .chunk _ choices _ => choices.any fun c => c.index = i
  | _ => false

/-- The first event that has something for a choice has its role. -/
def RoleFirst (i : r.Choice) : List (SseEvent r τ μ) → Prop
  | [] => True
  | e :: es => e.bearsRole i = true ∨ e.concerns i = false ∧ RoleFirst i es

/-- A stream that a client can read. -/
structure StreamWellFormed (requested : List OutputType) (events : List (SseEvent r τ μ)) :
    Prop where
  noError : SseEvent.error .generator ∉ events
  requestedOnly : ∀ modality choices usage,
    SseEvent.chunk modality choices usage ∈ events → modality ∈ requested
  roleFirst : ∀ i : r.Choice, RoleFirst i events
  endsDone : events.getLast? = some .done

/-- No audio result that is requested comes before a text result that is requested. -/
def TextFirst (requested : List OutputType) : List (StreamResult r τ) → Prop
  | [] => True
  | .text _ _ :: xs => .text ∈ requested ∨ TextFirst requested xs
  | .audio _ _ _ :: xs => .audio ∉ requested ∧ TextFirst requested xs
  | .other _ _ :: xs => TextFirst requested xs

/-! ## Roles -/

variable {i : r.Choice} {es : List (SseEvent r τ μ)}

/-- Once the role has been sent, anything may follow. -/
lemma RoleFirst.append_of_mem (h : RoleFirst i es) {e : SseEvent r τ μ} (he : e ∈ es)
    (hrole : e.bearsRole i = true) (es' : List (SseEvent r τ μ)) : RoleFirst i (es ++ es') := by
  induction es with
  | nil => cases he
  | cons x es ih =>
    obtain hx | ⟨hx, hes⟩ := h
    · exact .inl hx
    · obtain rfl | he := mem_cons.mp he
      · exact .inl hrole
      · exact .inr ⟨hx, ih hes he⟩

lemma RoleFirst.append {es' : List (SseEvent r τ μ)} (h : RoleFirst i es) (h' : RoleFirst i es') :
    RoleFirst i (es ++ es') := by
  induction es with
  | nil => exact h'
  | cons x es ih => exact h.imp id fun hx => ⟨hx.1, ih hx.2⟩

/-- Events that have something for the choice only with its role. -/
lemma roleFirst_of_forall (h : ∀ e ∈ es, e.concerns i = true → e.bearsRole i = true) :
    RoleFirst i es := by
  induction es with
  | nil => trivial
  | cons x es ih =>
    cases hx : x.concerns i with
    | true => exact .inl (h x mem_cons_self hx)
    | false => exact .inr ⟨hx, ih fun e he => h e (mem_cons_of_mem x he)⟩

/-! ## The loop -/

variable {D : Deltas r π τ μ} {role : String} {requested : List OutputType}
  {s : ModalStream r π τ μ}

lemma output_flags (c : ChatStream r π τ μ) (o : ChoiceOutput r τ) :
    (c.output D o).first = c.first ∧ (c.output D o).failed = c.failed := by
  unfold ChatStream.output ChatStream.deliver
  dsimp only
  split
  · exact ⟨rfl, rfl⟩
  · split
    · exact ⟨rfl, rfl⟩
    · split
      · exact ⟨rfl, rfl⟩
      · split <;> exact ⟨rfl, rfl⟩

/-- Nor do the outputs of a result. -/
lemma foldl_output_flags (outputs : List (ChoiceOutput r τ)) (c : ChatStream r π τ μ) :
    (outputs.foldl (ChatStream.output D) c).first = c.first ∧
      (outputs.foldl (ChatStream.output D) c).failed = c.failed := by
  induction outputs generalizing c with
  | nil => exact ⟨rfl, rfl⟩
  | cons o outputs ih =>
    rw [foldl_cons, (ih _).1, (ih _).2]
    exact output_flags c o

/-- A text result ends the first iteration. -/
lemma textResult_flags (D : Deltas r π τ μ) (role : String) (s : ModalStream r π τ μ)
    (promptTokens : Option ℕ) (outputs : List (ChoiceOutput r τ)) :
    (s.textResult D role promptTokens outputs).chat.first = false ∧
      (s.textResult D role promptTokens outputs).chat.failed = s.chat.failed := by
  have hflags := foldl_output_flags (D := D) outputs (s.chat.setPrompt promptTokens).textResult
  refine ⟨hflags.1.trans (textResult_counters _).1, hflags.2.trans ?_⟩
  unfold ChatStream.textResult
  split <;> rfl

/-- An audio result fails in the first iteration. -/
lemma audioResult_flags (role : String) (s : ModalStream r π τ μ) (promptTokens : Option ℕ)
    (audio : List Char) (outputs : List (AudioChoice r τ)) :
    (s.audioResult role promptTokens audio outputs).chat.first = s.chat.first ∧
      (s.audioResult role promptTokens audio outputs).chat.failed =
        (s.chat.first || s.chat.failed) := by
  refine ⟨(audioResult_counters _).1, ?_⟩
  simp only [ModalStream.audioResult, ChatStream.audioResult]
  split
  · rename_i hfirst
    rw [show s.chat.first = true from hfirst, Bool.true_or]
  · rename_i hfirst
    rw [show s.chat.first = false from Bool.eq_false_iff.mpr hfirst, Bool.false_or]
    rfl

lemma foldl_of_failed (xs : List (StreamResult r τ)) (hs : s.chat.failed = true) :
    xs.foldl (ModalStream.result D role requested) s = s := by
  induction xs with
  | nil => rfl
  | cons x xs ih =>
    rw [foldl_cons, ModalStream.result, if_pos hs]
    exact ih

/-- The generator fails iff it is in the first iteration when an audio result comes that is
requested. -/
lemma failed_foldl_iff (xs : List (StreamResult r τ)) (hs : s.chat.failed = false) :
    (xs.foldl (ModalStream.result D role requested) s).chat.failed = true ↔
      s.chat.first = true ∧ ¬ TextFirst requested xs := by
  induction xs generalizing s with
  | nil => simp [hs, TextFirst]
  | cons x xs ih =>
    rw [foldl_cons, ModalStream.result, hs, if_neg Bool.false_ne_true]
    by_cases hreq : x.outputType ∈ requested
    · rw [if_neg (not_not.mpr hreq)]
      cases x with
      | text promptTokens outputs =>
        obtain ⟨hfirst, hfailed⟩ := textResult_flags D role s promptTokens outputs
        refine (ih (hfailed.trans hs)).trans (iff_of_false ?_ ?_)
        · exact fun h => Bool.false_ne_true (hfirst.symm.trans h.1)
        · exact fun h => h.2 (.inl hreq)
      | audio promptTokens audio outputs =>
        obtain ⟨hfirst, hfailed⟩ := audioResult_flags role s promptTokens audio outputs
        rw [hs, Bool.or_false] at hfailed
        cases hflag : s.chat.first with
        | true =>
          have hdead : (s.branch D role (.audio promptTokens audio outputs)).chat.failed = true :=
            hfailed.trans hflag
          rw [foldl_of_failed xs hdead]
          exact iff_of_true hdead ⟨rfl, fun h => h.1 hreq⟩
        | false =>
          refine (ih (hfailed.trans hflag)).trans (iff_of_false ?_ ?_)
          · exact fun h => Bool.false_ne_true ((hfirst.trans hflag).symm.trans h.1)
          · exact fun h => Bool.false_ne_true h.1
      | other name promptTokens => exact ih hs
    · rw [if_pos hreq, ih hs]
      cases x with
      | text promptTokens outputs =>
        simp [TextFirst, show OutputType.text ∉ requested from hreq]
      | audio promptTokens audio outputs =>
        simp [TextFirst, show OutputType.audio ∉ requested from hreq]
      | other name promptTokens => rfl

/-- What the generator has sent. -/
structure ModalInv (requested : List OutputType) (s : ModalStream r π τ μ) : Prop where
  requested : ∀ e ∈ s.events, ∃ modality choices usage,
    e = .chunk modality choices usage ∧ modality ∈ requested
  fresh : s.chat.first = true → s.events = []
  roleFirst : ∀ i, RoleFirst i s.events
  started : s.chat.first = false → ∀ i, ∃ e ∈ s.events, e.bearsRole i = true

/-- The events of the first text result have the role of every choice first. -/
lemma opening_roles (c : ChatStream r π τ μ) (i : r.Choice) :
    RoleFirst i (ModalStream.opening role c) ∧
      ∃ e ∈ ModalStream.opening role c, e.bearsRole i = true := by
  have hrole : ∀ j, ((c.opening [] j).event (some role)).bearsRole i =
      ((c.opening [] j).event (some role)).concerns i := fun j => by
    simp [SentChunk.event, ChatStream.opening, SseEvent.bearsRole, SseEvent.concerns]
  have hself : ((c.opening [] i).event (some role)).bearsRole i = true := by
    simp [SentChunk.event, ChatStream.opening, SseEvent.bearsRole]
  have hmem : (c.opening [] i).event (some role) ∈
      (finRange r.numChoices).map fun j => (c.opening [] j).event (some role) :=
    mem_map.mpr ⟨i, mem_finRange i, rfl⟩
  refine ⟨RoleFirst.append_of_mem (roleFirst_of_forall fun e he hc => ?_) hmem hself _,
    _, mem_append_left _ hmem, hself⟩
  obtain ⟨j, -, rfl⟩ := mem_map.mp he
  exact (hrole j).trans hc

section

variable (h : ModalInv requested s)
include h

/-- Before its outputs, a text result has the role of every choice sent. -/
lemma ModalInv.roles (promptTokens : Option ℕ) (i : r.Choice) :
    RoleFirst i (s.events ++ ModalStream.firstIteration role (s.chat.setPrompt promptTokens)) ∧
      ∃ e ∈ s.events ++ ModalStream.firstIteration role (s.chat.setPrompt promptTokens),
        e.bearsRole i = true := by
  unfold ModalStream.firstIteration
  split
  · rename_i hfresh
    rw [h.fresh hfresh, nil_append]
    exact opening_roles _ i
  · rename_i hstarted
    rw [append_nil]
    exact ⟨h.roleFirst i, h.started (Bool.eq_false_iff.mpr hstarted) i⟩

omit h in
/-- What a text result sends before its outputs is text. -/
lemma eq_event_of_mem_firstIteration {c : ChatStream r π τ μ} {e : SseEvent r τ μ}
    (he : e ∈ ModalStream.firstIteration role c) :
    ∃ (x : SentChunk r τ μ) (role : Option String), e = x.event role := by
  unfold ModalStream.firstIteration ModalStream.opening at he
  split_ifs at he
  · rw [append_nil] at he
    obtain ⟨j, -, rfl⟩ := mem_map.mp he
    exact ⟨_, _, rfl⟩
  · obtain he | he := mem_append.mp he
    · obtain ⟨j, -, rfl⟩ := mem_map.mp he
      exact ⟨_, _, rfl⟩
    · obtain ⟨j, -, rfl⟩ := mem_map.mp he
      exact ⟨_, _, rfl⟩
  · cases he

/-- A requested text result. -/
lemma ModalInv.textResult (hreq : .text ∈ requested) (promptTokens : Option ℕ)
    (outputs : List (ChoiceOutput r τ)) :
    ModalInv requested (s.textResult D role promptTokens outputs) := by
  have hfirst := (textResult_flags D role s promptTokens outputs).1
  refine ⟨fun e he => ?_, fun hnew => ?_, fun i => ?_, fun _ i => ?_⟩
  · obtain he | he := mem_append.mp he
    · obtain he | he := mem_append.mp he
      · exact h.requested e he
      · obtain ⟨x, role, rfl⟩ := eq_event_of_mem_firstIteration he
        exact ⟨.text, _, _, rfl, hreq⟩
    · obtain ⟨x, -, rfl⟩ := mem_map.mp he
      exact ⟨.text, _, _, rfl, hreq⟩
  · exact absurd (hfirst.symm.trans hnew) Bool.false_ne_true
  · obtain ⟨hrole, e, he, hbears⟩ := h.roles promptTokens i
    exact hrole.append_of_mem he hbears _
  · obtain ⟨-, e, he, hbears⟩ := h.roles promptTokens i
    exact ⟨e, mem_append_left _ he, hbears⟩

/-- A requested audio result. -/
lemma ModalInv.audioResult (hreq : .audio ∈ requested) (promptTokens : Option ℕ) (audio : List Char)
    (outputs : List (AudioChoice r τ)) :
    ModalInv requested (s.audioResult role promptTokens audio outputs) := by
  obtain ⟨hfirst, hfailed⟩ := audioResult_flags role s promptTokens audio outputs
  cases hflag : s.chat.first with
  | true =>
    -- the generator fails and sends nothing
    have hevents : (s.audioResult role promptTokens audio outputs).events = s.events := by
      rw [hflag, Bool.true_or] at hfailed
      exact (congrArg (s.events ++ ·) (if_pos hfailed)).trans (append_nil _)
    exact ⟨hevents ▸ h.requested, fun _ => hevents ▸ h.fresh hflag, hevents ▸ h.roleFirst,
      fun hnew => absurd ((hfirst.trans hflag).symm.trans hnew) Bool.true_eq_false.mp⟩
  | false =>
    have hstarted := h.started hflag
    refine ⟨fun e he => ?_, fun hnew => ?_, fun i => ?_, fun _ i => ?_⟩
    · obtain he | he := mem_append.mp he
      · exact h.requested e he
      · split at he
        · cases he
        · obtain rfl := mem_singleton.mp he
          exact ⟨.audio, _, _, rfl, hreq⟩
    · exact absurd ((hfirst.trans hflag).symm.trans hnew) Bool.false_ne_true
    · obtain ⟨e, he, hbears⟩ := hstarted i
      exact (h.roleFirst i).append_of_mem he hbears _
    · obtain ⟨e, he, hbears⟩ := hstarted i
      exact ⟨e, mem_append_left _ he, hbears⟩

/-- A result of the engine. -/
lemma ModalInv.result (x : StreamResult r τ) :
    ModalInv requested (s.result D role requested x) := by
  unfold ModalStream.result
  split
  · exact h
  · split
    · exact h
    · rename_i hreq
      cases x with
      | text promptTokens outputs => exact h.textResult (not_not.mp hreq) _ _
      | audio promptTokens audio outputs => exact h.audioResult (not_not.mp hreq) _ _ _
      | other name promptTokens => exact ⟨h.requested, h.fresh, h.roleFirst, h.started⟩

end

/-- All results of the engine. -/
lemma modalInv_results (D : Deltas r π τ μ) (role : String) (requested : List OutputType)
    (xs : List (StreamResult r τ)) :
    ModalInv requested (ModalStream.results D role requested xs) := by
  have hgen : ∀ s : ModalStream r π τ μ, ModalInv requested s →
      ModalInv requested (xs.foldl (ModalStream.result D role requested) s) := by
    induction xs with
    | nil => exact fun s h => h
    | cons x xs ih => exact fun s h => ih _ (h.result x)
  exact hgen _ ⟨nofun, fun _ => rfl, fun _ => trivial, nofun⟩

/-! ## The stream -/

/-- The events after the loop carry nothing for a choice, and no error of the generator unless it
has failed. -/
lemma mem_ending {raised : Bool} {e : SseEvent r τ μ} (he : e ∈ s.ending raised) :
    (∀ i, e.concerns i = false) ∧ (∀ modality choices usage, e ≠ .chunk modality choices usage) ∧
      (s.chat.failed = false → e ≠ .error .generator) := by
  unfold ModalStream.ending at he
  split_ifs at he with hfailed hraised husage
  all_goals
    simp only [mem_append, mem_singleton, not_mem_nil, false_or] at he
    rcases he with rfl | rfl <;> simp [SseEvent.concerns, hfailed]

/-- For all modalities and results, the stream is well formed iff no requested audio result comes
before a requested text result. -/
theorem wellFormed_iff_textFirst (D : Deltas r π τ μ) (role : String)
    (requested : List OutputType) (xs : List (StreamResult r τ)) (raised : Bool) :
    StreamWellFormed requested (chatCompletionStream D role requested xs raised) ↔
      TextFirst requested xs := by
  have hinv := modalInv_results D role requested xs
  have hfailed : (ModalStream.results D role requested xs).chat.failed = true ↔
      ¬ TextFirst requested xs :=
    (failed_foldl_iff xs rfl).trans (and_iff_right rfl)
  constructor
  · intro hwf
    by_contra hnot
    refine hwf.noError (mem_append_right _ ?_)
    rw [ModalStream.ending, if_pos (hfailed.mpr hnot)]
    exact mem_cons_self
  · intro hfirst
    have hlive : (ModalStream.results D role requested xs).chat.failed = false :=
      Bool.eq_false_iff.mpr fun h => hfailed.mp h hfirst
    refine ⟨fun he => ?_, fun modality choices usage he => ?_, fun i => ?_, ?_⟩
    · obtain he | he := mem_append.mp he
      · obtain ⟨modality, choices, usage, heq, -⟩ := hinv.requested _ he
        cases heq
      · exact (mem_ending he).2.2 hlive rfl
    · obtain he | he := mem_append.mp he
      · obtain ⟨modality', choices', usage', heq, hreq⟩ := hinv.requested _ he
        cases heq
        exact hreq
      · exact absurd rfl ((mem_ending he).2.1 modality choices usage)
    · refine (hinv.roleFirst i).append (roleFirst_of_forall fun e he hc => ?_)
      exact absurd ((mem_ending he).1 i ▸ hc) Bool.false_ne_true
    · rw [chatCompletionStream, ModalStream.ending, ← append_assoc, getLast?_concat]

/-- A request for audio alone gets an error for its first audio result. -/
theorem audio_alone_fails :
    chatCompletionStream (fullDeltas 0) "assistant" [.audio]
        [.text (some 3) [⟨choice0 0, some ['a'], [1], none⟩],
          .audio none ['x'] [⟨choice0 0, []⟩]] false =
      [.error .generator, .done] ∧
    ¬ StreamWellFormed [.audio] (chatCompletionStream (fullDeltas 0) "assistant" [.audio]
      [.text (some 3) [⟨choice0 0, some ['a'], [1], none⟩],
        .audio none ['x'] [⟨choice0 0, []⟩]] false) := by
  refine ⟨rfl, fun h => h.noError ?_⟩
  exact mem_cons_self

end OmniStreaming
