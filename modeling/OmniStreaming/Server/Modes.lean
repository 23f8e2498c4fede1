import OmniStreaming.Lib.Transition
import OmniStreaming.Server.Sessions

/-!
# Modes of turns

An end of utterance carries a mode, but the turn that it starts reads `ai_mode` of the engine: once
in `_audio_worker`, for its prompt, and once when its task first runs, for the voice of its stage-0
task. Every message of every session may have written another mode there in between; a binary
message always writes `"G"`.

So the turns of a session get their own modes in every run in which nobody writes another mode
while an utterance of the session waits, and two such runs with the same messages of the session
agree.
-/

namespace OmniStreaming

open List Transition

variable {μ : Type*}

/-! ## Utterances of a session -/

/-- A message of a client. -/
inductive ClientMessage (μ : Type*)
  | frame (data : List UInt8)
  | endOfUtterance (lastSeq : Option ℕ) (mode : Option μ)
  | bargeIn
  deriving DecidableEq

/-- The message of the session that an event is. -/
def ServerAct.message (s : SessionId) : ServerAct μ → Option (ClientMessage μ)
  | .frame s' data => if s' = s then some (.frame data) else none
  | .endOfUtterance s' lastSeq mode => if s' = s then some (.endOfUtterance lastSeq mode) else none
  | .bargeIn s' => if s' = s then some .bargeIn else none
  | _ => none

/-- The messages of a session in a run. -/
def messagesOf (s : SessionId) (acts : List (ServerAct μ)) : List (ClientMessage μ) :=
  acts.filterMap (ServerAct.message s)

/-- The items that a message puts on the input queue. -/
def ClientMessage.items : ClientMessage μ → List (AudioItem μ)
  | .frame data => audioItems (some data) none
  | .endOfUtterance _ mode => audioItems none mode
  | .bargeIn => []

/-- The items that an event puts on the input queue of the session. -/
def ServerAct.items (s : SessionId) (a : ServerAct μ) : List (AudioItem μ) :=
  (a.message s).elim [] ClientMessage.items

/-- The mode of the engine after an event. -/
def ServerAct.modeAfter (g mode : μ) : ServerAct μ → μ
  | .frame _ _ => g
  | .endOfUtterance _ _ m => m.getD mode
  | _ => mode

/-- The modes of the ends of utterance that end some audio; `b` says whether there is audio
before. -/
def utteranceModes : Bool → List (AudioItem μ) → List (Option μ)
  | _, [] => []
  | b, .pcm _ bytes :: items => utteranceModes (b || !bytes.isEmpty) items
  | true, .eosMarker mode :: items => mode :: utteranceModes false items
  | false, .eosMarker _ :: items => utteranceModes false items

/-- The modes that the messages carry for their utterances. -/
def carriedModes (messages : List (ClientMessage μ)) : List (Option μ) :=
  utteranceModes false (messages.flatMap ClientMessage.items)

/-- What the audio worker has before it if `items` follow on its queue: its buffer and the items to
take. -/
def SessionState.ahead (x : SessionState μ) (items : List (AudioItem μ)) :
    List UInt8 × List (AudioItem μ) :=
  (x.worker.getD [], x.inputQueue.getD [] ++ items)

/-- The modes of the utterances that the audio worker would take from its queue if `items` followed
there. -/
def SessionState.pendingModes (x : SessionState μ) (items : List (AudioItem μ)) : List (Option μ) :=
  utteranceModes (!(x.worker.getD []).isEmpty) (x.inputQueue.getD [] ++ items)

/-- The ended utterances of the session whose stage-0 task is still to come have the mode `mode`. -/
@[mk_iff]
structure Server.Awaits (e : Server μ) (s : SessionId) (mode : μ) : Prop where
  queued : ∀ m ∈ (e.sessions s).pendingModes [], m = some mode
  waiting : ∀ t ∈ e.turnsOf s, t.Waiting → t.utteranceMode = some mode

/-- An event that sets the engine's mode sets that of the session's waiting utterances, and an end
of utterance carries a mode. -/
def ModeSafe (g : μ) (s : SessionId) (e : Server μ) : ServerAct μ → Prop
  | .frame _ _ => e.Awaits s g
  | .endOfUtterance _ _ (some mode) => e.Awaits s mode
  | .endOfUtterance s' _ none => s' ≠ s
  | _ => True

instance (t : StartedTurn μ) : Decidable t.Waiting := inferInstanceAs (Decidable (_ ∧ _))

instance [DecidableEq μ] (e : Server μ) (s : SessionId) (mode : μ) : Decidable (e.Awaits s mode) :=
  decidable_of_iff' _ (Server.awaits_iff e s mode)

instance [DecidableEq μ] (g : μ) (s : SessionId) (e : Server μ) : DecidablePred (ModeSafe g s e)
  | .frame _ _ => inferInstanceAs (Decidable (e.Awaits s g))
  | .endOfUtterance _ _ (some mode) => inferInstanceAs (Decidable (e.Awaits s mode))
  | .endOfUtterance s' _ none => inferInstanceAs (Decidable (s' ≠ s))
  | .connect _ | .bargeIn _ | .take _ | .submit _ | .register _ _ | .stop _ | .finish _
  | .cancelled _ | .poll _ | .close _ _ | .clock _ => isTrue trivial

/-! ## Modes of queued utterances -/

lemma utteranceModes_append_pcm (b : Bool) (items : List (AudioItem μ)) (seq : ℕ)
    (bytes : List UInt8) :
    utteranceModes b (items ++ [.pcm seq bytes]) = utteranceModes b items := by
  fun_induction utteranceModes b items with
  | case1 => rfl
  | case2 b seq bytes items ih => simpa [utteranceModes] using ih
  | case3 mode items ih => simpa [utteranceModes] using ih
  | case4 mode items ih => simpa [utteranceModes] using ih

lemma mem_utteranceModes_append_eosMarker {b : Bool} {items : List (AudioItem μ)}
    {mode m : Option μ} (h : m ∈ utteranceModes b (items ++ [.eosMarker mode])) :
    m ∈ utteranceModes b items ∨ m = mode := by
  fun_induction utteranceModes b items with
  | case1 b =>
    cases b with
    | false => simp [utteranceModes] at h
    | true => simpa [utteranceModes] using h
  | case2 b seq bytes items ih => exact ih h
  | case3 mode items ih =>
    rw [cons_append, utteranceModes, mem_cons] at h
    exact h.elim (fun h => .inl (h ▸ mem_cons_self)) fun h =>
      (ih h).imp (mem_cons_of_mem _) id
  | case4 mode items ih => exact ih h

/-- The audio of a frame is queued for its own session. -/
@[simp] lemma items_frame (s s' : SessionId) (data : List UInt8) :
    (ServerAct.frame s' data : ServerAct μ).items s =
      if s' = s then (parseFrame data).toList else [] := by
  simp only [ServerAct.items, ServerAct.message]
  split_ifs <;> rfl

/-- The mark of an end of utterance is queued for its own session. -/
@[simp] lemma items_endOfUtterance (s s' : SessionId) (lastSeq : Option ℕ) (mode : Option μ) :
    (ServerAct.endOfUtterance s' lastSeq mode).items s =
      if s' = s then [.eosMarker mode] else [] := by
  simp only [ServerAct.items, ServerAct.message]
  split_ifs <;> rfl

@[simp] lemma items_bargeIn (s s' : SessionId) :
    (ServerAct.bargeIn s' : ServerAct μ).items s = [] := by
  simp only [ServerAct.items, ServerAct.message]
  split_ifs <;> rfl

lemma pendingModes_eq (x : SessionState μ) (items : List (AudioItem μ)) :
    x.pendingModes items = utteranceModes (!(x.ahead items).1.isEmpty) (x.ahead items).2 := rfl

/-! ## What an event does to the utterances -/

variable [DecidableEq μ] {g : μ} {e e' : Server μ} {s s' : SessionId} {a : ServerAct μ}

omit [DecidableEq μ] in
/-- Changes elsewhere keep what the worker has before it. -/
lemma ahead_update {f : SessionState μ → SessionState μ}
    (hqueue : ∀ x, (f x).inputQueue = x.inputQueue) (hworker : ∀ x, (f x).worker = x.worker)
    (items : List (AudioItem μ)) :
    ((e.update s' f).sessions s).ahead items = (e.sessions s).ahead items := by
  refine read_update (SessionState.ahead · items) fun x => ?_
  rw [SessionState.ahead, hqueue, hworker, SessionState.ahead]

omit [DecidableEq μ] in
/-- A connection starts with nothing. -/
lemma ahead_startDuplexSession (habsent : (e.sessions s').endpoint = .absent)
    (hproper : (e.sessions s').Proper) (items : List (AudioItem μ)) :
    ((e.startDuplexSession s').sessions s).ahead items = (e.sessions s).ahead items := by
  by_cases hs : s = s'
  · subst hs
    rw [Server.startDuplexSession, update_sessions_self]
    cases hq : (e.sessions s).inputQueue with
    | none => simp [SessionState.ahead, hq, hproper.worker habsent]
    | some q => simp [SessionState.ahead, hq, hproper.worker habsent]
  · rw [Server.startDuplexSession, update_sessions_of_ne _ hs]

omit [DecidableEq μ] in
/-- A message adds its items. -/
lemma ahead_putIncrementalInput (hsome : (e.sessions s').inputQueue.isSome)
    (audio : Option (List UInt8)) (mode : Option μ) (items : List (AudioItem μ)) :
    ((e.putIncrementalInput s' audio mode).sessions s).ahead items =
      (e.sessions s).ahead ((if s' = s then audioItems audio mode else []) ++ items) := by
  rw [putIncrementalInput_of_isSome hsome]
  by_cases hs : s' = s
  · subst hs
    obtain ⟨q, hq⟩ := Option.isSome_iff_exists.mp hsome
    simp [SessionState.ahead, hq]
  · have hsame := update_sessions_of_ne (e := e)
      (fun x => { x with inputQueue := x.inputQueue.map (· ++ audioItems audio mode) }) (Ne.symm hs)
    rw [if_neg hs, nil_append]
    exact congrArg (SessionState.ahead · items) hsame

/-- What an event does to the turns and to what the worker of the session has before it. -/
inductive AudioMove (g : μ) (s : SessionId) (e : Server μ) : ServerAct μ → Server μ → Prop
  /-- The items of a message are added, if it is one. -/
  | keep {a : ServerAct μ} {e' : Server μ}
      (hturns : List.Forall₂ (StartedTurn.Follows g e.aiMode) e.turns e'.turns)
      (hahead : ∀ items, (e'.sessions s).ahead items = (e.sessions s).ahead (a.items s ++ items)) :
    AudioMove g s e a e'
  /-- The worker of the session takes a frame. -/
  | takeFrame {e' : Server μ} {seq : ℕ} {buffer bytes : List UInt8} {rest : List (AudioItem μ)}
      (hturns : e'.turns = e.turns)
      (hahead : ∀ items, (e.sessions s).ahead items = (buffer, .pcm seq bytes :: (rest ++ items)))
      (hahead' : ∀ items, (e'.sessions s).ahead items = (buffer ++ bytes, rest ++ items)) :
    AudioMove g s e (.take s) e'
  /-- The worker of the session takes an end of utterance and has no audio. -/
  | takeMarker {e' : Server μ} {mode : Option μ} {rest : List (AudioItem μ)}
      (hturns : e'.turns = e.turns)
      (hahead : ∀ items, (e.sessions s).ahead items = ([], .eosMarker mode :: (rest ++ items)))
      (hahead' : ∀ items, (e'.sessions s).ahead items = ([], rest ++ items)) :
    AudioMove g s e (.take s) e'
  /-- The worker of a session starts a turn. -/
  | startTurn {e' : Server μ} {s' : SessionId} {mode : Option μ} {buffer : List UInt8}
      {rest : List (AudioItem μ)} (hmode : e'.aiMode = e.aiMode)
      (hturns : e'.turns = e.turns ++
        [{ id := .start s' e.clock, promptMode := e.aiMode, utteranceMode := mode }])
      (hworker : (e.sessions s').worker = some buffer) (haudio : buffer ≠ [])
      (hother : s' ≠ s → ∀ items, (e'.sessions s).ahead items = (e.sessions s).ahead items)
      (hown : s' = s → ∀ items,
        (e.sessions s).ahead items = (buffer, .eosMarker mode :: (rest ++ items)) ∧
          (e'.sessions s).ahead items = ([], rest ++ items)) :
    AudioMove g s e (.take s') e'

section

variable (hproper : ∀ s, (e.sessions s).Proper) (hstep : serverStep g e a = some e')
include hproper hstep

lemma audioMove_of_step (s : SessionId) : AudioMove g s e a e' := by
  have hsome : ∀ {s'}, (e.sessions s').endpoint = .serving → (e.sessions s').inputQueue.isSome :=
    fun {s'} hserving => (hproper s').inputQueue (by simp [hserving])
  cases serverMove_of_step hstep with
  | @connect s' habsent =>
    refine .keep (forall₂_follows_refl _) fun items => ?_
    rw [show (ServerAct.connect s').items s = ([] : List (AudioItem μ)) from rfl, nil_append,
      ← ahead_startDuplexSession habsent (hproper s') items]
    exact ahead_update (fun _ => by rfl) (fun _ => by rfl) items
  | @frame s' data hserving =>
    refine .keep (by rw [turns_putIncrementalInput]; exact forall₂_follows_refl _) fun items => ?_
    rw [ahead_putIncrementalInput (hsome hserving), items_frame]
    rfl
  | @endOfUtterance s' lastSeq mode hserving =>
    refine .keep (by rw [turns_putIncrementalInput]; exact forall₂_follows_refl _) fun items => ?_
    have hsome' : ((e.update s' fun x => { x with eouState := some lastSeq }).sessions
        s').inputQueue.isSome := by
      rw [update_sessions_self]
      exact hsome hserving
    rw [ahead_putIncrementalInput hsome']
    refine Eq.trans (ahead_update (fun _ => by rfl) (fun _ => by rfl) _) ?_
    rw [items_endOfUtterance]
    rfl
  | @bargeIn s' _ =>
    refine .keep (forall₂_follows_bargeIn _ _) fun items => ?_
    rw [items_bargeIn, nil_append, sessions_cleanupForBargeIn]
    exact ahead_update (fun _ => by rfl) (fun _ => by rfl) items
  | @takeFrame s' buffer bytes seq rest hworker hqueue =>
    by_cases hs : s' = s
    · subst hs
      have hahead : ∀ items, (e.sessions s').ahead items =
          (buffer, .pcm seq bytes :: (rest ++ items)) :=
        fun items => by simp [SessionState.ahead, hworker, hqueue]
      exact .takeFrame rfl hahead fun items => by simp [SessionState.ahead]
    · refine .keep (forall₂_follows_refl _) fun items => ?_
      rw [update_sessions_of_ne _ (Ne.symm hs)]
      rfl
  | @takeMarker s' mode rest hworker hqueue =>
    by_cases hs : s' = s
    · subst hs
      have hahead : ∀ items, (e.sessions s').ahead items =
          ([], .eosMarker mode :: (rest ++ items)) :=
        fun items => by simp [SessionState.ahead, hworker, hqueue]
      exact .takeMarker rfl hahead fun items => by simp [SessionState.ahead, hworker]
    · refine .keep (forall₂_follows_refl _) fun items => ?_
      rw [update_sessions_of_ne _ (Ne.symm hs)]
      rfl
  | @takeTurn s' buffer mode rest hworker hqueue haudio =>
    have hown : s' = s → ∀ items,
        (e.sessions s).ahead items = (buffer, .eosMarker mode :: (rest ++ items)) ∧
          (((e.update s' fun x => { x with inputQueue := some rest }).startTurn s' mode).sessions
            s).ahead items = ([], rest ++ items) := by
      rintro rfl items
      rw [sessions_startTurn]
      simp [SessionState.ahead, hworker, hqueue]
    refine .startTurn rfl rfl hworker haudio (fun hs items => ?_) hown
    rw [sessions_startTurn, update_sessions_of_ne _ (Ne.symm hs),
      update_sessions_of_ne _ (Ne.symm hs)]
  | submit hturn hstatus hlive =>
    exact .keep (forall₂_follows_set hturn (.submitted ⟨hstatus, hlive⟩)) fun _ => rfl
  | register _ _ _ | stop _ _ | clock _ => exact .keep (forall₂_follows_refl _) fun _ => rfl
  | finish hturn _ | cancelled hturn _ _ =>
    refine .keep (forall₂_follows_set hturn (.ended _)) fun items => ?_
    rw [sessions_endTurn, sessions_discardTask]
    exact Eq.trans (ahead_update (fun _ => by rfl) (fun _ => by rfl) items)
      (ahead_update (fun _ => by rfl) (fun _ => by rfl) items)
  | cancelledEarly hturn _ _ =>
    refine .keep (forall₂_follows_set hturn (.ended _)) fun items => ?_
    rw [sessions_discardTask]
    exact ahead_update (fun _ => by rfl) (fun _ => by rfl) items
  | poll _ =>
    unfold Server.pollTurns
    split
    · exact .keep (forall₂_follows_refl _) fun _ => rfl
    · refine .keep (forall₂_follows_refl _) fun items => ?_
      exact ahead_update (fun _ => by rfl) (fun _ => by rfl) items
  | close _ _ =>
    refine .keep (forall₂_follows_refl _) fun items => ?_
    exact ahead_update (fun _ => by rfl) (fun _ => by rfl) items

/-- An event adds the items of its message, and the start of a turn takes the first utterance
away. -/
lemma pendingModes_step (s : SessionId) :
    List.Forall₂ (StartedTurn.Follows g e.aiMode) e.turns e'.turns ∧
        (∀ items, (e'.sessions s).pendingModes items =
          (e.sessions s).pendingModes (a.items s ++ items)) ∨
      ∃ s' mode, a = .take s' ∧ e'.aiMode = e.aiMode ∧
        e'.turns = e.turns ++
          [{ id := .start s' e.clock, promptMode := e.aiMode, utteranceMode := mode }] ∧
        ∀ items, (e.sessions s).pendingModes items =
          (if s' = s then [mode] else []) ++ (e'.sessions s).pendingModes items := by
  cases audioMove_of_step hproper hstep s with
  | keep hturns hahead =>
    refine .inl ⟨hturns, fun items => ?_⟩
    rw [pendingModes_eq, pendingModes_eq, hahead]
  | @takeFrame _ seq buffer bytes rest hturns hahead hahead' =>
    refine .inl ⟨hturns ▸ forall₂_follows_refl _, fun items => ?_⟩
    have hflag : (!(buffer ++ bytes).isEmpty) = (!buffer.isEmpty || !bytes.isEmpty) := by
      cases buffer with
      | nil => rfl
      | cons b buffer => rfl
    rw [show (ServerAct.take s).items s ++ items = items from rfl, pendingModes_eq, pendingModes_eq,
      hahead, hahead', utteranceModes, hflag]
  | takeMarker hturns hahead hahead' =>
    refine .inl ⟨hturns ▸ forall₂_follows_refl _, fun items => ?_⟩
    rw [show (ServerAct.take s).items s ++ items = items from rfl, pendingModes_eq, pendingModes_eq,
      hahead, hahead']
    rfl
  | @startTurn _ s' mode buffer rest hmode hturns hworker haudio hother hown =>
    refine .inr ⟨s', mode, rfl, hmode, hturns, fun items => ?_⟩
    rw [pendingModes_eq, pendingModes_eq]
    by_cases hs : s' = s
    · have hsome : (!buffer.isEmpty) = true := by simpa using haudio
      rw [(hown hs items).1, (hown hs items).2, if_pos hs, hsome]
      rfl
    · rw [hother hs items, if_neg hs, nil_append]

/-- Only messages change the mode of the engine. -/
lemma aiMode_step : e'.aiMode = a.modeAfter g e.aiMode := by
  have hsome : ∀ {s'}, (e.sessions s').endpoint = .serving → (e.sessions s').inputQueue.isSome :=
    fun {s'} hserving => (hproper s').inputQueue (by simp [hserving])
  cases serverMove_of_step hstep with
  | frame data hserving =>
    rw [putIncrementalInput_of_isSome (hsome hserving)]
    rfl
  | endOfUtterance lastSeq mode hserving =>
    rw [putIncrementalInput_of_isSome (by rw [update_sessions_self]; exact hsome hserving)]
    rfl
  | poll _ =>
    unfold Server.pollTurns
    split
    · rfl
    · rfl
  | _ => rfl

end

/-! ## Every turn gets its own mode -/

/-- Only its own mode can be read for a waiting utterance, and the turns have read their own
modes. -/
structure ModesKept (g : μ) (s : SessionId) (e : Server μ) : Prop where
  proper : ∀ s, (e.sessions s).Proper
  awaits : e.Awaits s e.aiMode
  prompt : ∀ t ∈ e.turnsOf s, t.utteranceMode = some t.promptMode
  voice : ∀ t ∈ e.turnsOf s, ∀ v, t.voice = some v → v = voiceOf g t.promptMode

omit [DecidableEq μ] in
/-- The session's waiting utterances have the mode that the engine will have. -/
lemma awaits_modeAfter (h : e.Awaits s e.aiMode) (hsafe : ModeSafe g s e a) :
    e.Awaits s (a.modeAfter g e.aiMode) := by
  cases a with
  | frame s' data => exact hsafe
  | endOfUtterance s' lastSeq mode =>
    cases mode with
    | none => exact h
    | some mode => exact hsafe
  | _ => exact h

omit [DecidableEq μ] in
/-- A frame always becomes audio. -/
lemma parseFrame_eq_some {data : List UInt8} {item : AudioItem μ}
    (h : parseFrame data = some item) : ∃ seq bytes, item = .pcm seq bytes := by
  unfold parseFrame at h
  split_ifs at h
  exact ⟨_, _, (Option.some.inj h).symm⟩

omit [DecidableEq μ] in
lemma items_cases (s : SessionId) (a : ServerAct μ) :
    a.items s = [] ∨ (∃ seq bytes, a.items s = [.pcm seq bytes]) ∨
      ∃ lastSeq mode, a = .endOfUtterance s lastSeq mode ∧ a.items s = [.eosMarker mode] := by
  cases a with
  | frame s' data =>
    rw [items_frame]
    split_ifs
    · cases hitem : (parseFrame data : Option (AudioItem μ)) with
      | none => exact .inl rfl
      | some item =>
        obtain ⟨seq, bytes, rfl⟩ := parseFrame_eq_some hitem
        exact .inr (.inl ⟨seq, bytes, rfl⟩)
    · exact .inl rfl
  | endOfUtterance s' lastSeq mode =>
    rw [items_endOfUtterance]
    split_ifs with hs
    · subst hs
      exact .inr (.inr ⟨lastSeq, mode, rfl, rfl⟩)
    · exact .inl rfl
  | bargeIn s' => exact .inl (items_bargeIn s s')
  | _ => exact .inl rfl

omit [DecidableEq μ] in
/-- What an event queues for the session has the mode that the engine will have. -/
lemma queued_modeAfter (h : e.Awaits s (a.modeAfter g e.aiMode)) (hsafe : ModeSafe g s e a)
    {m : Option μ} (hm : m ∈ (e.sessions s).pendingModes (a.items s)) :
    m = some (a.modeAfter g e.aiMode) := by
  obtain hitems | ⟨seq, bytes, hitems⟩ | ⟨lastSeq, mode, rfl, hitems⟩ := items_cases s a
  · rw [hitems] at hm
    exact h.queued m hm
  · rw [hitems, SessionState.pendingModes, utteranceModes_append_pcm] at hm
    exact h.queued m (by rwa [SessionState.pendingModes, append_nil])
  · rw [hitems, SessionState.pendingModes] at hm
    obtain hold | rfl := mem_utteranceModes_append_eosMarker hm
    · exact h.queued m (by rwa [SessionState.pendingModes, append_nil])
    · cases m with
      | none => exact absurd rfl hsafe
      | some m => rfl

/-- A turn after an event that starts none was there before. -/
lemma exists_follows {mode : μ} (h : List.Forall₂ (StartedTurn.Follows g mode) e.turns e'.turns)
    {t' : StartedTurn μ} (ht' : t' ∈ e'.turnsOf s) : ∃ t ∈ e.turnsOf s, t.Follows g mode t' := by
  obtain ⟨hmem, hsession⟩ := mem_filter.mp ht'
  obtain ⟨⟨i, hi⟩, rfl⟩ := mem_iff_get.mp hmem
  have hi' : i < e.turns.length := h.length_eq ▸ hi
  have hfollows := (forall₂_iff_get.mp h).2 i hi' hi
  refine ⟨e.turns.get ⟨i, hi'⟩, mem_filter.mpr ⟨get_mem _ _, ?_⟩, hfollows⟩
  rw [← hfollows.id]
  exact hsession

/-- Events that are safe for the modes of the session keep the invariant. -/
lemma modesKept_step (h : ModesKept g s e) (hsafe : ModeSafe g s e a)
    (hstep : serverStep g e a = some e') : ModesKept g s e' := by
  have hnext := awaits_modeAfter h.awaits hsafe
  have hproper : ∀ s', (e'.sessions s').Proper := fun s' => proper_step (h.proper s') hstep
  obtain ⟨hfollows, hpending⟩ | ⟨s', mode, rfl, hmode, hturns, hpending⟩ :=
    pendingModes_step h.proper hstep s
  · refine ⟨hproper, ?_, fun t' ht' => ?_, fun t' ht' v hv => ?_⟩
    · rw [aiMode_step h.proper hstep]
      refine ⟨fun m hm => queued_modeAfter hnext hsafe ?_, fun t' ht' hwaiting => ?_⟩
      · rwa [hpending, append_nil] at hm
      · obtain ⟨t, ht, hfollow⟩ := exists_follows hfollows ht'
        rw [hfollow.utteranceMode]
        exact hnext.waiting t ht (hfollow.waiting hwaiting)
    · obtain ⟨t, ht, hfollow⟩ := exists_follows hfollows ht'
      rw [hfollow.utteranceMode, hfollow.promptMode]
      exact h.prompt t ht
    · obtain ⟨t, ht, hfollow⟩ := exists_follows hfollows ht'
      rw [hfollow.promptMode]
      obtain hsame | ⟨hwaiting, hvoice⟩ := hfollow.voice
      · exact h.voice t ht v (hsame ▸ hv)
      · -- the turn is submitted now, with the mode of its utterance
        have hprompt : t.promptMode = e.aiMode :=
          Option.some.inj ((h.prompt t ht).symm.trans (h.awaits.waiting t ht hwaiting))
        rw [hprompt]
        exact Option.some.inj (hv.symm.trans hvoice)
  · -- the turns of the session are the old ones and, if the session is `s'`, the new one
    have hcases : ∀ t ∈ e'.turnsOf s, t ∈ e.turnsOf s ∨ s' = s ∧
        t = { id := .start s' e.clock, promptMode := e.aiMode, utteranceMode := mode } := by
      intro t ht
      obtain ⟨hmem, hsession⟩ := mem_filter.mp ht
      rw [hturns, mem_append, mem_singleton] at hmem
      obtain hmem | rfl := hmem
      · exact .inl (mem_filter.mpr ⟨hmem, hsession⟩)
      · exact .inr ⟨of_decide_eq_true hsession, rfl⟩
    have hown : s' = s → mode = some e.aiMode := by
      intro hs
      refine h.awaits.queued mode ?_
      rw [hpending [], if_pos hs]
      exact mem_cons_self
    refine ⟨hproper, ⟨fun m hm => ?_, fun t ht hwaiting => ?_⟩, fun t ht => ?_, fun t ht v hv => ?_⟩
    · rw [hmode]
      exact h.awaits.queued m (by rw [hpending []]; exact mem_append_right _ hm)
    · rw [hmode]
      obtain hold | ⟨hs, rfl⟩ := hcases t ht
      · exact h.awaits.waiting t hold hwaiting
      · exact hown hs
    · obtain hold | ⟨hs, rfl⟩ := hcases t ht
      · exact h.prompt t hold
      · exact hown hs
    · obtain hold | ⟨hs, rfl⟩ := hcases t ht
      · exact h.voice t hold v hv
      · cases hv

/-- An event that starts no turn keeps the modes of the utterances of the turns. -/
lemma map_utteranceMode_of_follows {mode : μ} {turns turns' : List (StartedTurn μ)}
    (h : List.Forall₂ (StartedTurn.Follows g mode) turns turns') (s : SessionId) :
    (turns'.filter fun t => t.id.session = s).map StartedTurn.utteranceMode =
      (turns.filter fun t => t.id.session = s).map StartedTurn.utteranceMode := by
  induction h with
  | nil => rfl
  | @cons t t' turns turns' hhead _ ih =>
    by_cases hs : t.id.session = s
    · simp [hs, hhead.id, hhead.utteranceMode, ih]
    · simp [hs, hhead.id, ih]

/-- The modes of the turns and of the queued utterances of a session grow by what its messages
carry. -/
lemma modes_step (hproper : ∀ s, (e.sessions s).Proper) (hstep : serverStep g e a = some e')
    (s : SessionId) (items : List (AudioItem μ)) :
    (e'.turnsOf s).map StartedTurn.utteranceMode ++ (e'.sessions s).pendingModes items =
      (e.turnsOf s).map StartedTurn.utteranceMode ++
        (e.sessions s).pendingModes (a.items s ++ items) := by
  obtain ⟨hfollows, hpending⟩ | ⟨s', mode, rfl, hmode, hturns, hpending⟩ :=
    pendingModes_step hproper hstep s
  · have hsame : (e'.turnsOf s).map StartedTurn.utteranceMode =
        (e.turnsOf s).map StartedTurn.utteranceMode := map_utteranceMode_of_follows hfollows s
    rw [hsame, hpending]
  · rw [show (ServerAct.take s').items s ++ items = items from rfl, hpending, Server.turnsOf,
      hturns]
    by_cases hs : s' = s
    · simp [Server.turnsOf, hs, TurnId.start]
    · simp [Server.turnsOf, hs, TurnId.start]

omit [DecidableEq μ] in
/-- What every event changes as if the items of its message came first is, after a run, what all
messages make it. -/
lemma read_of_messages {σ β : Type*} {step : σ → ServerAct μ → Option σ} {I : σ → Prop}
    {f : σ → List (AudioItem μ) → β} (hkeep : ∀ x a x', I x → step x a = some x' → I x')
    (hread : ∀ x a x' items, I x → step x a = some x' → f x' items = f x (a.items s ++ items))
    {x y : σ} {acts : List (ServerAct μ)} (hx : I x) (hrun : run step x acts = some y) :
    f y [] = f x ((messagesOf s acts).flatMap ClientMessage.items) := by
  induction acts generalizing x with
  | nil =>
    cases hrun
    rfl
  | cons a acts ih =>
    obtain ⟨x', hstep, hrest⟩ := run_cons_eq_some.mp hrun
    have hitems : (messagesOf s (a :: acts)).flatMap ClientMessage.items =
        a.items s ++ (messagesOf s acts).flatMap ClientMessage.items := by
      cases hmessage : a.message s with
      | none => simp [messagesOf, ServerAct.items, hmessage]
      | some m => simp [messagesOf, ServerAct.items, hmessage]
    rw [ih (hkeep x a x' hx hstep) hrest, hread x a x' _ hx hstep, hitems]

/-- In every run, the turns and queued utterances of a session have the modes of its messages, in
order. -/
lemma modes_of_run {acts : List (ServerAct μ)} {now : Second}
    (hrun : run (serverStep g) (Server.init g now) acts = some e) (s : SessionId) :
    (e.turnsOf s).map StartedTurn.utteranceMode ++ (e.sessions s).pendingModes [] =
      carriedModes (messagesOf s acts) :=
  read_of_messages (I := fun e => ∀ s, (e.sessions s).Proper)
    (f := fun e items => (e.turnsOf s).map StartedTurn.utteranceMode ++
      (e.sessions s).pendingModes items)
    (fun _ _ _ h hstep s => proper_step (h s) hstep)
    (fun _ _ _ items h hstep => modes_step h hstep s items) (fun _ => proper_init) hrun

lemma modesKept_init (g : μ) (s : SessionId) (now : Second) : ModesKept g s (Server.init g now) :=
  ⟨fun _ => proper_init, ⟨by simp [Server.init, SessionState.pendingModes, utteranceModes],
    by simp [Server.init, Server.turnsOf]⟩, by simp [Server.init, Server.turnsOf],
    by simp [Server.init, Server.turnsOf]⟩

/-- In a safe run, each turn of the session uses the mode that its end of utterance carries. -/
lemma mode_of_turn {acts : List (ServerAct μ)} {now : Second} {i : ℕ} {t : StartedTurn μ}
    (hrun : run (serverStep g) (Server.init g now) acts = some e)
    (hsafe : AllSteps (serverStep g) (ModeSafe g s) (Server.init g now) acts)
    (ht : (e.turnsOf s)[i]? = some t) :
    (carriedModes (messagesOf s acts))[i]? = some (some t.promptMode) ∧
      ∀ v, t.voice = some v → v = voiceOf g t.promptMode := by
  have hkept : ModesKept g s e :=
    run_invariant_of_allSteps (fun _ _ _ h hsafe hstep => modesKept_step h hsafe hstep)
      (modesKept_init g s now) hsafe hrun
  have hmem : t ∈ e.turnsOf s := mem_of_getElem? ht
  refine ⟨?_, hkept.voice t hmem⟩
  have hmode : ((e.turnsOf s).map StartedTurn.utteranceMode)[i]? = some (some t.promptMode) := by
    rw [getElem?_map, ht, Option.map_some, hkept.prompt t hmem]
  obtain ⟨hi, -⟩ := List.getElem?_eq_some_iff.mp hmode
  rw [← modes_of_run hrun s, getElem?_append_left hi]
  exact hmode

/-- If nobody writes another mode while an utterance of the session waits, its turns use the modes
of its messages, whatever other sessions do. -/
theorem modes_agree {acts₁ acts₂ : List (ServerAct μ)} {now₁ now₂ : Second} {e₁ e₂ : Server μ}
    (hrun₁ : run (serverStep g) (Server.init g now₁) acts₁ = some e₁)
    (hrun₂ : run (serverStep g) (Server.init g now₂) acts₂ = some e₂)
    (hsame : messagesOf s acts₁ = messagesOf s acts₂)
    (hsafe₁ : AllSteps (serverStep g) (ModeSafe g s) (Server.init g now₁) acts₁)
    (hsafe₂ : AllSteps (serverStep g) (ModeSafe g s) (Server.init g now₂) acts₂)
    {i : ℕ} {t₁ t₂ : StartedTurn μ} (ht₁ : (e₁.turnsOf s)[i]? = some t₁)
    (ht₂ : (e₂.turnsOf s)[i]? = some t₂) :
    t₁.promptMode = t₂.promptMode ∧
      (∀ v₁ v₂, t₁.voice = some v₁ → t₂.voice = some v₂ → v₁ = v₂) ∧
      (carriedModes (messagesOf s acts₁))[i]? = some (some t₁.promptMode) ∧
      ∀ v₁, t₁.voice = some v₁ → v₁ = voiceOf g t₁.promptMode := by
  obtain ⟨hmode₁, hvoice₁⟩ := mode_of_turn hrun₁ hsafe₁ ht₁
  obtain ⟨hmode₂, hvoice₂⟩ := mode_of_turn hrun₂ hsafe₂ ht₂
  have hprompt : t₁.promptMode = t₂.promptMode := by
    rw [hsame, hmode₂] at hmode₁
    exact (Option.some.inj (Option.some.inj hmode₁)).symm
  refine ⟨hprompt, fun v₁ v₂ hv₁ hv₂ => ?_, hmode₁, hvoice₁⟩
  rw [hvoice₁ v₁ hv₁, hvoice₂ v₂ hv₂, hprompt]

/-! ## Runs with another client -/

/-- Another session. -/
def neighbourSession : SessionId := .repeated 'd' (by decide)

/-- An utterance with the mode `A` and its turn, with what another client does before and after its
end. -/
def utteranceRun (before after : List (ServerAct Char)) : List (ServerAct Char) :=
  [.connect someSession, .connect neighbourSession, .frame someSession someFrame] ++ before ++
    [.endOfUtterance someSession (some 0) (some 'A')] ++ after ++
    [.take someSession, .take someSession, .submit 0]

/-- The prompt and the voice of every turn of the session. -/
def Server.usedModes (e : Server μ) (s : SessionId) : List (μ × Option Voice) :=
  (e.turnsOf s).map fun t => (t.promptMode, t.voice)

theorem modes_agree_utteranceRun :
    ∃ e₁ e₂ t₁ t₂,
      run (serverStep 'G') (Server.init 'G' someSecond) (utteranceRun [] []) = some e₁ ∧
      run (serverStep 'G') (Server.init 'G' someSecond)
        (utteranceRun [.frame neighbourSession someFrame] []) = some e₂ ∧
      (e₁.turnsOf someSession)[0]? = some t₁ ∧ (e₂.turnsOf someSession)[0]? = some t₂ ∧
      t₁.promptMode = t₂.promptMode := by
  obtain ⟨e₁, t₁, hrun₁, ht₁, -⟩ : ∃ e t,
      run (serverStep 'G') (Server.init 'G' someSecond) (utteranceRun [] []) = some e ∧
        (e.turnsOf someSession)[0]? = some t ∧ True := exists_of_run (by decide +kernel)
  obtain ⟨e₂, t₂, hrun₂, ht₂, -⟩ : ∃ e t,
      run (serverStep 'G') (Server.init 'G' someSecond)
        (utteranceRun [.frame neighbourSession someFrame] []) = some e ∧
        (e.turnsOf someSession)[0]? = some t ∧ True := exists_of_run (by decide +kernel)
  exact ⟨e₁, e₂, t₁, t₂, hrun₁, hrun₂, ht₁, ht₂,
    (modes_agree hrun₁ hrun₂ (by decide) (by decide +kernel) (by decide +kernel) ht₁ ht₂).1⟩

/-- A frame of the other client after the end of the utterance decides the prompt and the voice of
the turn. -/
theorem mode_leaks_utteranceRun :
    ∃ e₁ e₂, run (serverStep 'G') (Server.init 'G' someSecond) (utteranceRun [] []) = some e₁ ∧
      run (serverStep 'G') (Server.init 'G' someSecond)
        (utteranceRun [] [.frame neighbourSession someFrame]) = some e₂ ∧
      messagesOf someSession (utteranceRun [] []) =
        messagesOf someSession (utteranceRun [] [.frame neighbourSession someFrame]) ∧
      carriedModes (messagesOf someSession (utteranceRun [] [])) = [some 'A'] ∧
      e₁.usedModes someSession = [('A', some .a)] ∧
      e₂.usedModes someSession = [('G', some .g)] := by
  obtain ⟨e₁, hrun₁, h₁⟩ : ∃ e,
      run (serverStep 'G') (Server.init 'G' someSecond) (utteranceRun [] []) = some e ∧
        e.usedModes someSession = [('A', some .a)] :=
    exists_reached (by decide +kernel)
  obtain ⟨e₂, hrun₂, h₂⟩ : ∃ e,
      run (serverStep 'G') (Server.init 'G' someSecond)
        (utteranceRun [] [.frame neighbourSession someFrame]) = some e ∧
        e.usedModes someSession = [('G', some .g)] :=
    exists_reached (by decide +kernel)
  exact ⟨e₁, e₂, hrun₁, hrun₂, by decide, by decide, h₁, h₂⟩

end OmniStreaming
