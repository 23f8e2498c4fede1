import OmniStreaming.Server.Modes

/-!
# Utterances and the audio of turns

A client sends frames and ends of utterance. `put_incremental_input` drops frames that are too
short or have half a sample and queues the rest; `_audio_worker` extends its buffer by the samples
of the frames until it finds an end of utterance, and starts a turn with the audio of the buffer if
there is any.

`utterances` says from the messages alone what should be heard: the segments between two ends of
utterance, each the concatenation of the samples of its accepted frames, without the empty ones.
`Recorder` keeps with the server the audio that every turn is started with.
-/

namespace OmniStreaming

open List Transition

variable {μ : Type*}

/-! ## What a client says -/

/-- The message ends an utterance. -/
def ClientMessage.endsUtterance : ClientMessage μ → Bool
  | .endOfUtterance _ _ => true
  | .frame _ | .bargeIn => false

/-- The PCM part of an accepted frame: what follows the four bytes of the sequence number, if these
are whole 16-bit samples. -/
def ClientMessage.pcmPart : ClientMessage μ → List UInt8
  | .frame data => if 4 ≤ data.length ∧ 2 ∣ data.length - 4 then data.drop 4 else []
  | .endOfUtterance _ _ | .bargeIn => []

variable (messages : List (ClientMessage μ))

/-- The audio between two ends of utterance, and before the first and after the last one. -/
def segments : List (List UInt8) :=
  (messages.splitOnP ClientMessage.endsUtterance).map fun segment =>
    segment.flatMap ClientMessage.pcmPart

/-- The utterances of the messages: the segments that have ended and have audio. -/
def utterances : List (List UInt8) :=
  (segments messages).dropLast.filter fun segment => segment ≠ []

/-! ## The audio of a turn -/

/-- `np.frombuffer(audio_buffer, dtype=np.int16)`: little-endian samples. A byte too many raises. -/
def frombuffer : List UInt8 → Option (List ℤ)
  | [] => some []
  | [_] => none
  | lo :: hi :: rest =>
    (frombuffer rest).map (Int.bmod (lo.toNat + 256 * hi.toNat) (2 ^ 16) :: ·)

/-- The server, with the session and the audio of every turn. -/
structure Recorder (μ : Type*) where
  server : Server μ
  audio : List (SessionId × Option (List ℤ)) := []

/-- One event of the server. The audio of a turn is what the buffer holds when the turn is
started. -/
def recordStep [DecidableEq μ] (g : μ) (r : Recorder μ) (a : ServerAct μ) : Option (Recorder μ) :=
  (serverStep g r.server a).map fun e =>
    { server := e
      audio := r.audio ++ (e.turns.drop r.server.turns.length).map fun t =>
        (t.id.session, frombuffer ((r.server.sessions t.id.session).worker.getD [])) }

/-- The audio of the turns of a session. -/
def Recorder.audioOf (r : Recorder μ) (s : SessionId) : List (Option (List ℤ)) :=
  (r.audio.filter fun x => x.1 = s).map Prod.snd

/-- The utterances in `items` that follow a buffer. -/
def utterancesFrom : List UInt8 → List (AudioItem μ) → List (List UInt8)
  | _, [] => []
  | buffer, .pcm _ bytes :: items => utterancesFrom (buffer ++ bytes) items
  | buffer, .eosMarker _ :: items =>
    (if buffer = [] then [] else [buffer]) ++ utterancesFrom [] items

/-- The utterances that the audio worker would find if `items` followed on its queue. -/
def SessionState.queuedUtterances (x : SessionState μ) (items : List (AudioItem μ)) :
    List (List UInt8) :=
  utterancesFrom (x.ahead items).1 (x.ahead items).2

/-! ## Segments -/

lemma segments_ne_nil : segments messages ≠ [] := by
  simp [segments, splitOnP_ne_nil]

lemma segments_cons (m : ClientMessage μ) (messages : List (ClientMessage μ)) :
    segments (m :: messages) =
      if m.endsUtterance then [] :: segments messages
      else (segments messages).modifyHead (m.pcmPart ++ ·) := by
  simp only [segments, splitOnP_cons_eq_if_modifyHead]
  split_ifs
  · rfl
  · cases messages.splitOnP ClientMessage.endsUtterance <;> rfl

lemma utterancesFrom_items (buffer : List UInt8) (m : ClientMessage μ)
    (items : List (AudioItem μ)) :
    utterancesFrom buffer (m.items ++ items) =
      if m.endsUtterance then (if buffer = [] then [] else [buffer]) ++ utterancesFrom [] items
      else utterancesFrom (buffer ++ m.pcmPart) items := by
  cases m with
  | frame data =>
    simp only [ClientMessage.items, audioItems, parseFrame, ClientMessage.endsUtterance,
      ClientMessage.pcmPart, length_drop]
    by_cases hshort : data.length < 4
    · simp [hshort, Nat.not_le.mpr hshort]
    · by_cases hodd : (data.length - 4) % 2 ≠ 0
      · simp [hshort, hodd, Nat.dvd_iff_mod_eq_zero]
      · have hdvd : 2 ∣ data.length - 4 := Nat.dvd_of_mod_eq_zero (not_not.mp hodd)
        simp [hshort, hodd, Nat.not_lt.mp hshort, hdvd, utterancesFrom]
  | endOfUtterance lastSeq mode => rfl
  | bargeIn => simp [ClientMessage.items, ClientMessage.endsUtterance, ClientMessage.pcmPart]

/-- What the worker hears in the items of the messages are the segments, the first one extended by
the buffer. -/
lemma utterancesFrom_messages (buffer : List UInt8) (messages : List (ClientMessage μ)) :
    utterancesFrom buffer (messages.flatMap ClientMessage.items) =
      ((segments messages).modifyHead (buffer ++ ·)).dropLast.filter fun segment =>
        segment ≠ [] := by
  induction messages generalizing buffer with
  | nil => rfl
  | cons m messages ih =>
    rw [flatMap_cons, utterancesFrom_items, segments_cons]
    by_cases hend : m.endsUtterance = true
    · rw [if_pos hend, if_pos hend, ih, modifyHead_cons, append_nil,
        dropLast_cons_of_ne_nil (segments_ne_nil _)]
      have hid : (segments messages).modifyHead ([] ++ ·) = segments messages :=
        congrFun modifyHead_id _
      rw [hid]
      by_cases hempty : buffer = []
      · simp [hempty]
      · simp [hempty]
    · rw [if_neg hend, if_neg hend, ih, modifyHead_modifyHead]
      exact congrArg (fun f => ((segments messages).modifyHead f).dropLast.filter _)
        (funext fun segment => append_assoc _ _ _)

lemma utterancesFrom_nil_messages :
    utterancesFrom [] (messages.flatMap ClientMessage.items) = utterances messages := by
  have hid : (segments messages).modifyHead ([] ++ ·) = segments messages :=
    congrFun modifyHead_id _
  rw [utterancesFrom_messages, utterances, hid]

/-! ## Whole samples -/

/-- A buffer can be read iff it holds whole samples. -/
lemma isSome_frombuffer (bytes : List UInt8) : (frombuffer bytes).isSome ↔ 2 ∣ bytes.length := by
  fun_induction frombuffer bytes with
  | case1 => simp
  | case2 b => simp
  | case3 lo hi rest ih =>
    rw [Option.isSome_map, ih, length_cons, length_cons]
    exact (Nat.dvd_add_left (dvd_refl 2)).symm

/-- Accepted audio has whole samples. -/
lemma dvd_length_pcmPart (m : ClientMessage μ) : 2 ∣ m.pcmPart.length := by
  cases m with
  | frame data =>
    rw [ClientMessage.pcmPart]
    split_ifs with haccepted
    · rw [length_drop]
      exact haccepted.2
    · exact dvd_zero 2
  | endOfUtterance lastSeq mode => exact dvd_zero 2
  | bargeIn => exact dvd_zero 2

lemma dvd_length_of_mem_utterances {messages : List (ClientMessage μ)} {u : List UInt8}
    (h : u ∈ utterances messages) : 2 ∣ u.length := by
  obtain ⟨segment, -, rfl⟩ := mem_map.mp (mem_of_mem_dropLast (mem_filter.mp h).1)
  clear h
  induction segment with
  | nil => exact dvd_zero 2
  | cons m segment ih =>
    rw [flatMap_cons, length_append]
    exact Nat.dvd_add (dvd_length_pcmPart m) ih

/-! ## Turns are utterances -/

variable [DecidableEq μ] {g : μ} {r r' : Recorder μ} {s : SessionId} {a : ServerAct μ}

lemma recordStep_eq_some (h : recordStep g r a = some r') :
    serverStep g r.server a = some r'.server ∧
      r'.audio = r.audio ++ (r'.server.turns.drop r.server.turns.length).map fun t =>
        (t.id.session, frombuffer ((r.server.sessions t.id.session).worker.getD [])) := by
  obtain ⟨e, hstep, rfl⟩ := Option.map_eq_some_iff.mp h
  exact ⟨hstep, rfl⟩

lemma audioOf_of_length (h : recordStep g r a = some r')
    (hlength : r'.server.turns.length = r.server.turns.length) :
    r'.audioOf s = r.audioOf s := by
  rw [Recorder.audioOf, (recordStep_eq_some h).2, drop_eq_nil_of_le hlength.le, map_nil,
    append_nil, Recorder.audioOf]

/-- The audio of the turns and of the queued utterances of a session grow by what its messages
carry. -/
lemma audio_step (hproper : ∀ s, (r.server.sessions s).Proper) (h : recordStep g r a = some r')
    (s : SessionId) (items : List (AudioItem μ)) :
    r'.audioOf s ++ ((r'.server.sessions s).queuedUtterances items).map frombuffer =
      r.audioOf s ++
        ((r.server.sessions s).queuedUtterances (a.items s ++ items)).map frombuffer := by
  obtain ⟨hstep, haudio'⟩ := recordStep_eq_some h
  simp only [SessionState.queuedUtterances]
  cases audioMove_of_step hproper hstep s with
  | keep hturns hahead =>
    rw [audioOf_of_length h hturns.length_eq.symm, hahead]
  | takeFrame hturns hahead hahead' =>
    rw [audioOf_of_length h (congrArg length hturns), hahead', hahead]
    rfl
  | takeMarker hturns hahead hahead' =>
    rw [audioOf_of_length h (congrArg length hturns), hahead', hahead]
    rfl
  | @startTurn _ s' mode buffer rest hmode hturns hworker haudio hother hown =>
    have hnew : r'.audio = r.audio ++ [(s', frombuffer buffer)] := by
      simp [haudio', hturns, TurnId.start, hworker]
    by_cases hs : s' = s
    · have hgrown : r'.audioOf s = r.audioOf s ++ [frombuffer buffer] := by
        simp [Recorder.audioOf, hnew, hs]
      rw [hgrown, (hown hs items).2, (hown hs _).1, utterancesFrom, if_neg haudio,
        append_assoc]
      rfl
    · have hsame : r'.audioOf s = r.audioOf s := by
        simp [Recorder.audioOf, hnew, hs]
      rw [hsame, hother hs]
      rfl

/-- There is one recording for every turn, in the order of the turns. -/
def Recorder.Paired (r : Recorder μ) : Prop :=
  r.audio.map Prod.fst = r.server.turns.map fun t => t.id.session

/-- Turns stay with their sessions. -/
lemma map_session_of_follows {mode : μ} {turns turns' : List (StartedTurn μ)}
    (h : List.Forall₂ (StartedTurn.Follows g mode) turns turns') :
    (turns'.map fun t => t.id.session) = turns.map fun t => t.id.session := by
  induction h with
  | nil => rfl
  | cons hhead _ ih => rw [map_cons, map_cons, hhead.id, ih]

/-- Every turn has a recording. -/
lemma paired_step (hpaired : r.Paired) (h : recordStep g r a = some r') : r'.Paired := by
  obtain ⟨hstep, haudio⟩ := recordStep_eq_some h
  rw [Recorder.Paired, haudio, map_append, hpaired]
  obtain hfollows | ⟨s, mode, -, hturns⟩ := turns_step hstep
  · rw [map_session_of_follows hfollows, drop_eq_nil_of_le hfollows.length_eq.ge]
    exact append_nil _
  · simp [hturns]

omit [DecidableEq μ] in
lemma Recorder.Paired.length_audioOf (h : r.Paired) (s : SessionId) :
    (r.audioOf s).length = (r.server.turnsOf s).length := by
  have haudio : ((r.audio.map Prod.fst).filter fun s' => s' = s).length = (r.audioOf s).length := by
    rw [filter_map, length_map, Recorder.audioOf, length_map]
    rfl
  rw [← haudio, h, filter_map, length_map]
  rfl

lemma proper_recordStep (hproper : ∀ s, (r.server.sessions s).Proper)
    (h : recordStep g r a = some r') : ∀ s, (r'.server.sessions s).Proper :=
  fun s => proper_step (hproper s) (recordStep_eq_some h).1

/-- The recordings of the turns and the queued utterances are the utterances of the messages. -/
lemma audio_of_run {acts : List (ServerAct μ)} {now : Second}
    (hrun : run (recordStep g) ⟨Server.init g now, []⟩ acts = some r) (s : SessionId) :
    r.audioOf s ++ ((r.server.sessions s).queuedUtterances []).map frombuffer =
      (utterances (messagesOf s acts)).map frombuffer := by
  have hread := read_of_messages (I := fun r : Recorder μ => ∀ s, (r.server.sessions s).Proper)
    (f := fun r items => r.audioOf s ++
      ((r.server.sessions s).queuedUtterances items).map frombuffer)
    (fun _ _ _ hproper h => proper_recordStep hproper h)
    (fun _ _ _ items hproper h => audio_step hproper h s items) (fun _ => proper_init) hrun
  rw [hread, ← utterancesFrom_nil_messages]
  rfl

/-- In every run, the turns of a session are started with the utterances of its messages, in order
and each once; those not used yet are in the queue, and every buffer can be read. -/
theorem turns_started_with_utterances {acts : List (ServerAct μ)} {now : Second}
    (hrun : run (recordStep g) ⟨Server.init g now, []⟩ acts = some r) (s : SessionId) :
    (r.audioOf s).length = (r.server.turnsOf s).length ∧
      r.audioOf s ++ ((r.server.sessions s).queuedUtterances []).map frombuffer =
        (utterances (messagesOf s acts)).map frombuffer ∧
      ((r.server.sessions s).inputQueue = some [] →
        r.audioOf s = (utterances (messagesOf s acts)).map frombuffer) ∧
      ∀ x ∈ r.audioOf s, x.isSome := by
  have haudio := audio_of_run hrun s
  refine ⟨?_, haudio, fun hempty => ?_, fun x hx => ?_⟩
  · have hinit : (⟨Server.init g now, []⟩ : Recorder μ).Paired := rfl
    exact (run_invariant (fun _ _ _ h => paired_step h) hinit hrun).length_audioOf s
  · rw [← haudio, SessionState.queuedUtterances, SessionState.ahead, hempty]
    exact (append_nil _).symm
  · have hmem : x ∈ (utterances (messagesOf s acts)).map frombuffer :=
      haudio ▸ mem_append_left _ hx
    obtain ⟨u, hu, rfl⟩ := mem_map.mp hmem
    exact (isSome_frombuffer u).mpr (dvd_length_of_mem_utterances hu)

/-! ## A call -/

/-- Two samples. -/
def spokenFrame : List UInt8 := [1, 0, 0, 0, 0, 1, 255, 255]

/-- A frame, a frame that is too short, one with half a sample, and two ends of utterance. -/
def spokenRun : List (ServerAct Char) :=
  [.connect someSession, .frame someSession spokenFrame, .frame someSession [1, 2, 3],
    .take someSession, .frame someSession [1, 0, 0, 0, 7], .frame someSession spokenFrame,
    .endOfUtterance someSession (some 1) (some 'G'),
    .endOfUtterance someSession (some 1) (some 'G'), .frame someSession spokenFrame,
    .take someSession, .take someSession, .take someSession]

/-- Frames that are too short or have half a sample are dropped. -/
theorem turns_started_with_utterances_spokenRun :
    ∃ r, run (recordStep 'G') ⟨Server.init 'G' someSecond, []⟩ spokenRun = some r ∧
      r.audioOf someSession = [some [256, -1, 256, -1]] ∧
      r.audioOf someSession ++
          ((r.server.sessions someSession).queuedUtterances []).map frombuffer =
        (utterances (messagesOf someSession spokenRun)).map frombuffer := by
  obtain ⟨r, hrun, haudio⟩ : ∃ r,
      run (recordStep 'G') ⟨Server.init 'G' someSecond, []⟩ spokenRun = some r ∧
        r.audioOf someSession = [some [256, -1, 256, -1]] := exists_reached (by decide +kernel)
  exact ⟨r, hrun, haudio, (turns_started_with_utterances hrun someSession).2.1⟩

end OmniStreaming
