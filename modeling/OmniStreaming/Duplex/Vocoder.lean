import Mathlib.Algebra.Order.Field.Rat
import OmniStreaming.Lib.Slices

/-!
# The vocoder windows: `worker_1to2` and `worker_2toServer`

The talker (stage 1) answers every request with at most one row of sixteen audio codes.
`worker_1to2` of `duplex_engine.py` buffers the rows of a turn and cuts them into windows of
`CHUNK_UNIT` rows, each overlapping the one before by `OVERLAP_SIZE` rows, which it sends to the
code2wav stage (stage 2). The stop token closes the turn with one window marked `_FINAL`, padded
with zero rows. `worker_2toServer` truncates and fades the audio of the `_FINAL` window, and drops
the overlap of every window but the first.

Both loop bodies are functions of the turn's metadata (`req_state.metadata`). A row is a value of a
type `ρ` with a zero, a sample a value of a type `τ` with the gain of the fade-out.
-/

namespace OmniStreaming

open Slices

variable {ρ τ : Type*}

/-- `CHUNK_UNIT`: the number of rows of a window. -/
def chunkUnit : ℕ := 5

/-- `OVERLAP_SIZE`: the number of rows that a window shares with the one before. -/
def overlapSize : ℕ := 2

/-- The number of audio samples that stage 2 makes of one row. -/
def samplesPerRow : ℕ := 1920

/-- The token that ends the talker's speech. -/
def stopToken : ℕ := 2150

/-- A stage-1 result: the index `k` of `{turn_id}_stage_1_{k}`, the sampled tokens and the rows of
`code_predictor_codes`, if any. -/
structure TalkerResult (ρ : Type*) where
  idx : ℕ
  tokenIds : List ℕ
  audioCodes : Option (List ρ)
  deriving Repr, DecidableEq

/-- The rows that a stage-1 result carries. -/
def TalkerResult.rows (r : TalkerResult ρ) : List ρ := r.audioCodes.getD []

/-- `is_stop_token`: the stop token is among the sampled tokens. -/
def TalkerResult.isStop (r : TalkerResult ρ) : Bool := stopToken ∈ r.tokenIds

/-- A stage-2 task: its id is `{turn_id}_stage_2_{seq}`, with `_FINAL` for the last window, its
payload the rows. -/
structure Stage2Task (ρ : Type*) where
  seq : ℕ
  isFinal : Bool
  codes : List ρ
  deriving Repr, DecidableEq

/-- The entries of `req_state.metadata` that the two workers use, with the defaults of their `get`
calls. -/
structure TurnMetadata (ρ : Type*) where
  stg1AudioBuffer : List (List ρ) := []
  stg1SentIdx : ℕ := 0
  stg2SentCount : ℕ := 0
  stg1IsFinished : Bool := false
  lastChunkActualLen : Option ℕ := none
  totalVocoderExpected : Option ℕ := none
  stg2RecvCount : ℕ := 0
  deriving Repr, DecidableEq

variable (md : TurnMetadata ρ)

/-- `cumm_befferd_codes`: all buffered rows of the turn, one below the other. -/
def TurnMetadata.codes : List ρ := md.stg1AudioBuffer.flatten

/-- Append the rows of a result to the buffer, unless it has none (`numel() > 0`). -/
def TurnMetadata.bufferCodes (r : TalkerResult ρ) : TurnMetadata ρ :=
  if r.rows.isEmpty then md
  else { md with stg1AudioBuffer := md.stg1AudioBuffer ++ [r.rows] }

/-- A result adds its rows to the codes. -/
@[simp] lemma codes_bufferCodes (r : TalkerResult ρ) :
    (md.bufferCodes r).codes = md.codes ++ r.rows := by
  unfold TurnMetadata.bufferCodes
  split
  · rename_i hempty
    rw [List.isEmpty_iff.mp hempty, List.append_nil]
  · simp [TurnMetadata.codes]

@[simp] lemma bufferCodes_stg1SentIdx (r : TalkerResult ρ) :
    (md.bufferCodes r).stg1SentIdx = md.stg1SentIdx := by
  unfold TurnMetadata.bufferCodes
  split <;> rfl

@[simp] lemma bufferCodes_stg2SentCount (r : TalkerResult ρ) :
    (md.bufferCodes r).stg2SentCount = md.stg2SentCount := by
  unfold TurnMetadata.bufferCodes
  split <;> rfl

@[simp] lemma bufferCodes_stg1IsFinished (r : TalkerResult ρ) :
    (md.bufferCodes r).stg1IsFinished = md.stg1IsFinished := by
  unfold TurnMetadata.bufferCodes
  split <;> rfl

@[simp] lemma bufferCodes_stg2RecvCount (r : TalkerResult ρ) :
    (md.bufferCodes r).stg2RecvCount = md.stg2RecvCount := by
  unfold TurnMetadata.bufferCodes
  split <;> rfl

@[simp] lemma bufferCodes_totalVocoderExpected (r : TalkerResult ρ) :
    (md.bufferCodes r).totalVocoderExpected = md.totalVocoderExpected := by
  unfold TurnMetadata.bufferCodes
  split <;> rfl

lemma bufferCodes_stg1AudioBuffer_eq_nil (r : TalkerResult ρ) :
    (md.bufferCodes r).stg1AudioBuffer = [] ↔ md.stg1AudioBuffer = [] ∧ r.rows = [] := by
  unfold TurnMetadata.bufferCodes
  split
  · rename_i hempty
    simp [List.isEmpty_iff.mp hempty]
  · rename_i hne
    have hrows : r.rows ≠ [] := fun hnil => hne (List.isEmpty_iff.mpr hnil)
    simp [hrows]

/-! ## The sender -/

/-- What one iteration of `worker_1to2` leaves: the metadata, the task handed to
`try_send_via_connector`, and whether the loop goes on. -/
structure WindowOutcome (ρ : Type*) where
  md : TurnMetadata ρ
  sent : Option (Stage2Task ρ) := none
  alive : Bool := true
  deriving Repr, DecidableEq

/-- The branch for a full window. -/
def sendWindow : WindowOutcome ρ where
  md := { md with
    stg1SentIdx := md.stg1SentIdx + chunkUnit - overlapSize
    stg2SentCount := md.stg2SentCount + 1 }
  sent := some
    { seq := md.stg2SentCount
      isFinal := false
      codes := slice md.codes md.stg1SentIdx (md.stg1SentIdx + chunkUnit) }

@[simp] lemma codes_sendWindow : (sendWindow md).md.codes = md.codes := rfl

/-- The branch for the stop token, after the ids have been forgotten. For a tail longer than
`CHUNK_UNIT` the padding has a negative size: `torch.zeros` raises, which is logged and ends the
worker. -/
def sendFinal [Zero ρ] (md : TurnMetadata ρ) : WindowOutcome ρ :=
  let md := { md with stg1IsFinished := true }
  if md.stg1AudioBuffer.isEmpty then { md := md }
  else
    let lastPayload := md.codes.drop md.stg1SentIdx
    let md := { md with lastChunkActualLen := some lastPayload.length }
    if lastPayload.length = 0 then
      { md := { md with totalVocoderExpected := some md.stg2SentCount } }
    else if chunkUnit < lastPayload.length then { md := md, alive := false }
    else
      { md := { md with
          stg2SentCount := md.stg2SentCount + 1
          totalVocoderExpected := some (md.stg2SentCount + 1) }
        sent := some
          { seq := md.stg2SentCount
            isFinal := true
            codes := lastPayload ++ List.replicate (chunkUnit - lastPayload.length) 0 } }

/-- One iteration of `worker_1to2` on a stage-1 result of its turn. -/
def worker1to2 [Zero ρ] (md : TurnMetadata ρ) (r : TalkerResult ρ) : WindowOutcome ρ :=
  let md := md.bufferCodes r
  if r.isStop then sendFinal md
  else if chunkUnit ≤ md.codes.length - md.stg1SentIdx then sendWindow md
  else { md := md }

variable {r : TalkerResult ρ} {md : TurnMetadata ρ}

/-- On the stop token the worker takes the final branch. -/
lemma worker1to2_of_stop [Zero ρ] (md : TurnMetadata ρ) (hstop : r.isStop = true) :
    worker1to2 md r = sendFinal (md.bufferCodes r) := by
  simp [worker1to2, hstop]

/-- Without the stop token and with a full window unsent, the worker sends that window. -/
lemma worker1to2_of_window [Zero ρ] (hstop : r.isStop = false)
    (hfull : md.stg1SentIdx + chunkUnit ≤ (md.codes ++ r.rows).length) :
    worker1to2 md r = sendWindow (md.bufferCodes r) := by
  have hle : chunkUnit ≤ (md.bufferCodes r).codes.length - (md.bufferCodes r).stg1SentIdx := by
    rw [codes_bufferCodes, bufferCodes_stg1SentIdx]
    omega
  simp only [worker1to2, hstop, if_pos hle, Bool.false_eq_true, if_false]

/-- Without the stop token and without a full window, the worker only buffers. -/
lemma worker1to2_of_wait [Zero ρ] (hstop : r.isStop = false)
    (hwait : (md.codes ++ r.rows).length < md.stg1SentIdx + chunkUnit) :
    worker1to2 md r = { md := md.bufferCodes r } := by
  have hlt : ¬ chunkUnit ≤ (md.bufferCodes r).codes.length - (md.bufferCodes r).stg1SentIdx := by
    rw [codes_bufferCodes, bufferCodes_stg1SentIdx]
    unfold chunkUnit at hwait ⊢
    omega
  simp only [worker1to2, hstop, if_neg hlt, Bool.false_eq_true, if_false]

/-- With one to `CHUNK_UNIT` rows unsent, the final branch sends them padded with zero rows. -/
lemma sendFinal_of_tail [Zero ρ] (hpos : md.stg1SentIdx < md.codes.length)
    (hle : md.codes.length ≤ md.stg1SentIdx + chunkUnit) :
    sendFinal md =
      { md := { md with
          stg1IsFinished := true
          lastChunkActualLen := some (md.codes.length - md.stg1SentIdx)
          stg2SentCount := md.stg2SentCount + 1
          totalVocoderExpected := some (md.stg2SentCount + 1) }
        sent := some
          { seq := md.stg2SentCount
            isFinal := true
            codes := md.codes.drop md.stg1SentIdx ++
              List.replicate (chunkUnit - (md.codes.length - md.stg1SentIdx)) 0 } } := by
  have hbuf : md.stg1AudioBuffer.isEmpty = false := by
    cases hb : md.stg1AudioBuffer with
    | nil => simp [TurnMetadata.codes, hb] at hpos
    | cons b bs => rfl
  have hcodes : TurnMetadata.codes { md with stg1IsFinished := true } = md.codes := rfl
  have hne : ¬ md.codes.length - md.stg1SentIdx = 0 := by omega
  have hfit : ¬ chunkUnit < md.codes.length - md.stg1SentIdx := by omega
  simp only [sendFinal, hbuf, hcodes, List.length_drop, hne, hfit, if_false, Bool.false_eq_true]

/-- With nothing buffered, the final branch only marks the talker as finished. -/
lemma sendFinal_of_empty [Zero ρ] (hbuf : md.stg1AudioBuffer = []) :
    sendFinal md = { md := { md with stg1IsFinished := true } } := by
  simp [sendFinal, hbuf]

/-- With more than `CHUNK_UNIT` rows unsent, the final branch raises. -/
lemma sendFinal_of_long [Zero ρ] (hlong : md.stg1SentIdx + chunkUnit < md.codes.length) :
    sendFinal md =
      { md := { md with
          stg1IsFinished := true
          lastChunkActualLen := some (md.codes.length - md.stg1SentIdx) }
        alive := false } := by
  have hbuf : md.stg1AudioBuffer.isEmpty = false := by
    cases hb : md.stg1AudioBuffer with
    | nil => simp [TurnMetadata.codes, hb] at hlong
    | cons b bs => rfl
  have hcodes : TurnMetadata.codes { md with stg1IsFinished := true } = md.codes := rfl
  have hne : ¬ md.codes.length - md.stg1SentIdx = 0 := by omega
  have hfit : chunkUnit < md.codes.length - md.stg1SentIdx := by omega
  simp only [sendFinal, hbuf, hcodes, List.length_drop, hne, hfit, if_false, if_true,
    Bool.false_eq_true]

/-- The final branch sends nothing if no row is left, or raises if more than fit in a window. -/
lemma sendFinal_outcome [Zero ρ] (md : TurnMetadata ρ) :
    ((sendFinal md).sent = none ↔
      md.codes.length - md.stg1SentIdx = 0 ∨ chunkUnit < md.codes.length - md.stg1SentIdx) ∧
    ((sendFinal md).alive = false ↔ chunkUnit < md.codes.length - md.stg1SentIdx) := by
  have hcodes : TurnMetadata.codes { md with stg1IsFinished := true } = md.codes := rfl
  simp only [sendFinal, hcodes, List.length_drop]
  split_ifs with hempty hzero hlong
  · have hnil : md.codes = [] := by
      simp [TurnMetadata.codes, List.isEmpty_iff.mp hempty]
    exact ⟨iff_of_true rfl (.inl (by simp [hnil])), iff_of_false (by simp) (by simp [hnil])⟩
  · exact ⟨iff_of_true rfl (.inl hzero), iff_of_false (by simp) (by simp [hzero])⟩
  · exact ⟨iff_of_true rfl (.inr hlong), iff_of_true rfl hlong⟩
  · exact ⟨iff_of_false (by simp) (not_or.mpr ⟨hzero, hlong⟩), iff_of_false (by simp) hlong⟩

/-- The number of rows that are not yet sent when a result has been buffered. -/
def TurnMetadata.unsent (md : TurnMetadata ρ) (r : TalkerResult ρ) : ℕ :=
  (md.codes ++ r.rows).length - md.stg1SentIdx

/-- When an iteration of `worker_1to2` sends nothing. -/
lemma worker1to2_sent_eq_none_iff [Zero ρ] (md : TurnMetadata ρ) (r : TalkerResult ρ) :
    (worker1to2 md r).sent = none ↔
      r.isStop = false ∧ md.unsent r < chunkUnit ∨
        r.isStop = true ∧ (md.unsent r = 0 ∨ chunkUnit < md.unsent r) := by
  cases hstop : r.isStop with
  | false =>
    have hrhs : (false = false ∧ md.unsent r < chunkUnit ∨
        false = true ∧ (md.unsent r = 0 ∨ chunkUnit < md.unsent r)) ↔
          md.unsent r < chunkUnit := by simp
    rw [hrhs, TurnMetadata.unsent]
    rcases lt_or_ge (md.codes ++ r.rows).length (md.stg1SentIdx + chunkUnit) with hlt | hge
    · rw [worker1to2_of_wait hstop hlt]
      refine iff_of_true rfl ?_
      unfold chunkUnit at hlt ⊢
      omega
    · rw [worker1to2_of_window hstop hge]
      refine iff_of_false (Option.some_ne_none _) ?_
      omega
  | true =>
    rw [worker1to2_of_stop md hstop, (sendFinal_outcome _).1, codes_bufferCodes,
      bufferCodes_stg1SentIdx, TurnMetadata.unsent]
    simp

/-- `worker_1to2` raises on a stop token that finds too many rows unsent. -/
lemma worker1to2_alive_eq_false_iff [Zero ρ] (md : TurnMetadata ρ) (r : TalkerResult ρ) :
    (worker1to2 md r).alive = false ↔ r.isStop = true ∧ chunkUnit < md.unsent r := by
  cases hstop : r.isStop with
  | true =>
    rw [worker1to2_of_stop md hstop, (sendFinal_outcome _).2, codes_bufferCodes,
      bufferCodes_stg1SentIdx, TurnMetadata.unsent]
    simp
  | false =>
    refine iff_of_false ?_ (by simp)
    rcases lt_or_ge (md.codes ++ r.rows).length (md.stg1SentIdx + chunkUnit) with hlt | hge
    · simp [worker1to2_of_wait hstop hlt]
    · simp [worker1to2_of_window hstop hge, sendWindow]

/-! ## The receiver -/

/-- One audio sample: where it comes from and the gain applied to it. -/
structure Sample (τ : Type*) where
  src : τ
  gain : ℚ := 1
  deriving Repr, DecidableEq

/-- The multimodal output of a stage-2 result, under its three possible keys. -/
structure AudioOutput (τ : Type*) where
  modelOutputs : Option (List (Sample τ)) := none
  audio : Option (List (Sample τ)) := none
  audioWav : Option (List (Sample τ)) := none

/-- A stage-2 result: whether `_FINAL` stands in its request id, and its outputs. -/
structure VocoderResult (τ : Type*) where
  isFinal : Bool
  outputs : List (AudioOutput τ)

/-- `audio_tensor`: the first of the three keys that is present in the first output. -/
def VocoderResult.audioTensor (v : VocoderResult τ) : Option (List (Sample τ)) :=
  v.outputs.head?.bind fun o => o.modelOutputs <|> o.audio <|> o.audioWav

/-- Entry `i` of `np.linspace(1.0, 0.0, n)`. -/
def fadeCurve (n i : ℕ) : ℚ := if n = 1 then 1 else 1 - i / (n - 1)

/-- Fade out the last 500 samples, or all of them if there are fewer. -/
def fadeOut (audio : List (Sample τ)) : List (Sample τ) :=
  let fadeLen := min 500 audio.length
  audio.take (audio.length - fadeLen) ++
    (audio.drop (audio.length - fadeLen)).mapIdx fun i x =>
      { x with gain := x.gain * fadeCurve fadeLen i }

/-- The fade-out changes gains only. -/
@[simp] lemma map_src_fadeOut (audio : List (Sample τ)) :
    (fadeOut audio).map Sample.src = audio.map Sample.src := by
  have hidx : ∀ (n : ℕ) (xs : List (Sample τ)),
      (xs.mapIdx fun i x => { x with gain := x.gain * fadeCurve n i }).map Sample.src =
        xs.map Sample.src := by
    intro n xs
    apply List.ext_getElem <;> simp
  unfold fadeOut
  rw [List.map_append, hidx, ← List.map_append, List.take_append_drop]

/-- What `worker_2toServer` puts on the output queue of the turn for one stage-2 result. -/
structure AudioPiece (τ : Type*) where
  cleanAudio : List (Sample τ)
  totalVocoderExpected : ℤ
  stg2RecvCount : ℕ
  stg1IsFinished : Bool
  finished : Bool

/-- `expected_cnt`, with `-1` for the absent entry. -/
def TurnMetadata.expectedCnt (md : TurnMetadata ρ) : ℤ :=
  md.totalVocoderExpected.elim (-1) fun n => n

/-- The audio of a stage-2 result: truncated and faded if `_FINAL`, and without the overlap unless
it is the first. -/
def cleanAudio (md : TurnMetadata ρ) (isFinal : Bool) (recvCount : ℕ)
    (audio : List (Sample τ)) : List (Sample τ) :=
  let audio :=
    if isFinal then
      fadeOut (audio.take (md.lastChunkActualLen.getD chunkUnit * samplesPerRow))
    else audio
  if 1 < recvCount then audio.drop (overlapSize * samplesPerRow) else audio

/-- One iteration of `worker_2toServer`; the worker returns when the piece is marked finished. -/
def worker2toServer (md : TurnMetadata ρ) (v : VocoderResult τ) :
    TurnMetadata ρ × Option (AudioPiece τ) :=
  match v.audioTensor with
  | none => (md, none)
  | some audio =>
    let recvCount := md.stg2RecvCount + 1
    ({ md with stg2RecvCount := recvCount },
      some
        { cleanAudio := cleanAudio md v.isFinal recvCount audio
          totalVocoderExpected := md.expectedCnt
          stg2RecvCount := recvCount
          stg1IsFinished := md.stg1IsFinished
          finished := md.stg1IsFinished && decide (0 < md.expectedCnt) &&
            decide (md.expectedCnt ≤ recvCount) })

end OmniStreaming
