import Mathlib.Data.Rat.Floor
import Mathlib.Data.List.Chain

/-!
# M-RoPE positions

Every token of a multimodal prompt gets a column of three positions: its time, height and width.
`_omni_get_input_positions_tensor` takes one segment in each pass of its loop: a token of text, a
run of audio tokens, an image, a video, or, with `use_audio_in_video`, a video with its audio, whose
tokens `omni_get_updates_use_audio_in_video` has interleaved. A segment starts behind the last
tensor of the list that the loop builds.

A video with its audio is added column by column. The token behind it therefore starts behind its
last column, which need not have the largest position of the segment (`behindLast_audioVideo`,
`maxPosition_audioVideo`).
-/

namespace OmniStreaming

open List

namespace Mrope

/-! ## The code -/

/-- A column of `llm_positions`. -/
structure Column where
  t : ℕ
  h : ℕ
  w : ℕ
  deriving Repr, DecidableEq

/-- The column with one position three times. -/
def Column.diagonal (p : ℕ) : Column := ⟨p, p, p⟩

/-- The largest position of a column. -/
def Column.top (c : Column) : ℕ := max c.t (max c.h c.w)

/-- A row of `image_grid_thw` or `video_grid_thw`. -/
structure Grid where
  t : ℕ
  h : ℕ
  w : ℕ
  deriving Repr, DecidableEq

inductive MropeError
  /-- An index that a list does not have. -/
  | index
  /-- The maximum of an empty tensor. -/
  | emptyMax
  /-- A division by zero. -/
  | zeroDivision
  /-- The assertion that audio lengths are given. -/
  | noAudioSeqlens
  /-- `torch.cat` of no tensors. -/
  | emptyCat
  deriving Repr, DecidableEq

/-- What is read of the configuration, and the rounding of products to machine numbers. -/
structure Config where
  audioTokenId : ℕ
  imageTokenId : ℕ
  videoTokenId : ℕ
  audioStartTokenId : ℕ
  audioEndTokenId : ℕ
  visionStartTokenId : ℕ
  visionEndTokenId : ℕ
  secondsPerChunk : ℚ
  spatialMergeSize : ℕ
  tokensPerSecond : ℕ
  round : ℚ → ℚ

/-- The other arguments; no `second_per_grid_ts` is the same as an empty list. -/
structure Metadata where
  imageGridThw : List Grid
  videoGridThw : List Grid
  secondPerGridTs : List ℚ
  audioFeatureLengths : Option (List ℕ)
  useAudioInVideo : Bool

variable (cfg : Config)

def tNtokenPerChunk : ℕ := (cfg.tokensPerSecond * cfg.secondsPerChunk).floor.toNat

/-- The time of a frame: `(k * second_per_grid_t * tokens_per_second).long()`. -/
def frameTime (s : ℚ) (k : ℕ) : ℕ :=
  (cfg.round (cfg.round (k * s) * cfg.tokensPerSecond)).floor.toNat

/-- `t_index` of a video. -/
def videoTimes (g : Grid) (s : ℚ) : List ℕ := (range g.t).map (frameTime cfg s)

/-- `t_index` of an image. -/
def imageTimes (g : Grid) : List ℕ := (range g.t).map fun k => k * 1 * cfg.tokensPerSecond

/-- The number of positions for audio of some feature length. -/
def compressedLen (l : ℕ) : ℕ := ((((l : ℤ) - 1) / 2 + 1 - 2) / 2 + 1).toNat

def getLlmPosIdsForVision (start : ℕ) (g : Grid) (tIndex : List ℕ) : List Column :=
  tIndex.flatMap fun t => (range (g.h / cfg.spatialMergeSize)).flatMap fun h =>
    (range (g.w / cfg.spatialMergeSize)).map fun w => ⟨t + start, h + start, w + start⟩

def splitListIntoRanges (lst : List ℕ) (interval : ℕ) : Except MropeError (List (List ℕ)) :=
  match lst.max? with
  | none => .error .emptyMax
  | some top =>
    if interval = 0 then .error .zeroDivision
    else .ok ((range (top / interval + 1)).map fun i => lst.filter fun t => t / interval = i)

/-- `vision_ntoken_per_chunk`, and `vision_seqlen` for all frames. -/
def visionNtoken (frames : ℕ) (g : Grid) : ℕ := frames * g.h * g.w / cfg.spatialMergeSize ^ 2

/-- The tokens of a chunk: those of its frames and of its audio. -/
def chunkTokens (g : Grid) (tChunk : List ℕ) (audio : ℕ) : List ℕ :=
  replicate (visionNtoken cfg tChunk.length g) cfg.videoTokenId ++
    replicate audio cfg.audioTokenId

def omniGetUpdatesUseAudioInVideo (audioLen : ℕ) (g : Grid) (s : ℚ) :
    Except MropeError (List ℕ) := do
  let chunks ← splitListIntoRanges (videoTimes cfg g s) (tNtokenPerChunk cfg)
  let (updates, added) := chunks.foldl (fun (acc : List ℕ × ℕ) tChunk =>
      let size := min (tNtokenPerChunk cfg) (audioLen - acc.2)
      (acc.1 ++ chunkTokens cfg g tChunk size, acc.2 + size))
    ([cfg.audioStartTokenId], 0)
  .ok ((if added < audioLen then
      updates ++ replicate (audioLen - added) cfg.audioTokenId else updates) ++
    [cfg.audioEndTokenId])

/-- The largest position of a tensor. -/
def maxPosition (cols : List Column) : Option ℕ := (cols.map Column.top).max?

/-- `tensor.split(1, dim=1)`; an empty tensor is one part. -/
def split1 (cols : List Column) : List (List Column) :=
  if cols = [] then [[]] else cols.map fun c => [c]

/-- `llm_pos_ids_list[-1].max() + 1`. -/
def behindLast (tensors : List (List Column)) : Except MropeError ℕ :=
  match tensors.getLast? with
  | none => .error .index
  | some cols =>
    match maxPosition cols with
    | none => .error .emptyMax
    | some top => .ok (top + 1)

/-- The variables of the loop. -/
structure State where
  newSrcItem : List ℕ := []
  llmPosIdsList : List (List Column) := []
  audioIdx : ℕ := 0
  imageIdx : ℕ := 0
  videoIdx : ℕ := 0

def startIdx (tensors : List (List Column)) : Except MropeError ℕ :=
  if tensors = [] then .ok 0 else behindLast tensors

/-- What a token of text is moved back next to a video with its audio. -/
def adjustment (use : Bool) (prev : Option ℕ) (tok : ℕ) : ℕ :=
  if use then
    if tok = cfg.visionEndTokenId ∧ prev = some cfg.audioEndTokenId then 1
    else if tok = cfg.audioStartTokenId ∧ prev = some cfg.visionStartTokenId then 1
    else 0
  else 0

/-- The token before an index. -/
def tokenBefore (src : List ℕ) (idx : ℕ) : Option ℕ := if idx = 0 then none else src[idx - 1]?

variable (md : Metadata)

/-- A token of text. -/
def textStep (src : List ℕ) (idx tok start : ℕ) (st : State) : State :=
  let start := start - adjustment cfg md.useAudioInVideo (tokenBefore src idx) tok
  { st with
    newSrcItem := st.newSrcItem ++ [tok]
    llmPosIdsList := st.llmPosIdsList ++ [[Column.diagonal start]] }

/-- A run of audio tokens. -/
def audioStep (src : List ℕ) (idx start : ℕ) (st : State) : State :=
  let cnt := ((src.drop idx).takeWhile fun tok => tok == cfg.audioTokenId).length
  let compressed :=
    match md.audioFeatureLengths with
    | none => cnt
    | some lengths =>
      match lengths[st.audioIdx]? with
      | none => cnt
      | some l => compressedLen l
  let valid := min cnt compressed
  let posValid := (range valid).map fun i => Column.diagonal (i + start)
  let posPad := (range (cnt - valid)).map fun i => Column.diagonal (i + start + valid)
  { st with
    newSrcItem := st.newSrcItem ++ replicate cnt cfg.audioTokenId
    llmPosIdsList := st.llmPosIdsList ++ [posValid ++ posPad]
    audioIdx := st.audioIdx + 1 }

/-- An image. -/
def imageStep (start : ℕ) (st : State) : Except MropeError State :=
  match md.imageGridThw[st.imageIdx]? with
  | none => .error .index
  | some g => .ok
    { st with
      newSrcItem := st.newSrcItem ++ replicate (visionNtoken cfg g.t g) cfg.imageTokenId
      llmPosIdsList := st.llmPosIdsList ++ [getLlmPosIdsForVision cfg start g (imageTimes cfg g)]
      imageIdx := st.imageIdx + 1 }

/-- `second_per_grid_ts` with its default. -/
def secondPerGrid : List ℚ :=
  if md.secondPerGridTs = [] then replicate md.videoGridThw.length 1 else md.secondPerGridTs

/-- A video without audio. -/
def videoStep (start : ℕ) (st : State) : Except MropeError State :=
  match md.videoGridThw[st.videoIdx]?, (secondPerGrid md)[st.videoIdx]? with
  | some g, some s => .ok
    { st with
      newSrcItem := st.newSrcItem ++ replicate (visionNtoken cfg g.t g) cfg.videoTokenId
      llmPosIdsList := st.llmPosIdsList ++ [getLlmPosIdsForVision cfg start g (videoTimes cfg g s)]
      videoIdx := st.videoIdx + 1 }
  | _, _ => .error .index

/-- The variables of the loop over the chunks. -/
structure ChunkState where
  newSrcItem : List ℕ
  llmPosIdsList : List (List Column)
  /-- `audio_llm_pos_ids_list` -/
  audioColumns : List Column := []
  addedAudioLen : ℕ := 0

/-- One chunk of a video with its audio. -/
def chunkStep (g : Grid) (start pureAudioLen : ℕ) (cs : ChunkState) (tChunk : List ℕ) :
    ChunkState :=
  let size := min (tNtokenPerChunk cfg) (pureAudioLen - cs.addedAudioLen)
  let audioStart :=
    match cs.audioColumns.getLast? with
    | none => start
    | some c => c.t + 1
  let audioColumns := (range size).map fun i => Column.diagonal (i + audioStart)
  { newSrcItem := cs.newSrcItem ++ chunkTokens cfg g tChunk size
    llmPosIdsList := cs.llmPosIdsList ++ split1 (getLlmPosIdsForVision cfg start g tChunk) ++
      audioColumns.map fun c => [c]
    audioColumns := audioColumns
    addedAudioLen := cs.addedAudioLen + size }

/-- A video with its audio. -/
def audioInVideoStep (start : ℕ) (st : State) : Except MropeError State :=
  match md.audioFeatureLengths with
  | none => .error .noAudioSeqlens
  | some lengths =>
    match lengths[st.audioIdx]?, md.videoGridThw[st.videoIdx]?,
      (secondPerGrid md)[st.videoIdx]? with
    | some l, some g, some s => do
      let chunks ← splitListIntoRanges (videoTimes cfg g s) (tNtokenPerChunk cfg)
      let cs := chunks.foldl (chunkStep cfg g start (compressedLen l))
        ⟨st.newSrcItem, st.llmPosIdsList, [], 0⟩
      let rest := compressedLen l - cs.addedAudioLen
      if cs.addedAudioLen < compressedLen l then do
        let next ← behindLast cs.llmPosIdsList
        .ok ⟨cs.newSrcItem ++ replicate rest cfg.audioTokenId,
          cs.llmPosIdsList ++ (range rest).map fun i => [Column.diagonal (i + next)],
          st.audioIdx + 1, st.imageIdx, st.videoIdx + 1⟩
      else
        .ok ⟨cs.newSrcItem, cs.llmPosIdsList, st.audioIdx + 1, st.imageIdx, st.videoIdx + 1⟩
    | _, _, _ => .error .index

/-- One pass of the loop, at a token. -/
def pass (md : Metadata) (src : List ℕ) (idx tok : ℕ) (st : State) : Except MropeError State := do
  let start ← startIdx st.llmPosIdsList
  if tok ≠ cfg.audioTokenId ∧ tok ≠ cfg.videoTokenId ∧ tok ≠ cfg.imageTokenId then
    .ok (textStep cfg md src idx tok start st)
  else if tok = cfg.audioTokenId then .ok (audioStep cfg md src idx start st)
  else if tok = cfg.imageTokenId then imageStep cfg md start st
  else if md.useAudioInVideo = false then videoStep cfg md start st
  else audioInVideoStep cfg md start st

/-- How far the index moves. -/
def advance (st st' : State) : ℕ :=
  let added := st'.newSrcItem.length - st.newSrcItem.length
  if added = 0 then 1 else added

/-- Every pass of the loop advances. -/
lemma advance_pos (st st' : State) : 0 < advance st st' := by
  simp only [advance]
  split_ifs <;> omega

/-- The loop over the tokens. -/
def positionLoop (md : Metadata) (src : List ℕ) (idx : ℕ) (st : State) : Except MropeError State :=
  if h : idx < src.length then
    match pass cfg md src idx src[idx] st with
    | .error e => .error e
    | .ok st' => positionLoop md src (idx + advance st st') st'
  else .ok st
termination_by src.length - idx
decreasing_by
  have := advance_pos st st'
  omega

/-- The positions and the delta, with the items that the loop has taken. -/
structure Positions where
  llmPositions : List Column
  mropePositionDelta : ℤ
  audioIdx : ℕ
  imageIdx : ℕ
  videoIdx : ℕ
  deriving Repr, DecidableEq

/-- `_omni_get_input_positions_tensor`. -/
def omniGetInputPositionsTensor (src : List ℕ) : Except MropeError Positions := do
  let st ← positionLoop cfg md src 0 {}
  match maxPosition st.llmPosIdsList.flatten with
  | none => .error .emptyCat
  | some top =>
    .ok ⟨st.llmPosIdsList.flatten, top + 1 - src.length, st.audioIdx, st.imageIdx, st.videoIdx⟩

/-! ## Segments -/

/-- What the loop takes in one pass. -/
inductive Segment
  | text (tok : ℕ)
  /-- A run of audio tokens, with the feature length. -/
  | audio (cnt length : ℕ)
  | image (g : Grid)
  /-- A video, with the seconds per frame. -/
  | video (g : Grid) (s : ℚ)
  /-- A video with its audio, with the seconds per frame and the feature length. -/
  | audioVideo (g : Grid) (s : ℚ) (length : ℕ)

/-- The frames of a video in chunks. -/
def chunks (g : Grid) (s : ℚ) : List (List ℕ) :=
  (range (frameTime cfg s (g.t - 1) / tNtokenPerChunk cfg + 1)).map fun i =>
    (videoTimes cfg g s).filter fun t => t / tNtokenPerChunk cfg = i

/-- The tokens of the chunks, if some of the audio has been added before. -/
def audioVideoTokens (g : Grid) (pureAudioLen : ℕ) : List (List ℕ) → ℕ → List ℕ
  | [], added => replicate (pureAudioLen - added) cfg.audioTokenId
  | tChunk :: rest, added =>
    let size := min (tNtokenPerChunk cfg) (pureAudioLen - added)
    chunkTokens cfg g tChunk size ++ audioVideoTokens g pureAudioLen rest (added + size)

/-- Audio positions, one tensor for each. -/
def audioTensors (start size : ℕ) : List (List Column) :=
  (range size).map fun i => [Column.diagonal (i + start)]

/-- The tensors of the chunks: the audio goes on from chunk to chunk. -/
def audioVideoTensors (g : Grid) (start pureAudioLen : ℕ) :
    List (List ℕ) → ℕ → List (List Column)
  | [], added => audioTensors (start + added) (pureAudioLen - added)
  | tChunk :: rest, added =>
    let size := min (tNtokenPerChunk cfg) (pureAudioLen - added)
    split1 (getLlmPosIdsForVision cfg start g tChunk) ++ audioTensors (start + added) size ++
      audioVideoTensors g start pureAudioLen rest (added + size)

namespace Segment

/-- The tokens of a segment. -/
def tokens : Segment → List ℕ
  | text tok => [tok]
  | audio cnt _ => replicate cnt cfg.audioTokenId
  | image g => replicate (visionNtoken cfg g.t g) cfg.imageTokenId
  | video g _ => replicate (visionNtoken cfg g.t g) cfg.videoTokenId
  | audioVideo g s length => audioVideoTokens cfg g (compressedLen length) (chunks cfg g s) 0

/-- The tensors that the loop adds for a segment. -/
def tensors (use : Bool) (prev : Option ℕ) (start : ℕ) : Segment → List (List Column)
  | text tok => [[Column.diagonal (start - adjustment cfg use prev tok)]]
  | audio cnt _ => [(range cnt).map fun i => Column.diagonal (i + start)]
  | image g => [getLlmPosIdsForVision cfg start g (imageTimes cfg g)]
  | video g s => [getLlmPosIdsForVision cfg start g (videoTimes cfg g s)]
  | audioVideo g s length =>
    audioVideoTensors cfg g start (compressedLen length) (chunks cfg g s) 0

/-- The feature lengths that a segment takes. -/
def audios : Segment → List ℕ
  | audio _ length | audioVideo _ _ length => [length]
  | _ => []

/-- The images that a segment takes. -/
def images : Segment → List Grid
  | image g => [g]
  | _ => []

/-- The videos that a segment takes, with the seconds per frame. -/
def videos : Segment → List (Grid × ℚ)
  | video g s | audioVideo g s _ => [(g, s)]
  | _ => []

end Segment

/-- The configuration tells the tokens apart, and a chunk has room for audio; the rounding is
monotone. -/
structure Config.Valid : Prop where
  image_ne_audio : cfg.imageTokenId ≠ cfg.audioTokenId
  video_ne_audio : cfg.videoTokenId ≠ cfg.audioTokenId
  video_ne_image : cfg.videoTokenId ≠ cfg.imageTokenId
  marks_text : ∀ tok ∈ [cfg.audioStartTokenId, cfg.audioEndTokenId, cfg.visionStartTokenId,
    cfg.visionEndTokenId], tok ≠ cfg.audioTokenId ∧ tok ≠ cfg.videoTokenId ∧
      tok ≠ cfg.imageTokenId
  spatialMergeSize_pos : 0 < cfg.spatialMergeSize
  tNtokenPerChunk_pos : 0 < tNtokenPerChunk cfg
  round_monotone : Monotone cfg.round
  round_zero : cfg.round 0 = 0

/-- A grid with at least one patch, of a height and width that the merge size divides. -/
@[mk_iff]
structure Grid.Valid (g : Grid) : Prop where
  t_pos : 0 < g.t
  h_pos : 0 < g.h
  w_pos : 0 < g.w
  dvd_h : cfg.spatialMergeSize ∣ g.h
  dvd_w : cfg.spatialMergeSize ∣ g.w

instance (g : Grid) : Decidable (g.Valid cfg) := decidable_of_iff' _ (Grid.valid_iff cfg g)

/-- A segment that can occur in a prompt, with or without `use_audio_in_video`. -/
def Segment.Valid (use : Bool) : Segment → Prop
  | text tok => tok ≠ cfg.audioTokenId ∧ tok ≠ cfg.videoTokenId ∧ tok ≠ cfg.imageTokenId
  | audio cnt _ => 0 < cnt
  | image g => g.Valid cfg
  | video g s => g.Valid cfg ∧ 0 ≤ s ∧ use = false
  | audioVideo g s _ => g.Valid cfg ∧ 0 ≤ s ∧ use = true

section Lemmas

variable {cfg} {g : Grid} {s : ℚ}

/-! ### Positions -/

@[simp] lemma top_diagonal (p : ℕ) : (Column.diagonal p).top = p := by
  simp [Column.diagonal, Column.top]

variable {cols : List Column} {t start pureAudioLen : ℕ} {c : Column} {tIndex : List ℕ}
  {cs : ChunkState}

lemma maxPosition_eq_some {top : ℕ} :
    maxPosition cols = some top ↔
      (∃ c ∈ cols, c.top = top) ∧ ∀ c ∈ cols, c.top ≤ top := by
  rw [maxPosition, max?_eq_some_iff]
  simp

lemma exists_maxPosition (h : cols ≠ []) : ∃ top, maxPosition cols = some top := by
  cases hmax : maxPosition cols with
  | none =>
    rw [maxPosition, max?_eq_none_iff, map_eq_nil_iff] at hmax
    exact absurd hmax h
  | some top => exact ⟨top, rfl⟩

/-! ### The frames of a video -/

section

variable (hcfg : cfg.Valid)
include hcfg

/-- Later frames have later times. -/
lemma frameTime_mono (hs : 0 ≤ s) : Monotone (frameTime cfg s) := by
  intro k k' hk
  have hcast : (k : ℚ) ≤ k' := by exact_mod_cast hk
  have hmul : (k : ℚ) * s ≤ k' * s := mul_le_mul_of_nonneg_right hcast hs
  have hround := mul_le_mul_of_nonneg_right (hcfg.round_monotone hmul)
    (Nat.cast_nonneg' cfg.tokensPerSecond : (0 : ℚ) ≤ cfg.tokensPerSecond)
  exact Int.toNat_le_toNat (Rat.floor_monotone (hcfg.round_monotone hround))

lemma frameTime_zero (s : ℚ) : frameTime cfg s 0 = 0 := by
  simp only [frameTime, Nat.cast_zero, zero_mul, hcfg.round_zero]
  rfl

/-- The time of the last frame. -/
def lastTime (cfg : Config) (g : Grid) (s : ℚ) : ℕ := frameTime cfg s (g.t - 1)

/-- No frame is later than the last one. -/
lemma mem_videoTimes_le (hs : 0 ≤ s) (ht : t ∈ videoTimes cfg g s) : t ≤ lastTime cfg g s := by
  obtain ⟨k, hk, rfl⟩ := mem_map.mp ht
  have hlt := mem_range.mp hk
  exact frameTime_mono hcfg hs (by omega)

omit hcfg in
lemma videoTimes_eq (hg : g.Valid cfg) :
    videoTimes cfg g s = (range (g.t - 1)).map (frameTime cfg s) ++ [lastTime cfg g s] := by
  obtain ⟨n, hn⟩ := Nat.exists_eq_succ_of_ne_zero hg.t_pos.ne'
  rw [videoTimes, lastTime, hn, range_succ, map_append]
  rfl

/-- The last time is the largest. -/
lemma max_videoTimes (hg : g.Valid cfg) (hs : 0 ≤ s) :
    (videoTimes cfg g s).max? = some (lastTime cfg g s) := by
  rw [max?_eq_some_iff]
  exact ⟨by simp [videoTimes_eq hg], fun t ht => mem_videoTimes_le hcfg hs ht⟩

lemma splitListIntoRanges_videoTimes (hg : g.Valid cfg) (hs : 0 ≤ s) :
    splitListIntoRanges (videoTimes cfg g s) (tNtokenPerChunk cfg) = .ok (chunks cfg g s) := by
  simp only [splitListIntoRanges, max_videoTimes hcfg hg hs, if_neg hcfg.tNtokenPerChunk_pos.ne']
  rfl

/-- The chunks before the last one are as many as the last frame is chunks away. -/
def fullChunks (cfg : Config) (g : Grid) (s : ℚ) : ℕ := lastTime cfg g s / tNtokenPerChunk cfg

omit hcfg in
lemma length_chunks (cfg : Config) (g : Grid) (s : ℚ) :
    (chunks cfg g s).length = fullChunks cfg g s + 1 := by
  rw [chunks, length_map, length_range]
  rfl

/-- No chunk goes beyond the last time. -/
lemma mem_chunks_le (hs : 0 ≤ s) {c : List ℕ} (hc : c ∈ chunks cfg g s)
    (ht : t ∈ c) : t ≤ lastTime cfg g s := by
  obtain ⟨i, _, rfl⟩ := mem_map.mp hc
  exact mem_videoTimes_le hcfg hs (mem_of_mem_filter ht)

/-- The first chunk has a frame. -/
lemma chunks_eq_cons (hg : g.Valid cfg) (s : ℚ) :
    ∃ c rest, chunks cfg g s = c :: rest ∧ c ≠ [] := by
  rw [chunks, range_succ_eq_map, map_cons]
  refine ⟨_, _, rfl, ne_nil_of_mem (a := 0) ?_⟩
  refine mem_filter.mpr ⟨mem_map.mpr ⟨0, mem_range.mpr hg.t_pos, ?_⟩, by simp⟩
  exact frameTime_zero hcfg s

omit hcfg in
lemma chunks_eq_concat (hg : g.Valid cfg) (s : ℚ) :
    ∃ rest c, chunks cfg g s = rest ++ [c] ∧ c.getLast? = some (lastTime cfg g s) := by
  rw [chunks, range_succ, map_append]
  refine ⟨_, _, rfl, ?_⟩
  rw [videoTimes_eq hg]
  simp [lastTime, filter_append]

/-! ### The columns of frames -/

/-- The largest position of a video behind its start. -/
def visionTop (cfg : Config) (g : Grid) (s : ℚ) : ℕ :=
  max (lastTime cfg g s) (max (g.h / cfg.spatialMergeSize - 1) (g.w / cfg.spatialMergeSize - 1))

lemma Grid.Valid.llm_h_pos (hg : g.Valid cfg) : 0 < g.h / cfg.spatialMergeSize :=
  Nat.div_pos (Nat.le_of_dvd hg.h_pos hg.dvd_h) hcfg.spatialMergeSize_pos

lemma Grid.Valid.llm_w_pos (hg : g.Valid cfg) : 0 < g.w / cfg.spatialMergeSize :=
  Nat.div_pos (Nat.le_of_dvd hg.w_pos hg.dvd_w) hcfg.spatialMergeSize_pos

omit hcfg in
/-- The columns of a frame. -/
lemma mem_getLlmPosIdsForVision :
    c ∈ getLlmPosIdsForVision cfg start g tIndex ↔
      ∃ t ∈ tIndex, ∃ h < g.h / cfg.spatialMergeSize, ∃ w < g.w / cfg.spatialMergeSize,
        c = ⟨t + start, h + start, w + start⟩ := by
  simp only [getLlmPosIdsForVision, mem_flatMap, mem_map, mem_range]
  constructor
  · rintro ⟨t, ht, h, hh, w, hw, rfl⟩
    exact ⟨t, ht, h, hh, w, hw, rfl⟩
  · rintro ⟨t, ht, h, hh, w, hw, rfl⟩
    exact ⟨t, ht, h, hh, w, hw, rfl⟩

omit hcfg in
lemma length_getLlmPosIdsForVision (start : ℕ) (tIndex : List ℕ) :
    (getLlmPosIdsForVision cfg start g tIndex).length =
      tIndex.length * ((g.h / cfg.spatialMergeSize) * (g.w / cfg.spatialMergeSize)) := by
  simp [getLlmPosIdsForVision, length_flatMap]

/-- The number of tokens of some frames. -/
lemma visionNtoken_eq (hg : g.Valid cfg) (frames : ℕ) :
    visionNtoken cfg frames g =
      frames * ((g.h / cfg.spatialMergeSize) * (g.w / cfg.spatialMergeSize)) := by
  obtain ⟨h, hh⟩ := hg.dvd_h
  obtain ⟨w, hw⟩ := hg.dvd_w
  have hpos := hcfg.spatialMergeSize_pos
  have hprod : frames * (cfg.spatialMergeSize * h) * (cfg.spatialMergeSize * w) =
      frames * (h * w) * cfg.spatialMergeSize ^ 2 := by ring
  rw [visionNtoken, hh, hw, Nat.mul_div_cancel_left _ hpos, Nat.mul_div_cancel_left _ hpos, hprod,
    Nat.mul_div_cancel _ (Nat.pow_pos hpos)]

/-- The last column of the last frame. -/
lemma getLast_getLlmPosIdsForVision (hg : g.Valid cfg) (start : ℕ)
    (ht : tIndex.getLast? = some t) :
    (getLlmPosIdsForVision cfg start g tIndex).getLast? =
      some ⟨t + start, g.h / cfg.spatialMergeSize - 1 + start,
        g.w / cfg.spatialMergeSize - 1 + start⟩ := by
  obtain ⟨rest, rfl⟩ := getLast?_eq_some_iff.mp ht
  obtain ⟨h, hh⟩ := Nat.exists_eq_succ_of_ne_zero (hg.llm_h_pos hcfg).ne'
  obtain ⟨w, hw⟩ := Nat.exists_eq_succ_of_ne_zero (hg.llm_w_pos hcfg).ne'
  simp [getLlmPosIdsForVision, hh, hw, range_succ]

/-! ### A video with its audio -/

omit hcfg in
/-- What the loop over the chunks makes. -/
lemma foldl_updates (cfg : Config) (g : Grid) (audioLen : ℕ) (cs : List (List ℕ))
    (acc : List ℕ × ℕ) :
    let res := cs.foldl (fun (acc : List ℕ × ℕ) tChunk =>
      let size := min (tNtokenPerChunk cfg) (audioLen - acc.2)
      (acc.1 ++ chunkTokens cfg g tChunk size, acc.2 + size)) acc
    res.1 ++ replicate (audioLen - res.2) cfg.audioTokenId =
      acc.1 ++ audioVideoTokens cfg g audioLen cs acc.2 := by
  induction cs generalizing acc with
  | nil => rfl
  | cons tChunk cs ih =>
    refine (ih _).trans ?_
    rw [audioVideoTokens, append_assoc]

/-- The tokens between the marks of the audio. -/
lemma omniGetUpdatesUseAudioInVideo_ok (hg : g.Valid cfg) (hs : 0 ≤ s)
    (audioLen : ℕ) :
    omniGetUpdatesUseAudioInVideo cfg audioLen g s =
      .ok (cfg.audioStartTokenId :: audioVideoTokens cfg g audioLen (chunks cfg g s) 0 ++
        [cfg.audioEndTokenId]) := by
  have hfold := foldl_updates cfg g audioLen (chunks cfg g s) ([cfg.audioStartTokenId], 0)
  simp only [omniGetUpdatesUseAudioInVideo, splitListIntoRanges_videoTimes hcfg hg hs, bind,
    Except.bind]
  congr 2
  refine Eq.trans ?_ hfold
  split_ifs with hleft
  · rfl
  · rw [Nat.sub_eq_zero_of_le (not_lt.mp hleft), replicate_zero, append_nil]

end

/-- The audio positions so far: none, or up to the number added, with the last one at the end of the
list. -/
def ChunkInv (start pureAudioLen : ℕ) (cs : ChunkState) : Prop :=
  match cs.audioColumns.getLast? with
  | none => cs.addedAudioLen = 0 ∨ pureAudioLen ≤ cs.addedAudioLen
  | some c => c.t + 1 = start + cs.addedAudioLen ∧
      behindLast cs.llmPosIdsList = .ok (start + cs.addedAudioLen)

lemma behindLast_concat (tensors : List (List Column)) (p : ℕ) :
    behindLast (tensors ++ [[Column.diagonal p]]) = .ok (p + 1) := by
  simp [behindLast, maxPosition]

/-- One more audio position. -/
lemma audioTensors_succ (start size : ℕ) :
    audioTensors start (size + 1) =
      audioTensors start size ++ [[Column.diagonal (size + start)]] := by
  rw [audioTensors, range_succ, map_append]
  rfl

/-- The audio of a chunk goes on where the audio before has ended. -/
lemma audioColumns_chunkStep (hcs : ChunkInv start pureAudioLen cs) (g : Grid) (tChunk : List ℕ) :
    (chunkStep cfg g start pureAudioLen cs tChunk).audioColumns =
      (range (min (tNtokenPerChunk cfg) (pureAudioLen - cs.addedAudioLen))).map
        fun i => Column.diagonal (i + (start + cs.addedAudioLen)) := by
  rw [ChunkInv] at hcs
  simp only [chunkStep]
  cases hlast : cs.audioColumns.getLast? with
  | none =>
    rw [hlast] at hcs
    rcases hcs with hzero | hdone
    · rw [hzero, Nat.add_zero]
    · rw [Nat.sub_eq_zero_of_le hdone, Nat.min_zero]
      rfl
  | some c =>
    rw [hlast] at hcs
    rw [← hcs.1]

/-- One chunk. If there is audio left, the chunk ends with audio. -/
lemma chunkStep_spec (hcfg : cfg.Valid) (hcs : ChunkInv start pureAudioLen cs) (g : Grid)
    (tChunk : List ℕ) :
    let size := min (tNtokenPerChunk cfg) (pureAudioLen - cs.addedAudioLen)
    let next := chunkStep cfg g start pureAudioLen cs tChunk
    next.llmPosIdsList = cs.llmPosIdsList ++ (split1 (getLlmPosIdsForVision cfg start g tChunk) ++
      audioTensors (start + cs.addedAudioLen) size) ∧
    ChunkInv start pureAudioLen next ∧
    (next.addedAudioLen < pureAudioLen →
      behindLast next.llmPosIdsList = .ok (start + next.addedAudioLen)) := by
  intro size next
  have hcolumns : next.audioColumns = (range size).map
      fun i => Column.diagonal (i + (start + cs.addedAudioLen)) :=
    audioColumns_chunkStep hcs g tChunk
  have hadded : next.addedAudioLen = cs.addedAudioLen + size := rfl
  have hlist : next.llmPosIdsList = cs.llmPosIdsList ++
      (split1 (getLlmPosIdsForVision cfg start g tChunk) ++
        audioTensors (start + cs.addedAudioLen) size) := by
    change cs.llmPosIdsList ++ split1 (getLlmPosIdsForVision cfg start g tChunk) ++
      next.audioColumns.map (fun c => [c]) = _
    rw [hcolumns, map_map, append_assoc]
    rfl
  refine ⟨hlist, ?_⟩
  rcases Nat.eq_zero_or_pos size with hsize | hsize
  · have hdone : pureAudioLen ≤ next.addedAudioLen := by
      have := hcfg.tNtokenPerChunk_pos
      omega
    refine ⟨?_, fun hlt => absurd hdone (not_le.mpr hlt)⟩
    rw [ChunkInv, hcolumns, hsize]
    exact .inr hdone
  · obtain ⟨k, hk⟩ := Nat.exists_eq_succ_of_ne_zero hsize.ne'
    have hbehind : behindLast next.llmPosIdsList = .ok (start + next.addedAudioLen) := by
      rw [hlist, hk, audioTensors_succ, ← append_assoc, ← append_assoc, behindLast_concat,
        hadded, hk]
      congr 1
      omega
    refine ⟨?_, fun _ => hbehind⟩
    rw [ChunkInv, hcolumns, hk, range_succ, map_append, map_singleton,
      getLast?_concat]
    refine ⟨?_, hbehind⟩
    change k + (start + cs.addedAudioLen) + 1 = _
    omega

lemma foldl_chunkStep (hcfg : cfg.Valid) (g : Grid) (tChunks : List (List ℕ))
    (hcs : ChunkInv start pureAudioLen cs) :
    let res := tChunks.foldl (chunkStep cfg g start pureAudioLen) cs
    res.newSrcItem ++ replicate (pureAudioLen - res.addedAudioLen) cfg.audioTokenId =
      cs.newSrcItem ++ audioVideoTokens cfg g pureAudioLen tChunks cs.addedAudioLen ∧
    res.llmPosIdsList ++ audioTensors (start + res.addedAudioLen)
        (pureAudioLen - res.addedAudioLen) =
      cs.llmPosIdsList ++ audioVideoTensors cfg g start pureAudioLen tChunks cs.addedAudioLen ∧
    (tChunks ≠ [] → res.addedAudioLen < pureAudioLen →
      behindLast res.llmPosIdsList = .ok (start + res.addedAudioLen)) := by
  induction tChunks generalizing cs with
  | nil => exact ⟨rfl, rfl, fun h => absurd rfl h⟩
  | cons tChunk tChunks ih =>
    obtain ⟨hlist, hinv, hbehind⟩ := chunkStep_spec hcfg hcs g tChunk
    obtain ⟨htokens, htensors, hlast⟩ := ih hinv
    refine ⟨htokens.trans ?_, htensors.trans ?_, fun _ hlt => ?_⟩
    · rw [audioVideoTokens, ← append_assoc]
      rfl
    · rw [hlist, audioVideoTensors, append_assoc]
      rfl
    · rcases eq_or_ne tChunks [] with rfl | hne
      · exact hbehind hlt
      · exact hlast hne hlt

/-! ### The columns of a video with its audio -/

lemma flatten_split1 (cols : List Column) : (split1 cols).flatten = cols := by
  rw [split1]
  split_ifs with h
  · rw [h]
    rfl
  · exact flatMap_singleton' cols

lemma flatten_audioTensors (start size : ℕ) :
    (audioTensors start size).flatten =
      (range size).map fun i => Column.diagonal (i + start) := by
  induction size with
  | zero => rfl
  | succ size ih =>
    rw [audioTensors_succ, flatten_append, ih, range_succ, map_append]
    rfl

lemma length_audioVideoTensors (hcfg : cfg.Valid) (hg : g.Valid cfg) (start pureAudioLen : ℕ)
    (tChunks : List (List ℕ)) (added : ℕ) :
    (audioVideoTensors cfg g start pureAudioLen tChunks added).flatten.length =
      (audioVideoTokens cfg g pureAudioLen tChunks added).length := by
  induction tChunks generalizing added with
  | nil => simp [audioVideoTensors, audioVideoTokens, flatten_audioTensors]
  | cons tChunk tChunks ih =>
    simp only [audioVideoTensors, audioVideoTokens, flatten_append, length_append,
      flatten_split1, flatten_audioTensors, length_getLlmPosIdsForVision, chunkTokens,
      length_map, length_range, length_replicate, visionNtoken_eq hcfg hg, ih]

/-- The audio positions. -/
lemma mem_flatten_audioTensors {size : ℕ} :
    c ∈ (audioTensors start size).flatten ↔ ∃ i < size, c = Column.diagonal (start + i) := by
  rw [flatten_audioTensors, mem_map]
  constructor
  · rintro ⟨i, hi, rfl⟩
    exact ⟨i, mem_range.mp hi, by rw [Nat.add_comm]⟩
  · rintro ⟨i, hi, rfl⟩
    exact ⟨i, mem_range.mpr hi, by rw [Nat.add_comm]⟩

/-- The columns are those of the frames and those of the audio that is left. -/
lemma mem_audioVideoTensors {added : ℕ} (hadded : added ≤ pureAudioLen) (tChunks : List (List ℕ)) :
    c ∈ (audioVideoTensors cfg g start pureAudioLen tChunks added).flatten ↔
      (∃ tChunk ∈ tChunks, c ∈ getLlmPosIdsForVision cfg start g tChunk) ∨
        ∃ i, added ≤ i ∧ i < pureAudioLen ∧ c = Column.diagonal (start + i) := by
  induction tChunks generalizing added with
  | nil =>
    rw [audioVideoTensors, mem_flatten_audioTensors]
    constructor
    · rintro ⟨i, hi, rfl⟩
      exact .inr ⟨added + i, by omega, by omega, by rw [Nat.add_assoc]⟩
    · rintro (⟨_, h, _⟩ | ⟨i, hle, hlt, rfl⟩)
      · cases h
      · exact ⟨i - added, by omega, by congr 1; omega⟩
  | cons tChunk tChunks ih =>
    rw [audioVideoTensors]
    have hsize : added + min (tNtokenPerChunk cfg) (pureAudioLen - added) ≤ pureAudioLen := by omega
    rw [flatten_append, flatten_append, flatten_split1, mem_append, mem_append,
      mem_flatten_audioTensors, ih hsize, exists_mem_cons_iff]
    constructor
    · rintro ((hc | ⟨i, hi, rfl⟩) | hc | ⟨i, hle, hlt, rfl⟩)
      · exact .inl (.inl hc)
      · exact .inr ⟨added + i, by omega, by omega, by rw [Nat.add_assoc]⟩
      · exact .inl (.inr hc)
      · exact .inr ⟨i, by omega, hlt, rfl⟩
    · rintro ((hc | hc) | ⟨i, hle, hlt, rfl⟩)
      · exact .inl (.inl hc)
      · exact .inr (.inl hc)
      · rcases lt_or_ge i (added + min (tNtokenPerChunk cfg) (pureAudioLen - added)) with hi | hi
        · exact .inl (.inr ⟨i - added, by omega, by congr 1; omega⟩)
        · exact .inr (.inr ⟨i, hi, hlt, rfl⟩)

lemma maxPosition_audioVideo (hcfg : cfg.Valid) (hg : g.Valid cfg) (hs : 0 ≤ s)
    (start pureAudioLen : ℕ) :
    maxPosition (audioVideoTensors cfg g start pureAudioLen (chunks cfg g s) 0).flatten =
      some (start + max (visionTop cfg g s) (pureAudioLen - 1)) := by
  have hh := hg.llm_h_pos hcfg
  have hw := hg.llm_w_pos hcfg
  rw [maxPosition_eq_some]
  constructor
  · rcases le_or_gt (pureAudioLen - 1) (visionTop cfg g s) with hle | hlt
    · obtain ⟨rest, c, hchunks, hlast⟩ := chunks_eq_concat hg s
      refine ⟨⟨lastTime cfg g s + start, g.h / cfg.spatialMergeSize - 1 + start,
        g.w / cfg.spatialMergeSize - 1 + start⟩, ?_, ?_⟩
      · refine (mem_audioVideoTensors (Nat.zero_le _) _).mpr (.inl ⟨c, by simp [hchunks], ?_⟩)
        exact mem_of_getLast? (getLast_getLlmPosIdsForVision hcfg hg start hlast)
      · simp only [Column.top]
        rw [max_eq_left hle, visionTop]
        omega
    · refine ⟨Column.diagonal (start + (pureAudioLen - 1)), ?_, ?_⟩
      · exact (mem_audioVideoTensors (Nat.zero_le _) _).mpr
          (.inr ⟨pureAudioLen - 1, Nat.zero_le _, by omega, rfl⟩)
      · rw [top_diagonal, max_eq_right hlt.le]
  · intro c hc
    rcases (mem_audioVideoTensors (Nat.zero_le _) _).mp hc with ⟨tChunk, hchunk, hvision⟩ | haudio
    · obtain ⟨t, ht, h, hh', w, hw', rfl⟩ := mem_getLlmPosIdsForVision.mp hvision
      have hle := mem_chunks_le hcfg hs hchunk ht
      simp only [Column.top, visionTop]
      omega
    · obtain ⟨i, _, hlt, rfl⟩ := haudio
      rw [top_diagonal]
      omega

/-- Audio goes on behind audio. -/
lemma audioTensors_append (start m n : ℕ) :
    audioTensors start m ++ audioTensors (start + m) n = audioTensors start (m + n) := by
  simp only [audioTensors, List.range_add, map_append, map_map]
  congr 1
  refine map_congr_left fun i _ => ?_
  rw [Function.comp_apply]
  congr 2
  omega

lemma getLast_audioTensors {size : ℕ} (hsize : 0 < size) :
    (audioTensors start size).getLast? = some [Column.diagonal (start + size - 1)] := by
  obtain ⟨k, rfl⟩ := Nat.exists_eq_succ_of_ne_zero hsize.ne'
  rw [audioTensors_succ, getLast?_concat]
  congr 3
  omega

lemma getLast_split1 (h : cols.getLast? = some c) : (split1 cols).getLast? = some [c] := by
  obtain ⟨rest, rfl⟩ := getLast?_eq_some_iff.mp h
  simp [split1]

/-- The last tensor is one of audio if any is left for the last chunk, else the last column of
that. -/
lemma getLast_audioVideoTensors (hcfg : cfg.Valid) {last : Column} {tChunk : List ℕ}
    (hlast : (getLlmPosIdsForVision cfg start g tChunk).getLast? = some last) (rest : List (List ℕ))
    {added : ℕ} (hadded : added ≤ pureAudioLen) :
    (audioVideoTensors cfg g start pureAudioLen (rest ++ [tChunk]) added).getLast? =
      some [if added + rest.length * tNtokenPerChunk cfg < pureAudioLen then
        Column.diagonal (start + pureAudioLen - 1) else last] := by
  have hpos := hcfg.tNtokenPerChunk_pos
  induction rest generalizing added with
  | nil =>
    simp only [nil_append, audioVideoTensors, length_nil, Nat.zero_mul, Nat.add_zero]
    rw [append_assoc, ← Nat.add_assoc, audioTensors_append, getLast?_append]
    split_ifs with hleft
    · rw [getLast_audioTensors (by omega), Option.some_or]
      congr 3
      omega
    · have hnone : min (tNtokenPerChunk cfg) (pureAudioLen - added) +
          (pureAudioLen - (added + min (tNtokenPerChunk cfg) (pureAudioLen - added))) = 0 := by
        omega
      rw [hnone, getLast_split1 hlast]
      rfl
  | cons d rest ih =>
    have hsize : added + min (tNtokenPerChunk cfg) (pureAudioLen - added) ≤ pureAudioLen := by omega
    rw [cons_append, audioVideoTensors, getLast?_append, ih hsize, Option.some_or,
      length_cons, Nat.succ_mul]
    congr 2
    refine if_congr ?_ rfl rfl
    rcases le_or_gt (tNtokenPerChunk cfg) (pureAudioLen - added) with hle | hlt
    · rw [min_eq_left hle]
      omega
    · rw [min_eq_right hlt.le]
      omega

/-- What follows a video with its audio starts behind the audio, or behind frames that go on after
it. -/
lemma behindLast_audioVideo (hcfg : cfg.Valid) (hg : g.Valid cfg) (s : ℚ)
    (start pureAudioLen : ℕ) :
    behindLast (audioVideoTensors cfg g start pureAudioLen (chunks cfg g s) 0) =
      .ok (start + if fullChunks cfg g s * tNtokenPerChunk cfg < pureAudioLen then pureAudioLen
        else visionTop cfg g s + 1) := by
  obtain ⟨rest, c, hchunks, hlast⟩ := chunks_eq_concat hg s
  have hlength : rest.length = fullChunks cfg g s := by
    have := length_chunks cfg g s
    rw [hchunks, length_append, length_singleton] at this
    omega
  have hcolumn := getLast_getLlmPosIdsForVision hcfg hg start hlast
  rw [behindLast, hchunks, getLast_audioVideoTensors hcfg hcolumn rest (Nat.zero_le _),
    Nat.zero_add, hlength]
  split_ifs with hleft
  · simp only [maxPosition, map_singleton, top_diagonal, max?_singleton]
    congr 1
    omega
  · simp only [maxPosition, map_singleton, max?_singleton, Column.top, visionTop]
    congr 1
    omega

namespace Segment

/-- The audio of a video ends before the last chunk of frames, or goes on behind all their
positions. -/
def Settled (cfg : Config) : Segment → Prop
  | audioVideo g s length =>
    compressedLen length ≤ fullChunks cfg g s * tNtokenPerChunk cfg ∨
      visionTop cfg g s < compressedLen length
  | _ => True

instance (cfg : Config) : DecidablePred (Settled cfg) := fun seg => by
  cases seg <;> (unfold Settled; infer_instance)

end Segment

lemma fullChunks_mul_le (cfg : Config) (g : Grid) (s : ℚ) :
    fullChunks cfg g s * tNtokenPerChunk cfg ≤ visionTop cfg g s :=
  (Nat.div_mul_le_self _ _).trans (le_max_left _ _)

/-- A segment of one tensor. -/
lemma behindLast_singleton (h : cols ≠ []) :
    ∃ top, maxPosition [cols].flatten = some top ∧ behindLast [cols] = .ok (top + 1) := by
  obtain ⟨top, htop⟩ := exists_maxPosition h
  exact ⟨top, by simpa using htop, by simp [behindLast, htop]⟩

lemma getLlmPosIdsForVision_ne_nil (hcfg : cfg.Valid) (hg : g.Valid cfg) (start : ℕ)
    (h : tIndex ≠ []) : getLlmPosIdsForVision cfg start g tIndex ≠ [] := by
  obtain ⟨t, ht⟩ := Option.ne_none_iff_exists'.mp (mt getLast?_eq_none_iff.mp h)
  intro hnil
  have := getLast_getLlmPosIdsForVision hcfg hg start ht
  rw [hnil] at this
  cases this

/-- What follows a segment starts behind its largest position, unless it is a video that its audio
does not end. -/
lemma segment_spec (hcfg : cfg.Valid) {use : Bool} {seg : Segment} (hseg : seg.Valid cfg use)
    (prev : Option ℕ) (start : ℕ) :
    ∃ top next, maxPosition (seg.tensors cfg use prev start).flatten = some top ∧
      behindLast (seg.tensors cfg use prev start) = .ok next ∧
      (next = top + 1 ↔ seg.Settled cfg) := by
  cases seg with
  | text tok =>
    obtain ⟨top, htop, hnext⟩ := behindLast_singleton (cons_ne_nil _ _)
    exact ⟨top, _, htop, hnext, iff_of_true rfl trivial⟩
  | audio cnt length =>
    have hne : (range cnt).map (fun i => Column.diagonal (i + start)) ≠ [] := by
      have hpos : 0 < cnt := hseg
      simpa using hpos.ne'
    obtain ⟨top, htop, hnext⟩ := behindLast_singleton hne
    exact ⟨top, _, htop, hnext, iff_of_true rfl trivial⟩
  | image g =>
    have hne : imageTimes cfg g ≠ [] := by
      have hpos : 0 < g.t := Grid.Valid.t_pos hseg
      simpa [imageTimes] using hpos.ne'
    obtain ⟨top, htop, hnext⟩ :=
      behindLast_singleton (getLlmPosIdsForVision_ne_nil hcfg hseg start hne)
    exact ⟨top, _, htop, hnext, iff_of_true rfl trivial⟩
  | video g s =>
    have hne : videoTimes cfg g s ≠ [] := by simp [videoTimes_eq hseg.1]
    obtain ⟨top, htop, hnext⟩ :=
      behindLast_singleton (getLlmPosIdsForVision_ne_nil hcfg hseg.1 start hne)
    exact ⟨top, _, htop, hnext, iff_of_true rfl trivial⟩
  | audioVideo g s length =>
    obtain ⟨hg, hs, -⟩ := hseg
    refine ⟨_, _, maxPosition_audioVideo hcfg hg hs start _,
      behindLast_audioVideo hcfg hg s start _, ?_⟩
    have hfull := fullChunks_mul_le cfg g s
    simp only [Segment.Settled]
    split_ifs with hleft <;> omega

lemma length_tensors (hcfg : cfg.Valid) {use : Bool} {seg : Segment} (hseg : seg.Valid cfg use)
    (prev : Option ℕ) (start : ℕ) :
    (seg.tensors cfg use prev start).flatten.length = (seg.tokens cfg).length := by
  cases seg with
  | text tok => rfl
  | audio cnt length => simp [Segment.tensors, Segment.tokens]
  | image g =>
    have hg : g.Valid cfg := hseg
    simp [Segment.tensors, Segment.tokens, length_getLlmPosIdsForVision, visionNtoken_eq hcfg hg,
      imageTimes]
  | video g s =>
    simp [Segment.tensors, Segment.tokens, length_getLlmPosIdsForVision,
      visionNtoken_eq hcfg hseg.1, videoTimes]
  | audioVideo g s length => exact length_audioVideoTensors hcfg hseg.1 _ _ _ _

end Lemmas

end Mrope

end OmniStreaming
