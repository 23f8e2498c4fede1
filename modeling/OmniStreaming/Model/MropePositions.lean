import OmniStreaming.Model.Mrope

/-!
# The positions of a prompt

A prompt is a sequence of items: text, audio, images and videos. The tokens of an item are those
that the processor puts into the prompt, for a video with its audio those of
`omni_get_updates_use_audio_in_video`. The loop takes the items as segments
(`positionLoop_segments`), and the columns of a prompt are those of its segments. Each token of
text then stands behind the segment before it, unless that is a video with its audio whose last
column does not have its largest position.
-/

namespace OmniStreaming

open List

namespace Mrope

section Loop

variable {cfg : Config} {g : Grid} {s : ℚ}

/-! ## The loop -/

/-- A run of audio tokens. -/
def Segment.IsAudio : Segment → Prop
  | audio _ _ => True
  | _ => False

/-- The first token of a segment. -/
def Segment.firstToken (cfg : Config) : Segment → ℕ
  | text tok => tok
  | audio _ _ => cfg.audioTokenId
  | image _ => cfg.imageTokenId
  | video _ _ | audioVideo _ _ _ => cfg.videoTokenId

lemma head_replicate {n : ℕ} (hn : 0 < n) (a : ℕ) : (replicate n a).head? = some a := by
  obtain ⟨k, rfl⟩ := Nat.exists_eq_succ_of_ne_zero hn.ne'
  rfl

lemma visionNtoken_pos (hcfg : cfg.Valid) (hg : g.Valid cfg) {frames : ℕ} (h : 0 < frames) :
    0 < visionNtoken cfg frames g := by
  rw [visionNtoken_eq hcfg hg]
  exact Nat.mul_pos h (Nat.mul_pos (hg.llm_h_pos hcfg) (hg.llm_w_pos hcfg))

variable {use : Bool} {seg : Segment}

/-- A segment starts with its token. -/
lemma head_tokens (hcfg : cfg.Valid) (hseg : seg.Valid cfg use) :
    (seg.tokens cfg).head? = some (seg.firstToken cfg) := by
  cases seg with
  | text tok => rfl
  | audio cnt length => exact head_replicate hseg _
  | image g => exact head_replicate (visionNtoken_pos hcfg hseg (Grid.Valid.t_pos hseg)) _
  | video g s => exact head_replicate (visionNtoken_pos hcfg hseg.1 hseg.1.t_pos) _
  | audioVideo g s length =>
    obtain ⟨c, rest, hchunks, hc⟩ := chunks_eq_cons hcfg hseg.1 s
    have hvideo := head_replicate
      (visionNtoken_pos hcfg hseg.1 (length_pos_of_ne_nil hc)) cfg.videoTokenId
    simp only [Segment.tokens, hchunks, audioVideoTokens, chunkTokens, head?_append, hvideo,
      Option.some_or]
    rfl

lemma tokens_ne_nil (hcfg : cfg.Valid) (hseg : seg.Valid cfg use) : seg.tokens cfg ≠ [] := by
  intro hnil
  have := head_tokens hcfg hseg
  rw [hnil] at this
  cases this

/-- Only a run of audio tokens starts with an audio token. -/
lemma firstToken_ne_audio (hcfg : cfg.Valid) (hseg : seg.Valid cfg use) (haudio : ¬seg.IsAudio) :
    seg.firstToken cfg ≠ cfg.audioTokenId := by
  cases seg with
  | text tok => exact hseg.1
  | audio cnt length => exact absurd trivial haudio
  | image g => exact hcfg.image_ne_audio
  | video g s => exact hcfg.video_ne_audio
  | audioVideo g s length => exact hcfg.video_ne_audio

/-- The state after a segment. -/
def State.add (cfg : Config) (use : Bool) (prev : Option ℕ) (start : ℕ) (st : State)
    (seg : Segment) : State where
  newSrcItem := st.newSrcItem ++ seg.tokens cfg
  llmPosIdsList := st.llmPosIdsList ++ seg.tensors cfg use prev start
  audioIdx := st.audioIdx + seg.audios.length
  imageIdx := st.imageIdx + seg.images.length
  videoIdx := st.videoIdx + seg.videos.length

/-- The metadata that the loop has not used yet are those of the segments that are left. -/
structure Agrees (md : Metadata) (segs : List Segment) (st : State) : Prop where
  images : md.imageGridThw.drop st.imageIdx = segs.flatMap Segment.images
  videos : md.videoGridThw.drop st.videoIdx = (segs.flatMap Segment.videos).map Prod.fst
  seconds : (secondPerGrid md).drop st.videoIdx = (segs.flatMap Segment.videos).map Prod.snd
  audios : (md.audioFeatureLengths = none ∧ md.useAudioInVideo = false) ∨
    ∃ lengths, md.audioFeatureLengths = some lengths ∧
      lengths.drop st.audioIdx = segs.flatMap Segment.audios

lemma getElem_of_drop {α : Type*} {xs ys : List α} {i : ℕ} {a : α} (h : xs.drop i = a :: ys) :
    xs[i]? = some a := by
  rw [← head?_drop, h, head?_cons]

lemma drop_of_drop {α : Type*} {xs ys zs : List α} {i : ℕ} (h : xs.drop i = ys ++ zs) :
    xs.drop (i + ys.length) = zs := by
  rw [← drop_drop, h, drop_left]

lemma Agrees.add {md : Metadata} {segs : List Segment} {st : State} (h : Agrees md (seg :: segs) st)
    (cfg : Config) (use : Bool) (prev : Option ℕ) (start : ℕ) :
    Agrees md segs (st.add cfg use prev start seg) where
  images := drop_of_drop h.images
  videos := by
    have hvideos := h.videos
    rw [flatMap_cons, map_append] at hvideos
    simpa [State.add] using drop_of_drop hvideos
  seconds := by
    have hseconds := h.seconds
    rw [flatMap_cons, map_append] at hseconds
    simpa [State.add] using drop_of_drop hseconds
  audios := by
    rcases h.audios with hnone | ⟨lengths, hlengths, haudios⟩
    · exact .inl hnone
    · exact .inr ⟨lengths, hlengths, drop_of_drop haudios⟩

lemma takeWhile_audio {cnt : ℕ} {rest : List ℕ} (hrest : rest.head? ≠ some cfg.audioTokenId) :
    (replicate cnt cfg.audioTokenId ++ rest).takeWhile (fun tok => tok == cfg.audioTokenId) =
      replicate cnt cfg.audioTokenId := by
  rw [takeWhile_append_of_pos (by simp)]
  cases rest with
  | nil => exact append_nil _
  | cons a rest =>
    have hne : a ≠ cfg.audioTokenId := fun h => hrest (congrArg some h)
    simp [hne]

/-- The positions of a run of audio tokens go on without a gap. -/
lemma range_split {valid cnt : ℕ} (hle : valid ≤ cnt) (start : ℕ) :
    (range valid).map (fun i => Column.diagonal (i + start)) ++
      (range (cnt - valid)).map (fun i => Column.diagonal (i + start + valid)) =
      (range cnt).map fun i => Column.diagonal (i + start) := by
  obtain ⟨n, rfl⟩ := Nat.exists_eq_add_of_le hle
  rw [Nat.add_sub_cancel_left, List.range_add, map_append, map_map]
  congr 1
  refine map_congr_left fun i _ => ?_
  rw [Function.comp_apply]
  congr 1
  omega

section Pass

variable {md : Metadata} {src : List ℕ} {idx start : ℕ} {st : State}

/-- A pass over a text token. -/
lemma pass_text {tok : ℕ} (hstart : startIdx st.llmPosIdsList = .ok start)
    (htok : tok ≠ cfg.audioTokenId ∧ tok ≠ cfg.videoTokenId ∧ tok ≠ cfg.imageTokenId) :
    pass cfg md src idx tok st = .ok (textStep cfg md src idx tok start st) := by
  simp only [pass, hstart, bind, Except.bind, if_pos htok]

/-- A pass over a run of audio tokens. -/
lemma pass_audio (hstart : startIdx st.llmPosIdsList = .ok start) :
    pass cfg md src idx cfg.audioTokenId st = .ok (audioStep cfg md src idx start st) := by
  simp [pass, hstart, bind, Except.bind]

/-- A pass over an image. -/
lemma pass_image (hcfg : cfg.Valid) (hstart : startIdx st.llmPosIdsList = .ok start) :
    pass cfg md src idx cfg.imageTokenId st = imageStep cfg md start st := by
  simp [pass, hstart, bind, Except.bind, hcfg.image_ne_audio]

/-- A pass over a video. -/
lemma pass_video (hcfg : cfg.Valid) (hstart : startIdx st.llmPosIdsList = .ok start) :
    pass cfg md src idx cfg.videoTokenId st =
      if md.useAudioInVideo = false then videoStep cfg md start st
      else audioInVideoStep cfg md start st := by
  simp [pass, hstart, bind, Except.bind, hcfg.video_ne_audio, hcfg.video_ne_image]

/-- A video with its audio. -/
lemma audioInVideoStep_ok (hcfg : cfg.Valid) (hg : g.Valid cfg) (hs : 0 ≤ s) {lengths : List ℕ}
    {length : ℕ} (hlengths : md.audioFeatureLengths = some lengths)
    (hlength : lengths[st.audioIdx]? = some length)
    (hgrid : md.videoGridThw[st.videoIdx]? = some g)
    (hsecond : (secondPerGrid md)[st.videoIdx]? = some s) (use : Bool) (prev : Option ℕ) :
    audioInVideoStep cfg md start st =
      .ok (st.add cfg use prev start (.audioVideo g s length)) := by
  have hinv : ChunkInv start (compressedLen length)
      ⟨st.newSrcItem, st.llmPosIdsList, [], 0⟩ := .inl rfl
  obtain ⟨htokens, htensors, hbehind⟩ := foldl_chunkStep hcfg g (chunks cfg g s) hinv
  obtain ⟨c, cs, hchunks, -⟩ := chunks_eq_cons hcfg hg s
  have hne : chunks cfg g s ≠ [] := hchunks ▸ cons_ne_nil c cs
  have hadd : st.add cfg use prev start (.audioVideo g s length) =
      ⟨st.newSrcItem ++ audioVideoTokens cfg g (compressedLen length) (chunks cfg g s) 0,
        st.llmPosIdsList ++
          audioVideoTensors cfg g start (compressedLen length) (chunks cfg g s) 0,
        st.audioIdx + 1, st.imageIdx, st.videoIdx + 1⟩ := rfl
  rw [hadd, ← htokens, ← htensors]
  simp only [audioInVideoStep, hlengths, hlength, hgrid, hsecond,
    splitListIntoRanges_videoTimes hcfg hg hs, bind, Except.bind]
  split_ifs with hleft
  · rw [hbehind hne hleft]
    rfl
  · rw [Nat.sub_eq_zero_of_le (not_lt.mp hleft), replicate_zero, append_nil]
    change _ = Except.ok (State.mk _ (_ ++ []) _ _ _)
    rw [append_nil]

/-- One pass takes one segment. -/
lemma pass_segment (hcfg : cfg.Valid) {seg : Segment} (hseg : seg.Valid cfg md.useAudioInVideo)
    {segs : List Segment} {rest : List ℕ} (hdrop : src.drop idx = seg.tokens cfg ++ rest)
    (hrest : seg.IsAudio → rest.head? ≠ some cfg.audioTokenId)
    (hstart : startIdx st.llmPosIdsList = .ok start) (hagrees : Agrees md (seg :: segs) st) :
    pass cfg md src idx (seg.firstToken cfg) st =
      .ok (st.add cfg md.useAudioInVideo (tokenBefore src idx) start seg) := by
  cases seg with
  | text tok => exact pass_text hstart hseg
  | audio cnt length =>
    refine (pass_audio hstart).trans ?_
    simp only [audioStep, hdrop, Segment.tokens, takeWhile_audio (hrest trivial),
      length_replicate]
    rw [range_split (Nat.min_le_left _ _)]
    rfl
  | image g =>
    have hgrid : md.imageGridThw[st.imageIdx]? = some g := getElem_of_drop hagrees.images
    refine (pass_image hcfg hstart).trans ?_
    rw [imageStep, hgrid]
    rfl
  | video g s =>
    have hgrid : md.videoGridThw[st.videoIdx]? = some g := getElem_of_drop hagrees.videos
    have hsecond : (secondPerGrid md)[st.videoIdx]? = some s := getElem_of_drop hagrees.seconds
    refine (pass_video hcfg hstart).trans ?_
    rw [if_pos hseg.2.2, videoStep, hgrid, hsecond]
    rfl
  | audioVideo g s length =>
    obtain ⟨hg, hs, huse⟩ := hseg
    have hgrid : md.videoGridThw[st.videoIdx]? = some g := getElem_of_drop hagrees.videos
    have hsecond : (secondPerGrid md)[st.videoIdx]? = some s := getElem_of_drop hagrees.seconds
    refine (pass_video hcfg hstart).trans ?_
    rw [if_neg (show ¬md.useAudioInVideo = false by simp [huse])]
    rcases hagrees.audios with ⟨_, hfalse⟩ | ⟨lengths, hlengths, hdrop⟩
    · exact absurd (huse.symm.trans hfalse) Bool.noConfusion
    · exact audioInVideoStep_ok hcfg hg hs hlengths (getElem_of_drop hdrop) hgrid hsecond _ _

end Pass

/-- Where the segment behind a segment starts. -/
def Segment.next (cfg : Config) (use : Bool) (prev : Option ℕ) (start : ℕ) (seg : Segment) : ℕ :=
  match behindLast (seg.tensors cfg use prev start) with
  | .ok next => next
  | .error _ => 0

/-- The tensors of segments, the first of which stands behind a token and starts at a position. -/
def runTensors (cfg : Config) (use : Bool) : List Segment → Option ℕ → ℕ → List (List Column)
  | [], _, _ => []
  | seg :: segs, prev, start => seg.tensors cfg use prev start ++
      runTensors cfg use segs (seg.tokens cfg).getLast? (seg.next cfg use prev start)

/-- The tokens of segments. -/
def segmentTokens (cfg : Config) (segs : List Segment) : List ℕ := segs.flatMap (Segment.tokens cfg)

/-- What follows a segment. -/
lemma behindLast_tensors (hcfg : cfg.Valid) (hseg : seg.Valid cfg use) (prev : Option ℕ)
    (start : ℕ) :
    behindLast (seg.tensors cfg use prev start) = .ok (seg.next cfg use prev start) := by
  obtain ⟨_, next, _, hnext, _⟩ := segment_spec hcfg hseg prev start
  rw [Segment.next, hnext]

lemma startIdx_append (hcfg : cfg.Valid) (hseg : seg.Valid cfg use) (prev : Option ℕ) (start : ℕ)
    (tensors : List (List Column)) :
    startIdx (tensors ++ seg.tensors cfg use prev start) = .ok (seg.next cfg use prev start) := by
  have hbehind := behindLast_tensors hcfg hseg prev start
  have hne : seg.tensors cfg use prev start ≠ [] := by
    intro hnil
    rw [hnil] at hbehind
    cases hbehind
  have hlast : (tensors ++ seg.tensors cfg use prev start).getLast? =
      (seg.tensors cfg use prev start).getLast? := by
    rw [getLast?_append, Option.or_of_isSome]
    simpa using hne
  rw [startIdx, if_neg (by simp [hne]), behindLast, hlast]
  exact hbehind

/-- The token before the next segment. -/
lemma tokenBefore_add {src ys rest : List ℕ} {idx : ℕ} (hdrop : src.drop idx = ys ++ rest)
    (hne : ys ≠ []) : tokenBefore src (idx + ys.length) = ys.getLast? := by
  have hpos := length_pos_of_ne_nil hne
  have hget : src[idx + (ys.length - 1)]? = ys[ys.length - 1]? := by
    rw [← getElem?_drop, hdrop, getElem?_append_left (by omega)]
  rw [tokenBefore, if_neg (by omega), getLast?_eq_getElem?, ← hget]
  congr 1
  omega

lemma positionLoop_segments (hcfg : cfg.Valid) {md : Metadata} {src : List ℕ}
    (segs : List Segment) (hvalid : ∀ seg ∈ segs, seg.Valid cfg md.useAudioInVideo)
    (hruns : segs.IsChain fun seg seg' => ¬(seg.IsAudio ∧ seg'.IsAudio)) {idx start : ℕ}
    {st : State} (hdrop : src.drop idx = segmentTokens cfg segs)
    (hstart : startIdx st.llmPosIdsList = .ok start) (hagrees : Agrees md segs st) :
    positionLoop cfg md src idx st = .ok
      ⟨st.newSrcItem ++ segmentTokens cfg segs,
        st.llmPosIdsList ++ runTensors cfg md.useAudioInVideo segs (tokenBefore src idx) start,
        st.audioIdx + (segs.flatMap Segment.audios).length,
        st.imageIdx + (segs.flatMap Segment.images).length,
        st.videoIdx + (segs.flatMap Segment.videos).length⟩ := by
  induction segs generalizing idx start st with
  | nil =>
    have hlen : ¬idx < src.length := not_lt.mpr (drop_eq_nil_iff.mp hdrop)
    rw [positionLoop, dif_neg hlen]
    simp [segmentTokens, runTensors]
  | cons seg segs ih =>
    have hseg := hvalid seg mem_cons_self
    have hne := tokens_ne_nil hcfg hseg
    rw [segmentTokens, flatMap_cons] at hdrop
    have hrest : seg.IsAudio → (segmentTokens cfg segs).head? ≠ some cfg.audioTokenId := by
      intro haudio
      cases segs with
      | nil => simp [segmentTokens]
      | cons seg' segs =>
        have hnext : ¬seg'.IsAudio := fun h => (isChain_cons_cons.mp hruns).1 ⟨haudio, h⟩
        have hseg' := hvalid seg' (by simp)
        rw [segmentTokens, flatMap_cons, head?_append, head_tokens hcfg hseg',
          Option.some_or]
        exact fun h => firstToken_ne_audio hcfg hseg' hnext (Option.some.inj h)
    have hpass := pass_segment hcfg hseg hdrop hrest hstart hagrees
    have hget : src[idx]? = some (seg.firstToken cfg) := by
      rw [← head?_drop, hdrop, head?_append, head_tokens hcfg hseg, Option.some_or]
    obtain ⟨hlt, hsrc⟩ := List.getElem?_eq_some_iff.mp hget
    have hadvance : advance st (st.add cfg md.useAudioInVideo (tokenBefore src idx) start seg) =
        (seg.tokens cfg).length := by
      have hpos := length_pos_of_ne_nil hne
      simp only [advance, State.add, length_append]
      split_ifs <;> omega
    have hloop := ih (fun s hs => hvalid s (mem_cons_of_mem seg hs)) hruns.tail
      (drop_of_drop hdrop)
      (startIdx_append hcfg hseg (tokenBefore src idx) start st.llmPosIdsList)
      (hagrees.add cfg md.useAudioInVideo (tokenBefore src idx) start)
    rw [positionLoop, dif_pos hlt, hsrc, hpass]
    simp only [hadvance, hloop, tokenBefore_add hdrop hne]
    simp only [State.add, segmentTokens, runTensors, flatMap_cons, append_assoc,
      length_append, Nat.add_assoc]

end Loop

/-! ## Prompts -/

/-- A part of a prompt. -/
inductive Item
  | text (tok : ℕ)
  /-- A run of audio tokens, with the feature length. -/
  | audio (cnt length : ℕ)
  | image (g : Grid)
  /-- A video, with the seconds per frame and the feature length of its audio. -/
  | video (g : Grid) (s : ℚ) (length : ℕ)

namespace Item

/-- The tokens of an item in the prompt. -/
def tokens (cfg : Config) (use : Bool) : Item → Except MropeError (List ℕ)
  | text tok => .ok [tok]
  | audio cnt _ => .ok (replicate cnt cfg.audioTokenId)
  | image g => .ok (replicate (visionNtoken cfg g.t g) cfg.imageTokenId)
  | video g s length =>
    if use then omniGetUpdatesUseAudioInVideo cfg (compressedLen length) g s
    else .ok (replicate (visionNtoken cfg g.t g) cfg.videoTokenId)

/-- The segments of an item. -/
def segments (cfg : Config) (use : Bool) : Item → List Segment
  | text tok => [.text tok]
  | audio cnt length => [.audio cnt length]
  | image g => [.image g]
  | video g s length =>
    if use then [.text cfg.audioStartTokenId, .audioVideo g s length, .text cfg.audioEndTokenId]
    else [.video g s]

/-- An item that can occur in a prompt. -/
def Valid (cfg : Config) : Item → Prop
  | text tok => tok ≠ cfg.audioTokenId ∧ tok ≠ cfg.videoTokenId ∧ tok ≠ cfg.imageTokenId
  | audio cnt _ => 0 < cnt
  | image g => g.Valid cfg
  | video g s _ => g.Valid cfg ∧ 0 ≤ s

/-- The last column of an item has its largest position. -/
def Settled (cfg : Config) (use : Bool) : Item → Prop
  | video g s length => use = true → (Segment.audioVideo g s length).Settled cfg
  | _ => True

instance (cfg : Config) : DecidablePred (Valid cfg) := fun item => by
  cases item <;> (unfold Valid; infer_instance)

instance (cfg : Config) (use : Bool) : DecidablePred (Settled cfg use) := fun item => by
  cases item <;> (unfold Settled; infer_instance)

/-- Text or audio; with `use_audio_in_video` the text has no marks of vision. -/
def Plain (cfg : Config) (use : Bool) : Item → Prop
  | text tok => use = true → tok ≠ cfg.visionStartTokenId ∧ tok ≠ cfg.visionEndTokenId
  | audio _ _ => True
  | _ => False

end Item

/-- The tokens of a prompt. -/
def promptTokens (cfg : Config) (use : Bool) (items : List Item) : Except MropeError (List ℕ) :=
  (items.mapM (Item.tokens cfg use)).map flatten

/-- The segments of a prompt. -/
def promptSegments (cfg : Config) (use : Bool) (items : List Item) : List Segment :=
  items.flatMap (Item.segments cfg use)

/-- The metadata are those of the items, and two runs of audio tokens do not touch. Without
`use_audio_in_video` the lengths of the audio may be missing. -/
structure Consistent (cfg : Config) (md : Metadata) (items : List Item) : Prop where
  valid : ∀ item ∈ items, item.Valid cfg
  runs : (promptSegments cfg md.useAudioInVideo items).IsChain
    fun seg seg' => ¬(seg.IsAudio ∧ seg'.IsAudio)
  images : md.imageGridThw = (promptSegments cfg md.useAudioInVideo items).flatMap Segment.images
  videos : md.videoGridThw =
    ((promptSegments cfg md.useAudioInVideo items).flatMap Segment.videos).map Prod.fst
  seconds : secondPerGrid md =
    ((promptSegments cfg md.useAudioInVideo items).flatMap Segment.videos).map Prod.snd
  audios : (md.audioFeatureLengths = none ∧ md.useAudioInVideo = false) ∨
    md.audioFeatureLengths =
      some ((promptSegments cfg md.useAudioInVideo items).flatMap Segment.audios)

/-- A text token has the position behind the largest of the segment before, up to the adjustment. -/
structure TextRight (cfg : Config) (use : Bool) (segs : List Segment) (positions : List Column) :
    Prop where
  first : ∀ tok rest, segs = .text tok :: rest → positions[0]? = some (Column.diagonal 0)
  behind : ∀ before seg tok rest, segs = before ++ seg :: .text tok :: rest →
    ∃ top, maxPosition ((positions.drop (segmentTokens cfg before).length).take
        (seg.tokens cfg).length) = some top ∧
      positions[(segmentTokens cfg (before ++ [seg])).length]? =
        some (Column.diagonal (top + 1 - adjustment cfg use (seg.tokens cfg).getLast? tok))

/-- One column for each token, each item taken once, the positions of text behind those of the
segment before, and no gap in a prompt of text and audio. -/
structure PositionsRight (cfg : Config) (md : Metadata) (items : List Item) (src : List ℕ)
    (res : Positions) : Prop where
  length : res.llmPositions.length = src.length
  audios : res.audioIdx =
    ((promptSegments cfg md.useAudioInVideo items).flatMap Segment.audios).length
  images : res.imageIdx = md.imageGridThw.length
  videos : res.videoIdx = md.videoGridThw.length
  text : TextRight cfg md.useAudioInVideo (promptSegments cfg md.useAudioInVideo items)
    res.llmPositions
  plain : (∀ item ∈ items, item.Plain cfg md.useAudioInVideo) →
    res.llmPositions = (range src.length).map Column.diagonal ∧ res.mropePositionDelta = 0

section Prompt

variable {cfg : Config} {md : Metadata} {items : List Item} {use : Bool}

section

variable (hcfg : cfg.Valid)
include hcfg

/-- Valid items have valid segments. -/
lemma segments_valid {item : Item} (hitem : item.Valid cfg) {seg : Segment}
    (hseg : seg ∈ item.segments cfg use) : seg.Valid cfg use := by
  cases item with
  | text tok => obtain rfl := mem_singleton.mp hseg; exact hitem
  | audio cnt length => obtain rfl := mem_singleton.mp hseg; exact hitem
  | image g => obtain rfl := mem_singleton.mp hseg; exact hitem
  | video g s length =>
    cases use
    · obtain rfl := mem_singleton.mp hseg
      exact ⟨hitem.1, hitem.2, rfl⟩
    · simp only [Item.segments, if_true, mem_cons, not_mem_nil, or_false] at hseg
      rcases hseg with rfl | rfl | rfl
      · exact hcfg.marks_text _ (by simp)
      · exact ⟨hitem.1, hitem.2, rfl⟩
      · exact hcfg.marks_text _ (by simp)

lemma promptSegments_valid (hitems : ∀ item ∈ items, item.Valid cfg) :
    ∀ seg ∈ promptSegments cfg use items, seg.Valid cfg use := by
  intro seg hseg
  obtain ⟨item, hitem, hmem⟩ := mem_flatMap.mp hseg
  exact segments_valid hcfg (hitems item hitem) hmem

lemma tokens_item {item : Item} (hitem : item.Valid cfg) :
    item.tokens cfg use = .ok (segmentTokens cfg (item.segments cfg use)) := by
  cases item with
  | text tok => rfl
  | audio cnt length => simp [Item.tokens, Item.segments, segmentTokens, Segment.tokens]
  | image g => simp [Item.tokens, Item.segments, segmentTokens, Segment.tokens]
  | video g s length =>
    cases use
    · simp [Item.tokens, Item.segments, segmentTokens, Segment.tokens]
    · simp [Item.tokens, Item.segments, segmentTokens, Segment.tokens,
        omniGetUpdatesUseAudioInVideo_ok hcfg hitem.1 hitem.2]

lemma promptTokens_ok (hitems : ∀ item ∈ items, item.Valid cfg) :
    promptTokens cfg use items = .ok (segmentTokens cfg (promptSegments cfg use items)) := by
  have hmap : items.mapM (Item.tokens cfg use) =
      .ok (items.map fun item => segmentTokens cfg (item.segments cfg use)) := by
    induction items with
    | nil => rfl
    | cons item items ih =>
      rw [mapM_cons, tokens_item hcfg (hitems item mem_cons_self),
        ih fun item' h => hitems item' (mem_cons_of_mem item h)]
      rfl
  rw [promptTokens, hmap]
  simp only [Except.map, segmentTokens, promptSegments, flatMap_assoc]
  rfl

/-! ### The columns of the segments -/

lemma length_runTensors (segs : List Segment) (hvalid : ∀ seg ∈ segs, seg.Valid cfg use)
    (prev : Option ℕ) (start : ℕ) :
    (runTensors cfg use segs prev start).flatten.length = (segmentTokens cfg segs).length := by
  induction segs generalizing prev start with
  | nil => rfl
  | cons seg segs ih =>
    rw [runTensors, flatten_append, length_append, segmentTokens, flatMap_cons,
      length_append, length_tensors hcfg (hvalid seg mem_cons_self),
      ih fun s hs => hvalid s (mem_cons_of_mem seg hs)]
    rfl

omit hcfg in
/-- The segments behind others stand behind some token and start at some position. -/
lemma runTensors_append (cfg : Config) (use : Bool) (before : List Segment) (prev : Option ℕ)
    (start : ℕ) :
    ∃ prev' start', ∀ segs, runTensors cfg use (before ++ segs) prev start =
      runTensors cfg use before prev start ++ runTensors cfg use segs prev' start' := by
  induction before generalizing prev start with
  | nil => exact ⟨prev, start, fun segs => rfl⟩
  | cons seg before ih =>
    obtain ⟨prev', start', h⟩ := ih (seg.tokens cfg).getLast? (seg.next cfg use prev start)
    refine ⟨prev', start', fun segs => ?_⟩
    rw [cons_append, runTensors, runTensors, h, append_assoc]

/-- The columns of a segment and of the token of text behind it. -/
lemma columns_behind {before rest : List Segment} {seg : Segment} {tok : ℕ}
    (hvalid : ∀ s ∈ before ++ seg :: .text tok :: rest, s.Valid cfg use) :
    ∃ prev start, let positions :=
        (runTensors cfg use (before ++ seg :: .text tok :: rest) none 0).flatten
      (positions.drop (segmentTokens cfg before).length).take (seg.tokens cfg).length =
        (seg.tensors cfg use prev start).flatten ∧
      positions[(segmentTokens cfg (before ++ [seg])).length]? = some (Column.diagonal
        (seg.next cfg use prev start - adjustment cfg use (seg.tokens cfg).getLast? tok)) := by
  obtain ⟨prev, start, happend⟩ := runTensors_append cfg use before none 0
  have hbefore := length_runTensors hcfg before
    (fun s hs => hvalid s (mem_append_left _ hs)) none 0
  have hseg := length_tensors hcfg (hvalid seg (by simp)) prev start
  refine ⟨prev, start, ?_⟩
  rw [happend, runTensors, runTensors]
  simp only [flatten_append]
  constructor
  · rw [← hbefore, drop_left, ← hseg, take_left]
  · have hlength : (segmentTokens cfg (before ++ [seg])).length =
        (runTensors cfg use before none 0).flatten.length +
          ((seg.tensors cfg use prev start).flatten.length + 0) := by
      rw [hbefore, hseg, segmentTokens, flatMap_append, length_append]
      simp [segmentTokens]
    rw [hlength, getElem?_append_right (by omega), Nat.add_sub_cancel_left,
      getElem?_append_right (by omega), Nat.add_sub_cancel_left]
    rfl

end

lemma behindLast_pos {tensors : List (List Column)} {next : ℕ} (h : behindLast tensors = .ok next) :
    0 < next := by
  rw [behindLast] at h
  split at h
  · cases h
  · split at h
    · cases h
    · cases h
      exact Nat.succ_pos _

lemma adjustment_le (cfg : Config) (use : Bool) (prev : Option ℕ) (tok : ℕ) :
    adjustment cfg use prev tok ≤ 1 := by
  rw [adjustment]
  split_ifs <;> omega

/-- The positions of text are right iff the segments before text end with their largest position. -/
lemma textRight_iff (hcfg : cfg.Valid) {segs : List Segment}
    (hvalid : ∀ seg ∈ segs, seg.Valid cfg use) :
    TextRight cfg use segs (runTensors cfg use segs none 0).flatten ↔
      ∀ before seg tok rest, segs = before ++ seg :: .text tok :: rest → seg.Settled cfg := by
  constructor
  · rintro hright before seg tok rest rfl
    obtain ⟨prev, start, hcolumns, htext⟩ := columns_behind hcfg hvalid
    obtain ⟨top, htop, hposition⟩ := hright.behind before seg tok rest rfl
    obtain ⟨top', next, htop', hnext, hsettled⟩ :=
      segment_spec hcfg (hvalid seg (by simp)) prev start
    rw [hcolumns, htop'] at htop
    obtain rfl : top' = top := Option.some.inj htop
    rw [htext, Segment.next, hnext] at hposition
    have hle := adjustment_le cfg use (seg.tokens cfg).getLast? tok
    have hpos := behindLast_pos hnext
    have heq : next - adjustment cfg use (seg.tokens cfg).getLast? tok =
        top' + 1 - adjustment cfg use (seg.tokens cfg).getLast? tok :=
      congrArg Column.t (Option.some.inj hposition)
    exact hsettled.mp (by omega)
  · intro hsettled
    refine ⟨?_, ?_⟩
    · rintro tok rest rfl
      simp [runTensors, Segment.tensors]
    · rintro before seg tok rest rfl
      obtain ⟨prev, start, hcolumns, htext⟩ := columns_behind hcfg hvalid
      obtain ⟨top, next, htop, hnext, hiff⟩ := segment_spec hcfg (hvalid seg (by simp)) prev start
      refine ⟨top, by rw [hcolumns, htop], ?_⟩
      rw [htext, Segment.next, hnext, hiff.mpr (hsettled before seg tok rest rfl)]

/-- A video with its audio stands before a token of text. -/
lemma settled_iff :
    (∀ before seg tok rest, promptSegments cfg use items = before ++ seg :: .text tok :: rest →
      seg.Settled cfg) ↔ ∀ item ∈ items, item.Settled cfg use := by
  constructor
  · intro hsettled item hitem
    cases item with
    | text tok => trivial
    | audio cnt length => trivial
    | image g => trivial
    | video g s length =>
      rintro rfl
      obtain ⟨before, rest, rfl⟩ := append_of_mem hitem
      refine hsettled (promptSegments cfg true before ++ [.text cfg.audioStartTokenId])
        (.audioVideo g s length) cfg.audioEndTokenId (promptSegments cfg true rest) ?_
      simp [promptSegments, Item.segments]
  · intro hitems before seg tok rest hsegs
    have hseg : seg ∈ promptSegments cfg use items := by simp [hsegs]
    obtain ⟨item, hitem, hmem⟩ := mem_flatMap.mp hseg
    have hsettled := hitems item hitem
    cases item with
    | text tok => obtain rfl := mem_singleton.mp hmem; trivial
    | audio cnt length => obtain rfl := mem_singleton.mp hmem; trivial
    | image g => obtain rfl := mem_singleton.mp hmem; trivial
    | video g s length =>
      cases use
      · obtain rfl := mem_singleton.mp hmem
        trivial
      · simp only [Item.segments, if_true, mem_cons, not_mem_nil, or_false] at hmem
        rcases hmem with rfl | rfl | rfl
        · trivial
        · exact hsettled rfl
        · trivial

/-! ### Prompts of text and audio -/

variable {prev : Option ℕ}

lemma adjustment_eq_zero {tok : ℕ} (htok : use = true → tok ≠ cfg.visionEndTokenId)
    (hprev : use = true → prev ≠ some cfg.visionStartTokenId) :
    adjustment cfg use prev tok = 0 := by
  cases use
  · rfl
  · simp [adjustment, htok rfl, hprev rfl]

/-- What follows a run of audio tokens. -/
lemma next_audio {cnt : ℕ} (hcnt : 0 < cnt) (prev : Option ℕ) (start length : ℕ) :
    (Segment.audio cnt length).next cfg use prev start = start + cnt := by
  obtain ⟨n, rfl⟩ := Nat.exists_eq_succ_of_ne_zero hcnt.ne'
  have hmax : maxPosition ((range (n + 1)).map fun i => Column.diagonal (i + start)) =
      some (n + start) := by
    rw [maxPosition_eq_some]
    constructor
    · exact ⟨_, mem_map.mpr ⟨n, mem_range.mpr (Nat.lt_succ_self n), rfl⟩, top_diagonal _⟩
    · intro c hc
      obtain ⟨i, hi, rfl⟩ := mem_map.mp hc
      have := mem_range.mp hi
      rw [top_diagonal]
      omega
  simp only [Segment.next, Segment.tensors, behindLast, getLast?_singleton, hmax]
  omega

lemma range_diagonal_add (m n start : ℕ) :
    (range (m + n)).map (fun i => Column.diagonal (i + start)) =
      (range m).map (fun i => Column.diagonal (i + start)) ++
        (range n).map fun i => Column.diagonal (i + (start + m)) := by
  rw [List.range_add, map_append, map_map]
  congr 1
  refine map_congr_left fun i _ => ?_
  rw [Function.comp_apply]
  congr 1
  omega

/-- A segment without a gap before segments without a gap. -/
lemma runTensors_cons_gapless (seg : Segment) {segs : List Segment} {start : ℕ}
    (hcolumns : (seg.tensors cfg use prev start).flatten =
      (range (seg.tokens cfg).length).map fun i => Column.diagonal (i + start))
    (hnext : seg.next cfg use prev start = start + (seg.tokens cfg).length)
    (hrest : (runTensors cfg use segs (seg.tokens cfg).getLast?
        (start + (seg.tokens cfg).length)).flatten =
      (range (segmentTokens cfg segs).length).map fun i =>
        Column.diagonal (i + (start + (seg.tokens cfg).length))) :
    (runTensors cfg use (seg :: segs) prev start).flatten =
      (range (segmentTokens cfg (seg :: segs)).length).map
        fun i => Column.diagonal (i + start) := by
  rw [runTensors, flatten_append, hnext, hrest, hcolumns, ← range_diagonal_add, segmentTokens,
    segmentTokens, flatMap_cons, length_append]

lemma runTensors_plain (hcfg : cfg.Valid) (items : List Item)
    (hvalid : ∀ item ∈ items, item.Valid cfg) (hplain : ∀ item ∈ items, item.Plain cfg use)
    (hprev : use = true → prev ≠ some cfg.visionStartTokenId) (start : ℕ) :
    (runTensors cfg use (promptSegments cfg use items) prev start).flatten =
      (range (segmentTokens cfg (promptSegments cfg use items)).length).map
        fun i => Column.diagonal (i + start) := by
  induction items generalizing prev start with
  | nil => rfl
  | cons item items ih =>
    have hitem := hplain item mem_cons_self
    have hvalidItem := hvalid item mem_cons_self
    have hrest (prev' : Option ℕ) (hprev' : use = true → prev' ≠ some cfg.visionStartTokenId) :=
      ih (fun item' h => hvalid item' (mem_cons_of_mem item h))
        (fun item' h => hplain item' (mem_cons_of_mem item h)) hprev'
    cases item with
    | text tok =>
      have hzero : adjustment cfg use prev tok = 0 :=
        adjustment_eq_zero (fun huse => (hitem huse).2) hprev
      refine runTensors_cons_gapless (.text tok) ?_ ?_
        (hrest _ (fun huse h => (hitem huse).1 (Option.some.inj h)) _)
      · simp [Segment.tensors, Segment.tokens, hzero]
      · simp [Segment.next, Segment.tensors, Segment.tokens, behindLast, maxPosition, hzero]
    | audio cnt length =>
      have hlast : ((Segment.audio cnt length).tokens cfg).getLast? ≠
          some cfg.visionStartTokenId := by
        intro h
        have hmark := eq_of_mem_replicate (mem_of_getLast? h)
        exact (hcfg.marks_text cfg.visionStartTokenId (by simp)).1 hmark
      refine runTensors_cons_gapless (.audio cnt length) ?_ ?_ (hrest _ (fun _ => hlast) _)
      · simp [Segment.tensors, Segment.tokens]
      · simp [next_audio hvalidItem, Segment.tokens]
    | image g => exact absurd hitem id
    | video g s length => exact absurd hitem id

/-- The loop over a prompt. -/
lemma positionLoop_prompt (hcfg : cfg.Valid) (hitems : Consistent cfg md items) :
    positionLoop cfg md (segmentTokens cfg (promptSegments cfg md.useAudioInVideo items)) 0 {} =
      .ok ⟨segmentTokens cfg (promptSegments cfg md.useAudioInVideo items),
        runTensors cfg md.useAudioInVideo (promptSegments cfg md.useAudioInVideo items) none 0,
        ((promptSegments cfg md.useAudioInVideo items).flatMap Segment.audios).length,
        md.imageGridThw.length, md.videoGridThw.length⟩ := by
  have hagrees : Agrees md (promptSegments cfg md.useAudioInVideo items) {} := by
    refine ⟨hitems.images, hitems.videos, hitems.seconds, ?_⟩
    rcases hitems.audios with hnone | hsome
    · exact .inl hnone
    · exact .inr ⟨_, hsome, rfl⟩
  refine (positionLoop_segments hcfg _ (promptSegments_valid hcfg hitems.valid) hitems.runs
    drop_zero rfl hagrees).trans ?_
  rw [hitems.images, hitems.videos, length_map]
  simp [tokenBefore]

/-- A prompt with items has tokens. -/
lemma segmentTokens_ne_nil (hcfg : cfg.Valid) (hvalid : ∀ item ∈ items, item.Valid cfg)
    (hne : items ≠ []) : segmentTokens cfg (promptSegments cfg use items) ≠ [] := by
  obtain ⟨item, items, rfl⟩ := exists_cons_of_ne_nil hne
  have hsegs : item.segments cfg use ≠ [] := by
    cases item with
    | text tok => exact cons_ne_nil _ _
    | audio cnt length => exact cons_ne_nil _ _
    | image g => exact cons_ne_nil _ _
    | video g s length => cases use <;> exact cons_ne_nil _ _
  obtain ⟨seg, hseg⟩ := exists_mem_of_ne_nil _ hsegs
  have hmem : seg ∈ promptSegments cfg use (item :: items) :=
    mem_flatMap.mpr ⟨item, mem_cons_self, hseg⟩
  obtain ⟨tok, htok⟩ := exists_mem_of_ne_nil _
    (tokens_ne_nil hcfg (promptSegments_valid hcfg hvalid seg hmem))
  exact ne_nil_of_mem (mem_flatMap.mpr ⟨seg, hmem, htok⟩)

/-- In a prompt of text and audio the last position is the number of tokens before it. -/
lemma maxPosition_range {n top : ℕ}
    (htop : maxPosition ((range n).map Column.diagonal) = some top) : top + 1 = n := by
  obtain ⟨⟨c, hc, hctop⟩, hle⟩ := maxPosition_eq_some.mp htop
  obtain ⟨i, hi, rfl⟩ := mem_map.mp hc
  have hlt := mem_range.mp hi
  rw [top_diagonal] at hctop
  have hlast := hle (Column.diagonal (n - 1))
    (mem_map.mpr ⟨n - 1, mem_range.mpr (by omega), rfl⟩)
  rw [top_diagonal] at hlast
  omega

/-- The positions cover a prompt iff it is not empty and its videos with audio end with their
largest position. -/
theorem positions_right_iff (hcfg : cfg.Valid) (hitems : Consistent cfg md items) {src : List ℕ}
    (hsrc : promptTokens cfg md.useAudioInVideo items = .ok src) :
    (∃ res, omniGetInputPositionsTensor cfg md src = .ok res ∧
      PositionsRight cfg md items src res) ↔
      items ≠ [] ∧ ∀ item ∈ items, item.Settled cfg md.useAudioInVideo := by
  have hvalid : ∀ seg ∈ promptSegments cfg md.useAudioInVideo items,
      seg.Valid cfg md.useAudioInVideo := promptSegments_valid hcfg hitems.valid
  obtain rfl : src = segmentTokens cfg (promptSegments cfg md.useAudioInVideo items) :=
    Except.ok.inj (hsrc.symm.trans (promptTokens_ok hcfg hitems.valid))
  have hlength := length_runTensors hcfg _ hvalid none 0
  rw [omniGetInputPositionsTensor, positionLoop_prompt hcfg hitems]
  constructor
  · rintro ⟨res, hres, hright⟩
    refine ⟨?_, settled_iff.mp ((textRight_iff hcfg hvalid).mp ?_)⟩
    · rintro rfl
      cases hres
    · simp only [bind, Except.bind] at hres
      split at hres
      · cases hres
      · cases hres
        exact hright.text
  · rintro ⟨hne, hsettled⟩
    have hnonempty : (runTensors cfg md.useAudioInVideo
        (promptSegments cfg md.useAudioInVideo items) none 0).flatten ≠ [] :=
      ne_nil_of_length_pos (hlength ▸ length_pos_of_ne_nil
        (segmentTokens_ne_nil hcfg hitems.valid hne))
    obtain ⟨top, htop⟩ := exists_maxPosition hnonempty
    refine ⟨⟨_, top + 1 - _, _, _, _⟩, by simp only [bind, Except.bind, htop]; rfl, hlength, rfl,
      rfl, rfl, (textRight_iff hcfg hvalid).mpr (settled_iff.mpr hsettled), fun hplain => ?_⟩
    have hcolumns := runTensors_plain hcfg items hitems.valid hplain
      (fun _ => (Option.some_ne_none cfg.visionStartTokenId).symm) 0
    simp only [Nat.add_zero] at hcolumns
    rw [hcolumns] at htop
    have htotal := maxPosition_range htop
    refine ⟨hcolumns, ?_⟩
    change (top : ℤ) + 1 - (segmentTokens cfg (promptSegments cfg _ items)).length = 0
    omega

end Prompt

/-! ### Two prompts -/

/-- A configuration with chunks of fifty positions. -/
def sampleConfig : Config where
  audioTokenId := 151675
  imageTokenId := 151655
  videoTokenId := 151656
  audioStartTokenId := 151669
  audioEndTokenId := 151670
  visionStartTokenId := 151652
  visionEndTokenId := 151653
  secondsPerChunk := 2
  spatialMergeSize := 2
  tokensPerSecond := 25
  round := id

lemma sampleConfig_valid : sampleConfig.Valid where
  image_ne_audio := by decide
  video_ne_audio := by decide
  video_ne_image := by decide
  marks_text := by decide
  spatialMergeSize_pos := by decide
  tNtokenPerChunk_pos := by decide +kernel
  round_monotone := monotone_id
  round_zero := rfl

/-- Text, audio, an image, and a video of two frames with audio. -/
def sampleItems : List Item :=
  [.text 1, .audio 4 12, .text 2, .image ⟨1, 4, 4⟩, .text 151652, .video ⟨2, 4, 4⟩ (2 / 25) 12,
    .text 151653]

/-- The metadata of that prompt. -/
def sampleMetadata : Metadata where
  imageGridThw := [⟨1, 4, 4⟩]
  videoGridThw := [⟨2, 4, 4⟩]
  secondPerGridTs := [2 / 25]
  audioFeatureLengths := some [12, 12]
  useAudioInVideo := true

lemma sampleItems_consistent : Consistent sampleConfig sampleMetadata sampleItems := by
  refine ⟨?_, ?_, rfl, rfl, rfl, .inr rfl⟩
  · decide +kernel
  · simp [promptSegments, sampleItems, Item.segments, sampleMetadata, Segment.IsAudio]

/-- The tokens of that prompt. -/
def sampleTokens : List ℕ :=
  [1, 151675, 151675, 151675, 151675, 2, 151655, 151655, 151655, 151655, 151652, 151669, 151656,
    151656, 151656, 151656, 151656, 151656, 151656, 151656, 151675, 151675, 151675, 151670, 151653]

theorem positions_right_sample :
    ∃ res, omniGetInputPositionsTensor sampleConfig sampleMetadata sampleTokens = .ok res ∧
      PositionsRight sampleConfig sampleMetadata sampleItems sampleTokens res :=
  (positions_right_iff sampleConfig_valid sampleItems_consistent (by decide +kernel)).mpr
    ⟨cons_ne_nil _ _, by decide +kernel⟩

/-- A video of one frame, of four by four positions, with one of audio: the mark of the end gets
position 2, although the frame has positions up to 4. -/
theorem position_not_behind_shortAudio :
    promptTokens sampleConfig true [.text 151652, .video ⟨1, 8, 8⟩ 1 3, .text 151653] =
      .ok ([151652, 151669] ++ replicate 16 151656 ++ [151675, 151670, 151653]) ∧
    ∃ res, omniGetInputPositionsTensor sampleConfig ⟨[], [⟨1, 8, 8⟩], [], some [3], true⟩
        ([151652, 151669] ++ replicate 16 151656 ++ [151675, 151670, 151653]) = .ok res ∧
      maxPosition ((res.llmPositions.drop 2).take 17) = some 4 ∧
      res.llmPositions[19]? = some (Column.diagonal 2) := by
  refine ⟨by decide +kernel, ⟨[Column.diagonal 0, Column.diagonal 0] ++
    getLlmPosIdsForVision sampleConfig 1 ⟨1, 8, 8⟩ [0] ++
    [Column.diagonal 1, Column.diagonal 2, Column.diagonal 2], -16, 1, 0, 1⟩, ?_, ?_, ?_⟩
  · decide +kernel
  · decide +kernel
  · decide +kernel

end Mrope

end OmniStreaming
