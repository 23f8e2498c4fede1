import Mathlib.Tactic.Linarith
import OmniStreaming.Model.StageInputs

/-!
# The vocoder

The vocoder stage gets the codes of all frames as one flat prompt, layer by layer, and decodes them
chunk by chunk. A chunk is decoded together with some frames before it, whose samples are cut off.
The decoder itself is any function that makes `totalUpsample` samples of a frame.
-/

namespace OmniStreaming

open List Tensors

variable {α β : Type}

/-! ## The stage -/

/-- `Qwen3OmniMoeCode2Wav`, where `decoder` is what `forward` does after its check. -/
structure Code2Wav (α β : Type) where
  numQuantizers : ℕ
  totalUpsample : ℕ
  decoder : NdTensor α → NdTensor β
  shape_decoder : ∀ {x : NdTensor α} {b n : ℕ}, x.shape = [b, numQuantizers, n] →
    (decoder x).shape = [b, 1, n * totalUpsample]

namespace Code2Wav

variable (m : Code2Wav α β)

/-- `forward`, without a value where it raises `ValueError`. -/
def forward (codes : NdTensor α) : Option (NdTensor β) :=
  if codes.shape.getD 1 0 = m.numQuantizers then some (m.decoder codes) else none

def contextSize (leftContextSize start : ℕ) : ℕ :=
  if leftContextSize ≤ start then leftContextSize else start

def codesChunk (codes : NdTensor α) (chunkSize leftContextSize start : ℕ) : NdTensor α :=
  codes.sliceLast (start - contextSize leftContextSize start)
    (min (start + chunkSize) (codes.shape.getLastD 0))

/-- The loop of `chunked_decode` from `start_index` on, for at most `fuel` tests of its
condition. -/
def chunkLoop (codes : NdTensor α) (chunkSize leftContextSize : ℕ) :
    ℕ → ℕ → Option (List (NdTensor β))
  | 0, _ => none
  | fuel + 1, start =>
    if start < codes.shape.getLastD 0 then do
      let wav ← m.forward (codesChunk codes chunkSize leftContextSize start)
      let wavs ← chunkLoop codes chunkSize leftContextSize fuel
        (min (start + chunkSize) (codes.shape.getLastD 0))
      some (wav.sliceLast (contextSize leftContextSize start * m.totalUpsample)
        (wav.shape.getLastD 0) :: wavs)
    else some []

def chunkedDecode (fuel : ℕ) (codes : NdTensor α) (chunkSize leftContextSize : ℕ) :
    Option (NdTensor β) := do
  let wavs ← m.chunkLoop codes chunkSize leftContextSize fuel 0
  NdTensor.catLast wavs

end Code2Wav

def generateAudio (m : Code2Wav α β) (fuel : ℕ) (code : NdTensor α) (chunkUnit overlapSize : ℕ) :
    Option (NdTensor β) :=
  let talkerCodes : NdTensor α :=
    match code.shape with
    | [q, t] => code.view [1, q, t]
    | [t] => { shape := [1, 16, t], get := fun idx => code.get [idx.getD 2 0] }
    | _ => code
  m.chunkedDecode fuel talkerCodes chunkUnit overlapSize

/-- `input_ids.reshape(1, 16, -1)`. -/
def codesOfIds (inputIds : NdTensor α) : Option (NdTensor α) :=
  inputIds.reshape [1, 16, inputIds.numel / 16]

/-- `forward` of the stage `code2wav`: its `model_outputs`. -/
def code2wavForward (m : Code2Wav α β) (fuel : ℕ) (inputIds : NdTensor α)
    (chunkUnit : ℕ := 10) (overlapSize : ℕ := 3) : Option (NdTensor β) := do
  let codes ← codesOfIds inputIds
  let audio ← generateAudio m fuel codes chunkUnit overlapSize
  audio.reshape [1, audio.numel]

/-! ## Chunks -/

namespace Code2Wav

variable {m : Code2Wav α β} {codes : NdTensor α} {chunkSize leftContextSize frames : ℕ}

/-- The first frame of the window of frame `t`: its chunk starts at a multiple of the chunk size,
and the context goes back from there, at most to the first frame. -/
def windowStart (chunkSize leftContextSize t : ℕ) : ℕ :=
  t / chunkSize * chunkSize - min leftContextSize (t / chunkSize * chunkSize)

/-- The end of the chunk of frame `t`. -/
def windowEnd (chunkSize frames t : ℕ) : ℕ := min (t / chunkSize * chunkSize + chunkSize) frames

/-- Sample `j` of frame `t` as the loop computes it. -/
def loopSample (m : Code2Wav α β) (codes : NdTensor α) (chunkSize leftContextSize t j : ℕ) : β :=
  let start := t / chunkSize * chunkSize
  (m.decoder (codesChunk codes chunkSize leftContextSize start)).get
    [0, 0, (contextSize leftContextSize start + (t - start)) * m.totalUpsample + j]

lemma contextSize_eq (leftContextSize start : ℕ) :
    contextSize leftContextSize start = min leftContextSize start := by
  unfold contextSize
  split <;> omega

variable (hshape : codes.shape = [1, m.numQuantizers, frames])
include hshape

/-- The window of a chunk has all layers. -/
lemma shape_codesChunk (chunkSize leftContextSize start : ℕ) :
    (codesChunk codes chunkSize leftContextSize start).shape = [1, m.numQuantizers,
      min (start + chunkSize) frames - (start - contextSize leftContextSize start)] := by
  simp [codesChunk, NdTensor.sliceLast, NdTensor.slice, hshape]

/-- The decoder takes the window of a chunk. -/
lemma forward_codesChunk (chunkSize leftContextSize start : ℕ) :
    m.forward (codesChunk codes chunkSize leftContextSize start) =
      some (m.decoder (codesChunk codes chunkSize leftContextSize start)) := by
  rw [forward, shape_codesChunk hshape]
  exact if_pos rfl

/-- What the decoder gets is the codes of the window. -/
lemma get_codesChunk (chunkSize leftContextSize start q i : ℕ) :
    (codesChunk codes chunkSize leftContextSize start).get [0, q, i] =
      codes.get [0, q, start - min leftContextSize start + i] := by
  simp [codesChunk, NdTensor.sliceLast, NdTensor.slice, hshape, contextSize_eq, add_comm]

/-- The waveform of the chunk from `start` on, without its context. -/
def piece (m : Code2Wav α β) (codes : NdTensor α) (chunkSize leftContextSize start : ℕ) :
    NdTensor β :=
  let wav := m.decoder (codesChunk codes chunkSize leftContextSize start)
  wav.sliceLast (contextSize leftContextSize start * m.totalUpsample) (wav.shape.getLastD 0)

/-- The samples of a chunk, without the context. -/
lemma shape_piece (chunkSize leftContextSize start : ℕ) :
    (m.piece codes chunkSize leftContextSize start).shape =
      [1, 1, (min (start + chunkSize) frames - start) * m.totalUpsample] := by
  have hwav := m.shape_decoder (shape_codesChunk hshape chunkSize leftContextSize start)
  have hctx := contextSize_eq leftContextSize start
  simp only [piece, NdTensor.sliceLast, NdTensor.slice, hwav, length_cons, length_nil,
    getLastD_cons, getLastD_nil, modify_succ_cons, modify_zero_cons, min_self,
    ← Nat.sub_mul]
  congr 4
  omega

/-- A sample of a chunk in what the decoder returns. -/
lemma get_piece {k t : ℕ} (hle : k * chunkSize ≤ t) (hlt : t < k * chunkSize + chunkSize) (j : ℕ) :
    (m.piece codes chunkSize leftContextSize (k * chunkSize)).get
        [0, 0, (t - k * chunkSize) * m.totalUpsample + j] =
      m.loopSample codes chunkSize leftContextSize t j := by
  have hwav := m.shape_decoder (shape_codesChunk hshape chunkSize leftContextSize (k * chunkSize))
  have hdiv : t / chunkSize = k := Nat.div_eq_of_lt_le hle (by rwa [Nat.succ_mul])
  simp only [piece, loopSample, hdiv, NdTensor.sliceLast, NdTensor.slice, hwav, length_cons,
    length_nil, modify_succ_cons, modify_zero_cons]
  congr 4
  ring

/-- The waveform from frame `start` on. -/
structure DecodesFrom (m : Code2Wav α β) (codes : NdTensor α)
    (chunkSize leftContextSize frames start : ℕ) (wav : NdTensor β) : Prop where
  shape_eq : wav.shape = [1, 1, (frames - start) * m.totalUpsample]
  get_eq : ∀ t j, start ≤ t → t < frames → j < m.totalUpsample →
    wav.get [0, 0, (t - start) * m.totalUpsample + j] =
      m.loopSample codes chunkSize leftContextSize t j

/-- A piece in front of the waveform from the next chunk on. -/
lemma decodesFrom_append {k : ℕ} (hnext : (k + 1) * chunkSize ≤ frames) {wav : NdTensor β}
    (h : DecodesFrom m codes chunkSize leftContextSize frames ((k + 1) * chunkSize) wav) :
    DecodesFrom m codes chunkSize leftContextSize frames (k * chunkSize)
      ((m.piece codes chunkSize leftContextSize (k * chunkSize)).append 2 wav) := by
  have hpiece := shape_piece hshape chunkSize leftContextSize (k * chunkSize)
  rw [← Nat.succ_mul, Nat.min_eq_left hnext, Nat.succ_mul, Nat.add_sub_cancel_left] at hpiece
  rw [Nat.succ_mul] at h hnext
  have hdim : (m.piece codes chunkSize leftContextSize (k * chunkSize)).shape.getD 2 0 =
    chunkSize * m.totalUpsample := by rw [hpiece]; rfl
  refine ⟨?_, fun t j hle hlt hj => ?_⟩
  · simp only [NdTensor.append, hpiece, h.shape_eq, modify_succ_cons, modify_zero_cons,
      getD_cons_succ, getD_cons_zero, ← Nat.add_mul]
    congr 4
    omega
  · by_cases hin : t < k * chunkSize + chunkSize
    · -- the sample lies in the piece
      rw [NdTensor.get_append_left, get_piece hshape hle hin]
      rw [hdim]
      calc (t - k * chunkSize) * m.totalUpsample + j
          < (t - k * chunkSize + 1) * m.totalUpsample := by rw [Nat.succ_mul]; omega
        _ ≤ chunkSize * m.totalUpsample := Nat.mul_le_mul_right _ (by omega)
    · -- the sample lies behind it
      obtain ⟨d, rfl⟩ := Nat.exists_eq_add_of_le (not_lt.mp hin)
      have hplace : (k * chunkSize + chunkSize + d - k * chunkSize) * m.totalUpsample + j =
          chunkSize * m.totalUpsample + (d * m.totalUpsample + j) := by
        rw [Nat.add_assoc, Nat.add_sub_cancel_left]
        ring
      rw [hplace, NdTensor.get_append_right (hdim.trans_le (Nat.le_add_right _ _)), hdim]
      have hget := h.get_eq (k * chunkSize + chunkSize + d) j (Nat.le_add_right _ _) hlt hj
      rw [Nat.add_sub_cancel_left] at hget
      simpa only [modify_succ_cons, modify_zero_cons, Nat.add_sub_cancel_left] using hget

/-- The last piece is the waveform from its chunk on. -/
lemma decodesFrom_piece {k : ℕ} (hlast : frames ≤ k * chunkSize + chunkSize) :
    DecodesFrom m codes chunkSize leftContextSize frames (k * chunkSize)
      (m.piece codes chunkSize leftContextSize (k * chunkSize)) where
  shape_eq := by rw [shape_piece hshape, Nat.min_eq_right hlast]
  get_eq _ j hle hlt _ := get_piece hshape hle (hlt.trans_le hlast) j

/-- The loop from the start of a chunk on. -/
lemma chunkLoop_spec (leftContextSize : ℕ) (hchunk : 0 < chunkSize) {fuel k : ℕ}
    (hstart : k * chunkSize < frames) (hfuel : frames < k * chunkSize + fuel) :
    ∃ wavs wav, m.chunkLoop codes chunkSize leftContextSize fuel (k * chunkSize) = some wavs ∧
      NdTensor.cat 2 wavs = some wav ∧
      wavs.head? = some (m.piece codes chunkSize leftContextSize (k * chunkSize)) ∧
      DecodesFrom m codes chunkSize leftContextSize frames (k * chunkSize) wav := by
  have hframes : codes.shape.getLastD 0 = frames := by rw [hshape]; rfl
  induction fuel generalizing k with
  | zero => omega
  | succ fuel ih =>
    have hloop (wavs : List (NdTensor β))
        (hwavs : m.chunkLoop codes chunkSize leftContextSize fuel
          (min (k * chunkSize + chunkSize) frames) = some wavs) :
        m.chunkLoop codes chunkSize leftContextSize (fuel + 1) (k * chunkSize) =
          some (m.piece codes chunkSize leftContextSize (k * chunkSize) :: wavs) := by
      rw [chunkLoop, hframes, if_pos hstart, forward_codesChunk hshape, hwavs]
      rfl
    by_cases hnext : (k + 1) * chunkSize < frames
    · obtain ⟨wavs, wav, hwavs, hcat, -, hwav⟩ := ih hnext (by rw [Nat.succ_mul]; omega)
      refine ⟨_, _, hloop wavs ?_, NdTensor.cat_cons hcat ?_, rfl,
        decodesFrom_append hshape hnext.le hwav⟩
      · rwa [← Nat.succ_mul, Nat.min_eq_left hnext.le]
      · rw [shape_piece hshape, hwav.shape_eq]
        rfl
    · rw [Nat.succ_mul, not_lt] at hnext
      refine ⟨_, _, hloop [] ?_, rfl, rfl, decodesFrom_piece hshape hnext⟩
      obtain ⟨fuel, rfl⟩ := Nat.exists_eq_add_of_lt (show 0 < fuel by omega)
      rw [Nat.min_eq_right hnext, zero_add, chunkLoop, hframes, if_neg (lt_irrefl frames)]

/-- `chunked_decode` returns all frames. -/
lemma chunkedDecode_spec (leftContextSize : ℕ) (hchunk : 0 < chunkSize) (hframes : 0 < frames)
    {fuel : ℕ} (hfuel : frames < fuel) :
    ∃ wav, m.chunkedDecode fuel codes chunkSize leftContextSize = some wav ∧
      DecodesFrom m codes chunkSize leftContextSize frames 0 wav := by
  obtain ⟨wavs, wav, hwavs, hcat, hhead, hwav⟩ :=
    chunkLoop_spec hshape leftContextSize hchunk (show 0 * chunkSize < frames by rwa [zero_mul])
      (show frames < 0 * chunkSize + fuel by rwa [zero_mul, zero_add])
  rw [zero_mul] at hwavs hhead hwav
  refine ⟨wav, ?_, hwav⟩
  rw [chunkedDecode, hwavs]
  cases wavs with
  | nil => cases hhead
  | cons piece wavs =>
    cases hhead
    change NdTensor.cat ((m.piece codes chunkSize leftContextSize 0).shape.length - 1) _ = some wav
    rw [shape_piece hshape]
    exact hcat

end Code2Wav

/-! ## The trip of the codes -/

section Trip

variable {codes : NdTensor α} {frames : ℕ}

/-- The codes come out of the flat prompt layer by layer. -/
lemma codesOfIds_flattenCodes [Inhabited α] (hshape : codes.shape = [frames, 16]) :
    ∃ x, codesOfIds (NdTensor.ofList (flattenCodes codes)) = some x ∧ x.shape = [1, 16, frames] ∧
      ∀ q t, q < 16 → t < frames → x.get [0, q, t] = codes.get [t, q] := by
  have hlayers : (codes.transpose 0 1).shape = [16, frames] := by
    simp only [NdTensor.transpose, hshape]
    rfl
  have hnumel : (codes.transpose 0 1).numel = 16 * frames := by simp [NdTensor.numel, hlayers]
  have hids : (NdTensor.ofList (flattenCodes codes)).shape = [16 * frames] := by
    simp [NdTensor.ofList, flattenCodes, hnumel]
  have hdim : (NdTensor.ofList (flattenCodes codes)).numel = 16 * frames := by
    simp [NdTensor.numel, hids]
  refine ⟨_, NdTensor.reshape_eq_some ?_, ?_, fun q t hq ht => ?_⟩
  · rw [hdim, Nat.mul_div_cancel_left _ (by decide)]
    simp
  · rw [NdTensor.shape_view, hdim, Nat.mul_div_cancel_left _ (by decide)]
  · have hplace : q * frames + t < 16 * frames := by nlinarith
    calc (NdTensor.view _ _).get [0, q, t]
        = (NdTensor.ofList (flattenCodes codes)).get [q * frames + t] := by
          refine NdTensor.get_view (by simpa [hids] using hplace) ?_
          simp [hids, hdim]
      _ = ((codes.transpose 0 1).view [(codes.transpose 0 1).numel]).get [q * frames + t] :=
          NdTensor.get_ofList_toList (by simpa [hnumel] using hplace)
      _ = (codes.transpose 0 1).get [q, t] := by
          refine NdTensor.get_view (by simp [hlayers, hq, ht]) ?_
          simp [hlayers, hnumel]
      _ = codes.get [t, q] := rfl

/-- The codes of every output of the talker come back as the layers of the vocoder, which returns
the samples of every frame once and in order: those of frame `t` stand where the frame stands in
what the decoder makes of the window of its chunk. -/
theorem codes_decoded_once [Inhabited α] (m : Code2Wav α β) (hquantizers : m.numQuantizers = 16)
    {stageList : List (Option (List (NdTensor α)))} {engineInputSource : List ℕ}
    {outputs : List (NdTensor α)} {i : ℕ}
    (hsource : sourceOutputs stageList engineInputSource = .ok outputs)
    (hcodes : outputs[i]? = some codes) (hshape : codes.shape = [frames, 16]) (hframes : 0 < frames)
    {chunkUnit overlapSize fuel : ℕ} (hchunk : 0 < chunkUnit) (hfuel : frames < fuel) :
    ∃ prompts prompt x audio, talker2code2wav stageList engineInputSource = .ok prompts ∧
      prompts[i]? = some prompt ∧ codesOfIds (NdTensor.ofList prompt) = some x ∧
      x.shape = [1, 16, frames] ∧
      (∀ q t, q < 16 → t < frames → x.get [0, q, t] = codes.get [t, q]) ∧
      code2wavForward m fuel (NdTensor.ofList prompt) chunkUnit overlapSize = some audio ∧
      audio.shape = [1, frames * m.totalUpsample] ∧
      ∀ t < frames, ∃ lo hi y, lo = Code2Wav.windowStart chunkUnit overlapSize t ∧
        hi = Code2Wav.windowEnd chunkUnit frames t ∧ y.shape = [1, 16, hi - lo] ∧
        (∀ q i, q < 16 → lo + i < hi → y.get [0, q, i] = codes.get [lo + i, q]) ∧
        ∀ j < m.totalUpsample, audio.get [0, t * m.totalUpsample + j] =
          (m.decoder y).get [0, 0, (t - lo) * m.totalUpsample + j] := by
  obtain ⟨x, hx, hxshape, hxget⟩ := codesOfIds_flattenCodes hshape
  have hlayers : x.shape = [1, m.numQuantizers, frames] := hquantizers ▸ hxshape
  obtain ⟨wav, hwav, hwavshape, hwavget⟩ :=
    Code2Wav.chunkedDecode_spec hlayers overlapSize hchunk hframes hfuel
  rw [Nat.sub_zero] at hwavshape
  have hgenerate : generateAudio m fuel x chunkUnit overlapSize = some wav := by
    simpa only [generateAudio, hxshape] using hwav
  have hnumel : wav.numel = frames * m.totalUpsample := by simp [NdTensor.numel, hwavshape]
  refine ⟨outputs.map flattenCodes, flattenCodes codes, x, wav.view [1, wav.numel], ?_, ?_, hx,
    hxshape, hxget, ?_, ?_, fun t ht => ⟨_, _, Code2Wav.codesChunk x chunkUnit overlapSize
      (t / chunkUnit * chunkUnit), rfl, rfl, ?_, fun q i hq hi => ?_, fun j hj => ?_⟩⟩
  · rw [talker2code2wav, hsource]
    rfl
  · rw [getElem?_map, hcodes]
    rfl
  · simp only [code2wavForward, hx, hgenerate, Option.bind_eq_bind, Option.bind_some]
    exact NdTensor.reshape_eq_some (by simp)
  · rw [NdTensor.shape_view, hnumel]
  · rw [Code2Wav.shape_codesChunk hlayers, Code2Wav.contextSize_eq, hquantizers]
    rfl
  · rw [Code2Wav.get_codesChunk hlayers]
    exact hxget q _ hq (hi.trans_le (Nat.min_le_right _ _))
  · have hplace : t * m.totalUpsample + j < frames * m.totalUpsample := by nlinarith
    have hin : Code2Wav.contextSize overlapSize (t / chunkUnit * chunkUnit) +
        (t - t / chunkUnit * chunkUnit) = t - Code2Wav.windowStart chunkUnit overlapSize t := by
      have hle := Nat.div_mul_le_self t chunkUnit
      rw [Code2Wav.contextSize_eq, Code2Wav.windowStart]
      omega
    calc (wav.view [1, wav.numel]).get [0, t * m.totalUpsample + j]
        = wav.get [0, 0, t * m.totalUpsample + j] := by
          refine NdTensor.get_view (by simpa [hwavshape] using hplace) ?_
          simp [hwavshape, hnumel]
      _ = m.loopSample x chunkUnit overlapSize t j := hwavget t j t.zero_le ht hj
      _ = _ := by rw [Code2Wav.loopSample, hin]

/-- Codes of five frames, numbered by frame and layer. -/
def fiveFrames : NdTensor ℕ where
  shape := [5, 16]
  get idx := 100 * idx.getD 0 0 + idx.getD 1 0

/-- A decoder that makes three samples of a frame, each with the code of the first layer. -/
def firstLayer : Code2Wav ℕ ℕ where
  numQuantizers := 16
  totalUpsample := 3
  decoder x :=
    { shape := [x.shape.getD 0 0, 1, x.shape.getD 2 0 * 3]
      get := fun idx => x.get [idx.getD 0 0, 0, idx.getD 2 0 / 3] }
  shape_decoder h := by simp [h]

/-- Five frames in chunks of two with a context of three: every sample is the code of its frame. -/
theorem codes_decoded_fiveFrames :
    ∃ prompts prompt audio, talker2code2wav [none, some [fiveFrames]] [1] = .ok prompts ∧
      prompts[0]? = some prompt ∧
      code2wavForward firstLayer 6 (NdTensor.ofList prompt) 2 3 = some audio ∧
      audio.shape = [1, 15] ∧ ∀ t < 5, ∀ j < 3, audio.get [0, t * 3 + j] = 100 * t := by
  obtain ⟨prompts, prompt, x, audio, hprompts, hprompt, -, -, -, haudio, hshape, hget⟩ :=
    codes_decoded_once firstLayer rfl
      (show sourceOutputs [none, some [fiveFrames]] [1] = .ok [fiveFrames] from rfl)
      (show [fiveFrames][0]? = some fiveFrames from rfl) (show fiveFrames.shape = [5, 16] from rfl)
      (by decide) (show 0 < 2 by decide) (show 5 < 6 by decide)
  refine ⟨prompts, prompt, audio, hprompts, hprompt, haudio, hshape, fun t ht j hj => ?_⟩
  obtain ⟨lo, hi, y, rfl, rfl, -, hy, hsamples⟩ := hget t ht
  have hwindow : Code2Wav.windowStart 2 3 t ≤ t ∧ t < Code2Wav.windowEnd 2 5 t := by
    simp only [Code2Wav.windowStart, Code2Wav.windowEnd]
    omega
  have hframe := hy 0 (t - Code2Wav.windowStart 2 3 t) (by decide) (by omega)
  have hplace : ((t - Code2Wav.windowStart 2 3 t) * 3 + j) / 3 =
      t - Code2Wav.windowStart 2 3 t := by omega
  refine (hsamples j hj).trans (Eq.trans ?_ hframe |>.trans ?_)
  · simp [firstLayer, hplace]
  · simp [fiveFrames, Nat.add_sub_cancel' hwindow.1]

end Trip

end OmniStreaming
