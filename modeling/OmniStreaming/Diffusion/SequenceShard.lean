import Mathlib.Data.List.GetD
import OmniStreaming.Lib.Slices

/-!
# Sequence-parallel shards of an image

With sequence parallelism of size `p`, each rank of `QwenImageTransformer2DModel.forward` takes its
chunk of the rows of `hidden_states` and of `img_freqs`, runs the blocks on them, and the outputs
are gathered at the end. `torch.chunk` makes chunks of `⌈L / p⌉` rows, of which the last one may be
shorter and some may be missing, whereas the gathering needs tensors of one size. What comes out is
what the unsharded model computes iff `p` divides the number of rows (`sharding_lossless_iff`).

What the blocks compute for a row is a parameter, a function of the row and of its frequencies; the
attention over the other rows is part of that function.
-/

namespace OmniStreaming

open List Slices

variable {ρ φ σ : Type}

/-! ## Tensors of rows -/

/-- A tensor of shape `[batch, rows, _]`. -/
@[ext]
structure RowTensor (α : Type) where
  rows : ℕ
  data : List (List α)
  length_eq : ∀ xs ∈ data, xs.length = rows

/-- The rows from `start` to `stop`. -/
def RowTensor.narrow (t : RowTensor ρ) (start stop : ℕ) : RowTensor ρ where
  rows := min (stop - start) (t.rows - start)
  data := t.data.map fun xs => slice xs start stop
  length_eq := by
    intro ys hys
    obtain ⟨xs, hxs, rfl⟩ := mem_map.mp hys
    rw [length_slice, t.length_eq xs hxs]

/-- Where `torch.chunk` cuts a dimension with at least one entry. -/
def chunkBounds (len chunks : ℕ) : List (ℕ × ℕ) :=
  let size := (len + chunks - 1) / chunks
  (range ((len + size - 1) / size)).map fun i => (i * size, min ((i + 1) * size) len)

/-- `torch.chunk(hidden_states, chunks, dim=-2)[rank]`. -/
def RowTensor.chunk (t : RowTensor ρ) (chunks rank : ℕ) : Option (RowTensor ρ) :=
  (chunkBounds t.rows chunks)[rank]?.map fun b => t.narrow b.1 b.2

/-- `get_rotary_emb_chunk(freqs)`. -/
def getRotaryEmbChunk (freqs : List φ) (chunks rank : ℕ) : Option (List φ) :=
  (chunkBounds freqs.length chunks)[rank]?.map fun b => slice freqs b.1 b.2

/-! ## The model -/

/-- What the blocks and projections make of the rows of an image, with as many frequencies as
rows. -/
def blocks (act : ℕ → ρ → φ → σ) (hidden : RowTensor ρ) (freqs : List φ) : Option (RowTensor σ) :=
  if h : freqs.length = hidden.rows then
    some
      { rows := hidden.rows
        data := hidden.data.mapIdx fun b xs => zipWith (act b) xs freqs
        length_eq := by
          intro ys hys
          obtain ⟨b, hb, rfl⟩ := mem_mapIdx.mp hys
          rw [length_zipWith, hidden.length_eq _ (getElem_mem hb), h, min_self] }
  else none

/-- The rows of a batch entry in all tensors, one tensor after the other. -/
def gatheredRows (inputs : List (RowTensor σ)) (b : ℕ) : List σ :=
  inputs.flatMap fun t => t.data.getD b []

/-- The gathered rows of a batch entry. -/
lemma length_gatheredRows {inputs : List (RowTensor σ)} {rows batch b : ℕ} (hb : b < batch)
    (h : ∀ t ∈ inputs, t.rows = rows ∧ t.data.length = batch) :
    (gatheredRows inputs b).length = inputs.length * rows := by
  refine length_flatMap_const fun t ht => ?_
  have hlt : b < t.data.length := (h t ht).2.symm ▸ hb
  rw [getD_eq_getElem _ _ hlt, t.length_eq _ (getElem_mem hlt), (h t ht).1]

/-- `all_gather(output, dim=-2)`: the tensors fill a buffer of shape `[p, batch, rows, _]`, which
needs one size, the batch is moved to the front, and the rows become one dimension. -/
def allGather : List (RowTensor σ) → Option (RowTensor σ)
  | [] => none
  | [t] => some t
  | t :: inputs =>
    if h : ∀ s ∈ t :: inputs, s.rows = t.rows ∧ s.data.length = t.data.length then
      some
        { rows := (t :: inputs).length * t.rows
          data := (range t.data.length).map (gatheredRows (t :: inputs))
          length_eq := by
            intro ys hys
            obtain ⟨b, hb, rfl⟩ := mem_map.mp hys
            exact length_gatheredRows (mem_range.mp hb) h }
    else none

/-- What a rank computes before the outputs are gathered. -/
def shardOutput (act : ℕ → ρ → φ → σ) (p : ℕ) (hidden : RowTensor ρ) (freqs : List φ)
    (rank : ℕ) : Option (RowTensor σ) := do
  blocks act (← hidden.chunk p rank) (← getRotaryEmbChunk freqs p rank)

/-- `QwenImageTransformer2DModel.forward` with `p` ranks. Nothing is gathered if one has failed. -/
def forward (act : ℕ → ρ → φ → σ) (p : ℕ) (hidden : RowTensor ρ) (freqs : List φ) :
    Option (RowTensor σ) :=
  if 1 < p then do
    allGather (← (range p).mapM (shardOutput act p hidden freqs))
  else blocks act hidden freqs

structure ImageSize where
  height : ℕ
  width : ℕ
  height_pos : 0 < height
  width_pos : 0 < width
  height_dvd : 16 ∣ height
  width_dvd : 16 ∣ width

namespace ImageSize

/-- The rows of the latents after `_pack_latents`, with a VAE that scales by 8. -/
def packedRows (i : ImageSize) : ℕ := 2 * (i.height / (8 * 2)) / 2 * (2 * (i.width / (8 * 2)) / 2)

/-- The entry of `img_shapes`. -/
def shape (i : ImageSize) : ℕ × ℕ × ℕ := (1, i.height / 8 / 2, i.width / 8 / 2)

end ImageSize

/-- `QwenEmbedRope.forward`: the frequencies of an image by frame, row and column, then those of the
next image. `freq` is the entry for a position of an image. -/
def videoFreqs (freq : ℕ → ℕ → ℕ → ℕ → φ) (shapes : List (ℕ × ℕ × ℕ)) : List φ :=
  shapes.zipIdx.flatMap fun e =>
    (range e.1.1).flatMap fun frame => (range e.1.2.1).flatMap fun y =>
      (range e.1.2.2).map fun x => freq e.2 frame y x

/-- Nothing is lost by sharding. -/
structure ShardingLossless (act : ℕ → ρ → φ → σ) (p : ℕ) (hidden : RowTensor ρ)
    (freqs : List φ) : Prop where
  same_rows : ∀ rank < p, ∃ start stop,
    hidden.chunk p rank = some (hidden.narrow start stop) ∧
      getRotaryEmbChunk freqs p rank = some (slice freqs start stop)
  equal_lengths : ∃ n, ∀ rank < p, (hidden.chunk p rank).map RowTensor.rows = some n
  gathered : ∃ out, forward act p hidden freqs = some out ∧
    forward act 1 hidden freqs = some out ∧ out.rows = hidden.rows

/-! ## Rows of images -/

lemma packedRows_eq (i : ImageSize) : i.packedRows = i.height / 16 * (i.width / 16) := by
  rw [ImageSize.packedRows, Nat.mul_div_cancel_left _ Nat.two_pos,
    Nat.mul_div_cancel_left _ Nat.two_pos]

lemma packedRows_pos (i : ImageSize) : 0 < i.packedRows := by
  rw [packedRows_eq]
  exact Nat.mul_pos (Nat.div_pos (Nat.le_of_dvd i.height_pos i.height_dvd) (by decide))
    (Nat.div_pos (Nat.le_of_dvd i.width_pos i.width_dvd) (by decide))

lemma length_videoFreqs (freq : ℕ → ℕ → ℕ → ℕ → φ) (images : List ImageSize) :
    (videoFreqs freq (images.map ImageSize.shape)).length =
      (images.map ImageSize.packedRows).sum := by
  have hentry : ∀ e : (ℕ × ℕ × ℕ) × ℕ,
      ((range e.1.1).flatMap fun frame => (range e.1.2.1).flatMap fun y =>
        (range e.1.2.2).map fun x => freq e.2 frame y x).length =
          e.1.1 * (e.1.2.1 * e.1.2.2) := by
    intro e
    rw [length_flatMap_const fun _ _ => length_flatMap_const fun _ _ => length_map _]
    simp only [length_range]
  have hshape : ∀ i : ImageSize, i.shape.1 * (i.shape.2.1 * i.shape.2.2) = i.packedRows := by
    intro i
    rw [packedRows_eq, ImageSize.shape, Nat.one_mul, Nat.div_div_eq_div_mul,
      Nat.div_div_eq_div_mul]
  rw [videoFreqs, length_flatMap]
  simp only [hentry]
  have hzip := zipIdx_map_fst 0 (images.map ImageSize.shape)
  calc ((images.map ImageSize.shape).zipIdx.map fun e => e.1.1 * (e.1.2.1 * e.1.2.2)).sum
      = (((images.map ImageSize.shape).zipIdx.map Prod.fst).map
          fun s => s.1 * (s.2.1 * s.2.2)).sum := by rw [map_map]; rfl
    _ = (images.map ImageSize.packedRows).sum := by
      rw [hzip, map_map]
      exact congrArg sum (map_congr_left fun i _ => hshape i)

/-! ## Chunks -/

variable {p k rank : ℕ} {t : RowTensor ρ}

/-- If the number of chunks divides the number of rows, all chunks are there and have one size. -/
lemma getElem?_chunkBounds (hk : 0 < k) (hrank : rank < p) :
    (chunkBounds (p * k) p)[rank]? = some (rank * k, (rank + 1) * k) := by
  have hp : 0 < p := Nat.zero_lt_of_lt hrank
  have hsize : (p * k + p - 1) / p = k := by
    rw [Nat.add_sub_assoc hp, Nat.mul_add_div hp, Nat.div_eq_of_lt (by omega), Nat.add_zero]
  have hcount : (p * k + k - 1) / k = p := by
    rw [Nat.add_sub_assoc hk, Nat.mul_comm, Nat.mul_add_div hk, Nat.div_eq_of_lt (by omega),
      Nat.add_zero]
  have hmin : min ((rank + 1) * k) (p * k) = (rank + 1) * k :=
    Nat.min_eq_left (Nat.mul_le_mul_right k hrank)
  simp only [chunkBounds, hsize, hcount, getElem?_map, getElem?_range hrank,
    Option.map_some, hmin]

lemma rows_narrow (hrows : t.rows = p * k) (hrank : rank < p) :
    (t.narrow (rank * k) ((rank + 1) * k)).rows = k := by
  have hle : (rank + 1) * k ≤ p * k := Nat.mul_le_mul_right k hrank
  rw [Nat.succ_mul] at hle
  simp only [RowTensor.narrow, hrows, Nat.succ_mul]
  omega

/-- The rows of a chunk. -/
lemma rows_of_chunk {shard : RowTensor ρ} (h : t.chunk p rank = some shard) :
    shard.rows = min ((rank + 1) * ((t.rows + p - 1) / p)) t.rows -
      rank * ((t.rows + p - 1) / p) := by
  obtain ⟨bounds, hbounds, rfl⟩ := Option.map_eq_some_iff.mp h
  rw [chunkBounds, getElem?_map] at hbounds
  obtain ⟨i, hi, rfl⟩ := Option.map_eq_some_iff.mp hbounds
  obtain ⟨hlt, rfl⟩ := List.getElem?_eq_some_iff.mp hi
  rw [getElem_range]
  exact Nat.min_eq_left (Nat.sub_le_sub_right (Nat.min_le_right _ _) _)

/-- Chunks of one size are there for every rank only if their number divides that of the rows. -/
lemma dvd_of_chunks {n : ℕ} (hp : 0 < p) (hrows : 0 < t.rows)
    (h : ∀ rank < p, (t.chunk p rank).map RowTensor.rows = some n) : p ∣ t.rows := by
  have hchunk : ∀ rank < p, n = min ((rank + 1) * ((t.rows + p - 1) / p)) t.rows -
      rank * ((t.rows + p - 1) / p) := by
    intro rank hrank
    obtain ⟨shard, hshard, rfl⟩ := Option.map_eq_some_iff.mp (h rank hrank)
    exact rows_of_chunk hshard
  have hfirst := hchunk 0 hp
  have hlast := hchunk (p - 1) (Nat.sub_lt hp Nat.one_pos)
  have hsize : 0 < (t.rows + p - 1) / p := Nat.div_pos (by omega) hp
  have hle : (t.rows + p - 1) / p ≤ t.rows := by
    obtain ⟨l, hl⟩ := Nat.exists_eq_succ_of_ne_zero hrows.ne'
    obtain ⟨q, rfl⟩ := Nat.exists_eq_succ_of_ne_zero hp.ne'
    refine Nat.div_le_of_le_mul ?_
    rw [hl, Nat.succ_mul, Nat.mul_succ]
    omega
  have hceil : t.rows ≤ p * ((t.rows + p - 1) / p) := by
    have hlt := Nat.lt_mul_div_succ (t.rows + p - 1) hp
    rw [Nat.mul_succ] at hlt
    omega
  -- the last chunk has as many rows as the first one, so the chunks end where the rows end
  rw [Nat.sub_add_cancel hp] at hlast
  have hp' : p * ((t.rows + p - 1) / p) =
      (p - 1) * ((t.rows + p - 1) / p) + (t.rows + p - 1) / p := by
    rw [← Nat.succ_mul, Nat.succ_eq_add_one, Nat.sub_add_cancel hp]
  refine ⟨(t.rows + p - 1) / p, Nat.le_antisymm hceil ?_⟩
  omega

/-! ## Gathering -/

variable {act : ℕ → ρ → φ → σ} {hidden : RowTensor ρ} {freqs : List φ} {out : RowTensor σ}

lemma blocks_narrow (h : blocks act hidden freqs = some out) (start stop : ℕ) :
    blocks act (hidden.narrow start stop) (slice freqs start stop) =
      some (out.narrow start stop) := by
  unfold blocks at h
  split at h
  next hlength =>
    cases h
    have hshard : (slice freqs start stop).length = (hidden.narrow start stop).rows := by
      rw [length_slice, hlength]
      rfl
    rw [blocks, dif_pos hshard]
    refine congrArg some (RowTensor.ext rfl ?_)
    refine ext_getElem (by simp [RowTensor.narrow]) fun b hb hb' => ?_
    simp only [RowTensor.narrow, getElem_mapIdx, getElem_map, zipWith_slice]
  next => cases h

/-- Gathering tensors of one size. -/
lemma allGather_eq {inputs : List (RowTensor σ)} {rows batch : ℕ} (hlength : 2 ≤ inputs.length)
    (h : ∀ t ∈ inputs, t.rows = rows ∧ t.data.length = batch) :
    ∃ out, allGather inputs = some out ∧ out.rows = inputs.length * rows ∧
      out.data = (range batch).map (gatheredRows inputs) := by
  match inputs with
  | [] | [_] => simp at hlength
  | t :: s :: inputs =>
    obtain ⟨hrows, hbatch⟩ := h t mem_cons_self
    rw [← hrows, ← hbatch] at h ⊢
    refine ⟨_, dif_pos h, rfl, rfl⟩

/-- Gathering puts a tensor together from consecutive shards of one size. -/
lemma allGather_narrow (hp : 2 ≤ p) (hrows : out.rows = p * k) :
    allGather ((range p).map fun rank => out.narrow (rank * k) ((rank + 1) * k)) =
      some out := by
  have hshards : ∀ t ∈ (range p).map fun rank => out.narrow (rank * k) ((rank + 1) * k),
      t.rows = k ∧ t.data.length = out.data.length := by
    intro t ht
    obtain ⟨rank, hrank, rfl⟩ := mem_map.mp ht
    exact ⟨rows_narrow hrows (mem_range.mp hrank), length_map _⟩
  obtain ⟨out', hgather, hrows', hdata⟩ := allGather_eq (by simpa using hp) hshards
  rw [hgather]
  refine congrArg some (RowTensor.ext ?_ ?_)
  · rw [hrows', length_map, length_range, hrows]
  · rw [hdata]
    refine ext_getElem (by simp) fun b hb hb' => ?_
    have hentry : ∀ rank, ((out.narrow (rank * k) ((rank + 1) * k)).data.getD b []) =
        slice out.data[b] (rank * k) ((rank + 1) * k) := by
      intro rank
      rw [getD_eq_getElem _ _ (by simpa [RowTensor.narrow] using hb')]
      exact getElem_map _
    rw [getElem_map, getElem_range, gatheredRows, flatMap_map]
    simp only [hentry]
    rw [flatMap_slice, ← hrows, ← out.length_eq _ (getElem_mem hb'), take_length]

/-- Sharding of rows with their frequencies is lossless iff the ranks divide the rows. -/
lemma lossless_iff_dvd (hp : 2 ≤ p) (hrows : 0 < hidden.rows)
    (hfreqs : freqs.length = hidden.rows) :
    ShardingLossless act p hidden freqs ↔ p ∣ hidden.rows := by
  constructor
  · rintro ⟨-, ⟨n, hn⟩, -⟩
    exact dvd_of_chunks (by omega) hrows hn
  · rintro ⟨k, hk⟩
    have hkpos : 0 < k := Nat.pos_of_ne_zero fun hzero => by
      rw [hk, hzero, Nat.mul_zero] at hrows
      exact absurd hrows (lt_irrefl 0)
    have hhidden : ∀ rank < p, hidden.chunk p rank =
        some (hidden.narrow (rank * k) ((rank + 1) * k)) := by
      intro rank hrank
      rw [RowTensor.chunk, hk, getElem?_chunkBounds hkpos hrank]
      rfl
    have hfreqs' : ∀ rank < p, getRotaryEmbChunk freqs p rank =
        some (slice freqs (rank * k) ((rank + 1) * k)) := by
      intro rank hrank
      rw [getRotaryEmbChunk, hfreqs, hk, getElem?_chunkBounds hkpos hrank]
      rfl
    obtain ⟨out, hout, houtrows⟩ : ∃ out, blocks act hidden freqs = some out ∧
        out.rows = hidden.rows := ⟨_, dif_pos hfreqs, rfl⟩
    have hshards : (range p).mapM (shardOutput act p hidden freqs) =
        some ((range p).map fun rank => out.narrow (rank * k) ((rank + 1) * k)) := by
      refine mapM_eq_pure fun rank hrank => ?_
      have hlt := mem_range.mp hrank
      rw [shardOutput, hhidden rank hlt, hfreqs' rank hlt]
      exact blocks_narrow hout _ _
    refine ⟨fun rank hrank => ⟨_, _, hhidden rank hrank, hfreqs' rank hrank⟩, ⟨k, ?_⟩, out, ?_,
      hout, houtrows⟩
    · intro rank hrank
      rw [hhidden rank hrank, Option.map_some, rows_narrow hk hrank]
    · rw [forward, if_pos (by omega), hshards]
      exact allGather_narrow hp (houtrows.trans hk)

/-- For every image, with any condition images and blocks, sharding is lossless iff the number of
ranks divides the number of tokens. -/
theorem sharding_lossless_iff {p : ℕ} (hp : 2 ≤ p) {images : List ImageSize}
    (himages : images ≠ []) (freq : ℕ → ℕ → ℕ → ℕ → φ) (act : ℕ → ρ → φ → σ)
    (hhidden : hidden.rows = (images.map ImageSize.packedRows).sum) :
    ShardingLossless act p hidden (videoFreqs freq (images.map ImageSize.shape)) ↔
      p ∣ (images.map fun i => i.height / 16 * (i.width / 16)).sum := by
  have hpos : 0 < hidden.rows := by
    obtain ⟨i, rest, rfl⟩ := exists_cons_of_ne_nil himages
    rw [hhidden, map_cons, sum_cons]
    exact Nat.add_pos_left (packedRows_pos i) _
  rw [lossless_iff_dvd hp hpos (by rw [length_videoFreqs, hhidden]), hhidden,
    map_congr_left fun i _ => packedRows_eq i]

/-! ## An image of nine tokens -/

/-- An image of 48 by 48 pixels. -/
def nineTokens : ImageSize where
  height := 48
  width := 48
  height_pos := by decide
  width_pos := by decide
  height_dvd := by decide
  width_dvd := by decide

/-- A batch of one image with numbered rows. -/
def numberedRows (n : ℕ) : RowTensor ℕ where
  rows := n
  data := [range n]
  length_eq := by simp

/-- With a condition image of the same size it is divided among two ranks. -/
theorem sharding_lossless_eighteenTokens :
    ShardingLossless (fun _ row (pos : ℕ × ℕ) => (row, pos)) 2 (numberedRows 18)
      (videoFreqs (fun idx _ y _ => (idx, y)) ([nineTokens, nineTokens].map ImageSize.shape)) :=
  (sharding_lossless_iff (by decide) (by decide) _ _ rfl).mpr (by decide)

/-- Alone it is divided into five and four rows, which cannot be gathered. -/
theorem sharding_nineTokens_fails :
    ((numberedRows 9).chunk 2 0).map RowTensor.rows = some 5 ∧
      ((numberedRows 9).chunk 2 1).map RowTensor.rows = some 4 ∧
      forward (fun _ row (pos : ℕ × ℕ) => (row, pos)) 2 (numberedRows 9)
        (videoFreqs (fun idx _ y _ => (idx, y)) ([nineTokens].map ImageSize.shape)) = none := by
  decide

end OmniStreaming
