import OmniStreaming.Lib.Collective

/-!
# Ulysses attention

The sequence of the image is cut into shards, one for each rank. `pre_attention` exchanges the
shards for slices of the heads: afterwards a rank holds all rows of the image for its heads, joined
with the rows of the text, which every rank has in full and slices by heads. `post_attention` goes
back. The exchange is `all_to_all_4D`, or `all_to_all_5D` for query, key and value in one tensor: a
chain of reshapes and transpositions around `all_to_all_single`.

The lemmas follow a value through the chain by its index.
-/

namespace OmniStreaming

open List Tensors

variable {α : Type}

/-! ## The exchange -/

inductive UlyssesError
  /-- `input must be 4D tensor` or `input must be 5D tensor` -/
  | dimensions
  /-- `t_cnt == 3` does not hold. -/
  | notThree
  /-- `scatter_idx must be ... and gather_idx must be ...` -/
  | indices
  /-- A shape that a reshape or a concatenation rejects. -/
  | shape
  /-- `joint_strategy: ... not supported.` -/
  | unsupportedStrategy
  /-- `joint_query, joint_key, and joint_value should be None or not None simultaneously.` -/
  | partialJoint
  /-- The ranks wait for different collective operations. -/
  | mismatch
  deriving Repr, DecidableEq

def reshaped (x : NdTensor α) (shape : List ℕ) : Except UlyssesError (NdTensor α) :=
  match x.reshape shape with
  | some y => .ok y
  | none => .error .shape

def concatenated (dim : ℕ) (xs : List (NdTensor α)) : Except UlyssesError (NdTensor α) :=
  match NdTensor.cat dim xs with
  | some y => .ok y
  | none => .error .shape

variable (P : ℕ)

/-- The collective operation, which a group of one rank skips. -/
def exchanged (x : ℕ → NdTensor α) (r : ℕ) : NdTensor α :=
  if 1 < P then allToAllSingle P x r else x r

/-- The two local parts around the collective operation; the second knows the shape of the first. -/
def exchange [Inhabited α] (P : ℕ) (split : NdTensor α → Except UlyssesError (NdTensor α))
    (merge : List ℕ → NdTensor α → Except UlyssesError (NdTensor α)) (input : ℕ → NdTensor α) :
    Except UlyssesError (ℕ → NdTensor α) := do
  let inputT ← onRanks P fun r => split (input r)
  onRanks P fun r => merge (input r).shape (exchanged P inputT r)

/-- `(bs, seqlen/P, hc, hs)` to `(P, seqlen/P, bs, hc/P, hs)`. -/
def splitHeads4D (input : NdTensor α) : Except UlyssesError (NdTensor α) :=
  match input.shape with
  | [bs, shardSeqlen, hc, hs] => do
    let x ← reshaped input [bs, shardSeqlen, P, hc / P, hs]
    .ok (x.transpose 0 2)
  | _ => .error .dimensions

/-- `(P, seqlen/P, bs, hc/P, hs)` to `(bs, seqlen, hc/P, hs)`. -/
def mergeRows4D (shape : List ℕ) (output : NdTensor α) : Except UlyssesError (NdTensor α) :=
  match shape with
  | [bs, shardSeqlen, hc, hs] => do
    let x ← reshaped output [shardSeqlen * P, bs, hc / P, hs]
    reshaped (x.transpose 0 1) [bs, shardSeqlen * P, hc / P, hs]
  | _ => .error .dimensions

/-- `(bs, seqlen, hc/P, hs)` to `(P, hc/P, seqlen/P, bs, hs)`. -/
def splitRows4D (input : NdTensor α) : Except UlyssesError (NdTensor α) :=
  match input.shape with
  | [bs, seqlen, shardHc, hs] => do
    let x ← reshaped input [bs, P, seqlen / P, shardHc, hs]
    reshaped ((x.transpose 0 3).transpose 0 1) [P, shardHc, seqlen / P, bs, hs]
  | _ => .error .dimensions

/-- `(P, hc/P, seqlen/P, bs, hs)` to `(bs, seqlen/P, hc, hs)`. -/
def mergeHeads4D (shape : List ℕ) (output : NdTensor α) : Except UlyssesError (NdTensor α) :=
  match shape with
  | [bs, seqlen, shardHc, hs] => do
    let x ← reshaped output [shardHc * P, seqlen / P, bs, hs]
    reshaped (x.transpose 0 2) [bs, seqlen / P, shardHc * P, hs]
  | _ => .error .dimensions

/-- The assertion about the dimensions of the input. -/
def checkDims (dims : ℕ) (x : NdTensor α) : Except UlyssesError Unit :=
  if x.shape.length = dims then .ok () else .error .dimensions

/-- `all_to_all_4D` of a group of `P` ranks. -/
def allToAll4D [Inhabited α] (P : ℕ) (input : ℕ → NdTensor α) (scatterIdx gatherIdx : ℕ) :
    Except UlyssesError (ℕ → NdTensor α) := do
  let _ ← onRanks P fun r => checkDims 4 (input r)
  if scatterIdx = 2 ∧ gatherIdx = 1 then exchange P (splitHeads4D P) (mergeRows4D P) input
  else if scatterIdx = 1 ∧ gatherIdx = 2 then exchange P (splitRows4D P) (mergeHeads4D P) input
  else .error .indices

/-- `(bs, seqlen/P, 3, hc, hs)` to `(P, seqlen/P, 3, bs, hc/P, hs)`. -/
def splitHeads5D (input : NdTensor α) : Except UlyssesError (NdTensor α) :=
  match input.shape with
  | [bs, shardSeqlen, tCnt, hc, hs] =>
    if tCnt = 3 then do
      let x ← reshaped input [bs, shardSeqlen, 3, P, hc / P, hs]
      .ok (x.transpose 0 3)
    else .error .notThree
  | _ => .error .dimensions

/-- `(P, seqlen/P, 3, bs, hc/P, hs)` to `(bs, seqlen, 3, hc/P, hs)`. -/
def mergeRows5D (shape : List ℕ) (output : NdTensor α) : Except UlyssesError (NdTensor α) :=
  match shape with
  | [bs, shardSeqlen, _, hc, hs] => do
    let x ← reshaped output [shardSeqlen * P, 3, bs, hc / P, hs]
    reshaped ((x.transpose 0 2).transpose 1 2) [bs, shardSeqlen * P, 3, hc / P, hs]
  | _ => .error .dimensions

/-- `(bs, seqlen, 3, hc/P, hs)` to `(P, hc/P, seqlen/P, 3, bs, hs)`. -/
def splitRows5D (input : NdTensor α) : Except UlyssesError (NdTensor α) :=
  match input.shape with
  | [bs, seqlen, _, shardHc, hs] => do
    let x ← reshaped input [bs, P, seqlen / P, 3, shardHc, hs]
    reshaped ((x.transpose 0 4).transpose 0 1) [P, shardHc, seqlen / P, 3, bs, hs]
  | _ => .error .dimensions

/-- `(P, hc/P, seqlen/P, 3, bs, hs)` to `(bs, seqlen/P, 3, hc, hs)`. -/
def mergeHeads5D (shape : List ℕ) (output : NdTensor α) : Except UlyssesError (NdTensor α) :=
  match shape with
  | [bs, seqlen, _, shardHc, hs] => do
    let x ← reshaped output [shardHc * P, seqlen / P, 3, bs, hs]
    reshaped (x.transpose 0 3) [bs, seqlen / P, 3, shardHc * P, hs]
  | _ => .error .dimensions

/-- `all_to_all_5D` of a group of `P` ranks. -/
def allToAll5D [Inhabited α] (P : ℕ) (input : ℕ → NdTensor α) (scatterIdx gatherIdx : ℕ) :
    Except UlyssesError (ℕ → NdTensor α) := do
  let _ ← onRanks P fun r => checkDims 5 (input r)
  if scatterIdx = 3 ∧ gatherIdx = 1 then exchange P (splitHeads5D P) (mergeRows5D P) input
  else if scatterIdx = 1 ∧ gatherIdx = 3 then exchange P (splitRows5D P) (mergeHeads5D P) input
  else .error .indices

/-! ## Before and after the attention -/

inductive JointStrategy
  | front
  | rear
  | other (name : List Char)
  deriving Repr, DecidableEq

/-- The part of `AttentionMetadata` that is read. -/
structure AttentionMetadata (α : Type) where
  jointQuery : Option (NdTensor α) := none
  jointKey : Option (NdTensor α) := none
  jointValue : Option (NdTensor α) := none
  jointStrategy : JointStrategy := .front

/-- `UlyssesParallelAttention`: the sizes of its groups and its two dimensions. -/
structure UlyssesParallelAttention where
  ulyssesWorldSize : ℕ
  ringWorldSize : ℕ
  scatterIdx : ℕ := 2
  gatherIdx : ℕ := 1

/-- `_UlyssesCtx`, but for what it copies from the strategy. -/
structure UlyssesCtx where
  jointLen : ℕ := 0
  jointStrategy : JointStrategy := .front
  deriving Inhabited

/-- The joint tensors of a rank, and its metadata and context. -/
structure JointPart (α : Type) where
  tensors : Option (NdTensor α × NdTensor α × NdTensor α) := none
  metadata : Option (AttentionMetadata α) := none
  ctx : UlyssesCtx := {}
  deriving Inhabited

/-- The slice of the heads for a rank. -/
def headSlice (x : NdTensor α) (headsPerRank rank : ℕ) : NdTensor α :=
  x.slice (x.shape.length - 2) (headsPerRank * rank) (headsPerRank * (rank + 1))

/-- The joint part of a rank. -/
def jointPart (P rank : ℕ) (metadata : Option (AttentionMetadata α)) :
    Except UlyssesError (JointPart α) :=
  match metadata with
  | none => .ok {}
  | some m =>
    match m.jointQuery, m.jointKey, m.jointValue with
    | some q, some k, some v =>
      match m.jointStrategy with
      | .other _ => .error .unsupportedStrategy
      | strategy =>
        let query := headSlice q (q.shape.getD (q.shape.length - 2) 0 / P) rank
        let headsKv := k.shape.getD (k.shape.length - 2) 0 / P
        let key := headSlice k headsKv rank
        let value := headSlice v headsKv rank
        .ok
          { tensors := some (query, key, value)
            metadata := some { m with jointKey := some key, jointValue := some value }
            ctx := { jointLen := query.shape.getD 1 0, jointStrategy := strategy } }
    | none, none, none =>
      .ok { metadata := some m, ctx := { jointStrategy := m.jointStrategy } }
    | _, _, _ => .error .partialJoint

/-- What `pre_attention` returns to a rank. -/
structure PreAttention (α : Type) where
  query : NdTensor α
  key : NdTensor α
  value : NdTensor α
  metadata : Option (AttentionMetadata α)
  ctx : UlyssesCtx

/-- The joint rows behind or in front of the rows of the image. -/
def joined (rear : Bool) (x joint : NdTensor α) : Except UlyssesError (NdTensor α) :=
  if rear then concatenated 1 [x, joint] else concatenated 1 [joint, x]

/-- The end of `pre_attention` on a rank. -/
def joinRank (ringWorldSize : ℕ) (part : JointPart α) (query key value : NdTensor α) :
    Except UlyssesError (PreAttention α) :=
  match part.tensors with
  | none => .ok ⟨query, key, value, part.metadata, part.ctx⟩
  | some (jointQuery, jointKey, jointValue) => do
    let query ← joined (part.ctx.jointStrategy = .rear) query jointQuery
    if 1 < ringWorldSize then .ok ⟨query, key, value, part.metadata, part.ctx⟩
    else
      let key ← joined (part.ctx.jointStrategy ≠ .front) key jointKey
      let value ← joined (part.ctx.jointStrategy ≠ .front) value jointValue
      .ok ⟨query, key, value, part.metadata, part.ctx⟩

instance [Inhabited α] : Inhabited (PreAttention α) := ⟨⟨default, default, default, none, {}⟩⟩

def preAttention [Inhabited α] (u : UlyssesParallelAttention) (query key value : ℕ → NdTensor α)
    (metadata : ℕ → Option (AttentionMetadata α)) : Except UlyssesError (ℕ → PreAttention α) := do
  let part ← onRanks u.ulyssesWorldSize fun r => jointPart u.ulyssesWorldSize r (metadata r)
  let query ← allToAll4D u.ulyssesWorldSize query u.scatterIdx u.gatherIdx
  let key ← allToAll4D u.ulyssesWorldSize key u.scatterIdx u.gatherIdx
  let value ← allToAll4D u.ulyssesWorldSize value u.scatterIdx u.gatherIdx
  onRanks u.ulyssesWorldSize fun r => joinRank u.ringWorldSize (part r) (query r) (key r) (value r)

/-- The joint rows and the rows of the image of an output. -/
def splitJoint (x : NdTensor α) (ctx : UlyssesCtx) : NdTensor α × NdTensor α :=
  let len := x.shape.getD 1 0
  if ctx.jointStrategy = .front then
    (x.slice 1 0 ctx.jointLen, x.slice 1 ctx.jointLen len)
  else (x.slice 1 (len - ctx.jointLen) len, x.slice 1 0 (len - ctx.jointLen))

/-- The joint rows of all heads and the rows of the image, put together again. -/
def recombined (ctx : UlyssesCtx) (gathered : List (NdTensor α)) (image : NdTensor α) :
    Except UlyssesError (NdTensor α) := do
  let joint ← concatenated 2 gathered
  if ctx.jointStrategy = .front then concatenated 1 [joint, image]
  else concatenated 1 [image, joint]

/-- `post_attention` of a group. -/
def postAttention [Inhabited α] (u : UlyssesParallelAttention) (attnOutput : ℕ → NdTensor α)
    (ctx : ℕ → UlyssesCtx) : Except UlyssesError (ℕ → NdTensor α) :=
  if ∀ r < u.ulyssesWorldSize, 0 < (ctx r).jointLen then do
    let image ← allToAll4D u.ulyssesWorldSize (fun r => (splitJoint (attnOutput r) (ctx r)).2)
      u.gatherIdx u.scatterIdx
    let gathered := gatheredFrom u.ulyssesWorldSize fun r => (splitJoint (attnOutput r) (ctx r)).1
    onRanks u.ulyssesWorldSize fun r => recombined (ctx r) gathered (image r)
  else if ∀ r < u.ulyssesWorldSize, (ctx r).jointLen = 0 then
    allToAll4D u.ulyssesWorldSize attnOutput u.gatherIdx u.scatterIdx
  else .error .mismatch

/-! ## Where a value goes -/

section Exchange

variable {P b n h d r q : ℕ} {x y : ℕ → NdTensor α} {t e : NdTensor α} {shape : List ℕ}

lemma reshaped_ok {shape' : List ℕ} (ht : t.shape = shape) (hprod : shape'.prod = shape.prod) :
    reshaped t shape' = .ok (t.view shape') := by
  rw [reshaped, NdTensor.reshape_eq_some (by rw [hprod, NdTensor.numel, ht])]

lemma shape_exchanged (P : ℕ) (x : ℕ → NdTensor α) (r : ℕ) :
    (exchanged P x r).shape = (x r).shape := by
  unfold exchanged
  split <;> rfl

/-- The entry for `q` comes from rank `q`, where it was the entry for `r`. -/
lemma get_exchanged (hr : r < P) (hq : q < P) (hshape : (x r).shape = P :: shape) (idx : List ℕ) :
    (exchanged P x r).get (q :: idx) = (x q).get (r :: idx) := by
  unfold exchanged
  split
  · exact get_allToAllSingle (Nat.zero_lt_of_lt hr) hshape q idx
  · next hone =>
    obtain rfl : r = 0 := by omega
    obtain rfl : q = 0 := by omega
    rfl

lemma exchange_ok [Inhabited α] {split : NdTensor α → Except UlyssesError (NdTensor α)}
    {merge : List ℕ → NdTensor α → Except UlyssesError (NdTensor α)} {A G : ℕ → NdTensor α → Prop}
    (hsplit : ∀ r < P, ∃ t, split (x r) = .ok t ∧ t.shape = P :: shape ∧ A r t)
    (hmerge : ∀ r < P, ∀ e : NdTensor α, e.shape = P :: shape →
      (∀ q < P, ∃ t, A q t ∧ ∀ idx, e.get (q :: idx) = t.get (r :: idx)) →
      ∃ z, merge (x r).shape e = .ok z ∧ G r z) :
    ∃ y, exchange P split merge x = .ok y ∧ ∀ r < P, G r (y r) := by
  obtain ⟨t, ht, hpart⟩ := onRanks_ok hsplit
  obtain ⟨y, hy, hgood⟩ := onRanks_ok fun r hr => hmerge r hr (exchanged P t r)
    (by rw [shape_exchanged, (hpart r hr).1])
    fun q hq => ⟨t q, (hpart q hq).2, get_exchanged hr hq (hpart r hr).1⟩
  refine ⟨y, ?_, hgood⟩
  rw [exchange, ht]
  exact hy

/-- A row or head in the part of a rank. -/
lemma rankBlock_lt {p j : ℕ} (hp : p < P) (hj : j < n) : p * n + j < n * P :=
  Nat.mul_comm P n ▸ block_lt hp hj

/-- Splitting the heads among the ranks. -/
lemma splitHeads4D_ok (hP : 0 < P) (ht : t.shape = [b, n, h * P, d]) :
    ∃ u, splitHeads4D P t = .ok u ∧ u.shape = [P, n, b, h, d] ∧
      ∀ p s i j k, p < P → s < n → i < b → j < h → k < d →
        u.get [p, s, i, j, k] = t.get [i, s, p * h + j, k] := by
  refine ⟨(t.view [b, n, P, h, d]).transpose 0 2, ?_, rfl, fun p s i j k hp hs hi hj hk => ?_⟩
  · rw [splitHeads4D, ht]
    simp only [Nat.mul_div_cancel h hP]
    rw [reshaped_ok ht (by simp only [prod_cons]; ring)]
    rfl
  · change (t.view [b, n, P, h, d]).get [i, s, p, j, k] = _
    exact NdTensor.get_view_split (.cons hi (.cons hs .nil)) hp hj (.cons hk .nil) ht

/-- Merging the rows of the ranks. -/
lemma mergeRows4D_ok (hP : 0 < P) (he : e.shape = [P, n, b, h, d]) :
    ∃ z, mergeRows4D P [b, n, h * P, d] e = .ok z ∧ z.shape = [b, n * P, h, d] ∧
      ∀ i q s j k, i < b → q < P → s < n → j < h → k < d →
        z.get [i, q * n + s, j, k] = e.get [q, s, i, j, k] := by
  refine ⟨((e.view [n * P, b, h, d]).transpose 0 1).view [b, n * P, h, d], ?_, rfl,
    fun i q s j k hi hq hs hj hk => ?_⟩
  · simp only [mergeRows4D, Nat.mul_div_cancel h hP]
    rw [reshaped_ok he (by simp only [prod_cons]; ring)]
    exact reshaped_ok rfl rfl
  · refine (NdTensor.get_view_self rfl
      (.cons hi (.cons (rankBlock_lt hq hs) (.cons hj (.cons hk .nil))))).trans ?_
    change (e.view [n * P, b, h, d]).get [q * n + s, i, j, k] = _
    exact NdTensor.get_view_merge .nil hq hs (.cons hi (.cons hj (.cons hk .nil))) he

/-- Splitting the rows among the ranks. -/
lemma splitRows4D_ok (hP : 0 < P) (ht : t.shape = [b, n * P, h, d]) :
    ∃ u, splitRows4D P t = .ok u ∧ u.shape = [P, h, n, b, d] ∧
      ∀ p j s i k, p < P → j < h → s < n → i < b → k < d →
        u.get [p, j, s, i, k] = t.get [i, p * n + s, j, k] := by
  refine ⟨(((t.view [b, P, n, h, d]).transpose 0 3).transpose 0 1).view [P, h, n, b, d], ?_, rfl,
    fun p j s i k hp hj hs hi hk => ?_⟩
  · rw [splitRows4D, ht]
    simp only [Nat.mul_div_cancel n hP]
    rw [reshaped_ok ht (by simp only [prod_cons]; ring)]
    exact reshaped_ok rfl rfl
  · refine (NdTensor.get_view_self rfl
      (.cons hp (.cons hj (.cons hs (.cons hi (.cons hk .nil)))))).trans ?_
    change (t.view [b, P, n, h, d]).get [i, p, s, j, k] = _
    exact NdTensor.get_view_split (.cons hi .nil) hp hs (.cons hj (.cons hk .nil)) ht

/-- Merging the heads of the ranks. -/
lemma mergeHeads4D_ok (hP : 0 < P) (he : e.shape = [P, h, n, b, d]) :
    ∃ z, mergeHeads4D P [b, n * P, h, d] e = .ok z ∧ z.shape = [b, n, h * P, d] ∧
      ∀ i s q j k, i < b → s < n → q < P → j < h → k < d →
        z.get [i, s, q * h + j, k] = e.get [q, j, s, i, k] := by
  refine ⟨((e.view [h * P, n, b, d]).transpose 0 2).view [b, n, h * P, d], ?_, rfl,
    fun i s q j k hi hs hq hj hk => ?_⟩
  · simp only [mergeHeads4D, Nat.mul_div_cancel n hP]
    rw [reshaped_ok he (by simp only [prod_cons]; ring)]
    exact reshaped_ok rfl rfl
  · refine (NdTensor.get_view_self rfl
      (.cons hi (.cons hs (.cons (rankBlock_lt hq hj) (.cons hk .nil))))).trans ?_
    change (e.view [h * P, n, b, d]).get [q * h + j, s, i, k] = _
    exact NdTensor.get_view_merge .nil hq hj (.cons hs (.cons hi (.cons hk .nil))) he

lemma div_rankBlock {t : ℕ} (ht : t < n) : (q * n + t) / n = q := by
  rw [Nat.mul_comm, Nat.mul_add_div (Nat.zero_lt_of_lt ht), Nat.div_eq_of_lt ht, Nat.add_zero]

lemma mod_rankBlock {t : ℕ} (ht : t < n) : (q * n + t) % n = t := Nat.mul_add_mod_of_lt ht

/-- The tensor has the given shape and entries. -/
structure Holds (y : NdTensor α) (b m h d : ℕ) (f : ℕ → ℕ → ℕ → ℕ → α) : Prop where
  shape : y.shape = [b, m, h, d]
  get : ∀ i s j k, i < b → s < m → j < h → k < d → y.get [i, s, j, k] = f i s j k

/-- The row `s` of a sequence that is cut into shards of `n` rows. -/
def wholeRow (n : ℕ) (x : ℕ → NdTensor α) (i s c k : ℕ) : α := (x (s / n)).get [i, s % n, c, k]

lemma checkDims_ok (dims : ℕ) (hx : ∀ r < P, (x r).shape.length = dims) :
    ∃ u, onRanks P (fun r => checkDims dims (x r)) = .ok u := by
  obtain ⟨u, hu, -⟩ := onRanks_ok (Q := fun _ _ => True) fun r hr =>
    ⟨(), show checkDims dims (x r) = .ok () from if_pos (hx r hr), trivial⟩
  exact ⟨u, hu⟩

/-- Before the attention: a rank gets all rows, for its heads. -/
lemma allToAll4D_forward [Inhabited α] (hx : ∀ r < P, (x r).shape = [b, n, h * P, d]) :
    ∃ y, allToAll4D P x 2 1 = .ok y ∧
      ∀ r < P, Holds (y r) b (n * P) h d fun i s j k => wholeRow n x i s (r * h + j) k := by
  obtain ⟨u, hu⟩ := checkDims_ok 4 fun r hr => congrArg length (hx r hr)
  obtain ⟨y, hy, hgood⟩ := exchange_ok
    (G := fun r z => Holds z b (n * P) h d fun i s j k => wholeRow n x i s (r * h + j) k)
    (fun r hr => splitHeads4D_ok (Nat.zero_lt_of_lt hr) (hx r hr))
    fun r hr e he hparts => by
      obtain ⟨z, hz, hshape, hget⟩ := mergeRows4D_ok (Nat.zero_lt_of_lt hr) he
      refine ⟨z, hx r hr ▸ hz, hshape, fun i s j k hi hs hj hk => ?_⟩
      obtain ⟨q, t, hq, ht, rfl⟩ := exists_block hs
      obtain ⟨u, hu, hget'⟩ := hparts q hq
      rw [hget i q t j k hi hq ht hj hk, hget', hu r t i j k hr ht hi hj hk, wholeRow,
        div_rankBlock ht, mod_rankBlock ht]
  refine ⟨y, ?_, hgood⟩
  rw [allToAll4D, hu]
  exact hy

/-- After the attention: a rank gets its rows, for all heads. -/
lemma allToAll4D_backward [Inhabited α] (hx : ∀ r < P, (x r).shape = [b, n * P, h, d]) :
    ∃ y, allToAll4D P x 1 2 = .ok y ∧
      ∀ r < P, Holds (y r) b n (h * P) d
        fun i s c k => (x (c / h)).get [i, r * n + s, c % h, k] := by
  obtain ⟨u, hu⟩ := checkDims_ok 4 fun r hr => congrArg length (hx r hr)
  obtain ⟨y, hy, hgood⟩ := exchange_ok
    (G := fun r z => Holds z b n (h * P) d
      fun i s c k => (x (c / h)).get [i, r * n + s, c % h, k])
    (fun r hr => splitRows4D_ok (Nat.zero_lt_of_lt hr) (hx r hr))
    fun r hr e he hparts => by
      obtain ⟨z, hz, hshape, hget⟩ := mergeHeads4D_ok (Nat.zero_lt_of_lt hr) he
      refine ⟨z, hx r hr ▸ hz, hshape, fun i s c k hi hs hc hk => ?_⟩
      obtain ⟨q, j, hq, hj, rfl⟩ := exists_block hc
      obtain ⟨u, hu, hget'⟩ := hparts q hq
      rw [hget i s q j k hi hs hq hj hk, hget', hu r j s i k hr hj hs hi hk, div_rankBlock hj,
        mod_rankBlock hj]
  refine ⟨y, ?_, hgood⟩
  rw [allToAll4D, hu]
  exact hy

/-- Splitting the heads of all three. -/
lemma splitHeads5D_ok (hP : 0 < P) (ht : t.shape = [b, n, 3, h * P, d]) :
    ∃ u, splitHeads5D P t = .ok u ∧ u.shape = [P, n, 3, b, h, d] ∧
      ∀ p s c i j k, p < P → s < n → c < 3 → i < b → j < h → k < d →
        u.get [p, s, c, i, j, k] = t.get [i, s, c, p * h + j, k] := by
  refine ⟨(t.view [b, n, 3, P, h, d]).transpose 0 3, ?_, rfl,
    fun p s c i j k hp hs hc hi hj hk => ?_⟩
  · rw [splitHeads5D, ht]
    simp only [Nat.mul_div_cancel h hP, if_true]
    rw [reshaped_ok ht (by simp only [prod_cons]; ring)]
    rfl
  · change (t.view [b, n, 3, P, h, d]).get [i, s, c, p, j, k] = _
    exact NdTensor.get_view_split (.cons hi (.cons hs (.cons hc .nil))) hp hj (.cons hk .nil) ht

/-- Merging the rows of all three. -/
lemma mergeRows5D_ok (hP : 0 < P) (he : e.shape = [P, n, 3, b, h, d]) :
    ∃ z, mergeRows5D P [b, n, 3, h * P, d] e = .ok z ∧ z.shape = [b, n * P, 3, h, d] ∧
      ∀ i q s c j k, i < b → q < P → s < n → c < 3 → j < h → k < d →
        z.get [i, q * n + s, c, j, k] = e.get [q, s, c, i, j, k] := by
  refine ⟨(((e.view [n * P, 3, b, h, d]).transpose 0 2).transpose 1 2).view [b, n * P, 3, h, d], ?_,
    rfl, fun i q s c j k hi hq hs hc hj hk => ?_⟩
  · simp only [mergeRows5D, Nat.mul_div_cancel h hP]
    rw [reshaped_ok he (by simp only [prod_cons]; ring)]
    exact reshaped_ok rfl rfl
  · refine (NdTensor.get_view_self rfl
      (.cons hi (.cons (rankBlock_lt hq hs) (.cons hc (.cons hj (.cons hk .nil)))))).trans ?_
    change (e.view [n * P, 3, b, h, d]).get [q * n + s, c, i, j, k] = _
    exact NdTensor.get_view_merge .nil hq hs (.cons hc (.cons hi (.cons hj (.cons hk .nil)))) he

/-- Splitting the rows of all three. -/
lemma splitRows5D_ok (hP : 0 < P) (ht : t.shape = [b, n * P, 3, h, d]) :
    ∃ u, splitRows5D P t = .ok u ∧ u.shape = [P, h, n, 3, b, d] ∧
      ∀ p j s c i k, p < P → j < h → s < n → c < 3 → i < b → k < d →
        u.get [p, j, s, c, i, k] = t.get [i, p * n + s, c, j, k] := by
  refine ⟨(((t.view [b, P, n, 3, h, d]).transpose 0 4).transpose 0 1).view [P, h, n, 3, b, d], ?_,
    rfl, fun p j s c i k hp hj hs hc hi hk => ?_⟩
  · rw [splitRows5D, ht]
    simp only [Nat.mul_div_cancel n hP]
    rw [reshaped_ok ht (by simp only [prod_cons]; ring)]
    exact reshaped_ok rfl rfl
  · refine (NdTensor.get_view_self rfl
      (.cons hp (.cons hj (.cons hs (.cons hc (.cons hi (.cons hk .nil))))))).trans ?_
    change (t.view [b, P, n, 3, h, d]).get [i, p, s, c, j, k] = _
    exact NdTensor.get_view_split (.cons hi .nil) hp hs (.cons hc (.cons hj (.cons hk .nil))) ht

/-- Merging the heads of all three. -/
lemma mergeHeads5D_ok (hP : 0 < P) (he : e.shape = [P, h, n, 3, b, d]) :
    ∃ z, mergeHeads5D P [b, n * P, 3, h, d] e = .ok z ∧ z.shape = [b, n, 3, h * P, d] ∧
      ∀ i s c q j k, i < b → s < n → c < 3 → q < P → j < h → k < d →
        z.get [i, s, c, q * h + j, k] = e.get [q, j, s, c, i, k] := by
  refine ⟨((e.view [h * P, n, 3, b, d]).transpose 0 3).view [b, n, 3, h * P, d], ?_, rfl,
    fun i s c q j k hi hs hc hq hj hk => ?_⟩
  · simp only [mergeHeads5D, Nat.mul_div_cancel n hP]
    rw [reshaped_ok he (by simp only [prod_cons]; ring)]
    exact reshaped_ok rfl rfl
  · refine (NdTensor.get_view_self rfl
      (.cons hi (.cons hs (.cons hc (.cons (rankBlock_lt hq hj) (.cons hk .nil)))))).trans ?_
    change (e.view [h * P, n, 3, b, d]).get [q * h + j, s, c, i, k] = _
    exact NdTensor.get_view_merge .nil hq hj (.cons hs (.cons hc (.cons hi (.cons hk .nil)))) he

/-- Before the attention, for query, key and value in one tensor. -/
lemma allToAll5D_forward [Inhabited α] (hx : ∀ r < P, (x r).shape = [b, n, 3, h * P, d]) :
    ∃ y, allToAll5D P x 3 1 = .ok y ∧
      ∀ r < P, (y r).shape = [b, n * P, 3, h, d] ∧
        ∀ i s c j k, i < b → s < n * P → c < 3 → j < h → k < d →
          (y r).get [i, s, c, j, k] = (x (s / n)).get [i, s % n, c, r * h + j, k] := by
  obtain ⟨u, hu⟩ := checkDims_ok 5 fun r hr => congrArg length (hx r hr)
  obtain ⟨y, hy, hgood⟩ := exchange_ok
    (G := fun r z => z.shape = [b, n * P, 3, h, d] ∧
      ∀ i s c j k, i < b → s < n * P → c < 3 → j < h → k < d →
        z.get [i, s, c, j, k] = (x (s / n)).get [i, s % n, c, r * h + j, k])
    (fun r hr => splitHeads5D_ok (Nat.zero_lt_of_lt hr) (hx r hr))
    fun r hr e he hparts => by
      obtain ⟨z, hz, hshape, hget⟩ := mergeRows5D_ok (Nat.zero_lt_of_lt hr) he
      refine ⟨z, hx r hr ▸ hz, hshape, fun i s c j k hi hs hc hj hk => ?_⟩
      obtain ⟨q, t, hq, ht, rfl⟩ := exists_block hs
      obtain ⟨u, hu, hget'⟩ := hparts q hq
      rw [hget i q t c j k hi hq ht hc hj hk, hget', hu r t c i j k hr ht hc hi hj hk,
        div_rankBlock ht, mod_rankBlock ht]
  refine ⟨y, ?_, hgood⟩
  rw [allToAll5D, hu]
  exact hy

/-- After the attention, for query, key and value in one tensor. -/
lemma allToAll5D_backward [Inhabited α] (hx : ∀ r < P, (x r).shape = [b, n * P, 3, h, d]) :
    ∃ y, allToAll5D P x 1 3 = .ok y ∧
      ∀ r < P, (y r).shape = [b, n, 3, h * P, d] ∧
        ∀ i s c g k, i < b → s < n → c < 3 → g < h * P → k < d →
          (y r).get [i, s, c, g, k] = (x (g / h)).get [i, r * n + s, c, g % h, k] := by
  obtain ⟨u, hu⟩ := checkDims_ok 5 fun r hr => congrArg length (hx r hr)
  obtain ⟨y, hy, hgood⟩ := exchange_ok
    (G := fun r z => z.shape = [b, n, 3, h * P, d] ∧
      ∀ i s c g k, i < b → s < n → c < 3 → g < h * P → k < d →
        z.get [i, s, c, g, k] = (x (g / h)).get [i, r * n + s, c, g % h, k])
    (fun r hr => splitRows5D_ok (Nat.zero_lt_of_lt hr) (hx r hr))
    fun r hr e he hparts => by
      obtain ⟨z, hz, hshape, hget⟩ := mergeHeads5D_ok (Nat.zero_lt_of_lt hr) he
      refine ⟨z, hx r hr ▸ hz, hshape, fun i s c g k hi hs hc hg hk => ?_⟩
      obtain ⟨q, j, hq, hj, rfl⟩ := exists_block hg
      obtain ⟨u, hu, hget'⟩ := hparts q hq
      rw [hget i s c q j k hi hs hc hq hj hk, hget', hu r j s c i k hr hj hs hc hi hk,
        div_rankBlock hj, mod_rankBlock hj]
  refine ⟨y, ?_, hgood⟩
  rw [allToAll5D, hu]
  exact hy

end Exchange

/-! ## The joint rows -/

/-- The place of a row of the image beside `L` joint rows. -/
def imageRow (strategy : JointStrategy) (L s : ℕ) : ℕ := if strategy = .rear then s else L + s

/-- The place of a joint row beside `m` rows of the image. -/
def jointRow (strategy : JointStrategy) (m s : ℕ) : ℕ := if strategy = .rear then m + s else s

/-- The tensor has `L` joint rows and `m` rows of the image, each once, where the strategy says. -/
structure HoldsJoined (y : NdTensor α) (strategy : JointStrategy) (b L m h d : ℕ)
    (joint image : ℕ → ℕ → ℕ → ℕ → α) : Prop where
  shape : y.shape = [b, L + m, h, d]
  joint : ∀ i s j k, i < b → s < L → j < h → k < d →
    y.get [i, jointRow strategy m s, j, k] = joint i s j k
  image : ∀ i s j k, i < b → s < m → j < h → k < d →
    y.get [i, imageRow strategy L s, j, k] = image i s j k

section Joint

variable {P b n h d r L m : ℕ} {x y t : NdTensor α} {f g : ℕ → ℕ → ℕ → ℕ → α}
  {strategy : JointStrategy}

/-- Rows behind rows. -/
lemma concatenated_rows (hx : Holds x b L h d f) (hy : Holds y b m h d g) :
    ∃ z, concatenated 1 [x, y] = .ok z ∧ z.shape = [b, L + m, h, d] ∧
      (∀ i s j k, i < b → s < L → j < h → k < d → z.get [i, s, j, k] = f i s j k) ∧
      ∀ i s j k, i < b → s < m → j < h → k < d → z.get [i, L + s, j, k] = g i s j k := by
  refine ⟨x.append 1 y, ?_, ?_, fun i s j k hi hs hj hk => ?_, fun i s j k hi hs hj hk => ?_⟩
  · rw [concatenated, NdTensor.cat_cons rfl (by rw [hx.shape, hy.shape]; rfl)]
  · simp [NdTensor.append, hx.shape, hy.shape]
  · rw [NdTensor.get_append_left (by simpa [hx.shape] using hs), hx.get i s j k hi hs hj hk]
  · rw [NdTensor.get_append_right (by simp [hx.shape]), ← hy.get i s j k hi hs hj hk]
    simp [hx.shape]

/-- The joint rows, in front or behind. -/
lemma joined_ok {rear : Bool} (hrear : rear = true ↔ strategy = .rear) (hx : Holds x b m h d f)
    (ht : Holds t b L h d g) :
    ∃ y, joined rear x t = .ok y ∧ HoldsJoined y strategy b L m h d g f := by
  unfold joined
  split
  · next htrue =>
    obtain ⟨z, hz, hshape, hleft, hright⟩ := concatenated_rows hx ht
    have hstrategy := hrear.mp htrue
    refine ⟨z, hz, by rw [hshape, Nat.add_comm], ?_, ?_⟩
    · simpa only [jointRow, if_pos hstrategy] using hright
    · simpa only [imageRow, if_pos hstrategy] using hleft
  · next hfalse =>
    obtain ⟨z, hz, hshape, hleft, hright⟩ := concatenated_rows ht hx
    have hstrategy : strategy ≠ .rear := fun h => hfalse (hrear.mpr h)
    refine ⟨z, hz, hshape, ?_, ?_⟩
    · simpa only [jointRow, if_neg hstrategy] using hleft
    · simpa only [imageRow, if_neg hstrategy] using hright

lemma Holds.joined (hx : Holds x b m h d f) (strategy : JointStrategy)
    (g : ℕ → ℕ → ℕ → ℕ → α) : HoldsJoined x strategy b 0 m h d g f := by
  refine ⟨by rw [hx.shape, Nat.zero_add], fun _ s _ _ _ hs => absurd hs (Nat.not_lt_zero s), ?_⟩
  simpa only [imageRow, Nat.zero_add, ite_self] using hx.get

lemma HoldsJoined.holds (hx : HoldsJoined x strategy b 0 m h d g f) : Holds x b m h d f := by
  refine ⟨by rw [hx.shape, Nat.zero_add], ?_⟩
  simpa only [imageRow, Nat.zero_add, ite_self] using hx.image

/-- The heads of a rank. -/
lemma headSlice_ok (hr : r < P) (hx : x.shape = [b, L, h * P, d]) :
    Holds (headSlice x h r) b L h d fun i s j k => x.get [i, s, r * h + j, k] := by
  have hstop : h * min (r + 1) P - h * r = h := by
    rw [Nat.min_eq_left hr, Nat.mul_succ, Nat.add_sub_cancel_left]
  refine ⟨?_, fun i s j k _ _ _ _ => ?_⟩
  · simp [headSlice, NdTensor.slice, hx, hstop]
  · simp [headSlice, NdTensor.slice, hx, Nat.mul_comm h r, Nat.add_comm j]

/-- The joint rows and those of the image are found again. -/
lemma splitJoint_ok (hstrategy : strategy = .front ∨ strategy = .rear)
    (hx : HoldsJoined x strategy b L m h d g f) :
    Holds (splitJoint x ⟨L, strategy⟩).1 b L h d g ∧
      Holds (splitJoint x ⟨L, strategy⟩).2 b m h d f := by
  have hlen : x.shape.getD 1 0 = L + m := by rw [hx.shape]; rfl
  obtain rfl | rfl := hstrategy
  · simp only [splitJoint, hlen, if_true]
    refine ⟨⟨?_, fun i s j k hi hs hj hk => ?_⟩, ⟨?_, fun i s j k hi hs hj hk => ?_⟩⟩
    · simp [NdTensor.slice, hx.shape]
    · simpa [NdTensor.slice, jointRow] using hx.joint i s j k hi hs hj hk
    · simp [NdTensor.slice, hx.shape]
    · simpa [NdTensor.slice, imageRow, Nat.add_comm] using hx.image i s j k hi hs hj hk
  · simp only [splitJoint, hlen, if_neg (show JointStrategy.rear ≠ .front by decide),
      Nat.add_sub_cancel_left]
    refine ⟨⟨?_, fun i s j k hi hs hj hk => ?_⟩, ⟨?_, fun i s j k hi hs hj hk => ?_⟩⟩
    · simp [NdTensor.slice, hx.shape]
    · simpa [NdTensor.slice, jointRow, Nat.add_comm] using hx.joint i s j k hi hs hj hk
    · simp [NdTensor.slice, hx.shape]
    · simpa [NdTensor.slice, imageRow] using hx.image i s j k hi hs hj hk

lemma concatenated_heads (hP : 0 < P) {x : ℕ → NdTensor α} {f : ℕ → ℕ → ℕ → ℕ → ℕ → α}
    (hx : ∀ r < P, Holds (x r) b L h d (f r)) :
    ∃ z, concatenated 2 (gatheredFrom P x) = .ok z ∧
      Holds z b L (h * P) d fun i s c k => f (c / h) i s (c % h) k := by
  have hshape : ∀ t ∈ gatheredFrom P x, t.shape = [b, L, h, d] := by
    intro t ht
    obtain ⟨r, hr, rfl⟩ := mem_map.mp ht
    exact (hx r (mem_range.mp hr)).shape
  have hne : gatheredFrom P x ≠ [] := by simp [gatheredFrom, hP.ne']
  obtain ⟨z, hz, hzshape, hget⟩ := NdTensor.cat_of_forall_shape hne
    (show 2 < [b, L, h, d].length by simp) hshape
  refine ⟨z, by rw [concatenated, hz], ?_, fun i s c k hi hs hc hk => ?_⟩
  · simp [hzshape, gatheredFrom, Nat.mul_comm]
  · obtain ⟨q, j, hq, hj, rfl⟩ := exists_block hc
    rw [hget q (by simpa [gatheredFrom] using hq) [i, s, q * h + j, k] j hj rfl, div_rankBlock hj,
      mod_rankBlock hj]
    simpa [gatheredFrom] using (hx q hq).get i s j k hi hs hj hk

lemma recombined_ok {gathered : List (NdTensor α)}
    (hstrategy : strategy = .front ∨ strategy = .rear) (ht : concatenated 2 gathered = .ok t)
    (hjoint : Holds t b L h d g) (himage : Holds x b m h d f) :
    ∃ y, recombined ⟨L, strategy⟩ gathered x = .ok y ∧ HoldsJoined y strategy b L m h d g f := by
  have hrear : (decide (strategy ≠ .front)) = true ↔ strategy = .rear := by
    rcases hstrategy with h | h <;> simp [h]
  obtain ⟨y, hy, hjoined⟩ := joined_ok hrear himage hjoint
  refine ⟨y, ?_, hjoined⟩
  rw [recombined, ht, ← hy, joined]
  rcases hstrategy with h | h <;> simp only [h] <;> rfl

/-- The joint tensors of a call: none, or all three, with the heads of query and key. -/
def JointInput (m : AttentionMetadata α) (b L headsQ headsK d : ℕ) : Prop :=
  (m.jointQuery = none ∧ m.jointKey = none ∧ m.jointValue = none ∧ L = 0) ∨
    ∃ q k v, m.jointQuery = some q ∧ m.jointKey = some k ∧ m.jointValue = some v ∧
      q.shape = [b, L, headsQ, d] ∧ k.shape = [b, L, headsK, d] ∧ v.shape = [b, L, headsK, d] ∧
      (m.jointStrategy = .front ∨ m.jointStrategy = .rear)

/-- The rows of a joint tensor, for the heads from `c` on. -/
def jointRows [Inhabited α] (t : Option (NdTensor α)) (c i s j k : ℕ) : α :=
  (t.getD default).get [i, s, c + j, k]

end Joint

/-! ## What the exchange is for -/

section Attention

variable [Inhabited α] {u : UlyssesParallelAttention} {b n L hq hk d r : ℕ}
  {query key value : ℕ → NdTensor α} {metadata : Option (AttentionMetadata α)}
  {m : AttentionMetadata α}

/-- What `pre_attention` gives rank `r`: for its heads, all rows of the image in order, joined once
with the joint rows. Under ring attention those of key and value are left to the metadata. -/
structure PreRight (u : UlyssesParallelAttention) (m : AttentionMetadata α) (b n L hq hk d : ℕ)
    (query key value : ℕ → NdTensor α) (r : ℕ) (o : PreAttention α) : Prop where
  ctx : o.ctx = ⟨L, m.jointStrategy⟩
  query : HoldsJoined o.query m.jointStrategy b L (n * u.ulyssesWorldSize) hq d
    (jointRows m.jointQuery (r * hq)) fun i s j k => wholeRow n query i s (r * hq + j) k
  key : HoldsJoined o.key m.jointStrategy b (if 1 < u.ringWorldSize then 0 else L)
    (n * u.ulyssesWorldSize) hk d
    (jointRows m.jointKey (r * hk)) fun i s j k => wholeRow n key i s (r * hk + j) k
  value : HoldsJoined o.value m.jointStrategy b (if 1 < u.ringWorldSize then 0 else L)
    (n * u.ulyssesWorldSize) hk d
    (jointRows m.jointValue (r * hk)) fun i s j k => wholeRow n value i s (r * hk + j) k
  metadata : m.jointKey.isSome → ∃ m' k v, o.metadata = some m' ∧ m'.jointKey = some k ∧
    m'.jointValue = some v ∧ Holds k b L hk d (jointRows m.jointKey (r * hk)) ∧
    Holds v b L hk d (jointRows m.jointValue (r * hk))

/-- The joint part of a rank. -/
inductive PartRight (m : AttentionMetadata α) (b L hq hk d r : ℕ) : JointPart α → Prop
  | absent (metadata : Option (AttentionMetadata α)) (hL : L = 0) (hkey : m.jointKey = none) :
      PartRight m b L hq hk d r ⟨none, metadata, ⟨L, m.jointStrategy⟩⟩
  | present {q k v : NdTensor α} {m' : AttentionMetadata α}
      (hstrategy : m.jointStrategy = .front ∨ m.jointStrategy = .rear)
      (hq' : Holds q b L hq d (jointRows m.jointQuery (r * hq)))
      (hk' : Holds k b L hk d (jointRows m.jointKey (r * hk)))
      (hv' : Holds v b L hk d (jointRows m.jointValue (r * hk)))
      (hkey : m'.jointKey = some k) (hvalue : m'.jointValue = some v) :
      PartRight m b L hq hk d r ⟨some (q, k, v), some m', ⟨L, m.jointStrategy⟩⟩

lemma jointPart_ok {P : ℕ} (hr : r < P)
    (hjoint : JointInput (metadata.getD {}) b L (hq * P) (hk * P) d) :
    ∃ part, jointPart P r metadata = .ok part ∧
      PartRight (metadata.getD {}) b L hq hk d r part := by
  have hP : 0 < P := Nat.zero_lt_of_lt hr
  cases metadata with
  | none =>
    obtain ⟨-, hkey, -, rfl⟩ | ⟨q, k, v, hjq, -⟩ := hjoint
    · exact ⟨_, rfl, .absent none rfl hkey⟩
    · cases hjq
  | some m =>
    rw [Option.getD_some] at hjoint ⊢
    obtain ⟨hjq, hjk, hjv, rfl⟩ | ⟨q, k, v, hjq, hjk, hjv, hqs, hks, hvs, hstrategy⟩ := hjoint
    · refine ⟨_, ?_, .absent (some m) rfl hjk⟩
      simp only [jointPart, hjq, hjk, hjv]
    · have hdivq : q.shape.getD (q.shape.length - 2) 0 / P = hq := by
        rw [hqs]
        exact Nat.mul_div_cancel hq hP
      have hdivk : k.shape.getD (k.shape.length - 2) 0 / P = hk := by
        rw [hks]
        exact Nat.mul_div_cancel hk hP
      have hq' := headSlice_ok hr hqs
      have hlen : (headSlice q hq r).shape.getD 1 0 = L := by
        rw [hq'.shape]
        rfl
      have hpart : jointPart P r (some m) = .ok
          { tensors := some (headSlice q hq r, headSlice k hk r, headSlice v hk r)
            metadata := some { m with
              jointKey := some (headSlice k hk r), jointValue := some (headSlice v hk r) }
            ctx := ⟨L, m.jointStrategy⟩ } := by
        simp only [jointPart, hjq, hjk, hjv, hdivq, hdivk, hlen]
        rcases hstrategy with h | h <;> rw [h]
      refine ⟨_, hpart, .present hstrategy ?_ ?_ ?_ rfl rfl⟩
      · rw [hjq]
        exact hq'
      · rw [hjk]
        exact headSlice_ok hr hks
      · rw [hjv]
        exact headSlice_ok hr hvs

lemma joinRank_ok {part : JointPart α} (hpart : PartRight m b L hq hk d r part)
    {q k v : NdTensor α}
    (hquery : Holds q b (n * u.ulyssesWorldSize) hq d
      fun i s j k => wholeRow n query i s (r * hq + j) k)
    (hkey : Holds k b (n * u.ulyssesWorldSize) hk d
      fun i s j k => wholeRow n key i s (r * hk + j) k)
    (hvalue : Holds v b (n * u.ulyssesWorldSize) hk d
      fun i s j k => wholeRow n value i s (r * hk + j) k) :
    ∃ o, joinRank u.ringWorldSize part q k v = .ok o ∧
      PreRight u m b n L hq hk d query key value r o := by
  cases hpart with
  | absent metadata hL hnone =>
    subst hL
    refine ⟨_, rfl, rfl, hquery.joined _ _, ?_, ?_, fun h => ?_⟩
    · simpa only [ite_self] using hkey.joined _ _
    · simpa only [ite_self] using hvalue.joined _ _
    · rw [hnone] at h
      cases h
  | @present q' k' v' m' hstrategy hq' hk' hv' hkey' hvalue' =>
    have hrear : (decide (m.jointStrategy ≠ .front)) = true ↔ m.jointStrategy = .rear := by
      rcases hstrategy with h | h <;> simp [h]
    obtain ⟨y, hy, hjoined⟩ := joined_ok (decide_eq_true_iff) hquery hq'
    have hmeta : m.jointKey.isSome → ∃ m'' k v, some m' = some m'' ∧ m''.jointKey = some k ∧
        m''.jointValue = some v ∧ Holds k b L hk d (jointRows m.jointKey (r * hk)) ∧
        Holds v b L hk d (jointRows m.jointValue (r * hk)) :=
      fun _ => ⟨m', k', v', rfl, hkey', hvalue', hk', hv'⟩
    by_cases hring : 1 < u.ringWorldSize
    · refine ⟨⟨y, k, v, some m', ⟨L, m.jointStrategy⟩⟩, ?_, rfl, hjoined, ?_, ?_, hmeta⟩
      · simp only [joinRank, hy, hring]
        rfl
      · simpa only [if_pos hring] using hkey.joined _ _
      · simpa only [if_pos hring] using hvalue.joined _ _
    · obtain ⟨ky, hky, hkjoined⟩ := joined_ok hrear hkey hk'
      obtain ⟨vy, hvy, hvjoined⟩ := joined_ok hrear hvalue hv'
      refine ⟨⟨y, ky, vy, some m', ⟨L, m.jointStrategy⟩⟩, ?_, rfl, hjoined, ?_, ?_, hmeta⟩
      · simp only [joinRank, hy, hring, if_false, hky, hvy]
        rfl
      · rwa [if_neg hring]
      · rwa [if_neg hring]

/-- The way back from the whole sequence. -/
lemma allToAll4D_roundTrip {P h : ℕ} {x z : ℕ → NdTensor α}
    (hz : ∀ r < P, Holds (z r) b (n * P) h d fun i s j k => wholeRow n x i s (r * h + j) k) :
    ∃ y, allToAll4D P z 1 2 = .ok y ∧
      ∀ r < P, Holds (y r) b n (h * P) d fun i s c k => (x r).get [i, s, c, k] := by
  obtain ⟨y, hy, hback⟩ := allToAll4D_backward fun r hr => (hz r hr).shape
  refine ⟨y, hy, fun r hr => ⟨(hback r hr).shape, fun i s c k hi hs hc hk => ?_⟩⟩
  rw [(hback r hr).get i s c k hi hs hc hk]
  obtain ⟨q, j, hq, hj, rfl⟩ := exists_block hc
  rw [div_rankBlock hj, mod_rankBlock hj, (hz q hq).get i _ j k hi (rankBlock_lt hr hs) hj hk,
    wholeRow, div_rankBlock hs, mod_rankBlock hs]

lemma postAttention_ok (hP : 0 < u.ulyssesWorldSize) (hscatter : u.scatterIdx = 2)
    (hgather : u.gatherIdx = 1) {y : ℕ → NdTensor α} {ctx : ℕ → UlyssesCtx}
    {strategy : JointStrategy} {joint : Option (NdTensor α)}
    (hctx : ∀ r < u.ulyssesWorldSize, ctx r = ⟨L, strategy⟩)
    (hstrategy : 0 < L → strategy = .front ∨ strategy = .rear)
    (hy : ∀ r < u.ulyssesWorldSize, HoldsJoined (y r) strategy b L (n * u.ulyssesWorldSize) hq d
      (jointRows joint (r * hq)) fun i s j k => wholeRow n query i s (r * hq + j) k) :
    ∃ out, postAttention u y ctx = .ok out ∧ ∀ r < u.ulyssesWorldSize,
      HoldsJoined (out r) strategy b L n (hq * u.ulyssesWorldSize) d (jointRows joint 0)
        fun i s c k => (query r).get [i, s, c, k] := by
  rw [postAttention, hscatter, hgather]
  rcases Nat.eq_zero_or_pos L with rfl | hL
  · have hnone : ¬ ∀ r < u.ulyssesWorldSize, 0 < (ctx r).jointLen := by
      intro h
      have hpos := h 0 hP
      rw [hctx 0 hP] at hpos
      exact Nat.lt_irrefl 0 hpos
    rw [if_neg hnone, if_pos fun r hr => by rw [hctx r hr]]
    obtain ⟨out, hout, hright⟩ := allToAll4D_roundTrip fun r hr => (hy r hr).holds
    exact ⟨out, hout, fun r hr => (hright r hr).joined _ _⟩
  · rw [if_pos fun r hr => by rw [hctx r hr]; exact hL]
    have hsplit (r : ℕ) (hr : r < u.ulyssesWorldSize) :=
      hctx r hr ▸ splitJoint_ok (hstrategy hL) (hy r hr)
    obtain ⟨image, himage, himages⟩ := allToAll4D_roundTrip fun r hr => (hsplit r hr).2
    obtain ⟨z, hz, hheads⟩ := concatenated_heads hP fun r hr => (hsplit r hr).1
    have hjoint : Holds z b L (hq * u.ulyssesWorldSize) d (jointRows joint 0) := by
      refine ⟨hheads.shape, fun i s c k hi hs hc hk => ?_⟩
      rw [hheads.get i s c k hi hs hc hk, jointRows, jointRows, Nat.zero_add, Nat.mul_comm,
        Nat.div_add_mod]
    obtain ⟨out, hout, hright⟩ := onRanks_ok fun r hr =>
      hctx r hr ▸ recombined_ok (hstrategy hL) hz hjoint (himages r hr)
    refine ⟨out, ?_, hright⟩
    rw [himage]
    exact hout

/-- `pre_attention` of a group. -/
lemma preAttention_ok (hscatter : u.scatterIdx = 2) (hgather : u.gatherIdx = 1)
    (hquery : ∀ r < u.ulyssesWorldSize, (query r).shape = [b, n, hq * u.ulyssesWorldSize, d])
    (hkey : ∀ r < u.ulyssesWorldSize, (key r).shape = [b, n, hk * u.ulyssesWorldSize, d])
    (hvalue : ∀ r < u.ulyssesWorldSize, (value r).shape = [b, n, hk * u.ulyssesWorldSize, d])
    (hjoint : JointInput (metadata.getD {}) b L (hq * u.ulyssesWorldSize)
      (hk * u.ulyssesWorldSize) d) :
    ∃ pre, preAttention u query key value (fun _ => metadata) = .ok pre ∧
      ∀ r < u.ulyssesWorldSize,
        PreRight u (metadata.getD {}) b n L hq hk d query key value r (pre r) := by
  obtain ⟨part, hpart, hparts⟩ := onRanks_ok fun r hr => jointPart_ok hr hjoint
  obtain ⟨q, hq, hqs⟩ := allToAll4D_forward hquery
  obtain ⟨k, hk, hks⟩ := allToAll4D_forward hkey
  obtain ⟨v, hv, hvs⟩ := allToAll4D_forward hvalue
  obtain ⟨pre, hpre, hright⟩ := onRanks_ok fun r hr =>
    joinRank_ok (u := u) (hparts r hr) (hqs r hr) (hks r hr) (hvs r hr)
  refine ⟨pre, ?_, hright⟩
  simp only [preAttention, hscatter, hgather, hpart, hq, hk, hv]
  exact hpre

/-- `pre_attention` gives every rank its heads of the whole image and of the joint rows, and
`post_attention` gives back the query of an attention that returns it. `all_to_all_5D` does the same
for query, key and value in one tensor. -/
theorem ulysses_redistributes (hP : 0 < u.ulyssesWorldSize) (hscatter : u.scatterIdx = 2)
    (hgather : u.gatherIdx = 1)
    (hquery : ∀ r < u.ulyssesWorldSize, (query r).shape = [b, n, hq * u.ulyssesWorldSize, d])
    (hkey : ∀ r < u.ulyssesWorldSize, (key r).shape = [b, n, hk * u.ulyssesWorldSize, d])
    (hvalue : ∀ r < u.ulyssesWorldSize, (value r).shape = [b, n, hk * u.ulyssesWorldSize, d])
    (hjoint : JointInput (metadata.getD {}) b L (hq * u.ulyssesWorldSize)
      (hk * u.ulyssesWorldSize) d)
    {qkv : ℕ → NdTensor α}
    (hqkv : ∀ r < u.ulyssesWorldSize, (qkv r).shape = [b, n, 3, hq * u.ulyssesWorldSize, d]) :
    (∃ pre, preAttention u query key value (fun _ => metadata) = .ok pre ∧
      (∀ r < u.ulyssesWorldSize,
        PreRight u (metadata.getD {}) b n L hq hk d query key value r (pre r)) ∧
      ∃ out, postAttention u (fun r => (pre r).query) (fun r => (pre r).ctx) = .ok out ∧
        ∀ r < u.ulyssesWorldSize,
          HoldsJoined (out r) (metadata.getD {}).jointStrategy b L n (hq * u.ulyssesWorldSize) d
            (jointRows (metadata.getD {}).jointQuery 0) fun i s c k => (query r).get [i, s, c, k]) ∧
    ∃ y, allToAll5D u.ulyssesWorldSize qkv 3 1 = .ok y ∧
      (∀ r < u.ulyssesWorldSize, (y r).shape = [b, n * u.ulyssesWorldSize, 3, hq, d] ∧
        ∀ i s c j k, i < b → s < n * u.ulyssesWorldSize → c < 3 → j < hq → k < d →
          (y r).get [i, s, c, j, k] = (qkv (s / n)).get [i, s % n, c, r * hq + j, k]) ∧
      ∃ z, allToAll5D u.ulyssesWorldSize y 1 3 = .ok z ∧
        ∀ r < u.ulyssesWorldSize, (z r).shape = [b, n, 3, hq * u.ulyssesWorldSize, d] ∧
          ∀ i s c g k, i < b → s < n → c < 3 → g < hq * u.ulyssesWorldSize → k < d →
            (z r).get [i, s, c, g, k] = (qkv r).get [i, s, c, g, k] := by
  constructor
  · obtain ⟨pre, hpre, hright⟩ := preAttention_ok hscatter hgather hquery hkey hvalue hjoint
    have hstrategy : 0 < L → (metadata.getD {}).jointStrategy = .front ∨
        (metadata.getD {}).jointStrategy = .rear := by
      intro hL
      obtain ⟨-, -, -, rfl⟩ | ⟨_, _, _, -, -, -, -, -, -, hstrategy⟩ := hjoint
      · exact absurd hL (Nat.lt_irrefl 0)
      · exact hstrategy
    exact ⟨pre, hpre, hright, postAttention_ok hP hscatter hgather (fun r hr => (hright r hr).ctx)
      hstrategy fun r hr => (hright r hr).query⟩
  · obtain ⟨y, hy, hforward⟩ := allToAll5D_forward hqkv
    obtain ⟨z, hz, hback⟩ := allToAll5D_backward fun r hr => (hforward r hr).1
    refine ⟨y, hy, hforward, z, hz, fun r hr => ⟨(hback r hr).1, ?_⟩⟩
    intro i s c g k hi hs hc hg hk
    rw [(hback r hr).2 i s c g k hi hs hc hg hk]
    obtain ⟨q, j, hq', hj, rfl⟩ := exists_block hg
    rw [div_rankBlock hj, mod_rankBlock hj,
      (hforward q hq').2 i _ c j k hi (rankBlock_lt hr hs) hc hj hk, div_rankBlock hs,
      mod_rankBlock hs]

end Attention

/-- The values of a tensor, numbered by rank, row, head and column. -/
def numbered (shape : List ℕ) (r : ℕ) : NdTensor ℕ where
  shape := shape
  get idx := r * 1000 + ravel shape idx

def twoRanks : UlyssesParallelAttention where
  ulyssesWorldSize := 2
  ringWorldSize := 1

def threeJointRows : AttentionMetadata ℕ where
  jointQuery := some (numbered [1, 3, 4, 3] 7)
  jointKey := some (numbered [1, 3, 2, 3] 8)
  jointValue := some (numbered [1, 3, 2, 3] 9)

/-- Two ranks with joint rows in front. -/
theorem redistributes_twoRanks :
    ∃ pre out, preAttention twoRanks (numbered [1, 2, 4, 3]) (numbered [1, 2, 2, 3])
        (numbered [1, 2, 2, 3]) (fun _ => some threeJointRows) = .ok pre ∧
      postAttention twoRanks (fun r => (pre r).query) (fun r => (pre r).ctx) = .ok out ∧
      (pre 1).query.shape = [1, 7, 2, 3] ∧
      (pre 1).query.get [0, 5, 1, 2] = (numbered [1, 2, 4, 3] 1).get [0, 0, 3, 2] ∧
      (out 1).get [0, 1, 3, 2] = (numbered [1, 3, 4, 3] 7).get [0, 1, 3, 2] ∧
      (out 1).get [0, 4, 3, 2] = (numbered [1, 2, 4, 3] 1).get [0, 1, 3, 2] := by
  have hquery : ∀ r < twoRanks.ulyssesWorldSize, (numbered [1, 2, 4, 3] r).shape =
    [1, 2, 2 * twoRanks.ulyssesWorldSize, 3] := fun _ _ => rfl
  have hkey : ∀ r < twoRanks.ulyssesWorldSize, (numbered [1, 2, 2, 3] r).shape =
    [1, 2, 1 * twoRanks.ulyssesWorldSize, 3] := fun _ _ => rfl
  have hjoint : JointInput ((some threeJointRows).getD {}) 1 3 (2 * twoRanks.ulyssesWorldSize)
    (1 * twoRanks.ulyssesWorldSize) 3 := .inr ⟨_, _, _, rfl, rfl, rfl, rfl, rfl, rfl, .inl rfl⟩
  have hqkv : ∀ r < twoRanks.ulyssesWorldSize, (numbered [1, 2, 3, 4, 3] r).shape =
    [1, 2, 3, 2 * twoRanks.ulyssesWorldSize, 3] := fun _ _ => rfl
  obtain ⟨⟨pre, hpre, hright, out, hout, hsame⟩, -⟩ :=
    ulysses_redistributes (by decide) rfl rfl hquery hkey hkey hjoint hqkv
  refine ⟨pre, out, hpre, hout, (hright 1 (by decide)).query.shape, ?_, ?_, ?_⟩
  · exact (hright 1 (by decide)).query.image 0 2 1 2 (by decide) (by decide) (by decide) (by decide)
  · exact (hsame 1 (by decide)).joint 0 1 3 2 (by decide) (by decide) (by decide) (by decide)
  · exact (hsame 1 (by decide)).image 0 1 3 2 (by decide) (by decide) (by decide) (by decide)

end OmniStreaming
