import OmniStreaming.Lib.Collective
import OmniStreaming.Lib.LogSumExp

/-!
# Ring attention

The keys and values of the sequence are cut into blocks, one for each rank of a ring. In every step
each rank attends to the block that it holds, merges the result into its own, and passes the block
on. A block result is an average with its log-sum-exp, and the merge is that of
`Softmax.softmaxMean_concat`.

`update_out_and_lse` tells the layouts of the log-sum-exp apart by the sizes of the dimensions. With
as many rows as heads it takes rows for heads in one layout of each number of dimensions
(`LseLayout.Secondary`). What the loop then computes is still an average over the blocks, with the
weights of the exchanged row and head (`readScore`, `Merged`); it is the average over all keys iff
the exchange does not matter.
-/

namespace OmniStreaming

open List hiding swapAt

namespace RingAttention

open Tensors Softmax

inductive RingError
  /-- A shape that cannot be unpacked into four sizes. -/
  | dimensions
  /-- A dimension that a tensor does not have. -/
  | index
  /-- Shapes that do not fit each other. -/
  | broadcast
  /-- A shape that `torch.cat` rejects. -/
  | shape
  /-- Joint keys without joint values. -/
  | jointValue
  /-- `commit called twice` -/
  | commitTwice
  /-- `wait called before commit` -/
  | waitBeforeCommit
  /-- A rank waits for a tensor that is sent to another one. -/
  | noMessage
  /-- No block result was merged. -/
  | noOutput
  deriving Repr, DecidableEq

/-! ## The merge of block results -/

section Merge

variable {α : Type}

/-- The functions of `torch.nn.functional` in the merge. -/
structure Activation (α : Type) where
  sigmoid : α → α
  logsigmoid : α → α

/-- An operation of two tensors. -/
def broadcasted (f : α → α → α) (x y : NdTensor α) : Except RingError (NdTensor α) :=
  match x.zipWith f y with
  | some z => .ok z
  | none => .error .broadcast

/-- `block_lse` in the shape `(B, S, H, 1)`, if the sizes tell its layout. -/
def correctBlockLse (S H : ℕ) (blockLse : NdTensor α) : NdTensor α :=
  match blockLse.shape with
  | [_, d1, d2, d3] =>
    if d1 = S ∧ d2 = H then blockLse
    else if d1 = H ∧ d2 = S then blockLse.transpose 1 2
    else if d1 = H ∧ S ≤ d2 then (blockLse.slice 2 0 S).transpose 1 2
    else if d1 = H ∧ d2 = S ∧ d3 = 1 then blockLse.transpose 1 2
    else blockLse
  | [_, d1, d2] =>
    if d1 = H ∧ d2 = S then (blockLse.transpose 1 2).unsqueezeLast
    else if d1 = S ∧ d2 = H then blockLse.unsqueezeLast
    else if d1 = H ∧ S ≤ d2 then ((blockLse.slice 2 0 S).transpose 1 2).unsqueezeLast
    else if d1 = S ∧ H ≤ d2 then (blockLse.slice 2 0 H).unsqueezeLast
    else if S ≤ d1 ∧ d2 = H then (blockLse.slice 1 0 S).unsqueezeLast
    else blockLse
  | _ => blockLse

/-- `lse`, if its shape is not the one of `block_lse`. -/
def correctLse (S : ℕ) (lse blockLse : NdTensor α) : Except RingError (NdTensor α) :=
  if lse.shape = blockLse.shape then .ok lse
  else
    match lse.shape, blockLse.shape with
    | [_, l1, l2, _], _ :: d1 :: d2 :: _ =>
      if l1 = d2 ∧ l2 = d1 then .ok (lse.transpose 1 2)
      else if S ≤ l1 then .ok (lse.slice 1 0 S)
      else .ok lse
    | [_, _, _, _], _ => .error .index
    | _ :: l1 :: rest, _ =>
      if S ≤ l1 then
        -- `lse[:, :S, :, :]` asks for four dimensions.
        if rest.length < 2 then .error .index else .ok (lse.slice 1 0 S)
      else .ok lse
    | _, _ => .error .index

def updateOutAndLseAux [Sub α] [Mul α] (F : Activation α) (out lse blockOut blockLse : NdTensor α) :
    Except RingError (NdTensor α × NdTensor α) :=
  match out.shape with
  | [_, S, H, _] => do
    let blockLse := correctBlockLse S H blockLse
    let lse ← correctLse S lse blockLse
    let above ← broadcasted (· - ·) blockLse lse
    let diff ← broadcasted (· - ·) out blockOut
    let change ← broadcasted (· * ·) (above.map F.sigmoid) diff
    let out ← broadcasted (· - ·) out change
    let below ← broadcasted (· - ·) lse blockLse
    let lse ← broadcasted (· - ·) lse (below.map F.logsigmoid)
    .ok (out, lse)
  | _ => .error .dimensions

/-- The first block result, in `update_out_and_lse`. -/
def initOutAndLse (blockOut blockLse : NdTensor α) : Except RingError (NdTensor α × NdTensor α) :=
  match blockOut.shape with
  | [_, D1, D2, _] =>
    match blockLse.shape with
    | [_, d1, d2] =>
      if d1 = D2 ∧ d2 = D1 then .ok (blockOut, (blockLse.transpose 1 2).unsqueezeLast)
      else if d1 = D1 ∧ d2 = D2 then .ok (blockOut, blockLse.unsqueezeLast)
      else if d1 = D2 ∧ D1 ≤ d2 then
        .ok (blockOut, ((blockLse.slice 2 0 D1).transpose 1 2).unsqueezeLast)
      else if d1 = D1 ∧ D2 ≤ d2 then .ok (blockOut, (blockLse.slice 2 0 D2).unsqueezeLast)
      else if D1 ≤ d1 ∧ d2 = D2 then .ok (blockOut, (blockLse.slice 1 0 D1).unsqueezeLast)
      else if d1 = D1 ∧ D2 ≤ d2 then
        .ok (blockOut.transpose 1 2, ((blockLse.slice 2 0 D2).transpose 1 2).unsqueezeLast)
      else .ok (blockOut, (blockLse.transpose 1 2).unsqueezeLast)
    | [_, d1, d2, _] =>
      if d1 = D1 ∧ d2 = D2 then .ok (blockOut, blockLse)
      else if d1 = D2 ∧ d2 = D1 then .ok (blockOut, blockLse.transpose 1 2)
      else if d1 = D2 ∧ D1 ≤ d2 then .ok (blockOut, (blockLse.slice 2 0 D1).transpose 1 2)
      else if d1 = D1 ∧ D2 ≤ d2 then
        .ok (blockOut.transpose 1 2, (blockLse.slice 2 0 D2).transpose 1 2)
      else .ok (blockOut, blockLse)
    | _ => .ok (blockOut, blockLse)
  | _ => .error .dimensions

/-- `update_out_and_lse` without `slice_`, which no caller gives. -/
def updateOutAndLse [Sub α] [Mul α] (F : Activation α) (acc : Option (NdTensor α × NdTensor α))
    (blockOut blockLse : NdTensor α) : Except RingError (NdTensor α × NdTensor α) :=
  match acc with
  | none => initOutAndLse blockOut blockLse
  | some (out, lse) => updateOutAndLseAux F out lse blockOut blockLse

end Merge

/-! ## The ring -/

section Ring

variable {α : Type}

/-- `RingComm`: the number of operations since the last `wait`, and of those in flight. -/
structure RingComm where
  ops : ℕ := 0
  reqs : Option ℕ := none

def sendRank (P r : ℕ) : ℕ := (r + 1) % P

def recvRank (P r : ℕ) : ℕ := (r + P - 1) % P

/-- `send_recv` of all ranks: each gets the tensor of the rank it receives from, which has to send
to it. -/
def RingComm.sendRecv [Inhabited α] (P : ℕ) (comm : RingComm) (toSend : ℕ → NdTensor α) :
    Except RingError (RingComm × (ℕ → NdTensor α)) := do
  let res ← onRanks P fun r =>
    if sendRank P (recvRank P r) = r then .ok (toSend (recvRank P r)) else .error .noMessage
  .ok (⟨comm.ops + 2, comm.reqs⟩, res)

def RingComm.commit (comm : RingComm) : Except RingError RingComm :=
  if comm.reqs.isSome then .error .commitTwice else .ok ⟨comm.ops, some comm.ops⟩

def RingComm.wait (comm : RingComm) : Except RingError RingComm :=
  if comm.reqs.isNone then .error .waitBeforeCommit else .ok {}

/-- What the ranks are called with. -/
structure RingInput (α : Type) where
  q : ℕ → NdTensor α
  k : ℕ → NdTensor α
  v : ℕ → NdTensor α
  jointKey : ℕ → Option (NdTensor α) := fun _ => none
  jointValue : ℕ → Option (NdTensor α) := fun _ => none
  /-- `joint_strategy == "front"` -/
  front : Bool := true
  causal : Bool

/-- The attention of a block: query, key, value and mask to the output and its log-sum-exp. -/
abbrev Kernel (α : Type) := NdTensor α → NdTensor α → NdTensor α → Bool → NdTensor α × NdTensor α

/-- The keys and values of one call of the kernel, and whether the mask applies. -/
structure KernelCall (α : Type) where
  k : NdTensor α
  v : NdTensor α
  causal : Bool

/-- `out` and `lse` of a rank, with the calls of the kernel so far. -/
structure RankState (α : Type) where
  acc : Option (NdTensor α × NdTensor α) := none
  calls : List (KernelCall α) := []
  deriving Inhabited

structure RingState (α : Type) where
  comm : RingComm
  k : ℕ → NdTensor α
  v : ℕ → NdTensor α
  ranks : ℕ → RankState α

/-- A block with its joint part. -/
def catJoint (front : Bool) (joint x : NdTensor α) : Except RingError (NdTensor α) :=
  match NdTensor.cat 1 (if front then [joint, x] else [x, joint]) with
  | some y => .ok y
  | none => .error .shape

/-- `step_k` and `step_v`. -/
def stepBlock (inp : RingInput α) (step r : ℕ) (k v : NdTensor α) :
    Except RingError (NdTensor α × NdTensor α) :=
  match (if step = 0 then inp.jointKey r else none) with
  | none => .ok (k, v)
  | some jointKey =>
    match inp.jointValue r with
    | none => .error .jointValue
    | some jointValue => do
      let stepK ← catJoint inp.front jointKey k
      let stepV ← catJoint inp.front jointValue v
      .ok (stepK, stepV)

/-- The function that merges a block result. -/
abbrev Update (α : Type) :=
  Option (NdTensor α × NdTensor α) → NdTensor α → NdTensor α →
    Except RingError (NdTensor α × NdTensor α)

/-- The part of a step that concerns one rank. -/
def rankStep (update : Update α) (kernel : Kernel α) (inp : RingInput α) (step r : ℕ)
    (k v : NdTensor α) (st : RankState α) : Except RingError (RankState α) :=
  if inp.causal = false ∨ step ≤ r then do
    let (stepK, stepV) ← stepBlock inp step r k v
    let causal := inp.causal && step == 0
    let (blockOut, blockLse) := kernel (inp.q r) stepK stepV causal
    let acc ← update st.acc blockOut blockLse
    .ok ⟨some acc, st.calls ++ [⟨stepK, stepV, causal⟩]⟩
  else .ok st

/-- One step of the loop on all ranks. -/
def ringStep [Inhabited α] (P : ℕ) (update : Update α) (kernel : Kernel α) (inp : RingInput α)
    (st : RingState α) (step : ℕ) : Except RingError (RingState α) :=
  if step + 1 ≠ P then do
    let (comm, nextK) ← st.comm.sendRecv P st.k
    let (comm, nextV) ← comm.sendRecv P st.v
    let comm ← comm.commit
    let ranks ← onRanks P fun r =>
      rankStep update kernel inp step r (st.k r) (st.v r) (st.ranks r)
    let comm ← comm.wait
    .ok ⟨comm, nextK, nextV, ranks⟩
  else do
    let ranks ← onRanks P fun r =>
      rankStep update kernel inp step r (st.k r) (st.v r) (st.ranks r)
    .ok ⟨st.comm, st.k, st.v, ranks⟩

def ringLoop [Inhabited α] (P : ℕ) (update : Update α) (kernel : Kernel α) (inp : RingInput α) :
    Except RingError (RingState α) :=
  (range P).foldlM (ringStep P update kernel inp) ⟨{}, inp.k, inp.v, fun _ => {}⟩

/-- What a rank returns, with the calls of the kernel. -/
structure RingOutput (α : Type) where
  out : NdTensor α
  lse : Option (NdTensor α)
  calls : List (KernelCall α)

instance [Inhabited α] : Inhabited (RingOutput α) := ⟨⟨default, none, []⟩⟩

/-- What a rank returns after the loop. -/
def returned (finish : NdTensor α → Option (NdTensor α)) (st : RankState α) :
    Except RingError (RingOutput α) :=
  match st.acc with
  | none => .error .noOutput
  | some (out, lse) => .ok ⟨out, finish lse, st.calls⟩

/-- `ring_flash_attn_forward` of all ranks; with `SPARSE_SAGE` a block result replaces the ones
before. -/
def ringFlashAttnForward [Inhabited α] [Sub α] [Mul α] (P : ℕ) (F : Activation α)
    (sparseSage : Bool) (kernel : Kernel α) (inp : RingInput α) :
    Except RingError (ℕ → RingOutput α) := do
  let st ← ringLoop P
    (if sparseSage then fun _ blockOut blockLse => .ok (blockOut, blockLse) else updateOutAndLse F)
    kernel inp
  onRanks P fun r => returned
    (fun lse => some (if sparseSage then lse else lse.squeezeLast.transpose 1 2)) (st.ranks r)

/-- `RingAttentionFunc.forward` of all ranks. -/
def ringAttentionForward [Inhabited α] [Sub α] [Mul α] (P : ℕ) (F : Activation α)
    (kernel : Kernel α) (inp : RingInput α) : Except RingError (ℕ → RingOutput α) := do
  let st ← ringLoop P (updateOutAndLse F) kernel inp
  onRanks P fun r => returned (fun _ => none) (st.ranks r)

end Ring

/-! ## Exact arithmetic -/

section Exact

/-- The functions of the merge over the reals. -/
noncomputable def realActivation : Activation ℝ := ⟨Real.sigmoid, logSigmoid⟩

/-- The layouts of the log-sum-exp that `update_out_and_lse` takes. -/
inductive LseLayout
  | bhs
  | bsh
  | bhs1
  | bsh1
  deriving Repr, DecidableEq

namespace LseLayout

/-- The shape for a batch of `B`, with `S` rows and `H` heads. -/
def shape (B S H : ℕ) : LseLayout → List ℕ
  | bhs => [B, H, S]
  | bsh => [B, S, H]
  | bhs1 => [B, H, S, 1]
  | bsh1 => [B, S, H, 1]

/-- The index of a row and a head. -/
def index (b s h : ℕ) : LseLayout → List ℕ
  | bhs => [b, h, s]
  | bsh => [b, s, h]
  | bhs1 => [b, h, s, 0]
  | bsh1 => [b, s, h, 0]

/-- The row and the head at an index. -/
def coordinates : LseLayout → List ℕ → ℕ × ℕ × ℕ
  | bhs, [b, h, s] => (b, s, h)
  | bsh, [b, s, h] => (b, s, h)
  | bhs1, [b, h, s, _] => (b, s, h)
  | bsh1, [b, s, h, _] => (b, s, h)
  | _, _ => (0, 0, 0)

lemma coordinates_index (layout : LseLayout) (b s h : ℕ) :
    layout.coordinates (layout.index b s h) = (b, s, h) := by
  cases layout <;> rfl

/-- The layouts whose test comes after the one of the other layout with as many dimensions. -/
def Secondary : LseLayout → Prop
  | bsh | bhs1 => True
  | bhs | bsh1 => False

instance : DecidablePred Secondary := fun layout => by
  cases layout <;> (unfold Secondary; infer_instance)

end LseLayout

/-- The keys of a block that a row attends to. -/
def visibleKeys (n : ℕ) (causal : Bool) (s : ℕ) : List ℕ :=
  (range n).filter fun t => !causal || decide (t ≤ s)

/-- The score of a key for a row. -/
noncomputable def score (scale : ℝ) (q k : NdTensor ℝ) (b s h t : ℕ) : ℝ :=
  scale * ((range (q.shape.getD 3 0)).map fun e => q.get [b, s, h, e] * k.get [b, t, h, e]).sum

variable (scale : ℝ)

/-- The scored values of a block for a row. -/
noncomputable def keyRow (q : NdTensor ℝ) (c : KernelCall ℝ) (b s h d : ℕ) : List (ℝ × ℝ) :=
  (visibleKeys (c.k.shape.getD 1 0) c.causal s).map fun t =>
    (score scale q c.k b s h t, c.v.get [b, t, h, d])

/-- The log-sum-exp of a block for a row. -/
noncomputable def blockScore (q : NdTensor ℝ) (c : KernelCall ℝ) (b s h : ℕ) : ℝ :=
  logSumExp ((visibleKeys (c.k.shape.getD 1 0) c.causal s).map (score scale q c.k b s h))

/-- A block of keys and values; under the mask it has as many keys as there are rows. -/
structure BlockShape (B S H D : ℕ) (c : KernelCall ℝ) : Prop where
  exists_shape : ∃ n, 0 < n ∧ c.k.shape = [B, n, H, D] ∧ c.v.shape = [B, n, H, D] ∧
    (c.causal = true → n = S)

/-- The kernel returns the softmax attention of the block, and its log-sum-exp in a layout. -/
structure ExactKernel (scale : ℝ) (layout : LseLayout) (kernel : Kernel ℝ) : Prop where
  out_shape {B S H D : ℕ} {q : NdTensor ℝ} {c : KernelCall ℝ} : q.shape = [B, S, H, D] →
    BlockShape B S H D c → (kernel q c.k c.v c.causal).1.shape = [B, S, H, D]
  lse_shape {B S H D : ℕ} {q : NdTensor ℝ} {c : KernelCall ℝ} : q.shape = [B, S, H, D] →
    BlockShape B S H D c → (kernel q c.k c.v c.causal).2.shape = layout.shape B S H
  out_get {B S H D : ℕ} {q : NdTensor ℝ} {c : KernelCall ℝ} : q.shape = [B, S, H, D] →
    BlockShape B S H D c → ∀ b < B, ∀ s < S, ∀ h < H, ∀ d < D,
      (kernel q c.k c.v c.causal).1.get [b, s, h, d] = softmaxMean (keyRow scale q c b s h d)
  lse_get {B S H D : ℕ} {q : NdTensor ℝ} {c : KernelCall ℝ} : q.shape = [B, S, H, D] →
    BlockShape B S H D c → ∀ b < B, ∀ s < S, ∀ h < H,
      (kernel q c.k c.v c.causal).2.get (layout.index b s h) = blockScore scale q c b s h

/-- Such a kernel. -/
noncomputable def exactKernel (layout : LseLayout) : Kernel ℝ := fun q k v causal =>
  (⟨q.shape, fun idx => softmaxMean
      (keyRow scale q ⟨k, v, causal⟩ (idx.getD 0 0) (idx.getD 1 0) (idx.getD 2 0) (idx.getD 3 0))⟩,
    ⟨layout.shape (q.shape.getD 0 0) (q.shape.getD 1 0) (q.shape.getD 2 0), fun idx =>
      let (b, s, h) := layout.coordinates idx
      blockScore scale q ⟨k, v, causal⟩ b s h⟩)

lemma exactKernel_exact (layout : LseLayout) :
    ExactKernel scale layout (exactKernel scale layout) where
  out_shape hq _ := hq
  lse_shape hq _ := by simp [exactKernel, hq]
  out_get _ _ _ _ _ _ _ _ _ _ := rfl
  lse_get _ _ b _ s _ h _ := by simp [exactKernel, layout.coordinates_index]

/-- The log-sum-exp of a block that the merge uses for a row and a head. -/
noncomputable def readScore (layout : LseLayout) (S H : ℕ) (q : NdTensor ℝ)
    (c : KernelCall ℝ) (b s h : ℕ) : ℝ :=
  if layout.Secondary ∧ S = H then blockScore scale q c b h s else blockScore scale q c b s h

lemma map_fst_keyRow (q : NdTensor ℝ) (c : KernelCall ℝ) (b s h d : ℕ) :
    logSumExp ((keyRow scale q c b s h d).map Prod.fst) = blockScore scale q c b s h := by
  rw [keyRow, blockScore, map_map]
  rfl

variable {layout : LseLayout}

/-- A row and a head are read from the index of a row and a head, which the layout may exchange. -/
lemma correctBlockLse_layout {B S H : ℕ} {x : NdTensor ℝ} (hx : x.shape = layout.shape B S H) :
    (correctBlockLse S H x).shape = [B, S, H, 1] ∧ ∀ b s h,
      (correctBlockLse S H x).get [b, s, h, 0] =
        if layout.Secondary ∧ S = H then x.get (layout.index b h s)
        else x.get (layout.index b s h) := by
  rcases eq_or_ne S H with rfl | hSH
  · cases layout <;>
      simp [correctBlockLse, hx, LseLayout.shape, LseLayout.index, LseLayout.Secondary,
        NdTensor.unsqueezeLast, NdTensor.transpose, swapAt]
  · cases layout <;>
      simp [correctBlockLse, hx, LseLayout.shape, LseLayout.index,
        NdTensor.unsqueezeLast, NdTensor.transpose, swapAt, hSH, hSH.symm]

lemma initOutAndLse_layout {B S H D : ℕ} {blockOut blockLse : NdTensor ℝ}
    (hout : blockOut.shape = [B, S, H, D]) (hlse : blockLse.shape = layout.shape B S H) :
    initOutAndLse blockOut blockLse = .ok (blockOut, correctBlockLse S H blockLse) := by
  rcases eq_or_ne S H with rfl | hSH
  · cases layout <;> simp [initOutAndLse, correctBlockLse, hout, hlse, LseLayout.shape]
  · cases layout <;>
      simp [initOutAndLse, correctBlockLse, hout, hlse, LseLayout.shape, hSH, hSH.symm]

/-! ## What a rank has merged -/

section Merged

variable {B S H D : ℕ} {scale : ℝ} {layout : LseLayout} {kernel : Kernel ℝ} {q : NdTensor ℝ}

/-- The results of some calls are merged: an average over blocks, with the weights as read. -/
structure Merged (B S H D : ℕ) (scale : ℝ) (layout : LseLayout) (q : NdTensor ℝ)
    (calls : List (KernelCall ℝ)) (out lse : NdTensor ℝ) : Prop where
  out_shape : out.shape = [B, S, H, D]
  lse_shape : lse.shape = [B, S, H, 1]
  out_get : ∀ b < B, ∀ s < S, ∀ h < H, ∀ d < D, out.get [b, s, h, d] =
    softmaxMean (calls.map fun c =>
      (readScore scale layout S H q c b s h, softmaxMean (keyRow scale q c b s h d)))
  lse_get : ∀ b < B, ∀ s < S, ∀ h < H, lse.get [b, s, h, 0] =
    logSumExp (calls.map fun c => readScore scale layout S H q c b s h)

/-- What a rank holds after some calls. -/
def Holds (B S H D : ℕ) (scale : ℝ) (layout : LseLayout) (q : NdTensor ℝ) (st : RankState ℝ) :
    Prop :=
  match st.acc with
  | none => st.calls = []
  | some (out, lse) => st.calls ≠ [] ∧ Merged B S H D scale layout q st.calls out lse

lemma correctBlockLse_kernel (hkernel : ExactKernel scale layout kernel)
    (hq : q.shape = [B, S, H, D]) {c : KernelCall ℝ} (hc : BlockShape B S H D c) {b s h : ℕ}
    (hb : b < B) (hs : s < S) (hh : h < H) :
    (correctBlockLse S H (kernel q c.k c.v c.causal).2).get [b, s, h, 0] =
      readScore scale layout S H q c b s h := by
  rw [(correctBlockLse_layout (hkernel.lse_shape hq hc)).2, readScore]
  split_ifs with hread
  · exact hkernel.lse_get hq hc b hb h (hread.2 ▸ hh) s (hread.2 ▸ hs)
  · exact hkernel.lse_get hq hc b hb s hs h hh

/-- Operations on tensors of one shape. -/
lemma broadcasted_same (f : ℝ → ℝ → ℝ) {x y : NdTensor ℝ} {shape : List ℕ} (hx : x.shape = shape)
    (hy : y.shape = shape) :
    ∃ z, broadcasted f x y = .ok z ∧ z.shape = shape ∧
      ∀ idx, InShape idx shape → z.get idx = f (x.get idx) (y.get idx) := by
  obtain ⟨z, hz, hshape, hget⟩ := NdTensor.zipWith_same hx hy
  exact ⟨z, by rw [broadcasted, hz], hshape, hget⟩

lemma broadcasted_column (f : ℝ → ℝ → ℝ) {x y : NdTensor ℝ} {shape : List ℕ} {n : ℕ}
    (hx : x.shape = shape ++ [1]) (hy : y.shape = shape ++ [n]) :
    ∃ z, broadcasted f x y = .ok z ∧ z.shape = shape ++ [n] ∧
      ∀ idx i, InShape idx shape → i < n →
        z.get (idx ++ [i]) = f (x.get (idx ++ [0])) (y.get (idx ++ [i])) := by
  obtain ⟨z, hz, hshape, hget⟩ := NdTensor.zipWith_column hx hy
  exact ⟨z, by rw [broadcasted, hz], hshape, hget⟩

lemma inShape_four {b s h d : ℕ} (hb : b < B) (hs : s < S) (hh : h < H) (hd : d < D) :
    InShape [b, s, h, d] [B, S, H, D] := by
  simp [hb, hs, hh, hd]

lemma updateOutAndLseAux_ok {out lse blockOut blockLse : NdTensor ℝ}
    (hout : out.shape = [B, S, H, D]) (hlse : lse.shape = [B, S, H, 1])
    (hblock : blockOut.shape = [B, S, H, D])
    (hcorrect : (correctBlockLse S H blockLse).shape = [B, S, H, 1]) :
    ∃ out' lse', updateOutAndLseAux realActivation out lse blockOut blockLse = .ok (out', lse') ∧
      out'.shape = [B, S, H, D] ∧ lse'.shape = [B, S, H, 1] ∧
      (∀ b < B, ∀ s < S, ∀ h < H, ∀ d < D, out'.get [b, s, h, d] =
        out.get [b, s, h, d] - Real.sigmoid ((correctBlockLse S H blockLse).get [b, s, h, 0] -
          lse.get [b, s, h, 0]) * (out.get [b, s, h, d] - blockOut.get [b, s, h, d])) ∧
      (∀ b < B, ∀ s < S, ∀ h < H, lse'.get [b, s, h, 0] =
        lse.get [b, s, h, 0] - logSigmoid (lse.get [b, s, h, 0] -
          (correctBlockLse S H blockLse).get [b, s, h, 0])) := by
  obtain ⟨above, habove, haboveShape, haboveGet⟩ := broadcasted_same (· - ·) hcorrect hlse
  obtain ⟨diff, hdiff, hdiffShape, hdiffGet⟩ := broadcasted_same (· - ·) hout hblock
  have hgateShape : (above.map Real.sigmoid).shape = [B, S, H] ++ [1] := haboveShape
  obtain ⟨change, hchange, hchangeShape, hchangeGet⟩ :=
    broadcasted_column (· * ·) hgateShape hdiffShape
  obtain ⟨out', hout', houtShape, houtGet⟩ := broadcasted_same (· - ·) hout hchangeShape
  obtain ⟨below, hbelow, hbelowShape, hbelowGet⟩ := broadcasted_same (· - ·) hlse hcorrect
  obtain ⟨lse', hlse', hlseShape, hlseGet⟩ :=
    broadcasted_same (· - ·) (y := below.map logSigmoid) hlse hbelowShape
  refine ⟨out', lse', ?_, houtShape, hlseShape, fun b hb s hs h hh d hd => ?_,
    fun b hb s hs h hh => ?_⟩
  · have hsame : correctLse S lse (correctBlockLse S H blockLse) = .ok lse :=
      if_pos (hlse.trans hcorrect.symm)
    simp only [updateOutAndLseAux, hout, hsame]
    simp only [bind, Except.bind, habove, hdiff, realActivation, hchange, hout', hbelow, hlse']
  · have hin := inShape_four hb hs hh hd
    have hzero := inShape_four hb hs hh Nat.one_pos
    have hrow : change.get [b, s, h, d] = Real.sigmoid (above.get [b, s, h, 0]) *
        diff.get [b, s, h, d] := hchangeGet [b, s, h] d (by simp [hb, hs, hh]) hd
    rw [houtGet _ hin, hrow, haboveGet _ hzero, hdiffGet _ hin]
  · have hzero := inShape_four hb hs hh Nat.one_pos
    rw [hlseGet _ hzero]
    simp only [NdTensor.map, hbelowGet _ hzero]

/-- One more block result. -/
lemma merged_update (hkernel : ExactKernel scale layout kernel) (hq : q.shape = [B, S, H, D])
    {st : RankState ℝ} (hst : Holds B S H D scale layout q st) {c : KernelCall ℝ}
    (hc : BlockShape B S H D c) :
    ∃ acc, updateOutAndLse realActivation st.acc (kernel q c.k c.v c.causal).1
        (kernel q c.k c.v c.causal).2 = .ok acc ∧
      Holds B S H D scale layout q ⟨some acc, st.calls ++ [c]⟩ := by
  have hshape := hkernel.out_shape hq hc
  have hcorrect := (correctBlockLse_layout (hkernel.lse_shape hq hc)).1
  obtain ⟨acc, calls⟩ := st
  cases acc with
  | none =>
    obtain rfl : calls = [] := hst
    refine ⟨_, initOutAndLse_layout hshape (hkernel.lse_shape hq hc), by simp, hshape, hcorrect,
      fun b hb s hs h hh d hd => ?_, fun b hb s hs h hh => ?_⟩
    · rw [hkernel.out_get hq hc b hb s hs h hh d hd]
      simp [softmaxMean_singleton]
    · rw [correctBlockLse_kernel hkernel hq hc hb hs hh]
      simp [logSumExp]
  | some acc =>
    obtain ⟨out, lse⟩ := acc
    obtain ⟨hne, hmerged⟩ := hst
    obtain ⟨out', lse', hupdate, houtShape, hlseShape, hout, hlse⟩ :=
      updateOutAndLseAux_ok hmerged.out_shape hmerged.lse_shape hshape hcorrect
    refine ⟨_, hupdate, by simp, houtShape, hlseShape, fun b hb s hs h hh d hd => ?_,
      fun b hb s hs h hh => ?_⟩
    · rw [hout b hb s hs h hh d hd, correctBlockLse_kernel hkernel hq hc hb hs hh,
        hmerged.lse_get b hb s hs h hh, hmerged.out_get b hb s hs h hh d hd,
        hkernel.out_get hq hc b hb s hs h hh d hd]
      have hne' : calls.map (fun c => (readScore scale layout S H q c b s h,
          softmaxMean (keyRow scale q c b s h d))) ≠ [] := by simpa using hne
      have hmean := softmaxMean_concat hne' (readScore scale layout S H q c b s h)
        (softmaxMean (keyRow scale q c b s h d))
      rw [map_map] at hmean
      rw [map_append]
      exact hmean
    · rw [hlse b hb s hs h hh, correctBlockLse_kernel hkernel hq hc hb hs hh,
        hmerged.lse_get b hb s hs h hh, logSumExp_concat (by simpa using hne),
        map_append]
      rfl

end Merged

/-! ## The blocks that pass a rank -/

section Rotation

variable {P r : ℕ}

/-- The rank whose block a rank holds in a step. -/
def blockAt (P r step : ℕ) : ℕ := (recvRank P)^[step] r

lemma recvRank_lt (hr : r < P) : recvRank P r < P := Nat.mod_lt _ (by omega)

lemma recvRank_eq (hr : r < P) : recvRank P r = if r = 0 then P - 1 else r - 1 := by
  split_ifs with h
  · rw [recvRank, h, Nat.zero_add, Nat.mod_eq_of_lt (by omega)]
  · rw [recvRank, show r + P - 1 = r - 1 + P by omega, Nat.add_mod_right,
      Nat.mod_eq_of_lt (by omega)]

lemma sendRank_recvRank (hr : r < P) : sendRank P (recvRank P r) = r := by
  rw [recvRank_eq hr, sendRank]
  split_ifs with h
  · rw [Nat.sub_add_cancel (by omega), Nat.mod_self, h]
  · rw [Nat.sub_add_cancel (by omega), Nat.mod_eq_of_lt hr]

lemma blockAt_eq (hr : r < P) : ∀ {step : ℕ}, step < P →
    blockAt P r step = if step ≤ r then r - step else r + P - step
  | 0, _ => by simp [blockAt]
  | step + 1, hstep => by
    have ih := blockAt_eq hr (Nat.lt_of_succ_lt hstep)
    have hlt : blockAt P r step < P := by
      rw [ih]
      split_ifs <;> omega
    have hnext : blockAt P r (step + 1) = recvRank P (blockAt P r step) :=
      Function.iterate_succ_apply' _ _ _
    rw [hnext, recvRank_eq hlt, ih]
    split_ifs <;> omega

lemma blockAt_lt (hr : r < P) {step : ℕ} (hstep : step < P) : blockAt P r step < P := by
  rw [blockAt_eq hr hstep]
  split_ifs <;> omega

/-- The number of steps in which a rank attends to its block. -/
def usedSteps (P : ℕ) (causal : Bool) (r : ℕ) : ℕ := if causal then r + 1 else P

lemma usedSteps_le (causal : Bool) (hr : r < P) : usedSteps P causal r ≤ P := by
  rw [usedSteps]
  split_ifs <;> omega

lemma usedSteps_pos (causal : Bool) (hr : r < P) : 0 < usedSteps P causal r := by
  rw [usedSteps]
  split_ifs <;> omega

/-- Every block is used in one step: those of all ranks, or under the mask those up to the own. -/
lemma blocks_perm (causal : Bool) (hr : r < P) :
    ((range (usedSteps P causal r)).map (blockAt P r)).Perm
      (range (usedSteps P causal r)) := by
  have hinj : ∀ i ∈ range (usedSteps P causal r), ∀ j ∈ range (usedSteps P causal r),
      blockAt P r i = blockAt P r j → i = j := by
    intro i hi j hj hij
    have hi' := (mem_range.mp hi).trans_le (usedSteps_le causal hr)
    have hj' := (mem_range.mp hj).trans_le (usedSteps_le causal hr)
    rw [blockAt_eq hr hi', blockAt_eq hr hj'] at hij
    split_ifs at hij <;> omega
  refine (perm_ext_iff_of_nodup (nodup_range.map_on hinj) nodup_range).mpr
    fun j => ?_
  rw [mem_map, mem_range]
  constructor
  · rintro ⟨i, hi, rfl⟩
    rw [mem_range] at hi
    rw [blockAt_eq hr (hi.trans_le (usedSteps_le causal hr))]
    rw [usedSteps] at hi ⊢
    split_ifs at hi ⊢ <;> omega
  · intro hj
    have hjP := hj.trans_le (usedSteps_le causal hr)
    rcases le_or_gt j r with hjr | hjr
    · refine ⟨r - j, mem_range.mpr ?_, ?_⟩
      · rw [usedSteps] at hj ⊢
        split_ifs at hj ⊢ <;> omega
      · rw [blockAt_eq hr (by omega)]
        split_ifs <;> omega
    · refine ⟨r + P - j, mem_range.mpr ?_, ?_⟩
      · rw [usedSteps] at hj ⊢
        split_ifs at hj ⊢ <;> omega
      · rw [blockAt_eq hr (by omega)]
        split_ifs <;> omega

end Rotation

/-! ## The loop -/

section Loop

variable {P B S n H D : ℕ} {inp : RingInput ℝ} {scale : ℝ} {layout : LseLayout} {kernel : Kernel ℝ}

/-- The shards have one length; a joint part needs no mask, and the mask as many rows as keys. -/
structure RingShapes (P B S n H D : ℕ) (inp : RingInput ℝ) : Prop where
  q_shape : ∀ r < P, (inp.q r).shape = [B, S, H, D]
  k_shape : ∀ r < P, (inp.k r).shape = [B, n, H, D]
  v_shape : ∀ r < P, (inp.v r).shape = [B, n, H, D]
  joint_shape : ∀ r < P, ∀ jointKey, inp.jointKey r = some jointKey →
    ∃ L jointValue, inp.jointValue r = some jointValue ∧ jointKey.shape = [B, L, H, D] ∧
      jointValue.shape = [B, L, H, D]
  joint_causal : inp.causal = true → ∀ r < P, inp.jointKey r = none
  length_causal : inp.causal = true → n = S

/-- A block with its joint part. -/
def withJoint (front : Bool) (joint x : NdTensor ℝ) : NdTensor ℝ :=
  if front then joint.append 1 x else x.append 1 joint

/-- The call for the own block. -/
def localCall (inp : RingInput ℝ) (r : ℕ) : KernelCall ℝ :=
  match inp.jointKey r, inp.jointValue r with
  | some jointKey, some jointValue =>
    ⟨withJoint inp.front jointKey (inp.k r), withJoint inp.front jointValue (inp.v r), inp.causal⟩
  | _, _ => ⟨inp.k r, inp.v r, inp.causal⟩

/-- The call for the block of another rank. -/
def remoteCall (inp : RingInput ℝ) (j : ℕ) : KernelCall ℝ := ⟨inp.k j, inp.v j, false⟩

/-- The call in a step. -/
def callAt (inp : RingInput ℝ) (P r step : ℕ) : KernelCall ℝ :=
  if step = 0 then localCall inp r else remoteCall inp (blockAt P r step)

/-- The calls in the first steps. -/
def callsBefore (inp : RingInput ℝ) (P r steps : ℕ) : List (KernelCall ℝ) :=
  ((range steps).filter fun step => decide (inp.causal = false ∨ step ≤ r)).map
    (callAt inp P r)

/-- The calls of one more step. -/
lemma callsBefore_succ (inp : RingInput ℝ) (P r steps : ℕ) :
    callsBefore inp P r (steps + 1) = callsBefore inp P r steps ++
      if inp.causal = false ∨ steps ≤ r then [callAt inp P r steps] else [] := by
  simp only [callsBefore, range_succ, filter_append, map_append]
  by_cases hused : inp.causal = false ∨ steps ≤ r
  · simp [hused]
  · simp [hused]

lemma catJoint_ok (front : Bool) {joint x : NdTensor ℝ} {L : ℕ}
    (hjoint : joint.shape = [B, L, H, D]) (hx : x.shape = [B, n, H, D]) :
    catJoint front joint x = .ok (withJoint front joint x) ∧
      (withJoint front joint x).shape = [B, L + n, H, D] := by
  cases front
  · have hcat : NdTensor.cat 1 [x, joint] = some (x.append 1 joint) :=
      NdTensor.cat_cons rfl (by simp [hjoint, hx])
    refine ⟨by simp [catJoint, hcat, withJoint], ?_⟩
    simp [withJoint, NdTensor.append, hjoint, hx, Nat.add_comm]
  · have hcat : NdTensor.cat 1 [joint, x] = some (joint.append 1 x) :=
      NdTensor.cat_cons rfl (by simp [hjoint, hx])
    refine ⟨by simp [catJoint, hcat, withJoint], ?_⟩
    simp [withJoint, NdTensor.append, hjoint, hx]

/-- The block of a step has its joint part in the first one only. -/
lemma stepBlock_ok (hn : 0 < n) (hinp : RingShapes P B S n H D inp) {r step : ℕ} (hr : r < P)
    (hstep : step < P) :
    stepBlock inp step r (inp.k (blockAt P r step)) (inp.v (blockAt P r step)) =
      .ok ((callAt inp P r step).k, (callAt inp P r step).v) ∧
    (callAt inp P r step).causal = (inp.causal && step == 0) ∧
    BlockShape B S H D (callAt inp P r step) := by
  have hblock := blockAt_lt hr hstep
  rcases Nat.eq_zero_or_pos step with rfl | hpos
  · have hk := hinp.k_shape r hr
    have hv := hinp.v_shape r hr
    change stepBlock inp 0 r (inp.k r) (inp.v r) =
      .ok ((localCall inp r).k, (localCall inp r).v) ∧ (localCall inp r).causal = _ ∧
        BlockShape B S H D (localCall inp r)
    cases hkey : inp.jointKey r with
    | none =>
      simp only [stepBlock, localCall, hkey, if_true, beq_self_eq_true, Bool.and_true, true_and]
      exact ⟨n, hn, hk, hv, hinp.length_causal⟩
    | some jointKey =>
      obtain ⟨L, jointValue, hvalue, hkeyShape, hvalueShape⟩ := hinp.joint_shape r hr jointKey hkey
      obtain ⟨hcatK, hshapeK⟩ := catJoint_ok inp.front hkeyShape hk
      obtain ⟨hcatV, hshapeV⟩ := catJoint_ok inp.front hvalueShape hv
      simp only [stepBlock, localCall, hkey, hvalue, if_true, hcatK, hcatV, beq_self_eq_true,
        Bool.and_true, bind, Except.bind, true_and]
      refine ⟨L + n, by omega, hshapeK, hshapeV, fun hcausal => ?_⟩
      rw [hinp.joint_causal hcausal r hr] at hkey
      cases hkey
  · have hne : step ≠ 0 := by omega
    simp only [stepBlock, callAt, if_neg hne, remoteCall, beq_eq_false_iff_ne.mpr hne,
      Bool.and_false, true_and]
    exact ⟨n, hn, hinp.k_shape _ hblock, hinp.v_shape _ hblock, by simp⟩

section

variable (hkernel : ExactKernel scale layout kernel)
include hkernel

/-- One step on one rank. -/
lemma rankStep_ok (hn : 0 < n) (hinp : RingShapes P B S n H D inp) {r step : ℕ} (hr : r < P)
    (hstep : step < P) {st : RankState ℝ} (hst : Holds B S H D scale layout (inp.q r) st) :
    ∃ st', rankStep (updateOutAndLse realActivation) kernel inp step r (inp.k (blockAt P r step))
        (inp.v (blockAt P r step)) st = .ok st' ∧
      Holds B S H D scale layout (inp.q r) st' ∧
      st'.calls = st.calls ++
        if inp.causal = false ∨ step ≤ r then [callAt inp P r step] else [] := by
  by_cases hused : inp.causal = false ∨ step ≤ r
  · obtain ⟨hblock, hcausal, hshape⟩ := stepBlock_ok hn hinp hr hstep
    obtain ⟨acc, hacc, hholds⟩ := merged_update hkernel (hinp.q_shape r hr) hst hshape
    refine ⟨_, ?_, hholds, by rw [if_pos hused]⟩
    rw [hcausal] at hacc
    have hcall : callAt inp P r step =
        ⟨(callAt inp P r step).k, (callAt inp P r step).v, inp.causal && step == 0⟩ := by
      rw [← hcausal]
    rw [rankStep, if_pos hused, hblock]
    simp only [bind, Except.bind, hacc]
    rw [← hcall]
  · exact ⟨st, by rw [rankStep, if_neg hused], hst, by rw [if_neg hused, append_nil]⟩

/-- After some steps: nothing is in flight, each rank holds its next block and has merged the calls
before. -/
structure RingInv (P B S H D : ℕ) (scale : ℝ) (layout : LseLayout) (inp : RingInput ℝ)
    (steps : ℕ) (st : RingState ℝ) : Prop where
  reqs : st.comm.reqs = none
  k_eq : steps < P → ∀ r < P, st.k r = inp.k (blockAt P r steps)
  v_eq : steps < P → ∀ r < P, st.v r = inp.v (blockAt P r steps)
  holds : ∀ r < P, Holds B S H D scale layout (inp.q r) (st.ranks r)
  calls : ∀ r < P, (st.ranks r).calls = callsBefore inp P r steps

omit hkernel in
lemma sendRecv_ok {comm : RingComm} (hreqs : comm.reqs = none) (x : ℕ → NdTensor ℝ) :
    ∃ res, comm.sendRecv P x = .ok (⟨comm.ops + 2, none⟩, res) ∧
      ∀ r < P, res r = x (recvRank P r) := by
  obtain ⟨res, hres, hget⟩ := onRanks_ok (n := P) (Q := fun r y => y = x (recvRank P r))
    (f := fun r => if sendRank P (recvRank P r) = r then Except.ok (x (recvRank P r))
      else Except.error RingError.noMessage)
    fun r hr => ⟨_, if_pos (sendRank_recvRank hr), rfl⟩
  refine ⟨res, ?_, hget⟩
  simp only [RingComm.sendRecv, hres, bind, Except.bind, hreqs]

/-- One step of the loop. -/
lemma ringStep_ok (hn : 0 < n) (hinp : RingShapes P B S n H D inp) {step : ℕ} (hstep : step < P)
    {st : RingState ℝ} (hst : RingInv P B S H D scale layout inp step st) :
    ∃ st', ringStep P (updateOutAndLse realActivation) kernel inp st step = .ok st' ∧
      RingInv P B S H D scale layout inp (step + 1) st' := by
  obtain ⟨ranks, hranks, hspec⟩ := onRanks_ok (n := P)
    (Q := fun r st' => Holds B S H D scale layout (inp.q r) st' ∧
      st'.calls = callsBefore inp P r (step + 1))
    (f := fun r => rankStep (updateOutAndLse realActivation) kernel inp step r (st.k r) (st.v r)
      (st.ranks r)) (by
    intro r hr
    obtain ⟨st', hst', hholds, hcalls⟩ := rankStep_ok hkernel hn hinp hr hstep (hst.holds r hr)
    rw [← hst.k_eq hstep r hr, ← hst.v_eq hstep r hr] at hst'
    exact ⟨st', hst', hholds, by rw [hcalls, hst.calls r hr, callsBefore_succ]⟩)
  by_cases hlast : step + 1 ≠ P
  · obtain ⟨nextK, hnextK, hK⟩ := sendRecv_ok (P := P) hst.reqs st.k
    obtain ⟨nextV, hnextV, hV⟩ := sendRecv_ok (P := P)
      (show (⟨st.comm.ops + 2, none⟩ : RingComm).reqs = none from rfl) st.v
    refine ⟨⟨{}, nextK, nextV, ranks⟩, ?_, rfl, fun _ r hr => ?_, fun _ r hr => ?_,
      fun r hr => (hspec r hr).1, fun r hr => (hspec r hr).2⟩
    · rw [ringStep, if_pos hlast, hnextK]
      simp only [bind, Except.bind, hnextV, RingComm.commit, Option.isSome_none, hranks,
        RingComm.wait, Option.isNone_some, Bool.false_eq_true, if_false]
    · change nextK r = _
      rw [hK r hr, hst.k_eq hstep _ (recvRank_lt hr)]
      rfl
    · change nextV r = _
      rw [hV r hr, hst.v_eq hstep _ (recvRank_lt hr)]
      rfl
  · refine ⟨⟨st.comm, st.k, st.v, ranks⟩, ?_, hst.reqs, fun hlt => absurd hlt (by omega),
      fun hlt => absurd hlt (by omega), fun r hr => (hspec r hr).1, fun r hr => (hspec r hr).2⟩
    rw [ringStep, if_neg hlast, hranks]
    rfl

/-- The loop, by induction over its steps. -/
lemma ringLoop_ok (hn : 0 < n) (hinp : RingShapes P B S n H D inp) :
    ∃ st, ringLoop P (updateOutAndLse realActivation) kernel inp = .ok st ∧
      RingInv P B S H D scale layout inp P st := by
  have hrun : ∀ steps ≤ P, ∃ st, (range steps).foldlM
      (ringStep P (updateOutAndLse realActivation) kernel inp) ⟨{}, inp.k, inp.v, fun _ => {}⟩ =
        .ok st ∧ RingInv P B S H D scale layout inp steps st := by
    intro steps
    induction steps with
    | zero =>
      exact fun _ => ⟨_, rfl, rfl, fun _ _ _ => rfl, fun _ _ _ => rfl, fun _ _ => rfl,
        fun _ _ => rfl⟩
    | succ steps ih =>
      intro hle
      obtain ⟨st, hst, hinv⟩ := ih (Nat.le_of_succ_le hle)
      obtain ⟨st', hst', hinv'⟩ := ringStep_ok hkernel hn hinp hle hinv
      refine ⟨st', ?_, hinv'⟩
      rw [range_succ, foldlM_append, hst]
      exact (bind_pure _).trans hst'
  exact hrun P le_rfl

end

end Loop

/-! ## The attention over all keys -/

section Attention

variable {P B S n H D r : ℕ} {inp : RingInput ℝ} {scale : ℝ} {layout : LseLayout}
  {kernel : Kernel ℝ}

/-- The scored values of the joint part for a row. -/
noncomputable def jointRow (scale : ℝ) (inp : RingInput ℝ) (r b s h d : ℕ) : List (ℝ × ℝ) :=
  match inp.jointKey r, inp.jointValue r with
  | some jointKey, some jointValue => keyRow scale (inp.q r) ⟨jointKey, jointValue, false⟩ b s h d
  | _, _ => []

/-- The scored values that a row attends to: the joint part and the blocks of all ranks, or under
the mask the blocks up to the own, with the mask in the own block. -/
noncomputable def attentionRow (scale : ℝ) (inp : RingInput ℝ) (P r b s h d : ℕ) : List (ℝ × ℝ) :=
  jointRow scale inp r b s h d ++ (range (usedSteps P inp.causal r)).flatMap fun j =>
    keyRow scale (inp.q r) ⟨inp.k j, inp.v j, inp.causal && j == r⟩ b s h d

/-- A rank has used each block once, the own one with the joint part, and returns the attention over
all keys. -/
structure AttentionRight (P B S H D : ℕ) (scale : ℝ) (inp : RingInput ℝ) (r : ℕ)
    (res : RingOutput ℝ) : Prop where
  calls_once : ∃ remote : List ℕ, (r :: remote).Perm (range (usedSteps P inp.causal r)) ∧
    res.calls = localCall inp r :: remote.map (remoteCall inp)
  out_shape : res.out.shape = [B, S, H, D]
  out_get : ∀ b < B, ∀ s < S, ∀ h < H, ∀ d < D,
    res.out.get [b, s, h, d] = softmaxMean (attentionRow scale inp P r b s h d)

/-- The ranks whose blocks pass a rank after its own. -/
def remoteBlocks (P : ℕ) (causal : Bool) (r : ℕ) : List ℕ :=
  (range (usedSteps P causal r - 1)).map fun i => blockAt P r (i + 1)

lemma range_usedSteps (causal : Bool) (hr : r < P) :
    range (usedSteps P causal r) =
      0 :: (range (usedSteps P causal r - 1)).map Nat.succ := by
  rw [← range_succ_eq_map, Nat.sub_add_cancel (usedSteps_pos causal hr)]

lemma remoteBlocks_perm (causal : Bool) (hr : r < P) :
    (r :: remoteBlocks P causal r).Perm (range (usedSteps P causal r)) := by
  have hperm := blocks_perm causal hr
  rw [range_usedSteps causal hr, map_cons, map_map] at hperm
  rw [range_usedSteps causal hr]
  exact hperm

lemma length_remoteBlocks (P : ℕ) (causal : Bool) (r : ℕ) :
    (remoteBlocks P causal r).length = usedSteps P causal r - 1 := by
  rw [remoteBlocks, length_map, length_range]

lemma filter_le_range {m : ℕ} (hr : r < m) :
    (range m).filter (fun t => decide (t ≤ r)) = range (r + 1) := by
  obtain ⟨l, rfl⟩ := Nat.exists_eq_add_of_le (Nat.succ_le_of_lt hr)
  rw [range_add, filter_append, filter_eq_self.mpr, filter_eq_nil_iff.mpr,
    append_nil]
  · intro t ht
    obtain ⟨i, _, rfl⟩ := mem_map.mp ht
    simp only [decide_eq_true_eq]
    omega
  · intro t ht
    have hlt := mem_range.mp ht
    simp only [decide_eq_true_eq]
    omega

lemma filter_steps (inp : RingInput ℝ) (hr : r < P) :
    (range P).filter (fun step => decide (inp.causal = false ∨ step ≤ r)) =
      range (usedSteps P inp.causal r) := by
  cases hcausal : inp.causal
  · simp [usedSteps]
  · simpa [usedSteps] using filter_le_range hr

/-- The calls of the whole loop. -/
lemma callsBefore_all (inp : RingInput ℝ) (hr : r < P) :
    callsBefore inp P r P =
      localCall inp r :: (remoteBlocks P inp.causal r).map (remoteCall inp) := by
  rw [callsBefore, filter_steps inp hr, range_usedSteps inp.causal hr, map_cons, map_map,
    remoteBlocks, map_map]
  rfl

lemma returned_ok {st : RingState ℝ} (hst : RingInv P B S H D scale layout inp P st)
    (finish : NdTensor ℝ → Option (NdTensor ℝ)) :
    ∃ res, onRanks P (fun r => returned finish (st.ranks r)) = .ok res ∧ ∀ r < P,
      (res r).calls = callsBefore inp P r P ∧
      ∃ lse, Merged B S H D scale layout (inp.q r) (res r).calls (res r).out lse := by
  refine onRanks_ok (Q := fun r (out : RingOutput ℝ) => out.calls = callsBefore inp P r P ∧
    ∃ lse, Merged B S H D scale layout (inp.q r) out.calls out.out lse) fun r hr => ?_
  have hcalls := hst.calls r hr
  have hholds := hst.holds r hr
  rw [returned]
  rw [Holds] at hholds
  cases hacc : (st.ranks r).acc with
  | none =>
    rw [hacc, hcalls, callsBefore_all inp hr] at hholds
    cases hholds
  | some acc =>
    rw [hacc] at hholds
    exact ⟨_, rfl, hcalls, acc.2, hholds.2⟩

lemma forward_ok (hkernel : ExactKernel scale layout kernel) (hn : 0 < n)
    (hinp : RingShapes P B S n H D inp) (finish : NdTensor ℝ → Option (NdTensor ℝ)) :
    ∃ res, (ringLoop P (updateOutAndLse realActivation) kernel inp >>= fun st =>
        onRanks P fun r => returned finish (st.ranks r)) = .ok res ∧ ∀ r < P,
      (res r).calls = callsBefore inp P r P ∧
      ∃ lse, Merged B S H D scale layout (inp.q r) (res r).calls (res r).out lse := by
  obtain ⟨st, hst, hinv⟩ := ringLoop_ok hkernel hn hinp
  rw [hst]
  exact returned_ok hinv finish

/-! ### The keys of all calls -/

lemma visibleKeys_false (m s : ℕ) : visibleKeys m false s = range m := by
  simp [visibleKeys]

lemma keyRow_append {k k' v v' : NdTensor ℝ} {m m' : ℕ} (q : NdTensor ℝ)
    (hk : k.shape = [B, m, H, D]) (hk' : k'.shape = [B, m', H, D]) (hv : v.shape = [B, m, H, D])
    (b s h d : ℕ) :
    keyRow scale q ⟨k.append 1 k', v.append 1 v', false⟩ b s h d =
      keyRow scale q ⟨k, v, false⟩ b s h d ++ keyRow scale q ⟨k', v', false⟩ b s h d := by
  have hlength : (k.append 1 k').shape.getD 1 0 = m + m' := by simp [NdTensor.append, hk, hk']
  have hm : k.shape.getD 1 0 = m := by simp [hk]
  have hm' : k'.shape.getD 1 0 = m' := by simp [hk']
  simp only [keyRow, visibleKeys_false, hlength, hm, hm', range_add, map_append,
    map_map]
  congr 1
  · refine map_congr_left fun t ht => ?_
    have hlt := mem_range.mp ht
    simp [score, NdTensor.append, hk, hv, hlt]
  · refine map_congr_left fun t _ => ?_
    simp [score, NdTensor.append, hk, hv, Function.comp]

lemma keyRow_withJoint (front : Bool) {jointKey jointValue k v : NdTensor ℝ} {L : ℕ}
    (q : NdTensor ℝ) (hkey : jointKey.shape = [B, L, H, D])
    (hvalue : jointValue.shape = [B, L, H, D]) (hk : k.shape = [B, n, H, D])
    (hv : v.shape = [B, n, H, D]) (b s h d : ℕ) :
    (keyRow scale q ⟨withJoint front jointKey k, withJoint front jointValue v, false⟩ b s h d).Perm
      (keyRow scale q ⟨jointKey, jointValue, false⟩ b s h d ++
        keyRow scale q ⟨k, v, false⟩ b s h d) := by
  cases front
  · exact (List.Perm.of_eq (keyRow_append q hk hkey hv b s h d)).trans perm_append_comm
  · exact List.Perm.of_eq (keyRow_append q hkey hk hvalue b s h d)

lemma keyRow_ne_nil {c : KernelCall ℝ} (hc : BlockShape B S H D c) (q : NdTensor ℝ)
    (b s h d : ℕ) : keyRow scale q c b s h d ≠ [] := by
  obtain ⟨m, hm, hk, -, -⟩ := hc.exists_shape
  have hmem : 0 ∈ visibleKeys m c.causal s := by simp [visibleKeys, hm]
  rw [keyRow, Ne, map_eq_nil_iff, hk]
  exact ne_nil_of_mem hmem

section Shapes

variable (hn : 0 < n) (hinp : RingShapes P B S n H D inp) (hr : r < P)
include hinp hr

lemma keyRow_localCall (b s h d : ℕ) :
    (keyRow scale (inp.q r) (localCall inp r) b s h d).Perm
      (jointRow scale inp r b s h d ++
        keyRow scale (inp.q r) ⟨inp.k r, inp.v r, inp.causal⟩ b s h d) := by
  cases hkey : inp.jointKey r with
  | none => simp [localCall, jointRow, hkey]
  | some jointKey =>
    obtain ⟨L, jointValue, hvalue, hkeyShape, hvalueShape⟩ := hinp.joint_shape r hr jointKey hkey
    have hcausal : inp.causal = false := by
      by_contra hne
      rw [hinp.joint_causal (Bool.eq_true_of_not_eq_false hne) r hr] at hkey
      cases hkey
    simp only [localCall, jointRow, hkey, hvalue, hcausal]
    exact keyRow_withJoint inp.front (inp.q r) hkeyShape hvalueShape (hinp.k_shape r hr)
      (hinp.v_shape r hr) b s h d

/-- The keys of all calls. -/
lemma keyRow_calls (b s h d : ℕ) :
    ((callsBefore inp P r P).flatMap fun c => keyRow scale (inp.q r) c b s h d).Perm
      (attentionRow scale inp P r b s h d) := by
  have hperm := remoteBlocks_perm inp.causal hr
  have hnodup : (r :: remoteBlocks P inp.causal r).Nodup := hperm.nodup_iff.mpr nodup_range
  have hremote : (remoteBlocks P inp.causal r).flatMap
        (fun j => keyRow scale (inp.q r) ⟨inp.k j, inp.v j, inp.causal && j == r⟩ b s h d) =
      ((remoteBlocks P inp.causal r).map (remoteCall inp)).flatMap
        fun c => keyRow scale (inp.q r) c b s h d := by
    rw [flatMap_map]
    refine flatMap_congr fun j hj => ?_
    have hne : (j == r) = false :=
      beq_eq_false_iff_ne.mpr fun hjr => (nodup_cons.mp hnodup).1 (hjr ▸ hj)
    rw [hne, Bool.and_false, remoteCall]
  have hblocks := hperm.flatMap_right fun j =>
    keyRow scale (inp.q r) ⟨inp.k j, inp.v j, inp.causal && j == r⟩ b s h d
  rw [flatMap_cons, hremote, beq_self_eq_true, Bool.and_true] at hblocks
  rw [callsBefore_all inp hr, flatMap_cons, attentionRow]
  refine ((keyRow_localCall hinp hr b s h d).append_right _).trans ?_
  rw [append_assoc]
  exact hblocks.append_left _

include hn

lemma blockShape_of_mem {c : KernelCall ℝ} (hc : c ∈ callsBefore inp P r P) :
    BlockShape B S H D c := by
  obtain ⟨step, hstep, rfl⟩ := mem_map.mp hc
  exact (stepBlock_ok hn hinp hr (mem_range.mp (mem_of_mem_filter hstep))).2.2

/-- The average over the calls with their log-sum-exps is the average over all keys. -/
lemma softmaxMean_calls (b s h d : ℕ) :
    softmaxMean ((callsBefore inp P r P).map fun c =>
      (blockScore scale (inp.q r) c b s h, softmaxMean (keyRow scale (inp.q r) c b s h d))) =
      softmaxMean (attentionRow scale inp P r b s h d) := by
  have hparts := softmaxMean_map_parts (callsBefore inp P r P)
    (fun c => keyRow scale (inp.q r) c b s h d)
    fun c hc => keyRow_ne_nil (blockShape_of_mem hn hinp hr hc) (inp.q r) b s h d
  simp only [map_fst_keyRow] at hparts
  exact hparts.trans (softmaxMean_perm (keyRow_calls hinp hr b s h d))

/-! ### The condition -/

/-- Row and head are not exchanged, or the exchange does not matter. -/
def ExchangeHarmless (layout : LseLayout) (causal : Bool) (P r B S H D : ℕ) : Prop :=
  ¬layout.Secondary ∨ S ≠ H ∨ S ≤ 1 ∨ usedSteps P causal r ≤ 1 ∨ B = 0 ∨ D = 0

lemma softmaxMean_readScore (hcond : ExchangeHarmless layout inp.causal P r B S H D)
    {b s h d : ℕ} (hb : b < B) (hs : s < S) (hh : h < H) (hd : d < D) :
    softmaxMean ((callsBefore inp P r P).map fun c =>
      (readScore scale layout S H (inp.q r) c b s h,
        softmaxMean (keyRow scale (inp.q r) c b s h d))) =
      softmaxMean (attentionRow scale inp P r b s h d) := by
  rw [← softmaxMean_calls hn hinp hr b s h d]
  -- A single block is not weighed; otherwise the merge reads the scores of the row and the head.
  by_cases hsingle : usedSteps P inp.causal r ≤ 1
  · have hcalls : callsBefore inp P r P = [localCall inp r] := by
      rw [callsBefore_all inp hr, remoteBlocks, Nat.sub_eq_zero_of_le hsingle]
      rfl
    rw [hcalls, map_singleton, map_singleton, softmaxMean_singleton,
      softmaxMean_singleton]
  · have hread : ∀ c, readScore scale layout S H (inp.q r) c b s h =
        blockScore scale (inp.q r) c b s h := by
      intro c
      rw [readScore]
      split_ifs with hsecond
      · obtain ⟨hlayout, rfl⟩ := hsecond
        have hsmall : S ≤ 1 := by
          rcases hcond with h1 | h2 | h3 | h4 | h5 | h6
          · exact absurd hlayout h1
          · exact absurd rfl h2
          · exact h3
          · exact absurd h4 hsingle
          · omega
          · omega
        obtain rfl : s = h := by omega
        rfl
      · rfl
    simp only [hread]

/-- Under the condition the rank returns the attention over all keys. -/
lemma attentionRight_of_merged (hcond : ExchangeHarmless layout inp.causal P r B S H D)
    {res : RingOutput ℝ} {lse : NdTensor ℝ} (hcalls : res.calls = callsBefore inp P r P)
    (hmerged : Merged B S H D scale layout (inp.q r) res.calls res.out lse) :
    AttentionRight P B S H D scale inp r res where
  calls_once := ⟨remoteBlocks P inp.causal r, remoteBlocks_perm inp.causal hr,
    hcalls.trans (callsBefore_all inp hr)⟩
  out_shape := hmerged.out_shape
  out_get b hb s hs h hh d hd := by
    rw [hmerged.out_get b hb s hs h hh d hd, hcalls]
    exact softmaxMean_readScore hn hinp hr hcond hb hs hh hd

end Shapes

end Attention

/-! ## As many rows as heads -/

section Skew

variable {P B S n H D r : ℕ} {causal : Bool}

/-- The first row of the second head attends most to the own block, which the values tell apart. -/
noncomputable def skewInput (B S n H D r : ℕ) (causal : Bool) : RingInput ℝ where
  q _ := ⟨[B, S, H, D], fun idx =>
    if idx.getD 1 0 = 0 ∧ idx.getD 2 0 = 1 ∧ idx.getD 3 0 = 0 then 1 else 0⟩
  k j := ⟨[B, n, H, D], fun idx => if j = r ∧ idx.getD 3 0 = 0 then Real.log 3 else 0⟩
  v j := ⟨[B, n, H, D], fun _ => if j = r then 1 else 0⟩
  causal := causal

lemma skewInput_shapes (P B H D r : ℕ) (hlength : causal = true → n = S) :
    RingShapes P B S n H D (skewInput B S n H D r causal) where
  q_shape _ _ := rfl
  k_shape _ _ := rfl
  v_shape _ _ := rfl
  joint_shape _ _ _ h := by cases h
  joint_causal _ _ _ := rfl
  length_causal := hlength

/-- The weight of a key of the own block. -/
def skewWeight (s h : ℕ) : ℕ := if s = 0 ∧ h = 1 then 3 else 1

/-- The average of equal values. -/
lemma softmaxMean_replicate {m : ℕ} (hm : 0 < m) (x v : ℝ) :
    softmaxMean (replicate m (x, v)) = v := by
  have hw : (m : ℝ) * Real.exp x ≠ 0 := by positivity
  simp [softmaxMean, weightedSum, weight, ← mul_assoc,
    mul_div_cancel_left₀ v hw]

/-- The number of keys of a block that a row attends to. -/
def visibleCount (n : ℕ) (causal : Bool) (s : ℕ) : ℕ := (visibleKeys n causal s).length

lemma visibleCount_false (n s : ℕ) : visibleCount n false s = n := by
  rw [visibleCount, visibleKeys_false, length_range]

lemma visibleCount_true {s : ℕ} (hs : s < n) : visibleCount n true s = s + 1 := by
  have hfilter : visibleKeys n true s = range (s + 1) := by
    simpa [visibleKeys] using filter_le_range hs
  rw [visibleCount, hfilter, length_range]

lemma visibleCount_pos (hn : 0 < n) (causal : Bool) (s : ℕ) : 0 < visibleCount n causal s :=
  length_pos_of_mem (a := 0) (by simp [visibleKeys, hn])

section Skewed

variable {inp : RingInput ℝ} (hinp : inp = skewInput B S n H D r causal)
include hinp

/-- The own block has the skewed score. -/
lemma score_skewInput (hD : 0 < D) (j b s h t : ℕ) :
    score 1 (inp.q r) (inp.k j) b s h t =
      Real.log (if j = r then skewWeight s h else 1 : ℕ) := by
  obtain ⟨D, rfl⟩ := Nat.exists_eq_succ_of_ne_zero hD.ne'
  -- Only the first coordinate of the query is not zero.
  have hprod : ∀ e, (inp.q r).get [b, s, h, e] * (inp.k j).get [b, t, h, e] =
        if e = 0 then (if j = r ∧ s = 0 ∧ h = 1 then Real.log 3 else 0) else 0 := by
    intro e
    simp only [hinp, skewInput, getD_cons_succ, getD_cons_zero]
    split_ifs <;> simp_all
  have hsum : score 1 (inp.q r) (inp.k j) b s h t =
        if j = r ∧ s = 0 ∧ h = 1 then Real.log 3 else 0 := by
    simp only [score, hprod]
    subst hinp
    change 1 * ((range (D + 1)).map _).sum = _
    simp [range_succ_eq_map, Function.comp_def]
  rw [hsum, skewWeight]
  split_ifs <;> simp_all

lemma keyRow_skewInput (hD : 0 < D) (j b s h d : ℕ) (masked : Bool) :
    keyRow 1 (inp.q r) ⟨inp.k j, inp.v j, masked⟩ b s h d =
      replicate (visibleCount n masked s)
        (Real.log (if j = r then skewWeight s h else 1 : ℕ), if j = r then 1 else 0) := by
  simp only [keyRow, score_skewInput hinp hD]
  subst hinp
  exact map_eq_replicate_iff.mpr fun _ _ => rfl

lemma blockScore_skewInput (hD : 0 < D) (j b s h : ℕ) (masked : Bool) :
    blockScore 1 (inp.q r) ⟨inp.k j, inp.v j, masked⟩ b s h =
      Real.log (visibleCount n masked s * (if j = r then skewWeight s h else 1 : ℕ)) := by
  rw [← map_fst_keyRow 1 _ _ b s h 0, keyRow_skewInput hinp hD]
  have hpos : (0 : ℝ) < (if j = r then skewWeight s h else 1 : ℕ) := by
    rw [skewWeight]
    split_ifs <;> norm_num
  rw [logSumExp, weight, map_replicate, map_replicate,
    sum_replicate, Real.exp_log hpos, nsmul_eq_mul]

/-- The average over the calls, with the weights of any row and head. -/
lemma softmaxMean_skewInput (hn : 0 < n) (hD : 0 < D) (hr : r < P) (b s h d s' h' : ℕ) :
    softmaxMean ((callsBefore inp P r P).map fun c =>
      (blockScore 1 (inp.q r) c b s' h', softmaxMean (keyRow 1 (inp.q r) c b s h d))) =
      (visibleCount n causal s' * skewWeight s' h' : ℕ) /
        ((visibleCount n causal s' * skewWeight s' h' + (usedSteps P causal r - 1) * n : ℕ) :
          ℝ) := by
  have hnodup : (r :: remoteBlocks P causal r).Nodup :=
    (remoteBlocks_perm causal hr).nodup_iff.mpr nodup_range
  have hlocal : (blockScore 1 (inp.q r) (localCall inp r) b s' h',
      softmaxMean (keyRow 1 (inp.q r) (localCall inp r) b s h d)) =
      (Real.log (visibleCount n causal s' * skewWeight s' h'), 1) := by
    have hcall : localCall inp r = ⟨inp.k r, inp.v r, causal⟩ := by rw [hinp]; rfl
    rw [hcall, blockScore_skewInput hinp hD, keyRow_skewInput hinp hD,
      softmaxMean_replicate (visibleCount_pos hn causal s), if_pos rfl, if_pos rfl]
  have hremote : ((remoteBlocks P causal r).map (remoteCall inp)).map
      (fun c => (blockScore 1 (inp.q r) c b s' h', softmaxMean (keyRow 1 (inp.q r) c b s h d))) =
      replicate (usedSteps P causal r - 1) (Real.log n, 0) := by
    rw [map_map, ← length_remoteBlocks]
    refine map_eq_replicate_iff.mpr fun j hj => ?_
    have hne : j ≠ r := fun hjr => (nodup_cons.mp hnodup).1 (hjr ▸ hj)
    rw [Function.comp_apply, remoteCall, blockScore_skewInput hinp hD, keyRow_skewInput hinp hD,
      softmaxMean_replicate (visibleCount_pos hn false s), if_neg hne, if_neg hne,
      visibleCount_false, Nat.cast_one, mul_one]
  have hweight : (0 : ℝ) < visibleCount n causal s' * skewWeight s' h' := by
    have hcount : (0 : ℝ) < visibleCount n causal s' := by
      exact_mod_cast visibleCount_pos hn causal s'
    have hskew : (0 : ℝ) < skewWeight s' h' := by
      rw [skewWeight]
      split_ifs <;> norm_num
    positivity
  have hn' : (0 : ℝ) < n := by exact_mod_cast hn
  have hcalls : callsBefore inp P r P =
      localCall inp r :: (remoteBlocks P causal r).map (remoteCall inp) := by
    rw [callsBefore_all inp hr, hinp]
    rfl
  rw [hcalls, map_cons, hlocal, hremote]
  simp [softmaxMean, weightedSum, weight, Real.exp_log hweight,
    Real.exp_log hn']

end Skewed

/-- What is returned for the first row of the second head if rows are taken for heads. -/
lemma out_skewInput (hlayout : layout.Secondary) (hn : 0 < n) (hB : 0 < B)
    (hS : 1 < S) (hD : 0 < D) (hr : r < P) {out lse : NdTensor ℝ}
    (hmerged : Merged B S S D 1 layout ((skewInput B S n S D r causal).q r)
      (callsBefore (skewInput B S n S D r causal) P r P) out lse) :
    out.get [0, 0, 1, 0] = (visibleCount n causal 1 : ℕ) /
      ((visibleCount n causal 1 + (usedSteps P causal r - 1) * n : ℕ) : ℝ) := by
  have hread : ∀ c, readScore 1 layout S S ((skewInput B S n S D r causal).q r) c 0 0 1 =
      blockScore 1 ((skewInput B S n S D r causal).q r) c 0 1 0 :=
    fun c => if_pos ⟨hlayout, rfl⟩
  rw [hmerged.out_get 0 hB 0 (by omega) 1 hS 0 hD]
  simp only [hread, softmaxMean_skewInput rfl hn hD hr]
  rw [show skewWeight 1 0 = 1 from rfl, Nat.mul_one]

lemma attention_skewInput (hn : 0 < n) (hD : 0 < D) (hr : r < P)
    (hlength : causal = true → n = S) :
    softmaxMean (attentionRow 1 (skewInput B S n H D r causal) P r 0 0 1 0) =
      (visibleCount n causal 0 * 3 : ℕ) /
        ((visibleCount n causal 0 * 3 + (usedSteps P causal r - 1) * n : ℕ) : ℝ) := by
  rw [← softmaxMean_calls hn (skewInput_shapes P B H D r hlength) hr,
    softmaxMean_skewInput rfl hn hD hr]
  rfl

/-- The exchanged counts differ. -/
lemma visibleCount_one_ne (hS : 1 < S) (hlength : causal = true → n = S) (hn : 0 < n) :
    visibleCount n causal 1 ≠ visibleCount n causal 0 * 3 := by
  cases causal
  · rw [visibleCount_false, visibleCount_false]
    omega
  · have hnS := hlength rfl
    rw [visibleCount_true (by omega), visibleCount_true hn]
    decide

/-- Shares of different weights differ. -/
lemma share_injective {a c x : ℕ} (hx : 0 < x)
    (h : (a : ℝ) / ((a + x : ℕ) : ℝ) = (c : ℝ) / ((c + x : ℕ) : ℝ)) : a = c := by
  have hx' : (0 : ℝ) < x := by exact_mod_cast hx
  push_cast at h
  rw [div_eq_div_iff (by positivity) (by positivity)] at h
  have hmul : (a : ℝ) * x = c * x := by linarith
  exact_mod_cast mul_right_cancel₀ hx'.ne' hmul

end Skew

/-! ## Both functions -/

/-- A function returns the attention over all keys. -/
def ForwardRight (P B S H D : ℕ) (scale : ℝ) (inp : RingInput ℝ) (r : ℕ)
    (forward : Except RingError (ℕ → RingOutput ℝ)) : Prop :=
  ∃ res, forward = .ok res ∧ AttentionRight P B S H D scale inp r (res r)

/-- For all shards of the sizes given and kernels that are exact in a layout, both functions return
the attention over all keys. -/
def RingExact (layout : LseLayout) (causal : Bool) (P r B S n H D : ℕ) : Prop :=
  ∀ (scale : ℝ) (kernel : Kernel ℝ), ExactKernel scale layout kernel →
    ∀ inp : RingInput ℝ, inp.causal = causal → RingShapes P B S n H D inp →
      ForwardRight P B S H D scale inp r (ringFlashAttnForward P realActivation false kernel inp) ∧
      ForwardRight P B S H D scale inp r (ringAttentionForward P realActivation kernel inp)

/-- Ring attention is the attention over all keys, unless row and head are exchanged and the
exchange matters. -/
theorem ring_attention_right_iff {P r n S : ℕ} {causal : Bool} (hr : r < P) (hn : 0 < n)
    (hlength : causal = true → n = S) (layout : LseLayout) (B H D : ℕ) :
    RingExact layout causal P r B S n H D ↔ ExchangeHarmless layout causal P r B S H D := by
  constructor
  · intro hright
    by_contra hcond
    simp only [ExchangeHarmless, not_or, not_not, not_le] at hcond
    obtain ⟨hlayout, rfl, hS, hused, hB, hD⟩ := hcond
    have hinp : RingShapes P B S n S D (skewInput B S n S D r causal) :=
      skewInput_shapes P B S D r hlength
    obtain ⟨res, hres, hattention⟩ :=
      (hright 1 (exactKernel 1 layout) (exactKernel_exact 1 layout) _ rfl hinp).2
    obtain ⟨res', hres', hspec⟩ := forward_ok (exactKernel_exact 1 layout) hn hinp fun _ => none
    cases hres.symm.trans hres'
    obtain ⟨hcalls, lse, hmerged⟩ := hspec r hr
    rw [hcalls] at hmerged
    have hout := hattention.out_get 0 (Nat.pos_of_ne_zero hB) 0 (by omega) 1 hS 0
      (Nat.pos_of_ne_zero hD)
    rw [out_skewInput hlayout hn (Nat.pos_of_ne_zero hB) hS (Nat.pos_of_ne_zero hD) hr hmerged,
      attention_skewInput hn (Nat.pos_of_ne_zero hD) hr hlength] at hout
    exact visibleCount_one_ne hS hlength hn
      (share_injective (Nat.mul_pos (Nat.sub_pos_of_lt hused) hn) hout)
  · intro hcond scale kernel hkernel inp hcausal hinp
    rw [← hcausal] at hcond
    constructor
    · obtain ⟨res, hres, hspec⟩ := forward_ok hkernel hn hinp
        fun lse => some (lse.squeezeLast.transpose 1 2)
      obtain ⟨hcalls, lse, hmerged⟩ := hspec r hr
      exact ⟨res, hres, attentionRight_of_merged hn hinp hr hcond hcalls hmerged⟩
    · obtain ⟨res, hres, hspec⟩ := forward_ok hkernel hn hinp fun _ => none
      obtain ⟨hcalls, lse, hmerged⟩ := hspec r hr
      exact ⟨res, hres, attentionRight_of_merged hn hinp hr hcond hcalls hmerged⟩

/-- The last of three ranks, under the mask, with the layout of the kernels. -/
theorem ring_attention_right_threeRanks : RingExact .bhs true 3 2 1 2 2 2 4 :=
  (ring_attention_right_iff (by decide) (by decide) (fun _ => rfl) .bhs 1 2 4).mpr
    (.inl (by decide))

/-- Two ranks, rows and heads in the layout `(B, S, H)`: the first row of the second head should get
three quarters of the own block, and gets one half. -/
theorem attention_wrong_twoHeads :
    ∃ res, ringAttentionForward 2 realActivation (exactKernel 1 .bsh)
        (skewInput 1 2 2 2 1 0 false) = .ok res ∧
      (res 0).out.get [0, 0, 1, 0] = 1 / 2 ∧
      softmaxMean (attentionRow 1 (skewInput 1 2 2 2 1 0 false) 2 0 0 0 1 0) = 3 / 4 := by
  have hinp : RingShapes 2 1 2 2 2 1 (skewInput 1 2 2 2 1 0 false) :=
    skewInput_shapes 2 1 2 1 0 (by simp)
  obtain ⟨res, hres, hspec⟩ := forward_ok (exactKernel_exact 1 .bsh) Nat.two_pos hinp fun _ => none
  obtain ⟨hcalls, lse, hmerged⟩ := hspec 0 Nat.two_pos
  rw [hcalls] at hmerged
  refine ⟨res, hres, ?_, ?_⟩
  · have hsecondary : LseLayout.bsh.Secondary := trivial
    rw [out_skewInput hsecondary Nat.two_pos Nat.one_pos Nat.one_lt_two Nat.one_pos Nat.two_pos
      hmerged, visibleCount_false]
    norm_num [usedSteps]
  · rw [attention_skewInput Nat.two_pos Nat.one_pos Nat.two_pos (by simp), visibleCount_false]
    norm_num [usedSteps]

end Exact

end RingAttention

end OmniStreaming
