import OmniStreaming.Diffusion.ParallelState
import OmniStreaming.Lib.Strides

/-!
# `GroupCoordinator.all_gather`

The collective operation of torch concatenates the tensors of all ranks in the order of their
memory, that is along the first dimension. For another dimension `dim` the result is reshaped to
one with the rank as its first dimension, which is then moved behind `dim` others. What is left is
to merge the rank with the dimension behind it, or, with `separate_tensors`, to cut the memory into
the tensors of the ranks.

The memory is cut through `view(-1)`, which does not copy. After the rank has been moved behind
dimensions that are larger than one, the values of a rank no longer lie together in the order of
the result, and the view is refused (`StridedTensor.viewFlat_moveFirst_iff`).
-/

namespace OmniStreaming

open List Tensors

inductive GatherError
  /-- `AssertionError`: `Invalid dim`. -/
  | invalidDim
  /-- The sizes of the ranks and of the output do not fit together. -/
  | sizes
  /-- `RuntimeError` of `reshape`: the shape has another number of elements. -/
  | shape
  /-- `RuntimeError` of `view`: the size is not compatible with size and stride. -/
  | view
  deriving DecidableEq

inductive Gathered (α : Type)
  | tensor (x : NdTensor α)
  | list (xs : List (NdTensor α))

variable {α : Type}

/-- `torch.distributed.all_gather_into_tensor`: the values of the ranks fill an output in order. -/
def allGatherIntoTensor (worldSize : ℕ) (input : ℕ → NdTensor α) (rank : ℕ) (size : List ℕ) :
    Except GatherError (NdTensor α) :=
  let numel := (input rank).numel
  if (∀ q < worldSize, (input q).numel = numel) ∧ size.prod = worldSize * numel then
    .ok
      { shape := size
        get := fun idx =>
          let place := ravel size idx
          ((input (place / numel)).view [numel]).get [place % numel] }
  else .error .sizes

/-- A negative dimension counts from the back. -/
def positiveDim (dims : ℕ) (dim : ℤ) : ℕ := (if dim < 0 then dim + dims else dim).toNat

namespace GroupCoordinator

def worldSize (g : GroupCoordinator) : ℕ := g.ranks.length

def rankInGroup (g : GroupCoordinator) : ℕ := g.ranks.idxOf g.rank

/-- `reshape` of a tensor, which owns its memory afterwards or shares it with one that does. -/
def reshaped (x : NdTensor α) (size : List ℕ) : Except GatherError (NdTensor α) :=
  match x.reshape size with
  | some y => .ok y
  | none => .error .shape

/-- The gathered tensor with the rank in front of dimension `dim`. -/
def rankAtDim (worldSize : ℕ) (inputSize : List ℕ) (dim : ℕ) (output : NdTensor α) :
    Except GatherError (StridedTensor α) :=
  if dim = 0 then .ok (.dense output)
  else (reshaped output (worldSize :: inputSize)).map fun y => (StridedTensor.dense y).moveFirst dim

/-- The memory of a tensor, cut into tensors of the size of `input`. -/
def separated (worldSize : ℕ) (input : NdTensor α) (output : StridedTensor α) :
    Except GatherError (List (NdTensor α)) :=
  match output.viewFlat with
  | some flat => .ok ((range worldSize).map fun i =>
      (flat.slice 0 (input.numel * i) (input.numel * i + input.numel)).view input.shape)
  | none => .error .view

/-- `all_gather`, where `input` holds the tensor of each rank of the group. -/
def allGather (g : GroupCoordinator) (input : ℕ → NdTensor α) (dim : ℤ) (separateTensors : Bool) :
    Except GatherError (Gathered α) :=
  let own := input g.rankInGroup
  let dims := own.shape.length
  if g.worldSize = 1 then .ok (.tensor own)
  else if ¬ (-(dims : ℤ) ≤ dim ∧ dim < dims) then .error .invalidDim
  else do
    let dim := positiveDim dims dim
    let output ← allGatherIntoTensor g.worldSize input g.rankInGroup
      (own.shape.modify 0 (· * g.worldSize))
    let output ← rankAtDim g.worldSize own.shape dim output
    if separateTensors then
      return .list (← separated g.worldSize own output)
    else
      return .tensor (← reshaped output.toNdTensor (own.shape.modify dim (· * g.worldSize)))

/-- The tensors are concatenated along the dimension in the order of the ranks, or returned as a
list. -/
structure AllGatherRight (g : GroupCoordinator) (input : ℕ → NdTensor α) (dim : ℤ) : Prop where
  concatenated : ∃ y z, g.allGather input dim false = .ok (.tensor y) ∧
    NdTensor.cat (positiveDim (input g.rankInGroup).shape.length dim)
      ((range g.worldSize).map input) = some z ∧ y.Same z
  separate : ∃ ys, g.allGather input dim true = .ok (.list ys) ∧
    List.Forall₂ NdTensor.Same ys ((range g.worldSize).map input)

/-! ## The gathered values -/

section Gather

variable {W : ℕ} {input : ℕ → NdTensor α} {shape u v : List ℕ} {n rank : ℕ}

/-- The values of the ranks follow one another in the tensor. -/
def HoldsRanks (W : ℕ) (input : ℕ → NdTensor α) (shape : List ℕ) (x : NdTensor α) : Prop :=
  ∀ idx q jdx, q < W → InShape jdx shape →
    ravel x.shape idx = q * shape.prod + ravel shape jdx → x.get idx = (input q).get jdx

lemma allGatherIntoTensor_ok {size : List ℕ} (hinput : ∀ q < W, (input q).shape = shape)
    (hrank : rank < W) (hsize : size.prod = W * shape.prod) :
    ∃ x, allGatherIntoTensor W input rank size = .ok x ∧ x.shape = size ∧
      HoldsRanks W input shape x := by
  have hnumel : ∀ q < W, (input q).numel = shape.prod := by
    intro q hq
    rw [NdTensor.numel, hinput q hq]
  have hown := hnumel rank hrank
  refine ⟨_, if_pos ⟨fun q hq => (hnumel q hq).trans hown.symm, hsize.trans (by rw [hown])⟩,
    rfl, ?_⟩
  intro idx q jdx hq hjdx hplace
  have hlt := ravel_lt hjdx
  have hdiv : (q * shape.prod + ravel shape jdx) / shape.prod = q := by
    rw [Nat.mul_comm, Nat.mul_add_div (Nat.zero_lt_of_lt hlt), Nat.div_eq_of_lt hlt, Nat.add_zero]
  simp only at hplace ⊢
  rw [hplace, hown, hdiv, Nat.mul_add_mod_of_lt hlt]
  refine NdTensor.get_view (by rwa [hinput q hq]) ?_
  simp [hinput q hq]

variable {x : NdTensor α}

lemma HoldsRanks.view {size : List ℕ} (h : HoldsRanks W input shape x)
    (hx : x.shape.prod = W * shape.prod) : HoldsRanks W input shape (x.view size) := by
  intro idx q jdx hq hjdx hplace
  apply h _ q jdx hq hjdx
  have hlt : ravel size idx < x.shape.prod := by
    rw [hx, show ravel size idx = _ from hplace]
    exact block_lt hq (ravel_lt hjdx)
  rw [ravel_unravel hlt]
  exact hplace

/-- What the tensor with the rank in front of a dimension is good for. -/
structure RankInFront (W : ℕ) (input : ℕ → NdTensor α) (u : List ℕ) (n : ℕ) (v : List ℕ)
    (y : StridedTensor α) : Prop where
  numel_eq : y.numel = W * (u ++ n :: v).prod
  merged : ∀ iu p j iv, InShape iu u → p < W → j < n → InShape iv v →
    (y.view (u ++ n * W :: v)).get (iu ++ (p * n + j) :: iv) = (input p).get (iu ++ j :: iv)
  flat : u.prod = 1 → ∀ p jdx, p < W → InShape jdx (u ++ n :: v) →
    (y.view [y.numel]).get [p * (u ++ n :: v).prod + ravel (u ++ n :: v) jdx] = (input p).get jdx
  viewFlat_iff : y.viewFlat.isSome ↔ (u ++ n :: v).prod = 0 ∨ u.prod = 1

/-- Along the first dimension, the gathered tensor is left as it is. -/
lemma rankInFront_dense (hx : x.shape = n * W :: v) (h : HoldsRanks W input (n :: v) x) :
    RankInFront W input [] n v (.dense x) := by
  have hprod : x.shape.prod = W * (n :: v).prod := by
    rw [hx, prod_cons, prod_cons]
    ring
  refine ⟨hprod, ?_, ?_, ?_⟩
  · intro iu p j iv hu hp hj hv
    cases hu
    refine (NdTensor.get_view_self hx (.cons ?_ hv)).trans (h _ p _ hp (.cons hj hv) ?_)
    · exact Nat.mul_comm W n ▸ block_lt hp hj
    · rw [hx]
      exact (ravel_split .nil v iv W n p j).symm
  · intro _ p jdx hp hjdx
    exact h.view hprod _ p jdx hp hjdx (by simp)
  · refine iff_of_true ?_ (.inr rfl)
    have hmerge : (mergeDims (x.shape.zip (denseStrides x.shape))).isSome := by
      rw [mergeDims_dense]
      rfl
    rw [StridedTensor.viewFlat, if_pos (.inr hmerge)]
    rfl

/-- Along another dimension, the rank is moved in front of it. -/
lemma rankInFront_moveFirst (hW : 1 < W) (hx : x.shape = W :: (u ++ n :: v))
    (h : HoldsRanks W input (u ++ n :: v) x) :
    RankInFront W input u n v ((StridedTensor.dense x).moveFirst u.length) := by
  have hshape : ((StridedTensor.dense x).moveFirst u.length).shape = u ++ W :: n :: v :=
    StridedTensor.shape_moveFirst hx
  have hget : ∀ iu p j iv, InShape iu u → p < W → j < n → InShape iv v →
      ((StridedTensor.dense x).moveFirst u.length).get (iu ++ p :: j :: iv) =
        (input p).get (iu ++ j :: iv) := by
    intro iu p j iv hu hp hj hv
    rw [← hu.length_eq, StridedTensor.get_moveFirst]
    apply h _ p _ hp (inShape_middle hu hj hv)
    rw [hx, ravel_cons]
  refine ⟨?_, ?_, ?_, StridedTensor.viewFlat_moveFirst_iff hW hx⟩
  · rw [NdTensor.numel, hshape, prod_append, prod_cons, prod_append]
    ring
  · intro iu p j iv hu hp hj hv
    rw [NdTensor.get_view_merge hu hp hj hv hshape]
    exact hget iu p j iv hu hp hj hv
  · intro hone p jdx hp hjdx
    obtain ⟨iu, j, iv, rfl, hu, hj, hv⟩ := exists_of_inShape_middle hjdx
    rw [← hget iu p j iv hu hp hj hv]
    refine NdTensor.get_view ?_ ?_
    · rw [hshape]
      exact inShape_middle hu hp (.cons hj hv)
    · rw [hshape, ravel_append_of_prod_eq_one hu hone, ravel_append_of_prod_eq_one hu hone,
        prod_append, hone, Nat.one_mul]
      simp

/-- The gathered tensor has the rank in front of the dimension. -/
lemma rankAtDim_ok (hW : 1 < W) (hx : x.shape = (u ++ n :: v).modify 0 (· * W))
    (h : HoldsRanks W input (u ++ n :: v) x) :
    ∃ y, rankAtDim W (u ++ n :: v) u.length x = .ok y ∧ RankInFront W input u n v y := by
  cases u with
  | nil => exact ⟨.dense x, if_pos rfl, rankInFront_dense hx h⟩
  | cons m u =>
    have hprod : x.shape.prod = W * (m :: u ++ n :: v).prod := by
      rw [hx, cons_append, modify_zero_cons, prod_cons, prod_cons]
      ring
    have hreshape : reshaped x (W :: (m :: u ++ n :: v)) =
        .ok (x.view (W :: (m :: u ++ n :: v))) := by
      rw [reshaped, NdTensor.reshape_eq_some (by rw [prod_cons, NdTensor.numel, hprod])]
    refine ⟨_, ?_, rankInFront_moveFirst hW rfl (h.view hprod)⟩
    have hdim : (m :: u).length ≠ 0 := Nat.succ_ne_zero u.length
    rw [rankAtDim, if_neg hdim, hreshape]
    rfl

lemma modify_length_append (u v : List ℕ) (n : ℕ) (f : ℕ → ℕ) :
    (u ++ n :: v).modify u.length f = u ++ f n :: v := by
  induction u with
  | nil => rfl
  | cons m u ih => rw [cons_append, length_cons, modify_succ_cons, ih,
      cons_append]

/-- The rank and the dimension behind it are merged into the concatenation. -/
lemma RankInFront.concatenated {y : StridedTensor α} (h : RankInFront W input u n v y)
    (hW : 0 < W) (hinput : ∀ q < W, (input q).shape = u ++ n :: v) :
    ∃ z, NdTensor.cat u.length ((range W).map input) = some z ∧
      (y.view (u ++ n * W :: v)).Same z := by
  have hne : (range W).map input ≠ [] := by
    intro hnil
    rw [map_eq_nil_iff, range_eq_nil] at hnil
    exact Nat.ne_of_gt hW hnil
  have hshapes : ∀ x ∈ (range W).map input, x.shape = u ++ n :: v := by
    intro x hx
    obtain ⟨q, hq, rfl⟩ := mem_map.mp hx
    exact hinput q (mem_range.mp hq)
  have hdim : u.length < (u ++ n :: v).length := by simp
  obtain ⟨z, hz, hshape, hget⟩ := NdTensor.cat_of_forall_shape hne hdim hshapes
  refine ⟨z, hz, ?_, ?_⟩
  · rw [hshape]
    simp [Nat.mul_comm]
  · intro idx hidx
    obtain ⟨iu, s, iv, rfl, hu, hs, hv⟩ := exists_of_inShape_middle hidx
    obtain ⟨p, j, hp, hj, rfl⟩ := exists_block hs
    rw [h.merged iu p j iv hu hp hj hv]
    have hentry := hget p (by simpa using hp) (iu ++ (p * n + j) :: iv) j (by simpa using hj)
      (by simp [← hu.length_eq])
    rw [hentry]
    simp [← hu.length_eq]

/-- Where the view is allowed, the memory is cut into the tensors of the ranks. -/
lemma RankInFront.separated {y : StridedTensor α} (h : RankInFront W input u n v y)
    (hinput : ∀ q < W, (input q).shape = u ++ n :: v) (hrank : rank < W)
    (hview : (u ++ n :: v).prod = 0 ∨ u.prod = 1) :
    ∃ ys, separated W (input rank) y = .ok ys ∧
      List.Forall₂ NdTensor.Same ys ((range W).map input) := by
  have hnumel : (input rank).numel = (u ++ n :: v).prod := by
    rw [NdTensor.numel, hinput rank hrank]
  have hsome := StridedTensor.viewFlat_eq_some (h.viewFlat_iff.mpr hview)
  rw [GroupCoordinator.separated, hsome, hnumel, hinput rank hrank]
  refine ⟨_, rfl, ?_⟩
  rw [forall₂_map_left_iff, forall₂_map_right_iff, forall₂_same]
  intro p hp
  rw [mem_range] at hp
  refine ⟨(hinput p hp).symm, ?_⟩
  intro jdx hjdx
  -- an index of the shape leaves only the case of dimensions of size one in front
  have hlt : ravel (u ++ n :: v) jdx < (u ++ n :: v).prod := ravel_lt hjdx
  have hone : u.prod = 1 := hview.resolve_left (Nat.ne_zero_of_lt hlt)
  rw [← h.flat hone p jdx hp hjdx]
  exact NdTensor.get_view_slice (by rw [NdTensor.shape_view, h.numel_eq]) hp hjdx

end Gather

/-! ## The gather along every dimension -/

lemma positiveDim_lt {dims : ℕ} {dim : ℤ} (h : -(dims : ℤ) ≤ dim ∧ dim < dims) :
    positiveDim dims dim < dims := by
  unfold positiveDim
  split <;> omega

lemma exists_middle {shape : List ℕ} {d : ℕ} (h : d < shape.length) :
    ∃ u n v, shape = u ++ n :: v ∧ u.length = d := by
  refine ⟨shape.take d, shape[d], shape.drop (d + 1), ?_, ?_⟩
  · rw [← drop_eq_getElem_cons h, take_append_drop]
  · rw [length_take, Nat.min_eq_left h.le]

section AllGather

variable (g : GroupCoordinator) {input : ℕ → NdTensor α} {shape u v : List ℕ} {n : ℕ} {dim : ℤ}

lemma rankInGroup_lt : g.rankInGroup < g.worldSize := idxOf_lt_length_of_mem g.rank_mem

/-- With several ranks, both results are made from one tensor with the rank in front of the
dimension. -/
lemma allGather_of_one_lt (hworld : 1 < g.worldSize)
    (hinput : ∀ q < g.worldSize, (input q).shape = u ++ n :: v)
    (hdim : -((u ++ n :: v).length : ℤ) ≤ dim ∧ dim < (u ++ n :: v).length)
    (hpos : positiveDim (u ++ n :: v).length dim = u.length) :
    ∃ y, RankInFront g.worldSize input u n v y ∧
      g.allGather input dim false = .ok (.tensor (y.view (u ++ n * g.worldSize :: v))) ∧
      g.allGather input dim true =
        (separated g.worldSize (input g.rankInGroup) y).map Gathered.list := by
  have hown := hinput _ g.rankInGroup_lt
  have hsize : ((u ++ n :: v).modify 0 (· * g.worldSize)).prod =
      g.worldSize * (u ++ n :: v).prod := by
    cases u <;> simp <;> ring
  obtain ⟨x, hx, hshape, hholds⟩ := allGatherIntoTensor_ok hinput g.rankInGroup_lt hsize
  obtain ⟨y, hy, hfront⟩ := rankAtDim_ok hworld hshape hholds
  have hreshape : reshaped y.toNdTensor (u ++ n * g.worldSize :: v) =
      .ok (y.view (u ++ n * g.worldSize :: v)) := by
    rw [reshaped, NdTensor.reshape_eq_some]
    rw [hfront.numel_eq, prod_append, prod_append, prod_cons, prod_cons]
    ring
  refine ⟨y, hfront, ?_, ?_⟩
  · simp only [allGather, hown, if_neg hworld.ne', if_neg (not_not_intro hdim), hpos, hx, hy,
      modify_length_append, hreshape, bind, Except.bind]
    rfl
  · simp only [allGather, hown, if_neg hworld.ne', if_neg (not_not_intro hdim), hpos, hx, hy,
      bind, Except.bind]
    rfl

/-- `all_gather` gathers along a dimension exactly when there are several ranks and the dimensions
in front of it have size one or the tensors are empty: a single rank gets its tensor instead of the
list, and the view of other tensors is refused. -/
theorem all_gather_right_iff (hinput : ∀ q < g.worldSize, (input q).shape = shape)
    (hdim : -(shape.length : ℤ) ≤ dim ∧ dim < shape.length) :
    AllGatherRight g input dim ↔
      g.worldSize ≠ 1 ∧
        ((shape.take (positiveDim shape.length dim)).prod = 1 ∨ shape.prod = 0) := by
  have hown := hinput _ g.rankInGroup_lt
  obtain ⟨u, n, v, rfl, hpos⟩ := exists_middle (positiveDim_lt hdim)
  rw [← hpos, take_left]
  by_cases hworld : g.worldSize = 1
  · refine iff_of_false ?_ fun h => h.1 hworld
    intro hright
    obtain ⟨ys, hys, -⟩ := hright.separate
    rw [allGather, if_pos hworld] at hys
    cases hys
  · have hlt : 1 < g.worldSize :=
      lt_of_le_of_ne (Nat.one_le_of_lt g.rankInGroup_lt) (Ne.symm hworld)
    obtain ⟨y, hfront, htensor, hlist⟩ := g.allGather_of_one_lt hlt hinput hdim hpos.symm
    constructor
    · intro hright
      refine ⟨hworld, Or.symm (hfront.viewFlat_iff.mp ?_)⟩
      obtain ⟨ys, hys, -⟩ := hright.separate
      rw [hlist, separated] at hys
      cases hflat : y.viewFlat with
      | some flat => rfl
      | none =>
        rw [hflat] at hys
        cases hys
    · rintro ⟨-, hview⟩
      obtain ⟨z, hz, hsame⟩ := hfront.concatenated (Nat.zero_lt_of_lt hlt) hinput
      obtain ⟨ys, hys, hall⟩ := hfront.separated hinput g.rankInGroup_lt hview.symm
      refine ⟨⟨_, z, htensor, ?_, hsame⟩, ys, ?_, hall⟩
      · rw [hown, ← hpos]
        exact hz
      · rw [hlist, hys]
        rfl

end AllGather

/-- Tensors of one shape, with values that tell the rank and the place. -/
def rankValues (shape : List ℕ) (q : ℕ) : NdTensor ℕ where
  shape := shape
  get idx := 10 * q + ravel shape idx

/-- A group of two ranks, seen from the second one. -/
def gatherPair : GroupCoordinator := ⟨1, [0, 1], by decide⟩

/-- A group of one rank. -/
def gatherAlone : GroupCoordinator := ⟨0, [0], by decide⟩

/-- Rows are gathered along their last dimension, also when they are separated again. -/
theorem all_gather_right_of_row : AllGatherRight gatherPair (rankValues [1, 3]) (-1) := by
  have hinput : ∀ q < gatherPair.worldSize, (rankValues [1, 3] q).shape = [1, 3] :=
    fun _ _ => rfl
  exact (all_gather_right_iff gatherPair hinput (by decide)).mpr (by decide)

/-- Behind a dimension of size two the separation raises, and a single rank gets no list. -/
theorem all_gather_separate_fails :
    gatherPair.allGather (rankValues [2, 2]) 1 true = .error .view ∧
      ¬ AllGatherRight gatherPair (rankValues [2, 2]) 1 ∧
      ¬ AllGatherRight gatherAlone (rankValues [2, 2]) 0 := by
  have hview : gatherPair.allGather (rankValues [2, 2]) 1 true = .error .view := rfl
  refine ⟨hview, ?_, ?_⟩
  · intro hright
    obtain ⟨ys, hys, -⟩ := hright.separate
    rw [hview] at hys
    cases hys
  · intro hright
    obtain ⟨ys, hys, -⟩ := hright.separate
    cases hys

end GroupCoordinator

end OmniStreaming
