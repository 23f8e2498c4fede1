import OmniStreaming.Lib.Tensor

/-!
# Tensors in memory

The values of a tensor lie in memory at distances that its strides tell, one for each dimension. A
tensor that owns its memory has the strides of the row-major order (`denseStrides`); a tensor whose
dimensions have been moved shares the memory and has its strides moved with them.

A tensor can be viewed as one dimension without a copy if its dimensions can be merged
(`mergeDims`): those of size one aside, the stride of each has to be the size times the stride of
what is merged behind it. Moving a dimension to the back of others breaks this, unless the others
have size one (`mergeDims_moved_iff`).
-/

namespace Tensors

open List

/-- The strides of a tensor whose memory is in row-major order. -/
def denseStrides : List ℕ → List ℕ
  | [] => []
  | _ :: shape => shape.prod :: denseStrides shape

/-- The size and the stride of the dimension into which dimensions, each with its size and stride,
are merged. -/
def mergeDims : List (ℕ × ℕ) → Option (ℕ × ℕ)
  | [] => some (1, 1)
  | (n, s) :: dims => do
    let (m, t) ← mergeDims dims
    if n = 1 then some (m, t)
    else if m = 1 then some (n, s)
    else if s = m * t then some (n * m, t)
    else none

/-- A tensor with the strides of its memory. -/
structure StridedTensor (α : Type*) extends NdTensor α where
  strides : List ℕ

namespace StridedTensor

variable {α : Type*}

/-- A tensor that owns its memory. -/
def dense (x : NdTensor α) : StridedTensor α := ⟨x, denseStrides x.shape⟩

/-- `movedim(0, dim)`: the first dimension is moved behind `dim` others. -/
def moveFirst (x : StridedTensor α) (dim : ℕ) : StridedTensor α where
  shape := x.shape.tail.insertIdx dim (x.shape.headD 0)
  get idx := x.get (idx.getD dim 0 :: idx.eraseIdx dim)
  strides := x.strides.tail.insertIdx dim (x.strides.headD 0)

/-- `view(-1)`: the values in row-major order, without a copy. An empty tensor has any strides. -/
def viewFlat (x : StridedTensor α) : Option (NdTensor α) :=
  if x.numel = 0 ∨ (mergeDims (x.shape.zip x.strides)).isSome then some (x.view [x.numel]) else none

end StridedTensor

/-! ## Dimensions that can be merged -/

section Merge

variable {dims : List (ℕ × ℕ)} {shape : List ℕ} {n s m t : ℕ}

/-- What cannot be merged stays so. -/
lemma mergeDims_cons_of_none (h : mergeDims dims = none) (d : ℕ × ℕ) :
    mergeDims (d :: dims) = none := by
  rw [mergeDims, h]
  rfl

/-- A dimension of size one is left out. -/
lemma mergeDims_cons_one (s : ℕ) (dims : List (ℕ × ℕ)) :
    mergeDims ((1, s) :: dims) = mergeDims dims := by
  rw [mergeDims]
  cases mergeDims dims with
  | none => rfl
  | some d => rfl

/-- One more dimension in front. -/
lemma mergeDims_cons (h : mergeDims dims = some (m, t)) (hn : n ≠ 1) :
    mergeDims ((n, s) :: dims) =
      if m = 1 then some (n, s) else if s = m * t then some (n * m, t) else none := by
  rw [mergeDims, h]
  exact if_neg hn

/-- A tensor that owns its memory can be viewed as one dimension. -/
lemma mergeDims_dense (shape : List ℕ) :
    mergeDims (shape.zip (denseStrides shape)) = some (shape.prod, 1) := by
  induction shape with
  | nil => rfl
  | cons n shape ih =>
    rw [denseStrides, zip_cons_cons]
    by_cases hn : n = 1
    · subst hn
      rw [mergeDims_cons_one, ih, prod_cons, Nat.one_mul]
    · rw [mergeDims_cons ih hn, prod_cons, Nat.mul_one, if_pos rfl]
      by_cases hone : shape.prod = 1
      · rw [if_pos hone, hone, Nat.mul_one]
      · rw [if_neg hone]

/-- The strides of the first dimensions of a tensor that owns its memory. -/
def leadingStrides (size : ℕ) : List ℕ → List ℕ
  | [] => []
  | _ :: u => u.prod * size :: leadingStrides size u

lemma denseStrides_append (u shape : List ℕ) :
    denseStrides (u ++ shape) = leadingStrides shape.prod u ++ denseStrides shape := by
  induction u with
  | nil => rfl
  | cons n u ih =>
    rw [cons_append, denseStrides, ih, prod_append, leadingStrides, cons_append]

lemma length_leadingStrides (size : ℕ) (u : List ℕ) :
    (leadingStrides size u).length = u.length := by
  induction u with
  | nil => rfl
  | cons n u ih => rw [leadingStrides, length_cons, ih, length_cons]

/-- Dimensions of size one in front are left out. -/
lemma mergeDims_append_of_prod_eq_one {u strides : List ℕ} (hlength : strides.length = u.length)
    (hone : u.prod = 1) (dims : List (ℕ × ℕ)) :
    mergeDims (u.zip strides ++ dims) = mergeDims dims := by
  induction u generalizing strides with
  | nil => rfl
  | cons n u ih =>
    obtain ⟨s, strides, rfl⟩ := exists_cons_of_length_eq_add_one hlength
    rw [prod_cons] at hone
    obtain rfl : n = 1 := Nat.eq_one_of_mul_eq_one_right hone
    rw [zip_cons_cons, cons_append, mergeDims_cons_one]
    exact ih (Nat.succ.inj hlength) (Nat.eq_one_of_mul_eq_one_left hone)

/-- A dimension of another size than one needs the merged size times the stride behind it. -/
lemma mergeDims_append_eq_none {u : List ℕ} {size : ℕ} (h : mergeDims dims = some (m, t))
    (hm : m ≠ 1) (hne : size ≠ m * t) (hone : u.prod ≠ 1) :
    mergeDims (u.zip (leadingStrides size u) ++ dims) = none := by
  induction u with
  | nil => exact absurd rfl hone
  | cons n u ih =>
    rw [leadingStrides, zip_cons_cons, cons_append]
    by_cases hu : u.prod = 1
    · have hn : n ≠ 1 := by
        rintro rfl
        exact hone (by rw [prod_cons, hu])
      have hrest := mergeDims_append_of_prod_eq_one (length_leadingStrides size u) hu dims
      rw [mergeDims_cons (hrest.trans h) hn, if_neg hm, hu, Nat.one_mul, if_neg hne]
    · exact mergeDims_cons_of_none (ih hu) _

lemma mergeDims_append_of_none (h : mergeDims dims = none) (dims' : List (ℕ × ℕ)) :
    mergeDims (dims' ++ dims) = none := by
  induction dims' with
  | nil => exact h
  | cons d dims' ih => exact mergeDims_cons_of_none ih d

/-- With the first dimension moved behind `u`, the dimensions can be merged only if `u` has size
one. -/
lemma mergeDims_moved_iff {u v : List ℕ} (hn : n ≠ 1) (hpos : (u ++ v).prod ≠ 0) :
    (mergeDims (u.zip (leadingStrides v.prod u) ++
      (n, (u ++ v).prod) :: v.zip (denseStrides v))).isSome ↔ u.prod = 1 := by
  rw [prod_append] at hpos ⊢
  have htail := mergeDims_cons (s := u.prod * v.prod) (mergeDims_dense v) hn
  rw [Nat.mul_one] at htail
  constructor
  · intro hsome
    by_contra hone
    by_cases hv : v.prod = 1
    · rw [if_pos hv] at htail
      have hne : v.prod ≠ n * (u.prod * v.prod) := by
        intro heq
        rw [hv] at heq
        exact hn (Nat.eq_one_of_mul_eq_one_right heq.symm)
      rw [mergeDims_append_eq_none htail hn hne hone] at hsome
      cases hsome
    · have hne : u.prod * v.prod ≠ v.prod := by
        intro heq
        exact hone (Nat.eq_of_mul_eq_mul_right
          (Nat.pos_of_ne_zero (Nat.ne_zero_of_mul_ne_zero_right hpos)) (by rw [heq, Nat.one_mul]))
      rw [if_neg hv, if_neg hne] at htail
      rw [mergeDims_append_of_none htail] at hsome
      cases hsome
  · intro hone
    rw [mergeDims_append_of_prod_eq_one (length_leadingStrides v.prod u) hone, htail]
    split
    · rfl
    · rw [hone, Nat.one_mul, if_pos rfl]
      rfl

end Merge

namespace StridedTensor

variable {α : Type*} {x : StridedTensor α} {u v iu iv : List ℕ} {n p : ℕ}

/-- A view has the values in order. -/
lemma viewFlat_eq_some (h : x.viewFlat.isSome) : x.viewFlat = some (x.view [x.numel]) := by
  unfold viewFlat at h ⊢
  split
  · rfl
  · next hview =>
    rw [if_neg hview] at h
    cases h

lemma insertIdx_length_append (u v : List ℕ) (n : ℕ) :
    (u ++ v).insertIdx u.length n = u ++ n :: v := by
  induction u with
  | nil => rfl
  | cons i u ih => rw [cons_append, length_cons, insertIdx_succ_cons, ih,
      cons_append]

/-- The shape after the move. -/
lemma shape_moveFirst (hx : x.shape = n :: (u ++ v)) :
    (x.moveFirst u.length).shape = u ++ n :: v := by
  rw [moveFirst, hx]
  exact insertIdx_length_append u v n

lemma get_moveFirst (x : StridedTensor α) (iu iv : List ℕ) (p : ℕ) :
    (x.moveFirst iu.length).get (iu ++ p :: iv) = x.get (p :: (iu ++ iv)) := by
  have hentry : (iu ++ p :: iv).getD iu.length 0 = p := by simp
  have hrest : (iu ++ p :: iv).eraseIdx iu.length = iu ++ iv := by
    rw [eraseIdx_append_of_length_le (le_refl _), Nat.sub_self, eraseIdx_cons_zero]
  change x.get (_ :: _) = _
  rw [hentry, hrest]

/-- The sizes and strides of a tensor that owns its memory, with its first dimension moved. -/
lemma zip_moveFirst {y : NdTensor α} (hy : y.shape = n :: (u ++ v)) :
    ((dense y).moveFirst u.length).shape.zip ((dense y).moveFirst u.length).strides =
      u.zip (leadingStrides v.prod u) ++ (n, (u ++ v).prod) :: v.zip (denseStrides v) := by
  have hstrides : ((dense y).moveFirst u.length).strides =
      leadingStrides v.prod u ++ (u ++ v).prod :: denseStrides v := by
    change (denseStrides y.shape).tail.insertIdx u.length ((denseStrides y.shape).headD 0) = _
    rw [hy, denseStrides, denseStrides_append, tail_cons, headD_cons,
      ← length_leadingStrides v.prod u, insertIdx_length_append]
  rw [shape_moveFirst (x := dense y) hy, hstrides,
    zip_append (length_leadingStrides v.prod u).symm, zip_cons_cons]

/-- A tensor with its first dimension moved has a flat view only if it is empty or the dimensions in
front have size one. -/
lemma viewFlat_moveFirst_iff {y : NdTensor α} (hn : 1 < n) (hy : y.shape = n :: (u ++ v)) :
    ((dense y).moveFirst u.length).viewFlat.isSome ↔ (u ++ v).prod = 0 ∨ u.prod = 1 := by
  have hnumel : ((dense y).moveFirst u.length).numel = n * (u ++ v).prod := by
    rw [NdTensor.numel, shape_moveFirst (x := dense y) hy, prod_append, prod_cons,
      prod_append]
    ring
  rw [viewFlat, hnumel, zip_moveFirst hy]
  by_cases hzero : (u ++ v).prod = 0
  · rw [if_pos (.inl (by rw [hzero, Nat.mul_zero]))]
    exact iff_of_true rfl (.inl hzero)
  · have hne : n * (u ++ v).prod ≠ 0 := Nat.mul_ne_zero (Nat.ne_zero_of_lt hn) hzero
    have hmerge := mergeDims_moved_iff (Nat.ne_of_gt hn) hzero
    by_cases hone : u.prod = 1
    · rw [if_pos (.inr (hmerge.mpr hone))]
      exact iff_of_true rfl (.inr hone)
    · rw [if_neg (not_or.mpr ⟨hne, mt hmerge.mp hone⟩)]
      exact iff_of_false Bool.false_ne_true (not_or.mpr ⟨hzero, hone⟩)

end StridedTensor

end Tensors
