import Mathlib.Algebra.BigOperators.Group.List.Basic
import Mathlib.Data.List.GetD
import Mathlib.Tactic.Ring

/-!
# Tensors

A tensor has a shape and a value at each index of the shape. The values lie in row-major order:
`ravel` is the place of an index in this order, and `reshape` keeps the place of each value.
A value is followed through a chain of operations by its index: a lemma says for each operation
at which index of the result the value at an index of the argument is found.
-/

namespace Tensors

open List

/-! ## Indices -/

/-- The indices of a shape. -/
abbrev InShape (idx shape : List ℕ) : Prop := List.Forall₂ (· < ·) idx shape

/-- The place of an index in the row-major order. -/
def ravel : List ℕ → List ℕ → ℕ
  | _ :: shape, i :: idx => i * shape.prod + ravel shape idx
  | _, _ => 0

/-- The index at a place of the row-major order. -/
def unravel : List ℕ → ℕ → List ℕ
  | [], _ => []
  | _ :: shape, n => n / shape.prod :: unravel shape (n % shape.prod)

@[simp] lemma ravel_nil (idx : List ℕ) : ravel [] idx = 0 := rfl

@[simp] lemma ravel_cons (n i : ℕ) (shape idx : List ℕ) :
    ravel (n :: shape) (i :: idx) = i * shape.prod + ravel shape idx := rfl

lemma block_lt {i j m n : ℕ} (hi : i < m) (hj : j < n) : i * n + j < m * n := by
  calc i * n + j < i * n + n := Nat.add_lt_add_left hj _
    _ = (i + 1) * n := by ring
    _ ≤ m * n := Nat.mul_le_mul_right _ hi

variable {shape : List ℕ}

/-- An index lies within the tensor. -/
lemma ravel_lt {idx : List ℕ} (h : InShape idx shape) : ravel shape idx < shape.prod := by
  induction h with
  | nil => exact Nat.one_pos
  | @cons i n idx shape hi _ ih =>
    rw [ravel_cons, prod_cons]
    exact block_lt hi ih

/-- The index of the place of an index. -/
lemma unravel_ravel {idx : List ℕ} (h : InShape idx shape) :
    unravel shape (ravel shape idx) = idx := by
  induction h with
  | nil => rfl
  | @cons i n idx shape _ hrest ih =>
    have hlt := ravel_lt hrest
    rw [ravel_cons, unravel, Nat.mul_add_mod_of_lt hlt, ih, Nat.mul_comm i,
      Nat.mul_add_div (Nat.zero_lt_of_lt hlt), Nat.div_eq_of_lt hlt, Nat.add_zero]

/-- The place of the index of a place. -/
lemma ravel_unravel {k : ℕ} (h : k < shape.prod) : ravel shape (unravel shape k) = k := by
  induction shape generalizing k with
  | nil => exact (Nat.lt_one_iff.mp h).symm
  | cons n shape ih =>
    rw [prod_cons] at h
    have hpos : 0 < shape.prod := Nat.pos_of_mul_pos_left (Nat.zero_lt_of_lt h)
    rw [unravel, ravel_cons, ih (Nat.mod_lt k hpos), Nat.div_add_mod']

lemma exists_block {m n s : ℕ} (h : s < n * m) : ∃ p j, p < m ∧ j < n ∧ s = p * n + j := by
  have hn : 0 < n := Nat.pos_of_mul_pos_right (Nat.zero_lt_of_lt h)
  exact ⟨s / n, s % n, Nat.div_lt_of_lt_mul h, Nat.mod_lt s hn, (Nat.div_add_mod' s n).symm⟩

section Split

variable {u v iu iv : List ℕ} {m n p j : ℕ}

/-- A dimension is split into `m` blocks of length `n`. -/
lemma prod_split (u v : List ℕ) (m n : ℕ) : (u ++ m :: n :: v).prod = (u ++ n * m :: v).prod := by
  simp only [prod_append, prod_cons]
  ring

/-- A place in a dimension that is split: the block, and the place in the block. -/
lemma ravel_split (hu : InShape iu u) (v iv : List ℕ) (m n p j : ℕ) :
    ravel (u ++ m :: n :: v) (iu ++ p :: j :: iv) =
      ravel (u ++ n * m :: v) (iu ++ (p * n + j) :: iv) := by
  induction hu with
  | nil =>
    simp only [nil_append, ravel_cons, prod_cons]
    ring
  | cons _ _ ih => simp only [cons_append, ravel_cons, prod_split, ih]

/-- The entries before and behind one entry of an index. -/
lemma inShape_middle (hu : InShape iu u) (hp : p < m) (hv : InShape iv v) :
    InShape (iu ++ p :: iv) (u ++ m :: v) := rel_append hu (.cons hp hv)

/-- An index has entries before, in and behind a dimension. -/
lemma exists_of_inShape_middle {idx : List ℕ} (h : InShape idx (u ++ m :: v)) :
    ∃ iu p iv, idx = iu ++ p :: iv ∧ InShape iu u ∧ p < m ∧ InShape iv v := by
  induction u generalizing idx with
  | nil =>
    obtain ⟨p, iv, hp, hv, rfl⟩ := forall₂_cons_right_iff.mp h
    exact ⟨[], p, iv, rfl, .nil, hp, hv⟩
  | cons n u ih =>
    obtain ⟨i, idx, hi, hidx, rfl⟩ := forall₂_cons_right_iff.mp h
    obtain ⟨iu, p, iv, rfl, hu, hp, hv⟩ := ih hidx
    exact ⟨i :: iu, p, iv, rfl, .cons hi hu, hp, hv⟩

/-- Dimensions of size one do not count. -/
lemma ravel_append_of_prod_eq_one (hu : InShape iu u) (hone : u.prod = 1) (shape idx : List ℕ) :
    ravel (u ++ shape) (iu ++ idx) = ravel shape idx := by
  induction hu with
  | nil => rfl
  | @cons i n iu u hi _ ih =>
    rw [prod_cons] at hone
    obtain rfl : n = 1 := Nat.eq_one_of_mul_eq_one_right hone
    obtain rfl : i = 0 := Nat.lt_one_iff.mp hi
    rw [cons_append, cons_append, ravel_cons, Nat.zero_mul, Nat.zero_add,
      ih (Nat.eq_one_of_mul_eq_one_left hone)]

end Split

/-- The entries of a list with two of them exchanged. -/
def swapAt {β : Type*} (l : List β) (i j : ℕ) : List β :=
  match l[i]?, l[j]? with
  | some a, some b => (l.set i b).set j a
  | _, _ => l

/-! ## Tensors -/

/-- A tensor; what `get` gives outside of the shape has no meaning. -/
structure NdTensor (α : Type*) where
  shape : List ℕ
  get : List ℕ → α

namespace NdTensor

variable {α : Type*} {x y : NdTensor α} {idx idx' : List ℕ}

instance [Inhabited α] : Inhabited (NdTensor α) := ⟨⟨[], fun _ => default⟩⟩

/-- The number of values. -/
def numel (x : NdTensor α) : ℕ := x.shape.prod

/-- The tensors have the same shape and the same values. -/
def Same (x y : NdTensor α) : Prop :=
  x.shape = y.shape ∧ ∀ idx, InShape idx x.shape → x.get idx = y.get idx

/-- The values in row-major order under another shape. -/
def view (x : NdTensor α) (shape : List ℕ) : NdTensor α where
  shape := shape
  get idx := x.get (unravel x.shape (ravel shape idx))

/-- The values in row-major order under a shape with as many of them. -/
def reshape (x : NdTensor α) (shape : List ℕ) : Option (NdTensor α) :=
  if shape.prod = x.numel then some (x.view shape) else none

/-- The tensor with two dimensions exchanged. -/
def transpose (x : NdTensor α) (i j : ℕ) : NdTensor α where
  shape := swapAt x.shape i j
  get idx := x.get (swapAt idx i j)

/-- The part of a tensor between two bounds of one dimension. -/
def slice (x : NdTensor α) (dim start stop : ℕ) : NdTensor α where
  shape := x.shape.modify dim fun n => min stop n - start
  get idx := x.get (idx.modify dim (· + start))

/-- The part of a tensor between two bounds of the last dimension. -/
def sliceLast (x : NdTensor α) (start stop : ℕ) : NdTensor α :=
  x.slice (x.shape.length - 1) start stop

/-- Two tensors one behind the other in one dimension. -/
def append (dim : ℕ) (x y : NdTensor α) : NdTensor α where
  shape := x.shape.modify dim (· + y.shape.getD dim 0)
  get idx :=
    if idx.getD dim 0 < x.shape.getD dim 0 then x.get idx
    else y.get (idx.modify dim (· - x.shape.getD dim 0))

/-- Tensors one behind the other in one dimension, which agree in the other dimensions. -/
def cat (dim : ℕ) : List (NdTensor α) → Option (NdTensor α)
  | [] => none
  | [x] => some x
  | x :: xs => do
    let y ← cat dim xs
    if x.shape.eraseIdx dim = y.shape.eraseIdx dim then some (x.append dim y) else none

/-- Tensors one behind the other in the last dimension. -/
def catLast : List (NdTensor α) → Option (NdTensor α)
  | [] => none
  | x :: xs => cat (x.shape.length - 1) (x :: xs)

/-- The tensor with a dimension of size one at the end. -/
def unsqueezeLast (x : NdTensor α) : NdTensor α where
  shape := x.shape ++ [1]
  get idx := x.get idx.dropLast

/-- The tensor without its last dimension, if that has size one. -/
def squeezeLast (x : NdTensor α) : NdTensor α :=
  if x.shape.getLast? = some 1 then ⟨x.shape.dropLast, fun idx => x.get (idx ++ [0])⟩ else x

/-- The common shape of two tensors: a dimension of size one, or a missing one, fits any size. -/
def broadcastDims : List ℕ → List ℕ → Option (List ℕ)
  | [], ns => some ns
  | ms, [] => some ms
  | m :: ms, n :: ns => do
    let rest ← broadcastDims ms ns
    if m = n then some (m :: rest)
    else if m = 1 then some (n :: rest)
    else if n = 1 then some (m :: rest)
    else none

/-- The index of a tensor at an index of the common shape. -/
def stretch (shape idx : List ℕ) : List ℕ :=
  List.zipWith (fun n i => if n = 1 then 0 else i) shape (idx.drop (idx.length - shape.length))

/-- An operation on the values of two tensors, whose shapes have to fit. -/
def zipWith {β γ : Type*} (f : α → β → γ) (x : NdTensor α) (y : NdTensor β) : Option (NdTensor γ) :=
  (broadcastDims x.shape.reverse y.shape.reverse).map fun dims =>
    ⟨dims.reverse, fun idx => f (x.get (stretch x.shape idx)) (y.get (stretch y.shape idx))⟩

/-- An operation on each value. -/
def map {β : Type*} (f : α → β) (x : NdTensor α) : NdTensor β := ⟨x.shape, fun idx => f (x.get idx)⟩

/-- The tensor of one dimension with the values of a list. -/
def ofList [Inhabited α] (xs : List α) : NdTensor α where
  shape := [xs.length]
  get idx := xs.getD (idx.headD 0) default

/-- The values of a tensor of one dimension. -/
def toList (x : NdTensor α) : List α :=
  (range (x.shape.headD 0)).map fun i => x.get [i]

variable {shape : List ℕ} {dim : ℕ}

lemma reshape_eq_some (h : shape.prod = x.numel) :
    x.reshape shape = some (x.view shape) := if_pos h

@[simp] lemma shape_view (x : NdTensor α) (shape : List ℕ) : (x.view shape).shape = shape := rfl

/-- A value is found at the index with the same place in the row-major order. -/
lemma get_view (h : InShape idx x.shape) (hplace : ravel shape idx' = ravel x.shape idx) :
    (x.view shape).get idx' = x.get idx := by
  simp only [view, hplace, unravel_ravel h]

/-- A view in the own shape. -/
lemma get_view_self (hshape : x.shape = shape) (h : InShape idx shape) :
    (x.view shape).get idx = x.get idx :=
  get_view (hshape ▸ h) (by rw [hshape])

section Split

variable {u v iu iv : List ℕ} {m n p j : ℕ}

/-- A view that splits a dimension into `m` blocks of length `n`. -/
lemma get_view_split (hu : InShape iu u) (hp : p < m) (hj : j < n) (hv : InShape iv v)
    (hx : x.shape = u ++ n * m :: v) :
    (x.view (u ++ m :: n :: v)).get (iu ++ p :: j :: iv) = x.get (iu ++ (p * n + j) :: iv) := by
  refine get_view ?_ ?_
  · rw [hx]
    exact inShape_middle hu (Nat.mul_comm m n ▸ block_lt hp hj) hv
  · rw [hx, ravel_split hu]

/-- A view that merges `m` blocks of length `n` into one dimension. -/
lemma get_view_merge (hu : InShape iu u) (hp : p < m) (hj : j < n) (hv : InShape iv v)
    (hx : x.shape = u ++ m :: n :: v) :
    (x.view (u ++ n * m :: v)).get (iu ++ (p * n + j) :: iv) = x.get (iu ++ p :: j :: iv) := by
  refine get_view ?_ ?_
  · rw [hx]
    exact inShape_middle hu hp (.cons hj hv)
  · rw [hx, ravel_split hu]

end Split

/-- One block of a tensor of one dimension, under a shape with as many values. -/
lemma get_view_slice {m p : ℕ} (hx : x.shape = [m * shape.prod]) (hp : p < m)
    (h : InShape idx shape) :
    ((x.slice 0 (shape.prod * p) (shape.prod * p + shape.prod)).view shape).get idx =
      x.get [p * shape.prod + ravel shape idx] := by
  have hblock : shape.prod * p + shape.prod ≤ m * shape.prod := by
    rw [← Nat.mul_succ, Nat.mul_comm]
    exact Nat.mul_le_mul_right _ hp
  have hslice : (x.slice 0 (shape.prod * p) (shape.prod * p + shape.prod)).shape =
      [shape.prod] := by
    rw [slice, hx, modify_zero_cons, Nat.min_eq_left hblock, Nat.add_sub_cancel_left]
  have hentry : (x.slice 0 (shape.prod * p) (shape.prod * p + shape.prod)).get
      [ravel shape idx] = x.get [p * shape.prod + ravel shape idx] := by
    rw [Nat.mul_comm p, Nat.add_comm (_ * p) (ravel _ _)]
    rfl
  rw [← hentry]
  apply get_view
  · rw [hslice]
    exact .cons (ravel_lt h) .nil
  · rw [hslice]
    simp

/-- One more tensor in front. -/
lemma cat_cons {xs : List (NdTensor α)} (hxs : cat dim xs = some y)
    (hshape : x.shape.eraseIdx dim = y.shape.eraseIdx dim) :
    cat dim (x :: xs) = some (x.append dim y) := by
  cases xs with
  | nil => cases hxs
  | cons z xs =>
    rw [cat, hxs]
    · exact if_pos hshape
    · simp

/-- An index in the first tensor. -/
lemma get_append_left (h : idx.getD dim 0 < x.shape.getD dim 0) :
    (x.append dim y).get idx = x.get idx := if_pos h

/-- An index in the second tensor. -/
lemma get_append_right (h : x.shape.getD dim 0 ≤ idx.getD dim 0) :
    (x.append dim y).get idx = y.get (idx.modify dim (· - x.shape.getD dim 0)) := if_neg h.not_gt

lemma modify_eq_set_getD (l : List ℕ) (i : ℕ) (f : ℕ → ℕ) :
    l.modify i f = l.set i (f (l.getD i 0)) := by
  rw [getD_eq_getElem?_getD]
  exact modify_eq_set f i l

lemma getD_set_self {l : List ℕ} {i : ℕ} (hi : i < l.length) (a : ℕ) :
    (l.set i a).getD i 0 = a := by
  rw [getD_eq_getElem _ _ (by rwa [length_set]), getElem_set_self]

lemma set_getD_self (l : List ℕ) (i : ℕ) : l.set i (l.getD i 0) = l :=
  (modify_eq_set_getD l i id).symm.trans (modify_id i l)

/-- Tensors of one shape, one behind the other: the values of each are found in its block. -/
lemma cat_of_forall_shape {xs : List (NdTensor α)} (hne : xs ≠ []) (hdim : dim < shape.length)
    (hshape : ∀ x ∈ xs, x.shape = shape) :
    ∃ y, cat dim xs = some y ∧ y.shape = shape.set dim (xs.length * shape.getD dim 0) ∧
      ∀ (p : ℕ) (hp : p < xs.length) (idx : List ℕ) (j : ℕ), j < shape.getD dim 0 →
        idx.getD dim 0 = p * shape.getD dim 0 + j →
        y.get idx = (xs.get ⟨p, hp⟩).get (idx.set dim j) := by
  induction xs with
  | nil => exact absurd rfl hne
  | cons x xs ih =>
    have hx : x.shape = shape := hshape x mem_cons_self
    rcases eq_or_ne xs [] with rfl | hxs
    · refine ⟨x, rfl, ?_, fun p hp idx j _ hidx => ?_⟩
      · rw [hx, length_singleton, Nat.one_mul, set_getD_self]
      · obtain rfl : p = 0 := Nat.lt_one_iff.mp hp
        rw [Nat.zero_mul, Nat.zero_add] at hidx
        rw [← hidx, set_getD_self]
        rfl
    · obtain ⟨y, hcat, hyshape, hget⟩ := ih hxs fun z hz => hshape z (mem_cons_of_mem x hz)
      refine ⟨x.append dim y, cat_cons hcat ?_, ?_, fun p hp idx j hj hidx => ?_⟩
      · rw [hx, hyshape, eraseIdx_set_eq]
      · change x.shape.modify dim _ = _
        rw [modify_eq_set_getD, hx, hyshape, getD_set_self hdim, length_cons]
        congr 1
        ring
      · cases p with
        | zero =>
          rw [Nat.zero_mul, Nat.zero_add] at hidx
          rw [get_append_left (by rw [hidx, hx]; exact hj), ← hidx, set_getD_self]
          rfl
        | succ p =>
          have hle : x.shape.getD dim 0 ≤ idx.getD dim 0 := by
            rw [hidx, hx, Nat.succ_mul]
            omega
          have hpos : 0 < idx.getD dim 0 := by
            rw [hidx, Nat.succ_mul]
            omega
          have hlen : dim < idx.length := by
            by_contra hout
            rw [getD_eq_default _ _ (not_lt.mp hout)] at hpos
            exact absurd hpos (lt_irrefl 0)
          rw [get_append_right hle, modify_eq_set_getD,
            hget p (Nat.lt_of_succ_lt_succ hp) _ j hj, set_set]
          · rfl
          · rw [getD_set_self hlen, hidx, hx, Nat.succ_mul]
            omega

/-- Equal shapes fit. -/
lemma broadcastDims_self (dims : List ℕ) : broadcastDims dims dims = some dims := by
  induction dims with
  | nil => rfl
  | cons n dims ih => simp [broadcastDims, ih]

lemma stretch_of_length (h : idx.length = shape.length) :
    stretch shape idx = List.zipWith (fun n i => if n = 1 then 0 else i) shape idx := by
  rw [stretch, h, Nat.sub_self, drop_zero]

lemma stretch_of_inShape (h : InShape idx shape) : stretch shape idx = idx := by
  rw [stretch_of_length h.length_eq]
  induction h with
  | nil => rfl
  | @cons i n idx shape hi _ ih =>
    rw [zipWith_cons_cons, ih]
    split
    · obtain rfl : i = 0 := by omega
      rfl
    · rfl

lemma stretch_column (h : InShape idx shape) (i : ℕ) :
    stretch (shape ++ [1]) (idx ++ [i]) = idx ++ [0] := by
  rw [stretch_of_length (by simp [h.length_eq]), zipWith_append h.length_eq.symm,
    ← stretch_of_length h.length_eq, stretch_of_inShape h]
  rfl

section ZipWith

variable {β γ : Type*} {f : α → β → γ} {z : NdTensor β} {shape : List ℕ}

/-- Two tensors of one shape. -/
lemma zipWith_same (hx : x.shape = shape) (hz : z.shape = shape) :
    ∃ w, zipWith f x z = some w ∧ w.shape = shape ∧
      ∀ idx, InShape idx shape → w.get idx = f (x.get idx) (z.get idx) := by
  refine ⟨⟨shape, fun idx => f (x.get (stretch shape idx)) (z.get (stretch shape idx))⟩, ?_, rfl,
    fun idx hidx => ?_⟩
  · rw [zipWith, hx, hz, broadcastDims_self, Option.map_some, reverse_reverse]
  · simp only [stretch_of_inShape hidx]

lemma zipWith_column {n : ℕ} (hx : x.shape = shape ++ [1]) (hz : z.shape = shape ++ [n]) :
    ∃ w, zipWith f x z = some w ∧ w.shape = shape ++ [n] ∧
      ∀ idx i, InShape idx shape → i < n →
        w.get (idx ++ [i]) = f (x.get (idx ++ [0])) (z.get (idx ++ [i])) := by
  have hdims : broadcastDims (shape ++ [1]).reverse (shape ++ [n]).reverse =
      some (shape ++ [n]).reverse := by
    rw [reverse_concat, reverse_concat, broadcastDims, broadcastDims_self]
    by_cases hn : 1 = n
    · simp [hn]
    · simp [hn]
  refine ⟨⟨shape ++ [n], fun idx => f (x.get (stretch (shape ++ [1]) idx))
    (z.get (stretch (shape ++ [n]) idx))⟩, ?_, rfl, fun idx i hidx hi => ?_⟩
  · rw [zipWith, hx, hz, hdims, Option.map_some, reverse_reverse]
  · have hin : InShape (idx ++ [i]) (shape ++ [n]) :=
      rel_append hidx (List.Forall₂.cons hi List.Forall₂.nil)
    simp only [stretch_column hidx, stretch_of_inShape hin]

end ZipWith

@[simp] lemma length_toList (x : NdTensor α) : x.toList.length = x.shape.headD 0 := by
  rw [toList, length_map, length_range]

/-- The values pass through a list unchanged. -/
lemma get_ofList_toList [Inhabited α] {i : ℕ} (hi : i < x.shape.headD 0) :
    (ofList x.toList).get [i] = x.get [i] := by
  have hi' : i < x.toList.length := hi.trans_eq x.length_toList.symm
  change x.toList.getD i default = x.get [i]
  rw [getD_eq_getElem _ _ hi']
  simp only [toList, getElem_map, getElem_range]

end NdTensor

end Tensors
