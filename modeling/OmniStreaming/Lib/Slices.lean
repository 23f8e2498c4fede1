import Mathlib.Data.List.TakeDrop
import Mathlib.Data.List.Flatten
import Mathlib.Tactic.Ring

/-!
# Slices of lists and blocks of fixed width

`slice xs i j` is the half-open slice that array languages write `xs[i:j]`: it is total, and ends
where the list ends. The second half of the file is about a list in which every element stands
for a block of a fixed number `c` of cells (`flatMap` of a function whose values all have length
`c`): cutting the cells at a multiple of `c` is cutting the list of blocks.
-/

namespace Slices

open List

variable {α β : Type*}

/-- The half-open slice `xs[i:j]`. -/
def slice (xs : List α) (i j : ℕ) : List α := (xs.drop i).take (j - i)

variable {xs : List α}

/-- A slice that ends inside the first list does not see what is appended to it. -/
lemma slice_append_left {j : ℕ} (ys : List α) (i : ℕ) (h : j ≤ xs.length) :
    slice (xs ++ ys) i j = slice xs i j := by
  unfold slice
  rcases le_or_gt i xs.length with hi | hi
  · rw [drop_append_of_le_length hi, take_append_of_le_length (by simp; omega)]
  · have hzero : j - i = 0 := by omega
    rw [hzero, take_zero, take_zero]

/-- A slice from `i` continues the prefix of length `i`. -/
lemma take_append_slice (xs : List α) {i j : ℕ} (h : i ≤ j) :
    xs.take i ++ slice xs i j = xs.take j := by
  obtain ⟨d, rfl⟩ := Nat.exists_eq_add_of_le h
  rw [slice, Nat.add_sub_cancel_left, take_add]

/-- Dropping from the front of a slice moves its start. -/
lemma drop_slice (xs : List α) (i j d : ℕ) : (slice xs i j).drop d = slice xs (i + d) j := by
  unfold slice
  rw [drop_take, drop_drop, Nat.sub_sub]

/-- A slice of one position inside the list is that single element. -/
lemma slice_succ_eq_singleton {i : ℕ} (h : i < xs.length) :
    slice xs i (i + 1) = [xs.get ⟨i, h⟩] := by
  rw [slice, Nat.add_sub_cancel_left, drop_eq_getElem_cons h]
  rfl

/-- A slice behind the end is empty. -/
lemma slice_eq_nil_of_length_le {i : ℕ} (j : ℕ) (h : xs.length ≤ i) : slice xs i j = [] := by
  rw [slice, drop_eq_nil_of_le h, take_nil]

lemma length_slice (xs : List α) (i j : ℕ) :
    (slice xs i j).length = min (j - i) (xs.length - i) := by
  rw [slice, length_take, length_drop]

/-- Consecutive slices of one width make up the front of the list. -/
lemma flatMap_slice (xs : List α) (k p : ℕ) :
    (range p).flatMap (fun i => slice xs (i * k) ((i + 1) * k)) = xs.take (p * k) := by
  induction p with
  | zero => simp
  | succ p ih =>
    rw [range_succ, flatMap_append, ih, flatMap_cons, flatMap_nil,
      append_nil, take_append_slice xs (Nat.mul_le_mul_right k (Nat.le_succ p))]

/-- Slices of two lists, entry by entry. -/
lemma zipWith_slice {γ : Type*} (f : α → β → γ) (xs : List α) (ys : List β) (i j : ℕ) :
    zipWith f (slice xs i j) (slice ys i j) = slice (zipWith f xs ys) i j := by
  rw [slice, slice, slice, drop_zipWith, take_zipWith]

section Blocks

variable {f : α → List β} {c : ℕ}

/-- The number of cells in blocks of `c` cells. -/
lemma length_flatMap_const (hf : ∀ x ∈ xs, (f x).length = c) :
    (xs.flatMap f).length = xs.length * c := by
  induction xs with
  | nil => exact (Nat.zero_mul c).symm
  | cons x xs ih =>
    rw [flatMap_cons, length_append, hf x mem_cons_self,
      ih fun y hy => hf y (mem_cons_of_mem x hy), length_cons, Nat.succ_mul,
      Nat.add_comm]

/-- Dropping `n` blocks of `c` cells is dropping `n` elements. -/
lemma drop_mul_flatMap (hf : ∀ x, (f x).length = c) (n : ℕ) (xs : List α) :
    (xs.flatMap f).drop (n * c) = (xs.drop n).flatMap f := by
  induction n generalizing xs with
  | zero => simp
  | succ n ih =>
    cases xs with
    | nil => simp
    | cons x xs =>
      have hc : (n + 1) * c = (f x).length + n * c := by rw [hf x]; ring
      rw [flatMap_cons, hc, drop_append, drop_succ_cons, ← ih xs,
        drop_eq_nil_of_le (by omega), Nat.add_sub_cancel_left, nil_append]

/-- Keeping `n` blocks of `c` cells is keeping `n` elements. -/
lemma take_mul_flatMap (hf : ∀ x, (f x).length = c) (n : ℕ) (xs : List α) :
    (xs.flatMap f).take (n * c) = (xs.take n).flatMap f := by
  induction n generalizing xs with
  | zero => simp
  | succ n ih =>
    cases xs with
    | nil => simp
    | cons x xs =>
      have hc : (n + 1) * c = (f x).length + n * c := by rw [hf x]; ring
      rw [flatMap_cons, hc, take_append, take_succ_cons, flatMap_cons, ← ih xs,
        take_of_length_le (by omega), Nat.add_sub_cancel_left]

end Blocks

/-- A list is computed entry by entry without an effect if no entry has one. -/
lemma mapM_eq_pure {γ : Type} {m : Type → Type*} [Monad m] [LawfulMonad m] {f : α → m γ}
    {g : α → γ} (h : ∀ x ∈ xs, f x = pure (g x)) : xs.mapM f = pure (xs.map g) := by
  induction xs with
  | nil => exact mapM_nil
  | cons x xs ih =>
    rw [mapM_cons, h x mem_cons_self, ih fun y hy => h y (mem_cons_of_mem x hy),
      pure_bind, pure_bind, map_cons]

end Slices
