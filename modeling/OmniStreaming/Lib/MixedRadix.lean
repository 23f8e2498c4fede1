import Mathlib.Algebra.Order.BigOperators.Group.List
import Mathlib.Tactic.Ring

/-!
# Mixed radix numbers with digits of several kinds

A shape lists the sizes of the digits of a number, least significant digit first, and gives each of
them a kind. The digits of one kind, read by themselves, are a number too: `part k shape x`. On
the numbers below the product of all sizes, `x` and the family of its parts determine each other
(`part_join`, `join_part`), where the part of kind `k` is any number below `size k shape`.
-/

namespace MixedRadix

open Function List

variable {κ : Type*}

/-- The digits of `x` with the sizes given. -/
def digits : List ℕ → ℕ → List ℕ
  | [], _ => []
  | n :: sizes, x => x % n :: digits sizes (x / n)

/-- All sizes are positive. -/
def Positive (shape : List (ℕ × κ)) : Prop := ∀ d ∈ shape, 0 < d.1

variable {shape : List (ℕ × κ)}

lemma Positive.tail {d : ℕ × κ} (h : Positive (d :: shape)) : Positive shape :=
  fun e he => h e (mem_cons_of_mem d he)

variable [DecidableEq κ]

/-- The number of values that the digits of kind `k` can take together. -/
def size (k : κ) : List (ℕ × κ) → ℕ
  | [] => 1
  | (n, j) :: shape => if j = k then n * size k shape else size k shape

/-- The number that the digits of kind `k` make by themselves. -/
def part (k : κ) : List (ℕ × κ) → ℕ → ℕ
  | [], _ => 0
  | (n, j) :: shape, x =>
    if j = k then x % n + n * part k shape (x / n) else part k shape (x / n)

/-- The number whose digits of kind `k` are those of `f k`. -/
def join : List (ℕ × κ) → (κ → ℕ) → ℕ
  | [], _ => 0
  | (n, k) :: shape, f => f k % n + n * join shape (update f k (f k / n))

/-- A part is below its size. -/
lemma part_lt (h : Positive shape) (k : κ) (x : ℕ) : part k shape x < size k shape := by
  induction shape generalizing x with
  | nil => exact Nat.one_pos
  | cons d shape ih =>
    obtain ⟨n, j⟩ := d
    have hn : 0 < n := h (n, j) mem_cons_self
    rw [part, size]
    split
    · have hmod : x % n < n := Nat.mod_lt x hn
      have hrest : part k shape (x / n) + 1 ≤ size k shape := ih h.tail (x / n)
      calc x % n + n * part k shape (x / n) < n * (part k shape (x / n) + 1) := by
            rw [Nat.mul_succ]
            omega
        _ ≤ n * size k shape := Nat.mul_le_mul_left n hrest
    · exact ih h.tail (x / n)

lemma join_lt (h : Positive shape) (f : κ → ℕ) : join shape f < (shape.map Prod.fst).prod := by
  induction shape generalizing f with
  | nil => exact Nat.one_pos
  | cons d shape ih =>
    obtain ⟨n, k⟩ := d
    have hmod : f k % n < n := Nat.mod_lt _ (h (n, k) mem_cons_self)
    have hrest := Nat.succ_le_of_lt (ih h.tail (update f k (f k / n)))
    rw [join, map_cons, prod_cons]
    calc f k % n + n * join shape (update f k (f k / n))
        < n * (join shape (update f k (f k / n)) + 1) := by
          rw [Nat.mul_succ]
          omega
      _ ≤ n * (shape.map Prod.fst).prod := Nat.mul_le_mul_left n hrest

/-- The lowest digit of a number and the rest of it. -/
lemma mod_div_of_digit {n : ℕ} (hn : 0 < n) (a b : ℕ) :
    (a % n + n * b) % n = a % n ∧ (a % n + n * b) / n = b := by
  constructor
  · rw [Nat.add_mul_mod_self_left, Nat.mod_mod]
  · rw [Nat.add_mul_div_left _ _ hn, Nat.div_eq_of_lt (Nat.mod_lt a hn), Nat.zero_add]

/-- The parts of a joined number. -/
lemma part_join (h : Positive shape) {f : κ → ℕ} {k : κ} (hf : f k < size k shape) :
    part k shape (join shape f) = f k := by
  induction shape generalizing f with
  | nil => exact (Nat.lt_one_iff.mp hf).symm
  | cons d shape ih =>
    obtain ⟨n, j⟩ := d
    have hn : 0 < n := h (n, j) mem_cons_self
    obtain ⟨hmod, hdiv⟩ :=
      mod_div_of_digit hn (f j) (join shape (update f j (f j / n)))
    rw [size] at hf
    rw [part, join, hmod, hdiv]
    by_cases hj : j = k
    · subst hj
      rw [if_pos rfl] at hf
      have hrest := ih h.tail (f := update f j (f j / n))
        (by rw [update_self]; exact Nat.div_lt_of_lt_mul hf)
      rw [if_pos rfl, hrest, update_self, Nat.mod_add_div]
    · rw [if_neg hj] at hf
      have hrest := ih h.tail (f := update f j (f j / n))
        (by rw [update_of_ne (Ne.symm hj)]; exact hf)
      rw [if_neg hj, hrest, update_of_ne (Ne.symm hj)]

/-- A number is joined from its parts. -/
lemma join_part (h : Positive shape) {x : ℕ} (hx : x < (shape.map Prod.fst).prod) :
    join shape (fun k => part k shape x) = x := by
  induction shape generalizing x with
  | nil => exact (Nat.lt_one_iff.mp hx).symm
  | cons d shape ih =>
    obtain ⟨n, j⟩ := d
    have hn : 0 < n := h (n, j) mem_cons_self
    rw [map_cons, prod_cons] at hx
    have hrest : update (fun k => part k ((n, j) :: shape) x) j
        (part j shape (x / n)) = fun k => part k shape (x / n) := by
      funext k
      by_cases hk : k = j
      · rw [hk, update_self]
      · rw [update_of_ne hk]
        exact if_neg (Ne.symm hk)
    obtain ⟨hmod, hdiv⟩ := mod_div_of_digit hn x (part j shape (x / n))
    have hself : part j ((n, j) :: shape) x = x % n + n * part j shape (x / n) := if_pos rfl
    rw [← hself] at hmod hdiv
    rw [join, hmod, hdiv, hrest, ih h.tail (Nat.div_lt_of_lt_mul hx), Nat.mod_add_div]

lemma part_eq_self {k : κ} (hk : ∀ d ∈ shape, d.2 = k) {x : ℕ}
    (hx : x < (shape.map Prod.fst).prod) : part k shape x = x := by
  induction shape generalizing x with
  | nil => exact (Nat.lt_one_iff.mp hx).symm
  | cons d shape ih =>
    obtain ⟨n, j⟩ := d
    rw [map_cons, prod_cons] at hx
    rw [part, if_pos (hk (n, j) mem_cons_self),
      ih (fun e he => hk e (mem_cons_of_mem _ he)) (Nat.div_lt_of_lt_mul hx),
      Nat.mod_add_div]

/-- The parts of two numbers are equal iff all their digits of that kind are. -/
lemma part_eq_iff_digits (h : Positive shape) (k : κ) (x y : ℕ) :
    part k shape x = part k shape y ↔ ∀ i : ℕ, (shape.map Prod.snd)[i]? = some k →
      (digits (shape.map Prod.fst) x)[i]? = (digits (shape.map Prod.fst) y)[i]? := by
  induction shape generalizing x y with
  | nil => exact ⟨fun _ _ _ => rfl, fun _ => rfl⟩
  | cons d shape ih =>
    obtain ⟨n, j⟩ := d
    have hn : 0 < n := h (n, j) mem_cons_self
    have hrest := ih h.tail (x / n) (y / n)
    rw [part, part]
    by_cases hj : j = k
    · rw [if_pos hj, if_pos hj]
      constructor
      · intro heq i hi
        have hx := mod_div_of_digit hn x (part k shape (x / n))
        have hy := mod_div_of_digit hn y (part k shape (y / n))
        rw [heq] at hx
        cases i with
        | zero => exact congrArg some (hx.1.symm.trans hy.1)
        | succ i => exact hrest.mp (hx.2.symm.trans hy.2) i hi
      · intro hdigits
        have hmod : x % n = y % n := Option.some.inj (hdigits 0 (congrArg some hj))
        rw [hmod, hrest.mpr fun i hi => hdigits (i + 1) hi]
    · rw [if_neg hj, if_neg hj, hrest]
      constructor
      · intro hdigits i hi
        cases i with
        | zero => exact absurd (Option.some.inj hi) hj
        | succ i => exact hdigits i hi
      · exact fun hdigits i hi => hdigits (i + 1) hi

end MixedRadix
