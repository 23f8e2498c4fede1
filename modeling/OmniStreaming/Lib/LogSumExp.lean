import Mathlib.Analysis.SpecialFunctions.Sigmoid

/-!
# Softmax averages

The softmax average of a list of scored values weighs each value by the exponential of its score.
The average of a long list is computed from the averages of its parts and the logarithms of their
weights: the average of a part counts as one value, and the logarithm of its weight as the score
(`softmaxMean_map_parts`). Two parts are merged by the logistic function
(`softmaxMean_concat`, `logSumExp_concat`), which needs no exponential of a score.
-/

namespace Softmax

open Prod Real

/-- The weight of a list of scores. -/
noncomputable def weight (scores : List ℝ) : ℝ := (scores.map exp).sum

/-- The score with the weight of a list of scores. -/
noncomputable def logSumExp (scores : List ℝ) : ℝ := log (weight scores)

/-- The sum of the values, each weighed by the exponential of its score. -/
noncomputable def weightedSum (xs : List (ℝ × ℝ)) : ℝ := (xs.map fun x => exp x.1 * x.2).sum

/-- The softmax average of scored values. -/
noncomputable def softmaxMean (xs : List (ℝ × ℝ)) : ℝ := weightedSum xs / weight (xs.map fst)

/-- The logarithm of the logistic function. -/
noncomputable def logSigmoid (x : ℝ) : ℝ := log (sigmoid x)

@[simp] lemma weight_nil : weight [] = 0 := rfl

@[simp] lemma weight_cons (s : ℝ) (scores : List ℝ) :
    weight (s :: scores) = exp s + weight scores := by
  simp [weight]

/-- The weight of two lists. -/
@[simp] lemma weight_append (scores scores' : List ℝ) :
    weight (scores ++ scores') = weight scores + weight scores' := by
  simp [weight]

@[simp] lemma weightedSum_nil : weightedSum [] = 0 := rfl

@[simp] lemma weightedSum_cons (x : ℝ × ℝ) (xs : List (ℝ × ℝ)) :
    weightedSum (x :: xs) = exp x.1 * x.2 + weightedSum xs := by
  simp [weightedSum]

/-- The weighted sum of two lists. -/
@[simp] lemma weightedSum_append (xs ys : List (ℝ × ℝ)) :
    weightedSum (xs ++ ys) = weightedSum xs + weightedSum ys := by
  simp [weightedSum]

variable {scores : List ℝ}

/-- A weight is positive. -/
lemma weight_pos (h : scores ≠ []) : 0 < weight scores :=
  List.sum_pos _ (by simp [exp_pos]) (by simpa using h)

lemma exp_logSumExp (h : scores ≠ []) : exp (logSumExp scores) = weight scores :=
  exp_log (weight_pos h)

/-- The average as a quotient. -/
lemma weight_mul_softmaxMean {xs : List (ℝ × ℝ)} (h : xs ≠ []) :
    weight (xs.map fst) * softmaxMean xs = weightedSum xs :=
  mul_div_cancel₀ _ (weight_pos (by simpa using h)).ne'

lemma softmaxMean_perm {xs ys : List (ℝ × ℝ)} (h : xs.Perm ys) :
    softmaxMean xs = softmaxMean ys := by
  have hsum : weightedSum xs = weightedSum ys := (h.map _).sum_eq
  have hweight : weight (xs.map fst) = weight (ys.map fst) :=
    ((h.map fst).map exp).sum_eq
  rw [softmaxMean, softmaxMean, hsum, hweight]

lemma softmaxMean_singleton (x : ℝ × ℝ) : softmaxMean [x] = x.2 := by
  simp [softmaxMean, mul_div_cancel_left₀ x.2 (exp_ne_zero x.1)]

/-! ## The merge of two parts -/

lemma sigmoid_sub (a b : ℝ) : sigmoid (b - a) = exp b / (exp a + exp b) := by
  rw [sigmoid_def, neg_sub, exp_sub, inv_eq_one_div, div_eq_div_iff (by positivity) (by positivity)]
  field_simp
  ring

/-- Its logarithm. -/
lemma logSigmoid_sub (a b : ℝ) : logSigmoid (a - b) = a - log (exp a + exp b) := by
  rw [logSigmoid, sigmoid_sub, log_div (exp_ne_zero a) (by positivity), log_exp, add_comm]

/-- The score of one more part. -/
lemma logSumExp_concat (h : scores ≠ []) (s : ℝ) :
    logSumExp scores - logSigmoid (logSumExp scores - s) = logSumExp (scores ++ [s]) := by
  rw [logSigmoid_sub, exp_logSumExp h, sub_sub_cancel, logSumExp, weight_append, weight_cons,
    weight_nil, add_zero]

/-- The average with one more part. -/
lemma softmaxMean_concat {xs : List (ℝ × ℝ)} (h : xs ≠ []) (s v : ℝ) :
    softmaxMean xs - sigmoid (s - logSumExp (xs.map fst)) * (softmaxMean xs - v) =
      softmaxMean (xs ++ [(s, v)]) := by
  have hfst : xs.map fst ≠ [] := by simpa using h
  have hw := weight_pos hfst
  have htotal : weight (xs.map fst) + exp s ≠ 0 := by positivity
  rw [sigmoid_sub, exp_logSumExp hfst]
  have hright : softmaxMean (xs ++ [(s, v)]) =
      (weight (xs.map fst) * softmaxMean xs + exp s * v) /
        (weight (xs.map fst) + exp s) := by
    rw [weight_mul_softmaxMean h]
    simp [softmaxMean]
  rw [hright]
  field_simp
  ring

/-! ## Parts -/

/-- The average of a list is the average over its parts. -/
lemma softmaxMean_map_parts {ι : Type*} (parts : List ι) (row : ι → List (ℝ × ℝ))
    (hne : ∀ i ∈ parts, row i ≠ []) :
    softmaxMean (parts.map fun i => (logSumExp ((row i).map fst), softmaxMean (row i))) =
      softmaxMean (parts.flatMap row) := by
  have hsum : weightedSum (parts.map fun i =>
      (logSumExp ((row i).map fst), softmaxMean (row i))) =
      weightedSum (parts.flatMap row) := by
    induction parts with
    | nil => rfl
    | cons i parts ih =>
      have hi := hne i List.mem_cons_self
      rw [List.map_cons, weightedSum_cons, List.flatMap_cons, weightedSum_append,
        ih fun j hj => hne j (List.mem_cons_of_mem i hj), exp_logSumExp (by simpa using hi),
        weight_mul_softmaxMean hi]
  have hweight : weight ((parts.map fun i =>
      (logSumExp ((row i).map fst), softmaxMean (row i))).map fst) =
      weight ((parts.flatMap row).map fst) := by
    clear hsum
    induction parts with
    | nil => rfl
    | cons i parts ih =>
      have hi := hne i List.mem_cons_self
      rw [List.map_cons, List.map_cons, weight_cons, List.flatMap_cons, List.map_append,
        weight_append, ih fun j hj => hne j (List.mem_cons_of_mem i hj),
        exp_logSumExp (by simpa using hi)]
  rw [softmaxMean, softmaxMean, hsum, hweight]

end Softmax
