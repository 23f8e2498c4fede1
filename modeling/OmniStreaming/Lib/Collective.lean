import OmniStreaming.Lib.Tensor

/-!
# Collective operations

The processes of a group run the same program, each on its own tensors, and meet in collective
operations. What the group holds is a function of the rank, of which the values at the ranks below
the size of the group count. `onRanks` runs a local step on every rank, and fails if one of them
does.
-/

namespace Tensors

variable {ε : Type} {α β : Type}

/-- A step that every rank of a group of size `n` takes. -/
def onRanks [Inhabited β] (n : ℕ) (f : ℕ → Except ε β) : Except ε (ℕ → β) :=
  ((List.range n).mapM f).map fun xs r => xs.getD r default

/-- A loop in which nothing fails. -/
lemma mapM_eq_ok {f : ℕ → Except ε β} {g : ℕ → β} {rs : List ℕ} (h : ∀ r ∈ rs, f r = .ok (g r)) :
    rs.mapM f = .ok (rs.map g) := by
  induction rs with
  | nil => rfl
  | cons r rs ih =>
    rw [List.mapM_cons, h r List.mem_cons_self, ih fun r' hr' => h r' (List.mem_cons_of_mem r hr')]
    rfl

/-- If every rank succeeds, the group holds the results. -/
lemma onRanks_ok [Inhabited β] {n : ℕ} {f : ℕ → Except ε β} {Q : ℕ → β → Prop}
    (h : ∀ r < n, ∃ y, f r = .ok y ∧ Q r y) : ∃ x, onRanks n f = .ok x ∧ ∀ r < n, Q r (x r) := by
  choose! g hg hQ using h
  refine ⟨fun r => ((List.range n).map g).getD r default, ?_, fun r hr => ?_⟩
  · rw [onRanks, mapM_eq_ok fun r hr => hg r (List.mem_range.mp hr)]
    rfl
  · simpa [List.getD, hr] using hQ r hr

/-- `all_to_all_single`: rank `r` gets the block `r` of the first dimension of every rank, in
order. -/
def allToAllSingle (n : ℕ) (x : ℕ → NdTensor α) (r : ℕ) : NdTensor α where
  shape := (x r).shape
  get
    | [] => (x r).get []
    | i :: idx =>
      let size := (x r).shape.headD 0 / n
      (x (i / size)).get ((r * size + i % size) :: idx)

/-- With one entry for each rank in the first dimension, the entry `i` comes from rank `i`. -/
lemma get_allToAllSingle {n : ℕ} (hn : 0 < n) {x : ℕ → NdTensor α} {r : ℕ} {shape : List ℕ}
    (hshape : (x r).shape = n :: shape) (i : ℕ) (idx : List ℕ) :
    (allToAllSingle n x r).get (i :: idx) = (x i).get (r :: idx) := by
  simp only [allToAllSingle, hshape, List.headD_cons, Nat.div_self hn, Nat.div_one, Nat.mod_one,
    Nat.mul_one, Nat.add_zero]

/-- `all_gather`: what every rank gets. -/
def gatheredFrom (n : ℕ) (x : ℕ → NdTensor α) : List (NdTensor α) := (List.range n).map x

end Tensors
