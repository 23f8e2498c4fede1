import Mathlib.Algebra.BigOperators.Group.Finset.Basic
import Mathlib.Tactic.Abel

/-!
# Custody of numbered things

What a system holds is a sum over the places that can hold something. `sum_map_set` and
`sum_map_eraseIdx` say what the sum loses and gains when one place changes or goes away, and
`sum_update` the same for places that are given by a function.

Things that are created one after the other are numbered. `Balanced` is the ledger: each thing that
has been created is held exactly once or has been freed exactly once. A step that accounts for what
it creates, frees and loses keeps the balance iff it loses nothing.
-/

namespace Custody

open Multiset

variable {α β : Type*} [AddCommMonoid β] {i : ℕ} {xs : List α} {x : α}

lemma sum_map_set (f : α → β) (h : xs[i]? = some x) (y : α) :
    ((xs.set i y).map f).sum + f x = (xs.map f).sum + f y := by
  induction xs generalizing i with
  | nil => simp at h
  | cons z xs ih =>
    cases i with
    | zero =>
      obtain rfl : z = x := by simpa using h
      simp [add_comm, add_left_comm]
    | succ i =>
      have hrest := ih (i := i) (by simpa using h)
      simp only [List.set_cons_succ, List.map_cons, List.sum_cons, add_assoc, hrest]

lemma sum_map_eraseIdx (f : α → β) (h : xs[i]? = some x) :
    ((xs.eraseIdx i).map f).sum + f x = (xs.map f).sum := by
  induction xs generalizing i with
  | nil => simp at h
  | cons z xs ih =>
    cases i with
    | zero =>
      obtain rfl : z = x := by simpa using h
      simp [add_comm]
    | succ i =>
      have hrest := ih (i := i) (by simpa using h)
      simp only [List.eraseIdx_cons_succ, List.map_cons, List.sum_cons, add_assoc, hrest]

lemma sum_update {κ : Type*} [DecidableEq κ] {s : Finset κ} {k : κ} (hk : k ∈ s) (f : κ → α → β)
    (g : κ → α) (y : α) :
    (∑ j ∈ s, f j (Function.update g k y j)) + f k (g k) = (∑ j ∈ s, f j (g j)) + f k y := by
  have hrest : ∀ j ∈ s.erase k, f j (Function.update g k y j) = f j (g j) := by
    intro j hj
    rw [Function.update_of_ne (Finset.ne_of_mem_erase hj)]
  rw [← Finset.add_sum_erase s _ hk, ← Finset.add_sum_erase s (fun j => f j (g j)) hk,
    Finset.sum_congr rfl hrest, Function.update_self]
  abel

/-- Of the things created so far, each is held once or has been freed once. -/
def Balanced (created : ℕ) (freed held : Multiset ℕ) : Prop :=
  freed + held = range created

instance (created : ℕ) (freed held : Multiset ℕ) : Decidable (Balanced created freed held) :=
  inferInstanceAs (Decidable (freed + held = range created))

variable {freed freed' held held' new lost : Multiset ℕ}

/-- A step keeps the balance iff it loses nothing. -/
theorem balanced_iff_lost_eq_zero {created created' : ℕ} (h : Balanced created freed held)
    (hcreated : range created' = range created + new)
    (hstep : freed' + held' + lost = freed + held + new) :
    Balanced created' freed' held' ↔ lost = 0 := by
  have hsum : freed' + held' + lost = range created' := by
    rw [hstep, h, hcreated]
  rw [Balanced, ← hsum, left_eq_add]

/-- Whatever a step loses, nothing is held or freed twice, or without having been created. -/
theorem le_range_of_step {created created' : ℕ} (h : freed + held ≤ range created)
    (hcreated : range created' = range created + new)
    (hstep : freed' + held' + lost = freed + held + new) :
    freed' + held' ≤ range created' := by
  have hsum : freed' + held' + lost ≤ range created' := by
    rw [hstep, hcreated]
    exact add_le_add_left h new
  exact (Multiset.le_add_right _ lost).trans hsum

end Custody
