import Mathlib.Data.List.Chain
import Mathlib.Logic.Function.Basic

/-!
# Doubly linked lists

The nodes of a doubly linked list carry links to their neighbours. A list of nodes is linked if
neighbours point to each other. The file shows what joining, appending and removing nodes does to
linked lists.
-/

namespace LinkedList

open Function

/-- The links that the nodes carry. -/
structure Links (ν : Type*) where
  prev : ν → Option ν := fun _ => none
  next : ν → Option ν := fun _ => none

namespace Links

variable {ν : Type*} [DecidableEq ν] (L : Links ν)

/-- The node `b` comes right behind `a`. -/
def join (a b : ν) : Links ν where
  prev := update L.prev b (some a)
  next := update L.next a (some b)

/-- The nodes of a list come one after the other behind `a`. -/
def joinAll (L : Links ν) : ν → List ν → Links ν
  | _, [] => L
  | a, b :: bs => (L.join a b).joinAll b bs

/-- The node `a` loses its links. -/
def clear (a : ν) : Links ν where
  prev := update L.prev a none
  next := update L.next a none

/-- Neighbours point to each other. -/
def Linked (L : Links ν) (xs : List ν) : Prop :=
  xs.IsChain fun a b => L.next a = some b ∧ L.prev b = some a

variable {L : Links ν} {a b c : ν} {u v : List ν}

/-- Two linked lists become one. -/
lemma Linked.join (hu : L.Linked (u ++ [a])) (hv : L.Linked (b :: v))
    (hnodup : (u ++ a :: b :: v).Nodup) : (L.join a b).Linked (u ++ a :: b :: v) := by
  have hframe : ∀ c d, c ≠ a → d ≠ b → L.next c = some d ∧ L.prev d = some c →
      (L.join a b).next c = some d ∧ (L.join a b).prev d = some c := by
    intro c d hc hd h
    simpa only [Links.join, update_of_ne hc, update_of_ne hd] using h
  obtain ⟨hinit, -, hlast⟩ := List.isChain_append.mp hu
  refine List.isChain_append.mpr ⟨hinit.imp_of_mem_imp ?_, List.isChain_cons_cons.mpr
    ⟨⟨update_self .., update_self ..⟩, hv.imp_of_mem_tail_imp ?_⟩, ?_⟩
  · exact fun c d hc hd => hframe c d (by grind) (by grind)
  · exact fun c d hc hd => hframe c d (by grind) (by grind)
  · exact fun c hc d hd => hframe c d (by grind) (by grind) (hlast c hc d hd)

lemma Linked.clear (h : L.Linked u) (ha : a ∉ u) : (L.clear a).Linked u := by
  refine h.imp_of_mem_imp fun c d hc hd hlink => ?_
  have hca : c ≠ a := ne_of_mem_of_not_mem hc ha
  have hda : d ≠ a := ne_of_mem_of_not_mem hd ha
  simpa only [Links.clear, update_of_ne hca, update_of_ne hda] using hlink

/-- Nodes are appended to a linked list. -/
lemma Linked.joinAll (h : L.Linked (u ++ [a])) (hnodup : (u ++ a :: v).Nodup) :
    (L.joinAll a v).Linked (u ++ a :: v) := by
  induction v generalizing L u a with
  | nil => exact h
  | cons b v ih =>
    have hjoin := h.join (.singleton b) (hnodup.sublist (by simp))
    rw [List.append_cons] at hnodup hjoin ⊢
    exact ih hjoin hnodup

/-- The last node is joined to one more. -/
lemma Linked.join_getLastD (h : L.Linked (u ++ a :: v)) (hnodup : (u ++ a :: v ++ [b]).Nodup) :
    (L.join (v.getLastD a) b).Linked (u ++ a :: v ++ [b]) := by
  obtain ⟨w, hw⟩ : ∃ w, u ++ a :: v = w ++ [v.getLastD a] := by
    refine ⟨u ++ (a :: v).dropLast, ?_⟩
    rw [List.append_assoc, ← List.getLast_eq_getLastD (List.cons_ne_nil a v),
      List.dropLast_append_getLast]
  rw [hw, List.append_assoc] at hnodup ⊢
  rw [hw] at h
  exact h.join (.singleton b) hnodup

/-- A node is taken out from between its neighbours. -/
lemma Linked.remove (h : L.Linked (u ++ a :: b :: c :: v))
    (hnodup : (u ++ a :: b :: c :: v).Nodup) :
    L.prev b = some a ∧ L.next b = some c ∧
      ((L.join a c).clear b).Linked (u ++ a :: c :: v) := by
  obtain ⟨hu, ⟨-, hprev⟩, hrest⟩ := List.isChain_append_cons_cons.mp h
  obtain ⟨⟨hnext, -⟩, hv⟩ := List.isChain_cons_cons.mp hrest
  refine ⟨hprev, hnext, (Linked.join hu hv ?_).clear ?_⟩
  · exact hnodup.sublist (by simp)
  · grind

end Links

end LinkedList
