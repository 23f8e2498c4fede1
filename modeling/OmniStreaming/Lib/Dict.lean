import Mathlib.Data.List.AList

/-!
# Dictionaries edited by tests on their keys

A dictionary is an association list without repeated keys (`AList`), with a constant type of
values. Two operations are built on insertion and erasure: `setKeys` enters a list of keys with
one value, and `popKeys` removes every key that passes a test. Each comes with the lemma that says
what a lookup finds afterwards.
-/

namespace Dictionary

variable {κ ν : Type*} [DecidableEq κ]

/-- A dictionary from `κ` to `ν`. -/
abbrev Dict (κ ν : Type*) := AList fun _ : κ => ν

/-- Enter the keys of a list, one after the other, with the value `v`. -/
def setKeys (d : Dict κ ν) (ks : List κ) (v : ν) : Dict κ ν :=
  ks.foldl (fun d k => d.insert k v) d

/-- Remove every key that passes the test. -/
def popKeys (d : Dict κ ν) (p : κ → Bool) : Dict κ ν :=
  (d.keys.filter p).foldl (fun d k => d.erase k) d

/-- A key that has just been entered has the new value; any other keeps what it had. -/
lemma lookup_setKeys (d : Dict κ ν) (ks : List κ) (v : ν) (k : κ) :
    (setKeys d ks v).lookup k = if k ∈ ks then some v else d.lookup k := by
  induction ks generalizing d with
  | nil => simp [setKeys]
  | cons a ks ih =>
    have hcons : setKeys d (a :: ks) v = setKeys (d.insert a v) ks v := rfl
    rw [hcons, ih]
    by_cases hka : k = a
    · subst hka
      simp
    · simp [hka, AList.lookup_insert_ne hka]

/-- Erasing a list of keys removes exactly these. -/
lemma lookup_foldl_erase (d : Dict κ ν) (ks : List κ) (k : κ) :
    (ks.foldl (fun d k => AList.erase k d) d).lookup k = if k ∈ ks then none else d.lookup k := by
  induction ks generalizing d with
  | nil => simp
  | cons a ks ih =>
    rw [List.foldl_cons, ih]
    by_cases hka : k = a
    · subst hka
      simp
    · simp [hka, AList.lookup_erase_ne hka]

/-- A key that passes the test is gone; any other keeps what it had. -/
lemma lookup_popKeys (d : Dict κ ν) (p : κ → Bool) (k : κ) :
    (popKeys d p).lookup k = if p k then none else d.lookup k := by
  rw [popKeys, lookup_foldl_erase]
  by_cases hp : p k = true
  · by_cases hk : k ∈ d.keys
    · simp [hk, hp]
    · have hnone : d.lookup k = none := AList.lookup_eq_none.mpr fun hmem =>
        hk (AList.mem_keys.mp hmem)
      simp [hnone]
  · simp [hp]

end Dictionary
