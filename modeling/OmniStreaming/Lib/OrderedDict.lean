import Mathlib.Data.List.Forall2
import Mathlib.Data.List.TakeWhile

/-!
# Dictionaries in insertion order

A dictionary is a list of entries. A new key goes to the end, a known key keeps its place, as in
Python. The lemmas say which entries and keys there are after an update.
-/

namespace OrderedDict

open List

variable {κ ν : Type*} [DecidableEq κ]

/-- The keys, in insertion order. -/
def keys (d : List (κ × ν)) : List κ := d.map Prod.fst

/-- Give a key a value. -/
def set (d : List (κ × ν)) (k : κ) (v : ν) : List (κ × ν) :=
  if k ∈ keys d then d.map fun e => if e.1 = k then (k, v) else e else d ++ [(k, v)]

/-- Remove every key that passes the test. -/
def popKeys (d : List (κ × ν)) (p : κ → Bool) : List (κ × ν) := d.filter fun e => !p e.1

/-- Remove a key, if it is there. -/
def pop (d : List (κ × ν)) (k : κ) : List (κ × ν) := popKeys d fun k' => k' = k

/-- The dictionary that a loop over another one fills, until a value fails. -/
def fillM {ε ω : Type*} (f : ν → Except ε ω) (d : List (κ × ν)) : Except ε (List (κ × ω)) :=
  d.foldlM (fun filled e => (f e.2).map (set filled e.1)) []

/-- The keys that stand before a key. -/
def before (d : List (κ × ν)) (k : κ) : List κ := (keys d).takeWhile (· ≠ k)

variable {d : List (κ × ν)} {k k' : κ} {v v' : ν}

/-- An entry after a key has been given a value is the new one or an old one of another key. -/
lemma mem_set (h : (k', v') ∈ set d k v) : (k' = k ∧ v' = v) ∨ (k', v') ∈ d := by
  unfold set at h
  split at h
  · obtain ⟨e, he, heq⟩ := mem_map.mp h
    split at heq
    · cases heq
      exact .inl ⟨rfl, rfl⟩
    · exact .inr (heq ▸ he)
  · rcases mem_append.mp h with h | h
    · exact .inr h
    · cases mem_singleton.mp h
      exact .inl ⟨rfl, rfl⟩

/-- The key has its new value. -/
lemma mem_set_self (d : List (κ × ν)) (k : κ) (v : ν) : (k, v) ∈ set d k v := by
  unfold set
  split
  · next hk =>
    obtain ⟨e, he, rfl⟩ := mem_map.mp hk
    exact mem_map.mpr ⟨e, he, if_pos rfl⟩
  · exact mem_append_right _ (mem_singleton_self _)

/-- Setting a key keeps the entries of the others. -/
lemma mem_set_of_ne (h : (k', v') ∈ d) (hne : k' ≠ k) : (k', v') ∈ set d k v := by
  unfold set
  split
  · exact mem_map.mpr ⟨(k', v'), h, if_neg hne⟩
  · exact mem_append_left _ h

omit [DecidableEq κ] in
/-- The entries whose key does not pass. -/
lemma mem_popKeys {p : κ → Bool} : (k', v') ∈ popKeys d p ↔ (k', v') ∈ d ∧ p k' = false := by
  simp [popKeys]

omit [DecidableEq κ] in
/-- An entry is found under its key. -/
lemma lookup_of_mem [BEq κ] [LawfulBEq κ] (hd : (keys d).Nodup) (h : (k, v) ∈ d) :
    d.lookup k = some v := by
  induction d with
  | nil => cases h
  | cons e d ih =>
    obtain ⟨hnew, hd⟩ := nodup_cons.mp hd
    rw [lookup_cons]
    rcases mem_cons.mp h with rfl | h
    · simp
    · have hne : k ≠ e.1 := fun he => hnew (he ▸ mem_map.mpr ⟨(k, v), h, rfl⟩)
      rw [beq_eq_false_iff_ne.mpr hne]
      exact ih hd h

omit [DecidableEq κ] in
/-- What is found is an entry. -/
lemma mem_of_lookup [BEq κ] [LawfulBEq κ] (h : d.lookup k = some v) : (k, v) ∈ d := by
  obtain ⟨l, r, rfl, -⟩ := lookup_eq_some_iff.mp h
  exact mem_append_right _ mem_cons_self

lemma lookup_of_notMem (h : k ∉ keys d) : d.lookup k = none := by
  rw [lookup_eq_none_iff]
  intro e he
  exact bne_iff_ne.mpr fun hk => h (hk ▸ mem_map.mpr ⟨e, he, rfl⟩)

/-- Only a new key is added. -/
lemma keys_set (d : List (κ × ν)) (k : κ) (v : ν) :
    keys (set d k v) = if k ∈ keys d then keys d else keys d ++ [k] := by
  unfold set
  split
  · rw [keys, map_map]
    refine map_congr_left fun e _ => ?_
    by_cases he : e.1 = k <;> simp [he]
  · rw [keys, map_append, map_singleton, keys]

lemma mem_keys_set : k' ∈ keys (set d k v) ↔ k' = k ∨ k' ∈ keys d := by
  rw [keys_set]
  split
  · next hk => exact ⟨.inr, fun h => h.elim (fun he => he ▸ hk) id⟩
  · rw [mem_append, mem_singleton, or_comm]

/-- Keys stay unique. -/
lemma nodup_keys_set (h : (keys d).Nodup) (k : κ) (v : ν) : (keys (set d k v)).Nodup := by
  rw [keys_set]
  split
  · exact h
  · next hk =>
    refine nodup_append.mpr ⟨h, by simp, fun a ha b hb => ?_⟩
    rw [mem_singleton.mp hb]
    rintro rfl
    exact hk ha

/-- An entry with a new key is put at the end. -/
lemma set_of_nodup {ks : List κ} (h : (keys d ++ k :: ks).Nodup) (v : ν) :
    set d k v = d ++ [(k, v)] := by
  apply if_neg
  intro hmem
  exact (nodup_append.mp h).2.2 _ hmem _ mem_cons_self rfl

/-- Entries with new keys are put at the end in order. -/
lemma foldl_set_of_nodup {es : List (κ × ν)} (h : (keys (d ++ es)).Nodup) :
    es.foldl (fun d e => set d e.1 e.2) d = d ++ es := by
  induction es generalizing d with
  | nil => exact (append_nil d).symm
  | cons e es ih =>
    have hnew : (keys d ++ e.1 :: keys es).Nodup := by simpa [keys] using h
    rw [foldl_cons, set_of_nodup hnew, ih (by simpa using h), append_assoc,
      singleton_append]

section Fill

variable {ε ω : Type*} {f : ν → Except ε ω}

/-- The loop puts one entry behind the other. -/
lemma foldlM_set_eq_ok {filled es : List (κ × ω)} (h : (keys filled ++ keys d).Nodup) :
    d.foldlM (fun filled e => (f e.2).map (set filled e.1)) filled = .ok es ↔
      ∃ new, es = filled ++ new ∧
        List.Forall₂ (fun e e' => e.1 = e'.1 ∧ f e.2 = .ok e'.2) d new := by
  induction d generalizing filled with
  | nil =>
    constructor
    · intro hok
      obtain rfl : filled = es := Except.ok.inj hok
      exact ⟨[], (append_nil filled).symm, .nil⟩
    · rintro ⟨new, rfl, hnew⟩
      cases hnew
      rw [append_nil]
      rfl
  | cons e d ih =>
    obtain ⟨k, v⟩ := e
    rw [foldlM_cons]
    cases hv : f v with
    | error err =>
      refine iff_of_false (fun hok => nomatch hok) ?_
      rintro ⟨new, -, hnew⟩
      cases hnew with
      | cons he _ => cases hv.symm.trans he.2
    | ok w =>
      have hfilled : (keys (filled ++ [(k, w)]) ++ keys d).Nodup := by simpa [keys] using h
      have hrest := ih hfilled
      rw [← set_of_nodup h] at hrest
      refine Iff.trans hrest ?_
      constructor
      · rintro ⟨new, rfl, hnew⟩
        refine ⟨(k, w) :: new, ?_, .cons ⟨rfl, hv⟩ hnew⟩
        rw [set_of_nodup h, append_assoc, singleton_append]
      · rintro ⟨new, rfl, hnew⟩
        cases hnew with
        | @cons _ e' _ new he hnew =>
          obtain ⟨k', w'⟩ := e'
          obtain ⟨rfl, hw⟩ := he
          cases hv.symm.trans hw
          refine ⟨new, ?_, hnew⟩
          rw [set_of_nodup h, append_assoc, singleton_append]

/-- The dictionary that is filled has the keys of the other one, with the new values. -/
lemma fillM_eq_ok (h : (keys d).Nodup) {es : List (κ × ω)} :
    fillM f d = .ok es ↔ List.Forall₂ (fun e e' => e.1 = e'.1 ∧ f e.2 = .ok e'.2) d es := by
  have hnil : (keys ([] : List (κ × ω)) ++ keys d).Nodup := h
  rw [fillM, foldlM_set_eq_ok hnil]
  simp

/-- The loop keeps the keys. -/
lemma keys_of_fillM (h : (keys d).Nodup) {es : List (κ × ω)} (hes : fillM f d = .ok es) :
    keys es = keys d := by
  rw [fillM_eq_ok h] at hes
  have heq : List.Forall₂ (· = ·) (keys d) (keys es) := by
    rw [keys, keys, forall₂_map_left_iff, forall₂_map_right_iff]
    exact hes.imp fun _ _ he => he.1
  rw [forall₂_eq_eq_eq] at heq
  exact heq.symm

/-- The loop goes through when no value fails. -/
lemma exists_fillM_eq_ok (h : (keys d).Nodup) :
    (∃ es, fillM f d = .ok es) ↔ ∀ e ∈ d, ∃ w, f e.2 = .ok w := by
  simp only [fillM_eq_ok h]
  clear h
  induction d with
  | nil => exact ⟨fun _ _ he => (not_mem_nil he).elim, fun _ => ⟨[], .nil⟩⟩
  | cons e d ih =>
    rw [forall_mem_cons, ← ih]
    constructor
    · rintro ⟨es, hes⟩
      cases hes with
      | @cons _ e' _ es he hes => exact ⟨⟨e'.2, he.2⟩, es, hes⟩
    · rintro ⟨⟨w, hw⟩, es, hes⟩
      exact ⟨(e.1, w) :: es, .cons ⟨rfl, hw⟩ hes⟩

end Fill

/-! ## The order of the keys -/

/-- What stands before a key, from the front on. -/
lemma before_cons (e : κ × ν) (d : List (κ × ν)) (k : κ) :
    before (e :: d) k = if e.1 = k then [] else e.1 :: before d k := by
  by_cases he : e.1 = k
  · simp [before, keys, he]
  · simp [before, keys, he]

/-- Giving a key a value puts nothing before a key that is there. -/
lemma before_set (h : k ∈ keys d) (k' : κ) (v : ν) : before (set d k' v) k = before d k := by
  rw [before, keys_set]
  split
  · rfl
  · rw [before, takeWhile_append, if_neg]
    intro hlen
    have hall := takeWhile_eq_self_iff.mp ((List.takeWhile_prefix _).eq_of_length hlen)
    exact of_decide_eq_true (hall k h) rfl

/-- Removing keys puts nothing before a key that stays. -/
lemma before_popKeys_subset {p : κ → Bool} (h : p k = false) :
    before (popKeys d p) k ⊆ before d k := by
  induction d with
  | nil => exact List.Subset.refl _
  | cons e d ih =>
    unfold popKeys at ih ⊢
    by_cases he : p e.1 = true
    · have hne : e.1 ≠ k := by
        rintro rfl
        exact Bool.false_ne_true (h.symm.trans he)
      rw [filter_cons_of_neg (by simp [he]), before_cons, if_neg hne]
      exact fun x hx => mem_cons_of_mem _ (ih hx)
    · rw [filter_cons_of_pos (by simp [he]), before_cons, before_cons]
      split
      · exact List.Subset.refl _
      · exact cons_subset_cons _ ih

/-- The first entry whose key passes a test has a given key that does, or stands before it. -/
lemma mem_before_of_find? {p : κ → Bool} (hfind : d.find? (fun e => p e.1) = some (k', v'))
    (hk : k ∈ keys d) (hp : p k = true) : k' = k ∨ k' ∈ before d k := by
  induction d with
  | nil => cases hfind
  | cons e d ih =>
    have hmem : k = e.1 ∨ k ∈ keys d := mem_cons.mp hk
    rw [find?_cons] at hfind
    rw [before_cons]
    grind

lemma pop_of_notMem (h : k ∉ keys d) : pop d k = d := by
  refine filter_eq_self.mpr fun e he => ?_
  have hne : e.1 ≠ k := fun hk => h (hk ▸ mem_map.mpr ⟨e, he, rfl⟩)
  simp [hne]

/-- The entries with another key. -/
lemma mem_pop : (k', v') ∈ pop d k ↔ (k', v') ∈ d ∧ k' ≠ k := by
  simp [pop, popKeys]

end OrderedDict
