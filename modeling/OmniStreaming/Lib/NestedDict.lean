import Mathlib.Data.List.Basic

/-!
# Nested dictionaries

A `NestedDict` is a dictionary in insertion order, some of whose values are dictionaries again.
`flatten` lists its leaves and its empty subdictionaries with the keys that lead to them, and
`setAt` gives the end of such a path a value, with the missing subdictionaries on the way.

The flat list determines the dictionary: giving all paths their values, one after the other, makes
it again from an empty one (`setAll_flatten`). The paths into one subdictionary stand next to each
other in the list, and setting them does to that subdictionary what setting the rest of the paths
does to an empty one (`setAll_map_cons`).
-/

/-- A dictionary whose values are leaves or dictionaries. -/
inductive NestedDict (κ ν : Type)
  | nil
  | leaf (k : κ) (v : ν) (rest : NestedDict κ ν)
  | dict (k : κ) (sub rest : NestedDict κ ν)
  deriving DecidableEq

namespace NestedDict

open List

variable {κ ν : Type}

/-- The keys of the outermost dictionary. -/
def keys : NestedDict κ ν → List κ
  | nil => []
  | leaf k _ rest | dict k _ rest => k :: rest.keys

/-- The keys differ in each dictionary. -/
def Distinct : NestedDict κ ν → Prop
  | nil => True
  | leaf k _ rest => k ∉ rest.keys ∧ rest.Distinct
  | dict k sub rest => k ∉ rest.keys ∧ sub.Distinct ∧ rest.Distinct

/-- Every key satisfies `P`. -/
def AllKeys (P : κ → Prop) : NestedDict κ ν → Prop
  | nil => True
  | leaf k _ rest => P k ∧ rest.AllKeys P
  | dict k sub rest => P k ∧ sub.AllKeys P ∧ rest.AllKeys P

/-- Every leaf satisfies `P`. -/
def AllLeaves (P : ν → Prop) : NestedDict κ ν → Prop
  | nil => True
  | leaf _ v rest => P v ∧ rest.AllLeaves P
  | dict _ sub rest => sub.AllLeaves P ∧ rest.AllLeaves P

/-- The entries of two dictionaries, one behind the other. -/
def append : NestedDict κ ν → NestedDict κ ν → NestedDict κ ν
  | nil, e => e
  | leaf k v rest, e => leaf k v (rest.append e)
  | dict k sub rest, e => dict k sub (rest.append e)

/-- One more entry in front. -/
def cons (k : κ) (x : ν ⊕ NestedDict κ ν) (rest : NestedDict κ ν) : NestedDict κ ν :=
  match x with
  | .inl v => leaf k v rest
  | .inr sub => dict k sub rest

section Update

variable [DecidableEq κ]

/-- The value of a key. -/
def lookup : NestedDict κ ν → κ → Option (ν ⊕ NestedDict κ ν)
  | nil, _ => none
  | leaf k v rest, k' => if k = k' then some (.inl v) else rest.lookup k'
  | dict k sub rest, k' => if k = k' then some (.inr sub) else rest.lookup k'

/-- Give a key a value: a new key goes to the end, a known key keeps its place. -/
def set : NestedDict κ ν → κ → ν ⊕ NestedDict κ ν → NestedDict κ ν
  | nil, k', x => cons k' x nil
  | leaf k v rest, k', x => if k = k' then cons k' x rest else leaf k v (rest.set k' x)
  | dict k sub rest, k', x => if k = k' then cons k' x rest else dict k sub (rest.set k' x)

/-- Give the end of a path a value. Missing dictionaries are made, and a leaf on the way is an
error. -/
def setAt : NestedDict κ ν → List κ → ν ⊕ NestedDict κ ν → Option (NestedDict κ ν)
  | _, [], _ => none
  | d, [k], x => some (d.set k x)
  | d, k :: k' :: path, x =>
    match d.lookup k with
    | none => (setAt nil (k' :: path) x).map fun sub => d.set k (.inr sub)
    | some (.inr sub) => (setAt sub (k' :: path) x).map fun sub' => d.set k (.inr sub')
    | some (.inl _) => none

end Update

/-- What stands at the end of a path in a flat list: a leaf, or an empty dictionary. -/
def ofItem : Option ν → ν ⊕ NestedDict κ ν
  | some v => .inl v
  | none => .inr nil

/-- The leaves and the empty dictionaries, each with its path. -/
def flatten : NestedDict κ ν → List (List κ × Option ν)
  | nil => []
  | leaf k v rest => ([k], some v) :: rest.flatten
  | dict k nil rest => ([k], none) :: rest.flatten
  | dict k sub rest => sub.flatten.map (fun e => (k :: e.1, e.2)) ++ rest.flatten

/-- Give the paths of a flat list their values, one after the other. -/
def setAll [DecidableEq κ] (d : NestedDict κ ν) (items : List (List κ × Option ν)) :
    Option (NestedDict κ ν) :=
  items.foldlM (fun d e => d.setAt e.1 (ofItem e.2)) d

/-! ## Entries -/

section Entries

variable {d : NestedDict κ ν} {k : κ}

/-- Induction over the entries of the outermost dictionary. -/
@[elab_as_elim]
lemma entryInduction {motive : NestedDict κ ν → Prop} (nil : motive nil)
    (cons : ∀ k x rest, motive rest → motive (cons k x rest)) (d : NestedDict κ ν) : motive d := by
  induction d with
  | nil => exact nil
  | leaf k v rest ih => exact cons k (.inl v) rest ih
  | dict k sub rest _ ih => exact cons k (.inr sub) rest ih

@[simp] lemma keys_cons (k : κ) (x : ν ⊕ NestedDict κ ν) (rest : NestedDict κ ν) :
    (cons k x rest).keys = k :: rest.keys := by
  cases x <;> rfl

@[simp] lemma cons_append (k : κ) (x : ν ⊕ NestedDict κ ν) (rest e : NestedDict κ ν) :
    (cons k x rest).append e = cons k x (rest.append e) := by
  cases x <;> rfl

@[simp] lemma keys_append (d e : NestedDict κ ν) : (d.append e).keys = d.keys ++ e.keys := by
  induction d using entryInduction with
  | nil => rfl
  | cons k x rest ih => simp [ih]

lemma append_assoc (d e f : NestedDict κ ν) : (d.append e).append f = d.append (e.append f) := by
  induction d using entryInduction with
  | nil => rfl
  | cons k x rest ih => simp [ih]

lemma append_nil (d : NestedDict κ ν) : d.append nil = d := by
  induction d using entryInduction with
  | nil => rfl
  | cons k x rest ih => rw [cons_append, ih]

/-- The keys behind an entry are new behind a dictionary that ends with this entry. -/
lemma new_of_append {acc e rest : NestedDict κ ν} (hk : k ∉ rest.keys)
    (hnew : ∀ k' ∈ rest.keys, k' ∉ acc.keys) (he : e.keys = [k]) :
    ∀ k' ∈ rest.keys, k' ∉ (acc.append e).keys := by
  intro k' hk'
  rw [keys_append, he, mem_append, mem_singleton, not_or]
  refine ⟨hnew k' hk', ?_⟩
  rintro rfl
  exact hk hk'

variable [DecidableEq κ]

lemma lookup_cons (k k' : κ) (x : ν ⊕ NestedDict κ ν) (rest : NestedDict κ ν) :
    (cons k x rest).lookup k' = if k = k' then some x else rest.lookup k' := by
  cases x <;> rfl

lemma set_cons (k k' : κ) (x y : ν ⊕ NestedDict κ ν) (rest : NestedDict κ ν) :
    (cons k x rest).set k' y = if k = k' then cons k' y rest else cons k x (rest.set k' y) := by
  cases x <;> rfl

lemma lookup_of_notMem (h : k ∉ d.keys) : d.lookup k = none := by
  induction d using entryInduction with
  | nil => rfl
  | cons k' x rest ih =>
    rw [keys_cons, mem_cons, not_or] at h
    rw [lookup_cons, if_neg (Ne.symm h.1), ih h.2]

/-- A new key goes to the end. -/
lemma set_of_notMem (h : k ∉ d.keys) (x : ν ⊕ NestedDict κ ν) :
    d.set k x = d.append (cons k x nil) := by
  induction d using entryInduction with
  | nil => rfl
  | cons k' y rest ih =>
    rw [keys_cons, mem_cons, not_or] at h
    rw [set_cons, if_neg (Ne.symm h.1), ih h.2, cons_append]

lemma lookup_set_self (d : NestedDict κ ν) (k : κ) (x : ν ⊕ NestedDict κ ν) :
    (d.set k x).lookup k = some x := by
  induction d using entryInduction with
  | nil =>
    rw [set, lookup_cons, if_pos rfl]
  | cons k' y rest ih =>
    by_cases hk : k' = k
    · rw [set_cons, if_pos hk, lookup_cons, if_pos rfl]
    · rw [set_cons, if_neg hk, lookup_cons, if_neg hk, ih]

/-- The last value given counts. -/
lemma set_set (d : NestedDict κ ν) (k : κ) (x y : ν ⊕ NestedDict κ ν) :
    (d.set k x).set k y = d.set k y := by
  induction d using entryInduction with
  | nil =>
    rw [set, set_cons, if_pos rfl, set]
  | cons k' z rest ih =>
    by_cases hk : k' = k
    · rw [set_cons, if_pos hk, set_cons, if_pos rfl, set_cons, if_pos hk]
    · rw [set_cons, if_neg hk, set_cons, if_neg hk, ih, set_cons, if_neg hk]

end Entries

/-! ## Flat lists -/

lemma flatten_dict_nil (k : κ) (rest : NestedDict κ ν) :
    (dict k nil rest).flatten = ([k], none) :: rest.flatten := rfl

lemma flatten_dict {sub : NestedDict κ ν} (h : sub ≠ nil) (k : κ) (rest : NestedDict κ ν) :
    (dict k sub rest).flatten =
      sub.flatten.map (fun e => (k :: e.1, e.2)) ++ rest.flatten := by
  cases sub with
  | nil => exact absurd rfl h
  | leaf k' v rest' => rfl
  | dict k' sub' rest' => rfl

variable {e : List κ × Option ν} {d : NestedDict κ ν}

/-- An item is an empty dictionary, or comes from the dictionary under the key, or from the
others. -/
lemma mem_flatten_dict {sub rest : NestedDict κ ν} {k : κ} (h : e ∈ (dict k sub rest).flatten) :
    e = ([k], none) ∨ (∃ e' ∈ sub.flatten, e = (k :: e'.1, e'.2)) ∨ e ∈ rest.flatten := by
  by_cases hsub : sub = nil
  · subst hsub
    exact (mem_cons.mp h).imp_right .inr
  · rw [flatten_dict hsub, mem_append] at h
    rcases h with h | h
    · obtain ⟨e', he', rfl⟩ := mem_map.mp h
      exact .inr (.inl ⟨e', he', rfl⟩)
    · exact .inr (.inr h)

/-- No path is empty. -/
lemma path_ne_nil (h : e ∈ d.flatten) : e.1 ≠ [] := by
  induction d with
  | nil => exact absurd h not_mem_nil
  | leaf k v rest ih =>
    rcases mem_cons.mp h with rfl | h
    · exact cons_ne_nil k []
    · exact ih h
  | dict k sub rest _ ih =>
    rcases mem_flatten_dict h with rfl | ⟨e', -, rfl⟩ | h
    · exact cons_ne_nil k []
    · exact cons_ne_nil k e'.1
    · exact ih h

lemma allKeys_path {P : κ → Prop} (hd : d.AllKeys P) (h : e ∈ d.flatten) : ∀ k ∈ e.1, P k := by
  induction d generalizing e with
  | nil => exact absurd h not_mem_nil
  | leaf k v rest ih =>
    rcases mem_cons.mp h with rfl | h
    · exact forall_mem_singleton.mpr hd.1
    · exact ih hd.2 h
  | dict k sub rest ihsub ih =>
    rcases mem_flatten_dict h with rfl | ⟨e', he', rfl⟩ | h
    · exact forall_mem_singleton.mpr hd.1
    · exact forall_mem_cons.mpr ⟨hd.1, ihsub hd.2.1 he'⟩
    · exact ih hd.2.2 h

lemma allLeaves_item {P : ν → Prop} {path : List κ} {v : ν} (hd : d.AllLeaves P)
    (h : (path, some v) ∈ d.flatten) : P v := by
  induction d generalizing path with
  | nil => exact absurd h not_mem_nil
  | leaf k v' rest ih =>
    rcases mem_cons.mp h with heq | h
    · cases heq
      exact hd.1
    · exact ih hd.2 h
  | dict k sub rest ihsub ih =>
    rcases mem_flatten_dict h with heq | ⟨⟨path', x⟩, he', heq⟩ | h
    · cases heq
    · cases heq
      exact ihsub hd.1 he'
    · exact ih hd.2 h

lemma flatten_ne_nil (h : d ≠ nil) : d.flatten ≠ [] := by
  induction d with
  | nil => exact absurd rfl h
  | leaf k v rest _ => exact cons_ne_nil _ _
  | dict k sub rest ihsub _ =>
    by_cases hsub : sub = nil
    · subst hsub
      exact cons_ne_nil _ _
    · rw [flatten_dict hsub]
      intro hnil
      exact ihsub hsub (map_eq_nil_iff.mp (append_eq_nil_iff.mp hnil).1)

section Rebuild

variable [DecidableEq κ] {d : NestedDict κ ν} {k : κ} {items : List (List κ × Option ν)}

lemma setAll_cons (d : NestedDict κ ν) (e : List κ × Option ν) (items : List (List κ × Option ν)) :
    d.setAll (e :: items) = (d.setAt e.1 (ofItem e.2)).bind fun d' => d'.setAll items :=
  foldlM_cons

/-- Setting items one after the other. -/
lemma setAll_append (d : NestedDict κ ν) (items items' : List (List κ × Option ν)) :
    d.setAll (items ++ items') = (d.setAll items).bind fun d' => d'.setAll items' :=
  foldlM_append

/-- A path into a dictionary changes that dictionary. -/
lemma setAt_cons_set {path : List κ} (hpath : path ≠ []) (d sub : NestedDict κ ν) (k : κ)
    (x : ν ⊕ NestedDict κ ν) :
    (d.set k (.inr sub)).setAt (k :: path) x =
      (sub.setAt path x).map fun sub' => d.set k (.inr sub') := by
  obtain ⟨k', path, rfl⟩ := exists_cons_of_ne_nil hpath
  simp only [setAt, lookup_set_self, set_set]

/-- A path through a new key makes the dictionary that it leads into. -/
lemma setAt_cons_new {path : List κ} (hpath : path ≠ []) (hk : d.lookup k = none)
    (x : ν ⊕ NestedDict κ ν) :
    d.setAt (k :: path) x = (setAt nil path x).map fun sub => d.set k (.inr sub) := by
  obtain ⟨k', path, rfl⟩ := exists_cons_of_ne_nil hpath
  simp only [setAt, hk]

/-- Paths into one dictionary change that dictionary. -/
lemma setAll_map_cons (hpaths : ∀ e ∈ items, e.1 ≠ []) (d sub : NestedDict κ ν) (k : κ) :
    (d.set k (.inr sub)).setAll (items.map fun e => (k :: e.1, e.2)) =
      (sub.setAll items).map fun sub' => d.set k (.inr sub') := by
  induction items generalizing sub with
  | nil => rfl
  | cons e items ih =>
    rw [map_cons, setAll_cons, setAll_cons, setAt_cons_set (hpaths e mem_cons_self)]
    cases sub.setAt e.1 (ofItem e.2) with
    | none => rfl
    | some sub' => exact ih (fun e' he' => hpaths e' (mem_cons_of_mem e he')) sub'

/-- Paths through a new key make the dictionary that they lead into. -/
lemma setAll_map_cons_new (hpaths : ∀ e ∈ items, e.1 ≠ []) (hitems : items ≠ [])
    (hk : d.lookup k = none) :
    d.setAll (items.map fun e => (k :: e.1, e.2)) =
      (setAll nil items).map fun sub => d.set k (.inr sub) := by
  obtain ⟨e, items, rfl⟩ := exists_cons_of_ne_nil hitems
  rw [map_cons, setAll_cons, setAll_cons, setAt_cons_new (hpaths e mem_cons_self) hk]
  cases setAt nil e.1 (ofItem e.2) with
  | none => rfl
  | some sub => exact setAll_map_cons (fun e' he' => hpaths e' (mem_cons_of_mem e he')) d sub k

/-- The flat list of a dictionary puts its entries behind those that are there. -/
lemma setAll_flatten_append {acc : NestedDict κ ν} (hd : d.Distinct)
    (hnew : ∀ k ∈ d.keys, k ∉ acc.keys) : acc.setAll d.flatten = some (acc.append d) := by
  induction d generalizing acc with
  | nil => rw [append_nil]; rfl
  | leaf k v rest ih =>
    have hset : acc.setAt [k] (.inl v) = some (acc.append (leaf k v nil)) :=
      congrArg some (set_of_notMem (hnew k mem_cons_self) _)
    rw [flatten, setAll_cons, ofItem, hset, Option.bind_some, ih hd.2, append_assoc]
    · rfl
    · exact new_of_append hd.1 (fun k' hk' => hnew k' (mem_cons_of_mem k hk')) rfl
  | dict k sub rest ihsub ih =>
    have hk : k ∉ acc.keys := hnew k mem_cons_self
    have hrest : (acc.append (dict k sub nil)).setAll rest.flatten =
        some ((acc.append (dict k sub nil)).append rest) :=
      ih hd.2.2 (new_of_append hd.1 (fun k' hk' => hnew k' (mem_cons_of_mem k hk')) rfl)
    rw [append_assoc] at hrest
    by_cases hsub : sub = nil
    · subst hsub
      have hset : acc.setAt [k] (.inr nil) = some (acc.append (dict k nil nil)) :=
        congrArg some (set_of_notMem hk _)
      rw [flatten, setAll_cons, ofItem, hset, Option.bind_some, hrest]
      rfl
    · have hbuilt : setAll nil sub.flatten = some sub :=
        ihsub hd.2.1 fun _ _ => not_mem_nil
      rw [flatten_dict hsub, setAll_append, setAll_map_cons_new (fun e => path_ne_nil)
        (flatten_ne_nil hsub) (lookup_of_notMem hk), hbuilt, Option.map_some, Option.bind_some,
        set_of_notMem hk]
      exact hrest

/-- Giving all paths their values makes the dictionary again. -/
theorem setAll_flatten (hd : d.Distinct) : setAll nil d.flatten = some d :=
  setAll_flatten_append hd fun _ _ => not_mem_nil

end Rebuild

end NestedDict
