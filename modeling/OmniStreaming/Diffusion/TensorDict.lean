import Mathlib.Algebra.Ring.Nat
import OmniStreaming.Lib.NestedDict

/-!
# Dictionaries of tensors

`send_tensor_dict` sends a nested dictionary in two parts. `_split_tensor_dict` makes a list of flat
keys, `key1%key2` for an entry of a subdictionary, in which the metadata of a tensor stands for the
tensor, and a list of the tensors. The first list is sent as one object, the tensors follow one by
one, those without elements not at all. `recv_tensor_dict` goes through the flat keys, allocates a
tensor wherever it finds metadata, and puts everything into a new dictionary with
`_update_nested_dict`. (`broadcast_tensor_dict` does the same, but its `broadcast_object` raises for
more than one rank.)

The receiver knows a tensor only by the class `TensorMetadata` of the value, so a leaf of this class
is taken for a tensor.
-/

namespace OmniStreaming

open List

/-! ## The two lists -/

inductive DeviceType
  | cpu
  | accelerator (type : List Char)
  deriving DecidableEq

structure TensorMetadata (δ : Type) where
  device : DeviceType
  dtype : δ
  size : List ℕ
  deriving DecidableEq

/-- A tensor with its elements row after row. -/
structure DictTensor (δ α : Type) extends TensorMetadata δ where
  data : List α
  data_length : data.length = size.prod
  deriving DecidableEq

def TensorMetadata.numel {δ : Type} (m : TensorMetadata δ) : ℕ := m.size.prod

/-- A value that is no dictionary. -/
inductive TensorDictLeaf (δ α ω : Type)
  | tensor (t : DictTensor δ α)
  | metadata (m : TensorMetadata δ)
  | object (o : ω)
  deriving DecidableEq

/-- A nested dictionary with texts as keys. -/
abbrev TensorDict (δ α ω : Type) := NestedDict (List Char) (TensorDictLeaf δ α ω)

/-- A value of the metadata list. -/
inductive MetadataValue (δ ω : Type)
  | metadata (m : TensorMetadata δ)
  | object (o : ω)
  | emptyDict
  deriving DecidableEq

/-- `AssertionError`: `Avoid having '%' in key as it is used as a separator for nested entries.` -/
inductive SplitError
  | separatorInKey
  deriving DecidableEq

variable {δ α ω : Type}

/-- A subdictionary without entries has an entry of its own in the metadata list. -/
def emptyDictMetadata (key : List Char) : TensorDict δ α ω → List (List Char × MetadataValue δ ω)
  | .nil => [(key, .emptyDict)]
  | _ => []

def splitTensorDict (pre : List Char) : TensorDict δ α ω →
    Except SplitError (List (List Char × MetadataValue δ ω) × List (DictTensor δ α))
  | .nil => .ok ([], [])
  | .leaf key value rest =>
    if '%' ∈ key then .error .separatorInKey else do
    let (metadataList, tensorList) ← splitTensorDict pre rest
    match value with
    | .tensor t =>
      .ok ((pre ++ key, .metadata t.toTensorMetadata) :: metadataList, t :: tensorList)
    | .metadata m => .ok ((pre ++ key, .metadata m) :: metadataList, tensorList)
    | .object o => .ok ((pre ++ key, .object o) :: metadataList, tensorList)
  | .dict key value rest =>
    if '%' ∈ key then .error .separatorInKey else do
    let (innerMetadataList, innerTensorList) ← splitTensorDict (pre ++ key ++ ['%']) value
    let (metadataList, tensorList) ← splitTensorDict pre rest
    .ok (emptyDictMetadata (pre ++ key) value ++ innerMetadataList ++ metadataList,
      innerTensorList ++ tensorList)

def updateNestedDict (nestedDict : TensorDict δ α ω) (flattenedKey : List Char)
    (value : TensorDictLeaf δ α ω ⊕ TensorDict δ α ω) : Option (TensorDict δ α ω) :=
  nestedDict.setAt (flattenedKey.splitOn '%') value

/-! ## On the way -/

/-- The tensors on their way to a receiver. -/
structure Broadcasts (δ α : Type) where
  cpu : List (DictTensor δ α)
  device : List (DictTensor δ α)

/-- The group through which a tensor is sent is that of the CPU. -/
def TensorMetadata.isCpu (m : TensorMetadata δ) : Bool := m.device = .cpu

/-- What `send_tensor_dict` sends: tensors without elements are skipped. -/
def broadcastTensors (tensorList : List (DictTensor δ α)) : Broadcasts δ α where
  cpu := tensorList.filter fun t => t.numel ≠ 0 ∧ t.isCpu
  device := tensorList.filter fun t => t.numel ≠ 0 ∧ ¬ t.isCpu

/-- The first tensor is received into memory that fits it. -/
def receiveInto [DecidableEq δ] (m : TensorMetadata δ) :
    List (DictTensor δ α) → Option (DictTensor δ α × List (DictTensor δ α))
  | [] => none
  | t :: ts => if t.toTensorMetadata = m then some (t, ts) else none

/-- A tensor allocated by `torch.empty` is filled from its group. -/
def Broadcasts.receive [DecidableEq δ] (b : Broadcasts δ α) (m : TensorMetadata δ) :
    Option (DictTensor δ α × Broadcasts δ α) :=
  if m.isCpu then (receiveInto m b.cpu).map fun r => (r.1, { b with cpu := r.2 })
  else (receiveInto m b.device).map fun r => (r.1, { b with device := r.2 })

/-- `torch.empty` without elements. -/
def emptyTensor (m : TensorMetadata δ) (h : m.numel = 0) : DictTensor δ α where
  toTensorMetadata := m
  data := []
  data_length := h.symm

/-- The loop of `recv_tensor_dict`. -/
def receiveDict [DecidableEq δ] :
    List (List Char × MetadataValue δ ω) → Broadcasts δ α → TensorDict δ α ω →
      Option (TensorDict δ α ω)
  | [], _, d => some d
  | (key, .metadata m) :: metadataList, b, d =>
    if h : m.numel = 0 then do
      let d' ← updateNestedDict d key (.inl (.tensor (emptyTensor m h)))
      receiveDict metadataList b d'
    else do
      let (t, b') ← b.receive m
      let d' ← updateNestedDict d key (.inl (.tensor t))
      receiveDict metadataList b' d'
  | (key, .object o) :: metadataList, b, d => do
    let d' ← updateNestedDict d key (.inl (.object o))
    receiveDict metadataList b d'
  | (key, .emptyDict) :: metadataList, b, d => do
    let d' ← updateNestedDict d key (.inr .nil)
    receiveDict metadataList b d'

/-! ## The flat items -/

/-- A leaf or an empty subdictionary with the keys that lead to it. -/
abbrev FlatItem (δ α ω : Type) := List (List Char) × Option (TensorDictLeaf δ α ω)

/-- The flat key of a path. -/
def flatKey (path : List (List Char)) : List Char := ['%'].intercalate path

/-- The value that stands for an item in the metadata list. -/
def metadataValue : Option (TensorDictLeaf δ α ω) → MetadataValue δ ω
  | some (.tensor t) => .metadata t.toTensorMetadata
  | some (.metadata m) => .metadata m
  | some (.object o) => .object o
  | none => .emptyDict

/-- The tensor of an item. -/
def tensorOf : Option (TensorDictLeaf δ α ω) → Option (DictTensor δ α)
  | some (.tensor t) => some t
  | _ => none

/-- The items in the metadata list, under keys that start with `pre`. -/
def metadataItems (pre : List Char) (items : List (FlatItem δ α ω)) :
    List (List Char × MetadataValue δ ω) :=
  items.map fun e => (pre ++ flatKey e.1, metadataValue e.2)

/-- The tensors among the items. -/
def tensorItems (items : List (FlatItem δ α ω)) : List (DictTensor δ α) :=
  items.filterMap fun e => tensorOf e.2

section Split

variable {d : TensorDict δ α ω}

lemma flatKey_singleton (key : List Char) : flatKey [key] = key := intercalate_singleton

/-- The flat key of a longer path. -/
lemma flatKey_cons {path : List (List Char)} (h : path ≠ []) (key : List Char) :
    flatKey (key :: path) = key ++ ['%'] ++ flatKey path :=
  intercalate_cons_of_ne_nil h

lemma metadataItems_cons_singleton (pre key : List Char) (x : Option (TensorDictLeaf δ α ω))
    (items : List (FlatItem δ α ω)) :
    metadataItems pre (([key], x) :: items) =
      (pre ++ key, metadataValue x) :: metadataItems pre items := by
  rw [metadataItems, map_cons, flatKey_singleton]
  rfl

/-- The keys of a subdictionary start with its own key and the separator. -/
lemma metadataItems_map_cons {items : List (FlatItem δ α ω)} (h : ∀ e ∈ items, e.1 ≠ [])
    (pre key : List Char) :
    metadataItems pre (items.map fun e => (key :: e.1, e.2)) =
      metadataItems (pre ++ key ++ ['%']) items := by
  rw [metadataItems, metadataItems, map_map]
  refine map_congr_left fun e he => ?_
  simp [flatKey_cons (h e he)]

lemma tensorItems_map_cons (items : List (FlatItem δ α ω)) (key : List Char) :
    tensorItems (items.map fun e => (key :: e.1, e.2)) = tensorItems items := by
  rw [tensorItems, filterMap_map]
  rfl

lemma metadataItems_append (pre : List Char) (items items' : List (FlatItem δ α ω)) :
    metadataItems pre (items ++ items') = metadataItems pre items ++ metadataItems pre items' :=
  map_append

lemma tensorItems_append (items items' : List (FlatItem δ α ω)) :
    tensorItems (items ++ items') = tensorItems items ++ tensorItems items' :=
  filterMap_append

lemma splitTensorDict_eq (hkeys : d.AllKeys ('%' ∉ ·)) (pre : List Char) :
    splitTensorDict pre d = .ok (metadataItems pre d.flatten, tensorItems d.flatten) := by
  induction d generalizing pre with
  | nil => rfl
  | leaf key value rest ih =>
    rw [splitTensorDict, if_neg hkeys.1, ih hkeys.2, NestedDict.flatten,
      metadataItems_cons_singleton]
    cases value with
    | tensor t => rfl
    | metadata m => rfl
    | object o => rfl
  | dict key sub rest ihsub ih =>
    rw [splitTensorDict, if_neg hkeys.1, ihsub hkeys.2.1, ih hkeys.2.2]
    by_cases hsub : sub = .nil
    · subst hsub
      rw [NestedDict.flatten_dict_nil, metadataItems_cons_singleton]
      rfl
    · have hown : emptyDictMetadata (pre ++ key) sub = ([] : List (_ × MetadataValue δ ω)) := by
        cases sub with
        | nil => exact absurd rfl hsub
        | leaf _ _ _ => rfl
        | dict _ _ _ => rfl
      rw [NestedDict.flatten_dict hsub, metadataItems_append, tensorItems_append,
        metadataItems_map_cons fun e => NestedDict.path_ne_nil, tensorItems_map_cons]
      simp only [hown, nil_append]
      rfl

end Split

/-! ## The receiver -/

section Receive

variable [DecidableEq δ]

lemma receiveDict_tensor (key : List Char) (metadataList : List (List Char × MetadataValue δ ω))
    (t : DictTensor δ α) (tensorList : List (DictTensor δ α)) (d : TensorDict δ α ω) :
    receiveDict ((key, .metadata t.toTensorMetadata) :: metadataList)
        (broadcastTensors (t :: tensorList)) d =
      (updateNestedDict d key (.inl (.tensor t))).bind
        (receiveDict metadataList (broadcastTensors tensorList)) := by
  by_cases hnumel : t.numel = 0
  · have hempty : emptyTensor t.toTensorMetadata hnumel = t := by
      have hdata : t.data = [] := length_eq_zero_iff.mp (t.data_length.trans hnumel)
      obtain ⟨m, data, hlength⟩ := t
      simp only at hdata
      subst hdata
      rfl
    have hsent : broadcastTensors (t :: tensorList) = broadcastTensors tensorList := by
      simp [broadcastTensors, hnumel]
    rw [receiveDict, dif_pos hnumel, hempty, hsent]
    rfl
  · have hreceive : (broadcastTensors (t :: tensorList)).receive t.toTensorMetadata =
        some (t, broadcastTensors tensorList) := by
      by_cases hcpu : t.isCpu
      · simp [broadcastTensors, Broadcasts.receive, receiveInto, hnumel, hcpu]
      · simp [broadcastTensors, Broadcasts.receive, receiveInto, hnumel, hcpu]
    rw [receiveDict, dif_neg hnumel, hreceive]
    rfl

omit [DecidableEq δ] in
/-- A flat key is put at the end of its path. -/
lemma updateNestedDict_flatKey {path : List (List Char)} (hpath : path ≠ [])
    (hkeys : ∀ key ∈ path, '%' ∉ key) (d : TensorDict δ α ω)
    (x : TensorDictLeaf δ α ω ⊕ TensorDict δ α ω) :
    updateNestedDict d (flatKey path) x = d.setAt path x := by
  rw [updateNestedDict, flatKey, splitOn_intercalate '%' hkeys hpath]

lemma receiveDict_items {items : List (FlatItem δ α ω)}
    (hpaths : ∀ e ∈ items, e.1 ≠ [] ∧ ∀ key ∈ e.1, '%' ∉ key)
    (hleaves : ∀ path m, (path, some (.metadata m)) ∉ items) (d : TensorDict δ α ω) :
    receiveDict (metadataItems [] items) (broadcastTensors (tensorItems items)) d =
      d.setAll items := by
  induction items generalizing d with
  | nil => rfl
  | cons e items ih =>
    obtain ⟨path, x⟩ := e
    obtain ⟨hpath, hkeys⟩ := hpaths _ mem_cons_self
    have hrest := ih (fun e' he' => hpaths e' (mem_cons_of_mem _ he'))
      fun path' m hm => hleaves path' m (mem_cons_of_mem _ hm)
    have hset := updateNestedDict_flatKey hpath hkeys d
    rw [NestedDict.setAll_cons]
    cases x with
    | none =>
      change (updateNestedDict d (flatKey path) (.inr .nil)).bind _ = _
      rw [hset]
      congr 1
      exact funext hrest
    | some leaf =>
      cases leaf with
      | tensor t =>
        refine (receiveDict_tensor (flatKey path) _ t _ d).trans ?_
        rw [hset]
        congr 1
        exact funext hrest
      | metadata m => exact absurd mem_cons_self (hleaves path m)
      | object o =>
        change (updateNestedDict d (flatKey path) (.inl (.object o))).bind _ = _
        rw [hset]
        congr 1
        exact funext hrest

end Receive

/-! ## The round trip -/

/-- The leaf is a tensor or an object of another class than `TensorMetadata`. -/
def TensorDictLeaf.NotMetadata : TensorDictLeaf δ α ω → Prop
  | .tensor _ | .object _ => True
  | .metadata _ => False

/-- The metadata in a list of values. -/
def metadataOf (metadataList : List (List Char × MetadataValue δ ω)) : List (TensorMetadata δ) :=
  metadataList.filterMap fun e =>
    match e.2 with
    | .metadata m => some m
    | _ => none

/-- The dictionary is split, each tensor has its metadata in the list, and the receiver makes the
same dictionary from the two lists. -/
def RoundTrips [DecidableEq δ] (d : TensorDict δ α ω) : Prop :=
  ∃ metadataList tensorList, splitTensorDict [] d = .ok (metadataList, tensorList) ∧
    metadataOf metadataList = tensorList.map DictTensor.toTensorMetadata ∧
    receiveDict metadataList (broadcastTensors tensorList) .nil = some d

/-- Without other metadata, the metadata in the list is that of the tensors. -/
lemma metadataOf_metadataItems {items : List (FlatItem δ α ω)}
    (hleaves : ∀ path m, (path, some (.metadata m)) ∉ items) :
    metadataOf (metadataItems [] items) =
      (tensorItems items).map DictTensor.toTensorMetadata := by
  induction items with
  | nil => rfl
  | cons e items ih =>
    obtain ⟨path, x⟩ := e
    have hrest := ih fun path' m hm => hleaves path' m (mem_cons_of_mem _ hm)
    cases x with
    | none => exact hrest
    | some leaf =>
      cases leaf with
      | tensor t => exact congrArg (t.toTensorMetadata :: ·) hrest
      | metadata m => exact absurd mem_cons_self (hleaves path m)
      | object o => exact hrest

section RoundTrip

variable [DecidableEq δ]

/-- A nested dictionary without the separator in its keys comes back from its two lists if none of
its leaves is a `TensorMetadata`. -/
theorem tensor_dict_round_trips {d : TensorDict δ α ω} (hdistinct : d.Distinct)
    (hkeys : d.AllKeys ('%' ∉ ·)) (hleaves : d.AllLeaves TensorDictLeaf.NotMetadata) :
    RoundTrips d := by
  have hitems : ∀ path m, (path, some (.metadata m)) ∉ d.flatten :=
    fun path m hm => NestedDict.allLeaves_item hleaves hm
  refine ⟨_, _, splitTensorDict_eq hkeys [], metadataOf_metadataItems hitems, ?_⟩
  rw [receiveDict_items (fun e he => ⟨NestedDict.path_ne_nil he, NestedDict.allKeys_path hkeys he⟩)
    hitems]
  exact NestedDict.setAll_flatten hdistinct

/-- Tensors at two levels, on a device and without elements, with empty and nested
subdictionaries. -/
def nestedSample : TensorDict ℕ ℕ ℕ :=
  .dict "a".toList
    (.leaf "x".toList (.tensor ⟨⟨.cpu, 0, [2, 1]⟩, [5, 6], rfl⟩)
      (.dict "".toList .nil
        (.leaf "y".toList (.tensor ⟨⟨.accelerator "cuda".toList, 0, [1]⟩, [7], rfl⟩) .nil)))
    (.leaf "b".toList (.object 3)
      (.leaf "x".toList (.tensor ⟨⟨.cpu, 1, [0, 4]⟩, [], by decide⟩) .nil))

/-- The sample comes back. -/
theorem round_trips_nestedSample :
    nestedSample.AllLeaves TensorDictLeaf.NotMetadata ∧ RoundTrips nestedSample := by
  have hleaves : nestedSample.AllLeaves TensorDictLeaf.NotMetadata := by
    simp [nestedSample, NestedDict.AllLeaves, TensorDictLeaf.NotMetadata]
  refine ⟨hleaves, tensor_dict_round_trips ?_ ?_ hleaves⟩
  · simp [nestedSample, NestedDict.Distinct, NestedDict.keys]
  · simp [nestedSample, NestedDict.AllKeys]

/-- A dictionary with the metadata of a tensor as its only value. -/
def metadataSample : TensorDict ℕ ℕ ℕ := .leaf "a".toList (.metadata ⟨.cpu, 0, [0]⟩) .nil

/-- The metadata comes back as an empty tensor. -/
theorem metadata_received_as_tensor :
    metadataSample.Distinct ∧ metadataSample.AllKeys ('%' ∉ ·) ∧ ¬ RoundTrips metadataSample ∧
      receiveDict [("a".toList, .metadata ⟨.cpu, 0, [0]⟩)] (broadcastTensors []) .nil =
        some (.leaf "a".toList (.tensor ⟨⟨.cpu, 0, [0]⟩, [], rfl⟩) .nil : TensorDict ℕ ℕ ℕ) := by
  refine ⟨by simp [metadataSample, NestedDict.Distinct, NestedDict.keys],
    by simp [metadataSample, NestedDict.AllKeys], ?_, by decide +kernel⟩
  rintro ⟨metadataList, tensorList, hsplit, -, hreceived⟩
  have hlists : splitTensorDict [] metadataSample =
      .ok ([("a".toList, .metadata ⟨.cpu, 0, [0]⟩)], []) := rfl
  cases Except.ok.inj (hlists.symm.trans hsplit)
  exact absurd hreceived (by decide +kernel)

end RoundTrip

end OmniStreaming
