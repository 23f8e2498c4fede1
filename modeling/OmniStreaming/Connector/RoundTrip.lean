import OmniStreaming.Connector.Serialization

/-!
# What comes back from the codec

A value is `plain` when none of its dicts has a marker or the keys of an object, and the bytes of
each of its tensors can be viewed. By induction on the value, what the encoder writes for a plain
value is decoded to it (`decodes_of_plain`).
-/

namespace OmniStreaming

open Option Prod

variable {δ ν : Type} {T : Dtypes δ} {N : NumpyDtypes ν}

/-! ## Values that come back -/

/-- The keys are those of an ordinary dict: no marker, and not the keys of an object. -/
def ordinaryKeys (keys : List String) : Bool :=
  tensorMarker ∉ keys && ndarrayMarker ∉ keys && pilImageMarker ∉ keys &&
    !isOmniRequestOutput keys && !requestOutputKeys.all (· ∈ keys) &&
    !completionOutputKeys.all (· ∈ keys)

namespace PyVal

mutual

/-- The value is made of scalars, strings, bytes, lists, ordinary dicts, tensors whose bytes can be
viewed, numeric arrays with elements, and request outputs. -/
def plain (p : Place) : PyVal T N → Bool
  | .null | .bool _ | .int _ | .float _ | .str _ | .bytes _ => true
  | .list l => plainList p.inside l
  | .dict d => ordinaryKeys (d.map fst) && plainItems d
  | .tensor t => t.contiguous.viewUint8.isSome
  | .ndarray a => a.enc.isSome && a.data ≠ []
  | .completionOutput f mm =>
    p = .entry && ((Record.fields : List CompletionField).all fun x =>
      x.typed (f x) && plain .value (f x)) && plainMm mm
  | .requestOutput f mm =>
    (f .outputs).isList && (f .multiModalPlaceholders).isDict &&
      ((Record.fields : List RequestField).all fun x => plain (placeOf x) (f x)) && plainMm mm
  | .image .. | .omniRequestOutput _ => false

def plainList (p : Place) : List (PyVal T N) → Bool
  | [] => true
  | v :: vs => plain p v && plainList p vs

def plainItems : List (String × PyVal T N) → Bool
  | [] => true
  | (_, v) :: vs => plain .value v && plainItems vs

def plainMm : Option (PyVal T N) → Bool
  | none => true
  | some v => !v.isNull && plain .value v

end

mutual

/-- The same value, with every tensor laid out row after row. -/
def rowMajor : PyVal T N → PyVal T N
  | .null => .null
  | .bool b => .bool b
  | .int n => .int n
  | .float bits => .float bits
  | .str s => .str s
  | .bytes b => .bytes b
  | .list l => .list (rowMajorList l)
  | .dict d => .dict (rowMajorItems d)
  | .tensor t => .tensor t.rowMajor
  | .ndarray a => .ndarray a
  | .image mode shape data => .image mode shape data
  | .completionOutput f mm => .completionOutput (fun x => rowMajor (f x)) (rowMajorMm mm)
  | .requestOutput f mm => .requestOutput (fun x => rowMajor (f x)) (rowMajorMm mm)
  | .omniRequestOutput f => .omniRequestOutput fun x => rowMajor (f x)

def rowMajorList : List (PyVal T N) → List (PyVal T N)
  | [] => []
  | v :: vs => rowMajor v :: rowMajorList vs

def rowMajorItems : List (String × PyVal T N) → List (String × PyVal T N)
  | [] => []
  | (k, v) :: vs => (k, rowMajor v) :: rowMajorItems vs

def rowMajorMm : Option (PyVal T N) → Option (PyVal T N)
  | none => none
  | some v => some (rowMajor v)

end

end PyVal

/-! ## Attributes -/

section Attributes

variable {F α : Type} [Record F]

lemma keys_items (f : F → α) :
    (Record.items f).map fst = (Record.fields : List F).map Record.name := by
  simp [Record.items, Function.comp_def]

lemma lookup_items (f : F → α) (x : F) : (Record.items f).lookup (Record.name x) = some (f x) := by
  apply OrderedDict.lookup_of_mem
  · rw [OrderedDict.keys, keys_items]
    exact Record.names_nodup
  · exact List.mem_map.mpr ⟨x, Record.mem_fields x, rfl⟩

/-- Fields that are all encoded. -/
lemma encFields_eq {g : F → Option Wire} {w : F → Wire} (h : ∀ x, g x = some (w x)) :
    encFields g = some (Record.items w) := by
  simp only [encFields, h, map_some]
  exact List.mapM_pure

lemma keys_mmItems (mm : Option α) :
    (mmItems mm).map fst = if mm.isSome then [multimodalOutput] else [] := by
  cases mm <;> rfl

/-- The keys of the map of an object. -/
lemma keys_items_append (f : F → α) (mm : Option α) :
    (Record.items f ++ mmItems mm).map fst =
      (Record.fields : List F).map Record.name ++ if mm.isSome then [multimodalOutput] else [] := by
  rw [List.map_append, keys_items, keys_mmItems]

variable (hF : multimodalOutput ∉ (Record.fields : List F).map Record.name)
include hF

lemma pop_items_append (f : F → α) (mm : Option α) :
    OrderedDict.pop (Record.items f ++ mmItems mm) multimodalOutput = Record.items f := by
  have hfields : OrderedDict.pop (Record.items f) multimodalOutput = Record.items f :=
    OrderedDict.pop_of_notMem (by rwa [OrderedDict.keys, keys_items])
  have hmm : OrderedDict.pop (mmItems mm) multimodalOutput = [] := by cases mm <;> rfl
  rw [OrderedDict.pop, OrderedDict.popKeys, List.filter_append]
  exact (congrArg₂ (· ++ ·) hfields hmm).trans (List.append_nil _)

lemma lookup_mm (f : F → α) (mm : Option α) :
    (Record.items f ++ mmItems mm).lookup multimodalOutput = mm := by
  have hfields : (Record.items f).lookup multimodalOutput = none :=
    OrderedDict.lookup_of_notMem (by rwa [OrderedDict.keys, keys_items])
  rw [List.lookup_append, hfields, none_or]
  cases mm <;> rfl

end Attributes

/-! ## Maps -/

variable {marker : String} {d : List (String × Wire)} {F : Type} {mm : Option (PyVal T N)}

lemma marked_of_notMem (h : marker ∉ d.map fst) : marked marker d = false := by
  rw [marked, OrderedDict.lookup_of_notMem h]
  rfl

variable (C : Convert T N)

/-- A map without a marker is decoded by its entries. -/
lemma postProcess_map (ht : tensorMarker ∉ d.map fst) (hn : ndarrayMarker ∉ d.map fst)
    (hi : pilImageMarker ∉ d.map fst) :
    C.postProcess (.map d) = (C.postProcessItems d).bind C.decodeDict := by
  simp only [Convert.postProcess, marked_of_notMem ht, marked_of_notMem hn, marked_of_notMem hi,
    Bool.false_eq_true, if_false]

lemma postProcessItems_append {e : List (String × Wire)} {d' e' : List (String × PyVal T N)}
    (hd : C.postProcessItems d = some d') (he : C.postProcessItems e = some e') :
    C.postProcessItems (d ++ e) = some (d' ++ e') := by
  induction d generalizing d' with
  | nil =>
    cases hd
    exact he
  | cons x d ih =>
    simp only [Convert.postProcessItems, bind_eq_some_iff, map_eq_some_iff] at hd
    obtain ⟨v, hv, vs, hvs, rfl⟩ := hd
    simp [Convert.postProcessItems, hv, ih hvs]

/-- Attributes are decoded one by one. -/
lemma postProcessItems_items [Record F] {w : F → Wire} {v : F → PyVal T N}
    (h : ∀ x, C.postProcess (w x) = some (v x)) :
    C.postProcessItems (Record.items w) = some (Record.items v) := by
  unfold Record.items
  induction (Record.fields : List F) with
  | nil => rfl
  | cons x xs ih => simp [Convert.postProcessItems, h, ih]

/-! ## Marked maps -/

lemma marked_markedItems (marker typeKey type : String) (shape : List ℕ) (data : List UInt8) :
    marked marker (markedItems marker typeKey type shape data) := by
  simp [marked, markedItems, truthy]

/-- A shape is read back. -/
lemma mapM_dimension (shape : List ℕ) :
    (shape.map fun n : ℕ => Wire.int n).mapM dimension = some shape := by
  induction shape with
  | nil => rfl
  | cons n shape ih => simp [dimension, ih]

lemma readMarked_markedItems (hm : marker ∉ ["dtype", "shape", "data"]) (type : String)
    (shape : List ℕ) (data : List UInt8) :
    readMarked "dtype" (markedItems marker "dtype" type shape data) = some (type, shape, data) := by
  have hdtype : ("dtype" == marker) = false := by grind
  have hshape : ("shape" == marker) = false := by grind
  have hdata : ("data" == marker) = false := by grind
  simp [readMarked, markedItems, List.lookup_cons, hdtype, hshape, hdata, mapM_dimension,
    -List.mapM_map]

/-- A tensor is made of its bytes again. -/
lemma ofBytes_data (t : Tensor T) : Tensor.ofBytes t.dtype t.shape t.data = some t.rowMajor :=
  dif_pos t.data_length

lemma viewUint8_eq_some {t : Tensor T} (h : t.contiguous.viewUint8.isSome) :
    t.contiguous.viewUint8 = some t.data := by
  unfold Tensor.viewUint8 at h ⊢
  split
  · rw [Tensor.data_contiguous]
  · rename_i hview
    rw [if_neg hview] at h
    cases h

/-- A tensor whose bytes can be viewed comes back, laid out row after row. -/
lemma decodes_tensor {t : Tensor T} (h : t.contiguous.viewUint8.isSome) :
    ∃ w, t.enc = some w ∧ C.postProcess w = some (.tensor t.rowMajor) := by
  refine ⟨.map (markedItems tensorMarker "dtype" (T.name t.dtype) t.shape t.data), ?_, ?_⟩
  · rw [Tensor.enc, viewUint8_eq_some h]
    rfl
  · rw [Convert.postProcess, if_pos (marked_markedItems ..), decodeTensor,
      readMarked_markedItems (by decide), bind_some, T.ofName_name, bind_some,
      ofBytes_data]
    rfl

/-- An array is made of its bytes again. -/
lemma ofBytes_ndarray {a : NdArray N} (hsize : N.itemsize a.dtype ≠ 0) :
    NdArray.ofBytes a.dtype a.shape a.data = some a :=
  dif_pos ⟨hsize, a.data_length⟩

/-- An array with elements comes back. -/
lemma decodes_ndarray {a : NdArray N} (h : a.enc.isSome) (hdata : a.data ≠ []) :
    ∃ w, a.enc = some w ∧ C.postProcess w = some (.ndarray a) := by
  refine ⟨.map (markedItems ndarrayMarker "dtype" (N.name a.dtype) a.shape a.data), ?_, ?_⟩
  · unfold NdArray.enc at h ⊢
    split
    · rename_i hkind
      rw [if_pos hkind] at h
      cases h
    · rfl
  · have hmarker : tensorMarker ∉
        (markedItems ndarrayMarker "dtype" (N.name a.dtype) a.shape a.data).map fst := by
      simp [markedItems, tensorMarker, ndarrayMarker]
    have hsize : N.itemsize a.dtype ≠ 0 := by
      intro hzero
      apply hdata
      rw [← List.length_eq_zero_iff, a.data_length, hzero, Nat.mul_zero]
    rw [Convert.postProcess, marked_of_notMem hmarker, if_neg Bool.false_ne_true,
      if_pos (marked_markedItems ..), decodeNdarray, readMarked_markedItems (by decide),
      bind_some, N.ofName_name, bind_some, ofBytes_ndarray hsize]
    rfl

/-! ## Objects -/

lemma decodeDict_request (f : RequestField → PyVal T N) (mm : Option (PyVal T N)) :
    C.decodeDict (Record.items f ++ mmItems mm) =
      decodeRequestOutput (Record.items f ++ mmItems mm) := by
  unfold Convert.decodeDict
  rw [keys_items_append]
  cases mm <;> rfl

lemma decodeDict_completion (f : CompletionField → PyVal T N) (mm : Option (PyVal T N)) :
    C.decodeDict (Record.items f ++ mmItems mm) =
      C.decodeCompletionOutput (Record.items f ++ mmItems mm) := by
  unfold Convert.decodeDict
  rw [keys_items_append]
  cases mm <;> rfl

lemma popMm_append [Record F] (f : F → PyVal T N)
    (hF : multimodalOutput ∉ (Record.fields : List F).map Record.name)
    (hmm : ∀ v ∈ mm, v.isNull = false) : popMm (Record.items f ++ mmItems mm) = mm := by
  rw [popMm, lookup_mm hF]
  cases mm with
  | none => rfl
  | some v => simp [hmm v rfl]

lemma decodeRequestOutput_items (f : RequestField → PyVal T N)
    (hdict : (f .multiModalPlaceholders).isDict) (hmm : ∀ v ∈ mm, v.isNull = false) :
    decodeRequestOutput (Record.items f ++ mmItems mm) = some (.requestOutput f mm) := by
  have hF : multimodalOutput ∉ (Record.fields : List RequestField).map Record.name := by decide
  have hinit : (fun x : RequestField => x.init ((Record.items f).lookup x.name)) = f := by
    funext x
    rw [show (Record.items f).lookup x.name = some (f x) from lookup_items f x]
    cases x <;> try rfl
    -- the attribute that is set with `or {}`
    revert hdict
    cases hv : f .multiModalPlaceholders <;> intro hdict <;> first | rfl | cases hdict
  unfold decodeRequestOutput
  simp only [pop_items_append hF, popMm_append f hF hmm, keys_items, hinit]
  rfl

/-- Lists of integers have no strides. -/
lemma rowMajorList_ints {l : List (PyVal T N)} (h : l.all PyVal.isInt) :
    PyVal.rowMajorList l = l := by
  induction l with
  | nil => rfl
  | cons v l ih =>
    obtain ⟨hv, hl⟩ : v.isInt ∧ l.all PyVal.isInt := by simpa using h
    rw [PyVal.rowMajorList, ih hl]
    cases v <;> first | rfl | cases hv

/-- There is no tensor in a field of a `CompletionOutput`. -/
lemma rowMajor_of_typed {x : CompletionField} {v : PyVal T N} (h : x.typed v) : v.rowMajor = v := by
  cases v with
  | null | bool | int | float | str | bytes | ndarray | image => rfl
  | list l =>
    have hints : l.all PyVal.isInt := by
      cases x <;> first | exact h | skip
      all_goals
        cases l with
        | nil => rfl
        | cons => cases h
    rw [PyVal.rowMajor, rowMajorList_ints hints]
  | dict | tensor | completionOutput | requestOutput | omniRequestOutput =>
    cases x <;> cases h

lemma decodeCompletionOutput_items {f : CompletionField → PyVal T N}
    (hf : ∀ x : CompletionField, x.typed (f x)) (hmm : ∀ v ∈ mm, v.isNull = false) :
    C.decodeCompletionOutput (Record.items f ++ mmItems mm) = some (.completionOutput f mm) := by
  have hF : multimodalOutput ∉ (Record.fields : List CompletionField).map Record.name := by decide
  rw [Convert.decodeCompletionOutput, pop_items_append hF, popMm_append f hF hmm,
    C.completion_items f hf]
  rfl

lemma notMem_keys {α : Type} [Record F] (w : F → α) (m : Option α)
    (hmarker : marker ∉ (Record.fields : List F).map Record.name ++ [multimodalOutput]) :
    marker ∉ (Record.items w ++ mmItems m).map fst := by
  rw [keys_items_append]
  intro hmem
  refine hmarker (List.mem_append.mpr ((List.mem_append.mp hmem).imp_right fun hmm => ?_))
  split at hmm
  · exact hmm
  · cases hmm

/-- What an object is decoded to, from what its attributes are decoded to. -/
lemma postProcess_object [Record F] {w : F → Wire} {v : F → PyVal T N} {m : Option Wire}
    (hF : ∀ marker ∈ [tensorMarker, ndarrayMarker, pilImageMarker],
      marker ∉ (Record.fields : List F).map Record.name ++ [multimodalOutput])
    (hw : ∀ x, C.postProcess (w x) = some (v x))
    (hm : C.postProcessItems (mmItems m) = some (mmItems mm)) :
    C.postProcess (.map (Record.items w ++ mmItems m)) =
      C.decodeDict (Record.items v ++ mmItems mm) := by
  rw [postProcess_map C (notMem_keys w m (hF _ (by simp))) (notMem_keys w m (hF _ (by simp)))
    (notMem_keys w m (hF _ (by simp))),
    postProcessItems_append C (postProcessItems_items C hw) hm]
  rfl

lemma isNull_rowMajor (v : PyVal T N) : v.rowMajor.isNull = v.isNull := by
  cases v <;> rfl

lemma isDict_rowMajor (v : PyVal T N) : v.rowMajor.isDict = v.isDict := by
  cases v <;> rfl

lemma keys_rowMajorItems (d : List (String × PyVal T N)) :
    (PyVal.rowMajorItems d).map fst = d.map fst := by
  induction d with
  | nil => rfl
  | cons e d ih => simp [PyVal.rowMajorItems, ih]

/-- A dict with ordinary keys is left a dict. -/
lemma decodeDict_ordinary {d : List (String × PyVal T N)} (h : ordinaryKeys (d.map fst)) :
    C.decodeDict d = some (.dict d) := by
  simp only [ordinaryKeys, Bool.and_eq_true, Bool.not_eq_true'] at h
  obtain ⟨⟨⟨_, homni⟩, hrequest⟩, hcompletion⟩ := h
  simp only [Convert.decodeDict, homni, hrequest, hcompletion, Bool.false_eq_true, if_false]

/-- A dict with ordinary keys comes back if its values do. -/
lemma decodes_dict (p : Place) {d : List (String × PyVal T N)} {ws : List (String × Wire)}
    (hkeys : ordinaryKeys (d.map fst)) (henc : PyVal.encItems d = some ws)
    (hws : ws.map fst = d.map fst)
    (hdec : C.postProcessItems ws = some (PyVal.rowMajorItems d)) :
    ∃ w, (PyVal.dict d).enc p = some w ∧ C.postProcess w = some (PyVal.dict d).rowMajor := by
  refine ⟨.map ws, ?_, ?_⟩
  · rw [PyVal.enc, henc]
    rfl
  · have hmarkers := hkeys
    simp only [ordinaryKeys, Bool.and_eq_true, decide_eq_true_eq, ← hws] at hmarkers
    obtain ⟨⟨⟨⟨⟨ht, hn⟩, hi⟩, _⟩, _⟩, _⟩ := hmarkers
    rw [postProcess_map C ht hn hi, hdec, bind_some, decodeDict_ordinary C]
    · rfl
    · rwa [keys_rowMajorItems]

section Fields

variable {mm : Option (PyVal T N)} {m : Option Wire} (henc : PyVal.encMm mm = some m)
  (hdec : C.postProcessItems (mmItems m) = some (mmItems (PyVal.rowMajorMm mm)))
  (hnull : ∀ v ∈ PyVal.rowMajorMm mm, v.isNull = false)
include henc hdec hnull

/-- A `CompletionOutput` in the list of a request output comes back if its fields do. -/
lemma decodes_completionOutput {f : CompletionField → PyVal T N}
    (htyped : ∀ x : CompletionField, x.typed (f x))
    (hf : ∀ x, ∃ w, (f x).enc .value = some w ∧ C.postProcess w = some (f x).rowMajor) :
    ∃ w, (PyVal.completionOutput f mm).enc .entry = some w ∧
      C.postProcess w = some (PyVal.completionOutput f mm).rowMajor := by
  choose w hw hv using hf
  refine ⟨.map (Record.items w ++ mmItems m), ?_, ?_⟩
  · rw [PyVal.enc, encFields_eq hw, bind_some, if_pos rfl, henc]
    rfl
  · have htyped' : ∀ x : CompletionField, x.typed (f x).rowMajor := by
      intro x
      rw [rowMajor_of_typed (htyped x)]
      exact htyped x
    rw [postProcess_object C (by decide) hv hdec, decodeDict_completion,
      decodeCompletionOutput_items C htyped' hnull]
    rfl

/-- A `RequestOutput` comes back if its attributes do. -/
lemma decodes_requestOutput (p : Place) {f : RequestField → PyVal T N}
    (hlist : (f .outputs).isList) (hdict : (f .multiModalPlaceholders).isDict)
    (hf : ∀ x, ∃ w, (f x).enc (placeOf x) = some w ∧ C.postProcess w = some (f x).rowMajor) :
    ∃ w, (PyVal.requestOutput f mm).enc p = some w ∧
      C.postProcess w = some (PyVal.requestOutput f mm).rowMajor := by
  choose w hw hv using hf
  refine ⟨.map (Record.items w ++ mmItems m), ?_, ?_⟩
  · rw [PyVal.enc, if_pos hlist, encFields_eq hw, bind_some, henc]
    rfl
  · rw [postProcess_object C (by decide) hv hdec, decodeDict_request,
      decodeRequestOutput_items _ ((isDict_rowMajor _).trans hdict) hnull]
    rfl

end Fields

/-! ## The round trip -/

mutual

/-- What the encoder writes for a plain value is decoded to the value. -/
lemma decodes_of_plain : ∀ (p : Place) (v : PyVal T N), v.plain p →
    ∃ w, v.enc p = some w ∧ C.postProcess w = some v.rowMajor
  | _, .null, _ => ⟨.nil, rfl, rfl⟩
  | _, .bool b, _ => ⟨.bool b, rfl, rfl⟩
  | _, .int n, _ => ⟨.int n, rfl, rfl⟩
  | _, .float bits, _ => ⟨.float bits, rfl, rfl⟩
  | _, .str s, _ => ⟨.str s, rfl, rfl⟩
  | _, .bytes b, _ => ⟨.bin b, rfl, rfl⟩
  | p, .list l, h => by
    obtain ⟨ws, henc, hdec⟩ := decodesList_of_plain p.inside l h
    refine ⟨.array ws, ?_, ?_⟩
    · rw [PyVal.enc, henc]
      rfl
    · rw [Convert.postProcess, hdec]
      rfl
  | _, .dict d, h => by
    obtain ⟨hkeys, hd⟩ : ordinaryKeys (d.map fst) ∧ PyVal.plainItems d := by
      simpa [PyVal.plain] using h
    obtain ⟨ws, henc, hws, hdec⟩ := decodesItems_of_plain d hd
    exact decodes_dict C _ hkeys henc hws hdec
  | _, .tensor _, h => decodes_tensor C h
  | _, .ndarray a, h => by
    obtain ⟨henc, hdata⟩ : a.enc.isSome ∧ a.data ≠ [] := by simpa [PyVal.plain] using h
    exact decodes_ndarray C henc hdata
  | p, .completionOutput f mm, h => by
    obtain ⟨⟨rfl, hf⟩, hmm⟩ : (p = .entry ∧ ∀ x ∈ (Record.fields : List CompletionField),
        x.typed (f x) ∧ (f x).plain .value) ∧ PyVal.plainMm mm := by
      simpa [PyVal.plain] using h
    obtain ⟨m, henc, hdec, hnull⟩ := decodesMm_of_plain mm hmm
    exact decodes_completionOutput C henc hdec hnull (fun x => (hf x (Record.mem_fields x)).1)
      fun x => decodes_of_plain .value (f x) (hf x (Record.mem_fields x)).2
  | p, .requestOutput f mm, h => by
    obtain ⟨⟨⟨hlist, hdict⟩, hf⟩, hmm⟩ : (((f .outputs).isList ∧
        (f .multiModalPlaceholders).isDict) ∧ ∀ x ∈ (Record.fields : List RequestField),
        (f x).plain (placeOf x)) ∧ PyVal.plainMm mm := by
      simpa [PyVal.plain] using h
    obtain ⟨m, henc, hdec, hnull⟩ := decodesMm_of_plain mm hmm
    exact decodes_requestOutput C henc hdec hnull p hlist hdict fun x =>
      decodes_of_plain (placeOf x) (f x) (hf x (Record.mem_fields x))

/-- The entries of a list come back. -/
lemma decodesList_of_plain : ∀ (p : Place) (l : List (PyVal T N)), PyVal.plainList p l →
    ∃ ws, PyVal.encList p l = some ws ∧ C.postProcessList ws = some (PyVal.rowMajorList l)
  | _, [], _ => ⟨[], rfl, rfl⟩
  | p, v :: vs, h => by
    obtain ⟨hv, hvs⟩ : v.plain p ∧ PyVal.plainList p vs := by simpa [PyVal.plainList] using h
    obtain ⟨w, henc, hdec⟩ := decodes_of_plain p v hv
    obtain ⟨ws, hencs, hdecs⟩ := decodesList_of_plain p vs hvs
    refine ⟨w :: ws, ?_, ?_⟩
    · simp [PyVal.encList, henc, hencs]
    · simp [Convert.postProcessList, hdec, hdecs, PyVal.rowMajorList]

lemma decodesItems_of_plain : ∀ d : List (String × PyVal T N), PyVal.plainItems d →
    ∃ ws, PyVal.encItems d = some ws ∧ ws.map fst = d.map fst ∧
      C.postProcessItems ws = some (PyVal.rowMajorItems d)
  | [], _ => ⟨[], rfl, rfl, rfl⟩
  | (k, v) :: vs, h => by
    obtain ⟨hv, hvs⟩ : v.plain .value ∧ PyVal.plainItems vs := by simpa [PyVal.plainItems] using h
    obtain ⟨w, henc, hdec⟩ := decodes_of_plain .value v hv
    obtain ⟨ws, hencs, hkeys, hdecs⟩ := decodesItems_of_plain vs hvs
    refine ⟨(k, w) :: ws, ?_, ?_, ?_⟩
    · simp [PyVal.encItems, henc, hencs]
    · simp [hkeys]
    · simp [Convert.postProcessItems, hdec, hdecs, PyVal.rowMajorItems]

/-- A `multimodal_output` comes back. -/
lemma decodesMm_of_plain : ∀ mm : Option (PyVal T N), PyVal.plainMm mm →
    ∃ m, PyVal.encMm mm = some m ∧
      C.postProcessItems (mmItems m) = some (mmItems (PyVal.rowMajorMm mm)) ∧
      ∀ v ∈ PyVal.rowMajorMm mm, v.isNull = false
  | none, _ => ⟨none, rfl, rfl, by simp [PyVal.rowMajorMm]⟩
  | some v, h => by
    obtain ⟨hnull, hv⟩ : v.isNull = false ∧ v.plain .value := by simpa [PyVal.plainMm] using h
    obtain ⟨w, henc, hdec⟩ := decodes_of_plain .value v hv
    refine ⟨some w, ?_, ?_, ?_⟩
    · simp [PyVal.encMm, hnull, henc]
    · simp [mmItems, Convert.postProcessItems, hdec, PyVal.rowMajorMm]
    · simp [PyVal.rowMajorMm, isNull_rowMajor, hnull]

end

end OmniStreaming
