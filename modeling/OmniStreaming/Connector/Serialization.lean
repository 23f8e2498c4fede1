import OmniStreaming.Lib.OrderedDict
import OmniStreaming.Lib.Wire

/-!
# The codec of the stages: `OmniMsgpackEncoder` and `OmniMsgpackDecoder`

What goes from one stage to the next is written as a MessagePack message. Objects that the format
does not know are written as maps: a tensor as a map with a marker, its dtype, its shape and its
bytes, a `RequestOutput` as the map of its attributes. The decoder has to find out from the keys of
a map whether it was an object (`_post_process`).

The libraries under the codec are parameters: the dtypes of torch and of numpy, `msgspec.convert`,
and the MessagePack format itself (`Wire.Format`).

A value comes back if it is plain (`PyVal.Plain`, `decodes_of_plain`), up to the strides of its
tensors, which are not sent (`PyVal.rowMajor`).
-/

namespace OmniStreaming

/-! ## Tensors and arrays -/

/-- The dtypes of a library: their names, the lookup of a name, and the bytes of an element. -/
structure Dtypes (δ : Type) where
  name : δ → String
  ofName : String → Option δ
  itemsize : δ → ℕ
  ofName_name : ∀ d, ofName (name d) = some d

/-- The dtypes of numpy also have a kind, such as `f`, or `O` for objects and `V` for raw memory. -/
structure NumpyDtypes (ν : Type) extends Dtypes ν where
  kind : ν → Char

variable {δ ν : Type}

/-- A tensor: the strides of its memory, and the bytes of its elements row after row. -/
structure Tensor (T : Dtypes δ) where
  dtype : δ
  shape : List ℕ
  strides : List ℕ
  data : List UInt8
  strides_length : strides.length = shape.length
  data_length : data.length = shape.prod * T.itemsize dtype

/-- An array of numpy. -/
structure NdArray (N : NumpyDtypes ν) where
  dtype : ν
  shape : List ℕ
  data : List UInt8
  data_length : data.length = shape.prod * N.itemsize dtype

/-- The strides of a tensor whose rows lie one after the other. -/
def rowMajorStrides : List ℕ → List ℕ
  | [] => []
  | _ :: shape => shape.prod :: rowMajorStrides shape

lemma length_rowMajorStrides (shape : List ℕ) : (rowMajorStrides shape).length = shape.length := by
  induction shape with
  | nil => rfl
  | cons _ shape ih => simp [rowMajorStrides, ih]

/-- The strides are those of a contiguous tensor; the stride of a dimension of size one is free. -/
def contiguousStrides : List ℕ → List ℕ → Bool
  | n :: shape, k :: strides => (n = 1 || k = shape.prod) && contiguousStrides shape strides
  | _, _ => true

variable {T : Dtypes δ} {N : NumpyDtypes ν} (t : Tensor T)

/-- The same elements, laid out row after row. -/
def Tensor.rowMajor : Tensor T :=
  { t with strides := rowMajorStrides t.shape, strides_length := length_rowMajorStrides t.shape }

/-- `is_contiguous`: also every tensor without elements is. -/
def Tensor.isContiguous : Bool :=
  t.shape.prod = 0 || contiguousStrides t.shape t.strides

/-- `contiguous()`: a contiguous tensor is left as it is. -/
def Tensor.contiguous : Tensor T := if t.isContiguous then t else t.rowMajor

@[simp] lemma Tensor.dtype_contiguous : t.contiguous.dtype = t.dtype := by
  unfold Tensor.contiguous
  split <;> rfl

@[simp] lemma Tensor.shape_contiguous : t.contiguous.shape = t.shape := by
  unfold Tensor.contiguous
  split <;> rfl

@[simp] lemma Tensor.data_contiguous : t.contiguous.data = t.data := by
  unfold Tensor.contiguous
  split <;> rfl

/-- `view(torch.uint8)`: where an element has more than one byte, the last stride has to be one. -/
def Tensor.viewUint8 : Option (List UInt8) :=
  if T.itemsize t.dtype = 1 ∨ t.strides.getLast? = some 1 then some t.data else none

/-- The tensor of some bytes. The elements of `torch.empty` are not determined. -/
def Tensor.ofBytes (dtype : δ) (shape : List ℕ) (data : List UInt8) : Option (Tensor T) :=
  if h : data.length = shape.prod * T.itemsize dtype then
    some ⟨dtype, shape, rowMajorStrides shape, data, length_rowMajorStrides shape, h⟩
  else none

/-- `np.frombuffer(...).reshape(...)`, which refuses a dtype whose elements have no bytes. -/
def NdArray.ofBytes (dtype : ν) (shape : List ℕ) (data : List UInt8) : Option (NdArray N) :=
  if h : N.itemsize dtype ≠ 0 ∧ data.length = shape.prod * N.itemsize dtype then
    some ⟨dtype, shape, data, h.2⟩
  else none

/-! ## Objects -/

/-- The attributes of a class, in the order in which they are written. -/
class Record (F : Type) where
  fields : List F
  name : F → String
  mem_fields : ∀ x, x ∈ fields
  names_nodup : (fields.map name).Nodup

/-- The fields of a `CompletionOutput`. -/
inductive CompletionField
  | index
  | text
  | tokenIds
  | cumulativeLogprob
  | logprobs
  | finishReason
  | stopReason
  | loraRequest
  deriving DecidableEq

/-- The attributes of a `RequestOutput`. -/
inductive RequestField
  | requestId
  | prompt
  | promptTokenIds
  | promptLogprobs
  | outputs
  | finished
  | metrics
  | loraRequest
  | encoderPrompt
  | encoderPromptTokenIds
  | numCachedTokens
  | multiModalPlaceholders
  | kvTransferParams
  deriving DecidableEq

/-- The fields of an `OmniRequestOutput`. -/
inductive OmniField
  | requestId
  | finished
  | stageId
  | finalOutputType
  | requestOutput
  | images
  | prompt
  | latents
  | metrics
  deriving DecidableEq

def CompletionField.name : CompletionField → String
  | .index => "index"
  | .text => "text"
  | .tokenIds => "token_ids"
  | .cumulativeLogprob => "cumulative_logprob"
  | .logprobs => "logprobs"
  | .finishReason => "finish_reason"
  | .stopReason => "stop_reason"
  | .loraRequest => "lora_request"

def RequestField.name : RequestField → String
  | .requestId => "request_id"
  | .prompt => "prompt"
  | .promptTokenIds => "prompt_token_ids"
  | .promptLogprobs => "prompt_logprobs"
  | .outputs => "outputs"
  | .finished => "finished"
  | .metrics => "metrics"
  | .loraRequest => "lora_request"
  | .encoderPrompt => "encoder_prompt"
  | .encoderPromptTokenIds => "encoder_prompt_token_ids"
  | .numCachedTokens => "num_cached_tokens"
  | .multiModalPlaceholders => "multi_modal_placeholders"
  | .kvTransferParams => "kv_transfer_params"

def OmniField.name : OmniField → String
  | .requestId => "request_id"
  | .finished => "finished"
  | .stageId => "stage_id"
  | .finalOutputType => "final_output_type"
  | .requestOutput => "request_output"
  | .images => "images"
  | .prompt => "prompt"
  | .latents => "latents"
  | .metrics => "metrics"

instance : Record CompletionField where
  fields := [.index, .text, .tokenIds, .cumulativeLogprob, .logprobs, .finishReason, .stopReason,
    .loraRequest]
  name := CompletionField.name
  mem_fields x := by cases x <;> decide
  names_nodup := by decide

instance : Record RequestField where
  fields := [.requestId, .prompt, .promptTokenIds, .promptLogprobs, .outputs, .finished, .metrics,
    .loraRequest, .encoderPrompt, .encoderPromptTokenIds, .numCachedTokens,
    .multiModalPlaceholders, .kvTransferParams]
  name := RequestField.name
  mem_fields x := by cases x <;> decide
  names_nodup := by decide

instance : Record OmniField where
  fields := [.requestId, .finished, .stageId, .finalOutputType, .requestOutput, .images, .prompt,
    .latents, .metrics]
  name := OmniField.name
  mem_fields x := by cases x <;> decide
  names_nodup := by decide

/-- A Python value: what the format knows, and the objects of the codec. An output may lack the
attribute `multimodal_output`. -/
inductive PyVal (T : Dtypes δ) (N : NumpyDtypes ν)
  | null
  | bool (b : Bool)
  | int (n : ℤ)
  | float (bits : BitVec 64)
  | str (s : String)
  | bytes (b : List UInt8)
  | list (l : List (PyVal T N))
  | dict (d : List (String × PyVal T N))
  | tensor (t : Tensor T)
  | ndarray (a : NdArray N)
  | image (mode : String) (shape : List ℕ) (data : List UInt8)
  | completionOutput (fields : CompletionField → PyVal T N) (mm : Option (PyVal T N))
  | requestOutput (fields : RequestField → PyVal T N) (mm : Option (PyVal T N))
  | omniRequestOutput (fields : OmniField → PyVal T N)

namespace PyVal

def isNull : PyVal T N → Bool
  | .null => true
  | _ => false

def isList : PyVal T N → Bool
  | .list _ => true
  | _ => false

def isDict : PyVal T N → Bool
  | .dict _ => true
  | _ => false

def isInt : PyVal T N → Bool
  | .int _ => true
  | _ => false

/-- `v or {}`; the truth of a tensor or an array is not asked for. -/
def orEmpty : PyVal T N → PyVal T N
  | .null | .bool false | .int 0 | .str "" | .bytes [] | .list [] => .dict []
  | .float bits => if bits.toNat % 2 ^ 63 = 0 then .dict [] else .float bits
  | v => v

end PyVal

/-! ## Markers -/

def tensorMarker : String := "__tensor__"

def ndarrayMarker : String := "__ndarray__"

def pilImageMarker : String := "__pil_image__"

def requestOutputKeys : List String :=
  ["request_id", "prompt", "prompt_token_ids", "outputs", "finished"]

def completionOutputKeys : List String := ["index", "text", "token_ids", "finish_reason"]

/-- The name of the attribute that is added to outputs. -/
def multimodalOutput : String := "multimodal_output"

/-- A tensor, an array or an image as entries: a marker, the dtype or mode, the shape and the
bytes. -/
def markedItems (marker typeKey type : String) (shape : List ℕ) (data : List UInt8) :
    List (String × Wire) :=
  [(marker, .bool true), (typeKey, .str type), ("shape", .array (shape.map fun n : ℕ => .int n)),
    ("data", .bin data)]

/-- The truth of a decoded value. -/
def truthy : Wire → Bool
  | .nil => false
  | .bool b => b
  | .int n => n ≠ 0
  | .float bits => bits.toNat % 2 ^ 63 ≠ 0
  | .str s => s ≠ ""
  | .bin b => b ≠ []
  | .array l => !l.isEmpty
  | .map d => !d.isEmpty

/-- `obj.get(marker)`. -/
def marked (marker : String) (d : List (String × Wire)) : Bool := (d.lookup marker).any truthy

/-- A dimension of a shape. -/
def dimension : Wire → Option ℕ
  | .int n => if 0 ≤ n then some n.toNat else none
  | _ => none

/-- What a marked map holds. -/
def readMarked (typeKey : String) (d : List (String × Wire)) :
    Option (String × List ℕ × List UInt8) :=
  match d.lookup typeKey, d.lookup "shape", d.lookup "data" with
  | some (.str type), some (.array shape), some (.bin data) =>
    (shape.mapM dimension).map fun shape => (type, shape, data)
  | _, _, _ => none

/-! ## The encoder -/

/-- The attributes of an object, as a map. -/
def Record.items {F α : Type} [Record F] (f : F → α) : List (String × α) :=
  (fields : List F).map fun x => (name x, f x)

/-- The attributes of an object, each of them encoded. -/
def encFields {F : Type} [Record F] (enc : F → Option Wire) : Option (List (String × Wire)) :=
  (Record.fields : List F).mapM fun x => (enc x).map fun w => (Record.name x, w)

/-- The attribute `multimodal_output`, as entries of a map. -/
def mmItems {α : Type} (mm : Option α) : List (String × α) :=
  mm.toList.map fun v => (multimodalOutput, v)

/-- `_encode_tensor`. -/
def Tensor.enc : Option Wire :=
  t.contiguous.viewUint8.map fun data =>
    .map (markedItems tensorMarker "dtype" (T.name t.dtype) t.shape data)

/-- `_encode_ndarray`, for an array that is not one of objects or of raw memory. -/
def NdArray.enc (a : NdArray N) : Option Wire :=
  if N.kind a.dtype = 'O' ∨ N.kind a.dtype = 'V' then none
  else some (.map (markedItems ndarrayMarker "dtype" (N.name a.dtype) a.shape a.data))

/-- Where a value stands: anywhere, as `outputs` of a `RequestOutput`, or as an entry of that
list. -/
inductive Place
  | value
  | outputs
  | entry
  deriving DecidableEq

/-- The place of the entries of a list. -/
def Place.inside : Place → Place
  | .outputs => .entry
  | _ => .value

/-- The place of an attribute of a `RequestOutput`. -/
def placeOf (x : RequestField) : Place := if x = .outputs then .outputs else .value

namespace PyVal

mutual

/-- The encoder with its hook `_enc_hook`, at a place of the value. -/
def enc (p : Place) : PyVal T N → Option Wire
  | .null => some .nil
  | .bool b => some (.bool b)
  | .int n => some (.int n)
  | .float bits => some (.float bits)
  | .str s => some (.str s)
  | .bytes b => some (.bin b)
  | .list l => (encList p.inside l).map .array
  | .dict d => (encItems d).map .map
  | .tensor t => t.enc
  | .ndarray a => a.enc
  | .image mode shape data => some (.map (markedItems pilImageMarker "mode" mode shape data))
  | .completionOutput f mm =>
    -- elsewhere the format finds a dataclass, and writes its fields only
    (encFields fun x => enc .value (f x)).bind fun ws =>
      (if p = .entry then encMm mm else some none).map fun m => .map (ws ++ mmItems m)
  | .requestOutput f mm =>
    if (f .outputs).isList then
      (encFields fun x => enc (placeOf x) (f x)).bind fun ws =>
        (encMm mm).map fun m => .map (ws ++ mmItems m)
    else none
  | .omniRequestOutput f => (encFields fun x => enc .value (f x)).map .map

/-- The entries of a list. -/
def encList (p : Place) : List (PyVal T N) → Option (List Wire)
  | [] => some []
  | v :: vs => (enc p v).bind fun w => (encList p vs).map fun ws => w :: ws

/-- The entries of a dict. -/
def encItems : List (String × PyVal T N) → Option (List (String × Wire))
  | [] => some []
  | (k, v) :: vs => (enc .value v).bind fun w => (encItems vs).map fun ws => (k, w) :: ws

/-- The attribute `multimodal_output`, which is left out when it is `None`. -/
def encMm : Option (PyVal T N) → Option (Option Wire)
  | none => some none
  | some v => if v.isNull then some none else (enc .value v).map some

end

end PyVal

/-! ## The decoder -/

/-- A value fits the annotation of a field of `CompletionOutput`. -/
def CompletionField.typed : CompletionField → PyVal T N → Bool
  | .index, .int _ => true
  | .text, .str _ => true
  | .tokenIds, .list l => l.all PyVal.isInt
  | .cumulativeLogprob, .null | .cumulativeLogprob, .float _ => true
  | .logprobs, .null | .logprobs, .list [] => true
  | .finishReason, .null | .finishReason, .str _ => true
  | .stopReason, .null | .stopReason, .int _ | .stopReason, .str _ => true
  | .loraRequest, .null => true
  | _, _ => false

/-- `msgspec.convert` to the two dataclasses, which needs fields that fit their annotations. -/
structure Convert (T : Dtypes δ) (N : NumpyDtypes ν) where
  completion : List (String × PyVal T N) → Option (CompletionField → PyVal T N)
  omni : List (String × PyVal T N) → Option (OmniField → PyVal T N)
  completion_items : ∀ f : CompletionField → PyVal T N, (∀ x : CompletionField, x.typed (f x)) →
    completion (Record.items f) = some f

/-- The default of a field of `OmniRequestOutput`. -/
def OmniField.default : OmniField → PyVal T N
  | .requestId => .str ""
  | .finished => .bool true
  | .stageId | .requestOutput | .prompt | .latents => .null
  | .finalOutputType => .str "text"
  | .images => .list []
  | .metrics => .dict []

/-- The parameters of `RequestOutput` that have no default. -/
def RequestField.isRequired : RequestField → Bool
  | .requestId | .prompt | .promptTokenIds | .promptLogprobs | .outputs | .finished => true
  | _ => false

/-- The attribute that `RequestOutput.__init__` sets from an argument. -/
def RequestField.init : RequestField → Option (PyVal T N) → PyVal T N
  | .multiModalPlaceholders, v => (v.getD .null).orEmpty
  | _, v => v.getD .null

def isOmniRequestOutput (keys : List String) : Bool :=
  "finished" ∈ keys && ("final_output_type" ∈ keys || "images" ∈ keys)

/-- `obj.pop("multimodal_output", None)`, as the attribute that is set from it. -/
def popMm (d : List (String × PyVal T N)) : Option (PyVal T N) :=
  (d.lookup multimodalOutput).filter fun v => !v.isNull

def decodeRequestOutput (d : List (String × PyVal T N)) : Option (PyVal T N) :=
  let kwargs := OrderedDict.pop d multimodalOutput
  if (Record.fields.filter RequestField.isRequired).all fun x => x.name ∈ kwargs.map Prod.fst then
    some (.requestOutput (fun x => x.init (kwargs.lookup x.name)) (popMm d))
  else none

namespace Convert

variable (C : Convert T N)

def decodeCompletionOutput (d : List (String × PyVal T N)) : Option (PyVal T N) :=
  (C.completion (OrderedDict.pop d multimodalOutput)).map fun f => .completionOutput f (popMm d)

/-- `_decode_omni_request_output`: the constructor takes the fields of the class only. -/
def decodeOmniRequestOutput (d : List (String × PyVal T N)) : PyVal T N :=
  match C.omni d with
  | some f => .omniRequestOutput f
  | none =>
    if d.all fun e => e.1 ∈ (Record.fields : List OmniField).map OmniField.name then
      .omniRequestOutput fun x => (d.lookup x.name).getD x.default
    else .dict d

/-- The last part of `_post_process`: what a dict without a marker is. -/
def decodeDict (d : List (String × PyVal T N)) : Option (PyVal T N) :=
  let keys := d.map Prod.fst
  if isOmniRequestOutput keys then some (C.decodeOmniRequestOutput d)
  else if requestOutputKeys.all (· ∈ keys) then decodeRequestOutput d
  else if completionOutputKeys.all (· ∈ keys) then C.decodeCompletionOutput d
  else some (.dict d)

end Convert

def decodeTensor (d : List (String × Wire)) : Option (PyVal T N) :=
  (readMarked "dtype" d).bind fun m =>
    (T.ofName m.1).bind fun dtype => (Tensor.ofBytes dtype m.2.1 m.2.2).map .tensor

def decodeNdarray (d : List (String × Wire)) : Option (PyVal T N) :=
  (readMarked "dtype" d).bind fun m =>
    (N.ofName m.1).bind fun dtype => (NdArray.ofBytes dtype m.2.1 m.2.2).map .ndarray

def decodePilImage (d : List (String × Wire)) : Option (PyVal T N) :=
  (readMarked "mode" d).bind fun m =>
    if m.2.2 ≠ [] ∧ m.2.2.length = m.2.1.prod then some (.image m.1 m.2.1 m.2.2) else none

namespace Convert

variable (C : Convert T N)

mutual

def postProcess : Wire → Option (PyVal T N)
  | .nil => some .null
  | .bool b => some (.bool b)
  | .int n => some (.int n)
  | .float bits => some (.float bits)
  | .str s => some (.str s)
  | .bin b => some (.bytes b)
  | .array l => (postProcessList l).map .list
  | .map d =>
    if marked tensorMarker d then decodeTensor d
    else if marked ndarrayMarker d then decodeNdarray d
    else if marked pilImageMarker d then decodePilImage d
    else (postProcessItems d).bind C.decodeDict

/-- The entries of a list. -/
def postProcessList : List Wire → Option (List (PyVal T N))
  | [] => some []
  | w :: ws => (postProcess w).bind fun v => (postProcessList ws).map fun vs => v :: vs

/-- The entries of a dict. -/
def postProcessItems : List (String × Wire) → Option (List (String × PyVal T N))
  | [] => some []
  | (k, w) :: ws => (postProcess w).bind fun v => (postProcessItems ws).map fun vs => (k, v) :: vs

end

end Convert

end OmniStreaming
