import OmniStreaming.Connector.Serialization

/-!
# `additional_information` on its way to the model runner

The input processor writes each tensor of the dict as its bytes, its shape and the name of its
dtype, and passes lists on as they are (`OmniInputProcessor.process_inputs`). The model runner
reads the name as a dtype of numpy and makes a tensor of the bytes again (`_update_states`). What
goes wrong there is logged, and the whole dict is then missing.

The two sides have different dtypes: the names come from torch and are read by numpy. A tensor
gets as far as its bytes only through `numpy()`, which raises for a dtype that numpy does not have,
and the names of the other dtypes are read as what `numpy()` made of them
(`NumpyDtype.ofName_dtypeToName`).
-/

namespace OmniStreaming

/-! ## The dtypes of numpy and of torch -/

/-- The dtypes of numpy that torch has too. -/
inductive NumpyDtype
  | bool
  | int8
  | int16
  | int32
  | int64
  | uint8
  | uint16
  | uint32
  | uint64
  | float16
  | float32
  | float64
  | complex64
  | complex128
  deriving DecidableEq

/-- The dtypes of torch: those of numpy and the others that tensors are computed with. -/
inductive TorchDtype
  | numpy (d : NumpyDtype)
  | bfloat16
  | complex32
  | float8E4m3fn
  | float8E4m3fnuz
  | float8E5m2
  | float8E5m2fnuz
  | float8E8m0fnu
  | float4E2m1fnX2
  | qint8
  | qint32
  | quint8
  | quint4x2
  | quint2x4
  deriving DecidableEq

namespace NumpyDtype

def name : NumpyDtype → String
  | bool => "bool"
  | int8 => "int8"
  | int16 => "int16"
  | int32 => "int32"
  | int64 => "int64"
  | uint8 => "uint8"
  | uint16 => "uint16"
  | uint32 => "uint32"
  | uint64 => "uint64"
  | float16 => "float16"
  | float32 => "float32"
  | float64 => "float64"
  | complex64 => "complex64"
  | complex128 => "complex128"

/-- `dtype.str`: the order of the bytes, the kind and the number of bytes. -/
def str : NumpyDtype → String
  | bool => "|b1"
  | int8 => "|i1"
  | int16 => "<i2"
  | int32 => "<i4"
  | int64 => "<i8"
  | uint8 => "|u1"
  | uint16 => "<u2"
  | uint32 => "<u4"
  | uint64 => "<u8"
  | float16 => "<f2"
  | float32 => "<f4"
  | float64 => "<f8"
  | complex64 => "<c8"
  | complex128 => "<c16"

def itemsize : NumpyDtype → ℕ
  | bool | int8 | uint8 => 1
  | int16 | uint16 | float16 => 2
  | int32 | uint32 | float32 => 4
  | int64 | uint64 | float64 | complex64 => 8
  | complex128 => 16

def kind : NumpyDtype → Char
  | bool => 'b'
  | int8 | int16 | int32 | int64 => 'i'
  | uint8 | uint16 | uint32 | uint64 => 'u'
  | float16 | float32 | float64 => 'f'
  | complex64 | complex128 => 'c'

def all : List NumpyDtype :=
  [bool, int8, int16, int32, int64, uint8, uint16, uint32, uint64, float16, float32, float64,
    complex64, complex128]

/-- `np.dtype` of a text, which raises for one that is not understood. -/
def ofName (s : String) : Option NumpyDtype := all.find? fun d => s = d.name ∨ s = d.str

end NumpyDtype

namespace TorchDtype

/-- `str(dtype)` without the `torch.` in front. -/
def name : TorchDtype → String
  | numpy d => d.name
  | bfloat16 => "bfloat16"
  | complex32 => "complex32"
  | float8E4m3fn => "float8_e4m3fn"
  | float8E4m3fnuz => "float8_e4m3fnuz"
  | float8E5m2 => "float8_e5m2"
  | float8E5m2fnuz => "float8_e5m2fnuz"
  | float8E8m0fnu => "float8_e8m0fnu"
  | float4E2m1fnX2 => "float4_e2m1fn_x2"
  | qint8 => "qint8"
  | qint32 => "qint32"
  | quint8 => "quint8"
  | quint4x2 => "quint4x2"
  | quint2x4 => "quint2x4"

def all : List TorchDtype :=
  NumpyDtype.all.map numpy ++
    [bfloat16, complex32, float8E4m3fn, float8E4m3fnuz, float8E5m2, float8E5m2fnuz, float8E8m0fnu,
      float4E2m1fnX2, qint8, qint32, quint8, quint4x2, quint2x4]

/-- `getattr(torch, name)`. -/
def ofName (s : String) : Option TorchDtype := all.find? fun d => s = d.name

def itemsize : TorchDtype → ℕ
  | numpy d => d.itemsize
  | bfloat16 => 2
  | complex32 | qint32 => 4
  | _ => 1

/-- The dtype of the array that `numpy()` makes of a tensor; the other dtypes are refused. -/
def toNumpy : TorchDtype → Option NumpyDtype
  | numpy d => some d
  | _ => none

end TorchDtype

def numpyDtypes : NumpyDtypes NumpyDtype where
  name := NumpyDtype.str
  ofName := NumpyDtype.ofName
  itemsize := NumpyDtype.itemsize
  ofName_name d := by cases d <;> rfl
  kind := NumpyDtype.kind

def torchDtypes : Dtypes TorchDtype where
  name := TorchDtype.name
  ofName := TorchDtype.ofName
  itemsize := TorchDtype.itemsize
  ofName_name d := by
    cases d with
    | numpy d => cases d <;> rfl
    | _ => rfl

lemma NumpyDtype.itemsize_ne_zero (d : NumpyDtype) : d.itemsize ≠ 0 := by
  cases d <;> decide

lemma TorchDtype.eq_numpy {d : TorchDtype} {e : NumpyDtype} (h : d.toNumpy = some e) :
    d = .numpy e := by
  cases d <;> cases h
  rfl

/-! ## Tensors and arrays -/

/-- `numpy()` of a tensor. -/
def Tensor.numpy (t : Tensor torchDtypes) : Option (NdArray numpyDtypes) :=
  match h : t.dtype.toNumpy with
  | some d => some
    { dtype := d
      shape := t.shape
      data := t.data
      data_length := by
        have hlength : t.data.length = t.shape.prod * t.dtype.itemsize := t.data_length
        rwa [TorchDtype.eq_numpy h] at hlength }
  | none => none

def NdArray.tobytes (a : NdArray numpyDtypes) : List UInt8 := a.data

/-- `torch.from_numpy` of a copy of an array. -/
def Tensor.fromNumpy (a : NdArray numpyDtypes) : Tensor torchDtypes where
  dtype := .numpy a.dtype
  shape := a.shape
  strides := rowMajorStrides a.shape
  data := a.data
  strides_length := length_rowMajorStrides a.shape
  data_length := a.data_length

/-! ## The input processor -/

/-- A value of the dict: a tensor, a list of Python values, `None`, or another Python value. -/
inductive InfoValue (ι : Type)
  | tensor (t : Tensor torchDtypes)
  | list (l : List ι)
  | null
  | other (v : ι)

structure AdditionalInformationEntry (ι : Type) where
  tensorData : Option (List UInt8) := none
  tensorShape : Option (List ℕ) := none
  tensorDtype : Option String := none
  listData : Option (List ι) := none

structure AdditionalInformationPayload (ι : Type) where
  entries : List (String × AdditionalInformationEntry ι)

/-- What `process_inputs` raises. -/
inductive InfoError
  /-- `numpy()` of a tensor with a dtype that numpy does not have. -/
  | typeError (dtype : TorchDtype)
  | valueError (message : String)
  deriving DecidableEq

def dtypeToName : TorchDtype → String
  | .numpy .float32 => "float32"
  | .numpy .float16 => "float16"
  | .bfloat16 => "bfloat16"
  | .numpy .float64 => "float64"
  | .numpy .int64 => "int64"
  | .numpy .int32 => "int32"
  | .numpy .int16 => "int16"
  | .numpy .int8 => "int8"
  | .numpy .uint8 => "uint8"
  | .numpy .bool => "bool"
  | dtype => dtype.name

variable {ι : Type}

/-- The entry of a tensor, which is made contiguous first. -/
def Tensor.entry (t : Tensor torchDtypes) : Except InfoError (AdditionalInformationEntry ι) :=
  match t.contiguous.numpy with
  | some array => .ok
    { tensorData := some array.tobytes
      tensorShape := some t.contiguous.shape
      tensorDtype := some (dtypeToName t.contiguous.dtype) }
  | none => .error (.typeError t.contiguous.dtype)

/-- The entry of a value. -/
def InfoValue.entry : InfoValue ι → Except InfoError (AdditionalInformationEntry ι)
  | .tensor t => t.entry
  | .list l => .ok { listData := some l }
  | .null | .other _ =>
    .error (.valueError "additional_information values must be Tensor or list")

/-- The part of `process_inputs` for `additional_information`, if the inputs have it. -/
def processInputs (rawInfo : Option (List (String × InfoValue ι))) :
    Except InfoError (Option (AdditionalInformationPayload ι)) :=
  match rawInfo with
  | some raw => (OrderedDict.fillM InfoValue.entry raw).map fun entries => some ⟨entries⟩
  | none => .ok none

/-! ## The model runner -/

/-- What decoding raises. -/
inductive DecodeError
  /-- `np.dtype` does not understand the name. -/
  | dtype
  /-- The bytes are not those of an array with this dtype and this shape. -/
  | buffer
  deriving DecidableEq

/-- `np.dtype`, which takes `None` for `float64`. -/
def npDtype : Option String → Except DecodeError NumpyDtype
  | none => .ok .float64
  | some name => (NumpyDtype.ofName name).elim (.error .dtype) .ok

/-- `np.frombuffer(data, dtype).reshape(shape)`; the shape `None` leaves the array flat. -/
def fromBuffer (dtype : NumpyDtype) (data : List UInt8) (shape : Option (List ℕ)) :
    Except DecodeError (NdArray numpyDtypes) :=
  (NdArray.ofBytes dtype (shape.getD [data.length / dtype.itemsize]) data).elim
    (.error .buffer) .ok

/-- The value of an entry. -/
def AdditionalInformationEntry.decode (entry : AdditionalInformationEntry ι) :
    Except DecodeError (InfoValue ι) :=
  match entry.tensorData with
  | some data => do
    let dtype ← npDtype entry.tensorDtype
    let array ← fromBuffer dtype data entry.tensorShape
    return .tensor (.fromNumpy array)
  | none => .ok (entry.listData.elim .null .list)

/-- What a new request has as its `additional_information`. -/
inductive PayloadInfo (ι : Type)
  | dict (d : List (String × InfoValue ι))
  | payload (p : AdditionalInformationPayload ι)
  | other

/-- `info_dict` of a request. -/
def decodeInfo : PayloadInfo ι → Except DecodeError (List (String × InfoValue ι))
  | .dict d => .ok d
  | .payload p => OrderedDict.fillM AdditionalInformationEntry.decode p.entries
  | .other => .ok []

/-- `additional_information_cpu` after `_update_states`, if the dict is not empty. An exception is
only logged. -/
def updateStates (payloadInfo : Option (PayloadInfo ι)) : Option (List (String × InfoValue ι)) :=
  match payloadInfo.map decodeInfo with
  | some (.ok info) => if info.isEmpty then none else some info
  | some (.error _) | none => none

/-! ## The round trip -/

/-- The value is one that the input processor takes: a list, or a tensor with a dtype of numpy. -/
def InfoValue.Accepted : InfoValue ι → Prop
  | .tensor t => t.dtype.toNumpy.isSome
  | .list _ => True
  | .null | .other _ => False

instance : DecidablePred (InfoValue.Accepted (ι := ι)) := fun a => by
  unfold InfoValue.Accepted
  split <;> infer_instance

/-- Equal lists, or tensors that are equal in dtype, shape and contents. -/
def InfoValue.Same : InfoValue ι → InfoValue ι → Prop
  | .tensor t, .tensor u => t.dtype = u.dtype ∧ t.shape = u.shape ∧ t.data = u.data
  | .list l, .list m => l = m
  | _, _ => False

/-- The value with its tensor laid out row after row. -/
def InfoValue.rowMajor : InfoValue ι → InfoValue ι
  | .tensor t => .tensor t.rowMajor
  | v => v

/-- The name of a dtype is read as the dtype that `numpy()` gave the array. -/
lemma NumpyDtype.ofName_dtypeToName (d : NumpyDtype) :
    NumpyDtype.ofName (dtypeToName (.numpy d)) = some d := by
  cases d <;> rfl

variable {d : NumpyDtype} {t : Tensor torchDtypes}

lemma Tensor.exists_numpy (h : t.dtype.toNumpy = some d) :
    ∃ a, t.numpy = some a ∧ a.data = t.data := by
  unfold Tensor.numpy
  split
  · exact ⟨_, rfl, rfl⟩
  · next hnone => cases h.symm.trans hnone

lemma Tensor.numpy_eq_none (h : t.dtype.toNumpy = none) : t.numpy = none := by
  unfold Tensor.numpy
  split
  · next hsome => cases h.symm.trans hsome
  · rfl

lemma Tensor.entry_of_toNumpy (h : t.dtype.toNumpy = some d) :
    t.entry = .ok (⟨some t.data, some t.shape, some (dtypeToName t.dtype), none⟩ :
      AdditionalInformationEntry ι) := by
  obtain ⟨a, ha, hdata⟩ := Tensor.exists_numpy (t.dtype_contiguous.symm ▸ h)
  simp only [Tensor.entry, ha, NdArray.tobytes, hdata, t.data_contiguous, t.shape_contiguous,
    t.dtype_contiguous]

/-- Any other tensor raises. -/
lemma Tensor.entry_of_toNumpy_eq_none (h : t.dtype.toNumpy = none) :
    (t.entry : Except InfoError (AdditionalInformationEntry ι)) =
      .error (.typeError t.dtype) := by
  rw [Tensor.entry, Tensor.numpy_eq_none (t.dtype_contiguous.symm ▸ h), t.dtype_contiguous]

lemma decode_tensor (h : t.dtype.toNumpy = some d) :
    (⟨some t.data, some t.shape, some (dtypeToName t.dtype), none⟩ :
      AdditionalInformationEntry ι).decode = .ok (.tensor t.rowMajor) := by
  obtain ⟨dtype, shape, strides, data, hstrides, hdata⟩ := t
  obtain rfl : dtype = .numpy d := TorchDtype.eq_numpy h
  have hname : npDtype (some (dtypeToName (.numpy d))) = .ok d := by
    rw [npDtype, d.ofName_dtypeToName]
    rfl
  have hbuffer : fromBuffer d data (some shape) = .ok ⟨d, shape, data, hdata⟩ := by
    have hbytes : (NdArray.ofBytes d shape data : Option (NdArray numpyDtypes)) =
        some ⟨d, shape, data, hdata⟩ := dif_pos ⟨d.itemsize_ne_zero, hdata⟩
    rw [fromBuffer, Option.getD_some, hbytes]
    rfl
  simp only [AdditionalInformationEntry.decode, hname, hbuffer, bind, Except.bind]
  rfl

lemma decode_of_entry {v : InfoValue ι} {e : AdditionalInformationEntry ι}
    (h : v.entry = .ok e) : e.decode = .ok v.rowMajor := by
  cases v with
  | tensor t =>
    cases hd : t.dtype.toNumpy with
    | some d =>
      cases (Tensor.entry_of_toNumpy hd).symm.trans h
      exact decode_tensor hd
    | none => cases (Tensor.entry_of_toNumpy_eq_none hd).symm.trans h
  | list l =>
    cases h
    rfl
  | null | other => cases h

lemma exists_entry_iff (v : InfoValue ι) : (∃ e, v.entry = .ok e) ↔ v.Accepted := by
  cases v with
  | tensor t =>
    cases hd : t.dtype.toNumpy with
    | some d =>
      exact iff_of_true ⟨_, Tensor.entry_of_toNumpy hd⟩ (Option.isSome_iff_exists.mpr ⟨d, hd⟩)
    | none =>
      refine iff_of_false ?_ (by simp [InfoValue.Accepted, hd])
      rintro ⟨e, he⟩
      cases (Tensor.entry_of_toNumpy_eq_none hd).symm.trans he
  | list l => exact iff_of_true ⟨_, rfl⟩ trivial
  | null | other => exact iff_of_false (fun ⟨_, he⟩ => nomatch he) id

/-- The value that is read for an accepted one is the same. -/
lemma same_rowMajor {v : InfoValue ι} (h : v.Accepted) : v.Same v.rowMajor := by
  cases v with
  | tensor t => exact ⟨rfl, rfl, rfl⟩
  | list l => exact rfl
  | null | other => exact h

section Dict

variable {raw : List (String × InfoValue ι)} {payload : AdditionalInformationPayload ι}

lemma processInputs_eq_ok : processInputs (some raw) = .ok (some payload) ↔
    OrderedDict.fillM InfoValue.entry raw = .ok payload.entries := by
  rw [processInputs]
  cases OrderedDict.fillM InfoValue.entry raw with
  | error e => exact iff_of_false (fun h => nomatch h) fun h => nomatch h
  | ok entries =>
    constructor
    · intro h
      cases Except.ok.inj h
      rfl
    · intro h
      cases h
      rfl

variable (hkeys : (OrderedDict.keys raw).Nodup)
include hkeys

/-- A dict is taken when each of its values is. -/
lemma exists_processInputs_iff :
    (∃ payload, processInputs (some raw) = .ok (some payload)) ↔ ∀ x ∈ raw, x.2.Accepted := by
  simp only [← exists_entry_iff, ← OrderedDict.exists_fillM_eq_ok hkeys, processInputs_eq_ok]
  exact ⟨fun ⟨payload, h⟩ => ⟨payload.entries, h⟩, fun ⟨entries, h⟩ => ⟨⟨entries⟩, h⟩⟩

lemma decodeInfo_of_processInputs (h : processInputs (some raw) = .ok (some payload)) :
    decodeInfo (.payload payload) = .ok (raw.map fun x => (x.1, x.2.rowMajor)) := by
  rw [processInputs_eq_ok] at h
  have hentries := OrderedDict.keys_of_fillM hkeys h
  rw [OrderedDict.fillM_eq_ok hkeys] at h
  rw [decodeInfo, OrderedDict.fillM_eq_ok (hentries ▸ hkeys), List.forall₂_map_right_iff]
  refine h.flip.imp ?_
  intro e x hx
  exact ⟨hx.1.symm, decode_of_entry hx.2⟩

/-- What the input processor takes, the model runner gets: the same keys, equal tensors and equal
lists. An empty dict is not set. -/
theorem additional_information_survives (h : processInputs (some raw) = .ok (some payload)) :
    ∃ info, decodeInfo (.payload payload) = .ok info ∧
      OrderedDict.keys info = OrderedDict.keys raw ∧
      (∀ k v, raw.lookup k = some v → ∃ w, info.lookup k = some w ∧ v.Same w) ∧
      updateStates (some (.payload payload)) = if raw.isEmpty then none else some info := by
  have haccepted := (exists_processInputs_iff hkeys).mp ⟨payload, h⟩
  have hdecode := decodeInfo_of_processInputs hkeys h
  have hinfo : OrderedDict.keys (raw.map fun x => (x.1, x.2.rowMajor)) = OrderedDict.keys raw := by
    rw [OrderedDict.keys, List.map_map]
    rfl
  refine ⟨_, hdecode, hinfo, ?_, ?_⟩
  · intro k v hv
    have hmem := OrderedDict.mem_of_lookup hv
    refine ⟨v.rowMajor, ?_, same_rowMajor (haccepted _ hmem)⟩
    apply OrderedDict.lookup_of_mem (hinfo ▸ hkeys)
    exact List.mem_map.mpr ⟨(k, v), hmem, rfl⟩
  · simp only [updateStates, Option.map_some, hdecode, List.isEmpty_map]

end Dict

/-- Several dtypes: a column of a matrix, no rows, a tensor without dimensions, and two lists. -/
def sampleInfo : List (String × InfoValue ℤ) :=
  [("column", .tensor ⟨.numpy .int16, [2, 1], [3, 1], [1, 0, 2, 0], rfl, rfl⟩),
    ("rows", .tensor ⟨.numpy .float32, [0, 4], [4, 1], [], rfl, by decide⟩),
    ("flag", .tensor ⟨.numpy .bool, [], [], [1], rfl, rfl⟩),
    ("word", .tensor ⟨.numpy .uint16, [1], [1], [255, 0], rfl, rfl⟩),
    ("ids", .list [151644, -1]),
    ("empty", .list [])]

/-- The sample arrives. -/
theorem sampleInfo_survives :
    ∃ payload info, processInputs (some sampleInfo) = .ok (some payload) ∧
      updateStates (some (.payload payload)) = some info ∧
      OrderedDict.keys info = ["column", "rows", "flag", "word", "ids", "empty"] ∧
      ∀ k v, sampleInfo.lookup k = some v → ∃ w, info.lookup k = some w ∧ v.Same w := by
  have hkeys : (OrderedDict.keys sampleInfo).Nodup := by decide
  obtain ⟨payload, hpayload⟩ := (exists_processInputs_iff hkeys).mpr (by decide)
  obtain ⟨info, -, hinfo, hsame, hset⟩ := additional_information_survives hkeys hpayload
  exact ⟨payload, info, hpayload, hset, hinfo, hsame⟩

end OmniStreaming
