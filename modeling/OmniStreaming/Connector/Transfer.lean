import OmniStreaming.Connector.RoundTrip

/-!
# The transfer of a value: `SharedMemoryConnector.put` and `get`

`put` serialises a value, and leaves the bytes in a shared memory segment when there are more of
them than a threshold; else they go inline. `get` finds the bytes by the metadata that `put` has
returned, and deserialises them.

A plain value within the limits of the format arrives, inline or through a segment
(`arrives_of_plain`). The condition on the keys cannot be left out: a dict with the keys `finished`
and `images` arrives as an `OmniRequestOutput` (`dict_arrives_as_output`).
-/

namespace OmniStreaming

variable {δ ν : Type} {T : Dtypes δ} {N : NumpyDtypes ν}

/-! ## Shared memory -/

/-- The shared memory segments in the order of their creation; a segment that has been unlinked is
gone. -/
abbrev Segments := List (Option (List UInt8))

/-- `shm_write_bytes`: a new segment, which may be longer than the payload. There is no segment
without bytes. -/
def shmWriteBytes (m : Segments) (rest payload : List UInt8) : Option (ℕ × Segments) :=
  if payload = [] then none else some (m.length, m ++ [some (payload ++ rest)])

/-- `shm_read_bytes`: the first bytes of a segment, which is unlinked. -/
def shmReadBytes (m : Segments) (name size : ℕ) : Option (List UInt8 × Segments) :=
  m[name]?.join.map fun buf => (buf.take size, m.set name none)

/-! ## The connector -/

/-- `OmniSerializer.serialize`. -/
def PyVal.serialize (F : Wire.Format) (v : PyVal T N) : Option (List UInt8) :=
  (v.enc .value).bind F.pack

/-- `OmniSerializer.deserialize`. -/
def Convert.deserialize (C : Convert T N) (F : Wire.Format) (bs : List UInt8) :
    Option (PyVal T N) :=
  (F.unpack bs).bind C.postProcess

/-- The metadata of a transfer. -/
inductive ShmMetadata (T : Dtypes δ) (N : NumpyDtypes ν)
  | shm (name nbytes size : ℕ)
  | inlineBytes (payload : List UInt8) (size : ℕ)
  | inline (obj : PyVal T N) (size : ℕ)

structure SharedMemoryConnector where
  threshold : ℤ := 65536

/-- What `put` returns. -/
structure PutResult (T : Dtypes δ) (N : NumpyDtypes ν) where
  success : Bool
  size : ℕ
  metadata : Option (ShmMetadata T N)

/-- `put`; `rest` is what a new segment has behind the payload. -/
def SharedMemoryConnector.put (c : SharedMemoryConnector) (F : Wire.Format) (m : Segments)
    (rest : List UInt8) (data : PyVal T N) : PutResult T N × Segments :=
  match data.serialize F with
  | none => (⟨false, 0, none⟩, m)
  | some payload =>
    let size := payload.length
    if (size : ℤ) > c.threshold then
      match shmWriteBytes m rest payload with
      | none => (⟨false, 0, none⟩, m)
      | some (name, m') => (⟨true, size, some (.shm name size size)⟩, m')
    else (⟨true, size, some (.inlineBytes payload size)⟩, m)

/-- `get`. -/
def Convert.get (C : Convert T N) (F : Wire.Format) (m : Segments) :
    Option (ShmMetadata T N) → Option (PyVal T N × ℕ) × Segments
  | none => (none, m)
  | some (.shm name nbytes size) =>
    match shmReadBytes m name nbytes with
    | none => (none, m)
    | some (payload, m') => ((C.deserialize F payload).map fun obj => (obj, size), m')
  | some (.inlineBytes payload size) =>
    ((C.deserialize F payload).map fun obj => (obj, size), m)
  | some (.inline obj size) =>
    (some (obj, if size = 0 then ((obj.serialize F).map List.length).getD 0 else size), m)

/-! ## Arrival -/

/-- What has been encoded within the limits is packed, and decoded from the bytes. -/
lemma exists_payload (C : Convert T N) (F : Wire.Format) {v : PyVal T N} {w : Wire}
    (henc : v.enc .value = some w) (hfits : w.fits) :
    ∃ payload, v.serialize F = some payload ∧ payload ≠ [] ∧
      C.deserialize F payload = C.postProcess w := by
  obtain ⟨payload, hpack, hne, hunpack⟩ := F.unpack_pack w hfits
  refine ⟨payload, ?_, hne, ?_⟩
  · rw [PyVal.serialize, henc]
    exact hpack
  · rw [Convert.deserialize, hunpack]
    rfl

/-- Bytes written to a new segment are read from it, also after further segments. -/
lemma shmReadBytes_append (m later : Segments) (rest payload : List UInt8) :
    shmReadBytes (m ++ [some (payload ++ rest)] ++ later) m.length payload.length =
      some (payload, (m ++ [some (payload ++ rest)] ++ later).set m.length none) := by
  have hname : (m ++ [some (payload ++ rest)] ++ later)[m.length]? =
      some (some (payload ++ rest)) := by
    simp
  rw [shmReadBytes, hname, Option.join_some, Option.map_some, List.take_left]

/-- A plain value within the limits comes back from the codec, up to strides, and arrives through
the connector with every threshold. -/
theorem arrives_of_plain (C : Convert T N) (F : Wire.Format) (v : PyVal T N)
    (hv : v.plain .value) (hfits : ∀ w, v.enc .value = some w → w.fits) :
    (v.serialize F).bind (C.deserialize F) = some v.rowMajor ∧
      ∀ (c : SharedMemoryConnector) (m later : Segments) (rest : List UInt8),
        (C.get F ((c.put F m rest v).2 ++ later) (c.put F m rest v).1.metadata).1 =
          some (v.rowMajor, (c.put F m rest v).1.size) := by
  obtain ⟨w, henc, hdec⟩ := decodes_of_plain C .value v hv
  obtain ⟨payload, hser, hne, hdes⟩ := exists_payload C F henc (hfits w henc)
  rw [hdec] at hdes
  refine ⟨?_, fun c m later rest => ?_⟩
  · rw [hser]
    exact hdes
  · by_cases hsize : (payload.length : ℤ) > c.threshold
    · have hput : c.put F m rest v = (⟨true, payload.length,
          some (.shm m.length payload.length payload.length)⟩,
          m ++ [some (payload ++ rest)]) := by
        simp only [SharedMemoryConnector.put, hser, shmWriteBytes, if_pos hsize, if_neg hne]
      rw [hput]
      simp only [Convert.get, shmReadBytes_append, hdes, Option.map_some]
    · have hput : c.put F m rest v =
          (⟨true, payload.length, some (.inlineBytes payload payload.length)⟩, m) := by
        simp only [SharedMemoryConnector.put, hser, if_neg hsize]
      rw [hput]
      simp only [Convert.get, hdes, Option.map_some]

/-! ## A transfer -/

inductive SampleDtype
  | float32
  | uint8

def sampleTorch : Dtypes SampleDtype where
  name
    | .float32 => "float32"
    | .uint8 => "uint8"
  ofName s := if s = "float32" then some .float32 else if s = "uint8" then some .uint8 else none
  itemsize
    | .float32 => 4
    | .uint8 => 1
  ofName_name d := by cases d <;> rfl

def sampleNumpy : NumpyDtypes SampleDtype where
  name
    | .float32 => "<f4"
    | .uint8 => "|u1"
  ofName s := if s = "<f4" then some .float32 else if s = "|u1" then some .uint8 else none
  itemsize := sampleTorch.itemsize
  ofName_name d := by cases d <;> rfl
  kind
    | .float32 => 'f'
    | .uint8 => 'u'

/-- A conversion that takes the fields as they are. -/
def sampleConvert : Convert sampleTorch sampleNumpy where
  completion d := some fun x => (d.lookup x.name).getD .null
  omni d := some fun x => (d.lookup x.name).getD x.default
  completion_items f _ := by
    congr 1
    funext x
    rw [show (Record.items f).lookup x.name = some (f x) from lookup_items f x]
    rfl

/-- The hidden states of a turn that has no rows yet. -/
def noRows : Tensor sampleTorch := ⟨.float32, [0, 2], [2, 1], [], rfl, rfl⟩

/-- A completion with one token and its payload. -/
def sampleCompletion : PyVal sampleTorch sampleNumpy :=
  .completionOutput
    (fun
      | .index => .int 0
      | .text => .str "a"
      | .tokenIds => .list [.int 7]
      | _ => .null)
    (some (.dict [("hidden", .tensor noRows), ("codes", .ndarray ⟨.uint8, [2], [1, 2], rfl⟩)]))

/-- A request output with one completion. -/
def sampleOutput : PyVal sampleTorch sampleNumpy :=
  .requestOutput
    (fun
      | .requestId => .str "s_1"
      | .promptTokenIds => .list [.int (-5), .int 3]
      | .outputs => .list [sampleCompletion]
      | .finished => .bool false
      | .multiModalPlaceholders => .dict []
      | _ => .null)
    none

/-- An output with all kinds of values. -/
theorem arrives_sampleOutput :
    (sampleOutput.serialize Wire.tagged).bind (sampleConvert.deserialize Wire.tagged) =
        some sampleOutput.rowMajor ∧
      ∀ (c : SharedMemoryConnector) (m later : Segments) (rest : List UInt8),
        (sampleConvert.get Wire.tagged ((c.put Wire.tagged m rest sampleOutput).2 ++ later)
            (c.put Wire.tagged m rest sampleOutput).1.metadata).1 =
          some (sampleOutput.rowMajor, (c.put Wire.tagged m rest sampleOutput).1.size) := by
  have hfits : (sampleOutput.enc .value).all Wire.fits = true := by decide +kernel
  refine arrives_of_plain sampleConvert Wire.tagged sampleOutput (by decide +kernel) ?_
  intro w hw
  rwa [hw] at hfits

/-- A dict with the keys `finished` and `images`. -/
def progressDict : PyVal sampleTorch sampleNumpy :=
  .dict [("finished", .bool false), ("images", .list [])]

/-- A column that is a transposed row of two elements. -/
def transposedRow : Tensor sampleTorch := ⟨.float32, [2, 1], [1, 2], List.replicate 8 0, rfl, rfl⟩

/-- With every format and every conversion, the dict is decoded as an `OmniRequestOutput`. -/
lemma exists_output_of_progressDict (C : Convert sampleTorch sampleNumpy) (F : Wire.Format) :
    ∃ f, (progressDict.serialize F).bind (C.deserialize F) = some (.omniRequestOutput f) := by
  obtain ⟨payload, hser, _, hdes⟩ := exists_payload C F (v := progressDict) rfl (by decide)
  rw [hser, Option.bind_some, hdes]
  change ∃ f, some (C.decodeOmniRequestOutput _) = some (PyVal.omniRequestOutput f)
  unfold Convert.decodeOmniRequestOutput
  split <;> exact ⟨_, rfl⟩

/-- The dict arrives as an `OmniRequestOutput`, and the column is not sent at all. -/
theorem dict_arrives_as_output :
    (∃ f, (progressDict.serialize Wire.tagged).bind (sampleConvert.deserialize Wire.tagged) =
      some (.omniRequestOutput f)) ∧
    (progressDict.serialize Wire.tagged).bind (sampleConvert.deserialize Wire.tagged) ≠
      some progressDict.rowMajor ∧
    (PyVal.tensor transposedRow : PyVal sampleTorch sampleNumpy).serialize Wire.tagged = none := by
  have hout := exists_output_of_progressDict sampleConvert Wire.tagged
  refine ⟨hout, ?_, rfl⟩
  obtain ⟨f, hf⟩ := hout
  rw [hf]
  intro h
  cases h

end OmniStreaming
