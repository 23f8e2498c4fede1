import OmniStreaming.Duplex.RequestId
import OmniStreaming.Lib.Transition

/-!
# The stream of one request: `MultimodalOutputProcessor` and `RequestOutputCollector`

For each engine-core output the processor appends the new tokens to the list of the detokenizer,
consolidates the payload into the dictionary of the request, and puts a new output into the
collector, an unfinished one twice. The collector merges what has not been taken: the completion of
the new output replaces that of the pending one.

Outputs share data with the processor: the `multimodal_output` of the request output is the
dictionary of the request itself, and the `token_ids` of a completion are the list that the
detokenizer appends to, except with the slow detokenizer and a prompt, where it is a slice.
-/

namespace OmniStreaming

open List Option Transition

variable {τ ρ : Type*}

/-! ## Payloads -/

/-- A value of the dictionary: a tensor by its rows, or a list of tensors to be concatenated. -/
inductive MmValue (ρ : Type*)
  | tensor (rows : List ρ)
  | list (tensors : List (List ρ))
  deriving DecidableEq

/-- A dictionary with string keys. -/
abbrev MmDict (ν : Type*) := Key → Option ν

/-- A tensor meets the value that is there. -/
def MmValue.add : MmValue ρ → List ρ → MmValue ρ
  | .tensor existing, v => .list [existing, v]
  | .list existing, v => .list (existing ++ [v])

/-- `torch.cat` of a list of tensors. -/
def MmValue.consolidate : MmValue ρ → MmValue ρ
  | .tensor rows => .tensor rows
  | .list [] => .list []
  | .list (t :: ts) => .tensor (t :: ts).flatten

def modelOutputsKey : Key := "model_outputs".toList

def hiddenKey : Key := "hidden".toList

/-- The key under which an item of a payload is kept. -/
def targetKey (mmType : Option Key) (k : Key) : Key :=
  let target := mmType.getD hiddenKey
  if k = modelOutputsKey then target
  else if k = hiddenKey ∧ target ≠ hiddenKey then target
  else k

/-- The dictionary `incoming`: the last item for each key. -/
def incoming (mmType : Option Key) (payload : List (Key × List ρ)) : MmDict (List ρ) := fun k =>
  (payload.reverse.find? fun item => targetKey mmType item.1 = k).map Prod.snd

def addMultimodalTensor (acc : Option (MmDict (MmValue ρ))) (new : MmDict (List ρ)) :
    MmDict (MmValue ρ) :=
  match acc with
  | none => fun k => (new k).map .tensor
  | some d => fun k =>
    match d k, new k with
    | x, none => x
    | none, some v => some (.tensor v)
    | some x, some v => some (x.add v)

def consolidateMultimodalTensors (d : MmDict (MmValue ρ)) : MmDict (MmValue ρ) := fun k =>
  (d k).map MmValue.consolidate

/-! ## Outputs and the collector -/

/-- The `token_ids` of a completion: the list of the detokenizer, or a copy. -/
inductive TokenIds (τ : Type*)
  | shared
  | copied (ids : List τ)

/-- What a reader sees, given the list of the detokenizer. -/
def TokenIds.read (ids : List τ) : TokenIds τ → List τ
  | .shared => ids
  | .copied ids' => ids'

/-- An output: the token ids and dictionary of its completion, whether the request's dictionary is
attached, and whether it is finished. `steps` counts the engine-core outputs up to it. -/
structure StreamOutput (τ ρ : Type*) where
  tokenIds : TokenIds τ
  multimodalOutput : Option (MmDict (MmValue ρ))
  attached : Bool
  finished : Bool
  steps : ℕ

/-- `RequestOutput.add` without aggregation. -/
def StreamOutput.add (o next : StreamOutput τ ρ) : StreamOutput τ ρ :=
  { next with attached := o.attached, finished := o.finished || next.finished }

def collectorPut (pending : Option (StreamOutput τ ρ)) (o : StreamOutput τ ρ) : StreamOutput τ ρ :=
  pending.elim o fun p => p.add o

/-! ## The processor -/

/-- The classes of detokenizers. -/
inductive DetokenizerKind
  | plain
  | fast
  | slow
  deriving DecidableEq

/-- What is fixed for a request. -/
structure StreamConfig where
  detokenizer : DetokenizerKind
  promptLen : ℕ
  mmType : Option Key := none

/-- `output_token_ids` is a slice. -/
def StreamConfig.copies (C : StreamConfig) : Bool := C.detokenizer = .slow && C.promptLen ≠ 0

/-- The state of a request: tokens, dictionary, collector, what the consumer has got, and the tokens
and payloads of all engine-core outputs. -/
structure ThinkerStream (τ ρ : Type*) where
  tokenIds : List τ := []
  mmAccumulated : Option (MmDict (MmValue ρ)) := none
  collector : Option (StreamOutput τ ρ) := none
  delivered : List (StreamOutput τ ρ) := []
  tokens : List (List τ) := []
  payloads : List (MmDict (List ρ)) := []
  done : Bool := false

inductive ThinkerAct (τ ρ : Type*)
  /-- An engine-core output is processed. -/
  | step (new : List τ) (payload : Option (List (Key × List ρ))) (finished : Bool)
  /-- The consumer gets the pending output. -/
  | get

/-- The dictionary after an engine-core output. -/
def ThinkerStream.accumulate (C : StreamConfig) (st : ThinkerStream τ ρ) :
    Option (List (Key × List ρ)) → Option (MmDict (MmValue ρ))
  | none => st.mmAccumulated.map consolidateMultimodalTensors
  | some payload =>
    some (consolidateMultimodalTensors
      (addMultimodalTensor st.mmAccumulated (incoming C.mmType payload)))

/-- The output that `make_request_output` makes. -/
def ThinkerStream.newOutput (C : StreamConfig) (st : ThinkerStream τ ρ) (new : List τ)
    (payload : Option (List (Key × List ρ))) (finished : Bool) : StreamOutput τ ρ where
  tokenIds := if C.copies then .copied (st.tokenIds ++ new) else .shared
  multimodalOutput := st.accumulate C payload
  attached := (st.accumulate C payload).isSome
  finished := finished
  steps := st.payloads.length + 1

/-- `process_outputs` for one engine-core output of the request. -/
def ThinkerStream.process (C : StreamConfig) (st : ThinkerStream τ ρ) (new : List τ)
    (payload : Option (List (Key × List ρ))) (finished : Bool) : ThinkerStream τ ρ :=
  let ro := st.newOutput C new payload finished
  -- an unfinished output with a payload is put by `make_request_output` as well
  let pending := if ro.attached && !finished then some (collectorPut st.collector ro)
    else st.collector
  { st with
    tokenIds := st.tokenIds ++ new
    mmAccumulated := st.accumulate C payload
    collector := some (collectorPut pending ro)
    tokens := st.tokens ++ [new]
    payloads := st.payloads ++ [(payload.map (incoming C.mmType)).getD fun _ => none]
    done := finished }

def thinkerStep (C : StreamConfig) (st : ThinkerStream τ ρ) :
    ThinkerAct τ ρ → Option (ThinkerStream τ ρ)
  | .step new payload finished => if st.done then none else some (st.process C new payload finished)
  | .get => st.collector.map fun o =>
    { st with collector := none, delivered := st.delivered ++ [o] }

/-! ## What an output should hold -/

/-- The entries of a dictionary that may be absent. -/
def dictOf {ν : Type*} (d : Option (MmDict ν)) : MmDict ν := d.getD fun _ => none

/-- Each value as a tensor. -/
def tensors (d : MmDict (List ρ)) : MmDict (MmValue ρ) := fun k => (d k).map .tensor

/-- The concatenation of the payloads for each key that one of them has. -/
def rowsOf (payloads : List (MmDict (List ρ))) : MmDict (List ρ) := fun k =>
  match payloads.filterMap fun p => p k with
  | [] => none
  | v :: vs => some (v :: vs).flatten

/-- A reader finds the tokens of the first steps, and under each key the rows of their payloads:
those of the prompt, and one for each later step. -/
structure HoldsPrefix (C : StreamConfig) (st : ThinkerStream τ ρ) (o : StreamOutput τ ρ) :
    Prop where
  tokens : o.tokenIds.read st.tokenIds = (st.tokens.take o.steps).flatten
  rows : dictOf o.multimodalOutput = tensors (rowsOf (st.payloads.take o.steps))
  count : ∀ k rows, (∀ p ∈ st.payloads.take o.steps, (p k).isSome) →
    rowsOf (st.payloads.take o.steps) k = some rows → rows.length + 1 = C.promptLen + o.steps

/-- Every output that the consumer has got holds a longer prefix of the stream than the one before;
and when the request is finished and nothing is pending, the last is finished and holds the whole
stream. -/
structure Coherent (C : StreamConfig) (st : ThinkerStream τ ρ) : Prop where
  holds : ∀ o ∈ st.delivered, HoldsPrefix C st o
  increasing : (st.delivered.map StreamOutput.steps).Pairwise (· < ·)
  last : st.done = true → st.collector = none →
    ∃ o, st.delivered.getLast? = some o ∧ o.finished = true ∧ o.steps = st.payloads.length

/-- The same with the dictionary that is attached to the request output. -/
structure WhollyCoherent (C : StreamConfig) (st : ThinkerStream τ ρ) : Prop extends
    Coherent C st where
  attached : ∀ o ∈ st.delivered, o.attached = true →
    dictOf st.mmAccumulated = tensors (rowsOf (st.payloads.take o.steps))

/-- Engine-core outputs of a thinker: one token and a payload of top-level tensors each, with the
rows of the prompt in the first and one row in each later one. -/
def ThinkerOutput (C : StreamConfig) (st : ThinkerStream τ ρ) : ThinkerAct τ ρ → Prop
  | .step new payload _ => new.length = 1 ∧ ∃ items, payload = some items ∧
      ∀ item ∈ items, item.2.length = if st.payloads = [] then C.promptLen else 1
  | .get => True

/-- The detokenizer gives copies, or the consumer has not got an output yet. -/
def TokensKept (C : StreamConfig) (st : ThinkerStream τ ρ) : ThinkerAct τ ρ → Prop
  | .step .. => C.copies = true ∨ st.delivered = []
  | .get => True

/-- The consumer has not got an output yet, or the detokenizer gives copies and the payload is
empty. -/
def Undisturbed (C : StreamConfig) (st : ThinkerStream τ ρ) : ThinkerAct τ ρ → Prop
  | .step _ payload _ => st.delivered = [] ∨ (C.copies = true ∧ payload = some [])
  | .get => True

instance (C : StreamConfig) (st : ThinkerStream τ ρ) : DecidablePred (ThinkerOutput C st) :=
  fun a => by
    unfold ThinkerOutput
    split <;> infer_instance

instance (C : StreamConfig) (st : ThinkerStream τ ρ) : DecidablePred (TokensKept C st) :=
  fun a => by
    unfold TokensKept
    split <;> infer_instance

/-! ## Payloads add up -/

/-- One more payload. -/
lemma rowsOf_append (ps : List (MmDict (List ρ))) (p : MmDict (List ρ)) (k : Key) :
    rowsOf (ps ++ [p]) k = match rowsOf ps k, p k with
      | x, none => x
      | none, some v => some v
      | some rows, some v => some (rows ++ v) := by
  unfold rowsOf
  rw [filterMap_append]
  cases hp : p k with
  | none => simp [hp]
  | some v =>
    cases ps.filterMap fun q => q k with
    | nil => simp [hp]
    | cons w ws => simp [hp]

variable {ps : List (MmDict (List ρ))} {k : Key} {items : List (Key × List ρ)}
  {o : StreamOutput τ ρ} {new : List τ}

/-- A key that no payload has. -/
lemma rowsOf_eq_none_iff : rowsOf ps k = none ↔ ∀ p ∈ ps, p k = none := by
  rw [← filterMap_eq_nil_iff, rowsOf]
  cases ps.filterMap fun p => p k with
  | nil => simp
  | cons v vs => simp

lemma consolidate_add (acc : Option (MmDict (MmValue ρ))) (new : MmDict (List ρ))
    (h : dictOf acc = tensors (rowsOf ps)) :
    consolidateMultimodalTensors (addMultimodalTensor acc new) =
      tensors (rowsOf (ps ++ [new])) := by
  funext k
  have hk : dictOf acc k = (rowsOf ps k).map .tensor := congrFun h k
  simp only [consolidateMultimodalTensors, tensors, rowsOf_append]
  cases acc with
  | none =>
    have hrows : rowsOf ps k = none := map_eq_none_iff.mp hk.symm
    simp only [hrows, addMultimodalTensor]
    cases new k with
    | none => rfl
    | some v => rfl
  | some d =>
    have hd : d k = (rowsOf ps k).map .tensor := hk
    simp only [addMultimodalTensor, hd]
    cases rowsOf ps k with
    | none =>
      cases new k with
      | none => rfl
      | some v => rfl
    | some rows =>
      cases new k with
      | none => rfl
      | some v => simp [MmValue.add, MmValue.consolidate]

/-- The value that a payload has for a key is that of one of its items. -/
lemma mem_of_incoming {mmType : Option Key} {v : List ρ} (h : incoming mmType items k = some v) :
    ∃ item ∈ items, item.2 = v := by
  obtain ⟨item, hfind, rfl⟩ := map_eq_some_iff.mp h
  exact ⟨item, mem_reverse.mp (mem_of_find?_eq_some hfind), rfl⟩

lemma exists_incoming (mmType : Option Key) (h : items ≠ []) :
    ∃ k v, incoming mmType items k = some v := by
  obtain ⟨item, hitem⟩ := exists_mem_of_ne_nil items h
  refine ⟨targetKey mmType item.1, ?_⟩
  apply isSome_iff_exists.mp
  rw [incoming, isSome_map, find?_isSome]
  exact ⟨item, mem_reverse.mpr hitem, by simp⟩

lemma length_rowsOf {P : ℕ} {rows : List ρ}
    (hsizes : ∀ i p, ps[i]? = some p → ∀ v, p k = some v → v.length = if i = 0 then P else 1)
    (hall : ∀ p ∈ ps, (p k).isSome) (hrows : rowsOf ps k = some rows) :
    rows.length + 1 = P + ps.length := by
  induction ps using reverseRecOn generalizing rows with
  | nil => simp [rowsOf] at hrows
  | append_singleton ps p ih =>
    obtain ⟨v, hv⟩ := isSome_iff_exists.mp (hall p (by simp))
    have hsize := hsizes ps.length p (by simp) v hv
    rw [rowsOf_append, hv] at hrows
    have hsizes' : ∀ i q, ps[i]? = some q → ∀ v, q k = some v →
        v.length = if i = 0 then P else 1 := by
      intro i q hq
      apply hsizes i q
      rw [getElem?_append_left (List.getElem?_eq_some_iff.mp hq).1, hq]
    cases hps : rowsOf ps k with
    | none =>
      have hempty : ps = [] := by
        apply eq_nil_iff_forall_not_mem.mpr
        intro q hq
        have hsome := hall q (mem_append_left _ hq)
        rw [rowsOf_eq_none_iff.mp hps q hq] at hsome
        cases hsome
      subst hempty
      obtain rfl : v = rows := by simpa [hps] using hrows
      simpa using hsize
    | some rows' =>
      have hne : ps.length ≠ 0 := by
        intro hzero
        rw [length_eq_zero_iff.mp hzero] at hps
        cases hps
      obtain rfl : rows' ++ v = rows := by simpa [hps] using hrows
      have hprev := ih hsizes' (fun q hq => hall q (mem_append_left _ hq)) hps
      rw [if_neg hne] at hsize
      rw [length_append, length_append, hsize]
      simp only [length_cons, length_nil]
      omega

/-! ## The invariant of the stream -/

variable {C : StreamConfig} {st st' : ThinkerStream τ ρ} {a : ThinkerAct τ ρ}

/-- The output was made after `o.steps` steps. -/
structure MadeAt (C : StreamConfig) (st : ThinkerStream τ ρ) (o : StreamOutput τ ρ) : Prop where
  pos : 0 < o.steps
  le : o.steps ≤ st.payloads.length
  tokenIds : o.tokenIds =
    if C.copies then .copied (st.tokens.take o.steps).flatten else .shared
  rows : dictOf o.multimodalOutput = tensors (rowsOf (st.payloads.take o.steps))
  attached : o.attached = true

/-- The tokens and the dictionary are those of the steps so far, the pending output is that of the
last step, and every output got was made earlier than the next one. -/
structure ThinkerInv (C : StreamConfig) (st : ThinkerStream τ ρ) : Prop where
  tokenIds : st.tokenIds = st.tokens.flatten
  length : st.tokens.length = st.payloads.length
  dict : dictOf st.mmAccumulated = tensors (rowsOf st.payloads)
  sizes : ∀ (i : ℕ) (p : MmDict (List ρ)), st.payloads[i]? = some p →
    ∀ (k : Key) (v : List ρ), p k = some v → v.length = if i = 0 then C.promptLen else 1
  pending : ∀ o, st.collector = some o → MadeAt C st o ∧ o.steps = st.payloads.length ∧
    o.finished = st.done ∧ ∀ o' ∈ st.delivered, o'.steps < o.steps
  delivered : ∀ o ∈ st.delivered, MadeAt C st o
  increasing : (st.delivered.map StreamOutput.steps).Pairwise (· < ·)
  started : st.done = true → st.payloads ≠ []
  last : st.collector = none → st.payloads ≠ [] →
    ∃ o, st.delivered.getLast? = some o ∧ o.steps = st.payloads.length ∧ o.finished = st.done

/-- An output stays as it was made when a step is added. -/
lemma MadeAt.step (h : MadeAt C st o) (hinv : ThinkerInv C st) {p : MmDict (List ρ)}
    (htokens : st'.tokens = st.tokens ++ [new]) (hpayloads : st'.payloads = st.payloads ++ [p]) :
    MadeAt C st' o where
  pos := h.pos
  le := by
    rw [hpayloads, length_append]
    exact h.le.trans (Nat.le_add_right _ _)
  tokenIds := by
    rw [htokens, take_append_of_le_length (hinv.length ▸ h.le)]
    exact h.tokenIds
  rows := by
    rw [hpayloads, take_append_of_le_length h.le]
    exact h.rows
  attached := h.attached

/-- An engine-core output is processed while the request is not finished. -/
lemma process_of_thinkerStep {payload : Option (List (Key × List ρ))} {finished : Bool}
    (hstep : thinkerStep C st (.step new payload finished) = some st') :
    st.done = false ∧ st' = st.process C new payload finished := by
  simp only [thinkerStep] at hstep
  split at hstep
  · cases hstep
  · exact ⟨Bool.eq_false_iff.mpr ‹_›, (some.inj hstep).symm⟩

lemma rowsOf_append_eq_iff (mmType : Option Key) (ps : List (MmDict (List ρ)))
    (hsizes : ∀ item ∈ items, item.2.length = 1) :
    tensors (rowsOf (ps ++ [incoming mmType items])) = tensors (rowsOf ps) ↔ items = [] := by
  constructor
  · intro heq
    by_contra hitems
    obtain ⟨k, v, hv⟩ := exists_incoming mmType hitems
    obtain ⟨item, hitem, rfl⟩ := mem_of_incoming hv
    have hk := congrFun heq k
    simp only [tensors, rowsOf_append, hv] at hk
    cases hrows : rowsOf ps k with
    | none => simp [hrows] at hk
    | some rows =>
      have hlength := hsizes item hitem
      simp only [hrows, map_some, some.injEq, MmValue.tensor.injEq,
        append_right_eq_self] at hk
      rw [hk] at hlength
      cases hlength
  · rintro rfl
    funext k
    simp only [tensors, rowsOf_append]
    rfl

section

variable (hinv : ThinkerInv C st)
include hinv

/-- The pending output after a step is the new one: what was pending has been merged into it. -/
lemma process_collector (hdone : st.done = false) (new : List τ)
    (items : List (Key × List ρ)) (finished : Bool) :
    (st.process C new (some items) finished).collector =
      some (st.newOutput C new (some items) finished) := by
  have hself : ∀ o : StreamOutput τ ρ, o.add o = o := by
    intro o
    simp [StreamOutput.add]
  have hput : collectorPut st.collector (st.newOutput C new (some items) finished) =
      st.newOutput C new (some items) finished := by
    cases hp : st.collector with
    | none => rfl
    | some p =>
      obtain ⟨hmade, -, hfinished, -⟩ := hinv.pending p hp
      simp only [collectorPut, elim_some, StreamOutput.add, hmade.attached, hfinished,
        hdone, Bool.false_or]
      rfl
  simp only [ThinkerStream.process, some.injEq, hput]
  split
  · exact hself _
  · exact hput

lemma madeAt_newOutput (new : List τ) (items : List (Key × List ρ))
    (finished : Bool) :
    MadeAt C (st.process C new (some items) finished)
      (st.newOutput C new (some items) finished) := by
  have htokens : (st.process C new (some items) finished).tokens = st.tokens ++ [new] := rfl
  have hpayloads : (st.process C new (some items) finished).payloads =
    st.payloads ++ [incoming C.mmType items] := rfl
  have htake : (st.newOutput C new (some items) finished).steps = st.payloads.length + 1 := rfl
  have hdict := consolidate_add st.mmAccumulated (incoming C.mmType items) hinv.dict
  constructor
  · exact Nat.succ_pos _
  · rw [hpayloads, length_append]
    exact le_rfl
  · rw [htake, htokens, take_of_length_le (by simp [hinv.length]), flatten_append,
      ← hinv.tokenIds, flatten_singleton]
    rfl
  · rw [htake, hpayloads, take_of_length_le (by simp), ← hdict]
    rfl
  · rfl

/-- The payload that a step adds has the rows of its place among the steps. -/
lemma length_of_payload
    (hsizes : ∀ item ∈ items, item.2.length = if st.payloads = [] then C.promptLen else 1) {i : ℕ}
    {p : MmDict (List ρ)} (hp : (st.payloads ++ [incoming C.mmType items])[i]? = some p)
    {v : List ρ} (hv : p k = some v) : v.length = if i = 0 then C.promptLen else 1 := by
  rcases lt_or_ge i st.payloads.length with hi | hi
  · rw [getElem?_append_left hi] at hp
    exact hinv.sizes i p hp k v hv
  · rw [getElem?_append_right hi] at hp
    rw [mem_singleton.mp (mem_of_getElem? hp)] at hv
    have hlast : i - st.payloads.length < 1 := (List.getElem?_eq_some_iff.mp hp).1
    have hzero : i = 0 ↔ st.payloads = [] := by
      rw [← length_eq_zero_iff]
      omega
    obtain ⟨item, hitem, rfl⟩ := mem_of_incoming hv
    simp only [hsizes item hitem, hzero]

/-- The invariant is kept by a step. -/
lemma ThinkerInv.process (hdone : st.done = false) (finished : Bool)
    (hsizes : ∀ item ∈ items, item.2.length = if st.payloads = [] then C.promptLen else 1) :
    ThinkerInv C (st.process C new (some items) finished) := by
  have hcollector := process_collector hinv hdone new items finished
  have htokens : (st.process C new (some items) finished).tokens = st.tokens ++ [new] := rfl
  have hpayloads : (st.process C new (some items) finished).payloads =
    st.payloads ++ [incoming C.mmType items] := rfl
  constructor
  · rw [htokens, flatten_append, ← hinv.tokenIds]
    simp [ThinkerStream.process]
  · rw [htokens, hpayloads, length_append, length_append, hinv.length]
    rfl
  · rw [hpayloads]
    exact consolidate_add st.mmAccumulated (incoming C.mmType items) hinv.dict
  · intro i p hp k v hv
    exact length_of_payload hinv hsizes hp hv
  · intro o ho
    cases hcollector.symm.trans ho
    refine ⟨madeAt_newOutput hinv new items finished, ?_, rfl, ?_⟩
    · rw [hpayloads, length_append]
      rfl
    · intro o' ho'
      exact Nat.lt_succ_of_le (hinv.delivered o' ho').le
  · intro o ho
    exact (hinv.delivered o ho).step hinv htokens hpayloads
  · exact hinv.increasing
  · intro _
    rw [hpayloads]
    exact append_ne_nil_of_right_ne_nil _ (cons_ne_nil _ _)
  · intro hnone
    rw [hcollector] at hnone
    cases hnone

lemma ThinkerInv.get (ho : st.collector = some o) :
    ThinkerInv C { st with collector := none, delivered := st.delivered ++ [o] } := by
  obtain ⟨hmade, hsteps, hfinished, hlater⟩ := hinv.pending o ho
  have hsame : ∀ o', MadeAt C st o' →
      MadeAt C { st with collector := none, delivered := st.delivered ++ [o] } o' :=
    fun o' h => ⟨h.pos, h.le, h.tokenIds, h.rows, h.attached⟩
  constructor
  · exact hinv.tokenIds
  · exact hinv.length
  · exact hinv.dict
  · exact hinv.sizes
  · nofun
  · intro o' ho'
    rcases mem_append.mp ho' with ho' | ho'
    · exact hsame o' (hinv.delivered o' ho')
    · exact mem_singleton.mp ho' ▸ hsame o hmade
  · rw [map_append, pairwise_append]
    refine ⟨hinv.increasing, pairwise_singleton _ _, ?_⟩
    simp only [map_cons, map_nil, mem_singleton, forall_eq, List.forall_mem_map]
    exact hlater
  · exact hinv.started
  · intro _ _
    exact ⟨o, getLast?_concat, hsteps, hfinished⟩

lemma thinkerInv_step (hdomain : ThinkerOutput C st a) (hstep : thinkerStep C st a = some st') :
    ThinkerInv C st' := by
  cases a with
  | step new payload finished =>
    obtain ⟨-, items, rfl, hsizes⟩ := hdomain
    obtain ⟨hdone, rfl⟩ := process_of_thinkerStep hstep
    exact hinv.process hdone finished hsizes
  | get =>
    obtain ⟨o, ho, rfl⟩ := map_eq_some_iff.mp hstep
    exact hinv.get ho

/-! ## What can change after the delivery -/

/-- Under the invariant, only the token ids of an output can be wrong. -/
lemma coherent_iff_tokens :
    Coherent C st ↔ ∀ o ∈ st.delivered,
      o.tokenIds.read st.tokenIds = (st.tokens.take o.steps).flatten := by
  constructor
  · intro h o ho
    exact (h.holds o ho).tokens
  · intro htokens
    constructor
    · intro o ho
      have hmade := hinv.delivered o ho
      refine ⟨htokens o ho, hmade.rows, ?_⟩
      intro k rows hall hrows
      have hlength : (st.payloads.take o.steps).length = o.steps := by
        rw [length_take, Nat.min_eq_left hmade.le]
      rw [← hlength]
      apply length_rowsOf _ hall hrows
      intro i p hp
      rw [getElem?_take] at hp
      split at hp
      · exact hinv.sizes i p hp k
      · cases hp
    · exact hinv.increasing
    · intro hdone hnone
      obtain ⟨o, ho, hsteps, hfinished⟩ := hinv.last hnone (hinv.started hdone)
      exact ⟨o, ho, hfinished.trans hdone, hsteps⟩

/-- The consumer gets an output that holds all steps so far. -/
lemma coherent_get (h : Coherent C st) (ho : st.collector = some o) :
    Coherent C { st with collector := none, delivered := st.delivered ++ [o] } := by
  rw [coherent_iff_tokens (hinv.get ho)]
  intro o' ho'
  rcases mem_append.mp ho' with ho' | ho'
  · exact (h.holds o' ho').tokens
  · obtain rfl := mem_singleton.mp ho'
    obtain ⟨hmade, hsteps, -, -⟩ := hinv.pending o' ho
    have htake : st.tokens.take o'.steps = st.tokens :=
      take_of_length_le (hinv.length.trans hsteps.symm).le
    rw [hmade.tokenIds, htake]
    split
    · rfl
    · exact hinv.tokenIds

/-- A step changes what the consumer has got, unless the detokenizer gives copies. -/
lemma coherent_process (h : Coherent C st) (hdone : st.done = false)
    (finished : Bool) (hnew : new.length = 1)
    (hsizes : ∀ item ∈ items, item.2.length = if st.payloads = [] then C.promptLen else 1) :
    Coherent C (st.process C new (some items) finished) ↔ C.copies = true ∨ st.delivered = [] := by
  rw [coherent_iff_tokens (hinv.process hdone finished hsizes)]
  have htake : ∀ o ∈ st.delivered, (st.tokens ++ [new]).take o.steps = st.tokens.take o.steps :=
    fun o ho => take_append_of_le_length (hinv.length ▸ (hinv.delivered o ho).le)
  constructor
  · intro htokens
    by_contra hcond
    obtain ⟨hcopies, hdelivered⟩ := not_or.mp hcond
    obtain ⟨o, ho⟩ := exists_mem_of_ne_nil _ hdelivered
    have hshared : o.tokenIds = .shared := by
      rw [(hinv.delivered o ho).tokenIds, if_neg hcopies]
    have hbefore := (h.holds o ho).tokens
    have hafter := htokens o ho
    rw [hshared] at hbefore hafter
    change st.tokenIds ++ new = ((st.tokens ++ [new]).take o.steps).flatten at hafter
    rw [htake o ho, ← hbefore] at hafter
    have hlength := congrArg List.length hafter
    rw [length_append] at hlength
    change st.tokenIds.length + new.length = st.tokenIds.length at hlength
    omega
  · rintro (hcopies | hdelivered) o ho
    · have hmade := hinv.delivered o ho
      rw [hmade.tokenIds, if_pos hcopies]
      change _ = ((st.tokens ++ [new]).take o.steps).flatten
      rw [htake o ho]
      rfl
    · change o ∈ st.delivered at ho
      rw [hdelivered] at ho
      cases ho

/-- The consumer gets an output with the dictionary of all steps so far. -/
lemma whollyCoherent_get (h : WhollyCoherent C st) (ho : st.collector = some o) :
    WhollyCoherent C { st with collector := none, delivered := st.delivered ++ [o] } := by
  refine ⟨coherent_get hinv h.toCoherent ho, ?_⟩
  intro o' ho' hattached
  rcases mem_append.mp ho' with ho' | ho'
  · exact h.attached o' ho' hattached
  · obtain rfl := mem_singleton.mp ho'
    obtain ⟨-, hsteps, -, -⟩ := hinv.pending o' ho
    change _ = tensors (rowsOf (st.payloads.take o'.steps))
    rw [hsteps, take_length]
    exact hinv.dict

/-- A step changes the dictionary of what the consumer has got. -/
lemma whollyCoherent_process (h : WhollyCoherent C st) (hdone : st.done = false) (finished : Bool)
    (hnew : new.length = 1)
    (hsizes : ∀ item ∈ items, item.2.length = if st.payloads = [] then C.promptLen else 1) :
    WhollyCoherent C (st.process C new (some items) finished) ↔
      st.delivered = [] ∨ (C.copies = true ∧ some items = some []) := by
  have hcoherent := coherent_process hinv h.toCoherent hdone finished hnew hsizes
  have hdict : dictOf (st.process C new (some items) finished).mmAccumulated =
      tensors (rowsOf (st.payloads ++ [incoming C.mmType items])) :=
    (hinv.process hdone finished hsizes).dict
  have htake : ∀ o ∈ st.delivered,
      (st.process C new (some items) finished).payloads.take o.steps =
        st.payloads.take o.steps :=
    fun o ho => take_append_of_le_length (hinv.delivered o ho).le
  by_cases hdelivered : st.delivered = []
  · refine iff_of_true ⟨hcoherent.mpr (.inr hdelivered), ?_⟩ (.inl hdelivered)
    intro o ho
    change o ∈ st.delivered at ho
    rw [hdelivered] at ho
    cases ho
  · obtain ⟨o, ho⟩ := exists_mem_of_ne_nil _ hdelivered
    have hmade := hinv.delivered o ho
    have hstarted : st.payloads ≠ [] :=
      ne_nil_of_length_pos (hmade.pos.trans_le hmade.le)
    simp only [if_neg hstarted] at hsizes
    have hrows := rowsOf_append_eq_iff C.mmType st.payloads hsizes
    rw [← hdict, ← hinv.dict] at hrows
    constructor
    · intro h'
      have hcopies := (hcoherent.mp h'.toCoherent).resolve_right hdelivered
      have hattached := h'.attached o ho hmade.attached
      rw [htake o ho, ← h.attached o ho hmade.attached] at hattached
      exact .inr ⟨hcopies, congrArg some (hrows.mp hattached)⟩
    · rintro (hnone | ⟨hcopies, hitems⟩)
      · exact absurd hnone hdelivered
      · refine ⟨hcoherent.mpr (.inl hcopies), ?_⟩
        intro o' ho' hattached
        rw [htake o' ho', ← h.attached o' ho' hattached]
        exact hrows.mpr (some.inj hitems)

end

/-- For every sequence of outputs of a thinker and every timing of the consumer: the completions are
coherent in every state iff each step is processed with a detokenizer that gives copies or before
the consumer has got an output; and with the attached dictionary, iff no step with a payload is
processed after that. -/
theorem coherent_iff_tokens_kept {acts : List (ThinkerAct τ ρ)}
    (hdomain : AllSteps (thinkerStep C) (ThinkerOutput C) {} acts)
    (hrun : run (thinkerStep C) {} acts = some st) :
    (EveryState (thinkerStep C) (Coherent C) {} acts ↔
      AllSteps (thinkerStep C) (TokensKept C) {} acts) ∧
    (EveryState (thinkerStep C) (WhollyCoherent C) {} acts ↔
      AllSteps (thinkerStep C) (Undisturbed C) {} acts) := by
  have hinv : ThinkerInv C ({} : ThinkerStream τ ρ) :=
    ⟨rfl, rfl, rfl, nofun, nofun, nofun, .nil, nofun, fun _ h => absurd rfl h⟩
  have hcoherent : Coherent C ({} : ThinkerStream τ ρ) := ⟨nofun, .nil, nofun⟩
  have hkept : ∀ (s : ThinkerStream τ ρ) (b : ThinkerAct τ ρ) (s' : ThinkerStream τ ρ),
      ThinkerInv C s → ThinkerOutput C s b → thinkerStep C s b = some s' → ThinkerInv C s' :=
    fun s b s' hs hb hstep => thinkerInv_step hs hb hstep
  constructor
  · refine everyState_iff_allSteps_of_guard hkept ?_ hinv hcoherent hdomain hrun
    intro s b s' hs hP hb hstep
    cases b with
    | step new payload finished =>
      obtain ⟨hnew, items, rfl, hsizes⟩ := hb
      obtain ⟨hdone, rfl⟩ := process_of_thinkerStep hstep
      exact coherent_process hs hP hdone finished hnew hsizes
    | get =>
      obtain ⟨o, ho, rfl⟩ := map_eq_some_iff.mp hstep
      exact iff_of_true (coherent_get hs hP ho) trivial
  · refine everyState_iff_allSteps_of_guard hkept ?_ hinv ⟨hcoherent, nofun⟩ hdomain hrun
    intro s b s' hs hP hb hstep
    cases b with
    | step new payload finished =>
      obtain ⟨hnew, items, rfl, hsizes⟩ := hb
      obtain ⟨hdone, rfl⟩ := process_of_thinkerStep hstep
      exact whollyCoherent_process hs hP hdone finished hnew hsizes
    | get =>
      obtain ⟨o, ho, rfl⟩ := map_eq_some_iff.mp hstep
      exact iff_of_true (whollyCoherent_get hs hP ho) trivial

/-- Two tokens after a prompt of two, with one payload key; the consumer gets both outputs. -/
def twoTokens : List (ThinkerAct ℕ ℕ) :=
  [.step [5] (some [(hiddenKey, [1, 2])]) false, .get,
    .step [6] (some [(hiddenKey, [3])]) true, .get]

/-- With the slow detokenizer the completions stay as they were. -/
theorem coherent_twoTokens_slow :
    EveryState (thinkerStep ⟨.slow, 2, none⟩) (Coherent ⟨.slow, 2, none⟩) {} twoTokens := by
  obtain ⟨st, hrun⟩ : ∃ st, run (thinkerStep ⟨.slow, 2, none⟩) {} twoTokens = some st :=
    isSome_iff_exists.mp (by decide +kernel)
  exact (coherent_iff_tokens_kept (by decide +kernel) hrun).1.mpr (by decide +kernel)

/-- With the fast detokenizer the first output, made with one token, has two after the second step,
and its dictionary all rows. -/
theorem delivered_output_changes : ∃ st, run (thinkerStep ⟨.fast, 2, none⟩) {}
    (twoTokens.take 3) = some st ∧
      (st.delivered.map fun o => (o.steps, o.tokenIds.read st.tokenIds,
        dictOf o.multimodalOutput hiddenKey)) = [(1, [5, 6], some (.tensor [1, 2]))] ∧
      dictOf st.mmAccumulated hiddenKey = some (.tensor [1, 2, 3]) :=
  exists_reached (by decide +kernel)

end OmniStreaming
