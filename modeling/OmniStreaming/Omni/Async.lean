import OmniStreaming.Duplex.RequestId
import OmniStreaming.Lib.Dict
import OmniStreaming.Lib.Transition

/-!
# Requests of the asynchronous orchestrator: `AsyncOmni.generate`

Each call of `generate` is a generator that takes a request through the stages: it waits for the
results of the current stage, hands them to the consumer where the stage has a final output, and
after the last one computes the inputs of the next stage. All calls share the stage objects, each
with one slot `engine_outputs`, and the dictionary `request_states`, through which the harvesters
find the queue of a request.

A generator runs from one suspension to the next without interruption. It is suspended in
`await req_state.queue.get()` and at every `yield`, and there it can be cancelled or closed.
-/

namespace OmniStreaming

open Dictionary

variable {π ο ι : Type*}

/-- What the calls share: which stages have a final output, and `process_engine_inputs` on the slot
of the stage before; no value if it raises. -/
structure OmniStages (π ο ι : Type*) where
  finalOutput : ℕ → Bool
  processEngineInputs : ℕ → ο → π → Option ι

/-- A result of a stage: the loaded outputs and whether they are finished, or an error. -/
inductive OmniResult (ο : Type*)
  | outputs (o : ο) (finished : Bool)
  | error
  deriving DecidableEq

/-- A generator waits for a result, has yielded outputs, is complete, has raised, or was cancelled
or closed. -/
inductive GenerateStatus
  | waiting
  | yielded (finished : Bool)
  | completed
  | raised
  | closed
  deriving Repr, DecidableEq

/-- A call of `generate`: its request, its stage, its `ClientRequestState`, and the outputs loaded
last. -/
structure OmniRequest (π ο : Type*) where
  rid : Key
  prompt : π
  finalStage : ℕ
  stage : ℕ := 0
  status : GenerateStatus := .waiting
  queue : List (OmniResult ο) := []
  stageId : Option ℕ := none
  own : Option ο := none

/-- The generator has ended. -/
def OmniRequest.ended (r : OmniRequest π ο) : Bool :=
  match r.status with
  | .waiting | .yielded _ => false
  | .completed | .raised | .closed => true

/-- Inputs submitted to a stage, with the request, what it had loaded last, and the request that had
set the slot. -/
structure OmniForward (π ο ι : Type*) where
  request : ℕ
  prompt : π
  own : Option ο
  source : ℕ
  stage : ℕ
  inputs : ι

/-- The orchestrator: the calls in order, `request_states`, each slot with the call that has set it,
and the inputs submitted. -/
structure AsyncOmni (π ο ι : Type*) where
  requests : List (OmniRequest π ο) := []
  requestStates : Dict Key ℕ := ∅
  slots : ℕ → Option (ℕ × ο) := fun _ => none
  forwards : List (OmniForward π ο ι) := []

inductive OmniAct (π ο : Type*)
  /-- `generate` is called and runs to its first suspension. -/
  | call (rid : Key) (prompt : π) (finalStage : ℕ)
  /-- The harvester of stage `i` delivers a result. -/
  | deliver (i : ℕ) (rid : Key) (m : OmniResult ο)
  /-- Call `n` runs to its next suspension; `sent` is the answer of the connector. -/
  | resume (n : ℕ) (sent : Bool)
  /-- Call `n` is cancelled, or closed by its consumer. -/
  | close (n : ℕ)

/-- Call `n` becomes `r`. -/
def AsyncOmni.setRequest (st : AsyncOmni π ο ι) (n : ℕ) (r : OmniRequest π ο) : AsyncOmni π ο ι :=
  { st with requests := st.requests.set n r }

/-- `generate` up to the loop: the request is entered and stage 0 gets its task. -/
def AsyncOmni.call (st : AsyncOmni π ο ι) (rid : Key) (prompt : π) (finalStage : ℕ) :
    AsyncOmni π ο ι :=
  { st with
    requests := st.requests ++ [{ rid := rid, prompt := prompt, finalStage := finalStage }]
    requestStates := setKeys st.requestStates [rid] st.requests.length }

variable (P : OmniStages π ο ι)

/-- The inputs of the next stage, with the call that has set the slot they are computed from. -/
def AsyncOmni.nextInputs (st : AsyncOmni π ο ι) (r : OmniRequest π ο) : Option (ℕ × ι) :=
  (st.slots r.stage).bind fun slot =>
    (P.processEngineInputs (r.stage + 1) slot.2 r.prompt).map fun x => (slot.1, x)

/-- After the last output of a stage: the next gets its inputs, or the request is complete.
Exceptions of `process_engine_inputs` and of a failed send leave the generator. -/
def AsyncOmni.forward (st : AsyncOmni π ο ι) (n : ℕ) (r : OmniRequest π ο) (sent : Bool) :
    AsyncOmni π ο ι :=
  if r.stage < r.finalStage then
    match st.nextInputs P r, sent with
    | some (source, x), true =>
      { st.setRequest n { r with stage := r.stage + 1, status := .waiting } with
        forwards := st.forwards ++
          [⟨n, r.prompt, r.own, source, r.stage + 1, x⟩] }
    | _, _ => st.setRequest n { r with status := .raised }
  else
    { st.setRequest n { r with status := .completed } with
      requestStates := popKeys st.requestStates (· = r.rid) }

/-- The rest of an iteration, behind the `yield`. -/
def AsyncOmni.proceed (st : AsyncOmni π ο ι) (n : ℕ) (r : OmniRequest π ο) (finished sent : Bool) :
    AsyncOmni π ο ι :=
  if finished then st.forward P n r sent else st.setRequest n { r with status := .waiting }

def AsyncOmni.handle (st : AsyncOmni π ο ι) (n : ℕ) (r : OmniRequest π ο) (m : OmniResult ο)
    (sent : Bool) : AsyncOmni π ο ι :=
  if r.stageId = some r.stage then
    match m with
    | .error => st.setRequest n { r with status := .raised }
    | .outputs o finished =>
      let r := { r with own := some o }
      let st := { st with slots := Function.update st.slots r.stage (some (n, o)) }
      if P.finalOutput r.stage then st.setRequest n { r with status := .yielded finished }
      else st.proceed P n r finished sent
  else st.setRequest n { r with status := .raised }

def omniStep (st : AsyncOmni π ο ι) :
    OmniAct π ο → Option (AsyncOmni π ο ι)
  | .call rid prompt finalStage => some (st.call rid prompt finalStage)
  | .deliver i rid m =>
    match st.requestStates.lookup rid with
    | none => some st
    | some n =>
      st.requests[n]?.map fun r =>
        st.setRequest n { r with queue := r.queue ++ [m], stageId := some i }
  | .resume n sent =>
    st.requests[n]?.bind fun r =>
      match r.status, r.queue with
      | .waiting, m :: rest => some (st.handle P n { r with queue := rest } m sent)
      | .yielded finished, _ => some (st.proceed P n r finished sent)
      | _, _ => none
  | .close n =>
    st.requests[n]?.bind fun r =>
      if r.ended then none else some (st.setRequest n { r with status := .closed })

end OmniStreaming
