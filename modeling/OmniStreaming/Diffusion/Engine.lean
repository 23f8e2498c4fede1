import OmniStreaming.Diffusion.Rpc
import OmniStreaming.Lib.Slices

/-!
# Diffusion requests from the entry points to the workers

`AsyncOmniDiffusion.generate` and `OmniDiffusion.generate` make requests for `DiffusionEngine.step`,
which sends them to the workers with `add_req` and makes results of the images; the workers run
`execute_model`, and rank 0 replies.

Each layer has its own way to say that something failed. A worker replies with a dictionary,
`add_req` returns it, `step` turns every exception into `None`, and `generate` makes an output
without images of `None` (`failure_surfaces_iff`). `execute_model` runs the first request of its
list only, and `step` divides the images of that one among all requests (`prompts_answered_iff`).
-/

namespace OmniStreaming

open List

variable {κ γ τ ι : Type}

/-! ## Requests and outputs -/

/-- The `prompt` of a request. -/
inductive Prompt
  | text (s : String)
  | list (ss : List String)
  | none
  deriving DecidableEq

/-- The prompt that an output names. -/
def Prompt.shown : Prompt → Option String
  | .text s => some s
  | .list ss => ss.head?
  | .none => Option.none

/-- An `OmniDiffusionRequest`; `other` is what only the pipeline reads. -/
structure DiffusionRequest (κ γ : Type) where
  requestId : Option String
  prompt : Prompt
  numOutputsPerPrompt : ℕ
  numInferenceSteps : ℕ
  guidanceScale : γ
  other : κ

/-- A `DiffusionOutput` of a pipeline. -/
structure DiffusionOutput (τ : Type) where
  output : Option τ
  trajectoryTimesteps : Option (List τ) := none
  trajectoryLatents : Option τ := none
  error : Option String := none

/-- The `metrics` of an output. -/
inductive ImageMetrics (γ τ : Type)
  | empty
  | trajectory (timesteps : List τ)
  | sampling (numInferenceSteps : ℕ) (guidanceScale : γ)

/-- An `OmniRequestOutput` with images. -/
structure ImageOutput (γ τ ι : Type) where
  requestId : String
  images : List ι
  prompt : Option String
  metrics : ImageMetrics γ τ
  latents : Option τ

/-! ## Workers -/

/-- A worker: what it does before the forward pass (seed, cache refresh), and the forward pass. -/
structure DiffusionWorker (κ γ τ : Type) where
  prepare : DiffusionRequest κ γ → Except String Unit
  forward : DiffusionRequest κ γ → Except String (DiffusionOutput τ)

/-- `execute_model`: the first request is executed. -/
def DiffusionWorker.executeModel (w : DiffusionWorker κ γ τ) :
    List (DiffusionRequest κ γ) → Except String (DiffusionOutput τ)
  | [] => .error "Cannot execute model with empty request list"
  | req :: _ => do
    w.prepare req
    w.forward req

/-- The reply to a method that has ended with `outcome`. -/
def workerReply {ρ : Type} : Except String ρ → ReplyValue ρ
  | .ok v => .result v
  | .error message => .error message

/-- `add_req`: the workers `w` of all ranks execute the requests, and rank 0 replies. -/
def addReq (w : ℕ → DiffusionWorker κ γ τ) (requests : List (DiffusionRequest κ γ)) :
    ReplyValue (DiffusionOutput τ) :=
  workerReply ((w 0).executeModel requests)

/-! ## The engine -/

/-- What a post-processing function returns. -/
inductive PostImages (ι : Type)
  | list (images : List ι)
  | single (image : ι)
  | none

/-- `images` as a list. -/
def PostImages.toList : PostImages ι → List ι
  | .list images => images
  | .single image => [image]
  | .none => []

/-- The functions of an engine: pre-processing, post-processing, and the image without it. -/
structure DiffusionEngine (κ γ τ ι : Type) where
  preProcess : Option (DiffusionRequest κ γ → Except String (DiffusionRequest κ γ))
  postProcess : Option (τ → Except String (PostImages ι))
  ofTensor : τ → ι
  preProcess_count : ∀ f ∈ preProcess, ∀ request request', f request = .ok request' →
    request'.numOutputsPerPrompt = request.numOutputsPerPrompt

/-- What `step` returns: `None`, one output, or a list of outputs. -/
inductive StepResult (γ τ ι : Type)
  | none
  | single (o : ImageOutput γ τ ι)
  | list (os : List (ImageOutput γ τ ι))

namespace DiffusionEngine

variable (E : DiffusionEngine κ γ τ ι)

/-- Pre-processing of a request, if there is any. -/
def preProcessOne (request : DiffusionRequest κ γ) : Except String (DiffusionRequest κ γ) :=
  E.preProcess.elim (.ok request) fun f => f request

/-- Pre-processing of the requests, one after the other. -/
def preProcessed (requests : List (DiffusionRequest κ γ)) :
    Except String (List (DiffusionRequest κ γ)) :=
  requests.mapM E.preProcessOne

/-- Post-processing, if there is any. -/
def postProcessed (output : τ) : Except String (List ι) :=
  match E.postProcess with
  | none => .ok [E.ofTensor output]
  | some f => (f output).map PostImages.toList

/-- The output for a request. -/
def outputFor (output : DiffusionOutput τ) (images : List ι) (request : DiffusionRequest κ γ) :
    ImageOutput γ τ ι where
  requestId := request.requestId.getD ""
  images := images
  prompt := request.prompt.shown
  metrics := output.trajectoryTimesteps.elim .empty .trajectory
  latents := output.trajectoryLatents

/-- The images are divided by the counts of the requests, beginning at `imageIdx`. -/
def splitImages (output : DiffusionOutput τ) (images : List ι) :
    ℕ → List (DiffusionRequest κ γ) → List (ImageOutput γ τ ι)
  | _, [] => []
  | imageIdx, request :: requests =>
    outputFor output
        (if imageIdx < images.length then
          (images.drop imageIdx).take request.numOutputsPerPrompt
        else []) request ::
      splitImages output images (imageIdx + request.numOutputsPerPrompt) requests

/-- The images as the result for the requests. -/
def handOut (output : DiffusionOutput τ) (images : List ι) :
    List (DiffusionRequest κ γ) → StepResult γ τ ι
  | [request] => .single (outputFor output images request)
  | requests => .list (splitImages output images 0 requests)

/-- What `step` makes of an output without an error. -/
def collect (requests : List (DiffusionRequest κ γ)) (output : DiffusionOutput τ) :
    Except String (StepResult γ τ ι) :=
  match output.output with
  | none =>
    .ok (match requests with
      | request :: _ =>
        .single
          { requestId := request.requestId.getD ""
            images := []
            prompt := request.prompt.shown
            metrics := .empty
            latents := none }
      | [] => .none)
  | some tensor => (E.postProcessed tensor).map fun images => handOut output images requests

/-- What `step` makes of the reply: it reads `output.error`, which a dictionary does not have. -/
def readReply (requests : List (DiffusionRequest κ γ)) :
    ReplyValue (DiffusionOutput τ) → Except String (StepResult γ τ ι)
  | .error _ => .error "'dict' object has no attribute 'error'"
  | .result output =>
    if output.error.any (· ≠ "") then .error (output.error.getD "")
    else E.collect requests output

/-- The body of `step`. -/
def body (w : ℕ → DiffusionWorker κ γ τ) (requests : List (DiffusionRequest κ γ)) :
    Except String (StepResult γ τ ι) := do
  let requests ← E.preProcessed requests
  E.readReply requests (addReq w requests)

/-- `step`: every exception becomes `None`. -/
def step (w : ℕ → DiffusionWorker κ γ τ) (requests : List (DiffusionRequest κ γ)) :
    StepResult γ τ ι :=
  match E.body w requests with
  | .ok result => result
  | .error _ => .none

end DiffusionEngine

/-! ## The entry points -/

/-- `AsyncOmniDiffusion.generate`. The pool refuses `step` once the engine is closed, and the
exception becomes a `RuntimeError`. -/
def asyncGenerate (E : DiffusionEngine κ γ τ ι) (w : ℕ → DiffusionWorker κ γ τ) (closed : Bool)
    (requestId prompt : String) (numOutputsPerPrompt numInferenceSteps : ℕ) (guidanceScale : γ)
    (other : κ) : Except String (ImageOutput γ τ ι) :=
  let request : DiffusionRequest κ γ :=
    ⟨some requestId, .text prompt, numOutputsPerPrompt, numInferenceSteps, guidanceScale, other⟩
  if closed then
    .error "Diffusion generation failed: cannot schedule new futures after shutdown"
  else
    match E.step w [request] with
    | .single o => .ok (if o.requestId = "" then { o with requestId := requestId } else o)
    | _ =>
      -- a list has outputs and no images, and `None` has nothing
      .ok
        { requestId := requestId
          images := []
          prompt := some prompt
          metrics := .sampling numInferenceSteps guidanceScale
          latents := none }

/-- The options that all requests of `OmniDiffusion.generate` share. -/
structure GenerateOptions (κ γ : Type) where
  requestId : Option String := none
  numOutputsPerPrompt : ℕ
  numInferenceSteps : ℕ
  guidanceScale : γ
  other : κ

/-- The requests of a list of prompts, with their numbers as ids if no id is given. -/
def GenerateOptions.requests (opts : GenerateOptions κ γ) (prompts : List String) :
    List (DiffusionRequest κ γ) :=
  prompts.mapIdx fun i prompt =>
    { requestId := some (opts.requestId.getD (toString i))
      prompt := .text prompt
      numOutputsPerPrompt := opts.numOutputsPerPrompt
      numInferenceSteps := opts.numInferenceSteps
      guidanceScale := opts.guidanceScale
      other := opts.other }

/-- `OmniDiffusion.generate` for a list of prompts. -/
def omniGenerate (E : DiffusionEngine κ γ τ ι) (w : ℕ → DiffusionWorker κ γ τ)
    (opts : GenerateOptions κ γ) (prompts : List String) : StepResult γ τ ι :=
  E.step w (opts.requests prompts)

/-! ## Failures -/

variable {E : DiffusionEngine κ γ τ ι} {w : ℕ → DiffusionWorker κ γ τ}

/-- `add_req` returns what the protocol of the calls delivers when nothing is on the way. -/
lemma addReq_answered (s : RpcSystem (List (DiffusionRequest κ γ)) (DiffusionOutput τ))
    (hworkers : 0 < s.numGpus) (hidle : s.pending = none) (hqueue : s.resultMq = [])
    (hinbox : s.inbox 0 = []) (requests : List (DiffusionRequest κ γ)) :
    ∃ t, Transition.run rpcStep s
        [.call (.addReq requests), .work 0 ((w 0).executeModel requests), .receive] = some t ∧
      t.answered = s.answered ++ [⟨s.calls, [0], [⟨s.calls, 0, addReq w requests⟩], false⟩] := by
  have hreply : replyOf (RpcCall.addReq requests).request 0 ((w 0).executeModel requests) =
      some (addReq w requests) := by
    unfold addReq
    cases (w 0).executeModel requests <;> rfl
  simp [Transition.run, rpcStep, hidle, RpcSystem.beginCall, hinbox, hworkers, RpcSystem.handle,
    hqueue, hreply, RpcSystem.takeReply, RpcCall.expected, RpcCall.raisesFor]

/-- The engine after pre-processing. -/
lemma body_of_preProcessed {requests requests' : List (DiffusionRequest κ γ)}
    (h : E.preProcessed requests = .ok requests') :
    E.body w requests = E.readReply requests' (addReq w requests') := by
  rw [DiffusionEngine.body, h]
  rfl

/-- The worker of a rank raises while it executes a request. -/
def WorkerRaises (E : DiffusionEngine κ γ τ ι) (w : ℕ → DiffusionWorker κ γ τ) (rank : ℕ)
    (request : DiffusionRequest κ γ) : Prop :=
  ∃ requests message, E.preProcessed [request] = .ok requests ∧
    (w rank).executeModel requests = .error message

/-- If rank 0 raises, `step` returns `None`. -/
lemma step_of_workerRaises {request : DiffusionRequest κ γ} (h : WorkerRaises E w 0 request) :
    E.step w [request] = .none := by
  obtain ⟨requests, message, hpre, hraises⟩ := h
  rw [DiffusionEngine.step, body_of_preProcessed hpre, addReq, hraises]
  rfl

/-- An open engine never raises. -/
lemma asyncGenerate_ok (E : DiffusionEngine κ γ τ ι) (w : ℕ → DiffusionWorker κ γ τ)
    (requestId prompt : String) (outputs steps : ℕ) (scale : γ) (other : κ) :
    ∃ o, asyncGenerate E w false requestId prompt outputs steps scale other = .ok o := by
  unfold asyncGenerate
  dsimp only
  rw [if_neg Bool.false_ne_true]
  split
  · exact ⟨_, rfl⟩
  · exact ⟨_, rfl⟩

/-- The failures of the workers surface as an exception iff there are none or the engine is closed;
if rank 0 raises, an open engine returns an output without images. -/
theorem failure_surfaces_iff (E : DiffusionEngine κ γ τ ι) (w : ℕ → DiffusionWorker κ γ τ)
    (numGpus : ℕ) (closed : Bool) (requestId prompt : String) (outputs steps : ℕ) (scale : γ)
    (other : κ) :
    (((∃ rank < numGpus,
        WorkerRaises E w rank ⟨some requestId, .text prompt, outputs, steps, scale, other⟩) →
      ∃ message, asyncGenerate E w closed requestId prompt outputs steps scale other =
        .error message) ↔
      closed = true ∨ ∀ rank < numGpus,
        ¬ WorkerRaises E w rank ⟨some requestId, .text prompt, outputs, steps, scale, other⟩) ∧
    (WorkerRaises E w 0 ⟨some requestId, .text prompt, outputs, steps, scale, other⟩ →
      ∃ o, asyncGenerate E w false requestId prompt outputs steps scale other = .ok o ∧
        o.images = []) := by
  refine ⟨⟨fun hsurface => ?_, ?_⟩, fun hraises => ?_⟩
  · cases closed with
    | true => exact .inl rfl
    | false =>
      refine .inr fun rank hrank hraises => ?_
      obtain ⟨message, herror⟩ := hsurface ⟨rank, hrank, hraises⟩
      obtain ⟨o, hok⟩ := asyncGenerate_ok E w requestId prompt outputs steps scale other
      rw [hok] at herror
      cases herror
  · rintro (rfl | hnone) ⟨rank, hrank, hraises⟩
    · exact ⟨_, rfl⟩
    · exact absurd hraises (hnone rank hrank)
  · rw [asyncGenerate, if_neg Bool.false_ne_true, step_of_workerRaises hraises]
    exact ⟨_, rfl, rfl⟩

/-! ## Lists of prompts -/

/-- The outputs that `step` returns, where one output counts as a list of one. -/
def StepResult.outputs : StepResult γ τ ι → Option (List (ImageOutput γ τ ι))
  | .none => Option.none
  | .single o => some [o]
  | .list os => some os

/-- The images of an output. -/
def DiffusionEngine.imagesOf (E : DiffusionEngine κ γ τ ι) (output : DiffusionOutput τ) :
    Except String (List ι) :=
  if output.error.any (· ≠ "") then .error (output.error.getD "")
  else output.output.elim (.ok []) E.postProcessed

/-- The images that a worker generates from a request by itself. -/
def DiffusionEngine.generated (E : DiffusionEngine κ γ τ ι) (worker : DiffusionWorker κ γ τ)
    (request : DiffusionRequest κ γ) : Except String (List ι) := do
  let requests ← E.preProcessed [request]
  let output ← worker.executeModel requests
  E.imagesOf output

/-- There is one output for each prompt, in order, with the images generated from it. -/
def PromptsAnswered (E : DiffusionEngine κ γ τ ι) (w : ℕ → DiffusionWorker κ γ τ)
    (opts : GenerateOptions κ γ) (prompts : List String) : Prop :=
  ∃ os, (omniGenerate E w opts prompts).outputs = some os ∧
    List.Forall₂ (fun request o => E.generated (w 0) request = .ok o.images)
      (opts.requests prompts) os

variable {request request' : DiffusionRequest κ γ} {requests : List (DiffusionRequest κ γ)}
  {images : List ι}

lemma numOutputsPerPrompt_of_preProcessOne (h : E.preProcessOne request = .ok request') :
    request'.numOutputsPerPrompt = request.numOutputsPerPrompt := by
  unfold DiffusionEngine.preProcessOne at h
  cases hf : E.preProcess with
  | none =>
    rw [hf] at h
    rw [Except.ok.inj h]
  | some f =>
    rw [hf] at h
    exact E.preProcess_count f hf request request' h

lemma generated_eq_ok {worker : DiffusionWorker κ γ τ}
    (h : E.generated worker request = .ok images) :
    ∃ request' output, E.preProcessOne request = .ok request' ∧
      worker.executeModel [request'] = .ok output ∧ E.imagesOf output = .ok images := by
  unfold DiffusionEngine.generated at h
  cases hpre : E.preProcessOne request with
  | error message =>
    simp [DiffusionEngine.preProcessed, hpre] at h
    cases h
  | ok request' =>
    have hlist : E.preProcessed [request] = .ok [request'] :=
      Slices.mapM_eq_pure (g := fun _ => request') fun _ h => mem_singleton.mp h ▸ hpre
    rw [hlist] at h
    cases hexec : worker.executeModel [request'] with
    | error message =>
      simp [bind, Except.bind, hexec] at h
    | ok output =>
      refine ⟨request', output, rfl, hexec, ?_⟩
      simpa [bind, Except.bind, hexec] using h

/-- An output with images has no error, and its tensor is post-processed to them. -/
lemma imagesOf_eq_ok {output : DiffusionOutput τ} (h : E.imagesOf output = .ok images)
    (hsome : images ≠ []) :
    output.error.any (· ≠ "") = false ∧
      ∃ tensor, output.output = some tensor ∧ E.postProcessed tensor = .ok images := by
  unfold DiffusionEngine.imagesOf at h
  split at h
  · cases h
  · rename_i herror
    refine ⟨Bool.eq_false_iff.mpr herror, ?_⟩
    cases houtput : output.output with
    | none =>
      rw [houtput] at h
      exact absurd (Except.ok.inj h).symm hsome
    | some tensor =>
      rw [houtput] at h
      exact ⟨tensor, rfl, h⟩

/-- Requests of which the first yields images: `step` makes its result of these alone. -/
lemma step_of_generated {rest : List (DiffusionRequest κ γ)}
    (hfirst : E.generated (w 0) request = .ok images) (hsome : images ≠ [])
    (hrest : ∀ request ∈ rest, ∃ images, E.generated (w 0) request = .ok images) :
    ∃ (request' : DiffusionRequest κ γ) (rest' : List (DiffusionRequest κ γ))
      (output : DiffusionOutput τ),
      request'.numOutputsPerPrompt = request.numOutputsPerPrompt ∧ rest'.length = rest.length ∧
      E.step w (request :: rest) = DiffusionEngine.handOut output images (request' :: rest') := by
  obtain ⟨request', output, hpre, hexec, himages⟩ := generated_eq_ok hfirst
  obtain ⟨herror, tensor, houtput, hpost⟩ := imagesOf_eq_ok himages hsome
  -- the pre-processed requests
  have hall : ∀ x ∈ request :: rest,
      E.preProcessOne x = .ok ((E.preProcessOne x).toOption.getD x) := by
    intro x hx
    obtain ⟨images, hx⟩ : ∃ images, E.generated (w 0) x = .ok images := by
      obtain rfl | hx := mem_cons.mp hx
      · exact ⟨images, hfirst⟩
      · exact hrest x hx
    obtain ⟨x', -, hx', -⟩ := generated_eq_ok hx
    rw [hx']
    rfl
  have hlist := Slices.mapM_eq_pure hall
  rw [map_cons, hpre] at hlist
  refine ⟨request', rest.map fun x => (E.preProcessOne x).toOption.getD x, output,
    numOutputsPerPrompt_of_preProcessOne hpre, length_map _, ?_⟩
  have hreply : addReq w (request' :: rest.map fun x => (E.preProcessOne x).toOption.getD x) =
      .result output := congrArg workerReply hexec
  rw [DiffusionEngine.step, body_of_preProcessed hlist]
  simp only [Except.toOption, Option.getD_some] at hreply ⊢
  rw [hreply, DiffusionEngine.readReply, herror, if_neg Bool.false_ne_true,
    DiffusionEngine.collect, houtput]
  simp only [hpost]
  rfl

lemma numOutputsPerPrompt_of_mem {opts : GenerateOptions κ γ} {prompts : List String}
    (h : request ∈ opts.requests prompts) :
    request.numOutputsPerPrompt = opts.numOutputsPerPrompt := by
  obtain ⟨i, hi, rfl⟩ := mem_mapIdx.mp h
  rfl

/-- Where every prompt alone yields as many images as asked for, a list of prompts is answered iff
it has one entry; a list is returned iff it has not. -/
theorem prompts_answered_iff {opts : GenerateOptions κ γ} {prompts : List String}
    (hprompts : prompts ≠ []) (hcount : 0 < opts.numOutputsPerPrompt)
    (hgenerated : ∀ request ∈ opts.requests prompts, ∃ images,
      E.generated (w 0) request = .ok images ∧ images.length = opts.numOutputsPerPrompt) :
    (PromptsAnswered E w opts prompts ↔ prompts.length = 1) ∧
      ((∃ os, omniGenerate E w opts prompts = .list os) ↔ prompts.length ≠ 1) := by
  have hlength : (opts.requests prompts).length = prompts.length := length_mapIdx
  obtain ⟨request, rest, hrequests⟩ : ∃ request rest, opts.requests prompts = request :: rest :=
    exists_cons_of_ne_nil fun hnil => hprompts (by
      rw [hnil] at hlength
      exact eq_nil_of_length_eq_zero hlength.symm)
  rw [hrequests] at hgenerated
  obtain ⟨images, hfirst, himages⟩ := hgenerated request mem_cons_self
  have hsome : images ≠ [] := ne_nil_of_length_pos (himages ▸ hcount)
  obtain ⟨request', rest', output, hcount', hrest', hstep⟩ := step_of_generated hfirst hsome
    fun x hx => (hgenerated x (mem_cons_of_mem request hx)).imp fun _ h => h.1
  have hrequest : request.numOutputsPerPrompt = opts.numOutputsPerPrompt :=
    numOutputsPerPrompt_of_mem (hrequests ▸ mem_cons_self)
  unfold PromptsAnswered omniGenerate
  rw [hrequests, hstep, ← hlength, hrequests]
  cases rest with
  | nil =>
    obtain rfl := eq_nil_of_length_eq_zero hrest'
    refine ⟨iff_of_true ⟨_, rfl, .cons hfirst .nil⟩ rfl, iff_of_false ?_ (fun h => h rfl)⟩
    rintro ⟨os, hos⟩
    cases hos
  | cons second rest =>
    obtain ⟨second', rest', rfl⟩ := exists_cons_of_length_eq_add_one hrest'
    refine ⟨iff_of_false ?_ (by simp), iff_of_true ⟨_, rfl⟩ (by simp)⟩
    rintro ⟨os, hos, hanswers⟩
    -- the images of the first request are used up when the second one is handed its share
    have hempty : ¬ 0 + request'.numOutputsPerPrompt < images.length := by omega
    cases hos
    rw [DiffusionEngine.splitImages, DiffusionEngine.splitImages, if_neg hempty] at hanswers
    obtain ⟨-, hsecond⟩ := forall₂_cons.mp hanswers
    obtain ⟨himages₂, -⟩ := forall₂_cons.mp hsecond
    obtain ⟨images₂, hgenerated₂, hlength₂⟩ :=
      hgenerated second (mem_cons_of_mem request mem_cons_self)
    rw [himages₂] at hgenerated₂
    rw [← Except.ok.inj hgenerated₂] at hlength₂
    exact absurd hlength₂ (Nat.ne_of_lt hcount)

/-! ## An engine of two workers -/

def plainEngine : DiffusionEngine Unit Unit (List String) String where
  preProcess := none
  postProcess := some fun tensor => .ok (.list tensor)
  ofTensor := fun _ => ""
  preProcess_count := nofun

/-- A worker that paints the prompt as often as asked for. -/
def painter : DiffusionWorker Unit Unit (List String) where
  prepare _ := .ok ()
  forward request :=
    .ok { output := some (replicate request.numOutputsPerPrompt
      (request.prompt.shown.getD "")) }

/-- A worker that runs out of memory. -/
def brokenWorker : DiffusionWorker Unit Unit (List String) where
  prepare _ := .ok ()
  forward _ := .error "out of memory"

/-- The failure of rank 0 is returned as an output without images. -/
theorem failure_not_surfaced :
    WorkerRaises plainEngine (fun _ => brokenWorker) 0 ⟨some "r", .text "a cat", 1, 50, (), ()⟩ ∧
      asyncGenerate plainEngine (fun _ => brokenWorker) false "r" "a cat" 1 50 () () =
        .ok ⟨"r", [], some "a cat", .sampling 50 (), none⟩ :=
  ⟨⟨_, _, rfl, rfl⟩, rfl⟩

/-- A single prompt is answered. -/
theorem prompts_answered_one :
    PromptsAnswered plainEngine (fun _ => painter) ⟨none, 2, 50, (), ()⟩ ["a cat"] :=
  (prompts_answered_iff (by decide) (by decide) fun request hrequest => by
    obtain rfl := mem_singleton.mp hrequest
    exact ⟨["a cat", "a cat"], rfl, rfl⟩).1.mpr rfl

/-- The second of two prompts gets no images. -/
theorem second_prompt_unanswered :
    omniGenerate plainEngine (fun _ => painter) ⟨none, 1, 50, (), ()⟩ ["a cat", "a dog"] =
        .list [⟨"0", ["a cat"], some "a cat", .empty, none⟩,
          ⟨"1", [], some "a dog", .empty, none⟩] ∧
      plainEngine.generated painter ⟨some "1", .text "a dog", 1, 50, (), ()⟩ = .ok ["a dog"] :=
  ⟨rfl, rfl⟩

end OmniStreaming
