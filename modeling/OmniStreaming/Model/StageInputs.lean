import OmniStreaming.Duplex.TokenRelay
import OmniStreaming.Lib.Tensor

/-!
# From stage to stage

The functions that make the prompts of a stage from the outputs of the stage before:
`thinker2talker`, which makes placeholders for the rows that the talker prefills, and
`talker2code2wav`, which flattens the codes for the vocoder.
-/

namespace OmniStreaming

open Tensors

/-! ## The outputs of the source stage -/

inductive StageInputError
  /-- `engine_input_source cannot be empty` -/
  | emptySource
  /-- `Invalid stage_id: {source_stage_id}` -/
  | invalidStage (id : ℕ)
  /-- `Stage {source_stage_id} has no outputs yet` -/
  | noOutputs (id : ℕ)
  /-- An index past the end of a tensor. -/
  | indexError
  deriving Repr, DecidableEq

/-- The outputs of the first source stage, where a stage is given by its `engine_outputs`. -/
def sourceOutputs {ω : Type*} (stageList : List (Option (List ω))) (engineInputSource : List ℕ) :
    Except StageInputError (List ω) :=
  match engineInputSource with
  | [] => .error .emptySource
  | id :: _ =>
    match stageList[id]? with
    | none => .error (.invalidStage id)
    | some none => .error (.noOutputs id)
    | some (some outputs) => .ok outputs

/-! ## Thinker to talker -/

/-- What the talker is told about an output of the thinker, with its tensors as lists of rows. -/
structure ThinkerInfo (ρ : Type) where
  thinkerEmbeddings : List ρ
  thinkerHiddenStates : List ρ
  thinkerSequences : List ℕ
  thinkerInputIds : List ℕ
  ttsBosEmbed : List (List ρ)
  ttsEosEmbed : List (List ρ)
  ttsPadEmbed : List (List ρ)

/-- An output of the thinker, with the layers `0` and `24` and the embeddings of the talker's
special tokens, of three dimensions each. -/
structure ThinkerEngineOutput (ρ : Type) where
  promptTokenIds : List ℕ
  tokenIds : List ℕ
  layer0 : List ρ
  layer24 : List ρ
  ttsBosEmbed : List (List ρ)
  ttsEosEmbed : List (List ρ)
  ttsPadEmbed : List (List ρ)

/-- A prompt of the talker. -/
structure TalkerPrompt (ρ : Type) where
  promptTokenIds : List ℕ
  additionalInformation : ThinkerInfo ρ

/-- The `info` of an output. -/
def thinkerInfo {ρ : Type} (o : ThinkerEngineOutput ρ) : ThinkerInfo ρ where
  thinkerEmbeddings := o.layer0
  thinkerHiddenStates := o.layer24
  thinkerSequences := o.promptTokenIds ++ o.tokenIds
  thinkerInputIds := o.promptTokenIds
  ttsBosEmbed := o.ttsBosEmbed
  ttsEosEmbed := o.ttsEosEmbed
  ttsPadEmbed := o.ttsPadEmbed

/-- The prompt of the talker for one output. -/
def talkerPrompt {ρ : Type} (o : ThinkerEngineOutput ρ) :
    Except StageInputError (TalkerPrompt ρ) := do
  let n ←
    if o.layer0.length = 1 then .ok 1
    else
      match computeTalkerPromptIdsLength o.promptTokenIds (o.promptTokenIds ++ o.tokenIds) with
      | some n => .ok n
      | none => .error .indexError
  .ok { promptTokenIds := List.replicate n 0, additionalInformation := thinkerInfo o }

/-- `thinker2talker`, for all outputs of the source stage. -/
def StageInputs.thinker2talker {ρ : Type} (stageList : List (Option (List (ThinkerEngineOutput ρ))))
    (engineInputSource : List ℕ) : Except StageInputError (List (TalkerPrompt ρ)) := do
  let outputs ← sourceOutputs stageList engineInputSource
  outputs.mapM talkerPrompt

/-! ## Talker to vocoder -/

/-- The prompt of the vocoder for a matrix of codes with a row for each frame: layer by layer. -/
def flattenCodes {α : Type*} (codes : NdTensor α) : List α :=
  let layers := codes.transpose 0 1
  (layers.view [layers.numel]).toList

/-- `talker2code2wav`, on the `code_predictor_codes` of the outputs. -/
def talker2code2wav {α : Type*} (stageList : List (Option (List (NdTensor α))))
    (engineInputSource : List ℕ) : Except StageInputError (List (List α)) := do
  let outputs ← sourceOutputs stageList engineInputSource
  .ok (outputs.map flattenCodes)

end OmniStreaming
