import OmniStreaming.Lib.Custody
import OmniStreaming.Lib.Transition

/-!
# The scheduling loop of the offline orchestrator: `Omni._run_generation`

All requests are submitted to stage 0. Then the loop visits the stages in their order, takes at
most one message from the output queue of each, and forwards the request or counts it as completed.
The counter is compared with the number of requests at the end of each pass.

Every task that a stage gets is answered by one result, which holds outputs or an error. The loop
skips an error, and also a request whose next inputs cannot be computed, without counting it.
`Settles` says that the loop is left, each request counted exactly once, at the end of the pass in
which the last result was consumed.
-/

namespace OmniStreaming

open Custody List Transition

variable {π ο ι μ : Type*} [DecidableEq μ]

/-! ## The stages and the requests -/

/-- What `get_final_stage_id_for_e2e` reads of a stage. -/
structure StageOutput (μ : Type*) where
  finalOutput : Bool
  finalOutputType : Option μ

/-- The last stage with a final output of a modality that is asked for, else the last stage. Unknown
modalities are ignored. -/
def getFinalStageIdForE2e (outputModalities : Option (List (Option μ)))
    (defaultModalities : List (Option μ)) (stages : List (StageOutput μ)) : ℕ :=
  let wanted := outputModalities.elim defaultModalities fun l => l.filter (· ∈ defaultModalities)
  -- a stage without type counts as well if the pipeline has such stages
  ((range stages.length).reverse.find? fun i =>
    stages[i]?.any fun s => s.finalOutput && decide (s.finalOutputType ∈ wanted)).getD
    (stages.length - 1)

lemma getFinalStageIdForE2e_lt (outputModalities : Option (List (Option μ)))
    (defaultModalities : List (Option μ)) {stages : List (StageOutput μ)} (h : stages ≠ []) :
    getFinalStageIdForE2e outputModalities defaultModalities stages < stages.length := by
  have hlast : stages.length - 1 < stages.length :=
    Nat.sub_one_lt (length_pos_iff.mpr h).ne'
  have hfind : ∀ p : ℕ → Bool,
      ((range stages.length).reverse.find? p).getD (stages.length - 1) < stages.length := by
    intro p
    cases hp : (range stages.length).reverse.find? p with
    | none => exact hlast
    | some i => exact mem_range.mp (mem_reverse.mp (mem_of_find?_eq_some hp))
  exact hfind _

/-- A call of `_run_generation`: the stages, the prompts with their modalities, and
`process_engine_inputs`; no value if it raises. -/
structure OfflineJob (π ο ι μ : Type*) where
  stages : List (StageOutput μ)
  stages_ne : stages ≠ []
  requests : List (π × Option (List (Option μ)))
  processEngineInputs : ℕ → ο → π → Option ι

/-- The modalities of the pipeline: the types of its stages. -/
def OfflineJob.outputModalities (J : OfflineJob π ο ι μ) : List (Option μ) :=
  J.stages.map StageOutput.finalOutputType

/-- The entry of `final_stage_id_to_prompt`. -/
def OfflineJob.finalStage (J : OfflineJob π ο ι μ) (r : ℕ) : ℕ :=
  getFinalStageIdForE2e (J.requests[r]?.bind Prod.snd) J.outputModalities J.stages

/-- The inputs of stage `i` for request `r`. -/
def OfflineJob.inputs (J : OfflineJob π ο ι μ) (i r : ℕ) (o : ο) : Option ι :=
  J.requests[r]?.bind fun q => J.processEngineInputs i o q.1

/-! ## The loop -/

/-- A message of a stage: `stage_ready`, or the result of request `r`, an error if it has no
outputs. -/
inductive OfflineMsg (ο : Type*)
  | stageReady
  | result (r : ℕ) (outputs : Option ο)

/-- A stage: the tasks that it has not answered, each a request and its inputs, and its output
queue. -/
structure OfflineStage (π ο ι : Type*) where
  tasks : List (ℕ × (π ⊕ ι)) := []
  outQ : List (OfflineMsg ο) := []

/-- Before the visit to stage `i` (behind the last, before the test of the counter), left, or
raised. -/
inductive LoopStand
  | visit (i : ℕ)
  | left
  | raised
  deriving DecidableEq

/-- The state of a call: stages, requests counted as completed, outputs yielded, and where the loop
stands. -/
structure OfflineOmni (π ο ι : Type*) where
  stages : ℕ → OfflineStage π ο ι := fun _ => {}
  completed : List ℕ := []
  yielded : List (ℕ × ο) := []
  stand : LoopStand

def OfflineOmni.setStage (st : OfflineOmni π ο ι) (i : ℕ) (g : OfflineStage π ο ι) :
    OfflineOmni π ο ι :=
  { st with stages := Function.update st.stages i g }

@[simp] lemma setStage_completed (st : OfflineOmni π ο ι) (i : ℕ) (g : OfflineStage π ο ι) :
    (st.setStage i g).completed = st.completed := rfl

def OfflineOmni.submit (st : OfflineOmni π ο ι) (i r : ℕ) (x : π ⊕ ι) : OfflineOmni π ο ι :=
  st.setStage i { st.stages i with tasks := (st.stages i).tasks ++ [(r, x)] }

/-- All requests are submitted to stage 0, and the loop is entered with the test of its counter. -/
def OfflineJob.start (J : OfflineJob π ο ι μ) : OfflineOmni π ο ι :=
  OfflineOmni.setStage { stand := .visit J.stages.length } 0
    { tasks := J.requests.mapIdx fun r q => (r, Sum.inl q.1) }

/-- The outputs of request `r` at stage `i`: it is forwarded or counted. An exception of
`process_engine_inputs` is logged, and a failed send is raised. -/
def OfflineOmni.consume (J : OfflineJob π ο ι μ) (st : OfflineOmni π ο ι) (i r : ℕ) (o : ο)
    (sent : Bool) : OfflineOmni π ο ι :=
  let st := { st with
    yielded :=
      if J.stages[i]?.any StageOutput.finalOutput then st.yielded ++ [(i, o)] else st.yielded }
  if i + 1 ≤ J.finalStage r then
    match J.inputs (i + 1) r o with
    | none => { st with stand := .visit (i + 1) }
    | some x =>
      if sent then { st.submit (i + 1) r (.inr x) with stand := .visit (i + 1) }
      else { st with stand := .raised }
  else { st with completed := st.completed ++ [r], stand := .visit (i + 1) }

/-- The loop visits stage `i`. -/
def OfflineOmni.visit (J : OfflineJob π ο ι μ) (st : OfflineOmni π ο ι) (i : ℕ) (sent : Bool) :
    OfflineOmni π ο ι :=
  match (st.stages i).outQ with
  | [] => { st with stand := .visit (i + 1) }
  | m :: rest =>
    let st := st.setStage i { st.stages i with outQ := rest }
    match m with
    | .stageReady | .result _ none => { st with stand := .visit (i + 1) }
    | .result r (some o) => st.consume J i r o sent

inductive OfflineAct (ο : Type*)
  /-- Stage `i` answers its `k`-th open task. -/
  | answer (i k : ℕ) (outputs : Option ο)
  /-- Stage `i` says that it is ready. -/
  | ready (i : ℕ)
  /-- The loop visits a stage, or tests its counter; `sent` is the answer of the connector. -/
  | poll (sent : Bool)

def offlineStep (J : OfflineJob π ο ι μ) (st : OfflineOmni π ο ι) :
    OfflineAct ο → Option (OfflineOmni π ο ι)
  | .answer i k outputs =>
    if i < J.stages.length then
      (st.stages i).tasks[k]?.map fun t =>
        st.setStage i ⟨(st.stages i).tasks.eraseIdx k,
          (st.stages i).outQ ++ [.result t.1 outputs]⟩
    else none
  | .ready i =>
    if i < J.stages.length then
      some (st.setStage i { st.stages i with outQ := (st.stages i).outQ ++ [.stageReady] })
    else none
  | .poll sent =>
    match st.stand with
    | .visit i =>
      if i < J.stages.length then some (st.visit J i sent)
      else if st.completed.length < J.requests.length then some { st with stand := .visit 0 }
      else some { st with stand := .left }
    | .left | .raised => none

/-- Request `r` is to be forwarded to stage `i`, and its inputs cannot be computed or sent. -/
def OfflineJob.stuck (J : OfflineJob π ο ι μ) (i r : ℕ) (o : ο) (sent : Bool) : Bool :=
  i ≤ J.finalStage r && !((J.inputs i r o).isSome && sent)

/-- The request that the next visit drops: its result is an error, or its next inputs cannot be
computed or sent. -/
def OfflineOmni.failing (J : OfflineJob π ο ι μ) (st : OfflineOmni π ο ι) (sent : Bool) :
    Option ℕ :=
  match st.stand with
  | .visit i =>
    if i < J.stages.length then
      match (st.stages i).outQ with
      | .result r none :: _ => some r
      | .result r (some o) :: _ => if J.stuck (i + 1) r o sent then some r else none
      | _ => none
    else none
  | .left | .raised => none

/-- The event drops no request. -/
def NothingFails (J : OfflineJob π ο ι μ) (st : OfflineOmni π ο ι) : OfflineAct ο → Prop
  | .poll sent => st.failing J sent = none
  | _ => True

instance (J : OfflineJob π ο ι μ) (st : OfflineOmni π ο ι) : DecidablePred (NothingFails J st) :=
  fun a => by
    unfold NothingFails
    split <;> infer_instance

/-! ## Sums over the open tasks and the results -/

section Measure

variable {β : Type*} [AddCancelCommMonoid β]

/-- The value `f r` of the request that a message is about. -/
def OfflineMsg.value (f : ℕ → β) : OfflineMsg ο → β
  | .stageReady => 0
  | .result r _ => f r

/-- The sum of `f` over the requests of the open tasks and of `h` over those of the results. -/
def OfflineStage.value (f h : ℕ → β) (g : OfflineStage π ο ι) : β :=
  (g.tasks.map fun t => f t.1).sum + (g.outQ.map (OfflineMsg.value h)).sum

/-- The sum over the first `n` stages. -/
def OfflineOmni.value (n : ℕ) (f h : ℕ → ℕ → β) (st : OfflineOmni π ο ι) : β :=
  ∑ i ∈ Finset.range n, (st.stages i).value (f i) (h i)

variable {J : OfflineJob π ο ι μ} {st st' : OfflineOmni π ο ι} {n i : ℕ} {f h : ℕ → ℕ → β}
  {g : OfflineStage π ο ι}

/-- A stage that gains `b` and loses `c` changes the sum by as much. -/
lemma value_setStage (hi : i < n) {b c : β}
    (hg : g.value (f i) (h i) + c = (st.stages i).value (f i) (h i) + b) :
    (st.setStage i g).value n f h + c = st.value n f h + b := by
  have hset : (st.setStage i g).value n f h + (st.stages i).value (f i) (h i) =
      st.value n f h + g.value (f i) (h i) :=
    sum_update (Finset.mem_range.mpr hi) (fun j g => g.value (f j) (h j)) st.stages g
  apply add_right_cancel (b := (st.stages i).value (f i) (h i))
  calc (st.setStage i g).value n f h + c + (st.stages i).value (f i) (h i)
      = (st.setStage i g).value n f h + (st.stages i).value (f i) (h i) + c := by abel
    _ = st.value n f h + (g.value (f i) (h i) + c) := by rw [hset, add_assoc]
    _ = st.value n f h + b + (st.stages i).value (f i) (h i) := by rw [hg]; abel

/-- A task is submitted. -/
lemma value_submit (hi : i < n) (r : ℕ) (x : π ⊕ ι) :
    (st.submit i r x).value n f h = st.value n f h + f i r := by
  rw [← add_zero ((st.submit i r x).value n f h)]
  apply value_setStage hi
  simp only [OfflineStage.value, map_append, List.sum_append, map_cons, map_nil,
    sum_cons, sum_nil]
  abel

/-- An open task is answered. -/
lemma value_answer (hi : i < n) {k : ℕ} {t : ℕ × (π ⊕ ι)} (ht : (st.stages i).tasks[k]? = some t)
    (outputs : Option ο) :
    (st.setStage i ⟨(st.stages i).tasks.eraseIdx k,
      (st.stages i).outQ ++ [.result t.1 outputs]⟩).value n f h + f i t.1 =
      st.value n f h + h i t.1 := by
  apply value_setStage hi
  have herase := sum_map_eraseIdx (fun t => f i t.1) ht
  simp only [OfflineStage.value, map_append, List.sum_append, map_cons, map_nil,
    sum_cons, sum_nil, OfflineMsg.value, ← herase]
  abel

/-- A stage says that it is ready. -/
lemma value_ready (hi : i < n) :
    (st.setStage i { st.stages i with
      outQ := (st.stages i).outQ ++ [.stageReady] }).value n f h = st.value n f h := by
  rw [← add_zero (OfflineOmni.value ..), ← add_zero (st.value n f h)]
  apply value_setStage hi
  simp [OfflineStage.value, OfflineMsg.value]

lemma value_pop (hi : i < n) {m : OfflineMsg ο} {rest : List (OfflineMsg ο)}
    (hq : (st.stages i).outQ = m :: rest) :
    (st.setStage i { st.stages i with outQ := rest }).value n f h + m.value (h i) =
      st.value n f h := by
  rw [← add_zero (st.value n f h)]
  apply value_setStage hi
  simp only [OfflineStage.value, hq, map_cons, sum_cons]
  abel

/-- A visit to stage `i` does nothing, or takes a result and drops, forwards or counts its request.
The last argument is the request dropped. -/
inductive Visited (n : ℕ) (f h : ℕ → ℕ → β) (i : ℕ) (st st' : OfflineOmni π ο ι) : Option ℕ → Prop
  | idle (hvalue : st'.value n f h = st.value n f h) (hcompleted : st'.completed = st.completed)
      (hstand : st'.stand = .visit (i + 1)) : Visited n f h i st st' none
  | dropped (r : ℕ) (hvalue : st'.value n f h + h i r = st.value n f h)
      (hcompleted : st'.completed = st.completed) : Visited n f h i st st' (some r)
  | forwarded (r : ℕ) (hlt : i + 1 < n)
      (hvalue : st'.value n f h + h i r = st.value n f h + f (i + 1) r)
      (hcompleted : st'.completed = st.completed) (hstand : st'.stand = .visit (i + 1)) :
      Visited n f h i st st' none
  | counted (r : ℕ) (hvalue : st'.value n f h + h i r = st.value n f h)
      (hcompleted : st'.completed = st.completed ++ [r]) (hstand : st'.stand = .visit (i + 1)) :
      Visited n f h i st st' none

lemma consume_visited {st₁ : OfflineOmni π ο ι} {r : ℕ}
    (hpop : st₁.value J.stages.length f h + h i r = st.value J.stages.length f h)
    (hcompleted : st₁.completed = st.completed) (o : ο) (sent : Bool) :
    Visited J.stages.length f h i st (st₁.consume J i r o sent)
      (if J.stuck (i + 1) r o sent then some r else none) := by
  unfold OfflineOmni.consume OfflineJob.stuck
  by_cases hle : i + 1 ≤ J.finalStage r
  · have hlt : i + 1 < J.stages.length := hle.trans_lt (getFinalStageIdForE2e_lt _ _ J.stages_ne)
    simp only [if_pos hle, decide_eq_true hle]
    cases hx : J.inputs (i + 1) r o with
    | none => exact .dropped r hpop hcompleted
    | some x =>
      cases sent with
      | false => exact .dropped r hpop hcompleted
      | true =>
        have hsubmit : (st₁.submit (i + 1) r (.inr x)).value J.stages.length f h + h i r =
            st.value J.stages.length f h + f (i + 1) r := by
          rw [value_submit hlt, ← hpop, add_right_comm]
        exact .forwarded r hlt (by exact hsubmit) (by exact hcompleted) rfl
  · simp only [if_neg hle, decide_eq_false hle]
    exact .counted r hpop (congrArg (· ++ [r]) hcompleted) rfl

/-- The loop visits stage `i`. -/
lemma visit_visited (hi : i < J.stages.length) (hst : st.stand = .visit i) (sent : Bool) :
    Visited J.stages.length f h i st (st.visit J i sent) (st.failing J sent) := by
  unfold OfflineOmni.visit OfflineOmni.failing
  simp only [hst, if_pos hi]
  cases hq : (st.stages i).outQ with
  | nil => exact .idle rfl rfl rfl
  | cons m rest =>
    have hpop := value_pop (f := f) (h := h) hi hq
    cases m with
    | stageReady =>
      have hvalue := (add_zero _).symm.trans hpop
      exact .idle (by exact hvalue) rfl rfl
    | result r outputs =>
      cases outputs with
      | none => exact .dropped r hpop rfl
      | some o => exact consume_visited hpop rfl o sent

end Measure

/-! ## Custody of the requests -/

variable {J : OfflineJob π ο ι μ} {st st' : OfflineOmni π ο ι} {a : OfflineAct ο}

/-- The requests that have an open task or a result that was not consumed. -/
def OfflineOmni.outstanding (J : OfflineJob π ο ι μ) (st : OfflineOmni π ο ι) : Multiset ℕ :=
  st.value J.stages.length (fun _ r => {r}) fun _ r => {r}

/-- How many answers can come: a task at stage `i` has at most one in each stage from `i` on. -/
def OfflineOmni.rank (J : OfflineJob π ο ι μ) (st : OfflineOmni π ο ι) : ℕ :=
  st.value J.stages.length (fun i _ => J.stages.length - i) fun i _ => J.stages.length - (i + 1)

/-- The request that an event drops. -/
def OfflineOmni.dropped (J : OfflineJob π ο ι μ) (st : OfflineOmni π ο ι) :
    OfflineAct ο → Option ℕ
  | .poll sent => st.failing J sent
  | .answer .. | .ready _ => none

/-- An answer costs one. -/
def OfflineAct.cost : OfflineAct ο → ℕ
  | .answer .. => 1
  | .ready _ | .poll _ => 0

section

variable (hstep : offlineStep J st a = some st')
include hstep

/-- What an event can do. -/
lemma offlineStep_cases :
    (∃ i k outputs t, a = .answer i k outputs ∧ i < J.stages.length ∧
      (st.stages i).tasks[k]? = some t ∧ st' = st.setStage i
        ⟨(st.stages i).tasks.eraseIdx k, (st.stages i).outQ ++ [.result t.1 outputs]⟩) ∨
    (∃ i, a = .ready i ∧ i < J.stages.length ∧ st' = st.setStage i
      { st.stages i with outQ := (st.stages i).outQ ++ [.stageReady] }) ∨
    (∃ i sent, a = .poll sent ∧ st.stand = .visit i ∧ i < J.stages.length ∧
      st' = st.visit J i sent) ∨
    ∃ i sent, a = .poll sent ∧ st.stand = .visit i ∧ ¬ i < J.stages.length ∧
      st' = { st with stand :=
        if st.completed.length < J.requests.length then .visit 0 else .left } := by
  cases a with
  | answer i k outputs =>
    simp only [offlineStep] at hstep
    split at hstep
    · rename_i hi
      obtain ⟨t, ht, rfl⟩ := Option.map_eq_some_iff.mp hstep
      exact .inl ⟨i, k, outputs, t, rfl, hi, ht, rfl⟩
    · cases hstep
  | ready i =>
    simp only [offlineStep] at hstep
    split at hstep
    · rename_i hi
      exact .inr (.inl ⟨i, rfl, hi, (Option.some.inj hstep).symm⟩)
    · cases hstep
  | poll sent =>
    simp only [offlineStep] at hstep
    split at hstep
    · rename_i i hstand
      split at hstep
      · rename_i hi
        exact .inr (.inr (.inl ⟨i, sent, rfl, hstand, hi, (Option.some.inj hstep).symm⟩))
      · rename_i hi
        refine .inr (.inr (.inr ⟨i, sent, rfl, hstand, hi, ?_⟩))
        split at hstep
        · rw [if_pos ‹_›]
          exact (Option.some.inj hstep).symm
        · rw [if_neg ‹_›]
          exact (Option.some.inj hstep).symm
    · cases hstep
    · cases hstep

/-- An event moves each request to one place, unless it drops it. -/
lemma outstanding_step :
    (st'.completed : Multiset ℕ) + st'.outstanding J + (st.dropped J a).toList =
      st.completed + st.outstanding J := by
  unfold OfflineOmni.outstanding
  rcases offlineStep_cases hstep with ⟨i, k, outputs, t, rfl, hi, ht, rfl⟩ | ⟨i, rfl, hi, rfl⟩ |
    ⟨i, sent, rfl, hstand, hi, rfl⟩ | ⟨i, sent, rfl, hstand, hi, rfl⟩
  · have hvalue := add_right_cancel (value_answer (f := fun _ r => ({r} : Multiset ℕ))
      (h := fun _ r => {r}) hi ht outputs)
    rw [hvalue, setStage_completed]
    exact add_zero _
  · rw [value_ready hi, setStage_completed]
    exact add_zero _
  · have hvisited := visit_visited (f := fun _ r => ({r} : Multiset ℕ)) (h := fun _ r => {r})
      hi hstand sent
    simp only [OfflineOmni.dropped]
    generalize st.failing J sent = lost at hvisited
    cases hvisited with
    | idle hvalue hcompleted hstand' =>
      rw [hvalue, hcompleted]
      exact add_zero _
    | dropped r hvalue hcompleted =>
      rw [← hvalue, hcompleted, add_assoc]
      rfl
    | forwarded r hlt hvalue hcompleted hstand' =>
      rw [add_right_cancel hvalue, hcompleted]
      exact add_zero _
    | counted r hvalue hcompleted hstand' =>
      rw [← hvalue, hcompleted, ← Multiset.coe_add, Multiset.coe_singleton]
      simp only [Option.toList_none, Multiset.coe_nil]
      abel
  · have hnone : st.failing J sent = none := by simp [OfflineOmni.failing, hstand, hi]
    simp only [OfflineOmni.dropped, hnone]
    exact add_zero _

/-- Every answer lowers the rank, and no event raises it. -/
lemma rank_step : st'.rank J + a.cost ≤ st.rank J := by
  unfold OfflineOmni.rank
  rcases offlineStep_cases hstep with ⟨i, k, outputs, t, rfl, hi, ht, rfl⟩ | ⟨i, rfl, hi, rfl⟩ |
    ⟨i, sent, rfl, hstand, hi, rfl⟩ | ⟨i, sent, rfl, hstand, hi, rfl⟩
  · have hvalue := value_answer (f := fun i _ => J.stages.length - i)
      (h := fun i _ => J.stages.length - (i + 1)) hi ht outputs
    simp only [OfflineAct.cost]
    omega
  · exact (value_ready hi).le
  · have hvisited := visit_visited (f := fun i _ => J.stages.length - i)
      (h := fun i _ => J.stages.length - (i + 1)) hi hstand sent
    simp only [OfflineAct.cost, add_zero]
    generalize st.failing J sent = lost at hvisited
    cases hvisited with
    | idle hvalue hcompleted hstand' => exact hvalue.le
    | dropped r hvalue hcompleted => omega
    | forwarded r hlt hvalue hcompleted hstand' => omega
    | counted r hvalue hcompleted hstand' => omega
  · exact le_rfl

/-- The loop is ended by an exception only when it drops a request. -/
lemma raised_step (hdropped : st.dropped J a = none) :
    st'.stand = .raised ↔ st.stand = .raised := by
  rcases offlineStep_cases hstep with ⟨i, k, outputs, t, rfl, hi, ht, rfl⟩ | ⟨i, rfl, hi, rfl⟩ |
    ⟨i, sent, rfl, hstand, hi, rfl⟩ | ⟨i, sent, rfl, hstand, hi, rfl⟩
  · exact Iff.rfl
  · exact Iff.rfl
  · have hvisited := visit_visited (f := fun _ _ => 0) (h := fun _ _ => 0) hi hstand sent
    rw [show st.failing J sent = none from hdropped] at hvisited
    rw [hstand]
    cases hvisited with
    | idle _ _ hstand' | forwarded _ _ _ _ hstand' | counted _ _ _ hstand' =>
      rw [hstand']
      exact iff_of_false nofun nofun
  · rw [hstand]
    split
    · exact iff_of_false nofun nofun
    · exact iff_of_false nofun nofun

end

/-- A request is never held twice. -/
def HeldOnce (J : OfflineJob π ο ι μ) (st : OfflineOmni π ο ι) : Prop :=
  (st.completed : Multiset ℕ) + st.outstanding J ≤ Multiset.range J.requests.length

/-- Each request is counted or outstanding, exactly once, and the loop has not been ended by an
exception. -/
def Sound (J : OfflineJob π ο ι μ) (st : OfflineOmni π ο ι) : Prop :=
  Balanced J.requests.length st.completed (st.outstanding J) ∧ st.stand ≠ .raised

/-- No event makes a request twice. -/
lemma heldOnce_step (h : HeldOnce J st) (hstep : offlineStep J st a = some st') :
    HeldOnce J st' := by
  apply le_trans _ h
  rw [← outstanding_step hstep]
  exact Multiset.le_add_right _ _

/-- The condition says that the event drops nothing. -/
lemma nothingFails_iff : NothingFails J st a ↔ st.dropped J a = none := by
  cases a with
  | answer i k outputs => exact iff_of_true trivial rfl
  | ready i => exact iff_of_true trivial rfl
  | poll sent => exact Iff.rfl

/-- An event keeps the call sound iff it drops no request, and no event restores it. -/
lemma sound_step (h : HeldOnce J st) (hstep : offlineStep J st a = some st') :
    Sound J st' ↔ Sound J st ∧ NothingFails J st a := by
  have hmove := outstanding_step hstep
  rw [nothingFails_iff]
  constructor
  · rintro ⟨hbalanced, hstand⟩
    have hlost : ((st.dropped J a).toList : Multiset ℕ) = 0 := by
      unfold HeldOnce at h
      rw [← hmove, hbalanced] at h
      have hcard := Multiset.card_le_card h
      rw [Multiset.card_add] at hcard
      exact Multiset.card_eq_zero.mp (by omega)
    have hdropped : st.dropped J a = none := by
      rwa [Multiset.coe_eq_zero, Option.toList_eq_nil_iff] at hlost
    rw [hdropped] at hmove
    refine ⟨⟨?_, ?_⟩, hdropped⟩
    · exact hmove.symm.trans ((add_zero _).trans hbalanced)
    · rwa [ne_eq, ← raised_step hstep hdropped]
  · rintro ⟨⟨hbalanced, hstand⟩, hdropped⟩
    rw [hdropped] at hmove
    refine ⟨?_, ?_⟩
    · exact (add_zero _).symm.trans (hmove.trans hbalanced)
    · rwa [ne_eq, raised_step hstep hdropped]

/-! ## The end of the loop -/

/-- The loop is left within the pass, and each request has been counted exactly once. -/
def Settles (J : OfflineJob π ο ι μ) (st : OfflineOmni π ο ι) : Prop :=
  ∃ k ≤ J.stages.length + 1, ∃ st',
    run (offlineStep J) st (replicate k (.poll true)) = some st' ∧ st'.stand = .left ∧
      (st'.completed : Multiset ℕ) = Multiset.range J.requests.length

lemma visit_idle {i : ℕ} (hstand : st.stand = .visit i) (hi : i < J.stages.length)
    (h : st.outstanding J = 0) (sent : Bool) :
    (st.visit J i sent).outstanding J = 0 ∧ (st.visit J i sent).completed = st.completed ∧
      (st.visit J i sent).stand = .visit (i + 1) := by
  have hvisited := visit_visited (f := fun _ r => ({r} : Multiset ℕ)) (h := fun _ r => {r})
    hi hstand sent
  have hnone : ∀ (s : Multiset ℕ) (r : ℕ), s + {r} ≠ 0 := by
    intro s r hzero
    have hcard := congrArg Multiset.card hzero
    rw [Multiset.card_add, Multiset.card_singleton] at hcard
    exact absurd hcard (Nat.succ_ne_zero _)
  unfold OfflineOmni.outstanding at h ⊢
  generalize st.failing J sent = lost at hvisited
  cases hvisited with
  | idle hvalue hcompleted hstand' => exact ⟨hvalue.trans h, hcompleted, hstand'⟩
  | dropped r hvalue _ => exact absurd (hvalue.trans h) (hnone _ r)
  | forwarded r hlt hvalue hcompleted hstand' =>
    exact ⟨(add_right_cancel hvalue).trans h, hcompleted, hstand'⟩
  | counted r hvalue _ _ => exact absurd (hvalue.trans h) (hnone _ r)

/-- The loop changes nothing while nothing is outstanding. -/
lemma poll_idle {sent : Bool} (h : st.outstanding J = 0)
    (hstep : offlineStep J st (.poll sent) = some st') :
    st'.outstanding J = 0 ∧ st'.completed = st.completed := by
  rcases offlineStep_cases hstep with ⟨i, k, outputs, t, ha, -⟩ | ⟨i, ha, -⟩ |
    ⟨i, sent, -, hstand, hi, rfl⟩ | ⟨i, sent, -, -, -, rfl⟩
  · cases ha
  · cases ha
  · obtain ⟨hnext, hcompleted, -⟩ := visit_idle hstand hi h sent
    exact ⟨hnext, hcompleted⟩
  · exact ⟨h, rfl⟩

/-- While nothing is outstanding, the loop runs to the end of its pass and tests the counter. -/
lemma finish_pass {i : ℕ} (hstand : st.stand = .visit i) (h : st.outstanding J = 0) :
    ∃ st', run (offlineStep J) st (replicate (J.stages.length - i + 1) (.poll true)) =
      some st' ∧ st'.completed = st.completed ∧
      st'.stand = if st.completed.length < J.requests.length then .visit 0 else .left := by
  induction hd : J.stages.length - i generalizing st i with
  | zero =>
    have hi : ¬ i < J.stages.length := by omega
    simp only [replicate_succ, replicate_zero, run_cons, offlineStep, hstand, if_neg hi]
    split
    · exact ⟨_, rfl, rfl, rfl⟩
    · exact ⟨_, rfl, rfl, rfl⟩
  | succ d ih =>
    have hi : i < J.stages.length := by omega
    obtain ⟨hnext, hcompleted, hstand'⟩ := visit_idle hstand hi h true
    obtain ⟨st', hrun, hcompleted', hend⟩ := ih hstand' hnext (by omega)
    refine ⟨st', ?_, hcompleted'.trans hcompleted, hcompleted ▸ hend⟩
    rw [replicate_succ, run_cons]
    simpa only [offlineStep, hstand, if_pos hi, Option.bind_some] using hrun

/-- The events of the loop alone. -/
lemma allSteps_polls (st : OfflineOmni π ο ι) (k : ℕ) :
    AllSteps (offlineStep J) (fun _ a => a = .poll true) st (replicate k (.poll true)) :=
  allSteps_of_forall_mem fun _ ha => eq_of_mem_replicate ha

/-- When nothing is outstanding and a request has not been counted, the loop is never left. -/
lemma polls_forever {k : ℕ} (h : st.outstanding J = 0)
    (hcompleted : st.completed.length < J.requests.length) (hstand : st.stand ≠ .left)
    (hrun : run (offlineStep J) st (replicate k (.poll true)) = some st') :
    st'.stand ≠ .left := by
  suffices hinv : st'.outstanding J = 0 ∧ st'.completed = st.completed ∧ st'.stand ≠ .left from
    hinv.2.2
  refine run_invariant_of_allSteps
    (I := fun s => s.outstanding J = 0 ∧ s.completed = st.completed ∧ s.stand ≠ .left)
    (fun s a s' hs ha hstep => ?_) ⟨h, rfl, hstand⟩ (allSteps_polls st k) hrun
  subst ha
  obtain ⟨hnext, hsame⟩ := poll_idle hs.1 hstep
  refine ⟨hnext, hsame.trans hs.2.1, ?_⟩
  rcases offlineStep_cases hstep with ⟨i, k, outputs, t, ha, -⟩ | ⟨i, ha, -⟩ |
    ⟨i, sent, -, hvisit, hi, rfl⟩ | ⟨i, sent, -, hvisit, hi, rfl⟩
  · cases ha
  · cases ha
  · rw [(visit_idle hvisit hi hs.1 sent).2.2]
    nofun
  · rw [hs.2.1, if_pos hcompleted]
    nofun

/-- When nothing is outstanding, the loop settles iff the call is sound. -/
lemma settles_iff_sound (h : st.outstanding J = 0) : Settles J st ↔ Sound J st := by
  unfold Settles Sound Custody.Balanced
  rw [h, add_zero]
  constructor
  · rintro ⟨k, -, st', hrun, hstand', hcompleted⟩
    have hkept := run_invariant_of_allSteps
      (I := fun s => s.outstanding J = 0 ∧ s.completed = st.completed)
      (fun s a s' hs ha hstep => by
        subst ha
        obtain ⟨hnext, hsame⟩ := poll_idle hs.1 hstep
        exact ⟨hnext, hsame.trans hs.2⟩)
      ⟨h, rfl⟩ (allSteps_polls st k) hrun
    refine ⟨by rw [← hkept.2, hcompleted], ?_⟩
    intro hraised
    cases k with
    | zero =>
      cases hrun
      rw [hraised] at hstand'
      cases hstand'
    | succ k => simp [replicate_succ, offlineStep, hraised] at hrun
  · rintro ⟨hcompleted, hraised⟩
    have hlength : st.completed.length = J.requests.length := by
      simpa using congrArg Multiset.card hcompleted
    cases hstand : st.stand with
    | visit i =>
      obtain ⟨st', hrun, hcompleted', hend⟩ := finish_pass hstand h
      refine ⟨J.stages.length - i + 1, by omega, st', hrun, ?_, ?_⟩
      · rw [hend, if_neg hlength.not_lt]
      · rw [hcompleted', hcompleted]
    | left => exact ⟨0, Nat.zero_le _, st, rfl, hstand, hcompleted⟩
    | raised => exact absurd hstand hraised

omit [DecidableEq μ] in
lemma start_value {β : Type*} [AddCancelCommMonoid β] (f h : ℕ → ℕ → β) :
    J.start.value J.stages.length f h = ((range J.requests.length).map (f 0)).sum := by
  have hpos : 0 < J.stages.length := length_pos_iff.mpr J.stages_ne
  have hempty : OfflineOmni.value J.stages.length f h
      ({ stand := .visit J.stages.length } : OfflineOmni π ο ι) = 0 :=
    Finset.sum_eq_zero fun i _ => add_zero 0
  have htasks : (J.requests.mapIdx fun r q => (r, (Sum.inl q.1 : π ⊕ ι))).map (fun t => f 0 t.1) =
      (range J.requests.length).map (f 0) := by
    apply ext_getElem
    · simp
    · simp
  have hset : J.start.value J.stages.length f h + 0 =
      OfflineOmni.value J.stages.length f h
        ({ stand := .visit J.stages.length } : OfflineOmni π ο ι) +
      ((range J.requests.length).map (f 0)).sum := by
    apply value_setStage hpos
    simp only [OfflineStage.value, htasks, map_nil, sum_nil, add_zero, zero_add]
  rw [hempty, zero_add, add_zero] at hset
  exact hset

omit [DecidableEq μ] in
lemma start_outstanding : J.start.outstanding J = Multiset.range J.requests.length := by
  rw [OfflineOmni.outstanding, start_value, ← Multiset.sum_coe, ← Multiset.map_coe]
  exact Multiset.sum_map_singleton _

/-- In every run there are at most as many answers as requests times stages, and when nothing is
outstanding the loop settles iff no result was an error and every request could be forwarded. -/
theorem settles_iff_nothing_fails {acts : List (OfflineAct ο)}
    (hrun : run (offlineStep J) J.start acts = some st) :
    (acts.map OfflineAct.cost).sum ≤ J.requests.length * J.stages.length ∧
      (st.outstanding J = 0 →
        (Settles J st ↔ AllSteps (offlineStep J) (NothingFails J) J.start acts)) := by
  constructor
  · have hcost : st.rank J + (acts.map OfflineAct.cost).sum ≤ J.start.rank J :=
      run_cost_le (fun s a s' h => rank_step h) hrun
    have hstart : J.start.rank J = J.requests.length * J.stages.length := by
      rw [OfflineOmni.rank, start_value, map_const', sum_replicate_nat,
        length_range, Nat.sub_zero]
    omega
  · intro h
    have hsound : Sound J J.start := ⟨(zero_add _).trans start_outstanding, nofun⟩
    have hheld : HeldOnce J J.start := ((zero_add _).trans start_outstanding).le
    rw [settles_iff_sound h, reached_iff_allSteps (fun s a s' hs hstep => heldOnce_step hs hstep)
      (fun s a s' hs hstep => sound_step hs hstep) hheld hrun]
    exact and_iff_right hsound

/-- The loop is left only when its counter has reached the number of requests. -/
lemma left_step (hstep : offlineStep J st a = some st') (hleft : st'.stand = .left) :
    st'.completed = st.completed ∧
      (st.stand = .left ∨ J.requests.length ≤ st.completed.length) := by
  rcases offlineStep_cases hstep with ⟨i, k, outputs, t, rfl, hi, ht, rfl⟩ | ⟨i, rfl, hi, rfl⟩ |
    ⟨i, sent, rfl, hstand, hi, rfl⟩ | ⟨i, sent, rfl, hstand, hi, rfl⟩
  · exact ⟨rfl, .inl hleft⟩
  · exact ⟨rfl, .inl hleft⟩
  · unfold OfflineOmni.visit OfflineOmni.consume at hleft
    repeat' split at hleft
    all_goals cases hleft
  · refine ⟨rfl, .inr (not_lt.mp fun hlt => ?_)⟩
    rw [if_pos hlt] at hleft
    cases hleft

/-- Whatever fails, no request is counted twice, and the loop is not left before each is counted. -/
theorem loop_never_left_early (acts : List (OfflineAct ο)) :
    EveryState (offlineStep J) (fun st => HeldOnce J st ∧
      (st.stand = .left → (st.completed : Multiset ℕ) = Multiset.range J.requests.length))
      J.start acts := by
  refine everyState_of_invariant (fun st a st' h hstep => ?_) (fun _ h => h)
    ⟨((zero_add _).trans start_outstanding).le, nofun⟩
  have hheld := heldOnce_step h.1 hstep
  refine ⟨hheld, fun hleft => ?_⟩
  obtain ⟨hcompleted, hleft | hlength⟩ := left_step hstep hleft
  · rw [hcompleted, h.2 hleft]
  · refine Multiset.eq_of_le_of_card_le ((Multiset.le_add_right _ _).trans hheld) ?_
    rwa [Multiset.card_range, hcompleted]

/-- Two prompts for two stages; the inputs of a stage are the outputs of the stage before. -/
def twoPrompts : OfflineJob Unit ℕ ℕ Unit where
  stages := [⟨false, none⟩, ⟨true, some ()⟩]
  stages_ne := by decide
  requests := [((), none), ((), none)]
  processEngineInputs _ o _ := some o

/-- The loop visits both stages and tests its counter. -/
def onePass : List (OfflineAct ℕ) := [.poll true, .poll true, .poll true]

/-- Stage 0 answers both tasks, the second first, two passes consume them, then stage 1 answers. -/
def twoPromptsServed : List (OfflineAct ℕ) :=
  .poll true :: [.answer 0 1 (some 8), .answer 0 0 (some 7)] ++ onePass ++
    [.answer 1 0 (some 18)] ++ onePass ++ [.answer 1 0 (some 17), .poll true, .poll true]

/-- Each prompt is counted exactly once. -/
theorem settles_twoPromptsServed :
    ∃ st, run (offlineStep twoPrompts) twoPrompts.start twoPromptsServed = some st ∧
      Settles twoPrompts st := by
  obtain ⟨st, hrun, hdone⟩ : ∃ st,
      run (offlineStep twoPrompts) twoPrompts.start twoPromptsServed = some st ∧
        st.outstanding twoPrompts = 0 :=
    exists_reached (by decide +kernel)
  exact ⟨st, hrun, ((settles_iff_nothing_fails hrun).2 hdone).mpr (by decide +kernel)⟩

/-- The first prompt fails at stage 0, the second is served: nothing is outstanding, and the loop
goes on for ever. -/
theorem loop_not_left_after_error :
    ∃ st, run (offlineStep twoPrompts) twoPrompts.start
        (.poll true :: [.answer 0 0 none, .answer 0 0 (some 7)] ++ onePass ++ onePass ++
          [.answer 1 0 (some 17)] ++ onePass) = some st ∧
      st.outstanding twoPrompts = 0 ∧ st.completed = [1] ∧
      ∀ k st', run (offlineStep twoPrompts) st (replicate k (.poll true)) = some st' →
        st'.stand ≠ .left := by
  obtain ⟨st, hrun, hdone, hcompleted, hstand⟩ : ∃ st, run (offlineStep twoPrompts) twoPrompts.start
        (.poll true :: [.answer 0 0 none, .answer 0 0 (some 7)] ++ onePass ++ onePass ++
          [.answer 1 0 (some 17)] ++ onePass) = some st ∧
      st.outstanding twoPrompts = 0 ∧ st.completed = [1] ∧ st.stand ≠ .left :=
    exists_reached (by decide +kernel)
  refine ⟨st, hrun, hdone, hcompleted, fun k st' hpolls => ?_⟩
  exact polls_forever hdone (by rw [hcompleted]; decide) hstand hpolls

end OmniStreaming
