import OmniStreaming.Omni.Async

/-!
# Inputs of concurrent requests

The inputs that a call of `generate` submits to the next stage are computed from the slot of the
current stage. A call that is suspended at a `yield` after its finished outputs reads the slot only
when it is resumed, and another call may have set it in between. `Isolated` says that all inputs
were computed from the outputs that the call itself had loaded, and `SlotKept` that no other call
has set the slot.
-/

namespace OmniStreaming

open Dictionary Function Option Transition

variable {π ο ι : Type*}

/-- All inputs were computed from what the request had loaded last, from a slot it had set itself,
and from its own prompt. -/
def Isolated (P : OmniStages π ο ι) (st : AsyncOmni π ο ι) : Prop :=
  ∀ f ∈ st.forwards, f.source = f.request ∧
    ∃ o, f.own = some o ∧ P.processEngineInputs f.stage o f.prompt = some f.inputs

instance [DecidableEq ι] (P : OmniStages π ο ι) : DecidablePred (Isolated P) := fun st =>
  decidable_of_iff (∀ f ∈ st.forwards, f.source = f.request ∧
    (f.own.bind fun o => P.processEngineInputs f.stage o f.prompt) = some f.inputs)
    (by simp only [Isolated, bind_eq_some_iff])

/-- A call that is resumed behind its `yield` and submits inputs is the last that has set the slot
of its stage. -/
def SlotKept (P : OmniStages π ο ι) (st : AsyncOmni π ο ι) : OmniAct π ο → Prop
  | .resume n sent => ∀ r ∈ st.requests[n]?, r.status = .yielded true → r.stage < r.finalStage →
      sent = true → ∀ y ∈ st.nextInputs P r, y.1 = n
  | _ => True

instance (P : OmniStages π ο ι) (st : AsyncOmni π ο ι) : DecidablePred (SlotKept P st)
  | .resume n sent =>
    decidable_of_iff (∀ r ∈ st.requests[n]?.toList, r.status = .yielded true →
      r.stage < r.finalStage → sent = true → ∀ y ∈ (st.nextInputs P r).toList, y.1 = n)
      (by simp only [SlotKept, mem_toList, mem_def])
  | .call .. | .deliver .. | .close _ => isTrue trivial

/-- A slot holds what the call that has set it loaded last, as long as the call is at that
stage. -/
def SlotsHold (st : AsyncOmni π ο ι) : Prop :=
  ∀ (i m : ℕ) (o : ο), st.slots i = some (m, o) → ∃ r, st.requests[m]? = some r ∧ i ≤ r.stage ∧
    (i = r.stage → r.own = some o)

variable {P : OmniStages π ο ι} {st st' : AsyncOmni π ο ι} {a : OmniAct π ο} {n : ℕ}
  {r r' : OmniRequest π ο} {sent : Bool}

/-! ## The slots -/

section

variable (h : SlotsHold st)
include h

lemma SlotsHold.setRequest (hr : st.requests[n]? = some r) (hslots : st'.slots = st.slots)
    (hrequests : st'.requests = st.requests.set n r') (hstage : r.stage ≤ r'.stage)
    (hown : r'.own = r.own) : SlotsHold st' := by
  have hn : n < st.requests.length := (List.getElem?_eq_some_iff.mp hr).1
  intro i m o hi
  rw [hslots] at hi
  obtain ⟨u, hu, hle, hkeep⟩ := h i m o hi
  by_cases hnm : n = m
  · subst hnm
    cases hr.symm.trans hu
    refine ⟨r', by rw [hrequests, List.getElem?_set_self hn], hle.trans hstage, ?_⟩
    intro heq
    rw [hown]
    exact hkeep (le_antisymm hle (heq ▸ hstage))
  · exact ⟨u, by rw [hrequests, List.getElem?_set_ne hnm, hu], hle, hkeep⟩

/-- The slot of the stage is set by the call at that stage. -/
lemma SlotsHold.setSlot (hr : st.requests[n]? = some r) {o : ο}
    (hslots : st'.slots = update st.slots r.stage (some (n, o)))
    (hrequests : st'.requests = st.requests.set n r')
    (hstage : r.stage ≤ r'.stage) (hown : r'.own = some o) : SlotsHold st' := by
  have hn : n < st.requests.length := (List.getElem?_eq_some_iff.mp hr).1
  intro i m o' hi
  rw [hslots] at hi
  by_cases hi' : i = r.stage
  · subst hi'
    rw [update_self] at hi
    cases some.inj hi
    exact ⟨r', by rw [hrequests, List.getElem?_set_self hn], hstage, fun _ => hown⟩
  · rw [update_of_ne hi'] at hi
    obtain ⟨u, hu, hle, hkeep⟩ := h i m o' hi
    by_cases hnm : n = m
    · subst hnm
      cases hr.symm.trans hu
      refine ⟨r', by rw [hrequests, List.getElem?_set_self hn], hle.trans hstage, ?_⟩
      intro heq
      exact absurd (le_antisymm hle (heq ▸ hstage)) hi'
    · exact ⟨u, by rw [hrequests, List.getElem?_set_ne hnm, hu], hle, hkeep⟩

omit h in
lemma proceed_effect (P : OmniStages π ο ι) (st : AsyncOmni π ο ι) (n : ℕ) (r : OmniRequest π ο)
    (finished sent : Bool) :
    (st.proceed P n r finished sent).slots = st.slots ∧
    ∃ r', (st.proceed P n r finished sent).requests = st.requests.set n r' ∧
      r.stage ≤ r'.stage ∧ r'.own = r.own := by
  unfold AsyncOmni.proceed AsyncOmni.forward
  split
  · split
    · split
      · exact ⟨rfl, _, rfl, Nat.le_succ _, rfl⟩
      · exact ⟨rfl, _, rfl, le_rfl, rfl⟩
    · exact ⟨rfl, _, rfl, le_rfl, rfl⟩
  · exact ⟨rfl, _, rfl, le_rfl, rfl⟩

lemma SlotsHold.proceed (hr : st.requests[n]? = some r) (finished sent : Bool) :
    SlotsHold (st.proceed P n r finished sent) := by
  obtain ⟨hslots, r', hrequests, hstage, hown⟩ := proceed_effect P st n r finished sent
  exact h.setRequest hr hslots hrequests hstage hown

lemma SlotsHold.handle (hr : st.requests[n]? = some r) (rest : List (OmniResult ο))
    (m : OmniResult ο) (sent : Bool) :
    SlotsHold (st.handle P n { r with queue := rest } m sent) := by
  unfold AsyncOmni.handle
  split
  · split
    · exact h.setRequest hr rfl rfl le_rfl rfl
    · rename_i o finished
      dsimp only
      split
      · exact h.setSlot hr rfl rfl le_rfl rfl
      · obtain ⟨hslots, r', hrequests, hstage, hown⟩ := proceed_effect P
          { st with slots := update st.slots r.stage (some (n, o)) } n
          { r with queue := rest, own := some o } finished sent
        exact h.setSlot hr hslots hrequests hstage hown
  · exact h.setRequest hr rfl rfl le_rfl rfl

/-- Every event keeps the slots. -/
lemma slotsHold_step (hstep : omniStep P st a = some st') : SlotsHold st' := by
  cases a with
  | call rid prompt finalStage =>
    cases hstep
    intro i m o hi
    obtain ⟨u, hu, hle, hkeep⟩ := h i m o hi
    refine ⟨u, ?_, hle, hkeep⟩
    exact (List.getElem?_append_left (List.getElem?_eq_some_iff.mp hu).1).trans hu
  | deliver i rid m =>
    simp only [omniStep] at hstep
    split at hstep
    · exact some.inj hstep ▸ h
    · obtain ⟨r, hr, rfl⟩ := map_eq_some_iff.mp hstep
      exact h.setRequest hr rfl rfl le_rfl rfl
  | resume n sent =>
    obtain ⟨r, hr, hstep⟩ := bind_eq_some_iff.mp hstep
    split at hstep
    · exact some.inj hstep ▸ h.handle hr _ _ sent
    · exact some.inj hstep ▸ h.proceed hr _ sent
    · cases hstep
  | close n =>
    obtain ⟨r, hr, hstep⟩ := bind_eq_some_iff.mp hstep
    split at hstep
    · cases hstep
    · exact some.inj hstep ▸ h.setRequest hr rfl rfl le_rfl rfl

end

/-! ## The inputs -/

section

variable (h : Isolated P st)
include h

/-- New inputs are isolated if they are computed from the request's own outputs. -/
lemma isolated_append {f : OmniForward π ο ι} (hforwards : st'.forwards = st.forwards ++ [f]) :
    Isolated P st' ↔ f.source = f.request ∧
      ∃ o, f.own = some o ∧ P.processEngineInputs f.stage o f.prompt = some f.inputs := by
  unfold Isolated
  rw [hforwards]
  simp only [List.forall_mem_append, List.forall_mem_singleton]
  exact and_iff_right h

/-- No inputs are submitted. -/
lemma isolated_congr (hforwards : st'.forwards = st.forwards) : Isolated P st' := by
  unfold Isolated
  rw [hforwards]
  exact h

/-- The inputs of a call are isolated if it has set the slot, and has loaded last what is there. -/
lemma isolated_forward_iff (hown : ∀ o, st.slots r.stage = some (n, o) → r.own = some o) :
    Isolated P (st.forward P n r sent) ↔
      (r.stage < r.finalStage → sent = true → ∀ y ∈ st.nextInputs P r, y.1 = n) := by
  unfold AsyncOmni.forward
  split
  · rename_i hlt
    split
    · rename_i source x hnext
      rw [isolated_append (f := ⟨n, r.prompt, r.own, source, r.stage + 1, x⟩) h rfl]
      constructor
      · rintro ⟨hsource, -⟩ - - y hy
        cases hnext.symm.trans hy
        exact hsource
      · intro hkept
        obtain rfl : source = n := hkept hlt rfl (source, x) hnext
        obtain ⟨⟨m, o⟩, hslot, hinputs⟩ := bind_eq_some_iff.mp hnext
        obtain ⟨x', hx', heq⟩ := map_eq_some_iff.mp hinputs
        cases heq
        exact ⟨rfl, o, hown o hslot, hx'⟩
    · rename_i hnext
      refine iff_of_true (isolated_congr h rfl) ?_
      rintro - rfl y hy
      exact absurd rfl (hnext y.1 y.2 hy)
  · rename_i hlt
    exact iff_of_true (isolated_congr h rfl) fun hlt' => absurd hlt' hlt

/-- A call that takes a result computes inputs only from that result. -/
lemma isolated_handle (m : OmniResult ο) : Isolated P (st.handle P n r m sent) := by
  unfold AsyncOmni.handle
  split
  · split
    · exact isolated_congr h rfl
    · rename_i o finished
      dsimp only
      split
      · exact isolated_congr h rfl
      · -- the slot was set in the same uninterrupted stretch
        unfold AsyncOmni.proceed
        split
        · have h' : Isolated P
              { st with slots := update st.slots r.stage (some (n, o)) } :=
            isolated_congr h rfl
          refine (isolated_forward_iff h' ?_).mpr ?_
          · intro o' ho'
            simp only [update_self, some.injEq, Prod.mk.injEq, true_and] at ho'
            rw [ho']
          · intro _ _ y hy
            obtain ⟨slot, hslot, hy⟩ := bind_eq_some_iff.mp hy
            obtain ⟨x, -, rfl⟩ := map_eq_some_iff.mp hy
            simp only [update_self, some.injEq] at hslot
            rw [← hslot]
        · exact isolated_congr h rfl
  · exact isolated_congr h rfl

end

lemma isolated_step (hslots : SlotsHold st) (h : Isolated P st)
    (hstep : omniStep P st a = some st') : Isolated P st' ↔ SlotKept P st a := by
  cases a with
  | call rid prompt finalStage =>
    cases hstep
    exact iff_of_true (isolated_congr h rfl) trivial
  | deliver i rid m =>
    refine iff_of_true ?_ trivial
    simp only [omniStep] at hstep
    split at hstep
    · exact some.inj hstep ▸ h
    · obtain ⟨r, -, rfl⟩ := map_eq_some_iff.mp hstep
      exact isolated_congr h rfl
  | resume n sent =>
    obtain ⟨r, hr, hstep⟩ := bind_eq_some_iff.mp hstep
    simp only [SlotKept, hr, mem_def, some.injEq, forall_eq']
    split at hstep
    · rename_i m rest hstatus hqueue
      refine iff_of_true (some.inj hstep ▸ isolated_handle h _) ?_
      rw [hstatus]
      nofun
    · rename_i finished hstatus
      cases hstep
      have hown : ∀ o, st.slots r.stage = some (n, o) → r.own = some o := by
        intro o ho
        obtain ⟨u, hu, -, hkeep⟩ := hslots r.stage n o ho
        cases hr.symm.trans hu
        exact hkeep rfl
      unfold AsyncOmni.proceed
      cases finished with
      | true => simpa [hstatus] using isolated_forward_iff h hown
      | false =>
        refine iff_of_true (isolated_congr h rfl) ?_
        rw [hstatus]
        nofun
    · cases hstep
  | close n =>
    refine iff_of_true ?_ trivial
    obtain ⟨r, -, hstep⟩ := bind_eq_some_iff.mp hstep
    split at hstep
    · cases hstep
    · exact some.inj hstep ▸ isolated_congr h rfl

/-- In every run of concurrent calls, all inputs are computed from the request's own outputs iff no
call that submits inputs is resumed behind its `yield` after another call has set the slot. -/
theorem isolated_iff_slotKept {as : List (OmniAct π ο)}
    (hrun : run (omniStep P) {} as = some st) :
    EveryState (omniStep P) (Isolated P) {} as ↔ AllSteps (omniStep P) (SlotKept P) {} as := by
  have hslots : SlotsHold ({} : AsyncOmni π ο ι) := nofun
  have hisolated : Isolated P ({} : AsyncOmni π ο ι) := nofun
  refine everyState_iff_allSteps (I := SlotsHold) (P := Isolated P) ?_ ?_ hslots hisolated
    (allSteps_of_forall_mem (p := fun _ => True) (by simp)) hrun
  · intro s a s' hs _ hstep
    exact slotsHold_step hs hstep
  · intro s a s' hs hs' hstep
    exact isolated_step hs hs' hstep

/-- Two stages, the first with a final output as the thinker has; the inputs of the second are its
outputs and the prompt. -/
def textStages : OmniStages ℕ ℕ (ℕ × ℕ) where
  finalOutput i := i = 0
  processEngineInputs _ o prompt := some (o, prompt)

/-- Two calls, each of which gets its output of stage 0. -/
def twoCalls : List (OmniAct ℕ ℕ) :=
  [.call someTurn.text 10 1, .call foreignTurn.text 20 1,
    .deliver 0 someTurn.text (.outputs 1 true), .deliver 0 foreignTurn.text (.outputs 2 true)]

/-- The consumer of each call resumes it at once. -/
theorem isolated_twoCalls : EveryState (omniStep textStages) (Isolated textStages) {}
    (twoCalls ++ [.resume 0 true, .resume 0 true, .resume 1 true, .resume 1 true]) := by
  obtain ⟨st, hrun⟩ : ∃ st, run (omniStep textStages) {}
      (twoCalls ++ [.resume 0 true, .resume 0 true, .resume 1 true, .resume 1 true]) = some st :=
    isSome_iff_exists.mp (by decide +kernel)
  exact (isolated_iff_slotKept hrun).mpr (by decide +kernel)

/-- The first call is resumed after the second has loaded its outputs, and submits inputs computed
from those. -/
theorem not_isolated_twoCalls : ∃ st, run (omniStep textStages) {}
    (twoCalls ++ [.resume 0 true, .resume 1 true, .resume 0 true]) = some st ∧
    (st.forwards.map fun f => (f.request, f.inputs)) = [(0, (2, 10))] ∧
    ¬ Isolated textStages st :=
  exists_reached (by decide +kernel)

end OmniStreaming
