import OmniStreaming.Omni.Async

/-!
# What a request leaves behind

`generate` removes its entry of `request_states` in a `finally` block that only a call reaches that
has finished all stages. A call that ends in another way (an error result, a failed assertion, an
exception of `process_engine_inputs`, a failed send, a cancellation, the consumer closing it) leaves
its entry. The entry is removed by the request id, whichever call has made it.

`LeavesNothing` says of an event that afterwards no entry belongs to a call that has ended, and that
a call that ends by the event has not touched the entry of another.
-/

namespace OmniStreaming

open Dictionary Transition

variable {π ο ι : Type*}

/-- No entry belongs to a call that has ended. -/
def NoStaleEntry (st : AsyncOmni π ο ι) : Prop :=
  ∀ (m : ℕ) (u : OmniRequest π ο), st.requests[m]? = some u → u.ended →
    st.requestStates.lookup u.rid ≠ some m

/-- Call `n` ends between the two states. -/
def Ends (st st' : AsyncOmni π ο ι) (n : ℕ) : Prop :=
  (∃ r, st.requests[n]? = some r ∧ r.ended = false) ∧
    ∃ r, st'.requests[n]? = some r ∧ r.ended = true

variable (P : OmniStages π ο ι)

/-- The event leaves no entry of a call that has ended, and keeps the entries of the others. -/
def LeavesNothing (st : AsyncOmni π ο ι) (a : OmniAct π ο) : Prop :=
  ∀ st', omniStep P st a = some st' → NoStaleEntry st' ∧
    ∀ n, Ends st st' n → ∀ (k : Key) (m : ℕ), m ≠ n →
      (st'.requestStates.lookup k = some m ↔ st.requestStates.lookup k = some m)

/-! ## How a call ends -/

/-- The inputs of the next stage are due, and cannot be computed or sent. -/
def OmniRequest.stuck (r : OmniRequest π ο) (inputs : Option ι) (sent : Bool) : Bool :=
  r.stage < r.finalStage && !(inputs.isSome && sent)

/-- Resumed, the call raises: the result is of another stage or an error, or the next inputs cannot
be computed or sent. -/
def AsyncOmni.fails (st : AsyncOmni π ο ι) (r : OmniRequest π ο)
    (sent : Bool) : Bool :=
  match r.status, r.queue with
  | .waiting, .error :: _ => true
  | .waiting, .outputs o finished :: _ =>
    r.stageId ≠ some r.stage || (finished && !P.finalOutput r.stage &&
      r.stuck (P.processEngineInputs (r.stage + 1) o r.prompt) sent)
  | .yielded finished, _ => finished && r.stuck (st.nextInputs P r) sent
  | _, _ => false

/-- Resumed, the call finishes its last stage. -/
def OmniRequest.completes (r : OmniRequest π ο) : Bool :=
  match r.status, r.queue with
  | .waiting, .outputs _ finished :: _ =>
    r.stageId = some r.stage && finished && !P.finalOutput r.stage && r.finalStage ≤ r.stage
  | .yielded finished, _ => finished && r.finalStage ≤ r.stage
  | _, _ => false

/-- A call that ends with an exception, or is cancelled or closed, has no entry any more; and one
completes while no other call has entered its id. -/
def EndsWell (st : AsyncOmni π ο ι) : OmniAct π ο → Prop
  | .resume n sent => ∀ r ∈ st.requests[n]?,
      (st.fails P r sent → st.requestStates.lookup r.rid ≠ some n) ∧
      (r.completes P → ∀ m ∈ st.requestStates.lookup r.rid, m = n)
  | .close n => ∀ r ∈ st.requests[n]?, r.ended = false → st.requestStates.lookup r.rid ≠ some n
  | _ => True

variable {P : OmniStages π ο ι} {st st' : AsyncOmni π ο ι} {a : OmniAct π ο} {n : ℕ}
  {r : OmniRequest π ο} {sent : Bool}

/-- Call `n` has run from `r` on: it has ended if it fails or completes, never both, and its entry
is removed if it completes. -/
def RunsOn (st : AsyncOmni π ο ι) (n : ℕ) (r : OmniRequest π ο) (fails completes : Bool)
    (st' : AsyncOmni π ο ι) : Prop :=
  (fails && completes) = false ∧
  (∃ r', st'.requests = st.requests.set n r' ∧ r'.rid = r.rid ∧
    r'.ended = (fails || completes)) ∧
  st'.requestStates =
    if completes then popKeys st.requestStates (· = r.rid) else st.requestStates

lemma forward_runsOn (st : AsyncOmni π ο ι) (n : ℕ) (r : OmniRequest π ο) (sent : Bool) :
    RunsOn st n r (r.stuck (st.nextInputs P r) sent) (r.finalStage ≤ r.stage)
      (st.forward P n r sent) := by
  unfold AsyncOmni.forward OmniRequest.stuck
  split
  · rename_i hlt
    have hle : decide (r.finalStage ≤ r.stage) = false := decide_eq_false (not_le.mpr hlt)
    rw [decide_eq_true hlt, hle]
    rcases hnext : st.nextInputs P r with _ | ⟨source, x⟩
    · exact ⟨rfl, ⟨_, rfl, rfl, rfl⟩, rfl⟩
    · cases sent with
      | true => exact ⟨rfl, ⟨_, rfl, rfl, rfl⟩, rfl⟩
      | false => exact ⟨rfl, ⟨_, rfl, rfl, rfl⟩, rfl⟩
  · rename_i hlt
    rw [decide_eq_false hlt, decide_eq_true (not_lt.mp hlt)]
    exact ⟨rfl, ⟨_, rfl, rfl, rfl⟩, rfl⟩

/-- The rest of an iteration. -/
lemma proceed_runsOn (st : AsyncOmni π ο ι) (n : ℕ) (r : OmniRequest π ο) (finished sent : Bool) :
    RunsOn st n r (finished && r.stuck (st.nextInputs P r) sent)
      (finished && r.finalStage ≤ r.stage) (st.proceed P n r finished sent) := by
  unfold AsyncOmni.proceed
  cases finished with
  | true => exact forward_runsOn st n r sent
  | false => exact ⟨rfl, ⟨_, rfl, rfl, rfl⟩, rfl⟩

lemma handle_runsOn {o : ο} {finished : Bool} (rest : List (OmniResult ο))
    (hid : r.stageId = some r.stage) :
    RunsOn st n r
      (finished && !P.finalOutput r.stage &&
        r.stuck (P.processEngineInputs (r.stage + 1) o r.prompt) sent)
      (finished && !P.finalOutput r.stage && r.finalStage ≤ r.stage)
      (st.handle P n { r with queue := rest } (.outputs o finished) sent) := by
  simp only [AsyncOmni.handle, if_pos hid]
  split
  · rename_i hfinal
    simp only [hfinal, Bool.not_true, Bool.and_false, Bool.false_and]
    exact ⟨rfl, ⟨_, rfl, rfl, rfl⟩, rfl⟩
  · rename_i hfinal
    have hnext : ∀ x : Option ι, r.stuck (x.map fun y => (n, y)) sent = r.stuck x sent := by
      intro x
      rw [OmniRequest.stuck, OmniRequest.stuck, Option.isSome_map]
    have h := proceed_runsOn (P := P)
      { st with slots := Function.update st.slots r.stage (some (n, o)) } n
      { r with queue := rest, own := some o } finished sent
    simp only [AsyncOmni.nextInputs, Function.update_self, Option.bind_some] at h
    simp only [eq_false_of_ne_true hfinal, Bool.not_false, Bool.and_true, ← hnext]
    exact h

/-- What a resumed call does. -/
lemma resume_runsOn (hr : st.requests[n]? = some r)
    (hstep : omniStep P st (.resume n sent) = some st') :
    r.ended = false ∧ RunsOn st n r (st.fails P r sent) (r.completes P) st' := by
  simp only [omniStep, hr, Option.bind_some] at hstep
  unfold AsyncOmni.fails OmniRequest.completes OmniRequest.ended
  split at hstep
  · rename_i m rest hstatus hqueue
    simp only [hstatus, hqueue]
    cases hstep
    refine ⟨trivial, ?_⟩
    cases m with
    | error =>
      simp only [AsyncOmni.handle, ite_self]
      exact ⟨rfl, ⟨_, rfl, rfl, rfl⟩, rfl⟩
    | outputs o finished =>
      by_cases hid : r.stageId = some r.stage
      · simpa [hid] using handle_runsOn rest hid
      · simp only [AsyncOmni.handle, if_neg hid, decide_eq_true hid, decide_eq_false hid]
        exact ⟨rfl, ⟨_, rfl, rfl, rfl⟩, rfl⟩
  · rename_i finished hstatus
    simp only [hstatus]
    exact ⟨trivial, Option.some.inj hstep ▸ proceed_runsOn st n r finished sent⟩
  · cases hstep

/-! ## What is left -/

section RunsOn

variable {fails completes : Bool}

section

variable (h : RunsOn st n r fails completes st')
include h

section

variable (hr : st.requests[n]? = some r)
include hr

/-- The calls after call `n` has run on. -/
lemma RunsOn.requests :
    (∃ r', st'.requests[n]? = some r' ∧ r'.rid = r.rid ∧ r'.ended = (fails || completes)) ∧
      ∀ m, m ≠ n → st'.requests[m]? = st.requests[m]? := by
  obtain ⟨-, ⟨r', hrequests, hrid, hended⟩, -⟩ := h
  have hn : n < st.requests.length := (List.getElem?_eq_some_iff.mp hr).1
  rw [hrequests]
  exact ⟨⟨r', List.getElem?_set_self hn, hrid, hended⟩,
    fun m hm => List.getElem?_set_ne hm.symm⟩

/-- Only call `n` can end. -/
lemma RunsOn.ends_iff (hlive : r.ended = false) {m : ℕ} :
    Ends st st' m ↔ m = n ∧ (fails || completes) = true := by
  obtain ⟨⟨r', hself, -, hended⟩, hother⟩ := h.requests hr
  constructor
  · rintro ⟨⟨u, hu, hulive⟩, u', hu', huended⟩
    by_cases hm : m = n
    · subst hm
      cases hself.symm.trans hu'
      exact ⟨rfl, hended ▸ huended⟩
    · rw [hother m hm, hu] at hu'
      cases hu'
      rw [hulive] at huended
      cases huended
  · rintro ⟨rfl, hends⟩
    exact ⟨⟨r, hr, hlive⟩, r', hself, hended.trans hends⟩

/-- A call that runs on leaves an entry of its own iff it had one and fails. -/
lemma RunsOn.noStaleEntry_iff (hstale : NoStaleEntry st) :
    NoStaleEntry st' ↔ (fails → st.requestStates.lookup r.rid ≠ some n) := by
  obtain ⟨⟨r', hself, hrid, hended⟩, hother⟩ := h.requests hr
  obtain ⟨hexcl, -, hstates⟩ := h
  constructor
  · rintro h' rfl
    obtain rfl : completes = false := by simpa using hexcl
    rw [if_neg Bool.false_ne_true] at hstates
    have hkept := h' n r' hself hended
    rwa [hrid, hstates] at hkept
  · intro h' m u hu huended hentry
    have hentry' : st.requestStates.lookup u.rid = some m ∧ (completes → u.rid ≠ r.rid) := by
      rw [hstates] at hentry
      cases completes with
      | false => exact ⟨hentry, nofun⟩
      | true =>
        rw [if_pos rfl, lookup_popKeys] at hentry
        split at hentry
        · cases hentry
        · rename_i hne
          exact ⟨hentry, fun _ => of_decide_eq_false (eq_false_of_ne_true hne)⟩
    by_cases hm : m = n
    · subst hm
      cases hself.symm.trans hu
      rw [hended, Bool.or_eq_true] at huended
      rcases huended with hfails | hcompletes
      · exact h' hfails (hrid ▸ hentry'.1)
      · exact hentry'.2 hcompletes hrid
    · rw [hother m hm] at hu
      exact hstale m u hu huended hentry'.1

/-- A call that ends touches the entry of another iff it completes while another has entered its
id. -/
lemma RunsOn.othersKept_iff (hlive : r.ended = false) :
    (∀ m, Ends st st' m → ∀ (k : Key) (i : ℕ), i ≠ m →
      (st'.requestStates.lookup k = some i ↔ st.requestStates.lookup k = some i)) ↔
    (completes → ∀ i ∈ st.requestStates.lookup r.rid, i = n) := by
  simp only [h.ends_iff hr hlive, and_imp, forall_eq]
  obtain ⟨-, -, hstates⟩ := h
  cases completes with
  | false =>
    rw [hstates, if_neg Bool.false_ne_true]
    exact iff_of_true (fun _ _ _ _ => Iff.rfl) nofun
  | true =>
    rw [hstates, if_pos rfl]
    simp only [Bool.or_true, forall_const, lookup_popKeys, decide_eq_true_eq]
    constructor
    · intro hkept i hi
      by_contra hne
      have hpopped := (hkept r.rid i hne).mpr hi
      rw [if_pos rfl] at hpopped
      cases hpopped
    · intro hown k i hne
      split
      · rename_i hk
        subst hk
        exact iff_of_false nofun fun hi => hne (hown i hi)
      · exact Iff.rfl

end

/-- A call leaves nothing iff it does not fail with an entry of its own, or complete with one of
another. -/
lemma RunsOn.leavesNothing_iff (hstep : omniStep P st a = some st') (hr : st.requests[n]? = some r)
    (hlive : r.ended = false) (hstale : NoStaleEntry st) :
    LeavesNothing P st a ↔ (fails → st.requestStates.lookup r.rid ≠ some n) ∧
      (completes → ∀ i ∈ st.requestStates.lookup r.rid, i = n) := by
  rw [← h.noStaleEntry_iff hr hstale, ← h.othersKept_iff hr hlive]
  unfold LeavesNothing
  simp only [hstep, Option.some.injEq, forall_eq']

end

end RunsOn

lemma leavesNothing_call (h : NoStaleEntry st) (rid : Key) (prompt : π) (finalStage : ℕ) :
    LeavesNothing P st (.call rid prompt finalStage) := by
  intro st' hstep
  cases hstep
  have hold : ∀ m < st.requests.length,
      (st.call rid prompt finalStage).requests[m]? = st.requests[m]? :=
    fun m hm => List.getElem?_append_left hm
  constructor
  · intro m u hu huended hentry
    change (setKeys st.requestStates [rid] st.requests.length).lookup u.rid = some m at hentry
    rw [lookup_setKeys] at hentry
    rcases lt_or_ge m st.requests.length with hm | hm
    · rw [hold m hm] at hu
      split at hentry
      · exact absurd (Option.some.inj hentry) hm.ne'
      · exact h m u hu huended hentry
    · -- the new call has not ended
      change (st.requests ++ [_])[m]? = some u at hu
      rw [List.getElem?_append_right hm] at hu
      rw [List.mem_singleton.mp (List.mem_of_getElem? hu)] at huended
      cases huended
  · rintro m ⟨⟨u, hu, hulive⟩, u', hu', huended⟩
    rw [hold m (List.getElem?_eq_some_iff.mp hu).1, hu] at hu'
    cases hu'
    rw [hulive] at huended
    cases huended

lemma leavesNothing_deliver (h : NoStaleEntry st) (i : ℕ) (rid : Key) (m : OmniResult ο) :
    LeavesNothing P st (.deliver i rid m) := by
  intro st' hstep
  simp only [omniStep] at hstep
  split at hstep
  · cases hstep
    exact ⟨h, fun _ _ _ _ _ => Iff.rfl⟩
  · rename_i n _
    obtain ⟨r, hr, rfl⟩ := Option.map_eq_some_iff.mp hstep
    refine ⟨?_, fun _ _ _ _ _ => Iff.rfl⟩
    intro k u hu huended
    by_cases hk : n = k
    · subst hk
      rw [AsyncOmni.setRequest, List.getElem?_set_self (List.getElem?_eq_some_iff.mp hr).1] at hu
      cases hu
      exact h n r hr huended
    · rw [AsyncOmni.setRequest, List.getElem?_set_ne hk] at hu
      exact h k u hu huended

/-- A call that cannot be resumed neither fails nor completes. -/
lemma not_ends_of_resume_eq_none (hr : st.requests[n]? = some r)
    (hstep : omniStep P st (.resume n sent) = none) :
    st.fails P r sent = false ∧ r.completes P = false := by
  simp only [omniStep, hr, Option.bind_some] at hstep
  unfold AsyncOmni.fails OmniRequest.completes
  cases hstatus : r.status with
  | waiting =>
    cases hqueue : r.queue with
    | nil => exact ⟨rfl, rfl⟩
    | cons m rest => simp [hstatus, hqueue] at hstep
  | yielded finished => simp [hstatus] at hstep
  | completed => exact ⟨rfl, rfl⟩
  | raised => exact ⟨rfl, rfl⟩
  | closed => exact ⟨rfl, rfl⟩

/-- An event leaves nothing iff it meets the condition. -/
lemma leavesNothing_iff_endsWell (h : NoStaleEntry st) :
    LeavesNothing P st a ↔ EndsWell P st a := by
  cases a with
  | call rid prompt finalStage =>
    exact iff_of_true (leavesNothing_call h rid prompt finalStage) trivial
  | deliver i rid m => exact iff_of_true (leavesNothing_deliver h i rid m) trivial
  | resume n sent =>
    cases hstep : omniStep P st (.resume n sent) with
    | none =>
      refine iff_of_true (fun st' hst' => by rw [hstep] at hst'; cases hst') ?_
      intro r hr
      obtain ⟨hfails, hcompletes⟩ := not_ends_of_resume_eq_none hr hstep
      rw [hfails, hcompletes]
      exact ⟨nofun, nofun⟩
    | some st' =>
      obtain ⟨r, hr, -⟩ := Option.bind_eq_some_iff.mp hstep
      obtain ⟨hlive, hruns⟩ := resume_runsOn hr hstep
      rw [hruns.leavesNothing_iff hstep hr hlive h]
      simp only [EndsWell, hr, Option.mem_def, Option.some.injEq, forall_eq']
  | close n =>
    cases hr : st.requests[n]? with
    | none =>
      refine iff_of_true (fun st' hst' => ?_) (fun r hr' => ?_)
      · simp [omniStep, hr] at hst'
      · rw [hr] at hr'
        cases hr'
    | some r =>
      simp only [EndsWell, hr, Option.mem_def, Option.some.injEq, forall_eq']
      cases hended : r.ended with
      | true =>
        refine iff_of_true (fun st' hst' => ?_) nofun
        simp [omniStep, hr, hended] at hst'
      | false =>
        have hruns : RunsOn st n r true false (st.setRequest n { r with status := .closed }) :=
          ⟨rfl, ⟨_, rfl, rfl, rfl⟩, rfl⟩
        rw [hruns.leavesNothing_iff (by simp [omniStep, hr, hended]) hr hended h]
        simp

/-- In every run of concurrent calls, no call leaves state behind or touches the entries of others
iff none raises, is cancelled or closed while it has an entry, and none completes while another call
has entered its id. -/
theorem leaves_nothing_iff_ends_well (P : OmniStages π ο ι) (as : List (OmniAct π ο)) :
    AllSteps (omniStep P) (LeavesNothing P) {} as ↔ AllSteps (omniStep P) (EndsWell P) {} as := by
  have h0 : NoStaleEntry ({} : AsyncOmni π ο ι) := nofun
  have hkeep : ∀ s a s', NoStaleEntry s → LeavesNothing P s a → omniStep P s a = some s' →
      NoStaleEntry s' := fun s a s' _ hleaves hstep => (hleaves s' hstep).1
  constructor
  · refine allSteps_of_allSteps hkeep ?_ h0
    intro s a hs hleaves
    exact (leavesNothing_iff_endsWell hs).mp hleaves
  · refine allSteps_of_allSteps ?_ ?_ h0
    · intro s a s' hs hends hstep
      exact hkeep s a s' hs ((leavesNothing_iff_endsWell hs).mpr hends) hstep
    · intro s a hs hends
      exact (leavesNothing_iff_endsWell hs).mpr hends

/-- One stage without a final output. -/
def oneStage : OmniStages Unit Unit Unit where
  finalOutput _ := false
  processEngineInputs _ _ _ := none

/-- The stage answers with an error: the generator has ended, and its entry is still there. -/
theorem entry_left_after_error : ∃ st, run (omniStep oneStage) {}
    [.call someTurn.text () 0, .deliver 0 someTurn.text .error, .resume 0 true] = some st ∧
    (st.requests.map OmniRequest.ended) = [true] ∧
    st.requestStates.lookup someTurn.text = some 0 :=
  exists_reached (by decide +kernel)

end OmniStreaming
