import OmniStreaming.Lib.Custody
import OmniStreaming.Lib.Transition
import OmniStreaming.Stage.Worker

/-!
# Aborts of other sessions

An output that the engine has put out for a request is held by its coroutine, then on
`generation_out_q`, then in the batch of the loop, and at last on `out_q`. `custody` counts the
outputs of a request over these four places. For a request whose session no `ABORT` names, every
event keeps the count in step with what has been produced, except for the output loop: that drops
the outputs of the request if its id is not active and the last task was an `ABORT`, of whatever
session.
-/

namespace OmniStreaming

open List Transition

variable {ω : Type*}

/-! ## The outputs of a request -/

/-- The values that stand under a request id. -/
def valuesFor (rid : Key) (xs : List (Key × ω)) : Multiset ω :=
  ((xs.filter fun x => x.1 = rid).map Prod.snd : List ω)

/-- The outputs on `out_q`. -/
def StageWorker.sent (s : StageWorker ω) : List (Key × ω) :=
  s.outQ.filterMap fun x =>
    match x.2 with
    | .output o => some (x.1, o)
    | .error => none

/-- The outputs that the loop has collected. -/
def StageWorker.batch (s : StageWorker ω) : List (Key × ω) :=
  match s.phase with
  | .collected batch => batch
  | _ => []

/-- The output that a coroutine holds for a request. -/
def Generation.heldFor (rid : Key) (g : Generation ω) : Multiset ω :=
  valuesFor rid (g.held.toList.map fun o => (g.rid, o))

/-- The outputs of a request that have been put on `out_q` or are on their way to it. -/
def StageWorker.custody (rid : Key) (s : StageWorker ω) : Multiset ω :=
  valuesFor rid s.sent + valuesFor rid s.batch + valuesFor rid s.generationOutQ +
    (s.gens.map (Generation.heldFor rid)).sum

/-- Every output of the engine for the request is on `out_q` exactly once, or on its way there. -/
def NothingLost (rid : Key) (s : StageWorker ω) : Prop :=
  s.custody rid = valuesFor rid s.produced

instance [DecidableEq ω] (rid : Key) (s : StageWorker ω) : Decidable (NothingLost rid s) :=
  inferInstanceAs (Decidable (s.custody rid = valuesFor rid s.produced))

/-- If the output loop finds outputs of the request, its id is active or the last task was a
`GENERATE`. -/
def OutputsPass (rid : Key) (s : StageWorker ω) : WorkerAct ω → Prop
  | .flush => rid ∈ s.batch.map Prod.fst →
      rid ∈ OrderedDict.keys s.active ∨ s.taskType = some .generate
  | _ => True

/-- The event does not submit an `ABORT` that names the session. -/
def WorkerAct.Spares (session : SessionId) : WorkerAct ω → Prop
  | .submit (.abort target) => ∃ other : SessionId, other ≠ session ∧ target = other.text
  | _ => True

variable {rid : Key} {s s' : StageWorker ω} {a : WorkerAct ω} {i : ℕ} {g g' : Generation ω}

@[simp] lemma valuesFor_nil : valuesFor rid ([] : List (Key × ω)) = 0 := rfl

@[simp] lemma valuesFor_append (xs ys : List (Key × ω)) :
    valuesFor rid (xs ++ ys) = valuesFor rid xs + valuesFor rid ys := by
  simp [valuesFor]

/-- A request without outputs. -/
lemma valuesFor_eq_zero_iff {xs : List (Key × ω)} :
    valuesFor rid xs = 0 ↔ rid ∉ xs.map Prod.fst := by
  simp only [valuesFor, Multiset.coe_eq_zero, map_eq_nil_iff, filter_eq_nil_iff,
    decide_eq_true_eq, mem_map, not_exists, not_and]

/-- A test on the ids keeps all values of an id or none. -/
lemma valuesFor_filter (p : Key → Bool) (xs : List (Key × ω)) :
    valuesFor rid (xs.filter fun x => p x.1) = if p rid then valuesFor rid xs else 0 := by
  unfold valuesFor
  rw [filter_filter]
  split_ifs with hp
  · congr 2
    refine filter_congr fun x _ => ?_
    by_cases hx : x.1 = rid
    · simp [hx, hp]
    · simp [hx]
  · have hnil : xs.filter (fun x => decide (x.1 = rid) && p x.1) = [] := by
      refine filter_eq_nil_iff.mpr fun x _ => ?_
      by_cases hx : x.1 = rid
      · simp [hx, hp]
      · simp [hx]
    rw [hnil]
    rfl

/-- The output loop puts out the part of the batch that passes. -/
lemma sent_flush (batch : List (Key × ω)) :
    (s.flush batch).sent = s.sent ++ batch.filter fun x => s.passes x.1 := by
  simp [StageWorker.sent, StageWorker.flush, filterMap_map]

/-! ## No coroutine of the request is cancelled -/

/-- No `ABORT` on the queue names the request, the active tasks stand under their own ids, and no
coroutine of it is to be cancelled. -/
structure Spared (rid : Key) (s : StageWorker ω) : Prop where
  inQ : ∀ target, .abort target ∈ s.inQ → ¬ target <:+: rid
  active : ∀ r i, (r, i) ∈ s.active → ∃ g, s.gens[i]? = some g ∧ g.rid = r
  free : ∀ g ∈ s.gens, g.rid = rid → g.cancelling = false

section

variable (h : Spared rid s)
include h

/-- Events that leave the coroutines and the input queue alone and enter nothing in the map. -/
lemma Spared.of_subset (hinQ : s'.inQ = s.inQ) (hgens : s'.gens = s.gens)
    (hactive : s'.active ⊆ s.active) : Spared rid s' where
  inQ := by
    rw [hinQ]
    exact h.inQ
  active r i hmem := by
    rw [hgens]
    exact h.active r i (hactive hmem)
  free := by
    rw [hgens]
    exact h.free

lemma Spared.collect : Spared rid s.collect :=
  h.of_subset rfl rfl (List.Subset.refl _)

/-- A coroutine that keeps its id and is not marked for cancellation may be replaced. -/
lemma Spared.of_set (hg : s.gens[i]? = some g) (hgens : s'.gens = s.gens.set i g')
    (hrid : g'.rid = g.rid) (hcancelling : g'.cancelling = g.cancelling) (hinQ : s'.inQ = s.inQ)
    (hactive : s'.active ⊆ s.active) : Spared rid s' where
  inQ := by
    rw [hinQ]
    exact h.inQ
  active r j hmem := by
    obtain ⟨old, hold, hr⟩ := h.active r j (hactive hmem)
    by_cases hij : i = j
    · subst hij
      cases hg.symm.trans hold
      refine ⟨g', ?_, hrid.trans hr⟩
      rw [hgens, getElem?_set_self (List.getElem?_eq_some_iff.mp hg).1]
    · exact ⟨old, by rw [hgens, getElem?_set_ne hij, hold], hr⟩
  free x hx hxrid := by
    rw [hgens] at hx
    rcases mem_or_eq_of_mem_set hx with hx | rfl
    · exact h.free x hx hxrid
    · rw [hcancelling]
      exact h.free g (mem_of_getElem? hg) (hrid.symm.trans hxrid)

/-- An `ABORT` marks only coroutines whose ids contain its target. -/
lemma Spared.abortTask {target : Key} (htarget : ¬ target <:+: rid) :
    Spared rid (s.abortTask target) where
  inQ := h.inQ
  active r i hmem := by
    obtain ⟨g, hg, hr⟩ := h.active r i (mem_of_mem_filter hmem)
    refine ⟨_, by rw [StageWorker.abortTask, getElem?_mapIdx, hg, Option.map_some], ?_⟩
    split_ifs
    · exact hr
    · exact hr
  free x hx hxrid := by
    obtain ⟨i, hi, rfl⟩ := mem_mapIdx.mp hx
    split_ifs at hxrid ⊢ with hmarked
    · obtain ⟨⟨r, j⟩, he, hj⟩ := any_eq_true.mp hmarked
      obtain ⟨hactive, hoccurs⟩ := mem_filter.mp he
      obtain rfl : j = i := of_decide_eq_true hj
      obtain ⟨g, hg, hr⟩ := h.active r j hactive
      have hrid : r = rid := by
        rw [← hr, ← (List.getElem?_eq_some_iff.mp hg).2]
        exact hxrid
      exact absurd (hrid ▸ of_decide_eq_true hoccurs) htarget
    · exact h.free _ (getElem_mem hi) hxrid

lemma Spared.startTask (r : Key) : Spared rid (s.startTask r) where
  inQ := h.inQ
  active r' i hmem := by
    rcases OrderedDict.mem_set hmem with ⟨rfl, rfl⟩ | hold
    · exact ⟨_, getElem?_concat_length, rfl⟩
    · obtain ⟨g, hg, hr⟩ := h.active r' i hold
      exact ⟨g, getElem?_append_left (List.getElem?_eq_some_iff.mp hg).1 ▸ hg, hr⟩
  free x hx hxrid := by
    rcases mem_append.mp hx with hx | hx
    · exact h.free x hx hxrid
    · rw [mem_singleton.mp hx]

lemma Spared.generateTask (r : Key) : Spared rid (s.generateTask r) := by
  have hnote : Spared rid ({ s with ridVar := some r }.noteSession r) :=
    h.of_subset rfl rfl (List.Subset.refl _)
  rcases generateTask_cases s r with heq | heq
  · exact heq ▸ hnote
  · exact heq ▸ (hnote.startTask r).collect

/-- An iteration spares the request. -/
lemma Spared.poll : Spared rid s.poll := by
  obtain heq | ⟨target, rest, hq, heq⟩ | ⟨r, rest, hq, heq⟩ := poll_cases s
  · exact heq ▸ h.of_subset rfl rfl (List.Subset.refl _)
  · have hrest : Spared rid { s with inQ := rest, taskType := some .abort } :=
      { h with inQ := fun t ht => h.inQ t (by simp [hq, ht]) }
    exact heq ▸ (hrest.abortTask (h.inQ target (by simp [hq]))).collect
  · have hrest : Spared rid { s with inQ := rest, taskType := some .generate } :=
      { h with inQ := fun t ht => h.inQ t (by simp [hq, ht]) }
    exact heq ▸ hrest.generateTask r

end

lemma spared_step {t : TurnId} (howns : t.Owns rid) (h : Spared rid s) (hact : a.Spares t.session)
    (hstep : workerStep s a = some s') : Spared rid s' := by
  cases a with
  | submit task =>
    cases hstep
    refine { h with inQ := fun target hmem => ?_ }
    rcases mem_append.mp hmem with hmem | hmem
    · exact h.inQ target hmem
    · rw [← mem_singleton.mp hmem] at hact
      obtain ⟨other, hne, rfl⟩ := hact
      exact fun hoccurs => hne (SessionId.eq_of_infix howns hoccurs)
  | poll =>
    simp only [workerStep] at hstep
    split at hstep
    · exact Option.some.inj hstep ▸ h.poll
    · cases hstep
  | wake =>
    simp only [workerStep] at hstep
    split at hstep
    · exact Option.some.inj hstep ▸ h.collect
    · cases hstep
  | flush =>
    simp only [workerStep] at hstep
    split at hstep
    · exact Option.some.inj hstep ▸ h.of_subset rfl rfl (List.Subset.refl _)
    · cases hstep
  | start i | yield i o | put i =>
    obtain ⟨g, hg, -, rfl⟩ := onGen_eq_some hstep
    exact h.of_set hg rfl rfl rfl rfl (List.Subset.refl _)
  | finish i | fail i =>
    obtain ⟨g, hg, -, rfl⟩ := onGen_eq_some hstep
    exact h.of_set hg rfl rfl rfl rfl (filter_subset_self _)
  | cancelled i =>
    obtain ⟨g, hg, -, rfl⟩ := onGen_eq_some hstep
    split_ifs
    · exact h.of_set hg rfl rfl rfl rfl (List.Subset.refl _)
    · exact h.of_set hg rfl rfl rfl rfl (filter_subset_self _)
  | callback i =>
    obtain ⟨g, hg, -, rfl⟩ := onGen_eq_some hstep
    cases hvar : s.ridVar with
    | none => exact h.of_set hg rfl rfl rfl rfl (List.Subset.refl _)
    | some r => exact h.of_set hg rfl rfl rfl rfl (filter_subset_self _)

/-! ## The count of the outputs -/

lemma heldFor_of_isNone (h : g.held = none) : g.heldFor rid = 0 := by
  simp [Generation.heldFor, h]

lemma heldFor_of_ne (h : g.rid ≠ rid) : g.heldFor rid = 0 := by
  unfold Generation.heldFor valuesFor
  cases g.held with
  | none => rfl
  | some o => simp [h]

/-- Custody after a coroutine has been replaced: what the queue and the coroutine have gained. -/
lemma custody_of_set {more : Multiset ω} (hg : s.gens[i]? = some g)
    (hgens : s'.gens = s.gens.set i g') (hsent : s'.sent = s.sent) (hbatch : s'.batch = s.batch)
    (hmore : valuesFor rid s'.generationOutQ + g'.heldFor rid =
      valuesFor rid s.generationOutQ + g.heldFor rid + more) :
    s'.custody rid = s.custody rid + more := by
  have hsum := Custody.sum_map_set (Generation.heldFor rid) hg g'
  rw [StageWorker.custody, StageWorker.custody, hgens, hsent, hbatch]
  refine add_right_cancel (b := g.heldFor rid) ?_
  calc
    _ = valuesFor rid s.sent + valuesFor rid s.batch + valuesFor rid s'.generationOutQ +
          (((s.gens.set i g').map (Generation.heldFor rid)).sum + g.heldFor rid) := by abel
    _ = valuesFor rid s.sent + valuesFor rid s.batch + (s.gens.map (Generation.heldFor rid)).sum +
          (valuesFor rid s'.generationOutQ + g'.heldFor rid) := by
      rw [hsum]
      abel
    _ = _ := by
      rw [hmore]
      abel

lemma custody_collect (hbatch : s.batch = []) : s.collect.custody rid = s.custody rid := by
  have hcollected : s.collect.batch = s.generationOutQ := rfl
  rw [StageWorker.custody, StageWorker.custody, hcollected, hbatch]
  simp [StageWorker.collect, StageWorker.sent]

/-- An abort touches no output. -/
lemma custody_abortTask (target : Key) : (s.abortTask target).custody rid = s.custody rid := by
  have hheld : (s.abortTask target).gens.map (Generation.heldFor rid) =
      s.gens.map (Generation.heldFor rid) := by
    refine ext_getElem? fun i => ?_
    rw [StageWorker.abortTask, getElem?_map, getElem?_mapIdx, getElem?_map]
    cases s.gens[i]? with
    | none => rfl
    | some g =>
      rw [Option.map_some, Option.map_some, Option.map_some]
      split_ifs
      · rfl
      · rfl
  rw [StageWorker.custody, hheld]
  rfl

/-- A start touches no output. -/
lemma custody_startTask (r : Key) : (s.startTask r).custody rid = s.custody rid := by
  have hheld : ((s.startTask r).gens.map (Generation.heldFor rid)).sum =
      (s.gens.map (Generation.heldFor rid)).sum := by
    simp [StageWorker.startTask, heldFor_of_isNone]
  rw [StageWorker.custody, hheld]
  rfl

/-- An iteration up to its first `await` keeps the count. -/
lemma custody_poll (hphase : s.phase = .head) : s.poll.custody rid = s.custody rid := by
  have hbatch : s.batch = [] := by simp [StageWorker.batch, hphase]
  obtain heq | ⟨target, rest, hq, heq⟩ | ⟨r, rest, hq, heq⟩ := poll_cases s
  · rw [heq, StageWorker.custody, StageWorker.custody, hbatch]
    rfl
  · rw [heq, custody_collect, custody_abortTask]
    · rfl
    · exact hbatch
  · rw [heq]
    rcases generateTask_cases { s with inQ := rest, taskType := some .generate } r with hgen | hgen
    · rw [hgen]
      rfl
    · rw [hgen, custody_collect, custody_startTask]
      · rfl
      · exact hbatch

lemma produced_poll : s.poll.produced = s.produced := by
  obtain heq | ⟨target, rest, hq, heq⟩ | ⟨r, rest, hq, heq⟩ := poll_cases s
  · rw [heq]
  · rw [heq]
    rfl
  · rcases generateTask_cases { s with inQ := rest, taskType := some .generate } r with hgen | hgen
    · rw [heq, hgen]
      rfl
    · rw [heq, hgen]
      rfl

/-- Every event but the output loop keeps the count of a spared request in step with what has been
produced. -/
lemma custody_step (h : Spared rid s) (hstep : workerStep s a = some s') (hact : a ≠ .flush) :
    ∃ more, s'.custody rid = s.custody rid + more ∧
      valuesFor rid s'.produced = valuesFor rid s.produced + more := by
  cases a with
  | submit task =>
    cases hstep
    exact ⟨0, (add_zero _).symm, (add_zero _).symm⟩
  | poll =>
    simp only [workerStep] at hstep
    split at hstep
    · rename_i hphase
      cases hstep
      exact ⟨0, by rw [custody_poll hphase, add_zero], by rw [produced_poll, add_zero]⟩
    · cases hstep
  | wake =>
    simp only [workerStep] at hstep
    split at hstep
    · rename_i hphase
      cases hstep
      have hbatch : s.batch = [] := by simp [StageWorker.batch, hphase]
      exact ⟨0, by rw [custody_collect hbatch, add_zero], (add_zero _).symm⟩
    · cases hstep
  | flush => exact absurd rfl hact
  | start i | finish i =>
    obtain ⟨g, hg, -, rfl⟩ := onGen_eq_some hstep
    exact ⟨0, custody_of_set hg rfl rfl rfl (add_zero _).symm, (add_zero _).symm⟩
  | yield i o =>
    obtain ⟨g, hg, hready, rfl⟩ := onGen_eq_some hstep
    have hheld : g.heldFor rid = 0 := heldFor_of_isNone (by simp_all [Generation.ready])
    refine ⟨valuesFor rid [(g.rid, o)], custody_of_set hg rfl rfl rfl ?_, valuesFor_append _ _⟩
    rw [hheld, add_zero]
    rfl
  | put i =>
    obtain ⟨g, hg, -, rfl⟩ := onGen_eq_some hstep
    refine ⟨0, custody_of_set hg rfl rfl rfl ?_, (add_zero _).symm⟩
    rw [valuesFor_append, heldFor_of_isNone rfl, add_zero, add_zero]
    rfl
  | fail i =>
    obtain ⟨g, hg, -, rfl⟩ := onGen_eq_some hstep
    refine ⟨0, custody_of_set hg rfl ?_ rfl (add_zero _).symm, (add_zero _).symm⟩
    simp [StageWorker.sent]
  | cancelled i =>
    obtain ⟨g, hg, hready, rfl⟩ := onGen_eq_some hstep
    have hother : g.rid ≠ rid := by
      intro hrid
      have hfree := h.free g (mem_of_getElem? hg) hrid
      simp [hfree] at hready
    split_ifs
    · refine ⟨0, custody_of_set hg rfl rfl rfl ?_, (add_zero _).symm⟩
      rw [heldFor_of_ne hother, heldFor_of_isNone rfl, add_zero, add_zero, add_zero]
      rfl
    · refine ⟨0, custody_of_set hg rfl rfl rfl ?_, (add_zero _).symm⟩
      rw [heldFor_of_ne hother, heldFor_of_isNone rfl, add_zero, add_zero, add_zero]
      rfl
  | callback i =>
    obtain ⟨g, hg, -, rfl⟩ := onGen_eq_some hstep
    cases hvar : s.ridVar with
    | none => exact ⟨0, custody_of_set hg rfl rfl rfl (add_zero _).symm, (add_zero _).symm⟩
    | some r => exact ⟨0, custody_of_set hg rfl rfl rfl (add_zero _).symm, (add_zero _).symm⟩

lemma custody_flush {batch : List (Key × ω)} (hphase : s.phase = .collected batch) :
    (s.flush batch).custody rid + (if s.passes rid then 0 else valuesFor rid s.batch) =
      s.custody rid := by
  have hbatch : s.batch = batch := by simp [StageWorker.batch, hphase]
  have hempty : (s.flush batch).batch = [] := rfl
  rw [StageWorker.custody, sent_flush, valuesFor_append, valuesFor_filter, hempty,
    StageWorker.custody, hbatch]
  split_ifs
  · simp only [valuesFor_nil, add_zero]
    rfl
  · simp only [valuesFor_nil, add_zero]
    rw [add_right_comm, add_right_comm (valuesFor rid s.sent)]
    rfl

/-- An event keeps everything of a spared request iff its outputs pass. -/
lemma nothingLost_step_iff (h : Spared rid s) (hs : NothingLost rid s)
    (hstep : workerStep s a = some s') : NothingLost rid s' ↔ OutputsPass rid s a := by
  by_cases hflush : a = .flush
  · subst hflush
    simp only [workerStep] at hstep
    split at hstep
    · rename_i batch hphase
      cases hstep
      have hproduced : NothingLost rid (s.flush batch) ↔
          (s.flush batch).custody rid = s.custody rid := by
        rw [hs]
        rfl
      have hcount : (s.flush batch).custody rid + _ = s.custody rid := custody_flush hphase
      rw [hproduced, ← hcount, left_eq_add]
      cases hpasses : s.passes rid with
      | true =>
        refine iff_of_true (if_pos rfl) fun _ => ?_
        simpa [StageWorker.passes] using hpasses
      | false =>
        rw [if_neg Bool.false_ne_true, valuesFor_eq_zero_iff]
        refine ⟨fun hnot hmem => absurd hmem hnot, fun hpass hmem => ?_⟩
        have hor := hpass hmem
        simp [StageWorker.passes] at hpasses
        exact hor.elim hpasses.1 hpasses.2
    · cases hstep
  · obtain ⟨more, hcustody, hproduced⟩ := custody_step h hstep hflush
    refine iff_of_true ?_ ?_
    · rw [NothingLost, hcustody, hproduced, hs]
    · cases a with
      | flush => exact absurd rfl hflush
      | _ => trivial

/-- In a run in which no `ABORT` names the session of a request, what is on `out_q`, or on its way
there, is a part of what the engine has put out. -/
theorem outputs_never_repeated {t : TurnId} (howns : t.Owns rid) {acts : List (WorkerAct ω)}
    (hspares : ∀ a ∈ acts, a.Spares t.session) :
    EveryState workerStep (fun s => s.custody rid ≤ valuesFor rid s.produced) {} acts := by
  refine everyState_of_allSteps
    (I := fun s => Spared rid s ∧ s.custody rid ≤ valuesFor rid s.produced)
    (fun s a s' h hact hstep => ⟨spared_step howns h.1 hact hstep, ?_⟩) (fun _ h => h.2)
    ⟨⟨by simp, by simp, by simp⟩, le_rfl⟩ (allSteps_of_forall_mem hspares)
  by_cases hflush : a = .flush
  · subst hflush
    simp only [workerStep] at hstep
    split at hstep
    · rename_i batch hphase
      cases hstep
      refine le_trans ?_ h.2
      rw [← custody_flush hphase]
      exact Multiset.le_add_right _ _
    · cases hstep
  · obtain ⟨more, hcustody, hproduced⟩ := custody_step h.1 hstep hflush
    rw [hcustody, hproduced]
    exact add_le_add_left h.2 more

/-- In a run in which no `ABORT` names the session of a request, none of it is lost in any state iff
its outputs pass whenever the output loop finds some. -/
theorem outputs_kept_iff_pass {t : TurnId} (howns : t.Owns rid) {acts : List (WorkerAct ω)}
    (hspares : ∀ a ∈ acts, a.Spares t.session) (hrun : run workerStep {} acts = some s) :
    EveryState workerStep (NothingLost rid) {} acts ↔
      AllSteps workerStep (OutputsPass rid) {} acts := by
  have hinit : Spared rid ({} : StageWorker ω) := ⟨by simp, by simp, by simp⟩
  exact everyState_iff_allSteps (I := Spared rid)
    (fun _ _ _ h hact hstep => spared_step howns h hact hstep)
    (fun _ _ _ h hs hstep => nothingLost_step_iff h hs hstep) hinit rfl
    (allSteps_of_forall_mem hspares) hrun

instance (rid : Key) (s : StageWorker ω) : DecidablePred (OutputsPass rid s)
  | .flush =>
    inferInstanceAs (Decidable (rid ∈ s.batch.map Prod.fst →
      rid ∈ OrderedDict.keys s.active ∨ s.taskType = some .generate))
  | .submit _ | .poll | .wake | .start _ | .yield _ _ | .put _ | .finish _ | .fail _
  | .cancelled _ | .callback _ => isTrue trivial

/-! ## An abort between an output and the loop -/

/-- The request of one session. -/
def ownTurn : TurnId := { someTurn with session := .repeated 'b' (by decide) }

/-- A session that is aborted. -/
def otherSession : SessionId := .repeated 'a' (by decide)

/-- The request is answered with one output and ends, while the loop handles other tasks; `early`
says whether the loop collects the output before the abort. -/
def abortRun (early : Bool) : List (WorkerAct ℕ) :=
  [.submit (.generate ownTurn.text), .poll, .flush, .start 0, .yield 0 7, .put 0, .finish 0,
    .callback 0] ++
    (if early then [.poll, .wake, .flush] else []) ++
    [.submit (.abort otherSession.text), .poll, .flush]

lemma abortRun_spares (early : Bool) : ∀ a ∈ abortRun early, a.Spares ownTurn.session := by
  have habort : ∃ other : SessionId, other ≠ ownTurn.session ∧ otherSession.text = other.text :=
    ⟨otherSession, by decide, rfl⟩
  cases early with
  | true => simpa [abortRun, WorkerAct.Spares] using habort
  | false => simpa [abortRun, WorkerAct.Spares] using habort

theorem outputs_never_repeated_abortRun :
    EveryState workerStep (fun s => s.custody ownTurn.text ≤ valuesFor ownTurn.text s.produced) {}
      (abortRun false) :=
  outputs_never_repeated .stage0 (abortRun_spares false)

/-- Collected before the abort, the output is put on `out_q`. -/
theorem outputs_kept_abortRun :
    EveryState workerStep (NothingLost ownTurn.text) {} (abortRun true) := by
  obtain ⟨s, hrun⟩ : ∃ s, run workerStep {} (abortRun true) = some s :=
    Option.isSome_iff_exists.mp (by decide +kernel)
  exact (outputs_kept_iff_pass .stage0 (abortRun_spares true) hrun).mpr (by decide +kernel)

/-- Collected after it, the output is dropped. -/
theorem output_dropped_abortRun :
    ∃ s : StageWorker ℕ, run workerStep {} (abortRun false) = some s ∧
      s.produced = [(ownTurn.text, 7)] ∧ s.outQ = [] ∧ s.generationOutQ = [] ∧
      ¬ NothingLost ownTurn.text s :=
  exists_reached (by decide +kernel)

end OmniStreaming
