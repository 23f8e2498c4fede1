import OmniStreaming.Lib.Transition
import OmniStreaming.Stage.Worker

/-!
# Which generations an abort can reach

An `ABORT` finds the coroutines of its session in `active_generation_tasks`, so the map should hold
the unfinished ones, each under its own id. An entry goes when its coroutine ends, when an abort
takes it out, and when a done-callback runs; the callback pops whatever id the loop variable `rid`
has then.

`ActiveExact` says that the map holds the unfinished coroutines and nothing else. Along a run with
distinct request ids it holds in every state iff no callback finds the id of an unfinished coroutine
in the variable.
-/

namespace OmniStreaming

open List Transition

variable {ω : Type*}

/-! ## The unfinished coroutines -/

/-- The coroutine has not ended and has not been cancelled. -/
def Generation.unfinished (g : Generation ω) : Bool :=
  (g.status = .created || g.status = .waiting) && !g.cancelling

variable (s : StageWorker ω)

/-- The unfinished coroutines: their request ids and their numbers. -/
def StageWorker.unfinished : List (Key × ℕ) :=
  s.gens.zipIdx.filterMap fun x => if x.1.unfinished then some (x.1.rid, x.2) else none

/-- The map of active tasks holds the unfinished coroutines, each under its request id, and nothing
else. -/
def ActiveExact : Prop := ∀ e, e ∈ s.active ↔ e ∈ s.unfinished

/-- Whatever session an `ABORT` names now, it cancels every unfinished coroutine of the session. -/
def AbortReaches : Prop :=
  ∀ (session : Key) (i : ℕ) (g : Generation ω), s.gens[i]? = some g → g.unfinished = true →
    session <:+: g.rid → ∃ g', (s.abortTask session).gens[i]? = some g' ∧ g'.cancelling = true

/-- Every unfinished generation can be cancelled. -/
structure Cancellable (s : StageWorker ω) : Prop where
  exact : ActiveExact s
  reached : AbortReaches s

/-- The callback of a coroutine does not find the id of an unfinished coroutine in the variable of
the loop. -/
def CallbackSpares : WorkerAct ω → Prop
  | .callback _ => ∀ rid ∈ s.ridVar, rid ∉ OrderedDict.keys s.unfinished
  | _ => True

/-! ## Request ids -/

/-- The id of a `GENERATE` task. -/
def StageTask.generateId : StageTask → Option Key
  | .generate rid => some rid
  | .abort _ => none

/-- The id of the `GENERATE` task that an event submits. -/
def WorkerAct.generateId : WorkerAct ω → Option Key
  | .submit t => t.generateId
  | _ => none

/-- The ids that have been started and those still on the input queue. -/
def StageWorker.requestIds : List Key :=
  s.gens.map Generation.rid ++ s.inQ.filterMap StageTask.generateId

variable {s s' : StageWorker ω} {a : WorkerAct ω} {i : ℕ} {g g' : Generation ω} {rid : Key}
  {e : Key × ℕ}

/-- The unfinished coroutines. -/
lemma mem_unfinished : e ∈ s.unfinished ↔
    ∃ g, s.gens[e.2]? = some g ∧ g.rid = e.1 ∧ g.unfinished = true := by
  obtain ⟨rid, i⟩ := e
  simp only [StageWorker.unfinished, mem_filterMap, Option.ite_none_right_eq_some,
    Option.some.injEq, Prod.mk.injEq]
  constructor
  · rintro ⟨⟨g, j⟩, hmem, hg, rfl, rfl⟩
    exact ⟨g, mem_zipIdx_iff_getElem?.mp hmem, rfl, hg⟩
  · rintro ⟨g, hmem, rfl, hg⟩
    exact ⟨(g, i), mem_zipIdx_iff_getElem?.mpr hmem, hg, rfl, rfl⟩

/-- With distinct ids, an unfinished coroutine with the id of coroutine `i` is coroutine `i`. -/
lemma eq_iff_of_mem_unfinished (hids : s.requestIds.Nodup) (hg : s.gens[i]? = some g)
    (he : e ∈ s.unfinished) : e.2 = i ↔ e.1 = g.rid := by
  obtain ⟨g', hg', hrid, -⟩ := mem_unfinished.mp he
  constructor
  · rintro rfl
    rw [← hrid, Option.some.inj (hg'.symm.trans hg)]
  · intro heq
    have hgens : (s.gens.map Generation.rid).Nodup := hids.sublist (sublist_append_left _ _)
    have hi : (s.gens.map Generation.rid)[i]? = some g.rid := by rw [getElem?_map, hg]; rfl
    have he : (s.gens.map Generation.rid)[e.2]? = some g.rid := by
      rw [getElem?_map, hg', Option.map_some, hrid, heq]
    exact (getElem?_inj (List.getElem?_eq_some_iff.mp he).1 hgens).mp (he.trans hi.symm)

/-! ## What the changes of the map and of the coroutines do -/

/-- A coroutine that changes without ending or being cancelled stays as unfinished as it was. -/
lemma mem_unfinished_setGen (hg : s.gens[i]? = some g) (hrid : g'.rid = g.rid)
    (hsame : g'.unfinished = g.unfinished) : e ∈ (s.setGen i g').unfinished ↔ e ∈ s.unfinished := by
  have hi : i < s.gens.length := (List.getElem?_eq_some_iff.mp hg).1
  rw [mem_unfinished, mem_unfinished]
  by_cases he : i = e.2
  · subst he
    simp [StageWorker.setGen, getElem?_set_self hi, hg, hrid, hsame]
  · simp only [StageWorker.setGen, getElem?_set_ne he]

/-- A coroutine that ends is no longer unfinished, the others are as they were. -/
lemma mem_unfinished_setGen_ended (hg : s.gens[i]? = some g) (hended : g'.unfinished = false) :
    e ∈ (s.setGen i g').unfinished ↔ e ∈ s.unfinished ∧ e.2 ≠ i := by
  have hi : i < s.gens.length := (List.getElem?_eq_some_iff.mp hg).1
  rw [mem_unfinished, mem_unfinished]
  by_cases he : i = e.2
  · subst he
    simp [StageWorker.setGen, getElem?_set_self hi, hended]
  · simp only [StageWorker.setGen, getElem?_set_ne he, ne_eq, Ne.symm he, not_false_eq_true,
      and_true]

section

variable (h : ActiveExact s)
include h

/-- What does not change the coroutines and the map keeps the map exact. -/
lemma ActiveExact.of_eq (hactive : s'.active = s.active) (hgens : s'.gens = s.gens) :
    ActiveExact s' := by
  intro e
  rw [hactive, h e, mem_unfinished, mem_unfinished, hgens]

/-- A coroutine that changes without ending or being cancelled keeps the map exact. -/
lemma ActiveExact.of_set (hg : s.gens[i]? = some g) (hactive : s'.active = s.active)
    (hgens : s'.gens = s.gens.set i g') (hrid : g'.rid = g.rid)
    (hsame : g'.unfinished = g.unfinished) : ActiveExact s' := by
  have hset : ActiveExact (s.setGen i g') := fun e =>
    (h e).trans (mem_unfinished_setGen hg hrid hsame).symm
  exact hset.of_eq hactive hgens

/-- A coroutine that ends and takes its own id out of the map. -/
lemma ActiveExact.pop_ended (hids : s.requestIds.Nodup) (hg : s.gens[i]? = some g)
    (hended : g'.unfinished = false) :
    ActiveExact ((s.setGen i g').popActive g.rid) := by
  intro e
  refine OrderedDict.mem_pop.trans ((and_congr_left' (h e)).trans ?_)
  refine Iff.trans ?_ (mem_unfinished_setGen_ended hg hended).symm
  exact and_congr_right fun he => not_congr (eq_iff_of_mem_unfinished hids hg he).symm

/-- A coroutine that had been cancelled ends without touching the map. -/
lemma ActiveExact.of_ended (hg : s.gens[i]? = some g) (hcancelled : g.unfinished = false)
    (hended : g'.unfinished = false) :
    ActiveExact (s.setGen i g') := by
  intro e
  refine (h e).trans (Iff.trans ?_ (mem_unfinished_setGen_ended hg hended).symm)
  refine (and_iff_left_of_imp fun he hi => ?_).symm
  obtain ⟨x, hx, -, hunfinished⟩ := mem_unfinished.mp he
  rw [hi, hg] at hx
  rw [← Option.some.inj hx, hcancelled] at hunfinished
  cases hunfinished

/-- A started coroutine is entered under an id that the map does not have. -/
lemma ActiveExact.startTask (hnew : rid ∉ s.gens.map Generation.rid) :
    ActiveExact (s.startTask rid) := by
  have hkey : rid ∉ OrderedDict.keys s.active := by
    intro hmem
    obtain ⟨e, he, hrid⟩ := mem_map.mp hmem
    obtain ⟨g, hg, hge, -⟩ := mem_unfinished.mp ((h e).mp he)
    exact hnew (mem_map.mpr ⟨g, mem_of_getElem? hg, hge.trans hrid⟩)
  intro e
  have hactive : e ∈ (s.startTask rid).active ↔ e ∈ s.active ∨ e = (rid, s.gens.length) := by
    simp [StageWorker.startTask, OrderedDict.set, hkey]
  rw [hactive, h e, mem_unfinished, mem_unfinished]
  constructor
  · rintro (⟨g, hg, hrest⟩ | rfl)
    · refine ⟨g, ?_, hrest⟩
      exact (getElem?_append_left (List.getElem?_eq_some_iff.mp hg).1).trans hg
    · exact ⟨{ rid := rid }, getElem?_concat_length, rfl, rfl⟩
  · rintro ⟨g, hg, hrid, hunfinished⟩
    rcases lt_trichotomy e.2 s.gens.length with hlt | heq | hgt
    · refine .inl ⟨g, ?_, hrid, hunfinished⟩
      exact (getElem?_append_left hlt).symm.trans hg
    · right
      have hlast : (s.startTask rid).gens[e.2]? = some { rid := rid } := by
        rw [heq]
        exact getElem?_concat_length
      rw [Option.some.inj (hg.symm.trans hlast)] at hrid
      exact Prod.ext hrid.symm heq
    · have hnone : (s.startTask rid).gens[e.2]? = none :=
        getElem?_eq_none (by simpa [StageWorker.startTask] using Nat.succ_le_of_lt hgt)
      rw [hnone] at hg
      cases hg

/-- With an exact map, an abort cancels `i` iff it is unfinished and its id contains the
session's. -/
lemma ActiveExact.targets_iff (session : Key) (hg : s.gens[i]? = some g) :
    ((s.active.filter fun e => session <:+: e.1).any fun e => e.2 = i) = true ↔
      g.unfinished = true ∧ session <:+: g.rid := by
  simp only [any_eq_true, mem_filter, decide_eq_true_eq]
  constructor
  · rintro ⟨e, ⟨he, hsession⟩, rfl⟩
    obtain ⟨x, hx, hrid, hunfinished⟩ := mem_unfinished.mp ((h e).mp he)
    cases hx.symm.trans hg
    exact ⟨hunfinished, hrid ▸ hsession⟩
  · rintro ⟨hunfinished, hsession⟩
    exact ⟨(g.rid, i), ⟨(h _).mpr (mem_unfinished.mpr ⟨g, hg, rfl, hunfinished⟩), hsession⟩, rfl⟩

omit h in
/-- Coroutine `i` after an abort. -/
lemma getElem?_abortTask (session : Key) (i : ℕ) :
    (s.abortTask session).gens[i]? = (s.gens[i]?).map fun g =>
      if (s.active.filter fun e => session <:+: e.1).any fun e => e.2 = i then
        { g with cancelling := true } else g := by
  simp only [StageWorker.abortTask, getElem?_mapIdx]

/-- With an exact map, the coroutines that an abort leaves unfinished are those of other
sessions. -/
lemma ActiveExact.mem_unfinished_abortTask (session : Key) :
    e ∈ (s.abortTask session).unfinished ↔ e ∈ s.unfinished ∧ ¬ session <:+: e.1 := by
  rw [mem_unfinished, mem_unfinished, getElem?_abortTask]
  cases hg : s.gens[e.2]? with
  | none => simp
  | some g =>
    simp only [Option.map_some, Option.some.injEq, exists_eq_left']
    split_ifs with htarget
    · obtain ⟨-, hsession⟩ := (h.targets_iff session hg).mp htarget
      have hcancelled : ({ g with cancelling := true } : Generation ω).unfinished = false := by
        simp [Generation.unfinished]
      simp only [hcancelled, Bool.false_eq_true, and_false, false_iff]
      rintro ⟨⟨hrid, -⟩, hother⟩
      exact hother (hrid ▸ hsession)
    · refine (and_iff_left_of_imp ?_).symm
      rintro ⟨hrid, hunfinished⟩ hsession
      exact htarget ((h.targets_iff session hg).mpr ⟨hunfinished, hrid ▸ hsession⟩)

/-- An abort keeps the map exact. -/
lemma ActiveExact.abortTask (session : Key) : ActiveExact (s.abortTask session) := by
  intro e
  have hactive : e ∈ (s.abortTask session).active ↔ e ∈ s.active ∧ ¬ session <:+: e.1 := by
    simp [StageWorker.abortTask, OrderedDict.popKeys]
  rw [hactive, h e, h.mem_unfinished_abortTask session]

/-- With an exact map an abort reaches every unfinished coroutine of its session. -/
lemma ActiveExact.abortReaches : AbortReaches s := by
  intro session i g hg hunfinished hsession
  rw [getElem?_abortTask, hg, Option.map_some, if_pos]
  · exact ⟨_, rfl, rfl⟩
  · exact (h.targets_iff session hg).mpr ⟨hunfinished, hsession⟩

end

lemma cancellable_iff : Cancellable s ↔ ActiveExact s :=
  ⟨Cancellable.exact, fun h => ⟨h, h.abortReaches⟩⟩

/-! ## The steps -/

lemma requestIds_sublist (hgens : s'.gens.map Generation.rid = s.gens.map Generation.rid)
    (hinQ : s'.inQ = s.inQ) (more : List Key) :
    s'.requestIds.Sublist (s.requestIds ++ more) := by
  rw [StageWorker.requestIds, hgens, hinQ]
  exact sublist_append_left _ _

/-- A coroutine keeps its request id. -/
lemma requestIds_of_set (hg : s.gens[i]? = some g) (hgens : s'.gens = s.gens.set i g')
    (hrid : g'.rid = g.rid) (hinQ : s'.inQ = s.inQ) (more : List Key) :
    s'.requestIds.Sublist (s.requestIds ++ more) := by
  refine requestIds_sublist ?_ hinQ more
  obtain ⟨hi, rfl⟩ := List.getElem?_eq_some_iff.mp hg
  rw [hgens, map_set, hrid, ← getElem_map Generation.rid (h := by simpa using hi),
    set_getElem_self]

/-- An abort changes no request id. -/
lemma requestIds_abortTask (session : Key) : (s.abortTask session).requestIds = s.requestIds := by
  have hgens : (s.abortTask session).gens.map Generation.rid = s.gens.map Generation.rid := by
    refine ext_getElem? fun i => ?_
    rw [getElem?_map, getElem?_map, getElem?_abortTask, Option.map_map]
    refine congrArg (Option.map · _) (funext fun g => ?_)
    simp only [Function.comp_apply]
    split <;> rfl
  exact congrArg (· ++ s.inQ.filterMap StageTask.generateId) hgens

/-- The id of a started coroutine stands between those of the others and those on the queue. -/
lemma requestIds_startTask : (s.startTask rid).requestIds =
    s.gens.map Generation.rid ++ rid :: s.inQ.filterMap StageTask.generateId := by
  simp [StageWorker.requestIds, StageWorker.startTask]

/-- The loop moves the id of a `GENERATE` task from the queue to the coroutines, or drops it. -/
lemma requestIds_poll : s.poll.requestIds.Sublist s.requestIds := by
  obtain heq | ⟨session, rest, hq, heq⟩ | ⟨rid, rest, hq, heq⟩ := poll_cases s
  · exact heq ▸ List.Sublist.refl _
  · have hids : s.requestIds =
        s.gens.map Generation.rid ++ rest.filterMap StageTask.generateId := by
      rw [StageWorker.requestIds, hq, filterMap_cons_none rfl]
    rw [heq, hids]
    exact (requestIds_abortTask (s := { s with inQ := rest, taskType := some .abort }) session) ▸
      List.Sublist.refl _
  · have hids : s.requestIds =
        s.gens.map Generation.rid ++ rid :: rest.filterMap StageTask.generateId := by
      rw [StageWorker.requestIds, hq]
      rfl
    rw [heq, hids]
    obtain hgen | hgen :=
      generateTask_cases ({ s with inQ := rest, taskType := some .generate } : StageWorker ω) rid
    · rw [hgen]
      exact List.Sublist.append_left (sublist_cons_self _ _) _
    · rw [hgen]
      exact requestIds_startTask ▸ List.Sublist.refl _

/-- The ids after an event are among those before it and the one it submits, in the same order. -/
lemma requestIds_step (h : workerStep s a = some s') :
    s'.requestIds.Sublist (s.requestIds ++ a.generateId.toList) := by
  cases a with
  | submit t =>
    cases h
    have hids : (s.inQ ++ [t]).filterMap StageTask.generateId =
        s.inQ.filterMap StageTask.generateId ++ t.generateId.toList := by
      cases t <;> simp [StageTask.generateId]
    simp only [StageWorker.requestIds, hids, append_assoc]
    exact List.Sublist.refl _
  | poll =>
    simp only [workerStep] at h
    split at h
    · exact (Option.some.inj h ▸ requestIds_poll).trans (sublist_append_left _ _)
    · cases h
  | wake | flush =>
    simp only [workerStep] at h
    split at h
    · exact Option.some.inj h ▸ requestIds_sublist rfl rfl _
    · cases h
  | start i | yield i o | put i | finish i | fail i =>
    obtain ⟨g, hg, -, rfl⟩ := onGen_eq_some h
    apply requestIds_of_set hg <;> rfl
  | cancelled i =>
    obtain ⟨g, hg, -, rfl⟩ := onGen_eq_some h
    split_ifs <;> apply requestIds_of_set hg <;> rfl
  | callback i =>
    obtain ⟨g, hg, -, rfl⟩ := onGen_eq_some h
    cases s.ridVar <;> apply requestIds_of_set hg <;> rfl

/-- The part of an iteration before its first `await` keeps the map exact. -/
lemma ActiveExact.poll (h : ActiveExact s) (hids : s.requestIds.Nodup) : ActiveExact s.poll := by
  obtain heq | ⟨session, rest, -, heq⟩ | ⟨rid, rest, hq, heq⟩ := poll_cases s
  · exact heq ▸ h.of_eq rfl rfl
  · have hrest : ActiveExact { s with inQ := rest, taskType := some .abort } := h.of_eq rfl rfl
    exact heq ▸ (hrest.abortTask session).of_eq rfl rfl
  · rw [heq]
    obtain hgen | hgen :=
      generateTask_cases ({ s with inQ := rest, taskType := some .generate } : StageWorker ω) rid
    · exact hgen ▸ h.of_eq rfl rfl
    · have hnew : rid ∉ s.gens.map Generation.rid := by
        intro hmem
        have hdisjoint := (nodup_append.mp hids).2.2
        exact hdisjoint rid hmem rid (by simp [hq, StageTask.generateId]) rfl
      rw [hgen]
      exact (ActiveExact.startTask (h.of_eq rfl rfl) hnew).of_eq rfl rfl

/-- A callback keeps the map exact iff `rid` is not the id of an unfinished coroutine. -/
lemma activeExact_popActive_iff (h : ActiveExact s) :
    ActiveExact (s.popActive rid) ↔ rid ∉ OrderedDict.keys s.unfinished := by
  constructor
  · intro hpop hmem
    obtain ⟨e, he, hrid⟩ := mem_map.mp hmem
    exact (OrderedDict.mem_pop.mp ((hpop e).mpr he)).2 hrid
  · intro hkey e
    refine OrderedDict.mem_pop.trans ((and_congr_left' (h e)).trans (and_iff_left_of_imp ?_))
    exact fun he hrid => hkey (mem_map.mpr ⟨e, he, hrid⟩)

/-- With an exact map, an event keeps it exact iff it is no callback that finds the id of an
unfinished coroutine in `rid`. -/
lemma activeExact_step_iff (hids : s.requestIds.Nodup) (hs : ActiveExact s)
    (h : workerStep s a = some s') : ActiveExact s' ↔ CallbackSpares s a := by
  cases a with
  | submit t =>
    cases h
    exact iff_of_true (hs.of_eq rfl rfl) trivial
  | poll =>
    simp only [workerStep] at h
    split at h
    · exact iff_of_true (Option.some.inj h ▸ hs.poll hids) trivial
    · cases h
  | wake | flush =>
    simp only [workerStep] at h
    split at h
    · exact iff_of_true (Option.some.inj h ▸ hs.of_eq rfl rfl) trivial
    · cases h
  | start i =>
    obtain ⟨g, hg, hready, rfl⟩ := onGen_eq_some h
    refine iff_of_true (hs.of_set hg rfl rfl rfl ?_) trivial
    simp_all [Generation.unfinished]
  | yield i o | put i =>
    obtain ⟨g, hg, -, rfl⟩ := onGen_eq_some h
    exact iff_of_true (hs.of_set hg rfl rfl rfl rfl) trivial
  | finish i | fail i =>
    obtain ⟨g, hg, -, rfl⟩ := onGen_eq_some h
    exact iff_of_true ((hs.pop_ended hids hg rfl).of_eq rfl rfl) trivial
  | cancelled i =>
    obtain ⟨g, hg, hready, rfl⟩ := onGen_eq_some h
    refine iff_of_true ?_ trivial
    split_ifs
    · refine hs.of_ended hg ?_ rfl
      simp_all [Generation.unfinished]
    · exact hs.pop_ended hids hg rfl
  | callback i =>
    obtain ⟨g, hg, hready, rfl⟩ := onGen_eq_some h
    have hended : g.unfinished = false := by simp_all [Generation.unfinished]
    have hset : ActiveExact (s.setGen i { g with status := .released }) :=
      hs.of_ended hg hended rfl
    have hkeys : ∀ rid, rid ∈ OrderedDict.keys
        (s.setGen i { g with status := .released }).unfinished ↔
          rid ∈ OrderedDict.keys s.unfinished := by
      have hsame := fun e => (hset e).symm.trans (hs e)
      simp only [OrderedDict.keys, mem_map, hsame, implies_true]
    cases hvar : s.ridVar with
    | none => exact iff_of_true hset (by simp [CallbackSpares, hvar])
    | some rid =>
      refine (activeExact_popActive_iff hset).trans ?_
      simp [CallbackSpares, hvar, hkeys]

/-- In a run whose `GENERATE` tasks have distinct ids, every task is new when it is submitted. -/
lemma requestIds_nodup_along {acts : List (WorkerAct ω)}
    (h : (s.requestIds ++ acts.filterMap WorkerAct.generateId).Nodup) :
    AllSteps workerStep (fun s a => (s.requestIds ++ a.generateId.toList).Nodup) s acts := by
  induction acts generalizing s with
  | nil => trivial
  | cons a acts ih =>
    have hsplit : s.requestIds ++ (a :: acts).filterMap WorkerAct.generateId =
        (s.requestIds ++ a.generateId.toList) ++ acts.filterMap WorkerAct.generateId := by
      cases ha : a.generateId <;> simp [ha]
    rw [hsplit] at h
    refine ⟨h.sublist (sublist_append_left _ _), fun s' hstep => ih (h.sublist ?_)⟩
    exact List.Sublist.append_right (requestIds_step hstep) _

/-- In a run whose `GENERATE` tasks have distinct ids, every unfinished generation can be cancelled
in every state iff no done-callback finds the id of an unfinished one in `rid`. -/
theorem cancellable_iff_callbacks_spare {acts : List (WorkerAct ω)}
    (hids : (acts.filterMap WorkerAct.generateId).Nodup)
    (hrun : run workerStep {} acts = some s) :
    EveryState workerStep Cancellable {} acts ↔ AllSteps workerStep CallbackSpares {} acts := by
  have hinit : ActiveExact ({} : StageWorker ω) := fun e => by simp [StageWorker.unfinished]
  have hguard := requestIds_nodup_along (s := ({} : StageWorker ω)) hids
  refine everyState_iff_allSteps_of_guard (I := fun s => s.requestIds.Nodup)
    (fun _ _ _ _ hnew hstep => hnew.sublist (requestIds_step hstep)) ?_ nodup_nil
    (cancellable_iff.mpr hinit) hguard hrun
  intro s a s' hnodup hs _ hstep
  exact cancellable_iff.trans (activeExact_step_iff hnodup hs.exact hstep)

instance (s : StageWorker ω) : DecidablePred (CallbackSpares s)
  | .callback _ =>
    inferInstanceAs (Decidable (∀ rid ∈ s.ridVar, rid ∉ OrderedDict.keys s.unfinished))
  | .submit _ | .poll | .wake | .flush | .start _ | .yield _ _ | .put _ | .finish _ | .fail _
  | .cancelled _ => isTrue trivial

instance (s : StageWorker ω) : Decidable (ActiveExact s) :=
  decidable_of_iff ((∀ e ∈ s.active, e ∈ s.unfinished) ∧ ∀ e ∈ s.unfinished, e ∈ s.active)
    ⟨fun h e => ⟨h.1 e, h.2 e⟩, fun h => ⟨fun e => (h e).mp, fun e => (h e).mpr⟩⟩

/-! ## A callback after the next task -/

/-- Two requests of a turn. If `early`, the first is done before the loop takes the second. -/
def twoRequestsRun (early : Bool) : List (WorkerAct ℕ) :=
  [.submit (.generate (stage1Key someTurn.text 0)), .poll, .start 0, .flush] ++
    (if early then [.finish 0, .callback 0] else []) ++
    [.submit (.generate (stage1Key someTurn.text 1)), .poll, .start 1] ++
    (if early then [] else [.finish 0, .callback 0])

/-- A generation that is done before the next task comes leaves every other one cancellable. -/
theorem cancellable_twoRequestsRun :
    EveryState workerStep Cancellable {} (twoRequestsRun true) := by
  obtain ⟨s, hrun⟩ : ∃ s, run workerStep {} (twoRequestsRun true) = some s :=
    Option.isSome_iff_exists.mp (by decide +kernel)
  exact (cancellable_iff_callbacks_spare (by decide +kernel) hrun).mpr (by decide +kernel)

/-- Otherwise its callback takes the entry of the second, which an abort of the session no longer
reaches. -/
theorem not_cancellable_twoRequestsRun :
    ∃ s : StageWorker ℕ, run workerStep {} (twoRequestsRun false) = some s ∧
      s.unfinished = [(stage1Key someTurn.text 1, 1)] ∧ s.active = [] ∧
      ((s.abortTask someTurn.session.text).gens[1]?.any fun g => g.unfinished) = true ∧
      ¬ ActiveExact s :=
  exists_reached (by decide +kernel)

end OmniStreaming
