import Mathlib.Algebra.Order.BigOperators.Group.Finset
import OmniStreaming.Server.DuplexOmni

/-!
# Tearing down a session

`cleanup_for_barge_in` takes away what the engine holds for the turns of a session, and
`stop_session` takes away the session. Both cancel the turns, which takes effect later: the workers
of a turn may enter request ids until it comes to its `finally` block, and the `process_and_send`
tasks even while it waits there, before the removal at the end of the block. But a turn that has
come to the block by itself and is cancelled there skips the removal, and what such a task enters
then stays.

A teardown leaves nothing of its session behind, whatever follows, iff it does not cancel a turn in
its `finally` block that has such a task left. Other sessions are never touched.
-/

namespace OmniStreaming

open Function List Transition

variable {μ : Type*}

/-! ## What a teardown is for -/

/-- The two ways to tear down a session. -/
inductive Teardown
  | bargeIn
  | stop
  deriving DecidableEq

/-- Tear down a session. -/
def DuplexOmni.tearDown (e : DuplexOmni μ) (s : SessionId) : Teardown → DuplexOmni μ
  | .bargeIn => e.cleanupForBargeIn s
  | .stop => e.stopSession s

/-- The call has returned and the tasks of the session that have been cancelled have finished. -/
def DuplexOmni.Finished (e : DuplexOmni μ) (s : SessionId) (kind : Teardown) : Prop :=
  (kind = .stop → e.stopping s = false) ∧
    ∀ t ∈ e.server.turns, t.id.session = s → t.cancelling = true → t.status = .ended

/-- No turn of the session below `N` has a coroutine, and what the engine holds for the session
belongs to turns started and utterances ended afterwards. -/
structure TornDown (e : DuplexOmni μ) (s : SessionId) (kind : Teardown) (N : ℕ) : Prop where
  turns : ∀ n < N, ∀ t, e.server.turns[n]? = some t → t.id.session = s →
    t.status = .ended ∧ (e.tasks n).sends = []
  requestStates : ∀ k n, (k, n) ∈ e.server.requestStates → s.text <+: k → N ≤ n
  activeTasks : ∀ n ∈ (e.server.sessions s).activeTasks.getD [], N ≤ n
  activeKey : (e.server.sessions s).activeTasks.isSome → ∃ n, N ≤ n ∧ e.server.statusOf s n ≠ none
  eouState : e.heard s = false → (e.server.sessions s).eouState = none
  stopped : kind = .stop → (e.server.sessions s).inputQueue = none ∧
    (e.server.sessions s).resultQueue = false ∧ (e.server.sessions s).sessionWorker = false

/-- The result queue has outputs of turns from `N` on only, and once the cancelled tasks have
finished the session is torn down. -/
def CleanFrom (s : SessionId) (kind : Teardown) (N : ℕ) (e : DuplexOmni μ) : Prop :=
  (∀ n ∈ e.results s, N ≤ n) ∧ (e.Finished s kind → TornDown e s kind N)

/-- A teardown cancels turn `n` in its `finally` block, or an earlier one has, and a
`process_and_send` task of the turn is left. -/
def DuplexOmni.CaughtInFinally (e : DuplexOmni μ) (s : SessionId) (n : ℕ) : Prop :=
  e.server.statusOf s n ≠ none ∧ (e.tasks n).finalizing = true ∧ (e.tasks n).sends ≠ [] ∧
    (n ∈ (e.server.sessions s).activeTasks.getD [] ∨ (e.tasks n).cut = true)

/-- Everything of the session is the same in both states. -/
structure DuplexOmni.SameFor (s : SessionId) (e e' : DuplexOmni μ) : Prop where
  session : e'.server.sessions s = e.server.sessions s
  results : e'.results s = e.results s
  requestStates : e'.server.requestStates.filter (fun x => s.text.isPrefixOf x.1) =
    e.server.requestStates.filter fun x => s.text.isPrefixOf x.1
  turns : ∀ (n : ℕ) (t : StartedTurn μ), t.id.session = s →
    (e'.server.turns[n]? = some t ↔ e.server.turns[n]? = some t)
  tasks : ∀ n, e.server.statusOf s n ≠ none → e'.tasks n = e.tasks n

/-- The events by which a teardown of the session comes to its end. -/
def DuplexAct.WindsUp (a : DuplexAct μ) (s : SessionId) (e : DuplexOmni μ) : Prop :=
  match a with
  | .stopped s' => s' = s
  | .finalize n | .leave n | .drop n => e.server.statusOf s n ≠ none
  | _ => False

variable {g : μ} {e e' : DuplexOmni μ} {s : SessionId} {n : ℕ} {kind : Teardown} {N : ℕ}

/-! ## After a teardown -/

lemma wired_tearDown (h : Wired e) (s : SessionId) (kind : Teardown) :
    Wired (e.tearDown s kind) := by
  cases kind with
  | bargeIn => exact wired_cleanupForBargeIn h s
  | stop => exact wired_stopSession h s

/-- The turns of the session below `N` are over or to be cancelled, those cancelled in their
`finally` block have no task left, and the others take out their ids when they end. -/
structure Tearing (s : SessionId) (kind : Teardown) (N : ℕ) (e : DuplexOmni μ) : Prop where
  le : N ≤ e.server.turns.length
  turns : ∀ n < N, ∀ t, e.server.turns[n]? = some t → t.id.session = s →
    t.status = .ended ∨ t.cancelling = true
  sends : ∀ n < N, e.server.statusOf s n ≠ none → (e.tasks n).cut = true → (e.tasks n).sends = []
  keys : ∀ k n, (k, n) ∈ e.server.requestStates → s.text <+: k → n < N →
    (e.tasks n).cut = false ∧ e.server.statusOf s n = some .running
  active : ∀ n ∈ (e.server.sessions s).activeTasks.getD [], N ≤ n
  activeKey : (e.server.sessions s).activeTasks.isSome → ∃ n, N ≤ n ∧ e.server.statusOf s n ≠ none
  results : ∀ n ∈ e.results s, N ≤ n
  worker : kind = .stop → (e.server.sessions s).worker = none ∧
    (e.server.sessions s).sessionWorker = false
  queues : kind = .stop → e.stopping s = false → (e.server.sessions s).inputQueue = none ∧
    (e.server.sessions s).resultQueue = false

/-- The result queue is clean, and when the cancelled tasks have finished the session is torn
down. -/
lemma Tearing.cleanFrom (h : Tearing s kind N e) (hwired : Wired e) : CleanFrom s kind N e := by
  refine ⟨h.results, fun ⟨hawaited, hended⟩ => ?_⟩
  have hover : ∀ n < N, ∀ t, e.server.turns[n]? = some t → t.id.session = s →
      t.status = .ended := by
    intro n hn t ht hts
    exact (h.turns n hn t ht hts).elim id (hended t (mem_of_getElem? ht) hts)
  refine ⟨fun n hn t ht hts => ⟨hover n hn t ht hts, ?_⟩, fun k n hmem hstarts => ?_, h.active,
    h.activeKey, hwired.eouState s, fun hkind => ?_⟩
  · rw [hwired.tasks_eq ht (by simp [hover n hn t ht hts])]
  · by_contra hlt
    obtain ⟨t, ht, hts, hrunning⟩ := statusOf_eq_some.mp (h.keys k n hmem hstarts (by omega)).2
    have hend := hover n (by omega) t ht hts
    simp [hrunning] at hend
  · exact ⟨(h.queues hkind (hawaited hkind)).1, (h.queues hkind (hawaited hkind)).2,
      (h.worker hkind).2⟩

variable {t : StartedTurn μ} {s' : SessionId} {m : ℕ}

section Entries

variable (hworker : kind = .stop → (e'.server.sessions s).worker = none ∧
    (e'.server.sessions s).sessionWorker = false)
  (hqueues : kind = .stop → e'.stopping s = false → (e'.server.sessions s).inputQueue = none ∧
    (e'.server.sessions s).resultQueue = false)
include hworker hqueues

/-- What matters are the turns and their requests, the tasks and the entries of the session. -/
lemma Tearing.congr (h : Tearing s kind N e) (hturns : e'.server.turns = e.server.turns)
    (hrequests : e'.server.requestStates ⊆ e.server.requestStates)
    (hcut : ∀ n, (e'.tasks n).cut = (e.tasks n).cut)
    (hsends : ∀ n, (e.tasks n).cut = true → (e'.tasks n).sends = (e.tasks n).sends)
    (hresults : ∀ n ∈ e'.results s, N ≤ n)
    (hactive : (e'.server.sessions s).activeTasks = (e.server.sessions s).activeTasks) :
    Tearing s kind N e' := by
  have hstatus : ∀ n, e'.server.statusOf s n = e.server.statusOf s n := by
    intro n
    rw [Server.statusOf, hturns, Server.statusOf]
  refine ⟨hturns ▸ h.le, hturns ▸ h.turns, fun n hn hs hc => ?_, fun k n hmem hstarts hn => ?_,
    hactive ▸ h.active, ?_, hresults, hworker, hqueues⟩
  · rw [hcut] at hc
    rw [hsends n hc]
    exact h.sends n hn (hstatus n ▸ hs) hc
  · rw [hcut, hstatus]
    exact h.keys k n (hrequests hmem) hstarts hn
  · rw [hactive]
    simp only [hstatus]
    exact h.activeKey

/-- A turn that the audio worker starts is a later one. -/
lemma Tearing.startTurn (h : Tearing s kind N e) {x : Server μ} {mode : Option μ}
    (hturns : x.turns = e.server.turns) (hrequests : x.requestStates = e.server.requestStates)
    (hactive : ∀ s, (x.sessions s).activeTasks = (e.server.sessions s).activeTasks)
    (hserver : e'.server = x.startTurn s' mode) (htasks : e'.tasks = e.tasks)
    (hresults : e'.results = e.results) :
    Tearing s kind N e' := by
  have hlen : x.turns.length = e.server.turns.length := by rw [hturns]
  have hturn : ∀ n < N, e'.server.turns[n]? = e.server.turns[n]? := by
    intro n hn
    rw [hserver, Server.startTurn, getElem?_append_left (by have := h.le; omega), hturns]
  have hstatus : ∀ n < N, e'.server.statusOf s n = e.server.statusOf s n := by
    intro n hn
    rw [Server.statusOf, hturn n hn, Server.statusOf]
  refine ⟨?_, fun n hn => ?_, fun n hn => ?_, fun k n hmem hstarts hn => ?_, fun n hn => ?_,
    fun hsome => ?_, hresults ▸ h.results, hworker, hqueues⟩
  · rw [hserver]
    exact h.le.trans (by simp [Server.startTurn, hlen])
  · rw [hturn n hn]
    exact h.turns n hn
  · rw [hstatus n hn, htasks]
    exact h.sends n hn
  · rw [hstatus n hn, htasks]
    rw [hserver] at hmem
    exact h.keys k n (hrequests ▸ hmem) hstarts hn
  · rw [hserver] at hn
    rcases mem_activeTasks_startTurn hn with hold | ⟨-, rfl⟩
    · exact h.active n (hactive s ▸ hold)
    · exact hlen ▸ h.le
  · rw [hserver] at hsome ⊢
    by_cases hs : s = s'
    · subst hs
      exact ⟨_, hlen ▸ h.le, statusOf_ne_none.mpr ⟨_, getElem?_startTurn_length .., rfl⟩⟩
    · rw [sessions_startTurn, update_sessions_of_ne _ hs, hactive] at hsome
      obtain ⟨n, hn, hstat⟩ := h.activeKey hsome
      obtain ⟨t, ht, hts⟩ := statusOf_ne_none.mp hstat
      exact ⟨n, hn, statusOf_ne_none.mpr ⟨t, getElem?_startTurn_of_some (hturns ▸ ht), hts⟩⟩

/-- A turn whose task runs for the first time is not one of those that are torn down. -/
lemma Tearing.submitTurn [DecidableEq μ] (h : Tearing s kind N e)
    (hturn : e.server.turns[m]? = some t) (hstatus : t.status = .created)
    (hlive : t.cancelling = false) (hserver : e'.server = e.server.submitTurn g m t)
    (htasks : e'.tasks = e.tasks) (hresults : e'.results = e.results) :
    Tearing s kind N e' := by
  have hnew : t.id.session = s → N ≤ m := by
    intro hts
    by_contra hlt
    rcases h.turns m (by omega) t hturn hts with hended | hmarked
    · simp [hstatus] at hended
    · simp [hlive] at hmarked
  have hturns : e'.server.turns = e.server.turns.set m
      { t with status := .running, voice := some (if e.server.aiMode = g then .g else .a) } := by
    rw [hserver]
    rfl
  have hkept : e.server.TurnsKept e'.server := .of_set hturns hturn rfl
  have hother : ∀ n, m ≠ n → e'.server.turns[n]? = e.server.turns[n]? := by
    intro n hn
    rw [hturns, getElem?_set_ne hn]
  have hstat : ∀ n < N, e'.server.statusOf s n = e.server.statusOf s n := by
    intro n hn
    obtain hsame | ⟨rfl, hold, -⟩ :=
      statusOf_set (e := e.server) e'.server s n hturns hturn rfl
    · exact hsame
    · obtain ⟨u, hu, hus, -⟩ := statusOf_eq_some.mp hold
      cases hturn.symm.trans hu
      exact absurd (hnew hus) (by omega)
  refine ⟨?_, fun n hn u hu hus => ?_, fun n hn => ?_, fun k n hmem hstarts hn => ?_, ?_,
    fun hsome => ?_, hresults ▸ h.results, hworker, hqueues⟩
  · rw [hturns, length_set]
    exact h.le
  · by_cases hmn : m = n
    · subst hmn
      obtain ⟨u', hu', hid⟩ := hkept m t hturn
      cases hu.symm.trans hu'
      exact absurd (hnew (hid ▸ hus)) (by omega)
    · exact h.turns n hn u (hother n hmn ▸ hu) hus
  · rw [hstat n hn, htasks]
    exact h.sends n hn
  · rw [hstat n hn, htasks]
    rw [hserver] at hmem
    rcases OrderedDict.mem_set hmem with ⟨rfl, rfl⟩ | hold
    · exact absurd (hnew (SessionId.eq_of_startsWith .stage0 hstarts).symm) (by omega)
    · exact h.keys k n hold hstarts hn
  · rw [hserver]
    exact h.active
  · rw [hserver] at hsome
    obtain ⟨n, hn, hs⟩ := h.activeKey hsome
    exact ⟨n, hn, hkept.statusOf hs⟩

end Entries

section

variable (h : Tearing s kind N e)
include h

lemma Tearing.of_endOf (ht : e.server.turns[n]? = some t) (hend : e.server.EndOf e'.server n t)
    (htasks : e'.tasks = Function.update e.tasks n {}) (hresults : e'.results = e.results)
    (hstopping : e'.stopping = e.stopping)
    (hkeys : ∀ k, (k, n) ∈ e'.server.requestStates → s.text <+: k → N ≤ n) :
    Tearing s kind N e' := by
  have hlt : n < e.server.turns.length := (List.getElem?_eq_some_iff.mp ht).1
  have hkept : e.server.TurnsKept e'.server := .of_set hend.turns ht rfl
  have hother : ∀ m, m ≠ n → e'.server.turns[m]? = e.server.turns[m]? := by
    intro m hm
    rw [hend.turns, getElem?_set_ne (Ne.symm hm)]
  have hstatus : ∀ m, m ≠ n → e'.server.statusOf s m = e.server.statusOf s m := by
    intro m hm
    rw [Server.statusOf, hother m hm, Server.statusOf]
  have hsession := hend.sessions s
  refine ⟨?_, fun m hm u hu hus => ?_, fun m hm hs hcut => ?_, fun k m hmem hstarts hm => ?_,
    fun m hm => h.active m (hsession.activeTasks hm), fun hsome => ?_, hresults ▸ h.results,
    fun hkind => ?_, fun hkind hawaited => ?_⟩
  · rw [hend.turns, length_set]
    exact h.le
  · by_cases hmn : m = n
    · subst hmn
      rw [hend.turns, getElem?_set_self hlt] at hu
      exact .inl (Option.some.inj hu ▸ rfl)
    · exact h.turns m hm u (hother m hmn ▸ hu) hus
  · have hmn : m ≠ n := by
      rintro rfl
      simp [htasks] at hcut
    rw [htasks, update_of_ne hmn] at hcut ⊢
    exact h.sends m hm (hstatus m hmn ▸ hs) hcut
  · have hmn : m ≠ n := by
      rintro rfl
      exact absurd (hkeys k hmem hstarts) (by omega)
    rw [htasks, update_of_ne hmn, hstatus m hmn]
    exact h.keys k m (hend.requestStates hmem) hstarts hm
  · obtain ⟨m, hm, hs⟩ := h.activeKey (hsession.activeKey ▸ hsome)
    exact ⟨m, hm, hkept.statusOf hs⟩
  · rw [hsession.worker, hsession.sessionWorker]
    exact h.worker hkind
  · rw [hsession.inputQueue, hsession.resultQueue]
    exact h.queues hkind (hstopping ▸ hawaited)

/-- A turn leaves its `finally` block. -/
lemma tearing_leaveFinally (hwired : Wired e) (ht : e.server.turns[n]? = some t) :
    Tearing s kind N (e.leaveFinally n t) := by
  have hserver : (e.leaveFinally n t).server =
      if (e.tasks n).cut then e.server.discardTask n t else e.server.endTurn n t := rfl
  cases hcut : (e.tasks n).cut with
  | true =>
    rw [hcut, if_pos rfl] at hserver
    refine h.of_endOf ht (hserver ▸ endOf_discardTask ht) rfl rfl rfl fun k hmem hstarts => ?_
    -- a turn that was cancelled in its `finally` block has no ids left
    by_contra hlt
    rw [hserver] at hmem
    have hnot := (h.keys k n hmem hstarts (by omega)).1
    simp [hcut] at hnot
  | false =>
    rw [hcut, if_neg Bool.false_ne_true] at hserver
    refine h.of_endOf ht (hserver ▸ endOf_endTurn ht) rfl rfl rfl fun k hmem _ => ?_
    rw [hserver] at hmem
    obtain ⟨hold, hnot⟩ := OrderedDict.mem_popKeys.mp hmem
    obtain ⟨u, hu, howns⟩ := hwired.owned k n hold
    cases ht.symm.trans hu
    rw [List.isPrefixOf_iff_prefix.mpr howns.startsWith] at hnot
    cases hnot

/-- A turn that never ran is dropped. -/
lemma tearing_drop (hwired : Wired e) (ht : e.server.turns[n]? = some t)
    (hcreated : t.status = .created) :
    Tearing s kind N { e with server := e.server.discardTask n t } := by
  have htasks : e.tasks = Function.update e.tasks n {} := by
    rw [← hwired.tasks_eq ht (by simp [hcreated]), update_eq_self]
  refine h.of_endOf ht (endOf_discardTask ht) htasks rfl rfl fun k hmem hstarts => ?_
  -- a turn that has not run has entered no id
  by_contra hlt
  obtain ⟨u, hu, -, hrunning⟩ := statusOf_eq_some.mp (h.keys k n hmem hstarts (by omega)).2
  cases ht.symm.trans hu
  simp [hcreated] at hrunning

/-- A `process_and_send` task that runs is not one of a turn that was cancelled in its `finally`
block. -/
lemma tearing_sendChunk (hwired : Wired e) {k : ℕ} {rest : List ℕ}
    (ht : e.server.turns[n]? = some t) (hsends : (e.tasks n).sends = k :: rest) :
    Tearing s kind N (e.sendChunk n k rest t) := by
  have hlive : n < N → e.server.statusOf s n ≠ none → (e.tasks n).cut = false := by
    intro hn hs
    by_contra hcut
    have hnil := h.sends n hn hs (by simpa using hcut)
    simp [hsends] at hnil
  obtain ⟨u, hu, hrunning⟩ := hwired.running n fun heq => by simp [heq] at hsends
  cases ht.symm.trans hu
  have hcut : ∀ m, ((e.sendChunk n k rest t).tasks m).cut = (e.tasks m).cut := by
    intro m
    by_cases hmn : m = n
    · subst hmn
      rw [tasks_sendChunk, tasks_setTasks_self]
    · rw [tasks_sendChunk, tasks_setTasks_of_ne hmn]
  refine ⟨h.le, h.turns, fun m hm hs hc => ?_, fun k' m hmem hstarts hm => ?_, h.active,
    h.activeKey, h.results, h.worker, h.queues⟩
  · rw [hcut] at hc
    have hmn : m ≠ n := by
      rintro rfl
      simp [hlive hm hs] at hc
    rw [tasks_sendChunk, tasks_setTasks_of_ne hmn]
    exact h.sends m hm hs hc
  · rw [hcut]
    rcases OrderedDict.mem_set hmem with ⟨rfl, rfl⟩ | hold
    · have hts : t.id.session = s :=
        (SessionId.eq_of_startsWith (SubRequest.owns_key _ _) hstarts).symm
      exact ⟨hlive hm (statusOf_ne_none.mpr ⟨t, ht, hts⟩),
        statusOf_eq_some.mpr ⟨t, ht, hts, hrunning⟩⟩
    · exact h.keys k' m hold hstarts hm

omit h in
lemma mem_of_mem_update_nil {r : SessionId → List ℕ} (h : n ∈ Function.update r s' [] s) :
    n ∈ r s := by
  by_cases hs : s = s'
  · subst hs
    rw [update_self] at h
    cases h
  · rw [update_of_ne hs] at h
    exact h

lemma tearing_cleanupForBargeIn (hwired : Wired e) (s' : SessionId) :
    Tearing s kind N (e.cleanupForBargeIn s') := by
  have hstatus (n : ℕ) : (e.cleanupForBargeIn s').server.statusOf s n = e.server.statusOf s n :=
    statusOf_cleanupForBargeIn e.server s' s n
  have hsession : (e.cleanupForBargeIn s').server.sessions s = e.server.sessions s ∨ s = s' ∧
      (e.cleanupForBargeIn s').server.sessions s =
        { e.server.sessions s with activeTasks := none, eouState := none } := by
    rw [DuplexOmni.cleanupForBargeIn, sessions_cleanupForBargeIn]
    by_cases hs : s = s'
    · subst hs
      exact .inr ⟨rfl, update_sessions_self _⟩
    · exact .inl (update_sessions_of_ne _ hs)
  -- the turns that are marked now are later ones, or belong to another session
  have hcut : ∀ n < N, e.server.statusOf s n ≠ none →
      (e.cleanupForBargeIn s').tasks n = e.tasks n := by
    intro n hn hs
    rcases tasks_cleanupForBargeIn e s' n with heq | ⟨hactive, -, -⟩
    · exact heq
    · obtain ⟨t, ht, hts⟩ := statusOf_ne_none.mp hs
      obtain ⟨t', ht', hts'⟩ := statusOf_ne_none.mp (hwired.active s' n hactive)
      cases ht.symm.trans ht'
      obtain rfl : s = s' := hts.symm.trans hts'
      exact absurd (h.active n hactive) (by omega)
  refine ⟨?_, fun n hn t ht hts => ?_, fun n hn hs hc => ?_, fun k n hmem hstarts hn => ?_,
    fun n hn => ?_, fun hsome => ?_, fun n hn => ?_, fun hkind => ?_, fun hkind hawaited => ?_⟩
  · refine h.le.trans (Nat.le_of_eq ?_)
    exact (length_mapIdx ..).symm
  · obtain ⟨u, hu, hid, hst, hcancelling, -⟩ := exists_turn_of_cleanupForBargeIn ht
    exact (h.turns n hn u hu (hid ▸ hts)).imp hst.trans hcancelling
  · rw [hstatus] at hs
    rw [hcut n hn hs] at hc ⊢
    exact h.sends n hn hs hc
  · have hkeys := h.keys k n (filter_subset_self _ hmem) hstarts hn
    rw [hstatus, hcut n hn (by simp [hkeys.2])]
    exact hkeys
  · rcases hsession with heq | ⟨-, heq⟩ <;> rw [heq] at hn
    · exact h.active n hn
    · cases hn
  · rcases hsession with heq | ⟨-, heq⟩ <;> rw [heq] at hsome
    · simp only [hstatus]
      exact h.activeKey hsome
    · cases hsome
  · exact h.results n (mem_of_mem_update_nil hn)
  · rcases hsession with heq | ⟨-, heq⟩ <;> rw [heq] <;> exact h.worker hkind
  · rcases hsession with heq | ⟨-, heq⟩ <;> rw [heq] <;> exact h.queues hkind hawaited

lemma tearing_stopSession (hwired : Wired e) (s' : SessionId) :
    Tearing s kind N (e.stopSession s') := by
  have hclean := tearing_cleanupForBargeIn h hwired s'
  have hserver : (e.stopSession s').server = (e.cleanupForBargeIn s').server.update s' fun x =>
    { x with sessionWorker := false, worker := none } := rfl
  refine hclean.congr (fun hkind => ?_) (fun hkind hawaited => ?_) rfl (List.Subset.refl _)
    (fun _ => rfl) (fun _ _ => rfl) hclean.results ?_
  · rw [hserver]
    exact update_keeps (P := fun x => x.worker = none ∧ x.sessionWorker = false)
      (hclean.worker hkind) fun _ => ⟨rfl, rfl⟩
  · have hs : s ≠ s' := by
      rintro rfl
      have htrue : (e.stopSession s).stopping s = true := update_self ..
      exact Bool.false_ne_true (hawaited.symm.trans htrue)
    rw [hserver, update_sessions_of_ne _ hs]
    exact hclean.queues hkind ((update_of_ne hs _ _).symm.trans hawaited)
  · rw [hserver]
    exact read_update SessionState.activeTasks fun _ => rfl

/-- The end of `stop_session`. -/
lemma tearing_finishStop (s' : SessionId) : Tearing s kind N (e.finishStop s') := by
  have hserver : (e.finishStop s').server = e.server.update s' fun x =>
    { x with inputQueue := none, resultQueue := false, eouState := none } := rfl
  refine h.congr (fun hkind => ?_) (fun hkind hawaited => ?_) rfl (List.Subset.refl _)
    (fun _ => rfl) (fun _ _ => rfl) (fun n hn => h.results n (mem_of_mem_update_nil hn)) ?_
  · rw [hserver]
    exact update_keeps (P := fun x => x.worker = none ∧ x.sessionWorker = false)
      (h.worker hkind) fun hx => hx
  · rw [hserver]
    by_cases hs : s = s'
    · subst hs
      rw [update_sessions_self]
      exact ⟨rfl, rfl⟩
    · rw [update_sessions_of_ne _ hs]
      exact h.queues hkind ((update_of_ne hs _ _).symm.trans hawaited)
  · rw [hserver]
    exact read_update SessionState.activeTasks fun _ => rfl

end

/-- Without a turn that is caught, a teardown begins the tearing down of its session. -/
lemma tearing_tearDown (h : Wired e) (hcaught : ∀ n, ¬ e.CaughtInFinally s n) (kind : Teardown) :
    Tearing s kind e.server.turns.length (e.tearDown s kind) := by
  have hstatus (n : ℕ) : (e.cleanupForBargeIn s).server.statusOf s n = e.server.statusOf s n :=
    statusOf_cleanupForBargeIn e.server s s n
  have hsession : (e.cleanupForBargeIn s).server.sessions s =
      { e.server.sessions s with activeTasks := none, eouState := none } := by
    rw [DuplexOmni.cleanupForBargeIn, sessions_cleanupForBargeIn, update_sessions_self]
  have hclean : Tearing s .bargeIn e.server.turns.length (e.cleanupForBargeIn s) := by
    refine ⟨(length_mapIdx ..).symm.le, fun n _ t ht hts => ?_, fun n _ hs hcut => ?_,
      fun k n hmem hstarts => ?_, ?_, ?_, ?_, by simp, by simp⟩
    · -- a turn that is not over has an active task, so it is cancelled
      by_contra hnot
      obtain ⟨hover, hlive⟩ := not_or.mp hnot
      have hactive := (wired_cleanupForBargeIn h s).tracked n t ht hover (by simpa using hlive)
      rw [hts, hsession] at hactive
      cases hactive
    · by_contra hne
      rw [sends_cleanupForBargeIn] at hne
      rw [hstatus] at hs
      refine hcaught n ⟨hs, ?_, hne, ?_⟩
      all_goals rcases tasks_cleanupForBargeIn e s n with heq | ⟨hactive, hfinal, -⟩
      · exact (h.cut n (heq ▸ hcut)).1
      · exact hfinal
      · exact .inr (heq ▸ hcut)
      · exact .inl hactive
    · have hnot := (OrderedDict.mem_popKeys.mp hmem).2
      rw [List.isPrefixOf_iff_prefix.mpr hstarts] at hnot
      cases hnot
    · simp [hsession]
    · simp [hsession]
    · intro n hn
      have hnil : n ∈ Function.update e.results s [] s := hn
      rw [update_self] at hnil
      cases hnil
  cases kind with
  | bargeIn => exact hclean
  | stop =>
    have hserver : (e.stopSession s).server = (e.cleanupForBargeIn s).server.update s fun x =>
      { x with sessionWorker := false, worker := none } := rfl
    have hstop : (e.stopSession s).server.sessions s =
        { (e.cleanupForBargeIn s).server.sessions s with
          sessionWorker := false, worker := none } := by
      rw [hserver, update_sessions_self]
    exact ⟨hclean.le, hclean.turns, hclean.sends, hclean.keys, hstop ▸ hclean.active,
      hstop ▸ hclean.activeKey, hclean.results, fun _ => hstop ▸ ⟨rfl, rfl⟩, fun _ hawaited => by
        have htrue : (e.stopSession s).stopping s = true := update_self ..
        exact absurd (hawaited.symm.trans htrue) Bool.false_ne_true⟩

section Runs

variable [DecidableEq μ] {a : DuplexAct μ} {acts : List (DuplexAct μ)}

/-- An event of the server starts no turn anew that is to be torn down. -/
lemma tearing_setServer (h : Tearing s kind N e) (hwired : Wired e) {a : ServerAct μ}
    {x : Server μ} (haccepts : e.accepts a = true) (hstep : serverStep g e.server a = some x)
    (hconnect : a ≠ .connect s) : Tearing s kind N (e.setServer a x) := by
  have hkept := sessionKept_of_step haccepts hstep s
  have hworker : kind = .stop → (x.sessions s).worker = none ∧
      (x.sessions s).sessionWorker = false := by
    intro hkind
    obtain ⟨hnone, hfalse⟩ := h.worker hkind
    exact ⟨hkept.worker hconnect hnone, (hkept.sessionWorker hconnect).trans hfalse⟩
  have hqueues : kind = .stop → e.stopping s = false → (x.sessions s).inputQueue = none ∧
      (x.sessions s).resultQueue = false := by
    intro hkind hawaited
    obtain ⟨hnone, hfalse⟩ := h.queues hkind hawaited
    exact ⟨hkept.inputQueue hconnect hnone, (hkept.resultQueue hconnect).trans hfalse⟩
  cases serverEffect_of_step haccepts hstep with
  | quiet hturns hrequests hactive =>
    exact h.congr hworker hqueues hturns (hrequests ▸ List.Subset.refl _) (fun _ => rfl)
      (fun _ _ => rfl) h.results (hactive s)
  | start mode _ hturns hrequests hactive =>
    exact h.startTurn hworker hqueues hturns hrequests hactive rfl rfl rfl
  | submit hturn hstatus hlive =>
    exact h.submitTurn hworker hqueues hturn hstatus hlive rfl rfl rfl
  | @register m t r hturn hrunning =>
    refine ⟨h.le, h.turns, h.sends, fun k n hmem hstarts hn => ?_, h.active, h.activeKey, h.results,
      hworker, hqueues⟩
    rcases OrderedDict.mem_set hmem with ⟨rfl, rfl⟩ | hold
    · have hserving : (e.tasks n).finalizing = false := by simpa [DuplexOmni.accepts] using haccepts
      have hts : t.id.session = s := (SessionId.eq_of_startsWith (r.owns_key _) hstarts).symm
      exact ⟨hwired.cut_eq_false hserving, statusOf_eq_some.mpr ⟨t, hturn, hts, hrunning⟩⟩
    · exact h.keys k n hold hstarts hn
  | stop =>
    refine h.congr hworker hqueues ?_ ?_ (fun _ => rfl) (fun _ _ => rfl) h.results ?_
    · rfl
    · exact filter_subset_self _
    · rfl

/-- Nothing that happens afterwards brings the turns back. -/
lemma tearing_step (h : Tearing s kind N e) (hwired : Wired e) (hconnect : a ≠ .server (.connect s))
    (hstep : duplexStep g e a = some e') : Tearing s kind N e' := by
  have hsetTasks : ∀ (n : ℕ) (x : TurnTasks), x.cut = (e.tasks n).cut →
      (x.cut = true → x.sends = (e.tasks n).sends) → Tearing s kind N (e.setTasks n x) := by
    intro n x hcut hsends
    refine h.congr h.worker h.queues rfl (List.Subset.refl _) (fun m => ?_) (fun m hm => ?_)
      h.results rfl
    all_goals by_cases hmn : m = n
    · subst hmn
      rw [tasks_setTasks_self, hcut]
    · rw [tasks_setTasks_of_ne hmn]
    · subst hmn
      rw [tasks_setTasks_self]
      exact hsends (hcut.trans hm)
    · rw [tasks_setTasks_of_ne hmn]
  cases duplexMove_of_step hstep with
  | server haccepts hx =>
    exact tearing_setServer h hwired haccepts hx fun heq => hconnect (congrArg _ heq)
  | @spawn n t k _ _ hserving =>
    refine hsetTasks n _ rfl fun hcut => ?_
    simp [hwired.cut_eq_false hserving] at hcut
  | send hturn hsends => exact tearing_sendChunk h hwired hturn hsends
  | @output n t hturn hrunning hlive =>
    unfold DuplexOmni.putResult
    split
    · refine { h with results := fun m hm => ?_ }
      dsimp only at hm
      by_cases hs : s = t.id.session
      · subst hs
        rw [update_self, mem_append, mem_singleton] at hm
        rcases hm with hm | rfl
        · exact h.results m hm
        · by_contra hlt
          rcases h.turns m (by omega) t hturn rfl with hended | hmarked
          · simp [hrunning] at hended
          · simp [hlive] at hmarked
      · rw [update_of_ne hs] at hm
        exact h.results m hm
    · exact h
  | @deliver s' m rest hresults =>
    refine { h with results := fun n hn => ?_ }
    dsimp only at hn
    by_cases hs : s = s'
    · subst hs
      rw [update_self] at hn
      exact h.results n (hresults ▸ mem_cons_of_mem m hn)
    · rw [update_of_ne hs] at hn
      exact h.results n hn
  | @finalize n t _ _ => exact hsetTasks n _ rfl fun _ => rfl
  | leave hturn _ _ => exact tearing_leaveFinally h hwired hturn
  | drop hturn hcreated _ => exact tearing_drop h hwired hturn hcreated
  | bargeIn s' => exact tearing_cleanupForBargeIn h hwired s'
  | stop s' => exact tearing_stopSession h hwired s'
  | stopped s' => exact tearing_finishStop h s'

/-- Without a turn that is caught in its `finally` block, a teardown is clean, whatever follows. -/
lemma forever_cleanFrom (h : Wired e) (hcaught : ∀ n, ¬ e.CaughtInFinally s n) (kind : Teardown) :
    Forever (duplexStep g) (· ≠ .server (.connect s)) (CleanFrom s kind e.server.turns.length)
      (e.tearDown s kind) := by
  have hkeep : ∀ (u : DuplexOmni μ) (a : DuplexAct μ) (u' : DuplexOmni μ),
      Wired u ∧ Tearing s kind e.server.turns.length u → a ≠ .server (.connect s) →
      duplexStep g u a = some u' → Wired u' ∧ Tearing s kind e.server.turns.length u' :=
    fun u a u' hu ha hstep => ⟨wired_step hu.1 hstep, tearing_step hu.2 hu.1 ha hstep⟩
  exact forever_of_invariant hkeep (fun u hu => hu.2.cleanFrom hu.1)
    ⟨wired_tearDown h s kind, tearing_tearDown h hcaught kind⟩

end Runs

/-! ## A turn that is caught -/

/-- How many events it takes to end turn `m`, if that is a cancelled turn of the session other than
turn `n`. -/
def DuplexOmni.remaining (e : DuplexOmni μ) (s : SessionId) (n m : ℕ) : ℕ :=
  if m = n then 0
  else e.server.turns[m]?.elim 0 fun t =>
    if t.id.session = s ∧ t.cancelling = true then
      match t.status with
      | .created => 1
      | .running => (e.tasks m).sends.length + if (e.tasks m).finalizing then 1 else 2
      | .ended => 0
    else 0

/-- What is not changed for a turn. -/
lemma remaining_congr (hturn : e'.server.turns[m]? = e.server.turns[m]?)
    (htasks : e'.tasks m = e.tasks m) : e'.remaining s n m = e.remaining s n m := by
  rw [DuplexOmni.remaining, hturn, htasks, DuplexOmni.remaining]

/-- A turn with events to come is cancelled and not over. -/
lemma of_remaining_ne_zero (h : e.remaining s n m ≠ 0) :
    m ≠ n ∧ ∃ t, e.server.turns[m]? = some t ∧ t.id.session = s ∧ t.cancelling = true ∧
      (t.status = .created ∨ t.status = .running) := by
  rw [DuplexOmni.remaining] at h
  by_cases hmn : m = n
  · rw [if_pos hmn] at h
    exact absurd rfl h
  · rw [if_neg hmn] at h
    refine ⟨hmn, ?_⟩
    cases ht : e.server.turns[m]? with
    | none => simp [ht] at h
    | some t =>
      rw [ht, Option.elim_some] at h
      by_cases hcancelled : t.id.session = s ∧ t.cancelling = true
      · refine ⟨t, rfl, hcancelled.1, hcancelled.2, ?_⟩
        cases hstatus : t.status with
        | created => exact .inl rfl
        | running => exact .inr rfl
        | ended => simp [hstatus] at h
      · rw [if_neg hcancelled] at h
        exact absurd rfl h

lemma remaining_of_running (hmn : m ≠ n) (ht : e.server.turns[m]? = some t) (hts : t.id.session = s)
    (hcancelling : t.cancelling = true) (hrunning : t.status = .running) :
    e.remaining s n m = (e.tasks m).sends.length + if (e.tasks m).finalizing then 1 else 2 := by
  rw [DuplexOmni.remaining, if_neg hmn, ht, Option.elim_some, if_pos ⟨hts, hcancelling⟩, hrunning]

/-- A turn that has ended is done. -/
lemma remaining_of_ended (ht : e.server.turns[m]? = some t) (hended : t.status = .ended) :
    e.remaining s n m = 0 := by
  rw [DuplexOmni.remaining, ht, Option.elim_some, hended]
  split_ifs <;> rfl

section Runs

variable [DecidableEq μ]

/-- As long as a cancelled turn of the session other than turn `n` is not over, it can get on. -/
lemma exists_unwind (g : μ) {m : ℕ} (hne : e.remaining s n m ≠ 0) :
    ∃ a e', a ≠ .server (.connect s) ∧ duplexStep g e a = some e' ∧
      e'.stopping = e.stopping ∧ e'.server.turns.length = e.server.turns.length ∧
      (∀ j, j ≠ m → e'.server.turns[j]? = e.server.turns[j]? ∧ e'.tasks j = e.tasks j) ∧
      e'.remaining s n m < e.remaining s n m := by
  obtain ⟨hmn, t, ht, hts, hcancelling, hstatus⟩ := of_remaining_ne_zero hne
  have hlt : m < e.server.turns.length := (List.getElem?_eq_some_iff.mp ht).1
  have hset : ∀ j, j ≠ m →
      (e.server.turns.set m { t with status := .ended })[j]? = e.server.turns[j]? :=
    fun j hj => getElem?_set_ne (Ne.symm hj)
  have hover : (e.server.turns.set m { t with status := .ended })[m]? =
      some { t with status := .ended } := getElem?_set_self hlt
  have hpos : 0 < e.remaining s n m := Nat.pos_of_ne_zero hne
  rcases hstatus with hcreated | hrunning
  · refine ⟨.drop m, { e with server := e.server.discardTask m t }, by simp, ?_, rfl,
      length_set .., fun j hj => ⟨hset j hj, rfl⟩, ?_⟩
    · simp [duplexStep, DuplexOmni.onTurn, ht, hcreated, hcancelling]
    · rw [remaining_of_ended hover rfl]
      exact hpos
  · have hcost := remaining_of_running hmn ht hts hcancelling hrunning
    cases hfinal : (e.tasks m).finalizing with
    | false =>
      refine ⟨.finalize m, e.setTasks m { e.tasks m with finalizing := true }, by simp, ?_, rfl,
        rfl, fun j hj => ⟨rfl, tasks_setTasks_of_ne hj _⟩, ?_⟩
      · simp [duplexStep, DuplexOmni.onTurn, ht, hrunning, hfinal]
      · rw [hcost, remaining_of_running (e := e.setTasks m _) hmn ht hts hcancelling hrunning,
          tasks_setTasks_self, hfinal]
        simp
    | true =>
      cases hsends : (e.tasks m).sends with
      | nil =>
        have hserver : (e.leaveFinally m t).server.turns =
            e.server.turns.set m { t with status := .ended } := by
          rw [DuplexOmni.leaveFinally]
          split <;> rfl
        refine ⟨.leave m, e.leaveFinally m t, by simp, ?_, rfl, ?_, fun j hj => ⟨?_, ?_⟩, ?_⟩
        · simp [duplexStep, DuplexOmni.onTurn, ht, hrunning, hfinal, hsends]
        · rw [hserver, length_set]
        · rw [hserver, hset j hj]
        · exact tasks_setTasks_of_ne hj _
        · rw [remaining_of_ended (hserver ▸ hover) rfl]
          exact hpos
      | cons k rest =>
        refine ⟨.send m, e.sendChunk m k rest t, by simp, ?_, rfl, rfl,
          fun j hj => ⟨rfl, tasks_setTasks_of_ne hj _⟩, ?_⟩
        · simp [duplexStep, DuplexOmni.onTurn, ht, hsends]
        · rw [hcost, remaining_of_running (e := e.sendChunk m k rest t) hmn ht hts hcancelling
            hrunning, tasks_sendChunk, tasks_setTasks_self, hsends, hfinal]
          simp

/-- All cancelled turns of the session but turn `n` can be brought to their end. -/
lemma exists_others_ended (g : μ) (s : SessionId) (n : ℕ) (e : DuplexOmni μ) :
    ∃ acts e', (∀ a ∈ acts, a ≠ .server (.connect s)) ∧ run (duplexStep g) e acts = some e' ∧
      e'.stopping = e.stopping ∧ e'.server.turns[n]? = e.server.turns[n]? ∧
      e'.tasks n = e.tasks n ∧
      ∀ m t, m ≠ n → e'.server.turns[m]? = some t → t.id.session = s → t.cancelling = true →
        t.status = .ended := by
  have hprogress : ∀ u : DuplexOmni μ,
      (u.stopping = e.stopping ∧ u.server.turns[n]? = e.server.turns[n]? ∧ u.tasks n = e.tasks n) →
      ∑ m ∈ Finset.range u.server.turns.length, u.remaining s n m ≠ 0 →
      ∃ a u', a ≠ .server (.connect s) ∧ duplexStep g u a = some u' ∧
        (u'.stopping = e.stopping ∧ u'.server.turns[n]? = e.server.turns[n]? ∧
          u'.tasks n = e.tasks n) ∧
        ∑ m ∈ Finset.range u'.server.turns.length, u'.remaining s n m <
          ∑ m ∈ Finset.range u.server.turns.length, u.remaining s n m := by
    rintro u ⟨hstopping, hturn, htasks⟩ hne
    obtain ⟨m, hm, hcost⟩ := Finset.exists_ne_zero_of_sum_ne_zero hne
    obtain ⟨a, u', ha, hstep, hstopping', hlen, hother, hlt⟩ := exists_unwind g hcost
    have hn : n ≠ m := (of_remaining_ne_zero hcost).1.symm
    refine ⟨a, u', ha, hstep, ⟨hstopping'.trans hstopping, (hother n hn).1.trans hturn,
      (hother n hn).2.trans htasks⟩, ?_⟩
    rw [hlen]
    refine Finset.sum_lt_sum (fun j _ => ?_) ⟨m, hm, hlt⟩
    by_cases hj : j = m
    · subst hj
      exact hlt.le
    · exact (remaining_congr (hother j hj).1 (hother j hj).2).le
  obtain ⟨acts, u, hacts, hrun, ⟨hstopping, hturn, htasks⟩, hzero⟩ :=
    exists_run_rank_zero hprogress ⟨rfl, rfl, rfl⟩
  refine ⟨acts, u, hacts, hrun, hstopping, hturn, htasks, fun m t hm ht hts hcancelling => ?_⟩
  have hcost : u.remaining s n m = 0 := Finset.sum_eq_zero_iff.mp hzero m
    (Finset.mem_range.mpr (List.getElem?_eq_some_iff.mp ht).1)
  rw [DuplexOmni.remaining, if_neg hm, ht, Option.elim_some, if_pos ⟨hts, hcancelling⟩] at hcost
  cases hstatus : t.status with
  | created => simp [hstatus] at hcost
  | running =>
    rw [hstatus] at hcost
    dsimp only at hcost
    split at hcost <;> omega
  | ended => rfl

/-- The `process_and_send` tasks of a turn run and enter their request ids. -/
lemma exists_sends (g : μ) {t : StartedTurn μ} (ht : e.server.turns[n]? = some t) :
    ∃ acts e', (∀ a ∈ acts, a = .send n) ∧ run (duplexStep g) e acts = some e' ∧
      e'.stopping = e.stopping ∧ e'.server.turns = e.server.turns ∧
      e'.tasks n = { e.tasks n with sends := [] } ∧
      ∀ k, (k, n) ∈ e.server.requestStates ∨
          k ∈ (e.tasks n).sends.map (fun c => (SubRequest.stage1 c).key t.id) →
        (k, n) ∈ e'.server.requestStates := by
  induction hsends : (e.tasks n).sends generalizing e with
  | nil =>
    refine ⟨[], e, nofun, rfl, rfl, rfl, ?_, fun k hk => hk.elim id nofun⟩
    rw [← hsends]
  | cons c rest ih =>
    have htasks : (e.sendChunk n c rest t).tasks n = { e.tasks n with sends := rest } := by
      rw [tasks_sendChunk, tasks_setTasks_self]
    obtain ⟨acts, e', hacts, hrun, hstopping, hturns, htasks', hkeys⟩ :=
      ih (e := e.sendChunk n c rest t) ht (by rw [htasks])
    refine ⟨.send n :: acts, e', forall_mem_cons.mpr ⟨rfl, hacts⟩, ?_, hstopping, hturns, ?_,
      fun k hk => hkeys k ?_⟩
    · refine run_cons_eq_some.mpr ⟨_, ?_, hrun⟩
      simp [duplexStep, DuplexOmni.onTurn, ht, hsends]
    · rw [htasks', htasks]
    · rcases hk with hold | hnew
      · left
        by_cases hkey : k = (SubRequest.stage1 c).key t.id
        · exact hkey ▸ OrderedDict.mem_set_self ..
        · exact OrderedDict.mem_set_of_ne hold hkey
      · rcases mem_cons.mp hnew with rfl | hrest
        · exact .inl (OrderedDict.mem_set_self ..)
        · exact .inr hrest

/-- A turn cancelled in its `finally` block with a `process_and_send` task left may leave a request
id behind. -/
lemma exists_left_behind (g : μ) {t : StartedTurn μ} (ht : e.server.turns[n]? = some t)
    (hts : t.id.session = s) (hrunning : t.status = .running)
    (hfinal : (e.tasks n).finalizing = true) (hcut : (e.tasks n).cut = true)
    (hsends : (e.tasks n).sends ≠ []) (hawaited : kind = .stop → e.stopping s = false) :
    ∃ acts e', (∀ a ∈ acts, a ≠ .server (.connect s)) ∧ run (duplexStep g) e acts = some e' ∧
      e'.Finished s kind ∧ ∃ k, (k, n) ∈ e'.server.requestStates ∧ s.text <+: k := by
  obtain ⟨acts₁, e₁, hacts₁, hrun₁, hstopping₁, hturn₁, htasks₁, hended⟩ :=
    exists_others_ended g s n e
  rw [ht] at hturn₁
  obtain ⟨acts₂, e₂, hacts₂, hrun₂, hstopping₂, hturns₂, htasks₂, hkeys⟩ := exists_sends g hturn₁
  rw [htasks₁] at htasks₂ hkeys
  have hturn₂ : e₂.server.turns[n]? = some t := by rw [hturns₂, hturn₁]
  have hleave : duplexStep g e₂ (.leave n) = some (e₂.leaveFinally n t) := by
    simp [duplexStep, DuplexOmni.onTurn, hturn₂, htasks₂, hrunning, hfinal]
  have hserver : (e₂.leaveFinally n t).server = e₂.server.discardTask n t := by
    rw [DuplexOmni.leaveFinally, htasks₂]
    exact if_pos hcut
  refine ⟨acts₁ ++ (acts₂ ++ [.leave n]), e₂.leaveFinally n t, fun a ha => ?_, ?_, ⟨?_, ?_⟩, ?_⟩
  · rcases mem_append.mp ha with ha | ha
    · exact hacts₁ a ha
    · rcases mem_append.mp ha with ha | ha
      · simp [hacts₂ a ha]
      · simp [mem_singleton.mp ha]
  · rw [run_append, hrun₁, Option.bind_some, run_append, hrun₂, Option.bind_some, run_cons, hleave]
    rfl
  · intro hkind
    have hsame : (e₂.leaveFinally n t).stopping = e.stopping := hstopping₂.trans hstopping₁
    rw [hsame]
    exact hawaited hkind
  · intro u hu hus hcancelling
    rw [hserver] at hu
    obtain ⟨m, hm⟩ := mem_iff_getElem?.mp hu
    by_cases hmn : m = n
    · subst hmn
      rw [Server.discardTask, getElem?_set_self (List.getElem?_eq_some_iff.mp hturn₂).1] at hm
      exact Option.some.inj hm ▸ rfl
    · rw [Server.discardTask, getElem?_set_ne (Ne.symm hmn), hturns₂] at hm
      exact hended m u hmn hm hus hcancelling
  · obtain ⟨c, rest, hcons⟩ := exists_cons_of_ne_nil hsends
    refine ⟨(SubRequest.stage1 c).key t.id, ?_, ?_⟩
    · rw [hserver]
      exact hkeys _ (.inr (by rw [hcons]; exact mem_cons_self))
    · exact hts ▸ (SessionId.prefix_text t.id).trans (SubRequest.owns_key t.id _).startsWith

/-- The state in which the call returns, if nothing else happens in between. -/
lemma exists_returned (g : μ) (e : DuplexOmni μ) (s : SessionId) (kind : Teardown) :
    ∃ acts e', (∀ a ∈ acts, a ≠ .server (.connect s)) ∧
      run (duplexStep g) (e.tearDown s kind) acts = some e' ∧
      (kind = .stop → e'.stopping s = false) ∧
      e'.server.turns = (e.server.cleanupForBargeIn s).turns ∧
      e'.tasks = (e.cleanupForBargeIn s).tasks := by
  cases kind with
  | bargeIn => exact ⟨[], _, nofun, rfl, nofun, rfl, rfl⟩
  | stop =>
    have hstopping : (e.stopSession s).stopping s = true := update_self ..
    refine ⟨[.stopped s], (e.stopSession s).finishStop s, ?_, ?_, fun _ => ?_, rfl, rfl⟩
    · simp
    · simp [DuplexOmni.tearDown, duplexStep, hstopping]
    · exact update_self ..

/-- A teardown that catches a turn in its `finally` block is not clean. -/
lemma not_forever_cleanFrom (h : Wired e) (hcaught : e.CaughtInFinally s n) (kind : Teardown) :
    ¬ Forever (duplexStep g) (· ≠ .server (.connect s)) (CleanFrom s kind e.server.turns.length)
      (e.tearDown s kind) := by
  obtain ⟨hstatus, hfinal, hsends, hmarked⟩ := hcaught
  obtain ⟨t, ht, hts⟩ := statusOf_ne_none.mp hstatus
  obtain ⟨u, hu, hrunning⟩ := h.running n fun heq => by simp [heq] at hfinal
  cases ht.symm.trans hu
  obtain ⟨t', ht', hid, hst, -⟩ := exists_turn_cleanupForBargeIn s ht
  have htasks : (e.cleanupForBargeIn s).tasks n = { e.tasks n with cut := true } := by
    rcases tasks_cleanupForBargeIn e s n with heq | ⟨-, -, heq⟩
    · rcases hmarked with hactive | hcut
      · exact if_pos ⟨hactive, hfinal⟩
      · rw [heq, ← hcut]
    · exact heq
  obtain ⟨acts₀, e₀, hacts₀, hrun₀, hawaited, hturns₀, htasks₀⟩ := exists_returned g e s kind
  intro hforever
  rw [← hturns₀] at ht'
  rw [← htasks₀] at htasks
  obtain ⟨acts, e', hacts, hrun, hfinished, k, hmem, hstarts⟩ := exists_left_behind g ht'
    (hid ▸ hts) (hst.trans hrunning) (by rw [htasks]; exact hfinal) (by rw [htasks])
    (by rw [htasks]; exact hsends) hawaited
  have hclean := ((hforever.run hacts₀ hrun₀).run hacts hrun).now
  have hle := (hclean.2 hfinished).requestStates k n hmem hstarts
  have hlt := (List.getElem?_eq_some_iff.mp ht).1
  omega

end Runs

/-! ## Other sessions -/

lemma filter_popKeys {d : List (Key × ℕ)} {pop : Key → Bool} (hne : s' ≠ s)
    (hpop : ∀ k, pop k = true → s.text <+: k) :
    (OrderedDict.popKeys d pop).filter (fun x => s'.text.isPrefixOf x.1) =
      d.filter fun x => s'.text.isPrefixOf x.1 := by
  rw [OrderedDict.popKeys, filter_filter]
  refine filter_congr fun x _ => ?_
  cases hpre : s'.text.isPrefixOf x.1 with
  | false => rfl
  | true =>
    have hkeep : pop x.1 = false := by
      by_contra hgone
      exact hne (SessionId.eq_of_prefix (List.isPrefixOf_iff_prefix.mp hpre)
        (hpop x.1 (by simpa using hgone)))
    simp [hkeep]

/-- A turn of another session is not among the active tasks of the session. -/
lemma Wired.notMem_active (h : Wired e) (hne : s' ≠ s) (hn : e.server.statusOf s' n ≠ none) :
    n ∉ (e.server.sessions s).activeTasks.getD [] := by
  intro hactive
  obtain ⟨t, ht, hts⟩ := statusOf_ne_none.mp hn
  obtain ⟨u, hu, hus⟩ := statusOf_ne_none.mp (h.active s n hactive)
  cases ht.symm.trans hu
  exact hne (hts.symm.trans hus)

lemma getElem?_cleanupForBargeIn {x : Server μ} (hn : n ∉ (x.sessions s).activeTasks.getD []) :
    (x.cleanupForBargeIn s).turns[n]? = x.turns[n]? := by
  simp [Server.cleanupForBargeIn, hn]

lemma sameFor_cleanupForBargeIn (h : Wired e) (hne : s' ≠ s) :
    e.SameFor s' (e.cleanupForBargeIn s) where
  session := by
    rw [DuplexOmni.cleanupForBargeIn, sessions_cleanupForBargeIn]
    exact update_sessions_of_ne _ hne
  results := update_of_ne hne ..
  requestStates := filter_popKeys hne fun _ hk => isPrefixOf_iff_prefix.mp hk
  turns n t hts := by
    have hsame : ∀ u : StartedTurn μ, e.server.turns[n]? = some u → u.id.session = s' →
        (e.cleanupForBargeIn s).server.turns[n]? = e.server.turns[n]? := fun u hu hus =>
      getElem?_cleanupForBargeIn (h.notMem_active hne (statusOf_ne_none.mpr ⟨u, hu, hus⟩))
    constructor
    · intro ht
      obtain ⟨u, hu, hid, -⟩ := exists_turn_of_cleanupForBargeIn ht
      exact (hsame u hu (hid ▸ hts)).symm.trans ht
    · intro ht
      exact (hsame t ht hts).trans ht
  tasks n hn := if_neg fun hmarked => h.notMem_active hne hn hmarked.1

/-- An update of another session. -/
lemma sameFor_of_update {f : SessionState μ → SessionState μ} (hne : s' ≠ s)
    (hserver : e'.server = e.server.update s f) (hresults : e'.results s' = e.results s')
    (htasks : e'.tasks = e.tasks) : e.SameFor s' e' where
  session := by rw [hserver, update_sessions_of_ne f hne]
  results := hresults
  requestStates := by rw [hserver]; rfl
  turns n t _ := by rw [hserver, update_turns]
  tasks n _ := by rw [htasks]

lemma DuplexOmni.SameFor.trans {e₁ e₂ e₃ : DuplexOmni μ} (h : e₁.SameFor s e₂)
    (h' : e₂.SameFor s e₃) : e₁.SameFor s e₃ where
  session := h'.session.trans h.session
  results := h'.results.trans h.results
  requestStates := h'.requestStates.trans h.requestStates
  turns n t hts := (h'.turns n t hts).trans (h.turns n t hts)
  tasks n hn := by
    obtain ⟨t, ht, hts⟩ := statusOf_ne_none.mp hn
    have hn' := statusOf_ne_none.mpr ⟨t, (h.turns n t hts).mpr ht, hts⟩
    exact (h'.tasks n hn').trans (h.tasks n hn)

lemma sameFor_tearDown (h : Wired e) (hne : s' ≠ s) (kind : Teardown) :
    e.SameFor s' (e.tearDown s kind) := by
  cases kind with
  | bargeIn => exact sameFor_cleanupForBargeIn h hne
  | stop =>
    refine (sameFor_cleanupForBargeIn h hne).trans ?_
    exact sameFor_of_update hne
      (f := fun x => { x with sessionWorker := false, worker := none }) rfl rfl rfl

lemma sameFor_of_endOf (hne : s' ≠ t.id.session) (ht : e.server.turns[n]? = some t)
    (hturns : e'.server.turns = e.server.turns.set n { t with status := .ended })
    (hsession : e'.server.sessions s' = e.server.sessions s')
    (hrequests : e'.server.requestStates.filter (fun x => s'.text.isPrefixOf x.1) =
      e.server.requestStates.filter fun x => s'.text.isPrefixOf x.1)
    (hresults : e'.results = e.results) (htasks : ∀ m, m ≠ n → e'.tasks m = e.tasks m) :
    e.SameFor s' e' where
  session := hsession
  results := by rw [hresults]
  requestStates := hrequests
  turns m u hus := by
    rw [hturns]
    by_cases hmn : n = m
    · subst hmn
      rw [getElem?_set_self (List.getElem?_eq_some_iff.mp ht).1, ht, Option.some_inj,
        Option.some_inj]
      constructor
      · rintro rfl
        exact absurd hus.symm hne
      · rintro rfl
        exact absurd hus.symm hne
    · rw [getElem?_set_ne hmn]
  tasks m hm := by
    refine htasks m ?_
    rintro rfl
    obtain ⟨u, hu, hus⟩ := statusOf_ne_none.mp hm
    cases ht.symm.trans hu
    exact hne hus.symm

lemma sameFor_discardTask (hne : s' ≠ t.id.session) (ht : e.server.turns[n]? = some t)
    (hserver : e'.server = e.server.discardTask n t) (hresults : e'.results = e.results)
    (htasks : ∀ m, m ≠ n → e'.tasks m = e.tasks m) :
    e.SameFor s' e' := by
  refine sameFor_of_endOf hne ht (by rw [hserver]; rfl) ?_ (by rw [hserver]; rfl) hresults htasks
  rw [hserver, sessions_discardTask, update_sessions_of_ne _ hne]

/-- An ended turn of another session. -/
lemma sameFor_endTurn (hne : s' ≠ t.id.session) (ht : e.server.turns[n]? = some t)
    (hserver : e'.server = e.server.endTurn n t) (hresults : e'.results = e.results)
    (htasks : ∀ m, m ≠ n → e'.tasks m = e.tasks m) :
    e.SameFor s' e' := by
  refine sameFor_of_endOf hne ht (by rw [hserver]; rfl) ?_ ?_ hresults htasks
  · rw [hserver, sessions_endTurn, sessions_discardTask, update_sessions_of_ne _ hne,
      update_sessions_of_ne _ hne]
  · rw [hserver]
    refine filter_popKeys hne fun k hk => ?_
    exact (SessionId.prefix_text t.id).trans (List.isPrefixOf_iff_prefix.mp hk)

/-- The events by which a teardown comes to its end touch its own session only. -/
lemma sameFor_of_windsUp [DecidableEq μ] {a : DuplexAct μ} (hne : s' ≠ s) (ha : a.WindsUp s e)
    (hstep : duplexStep g e a = some e') : e.SameFor s' e' := by
  have hown : ∀ {n t}, e.server.turns[n]? = some t → e.server.statusOf s n ≠ none →
      s' ≠ t.id.session := by
    rintro n t ht hn rfl
    exact hne (statusOf_of_turn ht hn).1
  cases duplexMove_of_step hstep with
  | server _ _ | spawn _ _ _ _ | send _ _ | output _ _ _ | deliver _ | bargeIn _ | stop _ =>
    exact ha.elim
  | @finalize n t hturn _ =>
    refine ⟨rfl, rfl, rfl, fun _ _ _ => Iff.rfl, fun m hm => tasks_setTasks_of_ne ?_ _⟩
    rintro rfl
    exact hown hturn ha (statusOf_of_turn hturn hm).1.symm
  | @leave n t hturn _ _ =>
    have hserver : (e.leaveFinally n t).server =
        if (e.tasks n).cut then e.server.discardTask n t else e.server.endTurn n t := rfl
    split at hserver
    · exact sameFor_discardTask (hown hturn ha) hturn hserver rfl fun m hm =>
        tasks_setTasks_of_ne hm _
    · exact sameFor_endTurn (hown hturn ha) hturn hserver rfl fun m hm => tasks_setTasks_of_ne hm _
  | drop hturn _ _ => exact sameFor_discardTask (hown hturn ha) hturn rfl rfl fun _ _ => rfl
  | stopped s'' =>
    obtain rfl : s'' = s := ha
    exact sameFor_of_update hne
      (f := fun x => { x with inputQueue := none, resultQueue := false, eouState := none }) rfl
      (update_of_ne hne ..) rfl

/-! ## When a teardown is clean -/

/-- In every reachable state, a teardown of a session is clean whatever follows iff no turn of it is
caught in its `finally` block with a `process_and_send` task left; and up to the end of the tasks
that it cancels, it leaves every other session as it is. -/
theorem teardown_clean_iff [DecidableEq μ] {now : Second} {acts : List (DuplexAct μ)}
    (hrun : run (duplexStep g) (.init g now) acts = some e) (s : SessionId) (kind : Teardown) :
    (Forever (duplexStep g) (· ≠ .server (.connect s)) (CleanFrom s kind e.server.turns.length)
        (e.tearDown s kind) ↔ ∀ n, ¬ e.CaughtInFinally s n) ∧
      ∀ s', s' ≠ s → e.SameFor s' (e.tearDown s kind) ∧
        ∀ (e₁ : DuplexOmni μ) a e₂, a.WindsUp s e₁ → duplexStep g e₁ a = some e₂ →
          e₁.SameFor s' e₂ := by
  have hwired := wired_run hrun
  refine ⟨⟨fun hforever n hcaught => ?_, fun hcaught => forever_cleanFrom hwired hcaught kind⟩,
    fun s' hne => ⟨sameFor_tearDown hwired hne kind, fun e₁ a e₂ ha hstep =>
      sameFor_of_windsUp hne ha hstep⟩⟩
  exact not_forever_cleanFrom hwired hcaught kind hforever

/-- The first turn of a session runs, an output has come, and the relay has made a task of
`process_and_send`. -/
def answeringRun : List (DuplexAct ℕ) :=
  [.server (.connect someSession), .server (.frame someSession someFrame),
    .server (.endOfUtterance someSession none (some 1)), .server (.take someSession),
    .server (.take someSession), .server (.submit 0), .output 0, .spawn 0 1]

/-- A barge-in at that point is clean: the turn is not in its `finally` block yet. -/
theorem teardown_clean_answering :
    ∃ e : DuplexOmni ℕ, run (duplexStep 0) (.init 0 someSecond) answeringRun = some e ∧
      (e.results someSession = [0] ∧ (e.tasks 0).sends = [1]) ∧
      (Forever (duplexStep 0) (· ≠ .server (.connect someSession))
          (CleanFrom someSession .bargeIn e.server.turns.length)
          (e.tearDown someSession .bargeIn)) ∧
      ∀ s', s' ≠ someSession → e.SameFor s' (e.tearDown someSession .bargeIn) := by
  have hrun : run (duplexStep 0) (.init 0 someSecond) answeringRun = some _ := rfl
  have hclean := teardown_clean_iff hrun someSession .bargeIn
  refine ⟨_, hrun, ⟨rfl, rfl⟩, hclean.1.mpr fun n hcaught => ?_, fun s' hne => (hclean.2 s' hne).1⟩
  cases n <;> exact Bool.false_ne_true hcaught.2.1

/-- The turn comes to its `finally` block and is cancelled there by a barge-in; then the task enters
its request id, and the turn leaves without removing it. -/
theorem bargeIn_leaves_request :
    ∃ e e' : DuplexOmni ℕ,
      run (duplexStep 0) (.init 0 someSecond) (answeringRun ++ [.finalize 0]) = some e ∧
      run (duplexStep 0) (e.tearDown someSession .bargeIn) [.send 0, .leave 0] = some e' ∧
      e'.Finished someSession .bargeIn ∧ e'.server.turns.map StartedTurn.status = [.ended] ∧
      e'.server.requestStates = [(stage1Key (TurnId.start someSession someSecond).text 1, 0)] ∧
      ¬ TornDown e' someSession .bargeIn e.server.turns.length := by
  have hrun : run (duplexStep 0) (.init 0 someSecond) (answeringRun ++ [.finalize 0]) =
    some _ := rfl
  refine ⟨_, _, hrun, rfl, ⟨nofun, ?_⟩, rfl, rfl, fun h => ?_⟩
  · intro t ht _ _
    obtain rfl := mem_singleton.mp ht
    rfl
  · have hstarts : someSession.text <+: stage1Key (TurnId.start someSession someSecond).text 1 :=
      (SessionId.prefix_text (.start someSession someSecond)).trans (prefix_stage1Key _ _)
    exact absurd (h.requestStates _ 0 (mem_singleton_self _) hstarts) (by decide)

end OmniStreaming
