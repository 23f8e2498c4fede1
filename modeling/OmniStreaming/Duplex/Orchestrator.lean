import OmniStreaming.Lib.Dict
import OmniStreaming.Duplex.RelayOrder
import OmniStreaming.Duplex.RequestId

/-!
# The orchestrator and its table of requests

Every turn of every session runs `generate_realtime_final` on one `DuplexOmni` object. The turns
share the dictionary `request_states`, from request ids to the turns that results with these ids
belong to: the harvesters drop a result whose id is unknown. The dictionary is edited by tests on
the text of the ids.

`Orchestrator` holds all turns with their workers and the dictionary. A turn also records the ids
that it has entered itself and has neither removed nor lost to a barge-in of its session (`held`).
The main result says when the dictionary agrees with these records in every run.
-/

namespace OmniStreaming

open Dictionary List Option Transition

variable {ε ρ τ : Type*}

/-! ## Turns -/

/-- A result on its way to a turn. -/
inductive StageResult (ε ρ τ : Type*)
  | thinker (r : ThinkerResult ε)
  | talker (r : TalkerResult ρ)
  | vocoder (v : VocoderResult τ)

/-- A turn: session, second, relay, metadata, queues and workers, what has been sent and put out,
and the ids it holds. -/
structure Turn (ε ρ τ : Type*) where
  session : Key
  time : ℕ
  relay : RelayLoop ε := { inbox := [] }
  md : TurnMetadata ρ := {}
  reqQueue : List (Key × StageResult ε ρ τ) := []
  stage1Queue : List (Key × TalkerResult ρ) := []
  stage2Queue : List (VocoderResult τ) := []
  senderAlive : Bool := true
  receiverDone : Bool := false
  stage2Tasks : List (Stage2Task ρ) := []
  pieces : List (AudioPiece τ) := []
  closed : Bool := false
  held : List Key

/-- The id of the turn. -/
def Turn.turnId (t : Turn ε ρ τ) : Key := turnIdOf t.session t.time

/-- All turns, in the order of their start, and `request_states`, with a turn given by its
number. -/
structure Orchestrator (ε ρ τ : Type*) where
  turns : List (Turn ε ρ τ) := []
  requestStates : Dict Key ℕ := ∅

inductive OrchAct (ε ρ τ : Type*)
  /-- `generate_realtime_final` starts a turn. -/
  | start (session : Key) (time : ℕ)
  /-- A harvester collects a result. -/
  | harvest (key : Key) (res : StageResult ε ρ τ)
  /-- `router_task` of a turn hands a result to its worker. -/
  | route (n : ℕ)
  /-- `worker_0to1` of a turn, or a task it has spawned, runs. -/
  | relay (n : ℕ) (a : RelayAct)
  /-- `worker_1to2` of a turn handles a result. -/
  | talker (n : ℕ) (accepted : Bool)
  /-- `worker_2toServer` of a turn handles a result. -/
  | vocoder (n : ℕ)
  /-- The `finally` block of a turn's generator. -/
  | finish (n : ℕ)
  /-- `cleanup_for_barge_in`. -/
  | bargeIn (session : Key)

/-- The id contains `_stage_1`. -/
def hasStage1Mark (k : Key) : Bool := stage1Mark <:+: k

variable (s : Orchestrator ε ρ τ)

/-- Turn `n` becomes `t`, and the dictionary loses the keys that pass the test and gains new keys
of the turn. -/
def Orchestrator.edit (n : ℕ) (t : Turn ε ρ τ) (pop : Key → Bool)
    (new : List Key) : Orchestrator ε ρ τ where
  turns := s.turns.set n { t with held := (t.held.filter fun k => !pop k) ++ new }
  requestStates := setKeys (popKeys s.requestStates pop) new n

/-- A turn starts and enters its own id, under which the stage-0 request runs. -/
def Orchestrator.startTurn (session : Key) (time : ℕ) : Orchestrator ε ρ τ where
  turns := s.turns ++ [{ session := session, time := time, held := [turnIdOf session time] }]
  requestStates := setKeys s.requestStates [turnIdOf session time] s.turns.length

/-- What a barge-in leaves of a turn: one of the session gives up what it holds. -/
def Turn.leave (session : Key) (t : Turn ε ρ τ) : Turn ε ρ τ :=
  if t.session = session then { t with held := [] } else t

/-- `cleanup_for_barge_in`: the ids that start with the session are removed, and its turns hold
nothing. -/
def Orchestrator.cleanupForBargeIn (session : Key) : Orchestrator ε ρ τ where
  turns := s.turns.map (Turn.leave session)
  requestStates := popKeys s.requestStates (session.isPrefixOf ·)

/-- `router_task`: move a result to the queue of its stage. -/
def Turn.route (t : Turn ε ρ τ) : Option (Turn ε ρ τ) :=
  match t.reqQueue with
  | [] => none
  | (_, .thinker r) :: rest =>
    some { t with reqQueue := rest, relay := { t.relay with inbox := t.relay.inbox ++ [r] } }
  | (key, .talker r) :: rest =>
    some { t with reqQueue := rest, stage1Queue := t.stage1Queue ++ [(key, r)] }
  | (_, .vocoder v) :: rest =>
    some { t with reqQueue := rest, stage2Queue := t.stage2Queue ++ [v] }

/-- `worker_1to2` of turn `n` on a result. A stop with unreadable targets ends the worker before
anything is removed. -/
def Orchestrator.handleTalker [Zero ρ] (s : Orchestrator ε ρ τ) (n : ℕ) (t : Turn ε ρ τ)
    (key : Key) (r : TalkerResult ρ) (accepted : Bool) : Orchestrator ε ρ τ :=
  if r.isStop ∧ (stopTargets s.requestStates.keys key).isNone then
    s.edit n { t with md := t.md.bufferCodes r, senderAlive := false } (fun _ => false) []
  else
    let o := worker1to2 t.md r
    s.edit n
      { t with
        md := o.md
        senderAlive := o.alive
        stage2Tasks := if accepted then t.stage2Tasks ++ o.sent.toList else t.stage2Tasks }
      (fun k => r.isStop && hasStage1Mark k) (o.sent.toList.map (stage2Key t.turnId))

/-- One event of the orchestrator; `puts n k` is the answer of the connector to stage-1 task `k` of
turn `n`. -/
def orchStep [Zero ρ] (puts : ℕ → ℕ → Bool) (s : Orchestrator ε ρ τ) :
    OrchAct ε ρ τ → Option (Orchestrator ε ρ τ)
  | .start session time => some (s.startTurn session time)
  | .harvest key res =>
    match s.requestStates.lookup key with
    | none => some s
    | some n =>
      s.turns[n]?.map fun t =>
        s.edit n { t with reqQueue := t.reqQueue ++ [(key, res)] } (fun _ => false) []
  | .route n =>
    s.turns[n]?.bind fun t =>
      if t.closed then none
      else t.route.map fun t' => s.edit n t' (fun _ => false) []
  | .relay n a =>
    s.turns[n]?.bind fun t =>
      if t.closed then none
      else
        (relayStep (puts n) t.relay a).map fun l =>
          s.edit n { t with relay := l } (fun _ => false)
            ((l.st.registered.drop t.relay.st.registered.length).map (stage1Key t.turnId))
  | .talker n accepted =>
    s.turns[n]?.bind fun t =>
      match t.closed, t.senderAlive, t.stage1Queue with
      | false, true, (key, r) :: rest =>
        some (s.handleTalker n { t with stage1Queue := rest } key r accepted)
      | _, _, _ => none
  | .vocoder n =>
    s.turns[n]?.bind fun t =>
      match t.closed, t.receiverDone, t.stage2Queue with
      | false, false, v :: rest =>
        let o := worker2toServer t.md v
        some (s.edit n
          { t with
            md := o.1
            stage2Queue := rest
            pieces := t.pieces ++ o.2.toList
            receiverDone := o.2.any AudioPiece.finished } (fun _ => false) [])
      | _, _, _ => none
  | .finish n =>
    s.turns[n]?.bind fun t =>
      if t.closed then none
      else some (s.edit n { t with closed := true } (t.turnId.isPrefixOf ·) [])
  | .bargeIn session => some (s.cleanupForBargeIn session)

/-! ## What an event leaves alone -/

/-- The turn `t` with the number `m` is the one, or one of those, that the event is about. -/
def OrchAct.Concerns (a : OrchAct ε ρ τ) (m : ℕ) (t : Turn ε ρ τ) : Prop :=
  match a with
  | .route n | .relay n _ | .talker n _ | .vocoder n | .finish n => m = n
  | .bargeIn session => t.session = session
  | .start _ _ | .harvest _ _ => False

/-- An event leaves the entries of all other turns as they are. -/
def FrameKept [Zero ρ] (puts : ℕ → ℕ → Bool) (s : Orchestrator ε ρ τ) (a : OrchAct ε ρ τ) : Prop :=
  ∀ s', orchStep puts s a = some s' → ∀ m t, s.turns[m]? = some t → ¬ a.Concerns m t →
    ∀ k, s'.requestStates.lookup k = some m ↔ s.requestStates.lookup k = some m

/-- A result for an id that a turn holds is put into the queue of that turn. -/
def DeliversHeld [Zero ρ] (puts : ℕ → ℕ → Bool) (s : Orchestrator ε ρ τ) : Prop :=
  ∀ (m : ℕ) (t : Turn ε ρ τ) (k : Key), s.turns[m]? = some t → k ∈ t.held → ∀ res, ∃ s' t',
    orchStep puts s (.harvest k res) = some s' ∧ s'.turns[m]? = some t' ∧
      t'.reqQueue = t.reqQueue ++ [(k, res)]

/-- The next result that `worker_1to2` of the turn takes has the stop token. -/
def Turn.stopsNext (t : Turn ε ρ τ) : Bool := t.stage1Queue.head?.any (·.2.isStop)

/-- Neither text starts with the other. -/
def Incomparable (x y : Key) : Prop := ¬ x <+: y ∧ ¬ y <+: x

instance (x y : Key) : Decidable (Incomparable x y) := inferInstanceAs (Decidable (_ ∧ _))

/-- A turn starts with an id that neither begins nor continues that of an open turn, a barge-in
names a session that neither begins nor continues another one, and a stop is handled while no other
turn has an entry with `_stage_1` in its id. -/
def TurnsApart : OrchAct ε ρ τ → Prop
  | .start session time =>
    ∀ t ∈ s.turns, t.closed = false → Incomparable t.turnId (turnIdOf session time)
  | .talker n _ =>
    (s.turns[n]?.any Turn.stopsNext) = true →
      ∀ k ∈ s.requestStates.keys, hasStage1Mark k → s.requestStates.lookup k = some n
  | .bargeIn session => ∀ t ∈ s.turns, t.session ≠ session → Incomparable t.session session
  | _ => True

instance (s : Orchestrator ε ρ τ) : DecidablePred (TurnsApart s) := fun a => by
  unfold TurnsApart
  split <;> infer_instance

/-! ## What a step can do to the dictionary -/

/-- `t'` has the identity and the held ids of `t`; new ids are its own and entered while it is open,
and if it closes all its ids are removed. -/
structure Turn.EditOf (t t' : Turn ε ρ τ) (pop : Key → Bool) (new : List Key) : Prop where
  turnId : t'.turnId = t.turnId
  session : t'.session = t.session
  held : t'.held = t.held
  new_own : ∀ k ∈ new, t.turnId <+: k ∧ t.closed = false ∧ t'.closed = false
  closed : t'.closed = true → t.closed = true ∨ ∀ k, t.turnId <+: k → pop k = true
  not_closed : t'.closed = false → t.closed = false

/-- The removed keys are the turn's own, or those that the stop handler takes for its own. -/
def PopsOwn (a : OrchAct ε ρ τ) (n : ℕ) (t : Turn ε ρ τ) (pop : Key → Bool) : Prop :=
  ∀ k, pop k = true → (t.closed = false ∧ t.turnId <+: k) ∨
    ∃ accepted, a = .talker n accepted ∧ t.stopsNext = true ∧ hasStage1Mark k = true

/-- An edit of turn `n` that leaves the dictionary alone, or an event that concerns turn `n`. -/
def Subject (a : OrchAct ε ρ τ) (n : ℕ) (pop : Key → Bool) (new : List Key) : Prop :=
  (∀ u, a.Concerns n u) ∨ (∀ k, pop k = false) ∧ new = []

variable {t t' u : Turn ε ρ τ} {k session : Key} {m n time : ℕ} {pop : Key → Bool} {new : List Key}

/-- Routing a result touches the queues of the turn only. -/
lemma editOf_route (h : t.route = some t') : t.EditOf t' (fun _ => false) [] := by
  unfold Turn.route at h
  split at h
  · cases h
  all_goals
    cases h
    exact ⟨rfl, rfl, rfl, by simp, fun hc => .inl hc, id⟩

/-! ## The dictionary agrees with the turns -/

section Dictionary

variable {s : Orchestrator ε ρ τ} {a : OrchAct ε ρ τ}

/-- The ids of open turns are incomparable, what a turn holds starts with its id, a closed turn
holds nothing, and the dictionary has exactly the held ids. -/
structure Registry (s : Orchestrator ε ρ τ) : Prop where
  apart : ∀ {m n : ℕ} {t u : Turn ε ρ τ}, s.turns[m]? = some t → s.turns[n]? = some u → m ≠ n →
    t.closed = false → u.closed = false → Incomparable t.turnId u.turnId
  prefixed : ∀ {m : ℕ} {t : Turn ε ρ τ} {k : Key}, s.turns[m]? = some t → k ∈ t.held →
    t.turnId <+: k
  closed_held : ∀ {m : ℕ} {t : Turn ε ρ τ}, s.turns[m]? = some t → t.closed = true → t.held = []
  owned : ∀ {k : Key} {m : ℕ},
    s.requestStates.lookup k = some m ↔ ∃ t, s.turns[m]? = some t ∧ k ∈ t.held

lemma Incomparable.symm {x y : Key} (h : Incomparable x y) : Incomparable y x := ⟨h.2, h.1⟩

lemma Incomparable.not_both {x y : Key} (h : Incomparable x y) (hx : x <+: k) (hy : y <+: k) :
    False :=
  (List.prefix_or_prefix_of_prefix hx hy).elim h.1 h.2

/-- A turn that holds an id is open. -/
lemma Registry.closed_eq_false (h : Registry s) (ht : s.turns[m]? = some t) (hheld : k ∈ t.held) :
    t.closed = false := by
  by_contra hclosed
  rw [h.closed_held ht (by simpa using hclosed)] at hheld
  cases hheld

/-- An id that continues the id of an open turn can be in the dictionary for that turn only. -/
lemma Registry.owner_eq (h : Registry s) (hk : s.requestStates.lookup k = some m)
    (hu : s.turns[n]? = some u) (hopen : u.closed = false) (hpre : u.turnId <+: k) : m = n := by
  obtain ⟨t, ht, hheld⟩ := h.owned.mp hk
  by_contra hne
  exact (h.apart ht hu hne (h.closed_eq_false ht hheld) hopen).not_both (h.prefixed ht hheld) hpre

/-- What a lookup finds after an edit. -/
lemma lookup_edit (s : Orchestrator ε ρ τ) (n : ℕ) (t : Turn ε ρ τ) (pop : Key → Bool)
    (new : List Key) (k : Key) :
    (s.edit n t pop new).requestStates.lookup k =
      if k ∈ new then some n else if pop k then none else s.requestStates.lookup k := by
  rw [Orchestrator.edit, lookup_setKeys, lookup_popKeys]
  congr

lemma lookup_edit_of_ne (h : Registry s) (ht : s.turns[n]? = some t) (hedit : t.EditOf t' pop new)
    (hpop : ∀ k m, pop k = true → s.requestStates.lookup k = some m → m = n) (hm : m ≠ n)
    (k : Key) :
    (s.edit n t' pop new).requestStates.lookup k = some m ↔
      s.requestStates.lookup k = some m := by
  rw [lookup_edit]
  by_cases hnew : k ∈ new
  · obtain ⟨hpre, hopen, -⟩ := hedit.new_own k hnew
    rw [if_pos hnew]
    constructor
    · intro heq
      exact absurd (some.inj heq).symm hm
    · intro heq
      exact absurd (h.owner_eq heq ht hopen hpre) hm
  · rw [if_neg hnew]
    by_cases hp : pop k = true
    · rw [if_pos hp]
      constructor
      · intro heq
        cases heq
      · intro heq
        exact absurd (hpop k m hp heq) hm
    · rw [if_neg hp]

lemma getElem?_edit (ht : s.turns[n]? = some t) (hu : (s.edit n t' pop new).turns[m]? = some u) :
    (m ≠ n ∧ s.turns[m]? = some u) ∨
      (m = n ∧ u = { t' with held := (t'.held.filter fun k => !pop k) ++ new }) := by
  by_cases hm : m = n
  · subst hm
    rw [Orchestrator.edit, getElem?_set_self (List.getElem?_eq_some_iff.mp ht).1] at hu
    exact .inr ⟨rfl, (some.inj hu).symm⟩
  · rw [Orchestrator.edit, getElem?_set_ne (Ne.symm hm)] at hu
    exact .inl ⟨hm, hu⟩

lemma registry_edit (h : Registry s) (ht : s.turns[n]? = some t) (hedit : t.EditOf t' pop new)
    (hpop : ∀ k m, pop k = true → s.requestStates.lookup k = some m → m = n) :
    Registry (s.edit n t' pop new) := by
  -- an edit changes neither the id of a turn nor opens a closed one
  have hid : ∀ {m : ℕ} {u : Turn ε ρ τ}, (s.edit n t' pop new).turns[m]? = some u →
      ∃ v, s.turns[m]? = some v ∧ u.turnId = v.turnId ∧ (u.closed = false → v.closed = false) := by
    intro m u hu
    obtain ⟨-, hu⟩ | ⟨rfl, rfl⟩ := getElem?_edit ht hu
    · exact ⟨u, hu, rfl, id⟩
    · exact ⟨t, ht, hedit.turnId, hedit.not_closed⟩
  have hself : (s.edit n t' pop new).turns[n]? =
      some { t' with held := (t'.held.filter fun k => !pop k) ++ new } :=
    getElem?_set_self (List.getElem?_eq_some_iff.mp ht).1
  refine ⟨?_, ?_, ?_, ?_⟩
  · intro m₁ m₂ u₁ u₂ hu₁ hu₂ hne hopen₁ hopen₂
    obtain ⟨v₁, hv₁, hid₁, hc₁⟩ := hid hu₁
    obtain ⟨v₂, hv₂, hid₂, hc₂⟩ := hid hu₂
    rw [hid₁, hid₂]
    exact h.apart hv₁ hv₂ hne (hc₁ hopen₁) (hc₂ hopen₂)
  · intro m u k hu hk
    obtain ⟨-, hu⟩ | ⟨rfl, rfl⟩ := getElem?_edit ht hu
    · exact h.prefixed hu hk
    · change t'.turnId <+: k
      rw [hedit.turnId]
      rcases mem_append.mp hk with hk | hk
      · exact h.prefixed ht (hedit.held ▸ mem_of_mem_filter hk)
      · exact (hedit.new_own k hk).1
  · intro m u hu hclosed
    obtain ⟨-, hu⟩ | ⟨rfl, rfl⟩ := getElem?_edit ht hu
    · exact h.closed_held hu hclosed
    · have hnew : new = [] := by
        refine eq_nil_iff_forall_not_mem.mpr fun k hk => ?_
        exact absurd hclosed (by simpa using (hedit.new_own k hk).2.2)
      have hold : t'.held.filter (fun k => !pop k) = [] := by
        rw [hedit.held]
        rcases hedit.closed hclosed with hc | hall
        · simp [h.closed_held ht hc]
        · refine filter_eq_nil_iff.mpr fun k hk => ?_
          simp [hall k (h.prefixed ht hk)]
      simp [hnew, hold]
  · intro k m
    by_cases hm : m = n
    · subst hm
      rw [lookup_edit, hself]
      have hold := h.owned (k := k) (m := m)
      by_cases hnew : k ∈ new
      · simp [hnew]
      · by_cases hp : pop k = true
        · simp [hnew, hp]
        · simp [hnew, hp, hold, ht, hedit.held]
    · rw [lookup_edit_of_ne h ht hedit hpop hm, h.owned, Orchestrator.edit,
        getElem?_set_ne (Ne.symm hm)]

lemma lookup_startTurn_of_ne (h : Registry s) (hapart : TurnsApart s (.start session time))
    (hm : m ≠ s.turns.length) (k : Key) :
    (s.startTurn session time).requestStates.lookup k = some m ↔
      s.requestStates.lookup k = some m := by
  rw [Orchestrator.startTurn, lookup_setKeys]
  by_cases hk : k = turnIdOf session time
  · subst hk
    rw [if_pos (mem_singleton.mpr rfl)]
    constructor
    · intro heq
      exact absurd (some.inj heq).symm hm
    · intro heq
      obtain ⟨t, ht, hheld⟩ := h.owned.mp heq
      have hother := hapart t (mem_of_getElem? ht) (h.closed_eq_false ht hheld)
      exact absurd (h.prefixed ht hheld) hother.1
  · rw [if_neg (by simpa using hk)]

lemma getElem?_startTurn (hu : (s.startTurn session time).turns[m]? = some u) :
    s.turns[m]? = some u ∨ (m = s.turns.length ∧
      u = { session := session, time := time, held := [turnIdOf session time] }) := by
  rw [Orchestrator.startTurn, getElem?_append] at hu
  split_ifs at hu with hlt
  · exact .inl hu
  · obtain ⟨hm, hget⟩ := List.getElem?_eq_some_iff.mp hu
    rw [getElem_singleton] at hget
    rw [length_singleton] at hm
    exact .inr ⟨by omega, hget.symm⟩

lemma registry_startTurn (h : Registry s) (hapart : TurnsApart s (.start session time)) :
    Registry (s.startTurn session time) := by
  refine ⟨?_, ?_, ?_, ?_⟩
  · intro m₁ m₂ u₁ u₂ hu₁ hu₂ hm hopen₁ hopen₂
    obtain hu₁ | ⟨rfl, rfl⟩ := getElem?_startTurn hu₁ <;>
      obtain hu₂ | ⟨rfl, rfl⟩ := getElem?_startTurn hu₂
    · exact h.apart hu₁ hu₂ hm hopen₁ hopen₂
    · exact hapart u₁ (mem_of_getElem? hu₁) hopen₁
    · exact (hapart u₂ (mem_of_getElem? hu₂) hopen₂).symm
    · exact absurd rfl hm
  · intro m u k hu hk
    obtain hu | ⟨rfl, rfl⟩ := getElem?_startTurn hu
    · exact h.prefixed hu hk
    · obtain rfl := mem_singleton.mp hk
      exact prefix_rfl
  · intro m u hu hclosed
    obtain hu | ⟨rfl, rfl⟩ := getElem?_startTurn hu
    · exact h.closed_held hu hclosed
    · cases hclosed
  · intro k m
    by_cases hm : m = s.turns.length
    · subst hm
      have hnone : s.requestStates.lookup k ≠ some s.turns.length := by
        intro heq
        obtain ⟨t, ht, -⟩ := h.owned.mp heq
        exact absurd (List.getElem?_eq_some_iff.mp ht).1 (Nat.lt_irrefl _)
      rw [Orchestrator.startTurn, lookup_setKeys]
      by_cases hk : k = turnIdOf session time
      · simp [hk]
      · simp [hk, hnone]
    · rw [lookup_startTurn_of_ne h hapart hm, h.owned]
      refine exists_congr fun t => and_congr_left fun _ => ?_
      constructor
      · intro ht
        rw [Orchestrator.startTurn, getElem?_append_left (List.getElem?_eq_some_iff.mp ht).1]
        exact ht
      · intro ht
        obtain ht | ⟨rfl, -⟩ := getElem?_startTurn ht
        · exact ht
        · exact absurd rfl hm

lemma lookup_cleanupForBargeIn (h : Registry s) (hapart : TurnsApart s (.bargeIn session))
    (ht : s.turns[m]? = some t) (hne : t.session ≠ session) (k : Key) :
    (s.cleanupForBargeIn session).requestStates.lookup k = some m ↔
      s.requestStates.lookup k = some m := by
  rw [Orchestrator.cleanupForBargeIn, lookup_popKeys]
  by_cases hk : session <+: k
  · rw [if_pos (by simpa using hk)]
    constructor
    · intro heq
      cases heq
    · intro heq
      obtain ⟨u, hu, hheld⟩ := h.owned.mp heq
      cases ht.symm.trans hu
      have hsession : t.session <+: k :=
        (prefix_append _ _).trans (h.prefixed ht hheld)
      exact ((hapart t (mem_of_getElem? ht) hne).not_both hsession hk).elim
  · rw [if_neg (by simpa using hk)]

@[simp] lemma turnId_leave (session : Key) (t : Turn ε ρ τ) :
    (t.leave session).turnId = t.turnId := by
  unfold Turn.leave
  split_ifs <;> rfl

@[simp] lemma closed_leave (session : Key) (t : Turn ε ρ τ) :
    (t.leave session).closed = t.closed := by
  unfold Turn.leave
  split_ifs <;> rfl

lemma mem_held_leave : k ∈ (t.leave session).held ↔ t.session ≠ session ∧ k ∈ t.held := by
  unfold Turn.leave
  split_ifs with hs
  · simp [hs]
  · simp [hs]

/-- A barge-in keeps the agreement. -/
lemma registry_cleanupForBargeIn (h : Registry s) (hapart : TurnsApart s (.bargeIn session)) :
    Registry (s.cleanupForBargeIn session) := by
  have hturn : ∀ {m : ℕ} {u : Turn ε ρ τ}, (s.cleanupForBargeIn session).turns[m]? = some u ↔
      ∃ v, s.turns[m]? = some v ∧ v.leave session = u := by
    intro m u
    rw [Orchestrator.cleanupForBargeIn, getElem?_map]
    exact map_eq_some_iff
  refine ⟨?_, ?_, ?_, ?_⟩
  · intro m₁ m₂ u₁ u₂ hu₁ hu₂ hm hopen₁ hopen₂
    obtain ⟨v₁, hv₁, rfl⟩ := hturn.mp hu₁
    obtain ⟨v₂, hv₂, rfl⟩ := hturn.mp hu₂
    rw [closed_leave] at hopen₁ hopen₂
    rw [turnId_leave, turnId_leave]
    exact h.apart hv₁ hv₂ hm hopen₁ hopen₂
  · intro m u k hu hk
    obtain ⟨v, hv, rfl⟩ := hturn.mp hu
    rw [turnId_leave]
    exact h.prefixed hv (mem_held_leave.mp hk).2
  · intro m u hu hclosed
    obtain ⟨v, hv, rfl⟩ := hturn.mp hu
    rw [closed_leave] at hclosed
    refine eq_nil_iff_forall_not_mem.mpr fun k hk => ?_
    have hmem := (mem_held_leave.mp hk).2
    rw [h.closed_held hv hclosed] at hmem
    exact not_mem_nil hmem
  · intro k m
    constructor
    · intro heq
      have hfound : ¬ session <+: k ∧ s.requestStates.lookup k = some m := by
        rw [Orchestrator.cleanupForBargeIn, lookup_popKeys] at heq
        split_ifs at heq with hk
        exact ⟨by simpa using hk, heq⟩
      obtain ⟨v, hv, hmem⟩ := h.owned.mp hfound.2
      refine ⟨_, hturn.mpr ⟨v, hv, rfl⟩, mem_held_leave.mpr ⟨?_, hmem⟩⟩
      rintro rfl
      exact hfound.1 ((prefix_append _ _).trans (h.prefixed hv hmem))
    · rintro ⟨u, hu, hmem⟩
      obtain ⟨v, hv, rfl⟩ := hturn.mp hu
      obtain ⟨hne, hmem⟩ := mem_held_leave.mp hmem
      exact (lookup_cleanupForBargeIn h hapart hv hne k).mpr (h.owned.mpr ⟨v, hv, hmem⟩)

/-- Where the turns stay apart, an edit removes entries of its own turn only. -/
lemma pop_own_of_turnsApart (h : Registry s) (hapart : TurnsApart s a) (ht : s.turns[n]? = some t)
    (hpop : PopsOwn a n t pop) (k : Key) (m : ℕ) (hp : pop k = true)
    (hk : s.requestStates.lookup k = some m) : m = n := by
  obtain ⟨hopen, hpre⟩ | ⟨accepted, rfl, hstop, hmark⟩ := hpop k hp
  · exact h.owner_eq hk ht hopen hpre
  · have hmem : k ∈ s.requestStates.keys :=
      AList.mem_keys.mp (AList.lookup_isSome.mp (by simp [hk]))
    have hn := hapart (by simp [ht, hstop]) k hmem hmark
    exact some.inj (hk.symm.trans hn)

end Dictionary

/-! ## Steps -/

variable [Zero ρ] {puts : ℕ → ℕ → Bool} {s s' : Orchestrator ε ρ τ} {a : OrchAct ε ρ τ}

/-- The handler of a talker result edits its own turn. -/
lemma exists_edit_handleTalker (s : Orchestrator ε ρ τ) (n : ℕ) {key : Key} {r : TalkerResult ρ}
    {rest : List (Key × TalkerResult ρ)} (accepted : Bool) (hclosed : t.closed = false)
    (hq : t.stage1Queue = (key, r) :: rest) :
    ∃ t' pop new,
      s.handleTalker n { t with stage1Queue := rest } key r accepted = s.edit n t' pop new ∧
      t.EditOf t' pop new ∧ PopsOwn (.talker n accepted : OrchAct ε ρ τ) n t pop := by
  have hstops : r.isStop = true → t.stopsNext = true := by
    intro hr
    simp [Turn.stopsNext, hq, hr]
  unfold Orchestrator.handleTalker
  split
  · refine ⟨_, _, _, rfl, ⟨rfl, rfl, rfl, by simp, fun hc => .inl hc, id⟩, by simp [PopsOwn]⟩
  · refine ⟨_, _, _, rfl, ⟨rfl, rfl, rfl, ?_, fun hc => .inl hc, id⟩, ?_⟩
    · intro k hk
      obtain ⟨task, -, rfl⟩ := List.mem_map.mp hk
      exact ⟨prefix_stage2Key _ task, hclosed, hclosed⟩
    · intro k hk
      obtain ⟨hr, hmark⟩ := Bool.and_eq_true_iff.mp hk
      exact .inr ⟨accepted, rfl, hstops hr, hmark⟩

/-- What a step can do: start a turn, clean up for a barge-in, nothing, or edit one turn. -/
lemma orchStep_cases (h : orchStep puts s a = some s') :
    (∃ session time, a = .start session time ∧ s' = s.startTurn session time) ∨
    (∃ session, a = .bargeIn session ∧ s' = s.cleanupForBargeIn session) ∨
    s' = s ∨
    ∃ n t t' pop new, s.turns[n]? = some t ∧ s' = s.edit n t' pop new ∧ t.EditOf t' pop new ∧
      PopsOwn a n t pop ∧ Subject a n pop new := by
  cases a with
  | start session time => exact .inl ⟨session, time, rfl, (some.inj h).symm⟩
  | bargeIn session => exact .inr (.inl ⟨session, rfl, (some.inj h).symm⟩)
  | harvest key res =>
    simp only [orchStep] at h
    split at h
    · exact .inr (.inr (.inl (some.inj h).symm))
    · obtain ⟨t, ht, rfl⟩ := map_eq_some_iff.mp h
      exact .inr (.inr (.inr ⟨_, t, _, _, _, ht, rfl,
        ⟨rfl, rfl, rfl, by simp, fun hc => .inl hc, id⟩, by simp [PopsOwn],
        .inr ⟨fun _ => rfl, rfl⟩⟩))
  | route n =>
    obtain ⟨t, ht, h⟩ := bind_eq_some_iff.mp h
    split_ifs at h
    obtain ⟨t', ht', rfl⟩ := map_eq_some_iff.mp h
    exact .inr (.inr (.inr ⟨n, t, t', _, _, ht, rfl, editOf_route ht', by simp [PopsOwn],
      .inl fun _ => rfl⟩))
  | relay n b =>
    obtain ⟨t, ht, h⟩ := bind_eq_some_iff.mp h
    split_ifs at h with hclosed
    obtain ⟨l, hl, rfl⟩ := map_eq_some_iff.mp h
    have hopen : t.closed = false := by simpa using hclosed
    refine .inr (.inr (.inr ⟨n, t, _, _, _, ht, rfl, ⟨rfl, rfl, rfl, ?_, fun hc => .inl hc, id⟩,
      by simp [PopsOwn], .inl fun _ => rfl⟩))
    intro k hk
    obtain ⟨seq, -, rfl⟩ := List.mem_map.mp hk
    exact ⟨prefix_stage1Key _ seq, hopen, hopen⟩
  | talker n accepted =>
    obtain ⟨t, ht, h⟩ := bind_eq_some_iff.mp h
    split at h
    · rename_i key r rest hclosed halive hq
      obtain ⟨t', pop, new, hs', hedit, hpop⟩ :=
        exists_edit_handleTalker s n accepted hclosed hq
      exact .inr (.inr (.inr ⟨n, t, t', pop, new, ht, (some.inj h).symm.trans hs', hedit,
        hpop, .inl fun _ => rfl⟩))
    · cases h
  | vocoder n =>
    obtain ⟨t, ht, h⟩ := bind_eq_some_iff.mp h
    split at h
    · exact .inr (.inr (.inr ⟨n, t, _, _, _, ht, (some.inj h).symm,
        ⟨rfl, rfl, rfl, by simp, fun hc => .inl hc, id⟩, by simp [PopsOwn], .inl fun _ => rfl⟩))
    · cases h
  | finish n =>
    obtain ⟨t, ht, h⟩ := bind_eq_some_iff.mp h
    split_ifs at h with hclosed
    have hopen : t.closed = false := by simpa using hclosed
    refine .inr (.inr (.inr ⟨n, t, _, _, _, ht, (some.inj h).symm,
      ⟨rfl, rfl, rfl, by simp, fun _ => .inr fun k hk => ?_, fun _ => hopen⟩,
      fun k hk => .inl ⟨hopen, ?_⟩, .inl fun _ => rfl⟩))
    · simpa using hk
    · simpa using hk

lemma registry_step (h : Registry s) (hapart : TurnsApart s a)
    (hstep : orchStep puts s a = some s') : Registry s' := by
  obtain ⟨session, time, rfl, rfl⟩ | ⟨session, rfl, rfl⟩ | rfl |
    ⟨n, t, t', pop, new, ht, rfl, hedit, hpop, -⟩ := orchStep_cases hstep
  · exact registry_startTurn h hapart
  · exact registry_cleanupForBargeIn h hapart
  · exact h
  · exact registry_edit h ht hedit (pop_own_of_turnsApart h hapart ht hpop)

/-- An event at which the turns stay apart leaves the entries of the turns it is not about. -/
lemma frameKept_of_turnsApart (h : Registry s) (hapart : TurnsApart s a) : FrameKept puts s a := by
  intro s' hstep m u hu hnot k
  obtain ⟨session, time, rfl, rfl⟩ | ⟨session, rfl, rfl⟩ | rfl |
    ⟨n, t, t', pop, new, ht, rfl, hedit, hpop, hsub⟩ := orchStep_cases hstep
  · exact lookup_startTurn_of_ne h hapart (List.getElem?_eq_some_iff.mp hu).1.ne k
  · exact lookup_cleanupForBargeIn h hapart hu hnot k
  · rfl
  · by_cases hm : m = n
    · subst hm
      obtain hall | ⟨hpop, rfl⟩ := hsub
      · exact absurd (hall u) hnot
      · simp [lookup_edit, hpop]
    · exact lookup_edit_of_ne h ht hedit (pop_own_of_turnsApart h hapart ht hpop) hm k

/-- Where the dictionary agrees with the turns, a result for a held id is delivered. -/
lemma deliversHeld_of_registry (h : Registry s) : DeliversHeld puts s := by
  intro m t k ht hk res
  have hfound : s.requestStates.lookup k = some m := h.owned.mpr ⟨t, ht, hk⟩
  refine ⟨s.edit m { t with reqQueue := t.reqQueue ++ [(k, res)] } (fun _ => false) [], _, ?_,
    getElem?_set_self (List.getElem?_eq_some_iff.mp ht).1, rfl⟩
  simp only [orchStep, hfound, ht]
  rfl

/-- In every run in which the turns stay apart, no event changes an entry of a turn it is not about,
and a result for an id that a turn holds is delivered to it. -/
theorem turns_not_interfering {acts : List (OrchAct ε ρ τ)}
    (hapart : AllSteps (orchStep puts) TurnsApart {} acts) :
    AllSteps (orchStep puts) (FrameKept puts) {} acts ∧
      EveryState (orchStep puts) (DeliversHeld puts) {} acts := by
  have hstart : Registry ({} : Orchestrator ε ρ τ) :=
    ⟨by simp, by simp, by simp, by simp⟩
  constructor
  · exact allSteps_of_allSteps (fun _ _ _ h hok hs => registry_step h hok hs)
      (fun _ _ h hok => frameKept_of_turnsApart h hok) hstart hapart
  · exact everyState_of_allSteps (fun _ _ _ h hok hs => registry_step h hok hs)
      (fun _ h => deliversHeld_of_registry h) hstart hapart

/-- Turn `n`, the only one of session `session`, starts and sends its prefill to the talker. -/
def prefillRun (n : ℕ) (session : Key) : List (OrchAct ℕ ℕ ℕ) :=
  [.start session 0, .harvest (turnIdOf session 0) (.thinker (shortResult 2 false)), .route n,
    .relay n .recv]

/-- The stop result for the prefill of turn `n` comes in and is handed to `worker_1to2`. -/
def stopResultRun (n : ℕ) (session : Key) : List (OrchAct ℕ ℕ ℕ) :=
  [.harvest (stage1Key (turnIdOf session 0) 0)
    (.talker { idx := 0, tokenIds := [stopToken], audioCodes := some [7] }), .route n]

/-- Two turns whose stops come after the other turn is done do not interfere. -/
theorem turns_not_interfering_sequential :
    AllSteps (orchStep fun _ _ => true) (FrameKept fun _ _ => true) {}
        (prefillRun 0 ['a'] ++ stopResultRun 0 ['a'] ++ [.talker 0 true] ++ prefillRun 1 ['b'] ++
          [.finish 0]) ∧
      EveryState (orchStep fun _ _ => true) (DeliversHeld fun _ _ => true) {}
        (prefillRun 0 ['a'] ++ stopResultRun 0 ['a'] ++ [.talker 0 true] ++ prefillRun 1 ['b'] ++
          [.finish 0]) :=
  turns_not_interfering (by decide +kernel)

/-- An id that a turn holds and the dictionary has lost is not delivered. -/
lemma not_deliversHeld_of_lost (r : TalkerResult ρ) (ht : s.turns[m]? = some t) (hk : k ∈ t.held)
    (hlost : s.requestStates.lookup k = none) :
    ¬ DeliversHeld puts s := by
  intro h
  obtain ⟨s', t', hstep, ht', hqueue⟩ := h m t k ht hk (.talker r)
  simp only [orchStep, hlost] at hstep
  cases hstep
  cases ht.symm.trans ht'
  simpa using congrArg length hqueue

/-- With both turns at the talker, the stop of the first removes the entry of the second, whose next
talker result is dropped. -/
theorem turns_interfering_stop :
    ∃ s s', run (orchStep fun _ _ => true) {}
        (prefillRun 0 ['a'] ++ prefillRun 1 ['b'] ++ stopResultRun 0 ['a']) = some s ∧
      orchStep (fun _ _ => true) s (.talker 0 true) = some s' ∧
      ¬ FrameKept (fun _ _ => true) s (.talker 0 true) ∧
      ¬ DeliversHeld (fun _ _ => true) s' := by
  let key : Key := stage1Key (turnIdOf ['b'] 0) 0
  have hrun : ((run (orchStep fun _ _ => true) {}
      (prefillRun 0 ['a'] ++ prefillRun 1 ['b'] ++ stopResultRun 0 ['a'])).bind fun s =>
        (orchStep (fun _ _ => true) s (.talker 0 true)).map fun s' =>
          (s.requestStates.lookup key, s'.requestStates.lookup key, s.turns[1]?.isSome,
            s'.turns[1]?.any (key ∈ ·.held))) = some (some 1, none, true, true) := by
    decide +kernel
  obtain ⟨s, hs, h⟩ := bind_eq_some_iff.mp hrun
  obtain ⟨s', hs', h⟩ := map_eq_some_iff.mp h
  simp only [Prod.mk.injEq] at h
  obtain ⟨hbefore, hafter, hturn, hheld⟩ := h
  obtain ⟨t, ht⟩ := isSome_iff_exists.mp hturn
  obtain ⟨t', ht', hmem⟩ := Option.any_eq_true _ _ |>.mp hheld
  refine ⟨s, s', hs, hs', fun hframe => ?_, ?_⟩
  · have hkept := (hframe s' hs' 1 t ht one_ne_zero key).mpr hbefore
    rw [hafter] at hkept
    cases hkept
  · exact not_deliversHeld_of_lost { idx := 0, tokenIds := [], audioCodes := none } ht'
      (by simpa using hmem) hafter

end OmniStreaming
