import OmniStreaming.Lib.Transition
import OmniStreaming.Server.Sessions

/-!
# Ids of turns

`_audio_worker` names a turn by its session and the second in which it starts. `request_states` and
`send_loop` know turns by these texts only, so two turns of a session that start in the same second
share their entries, and the second one is not new.

The invariants say what the entries mean in every run: an entry was made by a turn that owns its
key, and `last_turn_id` is the id of a turn that `send_loop` has taken.

`send_loop` takes the first entry that is not one of `last_turn_id`, so with three turns it may go
back and forth between two of them. With one other turn beside it, a turn is taken by the second
poll.
-/

namespace OmniStreaming

open List Transition

variable {μ : Type*}

/-! ## What is to be kept -/

/-- Any two turns of the session have different ids. -/
def DistinctIds (s : SessionId) (e : Server μ) : Prop :=
  ∀ (m n : ℕ) (t u : StartedTurn μ), e.turns[m]? = some t → e.turns[n]? = some u →
    t.id.session = s → t.id.text = u.id.text → m = n

/-- Two turns of the session. -/
structure Siblings (s : SessionId) (e : Server μ) (m n : ℕ) (t u : StartedTurn μ) : Prop where
  left : e.turns[m]? = some t
  right : e.turns[n]? = some u
  session_left : t.id.session = s
  session_right : u.id.session = s
  ne : m ≠ n

/-- The turn whose event it is. -/
def ServerAct.turn : ServerAct μ → Option ℕ
  | .submit n | .register n _ | .stop n | .finish n | .cancelled n => some n
  | _ => none

/-- The next item of the audio worker starts a turn. -/
def Server.startsTurn (e : Server μ) (s : SessionId) : Bool :=
  match (e.sessions s).worker, (e.sessions s).inputQueue with
  | some (_ :: _), some (.eosMarker _ :: _) => true
  | _, _ => false

/-- A turn of the session starts in a second in which no other has started. -/
def FreshSecond (s : SessionId) (e : Server μ) : ServerAct μ → Prop
  | .take s' => s' = s → e.startsTurn s → ∀ t ∈ e.turnsOf s, t.id.time ≠ e.clock
  | _ => True

/-- When a turn of the session handles a stop token, no other turn of the session has a stage-1
request. -/
def LoneStop (s : SessionId) (e : Server μ) : ServerAct μ → Prop
  | .stop n => ∀ u ∈ e.turns[n]?, u.id.session = s → ∀ x ∈ e.requestStates, x.2 ≠ n →
    stage1Mark <:+: x.1 → ∀ t ∈ e.turns[x.2]?, t.id.session ≠ s
  | _ => True

/-- The turns that have entries under ids of the session. -/
def Server.entryTurns (e : Server μ) (s : SessionId) : List ℕ :=
  (e.requestStates.filter fun x => s.text.isPrefixOf x.1).map Prod.snd

/-- When `send_loop` polls while a turn of the session waits for it, at most one other has
entries. -/
def FewTurns (s : SessionId) (e : Server μ) : ServerAct μ → Prop
  | .poll s' => s' = s → ∀ n ∈ e.entryTurns s, n ∉ (e.sessions s).picked →
    ∀ m ∈ e.entryTurns s, ∀ m' ∈ e.entryTurns s, m ≠ n → m' ≠ n → m = m'
  | _ => True

instance (s : SessionId) (e : Server μ) : DecidablePred (FewTurns s e) := fun a => by
  unfold FewTurns
  split <;> infer_instance

instance (s : SessionId) (e : Server μ) : DecidablePred (FreshSecond s e) := fun a => by
  unfold FreshSecond
  split <;> infer_instance

instance (s : SessionId) (e : Server μ) : DecidablePred (LoneStop s e) := fun a => by
  unfold LoneStop
  split <;> infer_instance

/-- The turn of an entry owns its key, and `last_turn_id` is the id of a turn that has been
taken. -/
structure EntryInv (s : SessionId) (e : Server μ) : Prop where
  owned : ∀ k n, (k, n) ∈ e.requestStates → ∃ t, e.turns[n]? = some t ∧ t.id.Owns k
  last : ∀ text, (e.sessions s).lastTurnId = some text →
    ∃ n ∈ (e.sessions s).picked, ∃ t, e.turns[n]? = some t ∧ t.id.text = text

variable [DecidableEq μ] {g : μ} {e e' : Server μ} {s : SessionId} {a : ServerAct μ}

/-! ## Different ids -/

/-- A turn is started only when the worker is at the end of an utterance. -/
lemma startsTurn_of_step (hstep : serverStep g e (.take s) = some e')
    (hturns : e'.turns.length ≠ e.turns.length) : e.startsTurn s = true := by
  cases serverMove_of_step hstep with
  | takeFrame _ _ => exact absurd rfl hturns
  | takeMarker _ _ => exact absurd rfl hturns
  | @takeTurn _ buffer _ _ hworker hqueue haudio =>
    cases buffer with
    | nil => exact absurd rfl haudio
    | cons b buffer => simp [Server.startsTurn, hworker, hqueue]

/-- A start in a fresh second keeps the ids apart. -/
lemma distinctIds_step (h : DistinctIds s e) (hfresh : FreshSecond s e a)
    (hstep : serverStep g e a = some e') : DistinctIds s e' := by
  -- the id of the turn that is started is not the id of an old one
  have hnew : ∀ {s' : SessionId} {m : ℕ} {t₀ : StartedTurn μ}, a = .take s' →
      e'.turns.length ≠ e.turns.length → s' = s → e.turns[m]? = some t₀ →
      t₀.id ≠ .start s' e.clock := by
    rintro s' m t₀ rfl hlen rfl ht₀ heq
    refine hfresh rfl (startsTurn_of_step hstep hlen) t₀ ?_ (congrArg TurnId.time heq)
    exact mem_filter.mpr ⟨mem_of_getElem? ht₀, by simp [heq, TurnId.start]⟩
  have hlen : ∀ {n t}, e'.turns[n]? = some t → n = e.turns.length →
      e'.turns.length ≠ e.turns.length := by
    intro n t ht hn
    have := (List.getElem?_eq_some_iff.mp ht).1
    omega
  intro m n t u ht hu hs htext
  have hid : t.id = u.id := TurnId.text_injective htext
  obtain ⟨t₀, ht₀, hid₁⟩ | ⟨s₁, ha₁, hm, hid₁⟩ := exists_turn_before hstep ht
  · obtain ⟨u₀, hu₀, hid₂⟩ | ⟨s₂, ha₂, hn, hid₂⟩ := exists_turn_before hstep hu
    · exact h m n t₀ u₀ ht₀ hu₀ (hid₁ ▸ hs) (by rw [← hid₁, ← hid₂, htext])
    · exact absurd (hid₁.symm.trans (hid.trans hid₂))
        (hnew ha₂ (hlen hu hn) (by rw [← hs, hid, hid₂]; rfl) ht₀)
  · obtain ⟨u₀, hu₀, hid₂⟩ | ⟨s₂, ha₂, hn, hid₂⟩ := exists_turn_before hstep hu
    · exact absurd (hid₂.symm.trans (hid.symm.trans hid₁))
        (hnew ha₁ (hlen ht hm) (by rw [← hs, hid₁]; rfl) hu₀)
    · omega

/-! ## What the entries mean -/

/-- An entry after an event is an old one, or a turn has made it under a request id of its own. -/
lemma requestStates_step (hstep : serverStep g e a = some e') {k : Key} {n : ℕ}
    (h : (k, n) ∈ e'.requestStates) :
    (k, n) ∈ e.requestStates ∨ ∃ t, e.turns[n]? = some t ∧ t.id.Owns k ∧
      ∃ t', e'.turns[n]? = some t' ∧ t'.status = .running := by
  cases serverMove_of_step hstep with
  | frame data _ | endOfUtterance lastSeq mode _ =>
    rw [requestStates_putIncrementalInput] at h
    exact .inl h
  | bargeIn _ | finish _ _ | cancelled _ _ _ => exact .inl (OrderedDict.mem_popKeys.mp h).1
  | stop _ _ =>
    simp only [OrderedDict.mem_popKeys] at h
    exact .inl h.1
  | connect _ | takeFrame _ _ | takeMarker _ _ | takeTurn _ _ _ | cancelledEarly _ _ _ | close _ _
  | clock _ => exact .inl h
  | poll _ =>
    unfold Server.pollTurns at h
    split at h
    · exact .inl h
    · exact .inl h
  | submit hturn _ _ =>
    obtain ⟨rfl, rfl⟩ | hold := OrderedDict.mem_set h
    · obtain ⟨hn, -⟩ := List.getElem?_eq_some_iff.mp hturn
      exact .inr ⟨_, hturn, .stage0, _, getElem?_set_self hn, rfl⟩
    · exact .inl hold
  | register r hturn hstatus =>
    obtain ⟨rfl, rfl⟩ | hold := OrderedDict.mem_set h
    · exact .inr ⟨_, hturn, r.owns_key _, _, hturn, hstatus⟩
    · exact .inl hold

/-- What `send_loop` remembers: `last_turn_id` and the turns that it has taken. -/
def SessionState.sender (x : SessionState μ) : Option Key × List ℕ := (x.lastTurnId, x.picked)

/-- Only `send_loop` changes what it remembers. -/
lemma sender_step (hstep : serverStep g e a = some e') (hpoll : a ≠ .poll s) :
    (e'.sessions s).sender = (e.sessions s).sender := by
  cases serverMove_of_step hstep with
  | connect _ =>
    exact Eq.trans (read_update SessionState.sender fun _ => by rfl)
      (read_update SessionState.sender fun _ => by rfl)
  | frame data _ =>
    obtain ⟨items, -, -, hsessions⟩ := exists_putIncrementalInput e _ (some data) (some g)
    rw [hsessions]
    exact read_update SessionState.sender fun _ => by rfl
  | endOfUtterance lastSeq mode _ =>
    obtain ⟨items, -, -, hsessions⟩ := exists_putIncrementalInput
      (e.update _ fun x => { x with eouState := some lastSeq }) _ none mode
    rw [hsessions]
    exact Eq.trans (read_update SessionState.sender fun _ => by rfl)
      (read_update SessionState.sender fun _ => by rfl)
  | bargeIn _ =>
    rw [sessions_cleanupForBargeIn]
    exact read_update SessionState.sender fun _ => by rfl
  | cancelledEarly _ _ _ =>
    rw [sessions_discardTask]
    exact read_update SessionState.sender fun _ => by rfl
  | takeFrame _ _ | takeMarker _ _ | close _ _ =>
    exact read_update SessionState.sender fun _ => by rfl
  | takeTurn _ _ _ =>
    rw [sessions_startTurn]
    exact Eq.trans (read_update SessionState.sender fun _ => by rfl)
      (read_update SessionState.sender fun _ => by rfl)
  | finish _ _ | cancelled _ _ _ =>
    rw [sessions_endTurn, sessions_discardTask]
    exact Eq.trans (read_update SessionState.sender fun _ => by rfl)
      (read_update SessionState.sender fun _ => by rfl)
  | submit _ _ _ | register _ _ _ | stop _ _ | clock _ => rfl
  | @poll s' _ =>
    have hs : s ≠ s' := fun hs => hpoll (hs ▸ rfl)
    unfold Server.pollTurns
    split
    · rfl
    · rw [update_sessions_of_ne _ hs]

omit [DecidableEq μ] in
/-- What `send_loop` takes is an entry of the session that it has not just taken. -/
lemma newTurn_eq_some {k : Key} {n : ℕ} (h : e.newTurn s = some (k, n)) :
    (k, n) ∈ e.requestStates ∧ e.isNew s k = true :=
  ⟨mem_of_find?_eq_some h, find?_some (p := fun x : Key × ℕ => e.isNew s x.1) h⟩

/-- Every event keeps the meaning of the entries. -/
lemma entryInv_step (h : EntryInv s e) (hstep : serverStep g e a = some e') : EntryInv s e' := by
  have howned : ∀ k n, (k, n) ∈ e'.requestStates → ∃ t, e'.turns[n]? = some t ∧ t.id.Owns k := by
    intro k n hmem
    obtain ⟨t, ht, howns⟩ : ∃ t, e.turns[n]? = some t ∧ t.id.Owns k :=
      (requestStates_step hstep hmem).elim (h.owned k n) fun ⟨t, ht, howns, _⟩ => ⟨t, ht, howns⟩
    obtain ⟨t', ht', hid⟩ := exists_turn_after hstep ht
    exact ⟨t', ht', hid ▸ howns⟩
  have hkeep : ∀ text, (∃ n ∈ (e.sessions s).picked, ∃ t, e.turns[n]? = some t ∧ t.id.text = text) →
      ∃ n ∈ (e.sessions s).picked, ∃ t, e'.turns[n]? = some t ∧ t.id.text = text := by
    rintro text ⟨n, hn, t, ht, htext⟩
    obtain ⟨t', ht', hid⟩ := exists_turn_after hstep ht
    exact ⟨n, hn, t', ht', hid ▸ htext⟩
  refine ⟨howned, fun text hlast => ?_⟩
  by_cases hpoll : a = .poll s
  · subst hpoll
    cases serverMove_of_step hstep with
    | poll _ =>
      unfold Server.pollTurns at hlast ⊢
      split at hlast
      · exact h.last text hlast
      · rename_i k n hnew
        rw [update_sessions_self] at hlast ⊢
        obtain ⟨t, ht, howns⟩ := h.owned k n (newTurn_eq_some hnew).1
        have htext : t.id.text = text := howns.splitHead.symm.trans (Option.some.inj hlast)
        exact ⟨n, mem_append_right _ mem_cons_self, t, ht, htext⟩
  · obtain ⟨hsame, hpicked⟩ := Prod.mk.inj (sender_step hstep hpoll)
    rw [hpicked]
    exact hkeep text (h.last text (hsame ▸ hlast))

/-! ## Entries of different turns -/

omit [DecidableEq μ] in
lemma Siblings.id_ne {m n : ℕ} {t u : StartedTurn μ} (h : Siblings s e m n t u)
    (hdistinct : DistinctIds s e) : u.id ≠ t.id :=
  fun heq => h.ne (hdistinct m n t u h.left h.right h.session_left (by rw [heq]))

/-- A turn leaves the entries of the other turns of its session alone. -/
lemma entry_kept (h : EntryInv s e) (hdistinct : DistinctIds s e) (hlone : LoneStop s e a)
    (hstep : serverStep g e a = some e') {m n : ℕ} {t u : StartedTurn μ}
    (hturns : Siblings s e m n t u) (hactor : a.turn = some n) {k : Key}
    (hk : (k, m) ∈ e.requestStates) : (k, m) ∈ e'.requestStates := by
  -- the other turn's key does not belong to the acting turn
  have howns : t.id.Owns k := by
    obtain ⟨t', ht', howns⟩ := h.owned k m hk
    rwa [Option.some.inj (hturns.left.symm.trans ht')]
  have hids : u.id ≠ t.id := hturns.id_ne hdistinct
  have hforeign : u.id.text.isPrefixOf k = false := by
    rw [Bool.eq_false_iff, Ne, isPrefixOf_iff_prefix]
    exact fun hpre => hids (howns.eq_of_startsWith hpre)
  have hother : ∀ {k'}, u.id.Owns k' → k ≠ k' := by
    rintro k' hk' rfl
    exact hids (hk'.eq howns)
  cases serverMove_of_step hstep with
  | submit hturn _ _ =>
    cases hactor
    cases hturns.right.symm.trans hturn
    exact OrderedDict.mem_set_of_ne hk (hother .stage0)
  | register r hturn _ =>
    cases hactor
    cases hturns.right.symm.trans hturn
    exact OrderedDict.mem_set_of_ne hk (hother (r.owns_key _))
  | stop hturn _ =>
    cases hactor
    simp only [OrderedDict.mem_popKeys, decide_eq_false_iff_not]
    exact ⟨hk, fun hmark => hlone u hturns.right hturns.session_right (k, m) hk hturns.ne hmark t
      hturns.left hturns.session_left⟩
  | finish hturn _ | cancelled hturn _ _ =>
    cases hactor
    cases hturns.right.symm.trans hturn
    exact OrderedDict.mem_popKeys.mpr ⟨hk, hforeign⟩
  | cancelledEarly _ _ _ => exact hk
  | _ => cases hactor

/-! ## Turns that wait for `send_loop` -/

variable {n : ℕ}

/-- The entry that turn `n` of the session makes under its own id stands. -/
def Server.Stands (e : Server μ) (s : SessionId) (n : ℕ) : Prop :=
  ∃ t ∈ e.turns[n]?, t.id.session = s ∧ (t.id.text, n) ∈ e.requestStates

instance (e : Server μ) (s : SessionId) (n : ℕ) : Decidable (e.Stands s n) :=
  inferInstanceAs (Decidable (∃ t ∈ e.turns[n]?, _))

/-- The next poll takes the turn: of the keys before its own, only those of the turn itself pass the
test. -/
def Server.Leads (e : Server μ) (s : SessionId) (n : ℕ) : Prop :=
  ∀ t ∈ e.turns[n]?, ∀ k ∈ OrderedDict.before e.requestStates t.id.text,
    e.isNew s k = true → splitHead stageMark k = t.id.text

open Classical in
/-- How many polls a turn waits for at most. -/
noncomputable def Server.pollsLeft (s : SessionId) (n : ℕ) (e : Server μ) : ℕ :=
  if n ∈ (e.sessions s).picked then 0 else if e.Leads s n then 1 else 2

/-- The polls of a session. -/
def ServerAct.polls (s : SessionId) : ServerAct μ → ℕ
  | .poll s' => if s' = s then 1 else 0
  | _ => 0

omit [DecidableEq μ] in
/-- Two polls are enough. -/
lemma Server.pollsLeft_le_two (e : Server μ) (s : SessionId) (n : ℕ) : e.pollsLeft s n ≤ 2 := by
  unfold Server.pollsLeft
  split_ifs <;> decide

omit [DecidableEq μ] in
/-- An entry of a turn that has not been taken passes the test of `send_loop`. -/
lemma isNew_of_not_picked (h : EntryInv s e) (hdistinct : DistinctIds s e) {k : Key}
    {t : StartedTurn μ} (hk : (k, n) ∈ e.requestStates) (ht : e.turns[n]? = some t)
    (hs : t.id.session = s) (hpicked : n ∉ (e.sessions s).picked) : e.isNew s k = true := by
  obtain ⟨t', ht', howns⟩ := h.owned k n hk
  cases ht.symm.trans ht'
  have hstarts : s.text <+: k := by
    rw [← hs]
    exact (SessionId.prefix_text t.id).trans howns.startsWith
  rw [Server.isNew, Bool.and_eq_true, isPrefixOf_iff_prefix, decide_eq_true_eq,
    howns.splitHead]
  refine ⟨hstarts, fun hlast => ?_⟩
  obtain ⟨m, hm, u, hu, htext⟩ := h.last _ hlast.symm
  exact hpicked (hdistinct n m t u ht hu hs htext.symm ▸ hm)

/-- No event puts an entry before one that stays. -/
lemma before_step (hstep : serverStep g e a = some e') {k : Key}
    (hk : (k, n) ∈ e.requestStates) (hk' : (k, n) ∈ e'.requestStates) :
    OrderedDict.before e'.requestStates k ⊆ OrderedDict.before e.requestStates k := by
  have hkey : k ∈ OrderedDict.keys e.requestStates := mem_map.mpr ⟨_, hk, rfl⟩
  cases serverMove_of_step hstep with
  | frame data _ | endOfUtterance lastSeq mode _ =>
    rw [requestStates_putIncrementalInput]
    exact List.Subset.refl _
  | bargeIn _ | finish _ _ | cancelled _ _ _ =>
    exact OrderedDict.before_popKeys_subset (OrderedDict.mem_popKeys.mp hk').2
  | stop _ _ =>
    simp only [OrderedDict.mem_popKeys] at hk'
    exact OrderedDict.before_popKeys_subset (p := fun k => stage1Mark <:+: k) hk'.2
  | submit _ _ _ | register _ _ _ =>
    simp only [Server.submitTurn, OrderedDict.before_set hkey]
    exact List.Subset.refl _
  | connect _ | takeFrame _ _ | takeMarker _ _ | takeTurn _ _ _ | cancelledEarly _ _ _ | close _ _
  | clock _ => exact List.Subset.refl _
  | poll _ =>
    unfold Server.pollTurns
    split <;> exact List.Subset.refl _

/-- A turn that is next stays so until a poll. -/
lemma leads_step (h : e.Leads s n) (hstands : e.Stands s n) (hstands' : e'.Stands s n)
    (hstep : serverStep g e a = some e') (hpoll : a ≠ .poll s) : e'.Leads s n := by
  intro t' ht' k hk hnew
  obtain ⟨t, ht, -, hmem⟩ := hstands
  obtain ⟨u, hu, -, hmem'⟩ := hstands'
  cases hu.symm.trans ht'
  obtain ⟨u', hu', hid⟩ := exists_turn_after hstep ht
  cases hu.symm.trans hu'
  rw [hid] at hk hmem' ⊢
  refine h t ht k (before_step hstep hmem hmem' hk) ?_
  rwa [Server.isNew, ← (Prod.mk.inj (sender_step hstep hpoll)).1]

omit [DecidableEq μ] in
/-- A poll takes a turn that is next. -/
lemma eq_of_leads (h : EntryInv s e) (hdistinct : DistinctIds s e) (hleads : e.Leads s n)
    {t : StartedTurn μ} (ht : e.turns[n]? = some t) (hs : t.id.session = s)
    (hmem : (t.id.text, n) ∈ e.requestStates) (hnew : e.isNew s t.id.text = true) {k : Key} {m : ℕ}
    (hfound : e.newTurn s = some (k, m)) : m = n := by
  obtain ⟨hk, htest⟩ := newTurn_eq_some hfound
  have hsplit : splitHead stageMark k = t.id.text := by
    rcases OrderedDict.mem_before_of_find? hfound (mem_map.mpr ⟨_, hmem, rfl⟩) hnew with
      rfl | hbefore
    · exact splitHead_text t.id
    · exact hleads t ht k hbefore htest
  obtain ⟨u, hu, howns⟩ := h.owned k m hk
  exact (hdistinct n m t u ht hu hs (hsplit.symm.trans howns.splitHead)).symm

omit [DecidableEq μ] in
/-- A poll that takes the only other turn makes the turn the next one. -/
lemma leads_pollTurns (h : EntryInv s e) (hfew : FewTurns s e (.poll s)) (hstands : e.Stands s n)
    (hpicked : n ∉ (e.sessions s).picked) {k : Key} {m : ℕ} (hfound : e.newTurn s = some (k, m))
    (hne : m ≠ n) : (e.pollTurns s).Leads s n := by
  intro t ht k' hk' hnew
  simp only [Server.pollTurns, hfound] at ht hk' hnew
  rw [Server.isNew, update_sessions_self, Bool.and_eq_true, isPrefixOf_iff_prefix,
    decide_eq_true_eq] at hnew
  obtain ⟨⟨_, m'⟩, hmem', rfl⟩ := mem_map.mp (takeWhile_subset _ hk')
  obtain ⟨u, hu, howns⟩ := h.owned _ _ hmem'
  obtain ⟨hmem, htest⟩ := newTurn_eq_some hfound
  obtain ⟨u', hu', howns'⟩ := h.owned _ _ hmem
  have hentry : ∀ {k m}, (k, m) ∈ e.requestStates → s.text <+: k → m ∈ e.entryTurns s := by
    intro k m hk hstarts
    exact mem_map.mpr ⟨(k, m),
      mem_filter.mpr ⟨hk, isPrefixOf_iff_prefix.mpr hstarts⟩, rfl⟩
  by_cases hown : m' = n
  · subst hown
    cases ht.symm.trans hu
    exact howns.splitHead
  · -- the key is one of the other turn, which has just been taken
    obtain ⟨t', ht', hs, hself⟩ := hstands
    have hfirst : s.text <+: k := by
      rw [Server.isNew, Bool.and_eq_true, isPrefixOf_iff_prefix] at htest
      exact htest.1
    obtain rfl := hfew rfl n (hentry hself (hs ▸ SessionId.prefix_text _)) hpicked m'
      (hentry hmem' hnew.1) m (hentry hmem hfirst) hown hne
    cases hu.symm.trans hu'
    exact absurd (congrArg some (howns.splitHead.trans howns'.splitHead.symm)) hnew.2

/-- A turn that has been taken stays so. -/
lemma picked_step (hstep : serverStep g e a = some e')
    (h : n ∈ (e.sessions s).picked) : n ∈ (e'.sessions s).picked := by
  by_cases hpoll : a = .poll s
  · subst hpoll
    cases serverMove_of_step hstep with
    | poll _ =>
      unfold Server.pollTurns
      split
      · exact h
      · rw [update_sessions_self]
        exact mem_append_left _ h
  · rwa [(Prod.mk.inj (sender_step hstep hpoll)).2]

/-- A poll brings a turn whose entry stands nearer to being taken, and no event takes it back. -/
lemma pollsLeft_step (h : EntryInv s e) (hdistinct : DistinctIds s e) (hfew : FewTurns s e a)
    (hstands : e.Stands s n) (hstands' : e'.Stands s n) (hstep : serverStep g e a = some e') :
    e'.pollsLeft s n ≤ e.pollsLeft s n - a.polls s := by
  by_cases hpicked : n ∈ (e.sessions s).picked
  · rw [Server.pollsLeft, if_pos (picked_step hstep hpicked)]
    exact Nat.zero_le _
  by_cases hpoll : a = .poll s
  · subst hpoll
    obtain ⟨t, ht, hs, hmem⟩ := id hstands
    have hnew := isNew_of_not_picked h hdistinct hmem ht hs hpicked
    have hsome : (e.newTurn s).isSome := find?_isSome.mpr ⟨_, hmem, hnew⟩
    obtain ⟨⟨k, m⟩, hfound⟩ := Option.isSome_iff_exists.mp hsome
    cases serverMove_of_step hstep with
    | poll _ =>
      by_cases hm : m = n
      · have htaken : n ∈ ((e.pollTurns s).sessions s).picked := by
          rw [Server.pollTurns, hfound, update_sessions_self]
          exact mem_append_right _ (hm ▸ mem_singleton_self m)
        rw [Server.pollsLeft, if_pos htaken]
        exact Nat.zero_le _
      · have hleads : ¬ e.Leads s n := fun hleads =>
          hm (eq_of_leads h hdistinct hleads ht hs hmem hnew hfound)
        rw [Server.pollsLeft, Server.pollsLeft, if_neg hpicked, if_neg hleads,
          if_pos (leads_pollTurns h hfew hstands hpicked hfound hm)]
        split_ifs <;> simp [ServerAct.polls]
  · have hzero : a.polls s = 0 := by
      cases a with
      | poll s' => exact if_neg fun hs : s' = s => hpoll (hs ▸ rfl)
      | _ => rfl
    rw [hzero, Nat.sub_zero]
    by_cases hleads : e.Leads s n
    · have hleads' := leads_step hleads hstands hstands' hstep hpoll
      rw [Server.pollsLeft, Server.pollsLeft, if_neg hpicked, if_pos hleads, if_pos hleads']
      split_ifs <;> decide
    · rw [Server.pollsLeft.eq_1 s n e, if_neg hpicked, if_neg hleads]
      exact e'.pollsLeft_le_two s n

end OmniStreaming
