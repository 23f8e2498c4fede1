import OmniStreaming.Server.Identity
import OmniStreaming.Server.Sender

/-!
# The results of a session and its senders

The turns of a session put their results on one queue. `send_loop` starts a sender whenever it
finds a key of another turn than the last one in `request_states`, and cancels the sender before:
what that one has taken off the queue and not yet sent is lost, and the new one starts with fresh
counters, whatever is on the queue.

`Stream` is the server with the queue, the sender and the client of one session. A turn is
delivered as it should be where turns do not overlap, the sender of a turn is there before its
results are taken and before it ends, and its last result has no audio.
-/

namespace OmniStreaming

open List Transition

variable {μ β : Type*}

/-! ## The queue, the sender and the client -/

/-- A sender task: its turn, its variables, and what it is about to send, with the turn of the
result. -/
structure StreamSender where
  turn : ℕ
  counters : StreamCounters := {}
  pending : List (ℕ × WireMessage) := []

/-- The server and, for one session, its result queue, the results taken, its sender and what the
client has received, by the numbers of the turns. -/
structure Stream (μ : Type*) where
  server : Server μ
  queue : List (ℕ × ResultItem) := []
  taken : List (ℕ × ResultItem) := []
  sender : Option StreamSender := none
  client : List (ℕ × WireMessage) := []

inductive StreamAct (μ : Type*)
  /-- An event of the server. -/
  | server (a : ServerAct μ)
  /-- Turn `n` puts a result on the queue. -/
  | produce (n : ℕ) (item : ResultItem)
  /-- The sender takes a result. -/
  | get
  /-- The sender sends a message. -/
  | send

/-- What belongs to turn `n`. -/
def ofTurn (n : ℕ) (l : List (ℕ × β)) : List β := (l.filter fun x => x.1 = n).map Prod.snd

variable (st : Stream μ)

/-- The results of turn `n`. -/
def Stream.itemsOf (n : ℕ) : List ResultItem := ofTurn n (st.taken ++ st.queue)

/-- What the client has received for turn `n`. -/
def Stream.receivedOf (n : ℕ) : List WireMessage := ofTurn n st.client

/-- What the sender is about to send. -/
def Stream.pending : List (ℕ × WireMessage) :=
  st.sender.elim [] StreamSender.pending

/-- The sender after an event of the server. -/
def Stream.senderAfter (s : SessionId) : ServerAct μ → Option StreamSender
  | .poll s' =>
    if s' = s then (st.server.newTurn s).elim st.sender fun x => some { turn := x.2 }
    else st.sender
  | .bargeIn s' => if s' = s then none else st.sender
  | .close s' _ => if s' = s then none else st.sender
  | _ => st.sender

/-- The queue after an event of the server: `cleanup_for_barge_in` empties it. -/
def Stream.queueAfter (s : SessionId) : ServerAct μ → List (ℕ × ResultItem)
  | .bargeIn s' => if s' = s then [] else st.queue
  | _ => st.queue

/-- The sender takes the first result of the queue. -/
def Stream.takeResult : Option (Stream μ) :=
  match st.sender, st.queue with
  | some x, (n, item) :: rest =>
    if x.pending.isEmpty then
      let (counters, messages) := x.counters.accept item
      some { st with
        queue := rest
        taken := st.taken ++ [(n, item)]
        sender := some { x with counters := counters, pending := messages.map fun m => (n, m) } }
    else none
  | _, _ => none

/-- The sender sends its next message. -/
def Stream.sendNext : Option (Stream μ) :=
  st.sender.bind fun x =>
    match x.pending with
    | [] => none
    | m :: rest =>
      some { st with client := st.client ++ [m], sender := some { x with pending := rest } }

def streamStep [DecidableEq μ] (g : μ) (s : SessionId) (st : Stream μ) :
    StreamAct μ → Option (Stream μ)
  | .server a =>
    (serverStep g st.server a).map fun e =>
      { st with server := e, queue := st.queueAfter s a, sender := st.senderAfter s a }
  | .produce n item =>
    -- a turn ends with its final chunk
    if st.server.statusOf s n = some .running ∧ (progressOf (st.itemsOf n)).finished = false then
      some { st with queue := st.queue ++ [(n, item)] }
    else none
  | .get => st.takeResult
  | .send => st.sendNext

def Stream.init (g : μ) (now : Second) : Stream μ := { server := .init g now }

/-! ## What is to be kept -/

/-- Nothing is on its way to the client. -/
def Stream.Quiet : Prop := st.queue = [] ∧ st.pending = []

/-- No turn of the session runs. -/
def Stream.Resting (s : SessionId) (st : Stream μ) : Prop :=
  ∀ t ∈ st.server.turnsOf s, t.status ≠ .running

/-- The next result of a regular turn. -/
def RegularNext (items : List ResultItem) : ResultItem → Prop
  | .text text => finalText items <+: text
  | .audio _ expected text => text = [] ∧ ∀ cnt ∈ expected, (progressOf items).received + 1 ≤ cnt

/-- A turn of the session is submitted only when no other runs and nothing is on its way; it ends
only after its final chunk and with its sender in place; results are regular, and each is taken by
the sender of its turn. There is no barge-in and the connection stays. -/
def StreamSafe (s : SessionId) (st : Stream μ) : StreamAct μ → Prop
  | .server (.submit n) => st.server.statusOf s n ≠ none → st.Resting s ∧ st.Quiet
  | .server (.finish n) => st.server.statusOf s n ≠ none →
    (progressOf (st.itemsOf n)).finished = true ∧ st.sender.map StreamSender.turn = some n
  | .server (.cancelled n) => st.server.statusOf s n = none
  | .server (.bargeIn s') => s' ≠ s
  | .server (.close s' _) => s' ≠ s
  | .server _ => True
  | .produce n item => RegularNext (st.itemsOf n) item
  | .get => ∀ x ∈ st.sender, ∀ y ∈ st.queue.head?, y.1 = x.turn
  | .send => True

instance (st : Stream μ) : Decidable st.Quiet := inferInstanceAs (Decidable (_ ∧ _))

instance (s : SessionId) (st : Stream μ) : Decidable (st.Resting s) :=
  inferInstanceAs (Decidable (∀ t ∈ st.server.turnsOf s, t.status ≠ .running))

instance (items : List ResultItem) : DecidablePred (RegularNext items) := fun a => by
  unfold RegularNext
  split <;> infer_instance

instance (s : SessionId) (st : Stream μ) : DecidablePred (StreamSafe s st) := fun a => by
  unfold StreamSafe
  split <;> infer_instance

/-- Turn `n` is one of the session and has been submitted. -/
def Server.Started (e : Server μ) (s : SessionId) (n : ℕ) : Prop :=
  e.statusOf s n = some .running ∨ e.statusOf s n = some .ended

/-- A turn without a sender has all its taken results delivered; if it runs, nothing of it has been
taken, and nothing else is on its way. -/
structure StreamInv (s : SessionId) (st : Stream μ) : Prop where
  entries : EntryInv s st.server
  active : ∀ k n, (k, n) ∈ st.server.requestStates → st.server.statusOf s n ≠ none →
    st.server.statusOf s n = some .running
  alone : ∀ m n, st.server.statusOf s m = some .running → st.server.statusOf s n = some .running →
    m = n
  sender : ∀ x, st.sender = some x → ∃ t, st.server.turns[x.turn]? = some t ∧
    (st.server.sessions s).lastTurnId = some t.id.text ∧ st.server.Started s x.turn
  items : ∀ y ∈ st.taken ++ st.queue, st.server.Started s y.1
  regular : ∀ n, Regular (st.itemsOf n)
  finished : ∀ n, st.server.statusOf s n = some .ended → (progressOf (st.itemsOf n)).finished = true
  counters : ∀ x, st.sender = some x →
    x.counters = (StreamCounters.respond {} (ofTurn x.turn st.taken)).1
  current : ∀ x, st.sender = some x → st.receivedOf x.turn ++ ofTurn x.turn x.pending =
    (StreamCounters.respond {} (ofTurn x.turn st.taken)).2
  tagged : ∀ x, st.sender = some x → ∀ y ∈ x.pending, y.1 = x.turn
  others : ∀ n, (∀ x, st.sender = some x → x.turn ≠ n) →
    st.receivedOf n = (StreamCounters.respond {} (ofTurn n st.taken)).2
  waiting : ∀ n, st.server.statusOf s n = some .running →
    (∀ x, st.sender = some x → x.turn ≠ n) →
    st.pending = [] ∧ ofTurn n st.taken = [] ∧ ∀ y ∈ st.queue, y.1 = n
  queued : ∀ y ∈ st.queue, st.server.statusOf s y.1 = some .running ∨
    ∃ x, st.sender = some x ∧ x.turn = y.1

/-! ## What belongs to a turn -/

section Turns

variable {s : SessionId} {st st' : Stream μ} {n : ℕ}

@[simp] lemma ofTurn_nil (n : ℕ) : ofTurn n ([] : List (ℕ × β)) = [] := rfl

@[simp] lemma ofTurn_append (n : ℕ) (l l' : List (ℕ × β)) :
    ofTurn n (l ++ l') = ofTurn n l ++ ofTurn n l' := by
  simp [ofTurn]

lemma ofTurn_singleton_self (n : ℕ) (x : β) : ofTurn n [(n, x)] = [x] := by
  simp [ofTurn]

lemma ofTurn_singleton_of_ne {m : ℕ} (h : m ≠ n) (x : β) : ofTurn n [(m, x)] = [] := by
  simp [ofTurn, h]

lemma ofTurn_map_self (n : ℕ) (l : List β) : ofTurn n (l.map fun x => (n, x)) = l := by
  induction l with
  | nil => rfl
  | cons x l ih => simpa [ofTurn] using ih

lemma ofTurn_eq_nil {l : List (ℕ × β)} (h : ∀ y ∈ l, y.1 ≠ n) : ofTurn n l = [] := by
  simpa [ofTurn] using fun m x hx => h (m, x) hx

/-- At rest no turn runs. -/
lemma Stream.Resting.statusOf_ne (h : st.Resting s) (n : ℕ) :
    st.server.statusOf s n ≠ some .running := by
  intro hrunning
  obtain ⟨t, ht, hs, hstatus⟩ := statusOf_eq_some.mp hrunning
  exact h t (mem_filter.mpr ⟨mem_of_getElem? ht, by simpa using hs⟩) hstatus

/-- Once nothing is pending, a turn has received the responses to all that was taken for it. -/
lemma StreamInv.receivedOf_of_pending (h : StreamInv s st) (hpending : st.pending = []) (n : ℕ) :
    st.receivedOf n = (StreamCounters.respond {} (ofTurn n st.taken)).2 := by
  by_cases hsender : ∃ x, st.sender = some x ∧ x.turn = n
  · obtain ⟨x, hx, rfl⟩ := hsender
    have hnone : x.pending = [] := by simpa [Stream.pending, hx] using hpending
    have hcurrent := h.current x hx
    rwa [hnone, ofTurn_nil, append_nil] at hcurrent
  · exact h.others n fun x hx hxn => hsender ⟨x, hx, hxn⟩

/-- When nothing is on its way, every turn has been delivered up to the audio of its last
result. -/
lemma delivered_iff_of_quiet (h : StreamInv s st) (hquiet : st.Quiet)
    (hended : st.server.statusOf s n = some .ended) :
    Delivered (st.itemsOf n) (st.receivedOf n) ↔ lastPieces (st.itemsOf n) = [] := by
  have hitems : st.itemsOf n = ofTurn n st.taken := by simp [Stream.itemsOf, hquiet.1]
  have hreceived : st.receivedOf n = (StreamCounters.respond {} (st.itemsOf n)).2 := by
    rw [hitems]
    exact h.receivedOf_of_pending hquiet.2 n
  rw [hreceived]
  exact delivered_iff_lastPieces (h.regular n) (h.finished n hended)

lemma streamInv_init (g : μ) (s : SessionId) (now : Second) : StreamInv s (Stream.init g now) where
  entries := ⟨fun _ _ h => absurd h (by simp [Stream.init, Server.init]), fun _ h => by cases h⟩
  active _ _ h := by simp [Stream.init, Server.init] at h
  alone _ _ h := by simp [Stream.init, Server.init, Server.statusOf] at h
  sender _ h := by cases h
  items _ h := by simp [Stream.init] at h
  regular _ := .nil
  finished _ h := by simp [Stream.init, Server.init, Server.statusOf] at h
  counters _ h := by cases h
  current _ h := by cases h
  tagged _ h := by cases h
  others _ _ := rfl
  waiting _ h := by simp [Stream.init, Server.init, Server.statusOf] at h
  queued _ h := by simp [Stream.init] at h

/-! ## Events of the turn and of the sender -/

lemma streamInv_produce {item : ResultItem} (h : StreamInv s st)
    (hrunning : st.server.statusOf s n = some .running)
    (hopen : (progressOf (st.itemsOf n)).finished = false)
    (hnext : RegularNext (st.itemsOf n) item) :
    StreamInv s { st with queue := st.queue ++ [(n, item)] } := by
  have hself : ({ st with queue := st.queue ++ [(n, item)] } : Stream μ).itemsOf n =
      st.itemsOf n ++ [item] := by
    simp [Stream.itemsOf, ofTurn_singleton_self]
  have hother : ∀ {m}, m ≠ n →
      ({ st with queue := st.queue ++ [(n, item)] } : Stream μ).itemsOf m = st.itemsOf m := by
    intro m hm
    simp [Stream.itemsOf, ofTurn_singleton_of_ne (Ne.symm hm)]
  refine { h with
    items := fun y hy => ?_
    regular := fun m => ?_
    finished := fun m hm => ?_
    waiting := fun m hm hno => ?_
    queued := fun y hy => ?_ }
  · rw [← append_assoc, mem_append, mem_singleton] at hy
    obtain hy | rfl := hy
    · exact h.items y hy
    · exact .inl hrunning
  · by_cases hm : m = n
    · subst hm
      rw [hself]
      cases item with
      | text text => exact (h.regular m).text hopen hnext
      | audio bytes expected text =>
        obtain ⟨rfl, hcount⟩ := hnext
        exact (h.regular m).audio hopen hcount
    · rw [hother hm]
      exact h.regular m
  · have hne : m ≠ n := by
      rintro rfl
      simp [hrunning] at hm
    rw [hother hne]
    exact h.finished m hm
  · obtain ⟨hpending, htaken, hqueue⟩ := h.waiting m hm hno
    refine ⟨hpending, htaken, fun y hy => ?_⟩
    rw [mem_append, mem_singleton] at hy
    obtain hy | rfl := hy
    · exact hqueue y hy
    · exact h.alone n m hrunning hm
  · rw [mem_append, mem_singleton] at hy
    obtain hy | rfl := hy
    · exact h.queued y hy
    · exact .inl hrunning

/-- The sender takes a result when it has sent the last one. -/
lemma takeResult_eq_some (h : st.takeResult = some st') :
    ∃ x n item rest, st.sender = some x ∧ st.queue = (n, item) :: rest ∧ x.pending = [] ∧
      st' = { st with
        queue := rest
        taken := st.taken ++ [(n, item)]
        sender := some { x with
          counters := (x.counters.accept item).1
          pending := (x.counters.accept item).2.map fun m => (n, m) } } := by
  unfold Stream.takeResult at h
  split at h
  · rename_i x n item rest hx hq
    split_ifs at h with hempty
    exact ⟨x, n, item, rest, hx, hq, List.isEmpty_iff.mp hempty, (Option.some.inj h).symm⟩
  · cases h

/-- The sender sends the next message. -/
lemma sendNext_eq_some (h : st.sendNext = some st') :
    ∃ x m rest, st.sender = some x ∧ x.pending = m :: rest ∧
      st' = { st with client := st.client ++ [m], sender := some { x with pending := rest } } := by
  obtain ⟨x, hx, h⟩ := Option.bind_eq_some_iff.mp h
  split at h
  · cases h
  · rename_i m rest hpending
    exact ⟨x, m, rest, hx, hpending, (Option.some.inj h).symm⟩

lemma streamInv_get (h : StreamInv s st) (hsafe : StreamSafe s st .get)
    (hstep : st.takeResult = some st') : StreamInv s st' := by
  obtain ⟨x, n, item, rest, hx, hqueue, hpending, rfl⟩ := takeResult_eq_some hstep
  obtain rfl : n = x.turn := hsafe x hx (n, item) (by simp [hqueue])
  have hlist : (st.taken ++ [(x.turn, item)]) ++ rest = st.taken ++ st.queue := by simp [hqueue]
  have hself : ofTurn x.turn (st.taken ++ [(x.turn, item)]) = ofTurn x.turn st.taken ++ [item] := by
    rw [ofTurn_append, ofTurn_singleton_self]
  have hother : ∀ {m}, m ≠ x.turn →
      ofTurn m (st.taken ++ [(x.turn, item)]) = ofTurn m st.taken := by
    intro m hm
    rw [ofTurn_append, ofTurn_singleton_of_ne (Ne.symm hm), append_nil]
  refine
    { h with
      sender := ?_
      items := fun y hy => h.items y (hlist ▸ hy)
      regular := fun m => ?_
      finished := fun m hm => ?_
      counters := ?_
      current := ?_
      tagged := ?_
      others := fun m hm => ?_
      waiting := fun m hm hno => ?_
      queued := fun y hy => ?_ }
  · rintro _ ⟨⟩
    exact h.sender x hx
  · have hregular := h.regular m
    rwa [Stream.itemsOf, ← hlist] at hregular
  · have hfinished := h.finished m hm
    rwa [Stream.itemsOf, ← hlist] at hfinished
  · rintro _ ⟨⟩
    simp only [hself, respond_append_singleton, ← h.counters x hx]
  · rintro _ ⟨⟩
    have hcurrent := h.current x hx
    rw [hpending, ofTurn_nil, append_nil] at hcurrent
    simp only [hself, respond_append_singleton, ← h.counters x hx, ← hcurrent, ofTurn_map_self]
    rfl
  · rintro _ ⟨⟩ y hy
    obtain ⟨m, -, rfl⟩ := mem_map.mp hy
    rfl
  · have hne : m ≠ x.turn := fun hmx => hm _ rfl hmx.symm
    rw [hother hne]
    refine h.others m fun x' hx' => ?_
    cases hx.symm.trans hx'
    exact Ne.symm hne
  · -- a running turn without sender has the queue for itself
    have hne : x.turn ≠ m := by simpa using hno
    have hold := (h.waiting m hm fun x' hx' => by
      cases hx.symm.trans hx'
      exact hne).2.2 (x.turn, item) (by simp [hqueue])
    exact absurd hold hne
  · obtain hrunning | ⟨x', hx', hturn⟩ := h.queued y (by simp [hqueue, hy])
    · exact .inl hrunning
    · cases hx.symm.trans hx'
      exact .inr ⟨_, rfl, hturn⟩

lemma streamInv_send (h : StreamInv s st) (hstep : st.sendNext = some st') : StreamInv s st' := by
  obtain ⟨x, ⟨n, m⟩, rest, hx, hpending, rfl⟩ := sendNext_eq_some hstep
  obtain rfl : n = x.turn := h.tagged x hx (n, m) (by simp [hpending])
  refine
    { h with
      sender := ?_
      counters := ?_
      current := ?_
      tagged := ?_
      others := fun n hn => ?_
      waiting := fun n hn hno => ?_
      queued := fun y hy => ?_ }
  · rintro _ ⟨⟩
    exact h.sender x hx
  · rintro _ ⟨⟩
    exact h.counters x hx
  · rintro _ ⟨⟩
    have hcurrent := h.current x hx
    rw [hpending, ← singleton_append, ofTurn_append, ← append_assoc] at hcurrent
    rw [← hcurrent, Stream.receivedOf, ofTurn_append, Stream.receivedOf]
  · rintro _ ⟨⟩ y hy
    exact h.tagged x hx y (by simp [hpending, hy])
  · have hne : n ≠ x.turn := fun hnx => hn _ rfl hnx.symm
    rw [Stream.receivedOf, ofTurn_append, ofTurn_singleton_of_ne (Ne.symm hne), append_nil]
    refine h.others n fun x' hx' => ?_
    cases hx.symm.trans hx'
    exact Ne.symm hne
  · -- while a running turn has no sender, nothing is sent
    have hne : x.turn ≠ n := by simpa using hno
    have hnone := (h.waiting n hn fun x' hx' => by
      cases hx.symm.trans hx'
      exact hne).1
    simp [Stream.pending, hx, hpending] at hnone
  · obtain hrunning | ⟨x', hx', hturn⟩ := h.queued y hy
    · exact .inl hrunning
    · cases hx.symm.trans hx'
      exact .inr ⟨_, rfl, hturn⟩

/-- What the sender, left alone, keeps. -/
structure SenderKeeps (st st' : Stream μ) : Prop where
  server : st'.server = st.server
  itemsOf : ∀ n, st'.itemsOf n = st.itemsOf n

lemma SenderKeeps.trans {st₁ : Stream μ} (h : SenderKeeps st st₁) (h' : SenderKeeps st₁ st') :
    SenderKeeps st st' :=
  ⟨h'.server.trans h.server, fun n => (h'.itemsOf n).trans (h.itemsOf n)⟩

end Turns

variable [DecidableEq μ] {g : μ} {s : SessionId} {st st' : Stream μ} {e' : Server μ}
  {a : ServerAct μ} {n : ℕ}

/-! ## Events of the server -/

/-- A turn that has been submitted stays so. -/
lemma started_step (hstep : serverStep g st.server a = some e') (h : st.server.Started s n) :
    e'.Started s n := by
  obtain hsame | ⟨hnone, -⟩ | ⟨-, hcreated, -⟩ | ⟨-, -, hended⟩ | ⟨-, -, hended⟩ :=
    statusOf_step hstep s n
  · rwa [Server.Started, hsame]
  · simp [Server.Started, hnone] at h
  · simp [Server.Started, hcreated] at h
  · exact .inr hended
  · exact .inr hended

/-- An event that is not one of a turn of the session submits and ends none of them. -/
lemma statusOf_iff_of_foreign (hstep : serverStep g st.server a = some e')
    (hforeign : ∀ n, a = .submit n ∨ a = .finish n ∨ a = .cancelled n →
      st.server.statusOf s n = none) {status : TurnStatus} (hstatus : status ≠ .created) :
    e'.statusOf s n = some status ↔ st.server.statusOf s n = some status := by
  obtain hsame | ⟨hnone, hcreated⟩ | ⟨ha, hold, -⟩ | ⟨ha, hold, -⟩ | ⟨ha, hold, -⟩ :=
    statusOf_step hstep s n
  · rw [hsame]
  · simp [hnone, hcreated, Ne.symm hstatus]
  · simp [hforeign n (.inl ha)] at hold
  · simp [hforeign n (.inr (.inl ha))] at hold
  · exact absurd (hforeign n (.inr (.inr ha))) hold

section

variable (h : StreamInv s st)
include h

/-- What an event of the server that leaves the sender in place has to keep. -/
lemma StreamInv.of_server (hstep : serverStep g st.server a = some e')
    (hpoll : a ≠ .poll s)
    (hactive : ∀ k n, (k, n) ∈ e'.requestStates → st.server.statusOf s n = some .running →
      e'.statusOf s n = some .running)
    (halone : ∀ m n, e'.statusOf s m = some .running → e'.statusOf s n = some .running → m = n)
    (hfinished : ∀ n, e'.statusOf s n = some .ended → (progressOf (st.itemsOf n)).finished = true)
    (hwaiting : ∀ n, e'.statusOf s n = some .running → (∀ x, st.sender = some x → x.turn ≠ n) →
      st.pending = [] ∧ ofTurn n st.taken = [] ∧ ∀ y ∈ st.queue, y.1 = n)
    (hqueued : ∀ y ∈ st.queue, e'.statusOf s y.1 = some .running ∨
      ∃ x, st.sender = some x ∧ x.turn = y.1) :
    StreamInv s { st with server := e' } where
  entries := entryInv_step h.entries hstep
  active k n hmem hown := by
    obtain hold | ⟨-, -, -, t', ht', hrunning⟩ := requestStates_step hstep hmem
    · obtain ⟨t, ht, -⟩ := h.entries.owned k n hold
      obtain ⟨t', ht', hid⟩ := exists_turn_after hstep ht
      have hs : t.id.session = s := hid ▸ (statusOf_of_turn ht' hown).1
      have hsome : st.server.statusOf s n ≠ none := by simp [Server.statusOf, ht, hs]
      exact hactive k n hmem (h.active k n hold hsome)
    · rw [(statusOf_of_turn ht' hown).2, hrunning]
  alone := halone
  sender x hx := by
    obtain ⟨t, ht, hlast, hstarted⟩ := h.sender x hx
    obtain ⟨t', ht', hid⟩ := exists_turn_after hstep ht
    have hsame := (Prod.mk.inj (sender_step hstep hpoll)).1
    exact ⟨t', ht', by rw [hid, hsame, hlast], started_step hstep hstarted⟩
  items y hy := started_step hstep (h.items y hy)
  regular := h.regular
  finished := hfinished
  counters := h.counters
  current := h.current
  tagged := h.tagged
  others := h.others
  waiting := hwaiting
  queued := hqueued

lemma streamInv_foreign (hstep : serverStep g st.server a = some e')
    (hpoll : a ≠ .poll s)
    (hforeign : ∀ n, a = .submit n ∨ a = .finish n ∨ a = .cancelled n →
      st.server.statusOf s n = none) : StreamInv s { st with server := e' } := by
  have hrunning : ∀ {n}, e'.statusOf s n = some .running ↔ st.server.statusOf s n = some .running :=
    statusOf_iff_of_foreign hstep hforeign (by decide)
  have hended : ∀ {n}, e'.statusOf s n = some .ended ↔ st.server.statusOf s n = some .ended :=
    statusOf_iff_of_foreign hstep hforeign (by decide)
  refine h.of_server hstep hpoll (fun _ _ _ hold => hrunning.mpr hold)
    (fun m n hm hn => h.alone m n (hrunning.mp hm) (hrunning.mp hn))
    (fun n hn => h.finished n (hended.mp hn)) (fun n hn => h.waiting n (hrunning.mp hn))
    fun y hy => (h.queued y hy).imp hrunning.mpr id

lemma streamInv_submit (hstep : serverStep g st.server (.submit n) = some e')
    (hresting : st.Resting s) (hquiet : st.Quiet) : StreamInv s { st with server := e' } := by
  -- only this turn runs now, and it had not been submitted before
  have hrunning : ∀ {m}, e'.statusOf s m = some .running →
      m = n ∧ st.server.statusOf s m = some .created := by
    intro m hm
    obtain hsame | ⟨-, hnew⟩ | ⟨ha, hold, -⟩ | ⟨ha, -⟩ | ⟨ha, -⟩ := statusOf_step hstep s m
    · exact absurd (hsame ▸ hm) (hresting.statusOf_ne m)
    · simp [hnew] at hm
    · exact ⟨(ServerAct.submit.inj ha).symm, hold⟩
    · cases ha
    · cases ha
  have hended : ∀ {m}, e'.statusOf s m = some .ended → st.server.statusOf s m = some .ended := by
    intro m hm
    obtain hsame | ⟨-, hnew⟩ | ⟨-, -, hnew⟩ | ⟨ha, -⟩ | ⟨ha, -⟩ := statusOf_step hstep s m
    · exact hsame ▸ hm
    · simp [hnew] at hm
    · simp [hnew] at hm
    · cases ha
    · cases ha
  refine h.of_server hstep (by simp) (fun _ m _ hold => absurd hold (hresting.statusOf_ne m))
    (fun m m' hm hm' => (hrunning hm).1.trans (hrunning hm').1.symm)
    (fun m hm => h.finished m (hended hm)) (fun m hm _ => ⟨hquiet.2, ?_, by simp [hquiet.1]⟩)
    (by simp [hquiet.1])
  refine ofTurn_eq_nil fun y hy hym => ?_
  have hstarted := h.items y (mem_append_left _ hy)
  simp [Server.Started, hym, (hrunning hm).2] at hstarted

/-- A turn ends after its final chunk, with its sender in place. -/
lemma streamInv_finish (hstep : serverStep g st.server (.finish n) = some e')
    (hsome : st.server.statusOf s n ≠ none) (hfinal : (progressOf (st.itemsOf n)).finished = true)
    (hsender : st.sender.map StreamSender.turn = some n) :
    StreamInv s { st with server := e' } := by
  obtain ⟨x, hx, hturn⟩ := Option.map_eq_some_iff.mp hsender
  cases serverMove_of_step hstep with
  | @finish _ t ht hstatus =>
    obtain ⟨hs, hold⟩ := statusOf_of_turn ht hsome
    rw [hstatus] at hold
    obtain ⟨hn, -⟩ := List.getElem?_eq_some_iff.mp ht
    have hself : (st.server.endTurn n t).statusOf s n = some .ended := by
      refine statusOf_eq_some.mpr ⟨{ t with status := .ended }, getElem?_set_self hn, hs, rfl⟩
    -- it was the only turn that ran
    have hrest : ∀ m, (st.server.endTurn n t).statusOf s m ≠ some .running := by
      intro m hm
      obtain hsame | ⟨-, hnew⟩ | ⟨ha, -⟩ | ⟨-, -, hnew⟩ | ⟨ha, -⟩ := statusOf_step hstep s m
      · obtain rfl := h.alone m n (hsame ▸ hm) hold
        simp [hself] at hm
      · simp [hnew] at hm
      · cases ha
      · simp [hnew] at hm
      · cases ha
    refine h.of_server hstep (by simp) (fun k m hmem hm => ?_) (fun m _ hm => absurd hm (hrest m))
      (fun m hm => ?_) (fun m hm => absurd hm (hrest m)) (fun y hy => .inr ?_)
    · -- its entries are gone
      obtain rfl := h.alone m n hm hold
      obtain ⟨hmem, hnot⟩ := OrderedDict.mem_popKeys.mp hmem
      obtain ⟨t', ht', howns⟩ := h.entries.owned k m hmem
      cases ht.symm.trans ht'
      rw [Bool.eq_false_iff, Ne, isPrefixOf_iff_prefix] at hnot
      exact absurd howns.startsWith hnot
    · obtain hsame | ⟨-, hnew⟩ | ⟨ha, -⟩ | ⟨ha, -⟩ | ⟨ha, -⟩ := statusOf_step hstep s m
      · exact h.finished m (hsame ▸ hm)
      · simp [hnew] at hm
      · cases ha
      · exact ServerAct.finish.inj ha ▸ hfinal
      · cases ha
    · obtain hrunning | hmine := h.queued y hy
      · exact ⟨x, hx, hturn.trans (h.alone _ _ hold hrunning)⟩
      · exact hmine

/-- `send_loop` replaces the sender only by that of the running turn, and nothing is lost. -/
lemma streamInv_poll (hstep : serverStep g st.server (.poll s) = some e') :
    StreamInv s { st with server := e', sender := st.senderAfter s (.poll s) } := by
  have hentries := entryInv_step h.entries hstep
  cases serverMove_of_step hstep with
  | poll _ =>
    cases hnew : st.server.newTurn s with
    | none =>
      have hserver : st.server.pollTurns s = st.server := by rw [Server.pollTurns, hnew]
      have hsender : st.senderAfter s (.poll s) = st.sender := by simp [Stream.senderAfter, hnew]
      rw [hserver, hsender]
      exact h
    | some found =>
      obtain ⟨k, n⟩ := found
      have hsender : st.senderAfter s (.poll s) = some { turn := n } := by
        simp [Stream.senderAfter, hnew]
      have hserver : st.server.pollTurns s = st.server.update s fun x =>
          { x with lastTurnId := some (splitHead stageMark k), picked := x.picked ++ [n] } := by
        rw [Server.pollTurns, hnew]
      obtain ⟨hmem, htest⟩ := newTurn_eq_some hnew
      rw [Server.isNew, Bool.and_eq_true, isPrefixOf_iff_prefix, decide_eq_true_eq] at htest
      obtain ⟨t, ht, howns⟩ := h.entries.owned k n hmem
      have hs : t.id.session = s := (SessionId.eq_of_startsWith howns htest.1).symm
      have hrunning := h.active k n hmem (by simp [Server.statusOf, ht, hs])
      -- the sender that is replaced is not that of the turn
      have hnot : ∀ x, st.sender = some x → x.turn ≠ n := by
        rintro x hx rfl
        obtain ⟨t', ht', hlast, -⟩ := h.sender x hx
        cases ht.symm.trans ht'
        exact htest.2 (by rw [howns.splitHead, hlast])
      obtain ⟨hpending, htaken, hqueue⟩ := h.waiting n hrunning hnot
      rw [hserver] at hentries
      rw [hserver, hsender]
      refine
        { h with
          entries := hentries
          sender := ?_
          counters := ?_
          current := ?_
          tagged := ?_
          others := fun m hm => ?_
          waiting := fun m hm hno => ?_
          queued := fun y hy => .inr ⟨_, rfl, (hqueue y hy).symm⟩ }
      · rintro x ⟨⟩
        refine ⟨t, ht, ?_, .inl hrunning⟩
        rw [update_sessions_self, howns.splitHead]
      · rintro x ⟨⟩
        simp only [htaken]
        rfl
      · rintro x ⟨⟩
        have hnone := h.others n hnot
        rw [htaken] at hnone
        simp only [htaken, ofTurn_nil, append_nil]
        exact hnone
      · rintro x ⟨⟩ y hy
        cases hy
      · exact h.receivedOf_of_pending hpending m
      · exact absurd (h.alone n m hrunning hm) (hno _ rfl)

/-! ## Whole runs -/

/-- Safe events keep the invariant. -/
lemma streamInv_step {a : StreamAct μ} (hsafe : StreamSafe s st a)
    (hstep : streamStep g s st a = some st') : StreamInv s st' := by
  cases a with
  | server a =>
    obtain ⟨e', hserver, rfl⟩ := Option.map_eq_some_iff.mp hstep
    -- events of other sessions, and those that are not of a turn
    have hforeign : st.senderAfter s a = st.sender → st.queueAfter s a = st.queue → a ≠ .poll s →
        (∀ n, a = .submit n ∨ a = .finish n ∨ a = .cancelled n → st.server.statusOf s n = none) →
        StreamInv s { st with server := e', queue := st.queueAfter s a,
                              sender := st.senderAfter s a } := by
      intro hsender hqueue hpoll hnone
      rw [hsender, hqueue]
      exact streamInv_foreign h hserver hpoll hnone
    cases a with
    | submit n =>
      by_cases hsome : st.server.statusOf s n = none
      · exact hforeign rfl rfl (by simp) (by simpa using hsome)
      · obtain ⟨hresting, hquiet⟩ := hsafe hsome
        exact streamInv_submit h hserver hresting hquiet
    | finish n =>
      by_cases hsome : st.server.statusOf s n = none
      · exact hforeign rfl rfl (by simp) (by simpa using hsome)
      · obtain ⟨hfinal, hsender⟩ := hsafe hsome
        exact streamInv_finish h hserver hsome hfinal hsender
    | cancelled n =>
      have hnone : st.server.statusOf s n = none := hsafe
      exact hforeign rfl rfl (by simp) (by simpa using hnone)
    | poll s' =>
      by_cases hs : s' = s
      · subst hs
        exact streamInv_poll h hserver
      · exact hforeign (if_neg hs) rfl (by simpa using hs) (by simp)
    | bargeIn s' => exact hforeign (if_neg hsafe) (if_neg hsafe) (by simp) (by simp)
    | close s' reason => exact hforeign (if_neg hsafe) rfl (by simp) (by simp)
    | _ => exact hforeign rfl rfl (by simp) (by simp)
  | produce n item =>
    simp only [streamStep] at hstep
    split_ifs at hstep with hready
    exact Option.some.inj hstep ▸ streamInv_produce h hready.1 hready.2 hsafe
  | get => exact streamInv_get h hsafe hstep
  | send => exact streamInv_send h hstep

/-! ## The sender, left alone -/

/-- The state is reached by the sender alone. -/
def SenderReaches (g : μ) (s : SessionId) (st st' : Stream μ) : Prop :=
  ∃ acts : List (StreamAct μ), (∀ a ∈ acts, a = .get ∨ a = .send) ∧
    run (streamStep g s) st acts = some st'

omit h in
lemma SenderReaches.refl (g : μ) (s : SessionId) (st : Stream μ) : SenderReaches g s st st :=
  ⟨[], by simp, rfl⟩

omit h in
lemma SenderReaches.single {a : StreamAct μ} (ha : a = .get ∨ a = .send)
    (hstep : streamStep g s st a = some st') : SenderReaches g s st st' :=
  ⟨[a], by simpa using ha, run_cons_eq_some.mpr ⟨st', hstep, rfl⟩⟩

omit h in
lemma SenderReaches.trans {st₁ : Stream μ} (h : SenderReaches g s st st₁)
    (h' : SenderReaches g s st₁ st') : SenderReaches g s st st' := by
  obtain ⟨acts, hacts, hrun⟩ := h
  obtain ⟨acts', hacts', hrun'⟩ := h'
  refine ⟨acts ++ acts', fun a ha => ?_, by rw [run_append, hrun]; exact hrun'⟩
  exact (mem_append.mp ha).elim (hacts a) (hacts' a)

lemma exists_sent :
    ∃ st', SenderReaches g s st st' ∧ StreamInv s st' ∧ st'.pending = [] ∧ st'.queue = st.queue ∧
      SenderKeeps st st' := by
  induction hpending : st.pending generalizing st with
  | nil => exact ⟨st, .refl g s st, h, hpending, rfl, ⟨rfl, fun _ => rfl⟩⟩
  | cons m rest ih =>
    obtain ⟨x, hx, hxpending⟩ : ∃ x, st.sender = some x ∧ x.pending = m :: rest := by
      cases hx : st.sender with
      | none => simp [Stream.pending, hx] at hpending
      | some x => exact ⟨x, rfl, by simpa [Stream.pending, hx] using hpending⟩
    have hstep : streamStep g s st .send =
        some { st with client := st.client ++ [m], sender := some { x with pending := rest } } := by
      simp [streamStep, Stream.sendNext, hx, hxpending]
    obtain ⟨st', hreach, hinv, hnone, hqueue, hkeeps⟩ := ih (streamInv_send h hstep) rfl
    exact ⟨st', (SenderReaches.single (.inr rfl) hstep).trans hreach, hinv, hnone, hqueue,
      ⟨hkeeps.server, hkeeps.itemsOf⟩⟩

/-- At rest the sender can deliver all that is on its way. -/
lemma exists_quiet (hresting : st.Resting s) :
    ∃ st', SenderReaches g s st st' ∧ StreamInv s st' ∧ st'.Quiet ∧ SenderKeeps st st' := by
  induction hqueue : st.queue generalizing st with
  | nil =>
    obtain ⟨st', hreach, hinv, hnone, hsame, hkeeps⟩ := exists_sent (g := g) h
    exact ⟨st', hreach, hinv, ⟨hsame.trans hqueue, hnone⟩, hkeeps⟩
  | cons y rest ih =>
    obtain ⟨st₁, hreach, hinv, hnone, hsame, hkeeps⟩ := exists_sent (g := g) h
    have hresting₁ : st₁.Resting s := by rwa [Stream.Resting, hkeeps.server]
    have hqueue₁ : st₁.queue = y :: rest := hsame.trans hqueue
    -- the results on the queue are those of the sender's turn
    obtain ⟨x, hx, hturn⟩ := (hinv.queued y (by simp [hqueue₁])).resolve_left
      (hresting₁.statusOf_ne y.1)
    have hempty : x.pending = [] := by simpa [Stream.pending, hx] using hnone
    obtain ⟨st₂, hstep⟩ : ∃ st₂, st₁.takeResult = some st₂ := by
      simp [Stream.takeResult, hx, hqueue₁, hempty]
    have hsafe : StreamSafe s st₁ .get := by
      intro x' hx' y' hy'
      cases hx.symm.trans hx'
      obtain rfl : y = y' := by simpa [hqueue₁] using hy'
      exact hturn.symm
    have hinv₂ := streamInv_get hinv hsafe hstep
    have hget : SenderReaches g s st₁ st₂ := .single (.inl rfl) hstep
    obtain ⟨_, n, item, rest', -, hq, -, rfl⟩ := takeResult_eq_some hstep
    obtain ⟨-, rfl⟩ := cons.inj (hqueue₁.symm.trans hq)
    obtain ⟨st', hreach', hinv', hquiet, hkeeps'⟩ := ih hinv₂ hresting₁ rfl
    have hkeeps₂ : SenderKeeps st₁ st' :=
      ⟨hkeeps'.server, fun n => by rw [hkeeps'.itemsOf n]; simp [Stream.itemsOf, hq]⟩
    exact ⟨st', (hreach.trans hget).trans hreach', hinv', hquiet, hkeeps.trans hkeeps₂⟩

end

/-- When nothing is on its way, the client has received every ended turn as it should, up to the
audio of its last result; and when no turn runs, the sender alone gets there. -/
structure StreamContract (g : μ) (s : SessionId) (st : Stream μ) : Prop where
  quiet : st.Quiet → ∀ n, st.server.statusOf s n = some .ended →
    (Delivered (st.itemsOf n) (st.receivedOf n) ↔ lastPieces (st.itemsOf n) = [])
  delivers : st.Resting s → ∃ st', SenderReaches g s st st' ∧ st'.Quiet ∧
    ∀ n, st.server.statusOf s n = some .ended →
      (Delivered (st.itemsOf n) (st'.receivedOf n) ↔ lastPieces (st.itemsOf n) = [])

/-- In every run in which the turns of the session follow one another and each is read by its own
sender, the client receives every turn as it should iff its last result has no audio. -/
theorem contract_iff_lastPieces {now : Second} {acts : List (StreamAct μ)}
    (hsafe : AllSteps (streamStep g s) (StreamSafe s) (Stream.init g now) acts) :
    EveryState (streamStep g s) (StreamContract g s) (Stream.init g now) acts := by
  refine everyState_of_allSteps (fun _ _ _ h hsafe hstep => streamInv_step h hsafe hstep)
    (fun st h => ⟨fun hquiet n hended => delivered_iff_of_quiet h hquiet hended,
      fun hresting => ?_⟩) (streamInv_init g s now) hsafe
  obtain ⟨st', hreach, hinv, hquiet, hkeeps⟩ := exists_quiet (g := g) h hresting
  refine ⟨st', hreach, hquiet, fun n hended => ?_⟩
  rw [← hkeeps.itemsOf n]
  exact delivered_iff_of_quiet hinv hquiet (by rwa [hkeeps.server])

/-! ## A turn with one word -/

/-- A turn with one word and two pieces of audio, the last one being `bytes`; its sender has sent
everything. -/
def wordRun (bytes : List UInt8) : List (StreamAct Char) :=
  [.server (.connect someSession), .server (.frame someSession someFrame),
    .server (.endOfUtterance someSession (some 0) none), .server (.take someSession),
    .server (.take someSession), .server (.submit 0), .server (.poll someSession),
    .produce 0 (.text ['H', 'i']), .get, .send, .produce 0 (.audio [1, 0] none []), .get, .send,
    .produce 0 (.audio bytes (some 2) []), .get, .send, .server (.finish 0)]

theorem contract_wordRun :
    (∃ st, run (streamStep 'G' someSession) (Stream.init 'G' someSecond) (wordRun []) = some st ∧
      st.Quiet ∧ st.server.statusOf someSession 0 = some .ended ∧
      lastPieces (st.itemsOf 0) = []) ∧
    EveryState (streamStep 'G' someSession) (StreamContract 'G' someSession)
      (Stream.init 'G' someSecond) (wordRun []) :=
  ⟨exists_reached (by decide +kernel), contract_iff_lastPieces (by decide +kernel)⟩

/-- The client receives `end_of_response` before the last piece of audio. -/
theorem end_precedes_audio_wordRun :
    ∃ st, run (streamStep 'G' someSession) (Stream.init 'G' someSecond)
        (wordRun [2, 0] ++ [.send]) = some st ∧
      st.Quiet ∧ st.server.statusOf someSession 0 = some .ended ∧
      st.receivedOf 0 =
        [.text ['H', 'i'], .audio [1, 0], .endOfResponse, .audio [2, 0]] ∧
      ¬ Delivered (st.itemsOf 0) (st.receivedOf 0) := by
  obtain ⟨st, hrun, hquiet, hended, hreceived⟩ : ∃ st,
      run (streamStep 'G' someSession) (Stream.init 'G' someSecond)
        (wordRun [2, 0] ++ [.send]) = some st ∧ st.Quiet ∧
        st.server.statusOf someSession 0 = some .ended ∧
        st.receivedOf 0 =
          [.text ['H', 'i'], .audio [1, 0], .endOfResponse, .audio [2, 0]] :=
    exists_reached (by decide +kernel)
  refine ⟨st, hrun, hquiet, hended, hreceived, fun hdelivered => ?_⟩
  have hlast := hdelivered.last [.text ['H', 'i'], .audio [1, 0]] [.audio [2, 0]] hreceived
  simp [audioIn] at hlast

end OmniStreaming
