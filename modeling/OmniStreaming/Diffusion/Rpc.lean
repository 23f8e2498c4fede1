import OmniStreaming.Lib.Transition

/-!
# Calls to the diffusion workers

`collective_rpc` and `add_req` broadcast a request to all workers and take replies from one queue,
`result_mq`, which only the worker of rank 0 can write to. A reply does not say which call it
answers. A call takes as many replies as it expects ranks to answer; one with a timeout gives up
when none is there in time.

`RpcSystem` has the queues, the call that waits and the answers that calls got, and numbers calls
and replies as a history. A call is answered rightly, whatever the workers do before the next one,
iff it expects the reply of rank 0 alone and finds no reply of an earlier call on its way
(`settles_iff_callSafe`).
-/

namespace OmniStreaming

open List Transition

variable {κ ρ : Type*}

/-! ## Requests and replies -/

/-- An `rpc_request`: the method with its arguments, `output_rank` and `exec_all_ranks`. -/
structure RpcRequest (κ : Type*) where
  payload : κ
  outputRank : Option ℤ
  execAllRanks : Bool

/-- What a worker replies: the result, or the dictionary for an exception. -/
inductive ReplyValue (ρ : Type*)
  | result (v : ρ)
  | error (message : String)

def ReplyValue.isError : ReplyValue ρ → Bool
  | .result _ => false
  | .error _ => true

/-- A worker has a result queue. -/
def hasResultMq (gpuId : ℕ) : Bool := gpuId = 0

variable (q : RpcRequest κ)

def RpcRequest.shouldExecute (gpuId : ℕ) : Bool :=
  q.execAllRanks || q.outputRank.isNone || q.outputRank = some (gpuId : ℤ)

def RpcRequest.shouldReply (gpuId : ℕ) : Bool :=
  (q.outputRank.isNone || q.outputRank = some (gpuId : ℤ)) && hasResultMq gpuId

/-- `execute_rpc` of the worker `gpuId`, where the method ends with `outcome`. -/
def executeRpc (gpuId : ℕ) (outcome : Except String ρ) : Option (ReplyValue ρ) × Bool :=
  if !q.shouldExecute gpuId then (none, false)
  else
    match outcome with
    | .ok v => (some (.result v), q.shouldReply gpuId)
    | .error message => (some (.error message), q.shouldReply gpuId)

/-- The reply that the loop of the worker puts on the result queue. -/
def replyOf (gpuId : ℕ) (outcome : Except String ρ) : Option (ReplyValue ρ) :=
  let r := executeRpc q gpuId outcome
  if r.2 then r.1 else none

/-- A reply on the result queue, with the call and the rank that it comes from. -/
structure RpcReply (ρ : Type*) where
  call : ℕ
  rank : ℤ
  value : ReplyValue ρ

def RpcReply.origin (x : RpcReply ρ) : ℕ × ℤ := (x.call, x.rank)

/-! ## Calls -/

/-- A call of the engine. -/
inductive RpcCall (κ : Type*)
  | addReq (payload : κ)
  | collectiveRpc (payload : κ) (uniqueReplyRank : Option ℤ) (timeout : Bool)

/-- The request that a call broadcasts. -/
def RpcCall.request : RpcCall κ → RpcRequest κ
  | .addReq payload => ⟨payload, some 0, true⟩
  | .collectiveRpc payload uniqueReplyRank _ => ⟨payload, uniqueReplyRank, false⟩

/-- The ranks whose replies a call waits for. -/
def RpcCall.expected (numGpus : ℕ) : RpcCall κ → List ℤ
  | .addReq _ => [0]
  | .collectiveRpc _ (some rank) _ => [rank]
  | .collectiveRpc _ none _ => (range numGpus).map Nat.cast

def RpcCall.timesOut : RpcCall κ → Bool
  | .addReq _ => false
  | .collectiveRpc _ _ timeout => timeout

/-- A reply makes the call raise: `collective_rpc` looks for an error, `add_req` does not. -/
def RpcCall.raisesFor (c : RpcCall κ) (x : RpcReply ρ) : Bool :=
  match c with
  | .addReq _ => false
  | .collectiveRpc _ _ _ => x.value.isError

/-- A call that waits, with the replies that it has. -/
structure PendingCall (κ ρ : Type*) where
  number : ℕ
  call : RpcCall κ
  responses : List (RpcReply ρ)

/-- A call that has returned, or raised because of a reply. -/
structure AnsweredCall (ρ : Type*) where
  number : ℕ
  expected : List ℤ
  responses : List (RpcReply ρ)
  raised : Bool

/-! ## The system -/

/-- The workers' queues with numbered requests, the result queue, and the calls. -/
structure RpcSystem (κ ρ : Type*) where
  numGpus : ℕ
  inbox : ℕ → List (ℕ × RpcRequest κ) := fun _ => []
  resultMq : List (RpcReply ρ) := []
  calls : ℕ := 0
  pending : Option (PendingCall κ ρ) := none
  answered : List (AnsweredCall ρ) := []

/-- Events: a call begins, a worker handles a request, the call takes a reply, the call times
out. -/
inductive RpcAct (κ ρ : Type*)
  | call (c : RpcCall κ)
  | work (gpuId : ℕ) (outcome : Except String ρ)
  | receive
  | timeOut

namespace RpcSystem

/-- A call begins with a broadcast. -/
def beginCall (s : RpcSystem κ ρ) (c : RpcCall κ) : RpcSystem κ ρ :=
  { s with
    inbox := fun gpuId => s.inbox gpuId ++ [(s.calls, c.request)]
    calls := s.calls + 1
    pending := some ⟨s.calls, c, []⟩ }

/-- A worker handles the first request of its queue. -/
def handle (s : RpcSystem κ ρ) (gpuId : ℕ) (outcome : Except String ρ) (m : ℕ × RpcRequest κ)
    (rest : List (ℕ × RpcRequest κ)) : RpcSystem κ ρ :=
  { s with
    inbox := Function.update s.inbox gpuId rest
    resultMq := s.resultMq ++ (replyOf m.2 gpuId outcome).toList.map fun v => ⟨m.1, gpuId, v⟩ }

/-- A call takes a reply. It raises, returns if it has as many as it expects, or waits on. -/
def takeReply (s : RpcSystem κ ρ) (p : PendingCall κ ρ) (x : RpcReply ρ)
    (rest : List (RpcReply ρ)) : RpcSystem κ ρ :=
  let responses := p.responses ++ [x]
  let expected := p.call.expected s.numGpus
  if p.call.raisesFor x || responses.length = expected.length then
    { s with
      resultMq := rest
      pending := none
      answered := s.answered ++ [⟨p.number, expected, responses, p.call.raisesFor x⟩] }
  else { s with resultMq := rest, pending := some { p with responses := responses } }

end RpcSystem

variable (s : RpcSystem κ ρ)

def rpcStep : RpcAct κ ρ → Option (RpcSystem κ ρ)
  | .call c =>
    match s.pending with
    | none => some (s.beginCall c)
    | some _ => none
  | .work gpuId outcome =>
    if gpuId < s.numGpus then
      match s.inbox gpuId with
      | m :: rest => some (s.handle gpuId outcome m rest)
      | [] => none
    else none
  | .receive =>
    match s.pending, s.resultMq with
    | some p, x :: rest => some (s.takeReply p x rest)
    | _, _ => none
  | .timeOut =>
    match s.pending, s.resultMq with
    | some p, [] => if p.call.timesOut then some { s with pending := none } else none
    | _, _ => none

/-! ## The property -/

/-- A call has got replies to itself from the ranks that it expects, and all of them if it has
returned. -/
def AnsweredCall.Matches (a : AnsweredCall ρ) : Prop :=
  (∀ x ∈ a.responses, x.call = a.number ∧ x.rank ∈ a.expected) ∧
    (a.raised = false → (a.responses.map RpcReply.rank).Perm a.expected)

/-- The worker of a rank has a request of the call before it, and will reply. -/
def RpcSystem.WillReply (number : ℕ) (rank : ℤ) : Prop :=
  ∃ gpuId < s.numGpus, rank = gpuId ∧
    ∃ m ∈ s.inbox gpuId, m.1 = number ∧ m.2.shouldReply gpuId = true

/-- Calls have got their own replies, and the replies that the waiting call misses are there or will
come. -/
@[mk_iff]
structure RpcGood (s : RpcSystem κ ρ) : Prop where
  answered : ∀ a ∈ s.answered, a.Matches
  served : ∀ p ∈ s.pending, ∀ rank ∈ p.call.expected s.numGpus,
    rank ∈ p.responses.map RpcReply.rank ∨ (p.number, rank) ∈ s.resultMq.map RpcReply.origin ∨
      s.WillReply p.number rank

/-- The event begins a call. -/
def RpcAct.isCall : RpcAct κ ρ → Bool
  | .call _ => true
  | _ => false

/-- Whatever happens before the next call, calls are answered rightly. -/
def CallsSettle : Prop :=
  Forever rpcStep (fun a => a.isCall = false) RpcGood s

/-- The replies on the way in order: those on the result queue, and those of rank 0 to come. -/
def RpcSystem.outstanding : List (ℕ × ℤ) :=
  s.resultMq.map RpcReply.origin ++
    ((s.inbox 0).filter fun m => m.2.shouldReply 0).map fun m => (m.1, 0)

/-- A call expects the reply of rank 0 alone, and none is on the way when it begins. -/
def CallSafe : RpcAct κ ρ → Prop
  | .call c => c.expected s.numGpus = [0] ∧ s.outstanding = []
  | _ => True

/-! ## What an event can do -/

variable {s s' : RpcSystem κ ρ} {a : RpcAct κ ρ}

/-- The kinds of a step. -/
inductive RpcMove (s : RpcSystem κ ρ) : RpcAct κ ρ → RpcSystem κ ρ → Prop
  | call (c : RpcCall κ) (hidle : s.pending = none) : RpcMove s (.call c) (s.beginCall c)
  | work {gpuId : ℕ} (outcome : Except String ρ) {m : ℕ × RpcRequest κ}
      {rest : List (ℕ × RpcRequest κ)} (hrank : gpuId < s.numGpus)
      (hinbox : s.inbox gpuId = m :: rest) :
    RpcMove s (.work gpuId outcome) (s.handle gpuId outcome m rest)
  | receive {p : PendingCall κ ρ} {x : RpcReply ρ} {rest : List (RpcReply ρ)}
      (hpending : s.pending = some p) (hqueue : s.resultMq = x :: rest) :
    RpcMove s .receive (s.takeReply p x rest)
  | timeOut {p : PendingCall κ ρ} (hpending : s.pending = some p) (hqueue : s.resultMq = [])
      (htimeout : p.call.timesOut = true) : RpcMove s .timeOut { s with pending := none }

lemma rpcMove_of_step (h : rpcStep s a = some s') : RpcMove s a s' := by
  cases a with
  | call c =>
    simp only [rpcStep] at h
    split at h
    · exact Option.some.inj h ▸ .call c ‹_›
    · cases h
  | work gpuId outcome =>
    simp only [rpcStep] at h
    split at h
    · split at h
      · exact Option.some.inj h ▸ .work outcome ‹_› ‹_›
      · cases h
    · cases h
  | receive =>
    simp only [rpcStep] at h
    split at h
    · exact Option.some.inj h ▸ .receive ‹_› ‹_›
    · cases h
  | timeOut =>
    simp only [rpcStep] at h
    split at h
    · split at h
      · exact Option.some.inj h ▸ .timeOut ‹_› ‹_› ‹_›
      · cases h
    · cases h

/-- A reply is taken as the only one that a call expects: the call is answered. -/
lemma takeReply_of_single {p : PendingCall κ ρ} {x : RpcReply ρ} {rest : List (RpcReply ρ)}
    {rank : ℤ} (hresponses : p.responses = []) (hexpected : p.call.expected s.numGpus = [rank]) :
    s.takeReply p x rest =
      { s with
        resultMq := rest
        pending := none
        answered := s.answered ++ [⟨p.number, [rank], [x], p.call.raisesFor x⟩] } := by
  simp [RpcSystem.takeReply, hresponses, hexpected]

/-! ## The replies on the way -/

/-- A worker replies iff it should. -/
lemma isSome_replyOf (gpuId : ℕ) (outcome : Except String ρ) :
    (replyOf q gpuId outcome).isSome = q.shouldReply gpuId := by
  have hexecute : q.shouldReply gpuId = true → q.shouldExecute gpuId = true := by
    simp only [RpcRequest.shouldReply, RpcRequest.shouldExecute, Bool.and_eq_true, Bool.or_eq_true]
    rintro ⟨hnone | hrank, -⟩
    · exact .inl (.inr hnone)
    · exact .inr hrank
  cases hreply : q.shouldReply gpuId with
  | true => cases outcome <;> simp [replyOf, executeRpc, hexecute hreply, hreply]
  | false => cases outcome <;> cases hexec : q.shouldExecute gpuId <;>
      simp [replyOf, executeRpc, hreply, hexec]

/-- Only rank 0 replies. -/
lemma shouldReply_of_ne_zero {gpuId : ℕ} (h : gpuId ≠ 0) : q.shouldReply gpuId = false := by
  simp [RpcRequest.shouldReply, hasResultMq, h]

/-- What a worker does to a request before it does not change what is on the way. -/
lemma outstanding_handle {gpuId : ℕ} (outcome : Except String ρ) {m : ℕ × RpcRequest κ}
    {rest : List (ℕ × RpcRequest κ)} (hinbox : s.inbox gpuId = m :: rest) :
    (s.handle gpuId outcome m rest).outstanding = s.outstanding := by
  have hsome := isSome_replyOf m.2 gpuId outcome
  by_cases hrank : gpuId = 0
  · subst hrank
    cases hreply : m.2.shouldReply 0 with
    | true =>
      obtain ⟨v, hv⟩ := Option.isSome_iff_exists.mp (hsome.trans hreply)
      simp [RpcSystem.outstanding, RpcSystem.handle, hinbox, hreply, hv, RpcReply.origin]
    | false =>
      have hnone : replyOf m.2 0 outcome = none :=
        Option.not_isSome_iff_eq_none.mp (by rw [hsome, hreply]; exact Bool.false_ne_true)
      simp [RpcSystem.outstanding, RpcSystem.handle, hinbox, hreply, hnone]
  · have hnone : replyOf m.2 gpuId outcome = none :=
      Option.not_isSome_iff_eq_none.mp
        (by rw [hsome, shouldReply_of_ne_zero _ hrank]; exact Bool.false_ne_true)
    simp [RpcSystem.outstanding, RpcSystem.handle, hnone, Function.update_of_ne (Ne.symm hrank)]

/-- A call adds its own reply at the end, if it is one for rank 0. -/
lemma outstanding_beginCall (c : RpcCall κ) :
    (s.beginCall c).outstanding =
      s.outstanding ++ if c.request.shouldReply 0 then [(s.calls, 0)] else [] := by
  cases hreply : c.request.shouldReply 0 <;>
    simp [RpcSystem.outstanding, RpcSystem.beginCall, hreply]

variable {c : RpcCall κ}

/-- A call that expects the reply of rank 0 will get one. -/
lemma shouldReply_of_expected {n : ℕ} (h : c.expected n = [0]) :
    c.request.shouldReply 0 = true := by
  cases c with
  | addReq payload => rfl
  | collectiveRpc payload uniqueReplyRank timeout =>
    cases uniqueReplyRank with
    | none => rfl
    | some rank =>
      obtain rfl : rank = 0 := singleton_inj.mp h
      rfl

/-- A reply on the way is on the result queue, or rank 0 will send it. -/
lemma served_of_mem_outstanding (hpos : 0 < s.numGpus) {number : ℕ}
    (h : (number, 0) ∈ s.outstanding) :
    (number, 0) ∈ s.resultMq.map RpcReply.origin ∨ s.WillReply number 0 := by
  refine (mem_append.mp h).imp id fun h => ?_
  obtain ⟨m, hm, heq⟩ := mem_map.mp h
  obtain ⟨hmem, hreply⟩ := mem_filter.mp hm
  cases heq
  exact ⟨0, hpos, rfl, m, hmem, rfl, hreply⟩

/-! ## From one call to the next -/

/-- There is a worker, and what is on the way belongs to calls that have begun. -/
structure RpcInv (s : RpcSystem κ ρ) : Prop where
  workers : 0 < s.numGpus
  begun : ∀ x ∈ s.outstanding, x.1 < s.calls

/-- No event but a call changes the number of calls, and none adds to what is on the way. -/
lemma outstanding_suffix (h : rpcStep s a = some s') (hcall : a.isCall = false) :
    s'.outstanding <:+ s.outstanding ∧ s'.calls = s.calls ∧ s'.numGpus = s.numGpus := by
  cases rpcMove_of_step h with
  | call c _ => cases hcall
  | work outcome hrank hinbox =>
    exact ⟨outstanding_handle outcome hinbox ▸ suffix_refl _, rfl, rfl⟩
  | @receive p x rest hpending hqueue =>
    have hsuffix : ∀ s' : RpcSystem κ ρ, s'.resultMq = rest → s'.inbox = s.inbox →
        s'.outstanding <:+ s.outstanding := by
      intro s' hrest hinbox
      refine ⟨[x.origin], ?_⟩
      rw [RpcSystem.outstanding, RpcSystem.outstanding, hrest, hinbox, hqueue]
      rfl
    unfold RpcSystem.takeReply
    dsimp only
    split
    · exact ⟨hsuffix _ rfl rfl, rfl, rfl⟩
    · exact ⟨hsuffix _ rfl rfl, rfl, rfl⟩
  | timeOut _ _ _ => exact ⟨suffix_refl _, rfl, rfl⟩

lemma rpcInv_step (h : RpcInv s) (hstep : rpcStep s a = some s') : RpcInv s' := by
  cases hcall : a.isCall with
  | false =>
    obtain ⟨hsuffix, hcalls, hworkers⟩ := outstanding_suffix hstep hcall
    exact ⟨hworkers ▸ h.workers, fun x hx => hcalls ▸ h.begun x (hsuffix.subset hx)⟩
  | true =>
    cases rpcMove_of_step hstep with
    | call c _ =>
      refine ⟨h.workers, fun x hx => ?_⟩
      rw [outstanding_beginCall] at hx
      obtain hx | hx := mem_append.mp hx
      · exact Nat.lt_succ_of_lt (h.begun x hx)
      · split at hx
        · obtain rfl := mem_singleton.mp hx
          exact Nat.lt_succ_self _
        · cases hx
    | _ => cases hcall

/-- The waiting call expects the reply of rank 0, and that reply alone is on the way. -/
structure Answering (s : RpcSystem κ ρ) : Prop where
  workers : 0 < s.numGpus
  answered : ∀ a ∈ s.answered, a.Matches
  pending : ∀ p ∈ s.pending, p.responses = [] ∧ p.call.expected s.numGpus = [0] ∧
    s.outstanding = [(p.number, 0)]

lemma Answering.good (h : Answering s) : RpcGood s := by
  refine ⟨h.answered, fun p hp rank hrank => .inr ?_⟩
  obtain ⟨-, hexpected, houtstanding⟩ := h.pending p hp
  rw [hexpected, mem_singleton] at hrank
  subst hrank
  exact served_of_mem_outstanding h.workers (houtstanding ▸ mem_singleton.mpr rfl)

/-- Such a call is answered with its own reply, or times out. -/
lemma Answering.step (h : Answering s) (hcall : a.isCall = false)
    (hstep : rpcStep s a = some s') : Answering s' := by
  cases rpcMove_of_step hstep with
  | call c _ => cases hcall
  | work outcome hrank hinbox =>
    exact ⟨h.workers, h.answered, (outstanding_handle outcome hinbox).symm ▸ h.pending⟩
  | @receive p x rest hpending hqueue =>
    obtain ⟨hresponses, hexpected, houtstanding⟩ := h.pending p hpending
    rw [takeReply_of_single hresponses hexpected]
    refine ⟨h.workers, fun a ha => ?_, nofun⟩
    obtain ha | ha := mem_append.mp ha
    · exact h.answered a ha
    · obtain rfl := mem_singleton.mp ha
      have horigin : x.origin = (p.number, 0) := by
        rw [RpcSystem.outstanding, hqueue] at houtstanding
        exact (cons.inj houtstanding).1
      obtain ⟨hnumber, hzero⟩ := Prod.mk.inj horigin
      refine ⟨fun y hy => ?_, fun _ => ?_⟩
      · obtain rfl := mem_singleton.mp hy
        exact ⟨hnumber, mem_singleton.mpr hzero⟩
      · rw [map_singleton, hzero]
  | timeOut _ _ _ => exact ⟨h.workers, h.answered, nofun⟩

lemma Answering.settles (h : Answering s) : CallsSettle s :=
  forever_of_invariant (fun _ _ _ h hcall hstep => h.step hcall hstep) (fun _ h => h.good) h

/-! ## Calls that are not answered rightly -/

/-- A call that does not expect the reply of rank 0 alone expects one of another rank. -/
lemma exists_expected_ne_zero {n : ℕ} (hn : 0 < n) (h : c.expected n ≠ [0]) :
    ∃ rank ∈ c.expected n, rank ≠ 0 := by
  cases c with
  | addReq payload => exact absurd rfl h
  | collectiveRpc payload uniqueReplyRank timeout =>
    cases uniqueReplyRank with
    | some rank => exact ⟨rank, mem_singleton.mpr rfl, fun hzero => h (hzero ▸ rfl)⟩
    | none =>
      obtain rfl | hn : n = 1 ∨ 1 < n := by omega
      · exact absurd rfl h
      · exact ⟨1, mem_map.mpr ⟨1, mem_range.mpr hn, rfl⟩, by decide⟩

/-- A call that expects the reply of another rank waits for a reply that nobody will send. -/
lemma not_good_of_expected {rank : ℤ} (h : RpcInv s) (hrank : rank ∈ c.expected s.numGpus)
    (hne : rank ≠ 0) : ¬ RpcGood (s.beginCall c) := by
  intro hgood
  obtain hresponse | hqueued | ⟨gpuId, -, heq, m, -, -, hreply⟩ := hgood.served _ rfl rank hrank
  · cases hresponse
  · exact absurd (h.begun (s.calls, rank) (mem_append_left _ hqueued)) (lt_irrefl _)
  · rw [shouldReply_of_ne_zero m.2 (by rintro rfl; exact hne heq)] at hreply
    cases hreply

/-- If a reply is on the way, the worker of rank 0 brings one to the result queue. -/
lemma exists_work (h : RpcInv s) (hway : s.outstanding ≠ []) :
    ∃ (more : List (RpcAct κ ρ)) (t : RpcSystem κ ρ), (∀ a ∈ more, a.isCall = false) ∧
      run rpcStep s more = some t ∧ t.resultMq ≠ [] ∧ t.outstanding = s.outstanding ∧
      t.pending = s.pending ∧ t.numGpus = s.numGpus := by
  induction hlength : (s.inbox 0).length generalizing s with
  | zero =>
    refine ⟨[], s, nofun, rfl, fun hqueue => hway ?_, rfl, rfl, rfl⟩
    rw [RpcSystem.outstanding, hqueue, eq_nil_of_length_eq_zero hlength]
    rfl
  | succ n ih =>
    obtain ⟨m, rest, hinbox⟩ := exists_cons_of_length_eq_add_one hlength
    have hstep : rpcStep s (.work 0 (.error "")) = some (s.handle 0 (.error "") m rest) := by
      simp only [rpcStep, if_pos h.workers, hinbox]
    have hsame := outstanding_handle (.error "") hinbox
    have hrest : ((s.handle 0 (.error "") m rest).inbox 0).length = n := by
      simpa [RpcSystem.handle, hinbox] using hlength
    obtain ⟨more, t, hmore, hrun, hqueue, hway', hpending, hworkers⟩ :=
      ih (rpcInv_step h hstep) (hsame ▸ hway) hrest
    refine ⟨.work 0 (.error "") :: more, t, fun a ha => ?_, run_cons_eq_some.mpr ⟨_, hstep, hrun⟩,
      hqueue, hway'.trans hsame, hpending, hworkers⟩
    obtain rfl | ha := mem_cons.mp ha
    · rfl
    · exact hmore a ha

/-- A call that expects the reply of rank 0 takes a reply of an earlier call, if one is on the
way. -/
lemma not_settles_of_outstanding (h : RpcInv s) (hexpected : c.expected s.numGpus = [0])
    (hidle : s.pending = none) (hway : s.outstanding ≠ []) : ¬ CallsSettle (s.beginCall c) := by
  intro hsettles
  have hbegin : rpcStep s (.call c) = some (s.beginCall c) := by simp only [rpcStep, hidle]
  have hway' : (s.beginCall c).outstanding ≠ [] := by
    rw [outstanding_beginCall]
    exact append_ne_nil_of_left_ne_nil hway _
  obtain ⟨more, t, hmore, hrun, hqueue, hsame, hpending, hworkers⟩ :=
    exists_work (rpcInv_step h hbegin) hway'
  obtain ⟨x, rest, hx⟩ := exists_cons_of_ne_nil hqueue
  -- the first reply on the way is one of an earlier call
  have hstale : x.call < s.calls := by
    obtain ⟨y, way, hy⟩ := exists_cons_of_ne_nil hway
    have hfirst : x.origin = y := by
      rw [outstanding_beginCall, hy, RpcSystem.outstanding, hx] at hsame
      exact (cons.inj hsame).1
    have hbegun := h.begun y (hy ▸ mem_cons_self)
    rwa [← hfirst] at hbegun
  have hreceive : rpcStep t .receive = some (t.takeReply ⟨s.calls, c, []⟩ x rest) := by
    simp only [rpcStep, hpending.trans rfl, hx]
    rfl
  have hexpected' : (⟨s.calls, c, []⟩ : PendingCall κ ρ).call.expected t.numGpus = [0] :=
    hworkers ▸ hexpected
  have hgood : RpcGood (t.takeReply ⟨s.calls, c, []⟩ x rest) :=
    ((hsettles.run hmore hrun).step rfl hreceive).now
  rw [takeReply_of_single rfl hexpected'] at hgood
  have hmatches := hgood.answered _ (mem_append_right _ (mem_singleton.mpr rfl))
  exact absurd (hmatches.1 x (mem_singleton.mpr rfl)).1 (Nat.ne_of_lt hstale)

/-- An event keeps the answers right iff it is no call, or one that expects the reply of rank 0
alone and finds none on the way. -/
lemma settles_step_iff (h : RpcInv s) (hs : CallsSettle s) (hstep : rpcStep s a = some s') :
    CallsSettle s' ↔ CallSafe s a := by
  cases hcall : a.isCall with
  | false =>
    refine iff_of_true (hs.step hcall hstep) ?_
    cases a with
    | call c => cases hcall
    | _ => trivial
  | true =>
    cases rpcMove_of_step hstep with
    | call c hidle =>
      constructor
      · intro hsettles
        have hexpected : c.expected s.numGpus = [0] := by
          by_contra hne
          obtain ⟨rank, hrank, hzero⟩ := exists_expected_ne_zero h.workers hne
          exact not_good_of_expected h hrank hzero hsettles.now
        refine ⟨hexpected, ?_⟩
        by_contra hway
        exact not_settles_of_outstanding h hexpected hidle hway hsettles
      · rintro ⟨hexpected, hway⟩
        refine Answering.settles ⟨h.workers, hs.now.answered, fun p hp => ?_⟩
        cases hp
        refine ⟨rfl, hexpected, ?_⟩
        rw [outstanding_beginCall, hway, shouldReply_of_expected hexpected]
        rfl
    | _ => cases hcall

/-- In every run, calls are answered rightly throughout iff each call expects the reply of rank 0
alone and finds none on the way. -/
theorem settles_iff_callSafe {n : ℕ} (hn : 0 < n) {acts : List (RpcAct κ ρ)}
    (hrun : run rpcStep { numGpus := n } acts = some s) :
    EveryState rpcStep CallsSettle { numGpus := n } acts ↔
      AllSteps rpcStep CallSafe { numGpus := n } acts := by
  have hinit : RpcInv ({ numGpus := n } : RpcSystem κ ρ) := ⟨hn, nofun⟩
  have hsettles : CallsSettle ({ numGpus := n } : RpcSystem κ ρ) :=
    Answering.settles ⟨hn, nofun, nofun⟩
  exact everyState_iff_allSteps_of_guard (fun _ _ _ h _ hstep => rpcInv_step h hstep)
    (fun _ _ _ h hs _ hstep => settles_step_iff h hs hstep) hinit hsettles
    (allSteps_of_forall_mem (p := fun _ => True) fun _ _ => trivial) hrun

instance (s : RpcSystem κ ρ) : DecidablePred (CallSafe s) := fun a => by
  unfold CallSafe
  split <;> infer_instance

instance (a : AnsweredCall ρ) : Decidable a.Matches := inferInstanceAs (Decidable (_ ∧ _))

instance (s : RpcSystem κ ρ) (number : ℕ) (rank : ℤ) : Decidable (s.WillReply number rank) :=
  inferInstanceAs (Decidable (∃ gpuId < s.numGpus, rank = gpuId ∧ _))

instance (s : RpcSystem κ ρ) : Decidable (RpcGood s) := decidable_of_iff' _ (rpcGood_iff s)

/-! ## Calls one after the other -/

/-- A generation and a call that fails, with two workers. -/
def safeCalls : List (RpcAct Unit ℕ) :=
  [.call (.addReq ()), .work 0 (.ok 7), .receive, .work 1 (.error "lost"),
    .call (.collectiveRpc () (some 0) true), .work 0 (.error "failed"), .receive]

theorem settles_safeCalls : EveryState rpcStep CallsSettle { numGpus := 2 } safeCalls := by
  obtain ⟨s, hrun⟩ : ∃ s, run rpcStep { numGpus := 2 } safeCalls = some s :=
    Option.isSome_iff_exists.mp (by decide +kernel)
  exact (settles_iff_callSafe (by decide) hrun).mpr (by decide +kernel)

/-- With two workers, a call to all ranks waits for a second reply. With one, a call after one that
has timed out gets the reply to that. -/
theorem replies_not_matched :
    (∃ s : RpcSystem Unit ℕ, run rpcStep { numGpus := 2 }
      [.call (.collectiveRpc () none false), .work 0 (.ok 7), .work 1 (.ok 7), .receive] = some s ∧
        ¬ RpcGood s ∧ s.pending.isSome ∧ s.resultMq.map RpcReply.origin = [] ∧
        (s.inbox 0).map Prod.fst = [] ∧ (s.inbox 1).map Prod.fst = []) ∧
    ∃ s : RpcSystem Unit ℕ, run rpcStep { numGpus := 1 }
      [.call (.collectiveRpc () (some 0) true), .timeOut, .call (.addReq ()), .work 0 (.ok 7),
        .receive] = some s ∧
        ¬ RpcGood s ∧
        s.answered.map (fun a => (a.number, a.responses.map RpcReply.origin)) = [(1, [(0, 0)])] :=
  ⟨exists_reached (by decide +kernel), exists_reached (by decide +kernel)⟩

end OmniStreaming
