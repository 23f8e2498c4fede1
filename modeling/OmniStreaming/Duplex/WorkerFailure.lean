import OmniStreaming.Duplex.TurnRun

/-!
# Workers that fail

A worker of a turn fails on an answer that reports an error, and on any exception while it works on
a result. The generator waits for a finished piece of audio and does not notice. So the failure
reaches the consumer only where such a piece is already out: the results say that a turn never waits
on behind a failed worker iff no worker fails while no finished piece is out.
-/

namespace OmniStreaming

open Transition

variable {ε ρ : Type*}

/-- One of the three workers has ended with an exception. -/
def TurnRun.WorkerFailed (s : TurnRun ε ρ) : Prop :=
  s.relay.raised = true ∨ s.sender = .failed ∨ s.receiver = .failed

/-- The generator waits: it has not ended, and no finished piece of audio is out for it. -/
def TurnRun.Waits (s : TurnRun ε ρ) : Prop := s.done = false ∧ .audio true ∉ s.finalQueue

/-- A failure reaches the consumer: the generator does not wait behind a failed worker. -/
def FailureReaches (s : TurnRun ε ρ) : Prop := s.WorkerFailed → ¬ s.Waits

instance (s : TurnRun ε ρ) : Decidable s.WorkerFailed := inferInstanceAs (Decidable (_ ∨ _ ∨ _))

instance (s : TurnRun ε ρ) : Decidable s.Waits := inferInstanceAs (Decidable (_ ∧ _))

instance (s : TurnRun ε ρ) : Decidable (FailureReaches s) := inferInstanceAs (Decidable (_ → _))

/-- Loading a message raises if it is an error, and working on a result may raise. -/
def MsgRaises {α : Type*} (p : α → Prop) : StageMsg α → Prop
  | .error => True
  | .result a => p a

instance {α : Type*} (p : α → Prop) [DecidablePred p] : DecidablePred (MsgRaises p)
  | .error => inferInstanceAs (Decidable True)
  | .result a => inferInstanceAs (Decidable (p a))

/-- A worker raises: an error is loaded, the relay raises, the stop token finds too many rows
unsent, or anything else goes wrong. -/
def Raises (puts : ℕ → Bool) (s : TurnRun ε ρ) : TurnAct ρ → Prop
  | .work0 => ∃ m ∈ s.stage0Queue.head?,
      MsgRaises (fun r => (s.relay.recvResult puts r).raised = true) m
  | .tick => ∃ t ∈ s.relay.ready.head?,
      (RelayLoop.runTask puts { s.relay with ready := s.relay.ready.tail } t).raised = true
  | .work1 _ => ∃ m ∈ s.stage1Queue.head?,
      MsgRaises (fun r => r.isStop = true ∧ chunkUnit < s.md.unsent r) m
  | .work2 => ∃ m ∈ s.stage2Queue.head?, MsgRaises (fun _ => False) m
  | .raise _ => True
  | _ => False

instance (puts : ℕ → Bool) (s : TurnRun ε ρ) : DecidablePred (Raises puts s)
  | .work0 => inferInstanceAs (Decidable (∃ m ∈ s.stage0Queue.head?,
      MsgRaises (fun r => (s.relay.recvResult puts r).raised = true) m))
  | .tick => inferInstanceAs (Decidable (∃ t ∈ s.relay.ready.head?,
      (RelayLoop.runTask puts { s.relay with ready := s.relay.ready.tail } t).raised = true))
  | .work1 _ => inferInstanceAs (Decidable (∃ m ∈ s.stage1Queue.head?,
      MsgRaises (fun r => r.isStop = true ∧ chunkUnit < s.md.unsent r) m))
  | .work2 => inferInstanceAs (Decidable (∃ m ∈ s.stage2Queue.head?, MsgRaises (fun _ => False) m))
  | .raise _ => isTrue trivial
  | .thinker | .thinkerError | .talkerTake | .talker _ | .talkerError _ | .talkerFlush _
  | .vocoder _ | .vocoderError _ | .route | .consume => isFalse id

/-- No worker raises as long as the generator waits. -/
def RaisesLate (puts : ℕ → Bool) (s : TurnRun ε ρ) (a : TurnAct ρ) : Prop :=
  s.Waits → ¬ Raises puts s a

instance (puts : ℕ → Bool) (s : TurnRun ε ρ) (a : TurnAct ρ) : Decidable (RaisesLate puts s a) :=
  inferInstanceAs (Decidable (_ → ¬ _))

variable [Zero ρ] {puts : ℕ → Bool} {s s' : TurnRun ε ρ} {a : TurnAct ρ}

section

variable (h : turnStep puts s a = some s')
include h

/-- A generator that has stopped waiting does not wait again. -/
lemma waits_of_step (hw : s'.Waits) : s.Waits := by
  obtain ⟨hdone, hout⟩ := hw
  cases turnMove_of_step h with
  | work0 hs | tick hs => exact ⟨hs, mt mem_finalQueue_withRelay.mpr hout⟩
  | work1 hs => exact ⟨hs, by simpa [TurnRun.send, TurnRun.forget, apply_ite] using hout⟩
  | work2 hs => exact ⟨hs, fun hmem => hout (List.mem_append_left _ hmem)⟩
  | work0Error hs | work1Error hs | work2Error hs | raise0 hs | raise1 hs | raise2 hs =>
    exact ⟨hs, hout⟩
  | consume hs hq =>
    refine ⟨hs, ?_⟩
    rw [hq, List.mem_cons, not_or]
    exact ⟨fun heq => absurd hdone (by simp [← heq]), hout⟩
  | thinker | thinkerError | talkerTake | talker | talkerError | talkerFlush | vocoder
  | vocoderError | routeThinker | routeTalker | routeVocoder =>
    have hsame := sameWorkers_of_outside (by exact trivial) h
    exact ⟨hsame.done ▸ hdone, hsame.finalQueue ▸ hout⟩

/-- A worker fails only at an event that makes it raise. -/
lemma workerFailed_of_step (hfail : s'.WorkerFailed) : s.WorkerFailed ∨ Raises puts s a := by
  cases turnMove_of_step h with
  | @work0 r rest hdone hq =>
    obtain hraised | hothers := hfail
    · exact .inr ⟨.result r, by simp [hq], hraised⟩
    · exact .inl (.inr hothers)
  | @tick t rest hdone hq =>
    obtain hraised | hothers := hfail
    · exact .inr ⟨t, by simp [hq], by rw [hq]; exact hraised⟩
    · exact .inl (.inr hothers)
  | @work1 accepted r rest hdone hrunning hq =>
    by_cases halive : (worker1to2 s.md r).alive = true
    · have hothers : s.relay.raised = true ∨ s.receiver = .failed := by
        simpa [TurnRun.WorkerFailed, TurnRun.send, TurnRun.forget, halive, apply_ite] using hfail
      exact .inl (hothers.imp_right .inr)
    · exact .inr ⟨.result r, by simp [hq],
        (worker1to2_alive_eq_false_iff s.md r).mp (by simpa using halive)⟩
  | work2 =>
    refine .inl (hfail.imp_right (Or.imp_right fun hreceiver => ?_))
    simp only [TurnRun.receive] at hreceiver
    split_ifs at hreceiver
  | work0Error hdone hq | work1Error hdone hq | work2Error hdone hq =>
    exact .inr ⟨.error, by simp [hq], trivial⟩
  | raise0 | raise1 | raise2 => exact .inr trivial
  | consume => exact .inl hfail
  | thinker | thinkerError | talkerTake | talker | talkerError | talkerFlush | vocoder
  | vocoderError | routeThinker | routeTalker | routeVocoder =>
    have hsame := sameWorkers_of_outside (by exact trivial) h
    rw [TurnRun.WorkerFailed, hsame.relay, hsame.sender, hsame.receiver] at hfail
    exact .inl hfail

/-- A worker that raises fails, and the generator goes on as before. -/
lemma fails_of_raises (hw : s.Waits) (hraises : Raises puts s a) : s'.WorkerFailed ∧ s'.Waits := by
  cases turnMove_of_step h with
  | @work0 r rest hdone hq =>
    obtain ⟨m, hm, hraised⟩ := hraises
    obtain rfl : .result r = m := by simpa [hq] using hm
    exact ⟨.inl hraised, hw.1, mt mem_finalQueue_withRelay.mp hw.2⟩
  | @tick t rest hdone hq =>
    obtain ⟨t', ht', hraised⟩ := hraises
    obtain rfl : t = t' := by simpa [hq] using ht'
    rw [hq] at hraised
    exact ⟨.inl hraised, hw.1, mt mem_finalQueue_withRelay.mp hw.2⟩
  | @work1 accepted r rest hdone hrunning hq =>
    obtain ⟨m, hm, hraised⟩ := hraises
    obtain rfl : .result r = m := by simpa [hq] using hm
    have halive := (worker1to2_alive_eq_false_iff s.md r).mpr hraised
    refine ⟨.inr (.inl (by simp [TurnRun.send, halive])), ?_⟩
    simpa [TurnRun.Waits, TurnRun.send, TurnRun.forget, apply_ite] using hw
  | @work2 v rest hdone hrunning hq =>
    obtain ⟨m, hm, hraised⟩ := hraises
    obtain rfl : .result v = m := by simpa [hq] using hm
    exact hraised.elim
  | work0Error | raise0 => exact ⟨.inl rfl, hw⟩
  | work1Error | raise1 => exact ⟨.inr (.inl rfl), hw⟩
  | work2Error | raise2 => exact ⟨.inr (.inr rfl), hw⟩
  | thinker | thinkerError | talkerTake | talker | talkerError | talkerFlush | vocoder
  | vocoderError | routeThinker | routeTalker | routeVocoder | consume => exact hraises.elim

end

/-- An event keeps the consumer from waiting behind a failure iff no worker raises while it
waits. -/
lemma failureReaches_step_iff (hs : FailureReaches s) (h : turnStep puts s a = some s') :
    FailureReaches s' ↔ RaisesLate puts s a := by
  constructor
  · intro hreach hw hraises
    obtain ⟨hfail, hw'⟩ := fails_of_raises h hw hraises
    exact hreach hfail hw'
  · intro hlate hfail hw'
    have hw := waits_of_step h hw'
    obtain hfail | hraises := workerFailed_of_step h hfail
    · exact hs hfail hw
    · exact hlate hw hraises

/-- Along a run, the generator never waits behind a failed worker iff no worker raises while it
waits. -/
theorem failures_reach_consumer_iff {thinker : List (ThinkerResult ε)} {acts : List (TurnAct ρ)}
    {t : TurnRun ε ρ} (hrun : run (turnStep puts) { thinkerLeft := thinker } acts = some t) :
    EveryState (turnStep puts) FailureReaches { thinkerLeft := thinker } acts ↔
      AllSteps (turnStep puts) (RaisesLate puts) { thinkerLeft := thinker } acts := by
  constructor
  · exact allSteps_of_everyState
      (fun s a s' hs hstep hs' => (failureReaches_step_iff hs hstep).mp hs') hrun
  · refine everyState_of_allSteps
      (fun s a s' hs hok hstep => (failureReaches_step_iff hs hstep).mpr hok) (fun _ h => h) ?_
    simp [FailureReaches, TurnRun.WorkerFailed]

/-- In the short turn nobody waits behind a failure. -/
theorem failures_reach_consumer_shortTurn :
    EveryState (turnStep fun _ => true) FailureReaches { thinkerLeft := [firstResult] }
      shortTurnRun := by
  have hrun : run (turnStep fun _ => true) { thinkerLeft := [firstResult] } shortTurnRun =
    some _ := rfl
  exact (failures_reach_consumer_iff hrun).mpr (by decide +kernel)

/-- The thinker answers with an error: `worker_0to1` fails and the generator waits for ever. -/
theorem failure_not_reaching_consumer :
    ∃ s : TurnRun ℕ ℕ,
      run (turnStep fun _ => true) { thinkerLeft := [firstResult] }
        [.thinkerError, .route, .work0] = some s ∧
      s.relay.raised = true ∧ s.done = false ∧ s.finalQueue = [] ∧
      ¬ FailureReaches s ∧ ∀ a, turnStep (fun _ => true) s a = none := by
  refine ⟨_, rfl, rfl, rfl, rfl, by decide, fun a => ?_⟩
  cases a with
  | talker r => rfl
  | talkerError k => rfl
  | talkerFlush k => rfl
  | vocoder i => rfl
  | vocoderError i => rfl
  | raise w => cases w <;> rfl
  | thinker | thinkerError | talkerTake | route | work0 | tick | work1 _ | work2 | consume => rfl

end OmniStreaming
