import OmniStreaming.Duplex.RelayOrder
import OmniStreaming.Duplex.TurnRun

/-!
# Turns that stay open

Without errors and refused puts, what decides the end of a turn is its audio side: the metadata, the
two workers at the vocoder, the number of windows that are on their way, and the marks of the audio
pieces that are out. `AudioView` is that side of a turn, `audioStep_of_step` says that every event
of the turn leaves it alone or is one of its three steps, and the invariant of the view says that
the expected count is set iff a stop token has been handled once there was a row, and that the
receiver does not miss the last window then.

So when nothing is left to happen, the generator has ended iff the talker has answered with a stop
token after its first row.
-/

namespace OmniStreaming

open List Transition

variable {ε ρ : Type*}

/-! ## The audio side of a turn -/

/-- The audio side: metadata, both workers, windows not received, marks of the pieces, the end of
the generator, and the talker results handled. -/
structure AudioView (ρ : Type*) where
  md : TurnMetadata ρ
  sender : WorkerStatus
  receiver : WorkerStatus
  pending : ℕ
  flags : List Bool
  done : Bool
  handled : List (TalkerResult ρ)

/-- The mark of an item, if it is audio. -/
def FinalOutput.flag? : FinalOutput → Option Bool
  | .text => none
  | .audio finished => some finished

/-- The message is one of the vocoder. -/
def TurnMsg.isVocoder : TurnMsg ε ρ → Bool
  | .vocoder _ => true
  | _ => false

/-- The audio side of a turn. -/
def TurnRun.audioView (s : TurnRun ε ρ) : AudioView ρ where
  md := s.md
  sender := s.sender
  receiver := s.receiver
  pending := s.vocoderTasks.length + s.reqQueue.countP TurnMsg.isVocoder + s.stage2Queue.length
  flags := s.finalQueue.filterMap FinalOutput.flag?
  done := s.done
  handled := s.handled

/-- `worker_1to2` handles a result and the connector accepts what it sends. -/
def AudioView.send [Zero ρ] (v : AudioView ρ) (r : TalkerResult ρ) : AudioView ρ :=
  { v with
    md := (worker1to2 v.md r).md
    sender := if (worker1to2 v.md r).alive then .running else .failed
    pending := v.pending + (worker1to2 v.md r).sent.toList.length
    handled := v.handled ++ [r] }

/-- The next window to be received is the last one, as `worker_2toServer` sees it. -/
def AudioView.lastPiece (v : AudioView ρ) : Bool :=
  v.md.stg1IsFinished && decide (0 < v.md.expectedCnt) &&
    decide (v.md.expectedCnt ≤ (v.md.stg2RecvCount + 1 : ℕ))

/-- `worker_2toServer` receives a window. -/
def AudioView.receive (v : AudioView ρ) : AudioView ρ :=
  { v with
    md := { v.md with stg2RecvCount := v.md.stg2RecvCount + 1 }
    receiver := if v.lastPiece then .returned else .running
    pending := v.pending - 1
    flags := v.flags ++ [v.lastPiece] }

/-! ## The turn refines its audio side -/

/-- A message without errors: a talker result has at most one row, a vocoder result has audio. -/
def TurnMsg.Regular : TurnMsg ε ρ → Prop
  | .thinker m => m ≠ .error
  | .talker m => ∃ r, m = .result r ∧ r.rows.length ≤ 1
  | .vocoder m => ∃ v, m = .result v ∧ v.audioTensor.isSome

/-- An event without errors: all windows are accepted, and talker results have at most one row. -/
def TurnAct.Regular : TurnAct ρ → Prop
  | .talker r => r.rows.length ≤ 1
  | .thinkerError | .talkerError _ | .vocoderError _ | .raise _ | .work1 false => False
  | _ => True

/-- All messages of the turn are regular. -/
structure MsgsRegular (s : TurnRun ε ρ) : Prop where
  req : ∀ m ∈ s.reqQueue, m.Regular
  stage0 : ∀ m ∈ s.stage0Queue, (TurnMsg.thinker m : TurnMsg ε ρ).Regular
  stage1 : ∀ m ∈ s.stage1Queue, (TurnMsg.talker m : TurnMsg ε ρ).Regular
  stage2 : ∀ m ∈ s.stage2Queue, (TurnMsg.vocoder m : TurnMsg ε ρ).Regular

/-- An event on the audio side: nothing, a step of a worker, or the generator takes a piece. -/
def AudioStep [Zero ρ] (v v' : AudioView ρ) : Prop :=
  v' = v ∨
  (∃ r, r.rows.length ≤ 1 ∧ v.sender = .running ∧ v' = v.send r) ∨
  (v.receiver = .running ∧ 0 < v.pending ∧ v' = v.receive) ∨
  ∃ b rest, v.done = false ∧ v.flags = b :: rest ∧ v' = { v with flags := rest, done := b }

variable [Zero ρ] {puts : ℕ → Bool} {s s' : TurnRun ε ρ} {a : TurnAct ρ}

omit [Zero ρ] in
lemma audioView_withRelay (l : RelayLoop ε) (recv : Bool) :
    (s.withRelay l recv).audioView = s.audioView := by
  simp only [TurnRun.audioView, TurnRun.withRelay]
  split_ifs
  · simp [FinalOutput.flag?]
  · rfl

omit [Zero ρ] in
/-- A result with audio is one received window on the audio side. -/
lemma audioView_receive {v : VocoderResult (ρ × ℕ)} {rest : List (StageMsg (VocoderResult (ρ × ℕ)))}
    (hv : v.audioTensor.isSome) (hq : s.stage2Queue = .result v :: rest) :
    (TurnRun.receive { s with stage2Queue := rest } v).audioView = s.audioView.receive := by
  obtain ⟨audio, haudio⟩ := Option.isSome_iff_exists.mp hv
  have hpiece : ∀ md : TurnMetadata ρ, (worker2toServer md v).1 =
      { md with stg2RecvCount := md.stg2RecvCount + 1 } := by
    intro md
    simp [worker2toServer, haudio]
  simp only [TurnRun.audioView, TurnRun.receive, AudioView.receive, hpiece, hq]
  simp only [worker2toServer, haudio, AudioView.lastPiece, Option.any_some, Option.map_some,
    Option.toList_some, filterMap_append, length_cons]
  rfl

/-- The events of a turn without errors keep its messages regular. -/
lemma msgsRegular_step (h : MsgsRegular s) (hact : a.Regular)
    (hstep : turnStep puts s a = some s') :
    MsgsRegular s' := by
  have hadd : ∀ {m : TurnMsg ε ρ}, m.Regular → ∀ m' ∈ s.reqQueue ++ [m], m'.Regular :=
    fun hm => forall_mem_append.mpr ⟨h.req, by simpa⟩
  cases turnMove_of_step hstep with
  | thinker => exact { h with req := hadd (by simp [TurnMsg.Regular]) }
  | talkerTake | talkerFlush | tick | consume => exact { h with }
  | @talker r =>
    refine { h with req := ?_ }
    simp only [TurnRun.harvestTalker]
    split_ifs
    · exact hadd ⟨r, rfl, hact⟩
    · exact h.req
  | vocoder => exact { h with req := hadd ⟨_, rfl, rfl⟩ }
  | routeThinker hq =>
    obtain ⟨hm, hrest⟩ := forall_mem_cons.mp (hq ▸ h.req)
    exact { h with req := hrest, stage0 := forall_mem_append.mpr ⟨h.stage0, by simpa⟩ }
  | routeTalker hq =>
    obtain ⟨hm, hrest⟩ := forall_mem_cons.mp (hq ▸ h.req)
    exact { h with req := hrest, stage1 := forall_mem_append.mpr ⟨h.stage1, by simpa⟩ }
  | routeVocoder hq =>
    obtain ⟨hm, hrest⟩ := forall_mem_cons.mp (hq ▸ h.req)
    exact { h with req := hrest, stage2 := forall_mem_append.mpr ⟨h.stage2, by simpa⟩ }
  | work0 hdone hq | work0Error hdone hq =>
    exact { h with stage0 := (forall_mem_cons.mp (hq ▸ h.stage0)).2 }
  | @work1 accepted r rest hdone hrunning hq =>
    obtain ⟨queue, registered, hforget⟩ :=
      exists_forget ({ s with stage1Queue := rest } : TurnRun ε ρ) r
    simp only [TurnRun.send, hforget]
    exact { h with stage1 := (forall_mem_cons.mp (hq ▸ h.stage1)).2 }
  | work1Error hdone hq => exact { h with stage1 := (forall_mem_cons.mp (hq ▸ h.stage1)).2 }
  | work2 hdone hrunning hq =>
    exact { h with stage2 := (forall_mem_cons.mp (hq ▸ h.stage2)).2 }
  | work2Error hdone hq => exact { h with stage2 := (forall_mem_cons.mp (hq ▸ h.stage2)).2 }
  | thinkerError | talkerError | vocoderError | raise0 | raise1 | raise2 => exact hact.elim

/-- A turn without errors moves its audio side by steps of that side. -/
lemma audioStep_of_step (h : MsgsRegular s) (hact : a.Regular)
    (hstep : turnStep puts s a = some s') : AudioStep s.audioView s'.audioView := by
  cases turnMove_of_step hstep with
  | thinker => exact .inl (by simp [TurnRun.audioView, TurnMsg.isVocoder])
  | talkerTake | talkerFlush | work0Error => exact .inl rfl
  | talker =>
    refine .inl ?_
    simp only [TurnRun.audioView, TurnRun.harvestTalker]
    split_ifs
    · simp [TurnMsg.isVocoder]
    · rfl
  | vocoder ht =>
    have hi := (List.getElem?_eq_some_iff.mp ht).1
    refine .inl ?_
    simp only [TurnRun.audioView, length_eraseIdx_of_lt hi, countP_append,
      countP_singleton, TurnMsg.isVocoder, if_true]
    congr 1
    omega
  | routeThinker hq | routeTalker hq =>
    exact .inl (by simp [TurnRun.audioView, hq, TurnMsg.isVocoder])
  | routeVocoder hq =>
    refine .inl ?_
    simp only [TurnRun.audioView, hq, countP_cons, TurnMsg.isVocoder, if_true,
      length_append, length_singleton]
    congr 1
    omega
  | work0 | tick => exact .inl (audioView_withRelay _ _)
  | @work1 accepted r rest hdone hrunning hq =>
    obtain ⟨r', heq, hrows⟩ := h.stage1 (.result r) (by simp [hq])
    cases heq
    have haccepted : accepted = true := by
      cases accepted with
      | true => rfl
      | false => exact hact.elim
    obtain ⟨queue, registered, hforget⟩ :=
      exists_forget ({ s with stage1Queue := rest } : TurnRun ε ρ) r
    refine .inr (.inl ⟨r, hrows, hrunning, ?_⟩)
    simp only [TurnRun.send, hforget, haccepted, if_true, TurnRun.audioView, AudioView.send,
      length_append]
    congr 1
    omega
  | work1Error hdone hq =>
    obtain ⟨r, heq, -⟩ := h.stage1 .error (by simp [hq])
    cases heq
  | @work2 v rest hdone hrunning hq =>
    obtain ⟨v', heq, hv⟩ := h.stage2 (.result v) (by simp [hq])
    cases heq
    refine .inr (.inr (.inl ⟨hrunning, ?_, audioView_receive hv hq⟩))
    simp [TurnRun.audioView, hq]
  | work2Error hdone hq =>
    obtain ⟨v, heq, -⟩ := h.stage2 .error (by simp [hq])
    cases heq
  | @consume o rest hdone hq =>
    cases o with
    | text =>
      refine .inl ?_
      simp [TurnRun.audioView, hq, hdone, filterMap_cons, FinalOutput.flag?]
    | audio b =>
      refine .inr (.inr (.inr ⟨b, rest.filterMap FinalOutput.flag?, hdone, ?_, ?_⟩))
      · simp [TurnRun.audioView, hq, FinalOutput.flag?]
      · simp [TurnRun.audioView]
  | thinkerError | talkerError | vocoderError | raise0 | raise1 | raise2 => exact hact.elim

/-! ## The invariant of the audio side -/

/-- Some result carries a stop token, and by then, its own row included, there is a row. -/
def StopAfterRow (handled : List (TalkerResult ρ)) : Prop :=
  ∃ pre r post, handled = pre ++ r :: post ∧ r.isStop = true ∧
    (pre ++ [r]).flatMap TalkerResult.rows ≠ []

/-- The buffer and the windows cut from it: a row that is in no window is always left. -/
structure Buffered (v : AudioView ρ) : Prop where
  codes : v.md.codes = v.handled.flatMap TalkerResult.rows
  buffer : v.md.stg1AudioBuffer = [] ↔ v.md.codes = []
  ahead : v.md.codes = [] ∧ v.md.stg1SentIdx = 0 ∨ v.md.stg1SentIdx < v.md.codes.length

/-- As long as no count is expected, no stop token has come after a row, and both workers run. -/
structure AudioOpen (v : AudioView ρ) : Prop where
  sender : v.sender = .running
  receiver : v.receiver = .running
  unsent : v.md.codes.length ≤ v.md.stg1SentIdx + 4
  noStop : ¬ StopAfterRow v.handled

/-- The `e` expected windows are sent, and the receiver has returned or waits for one of them. -/
structure AudioClosing (v : AudioView ρ) (e : ℕ) : Prop where
  stop : StopAfterRow v.handled
  isFinished : v.md.stg1IsFinished = true
  pos : 0 < e
  sent : e ≤ v.md.stg2SentCount
  missing : v.receiver = .running → v.md.stg2RecvCount < e

/-- The invariant of the audio side. -/
structure AudioInv (v : AudioView ρ) : Prop extends Buffered v where
  notFailed : v.receiver ≠ .failed
  count : v.receiver = .running → v.md.stg2RecvCount + v.pending = v.md.stg2SentCount
  unmarked : v.receiver = .running → v.done = false ∧ ∀ b ∈ v.flags, b = false
  marked : v.receiver = .returned → v.done = true ∨ true ∈ v.flags
  opened : v.md.totalVocoderExpected = none → AudioOpen v
  closing : ∀ e, v.md.totalVocoderExpected = some e → AudioClosing v e

omit [Zero ρ] in
lemma stopAfterRow_append {handled : List (TalkerResult ρ)} (h : StopAfterRow handled)
    (more : List (TalkerResult ρ)) : StopAfterRow (handled ++ more) := by
  obtain ⟨pre, r, post, rfl, hstop, hrow⟩ := h
  exact ⟨pre, r, post ++ more, by simp, hstop, hrow⟩

omit [Zero ρ] in
/-- One more result makes the condition true only if it carries the stop token and finds a row. -/
lemma stopAfterRow_append_singleton {handled : List (TalkerResult ρ)} {r : TalkerResult ρ}
    (h : StopAfterRow (handled ++ [r])) :
    StopAfterRow handled ∨
      r.isStop = true ∧ (handled ++ [r]).flatMap TalkerResult.rows ≠ [] := by
  obtain ⟨pre, r', post, heq, hstop, hrow⟩ := h
  rcases eq_nil_or_concat post with rfl | ⟨post, last, rfl⟩
  · obtain ⟨rfl, hr⟩ := append_inj' heq rfl
    obtain rfl := singleton_inj.mp hr
    exact .inr ⟨hstop, hrow⟩
  · rw [concat_eq_append, ← cons_append, ← append_assoc] at heq
    obtain ⟨rfl, -⟩ := append_inj' heq rfl
    exact .inl ⟨pre, r', post, rfl, hstop, hrow⟩

section Steps

variable {v : AudioView ρ} {r : TalkerResult ρ}

/-- The audio side after `worker_1to2` has handled a result with the given outcome. -/
def AudioView.afterSend (v : AudioView ρ) (r : TalkerResult ρ) (md : TurnMetadata ρ)
    (sender : WorkerStatus) (sent : ℕ) : AudioView ρ :=
  { v with md := md, sender := sender, pending := v.pending + sent, handled := v.handled ++ [r] }

omit [Zero ρ] in
/-- A result that leaves the expected count alone keeps the invariant. -/
lemma AudioInv.afterSend (h : AudioInv v) {md : TurnMetadata ρ} {sender : WorkerStatus} {sent : ℕ}
    (hbuf : Buffered (v.afterSend r md sender sent))
    (hrecv : md.stg2RecvCount = v.md.stg2RecvCount)
    (hsent : md.stg2SentCount = v.md.stg2SentCount + sent)
    (hfinished : v.md.stg1IsFinished = true → md.stg1IsFinished = true)
    (hexpected : md.totalVocoderExpected = v.md.totalVocoderExpected)
    (hopen : AudioOpen v → AudioOpen (v.afterSend r md sender sent)) :
    AudioInv (v.afterSend r md sender sent) where
  toBuffered := hbuf
  notFailed := h.notFailed
  count hrunning := by
    have hcount := h.count hrunning
    simp only [AudioView.afterSend, hrecv, hsent]
    omega
  unmarked := h.unmarked
  marked := h.marked
  opened hnone := hopen (h.opened (hexpected ▸ hnone))
  closing e he := by
    have hold := h.closing e (hexpected ▸ he)
    exact
      { stop := stopAfterRow_append hold.stop [r]
        isFinished := hfinished hold.isFinished
        pos := hold.pos
        sent := hold.sent.trans (hsent ▸ Nat.le_add_right _ _)
        missing := fun hrunning => hrecv ▸ hold.missing hrunning }

omit [Zero ρ] in
lemma Buffered.bufferCodes (h : Buffered v) (r : TalkerResult ρ) (sender : WorkerStatus)
    (sent : ℕ) :
    Buffered (v.afterSend r (v.md.bufferCodes r) sender sent) where
  codes := by simp [AudioView.afterSend, h.codes]
  buffer := by
    simp only [AudioView.afterSend]
    rw [bufferCodes_stg1AudioBuffer_eq_nil, h.buffer, codes_bufferCodes, append_eq_nil_iff]
  ahead := by
    simp only [AudioView.afterSend, bufferCodes_stg1SentIdx, codes_bufferCodes, length_append]
    rcases h.ahead with ⟨hnil, hzero⟩ | hlt
    · rw [hnil, hzero, nil_append]
      cases r.rows with
      | nil => exact .inl ⟨rfl, rfl⟩
      | cons x xs => exact .inr (by simp)
    · exact .inr (by omega)

section

variable (h : AudioInv v) (hrows : r.rows.length ≤ 1)
include h hrows

lemma audioInv_send_of_not_stop (hstop : r.isStop = false) : AudioInv (v.send r) := by
  have hbuf := h.bufferCodes r
  have hlen : (v.md.bufferCodes r).codes.length = v.md.codes.length + r.rows.length := by simp
  have hnoStop : ¬ StopAfterRow v.handled → ¬ StopAfterRow (v.handled ++ [r]) := by
    intro hno hyes
    rcases stopAfterRow_append_singleton hyes with hold | ⟨hr, -⟩
    · exact hno hold
    · rw [hstop] at hr
      cases hr
  rcases lt_or_ge (v.md.codes ++ r.rows).length (v.md.stg1SentIdx + chunkUnit) with hlt | hge
  · -- no window is full
    have hsend : v.send r = v.afterSend r (v.md.bufferCodes r) .running 0 := by
      simp [AudioView.send, AudioView.afterSend, worker1to2_of_wait hstop hlt]
    rw [hsend]
    refine h.afterSend (hbuf _ _) (by simp) (by simp) (by simp) (by simp) ?_
    intro ho
    refine { ho with sender := rfl, noStop := hnoStop ho.noStop, unsent := ?_ }
    simp only [length_append, chunkUnit] at hlt
    simp only [AudioView.afterSend, bufferCodes_stg1SentIdx]
    omega
  · -- a full window is sent, and its last two rows stay unsent
    have hsend : v.send r = v.afterSend r (sendWindow (v.md.bufferCodes r)).md .running 1 := by
      simp [AudioView.send, AudioView.afterSend, worker1to2_of_window hstop hge, sendWindow]
    have hidx : (sendWindow (v.md.bufferCodes r)).md.stg1SentIdx = v.md.stg1SentIdx + 3 := by
      simp [sendWindow, chunkUnit, overlapSize]
    rw [hsend]
    simp only [length_append, chunkUnit] at hge
    refine h.afterSend { hbuf .running 1 with ahead := .inr ?_ } (by simp [sendWindow])
      (by simp [sendWindow]) (by simp [sendWindow]) (by simp [sendWindow]) ?_
    · simp only [AudioView.afterSend, hidx, codes_sendWindow]
      omega
    · intro ho
      refine { ho with sender := rfl, noStop := hnoStop ho.noStop, unsent := ?_ }
      have hunsent := ho.unsent
      simp only [AudioView.afterSend, hidx, codes_sendWindow]
      omega

omit hrows in
/-- The stop token without a row: nothing is sent and no count is set. -/
lemma audioInv_send_of_stop_empty (hstop : r.isStop = true)
    (hnil : (v.md.bufferCodes r).codes = []) : AudioInv (v.send r) := by
  have hbuf := h.bufferCodes r .running 0
  have hempty : (v.md.bufferCodes r).stg1AudioBuffer = [] := hbuf.buffer.mpr hnil
  have hsend : v.send r =
      v.afterSend r { v.md.bufferCodes r with stg1IsFinished := true } .running 0 := by
    simp only [AudioView.send, worker1to2_of_stop v.md hstop, sendFinal_of_empty hempty]
    rfl
  rw [hsend]
  refine h.afterSend { hbuf with } (by simp) (by simp) (by simp) (by simp) ?_
  intro ho
  refine { ho with sender := rfl, noStop := ?_, unsent := ?_ }
  · exact (congrArg length hnil).trans_le (Nat.zero_le _)
  · intro hyes
    rcases stopAfterRow_append_singleton hyes with hold | ⟨-, hrow⟩
    · exact ho.noStop hold
    · exact hrow (hbuf.codes.symm.trans hnil)

omit hrows in
/-- The stop token with a tail that fits in a window: the last window is sent and the count is
set. -/
lemma audioInv_send_of_stop_tail (hstop : r.isStop = true)
    (hpos : (v.md.bufferCodes r).stg1SentIdx < (v.md.bufferCodes r).codes.length)
    (hfit : (v.md.bufferCodes r).codes.length ≤ (v.md.bufferCodes r).stg1SentIdx + chunkUnit) :
    AudioInv (v.send r) := by
  have hbuf := h.bufferCodes r .running 1
  have hrow : (v.handled ++ [r]).flatMap TalkerResult.rows ≠ [] := by
    have hcodes : (v.md.bufferCodes r).codes = (v.handled ++ [r]).flatMap TalkerResult.rows :=
      hbuf.codes
    rw [← hcodes]
    exact ne_nil_of_length_pos (Nat.zero_lt_of_lt hpos)
  simp only [AudioView.send, worker1to2_of_stop v.md hstop, sendFinal_of_tail hpos hfit]
  refine { hbuf with
    notFailed := h.notFailed, unmarked := h.unmarked, marked := h.marked
    count := ?_, opened := ?_, closing := ?_ }
  · intro hrunning
    have hcount := h.count hrunning
    simp only [bufferCodes_stg2RecvCount, bufferCodes_stg2SentCount, Option.toList_some,
      length_singleton]
    omega
  · intro hnone
    cases hnone
  · intro e he
    cases he
    refine ⟨⟨v.handled, r, [], rfl, hstop, hrow⟩, rfl, Nat.succ_pos _, le_rfl, ?_⟩
    intro hrunning
    have hcount := h.count hrunning
    simp only [bufferCodes_stg2RecvCount, bufferCodes_stg2SentCount]
    omega

/-- The stop token with a tail that does not fit in a window, which happens only behind an earlier
stop token. -/
lemma audioInv_send_of_stop_long (hstop : r.isStop = true)
    (hlong : (v.md.bufferCodes r).stg1SentIdx + chunkUnit < (v.md.bufferCodes r).codes.length) :
    AudioInv (v.send r) := by
  have hlen : (v.md.bufferCodes r).codes.length = v.md.codes.length + r.rows.length := by simp
  have hidx := bufferCodes_stg1SentIdx v.md r
  have hsend : v.send r = v.afterSend r
      { v.md.bufferCodes r with
        stg1IsFinished := true
        lastChunkActualLen :=
          some ((v.md.bufferCodes r).codes.length - (v.md.bufferCodes r).stg1SentIdx) }
      .failed 0 := by
    simp only [AudioView.send, worker1to2_of_stop v.md hstop, sendFinal_of_long hlong]
    rfl
  rw [hsend]
  refine h.afterSend { h.bufferCodes r .failed 0 with } (by simp) (by simp) (by simp) (by simp) ?_
  intro ho
  have hunsent := ho.unsent
  unfold chunkUnit at hlong
  omega

/-- `worker_1to2` on the stop token. -/
lemma audioInv_send_of_stop (hstop : r.isStop = true) : AudioInv (v.send r) := by
  rcases (h.bufferCodes r .running 0).ahead with ⟨hnil, -⟩ | hpos
  · exact audioInv_send_of_stop_empty h hstop hnil
  · rcases le_or_gt (v.md.bufferCodes r).codes.length
      ((v.md.bufferCodes r).stg1SentIdx + chunkUnit) with hfit | hlong
    · exact audioInv_send_of_stop_tail h hstop hpos hfit
    · exact audioInv_send_of_stop_long h hrows hstop hlong

end

omit [Zero ρ] in
lemma audioInv_receive (h : AudioInv v) (hrunning : v.receiver = .running)
    (hpending : 0 < v.pending) :
    AudioInv v.receive := by
  have hcount := h.count hrunning
  obtain ⟨hwaits, hflags⟩ := h.unmarked hrunning
  have hbuf : Buffered v.receive := { h.toBuffered with }
  have hcount' : v.receive.md.stg2RecvCount + v.receive.pending = v.receive.md.stg2SentCount := by
    simp only [AudioView.receive]
    omega
  cases hexp : v.md.totalVocoderExpected with
  | none =>
    have hlast : v.lastPiece = false := by
      simp [AudioView.lastPiece, TurnMetadata.expectedCnt, hexp]
    have ho := h.opened hexp
    have hreceiver : v.receive.receiver = .running := by simp [AudioView.receive, hlast]
    refine { hbuf with
      notFailed := by simp [hreceiver], count := fun _ => hcount', unmarked := fun _ => ?_
      marked := by simp [hreceiver], opened := fun _ => ?_, closing := ?_ }
    · exact ⟨hwaits, forall_mem_append.mpr ⟨hflags, by simp [hlast]⟩⟩
    · exact { ho with receiver := hreceiver }
    · intro e he
      cases hexp.symm.trans he
  | some e =>
    have hc := h.closing e hexp
    have hlast : v.lastPiece = decide (e ≤ v.md.stg2RecvCount + 1) := by
      have hpos := hc.pos
      simp only [AudioView.lastPiece, TurnMetadata.expectedCnt, hexp, hc.isFinished, Option.elim]
      rw [Bool.eq_iff_iff]
      simp
      omega
    by_cases hle : e ≤ v.md.stg2RecvCount + 1
    · -- the last expected window
      have hreceiver : v.receive.receiver = .returned := by simp [AudioView.receive, hlast, hle]
      refine { hbuf with
        notFailed := by simp [hreceiver], count := by simp [hreceiver]
        unmarked := by simp [hreceiver], marked := fun _ => .inr ?_, opened := ?_, closing := ?_ }
      · simp [AudioView.receive, hlast, hle]
      · intro hnone
        cases hexp.symm.trans hnone
      · intro e' he'
        cases hexp.symm.trans he'
        exact { hc with missing := by simp [hreceiver] }
    · have hreceiver : v.receive.receiver = .running := by simp [AudioView.receive, hlast, hle]
      refine { hbuf with
        notFailed := by simp [hreceiver], count := fun _ => hcount', unmarked := fun _ => ?_
        marked := by simp [hreceiver], opened := ?_, closing := ?_ }
      · exact ⟨hwaits, forall_mem_append.mpr ⟨hflags, by simp [hlast, hle]⟩⟩
      · intro hnone
        cases hexp.symm.trans hnone
      · intro e' he'
        cases hexp.symm.trans he'
        exact { hc with missing := fun _ => Nat.lt_of_not_le hle }

omit [Zero ρ] in
/-- The generator takes a piece. -/
lemma audioInv_take (h : AudioInv v) {b : Bool} {rest : List Bool} (hdone : v.done = false)
    (hflags : v.flags = b :: rest) : AudioInv { v with flags := rest, done := b } := by
  refine { h with
    toBuffered := { h.toBuffered with }, unmarked := ?_, marked := ?_
    opened := fun hnone => { h.opened hnone with }
    closing := fun e he => { h.closing e he with } }
  · intro hrunning
    have hold := (h.unmarked hrunning).2
    rw [hflags, forall_mem_cons] at hold
    exact hold
  · intro hreturned
    have hold := h.marked hreturned
    rw [hdone, hflags, mem_cons] at hold
    rcases hold with hold | hold | hold
    · cases hold
    · exact .inl hold.symm
    · exact .inr hold

lemma audioInv_step {v' : AudioView ρ} (h : AudioInv v) (hstep : AudioStep v v') : AudioInv v' := by
  obtain rfl | ⟨r, hrows, -, rfl⟩ | ⟨hrunning, hpending, rfl⟩ | ⟨b, rest, hdone, hflags, rfl⟩ :=
    hstep
  · exact h
  · cases hstop : r.isStop with
    | true => exact audioInv_send_of_stop h hrows hstop
    | false => exact audioInv_send_of_not_stop h hrows hstop
  · exact audioInv_receive h hrunning hpending
  · exact audioInv_take h hdone hflags

end Steps

/-! ## Nothing is left to happen -/

/-- Every task is answered or flushed, every answer processed, the relay at rest, the queues
empty. -/
@[mk_iff]
structure Quiescent (s : TurnRun ε ρ) : Prop where
  thinkerLeft : s.thinkerLeft = []
  talkerQueue : s.talkerQueue = []
  talkerTaken : s.talkerTaken = []
  vocoderTasks : s.vocoderTasks = []
  reqQueue : s.reqQueue = []
  stage0Queue : s.stage0Queue = []
  stage1Queue : s.stage1Queue = []
  stage2Queue : s.stage2Queue = []
  ready : s.relay.ready = []
  finalQueue : s.finalQueue = []

instance (s : TurnRun ε ρ) : Decidable (Quiescent s) := decidable_of_iff' _ (quiescent_iff s)

instance : DecidablePred (TurnAct.Regular (ρ := ρ)) := fun a => by
  unfold TurnAct.Regular
  split <;> infer_instance

lemma audioInv_of_run {thinker : List (ThinkerResult ε)} {acts : List (TurnAct ρ)}
    (hregular : ∀ a ∈ acts, a.Regular)
    (hrun : run (turnStep puts) { thinkerLeft := thinker } acts = some s) :
    AudioInv s.audioView := by
  have hnever : ¬ StopAfterRow ({ thinkerLeft := thinker } : TurnRun ε ρ).audioView.handled := by
    rintro ⟨pre, r, post, heq, -⟩
    simp [TurnRun.audioView] at heq
  have hinit : AudioInv ({ thinkerLeft := thinker } : TurnRun ε ρ).audioView :=
    { codes := rfl, buffer := by simp [TurnRun.audioView, TurnMetadata.codes]
      ahead := .inl ⟨rfl, rfl⟩, notFailed := by simp [TurnRun.audioView], count := fun _ => rfl
      unmarked := by simp [TurnRun.audioView], marked := by simp [TurnRun.audioView]
      opened := fun _ => ⟨rfl, rfl, by simp [TurnRun.audioView, TurnMetadata.codes], hnever⟩
      closing := by simp [TurnRun.audioView] }
  have hguard : AllSteps (turnStep puts) (fun _ a => a.Regular)
      ({ thinkerLeft := thinker } : TurnRun ε ρ) acts := allSteps_of_forall_mem hregular
  have hboth : MsgsRegular s ∧ AudioInv s.audioView := by
    refine run_invariant_of_allSteps (I := fun s => MsgsRegular s ∧ AudioInv s.audioView) ?_
      ⟨?_, hinit⟩ hguard hrun
    · rintro s a s' ⟨hmsgs, hinv⟩ hact hstep
      exact ⟨msgsRegular_step hmsgs hact hstep,
        audioInv_step hinv (audioStep_of_step hmsgs hact hstep)⟩
    · exact ⟨by simp, by simp, by simp, by simp⟩
  exact hboth.2

/-- In a turn without errors and refused puts, when nothing is left to happen the generator has
ended iff the talker has answered with a stop token after its first row. -/
theorem quiescent_done_iff_stopAfterRow {thinker : List (ThinkerResult ε)}
    {acts : List (TurnAct ρ)} (hregular : ∀ a ∈ acts, a.Regular)
    (hrun : run (turnStep fun _ => true) { thinkerLeft := thinker } acts = some s)
    (hquiet : Quiescent s) : s.done = true ↔ StopAfterRow s.handled := by
  have hinv := audioInv_of_run hregular hrun
  have hpending : s.audioView.pending = 0 := by
    simp [TurnRun.audioView, hquiet.vocoderTasks, hquiet.reqQueue, hquiet.stage2Queue]
  have hflags : s.audioView.flags = [] := by simp [TurnRun.audioView, hquiet.finalQueue]
  cases hexp : s.audioView.md.totalVocoderExpected with
  | none =>
    have ho := hinv.opened hexp
    have hwaits : s.done = false := (hinv.unmarked ho.receiver).1
    exact iff_of_false (by simp [hwaits]) ho.noStop
  | some e =>
    have hc := hinv.closing e hexp
    refine iff_of_true ?_ hc.stop
    cases hreceiver : s.audioView.receiver with
    | running =>
      have hmissing := hc.missing hreceiver
      have hcount := hinv.count hreceiver
      have hsent := hc.sent
      omega
    | returned =>
      rcases hinv.marked hreceiver with hdone | hmem
      · exact hdone
      · rw [hflags] at hmem
        cases hmem
    | failed => exact absurd hreceiver hinv.notFailed

/-- What the talker answers to task `k`: a row for the prefill, and task `stop` gets the stop
token. -/
def talkerAnswer (stop k : ℕ) : TalkerResult ℕ :=
  ⟨k, [if k = stop then 2150 else 7], if k = 0 then some [5] else none⟩

/-- A reply of three tokens: the prefill, a row, the marker and all pads go out, and the talker
answers each of these `153` tasks. -/
def answeredTurn (stop : ℕ) : List (TurnAct ℕ) :=
  [.thinker, .thinker, .route, .route, .work0, .work0] ++
    ((range 153).flatMap fun k =>
      (if 3 ≤ k then [.tick] else []) ++
        [.talkerTake, .talker (talkerAnswer stop k), .route, .work1 true]) ++ [.tick]

/-- The stop token comes with a pad; the one window is answered and the generator takes the
outputs. -/
def stoppedTurn : List (TurnAct ℕ) :=
  answeredTurn 20 ++ [.vocoder 0, .route, .work2, .consume, .consume, .consume]

/-- With a stop token among the pads, nothing is left to happen and the generator has ended. -/
theorem quiescent_done_stoppedTurn :
    ∃ s : TurnRun ℕ ℕ,
      run (turnStep fun _ => true) { thinkerLeft := [shortResult 2 false, shortResult 3 true] }
        stoppedTurn = some s ∧ Quiescent s ∧ s.done = true := by
  obtain ⟨s, hrun, hquiet, hhandled⟩ : ∃ s : TurnRun ℕ ℕ,
      run (turnStep fun _ => true) { thinkerLeft := [shortResult 2 false, shortResult 3 true] }
        stoppedTurn = some s ∧ Quiescent s ∧
      s.handled = (range 20).map (talkerAnswer 20) ++ talkerAnswer 20 20 ::
        (range' 21 132).map (talkerAnswer 20) := exists_reached (by decide +kernel)
  refine ⟨s, hrun, hquiet,
    (quiescent_done_iff_stopAfterRow (by decide +kernel) hrun hquiet).mpr ?_⟩
  exact ⟨_, _, _, hhandled, rfl, by decide⟩

/-- No task of the reply is answered with the stop token. -/
def paddedTurn : List (TurnAct ℕ) := answeredTurn 153 ++ [.consume, .consume]

/-- Without a stop token nothing is left to happen and the generator waits. -/
theorem quiescent_waits_paddedTurn :
    (∀ a ∈ paddedTurn, a.Regular) ∧
      ∃ s : TurnRun ℕ ℕ,
        run (turnStep fun _ => true) { thinkerLeft := [shortResult 2 false, shortResult 3 true] }
          paddedTurn = some s ∧ Quiescent s ∧ s.done = false :=
  ⟨by decide +kernel, exists_reached (by decide +kernel)⟩

end OmniStreaming
