import OmniStreaming.Duplex.TokenRelay

/-!
# The token relay is exactly-once and in order

A turn's thinker results are cumulative: the result of length `g` carries the embedding rows `0,
..., P + g - 2`, where `P` is the length of the prompt, and only the last result is finished. If the
lengths strictly increase, the tasks that reach the talker are the prefill, the rows `P + 1, P + 2,
...` one by one, the end-of-text marker and the pads. Two things can break this: a reply of fewer
than two tokens never gets a marker, and a position that reaches the initial value `10000` of the
target is not cut out of the tensor.

The phases of the relay are the invariant: waiting for the prefill, relaying one row per result,
flushing the backlog, padding.
-/

namespace OmniStreaming

open List Slices Transition

variable {ε : Type*}

/-! ## Thinker turns -/

/-- The prompt ends with the header of the assistant's message, which is the third message. -/
def ChatPrompt (prompt : List ℕ) : Prop :=
  ∃ pre, prompt = pre ++ [imStartTokenId, assistantTokenId, 198] ∧ pre.count imStartTokenId = 2

/-- The rows `0, ..., n - 1` of an embedding sequence. -/
def embedRows (emb : ℕ → ε) (n : ℕ) : List (EmbRow ε) :=
  (range n).map fun i => { row := emb i }

/-- The results of a turn: cumulative outputs for one prompt, the last one finished. -/
structure ThinkerTurn (emb : ℕ → ε) (prompt : List ℕ) (results : List (ThinkerResult ε)) :
    Prop where
  chat : ChatPrompt prompt
  prompt_eq : ∀ r ∈ results, r.promptTokenIds = prompt
  embeds_eq : ∀ r ∈ results,
    r.mm.embeds = embedRows emb (prompt.length + r.tokenIds.length - 1)
  finished_last : ∃ init last, results = init ++ [last] ∧ last.finished = true ∧
    ∀ r ∈ init, r.finished = false

variable (results : List (ThinkerResult ε))

/-- The generated lengths of the results of a turn. -/
def genLens : List ℕ := results.map fun r => r.tokenIds.length

/-- The generated length of the final result. -/
def finalLen : ℕ := (genLens results).getLast?.getD 0

/-- The generated length of the result that becomes the prefill. -/
def prefillLen : ℕ :=
  ((genLens results).find? (2 ≤ ·)).getD 0

/-- The number of non-final results behind the one that becomes the prefill. -/
def relayedResults : ℕ :=
  ((genLens results).filter (2 ≤ ·)).length - 2

variable {prompt : List ℕ} {r : ThinkerResult ε} {emb : ℕ → ε}
  {results rest : List (ThinkerResult ε)}

/-- The third message of a chat prompt starts three tokens before its end. -/
lemma imStartIndexes_of_chat (h : ChatPrompt prompt) :
    ∃ i j, imStartIndexes prompt = [i, j, prompt.length - 3] ∧ 3 ≤ prompt.length := by
  obtain ⟨pre, rfl, hcount⟩ := h
  have hlen : (imStartIndexes pre).length = 2 := by
    rw [imStartIndexes, length_findIdxs]
    exact hcount
  obtain ⟨i, j, hij⟩ := length_eq_two.mp hlen
  refine ⟨i, j, ?_, by simp⟩
  have htail : findIdxs (· == imStartTokenId) [imStartTokenId, assistantTokenId, 198]
      (0 + pre.length) = [pre.length] := by
    simp [imStartTokenId, assistantTokenId]
  rw [imStartIndexes, findIdxs_append, htail]
  rw [imStartIndexes] at hij
  simp [hij]

lemma wellRoled_of_chat (h : ChatPrompt prompt) : WellRoled prompt := by
  obtain ⟨pre, rfl, -⟩ := h
  intro s hs
  obtain ⟨hlt, hget⟩ := mem_findIdxs_iff_exists_getElem_pos.mp hs
  by_contra hge
  -- only the last token could stand there, and it is not a message start
  have hlast : s = pre.length + 2 := by
    simp at hlt hge
    omega
  subst hlast
  simp [imStartTokenId] at hget

lemma computeBaseNum_of_chat (h : ChatPrompt r.promptTokenIds) :
    computeBaseNum r = some r.promptTokenIds.length := by
  obtain ⟨i, j, him, hlen⟩ := imStartIndexes_of_chat h
  simp only [computeBaseNum, him]
  simp
  omega

@[simp] lemma length_embedRows (emb : ℕ → ε) (n : ℕ) : (embedRows emb n).length = n := by
  simp [embedRows]

/-- A slice of one embedding row. -/
lemma slice_embedRows (emb : ℕ → ε) {n p : ℕ} (h : p < n) :
    slice (embedRows emb n) p (p + 1) = [{ row := emb p }] := by
  rw [slice_succ_eq_singleton (by simpa using h)]
  simp [embedRows]

section

variable (h : ThinkerTurn emb prompt results)
include h

/-- In a turn exactly the last result is finished. -/
lemma ThinkerTurn.finished_iff (hsuf : r :: rest <:+ results) : r.finished = true ↔ rest = [] := by
  obtain ⟨init, last, rfl, hlast, hinit⟩ := h.finished_last
  obtain ⟨pre, hpre⟩ := hsuf
  rcases eq_nil_or_concat rest with rfl | ⟨mid, z, rfl⟩
  · have hz := (append_inj' hpre rfl).2
    simp only [cons.injEq, and_true] at hz
    simp [hz, hlast]
  · have hsplit : pre ++ r :: mid = init ∧ [z] = [last] := by
      rw [concat_eq_append, ← cons_append, ← append_assoc] at hpre
      exact append_inj' hpre rfl
    have hmem : r ∈ init := by simp [← hsplit.1]
    simp [hinit r hmem]

/-- A result with others behind it is not finished. -/
lemma ThinkerTurn.finished_eq_false (hsuf : r :: rest <:+ results) (hmore : rest ≠ []) :
    r.finished = false := by
  rw [Bool.eq_false_iff, Ne, h.finished_iff hsuf]
  exact hmore

lemma ThinkerTurn.wellRoled (hr : r ∈ results) : WellRoled r.promptTokenIds := by
  rw [h.prompt_eq r hr]
  exact wellRoled_of_chat h.chat

lemma ThinkerTurn.computeBaseNum (hr : r ∈ results) :
    OmniStreaming.computeBaseNum r = some prompt.length := by
  have hp := h.prompt_eq r hr
  rw [computeBaseNum_of_chat (by rw [hp]; exact h.chat), hp]

end

/-! ## Exact sequences of tasks -/

/-- The embeddings of task `i`: the prefill, then rows behind the prompt, the marker, then pads. -/
def RelayPayload (emb : ℕ → ε) (P g₀ G i : ℕ) (payload : List (EmbRow ε)) : Prop :=
  if i = 0 then payload = embedRows emb (P + g₀ - 1)
  else if i + 2 ≤ G then payload = [{ row := emb (P + i) }]
  else if i + 1 = G then ∃ x, payload = [{ row := x, stamp := some 999 }]
  else ∃ x, payload = [{ row := x, stamp := some (-999) }]

/-- Tasks `0, ..., c - 1` have been submitted once each, in order, with embeddings that are `ok`. -/
structure SentExactly (ok : ℕ → List (EmbRow ε) → Prop) (st : RelayState ε) (c : ℕ) : Prop where
  chunkSeq : st.chunkSeq = c
  length : st.submitted.length = c
  task : ∀ i t, st.submitted[i]? = some t → t.seq = i ∧ ok i t.input.thinkerEmbeddings

variable {ok : ℕ → List (EmbRow ε) → Prop}

/-- One more task in order. -/
lemma SentExactly.snoc {st st' : RelayState ε} {c : ℕ} {payload : List (EmbRow ε)}
    (h : SentExactly ok st c) (hsent : SentTask st st' c payload) (hok : ok c payload) :
    SentExactly ok st' (c + 1) := by
  obtain ⟨input, hin, hsub⟩ := hsent.submitted
  refine ⟨by rw [hsent.chunkSeq, h.chunkSeq], by simp [hsub, h.length], fun i t ht => ?_⟩
  rw [hsub] at ht
  rcases lt_or_ge i st.submitted.length with hi | hi
  · rw [getElem?_append_left hi] at ht
    exact h.task i t ht
  · have hc : i = c := by
      have hlt := (List.getElem?_eq_some_iff.mp ht).1
      have hlen := h.length
      simp only [length_append, length_singleton] at hlt
      omega
    subst hc
    rw [getElem?_append_right hi, h.length, Nat.sub_self, getElem?_cons_zero,
      Option.some.injEq] at ht
    subst ht
    exact ⟨rfl, hin ▸ hok⟩

/-! ## The phases of the relay -/

section Phases

variable (emb : ℕ → ε) (P g₀ G : ℕ)

/-- At the head of the flush loop: the next task number and the loop value advance together. -/
structure FlushHead (st : RelayState ε) (pos : ℕ) : Prop where
  sent : ∃ c, pos = P + c ∧ 1 ≤ c ∧ c + 1 ≤ G ∧ SentExactly (RelayPayload emb P g₀ G) st c
  target : st.stage1TargetCnt = P + G
  lastEmbeds : st.lastEmbeds = embedRows emb (P + G - 1)
  current : ∃ r, st.current = some r ∧ WellRoled r.promptTokenIds
  padRow : st.padEmbeds = none ∨ ∃ e, st.padEmbeds = some [e]

/-- After the marker, with `left` pads still to send. -/
structure PadsLeft (st : RelayState ε) (left : ℕ) : Prop where
  sent : ∃ c, c + left = G + padBurst ∧ 1 ≤ c ∧ G ≤ c ∧ SentExactly (RelayPayload emb P g₀ G) st c
  current : ∃ r, st.current = some r ∧ WellRoled r.promptTokenIds
  padRow : ∃ e, st.padEmbeds = some [e]

variable {emb P g₀ G}

lemma sentExactly_sendStamped {puts : ℕ → Bool} (hputs : ∀ i, puts i = true)
    {st st' : RelayState ε} {e : EmbRow ε} {c : ℕ} {v : ℤ} (hsent : SentExactly ok st c)
    (hcur : ∃ r, st.current = some r ∧ WellRoled r.promptTokenIds)
    (hpad : st.padEmbeds = some [e]) (hok : ok c [{ e with stamp := some v }])
    (h : st.sendStamped puts v = some st') :
    SentExactly ok st' (c + 1) ∧ (∃ r, st'.current = some r ∧ WellRoled r.promptTokenIds) ∧
      ∃ e', st'.padEmbeds = some [e'] := by
  obtain ⟨st'', hst, htask, hpad'⟩ := sendStamped_sent hputs hcur hpad v
  cases hst.symm.trans h
  rw [hsent.chunkSeq] at htask
  exact ⟨hsent.snoc htask hok, htask.current, _, hpad'⟩

/-- The flush loop and the pads keep the tasks exact. -/
lemma flushRule_exact {puts : ℕ → Bool} (hputs : ∀ i, puts i = true) :
    FlushRule puts (FlushHead emb P g₀ G) (PadsLeft emb P g₀ G) where
  setSentIdx := by
    rintro st pos x ⟨⟨c, hpos, h1, h2, hs⟩, htarget, hlast, hcur, hpad⟩
    exact ⟨⟨c, hpos, h1, h2, ⟨hs.chunkSeq, hs.length, hs.task⟩⟩, htarget, hlast, hcur, hpad⟩
  send := by
    rintro st pos ⟨⟨c, rfl, h1, h2, hs⟩, htarget, hlast, hcur, hpad⟩ hmore
    obtain ⟨st', hst, htask, hpad'⟩ := processAndSend_sent hputs hcur st.chunkSeq (P + c)
    have hrow : RelayPayload emb P g₀ G c (slice st.lastEmbeds (P + c) (P + c + 1)) := by
      rw [hlast, slice_embedRows emb (by omega), RelayPayload, if_neg (by omega),
        if_pos (by omega)]
    rw [hs.chunkSeq] at htask hst
    refine ⟨st', by rw [hs.chunkSeq]; exact hst, ?_⟩
    exact
      { sent := ⟨c + 1, rfl, by omega, by omega, hs.snoc htask hrow⟩
        target := htask.target.trans htarget
        lastEmbeds := htask.lastEmbeds.trans hlast
        current := htask.current
        padRow := by rw [hpad']; exact hpad }
  mark := by
    rintro st pos st' x ⟨⟨c, rfl, h1, h2, hs⟩, htarget, hlast, hcur, hpad⟩ hend hmark
    rcases hpad with hnone | ⟨e, he⟩
    · rw [sendStamped_of_no_row puts 999 (.inl hnone)] at hmark
      cases hmark
    · have hlastTask : c + 1 = G := by omega
      have hok : RelayPayload emb P g₀ G c [{ e with stamp := some 999 }] := by
        rw [RelayPayload, if_neg (by omega), if_neg (by omega), if_pos hlastTask]
        exact ⟨e.row, rfl⟩
      obtain ⟨hs', hcur', hpad'⟩ := sentExactly_sendStamped hputs hs hcur he hok hmark
      refine ⟨⟨c + 1, by omega, by omega, by omega, ?_⟩, hcur', hpad'⟩
      exact ⟨hs'.chunkSeq, hs'.length, hs'.task⟩
  pad := by
    rintro st left ⟨⟨c, hc, h1, hG, hs⟩, hcur, ⟨e, he⟩⟩
    obtain ⟨st', hst, -, -⟩ := sendStamped_sent hputs hcur he (-999)
    have hok : RelayPayload emb P g₀ G c [{ e with stamp := some (-999) }] := by
      rw [RelayPayload, if_neg (by omega), if_neg (by omega), if_neg (by omega)]
      exact ⟨e.row, rfl⟩
    obtain ⟨hs', hcur', hpad'⟩ := sentExactly_sendStamped hputs hs hcur he hok hst
    exact ⟨st', hst, ⟨c + 1, by omega, by omega, by omega, hs'⟩, hcur', hpad'⟩

end Phases

/-- The loop rests between two results: no coroutine is ready, and the worker awaits its queue. -/
structure Resting (l : RelayLoop ε) : Prop where
  ready : l.ready = []
  idle : l.idle = true
  raised : l.raised = false

/-- No result has reached two tokens yet. -/
structure WaitPhase (prompt : List ℕ) (results : List (ThinkerResult ε)) (l : RelayLoop ε) :
    Prop where
  rest : Resting l
  suffix : l.inbox <:+ results
  nonempty : l.inbox ≠ []
  prefillLen_eq : prefillLen l.inbox = prefillLen results
  relayed_eq : relayedResults l.inbox = relayedResults results
  notPrefilled : l.st.isStg1Prefilled = false
  base : l.st.stg0SentIdx = none ∨ l.st.stg0SentIdx = some 0 ∧ l.st.baseNum = prompt.length
  target : l.st.stage1TargetCnt = 10000
  noPad : l.st.padEmbeds = none
  fresh : l.st.chunkSeq = 0 ∧ l.st.submitted = []

variable {l : RelayLoop ε}

lemma WaitPhase.standsAt (h : WaitPhase prompt results l) (hturn : ThinkerTurn emb prompt results)
    (hmem : r ∈ results) :
    l.st.StandsAt r prompt.length 0 :=
  h.base.imp (fun hnone => ⟨hnone, rfl, hturn.computeBaseNum hmem⟩) id

/-- The prefill and `k` rows have gone out. -/
structure RowPhase (emb : ℕ → ε) (prompt : List ℕ) (results : List (ThinkerResult ε)) (k : ℕ)
    (l : RelayLoop ε) : Prop where
  rest : Resting l
  suffix : l.inbox <:+ results
  count : k + l.inbox.length = relayedResults results + 1
  nonempty : l.inbox ≠ []
  lens : ∀ r ∈ l.inbox, k + 3 ≤ r.tokenIds.length
  prefilled : l.st.isStg1Prefilled = true
  sentIdx : l.st.stg0SentIdx = some k
  base : l.st.baseNum = prompt.length
  target : l.st.stage1TargetCnt = 10000
  padRow : l.st.padEmbeds = if k = 0 then none else some [{ row := emb (prompt.length + 1) }]
  sent : SentExactly (RelayPayload emb prompt.length (prefillLen results) (finalLen results))
    l.st (k + 1)
  nextInputs : ∃ input, l.st.nextInputs = some input ∧
    RelayPayload emb prompt.length (prefillLen results) (finalLen results) k
      input.thinkerEmbeddings

/-! ## One result at a time -/

lemma genLens_cons (r : ThinkerResult ε) (rest : List (ThinkerResult ε)) :
    genLens (r :: rest) = r.tokenIds.length :: genLens rest := rfl

/-- The final length is that of the results still to come, as long as there are any. -/
lemma finalLen_of_suffix (hsuf : rest <:+ results) (h : rest ≠ []) :
    finalLen rest = finalLen results := by
  obtain ⟨pre, rfl⟩ := hsuf
  have hne : genLens rest ≠ [] := by simpa [genLens] using h
  have happ : genLens (pre ++ rest) = genLens pre ++ genLens rest := by simp [genLens]
  rw [finalLen, finalLen, happ, getLast?_append_of_ne_nil _ hne]

@[simp] lemma finalLen_singleton (r : ThinkerResult ε) : finalLen [r] = r.tokenIds.length := rfl

lemma exists_finalLen (h : rest ≠ []) : ∃ r ∈ rest, r.tokenIds.length = finalLen rest := by
  obtain ⟨init, last, rfl⟩ := (eq_nil_or_concat rest).resolve_left h
  exact ⟨last, by simp, by simp [finalLen, genLens]⟩

/-- Results that are too short for the prefill do not count. -/
lemma prefillLen_cons_of_lt (rest : List (ThinkerResult ε)) (h : r.tokenIds.length < 2) :
    prefillLen (r :: rest) = prefillLen rest := by
  rw [prefillLen, genLens_cons, find?_cons_of_neg (by simpa using h), prefillLen]

/-- The first result that is long enough is the prefill. -/
lemma prefillLen_cons_of_le (rest : List (ThinkerResult ε)) (h : 2 ≤ r.tokenIds.length) :
    prefillLen (r :: rest) = r.tokenIds.length := by
  rw [prefillLen, genLens_cons, find?_cons_of_pos (by simpa using h), Option.getD_some]

/-- A short result relays nothing. -/
lemma relayedResults_cons_of_lt (rest : List (ThinkerResult ε)) (h : r.tokenIds.length < 2) :
    relayedResults (r :: rest) = relayedResults rest := by
  rw [relayedResults, genLens_cons, filter_cons_of_neg (by simpa using h), relayedResults]

/-- Behind the prefill every result but the final one relays a row. -/
lemma relayedResults_cons_of_le (h : 2 ≤ r.tokenIds.length)
    (hrest : ∀ r' ∈ rest, 2 ≤ r'.tokenIds.length) :
    relayedResults (r :: rest) = rest.length - 1 := by
  have hall : (genLens rest).filter (2 ≤ ·) = genLens rest := by
    rw [filter_eq_self]
    intro n hn
    obtain ⟨r', hr', rfl⟩ := mem_map.mp hn
    simpa using hrest r' hr'
  rw [relayedResults, genLens_cons, filter_cons_of_pos (by simpa using h), hall]
  simp [genLens]

section Steps

variable {l : RelayLoop ε} {st' : RelayState ε} {puts : ℕ → Bool} {k x y : ℕ}

/-- Where the lengths of a turn are related in order, a result is related to those behind it. -/
lemma genLens_rel {R : ℕ → ℕ → Prop} (hlens : (genLens results).Pairwise R)
    (hsuf : r :: rest <:+ results) {r' : ThinkerResult ε} (hr' : r' ∈ rest) :
    R r.tokenIds.length r'.tokenIds.length := by
  have hpair : (genLens (r :: rest)).Pairwise R := hlens.sublist (hsuf.sublist.map _)
  rw [genLens_cons, pairwise_cons] at hpair
  exact hpair.1 _ (mem_map_of_mem hr')

lemma ThinkerTurn.final (hturn : ThinkerTurn emb prompt results) (hsuf : [r] <:+ results) :
    r ∈ results ∧ r.finished = true ∧ finalLen results = r.tokenIds.length :=
  ⟨hsuf.subset mem_cons_self, (hturn.finished_iff hsuf).mpr rfl,
    by rw [← finalLen_of_suffix hsuf (cons_ne_nil r []), finalLen_singleton]⟩

/-- The state `st'` after a result has sent one task, `x` rows having been relayed then. -/
structure Forwarded (puts : ℕ → Bool) (prompt : List ℕ) (rest : List (ThinkerResult ε))
    (r : ThinkerResult ε) (l : RelayLoop ε) (st' : RelayState ε) (x : ℕ) : Prop where
  recv : RelayLoop.recvResult puts { l with inbox := rest } r =
    if r.finished then
      RelayLoop.resumeFlush puts { l with inbox := rest, st := st' } (prompt.length + x + 1) x
    else { l with inbox := rest, st := st' }
  prefilled : st'.isStg1Prefilled = true
  sentIdx : st'.stg0SentIdx = some x
  base : st'.baseNum = prompt.length
  target : st'.stage1TargetCnt = (l.st.prepared r prompt.length x).stage1TargetCnt
  lastEmbeds : st'.lastEmbeds = (l.st.prepared r prompt.length x).lastEmbeds
  current : ∃ r', st'.current = some r' ∧ WellRoled r'.promptTokenIds

/-- A result with enough tokens forwards what `toss` sends. -/
lemma forwarded_of_toss {seq : ℕ} {payload : List (EmbRow ε)}
    (hbase : l.st.StandsAt r prompt.length x)
    (henough : x + (if l.st.isStg1Prefilled then 1 else 2) ≤ r.tokenIds.length)
    (htoss : (l.st.prepared r prompt.length x).toss puts r x = some st')
    (htask : SentTask (l.st.prepared r prompt.length x) st' seq payload)
    (hpre : st'.isStg1Prefilled = true) (hidx : st'.stg0SentIdx = some y) :
    Forwarded puts prompt rest r l st' y := by
  have hbase' : st'.baseNum = prompt.length := htask.baseNum
  refine ⟨?_, hpre, hidx, hbase', htask.target, htask.lastEmbeds, htask.current⟩
  rw [recvResult_of_toss (l := { l with inbox := rest }) hbase henough htoss, hbase', hidx,
    Option.getD_some]

lemma Forwarded.target_eq (h : Forwarded puts prompt rest r l st' x) (hunfin : r.finished = false)
    (htarget : l.st.stage1TargetCnt = 10000) : st'.stage1TargetCnt = 10000 := by
  rw [h.target]
  simpa [RelayState.prepared, hunfin] using htarget

section Sends

variable (hputs : ∀ i, puts i = true) (hturn : ThinkerTurn emb prompt results)
include hturn

/-- A short result that is not the final one leaves the relay waiting. -/
lemma waitPhase_recv_short (h : WaitPhase prompt results l) (hin : l.inbox = r :: rest)
    (hshort : r.tokenIds.length < 2) (hmore : rest ≠ []) :
    WaitPhase prompt results (RelayLoop.recvResult puts { l with inbox := rest } r) := by
  have hsuf : r :: rest <:+ results := hin ▸ h.suffix
  have hmem : r ∈ results := hsuf.subset mem_cons_self
  have hunfin : r.finished = false := hturn.finished_eq_false hsuf hmore
  have hbase : l.st.StandsAt r prompt.length 0 := h.standsAt hturn hmem
  have hfew : r.tokenIds.length < 0 + (if l.st.isStg1Prefilled then 1 else 2) := by
    simpa [h.notPrefilled] using hshort
  rw [recvResult_of_few (l := { l with inbox := rest }) hbase hfew]
  exact
    { rest := ⟨h.rest.ready, h.rest.idle, h.rest.raised⟩
      suffix := (suffix_cons r rest).trans hsuf
      nonempty := hmore
      prefillLen_eq := by rw [← h.prefillLen_eq, hin, prefillLen_cons_of_lt rest hshort]
      relayed_eq := by rw [← h.relayed_eq, hin, relayedResults_cons_of_lt rest hshort]
      notPrefilled := h.notPrefilled
      base := .inr ⟨rfl, rfl⟩
      target := by simpa [RelayState.prepared, hunfin] using h.target
      noPad := h.noPad
      fresh := h.fresh }

include hputs

lemma waitPhase_prefill (h : WaitPhase prompt results l) (hin : l.inbox = r :: rest)
    (hlong : 2 ≤ r.tokenIds.length) :
    ∃ st', Forwarded puts prompt rest r l st' 0 ∧
      SentExactly (RelayPayload emb prompt.length (prefillLen results) (finalLen results)) st' 1 ∧
      st'.padEmbeds = none ∧
      ∃ input, st'.nextInputs = some input ∧
        RelayPayload emb prompt.length (prefillLen results) (finalLen results) 0
          input.thinkerEmbeddings := by
  have hsuf : r :: rest <:+ results := hin ▸ h.suffix
  have hmem : r ∈ results := hsuf.subset mem_cons_self
  have henough : 0 + (if l.st.isStg1Prefilled then 1 else 2) ≤ r.tokenIds.length := by
    simpa [h.notPrefilled] using hlong
  have hfirst : (l.st.prepared r prompt.length 0).isStg1Prefilled = false := h.notPrefilled
  obtain ⟨st', htoss, htask, hpre, hidx, hpad, input, hnext, hemb⟩ :=
    toss_prefill hputs 0 hfirst (hturn.wellRoled hmem)
  have hlen : prefillLen results = r.tokenIds.length := by
    rw [← h.prefillLen_eq, hin, prefillLen_cons_of_le rest hlong]
  have hok : RelayPayload emb prompt.length (prefillLen results) (finalLen results) 0
      r.mm.embeds := by
    rw [RelayPayload, if_pos rfl, hlen, hturn.embeds_eq r hmem]
  have hnone : SentExactly (RelayPayload emb prompt.length (prefillLen results)
      (finalLen results)) (l.st.prepared r prompt.length 0) 0 :=
    ⟨h.fresh.1, by simp [RelayState.prepared, h.fresh.2],
      by simp [RelayState.prepared, h.fresh.2]⟩
  have hforwarded : Forwarded puts prompt rest r l st' 0 :=
    forwarded_of_toss (h.standsAt hturn hmem) henough htoss htask hpre hidx
  rw [hnone.chunkSeq] at htask
  exact ⟨st', hforwarded, hnone.snoc htask hok, hpad.trans h.noPad, input, hnext, hemb ▸ hok⟩

/-- A prefill that is not the final result starts the relay of rows. -/
lemma rowPhase_of_prefill (hlens : (genLens results).Pairwise (· < ·))
    (h : WaitPhase prompt results l) (hin : l.inbox = r :: rest) (hlong : 2 ≤ r.tokenIds.length)
    (hmore : rest ≠ []) :
    RowPhase emb prompt results 0 (RelayLoop.recvResult puts { l with inbox := rest } r) := by
  have hsuf : r :: rest <:+ results := hin ▸ h.suffix
  have hunfin : r.finished = false := hturn.finished_eq_false hsuf hmore
  have hlater : ∀ r' ∈ rest, 3 ≤ r'.tokenIds.length := fun r' hr' =>
    hlong.trans_lt (genLens_rel hlens hsuf hr')
  obtain ⟨st', hf, hsent, hpad, hnext⟩ := waitPhase_prefill hputs hturn h hin hlong
  rw [hf.recv, hunfin]
  exact
    { rest := ⟨h.rest.ready, h.rest.idle, h.rest.raised⟩
      suffix := (suffix_cons r rest).trans hsuf
      count := by
        have hq := relayedResults_cons_of_le hlong fun r' hr' =>
          (Nat.le_succ 2).trans (hlater r' hr')
        have hpos := length_pos_iff.mpr hmore
        rw [← h.relayed_eq, hin, hq]
        change 0 + rest.length = rest.length - 1 + 1
        omega
      nonempty := hmore
      lens := fun r' hr' => by simpa using hlater r' hr'
      prefilled := hf.prefilled
      sentIdx := hf.sentIdx
      base := hf.base
      target := hf.target_eq hunfin h.target
      padRow := hpad
      sent := hsent
      nextInputs := hnext }

/-- The final result starts the flush behind the task it has sent. -/
lemma Forwarded.flushPhase (hf : Forwarded puts prompt [] r l st' k) (hrest : Resting l)
    (hsuf : [r] <:+ results) (hk : k + 2 ≤ r.tokenIds.length)
    (hsent : SentExactly
      (RelayPayload emb prompt.length (prefillLen results) (finalLen results)) st' (k + 1))
    (hpad : st'.padEmbeds = none ∨ ∃ e, st'.padEmbeds = some [e]) :
    FlushPhase puts (FlushHead emb prompt.length (prefillLen results) (finalLen results))
      (PadsLeft emb prompt.length (prefillLen results) (finalLen results))
      (RelayLoop.recvResult puts { l with inbox := [] } r) := by
  obtain ⟨hmem, hfin, hG⟩ := hturn.final hsuf
  rw [hf.recv, hfin, if_pos rfl]
  refine flushPhase_resumeFlush (flushRule_exact hputs) k hrest.ready rfl hrest.raised ?_
  exact
    { sent := ⟨k + 1, rfl, by omega, by omega, hsent⟩
      target := by
        simp only [hf.target, RelayState.prepared, hfin, if_true, hturn.prompt_eq r hmem,
          length_append, hG]
      lastEmbeds := by
        simp only [hf.lastEmbeds, RelayState.prepared, hfin, if_true, hturn.embeds_eq r hmem, hG]
      current := hf.current
      padRow := hpad }

/-- A prefill that is the final result starts the flush, with no row stored for the marker. -/
lemma flushPhase_of_prefill (h : WaitPhase prompt results l) (hin : l.inbox = [r])
    (hlong : 2 ≤ r.tokenIds.length) :
    FlushPhase puts (FlushHead emb prompt.length (prefillLen results) (finalLen results))
      (PadsLeft emb prompt.length (prefillLen results) (finalLen results))
      (RelayLoop.recvResult puts { l with inbox := [] } r) := by
  obtain ⟨st', hf, hsent, hpad, -⟩ := waitPhase_prefill hputs hturn h hin hlong
  exact hf.flushPhase hputs hturn h.rest (hin ▸ h.suffix) (by omega) hsent (.inl hpad)

omit hputs hturn in
/-- The final result is longer than the rows relayed so far. -/
lemma RowPhase.finalLen_ge (h : RowPhase emb prompt results k l) : k + 3 ≤ finalLen results := by
  obtain ⟨r, hr, hlen⟩ := exists_finalLen h.nonempty
  rw [← finalLen_of_suffix h.suffix h.nonempty, ← hlen]
  exact h.lens r hr

/-- A result behind the prefill forwards the next row while that lies below the target. -/
lemma rowPhase_toss (h : RowPhase emb prompt results k l) (hin : l.inbox = r :: rest)
    (hcap : prompt.length + k + 1 < (l.st.prepared r prompt.length k).stage1TargetCnt) :
    ∃ st', Forwarded puts prompt rest r l st' (k + 1) ∧
      SentExactly (RelayPayload emb prompt.length (prefillLen results) (finalLen results)) st'
        (k + 2) ∧
      st'.padEmbeds = some [{ row := emb (prompt.length + 1) }] ∧
      ∃ input, st'.nextInputs = some input ∧
        RelayPayload emb prompt.length (prefillLen results) (finalLen results) (k + 1)
          input.thinkerEmbeddings := by
  have hsuf : r :: rest <:+ results := hin ▸ h.suffix
  have hmem : r ∈ results := hsuf.subset mem_cons_self
  have hlen : k + 3 ≤ r.tokenIds.length := h.lens r (by simp [hin])
  have hG := h.finalLen_ge
  have henough : k + (if l.st.isStg1Prefilled then 1 else 2) ≤ r.tokenIds.length := by
    simp only [h.prefilled, if_true]
    omega
  have hpre : (l.st.prepared r prompt.length k).isStg1Prefilled = true := h.prefilled
  obtain ⟨st', htoss, htask, hpre', hidx, hpad, input, hnext, hemb⟩ :=
    toss_row hputs hpre hcap (hturn.wellRoled hmem)
  -- the row at the current position lies inside the tensor of this result
  have hrow : slice r.mm.embeds (prompt.length + k + 1) (prompt.length + k + 2) =
      [{ row := emb (prompt.length + (k + 1)) }] := by
    rw [hturn.embeds_eq r hmem, slice_embedRows emb (by omega), Nat.add_assoc]
  have hok : RelayPayload emb prompt.length (prefillLen results) (finalLen results) (k + 1)
      (slice r.mm.embeds (prompt.length + k + 1) (prompt.length + k + 2)) := by
    rw [RelayPayload, if_neg (by omega), if_pos (by omega), hrow]
  have hsent : SentExactly (RelayPayload emb prompt.length (prefillLen results)
      (finalLen results)) (l.st.prepared r prompt.length k) (k + 1) :=
    ⟨h.sent.chunkSeq, h.sent.length, h.sent.task⟩
  have hpad' : st'.padEmbeds = some [{ row := emb (prompt.length + 1) }] := by
    have hstored : (l.st.prepared r prompt.length k).padEmbeds = l.st.padEmbeds := rfl
    rw [hpad, hstored, h.padRow]
    rcases Nat.eq_zero_or_pos k with rfl | hk
    · exact congrArg some hrow
    · simp [hk.ne']
  have hforwarded : Forwarded puts prompt rest r l st' (k + 1) :=
    forwarded_of_toss (.inr ⟨h.sentIdx, h.base⟩) henough htoss htask hpre' hidx
  rw [hsent.chunkSeq] at htask
  exact ⟨st', hforwarded, hsent.snoc htask hok, hpad', input, hnext, hemb ▸ hok⟩

/-- A non-final result behind the prefill keeps the relay of rows going. -/
lemma rowPhase_recv_row (hlens : (genLens results).Pairwise (· < ·))
    (h : RowPhase emb prompt results k l) (hin : l.inbox = r :: rest) (hmore : rest ≠ [])
    (hcap : prompt.length + k + 1 < 10000) :
    RowPhase emb prompt results (k + 1)
      (RelayLoop.recvResult puts { l with inbox := rest } r) := by
  have hsuf : r :: rest <:+ results := hin ▸ h.suffix
  have hunfin : r.finished = false := hturn.finished_eq_false hsuf hmore
  have hlen : k + 3 ≤ r.tokenIds.length := h.lens r (by simp [hin])
  have htarget : (l.st.prepared r prompt.length k).stage1TargetCnt = 10000 := by
    simpa [RelayState.prepared, hunfin] using h.target
  obtain ⟨st', hf, hsent, hpad, hnext⟩ :=
    rowPhase_toss hputs hturn h hin (by rw [htarget]; exact hcap)
  rw [hf.recv, hunfin, if_neg Bool.false_ne_true]
  exact
    { rest := ⟨h.rest.ready, h.rest.idle, h.rest.raised⟩
      suffix := (suffix_cons r rest).trans hsuf
      count := by
        have hcount := h.count
        rw [hin, length_cons] at hcount
        change k + 1 + rest.length = _
        omega
      nonempty := hmore
      lens := fun r' hr' => by
        have hlt := genLens_rel hlens hsuf hr'
        omega
      prefilled := hf.prefilled
      sentIdx := hf.sentIdx
      base := hf.base
      target := hf.target_eq hunfin h.target
      padRow := by simpa using hpad
      sent := hsent
      nextInputs := hnext }

/-- The final result forwards its row and starts the flush, with a row stored for the marker. -/
lemma flushPhase_of_row (h : RowPhase emb prompt results k l) (hin : l.inbox = [r]) :
    FlushPhase puts (FlushHead emb prompt.length (prefillLen results) (finalLen results))
      (PadsLeft emb prompt.length (prefillLen results) (finalLen results))
      (RelayLoop.recvResult puts { l with inbox := [] } r) := by
  have hsuf : [r] <:+ results := hin ▸ h.suffix
  obtain ⟨hmem, hfin, -⟩ := hturn.final hsuf
  have hlen : k + 3 ≤ r.tokenIds.length := h.lens r (by simp [hin])
  have hcap : prompt.length + k + 1 < (l.st.prepared r prompt.length k).stage1TargetCnt := by
    simp only [RelayState.prepared, hfin, if_true, hturn.prompt_eq r hmem, length_append]
    omega
  obtain ⟨st', hf, hsent, hpad, -⟩ := rowPhase_toss hputs hturn h hin hcap
  exact hf.flushPhase hputs hturn h.rest hsuf (by omega) hsent (.inr ⟨_, hpad⟩)

end Sends

/-- Where the relay of a turn stands. -/
def RelayInv (puts : ℕ → Bool) (emb : ℕ → ε) (prompt : List ℕ) (results : List (ThinkerResult ε))
    (l : RelayLoop ε) : Prop :=
  WaitPhase prompt results l ∨ (∃ k, RowPhase emb prompt results k l) ∨
    FlushPhase puts (FlushHead emb prompt.length (prefillLen results) (finalLen results))
      (PadsLeft emb prompt.length (prefillLen results) (finalLen results)) l

/-- The relay starts out waiting. -/
lemma waitPhase_start (hturn : ThinkerTurn emb prompt results) :
    WaitPhase prompt results { inbox := results } := by
  obtain ⟨init, last, hres, -⟩ := hturn.finished_last
  exact
    { rest := ⟨rfl, rfl, rfl⟩
      suffix := suffix_rfl
      nonempty := by simp [hres]
      prefillLen_eq := rfl
      relayed_eq := rfl
      notPrefilled := rfl
      base := .inl rfl
      target := rfl
      noPad := rfl
      fresh := ⟨rfl, rfl⟩ }

lemma relayInv_step {l' : RelayLoop ε} {a : RelayAct} (hputs : ∀ i, puts i = true)
    (hturn : ThinkerTurn emb prompt results) (hlens : (genLens results).Pairwise (· < ·))
    (hG : 2 ≤ finalLen results)
    (hcap : relayedResults results = 0 ∨ prompt.length + relayedResults results < 10000)
    (h : RelayInv puts emb prompt results l) (hstep : relayStep puts l a = some l') :
    RelayInv puts emb prompt results l' := by
  rcases h with hwait | ⟨k, hrow⟩ | hflush
  · rcases relayStep_cases hstep with ⟨r, rest, -, -, hin, rfl⟩ | ⟨t, rest, hready, -⟩
    · have hsuf : r :: rest <:+ results := hin ▸ hwait.suffix
      rcases eq_or_ne rest [] with rfl | hmore
      · -- the final result, which is long enough for a prefill
        have hlong : 2 ≤ r.tokenIds.length := by
          rw [← finalLen_singleton r, finalLen_of_suffix hsuf (cons_ne_nil r [])]
          exact hG
        exact .inr (.inr (flushPhase_of_prefill hputs hturn hwait hin hlong))
      · rcases lt_or_ge r.tokenIds.length 2 with hshort | hlong
        · exact .inl (waitPhase_recv_short hturn hwait hin hshort hmore)
        · exact .inr (.inl ⟨0, rowPhase_of_prefill hputs hturn hlens hwait hin hlong hmore⟩)
    · rw [hwait.rest.ready] at hready
      cases hready
  · rcases relayStep_cases hstep with ⟨r, rest, -, -, hin, rfl⟩ | ⟨t, rest, hready, -⟩
    · rcases eq_or_ne rest [] with rfl | hmore
      · exact .inr (.inr (flushPhase_of_row hputs hturn hrow hin))
      · have hcount := hrow.count
        have hpos := length_pos_iff.mpr hmore
        rw [hin, length_cons] at hcount
        have hlt : prompt.length + k + 1 < 10000 := by omega
        exact .inr (.inl ⟨k + 1, rowPhase_recv_row hputs hturn hlens hrow hin hmore hlt⟩)
    · rw [hrow.rest.ready] at hready
      cases hready
  · exact .inr (.inr (flushPhase_step (flushRule_exact hputs) hflush hstep))

end Steps

/-! ## Exactly-once relay -/

/-- Before an exception the tasks are numbered from zero without gap or repetition, and carry the
prefill, the rows behind the prompt one by one, the marker, then at most 150 pads; once the final
result is processed the marker is among them. -/
def RelayExact (puts : ℕ → Bool) (emb : ℕ → ε) (prompt : List ℕ)
    (results : List (ThinkerResult ε)) : Prop :=
  ∀ acts l, run (relayStep puts) { inbox := results } acts = some l → l.raised = false →
    (∀ i t, l.st.submitted[i]? = some t → t.seq = i ∧
      RelayPayload emb prompt.length (prefillLen results) (finalLen results) i
        t.input.thinkerEmbeddings) ∧
    l.st.submitted.length ≤ finalLen results + padBurst ∧
    (l.inbox = [] → l.idle = true →
      0 < l.st.submitted.length ∧ finalLen results ≤ l.st.submitted.length)

/-- The condition is enough: every phase of the relay has exact tasks. -/
lemma relayExact_of_cap {puts : ℕ → Bool} (hputs : ∀ i, puts i = true)
    (hturn : ThinkerTurn emb prompt results) (hlens : (genLens results).Pairwise (· < ·))
    (hG : 2 ≤ finalLen results)
    (hcap : relayedResults results = 0 ∨ prompt.length + relayedResults results < 10000) :
    RelayExact puts emb prompt results := by
  intro acts l hrun hok
  have hinv : RelayInv puts emb prompt results l :=
    run_invariant (fun _ _ _ hi hs => relayInv_step hputs hturn hlens hG hcap hi hs)
      (.inl (waitPhase_start hturn)) hrun
  rcases hinv with hwait | ⟨k, hrow⟩ | hflush
  · exact ⟨by simp [hwait.fresh.2], by simp [hwait.fresh.2],
      fun hin => absurd hin hwait.nonempty⟩
  · have hle := hrow.finalLen_ge
    refine ⟨hrow.sent.task, ?_, fun hin => absurd hin hrow.nonempty⟩
    rw [hrow.sent.length]
    omega
  · cases hflush with
    | head pos x _ _ hidle _ hinv =>
      obtain ⟨c, -, -, hc, hs⟩ := hinv.sent
      refine ⟨hs.task, by rw [hs.length]; omega, fun _ hi => ?_⟩
      rw [hidle] at hi
      cases hi
    | spawned pos x _ _ hidle _ hinv _ =>
      obtain ⟨c, -, -, hc, hs⟩ := hinv.sent
      refine ⟨hs.task, by rw [hs.length]; omega, fun _ hi => ?_⟩
      rw [hidle] at hi
      cases hi
    | padding left _ _ _ _ hinv =>
      obtain ⟨c, hc, hpos, hle, hs⟩ := hinv.sent
      exact ⟨hs.task, by rw [hs.length]; omega, fun _ _ => by rw [hs.length]; omega⟩
    | padded _ _ _ _ hinv =>
      obtain ⟨c, hc, hpos, hle, hs⟩ := hinv.sent
      exact ⟨hs.task, by rw [hs.length]; omega, fun _ _ => by rw [hs.length]; omega⟩
    | failed _ _ _ _ hraised _ _ =>
      rw [hraised] at hok
      cases hok

/-! ## The condition is needed -/

section Needed

variable {puts : ℕ → Bool}

lemma relayStep_recv (puts : ℕ → Bool) (h : Resting l) (hin : l.inbox = r :: rest) :
    relayStep puts l .recv = some (RelayLoop.recvResult puts { l with inbox := rest } r) := by
  simp [relayStep, h.raised, h.idle, hin]

/-- When no result reaches two tokens, all of them can be received and nothing is sent. -/
lemma exists_run_short (puts : ℕ → Bool) (hturn : ThinkerTurn emb prompt results)
    (inbox : List (ThinkerResult ε)) :
    ∀ l : RelayLoop ε, l.inbox = inbox → Resting l → (∀ r ∈ inbox, r ∈ results) →
      (∀ r ∈ inbox, r.tokenIds.length < 2) → l.st.isStg1Prefilled = false →
      (l.st.stg0SentIdx = none ∨ l.st.stg0SentIdx = some 0 ∧ l.st.baseNum = prompt.length) →
      l.st.submitted = [] →
      ∃ acts l', run (relayStep puts) l acts = some l' ∧ Resting l' ∧ l'.inbox = [] ∧
        l'.st.submitted = [] := by
  induction inbox with
  | nil =>
    intro l hin hrest _ _ _ _ hsub
    exact ⟨[], l, rfl, hrest, hin, hsub⟩
  | cons r rest ih =>
    intro l hin hrest hmem hshort hpre hbase hsub
    have hbase' : l.st.StandsAt r prompt.length 0 :=
      hbase.imp (fun hn => ⟨hn, rfl, hturn.computeBaseNum (hmem r mem_cons_self)⟩) id
    have hfew : r.tokenIds.length < 0 + (if l.st.isStg1Prefilled then 1 else 2) := by
      simpa [hpre] using hshort r mem_cons_self
    have hstep := relayStep_recv puts hrest hin
    rw [recvResult_of_few (l := { l with inbox := rest }) hbase' hfew] at hstep
    obtain ⟨acts, l', hrun, hl'⟩ :=
      ih { l with inbox := rest, st := l.st.prepared r prompt.length 0 } rfl
        ⟨hrest.ready, hrest.idle, hrest.raised⟩
        (fun r' hr' => hmem r' (mem_cons_of_mem r hr'))
        (fun r' hr' => hshort r' (mem_cons_of_mem r hr')) hpre (.inr ⟨rfl, rfl⟩) hsub
    exact ⟨.recv :: acts, l', run_cons_eq_some.mpr ⟨_, hstep, hrun⟩, hl'⟩

variable (hputs : ∀ i, puts i = true) (hturn : ThinkerTurn emb prompt results)
include hputs hturn

/-- If some result behind the prefill is not final, the relay of rows can be reached. -/
lemma exists_run_rowPhase_zero (hlens : (genLens results).Pairwise (· < ·))
    (hq : 1 ≤ relayedResults results) (inbox : List (ThinkerResult ε)) :
    ∀ l : RelayLoop ε, l.inbox = inbox → WaitPhase prompt results l →
      ∃ acts l', run (relayStep puts) l acts = some l' ∧ RowPhase emb prompt results 0 l' := by
  induction inbox with
  | nil =>
    intro l hin hwait
    exact absurd hin hwait.nonempty
  | cons r rest ih =>
    intro l hin hwait
    have hcount : 1 ≤ relayedResults (r :: rest) := by rwa [← hin, hwait.relayed_eq]
    have hmore : rest ≠ [] := by
      rintro rfl
      simp only [relayedResults, genLens, map_cons, map_nil] at hcount
      have hle := length_filter_le (fun n => decide (2 ≤ n)) [r.tokenIds.length]
      rw [length_singleton] at hle
      omega
    have hstep := relayStep_recv puts hwait.rest hin
    rcases lt_or_ge r.tokenIds.length 2 with hshort | hlong
    · obtain ⟨acts, l', hrun, hrow⟩ :=
        ih _ (inbox_recvResult puts _ r) (waitPhase_recv_short hturn hwait hin hshort hmore)
      exact ⟨.recv :: acts, l', run_cons_eq_some.mpr ⟨_, hstep, hrun⟩, hrow⟩
    · exact ⟨[.recv], _, run_cons_eq_some.mpr ⟨_, hstep, rfl⟩,
        rowPhase_of_prefill hputs hturn hlens hwait hin hlong hmore⟩

/-- The relay can reach every number of rows below the initial target. -/
lemma exists_run_rowPhase (hlens : (genLens results).Pairwise (· < ·))
    (hq : 1 ≤ relayedResults results) (k : ℕ)
    (hk : k ≤ relayedResults results) (hcap : k = 0 ∨ prompt.length + k < 10000) :
    ∃ acts l, run (relayStep puts) { inbox := results } acts = some l ∧
      RowPhase emb prompt results k l := by
  induction k with
  | zero =>
    exact exists_run_rowPhase_zero hputs hturn hlens hq results _ rfl (waitPhase_start hturn)
  | succ k ih =>
    obtain ⟨acts, l, hrun, hrow⟩ := ih (by omega) (by omega)
    have hcount := hrow.count
    cases hin : l.inbox with
    | nil => exact absurd hin hrow.nonempty
    | cons r rest =>
      have hmore : rest ≠ [] := by
        rintro rfl
        rw [hin, length_singleton] at hcount
        omega
      have hstep := relayStep_recv puts hrow.rest hin
      refine ⟨acts ++ [.recv], RelayLoop.recvResult puts { l with inbox := rest } r, ?_,
        rowPhase_recv_row hputs hturn hlens hrow hin hmore (by omega)⟩
      rw [run_append, hrun, Option.bind_some, run_cons, hstep, Option.bind_some, run_nil]

/-- A non-final result that meets the initial target sends the input of the task before again. -/
lemma rowPhase_recv_stale {k : ℕ} (h : RowPhase emb prompt results k l)
    (hin : l.inbox = r :: rest) (hmore : rest ≠ []) (hcap : 10000 ≤ prompt.length + k + 1) :
    ∃ l' t, relayStep puts l .recv = some l' ∧ l'.raised = false ∧
      l'.st.submitted[k + 1]? = some t ∧
      RelayPayload emb prompt.length (prefillLen results) (finalLen results) k
        t.input.thinkerEmbeddings := by
  have hsuf : r :: rest <:+ results := hin ▸ h.suffix
  have hmem : r ∈ results := hsuf.subset mem_cons_self
  have hunfin : r.finished = false := hturn.finished_eq_false hsuf hmore
  have hlen : k + 3 ≤ r.tokenIds.length := h.lens r (by simp [hin])
  obtain ⟨input, hnext, hok⟩ := h.nextInputs
  have hbase : l.st.StandsAt r prompt.length k := .inr ⟨h.sentIdx, h.base⟩
  have henough : k + (if l.st.isStg1Prefilled then 1 else 2) ≤ r.tokenIds.length := by
    simp only [h.prefilled, if_true]
    omega
  have hpre : (l.st.prepared r prompt.length k).isStg1Prefilled = true := h.prefilled
  have hpast : (l.st.prepared r prompt.length k).stage1TargetCnt ≤
      (l.st.prepared r prompt.length k).baseNum + k + 1 := by
    simpa [RelayState.prepared, hunfin, h.target] using hcap
  have hnext' : (l.st.prepared r prompt.length k).nextInputs = some input := hnext
  obtain ⟨st', htoss, htask, -⟩ := toss_stale hputs hpre hpast hnext' (hturn.wellRoled hmem)
  obtain ⟨input', hemb, hsub⟩ := htask.submitted
  have hstep := relayStep_recv puts h.rest hin
  rw [recvResult_of_toss (l := { l with inbox := rest }) hbase henough htoss, hunfin,
    if_neg Bool.false_ne_true] at hstep
  refine ⟨_, ⟨(l.st.prepared r prompt.length k).chunkSeq, input'⟩, hstep, h.rest.raised, ?_,
    hemb ▸ hok⟩
  have hlength : (l.st.prepared r prompt.length k).submitted.length = k + 1 := h.sent.length
  change st'.submitted[k + 1]? = _
  rw [hsub, getElem?_append_right (by omega), hlength]
  simp

omit hputs hturn in
lemma not_relayPayload_succ {k : ℕ} {g₀ G : ℕ} {e : List (EmbRow ε)}
    (hemb : Function.Injective emb) (hchat : ChatPrompt prompt) (hG : k + 3 ≤ G)
    (h : RelayPayload emb prompt.length g₀ G k e) :
    ¬ RelayPayload emb prompt.length g₀ G (k + 1) e := by
  intro hnext
  rw [RelayPayload, if_neg (by omega), if_pos (by omega)] at hnext
  rcases Nat.eq_zero_or_pos k with rfl | hk
  · rw [RelayPayload, if_pos rfl, hnext] at h
    have hlen := congrArg List.length h
    obtain ⟨-, -, -, hP⟩ := imStartIndexes_of_chat hchat
    rw [length_singleton, length_embedRows] at hlen
    omega
  · rw [RelayPayload, if_neg (by omega), if_pos (by omega), hnext] at h
    have hrow : emb (prompt.length + (k + 1)) = emb (prompt.length + k) := by
      simpa using h
    have hpos := hemb hrow
    omega

end Needed

/-- The relay is exactly-once and in order iff the reply has two tokens and no position that a
non-final result relays reaches the initial target. -/
theorem relayExact_iff {puts : ℕ → Bool} {emb : ℕ → ε} {prompt : List ℕ}
    {results : List (ThinkerResult ε)} (hputs : ∀ i, puts i = true)
    (hemb : Function.Injective emb) (hturn : ThinkerTurn emb prompt results)
    (hlens : (genLens results).Pairwise (· < ·)) :
    RelayExact puts emb prompt results ↔
      2 ≤ finalLen results ∧
        (relayedResults results = 0 ∨ prompt.length + relayedResults results < 10000) := by
  constructor
  · intro hexact
    have hstart := waitPhase_start hturn
    have hG : 2 ≤ finalLen results := by
      by_contra hlt
      -- the final result is the longest, so none reaches two tokens
      have hshort : ∀ r ∈ results, r.tokenIds.length < 2 := by
        intro r hr
        obtain ⟨init, last, hres, -⟩ := hturn.finished_last
        subst hres
        have hlast : finalLen (init ++ [last]) = last.tokenIds.length := by
          simp [finalLen, genLens]
        rcases mem_append.mp hr with hinit | heq
        · have hpair : (genLens init ++ genLens [last]).Pairwise (· < ·) := by
            simpa [genLens] using hlens
          have hlt' := (pairwise_append.mp hpair).2.2 r.tokenIds.length
            (mem_map_of_mem hinit) last.tokenIds.length (by simp [genLens])
          omega
        · rw [mem_singleton.mp heq]
          omega
      obtain ⟨acts, l, hrun, hrest, hin, hsub⟩ :=
        exists_run_short puts hturn results { inbox := results } rfl hstart.rest
          (fun _ hr => hr) hshort rfl (.inl rfl) rfl
      have hdone := (hexact acts l hrun hrest.raised).2.2 hin hrest.idle
      rw [hsub] at hdone
      exact absurd hdone.1 (by simp)
    refine ⟨hG, ?_⟩
    by_contra hcap
    -- run until the position of the next row is the initial target
    obtain ⟨acts, l, hrun, hrow⟩ :=
      exists_run_rowPhase hputs hturn hlens (by omega) (9999 - prompt.length) (by omega) (by omega)
    have hcount := hrow.count
    cases hin : l.inbox with
    | nil => exact absurd hin hrow.nonempty
    | cons r rest =>
      have hmore : rest ≠ [] := by
        rintro rfl
        rw [hin, length_singleton] at hcount
        omega
      obtain ⟨l', t, hstep, hraised, ht, hpayload⟩ :=
        rowPhase_recv_stale hputs hturn hrow hin hmore (by omega)
      have hrun' : run (relayStep puts) { inbox := results } (acts ++ [.recv]) = some l' := by
        rw [run_append, hrun, Option.bind_some, run_cons, hstep, Option.bind_some, run_nil]
      have hok := ((hexact _ l' hrun' hraised).1 _ t ht).2
      exact not_relayPayload_succ hemb hturn.chat hrow.finalLen_ge hpayload hok
  · rintro ⟨hG, hcap⟩
    exact relayExact_of_cap hputs hturn hlens hG hcap

/-! ## Two small replies -/

/-- A chat prompt of nine tokens. -/
def shortPrompt : List ℕ :=
  [imStartTokenId, systemTokenId, 198, imStartTokenId, userTokenId, 198, imStartTokenId,
    assistantTokenId, 198]

/-- The cumulative result after `g` tokens of a reply to the short prompt. -/
def shortResult (g : ℕ) (finished : Bool) : ThinkerResult ℕ where
  promptTokenIds := shortPrompt
  tokenIds := range g
  mm :=
    { embeds := embedRows id (shortPrompt.length + g - 1)
      hidden := range (shortPrompt.length + g - 1)
      ttsBosEmbed := [1]
      ttsEosEmbed := [2]
      ttsPadEmbed := [3] }
  finished := finished

lemma chatPrompt_shortPrompt : ChatPrompt shortPrompt :=
  ⟨[imStartTokenId, systemTokenId, 198, imStartTokenId, userTokenId, 198], rfl, by decide⟩

/-- Results for the short prompt form a turn when exactly the last one is finished. -/
lemma thinkerTurn_short (init : List ℕ) (last : ℕ) :
    ThinkerTurn id shortPrompt
      (init.map (fun g => shortResult g false) ++ [shortResult last true]) where
  chat := chatPrompt_shortPrompt
  prompt_eq := by
    intro r hr
    simp only [mem_append, mem_map, mem_singleton] at hr
    rcases hr with ⟨g, -, rfl⟩ | rfl <;> rfl
  embeds_eq := by
    intro r hr
    simp only [mem_append, mem_map, mem_singleton] at hr
    rcases hr with ⟨g, -, rfl⟩ | rfl <;> simp [shortResult]
  finished_last := by
    refine ⟨_, _, rfl, rfl, fun r hr => ?_⟩
    obtain ⟨g, -, rfl⟩ := mem_map.mp hr
    rfl

/-- A reply of three tokens, seen after two and after three, is relayed exactly. -/
theorem relayExact_three_tokens :
    RelayExact (fun _ => true) id shortPrompt [shortResult 2 false, shortResult 3 true] :=
  (relayExact_iff (fun _ => rfl) Function.injective_id (thinkerTurn_short [2] 3) (by decide)).mpr
    ⟨by decide, .inl (by decide)⟩

/-- A reply of one token is processed without an exception and without a marker. -/
theorem relayExact_fails_one_token :
    ThinkerTurn id shortPrompt [shortResult 1 true] ∧
      (genLens [shortResult 1 true]).Pairwise (· < ·) ∧
      ¬ RelayExact (fun _ => true) id shortPrompt [shortResult 1 true] := by
  refine ⟨thinkerTurn_short [] 1, by decide, fun hexact => ?_⟩
  have hrun : run (relayStep fun _ => true) { inbox := [shortResult 1 true] } [.recv] = some _ :=
    rfl
  exact absurd ((hexact _ _ hrun rfl).2.2 rfl rfl).1 (by decide)

end OmniStreaming
