import Mathlib.Data.List.Induction
import OmniStreaming.Duplex.RelayOrder

/-!
# The end of the text reaches the talker

When the final result of the thinker has been processed, the tasks of the turn should hold exactly
one end-of-text marker behind the prefill. The code that sends it is nested under the test that a
token is left to relay, and writes the marker into a row that only the relay of an earlier row
stores. So the marker depends on how the engine splits the reply over results, whose generated
lengths here may repeat.

The file proves exactly which splits deliver it: some result follows the one that becomes the
prefill, the first of them has at least three tokens, and the final result has a token that has
not been relayed.
-/

namespace OmniStreaming

open List Slices Transition

variable {ε : Type*}

/-! ## The condition on the lengths -/

/-- The generated lengths of the results behind the one that becomes the prefill. -/
def afterPrefill (results : List (ThinkerResult ε)) : List ℕ :=
  ((genLens results).dropWhile (· < 2)).tail

/-- A token is left unrelayed at a result of `g` tokens: from some point on fewer results follow
than tokens are missing. -/
def LeavesToken (lens : List ℕ) (g : ℕ) : Prop :=
  ∃ a b, lens = a ++ b ∧ a.getLast?.getD 0 + b.length < g

/-- The splits that deliver the marker, for a prompt of `P` tokens. From `P = 9999` on the initial
target stops the relay before the final result, which then has to store the row itself. -/
def DeliversMarker (P : ℕ) (results : List (ThinkerResult ε)) : Prop :=
  afterPrefill results ≠ [] ∧
    3 ≤ (if P + 1 < 10000 then (afterPrefill results).headD 0 else finalLen results) ∧
    (9999 - P < finalLen results ∨ LeavesToken (afterPrefill results).dropLast (finalLen results))

/-- The number of rows relayed: one per result, none that is not generated, and at most `cap`. -/
def relayCount (cap : ℕ) (lens : List ℕ) : ℕ :=
  lens.foldl (fun x g => if x + 1 ≤ g ∧ x + 1 ≤ cap then x + 1 else x) 0

@[simp] lemma relayCount_nil (cap : ℕ) : relayCount cap [] = 0 := rfl

lemma relayCount_append_singleton (cap : ℕ) (lens : List ℕ) (g : ℕ) :
    relayCount cap (lens ++ [g]) =
      if relayCount cap lens + 1 ≤ g ∧ relayCount cap lens + 1 ≤ cap then relayCount cap lens + 1
      else relayCount cap lens := by
  rw [relayCount, foldl_append]
  rfl

/-- No more rows than the cap allows. -/
lemma relayCount_le_cap (cap : ℕ) (lens : List ℕ) : relayCount cap lens ≤ cap := by
  induction lens using reverseRecOn with
  | nil => simp
  | append_singleton lens g ih =>
    rw [relayCount_append_singleton]
    split <;> omega

lemma relayCount_le_getLast (cap : ℕ) {lens : List ℕ} (h : lens.Pairwise (· ≤ ·)) :
    relayCount cap lens ≤ lens.getLast?.getD 0 := by
  induction lens using reverseRecOn with
  | nil => simp
  | append_singleton lens g ih =>
    obtain ⟨hlens, -, hcross⟩ := pairwise_append.mp h
    have hlast := ih hlens
    have hle : lens.getLast?.getD 0 ≤ g := by
      cases hl : lens.getLast? with
      | none => simp
      | some a => exact hcross a (mem_of_getLast? hl) g mem_cons_self
    rw [relayCount_append_singleton, getLast?_concat, Option.getD_some]
    split <;> omega

/-- A token is left iff the lengths, or the cap, leave one. -/
lemma relayCount_lt_iff {cap : ℕ} {lens : List ℕ} (h : lens.Pairwise (· ≤ ·)) (g : ℕ) :
    relayCount cap lens < g ↔ cap < g ∨ LeavesToken lens g := by
  induction lens using reverseRecOn generalizing g with
  | nil =>
    constructor
    · intro hg
      exact .inr ⟨[], [], rfl, by simpa using hg⟩
    · rintro (hcap | ⟨a, b, hab, hlt⟩)
      · simp only [relayCount_nil]
        omega
      · simp only [relayCount_nil]
        omega
  | append_singleton lens n ih =>
    obtain ⟨hlens, -, hcross⟩ := pairwise_append.mp h
    have hcap := relayCount_le_cap cap lens
    have hlast := relayCount_le_getLast cap hlens
    have hle : lens.getLast?.getD 0 ≤ n := by
      cases hl : lens.getLast? with
      | none => simp
      | some a => exact hcross a (mem_of_getLast? hl) n mem_cons_self
    have hsplit : LeavesToken (lens ++ [n]) g ↔ n < g ∨ LeavesToken lens (g - 1) := by
      constructor
      · rintro ⟨a, b, hab, hlt⟩
        rcases eq_nil_or_concat b with rfl | ⟨b', z, rfl⟩
        · left
          rw [append_nil] at hab
          simpa [← hab] using hlt
        · right
          rw [concat_eq_append, ← append_assoc] at hab
          refine ⟨a, b', (append_inj' hab rfl).1, ?_⟩
          simp only [concat_eq_append, length_append, length_singleton] at hlt
          omega
      · rintro (hlt | ⟨a, b, rfl, hlt⟩)
        · exact ⟨lens ++ [n], [], by simp, by simpa using hlt⟩
        · refine ⟨a, b ++ [n], by simp, ?_⟩
          simp only [length_append, length_singleton]
          omega
    have hih := ih hlens (g - 1)
    rw [relayCount_append_singleton, hsplit]
    by_cases hleft : LeavesToken lens (g - 1)
    · simp only [hleft, or_true, iff_true] at hih ⊢
      split <;> omega
    · simp only [hleft, or_false] at hih ⊢
      split <;> omega

/-! ## Counting markers -/

/-- The task is an end-of-text marker: its first cell holds `+999`. -/
def Stage1Task.isMarker (t : Stage1Task ε) : Bool :=
  t.input.thinkerEmbeddings.head?.bind EmbRow.stamp == some 999

/-- No value has been written into these rows. -/
def Unstamped (rows : List (EmbRow ε)) : Prop := ∀ e ∈ rows, e.stamp = none

/-- The tasks are a prefill with the given embeddings and, behind it, tasks among which `n` are
markers. -/
def MarkedTimes (prefill : List (EmbRow ε)) (n : ℕ) (tasks : List (Stage1Task ε)) : Prop :=
  ∃ first rest, tasks = first :: rest ∧ first.input.thinkerEmbeddings = prefill ∧
    rest.countP Stage1Task.isMarker = n

/-- Embedding rows carry no stamp. -/
lemma unstamped_embedRows (emb : ℕ → ε) (n : ℕ) : Unstamped (embedRows emb n) := by
  intro e he
  obtain ⟨i, -, rfl⟩ := mem_map.mp he
  rfl

lemma Unstamped.slice {rows : List (EmbRow ε)} (h : Unstamped rows) (i j : ℕ) :
    Unstamped (slice rows i j) :=
  fun e he => h e (mem_of_mem_drop (mem_of_mem_take he))

/-- An unstamped task adds no marker. -/
lemma MarkedTimes.snoc_unstamped {prefill payload : List (EmbRow ε)} {n seq : ℕ}
    {st st' : RelayState ε} (h : MarkedTimes prefill n st.submitted)
    (hsent : SentTask st st' seq payload) (hun : Unstamped payload) :
    MarkedTimes prefill n st'.submitted := by
  obtain ⟨first, rest, hsub, hfirst, hcount⟩ := h
  obtain ⟨input, hin, hsub'⟩ := hsent.submitted
  refine ⟨first, rest ++ [⟨seq, input⟩], by rw [hsub', hsub, cons_append], hfirst, ?_⟩
  have hnot : Stage1Task.isMarker ⟨seq, input⟩ = false := by
    simp only [Stage1Task.isMarker, hin]
    cases payload with
    | nil => rfl
    | cons e es => simp [hun e mem_cons_self]
  rw [countP_append, hcount, countP_singleton, hnot]
  rfl

/-- A task with a stamp adds a marker iff the stamp is `+999`. -/
lemma MarkedTimes.snoc_stamped {prefill es : List (EmbRow ε)} {n seq : ℕ} {e : EmbRow ε} {v : ℤ}
    {st st' : RelayState ε} (h : MarkedTimes prefill n st.submitted)
    (hsent : SentTask st st' seq ({ e with stamp := some v } :: es)) :
    MarkedTimes prefill (n + if v = 999 then 1 else 0) st'.submitted := by
  obtain ⟨first, rest, hsub, hfirst, hcount⟩ := h
  obtain ⟨input, hin, hsub'⟩ := hsent.submitted
  refine ⟨first, rest ++ [⟨seq, input⟩], by rw [hsub', hsub, cons_append], hfirst, ?_⟩
  rw [countP_append, hcount, countP_singleton]
  simp [Stage1Task.isMarker, hin]

/-- At the head of the flush loop with a row stored for the marker. -/
structure MarkableHead (prefill : List (EmbRow ε)) (st : RelayState ε) (_pos : ℕ) : Prop where
  marked : MarkedTimes prefill 0 st.submitted
  current : ∃ r, st.current = some r ∧ WellRoled r.promptTokenIds
  padRow : ∃ e, st.padEmbeds = some [e]
  lastEmbeds : Unstamped st.lastEmbeds

/-- The marker has gone out and only pads follow. -/
structure MarkedOnce (prefill : List (EmbRow ε)) (st : RelayState ε) (_left : ℕ) : Prop where
  marked : MarkedTimes prefill 1 st.submitted
  current : ∃ r, st.current = some r ∧ WellRoled r.promptTokenIds
  padRow : ∃ e, st.padEmbeds = some [e]

/-- At the head of the flush loop without a row for the marker. -/
structure UnmarkableHead (st : RelayState ε) (_pos : ℕ) : Prop where
  current : ∃ r, st.current = some r ∧ WellRoled r.promptTokenIds
  noRow : st.padEmbeds = none ∨ st.padEmbeds = some []

/-- With a stored row the flush ends with one marker, and the pads add none. -/
lemma flushRule_marked {puts : ℕ → Bool} (hputs : ∀ i, puts i = true)
    (prefill : List (EmbRow ε)) :
    FlushRule puts (MarkableHead prefill) (MarkedOnce prefill) where
  setSentIdx := by
    rintro st pos x ⟨hmarked, hcur, hpad, hlast⟩
    exact ⟨hmarked, hcur, hpad, hlast⟩
  send := by
    rintro st pos ⟨hmarked, hcur, hpad, hlast⟩ -
    obtain ⟨st', hst, htask, hpad'⟩ := processAndSend_sent hputs hcur st.chunkSeq pos
    refine ⟨st', hst, hmarked.snoc_unstamped htask (hlast.slice pos (pos + 1)), htask.current,
      ?_, ?_⟩
    · rw [hpad']
      exact hpad
    · rw [htask.lastEmbeds]
      exact hlast
  mark := by
    rintro st pos st' x ⟨hmarked, hcur, ⟨e, he⟩, hlast⟩ - hmark
    obtain ⟨st'', hst, htask, hpad'⟩ := sendStamped_sent hputs hcur he 999
    cases hst.symm.trans hmark
    exact ⟨by simpa using hmarked.snoc_stamped htask, htask.current, _, hpad'⟩
  pad := by
    rintro st left ⟨hmarked, hcur, ⟨e, he⟩⟩
    obtain ⟨st', hst, htask, hpad'⟩ := sendStamped_sent hputs hcur he (-999)
    exact ⟨st', hst, by simpa using hmarked.snoc_stamped htask, htask.current, _, hpad'⟩

/-- Without a stored row the flush never gets past the marker. -/
lemma flushRule_unmarkable {puts : ℕ → Bool} (hputs : ∀ i, puts i = true) :
    FlushRule puts (UnmarkableHead (ε := ε)) (fun _ _ => False) where
  setSentIdx := by
    rintro st pos x ⟨hcur, hno⟩
    exact ⟨hcur, hno⟩
  send := by
    rintro st pos ⟨hcur, hno⟩ -
    obtain ⟨st', hst, htask, hpad'⟩ := processAndSend_sent hputs hcur st.chunkSeq pos
    exact ⟨st', hst, htask.current, by rw [hpad']; exact hno⟩
  mark := by
    rintro st pos st' x ⟨-, hno⟩ - hmark
    rw [sendStamped_of_no_row puts 999 hno] at hmark
    cases hmark
  pad := fun h => h.elim

/-! ## The phases up to the final result -/

/-- The row stored for the marker after some results: the first stores one if it has it. -/
def StoredRow (P : ℕ) (seen : List ℕ) (pad : Option (List (EmbRow ε))) : Prop :=
  match seen with
  | [] => pad = none
  | g :: _ =>
    if P + 1 < 10000 then if 3 ≤ g then ∃ e, pad = some [e] else pad = some [] else pad = none

/-- The prefill has gone out, and results of the lengths `seen` have followed it. -/
structure TextPhase (emb : ℕ → ε) (prompt : List ℕ) (results : List (ThinkerResult ε))
    (seen : List ℕ) (l : RelayLoop ε) : Prop where
  rest : Resting l
  suffix : l.inbox <:+ results
  nonempty : l.inbox ≠ []
  lens : afterPrefill results = seen ++ genLens l.inbox
  twoLe : ∀ r ∈ l.inbox, 2 ≤ r.tokenIds.length
  prefilled : l.st.isStg1Prefilled = true
  sentIdx : l.st.stg0SentIdx = some (relayCount (9999 - prompt.length) seen)
  base : l.st.baseNum = prompt.length
  target : l.st.stage1TargetCnt = 10000
  stored : StoredRow prompt.length seen l.st.padEmbeds
  marked : MarkedTimes (embedRows emb (prompt.length + prefillLen results - 1)) 0 l.st.submitted
  nextInputs : ∃ input, l.st.nextInputs = some input ∧ Unstamped input.thinkerEmbeddings

section Steps

variable {emb : ℕ → ε} {prompt seen : List ℕ} {results rest : List (ThinkerResult ε)}
  {r : ThinkerResult ε} {l : RelayLoop ε} {puts : ℕ → Bool}

/-- The lengths behind the prefill do not decrease. -/
lemma TextPhase.pairwise (hlens : (genLens results).Pairwise (· ≤ ·))
    (h : TextPhase emb prompt results seen l) :
    (seen ++ genLens l.inbox).Pairwise (· ≤ ·) := by
  rw [← h.lens]
  exact hlens.sublist ((tail_sublist _).trans (dropWhile_sublist _))

lemma TextPhase.relayCount_le (hlens : (genLens results).Pairwise (· ≤ ·))
    (h : TextPhase emb prompt results seen l) (hin : l.inbox = r :: rest) :
    relayCount (9999 - prompt.length) seen ≤ r.tokenIds.length := by
  have hpair := h.pairwise hlens
  rw [hin, genLens_cons] at hpair
  obtain ⟨hseen, -, hcross⟩ := pairwise_append.mp hpair
  refine (relayCount_le_getLast _ hseen).trans ?_
  cases hl : seen.getLast? with
  | none => simp
  | some a => exact hcross a (mem_of_getLast? hl) _ mem_cons_self

/-- The state `st'` after a result has sent one task that is no marker, `x` rows having been
relayed then. -/
structure Tossed (puts : ℕ → Bool) (emb : ℕ → ε) (prompt : List ℕ)
    (results rest : List (ThinkerResult ε)) (r : ThinkerResult ε) (l : RelayLoop ε)
    (st' : RelayState ε) (x : ℕ) : Prop extends Forwarded puts prompt rest r l st' x where
  marked : MarkedTimes (embedRows emb (prompt.length + prefillLen results - 1)) 0 st'.submitted
  nextInputs : ∃ input, st'.nextInputs = some input ∧ Unstamped input.thinkerEmbeddings

/-- The target of a result: the number of all tokens for the final one, the initial value before. -/
def resultTarget (P : ℕ) (r : ThinkerResult ε) : ℕ :=
  if r.finished then P + r.tokenIds.length else 10000

variable {x P g : ℕ} {pad : Option (List (EmbRow ε))}

/-- Only the first result behind the prefill decides what is stored. -/
lemma storedRow_append_singleton (hne : seen ≠ []) :
    StoredRow P (seen ++ [g]) pad ↔ StoredRow P seen pad := by
  obtain ⟨a, as, rfl⟩ := exists_cons_of_ne_nil hne
  exact Iff.rfl

/-- Nothing is stored by a result that finds the initial target reached. -/
lemma storedRow_cap (hzero : seen = [] → x = 0) (hge : 10000 ≤ P + x + 1)
    (hstored : StoredRow P seen pad) :
    StoredRow P (seen ++ [g]) pad := by
  cases seen with
  | nil =>
    obtain rfl := hzero rfl
    obtain rfl : pad = none := hstored
    simp only [StoredRow, nil_append, if_neg (show ¬ P + 1 < 10000 by omega)]
  | cons g' t => exact (storedRow_append_singleton (cons_ne_nil g' t)).mpr hstored

/-- Where nothing is stored no row has been relayed, and the result to come decides. -/
lemma storedRow_none (hstored : StoredRow P seen (none : Option (List (EmbRow ε)))) :
    relayCount (9999 - P) seen = 0 ∧
      (if P + 1 < 10000 then (seen ++ [g]).headD 0 else g) = g := by
  cases seen with
  | nil => exact ⟨rfl, by simp⟩
  | cons g' t =>
    by_cases hcap : P + 1 < 10000
    · simp [StoredRow, hcap] at hstored
    · refine ⟨?_, if_neg hcap⟩
      have hle := relayCount_le_cap (9999 - P) (g' :: t)
      omega

/-- Where something is stored the first result behind the prefill has decided what. -/
lemma storedRow_some (hne : pad ≠ none) (hstored : StoredRow P seen pad) :
    (3 ≤ (if P + 1 < 10000 then (seen ++ [g]).headD 0 else g) ∧ ∃ e, pad = some [e]) ∨
      (¬ 3 ≤ (if P + 1 < 10000 then (seen ++ [g]).headD 0 else g) ∧
        (pad = none ∨ pad = some [])) := by
  cases seen with
  | nil => exact absurd hstored hne
  | cons g' t =>
    by_cases hcap : P + 1 < 10000
    · simp only [StoredRow, if_pos hcap] at hstored
      rw [if_pos hcap]
      by_cases hg : 3 ≤ g'
      · rw [if_pos hg] at hstored
        exact .inl ⟨hg, hstored⟩
      · rw [if_neg hg] at hstored
        exact .inr ⟨hg, .inr hstored⟩
    · simp only [StoredRow, if_neg hcap] at hstored
      exact absurd hstored hne

/-- After the final result: at rest without a marker, or flushing with or without a row stored for
it. -/
inductive EndPhase (puts : ℕ → Bool) (prefill : List (EmbRow ε)) (delivers : Prop)
    (l : RelayLoop ε) : Prop
  | silent (rest : Resting l) (inbox : l.inbox = [])
      (unmarked : ¬ MarkedTimes prefill 1 l.st.submitted) (no : ¬ delivers)
  | marked (phase : FlushPhase puts (MarkableHead prefill) (MarkedOnce prefill) l)
      (yes : delivers)
  | failing (phase : FlushPhase puts UnmarkableHead (fun _ _ => False) l) (no : ¬ delivers)

/-- A list of tasks does not have two numbers of markers. -/
lemma MarkedTimes.unique {prefill : List (EmbRow ε)} {m n : ℕ} {tasks : List (Stage1Task ε)}
    (h : MarkedTimes prefill m tasks) (h' : MarkedTimes prefill n tasks) : m = n := by
  obtain ⟨first, rest, rfl, -, hm⟩ := h
  obtain ⟨first', rest', heq, -, hn⟩ := h'
  obtain ⟨-, rfl⟩ := cons.inj heq
  omega

/-- Nothing leaves the end of the relay. -/
lemma endPhase_step {prefill : List (EmbRow ε)} {delivers : Prop} {l' : RelayLoop ε}
    {a : RelayAct} (hputs : ∀ i, puts i = true) (h : EndPhase puts prefill delivers l)
    (hstep : relayStep puts l a = some l') : EndPhase puts prefill delivers l' := by
  cases h with
  | silent hrest hin =>
    rcases relayStep_cases hstep with ⟨r, rest, -, -, hcons, -⟩ | ⟨t, rest, hready, -⟩
    · rw [hin] at hcons
      cases hcons
    · rw [hrest.ready] at hready
      cases hready
  | marked hphase hyes =>
    exact .marked (flushPhase_step (flushRule_marked hputs _) hphase hstep) hyes
  | failing hphase hno =>
    exact .failing (flushPhase_step (flushRule_unmarkable hputs) hphase hstep) hno

/-- Where the relay of a turn with repeating lengths stands. -/
def EndInv (puts : ℕ → Bool) (emb : ℕ → ε) (prompt : List ℕ) (results : List (ThinkerResult ε))
    (l : RelayLoop ε) : Prop :=
  (WaitPhase prompt results l ∧ afterPrefill l.inbox = afterPrefill results) ∨
    (∃ seen, TextPhase emb prompt results seen l) ∨
    EndPhase puts (embedRows emb (prompt.length + prefillLen results - 1))
      (DeliversMarker prompt.length results) l

lemma afterPrefill_cons_of_lt (hshort : r.tokenIds.length < 2) :
    afterPrefill (r :: rest) = afterPrefill rest := by
  have hdrop : decide (r.tokenIds.length < 2) = true := decide_eq_true hshort
  rw [afterPrefill, genLens_cons, dropWhile_cons, if_pos hdrop, afterPrefill]

lemma afterPrefill_cons_of_le (hlong : 2 ≤ r.tokenIds.length) :
    afterPrefill (r :: rest) = genLens rest := by
  have hkeep : ¬ decide (r.tokenIds.length < 2) = true := by
    rw [decide_eq_true_eq]
    omega
  rw [afterPrefill, genLens_cons, dropWhile_cons, if_neg hkeep, tail_cons]

/-- Once the final result is processed, nothing has raised and the tasks hold one marker behind the
prefill. -/
def EndOfTextDelivered (puts : ℕ → Bool) (emb : ℕ → ε) (prompt : List ℕ)
    (results : List (ThinkerResult ε)) : Prop :=
  ∀ acts l, run (relayStep puts) { inbox := results } acts = some l → l.inbox = [] →
    (l.idle = true ∨ l.raised = true) →
    l.raised = false ∧
      MarkedTimes (embedRows emb (prompt.length + prefillLen results - 1)) 1 l.st.submitted

/-- A processed turn holds the marker iff the lengths deliver it. -/
lemma endInv_processed (hputs : ∀ i, puts i = true) (h : EndInv puts emb prompt results l)
    (hin : l.inbox = []) (hdone : l.idle = true ∨ l.raised = true) :
    (l.raised = false ∧
      MarkedTimes (embedRows emb (prompt.length + prefillLen results - 1)) 1 l.st.submitted) ↔
      DeliversMarker prompt.length results := by
  rcases h with ⟨hwait, -⟩ | ⟨seen, htext⟩ | hend
  · exact absurd hin hwait.nonempty
  · exact absurd hin htext.nonempty
  · cases hend with
    | silent hrest _ hun hno => exact iff_of_false (fun h => hun h.2) hno
    | marked hphase hyes =>
      refine iff_of_true ?_ hyes
      cases hphase with
      | head _ _ _ _ hidle hraised _ => simp [hidle, hraised] at hdone
      | spawned _ _ _ _ hidle hraised _ _ => simp [hidle, hraised] at hdone
      | padding _ _ _ _ hraised hinv => exact ⟨hraised, hinv.marked⟩
      | padded _ _ _ hraised hinv => exact ⟨hraised, hinv.marked⟩
      | failed pos _ _ _ _ hinv hno =>
        -- the stored row makes a marker
        obtain ⟨e, he⟩ := hinv.padRow
        obtain ⟨st', hst, -⟩ := sendStamped_sent hputs hinv.current he 999
        rw [hno] at hst
        cases hst
    | failing hphase hno =>
      refine iff_of_false (fun h => ?_) hno
      cases hphase with
      | head _ _ _ _ hidle hraised _ => simp [hidle, hraised] at hdone
      | spawned _ _ _ _ hidle hraised _ _ => simp [hidle, hraised] at hdone
      | padding _ _ _ _ _ hinv => exact hinv
      | padded _ _ _ _ hinv => exact hinv
      | failed _ _ _ _ hraised _ _ =>
        rw [hraised] at h
        cases h.1

section Turn

variable (hputs : ∀ i, puts i = true) (hturn : ThinkerTurn emb prompt results)
  (hlens : (genLens results).Pairwise (· ≤ ·))
include hturn

/-- The row at the position of a result, if the result has one there. -/
lemma slice_row_cases (hr : r ∈ results) (x : ℕ) :
    (x + 3 ≤ r.tokenIds.length ∧
      slice r.mm.embeds (prompt.length + x + 1) (prompt.length + x + 2) =
        [{ row := emb (prompt.length + x + 1) }]) ∨
    (r.tokenIds.length < x + 3 ∧
      slice r.mm.embeds (prompt.length + x + 1) (prompt.length + x + 2) = []) := by
  rw [hturn.embeds_eq r hr]
  rcases le_or_gt (x + 3) r.tokenIds.length with hlen | hlen
  · exact .inl ⟨hlen, slice_embedRows emb (by omega)⟩
  · exact .inr ⟨hlen, slice_eq_nil_of_length_le _ (by rw [length_embedRows]; omega)⟩

/-- A row sent below the initial target is stored if it is the first one. -/
lemma storedRow_toss (hmem : r ∈ results) (hzero : seen = [] → x = 0)
    (hlt : prompt.length + x + 1 < 10000) (hstored : StoredRow prompt.length seen pad) :
    StoredRow prompt.length (seen ++ [r.tokenIds.length])
      (pad <|> some (slice r.mm.embeds (prompt.length + x + 1) (prompt.length + x + 2))) := by
  cases seen with
  | nil =>
    obtain rfl := hzero rfl
    obtain rfl : pad = none := hstored
    simp only [StoredRow, nil_append, if_pos hlt]
    rcases slice_row_cases hturn hmem 0 with ⟨hlen, hrow⟩ | ⟨hlen, hrow⟩
    · rw [if_pos (by simpa using hlen)]
      exact ⟨_, congrArg some hrow⟩
    · rw [if_neg (by omega)]
      exact congrArg some hrow
  | cons g t =>
    rw [storedRow_append_singleton (cons_ne_nil g t)]
    simp only [StoredRow, if_pos (show prompt.length + 1 < 10000 by omega)] at hstored ⊢
    by_cases hg : 3 ≤ g
    · rw [if_pos hg] at hstored ⊢
      obtain ⟨e, he⟩ := hstored
      exact ⟨e, by rw [he]; rfl⟩
    · rw [if_neg hg] at hstored ⊢
      rw [hstored]
      rfl

/-- A non-final result that has sent a task leaves the phase with the result noted. -/
lemma Tossed.textPhase (h : TextPhase emb prompt results seen l) (hin : l.inbox = r :: rest)
    (hmore : rest ≠ []) {st' : RelayState ε} {y : ℕ}
    (ht : Tossed puts emb prompt results rest r l st' y)
    (hcount : relayCount (9999 - prompt.length) (seen ++ [r.tokenIds.length]) = y)
    (hstored : StoredRow prompt.length (seen ++ [r.tokenIds.length]) st'.padEmbeds) :
    TextPhase emb prompt results (seen ++ [r.tokenIds.length])
      (RelayLoop.recvResult puts { l with inbox := rest } r) := by
  have hsuf : r :: rest <:+ results := hin ▸ h.suffix
  have hunfin : r.finished = false := hturn.finished_eq_false hsuf hmore
  rw [ht.recv, hunfin, if_neg Bool.false_ne_true]
  refine ⟨⟨h.rest.ready, h.rest.idle, h.rest.raised⟩, (suffix_cons r rest).trans hsuf, hmore,
    ?_, fun r' hr' => h.twoLe r' (by simp [hin, hr']), ht.prefilled, hcount ▸ ht.sentIdx, ht.base,
    ht.target_eq hunfin h.target, hstored, ht.marked, ht.nextInputs⟩
  rw [h.lens, hin, genLens_cons, append_assoc, singleton_append]

/-- A result that is too short for the prefill leaves the relay waiting, or ends it in silence. -/
lemma endInv_recv_short (hwait : WaitPhase prompt results l)
    (hafter : afterPrefill l.inbox = afterPrefill results) (hin : l.inbox = r :: rest)
    (hshort : r.tokenIds.length < 2) :
    EndInv puts emb prompt results (RelayLoop.recvResult puts { l with inbox := rest } r) := by
  have hsuf : r :: rest <:+ results := hin ▸ hwait.suffix
  have hmem : r ∈ results := hsuf.subset mem_cons_self
  rw [hin, afterPrefill_cons_of_lt hshort] at hafter
  rcases eq_or_ne rest [] with rfl | hmore
  · -- the whole reply is too short for a prefill
    have hbase : l.st.StandsAt r prompt.length 0 := hwait.standsAt hturn hmem
    have hfew : r.tokenIds.length < 0 + (if l.st.isStg1Prefilled then 1 else 2) := by
      simpa [hwait.notPrefilled] using hshort
    rw [recvResult_of_few (l := { l with inbox := [] }) hbase hfew]
    refine .inr (.inr (.silent ⟨hwait.rest.ready, hwait.rest.idle, hwait.rest.raised⟩ rfl
      ?_ fun hd => hd.1 hafter.symm))
    rintro ⟨first, others, hsub, -⟩
    have hnil : l.st.submitted = first :: others := hsub
    rw [hwait.fresh.2] at hnil
    cases hnil
  · refine .inl ⟨waitPhase_recv_short hturn hwait hin hshort hmore, ?_⟩
    rw [inbox_recvResult]
    exact hafter

include hputs

/-- A result with a token to relay sends the next row below the target, else the input of the task
before. -/
lemma textPhase_toss (h : TextPhase emb prompt results seen l) (hin : l.inbox = r :: rest)
    (hx : relayCount (9999 - prompt.length) seen = x) (hleft : x < r.tokenIds.length) :
    (prompt.length + x + 1 < resultTarget prompt.length r ∧
      ∃ st', Tossed puts emb prompt results rest r l st' (x + 1) ∧
        st'.padEmbeds = (l.st.padEmbeds <|>
          some (slice r.mm.embeds (prompt.length + x + 1) (prompt.length + x + 2)))) ∨
    (resultTarget prompt.length r ≤ prompt.length + x + 1 ∧
      ∃ st', Tossed puts emb prompt results rest r l st' x ∧ st'.padEmbeds = l.st.padEmbeds) := by
  have hsuf : r :: rest <:+ results := hin ▸ h.suffix
  have hmem : r ∈ results := hsuf.subset mem_cons_self
  have hroles := hturn.wellRoled hmem
  have hbase : l.st.StandsAt r prompt.length x := .inr ⟨hx ▸ h.sentIdx, h.base⟩
  have henough : x + (if l.st.isStg1Prefilled then 1 else 2) ≤ r.tokenIds.length := by
    simp only [h.prefilled, if_true]
    omega
  have hpre : (l.st.prepared r prompt.length x).isStg1Prefilled = true := h.prefilled
  have htarget : (l.st.prepared r prompt.length x).stage1TargetCnt =
      resultTarget prompt.length r := by
    simp [RelayState.prepared, resultTarget, hturn.prompt_eq r hmem, h.target]
  have hmarked : MarkedTimes (embedRows emb (prompt.length + prefillLen results - 1)) 0
      (l.st.prepared r prompt.length x).submitted := h.marked
  rcases lt_or_ge (prompt.length + x + 1) (resultTarget prompt.length r) with hlt | hge
  · obtain ⟨st', htoss, htask, hpre', hidx, hpad, input, hnext, hemb⟩ :=
      toss_row hputs hpre (by rw [htarget]; exact hlt) hroles
    have hun : Unstamped (slice r.mm.embeds (prompt.length + x + 1) (prompt.length + x + 2)) := by
      rw [hturn.embeds_eq r hmem]
      exact (unstamped_embedRows emb _).slice _ _
    exact .inl ⟨hlt, st', ⟨forwarded_of_toss hbase henough htoss htask hpre' hidx,
      hmarked.snoc_unstamped htask hun, input, hnext, hemb ▸ hun⟩, hpad⟩
  · obtain ⟨input, hnext, hun⟩ := h.nextInputs
    have hnext' : (l.st.prepared r prompt.length x).nextInputs = some input := hnext
    obtain ⟨st', htoss, htask, hpre', hidx, hpad, hkeep⟩ :=
      toss_stale hputs hpre (by rw [htarget]; exact hge) hnext' hroles
    exact .inr ⟨hge, st', ⟨forwarded_of_toss hbase henough htoss htask hpre' hidx,
      hmarked.snoc_unstamped htask hun, input, hkeep, hun⟩, hpad⟩

/-- The final result has a row for the marker iff the deciding result has three tokens. -/
lemma textPhase_final_row (h : TextPhase emb prompt results seen l) (hin : l.inbox = [r])
    (hleft : relayCount (9999 - prompt.length) seen < r.tokenIds.length) :
    ∃ st' y, Tossed puts emb prompt results [] r l st' y ∧
      ((3 ≤ (if prompt.length + 1 < 10000 then (seen ++ [r.tokenIds.length]).headD 0
          else r.tokenIds.length) ∧ ∃ e, st'.padEmbeds = some [e]) ∨
        (¬ 3 ≤ (if prompt.length + 1 < 10000 then (seen ++ [r.tokenIds.length]).headD 0
          else r.tokenIds.length) ∧ (st'.padEmbeds = none ∨ st'.padEmbeds = some []))) := by
  obtain ⟨hmem, hfin, -⟩ := hturn.final (hin ▸ h.suffix)
  have htwo : 2 ≤ r.tokenIds.length := h.twoLe r (by simp [hin])
  have htarget : resultTarget prompt.length r = prompt.length + r.tokenIds.length := by
    simp [resultTarget, hfin]
  obtain ⟨x, hx⟩ : ∃ x, relayCount (9999 - prompt.length) seen = x := ⟨_, rfl⟩
  rw [hx] at hleft
  have htoss := textPhase_toss hputs hturn h hin hx hleft
  rw [htarget] at htoss
  have hstored := h.stored
  by_cases hfresh : l.st.padEmbeds = none
  · -- nothing is stored yet, so the row behind the prompt goes out
    rw [hfresh] at hstored
    obtain ⟨hzero, hdecide⟩ := storedRow_none (g := r.tokenIds.length) hstored
    obtain rfl : x = 0 := hx.symm.trans hzero
    rw [hdecide]
    rcases htoss with ⟨-, st', ht, hpad⟩ | ⟨hge, -⟩
    · refine ⟨st', 1, ht, ?_⟩
      rw [hpad, hfresh]
      rcases slice_row_cases hturn hmem 0 with ⟨hlen, hrow⟩ | ⟨hlen, hrow⟩
      · exact .inl ⟨hlen, _, congrArg some hrow⟩
      · exact .inr ⟨by omega, .inr (congrArg some hrow)⟩
    · omega
  · -- the first result behind the prefill has stored what is sent
    obtain ⟨p, hp⟩ := Option.ne_none_iff_exists'.mp hfresh
    have hdecided := storedRow_some (g := r.tokenIds.length) hfresh hstored
    rcases htoss with ⟨-, st', ht, hpad⟩ | ⟨-, st', ht, hpad⟩
    · refine ⟨st', x + 1, ht, ?_⟩
      rw [hp] at hpad hdecided
      rw [hpad]
      exact hdecided
    · refine ⟨st', x, ht, ?_⟩
      rw [hpad]
      exact hdecided

include hlens

/-- A non-final result is noted, with or without a row relayed for it. -/
lemma textPhase_recv (h : TextPhase emb prompt results seen l) (hin : l.inbox = r :: rest)
    (hmore : rest ≠ []) :
    TextPhase emb prompt results (seen ++ [r.tokenIds.length])
      (RelayLoop.recvResult puts { l with inbox := rest } r) := by
  have hsuf : r :: rest <:+ results := hin ▸ h.suffix
  have hmem : r ∈ results := hsuf.subset mem_cons_self
  have hunfin : r.finished = false := hturn.finished_eq_false hsuf hmore
  have htwo : 2 ≤ r.tokenIds.length := h.twoLe r (by simp [hin])
  have hle := h.relayCount_le hlens hin
  have hcount := relayCount_append_singleton (9999 - prompt.length) seen r.tokenIds.length
  obtain ⟨x, hx⟩ : ∃ x, relayCount (9999 - prompt.length) seen = x := ⟨_, rfl⟩
  have hzero : seen = [] → x = 0 := by
    rintro rfl
    exact hx.symm
  rw [hx] at hle hcount
  rcases lt_or_ge x r.tokenIds.length with hleft | hnone
  · have htarget : resultTarget prompt.length r = 10000 := by simp [resultTarget, hunfin]
    rcases textPhase_toss hputs hturn h hin hx hleft with
      ⟨hlt, st', ht, hpad⟩ | ⟨hge, st', ht, hpad⟩
    · -- a row has gone out
      rw [htarget] at hlt
      rw [if_pos ⟨hleft, by omega⟩] at hcount
      exact ht.textPhase hturn h hin hmore hcount
        (hpad ▸ storedRow_toss hturn hmem hzero hlt h.stored)
    · -- the initial target has been reached
      rw [htarget] at hge
      rw [if_neg (by omega)] at hcount
      exact ht.textPhase hturn h hin hmore hcount (hpad ▸ storedRow_cap hzero hge h.stored)
  · -- no token is left to relay
    rw [if_neg (by omega)] at hcount
    have hbase : l.st.StandsAt r prompt.length x := .inr ⟨hx ▸ h.sentIdx, h.base⟩
    have hfew : r.tokenIds.length < x + (if l.st.isStg1Prefilled then 1 else 2) := by
      simp only [h.prefilled, if_true]
      omega
    have hne : seen ≠ [] := by
      intro hnil
      have := hzero hnil
      omega
    rw [recvResult_of_few (l := { l with inbox := rest }) hbase hfew]
    refine ⟨⟨h.rest.ready, h.rest.idle, h.rest.raised⟩, (suffix_cons r rest).trans hsuf, hmore,
      ?_, fun r' hr' => h.twoLe r' (by simp [hin, hr']), h.prefilled, by rw [hcount]; rfl, rfl, ?_,
      (storedRow_append_singleton hne).mpr h.stored, h.marked, h.nextInputs⟩
    · rw [h.lens, hin, genLens_cons, append_assoc, singleton_append]
    · simpa [RelayState.prepared, hunfin] using h.target

/-- The final result ends the relay one way or the other. -/
lemma endPhase_of_final (h : TextPhase emb prompt results seen l) (hin : l.inbox = [r]) :
    EndPhase puts (embedRows emb (prompt.length + prefillLen results - 1))
      (DeliversMarker prompt.length results)
      (RelayLoop.recvResult puts { l with inbox := [] } r) := by
  obtain ⟨hmem, hfin, hG⟩ := hturn.final (hin ▸ h.suffix)
  have hafter : afterPrefill results = seen ++ [r.tokenIds.length] := by
    rw [h.lens, hin]
    rfl
  have hseen : seen.Pairwise (· ≤ ·) := (pairwise_append.mp (h.pairwise hlens)).1
  have hdelivers : DeliversMarker prompt.length results ↔
      3 ≤ (if prompt.length + 1 < 10000 then (seen ++ [r.tokenIds.length]).headD 0
        else r.tokenIds.length) ∧
      relayCount (9999 - prompt.length) seen < r.tokenIds.length := by
    rw [DeliversMarker, hafter, hG, dropLast_concat, relayCount_lt_iff hseen]
    simp
  rcases lt_or_ge (relayCount (9999 - prompt.length) seen) r.tokenIds.length with hleft | hnone
  · obtain ⟨st', y, ht, hpad⟩ := textPhase_final_row hputs hturn h hin hleft
    have hlast : Unstamped st'.lastEmbeds := by
      rw [ht.lastEmbeds]
      simp only [RelayState.prepared, hfin, if_true, hturn.embeds_eq r hmem]
      exact unstamped_embedRows emb _
    rw [ht.recv, hfin, if_pos rfl]
    rcases hpad with ⟨hthree, hrow⟩ | ⟨hthree, hrow⟩
    · refine .marked ?_ (hdelivers.mpr ⟨hthree, hleft⟩)
      exact flushPhase_resumeFlush (flushRule_marked hputs _) y h.rest.ready rfl h.rest.raised
        ⟨ht.marked, ht.current, hrow, hlast⟩
    · refine .failing ?_ fun hd => hthree (hdelivers.mp hd).1
      exact flushPhase_resumeFlush (flushRule_unmarkable hputs) y h.rest.ready rfl h.rest.raised
        ⟨ht.current, hrow⟩
  · -- no token is left, and the branch that sends the marker is not reached
    have hbase : l.st.StandsAt r prompt.length (relayCount (9999 - prompt.length) seen) :=
      .inr ⟨h.sentIdx, h.base⟩
    have hfew : r.tokenIds.length < relayCount (9999 - prompt.length) seen +
        (if l.st.isStg1Prefilled then 1 else 2) := by
      simp only [h.prefilled, if_true]
      omega
    rw [recvResult_of_few (l := { l with inbox := [] }) hbase hfew]
    refine .silent ⟨h.rest.ready, h.rest.idle, h.rest.raised⟩ rfl (fun hone => ?_)
      fun hd => absurd (hdelivers.mp hd).2 (by omega)
    have hcontra := MarkedTimes.unique h.marked hone
    omega

/-- The result that becomes the prefill starts the text, or ends it at once. -/
lemma endInv_recv_prefill (hwait : WaitPhase prompt results l)
    (hafter : afterPrefill l.inbox = afterPrefill results) (hin : l.inbox = r :: rest)
    (hlong : 2 ≤ r.tokenIds.length) :
    EndInv puts emb prompt results (RelayLoop.recvResult puts { l with inbox := rest } r) := by
  have hsuf : r :: rest <:+ results := hin ▸ hwait.suffix
  rw [hin, afterPrefill_cons_of_le hlong] at hafter
  obtain ⟨st', hf, hsent, hpad, input, hnext, hok⟩ :=
    waitPhase_prefill hputs hturn hwait hin hlong
  have hfirst : MarkedTimes (embedRows emb (prompt.length + prefillLen results - 1)) 0
      st'.submitted := by
    obtain ⟨t, ht⟩ := length_eq_one_iff.mp hsent.length
    have hpayload := (hsent.task 0 t (by simp [ht])).2
    rw [RelayPayload, if_pos rfl] at hpayload
    exact ⟨t, [], ht, hpayload, rfl⟩
  rw [RelayPayload, if_pos rfl] at hok
  rw [hf.recv]
  rcases eq_or_ne rest [] with rfl | hmore
  · -- the final result is the prefill itself
    rw [(hturn.finished_iff hsuf).mpr rfl, if_pos rfl]
    refine .inr (.inr (.failing ?_ fun hd => hd.1 hafter.symm))
    exact flushPhase_resumeFlush (flushRule_unmarkable hputs) 0 hwait.rest.ready rfl
      hwait.rest.raised ⟨hf.current, .inl hpad⟩
  · have hunfin : r.finished = false := hturn.finished_eq_false hsuf hmore
    have hlater : ∀ r' ∈ rest, 2 ≤ r'.tokenIds.length := fun r' hr' =>
      hlong.trans (genLens_rel hlens hsuf hr')
    rw [hunfin, if_neg Bool.false_ne_true]
    refine .inr (.inl ⟨[], ⟨hwait.rest.ready, hwait.rest.idle, hwait.rest.raised⟩,
      (suffix_cons r rest).trans hsuf, hmore, hafter.symm, hlater, hf.prefilled, hf.sentIdx,
      hf.base, hf.target_eq hunfin hwait.target, hpad, hfirst, input, hnext, ?_⟩)
    rw [hok]
    exact unstamped_embedRows emb _

lemma endInv_recv_wait (hwait : WaitPhase prompt results l)
    (hafter : afterPrefill l.inbox = afterPrefill results) (hin : l.inbox = r :: rest) :
    EndInv puts emb prompt results (RelayLoop.recvResult puts { l with inbox := rest } r) := by
  rcases lt_or_ge r.tokenIds.length 2 with hshort | hlong
  · exact endInv_recv_short hturn hwait hafter hin hshort
  · exact endInv_recv_prefill hputs hturn hlens hwait hafter hin hlong

lemma endInv_step {l' : RelayLoop ε} {a : RelayAct} (h : EndInv puts emb prompt results l)
    (hstep : relayStep puts l a = some l') :
    EndInv puts emb prompt results l' := by
  rcases h with ⟨hwait, hafter⟩ | ⟨seen, htext⟩ | hend
  · rcases relayStep_cases hstep with ⟨r, rest, -, -, hin, rfl⟩ | ⟨t, rest, hready, -⟩
    · exact endInv_recv_wait hputs hturn hlens hwait hafter hin
    · rw [hwait.rest.ready] at hready
      cases hready
  · rcases relayStep_cases hstep with ⟨r, rest, -, -, hin, rfl⟩ | ⟨t, rest, hready, -⟩
    · rcases eq_or_ne rest [] with rfl | hmore
      · exact .inr (.inr (endPhase_of_final hputs hturn hlens htext hin))
      · exact .inr (.inl ⟨_, textPhase_recv hputs hturn hlens htext hin hmore⟩)
    · rw [htext.rest.ready] at hready
      cases hready
  · exact .inr (.inr (endPhase_step hputs hend hstep))

/-- Every turn gets processed. -/
lemma exists_run_processed (inbox : List (ThinkerResult ε)) :
    ∀ l : RelayLoop ε, l.inbox = inbox → EndInv puts emb prompt results l →
      ∃ acts l', run (relayStep puts) l acts = some l' ∧ l'.inbox = [] ∧
        (l'.idle = true ∨ l'.raised = true) := by
  induction inbox with
  | nil =>
    intro l hin hinv
    rcases hinv with ⟨hwait, -⟩ | ⟨seen, htext⟩ | hend
    · exact absurd hin hwait.nonempty
    · exact absurd hin htext.nonempty
    · cases hend with
      | silent hrest => exact ⟨[], l, rfl, hin, .inl hrest.idle⟩
      | marked hphase => exact hphase.exists_run_end (flushRule_marked hputs _)
      | failing hphase => exact hphase.exists_run_end (flushRule_unmarkable hputs)
  | cons r rest ih =>
    intro l hin hinv
    have hrest : Resting l := by
      rcases hinv with ⟨hwait, -⟩ | ⟨seen, htext⟩ | hend
      · exact hwait.rest
      · exact htext.rest
      · have hempty : l.inbox = [] := by
          cases hend with
          | silent _ hempty => exact hempty
          | marked hphase => cases hphase <;> assumption
          | failing hphase => cases hphase <;> assumption
        rw [hempty] at hin
        cases hin
    have hstep := relayStep_recv puts hrest hin
    obtain ⟨acts, l', hrun, hl'⟩ :=
      ih _ (inbox_recvResult puts _ r) (endInv_step hputs hturn hlens hinv hstep)
    exact ⟨.recv :: acts, l', run_cons_eq_some.mpr ⟨_, hstep, hrun⟩, hl'⟩

end Turn

/-- The end of the text reaches the talker iff a result follows the one that becomes the prefill,
the first that does has three tokens, and a token is left to relay at the final result. -/
theorem endOfTextDelivered_iff (hputs : ∀ i, puts i = true)
    (hturn : ThinkerTurn emb prompt results) (hlens : (genLens results).Pairwise (· ≤ ·)) :
    EndOfTextDelivered puts emb prompt results ↔ DeliversMarker prompt.length results := by
  have hstart : EndInv puts emb prompt results { inbox := results } :=
    .inl ⟨waitPhase_start hturn, rfl⟩
  have hinv : ∀ acts l, run (relayStep puts) { inbox := results } acts = some l →
      EndInv puts emb prompt results l := fun acts l hrun =>
    run_invariant (fun _ _ _ hi hs => endInv_step hputs hturn hlens hi hs) hstart hrun
  constructor
  · intro hdelivered
    obtain ⟨acts, l, hrun, hin, hdone⟩ :=
      exists_run_processed hputs hturn hlens results _ rfl hstart
    exact (endInv_processed hputs (hinv acts l hrun) hin hdone).mp
      (hdelivered acts l hrun hin hdone)
  · intro hdelivers acts l hrun hin hdone
    exact (endInv_processed hputs (hinv acts l hrun) hin hdone).mpr hdelivers

end Steps

/-- A reply seen after two, three, three and three tokens gets its marker: one token was left. -/
theorem endOfTextDelivered_repeated :
    EndOfTextDelivered (fun _ => true) id shortPrompt
      [shortResult 2 false, shortResult 3 false, shortResult 3 false, shortResult 3 true] :=
  (endOfTextDelivered_iff (fun _ => rfl) (thinkerTurn_short [2, 3, 3] 3) (by decide)).mpr
    ⟨by decide, by decide, .inr ⟨[], [3, 3], rfl, by decide⟩⟩

/-- A reply of one token gets no marker. -/
theorem endOfTextDelivered_fails_one_token :
    ThinkerTurn id shortPrompt [shortResult 1 true] ∧
      (genLens [shortResult 1 true]).Pairwise (· ≤ ·) ∧
      ¬ EndOfTextDelivered (fun _ => true) id shortPrompt [shortResult 1 true] := by
  refine ⟨thinkerTurn_short [] 1, by decide, fun hdelivered => ?_⟩
  have hrun : run (relayStep fun _ => true) { inbox := [shortResult 1 true] } [.recv] = some _ :=
    rfl
  obtain ⟨-, first, rest, hsub, -⟩ := hdelivered _ _ hrun rfl (.inl rfl)
  cases hsub

end OmniStreaming
