import OmniStreaming.Model.StageInputs

/-!
# The talker's prefill

The thinker's prompt is a sequence of ChatML segments. In one process `thinker2talker` counts the
rows the talker will prefill and puts that many placeholders into its prompt; in another process the
talker builds the rows from the segments: one row for each token of a user segment, nine rows for
the last assistant segment. Both walk over the same segments, so they come to the same number.
-/

namespace OmniStreaming

open List Slices

variable {ρ σ : Type}

/-! ## The rows of the prefill -/

inductive PrefillError
  /-- `zero-dimensional tensor cannot be concatenated` -/
  | zeroDim
  /-- An index past the end, or a mask of another length. -/
  | indexError
  /-- `Expect role id after <|im_start|> (assistant, user, system)` -/
  | badRole
  /-- Sizes of a sum that do not match. -/
  | shapeMismatch
  /-- `torch.cat` without a tensor -/
  | emptyCat
  deriving Repr, DecidableEq

/-- The talker: projections, embedding and the ids of its configuration, with the ChatML ids that
the thinker's side counts with. -/
structure TalkerModel (ρ σ : Type) where
  textProjection : ρ → σ
  hiddenProjection : ρ → σ
  embedInputIds : ℕ → σ
  audioTokenId : ℕ
  imageTokenId : ℕ
  videoTokenId : ℕ
  codecNothinkId : ℕ
  codecThinkBosId : ℕ
  codecThinkEosId : ℕ
  codecPadId : ℕ
  codecBosId : ℕ
  ttsPadTokenId : ℕ

/-- `<|im_end|>`. -/
def imEndTokenId : ℕ := 151645

namespace TalkerModel

variable (m : TalkerModel ρ σ)

def getTalkerUserParts (s e : ℕ) (multimodalMask : List Bool)
    (thinkerHidden thinkerEmbed : List ρ) : Except PrefillError (List σ) :=
  let mask := slice multimodalMask s e
  let hidden := slice thinkerHidden s e
  let embed := slice thinkerEmbed s e
  if mask.length = e - s ∧ embed.length = mask.length then
    if mask.any id then
      if hidden.length = mask.length then
        .ok (zipWith (fun isMm (h, x) =>
          if isMm then m.hiddenProjection h else m.textProjection x) mask (hidden.zip embed))
      else .error .indexError
    else .ok (embed.map m.textProjection)
  else .error .indexError

/-- `_proj_from_thinker`, on an embedding of three dimensions. -/
def projFromThinker [Zero ρ] (x : List (List ρ)) : σ :=
  m.textProjection ((x.headD []).getLastD 0)

/-- What the segments give: rows, ids, and the text that the talker speaks later. -/
structure Part (σ : Type) where
  embeds : List σ
  ids : List ℕ
  trailing : Option (List σ) := none

def getTalkerAssistantParts [Zero σ] [Add σ] (s e speakerId : ℕ) (thinkerEmbed : List ρ)
    (ttsPadEmbed ttsBosEmbed ttsEosEmbed : σ) : Except PrefillError (Part σ) :=
  let hidden := (slice thinkerEmbed s e).map m.textProjection
  let text := hidden.take 3 ++ replicate 4 ttsPadEmbed ++ [ttsBosEmbed] ++ slice hidden 3 4
  let special := [m.codecNothinkId, m.codecThinkBosId, m.codecThinkEosId, speakerId, m.codecPadId,
    m.codecBosId]
  let codec := replicate 3 0 ++ special.map m.embedInputIds
  if text.length = codec.length then
    .ok { embeds := zipWith (· + ·) text codec
          ids := replicate text.length m.ttsPadTokenId
          trailing := some (hidden.drop 4 ++ [ttsEosEmbed]) }
  else .error .shapeMismatch

variable [Zero ρ] [Zero σ] [Add σ]

/-- The loop over the segments from the one at `s` on. -/
def prefillLoop (info : ThinkerInfo ρ) (speakerId : ℕ) (mask : List Bool) :
    List ℕ → Except PrefillError (List (Part σ))
  | s :: e :: rest =>
    match info.thinkerInputIds[s + 1]? with
    | none => .error .indexError
    | some role => do
      let parts ←
        if role = systemTokenId then .ok []
        else if role = userTokenId then do
          let embeds ← m.getTalkerUserParts s e mask info.thinkerHiddenStates info.thinkerEmbeddings
          .ok [{ embeds := embeds, ids := slice info.thinkerSequences s e }]
        else if role = assistantTokenId ∧ rest = [] then do
          let part ← m.getTalkerAssistantParts s e speakerId info.thinkerEmbeddings
            (m.projFromThinker info.ttsPadEmbed) (m.projFromThinker info.ttsBosEmbed)
            (m.projFromThinker info.ttsEosEmbed)
          .ok [part]
        else if role = assistantTokenId ∧ rest ≠ [] then .ok []
        else .error .badRole
      let later ← prefillLoop info speakerId mask (e :: rest)
      .ok (parts ++ later)
  | _ => .ok []

/-- `_thinker_to_talker_prefill_relay`: the rows, ids and later text, and `im_start_indexes`. -/
def thinkerToTalkerPrefillRelay (info : ThinkerInfo ρ) (speakerId : ℕ) :
    Except PrefillError (Part σ × List ℕ) :=
  match info.thinkerInputIds.getLast? with
  | none => .error .indexError
  | some lastToken => do
    let t := info.thinkerSequences.length
    let finalIndex := if lastToken = imEndTokenId then t else t + 1
    let starts := imStartIndexes info.thinkerInputIds
    if starts.length = 1 then .error .zeroDim
    let mask := info.thinkerSequences.map fun id =>
      id = m.audioTokenId || id = m.imageTokenId || id = m.videoTokenId
    let parts ← m.prefillLoop info speakerId mask (starts ++ [finalIndex])
    if parts.isEmpty then .error .emptyCat
    else .ok ({ embeds := parts.flatMap Part.embeds
                ids := parts.flatMap Part.ids
                trailing := (parts.filterMap Part.trailing).getLast? }, starts ++ [finalIndex])

end TalkerModel

/-! ## ChatML prompts -/

/-- The roles of the segments. -/
inductive ChatRole
  | system
  | user
  | assistant
  deriving Repr, DecidableEq

/-- The token of a role. -/
def ChatRole.tokenId : ChatRole → ℕ
  | .system => systemTokenId
  | .user => userTokenId
  | .assistant => assistantTokenId

/-- A segment: its role and the tokens behind the role. -/
structure Segment where
  role : ChatRole
  body : List ℕ
  imStart_notMem : imStartTokenId ∉ body

/-- The tokens of a segment. -/
def Segment.tokens (seg : Segment) : List ℕ := imStartTokenId :: seg.role.tokenId :: seg.body

/-- The tokens of segments. -/
def tokensOf (segs : List Segment) : List ℕ := segs.flatMap Segment.tokens

/-- The line break behind the role. -/
def newlineTokenId : ℕ := 198

/-- A prompt of at least two segments, the last of which the assistant is to continue. -/
structure SegmentedPrompt where
  history : List Segment
  tail : List ℕ
  history_ne_nil : history ≠ []
  imStart_notMem : imStartTokenId ∉ tail

namespace SegmentedPrompt

/-- The last segment. -/
def last (c : SegmentedPrompt) : List ℕ :=
  imStartTokenId :: assistantTokenId :: newlineTokenId :: c.tail

/-- The tokens of the prompt. -/
def tokens (c : SegmentedPrompt) : List ℕ := tokensOf c.history ++ c.last

/-- The place of the last segment. -/
def lastStart (c : SegmentedPrompt) : ℕ := (tokensOf c.history).length

end SegmentedPrompt

/-- The number of tokens in the user segments. -/
def userRows (segs : List Segment) : ℕ :=
  ((segs.filter (·.role = .user)).map fun seg => seg.tokens.length).sum

/-- The places of segments whose first one has the place `n`. -/
def segmentStarts (n : ℕ) : List Segment → List ℕ
  | [] => []
  | seg :: segs => n :: segmentStarts (n + seg.tokens.length) segs

lemma findIdxs_cons_role (n : ℕ) (role : ChatRole) {body : List ℕ} (h : imStartTokenId ∉ body) :
    (imStartTokenId :: role.tokenId :: body).findIdxs (· == imStartTokenId) n = [n] := by
  have hrole : role.tokenId ≠ imStartTokenId := by cases role <;> decide
  have hbody (k : ℕ) : body.findIdxs (· == imStartTokenId) k = [] := by
    refine findIdxs_eq_nil_iff.mpr fun x hx => ?_
    exact beq_eq_false_iff_ne.mpr fun he => h (he ▸ hx)
  simp [findIdxs_cons, hrole, hbody]

/-- The starts of all segments. -/
lemma findIdxs_tokensOf (n : ℕ) (segs : List Segment) :
    (tokensOf segs).findIdxs (· == imStartTokenId) n = segmentStarts n segs := by
  induction segs generalizing n with
  | nil => rfl
  | cons seg segs ih =>
    rw [tokensOf, flatMap_cons, findIdxs_append, ← tokensOf, ih, Segment.tokens,
      findIdxs_cons_role n seg.role seg.imStart_notMem]
    rfl

/-- The starts that the talker finds. -/
lemma SegmentedPrompt.imStartIndexes_tokens (c : SegmentedPrompt) :
    imStartIndexes c.tokens = segmentStarts 0 c.history ++ [c.lastStart] := by
  have htail : imStartTokenId ∉ newlineTokenId :: c.tail :=
    not_mem_cons_of_ne_of_not_mem (by decide) c.imStart_notMem
  rw [imStartIndexes, tokens, findIdxs_append, findIdxs_tokensOf, zero_add, last]
  exact congrArg _ (findIdxs_cons_role _ .assistant htail)

lemma segmentStarts_cons_append (n e : ℕ) (seg : Segment) (segs : List Segment) :
    ∃ rest, rest ≠ [] ∧
      segmentStarts n (seg :: segs) ++ [n + (tokensOf (seg :: segs)).length, e] =
        n :: (n + seg.tokens.length) :: rest ∧
      segmentStarts (n + seg.tokens.length) segs ++
        [n + seg.tokens.length + (tokensOf segs).length, e] = (n + seg.tokens.length) :: rest := by
  rw [tokensOf, flatMap_cons, length_append, ← tokensOf, ← Nat.add_assoc, segmentStarts]
  cases segs with
  | nil => exact ⟨[e], cons_ne_nil _ _, rfl, rfl⟩
  | cons seg' segs =>
    exact ⟨_, append_ne_nil_of_right_ne_nil _ (cons_ne_nil _ _), rfl, rfl⟩

lemma userRows_cons (seg : Segment) (segs : List Segment) :
    userRows (seg :: segs) =
      (if seg.role = .user then seg.tokens.length else 0) + userRows segs := by
  rw [userRows, filter_cons]
  by_cases h : seg.role = .user
  · rw [if_pos h, if_pos (decide_eq_true h), map_cons, sum_cons, userRows]
  · rw [if_neg h, if_neg (by simpa using h), zero_add, userRows]

/-! ## The two loops -/

lemma getElem?_role (before after : List ℕ) (role : ℕ) :
    (before ++ (imStartTokenId :: role :: after))[before.length + 1]? = some role := by
  rw [getElem?_append_right (Nat.le_succ _), Nat.succ_sub (le_refl _), Nat.sub_self]
  rfl

/-- The ids from a segment on. -/
lemma tokensOf_cons_append (before after : List ℕ) (seg : Segment) (segs : List Segment) :
    before ++ (tokensOf (seg :: segs) ++ after) =
      (before ++ seg.tokens) ++ (tokensOf segs ++ after) := by
  rw [tokensOf, flatMap_cons, ← tokensOf]
  simp only [append_assoc]

/-- The counts of the segments behind `before`, the first of which is the `k`-th. -/
lemma talkerSpanLengths_eq (c : SegmentedPrompt) (e : ℕ) (segs : List Segment) (before : List ℕ)
    (k : ℕ) {idx : List ℕ} (hidx : idx = segmentStarts before.length segs ++
      [before.length + (tokensOf segs).length, e]) :
    ∃ ns, (((idx.zip idx.tail).zipIdx k).mapM fun x =>
        talkerSpanLength (before ++ (tokensOf segs ++ c.last)) (x.2 + 2 == k + idx.length)
          x.1.1 x.1.2) = some ns ∧ ns.sum = userRows segs + 9 := by
  induction segs generalizing before k idx with
  | nil =>
    subst hidx
    refine ⟨[9], ?_, rfl⟩
    simp only [segmentStarts, nil_append, tokensOf, flatMap_nil, length_nil,
      Nat.add_zero, tail_cons, zip_cons_cons, zip_nil_right, zipIdx_cons,
      zipIdx_nil, mapM_cons, mapM_nil, talkerSpanLength, SegmentedPrompt.last,
      getElem?_role, length_cons, beq_self_eq_true]
    rfl
  | cons seg segs ih =>
    obtain ⟨rest, hne, hcons, hnext⟩ := segmentStarts_cons_append before.length e seg segs
    obtain ⟨ns, hns, hsum⟩ := ih (before ++ seg.tokens) (k + 1)
      (show (before.length + seg.tokens.length) :: rest = _ by rw [length_append, hnext])
    rw [← tokensOf_cons_append] at hns
    have hrole : (before ++ (tokensOf (seg :: segs) ++ c.last))[before.length + 1]? =
        some seg.role.tokenId := by
      rw [tokensOf, flatMap_cons, Segment.tokens]
      exact getElem?_role before _ _
    have hlen : k + idx.length = k + 1 + ((before.length + seg.tokens.length) :: rest).length := by
      rw [hidx, hcons]
      simp only [length_cons]
      omega
    have hmiddle : (k + 2 == k + idx.length) = false := by
      have := length_pos_iff.mpr hne
      rw [beq_eq_false_iff_ne, hlen, length_cons]
      omega
    refine ⟨(if seg.role = .user then seg.tokens.length else 0) :: ns, ?_, ?_⟩
    · rw [hlen] at hmiddle ⊢
      rw [hidx, hcons, tail_cons, zip_cons_cons, zipIdx_cons, mapM_cons]
      simp only [talkerSpanLength, hrole, hmiddle, Option.map_some]
      simp only [tail_cons, talkerSpanLength] at hns
      rw [hns]
      cases seg.role <;> simp [ChatRole.tokenId, systemTokenId, userTokenId, assistantTokenId]
    · rw [sum_cons, hsum, userRows_cons, Nat.add_assoc]

variable {m : TalkerModel ρ σ}

/-- A user segment gives a row for each of its tokens. -/
lemma getTalkerUserParts_ok {s e : ℕ} {mask : List Bool} {hidden embed : List ρ}
    (hmask : e ≤ mask.length) (hhidden : e ≤ hidden.length) (hembed : e ≤ embed.length) :
    ∃ rows, m.getTalkerUserParts s e mask hidden embed = .ok rows ∧ rows.length = e - s := by
  have hm : (slice mask s e).length = e - s := by rw [length_slice]; omega
  have hh : (slice hidden s e).length = e - s := by rw [length_slice]; omega
  have hx : (slice embed s e).length = e - s := by rw [length_slice]; omega
  simp only [TalkerModel.getTalkerUserParts, hm, hh, hx, and_self, if_true]
  split
  · exact ⟨_, rfl, by simp [hm, hh, hx]⟩
  · exact ⟨_, rfl, by simp [hx]⟩

/-- The last segment gives nine rows. -/
lemma getTalkerAssistantParts_ok [Zero σ] [Add σ] {s e : ℕ} {embed : List ρ} (hend : s + 4 ≤ e)
    (hembed : s + 4 ≤ embed.length) (speakerId : ℕ) (pad bos eos : σ) :
    ∃ part, m.getTalkerAssistantParts s e speakerId embed pad bos eos = .ok part ∧
      part.embeds.length = 9 := by
  have hlen : 4 ≤ (slice embed s e).length := by rw [length_slice]; omega
  have htake : (((slice embed s e).map m.textProjection).take 3).length = 3 := by
    rw [length_take, length_map]
    omega
  have hfirst : (slice ((slice embed s e).map m.textProjection) 3 4).length = 1 := by
    rw [length_slice, length_map]
    omega
  simp only [TalkerModel.getTalkerAssistantParts, length_append, htake, hfirst,
    length_replicate, length_map, length_cons, length_nil, if_true]
  exact ⟨_, rfl, by simp [htake, hfirst]⟩

variable [Zero ρ] [Zero σ] [Add σ]

lemma prefillLoop_ok (c : SegmentedPrompt) (info : ThinkerInfo ρ) (mask : List Bool) {e : ℕ}
    (speakerId : ℕ) (hmask : c.lastStart ≤ mask.length)
    (hhidden : c.lastStart ≤ info.thinkerHiddenStates.length)
    (hembed : c.lastStart + 4 ≤ info.thinkerEmbeddings.length) (hend : c.lastStart + 4 ≤ e)
    (segs : List Segment) (before : List ℕ)
    (hids : info.thinkerInputIds = before ++ (tokensOf segs ++ c.last))
    (hstart : before.length + (tokensOf segs).length = c.lastStart) :
    ∃ parts, m.prefillLoop info speakerId mask (segmentStarts before.length segs ++
        [before.length + (tokensOf segs).length, e]) = .ok parts ∧ parts ≠ [] ∧
      (parts.flatMap TalkerModel.Part.embeds).length = userRows segs + 9 := by
  induction segs generalizing before with
  | nil =>
    rw [tokensOf, flatMap_nil, length_nil, Nat.add_zero] at hstart
    obtain ⟨part, hpart, hnine⟩ := getTalkerAssistantParts_ok (m := m) (hstart ▸ hend)
      (hstart ▸ hembed) speakerId (m.projFromThinker info.ttsPadEmbed)
      (m.projFromThinker info.ttsBosEmbed) (m.projFromThinker info.ttsEosEmbed)
    have hrole : info.thinkerInputIds[before.length + 1]? = some assistantTokenId := by
      rw [hids]
      exact getElem?_role before _ _
    refine ⟨[part], ?_, cons_ne_nil _ _, by simp [hnine, userRows]⟩
    simp only [segmentStarts, nil_append, tokensOf, flatMap_nil, length_nil,
      Nat.add_zero, TalkerModel.prefillLoop, hrole, hpart]
    rfl
  | cons seg segs ih =>
    have hlen : (tokensOf (seg :: segs)).length = seg.tokens.length + (tokensOf segs).length := by
      rw [tokensOf, flatMap_cons, length_append, ← tokensOf]
    obtain ⟨later, hlater, hlaterne, hrows⟩ := ih (before ++ seg.tokens)
      (by rw [hids, tokensOf_cons_append]) (by rw [length_append]; omega)
    rw [length_append] at hlater
    obtain ⟨rest, hne, hcons, hnext⟩ := segmentStarts_cons_append before.length e seg segs
    rw [hnext] at hlater
    have hrole : info.thinkerInputIds[before.length + 1]? = some seg.role.tokenId := by
      rw [hids, tokensOf, flatMap_cons, Segment.tokens]
      exact getElem?_role before _ _
    simp only [hcons, TalkerModel.prefillLoop, hrole, hlater, userRows_cons]
    cases seg.role with
    | system => exact ⟨later, rfl, hlaterne, by simpa using hrows⟩
    | user =>
      have hseg : before.length + seg.tokens.length ≤ c.lastStart := by omega
      obtain ⟨rows, hok, hcount⟩ := getTalkerUserParts_ok (m := m) (s := before.length)
        (hseg.trans hmask) (hseg.trans hhidden)
        (hseg.trans ((Nat.le_add_right _ 4).trans hembed))
      rw [Nat.add_sub_cancel_left] at hcount
      rw [hok]
      refine ⟨_, rfl, cons_ne_nil _ _, ?_⟩
      simp [hcount, hrows, Nat.add_assoc]
    | assistant =>
      simp only [ChatRole.tokenId, hne, ne_eq, not_false_eq_true, and_true, and_false, if_true,
        if_false]
      exact ⟨later, rfl, hlaterne, by simpa using hrows⟩

/-! ## The two processes -/

/-- What the thinker hands over for ChatML segments: embeddings with four rows from the last segment
on, and hidden states of the segments before. -/
structure ChatOutput (o : ThinkerEngineOutput ρ) (c : SegmentedPrompt) : Prop where
  prompt : o.promptTokenIds = c.tokens
  embeddings : c.lastStart + 4 ≤ o.layer0.length
  hiddenStates : c.lastStart ≤ o.layer24.length

omit [Zero ρ] in
/-- The prompt of the talker has nine placeholders besides those of the user segments. -/
lemma talkerPrompt_eq {o : ThinkerEngineOutput ρ} {c : SegmentedPrompt} (h : ChatOutput o c) :
    talkerPrompt o = .ok { promptTokenIds := replicate (userRows c.history + 9) 0
                           additionalInformation := thinkerInfo o } := by
  have hone : o.layer0.length ≠ 1 := by have := h.embeddings; omega
  have hcount : computeTalkerPromptIdsLength c.tokens (c.tokens ++ o.tokenIds) =
      some (userRows c.history + 9) := by
    have hidx : imStartIndexes c.tokens ++ [(c.tokens ++ o.tokenIds).length] =
        segmentStarts 0 c.history ++
          [0 + (tokensOf c.history).length, (c.tokens ++ o.tokenIds).length] := by
      rw [c.imStartIndexes_tokens, append_assoc, Nat.zero_add]
      rfl
    obtain ⟨ns, hns, hsum⟩ := talkerSpanLengths_eq c _ c.history [] 0 hidx
    rw [nil_append, ← SegmentedPrompt.tokens, Nat.zero_add] at hns
    exact (congrArg (Option.map sum) hns).trans (congrArg some hsum)
  rw [talkerPrompt, if_neg hone, h.prompt, hcount]
  rfl

/-- The last segment has four tokens at least, where one more than generated so far counts. -/
lemma SegmentedPrompt.lastStart_add_four_le (c : SegmentedPrompt) (generated : List ℕ) :
    ∃ lastToken, c.tokens.getLast? = some lastToken ∧
      c.lastStart + 4 ≤ if lastToken = imEndTokenId then (c.tokens ++ generated).length
        else (c.tokens ++ generated).length + 1 := by
  have hlen : (c.tokens ++ generated).length =
      c.lastStart + 3 + c.tail.length + generated.length := by
    rw [length_append, tokens, length_append, last, lastStart]
    simp only [length_cons]
    omega
  have hlast : c.tokens.getLast? = some (c.tail.getLast?.getD newlineTokenId) := by
    simp [tokens, last, getLast?_append, getLast?_cons]
  refine ⟨_, hlast, ?_⟩
  rw [hlen]
  cases c.tail with
  | nil =>
    rw [if_neg (by decide)]
    simp
  | cons x xs =>
    rw [length_cons]
    split <;> omega

/-- The prefill has nine rows besides those of the user segments. -/
lemma thinkerToTalkerPrefillRelay_ok (m : TalkerModel ρ σ) {o : ThinkerEngineOutput ρ}
    {c : SegmentedPrompt} (h : ChatOutput o c) (speakerId : ℕ) :
    ∃ part starts, m.thinkerToTalkerPrefillRelay (thinkerInfo o) speakerId = .ok (part, starts) ∧
      part.embeds.length = userRows c.history + 9 := by
  obtain ⟨lastToken, hlast, hfinal⟩ := c.lastStart_add_four_le o.tokenIds
  generalize hindex : (if lastToken = imEndTokenId then (c.tokens ++ o.tokenIds).length
    else (c.tokens ++ o.tokenIds).length + 1) = finalIndex at hfinal
  have htwo : (segmentStarts 0 c.history ++ [c.lastStart]).length ≠ 1 := by
    obtain ⟨seg, segs, hhistory⟩ := exists_cons_of_ne_nil c.history_ne_nil
    simp [hhistory, segmentStarts]
  have hids : (thinkerInfo o).thinkerInputIds = c.tokens := h.prompt
  have hseq : (thinkerInfo o).thinkerSequences = c.tokens ++ o.tokenIds := by
    rw [thinkerInfo, h.prompt]
  obtain ⟨parts, hparts, hne, hrows⟩ := prefillLoop_ok (m := m) c (thinkerInfo o)
    ((c.tokens ++ o.tokenIds).map fun id =>
      id = m.audioTokenId || id = m.imageTokenId || id = m.videoTokenId)
    speakerId (by simp [SegmentedPrompt.tokens, SegmentedPrompt.lastStart]) h.hiddenStates
    h.embeddings hfinal c.history [] hids (by simp [SegmentedPrompt.lastStart])
  rw [length_nil, Nat.zero_add, ← SegmentedPrompt.lastStart] at hparts
  refine ⟨{ embeds := parts.flatMap TalkerModel.Part.embeds
            ids := parts.flatMap TalkerModel.Part.ids
            trailing := (parts.filterMap TalkerModel.Part.trailing).getLast? },
    segmentStarts 0 c.history ++ [c.lastStart, finalIndex], ?_, hrows⟩
  simp only [TalkerModel.thinkerToTalkerPrefillRelay, hids, hseq, hlast, c.imStartIndexes_tokens,
    htwo, hindex, if_false, append_assoc, singleton_append, hparts]
  exact if_neg (by simpa using hne)

/-- The talker gets as many placeholders as its prefill has rows: one for each token of a user
segment, and nine for the assistant. -/
theorem placeholders_eq_prefill_rows (m : TalkerModel ρ σ) (speakerId : ℕ)
    {stageList : List (Option (List (ThinkerEngineOutput ρ)))} {engineInputSource : List ℕ}
    {outputs : List (ThinkerEngineOutput ρ)}
    (hsource : sourceOutputs stageList engineInputSource = .ok outputs)
    (houtputs : ∀ o ∈ outputs, ∃ c, ChatOutput o c) :
    ∃ prompts, StageInputs.thinker2talker stageList engineInputSource = .ok prompts ∧
      List.Forall₂ (fun o p => ∀ c, ChatOutput o c → ∃ part starts,
        m.thinkerToTalkerPrefillRelay p.additionalInformation speakerId = .ok (part, starts) ∧
        p.promptTokenIds.length = part.embeds.length ∧
        part.embeds.length = userRows c.history + 9) outputs prompts := by
  rw [StageInputs.thinker2talker, hsource]
  change ∃ prompts, outputs.mapM talkerPrompt = .ok prompts ∧ _
  clear hsource
  induction outputs with
  | nil => exact ⟨[], rfl, .nil⟩
  | cons o outputs ih =>
    obtain ⟨c, hc⟩ := houtputs o mem_cons_self
    obtain ⟨prompts, hprompts, hrows⟩ := ih fun o' ho' => houtputs o' (mem_cons_of_mem o ho')
    obtain ⟨p, hp⟩ : ∃ p, talkerPrompt o = .ok p := ⟨_, talkerPrompt_eq hc⟩
    refine ⟨p :: prompts, ?_, .cons (fun c hc => ?_) hrows⟩
    · rw [mapM_cons, hp, hprompts]
      rfl
    · obtain ⟨part, starts, hpart, hlen⟩ := thinkerToTalkerPrefillRelay_ok m hc speakerId
      cases hp.symm.trans (talkerPrompt_eq hc)
      exact ⟨part, starts, hpart, by rw [hlen, length_replicate], hlen⟩

/-- A system segment, a user segment with an image, an older answer, a user segment, and the
assistant's turn with two tokens. -/
def chatExample : SegmentedPrompt where
  history :=
    [⟨.system, [198, 2610, 151645, 198], by decide⟩,
      ⟨.user, [198, 151655, 3838, 151645, 198], by decide⟩,
      ⟨.assistant, [198, 32, 151645, 198], by decide⟩,
      ⟨.user, [198, 10234, 30, 151645, 198], by decide⟩]
  tail := []
  history_ne_nil := cons_ne_nil _ _
  imStart_notMem := by decide

/-- An output of the thinker for this prompt. -/
def chatExampleOutput : ThinkerEngineOutput ℕ where
  promptTokenIds := chatExample.tokens
  tokenIds := [9707, 11]
  layer0 := range 30
  layer24 := range 30
  ttsBosEmbed := [[1]]
  ttsEosEmbed := [[2]]
  ttsPadEmbed := [[3]]

/-- A talker whose projections keep the rows. -/
def plainTalker : TalkerModel ℕ ℕ where
  textProjection := id
  hiddenProjection := id
  embedInputIds := id
  audioTokenId := 151675
  imageTokenId := 151655
  videoTokenId := 151656
  codecNothinkId := 2155
  codecThinkBosId := 2156
  codecThinkEosId := 2157
  codecPadId := 2148
  codecBosId := 2149
  ttsPadTokenId := 151671

/-- The sample prompt. -/
theorem placeholders_chatExample :
    (∀ o ∈ [chatExampleOutput], ∃ c, ChatOutput o c) ∧
    ∃ prompts, StageInputs.thinker2talker [some [chatExampleOutput]] [0] = .ok prompts ∧
      List.Forall₂ (fun o p => ∀ c, ChatOutput o c → ∃ part starts,
        plainTalker.thinkerToTalkerPrefillRelay p.additionalInformation 2301 = .ok (part, starts) ∧
        p.promptTokenIds.length = part.embeds.length ∧
        part.embeds.length = userRows c.history + 9) [chatExampleOutput] prompts := by
  have h : ∀ o ∈ [chatExampleOutput], ∃ c, ChatOutput o c := by
    intro o ho
    obtain rfl := mem_singleton.mp ho
    exact ⟨chatExample, rfl, by decide, by decide⟩
  exact ⟨h, placeholders_eq_prefill_rows plainTalker 2301 rfl h⟩

end OmniStreaming
