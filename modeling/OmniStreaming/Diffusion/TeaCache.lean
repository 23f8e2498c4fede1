import Mathlib.Algebra.BigOperators.Fin
import Mathlib.Tactic.NormNum

/-!
# TeaCache: reuse of the transformer's residual

`TeaCacheHook` stands in front of the transformer. For each branch of the classifier free guidance
it remembers the modulated input of the last call, the residual (output minus input) of the last
call that ran the blocks, and the sum of the distances between the modulated inputs since then.
While the sum is below the threshold, a call adds the residual to its input and does not run the
blocks.

The branch of a call is told by the parity of a counter, and each branch has a state of its own.
`HookTracks` ties the states to the calls made since the last reset: the state of a branch is
determined by the calls of this branch alone.
-/

namespace OmniStreaming

open List

variable {ι K V : Type*}

/-! ## Distances -/

structure TeaCacheConfig (K : Type*) [Zero K] [LT K] where
  relL1Thresh : K
  coefficients : List K
  thresh_pos : 0 < relL1Thresh
  length_eq : coefficients.length = 5

section Distance

variable [Field K] [LinearOrder K]

/-- `np.poly1d(coefficients)` at `x`. -/
def poly1d (coefficients : List K) (x : K) : K := coefficients.foldl (fun acc c => acc * x + c) 0

/-- `x.mean()`. -/
def tensorMean [Fintype ι] (x : ι → K) : K := (∑ i, x i) / Fintype.card ι

/-- The relative L1 distance of a modulated input from the one before. -/
def relDistance [Fintype ι] (x previous : ι → K) : K :=
  tensorMean (fun i => |x i - previous i|) / (tensorMean (fun i => |previous i|) + 1 / 10 ^ 8)

/-- The distance as it is accumulated. -/
def rescaledDistance [Fintype ι] (c : TeaCacheConfig K) (x previous : ι → K) : K :=
  |poly1d c.coefficients (relDistance x previous)|

end Distance

/-! ## The hook -/

/-- The branches of the guidance: `teacache_positive` and `teacache_negative` of the state
manager. -/
inductive CfgBranch
  | positive
  | negative
  deriving Repr, DecidableEq

/-- The branch of the call with the number `i`. -/
def CfgBranch.ofCall (doTrueCfg : Bool) (i : ℕ) : CfgBranch :=
  if doTrueCfg && i % 2 == 1 then .negative else .positive

/-- `CacheContext`: what the extractor takes from a call, and what `run_transformer_blocks` would
return. A dual-stream model has encoder states in every call, a single-stream model in none. -/
structure CacheContext (ι K V : Type*) (dual : Bool) where
  modulatedInput : ι → K
  hiddenStates : V
  encoderHiddenStates : Option V
  outputs : V × Option V
  encoder_isSome : encoderHiddenStates.isSome = dual

structure TeaCacheState (ι K V : Type*) [Zero K] where
  cnt : ℕ := 0
  accumulatedRelL1Distance : K := 0
  previousModulatedInput : Option (ι → K) := none
  previousResidual : Option V := none
  previousResidualEncoder : Option V := none

/-- `TeaCacheHook`: the states of its state manager and the counter of the calls. -/
structure TeaCacheHook (ι K V : Type*) [Zero K] where
  states : CfgBranch → Option (TeaCacheState ι K V) := fun _ => none
  forwardCnt : ℕ := 0

/-- A call: its context, the branch of its state, whether it ran the blocks, and its results. -/
structure ForwardCall (ι K V : Type*) (dual : Bool) where
  context : CacheContext ι K V dual
  branch : CfgBranch
  computed : Bool
  output : V
  encoder : Option V

variable [Field K] [LinearOrder K] [Fintype ι] {dual : Bool}

/-- `_should_compute_full_transformer`: the state afterwards, and the decision. -/
def TeaCacheState.shouldCompute (c : TeaCacheConfig K) (s : TeaCacheState ι K V) (x : ι → K) :
    TeaCacheState ι K V × Bool :=
  if s.cnt = 0 then ({ s with accumulatedRelL1Distance := 0 }, true)
  else
    match s.previousModulatedInput with
    | none => (s, true)
    | some previous =>
      let accumulated := s.accumulatedRelL1Distance + rescaledDistance c x previous
      if accumulated < c.relL1Thresh then
        ({ s with accumulatedRelL1Distance := accumulated }, false)
      else ({ s with accumulatedRelL1Distance := 0 }, true)

def TeaCacheHook.resetState (_h : TeaCacheHook ι K V) : TeaCacheHook ι K V :=
  { states := fun _ => none, forwardCnt := 0 }

variable [AddCommGroup V]

/-- The part of `new_forward` that works on the state of one branch. -/
def TeaCacheState.forward (c : TeaCacheConfig K) (branch : CfgBranch) (s : TeaCacheState ι K V)
    (ctx : CacheContext ι K V dual) : TeaCacheState ι K V × ForwardCall ι K V dual :=
  let (s, compute) := s.shouldCompute c ctx.modulatedInput
  let after (s : TeaCacheState ι K V) :=
    { s with previousModulatedInput := some ctx.modulatedInput, cnt := s.cnt + 1 }
  match compute, s.previousResidual with
  | false, some residual =>
    let encoder :=
      match s.previousResidualEncoder, ctx.encoderHiddenStates with
      | some r, some e => some (e + r)
      | _, e => e
    (after s, ⟨ctx, branch, false, ctx.hiddenStates + residual, encoder⟩)
  | _, _ =>
    let encoder :=
      match ctx.outputs.2, ctx.encoderHiddenStates with
      | some o, some _ => some o
      | _, e => e
    let residualEncoder :=
      match encoder, ctx.encoderHiddenStates with
      | some o, some e => some (o - e)
      | _, _ => s.previousResidualEncoder
    (after { s with previousResidual := some (ctx.outputs.1 - ctx.hiddenStates)
                    previousResidualEncoder := residualEncoder },
      ⟨ctx, branch, true, ctx.outputs.1, encoder⟩)

def TeaCacheHook.newForward (c : TeaCacheConfig K) (doTrueCfg : Bool) (h : TeaCacheHook ι K V)
    (ctx : CacheContext ι K V dual) : TeaCacheHook ι K V × ForwardCall ι K V dual :=
  let branch := CfgBranch.ofCall doTrueCfg h.forwardCnt
  let (s, call) := ((h.states branch).getD {}).forward c branch ctx
  ({ states := Function.update h.states branch (some s), forwardCnt := h.forwardCnt + 1 }, call)

/-- A sequence of calls. -/
def TeaCacheHook.forwards (c : TeaCacheConfig K) (doTrueCfg : Bool) (h : TeaCacheHook ι K V)
    (ctxs : List (CacheContext ι K V dual)) : TeaCacheHook ι K V × List (ForwardCall ι K V dual) :=
  ctxs.foldl (fun (h, calls) ctx =>
    let (h, call) := h.newForward c doTrueCfg ctx
    (h, calls ++ [call])) (h, [])

/-! ## What the cache is for -/

/-- What a call has added to its encoder states. -/
def ForwardCall.encoderResidual (r : ForwardCall ι K V dual) : Option V :=
  match r.encoder, r.context.encoderHiddenStates with
  | some o, some e => some (o - e)
  | _, _ => none

/-- The sum of the distances along the calls that follow a call on one branch. -/
def distanceSum (c : TeaCacheConfig K) (r : ForwardCall ι K V dual) :
    List (ForwardCall ι K V dual) → K
  | [] => 0
  | r' :: rs => rescaledDistance c r'.context.modulatedInput r.context.modulatedInput +
      distanceSum c r' rs

/-- `last` is the last of the earlier calls of a branch that ran the blocks, `since` are those after
it. -/
structure LastComputed (earlier : List (ForwardCall ι K V dual)) (last : ForwardCall ι K V dual)
    (since : List (ForwardCall ι K V dual)) : Prop where
  split : ∃ before, earlier = before ++ last :: since
  computed : last.computed = true
  reused : ∀ r ∈ since, r.computed = false

/-- A call is right after those of its branch: it runs the blocks, or adds what the last call that
did so has added, while the distances since then sum up to less than the threshold. -/
structure CallRight (c : TeaCacheConfig K) (earlier : List (ForwardCall ι K V dual))
    (r : ForwardCall ι K V dual) : Prop where
  first : earlier = [] → r.computed = true
  full : r.computed = true → r.output = r.context.outputs.1
  reuse : r.computed = false → ∃ last since, LastComputed earlier last since ∧
    r.output = r.context.hiddenStates + (last.output - last.context.hiddenStates) ∧
    r.encoder = r.context.encoderHiddenStates.bind (fun e => last.encoderResidual.map (e + ·)) ∧
    distanceSum c last (since ++ [r]) < c.relL1Thresh

/-! ## The state of a branch -/

/-- The state of a branch after the calls `earlier`. -/
inductive BranchTracks (c : TeaCacheConfig K) :
    Option (TeaCacheState ι K V) → List (ForwardCall ι K V dual) → Prop
  | fresh : BranchTracks c none []
  | used {s : TeaCacheState ι K V} {earlier : List (ForwardCall ι K V dual)}
      {last : ForwardCall ι K V dual} {since : List (ForwardCall ι K V dual)}
      (hcnt : s.cnt ≠ 0) (hlast : LastComputed earlier last since)
      (hinput : s.previousModulatedInput =
        some ((last :: since).getLast (cons_ne_nil _ _)).context.modulatedInput)
      (hresidual : s.previousResidual = some (last.output - last.context.hiddenStates))
      (hencoder : s.previousResidualEncoder = last.encoderResidual)
      (hdual : last.encoderResidual.isSome = dual)
      (hsum : s.accumulatedRelL1Distance = distanceSum c last since) :
    BranchTracks c (some s) earlier

variable {c : TeaCacheConfig K} {earlier : List (ForwardCall ι K V dual)}
  {ctx : CacheContext ι K V dual} {s s' : TeaCacheState ι K V} {branch : CfgBranch}

omit [AddCommGroup V] in
lemma distanceSum_append_singleton (r r' : ForwardCall ι K V dual)
    (rs : List (ForwardCall ι K V dual)) :
    distanceSum c r (rs ++ [r']) = distanceSum c r rs + rescaledDistance c
      r'.context.modulatedInput
      ((r :: rs).getLast (cons_ne_nil _ _)).context.modulatedInput := by
  induction rs generalizing r with
  | nil => simp only [nil_append, distanceSum, getLast_singleton, add_zero, zero_add]
  | cons x rs ih =>
    rw [cons_append, distanceSum, ih, distanceSum, add_assoc,
      getLast_cons (cons_ne_nil x rs)]

/-- The call that runs the blocks. -/
def fullCall (branch : CfgBranch) (ctx : CacheContext ι K V dual) : ForwardCall ι K V dual where
  context := ctx
  branch := branch
  computed := true
  output := ctx.outputs.1
  encoder :=
    match ctx.outputs.2, ctx.encoderHiddenStates with
    | some o, some _ => some o
    | _, e => e

omit [Field K] [LinearOrder K] [Fintype ι] in
lemma isSome_encoderResidual_fullCall (branch : CfgBranch) (ctx : CacheContext ι K V dual) :
    (fullCall branch ctx).encoderResidual.isSome = dual := by
  refine Eq.trans ?_ ctx.encoder_isSome
  unfold ForwardCall.encoderResidual fullCall
  cases ctx.outputs.2 <;> cases ctx.encoderHiddenStates <;> rfl

omit [AddCommGroup V] in
/-- Below the threshold the residual may be used, and the distance is added. -/
lemma shouldCompute_of_lt {x previous : ι → K} (hcnt : s.cnt ≠ 0)
    (hinput : s.previousModulatedInput = some previous)
    (hlt : s.accumulatedRelL1Distance + rescaledDistance c x previous < c.relL1Thresh) :
    s.shouldCompute c x =
      ({ s with accumulatedRelL1Distance :=
          s.accumulatedRelL1Distance + rescaledDistance c x previous }, false) := by
  rw [TeaCacheState.shouldCompute, if_neg hcnt]
  simp only [hinput, if_pos hlt]

omit [AddCommGroup V] in
/-- From the threshold on the blocks are run, and the sum starts again. -/
lemma shouldCompute_of_not_lt {x previous : ι → K} (hcnt : s.cnt ≠ 0)
    (hinput : s.previousModulatedInput = some previous)
    (hlt : ¬ s.accumulatedRelL1Distance + rescaledDistance c x previous < c.relL1Thresh) :
    s.shouldCompute c x = ({ s with accumulatedRelL1Distance := 0 }, true) := by
  rw [TeaCacheState.shouldCompute, if_neg hcnt]
  simp only [hinput, if_neg hlt]

omit [Field K] [LinearOrder K] [Fintype ι] [AddCommGroup V] in
/-- A computed call is an earlier call. -/
lemma LastComputed.ne_nil {last : ForwardCall ι K V dual} {since : List (ForwardCall ι K V dual)}
    (h : LastComputed earlier last since) : earlier ≠ [] := by
  obtain ⟨before, rfl⟩ := h.split
  exact append_ne_nil_of_right_ne_nil _ (cons_ne_nil _ _)

/-- A call that is to run the blocks does so. Missing encoder states are missing in every call. -/
lemma forward_of_compute (hcompute : s.shouldCompute c ctx.modulatedInput = (s', true))
    (hnone : dual = false → s'.previousResidualEncoder = none) :
    s.forward c branch ctx =
      ({ s' with previousModulatedInput := some ctx.modulatedInput
                 cnt := s'.cnt + 1
                 previousResidual := some (ctx.outputs.1 - ctx.hiddenStates)
                 previousResidualEncoder := (fullCall branch ctx).encoderResidual },
        fullCall branch ctx) := by
  have hsome := ctx.encoder_isSome
  simp only [TeaCacheState.forward, hcompute, fullCall, ForwardCall.encoderResidual]
  cases henc : ctx.encoderHiddenStates with
  | none =>
    rw [henc] at hsome
    rw [hnone hsome.symm]
  | some e => cases ctx.outputs.2 <;> rfl

lemma forward_of_reuse {residual : V}
    (hcompute : s.shouldCompute c ctx.modulatedInput = (s', false))
    (hresidual : s'.previousResidual = some residual)
    (hdual : s'.previousResidualEncoder.isSome = dual) :
    s.forward c branch ctx =
      ({ s' with previousModulatedInput := some ctx.modulatedInput, cnt := s'.cnt + 1 },
        { context := ctx
          branch := branch
          computed := false
          output := ctx.hiddenStates + residual
          encoder := ctx.encoderHiddenStates.bind fun e =>
            s'.previousResidualEncoder.map (e + ·) }) := by
  have hsome := ctx.encoder_isSome.trans hdual.symm
  simp only [TeaCacheState.forward, hcompute, hresidual]
  cases henc : ctx.encoderHiddenStates with
  | none => cases s'.previousResidualEncoder <;> rfl
  | some e =>
    rw [henc] at hsome
    cases hold : s'.previousResidualEncoder with
    | none =>
      rw [hold] at hsome
      cases hsome
    | some o => rfl

lemma branchTracks_fullCall (earlier : List (ForwardCall ι K V dual)) (hcnt : s.cnt ≠ 0)
    (hinput : s.previousModulatedInput = some ctx.modulatedInput)
    (hresidual : s.previousResidual = some (ctx.outputs.1 - ctx.hiddenStates))
    (hencoder : s.previousResidualEncoder = (fullCall branch ctx).encoderResidual)
    (hsum : s.accumulatedRelL1Distance = 0) :
    BranchTracks c (some s) (earlier ++ [fullCall branch ctx]) := by
  have hlast : LastComputed (earlier ++ [fullCall branch ctx]) (fullCall branch ctx) [] :=
    ⟨⟨earlier, rfl⟩, rfl, fun r hr => absurd hr not_mem_nil⟩
  exact .used hcnt hlast hinput hresidual hencoder (isSome_encoderResidual_fullCall branch ctx) hsum

lemma branchTracks_reuse {last r : ForwardCall ι K V dual} {since : List (ForwardCall ι K V dual)}
    (hlast : LastComputed earlier last since) (hr : r.computed = false) (hcnt : s.cnt ≠ 0)
    (hinput : s.previousModulatedInput = some r.context.modulatedInput)
    (hresidual : s.previousResidual = some (last.output - last.context.hiddenStates))
    (hencoder : s.previousResidualEncoder = last.encoderResidual)
    (hdual : last.encoderResidual.isSome = dual)
    (hsum : s.accumulatedRelL1Distance = distanceSum c last (since ++ [r])) :
    BranchTracks c (some s) (earlier ++ [r]) := by
  obtain ⟨⟨before, rfl⟩, hcomputed, hreused⟩ := hlast
  have hlast : LastComputed (before ++ last :: since ++ [r]) last (since ++ [r]) := by
    refine ⟨⟨before, by rw [append_assoc, cons_append]⟩, hcomputed, fun x hx => ?_⟩
    obtain hx | rfl := mem_append.mp hx |>.imp_right mem_singleton.mp
    · exact hreused x hx
    · exact hr
  refine .used hcnt hlast ?_ hresidual hencoder hdual hsum
  rw [hinput]
  congr 3
  exact (getLast_append_singleton (last :: since)).symm

/-- What a call does to the state of its branch: the call is right, and the state tracks it. -/
lemma forward_right {st : Option (TeaCacheState ι K V)} (h : BranchTracks c st earlier)
    (branch : CfgBranch) (ctx : CacheContext ι K V dual) {s' : TeaCacheState ι K V}
    {r : ForwardCall ι K V dual} (hforward : (st.getD {}).forward c branch ctx = (s', r)) :
    CallRight c earlier r ∧ BranchTracks c (some s') (earlier ++ [r]) ∧ r.context = ctx ∧
      r.branch = branch := by
  have hfull : CallRight c earlier (fullCall branch ctx) :=
    ⟨fun _ => rfl, fun _ => rfl, fun h => (by cases h)⟩
  cases h with
  | fresh =>
    have hcompute : TeaCacheState.shouldCompute c ({} : TeaCacheState ι K V) ctx.modulatedInput =
      ({}, true) := if_pos rfl
    rw [Option.getD_none, forward_of_compute hcompute fun _ => rfl] at hforward
    cases hforward
    exact ⟨hfull, branchTracks_fullCall [] Nat.one_ne_zero rfl rfl rfl rfl, rfl, rfl⟩
  | @used s earlier last since hcnt hlast hinput hresidual hencoder hdual hsum =>
    rw [Option.getD_some] at hforward
    have hsnoc := distanceSum_append_singleton (c := c) last r since
    generalize ((last :: since).getLast _).context.modulatedInput = previous at hinput hsnoc
    by_cases hlt : s.accumulatedRelL1Distance + rescaledDistance c ctx.modulatedInput previous <
        c.relL1Thresh
    · rw [forward_of_reuse (shouldCompute_of_lt hcnt hinput hlt) hresidual (hencoder ▸ hdual)]
        at hforward
      cases hforward
      rw [hsum] at hlt
      rw [← hsum] at hsnoc
      refine ⟨⟨fun hnil => absurd hnil hlast.ne_nil, fun h => (by cases h),
          fun _ => ⟨last, since, hlast, rfl, ?_, ?_⟩⟩,
        branchTracks_reuse hlast rfl (Nat.succ_ne_zero _) rfl hresidual hencoder hdual hsnoc.symm,
        rfl, rfl⟩
      · rw [hencoder]
      · exact (hsnoc.trans (hsum ▸ rfl)).trans_lt hlt
    · have hnone : dual = false → s.previousResidualEncoder = none := by
        intro hfalse
        rw [hencoder, ← Option.isNone_iff_eq_none, ← Option.not_isSome, hdual, hfalse]
        rfl
      rw [forward_of_compute (shouldCompute_of_not_lt hcnt hinput hlt) hnone] at hforward
      cases hforward
      exact ⟨hfull, branchTracks_fullCall earlier (Nat.succ_ne_zero _) rfl rfl rfl rfl, rfl, rfl⟩

/-! ## Runs -/

/-- The calls of a branch. -/
def callsOf (branch : CfgBranch) (calls : List (ForwardCall ι K V dual)) :
    List (ForwardCall ι K V dual) :=
  calls.filter (·.branch = branch)

/-- The hook after the calls `calls`, which were all right. -/
structure HookTracks (c : TeaCacheConfig K) (doTrueCfg : Bool) (h : TeaCacheHook ι K V)
    (calls : List (ForwardCall ι K V dual)) : Prop where
  forwardCnt : h.forwardCnt = calls.length
  branches : ∀ branch, BranchTracks c (h.states branch) (callsOf branch calls)
  right : ∀ earlier r later, calls = earlier ++ r :: later →
    r.branch = CfgBranch.ofCall doTrueCfg earlier.length ∧
      CallRight c (callsOf r.branch earlier) r

omit [Field K] [LinearOrder K] [Fintype ι] [AddCommGroup V] in
lemma callsOf_append_singleton (branch : CfgBranch) (calls : List (ForwardCall ι K V dual))
    (r : ForwardCall ι K V dual) :
    callsOf branch (calls ++ [r]) =
      if r.branch = branch then callsOf branch calls ++ [r] else callsOf branch calls := by
  rw [callsOf, filter_append, filter_singleton]
  by_cases hb : r.branch = branch
  · rw [if_pos hb, decide_eq_true hb, cond_true, callsOf]
  · rw [if_neg hb, decide_eq_false hb, cond_false, append_nil, callsOf]

variable {calls : List (ForwardCall ι K V dual)}

/-- One call. Only the state of its own branch changes, and only the calls of this branch grow. -/
lemma HookTracks.newForward {doTrueCfg : Bool} {h h' : TeaCacheHook ι K V}
    {r : ForwardCall ι K V dual} (ht : HookTracks c doTrueCfg h calls)
    (hnew : h.newForward c doTrueCfg ctx = (h', r)) :
    HookTracks c doTrueCfg h' (calls ++ [r]) ∧ r.context = ctx := by
  rw [TeaCacheHook.newForward] at hnew
  set b := CfgBranch.ofCall doTrueCfg h.forwardCnt with hb
  cases hforward : ((h.states b).getD {}).forward c b ctx with
  | mk s' r' =>
    simp only [hforward] at hnew
    cases hnew
    obtain ⟨hright, htracks, hctx, hbranch⟩ := forward_right (ht.branches b) b ctx hforward
    refine ⟨⟨?_, fun branch => ?_, fun earlier x later hsplit => ?_⟩, hctx⟩
    · rw [length_append, length_singleton, ← ht.forwardCnt]
    · rw [callsOf_append_singleton, hbranch]
      by_cases hne : branch = b
      · subst hne
        simpa only [Function.update_self, if_true] using htracks
      · simpa only [Function.update_of_ne hne, if_neg (Ne.symm hne)] using ht.branches branch
    · obtain rfl | ⟨front, y, rfl⟩ := later.eq_nil_or_concat
      · obtain ⟨rfl, hx⟩ := append_inj' hsplit rfl
        obtain rfl := head_eq_of_cons_eq hx
        rw [← ht.forwardCnt, ← hb, hbranch]
        exact ⟨rfl, hright⟩
      · rw [concat_eq_append, ← cons_append, ← append_assoc] at hsplit
        exact ht.right earlier x front (append_inj' hsplit rfl).1

/-- A sequence of calls. -/
lemma HookTracks.forwards {doTrueCfg : Bool} {h : TeaCacheHook ι K V}
    (ht : HookTracks c doTrueCfg h calls) (ctxs : List (CacheContext ι K V dual)) :
    ∃ made, (ctxs.foldl (fun (h, calls) ctx =>
        let (h, call) := h.newForward c doTrueCfg ctx
        (h, calls ++ [call])) (h, calls)).2 = calls ++ made ∧
      made.map ForwardCall.context = ctxs ∧ ∃ h', HookTracks c doTrueCfg h' (calls ++ made) := by
  induction ctxs generalizing h calls with
  | nil => exact ⟨[], (append_nil calls).symm, rfl, h, by rwa [append_nil]⟩
  | cons ctx ctxs ih =>
    cases hnew : h.newForward c doTrueCfg ctx with
    | mk h' r =>
      obtain ⟨ht', hctx⟩ := ht.newForward hnew
      obtain ⟨made, hmade, hmap, hlast⟩ := ih ht'
      rw [append_assoc, singleton_append] at hmade hlast
      refine ⟨r :: made, ?_, by rw [map_cons, hctx, hmap], hlast⟩
      simpa only [foldl_cons, hnew] using hmade

/-- A reset forgets all calls. -/
lemma tracks_resetState (c : TeaCacheConfig K) (doTrueCfg : Bool) (h : TeaCacheHook ι K V) :
    HookTracks c doTrueCfg h.resetState ([] : List (ForwardCall ι K V dual)) where
  forwardCnt := rfl
  branches _ := .fresh
  right _ _ _ hsplit :=
    absurd hsplit.symm (append_ne_nil_of_right_ne_nil _ (cons_ne_nil _ _))

end OmniStreaming
