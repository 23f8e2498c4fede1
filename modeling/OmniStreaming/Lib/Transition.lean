import Mathlib.Algebra.Ring.Nat
import Mathlib.Data.List.Basic

/-!
# Runs of partial labelled transition functions

A system is given by a step function `step : σ → α → Option σ`: in the state `s` the action `a`
is enabled when `step s a` is defined. A run is a list of actions that are enabled one after
the other.

The file proves the two induction rules that every safety result uses: an invariant of all
steps holds at the end of every run (`run_invariant`), and an invariant of the steps that meet a
guard holds at the end of every run whose steps all meet it (`run_invariant_of_allSteps`).
`AllSteps` is the guard along a run, and `EveryState` the statement that a property holds in
every state the run passes through.
-/

namespace Transition

variable {σ α : Type*}

/-- Take the actions of a list one after the other. -/
def run (step : σ → α → Option σ) : σ → List α → Option σ
  | s, [] => some s
  | s, a :: as => (step s a).bind fun s' => run step s' as

@[simp] lemma run_nil (step : σ → α → Option σ) (s : σ) : run step s [] = some s := rfl

@[simp] lemma run_cons (step : σ → α → Option σ) (s : σ) (a : α) (as : List α) :
    run step s (a :: as) = (step s a).bind fun s' => run step s' as := rfl

variable {s t : σ} {as : List α} {I P : σ → Prop} {ok ok' guard : σ → α → Prop} {allowed : α → Prop}

section Rules

variable {step : σ → α → Option σ}

/-- A nonempty run splits into its first step and the rest. -/
lemma run_cons_eq_some {a : α} :
    run step s (a :: as) = some t ↔ ∃ s', step s a = some s' ∧ run step s' as = some t := by
  rw [run_cons, Option.bind_eq_some_iff]

/-- A run of a concatenation is a run of the first part followed by a run of the second. -/
lemma run_append (step : σ → α → Option σ) (s : σ) (as bs : List α) :
    run step s (as ++ bs) = (run step s as).bind fun s' => run step s' bs := by
  induction as generalizing s with
  | nil => rfl
  | cons a as ih =>
    rw [List.cons_append, run_cons, run_cons, Option.bind_assoc]
    exact congrArg _ (funext fun s' => ih s')

/-- An invariant of every step holds at the end of every run. -/
theorem run_invariant (hstep : ∀ s a s', I s → step s a = some s' → I s') (h0 : I s)
    (h : run step s as = some t) : I t := by
  induction as generalizing s with
  | nil =>
    cases h
    exact h0
  | cons a as ih =>
    obtain ⟨s', hs, hrest⟩ := run_cons_eq_some.mp h
    exact ih (hstep s a s' h0 hs) hrest

/-- Every step that the run takes meets the guard `ok` in the state it is taken from. -/
def AllSteps (step : σ → α → Option σ) (ok : σ → α → Prop) : σ → List α → Prop
  | _, [] => True
  | s, a :: as => ok s a ∧ ∀ s', step s a = some s' → AllSteps step ok s' as

/-- The property `P` holds in every state that the run passes through, its ends included. -/
def EveryState (step : σ → α → Option σ) (P : σ → Prop) : σ → List α → Prop
  | s, [] => P s
  | s, a :: as => P s ∧ ∀ s', step s a = some s' → EveryState step P s' as

lemma EveryState.head (h : EveryState step P s as) : P s := by
  cases as with
  | nil => exact h
  | cons a as => exact h.1

instance decidableAllSteps (step : σ → α → Option σ) (ok : σ → α → Prop)
    [∀ s a, Decidable (ok s a)] : ∀ s as, Decidable (AllSteps step ok s as)
  | _, [] => isTrue trivial
  | s, a :: as =>
    match h : step s a with
    | none => decidable_of_iff (ok s a) (by simp [AllSteps, h])
    | some s' =>
      have : Decidable (AllSteps step ok s' as) := decidableAllSteps step ok s' as
      decidable_of_iff (ok s a ∧ AllSteps step ok s' as) (by simp [AllSteps, h])

instance decidableEveryState (step : σ → α → Option σ) (P : σ → Prop) [DecidablePred P] :
    ∀ s as, Decidable (EveryState step P s as)
  | s, [] => inferInstanceAs (Decidable (P s))
  | s, a :: as =>
    match h : step s a with
    | none => decidable_of_iff (P s) (by simp [EveryState, h])
    | some s' =>
      have : Decidable (EveryState step P s' as) := decidableEveryState step P s' as
      decidable_of_iff (P s ∧ EveryState step P s' as) (by simp [EveryState, h])

/-- A condition on the actions alone holds of every step if it holds of every action. -/
lemma allSteps_of_forall_mem {p : α → Prop} (h : ∀ a ∈ as, p a) :
    AllSteps step (fun _ a => p a) s as := by
  induction as generalizing s with
  | nil => trivial
  | cons a as ih =>
    exact ⟨h a List.mem_cons_self, fun s' _ => ih fun b hb => h b (List.mem_cons_of_mem a hb)⟩

/-- The guard along a run is the guard along its first part and, from where that leads to, along the
rest. -/
lemma allSteps_append {bs : List α} :
    AllSteps step ok s (as ++ bs) ↔
      AllSteps step ok s as ∧ ∀ t, run step s as = some t → AllSteps step ok t bs := by
  induction as generalizing s with
  | nil => simp [AllSteps]
  | cons a as ih =>
    simp only [List.cons_append, AllSteps, ih, run_cons_eq_some]
    grind

section

variable (hstep : ∀ s a s', I s → ok s a → step s a = some s' → I s')
include hstep

/-- An invariant of the guarded steps holds at the end of every run whose steps are guarded. -/
theorem run_invariant_of_allSteps (h0 : I s) (hok : AllSteps step ok s as)
    (h : run step s as = some t) : I t := by
  induction as generalizing s with
  | nil =>
    cases h
    exact h0
  | cons a as ih =>
    obtain ⟨s', hs, hrest⟩ := run_cons_eq_some.mp h
    exact ih (hstep s a s' h0 hok.1 hs) (hok.2 s' hs) hrest

/-- What follows from an invariant of the guarded steps holds in every state of a guarded run. -/
theorem everyState_of_allSteps (hIP : ∀ s, I s → P s) (h0 : I s) (hok : AllSteps step ok s as) :
    EveryState step P s as := by
  induction as generalizing s with
  | nil => exact hIP s h0
  | cons a as ih =>
    exact ⟨hIP s h0, fun s' hs => ih (hstep s a s' h0 hok.1 hs) (hok.2 s' hs)⟩

/-- Along a guarded run, a condition that follows from the guard and an invariant holds of every
step. -/
theorem allSteps_of_allSteps (himp : ∀ s a, I s → ok s a → ok' s a) (h0 : I s)
    (hok : AllSteps step ok s as) :
    AllSteps step ok' s as := by
  induction as generalizing s with
  | nil => trivial
  | cons a as ih =>
    exact ⟨himp s a h0 hok.1, fun s' hs => ih (hstep s a s' h0 hok.1 hs) (hok.2 s' hs)⟩

/-- If a step lowers the rank by what it gains while the rank is not zero and the property holds on
both sides, a run with the property in every state lowers the rank by the sum. -/
theorem run_rank_le (rank : σ → ℕ) (gain : α → ℕ)
    (hrank : ∀ s a s', I s → P s → P s' → ok s a → step s a = some s' → rank s' ≤ rank s - gain a)
    (h0 : I s) (hok : AllSteps step ok s as) (hP : EveryState step P s as)
    (h : run step s as = some t) : rank t ≤ rank s - (as.map gain).sum := by
  induction as generalizing s with
  | nil =>
    cases h
    exact Nat.le_refl _
  | cons a as ih =>
    obtain ⟨s', hs, hrest⟩ := run_cons_eq_some.mp h
    have hhead := hrank s a s' h0 hP.1 (hP.2 s' hs).head hok.1 hs
    have htail := ih (hstep s a s' h0 hok.1 hs) (hok.2 s' hs) (hP.2 s' hs) hrest
    rw [List.map_cons, List.sum_cons]
    omega

end

/-- A property that follows from an invariant of every step holds in every state of every run. -/
theorem everyState_of_invariant (hstep : ∀ s a s', I s → step s a = some s' → I s')
    (hIP : ∀ s, I s → P s) (h0 : I s) : EveryState step P s as :=
  everyState_of_allSteps (fun s a s' hI _ => hstep s a s' hI) hIP h0
    (allSteps_of_forall_mem (p := fun _ => True) fun _ _ => trivial)

/-- If a property fails as soon as a step breaks the guard, the property along a run forces the
guard. -/
theorem allSteps_of_everyState (hstep : ∀ s a s', P s → step s a = some s' → P s' → ok s a)
    (h : run step s as = some t) (hP : EveryState step P s as) :
    AllSteps step ok s as := by
  induction as generalizing s with
  | nil => trivial
  | cons a as ih =>
    obtain ⟨s', hs, hrest⟩ := run_cons_eq_some.mp h
    have hP' : EveryState step P s' as := hP.2 s' hs
    refine ⟨hstep s a s' hP.1 hs hP'.head, fun s'' hs'' => ?_⟩
    cases hs.symm.trans hs''
    exact ih hrest hP'

/-- Along a run, two conditions that agree on every step under an invariant agree as a whole. -/
theorem allSteps_iff_of_run (hstep : ∀ s a s', I s → step s a = some s' → I s')
    (hiff : ∀ s a s', I s → step s a = some s' → (ok s a ↔ ok' s a)) (h0 : I s)
    (h : run step s as = some t) :
    AllSteps step ok s as ↔ AllSteps step ok' s as := by
  induction as generalizing s with
  | nil => exact Iff.rfl
  | cons a as ih =>
    obtain ⟨s', hs, hrest⟩ := run_cons_eq_some.mp h
    have hrec := ih (hstep s a s' h0 hs) hrest
    have hall : ∀ p : σ → α → Prop,
        (∀ s'', step s a = some s'' → AllSteps step p s'' as) ↔ AllSteps step p s' as := by
      intro p
      rw [hs]
      exact ⟨fun h => h s' rfl, fun h s'' heq => Option.some.inj heq ▸ h⟩
    simp only [AllSteps, hall, hiff s a s' h0 hs, hrec]

section

variable (hstep : ∀ s a s', I s → guard s a → step s a = some s' → I s')
include hstep

/-- If a guarded step from a good state leads to a good state iff it is `ok`, a guarded run has good
states only iff all its steps are `ok`. -/
theorem everyState_iff_allSteps_of_guard
    (hiff : ∀ s a s', I s → P s → guard s a → step s a = some s' → (P s' ↔ ok s a)) (h0 : I s)
    (hP : P s) (hguard : AllSteps step guard s as) (h : run step s as = some t) :
    EveryState step P s as ↔ AllSteps step ok s as := by
  induction as generalizing s with
  | nil => exact iff_of_true hP trivial
  | cons a as ih =>
    obtain ⟨s', hs, hrest⟩ := run_cons_eq_some.mp h
    have hI := hstep s a s' h0 hguard.1 hs
    have hnext := hiff s a s' h0 hP hguard.1 hs
    constructor
    · intro hevery
      have hP' : EveryState step P s' as := hevery.2 s' hs
      refine ⟨hnext.mp hP'.head, fun s'' hs'' => ?_⟩
      cases hs.symm.trans hs''
      exact (ih hI hP'.head (hguard.2 s' hs) hrest).mp hP'
    · intro hall
      refine ⟨hP, fun s'' hs'' => ?_⟩
      cases hs.symm.trans hs''
      exact (ih hI (hnext.mpr hall.1) (hguard.2 s' hs) hrest).mpr (hall.2 s' hs)

/-- If a step from a good state leads to a good state iff it is `ok`, a run has good states only iff
all its steps are `ok`. -/
theorem everyState_iff_allSteps (hiff : ∀ s a s', I s → P s → step s a = some s' → (P s' ↔ ok s a))
    (h0 : I s) (hP : P s) (hguard : AllSteps step guard s as) (h : run step s as = some t) :
    EveryState step P s as ↔ AllSteps step ok s as :=
  everyState_iff_allSteps_of_guard hstep (fun s a s' hI hP _ => hiff s a s' hI hP) h0 hP hguard h

/-- Along a guarded run, a property that a step keeps iff it is `ok`, and that no step restores,
holds at the end iff every step is `ok`. -/
theorem reached_iff_allSteps_of_guard
    (hiff : ∀ s a s', I s → guard s a → step s a = some s' → (P s' ↔ P s ∧ ok s a)) (h0 : I s)
    (hguard : AllSteps step guard s as) (h : run step s as = some t) :
    P t ↔ P s ∧ AllSteps step ok s as := by
  induction as generalizing s with
  | nil =>
    cases h
    exact (and_iff_left trivial).symm
  | cons a as ih =>
    obtain ⟨s', hs, hrest⟩ := run_cons_eq_some.mp h
    have hI := hstep s a s' h0 hguard.1 hs
    rw [ih hI (hguard.2 s' hs) hrest, hiff s a s' h0 hguard.1 hs, and_assoc]
    simp only [AllSteps, hs, Option.some.injEq, forall_eq']

end

/-- A property that a step keeps iff it meets the guard, and that none restores, holds at the end of
a run iff every step meets the guard. -/
theorem reached_iff_allSteps (hstep : ∀ s a s', I s → step s a = some s' → I s')
    (hiff : ∀ s a s', I s → step s a = some s' → (P s' ↔ P s ∧ ok s a)) (h0 : I s)
    (h : run step s as = some t) :
    P t ↔ P s ∧ AllSteps step ok s as :=
  reached_iff_allSteps_of_guard (fun s a s' hI _ => hstep s a s' hI)
    (fun s a s' hI _ => hiff s a s' hI) h0
    (allSteps_of_forall_mem (p := fun _ => True) fun _ _ => trivial) h

/-- If every step lowers the rank by its cost, the rank bounds the cost of a run. -/
theorem run_cost_le {rank : σ → ℕ} {cost : α → ℕ}
    (hstep : ∀ s a s', step s a = some s' → rank s' + cost a ≤ rank s)
    (h : run step s as = some t) :
    rank t + (as.map cost).sum ≤ rank s := by
  induction as generalizing s with
  | nil =>
    cases h
    simp
  | cons a as ih =>
    obtain ⟨s', hs, hrest⟩ := run_cons_eq_some.mp h
    have hhead := hstep s a s' hs
    have htail := ih hrest
    rw [List.map_cons, List.sum_cons]
    omega

/-- If an allowed action lowers the rank until it is zero, allowed actions lead to rank zero. -/
theorem exists_run_rank_zero {rank : σ → ℕ}
    (hstep : ∀ s, I s → rank s ≠ 0 →
      ∃ a s', allowed a ∧ step s a = some s' ∧ I s' ∧ rank s' < rank s)
    (h : I s) :
    ∃ as t, (∀ a ∈ as, allowed a) ∧ run step s as = some t ∧ I t ∧ rank t = 0 := by
  induction hrank : rank s using Nat.strong_induction_on generalizing s with
  | h n ih =>
    by_cases hzero : rank s = 0
    · exact ⟨[], s, nofun, rfl, h, hzero⟩
    · obtain ⟨a, s', ha, hs, hI, hlt⟩ := hstep s h hzero
      obtain ⟨as, t, has, hrun, ht⟩ := ih (rank s') (hrank ▸ hlt) hI rfl
      refine ⟨a :: as, t, List.forall_mem_cons.mpr ⟨ha, has⟩, ?_, ht⟩
      exact run_cons_eq_some.mpr ⟨s', hs, hrun⟩

/-- What a run leads to, and what is computed there, can be read off by evaluation. -/
lemma exists_of_run {β : Type*} {f : σ → Option β} {P : σ → β → Prop}
    [∀ t b, Decidable (P t b)]
    (h : ((run step s as).bind fun t => (f t).map fun b => decide (P t b)) = some true) :
    ∃ t b, run step s as = some t ∧ f t = some b ∧ P t b := by
  obtain ⟨t, ht, h⟩ := Option.bind_eq_some_iff.mp h
  obtain ⟨b, hb, h⟩ := Option.map_eq_some_iff.mp h
  exact ⟨t, b, ht, hb, of_decide_eq_true h⟩

/-- A property of the state that a run leads to can be read off by evaluation. -/
lemma exists_reached [DecidablePred P] (h : ((run step s as).any fun t => decide (P t)) = true) :
    ∃ t, run step s as = some t ∧ P t := by
  cases hrun : run step s as with
  | none => simp [hrun] at h
  | some t => exact ⟨t, rfl, by simpa [hrun] using h⟩

end Rules

/-! ## What may follow -/

/-- Whatever actions follow, as long as they are allowed, the property holds in every state. -/
def Forever (step : σ → α → Option σ) (allowed : α → Prop) (P : σ → Prop) (s : σ) : Prop :=
  ∀ as, (∀ a ∈ as, allowed a) → EveryState step P s as

/-- A property that follows from an invariant of the allowed steps. -/
theorem forever_of_invariant {step : σ → α → Option σ}
    (hstep : ∀ s a s', I s → allowed a → step s a = some s' → I s') (hIP : ∀ s, I s → P s)
    (h : I s) :
    Forever step allowed P s :=
  fun _ has => everyState_of_allSteps hstep hIP h (allSteps_of_forall_mem has)

/-- What holds for ever holds for ever after a step. -/
lemma Forever.step {step : σ → α → Option σ} {s' : σ} {a : α} (h : Forever step allowed P s)
    (ha : allowed a) (hstep : step s a = some s') :
    Forever step allowed P s' := by
  intro as has
  refine (h (a :: as) fun b hb => ?_).2 s' hstep
  obtain rfl | hb := List.mem_cons.mp hb
  · exact ha
  · exact has b hb

/-- What holds for ever holds for ever after a run. -/
lemma Forever.run {step : σ → α → Option σ} (h : Forever step allowed P s)
    (has : ∀ a ∈ as, allowed a) (hrun : run step s as = some t) : Forever step allowed P t := by
  induction as generalizing s with
  | nil =>
    cases hrun
    exact h
  | cons a as ih =>
    obtain ⟨s', hs, hrest⟩ := run_cons_eq_some.mp hrun
    exact ih (h.step (has a List.mem_cons_self) hs) (fun b hb => has b (List.mem_cons_of_mem a hb))
      hrest

lemma Forever.now {step : σ → α → Option σ} (h : Forever step allowed P s) : P s :=
  h [] nofun

/-! ## Guards that see what is to come -/

/-- Every step that the run takes meets the guard `ok`, which also sees the actions after it. -/
def AllStepsAhead (step : σ → α → Option σ) (ok : σ → α → List α → Prop) : σ → List α → Prop
  | _, [] => True
  | s, a :: as => ok s a as ∧ ∀ s', step s a = some s' → AllStepsAhead step ok s' as

instance decidableAllStepsAhead (step : σ → α → Option σ) (ok : σ → α → List α → Prop)
    [∀ s a as, Decidable (ok s a as)] : ∀ s as, Decidable (AllStepsAhead step ok s as)
  | _, [] => isTrue trivial
  | s, a :: as =>
    match h : step s a with
    | none => decidable_of_iff (ok s a as) (by simp [AllStepsAhead, h])
    | some s' =>
      have : Decidable (AllStepsAhead step ok s' as) := decidableAllStepsAhead step ok s' as
      decidable_of_iff (ok s a as ∧ AllStepsAhead step ok s' as) (by simp [AllStepsAhead, h])

/-- An invariant of the state and the actions to come: what follows from it holds in every state,
and what follows from it and the guard holds of every step. -/
theorem everyState_allSteps_of_ahead {step : σ → α → Option σ} {ok : σ → α → List α → Prop}
    {I : σ → List α → Prop}
    (hstep : ∀ s a as s', I s (a :: as) → ok s a as → step s a = some s' → I s' as)
    (hIP : ∀ s as, I s as → P s) (himp : ∀ s a as, I s (a :: as) → ok s a as → ok' s a)
    (h0 : I s as) (hok : AllStepsAhead step ok s as) :
    EveryState step P s as ∧ AllSteps step ok' s as := by
  induction as generalizing s with
  | nil => exact ⟨hIP s [] h0, trivial⟩
  | cons a as ih =>
    have hrest := fun s' hs => ih (hstep s a as s' h0 hok.1 hs) (hok.2 s' hs)
    exact ⟨⟨hIP s _ h0, fun s' hs => (hrest s' hs).1⟩,
      himp s a as h0 hok.1, fun s' hs => (hrest s' hs).2⟩

end Transition
