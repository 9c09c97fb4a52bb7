import Mathlib.Data.Option.Basic

/-! Runs of a deterministic labelled step, with the properties of all reached
states and of all steps taken. A step property may look at the labels already
consumed (newest first), so conditions on the history of inputs are step
properties too. -/

namespace Kitematic.Trace
variable {σ ε : Type*} (step : σ → ε → Option σ)

def run : σ → List ε → Option σ
  | s, [] => some s
  | s, e :: es => (step s e).bind fun t => run t es

/-- Every state of the run satisfies `P`, the first and the last included. -/
def AllStates (P : σ → Prop) : σ → List ε → Prop
  | s, [] => P s
  | s, e :: es => P s ∧ ∀ t, step s e = some t → AllStates P t es

/-- Every step of the run satisfies `P`, given the labels before it. -/
def EachStep (P : List ε → σ → ε → Prop) : List ε → σ → List ε → Prop
  | _, _, [] => True
  | past, s, e :: es => P past s e ∧ ∀ t, step s e = some t → EachStep P (e :: past) t es

variable {step}

theorem run_cons {s t : σ} {e : ε} {es : List ε} (ran : run step s (e :: es) = some t) :
    ∃ middle, step s e = some middle ∧ run step middle es = some t :=
  Option.bind_eq_some_iff.mp ran

theorem run_append (s : σ) (first second : List ε) :
    run step s (first ++ second) = (run step s first).bind fun t => run step t second := by
  induction first generalizing s with
  | nil => rfl
  | cons e es ih => simp only [List.cons_append, run, ih, Option.bind_assoc]

theorem run_isSome (total : ∀ s e, ∃ t, step s e = some t) (s : σ) (es : List ε) :
    ∃ t, run step s es = some t := by
  induction es generalizing s with
  | nil => exact ⟨s, rfl⟩
  | cons e es ih =>
    obtain ⟨middle, first⟩ := total s e
    obtain ⟨t, rest⟩ := ih middle
    exact ⟨t, by rw [run, first, Option.bind_some, rest]⟩

theorem run_total (f : σ → ε → σ) (s : σ) (es : List ε) :
    run (fun s e => some (f s e)) s es = some (es.foldl f s) := by
  induction es generalizing s with
  | nil => rfl
  | cons e es ih => exact ih (f s e)

/-- The run rule: what every step of the run keeps, the run keeps. -/
theorem run_invariant {I : σ → Prop} {s t : σ} {es : List ε}
    (keeps : ∀ e ∈ es, ∀ s t, I s → step s e = some t → I t) (start : I s)
    (ran : run step s es = some t) : I t := by
  induction es generalizing s with
  | nil => exact Option.some.inj ran ▸ start
  | cons e es ih =>
    obtain ⟨middle, first, rest⟩ := run_cons ran
    exact ih (fun e member => keeps e (List.mem_cons_of_mem _ member))
      (keeps e List.mem_cons_self s middle start first) rest

/-- The run rule for invariants that look at the labels consumed so far. -/
theorem run_history {I : List ε → σ → Prop}
    (keeps : ∀ past s e t, I past s → step s e = some t → I (e :: past) t) {s t : σ}
    {es past : List ε} (start : I past s) (ran : run step s es = some t) :
    I (es.reverse ++ past) t := by
  induction es generalizing s past with
  | nil => exact Option.some.inj ran ▸ start
  | cons e es ih =>
    obtain ⟨middle, first, rest⟩ := run_cons ran
    rw [List.reverse_cons, List.append_assoc]
    exact ih (keeps past s e middle start first) rest

theorem allStates_of_keeps {I : σ → Prop} {s : σ} {es : List ε}
    (keeps : ∀ e ∈ es, ∀ s t, I s → step s e = some t → I t) (start : I s) :
    AllStates step I s es := by
  induction es generalizing s with
  | nil => exact start
  | cons e es ih =>
    exact ⟨start, fun t stepped => ih (fun e member => keeps e (List.mem_cons_of_mem _ member))
      (keeps e List.mem_cons_self s t start stepped)⟩

theorem AllStates.last {P : σ → Prop} {s t : σ} {es : List ε} (all : AllStates step P s es)
    (ran : run step s es = some t) : P t := by
  induction es generalizing s with
  | nil => exact Option.some.inj ran ▸ all
  | cons e es ih =>
    obtain ⟨middle, first, rest⟩ := run_cons ran
    exact ih (all.2 middle first) rest

theorem allStates_of_eachStep {I : σ → Prop} {Clean : List ε → σ → ε → Prop}
    (keeps : ∀ past s e t, I s → Clean past s e → step s e = some t → I t) {s : σ}
    {es past : List ε} (start : I s) (clean : EachStep step Clean past s es) :
    AllStates step I s es := by
  induction es generalizing s past with
  | nil => exact start
  | cons e es ih =>
    refine ⟨start, fun t stepped => ?_⟩
    exact ih (keeps past s e t start clean.1 stepped) (clean.2 t stepped)

theorem eachStep_of_clean {I : σ → Prop} {Clean P : List ε → σ → ε → Prop}
    (keeps : ∀ past s e t, I s → Clean past s e → step s e = some t → I t)
    (implies : ∀ past s e, I s → Clean past s e → P past s e) {s : σ} {es past : List ε}
    (start : I s) (clean : EachStep step Clean past s es) : EachStep step P past s es := by
  induction es generalizing s past with
  | nil => trivial
  | cons e es ih =>
    exact ⟨implies past s e start clean.1, fun t stepped =>
      ih (keeps past s e t start clean.1 stepped) (clean.2 t stepped)⟩

theorem eachStep_of_invariant {I : σ → Prop} {Clean P : List ε → σ → ε → Prop}
    (keeps : ∀ past s e t, I s → Clean past s e → step s e = some t → I t)
    (implies : ∀ past s e, I s → P past s e) {s : σ} {es past : List ε} (start : I s)
    (clean : EachStep step Clean past s es) : EachStep step P past s es :=
  eachStep_of_clean keeps (fun past s e holds _ => implies past s e holds) start clean

theorem AllStates.mono {P Q : σ → Prop} (weaker : ∀ s, P s → Q s) {s : σ} {es : List ε}
    (all : AllStates step P s es) : AllStates step Q s es := by
  induction es generalizing s with
  | nil => exact weaker s all
  | cons e es ih => exact ⟨weaker s all.1, fun t stepped => ih (all.2 t stepped)⟩

theorem eachStep_of_forall {P : List ε → σ → ε → Prop} {s : σ} {es past : List ε}
    (holds : ∀ e ∈ es, ∀ past s, P past s e) : EachStep step P past s es := by
  induction es generalizing s past with
  | nil => trivial
  | cons e es ih =>
    exact ⟨holds e List.mem_cons_self past s, fun t _ =>
      ih fun e member => holds e (List.mem_cons_of_mem _ member)⟩

theorem AllStates.first {P : σ → Prop} {s : σ} {es : List ε} (all : AllStates step P s es) :
    P s := by
  cases es with
  | nil => exact all
  | cons _ _ => exact all.1

/-- Where each step from a good state decides by its label, its past and its source
state whether it is right and the next state is good, the steps are all right and the
states all good exactly when the steps are all clean. Only the labels of the run count. -/
theorem allStates_and_eachStep_iff_of (allowed : ε → Prop) {I : List ε → σ → Prop}
    {Good : σ → Prop} {Right Clean : List ε → σ → ε → Prop}
    (keeps : ∀ past s e t, allowed e → I past s → step s e = some t → I (e :: past) t)
    (decides : ∀ past s e t, allowed e → I past s → Good s → step s e = some t →
      (Right past s e ∧ Good t ↔ Clean past s e))
    {s t : σ} {es past : List ε} (labels : ∀ e ∈ es, allowed e) (start : I past s) (good : Good s)
    (ran : run step s es = some t) :
    AllStates step Good s es ∧ EachStep step Right past s es ↔ EachStep step Clean past s es := by
  induction es generalizing s past with
  | nil => simpa [AllStates, EachStep] using good
  | cons e es ih =>
    obtain ⟨middle, first, rest⟩ := run_cons ran
    have here := labels e List.mem_cons_self
    have later' := fun e' member => labels e' (List.mem_cons_of_mem _ member)
    have decided := decides past s e middle here start good first
    have kept := keeps past s e middle here start first
    simp only [AllStates, EachStep, first, Option.some.injEq, forall_eq']
    constructor
    · rintro ⟨⟨_, later⟩, right, after⟩
      exact ⟨decided.mp ⟨right, later.first⟩, (ih later' kept later.first rest).mp ⟨later, after⟩⟩
    · rintro ⟨clean, later⟩
      obtain ⟨right, next⟩ := decided.mpr clean
      obtain ⟨states, steps⟩ := (ih later' kept next rest).mpr later
      exact ⟨⟨good, states⟩, right, steps⟩

theorem allStates_and_eachStep_iff {I : List ε → σ → Prop} {Good : σ → Prop}
    {Right Clean : List ε → σ → ε → Prop}
    (keeps : ∀ past s e t, I past s → step s e = some t → I (e :: past) t)
    (decides : ∀ past s e t, I past s → Good s → step s e = some t →
      (Right past s e ∧ Good t ↔ Clean past s e))
    {s t : σ} {es past : List ε} (start : I past s) (good : Good s)
    (ran : run step s es = some t) :
    AllStates step Good s es ∧ EachStep step Right past s es ↔ EachStep step Clean past s es :=
  allStates_and_eachStep_iff_of (fun _ => True)
    (fun past s e t _ => keeps past s e t) (fun past s e t _ => decides past s e t)
    (fun _ _ => trivial) start good ran

theorem allStates_iff_eachStep_of (allowed : ε → Prop) {I : List ε → σ → Prop} {Good : σ → Prop}
    {Clean : List ε → σ → ε → Prop}
    (keeps : ∀ past s e t, allowed e → I past s → step s e = some t → I (e :: past) t)
    (decides : ∀ past s e t, allowed e → I past s → Good s → step s e = some t →
      (Good t ↔ Clean past s e))
    {s t : σ} {es past : List ε} (labels : ∀ e ∈ es, allowed e) (start : I past s) (good : Good s)
    (ran : run step s es = some t) :
    AllStates step Good s es ↔ EachStep step Clean past s es := by
  have all : AllStates step Good s es ∧ EachStep step (fun _ _ _ => True) past s es ↔
      EachStep step Clean past s es :=
    allStates_and_eachStep_iff_of allowed keeps (by simpa using decides) labels start good ran
  rw [← all]
  exact (and_iff_left (eachStep_of_forall fun _ _ _ _ => trivial)).symm

theorem allStates_iff_eachStep {I : List ε → σ → Prop} {Good : σ → Prop}
    {Clean : List ε → σ → ε → Prop}
    (keeps : ∀ past s e t, I past s → step s e = some t → I (e :: past) t)
    (decides : ∀ past s e t, I past s → Good s → step s e = some t → (Good t ↔ Clean past s e))
    {s t : σ} {es past : List ε} (start : I past s) (good : Good s)
    (ran : run step s es = some t) :
    AllStates step Good s es ↔ EachStep step Clean past s es :=
  allStates_iff_eachStep_of (fun _ => True)
    (fun past s e t _ => keeps past s e t) (fun past s e t _ => decides past s e t)
    (fun _ _ => trivial) start good ran

theorem eachStep_of_allStates {I : List ε → σ → Prop} {Good : σ → Prop}
    {Clean : List ε → σ → ε → Prop}
    (keeps : ∀ past s e t, I past s → step s e = some t → I (e :: past) t)
    (implies : ∀ past s e t, I past s → step s e = some t → Good t → Clean past s e)
    {s t : σ} {es past : List ε} (start : I past s) (ran : run step s es = some t)
    (all : AllStates step Good s es) : EachStep step Clean past s es := by
  induction es generalizing s past with
  | nil => trivial
  | cons e es ih =>
    obtain ⟨middle, first, rest⟩ := run_cons ran
    have later := all.2 middle first
    refine ⟨implies past s e middle start first later.first, fun t stepped => ?_⟩
    cases first.symm.trans stepped
    exact ih (keeps past s e middle start first) rest later

theorem eachStep_congr {I : List ε → σ → Prop} {P Q : List ε → σ → ε → Prop}
    (keeps : ∀ past s e t, I past s → step s e = some t → I (e :: past) t)
    (agree : ∀ past s e t, I past s → step s e = some t → (P past s e ↔ Q past s e))
    {s t : σ} {es past : List ε} (start : I past s) (ran : run step s es = some t) :
    EachStep step P past s es ↔ EachStep step Q past s es := by
  induction es generalizing s past with
  | nil => rfl
  | cons e es ih =>
    obtain ⟨middle, first, rest⟩ := run_cons ran
    simp only [EachStep, first, Option.some.injEq, forall_eq',
      agree past s e middle start first, ih (keeps past s e middle start first) rest]

theorem eachStep_cons {P : List ε → σ → ε → Prop} {past es : List ε} {s t : σ} {e : ε}
    (stepped : step s e = some t) (first : P past s e)
    (rest : EachStep step P (e :: past) t es) : EachStep step P past s (e :: es) :=
  ⟨first, fun _ same => Option.some.inj (stepped.symm.trans same) ▸ rest⟩

theorem eachStep_and {P Q : List ε → σ → ε → Prop} {s : σ} {es past : List ε} :
    EachStep step (fun past s e => P past s e ∧ Q past s e) past s es ↔
      EachStep step P past s es ∧ EachStep step Q past s es := by
  induction es generalizing s past with
  | nil => simp [EachStep]
  | cons e es ih =>
    simp only [EachStep, ih]
    constructor
    · rintro ⟨⟨p, q⟩, later⟩
      exact ⟨⟨p, fun t h => (later t h).1⟩, q, fun t h => (later t h).2⟩
    · rintro ⟨⟨p, lp⟩, q, lq⟩
      exact ⟨⟨p, q⟩, fun t h => ⟨lp t h, lq t h⟩⟩

/-- The pairs are the moves of a walk along `legal` from the first state to the last. -/
def Walk (legal : σ → σ → Prop) : σ → List (σ × σ) → σ → Prop
  | s, [], t => s = t
  | s, (source, target) :: rest, t => s = source ∧ legal source target ∧ Walk legal target rest t

theorem Walk.snoc {legal : σ → σ → Prop} {s t u : σ} {moves : List (σ × σ)}
    (walk : Walk legal s moves t) (move : legal t u) : Walk legal s (moves ++ [(t, u)]) u := by
  induction moves generalizing s with
  | nil => exact ⟨walk, move, rfl⟩
  | cons first rest ih => exact ⟨walk.1, walk.2.1, ih walk.2.2⟩

section observed
variable {α : Type*}

def observed (handle : σ → ε → σ × α) (own : ε → Bool) : σ → List ε → List α
  | _, [] => []
  | s, e :: es =>
      if own e then (handle s e).2 :: observed handle own (handle s e).1 es
      else observed handle own (handle s e).1 es

variable {handle : σ → ε → σ × α} {own : ε → Bool} {R : σ → σ → Prop}

theorem observed_filter
    (alike : ∀ s s' e, R s s' → own e = true →
      (handle s e).2 = (handle s' e).2 ∧ R (handle s e).1 (handle s' e).1)
    (unseen : ∀ s s' e, R s s' → own e = false → R (handle s e).1 s')
    {s s' : σ} (related : R s s') (es : List ε) :
    observed handle own s es = observed handle own s' (es.filter own) := by
  induction es generalizing s s' with
  | nil => rfl
  | cons e es ih =>
    cases mine : own e with
    | true =>
      obtain ⟨answer, next⟩ := alike s s' e related mine
      simp only [observed, mine, if_true, List.filter_cons_of_pos, answer, ih next]
    | false =>
      have next := unseen s s' e related mine
      simp only [observed, mine, Bool.false_eq_true, if_false, ih next, not_false_eq_true,
        List.filter_cons_of_neg]

/-- The unwinding rule: runs that agree on the party's labels answer it alike. -/
theorem observed_eq
    (alike : ∀ s s' e, R s s' → own e = true →
      (handle s e).2 = (handle s' e).2 ∧ R (handle s e).1 (handle s' e).1)
    (unseen : ∀ s s' e, R s s' → own e = false → R (handle s e).1 s')
    {s s' : σ} (related : R s s') (reflexive : R s' s') {es es' : List ε}
    (same : es.filter own = es'.filter own) :
    observed handle own s es = observed handle own s' es' := by
  rw [observed_filter alike unseen related es, same,
    ← observed_filter alike unseen reflexive es']

end observed

end Kitematic.Trace
