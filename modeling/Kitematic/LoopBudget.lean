import Kitematic.LoopRuns

/-! How many intents the runs of one controller hand to the runtime. A step is
spent only after the execution, and only by a run that comes back with a result,
so the steps of the budget do not count what is in flight. -/

namespace Kitematic.LoopRuns.Loop
open Dictionary Lifecycle RuntimeAbi

def handedIn (generation : Nat) (w : Waiting) : Bool := w.generation = generation

def inFlight (l : Loop) : Nat := l.waiting.count (handedIn l.generation)

/-- The account of the intents handed over since the last reset: each is in flight,
ended without a step, or spent one; other spent steps are from before the reset. -/
structure Tallied (limit : Int) (l : Loop) : Prop where
  opened : l.Opened
  limit : l.controller.budget.maxSteps = limit
  past : ∀ call w, l.waiting.get call = some w → w.generation ≤ l.generation
  balance : (l.handed : Int) + l.stale =
    l.controller.budget.currentSteps + l.inFlight + l.unbooked

theorem start_tallied (budget : ExecutionBudget) : (start budget).Tallied budget.maxSteps :=
  ⟨by simp [Opened, start], rfl, by simp [start], rfl⟩

theorem Entered.tallied {limit : Int} {l t : Loop} {hands : Bool} (entered : Entered l hands t)
    (tallied : l.Tallied limit) :
    t.Tallied limit ∧ t.handed = l.handed + if hands then 1 else 0 := by
  have opened := entered.opened tallied.opened
  cases entered with
  | handed call w now handed vacant _ generation =>
    refine ⟨⟨opened, (start_maxSteps _ now).trans tallied.limit, ?_, ?_⟩, by simp [handed]⟩
    · exact Dict.forall_set tallied.past generation.le
    · have counted := l.waiting.count_set call w (handedIn l.generation)
      rw [Dict.erase_of_get_none vacant] at counted
      have balance := tallied.balance
      simp only [inFlight, counted, handedIn, generation, decide_true, if_true,
        start_currentSteps] at balance ⊢
      omega
  | idle c finished returned missed steps limit =>
    refine ⟨⟨opened, limit.trans tallied.limit, tallied.past, ?_⟩, by simp [missed]⟩
    have balance := tallied.balance
    simp only [inFlight, steps] at balance ⊢
    exact balance

theorem inFlight_of_get {l : Loop} {call : Nat} {w : Waiting}
    (found : l.waiting.get call = some w) : l.inFlight =
      (l.waiting.erase call).count (handedIn l.generation) +
        if w.generation = l.generation then 1 else 0 := by
  simp [inFlight, Dict.count_of_get found, handedIn]

theorem book_tallied {limit : Int} {l : Loop} {call : Nat} {w : Waiting}
    (tallied : l.Tallied limit) (found : l.waiting.get call = some w)
    (outcome : Except String ExecutionResult) (now : ℚ) :
    (l.book call w outcome now).1.Tallied limit := by
  have ended := book_ended (l := l) (tallied.opened call w found) call outcome now
  have balance := tallied.balance
  rw [inFlight_of_get found] at balance
  have kept : (l.book call w outcome now).1.controller.budget.maxSteps = limit ∧
      (l.book call w outcome now).1.controller.budget.currentSteps =
        l.controller.budget.currentSteps +
          if books l.controller.budget outcome now then 1 else 0 := by
    generalize (l.book call w outcome now).1.controller = c at ended ⊢
    cases ended with
    | booked _ _ _ _ _ booked budget => simp [budget, spent, booked, tallied.limit]
    | unbooked _ _ _ missed budget => simp [budget, missed, tallied.limit]
  refine ⟨opened_erase tallied.opened call, kept.1, Dict.forall_erase tallied.past call, ?_⟩
  rw [kept.2]
  simp only [book, inFlight]
  cases books l.controller.budget outcome now <;> by_cases own : w.generation = l.generation <;>
    simp only [own, if_true, if_false, ne_eq, not_true_eq_false, not_false_eq_true, Bool.not_true,
      Bool.not_false, Bool.false_eq_true, and_self, and_true, and_false]
      at balance ⊢ <;> push_cast at balance ⊢ <;> omega

theorem step_tallied {limit : Int} {l t : Loop} {action : Action} (tallied : l.Tallied limit)
    (stepped : l.step action = some t) : t.Tallied limit := by
  cases step_stepped tallied.opened stepped with
  | runIntent _ _ _ _ _ entered => exact (entered.tallied tallied).1
  | runMultiStep _ _ _ _ entered => exact (entered.tallied tallied).1
  | resume call w outcome now pass t found entered =>
    exact (entered.tallied (book_tallied tallied found outcome now)).1
  | cancel call w found =>
    refine ⟨opened_erase tallied.opened call, tallied.limit,
      Dict.forall_erase tallied.past call, ?_⟩
    have balance := tallied.balance
    rw [inFlight_of_get found] at balance
    simp only [inFlight]
    by_cases own : w.generation = l.generation <;>
      simp only [own, if_true, if_false] at balance ⊢ <;> push_cast at balance ⊢ <;> omega
  | shutdown =>
    have kept := shutdown_budget l.controller
    have balance := tallied.balance
    simp only [inFlight] at balance
    exact ⟨tallied.opened, kept ▸ tallied.limit, tallied.past, by
      simpa only [kept, inFlight] using balance⟩
  | reset =>
    refine ⟨tallied.opened, tallied.limit, fun call w stored => ?_, ?_⟩
    · exact (tallied.past call w stored).trans (Nat.le_succ _)
    · have none : l.reset.inFlight = 0 := by
        refine List.countP_eq_zero.mpr fun e member current => ?_
        have old := tallied.past e.1 e.2 (Dict.get_eq_some.mpr member)
        have new : e.2.generation = l.generation + 1 := of_decide_eq_true current
        omega
      rw [none]
      rfl

/-- No more intents than steps. -/
def WithinSteps (limit : Int) (l : Loop) : Prop := (l.handed : Int) ≤ limit

/-- When an intent is handed over, the budget has more steps left than there are
executions, since the last reset, in flight or ended without a step; a step spent
since by an execution from before the reset is counted as left. -/
def StepInReserve (_ : List Action) (l : Loop) (action : Action) : Prop :=
  l.handsIntent action = true →
    (l.inFlight : Int) + l.unbooked <
      l.controller.budget.maxSteps - l.controller.budget.currentSteps + l.stale

theorem step_withinSteps {limit : Int} {past : List Action} {l t : Loop} {action : Action}
    (nonneg : 0 ≤ limit) (tallied : l.Tallied limit) (within : l.WithinSteps limit)
    (stepped : l.step action = some t) : t.WithinSteps limit ↔ StepInReserve past l action := by
  have balance := tallied.balance
  have counts : (action = .reset ∧ t.handed = 0 ∧ l.handsIntent action = false) ∨
      t.handed = l.handed + if l.handsIntent action then 1 else 0 := by
    cases step_stepped tallied.opened stepped with
    | runIntent _ _ _ _ _ entered => exact .inr (entered.tallied tallied).2
    | runMultiStep _ _ _ _ entered => exact .inr (entered.tallied tallied).2
    | resume call w outcome now pass t found entered =>
      exact .inr (entered.tallied (book_tallied tallied found outcome now)).2
    | cancel => exact .inr rfl
    | shutdown => exact .inr rfl
    | reset => exact .inl ⟨rfl, rfl, rfl⟩
  simp only [WithinSteps, StepInReserve, tallied.limit] at within ⊢
  rcases counts with ⟨-, fresh, idle⟩ | counts
  · simp [fresh, idle, nonneg]
  · rw [counts]
    cases l.handsIntent action with
    | true =>
      simp only [if_true, forall_const]
      push_cast
      omega
    | false => simpa using within

/-- In every state of a run no more intents have been handed over than the budget has
steps exactly when each is handed over with a step in reserve. -/
theorem withinSteps_iff_stepInReserve {budget : ExecutionBudget} {actions : List Action} {l : Loop}
    (ran : Trace.run step (start budget) actions = some l) :
    Trace.AllStates step (WithinSteps budget.maxSteps) (start budget) actions ↔
      0 ≤ budget.maxSteps ∧ Trace.EachStep step StepInReserve [] (start budget) actions := by
  by_cases nonneg : 0 ≤ budget.maxSteps
  · rw [and_iff_right nonneg]
    exact Trace.allStates_iff_eachStep (I := fun _ => Tallied budget.maxSteps)
      (fun _ _ _ _ tallied stepped => step_tallied tallied stepped)
      (fun _ _ _ _ tallied within stepped => step_withinSteps nonneg tallied within stepped)
      (start_tallied budget) (by simpa [WithinSteps, start] using nonneg) ran
  · refine iff_of_false (fun all => nonneg ?_) fun holds => nonneg holds.1
    have first : (start budget).WithinSteps budget.maxSteps := by
      cases actions with
      | nil => exact all
      | cons => exact all.1
    simpa [WithinSteps, start] using first

def twoAtOnce : List Action :=
  [.runIntent 0 ⟨"agent", "tool.read", []⟩ "loop-1" ⟨0, 0, 0, 0⟩,
    .runIntent 1 ⟨"agent", "tool.read", []⟩ "loop-2" ⟨0, 0, 0, 0⟩]

theorem withinSteps_iff_stepInReserve_two :
    ∃ l, Trace.run step (start {}) twoAtOnce = some l ∧
      (Trace.AllStates step (WithinSteps 10) (start {}) twoAtOnce ↔
        0 ≤ (10 : Int) ∧ Trace.EachStep step StepInReserve [] (start {}) twoAtOnce) := by
  obtain ⟨l, ran⟩ : ∃ l, Trace.run step (start {}) twoAtOnce = some l :=
    Option.isSome_iff_exists.mp (by decide +kernel)
  exact ⟨l, ran, withinSteps_iff_stepInReserve ran⟩

/-- A budget of one step lets both through. -/
theorem one_step_for_two :
    ¬ Trace.AllStates step (WithinSteps 1) (start { maxSteps := 1 }) twoAtOnce := by
  intro all
  obtain ⟨l, ran⟩ : ∃ l, Trace.run step (start { maxSteps := 1 }) twoAtOnce = some l :=
    Option.isSome_iff_exists.mp (by decide +kernel)
  have seen : (Trace.run step (start { maxSteps := 1 }) twoAtOnce).map handed = some 2 := by
    decide +kernel
  rw [ran, Option.map_some, Option.some.injEq] at seen
  have within := all.last ran
  rw [WithinSteps, seen] at within
  exact absurd within (by decide)

end Kitematic.LoopRuns.Loop
