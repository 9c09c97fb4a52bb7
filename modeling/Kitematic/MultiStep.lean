import Kitematic.LoopRuns

/-! One `run_multi_step` call that has its loop controller to itself. The recursion over
the intents is the run of the interleaved loop in which only this call acts, and its
results are those of a prefix of the intents. -/

namespace Kitematic.MultiStep
open Dictionary Lifecycle LoopRuns RuntimeAbi State

/-- What a pass through the loop meets: besides what it reads, what `execute_intent` comes
back with and the instant at which the step is spent. -/
structure Turn where
  pass : Pass
  outcome : Intent → Except String ExecutionResult
  ended : ℚ

def stepsRemaining (b : ExecutionBudget) : Int := max 0 (b.maxSteps - b.currentSteps)

def runIntent (c : LoopController) (intent : Intent) (turn : Turn) :
    LoopController × LoopResult :=
  match c.runIntent intent turn.pass.executionId turn.pass.clock with
  | (c, _, some result) => (c, result)
  | (c, log, none) =>
      match c.finishRun ⟨turn.pass.executionId, log⟩ (turn.outcome intent) turn.ended with
      | (c, _, result) => (c, result)

def later (turns : Nat → Turn) : Nat → Turn := fun n => turns (n + 1)

def runMultiStep (c : LoopController) (turns : Nat → Turn) :
    List Intent → LoopController × List LoopResult
  | [] => (c, [])
  | intent :: rest =>
      if c.budget.isExhausted (turns 0).pass.checked then (c, [])
      else
        match runIntent c intent (turns 0) with
        | (c, result) =>
            if result.success then
              match runMultiStep c (later turns) rest with
              | (c, results) => (c, result :: results)
            else (c, [result])

inductive Ran (c : LoopController) : LoopController × LoopResult → Prop where
  | spent (c' : LoopController) (result : LoopResult)
      (room : c.budget.currentSteps < c.budget.maxSteps)
      (steps : c'.budget.currentSteps = c.budget.currentSteps + 1)
      (limit : c'.budget.maxSteps = c.budget.maxSteps) : Ran c (c', result)
  | failed (c' : LoopController) (result : LoopResult) (failed : result.success = false)
      (steps : c'.budget.currentSteps = c.budget.currentSteps)
      (limit : c'.budget.maxSteps = c.budget.maxSteps) : Ran c (c', result)

theorem room_of_books {b : ExecutionBudget} {outcome : Except String ExecutionResult} {now : ℚ}
    (booked : books b outcome now = true) : b.currentSteps < b.maxSteps := by
  cases outcome with
  | error text => cases booked
  | ok returned =>
    simp only [books, Bool.not_eq_true', ExecutionBudget.isExhausted, Bool.or_eq_false_iff,
      ExecutionBudget.isStepsExhausted, decide_eq_false_iff_not, not_le] at booked
    exact booked.1.1

theorem runIntent_ran (c : LoopController) (intent : Intent) (turn : Turn) :
    Ran c (runIntent c intent turn) := by
  have begun := runIntent_begun c intent turn.pass.executionId turn.pass.clock
  unfold runIntent
  generalize c.runIntent intent turn.pass.executionId turn.pass.clock = came at begun ⊢
  cases begun with
  | refused c' log result idle failed steps limit => exact .failed c' result failed steps limit
  | handed log hands opened =>
    have ended := @finishRun_ended { c with budget := c.budget.start turn.pass.clock.start }
      ⟨turn.pass.executionId, log⟩ opened (turn.outcome intent) turn.ended
    simp only
    generalize LoopController.finishRun _ _ _ _ = after at ended ⊢
    cases ended with
    | booked returned c' log result came booked budget =>
      have room := room_of_books booked
      simp only [start_currentSteps, start_maxSteps] at room
      exact .spent c' result room (by simp [budget, spent]) (by simp [budget, spent])
    | unbooked c' log result missed budget state failed =>
      exact .failed c' result failed (by simp [budget]) (by simp [budget])

/-- How a call comes to its results. -/
inductive Stops : LoopController → (Nat → Turn) → List Intent → LoopController →
    List LoopResult → Prop where
  | finished (c : LoopController) (turns : Nat → Turn) : Stops c turns [] c []
  | exhausted (c : LoopController) (turns : Nat → Turn) (intent : Intent) (rest : List Intent)
      (exhausted : c.budget.isExhausted (turns 0).pass.checked = true) :
      Stops c turns (intent :: rest) c []
  | failed (c c' : LoopController) (turns : Nat → Turn) (intent : Intent) (rest : List Intent)
      (result : LoopResult) (room : c.budget.isExhausted (turns 0).pass.checked = false)
      (came : runIntent c intent (turns 0) = (c', result)) (failed : result.success = false) :
      Stops c turns (intent :: rest) c' [result]
  | succeeded (c c' c'' : LoopController) (turns : Nat → Turn) (intent : Intent)
      (rest : List Intent) (result : LoopResult) (results : List LoopResult)
      (room : c.budget.isExhausted (turns 0).pass.checked = false)
      (came : runIntent c intent (turns 0) = (c', result)) (succeeded : result.success = true)
      (goes : Stops c' (later turns) rest c'' results) :
      Stops c turns (intent :: rest) c'' (result :: results)

theorem runMultiStep_stops (c : LoopController) (turns : Nat → Turn) (intents : List Intent) :
    Stops c turns intents (runMultiStep c turns intents).1 (runMultiStep c turns intents).2 := by
  induction intents generalizing c turns with
  | nil => exact .finished c turns
  | cons intent rest ih =>
    unfold runMultiStep
    cases room : c.budget.isExhausted (turns 0).pass.checked with
    | true => exact .exhausted c turns intent rest room
    | false =>
      rcases came : runIntent c intent (turns 0) with ⟨c', result⟩
      cases won : result.success with
      | true =>
        simp only [Bool.false_eq_true, if_false, won, if_true]
        exact .succeeded c c' _ turns intent rest result _ room came won (ih c' _)
      | false =>
        simp only [Bool.false_eq_true, if_false, won]
        exact .failed c c' turns intent rest result room came won

def before (c : LoopController) (turns : Nat → Turn) (intents : List Intent) (k : Nat) :
    LoopController :=
  (runMultiStep c turns (intents.take k)).1

theorem before_succ {c c' : LoopController} {turns : Nat → Turn} {intent : Intent}
    {result : LoopResult} (room : c.budget.isExhausted (turns 0).pass.checked = false)
    (came : runIntent c intent (turns 0) = (c', result)) (succeeded : result.success = true)
    (rest : List Intent) (k : Nat) :
    before c turns (intent :: rest) (k + 1) = before c' (later turns) rest k := by
  simp [before, runMultiStep, room, came, succeeded]

section stops
variable {c c' : LoopController} {turns : Nat → Turn} {intents : List Intent}
  {results : List LoopResult}

theorem Stops.length_le (stops : Stops c turns intents c' results) :
    results.length ≤ intents.length := by
  induction stops with
  | finished => simp
  | exhausted => simp
  | failed => simp
  | succeeded _ _ _ _ _ _ _ _ _ _ _ _ ih => simpa using ih

theorem Stops.each (stops : Stops c turns intents c' results) (k : Nat) (intent : Intent)
    (result : LoopResult) (given : intents[k]? = some intent) (got : results[k]? = some result) :
    result = (runIntent (before c turns intents k) intent (turns k)).2 := by
  induction stops generalizing k with
  | finished => simp at got
  | exhausted => simp at got
  | failed c c' turns first rest only room came =>
    cases k with
    | zero =>
      simp only [List.getElem?_cons_zero, Option.some.injEq] at given got
      subst given got
      simp [before, runMultiStep, came]
    | succ k => simp at got
  | succeeded c c' c'' turns first rest head results room came succeeded goes ih =>
    cases k with
    | zero =>
      simp only [List.getElem?_cons_zero, Option.some.injEq] at given got
      subst given got
      simp [before, runMultiStep, came]
    | succ k =>
      rw [before_succ room came succeeded]
      exact ih k given got

theorem Stops.successes (stops : Stops c turns intents c' results) :
    ∀ r ∈ results.dropLast, r.success = true := by
  induction stops with
  | finished => simp
  | exhausted => simp
  | failed => simp
  | succeeded _ _ _ _ _ _ head results _ _ succeeded _ ih =>
    cases results with
    | nil => simp
    | cons next results => simpa [succeeded] using ih

theorem Stops.early (stops : Stops c turns intents c' results)
    (short : results.length < intents.length) :
    (∃ last, results.getLast? = some last ∧ last.success = false) ∨
      c'.budget.isExhausted (turns results.length).pass.checked = true := by
  induction stops with
  | finished => simp at short
  | exhausted _ _ _ _ exhausted => exact .inr exhausted
  | failed _ _ _ _ _ result _ _ failed => exact .inl ⟨result, rfl, failed⟩
  | succeeded _ _ _ _ _ _ head results _ _ _ _ ih =>
    rcases ih (by simpa using short) with ⟨last, ended, failed⟩ | exhausted
    · exact .inl ⟨last, by simp [List.getLast?_cons, ended], failed⟩
    · exact .inr exhausted

theorem Stops.count_le (stops : Stops c turns intents c' results) :
    (results.countP LoopResult.success : Int) ≤ stepsRemaining c.budget := by
  induction stops with
  | finished => simp [stepsRemaining]
  | exhausted => simp [stepsRemaining]
  | failed _ _ _ _ _ result _ _ failed => simp [failed, stepsRemaining]
  | succeeded c c' _ turns intent _ head results _ came succeeded _ ih =>
    have ran := runIntent_ran c intent (turns 0)
    rw [came] at ran
    rw [List.countP_cons_of_pos succeeded]
    cases ran with
    | spent _ _ room steps limit =>
      simp only [stepsRemaining, steps, limit] at ih ⊢
      push_cast
      omega
    | failed _ _ failed => exact absurd (failed.symm.trans succeeded) Bool.false_ne_true

end stops

def Resumes (call : Nat) (action : Action) : Prop :=
  ∃ outcome now pass, action = .resume call outcome now pass

theorem step_resume {l : Loop} {call : Nat} {w : Waiting} {results : List LoopResult}
    {rest : List Intent} (found : l.waiting.get call = some w)
    (steps : w.steps = some (results, rest)) {outcome : Except String ExecutionResult} {now : ℚ}
    {c : LoopController} {log : EventLog} {result : LoopResult}
    (ended : l.controller.finishRun w.run outcome now = (c, log, result)) (pass : Pass) :
    ∃ after : Loop, after.controller = c ∧ after.returned = l.returned ∧
      after.waiting.get call = none ∧ l.step (.resume call outcome now pass) = some
        (if result.success then after.nextStep call (results ++ [result]) rest pass
          else after.answer call (results ++ [result])) := by
  refine ⟨(l.book call w outcome now).1, ?_, rfl, ?_, ?_⟩
  · simp [Loop.book, ended]
  · exact (l.waiting.get_erase call call).trans (if_pos rfl)
  · simp [Loop.step, Loop.resume, found, steps, Loop.book, ended]

theorem begin_alone {l : Loop} {call : Nat} (vacant : l.waiting.get call = none)
    (results : List LoopResult) (rest : List Intent) {intent : Intent} {turn : Turn} (pass : Pass)
    {c : LoopController} {result : LoopResult}
    (came : runIntent l.controller intent turn = (c, result)) :
    ∃ (actions : List Action) (after : Loop), (∀ action ∈ actions, Resumes call action) ∧
      after.controller = c ∧ after.returned = l.returned ∧ after.waiting.get call = none ∧
      Trace.run Loop.step
        (l.begin call (some (results, rest)) intent turn.pass.executionId turn.pass.clock) actions =
        some (if result.success then after.nextStep call (results ++ [result]) rest pass
          else after.answer call (results ++ [result])) := by
  have begun := runIntent_begun l.controller intent turn.pass.executionId turn.pass.clock
  unfold runIntent at came
  unfold Loop.begin
  generalize l.controller.runIntent intent turn.pass.executionId turn.pass.clock = opened
    at begun came ⊢
  cases begun with
  | refused c' log result' idle failed =>
    cases came
    exact ⟨[], { l with controller := c, finished := l.finished ++ [⟨none, result, log⟩] },
      by simp, rfl, rfl, vacant, by simp [Trace.run, failed]⟩
  | handed log hands =>
    simp only at came ⊢
    rcases ended : LoopController.finishRun _ _ _ _ with ⟨c', log', result'⟩
    rw [ended] at came
    cases came
    let w : Waiting := ⟨⟨turn.pass.executionId, log⟩, some (results, rest), l.generation⟩
    let handed : Loop :=
      { l with
        controller :=
          { l.controller with budget := l.controller.budget.start turn.pass.clock.start }
        waiting := l.waiting.set call w
        handed := l.handed + 1 }
    obtain ⟨after, controller, returned, free, resumed⟩ :=
      step_resume (l := handed) (w := w) ((l.waiting.get_set call call w).trans (if_pos rfl)) rfl
        ended pass
    refine ⟨[.resume call (turn.outcome intent) turn.ended pass], after, ?_, controller, returned,
      free, ?_⟩
    · intro action member
      exact ⟨_, _, _, List.mem_singleton.mp member⟩
    · exact (congrArg (Option.bind · some) resumed).trans rfl

theorem nextStep_alone {l : Loop} {call : Nat} (vacant : l.waiting.get call = none)
    (turns : Nat → Turn) (intents : List Intent) (results : List LoopResult) :
    ∃ actions t, (∀ action ∈ actions, Resumes call action) ∧
      Trace.run Loop.step (l.nextStep call results intents (turns 0).pass) actions = some t ∧
      t.controller = (runMultiStep l.controller turns intents).1 ∧
      t.returned =
        l.returned ++ [(call, results ++ (runMultiStep l.controller turns intents).2)] := by
  induction intents generalizing l turns results with
  | nil => exact ⟨[], _, by simp, rfl, rfl, by simp [runMultiStep, Loop.nextStep, Loop.answer]⟩
  | cons intent rest ih =>
    unfold Loop.nextStep runMultiStep
    cases room : l.controller.budget.isExhausted (turns 0).pass.checked with
    | true => exact ⟨[], _, by simp, rfl, rfl, by simp [Loop.answer]⟩
    | false =>
      rcases came : runIntent l.controller intent (turns 0) with ⟨c, result⟩
      obtain ⟨actions, after, own, controller, returned, free, ran⟩ :=
        begin_alone vacant results rest (turns 1).pass came
      simp only [Bool.false_eq_true, if_false]
      cases won : result.success with
      | false =>
        simp only [won, Bool.false_eq_true, if_false] at ran ⊢
        exact ⟨actions, _, own, ran, controller, by simp [Loop.answer, returned]⟩
      | true =>
        simp only [won, if_true] at ran ⊢
        obtain ⟨more, t, owned, went, last, answered⟩ :=
          ih free (later turns) (results ++ [result])
        refine ⟨actions ++ more, t, ?_, ?_, ?_, ?_⟩
        · exact fun action member => (List.mem_append.mp member).elim (own action) (owned action)
        · rw [Trace.run_append, ran]
          exact went
        · rw [last, controller]
        · rw [answered, returned, controller]
          simp

/-- No more steps are spent than the limit, or than were spent before. -/
structure Capped (limit bound : Int) (l : Loop) : Prop where
  opened : l.Opened
  limit : l.controller.budget.maxSteps = limit
  steps : l.controller.budget.currentSteps ≤ bound

theorem Capped.entered {limit bound : Int} {l t : Loop} {hands : Bool} (capped : Capped limit bound l)
    (entered : Loop.Entered l hands t) : Capped limit bound t := by
  refine ⟨entered.opened capped.opened, ?_, ?_⟩
  · cases entered with
    | handed _ _ now => exact (start_maxSteps _ now).trans capped.limit
    | idle _ _ _ _ _ limit => exact limit.trans capped.limit
  · cases entered with
    | handed _ _ now => exact (start_currentSteps _ now).le.trans capped.steps
    | idle _ _ _ _ steps => exact steps.le.trans capped.steps

theorem Capped.book {limit bound : Int} {l : Loop} {call : Nat} {w : Waiting}
    (within : limit ≤ bound) (capped : Capped limit bound l)
    (found : l.waiting.get call = some w) (outcome : Except String ExecutionResult) (now : ℚ) :
    Capped limit bound (l.book call w outcome now).1 := by
  have ended := Loop.book_ended (l := l) (capped.opened call w found) call outcome now
  have kept := Loop.opened_erase capped.opened call
  suffices budget : (l.book call w outcome now).1.controller.budget.maxSteps = limit ∧
      (l.book call w outcome now).1.controller.budget.currentSteps ≤ bound from
    ⟨kept, budget.1, budget.2⟩
  generalize (l.book call w outcome now).1.controller = c at ended ⊢
  have limit := capped.limit
  cases ended with
  | booked _ _ _ _ _ booked budget =>
    have room := room_of_books booked
    simp only [budget, spent]
    omega
  | unbooked _ _ _ _ budget => exact budget ▸ ⟨capped.limit, capped.steps⟩

theorem Capped.step {limit bound : Int} {l t : Loop} {action : Action} (within : limit ≤ bound)
    (capped : Capped limit bound l) (kept : action ≠ .reset) (stepped : l.step action = some t) :
    Capped limit bound t := by
  cases Loop.step_stepped capped.opened stepped with
  | runIntent _ _ _ _ _ entered => exact capped.entered entered
  | runMultiStep _ _ _ _ entered => exact capped.entered entered
  | resume _ _ outcome now _ _ found entered =>
    exact (capped.book within found outcome now).entered entered
  | cancel call => exact ⟨Loop.opened_erase capped.opened call, capped.limit, capped.steps⟩
  | shutdown =>
    have same := shutdown_budget l.controller
    exact ⟨capped.opened, same ▸ capped.limit, same ▸ capped.steps⟩
  | reset => exact absurd rfl kept

structure Report (c : LoopController) (turns : Nat → Turn) (intents : List Intent)
    (c' : LoopController) (results : List LoopResult) : Prop where
  length : results.length ≤ intents.length
  each : ∀ k intent result, intents[k]? = some intent → results[k]? = some result →
    result = (runIntent (before c turns intents k) intent (turns k)).2
  successes : ∀ r ∈ results.dropLast, r.success = true
  early : results.length < intents.length →
    (∃ last, results.getLast? = some last ∧ last.success = false) ∨
      c'.budget.isExhausted (turns results.length).pass.checked = true
  count : (results.countP LoopResult.success : Int) ≤ stepsRemaining c.budget

theorem runMultiStep_report (c : LoopController) (turns : Nat → Turn) (intents : List Intent) :
    Report c turns intents (runMultiStep c turns intents).1 (runMultiStep c turns intents).2 := by
  have stops := runMultiStep_stops c turns intents
  exact ⟨stops.length_le, stops.each, stops.successes, stops.early, stops.count_le⟩

/-- A call that runs alone returns the report of its intents, and in no state of its run
are more steps spent than the limit or than were spent before. -/
theorem runMultiStep_alone (c : LoopController) (turns : Nat → Turn) (intents : List Intent)
    (call : Nat) :
    ∃ actions t results, (∀ action ∈ actions, Resumes call action) ∧
      Trace.run Loop.step { controller := c }
        (.runMultiStep call intents (turns 0).pass :: actions) = some t ∧
      t.returned = [(call, results)] ∧ Report c turns intents t.controller results ∧
      Trace.AllStates Loop.step (fun l => l.controller.budget.currentSteps ≤
        max c.budget.maxSteps c.budget.currentSteps) { controller := c }
        (.runMultiStep call intents (turns 0).pass :: actions) := by
  obtain ⟨actions, t, own, ran, controller, returned⟩ :=
    @nextStep_alone { controller := c } call (by simp) turns intents []
  refine ⟨actions, t, _, own, ran, returned, ?_, ?_⟩
  · rw [controller]
    exact runMultiStep_report c turns intents
  · have capped : Capped c.budget.maxSteps (max c.budget.maxSteps c.budget.currentSteps)
        { controller := c } := ⟨by simp [Loop.Opened], rfl, le_max_right _ _⟩
    have kept : ∀ action ∈ (.runMultiStep call intents (turns 0).pass :: actions : List Action),
        action ≠ .reset := by
      intro action member
      cases List.mem_cons.mp member with
      | inl first => simp [first]
      | inr later =>
        obtain ⟨outcome, now, pass, rfl⟩ := own action later
        simp
    have all := Trace.allStates_of_keeps (fun action member _ _ capped stepped =>
      Capped.step (le_max_left _ _) capped (kept action member) stepped) capped
    exact all.mono fun _ => Capped.steps

end Kitematic.MultiStep
