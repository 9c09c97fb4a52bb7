import Kitematic.Lifecycle
import Kitematic.Trace

/-! What a budget holds to over any calls. The limits are tested before the amounts of a
step are added, so the steps stay within their limit and the tokens pass theirs by at
most what the last step brought. -/

namespace Kitematic.BudgetLimits
open Lifecycle

inductive Call where
  | start (now : ℚ)
  | consumeStep (tokens : Int) (now : ℚ)
  | reset

/-- The method with what it leaves of the object when it raises. -/
def consumeStep (b : ExecutionBudget) (tokens : Int) (now : ℚ) :
    ExecutionBudget × Except String Unit :=
  if b.isExhausted now then (b, .error b.exhaustedMessage)
  else
    let b := { b with currentSteps := b.currentSteps + 1 }
    let b := { b with tokensConsumed := b.tokensConsumed + tokens }
    (b, .ok ())

theorem consumeStep_eq (b : ExecutionBudget) (tokens : Int) (now : ℚ) :
    consumeStep b tokens now =
      match b.consumeStep now tokens with
      | .error text => (b, .error text)
      | .ok b => (b, .ok ()) := by
  unfold consumeStep ExecutionBudget.consumeStep
  split <;> rfl

/-- A budget with the tokens of the steps consumed since its last reset, newest first. -/
structure Ledger where
  budget : ExecutionBudget
  consumed : List Int := []

def handle (l : Ledger) : Call → Ledger × Except String Unit
  | .start now => ({ l with budget := l.budget.start now }, .ok ())
  | .consumeStep tokens now =>
      match consumeStep l.budget tokens now with
      | (budget, .error text) => ({ l with budget }, .error text)
      | (budget, .ok ()) => (⟨budget, tokens :: l.consumed⟩, .ok ())
  | .reset => (⟨l.budget.reset, []⟩, .ok ())

/-- Token counts are not negative. -/
def step (l : Ledger) : Call → Option Ledger
  | .consumeStep tokens now =>
      if 0 ≤ tokens then some (handle l (.consumeStep tokens now)).1 else none
  | call => some (handle l call).1

def fresh (maxSteps maxTokens timeoutSeconds : Int) : Ledger where
  budget := { maxSteps, maxTokens, timeoutSeconds }

theorem consumeStep_ok {b b' : ExecutionBudget} {tokens : Int} {now : ℚ}
    (passed : consumeStep b tokens now = (b', .ok ())) :
    b.currentSteps < b.maxSteps ∧ b.tokensConsumed < b.maxTokens ∧
      b' = { b with
        currentSteps := b.currentSteps + 1
        tokensConsumed := b.tokensConsumed + tokens } := by
  unfold consumeStep at passed
  split at passed
  · cases passed
  next left =>
    cases passed
    simp only [ExecutionBudget.isExhausted, ExecutionBudget.isStepsExhausted,
      ExecutionBudget.isTokensExhausted, Bool.or_eq_true, decide_eq_true_eq, not_or,
      not_le] at left
    exact ⟨left.1.1, left.1.2, rfl⟩

theorem consumeStep_error {b b' : ExecutionBudget} {tokens : Int} {now : ℚ} {text : String}
    (raised : consumeStep b tokens now = (b', .error text)) : b' = b := by
  unfold consumeStep at raised
  split at raised
  · cases raised
    rfl
  · cases raised

/-- The steps are within their limit, and so are the tokens of all steps but the last. -/
structure Limited (maxSteps maxTokens : Int) (l : Ledger) : Prop where
  stepLimit : l.budget.maxSteps = maxSteps
  tokenLimit : l.budget.maxTokens = maxTokens
  counted : l.budget.currentSteps = l.consumed.length
  summed : l.budget.tokensConsumed = l.consumed.sum
  steps : 0 ≤ l.budget.currentSteps ∧ l.budget.currentSteps ≤ maxSteps
  tokens : l.budget.tokensConsumed ≤ maxTokens ∨
    ∃ last earlier, l.consumed = last :: earlier ∧ earlier.sum < maxTokens

theorem start_same (b : ExecutionBudget) (now : ℚ) :
    b.start now = { b with startedAt := (b.start now).startedAt } := by
  unfold ExecutionBudget.start
  split <;> rfl

theorem step_limited {maxSteps maxTokens : Int} {l l' : Ledger} {call : Call}
    (positive : 0 ≤ maxTokens) (limited : Limited maxSteps maxTokens l)
    (stepped : step l call = some l') : Limited maxSteps maxTokens l' := by
  cases call with
  | start now =>
    cases stepped
    simp only [handle]
    rw [start_same]
    exact ⟨limited.stepLimit, limited.tokenLimit, limited.counted, limited.summed, limited.steps,
      limited.tokens⟩
  | reset =>
    cases stepped
    have none : 0 ≤ maxSteps := limited.steps.1.trans limited.steps.2
    exact ⟨limited.stepLimit, limited.tokenLimit, rfl, rfl, ⟨le_rfl, none⟩, .inl positive⟩
  | consumeStep tokens now =>
    simp only [step, handle, Option.ite_none_right_eq_some, Option.some.injEq] at stepped
    obtain ⟨_, rfl⟩ := stepped
    split
    next b text raised => rwa [consumeStep_error raised]
    next b passed =>
      obtain ⟨room, unspent, rfl⟩ := consumeStep_ok passed
      obtain ⟨stepLimit, tokenLimit, counted, summed, steps, _⟩ := limited
      refine ⟨stepLimit, tokenLimit, ?_, ?_, ?_, ?_⟩
      · simp [counted]
      · simp [summed, add_comm]
      · simp only
        omega
      · refine .inr ⟨tokens, l.consumed, rfl, ?_⟩
        omega

/-- A call that raises leaves every field of the budget as it was. -/
def RaisesUnchanged (_ : List Call) (l : Ledger) (call : Call) : Prop :=
  ∀ text, (handle l call).2 = .error text → (handle l call).1.budget = l.budget

theorem raisesUnchanged (past : List Call) (l : Ledger) (call : Call) :
    RaisesUnchanged past l call := by
  intro text raised
  cases call with
  | start now => cases raised
  | reset => cases raised
  | consumeStep tokens now =>
    simp only [handle] at raised ⊢
    split at raised
    next failed => exact consumeStep_error failed
    next => cases raised

theorem limits_kept {maxSteps maxTokens : Int} (room : 0 ≤ maxSteps) (positive : 0 ≤ maxTokens)
    (timeoutSeconds : Int) (calls : List Call) :
    Trace.AllStates step (Limited maxSteps maxTokens)
        (fresh maxSteps maxTokens timeoutSeconds) calls ∧
      Trace.EachStep step RaisesUnchanged [] (fresh maxSteps maxTokens timeoutSeconds) calls := by
  have start : Limited maxSteps maxTokens (fresh maxSteps maxTokens timeoutSeconds) :=
    ⟨rfl, rfl, rfl, rfl, ⟨le_rfl, room⟩, .inl positive⟩
  refine ⟨?_, Trace.eachStep_of_forall fun call _ past l => raisesUnchanged past l call⟩
  exact Trace.allStates_of_keeps
    (fun _ _ _ _ limited stepped => step_limited positive limited stepped) start

/-- Two steps of 600 tokens pass a budget of 1000, and a third is refused. -/
theorem limits_kept_twice :
    Trace.AllStates step (Limited 5 1000) (fresh 5 1000 3600)
        [.start 0, .consumeStep 600 1, .consumeStep 600 2, .consumeStep 600 3] ∧
      Trace.EachStep step RaisesUnchanged [] (fresh 5 1000 3600)
        [.start 0, .consumeStep 600 1, .consumeStep 600 2, .consumeStep 600 3] :=
  limits_kept (by decide) (by decide) 3600 _

/-- One step may bring more tokens than the limit. -/
theorem tokens_overspent :
    ¬ Trace.AllStates step (fun l => 0 ≤ l.budget.currentSteps ∧
        l.budget.currentSteps ≤ l.budget.maxSteps ∧
        l.budget.tokensConsumed ≤ l.budget.maxTokens)
      (fresh 5 1000 3600) [.consumeStep 1001 0] := by
  intro all
  have within := (all.2 _ rfl).2.2
  revert within
  decide +kernel

end Kitematic.BudgetLimits
