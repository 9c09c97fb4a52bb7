import Mathlib.Data.List.Basic

/-! The lifecycle states of the runtime and of one execution, with the table of
valid execution transitions. -/

namespace Kitematic.State

inductive RuntimeState where
  | running | draining | stopped
  deriving DecidableEq, Repr

inductive ExecutionState where
  | created | validating | authorized | executing | checkpointing | completed | failed | halted
  deriving DecidableEq, Repr

def ExecutionState.value : ExecutionState → String
  | .created => "CREATED"
  | .validating => "VALIDATING"
  | .authorized => "AUTHORIZED"
  | .executing => "EXECUTING"
  | .checkpointing => "CHECKPOINTING"
  | .completed => "COMPLETED"
  | .failed => "FAILED"
  | .halted => "HALTED"

/-- The table `VALID_TRANSITIONS`. -/
def getValidTransitions : ExecutionState → List ExecutionState
  | .created => [.validating]
  | .validating => [.authorized, .failed, .halted]
  | .authorized => [.executing, .failed, .halted]
  | .executing => [.checkpointing, .failed, .halted]
  | .checkpointing => [.completed, .halted]
  | .completed => []
  | .failed => []
  | .halted => []

def isValidTransition (current target : ExecutionState) : Bool :=
  target ∈ getValidTransitions current

/-- `_transition`: the target, or the pair an `InvalidStateTransitionError` names. -/
def transition (current target : ExecutionState) :
    Except (ExecutionState × ExecutionState) ExecutionState :=
  if isValidTransition current target then .ok target else .error (current, target)

/-- `_transition_safe`: the target, else `HALTED`, else the current state. -/
def transitionSafe (current target : ExecutionState) : ExecutionState :=
  if isValidTransition current target then target
  else if current ≠ .halted && isValidTransition current .halted then .halted
  else current

theorem transition_of_valid {current target : ExecutionState}
    (valid : isValidTransition current target = true) : transition current target = .ok target :=
  if_pos valid

theorem transitionSafe_of_valid {current target : ExecutionState}
    (valid : isValidTransition current target = true) : transitionSafe current target = target :=
  if_pos valid

/-- The pairs form a path of valid transitions from the first state to the last. -/
def IsPath : ExecutionState → List (ExecutionState × ExecutionState) → ExecutionState → Prop
  | s, [], t => s = t
  | s, (current, target) :: rest, t =>
      s = current ∧ isValidTransition current target = true ∧ IsPath target rest t

theorem IsPath.append {s t u : ExecutionState}
    {first second : List (ExecutionState × ExecutionState)} (left : IsPath s first t)
    (right : IsPath t second u) : IsPath s (first ++ second) u := by
  induction first generalizing s with
  | nil => exact left ▸ right
  | cons move rest ih => exact ⟨left.1, left.2.1, ih left.2.2⟩

end Kitematic.State
