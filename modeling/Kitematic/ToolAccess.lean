import Kitematic.Chain

/-! The one `access_tool` call an execution can make. Whether it is made and with
which path is decided by the two policy answers and the router alone. -/

namespace Kitematic.Chain
open Admission Ownership Resumption RuntimeAbi

def accessOf : CollaboratorCall → Option (ExecutionPath × Intent)
  | .accessTool path intent => some (path, intent)
  | _ => none

def accesses (effects : List Effect) : List (ExecutionPath × Intent) :=
  (calls effects).filterMap accessOf

/-- The path a call that waits for an answer will reach the gateway with. -/
def pathFrom (c : Collaborators) (intent : Intent) : CollaboratorCall → Option ExecutionPath
  | .evaluateIntent _ =>
      if grants (c.reply (.evaluateIntent intent)) &&
          grants (c.reply (.checkCapability intent.action intent.agentId)) then
        (c.routeIntent intent).toOption
      else none
  | .checkCapability _ _ =>
      if grants (c.reply (.checkCapability intent.action intent.agentId)) then
        (c.routeIntent intent).toOption
      else none
  | .routeIntent _ => (c.routeIntent intent).toOption
  | .accessTool _ _ => none
  | .save _ _ => none

/-- The path of a whole call: it passes the checks of the runtime, both policy
answers grant and the router answers. -/
def reached (c : Collaborators) (rt : KitematicRuntime) (intent : Intent) (now : ℚ) :
    Option ExecutionPath :=
  if admitted rt now then pathFrom c intent (.evaluateIntent intent) else none

@[simp] theorem accesses_append (first second : List Effect) :
    accesses (first ++ second) = accesses first ++ accesses second := by
  simp [accesses]

theorem accesses_quiet {ctx : Option Tenant.TenantContext} {effects : List Effect}
    (quiet : Quiet ctx effects) : accesses effects = [] := by
  simp [accesses, calls_quiet quiet]

@[simp] theorem accesses_call (call : CollaboratorCall) (effects : List Effect) :
    accesses (.call call :: effects) = (accessOf call).toList ++ accesses effects := by
  cases call <;> simp [accesses, callOf, accessOf, List.filterMap_cons]

theorem grants_evaluateIntent {c : Collaborators} {intent : Intent} :
    grants (c.reply (.evaluateIntent intent)) = true ↔
      ∃ reason, c.evaluateIntent intent = .ok (true, reason) := by
  cases answer : c.evaluateIntent intent with
  | error e => simp [Collaborators.reply, answer, grants]
  | ok decision => cases decision; simp [Collaborators.reply, answer, grants]

theorem grants_checkCapability {c : Collaborators} {action agentId : String} :
    grants (c.reply (.checkCapability action agentId)) = true ↔
      ∃ reason, c.checkCapability action agentId = .ok (true, reason) := by
  cases answer : c.checkCapability action agentId with
  | error e => simp [Collaborators.reply, answer, grants]
  | ok decision => cases decision; simp [Collaborators.reply, answer, grants]

theorem routeIntent_of_reply {c : Collaborators} {intent : Intent} {path : ExecutionPath}
    (replied : c.reply (.routeIntent intent) = .path path) : c.routeIntent intent = .ok path := by
  cases answer : c.routeIntent intent with
  | error e => simp [Collaborators.reply, answer] at replied
  | ok routed =>
    simp only [Collaborators.reply, answer, Reply.path.injEq] at replied
    rw [replied]

theorem reached_eq_some {c : Collaborators} {rt : KitematicRuntime} {intent : Intent} {now : ℚ}
    {path : ExecutionPath} : reached c rt intent now = some path ↔
      admitted rt now = true ∧ (∃ reason, c.evaluateIntent intent = .ok (true, reason)) ∧
        (∃ reason, c.checkCapability intent.action intent.agentId = .ok (true, reason)) ∧
          c.routeIntent intent = .ok path := by
  rw [← grants_evaluateIntent, ← grants_checkCapability]
  have routed : (c.routeIntent intent).toOption = some path ↔ c.routeIntent intent = .ok path := by
    cases c.routeIntent intent <;> simp [Except.toOption]
  simp only [reached, pathFrom]
  split <;> simp_all [and_assoc]

theorem pathFrom_refused {c : Collaborators} {frame : Frame} (consistent : Consistent frame)
    (refused : grants (c.reply frame.awaiting) = false) :
    pathFrom c frame.intent frame.awaiting = none := by
  have own := consistent.call
  cases pending : frame.awaiting with
  | evaluateIntent intent =>
    rw [pending] at own refused
    obtain rfl : intent = frame.intent := own
    simp [pathFrom, refused]
  | checkCapability action agentId =>
    rw [pending] at own refused
    obtain ⟨rfl, rfl⟩ : action = frame.intent.action ∧ agentId = frame.intent.agentId := own
    simp [pathFrom, refused]
  | routeIntent intent =>
    rw [pending] at own refused
    obtain rfl : intent = frame.intent := own
    cases answer : c.routeIntent frame.intent with
    | error e => simp [pathFrom, answer, Except.toOption]
    | ok path => simp [Collaborators.reply, answer, grants] at refused
  | accessTool path intent => rfl
  | save executionId state => rfl

/-- A granted await either has the access as its next call or leaves the path as
it was. -/
theorem pathFrom_advanced {c : Collaborators} {frame next : Frame} (consistent : Consistent frame)
    (kept : Consistent next) (same : SameCall frame next)
    (granted : grants (c.reply frame.awaiting) = true)
    (order : rank next.awaiting = rank frame.awaiting + 1)
    (carries : Carries (c.reply frame.awaiting) next.awaiting) :
    (pathFrom c frame.intent frame.awaiting).toList.map (·, frame.intent) =
      (accessOf next.awaiting).toList ++
        (pathFrom c next.intent next.awaiting).toList.map (·, next.intent) := by
  have own := consistent.call
  have nextOwn := kept.call
  have intents := same.intent
  cases pending : frame.awaiting <;> cases following : next.awaiting <;>
    rw [pending, following] at order <;> simp only [rank] at order <;> try omega
  case evaluateIntent.checkCapability intent action agentId =>
    rw [pending] at own granted
    obtain rfl : intent = frame.intent := own
    simp [pathFrom, accessOf, granted, intents]
  case checkCapability.routeIntent action agentId intent =>
    rw [pending] at own granted
    obtain ⟨rfl, rfl⟩ : action = frame.intent.action ∧ agentId = frame.intent.agentId := own
    simp [pathFrom, accessOf, granted, intents]
  case routeIntent.accessTool intent path routedIntent =>
    rw [pending] at own
    rw [following] at nextOwn
    obtain rfl : intent = frame.intent := own
    obtain rfl : routedIntent = next.intent := nextOwn
    have replied := carries.path path next.intent following
    rw [pending] at replied
    simp [pathFrom, accessOf, routeIntent_of_reply replied, Except.toOption, intents]
  case accessTool.save => rfl

theorem Continued.accesses {c : Collaborators} {frame : Frame} {effects : List Effect}
    {result : ExecutionResult} (continued : Continued c frame effects result) :
    accesses effects = (pathFrom c frame.intent frame.awaiting).toList.map (·, frame.intent) := by
  induction continued with
  | advanced next consistent kept same granted order carries quiet path later ih =>
    rw [pathFrom_advanced consistent kept same granted order carries]
    simp [accesses_quiet quiet, ih]
  | completed pending saved quiet path =>
    rw [accesses_quiet quiet, pending]
    rfl
  | failed consistent refused failed quiet path =>
    rw [accesses_quiet quiet, pathFrom_refused consistent refused]
    rfl

/-- Every call ends, and it has accessed the gateway with exactly the reached path. -/
theorem execute_accesses (c : Collaborators) (between : Nat → KitematicRuntime → KitematicRuntime)
    (clock : Nat → ℚ) (rt : KitematicRuntime) (intent : Intent) (id : String) (now : ℚ) :
    ∃ effects ending, execute c between clock rt intent id now = some (effects, ending) ∧
      accesses effects = (reached c rt intent now).toList.map (·, intent) := by
  cases passed : admitted rt now with
  | false =>
    obtain ⟨effects, ending, ran, none⟩ := execute_of_refused c between clock rt intent id now passed
    exact ⟨effects, ending, ran, by simp [accesses, none, reached, passed]⟩
  | true =>
    obtain ⟨before, rest, result, ran, made, _, continued⟩ :=
      execute_of_admitted c between clock rt intent id now passed
    refine ⟨before ++ rest, .ok result, ran, ?_⟩
    have first : accesses before = [] := by rw [accesses, made]; rfl
    rw [accesses_append, first, continued.accesses, reached, if_pos passed]
    rfl

end Kitematic.Chain
