import Kitematic.Ownership

/-! One `execute_intent` call driven to its end by collaborators that may answer
anything. The call makes its five collaborator calls in the order of the chain,
each after the one before it granted, and the result says how far it came. -/

namespace Kitematic.Chain
open Admission Ownership Resumption RuntimeAbi State

inductive CallName where
  | evaluateIntent | checkCapability | routeIntent | accessTool | save
  deriving DecidableEq

def callName : CollaboratorCall → CallName
  | .evaluateIntent _ => .evaluateIntent
  | .checkCapability _ _ => .checkCapability
  | .routeIntent _ => .routeIntent
  | .accessTool _ _ => .accessTool
  | .save _ _ => .save

def chain : List CallName := [.evaluateIntent, .checkCapability, .routeIntent, .accessTool, .save]

/-- What each awaited call comes back with. A call is made at most once, so a
function of its arguments is any behaviour at all. -/
structure Collaborators where
  evaluateIntent : Intent → Except String (Bool × Option String)
  checkCapability : String → String → Except String (Bool × Option String)
  routeIntent : Intent → Except String ExecutionPath
  accessTool : ExecutionPath → Intent → Except String ToolResult
  save : String → CheckpointState → Except String String

def Collaborators.reply (c : Collaborators) : CollaboratorCall → Reply
  | .evaluateIntent intent =>
      match c.evaluateIntent intent with
      | .ok (allowed, reason) => .decision allowed reason
      | .error e => .raised e
  | .checkCapability action agentId =>
      match c.checkCapability action agentId with
      | .ok (allowed, reason) => .decision allowed reason
      | .error e => .raised e
  | .routeIntent intent =>
      match c.routeIntent intent with
      | .ok path => .path path
      | .error e => .raised e
  | .accessTool path intent =>
      match c.accessTool path intent with
      | .ok result => .toolResult result
      | .error e => .raised e
  | .save executionId state =>
      match c.save executionId state with
      | .ok checkpointId => .checkpointId checkpointId
      | .error e => .raised e

abbrev Ending := Except EscapedError ExecutionResult

/-- The rest of a suspended call. `between` is what other calls do to the runtime
during an await, and `clock` the time of each resumption. -/
def continueCall (c : Collaborators) (between : Nat → KitematicRuntime → KitematicRuntime)
    (clock : Nat → ℚ) : Nat → KitematicRuntime → Frame → Option (List Effect × Ending)
  | 0, _, _ => none
  | awaits + 1, rt, frame =>
      ((between awaits rt).resume frame (c.reply frame.awaiting) (clock awaits)).bind fun segment =>
        match segment.outcome with
        | .returned result => some (segment.effects, .ok result)
        | .raised e => some (segment.effects, .error e)
        | .suspended next =>
            (continueCall c between clock awaits segment.runtime next).map fun rest =>
              (segment.effects ++ rest.1, rest.2)

/-- A whole call; the chain has five awaits. -/
def execute (c : Collaborators) (between : Nat → KitematicRuntime → KitematicRuntime)
    (clock : Nat → ℚ) (rt : KitematicRuntime) (intent : Intent) (id : String) (now : ℚ) :
    Option (List Effect × Ending) :=
  let segment := rt.executeIntent intent id now
  match segment.outcome with
  | .returned result => some (segment.effects, .ok result)
  | .raised e => some (segment.effects, .error e)
  | .suspended frame =>
      (continueCall c between clock 5 segment.runtime frame).map fun rest =>
        (segment.effects ++ rest.1, rest.2)

def callOf : Effect → Option CollaboratorCall
  | .call call => some call
  | _ => none

def calls (effects : List Effect) : List CollaboratorCall := effects.filterMap callOf

@[simp] theorem calls_append (first second : List Effect) :
    calls (first ++ second) = calls first ++ calls second :=
  List.filterMap_append

@[simp] theorem calls_nil : calls [] = [] := rfl

@[simp] theorem calls_cons (e : Effect) (effects : List Effect) :
    calls (e :: effects) = (callOf e).toList ++ calls effects := by
  cases same : callOf e <;> simp [calls, same]

theorem calls_quiet {ctx : Option Tenant.TenantContext} {effects : List Effect}
    (quiet : Quiet ctx effects) : calls effects = [] := by
  refine List.filterMap_eq_nil_iff.mpr fun e member => ?_
  have none := (quiet e member).1
  cases e with
  | call call => exact absurd trivial none
  | _ => rfl

theorem chain_drop (call : CollaboratorCall) :
    chain.drop (rank call) = callName call :: chain.drop (rank call + 1) := by
  cases call <;> rfl

theorem rank_le (call : CollaboratorCall) : rank call ≤ 4 := by
  cases call <;> simp [rank]

theorem resume_isSome (c : Collaborators) (rt : KitematicRuntime) (frame : Frame) (now : ℚ) :
    ∃ segment, rt.resume frame (c.reply frame.awaiting) now = some segment := by
  simp only [KitematicRuntime.resume, Option.map_eq_some_iff]
  suffices fits : ∃ segment, rt.resumeGuarded frame (c.reply frame.awaiting) now = some segment by
    obtain ⟨segment, resumed⟩ := fits
    exact ⟨_, segment, resumed, rfl⟩
  unfold KitematicRuntime.resumeGuarded
  cases frame.awaiting with
  | evaluateIntent intent => cases h : c.evaluateIntent intent <;> simp [Collaborators.reply, h]
  | checkCapability action agentId =>
    cases h : c.checkCapability action agentId <;> simp [Collaborators.reply, h]
  | routeIntent intent => cases h : c.routeIntent intent <;> simp [Collaborators.reply, h]
  | accessTool path intent => cases h : c.accessTool path intent <;> simp [Collaborators.reply, h]
  | save executionId state => cases h : c.save executionId state <;> simp [Collaborators.reply, h]

theorem reply_eq_checkpointId {c : Collaborators} {executionId checkpointId : String}
    {state : CheckpointState} : c.reply (.save executionId state) = .checkpointId checkpointId ↔
      c.save executionId state = .ok checkpointId := by
  cases h : c.save executionId state <;> simp [Collaborators.reply, h]

theorem reply_eq_toolResult {c : Collaborators} {path : ExecutionPath} {intent : Intent}
    {result : ToolResult} : c.reply (.accessTool path intent) = .toolResult result ↔
      c.accessTool path intent = .ok result := by
  cases h : c.accessTool path intent <;> simp [Collaborators.reply, h]

theorem reply_save_granted {c : Collaborators} {executionId checkpointId : String}
    {state : CheckpointState} (saved : c.save executionId state = .ok checkpointId) :
    grants (c.reply (.save executionId state)) = true := by
  rw [reply_eq_checkpointId.mpr saved]
  rfl

inductive Continued (c : Collaborators) : Frame → List Effect → ExecutionResult → Prop where
  | advanced {frame : Frame} {before rest : List Effect} {result : ExecutionResult} (next : Frame)
      (consistent : Consistent frame) (kept : Consistent next) (same : SameCall frame next)
      (granted : grants (c.reply frame.awaiting) = true)
      (order : rank next.awaiting = rank frame.awaiting + 1)
      (carries : Carries (c.reply frame.awaiting) next.awaiting)
      (quiet : Quiet frame.tenantCtx before)
      (path : IsPath frame.state (moves before) next.state) (later : Continued c next rest result) :
      Continued c frame (before ++ [.call next.awaiting] ++ rest) result
  | completed {frame : Frame} {executionId checkpointId : String} {state : CheckpointState}
      {effects : List Effect} (pending : frame.awaiting = .save executionId state)
      (saved : c.save executionId state = .ok checkpointId)
      (quiet : Quiet frame.tenantCtx effects)
      (path : IsPath frame.state (moves effects) .completed) :
      Continued c frame effects
        ⟨true, frame.executionId, some checkpointId, state.toolResult, none, .completed⟩
  | failed {frame : Frame} {result : ExecutionResult} {effects : List Effect}
      (consistent : Consistent frame) (refused : grants (c.reply frame.awaiting) = false)
      (failed : Failed frame result) (quiet : Quiet frame.tenantCtx effects)
      (path : IsPath frame.state (moves effects) result.state) : Continued c frame effects result

theorem continueCall_continued (c : Collaborators)
    (between : Nat → KitematicRuntime → KitematicRuntime) (clock : Nat → ℚ) (awaits : Nat)
    (rt : KitematicRuntime) (frame : Frame) (consistent : Consistent frame)
    (enough : 5 ≤ rank frame.awaiting + awaits) :
    ∃ effects result, continueCall c between clock awaits rt frame = some (effects, .ok result) ∧
      Continued c frame effects result := by
  induction awaits generalizing rt frame with
  | zero =>
    have bound := rank_le frame.awaiting
    omega
  | succ awaits ih =>
    obtain ⟨segment, resumed⟩ :=
      resume_isSome c (between awaits rt) frame (clock awaits)
    have outcome := KitematicRuntime.resume_resumed consistent resumed
    simp only [continueCall, resumed, Option.bind_some]
    generalize reply : c.reply frame.awaiting = answer at outcome
    cases outcome with
    | advanced next granted same kept order carries quiet path =>
      obtain ⟨rest, result, ran, later⟩ := ih (between awaits rt) next kept (by omega)
      simp only [ran, Option.map_some]
      exact ⟨_, result, rfl, .advanced next consistent kept same (reply ▸ granted) order
        (reply ▸ carries) quiet path later⟩
    | completed pending quiet path =>
      rw [pending] at reply
      exact ⟨_, _, rfl, .completed pending (reply_eq_checkpointId.mp reply) quiet path⟩
    | failed refused failed quiet path =>
      exact ⟨_, _, rfl, .failed consistent (reply ▸ refused) failed quiet path⟩

/-- What the calls made, the first one included, say about the result. -/
inductive EndsWith (c : Collaborators) (made : List CollaboratorCall) (result : ExecutionResult) :
    Prop where
  | completed (executionId checkpointId : String) (state : CheckpointState)
      (called : .save executionId state ∈ made)
      (saved : c.save executionId state = .ok checkpointId)
      (ends : result =
        ⟨true, result.executionId, some checkpointId, state.toolResult, none, .completed⟩)
  | failed (unsaved : ∀ executionId state checkpointId, .save executionId state ∈ made →
        c.save executionId state ≠ .ok checkpointId)
      (success : result.success = false) (checkpointId : result.checkpointId = none)
      (state : result.state = .failed ∨ result.state = .halted)

/-- The rest of a call that awaits its answer: `made` starts with that await. -/
structure Continues (c : Collaborators) (frame : Frame) (effects : List Effect)
    (result : ExecutionResult) : Prop where
  order : (calls effects).map callName <+: chain.drop (rank frame.awaiting + 1)
  granted : ∀ call ∈ (frame.awaiting :: calls effects).dropLast, grants (c.reply call) = true
  path : IsPath frame.state (moves effects) result.state
  ends : EndsWith c (frame.awaiting :: calls effects) result
  tool : ∀ executionId state, .save executionId state ∈ calls effects →
    ∃ path intent toolResult, .accessTool path intent ∈ frame.awaiting :: calls effects ∧
      c.accessTool path intent = .ok toolResult ∧ state.toolResult = toolResult.data

theorem continues_ended {c : Collaborators} {frame : Frame} {effects : List Effect}
    {result : ExecutionResult} (quiet : Quiet frame.tenantCtx effects)
    (path : IsPath frame.state (moves effects) result.state)
    (ends : EndsWith c [frame.awaiting] result) : Continues c frame effects result := by
  have none := calls_quiet quiet
  refine ⟨?_, ?_, path, ?_, ?_⟩ <;> rw [none]
  · exact List.nil_prefix
  · simp
  · exact ends
  · simp

theorem continues_advanced {c : Collaborators} {frame next : Frame} {before rest : List Effect}
    {result : ExecutionResult} (granted : grants (c.reply frame.awaiting) = true)
    (order : rank next.awaiting = rank frame.awaiting + 1)
    (carries : Carries (c.reply frame.awaiting) next.awaiting)
    (quiet : Quiet frame.tenantCtx before) (path : IsPath frame.state (moves before) next.state)
    (later : Continues c next rest result) :
    Continues c frame (before ++ [.call next.awaiting] ++ rest) result := by
  have made : calls (before ++ [.call next.awaiting] ++ rest) = next.awaiting :: calls rest := by
    simp [calls_quiet quiet, callOf]
  have notSave : ∀ executionId state, frame.awaiting ≠ .save executionId state := by
    intro executionId state same
    have bound := rank_le next.awaiting
    have last : rank frame.awaiting = 4 := by rw [same]; rfl
    omega
  refine ⟨?_, ?_, ?_, ?_, ?_⟩
  · rw [made, List.map_cons, ← order, chain_drop]
    exact (List.prefix_cons_inj _).mpr later.order
  · rw [made, List.dropLast_cons_of_ne_nil (List.cons_ne_nil _ _)]
    exact List.forall_mem_cons.mpr ⟨granted, later.granted⟩
  · have moved : moves (before ++ [.call next.awaiting] ++ rest) = moves before ++ moves rest := by
      simp [moveOf]
    rw [moved]
    exact path.append later.path
  · rw [made]
    cases later.ends with
    | completed executionId checkpointId state called saved ends =>
      exact .completed executionId checkpointId state (List.mem_cons_of_mem _ called) saved ends
    | failed unsaved success checkpointId state =>
      refine .failed (fun executionId saved checkpointId member => ?_) success checkpointId state
      cases List.mem_cons.mp member with
      | inl same => exact absurd same.symm (notSave executionId saved)
      | inr inside => exact unsaved executionId saved checkpointId inside
  · rw [made]
    intro executionId state member
    cases List.mem_cons.mp member with
    | inl same =>
      obtain ⟨toolResult, replied, data⟩ := carries.data executionId state same.symm
      cases pending : frame.awaiting with
      | accessTool path intent =>
        rw [pending] at replied
        exact ⟨path, intent, toolResult, List.mem_cons_self, reply_eq_toolResult.mp replied, data⟩
      | _ =>
        rw [pending, ← same] at order
        simp [rank] at order
    | inr inside =>
      obtain ⟨path, intent, toolResult, called, succeeded, data⟩ :=
        later.tool executionId state inside
      exact ⟨path, intent, toolResult, List.mem_cons_of_mem _ called, succeeded, data⟩

theorem Continued.continues {c : Collaborators} {frame : Frame} {effects : List Effect}
    {result : ExecutionResult} (continued : Continued c frame effects result) :
    Continues c frame effects result := by
  induction continued with
  | advanced next consistent kept same granted order carries quiet path later ih =>
    exact continues_advanced granted order carries quiet path ih
  | completed pending saved quiet path =>
    refine continues_ended quiet path ?_
    exact .completed _ _ _ (by simp [pending]) saved rfl
  | failed consistent refused failed quiet path =>
    refine continues_ended quiet path (.failed ?_ failed.1 failed.2.2.1 failed.2.2.2)
    intro executionId state checkpointId member saved
    rw [← List.mem_singleton.mp member, reply_save_granted saved] at refused
    cases refused

/-- What the result of a call says about the collaborators, and they about it. -/
structure Governed (c : Collaborators) (effects : List Effect) (result : ExecutionResult) :
    Prop where
  order : (calls effects).map callName <+: chain
  granted : ∀ call ∈ (calls effects).dropLast, grants (c.reply call) = true
  path : IsPath .created (moves effects) result.state
  success_iff_completed : result.success = true ↔ result.state = .completed
  success_iff_saved : result.success = true ↔ ∃ executionId state checkpointId,
    .save executionId state ∈ calls effects ∧ c.save executionId state = .ok checkpointId
  saved : result.success = true → ∃ executionId state checkpointId path intent toolResult,
    .save executionId state ∈ calls effects ∧ c.save executionId state = .ok checkpointId ∧
      result.checkpointId = some checkpointId ∧ .accessTool path intent ∈ calls effects ∧
        c.accessTool path intent = .ok toolResult ∧ result.data = toolResult.data
  failed : result.success = false →
    (result.state = .failed ∨ result.state = .halted) ∧ result.checkpointId = none

theorem execute_of_admitted (c : Collaborators)
    (between : Nat → KitematicRuntime → KitematicRuntime) (clock : Nat → ℚ)
    (rt : KitematicRuntime) (intent : Intent) (id : String) (now : ℚ)
    (passed : admitted rt now = true) :
    ∃ before rest result,
      execute c between clock rt intent id now = some (before ++ rest, .ok result) ∧
        calls before = [.evaluateIntent intent] ∧ moves before = [(.created, .validating)] ∧
          Continued c (rt.firstFrame intent id now) rest result := by
  have opening := rt.executeIntent_opening intent id now
  simp only [admitted, decide_eq_true_eq] at passed
  obtain ⟨entered, quota, state⟩ := passed
  simp only [execute]
  generalize rt.executeIntent intent id now = segment at opening
  cases opening with
  | tenantRefused gate => simp [gate] at entered
  | quotaRefused _ gate => simp [gate] at quota
  | shutdownRefused _ _ leaving => exact absurd state leaving
  | @admitted before _ _ _ quiet path =>
    have consistent := Interleaving.Pool.firstFrame_consistent rt intent id now
    obtain ⟨rest, result, ran, continued⟩ := continueCall_continued c between clock 5
      (rt.takeIsolation.takeQuota id now) (rt.firstFrame intent id now) consistent
      (by simp [rank, KitematicRuntime.firstFrame])
    simp only [ran, Option.map_some]
    refine ⟨_, rest, result, rfl, ?_, ?_, continued⟩
    · simp [calls_quiet rt.isolationSlot_quiet, calls_quiet (rt.quotaSlot_quiet id),
        calls_quiet quiet, callOf]
    · simp [moveOf, path]

theorem execute_of_refused (c : Collaborators)
    (between : Nat → KitematicRuntime → KitematicRuntime) (clock : Nat → ℚ)
    (rt : KitematicRuntime) (intent : Intent) (id : String) (now : ℚ)
    (refused : admitted rt now = false) :
    ∃ effects ending, execute c between clock rt intent id now = some (effects, ending) ∧
      calls effects = [] := by
  have opening := rt.executeIntent_opening intent id now
  have ends : ∀ p : Progress, p.isSuspended = false → ∀ rt' effects,
      rt.executeIntent intent id now = ⟨rt', effects, p⟩ →
        ∃ ending, execute c between clock rt intent id now = some (effects, ending) := by
    intro p ended rt' effects opened
    cases p with
    | suspended frame => cases ended
    | returned result => exact ⟨.ok result, by simp [execute, opened]⟩
    | raised e => exact ⟨.error e, by simp [execute, opened]⟩
  have isolation := calls_quiet rt.isolationSlot_quiet
  have quotaSlot := calls_quiet (rt.quotaSlot_quiet id)
  generalize opened : rt.executeIntent intent id now = segment at opening
  cases opening with
  | tenantRefused gate turnedAway =>
    obtain ⟨ending, ran⟩ := ends _ turnedAway.isSuspended _ _ opened
    exact ⟨_, ending, ran, calls_nil⟩
  | quotaRefused entered gate turnedAway keeps silent =>
    obtain ⟨ending, ran⟩ := ends _ turnedAway.isSuspended _ _ opened
    exact ⟨_, ending, ran, by simp [isolation, calls_quiet (silent.quiet none)]⟩
  | shutdownRefused entered quota leaving quiet silent =>
    obtain ⟨ending, ran⟩ := ends _ rfl _ _ opened
    exact ⟨_, ending, ran, by simp [isolation, quotaSlot, calls_quiet quiet]⟩
  | admitted entered quota running => simp [admitted, entered, quota, running] at refused

theorem Continues.governed {c : Collaborators} {intent : Intent} {frame : Frame}
    {before rest : List Effect} {result : ExecutionResult} (later : Continues c frame rest result)
    (first : frame.awaiting = .evaluateIntent intent) (state : frame.state = .validating)
    (made : calls before = [.evaluateIntent intent])
    (moved : moves before = [(.created, .validating)]) : Governed c (before ++ rest) result := by
  have all : calls (before ++ rest) = frame.awaiting :: calls rest := by
    rw [calls_append, made, first]
    rfl
  refine ⟨?_, ?_, ?_, ?_, ?_, ?_, ?_⟩
  · rw [all, first]
    have order := later.order
    rw [first] at order
    exact (List.prefix_cons_inj _).mpr order
  · rw [all]
    exact later.granted
  · rw [moves_append, moved]
    exact ⟨rfl, by decide, state ▸ later.path⟩
  · cases later.ends with
    | completed _ _ _ _ _ ends => rw [ends]; simp
    | failed _ success _ ended => rcases ended with ended | ended <;> simp [success, ended]
  · rw [all]
    cases later.ends with
    | completed executionId checkpointId state called saved ends =>
      exact iff_of_true (by rw [ends]) ⟨executionId, state, checkpointId, called, saved⟩
    | failed unsaved success =>
      refine iff_of_false (by simp [success]) ?_
      rintro ⟨executionId, state, checkpointId, called, saved⟩
      exact unsaved executionId state checkpointId called saved
  · intro success
    rw [all]
    cases later.ends with
    | completed executionId checkpointId state called saved ends =>
      have inside : .save executionId state ∈ calls rest := by simpa [first] using called
      obtain ⟨path, toolIntent, toolResult, accessed, succeeded, data⟩ :=
        later.tool executionId state inside
      refine ⟨executionId, state, checkpointId, path, toolIntent, toolResult, called, saved, ?_,
        accessed, succeeded, ?_⟩
      · rw [ends]
      · rw [ends]
        exact data
    | failed _ failed => simp [failed] at success
  · intro failure
    cases later.ends with
    | completed _ _ _ _ _ ends => rw [ends] at failure; cases failure
    | failed _ _ checkpointId state => exact ⟨state, checkpointId⟩

theorem execute_admitted (c : Collaborators) (between : Nat → KitematicRuntime → KitematicRuntime)
    (clock : Nat → ℚ) (rt : KitematicRuntime) (intent : Intent) (id : String) (now : ℚ)
    (passed : admitted rt now = true) :
    ∃ effects result, execute c between clock rt intent id now = some (effects, .ok result) ∧
      Governed c effects result := by
  obtain ⟨before, rest, result, ran, made, moved, continued⟩ :=
    execute_of_admitted c between clock rt intent id now passed
  exact ⟨before ++ rest, result, ran, continued.continues.governed rfl rfl made moved⟩

/-- On a running runtime without boundary and quota manager every call returns, and
its result is governed. -/
theorem execute_governed (c : Collaborators) (between : Nat → KitematicRuntime → KitematicRuntime)
    (clock : Nat → ℚ) (rt : KitematicRuntime) (intent : Intent) (id : String) (now : ℚ)
    (noIsolation : rt.isolation = none) (noQuota : rt.quotaManager = none)
    (running : rt.state = .running) :
    ∃ effects result, execute c between clock rt intent id now = some (effects, .ok result) ∧
      Governed c effects result := by
  refine execute_admitted c between clock rt intent id now ?_
  simp [admitted, KitematicRuntime.passesTenantGate, KitematicRuntime.passesQuotaGate, noIsolation,
    noQuota, running]

def grantAll : Collaborators where
  evaluateIntent _ := .ok (true, none)
  checkCapability _ _ := .ok (true, none)
  routeIntent intent := .ok ⟨intent.action, "", intent.parameters⟩
  accessTool _ _ := .ok ⟨true, [("status", .str "done")], none⟩
  save executionId _ := .ok ("cp-" ++ executionId)

theorem execute_governed_grantAll :
    ∃ effects result, execute grantAll (fun _ rt => rt) (fun _ => 0) {}
        ⟨"agent", "tool.read", []⟩ "e1" 0 = some (effects, .ok result) ∧
      Governed grantAll effects result :=
  execute_governed grantAll (fun _ rt => rt) (fun _ => 0) {} ⟨"agent", "tool.read", []⟩ "e1" 0 rfl
    rfl rfl

end Kitematic.Chain
