import Kitematic.Chain
import Kitematic.Lifecycle

/-! The phase that a failed execution failed in, against the reason its loop result names.
The loop knows the execution by its error text only, and looks for words in it that the
texts of the collaborators may hold or lack. -/

namespace Kitematic.FailurePhases
open Admission Chain Lifecycle Ownership PyText Resumption RuntimeAbi State

inductive Phase where
  | policy | capability | routing | gateway | tool | checkpoint
  deriving DecidableEq

/-- The reasons that name a phase. -/
def Phase.Names : Phase → LoopTermination → Prop
  | .policy, reason => reason = .policyDenied
  | .capability, reason => reason = .capabilityMissing ∨ reason = .capabilityDenied
  | .routing, reason => reason = .orchestrationFailed
  | .gateway, reason => reason = .gatewayFailed
  | .tool, reason => reason = .toolFailed
  | .checkpoint, reason => reason = .checkpointFailed

def phaseOf : CollaboratorCall → Reply → Phase
  | .evaluateIntent _, _ => .policy
  | .checkCapability _ _, _ => .capability
  | .routeIntent _, _ => .routing
  | .accessTool _ _, .toolResult _ => .tool
  | .accessTool _ _, _ => .gateway
  | .save _ _, _ => .checkpoint

/-- The error text of the result. -/
def failureText : CollaboratorCall → Reply → String
  | .evaluateIntent _, .raised e => "Policy evaluation error: " ++ e
  | .evaluateIntent _, .decision _ reason => orElse reason "Policy rejected intent"
  | .checkCapability _ _, .raised e => "Capability check error: " ++ e
  | .checkCapability action _, .decision _ reason =>
      orElse reason ("Capability not allowed for action: " ++ action)
  | .routeIntent _, .raised e => "Orchestration error: " ++ e
  | .accessTool _ _, .raised e => "Gateway access error: " ++ e
  | .accessTool _ _, .toolResult result => orElse result.error "Tool execution failed"
  | .save _ _, .raised e => "Checkpoint save error: " ++ e
  | _, _ => ""

def mentions (text word : String) : Bool := containsText (lower text) word

def Lacks (words : List String) (text : String) : Prop :=
  ∀ word ∈ words, mentions text word = false

/-- The text names its own phase, and no phase that is looked for before it. -/
def Speaks (own : String) (earlier : List String) (text : String) : Prop :=
  mentions text own = true ∧ Lacks earlier text

instance (words : List String) (text : String) : Decidable (Lacks words text) :=
  inferInstanceAs (Decidable (∀ word ∈ words, _))

instance (own : String) (earlier : List String) (text : String) :
    Decidable (Speaks own earlier text) :=
  inferInstanceAs (Decidable (_ ∧ _))

/-- The two texts that stand for a policy denial as a whole. -/
def Bare (text : String) : Prop := lower text = "denied" ∨ lower text = "rejected"

/-- What the collaborator's text must hold and lack for its phase to be named. -/
def Legible : CollaboratorCall → Reply → Prop
  | .evaluateIntent _, .decision _ reason =>
      mentions (orElse reason "Policy rejected intent") "policy" = true ∨
        Bare (orElse reason "Policy rejected intent")
  | .checkCapability action _, .decision _ reason =>
      Speaks "capability" ["policy"]
        (orElse reason ("Capability not allowed for action: " ++ action))
  | .checkCapability _ _, .raised e => Lacks ["policy"] e
  | .routeIntent _, .raised e => Lacks ["policy", "capability", "gateway"] e
  | .accessTool _ _, .raised e => Lacks ["policy", "capability"] e
  | .accessTool _ _, .toolResult result =>
      Speaks "tool" ["policy", "capability", "gateway", "orchestration", "checkpoint"]
        (orElse result.error "Tool execution failed")
  | .save _ _, .raised e => Lacks ["policy", "capability", "gateway", "orchestration"] e
  | _, _ => True

def keywords : List (String × Phase) :=
  [("policy", .policy), ("capability", .capability), ("gateway", .gateway),
    ("orchestration", .routing), ("checkpoint", .checkpoint), ("tool", .tool)]

def firstNamed (text : String) : Option Phase :=
  (keywords.find? fun keyword => mentions text keyword.1).map Prod.snd

section classify
variable {text own : String} {earlier rest : List (String × Phase)} {p : Phase}

theorem classify_policy_iff :
    classifyFailure text = .policyDenied ↔ mentions text "policy" = true ∨ Bare text := by
  unfold classifyFailure mentions Bare
  simp only
  split_ifs <;> simp_all

theorem names_iff_firstNamed (bare : ¬ Bare text) :
    p.Names (classifyFailure text) ↔ firstNamed text = some p := by
  unfold Bare at bare
  simp only [classifyFailure, firstNamed, keywords, List.find?_cons, mentions]
  split_ifs <;> cases p <;> simp_all [Phase.Names]

theorem firstNamed_eq_iff (order : keywords = earlier ++ (own, p) :: rest)
    (fresh : p ∉ (earlier ++ rest).map Prod.snd) :
    firstNamed text = some p ↔ Speaks own (earlier.map Prod.fst) text := by
  have other : ∀ found : List (String × Phase), found ⊆ earlier ++ rest →
      (found.find? fun keyword => mentions text keyword.1).map Prod.snd ≠ some p := by
    intro found within same
    obtain ⟨keyword, first, rfl⟩ := Option.map_eq_some_iff.mp same
    exact fresh (List.mem_map_of_mem (within (List.mem_of_find?_eq_some first)))
  rw [firstNamed, order, List.find?_append]
  cases before : earlier.find? fun keyword => mentions text keyword.1 with
  | some keyword =>
    have missed := other earlier (List.subset_append_left _ _)
    rw [before] at missed
    refine iff_of_false missed fun speaks => ?_
    have spoken := List.find?_some before
    have lacks := speaks.2 keyword.1 (List.mem_map_of_mem (List.mem_of_find?_eq_some before))
    exact Bool.false_ne_true (lacks.symm.trans spoken)
  | none =>
    have lacks : Lacks (earlier.map Prod.fst) text := by
      intro word member
      obtain ⟨keyword, inside, rfl⟩ := List.mem_map.mp member
      simpa using List.find?_eq_none.mp before keyword inside
    cases spoken : mentions text own with
    | true => simp [spoken, Speaks, lacks]
    | false =>
      have missed := other rest (List.subset_append_right _ _)
      simpa [spoken, Speaks] using missed

/-- Every reason but a policy denial asks for its own word and for none before it. -/
theorem names_iff_speaks (order : keywords = earlier ++ (own, p) :: rest)
    (fresh : p ∉ (earlier ++ rest).map Prod.snd) (named : p ≠ .policy)
    (long : containsText "denied" own = false ∧ containsText "rejected" own = false) :
    p.Names (classifyFailure text) ↔ Speaks own (earlier.map Prod.fst) text := by
  by_cases bare : Bare text
  · have denied := classify_policy_iff.mpr (.inr bare)
    refine iff_of_false ?_ fun speaks => ?_
    · rw [denied]
      cases p <;> simp [Phase.Names] at named ⊢
    · rcases bare with same | same
      · exact Bool.false_ne_true (long.1.symm.trans (same ▸ speaks.1))
      · exact Bool.false_ne_true (long.2.symm.trans (same ▸ speaks.1))
  · rw [names_iff_firstNamed bare, firstNamed_eq_iff order fresh]

end classify

def Wraps (pre : String) : Prop := (lower pre).toList.getLast? = some ' '

instance (pre : String) : Decidable (Wraps pre) := inferInstanceAs (Decidable (_ = _))

theorem mentions_wrapped {pre word : String} (wraps : Wraps pre) (single : ' ' ∉ word.toList)
    (e : String) : mentions (pre ++ e) word = (mentions pre word || mentions e word) := by
  rw [mentions, lower_append, containsText_append wraps single]
  rfl

theorem speaks_wrapped {pre own : String} {earlier : List String} (wraps : Wraps pre)
    (single : ∀ word ∈ own :: earlier, ' ' ∉ word.toList) (speaks : Speaks own earlier pre)
    (e : String) : Speaks own earlier (pre ++ e) ↔ Lacks earlier e := by
  have first := mentions_wrapped wraps (single own List.mem_cons_self) e
  simp only [Speaks, first, speaks.1, Bool.true_or, true_and]
  refine forall₂_congr fun word member => ?_
  rw [mentions_wrapped wraps (single word (List.mem_cons_of_mem own member)),
    speaks.2 word member, Bool.false_or]

theorem names_capability_iff (text : String) :
    Phase.capability.Names (classifyFailure text) ↔ Speaks "capability" ["policy"] text :=
  @names_iff_speaks text _ [("policy", .policy)] _ _ rfl (by decide) (by decide) (by decide)

theorem names_gateway_iff (text : String) :
    Phase.gateway.Names (classifyFailure text) ↔
      Speaks "gateway" ["policy", "capability"] text :=
  @names_iff_speaks text _ (keywords.take 2) _ _ rfl (by decide) (by decide) (by decide)

theorem names_routing_iff (text : String) :
    Phase.routing.Names (classifyFailure text) ↔
      Speaks "orchestration" ["policy", "capability", "gateway"] text :=
  @names_iff_speaks text _ (keywords.take 3) _ _ rfl (by decide) (by decide) (by decide)

theorem names_checkpoint_iff (text : String) :
    Phase.checkpoint.Names (classifyFailure text) ↔
      Speaks "checkpoint" ["policy", "capability", "gateway", "orchestration"] text :=
  @names_iff_speaks text _ (keywords.take 4) _ _ rfl (by decide) (by decide) (by decide)

theorem names_tool_iff (text : String) :
    Phase.tool.Names (classifyFailure text) ↔
      Speaks "tool" ["policy", "capability", "gateway", "orchestration", "checkpoint"] text :=
  @names_iff_speaks text _ (keywords.take 5) _ _ rfl (by decide) (by decide) (by decide)

theorem names_failureText_iff (k : Collaborators) (call : CollaboratorCall)
    (refused : grants (k.reply call) = false) :
    (phaseOf call (k.reply call)).Names (classifyFailure (failureText call (k.reply call))) ↔
      Legible call (k.reply call) := by
  cases call with
  | evaluateIntent intent =>
    cases came : k.evaluateIntent intent with
    | error e =>
      have own : mentions "Policy evaluation error: " "policy" = true := by decide
      have spoken : mentions ("Policy evaluation error: " ++ e) "policy" = true := by
        rw [mentions_wrapped (by decide) (by decide), own, Bool.true_or]
      simp only [Collaborators.reply, came]
      exact iff_of_true (classify_policy_iff.mpr (.inl spoken)) trivial
    | ok decision =>
      simp only [Collaborators.reply, came]
      exact classify_policy_iff
  | checkCapability action agentId =>
    cases came : k.checkCapability action agentId with
    | error e =>
      simp only [Collaborators.reply, came]
      exact (names_capability_iff ("Capability check error: " ++ e)).trans
        (speaks_wrapped (by decide) (by decide) (by decide) e)
    | ok decision =>
      simp only [Collaborators.reply, came]
      exact names_capability_iff _
  | routeIntent intent =>
    cases came : k.routeIntent intent with
    | error e =>
      simp only [Collaborators.reply, came]
      exact (names_routing_iff ("Orchestration error: " ++ e)).trans
        (speaks_wrapped (by decide) (by decide) (by decide) e)
    | ok path => simp [Collaborators.reply, came, grants] at refused
  | accessTool path intent =>
    cases came : k.accessTool path intent with
    | error e =>
      simp only [Collaborators.reply, came]
      exact (names_gateway_iff ("Gateway access error: " ++ e)).trans
        (speaks_wrapped (by decide) (by decide) (by decide) e)
    | ok result =>
      simp only [Collaborators.reply, came]
      exact names_tool_iff _
  | save executionId state =>
    cases came : k.save executionId state with
    | error e =>
      simp only [Collaborators.reply, came]
      exact (names_checkpoint_iff ("Checkpoint save error: " ++ e)).trans
        (speaks_wrapped (by decide) (by decide) (by decide) e)
    | ok checkpointId => simp [Collaborators.reply, came, grants] at refused

section runs
variable {rt : KitematicRuntime} {frame : Frame} {reply : Reply} {result : ExecutionResult}

theorem advance_not_returned (rt : KitematicRuntime) (frame : Frame) (target : ExecutionState)
    (phase : TracePhase) (call : CollaboratorCall) (result : ExecutionResult) :
    (rt.advance frame target phase call).outcome ≠ .returned result := by
  unfold KitematicRuntime.advance
  cases transition frame.state target with
  | ok state => simp
  | error pair => simp

theorem resumeGuarded_text (consistent : Consistent frame) {now : ℚ} {segment : Segment Progress}
    (stepped : rt.resumeGuarded frame reply now = some segment)
    (returned : segment.outcome = .returned result) (failed : result.success = false) :
    result.error = some (failureText frame.awaiting reply) := by
  unfold KitematicRuntime.resumeGuarded at stepped
  split at stepped
  case h_1 allowed reason pending =>
    cases stepped
    cases allowed with
    | true => exact (advance_not_returned rt frame _ _ _ _ returned).elim
    | false =>
      cases returned
      rw [pending]
      rfl
  case h_2 pending =>
    cases stepped
    cases returned
    rw [pending]
    rfl
  case h_3 action agentId allowed reason pending =>
    cases stepped
    cases allowed with
    | true => exact (advance_not_returned rt frame _ _ _ _ returned).elim
    | false =>
      have own := consistent.call
      rw [pending] at own ⊢
      cases returned
      rw [← own.1]
      rfl
  case h_4 pending =>
    cases stepped
    cases returned
    rw [pending]
    rfl
  case h_5 =>
    cases stepped
    cases returned
  case h_6 pending =>
    cases stepped
    cases returned
    rw [pending]
    rfl
  case h_7 toolResult pending =>
    cases stepped
    simp only [KitematicRuntime.afterAccessTool] at returned
    split at returned
    · cases returned
      rw [pending]
      rfl
    · exact (advance_not_returned rt frame _ _ _ _ returned).elim
  case h_8 pending =>
    cases stepped
    cases returned
    rw [pending]
    rfl
  case h_9 pending =>
    cases stepped
    simp only [KitematicRuntime.afterSave] at returned
    split at returned
    · cases returned
    · cases returned
      cases failed
  case h_10 pending =>
    cases stepped
    cases returned
    rw [pending]
    rfl
  case h_11 => cases stepped

theorem resume_text (consistent : Consistent frame) {now : ℚ} {segment : Segment Progress}
    (stepped : rt.resume frame reply now = some segment)
    (returned : segment.outcome = .returned result) (failed : result.success = false) :
    result.error = some (failureText frame.awaiting reply) := by
  obtain ⟨guarded, inner, rfl⟩ := Option.map_eq_some_iff.mp stepped
  refine resumeGuarded_text consistent inner ?_ failed
  cases ended : guarded.outcome with
  | returned _ => simpa only [ended] using returned
  | suspended _ => simp only [ended] at returned; cases returned
  | raised _ => simp only [ended] at returned; cases returned

structure FailsIn (k : Collaborators) (made : List CollaboratorCall) (result : ExecutionResult)
    (call : CollaboratorCall) : Prop where
  last : made.getLast? = some call
  refused : grants (k.reply call) = false
  text : result.error = some (failureText call (k.reply call))

theorem continueCall_fails (k : Collaborators)
    (between : Nat → KitematicRuntime → KitematicRuntime) (clock : Nat → ℚ) (awaits : Nat)
    (rt : KitematicRuntime) (frame : Frame) (consistent : Consistent frame)
    {effects : List Effect}
    (ran : continueCall k between clock awaits rt frame = some (effects, .ok result))
    (failed : result.success = false) :
    ∃ call, FailsIn k (frame.awaiting :: calls effects) result call := by
  induction awaits generalizing rt frame effects with
  | zero => cases ran
  | succ awaits ih =>
    obtain ⟨segment, resumed⟩ := resume_isSome k (between awaits rt) frame (clock awaits)
    have outcome := KitematicRuntime.resume_resumed consistent resumed
    have text : ∀ result, segment.outcome = .returned result → result.success = false →
        result.error = some (failureText frame.awaiting (k.reply frame.awaiting)) :=
      fun _ => resume_text consistent resumed
    simp only [continueCall, resumed, Option.bind_some] at ran
    generalize reply : k.reply frame.awaiting = answer at outcome text
    cases outcome with
    | advanced next granted same kept order carries quiet path =>
      obtain ⟨⟨rest, ending⟩, later, both⟩ := Option.map_eq_some_iff.mp ran
      cases both
      obtain ⟨call, last, refused, said⟩ := ih (between awaits rt) next kept later
      refine ⟨call, ?_, refused, said⟩
      simpa [calls_quiet quiet, callOf] using last
    | completed pending quiet path =>
      cases ran
      cases failed
    | failed refused ended quiet path =>
      cases ran
      refine ⟨frame.awaiting, ?_, reply ▸ refused, reply ▸ text _ rfl failed⟩
      simp [calls_quiet quiet]

theorem execute_fails (k : Collaborators) (between : Nat → KitematicRuntime → KitematicRuntime)
    (clock : Nat → ℚ) (rt : KitematicRuntime) (intent : Intent) (id : String) (now : ℚ)
    {effects : List Effect}
    (ran : execute k between clock rt intent id now = some (effects, .ok result))
    (failed : result.success = false) :
    calls effects = [] ∨ ∃ call, FailsIn k (calls effects) result call := by
  cases passed : admitted rt now with
  | false =>
    obtain ⟨effects', ending, same, none⟩ :=
      execute_of_refused k between clock rt intent id now passed
    cases ran.symm.trans same
    exact .inl none
  | true =>
    have opening := rt.executeIntent_opening intent id now
    simp only [admitted, decide_eq_true_eq] at passed
    obtain ⟨entered, quota, state⟩ := passed
    simp only [execute] at ran
    generalize rt.executeIntent intent id now = segment at opening ran
    cases opening with
    | tenantRefused gate => simp [gate] at entered
    | quotaRefused _ gate => simp [gate] at quota
    | shutdownRefused _ _ leaving => exact absurd state leaving
    | @admitted before _ _ _ quiet path =>
      obtain ⟨⟨rest, ending⟩, later, both⟩ := Option.map_eq_some_iff.mp ran
      cases both
      obtain ⟨call, last, refused, text⟩ := continueCall_fails k between clock 5 _
        (rt.firstFrame intent id now) (Interleaving.Pool.firstFrame_consistent rt intent id now)
        later failed
      refine .inr ⟨call, ?_, refused, text⟩
      have first : (rt.firstFrame intent id now).awaiting = .evaluateIntent intent := rfl
      rw [first] at last
      simpa [calls_quiet rt.isolationSlot_quiet, calls_quiet (rt.quotaSlot_quiet id),
        calls_quiet quiet, callOf] using last

end runs

/-- The reason of the loop result names the phase that failed. -/
def NamesPhase (k : Collaborators) (effects : List Effect) (reason : LoopTermination) : Prop :=
  ∀ call, (calls effects).getLast? = some call → (phaseOf call (k.reply call)).Names reason

/-- The call that failed left a legible text. -/
def LegibleEnd (k : Collaborators) (effects : List Effect) : Prop :=
  ∀ call, (calls effects).getLast? = some call → Legible call (k.reply call)

theorem exception_unnamed (p : Phase) : ¬ p.Names .exception := by
  cases p <;> simp [Phase.Names]

/-- An admitted execution that fails has its phase named by the loop exactly when its step
can still be spent and the text of the phase is legible. -/
theorem namesPhase_iff (k : Collaborators) (between : Nat → KitematicRuntime → KitematicRuntime)
    (clock : Nat → ℚ) (rt : KitematicRuntime) (intent : Intent) (id : String) (now : ℚ)
    {effects : List Effect} {result : ExecutionResult}
    (ran : execute k between clock rt intent id now = some (effects, .ok result))
    (failed : result.success = false) (c : LoopController) (run : LoopRun) (ended : ℚ) :
    NamesPhase k effects (c.finishRun run (.ok result) ended).2.2.terminationReason ↔
      (calls effects ≠ [] → c.budget.isExhausted ended = false) ∧ LegibleEnd k effects := by
  rcases execute_fails k between clock rt intent id now ran failed with none | ⟨call, fails⟩
  · simp [NamesPhase, LegibleEnd, none]
  · have some : calls effects ≠ [] := by
      intro none
      have last := fails.last
      rw [none] at last
      cases last
    simp only [NamesPhase, LegibleEnd, fails.last, Option.some.injEq, forall_eq', ne_eq, some,
      not_false_eq_true, forall_const]
    cases exhausted : c.budget.isExhausted ended with
    | true =>
      simp only [LoopController.finishRun, ExecutionBudget.consumeStep, exhausted, if_true]
      simp [LoopController.haltRun, LoopController.haltedResult, exception_unnamed]
    | false =>
      simp only [LoopController.finishRun, ExecutionBudget.consumeStep, exhausted,
        Bool.false_eq_true, if_false, LoopController.terminationOf, failed, fails.text,
        Option.getD_some, true_and]
      exact names_failureText_iff k call fails.refused

def denies (reason : String) : Collaborators :=
  { grantAll with evaluateIntent := fun _ => .ok (false, some reason) }

def denied (reason : String) : Option (List Effect × Ending) :=
  execute (denies reason) (fun _ rt => rt) (fun _ => 0) {} ⟨"agent", "db.delete", []⟩ "e1" 0

def reported (result : ExecutionResult) : LoopTermination :=
  (LoopController.finishRun { budget := {} } ⟨"loop-1", { executionId := "loop-1" }⟩
    (.ok result) 0).2.2.terminationReason

theorem namesPhase_iff_denied : ∃ effects result,
    denied "Denied by policy" = some (effects, .ok result) ∧ result.success = false ∧
      (NamesPhase (denies "Denied by policy") effects (reported result) ↔
        (calls effects ≠ [] → ExecutionBudget.isExhausted {} 0 = false) ∧
          LegibleEnd (denies "Denied by policy") effects) :=
  ⟨_, _, rfl, rfl, namesPhase_iff (denies "Denied by policy") (fun _ rt => rt) (fun _ => 0) {}
    ⟨"agent", "db.delete", []⟩ "e1" 0 rfl rfl { budget := {} }
    ⟨"loop-1", { executionId := "loop-1" }⟩ 0⟩

/-- The reason that the policy adapter gives for a matched rule. -/
theorem matched_rule_unnamed : ∃ effects result,
    denied "[p1] Matched rule: no deletes" = some (effects, .ok result) ∧
      result.success = false ∧
      ¬ NamesPhase (denies "[p1] Matched rule: no deletes") effects (reported result) := by
  refine ⟨_, _, rfl, rfl, fun names => ?_⟩
  have policy := names (.evaluateIntent ⟨"agent", "db.delete", []⟩) rfl
  change _ = LoopTermination.policyDenied at policy
  revert policy
  decide +kernel

end Kitematic.FailurePhases
