import Kitematic.AuditTrail
import Kitematic.Interleaving

/-! The runtime with a logger. A call that enters the chain logs its start and, when it
returns, its end, on a logger that names the execution; all of them write to one stream,
with whatever else writes there. Read back as text, the stream tells what the calls
returned. -/

namespace Kitematic.RuntimeLog
open AuditTrail Checkpoints Dictionary Interleaving IsoDate Json LogLines PyText Resumption
open RuntimeAbi State Trace

def obsContext (frame : Frame) : Dict String Value :=
  .ofList [("execution_id", .str frame.executionId),
    ("tenant_id", .str (quotaTenant frame.tenantCtx)),
    ("agent_id", .str frame.intent.agentId), ("intent_action", .str frame.intent.action)]

/-- What a segment reads of the clock for its log lines: the time the formatter writes, and the
float that `round(elapsed, 2)` gives. -/
structure Clock where
  stamp : DateTime := epoch
  durationMs : ℚ := 0
  isFloat : IsBinary64 durationMs := by
    exact ⟨0, 0, by norm_num, by norm_num, by norm_num, by norm_num⟩

structure Note where
  level : Level
  message : String
  kwargs : Dict String Value := .empty

def Note.call (note : Note) (logger : RuntimeLogger) (frame : Frame) (clock : Clock) : Call where
  logger := logger.withCorrelation (obsContext frame)
  level := note.level
  message := note.message
  kwargs := note.kwargs
  now := clock.stamp

def started : Note := ⟨.info, "Execution started", .empty⟩

/-- What `_execute_quota_guarded` logs after an await; a reply that lets the chain go on is not
logged. -/
def closing (frame : Frame) (reply : Reply) (clock : Clock) : Option Note :=
  match frame.awaiting, reply with
  | .evaluateIntent _, .raised e =>
      some ⟨.error, "Policy evaluation error", .ofList [("error", .str e)]⟩
  | .evaluateIntent _, .decision false reason =>
      some ⟨.warning, "Policy rejected", .ofList [("reason", optional reason)]⟩
  | .checkCapability _ _, .raised e =>
      some ⟨.error, "Capability check error", .ofList [("error", .str e)]⟩
  | .checkCapability _ _, .decision false reason =>
      some ⟨.warning, "Capability denied",
        .ofList [("reason", optional reason), ("action", .str frame.intent.action)]⟩
  | .routeIntent _, .raised e => some ⟨.error, "Orchestration error", .ofList [("error", .str e)]⟩
  | .accessTool path _, .raised e =>
      some ⟨.error, "Gateway access failed", .ofList [("tool", .str path.tool), ("error", .str e)]⟩
  | .accessTool _ _, .toolResult result =>
      if result.success then none
      else some ⟨.error, "Tool execution failed", .ofList [("error", optional result.error)]⟩
  | .save _ _, .raised e => some ⟨.error, "Checkpoint save failed", .ofList [("error", .str e)]⟩
  | .save _ _, .checkpointId checkpointId =>
      match transition frame.state .completed with
      | .ok _ =>
          some ⟨.info, "Execution completed",
            .ofList [("checkpoint_id", .str checkpointId),
              ("duration_ms", .float clock.durationMs)]⟩
      | .error _ => none
  | _, _ => none

def rejected (rt : KitematicRuntime) (executionId : String) (now : ℚ) : Option Note :=
  let entered := rt.tenantGate executionId
  match entered.outcome, (entered.runtime.quotaGate rt.tenantContext executionId now).outcome,
    rt.state with
  | .ok _, .ok _, .draining => some ⟨.warning, "Execution rejected — runtime draining", .empty⟩
  | .ok _, .ok _, .stopped => some ⟨.warning, "Execution rejected — runtime stopped", .empty⟩
  | _, _, _ => none

def controlled (rt : KitematicRuntime) : Control → Option Note
  | .drain =>
      if rt.state = .running then
        some ⟨.info, "Runtime draining — new executions rejected", .empty⟩
      else none
  | .stop => if rt.state = .stopped then none else some ⟨.info, "Runtime stopped", .empty⟩
  | _ => none

def Note.plain (note : Note) (logger : RuntimeLogger) (clock : Clock) : Call :=
  ⟨logger, note.level, note.message, note.kwargs, clock.stamp⟩

structure Ending where
  success : Bool
  checkpointId : Option String
  error : Option String
  state : ExecutionState
  deriving DecidableEq

def Ending.of (result : ExecutionResult) : Ending :=
  ⟨result.success, result.checkpointId, result.error, result.state⟩

/-- The start of an execution or, with its ending, its end. -/
structure Told where
  executionId : String
  tenantId : String
  agentId : String
  action : String
  ending : Option Ending := none
  deriving DecidableEq

def told (frame : Frame) (ending : Option Ending) : Told where
  executionId := frame.executionId
  tenantId := quotaTenant frame.tenantCtx
  agentId := frame.intent.agentId
  action := frame.intent.action
  ending := ending

/-- `history` is what happened to the calls in the chain, and `calls` is what was logged. -/
structure Journal where
  pool : Pool
  calls : List Call := []
  history : List Told := []
  cancelled : List String := []

inductive Action where
  | event (e : Event) (clock : Clock)
  | other (call : Call)

namespace Journal

def start (rt : KitematicRuntime) : Journal := { pool := Pool.start rt }

def text (j : Journal) : List Char := stream (j.calls.filterMap Call.line)

def step (logger : RuntimeLogger) (j : Journal) : Action → Option Journal
  | .event (.executeIntent intent id now) clock =>
      (j.pool.executeIntent intent id now).map fun (pool, progress) =>
        { j with
          pool := pool
          calls := j.calls ++ (rejected j.pool.runtime id now).toList.map (·.plain logger clock) ++
            (frameOf progress).toList.map fun frame => started.call logger frame clock
          history := j.history ++ (frameOf progress).toList.map fun frame => told frame none }
  | .event (.resume id reply now) clock =>
      (j.pool.inFlight.get id).bind fun frame =>
        (j.pool.resume id reply now).map fun (pool, progress) =>
          { j with
            pool := pool
            calls := j.calls ++ (closing frame reply clock).toList.map (·.call logger frame clock)
            history := j.history ++
              match progress with
              | .returned result => [told frame (some (.of result))]
              | _ => [] }
  | .event (.cancel id) _ =>
      (j.pool.cancel id).map fun pool => { j with pool := pool, cancelled := id :: j.cancelled }
  | .event (.control control) clock =>
      some { j with
        pool := { j.pool with runtime := control.apply j.pool.runtime }
        calls := j.calls ++
          (controlled j.pool.runtime control).toList.map (·.plain logger clock) }
  | .other call => some { j with calls := j.calls ++ [call] }

end Journal

/-! Reading the stream back. -/

def optional? : Value → Option (Option String)
  | .none => some none
  | .str s => some (some s)
  | _ => none

def raisedAs (pre : String) (state : ExecutionState) (metric : String → Option Value) :
    Option Ending :=
  ((metric "error").bind text?).map fun e => ⟨false, none, some (pre ++ e), state⟩

def refusedAs (key default : String) (metric : String → Option Value) : Option Ending :=
  ((metric key).bind optional?).map fun reason =>
    ⟨false, none, some (orElse reason default), .failed⟩

/-- How the messages of ends are read, given the action of the execution. -/
def endings (action : String) : List (String × ((String → Option Value) → Option Ending)) :=
  [("Policy evaluation error", raisedAs "Policy evaluation error: " .halted),
    ("Policy rejected", refusedAs "reason" "Policy rejected intent"),
    ("Capability check error", raisedAs "Capability check error: " .failed),
    ("Capability denied", refusedAs "reason" ("Capability not allowed for action: " ++ action)),
    ("Orchestration error", raisedAs "Orchestration error: " .halted),
    ("Gateway access failed", raisedAs "Gateway access error: " .failed),
    ("Tool execution failed", refusedAs "error" "Tool execution failed"),
    ("Checkpoint save failed", raisedAs "Checkpoint save error: " .halted),
    ("Execution completed", fun metric =>
      ((metric "checkpoint_id").bind text?).map fun checkpointId =>
        ⟨true, some checkpointId, none, .completed⟩)]

def readEnding (action message : String) (metric : String → Option Value) : Option Ending :=
  ((endings action).lookup message).bind fun reads => reads metric

/-- The start or the end that a line tells of. -/
def readTold (line : Option Value) : Option Told := do
  let fields ← line.bind dict?
  let message ← (fields.lookup "message").bind text?
  let executionId ← (fields.lookup "execution_id").bind text?
  let tenantId ← (fields.lookup "tenant_id").bind text?
  let agentId ← (fields.lookup "agent_id").bind text?
  let action ← (fields.lookup "intent_action").bind text?
  if message = started.message then return ⟨executionId, tenantId, agentId, action, none⟩
  else
    let metrics ← (fields.lookup "metrics").bind dict?
    let ending ← readEnding action message fun key => metrics.lookup key
    return ⟨executionId, tenantId, agentId, action, some ending⟩

def readHistory (stream : List Char) : List Told := (readLines stream).filterMap readTold

/-! One line. -/

def Scalar (v : Value) : Prop := Native v ∧ canonical v = v

theorem scalar_str (s : String) : Scalar (.str s) := ⟨trivial, rfl⟩

theorem scalar_optional (s : Option String) : Scalar (optional s) := by
  cases s <;> exact ⟨trivial, rfl⟩

theorem Clock.scalar (clock : Clock) : Scalar (.float clock.durationMs) := ⟨clock.isFloat, rfl⟩

structure Note.Proper (note : Note) : Prop where
  named : RuntimeLogger.arguments note.kwargs = some (.empty, note.kwargs)
  scalar : ∀ k v, note.kwargs.get k = some v → Scalar v

/-- The names that `_log` takes for itself. -/
def reservedNames : List String := ["self", "message", "level", "correlation"]

theorem arguments_unreserved {kwargs : Dict String Value}
    (free : ∀ name ∈ reservedNames, kwargs.get name = none) :
    RuntimeLogger.arguments kwargs = some (.empty, kwargs) := by
  have absent : ∀ name ∈ reservedNames, name ∉ kwargs.keys := fun name member =>
    Dict.get_eq_none.mp (free name member)
  have fine : ¬ ("self" ∈ kwargs.keys ∨ "message" ∈ kwargs.keys ∨ "level" ∈ kwargs.keys) := by
    rintro (used | used | used)
    · exact absent "self" (by decide) used
    · exact absent "message" (by decide) used
    · exact absent "level" (by decide) used
  rw [RuntimeLogger.arguments, if_neg fine, free "correlation" (by decide)]

theorem proper_ofList {level : Level} {message : String} {fields : Payload}
    (distinct : (fields.map Prod.fst).Nodup) (scalar : ∀ e ∈ fields, Scalar e.2)
    (free : ∀ e ∈ fields, e.1 ∉ reservedNames) : Note.Proper ⟨level, message, .ofList fields⟩ := by
  have held : ∀ k v, (Dict.ofList fields).get k = some v → (k, v) ∈ fields := fun k v found =>
    Dict.ofList_entries distinct ▸ Dict.get_eq_some.mp found
  refine ⟨arguments_unreserved fun name member => ?_, fun k v found => scalar _ (held k v found)⟩
  cases found : (Dict.ofList fields).get name with
  | none => rfl
  | some v => exact absurd member (free _ (held name v found))

theorem started_proper : started.Proper := ⟨rfl, fun _ _ found => nomatch found⟩

theorem proper_single {level : Level} {message key : String} {v : Value} (scalar : Scalar v)
    (free : key ∉ reservedNames) : Note.Proper ⟨level, message, .ofList [(key, v)]⟩ :=
  proper_ofList (by simp) (by simpa using scalar) (by simpa using free)

theorem proper_pair {level : Level} {message key key' : String} {v v' : Value} (scalar : Scalar v)
    (scalar' : Scalar v') (distinct : key ≠ key') (free : key ∉ reservedNames)
    (free' : key' ∉ reservedNames) :
    Note.Proper ⟨level, message, .ofList [(key, v), (key', v')]⟩ :=
  proper_ofList (by simpa using distinct) (by simpa using ⟨scalar, scalar'⟩)
    (by simpa using ⟨free, free'⟩)

theorem closing_proper {frame : Frame} {reply : Reply} {clock : Clock} {note : Note}
    (logged : closing frame reply clock = some note) : note.Proper := by
  unfold closing at logged
  split at logged
  · cases logged
    exact proper_single (scalar_str _) (by decide)
  · cases logged
    exact proper_single (scalar_optional _) (by decide)
  · cases logged
    exact proper_single (scalar_str _) (by decide)
  · cases logged
    exact proper_pair (scalar_optional _) (scalar_str _) (by decide) (by decide) (by decide)
  · cases logged
    exact proper_single (scalar_str _) (by decide)
  · cases logged
    exact proper_pair (scalar_str _) (scalar_str _) (by decide) (by decide) (by decide)
  · split at logged <;> cases logged
    exact proper_single (scalar_optional _) (by decide)
  · cases logged
    exact proper_single (scalar_str _) (by decide)
  · split at logged <;> cases logged
    exact proper_pair (scalar_str _) clock.scalar (by decide) (by decide) (by decide)
  · cases logged

theorem line_of_named {call : Call}
    (named : RuntimeLogger.arguments call.kwargs = some (.empty, call.kwargs)) :
    call.line = some ⟨call.logger.log call.level call.message .empty call.kwargs, call.now⟩ := by
  rw [Call.line, RuntimeLogger.emit, named]
  rfl

section field
variable {logger : RuntimeLogger} {frame : Frame} {level : Level} {message : String}
  {extra : Dict String Value} {now : DateTime}

theorem field_message (unnamed : logger.baseCorrelation.get "message" = none) :
    (logger.log level message .empty extra).field now "message" = some (.str message) := by
  have correlated : (logger.baseCorrelation.update .empty).get "message" = none := by
    rw [Dict.get_update, unnamed]
    rfl
  rw [LogRecord.field, RuntimeLogger.log]
  simp only [correlated]
  rfl

theorem field_metrics (filled : extra.entries ≠ []) :
    (logger.log level message .empty extra).field now "metrics" = some (.dict extra.entries) := by
  simp [LogRecord.field, LogRecord.own, RuntimeLogger.log, filled, Option.filter_some]

/-- The names of the execution are the correlation's, whatever the logger had before. -/
theorem field_obsContext {key : String} {v : Value} (known : (obsContext frame).get key = some v)
    (unwritten : key ∉ ["metrics", "exception"]) :
    ((logger.withCorrelation (obsContext frame)).log level message .empty extra).field now key =
      some v := by
  simp only [List.mem_cons, List.not_mem_nil, or_false, not_or] at unwritten
  have correlated :
      ((logger.withCorrelation (obsContext frame)).baseCorrelation.update .empty).get key =
        some v := by
    rw [Dict.get_update, Dict.get_empty, Option.none_or, RuntimeLogger.withCorrelation,
      Dict.get_update, known, Option.some_or]
  rw [LogRecord.field, LogRecord.own, if_neg unwritten.1, if_neg unwritten.2, RuntimeLogger.log]
  simp only [correlated]
  rfl

theorem unnamed_obsContext (unnamed : logger.baseCorrelation.get "message" = none) :
    (logger.withCorrelation (obsContext frame)).baseCorrelation.get "message" = none := by
  rw [RuntimeLogger.withCorrelation, Dict.get_update, unnamed]
  rfl

end field

theorem expressible_obsContext (frame : Frame) : Expressible (obsContext frame) :=
  expressible_ofList ⟨by simp, native_str _, native_str _, native_str _, native_str _, trivial⟩

def tellsOf (call : Call) : Option Told :=
  call.line.bind fun line => readTold (read (JSONLogFormatter.format line.record line.now))

theorem readHistory_stream (calls : List Call) :
    readHistory (stream (calls.filterMap Call.line)) = calls.filterMap tellsOf := by
  rw [readHistory, readLines_stream, List.filterMap_map, List.filterMap_filterMap]
  rfl

theorem readEnding_filled {action message : String} {kwargs : Dict String Value} {ending : Ending}
    (reads : readEnding action message kwargs.get = some ending) :
    message ≠ started.message ∧ kwargs.entries ≠ [] := by
  obtain ⟨reader, found, read⟩ := Option.bind_eq_some_iff.mp reads
  refine ⟨?_, fun bare => ?_⟩
  · rintro rfl
    cases found
  · have distinct : ((endings action).map Prod.fst).Nodup := by simp [endings]
    have nothing : ∀ e ∈ endings action, e.2 (fun _ => none) = none := by
      simp [endings, raisedAs, refusedAs]
    have empty : kwargs.get = fun _ => none := by
      funext key
      rw [Dict.get, bare]
      rfl
    rw [empty] at read
    have silent : reader (fun _ => none) = none :=
      nothing (message, reader) ((Dict.lookup_eq_some distinct _ _).mp found)
    cases silent.symm.trans read

section note
variable {logger : RuntimeLogger} {frame : Frame} {clock : Clock}
  (base : Expressible logger.baseCorrelation)
  (unnamed : logger.baseCorrelation.get "message" = none)
include base unnamed

theorem Note.Proper.reads {note : Note} (proper : note.Proper) (frame : Frame) (clock : Clock) :
    ∃ fields : Payload,
      tellsOf (note.call logger frame clock) = readTold (some (.dict fields)) ∧
      fields.lookup "message" = some (.str note.message) ∧
      (∀ key v, (obsContext frame).get key = some v → key ∉ ["metrics", "exception"] →
        fields.lookup key = some (canonical v)) ∧
      (note.kwargs.entries ≠ [] →
        fields.lookup "metrics" = some (canonical (.dict note.kwargs.entries))) := by
  have named : RuntimeLogger.arguments (note.call logger frame clock).kwargs =
      some (.empty, (note.call logger frame clock).kwargs) := proper.named
  have written := line_of_named named
  have expressible : Call.Expressible (note.call logger frame clock) :=
    ⟨base.update (expressible_obsContext frame), fun k v found => (proper.scalar k v found).1⟩
  obtain ⟨fields, same, lookups⟩ := (expressible.line written).reads
  refine ⟨fields, ?_, ?_, fun key v known unwritten => ?_, fun filled => ?_⟩
  · rw [tellsOf, written, Option.bind_some, same]
  · rw [lookups, Note.call, field_message (unnamed_obsContext unnamed)]
    rfl
  · rw [lookups, Note.call, field_obsContext known unwritten]
    rfl
  · rw [lookups, Note.call, field_metrics filled]
    rfl

omit base unnamed in
theorem readTold_named {fields : Payload} {message : String}
    (named : fields.lookup "message" = some (.str message))
    (known : ∀ key v, (obsContext frame).get key = some v → key ∉ ["metrics", "exception"] →
      fields.lookup key = some (canonical v)) :
    readTold (some (.dict fields)) =
      if message = started.message then some (told frame none)
      else do
        let metrics ← (fields.lookup "metrics").bind dict?
        let ending ← readEnding frame.intent.action message fun key => metrics.lookup key
        return told frame (some ending) := by
  have executionId := known "execution_id" (.str frame.executionId) rfl (by decide)
  have tenantId := known "tenant_id" (.str (quotaTenant frame.tenantCtx)) rfl (by decide)
  have agentId := known "agent_id" (.str frame.intent.agentId) rfl (by decide)
  have action := known "intent_action" (.str frame.intent.action) rfl (by decide)
  simp only [readTold, Option.bind_some, dict?, named, executionId, tenantId, agentId, action,
    canonical, text?, Option.bind_eq_bind]
  rfl

theorem tellsOf_started : tellsOf (started.call logger frame clock) = some (told frame none) := by
  obtain ⟨fields, same, named, known, _⟩ :=
    started_proper.reads base unnamed frame clock
  rw [same, readTold_named named known, if_pos rfl]

theorem Note.Proper.tellsOf {note : Note} (proper : note.Proper) {ending : Ending}
    (reads : readEnding frame.intent.action note.message note.kwargs.get = some ending) :
    tellsOf (note.call logger frame clock) = some (told frame (some ending)) := by
  obtain ⟨other, filled⟩ := readEnding_filled reads
  obtain ⟨fields, same, named, known, metrics⟩ :=
    proper.reads base unnamed frame clock
  have inner : ∀ key, (sortKeys (canonicalFields note.kwargs.entries)).lookup key =
      note.kwargs.get key := by
    intro key
    rw [lookup_sortKeys note.kwargs.nodup, ← Dict.get]
    cases held : note.kwargs.get key with
    | none => rfl
    | some v => exact congrArg some (proper.scalar key v held).2
  rw [same, readTold_named named known, if_neg other, metrics filled, canonical]
  simp only [Option.bind_some, dict?, inner, Option.bind_eq_bind]
  rw [reads]
  rfl

end note

def messages : List String := started.message :: (endings "").map Prod.fst

/-- A call whose line has none of these messages. -/
def Aside (call : Call) : Prop :=
  ∀ line, call.line = some line → ∀ message ∈ messages,
    line.record.field line.now "message" ≠ some (.str message)

theorem readEnding_mem {action message : String} {metric : String → Option Value} {ending : Ending}
    (reads : readEnding action message metric = some ending) : message ∈ messages := by
  obtain ⟨_, found, _⟩ := Option.bind_eq_some_iff.mp reads
  have keys : (endings action).map Prod.fst = (endings "").map Prod.fst := rfl
  have distinct : ((endings action).map Prod.fst).Nodup := by rw [keys]; decide
  have member : message ∈ (endings action).map Prod.fst :=
    List.mem_map.mpr ⟨_, (Dict.lookup_eq_some distinct _ _).mp found, rfl⟩
  exact List.mem_cons_of_mem _ (keys ▸ member)

theorem readTold_message {fields : Payload} {t : Told}
    (tells : readTold (some (.dict fields)) = some t) :
    ∃ message ∈ messages, fields.lookup "message" = some (.str message) := by
  simp only [readTold, Option.bind_some, dict?, Option.bind_eq_bind] at tells
  obtain ⟨message, named, tells⟩ := Option.bind_eq_some_iff.mp tells
  obtain ⟨v, found, text⟩ := Option.bind_eq_some_iff.mp named
  have named : fields.lookup "message" = some (.str message) := by
    rw [found]
    cases v <;> cases text
    rfl
  obtain ⟨_, _, tells⟩ := Option.bind_eq_some_iff.mp tells
  obtain ⟨_, _, tells⟩ := Option.bind_eq_some_iff.mp tells
  obtain ⟨_, _, tells⟩ := Option.bind_eq_some_iff.mp tells
  obtain ⟨_, _, tells⟩ := Option.bind_eq_some_iff.mp tells
  refine ⟨message, ?_, named⟩
  split at tells
  next starts => exact starts ▸ List.mem_cons_self
  · obtain ⟨_, _, tells⟩ := Option.bind_eq_some_iff.mp tells
    obtain ⟨_, reads, _⟩ := Option.bind_eq_some_iff.mp tells
    exact readEnding_mem reads

theorem canonical_eq_str {v : Value} {s : String} (same : canonical v = .str s) : v = .str s := by
  cases v <;> simp_all [canonical]

theorem tellsOf_aside {call : Call} (expressible : call.Expressible) (aside : Aside call) :
    tellsOf call = none := by
  cases written : call.line with
  | none => rw [tellsOf, written, Option.bind_none]
  | some line =>
    obtain ⟨fields, same, lookups⟩ := (expressible.line written).reads
    rw [tellsOf, written, Option.bind_some, same]
    refine Option.eq_none_iff_forall_ne_some.mpr fun t tells => ?_
    obtain ⟨message, member, found⟩ := readTold_message tells
    rw [lookups] at found
    obtain ⟨v, held, same⟩ := Option.map_eq_some_iff.mp found
    exact aside line written message member (canonical_eq_str same ▸ held)

theorem Note.plain_aside {note : Note} {logger : RuntimeLogger} {clock : Clock}
    (unnamed : logger.baseCorrelation.get "message" = none) (bare : note.kwargs = .empty)
    (silent : note.message ∉ messages) : Aside (note.plain logger clock) := by
  intro line written message member held
  have named : RuntimeLogger.arguments note.kwargs = some (.empty, note.kwargs) := by rw [bare]; rfl
  have plain : RuntimeLogger.arguments (note.plain logger clock).kwargs =
      some (.empty, (note.plain logger clock).kwargs) := named
  rw [line_of_named plain] at written
  cases written
  rw [Note.plain, field_message unnamed] at held
  cases held
  exact silent member

theorem rejected_bare {rt : KitematicRuntime} {id : String} {now : ℚ} {note : Note}
    (logged : rejected rt id now = some note) : note.kwargs = .empty ∧ note.message ∉ messages := by
  simp only [rejected] at logged
  split at logged <;> cases logged <;> exact ⟨rfl, by decide⟩

/-- The warning is logged where both gates let the call in and the runtime is not running. -/
theorem rejected_isSome_iff (rt : KitematicRuntime) (id : String) (now : ℚ) :
    (rejected rt id now).isSome = true ↔ rt.passesTenantGate = true ∧
      rt.passesQuotaGate now = true ∧ rt.state ≠ .running := by
  cases tenant : rt.passesTenantGate with
  | false =>
    obtain ⟨p, _, gate⟩ := KitematicRuntime.tenantGate_refused id tenant
    simp [rejected, gate]
  | true =>
    have gate := KitematicRuntime.tenantGate_passed id tenant
    have context := rt.takeIsolation_tenantContext
    cases quota : rt.passesQuotaGate now with
    | false =>
      obtain ⟨p, _, rt', _, quotaGate, _⟩ :=
        @KitematicRuntime.quotaGate_refused rt.takeIsolation id now (by simpa using quota)
      rw [context] at quotaGate
      simp [rejected, gate, quotaGate]
    | true =>
      have quotaGate :=
        @KitematicRuntime.quotaGate_passed rt.takeIsolation id now (by simpa using quota)
      rw [context] at quotaGate
      cases state : rt.state <;> simp [rejected, gate, quotaGate, state]

theorem outcome_of_rejected {rt : KitematicRuntime} {id : String} {now : ℚ}
    (logged : (rejected rt id now).isSome = true) (intent : Intent) :
    (rt.executeIntent intent id now).outcome = rt.shutdownRejection.progress id := by
  obtain ⟨tenant, quota, leaving⟩ := (rejected_isSome_iff rt id now).mp logged
  have opening := rt.executeIntent_opening intent id now
  generalize rt.executeIntent intent id now = segment at opening ⊢
  cases opening with
  | tenantRefused gate => rw [tenant] at gate; cases gate
  | quotaRefused _ gate => rw [quota] at gate; cases gate
  | shutdownRefused => rfl
  | admitted _ _ running => exact absurd running leaving

theorem controlled_bare {rt : KitematicRuntime} {control : Control} {note : Note}
    (logged : controlled rt control = some note) :
    note.kwargs = .empty ∧ note.message ∉ messages := by
  unfold controlled at logged
  split at logged
  · split at logged <;> cases logged
    exact ⟨rfl, by decide⟩
  · split at logged <;> cases logged
    exact ⟨rfl, by decide⟩
  · cases logged

/-! What a segment logs against how it ends. -/

inductive Closes (frame : Frame) : Option Note → Progress → Prop where
  | goesOn (next : Frame) (same : SameCall frame next) : Closes frame none (.suspended next)
  | ends (note : Note) (result : ExecutionResult)
      (reads : readEnding frame.intent.action note.message note.kwargs.get = some (.of result)) :
      Closes frame (some note) (.returned result)

section closes
variable {rt : KitematicRuntime} {frame : Frame}

theorem fail_closes {note : Note} {target : ExecutionState} {traceError : Option String}
    {metrics : List String} {error : String} (valid : isValidTransition frame.state target = true)
    (reads : readEnding frame.intent.action note.message note.kwargs.get =
      some ⟨false, none, some error, target⟩) :
    Closes frame (some note) (rt.fail frame target traceError metrics error).outcome := by
  refine .ends note _ ?_
  rw [reads, Ending.of, transitionSafe_of_valid valid]

theorem advance_closes {target : ExecutionState} {phase : TracePhase} {call : CollaboratorCall}
    (valid : isValidTransition frame.state target = true) :
    Closes frame none (rt.advance frame target phase call).outcome := by
  rw [KitematicRuntime.advance, transition_of_valid valid]
  exact .goesOn _ ⟨rfl, rfl, rfl, rfl, rfl⟩

theorem optional?_optional (reason : Option String) :
    optional? (Checkpoints.optional reason) = some reason := by
  cases reason <;> rfl

theorem refusedAs_optional {key default : String} {reason : Option String}
    {metric : String → Option Value} (held : metric key = some (Checkpoints.optional reason)) :
    refusedAs key default metric = some ⟨false, none, some (orElse reason default), .failed⟩ := by
  rw [refusedAs, held, Option.bind_some, optional?_optional]
  rfl

theorem afterEvaluateIntent_closes {intent : Intent} (consistent : Consistent frame)
    (pending : frame.awaiting = .evaluateIntent intent) (clock : Clock) :
    (∀ allowed reason, Closes frame (closing frame (.decision allowed reason) clock)
      (rt.afterEvaluateIntent frame (.ok (allowed, reason))).outcome) ∧
    ∀ e, Closes frame (closing frame (.raised e) clock)
      (rt.afterEvaluateIntent frame (.error e)).outcome := by
  have state : frame.state = .validating := by rw [consistent.state, pending]; rfl
  refine ⟨fun allowed reason => ?_, fun e => ?_⟩
  · cases allowed with
    | false =>
      simp only [closing, pending]
      exact fail_closes (by rw [state]; decide) (refusedAs_optional rfl)
    | true =>
      simp only [closing, pending]
      exact advance_closes (by rw [state]; decide)
  · simp only [closing, pending]
    exact fail_closes (by rw [state]; decide) rfl

theorem afterCheckCapability_closes {action agentId : String} (consistent : Consistent frame)
    (pending : frame.awaiting = .checkCapability action agentId) (clock : Clock) :
    (∀ allowed reason, Closes frame (closing frame (.decision allowed reason) clock)
      (rt.afterCheckCapability frame (.ok (allowed, reason))).outcome) ∧
    ∀ e, Closes frame (closing frame (.raised e) clock)
      (rt.afterCheckCapability frame (.error e)).outcome := by
  have state : frame.state = .authorized := by rw [consistent.state, pending]; rfl
  refine ⟨fun allowed reason => ?_, fun e => ?_⟩
  · cases allowed with
    | false =>
      simp only [closing, pending]
      exact fail_closes (by rw [state]; decide) (refusedAs_optional rfl)
    | true =>
      simp only [closing, pending]
      exact advance_closes (by rw [state]; decide)
  · simp only [closing, pending]
    exact fail_closes (by rw [state]; decide) rfl

theorem afterRouteIntent_closes {intent : Intent} (consistent : Consistent frame)
    (pending : frame.awaiting = .routeIntent intent) (clock : Clock) :
    (∀ path, Closes frame (closing frame (.path path) clock)
      (rt.afterRouteIntent frame (.ok path)).outcome) ∧
    ∀ e, Closes frame (closing frame (.raised e) clock)
      (rt.afterRouteIntent frame (.error e)).outcome := by
  have state : frame.state = .executing := by rw [consistent.state, pending]; rfl
  refine ⟨fun path => ?_, fun e => ?_⟩
  · simp only [closing, pending]
    exact .goesOn _ ⟨rfl, rfl, rfl, rfl, rfl⟩
  · simp only [closing, pending]
    exact fail_closes (by rw [state]; decide) rfl

theorem afterAccessTool_closes {path : ExecutionPath} {intent : Intent}
    (consistent : Consistent frame) (pending : frame.awaiting = .accessTool path intent) (now : ℚ)
    (clock : Clock) :
    (∀ result, Closes frame (closing frame (.toolResult result) clock)
      (rt.afterAccessTool frame now (.ok result)).outcome) ∧
    ∀ e, Closes frame (closing frame (.raised e) clock)
      (rt.afterAccessTool frame now (.error e)).outcome := by
  have state : frame.state = .executing := by rw [consistent.state, pending]; rfl
  refine ⟨fun result => ?_, fun e => ?_⟩
  · cases success : result.success with
    | false =>
      simp only [closing, pending, success, KitematicRuntime.afterAccessTool]
      exact fail_closes (by rw [state]; decide) (refusedAs_optional rfl)
    | true =>
      simp only [closing, pending, success, KitematicRuntime.afterAccessTool]
      exact advance_closes (by rw [state]; decide)
  · simp only [closing, pending]
    exact fail_closes (by rw [state]; decide) rfl

theorem afterSave_closes {executionId : String} {saved : CheckpointState}
    (consistent : Consistent frame) (pending : frame.awaiting = .save executionId saved) (now : ℚ)
    (clock : Clock) :
    (∀ id, Closes frame (closing frame (.checkpointId id) clock)
      (rt.afterSave frame saved now (.ok id)).outcome) ∧
    ∀ e, Closes frame (closing frame (.raised e) clock)
      (rt.afterSave frame saved now (.error e)).outcome := by
  have state : frame.state = .checkpointing := by rw [consistent.state, pending]; rfl
  refine ⟨fun id => ?_, fun e => ?_⟩
  · have valid : isValidTransition frame.state .completed = true := by rw [state]; decide
    simp only [closing, pending, transition_of_valid valid, KitematicRuntime.afterSave]
    exact .ends _ _ rfl
  · simp only [closing, pending]
    exact fail_closes (by rw [state]; decide) rfl

theorem resumeGuarded_closes (consistent : Consistent frame) {reply : Reply} {now : ℚ}
    {segment : Segment Progress} (ran : rt.resumeGuarded frame reply now = some segment)
    (clock : Clock) : Closes frame (closing frame reply clock) segment.outcome := by
  unfold KitematicRuntime.resumeGuarded at ran
  split at ran
  case h_1 pending =>
    cases ran
    exact (afterEvaluateIntent_closes consistent pending clock).1 _ _
  case h_2 pending =>
    cases ran
    exact (afterEvaluateIntent_closes consistent pending clock).2 _
  case h_3 pending =>
    cases ran
    exact (afterCheckCapability_closes consistent pending clock).1 _ _
  case h_4 pending =>
    cases ran
    exact (afterCheckCapability_closes consistent pending clock).2 _
  case h_5 pending =>
    cases ran
    exact (afterRouteIntent_closes consistent pending clock).1 _
  case h_6 pending =>
    cases ran
    exact (afterRouteIntent_closes consistent pending clock).2 _
  case h_7 pending =>
    cases ran
    exact (afterAccessTool_closes consistent pending now clock).1 _
  case h_8 pending =>
    cases ran
    exact (afterAccessTool_closes consistent pending now clock).2 _
  case h_9 pending =>
    cases ran
    exact (afterSave_closes consistent pending now clock).1 _
  case h_10 pending =>
    cases ran
    exact (afterSave_closes consistent pending now clock).2 _
  case h_11 => cases ran

theorem resume_closes (consistent : Consistent frame) {reply : Reply} {now : ℚ}
    {segment : Segment Progress} (ran : rt.resume frame reply now = some segment) (clock : Clock) :
    Closes frame (closing frame reply clock) segment.outcome := by
  obtain ⟨guarded, inner, rfl⟩ := Option.map_eq_some_iff.mp ran
  have closes := resumeGuarded_closes consistent inner clock
  revert closes
  cases guarded.outcome <;> exact id

end closes

/-! Runs. -/

/-- What else writes to the stream writes JSON values and no message of an execution. -/
def Action.Honest : Action → Prop
  | .event _ _ => True
  | .other call => call.Expressible ∧ Aside call

inductive Life : Option Frame → Bool → List Told → Prop where
  | silent : Life none false []
  | running (frame : Frame) : Life (some frame) false [told frame none]
  | cut (frame : Frame) : Life none true [told frame none]
  | over (frame : Frame) (ending : Ending) :
      Life none false [told frame none, told frame (some ending)]

namespace Journal

/-- What the history says of an execution. -/
def ofId (j : Journal) (id : String) : List Told := j.history.filter (·.executionId = id)

structure Retold (j : Journal) : Prop where
  wf : j.pool.WellFormed
  told : j.calls.filterMap tellsOf = j.history
  drawn : ∀ t ∈ j.history, t.executionId ∈ j.pool.drawn
  cancelled : ∀ id ∈ j.cancelled, id ∈ j.pool.drawn
  lives : ∀ id, Life (j.pool.inFlight.get id) (j.cancelled.contains id) (j.ofId id)

theorem start_retold (rt : KitematicRuntime) : (start rt).Retold :=
  ⟨Pool.start_wellFormed rt, rfl, nofun, nofun, fun _ => .silent⟩

theorem Retold.ofId_fresh {j : Journal} (retold : j.Retold) {id : String}
    (fresh : id ∉ j.pool.drawn) : j.ofId id = [] := by
  refine List.filter_eq_nil_iff.mpr fun t member same => ?_
  exact fresh (of_decide_eq_true same ▸ retold.drawn t member)

theorem ofId_running {j : Journal} (retold : j.Retold) {id : String} {frame : Frame}
    (pending : j.pool.inFlight.get id = some frame) :
    j.cancelled.contains id = false ∧ j.ofId id = [told frame none] := by
  have life := retold.lives id
  rw [pending] at life
  generalize j.cancelled.contains id = cut at life ⊢
  generalize j.ofId id = history at life ⊢
  cases life with
  | running => exact ⟨rfl, rfl⟩

/-- A step on one id, with what it adds to the history. -/
structure Touches (j j' : Journal) (id : String) (new : List Told) : Prop where
  wf : j'.pool.WellFormed
  kept : ∀ other ∈ j.pool.drawn, other ∈ j'.pool.drawn
  drawn : id ∈ j'.pool.drawn
  inFlight : ∀ other, other ≠ id → j'.pool.inFlight.get other = j.pool.inFlight.get other
  cancelled : ∀ other, other ≠ id → (other ∈ j'.cancelled ↔ other ∈ j.cancelled)
  told : j'.calls.filterMap tellsOf = j.calls.filterMap tellsOf ++ new
  history : j'.history = j.history ++ new
  own : ∀ t ∈ new, t.executionId = id

theorem Touches.ofId_self {j j' : Journal} {id : String} {new : List Told}
    (touches : Touches j j' id new) : j'.ofId id = j.ofId id ++ new := by
  rw [ofId, touches.history, List.filter_append, ← ofId]
  congr 1
  exact List.filter_eq_self.mpr fun t member => decide_eq_true (touches.own t member)

theorem Touches.ofId_other {j j' : Journal} {id other : String} {new : List Told}
    (touches : Touches j j' id new) (ne : other ≠ id) : j'.ofId other = j.ofId other := by
  rw [ofId, touches.history, List.filter_append, ← ofId]
  have nothing : new.filter (·.executionId = other) = [] := by
    refine List.filter_eq_nil_iff.mpr fun t member same => ?_
    exact ne ((of_decide_eq_true same).symm.trans (touches.own t member))
  rw [nothing, List.append_nil]

/-- What a step on one id leaves of the others; its own life is left to show. -/
theorem Retold.touched {j j' : Journal} (retold : j.Retold) (id : String) (new : List Told)
    (touches : Touches j j' id new)
    (life : Life (j'.pool.inFlight.get id) (j'.cancelled.contains id) (j.ofId id ++ new)) :
    j'.Retold where
  wf := touches.wf
  told := by rw [touches.told, retold.told, touches.history]
  drawn := by
    intro t member
    rw [touches.history] at member
    cases List.mem_append.mp member with
    | inl old => exact touches.kept _ (retold.drawn t old)
    | inr new => exact touches.own t new ▸ touches.drawn
  cancelled := by
    intro other member
    by_cases same : other = id
    · exact same ▸ touches.drawn
    · exact touches.kept other (retold.cancelled other ((touches.cancelled other same).mp member))
  lives := by
    intro other
    by_cases same : other = id
    · rw [same, touches.ofId_self]
      exact life
    · have cut : j'.cancelled.contains other = j.cancelled.contains other := by
        simp only [List.contains_eq_mem, touches.cancelled other same]
      rw [touches.inFlight other same, touches.ofId_other same, cut]
      exact retold.lives other

theorem Retold.untold {j : Journal} (retold : j.Retold) {runtime : KitematicRuntime}
    {calls : List Call} (silent : calls.filterMap tellsOf = [])
    (wf : Pool.WellFormed { j.pool with runtime := runtime }) :
    Retold { j with pool := { j.pool with runtime := runtime }, calls := j.calls ++ calls } := by
  refine ⟨wf, ?_, retold.drawn, retold.cancelled, retold.lives⟩
  rw [List.filterMap_append, silent, List.append_nil]
  exact retold.told

section step
variable {logger : RuntimeLogger} (base : Expressible logger.baseCorrelation)
  (unnamed : logger.baseCorrelation.get "message" = none) {j j' : Journal}
include base unnamed

theorem filterMap_plain {note : Option Note} (clock : Clock)
    (bare : ∀ n, note = some n → n.kwargs = .empty ∧ n.message ∉ messages) :
    (note.toList.map (·.plain logger clock)).filterMap tellsOf = [] := by
  cases note with
  | none => rfl
  | some n =>
    obtain ⟨empty, silent⟩ := bare n rfl
    have expressible : Call.Expressible (n.plain logger clock) :=
      ⟨base, fun k v found => by rw [Note.plain, empty] at found; cases found⟩
    have nothing := tellsOf_aside expressible (Note.plain_aside unnamed empty silent)
    rw [Option.toList_some, List.map_singleton, List.filterMap_cons, nothing, List.filterMap_nil]

theorem filterMap_started (opened : Option Frame) (clock : Clock) :
    (opened.toList.map fun frame => started.call logger frame clock).filterMap tellsOf =
      opened.toList.map fun frame => told frame none := by
  cases opened with
  | none => rfl
  | some frame =>
    rw [Option.toList_some, List.map_singleton, List.filterMap_cons,
      tellsOf_started base unnamed, List.filterMap_nil, List.map_singleton]

theorem executeIntent_retold {intent : Intent} {id : String} {now : ℚ} {clock : Clock}
    (retold : j.Retold)
    (stepped : j.step logger (.event (.executeIntent intent id now) clock) = some j') :
    j'.Retold := by
  obtain ⟨⟨pool, progress⟩, ran, rfl⟩ := Option.map_eq_some_iff.mp stepped
  have moved : j.pool.step (.executeIntent intent id now) = some pool :=
    Option.map_eq_some_iff.mpr ⟨_, ran, rfl⟩
  have wf := Pool.step_wellFormed retold.wf moved
  obtain ⟨fresh, rfl, rfl⟩ := Pool.executeIntent_eq_some ran
  have uncut : j.cancelled.contains id = false := by
    rw [List.contains_eq_mem]
    exact decide_eq_false fun held => fresh (retold.cancelled id held)
  have plain :
      ((rejected j.pool.runtime id now).toList.map (·.plain logger clock)).filterMap tellsOf = [] :=
    filterMap_plain base unnamed clock fun _ => rejected_bare
  refine retold.touched id _ ⟨wf, fun _ => List.mem_cons_of_mem _, List.mem_cons_self, ?_,
    fun _ _ => .rfl, ?_, rfl, ?_⟩ ?_
  · intro other ne
    exact (Pool.get_settle ..).trans (if_neg ne)
  · rw [List.filterMap_append, List.filterMap_append, plain, List.append_nil,
      filterMap_started base unnamed]
  · intro t member
    obtain ⟨frame, opened, rfl⟩ := List.mem_map.mp member
    rw [Pool.frameOf_executeIntent (Option.mem_toList.mp opened)]
    rfl
  · have settled :=
      (Pool.get_settle j.pool id id (j.pool.runtime.executeIntent intent id now)).trans (if_pos rfl)
    rw [settled, uncut, retold.ofId_fresh fresh, List.nil_append]
    cases frameOf (j.pool.runtime.executeIntent intent id now).outcome with
    | none => exact .silent
    | some frame => exact .running frame

theorem resume_retold {id : String} {reply : Reply} {now : ℚ} {clock : Clock} (retold : j.Retold)
    (stepped : j.step logger (.event (.resume id reply now) clock) = some j') : j'.Retold := by
  obtain ⟨frame, pending, stepped⟩ := Option.bind_eq_some_iff.mp stepped
  obtain ⟨⟨pool, progress⟩, ran, rfl⟩ := Option.map_eq_some_iff.mp stepped
  have moved : j.pool.step (.resume id reply now) = some pool :=
    Option.map_eq_some_iff.mpr ⟨_, ran, rfl⟩
  have wf := Pool.step_wellFormed retold.wf moved
  obtain ⟨uncut, before⟩ := ofId_running retold pending
  obtain ⟨_, segment, found, resumed, rfl, rfl⟩ := Pool.resume_eq_some ran
  obtain rfl := Option.some.inj (pending.symm.trans found)
  have own := retold.wf.executionId id frame pending
  have settled := (Pool.get_settle j.pool id id segment).trans (if_pos rfl)
  have others : ∀ other, other ≠ id →
      (j.pool.settle id segment).inFlight.get other = j.pool.inFlight.get other :=
    fun other ne => (Pool.get_settle ..).trans (if_neg ne)
  have closes := resume_closes (retold.wf.consistent id frame pending) resumed clock
  -- The step reads the segment only through its outcome and its note, which `Closes` ties.
  generalize segment.outcome = progress at closes settled ⊢
  generalize logged : closing frame reply clock = note at closes ⊢
  cases closes with
  | goesOn next same =>
    refine retold.touched id [] ⟨wf, fun _ held => held, retold.wf.drawn id frame pending, others,
      fun _ _ => .rfl, ?_, rfl, List.forall_mem_nil _⟩ ?_
    · rw [Option.toList_none, List.map_nil, List.append_nil, List.append_nil]
    · have kept : told next none = told frame none := by
        rw [told, same.executionId, same.tenantCtx, same.intent]
        rfl
      rw [settled, uncut, before, ← kept]
      exact .running next
  | ends note result reads =>
    refine retold.touched id [told frame (some (.of result))] ⟨wf, fun _ held => held,
      retold.wf.drawn id frame pending, others, fun _ _ => .rfl, ?_, rfl,
      List.forall_mem_singleton.mpr own⟩ ?_
    · have tells : tellsOf (note.call logger frame clock) = some (told frame (some (.of result))) :=
        (closing_proper logged).tellsOf base unnamed reads
      rw [Option.toList_some, List.map_singleton, List.filterMap_append, List.filterMap_cons, tells,
        List.filterMap_nil]
    · rw [settled, uncut, before]
      exact .over frame _

omit base unnamed in
theorem cancel_retold {id : String} {clock : Clock} (retold : j.Retold)
    (stepped : j.step logger (.event (.cancel id) clock) = some j') : j'.Retold := by
  obtain ⟨pool, moved, rfl⟩ := Option.map_eq_some_iff.mp stepped
  have wf : pool.WellFormed := Pool.step_wellFormed (e := .cancel id) retold.wf moved
  obtain ⟨frame, pending, rfl⟩ := Option.map_eq_some_iff.mp moved
  obtain ⟨_, before⟩ := ofId_running retold pending
  refine retold.touched id [] ⟨wf, fun _ held => held, retold.wf.drawn id frame pending, ?_, ?_,
    (List.append_nil _).symm, (List.append_nil _).symm, List.forall_mem_nil _⟩ ?_
  · intro other ne
    exact (Dict.get_erase ..).trans (if_neg ne)
  · intro other ne
    rw [List.mem_cons, or_iff_right ne]
  · have gone := (Dict.get_erase j.pool.inFlight id id).trans (if_pos rfl)
    rw [gone, List.contains_cons, beq_self_eq_true, Bool.true_or, before]
    exact .cut frame

theorem step_retold {action : Action} (honest : action.Honest) (retold : j.Retold)
    (stepped : j.step logger action = some j') : j'.Retold := by
  cases action with
  | event e clock =>
    cases e with
    | executeIntent intent id now => exact executeIntent_retold base unnamed retold stepped
    | resume id reply now => exact resume_retold base unnamed retold stepped
    | cancel id => exact cancel_retold retold stepped
    | control control =>
      cases stepped
      exact retold.untold (filterMap_plain base unnamed clock fun _ => controlled_bare)
        (Pool.step_wellFormed (e := .control control) retold.wf rfl)
  | other call =>
    cases stepped
    have silent : [call].filterMap tellsOf = [] := by
      rw [List.filterMap_cons, tellsOf_aside honest.1 honest.2, List.filterMap_nil]
    exact retold.untold silent retold.wf

/-- The stream of any run, read back, says what every call returned: the calls in flight have
started, the cancelled ones have been cut, and the others have ended once. -/
theorem retells {rt : KitematicRuntime} {actions : List Action} {j : Journal}
    (honest : ∀ action ∈ actions, action.Honest)
    (ran : run (step logger) (start rt) actions = some j) :
    readHistory j.text = j.history ∧ ∀ id, Life (j.pool.inFlight.get id) (j.cancelled.contains id)
      ((readHistory j.text).filter (·.executionId = id)) := by
  have retold := run_invariant (fun action member _ _ retold stepped =>
    step_retold base unnamed (honest action member) retold stepped) (start_retold rt) ran
  have history : readHistory j.text = j.history := by
    rw [text, readHistory_stream]
    exact retold.told
  refine ⟨history, fun id => ?_⟩
  rw [history]
  exact retold.lives id

end step

def forgedReason : List Action :=
  [.event (.executeIntent ⟨"agent", "tool.read", []⟩ "e1" 0) {},
    .event (.executeIntent ⟨"agent", "tool.read", []⟩ "e2" 1) {},
    .event (.executeIntent ⟨"agent", "tool.read", []⟩ "e3" 2) {},
    .event (.resume "e1" (.decision true none) 3) {},
    .event (.resume "e2"
      (.decision false (some "\n\x7b\"message\": \"Policy rejected\"\x7d\n")) 4) {},
    .other ⟨{}, .info, "Registered", .empty, epoch⟩, .event (.cancel "e3") {},
    .event (.resume "e1" (.decision true none) 5) {}, .event (.control .drain) {},
    .event (.resume "e1" (.path ⟨"tool.read", "", []⟩) 6) {},
    .event (.resume "e1" (.toolResult ⟨true, [], none⟩) 7) {},
    .event (.resume "e1" (.checkpointId "ck_1") 8) {}]

theorem honest_forgedReason : ∀ action ∈ forgedReason, action.Honest := by
  have aside : Aside ⟨{}, .info, "Registered", .empty, epoch⟩ := by
    intro line written message member held
    cases written
    cases held
    exact absurd member (by decide)
  simpa [forgedReason, Action.Honest] using
    (⟨⟨expressible_empty, expressible_empty⟩, aside⟩ : Call.Expressible _ ∧ Aside _)

theorem retells_forged : ∃ j, run (step {}) (start {}) forgedReason = some j ∧
    j.history.map (fun t => (t.executionId, t.ending)) = [("e1", none), ("e2", none), ("e3", none),
      ("e2", some ⟨false, none, some "\n\x7b\"message\": \"Policy rejected\"\x7d\n", .failed⟩),
      ("e1", some ⟨true, some "ck_1", none, .completed⟩)] ∧
    readHistory j.text = j.history ∧ ∀ id, Life (j.pool.inFlight.get id) (j.cancelled.contains id)
      ((readHistory j.text).filter (·.executionId = id)) :=
  ⟨_, rfl, rfl, @retells {} expressible_empty rfl {} forgedReason _ honest_forgedReason rfl⟩

end Journal

end Kitematic.RuntimeLog
