import Kitematic.LogLines

/-! Audit events have no store of their own: they are lines of the runtime's log. A reader
who looks for the id of an audit event among the metrics of a line gets back exactly the
recorded events, whatever else is logged between them. -/

namespace Kitematic.AuditTrail
open Dictionary IsoDate Json LogLines PyText

inductive AuditEventType where
  | authSuccess | authFailure | keyRotation | tenantDenied | websocketDeprecated
  deriving DecidableEq, Repr

namespace AuditEventType

def value : AuditEventType → String
  | .authSuccess => "auth.success"
  | .authFailure => "auth.failure"
  | .keyRotation => "auth.key_rotation"
  | .tenantDenied => "tenant.denied"
  | .websocketDeprecated => "websocket.deprecated_auth"

def all : List AuditEventType :=
  [.authSuccess, .authFailure, .keyRotation, .tenantDenied, .websocketDeprecated]

def ofValue (s : String) : Option AuditEventType := all.find? fun type => type.value = s

theorem ofValue_value (type : AuditEventType) : ofValue type.value = some type := by
  cases type <;> decide

end AuditEventType

/-- The event's own timestamp is not logged. -/
structure AuditEvent where
  eventId : String
  eventType : AuditEventType := .authFailure
  tenantId : String := ""
  agentId : String := ""
  executionId : String := ""
  detail : String := ""

structure AuditRecorder where
  logger : Option RuntimeLogger := none

namespace AuditRecorder

def kwargs (event : AuditEvent) : Dict String Value where
  entries := [("audit_event_id", .str event.eventId),
    ("audit_event_type", .str event.eventType.value), ("tenant_id", .str event.tenantId),
    ("agent_id", .str event.agentId), ("execution_id", .str event.executionId)]
  nodup := by simp

def message (event : AuditEvent) : String :=
  if event.detail = "" then event.eventType.value else event.detail

def record (recorder : AuditRecorder) (event : AuditEvent) (now : DateTime) : Option Call :=
  recorder.logger.map fun logger => ⟨logger, .info, message event, kwargs event, now⟩

/-- An event of one of the methods below; an empty detail is replaced by the method's own text. -/
def event (eventType : AuditEventType) (text eventId : String)
    (tenantId agentId executionId detail : String) : AuditEvent where
  eventId := eventId
  eventType := eventType
  tenantId := tenantId
  agentId := agentId
  executionId := executionId
  detail := if detail = "" then text else detail

def recordAuthFailure (eventId tenantId detail : String) : AuditEvent :=
  event .authFailure "Authentication failed" eventId tenantId "" "" detail

def recordAuthSuccess (eventId tenantId agentId : String) : AuditEvent :=
  event .authSuccess "Authentication succeeded" eventId tenantId agentId "" ""

def recordKeyRotation (eventId tenantId detail : String) : AuditEvent :=
  event .keyRotation "API key rotated" eventId tenantId "" "" detail

def recordTenantDenied (eventId tenantId executionId detail : String) : AuditEvent :=
  event .tenantDenied "Cross-tenant access denied" eventId tenantId "" executionId detail

def recordWebsocketDeprecated (eventId tenantId detail : String) : AuditEvent :=
  event .websocketDeprecated "WebSocket deprecated auth method used" eventId tenantId "" "" detail

theorem expressible_kwargs (event : AuditEvent) : Expressible (kwargs event) :=
  fun k v found =>
    have native : NativeFields (kwargs event).entries :=
      ⟨trivial, trivial, trivial, trivial, trivial, trivial⟩
    nativeFields_iff.mp native (k, v) (Dict.get_eq_some.mp found)

end AuditRecorder

inductive Action where
  | log (call : Call)
  | record (recorder : AuditRecorder) (event : AuditEvent) (now : DateTime)

def Action.line : Action → Option Line
  | .log call => call.line
  | .record recorder event now => (recorder.record event now).bind Call.line

structure Told where
  eventId : String
  eventType : AuditEventType
  tenantId : String
  agentId : String
  executionId : String
  message : String
  deriving DecidableEq, Repr

def AuditEvent.told (event : AuditEvent) : Told :=
  ⟨event.eventId, event.eventType, event.tenantId, event.agentId, event.executionId,
    AuditRecorder.message event⟩

def Action.told : Action → Option Told
  | .record recorder event _ => if recorder.logger.isSome then some event.told else none
  | .log _ => none

def text? : Value → Option String
  | .str s => some s
  | _ => none

def dict? : Value → Option Payload
  | .dict fields => some fields
  | _ => none

/-- The audit event on a line. -/
def readTold (line : Option Value) : Option Told := do
  let fields ← line.bind dict?
  let metrics ← (fields.lookup "metrics").bind dict?
  let eventId ← (metrics.lookup "audit_event_id").bind text?
  let eventType ← ((metrics.lookup "audit_event_type").bind text?).bind AuditEventType.ofValue
  let tenantId ← (metrics.lookup "tenant_id").bind text?
  let agentId ← (metrics.lookup "agent_id").bind text?
  let executionId ← (metrics.lookup "execution_id").bind text?
  let message ← (fields.lookup "message").bind text?
  return ⟨eventId, eventType, tenantId, agentId, executionId, message⟩

def readAudit (stream : List Char) : List Told := (readLines stream).filterMap readTold

/-- The metrics of the line have no id of an audit event. -/
def Unaudited (line : Line) : Prop :=
  ∀ fields, line.record.field line.now "metrics" = some (.dict fields) →
    fields.lookup "audit_event_id" = none

theorem dict_canonical {v : Value} {read : Payload} (native : Native v)
    (same : dict? (canonical v) = some read) :
    ∃ fields, v = .dict fields ∧ ∀ k, read.lookup k = (fields.lookup k).map canonical := by
  cases v with
  | dict fields =>
    rw [canonical, dict?] at same
    cases same
    exact ⟨fields, rfl, lookup_sortKeys native.1⟩
  | _ => cases same

theorem readTold_unaudited {line : Line} {read : Option Value} (expressible : line.Expressible)
    (tells : Tells line read) (unaudited : Unaudited line) : readTold read = none := by
  obtain ⟨fields, rfl, lookups⟩ := tells
  have silent : ∀ metrics, (fields.lookup "metrics").bind dict? = some metrics →
      metrics.lookup "audit_event_id" = none := by
    intro metrics found
    obtain ⟨v, held, dict⟩ := Option.bind_eq_some_iff.mp found
    rw [lookups] at held
    obtain ⟨v, told, rfl⟩ := Option.map_eq_some_iff.mp held
    have native := nativeFields_iff.mp expressible.native.2 ("metrics", v)
      (Dict.get_eq_some.mp ((LogRecord.get_entry ..).trans told))
    obtain ⟨given, rfl, inner⟩ := dict_canonical native dict
    rw [inner, unaudited given told, Option.map_none]
  unfold readTold
  rw [Option.bind_some, dict?]
  simp only [Option.bind_eq_bind, Option.bind_some]
  cases found : (fields.lookup "metrics").bind dict? with
  | none => rfl
  | some metrics => rw [Option.bind_some, silent metrics found]; rfl

theorem readTold_recorded {logger : RuntimeLogger} {event : AuditEvent} {now : DateTime}
    {read : Option Value} (unnamed : logger.baseCorrelation.get "message" = none)
    (tells : Tells ⟨logger.log .info (AuditRecorder.message event) .empty (AuditRecorder.kwargs event),
      now⟩ read) : readTold read = some event.told := by
  obtain ⟨fields, rfl, lookups⟩ := tells
  have metrics : fields.lookup "metrics" =
      some (canonical (.dict (AuditRecorder.kwargs event).entries)) := lookups "metrics"
  have message : fields.lookup "message" = some (.str (AuditRecorder.message event)) := by
    have correlated : (logger.baseCorrelation.update .empty).get "message" = none := by
      rw [Dict.get_update, unnamed]
      rfl
    rw [lookups, LogRecord.field, RuntimeLogger.log]
    simp only [correlated]
    rfl
  have inner := lookup_sortKeys (AuditRecorder.kwargs event).nodup
  rw [canonical] at metrics
  unfold readTold
  simp only [metrics, message, Option.bind_eq_bind, Option.bind_some, dict?, inner]
  simp [AuditRecorder.kwargs, AuditEvent.told, text?, List.lookup_cons, canonical,
    AuditEventType.ofValue_value]

/-- What an action must be for its line to be read as what it is: a plain call tells of no audit
event, and a recorder's logger has no correlation under the name of the message. -/
def Action.Honest : Action → Prop
  | .log call => call.Expressible ∧ ∀ line, call.line = some line → Unaudited line
  | .record recorder _ _ => ∀ logger, recorder.logger = some logger →
      Expressible logger.baseCorrelation ∧ logger.baseCorrelation.get "message" = none

theorem Action.Honest.readTold {action : Action} {line : Line} (honest : action.Honest)
    (written : action.line = some line) :
    readTold (read (JSONLogFormatter.format line.record line.now)) = action.told := by
  cases action with
  | log call =>
    have expressible := honest.1.line written
    exact readTold_unaudited expressible expressible.reads (honest.2 line written)
  | record recorder event now =>
    obtain ⟨logger⟩ := recorder
    cases logger with
    | none => cases written
    | some logger =>
      obtain ⟨base, unnamed⟩ := honest logger rfl
      have call : Call.Expressible
          ⟨logger, .info, AuditRecorder.message event, AuditRecorder.kwargs event, now⟩ :=
        ⟨base, AuditRecorder.expressible_kwargs event⟩
      have expressible := call.line written
      cases written
      exact readTold_recorded unnamed expressible.reads

theorem told_of_unwritten {action : Action} (unwritten : action.line = none) :
    action.told = none := by
  cases action with
  | log call => rfl
  | record recorder event now =>
    obtain ⟨logger⟩ := recorder
    cases logger with
    | none => rfl
    | some logger => cases unwritten

theorem readAudit_stream {actions : List Action} (honest : ∀ action ∈ actions, action.Honest) :
    readAudit (stream (actions.filterMap Action.line)) = actions.filterMap Action.told := by
  rw [readAudit, readLines_stream, List.filterMap_map, List.filterMap_filterMap]
  refine List.filterMap_congr fun action member => ?_
  cases written : action.line with
  | none => exact (told_of_unwritten written).symm
  | some line => exact (honest action member).readTold written

def forging : List Action :=
  [.log ⟨{}, .info, "started", .ofList [("tokens", .int 3)], epoch⟩,
    .record ⟨some {}⟩ (AuditRecorder.recordTenantDenied "id-1" "x\n\x7b\x7d\n" "e1" "") epoch,
    .record ⟨none⟩ (AuditRecorder.recordAuthFailure "id-2" "acme" "") epoch]

theorem readAudit_forging :
    readAudit (stream (forging.filterMap Action.line)) = forging.filterMap Action.told := by
  refine readAudit_stream (List.forall_mem_cons.mpr ⟨⟨⟨expressible_empty, ?_⟩, ?_⟩,
    List.forall_mem_cons.mpr ⟨?_, List.forall_mem_singleton.mpr nofun⟩⟩)
  · exact expressible_ofList ⟨by decide, trivial, trivial⟩
  · rintro line written fields told
    cases written
    cases told
    rfl
  · rintro logger same
    cases same
    exact ⟨expressible_empty, rfl⟩

end Kitematic.AuditTrail
