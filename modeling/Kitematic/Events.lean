import Kitematic.Broker
import Kitematic.IsoDate

/-! Execution events and the publisher that keeps its subscribers in memory. An event
goes to the subscribers of its execution unless both sides name a tenant and the
two differ. -/

namespace Kitematic.Events
open Delivery PyText IsoDate

inductive EventType where
  | loopStarted | budgetChecked | policyEvaluated | capabilityChecked | intentRouted
  | gatewayAccessed | toolExecuted | checkpointSaved | stepCompleted | loopTerminated | loopFailed
  | loopHalted | budgetExhausted | timeoutOccurred
  deriving DecidableEq

def EventType.value : EventType → String
  | loopStarted => "LOOP_STARTED"
  | budgetChecked => "BUDGET_CHECKED"
  | policyEvaluated => "POLICY_EVALUATED"
  | capabilityChecked => "CAPABILITY_CHECKED"
  | intentRouted => "INTENT_ROUTED"
  | gatewayAccessed => "GATEWAY_ACCESSED"
  | toolExecuted => "TOOL_EXECUTED"
  | checkpointSaved => "CHECKPOINT_SAVED"
  | stepCompleted => "STEP_COMPLETED"
  | loopTerminated => "LOOP_TERMINATED"
  | loopFailed => "LOOP_FAILED"
  | loopHalted => "LOOP_HALTED"
  | budgetExhausted => "BUDGET_EXHAUSTED"
  | timeoutOccurred => "TIMEOUT_OCCURRED"

/-- A field of type `EventType | str`. -/
inductive EventName where
  | known (eventType : EventType)
  | text (s : String)

def EventName.value : EventName → String
  | known eventType => eventType.value
  | text s => s

structure ExecutionEvent where
  eventId : String
  executionId : String := ""
  tenantId : String := ""
  agentId : Option String := none
  eventType : EventName := .text ""
  payload : Payload := []
  createdAt : DateTime
  schemaVersion : String := "1.0"

def ExecutionEvent.toDict (e : ExecutionEvent) : Payload :=
  [("event_id", .str e.eventId), ("execution_id", .str e.executionId),
    ("tenant_id", .str e.tenantId), ("agent_id", e.agentId.elim .none .str),
    ("event_type", .str e.eventType.value), ("payload", .dict e.payload),
    ("created_at", .str (String.ofList (isoformat e.createdAt))),
    ("schema_version", .str e.schemaVersion)]

/-- The test under which a publisher passes over a subscriber. -/
def skips (eventTenant subTenant : String) : Bool :=
  subTenant ≠ "" && eventTenant ≠ "" && subTenant ≠ eventTenant

def Visible (eventTenant subTenant : String) : Prop :=
  eventTenant = "" ∨ subTenant = "" ∨ eventTenant = subTenant

instance (eventTenant subTenant : String) : Decidable (Visible eventTenant subTenant) :=
  inferInstanceAs (Decidable (_ ∨ _ ∨ _))

theorem skips_iff (eventTenant subTenant : String) :
    skips eventTenant subTenant = true ↔ ¬ Visible eventTenant subTenant := by
  rw [Visible, @eq_comm _ eventTenant subTenant]
  simp only [skips, Bool.and_eq_true, decide_eq_true_eq]
  tauto

theorem not_skips_iff (eventTenant subTenant : String) :
    (!skips eventTenant subTenant) = true ↔ Visible eventTenant subTenant := by
  rw [Bool.not_eq_true', ← Bool.not_eq_true, skips_iff, not_not]

structure InMemoryEventPublisher where
  subscribers : Broker String String Payload := {}

namespace InMemoryEventPublisher

def subscribe (p : InMemoryEventPublisher) (executionId tenantId : String) :
    InMemoryEventPublisher × Nat :=
  let (subscribers, queue) := p.subscribers.subscribe executionId tenantId
  (⟨subscribers⟩, queue)

def unsubscribe (p : InMemoryEventPublisher) (executionId : String) (queue : Nat) :
    InMemoryEventPublisher :=
  ⟨p.subscribers.unsubscribe executionId queue⟩

def publish (p : InMemoryEventPublisher) (event : ExecutionEvent) : InMemoryEventPublisher :=
  ⟨p.subscribers.deliver event.executionId (fun subTenant => !skips event.tenantId subTenant)
    event.toDict⟩

def close (p : InMemoryEventPublisher) (executionId : String) : InMemoryEventPublisher :=
  ⟨p.subscribers.close executionId⟩

def activeExecutions (p : InMemoryEventPublisher) : List String := p.subscribers.active

def closeAll (p : InMemoryEventPublisher) : InMemoryEventPublisher :=
  p.activeExecutions.foldl close p

def subscriberCount (p : InMemoryEventPublisher) (executionId : String) : Nat :=
  p.subscribers.count executionId

/-- All that was put into a queue, with `none` for the end marker. -/
def queue (p : InMemoryEventPublisher) (q : Nat) : Option (List (Option Payload)) :=
  p.subscribers.queue q

end InMemoryEventPublisher

/-- The calls of the publisher protocol. -/
inductive Call where
  | publish (event : ExecutionEvent)
  | subscribe (executionId tenantId : String)
  | unsubscribe (executionId : String) (queue : Nat)
  | close (executionId : String)
  | closeAll

namespace Call

def request : Call → Broker.Request String String Payload
  | publish event =>
      .deliver event.executionId (fun subTenant => !skips event.tenantId subTenant) event.toDict
  | subscribe executionId tenantId => .subscribe executionId tenantId
  | unsubscribe executionId queue => .unsubscribe executionId queue
  | close executionId => .close executionId
  | closeAll => .closeAll

def leaves (executionId : String) (queue : Nat) : Call → Bool
  | unsubscribe executionId' queue' => executionId' = executionId && queue' = queue
  | close executionId' => executionId' = executionId
  | closeAll => true
  | _ => false

def closes (executionId : String) : Call → Bool
  | close executionId' => executionId' = executionId
  | closeAll => true
  | _ => false

/-- The event that the call publishes, where a subscriber of the tenant may see it. -/
def shows (executionId tenantId : String) : Call → Option ExecutionEvent
  | publish event =>
      if event.executionId = executionId ∧ Visible event.tenantId tenantId then some event else none
  | _ => none

theorem leaves_request (executionId : String) (queue : Nat) (call : Call) :
    call.request.leaves executionId queue = call.leaves executionId queue := by
  cases call <;> rfl

theorem closes_request (executionId : String) (call : Call) :
    call.request.closes executionId = call.closes executionId := by
  cases call <;> rfl

theorem heard_request (executionId tenantId : String) (call : Call) :
    call.request.heard executionId tenantId =
      (call.shows executionId tenantId).map ExecutionEvent.toDict := by
  cases call with
  | publish event =>
    simp only [request, Broker.Request.heard, shows, not_skips_iff]
    split <;> rfl
  | _ => rfl

end Call

namespace InMemoryEventPublisher

def handle (p : InMemoryEventPublisher) : Call → InMemoryEventPublisher
  | .publish event => p.publish event
  | .subscribe executionId tenantId => (p.subscribe executionId tenantId).1
  | .unsubscribe executionId queue => p.unsubscribe executionId queue
  | .close executionId => p.close executionId
  | .closeAll => p.closeAll

def handleAll (p : InMemoryEventPublisher) (calls : List Call) : InMemoryEventPublisher :=
  calls.foldl handle p

theorem closeAll_subscribers (p : InMemoryEventPublisher) :
    p.closeAll.subscribers = p.subscribers.closeAll :=
  (List.foldl_hom InMemoryEventPublisher.subscribers fun _ _ => rfl).symm

theorem handle_subscribers (p : InMemoryEventPublisher) (call : Call) :
    (p.handle call).subscribers = p.subscribers.handle call.request := by
  cases call with
  | closeAll => exact p.closeAll_subscribers
  | _ => rfl

theorem handleAll_subscribers (p : InMemoryEventPublisher) (calls : List Call) :
    (p.handleAll calls).subscribers = p.subscribers.handleAll (calls.map Call.request) := by
  rw [Broker.handleAll, List.foldl_map]
  exact (List.foldl_hom InMemoryEventPublisher.subscribers fun p call =>
    (p.handle_subscribers call).symm).symm

end InMemoryEventPublisher

def attended (executionId : String) (queue : Nat) (later : List Call) : List Call :=
  later.takeWhile fun call => !call.leaves executionId queue

/-- The subscription of a queue ends, and because its execution is closed. -/
def closedWhile (executionId : String) (queue : Nat) (later : List Call) : Bool :=
  (later.find? (Call.leaves executionId queue)).any (Call.closes executionId)

/-- The events that a subscriber of an execution is due from the calls after it came. -/
def due (executionId tenantId : String) (queue : Nat) (later : List Call) : List ExecutionEvent :=
  (attended executionId queue later).filterMap (Call.shows executionId tenantId)

theorem content_requests (executionId tenantId : String) (queue : Nat) (later : List Call) :
    Broker.content executionId tenantId queue (later.map Call.request) =
      (due executionId tenantId queue later).map (fun event => some event.toDict) ++
        if closedWhile executionId queue later then [none] else [] := by
  have window : Broker.attended executionId queue (later.map Call.request) =
      (attended executionId queue later).map Call.request := by
    simp only [Broker.attended, attended, List.takeWhile_map, Function.comp_def,
      Call.leaves_request]
  have ended : Broker.closedWhile executionId queue (later.map Call.request) =
      closedWhile executionId queue later := by
    simp only [Broker.closedWhile, closedWhile, List.find?_map, Option.any_map, Function.comp_def,
      Call.leaves_request, Call.closes_request]
  have heard : ((attended executionId queue later).map Call.request).filterMap
      (Broker.Request.heard executionId tenantId) =
        (due executionId tenantId queue later).map ExecutionEvent.toDict := by
    simp only [due, List.filterMap_map, List.map_filterMap, Function.comp_def, Call.heard_request]
  rw [Broker.content, window, ended, heard, List.map_map]
  rfl

namespace InMemoryEventPublisher

/-- A queue holds the events that are due to it, each once and in order, and ends with
the marker exactly where its execution was closed while it was subscribed. -/
theorem queue_exact (before later : List Call) (executionId tenantId : String) :
    let p := ({} : InMemoryEventPublisher).handleAll before
    let queue := (p.subscribe executionId tenantId).2
    ((p.subscribe executionId tenantId).1.handleAll later).queue queue =
      some ((due executionId tenantId queue later).map (fun event => some event.toDict) ++
        if closedWhile executionId queue later then [none] else []) := by
  have numbered : (({} : InMemoryEventPublisher).handleAll before).subscribers.Numbered := by
    rw [handleAll_subscribers]
    exact Broker.Numbered.empty.handleAll _
  simp only [queue, handleAll_subscribers]
  rw [← content_requests]
  exact numbered.queue_history executionId tenantId _

end InMemoryEventPublisher
end Kitematic.Events
