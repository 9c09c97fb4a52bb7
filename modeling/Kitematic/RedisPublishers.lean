import Kitematic.Events
import Kitematic.Json
import Kitematic.Streams

/-! The two publishers over Redis, with its commands succeeding. One sends each event
as a JSON text on a channel; the other appends it to the stream of its execution,
from where consumer groups, one for each tenant, read it. Both deliver to queues of
their own process. -/

namespace Kitematic.RedisPublishers
open Delivery Events PyText StreamLog

abbrev Sent := List (String × String)

structure RedisEventPublisher where
  channelPrefix : String := "kitematic"
  localQueues : Broker String String Payload := {}

namespace RedisEventPublisher

def publish (p : RedisEventPublisher) (sent : Sent) (event : ExecutionEvent) :
    RedisEventPublisher × Sent :=
  let channel := p.channelPrefix ++ ":events:" ++ event.executionId
  let data := String.ofList (Json.write (.dict event.toDict))
  let localQueues := p.localQueues.deliver event.executionId
    (fun subTenant => !skips event.tenantId subTenant) event.toDict
  ({ p with localQueues }, sent ++ [(channel, data)])

def message (p : RedisEventPublisher) (event : ExecutionEvent) : String × String :=
  (p.channelPrefix ++ ":events:" ++ event.executionId,
    String.ofList (Json.write (.dict event.toDict)))

def deliver (p : RedisEventPublisher) (event : ExecutionEvent) : RedisEventPublisher :=
  { p with
    localQueues := p.localQueues.deliver event.executionId
      (fun subTenant => !skips event.tenantId subTenant) event.toDict }

theorem publish_eq (p : RedisEventPublisher) (sent : Sent) (event : ExecutionEvent) :
    p.publish sent event = (p.deliver event, sent ++ [p.message event]) := rfl

def subscribe (p : RedisEventPublisher) (executionId tenantId : String) :
    RedisEventPublisher × Nat :=
  let (localQueues, queue) := p.localQueues.subscribe executionId tenantId
  ({ p with localQueues }, queue)

def unsubscribe (p : RedisEventPublisher) (executionId : String) (queue : Nat) :
    RedisEventPublisher :=
  { p with localQueues := p.localQueues.unsubscribe executionId queue }

def close (p : RedisEventPublisher) (executionId : String) : RedisEventPublisher :=
  { p with localQueues := p.localQueues.close executionId }

def activeExecutions (p : RedisEventPublisher) : List String := p.localQueues.active

def closeAll (p : RedisEventPublisher) : RedisEventPublisher := p.activeExecutions.foldl close p

def subscriberCount (p : RedisEventPublisher) (executionId : String) : Nat :=
  p.localQueues.count executionId

def queue (p : RedisEventPublisher) (q : Nat) : Option (List (Option Payload)) :=
  p.localQueues.queue q

end RedisEventPublisher

abbrev Redis := Log String String String Payload

structure Message where
  stream : String
  id : Nat
  data : Payload

/-- A placeholder stands for the stream keys while there are none. -/
structure RedisStreamPublisher where
  streamPrefix : String := "kitematic"
  instanceId : String
  localQueues : Broker String String Payload := {}
  streamKeys : List String := []

/-- The length that `publish` asks to keep a stream at, more or less. -/
def maxlen : Nat := 10000

def streamData (event : ExecutionEvent) (timestamp : String) : Payload :=
  event.toDict ++
    [("__event_type__", .str event.eventType.value), ("__tenant_id__", .str event.tenantId),
      ("__agent_id__", .str (orElse event.agentId "")), ("__timestamp__", .str timestamp)]

namespace RedisStreamPublisher

def streamKey (p : RedisStreamPublisher) (executionId : String) : String :=
  p.streamPrefix ++ ":s:" ++ executionId

def groupName (p : RedisStreamPublisher) (tenantId : String) : String :=
  p.streamPrefix ++ ":g:" ++ orElse (some tenantId) "default"

def consumerName (p : RedisStreamPublisher) : String := p.streamPrefix ++ ":c:" ++ p.instanceId

/-- The first half of `publish`, up to the answer to its `XADD`. -/
def append (p : RedisStreamPublisher) (redis : Redis) (event : ExecutionEvent) (timestamp : String)
    (dropped : Nat) : Redis :=
  redis.add (p.streamKey event.executionId) (streamData event timestamp) dropped

def deliver (p : RedisStreamPublisher) (event : ExecutionEvent) (data : Payload) :
    RedisStreamPublisher :=
  let localQueues := p.localQueues.deliver event.executionId
    (fun subTenant => !skips event.tenantId subTenant) data
  { p with streamKeys := p.streamKeys.insert (p.streamKey event.executionId), localQueues }

def publish (p : RedisStreamPublisher) (redis : Redis) (event : ExecutionEvent)
    (timestamp : String) (dropped : Nat) : RedisStreamPublisher × Redis :=
  (p.deliver event (streamData event timestamp), p.append redis event timestamp dropped)

def subscribe (p : RedisStreamPublisher) (executionId tenantId : String) :
    RedisStreamPublisher × Nat :=
  let (localQueues, queue) := p.localQueues.subscribe executionId tenantId
  ({ p with localQueues }, queue)

def unsubscribe (p : RedisStreamPublisher) (executionId : String) (queue : Nat) :
    RedisStreamPublisher :=
  { p with localQueues := p.localQueues.unsubscribe executionId queue }

def close (p : RedisStreamPublisher) (executionId : String) : RedisStreamPublisher :=
  { p with
    streamKeys := p.streamKeys.filter (· ≠ p.streamKey executionId)
    localQueues := p.localQueues.close executionId }

def activeExecutions (p : RedisStreamPublisher) : List String := p.localQueues.active

def closeAll (p : RedisStreamPublisher) : RedisStreamPublisher := p.activeExecutions.foldl close p

def subscriberCount (p : RedisStreamPublisher) (executionId : String) : Nat :=
  p.localQueues.count executionId

def queue (p : RedisStreamPublisher) (q : Nat) : Option (List (Option Payload)) :=
  p.localQueues.queue q

/-- An existing group is left as it is. -/
def ensureConsumerGroup (p : RedisStreamPublisher) (redis : Redis) (tenantId : String) :
    Redis × String :=
  let group := p.groupName tenantId
  (p.streamKeys.foldl (fun redis stream => (redis.createGroup stream group).getD redis) redis,
    group)

def readKeys (p : RedisStreamPublisher) : List String :=
  if p.streamKeys ≠ [] then p.streamKeys else [p.streamPrefix ++ ":s:placeholder"]

def readMessages (p : RedisStreamPublisher) (redis : Redis) (tenantId : String) (count : Nat) :
    Redis × List Message :=
  match redis.readGroup (p.groupName tenantId) p.consumerName p.readKeys count with
  | none => (redis, [])
  | some (redis, results) =>
      (redis, results.flatMap fun (stream, entries) => entries.map fun (id, fields) =>
        { stream, id, data := fields })

def acknowledge (p : RedisStreamPublisher) (redis : Redis) (stream : String) (msgId : Nat)
    (tenantId : String) : Redis :=
  redis.ack stream (p.groupName tenantId) msgId

/-- The tenant is not looked at. -/
def replay (p : RedisStreamPublisher) (redis : Redis) (executionId _tenantId : String)
    (startId count : Nat) : List Message :=
  let stream := p.streamKey executionId
  ((redis.stream stream).range startId count).map fun (id, fields) =>
    { stream, id, data := fields }

def trim (p : RedisStreamPublisher) (redis : Redis) (executionId : String) (dropped : Nat) :
    Redis :=
  redis.trim (p.streamKey executionId) dropped

theorem ensure_invariant {I : Redis → Prop} (p : RedisStreamPublisher) (redis : Redis)
    (tenantId : String)
    (keeps : ∀ redis redis' stream,
      redis.createGroup stream (p.groupName tenantId) = some redis' → I redis → I redis')
    (holds : I redis) : I (p.ensureConsumerGroup redis tenantId).1 := by
  unfold ensureConsumerGroup
  generalize p.streamKeys = keys
  induction keys generalizing redis with
  | nil => exact holds
  | cons stream keys ih =>
    refine ih _ ?_
    cases created : redis.createGroup stream (p.groupName tenantId) with
    | none => simpa [created] using holds
    | some redis' => simpa [created] using keeps redis redis' stream created holds

theorem ensure_entries (p : RedisStreamPublisher) (redis : Redis) (tenantId k : String) :
    ((p.ensureConsumerGroup redis tenantId).1.stream k).entries = (redis.stream k).entries :=
  p.ensure_invariant (I := fun after => (after.stream k).entries = (redis.stream k).entries)
    redis tenantId (fun _ _ _ created same => (Log.entries_createGroup created k).trans same) rfl

theorem ensure_stored (p : RedisStreamPublisher) (redis : Redis) (tenantId : String)
    {k group : String} {g : ConsumerGroup String}
    (stored : (redis.stream k).groups group = some g) :
    ((p.ensureConsumerGroup redis tenantId).1.stream k).groups group = some g :=
  p.ensure_invariant (I := fun after => (after.stream k).groups group = some g) redis tenantId
    (fun _ _ _ created same => Log.groups_createGroup_stored created same) stored

theorem ensure_ordered (p : RedisStreamPublisher) {redis : Redis} (tenantId : String)
    (ordered : redis.Ordered) : (p.ensureConsumerGroup redis tenantId).1.Ordered :=
  p.ensure_invariant (I := Log.Ordered) redis tenantId
    (fun _ _ _ created before => Log.Ordered.createGroup before created) ordered

end RedisStreamPublisher
end Kitematic.RedisPublishers
