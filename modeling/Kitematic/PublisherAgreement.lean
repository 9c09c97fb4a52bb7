import Kitematic.RedisPublishers

/-! The three publishers serve one protocol alike: called in turn with the same calls,
their queues hold the same items, up to the fields that go with an entry of a stream,
and they report the same executions and subscribers. -/

namespace Kitematic.PublisherAgreement
open Delivery Events PyText RedisPublishers

structure Served where
  call : Call
  timestamp : String
  dropped : Nat

def pubSub (s : RedisEventPublisher × Sent) (served : Served) : RedisEventPublisher × Sent :=
  match served.call with
  | .publish event => s.1.publish s.2 event
  | .subscribe executionId tenantId => ((s.1.subscribe executionId tenantId).1, s.2)
  | .unsubscribe executionId queue => (s.1.unsubscribe executionId queue, s.2)
  | .close executionId => (s.1.close executionId, s.2)
  | .closeAll => (s.1.closeAll, s.2)

def streamed (s : RedisStreamPublisher × Redis) (served : Served) : RedisStreamPublisher × Redis :=
  match served.call with
  | .publish event => s.1.publish s.2 event served.timestamp served.dropped
  | .subscribe executionId tenantId => ((s.1.subscribe executionId tenantId).1, s.2)
  | .unsubscribe executionId queue => (s.1.unsubscribe executionId queue, s.2)
  | .close executionId => (s.1.close executionId, s.2)
  | .closeAll => (s.1.closeAll, s.2)

def withoutAdded (data : Payload) : Payload :=
  data.filter fun field =>
    field.1 ∉ ["__event_type__", "__tenant_id__", "__agent_id__", "__timestamp__"]

theorem withoutAdded_streamData (event : ExecutionEvent) (timestamp : String) :
    withoutAdded (streamData event timestamp) = event.toDict := by
  simp [withoutAdded, streamData, ExecutionEvent.toDict]

theorem pubSub_closeAll (p : RedisEventPublisher) :
    p.closeAll.localQueues = p.localQueues.closeAll :=
  (List.foldl_hom RedisEventPublisher.localQueues fun _ _ => rfl).symm

theorem streamed_closeAll (p : RedisStreamPublisher) :
    p.closeAll.localQueues = p.localQueues.closeAll :=
  (List.foldl_hom RedisStreamPublisher.localQueues fun _ _ => rfl).symm

theorem pubSub_localQueues (s : RedisEventPublisher × Sent) (served : Served) :
    (pubSub s served).1.localQueues = s.1.localQueues.handle served.call.request := by
  unfold pubSub
  cases served.call with
  | closeAll => exact pubSub_closeAll s.1
  | _ => rfl

theorem streamed_localQueues (s : RedisStreamPublisher × Redis) (served : Served) :
    (streamed s served).1.localQueues.map withoutAdded =
      (s.1.localQueues.map withoutAdded).handle served.call.request := by
  unfold streamed
  cases served.call with
  | publish event =>
    refine (Broker.map_deliver withoutAdded _ _ _ _).trans ?_
    rw [withoutAdded_streamData]
    rfl
  | subscribe executionId tenantId => exact Broker.map_subscribe withoutAdded _ _ _
  | unsubscribe executionId queue => rfl
  | close executionId => exact Broker.map_close withoutAdded _ _
  | closeAll =>
    rw [streamed_closeAll]
    exact Broker.map_closeAll withoutAdded _

/-- What an observer of the three sees: the items of each queue, the queue that a
subscriber gets, the executions and the counts. -/
structure Agree (memory : InMemoryEventPublisher) (redis : RedisEventPublisher)
    (stream : RedisStreamPublisher) : Prop where
  redisQueues : ∀ q, redis.queue q = memory.queue q
  streamQueues : ∀ q, (stream.queue q).map (List.map (Option.map withoutAdded)) = memory.queue q
  redisNext : ∀ executionId tenantId,
    (redis.subscribe executionId tenantId).2 = (memory.subscribe executionId tenantId).2
  streamNext : ∀ executionId tenantId,
    (stream.subscribe executionId tenantId).2 = (memory.subscribe executionId tenantId).2
  redisCount : ∀ executionId,
    redis.subscriberCount executionId = memory.subscriberCount executionId
  streamCount : ∀ executionId,
    stream.subscriberCount executionId = memory.subscriberCount executionId
  redisActive : redis.activeExecutions = memory.activeExecutions
  streamActive : stream.activeExecutions = memory.activeExecutions

theorem agree_of_brokers {memory : InMemoryEventPublisher} {redis : RedisEventPublisher}
    {stream : RedisStreamPublisher} (alike : redis.localQueues = memory.subscribers)
    (mapped : stream.localQueues.map withoutAdded = memory.subscribers) :
    Agree memory redis stream where
  redisQueues q := congrArg (fun b => b.queue q) alike
  streamQueues q := List.getElem?_map.symm.trans (congrArg (fun b => b.queue q) mapped)
  redisNext _ _ := congrArg (fun b => b.queues.length) alike
  streamNext _ _ := (List.length_map _).symm.trans (congrArg (fun b => b.queues.length) mapped)
  redisCount executionId := congrArg (fun b => b.count executionId) alike
  streamCount executionId := congrArg (fun b => b.count executionId) mapped
  redisActive := congrArg (fun b => b.active) alike
  streamActive := congrArg (fun b => b.active) mapped

theorem pubSub_run (s : RedisEventPublisher × Sent) (calls : List Served) :
    (calls.foldl pubSub s).1.localQueues =
      s.1.localQueues.handleAll (calls.map fun served => served.call.request) := by
  rw [Broker.handleAll, List.foldl_map]
  exact (@List.foldl_hom _ _ _ (fun s => s.1.localQueues) pubSub
    (fun b served => b.handle served.call.request) calls s
    fun s served => (pubSub_localQueues s served).symm).symm

theorem streamed_run (s : RedisStreamPublisher × Redis) (calls : List Served) :
    (calls.foldl streamed s).1.localQueues.map withoutAdded =
      (s.1.localQueues.map withoutAdded).handleAll
        (calls.map fun served => served.call.request) := by
  rw [Broker.handleAll, List.foldl_map]
  exact (@List.foldl_hom _ _ _ (fun s => s.1.localQueues.map withoutAdded) streamed
    (fun b served => b.handle served.call.request) calls s
    fun s served => (streamed_localQueues s served).symm).symm

/-- After any calls, over any Redis server and from new publishers of any names. -/
theorem publishers_agree (channelPrefix streamPrefix instanceId : String) (sent : Sent)
    (redis : Redis) (calls : List Served) :
    Agree (({} : InMemoryEventPublisher).handleAll (calls.map Served.call))
      (calls.foldl pubSub ({ channelPrefix }, sent)).1
      (calls.foldl streamed ({ streamPrefix, instanceId }, redis)).1 := by
  have memory : (({} : InMemoryEventPublisher).handleAll (calls.map Served.call)).subscribers =
      ({} : Broker String String Payload).handleAll
        (calls.map fun served => served.call.request) := by
    rw [InMemoryEventPublisher.handleAll_subscribers, List.map_map]
    rfl
  exact agree_of_brokers ((pubSub_run _ calls).trans memory.symm)
    ((streamed_run _ calls).trans memory.symm)

end Kitematic.PublisherAgreement
