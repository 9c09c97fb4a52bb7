import Kitematic.RedisPublishers
import Kitematic.Trace

/-! Stream publishers of several processes on one Redis server. A publish call is two
steps, its `XADD` and what its instance does with the answer; every other call takes
effect at once. A reader may acknowledge messages before anything else runs. -/

namespace Kitematic.StreamRuns
open Events PyText RedisPublishers StreamLog

/-- A publish call whose entry is appended. It is due to the consumers of its tenant if
their group had been ensured before. -/
structure Publishing where
  owner : Nat
  event : ExecutionEvent
  data : Payload
  id : Nat
  due : Bool

structure Awaited where
  tenantId : String
  group : String
  stream : String
  id : Nat

/-- `none` stands for an instance that has crashed; `ensured` keeps for which stream
prefix and tenant `ensure_consumer_group` has returned. -/
structure World where
  redis : Redis := {}
  instances : List (Option RedisStreamPublisher) := []
  publishing : List Publishing := []
  ensured : List (String × String) := []
  awaited : List Awaited := []

inductive Action where
  | append (event : ExecutionEvent) (timestamp : String) (dropped : Nat)
  | subscribe (executionId tenantId : String)
  | unsubscribe (executionId : String) (queue : Nat)
  | close (executionId : String)
  | closeAll
  | ensure (tenantId : String)
  | read (tenantId : String) (count : Nat) (processed : List (String × Nat))
  | acknowledge (tenantId stream : String) (msgId : Nat)
  | trim (executionId : String) (length dropped : Nat)
  | crash

inductive Event where
  | start (streamPrefix instanceId : String)
  | act (i : Nat) (action : Action)
  | finish (n : Nat)

/-- The instance of a number, unless it has crashed. -/
def live (instances : List (Option RedisStreamPublisher)) (i : Nat) :
    Option RedisStreamPublisher :=
  instances[i]?.join

def Publishing.awaits (call : Publishing) (p : RedisStreamPublisher) : List Awaited :=
  if call.due then
    [{ tenantId := call.event.tenantId
       group := p.groupName call.event.tenantId
       stream := p.streamKey call.event.executionId
       id := call.id }]
  else []

namespace World

def replace (w : World) (i : Nat) (p : Option RedisStreamPublisher) : World :=
  { w with instances := w.instances.set i p }

/-- What an instance does; a stream drops entries only beyond the length asked for. -/
def act (w : World) (i : Nat) (p : RedisStreamPublisher) : Action → Option World
  | .append event timestamp dropped =>
      let stream := w.redis.stream (p.streamKey event.executionId)
      if dropped ≤ stream.entries.length + 1 - maxlen then
        let call : Publishing :=
          { owner := i, event, data := streamData event timestamp, id := stream.lastId + 1
            due := (p.streamPrefix, event.tenantId) ∈ w.ensured }
        some { w with
          redis := p.append w.redis event timestamp dropped
          publishing := w.publishing ++ [call] }
      else none
  | .subscribe executionId tenantId =>
      some (w.replace i (some (p.subscribe executionId tenantId).1))
  | .unsubscribe executionId queue => some (w.replace i (some (p.unsubscribe executionId queue)))
  | .close executionId => some (w.replace i (some (p.close executionId)))
  | .closeAll => some (w.replace i (some p.closeAll))
  | .ensure tenantId =>
      some { w with
        redis := (p.ensureConsumerGroup w.redis tenantId).1
        ensured := (p.streamPrefix, tenantId) :: w.ensured }
  | .read tenantId count processed =>
      if 0 < count then
        let (redis, _) := p.readMessages w.redis tenantId count
        some { w with
          redis := processed.foldl (fun redis m => p.acknowledge redis m.1 m.2 tenantId) redis }
      else none
  | .acknowledge tenantId stream msgId =>
      some { w with redis := p.acknowledge w.redis stream msgId tenantId }
  | .trim executionId length dropped =>
      if dropped ≤ (w.redis.stream (p.streamKey executionId)).entries.length - length then
        some { w with redis := p.trim w.redis executionId dropped }
      else none
  | .crash =>
      some { w.replace i none with publishing := w.publishing.filter fun call => call.owner ≠ i }

def finish (w : World) (n : Nat) (call : Publishing) (p : RedisStreamPublisher) : World :=
  { w.replace call.owner (some (p.deliver call.event call.data)) with
    publishing := w.publishing.eraseIdx n
    awaited := w.awaited ++ call.awaits p }

def step (w : World) : Event → Option World
  | .start streamPrefix instanceId =>
      some { w with instances := w.instances ++ [some { streamPrefix, instanceId }] }
  | .act i action => (live w.instances i).bind fun p => w.act i p action
  | .finish n =>
      w.publishing[n]?.bind fun call =>
        (live w.instances call.owner).map fun p => w.finish n call p

theorem step_append {w : World} {i : Nat} {p : RedisStreamPublisher}
    (alive : live w.instances i = some p) (event : ExecutionEvent) (timestamp : String) :
    let call : Publishing :=
      { owner := i, event, data := streamData event timestamp
        id := (w.redis.stream (p.streamKey event.executionId)).lastId + 1
        due := (p.streamPrefix, event.tenantId) ∈ w.ensured }
    w.step (.act i (.append event timestamp 0)) =
      some { w with
        redis := p.append w.redis event timestamp 0
        publishing := w.publishing ++ [call] } := by
  simp [step, alive, act]

end World
end Kitematic.StreamRuns
