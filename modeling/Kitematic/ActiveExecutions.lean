import Kitematic.PublisherAgreement
import Kitematic.Trace

/-! The executions that a publisher reports as active. A broker drops a topic when it is
closed, but not when its last subscriber leaves, and one that is left without ever
having been joined is added. -/

namespace Kitematic.Delivery.Broker
open Dictionary
variable {κ τ α : Type*} [DecidableEq κ]

/-- The active topics are those with subscribers. -/
def Exact (b : Broker κ τ α) : Prop := ∀ topic, topic ∈ b.active ↔ 0 < b.count topic

/-- An unsubscription finds another subscriber of the topic. -/
def LeavesOthers (b : Broker κ τ α) : Request κ τ α → Prop
  | .unsubscribe topic q => ∃ s ∈ b.subscribersOf topic, s.1 ≠ q
  | _ => True

theorem mem_active {b : Broker κ τ α} {topic : κ} :
    topic ∈ b.active ↔ (b.subscribers.get topic).isSome = true :=
  Dict.mem_keys

theorem mem_active_close {b : Broker κ τ α} {topic topic' : κ} :
    topic' ∈ (b.close topic).active ↔ topic' ∈ b.active ∧ topic' ≠ topic := by
  rw [mem_active, mem_active, close, Dict.get_erase]
  split
  next same => simp [same]
  next other => simp [other]

theorem active_closeAll (b : Broker κ τ α) : b.closeAll.active = [] := by
  have closed : ∀ (topics : List κ) (b : Broker κ τ α) topic,
      topic ∈ (topics.foldl close b).active → topic ∈ b.active ∧ topic ∉ topics := by
    intro topics
    induction topics with
    | nil => exact fun b topic member => ⟨member, List.not_mem_nil⟩
    | cons first topics ih =>
      intro b topic member
      obtain ⟨still, rest⟩ := ih (b.close first) topic member
      obtain ⟨before, other⟩ := mem_active_close.mp still
      exact ⟨before, by simp [other, rest]⟩
  refine List.eq_nil_iff_forall_not_mem.mpr fun topic member => ?_
  obtain ⟨active, rest⟩ := closed b.active b topic member
  exact rest active

theorem Exact.handle_iff {b : Broker κ τ α} (exact : b.Exact) (r : Request κ τ α) :
    (b.handle r).Exact ↔ b.LeavesOthers r := by
  cases r with
  | subscribe topic tag =>
    refine iff_of_true (fun topic' => ?_) trivial
    rw [handle, count, subscribersOf_subscribe, mem_active, subscribe, Dict.get_set]
    by_cases same : topic' = topic
    · simp [same]
    · simpa [same, count, ← mem_active] using exact topic'
  | unsubscribe topic q =>
    have others : 0 < ((b.subscribersOf topic).filter fun s => s.1 ≠ q).length ↔
        b.LeavesOthers (.unsubscribe topic q) := by
      simp [LeavesOthers, List.length_pos_iff_exists_mem]
    rw [← others]
    constructor
    · intro kept
      have now := (kept topic).mp (by simp [handle, unsubscribe, mem_active])
      simpa [handle, count] using now
    · intro left topic'
      rw [handle, count, subscribersOf_unsubscribe, mem_active, unsubscribe, Dict.get_set]
      by_cases same : topic' = topic
      · simpa [same] using left
      · simpa [same, count, ← mem_active] using exact topic'
  | deliver topic wants item => exact iff_of_true exact trivial
  | close topic =>
    refine iff_of_true (fun topic' => ?_) trivial
    rw [handle, mem_active_close, count, subscribersOf_close, exact topic']
    by_cases same : topic' = topic <;> simp [same, count]
  | closeAll =>
    refine iff_of_true (fun topic => ?_) trivial
    have none : topic ∉ b.closeAll.active := by simp [active_closeAll]
    rw [handle, count, subscribersOf_inactive none]
    simp [none]

/-- A party that serves its requests by a broker stays exact as long as every
unsubscription leaves another subscriber behind. -/
theorem exact_iff_leavesOthers {σ ε : Type*} {serve : σ → ε → σ} {broker : σ → Broker κ τ α}
    {request : ε → Request κ τ α}
    (serves : ∀ s e, broker (serve s e) = (broker s).handle (request e)) {s : σ}
    (exact : (broker s).Exact) (es : List ε) :
    Trace.AllStates (fun s e => some (serve s e)) (fun s => (broker s).Exact) s es ↔
      Trace.EachStep (fun s e => some (serve s e))
        (fun _ s e => (broker s).LeavesOthers (request e)) [] s es := by
  have ran : ∀ (es : List ε) s, ∃ t, Trace.run (fun s e => some (serve s e)) s es = some t := by
    intro es
    induction es with
    | nil => exact fun s => ⟨s, rfl⟩
    | cons e es ih => exact fun s => ih _
  obtain ⟨t, ran⟩ := ran es s
  refine @Trace.allStates_iff_eachStep _ _ _ (fun _ _ => True) _ _ (fun _ _ _ _ _ _ => trivial) ?_
    s t es [] trivial exact ran
  rintro past s e t _ exact ⟨⟩
  rw [serves]
  exact exact.handle_iff (request e)

end Kitematic.Delivery.Broker

namespace Kitematic.ActiveExecutions
open Delivery Events PublisherAgreement PyText RedisPublishers

/-- What a publisher reports: the executions with subscribers, each once, and none when
everybody has left. -/
structure Reports (active : List String) (count : String → Nat) : Prop where
  once : active.Nodup
  subscribed : ∀ executionId, executionId ∈ active ↔ 0 < count executionId
  empty : (∀ executionId, count executionId = 0) → active = []

theorem reports_iff {α : Type} (b : Broker String String α) :
    Reports b.active b.count ↔ b.Exact := by
  refine ⟨Reports.subscribed, fun exact => ⟨b.subscribers.nodup, exact, fun none => ?_⟩⟩
  refine List.eq_nil_iff_forall_not_mem.mpr fun executionId member => ?_
  exact absurd ((exact executionId).mp member) (by simp [none executionId])

/-- `publish(execution_id, event_dict)`, which only the publisher in memory takes. -/
def publishDict (p : InMemoryEventPublisher) (executionId : String) (eventDict : Payload) :
    InMemoryEventPublisher :=
  ⟨p.subscribers.deliver executionId (fun _ => true) eventDict⟩

inductive MemoryCall where
  | serve (call : Call)
  | publishDict (executionId : String) (eventDict : Payload)

def MemoryCall.request : MemoryCall → Broker.Request String String Payload
  | .serve call => call.request
  | .publishDict executionId eventDict => .deliver executionId (fun _ => true) eventDict

def inMemory (p : InMemoryEventPublisher) : MemoryCall → InMemoryEventPublisher
  | .serve call => p.handle call
  | .publishDict executionId eventDict => publishDict p executionId eventDict

def streamRequest (served : Served) : Broker.Request String String Payload :=
  match served.call with
  | .publish event =>
      .deliver event.executionId (fun subTenant => !skips event.tenantId subTenant)
        (streamData event served.timestamp)
  | call => call.request

theorem inMemory_serves (p : InMemoryEventPublisher) (call : MemoryCall) :
    (inMemory p call).subscribers = p.subscribers.handle call.request := by
  cases call with
  | serve call => exact p.handle_subscribers call
  | publishDict executionId eventDict => rfl

theorem streamed_serves (s : RedisStreamPublisher × Redis) (served : Served) :
    (streamed s served).1.localQueues = s.1.localQueues.handle (streamRequest served) := by
  unfold streamed streamRequest
  cases served.call with
  | closeAll => exact streamed_closeAll s.1
  | _ => rfl

/-- An `unsubscribe` finds another subscriber of its execution. -/
def LeavesOthers (subscribersOf : String → List (Nat × String)) : Call → Prop
  | .unsubscribe executionId queue => ∃ s ∈ subscribersOf executionId, s.1 ≠ queue
  | _ => True

def MemoryCall.LeavesOthers (subscribersOf : String → List (Nat × String)) : MemoryCall → Prop
  | .serve call => ActiveExecutions.LeavesOthers subscribersOf call
  | .publishDict _ _ => True

theorem leavesOthers_request (b : Broker String String Payload) (call : Call) :
    b.LeavesOthers call.request = LeavesOthers b.subscribersOf call := by
  cases call <;> rfl

theorem leavesOthers_streamRequest (b : Broker String String Payload) (served : Served) :
    b.LeavesOthers (streamRequest served) = LeavesOthers b.subscribersOf served.call := by
  unfold streamRequest
  cases served.call <;> rfl

theorem leavesOthers_memory (b : Broker String String Payload) (call : MemoryCall) :
    b.LeavesOthers call.request = call.LeavesOthers b.subscribersOf := by
  cases call with
  | serve call => exact leavesOthers_request b call
  | publishDict executionId eventDict => rfl

theorem exact_fresh : ({} : Broker String String Payload).Exact := by
  intro topic
  simp [Broker.mem_active, Broker.count, Broker.subscribersOf]

theorem inMemory_reports_iff (calls : List MemoryCall) :
    Trace.AllStates (fun p call => some (inMemory p call))
        (fun p => Reports p.activeExecutions p.subscriberCount) {} calls ↔
      Trace.EachStep (fun p call => some (inMemory p call))
        (fun _ p call => call.LeavesOthers p.subscribers.subscribersOf) [] {} calls := by
  have all := Broker.exact_iff_leavesOthers inMemory_serves exact_fresh calls
  simp only [← reports_iff, leavesOthers_memory] at all
  exact all

theorem pubSub_reports_iff (channelPrefix : String) (sent : Sent) (calls : List Served) :
    Trace.AllStates (fun s served => some (pubSub s served))
        (fun s => Reports s.1.activeExecutions s.1.subscriberCount) ({ channelPrefix }, sent) calls ↔
      Trace.EachStep (fun s served => some (pubSub s served))
        (fun _ s served => LeavesOthers s.1.localQueues.subscribersOf served.call) []
        ({ channelPrefix }, sent) calls := by
  have all := @Broker.exact_iff_leavesOthers _ _ _ _ _ _ pubSub
    (fun s : RedisEventPublisher × Sent => s.1.localQueues)
    (fun served => served.call.request) pubSub_localQueues ({ channelPrefix }, sent)
    exact_fresh calls
  simp only [← reports_iff, leavesOthers_request] at all
  exact all

theorem streamed_reports_iff (streamPrefix instanceId : String) (redis : Redis)
    (calls : List Served) :
    Trace.AllStates (fun s served => some (streamed s served))
        (fun s => Reports s.1.activeExecutions s.1.subscriberCount)
        ({ streamPrefix, instanceId }, redis) calls ↔
      Trace.EachStep (fun s served => some (streamed s served))
        (fun _ s served => LeavesOthers s.1.localQueues.subscribersOf served.call) []
        ({ streamPrefix, instanceId }, redis) calls := by
  have all := @Broker.exact_iff_leavesOthers _ _ _ _ _ _ streamed
    (fun s : RedisStreamPublisher × Redis => s.1.localQueues) streamRequest streamed_serves
    ({ streamPrefix, instanceId }, redis) exact_fresh calls
  simp only [← reports_iff, leavesOthers_streamRequest] at all
  exact all

/-- Each of the three publishers reports exactly the executions with subscribers, in every
state of a run, exactly when every `unsubscribe` leaves its execution another one. -/
theorem reports_iff_leavesOthers (memoryCalls : List MemoryCall) (calls : List Served)
    (channelPrefix streamPrefix instanceId : String) (sent : Sent) (redis : Redis) :
    (Trace.AllStates (fun p call => some (inMemory p call))
        (fun p => Reports p.activeExecutions p.subscriberCount) {} memoryCalls ↔
      Trace.EachStep (fun p call => some (inMemory p call))
        (fun _ p call => call.LeavesOthers p.subscribers.subscribersOf) [] {} memoryCalls) ∧
    (Trace.AllStates (fun s served => some (pubSub s served))
        (fun s => Reports s.1.activeExecutions s.1.subscriberCount) ({ channelPrefix }, sent) calls ↔
      Trace.EachStep (fun s served => some (pubSub s served))
        (fun _ s served => LeavesOthers s.1.localQueues.subscribersOf served.call) []
        ({ channelPrefix }, sent) calls) ∧
    (Trace.AllStates (fun s served => some (streamed s served))
        (fun s => Reports s.1.activeExecutions s.1.subscriberCount)
        ({ streamPrefix, instanceId }, redis) calls ↔
      Trace.EachStep (fun s served => some (streamed s served))
        (fun _ s served => LeavesOthers s.1.localQueues.subscribersOf served.call) []
        ({ streamPrefix, instanceId }, redis) calls) :=
  ⟨inMemory_reports_iff memoryCalls, pubSub_reports_iff channelPrefix sent calls,
    streamed_reports_iff streamPrefix instanceId redis calls⟩

/-- The only subscriber comes and goes, and the execution stays. -/
theorem abandoned_active :
    ¬ Trace.AllStates (fun p call => some (inMemory p call))
        (fun p => Reports p.activeExecutions p.subscriberCount) {}
        [.serve (.subscribe "exec-1" "acme"), .serve (.unsubscribe "exec-1" 0)] := by
  intro all
  have left := ((all.2 _ rfl).2 _ rfl).subscribed "exec-1"
  revert left
  decide +kernel

end Kitematic.ActiveExecutions
