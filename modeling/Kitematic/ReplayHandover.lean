import Kitematic.RedisPublishers
import Kitematic.PublisherAgreement
import Kitematic.Trace
import Mathlib.Data.List.Perm.Subperm

/-! A subscriber that replays the stream after it subscribed, among any number of
publish calls. A call appends its entry and delivers it later, and both reads may
fall between the two. What was appended is in the replay, in the queue, or still in
flight to the queue. -/

namespace Kitematic.ReplayHandover
open Delivery Events PyText RedisPublishers StreamLog Trace

/-- One stream publisher: the publish calls whose entry is appended, the queue of the
subscriber and what the replay gave it. -/
structure World where
  publisher : RedisStreamPublisher
  redis : Redis
  inFlight : List (ExecutionEvent × Payload) := []
  queue : Option Nat := none
  replayed : Option (List Message) := none

inductive Event where
  | append (event : ExecutionEvent) (timestamp : String) (dropped : Nat)
  | deliver (n : Nat)
  | subscribe
  | replay (count : Nat)

section
variable (executionId tenantId : String)

/-- The subscriber's stream is below its cap whenever a publish call appends. -/
def step (w : World) : Event → Option World
  | .append event timestamp dropped =>
      let stream := w.redis.stream (w.publisher.streamKey event.executionId)
      let own := w.redis.stream (w.publisher.streamKey executionId)
      if dropped ≤ stream.entries.length + 1 - maxlen ∧ own.entries.length < maxlen then
        some { w with
          redis := w.publisher.append w.redis event timestamp dropped
          inFlight := w.inFlight ++ [(event, streamData event timestamp)] }
      else none
  | .deliver n =>
      w.inFlight[n]?.map fun call =>
        { w with
          publisher := w.publisher.deliver call.1 call.2
          inFlight := w.inFlight.eraseIdx n }
  | .subscribe =>
      match w.queue with
      | some _ => none
      | none =>
          let (publisher, queue) := w.publisher.subscribe executionId tenantId
          some { w with publisher, queue := some queue }
  | .replay count =>
      match w.queue, w.replayed with
      | some _, none =>
          let stream := w.redis.stream (w.publisher.streamKey executionId)
          if stream.entries.length ≤ count then
            some { w with
              replayed := some (w.publisher.replay w.redis executionId tenantId 0 count) }
          else none
      | _, _ => none

def shown (call : ExecutionEvent × Payload) : Option Payload :=
  if call.1.executionId = executionId ∧ Visible call.1.tenantId tenantId then some call.2 else none

def published : Event → Option Payload
  | .append event timestamp _ => shown executionId tenantId (event, streamData event timestamp)
  | _ => none

end

def start (streamPrefix instanceId : String) (redis : Redis)
    (before : List PublisherAgreement.Served) : World :=
  let s := before.foldl PublisherAgreement.streamed ({ streamPrefix, instanceId }, redis)
  { publisher := s.1, redis := s.2 }

variable {executionId tenantId : String}

def Subscribed (executionId tenantId : String) (w : World) : Prop :=
  w.publisher.localQueues.Numbered ∧
    ∀ q, w.queue = some q → (q, tenantId) ∈ w.publisher.localQueues.subscribersOf executionId

/-- Where an event that was published is to be found, before and after the replay. -/
def Accounted (executionId tenantId : String) (seen : List Payload) (w : World) : Prop :=
  match w.replayed with
  | none =>
      seen.Sublist
        ((w.redis.stream (w.publisher.streamKey executionId)).entries.map Prod.snd)
  | some messages => ∃ q items, w.queue = some q ∧ w.publisher.queue q = some items ∧
      seen.Subperm (messages.map Message.data ++
        (items.filterMap id ++ w.inFlight.filterMap (shown executionId tenantId)))

theorem deliver_queue {p : RedisStreamPublisher} (numbered : p.localQueues.Numbered) {q : Nat}
    (subscribed : (q, tenantId) ∈ p.localQueues.subscribersOf executionId)
    (call : ExecutionEvent × Payload) :
    (q, tenantId) ∈ (p.deliver call.1 call.2).localQueues.subscribersOf executionId ∧
      (p.deliver call.1 call.2).queue q =
        (p.queue q).map (· ++ (shown executionId tenantId call).toList.map some) := by
  let request : Broker.Request String String Payload := .deliver call.1.executionId
    (fun subTenant => !skips call.1.tenantId subTenant) call.2
  have heard : request.heard executionId tenantId = shown executionId tenantId call := by
    simp only [request, Broker.Request.heard, shown, not_skips_iff]
  rw [← heard]
  exact numbered.handle_stays subscribed (r := request) rfl

theorem step_subscribed {w t : World} (event : Event) (h : Subscribed executionId tenantId w)
    (stepped : step executionId tenantId w event = some t) : Subscribed executionId tenantId t := by
  obtain ⟨numbered, subscribed⟩ := h
  cases event with
  | append event timestamp dropped =>
    simp only [step, Option.ite_none_right_eq_some, Option.some.injEq] at stepped
    obtain ⟨_, rfl⟩ := stepped
    exact ⟨numbered, subscribed⟩
  | deliver n =>
    obtain ⟨call, _, rfl⟩ := Option.map_eq_some_iff.mp stepped
    have kept : (w.publisher.deliver call.1 call.2).localQueues.Numbered :=
      numbered.deliver call.1.executionId (fun subTenant => !skips call.1.tenantId subTenant) call.2
    exact ⟨kept, fun q known => (deliver_queue numbered (subscribed q known) call).1⟩
  | subscribe =>
    simp only [step] at stepped
    split at stepped
    · cases stepped
    · cases stepped
      refine ⟨numbered.subscribe executionId tenantId, fun q known => ?_⟩
      cases known
      simp [RedisStreamPublisher.subscribe, Broker.subscribe, Broker.subscribersOf]
  | replay count =>
    simp only [step] at stepped
    split at stepped
    · simp only [Option.ite_none_right_eq_some, Option.some.injEq] at stepped
      obtain ⟨_, rfl⟩ := stepped
      exact ⟨numbered, subscribed⟩
    · cases stepped

/-- An entry goes to the end of the stream of its own execution, and below the cap
nothing is dropped for it. -/
theorem appended_sublist {p : RedisStreamPublisher} {redis : Redis} {seen : List Payload}
    (before : seen.Sublist ((redis.stream (p.streamKey executionId)).entries.map Prod.snd))
    {event : ExecutionEvent} {dropped : Nat}
    (kept : dropped ≤ (redis.stream (p.streamKey event.executionId)).entries.length + 1 - maxlen)
    (below : (redis.stream (p.streamKey executionId)).entries.length < maxlen)
    (timestamp : String) :
    (seen ++ (shown executionId tenantId (event, streamData event timestamp)).toList).Sublist
      (((p.append redis event timestamp dropped).stream (p.streamKey executionId)).entries.map
        Prod.snd) := by
  by_cases same : p.streamKey executionId = p.streamKey event.executionId
  · have none : dropped = 0 := by
      rw [← same] at kept
      omega
    have grown : ((p.append redis event timestamp dropped).stream
        (p.streamKey executionId)).entries.map Prod.snd =
          (redis.stream (p.streamKey executionId)).entries.map Prod.snd ++
            [streamData event timestamp] := by
      simp [RedisStreamPublisher.append, Log.add, Stream.add, same, none]
    rw [grown]
    refine before.append ?_
    unfold shown
    split
    · exact .refl _
    · exact List.nil_sublist _
  · have elsewhere : event.executionId ≠ executionId := fun equal => same (by rw [equal])
    simpa [shown, elsewhere, RedisStreamPublisher.append, Log.add, same] using before

theorem covered_deliver {inFlight : List (ExecutionEvent × Payload)} {n : Nat}
    {call : ExecutionEvent × Payload} (found : inFlight[n]? = some call)
    (items : List (Option Payload)) :
    (items.filterMap id ++ inFlight.filterMap (shown executionId tenantId)).Perm
      ((items ++ (shown executionId tenantId call).toList.map some).filterMap id ++
        (inFlight.eraseIdx n).filterMap (shown executionId tenantId)) := by
  obtain ⟨inside, rfl⟩ := List.getElem?_eq_some_iff.mp found
  have moved := ((List.getElem_cons_eraseIdx_perm inside).filterMap
    (shown executionId tenantId)).symm
  have first : (inFlight[n] :: inFlight.eraseIdx n).filterMap (shown executionId tenantId) =
      (shown executionId tenantId inFlight[n]).toList ++
        (inFlight.eraseIdx n).filterMap (shown executionId tenantId) := by
    rw [List.filterMap_cons]
    cases shown executionId tenantId inFlight[n] <;> rfl
  rw [List.filterMap_append, List.append_assoc]
  refine .append_left _ ?_
  rw [first] at moved
  simpa [List.filterMap_map] using moved

theorem step_accounted {w t : World} (event : Event) {seen : List Payload}
    (h : Subscribed executionId tenantId w) (accounted : Accounted executionId tenantId seen w)
    (stepped : step executionId tenantId w event = some t) :
    Accounted executionId tenantId (seen ++ (published executionId tenantId event).toList) t := by
  obtain ⟨numbered, subscribed⟩ := h
  cases event with
  | append event timestamp dropped =>
    simp only [step, Option.ite_none_right_eq_some, Option.some.injEq] at stepped
    obtain ⟨⟨kept, below⟩, rfl⟩ := stepped
    let call := (event, streamData event timestamp)
    have new : published executionId tenantId (.append event timestamp dropped) =
        shown executionId tenantId call := rfl
    rw [new]
    cases replayed : w.replayed with
    | none =>
      simp only [Accounted, replayed] at accounted ⊢
      exact appended_sublist accounted kept below timestamp
    | some messages =>
      simp only [Accounted, replayed] at accounted ⊢
      obtain ⟨q, items, known, held, covered⟩ := accounted
      refine ⟨q, items, known, held, ?_⟩
      rw [List.filterMap_append, ← List.append_assoc, ← List.append_assoc]
      rw [← List.append_assoc] at covered
      refine covered.append ?_
      cases given : shown executionId tenantId call <;> simp [given, call]
  | deliver n =>
    obtain ⟨call, found, rfl⟩ := Option.map_eq_some_iff.mp stepped
    cases replayed : w.replayed with
    | none =>
      simp only [Accounted, replayed, published, Option.toList_none, List.append_nil]
        at accounted ⊢
      exact accounted
    | some messages =>
      simp only [Accounted, replayed, published, Option.toList_none, List.append_nil]
        at accounted ⊢
      obtain ⟨q, items, known, held, covered⟩ := accounted
      have given := (deliver_queue numbered (subscribed q known) call).2
      rw [held] at given
      have moved := (@covered_deliver executionId tenantId _ _ _ found items).append_left
        (messages.map Message.data)
      exact ⟨q, _, known, given, moved.subperm_left.mp covered⟩
  | subscribe =>
    simp only [step] at stepped
    split at stepped
    · cases stepped
    · rename_i unsubscribed
      cases stepped
      cases replayed : w.replayed with
      | none =>
        simp only [Accounted, replayed, published, Option.toList_none, List.append_nil]
          at accounted ⊢
        exact accounted
      | some messages =>
        simp only [Accounted, replayed] at accounted
        obtain ⟨q, _, known, _⟩ := accounted
        rw [unsubscribed] at known
        cases known
  | replay count =>
    simp only [step] at stepped
    split at stepped
    · rename_i q subscribedNow notYet
      simp only [Option.ite_none_right_eq_some, Option.some.injEq] at stepped
      obtain ⟨enough, rfl⟩ := stepped
      simp only [Accounted, notYet, published, Option.toList_none, List.append_nil] at accounted ⊢
      have stored := subscribed q subscribedNow
      obtain ⟨items, held⟩ := Option.isSome_iff_exists.mp
        (Broker.queue_isSome.mpr (numbered.known executionId _ stored))
      refine ⟨q, items, subscribedNow, held, ?_⟩
      have whole : (w.publisher.replay w.redis executionId tenantId 0 count).map Message.data =
          (w.redis.stream (w.publisher.streamKey executionId)).entries.map Prod.snd := by
        simp [RedisStreamPublisher.replay, Stream.range_all enough]
      rw [whole]
      exact (accounted.trans (List.sublist_append_left _ _)).subperm
    · cases stepped

theorem run_accounted {w t : World} {events : List Event} {seen : List Payload}
    (h : Subscribed executionId tenantId w) (accounted : Accounted executionId tenantId seen w)
    (ran : run (step executionId tenantId) w events = some t) :
    Accounted executionId tenantId
      (seen ++ events.filterMap (published executionId tenantId)) t := by
  induction events generalizing w seen with
  | nil =>
    cases ran
    simpa using accounted
  | cons event events ih =>
    obtain ⟨middle, first, rest⟩ := run_cons ran
    have later := ih (step_subscribed event h first) (step_accounted event h accounted first) rest
    rw [List.append_assoc] at later
    rw [List.filterMap_cons]
    cases shownNow : published executionId tenantId event <;>
      simpa [shownNow] using later

theorem start_subscribed (streamPrefix instanceId : String) (redis : Redis)
    (before : List PublisherAgreement.Served) :
    Subscribed executionId tenantId (start streamPrefix instanceId redis before) := by
  refine ⟨?_, fun q known => absurd known (Option.some_ne_none _).symm⟩
  have mapped := PublisherAgreement.streamed_run ({ streamPrefix, instanceId }, redis) before
  refine Broker.Numbered.of_map (f := PublisherAgreement.withoutAdded) ?_
  rw [start, mapped]
  exact Broker.Numbered.empty.handleAll _

/-- With no call in flight, each event that was published and that the subscriber may see
is in the replay or in the queue, as often as it was published. -/
theorem nothing_between (streamPrefix instanceId : String) (redis : Redis)
    (before : List PublisherAgreement.Served) {events : List Event} {w : World}
    {messages : List Message}
    (ran : run (step executionId tenantId) (start streamPrefix instanceId redis before) events =
      some w)
    (finished : w.inFlight = []) (replayed : w.replayed = some messages) :
    ∃ q items, w.queue = some q ∧ w.publisher.queue q = some items ∧
      (events.filterMap (published executionId tenantId)).Subperm
        (messages.map Message.data ++ items.filterMap id) := by
  have accounted := run_accounted (start_subscribed streamPrefix instanceId redis before)
    (List.nil_sublist _) ran
  simp only [Accounted, replayed, finished, List.nil_append] at accounted
  simpa using accounted

def overlapping : List Event :=
  let event (eventId : String) : ExecutionEvent :=
    { eventId, executionId := "exec-1", tenantId := "acme"
      createdAt := IsoDate.epoch }
  [.append (event "evt-1") "1.0" 0, .subscribe, .append (event "evt-2") "2.0" 0, .deliver 1,
    .replay 10, .append (event "evt-3") "3.0" 0, .deliver 0, .deliver 0]

theorem nothing_between_overlapping :
    ∃ (w : World) (messages : List Message) (q : Nat) (items : List (Option Payload)),
      run (step "exec-1" "acme") (start "kitematic" "inst-1" {} []) overlapping = some w ∧
        w.replayed = some messages ∧ messages.length = 2 ∧
        w.queue = some q ∧ w.publisher.queue q = some items ∧
        (overlapping.filterMap (published "exec-1" "acme")).Subperm
          (messages.map Message.data ++ items.filterMap id) := by
  let outcome := run (step "exec-1" "acme") (start "kitematic" "inst-1" {} []) overlapping
  let w := outcome.get (by decide +kernel)
  have ran : outcome = some w := (Option.some_get _).symm
  have finished : w.inFlight = [] := List.isEmpty_iff.mp (by decide +kernel)
  let messages := w.replayed.get (by decide +kernel)
  have replayed : w.replayed = some messages := (Option.some_get _).symm
  obtain ⟨q, items, known, held, covered⟩ := nothing_between "kitematic" "inst-1" {} [] ran finished
    replayed
  exact ⟨w, messages, q, items, ran, replayed, by decide +kernel, known, held, covered⟩

end Kitematic.ReplayHandover
