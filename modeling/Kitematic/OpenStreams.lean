import Kitematic.EventSockets
import Mathlib.Data.List.TakeWhile

/-! Streams that stay open. Nothing takes the queue of a stream from the publisher but the
end of its own connection and the close of its execution, so while neither comes the
client is due every visible event. -/

namespace Kitematic.EventSockets.Hub
open Delivery Events PyText Trace

variable {h h' : Hub}

def announcements (actions : List Action) : List ExecutionEvent :=
  actions.filterMap fun
    | .publish event => some event
    | _ => none

def published : Call → Option ExecutionEvent
  | .publish event => some event
  | _ => none

theorem filterMap_published_call (h : Hub) (a : Action) :
    (h.call a).toList.filterMap published = announcements [a] := by
  cases a with
  | accept k => cases found : h.sockets[k]? <;> simp [call, found, published, announcements]
  | disconnect k =>
    cases found : h.sockets[k]? with
    | none => simp [call, found, announcements]
    | some socket =>
      cases streaming : socket.stream <;>
        simp [call, found, streaming, published, announcements]
  | _ => rfl

theorem filterMap_published_calls {actions : List Action}
    (ran : Trace.run Hub.step h actions = some h') :
    (h.calls actions).filterMap published = announcements actions := by
  induction actions generalizing h with
  | nil => rfl
  | cons a actions ih =>
    obtain ⟨middle, first, rest⟩ := Trace.run_cons ran
    rw [calls, first, Option.map_some, Option.getD_some, List.filterMap_append,
      filterMap_published_call, ih rest, announcements, announcements, ← List.filterMap_append]
    rfl

/-- What a tenant may see of the events of an execution. -/
def visible (executionId tenantId : String) (events : List ExecutionEvent) : List ExecutionEvent :=
  events.filter fun event => decide (event.executionId = executionId ∧ Visible event.tenantId tenantId)

theorem filterMap_shows (executionId tenantId : String) (calls : List Call) :
    calls.filterMap (Call.shows executionId tenantId) =
      visible executionId tenantId (calls.filterMap published) := by
  rw [visible, List.filter_filterMap]
  refine List.filterMap_congr fun call _ => ?_
  cases call with
  | publish event => simp only [Call.shows, published, Option.filter, decide_eq_true_eq]
  | _ => rfl

theorem due_sublist {actions : List Action} (ran : Trace.run Hub.step h actions = some h')
    (executionId tenantId : String) (queue : Nat) :
    (due executionId tenantId queue (h.calls actions)).Sublist
      (visible executionId tenantId (announcements actions)) := by
  rw [← filterMap_published_calls ran, ← filterMap_shows]
  exact (List.takeWhile_sublist _).filterMap _

theorem streams_of_put {k k' : Nat} {executionId tenantId : String} {queue : Nat}
    {socket : Socket} {st st' : Stream} (found : h.sockets[k']? = some socket)
    (streaming : socket.stream = some st) (same : st'.queue = st.queue)
    (streams : (h.put k' socket st').Streams k executionId tenantId queue) :
    h.Streams k executionId tenantId queue := by
  obtain ⟨mine, held, found', named, tenanted, streaming', queued⟩ := streams
  rw [put, List.getElem?_set] at found'
  split at found'
  next own =>
    subst own
    split at found'
    · cases found'
      cases streaming'
      exact ⟨socket, st, found, named, tenanted, streaming, same.symm.trans queued⟩
    · cases found'
  · exact ⟨mine, held, found', named, tenanted, streaming', queued⟩

theorem streams_of_step {k : Nat} {executionId tenantId : String} {queue : Nat} {a : Action}
    (stepped : h.step a = some h') (streams : h'.Streams k executionId tenantId queue) :
    h.Streams k executionId tenantId queue ∨
      a = .accept k ∧ queue = h.publisher.subscribers.queues.length := by
  cases a with
  | publish | close | closeAll =>
    cases stepped
    exact .inl streams
  | connect =>
    cases stepped
    obtain ⟨socket, st, found, named, tenanted, streaming, queued⟩ := streams
    rw [List.getElem?_append] at found
    split at found
    · exact .inl ⟨socket, st, found, named, tenanted, streaming, queued⟩
    · obtain rfl := List.mem_singleton.mp (List.mem_of_getElem? found)
      cases streaming
  | accept k' =>
    obtain ⟨socket, found, waiting, rfl⟩ := accept_eq_some stepped
    obtain ⟨mine, held, found', named, tenanted, streaming, queued⟩ := streams
    rw [put, List.getElem?_set] at found'
    split at found'
    next own =>
      subst own
      split at found'
      · cases found'
        cases streaming
        exact .inr ⟨rfl, queued.symm⟩
      · cases found'
    · exact .inl ⟨mine, held, found', named, tenanted, streaming, queued⟩
  | get k' =>
    obtain ⟨socket, st, st', found, streaming, got, rfl⟩ := move_eq_some stepped
    exact .inl (streams_of_put found streaming (Stream.queue_get got) streams)
  | send k' delivered =>
    obtain ⟨socket, st, st', found, streaming, sent, rfl⟩ := move_eq_some stepped
    exact .inl (streams_of_put found streaming (Stream.queue_send sent) streams)
  | disconnect k' =>
    obtain ⟨socket, st, found, streaming, rfl⟩ := disconnect_eq_some stepped
    exact .inl (streams_of_put (h := { h with publisher := _ }) found streaming
      (show st.disconnect.queue = st.queue from rfl) streams)

def Apart (h : Hub) : Prop :=
  ∀ k k' executionId executionId' tenantId tenantId' queue,
    h.Streams k executionId tenantId queue → h.Streams k' executionId' tenantId' queue → k = k'

theorem Streams.queue_lt (sound : h.Sound) {k : Nat} {executionId tenantId : String} {queue : Nat}
    (streams : h.Streams k executionId tenantId queue) :
    queue < h.publisher.subscribers.queues.length := by
  obtain ⟨socket, st, found, _, _, streaming, rfl⟩ := streams
  obtain ⟨items, queued, _⟩ := sound.streams k socket st found streaming
  exact Broker.queue_isSome.mp (Option.isSome_of_eq_some queued)

theorem Apart.new : ({} : Hub).Apart := by
  rintro k k' executionId executionId' tenantId tenantId' queue ⟨socket, st, found, _⟩
  simp at found

theorem Apart.step (apart : h.Apart) (sound : h.Sound) {a : Action}
    (stepped : h.step a = some h') : h'.Apart := by
  intro k k' executionId executionId' tenantId tenantId' queue streams streams'
  rcases streams_of_step stepped streams with old | ⟨accepted, fresh⟩ <;>
    rcases streams_of_step stepped streams' with old' | ⟨accepted', fresh'⟩
  · exact apart k k' _ _ _ _ queue old old'
  · exact absurd fresh' (old.queue_lt sound).ne
  · exact absurd fresh (old'.queue_lt sound).ne
  · exact Action.accept.inj (accepted.symm.trans accepted')

theorem Apart.run (apart : h.Apart) (sound : h.Sound) {actions : List Action}
    (ran : Trace.run Hub.step h actions = some h') : h'.Apart :=
  (Trace.run_invariant (I := fun h : Hub => h.Sound ∧ h.Apart)
    (fun _ _ _ _ holds stepped => ⟨holds.1.step stepped, holds.2.step holds.1 stepped⟩)
    ⟨sound, apart⟩ ran).2

def Connected (k : Nat) (h : Hub) : Prop :=
  ∀ socket, h.sockets[k]? = some socket → ∀ st, socket.stream = some st → st.connected = true

theorem connected_of_put {k k' : Nat} {socket : Socket} {st st' : Stream}
    (found : h.sockets[k']? = some socket) (streaming : socket.stream = some st)
    (same : k' = k → st'.connected = true → st.connected = true)
    (connected : (h.put k' socket st').Connected k) : h.Connected k := by
  intro mine found' held streaming'
  by_cases own : k' = k
  · subst own
    obtain rfl := Option.some.inj (found.symm.trans found')
    obtain rfl := Option.some.inj (streaming.symm.trans streaming')
    obtain ⟨inside, _⟩ := List.getElem?_eq_some_iff.mp found
    exact same rfl (connected _ (List.getElem?_set_self inside) st' rfl)
  · exact connected mine ((List.getElem?_set_ne own).trans found') held streaming'

theorem connected_of_step {k : Nat} {a : Action} (stepped : h.step a = some h')
    (connected : h'.Connected k) : h.Connected k ∧ a ≠ .disconnect k := by
  cases a with
  | publish | close | closeAll =>
    cases stepped
    exact ⟨connected, nofun⟩
  | connect =>
    cases stepped
    refine ⟨fun socket found => connected socket ?_, nofun⟩
    obtain ⟨inside, _⟩ := List.getElem?_eq_some_iff.mp found
    exact (List.getElem?_append_left inside).trans found
  | accept k' =>
    obtain ⟨socket, found, waiting, rfl⟩ := accept_eq_some stepped
    refine ⟨fun mine found' => ?_, nofun⟩
    by_cases own : k' = k
    · subst own
      obtain rfl := Option.some.inj (found.symm.trans found')
      simp [waiting]
    · exact connected mine ((List.getElem?_set_ne own).trans found')
  | get k' =>
    obtain ⟨socket, st, st', found, streaming, got, rfl⟩ := move_eq_some stepped
    refine ⟨connected_of_put found streaming (fun _ => ?_) connected, nofun⟩
    rw [Stream.connected_get got]
    exact id
  | send k' delivered =>
    obtain ⟨socket, st, st', found, streaming, sent, rfl⟩ := move_eq_some stepped
    refine ⟨connected_of_put found streaming (fun _ => ?_) connected, nofun⟩
    rw [Stream.connected_send sent]
    exact id
  | disconnect k' =>
    obtain ⟨socket, st, found, streaming, rfl⟩ := disconnect_eq_some stepped
    obtain ⟨inside, _⟩ := List.getElem?_eq_some_iff.mp found
    have other : k' ≠ k := by
      rintro rfl
      exact absurd (connected _ (List.getElem?_set_self inside) _ rfl) Bool.false_ne_true
    exact ⟨connected_of_put (h := { h with publisher := _ }) found streaming
      (fun own => absurd own other) connected, fun same => other (Action.disconnect.inj same)⟩

theorem not_disconnect_of_connected {k : Nat} {actions : List Action}
    (ran : Trace.run Hub.step h actions = some h') (connected : h'.Connected k) :
    h.Connected k ∧ .disconnect k ∉ actions := by
  induction actions generalizing h with
  | nil =>
    cases ran
    exact ⟨connected, List.not_mem_nil⟩
  | cons a actions ih =>
    obtain ⟨middle, first, rest⟩ := Trace.run_cons ran
    obtain ⟨still, kept⟩ := ih rest
    obtain ⟨before, other⟩ := connected_of_step first still
    exact ⟨before, fun member => (List.mem_cons.mp member).elim (fun same => other same.symm) kept⟩

/-- Nothing takes a queue from the publisher but the end of its connection and the close of
its execution. -/
theorem closes_of_leaves {k : Nat} {executionId tenantId : String} {queue : Nat}
    {actions : List Action} (sound : h.Sound) (apart : h.Apart)
    (streams : h.Streams k executionId tenantId queue)
    (ran : Trace.run Hub.step h actions = some h') (connected : .disconnect k ∉ actions) :
    ∀ call ∈ h.calls actions, call.leaves executionId queue = true →
      call.closes executionId = true := by
  induction actions generalizing h with
  | nil => exact fun _ member => absurd member List.not_mem_nil
  | cons a actions ih =>
    obtain ⟨middle, first, rest⟩ := Trace.run_cons ran
    simp only [List.mem_cons, not_or] at connected
    intro call member
    rw [calls, first, Option.map_some, Option.getD_some] at member
    rcases List.mem_append.mp member with here | later
    · cases a with
      | publish | connect | get | send | close | closeAll => simp_all [Hub.call, Call.leaves, Call.closes]
      | accept k' =>
        obtain ⟨socket, _, rfl⟩ := Option.map_eq_some_iff.mp (Option.mem_toList.mp here)
        simp [Call.leaves]
      | disconnect k' =>
        obtain ⟨socket, found, rest⟩ := Option.bind_eq_some_iff.mp (Option.mem_toList.mp here)
        obtain ⟨st, streaming, rfl⟩ := Option.map_eq_some_iff.mp rest
        have other : st.queue ≠ queue := by
          rintro rfl
          have same := apart k' k _ _ _ _ _ ⟨socket, st, found, rfl, rfl, streaming, rfl⟩ streams
          exact connected.1 (same ▸ rfl)
        simp [Call.leaves, other]
    · exact ih (sound.step first) (apart.step sound first) (streams.step first) rest connected.2
        call later

theorem dueFrames_of_connected {k : Nat} {executionId tenantId : String} {queue : Nat}
    {actions : List Action} (sound : h.Sound) (apart : h.Apart)
    (streams : h.Streams k executionId tenantId queue)
    (ran : Trace.run Hub.step h actions = some h') (connected : h'.Connected k)
    (unclosed : closedWhile executionId queue (h.calls actions) = false) :
    dueFrames executionId tenantId queue (h.calls actions) =
      (visible executionId tenantId (announcements actions)).map ExecutionEvent.toDict := by
  have closes := closes_of_leaves sound apart streams ran (not_disconnect_of_connected ran connected).2
  have stays : ∀ call ∈ h.calls actions, call.leaves executionId queue = false := by
    cases left : (h.calls actions).find? (Call.leaves executionId queue) with
    | none => exact fun call member => Bool.eq_false_iff.mpr (List.find?_eq_none.mp left call member)
    | some call =>
      have closed := closes call (List.mem_of_find?_eq_some left) (List.find?_some left)
      rw [closedWhile, left, Option.any_some, closed] at unclosed
      cases unclosed
  have all : attended executionId queue (h.calls actions) = h.calls actions :=
    List.takeWhile_eq_self_iff.mpr fun call member => by rw [stays call member]; rfl
  rw [dueFrames, unclosed, due, all, filterMap_shows, filterMap_published_calls ran]
  exact List.append_nil _

end Kitematic.EventSockets.Hub
