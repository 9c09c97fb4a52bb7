import Kitematic.Events
import Kitematic.Trace

/-! Event streams over WebSockets. A handler subscribes a queue once its handshake is
accepted, and a task of its own hands the items of the queue to the client one by one;
the marker at the end of a queue becomes a last frame. The handler ends with the
connection: it cancels the task and takes its queue from the publisher. Handlers, tasks
and publications interleave at their awaits. -/

namespace Kitematic.EventSockets
open Delivery Events IsoDate PyText Trace

/-- Where `listen_queue` is: at `queue.get()`, at the `send_json` of an event or of the last
frame, returned, or ended by an exception or by the handler. -/
inductive ListenQueue where
  | waiting
  | sending (event : Payload)
  | ending
  | returned
  | dead

structure Stream where
  queue : Nat
  sent : List Payload := []
  task : ListenQueue := .waiting
  connected : Bool := true

/-- A handler behind its authentication. It has no stream while it waits for `accept`. -/
structure Socket where
  executionId : String
  tenantId : String
  stream : Option Stream := none

structure Hub where
  publisher : InMemoryEventPublisher := {}
  sockets : List Socket := []

inductive Action where
  | publish (event : ExecutionEvent)
  | close (executionId : String)
  | closeAll
  | connect (executionId tenantId : String)
  | accept (k : Nat)
  | get (k : Nat)
  | send (k : Nat) (delivered : Bool)
  | disconnect (k : Nat)

def streamEnded (executionId : String) : Payload :=
  [("type", .str "stream.ended"), ("execution_id", .str executionId)]

def frame (executionId : String) : Option Payload → Payload
  | some event => event
  | none => streamEnded executionId

namespace Stream

def get (st : Stream) (items : List (Option Payload)) : Option Stream :=
  match st.task, items[st.sent.length]? with
  | .waiting, some (some event) => some { st with task := .sending event }
  | .waiting, some none => some { st with task := .ending }
  | _, _ => none

/-- The end of a `send_json`; where it raises, so does the task. -/
def send (st : Stream) (executionId : String) (delivered : Bool) : Option Stream :=
  match st.task with
  | .sending event =>
      some (if delivered then { st with sent := st.sent ++ [event], task := .waiting }
        else { st with task := .dead })
  | .ending =>
      some (if delivered then { st with sent := st.sent ++ [streamEnded executionId], task := .returned }
        else { st with task := .dead })
  | _ => none

/-- The `finally` of the handler: a task that has returned is not cancelled any more. -/
def disconnect (st : Stream) : Stream :=
  { st with
    connected := false
    task := match st.task with
      | .returned => .returned
      | _ => .dead }

end Stream

namespace Hub

def item (h : Hub) (st : Stream) : List (Option Payload) := (h.publisher.queue st.queue).getD []

def stream (h : Hub) (k : Nat) : Option Stream := h.sockets[k]?.bind Socket.stream

def put (h : Hub) (k : Nat) (socket : Socket) (st : Stream) : Hub :=
  { h with sockets := h.sockets.set k { socket with stream := some st } }

def move (h : Hub) (k : Nat) (f : Socket → Stream → Option Stream) : Option Hub :=
  h.sockets[k]?.bind fun socket =>
    socket.stream.bind fun st => (f socket st).map (h.put k socket)

def accept (h : Hub) (k : Nat) : Option Hub :=
  h.sockets[k]?.bind fun socket =>
    match socket.stream with
    | some _ => none
    | none =>
        let (publisher, queue) := h.publisher.subscribe socket.executionId socket.tenantId
        some ({ h with publisher := publisher }.put k socket { queue })

def disconnect (h : Hub) (k : Nat) : Option Hub :=
  h.sockets[k]?.bind fun socket =>
    match socket.stream with
    | some st =>
        if st.connected then
          some ({ h with publisher := h.publisher.unsubscribe socket.executionId st.queue }.put k
            socket st.disconnect)
        else none
    | none => none

def step (h : Hub) : Action → Option Hub
  | .publish event => some { h with publisher := h.publisher.publish event }
  | .close executionId => some { h with publisher := h.publisher.close executionId }
  | .closeAll => some { h with publisher := h.publisher.closeAll }
  | .connect executionId tenantId =>
      some { h with sockets := h.sockets ++ [{ executionId, tenantId }] }
  | .accept k => h.accept k
  | .get k => h.move k fun _ st => st.get (h.item st)
  | .send k delivered => h.move k fun socket st => st.send socket.executionId delivered
  | .disconnect k => h.disconnect k

def call (h : Hub) : Action → Option Call
  | .publish event => some (.publish event)
  | .close executionId => some (.close executionId)
  | .closeAll => some .closeAll
  | .accept k =>
      h.sockets[k]?.map fun socket => .subscribe socket.executionId socket.tenantId
  | .disconnect k =>
      h.sockets[k]?.bind fun socket =>
        socket.stream.map fun st => .unsubscribe socket.executionId st.queue
  | _ => none

/-- The calls on the publisher in the course of the actions. -/
def calls : Hub → List Action → List Call
  | _, [] => []
  | h, a :: as => (h.call a).toList ++ ((h.step a).map fun next => next.calls as).getD []

end Hub

/-- What a client has is the beginning of what its queue holds, and its task is at the item
after that. -/
structure Stream.Sound (executionId : String) (items : List (Option Payload)) (st : Stream) :
    Prop where
  sent : st.sent <+: items.map (frame executionId)
  sending : ∀ event, st.task = .sending event → items[st.sent.length]? = some (some event)
  ending : st.task = .ending → items[st.sent.length]? = some none
  returned : st.task = .returned → ∃ before, items[before]? = some none ∧
    st.sent.length = before + 1
  marked : none ∈ items.take st.sent.length → st.task = .returned ∨ st.task = .dead

namespace Stream
variable {executionId : String} {items : List (Option Payload)} {st st' : Stream}

theorem Sound.new (executionId : String) (items : List (Option Payload)) (queue : Nat) :
    Sound executionId items { queue } :=
  ⟨List.nil_prefix, nofun, nofun, nofun, nofun⟩

theorem Sound.length_le (sound : st.Sound executionId items) : st.sent.length ≤ items.length := by
  simpa using sound.sent.length_le

theorem getElem?_grown {α : Type*} {items : List α} (more : List α) {i : Nat} {item : α}
    (found : items[i]? = some item) : (items ++ more)[i]? = some item := by
  obtain ⟨inside, _⟩ := List.getElem?_eq_some_iff.mp found
  rw [List.getElem?_append_left inside, found]

theorem Sound.grows (sound : st.Sound executionId items) (more : List (Option Payload)) :
    st.Sound executionId (items ++ more) where
  sent := sound.sent.trans (by rw [List.map_append]; exact List.prefix_append _ _)
  sending event task := getElem?_grown more (sound.sending event task)
  ending task := getElem?_grown more (sound.ending task)
  returned task := by
    obtain ⟨before, last, length⟩ := sound.returned task
    exact ⟨before, getElem?_grown more last, length⟩
  marked taken := sound.marked (by rwa [List.take_append_of_le_length sound.length_le] at taken)

theorem Sound.get (sound : st.Sound executionId items) (got : st.get items = some st') :
    st'.Sound executionId items := by
  unfold Stream.get at got
  split at got
  next event task found =>
    cases got
    refine ⟨sound.sent, fun event' same => ?_, nofun, nofun, fun taken => ?_⟩
    · cases same
      exact found
    · exact absurd (sound.marked taken) (by simp [task])
  next task found =>
    cases got
    exact ⟨sound.sent, nofun, fun _ => found, nofun, fun taken =>
      absurd (sound.marked taken) (by simp [task])⟩
  · cases got

theorem Sound.snoc (sound : st.Sound executionId items) {item : Option Payload}
    (found : items[st.sent.length]? = some item) :
    st.sent ++ [frame executionId item] <+: items.map (frame executionId) := by
  obtain ⟨rest, same⟩ := sound.sent
  have next : rest[0]? = some (frame executionId item) := by
    have here := congrArg (fun frames => frames[st.sent.length]?) same
    simpa [List.getElem?_append_right, found] using here
  cases rest with
  | nil => cases next
  | cons first rest =>
    cases next
    exact ⟨rest, by rw [← same, List.append_assoc]; rfl⟩

theorem Sound.send (sound : st.Sound executionId items) {delivered : Bool}
    (sent : st.send executionId delivered = some st') : st'.Sound executionId items := by
  unfold Stream.send at sent
  split at sent
  next event task =>
    cases sent
    cases delivered with
    | true =>
      refine ⟨sound.snoc (sound.sending event task), nofun, nofun, nofun, fun taken => ?_⟩
      change none ∈ items.take (st.sent ++ [event]).length at taken
      rw [List.length_append, List.length_singleton, List.take_add_one, sound.sending event task]
        at taken
      have before : none ∈ items.take st.sent.length := by simpa using taken
      exact absurd (sound.marked before) (by simp [task])
    | false => exact ⟨sound.sent, nofun, nofun, nofun, fun _ => .inr rfl⟩
  next task =>
    cases sent
    cases delivered with
    | true =>
      exact ⟨sound.snoc (sound.ending task), nofun, nofun,
        fun _ => ⟨st.sent.length, sound.ending task, List.length_append⟩, fun _ => .inl rfl⟩
    | false => exact ⟨sound.sent, nofun, nofun, nofun, fun _ => .inr rfl⟩
  · cases sent

theorem Sound.disconnect (sound : st.Sound executionId items) :
    st.disconnect.Sound executionId items := by
  unfold Stream.disconnect
  refine ⟨sound.sent, fun event task => ?_, fun task => ?_, fun task => ?_, fun _ => ?_⟩
  · split at task <;> cases task
  · split at task <;> cases task
  · change (match st.task with
      | .returned => ListenQueue.returned
      | _ => .dead) = .returned at task
    split at task
    next ended => exact sound.returned ended
    · cases task
  · cases st.task <;> simp

theorem length_le_of_get (task : st.task = .waiting) (empty : st.get items = none) :
    items.length ≤ st.sent.length := by
  refine List.getElem?_eq_none_iff.mp ?_
  unfold Stream.get at empty
  cases next : items[st.sent.length]? with
  | none => rfl
  | some item => cases item <;> simp [task, next] at empty

@[simp] theorem queue_get (got : st.get items = some st') : st'.queue = st.queue := by
  unfold Stream.get at got
  split at got <;> cases got <;> rfl

@[simp] theorem queue_send {delivered : Bool} (sent : st.send executionId delivered = some st') :
    st'.queue = st.queue := by
  unfold Stream.send at sent
  split at sent <;> cases sent <;> split <;> rfl

end Stream

@[simp] theorem Stream.connected_get {items : List (Option Payload)} {st st' : Stream}
    (got : st.get items = some st') : st'.connected = st.connected := by
  unfold Stream.get at got
  split at got <;> cases got <;> rfl

@[simp] theorem Stream.connected_send {executionId : String} {st st' : Stream} {delivered : Bool}
    (sent : st.send executionId delivered = some st') : st'.connected = st.connected := by
  unfold Stream.send at sent
  split at sent <;> cases sent <;> split <;> rfl

structure Hub.Sound (h : Hub) : Prop where
  numbered : h.publisher.subscribers.Numbered
  streams : ∀ (k : Nat) (socket : Socket) (st : Stream),
    h.sockets[k]? = some socket → socket.stream = some st →
    ∃ items, h.publisher.queue st.queue = some items ∧ st.Sound socket.executionId items

namespace Hub
variable {h h' : Hub}

theorem Sound.new : ({} : Hub).Sound :=
  ⟨.empty, fun _ _ _ found => by simp at found⟩

theorem Sound.handle (sound : h.Sound) (call : Call) :
    { h with publisher := h.publisher.handle call }.Sound where
  numbered := by
    rw [InMemoryEventPublisher.handle_subscribers]
    exact sound.numbered.handle _
  streams k socket st found streaming := by
    obtain ⟨items, queued, right⟩ := sound.streams k socket st found streaming
    obtain ⟨more, grown⟩ := sound.numbered.handle_grows queued call.request
    refine ⟨items ++ more, ?_, right.grows more⟩
    rw [← grown, ← InMemoryEventPublisher.handle_subscribers]
    rfl

theorem Sound.put (sound : h.Sound) {k : Nat} {socket : Socket} {st : Stream}
    {items : List (Option Payload)} (queued : h.publisher.queue st.queue = some items)
    (right : st.Sound socket.executionId items) : (h.put k socket st).Sound where
  numbered := sound.numbered
  streams k' socket' st' found streaming := by
    rw [Hub.put, List.getElem?_set] at found
    split at found
    · split at found
      · cases found
        cases streaming
        exact ⟨items, queued, right⟩
      · cases found
    · exact sound.streams k' socket' st' found streaming

theorem move_eq_some {k : Nat} {f : Socket → Stream → Option Stream}
    (moved : h.move k f = some h') : ∃ socket st st', h.sockets[k]? = some socket ∧
      socket.stream = some st ∧ f socket st = some st' ∧ h' = h.put k socket st' := by
  obtain ⟨socket, found, rest⟩ := Option.bind_eq_some_iff.mp moved
  obtain ⟨st, streaming, rest⟩ := Option.bind_eq_some_iff.mp rest
  obtain ⟨st', made, rfl⟩ := Option.map_eq_some_iff.mp rest
  exact ⟨socket, st, st', found, streaming, made, rfl⟩

theorem accept_eq_some {k : Nat} (accepted : h.accept k = some h') :
    ∃ socket, h.sockets[k]? = some socket ∧ socket.stream = none ∧
      h' = { h with publisher :=
          (h.publisher.subscribe socket.executionId socket.tenantId).1 }.put k socket
        { queue := (h.publisher.subscribe socket.executionId socket.tenantId).2 } := by
  obtain ⟨socket, found, rest⟩ := Option.bind_eq_some_iff.mp accepted
  cases waiting : socket.stream with
  | some st => simp [waiting] at rest
  | none =>
    simp only [waiting, Option.some.injEq] at rest
    exact ⟨socket, found, waiting, rest.symm⟩

theorem disconnect_eq_some {k : Nat} (left : h.disconnect k = some h') :
    ∃ socket st, h.sockets[k]? = some socket ∧ socket.stream = some st ∧
      h' = { h with publisher :=
          h.publisher.unsubscribe socket.executionId st.queue }.put k socket st.disconnect := by
  obtain ⟨socket, found, rest⟩ := Option.bind_eq_some_iff.mp left
  cases streaming : socket.stream with
  | none => simp [streaming] at rest
  | some st =>
    simp only [streaming] at rest
    split at rest
    · exact ⟨socket, st, found, streaming, (Option.some.inj rest).symm⟩
    · cases rest

theorem Sound.step (sound : h.Sound) {a : Action} (stepped : h.step a = some h') : h'.Sound := by
  cases a with
  | publish event =>
    cases stepped
    exact sound.handle (.publish event)
  | close executionId =>
    cases stepped
    exact sound.handle (.close executionId)
  | closeAll =>
    cases stepped
    exact sound.handle .closeAll
  | connect executionId tenantId =>
    cases stepped
    refine ⟨sound.numbered, fun k socket st found streaming => ?_⟩
    rw [List.getElem?_append] at found
    split at found
    · exact sound.streams k socket st found streaming
    · obtain rfl := List.mem_singleton.mp (List.mem_of_getElem? found)
      cases streaming
  | accept k =>
    obtain ⟨socket, found, _, rfl⟩ := accept_eq_some stepped
    have handled := sound.handle (.subscribe socket.executionId socket.tenantId)
    refine handled.put ?_ (Stream.Sound.new _ [] _)
    simp [InMemoryEventPublisher.handle, InMemoryEventPublisher.queue,
      InMemoryEventPublisher.subscribe, Broker.queue, Broker.subscribe]
  | get k =>
    obtain ⟨socket, st, st', found, streaming, got, rfl⟩ := move_eq_some stepped
    obtain ⟨items, queued, right⟩ := sound.streams k socket st found streaming
    have held : h.item st = items := by rw [item, queued]; rfl
    rw [held] at got
    exact sound.put ((Stream.queue_get got).symm ▸ queued) (right.get got)
  | send k delivered =>
    obtain ⟨socket, st, st', found, streaming, sent, rfl⟩ := move_eq_some stepped
    obtain ⟨items, queued, right⟩ := sound.streams k socket st found streaming
    exact sound.put ((Stream.queue_send sent).symm ▸ queued) (right.send sent)
  | disconnect k =>
    obtain ⟨socket, st, found, streaming, rfl⟩ := disconnect_eq_some stepped
    obtain ⟨items, queued, right⟩ := sound.streams k socket st found streaming
    exact (sound.handle (.unsubscribe socket.executionId st.queue)).put queued right.disconnect

theorem Sound.run (sound : h.Sound) {actions : List Action}
    (ran : Trace.run Hub.step h actions = some h') : h'.Sound :=
  Trace.run_invariant (fun _ _ _ _ sound stepped => sound.step stepped) sound ran

theorem step_publisher {a : Action} (stepped : h.step a = some h') :
    h'.publisher = h.publisher.handleAll (h.call a).toList := by
  cases a with
  | publish | close | closeAll | connect =>
    cases stepped
    rfl
  | accept k =>
    obtain ⟨socket, found, _, rfl⟩ := accept_eq_some stepped
    simp [call, found, put, InMemoryEventPublisher.handleAll, InMemoryEventPublisher.handle]
  | get k | send k =>
    obtain ⟨_, _, _, _, _, _, rfl⟩ := move_eq_some stepped
    rfl
  | disconnect k =>
    obtain ⟨socket, st, found, streaming, rfl⟩ := disconnect_eq_some stepped
    simp [call, found, streaming, put, InMemoryEventPublisher.handleAll,
      InMemoryEventPublisher.handle]

theorem run_publisher {actions : List Action} (ran : Trace.run Hub.step h actions = some h') :
    h'.publisher = h.publisher.handleAll (h.calls actions) := by
  induction actions generalizing h with
  | nil => cases ran; rfl
  | cons a actions ih =>
    obtain ⟨middle, first, rest⟩ := Trace.run_cons ran
    rw [ih rest, step_publisher first, calls, first, Option.map_some, Option.getD_some,
      InMemoryEventPublisher.handleAll, InMemoryEventPublisher.handleAll, ← List.foldl_append]
    rfl

def Streams (k : Nat) (executionId tenantId : String) (queue : Nat) (h : Hub) : Prop :=
  ∃ socket st, h.sockets[k]? = some socket ∧ socket.executionId = executionId ∧
    socket.tenantId = tenantId ∧ socket.stream = some st ∧ st.queue = queue

theorem Streams.put {k k' : Nat} {executionId tenantId : String} {queue : Nat} {socket : Socket}
    {st : Stream} (streams : h.Streams k executionId tenantId queue)
    (found : h.sockets[k']? = some socket) (same : ∀ st', socket.stream = some st' →
      st.queue = st'.queue) : (h.put k' socket st).Streams k executionId tenantId queue := by
  obtain ⟨mine, held, found', named, tenanted, streaming, queued⟩ := streams
  by_cases own : k' = k
  · subst own
    obtain rfl := Option.some.inj (found.symm.trans found')
    obtain ⟨inside, _⟩ := List.getElem?_eq_some_iff.mp found
    exact ⟨_, st, List.getElem?_set_self inside, named, tenanted, rfl,
      (same held streaming).trans queued⟩
  · exact ⟨mine, held, (List.getElem?_set_ne own).trans found', named, tenanted, streaming, queued⟩

theorem Streams.step {k : Nat} {executionId tenantId : String} {queue : Nat} {a : Action}
    (streams : h.Streams k executionId tenantId queue) (stepped : h.step a = some h') :
    h'.Streams k executionId tenantId queue := by
  cases a with
  | publish | close | closeAll =>
    cases stepped
    exact streams
  | connect =>
    cases stepped
    obtain ⟨socket, st, found, rest⟩ := streams
    obtain ⟨inside, _⟩ := List.getElem?_eq_some_iff.mp found
    exact ⟨socket, st, (List.getElem?_append_left inside).trans found, rest⟩
  | accept k' =>
    obtain ⟨socket, found, waiting, rfl⟩ := accept_eq_some stepped
    exact Streams.put (h := { h with publisher := _ }) streams found (by simp [waiting])
  | get k' =>
    obtain ⟨socket, st, st', found, streaming, got, rfl⟩ := move_eq_some stepped
    refine streams.put found fun st'' same => ?_
    rw [Stream.queue_get got, Option.some.inj (streaming.symm.trans same)]
  | send k' delivered =>
    obtain ⟨socket, st, st', found, streaming, sent, rfl⟩ := move_eq_some stepped
    refine streams.put found fun st'' same => ?_
    rw [Stream.queue_send sent, Option.some.inj (streaming.symm.trans same)]
  | disconnect k' =>
    obtain ⟨socket, st, found, streaming, rfl⟩ := disconnect_eq_some stepped
    refine Streams.put (h := { h with publisher := _ }) streams found fun st'' same => ?_
    rw [← Option.some.inj (streaming.symm.trans same)]
    rfl

/-- The frames that a client is due from the calls after its subscription. -/
def dueFrames (executionId tenantId : String) (queue : Nat) (later : List Call) : List Payload :=
  (due executionId tenantId queue later).map ExecutionEvent.toDict ++
    if closedWhile executionId queue later then [streamEnded executionId] else []

/-- A client gets the frames it is due, in order and each once: those that are missing are
still in its queue or in the hands of its task, or its connection is over. -/
structure Delivers (h : Hub) (k : Nat) (socket : Socket) (st : Stream) (later : List Call) :
    Prop where
  inOrder : st.sent <+: dueFrames socket.executionId socket.tenantId st.queue later
  caughtUp : st.task = .waiting → h.step (.get k) = none →
    closedWhile socket.executionId st.queue later = false ∧
      st.sent = dueFrames socket.executionId socket.tenantId st.queue later
  ended : st.task = .returned → closedWhile socket.executionId st.queue later = true ∧
    st.sent = dueFrames socket.executionId socket.tenantId st.queue later

theorem map_frame_content (executionId tenantId : String) (queue : Nat) (later : List Call) :
    (Broker.content executionId tenantId queue (later.map Call.request)).map (frame executionId) =
      dueFrames executionId tenantId queue later := by
  rw [content_requests, List.map_append, List.map_map, dueFrames]
  congr 1
  split <;> rfl

theorem mem_content_iff {executionId : String} (tenantId : String) {queue : Nat}
    {later : List Call} :
    none ∈ Broker.content executionId tenantId queue (later.map Call.request) ↔
      closedWhile executionId queue later = true := by
  rw [content_requests]
  cases closedWhile executionId queue later <;> simp

theorem marker_last {executionId tenantId : String} {queue i : Nat} {later : List Call}
    (marker : (Broker.content executionId tenantId queue (later.map Call.request))[i]? =
      some none) : (dueFrames executionId tenantId queue later).length = i + 1 := by
  rw [content_requests] at marker
  rw [dueFrames, List.length_append, List.length_map]
  rcases Nat.lt_or_ge i (due executionId tenantId queue later).length with early | late
  · rw [List.getElem?_append_left (by simpa using early), List.getElem?_map] at marker
    obtain ⟨_, _, same⟩ := Option.map_eq_some_iff.mp marker
    cases same
  · rw [List.getElem?_append_right (by simpa using late), List.length_map] at marker
    split at marker
    next closed =>
      obtain ⟨inside, _⟩ := List.getElem?_eq_some_iff.mp marker
      rw [if_pos closed]
      simp only [List.length_singleton] at inside ⊢
      omega
    · cases marker

theorem Streams.run {k : Nat} {executionId tenantId : String} {queue : Nat}
    {actions : List Action} (streams : h.Streams k executionId tenantId queue)
    (ran : Trace.run Hub.step h actions = some h') :
    h'.Streams k executionId tenantId queue :=
  Trace.run_invariant (fun _ _ _ _ streams stepped => streams.step stepped) streams ran

theorem accepted_content {later : List Action} {k : Nat} {h₁ : Hub} (sound : h.Sound)
    (accepted : h.step (.accept k) = some h₁) (ran : Trace.run step h₁ later = some h') :
    ∃ socket st, h'.sockets[k]? = some socket ∧ socket.stream = some st ∧
      h₁.Streams k socket.executionId socket.tenantId st.queue ∧
        h'.publisher.queue st.queue = some (Broker.content socket.executionId
          socket.tenantId st.queue ((h₁.calls later).map Call.request)) := by
  obtain ⟨opening, waiting, _, opened⟩ := accept_eq_some accepted
  have streams : h₁.Streams k opening.executionId opening.tenantId
      (h.publisher.subscribe opening.executionId opening.tenantId).2 := by
    obtain ⟨inside, _⟩ := List.getElem?_eq_some_iff.mp waiting
    rw [opened]
    exact ⟨_, _, List.getElem?_set_self inside, rfl, rfl, rfl, rfl⟩
  obtain ⟨socket, st, found, named, tenanted, streaming, queued⟩ := streams.run ran
  refine ⟨socket, st, found, streaming, ?_, ?_⟩
  · rw [named, tenanted, queued]
    exact streams
  · have history := sound.numbered.queue_history opening.executionId opening.tenantId
      ((h₁.calls later).map Call.request)
    have subscribed : h₁.publisher =
        (h.publisher.subscribe opening.executionId opening.tenantId).1 := by rw [opened]; rfl
    rw [run_publisher ran, InMemoryEventPublisher.queue,
      InMemoryEventPublisher.handleAll_subscribers, queued, named, tenanted, subscribed]
    exact history

theorem Sound.delivered (sound : h.Sound) {k : Nat} {socket : Socket} {st : Stream}
    {later : List Call} (found : h.sockets[k]? = some socket) (streaming : socket.stream = some st)
    (content : h.publisher.queue st.queue = some (Broker.content socket.executionId
      socket.tenantId st.queue (later.map Call.request))) : h.Delivers k socket st later := by
  obtain ⟨items, held, right⟩ := sound.streams k socket st found streaming
  obtain rfl := Option.some.inj (held.symm.trans content)
  have inOrder := right.sent
  rw [map_frame_content] at inOrder
  refine ⟨inOrder, fun task stuck => ?_, fun task => ?_⟩
  · have empty : st.get (h.item st) = none := by
      rw [Hub.step, move, found, Option.bind_some, streaming, Option.bind_some] at stuck
      exact Option.map_eq_none_iff.mp stuck
    rw [item, held, Option.getD_some] at empty
    have all := Stream.length_le_of_get task empty
    refine ⟨Bool.eq_false_iff.mpr fun closed => ?_, inOrder.eq_of_length_le ?_⟩
    · have taken := (mem_content_iff socket.tenantId).mpr closed
      rw [← List.take_of_length_le all] at taken
      exact absurd (right.marked taken) (by simp [task])
    · rwa [← map_frame_content, List.length_map]
  · obtain ⟨i, marker, length⟩ := right.returned task
    exact ⟨(mem_content_iff socket.tenantId).mp (List.mem_of_getElem? marker),
      inOrder.eq_of_length (length.trans (marker_last marker).symm)⟩

/-- In every run, every client that was accepted gets the frames it is due. -/
theorem delivers {before later : List Action} {k : Nat} {h₁ : Hub}
    (reached : Trace.run step {} before = some h) (accepted : h.step (.accept k) = some h₁)
    (ran : Trace.run step h₁ later = some h') :
    ∃ socket st, h'.sockets[k]? = some socket ∧ socket.stream = some st ∧
      h'.Delivers k socket st (h₁.calls later) := by
  have sound : h.Sound := Sound.new.run reached
  have sound' : h'.Sound := (sound.step accepted).run ran
  obtain ⟨socket, st, found, streaming, _, content⟩ := accepted_content sound accepted ran
  exact ⟨socket, st, found, streaming, sound'.delivered found streaming content⟩

def told (eventId tenantId : String) : Action :=
  .publish { eventId, executionId := "e1", tenantId, createdAt := epoch }

def afternoon : List Action :=
  [told "1" "acme", told "2" "globex", .get 0, .closeAll, .send 0 true, .get 0, .send 0 true]

/-- A client of one tenant, beside an event of another, up to the end of its stream. -/
theorem delivers_acme : ∃ h h₁ h', Trace.run step {} [.connect "e1" "acme"] = some h ∧
    h.step (.accept 0) = some h₁ ∧ Trace.run step h₁ afternoon = some h' ∧
    ∃ socket st, h'.sockets[0]? = some socket ∧ socket.stream = some st ∧
      h'.Delivers 0 socket st (h₁.calls afternoon) :=
  ⟨_, _, _, rfl, rfl, rfl, @delivers _ _ [.connect "e1" "acme"] afternoon 0 _ rfl rfl rfl⟩

end Hub
end Kitematic.EventSockets
