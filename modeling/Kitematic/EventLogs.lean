import Kitematic.Events
import Kitematic.Lifecycle
import Kitematic.Objects

/-! Event logs. An event is immutable, but its payload is a dictionary that it refers to, and the
metadata in the payload is the dictionary that the caller handed over. The reads look at the log
and the dictionaries only, and the lists and dictionaries they return are new. -/

namespace Kitematic.EventLogs
open Dictionary Events Objects PyText IsoDate

abbrev Store := Heap String Value

structure ExecutionEvent where
  eventId : String
  executionId : String
  tenantId : String := ""
  agentId : Option String := none
  eventType : EventType
  payload : ℕ
  createdAt : DateTime
  schemaVersion : String := "1.0"

def ExecutionEvent.field (h : Store) (event : ExecutionEvent) (key : String) :
    Option (Cell Value) :=
  match h.get event.payload with
  | some (.dict entries) => entries.get key
  | _ => none

/-- The property `step_number`, where the payload has none or an integer. -/
def ExecutionEvent.stepNumber (h : Store) (event : ExecutionEvent) : Option Int :=
  match event.field h "step_number" with
  | none => some 0
  | some (.atom (.int n)) => some n
  | some _ => none

def ExecutionEvent.toDict (event : ExecutionEvent) : List (String × Cell Value) :=
  [("event_id", .atom (.str event.eventId)), ("execution_id", .atom (.str event.executionId)),
    ("tenant_id", .atom (.str event.tenantId)),
    ("agent_id", .atom (event.agentId.elim .none .str)),
    ("event_type", .atom (.str event.eventType.value)), ("payload", .ref event.payload),
    ("created_at", .atom (.str (String.ofList (isoformat event.createdAt)))),
    ("schema_version", .atom (.str event.schemaVersion))]

structure EventLog where
  executionId : String
  events : List ExecutionEvent := []
  counter : Nat := 0

structure Emission where
  eventType : EventType
  state : String := ""
  metadata : Option ℕ := none
  error : Option String := none
  now : DateTime

structure LogDict where
  executionId : String
  eventCount : Nat
  events : List (List (String × Cell Value))

/-- `f"{n:04d}"` for the width 4. -/
def zeroPadded (width n : Nat) : List Char := (Nat.toDigits 10 n).leftpad width '0'

def eventId (executionId : String) (counter : Nat) : String :=
  "evt-" ++ executionId ++ "-" ++ String.ofList (zeroPadded 4 counter)

def isFilled (h : Store) (a : ℕ) : Bool :=
  match h.get a with
  | some (.dict entries) => !entries.entries.isEmpty
  | some (.list items) => !items.isEmpty
  | some (.uncopyable _) => true
  | none => false

def orEmpty (h : Store) (metadata : Option ℕ) : Store × ℕ :=
  match metadata.filter (isFilled h) with
  | some a => (h, a)
  | none => h.alloc (.dict .empty) (by simp)

def payload (state : String) (stepNumber metadata : ℕ) (error : Option String) :
    Dict String (Cell Value) :=
  ⟨[("state", .atom (.str state)), ("step_number", .atom (.int stepNumber)),
    ("metadata", .ref metadata), ("error", .atom (error.elim .none .str))], by simp⟩

theorem orEmpty_extends (h : Store) (metadata : Option ℕ) : h.Extends (orEmpty h metadata).1 := by
  unfold orEmpty
  split
  next => exact List.prefix_refl _
  next => exact Heap.alloc_extends ..

theorem orEmpty_lt (h : Store) (metadata : Option ℕ) :
    (orEmpty h metadata).2 < (orEmpty h metadata).1.size := by
  unfold orEmpty
  split
  next a kept =>
    have filled := (Option.filter_eq_some_iff.mp kept).2
    unfold isFilled at filled
    cases found : h.get a with
    | none => simp [found] at filled
    | some o => exact Heap.get_lt found
  next => exact (Heap.alloc_new ..).2

theorem payload_closed (h : Store) (e : Emission) (stepNumber : ℕ) :
    ∀ c ∈ (Object.dict (payload e.state stepNumber (orEmpty h e.metadata).2 e.error)).refs,
      c < (orEmpty h e.metadata).1.size :=
  fun _ edge => List.mem_singleton.mp edge ▸ orEmpty_lt h e.metadata

namespace EventLog

def emit (log : EventLog) (h : Store) (e : Emission) : EventLog × Store × ExecutionEvent :=
  let counter := log.counter + 1
  let metadata := orEmpty h e.metadata
  let allocated := metadata.1.alloc (.dict (payload e.state counter metadata.2 e.error))
    (payload_closed h e counter)
  let event : ExecutionEvent :=
    { eventId := eventId log.executionId counter, executionId := log.executionId
      eventType := e.eventType, payload := allocated.2, createdAt := e.now }
  ({ log with counter, events := log.events ++ [event] }, allocated.1, event)

def count (log : EventLog) : Nat := log.events.length

def lastEvent (log : EventLog) : Option ExecutionEvent := log.events.getLast?

def getEventsByType (log : EventLog) (eventType : EventType) : List ExecutionEvent :=
  log.events.filter fun e => e.eventType = eventType

def toDict (log : EventLog) : LogDict :=
  ⟨log.executionId, log.count, log.events.map ExecutionEvent.toDict⟩

end EventLog

/-! Runs of several logs over the same objects. -/

structure Logs where
  logs : List EventLog
  store : Store

inductive Read where
  | events
  | count
  | lastEvent
  | byType (eventType : EventType)
  | toDict

inductive Answer where
  | event (e : Option ExecutionEvent)
  | events (es : List ExecutionEvent)
  | number (n : Nat)
  | dict (d : LogDict)

def answer (log : EventLog) : Read → Answer
  | .events => .events log.events
  | .count => .number log.count
  | .lastEvent => .event log.lastEvent
  | .byType eventType => .events (log.getEventsByType eventType)
  | .toDict => .dict log.toDict

/-- Callers emit to a log and read from it; and they make dictionaries and lists and change those
that are not the payload of an event. -/
inductive Call where
  | emit (log : ℕ) (e : Emission)
  | read (log : ℕ) (what : Read)
  | make (o : Object String Value)
  | change (a : ℕ) (o : Object String Value)

namespace Logs

def start (executionIds : List String) (store : Store) : Logs :=
  ⟨executionIds.map fun executionId => { executionId }, store⟩

def IsPayload (s : Logs) (a : ℕ) : Prop := ∃ log ∈ s.logs, ∃ event ∈ log.events, event.payload = a

instance (s : Logs) (a : ℕ) : Decidable (s.IsPayload a) :=
  inferInstanceAs (Decidable (∃ log ∈ s.logs, ∃ event ∈ log.events, event.payload = a))

def eventIds (s : Logs) : List String :=
  s.logs.flatMap fun log => log.events.map ExecutionEvent.eventId

def handle (s : Logs) : Call → Logs × Option Answer
  | .emit i e =>
      match s.logs[i]? with
      | none => (s, none)
      | some log =>
          let emitted := log.emit s.store e
          (⟨s.logs.set i emitted.1, emitted.2.1⟩, some (.event (some emitted.2.2)))
  | .read i what => (s, s.logs[i]?.map fun log => answer log what)
  | .make o =>
      if closed : ∀ c ∈ o.refs, c < s.store.size then
        ({ s with store := (s.store.alloc o closed).1 }, none)
      else (s, none)
  | .change a o =>
      if closed : (∀ c ∈ o.refs, c < s.store.size) ∧ ¬ s.IsPayload a then
        ({ s with store := s.store.put a o closed.1 }, none)
      else (s, none)

def run (s : Logs) (calls : List Call) : Logs := calls.foldl (fun s call => (s.handle call).1) s

end Logs

def Call.emission (i : ℕ) : Call → Option Emission
  | .emit j e => if j = i then some e else none
  | _ => none

def emissions (i : ℕ) (calls : List Call) : List Emission := calls.filterMap (Call.emission i)

/-! Event ids. The digits after the last dash are the number, whatever their count. -/

theorem ofDigitChars_zeroPadded (width n : Nat) :
    Nat.ofDigitChars 10 (zeroPadded width n) 0 = n := by
  rw [zeroPadded, List.leftpad, Nat.ofDigitChars_append, Nat.ofDigitChars_replicate_zero,
    Nat.mul_zero, Nat.ofDigitChars_ten_toDigits]

theorem zeroPadded_inj {width m n : Nat} (same : zeroPadded width m = zeroPadded width n) :
    m = n := by
  rw [← ofDigitChars_zeroPadded width m, same, ofDigitChars_zeroPadded]

theorem dash_not_mem_zeroPadded (width n : Nat) : '-' ∉ zeroPadded width n := by
  intro member
  rcases List.mem_append.mp member with padding | digit
  · exact absurd (List.eq_of_mem_replicate padding) (by decide)
  · exact absurd (Nat.isDigit_of_mem_toDigits (by decide) (by decide) digit) (by decide)

theorem eventId_inj {executionId executionId' : String} {m n : Nat} :
    eventId executionId m = eventId executionId' n ↔ executionId = executionId' ∧ m = n := by
  constructor
  · intro same
    have letters := congrArg String.toList same
    have dash : "-".toList = ['-'] := by decide
    simp only [eventId, String.toList_append, String.toList_ofList, dash, List.append_assoc,
      List.singleton_append] at letters
    rw [← List.append_assoc, ← List.append_assoc] at letters
    obtain ⟨front, number⟩ := lastSplit_inj (dash_not_mem_zeroPadded 4 m)
      (dash_not_mem_zeroPadded 4 n) letters
    exact ⟨String.toList_inj.mp (List.append_cancel_left front), zeroPadded_inj number⟩
  · rintro ⟨rfl, rfl⟩
    rfl

example : eventId "exec-1" 7 = "evt-exec-1-0007" := by decide +kernel
example : eventId "exec-1" 10000 = "evt-exec-1-10000" := by decide +kernel

/-! What an event says. -/

structure Record where
  eventId : String
  executionId : String
  eventType : EventType
  state : String
  stepNumber : Int
  error : Value
  createdAt : DateTime

def ExecutionEvent.record (h : Store) (event : ExecutionEvent) : Option Record :=
  match event.field h "state", event.field h "step_number", event.field h "error" with
  | some (.atom (.str state)), some (.atom (.int n)), some (.atom error) =>
      some ⟨event.eventId, event.executionId, event.eventType, state, n, error, event.createdAt⟩
  | _, _, _ => none

def entry (executionId : String) (n : Nat) (e : Emission) : Record :=
  ⟨eventId executionId n, executionId, e.eventType, e.state, n, e.error.elim .none .str, e.now⟩

/-- The log holds a record of every emission, and nothing else. -/
structure Follows (h : Store) (log : EventLog) (es : List Emission) : Prop where
  counter : log.counter = es.length
  records : log.events.map (ExecutionEvent.record h) =
    (es.zipIdx 1).map fun e => some (entry log.executionId e.2 e.1)

section log
variable {h h' : Store} {log : EventLog} {es : List Emission} {event : ExecutionEvent}

theorem field_congr (same : h'.get event.payload = h.get event.payload) (key : String) :
    event.field h' key = event.field h key := by
  rw [ExecutionEvent.field, ExecutionEvent.field, same]

theorem record_congr (same : h'.get event.payload = h.get event.payload) :
    event.record h' = event.record h := by
  simp only [ExecutionEvent.record, field_congr same]

theorem payload_lt {r : Record} (known : event.record h = some r) : event.payload < h.size := by
  unfold ExecutionEvent.record ExecutionEvent.field at known
  cases found : h.get event.payload with
  | none => simp [found] at known
  | some o => exact Heap.get_lt found

theorem Follows.record (follows : Follows h log es) (member : event ∈ log.events) :
    ∃ r, event.record h = some r := by
  have listed := List.mem_map_of_mem (f := ExecutionEvent.record h) member
  rw [follows.records] at listed
  obtain ⟨e, _, known⟩ := List.mem_map.mp listed
  exact ⟨_, known.symm⟩

theorem Follows.frame (follows : Follows h log es)
    (same : ∀ event ∈ log.events, h'.get event.payload = h.get event.payload) :
    Follows h' log es where
  counter := follows.counter
  records := by
    rw [← follows.records]
    exact List.map_congr_left fun event member => record_congr (same event member)

theorem Follows.extends (follows : Follows h log es) (extended : h.Extends h') :
    Follows h' log es := by
  refine follows.frame fun event member => ?_
  obtain ⟨r, known⟩ := follows.record member
  exact extended.get (payload_lt known)

theorem emit_extends (log : EventLog) (h : Store) (e : Emission) :
    h.Extends (log.emit h e).2.1 :=
  (orEmpty_extends h e.metadata).trans (Heap.alloc_extends _ _ (payload_closed h e _))

theorem record_emit (log : EventLog) (h : Store) (e : Emission) :
    (log.emit h e).2.2.record (log.emit h e).2.1 =
      some (entry log.executionId (log.counter + 1) e) := by
  have stored : (log.emit h e).2.1.get (log.emit h e).2.2.payload =
      some (.dict (payload e.state (log.counter + 1) (orEmpty h e.metadata).2 e.error)) :=
    Heap.get_alloc _ _ (payload_closed h e _)
  unfold ExecutionEvent.record ExecutionEvent.field
  rw [stored]
  rfl

theorem Follows.emit (follows : Follows h log es) (e : Emission) :
    Follows (log.emit h e).2.1 (log.emit h e).1 (es ++ [e]) where
  counter := by
    rw [List.length_append, ← follows.counter]
    rfl
  records := by
    have earlier := (follows.extends (emit_extends log h e)).records
    have new := record_emit log h e
    have appended : (log.emit h e).1.events = log.events ++ [(log.emit h e).2.2] := rfl
    rw [appended, List.map_append, List.zipIdx_append, List.map_append, earlier, List.map_singleton,
      new, follows.counter, Nat.add_comm]
    rfl

theorem record_spec {r : Record} (known : event.record h = some r) :
    event.eventId = r.eventId ∧ event.stepNumber h = some r.stepNumber := by
  unfold ExecutionEvent.record at known
  split at known
  next state number error =>
    obtain rfl := Option.some.inj known
    exact ⟨rfl, by rw [ExecutionEvent.stepNumber, number]⟩
  next => cases known

theorem Follows.map {β : Type*} (follows : Follows h log es) {f : ExecutionEvent → β}
    {g : Record → β} (agree : ∀ event r, event.record h = some r → f event = g r) :
    log.events.map f = (es.zipIdx 1).map fun e => g (entry log.executionId e.2 e.1) := by
  apply List.map_injective_iff.mpr (Option.some_injective β)
  have each : log.events.map (fun event => some (f event)) =
      (log.events.map (ExecutionEvent.record h)).map (Option.map g) := by
    rw [List.map_map]
    refine List.map_congr_left fun event member => ?_
    obtain ⟨r, known⟩ := follows.record member
    simp [known, agree event r known]
  rw [List.map_map, List.map_map]
  exact each.trans (by rw [follows.records, List.map_map]; rfl)

theorem Follows.eventIds (follows : Follows h log es) :
    log.events.map ExecutionEvent.eventId =
      (List.range' 1 es.length).map (eventId log.executionId) := by
  rw [follows.map fun _ _ known => (record_spec known).1, ← List.zipIdx_map_snd, List.map_map]
  rfl

theorem Follows.stepNumbers (follows : Follows h log es) :
    log.events.map (ExecutionEvent.stepNumber h) =
      (List.range' 1 es.length).map fun n : ℕ => some (n : Int) := by
  rw [follows.map fun _ _ known => (record_spec known).2, ← List.zipIdx_map_snd, List.map_map]
  rfl

theorem Follows.count (follows : Follows h log es) : log.count = es.length := by
  have length := congrArg List.length follows.records
  rwa [List.length_map, List.length_map, List.length_zipIdx] at length

end log

/-! Runs. -/

structure Keeps (s t : Logs) : Prop where
  events : ∀ (i : ℕ) (log : EventLog), s.logs[i]? = some log →
    ∃ log' : EventLog, t.logs[i]? = some log' ∧ log.events <+: log'.events
  objects : s.store.Extends t.store

structure Sound (executionIds : List String) (calls : List Call) (s : Logs) : Prop where
  ids : s.logs.map EventLog.executionId = executionIds
  follows : ∀ i log, s.logs[i]? = some log → Follows s.store log (emissions i calls)

section run
variable {executionIds : List String} {calls : List Call} {s : Logs}

theorem emissions_append (i : ℕ) (calls : List Call) (call : Call) :
    emissions i (calls ++ [call]) = emissions i calls ++ (call.emission i).toList := by
  unfold emissions
  cases found : call.emission i <;> simp [found]

theorem Sound.frame (sound : Sound executionIds calls s) {call : Call}
    (silent : ∀ i, call.emission i = none) {store : Store}
    (same : ∀ a, s.IsPayload a → a < s.store.size → store.get a = s.store.get a) :
    Sound executionIds (calls ++ [call]) ⟨s.logs, store⟩ where
  ids := sound.ids
  follows := by
    intro i log found
    rw [emissions_append, silent, Option.toList_none, List.append_nil]
    have follows := sound.follows i log found
    refine follows.frame fun event member => ?_
    obtain ⟨r, known⟩ := follows.record member
    exact same _ ⟨log, List.mem_of_getElem? found, event, member, rfl⟩ (payload_lt known)

theorem handle_sound (sound : Sound executionIds calls s) (call : Call) :
    Sound executionIds (calls ++ [call]) (s.handle call).1 := by
  cases call with
  | read i what => exact sound.frame (fun _ => rfl) fun _ _ _ => rfl
  | make o =>
    simp only [Logs.handle]
    split
    next closed =>
      exact sound.frame (fun _ => rfl) fun a _ below =>
        (Heap.alloc_extends s.store o closed).get below
    next => exact sound.frame (fun _ => rfl) fun _ _ _ => rfl
  | change a o =>
    simp only [Logs.handle]
    split
    next allowed =>
      refine sound.frame (fun _ => rfl) fun b payload _ => ?_
      exact Heap.get_put_ne fun same => allowed.2 (same ▸ payload)
    next => exact sound.frame (fun _ => rfl) fun _ _ _ => rfl
  | emit j e =>
    simp only [Logs.handle]
    cases target : s.logs[j]? with
    | none =>
      refine ⟨sound.ids, fun i log found => ?_⟩
      have other : j ≠ i := by
        rintro rfl
        cases target.symm.trans found
      rw [emissions_append, Call.emission, if_neg other, Option.toList_none, List.append_nil]
      exact sound.follows i log found
    | some log =>
      obtain ⟨inside, here⟩ := List.getElem?_eq_some_iff.mp target
      refine ⟨?_, fun i log' found => ?_⟩
      · have mapped : j < (s.logs.map EventLog.executionId).length := by simpa using inside
        have kept : (log.emit s.store e).1.executionId = (s.logs.map EventLog.executionId)[j] := by
          rw [List.getElem_map, here]
          rfl
        rw [List.map_set, kept, List.set_getElem_self, sound.ids]
      · rw [emissions_append, Call.emission]
        by_cases same : j = i
        · subst same
          rw [List.getElem?_set_self inside] at found
          obtain rfl := Option.some.inj found
          rw [if_pos rfl]
          exact (sound.follows j log target).emit e
        · rw [List.getElem?_set_ne same] at found
          rw [if_neg same, Option.toList_none, List.append_nil]
          exact (sound.follows i log' found).extends (emit_extends log s.store e)

theorem run_sound (executionIds : List String) (store : Store) (calls : List Call) :
    Sound executionIds calls ((Logs.start executionIds store).run calls) := by
  induction calls using List.reverseRecOn with
  | nil =>
    refine ⟨by simp [Logs.start, Logs.run, Function.comp_def], fun i log found => ?_⟩
    simp only [Logs.run, Logs.start, List.foldl_nil, List.getElem?_map, Option.map_eq_some_iff] at found
    obtain ⟨executionId, _, rfl⟩ := found
    exact ⟨rfl, rfl⟩
  | append_singleton calls call ih =>
    unfold Logs.run at *
    rw [List.foldl_append]
    exact handle_sound ih call

theorem emit_keeps (s : Logs) (i : ℕ) (e : Emission) : Keeps s (s.handle (.emit i e)).1 := by
  simp only [Logs.handle]
  cases target : s.logs[i]? with
  | none => exact ⟨fun j log found => ⟨log, found, List.prefix_refl _⟩, List.prefix_refl _⟩
  | some log =>
    refine ⟨fun j log' found => ?_, emit_extends log s.store e⟩
    by_cases same : i = j
    · subst same
      obtain ⟨inside, _⟩ := List.getElem?_eq_some_iff.mp target
      obtain rfl := Option.some.inj (target.symm.trans found)
      exact ⟨_, List.getElem?_set_self inside, List.prefix_append ..⟩
    · exact ⟨log', (List.getElem?_set_ne same).trans found, List.prefix_refl _⟩

theorem read_keeps (s : Logs) (i : ℕ) (what : Read) : Keeps s (s.handle (.read i what)).1 :=
  ⟨fun _ log found => ⟨log, found, List.prefix_refl _⟩, List.prefix_refl _⟩

theorem eventIds_nodup (sound : Sound executionIds calls s) (distinct : executionIds.Nodup) :
    s.eventIds.Nodup := by
  have ids : ∀ log ∈ s.logs, ∃ n, log.events.map ExecutionEvent.eventId =
      (List.range' 1 n).map (eventId log.executionId) := by
    intro log member
    obtain ⟨i, found⟩ := List.mem_iff_getElem?.mp member
    exact ⟨_, (sound.follows i log found).eventIds⟩
  rw [Logs.eventIds, List.nodup_flatMap]
  constructor
  · intro log member
    obtain ⟨n, same⟩ := ids log member
    rw [same]
    exact (List.nodup_range' 1).map fun _ _ equal => (eventId_inj.mp equal).2
  · rw [← sound.ids] at distinct
    refine (List.pairwise_map.mp distinct).imp_of_mem fun {log log'} member member' apart => ?_
    intro id (inside : id ∈ log.events.map _) (inside' : id ∈ log'.events.map _)
    obtain ⟨n, same⟩ := ids log member
    obtain ⟨n', same'⟩ := ids log' member'
    rw [same] at inside
    rw [same'] at inside'
    obtain ⟨k, _, rfl⟩ := List.mem_map.mp inside
    obtain ⟨k', _, equal⟩ := List.mem_map.mp inside'
    exact apart (eventId_inj.mp equal).1.symm

end run

/-- The logs after some calls, and what the next emission or read leaves as it is. -/
structure AppendOnly (calls : List Call) (s : Logs) : Prop where
  distinct : s.eventIds.Nodup
  follows : ∀ (i : ℕ) (log : EventLog), s.logs[i]? = some log →
    Follows s.store log (emissions i calls)
  stepNumbers : ∀ log ∈ s.logs, log.events.map (ExecutionEvent.stepNumber s.store) =
    (List.range' 1 log.events.length).map fun n : ℕ => some (n : Int)
  count : ∀ log ∈ s.logs, log.count = log.events.length
  lastEvent : ∀ log ∈ s.logs, log.lastEvent = log.events.getLast?
  emits : ∀ i e, Keeps s (s.handle (.emit i e)).1
  reads : ∀ i what, Keeps s (s.handle (.read i what)).1

/-- Logs of distinct executions are append-only, and their event ids are distinct. -/
theorem logs_append_only (executionIds : List String) (distinct : executionIds.Nodup)
    (store : Store) (calls : List Call) :
    AppendOnly calls ((Logs.start executionIds store).run calls) := by
  have sound := run_sound executionIds store calls
  refine ⟨eventIds_nodup sound distinct, sound.follows, fun log member => ?_, fun _ _ => rfl,
    fun _ _ => rfl, emit_keeps _, read_keeps _⟩
  obtain ⟨i, found⟩ := List.mem_iff_getElem?.mp member
  have follows := sound.follows i log found
  have numbers := follows.stepNumbers
  rwa [← follows.count] at numbers

def dashed : List Call :=
  [.make (.dict .empty), .emit 0 { eventType := .loopStarted, now := epoch },
    .emit 1 { eventType := .loopStarted, metadata := some 0, now := epoch }, .read 0 .lastEvent,
    .emit 0 { eventType := .loopFailed, error := some "denied", now := epoch }]

theorem logs_append_only_dashed : ["exec-1", "exec-1-0001"].Nodup ∧
    AppendOnly dashed ((Logs.start ["exec-1", "exec-1-0001"] ⟨[], by simp⟩).run dashed) :=
  ⟨by decide, logs_append_only ["exec-1", "exec-1-0001"] (by decide) ⟨[], by simp⟩ dashed⟩

/-! The log of a loop, of which `Lifecycle` keeps what the loop emits. -/

def kind : Lifecycle.EventType → EventType
  | .loopStarted => .loopStarted
  | .budgetChecked => .budgetChecked
  | .stepCompleted => .stepCompleted
  | .loopTerminated => .loopTerminated
  | .loopFailed => .loopFailed
  | .loopHalted => .loopHalted
  | .budgetExhausted => .budgetExhausted
  | .timeoutOccurred => .timeoutOccurred

def Says (h : Store) (event : ExecutionEvent) (e : Lifecycle.LoopEvent) : Prop :=
  ∃ r, event.record h = some r ∧ r.eventType = kind e.eventType ∧ r.state = e.state.value ∧
    r.stepNumber = e.stepNumber ∧ r.error = e.error.elim .none .str

structure Shows (h : Store) (log : EventLog) (loop : Lifecycle.EventLog) : Prop where
  executionId : log.executionId = loop.executionId
  counter : log.counter = loop.events.length
  events : List.Forall₂ (Says h) log.events loop.events

theorem shows_new (h : Store) (executionId : String) : Shows h { executionId } { executionId } :=
  ⟨rfl, rfl, .nil⟩

theorem Shows.emit {h : Store} {log : EventLog} {loop : Lifecycle.EventLog}
    (shows : Shows h log loop) (eventType : Lifecycle.EventType) (state : State.ExecutionState)
    (metadata : Lifecycle.EventMetadata) (error : Option String) {e : Emission}
    (type : e.eventType = kind eventType) (named : e.state = state.value)
    (failed : e.error = error) :
    Shows (log.emit h e).2.1 (log.emit h e).1 (loop.emit eventType state metadata error) where
  executionId := shows.executionId
  counter := by
    change log.counter + 1 = (loop.events ++ _).length
    rw [List.length_append, shows.counter]
    rfl
  events := by
    have earlier : List.Forall₂ (Says (log.emit h e).2.1) log.events loop.events := by
      refine shows.events.imp fun event le ⟨r, known, rest⟩ => ⟨r, ?_, rest⟩
      rw [record_congr ((emit_extends log h e).get (payload_lt known)), known]
    refine List.rel_append earlier (.cons ⟨_, record_emit log h e, type, named, ?_, ?_⟩ .nil)
    · change ((log.counter + 1 : ℕ) : Int) = (loop.events.length + 1 : ℕ)
      rw [shows.counter]
    · exact congrArg (fun text : Option String => text.elim Value.none Value.str) failed

end Kitematic.EventLogs
