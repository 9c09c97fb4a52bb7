import Kitematic.PublisherAgreement
import Kitematic.Trace

/-! Any number of processes, each with its publisher over one Redis server. A
publication waits for the server's answer while the calls of its own process and of
the others go on, and it may be lost on the way. A client of a process hears of what
that process published and of nothing else, though the channel carries it all. -/

namespace Kitematic.RedisPublishers.RedisEventPublisher
open Delivery Events

def handle (p : RedisEventPublisher) : Call → RedisEventPublisher
  | .publish event => p.deliver event
  | .subscribe executionId tenantId => (p.subscribe executionId tenantId).1
  | .unsubscribe executionId queue => p.unsubscribe executionId queue
  | .close executionId => p.close executionId
  | .closeAll => p.closeAll

theorem handle_localQueues (p : RedisEventPublisher) (call : Call) :
    (p.handle call).localQueues = p.localQueues.handle call.request := by
  cases call with
  | closeAll => exact PublisherAgreement.pubSub_closeAll p
  | _ => rfl

theorem closeAll_channelPrefix (p : RedisEventPublisher) :
    p.closeAll.channelPrefix = p.channelPrefix :=
  List.foldlRecOn (motive := fun q : RedisEventPublisher => q.channelPrefix = p.channelPrefix)
    p.activeExecutions close rfl fun _ same _ _ => same

theorem handle_channelPrefix (p : RedisEventPublisher) (call : Call) :
    (p.handle call).channelPrefix = p.channelPrefix := by
  cases call with
  | closeAll => exact p.closeAll_channelPrefix
  | _ => rfl

theorem message_congr {p p' : RedisEventPublisher} (same : p'.channelPrefix = p.channelPrefix)
    (event : ExecutionEvent) : p'.message event = p.message event := by
  rw [message, message, same]

end Kitematic.RedisPublishers.RedisEventPublisher

namespace Kitematic.RedisProcesses
open Delivery Events IsoDate RedisPublishers Trace

structure Flight where
  process : Nat
  event : ExecutionEvent

/-- The publications that Redis has yet to run, and those that it has answered. -/
structure Deployment where
  publishers : Nat → RedisEventPublisher
  commands : List Flight := []
  answers : List Flight := []
  sent : Sent := []

/-- A call of a process, a command that Redis runs, a publication that goes on after its
answer, and the two ways in which one is lost. -/
inductive Step where
  | call (process : Nat) (call : Call)
  | serve (n : Nat)
  | resume (n : Nat)
  | dropCommand (n : Nat)
  | dropAnswer (n : Nat)

namespace Deployment

def set (s : Deployment) (process : Nat) (p : RedisEventPublisher) : Deployment :=
  { s with publishers := Function.update s.publishers process p }

def message (s : Deployment) (flight : Flight) : String × String :=
  (s.publishers flight.process).message flight.event

/-- A call of `publish` runs up to its `PUBLISH`, every other call runs at once. -/
def call (s : Deployment) (process : Nat) : Call → Deployment
  | .publish event => { s with commands := s.commands ++ [⟨process, event⟩] }
  | call => s.set process ((s.publishers process).handle call)

def serve (s : Deployment) (n : Nat) : Option Deployment :=
  s.commands[n]?.map fun flight =>
    { s with
      commands := s.commands.eraseIdx n
      answers := s.answers ++ [flight]
      sent := s.sent ++ [s.message flight] }

def resume (s : Deployment) (n : Nat) : Option Deployment :=
  s.answers[n]?.map fun flight =>
    { s.set flight.process ((s.publishers flight.process).handle (.publish flight.event)) with
      answers := s.answers.eraseIdx n }

def step (s : Deployment) : Step → Option Deployment
  | .call process call => some (s.call process call)
  | .serve n => s.serve n
  | .resume n => s.resume n
  | .dropCommand n => s.commands[n]?.map fun _ => { s with commands := s.commands.eraseIdx n }
  | .dropAnswer n => s.answers[n]?.map fun _ => { s with answers := s.answers.eraseIdx n }

/-- What the subscribers of some process feel of a step: nothing of a call of `publish`
before it has its answer. -/
def felt (s : Deployment) : Step → Option (Nat × Call)
  | .call _ (.publish _) => none
  | .call process call => some (process, call)
  | .resume n => s.answers[n]?.map fun flight => (flight.process, .publish flight.event)
  | _ => none

/-- All that is felt in a run, in its order. -/
def feltIn : Deployment → List Step → List (Nat × Call)
  | _, [] => []
  | s, e :: es => (s.felt e).toList ++ ((s.step e).map fun t => feltIn t es).getD []

end Deployment

def own (process : Nat) (felt : List (Nat × Call)) : List Call :=
  (felt.filter fun entry => entry.1 = process).map Prod.snd

theorem own_append (process : Nat) (first second : List (Nat × Call)) :
    own process (first ++ second) = own process first ++ own process second := by
  simp [own]

def published (felt : List (Nat × Call)) : List Flight :=
  felt.filterMap fun
    | (process, .publish event) => some ⟨process, event⟩
    | _ => none

theorem mem_published {felt : List (Nat × Call)} {process : Nat} {event : ExecutionEvent}
    (member : Call.publish event ∈ own process felt) : ⟨process, event⟩ ∈ published felt := by
  obtain ⟨entry, member, same⟩ := List.mem_map.mp member
  obtain ⟨member, isOwn⟩ := List.mem_filter.mp member
  have whole : entry = (process, .publish event) := Prod.ext (of_decide_eq_true isOwn) same
  exact List.mem_filterMap.mpr ⟨entry, member, by rw [whole]⟩

namespace Deployment

theorem step_publisher {s t : Deployment} {e : Step} (stepped : s.step e = some t)
    (process : Nat) :
    t.publishers process =
      (own process (s.felt e).toList).foldl RedisEventPublisher.handle (s.publishers process) := by
  have handles (source : Nat) (c : Call) :
      (Function.update s.publishers source ((s.publishers source).handle c)) process =
        (own process [(source, c)]).foldl RedisEventPublisher.handle (s.publishers process) := by
    by_cases same : source = process
    · subst same
      simp [own]
    · rw [Function.update_of_ne (Ne.symm same)]
      simp [own, same]
  cases e with
  | call source c =>
    cases stepped
    cases c with
    | publish event => rfl
    | subscribe executionId tenantId => exact handles source _
    | unsubscribe executionId queue => exact handles source _
    | close executionId => exact handles source _
    | closeAll => exact handles source _
  | serve n =>
    obtain ⟨flight, _, rfl⟩ := Option.map_eq_some_iff.mp stepped
    rfl
  | resume n =>
    obtain ⟨flight, found, rfl⟩ := Option.map_eq_some_iff.mp stepped
    rw [felt, found]
    exact handles flight.process _
  | dropCommand n =>
    obtain ⟨flight, _, rfl⟩ := Option.map_eq_some_iff.mp stepped
    rfl
  | dropAnswer n =>
    obtain ⟨flight, _, rfl⟩ := Option.map_eq_some_iff.mp stepped
    rfl

theorem feltIn_cons {s t : Deployment} {e : Step} (stepped : s.step e = some t)
    (es : List Step) : s.feltIn (e :: es) = (s.felt e).toList ++ t.feltIn es := by
  rw [feltIn, stepped]
  rfl

/-- What a run does to a process, whatever the others do: it handles what it feels. -/
theorem run_publisher {s t : Deployment} {es : List Step} (ran : run step s es = some t)
    (process : Nat) :
    t.publishers process =
      (own process (s.feltIn es)).foldl RedisEventPublisher.handle (s.publishers process) := by
  induction es generalizing s with
  | nil => exact congrArg (fun d => d.publishers process) (Option.some.inj ran).symm
  | cons e es ih =>
    obtain ⟨middle, first, rest⟩ := run_cons ran
    rw [feltIn_cons first, own_append, List.foldl_append, ← step_publisher first]
    exact ih rest

theorem foldl_localQueues (p : RedisEventPublisher) (calls : List Call) :
    (calls.foldl RedisEventPublisher.handle p).localQueues =
      p.localQueues.handleAll (calls.map Call.request) := by
  rw [Broker.handleAll, List.foldl_map]
  exact (List.foldl_hom RedisEventPublisher.localQueues fun p call =>
    (p.handle_localQueues call).symm).symm

theorem foldl_channelPrefix (p : RedisEventPublisher) (calls : List Call) :
    (calls.foldl RedisEventPublisher.handle p).channelPrefix = p.channelPrefix :=
  List.foldlRecOn (motive := fun q : RedisEventPublisher => q.channelPrefix = p.channelPrefix)
    calls RedisEventPublisher.handle rfl fun q same call _ =>
      (q.handle_channelPrefix call).trans same

theorem step_message {s t : Deployment} {e : Step} (stepped : s.step e = some t) :
    t.message = s.message := by
  funext flight
  refine RedisEventPublisher.message_congr ?_ _
  rw [step_publisher stepped]
  exact foldl_channelPrefix _ _

theorem run_message {s t : Deployment} {es : List Step} (ran : run step s es = some t) :
    t.message = s.message :=
  run_invariant (I := fun d : Deployment => d.message = s.message)
    (fun _ _ _ _ same stepped => (step_message stepped).trans same) rfl ran

def Carries (s : Deployment) (done : List (String × String)) : Prop :=
  (done ++ s.answers.map s.message).Subperm s.sent

theorem step_carries {s t : Deployment} {e : Step} {done : List (String × String)}
    (stepped : s.step e = some t) (carries : s.Carries done) :
    t.Carries (done ++ (published (s.felt e).toList).map s.message) := by
  rw [Carries, step_message stepped]
  unfold Carries at carries
  cases e with
  | call process c =>
    cases stepped
    cases c <;> simpa [felt, published, call, set] using carries
  | serve n =>
    obtain ⟨flight, _, rfl⟩ := Option.map_eq_some_iff.mp stepped
    simpa [felt, published, ← List.append_assoc] using
      (List.subperm_append_right [s.message flight]).mpr carries
  | resume n =>
    obtain ⟨flight, found, rfl⟩ := Option.map_eq_some_iff.mp stepped
    obtain ⟨inside, rfl⟩ := List.getElem?_eq_some_iff.mp found
    have taken := (List.getElem_cons_eraseIdx_perm inside).map s.message
    refine List.Subperm.trans ?_ carries
    simpa [felt, published, set, found] using (List.Perm.append_left done taken).subperm
  | dropCommand n =>
    obtain ⟨flight, _, rfl⟩ := Option.map_eq_some_iff.mp stepped
    simpa [felt, published] using carries
  | dropAnswer n =>
    obtain ⟨flight, _, rfl⟩ := Option.map_eq_some_iff.mp stepped
    have fewer := (List.eraseIdx_sublist s.answers n).map s.message
    simpa [felt, published] using (fewer.append_left done).subperm.trans carries

theorem run_carries {s t : Deployment} {es : List Step} {done : List (String × String)}
    (ran : run step s es = some t) (carries : s.Carries done) :
    t.Carries (done ++ (published (s.feltIn es)).map s.message) := by
  induction es generalizing s done with
  | nil =>
    obtain rfl := Option.some.inj ran
    simpa [feltIn, published] using carries
  | cons e es ih =>
    obtain ⟨middle, first, rest⟩ := run_cons ran
    have later := ih rest (step_carries first carries)
    rw [step_message first] at later
    simpa [feltIn_cons first, published, List.append_assoc] using later

theorem Carries.answered {s : Deployment} {done : List (String × String)}
    (carries : s.Carries done) : s.Carries [] :=
  (List.sublist_append_right done _).subperm.trans carries

theorem Carries.done {s : Deployment} {done : List (String × String)}
    (carries : s.Carries done) : done.Subperm s.sent :=
  (List.sublist_append_left done _).subperm.trans carries

def new (channelPrefix : Nat → String) : Deployment where
  publishers process := { channelPrefix := channelPrefix process }

theorem new_carries (channelPrefix : Nat → String) : (new channelPrefix).Carries [] :=
  List.nil_subperm

end Deployment

theorem native_toDict {event : ExecutionEvent} (native : Json.Native (.dict event.payload)) :
    Json.Native (.dict event.toDict) := by
  refine ⟨by simp [ExecutionEvent.toDict], Json.nativeFields_iff.mpr ?_⟩
  simp only [ExecutionEvent.toDict, List.forall_mem_cons, List.not_mem_nil, false_implies,
    implies_true, and_true]
  refine ⟨trivial, trivial, trivial, ?_, trivial, native, trivial, trivial⟩
  cases event.agentId <;> trivial

/-- What a client of a process gets, and what the channels have of it: its queue holds
what its own process published, once each publication went on, and each of these was
sent before as a text that reads back to it. -/
structure Hears (t : Deployment) (process : Nat) (executionId tenantId : String) (queue : Nat)
    (felt : List (Nat × Call)) : Prop where
  holds : (t.publishers process).queue queue =
    some ((due executionId tenantId queue (own process felt)).map
        (fun event => some event.toDict) ++
      if closedWhile executionId queue (own process felt) then [none] else [])
  carried : ((published felt).map t.message).Subperm t.sent
  readable : ∀ event ∈ due executionId tenantId queue (own process felt),
    Json.Native (.dict event.payload) → ∃ data : String,
      ((t.publishers process).channelPrefix ++ ":events:" ++ executionId, data) ∈ t.sent ∧
        Json.read data.toList = some (.dict event.toDict)

theorem mem_due {executionId tenantId : String} {queue : Nat} {calls : List Call}
    {event : ExecutionEvent} (member : event ∈ due executionId tenantId queue calls) :
    .publish event ∈ calls ∧ event.executionId = executionId := by
  obtain ⟨call, member, shown⟩ := List.mem_filterMap.mp member
  have called := (List.takeWhile_sublist _).subset member
  cases call with
  | publish event' =>
    simp only [Call.shows] at shown
    split at shown
    next visible =>
      cases shown
      exact ⟨called, visible.1⟩
    · cases shown
  | subscribe => cases shown
  | unsubscribe => cases shown
  | close => cases shown
  | closeAll => cases shown

theorem carried {channelPrefix : Nat → String} {before later : List Step} {s t : Deployment}
    {process : Nat} {executionId tenantId : String}
    (ran : run Deployment.step (.new channelPrefix) before = some s)
    (on : run Deployment.step (s.call process (.subscribe executionId tenantId)) later = some t) :
    ((published ((s.call process (.subscribe executionId tenantId)).feltIn later)).map
      t.message).Subperm t.sent := by
  have started := (Deployment.run_carries ran (Deployment.new_carries channelPrefix)).answered
  have joined := Deployment.step_carries (e := .call process (.subscribe executionId tenantId))
    rfl started
  rw [Deployment.run_message on]
  exact (Deployment.run_carries on joined.answered).done

/-- In every run of any number of processes, with publications that are answered in any
order or lost, a client hears of the publications of its own process alone. -/
theorem hears {channelPrefix : Nat → String} {before later : List Step} {s t : Deployment}
    {process : Nat} {executionId tenantId : String}
    (ran : run Deployment.step (.new channelPrefix) before = some s)
    (on : run Deployment.step (s.call process (.subscribe executionId tenantId)) later = some t) :
    Hears t process executionId tenantId
      ((s.publishers process).subscribe executionId tenantId).2
      ((s.call process (.subscribe executionId tenantId)).feltIn later) where
  holds := by
    have numbered : (s.publishers process).localQueues.Numbered := by
      rw [Deployment.run_publisher ran, Deployment.foldl_localQueues]
      exact Broker.Numbered.empty.handleAll _
    have joined : (s.call process (.subscribe executionId tenantId)).publishers process =
        ((s.publishers process).subscribe executionId tenantId).1 := Function.update_self ..
    rw [RedisEventPublisher.queue, Deployment.run_publisher on, Deployment.foldl_localQueues,
      joined, ← content_requests]
    exact numbered.queue_history executionId tenantId _
  carried := carried ran on
  readable event member native := by
    obtain ⟨felt, rfl⟩ := mem_due member
    have sent := (carried ran on).subset (List.mem_map_of_mem (mem_published felt))
    refine ⟨_, sent, ?_⟩
    rw [String.toList_ofList]
    exact Json.read_write (native_toDict native)

def overlapping : List Step :=
  [.call 1 (.publish ⟨"event-1", "e1", "acme", none, .known .loopStarted, [], epoch, "1.0"⟩),
    .call 0 (.publish ⟨"event-2", "e1", "acme", none, .known .stepCompleted, [], epoch, "1.0"⟩),
    .serve 1, .serve 0, .resume 1, .resume 0, .call 0 (.unsubscribe "e1" 0)]

theorem hears_overlapping : ∃ s t,
    run Deployment.step (.new fun _ => "kitematic") [] = some s ∧
      run Deployment.step (s.call 0 (.subscribe "e1" "acme")) overlapping = some t ∧
      Hears t 0 "e1" "acme" ((s.publishers 0).subscribe "e1" "acme").2
        ((s.call 0 (.subscribe "e1" "acme")).feltIn overlapping) :=
  ⟨_, _, rfl, rfl, @hears (fun _ => "kitematic") [] overlapping _ _ 0 "e1" "acme" rfl rfl⟩

end Kitematic.RedisProcesses
