import Kitematic.StreamReads

/-! At-least-once delivery over the streams. An event that was published after its
tenant's group had been ensured, and that is not acknowledged, should stay within
reach of the tenant's reads. It does so exactly in the runs whose steps all leave a
live reader for every such event and hand none out unacknowledged. -/

namespace Kitematic.StreamDelivery
open Events PyText RedisPublishers StreamLog StreamRuns StreamReads Trace

def Acknowledged (redis : Redis) (a : Awaited) : Prop :=
  (redis.stream a.stream).Acknowledged a.group a.id

def Waiting (redis : Redis) (a : Awaited) : Prop := (redis.stream a.stream).Waiting a.group a.id

def AtLeastOnce (w : World) : Prop := ∀ a ∈ w.awaited, ¬ Acknowledged w.redis a → WithinReach w a

def withKeys (w : World) (i : Nat) (p : RedisStreamPublisher) (streamKeys : List String) :
    List (Option RedisStreamPublisher) :=
  w.instances.set i (some { p with streamKeys })

/-- Some live instance covers each pending event after the change. -/
def StillCovered (w : World) (instances : List (Option RedisStreamPublisher)) : Prop :=
  ∀ a ∈ w.awaited, ¬ Acknowledged w.redis a → Covered w.redis instances a

/-- None of the oldest entries of a stream is a pending event. -/
def Spared (w : World) (stream : String) (dropped : Nat) : Prop :=
  ∀ a ∈ w.awaited, ¬ Acknowledged w.redis a → a.stream = stream →
    a.id ∉ ((w.redis.stream stream).entries.take dropped).map Prod.fst

/-- Every pending event that the read hands out is acknowledged before anything else runs. -/
def Processes (w : World) (p : RedisStreamPublisher) (tenantId : String) (count : Nat)
    (processed : List (String × Nat)) : Prop :=
  ∀ a ∈ w.awaited, ¬ Acknowledged w.redis a → a.group = p.groupName tenantId →
    a.stream ∈ p.readKeys → Readable p w.redis a.group →
      (w.redis.stream a.stream).ahead a.group a.id < count → (a.stream, a.id) ∈ processed

/-- The condition on an action, in the state before it. -/
def SafeAction (w : World) (i : Nat) (p : RedisStreamPublisher) : Action → Prop
  | .append event _ dropped => Spared w (p.streamKey event.executionId) dropped
  | .trim executionId _ dropped => Spared w (p.streamKey executionId) dropped
  | .close executionId =>
      StillCovered w (withKeys w i p (p.streamKeys.filter (· ≠ p.streamKey executionId)))
  | .closeAll =>
      StillCovered w (withKeys w i p
        (p.streamKeys.filter fun k => k ∉ p.activeExecutions.map p.streamKey))
  | .crash => StillCovered w (w.instances.set i none)
  | .read tenantId count processed => Processes w p tenantId count processed
  | _ => True

/-- A publish call that ends may add a stream to what its instance reads. -/
def SafeFinish (w : World) (call : Publishing) (p : RedisStreamPublisher) : Prop :=
  ∀ a ∈ w.awaited ++ call.awaits p, ¬ Acknowledged w.redis a → Waiting w.redis a ∧
    Covered w.redis (withKeys w call.owner p
      (p.streamKeys.insert (p.streamKey call.event.executionId))) a

def Safe : List StreamRuns.Event → World → StreamRuns.Event → Prop
  | _, _, .start _ _ => True
  | _, w, .act i action => ∀ p, live w.instances i = some p → SafeAction w i p action
  | _, w, .finish n => ∀ call, w.publishing[n]? = some call →
      ∀ p, live w.instances call.owner = some p → SafeFinish w call p

def Standing (redis : Redis) (instances : List (Option RedisStreamPublisher)) (a : Awaited) :
    Prop :=
  ¬ Acknowledged redis a → Waiting redis a ∧ Covered redis instances a

theorem atLeastOnce_iff {w : World} (ordered : w.redis.Ordered) :
    AtLeastOnce w ↔ ∀ a ∈ w.awaited, Standing w.redis w.instances a := by
  simp only [AtLeastOnce, Standing, withinReach_iff ordered]
  rfl

theorem live_set {instances : List (Option RedisStreamPublisher)} {i : Nat}
    {p : RedisStreamPublisher} (alive : live instances i = some p)
    (q : Option RedisStreamPublisher) (j : Nat) :
    live (instances.set i q) j = if j = i then q else live instances j := by
  have known : i < instances.length := by
    by_contra beyond
    have missing : instances[i]? = none := List.getElem?_eq_none (Nat.le_of_not_lt beyond)
    rw [live, missing] at alive
    cases alive
  by_cases same : j = i
  · subst same
    simp [live, known]
  · simp [live, same, Ne.symm same]

theorem serves_congr {p q : RedisStreamPublisher} (named : q.streamPrefix = p.streamPrefix)
    (keys : q.streamKeys = p.streamKeys) (redis : Redis) (a : Awaited) :
    Serves q redis a ↔ Serves p redis a := by
  have same : q.readKeys = p.readKeys := by
    simp only [RedisStreamPublisher.readKeys, keys, named]
  simp only [Serves, Readable, same, RedisStreamPublisher.groupName, named]

theorem covered_set_iff {instances : List (Option RedisStreamPublisher)} {i : Nat}
    {p q : RedisStreamPublisher} (alive : live instances i = some p) (redis : Redis)
    (a : Awaited) :
    Covered redis (instances.set i (some q)) a ↔
      Serves q redis a ∨ ∃ j p, j ≠ i ∧ live instances j = some p ∧ Serves p redis a := by
  constructor
  · rintro ⟨j, p', alive', serves⟩
    rw [live_set alive] at alive'
    split at alive'
    · cases alive'
      exact .inl serves
    · rename_i other
      exact .inr ⟨j, p', other, alive', serves⟩
  · rintro (serves | ⟨j, p', other, alive', serves⟩)
    · exact ⟨i, q, by rw [live_set alive, if_pos rfl], serves⟩
    · exact ⟨j, p', by rw [live_set alive, if_neg other]; exact alive', serves⟩

theorem covered_set_congr {instances : List (Option RedisStreamPublisher)} {i : Nat}
    {p q q' : RedisStreamPublisher} (alive : live instances i = some p)
    (named : q.streamPrefix = q'.streamPrefix) (keys : q.streamKeys = q'.streamKeys)
    (redis : Redis) (a : Awaited) :
    Covered redis (instances.set i (some q)) a ↔ Covered redis (instances.set i (some q')) a := by
  rw [covered_set_iff alive, covered_set_iff alive, serves_congr named keys]

theorem set_live {instances : List (Option RedisStreamPublisher)} {i : Nat}
    {p : RedisStreamPublisher} (alive : live instances i = some p) :
    instances.set i (some p) = instances := by
  obtain ⟨inside, value⟩ := List.getElem?_eq_some_iff.mp (Option.join_eq_some_iff.mp alive)
  rw [← value]
  exact List.set_getElem_self inside

theorem covered_of_groups {redis redis' : Redis} {instances : List (Option RedisStreamPublisher)}
    {a : Awaited}
    (grown : ∀ k, ((redis.stream k).groups a.group).isSome →
      ((redis'.stream k).groups a.group).isSome)
    (covered : Covered redis instances a) : Covered redis' instances a := by
  obtain ⟨i, p, alive, own, known, readable⟩ := covered
  exact ⟨i, p, alive, own, known, fun k member => grown k (readable k member)⟩

theorem Standing.mono {redis redis' : Redis}
    {instances instances' : List (Option RedisStreamPublisher)} {a : Awaited}
    (standing : Standing redis instances a)
    (acknowledged : Acknowledged redis a → Acknowledged redis' a)
    (waiting : Waiting redis a → Waiting redis' a)
    (covered : Covered redis instances a → Covered redis' instances' a) :
    Standing redis' instances' a := by
  intro pending
  obtain ⟨waits, served⟩ := standing (mt acknowledged pending)
  exact ⟨waiting waits, covered served⟩

section
variable {w : World} (standing : ∀ a ∈ w.awaited, Standing w.redis w.instances a)
include standing

theorem stillCovered_iff (instances : List (Option RedisStreamPublisher)) :
    (∀ a ∈ w.awaited, Standing w.redis instances a) ↔ StillCovered w instances := by
  constructor
  · exact fun later a member pending => (later a member pending).2
  · exact fun covered a member pending => ⟨(standing a member pending).1, covered a member pending⟩

/-- A stream with the same groups that lost its oldest entries loses exactly the pending
events among them. -/
theorem spared_iff {k : String} {s : Stream String String Payload} {dropped : Nat}
    (groups : s.groups = (w.redis.stream k).groups)
    (waits : ∀ group id, (w.redis.stream k).Waiting group id → (s.Waiting group id ↔
      id ∉ ((w.redis.stream k).entries.take dropped).map Prod.fst)) :
    (∀ a ∈ w.awaited, Standing (w.redis.put k s) w.instances a) ↔ Spared w k dropped := by
  have kept (k' : String) : ((w.redis.put k s).stream k').groups = (w.redis.stream k').groups := by
    rw [Log.stream_put]
    split
    · rename_i same
      rw [same, groups]
    · rfl
  have same (a : Awaited) : Acknowledged (w.redis.put k s) a ↔ Acknowledged w.redis a := by
    simp only [Acknowledged, Stream.Acknowledged, kept]
  have late (a : Awaited) (waiting : Waiting w.redis a) : Waiting (w.redis.put k s) a ↔
      (a.stream = k → a.id ∉ ((w.redis.stream k).entries.take dropped).map Prod.fst) := by
    unfold Waiting
    rw [Log.stream_put]
    by_cases here : a.stream = k
    · rw [if_pos here, waits a.group a.id (here ▸ waiting)]
      exact (imp_iff_right here).symm
    · rw [if_neg here]
      exact iff_of_true waiting fun equal => absurd equal here
  constructor
  · intro later a member pending
    exact (late a (standing a member pending).1).mp (later a member (mt (same a).mp pending)).1
  · intro spared a member pending
    have before := mt (same a).mpr pending
    obtain ⟨waiting, covered⟩ := standing a member before
    refine ⟨(late a waiting).mpr (spared a member before), covered_of_groups ?_ covered⟩
    exact fun k' present => by rwa [kept k']

theorem processes_iff (ordered : w.redis.Ordered) (p : RedisStreamPublisher) (tenantId : String)
    (count : Nat) (processed : List (String × Nat)) :
    (∀ a ∈ w.awaited, Standing
      ((p.readMessages w.redis tenantId count).1.ackAll (p.groupName tenantId) processed)
      w.instances a) ↔ Processes w p tenantId count processed := by
  refine forall₂_congr fun a member => ?_
  have before := standing a member
  have acknowledged : Acknowledged w.redis a → Acknowledged
      ((p.readMessages w.redis tenantId count).1.ackAll (p.groupName tenantId) processed) a :=
    fun done => Log.acknowledged_ackAll (acknowledged_read ordered done) processed
  by_cases done : Acknowledged w.redis a
  · exact iff_of_true (absurd (acknowledged done)) (absurd done)
  obtain ⟨waiting, covered⟩ := before done
  by_cases handed : a.group = p.groupName tenantId ∧ a.stream ∈ p.readKeys ∧
      Readable p w.redis a.group ∧ (w.redis.stream a.stream).ahead a.group a.id < count
  · obtain ⟨own, known, readable, reached⟩ := handed
    have held : ((p.readMessages w.redis tenantId count).1.stream a.stream).Held
        (p.groupName tenantId) a.id :=
      held_read ordered (own ▸ readable) known (own ▸ waiting) (own ▸ reached)
    have after : if (a.stream, a.id) ∈ processed
        then Acknowledged ((p.readMessages w.redis tenantId count).1.ackAll
          (p.groupName tenantId) processed) a
        else (((p.readMessages w.redis tenantId count).1.ackAll
          (p.groupName tenantId) processed).stream a.stream).Held a.group a.id := by
      unfold Acknowledged
      rw [own]
      exact Log.held_ackAll held processed
    constructor
    · intro later _ _ _ _ _
      by_contra unprocessed
      rw [if_neg unprocessed] at after
      exact after.not_waiting (later after.not_acknowledged).1
    · intro safe pending
      rw [if_pos (safe done own known readable reached)] at after
      exact absurd after pending
  · constructor
    · exact fun _ _ own known readable reached => absurd ⟨own, known, readable, reached⟩ handed
    · intro _ _
      refine ⟨?_, covered_of_groups (fun k present => ?_) covered⟩
      · exact (Log.waiting_ackAll processed).mpr (waiting_read ordered waiting handed)
      · rw [Log.isSome_groups_ackAll, isSome_groups_read]
        exact present

end

theorem step_ordered {w t : World} {e : StreamRuns.Event} (ordered : w.redis.Ordered)
    (stepped : w.step e = some t) : t.redis.Ordered := by
  cases e with
  | start streamPrefix instanceId =>
    cases stepped
    exact ordered
  | finish n =>
    obtain ⟨call, _, finished⟩ := Option.bind_eq_some_iff.mp stepped
    obtain ⟨p, _, rfl⟩ := Option.map_eq_some_iff.mp finished
    exact ordered
  | act i action =>
    obtain ⟨p, _, acted⟩ := Option.bind_eq_some_iff.mp stepped
    cases action with
    | append event timestamp dropped =>
      simp only [World.act, Option.ite_none_right_eq_some, Option.some.injEq] at acted
      obtain ⟨_, rfl⟩ := acted
      exact ordered.put _ ((ordered _).add ..)
    | ensure tenantId =>
      cases acted
      exact p.ensure_ordered tenantId ordered
    | read tenantId count processed =>
      simp only [World.act, Option.ite_none_right_eq_some, Option.some.injEq] at acted
      obtain ⟨_, rfl⟩ := acted
      exact (read_ordered ordered).ackAll processed
    | acknowledge tenantId stream msgId =>
      cases acted
      exact ordered.ack _ _ _
    | trim executionId length dropped =>
      simp only [World.act, Option.ite_none_right_eq_some, Option.some.injEq] at acted
      obtain ⟨_, rfl⟩ := acted
      exact ordered.put _ ((ordered _).trim dropped)
    | _ =>
      cases acted
      exact ordered

theorem run_ordered {events : List StreamRuns.Event} {w : World}
    (ran : run World.step {} events = some w) : w.redis.Ordered :=
  run_invariant (I := fun w => w.redis.Ordered)
    (fun _ _ _ _ ordered stepped => step_ordered ordered stepped) Log.Ordered.empty ran

theorem live_start {instances : List (Option RedisStreamPublisher)} {i : Nat}
    {p : RedisStreamPublisher} (alive : live instances i = some p)
    (q : Option RedisStreamPublisher) : live (instances ++ [q]) i = some p := by
  obtain ⟨inside, _⟩ := List.getElem?_eq_some_iff.mp (Option.join_eq_some_iff.mp alive)
  rw [live, List.getElem?_append_left inside]
  exact alive

theorem closeAll_streamKeys (p : RedisStreamPublisher) :
    p.closeAll.streamKeys =
      p.streamKeys.filter (fun k => k ∉ p.activeExecutions.map p.streamKey) ∧
    p.closeAll.streamPrefix = p.streamPrefix := by
  unfold RedisStreamPublisher.closeAll
  generalize p.activeExecutions = executions
  induction executions generalizing p with
  | nil => simp
  | cons executionId executions ih =>
    obtain ⟨keys, named⟩ := ih (p.close executionId)
    refine ⟨keys.trans ?_, named⟩
    have same : (p.close executionId).streamKey = p.streamKey := rfl
    rw [same, RedisStreamPublisher.close, List.filter_filter]
    refine List.filter_congr fun k _ => ?_
    simp [Bool.and_comm, eq_comm]

theorem act_decides {w t : World} {i : Nat} {p : RedisStreamPublisher} {action : Action}
    (ordered : w.redis.Ordered) (standing : ∀ a ∈ w.awaited, Standing w.redis w.instances a)
    (alive : live w.instances i = some p) (acted : w.act i p action = some t) :
    (∀ a ∈ t.awaited, Standing t.redis t.instances a) ↔ SafeAction w i p action := by
  -- what changes no stream key of an instance covers what it covered
  have unchanged : ∀ q : RedisStreamPublisher, q.streamPrefix = p.streamPrefix →
      q.streamKeys = p.streamKeys →
        ∀ a ∈ w.awaited, Standing w.redis (w.instances.set i (some q)) a := by
    intro q named keys a member
    refine (standing a member).mono id id fun covered => ?_
    rw [covered_set_congr alive named keys, set_live alive]
    exact covered
  have changed : ∀ (q : RedisStreamPublisher) (streamKeys : List String),
      q.streamPrefix = p.streamPrefix → q.streamKeys = streamKeys →
        ((∀ a ∈ w.awaited, Standing w.redis (w.instances.set i (some q)) a) ↔
          StillCovered w (withKeys w i p streamKeys)) := by
    rintro q streamKeys named rfl
    rw [stillCovered_iff standing]
    refine forall₂_congr fun a _ => forall_congr' fun _ => ?_
    exact @covered_set_congr _ _ _ q { p with streamKeys := q.streamKeys } alive named rfl w.redis a
  cases action with
  | append event timestamp dropped =>
    simp only [World.act, Option.ite_none_right_eq_some, Option.some.injEq] at acted
    obtain ⟨_, rfl⟩ := acted
    exact spared_iff standing rfl fun group id waiting => (ordered _).waiting_add waiting _ dropped
  | trim executionId length dropped =>
    simp only [World.act, Option.ite_none_right_eq_some, Option.some.injEq] at acted
    obtain ⟨_, rfl⟩ := acted
    exact spared_iff standing rfl fun group id waiting => (ordered _).waiting_trim waiting dropped
  | subscribe executionId tenantId =>
    cases acted
    exact iff_of_true (unchanged _ rfl rfl) trivial
  | unsubscribe executionId queue =>
    cases acted
    exact iff_of_true (unchanged _ rfl rfl) trivial
  | close executionId =>
    cases acted
    exact changed _ _ rfl rfl
  | closeAll =>
    cases acted
    exact changed _ _ (closeAll_streamKeys p).2 (closeAll_streamKeys p).1
  | ensure tenantId =>
    cases acted
    refine iff_of_true (fun a member => (standing a member).mono ?_ ?_ ?_) trivial
    · rintro ⟨group, stored, rest⟩
      exact ⟨group, p.ensure_stored w.redis tenantId stored, rest⟩
    · rintro ⟨present, group, stored, rest⟩
      exact ⟨by rwa [p.ensure_entries], group, p.ensure_stored w.redis tenantId stored, rest⟩
    · refine covered_of_groups fun k present => ?_
      obtain ⟨group, stored⟩ := Option.isSome_iff_exists.mp present
      exact Option.isSome_iff_exists.mpr ⟨group, p.ensure_stored w.redis tenantId stored⟩
  | read tenantId count processed =>
    simp only [World.act, Option.ite_none_right_eq_some, Option.some.injEq] at acted
    obtain ⟨_, rfl⟩ := acted
    exact processes_iff standing ordered p tenantId count processed
  | acknowledge tenantId stream msgId =>
    cases acted
    let listed := [(stream, msgId)]
    refine iff_of_true (fun a member => (standing a member).mono ?_ ?_ ?_) trivial
    · exact fun done => Log.acknowledged_ackAll done listed
    · exact (Log.waiting_ackAll listed).mpr
    · refine covered_of_groups fun k present => ?_
      exact (Log.isSome_groups_ackAll listed).trans present
  | crash =>
    cases acted
    exact stillCovered_iff standing _

theorem step_decides {w t : World} {e : StreamRuns.Event} (past : List StreamRuns.Event)
    (ordered : w.redis.Ordered) (standing : ∀ a ∈ w.awaited, Standing w.redis w.instances a)
    (stepped : w.step e = some t) :
    (∀ a ∈ t.awaited, Standing t.redis t.instances a) ↔ Safe past w e := by
  cases e with
  | start streamPrefix instanceId =>
    cases stepped
    refine iff_of_true (fun a member => (standing a member).mono id id ?_) trivial
    rintro ⟨i, p, alive, serves⟩
    exact ⟨i, p, live_start alive _, serves⟩
  | act i action =>
    obtain ⟨p, alive, acted⟩ := Option.bind_eq_some_iff.mp stepped
    simp only [Safe, alive, Option.some.injEq, forall_eq']
    exact act_decides ordered standing alive acted
  | finish n =>
    obtain ⟨call, found, finished⟩ := Option.bind_eq_some_iff.mp stepped
    obtain ⟨p, alive, rfl⟩ := Option.map_eq_some_iff.mp finished
    simp only [Safe, found, alive, Option.some.injEq, forall_eq']
    refine forall₂_congr fun a _ => forall_congr' fun _ => and_congr_right fun _ => ?_
    exact @covered_set_congr _ _ _ (p.deliver call.event call.data)
      { p with streamKeys := (p.deliver call.event call.data).streamKeys } alive rfl rfl w.redis a

/-- All states of a run keep every pending event within reach exactly if all steps are safe. -/
theorem atLeastOnce_iff_safe {events : List StreamRuns.Event} {w : World}
    (ran : run World.step {} events = some w) :
    AllStates World.step AtLeastOnce {} events ↔ EachStep World.step Safe [] {} events := by
  refine allStates_iff_eachStep (I := fun _ w => w.redis.Ordered)
    (fun _ _ _ _ ordered stepped => step_ordered ordered stepped) ?_ Log.Ordered.empty
    (fun a member => absurd member List.not_mem_nil) ran
  intro past s e t ordered reached stepped
  rw [atLeastOnce_iff (step_ordered ordered stepped)]
  exact step_decides past ordered ((atLeastOnce_iff ordered).mp reached) stepped

def sample (eventId executionId tenantId : String) : ExecutionEvent :=
  { eventId, executionId, tenantId, createdAt := IsoDate.epoch }

def ensuredRun : List StreamRuns.Event :=
  [.start "kitematic" "inst-1", .start "kitematic" "inst-2",
    .act 0 (.append (sample "evt-1" "exec-1" "acme") "1.0" 0), .finish 0, .act 0 (.ensure "acme"),
    .act 1 (.append (sample "evt-2" "exec-1" "acme") "2.0" 0), .finish 0]

def second : Awaited :=
  { tenantId := "acme", group := "kitematic:g:acme", stream := "kitematic:s:exec-1", id := 2 }

def readAndProcessed : List StreamRuns.Event :=
  [.act 1 (.read "acme" 10 [("kitematic:s:exec-1", 1), ("kitematic:s:exec-1", 2)])]

theorem atLeastOnce_iff_safe_processed :
    AllStates World.step AtLeastOnce {} (ensuredRun ++ readAndProcessed) := by
  refine (atLeastOnce_iff_safe rfl).mpr ?_
  have nothing (P : Awaited → Prop) : ∀ a ∈ ([] : List Awaited), P a :=
    fun a member => absurd member List.not_mem_nil
  refine eachStep_cons rfl trivial (eachStep_cons rfl trivial ?_)
  refine eachStep_cons (World.step_append rfl _ _) (fun p _ => nothing _) ?_
  refine eachStep_cons rfl ?_ ?_
  · rintro call found p alive
    cases found
    exact nothing _
  refine eachStep_cons rfl (fun p _ => trivial) ?_
  refine eachStep_cons (World.step_append rfl _ _) (fun p _ => nothing _) ?_
  refine eachStep_cons rfl ?_ ?_
  · rintro call found p alive a member _
    cases found
    cases alive
    obtain rfl : a = second := List.mem_singleton.mp member
    refine ⟨⟨List.mem_cons_of_mem _ List.mem_cons_self, _, rfl, by decide⟩, 1, _, rfl, rfl,
      List.mem_cons_self, fun k listed => ?_⟩
    rw [List.mem_singleton.mp listed]
    rfl
  refine eachStep_cons rfl ?_ trivial
  rintro p alive a member _ _ _ _ _
  obtain rfl : a = second := List.mem_singleton.mp member
  exact List.mem_cons_of_mem _ List.mem_cons_self

def newStreams : List StreamRuns.Event :=
  [.act 0 (.append (sample "evt-3" "exec-2" "globex") "3.0" 0), .finish 0,
    .act 1 (.append (sample "evt-4" "exec-2" "globex") "4.0" 0), .finish 0]

def crash : List StreamRuns.Event := [.act 0 (.read "acme" 10 []), .act 0 .crash]

/-- The second event is out of reach after either, with a live instance that has its stream. -/
theorem events_stranded :
    ((run World.step {} (ensuredRun ++ newStreams)).isSome ∧
      ¬ AllStates World.step AtLeastOnce {} (ensuredRun ++ newStreams)) ∧
    (run World.step {} (ensuredRun ++ crash)).isSome ∧
      ¬ AllStates World.step AtLeastOnce {} (ensuredRun ++ crash) := by
  refine ⟨⟨rfl, fun all => ?_⟩, rfl, fun all => ?_⟩
  · obtain ⟨w, ran⟩ : ∃ w, run World.step {} (ensuredRun ++ newStreams) = some w := ⟨_, rfl⟩
    have reached := all.last ran second
    have ordered := run_ordered ran
    cases ran
    have within := reached List.mem_cons_self (by
      rintro ⟨group, stored, delivered, _⟩
      cases stored
      exact absurd delivered (by decide))
    obtain ⟨i, p, alive, _, _, readable⟩ := ((withinReach_iff ordered second).mp within).2
    have listed : "kitematic:s:exec-2" ∈ p.readKeys := by
      rcases i with _ | _ | i
      · cases alive
        exact List.mem_cons_self
      · cases alive
        exact List.mem_cons_self
      · cases alive
    exact absurd (readable _ listed) (by decide)
  · obtain ⟨w, ran⟩ : ∃ w, run World.step {} (ensuredRun ++ crash) = some w := ⟨_, rfl⟩
    have reached := all.last ran second
    have ordered := run_ordered ran
    cases ran
    have within := reached List.mem_cons_self (by
      rintro ⟨group, stored, _, absent⟩
      cases stored
      exact absent (List.mem_cons_of_mem _ List.mem_cons_self))
    obtain ⟨_, group, stored, undelivered⟩ := ((withinReach_iff ordered second).mp within).1
    cases stored
    exact absurd undelivered (by decide)

end Kitematic.StreamDelivery
