import Kitematic.StreamRuns

/-! What a tenant reads from the streams. Streams are kept by execution, and neither a
replay nor a consumer group looks at the tenant of an entry; the group of the empty
tenant has the name of the group of `default`. A tenant is isolated exactly in the
runs where no other tenant publishes, and only under a name of its own. -/

namespace Kitematic.StreamIsolation
open Events PyText RedisPublishers StreamLog StreamRuns Trace

/-- An entry of the tenant, or of none. -/
def Addressed (tenantId : String) (data : Payload) : Prop :=
  ∀ owner, data.lookup "__tenant_id__" = some (.str owner) → owner = "" ∨ owner = tenantId

/-- No publisher object returns another tenant's entry to the tenant, and none has the
tenant's group for another tenant. -/
structure Isolated (tenantId : String) (w : World) : Prop where
  replays : ∀ (p : RedisStreamPublisher) executionId startId count,
    ∀ m ∈ p.replay w.redis executionId tenantId startId count, Addressed tenantId m.data
  reads : ∀ (p : RedisStreamPublisher) count,
    ∀ m ∈ (p.readMessages w.redis tenantId count).2, Addressed tenantId m.data
  groups : ∀ (p : RedisStreamPublisher) other,
    other ≠ tenantId → p.groupName other ≠ p.groupName tenantId

/-- The step publishes nothing, or an event of the tenant or of none. -/
def OwnPublish (tenantId : String) : List StreamRuns.Event → World → StreamRuns.Event → Prop
  | _, _, .act _ (.append event _ _) => event.tenantId = "" ∨ event.tenantId = tenantId
  | _, _, _ => True

theorem addressed_streamData (tenantId : String) (event : ExecutionEvent) (timestamp : String) :
    Addressed tenantId (streamData event timestamp) ↔
      event.tenantId = "" ∨ event.tenantId = tenantId := by
  have stored : (streamData event timestamp).lookup "__tenant_id__" =
      some (.str event.tenantId) := rfl
  unfold Addressed
  rw [stored]
  constructor
  · exact fun addressed => addressed event.tenantId rfl
  · rintro own owner same
    cases same
    exact own

theorem orElse_some (s default : String) :
    orElse (some s) default = if s = "" then default else s := rfl

theorem groupName_inj {p : RedisStreamPublisher} {tenantId other : String} :
    p.groupName other = p.groupName tenantId ↔
      orElse (some other) "default" = orElse (some tenantId) "default" := by
  simp [RedisStreamPublisher.groupName]

theorem own_group_iff (tenantId : String) :
    (∀ (p : RedisStreamPublisher) other,
      other ≠ tenantId → p.groupName other ≠ p.groupName tenantId) ↔
        tenantId ≠ "" ∧ tenantId ≠ "default" := by
  constructor
  · intro apart
    refine ⟨?_, ?_⟩
    · rintro rfl
      exact apart { instanceId := "" } "default" (by decide) (groupName_inj.mpr rfl)
    · rintro rfl
      exact apart { instanceId := "" } "" (by decide) (groupName_inj.mpr rfl)
  · rintro ⟨named, special⟩ p other different same
    rw [groupName_inj, orElse_some, orElse_some, if_neg named] at same
    split at same
    · exact special same.symm
    · exact different same

/-- Every entry lies in the stream of some publisher's execution. -/
def Named (redis : Redis) : Prop :=
  ∀ k, ∀ e ∈ (redis.stream k).entries, ∃ (p : RedisStreamPublisher) (executionId : String),
    k = p.streamKey executionId

def EntriesAddressed (tenantId : String) (redis : Redis) : Prop :=
  ∀ k, ∀ e ∈ (redis.stream k).entries, Addressed tenantId e.2

theorem isolated_iff {tenantId : String} {w : World} (named : Named w.redis) :
    Isolated tenantId w ↔
      (tenantId ≠ "" ∧ tenantId ≠ "default") ∧ EntriesAddressed tenantId w.redis := by
  constructor
  · rintro ⟨replays, _, groups⟩
    refine ⟨(own_group_iff tenantId).mp groups, fun k e member => ?_⟩
    obtain ⟨p, executionId, rfl⟩ := named k e member
    let entries := (w.redis.stream (p.streamKey executionId)).entries
    refine replays p executionId 0 entries.length ⟨p.streamKey executionId, e.1, e.2⟩ ?_
    rw [RedisStreamPublisher.replay, Stream.range_all le_rfl]
    exact List.mem_map.mpr ⟨e, member, rfl⟩
  · rintro ⟨own, addressed⟩
    refine ⟨?_, ?_, (own_group_iff tenantId).mpr own⟩
    · intro p executionId startId count m member
      obtain ⟨e, inside, rfl⟩ := List.mem_map.mp member
      exact addressed _ e (Stream.mem_entries_of_mem_range inside)
    · intro p count m member
      unfold RedisStreamPublisher.readMessages at member
      split at member
      · exact absurd member List.not_mem_nil
      · rename_i redis results read
        obtain ⟨⟨k, handed⟩, listed, inside⟩ := List.mem_flatMap.mp member
        obtain ⟨e, given, rfl⟩ := List.mem_map.mp inside
        exact addressed k e (Log.mem_entries_of_mem_results read listed given)

def Shrinks (redis redis' : Redis) : Prop :=
  ∀ k, (redis'.stream k).entries.Sublist (redis.stream k).entries

theorem read_entries (p : RedisStreamPublisher) (redis : Redis) (tenantId k : String)
    (count : Nat) :
    ((p.readMessages redis tenantId count).1.stream k).entries = (redis.stream k).entries := by
  unfold RedisStreamPublisher.readMessages
  split
  · rfl
  · rename_i redis' results read
    exact Log.entries_readGroup read k

theorem step_entries {w t : World} {e : StreamRuns.Event} (stepped : w.step e = some t) :
    (∃ i p event timestamp dropped, e = .act i (.append event timestamp dropped) ∧
      t.redis = RedisStreamPublisher.append p w.redis event timestamp dropped) ∨
    (∀ tenantId past, OwnPublish tenantId past w e) ∧ Shrinks w.redis t.redis := by
  cases e with
  | start streamPrefix instanceId =>
    cases stepped
    exact .inr ⟨fun _ _ => trivial, fun _ => .refl _⟩
  | finish n =>
    obtain ⟨call, _, finished⟩ := Option.bind_eq_some_iff.mp stepped
    obtain ⟨p, _, rfl⟩ := Option.map_eq_some_iff.mp finished
    exact .inr ⟨fun _ _ => trivial, fun _ => .refl _⟩
  | act i action =>
    obtain ⟨p, _, acted⟩ := Option.bind_eq_some_iff.mp stepped
    cases action with
    | append event timestamp dropped =>
      simp only [World.act, Option.ite_none_right_eq_some, Option.some.injEq] at acted
      obtain ⟨_, rfl⟩ := acted
      exact .inl ⟨i, p, event, timestamp, dropped, rfl, rfl⟩
    | ensure tenantId =>
      cases acted
      exact .inr ⟨fun _ _ => trivial, fun k => (p.ensure_entries w.redis tenantId k) ▸ .refl _⟩
    | read tenantId count processed =>
      simp only [World.act, Option.ite_none_right_eq_some, Option.some.injEq] at acted
      obtain ⟨_, rfl⟩ := acted
      refine .inr ⟨fun _ _ => trivial, fun k => ?_⟩
      have acked := (p.readMessages w.redis tenantId count).1.entries_ackAll (p.groupName tenantId)
        processed k
      exact acked.trans (read_entries p w.redis tenantId k count) ▸ .refl _
    | acknowledge tenantId stream msgId =>
      cases acted
      refine .inr ⟨fun _ _ => trivial, fun k => ?_⟩
      rw [RedisStreamPublisher.acknowledge, Log.entries_ack]
    | trim executionId length dropped =>
      simp only [World.act, Option.ite_none_right_eq_some, Option.some.injEq] at acted
      obtain ⟨_, rfl⟩ := acted
      refine .inr ⟨fun _ _ => trivial, fun k => ?_⟩
      rw [RedisStreamPublisher.trim, Log.trim, Log.stream_put]
      split
      · rename_i same
        exact same ▸ List.drop_sublist ..
      · exact .refl _
    | _ =>
      cases acted
      exact .inr ⟨fun _ _ => trivial, fun _ => .refl _⟩

theorem mem_append {p : RedisStreamPublisher} {redis : Redis} {event : ExecutionEvent}
    {timestamp : String} {dropped : Nat} {k : String} {e : Nat × Payload}
    (member : e ∈ ((p.append redis event timestamp dropped).stream k).entries) :
    e ∈ (redis.stream k).entries ∨
      k = p.streamKey event.executionId ∧ e.2 = streamData event timestamp := by
  rw [RedisStreamPublisher.append, Log.add, Log.stream_put] at member
  split at member
  · rename_i same
    subst same
    rcases List.mem_append.mp member with old | new
    · exact .inl ((List.drop_sublist ..).mem old)
    · exact .inr ⟨rfl, by rw [List.mem_singleton.mp new]⟩
  · exact .inl member

theorem step_named {w t : World} {e : StreamRuns.Event} (named : Named w.redis)
    (stepped : w.step e = some t) : Named t.redis := by
  intro k entry member
  rcases step_entries stepped with ⟨i, p, event, timestamp, dropped, _, after⟩ | ⟨_, shrinks⟩
  · rw [after] at member
    rcases mem_append member with old | ⟨rfl, _⟩
    · exact named k entry old
    · exact ⟨p, event.executionId, rfl⟩
  · exact named k entry ((shrinks k).mem member)

theorem step_addressed {tenantId : String} {w t : World} {e : StreamRuns.Event}
    (addressed : EntriesAddressed tenantId w.redis) (stepped : w.step e = some t)
    (past : List StreamRuns.Event) :
    EntriesAddressed tenantId t.redis ↔ OwnPublish tenantId past w e := by
  rcases step_entries stepped with ⟨i, p, event, timestamp, dropped, rfl, after⟩ | ⟨own, shrinks⟩
  · have newest : ((w.redis.stream (p.streamKey event.executionId)).lastId + 1,
        streamData event timestamp) ∈
          (t.redis.stream (p.streamKey event.executionId)).entries := by
      rw [after]
      simp [RedisStreamPublisher.append, Log.add, Stream.add]
    constructor
    · exact fun later => (addressed_streamData ..).mp (later _ _ newest)
    · intro own k entry member
      rw [after] at member
      rcases mem_append member with old | ⟨_, data⟩
      · exact addressed k entry old
      · exact data ▸ (addressed_streamData ..).mpr own
  · exact ⟨fun _ => own tenantId past, fun _ k entry member => addressed k entry
      ((shrinks k).mem member)⟩

/-- A tenant is isolated throughout a run exactly if it has a name that no other group
name stands for, and every event published is its own or of no tenant. -/
theorem isolated_iff_ownPublish (tenantId : String) {events : List StreamRuns.Event} {w : World}
    (ran : run World.step {} events = some w) :
    AllStates World.step (Isolated tenantId) {} events ↔
      (tenantId ≠ "" ∧ tenantId ≠ "default") ∧
        EachStep World.step (OwnPublish tenantId) [] {} events := by
  have empty : Named ({} : World).redis := fun _ _ member => absurd member List.not_mem_nil
  have nothing : EntriesAddressed tenantId ({} : World).redis :=
    fun _ _ member => absurd member List.not_mem_nil
  have steps (own : tenantId ≠ "" ∧ tenantId ≠ "default") :
      AllStates World.step (Isolated tenantId) {} events ↔
        EachStep World.step (OwnPublish tenantId) [] {} events := by
    refine allStates_iff_eachStep (I := fun _ w => Named w.redis)
      (fun _ _ _ _ named stepped => step_named named stepped) ?_ empty
      ((isolated_iff empty).mpr ⟨own, nothing⟩) ran
    intro past s e t named isolated stepped
    have before := ((isolated_iff named).mp isolated).2
    rw [isolated_iff (step_named named stepped), and_iff_right own]
    exact step_addressed before stepped past
  constructor
  · intro all
    have first : Isolated tenantId {} := by
      cases events with
      | nil => exact all
      | cons _ _ => exact all.1
    have own := ((isolated_iff empty).mp first).1
    exact ⟨own, (steps own).mp all⟩
  · exact fun ⟨own, clean⟩ => (steps own).mpr clean

def readRun : List StreamRuns.Event :=
  [.start "kitematic" "inst-1",
    .act 0 (.append { eventId := "evt-1", executionId := "exec-1", tenantId := "acme"
                      createdAt := IsoDate.epoch } "1.0" 0),
    .finish 0, .act 0 (.ensure "acme"), .act 0 (.read "acme" 10 [("kitematic:s:exec-1", 1)])]

theorem isolated_iff_ownPublish_read : AllStates World.step (Isolated "acme") {} readRun := by
  refine (@isolated_iff_ownPublish "acme" readRun _ rfl).mpr ⟨by decide, ?_⟩
  refine eachStep_of_forall fun e member _ _ => ?_
  simp only [readRun, List.mem_cons, List.not_mem_nil, or_false] at member
  rcases member with rfl | rfl | rfl | rfl | rfl
  · trivial
  · exact .inr rfl
  · trivial
  · trivial
  · trivial

/-- Another tenant gets the event from a replay, and the tenants `""` and `default` have one
group. -/
theorem foreign_entry_replayed :
    (run World.step {} readRun).isSome ∧ ¬ AllStates World.step (Isolated "globex") {} readRun ∧
      ∀ w, ¬ Isolated "" w ∧ ¬ Isolated "default" w := by
  refine ⟨rfl, fun all => ?_, fun w => ⟨fun isolated => ?_, fun isolated => ?_⟩⟩
  · obtain ⟨w, ran⟩ : ∃ w, run World.step {} readRun = some w := ⟨_, rfl⟩
    have isolated := all.last ran
    cases ran
    rcases isolated.replays { instanceId := "inst-2" } "exec-1" 0 100 _ List.mem_cons_self "acme"
      rfl with empty | same
    · exact absurd empty (by decide)
    · exact absurd same (by decide)
  · exact isolated.groups { instanceId := "inst-2" } "default" (by decide) rfl
  · exact isolated.groups { instanceId := "inst-2" } "" (by decide) rfl

end Kitematic.StreamIsolation
