import Kitematic.StreamRuns

/-! What repeated reads of a tenant reach. One read hands out nothing unless every stream
it lists has the group, and only entries that no read of the group has handed out
before, so an entry is within reach exactly if it waits in a stream that a live
instance reads and whose streams all have the group. -/

namespace Kitematic.StreamReads
open Events PyText RedisPublishers StreamLog StreamRuns

def Readable (p : RedisStreamPublisher) (redis : Redis) (group : String) : Prop :=
  ∀ k ∈ p.readKeys, ((redis.stream k).groups group).isSome

section
variable {p : RedisStreamPublisher} {redis : Redis} {tenantId : String} {count : Nat}

theorem read_blocked (blocked : ¬ Readable p redis (p.groupName tenantId)) :
    p.readMessages redis tenantId count = (redis, []) := by
  have refused : redis.readGroup (p.groupName tenantId) p.consumerName p.readKeys count = none :=
    if_neg fun all => blocked fun k member => List.all_eq_true.mp all k member
  rw [RedisStreamPublisher.readMessages, refused]

theorem read_readable (readable : Readable p redis (p.groupName tenantId)) :
    p.readMessages redis tenantId count =
      (⟨fun k => if k ∈ p.readKeys
          then (redis.stream k).hand (p.groupName tenantId) p.consumerName count
          else redis.stream k⟩,
        (p.readKeys.map fun k => (k, (redis.stream k).news (p.groupName tenantId) count)).flatMap
          fun result => result.2.map fun e => ⟨result.1, e.1, e.2⟩) := by
  have answered : p.readKeys.all
      fun k => ((redis.stream k).groups (p.groupName tenantId)).isSome :=
    List.all_eq_true.mpr readable
  rw [RedisStreamPublisher.readMessages, Log.readGroup, if_pos answered]

theorem mem_read (readable : Readable p redis (p.groupName tenantId)) (stream : String)
    (id : Nat) :
    (∃ m ∈ (p.readMessages redis tenantId count).2, m.stream = stream ∧ m.id = id) ↔
      stream ∈ p.readKeys ∧
        id ∈ ((redis.stream stream).news (p.groupName tenantId) count).map Prod.fst := by
  rw [read_readable readable]
  constructor
  · rintro ⟨m, member, rfl, rfl⟩
    obtain ⟨result, listed, inside⟩ := List.mem_flatMap.mp member
    obtain ⟨k, known, rfl⟩ := List.mem_map.mp listed
    obtain ⟨e, given, rfl⟩ := List.mem_map.mp inside
    exact ⟨known, List.mem_map_of_mem given⟩
  · rintro ⟨known, given⟩
    obtain ⟨e, inside, rfl⟩ := List.mem_map.mp given
    refine ⟨⟨stream, e.1, e.2⟩, List.mem_flatMap.mpr ⟨_, List.mem_map.mpr ⟨stream, known, rfl⟩, ?_⟩,
      rfl, rfl⟩
    exact List.mem_map.mpr ⟨e, inside, rfl⟩

/-- A read leaves a stream as it is, or hands out its next entries. -/
theorem read_cases {P : Stream String String Payload → Prop} (k : String)
    (unread : P (redis.stream k))
    (handed : Readable p redis (p.groupName tenantId) → k ∈ p.readKeys →
      P ((redis.stream k).hand (p.groupName tenantId) p.consumerName count)) :
    P ((p.readMessages redis tenantId count).1.stream k) := by
  by_cases readable : Readable p redis (p.groupName tenantId)
  · rw [read_readable readable]
    simp only
    split
    · rename_i known
      exact handed readable known
    · exact unread
  · rw [read_blocked readable]
    exact unread

theorem read_ordered (ordered : redis.Ordered) :
    (p.readMessages redis tenantId count).1.Ordered :=
  fun k => read_cases k (ordered k) fun _ _ => (ordered k).hand ..

theorem waiting_of_read (ordered : redis.Ordered) {k group : String} {id : Nat}
    (waiting : ((p.readMessages redis tenantId count).1.stream k).Waiting group id) :
    (redis.stream k).Waiting group id :=
  read_cases (P := fun s => s.Waiting group id → (redis.stream k).Waiting group id) k
    (fun before => before) (fun _ _ => (ordered k).waiting_of_hand) waiting

theorem isSome_groups_read (k group : String) :
    (((p.readMessages redis tenantId count).1.stream k).groups group).isSome =
      ((redis.stream k).groups group).isSome :=
  read_cases (P := fun s => (s.groups group).isSome = ((redis.stream k).groups group).isSome) k rfl
    fun _ _ => Stream.isSome_groups_hand ..

theorem acknowledged_read (ordered : redis.Ordered) {k group : String} {id : Nat}
    (acknowledged : (redis.stream k).Acknowledged group id) :
    ((p.readMessages redis tenantId count).1.stream k).Acknowledged group id :=
  read_cases (P := fun s => s.Acknowledged group id) k acknowledged fun _ _ =>
    (ordered k).acknowledged_hand acknowledged ..

theorem held_read (ordered : redis.Ordered) {k : String} {id : Nat}
    (readable : Readable p redis (p.groupName tenantId)) (known : k ∈ p.readKeys)
    (waiting : (redis.stream k).Waiting (p.groupName tenantId) id)
    (reached : (redis.stream k).ahead (p.groupName tenantId) id < count) :
    ((p.readMessages redis tenantId count).1.stream k).Held (p.groupName tenantId) id := by
  rw [read_readable readable]
  simp only [known, if_true]
  exact (ordered k).held_hand waiting reached _

theorem waiting_read (ordered : redis.Ordered) {k group : String} {id : Nat}
    (waiting : (redis.stream k).Waiting group id)
    (missed : ¬ (group = p.groupName tenantId ∧ k ∈ p.readKeys ∧ Readable p redis group ∧
      (redis.stream k).ahead group id < count)) :
    ((p.readMessages redis tenantId count).1.stream k).Waiting group id := by
  refine read_cases (P := fun s => s.Waiting group id) k waiting fun readable known => ?_
  by_cases same : group = p.groupName tenantId
  · subst same
    have short := Nat.le_of_not_lt fun reached => missed ⟨rfl, known, readable, reached⟩
    exact (ordered k).waiting_hand waiting short _
  · exact Stream.waiting_hand_other same waiting _

end

def readInTurn (p : RedisStreamPublisher) (tenantId : String) : Redis → List Nat → List Message
  | _, [] => []
  | redis, count :: counts =>
      let (redis, messages) := p.readMessages redis tenantId count
      messages ++ readInTurn p tenantId redis counts

theorem readInTurn_cons (p : RedisStreamPublisher) (tenantId : String) (redis : Redis)
    (count : Nat) (counts : List Nat) :
    readInTurn p tenantId redis (count :: counts) =
      (p.readMessages redis tenantId count).2 ++
        readInTurn p tenantId (p.readMessages redis tenantId count).1 counts := rfl

theorem waiting_of_readInTurn {p : RedisStreamPublisher} {tenantId : String} {redis : Redis}
    (ordered : redis.Ordered) {counts : List Nat} {m : Message}
    (returned : m ∈ readInTurn p tenantId redis counts) :
    Readable p redis (p.groupName tenantId) ∧ m.stream ∈ p.readKeys ∧
      (redis.stream m.stream).Waiting (p.groupName tenantId) m.id := by
  induction counts generalizing redis with
  | nil => exact absurd returned List.not_mem_nil
  | cons count counts ih =>
    rw [readInTurn_cons] at returned
    rcases List.mem_append.mp returned with now | later
    · by_cases readable : Readable p redis (p.groupName tenantId)
      · obtain ⟨known, given⟩ := (mem_read readable m.stream m.id).mp ⟨m, now, rfl, rfl⟩
        obtain ⟨group, stored⟩ := Option.isSome_iff_exists.mp (readable m.stream known)
        obtain ⟨e, inside, equal⟩ := List.mem_map.mp given
        exact ⟨readable, known, equal ▸ List.mem_map_of_mem (Stream.mem_entries_of_mem_news inside),
          group, stored, Stream.undelivered_of_mem_news stored given⟩
      · rw [read_blocked readable] at now
        exact absurd now List.not_mem_nil
    · obtain ⟨readable, known, waiting⟩ := ih (read_ordered ordered) later
      refine ⟨fun k member => ?_, known, waiting_of_read ordered waiting⟩
      rw [← @isSome_groups_read p _ tenantId count]
      exact readable k member

/-- The instance's reads for the tenant are answered, and from the event's stream too. -/
def Serves (p : RedisStreamPublisher) (redis : Redis) (a : Awaited) : Prop :=
  p.groupName a.tenantId = a.group ∧ a.stream ∈ p.readKeys ∧ Readable p redis a.group

def Covered (redis : Redis) (instances : List (Option RedisStreamPublisher)) (a : Awaited) : Prop :=
  ∃ i p, live instances i = some p ∧ Serves p redis a

/-- Some further reads of one live instance return the event. -/
def WithinReach (w : World) (a : Awaited) : Prop :=
  ∃ i p counts, live w.instances i = some p ∧ p.groupName a.tenantId = a.group ∧
    (∀ count ∈ counts, 0 < count) ∧
      ∃ m ∈ readInTurn p a.tenantId w.redis counts, m.stream = a.stream ∧ m.id = a.id

theorem withinReach_iff {w : World} (ordered : w.redis.Ordered) (a : Awaited) :
    WithinReach w a ↔
      (w.redis.stream a.stream).Waiting a.group a.id ∧ Covered w.redis w.instances a := by
  constructor
  · rintro ⟨i, p, counts, alive, own, _, m, returned, stream, id⟩
    obtain ⟨readable, known, waiting⟩ := waiting_of_readInTurn ordered returned
    rw [stream, id, own] at waiting
    exact ⟨waiting, i, p, alive, own, stream ▸ known, own ▸ readable⟩
  · rintro ⟨waiting, i, p, alive, own, known, readable⟩
    -- one read that asks for more than the entries ahead
    let count := (w.redis.stream a.stream).ahead a.group a.id + 1
    have given : a.id ∈ ((w.redis.stream a.stream).news a.group count).map Prod.fst :=
      ((ordered a.stream).mem_news_iff waiting).mpr (Nat.lt_succ_self _)
    rw [← own] at readable given
    obtain ⟨m, returned, same⟩ := (mem_read readable a.stream a.id).mpr ⟨known, given⟩
    refine ⟨i, p, [count], alive, own, by simp [count], m, ?_, same⟩
    rw [readInTurn_cons]
    exact List.mem_append_left _ returned

end Kitematic.StreamReads
