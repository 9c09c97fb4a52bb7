import Kitematic.MemoryRepository
import Kitematic.Trace

/-! The index of the memory repository over any run of saves and deletions. A listing by
agent trusts it: where an id is saved under a second agent, the first one keeps it. -/

namespace Kitematic.MemoryIndex
open Dictionary FallibleOrder KeyOrder MemoryRepository StepExecution Trace

inductive Call where
  | save (item : MemoryItem)
  | delete (memoryId : String)

structure World where
  repo : InMemoryMemoryRepository := {}
  past : List Call := []

def Call.apply (call : Call) (repo : InMemoryMemoryRepository) : InMemoryMemoryRepository :=
  match call with
  | .save item => repo.save item
  | .delete memoryId => repo.delete memoryId

def step (w : World) (call : Call) : Option World :=
  some { repo := call.apply w.repo, past := call :: w.past }

/-- The item last saved under an id, unless it was deleted since. -/
def held : List Call → String → Option MemoryItem
  | [], _ => none
  | .save item :: past, id => if id = item.itemId then some item else held past id
  | .delete memoryId :: past, id => if id = memoryId then none else held past id

/-- At every time and for every agent, whatever the order of the sets, its listing is the search
for it and the unexpired items held for it, each once; and `get` finds what is held and unexpired. -/
structure Consistent (w : World) : Prop where
  listed : ∀ sets now agent, ∃ items,
    w.repo.listByAgent sets now agent = .ok items ∧
      w.repo.search now { agentInstanceId := some agent } = .ok items ∧ items.Nodup ∧
      ∀ item, item ∈ items ↔ held w.past item.itemId = some item ∧
        item.agentInstanceId = agent ∧ item.isExpired now = .ok false
  found : ∀ now id, w.repo.get now id = .ok none ↔ held w.past id = none ∨
    ∃ item, held w.past id = some item ∧ item.isExpired now = .ok true

/-- A save under an id that no other agent has, of an item whose expiry can be read and whose
confidence is not negative. -/
def Clean (w : World) : Call → Prop
  | .save item => (∀ old, w.repo.store.get item.itemId = some old →
      old.agentInstanceId = item.agentInstanceId) ∧
        item.Readable ∧ item.confidence.less (.finite 0) = false
  | .delete _ => True

/-- What is stored has dates with a zone, or has dates without. -/
def Uniform (zoned : Bool) (repo : InMemoryMemoryRepository) : Prop :=
  ∀ id item, repo.store.get id = some item → item.sortDate.isAware = zoned

structure Tracks (zoned : Bool) (w : World) : Prop where
  store : ∀ id, w.repo.store.get id = held w.past id
  keyed : w.repo.Keyed
  uniform : Uniform zoned w.repo

structure Sound (repo : InMemoryMemoryRepository) : Prop where
  inStep : repo.InStep
  readable : ∀ id item, repo.store.get id = some item → item.Readable
  confident : ∀ id item, repo.store.get id = some item →
    item.confidence.less (.finite 0) = false

section delete
variable {repo : InMemoryMemoryRepository}

theorem get_delete (repo : InMemoryMemoryRepository) (memoryId id : String) :
    (repo.delete memoryId).store.get id = if id = memoryId then none else repo.store.get id := by
  unfold InMemoryMemoryRepository.delete
  cases stored : repo.store.get memoryId with
  | none =>
    by_cases same : id = memoryId
    · simp [same, stored]
    · simp [same]
  | some item => simp [Dict.get_erase]

theorem idsOf_delete {memoryId : String} {item : MemoryItem}
    (stored : repo.store.get memoryId = some item) (agent : String) :
    (repo.delete memoryId).idsOf agent =
      if agent = item.agentInstanceId then (repo.idsOf agent).erase memoryId
      else repo.idsOf agent := by
  simp only [InMemoryMemoryRepository.delete, stored, InMemoryMemoryRepository.idsOf]
  cases indexed : repo.agentIndex.get item.agentInstanceId with
  | none =>
    by_cases same : agent = item.agentInstanceId
    · simp [same, indexed]
    · simp [same]
  | some ids =>
    simp only [Dict.get_set]
    by_cases same : agent = item.agentInstanceId
    · simp [same, indexed]
    · simp [same]

theorem inStep_delete (inStep : repo.InStep) (memoryId : String) :
    (repo.delete memoryId).InStep := by
  cases stored : repo.store.get memoryId with
  | none =>
    have same : repo.delete memoryId = repo := by simp [InMemoryMemoryRepository.delete, stored]
    exact same.symm ▸ inStep
  | some item =>
    intro agent id
    rw [idsOf_delete stored, get_delete]
    have before := inStep agent id
    by_cases same : id = memoryId
    · subst same
      by_cases mine : agent = item.agentInstanceId
      · simp [mine]
      · simp [mine, before, stored, Ne.symm mine]
    · by_cases mine : agent = item.agentInstanceId
      · simpa [same, mine] using mine ▸ before
      · simp [same, mine, before]

end delete

theorem stored_of_apply {P : MemoryItem → Prop} {repo : InMemoryMemoryRepository}
    (all : ∀ id item, repo.store.get id = some item → P item) {call : Call}
    (saved : ∀ item, call = .save item → P item) :
    ∀ id item, (call.apply repo).store.get id = some item → P item := by
  intro id item found
  cases call with
  | save new =>
    simp only [Call.apply, InMemoryMemoryRepository.save, Dict.get_set] at found
    split at found
    next => exact Option.some.inj found ▸ saved new rfl
    next => exact all id item found
  | delete memoryId =>
    simp only [Call.apply, get_delete] at found
    split at found
    next => cases found
    next => exact all id item found

def Call.Dated (zoned : Bool) (call : Call) : Prop :=
  ∀ item, call = .save item → item.sortDate.isAware = zoned

theorem Tracks.apply {zoned : Bool} {w : World} (tracks : Tracks zoned w) {call : Call}
    (dated : call.Dated zoned) :
    Tracks zoned { repo := call.apply w.repo, past := call :: w.past } where
  store id := by
    cases call with
    | save item =>
      simp only [Call.apply, InMemoryMemoryRepository.save, Dict.get_set, held, tracks.store]
    | delete memoryId => simp only [Call.apply, get_delete, held, tracks.store]
  keyed := by
    cases call with
    | save item => exact tracks.keyed.save item
    | delete memoryId =>
      intro id item found
      simp only [Call.apply, get_delete] at found
      split at found
      next => cases found
      next => exact tracks.keyed id item found
  uniform := stored_of_apply tracks.uniform dated

theorem admits_agent (agent : String) (item : MemoryItem) :
    ({ agentInstanceId := some agent } : InMemoryMemoryRepository.Query).admits item =
      (decide (item.agentInstanceId = agent) && !item.confidence.less (.finite 0)) := by
  have text : PyText.containsText (PyText.lower item.content) (PyText.lower "") = true := by
    simp [PyText.containsText, PyText.lower]
  simp [InMemoryMemoryRepository.Query.admits, text]

section consistent
variable {zoned : Bool} {w : World}

theorem Tracks.comparable (tracks : Tracks zoned w) : Comparable w.repo.store.values := by
  intro a insideA b insideB
  have ofA := tracks.uniform _ a (tracks.keyed.mem_values.mp insideA)
  exact ofA.trans (tracks.uniform _ b (tracks.keyed.mem_values.mp insideB)).symm

theorem Sound.readable_values (sound : Sound w.repo) (keyed : w.repo.Keyed) :
    ∀ item ∈ w.repo.store.values, item.Readable :=
  fun item member => sound.readable _ item (keyed.mem_values.mp member)

theorem Sound.listed (sound : Sound w.repo) (tracks : Tracks zoned w) (sets : SetOrder)
    (now : ℕ) (agent : String) :
    w.repo.listByAgent sets now agent =
        .ok (sortBy MemoryItem.key ((w.repo.own agent).filter fun item => item.isLive now)) ∧
      w.repo.search now { agentInstanceId := some agent } =
        .ok (sortBy MemoryItem.key ((w.repo.own agent).filter fun item => item.isLive now)) := by
  have readable := sound.readable_values tracks.keyed
  have mine : ∀ item ∈ w.repo.own agent, item.Readable :=
    fun item member => readable item (List.mem_of_mem_filter member)
  have sub : (w.repo.own agent).filter (fun item => item.isLive now) ⊆ w.repo.store.values :=
    fun item member => List.mem_of_mem_filter (List.mem_of_mem_filter member)
  have comparable := tracks.comparable.subset sub
  have distinct : (((w.repo.own agent).filter fun item => item.isLive now).map
      MemoryItem.itemId).Nodup :=
    tracks.keyed.distinct.sublist ((List.filter_sublist.trans List.filter_sublist).map _)
  constructor
  · obtain ⟨found, listed, perm⟩ :=
      InMemoryMemoryRepository.listByAgent_eq tracks.keyed sound.inStep mine sets now
    have inside : Comparable found := comparable.subset perm.subset
    rw [listed, sorted_eq inside,
      sortBy_eq_of_perm perm (InMemoryMemoryRepository.distinct_keys distinct)]
  · have same : (w.repo.store.values.filter fun item => item.isLive now).filter
        ({ agentInstanceId := some agent } : InMemoryMemoryRepository.Query).admits =
          (w.repo.own agent).filter fun item => item.isLive now := by
      rw [InMemoryMemoryRepository.own, List.filter_filter, List.filter_filter]
      refine List.filter_congr fun item member => ?_
      have confident := sound.confident _ item (tracks.keyed.mem_values.mp member)
      simp [admits_agent, confident, Bool.and_comm]
    rw [InMemoryMemoryRepository.search_eq readable, same, sorted_eq comparable]

theorem Sound.consistent (sound : Sound w.repo) (tracks : Tracks zoned w) : Consistent w where
  listed sets now agent := by
    obtain ⟨listed, searched⟩ := sound.listed tracks sets now agent
    have perm := sortBy_perm MemoryItem.key
      ((w.repo.own agent).filter fun item => item.isLive now)
    refine ⟨_, listed, searched, ?_, fun item => ?_⟩
    · exact perm.nodup_iff.mpr ((tracks.keyed.distinct.of_map.filter _).filter _)
    · rw [perm.mem_iff, List.mem_filter, InMemoryMemoryRepository.own, List.mem_filter,
        tracks.keyed.mem_values, ← tracks.store, decide_eq_true_eq, and_assoc]
      refine and_congr_right fun stored => and_congr_right fun _ => ?_
      simp [MemoryItem.isExpired_eq (sound.readable _ item stored)]
  found now id := by
    rw [← tracks.store, InMemoryMemoryRepository.get]
    cases stored : w.repo.store.get id with
    | none => simp
    | some item =>
      have expired := MemoryItem.isExpired_eq (sound.readable id item stored) now
      cases live : item.isLive now <;> simp [expired, live, Except.map]

theorem getItem_eq {repo : InMemoryMemoryRepository} {id : String} {item : MemoryItem} :
    repo.getItem id = .ok item ↔ repo.store.get id = some item := by
  unfold InMemoryMemoryRepository.getItem
  cases repo.store.get id <;> simp

theorem mem_listByAgent {repo : InMemoryMemoryRepository} {sets : SetOrder} {now : ℕ}
    {agent : String} {items : List MemoryItem}
    (listed : repo.listByAgent sets now agent = .ok items) :
    (∀ id ∈ repo.idsOf agent, ∃ item, repo.store.get id = some item ∧
      (item.isLive now = true → item ∈ items)) ∧
    ∀ item ∈ items, ∃ id ∈ repo.idsOf agent, repo.store.get id = some item := by
  unfold InMemoryMemoryRepository.listByAgent at listed
  cases gathered : (sets.order (repo.idsOf agent)).mapM repo.getItem with
  | error e => simp [gathered, bind, Except.bind] at listed
  | ok found =>
    cases read : InMemoryMemoryRepository.unexpired now found with
    | error e => simp [gathered, read, bind, Except.bind] at listed
    | ok live =>
      have readable := (unexpired_ok_iff now).mp ⟨live, read⟩
      obtain rfl := Except.ok.inj ((unexpired_eq readable now).symm.trans read)
      simp only [gathered, read, bind, Except.bind] at listed
      have perm := sortM_perm listed
      obtain ⟨forth, back⟩ := mapM_ok gathered
      constructor
      · intro id member
        obtain ⟨item, inside, got⟩ := forth id ((sets.mem_order _ id).mpr member)
        refine ⟨item, getItem_eq.mp got, fun live => perm.mem_iff.mpr ?_⟩
        exact List.mem_filter.mpr ⟨inside, live⟩
      · intro item member
        obtain ⟨id, inside, got⟩ := back item (List.mem_of_mem_filter (perm.mem_iff.mp member))
        exact ⟨id, (sets.mem_order _ id).mp inside, getItem_eq.mp got⟩

theorem mem_search {repo : InMemoryMemoryRepository} {now : ℕ} {agent : String}
    {items : List MemoryItem}
    (searched : repo.search now { agentInstanceId := some agent } = .ok items) :
    (∀ item ∈ repo.store.values, item.Readable) ∧
      ∀ item ∈ items, item.confidence.less (.finite 0) = false := by
  unfold InMemoryMemoryRepository.search at searched
  cases read : InMemoryMemoryRepository.unexpired now repo.store.values with
  | error e => simp [read, Except.bind] at searched
  | ok live =>
    refine ⟨(unexpired_ok_iff now).mp ⟨live, read⟩, fun item member => ?_⟩
    simp only [read, Except.bind] at searched
    have admitted := List.of_mem_filter ((sortM_perm searched).mem_iff.mp member)
    rw [admits_agent, Bool.and_eq_true] at admitted
    simpa using admitted.2

theorem isTrans_id : IsTrans String fun id id' => id ≤ id' := inferInstance

theorem antisymm_id : Std.Antisymm fun id id' : String => id ≤ id' := inferInstance

-- Sorting takes these by name, wherever else the same facts are found first.

attribute [local instance] isTrans_id antisymm_id in
def byId : SetOrder where
  order ids := ids.sort (· ≤ ·)
  nodup ids := Finset.sort_nodup ids (· ≤ ·)
  mem_order _ _ := Finset.mem_sort (· ≤ ·)

theorem Consistent.sound (consistent : Consistent w) (tracks : Tracks zoned w) : Sound w.repo := by
  have readable : ∀ id item, w.repo.store.get id = some item → item.Readable := by
    intro id item stored
    obtain ⟨items, _, searched, _⟩ := consistent.listed byId 0 item.agentInstanceId
    have under := tracks.keyed id item stored
    exact (mem_search searched).1 item (tracks.keyed.mem_values.mpr (under.symm ▸ stored))
  -- at the first of all times nothing has expired
  have live : ∀ id item, w.repo.store.get id = some item → item.isExpired 0 = .ok false :=
    fun id item stored => by
      simp [MemoryItem.isExpired_eq (readable id item stored), item.isLive_zero]
  have held : ∀ id item, w.repo.store.get id = some item →
      held w.past item.itemId = some item := by
    intro id item stored
    rw [← tracks.store, tracks.keyed id item stored, stored]
  refine ⟨fun agent id => ?_, readable, fun id item stored => ?_⟩
  · obtain ⟨items, listed, _, _, exact⟩ := consistent.listed byId 0 agent
    obtain ⟨forth, back⟩ := mem_listByAgent listed
    constructor
    · intro member
      obtain ⟨item, stored, inside⟩ := forth id member
      exact ⟨item, stored, ((exact item).mp (inside item.isLive_zero)).2.1⟩
    · intro stored
      obtain ⟨item, stored, owner⟩ := stored
      obtain ⟨other, member, got⟩ :=
        back item ((exact item).mpr ⟨held id item stored, owner, live id item stored⟩)
      rwa [← tracks.keyed id item stored, tracks.keyed other item got]
  · obtain ⟨items, _, searched, _, exact⟩ := consistent.listed byId 0 item.agentInstanceId
    exact (mem_search searched).2 item
      ((exact item).mpr ⟨held id item stored, rfl, live id item stored⟩)

theorem Tracks.consistent_iff (tracks : Tracks zoned w) : Consistent w ↔ Sound w.repo :=
  ⟨fun consistent => consistent.sound tracks, fun sound => sound.consistent tracks⟩

end consistent

theorem Sound.apply_iff {w : World} (sound : Sound w.repo) (call : Call) :
    Sound (call.apply w.repo) ↔ Clean w call := by
  cases call with
  | delete memoryId =>
    refine iff_of_true ⟨inStep_delete sound.inStep memoryId, ?_, ?_⟩ trivial
    · exact stored_of_apply sound.readable fun _ other => by cases other
    · exact stored_of_apply sound.confident fun _ other => by cases other
  | save item =>
    have saved : (w.repo.save item).store.get item.itemId = some item := Dict.get_set_self ..
    constructor
    · intro after
      refine ⟨fun old stored => ?_, after.readable _ item saved, after.confident _ item saved⟩
      by_contra other
      have indexed : item.itemId ∈ w.repo.idsOf old.agentInstanceId :=
        (sound.inStep _ _).mpr ⟨old, stored, rfl⟩
      have still : item.itemId ∈ (w.repo.save item).idsOf old.agentInstanceId := by
        rw [InMemoryMemoryRepository.idsOf_save, if_neg other]
        exact indexed
      obtain ⟨new, found, owner⟩ := (after.inStep _ _).mp still
      obtain rfl := Option.some.inj (saved.symm.trans found)
      exact other owner.symm
    · intro clean
      obtain ⟨owner, readable, confident⟩ := clean
      refine ⟨sound.inStep.save owner, ?_, ?_⟩
      · exact stored_of_apply sound.readable fun _ same => by cases same; exact readable
      · exact stored_of_apply sound.confident fun _ same => by cases same; exact confident

def saved (calls : List Call) : List MemoryItem :=
  calls.filterMap fun call =>
    match call with
    | .save item => some item
    | .delete _ => none

/-- In any run of saves of items with comparable dates and of deletions the index is in step with
the store, and listings, searches and lookups agree, exactly when every save is clean. -/
theorem consistent_iff_clean {calls : List Call} (comparable : Comparable (saved calls)) :
    AllStates step Consistent {} calls ↔ EachStep step (fun _ => Clean) [] {} calls := by
  obtain ⟨zoned, dated⟩ : ∃ zoned, ∀ call ∈ calls, call.Dated zoned := by
    cases first : saved calls with
    | nil =>
      refine ⟨false, fun call member item same => ?_⟩
      have inside : item ∈ saved calls := List.mem_filterMap.mpr ⟨call, member, by rw [same]⟩
      simp [first] at inside
    | cons item items =>
      refine ⟨item.sortDate.isAware, fun call member other same => ?_⟩
      have inside : other ∈ saved calls := List.mem_filterMap.mpr ⟨call, member, by rw [same]⟩
      exact comparable other inside item (first ▸ List.mem_cons_self)
  have start : Tracks zoned {} :=
    ⟨fun _ => rfl, InMemoryMemoryRepository.keyed_new, fun _ _ found => by simp at found⟩
  have sound : Sound ({} : InMemoryMemoryRepository) :=
    ⟨InMemoryMemoryRepository.inStep_new, fun _ _ found => by simp at found,
      fun _ _ found => by simp at found⟩
  refine allStates_iff_eachStep_of (Call.Dated zoned) (I := fun _ => Tracks zoned) ?_ ?_ dated
    start (sound.consistent start) (run_total _ _ _)
  · intro past w call t allowed tracks stepped
    exact Option.some.inj stepped ▸ tracks.apply allowed
  · intro past w call t allowed tracks good stepped
    obtain rfl := Option.some.inj stepped
    rw [(tracks.apply allowed).consistent_iff]
    exact (good.sound tracks).apply_iff call

def sampleItem : MemoryItem where
  itemId := "m1"
  tenantId := "acme"
  agentInstanceId := "agent-1"
  type := .fact
  content := "The office is in Oslo."

def movedItem : MemoryItem := { sampleItem with agentInstanceId := "agent-2" }

def kept : List Call :=
  [.save sampleItem, .save { movedItem with itemId := "m2" },
    .save { sampleItem with itemId := "m3" }, .delete "m3",
    .save { movedItem with itemId := "m2", content := "The office is in Bergen." }]

theorem consistent_iff_clean_kept :
    AllStates step Consistent {} kept ↔ EachStep step (fun _ => Clean) [] {} kept :=
  consistent_iff_clean (by decide)

def moved : InMemoryMemoryRepository :=
  (InMemoryMemoryRepository.save {} sampleItem).save movedItem

/-- The first agent lists the item of the second, and raises once that is deleted. -/
theorem moved_item_listed :
    moved.listByAgent byId 0 "agent-1" = .ok [movedItem] ∧
      moved.search 0 { agentInstanceId := some "agent-1" } = .ok [] ∧
      (moved.delete "m1").listByAgent byId 0 "agent-1" = .error (.keyError "m1") ∧
      ¬ AllStates step Consistent {} [.save sampleItem, .save movedItem] := by
  have listed : moved.listByAgent byId 0 "agent-1" = .ok [movedItem] := by decide +kernel
  have searched : moved.search 0 { agentInstanceId := some "agent-1" } = .ok [] := by
    decide +kernel
  refine ⟨listed, searched, by decide +kernel, fun all => ?_⟩
  have last : Consistent ⟨moved, [.save movedItem, .save sampleItem]⟩ := all.last rfl
  obtain ⟨items, own, search, _⟩ := last.listed byId 0 "agent-1"
  cases (listed.symm.trans own).trans (search.symm.trans searched)

end Kitematic.MemoryIndex
