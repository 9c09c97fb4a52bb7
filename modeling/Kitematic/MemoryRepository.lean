import Kitematic.Dict
import Kitematic.FallibleOrder
import Kitematic.Floats
import Mathlib.Data.Finset.Sort
import Mathlib.Data.Prod.Lex
import Mathlib.Data.String.Basic

/-! The repository of memory items: a dictionary by id, and for each agent the set of the
ids saved under it. A reading says at which time it is made. Items are immutable, so deep
copies are the identity. -/

namespace Kitematic.MemoryRepository
open Dictionary FallibleOrder KeyOrder PyText StepExecution

/-- A `datetime` in microseconds since `datetime.min`: a naive one by its clock face, one with a
zone by its time in UTC. -/
inductive PyDate where
  | naive (clock : ℕ)
  | aware (utc : ℕ)
  deriving DecidableEq

def datetimeMin : PyDate := .naive 0

inductive MemoryError where
  | keyError (id : String)
  | typeError (text : String)
  deriving DecidableEq

namespace PyDate

def isAware : PyDate → Bool
  | .naive _ => false
  | .aware _ => true

def instant : PyDate → ℕ
  | .naive clock => clock
  | .aware utc => utc

def less : PyDate → PyDate → Except MemoryError Bool
  | .naive d, .naive d' => .ok (d < d')
  | .aware d, .aware d' => .ok (d < d')
  | _, _ => .error (.typeError "can't compare offset-naive and offset-aware datetimes")

end PyDate

inductive MemoryType where
  | fact | preference | summary | experience | document
  deriving DecidableEq

structure MemoryItem where
  itemId : String
  tenantId : String
  agentInstanceId : String
  type : MemoryType
  content : String
  confidence : PyFloat := .finite 1
  source : String := ""
  createdAt : Option PyDate := none
  expiresAt : Option PyDate := none
  deriving DecidableEq

namespace MemoryItem
variable (item : MemoryItem)

def validate : List String :=
  (if item.itemId = "" then ["item_id is required"] else []) ++
    (if item.content = "" then ["content is required"] else []) ++
    (if (PyFloat.finite 0).atMost item.confidence && item.confidence.atMost (.finite 1) then []
      else ["confidence must be between 0.0 and 1.0"])

def isExpired (now : ℕ) : Except MemoryError Bool :=
  match item.expiresAt with
  | none => .ok false
  | some expiry => expiry.less (.aware now)

def sortDate : PyDate := item.createdAt.getD datetimeMin

/-- How `sorted` compares two items by their keys: by the dates where these are not equal. -/
def less (item item' : MemoryItem) : Except MemoryError Bool :=
  if item.sortDate = item'.sortDate then .ok (item.itemId < item'.itemId)
  else item.sortDate.less item'.sortDate

end MemoryItem

structure SetOrder where
  order : Finset String → List String
  nodup : ∀ ids, (order ids).Nodup
  mem_order : ∀ ids id, id ∈ order ids ↔ id ∈ ids

structure InMemoryMemoryRepository where
  store : Dict String MemoryItem := .empty
  agentIndex : Dict String (Finset String) := .empty

namespace InMemoryMemoryRepository
variable (repo : InMemoryMemoryRepository)

def idsOf (agent : String) : Finset String := (repo.agentIndex.get agent).getD ∅

def save (memory : MemoryItem) : InMemoryMemoryRepository where
  store := repo.store.set memory.itemId memory
  agentIndex := repo.agentIndex.set memory.agentInstanceId
    (insert memory.itemId (repo.idsOf memory.agentInstanceId))

def get (now : ℕ) (memoryId : String) : Except MemoryError (Option MemoryItem) :=
  match repo.store.get memoryId with
  | none => .ok none
  | some item => (item.isExpired now).map fun expired => if expired then none else some item

def unexpired (now : ℕ) : List MemoryItem → Except MemoryError (List MemoryItem)
  | [] => .ok []
  | item :: items =>
      match item.isExpired now with
      | .error e => .error e
      | .ok expired => (unexpired now items).map fun live => if expired then live else item :: live

structure Query where
  query : String := ""
  agentInstanceId : Option String := none
  memoryType : Option MemoryType := none
  minConfidence : PyFloat := .finite 0

def Query.admits (q : Query) (item : MemoryItem) : Bool :=
  (q.agentInstanceId.all fun agent => item.agentInstanceId = agent) &&
    (q.memoryType.all fun type => item.type = type) &&
    !item.confidence.less q.minConfidence &&
    containsText (lower item.content) (lower q.query)

def search (now : ℕ) (q : Query) : Except MemoryError (List MemoryItem) :=
  (unexpired now repo.store.values).bind fun live => sortM MemoryItem.less (live.filter q.admits)

def getItem (id : String) : Except MemoryError MemoryItem :=
  match repo.store.get id with
  | some item => .ok item
  | none => .error (.keyError id)

def listByAgent (sets : SetOrder) (now : ℕ) (agentInstanceId : String) :
    Except MemoryError (List MemoryItem) := do
  let items ← (sets.order (repo.idsOf agentInstanceId)).mapM repo.getItem
  let filtered ← unexpired now items
  sortM MemoryItem.less filtered

def delete (memoryId : String) : InMemoryMemoryRepository :=
  match repo.store.get memoryId with
  | none => repo
  | some item => {
      store := repo.store.erase memoryId
      agentIndex := match repo.agentIndex.get item.agentInstanceId with
        | none => repo.agentIndex
        | some ids => repo.agentIndex.set item.agentInstanceId (ids.erase memoryId) }

end InMemoryMemoryRepository

namespace MemoryItem

def Readable (item : MemoryItem) : Prop := ∀ expiry ∈ item.expiresAt, expiry.isAware = true

instance (item : MemoryItem) : Decidable item.Readable :=
  inferInstanceAs (Decidable (∀ expiry ∈ item.expiresAt, expiry.isAware = true))

def isLive (now : ℕ) (item : MemoryItem) : Bool :=
  item.expiresAt.all fun expiry => now ≤ expiry.instant

theorem isExpired_eq {item : MemoryItem} (readable : item.Readable) (now : ℕ) :
    item.isExpired now = .ok (!item.isLive now) := by
  unfold Readable at readable
  unfold isExpired isLive
  cases expires : item.expiresAt with
  | none => rfl
  | some expiry =>
    have aware := readable expiry (by simp [expires])
    cases expiry with
    | naive clock => cases aware
    | aware utc =>
      by_cases late : utc < now
      · simp [PyDate.less, PyDate.instant, late, not_le.mpr late]
      · simp [PyDate.less, PyDate.instant, late, not_lt.mp late]

theorem isExpired_raises {item : MemoryItem} (unreadable : ¬ item.Readable) (now : ℕ) :
    ∃ e, item.isExpired now = .error e := by
  unfold Readable at unreadable
  unfold isExpired
  cases expires : item.expiresAt with
  | none => simp [expires] at unreadable
  | some expiry =>
    cases expiry with
    | naive clock => exact ⟨_, rfl⟩
    | aware utc => simp [expires, PyDate.isAware] at unreadable

theorem isLive_zero (item : MemoryItem) : item.isLive 0 = true := by
  cases expires : item.expiresAt <;> simp [isLive, expires]

def key (item : MemoryItem) : ℕ ×ₗ String := toLex (item.sortDate.instant, item.itemId)

theorem less_eq {item item' : MemoryItem}
    (comparable : item.sortDate.isAware = item'.sortDate.isAware) :
    item.less item' = .ok (decide (item.key < item'.key)) := by
  have lex : item.key < item'.key ↔ item.sortDate.instant < item'.sortDate.instant ∨
      item.sortDate.instant = item'.sortDate.instant ∧ item.itemId < item'.itemId :=
    Prod.Lex.toLex_lt_toLex
  simp only [less, lex]
  cases first : item.sortDate <;> cases second : item'.sortDate <;>
    simp only [first, second, PyDate.isAware, Bool.true_eq_false, Bool.false_eq_true]
      at comparable
  all_goals
    simp only [PyDate.instant, PyDate.less, PyDate.naive.injEq, PyDate.aware.injEq]
    split
    next same => simp [same]
    next differ => simp [differ]

theorem levelled_less :
    Levelled (fun _ => True) less (fun _ => ()) fun item => item.sortDate.isAware where
  differ _ _ _ _ differ := absurd rfl differ
  apart item item' _ _ _ mixed := by
    unfold less
    cases first : item.sortDate <;> cases second : item'.sortDate <;>
      simp only [first, second, PyDate.isAware, ne_eq, not_true_eq_false] at mixed
    all_goals simp [PyDate.less]

end MemoryItem

section reading
variable {items : List MemoryItem}

theorem unexpired_eq (readable : ∀ item ∈ items, item.Readable) (now : ℕ) :
    InMemoryMemoryRepository.unexpired now items = .ok (items.filter fun item => item.isLive now) := by
  induction items with
  | nil => rfl
  | cons item items ih =>
    have later := ih fun item member => readable item (List.mem_cons_of_mem _ member)
    have first := MemoryItem.isExpired_eq (readable item List.mem_cons_self) now
    simp only [InMemoryMemoryRepository.unexpired, first, later, Except.map]
    cases live : item.isLive now <;> simp [live]

theorem unexpired_raises {item : MemoryItem} (member : item ∈ items) (unreadable : ¬ item.Readable)
    (now : ℕ) : ∃ e, InMemoryMemoryRepository.unexpired now items = .error e := by
  induction items with
  | nil => cases member
  | cons first items ih =>
    unfold InMemoryMemoryRepository.unexpired
    cases expired : first.isExpired now with
    | error e => exact ⟨e, rfl⟩
    | ok answer =>
      cases List.mem_cons.mp member with
      | inl same =>
        obtain ⟨e, raised⟩ := MemoryItem.isExpired_raises (same ▸ unreadable) now
        cases expired.symm.trans raised
      | inr inside =>
        obtain ⟨e, raised⟩ := ih inside
        exact ⟨e, by simp [raised, Except.map]⟩

theorem unexpired_ok_iff (now : ℕ) :
    (∃ live, InMemoryMemoryRepository.unexpired now items = .ok live) ↔
      ∀ item ∈ items, item.Readable := by
  constructor
  · intro ok item member
    by_contra unreadable
    obtain ⟨live, read⟩ := ok
    obtain ⟨e, raised⟩ := unexpired_raises member unreadable now
    cases read.symm.trans raised
  · exact fun readable => ⟨_, unexpired_eq readable now⟩

/-- The items of a list have sort dates of one kind. -/
def Comparable (items : List MemoryItem) : Prop :=
  ∀ a ∈ items, ∀ b ∈ items, a.sortDate.isAware = b.sortDate.isAware

instance (items : List MemoryItem) : Decidable (Comparable items) :=
  inferInstanceAs (Decidable (∀ a ∈ items, ∀ b ∈ items, _ = _))

theorem Comparable.subset {items' : List MemoryItem} (comparable : Comparable items)
    (sub : items' ⊆ items) : Comparable items' :=
  fun a insideA b insideB => comparable a (sub insideA) b (sub insideB)

theorem sorted_eq (comparable : Comparable items) :
    sortM MemoryItem.less items = .ok (sortBy MemoryItem.key items) :=
  sortM_eq fun a insideA b insideB => MemoryItem.less_eq (comparable a insideA b insideB)

theorem sorted_ok_iff : (∃ sorted, sortM MemoryItem.less items = .ok sorted) ↔ Comparable items := by
  constructor
  · intro ok
    obtain ⟨sorted, ok⟩ := ok
    have unmixed := MemoryItem.levelled_less.unmixed (fun _ _ => trivial) ok
    exact fun a insideA b insideB => unmixed a insideA b insideB rfl
  · exact fun comparable => ⟨_, sorted_eq comparable⟩

end reading

namespace InMemoryMemoryRepository
variable {repo : InMemoryMemoryRepository}

def Keyed (repo : InMemoryMemoryRepository) : Prop :=
  ∀ id item, repo.store.get id = some item → item.itemId = id

/-- The index lists for each agent the ids of its stored items. -/
def InStep (repo : InMemoryMemoryRepository) : Prop :=
  ∀ agent id, id ∈ repo.idsOf agent ↔
    ∃ item, repo.store.get id = some item ∧ item.agentInstanceId = agent

/-- The stored items of an agent. -/
def own (repo : InMemoryMemoryRepository) (agent : String) : List MemoryItem :=
  repo.store.values.filter fun item => item.agentInstanceId = agent

theorem Keyed.mem_values (keyed : repo.Keyed) {item : MemoryItem} :
    item ∈ repo.store.values ↔ repo.store.get item.itemId = some item := by
  unfold Dict.values
  constructor
  · intro member
    obtain ⟨⟨id, stored⟩, inside, rfl⟩ := List.mem_map.mp member
    have found := Dict.get_eq_some.mpr inside
    exact (keyed id stored found).symm ▸ found
  · exact fun found => List.mem_map.mpr ⟨_, Dict.get_eq_some.mp found, rfl⟩

theorem Keyed.map_values (keyed : repo.Keyed) :
    repo.store.values.map MemoryItem.itemId = repo.store.keys := by
  unfold Dict.values Dict.keys
  rw [List.map_map]
  exact List.map_congr_left fun e member => keyed e.1 e.2 (Dict.get_eq_some.mpr member)

theorem Keyed.distinct (keyed : repo.Keyed) :
    (repo.store.values.map MemoryItem.itemId).Nodup :=
  keyed.map_values ▸ repo.store.nodup

theorem distinct_keys {items : List MemoryItem} (distinct : (items.map MemoryItem.itemId).Nodup) :
    (items.map MemoryItem.key).Nodup := by
  refine List.Nodup.of_map (fun key : ℕ ×ₗ String => (ofLex key).2) ?_
  rw [List.map_map]
  exact distinct

theorem gather_perm (keyed : repo.Keyed) (inStep : repo.InStep) (sets : SetOrder)
    (agent : String) : ∃ found,
      (sets.order (repo.idsOf agent)).mapM repo.getItem = .ok found ∧
        found.Perm (repo.own agent) := by
  have each : ∀ id ∈ sets.order (repo.idsOf agent),
      ∃ item, repo.store.get id = some item ∧ repo.getItem id = .ok item := by
    intro id member
    obtain ⟨item, stored, _⟩ := (inStep agent id).mp ((sets.mem_order _ id).mp member)
    exact ⟨item, stored, by simp [getItem, stored]⟩
  refine ⟨_, mapM_lookup each, ?_⟩
  have nodup : ((sets.order (repo.idsOf agent)).filterMap repo.store.get).Nodup := by
    refine (sets.nodup _).filterMap fun id id' item first second => ?_
    exact (keyed id item first).symm.trans (keyed id' item second)
  refine (List.perm_ext_iff_of_nodup nodup (keyed.distinct.of_map.filter _)).mpr fun item => ?_
  simp only [List.mem_filterMap, sets.mem_order, inStep agent, List.mem_filter,
    keyed.mem_values, decide_eq_true_eq]
  constructor
  · intro found
    obtain ⟨id, ⟨other, stored, owner⟩, same⟩ := found
    obtain rfl := Option.some.inj (stored.symm.trans same)
    exact ⟨(keyed id other stored).symm ▸ stored, owner⟩
  · exact fun found => ⟨item.itemId, ⟨item, found.1, found.2⟩, found.1⟩

theorem search_eq (readable : ∀ item ∈ repo.store.values, item.Readable) (now : ℕ) (q : Query) :
    repo.search now q =
      sortM MemoryItem.less ((repo.store.values.filter fun item => item.isLive now).filter
        q.admits) := by
  simp only [search, unexpired_eq readable, Except.bind]

theorem listByAgent_eq (keyed : repo.Keyed) (inStep : repo.InStep) {agent : String}
    (readable : ∀ item ∈ repo.own agent, item.Readable) (sets : SetOrder) (now : ℕ) :
    ∃ found, repo.listByAgent sets now agent = sortM MemoryItem.less found ∧
      found.Perm ((repo.own agent).filter fun item => item.isLive now) := by
  obtain ⟨found, gathered, perm⟩ := gather_perm keyed inStep sets agent
  have read := unexpired_eq (fun item member => readable item (perm.mem_iff.mp member)) now
  refine ⟨_, ?_, perm.filter _⟩
  simp only [listByAgent, gathered, bind, Except.bind, read]

theorem idsOf_save (repo : InMemoryMemoryRepository) (item : MemoryItem) (agent : String) :
    (repo.save item).idsOf agent =
      if agent = item.agentInstanceId then insert item.itemId (repo.idsOf agent)
      else repo.idsOf agent := by
  simp only [idsOf, save, Dict.get_set]
  by_cases same : agent = item.agentInstanceId
  · simp [same]
  · simp [same]

theorem Keyed.save (keyed : repo.Keyed) (item : MemoryItem) : (repo.save item).Keyed := by
  intro id stored found
  rw [InMemoryMemoryRepository.save, Dict.get_set] at found
  split at found
  next same => exact Option.some.inj found ▸ same.symm
  next => exact keyed id stored found

theorem InStep.save (inStep : repo.InStep) {item : MemoryItem}
    (owner : ∀ old, repo.store.get item.itemId = some old →
      old.agentInstanceId = item.agentInstanceId) : (repo.save item).InStep := by
  intro agent id
  have before := inStep agent id
  rw [idsOf_save]
  simp only [InMemoryMemoryRepository.save, Dict.get_set]
  by_cases same : id = item.itemId
  · subst same
    by_cases mine : agent = item.agentInstanceId
    · simp [mine]
    · simp only [mine, if_false, before, if_true, Option.some.injEq, exists_eq_left', Ne.symm mine,
        iff_false, not_exists, not_and]
      exact fun old found under => mine (under ▸ owner old found)
  · by_cases mine : agent = item.agentInstanceId
    · simpa [same, mine] using mine ▸ before
    · simpa [same, mine] using before

theorem keyed_new : ({} : InMemoryMemoryRepository).Keyed := fun _ _ found => by
  simp at found

theorem inStep_new : ({} : InMemoryMemoryRepository).InStep := fun _ _ => by
  simp [idsOf]

end InMemoryMemoryRepository

end Kitematic.MemoryRepository
