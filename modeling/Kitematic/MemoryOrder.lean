import Kitematic.MemoryRepository

/-! The order of what the memory repository returns. An item without a date is sorted as if
it had the least naive one. -/

namespace Kitematic.MemoryOrder
open Dictionary FallibleOrder KeyOrder MemoryRepository StepExecution

/-- The order that is promised: by date, items without one first, then by id. -/
def Before (a b : MemoryItem) : Prop :=
  match a.createdAt, b.createdAt with
  | none, none => a.itemId < b.itemId
  | none, some _ => True
  | some _, none => False
  | some d, some d' => d.isAware = d'.isAware ∧
      (d.instant < d'.instant ∨ d.instant = d'.instant ∧ a.itemId < b.itemId)

/-- A reading returns these items, in the order that is promised. -/
def Right (result : Except MemoryError (List MemoryItem)) (items : List MemoryItem) : Prop :=
  ∃ out, result = .ok out ∧ out.Perm items ∧ out.Pairwise Before

/-- No item without a date has a larger id than one with the least date. -/
def Untied (items : List MemoryItem) : Prop :=
  ∀ a ∈ items, ∀ b ∈ items, a.createdAt = some datetimeMin → b.createdAt = none →
    b.itemId < a.itemId

/-- The order of the keys is the promised one, but for the least date. -/
theorem before_iff {a b : MemoryItem} (comparable : a.sortDate.isAware = b.sortDate.isAware) :
    Before a b ↔ (a.key < b.key ∨ a.createdAt = none ∧ b.createdAt = some datetimeMin) ∧
      ¬ (a.createdAt = some datetimeMin ∧ b.createdAt = none) := by
  have lex : a.key < b.key ↔ a.sortDate.instant < b.sortDate.instant ∨
      a.sortDate.instant = b.sortDate.instant ∧ a.itemId < b.itemId :=
    Prod.Lex.toLex_lt_toLex
  rw [lex]
  cases first : a.createdAt with
  | none =>
    cases second : b.createdAt with
    | none => simp [Before, first, second, MemoryItem.sortDate]
    | some d' =>
      cases d' with
      | aware utc =>
        simp [MemoryItem.sortDate, first, second, PyDate.isAware, datetimeMin] at comparable
      | naive clock =>
        simp [Before, first, second, MemoryItem.sortDate, datetimeMin, PyDate.instant]
        omega
  | some d =>
    cases second : b.createdAt with
    | none =>
      cases d with
      | aware utc =>
        simp [MemoryItem.sortDate, first, second, PyDate.isAware, datetimeMin] at comparable
      | naive clock =>
        simp [Before, first, second, MemoryItem.sortDate, datetimeMin, PyDate.instant]
        omega
    | some d' =>
      simp only [MemoryItem.sortDate, first, second, Option.getD_some] at comparable
      simp [Before, first, second, MemoryItem.sortDate, comparable]

theorem key_lt_of_tie {a b : MemoryItem} (least : a.createdAt = some datetimeMin)
    (absent : b.createdAt = none) : (a.key < b.key ↔ a.itemId < b.itemId) ∧
      (b.key < a.key ↔ b.itemId < a.itemId) := by
  unfold MemoryItem.key MemoryItem.sortDate
  simp [Prod.Lex.toLex_lt_toLex, least, absent]

section right
variable {items : List MemoryItem}

theorem sortBy_before (distinct : (items.map MemoryItem.itemId).Nodup)
    (comparable : Comparable items) (untied : Untied items) :
    (sortBy MemoryItem.key items).Pairwise Before := by
  have perm := sortBy_perm MemoryItem.key items
  have different : (sortBy MemoryItem.key items).Pairwise fun a b => a.key ≠ b.key :=
    List.pairwise_map.mp ((perm.map MemoryItem.key).nodup_iff.mpr
      (InMemoryMemoryRepository.distinct_keys distinct))
  refine ((sortBy_pairwise MemoryItem.key items).and different).imp_of_mem ?_
  intro a b insideA insideB ordered
  have memberA := perm.mem_iff.mp insideA
  have memberB := perm.mem_iff.mp insideB
  have less := lt_of_le_of_ne ordered.1 ordered.2
  refine (before_iff (comparable a memberA b memberB)).mpr ⟨.inl less, fun tie => ?_⟩
  have back := (key_lt_of_tie tie.1 tie.2).2.mpr (untied a memberA b memberB tie.1 tie.2)
  exact lt_asymm less back

theorem right_sort_iff (distinct : (items.map MemoryItem.itemId).Nodup) :
    Right (sortM MemoryItem.less items) items ↔ Comparable items ∧ Untied items := by
  constructor
  · intro right
    obtain ⟨out, sorted, perm, ordered⟩ := right
    have comparable := sorted_ok_iff.mp ⟨out, sorted⟩
    refine ⟨comparable, fun a insideA b insideB least absent => ?_⟩
    obtain rfl := Except.ok.inj ((sorted_eq comparable).symm.trans sorted)
    by_contra tie
    have other : a ≠ b := by
      rintro rfl
      cases least.symm.trans absent
    have apart : a.itemId ≠ b.itemId :=
      fun same => other (List.inj_on_of_nodup_map distinct insideA insideB same)
    have less := (key_lt_of_tie least absent).1.mpr (lt_of_le_of_ne (not_lt.mp tie) apart)
    have both := (ordered.and (sortBy_pairwise MemoryItem.key items)).imp
      (S := fun a b => (Before a b ∧ a.key ≤ b.key) ∨ (Before b a ∧ b.key ≤ a.key)) .inl
    have : Std.Symm fun a b : MemoryItem =>
        (Before a b ∧ a.key ≤ b.key) ∨ (Before b a ∧ b.key ≤ a.key) := ⟨fun _ _ => Or.symm⟩
    cases both.forall (perm.mem_iff.mpr insideA) (perm.mem_iff.mpr insideB) other with
    | inl first => simp [Before, least, absent] at first
    | inr second => exact absurd second.2 (not_le.mpr less)
  · intro clean
    exact ⟨_, sorted_eq clean.1, sortBy_perm _ _, sortBy_before distinct clean.1 clean.2⟩

theorem Right.of_perm {result : Except MemoryError (List MemoryItem)} {items' : List MemoryItem}
    (right : Right result items) (perm : items.Perm items') : Right result items' := by
  obtain ⟨out, returned, same, ordered⟩ := right
  exact ⟨out, returned, same.trans perm, ordered⟩

end right

def holding (items : List MemoryItem) : InMemoryMemoryRepository :=
  items.foldl InMemoryMemoryRepository.save {}

theorem holding_stored {items : List MemoryItem}
    (distinct : (items.map MemoryItem.itemId).Nodup) :
    (holding items).Keyed ∧ (holding items).InStep ∧ (holding items).store.values = items := by
  induction items using List.reverseRecOn with
  | nil => exact ⟨InMemoryMemoryRepository.keyed_new, InMemoryMemoryRepository.inStep_new, rfl⟩
  | append_singleton items item ih =>
    rw [List.map_append, List.nodup_append] at distinct
    obtain ⟨keyed, inStep, values⟩ := ih distinct.1
    have fresh : item.itemId ∉ (holding items).store.keys := by
      rw [← keyed.map_values, values]
      exact fun member => distinct.2.2 _ member _ List.mem_cons_self rfl
    have missing := Dict.get_eq_none.mpr fresh
    have appended : holding (items ++ [item]) = (holding items).save item := by
      simp [holding, List.foldl_append]
    rw [appended]
    refine ⟨keyed.save item, inStep.save fun old found => ?_, ?_⟩
    · cases missing.symm.trans found
    · exact (Dict.values_set_new fresh item).trans (congrArg (· ++ [item]) values)

/-- Every search and every listing returns its unexpired items in the order that is promised. -/
structure Ordered (items : List MemoryItem) : Prop where
  search : ∀ now q, Right ((holding items).search now q)
    (items.filter fun item => item.isLive now && q.admits item)
  listed : ∀ sets now agent, Right ((holding items).listByAgent sets now agent)
    (items.filter fun item => item.agentInstanceId = agent && item.isLive now)

theorem Untied.subset {items items' : List MemoryItem} (untied : Untied items)
    (sub : items' ⊆ items) : Untied items' :=
  fun a insideA b insideB => untied a (sub insideA) b (sub insideB)

theorem admits_all (item : MemoryItem) :
    ({ minConfidence := .infinite true } : InMemoryMemoryRepository.Query).admits item = true := by
  have text : PyText.containsText (PyText.lower item.content) (PyText.lower "") = true := by
    simp [PyText.containsText, PyText.lower]
  have floor : item.confidence.less (.infinite true) = false := by
    cases item.confidence <;> simp [PyFloat.less]
  simp [InMemoryMemoryRepository.Query.admits, text, floor]

/-- Readings of any items of distinct ids are right just where every expiry has a zone, the
dates are comparable with each other, and no item without one has a larger id than an item
with the least date. -/
theorem ordered_iff_comparable {items : List MemoryItem}
    (distinct : (items.map MemoryItem.itemId).Nodup) :
    Ordered items ↔ (∀ item ∈ items, item.Readable) ∧ Comparable items ∧ Untied items := by
  obtain ⟨keyed, inStep, values⟩ := holding_stored distinct
  constructor
  · intro ordered
    have right := ordered.search 0 { minConfidence := .infinite true }
    have readable : ∀ item ∈ items, item.Readable := by
      obtain ⟨out, returned, _⟩ := right
      refine (unexpired_ok_iff 0).mp ?_
      rw [InMemoryMemoryRepository.search, values] at returned
      cases read : InMemoryMemoryRepository.unexpired 0 items with
      | error e => simp [read, Except.bind] at returned
      | ok live => exact ⟨live, rfl⟩
    have stored : ∀ item ∈ (holding items).store.values, item.Readable := by
      rw [values]
      exact readable
    have whole : items.filter ({ minConfidence := .infinite true } :
        InMemoryMemoryRepository.Query).admits = items :=
      List.filter_eq_self.mpr fun item _ => admits_all item
    rw [InMemoryMemoryRepository.search_eq stored, values] at right
    simp only [MemoryItem.isLive_zero, admits_all, Bool.and_true, List.filter_true, whole] at right
    exact ⟨readable, (right_sort_iff distinct).mp right⟩
  · intro clean
    obtain ⟨readable, comparable, untied⟩ := clean
    have stored : ∀ item ∈ (holding items).store.values, item.Readable := by
      rw [values]
      exact readable
    have sorted : ∀ found kept : List MemoryItem, kept.Sublist items → found.Perm kept →
        Right (sortM MemoryItem.less found) kept := by
      intro found kept sub perm
      have ids := (perm.map MemoryItem.itemId).nodup_iff.mpr (distinct.sublist (sub.map _))
      have inside : found ⊆ items := fun _ member => sub.subset (perm.subset member)
      exact Right.of_perm
        ((right_sort_iff ids).mpr ⟨comparable.subset inside, untied.subset inside⟩) perm
    constructor
    · intro now q
      rw [InMemoryMemoryRepository.search_eq stored, values, List.filter_filter]
      simp only [Bool.and_comm]
      exact sorted _ _ List.filter_sublist (.refl _)
    · intro sets now agent
      have mine : ∀ item ∈ (holding items).own agent, item.Readable :=
        fun item member => stored item (List.mem_of_mem_filter member)
      obtain ⟨found, listed, perm⟩ :=
        InMemoryMemoryRepository.listByAgent_eq keyed inStep mine sets now
      rw [InMemoryMemoryRepository.own, values, List.filter_filter] at perm
      simp only [Bool.and_comm] at perm ⊢
      exact listed ▸ sorted _ _ List.filter_sublist perm

def undated : MemoryItem where
  itemId := "m1"
  tenantId := "acme"
  agentInstanceId := "agent-1"
  type := .fact
  content := "The office is in Oslo."

def dated : MemoryItem :=
  { undated with itemId := "m2", createdAt := some (.aware 63900000000000000) }

def mixed : List MemoryItem :=
  [{ undated with itemId := "m4", createdAt := some (.naive 63900000000000000) },
    { undated with itemId := "m3", createdAt := some (.naive 63800000000000000) }, undated,
    { undated with itemId := "m2", createdAt := some (.naive 63900000000000000) }]

theorem ordered_iff_comparable_mixed :
    ((holding mixed).search 0 {}).map (List.map MemoryItem.itemId) = .ok ["m1", "m3", "m2", "m4"] ∧
      (Ordered mixed ↔ (∀ item ∈ mixed, item.Readable) ∧ Comparable mixed ∧ Untied mixed) :=
  ⟨by decide +kernel, ordered_iff_comparable (by decide)⟩

/-- Both items are valid, and no search finds them both. -/
theorem undated_item_raises : undated.validate = [] ∧ dated.validate = [] ∧
    (holding [undated, dated]).search 0 {} =
      .error (.typeError "can't compare offset-naive and offset-aware datetimes") ∧
    ¬ Ordered [undated, dated] := by
  have raised : (holding [undated, dated]).search 0 {} =
      .error (.typeError "can't compare offset-naive and offset-aware datetimes") := by
    decide +kernel
  refine ⟨by decide, by decide, raised, fun ordered => ?_⟩
  obtain ⟨out, returned, _⟩ := ordered.search 0 {}
  cases raised.symm.trans returned

end Kitematic.MemoryOrder
