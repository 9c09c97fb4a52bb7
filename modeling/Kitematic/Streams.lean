import Mathlib.Data.List.Nodup
import Mathlib.Data.List.Infix
import Mathlib.Logic.Function.Basic

/-! Append-only streams with consumer groups. Ids grow along a stream. A group hands
each entry out once and keeps it as pending until it is acknowledged, so an entry is
waiting, held or acknowledged in a group, or it was dropped before it was handed out. -/

namespace Kitematic.StreamLog

structure ConsumerGroup (χ : Type*) where
  lastDelivered : Nat := 0
  pending : List (Nat × χ) := []

structure Stream (γ χ φ : Type*) where
  entries : List (Nat × φ) := []
  lastId : Nat := 0
  groups : γ → Option (ConsumerGroup χ) := fun _ => none

namespace Stream
variable {γ χ φ : Type*}

/-- Appends an entry; a bounded stream may drop its oldest entries with it. -/
def add (s : Stream γ χ φ) (fields : φ) (dropped : Nat) : Stream γ χ φ :=
  { s with
    entries := s.entries.drop dropped ++ [(s.lastId + 1, fields)]
    lastId := s.lastId + 1 }

def trim (s : Stream γ χ φ) (dropped : Nat) : Stream γ χ φ :=
  { s with entries := s.entries.drop dropped }

def range (s : Stream γ χ φ) (first count : Nat) : List (Nat × φ) :=
  (s.entries.filter fun e => first ≤ e.1).take count

def news (s : Stream γ χ φ) (g : γ) (count : Nat) : List (Nat × φ) :=
  match s.groups g with
  | none => []
  | some group => (s.entries.filter fun e => group.lastDelivered < e.1).take count

variable [DecidableEq γ]

def setGroup (s : Stream γ χ φ) (g : γ) (group : ConsumerGroup χ) : Stream γ χ φ :=
  { s with groups := Function.update s.groups g (some group) }

/-- A new group starts before the first entry; an existing one is an error. -/
def createGroup (s : Stream γ χ φ) (g : γ) : Option (Stream γ χ φ) :=
  if (s.groups g).isSome then none else some (s.setGroup g {})

def hand (s : Stream γ χ φ) (g : γ) (consumer : χ) (count : Nat) : Stream γ χ φ :=
  match s.groups g with
  | none => s
  | some group =>
      let handed := s.news g count
      s.setGroup g
        { lastDelivered := handed.getLast?.elim group.lastDelivered Prod.fst
          pending := group.pending ++ handed.map fun e => (e.1, consumer) }

def ack (s : Stream γ χ φ) (g : γ) (id : Nat) : Stream γ χ φ :=
  match s.groups g with
  | none => s
  | some group =>
      s.setGroup g { group with pending := group.pending.filter fun e => e.1 ≠ id }

@[simp] theorem groups_setGroup (s : Stream γ χ φ) (g g' : γ) (group : ConsumerGroup χ) :
    (s.setGroup g group).groups g' = if g' = g then some group else s.groups g' := by
  simp [setGroup, Function.update_apply]

omit [DecidableEq γ] in
theorem mem_entries_of_mem_news {s : Stream γ χ φ} {g : γ} {count : Nat} {e : Nat × φ}
    (member : e ∈ s.news g count) : e ∈ s.entries := by
  unfold news at member
  split at member
  · exact absurd member List.not_mem_nil
  · exact List.mem_of_mem_filter (List.mem_of_mem_take member)

omit [DecidableEq γ] in
theorem mem_entries_of_mem_range {s : Stream γ χ φ} {first count : Nat} {e : Nat × φ}
    (member : e ∈ s.range first count) : e ∈ s.entries :=
  List.mem_of_mem_filter (List.mem_of_mem_take member)

omit [DecidableEq γ] in
theorem range_all {s : Stream γ χ φ} {count : Nat} (enough : s.entries.length ≤ count) :
    s.range 0 count = s.entries := by
  simp [range, List.take_of_length_le enough]

def Waiting (s : Stream γ χ φ) (g : γ) (id : Nat) : Prop :=
  id ∈ s.entries.map Prod.fst ∧ ∃ group, s.groups g = some group ∧ group.lastDelivered < id

def Held (s : Stream γ χ φ) (g : γ) (id : Nat) : Prop :=
  ∃ group, s.groups g = some group ∧ id ≤ group.lastDelivered ∧ id ∈ group.pending.map Prod.fst

def Acknowledged (s : Stream γ χ φ) (g : γ) (id : Nat) : Prop :=
  ∃ group, s.groups g = some group ∧ id ≤ group.lastDelivered ∧ id ∉ group.pending.map Prod.fst

def ahead (s : Stream γ χ φ) (g : γ) (id : Nat) : Nat :=
  match s.groups g with
  | none => 0
  | some group => s.entries.countP fun e => group.lastDelivered < e.1 && e.1 < id

omit [DecidableEq γ] in
theorem Held.not_waiting {s : Stream γ χ φ} {g : γ} {id : Nat} (held : s.Held g id) :
    ¬ s.Waiting g id := by
  rintro ⟨_, group', stored', later⟩
  obtain ⟨group, stored, delivered, _⟩ := held
  cases stored.symm.trans stored'
  omega

omit [DecidableEq γ] in
theorem Held.not_acknowledged {s : Stream γ χ φ} {g : γ} {id : Nat} (held : s.Held g id) :
    ¬ s.Acknowledged g id := by
  rintro ⟨group', stored', _, absent⟩
  obtain ⟨group, stored, _, pending⟩ := held
  cases stored.symm.trans stored'
  exact absent pending

structure Ordered (s : Stream γ χ φ) : Prop where
  increasing : (s.entries.map Prod.fst).Pairwise (· < ·)
  recent : ∀ id ∈ s.entries.map Prod.fst, id ≤ s.lastId
  delivered : ∀ g group, s.groups g = some group → group.lastDelivered ≤ s.lastId
  pending : ∀ g group, s.groups g = some group →
    ∀ id ∈ group.pending.map Prod.fst, id ≤ group.lastDelivered

omit [DecidableEq γ] in
theorem Ordered.empty : ({} : Stream γ χ φ).Ordered where
  increasing := List.Pairwise.nil
  recent _ member := absurd member List.not_mem_nil
  delivered _ _ stored := absurd stored (Option.some_ne_none _).symm
  pending _ _ stored := absurd stored (Option.some_ne_none _).symm

omit [DecidableEq γ] in
theorem Ordered.trim {s : Stream γ χ φ} (ordered : s.Ordered) (dropped : Nat) :
    (s.trim dropped).Ordered where
  increasing := ordered.increasing.sublist ((List.drop_sublist dropped s.entries).map Prod.fst)
  recent id member :=
    ordered.recent id (((List.drop_sublist dropped s.entries).map Prod.fst).mem member)
  delivered := ordered.delivered
  pending := ordered.pending

omit [DecidableEq γ] in
theorem Ordered.add {s : Stream γ χ φ} (ordered : s.Ordered) (fields : φ) (dropped : Nat) :
    (s.add fields dropped).Ordered := by
  have kept := ordered.trim dropped
  refine ⟨?_, ?_, ?_, ordered.pending⟩
  · simp only [Stream.add, List.map_append, List.map_singleton]
    refine List.pairwise_append.mpr ⟨kept.increasing, List.pairwise_singleton _ _, ?_⟩
    intro id member last newest
    rw [List.mem_singleton.mp newest]
    exact Nat.lt_succ_of_le (kept.recent id member)
  · intro id member
    simp only [Stream.add, List.map_append, List.map_singleton] at member
    rcases List.mem_append.mp member with old | newest
    · exact Nat.le_succ_of_le (kept.recent id old)
    · exact (List.mem_singleton.mp newest).le
  · exact fun g group stored => Nat.le_succ_of_le (ordered.delivered g group stored)

theorem Ordered.setGroup {s : Stream γ χ φ} (ordered : s.Ordered) {g : γ} {group : ConsumerGroup χ}
    (delivered : group.lastDelivered ≤ s.lastId)
    (pending : ∀ id ∈ group.pending.map Prod.fst, id ≤ group.lastDelivered) :
    (s.setGroup g group).Ordered := by
  refine ⟨ordered.increasing, ordered.recent, ?_, ?_⟩
  · intro g' group' stored
    rw [groups_setGroup] at stored
    split at stored
    · cases stored
      exact delivered
    · exact ordered.delivered g' group' stored
  · intro g' group' stored
    rw [groups_setGroup] at stored
    split at stored
    · cases stored
      exact pending
    · exact ordered.pending g' group' stored

theorem Ordered.createGroup {s t : Stream γ χ φ} (ordered : s.Ordered) {g : γ}
    (created : s.createGroup g = some t) : t.Ordered := by
  unfold Stream.createGroup at created
  split at created
  · cases created
  · cases created
    exact ordered.setGroup (Nat.zero_le _) fun id member => absurd member List.not_mem_nil

theorem Ordered.ack {s : Stream γ χ φ} (ordered : s.Ordered) (g : γ) (id : Nat) :
    (s.ack g id).Ordered := by
  unfold Stream.ack
  cases stored : s.groups g with
  | none => exact ordered
  | some group =>
    refine ordered.setGroup (ordered.delivered g group stored) fun id' member => ?_
    exact ordered.pending g group stored id' ((List.filter_sublist.map Prod.fst).mem member)

omit [DecidableEq γ] in
theorem news_eq {s : Stream γ χ φ} {g : γ} {group : ConsumerGroup χ}
    (stored : s.groups g = some group) (count : Nat) :
    s.news g count = (s.entries.filter fun e => group.lastDelivered < e.1).take count := by
  simp only [news, stored]

theorem mem_take_iff {entries : List (Nat × φ)}
    (increasing : (entries.map Prod.fst).Pairwise (· < ·))
    {id : Nat} (member : id ∈ entries.map Prod.fst) (count : Nat) :
    id ∈ (entries.take count).map Prod.fst ↔ entries.countP (fun e => e.1 < id) < count := by
  induction entries generalizing count with
  | nil => exact absurd member List.not_mem_nil
  | cons e entries ih =>
    obtain ⟨before, increasing⟩ := List.pairwise_cons.mp increasing
    cases count with
    | zero => simp
    | succ count =>
      rw [List.take_succ_cons, List.map_cons, List.mem_cons, List.countP_cons]
      rcases List.mem_cons.mp member with rfl | later
      · have none : entries.countP (fun f => f.1 < e.1) = 0 := by
          refine List.countP_eq_zero.mpr fun f inside => ?_
          have growing := before f.1 (List.mem_map_of_mem inside)
          simpa using growing.le
        simp [none]
      · have growing := before id later
        have different : id ≠ e.1 := growing.ne'
        rw [or_iff_right different, ih increasing later]
        simp [growing]

theorem le_getLast {ids : List Nat} (increasing : ids.Pairwise (· < ·)) {id last : Nat}
    (member : id ∈ ids) (ends : ids.getLast? = some last) : id ≤ last := by
  obtain ⟨front, rfl⟩ := List.getLast?_eq_some_iff.mp ends
  rcases List.mem_append.mp member with old | newest
  · exact ((List.pairwise_append.mp increasing).2.2 id old last (List.mem_singleton_self _)).le
  · exact (List.mem_singleton.mp newest).le

section Dropping
variable {s : Stream γ χ φ} {g : γ} {id : Nat}

omit [DecidableEq γ] in
theorem Ordered.waiting_trim (ordered : s.Ordered) (waiting : s.Waiting g id) (dropped : Nat) :
    (s.trim dropped).Waiting g id ↔ id ∉ (s.entries.take dropped).map Prod.fst := by
  have split : (s.entries.take dropped).map Prod.fst ++ (s.entries.drop dropped).map Prod.fst =
      s.entries.map Prod.fst := by
    rw [← List.map_append, List.take_append_drop]
  have increasing := ordered.increasing
  rw [← split] at increasing
  obtain ⟨member, later⟩ := waiting
  rw [← split] at member
  constructor
  · rintro ⟨kept, _⟩ early
    exact absurd ((List.pairwise_append.mp increasing).2.2 id early id kept) (Nat.lt_irrefl id)
  · exact fun late => ⟨(List.mem_append.mp member).resolve_left late, later⟩

omit [DecidableEq γ] in
theorem Ordered.waiting_add (ordered : s.Ordered) (waiting : s.Waiting g id) (fields : φ)
    (dropped : Nat) :
    (s.add fields dropped).Waiting g id ↔ id ∉ (s.entries.take dropped).map Prod.fst := by
  have old : id ≠ s.lastId + 1 := by
    have recent := ordered.recent id waiting.1
    omega
  have same : (s.add fields dropped).Waiting g id ↔ (s.trim dropped).Waiting g id := by
    simp only [Waiting, Stream.add, Stream.trim, List.map_append, List.map_singleton,
      List.mem_append, List.mem_singleton, old, or_false]
  rw [same, ordered.waiting_trim waiting]

end Dropping

section Handing
variable {s : Stream γ χ φ} {g : γ} {group : ConsumerGroup χ} {count : Nat}

omit [DecidableEq γ] in
theorem Ordered.news_increasing (ordered : s.Ordered) (g : γ) (count : Nat) :
    ((s.news g count).map Prod.fst).Pairwise (· < ·) := by
  unfold news
  split
  · exact List.Pairwise.nil
  · exact ordered.increasing.sublist
      (((List.take_sublist _ _).trans List.filter_sublist).map Prod.fst)

omit [DecidableEq γ] in
theorem undelivered_of_mem_news (stored : s.groups g = some group) {id : Nat}
    (member : id ∈ (s.news g count).map Prod.fst) : group.lastDelivered < id := by
  obtain ⟨e, inside, rfl⟩ := List.mem_map.mp member
  rw [news_eq stored] at inside
  simpa using (List.mem_filter.mp (List.mem_of_mem_take inside)).2

omit [DecidableEq γ] in
theorem Ordered.mem_news_iff (ordered : s.Ordered) {id : Nat} (waiting : s.Waiting g id) :
    id ∈ (s.news g count).map Prod.fst ↔ s.ahead g id < count := by
  obtain ⟨member, group, stored, undelivered⟩ := waiting
  have kept : id ∈ (s.entries.filter fun e => group.lastDelivered < e.1).map Prod.fst := by
    obtain ⟨e, inside, rfl⟩ := List.mem_map.mp member
    exact List.mem_map_of_mem (List.mem_filter.mpr ⟨inside, by simpa using undelivered⟩)
  have increasing := ordered.increasing.sublist
    (List.filter_sublist (p := fun e => group.lastDelivered < e.1) |>.map Prod.fst)
  rw [news_eq stored, mem_take_iff increasing kept, List.countP_filter]
  have same : s.ahead g id =
      s.entries.countP fun e => decide (e.1 < id) && decide (group.lastDelivered < e.1) := by
    simp only [ahead, stored, Bool.and_comm]
  rw [same]

theorem groups_hand (stored : s.groups g = some group) (consumer : χ) (g' : γ) :
    (s.hand g consumer count).groups g' = if g' = g then some
      { lastDelivered := ((s.news g count).map Prod.fst).getLast?.getD group.lastDelivered
        pending := group.pending ++ (s.news g count).map fun e => (e.1, consumer) }
    else s.groups g' := by
  have last : (s.news g count).getLast?.elim group.lastDelivered Prod.fst =
      ((s.news g count).map Prod.fst).getLast?.getD group.lastDelivered := by
    rw [List.getLast?_map]
    cases (s.news g count).getLast? <;> rfl
  simp only [hand, stored, groups_setGroup, last]

theorem groups_hand_other {g' : γ} (other : g' ≠ g) (consumer : χ) :
    (s.hand g consumer count).groups g' = s.groups g' := by
  unfold hand
  split
  · rfl
  · simp [other]

theorem entries_hand (s : Stream γ χ φ) (g : γ) (consumer : χ) (count : Nat) :
    (s.hand g consumer count).entries = s.entries := by
  unfold hand
  split <;> rfl

theorem lastId_hand (s : Stream γ χ φ) (g : γ) (consumer : χ) (count : Nat) :
    (s.hand g consumer count).lastId = s.lastId := by
  unfold hand
  split <;> rfl

omit [DecidableEq γ] in
theorem Ordered.position (ordered : s.Ordered) (stored : s.groups g = some group) (count : Nat) :
    let last := ((s.news g count).map Prod.fst).getLast?.getD group.lastDelivered
    group.lastDelivered ≤ last ∧ last ≤ s.lastId ∧
      ∀ id ∈ (s.news g count).map Prod.fst, id ≤ last := by
  intro last
  cases ends : ((s.news g count).map Prod.fst).getLast? with
  | none =>
    have empty : (s.news g count).map Prod.fst = [] := List.getLast?_eq_none_iff.mp ends
    have unmoved : last = group.lastDelivered := by simp [last, empty]
    rw [unmoved, empty]
    exact ⟨le_rfl, ordered.delivered g group stored, fun id member => absurd member
      List.not_mem_nil⟩
  | some id =>
    have moved : last = id := by simp only [last, ends, Option.getD_some]
    have member : id ∈ (s.news g count).map Prod.fst := List.mem_of_getLast? ends
    rw [moved]
    refine ⟨(undelivered_of_mem_news stored member).le, ?_, fun id' inside => ?_⟩
    · obtain ⟨e, inside, rfl⟩ := List.mem_map.mp member
      exact ordered.recent _ (List.mem_map_of_mem (mem_entries_of_mem_news inside))
    · exact le_getLast (ordered.news_increasing g count) inside ends

theorem Ordered.hand (ordered : s.Ordered) (g : γ) (consumer : χ) (count : Nat) :
    (s.hand g consumer count).Ordered := by
  cases stored : s.groups g with
  | none =>
    have same : s.hand g consumer count = s := by simp [Stream.hand, stored]
    rw [same]
    exact ordered
  | some group =>
    obtain ⟨forward, known, covers⟩ := ordered.position stored count
    refine ⟨?_, ?_, fun g' group' stored' => ?_, fun g' group' stored' => ?_⟩
    · rw [entries_hand]
      exact ordered.increasing
    · rw [entries_hand, lastId_hand]
      exact ordered.recent
    · rw [lastId_hand]
      rw [groups_hand stored] at stored'
      split at stored'
      · cases stored'
        exact known
      · exact ordered.delivered g' group' stored'
    · rw [groups_hand stored] at stored'
      split at stored'
      · cases stored'
        intro id member
        rw [List.map_append] at member
        rcases List.mem_append.mp member with old | new
        · exact (ordered.pending g group stored id old).trans forward
        · simp only [List.map_map, Function.comp_def] at new
          exact covers id new
      · exact ordered.pending g' group' stored'

omit [DecidableEq γ] in
theorem ahead_mono (s : Stream γ χ φ) (g : γ) {id id' : Nat} (le : id ≤ id') :
    s.ahead g id ≤ s.ahead g id' := by
  unfold ahead
  split
  · exact le_rfl
  · refine List.countP_mono_left fun e _ before => ?_
    simp only [Bool.and_eq_true, decide_eq_true_eq] at before ⊢
    exact ⟨before.1, before.2.trans_le le⟩

theorem Ordered.held_hand (ordered : s.Ordered) {id : Nat} (waiting : s.Waiting g id)
    (reached : s.ahead g id < count) (consumer : χ) : (s.hand g consumer count).Held g id := by
  have member := (ordered.mem_news_iff waiting).mpr reached
  obtain ⟨_, group, stored, _⟩ := waiting
  obtain ⟨_, _, covers⟩ := ordered.position stored count
  refine ⟨_, (groups_hand stored consumer g).trans (if_pos rfl), covers id member, ?_⟩
  rw [List.map_append, List.map_map]
  exact List.mem_append_right _ member

theorem Ordered.waiting_hand (ordered : s.Ordered) {id : Nat} (waiting : s.Waiting g id)
    (short : count ≤ s.ahead g id) (consumer : χ) : (s.hand g consumer count).Waiting g id := by
  have missed : id ∉ (s.news g count).map Prod.fst :=
    mt (ordered.mem_news_iff waiting).mp short.not_gt
  obtain ⟨present, group, stored, undelivered⟩ := waiting
  refine ⟨by rwa [entries_hand], _, (groups_hand stored consumer g).trans (if_pos rfl), ?_⟩
  cases ends : ((s.news g count).map Prod.fst).getLast? with
  | none => simpa [ends] using undelivered
  | some last =>
    have member : last ∈ (s.news g count).map Prod.fst := List.mem_of_getLast? ends
    have waits : s.Waiting g last := by
      obtain ⟨e, inside, equal⟩ := List.mem_map.mp member
      exact ⟨equal ▸ List.mem_map_of_mem (mem_entries_of_mem_news inside), group, stored,
        undelivered_of_mem_news stored member⟩
    have near : s.ahead g last < count := (ordered.mem_news_iff waits).mp member
    by_contra behind
    have close : id ≤ last := by simpa [ends] using behind
    exact absurd (near.trans_le (short.trans (ahead_mono s g close))) (Nat.lt_irrefl _)

theorem waiting_hand_other {g' : γ} {id : Nat} (other : g' ≠ g) (waiting : s.Waiting g' id)
    (consumer : χ) : (s.hand g consumer count).Waiting g' id := by
  obtain ⟨member, group, stored, undelivered⟩ := waiting
  exact ⟨by rwa [entries_hand], group, (groups_hand_other other consumer).trans stored, undelivered⟩

theorem Ordered.acknowledged_hand (ordered : s.Ordered) {g' : γ} {id : Nat}
    (acknowledged : s.Acknowledged g' id) (g : γ) (consumer : χ) (count : Nat) :
    (s.hand g consumer count).Acknowledged g' id := by
  obtain ⟨group, stored, delivered, absent⟩ := acknowledged
  by_cases same : g' = g
  · subst same
    obtain ⟨forward, _, _⟩ := ordered.position stored count
    refine ⟨_, (groups_hand stored consumer g').trans (if_pos rfl), delivered.trans forward, ?_⟩
    rw [List.map_append, List.map_map]
    intro member
    rcases List.mem_append.mp member with old | new
    · exact absent old
    · exact absurd (undelivered_of_mem_news stored new) delivered.not_gt
  · exact ⟨group, (groups_hand_other same consumer).trans stored, delivered, absent⟩

theorem Ordered.waiting_of_hand (ordered : s.Ordered) {g' : γ} {id : Nat} {consumer : χ}
    (waiting : (s.hand g consumer count).Waiting g' id) : s.Waiting g' id := by
  obtain ⟨member, group', stored', undelivered⟩ := waiting
  rw [entries_hand] at member
  by_cases same : g' = g
  · subst same
    cases stored : s.groups g' with
    | none =>
      rw [Stream.hand, stored] at stored'
      exact absurd (stored.symm.trans stored') (Option.some_ne_none _).symm
    | some group =>
      rw [groups_hand stored, if_pos rfl] at stored'
      cases stored'
      exact ⟨member, group, stored, (ordered.position stored count).1.trans_lt undelivered⟩
  · rw [groups_hand_other same] at stored'
    exact ⟨member, group', stored', undelivered⟩

theorem isSome_groups_hand (s : Stream γ χ φ) (g g' : γ) (consumer : χ) (count : Nat) :
    ((s.hand g consumer count).groups g').isSome = (s.groups g').isSome := by
  by_cases same : g' = g
  · subst same
    cases stored : s.groups g' with
    | none => simp [hand, stored]
    | some group => simp [groups_hand stored]
  · rw [groups_hand_other same]

end Handing

section Acknowledging
variable {s : Stream γ χ φ} {g : γ} {id : Nat}

theorem groups_ack (s : Stream γ χ φ) (g g' : γ) (id : Nat) :
    (s.ack g id).groups g' = if g' = g then (s.groups g).map fun group =>
      { group with pending := group.pending.filter fun e => e.1 ≠ id } else s.groups g' := by
  unfold ack
  cases stored : s.groups g with
  | none =>
    by_cases same : g' = g
    · simp [same, stored]
    · simp [same]
  | some group => simp

theorem groups_ack_self {group : ConsumerGroup χ} (stored : s.groups g = some group) (id : Nat) :
    (s.ack g id).groups g =
      some { group with pending := group.pending.filter fun e => e.1 ≠ id } := by
  rw [groups_ack, if_pos rfl, stored]
  rfl

theorem entries_ack (s : Stream γ χ φ) (g : γ) (id : Nat) : (s.ack g id).entries = s.entries := by
  unfold ack
  split <;> rfl

theorem waiting_ack (s : Stream γ χ φ) (g g' : γ) (id id' : Nat) :
    (s.ack g' id').Waiting g id ↔ s.Waiting g id := by
  unfold Waiting
  rw [entries_ack, groups_ack]
  by_cases same : g = g'
  · subst same
    simp
  · rw [if_neg same]

theorem Acknowledged.ack (acknowledged : s.Acknowledged g id) (g' : γ) (id' : Nat) :
    (s.ack g' id').Acknowledged g id := by
  obtain ⟨group, stored, delivered, absent⟩ := acknowledged
  by_cases same : g = g'
  · subst same
    refine ⟨_, groups_ack_self stored id', delivered, ?_⟩
    exact mt ((List.filter_sublist.map Prod.fst).mem ·) absent
  · exact ⟨group, by rw [groups_ack, if_neg same, stored], delivered, absent⟩

theorem Held.ack_self (held : s.Held g id) : (s.ack g id).Acknowledged g id := by
  obtain ⟨group, stored, delivered, _⟩ := held
  refine ⟨_, groups_ack_self stored id, delivered, ?_⟩
  simp

theorem Held.ack_other (held : s.Held g id) {id' : Nat} (other : id' ≠ id) :
    (s.ack g id').Held g id := by
  obtain ⟨group, stored, delivered, pending⟩ := held
  refine ⟨_, groups_ack_self stored id', delivered, ?_⟩
  obtain ⟨e, inside, rfl⟩ := List.mem_map.mp pending
  exact List.mem_map_of_mem (List.mem_filter.mpr ⟨inside, by simpa using other.symm⟩)

theorem isSome_groups_ack (s : Stream γ χ φ) (g g' : γ) (id : Nat) :
    ((s.ack g id).groups g').isSome = (s.groups g').isSome := by
  rw [groups_ack]
  by_cases same : g' = g
  · subst same
    rw [if_pos rfl, Option.isSome_map]
  · rw [if_neg same]

end Acknowledging

section Creating
variable {s t : Stream γ χ φ} {g : γ}

theorem groups_createGroup (created : s.createGroup g = some t) (g' : γ) :
    s.groups g = none ∧ t.entries = s.entries ∧
      t.groups g' = if g' = g then some {} else s.groups g' := by
  unfold createGroup at created
  split at created
  · cases created
  · rename_i missing
    cases created
    exact ⟨by simpa using missing, rfl, groups_setGroup ..⟩

theorem groups_createGroup_stored (created : s.createGroup g = some t) {g' : γ}
    {group : ConsumerGroup χ} (stored : s.groups g' = some group) : t.groups g' = some group := by
  obtain ⟨missing, _, after⟩ := groups_createGroup created g'
  rw [after, if_neg, stored]
  rintro rfl
  rw [missing] at stored
  cases stored

end Creating

end Stream

/-- The streams of a server; one that was never written is empty. -/
structure Log (κ γ χ φ : Type*) where
  stream : κ → Stream γ χ φ := fun _ => {}

namespace Log
variable {κ γ χ φ : Type*}

def Ordered (log : Log κ γ χ φ) : Prop := ∀ k, (log.stream k).Ordered

theorem Ordered.empty : ({} : Log κ γ χ φ).Ordered := fun _ => Stream.Ordered.empty

variable [DecidableEq κ]

def put (log : Log κ γ χ φ) (k : κ) (s : Stream γ χ φ) : Log κ γ χ φ :=
  ⟨Function.update log.stream k s⟩

@[simp] theorem stream_put (log : Log κ γ χ φ) (k k' : κ) (s : Stream γ χ φ) :
    (log.put k s).stream k' = if k' = k then s else log.stream k' := by
  simp [put, Function.update_apply]

theorem Ordered.put {log : Log κ γ χ φ} (ordered : log.Ordered) (k : κ) {s : Stream γ χ φ}
    (new : s.Ordered) : (log.put k s).Ordered := by
  intro k'
  rw [stream_put]
  split
  · exact new
  · exact ordered k'

def add (log : Log κ γ χ φ) (k : κ) (fields : φ) (dropped : Nat) : Log κ γ χ φ :=
  log.put k ((log.stream k).add fields dropped)

def trim (log : Log κ γ χ φ) (k : κ) (dropped : Nat) : Log κ γ χ φ :=
  log.put k ((log.stream k).trim dropped)

variable [DecidableEq γ]

def createGroup (log : Log κ γ χ φ) (k : κ) (g : γ) : Option (Log κ γ χ φ) :=
  ((log.stream k).createGroup g).map (log.put k)

/-- Reads what is new to the group on several streams; an error if one lacks the group. -/
def readGroup (log : Log κ γ χ φ) (g : γ) (consumer : χ) (keys : List κ) (count : Nat) :
    Option (Log κ γ χ φ × List (κ × List (Nat × φ))) :=
  if keys.all fun k => ((log.stream k).groups g).isSome then
    some (⟨fun k => if k ∈ keys then (log.stream k).hand g consumer count else log.stream k⟩,
      keys.map fun k => (k, (log.stream k).news g count))
  else none

def ack (log : Log κ γ χ φ) (k : κ) (g : γ) (id : Nat) : Log κ γ χ φ :=
  log.put k ((log.stream k).ack g id)

theorem entries_createGroup {log log' : Log κ γ χ φ} {k : κ} {g : γ}
    (created : log.createGroup k g = some log') (k' : κ) :
    (log'.stream k').entries = (log.stream k').entries := by
  obtain ⟨s, made, rfl⟩ := Option.map_eq_some_iff.mp created
  unfold Stream.createGroup at made
  split at made
  · cases made
  · cases made
    rw [stream_put]
    split
    · rename_i same
      exact same ▸ rfl
    · rfl

theorem groups_createGroup_stored {log log' : Log κ γ χ φ} {k : κ} {g : γ}
    (created : log.createGroup k g = some log') {k' : κ} {g' : γ} {group : ConsumerGroup χ}
    (stored : (log.stream k').groups g' = some group) :
    (log'.stream k').groups g' = some group := by
  obtain ⟨s, made, rfl⟩ := Option.map_eq_some_iff.mp created
  rw [stream_put]
  split
  · rename_i same
    subst same
    exact Stream.groups_createGroup_stored made stored
  · exact stored

theorem entries_readGroup {log log' : Log κ γ χ φ} {g : γ} {consumer : χ} {keys : List κ}
    {count : Nat} {results : List (κ × List (Nat × φ))}
    (read : log.readGroup g consumer keys count = some (log', results)) (k : κ) :
    (log'.stream k).entries = (log.stream k).entries := by
  unfold Log.readGroup at read
  split at read
  · cases read
    simp only
    split
    · exact Stream.entries_hand ..
    · rfl
  · cases read

theorem mem_entries_of_mem_results {log log' : Log κ γ χ φ} {g : γ} {consumer : χ} {keys : List κ}
    {count : Nat} {results : List (κ × List (Nat × φ))}
    (read : log.readGroup g consumer keys count = some (log', results)) {k : κ}
    {handed : List (Nat × φ)} (listed : (k, handed) ∈ results) {e : Nat × φ} (member : e ∈ handed) :
    e ∈ (log.stream k).entries := by
  unfold Log.readGroup at read
  split at read
  · cases read
    obtain ⟨k', _, equal⟩ := List.mem_map.mp listed
    cases equal
    exact Stream.mem_entries_of_mem_news member
  · cases read

theorem entries_ack (log : Log κ γ χ φ) (k k' : κ) (g : γ) (id : Nat) :
    ((log.ack k g id).stream k').entries = (log.stream k').entries := by
  rw [ack, stream_put]
  split
  · rename_i same
    rw [Stream.entries_ack, same]
  · rfl

theorem Ordered.createGroup {log log' : Log κ γ χ φ} (ordered : log.Ordered) {k : κ} {g : γ}
    (created : log.createGroup k g = some log') : log'.Ordered := by
  obtain ⟨s, made, rfl⟩ := Option.map_eq_some_iff.mp created
  exact ordered.put k ((ordered k).createGroup made)

theorem Ordered.ack {log : Log κ γ χ φ} (ordered : log.Ordered) (k : κ) (g : γ) (id : Nat) :
    (log.ack k g id).Ordered :=
  ordered.put k ((ordered k).ack g id)

def ackAll (log : Log κ γ χ φ) (g : γ) (messages : List (κ × Nat)) : Log κ γ χ φ :=
  messages.foldl (fun log m => log.ack m.1 g m.2) log

section AckAll
variable {log : Log κ γ χ φ} {g g' : γ} {k : κ} {id : Nat}

theorem stream_ack (log : Log κ γ χ φ) (k k' : κ) (g : γ) (id : Nat) :
    (log.ack k g id).stream k' =
      if k' = k then (log.stream k').ack g id else log.stream k' := by
  rw [ack, stream_put]
  split
  · rename_i same
    rw [same]
  · rfl

theorem Ordered.ackAll (ordered : log.Ordered) (messages : List (κ × Nat)) :
    (log.ackAll g messages).Ordered := by
  induction messages generalizing log with
  | nil => exact ordered
  | cons m messages ih => exact ih (ordered.ack m.1 g m.2)

theorem entries_ackAll (log : Log κ γ χ φ) (g : γ) (messages : List (κ × Nat)) (k : κ) :
    ((log.ackAll g messages).stream k).entries = (log.stream k).entries := by
  induction messages generalizing log with
  | nil => rfl
  | cons m messages ih => exact (ih _).trans (log.entries_ack m.1 k g m.2)

theorem waiting_ackAll (messages : List (κ × Nat)) :
    ((log.ackAll g messages).stream k).Waiting g' id ↔ (log.stream k).Waiting g' id := by
  induction messages generalizing log with
  | nil => rfl
  | cons m messages ih =>
    refine ih.trans ?_
    rw [stream_ack]
    split
    · exact Stream.waiting_ack ..
    · rfl

theorem isSome_groups_ackAll (messages : List (κ × Nat)) :
    (((log.ackAll g messages).stream k).groups g').isSome =
      ((log.stream k).groups g').isSome := by
  induction messages generalizing log with
  | nil => rfl
  | cons m messages ih =>
    refine ih.trans ?_
    rw [stream_ack]
    split
    · exact Stream.isSome_groups_ack ..
    · rfl

theorem acknowledged_ackAll (acknowledged : (log.stream k).Acknowledged g' id)
    (messages : List (κ × Nat)) : ((log.ackAll g messages).stream k).Acknowledged g' id := by
  induction messages generalizing log with
  | nil => exact acknowledged
  | cons m messages ih =>
    refine ih ?_
    rw [stream_ack]
    split
    · exact acknowledged.ack g m.2
    · exact acknowledged

theorem held_ackAll (held : (log.stream k).Held g id) (messages : List (κ × Nat)) :
    if (k, id) ∈ messages then ((log.ackAll g messages).stream k).Acknowledged g id
    else ((log.ackAll g messages).stream k).Held g id := by
  induction messages generalizing log with
  | nil =>
    rw [if_neg List.not_mem_nil]
    exact held
  | cons m messages ih =>
    obtain ⟨k', id'⟩ := m
    by_cases same : k = k' ∧ id = id'
    · obtain ⟨rfl, rfl⟩ := same
      rw [if_pos List.mem_cons_self]
      refine acknowledged_ackAll ?_ messages
      rw [stream_ack, if_pos rfl]
      exact held.ack_self
    · have still : ((log.ack k' g id').stream k).Held g id := by
        rw [stream_ack]
        split
        · rename_i stream
          exact held.ack_other fun other => same ⟨stream, other.symm⟩
        · exact held
      have listed : (k, id) ∈ (k', id') :: messages ↔ (k, id) ∈ messages := by
        simp [same]
      simp only [listed]
      exact ih still

end AckAll
end Log
end Kitematic.StreamLog
