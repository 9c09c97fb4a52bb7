import Mathlib.Data.List.Chain
import Mathlib.Data.List.Nodup
import Mathlib.Data.Set.Operations

/-! Depth-first search of a relation for a cycle. Between two of its moves a search stands on a
path without repetition; what it is done with leads only to what it is done with, and lies on no
cycle. -/

namespace Kitematic.DepthFirst
open Relation

variable {α : Type*} {edge : α → α → Prop}

def Cyclic (edge : α → α → Prop) : Prop := ∃ a, TransGen edge a a

/-- A walk whose last vertex occurs on it before. -/
structure EndsInCycle (edge : α → α → Prop) (path : List α) : Prop where
  walk : path.IsChain edge
  returns : ∃ front last, path = front ++ [last] ∧ last ∈ front

theorem transGen_of_isChain {a b : α} {middle : List α}
    (walk : (a :: (middle ++ [b])).IsChain edge) : TransGen edge a b := by
  induction middle generalizing a with
  | nil => exact .single (List.isChain_pair.mp walk)
  | cons c middle ih =>
    obtain ⟨first, rest⟩ := List.isChain_cons_cons.mp walk
    exact (ih rest).head first

theorem EndsInCycle.cyclic {path : List α} (ends : EndsInCycle edge path) : Cyclic edge := by
  obtain ⟨front, last, rfl, earlier⟩ := ends.returns
  obtain ⟨before, after, rfl⟩ := List.append_of_mem earlier
  have walk := ends.walk
  rw [List.append_assoc, List.cons_append] at walk
  exact ⟨last, transGen_of_isChain walk.right_of_append⟩

section names
variable {β : Type*} {name : β → α} {step : β → β → Prop} {known : Set β}

theorem transGen_map (apart : known.InjOn name) (inside : ∀ x y, step x y → x ∈ known ∧ y ∈ known)
    {a b : α} (chain : TransGen (Relation.Map step name name) a b) :
    ∃ x y, TransGen step x y ∧ name x = a ∧ name y = b := by
  induction chain with
  | single last =>
    obtain ⟨x, y, last, rfl, rfl⟩ := last
    exact ⟨x, y, .single last, rfl, rfl⟩
  | tail _ last ih =>
    obtain ⟨x, y, before, rfl, rfl⟩ := ih
    obtain ⟨y', z, last, same, rfl⟩ := last
    obtain ⟨w, _, step⟩ := TransGen.tail'_iff.mp before
    obtain rfl := apart (inside y' z last).1 (inside w y step).2 same
    exact ⟨x, z, before.tail last, rfl, rfl⟩

theorem cyclic_map_iff (apart : known.InjOn name)
    (inside : ∀ x y, step x y → x ∈ known ∧ y ∈ known) :
    Cyclic (Relation.Map step name name) ↔ Cyclic step := by
  constructor
  · rintro ⟨a, cycle⟩
    obtain ⟨x, y, chain, same, same'⟩ := transGen_map apart inside cycle
    obtain ⟨z, first, _⟩ := TransGen.head'_iff.mp chain
    obtain ⟨w, _, last⟩ := TransGen.tail'_iff.mp chain
    obtain rfl := apart (inside x z first).1 (inside w y last).2 (same.trans same'.symm)
    exact ⟨x, chain⟩
  · rintro ⟨x, cycle⟩
    exact ⟨name x, cycle.lift name fun y z step => ⟨y, z, step, rfl, rfl⟩⟩

end names

theorem closed_path {done : α → Prop} (closed : ∀ a b, done a → edge a b → done b) {a b : α}
    (path : ReflTransGen edge a b) (start : done a) : done b := by
  induction path with
  | refl => exact start
  | tail _ step ih => exact closed _ _ ih step

structure Search (edge : α → α → Prop) (path : List α) (done : α → Prop) : Prop where
  walk : path.IsChain edge
  simple : path.Nodup
  pending : ∀ a ∈ path, ¬ done a
  closed : ∀ a b, done a → edge a b → done b
  acyclic : ∀ a, done a → ¬ TransGen edge a a

namespace Search
variable {path : List α} {done : α → Prop} {a b : α}

theorem start (none : ∀ a, ¬ done a) : Search edge [] done where
  walk := .nil
  simple := List.nodup_nil
  pending := by simp
  closed := fun a _ finished => absurd finished (none a)
  acyclic := fun a finished => absurd finished (none a)

theorem enter (search : Search edge path done) (fresh : a ∉ path) (unfinished : ¬ done a)
    (leads : ∀ last ∈ path.getLast?, edge last a) : Search edge (path ++ [a]) done where
  walk := search.walk.append (.singleton a) (by simpa using leads)
  simple := List.concat_eq_append ▸ search.simple.concat fresh
  pending := by
    intro b member
    rcases List.mem_append.mp member with earlier | new
    · exact search.pending b earlier
    · rwa [List.mem_singleton.mp new]
  closed := search.closed
  acyclic := search.acyclic

theorem last_not_mem (search : Search edge (path ++ [a]) done) : a ∉ path := fun member =>
  (List.nodup_append.mp search.simple).2.2 a member a (List.mem_singleton_self a) rfl

/-- The search turns back from a vertex all of whose successors are done: a cycle through it
would come back to it from one of them. -/
theorem leave (search : Search edge (path ++ [a]) done) (successors : ∀ b, edge a b → done b)
    {done' : α → Prop} (same : ∀ b, done' b ↔ b = a ∨ done b) : Search edge path done' where
  walk := search.walk.left_of_append
  simple := search.simple.of_append_left
  pending := by
    intro b member finished
    rcases (same b).mp finished with rfl | earlier
    · exact search.last_not_mem member
    · exact search.pending b (List.mem_append_left _ member) earlier
  closed := by
    intro b c finished step
    rcases (same b).mp finished with rfl | earlier
    · exact (same c).mpr (.inr (successors c step))
    · exact (same c).mpr (.inr (search.closed b c earlier step))
  acyclic := by
    intro b finished
    rcases (same b).mp finished with rfl | earlier
    · intro cycle
      obtain ⟨c, step, back⟩ := TransGen.head'_iff.mp cycle
      have reached := closed_path search.closed back (successors c step)
      exact search.pending b (List.mem_append_right _ (List.mem_singleton_self b)) reached
    · exact search.acyclic b earlier

theorem returned (search : Search edge (path ++ [a]) done) (step : edge a b)
    (member : b ∈ path ++ [a]) : EndsInCycle edge (path ++ [a] ++ [b]) where
  walk := search.walk.append (.singleton b) (by simpa using step)
  returns := ⟨path ++ [a], b, rfl, member⟩

theorem not_cyclic (search : Search edge path done) (finished : ∀ a b, edge a b → done a) :
    ¬ Cyclic edge := by
  rintro ⟨a, cycle⟩
  obtain ⟨b, step, _⟩ := TransGen.head'_iff.mp cycle
  exact search.acyclic a (finished a b step) cycle

end Search

end Kitematic.DepthFirst
