import Kitematic.Dict
import Mathlib.Data.Finset.Card
import Mathlib.Logic.Relation

/-! Objects that refer to one another, and deep copies of them. A dictionary or a list
is known by its address; what it holds is an immutable value or another address. A
deep copy makes one new object for each object reached, so a shared object is copied
once and a cycle ends, and it raises at the first object that cannot be copied. -/

namespace Kitematic.Objects
open Dictionary

section search
variable (edges : ℕ → List ℕ)

abbrev Path : ℕ → ℕ → Prop := Relation.ReflTransGen fun a b => b ∈ edges a

/-- Depth first from `a` past what was `seen`, in the order of first visits. -/
def visit : ℕ → List ℕ → ℕ → List ℕ
  | 0, seen, _ => seen
  | fuel + 1, seen, a =>
      if a ∈ seen then seen else (edges a).foldl (visit fuel) (seen ++ [a])

structure Front (size : ℕ) (seen : List ℕ) : Prop where
  nodup : seen.Nodup
  below : ∀ a ∈ seen, a < size

/-- What a search from `roots` adds to `seen` is reached from them, and leads nowhere else. -/
structure Explored (size : ℕ) (seen roots found : List ℕ) : Prop where
  front : Front size found
  kept : seen <+: found
  entered : ∀ a ∈ roots, a ∈ found
  reached : ∀ b ∈ found, b ∈ seen ∨ ∃ a ∈ roots, Path edges a b
  closed : ∀ b ∈ found, b ∈ seen ∨ ∀ c ∈ edges b, c ∈ found

variable {edges} {size : ℕ}

theorem Front.full {seen : List ℕ} (front : Front size seen) (long : size ≤ seen.length) {a : ℕ}
    (below : a < size) : a ∈ seen := by
  have inside : seen.toFinset ⊆ Finset.range size := fun b member =>
    Finset.mem_range.mpr (front.below b (List.mem_toFinset.mp member))
  have whole : seen.toFinset = Finset.range size := by
    refine Finset.eq_of_subset_of_card_le inside ?_
    rwa [Finset.card_range, List.toFinset_card_of_nodup front.nodup]
  exact List.mem_toFinset.mp (whole ▸ Finset.mem_range.mpr below)

theorem Explored.seen {seen roots : List ℕ} (front : Front size seen)
    (members : ∀ a ∈ roots, a ∈ seen) : Explored edges size seen roots seen :=
  ⟨front, List.prefix_refl seen, members, fun _ member => .inl member, fun _ member => .inl member⟩

theorem Explored.append {seen middle found roots rest : List ℕ}
    (first : Explored edges size seen roots middle)
    (second : Explored edges size middle rest found) :
    Explored edges size seen (roots ++ rest) found := by
  refine ⟨second.front, first.kept.trans second.kept, ?_, ?_, ?_⟩
  · intro a member
    rcases List.mem_append.mp member with member | member
    · exact second.kept.subset (first.entered a member)
    · exact second.entered a member
  · intro b member
    rcases second.reached b member with earlier | ⟨a, root, path⟩
    · rcases first.reached b earlier with before | ⟨a, root, path⟩
      · exact .inl before
      · exact .inr ⟨a, List.mem_append_left _ root, path⟩
    · exact .inr ⟨a, List.mem_append_right _ root, path⟩
  · intro b member
    rcases second.closed b member with earlier | inside
    · rcases first.closed b earlier with before | inside
      · exact .inl before
      · exact .inr fun c edge => second.kept.subset (inside c edge)
    · exact .inr inside

theorem Explored.vertex {seen found : List ℕ} {a : ℕ}
    (rest : Explored edges size (seen ++ [a]) (edges a) found) :
    Explored edges size seen [a] found := by
  have here : a ∈ found := rest.kept.subset (by simp)
  refine ⟨rest.front, (List.prefix_append seen [a]).trans rest.kept, by simpa using here, ?_, ?_⟩
  · intro b member
    rcases rest.reached b member with earlier | ⟨c, edge, path⟩
    · rcases List.mem_append.mp earlier with before | same
      · exact .inl before
      · exact .inr ⟨a, by simp, (List.mem_singleton.mp same) ▸ .refl⟩
    · exact .inr ⟨a, by simp, path.head edge⟩
  · intro b member
    rcases rest.closed b member with earlier | inside
    · rcases List.mem_append.mp earlier with before | same
      · exact .inl before
      · exact .inr (List.mem_singleton.mp same ▸ rest.entered)
    · exact .inr inside

theorem Front.snoc {seen : List ℕ} (front : Front size seen) {a : ℕ} (below : a < size)
    (new : a ∉ seen) : Front size (seen ++ [a]) := by
  refine ⟨List.nodup_append.mpr ⟨front.nodup, List.nodup_singleton a, ?_⟩, ?_⟩
  · rintro b member c same rfl
    exact new (List.mem_singleton.mp same ▸ member)
  · intro b member
    rcases List.mem_append.mp member with member | same
    · exact front.below b member
    · exact List.mem_singleton.mp same ▸ below

theorem foldl_explored {search : List ℕ → ℕ → List ℕ} {least : ℕ}
    (one : ∀ seen a, Front size seen → a < size → least ≤ seen.length →
      Explored edges size seen [a] (search seen a)) (roots : List ℕ) :
    ∀ seen, Front size seen → (∀ a ∈ roots, a < size) → least ≤ seen.length →
      Explored edges size seen roots (roots.foldl search seen) := by
  induction roots with
  | nil => exact fun seen front _ _ => .seen front (by simp)
  | cons a roots ih =>
    intro seen front inside enough
    have first := one seen a front (inside a List.mem_cons_self) enough
    exact first.append (ih _ first.front (fun b member => inside b (List.mem_cons_of_mem _ member))
      (enough.trans first.kept.length_le))

/-- The vertices not yet seen bound the depth of the search, so the fuel suffices. -/
theorem visit_explored (bounded : ∀ a, ∀ b ∈ edges a, b < size) (fuel : ℕ) :
    ∀ (seen : List ℕ) (a : ℕ), Front size seen → a < size → size ≤ fuel + seen.length →
      Explored edges size seen [a] (visit edges fuel seen a) := by
  induction fuel with
  | zero =>
    intro seen a front below enough
    exact .seen front (by simpa using front.full (by omega) below)
  | succ fuel ih =>
    intro seen a front below enough
    rw [visit]
    split
    next member => exact .seen front (by simpa using member)
    next new =>
      refine .vertex (@foldl_explored edges size _ (size - fuel) ?_ (edges a) _
        (front.snoc below new) (bounded a) ?_)
      · exact fun seen b front inside enough => ih seen b front inside (by omega)
      · simp only [List.length_append, List.length_singleton]
        omega

theorem mem_visit_iff (bounded : ∀ a, ∀ b ∈ edges a, b < size) {a : ℕ} (below : a < size) (b : ℕ) :
    b ∈ visit edges size [] a ↔ Path edges a b := by
  have explored := visit_explored bounded size [] a ⟨List.nodup_nil, by simp⟩ below (by simp)
  constructor
  · intro member
    simpa using explored.reached b member
  · intro path
    induction path with
    | refl => exact explored.entered a (by simp)
    | tail _ edge ih => simpa using (explored.closed _ ih).resolve_left (by simp) _ edge

end search

inductive Cell (α : Type*) where
  | atom (a : α)
  | ref (address : ℕ)

namespace Cell
variable {α : Type*}

def address : Cell α → Option ℕ
  | .atom _ => none
  | .ref address => some address

def rename (f : ℕ → ℕ) : Cell α → Cell α
  | .atom a => .atom a
  | .ref address => .ref (f address)

theorem address_rename (f : ℕ → ℕ) (cell : Cell α) :
    (cell.rename f).address = cell.address.map f := by
  cases cell <;> rfl

end Cell

/-- An object of another type is there for its type, one whose objects cannot be copied. -/
inductive Object (κ α : Type*) where
  | dict (entries : Dict κ (Cell α))
  | list (items : List (Cell α))
  | uncopyable (type : String)

namespace Object
variable {κ α : Type*}

def cells : Object κ α → List (Cell α)
  | .dict entries => entries.values
  | .list items => items
  | .uncopyable _ => []

def refs (o : Object κ α) : List ℕ := o.cells.filterMap Cell.address

def rename (f : ℕ → ℕ) : Object κ α → Object κ α
  | .dict entries => .dict (entries.mapValues (Cell.rename f))
  | .list items => .list (items.map (Cell.rename f))
  | .uncopyable type => .uncopyable type

def problem : Object κ α → Option String
  | .uncopyable type => some ("cannot pickle '" ++ type ++ "' object")
  | _ => none

def typeName : Object κ α → String
  | .dict _ => "dict"
  | .list _ => "list"
  | .uncopyable type => type

@[simp] theorem refs_list_nil : (.list [] : Object κ α).refs = [] := rfl

@[simp] theorem refs_dict_empty : (.dict .empty : Object κ α).refs = [] := rfl

theorem cells_rename (f : ℕ → ℕ) (o : Object κ α) :
    (o.rename f).cells = o.cells.map (Cell.rename f) := by
  cases o with
  | dict entries => exact Dict.values_mapValues entries _
  | list items => rfl
  | uncopyable type => rfl

theorem refs_rename (f : ℕ → ℕ) (o : Object κ α) : (o.rename f).refs = o.refs.map f := by
  simp only [refs, cells_rename, List.filterMap_map, List.map_filterMap]
  congr 1
  funext cell
  exact Cell.address_rename f cell

@[simp] theorem problem_rename (f : ℕ → ℕ) (o : Object κ α) : (o.rename f).problem = o.problem := by
  cases o <;> rfl

theorem mem_refs_set [DecidableEq κ] {d : Dict κ (Cell α)} {k : κ} {cell : Cell α} {c : ℕ}
    (edge : c ∈ (Object.dict (d.set k cell)).refs) :
    c ∈ (Object.dict d).refs ∨ cell.address = some c := by
  obtain ⟨_, stored, address⟩ := List.mem_filterMap.mp edge
  obtain ⟨⟨k', target⟩, member, rfl⟩ := List.mem_map.mp stored
  have found := Dict.get_eq_some.mpr member
  rw [Dict.get_set] at found
  split at found
  · cases found
    exact .inr address
  · exact .inl (List.mem_filterMap.mpr
      ⟨target, List.mem_map.mpr ⟨(k', target), Dict.get_eq_some.mp found, rfl⟩, address⟩)

end Object

/-- The objects by address; no object refers outside. -/
structure Heap (κ α : Type*) where
  objects : List (Object κ α)
  closed : ∀ o ∈ objects, ∀ c ∈ o.refs, c < objects.length

namespace Heap
variable {κ α : Type*}

def size (h : Heap κ α) : ℕ := h.objects.length

def get (h : Heap κ α) (a : ℕ) : Option (Object κ α) := h.objects[a]?

def refs (h : Heap κ α) (a : ℕ) : List ℕ := ((h.get a).map Object.refs).getD []

abbrev Reach (h : Heap κ α) : ℕ → ℕ → Prop := Path h.refs

/-- What is reached from an address, in the order a depth-first traversal meets it. -/
def reachable (h : Heap κ α) (a : ℕ) : List ℕ := visit h.refs h.size [] a

theorem get_lt {h : Heap κ α} {a : ℕ} {o : Object κ α} (found : h.get a = some o) : a < h.size :=
  (List.getElem?_eq_some_iff.mp found).1

theorem refs_of_get {h : Heap κ α} {a : ℕ} {o : Object κ α} (found : h.get a = some o) :
    h.refs a = o.refs := by
  simp [refs, found]

theorem refs_lt (h : Heap κ α) (a : ℕ) : ∀ b ∈ h.refs a, b < h.size := by
  intro b edge
  cases found : h.get a with
  | none => simp [refs, found] at edge
  | some o =>
    rw [refs_of_get found] at edge
    exact h.closed o (List.mem_of_getElem? found) b edge

theorem reach_lt {h : Heap κ α} {a b : ℕ} (below : a < h.size) (path : h.Reach a b) :
    b < h.size := by
  cases path with
  | refl => exact below
  | tail _ edge => exact h.refs_lt _ b edge

theorem mem_reachable {h : Heap κ α} {a b : ℕ} (below : a < h.size) :
    b ∈ h.reachable a ↔ h.Reach a b :=
  mem_visit_iff h.refs_lt below b

theorem refs_eq_nil {h : Heap κ α} {a : ℕ} (outside : h.size ≤ a) : h.refs a = [] := by
  simp [refs, get, List.getElem?_eq_none outside]

theorem reachable_closed (h : Heap κ α) (a : ℕ) :
    ∀ b ∈ h.reachable a, ∀ c ∈ h.refs b, c ∈ h.reachable a := by
  intro b member c edge
  by_cases below : a < h.size
  · rw [mem_reachable below] at member ⊢
    exact member.tail edge
  · have inside : b < h.size := by
      by_contra outside
      rw [refs_eq_nil (by omega)] at edge
      exact List.not_mem_nil edge
    have only : h.reachable a = [] ∨ h.reachable a = [a] := by
      unfold reachable
      cases h.size with
      | zero => exact .inl rfl
      | succ n => exact .inr (by simp [visit, refs_eq_nil (by omega : h.size ≤ a)])
    rcases only with none | one
    · exact absurd (none ▸ member) List.not_mem_nil
    · have same : b = a := by simpa [one] using member
      omega

def append (h : Heap κ α) (new : List (Object κ α))
    (closed : ∀ o ∈ new, ∀ c ∈ o.refs, c < h.size + new.length) : Heap κ α :=
  ⟨h.objects ++ new, by
    intro o member c edge
    rw [List.length_append]
    rcases List.mem_append.mp member with old | new
    · exact Nat.lt_of_lt_of_le (h.closed o old c edge) (Nat.le_add_right _ _)
    · exact closed o new c edge⟩

def alloc (h : Heap κ α) (o : Object κ α) (closed : ∀ c ∈ o.refs, c < h.size) : Heap κ α × ℕ :=
  (h.append [o] fun _ member c edge =>
    Nat.lt_of_lt_of_le (closed c (List.mem_singleton.mp member ▸ edge)) (Nat.le_add_right _ _),
    h.size)

def put (h : Heap κ α) (a : ℕ) (o : Object κ α) (closed : ∀ c ∈ o.refs, c < h.size) : Heap κ α :=
  ⟨h.objects.set a o, by
    intro o' member c edge
    rw [List.length_set]
    rcases List.mem_or_eq_of_mem_set member with old | rfl
    · exact h.closed o' old c edge
    · exact closed c edge⟩

def copyOf (h : Heap κ α) (order : List ℕ) (b : ℕ) : Object κ α :=
  ((h.get b).getD (.list [])).rename fun c => h.size + order.idxOf c

theorem refs_copyOf (h : Heap κ α) (order : List ℕ) (b : ℕ) :
    (h.copyOf order b).refs = (h.refs b).map fun c => h.size + order.idxOf c := by
  rw [copyOf, Object.refs_rename]
  cases found : h.get b with
  | none => simp [refs, found]
  | some o => simp [refs, found]

def copied (h : Heap κ α) (order : List ℕ) (closed : ∀ b ∈ order, ∀ c ∈ h.refs b, c ∈ order) :
    Heap κ α :=
  h.append (order.map (h.copyOf order)) (by
    intro o member c edge
    obtain ⟨b, inside, rfl⟩ := List.mem_map.mp member
    rw [refs_copyOf] at edge
    obtain ⟨target, old, rfl⟩ := List.mem_map.mp edge
    rw [List.length_map]
    exact Nat.add_lt_add_left (List.idxOf_lt_length_iff.mpr (closed b inside target old)) _)

/-- `copy.deepcopy`, with the text of the exception. -/
def deepcopy (h : Heap κ α) (a : ℕ) : Except String (Heap κ α × ℕ) :=
  match (h.reachable a).findSome? fun b => (h.get b).bind Object.problem with
  | some text => .error text
  | none => .ok (h.copied (h.reachable a) (h.reachable_closed a),
      h.size + (h.reachable a).idxOf a)

def Copyable (h : Heap κ α) (a : ℕ) : Prop :=
  ∀ b o, h.Reach a b → h.get b = some o → o.problem = none

def Extends (h h' : Heap κ α) : Prop := h.objects <+: h'.objects

structure Grown (h h' : Heap κ α) : Prop where
  kept : h.Extends h'
  apart : ∀ b, h.size ≤ b → ∀ c ∈ h'.refs b, h.size ≤ c
  plain : ∀ b o, h.size ≤ b → h'.get b = some o → o.problem = none

def New (h h' : Heap κ α) (a : ℕ) : Prop := h.size ≤ a ∧ a < h'.size

/-- Of the old objects, only those reached from the roots may differ. -/
structure ChangesOnly (roots : List ℕ) (h h' : Heap κ α) : Prop where
  size_le : h.size ≤ h'.size
  frame : ∀ b < h.size, (∀ r ∈ roots, ¬ h.Reach r b) → h'.get b = h.get b

namespace Extends
variable {h h' h'' : Heap κ α}

theorem size_le (extended : h.Extends h') : h.size ≤ h'.size := extended.length_le

theorem get (extended : h.Extends h') {b : ℕ} (below : b < h.size) : h'.get b = h.get b := by
  obtain ⟨new, whole⟩ := extended
  rw [Heap.get, ← whole]
  exact List.getElem?_append_left below

theorem refs (extended : h.Extends h') {b : ℕ} (below : b < h.size) : h'.refs b = h.refs b := by
  simp only [Heap.refs, extended.get below]

theorem reach_iff (extended : h.Extends h') {a b : ℕ} (below : a < h.size) :
    h'.Reach a b ↔ h.Reach a b := by
  constructor
  · intro path
    induction path with
    | refl => exact .refl
    | tail _ edge ih =>
      rw [extended.refs (reach_lt below ih)] at edge
      exact ih.tail edge
  · intro path
    induction path with
    | refl => exact .refl
    | tail path edge ih =>
      rw [← extended.refs (reach_lt below path)] at edge
      exact ih.tail edge

end Extends

theorem append_extends (h : Heap κ α) (new : List (Object κ α))
    (closed : ∀ o ∈ new, ∀ c ∈ o.refs, c < h.size + new.length) : h.Extends (h.append new closed) :=
  List.prefix_append h.objects new

theorem size_append (h : Heap κ α) (new : List (Object κ α))
    (closed : ∀ o ∈ new, ∀ c ∈ o.refs, c < h.size + new.length) :
    (h.append new closed).size = h.size + new.length :=
  List.length_append

theorem get_append {h : Heap κ α} {new : List (Object κ α)}
    {closed : ∀ o ∈ new, ∀ c ∈ o.refs, c < h.size + new.length} {b : ℕ} (above : h.size ≤ b) :
    (h.append new closed).get b = new[b - h.size]? :=
  List.getElem?_append_right above

theorem get_put_self {h : Heap κ α} {a : ℕ} {o : Object κ α} {closed : ∀ c ∈ o.refs, c < h.size}
    (below : a < h.size) : (h.put a o closed).get a = some o :=
  List.getElem?_set_self below

theorem get_put_ne {h : Heap κ α} {a b : ℕ} {o : Object κ α} {closed : ∀ c ∈ o.refs, c < h.size}
    (other : a ≠ b) : (h.put a o closed).get b = h.get b :=
  List.getElem?_set_ne other

theorem size_put (h : Heap κ α) (a : ℕ) (o : Object κ α) (closed : ∀ c ∈ o.refs, c < h.size) :
    (h.put a o closed).size = h.size :=
  List.length_set

theorem alloc_extends (h : Heap κ α) (o : Object κ α) (closed : ∀ c ∈ o.refs, c < h.size) :
    h.Extends (h.alloc o closed).1 :=
  List.prefix_append h.objects [o]

theorem get_alloc (h : Heap κ α) (o : Object κ α) (closed : ∀ c ∈ o.refs, c < h.size) :
    (h.alloc o closed).1.get (h.alloc o closed).2 = some o := by
  rw [alloc, get_append (Nat.le_refl _), Nat.sub_self]
  rfl

theorem Extends.changesOnly {h h' : Heap κ α} (extended : h.Extends h') (roots : List ℕ) :
    h.ChangesOnly roots h' :=
  ⟨extended.size_le, fun _ below _ => extended.get below⟩

theorem Extends.then_changesOnly {h h' h'' : Heap κ α} (extended : h.Extends h') {roots : List ℕ}
    (inside : ∀ r ∈ roots, r < h.size) (changed : h'.ChangesOnly roots h'') :
    h.ChangesOnly roots h'' := by
  refine ⟨extended.size_le.trans changed.size_le, fun b below apart => ?_⟩
  rw [changed.frame b (Nat.lt_of_lt_of_le below extended.size_le) ?_, extended.get below]
  exact fun r root path => apart r root ((extended.reach_iff (inside r root)).mp path)

theorem ChangesOnly.mono {h h' : Heap κ α} {roots more : List ℕ}
    (changed : h.ChangesOnly roots h') (sub : roots ⊆ more) : h.ChangesOnly more h' :=
  ⟨changed.size_le, fun b below apart => changed.frame b below fun r root => apart r (sub root)⟩

theorem New.extend {h h' h'' : Heap κ α} {a : ℕ} (new : h.New h' a) (more : h'.Extends h'') :
    h.New h'' a :=
  ⟨new.1, Nat.lt_of_lt_of_le new.2 more.size_le⟩

theorem New.weaken {h h' h'' : Heap κ α} {a : ℕ} (more : h.Extends h') (new : h'.New h'' a) :
    h.New h'' a :=
  ⟨more.size_le.trans new.1, new.2⟩

namespace Grown
variable {h h' h'' : Heap κ α}

theorem trans (first : h.Grown h') (second : h'.Grown h'') : h.Grown h'' := by
  have longer := first.kept.size_le
  refine ⟨first.kept.trans second.kept, ?_, ?_⟩
  · intro b above c edge
    by_cases below : b < h'.size
    · rw [second.kept.refs below] at edge
      exact first.apart b above c edge
    · exact longer.trans (second.apart b (by omega) c edge)
  · intro b o above found
    by_cases below : b < h'.size
    · rw [second.kept.get below] at found
      exact first.plain b o above found
    · exact second.plain b o (by omega) found

theorem reach_new (grown : h.Grown h') {a b : ℕ} (new : h.size ≤ a) (path : h'.Reach a b) :
    h.size ≤ b := by
  induction path with
  | refl => exact new
  | tail _ edge ih => exact grown.apart _ ih _ edge

theorem copyable (grown : h.Grown h') {a : ℕ} (new : h.size ≤ a) : h'.Copyable a :=
  fun b o path found => grown.plain b o (grown.reach_new new path) found

theorem of_append {new : List (Object κ α)}
    (closed : ∀ o ∈ new, ∀ c ∈ o.refs, c < h.size + new.length)
    (apart : ∀ o ∈ new, ∀ c ∈ o.refs, h.size ≤ c) (plain : ∀ o ∈ new, o.problem = none) :
    h.Grown (h.append new closed) := by
  refine ⟨h.append_extends new closed, ?_, ?_⟩
  · intro b above c edge
    cases found : (h.append new closed).get b with
    | none => simp [Heap.refs, found] at edge
    | some o =>
      rw [refs_of_get found] at edge
      rw [get_append above] at found
      exact apart o (List.mem_of_getElem? found) c edge
  · intro b o above found
    rw [get_append above] at found
    exact plain o (List.mem_of_getElem? found)

end Grown

theorem alloc_grown (h : Heap κ α) {o : Object κ α} (lone : o.refs = []) (plain : o.problem = none)
    (closed : ∀ c ∈ o.refs, c < h.size) : h.Grown (h.alloc o closed).1 :=
  .of_append (by simp [lone]) (by simp [lone]) (by simpa using plain)

theorem alloc_new (h : Heap κ α) (o : Object κ α) (closed : ∀ c ∈ o.refs, c < h.size) :
    h.New (h.alloc o closed).1 (h.alloc o closed).2 := by
  refine ⟨Nat.le_refl _, ?_⟩
  simp [alloc, size_append]

theorem deepcopy_ok_iff {h : Heap κ α} {a : ℕ} (below : a < h.size) :
    (∃ copy, h.deepcopy a = .ok copy) ↔ h.Copyable a := by
  unfold deepcopy
  cases problem : (h.reachable a).findSome? fun b => (h.get b).bind Object.problem with
  | none =>
    refine iff_of_true ⟨_, rfl⟩ fun b o path found => ?_
    have none := List.findSome?_eq_none_iff.mp problem b ((mem_reachable below).mpr path)
    rwa [found] at none
  | some text =>
    refine iff_of_false (by simp) fun copyable => ?_
    obtain ⟨b, member, raised⟩ := List.exists_of_findSome?_eq_some problem
    obtain ⟨o, found, text⟩ := Option.bind_eq_some_iff.mp raised
    rw [copyable b o ((mem_reachable below).mp member) found] at text
    cases text

theorem Copyable.deepcopy {h : Heap κ α} {a : ℕ} (copyable : h.Copyable a) (below : a < h.size) :
    ∃ h' copy, h.deepcopy a = .ok (h', copy) ∧ h.Grown h' ∧ h.New h' copy := by
  have inside : ∀ b ∈ h.reachable a, h.Reach a b := fun b => (mem_reachable below).mp
  have clear : (h.reachable a).findSome? (fun b => (h.get b).bind Object.problem) = none := by
    refine List.findSome?_eq_none_iff.mpr fun b member => ?_
    cases found : h.get b with
    | none => rfl
    | some o => exact copyable b o (inside b member) found
  refine ⟨h.copied (h.reachable a) (h.reachable_closed a), h.size + (h.reachable a).idxOf a, ?_,
    .of_append _ ?_ ?_, Nat.le_add_right _ _, ?_⟩
  · rw [Heap.deepcopy, clear]
  · intro o member c edge
    obtain ⟨b, _, rfl⟩ := List.mem_map.mp member
    rw [refs_copyOf] at edge
    obtain ⟨target, _, rfl⟩ := List.mem_map.mp edge
    exact Nat.le_add_right _ _
  · intro o member
    obtain ⟨b, reached, rfl⟩ := List.mem_map.mp member
    rw [copyOf, Object.problem_rename]
    cases found : h.get b with
    | none => rfl
    | some o => exact copyable b o (inside b reached) found
  · rw [copied, size_append, List.length_map]
    exact Nat.add_lt_add_left
      (List.idxOf_lt_length_iff.mpr ((mem_reachable below).mpr .refl)) _

theorem Grown.deepcopy {h h' : Heap κ α} (grown : h.Grown h') {a : ℕ} (new : h.New h' a) :
    ∃ h'' copy, h'.deepcopy a = .ok (h'', copy) ∧ h.Grown h'' ∧ h'.Extends h'' ∧
      h.New h'' copy := by
  obtain ⟨h'', copy, copied, more, newer⟩ := (grown.copyable new.1).deepcopy new.2
  exact ⟨h'', copy, copied, grown.trans more, more.kept, .weaken grown.kept newer⟩

end Heap

end Kitematic.Objects
