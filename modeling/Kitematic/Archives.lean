import Kitematic.Dict
import Mathlib.Data.Nat.Digits.Defs

/-! Archives: records under numbered ids, which are made, changed in place and never taken
out. An archive is the list of its records in the order they were made. -/

namespace Kitematic.Archives
open Dictionary

def numbered (start : String) (n : Nat) : String :=
  String.ofList (start.toList ++ Nat.toDigits 10 n)

theorem numbered_inj {start : String} {m n : Nat} (same : numbered start m = numbered start n) :
    m = n := by
  have digits : Nat.toDigits 10 m = Nat.toDigits 10 n :=
    List.append_cancel_left (String.ofList_injective same)
  rw [← Nat.ofDigitChars_ten_toDigits (n := m), digits, Nat.ofDigitChars_ten_toDigits]

structure Archive (ρ : Type*) where
  nextId : Nat := 1
  records : Dict String ρ := .empty

variable {ρ : Type*}

namespace Archive

/-- A new record is made with its id. -/
def create (start : String) (make : String → ρ) (a : Archive ρ) : Archive ρ × String :=
  let id := numbered start a.nextId
  (⟨a.nextId + 1, a.records.set id (make id)⟩, id)

def get (a : Archive ρ) (id : String) : Option ρ := a.records.get id

def modify (a : Archive ρ) (id : String) (f : ρ → ρ) : Archive ρ :=
  match a.records.get id with
  | some r => { a with records := a.records.set id (f r) }
  | none => a

end Archive

/-- The records are those of the list, under the ids they hold. -/
structure Holds (start : String) (idOf : ρ → String) (a : Archive ρ) (rs : List ρ) : Prop where
  records : a.records.entries = rs.map fun r => (idOf r, r)
  numbers : rs.map idOf = (List.range rs.length).map fun i => numbered start (i + 1)
  nextId : a.nextId = rs.length + 1

theorem lookup_by (idOf : ρ → String) (rs : List ρ) (id : String) :
    (rs.map fun r => (idOf r, r)).lookup id = rs.find? fun r => idOf r = id := by
  induction rs with
  | nil => rfl
  | cons r rs ih =>
    rw [List.map_cons, List.lookup_cons, List.find?_cons, ih]
    by_cases same : idOf r = id
    · simp [same]
    · have missed : (id == idOf r) = false := beq_eq_false_iff_ne.mpr (Ne.symm same)
      simp [same, missed]

namespace Holds
variable {start : String} {idOf : ρ → String} {a : Archive ρ} {rs : List ρ}

theorem new : Holds start idOf ({} : Archive ρ) [] := ⟨rfl, rfl, rfl⟩

theorem keys (holds : Holds start idOf a rs) : a.records.keys = rs.map idOf := by
  rw [Dict.keys, holds.records, List.map_map]
  rfl

theorem values (holds : Holds start idOf a rs) : a.records.values = rs := by
  rw [Dict.values, holds.records, List.map_map]
  exact List.map_id rs

theorem get_eq (holds : Holds start idOf a rs) (id : String) :
    a.get id = rs.find? fun r => idOf r = id := by
  rw [Archive.get, Dict.get, holds.records, lookup_by]

theorem fresh (holds : Holds start idOf a rs) : numbered start a.nextId ∉ a.records.keys := by
  rw [holds.keys, holds.numbers, holds.nextId]
  intro member
  obtain ⟨i, inside, same⟩ := List.mem_map.mp member
  have earlier := List.mem_range.mp inside
  have number := numbered_inj same
  omega

theorem create (holds : Holds start idOf a rs) {make : String → ρ}
    (named : ∀ id, idOf (make id) = id) :
    Holds start idOf (a.create start make).1 (rs ++ [make (numbered start (rs.length + 1))]) := by
  have fresh := holds.fresh
  have placed : (a.records.set (numbered start a.nextId) (make (numbered start a.nextId))).entries =
      a.records.entries ++ [(numbered start a.nextId, make (numbered start a.nextId))] := by
    simp [Dict.set, fresh]
  rw [holds.nextId] at placed
  unfold Archive.create
  rw [holds.nextId]
  refine ⟨?_, ?_, by simp⟩
  · rw [placed, holds.records]
    simp [named]
  · rw [List.map_append, holds.numbers, List.length_append, List.length_singleton, List.range_succ,
      List.map_append]
    simp [named]

theorem modify (holds : Holds start idOf a rs) (id : String) {f : ρ → ρ}
    (named : ∀ r, idOf (f r) = idOf r) :
    Holds start idOf (a.modify id f) (rs.map fun r => if idOf r = id then f r else r) := by
  have numbers : (rs.map fun r => if idOf r = id then f r else r).map idOf = rs.map idOf := by
    rw [List.map_map]
    refine List.map_congr_left fun r _ => ?_
    by_cases same : idOf r = id <;> simp [same, named]
  refine ⟨?_, by rw [numbers, holds.numbers, List.length_map], ?_⟩
  · have found := holds.get_eq id
    unfold Archive.modify
    rw [show a.records.get id = rs.find? fun r => idOf r = id from found]
    cases stored : rs.find? fun r => idOf r = id with
    | none =>
      have other : ∀ r ∈ rs, idOf r ≠ id := by simpa using List.find?_eq_none.mp stored
      rw [holds.records, List.map_map]
      refine List.map_congr_left fun r member => ?_
      simp [other r member]
    | some r =>
      have named' : idOf r = id := by simpa using List.find?_some stored
      have used : id ∈ a.records.keys := by
        rw [holds.keys]
        exact List.mem_map.mpr ⟨r, List.mem_of_find?_eq_some stored, named'⟩
      have placed : (a.records.set id (f r)).entries =
          a.records.entries.map fun e => if e.1 = id then (id, f r) else e := by
        simp [Dict.set, used]
      have distinct : (rs.map idOf).Nodup := holds.keys ▸ a.records.nodup
      simp only [placed, holds.records, List.map_map]
      refine List.map_congr_left fun r' member => ?_
      by_cases same : idOf r' = id
      · obtain rfl := List.inj_on_of_nodup_map distinct member (List.mem_of_find?_eq_some stored)
          (same.trans named'.symm)
        simp [same, named]
      · simp [same]
  · unfold Archive.modify
    rw [List.length_map, ← holds.nextId]
    split <;> rfl

end Holds
end Kitematic.Archives
