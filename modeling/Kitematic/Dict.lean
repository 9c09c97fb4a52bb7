import Mathlib.Data.Finset.Card
import Mathlib.Data.List.Nodup
import Mathlib.Data.List.Basic

/-! Insertion-ordered dictionaries. Overwriting keeps an entry in its place and a
new key goes to the end, so the entry list is the iteration order. Keys are
pairwise distinct by construction. -/

namespace Kitematic.Dictionary

structure Dict (κ : Type*) (ν : Type*) where
  entries : List (κ × ν)
  nodup : (entries.map Prod.fst).Nodup

namespace Dict
variable {κ ν : Type*}

def empty : Dict κ ν := ⟨[], List.nodup_nil⟩

def keys (d : Dict κ ν) : List κ := d.entries.map Prod.fst

def values (d : Dict κ ν) : List ν := d.entries.map Prod.snd

def mapValues {μ : Type*} (d : Dict κ ν) (f : ν → μ) : Dict κ μ :=
  ⟨d.entries.map fun e => (e.1, f e.2), by simpa [Function.comp_def] using d.nodup⟩

theorem values_mapValues {μ : Type*} (d : Dict κ ν) (f : ν → μ) :
    (d.mapValues f).values = d.values.map f := by
  simp [values, mapValues, Function.comp_def]

variable [DecidableEq κ]

def get (d : Dict κ ν) (k : κ) : Option ν := d.entries.lookup k

def contains (d : Dict κ ν) (k : κ) : Bool := (d.get k).isSome

theorem get_mapValues {μ : Type*} (d : Dict κ ν) (f : ν → μ) (k : κ) :
    (d.mapValues f).get k = (d.get k).map f := by
  change (d.entries.map fun e => (e.1, f e.2)).lookup k = (d.entries.lookup k).map f
  induction d.entries with
  | nil => rfl
  | cons e rest ih =>
    rw [List.map_cons, List.lookup_cons, List.lookup_cons, ih]
    cases k == e.1 <;> rfl

private theorem keys_overwrite (l : List (κ × ν)) (k : κ) (v : ν) :
    (l.map fun e => if e.1 = k then (k, v) else e).map Prod.fst = l.map Prod.fst := by
  rw [List.map_map]
  apply List.map_congr_left
  intro e _
  by_cases h : e.1 = k <;> simp [h]

def set (d : Dict κ ν) (k : κ) (v : ν) : Dict κ ν :=
  if h : k ∈ d.keys then
    ⟨d.entries.map fun e => if e.1 = k then (k, v) else e, by
      rw [keys_overwrite]
      exact d.nodup⟩
  else
    ⟨d.entries ++ [(k, v)], by
      have fresh : k ∉ d.entries.map Prod.fst := h
      simpa [List.nodup_append, List.nodup_cons] using
        ⟨d.nodup, fun a b member equal =>
          fresh (equal ▸ List.mem_map_of_mem (f := Prod.fst) member)⟩⟩

/-- Deletion `del d[k]`; a missing key leaves the dictionary as it is. -/
def erase (d : Dict κ ν) (k : κ) : Dict κ ν :=
  ⟨d.entries.filter fun e => e.1 ≠ k,
    d.nodup.sublist (List.filter_sublist.map Prod.fst)⟩

@[simp] theorem get_empty (k : κ) : (.empty : Dict κ ν).get k = none := rfl

theorem lookup_eq_some {l : List (κ × ν)} (distinct : (l.map Prod.fst).Nodup)
    (k : κ) (v : ν) : l.lookup k = some v ↔ (k, v) ∈ l := by
  induction l with
  | nil => simp
  | cons e rest ih =>
    obtain ⟨fresh, distinct⟩ := List.nodup_cons.mp distinct
    rw [List.lookup_cons]
    by_cases h : k = e.1
    · subst h
      have absent : ∀ w, (e.1, w) ∉ rest := fun w member =>
        fresh (List.mem_map.mpr ⟨(e.1, w), member, rfl⟩)
      simp only [beq_self_eq_true, Option.some.injEq, List.mem_cons, absent, or_false]
      exact ⟨fun same => by rw [← same], fun same => (congrArg Prod.snd same).symm⟩
    · have missed : (k, v) ≠ e := fun same => h (congrArg Prod.fst same)
      rw [beq_eq_false_iff_ne.mpr h]
      simp [missed, ih distinct]

theorem lookup_perm {l l' : List (κ × ν)} (distinct : (l.map Prod.fst).Nodup) (perm : l'.Perm l)
    (k : κ) : l'.lookup k = l.lookup k := by
  have distinct' : (l'.map Prod.fst).Nodup := (perm.map Prod.fst).nodup_iff.mpr distinct
  apply Option.ext
  intro v
  rw [lookup_eq_some distinct', lookup_eq_some distinct, perm.mem_iff]

theorem get_eq_some {d : Dict κ ν} {k : κ} {v : ν} : d.get k = some v ↔ (k, v) ∈ d.entries :=
  lookup_eq_some d.nodup k v

theorem get_set (d : Dict κ ν) (k k' : κ) (v : ν) :
    (d.set k v).get k' = if k' = k then some v else d.get k' := by
  apply Option.ext
  intro w
  rw [get_eq_some]
  by_cases present : k ∈ d.keys
  · obtain ⟨e, member, rfl⟩ := List.mem_map.mp present
    simp only [set, present, dif_pos, List.mem_map]
    by_cases h : k' = e.1
    · subst h
      simp only [if_true, Option.some.injEq]
      constructor
      · rintro ⟨f, _, equal⟩
        by_cases hf : f.1 = e.1
        · rw [if_pos hf] at equal
          exact congrArg Prod.snd equal
        · rw [if_neg hf] at equal
          exact absurd (congrArg Prod.fst equal) hf
      · rintro rfl
        exact ⟨e, member, if_pos rfl⟩
    · simp only [h, if_false, get_eq_some]
      constructor
      · rintro ⟨f, inside, equal⟩
        by_cases hf : f.1 = e.1
        · rw [if_pos hf] at equal
          exact absurd (congrArg Prod.fst equal).symm h
        · rw [if_neg hf] at equal
          exact equal ▸ inside
      · intro inside
        exact ⟨(k', w), inside, if_neg h⟩
  · simp only [set, present, dif_neg, not_false_eq_true, List.mem_append, List.mem_singleton,
      Prod.mk.injEq]
    by_cases h : k' = k
    · subst h
      have absent : (k', w) ∉ d.entries := fun inside =>
        present (List.mem_map_of_mem (f := Prod.fst) inside)
      simp [absent, eq_comm]
    · simp [h, get_eq_some]

@[simp] theorem get_set_self (d : Dict κ ν) (k : κ) (v : ν) : (d.set k v).get k = some v := by
  simp [get_set]

theorem get_erase (d : Dict κ ν) (k k' : κ) :
    (d.erase k).get k' = if k' = k then none else d.get k' := by
  apply Option.ext
  intro w
  rw [get_eq_some]
  by_cases h : k' = k
  · simp [erase, h]
  · simp [erase, h, get_eq_some]

/-- The entries whose keys are to be kept. -/
def restrict (d : Dict κ ν) (keep : κ → Bool) : Dict κ ν :=
  ⟨d.entries.filter fun e => keep e.1, d.nodup.sublist (List.filter_sublist.map Prod.fst)⟩

theorem get_restrict (d : Dict κ ν) (keep : κ → Bool) (k : κ) :
    (d.restrict keep).get k = if keep k then d.get k else none := by
  apply Option.ext
  intro v
  rw [get_eq_some]
  cases kept : keep k <;> simp [restrict, kept, get_eq_some]

theorem get_of_get_erase {d : Dict κ ν} {k k' : κ} {v : ν}
    (found : (d.erase k).get k' = some v) : d.get k' = some v := by
  rw [get_erase] at found
  split at found
  · cases found
  · exact found

theorem forall_erase {P : κ → ν → Prop} {d : Dict κ ν} (all : ∀ k v, d.get k = some v → P k v)
    (k : κ) : ∀ k' v, (d.erase k).get k' = some v → P k' v :=
  fun k' v found => all k' v (get_of_get_erase found)

theorem forall_set {P : κ → ν → Prop} {d : Dict κ ν} (all : ∀ k v, d.get k = some v → P k v)
    {k : κ} {v : ν} (new : P k v) : ∀ k' w, (d.set k v).get k' = some w → P k' w := by
  intro k' w found
  rw [get_set] at found
  split at found
  next same =>
    cases found
    exact same ▸ new
  · exact all k' w found

theorem erase_entries_mem {d : Dict κ ν} {k : κ} {e : κ × ν} :
    e ∈ (d.erase k).entries ↔ e ∈ d.entries ∧ e.1 ≠ k := by
  simp [erase]

omit [DecidableEq κ] in
theorem entries_nodup (d : Dict κ ν) : d.entries.Nodup := .of_map _ d.nodup

private theorem cons_erase_nodup (d : Dict κ ν) (k : κ) (v : ν) :
    ((k, v) :: (d.erase k).entries).Nodup :=
  List.nodup_cons.mpr ⟨fun member => (erase_entries_mem.mp member).2 rfl, (d.erase k).entries_nodup⟩

theorem set_perm (d : Dict κ ν) (k : κ) (v : ν) :
    (d.set k v).entries.Perm ((k, v) :: (d.erase k).entries) := by
  refine (List.perm_ext_iff_of_nodup (entries_nodup _) (d.cons_erase_nodup k v)).mpr ?_
  rintro ⟨k', w⟩
  rw [← get_eq_some, get_set, List.mem_cons, erase_entries_mem, ← get_eq_some]
  by_cases h : k' = k
  · simp [h, eq_comm]
  · simp [h]

theorem perm_of_get {d : Dict κ ν} {k : κ} {v : ν} (stored : d.get k = some v) :
    d.entries.Perm ((k, v) :: (d.erase k).entries) := by
  refine (List.perm_ext_iff_of_nodup d.entries_nodup (d.cons_erase_nodup k v)).mpr ?_
  rintro ⟨k', w⟩
  rw [← get_eq_some, List.mem_cons, erase_entries_mem, ← get_eq_some]
  by_cases h : k' = k
  · subst h
    simp [stored, eq_comm]
  · simp [h]

def count (d : Dict κ ν) (p : ν → Bool) : Nat := d.entries.countP fun e => p e.2

theorem count_set (d : Dict κ ν) (k : κ) (v : ν) (p : ν → Bool) :
    (d.set k v).count p = (d.erase k).count p + if p v then 1 else 0 := by
  rw [count, (d.set_perm k v).countP_eq, List.countP_cons]
  rfl

theorem count_of_get {d : Dict κ ν} {k : κ} {v : ν} (stored : d.get k = some v) (p : ν → Bool) :
    d.count p = (d.erase k).count p + if p v then 1 else 0 := by
  rw [count, (perm_of_get stored).countP_eq, List.countP_cons]
  rfl

theorem count_le_card {d : Dict κ ν} {p : ν → Bool} {s : Finset κ}
    (held : ∀ k v, d.get k = some v → p v = true → k ∈ s) : d.count p ≤ s.card := by
  have distinct : ((d.entries.filter fun e => p e.2).map Prod.fst).Nodup :=
    d.nodup.sublist (List.filter_sublist.map Prod.fst)
  have inside : ((d.entries.filter fun e => p e.2).map Prod.fst).toFinset ⊆ s := by
    intro k member
    obtain ⟨e, kept, rfl⟩ := List.mem_map.mp (List.mem_toFinset.mp member)
    obtain ⟨stored, holds⟩ := List.mem_filter.mp kept
    exact held e.1 e.2 (get_eq_some.mpr stored) holds
  calc d.count p = ((d.entries.filter fun e => p e.2).map Prod.fst).length := by
        rw [List.length_map, count, List.countP_eq_length_filter]
    _ = ((d.entries.filter fun e => p e.2).map Prod.fst).toFinset.card :=
        (List.toFinset_card_of_nodup distinct).symm
    _ ≤ s.card := Finset.card_le_card inside

/-- Built by assignments in turn: a key keeps its first place and its last value. -/
def ofList (l : List (κ × ν)) : Dict κ ν := l.foldl (fun d e => d.set e.1 e.2) .empty

theorem ofList_entries {l : List (κ × ν)} (distinct : (l.map Prod.fst).Nodup) :
    (ofList l).entries = l := by
  suffices step : ∀ (d : Dict κ ν), ((d.entries ++ l).map Prod.fst).Nodup →
      (l.foldl (fun d e => d.set e.1 e.2) d).entries = d.entries ++ l from
    step .empty distinct
  clear distinct
  induction l with
  | nil => exact fun d _ => (List.append_nil _).symm
  | cons e l ih =>
    intro d distinct
    have fresh : e.1 ∉ d.keys := by
      rw [List.map_append, List.map_cons] at distinct
      exact fun member => (List.nodup_append.mp distinct).2.2 _ member _ List.mem_cons_self rfl
    have placed : (d.set e.1 e.2).entries = d.entries ++ [e] := by
      simp [set, fresh]
    rw [List.foldl_cons, ih _ (by simpa [placed] using distinct), placed, List.append_assoc]
    rfl

theorem ofList_self (d : Dict κ ν) : ofList d.entries = d := by
  have same := ofList_entries d.nodup
  generalize ofList d.entries = built at same
  obtain ⟨entries, _⟩ := built
  obtain ⟨entries', _⟩ := d
  cases same
  rfl

theorem erase_of_get_none {d : Dict κ ν} {k : κ} (missing : d.get k = none) : d.erase k = d := by
  obtain ⟨entries, nodup⟩ := d
  simp only [erase, mk.injEq, List.filter_eq_self, decide_eq_true_eq]
  rintro ⟨k', v⟩ member rfl
  rw [get_eq_some.mpr member] at missing
  cases missing

theorem set_of_get {d : Dict κ ν} {k : κ} {v : ν} (stored : d.get k = some v) :
    d.set k v = d := by
  have present : k ∈ d.keys := List.mem_map_of_mem (f := Prod.fst) (get_eq_some.mp stored)
  have same : d.entries.map (fun e => if e.1 = k then (k, v) else e) = d.entries.map id := by
    apply List.map_congr_left
    intro e member
    split
    next here =>
      have other : d.get k = some e.2 := get_eq_some.mpr (here ▸ member)
      rw [stored] at other
      rw [Option.some.inj other, ← here]
      rfl
    next => rfl
  simp only [set, present, dif_pos, same, List.map_id]

theorem mem_keys {d : Dict κ ν} {k : κ} : k ∈ d.keys ↔ d.contains k = true := by
  rw [contains, Option.isSome_iff_exists]
  simp only [keys, List.mem_map, Prod.exists, exists_and_right, exists_eq_right, get_eq_some]

theorem get_eq_none {d : Dict κ ν} {k : κ} : d.get k = none ↔ k ∉ d.keys := by
  rw [mem_keys, contains, Option.not_isSome_iff_eq_none]

theorem keys_set (d : Dict κ ν) (k : κ) (v : ν) :
    (d.set k v).keys = if d.contains k then d.keys else d.keys ++ [k] := by
  by_cases present : k ∈ d.keys
  · rw [if_pos (mem_keys.mp present)]
    simp only [set, present, dif_pos]
    exact keys_overwrite d.entries k v
  · rw [if_neg (fun found => present (mem_keys.mpr found))]
    rw [set, dif_neg present]
    exact List.map_append

theorem values_set_new {d : Dict κ ν} {k : κ} (fresh : k ∉ d.keys) (v : ν) :
    (d.set k v).values = d.values ++ [v] := by
  rw [set, dif_neg fresh]
  exact List.map_append

omit [DecidableEq κ] in
theorem length_keys (d : Dict κ ν) : d.keys.length = d.entries.length := List.length_map _

theorem length_erase {d : Dict κ ν} {k : κ} {v : ν} (stored : d.get k = some v) :
    (d.erase k).entries.length + 1 = d.entries.length := by
  rw [(perm_of_get stored).length_eq, List.length_cons]

theorem get_foldl_erase (d : Dict κ ν) (ks : List κ) (k : κ) :
    (ks.foldl erase d).get k = if k ∈ ks then none else d.get k := by
  induction ks generalizing d with
  | nil => simp
  | cons first ks ih =>
    rw [List.foldl_cons, ih, get_erase]
    by_cases same : k = first <;> by_cases later : k ∈ ks <;> simp [same, later]

section renames
variable {μ : Type*} [DecidableEq μ] {f : κ → μ} {K : Set κ} {d : Dict κ ν} {d' : Dict μ ν}

def Renames (f : κ → μ) (d : Dict κ ν) (d' : Dict μ ν) : Prop :=
  d'.entries = d.entries.map fun e => (f e.1, e.2)

omit [DecidableEq κ] [DecidableEq μ] in
theorem Renames.keys (renames : Renames f d d') : d'.keys = d.keys.map f := by
  unfold Dict.keys
  rw [renames, List.map_map, List.map_map]
  rfl

omit [DecidableEq κ] [DecidableEq μ] in
theorem Renames.length (renames : Renames f d d') : d'.entries.length = d.entries.length := by
  rw [renames, List.length_map]

omit [DecidableEq κ] [DecidableEq μ] in
theorem Renames.mem_keys (renames : Renames f d d') (injective : K.InjOn f)
    (inside : ∀ k ∈ d.keys, k ∈ K) {k : κ} (used : k ∈ K) : f k ∈ d'.keys ↔ k ∈ d.keys := by
  rw [renames.keys, List.mem_map]
  constructor
  · rintro ⟨k', member, same⟩
    exact injective (inside k' member) used same ▸ member
  · exact fun member => ⟨k, member, rfl⟩

theorem Renames.get (renames : Renames f d d') (injective : K.InjOn f)
    (inside : ∀ k ∈ d.keys, k ∈ K) {k : κ} (used : k ∈ K) : d'.get (f k) = d.get k := by
  apply Option.ext
  intro v
  rw [get_eq_some, get_eq_some, renames, List.mem_map]
  constructor
  · rintro ⟨⟨k', v'⟩, member, same⟩
    obtain ⟨sameKey, sameValue⟩ := Prod.mk.inj same
    have stored : k' ∈ d.keys := List.mem_map_of_mem (f := Prod.fst) member
    rw [← injective (inside k' stored) used sameKey, ← sameValue]
    exact member
  · exact fun member => ⟨(k, v), member, rfl⟩

theorem Renames.set (renames : Renames f d d') (injective : K.InjOn f)
    (inside : ∀ k ∈ d.keys, k ∈ K) {k : κ} (used : k ∈ K) (v : ν) :
    Renames f (d.set k v) (d'.set (f k) v) := by
  have present := renames.mem_keys injective inside used
  unfold Renames at *
  by_cases old : k ∈ d.keys
  · simp only [Dict.set, old, present.mpr old, dif_pos, renames, List.map_map]
    apply List.map_congr_left
    intro e member
    have stored : e.1 ∈ d.keys := List.mem_map_of_mem (f := Prod.fst) member
    have same : f e.1 = f k ↔ e.1 = k := injective.eq_iff (inside e.1 stored) used
    by_cases here : e.1 = k <;> simp [here, same]
  · simp only [Dict.set, old, mt present.mp old, dif_neg, not_false_eq_true, renames,
      List.map_append, List.map_cons, List.map_nil]

theorem Renames.erase (renames : Renames f d d') (injective : K.InjOn f)
    (inside : ∀ k ∈ d.keys, k ∈ K) {k : κ} (used : k ∈ K) :
    Renames f (d.erase k) (d'.erase (f k)) := by
  unfold Renames at *
  simp only [Dict.erase, renames, List.filter_map]
  congr 1
  apply List.filter_congr
  intro e member
  have stored : e.1 ∈ d.keys := List.mem_map_of_mem (f := Prod.fst) member
  simp [injective.eq_iff (inside e.1 stored) used]

end renames

theorem mem_keys_set {d : Dict κ ν} {k k' : κ} {v : ν} :
    k' ∈ (d.set k v).keys ↔ k' = k ∨ k' ∈ d.keys := by
  rw [mem_keys, mem_keys, contains, contains, get_set]
  by_cases same : k' = k <;> simp [same]

theorem mem_keys_erase {d : Dict κ ν} {k k' : κ} :
    k' ∈ (d.erase k).keys ↔ k' ≠ k ∧ k' ∈ d.keys := by
  rw [mem_keys, mem_keys, contains, contains, get_erase]
  by_cases same : k' = k <;> simp [same]

theorem keys_erase (d : Dict κ ν) (k : κ) : (d.erase k).keys = d.keys.filter fun k' => k' ≠ k := by
  unfold keys erase
  rw [List.filter_map]
  rfl

theorem filterMap_get_keys (d : Dict κ ν) : d.keys.filterMap d.get = d.values := by
  unfold keys values
  rw [List.filterMap_map, ← List.filterMap_eq_map]
  apply List.filterMap_congr
  intro e member
  exact get_eq_some.mpr member

theorem length_set (d : Dict κ ν) (k : κ) (v : ν) : (d.set k v).entries.length =
    if k ∈ d.keys then d.entries.length else d.entries.length + 1 := by
  unfold set
  split <;> simp

/-- `d.update(d')` -/
def update (d d' : Dict κ ν) : Dict κ ν := d'.entries.foldl (fun d e => d.set e.1 e.2) d

theorem get_update (d d' : Dict κ ν) (k : κ) : (d.update d').get k = (d'.get k).or (d.get k) := by
  obtain ⟨l, distinct⟩ := d'
  unfold update get
  induction l generalizing d with
  | nil => rfl
  | cons e l ih =>
    obtain ⟨fresh, distinct⟩ := List.nodup_cons.mp distinct
    rw [List.foldl_cons, ih _ distinct, List.lookup_cons]
    have stored := d.get_set e.1 k e.2
    rw [get] at stored
    by_cases same : k = e.1
    · have missing : l.lookup k = none :=
        List.lookup_eq_none_iff.mpr fun e' member => by
          have other : k ≠ e'.1 := fun equal =>
            fresh (List.mem_map.mpr ⟨e', member, (same.symm.trans equal).symm⟩)
          simpa using other
      rw [if_pos same] at stored
      have equal : (k == e.1) = true := beq_iff_eq.mpr same
      simp only [missing, stored, equal, Option.none_or, Option.some_or]
    · rw [if_neg same] at stored
      have different : (k == e.1) = false := beq_eq_false_iff_ne.mpr same
      simp only [different, stored]
      rfl

end Dict
end Kitematic.Dictionary
