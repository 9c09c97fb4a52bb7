import Mathlib.Data.List.Sort
import Mathlib.Data.List.Nodup

/-! Selection by a key: sorting, the greatest element, and maps that may fail. Where
the keys of a list are distinct, neither result depends on the order of the list. -/

namespace Kitematic.KeyOrder
variable {α β κ : Type*}

/-! Sorting. -/

section sort
variable [LinearOrder κ]

/-- `sorted(items, key=key)` -/
def sortBy (key : α → κ) (items : List α) : List α := items.insertionSort fun a b => key a ≤ key b

theorem sortBy_perm (key : α → κ) (items : List α) : (sortBy key items).Perm items :=
  List.perm_insertionSort ..

theorem sortBy_pairwise (key : α → κ) (items : List α) :
    (sortBy key items).Pairwise fun a b => key a ≤ key b := by
  have : Std.Total fun a b : α => key a ≤ key b := ⟨fun a b => le_total (key a) (key b)⟩
  have : IsTrans α fun a b => key a ≤ key b := ⟨fun _ _ _ => le_trans⟩
  exact List.pairwise_insertionSort _ items

theorem sortBy_map (key : β → κ) (f : α → β) (items : List α) :
    sortBy key (items.map f) = (sortBy (fun a => key (f a)) items).map f :=
  (List.map_insertionSort _ _ f items fun _ _ _ _ => Iff.rfl).symm

theorem sortBy_congr_perm {key : α → κ} {items items' : List α} (perm : items'.Perm items)
    (apart : ∀ a ∈ items, ∀ b ∈ items, key a = key b → a = b) :
    sortBy key items' = sortBy key items := by
  have same : (sortBy key items').Perm (sortBy key items) :=
    (sortBy_perm key items').trans (perm.trans (sortBy_perm key items).symm)
  refine List.Perm.eq_of_pairwise ?_ (sortBy_pairwise key items') (sortBy_pairwise key items) same
  intro a b insideA insideB le ge
  have memberA := perm.mem_iff.mp ((sortBy_perm key items').mem_iff.mp insideA)
  have memberB := (sortBy_perm key items).mem_iff.mp insideB
  exact apart a memberA b memberB (le_antisymm le ge)

theorem sortBy_eq_of_perm {key : α → κ} {items items' : List α} (perm : items'.Perm items)
    (distinct : (items.map key).Nodup) : sortBy key items' = sortBy key items :=
  sortBy_congr_perm perm fun _ memberA _ memberB same =>
    List.inj_on_of_nodup_map distinct memberA memberB same

end sort

/-! The first element. -/

theorem find?_filterMap_keyed {α β : Type*} [DecidableEq β] {pick : β → Option α} {key : α → β}
    (keyed : ∀ k a, pick k = some a → key a = k) (keys : List β) (k : β) :
    ((keys.filterMap pick).find? fun a => key a = k) = if k ∈ keys then pick k else none := by
  induction keys with
  | nil => simp
  | cons k' keys ih =>
    cases picked : pick k' with
    | none =>
      rw [List.filterMap_cons_none picked, ih]
      by_cases same : k = k'
      · subst same
        simp [picked]
      · simp [same]
    | some a =>
      rw [List.filterMap_cons_some picked, List.find?_cons, ih]
      by_cases same : k = k'
      · subst same
        simp [keyed _ a picked, picked]
      · simp [keyed _ a picked, same, Ne.symm same]

theorem find?_eq_some_of_pairwise {r : α → α → Prop} (asymm : ∀ a b, r a b → ¬ r b a)
    {items : List α} (sorted : items.Pairwise r) {p : α → Bool} {a : α} :
    items.find? p = some a ↔ a ∈ items ∧ p a = true ∧ ∀ b ∈ items, r b a → p b = false := by
  induction items with
  | nil => simp
  | cons x items ih =>
    obtain ⟨least, sorted⟩ := List.pairwise_cons.mp sorted
    cases holds : p x with
    | true =>
      rw [List.find?_cons_of_pos holds, Option.some.injEq]
      constructor
      · rintro rfl
        refine ⟨List.mem_cons_self, holds, fun b member before => ?_⟩
        rcases List.mem_cons.mp member with rfl | later
        · exact absurd before (asymm _ _ before)
        · exact absurd before (asymm _ _ (least b later))
      · rintro ⟨member, _, before⟩
        rcases List.mem_cons.mp member with rfl | later
        · rfl
        · exact absurd holds (Bool.eq_false_iff.mp (before x List.mem_cons_self (least a later)))
    | false =>
      rw [List.find?_cons_of_neg (by simp [holds]), ih sorted]
      have other : p a = true → a ≠ x := fun found same => by simp [same, holds] at found
      constructor
      · rintro ⟨member, found, before⟩
        refine ⟨List.mem_cons_of_mem _ member, found, fun b inside less => ?_⟩
        rcases List.mem_cons.mp inside with rfl | later
        · exact holds
        · exact before b later less
      · rintro ⟨member, found, before⟩
        exact ⟨(List.mem_cons.mp member).resolve_left (other found), found, fun b later less =>
          before b (List.mem_cons_of_mem _ later) less⟩

/-! The greatest element. -/

/-- `max(items, key=key)`: the first of the greatest. -/
def firstMax (key : α → Int) : List α → Option α
  | [] => none
  | x :: items => some (items.foldl (fun best y => if key best < key y then y else best) x)

theorem firstMax_isSome (key : α → Int) {items : List α} (filled : items ≠ []) :
    ∃ best, firstMax key items = some best := by
  cases items with
  | nil => exact absurd rfl filled
  | cons x items => exact ⟨_, rfl⟩

theorem firstMax_spec {key : α → Int} {items : List α} {best : α}
    (found : firstMax key items = some best) :
    best ∈ items ∧ ∀ y ∈ items, key y ≤ key best := by
  cases items with
  | nil => cases found
  | cons x items =>
    obtain rfl := Option.some.inj found
    clear found
    induction items generalizing x with
    | nil => simp
    | cons y items ih =>
      obtain ⟨member, greatest⟩ := ih (if key x < key y then y else x)
      rw [List.foldl_cons]
      have above : key x ≤ key (if key x < key y then y else x) ∧
          key y ≤ key (if key x < key y then y else x) := by
        split <;> omega
      have first := greatest _ List.mem_cons_self
      refine ⟨?_, ?_⟩
      · rcases List.mem_cons.mp member with same | later
        · rw [same]
          split <;> simp
        · exact List.mem_cons_of_mem _ (List.mem_cons_of_mem _ later)
      · intro z inside
        rcases List.mem_cons.mp inside with rfl | inside
        · exact le_trans above.1 first
        rcases List.mem_cons.mp inside with rfl | inside
        · exact le_trans above.2 first
        · exact greatest z (List.mem_cons_of_mem _ inside)

theorem firstMax_map (key : β → Int) (f : α → β) (items : List α) :
    firstMax key (items.map f) = (firstMax (fun a => key (f a)) items).map f := by
  cases items with
  | nil => rfl
  | cons x items =>
    simp only [List.map_cons, firstMax, Option.map_some, Option.some.injEq]
    induction items generalizing x with
    | nil => rfl
    | cons y items ih =>
      rw [List.map_cons, List.foldl_cons, List.foldl_cons, ← apply_ite f, ih]

theorem firstMax_eq_of_perm {key : α → Int} {items items' : List α} (perm : items'.Perm items)
    (distinct : (items.map key).Nodup) : firstMax key items' = firstMax key items := by
  by_cases filled : items = []
  · subst filled
    rw [List.perm_nil.mp perm]
  obtain ⟨best, found⟩ := firstMax_isSome key filled
  have filled' : items' ≠ [] := by
    rintro rfl
    exact filled (List.nil_perm.mp perm)
  obtain ⟨best', found'⟩ := firstMax_isSome key filled'
  obtain ⟨member, greatest⟩ := firstMax_spec found
  obtain ⟨member', greatest'⟩ := firstMax_spec found'
  have same : key best' = key best :=
    le_antisymm (greatest _ (perm.mem_iff.mp member')) (greatest' _ (perm.mem_iff.mpr member))
  rw [found, found', List.inj_on_of_nodup_map distinct (perm.mem_iff.mp member') member same]

theorem firstMax_eq_getLast? {key : α → Int} {items : List α}
    (increasing : (items.map key).Pairwise (· < ·)) : firstMax key items = items.getLast? := by
  rcases List.eq_nil_or_concat items with rfl | ⟨front, last, rfl⟩
  · rfl
  obtain ⟨best, found⟩ := firstMax_isSome key (List.concat_ne_nil last front)
  obtain ⟨member, greatest⟩ := firstMax_spec found
  rw [List.concat_eq_append] at *
  rw [List.map_append, List.pairwise_append] at increasing
  rw [found, List.getLast?_append]
  rcases List.mem_append.mp member with earlier | same
  · have below := increasing.2.2 _ (List.mem_map_of_mem earlier) (key last) (by simp)
    have above := greatest last (by simp)
    omega
  · rw [List.mem_singleton.mp same]
    rfl

/-! Maps that may fail. -/

theorem mapM_lookup {ε : Type*} {f : α → Except ε β} {g : α → Option β} {items : List α}
    (each : ∀ x ∈ items, ∃ y, g x = some y ∧ f x = .ok y) :
    items.mapM f = .ok (items.filterMap g) := by
  induction items with
  | nil => rfl
  | cons x items ih =>
    obtain ⟨y, found, mapped⟩ := each x List.mem_cons_self
    have later := ih fun z member => each z (List.mem_cons_of_mem _ member)
    rw [List.mapM_cons, mapped, later, List.filterMap_cons_some found]
    rfl

/-- A map that does not fail gives the value at each item. -/
theorem mapM_ok {ε : Type*} {f : α → Except ε β} {items : List α} {out : List β}
    (mapped : items.mapM f = .ok out) :
    (∀ x ∈ items, ∃ y ∈ out, f x = .ok y) ∧ ∀ y ∈ out, ∃ x ∈ items, f x = .ok y := by
  induction items generalizing out with
  | nil =>
    cases mapped
    simp
  | cons x items ih =>
    rw [List.mapM_cons] at mapped
    cases first : f x with
    | error e => simp [first, bind, Except.bind] at mapped
    | ok y =>
      cases rest : items.mapM f with
      | error e => simp [first, rest, bind, Except.bind] at mapped
      | ok tail =>
        simp only [first, rest, bind, Except.bind, pure, Except.pure, Except.ok.injEq] at mapped
        subst mapped
        obtain ⟨forth, back⟩ := ih rest
        constructor
        · intro z member
          cases List.mem_cons.mp member with
          | inl same => exact ⟨y, List.mem_cons_self, same ▸ first⟩
          | inr later =>
            obtain ⟨value, inside, here⟩ := forth z later
            exact ⟨value, List.mem_cons_of_mem _ inside, here⟩
        · intro z member
          cases List.mem_cons.mp member with
          | inl same => exact ⟨x, List.mem_cons_self, same ▸ first⟩
          | inr later =>
            obtain ⟨source, inside, here⟩ := back z later
            exact ⟨source, List.mem_cons_of_mem _ inside, here⟩

theorem mapM_error {ε : Type*} {f : α → Except ε β} {items : List α} {e : ε}
    (failed : items.mapM f = .error e) : ∃ x ∈ items, f x = .error e := by
  induction items with
  | nil => cases failed
  | cons x items ih =>
    rw [List.mapM_cons] at failed
    cases first : f x with
    | error e' =>
      simp only [first, bind, Except.bind, Except.error.injEq] at failed
      exact ⟨x, List.mem_cons_self, first.trans (congrArg _ failed)⟩
    | ok y =>
      cases rest : items.mapM f with
      | error e' =>
        simp only [first, rest, bind, Except.bind, Except.error.injEq] at failed
        obtain ⟨z, member, raised⟩ := ih (rest.trans (congrArg _ failed))
        exact ⟨z, List.mem_cons_of_mem _ member, raised⟩
      | ok tail => simp [first, rest, bind, Except.bind, pure, Except.pure] at failed

theorem mapM_eq_ok {ε : Type*} {f : α → Except ε β} {g : α → β} {items : List α}
    (each : ∀ x ∈ items, f x = .ok (g x)) : items.mapM f = .ok (items.map g) := by
  induction items with
  | nil => rfl
  | cons x items ih =>
    have later := ih fun y member => each y (List.mem_cons_of_mem _ member)
    rw [List.mapM_cons, each x List.mem_cons_self, later]
    rfl

theorem mapM_raises_iff {ε : Type*} {f : α → Except ε β} {items : List α} :
    (∃ e, items.mapM f = .error e) ↔ ∃ x ∈ items, ∃ e, f x = .error e := by
  constructor
  · rintro ⟨e, failed⟩
    obtain ⟨x, member, raised⟩ := mapM_error failed
    exact ⟨x, member, e, raised⟩
  · rintro ⟨x, member, e, raised⟩
    cases mapped : items.mapM f with
    | error e' => exact ⟨e', rfl⟩
    | ok out =>
      obtain ⟨_, _, given⟩ := (mapM_ok mapped).1 x member
      rw [raised] at given
      cases given

theorem bind_ok_iff {α β ε : Type} {x : Except ε α} {f : α → Except ε β} {y : β} :
    (x >>= f) = .ok y ↔ ∃ a, x = .ok a ∧ f a = .ok y := by
  cases x <;> simp [bind, Except.bind]

theorem bind_raises_iff {α β ε : Type} {x : Except ε α} {f : α → Except ε β} :
    (∃ e, (x >>= f) = .error e) ↔ (∃ e, x = .error e) ∨ ∃ a e, x = .ok a ∧ f a = .error e := by
  cases x <;> simp [bind, Except.bind]

theorem except_bind_ok_iff {α β ε : Type} {x : Except ε α} {f : α → Except ε β} {y : β} :
    x.bind f = .ok y ↔ ∃ a, x = .ok a ∧ f a = .ok y := bind_ok_iff

section concat
variable {α β ε : Type} {f : α → Except ε (List β)} {items : List α} {out : List β}

/-- The lists of a map that may fail, one after the other. -/
def concatM (f : α → Except ε (List β)) (items : List α) : Except ε (List β) := do
  let lists ← items.mapM f
  return lists.flatten

theorem concatM_raises_iff :
    (∃ e, concatM f items = .error e) ↔ ∃ x ∈ items, ∃ e, f x = .error e := by
  rw [← mapM_raises_iff, concatM]
  cases items.mapM f <;> simp [bind, Except.bind, pure, Except.pure]

theorem concatM_eq_ok {g : α → List β} (each : ∀ x ∈ items, f x = .ok (g x)) :
    concatM f items = .ok (items.flatMap g) := by
  rw [concatM, mapM_eq_ok each, List.flatMap_def]
  rfl

theorem mem_concatM (ran : concatM f items = .ok out) {y : β} :
    y ∈ out ↔ ∃ x ∈ items, ∃ own, f x = .ok own ∧ y ∈ own := by
  obtain ⟨lists, mapped, flat⟩ := bind_ok_iff.mp ran
  obtain rfl := Except.ok.inj flat
  obtain ⟨forth, back⟩ := mapM_ok mapped
  rw [List.mem_flatten]
  constructor
  · rintro ⟨own, member, inside⟩
    obtain ⟨x, listed, given⟩ := back own member
    exact ⟨x, listed, own, given, inside⟩
  · rintro ⟨x, listed, own, given, inside⟩
    obtain ⟨own', member, given'⟩ := forth x listed
    obtain rfl := Except.ok.inj (given.symm.trans given')
    exact ⟨own, member, inside⟩

theorem concatM_eq_nil_iff : concatM f items = .ok [] ↔ ∀ x ∈ items, f x = .ok [] := by
  constructor
  · intro ran x member
    cases given : f x with
    | error e =>
      obtain ⟨e', failed⟩ := concatM_raises_iff.mpr ⟨x, member, e, given⟩
      rw [ran] at failed
      cases failed
    | ok own =>
      have empty : own = [] := List.eq_nil_iff_forall_not_mem.mpr fun y inside =>
        List.not_mem_nil ((mem_concatM ran).mpr ⟨x, member, own, given, inside⟩)
      rw [empty]
  · intro each
    rw [concatM_eq_ok each, List.flatMap_eq_nil_iff.mpr fun _ _ => rfl]

end concat

/-- What is asked of each result of `f` beyond `g` is asked of all together. -/
theorem mapM_ok_and {α β ε : Type*} {f g : α → Except ε β} {P : β → Prop}
    (each : ∀ x y, f x = .ok y ↔ g x = .ok y ∧ P y) {items : List α} {out : List β} :
    items.mapM f = .ok out ↔ items.mapM g = .ok out ∧ ∀ y ∈ out, P y := by
  induction items generalizing out with
  | nil => cases out <;> simp [pure, Except.pure]
  | cons x items ih =>
    cases out with
    | nil =>
      rw [List.mapM_cons, List.mapM_cons]
      cases f x <;> cases g x <;> cases items.mapM f <;> cases items.mapM g <;>
        simp [bind, Except.bind, pure, Except.pure]
    | cons y out =>
      have split : ∀ h : α → Except ε β, (x :: items).mapM h = .ok (y :: out) ↔
          h x = .ok y ∧ items.mapM h = .ok out := by
        intro h
        rw [List.mapM_cons]
        cases h x <;> cases items.mapM h <;> simp [bind, Except.bind, pure, Except.pure]
      rw [split f, split g, each, ih, List.forall_mem_cons]
      tauto

end Kitematic.KeyOrder
