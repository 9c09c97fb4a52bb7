import Kitematic.KeyOrder

/-! Sorting and the greatest element by comparisons that may fail. Items are on levels that
always compare; on one level, items of different kinds do not. -/

namespace Kitematic.FallibleOrder
open KeyOrder
variable {α β κ ε : Type*}

/-! Sorting. -/

section sort
variable (lt : α → α → Except ε Bool)

def insertM (x : α) : List α → Except ε (List α)
  | [] => .ok [x]
  | y :: items =>
      match lt y x with
      | .error e => .error e
      | .ok true => (insertM x items).map (y :: ·)
      | .ok false => .ok (x :: y :: items)

/-- A stable sort by `<`. It fails where two items fail to compare that no others tell
apart, as every sort by comparisons does. -/
def sortM : List α → Except ε (List α)
  | [] => .ok []
  | x :: items => (sortM items).bind (insertM lt x)

theorem insertM_map (f : β → α) (x : β) (items : List β) : insertM lt (f x) (items.map f) =
    (insertM (fun a b => lt (f a) (f b)) x items).map (List.map f) := by
  induction items with
  | nil => rfl
  | cons y items ih =>
    simp only [List.map_cons, insertM, ih]
    split
    next => rfl
    next => cases insertM (fun a b => lt (f a) (f b)) x items <;> rfl
    next => rfl

theorem sortM_map (f : β → α) (items : List β) : sortM lt (items.map f) =
    (sortM (fun a b => lt (f a) (f b)) items).map (List.map f) := by
  induction items with
  | nil => rfl
  | cons x items ih =>
    simp only [List.map_cons, sortM, ih]
    cases sortM (fun a b => lt (f a) (f b)) items with
    | error e => rfl
    | ok tail => exact insertM_map lt f x tail

variable {lt}

theorem insertM_ok {x : α} {items : List α} (compared : ∀ y ∈ items, ∃ less, lt y x = .ok less) :
    ∃ out, insertM lt x items = .ok out := by
  induction items with
  | nil => exact ⟨_, rfl⟩
  | cons y items ih =>
    obtain ⟨less, here⟩ := compared y List.mem_cons_self
    obtain ⟨out, later⟩ := ih fun z member => compared z (List.mem_cons_of_mem _ member)
    cases less <;> simp [insertM, here, later, Except.map]

theorem insertM_cons {x y : α} {items out : List α}
    (inserted : insertM lt x (y :: items) = .ok out) :
    (lt y x = .ok true ∧ ∃ tail, insertM lt x items = .ok tail ∧ out = y :: tail) ∨
      (lt y x = .ok false ∧ out = x :: y :: items) := by
  unfold insertM at inserted
  split at inserted
  next => cases inserted
  next less =>
    cases later : insertM lt x items with
    | error e => simp [later, Except.map] at inserted
    | ok tail =>
      simp only [later, Except.map, Except.ok.injEq] at inserted
      exact .inl ⟨less, tail, rfl, inserted.symm⟩
  next less => exact .inr ⟨less, (Except.ok.inj inserted).symm⟩

theorem insertM_perm {x : α} {items out : List α} (inserted : insertM lt x items = .ok out) :
    out.Perm (x :: items) := by
  induction items generalizing out with
  | nil =>
    cases inserted
    exact .refl _
  | cons y items ih =>
    cases insertM_cons inserted with
    | inl behind =>
      obtain ⟨_, tail, later, rfl⟩ := behind
      exact ((ih later).cons y).trans (List.Perm.swap x y items)
    | inr before => exact before.2 ▸ .refl _

theorem sortM_cons {x : α} {items out : List α} (sorted : sortM lt (x :: items) = .ok out) :
    ∃ tail, sortM lt items = .ok tail ∧ insertM lt x tail = .ok out := by
  unfold sortM at sorted
  cases rest : sortM lt items with
  | error e => simp [rest, Except.bind] at sorted
  | ok tail => exact ⟨tail, rfl, by simpa [rest, Except.bind] using sorted⟩

theorem sortM_perm {items out : List α} (sorted : sortM lt items = .ok out) : out.Perm items := by
  induction items generalizing out with
  | nil =>
    cases sorted
    exact .refl _
  | cons x items ih =>
    obtain ⟨tail, rest, inserted⟩ := sortM_cons sorted
    exact (insertM_perm inserted).trans ((ih rest).cons x)

/-- Where no item fails to compare with an earlier one, neither does the sort. -/
theorem sortM_ok {items : List α} (compared : items.Pairwise fun a b => ∃ less, lt b a = .ok less) :
    ∃ out, sortM lt items = .ok out := by
  induction items with
  | nil => exact ⟨_, rfl⟩
  | cons x items ih =>
    have first := List.pairwise_cons.mp compared
    obtain ⟨tail, rest⟩ := ih first.2
    have each : ∀ y ∈ tail, ∃ less, lt y x = .ok less :=
      fun y member => first.1 y ((sortM_perm rest).mem_iff.mp member)
    obtain ⟨out, inserted⟩ := insertM_ok each
    exact ⟨out, by simp [sortM, rest, Except.bind, inserted]⟩

section keyed
variable [LinearOrder κ] {key : α → κ}

theorem insertM_eq {x : α} {items : List α}
    (compared : ∀ y ∈ items, lt y x = .ok (decide (key y < key x))) :
    insertM lt x items = .ok (items.orderedInsert (fun a b => key a ≤ key b) x) := by
  induction items with
  | nil => rfl
  | cons y items ih =>
    have later := ih fun z member => compared z (List.mem_cons_of_mem _ member)
    rw [insertM, compared y List.mem_cons_self, List.orderedInsert_cons]
    by_cases less : key y < key x
    · simp [less, not_le.mpr less, later, Except.map]
    · simp [less, not_lt.mp less]

theorem sortM_eq {items : List α}
    (compared : ∀ a ∈ items, ∀ b ∈ items, lt a b = .ok (decide (key a < key b))) :
    sortM lt items = .ok (sortBy key items) := by
  induction items with
  | nil => rfl
  | cons x items ih =>
    have rest := ih fun a insideA b insideB =>
      compared a (List.mem_cons_of_mem _ insideA) b (List.mem_cons_of_mem _ insideB)
    rw [sortM, rest]
    exact insertM_eq fun y member => compared y
      (List.mem_cons_of_mem _ ((sortBy_perm key items).mem_iff.mp member)) x List.mem_cons_self

end keyed

/-- Items of different levels compare by them, and those of one level fail to compare where
they are of different kinds. -/
structure Levelled [LinearOrder κ] (P : α → Prop) (lt : α → α → Except ε Bool) (level : α → κ)
    (kind : α → β) : Prop where
  differ : ∀ a b, P a → P b → level a ≠ level b → lt a b = .ok (decide (level a < level b))
  apart : ∀ a b, P a → P b → level a = level b → kind a ≠ kind b → ∃ e, lt a b = .error e

def Unmixed (level : α → κ) (kind : α → β) (items : List α) : Prop :=
  ∀ a ∈ items, ∀ b ∈ items, level a = level b → kind a = kind b

section levelled
variable [LinearOrder κ] {P : α → Prop} {level : α → κ} {kind : α → β} {items : List α}

theorem Levelled.le_of_compared (levelled : Levelled P lt level kind) {a b : α} (holdsA : P a)
    (holdsB : P b) {less : Bool} (compared : lt a b = .ok less) :
    if less then level a ≤ level b else level b ≤ level a := by
  by_cases same : level a = level b
  · cases less <;> simp [same]
  · have differ := (levelled.differ a b holdsA holdsB same).symm.trans compared
    cases less with
    | true => simpa using (of_decide_eq_true (Except.ok.inj differ)).le
    | false => simpa using not_lt.mp (of_decide_eq_false (Except.ok.inj differ))

theorem Levelled.insertM_pairwise (levelled : Levelled P lt level kind) {x : α} {out : List α}
    (holds : ∀ y ∈ items, P y) (first : P x)
    (ordered : items.Pairwise fun a b => level a ≤ level b)
    (inserted : insertM lt x items = .ok out) : out.Pairwise fun a b => level a ≤ level b := by
  induction items generalizing out with
  | nil =>
    cases inserted
    exact List.pairwise_singleton _ _
  | cons y items ih =>
    have below := List.pairwise_cons.mp ordered
    have here := holds y List.mem_cons_self
    cases insertM_cons inserted with
    | inl behind =>
      obtain ⟨less, tail, later, rfl⟩ := behind
      have rest := ih (fun z member => holds z (List.mem_cons_of_mem _ member)) below.2 later
      refine List.pairwise_cons.mpr ⟨fun z member => ?_, rest⟩
      cases List.mem_cons.mp ((insertM_perm later).mem_iff.mp member) with
      | inl same => exact same ▸ levelled.le_of_compared here first less
      | inr old => exact below.1 z old
    | inr before =>
      obtain ⟨less, rfl⟩ := before
      have above := levelled.le_of_compared here first less
      refine List.pairwise_cons.mpr ⟨fun z member => ?_, ordered⟩
      cases List.mem_cons.mp member with
      | inl same => exact same ▸ above
      | inr old => exact le_trans above (below.1 z old)

theorem Levelled.sortM_pairwise (levelled : Levelled P lt level kind) {out : List α}
    (holds : ∀ y ∈ items, P y) (sorted : sortM lt items = .ok out) :
    out.Pairwise fun a b => level a ≤ level b := by
  induction items generalizing out with
  | nil =>
    cases sorted
    exact List.Pairwise.nil
  | cons x items ih =>
    obtain ⟨tail, rest, inserted⟩ := sortM_cons sorted
    have later : ∀ y ∈ items, P y := fun y member => holds y (List.mem_cons_of_mem _ member)
    have inTail : ∀ y ∈ tail, P y := fun y member => later y ((sortM_perm rest).mem_iff.mp member)
    exact levelled.insertM_pairwise inTail (holds x List.mem_cons_self) (ih later rest) inserted

theorem Levelled.insertM_raises (levelled : Levelled P lt level kind) {x : α}
    (holds : ∀ y ∈ items, P y) (first : P x)
    (ordered : items.Pairwise fun a b => level a ≤ level b)
    (other : ∀ y ∈ items, level y = level x → kind y ≠ kind x)
    (met : ∃ y ∈ items, level y = level x) : ∃ e, insertM lt x items = .error e := by
  induction items with
  | nil => simp at met
  | cons y items ih =>
    have below := List.pairwise_cons.mp ordered
    have here := holds y List.mem_cons_self
    rcases lt_trichotomy (level y) (level x) with less | same | more
    · have rest : ∃ z ∈ items, level z = level x := by
        obtain ⟨z, member, same⟩ := met
        cases List.mem_cons.mp member with
        | inl head => exact absurd (head ▸ same) less.ne
        | inr inside => exact ⟨z, inside, same⟩
      obtain ⟨e, raised⟩ := ih (fun z member => holds z (List.mem_cons_of_mem _ member)) below.2
        (fun z member => other z (List.mem_cons_of_mem _ member)) rest
      exact ⟨e, by simp [insertM, levelled.differ y x here first less.ne, less, raised, Except.map]⟩
    · obtain ⟨e, raised⟩ := levelled.apart y x here first same (other y List.mem_cons_self same)
      exact ⟨e, by simp [insertM, raised]⟩
    · obtain ⟨z, member, same⟩ := met
      exfalso
      cases List.mem_cons.mp member with
      | inl head => exact more.ne' (head ▸ same)
      | inr inside => exact absurd (same ▸ below.1 z inside) (not_le.mpr more)

theorem Levelled.unmixed (levelled : Levelled P lt level kind) {out : List α}
    (holds : ∀ y ∈ items, P y) (sorted : sortM lt items = .ok out) :
    Unmixed level kind items := by
  induction items generalizing out with
  | nil => exact fun a member => absurd member List.not_mem_nil
  | cons x items ih =>
    obtain ⟨tail, rest, inserted⟩ := sortM_cons sorted
    have later : ∀ y ∈ items, P y := fun y member => holds y (List.mem_cons_of_mem _ member)
    have unmixed := ih later rest
    have first : ∀ y ∈ items, level y = level x → kind y = kind x := by
      intro y member same
      by_contra different
      have inside := (sortM_perm rest).mem_iff.mpr member
      have other : ∀ z ∈ tail, level z = level x → kind z ≠ kind x := by
        intro z found here
        have old := (sortM_perm rest).mem_iff.mp found
        exact (unmixed z old y member (here.trans same.symm)).trans_ne different
      have inTail : ∀ z ∈ tail, P z :=
        fun z found => later z ((sortM_perm rest).mem_iff.mp found)
      obtain ⟨e, raised⟩ := levelled.insertM_raises inTail (holds x List.mem_cons_self)
        (levelled.sortM_pairwise later rest) other ⟨y, inside, same⟩
      rw [raised] at inserted
      cases inserted
    intro a insideA b insideB same
    cases List.mem_cons.mp insideA with
    | inl isA =>
      cases List.mem_cons.mp insideB with
      | inl isB => rw [isA, isB]
      | inr inB => exact isA ▸ (first b inB (isA ▸ same.symm)).symm
    | inr inA =>
      cases List.mem_cons.mp insideB with
      | inl isB => exact isB ▸ first a inA (isB ▸ same)
      | inr inB => exact unmixed a inA b inB same

end levelled

end sort

/-! The greatest element. -/

section greatest
variable (lt : α → α → Except ε Bool)

def maxFrom (best : α) : List α → Except ε α
  | [] => .ok best
  | y :: items =>
      match lt best y with
      | .error e => .error e
      | .ok less => maxFrom (if less then y else best) items

def firstMaxM : List α → Except ε (Option α)
  | [] => .ok none
  | x :: items => (maxFrom lt x items).map some

theorem maxFrom_map (f : β → α) (best : β) (items : List β) : maxFrom lt (f best) (items.map f) =
    (maxFrom (fun a b => lt (f a) (f b)) best items).map f := by
  induction items generalizing best with
  | nil => rfl
  | cons y items ih =>
    simp only [List.map_cons, maxFrom, ← apply_ite f, ih]
    split <;> rfl

theorem firstMaxM_map (f : β → α) (items : List β) : firstMaxM lt (items.map f) =
    (firstMaxM (fun a b => lt (f a) (f b)) items).map (Option.map f) := by
  cases items with
  | nil => rfl
  | cons x items =>
    simp only [List.map_cons, firstMaxM, maxFrom_map]
    cases maxFrom (fun a b => lt (f a) (f b)) x items <;> rfl

variable {lt}

theorem maxFrom_mem {items : List α} {best top : α}
    (found : maxFrom lt best items = .ok top) : top ∈ best :: items := by
  induction items generalizing best with
  | nil => cases found; exact List.mem_cons_self
  | cons y items ih =>
    unfold maxFrom at found
    cases below : lt best y with
    | error e => simp [below] at found
    | ok b =>
      simp only [below] at found
      cases List.mem_cons.mp (ih found) with
      | inl same => cases b <;> simp [same]
      | inr inside => exact List.mem_cons_of_mem _ (List.mem_cons_of_mem _ inside)

theorem firstMaxM_mem {items : List α} {top : α}
    (found : firstMaxM lt items = .ok (some top)) : top ∈ items := by
  cases items with
  | nil => cases found
  | cons x items =>
    cases greatest : maxFrom lt x items with
    | error e => simp [firstMaxM, greatest, Except.map] at found
    | ok y =>
      simp only [firstMaxM, greatest, Except.map, Except.ok.injEq, Option.some.injEq] at found
      exact found ▸ maxFrom_mem greatest

variable [LinearOrder κ] {key : α → κ}

theorem maxFrom_eq {best : α} {items : List α}
    (compared : ∀ a ∈ best :: items, ∀ b ∈ items, lt a b = .ok (decide (key a < key b))) :
    ∃ top ∈ best :: items, maxFrom lt best items = .ok top ∧
      ∀ y ∈ best :: items, key y ≤ key top := by
  induction items generalizing best with
  | nil => exact ⟨best, List.mem_cons_self, rfl, by simp⟩
  | cons y items ih =>
    have here := compared best List.mem_cons_self y List.mem_cons_self
    have inside : ∀ a ∈ (if key best < key y then y else best) :: items, a ∈ best :: y :: items := by
      intro a member
      split at member
      · exact List.mem_cons_of_mem _ member
      · cases List.mem_cons.mp member with
        | inl same => exact same ▸ List.mem_cons_self
        | inr later => exact List.mem_cons_of_mem _ (List.mem_cons_of_mem _ later)
    obtain ⟨top, member, found, greatest⟩ := ih fun a memberA b memberB =>
      compared a (inside a memberA) b (List.mem_cons_of_mem _ memberB)
    refine ⟨top, inside top member, by simpa [maxFrom, here] using found, fun z memberZ => ?_⟩
    have above := greatest _ List.mem_cons_self
    have both : key best ≤ key (if key best < key y then y else best) ∧
        key y ≤ key (if key best < key y then y else best) := by
      split
      next less => exact ⟨less.le, le_rfl⟩
      next less => exact ⟨le_rfl, not_lt.mp less⟩
    cases List.mem_cons.mp memberZ with
    | inl same => exact same ▸ both.1.trans above
    | inr later =>
      cases List.mem_cons.mp later with
      | inl same => exact same ▸ both.2.trans above
      | inr rest => exact greatest z (List.mem_cons_of_mem _ rest)

theorem firstMaxM_eq {items : List α} (filled : items ≠ [])
    (compared : ∀ a ∈ items, ∀ b ∈ items, lt a b = .ok (decide (key a < key b))) :
    ∃ top ∈ items, firstMaxM lt items = .ok (some top) ∧ ∀ y ∈ items, key y ≤ key top := by
  cases items with
  | nil => exact absurd rfl filled
  | cons x items =>
    obtain ⟨top, member, found, greatest⟩ := maxFrom_eq fun a memberA b memberB =>
      compared a memberA b (List.mem_cons_of_mem _ memberB)
    exact ⟨top, member, by simp [firstMaxM, found, Except.map], greatest⟩

end greatest

end Kitematic.FallibleOrder
