import Kitematic.Dict
import Kitematic.ExtensionManifests
import Kitematic.PyText
import Kitematic.Trace
import Mathlib.Data.List.Chain

/-! The extension registry of the marketplace, and the lifecycle of its listings. A listing
is stored with the text of its status; the ids and times of the calls are drawn outside. -/

namespace Kitematic.ExtensionRegistry
open Dictionary ExtensionManifests PyText Trace

inductive ExtensionListingStatus where
  | draft | submitted | underReview | approved | published | deprecated | removed
  deriving DecidableEq

namespace ExtensionListingStatus

def all : List ExtensionListingStatus :=
  [.draft, .submitted, .underReview, .approved, .published, .deprecated, .removed]

def value : ExtensionListingStatus → String
  | .draft => "DRAFT"
  | .submitted => "SUBMITTED"
  | .underReview => "UNDER_REVIEW"
  | .approved => "APPROVED"
  | .published => "PUBLISHED"
  | .deprecated => "DEPRECATED"
  | .removed => "REMOVED"

def ofValue (text : String) : Option ExtensionListingStatus := all.find? fun s => s.value = text

/-- `TRANSITIONS`, the valid transitions. -/
def transitions : ExtensionListingStatus → List ExtensionListingStatus
  | .draft => [.submitted, .removed]
  | .submitted => [.underReview, .removed]
  | .underReview => [.approved, .draft, .removed]
  | .approved => [.published, .deprecated, .removed]
  | .published => [.deprecated, .removed]
  | .deprecated => [.removed]
  | .removed => []

def canTransition (status newStatus : ExtensionListingStatus) : Bool :=
  newStatus ∈ status.transitions

theorem ofValue_value (s : ExtensionListingStatus) : ofValue s.value = some s := by
  cases s <;> decide +kernel

theorem value_of_ofValue {text : String} {s : ExtensionListingStatus}
    (known : ofValue text = some s) : s.value = text := by
  simpa using List.find?_some known

end ExtensionListingStatus

open ExtensionListingStatus

structure Listing where
  listingId : String
  manifest : ExtensionManifest
  status : String
  publisherId : String
  createdAt : String
  updatedAt : String

structure InMemoryExtensionRegistry where
  listings : Dict String Listing := .empty

def listingIdOf (hex : String) : String := "lst-" ++ String.ofList (hex.toList.take 12)

namespace InMemoryExtensionRegistry

def register (r : InMemoryExtensionRegistry) (manifest : ExtensionManifest) (hex now : String) :
    InMemoryExtensionRegistry × String :=
  let listingId := listingIdOf hex
  (⟨r.listings.set listingId
    { listingId := listingId
      manifest := manifest
      status := "DRAFT"
      publisherId := manifest.publisherId
      createdAt := now
      updatedAt := now }⟩, listingId)

def unregister (r : InMemoryExtensionRegistry) (listingId : String) :
    InMemoryExtensionRegistry × Bool :=
  if r.listings.contains listingId then (⟨r.listings.erase listingId⟩, true) else (r, false)

/-- Any text is taken for a status. -/
def updateStatus (r : InMemoryExtensionRegistry) (listingId status now : String) :
    InMemoryExtensionRegistry × Bool :=
  match r.listings.get listingId with
  | some data =>
      (⟨r.listings.set listingId { data with status := status, updatedAt := now }⟩, true)
  | none => (r, false)

theorem get_unregister (r : InMemoryExtensionRegistry) (listingId id : String) :
    (r.unregister listingId).1.listings.get id =
      if id = listingId then none else r.listings.get id := by
  unfold unregister
  split
  · exact Dict.get_erase _ _ _
  next missing =>
    split
    next same => simpa [same, Dict.contains] using missing
    next => rfl

theorem get_updateStatus (r : InMemoryExtensionRegistry) (listingId status now id : String) :
    (r.updateStatus listingId status now).1.listings.get id =
      if id = listingId then
        (r.listings.get id).map fun data => { data with status := status, updatedAt := now }
      else r.listings.get id := by
  unfold updateStatus
  cases stored : r.listings.get listingId with
  | some data =>
    rw [Dict.get_set]
    split
    next same => simp [same, stored]
    next => rfl
  | none =>
    dsimp only
    split
    next same => simp [same, stored]
    next => rfl

end InMemoryExtensionRegistry

structure Filters where
  extensionType : Option String := none
  publisherId : Option String := none
  status : Option String := none

inductive Call where
  | register (manifest : ExtensionManifest) (hex now : String)
  | unregister (listingId : String)
  | get (listingId : String)
  | list (filters : Filters) (limit offset : Int)
  | updateStatus (listingId status now : String)

def after (r : InMemoryExtensionRegistry) : Call → InMemoryExtensionRegistry
  | .register manifest hex now => (r.register manifest hex now).1
  | .unregister listingId => (r.unregister listingId).1
  | .get _ | .list _ _ _ => r
  | .updateStatus listingId status now => (r.updateStatus listingId status now).1

structure History where
  registry : InMemoryExtensionRegistry := {}
  trail : String → List String := fun _ => []

def step (h : History) (call : Call) : History :=
  ⟨after h.registry call,
    match call with
    | .register _ hex _ => Function.update h.trail (listingIdOf hex) ["DRAFT"]
    | .unregister listingId => Function.update h.trail listingId []
    | .get _ | .list _ _ _ => h.trail
    | .updateStatus listingId status _ =>
        if h.registry.listings.contains listingId then
          Function.update h.trail listingId (h.trail listingId ++ [status])
        else h.trail⟩

def take (h : History) (call : Call) : Option History := some (step h call)

/-- The table has the move from one text to the other. -/
def legal (status newStatus : String) : Bool :=
  match ofValue status, ofValue newStatus with
  | some s, some t => s.canTransition t
  | _, _ => false

/-- The statuses follow the table from `DRAFT` on. -/
def Lawful (trail : List String) : Prop :=
  (∀ first, trail.head? = some first → first = "DRAFT") ∧
    trail.IsChain fun status newStatus => legal status newStatus = true

/-- Whenever it is published it was approved before. -/
def Reviewed (trail : List String) : Prop :=
  ∀ front back, trail = front ++ "PUBLISHED" :: back → "APPROVED" ∈ front

def Orderly (h : History) : Prop := ∀ id, Lawful (h.trail id) ∧ Reviewed (h.trail id)

/-- An update that the table does not have returns `False` and changes nothing. -/
def Refused (_past : List Call) (h : History) : Call → Prop
  | .updateStatus listingId status now => ∀ data, h.registry.listings.get listingId = some data →
      legal data.status status = false →
        h.registry.updateStatus listingId status now = (h.registry, false)
  | _ => True

/-- An update of a registered listing is one that the table has. -/
def InTable (_past : List Call) (h : History) : Call → Prop
  | .updateStatus listingId status _ => ∀ data, h.registry.listings.get listingId = some data →
      legal data.status status = true
  | _ => True

theorem legal_published {status : String} (move : legal status "PUBLISHED" = true) :
    status = "APPROVED" := by
  unfold legal at move
  cases known : ofValue status with
  | none => simp [known] at move
  | some s =>
    have published : ofValue "PUBLISHED" = some .published := ofValue_value .published
    rw [known, published] at move
    have source : s = .approved := by
      revert move
      cases s <;> decide +kernel
    rw [← value_of_ofValue known, source, value]

/-- The only way to `PUBLISHED` is from `APPROVED`. -/
theorem reviewed_of_lawful {trail : List String} (lawful : Lawful trail) : Reviewed trail := by
  rintro front back rfl
  rcases List.eq_nil_or_concat' front with rfl | ⟨front, last, rfl⟩
  · exact absurd (lawful.1 "PUBLISHED" rfl) (by decide +kernel)
  · have chain := lawful.2
    rw [List.append_assoc, List.isChain_append] at chain
    have move := (List.isChain_cons_cons.mp chain.2.1).1
    rw [legal_published move]
    exact List.mem_append_right _ List.mem_cons_self

theorem lawful_draft : Lawful ["DRAFT"] := by simp [Lawful]

theorem lawful_nil : Lawful [] := by simp [Lawful]

theorem lawful_snoc {trail : List String} {status newStatus : String} (lawful : Lawful trail)
    (last : trail.getLast? = some status) (move : legal status newStatus = true) :
    Lawful (trail ++ [newStatus]) := by
  constructor
  · intro first starts
    refine lawful.1 first ?_
    cases trail with
    | nil => cases last
    | cons head rest => exact starts
  · rw [List.isChain_append]
    refine ⟨lawful.2, List.isChain_singleton _, ?_⟩
    simp [last, move]

def Current (_past : List Call) (h : History) : Prop :=
  ∀ id data, h.registry.listings.get id = some data → (h.trail id).getLast? = some data.status

theorem current_step {past : List Call} {h : History} (current : Current past h) (call : Call) :
    Current (call :: past) (step h call) := by
  intro id data found
  cases call with
  | register manifest hex now =>
    simp only [step, after, InMemoryExtensionRegistry.register, Dict.get_set] at found ⊢
    by_cases same : id = listingIdOf hex
    · simp only [same, if_true, Option.some.injEq] at found
      simp [same, ← found]
    · simp only [same, if_false] at found
      simpa [Function.update, same] using current id data found
  | unregister listingId =>
    simp only [step, after, InMemoryExtensionRegistry.get_unregister] at found ⊢
    split at found
    next => cases found
    next other => simpa [Function.update, other] using current id data found
  | get listingId => exact current id data found
  | list filters limit offset => exact current id data found
  | updateStatus listingId status now =>
    simp only [step, after, InMemoryExtensionRegistry.get_updateStatus] at found ⊢
    split at found
    next same =>
      obtain ⟨before, stored, rfl⟩ := Option.map_eq_some_iff.mp found
      have present : h.registry.listings.contains listingId = true := by
        rw [Dict.contains, ← same, stored, Option.isSome_some]
      simp [present, same]
    next other =>
      have kept := current id data found
      split
      · simpa [Function.update, other] using kept
      · exact kept

theorem orderly_step_iff {past : List Call} {h : History} (current : Current past h)
    (orderly : Orderly h) (call : Call) :
    Orderly (step h call) ∧ Refused past h call ↔ InTable past h call := by
  have moved : ∀ id trail, Lawful trail →
      ∀ other, Lawful (Function.update h.trail id trail other) ∧
        Reviewed (Function.update h.trail id trail other) := by
    intro id trail lawful other
    by_cases same : other = id
    · subst same
      simpa using ⟨lawful, reviewed_of_lawful lawful⟩
    · simpa [Function.update, same] using orderly other
  cases call with
  | register manifest hex now =>
    simpa [Refused, InTable, Orderly, step] using moved _ _ lawful_draft
  | unregister listingId => simpa [Refused, InTable, Orderly, step] using moved _ _ lawful_nil
  | get listingId => exact ⟨fun _ => trivial, fun _ => ⟨orderly, trivial⟩⟩
  | list filters limit offset => exact ⟨fun _ => trivial, fun _ => ⟨orderly, trivial⟩⟩
  | updateStatus listingId status now =>
    cases stored : h.registry.listings.get listingId with
    | none => simpa [Refused, InTable, Orderly, step, Dict.contains, stored] using orderly
    | some data =>
      simp only [Refused, InTable, stored, Option.some.injEq, forall_eq']
      constructor
      · rintro ⟨_, refused⟩
        by_contra move
        have answer := congrArg Prod.snd (refused (Bool.not_eq_true _ ▸ move))
        simp [InMemoryExtensionRegistry.updateStatus, stored] at answer
      · intro move
        refine ⟨?_, fun missing => absurd (move.symm.trans missing) (by decide)⟩
        simpa [Orderly, step, Dict.contains, stored] using
          moved listingId _ (lawful_snoc (orderly listingId).1 (current listingId data stored) move)

/-- In every history of calls all trails follow the table and every other update is refused
if and only if each update of a registered listing is one that the table has. -/
theorem lifecycle_followed_iff (calls : List Call) :
    AllStates take Orderly {} calls ∧ EachStep take Refused [] {} calls ↔
      EachStep take InTable [] {} calls := by
  have total : ∀ h call, ∃ next, take h call = some next := fun _ _ => ⟨_, rfl⟩
  obtain ⟨last, ran⟩ := run_isSome total {} calls
  refine allStates_and_eachStep_iff (I := Current) ?_ ?_ ?_ ?_ ran
  · intro past h call next current stepped
    obtain rfl : step h call = next := Option.some.inj stepped
    exact current_step current call
  · intro past h call next current orderly stepped
    obtain rfl : step h call = next := Option.some.inj stepped
    rw [and_comm]
    exact orderly_step_iff current orderly call
  · intro id data found
    cases found
  · exact fun id => ⟨lawful_nil, reviewed_of_lawful lawful_nil⟩

def sampleManifest : ExtensionManifest := ⟨"acme-tools", "Tools", "1.0.0", "acme", ["tool.execute"]⟩

def sampleHistory : List Call :=
  [.register sampleManifest "0123456789abcdef0123456789abcdef" "2026-01-01T00:00:00",
    .updateStatus "lst-0123456789ab" "PUBLISHED" "2026-01-02T00:00:00"]

/-- A draft is published without a review. -/
theorem draft_published :
    (sampleHistory.foldl step {}).trail "lst-0123456789ab" = ["DRAFT", "PUBLISHED"] ∧
      ¬ (AllStates take Orderly {} sampleHistory ∧
        EachStep take Refused [] {} sampleHistory) := by
  have trail : (sampleHistory.foldl step {}).trail "lst-0123456789ab" = ["DRAFT", "PUBLISHED"] := by
    decide +kernel
  refine ⟨trail, fun followed => ?_⟩
  have last : Orderly (sampleHistory.foldl step {}) :=
    followed.1.last (run_total step {} sampleHistory)
  have reviewed := (last "lst-0123456789ab").2 ["DRAFT"] []
  rw [trail] at reviewed
  exact absurd (reviewed rfl) (by decide +kernel)

end Kitematic.ExtensionRegistry
