import Kitematic.ExtensionRegistry

/-! Reading the extension registry. A listing that is returned has its status converted, which
raises on a text that is no status; the filters are gone through for each listing in turn, and
a page is a slice of all that is left. -/

namespace Kitematic.ExtensionReads
open Dictionary ExtensionManifests ExtensionRegistry ExtensionListingStatus PyText Trace

inductive ReadError where
  | valueError (text : String)
  | attributeError (text : String)

structure ListingView where
  listingId : String
  manifest : ExtensionManifest
  status : ExtensionListingStatus
  publisherId : String
  createdAt : String
  updatedAt : String

def ListingView.data (view : ListingView) : Listing :=
  ⟨view.listingId, view.manifest, view.status.value, view.publisherId, view.createdAt,
    view.updatedAt⟩

def listingFromData (data : Listing) : Except ReadError ListingView :=
  match ofValue data.status with
  | some status => .ok ⟨data.listingId, data.manifest, status, data.publisherId, data.createdAt,
      data.updatedAt⟩
  | none => .error (.valueError (pyRepr data.status ++ " is not a valid ExtensionListingStatus"))

/-- `manifest.extension_type.value`: a manifest has no such attribute. -/
def extensionTypeValue (_manifest : ExtensionManifest) : Except ReadError String :=
  .error (.attributeError "'ExtensionManifest' object has no attribute 'extension_type'")

/-- A filter that is given: `None` and `""` are not. -/
def given (filter : Option String) : Option String :=
  filter.bind fun text => if text = "" then none else some text

def differs (filter : Option String) (value : String) : Bool :=
  (given filter).any fun text => value ≠ text

def skipped (filters : Filters) (data : Listing) : Except ReadError Bool :=
  let others := differs filters.publisherId data.publisherId || differs filters.status data.status
  match given filters.extensionType with
  | some text => (extensionTypeValue data.manifest).map fun value => value ≠ text || others
  | none => .ok others

def collect (filters : Filters) : List Listing → Except ReadError (List ListingView)
  | [] => .ok []
  | data :: rest => do
      if ← skipped filters data then collect filters rest
      else
        let view ← listingFromData data
        let views ← collect filters rest
        return view :: views

/-- `items[start:stop]`: a negative bound counts from the end. -/
def slice {α : Type} (items : List α) (start stop : Int) : List α :=
  let bound (i : Int) : ℕ := min (if i < 0 then i + items.length else i).toNat items.length
  (items.drop (bound start)).take (bound stop - bound start)

def get (r : InMemoryExtensionRegistry) (listingId : String) :
    Except ReadError (Option ListingView) :=
  match r.listings.get listingId with
  | none => .ok none
  | some data => (listingFromData data).map some

def list (r : InMemoryExtensionRegistry) (filters : Filters) (limit offset : Int) :
    Except ReadError (List ListingView) :=
  (collect filters r.listings.values).map fun results => slice results offset (offset + limit)

/-! What a reader may expect. -/

/-- The listing satisfies every filter that is given; no manifest satisfies one on its type. -/
def satisfies (filters : Filters) (data : Listing) : Bool :=
  (given filters.extensionType).isNone && !differs filters.publisherId data.publisherId &&
    !differs filters.status data.status

def registered : List Call → List String
  | [] => []
  | .register _ hex _ :: past => registered past ++ [listingIdOf hex]
  | .unregister listingId :: past => (registered past).filter fun id => id ≠ listingId
  | _ :: past => registered past

/-- The listings that satisfy the filters, in the order of their registration. -/
def wanted (past : List Call) (r : InMemoryExtensionRegistry) (filters : Filters) :
    List Listing :=
  ((registered past).filterMap r.listings.get).filter (satisfies filters)

def GetRight (r : InMemoryExtensionRegistry) (listingId : String) : Prop :=
  ∃ found, get r listingId = .ok found ∧
    found.map ListingView.data = r.listings.get listingId

def page (r : InMemoryExtensionRegistry) (filters : Filters) (size number : ℕ) : List Listing :=
  match list r filters size (number * size : ℕ) with
  | .ok views => views.map ListingView.data
  | .error _ => []

structure ListRight (past : List Call) (r : InMemoryExtensionRegistry) (filters : Filters) :
    Prop where
  returns : ∀ limit offset, ∃ views, list r filters limit offset = .ok views
  complete : ∀ limit : ℕ, (wanted past r filters).length ≤ limit →
    ∃ views, list r filters limit 0 = .ok views ∧
      views.map ListingView.data = wanted past r filters
  pages : ∀ size, 0 < size → ∀ pages, (wanted past r filters).length ≤ pages * size →
    (List.range pages).flatMap (page r filters size) = wanted past r filters

def Known (data : Listing) : Prop := ∃ status : ExtensionListingStatus, status.value = data.status

/-- No filter on the type is given unless there is no listing, and every listing that the
others leave has one of the seven statuses. -/
def ListClear (r : InMemoryExtensionRegistry) (filters : Filters) : Prop :=
  (given filters.extensionType = none ∨ r.listings.values = []) ∧
    ∀ data ∈ r.listings.values, satisfies filters data = true → Known data

theorem listingFromData_known {data : Listing} (known : Known data) :
    ∃ view, listingFromData data = .ok view ∧ view.data = data := by
  obtain ⟨status, same⟩ := known
  simp only [listingFromData, ← same, ofValue_value]
  refine ⟨_, rfl, ?_⟩
  simp [ListingView.data, same]

theorem known_of_listingFromData {data : Listing} {view : ListingView}
    (read : listingFromData data = .ok view) : Known data := by
  unfold listingFromData at read
  split at read
  next status known => exact ⟨status, value_of_ofValue known⟩
  next => cases read

theorem skipped_untyped {filters : Filters} (untyped : given filters.extensionType = none)
    (data : Listing) : skipped filters data = .ok (!satisfies filters data) := by
  simp [skipped, satisfies, untyped]

theorem collect_ok {filters : Filters} {items : List Listing}
    (untyped : given filters.extensionType = none)
    (known : ∀ data ∈ items, satisfies filters data = true → Known data) :
    ∃ views, collect filters items = .ok views ∧
      views.map ListingView.data = items.filter (satisfies filters) := by
  induction items with
  | nil => exact ⟨[], rfl, rfl⟩
  | cons data rest ih =>
    obtain ⟨views, later, same⟩ := ih fun data member => known data (List.mem_cons_of_mem _ member)
    simp only [collect, skipped_untyped untyped]
    cases kept : satisfies filters data with
    | false => exact ⟨views, later, by simp [kept, same]⟩
    | true =>
      obtain ⟨view, read, shows⟩ :=
        listingFromData_known (known data List.mem_cons_self kept)
      refine ⟨view :: views, ?_, by simp [kept, same, shows]⟩
      simp only [read, later, bind, Except.bind, Bool.not_true, Bool.false_eq_true, if_false]
      rfl

theorem collect_typed {filters : Filters} {text : String}
    (typed : given filters.extensionType = some text) {items : List Listing}
    {views : List ListingView} (collected : collect filters items = .ok views) : items = [] := by
  cases items with
  | nil => rfl
  | cons data rest =>
    simp only [collect, skipped, typed, extensionTypeValue, Except.map, bind, Except.bind] at collected
    cases collected

theorem known_of_collect {filters : Filters} (untyped : given filters.extensionType = none)
    {items : List Listing} {views : List ListingView}
    (collected : collect filters items = .ok views) :
    ∀ data ∈ items, satisfies filters data = true → Known data := by
  induction items generalizing views with
  | nil => simp
  | cons first rest ih =>
    simp only [collect, skipped_untyped untyped, bind, Except.bind] at collected
    intro data member kept
    cases chosen : satisfies filters first with
    | false =>
      simp only [chosen, Bool.not_false, if_true] at collected
      rcases List.mem_cons.mp member with rfl | later
      · exact absurd (kept.symm.trans chosen) (by decide)
      · exact ih collected data later kept
    | true =>
      simp only [chosen, Bool.not_true, Bool.false_eq_true, if_false] at collected
      split at collected
      next => cases collected
      next view read =>
        split at collected
        next => cases collected
        next views' more =>
          rcases List.mem_cons.mp member with rfl | later
          · exact known_of_listingFromData read
          · exact ih more data later kept

/-! Slices and pages. -/

theorem slice_nat {α : Type} (items : List α) (start stop : ℕ) :
    slice items start stop = (items.drop start).take (stop - start) := by
  have bound : ∀ n : ℕ, (if (n : Int) < 0 then (n : Int) + items.length else n).toNat = n := by
    intro n
    split <;> omega
  unfold slice
  simp only [bound]
  by_cases inside : start ≤ items.length
  · rw [Nat.min_eq_left inside, List.take_eq_take_iff, List.length_drop]
    omega
  · have outside : items.length ≤ start := by omega
    rw [Nat.min_eq_right outside, List.drop_length, List.drop_eq_nil_of_le outside, List.take_nil,
      List.take_nil]

theorem flatMap_pages {α : Type} (items : List α) (size pages : ℕ) :
    ((List.range pages).flatMap fun number => (items.drop (number * size)).take size) =
      items.take (pages * size) := by
  induction pages with
  | zero => simp
  | succ pages ih =>
    rw [List.range_succ, List.flatMap_append, ih, List.flatMap_singleton, Nat.succ_mul,
      List.take_add]

/-! The registry holds its listings in the order of their registration. -/

def draw (r : InMemoryExtensionRegistry) (call : Call) : Option InMemoryExtensionRegistry :=
  match call with
  | .register _ hex _ => if r.listings.contains (listingIdOf hex) then none else some (after r call)
  | _ => some (after r call)

def Ordered (past : List Call) (r : InMemoryExtensionRegistry) : Prop :=
  r.listings.keys = registered past

theorem ordered_draw (past : List Call) (r : InMemoryExtensionRegistry) (call : Call)
    (next : InMemoryExtensionRegistry) (ordered : Ordered past r)
    (stepped : draw r call = some next) : Ordered (call :: past) next := by
  unfold Ordered at *
  cases call with
  | register manifest hex now =>
    simp only [draw] at stepped
    split at stepped
    next => cases stepped
    next fresh =>
      obtain rfl := Option.some.inj stepped
      simp [after, InMemoryExtensionRegistry.register, Dict.keys_set, fresh, ordered, registered]
  | unregister listingId =>
    obtain rfl := Option.some.inj stepped
    simp only [after, InMemoryExtensionRegistry.unregister, registered, ← ordered]
    split
    · exact Dict.keys_erase _ _
    next missing =>
      refine (List.filter_eq_self.mpr fun id member => ?_).symm
      simp only [decide_eq_true_eq]
      rintro rfl
      exact missing (Dict.mem_keys.mp member)
  | get listingId => exact Option.some.inj stepped ▸ ordered
  | list filters limit offset => exact Option.some.inj stepped ▸ ordered
  | updateStatus listingId status now =>
    obtain rfl := Option.some.inj stepped
    simp only [after, InMemoryExtensionRegistry.updateStatus, registered, ← ordered]
    cases stored : r.listings.get listingId with
    | none => rfl
    | some data => simp [Dict.keys_set, Dict.contains, stored]

theorem ordered_run {calls : List Call} {r : InMemoryExtensionRegistry}
    (ran : run draw {} calls = some r) : Ordered calls.reverse r := by
  have start : Ordered [] {} := rfl
  have held := run_history ordered_draw start ran
  rwa [List.append_nil] at held

theorem wanted_eq {past : List Call} {r : InMemoryExtensionRegistry} (ordered : Ordered past r)
    (filters : Filters) : wanted past r filters = r.listings.values.filter (satisfies filters) := by
  rw [wanted, ← ordered, Dict.filterMap_get_keys]

theorem getRight_iff {r : InMemoryExtensionRegistry} {listingId : String} :
    GetRight r listingId ↔ ∀ data, r.listings.get listingId = some data → Known data := by
  unfold GetRight get
  cases r.listings.get listingId with
  | none => simp
  | some data =>
    simp only [Option.some.injEq, forall_eq']
    constructor
    · rintro ⟨found, read, _⟩
      cases shown : listingFromData data with
      | error e => simp [shown, Except.map] at read
      | ok view => exact known_of_listingFromData shown
    · intro known
      obtain ⟨view, read, shows⟩ := listingFromData_known known
      exact ⟨some view, by rw [read]; rfl, by simp [shows]⟩

theorem listRight_of_clear {past : List Call} {r : InMemoryExtensionRegistry} {filters : Filters}
    (ordered : Ordered past r) (clear : ListClear r filters) : ListRight past r filters := by
  obtain ⟨views, collected, shows⟩ : ∃ views, collect filters r.listings.values = .ok views ∧
      views.map ListingView.data = wanted past r filters := by
    rw [wanted_eq ordered]
    rcases clear.1 with untyped | empty
    · exact collect_ok untyped clear.2
    · exact ⟨[], by rw [empty]; rfl, by rw [empty]; rfl⟩
  have listed : ∀ limit offset, list r filters limit offset =
      .ok (slice views offset (offset + limit)) := by
    intro limit offset
    rw [list, collected]
    rfl
  have length : views.length = (wanted past r filters).length := by rw [← shows, List.length_map]
  refine ⟨fun limit offset => ⟨_, listed limit offset⟩, fun limit enough => ?_,
    fun size _ pages enough => ?_⟩
  · refine ⟨_, listed limit 0, ?_⟩
    have whole := slice_nat views 0 limit
    rw [Nat.cast_zero] at whole
    rw [zero_add, whole, List.drop_zero, Nat.sub_zero, List.take_of_length_le (by omega), shows]
  · have paged : page r filters size = fun number =>
        ((wanted past r filters).drop (number * size)).take size := by
      funext number
      rw [page, listed, ← Nat.cast_add, slice_nat, Nat.add_sub_cancel_left]
      dsimp only
      rw [List.map_take, List.map_drop, shows]
    rw [paged, flatMap_pages, List.take_of_length_le enough]

theorem clear_of_returns {r : InMemoryExtensionRegistry} {filters : Filters} {limit offset : Int}
    {views : List ListingView} (returned : list r filters limit offset = .ok views) :
    ListClear r filters := by
  cases collected : collect filters r.listings.values with
  | error e => simp [list, collected, Except.map] at returned
  | ok results =>
    cases typed : given filters.extensionType with
    | none => exact ⟨.inl typed, known_of_collect typed collected⟩
    | some text =>
      have empty := collect_typed typed collected
      exact ⟨.inr empty, by simp [empty]⟩

/-- For every state that calls lead to: reading a listing is right if and only if its status
is one of the seven, and a list with any filters is right, in full and in pages of any size,
if and only if the registry is clear for them. -/
theorem reads_right_iff {calls : List Call} {r : InMemoryExtensionRegistry}
    (ran : run draw {} calls = some r) :
    (∀ id, GetRight r id ↔ ∀ data, r.listings.get id = some data → Known data) ∧
      ∀ filters, ListRight calls.reverse r filters ↔ ListClear r filters := by
  refine ⟨fun id => getRight_iff, fun filters => ⟨fun right => ?_, fun clear => ?_⟩⟩
  · obtain ⟨views, returned⟩ := right.returns 50 0
    exact clear_of_returns returned
  · exact listRight_of_clear (ordered_run ran) clear

theorem known_run {calls : List Call} {r : InMemoryExtensionRegistry}
    (updates : ∀ id status now, Call.updateStatus id status now ∈ calls →
      ∃ s : ExtensionListingStatus, s.value = status)
    (ran : run draw {} calls = some r) :
    ∀ id data, r.listings.get id = some data → Known data := by
  refine run_invariant
    (I := fun r => ∀ id data, r.listings.get id = some data → Known data) ?_ ?_ ran
  · intro call member r next known stepped id data found
    cases call with
    | register manifest hex now =>
      simp only [draw] at stepped
      split at stepped
      next => cases stepped
      next =>
        obtain rfl := Option.some.inj stepped
        exact Dict.forall_set (P := fun _ data => Known data) known ⟨.draft, rfl⟩ id data found
    | unregister listingId =>
      obtain rfl := Option.some.inj stepped
      simp only [after, InMemoryExtensionRegistry.get_unregister] at found
      split at found
      next => cases found
      next => exact known id data found
    | get listingId =>
      obtain rfl := Option.some.inj stepped
      exact known id data found
    | list filters limit offset =>
      obtain rfl := Option.some.inj stepped
      exact known id data found
    | updateStatus listingId status now =>
      obtain rfl := Option.some.inj stepped
      simp only [after, InMemoryExtensionRegistry.get_updateStatus] at found
      split at found
      next =>
        obtain ⟨before, _, rfl⟩ := Option.map_eq_some_iff.mp found
        exact updates listingId status now member
      next => exact known id data found
  · intro id data found
    cases found

theorem reads_right_of_known {calls : List Call} {r : InMemoryExtensionRegistry}
    (updates : ∀ id status now, Call.updateStatus id status now ∈ calls →
      ∃ s : ExtensionListingStatus, s.value = status)
    (ran : run draw {} calls = some r) :
    (∀ id, GetRight r id) ∧ ∀ filters, given filters.extensionType = none →
      ListRight calls.reverse r filters := by
  have known := known_run updates ran
  refine ⟨fun id => getRight_iff.mpr (known id), fun filters untyped => ?_⟩
  refine listRight_of_clear (ordered_run ran) ⟨.inl untyped, fun data member _ => ?_⟩
  obtain ⟨⟨id, _⟩, stored, rfl⟩ := List.mem_map.mp member
  exact known id _ (Dict.get_eq_some.mpr stored)

def oneListing : List Call :=
  [.register sampleManifest "0123456789abcdef0123456789abcdef" "2026-01-01T00:00:00"]

def misspelled : List Call :=
  oneListing ++ [.updateStatus "lst-0123456789ab" "published" "2026-01-02T00:00:00"]

def published : List Call :=
  misspelled ++
    [.register { sampleManifest with name := "beta-tools", publisherId := "beta" }
        "1123456789abcdef0123456789abcdef" "2026-01-03T00:00:00",
      .register { sampleManifest with name := "beta-agents", publisherId := "beta" }
        "2123456789abcdef0123456789abcdef" "2026-01-04T00:00:00"]

theorem reads_right_iff_paged : ∃ r, run draw {} published = some r ∧
    (list r { publisherId := some "beta" } 1 1).toOption.map (List.map ListingView.listingId) =
      some ["lst-2123456789ab"] ∧
    (∀ id, GetRight r id ↔ ∀ data, r.listings.get id = some data → Known data) ∧
      ∀ filters, ListRight published.reverse r filters ↔ ListClear r filters := by
  have page : (run draw {} published).any (fun r =>
      (list r { publisherId := some "beta" } 1 1).toOption.map (List.map ListingView.listingId) =
        some ["lst-2123456789ab"]) = true := by decide +kernel
  obtain ⟨r, ran, second⟩ := (Option.any_eq_true _ _).mp page
  exact ⟨r, ran, of_decide_eq_true second, reads_right_iff ran⟩

theorem not_getRight {r : InMemoryExtensionRegistry} {id : String}
    (raises : (get r id).isOk = false) : ¬ GetRight r id := by
  rintro ⟨found, read, _⟩
  rw [read] at raises
  cases raises

theorem not_listRight {past : List Call} {r : InMemoryExtensionRegistry} {filters : Filters}
    {limit offset : Int} (raises : (list r filters limit offset).isOk = false) :
    ¬ ListRight past r filters := by
  intro right
  obtain ⟨views, returned⟩ := right.returns limit offset
  rw [returned] at raises
  cases raises

/-- The misspelled status makes the listing unreadable and every list of the registry fail;
a filter on the type fails even with the listing as it was registered. -/
theorem misspelled_status_raises :
    (∃ r, run draw {} misspelled = some r ∧ ¬ GetRight r "lst-0123456789ab" ∧
      ¬ ListRight misspelled.reverse r {}) ∧
    ∃ r, run draw {} oneListing = some r ∧ GetRight r "lst-0123456789ab" ∧
      ¬ ListRight oneListing.reverse r { extensionType := some "tool" } := by
  have first : ∃ r, run draw {} misspelled = some r ∧ (get r "lst-0123456789ab").isOk = false ∧
      (list r {} 50 0).isOk = false := ⟨misspelled.foldl after {}, rfl, by decide +kernel, by
    decide +kernel⟩
  have second : ∃ r, run draw {} oneListing = some r ∧
      (list r { extensionType := some "tool" } 50 0).isOk = false :=
    ⟨oneListing.foldl after {}, rfl, by decide +kernel⟩
  obtain ⟨r, ran, noGet, noList⟩ := first
  obtain ⟨r', ran', typed⟩ := second
  refine ⟨⟨r, ran, not_getRight noGet, not_listRight noList⟩, r', ran', ?_, not_listRight typed⟩
  refine getRight_iff.mpr (known_run (fun id status now member => ?_) ran' _)
  simp [oneListing] at member

end Kitematic.ExtensionReads
