import Kitematic.CheckpointAdapter
import Kitematic.Trace

/-! The versions of the checkpoints of one execution. They come from the counter of the
adapter instance that saves, so a new instance starts again from one, while the
latest checkpoint is the one with the greatest version in the repository. -/

namespace Kitematic.CheckpointVersions
open CheckpointAdapter CheckpointHistory CheckpointStores Checkpoints KeyOrder PyText Trace
variable {τ δ : Type}

/-- One repository with any number of adapter instances, new ones having counted
nothing, and the checkpoints saved so far. -/
structure World (τ δ : Type) where
  repo : Repository τ δ
  adapters : Nat → CheckpointPersistenceAdapter := fun _ => {}
  history : History δ := []

structure Save where
  adapter : Nat
  executionId : String
  state : Payload := []
  uuid : String
  now : ℚ := 0

def step (F : TextFormats τ δ) (w : World τ δ) (s : Save) : Option (World τ δ) :=
  if checkpointId s.uuid ∈ w.history.map Checkpoint.checkpointId then none
  else
    let cp := (w.adapters s.adapter).checkpoint F s.executionId s.state s.uuid s.now
    match (w.adapters s.adapter).save F w.repo s.executionId s.state s.uuid s.now with
    | (_, _, .error _) => none
    | (adapter, repo, .ok _) =>
        some
          { repo := repo, adapters := Function.update w.adapters s.adapter adapter
            history := w.history ++ [cp] }

/-- The latest checkpoint is the one saved last, and the versions increase in the order
of saving. -/
def LatestIsLast (F : TextFormats τ δ) (executionId : String) (w : World τ δ) : Prop :=
  w.repo.getLatest F executionId =
      .ok ((own w.history executionId).getLast?.map Checkpoint.untyped) ∧
    ((own w.history executionId).map Checkpoint.version).Pairwise (· < ·)

/-- The execution was saved through this adapter instance only. -/
def OneInstance (executionId : String) (past : List Save) (_ : World τ δ) (s : Save) : Prop :=
  s.executionId = executionId →
    ∀ earlier ∈ past, earlier.executionId = executionId → earlier.adapter = s.adapter

section step
variable {F : TextFormats τ δ} {w w' : World τ δ} {s : Save}

theorem step_eq_some (keeps : w.repo.Keeps F w.history) (stepped : step F w s = some w') :
    let cp := (w.adapters s.adapter).checkpoint F s.executionId s.state s.uuid s.now
    Fresh w.history cp ∧ w'.repo.Keeps F (w.history ++ [cp]) ∧ w'.history = w.history ++ [cp] ∧
      w'.adapters = Function.update w.adapters s.adapter
        ((w.adapters s.adapter).counted s.executionId) := by
  unfold step at stepped
  split at stepped
  · cases stepped
  next fresh =>
    rcases CheckpointPersistenceAdapter.save_cases F keeps (w.adapters s.adapter) s.executionId
        s.state s.uuid s.now fresh with ⟨e, refused⟩ | ⟨repo, saved, keeps'⟩
    · rw [refused] at stepped
      cases stepped
    · rw [saved] at stepped
      cases stepped
      exact ⟨fresh, keeps', rfl, rfl⟩

end step

theorem currentVersion_counted (adapter : CheckpointPersistenceAdapter)
    (executionId executionId' : String) :
    (adapter.counted executionId').currentVersion executionId =
      if executionId = executionId' then adapter.currentVersion executionId + 1
      else adapter.currentVersion executionId := by
  simp only [CheckpointPersistenceAdapter.counted, CheckpointPersistenceAdapter.currentVersion,
    Dictionary.Dict.get_set]
  split
  next same => simp [same]
  · rfl

/-- The saves of the execution all came from one adapter instance. -/
def OnlyOne (executionId : String) (past : List Save) : Prop :=
  ∀ s ∈ past, ∀ s' ∈ past, s.executionId = executionId → s'.executionId = executionId →
    s.adapter = s'.adapter

def Increasing (executionId : String) (h : History δ) : Prop :=
  ((own h executionId).map Checkpoint.version).Pairwise (· < ·)

/-- The state after the given saves: an instance without a save of the execution counts
from one, every version of the execution is below the next one of an instance that saved
it, and the versions increase exactly when there was one instance. -/
structure Numbered (F : TextFormats τ δ) (executionId : String) (past : List Save)
    (w : World τ δ) : Prop where
  keeps : w.repo.Keeps F w.history
  plain : Plain w.history
  distinct : DistinctIds w.history
  idle : ∀ i, (∀ s ∈ past, s.executionId = executionId → s.adapter ≠ i) →
    (w.adapters i).currentVersion executionId = 1
  positive : ∀ cp ∈ own w.history executionId, 1 ≤ cp.version
  below : ∀ cp ∈ own w.history executionId, ∃ s ∈ past, s.executionId = executionId ∧
    cp.version < (w.adapters s.adapter).currentVersion executionId
  saved : ∀ s ∈ past, s.executionId = executionId → own w.history executionId ≠ []
  exact : Increasing executionId w.history ↔ OnlyOne executionId past

section invariant
variable {F : TextFormats τ δ} {executionId : String} {past : List Save} {w w' : World τ δ} {s : Save}

theorem numbered_start {repo : Repository τ δ} (new : repo.IsNew) :
    Numbered F executionId [] { repo := repo } where
  keeps := Repository.keeps_new F new
  plain := fun _ member => nomatch member
  distinct := .nil
  idle := fun _ _ => rfl
  positive := fun _ member => nomatch member
  below := fun _ member => nomatch member
  saved := fun _ member => nomatch member
  exact := ⟨fun _ _ member => (nomatch member), fun _ => List.Pairwise.nil⟩

theorem onlyOne_cons (w : World τ δ) : OnlyOne executionId (s :: past) ↔
    OnlyOne executionId past ∧ OneInstance executionId past w s := by
  constructor
  · intro one
    refine ⟨fun a inA b inB => one a (.tail _ inA) b (.tail _ inB), fun owned a inA ownedA => ?_⟩
    exact one a (.tail _ inA) s (.head _) ownedA owned
  · rintro ⟨one, last⟩ a inA b inB ownedA ownedB
    rcases List.mem_cons.mp inA with atA | earlierA
    · rcases List.mem_cons.mp inB with atB | earlierB
      · rw [atA, atB]
      · exact atA ▸ (last (atA ▸ ownedA) b earlierB ownedB).symm
    · rcases List.mem_cons.mp inB with atB | earlierB
      · exact atB ▸ last (atB ▸ ownedB) a earlierA ownedA
      · exact one a earlierA b earlierB ownedA ownedB

/-- A new version is above the earlier ones exactly when they came from the same instance. -/
theorem above_iff (numbered : Numbered F executionId past w)
    (increasing : Increasing executionId w.history) (owned : s.executionId = executionId) :
    (∀ cp ∈ own w.history executionId,
        cp.version < (w.adapters s.adapter).currentVersion executionId) ↔
      OneInstance executionId past w s := by
  have one := numbered.exact.mp increasing
  constructor
  · intro above _ earlier inPast ownedEarlier
    by_contra other
    have first : (w.adapters s.adapter).currentVersion executionId = 1 := by
      refine numbered.idle s.adapter fun s' inPast' owned' same => other ?_
      exact (one earlier inPast s' inPast' ownedEarlier owned').trans same
    obtain ⟨cp, member⟩ := List.exists_mem_of_ne_nil _ (numbered.saved earlier inPast ownedEarlier)
    have low := above cp member
    have high := numbered.positive cp member
    omega
  · intro same cp member
    obtain ⟨earlier, inPast, ownedEarlier, below⟩ := numbered.below cp member
    rwa [same owned earlier inPast ownedEarlier] at below

theorem numbered_step (numbered : Numbered F executionId past w) (stepped : step F w s = some w') :
    Numbered F executionId (s :: past) w' := by
  obtain ⟨fresh, keeps, history, adapters⟩ := step_eq_some numbered.keeps stepped
  have grown : own w'.history executionId = own w.history executionId ++
      if s.executionId = executionId then
        [(w.adapters s.adapter).checkpoint F s.executionId s.state s.uuid s.now]
      else [] :=
    history ▸ own_append w.history _ executionId
  rw [← history] at keeps
  have later : ∀ i, (w'.adapters i).currentVersion executionId =
      if i = s.adapter ∧ executionId = s.executionId then
        (w.adapters i).currentVersion executionId + 1
      else (w.adapters i).currentVersion executionId := by
    intro i
    rw [adapters]
    by_cases same : i = s.adapter
    · subst same
      simp [currentVersion_counted]
    · simp [same]
  have plain : Plain w'.history := history ▸ numbered.plain.append rfl
  have distinct : DistinctIds w'.history := history ▸ numbered.distinct.append fresh
  by_cases owned : s.executionId = executionId
  · subst owned
    rw [if_pos rfl] at grown
    refine ⟨keeps, plain, distinct, ?_, ?_, ?_, ?_, ?_⟩
    · intro i absent
      have other : ¬ i = s.adapter := fun same => absent s (.head _) rfl same.symm
      rw [later, if_neg fun both => other both.1]
      exact numbered.idle i fun s' inPast => absent s' (.tail _ inPast)
    · rw [grown]
      refine List.forall_mem_append.mpr ⟨numbered.positive, List.forall_mem_singleton.mpr ?_⟩
      simp only [CheckpointPersistenceAdapter.checkpoint,
        CheckpointPersistenceAdapter.currentVersion]
      omega
    · rw [grown]
      refine List.forall_mem_append.mpr ⟨fun cp member => ?_, List.forall_mem_singleton.mpr ?_⟩
      · obtain ⟨earlier, inPast, ownedEarlier, below⟩ := numbered.below cp member
        refine ⟨earlier, .tail _ inPast, ownedEarlier, ?_⟩
        rw [later]
        split <;> omega
      · refine ⟨s, .head _, rfl, ?_⟩
        rw [later, if_pos ⟨rfl, rfl⟩]
        simp only [CheckpointPersistenceAdapter.checkpoint]
        omega
    · intro _ _ _
      rw [grown]
      exact List.append_ne_nil_of_right_ne_nil _ (List.cons_ne_nil _ _)
    · rw [Increasing, grown, List.map_append, List.pairwise_append, onlyOne_cons w,
        ← numbered.exact]
      constructor
      · rintro ⟨increasing, -, above⟩
        refine ⟨increasing, (above_iff numbered increasing rfl).mp fun cp member => ?_⟩
        exact above _ (List.mem_map_of_mem member) _ (List.mem_singleton_self _)
      · rintro ⟨increasing, one⟩
        refine ⟨increasing, List.pairwise_singleton _ _, ?_⟩
        intro version earlier version' last
        obtain ⟨cp, member, rfl⟩ := List.mem_map.mp earlier
        obtain rfl := List.mem_singleton.mp last
        exact (above_iff numbered increasing rfl).mpr one cp member
  · rw [if_neg owned, List.append_nil] at grown
    have kept : ∀ i, (w'.adapters i).currentVersion executionId =
        (w.adapters i).currentVersion executionId := by
      intro i
      rw [later, if_neg fun both => owned both.2.symm]
    have inPast : ∀ s' ∈ s :: past, s'.executionId = executionId → s' ∈ past := by
      intro s' member owned'
      rcases List.mem_cons.mp member with rfl | earlier
      · exact absurd owned' owned
      · exact earlier
    refine ⟨keeps, plain, distinct, fun i absent => ?_, grown ▸ numbered.positive, ?_, ?_, ?_⟩
    · rw [kept]
      exact numbered.idle i fun s' earlier => absent s' (.tail _ earlier)
    · rw [grown]
      intro cp member
      obtain ⟨earlier, member', ownedEarlier, below⟩ := numbered.below cp member
      exact ⟨earlier, .tail _ member', ownedEarlier, by rwa [kept]⟩
    · rw [grown]
      exact fun s' member owned' => numbered.saved s' (inPast s' member owned') owned'
    · rw [Increasing, grown, onlyOne_cons w, ← numbered.exact]
      exact ⟨fun increasing => ⟨increasing, fun same => absurd same owned⟩, And.left⟩

theorem latestIsLast_iff (numbered : Numbered F executionId past w) :
    LatestIsLast F executionId w ↔ Increasing executionId w.history := by
  refine ⟨And.right, fun increasing => ⟨?_, increasing⟩⟩
  rw [Repository.getLatest_eq F numbered.keeps numbered.plain numbered.distinct
    (increasing.imp fun lt => ne_of_lt lt), latest, firstMax_eq_getLast? increasing]

end invariant

/-- In any run over a new repository, the latest checkpoint of an execution is always the
one saved last, with versions in the order of saving, exactly when every save of the
execution came from the adapter instance that made the first. -/
theorem latestIsLast_iff_oneInstance (F : TextFormats τ δ) {repo : Repository τ δ}
    (new : repo.IsNew) (executionId : String) {saves : List Save} {w : World τ δ}
    (ran : run (step F) { repo := repo } saves = some w) :
    AllStates (step F) (LatestIsLast F executionId) { repo := repo } saves ↔
      EachStep (step F) (OneInstance executionId) [] { repo := repo } saves := by
  refine allStates_iff_eachStep (I := Numbered F executionId)
    (fun _ _ _ _ numbered stepped => numbered_step numbered stepped) ?_ (numbered_start new)
    ((latestIsLast_iff (numbered_start new)).mpr .nil) ran
  intro past w s w' numbered good stepped
  have next := numbered_step numbered stepped
  have increasing := (latestIsLast_iff numbered).mp good
  rw [latestIsLast_iff next, next.exact, onlyOne_cons w]
  exact and_iff_right (numbered.exact.mp increasing)

def emptyDigest (_ : String) : String :=
  "44136fa355b3678a1146ad16f7e8649e94fb4fc21fe77e8310c060f61caaff8a"

theorem latestIsLast_iff_oneInstance_two :
    ∃ w, run (step (jsonFormats emptyDigest)) { repo := .inMemory {} }
        [⟨0, "e", [], "a1b2c3d4e5f60718293a4b5c6d7e8f90", 0⟩,
          ⟨1, "d", [], "b1b2c3d4e5f60718293a4b5c6d7e8f90", 1⟩,
          ⟨0, "e", [], "c1b2c3d4e5f60718293a4b5c6d7e8f90", 2⟩] = some w ∧
      AllStates (step (jsonFormats emptyDigest)) (LatestIsLast (jsonFormats emptyDigest) "e")
        { repo := .inMemory {} }
        [⟨0, "e", [], "a1b2c3d4e5f60718293a4b5c6d7e8f90", 0⟩,
          ⟨1, "d", [], "b1b2c3d4e5f60718293a4b5c6d7e8f90", 1⟩,
          ⟨0, "e", [], "c1b2c3d4e5f60718293a4b5c6d7e8f90", 2⟩] := by
  obtain ⟨w, ran⟩ := Option.isSome_iff_exists.mp (show (run (step (jsonFormats emptyDigest))
    { repo := .inMemory {} } [⟨0, "e", [], "a1b2c3d4e5f60718293a4b5c6d7e8f90", 0⟩,
      ⟨1, "d", [], "b1b2c3d4e5f60718293a4b5c6d7e8f90", 1⟩,
      ⟨0, "e", [], "c1b2c3d4e5f60718293a4b5c6d7e8f90", 2⟩]).isSome = true by decide +kernel)
  refine ⟨w, ran, (latestIsLast_iff_oneInstance _
    (show Repository.IsNew (.inMemory {}) from ⟨rfl, rfl⟩) "e" ran).mpr ?_⟩
  exact ⟨fun _ _ member => (nomatch member), fun _ _ =>
    ⟨fun other => absurd other (by decide), fun _ _ => ⟨fun _ => by decide, fun _ _ => trivial⟩⟩⟩

def latestId (F : TextFormats τ δ) (executionId : String) (w : World τ δ) : Option String :=
  match w.repo.getLatest F executionId with
  | .ok (some { checkpointId := .str checkpointId, .. }) => some checkpointId
  | _ => none

/-- After a restart the counter begins again, so the third checkpoint has version one and
the second one stays the latest. -/
theorem restart_repeats_version :
    ∃ w, run (step (jsonFormats emptyDigest)) { repo := .fileSystem .empty }
        [⟨0, "e", [], "a1b2c3d4e5f60718293a4b5c6d7e8f90", 0⟩,
          ⟨0, "e", [], "b1b2c3d4e5f60718293a4b5c6d7e8f90", 1⟩,
          ⟨1, "e", [], "c1b2c3d4e5f60718293a4b5c6d7e8f90", 2⟩] = some w ∧
      (own w.history "e").map Checkpoint.version = [1, 2, 1] ∧
        latestId (jsonFormats emptyDigest) "e" w = some "cp-b1b2c3d4e5f6" ∧
          ¬ LatestIsLast (jsonFormats emptyDigest) "e" w := by
  have ran : (run (step (jsonFormats emptyDigest)) { repo := .fileSystem .empty }
      [⟨0, "e", [], "a1b2c3d4e5f60718293a4b5c6d7e8f90", 0⟩,
        ⟨0, "e", [], "b1b2c3d4e5f60718293a4b5c6d7e8f90", 1⟩,
        ⟨1, "e", [], "c1b2c3d4e5f60718293a4b5c6d7e8f90", 2⟩]).map (fun w =>
          ((own w.history "e").map Checkpoint.version,
            latestId (jsonFormats emptyDigest) "e" w)) =
      some ([1, 2, 1], some "cp-b1b2c3d4e5f6") := by
    decide +kernel
  obtain ⟨w, ran, shown⟩ := Option.map_eq_some_iff.mp ran
  obtain ⟨versions, best⟩ := Prod.mk.inj shown
  refine ⟨w, ran, versions, best, fun lawful => ?_⟩
  have increasing := lawful.2
  rw [versions] at increasing
  exact absurd increasing (by decide)

end Kitematic.CheckpointVersions
