import Kitematic.CheckpointAdapter
import Kitematic.Interleaving
import Mathlib.Logic.Function.Basic

/-! Runtimes, adapters and one repository together: any number of `execute_intent` calls
on any number of runtimes, whose pending `save` any of the adapters may serve. A new
adapter is one that has not counted yet. What a call was started with and what the
calls returned is kept beside them. -/

namespace Kitematic.Recovery
open Admission CheckpointAdapter CheckpointHistory CheckpointStores Checkpoints Dictionary
open Interleaving Json PyText Resumption RuntimeAbi Tenant Trace
variable {τ δ : Type}

structure Call where
  intent : Intent
  context : Option TenantContext

structure World (τ δ : Type) where
  pools : Nat → Pool
  adapters : Nat → CheckpointPersistenceAdapter := fun _ => {}
  repo : Repository τ δ
  calls : Nat → Dict String Call := fun _ => .empty
  results : List (Nat × ExecutionResult) := []

/-- `persist` is the `save` of a pending call, served by the adapter with a drawn `uuid4`. -/
inductive Event where
  | runtime (runtime : Nat) (event : Interleaving.Event)
  | persist (runtime adapter : Nat) (executionId uuid : String) (now : ℚ)

/-- `checkpoint_state`, as the dictionary handed to `save`. -/
def stateDict (F : TextFormats τ δ) (state : CheckpointState) : Payload :=
  [("execution_id", .str state.executionId),
    ("intent_action", .str state.intentAction),
    ("intent_agent", .str state.intentAgent),
    ("tool_result", .dict state.toolResult),
    ("timestamp", .str (F.isoformat (F.now state.timestamp)))] ++
  match state.tenantId with
  | some tenantId => [("tenant_id", .str tenantId)]
  | none => []

def persistence (F : TextFormats τ δ) (repo : Repository τ δ) (checkpointId : String) :
    Except RestoreFailure Value :=
  match CheckpointPersistenceAdapter.restore F repo checkpointId with
  | .ok state => .ok state
  | .error e => .error (.checkpointPersistence e.operation e.reason)

def saveReply : Except CheckpointPersistenceError String → Reply
  | .ok checkpointId => .checkpointId checkpointId
  | .error e => .raised e.message

def resultOf (runtime : Nat) : Progress → List (Nat × ExecutionResult)
  | .returned result => [(runtime, result)]
  | _ => []

def pendingSave (p : Pool) (id : String) : Option (String × CheckpointState) :=
  (p.inFlight.get id).bind fun frame =>
    match frame.awaiting with
    | .save executionId state => some (executionId, state)
    | _ => none

namespace World

def start (repo : Repository τ δ) (runtimes : Nat → KitematicRuntime) : World τ δ where
  pools i := Pool.start (runtimes i)
  repo := repo

def settle (w : World τ δ) (i : Nat) (ran : Pool × Progress) : World τ δ :=
  { w with
    pools := Function.update w.pools i ran.1, results := w.results ++ resultOf i ran.2 }

/-- An event of one runtime; a pending `save` is not answered from outside. -/
def runtimeStep (w : World τ δ) (i : Nat) : Interleaving.Event → Option (World τ δ)
  | .executeIntent intent id now =>
      ((w.pools i).executeIntent intent id now).map fun ran =>
        { w.settle i ran with
          calls := Function.update w.calls i
            ((w.calls i).set id ⟨intent, (w.pools i).runtime.tenantContext⟩) }
  | .resume id reply now =>
      match pendingSave (w.pools i) id with
      | some _ => none
      | none => ((w.pools i).resume id reply now).map (w.settle i)
  | .cancel id =>
      ((w.pools i).cancel id).map fun p => { w with pools := Function.update w.pools i p }
  | .control control =>
      some
        { w with
          pools := Function.update w.pools i
            { w.pools i with runtime := control.apply (w.pools i).runtime } }

def persist (F : TextFormats τ δ) (w : World τ δ) (i adapter : Nat) (id uuid : String) (now : ℚ) :
    Option (World τ δ) :=
  (pendingSave (w.pools i) id).bind fun (executionId, state) =>
    let (saver, repo, answer) :=
      (w.adapters adapter).save F w.repo executionId (stateDict F state) uuid now
    ((w.pools i).resume id (saveReply answer) now).map fun ran =>
      { w.settle i ran with
        adapters := Function.update w.adapters adapter saver, repo := repo }

def step (F : TextFormats τ δ) (w : World τ δ) : Event → Option (World τ δ)
  | .runtime i event => w.runtimeStep i event
  | .persist i adapter id uuid now => w.persist F i adapter id uuid now

end World

def JsonData : Event → Prop
  | .runtime _ (.resume _ (.toolResult result) _) => Native (.dict result.data)
  | _ => True

def Event.uuid : Event → Option String
  | .runtime .. => none
  | .persist _ _ _ uuid _ => some uuid

def uuids (events : List Event) : List String := events.filterMap Event.uuid

/-- A successful result of a runtime, the call it is of, the checkpoint it names and the
state that comes back for it on each runtime. -/
structure Restored (F : TextFormats τ δ) (w : World τ δ) (i : Nat) (result : ExecutionResult)
    (call : Call) (save : Saved) (state : Payload) : Prop where
  called : (w.calls i).get result.executionId = some call
  saved : save ∈ (w.pools i).checkpoints
  own : save.frame.executionId = result.executionId
  checkpointId : result.checkpointId = some save.checkpointId
  restored : ∀ j, (w.pools j).runtime.restoreFromCheckpoint (persistence F w.repo)
    save.checkpointId = .ok (.dict state)
  asSaved : canonical (.dict (stateDict F save.state)) = .dict state
  executionId : state.lookup "execution_id" = some (.str result.executionId)
  intentAction : state.lookup "intent_action" = some (.str call.intent.action)
  intentAgent : state.lookup "intent_agent" = some (.str call.intent.agentId)
  toolResult : state.lookup "tool_result" = some (canonical (.dict result.data))
  tenantId : state.lookup "tenant_id" = call.context.map fun ctx => .str ctx.tenantId

/-- Every successful result so far gives the state of its execution back. -/
def Recoverable (F : TextFormats τ δ) (w : World τ δ) : Prop :=
  ∀ i result, (i, result) ∈ w.results → result.success = true →
    ∃ call save state, Restored F w i result call save state

section state
variable (F : TextFormats τ δ) (state : CheckpointState)

theorem keys_stateDict : ((stateDict F state).map Prod.fst).Nodup := by
  cases tenant : state.tenantId with
  | none =>
    have keys : (stateDict F state).map Prod.fst =
        ["execution_id", "intent_action", "intent_agent", "tool_result", "timestamp"] := by
      simp [stateDict, tenant]
    rw [keys]
    decide
  | some t =>
    have keys : (stateDict F state).map Prod.fst = ["execution_id", "intent_action",
        "intent_agent", "tool_result", "timestamp", "tenant_id"] := by
      simp [stateDict, tenant]
    rw [keys]
    decide

theorem native_stateDict (native : Native (.dict state.toolResult)) :
    Native (.dict (stateDict F state)) := by
  refine ⟨keys_stateDict F state, nativeFields_iff.mpr (List.forall_mem_append.mpr ⟨?_, ?_⟩)⟩
  · simp only [List.forall_mem_cons, List.not_mem_nil, false_implies, implies_true, and_true]
    exact ⟨trivial, trivial, trivial, native, trivial⟩
  · cases state.tenantId with
    | none => exact fun _ member => absurd member List.not_mem_nil
    | some t => exact List.forall_mem_singleton.mpr trivial

theorem lookup_stateDict :
    (stateDict F state).lookup "execution_id" = some (.str state.executionId) ∧
      (stateDict F state).lookup "intent_action" = some (.str state.intentAction) ∧
      (stateDict F state).lookup "intent_agent" = some (.str state.intentAgent) ∧
      (stateDict F state).lookup "tool_result" = some (.dict state.toolResult) ∧
      (stateDict F state).lookup "tenant_id" = state.tenantId.map .str := by
  refine ⟨rfl, rfl, rfl, rfl, ?_⟩
  cases tenant : state.tenantId <;> simp [stateDict, tenant, List.lookup_cons]

end state

/-! What a pool and its calls keep. -/

def NativeSave (frame : Frame) : Prop :=
  ∀ executionId state, frame.awaiting = .save executionId state → Native (.dict state.toolResult)

/-- The history has the checkpoint of a save, with its state embedded. -/
def Embedded (F : TextFormats τ δ) (h : History δ) (save : Saved) : Prop :=
  ∃ cp ∈ h, cp.checkpointId = save.checkpointId ∧
    cp.agentStateRef = some (F.dumps (.dict (stateDict F save.state)))

/-- A save of the call that a result names, with the data of the result. -/
def Stored (p : Pool) (calls : Dict String Call) (result : ExecutionResult) : Prop :=
  ∃ save ∈ p.checkpoints, calls.get result.executionId =
      some ⟨save.frame.intent, save.frame.tenantCtx⟩ ∧
    save.frame.executionId = result.executionId ∧ result.checkpointId = some save.checkpointId ∧
    ∃ now, save.state = KitematicRuntime.checkpointState save.frame result.data now

structure PoolBacked (F : TextFormats τ δ) (h : History δ) (p : Pool) (calls : Dict String Call) :
    Prop where
  wellFormed : p.WellFormed
  drawn : ∀ id call, calls.get id = some call → id ∈ p.drawn
  inFlight : ∀ id frame, p.inFlight.get id = some frame →
    calls.get id = some ⟨frame.intent, frame.tenantCtx⟩ ∧ NativeSave frame
  checkpoints : ∀ save ∈ p.checkpoints,
    Native (.dict save.state.toolResult) ∧ Embedded F h save

/-- The repository keeps the history of the adapters' checkpoints, under distinct ids. -/
structure Holds (F : TextFormats τ δ) (repo : Repository τ δ) (h : History δ) : Prop where
  keeps : repo.Keeps F h
  plain : Plain h
  distinct : DistinctIds h

structure Backed (F : TextFormats τ δ) (w : World τ δ) (h : History δ) : Prop where
  holds : Holds F w.repo h
  pools : ∀ i, PoolBacked F h (w.pools i) (w.calls i)
  results : ∀ i result, (i, result) ∈ w.results → result.success = true →
    Stored (w.pools i) (w.calls i) result

section pool
variable {F : TextFormats τ δ} {h h' : History δ} {p p' : Pool} {calls : Dict String Call}

theorem PoolBacked.mono (pool : PoolBacked F h p calls) (grows : ∀ cp ∈ h, cp ∈ h') :
    PoolBacked F h' p calls :=
  { pool with
    checkpoints := fun save member =>
      (pool.checkpoints save member).imp_right fun ⟨cp, inside, same⟩ =>
        ⟨cp, grows cp inside, same⟩ }

theorem poolBacked_start (rt : KitematicRuntime) : PoolBacked F h (Pool.start rt) .empty where
  wellFormed := Pool.start_wellFormed rt
  drawn := fun _ _ none => nomatch none
  inFlight := fun _ _ none => nomatch none
  checkpoints := fun _ none => nomatch none

theorem success_executeIntent {rt : KitematicRuntime} {intent : Intent} {id : String} {now : ℚ}
    {result : ExecutionResult}
    (returned : (rt.executeIntent intent id now).outcome = .returned result) :
    result.success = false := by
  have opening := rt.executeIntent_opening intent id now
  generalize rt.executeIntent intent id now = segment at opening returned
  cases opening with
  | tenantRefused _ ended | quotaRefused _ _ ended =>
    cases ended with
    | returned r =>
      cases returned
      rfl
    | raised e => cases returned
  | shutdownRefused =>
    cases returned
    rfl
  | admitted => cases returned

theorem PoolBacked.executeIntent (pool : PoolBacked F h p calls) {intent : Intent} {id : String}
    {now : ℚ} {progress : Progress}
    (stepped : p.executeIntent intent id now = some (p', progress)) :
    PoolBacked F h p' (calls.set id ⟨intent, p.runtime.tenantContext⟩) ∧
      (∀ result, Stored p calls result →
        Stored p' (calls.set id ⟨intent, p.runtime.tenantContext⟩) result) ∧
      ∀ result, progress = .returned result → result.success = false := by
  have wellFormed : p'.WellFormed := by
    refine Pool.step_wellFormed pool.wellFormed (e := .executeIntent intent id now) ?_
    rw [Pool.step, stepped]
    rfl
  obtain ⟨fresh, rfl, rfl⟩ := Pool.executeIntent_eq_some stepped
  have earlier : ∀ id' call, calls.get id' = some call →
      (calls.set id ⟨intent, p.runtime.tenantContext⟩).get id' = some call := by
    intro id' call called
    have other : id' ≠ id := by
      rintro rfl
      exact fresh (pool.drawn id' call called)
    rw [Dict.get_set, if_neg other, called]
  refine ⟨⟨wellFormed, ?_, Pool.settle_forall (fun frame opened => ?_) ?_,
    pool.checkpoints⟩, ?_, fun result => success_executeIntent⟩
  · refine Dict.forall_set (fun id' call called => ?_) List.mem_cons_self
    exact List.mem_cons_of_mem _ (pool.drawn id' call called)
  · obtain rfl := Pool.frameOf_executeIntent opened
    exact ⟨Dict.get_set_self .., fun _ _ none => nomatch none⟩
  · intro id' frame pending
    have attended := pool.inFlight id' frame pending
    exact ⟨earlier id' _ attended.1, attended.2⟩
  · rintro result ⟨save, member, called, rest⟩
    exact ⟨save, member, earlier _ _ called, rest⟩

theorem nativeSave_resume {rt : KitematicRuntime} {frame next : Frame} {reply : Reply} {now : ℚ}
    {segment : Segment Progress} (consistent : Consistent frame)
    (resumed : rt.resume frame reply now = some segment)
    (json : ∀ result, reply = .toolResult result → Native (.dict result.data))
    (suspended : frameOf segment.outcome = some next) : NativeSave next := by
  cases KitematicRuntime.resume_resumed consistent resumed with
  | advanced next' _ _ _ _ carries =>
    cases suspended
    intro executionId state pending
    obtain ⟨result, replied, same⟩ := carries.data executionId state pending
    exact same ▸ json result replied
  | completed => cases suspended
  | failed => cases suspended

theorem native_savedBy {frame : Frame} (native : NativeSave frame) {reply : Reply} {save : Saved}
    (member : save ∈ savedBy frame reply) : Native (.dict save.state.toolResult) := by
  unfold savedBy at member
  split at member
  next executionId state checkpointId pending =>
    rw [List.mem_singleton.mp member]
    exact native executionId state pending
  · cases member

theorem savedBy_of_success {rt : KitematicRuntime} {frame : Frame} {reply : Reply} {now : ℚ}
    {segment : Segment Progress} {result : ExecutionResult} (consistent : Consistent frame)
    (resumed : rt.resume frame reply now = some segment)
    (returned : segment.outcome = .returned result) (success : result.success = true) :
    result.executionId = frame.executionId ∧ ∃ save ∈ savedBy frame reply, save.frame = frame ∧
      result.checkpointId = some save.checkpointId ∧
      ∃ now, save.state = KitematicRuntime.checkpointState frame result.data now := by
  cases KitematicRuntime.resume_resumed consistent resumed with
  | advanced => cases returned
  | @completed executionId checkpointId state _ pending =>
    cases returned
    have own := consistent.call
    rw [pending] at own
    obtain ⟨_, data, saved, rfl⟩ := own
    refine ⟨rfl, ⟨checkpointId, _, frame⟩, ?_, rfl, rfl, saved, rfl⟩
    simp only [savedBy, pending]
    exact List.mem_singleton_self _
  | failed _ failed =>
    cases returned
    rw [failed.1] at success
    cases success

theorem PoolBacked.resume (pool : PoolBacked F h p calls) {id : String} {reply : Reply} {now : ℚ}
    {progress : Progress} (stepped : p.resume id reply now = some (p', progress))
    (json : ∀ result, reply = .toolResult result → Native (.dict result.data))
    (embedded : ∀ frame, p.inFlight.get id = some frame →
      ∀ save ∈ savedBy frame reply, Embedded F h save) :
    PoolBacked F h p' calls ∧ (∀ result, Stored p calls result → Stored p' calls result) ∧
      ∀ result, progress = .returned result → result.success = true → Stored p' calls result := by
  have wellFormed : p'.WellFormed := by
    refine Pool.step_wellFormed pool.wellFormed (e := .resume id reply now) ?_
    rw [Pool.step, stepped]
    rfl
  obtain ⟨frame, segment, pending, resumed, rfl, rfl⟩ := Pool.resume_eq_some stepped
  have consistent := pool.wellFormed.consistent id frame pending
  obtain ⟨called, native⟩ := pool.inFlight id frame pending
  refine ⟨⟨wellFormed, pool.drawn, Pool.settle_forall (fun next suspended => ?_) pool.inFlight,
    fun save member => ?_⟩, ?_, fun result returned success => ?_⟩
  · have same := (Pool.frameOf_resume consistent resumed suspended).1
    exact ⟨by rw [same.intent, same.tenantCtx, called],
      nativeSave_resume consistent resumed json suspended⟩
  · rcases List.mem_append.mp member with old | new
    · exact pool.checkpoints save old
    · exact ⟨native_savedBy native new, embedded frame pending save new⟩
  · rintro result ⟨save, member, rest⟩
    exact ⟨save, List.mem_append_left _ member, rest⟩
  · obtain ⟨own, save, member, rfl, named, state⟩ :=
      savedBy_of_success consistent resumed returned success
    refine ⟨save, List.mem_append_right _ member, ?_, own.symm, named, state⟩
    rw [own, pool.wellFormed.executionId id save.frame pending, called]

theorem PoolBacked.quiet (pool : PoolBacked F h p calls) (wellFormed : p'.WellFormed)
    (drawn : p'.drawn = p.drawn) (checkpoints : p'.checkpoints = p.checkpoints)
    (inFlight : ∀ id frame, p'.inFlight.get id = some frame → p.inFlight.get id = some frame) :
    PoolBacked F h p' calls where
  wellFormed := wellFormed
  drawn := drawn ▸ pool.drawn
  inFlight id frame pending := pool.inFlight id frame (inFlight id frame pending)
  checkpoints := checkpoints ▸ pool.checkpoints

theorem PoolBacked.cancel (pool : PoolBacked F h p calls) {id : String}
    (cancelled : p.cancel id = some p') :
    PoolBacked F h p' calls ∧ p'.checkpoints = p.checkpoints := by
  have wellFormed := Pool.step_wellFormed pool.wellFormed (e := .cancel id) cancelled
  obtain ⟨_, _, rfl⟩ := Option.map_eq_some_iff.mp cancelled
  exact ⟨pool.quiet wellFormed rfl rfl fun _ _ pending => Dict.get_of_get_erase pending, rfl⟩

theorem savedBy_of_idle {id : String} {frame : Frame} (idle : pendingSave p id = none)
    (pending : p.inFlight.get id = some frame) (reply : Reply) : savedBy frame reply = [] := by
  simp only [pendingSave, pending, Option.bind_some] at idle
  unfold savedBy
  split
  next waiting =>
    rw [waiting] at idle
    cases idle
  · rfl

theorem savedBy_raised (frame : Frame) (error : String) : savedBy frame (.raised error) = [] := by
  unfold savedBy
  split
  next replied =>
    cases replied
  · rfl

end pool

section world
variable {F : TextFormats τ δ} {w w' : World τ δ} {h h' : History δ}

theorem backed_start {repo : Repository τ δ} (new : repo.IsNew) (runtimes : Nat → KitematicRuntime) :
    Backed F (World.start repo runtimes) [] where
  holds := ⟨Repository.keeps_new F new, fun _ none => (nomatch none), List.nodup_nil⟩
  pools i := poolBacked_start (runtimes i)
  results := fun _ _ none => nomatch none

theorem Backed.update (backed : Backed F w h) {i : Nat} {p : Pool} {calls : Dict String Call}
    (holds : Holds F w'.repo h') (grows : ∀ cp ∈ h, cp ∈ h') (pool : PoolBacked F h' p calls)
    (pools : w'.pools = Function.update w.pools i p)
    (called : w'.calls = Function.update w.calls i calls)
    (kept : ∀ result, Stored (w.pools i) (w.calls i) result → Stored p calls result)
    (results : ∀ j result, (j, result) ∈ w'.results → (j, result) ∈ w.results ∨
      j = i ∧ (result.success = true → Stored p calls result)) : Backed F w' h' := by
  refine ⟨holds, fun j => ?_, fun j result member success => ?_⟩
  · rw [pools, called]
    by_cases same : j = i
    · subst same
      rwa [Function.update_self, Function.update_self]
    · rw [Function.update_of_ne same, Function.update_of_ne same]
      exact (backed.pools j).mono grows
  · rw [pools, called]
    by_cases same : j = i
    · subst same
      rw [Function.update_self, Function.update_self]
      rcases results j result member with old | ⟨-, new⟩
      · exact kept result (backed.results j result old success)
      · exact new success
    · rw [Function.update_of_ne same, Function.update_of_ne same]
      rcases results j result member with old | ⟨here, -⟩
      · exact backed.results j result old success
      · exact absurd here same

theorem mem_settle {i j : Nat} {ran : Pool × Progress} {result : ExecutionResult}
    (member : (j, result) ∈ (w.settle i ran).results) :
    (j, result) ∈ w.results ∨ j = i ∧ ran.2 = .returned result := by
  refine (List.mem_append.mp member).imp_right fun new => ?_
  cases progress : ran.2 with
  | returned other =>
    rw [progress] at new
    cases List.mem_singleton.mp new
    exact ⟨rfl, rfl⟩
  | suspended | raised =>
    rw [progress] at new
    cases new

theorem backed_executeIntent (backed : Backed F w h) {i : Nat} {intent : Intent} {id : String}
    {now : ℚ} (stepped : w.runtimeStep i (.executeIntent intent id now) = some w') :
    Backed F w' h := by
  obtain ⟨⟨p, progress⟩, ran, rfl⟩ := Option.map_eq_some_iff.mp stepped
  obtain ⟨pool, kept, failed⟩ := (backed.pools i).executeIntent ran
  refine backed.update backed.holds (fun _ member => member) pool rfl rfl kept fun j result member => ?_
  refine (mem_settle member).imp_right ?_
  rintro ⟨rfl, returned⟩
  exact ⟨rfl, fun success => absurd ((failed result returned).symm.trans success) Bool.false_ne_true⟩

theorem backed_resume (backed : Backed F w h) {i : Nat} {id : String} {reply : Reply} {now : ℚ}
    {ran : Pool × Progress} (resumed : (w.pools i).resume id reply now = some ran)
    (json : ∀ result, reply = .toolResult result → Native (.dict result.data))
    {adapters : Nat → CheckpointPersistenceAdapter} {repo : Repository τ δ}
    (holds : Holds F repo h') (grows : ∀ cp ∈ h, cp ∈ h')
    (embedded : ∀ frame, (w.pools i).inFlight.get id = some frame →
      ∀ save ∈ savedBy frame reply, Embedded F h' save) :
    Backed F { w.settle i ran with adapters := adapters, repo := repo } h' := by
  obtain ⟨p, progress⟩ := ran
  obtain ⟨pool, kept, stored⟩ := ((backed.pools i).mono grows).resume resumed json embedded
  refine backed.update holds grows pool rfl (Function.update_eq_self i w.calls).symm kept
    fun j result member => ?_
  refine (mem_settle member).imp_right ?_
  rintro ⟨rfl, returned⟩
  exact ⟨rfl, stored result returned⟩

theorem backed_runtimeStep (backed : Backed F w h) {i : Nat} {e : Interleaving.Event}
    (json : JsonData (.runtime i e)) (stepped : w.runtimeStep i e = some w') : Backed F w' h := by
  cases e with
  | executeIntent intent id now => exact backed_executeIntent backed stepped
  | resume id reply now =>
    simp only [World.runtimeStep] at stepped
    split at stepped
    · cases stepped
    next idle =>
      obtain ⟨ran, resumed, rfl⟩ := Option.map_eq_some_iff.mp stepped
      refine backed_resume backed resumed (fun result same => ?_) backed.holds
        (fun _ member => member) fun frame pending save member => ?_
      · subst same
        exact json
      · rw [savedBy_of_idle idle pending] at member
        cases member
  | cancel id =>
    obtain ⟨p, cancelled, rfl⟩ := Option.map_eq_some_iff.mp stepped
    obtain ⟨pool, same⟩ := (backed.pools i).cancel cancelled
    refine backed.update backed.holds (fun _ member => member) pool rfl
      (Function.update_eq_self i w.calls).symm (fun result stored => ?_) fun _ _ => .inl
    unfold Stored
    rwa [same]
  | control control =>
    cases stepped
    have pool := backed.pools i
    have wellFormed := Pool.step_wellFormed pool.wellFormed (e := .control control) rfl
    exact backed.update backed.holds (fun _ member => member)
      (pool.quiet wellFormed rfl rfl fun _ _ pending => pending) rfl
      (Function.update_eq_self i w.calls).symm (fun _ stored => stored) fun _ _ => .inl

theorem backed_persist (backed : Backed F w h) {i adapter : Nat} {id uuid : String} {now : ℚ}
    (fresh : checkpointId uuid ∉ h.map Checkpoint.checkpointId)
    (stepped : w.persist F i adapter id uuid now = some w') :
    ∃ h', Backed F w' h' ∧ ∀ cp ∈ h', cp ∈ h ∨ cp.checkpointId = checkpointId uuid := by
  obtain ⟨⟨executionId, state⟩, waiting, stepped⟩ := Option.bind_eq_some_iff.mp stepped
  obtain ⟨frame, pending, awaited⟩ := Option.bind_eq_some_iff.mp waiting
  have holds := backed.holds
  rcases CheckpointPersistenceAdapter.save_cases F holds.keeps (w.adapters adapter) executionId
      (stateDict F state) uuid now fresh with ⟨e, refused⟩ | ⟨repo, saved, keeps⟩
  · simp only [refused] at stepped
    obtain ⟨ran, resumed, rfl⟩ := Option.map_eq_some_iff.mp stepped
    refine ⟨h, backed_resume backed resumed (fun _ none => nomatch none) holds
      (fun _ member => member) fun frame' _ save member => ?_, fun _ => .inl⟩
    rw [saveReply, savedBy_raised] at member
    cases member
  · simp only [saved] at stepped
    obtain ⟨ran, resumed, rfl⟩ := Option.map_eq_some_iff.mp stepped
    refine ⟨_, backed_resume backed resumed (fun _ none => nomatch none)
      ⟨keeps, holds.plain.append rfl, holds.distinct.append fresh⟩
      (fun _ => List.mem_append_left _) fun frame' pending' save member => ?_, fun cp member => ?_⟩
    · rw [pending] at pending'
      obtain rfl := Option.some.inj pending'
      cases call : frame.awaiting with
      | save executionId' state' =>
        rw [call] at awaited
        cases awaited
        simp only [saveReply, savedBy, call] at member
        obtain rfl := List.mem_singleton.mp member
        exact ⟨_, List.mem_append_right _ (List.mem_singleton_self _), rfl, rfl⟩
      | evaluateIntent | checkCapability | routeIntent | accessTool =>
        rw [call] at awaited
        cases awaited
    · refine (List.mem_append.mp member).imp_right fun last => ?_
      rw [List.mem_singleton.mp last]
      rfl

theorem restoreFromCheckpoint_ok {α : Type} (rt : KitematicRuntime)
    {restore : String → Except RestoreFailure α} {checkpointId : String} {state : α}
    (found : restore checkpointId = .ok state) :
    rt.restoreFromCheckpoint restore checkpointId = .ok state := by
  have persisted : KitematicRuntime.persistenceRestore restore checkpointId = .ok state := by
    simp only [KitematicRuntime.persistenceRestore, found]
  unfold KitematicRuntime.restoreFromCheckpoint
  split
  · simpa using persisted
  · exact persisted

theorem recoverable_of_backed (backed : Backed F w h) : Recoverable F w := by
  intro i result member success
  obtain ⟨save, saved, called, own, named, now, same⟩ := backed.results i result member success
  obtain ⟨native, cp, inside, id, embedded⟩ := (backed.pools i).checkpoints save saved
  have answer := CheckpointPersistenceAdapter.restore_of_mem F backed.holds.keeps
    backed.holds.plain backed.holds.distinct inside embedded (native_stateDict F save.state native)
  have read := lookup_sortKeys (keys_stateDict F save.state)
  obtain ⟨executionId, action, agent, data, tenant⟩ := lookup_stateDict F save.state
  refine ⟨_, save, _, called, saved, own, named, fun j => ?_, rfl, ?_, ?_, ?_, ?_, ?_⟩
  · rw [id] at answer
    refine restoreFromCheckpoint_ok _ ?_
    simp only [persistence, answer]
    rfl
  · rw [read, executionId, same, ← own]
    rfl
  · rw [read, action, same]
    rfl
  · rw [read, agent, same]
    rfl
  · rw [read, data, same]
    rfl
  · rw [read, tenant, same, KitematicRuntime.checkpointState, Option.map_map, Option.map_map]
    rfl

end world

theorem allStates_of_backed {F : TextFormats τ δ} {events : List Event} :
    ∀ {w : World τ δ} {h : History δ}, Backed F w h → (∀ e ∈ events, JsonData e) →
      ((uuids events).map checkpointId).Nodup →
      (∀ uuid ∈ uuids events, checkpointId uuid ∉ h.map Checkpoint.checkpointId) →
      AllStates (World.step F) (Recoverable F) w events := by
  induction events with
  | nil => exact fun backed _ _ _ => recoverable_of_backed backed
  | cons e events ih =>
    intro w h backed json unique fresh
    refine ⟨recoverable_of_backed backed, fun w' stepped => ?_⟩
    have later := fun e' member => json e' (List.mem_cons_of_mem _ member)
    cases e with
    | runtime i event =>
      exact ih (backed_runtimeStep backed (json _ List.mem_cons_self) stepped) later unique fresh
    | persist i adapter id uuid now =>
      obtain ⟨own, others⟩ := List.nodup_cons.mp unique
      obtain ⟨h', backed', grown⟩ :=
        backed_persist backed (fresh uuid List.mem_cons_self) stepped
      refine ih backed' later others fun uuid' member inside => ?_
      obtain ⟨cp, kept, same⟩ := List.mem_map.mp inside
      rcases grown cp kept with old | new
      · exact fresh uuid' (List.mem_cons_of_mem _ member) (same ▸ List.mem_map_of_mem old)
      · rw [new] at same
        exact own (same ▸ List.mem_map_of_mem member)

/-- In every run in which the generated checkpoint ids are distinct, in every state, every
successful result gives the state of its execution back. -/
theorem recoverable_run (F : TextFormats τ δ) {repo : Repository τ δ} (new : repo.IsNew)
    (runtimes : Nat → KitematicRuntime) {events : List Event} (json : ∀ e ∈ events, JsonData e)
    (unique : ((uuids events).map checkpointId).Nodup) :
    AllStates (World.step F) (Recoverable F) (World.start repo runtimes) events :=
  allStates_of_backed (backed_start new runtimes) json unique fun _ _ none => nomatch none

def readCall (id : String) (number : Int) (uuid : String) : List Event :=
  [.runtime 0 (.executeIntent ⟨"agent", "tool.read", []⟩ id 0),
    .runtime 0 (.resume id (.decision true none) 1),
    .runtime 0 (.resume id (.decision true none) 2),
    .runtime 0 (.resume id (.path ⟨"tool.read", "", []⟩) 3),
    .runtime 0 (.resume id (.toolResult ⟨true, [("number", .int number)], none⟩) 4),
    .persist 0 0 id uuid 5]

def twoCalls (uuid uuid' : String) : List Event := readCall "e1" 1 uuid ++ readCall "e2" 2 uuid'

theorem twoCalls_json (uuid uuid' : String) : ∀ e ∈ twoCalls uuid uuid', JsonData e := by
  have call : ∀ id number uuid, ∀ e ∈ readCall id number uuid, JsonData e := by
    intro id number uuid
    have native : Native (.dict [("number", .int number)]) :=
      ⟨List.nodup_singleton _, trivial, trivial⟩
    simp only [readCall, List.forall_mem_cons, List.not_mem_nil, false_implies, implies_true,
      and_true]
    exact ⟨trivial, trivial, trivial, trivial, native, trivial⟩
  exact List.forall_mem_append.mpr ⟨call _ _ _, call _ _ _⟩

def shownId : Except RestoreError Value → Option String
  | .ok (.dict state) =>
      match state.lookup "execution_id" with
      | some (.str executionId) => some executionId
      | _ => none
  | _ => none

def begin : World (List Char) IsoDate.DateTime := World.start (.inMemory {}) fun _ => acmeRuntime

def distinctPrefixes : List Event :=
  twoCalls "a1b2c3d4e5f60718293a4b5c6d7e8f90" "b1b2c3d4e5f60718293a4b5c6d7e8f90"

theorem recoverable_run_distinct :
    ∃ w, run (World.step (jsonFormats fun _ => "0")) begin distinctPrefixes = some w ∧
      w.results.map (fun r => r.2.success) = [true, true] ∧
      AllStates (World.step (jsonFormats fun _ => "0")) (Recoverable (jsonFormats fun _ => "0"))
        begin distinctPrefixes := by
  obtain ⟨w, ran, successes⟩ := Option.map_eq_some_iff.mp (show
    (run (World.step (jsonFormats fun _ => "0")) begin distinctPrefixes).map
      (fun w => w.results.map fun r => r.2.success) = some [true, true] by decide +kernel)
  have new : (Repository.inMemory {} : Repository (List Char) IsoDate.DateTime).IsNew := ⟨rfl, rfl⟩
  exact ⟨w, ran, successes, recoverable_run _ new _ (twoCalls_json _ _) (by decide +kernel)⟩

def samePrefixes : List Event :=
  twoCalls "a1b2c3d4e5f60718293a4b5c6d7e8f90" "a1b2c3d4e5f64718a93a4b5c6d7e8f91"

theorem restore_other_execution :
    ∃ w result, run (World.step (jsonFormats fun _ => "0")) begin samePrefixes = some w ∧
      (uuids samePrefixes).Nodup ∧ (∀ e ∈ samePrefixes, JsonData e) ∧
      (0, result) ∈ w.results ∧ result.success = true ∧ result.executionId = "e1" ∧
      result.checkpointId = some "cp-a1b2c3d4e5f6" ∧
      shownId ((w.pools 0).runtime.restoreFromCheckpoint
        (persistence (jsonFormats fun _ => "0") w.repo) "cp-a1b2c3d4e5f6") = some "e2" ∧
      ¬ Recoverable (jsonFormats fun _ => "0") w := by
  have ran : (run (World.step (jsonFormats fun _ => "0")) begin samePrefixes).map
      (fun w => w.results.map fun r => (r.1, r.2.success, r.2.executionId, r.2.checkpointId)) =
      some [(0, true, "e1", some "cp-a1b2c3d4e5f6"), (0, true, "e2", some "cp-a1b2c3d4e5f6")] := by
    decide +kernel
  have other : (run (World.step (jsonFormats fun _ => "0")) begin samePrefixes).map
      (fun w => shownId ((w.pools 0).runtime.restoreFromCheckpoint
        (persistence (jsonFormats fun _ => "0") w.repo) "cp-a1b2c3d4e5f6")) = some (some "e2") := by
    decide +kernel
  obtain ⟨w, reached, results⟩ := Option.map_eq_some_iff.mp ran
  rw [reached] at other
  have other : shownId ((w.pools 0).runtime.restoreFromCheckpoint
      (persistence (jsonFormats fun _ => "0") w.repo) "cp-a1b2c3d4e5f6") = some "e2" :=
    Option.some.inj other
  have first : (0, true, "e1", some "cp-a1b2c3d4e5f6") ∈ w.results.map fun r =>
      (r.1, r.2.success, r.2.executionId, r.2.checkpointId) :=
    results ▸ List.mem_cons_self
  obtain ⟨⟨i, result⟩, member, same⟩ := List.mem_map.mp first
  simp only [Prod.mk.injEq] at same
  obtain ⟨rfl, success, own, named⟩ := same
  refine ⟨w, result, reached, by decide, twoCalls_json _ _, member, success, own, named, other, ?_⟩
  intro recoverable
  obtain ⟨call, save, state, restored⟩ := recoverable 0 result member success
  have answer := restored.restored 0
  have id := restored.checkpointId
  rw [named] at id
  rw [← Option.some.inj id] at answer
  rw [answer, shownId, restored.executionId, own] at other
  exact absurd other (by decide)

end Kitematic.Recovery
