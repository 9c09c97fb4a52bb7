import Kitematic.Interleaving

/-! Whose checkpoint `restore_from_checkpoint` returns. The check compares what the
caller says about the owner with the current context and is skipped when the
caller says nothing; the owner stored in the state is not looked at. -/

namespace Kitematic.CheckpointOwner
open Admission Dictionary Interleaving Isolation RuntimeAbi State Tenant

/-- A store that returns what was saved under the id. -/
def Faithful (p : Pool) (restore : String → Except RestoreFailure CheckpointState) : Prop :=
  ∀ checkpointId state, restore checkpointId = .ok state →
    ∃ s ∈ p.checkpoints, s.checkpointId = checkpointId ∧ s.state = state

/-- The state was saved under the id by an execution of the tenant for the agent. -/
def SavedFor (p : Pool) (checkpointId : String) (state : CheckpointState)
    (ctx : TenantContext) : Prop :=
  ∃ s ∈ p.checkpoints, s.checkpointId = checkpointId ∧ s.state = state ∧
    tenantOf s.frame.tenantCtx = some ctx.tenantId ∧ s.frame.intent.agentId = ctx.agentId

/-- The owner the caller claims is complete and is not the current context. -/
def ClaimsOther (checkpointTenant checkpointAgent : String) (ctx : TenantContext) : Prop :=
  checkpointTenant ≠ "" ∧ checkpointAgent ≠ "" ∧
    ¬ (checkpointTenant = ctx.tenantId ∧ checkpointAgent = ctx.agentId)

def lastSaved (p : Pool) (checkpointId : String) : Except RestoreFailure CheckpointState :=
  match p.checkpoints.reverse.find? fun s => s.checkpointId = checkpointId with
  | some s => .ok s.state
  | none =>
      .error (.checkpointPersistence "restore" ("Checkpoint not found: " ++ checkpointId))

theorem lastSaved_faithful (p : Pool) : Faithful p (lastSaved p) := by
  intro checkpointId state restored
  unfold lastSaved at restored
  split at restored
  next s found =>
    cases restored
    refine ⟨s, List.mem_reverse.mp (List.mem_of_find?_eq_some found), ?_, rfl⟩
    simpa using List.find?_some found
  · cases restored

theorem persistenceRestore_eq_ok {restore : String → Except RestoreFailure CheckpointState}
    {checkpointId : String} {state : CheckpointState} :
    KitematicRuntime.persistenceRestore restore checkpointId = .ok state ↔
      restore checkpointId = .ok state := by
  unfold KitematicRuntime.persistenceRestore
  cases restore checkpointId with
  | ok stored => simp
  | error failure => cases failure <;> simp

theorem restoreFromCheckpoint_eq_ok {rt : KitematicRuntime} {b : IsolationBoundary}
    {ctx : TenantContext} (attached : rt.isolation = some b) (context : rt.tenantContext = some ctx)
    {restore : String → Except RestoreFailure CheckpointState}
    {checkpointId checkpointTenant checkpointAgent : String} {state : CheckpointState} :
    rt.restoreFromCheckpoint restore checkpointId checkpointTenant checkpointAgent = .ok state ↔
      restore checkpointId = .ok state ∧ ¬ ClaimsOther checkpointTenant checkpointAgent ctx := by
  have persisted := @persistenceRestore_eq_ok restore checkpointId state
  unfold KitematicRuntime.restoreFromCheckpoint
  simp only [attached, context]
  by_cases named : checkpointTenant ≠ "" ∧ checkpointAgent ≠ ""
  · rw [if_pos named]
    have checked := @IsolationBoundary.validateOwner_eq_ok "checkpoint" checkpointTenant
      checkpointAgent ctx.tenantId ctx.agentId
    cases answer : IsolationBoundary.validateCheckpointOwner checkpointTenant checkpointAgent
        ctx.tenantId ctx.agentId with
    | error e =>
      have other : ClaimsOther checkpointTenant checkpointAgent ctx := by
        refine ⟨named.1, named.2, fun own => ?_⟩
        have passed : IsolationBoundary.validateCheckpointOwner checkpointTenant checkpointAgent
          ctx.tenantId ctx.agentId = .ok true := checked.mpr own
        rw [answer] at passed
        cases passed
      simp [other]
    | ok value =>
      obtain rfl := IsolationBoundary.validateOwner_ok_true answer
      have own : ¬ ClaimsOther checkpointTenant checkpointAgent ctx :=
        fun other => other.2.2 (checked.mp answer)
      simp only [own, not_false_eq_true, and_true]
      exact persisted
  · rw [if_neg named]
    have silent : ¬ ClaimsOther checkpointTenant checkpointAgent ctx :=
      fun other => named ⟨other.1, other.2.1⟩
    simp only [silent, not_false_eq_true, and_true]
    exact persisted

/-- In every state of a run, a restore returns nothing but the context's own states
exactly when the claimed owner is another one or the stored state is its own. -/
theorem restore_savedFor_iff {rt : KitematicRuntime} {es : List Event} {p : Pool}
    (ran : Trace.run Pool.step (Pool.start rt) es = some p) {b : IsolationBoundary}
    {ctx : TenantContext} (attached : p.runtime.isolation = some b)
    (context : p.runtime.tenantContext = some ctx)
    {restore : String → Except RestoreFailure CheckpointState} (faithful : Faithful p restore)
    (checkpointId checkpointTenant checkpointAgent : String) :
    (∀ state, p.runtime.restoreFromCheckpoint restore checkpointId checkpointTenant
        checkpointAgent = .ok state → SavedFor p checkpointId state ctx) ↔
      ClaimsOther checkpointTenant checkpointAgent ctx ∨
        ∀ state, restore checkpointId = .ok state →
          state.tenantId = some ctx.tenantId ∧ state.intentAgent = ctx.agentId := by
  have wf := Pool.run_wellFormed ran
  have owned : ∀ state, restore checkpointId = .ok state →
      (SavedFor p checkpointId state ctx ↔
        state.tenantId = some ctx.tenantId ∧ state.intentAgent = ctx.agentId) := by
    intro state restored
    constructor
    · rintro ⟨s, member, _, rfl, tenant, agent⟩
      obtain ⟨storedTenant, storedAgent⟩ := wf.saved s member
      exact ⟨storedTenant.trans tenant, storedAgent.trans agent⟩
    · rintro ⟨tenant, agent⟩
      obtain ⟨s, member, same, rfl⟩ := faithful checkpointId state restored
      obtain ⟨storedTenant, storedAgent⟩ := wf.saved s member
      exact ⟨s, member, same, rfl, storedTenant ▸ tenant, storedAgent ▸ agent⟩
  simp only [restoreFromCheckpoint_eq_ok attached context]
  by_cases other : ClaimsOther checkpointTenant checkpointAgent ctx
  · simp [other]
  · simp only [other, not_false_eq_true, and_true, false_or]
    exact forall_congr' fun state => forall_congr' fun restored => owned state restored

def foreignCheckpointRun : List Event :=
  [.control (.registerTenant ⟨"globex", "Globex", ⟨1⟩⟩),
    .control (.registerAgent "other" "globex"),
    .executeIntent ⟨"agent", "tool.read", []⟩ "e1" 0,
    .resume "e1" (.decision true none) 1,
    .resume "e1" (.decision true none) 2,
    .resume "e1" (.path ⟨"tool.read", "", []⟩) 3,
    .resume "e1" (.toolResult ⟨true, [("secret", .str "42")], none⟩) 4,
    .resume "e1" (.checkpointId "cp-1") 5,
    .control (.setTenantContext ⟨"globex", "other", ∅⟩)]

/-- Without a claimed owner the other tenant gets the state. -/
theorem restore_without_claim_leaks :
    ∃ p ctx state, Trace.run Pool.step (Pool.start acmeRuntime) foreignCheckpointRun = some p ∧
      p.runtime.isolation.isSome = true ∧ p.runtime.tenantContext = some ctx ∧
      Faithful p (lastSaved p) ∧ p.runtime.restoreFromCheckpoint (lastSaved p) "cp-1" = .ok state ∧
      state.tenantId = some "acme" ∧ ctx.tenantId = "globex" :=
  ⟨_, _, _, rfl, rfl, rfl, lastSaved_faithful _, rfl, rfl, rfl⟩

theorem restore_savedFor_iff_claimed :
    ∃ p, Trace.run Pool.step (Pool.start acmeRuntime) foreignCheckpointRun = some p ∧
      ((∀ state, p.runtime.restoreFromCheckpoint (lastSaved p) "cp-1" "acme" "agent" = .ok state →
        SavedFor p "cp-1" state ⟨"globex", "other", ∅⟩) ↔
      ClaimsOther "acme" "agent" ⟨"globex", "other", ∅⟩ ∨
        ∀ state, lastSaved p "cp-1" = .ok state →
          state.tenantId = some "globex" ∧ state.intentAgent = "other") :=
  ⟨_, rfl, @restore_savedFor_iff acmeRuntime foreignCheckpointRun _ rfl _ _ rfl rfl _
    (lastSaved_faithful _) "cp-1" "acme" "agent"⟩

end Kitematic.CheckpointOwner
