import Kitematic.AgentScope
import Kitematic.Lifecycle

/-! Several loop controllers over one runtime. A controller keeps no context of its
own: being built with one, or being given one, overwrites the context of the
shared runtime, which an execution reads when it opens. -/

namespace Kitematic.LoopTenants
open Admission AgentScope Dictionary Interleaving Isolation Lifecycle Ownership Resumption
open RuntimeAbi
open State Tenant

structure Member where
  controller : LoopController
  context : TenantContext

/-- A `run_intent` call by the id its execution drew: who runs it, under which
context of its own, and the locals of the loop. -/
structure Booking where
  controller : Nat
  context : TenantContext
  run : LoopRun

structure Fleet where
  pool : Pool
  members : Dict Nat Member := .empty
  bookings : Dict String Booking := .empty

inductive Action where
  | construct (controller : Nat) (budget : ExecutionBudget) (context : TenantContext)
  | setTenantContext (controller : Nat) (context : TenantContext)
  | runIntent (controller : Nat) (intent : Intent) (loopId executionId : String)
      (clock : BudgetClock) (now : ℚ)
  | resume (executionId : String) (reply : Reply) (now : ℚ)
  | cancel (executionId : String)
  | shutdown (controller : Nat)

namespace Fleet

def start (rt : KitematicRuntime) : Fleet := { pool := Pool.start rt }

def setRuntime (f : Fleet) (rt : KitematicRuntime) : Fleet :=
  { f with pool := { f.pool with runtime := rt } }

/-- `__init__`; an exception of `set_tenant_context` leaves no controller. -/
def construct (f : Fleet) (controller : Nat) (budget : ExecutionBudget)
    (context : TenantContext) : Option Fleet :=
  if (f.members.get controller).isSome then none
  else
    match f.pool.runtime.setTenantContext context with
    | .error _ => some f
    | .ok rt =>
        some { f.setRuntime rt with
          members := f.members.set controller ⟨{ budget := budget }, context⟩ }

def setTenantContext (f : Fleet) (controller : Nat) (context : TenantContext) : Option Fleet :=
  (f.members.get controller).map fun member =>
    match f.pool.runtime.setTenantContext context with
    | .error _ => f
    | .ok rt =>
        { f.setRuntime rt with
          members := f.members.set controller { member with context := context } }

def setController (f : Fleet) (controller : Nat) (c : LoopController) : Fleet :=
  match f.members.get controller with
  | none => f
  | some member =>
      { f with members := f.members.set controller { member with controller := c } }

def afterExecuteIntent (f : Fleet) (booking : Booking) (progress : Progress) (now : ℚ) : Fleet :=
  match f.members.get booking.controller with
  | none => f
  | some member =>
      match progress with
      | .suspended _ => f
      | .returned result =>
          f.setController booking.controller
            (member.controller.finishRun booking.run (.ok result) now).1
      | .raised e =>
          f.setController booking.controller
            (member.controller.finishRun booking.run (.error e.message) now).1

def runIntent (f : Fleet) (controller : Nat) (intent : Intent) (loopId executionId : String)
    (clock : BudgetClock) (now : ℚ) : Option Fleet :=
  (f.members.get controller).bind fun member =>
    match member.controller.runIntent intent loopId clock with
    | (c, _, some _) => some (f.setController controller c)
    | (c, log, none) =>
        let booking : Booking := ⟨controller, member.context, ⟨loopId, log⟩⟩
        (f.pool.executeIntent intent executionId now).map fun (pool, progress) =>
          Fleet.afterExecuteIntent
            { f.setController controller c with
              pool := pool, bookings := f.bookings.set executionId booking }
            booking progress now

def resume (f : Fleet) (executionId : String) (reply : Reply) (now : ℚ) : Option Fleet :=
  (f.bookings.get executionId).bind fun booking =>
    (f.pool.resume executionId reply now).map fun (pool, progress) =>
      Fleet.afterExecuteIntent { f with pool := pool } booking progress now

def step (f : Fleet) : Action → Option Fleet
  | .construct controller budget context => f.construct controller budget context
  | .setTenantContext controller context => f.setTenantContext controller context
  | .runIntent controller intent loopId executionId clock now =>
      f.runIntent controller intent loopId executionId clock now
  | .resume executionId reply now => f.resume executionId reply now
  | .cancel executionId => (f.pool.cancel executionId).map fun pool => { f with pool := pool }
  | .shutdown controller =>
      (f.members.get controller).map fun member =>
        f.setController controller member.controller.shutdown

def ownContext (bookings : Dict String Booking) (id : String) : Option TenantContext :=
  (bookings.get id).map Booking.context

/-- Every execution in flight is under its own controller's context, and all that
executions did was for their controllers' tenants. -/
def RunsAsOwn (f : Fleet) : Prop :=
  (∀ id frame, f.pool.inFlight.get id = some frame →
    frame.tenantCtx = ownContext f.bookings id) ∧
  RunsAs (fun id => tenantOf (ownContext f.bookings id)) f.pool

end Fleet

/-- The runtime accepts the context. -/
def accepts (rt : KitematicRuntime) (context : TenantContext) : Bool :=
  match rt.setTenantContext context with
  | .ok _ => true
  | .error _ => false

def givenContext : Action → Option TenantContext
  | .construct _ _ context | .setTenantContext _ context => some context
  | _ => none

def lastAccepted (rt : KitematicRuntime) : List Action → Option TenantContext
  | [] => rt.tenantContext
  | action :: past =>
      match givenContext action with
      | some context => if accepts rt context then some context else lastAccepted rt past
      | none => lastAccepted rt past

/-- A run that reaches the runtime finds the context of its own controller in force:
the same context if its call starts the chain, and one of the same tenant if the
call only takes a slot. -/
def OwnContextInForce (rt : KitematicRuntime) (past : List Action) (f : Fleet) : Action → Prop
  | .runIntent controller _ _ _ clock now =>
      ∀ member, f.members.get controller = some member → member.controller.handsOver clock = true →
        (engages f.pool.runtime now = true →
          tenantOf (lastAccepted rt past) = some member.context.tenantId) ∧
        (admitted f.pool.runtime now = true → lastAccepted rt past = some member.context)
  | _ => True

theorem accepts_congr {rt rt' : KitematicRuntime} (same : tables rt' = tables rt)
    (context : TenantContext) : accepts rt' context = accepts rt context := by
  cases iso : rt.isolation with
  | none =>
    have detached : rt'.isolation = none := by simpa [tables, iso] using same
    unfold accepts KitematicRuntime.setTenantContext
    simp only [iso, detached]
    cases context.isValid <;> rfl
  | some b =>
    rw [tables, tables, iso] at same
    obtain ⟨b', iso', pair⟩ := Option.map_eq_some_iff.mp same
    obtain ⟨tenants, agents⟩ := Prod.mk.inj pair
    have answer : b'.validateTenantContext context = b.validateTenantContext context := by
      unfold IsolationBoundary.validateTenantContext IsolationBoundary.validateAgentScope
      rw [tenants, agents]
    unfold accepts KitematicRuntime.setTenantContext
    simp only [iso, iso', answer]
    cases context.isValid with
    | false => rfl
    | true => cases b.validateTenantContext context <;> rfl

namespace Fleet

@[simp] theorem setController_pool (f : Fleet) (controller : Nat) (c : LoopController) :
    (f.setController controller c).pool = f.pool := by
  unfold setController
  split <;> rfl

@[simp] theorem setController_bookings (f : Fleet) (controller : Nat) (c : LoopController) :
    (f.setController controller c).bookings = f.bookings := by
  unfold setController
  split <;> rfl

@[simp] theorem afterExecuteIntent_pool (f : Fleet) (booking : Booking) (progress : Progress)
    (now : ℚ) : (f.afterExecuteIntent booking progress now).pool = f.pool := by
  unfold afterExecuteIntent
  split
  · rfl
  · split <;> simp

@[simp] theorem afterExecuteIntent_bookings (f : Fleet) (booking : Booking) (progress : Progress)
    (now : ℚ) : (f.afterExecuteIntent booking progress now).bookings = f.bookings := by
  unfold afterExecuteIntent
  split
  · rfl
  · split <;> simp

inductive Acted (f : Fleet) : Action → Fleet → Prop where
  | accepted {action : Action} {f' : Fleet} (context : TenantContext)
      (given : givenContext action = some context)
      (accepted : accepts f.pool.runtime context = true)
      (pool : f'.pool =
        { f.pool with runtime := { f.pool.runtime with tenantContext := some context } })
      (bookings : f'.bookings = f.bookings) : Acted f action f'
  | kept {action : Action} {f' : Fleet}
      (refused : ∀ context, givenContext action = some context →
        accepts f.pool.runtime context = false)
      (idle : ∀ controller intent loopId id clock now member,
        action = .runIntent controller intent loopId id clock now →
          f.members.get controller = some member → member.controller.handsOver clock = false)
      (pool : f'.pool = f.pool) (bookings : f'.bookings = f.bookings) : Acted f action f'
  | ran {f' : Fleet} (controller : Nat) (intent : Intent) (loopId id : String)
      (clock : BudgetClock) (now : ℚ) (member : Member) (booking : Booking) (pool : Pool)
      (progress : Progress) (found : f.members.get controller = some member)
      (hands : member.controller.handsOver clock = true)
      (executed : f.pool.executeIntent intent id now = some (pool, progress))
      (own : booking.context = member.context) (after : f'.pool = pool)
      (bookings : f'.bookings = f.bookings.set id booking) :
      Acted f (.runIntent controller intent loopId id clock now) f'
  | resumed {f' : Fleet} (id : String) (reply : Reply) (now : ℚ) (pool : Pool)
      (progress : Progress) (resumed : f.pool.resume id reply now = some (pool, progress))
      (after : f'.pool = pool) (bookings : f'.bookings = f.bookings) :
      Acted f (.resume id reply now) f'
  | cancelled {f' : Fleet} (id : String) (pool : Pool) (cancelled : f.pool.cancel id = some pool)
      (after : f'.pool = pool) (bookings : f'.bookings = f.bookings) : Acted f (.cancel id) f'

theorem acted_of_given {f f' : Fleet} {action : Action} {context : TenantContext}
    (given : givenContext action = some context)
    (accepted : ∀ rt, f.pool.runtime.setTenantContext context = .ok rt →
      f'.pool = { f.pool with runtime := rt } ∧ f'.bookings = f.bookings)
    (refused : ∀ e, f.pool.runtime.setTenantContext context = .error e →
      f'.pool = f.pool ∧ f'.bookings = f.bookings) : Acted f action f' := by
  cases answer : f.pool.runtime.setTenantContext context with
  | ok rt =>
    obtain ⟨pool, bookings⟩ := accepted rt answer
    have same := KitematicRuntime.setTenantContext_eq_ok answer
    exact .accepted context given (by simp [accepts, answer]) (same ▸ pool) bookings
  | error e =>
    obtain ⟨pool, bookings⟩ := refused e answer
    refine .kept ?_ ?_ pool bookings
    · intro context' given'
      obtain rfl : context = context' := Option.some.inj (given.symm.trans given')
      simp [accepts, answer]
    · rintro controller intent loopId id clock now member rfl
      cases given

theorem step_acted {f f' : Fleet} {action : Action} (stepped : f.step action = some f') :
    Acted f action f' := by
  cases action with
  | construct controller budget context =>
    simp only [step, construct] at stepped
    split at stepped
    · cases stepped
    · refine acted_of_given rfl (fun rt answer => ?_) (fun e answer => ?_)
      · rw [answer] at stepped
        cases stepped
        exact ⟨rfl, rfl⟩
      · rw [answer] at stepped
        cases stepped
        exact ⟨rfl, rfl⟩
  | setTenantContext controller context =>
    obtain ⟨member, found, rfl⟩ := Option.map_eq_some_iff.mp stepped
    refine acted_of_given rfl (fun rt answer => ?_) (fun e answer => ?_)
    · rw [answer]
      exact ⟨rfl, rfl⟩
    · rw [answer]
      exact ⟨rfl, rfl⟩
  | runIntent controller intent loopId id clock now =>
    obtain ⟨member, found, rest⟩ := Option.bind_eq_some_iff.mp stepped
    have handed := member.controller.runIntent_eq_none_iff intent loopId clock
    generalize member.controller.runIntent intent loopId clock = segment at rest handed
    obtain ⟨c, log, ended⟩ := segment
    cases ended with
    | some result =>
      cases rest
      refine .kept (by simp [givenContext]) ?_ (by simp) (by simp)
      rintro _ _ _ _ _ _ member' same found'
      cases same
      rw [found] at found'
      cases found'
      simpa using handed
    | none =>
      obtain ⟨⟨pool, progress⟩, executed, rfl⟩ := Option.map_eq_some_iff.mp rest
      exact .ran controller intent loopId id clock now member
        ⟨controller, member.context, ⟨loopId, log⟩⟩ pool progress found (handed.mp rfl) executed rfl
        (by simp) (by simp)
  | resume id reply now =>
    obtain ⟨booking, _, rest⟩ := Option.bind_eq_some_iff.mp stepped
    obtain ⟨⟨pool, progress⟩, resumed, rfl⟩ := Option.map_eq_some_iff.mp rest
    exact .resumed id reply now pool progress resumed (by simp) (by simp)
  | cancel id =>
    obtain ⟨pool, cancelled, rfl⟩ := Option.map_eq_some_iff.mp stepped
    exact .cancelled id pool cancelled rfl rfl
  | shutdown controller =>
    obtain ⟨member, _, rfl⟩ := Option.map_eq_some_iff.mp stepped
    exact .kept (by simp [givenContext]) (by simp) (by simp) (by simp)

structure Tracks (rt : KitematicRuntime) (past : List Action) (f : Fleet) : Prop where
  pool : f.pool.WellFormed
  booked : ∀ id booking, f.bookings.get id = some booking → id ∈ f.pool.drawn
  tables : tables f.pool.runtime = tables rt
  context : f.pool.runtime.tenantContext = lastAccepted rt past

theorem start_tracks (rt : KitematicRuntime) : Tracks rt [] (start rt) :=
  ⟨Pool.start_wellFormed rt, by simp [start], rfl, rfl⟩

theorem step_tracks {rt : KitematicRuntime} {past : List Action} {f f' : Fleet} {action : Action}
    (tracks : Tracks rt past f) (stepped : f.step action = some f') :
    Tracks rt (action :: past) f' := by
  cases step_acted stepped with
  | accepted context given accepted pool bookings =>
    have same := accepts_congr tracks.tables context
    refine ⟨?_, ?_, ?_, ?_⟩
    · rw [pool]
      exact ⟨tracks.pool.consistent, tracks.pool.executionId, tracks.pool.drawn,
        tracks.pool.logged, tracks.pool.saved⟩
    · rw [bookings, pool]
      exact tracks.booked
    · rw [pool]
      exact tracks.tables
    · rw [pool]
      simp [lastAccepted, given, ← same, accepted]
  | kept refused idle pool bookings =>
    refine ⟨pool ▸ tracks.pool, by rw [bookings, pool]; exact tracks.booked,
      pool ▸ tracks.tables, ?_⟩
    rw [pool, tracks.context]
    cases given : givenContext action with
    | none => simp [lastAccepted, given]
    | some context =>
      have no := refused context given
      rw [accepts_congr tracks.tables] at no
      simp [lastAccepted, given, no]
  | ran controller intent loopId id clock now member booking pool progress found hands executed own
      after bookings =>
    have poolStep : f.pool.step (.executeIntent intent id now) = some pool := by
      simp [Pool.step, executed]
    obtain ⟨fresh, rfl, _⟩ := Pool.executeIntent_eq_some executed
    refine ⟨after ▸ Pool.step_wellFormed tracks.pool poolStep, ?_, ?_, ?_⟩
    · rw [bookings, after]
      refine Dict.forall_set (fun id' booking' stored => ?_) List.mem_cons_self
      exact List.mem_cons_of_mem _ (tracks.booked id' booking' stored)
    · rw [after]
      exact (executeIntent_tables _ _ _ _).trans tracks.tables
    · rw [after]
      exact (executeIntent_tenantContext _ _ _ _).trans tracks.context
  | resumed id reply now pool progress resumed after bookings =>
    have poolStep : f.pool.step (.resume id reply now) = some pool := by
      simp [Pool.step, resumed]
    obtain ⟨frame, segment, pending, segmented, rfl, _⟩ := Pool.resume_eq_some resumed
    have consistent := tracks.pool.consistent id frame pending
    refine ⟨after ▸ Pool.step_wellFormed tracks.pool poolStep, ?_, ?_, ?_⟩
    · rw [bookings, after]
      exact tracks.booked
    · rw [after]
      exact (resume_tables consistent segmented).trans tracks.tables
    · rw [after]
      exact (resume_tenantContext consistent segmented).trans tracks.context
  | cancelled id pool cancelled after bookings =>
    have poolStep : f.pool.step (.cancel id) = some pool := cancelled
    obtain ⟨_, _, rfl⟩ := Option.map_eq_some_iff.mp cancelled
    exact ⟨after ▸ Pool.step_wellFormed tracks.pool poolStep,
      by rw [bookings, after]; exact tracks.booked, after ▸ tracks.tables, after ▸ tracks.context⟩

theorem ran_runsAsOwn {f f' : Fleet} {intent : Intent} {id : String} {now : ℚ} {booking : Booking}
    {pool : Pool} {progress : Progress} (wf : f.pool.WellFormed)
    (executed : f.pool.executeIntent intent id now = some (pool, progress))
    (after : f'.pool = pool) (bookings : f'.bookings = f.bookings.set id booking)
    (runs : f.RunsAsOwn) : f'.RunsAsOwn ↔
      (engages f.pool.runtime now = true →
        tenantOf f.pool.runtime.tenantContext = some booking.context.tenantId) ∧
      (admitted f.pool.runtime now = true →
        f.pool.runtime.tenantContext = some booking.context) := by
  obtain ⟨fresh, rfl, _⟩ := Pool.executeIntent_eq_some executed
  have booked : ownContext (f.bookings.set id booking) id = some booking.context := by
    simp [ownContext]
  have kept : ∀ id' ∈ f.pool.drawn,
      ownContext (f.bookings.set id booking) id' = ownContext f.bookings id' := by
    intro id' member
    have other : id' ≠ id := fun same => fresh (same ▸ member)
    simp [ownContext, Dict.get_set, other]
  have tenants := (runs.2).congr wf fun id' member => congrArg tenantOf (kept id' member)
  have slots := @executeIntent_runsAs f.pool _ intent id booking.context.tenantId now tenants
    (by rw [booked]; rfl)
  have opened := frameOf_executeIntent_eq f.pool.runtime intent id now
  rw [RunsAsOwn, after, bookings, and_comm]
  refine and_congr slots ⟨fun frames passed => ?_, fun inForce => ?_⟩
  · rw [if_pos passed] at opened
    have first := frames id _ ((Pool.get_settle _ _ _ _).trans ((if_pos rfl).trans opened))
    exact first.trans booked
  · refine Pool.settle_forall (fun frame suspended => ?_) fun id' frame stored => ?_
    · rw [opened] at suspended
      split at suspended
      next passed =>
        cases suspended
        exact (inForce passed).trans booked.symm
      · cases suspended
    · exact (runs.1 id' frame stored).trans (kept id' (wf.drawn id' frame stored)).symm

theorem step_runsAsOwn {rt : KitematicRuntime} {past : List Action} {f f' : Fleet}
    {action : Action} (tracks : Tracks rt past f) (runs : f.RunsAsOwn)
    (stepped : f.step action = some f') : f'.RunsAsOwn ↔ OwnContextInForce rt past f action := by
  cases step_acted stepped with
  | accepted context given accepted pool bookings =>
    refine iff_of_true ?_ ?_
    · rw [RunsAsOwn, pool, bookings]
      exact runs
    · cases action with
      | runIntent => cases given
      | _ => trivial
  | kept refused idle pool bookings =>
    refine iff_of_true ?_ ?_
    · rw [RunsAsOwn, pool, bookings]
      exact runs
    · cases action with
      | runIntent controller intent loopId id clock now =>
        intro member found hands
        rw [idle controller intent loopId id clock now member rfl found] at hands
        cases hands
      | _ => trivial
  | ran controller intent loopId id clock now member booking pool progress found hands executed own
      after bookings =>
    rw [ran_runsAsOwn tracks.pool executed after bookings runs, own, tracks.context]
    constructor
    · intro inForce member' found' _
      rw [found] at found'
      exact Option.some.inj found' ▸ inForce
    · intro inForce
      exact inForce member found hands
  | resumed id reply now pool progress resumed after bookings =>
    obtain ⟨frame, segment, pending, segmented, rfl, _⟩ := Pool.resume_eq_some resumed
    have consistent := tracks.pool.consistent id frame pending
    refine iff_of_true ?_ trivial
    rw [RunsAsOwn, after, bookings]
    refine ⟨Pool.settle_forall (fun next suspended => ?_) runs.1,
      resume_runsAs tracks.pool pending segmented runs.2⟩
    exact (Pool.frameOf_resume consistent segmented suspended).1.tenantCtx.trans
      (runs.1 id frame pending)
  | cancelled id pool cancelled after bookings =>
    obtain ⟨_, _, rfl⟩ := Option.map_eq_some_iff.mp cancelled
    refine iff_of_true ?_ trivial
    rw [RunsAsOwn, after, bookings]
    exact ⟨Dict.forall_erase runs.1 id, cancel_runsAs runs.2⟩

/-- In every state of a run all executions are under their own controllers' contexts
exactly when every run that reaches the runtime finds its own context in force. -/
theorem runsAsOwn_iff_ownContextInForce {rt : KitematicRuntime} {actions : List Action}
    {f : Fleet} (ran : Trace.run step (start rt) actions = some f) :
    Trace.AllStates step RunsAsOwn (start rt) actions ↔
      Trace.EachStep step (OwnContextInForce rt) [] (start rt) actions := by
  have good : (start rt).RunsAsOwn := by
    refine ⟨?_, ?_, ?_⟩ <;> simp [start, Pool.start]
  exact Trace.allStates_iff_eachStep (fun _ _ _ _ => step_tracks)
    (fun _ _ _ _ => step_runsAsOwn) (start_tracks rt) good ran

def firstRuns (between : List Action) : List Action :=
  [.construct 0 {} ⟨"acme", "agent", ∅⟩] ++ between ++
    [.runIntent 0 ⟨"agent", "tool.read", []⟩ "loop-1" "e1" ⟨0, 0, 0, 0⟩ 0]

theorem runsAsOwn_iff_ownContextInForce_alone :
    ∃ f, Trace.run step (start {}) (firstRuns []) = some f ∧
      (Trace.AllStates step RunsAsOwn (start {}) (firstRuns []) ↔
        Trace.EachStep step (OwnContextInForce {}) [] (start {}) (firstRuns [])) := by
  obtain ⟨f, ran⟩ : ∃ f, Trace.run step (start {}) (firstRuns []) = some f :=
    Option.isSome_iff_exists.mp (by decide +kernel)
  exact ⟨f, ran, runsAsOwn_iff_ownContextInForce ran⟩

/-- A controller built in between takes the first one's run over to its tenant. -/
theorem later_controller_takes_over :
    ¬ Trace.AllStates step RunsAsOwn (start {})
      (firstRuns [.construct 1 {} ⟨"globex", "other", ∅⟩]) := by
  intro all
  obtain ⟨f, ran⟩ : ∃ f, Trace.run step (start {})
      (firstRuns [.construct 1 {} ⟨"globex", "other", ∅⟩]) = some f :=
    Option.isSome_iff_exists.mp (by decide +kernel)
  have own := (all.last ran).1
  have seen : (Trace.run step (start {}) (firstRuns [.construct 1 {} ⟨"globex", "other", ∅⟩])).all
      (fun f => (f.pool.inFlight.get "e1").any fun frame =>
        frame.tenantCtx ≠ ownContext f.bookings "e1") = true := by decide +kernel
  rw [ran, Option.all_some, Option.any_eq_true] at seen
  obtain ⟨frame, pending, other⟩ := seen
  simp [own "e1" frame pending] at other

end Fleet
end Kitematic.LoopTenants
