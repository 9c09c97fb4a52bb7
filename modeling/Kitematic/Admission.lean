import Kitematic.RuntimeAbi

/-! What one `execute_intent` call can do up to its first await. The gates are
stated as predicates of the runtime before the call, and `Opening` lists the
four ways a call opens: refused by the tenant gate, refused by the quota gate,
refused by the shutdown check, or admitted to the chain. -/

namespace Kitematic.Admission
open Isolation Quotas RuntimeAbi State Tenant

abbrev tenantOf (ctx : Option TenantContext) : Option String := ctx.map TenantContext.tenantId

/-- The slots and the checkpoint an effect touches are the tenant's. -/
def OfTenant (tenant : Option String) : Effect → Prop
  | .isolationStart t | .isolationEnd t | .quotaStart t _ | .quotaEnd t _ => tenant = some t
  | .call (.save _ state) => tenant = state.tenantId
  | _ => True

def IsCall : Effect → Prop
  | .call _ => True
  | _ => False

def moveOf : Effect → Option (ExecutionState × ExecutionState)
  | .transition current target | .transitionSafe current target => some (current, target)
  | _ => none

def moves (effects : List Effect) : List (ExecutionState × ExecutionState) :=
  effects.filterMap moveOf

@[simp] theorem moves_nil : moves [] = [] := rfl

@[simp] theorem moves_cons (e : Effect) (effects : List Effect) :
    moves (e :: effects) = (moveOf e).toList ++ moves effects := by
  cases same : moveOf e <;> simp [moves, same]

@[simp] theorem moves_append (first second : List Effect) :
    moves (first ++ second) = moves first ++ moves second :=
  List.filterMap_append

/-- Effects without a collaborator call, all of the tenant of one context. -/
def Quiet (ctx : Option TenantContext) (effects : List Effect) : Prop :=
  ∀ e ∈ effects, ¬ IsCall e ∧ OfTenant (tenantOf ctx) e

def Silent (effects : List Effect) : Prop :=
  ∀ e ∈ effects, ¬ IsCall e ∧ ∀ tenant, OfTenant tenant e

theorem Silent.quiet {effects : List Effect} (silent : Silent effects)
    (ctx : Option TenantContext) : Quiet ctx effects :=
  fun e member => ⟨(silent e member).1, (silent e member).2 _⟩

/-- The ends of a call that is turned away before the chain starts. -/
inductive Refused (id : String) : Progress → Prop where
  | returned (r : Rejection) : Refused id (r.progress id)
  | raised (e : EscapedError) : Refused id (.raised e)

theorem Refused.isSuspended {id : String} {p : Progress} (refused : Refused id p) :
    p.isSuspended = false := by
  cases refused <;> rfl

theorem Quiet.nil (ctx : Option TenantContext) : Quiet ctx [] := by simp [Quiet]

theorem Quiet.append {ctx : Option TenantContext} {first second : List Effect}
    (left : Quiet ctx first) (right : Quiet ctx second) : Quiet ctx (first ++ second) := by
  intro e member
  exact (List.mem_append.mp member).elim (left e) (right e)

end Kitematic.Admission

namespace Kitematic.RuntimeAbi.Segment

/-- What a check keeps and then its continuation keeps, their sequence keeps. -/
theorem andThen_keeps {α : Type} {P : KitematicRuntime → Prop}
    {s : Segment (Except Progress α)} {next : KitematicRuntime → α → Segment Progress}
    (first : P s.runtime) (later : ∀ rt value, P rt → P (next rt value).runtime) :
    P (s.andThen next).runtime := by
  unfold andThen
  split
  · exact first
  · exact later _ _ first

end Kitematic.RuntimeAbi.Segment

namespace Kitematic.RuntimeAbi.KitematicRuntime
open Admission Isolation Quotas State Tenant

theorem setTenantContext_eq_ok {rt rt' : KitematicRuntime} {context : TenantContext}
    (accepted : rt.setTenantContext context = .ok rt') :
    rt' = { rt with tenantContext := some context } := by
  unfold setTenantContext at accepted
  grind

def executionCount (rt : KitematicRuntime) (t : String) : Nat :=
  (rt.isolation.map (·.executionCount t)).getD 0

def active (rt : KitematicRuntime) (t : String) : Finset String :=
  (rt.quotaManager.map (·.active t)).getD ∅

def availableTokens (rt : KitematicRuntime) (t : String) (now : ℚ) : Option ℚ :=
  rt.quotaManager.map (·.rateLimiter.available t now)

def passesTenantGate (rt : KitematicRuntime) : Bool :=
  match rt.isolation, rt.tenantContext with
  | some _, none => false
  | some b, some ctx =>
      match b.checkResourceLimits ctx.tenantId with
      | .ok () => true
      | .error _ => false
  | none, _ => true

/-- A quota is kept only for a tenant that has a non-empty id. -/
def quotaApplies (rt : KitematicRuntime) : Bool :=
  rt.quotaManager.isSome ∧ quotaTenant rt.tenantContext ≠ ""

def passesQuotaGate (rt : KitematicRuntime) (now : ℚ) : Bool :=
  match rt.quotaManager with
  | none => true
  | some q =>
      quotaTenant rt.tenantContext = "" ∨
        (q.checkConcurrent (quotaTenant rt.tenantContext) = true ∧
          (q.checkAndConsumeRate (quotaTenant rt.tenantContext) now).2 = true)

def takeIsolation (rt : KitematicRuntime) : KitematicRuntime :=
  match rt.isolation, rt.tenantContext with
  | some b, some ctx => { rt with isolation := some (b.startExecution ctx.tenantId) }
  | _, _ => rt

def takeQuota (rt : KitematicRuntime) (executionId : String) (now : ℚ) : KitematicRuntime :=
  match rt.quotaManager with
  | none => rt
  | some q =>
      if quotaTenant rt.tenantContext = "" then rt
      else
        { rt with
          quotaManager := some ((q.checkAndConsumeRate (quotaTenant rt.tenantContext) now).1
            |>.startExecution (quotaTenant rt.tenantContext) executionId) }

def isolationSlot (rt : KitematicRuntime) : List Effect :=
  match rt.isolation, rt.tenantContext with
  | some _, some ctx => [.isolationStart ctx.tenantId]
  | _, _ => []

def quotaSlot (rt : KitematicRuntime) (executionId : String) : List Effect :=
  if rt.quotaApplies then [.quotaStart (quotaTenant rt.tenantContext) executionId] else []

def firstFrame (rt : KitematicRuntime) (intent : Intent) (executionId : String) (now : ℚ) :
    Frame where
  executionId := executionId
  intent := intent
  tenantCtx := rt.tenantContext
  quotaAcquired := rt.quotaApplies
  state := .validating
  startTime := now
  awaiting := .evaluateIntent intent

section observers
variable (rt : KitematicRuntime) (t id : String) (now : ℚ)

@[simp] theorem takeIsolation_tenantContext :
    rt.takeIsolation.tenantContext = rt.tenantContext := by
  unfold takeIsolation
  split <;> simp_all

@[simp] theorem takeIsolation_state : rt.takeIsolation.state = rt.state := by
  unfold takeIsolation
  split <;> rfl

@[simp] theorem takeIsolation_quotaManager : rt.takeIsolation.quotaManager = rt.quotaManager := by
  unfold takeIsolation
  split <;> rfl

@[simp] theorem takeIsolation_active : rt.takeIsolation.active t = rt.active t := by
  simp [active]

@[simp] theorem takeIsolation_availableTokens :
    rt.takeIsolation.availableTokens t now = rt.availableTokens t now := by
  simp [availableTokens]

@[simp] theorem takeQuota_tenantContext :
    (rt.takeQuota id now).tenantContext = rt.tenantContext := by
  unfold takeQuota
  split
  · rfl
  · split <;> rfl

@[simp] theorem takeQuota_state : (rt.takeQuota id now).state = rt.state := by
  unfold takeQuota
  split
  · rfl
  · split <;> rfl

@[simp] theorem takeQuota_isolation : (rt.takeQuota id now).isolation = rt.isolation := by
  unfold takeQuota
  split
  · rfl
  · split <;> rfl

end observers

@[simp] theorem takeQuota_executionCount (rt : KitematicRuntime) (id t : String) (now : ℚ) :
    (rt.takeQuota id now).executionCount t = rt.executionCount t := by
  simp [executionCount]

@[simp] theorem takeQuota_quotaManager_isSome (rt : KitematicRuntime) (id : String) (now : ℚ) :
    (rt.takeQuota id now).quotaManager.isSome = rt.quotaManager.isSome := by
  unfold takeQuota
  split
  · rfl
  · split <;> simp_all

theorem takeIsolation_isolation_isSome (rt : KitematicRuntime) :
    rt.takeIsolation.isolation.isSome = rt.isolation.isSome := by
  unfold takeIsolation
  split <;> simp_all

theorem quotaTenant_eq {ctx : Option TenantContext} {t : String} (named : quotaTenant ctx = t)
    (nonempty : t ≠ "") : tenantOf ctx = some t := by
  cases ctx with
  | none => exact absurd named.symm nonempty
  | some ctx => exact congrArg some named

theorem takeIsolation_executionCount (rt : KitematicRuntime) (t : String) :
    rt.takeIsolation.executionCount t =
      if rt.isolation.isSome ∧ tenantOf rt.tenantContext = some t then rt.executionCount t + 1
      else rt.executionCount t := by
  cases iso : rt.isolation with
  | none => simp [takeIsolation, iso, executionCount]
  | some b =>
    cases ctx : rt.tenantContext with
    | none => simp [takeIsolation, iso, ctx, executionCount, tenantOf]
    | some c =>
      by_cases h : c.tenantId = t
      · simp [takeIsolation, iso, ctx, executionCount, tenantOf, h]
      · simp [takeIsolation, iso, ctx, executionCount, tenantOf, h, Ne.symm h]

theorem takeQuota_active (rt : KitematicRuntime) (id t : String) (now : ℚ) :
    (rt.takeQuota id now).active t =
      if rt.quotaApplies = true ∧ tenantOf rt.tenantContext = some t then insert id (rt.active t)
      else rt.active t := by
  cases quota : rt.quotaManager with
  | none => simp [takeQuota, quota, active, quotaApplies]
  | some q =>
    by_cases empty : quotaTenant rt.tenantContext = ""
    · simp [takeQuota, quota, empty, active, quotaApplies]
    · have named := quotaTenant_eq rfl empty
      by_cases h : t = quotaTenant rt.tenantContext
      · simp [takeQuota, quota, empty, active, quotaApplies, named, h]
      · simp [takeQuota, quota, empty, active, quotaApplies, named, h, Ne.symm h]

theorem takeQuota_availableTokens (rt : KitematicRuntime) (id t : String) (now : ℚ)
    (passed : rt.passesQuotaGate now = true) :
    (rt.takeQuota id now).availableTokens t now =
      if rt.quotaApplies = true ∧ tenantOf rt.tenantContext = some t then
        (rt.availableTokens t now).map (· - 1)
      else rt.availableTokens t now := by
  cases quota : rt.quotaManager with
  | none => simp [takeQuota, quota, availableTokens, quotaApplies]
  | some q =>
    by_cases empty : quotaTenant rt.tenantContext = ""
    · simp [takeQuota, quota, empty, availableTokens, quotaApplies]
    · have named := quotaTenant_eq rfl empty
      have granted : (q.rateLimiter.consume (quotaTenant rt.tenantContext) now).2 = true := by
        simp only [passesQuotaGate, quota, empty, false_or, decide_eq_true_eq] at passed
        exact passed.2
      have left :=
        q.rateLimiter.available_consume (quotaTenant rt.tenantContext) t now 1 (by norm_num)
      rw [granted] at left
      by_cases h : t = quotaTenant rt.tenantContext
      · simpa [takeQuota, quota, empty, availableTokens, quotaApplies, named, h,
          QuotaManager.checkAndConsumeRate, QuotaManager.startExecution] using left
      · simpa [takeQuota, quota, empty, availableTokens, quotaApplies, named, h, Ne.symm h,
          QuotaManager.checkAndConsumeRate, QuotaManager.startExecution] using left

@[simp] theorem takeIsolation_passesQuotaGate (rt : KitematicRuntime) (now : ℚ) :
    rt.takeIsolation.passesQuotaGate now = rt.passesQuotaGate now := by
  simp [passesQuotaGate]

@[simp] theorem takeIsolation_quotaApplies (rt : KitematicRuntime) :
    rt.takeIsolation.quotaApplies = rt.quotaApplies := by
  simp [quotaApplies]

@[simp] theorem takeIsolation_quotaSlot (rt : KitematicRuntime) (id : String) :
    rt.takeIsolation.quotaSlot id = rt.quotaSlot id := by
  simp [quotaSlot]

theorem quotaApplies_nonempty {rt : KitematicRuntime} {t : String}
    (applies : rt.quotaApplies = true)
    (own : tenantOf rt.tenantContext = some t) : t ≠ "" := by
  obtain ⟨ctx, context, rfl⟩ := Option.map_eq_some_iff.mp own
  simp only [quotaApplies, context, quotaTenant, decide_eq_true_eq] at applies
  exact applies.2

/-! Releasing a quota slot touches the running set of one tenant and nothing else. -/

section release
variable (rt : KitematicRuntime) (ctx : Option TenantContext) (id : String) (acquired : Bool)

@[simp] theorem releaseQuota_isolation :
    (rt.releaseQuota ctx id acquired).runtime.isolation = rt.isolation := by
  unfold releaseQuota
  split
  · split <;> rfl
  · rfl

@[simp] theorem releaseQuota_executionCount (t : String) :
    (rt.releaseQuota ctx id acquired).runtime.executionCount t = rt.executionCount t := by
  simp [executionCount]

@[simp] theorem releaseQuota_quotaManager_isSome :
    (rt.releaseQuota ctx id acquired).runtime.quotaManager.isSome = rt.quotaManager.isSome := by
  unfold releaseQuota
  split
  · split <;> simp_all
  · rfl

@[simp] theorem releaseQuota_tenantContext :
    (rt.releaseQuota ctx id acquired).runtime.tenantContext = rt.tenantContext := by
  unfold releaseQuota
  split
  · split <;> rfl
  · rfl

@[simp] theorem releaseQuota_state :
    (rt.releaseQuota ctx id acquired).runtime.state = rt.state := by
  unfold releaseQuota
  split
  · split <;> rfl
  · rfl

@[simp] theorem releaseQuota_availableTokens (t : String) (now : ℚ) :
    (rt.releaseQuota ctx id acquired).runtime.availableTokens t now = rt.availableTokens t now := by
  unfold releaseQuota
  cases quota : rt.quotaManager with
  | none => rfl
  | some q =>
    by_cases h : acquired = true ∧ quotaTenant ctx ≠ "" <;> simp [h, quota, availableTokens]

theorem releaseQuota_active (t : String) :
    (rt.releaseQuota ctx id acquired).runtime.active t =
      if acquired = true ∧ tenantOf ctx = some t ∧ t ≠ "" then (rt.active t).erase id
      else rt.active t := by
  unfold releaseQuota
  cases quota : rt.quotaManager with
  | none => simp [active, quota]
  | some q =>
    cases ctx with
    | none => simp [active, quota, quotaTenant]
    | some c =>
      by_cases h : acquired = true ∧ c.tenantId ≠ ""
      · by_cases same : t = c.tenantId
        · simp [h, same, active, quota, quotaTenant]
        · simp [h, same, Ne.symm same, active, quota, quotaTenant]
      · have kept : ¬ (acquired = true ∧ c.tenantId = t ∧ t ≠ "") := by
          rintro ⟨taken, rfl, nonempty⟩
          exact h ⟨taken, nonempty⟩
        simp [h, kept, active, quota, quotaTenant]

theorem active_takenReleased {rt : KitematicRuntime} {id t : String} (unused : id ∉ rt.active t)
    (now : ℚ) : ((rt.takeIsolation.takeQuota id now).releaseQuota rt.tenantContext id
      rt.quotaApplies).runtime.active t = rt.active t := by
  simp only [releaseQuota_active, takeQuota_active, takeIsolation_active,
    takeIsolation_quotaApplies, takeIsolation_tenantContext]
  by_cases own : rt.quotaApplies = true ∧ tenantOf rt.tenantContext = some t
  · have named : t ≠ "" := quotaApplies_nonempty own.1 own.2
    simp [own, named, unused]
  · have kept : ¬ (rt.quotaApplies = true ∧ tenantOf rt.tenantContext = some t ∧ t ≠ "") :=
      fun taken => own ⟨taken.1, taken.2.1⟩
    rw [if_neg kept, if_neg own]

end release

/-- What a refused quota check may have changed: refilled buckets, no more. -/
structure KeepsSlots (rt rt' : KitematicRuntime) (now : ℚ) : Prop where
  isolation : rt'.isolation = rt.isolation
  tenantContext : rt'.tenantContext = rt.tenantContext
  state : rt'.state = rt.state
  active : ∀ t, rt'.active t = rt.active t
  availableTokens : ∀ t, rt'.availableTokens t now = rt.availableTokens t now
  quotaManager_isSome : rt'.quotaManager.isSome = rt.quotaManager.isSome

theorem tenantGate_refused {rt : KitematicRuntime} (id : String)
    (gate : rt.passesTenantGate = false) :
    ∃ p : Progress, Refused id p ∧ rt.tenantGate id = ⟨rt, [], .error p⟩ := by
  cases iso : rt.isolation with
  | none => simp [passesTenantGate, iso] at gate
  | some b =>
    cases context : rt.tenantContext with
    | none =>
      exact ⟨_, .returned .noTenantContext, by simp only [tenantGate, iso, context]⟩
    | some ctx =>
      cases limits : b.checkResourceLimits ctx.tenantId with
      | ok _ => simp [passesTenantGate, iso, context, limits] at gate
      | error e =>
        exact ⟨_, .raised (.isolation e), by simp only [tenantGate, iso, context, limits]⟩

theorem tenantGate_passed {rt : KitematicRuntime} (id : String)
    (gate : rt.passesTenantGate = true) :
    rt.tenantGate id = ⟨rt.takeIsolation, rt.isolationSlot, .ok ()⟩ := by
  cases iso : rt.isolation with
  | none => simp only [tenantGate, takeIsolation, isolationSlot, iso]
  | some b =>
    cases context : rt.tenantContext with
    | none => simp [passesTenantGate, iso, context] at gate
    | some ctx =>
      cases limits : b.checkResourceLimits ctx.tenantId with
      | ok _ => simp only [tenantGate, takeIsolation, isolationSlot, iso, context, limits]
      | error e => simp [passesTenantGate, iso, context, limits] at gate

theorem isolationSlot_of_passed {rt : KitematicRuntime} (attached : rt.isolation.isSome = true)
    (gate : rt.passesTenantGate = true) : ∃ ctx, rt.tenantContext = some ctx ∧
      rt.isolationSlot = [.isolationStart ctx.tenantId] := by
  obtain ⟨b, iso⟩ := Option.isSome_iff_exists.mp attached
  cases context : rt.tenantContext with
  | none => simp [passesTenantGate, iso, context] at gate
  | some ctx => exact ⟨ctx, rfl, by simp only [isolationSlot, iso, context]⟩

theorem isolationSlot_quiet (rt : KitematicRuntime) : Quiet rt.tenantContext rt.isolationSlot := by
  unfold isolationSlot
  split
  next ctx _ context => simp [Quiet, IsCall, OfTenant, context]
  next => exact .nil _

theorem quotaSlot_quiet (rt : KitematicRuntime) (id : String) :
    Quiet rt.tenantContext (rt.quotaSlot id) := by
  unfold quotaSlot
  split
  next applies =>
    simp only [quotaApplies, decide_eq_true_eq] at applies
    simp [Quiet, IsCall, OfTenant, quotaTenant_eq rfl applies.2]
  next => exact .nil _

@[simp] theorem moves_isolationSlot (rt : KitematicRuntime) : moves rt.isolationSlot = [] := by
  unfold isolationSlot
  split <;> rfl

@[simp] theorem moves_quotaSlot (rt : KitematicRuntime) (id : String) :
    moves (rt.quotaSlot id) = [] := by
  unfold quotaSlot
  split <;> rfl

@[simp] theorem moves_count (rt : KitematicRuntime) (metrics : List String) :
    moves (rt.count metrics) = [] := by
  unfold count
  split
  · simp [moves, moveOf]
  · rfl

@[simp] theorem moves_trace (rt : KitematicRuntime) {phases : List Effect} :
    moves (rt.trace phases) = if rt.tracer then moves phases else [] := by
  unfold trace
  split <;> rfl

@[simp] theorem moves_releaseQuota (rt : KitematicRuntime) (ctx : Option TenantContext)
    (id : String) (acquired : Bool) : moves (rt.releaseQuota ctx id acquired).effects = [] := by
  unfold releaseQuota
  split
  · split <;> rfl
  · rfl

theorem count_silent (rt : KitematicRuntime) (metrics : List String) :
    Silent (rt.count metrics) := by
  intro e member
  unfold count at member
  split at member
  · obtain ⟨metric, _, rfl⟩ := List.mem_map.mp member
    exact ⟨id, fun _ => trivial⟩
  · cases member

theorem count_quiet (rt : KitematicRuntime) (ctx : Option TenantContext)
    (metrics : List String) : Quiet ctx (rt.count metrics) := (rt.count_silent metrics).quiet ctx

theorem quotaGate_refused {rt : KitematicRuntime} (id : String) {now : ℚ}
    (gate : rt.passesQuotaGate now = false) :
    ∃ p effects rt', Refused id p ∧
      rt.quotaGate rt.tenantContext id now = ⟨rt', effects, .error p⟩ ∧ KeepsSlots rt rt' now ∧
      Silent effects := by
  cases quota : rt.quotaManager with
  | none => simp [passesQuotaGate, quota] at gate
  | some q =>
    by_cases empty : quotaTenant rt.tenantContext = ""
    · simp [passesQuotaGate, quota, empty] at gate
    cases room : q.checkConcurrent (quotaTenant rt.tenantContext) with
    | false =>
      refine ⟨_, _, rt, .returned (.concurrentLimit (quotaTenant rt.tenantContext)), ?_,
        ⟨rfl, rfl, rfl, fun _ => rfl, fun _ => rfl, rfl⟩,
        rt.count_silent ["resource.quota.exceeded"]⟩
      simp [quotaGate, quota, empty, room]
    | true =>
      have denied : (q.checkAndConsumeRate (quotaTenant rt.tenantContext) now).2 = false := by
        simpa [passesQuotaGate, quota, empty, room] using gate
      have kept : KeepsSlots rt { rt with
          quotaManager := some ((q.checkAndConsumeRate (quotaTenant rt.tenantContext) now).1.retryAfter
            (quotaTenant rt.tenantContext) now).1 } now := by
        refine ⟨rfl, rfl, rfl, fun t => by simp [active, quota], fun t => ?_, by simp [quota]⟩
        have left := q.rateLimiter.available_consume (quotaTenant rt.tenantContext) t now 1
          (by norm_num)
        have denied' : (q.rateLimiter.consume (quotaTenant rt.tenantContext) now).2 = false :=
          denied
        simpa [availableTokens, quota, QuotaManager.retryAfter, QuotaManager.checkAndConsumeRate,
          denied'] using left
      cases consumed : q.checkAndConsumeRate (quotaTenant rt.tenantContext) now with
      | mk q' allowed =>
        rw [consumed] at denied kept
        obtain rfl : allowed = false := denied
        cases answered : q'.retryAfter (quotaTenant rt.tenantContext) now with
        | mk q'' answer =>
          rw [answered] at kept
          cases answer with
          | ok retry =>
            refine ⟨_, _, _, .returned (.rateLimit (quotaTenant rt.tenantContext) retry), ?_, kept,
              rt.count_silent ["resource.rate_limit.hit"]⟩
            simp [quotaGate, quota, empty, room, consumed, answered]
          | error e =>
            refine ⟨_, [], _, .raised (.zeroDivision e), ?_, kept, by simp [Silent]⟩
            simp [quotaGate, quota, empty, room, consumed, answered]

theorem quotaGate_passed {rt : KitematicRuntime} (id : String) {now : ℚ}
    (gate : rt.passesQuotaGate now = true) :
    rt.quotaGate rt.tenantContext id now =
      ⟨rt.takeQuota id now, rt.quotaSlot id, .ok rt.quotaApplies⟩ := by
  cases quota : rt.quotaManager with
  | none => simp [quotaGate, takeQuota, quotaSlot, quotaApplies, quota]
  | some q =>
    by_cases empty : quotaTenant rt.tenantContext = ""
    · simp [quotaGate, takeQuota, quotaSlot, quotaApplies, quota, empty]
    · simp only [passesQuotaGate, quota, empty, false_or, decide_eq_true_eq] at gate
      cases consumed : q.checkAndConsumeRate (quotaTenant rt.tenantContext) now with
      | mk q' allowed =>
        rw [consumed] at gate
        obtain rfl : allowed = true := gate.2
        simp [quotaGate, takeQuota, quotaSlot, quotaApplies, quota, empty, gate.1, consumed]

theorem releaseQuota_quiet (rt : KitematicRuntime) (ctx : Option TenantContext)
    (id : String) (acquired : Bool) :
    Quiet ctx (rt.releaseQuota ctx id acquired).effects := by
  unfold releaseQuota
  split
  · split
    next slot => simp [Quiet, IsCall, OfTenant, quotaTenant_eq rfl slot.2]
    next => exact .nil ctx
  · exact .nil ctx

theorem releaseQuota_not_acquired (rt : KitematicRuntime) (ctx : Option TenantContext)
    (id : String) : rt.releaseQuota ctx id false = ⟨rt, [], ()⟩ := by
  unfold releaseQuota
  split
  · simp
  · rfl

def shutdownRejection (rt : KitematicRuntime) : Rejection :=
  if rt.state = .draining then .draining else .stopped

theorem shutdownGate_refused {rt : KitematicRuntime} (ctx : Option TenantContext) (id : String)
    (acquired : Bool) (state : rt.state ≠ .running) :
    ∃ effects, rt.shutdownGate ctx id acquired = ⟨(rt.releaseQuota ctx id acquired).runtime,
        effects, .error (rt.shutdownRejection.progress id)⟩ ∧ Quiet ctx effects ∧
      (acquired = false → Silent effects) := by
  have counted := rt.count_silent ["runtime.executions.rejected"]
  have quiet := (rt.releaseQuota_quiet ctx id acquired).append (counted.quiet ctx)
  have silent : acquired = false → Silent ((rt.releaseQuota ctx id acquired).effects ++
      rt.count ["runtime.executions.rejected"]) := by
    rintro rfl
    rwa [releaseQuota_not_acquired]
  cases h : rt.state with
  | running => exact absurd h state
  | draining => exact ⟨_, by simp only [shutdownGate, shutdownRejection, h, if_true], quiet, silent⟩
  | stopped => exact ⟨_, by simp [shutdownGate, shutdownRejection, h], quiet, silent⟩

theorem shutdownGate_passed {rt : KitematicRuntime} (ctx : Option TenantContext) (id : String)
    (acquired : Bool) (state : rt.state = .running) :
    rt.shutdownGate ctx id acquired = ⟨rt, [], .ok ()⟩ := by
  simp only [shutdownGate, state]

theorem beginGuarded_eq (rt : KitematicRuntime) (intent : Intent) (id : String)
    (ctx : Option TenantContext) (acquired : Bool) (now : ℚ) :
    ∃ before, Quiet ctx before ∧ moves before = [(.created, .validating)] ∧
      rt.beginGuarded intent id ctx acquired now = ⟨rt, before ++ [.call (.evaluateIntent intent)],
        .suspended ⟨id, intent, ctx, acquired, .validating, now, .evaluateIntent intent⟩⟩ := by
  refine ⟨rt.count ["runtime.executions.total"] ++ rt.trace [.startPhase .intentReceived] ++
    [.transition .created .validating], ?_, by simp [moveOf], rfl⟩
  refine ((rt.count_quiet ctx _).append ?_).append (by simp [Quiet, IsCall, OfTenant])
  unfold trace
  split <;> simp [Quiet, IsCall, OfTenant]

/-- The four ways a call opens. In the first three it ends without a
collaborator call; only an admitted call becomes a suspended frame. -/
inductive Opening (rt : KitematicRuntime) (intent : Intent) (id : String) (now : ℚ) :
    Segment Progress → Prop where
  | tenantRefused {p : Progress} (gate : rt.passesTenantGate = false) (ended : Refused id p) :
      Opening rt intent id now ⟨rt, [], p⟩
  | quotaRefused {effects : List Effect} {p : Progress} {rt' : KitematicRuntime}
      (entered : rt.passesTenantGate = true) (gate : rt.passesQuotaGate now = false)
      (ended : Refused id p) (keeps : KeepsSlots rt.takeIsolation rt' now)
      (silent : Silent effects) :
      Opening rt intent id now ⟨rt', rt.isolationSlot ++ effects, p⟩
  | shutdownRefused {effects : List Effect} (entered : rt.passesTenantGate = true)
      (quota : rt.passesQuotaGate now = true) (state : rt.state ≠ .running)
      (quiet : Quiet rt.tenantContext effects)
      (silent : rt.quotaApplies = false → Silent effects) :
      Opening rt intent id now
        ⟨((rt.takeIsolation.takeQuota id now).releaseQuota rt.tenantContext id
            rt.quotaApplies).runtime, rt.isolationSlot ++ (rt.quotaSlot id ++ effects),
          rt.shutdownRejection.progress id⟩
  | admitted {before : List Effect} (entered : rt.passesTenantGate = true)
      (quota : rt.passesQuotaGate now = true) (state : rt.state = .running)
      (quiet : Quiet rt.tenantContext before) (path : moves before = [(.created, .validating)]) :
      Opening rt intent id now
        ⟨rt.takeIsolation.takeQuota id now,
          rt.isolationSlot ++ (rt.quotaSlot id ++ (before ++ [.call (.evaluateIntent intent)])),
          .suspended (rt.firstFrame intent id now)⟩

theorem executeIntent_opening (rt : KitematicRuntime) (intent : Intent) (id : String) (now : ℚ) :
    Opening rt intent id now (rt.executeIntent intent id now) := by
  unfold executeIntent
  cases tenant : rt.passesTenantGate with
  | false =>
    obtain ⟨p, ended, gate⟩ := tenantGate_refused id tenant
    simpa only [gate, Segment.andThen] using .tenantRefused tenant ended
  | true =>
    have gate := tenantGate_passed id tenant
    have context := rt.takeIsolation_tenantContext
    cases quota : rt.passesQuotaGate now with
    | false =>
      obtain ⟨p, counted, rt', ended, quotaGate, keeps, silent⟩ :=
        @quotaGate_refused rt.takeIsolation id now (by simpa using quota)
      rw [context] at quotaGate
      simp only [gate, quotaGate, Segment.andThen]
      exact .quotaRefused tenant quota ended keeps silent
    | true =>
      have quotaGate := @quotaGate_passed rt.takeIsolation id now (by simpa using quota)
      rw [context, takeIsolation_quotaApplies, takeIsolation_quotaSlot] at quotaGate
      by_cases state : rt.state = .running
      · have running : (rt.takeIsolation.takeQuota id now).state = .running := by simpa using state
        obtain ⟨before, quiet, path, begun⟩ := (rt.takeIsolation.takeQuota id now).beginGuarded_eq
          intent id rt.tenantContext rt.quotaApplies now
        simp only [gate, quotaGate, shutdownGate_passed _ _ _ running, begun, Segment.andThen,
          List.nil_append]
        exact .admitted tenant quota state quiet path
      · have leaving : (rt.takeIsolation.takeQuota id now).state ≠ .running := by simpa using state
        obtain ⟨rejected, shutdown, quiet, silent⟩ :=
          shutdownGate_refused rt.tenantContext id rt.quotaApplies leaving
        have rejection : (rt.takeIsolation.takeQuota id now).shutdownRejection =
          rt.shutdownRejection := by simp [shutdownRejection]
        rw [rejection] at shutdown
        simp only [gate, quotaGate, shutdown, Segment.andThen]
        exact .shutdownRefused tenant quota state quiet silent

end Kitematic.RuntimeAbi.KitematicRuntime
