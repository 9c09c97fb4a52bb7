import Kitematic.ConcurrencyLimits
import Kitematic.QuotaSlots
import Kitematic.TokenBuckets
import Mathlib.Algebra.Order.Group.MinMax

/-! How many executions of a tenant pass the quota gate of a runtime in a minute.
The gate asks the concurrency limit and the token bucket; the limit per minute that
is configured for the tenant is read nowhere, so what bounds the admissions is the
bucket alone. -/

namespace Kitematic.Quotas.QuotaManager

structure Metered (cap rate : ℚ) (q : QuotaManager) : Prop where
  maxTokens : q.rateLimiter.maxTokens = cap
  refillRate : q.rateLimiter.refillRate = rate
  uniform : q.rateLimiter.Uniform

variable {cap rate : ℚ} {q : QuotaManager}

theorem Metered.congr {q' : QuotaManager} (metered : q.Metered cap rate)
    (same : q'.rateLimiter = q.rateLimiter) : q'.Metered cap rate := by
  obtain ⟨full, refill, uniform⟩ := metered
  exact ⟨same ▸ full, same ▸ refill, same ▸ uniform⟩

theorem Metered.consumed (metered : q.Metered cap rate) (t : String) (now : ℚ) :
    (q.checkAndConsumeRate t now).1.Metered cap rate :=
  ⟨(q.rateLimiter.consume_maxTokens t now 1).trans metered.maxTokens,
    (q.rateLimiter.consume_refillRate t now 1).trans metered.refillRate,
    metered.uniform.consume t now 1⟩

theorem Metered.asked (metered : q.Metered cap rate) (t : String) (now : ℚ) :
    (q.retryAfter t now).1.Metered cap rate :=
  ⟨metered.maxTokens, metered.refillRate, metered.uniform.retryAfter t now⟩

end Kitematic.Quotas.QuotaManager

namespace Kitematic.RuntimeAbi.KitematicRuntime
open Admission Interleaving Quotas Resumption Tenant

def Metered (cap rate : ℚ) (rt : KitematicRuntime) : Prop :=
  ∃ q, rt.quotaManager = some q ∧ q.Metered cap rate

section metered
variable {cap rate : ℚ} {rt : KitematicRuntime}

theorem Metered.congr {rt' : KitematicRuntime} (metered : rt.Metered cap rate)
    (same : rt'.quotaManager = rt.quotaManager) : rt'.Metered cap rate := by
  rwa [Metered, same]

theorem tenantGate_metered (metered : rt.Metered cap rate) (id : String) :
    (rt.tenantGate id).runtime.Metered cap rate := by
  unfold tenantGate
  split
  · exact metered
  · split
    · exact metered
    · exact metered.congr rfl
  · exact metered

theorem releaseQuota_metered (metered : rt.Metered cap rate) (ctx : Option TenantContext)
    (id : String) (acquired : Bool) :
    (rt.releaseQuota ctx id acquired).runtime.Metered cap rate := by
  obtain ⟨q, manager, metered⟩ := metered
  unfold releaseQuota
  rw [manager]
  simp only
  split
  · exact ⟨_, rfl, metered.congr (by simp)⟩
  · exact ⟨q, manager, metered⟩

theorem quotaGate_metered (metered : rt.Metered cap rate) (ctx : Option TenantContext)
    (id : String) (now : ℚ) : (rt.quotaGate ctx id now).runtime.Metered cap rate := by
  obtain ⟨q, manager, metered⟩ := metered
  have consumed := metered.consumed (quotaTenant ctx) now
  unfold quotaGate
  rw [manager]
  simp only
  split
  · exact ⟨q, manager, metered⟩
  split
  · exact ⟨q, manager, metered⟩
  split
  next q' taken =>
    rw [taken] at consumed
    exact ⟨_, rfl, consumed.congr rfl⟩
  next q' denied =>
    rw [denied] at consumed
    have asked := consumed.asked (quotaTenant ctx) now
    split
    next q'' retry answered =>
      rw [answered] at asked
      exact ⟨_, rfl, asked⟩
    next q'' error answered =>
      rw [answered] at asked
      exact ⟨_, rfl, asked⟩

theorem shutdownGate_metered (metered : rt.Metered cap rate) (ctx : Option TenantContext)
    (id : String) (acquired : Bool) :
    (rt.shutdownGate ctx id acquired).runtime.Metered cap rate := by
  unfold shutdownGate
  split
  · exact releaseQuota_metered metered ctx id acquired
  · exact releaseQuota_metered metered ctx id acquired
  · exact metered

theorem executeIntent_metered (metered : rt.Metered cap rate) (intent : Intent) (id : String)
    (now : ℚ) : (rt.executeIntent intent id now).runtime.Metered cap rate := by
  refine Segment.andThen_keeps (tenantGate_metered metered id) fun entered _ kept => ?_
  refine Segment.andThen_keeps (quotaGate_metered kept ..) fun metered acquired kept => ?_
  refine Segment.andThen_keeps (shutdownGate_metered kept ..) fun running _ kept => ?_
  obtain ⟨before, _, _, begun⟩ := running.beginGuarded_eq intent id rt.tenantContext acquired now
  rwa [begun]

theorem resume_metered (metered : rt.Metered cap rate) {frame : Frame} {reply : Reply} {now : ℚ}
    {segment : Segment Progress} (consistent : Consistent frame)
    (resumed : rt.resume frame reply now = some segment) :
    segment.runtime.Metered cap rate := by
  cases resume_resumed consistent resumed with
  | advanced => exact metered
  | completed => exact releaseQuota_metered (metered.congr (by simp)) _ _ _
  | failed => exact releaseQuota_metered metered _ _ _

theorem resume_availableTokens {frame : Frame} {reply : Reply} {now : ℚ}
    {segment : Segment Progress} (consistent : Consistent frame)
    (resumed : rt.resume frame reply now = some segment) (t : String) (time : ℚ) :
    segment.runtime.availableTokens t time = rt.availableTokens t time := by
  cases resume_resumed consistent resumed with
  | advanced => rfl
  | completed =>
    rw [releaseQuota_availableTokens, availableTokens, endIsolation_quotaManager]
    rfl
  | failed => exact releaseQuota_availableTokens _ _ _ _ _ _

theorem control_metered (metered : rt.Metered cap rate) (control : Control) :
    (control.apply rt).Metered cap rate := by
  have manager := ConcurrencyLimits.control_quotaManager rt control
  cases control with
  | configure tenantId config =>
    obtain ⟨q, attached, metered⟩ := metered
    exact ⟨q.configure tenantId config, by rw [manager, attached]; rfl, metered.congr rfl⟩
  | _ => exact metered.congr manager

end metered
end Kitematic.RuntimeAbi.KitematicRuntime

namespace Kitematic.QuotaWindows
open Admission Dictionary Interleaving Quotas QuotaSlots Resumption RuntimeAbi Tenant Windows

/-- The call takes a quota slot of the tenant. -/
def admits (t : String) (effects : List Effect) : Bool :=
  effects.any fun
    | .quotaStart tenantId _ => tenantId = t
    | _ => false

/-- A pool with the latest reading of the clock and the times at which an execution of
the tenant was admitted past the quota gate. -/
structure Gate where
  pool : Pool
  clock : ℚ
  admitted : List ℚ := []

namespace Gate

def start (rt : KitematicRuntime) (clock : ℚ) : Gate := { pool := .start rt, clock := clock }

def step (t : String) (g : Gate) : Event → Option Gate
  | .executeIntent intent id now =>
      if g.clock ≤ now then
        (g.pool.step (.executeIntent intent id now)).map fun pool =>
          { pool := pool
            clock := now
            admitted :=
              if admits t (g.pool.runtime.executeIntent intent id now).effects then
                g.admitted ++ [now]
              else g.admitted }
      else none
  | .resume id reply now =>
      if g.clock ≤ now then
        (g.pool.step (.resume id reply now)).map fun pool => { g with pool := pool, clock := now }
      else none
  | .cancel id => (g.pool.step (.cancel id)).map fun pool => { g with pool := pool }
  | .control control => (g.pool.step (.control control)).map fun pool => { g with pool := pool }

/-- At most `limit` admissions in any window of sixty seconds. -/
def Within (limit : Int) (g : Gate) : Prop :=
  ∀ s, ((g.admitted.countP fun time => s ≤ time ∧ time ≤ s + 60 : Nat) : Int) ≤ limit

end Gate

/-- The tenant is not configured anew. -/
def KeepsConfig (t : String) : Event → Prop
  | .control (.configure tenantId _) => tenantId ≠ t
  | _ => True

/-- Nobody is admitted at all, or the bucket holds no more than the limit together with
what a minute refills. -/
def Fits (config : TenantQuotaConfig) (maxTokens refillRate : ℚ) : Prop :=
  0 ≤ config.maxTotalPerMinute ∧
    (config.maxConcurrent ≤ 0 ∨ maxTokens < 1 ∨
      maxTokens + 60 * max 0 refillRate < config.maxTotalPerMinute + 1)

section admits
variable {t : String}

@[simp] theorem admits_append (t : String) (first second : List Effect) :
    admits t (first ++ second) = (admits t first || admits t second) := List.any_append

theorem admits_of_silent {effects : List Effect} (silent : Silent effects) :
    admits t effects = false := by
  refine List.any_eq_false.mpr fun e member => ?_
  have free := (silent e member).2 none
  cases e <;> simp_all [OfTenant]

theorem admits_of_quiet {ctx : Option TenantContext} {effects : List Effect}
    (quiet : Quiet ctx effects) (other : tenantOf ctx ≠ some t) : admits t effects = false := by
  refine List.any_eq_false.mpr fun e member => ?_
  have owned := (quiet e member).2
  cases e with
  | quotaStart tenantId executionId =>
    have own : tenantOf ctx = some tenantId := owned
    rw [own] at other
    simpa using other
  | _ => simp

@[simp] theorem admits_isolationSlot (rt : KitematicRuntime) :
    admits t rt.isolationSlot = false := by
  unfold KitematicRuntime.isolationSlot
  split <;> rfl

theorem admits_passed {rt : KitematicRuntime} (named : t ≠ "")
    (attached : rt.quotaManager.isSome = true) (id : String) {rest : List Effect}
    (quiet : tenantOf rt.tenantContext ≠ some t → admits t rest = false) :
    admits t (rt.isolationSlot ++ (rt.quotaSlot id ++ rest)) = true ↔
      tenantOf rt.tenantContext = some t := by
  rw [admits_append, admits_append, admits_isolationSlot, Bool.false_or, Bool.or_eq_true]
  by_cases own : tenantOf rt.tenantContext = some t
  · obtain ⟨ctx, context, rfl⟩ := Option.map_eq_some_iff.mp own
    refine iff_of_true (.inl ?_) own
    simp [KitematicRuntime.quotaSlot, KitematicRuntime.quotaApplies, attached, context,
      quotaTenant, named, admits]
  · have slot := admits_of_quiet (rt.quotaSlot_quiet id) own
    simp [own, slot, quiet own]

/-- With a quota manager and a named tenant the slot is taken exactly when both gates
let the tenant's call through. -/
theorem admits_executeIntent {rt : KitematicRuntime} (named : t ≠ "")
    (attached : rt.quotaManager.isSome = true) (intent : Intent) (id : String) (now : ℚ) :
    admits t (rt.executeIntent intent id now).effects = true ↔
      rt.passesTenantGate = true ∧ rt.passesQuotaGate now = true ∧
        tenantOf rt.tenantContext = some t := by
  have opening := rt.executeIntent_opening intent id now
  generalize rt.executeIntent intent id now = segment at opening
  cases opening with
  | tenantRefused gate => simp [gate, admits]
  | quotaRefused entered gate ended keeps silent => simp [gate, admits_of_silent silent]
  | shutdownRefused entered quota state quiet =>
    rw [entered, quota, admits_passed named attached id fun other => admits_of_quiet quiet other]
    simp
  | @admitted before entered quota state quiet =>
    have begun : tenantOf rt.tenantContext ≠ some t →
        admits t (before ++ [.call (.evaluateIntent intent)]) = false := by
      intro other
      rw [admits_append, admits_of_quiet quiet other]
      rfl
    rw [entered, quota, admits_passed named attached id begun]
    simp

theorem quotaApplies_of_own {rt : KitematicRuntime} (named : t ≠ "")
    (attached : rt.quotaManager.isSome = true) (own : tenantOf rt.tenantContext = some t) :
    rt.quotaApplies = true := by
  obtain ⟨ctx, context, rfl⟩ := Option.map_eq_some_iff.mp own
  simp [KitematicRuntime.quotaApplies, attached, context, quotaTenant, named]

theorem executeIntent_availableTokens {rt : KitematicRuntime} (named : t ≠ "")
    (attached : rt.quotaManager.isSome = true) (intent : Intent) (id : String) (now : ℚ) :
    (rt.executeIntent intent id now).runtime.availableTokens t now =
      if admits t (rt.executeIntent intent id now).effects = true then
        (rt.availableTokens t now).map (· - 1)
      else rt.availableTokens t now := by
  simp only [admits_executeIntent named attached]
  have opening := rt.executeIntent_opening intent id now
  have applies := @quotaApplies_of_own t rt.takeIsolation named (by simpa using attached)
  have paid := rt.takeIsolation.takeQuota_availableTokens id t now
  simp only [KitematicRuntime.takeIsolation_passesQuotaGate,
    KitematicRuntime.takeIsolation_availableTokens, KitematicRuntime.takeIsolation_tenantContext]
    at paid applies
  generalize rt.executeIntent intent id now = segment at opening
  cases opening with
  | tenantRefused gate => simp [gate]
  | quotaRefused entered gate ended keeps => simp [gate, keeps.availableTokens]
  | shutdownRefused entered quota =>
    rw [KitematicRuntime.releaseQuota_availableTokens, paid quota]
    by_cases own : tenantOf rt.tenantContext = some t
    · simp [own, applies own, entered, quota]
    · simp [own]
  | admitted entered quota =>
    rw [paid quota]
    by_cases own : tenantOf rt.tenantContext = some t
    · simp [own, applies own, entered, quota]
    · simp [own]

theorem passesQuotaGate_paid {rt : KitematicRuntime} {now : ℚ} (named : t ≠ "")
    (own : tenantOf rt.tenantContext = some t) (gate : rt.passesQuotaGate now = true)
    {tokens : ℚ} (available : rt.availableTokens t now = some tokens) : 1 ≤ tokens := by
  obtain ⟨ctx, context, rfl⟩ := Option.map_eq_some_iff.mp own
  obtain ⟨q, manager, rfl⟩ := Option.map_eq_some_iff.mp available
  have passed : q.checkConcurrent ctx.tenantId = true ∧
      (q.checkAndConsumeRate ctx.tenantId now).2 = true := by
    simpa [KitematicRuntime.passesQuotaGate, manager, context, quotaTenant, named] using gate
  exact (q.rateLimiter.consume_granted ctx.tenantId now 1).mp passed.2

end admits

def units (admitted : List ℚ) : List (Grant ℚ) := admitted.map fun time => ⟨time, 1⟩

theorem within_units (admitted : List ℚ) (s t : ℚ) :
    within (units admitted) s t = (admitted.countP fun time => s ≤ time ∧ time ≤ t : Nat) := by
  induction admitted with
  | nil => simp [units]
  | cons time rest ih =>
    unfold within units at ih ⊢
    rw [List.countP_cons, List.map_cons, List.filter_cons]
    by_cases inside : s ≤ time ∧ time ≤ t
    · simp only [inside, decide_true, if_true, and_self]
      rw [List.map_cons, List.sum_cons, ih]
      push_cast
      ring
    · simpa [inside] using ih

namespace Gate
variable {t : String} {config : TenantQuotaConfig} {cap rate : ℚ} {g g' : Gate}

/-- The tokens left cover the admissions, and a tenant that can never pass has none. -/
structure Balanced (t : String) (config : TenantQuotaConfig) (cap rate : ℚ) (g : Gate) :
    Prop where
  wellFormed : g.pool.WellFormed
  metered : g.pool.runtime.Metered cap rate
  limit : g.pool.runtime.quotaLimit t = some config.maxConcurrent
  covers : 0 ≤ cap → ∀ tokens, g.pool.runtime.availableTokens t g.clock = some tokens →
    Covered cap (max 0 rate) g.clock (max 0 tokens) (units g.admitted)
  idle : config.maxConcurrent ≤ 0 ∨ cap < 1 → g.admitted = []

theorem Balanced.advance (balanced : Balanced t config cap rate g) {now : ℚ}
    (ordered : g.clock ≤ now) : Balanced t config cap rate { g with clock := now } := by
  refine { balanced with covers := fun full tokens available => ?_ }
  obtain ⟨q, manager, rfl, rfl, uniform⟩ := balanced.metered
  have before : q.rateLimiter.Covers t g.clock (units g.admitted) :=
    balanced.covers full _ (by simp [KitematicRuntime.availableTokens, manager])
  have later := before.advance uniform full ordered
  simp only [KitematicRuntime.availableTokens, manager, Option.map_some, Option.some.injEq]
    at available
  exact available ▸ later

theorem Balanced.executeIntent (balanced : Balanced t config cap rate g) (named : t ≠ "")
    {intent : Intent} {id : String} {now : ℚ} {pool : Pool} (ordered : g.clock ≤ now)
    (stepped : g.pool.step (.executeIntent intent id now) = some pool) :
    Balanced t config cap rate
      { pool := pool
        clock := now
        admitted :=
          if admits t (g.pool.runtime.executeIntent intent id now).effects then
            g.admitted ++ [now]
          else g.admitted } := by
  have wellFormed := Pool.step_wellFormed balanced.wellFormed stepped
  have attached : g.pool.runtime.quotaManager.isSome = true := by
    obtain ⟨q, manager, _⟩ := balanced.metered
    simp [manager]
  have left := executeIntent_availableTokens named attached intent id now
  have passed := admits_executeIntent named attached intent id now
  cases Pool.step_stepped stepped with
  | executeIntent intent id now fresh =>
    have limits := g.pool.runtime.executeIntent_limits intent id now
    refine ⟨wellFormed, KitematicRuntime.executeIntent_metered balanced.metered intent id now,
      (ConcurrencyLimits.quotaLimit_congr limits t).trans balanced.limit, ?_, ?_⟩
    · intro full tokens available
      have later := (balanced.advance ordered).covers full
      have found : (g.pool.runtime.executeIntent intent id now).runtime.availableTokens t now =
          some tokens := available
      rw [left] at found
      by_cases taken : admits t (g.pool.runtime.executeIntent intent id now).effects = true
      · rw [if_pos taken] at found
        obtain ⟨before, had, rfl⟩ := Option.map_eq_some_iff.mp found
        have enough := passesQuotaGate_paid named (passed.mp taken).2.2 (passed.mp taken).2.1 had
        have paid := Covered.grant (later before had) (le_max_left _ _) zero_le_one
          (enough.trans (le_max_right _ _))
        have rest : max 0 before - 1 = max 0 (before - 1) := by
          rw [max_eq_right (by linarith), max_eq_right (by linarith)]
        rw [rest] at paid
        simpa [taken, units] using paid
      · rw [if_neg taken] at found
        simpa [taken] using later tokens found
    · intro never
      have refused : admits t (g.pool.runtime.executeIntent intent id now).effects = false := by
        rw [Bool.eq_false_iff]
        intro taken
        obtain ⟨_, gate, own⟩ := passed.mp taken
        rcases never with closed | small
        · have room := KitematicRuntime.passesQuotaGate_room own named gate balanced.limit
          omega
        · obtain ⟨q, manager, full, refill, uniform⟩ := balanced.metered
          have stored : g.pool.runtime.availableTokens t now =
              some (q.rateLimiter.available t now) := by
            rw [KitematicRuntime.availableTokens, manager]
            rfl
          have enough := passesQuotaGate_paid named own gate stored
          have bound := TokenBucketRateLimiter.available_le uniform t now
          linarith
      simpa [refused] using balanced.idle never

theorem Balanced.keep (balanced : Balanced t config cap rate g) {pool : Pool}
    (wellFormed : pool.WellFormed) (metered : pool.runtime.Metered cap rate)
    (limit : pool.runtime.quotaLimit t = g.pool.runtime.quotaLimit t)
    (tokens : pool.runtime.availableTokens t g.clock = g.pool.runtime.availableTokens t g.clock) :
    Balanced t config cap rate { g with pool := pool } :=
  ⟨wellFormed, metered, limit.trans balanced.limit,
    fun full _ available => balanced.covers full _ (tokens ▸ available), balanced.idle⟩

theorem step_balanced (named : t ≠ "") {e : Event} (balanced : Balanced t config cap rate g)
    (keeps : KeepsConfig t e) (stepped : g.step t e = some g') :
    Balanced t config cap rate g' := by
  cases e with
  | executeIntent intent id now =>
    simp only [step, Option.ite_none_right_eq_some, Option.map_eq_some_iff] at stepped
    obtain ⟨ordered, pool, stepped, rfl⟩ := stepped
    exact balanced.executeIntent named ordered stepped
  | resume id reply now =>
    simp only [step, Option.ite_none_right_eq_some, Option.map_eq_some_iff] at stepped
    obtain ⟨ordered, pool, stepped, rfl⟩ := stepped
    have wellFormed := Pool.step_wellFormed balanced.wellFormed stepped
    cases Pool.step_stepped stepped with
    | resume id reply now frame segment pending resumed =>
      have consistent := balanced.wellFormed.consistent id frame pending
      exact (balanced.advance ordered).keep wellFormed
        (KitematicRuntime.resume_metered balanced.metered consistent resumed)
        (ConcurrencyLimits.quotaLimit_congr
          (KitematicRuntime.resume_limits consistent resumed) t)
        (KitematicRuntime.resume_availableTokens consistent resumed t now)
  | cancel id =>
    simp only [step, Option.map_eq_some_iff] at stepped
    obtain ⟨pool, stepped, rfl⟩ := stepped
    have wellFormed := Pool.step_wellFormed balanced.wellFormed stepped
    cases Pool.step_stepped stepped with
    | cancel => exact balanced.keep wellFormed balanced.metered rfl rfl
  | control control =>
    simp only [step, Option.map_eq_some_iff] at stepped
    obtain ⟨pool, stepped, rfl⟩ := stepped
    have wellFormed := Pool.step_wellFormed balanced.wellFormed stepped
    cases Pool.step_stepped stepped with
    | control =>
      exact balanced.keep wellFormed (KitematicRuntime.control_metered balanced.metered control)
        (ConcurrencyLimits.control_quotaLimit fun tenantId config same => by
          subst same
          exact keeps)
        ((control.keeps g.pool.runtime).availableTokens t g.clock)

theorem start_balanced {rt : KitematicRuntime} {q : QuotaManager}
    (manager : rt.quotaManager = some q) (configured : q.getConfig t = config)
    (limiter : q.rateLimiter = { maxTokens := cap, refillRate := rate }) (clock : ℚ) :
    Balanced t config cap rate (start rt clock) := by
  have uniform : q.rateLimiter.Uniform := by simp [TokenBucketRateLimiter.Uniform, limiter]
  refine ⟨Pool.start_wellFormed rt, ⟨q, manager, ?_, ?_, uniform⟩, ?_, ?_, fun _ => rfl⟩
  · rw [limiter]
  · rw [limiter]
  · simpa [KitematicRuntime.quotaLimit, KitematicRuntime.limits, start, Pool.start, manager,
      QuotaManager.getConfig] using congrArg TenantQuotaConfig.maxConcurrent configured
  · intro full tokens available
    simp only [KitematicRuntime.availableTokens, start, Pool.start, manager, Option.map_some,
      Option.some.injEq] at available
    have fresh := TokenBucketRateLimiter.covers_fresh (l := q.rateLimiter) (t := t)
      (by rwa [limiter]) (by rw [limiter]; rfl) clock
    rw [TokenBucketRateLimiter.Covers, TokenBucketRateLimiter.credit, available, limiter] at fresh
    exact fresh

theorem Balanced.within (balanced : Balanced t config cap rate g) (fits : Fits config cap rate) :
    g.Within config.maxTotalPerMinute := by
  intro s
  obtain ⟨limit, never | small | fits⟩ := fits
  · simpa [balanced.idle (.inl never)] using limit
  · simpa [balanced.idle (.inr small)] using limit
  · by_cases small : cap < 1
    · simpa [balanced.idle (.inr small)] using limit
    obtain ⟨q, manager, _⟩ := balanced.metered
    have covered := balanced.covers (by linarith) _
      (by rw [KitematicRuntime.availableTokens, manager]; rfl)
    have window := covered.window s (s + 60) (by linarith)
    rw [within_units] at window
    have bound : ((g.admitted.countP fun time => s ≤ time ∧ time ≤ s + 60 : Nat) : ℚ) <
        config.maxTotalPerMinute + 1 := by linarith
    have exact : ((g.admitted.countP fun time => s ≤ time ∧ time ≤ s + 60 : Nat) : Int) <
        config.maxTotalPerMinute + 1 := by exact_mod_cast bound
    omega

/-! A tenant that asks as soon as its bucket has a token again, each time for an
execution that fails at once. -/

def due (cap rate : ℚ) (k : Nat) : ℚ := max 0 (k - cap) / rate

theorem due_eq_zero {k : Nat} (held : (k : ℚ) ≤ cap) : due cap rate k = 0 := by
  rw [due, max_eq_left (by linarith), zero_div]

theorem due_mono (refills : 0 < rate) {j k : Nat} (ordered : j ≤ k) :
    due cap rate j ≤ due cap rate k := by
  have cast : (j : ℚ) ≤ k := by exact_mod_cast ordered
  exact div_le_div_of_nonneg_right (max_le_max le_rfl (by linarith)) refills.le

/-- The tokens left by `k` admissions and what is refilled until the next one is due. -/
theorem tokens_due (one : 1 ≤ cap) (refills : 0 < rate) (k : Nat) :
    min cap (max 0 (cap - k) + rate * (due cap rate (k + 1) - due cap rate k)) =
      max (cap - k) 1 := by
  have elapsed : rate * (due cap rate (k + 1) - due cap rate k) =
      max 0 ((k : ℚ) + 1 - cap) - max 0 ((k : ℚ) - cap) := by
    rw [due, due, ← sub_div, mul_div_cancel₀ _ refills.ne']
    push_cast
    rfl
  have positive : (0 : ℚ) ≤ k := Nat.cast_nonneg k
  rw [elapsed]
  rcases le_total ((k : ℚ) + 1) cap with held | spent
  · rw [max_eq_right (by linarith), max_eq_left (by linarith), max_eq_left (by linarith),
      max_eq_left (by linarith), min_eq_right (by linarith)]
    ring
  · rw [max_eq_right (b := (k : ℚ) + 1 - cap) (by linarith),
      max_eq_right (b := (1 : ℚ)) (by linarith)]
    rcases le_total (k : ℚ) cap with some | none
    · rw [max_eq_right (by linarith), max_eq_left (by linarith), min_eq_right (by linarith)]
      ring
    · rw [max_eq_left (by linarith), max_eq_right (by linarith), min_eq_right (by linarith)]
      ring

def roundId (k : Nat) : String := String.ofList (List.replicate k 'e')

theorem roundId_injective {j k : Nat} (same : roundId j = roundId k) : j = k := by
  have lists := congrArg (fun s => s.toList.length) same
  simpa [roundId] using lists

def failingCall (id : String) (now : ℚ) : List Event :=
  [.executeIntent ⟨"agent", "tool.read", []⟩ id now, .resume id (.raised "") now]

structure Ready (t : String) (config : TenantQuotaConfig) (cap rate : ℚ) (k : Nat) (g : Gate) :
    Prop where
  balanced : Balanced t config cap rate g
  exact : Exact t g.pool
  idle : ∀ id, g.pool.inFlight.get id = none
  drawn : ∀ id ∈ g.pool.drawn, ∃ j < k, id = roundId j
  open' : g.pool.runtime.isolation = none
  context : tenantOf g.pool.runtime.tenantContext = some t
  running : g.pool.runtime.state = .running
  clock : g.clock = due cap rate k
  admitted : g.admitted = (List.range k).map fun j => due cap rate (j + 1)
  tokens : g.pool.runtime.availableTokens t g.clock = some (max 0 (cap - k))

theorem Ready.due_tokens {k : Nat} (ready : Ready t config cap rate k g) (one : 1 ≤ cap)
    (refills : 0 < rate ∨ ((k + 1 : Nat) : ℚ) ≤ cap) :
    g.clock ≤ due cap rate (k + 1) ∧
      g.pool.runtime.availableTokens t (due cap rate (k + 1)) = some (max (cap - k) 1) := by
  have tokens := ready.tokens
  rw [ready.clock] at tokens ⊢
  rcases refills with refills | held
  · have ordered := @due_mono cap rate refills k (k + 1) k.le_succ
    refine ⟨ordered, ?_⟩
    obtain ⟨q, manager, rfl, rfl, uniform⟩ := ready.balanced.metered
    simp only [KitematicRuntime.availableTokens, manager, Option.map_some, Option.some.injEq]
      at tokens ⊢
    rw [TokenBucketRateLimiter.available_grown uniform refills.le t ordered, tokens]
    exact tokens_due one refills k
  · have earlier : (k : ℚ) ≤ cap := by
      push_cast at held
      linarith
    rw [due_eq_zero earlier] at tokens
    rw [due_eq_zero earlier, due_eq_zero held]
    refine ⟨le_rfl, tokens.trans ?_⟩
    push_cast at held
    rw [max_eq_right (by linarith), max_eq_left (by linarith)]

theorem passesQuotaGate_of {rt : KitematicRuntime} {limit : Int} {now tokens : ℚ}
    (own : tenantOf rt.tenantContext = some t) (quota : rt.quotaLimit t = some limit)
    (roomy : 0 < limit) (idle : rt.active t = ∅)
    (available : rt.availableTokens t now = some tokens) (enough : 1 ≤ tokens) :
    rt.passesQuotaGate now = true := by
  obtain ⟨ctx, context, rfl⟩ := Option.map_eq_some_iff.mp own
  obtain ⟨q, manager, rfl⟩ := Option.map_eq_some_iff.mp available
  have granted : (q.checkAndConsumeRate ctx.tenantId now).2 = true :=
    (q.rateLimiter.consume_granted ctx.tenantId now 1).mpr enough
  have room : q.checkConcurrent ctx.tenantId = true := by
    simp only [KitematicRuntime.quotaLimit, KitematicRuntime.limits, manager, Option.map_some,
      Option.some.injEq] at quota
    simp only [KitematicRuntime.active, manager, Option.map_some, Option.getD_some] at idle
    simpa [QuotaManager.checkConcurrent, QuotaManager.getConfig, idle, quota] using roomy
  simp [KitematicRuntime.passesQuotaGate, manager, context, quotaTenant, room, granted]

theorem step_executeIntent {p : Pool} {id : String} {now : ℚ} (fresh : id ∉ p.drawn)
    (passed : Ownership.admitted p.runtime now = true) (intent : Intent) :
    ∃ next, p.step (.executeIntent intent id now) = some next ∧
      (∀ id', next.inFlight.get id' =
        if id' = id then some (p.runtime.firstFrame intent id now) else p.inFlight.get id') ∧
      next.drawn = id :: p.drawn ∧ next.runtime = p.runtime.takeIsolation.takeQuota id now := by
  have opened := Ownership.frameOf_executeIntent_eq p.runtime intent id now
  have opening := p.runtime.executeIntent_opening intent id now
  rw [if_pos passed] at opened
  simp only [Ownership.admitted, decide_eq_true_eq] at passed
  refine ⟨{ p.settle id (p.runtime.executeIntent intent id now) with drawn := id :: p.drawn },
    by simp [Pool.step, Pool.executeIntent, fresh], fun id' => ?_, rfl, ?_⟩
  · rw [← opened]
    exact p.get_settle id id' _
  · simp only [Pool.settle]
    generalize p.runtime.executeIntent intent id now = segment at opening
    cases opening with
    | tenantRefused gate => simp [gate] at passed
    | quotaRefused _ gate => simp [gate] at passed
    | shutdownRefused _ _ state => exact absurd passed.2.2 state
    | admitted => rfl

theorem step_raised {p : Pool} {rt : KitematicRuntime} {intent : Intent} {id : String} {now : ℚ}
    (pending : p.inFlight.get id = some (rt.firstFrame intent id now)) (text : String)
    (later : ℚ) :
    ∃ next, p.step (.resume id (.raised text) later) = some next ∧
      (∀ id', next.inFlight.get id' = if id' = id then none else p.inFlight.get id') ∧
      next.drawn = p.drawn ∧
      next.runtime = (p.runtime.releaseQuota rt.tenantContext id rt.quotaApplies).runtime := by
  obtain ⟨segment, resumed, runtime, ended⟩ : ∃ segment,
      p.runtime.resume (rt.firstFrame intent id now) (.raised text) later = some segment ∧
        segment.runtime = (p.runtime.releaseQuota rt.tenantContext id rt.quotaApplies).runtime ∧
        frameOf segment.outcome = none := ⟨_, rfl, rfl, rfl⟩
  refine ⟨{ p.settle id segment with
      checkpoints := p.checkpoints ++ savedBy (rt.firstFrame intent id now) (.raised text) },
    by simp [Pool.step, Pool.resume, pending, resumed], fun id' => ?_, rfl, runtime⟩
  rw [← ended]
  exact p.get_settle id id' segment

theorem Ready.round {k : Nat} (ready : Ready t config cap rate k g) (named : t ≠ "")
    (one : 1 ≤ cap) (roomy : 0 < config.maxConcurrent)
    (refills : 0 < rate ∨ ((k + 1 : Nat) : ℚ) ≤ cap) :
    ∃ g', Trace.run (step t) g (failingCall (roundId k) (due cap rate (k + 1))) = some g' ∧
      Ready t config cap rate (k + 1) g' := by
  obtain ⟨ordered, tokens⟩ := ready.due_tokens one refills
  have fresh : roundId k ∉ g.pool.drawn := by
    intro member
    obtain ⟨j, earlier, same⟩ := ready.drawn _ member
    exact absurd (roundId_injective same) earlier.ne'
  have idle : g.pool.runtime.active t = ∅ := by
    refine Finset.eq_empty_of_forall_notMem fun id member => ?_
    obtain ⟨frame, pending, _⟩ := (ready.exact id).mp member
    rw [ready.idle id] at pending
    cases pending
  have attached : g.pool.runtime.quotaManager.isSome = true := by
    obtain ⟨q, manager, _⟩ := ready.balanced.metered
    simp [manager]
  have gate := passesQuotaGate_of ready.context ready.balanced.limit roomy idle tokens
    (le_max_right _ _)
  have entered : g.pool.runtime.passesTenantGate = true := by
    simp [KitematicRuntime.passesTenantGate, ready.open']
  have passed : Ownership.admitted g.pool.runtime (due cap rate (k + 1)) = true := by
    simp [Ownership.admitted, entered, gate, ready.running]
  have taken := (admits_executeIntent named attached ⟨"agent", "tool.read", []⟩ (roundId k)
    (due cap rate (k + 1))).mpr ⟨entered, gate, ready.context⟩
  obtain ⟨first, came, held, drawn, takes⟩ :=
    step_executeIntent fresh passed ⟨"agent", "tool.read", []⟩
  obtain ⟨second, went, left, kept, releases⟩ :=
    step_raised ((held (roundId k)).trans (if_pos rfl)) "" (due cap rate (k + 1))
  have exact₁ := (step_exact ready.balanced.wellFormed ready.exact came).mpr trivial
  have wellFormed := Pool.step_wellFormed ready.balanced.wellFormed came
  have exact₂ := (step_exact wellFormed exact₁ went).mpr trivial
  have balanced := ready.balanced.executeIntent named ordered came
  rw [if_pos taken] at balanced
  have arrives : g.step t (.executeIntent ⟨"agent", "tool.read", []⟩ (roundId k)
      (due cap rate (k + 1))) = some ⟨first, due cap rate (k + 1),
        g.admitted ++ [due cap rate (k + 1)]⟩ := by
    simp [step, ordered, came, taken]
  have fails : step t ⟨first, due cap rate (k + 1), g.admitted ++ [due cap rate (k + 1)]⟩
      (.resume (roundId k) (.raised "") (due cap rate (k + 1))) = some ⟨second,
        due cap rate (k + 1), g.admitted ++ [due cap rate (k + 1)]⟩ := by
    simp [step, went]
  rw [takes] at releases
  refine ⟨⟨second, due cap rate (k + 1), g.admitted ++ [due cap rate (k + 1)]⟩, ?_,
    step_balanced named balanced (by trivial) fails, exact₂, ?_, ?_, ?_, ?_, ?_, rfl, ?_, ?_⟩
  · rw [failingCall, Trace.run, arrives, Option.bind_some, Trace.run, fails]
    rfl
  · intro id
    simp only [left, held, ready.idle]
    split <;> rfl
  · intro id member
    simp only [kept, drawn, List.mem_cons] at member
    rcases member with rfl | member
    · exact ⟨k, k.lt_succ_self, rfl⟩
    · obtain ⟨j, earlier, same⟩ := ready.drawn id member
      exact ⟨j, earlier.trans k.lt_succ_self, same⟩
  · simp [releases, KitematicRuntime.takeIsolation, ready.open']
  · simpa [releases] using ready.context
  · simpa [releases] using ready.running
  · simp [ready.admitted, List.range_succ]
  · have paid := g.pool.runtime.takeIsolation.takeQuota_availableTokens (roundId k) t
      (due cap rate (k + 1)) (by simpa using gate)
    have applies := quotaApplies_of_own named attached ready.context
    simp only [KitematicRuntime.takeIsolation_quotaApplies, applies, ready.context, true_and,
      KitematicRuntime.takeIsolation_tenantContext, if_true,
      KitematicRuntime.takeIsolation_availableTokens, tokens, Option.map_some] at paid
    rw [releases, KitematicRuntime.releaseQuota_availableTokens, paid, ← max_sub_sub_right,
      max_comm]
    push_cast
    ring_nf

def servingRuntime (t : String) (config : TenantQuotaConfig) (cap rate : ℚ) :
    KitematicRuntime where
  tenantContext := some ⟨t, "agent", ∅⟩
  quotaManager := some
    { rateLimiter := { maxTokens := cap, refillRate := rate }
      configs := (.empty : Dict String TenantQuotaConfig).set t config }

theorem serving_config (t : String) (config : TenantQuotaConfig)
    (limiter : TokenBucketRateLimiter) :
    QuotaManager.getConfig { rateLimiter := limiter
                             configs := (.empty : Dict String TenantQuotaConfig).set t config } t =
      config := by
  simp [QuotaManager.getConfig]

theorem start_ready (t : String) (config : TenantQuotaConfig) (one : 1 ≤ cap) (rate : ℚ) :
    Ready t config cap rate 0 (start (servingRuntime t config cap rate) 0) := by
  have positive : (0 : ℚ) ≤ cap := zero_le_one.trans one
  refine ⟨start_balanced rfl (serving_config t config _) rfl 0, ?_, fun _ => rfl, ?_, rfl, rfl, rfl,
    ?_, rfl, ?_⟩
  · intro id
    simp [start, Pool.start, servingRuntime, KitematicRuntime.active, QuotaManager.active]
  · simp [start, Pool.start]
  · rw [due_eq_zero (by simpa using positive)]
    rfl
  · simp [start, Pool.start, servingRuntime, KitematicRuntime.availableTokens,
      TokenBucketRateLimiter.available, TokenBucketRateLimiter.refill,
      TokenBucketRateLimiter.getBucket, positive]

theorem serves (named : t ≠ "") (one : 1 ≤ cap) (roomy : 0 < config.maxConcurrent) (k : Nat)
    (refills : 0 < rate ∨ (k : ℚ) ≤ cap) :
    ∃ events g, (∀ e ∈ events, KeepsConfig t e) ∧
      Trace.run (step t) (start (servingRuntime t config cap rate) 0) events = some g ∧
      Ready t config cap rate k g := by
  induction k with
  | zero => exact ⟨[], _, by simp, rfl, start_ready t config one rate⟩
  | succ k ih =>
    have earlier : 0 < rate ∨ (k : ℚ) ≤ cap := by
      refine refills.imp_right fun held => ?_
      push_cast at held
      linarith
    obtain ⟨events, g, kept, ran, ready⟩ := ih earlier
    obtain ⟨g', more, next⟩ := ready.round named one roomy refills
    refine ⟨events ++ failingCall (roundId k) (due cap rate (k + 1)), g', ?_, ?_, next⟩
    · intro e member
      cases List.mem_append.mp member with
      | inl old => exact kept e old
      | inr new =>
        rcases List.mem_cons.mp new with rfl | new
        · trivial
        · rw [List.mem_singleton.mp new]
          trivial
    · rw [Trace.run_append, ran]
      exact more

theorem Ready.count {k : Nat} (ready : Ready t config cap rate k g)
    (refills : 0 < rate ∨ (k : ℚ) ≤ cap) (minute : (k : ℚ) ≤ cap + 60 * max 0 rate) :
    (g.admitted.countP fun time => (0 : ℚ) ≤ time ∧ time ≤ 0 + 60) = k := by
  have inside : ∀ time ∈ g.admitted, (0 : ℚ) ≤ time ∧ time ≤ 0 + 60 := by
    rw [ready.admitted]
    intro time member
    obtain ⟨j, below, rfl⟩ := List.mem_map.mp member
    have cast : ((j + 1 : Nat) : ℚ) ≤ k := by exact_mod_cast List.mem_range.mp below
    by_cases held : ((j + 1 : Nat) : ℚ) ≤ cap
    · simp [due_eq_zero held]
    · have positive : 0 < rate := refills.resolve_right fun held' => held (cast.trans held')
      rw [max_eq_right positive.le] at minute
      have numerator : max 0 (((j + 1 : Nat) : ℚ) - cap) ≤ 60 * rate :=
        max_le (by positivity) (by linarith)
      exact ⟨div_nonneg (le_max_left _ _) positive.le,
        by rw [zero_add]; exact (div_le_iff₀ positive).mpr numerator⟩
  have all : (g.admitted.countP fun time => (0 : ℚ) ≤ time ∧ time ≤ 0 + 60) =
      g.admitted.length :=
    List.countP_eq_length.mpr fun time member => decide_eq_true (inside time member)
  rw [all, ready.admitted]
  simp

end Gate

/-- Every run of every runtime with the tenant's configuration and a fresh limiter keeps
the limit per minute exactly when the bucket is small enough for it. -/
theorem within_iff_fits {t : String} (named : t ≠ "") (config : TenantQuotaConfig)
    (maxTokens refillRate : ℚ) :
    (∀ (rt : KitematicRuntime) (q : QuotaManager) (clock : ℚ) (events : List Event) (g : Gate),
      rt.quotaManager = some q → q.getConfig t = config →
        q.rateLimiter = { maxTokens := maxTokens, refillRate := refillRate } →
        (∀ e ∈ events, KeepsConfig t e) →
        Trace.run (Gate.step t) (Gate.start rt clock) events = some g →
          Trace.AllStates (Gate.step t) (Gate.Within config.maxTotalPerMinute)
            (Gate.start rt clock) events) ↔
      Fits config maxTokens refillRate := by
  constructor
  · intro all
    have serving := fun events g => all (Gate.servingRuntime t config maxTokens refillRate) _ 0
      events g rfl (Gate.serving_config t config _) rfl
    have limit : 0 ≤ config.maxTotalPerMinute := serving [] _ (by simp) rfl 0
    refine ⟨limit, ?_⟩
    by_contra unfit
    simp only [not_or, not_le, not_lt] at unfit
    obtain ⟨roomy, one, minute⟩ := unfit
    obtain ⟨n, same⟩ := Int.eq_ofNat_of_zero_le limit
    have cast : ((n + 1 : Nat) : ℚ) = config.maxTotalPerMinute + 1 := by
      rw [same]
      push_cast
      rfl
    rw [← cast] at minute
    have refills : 0 < refillRate ∨ ((n + 1 : Nat) : ℚ) ≤ maxTokens := by
      rcases lt_or_ge 0 refillRate with positive | still
      · exact .inl positive
      · rw [max_eq_left still] at minute
        exact .inr (by linarith)
    obtain ⟨events, g, kept, ran, ready⟩ := Gate.serves named one roomy (n + 1) refills
    have bound := (serving events g kept ran).last ran 0
    rw [ready.count refills minute, same] at bound
    push_cast at bound
    omega
  · intro fits rt q clock events g manager configured limiter kept ran
    have balanced := Gate.start_balanced manager configured limiter clock
    have every : Trace.AllStates (Gate.step t) (Gate.Balanced t config maxTokens refillRate)
        (Gate.start rt clock) events := by
      refine Trace.allStates_of_keeps ?_ balanced
      exact fun e member _ _ balanced stepped =>
        Gate.step_balanced named balanced (kept e member) stepped
    exact every.mono fun g balanced => balanced.within fits

theorem within_iff_fits_default :
    (∀ (rt : KitematicRuntime) (q : QuotaManager) (clock : ℚ) (events : List Event) (g : Gate),
      rt.quotaManager = some q → q.getConfig "acme" = {} →
        q.rateLimiter = { maxTokens := 100, refillRate := 10 } →
        (∀ e ∈ events, KeepsConfig "acme" e) →
        Trace.run (Gate.step "acme") (Gate.start rt clock) events = some g →
          Trace.AllStates (Gate.step "acme") (Gate.Within 60) (Gate.start rt clock) events) ↔
      Fits {} 100 10 :=
  within_iff_fits (by decide) {} 100 10

/-- A tenant with one execution a minute gets two at once from the default limiter. -/
theorem two_admitted_of_one :
    ¬ Trace.AllStates (Gate.step "acme") (Gate.Within 1)
      (Gate.start (Gate.servingRuntime "acme" { maxTotalPerMinute := 1 } 100 10) 0)
      (Gate.failingCall "e1" 0 ++ Gate.failingCall "e2" 0) := by
  intro all
  obtain ⟨g, ran⟩ : ∃ g, Trace.run (Gate.step "acme")
      (Gate.start (Gate.servingRuntime "acme" { maxTotalPerMinute := 1 } 100 10) 0)
      (Gate.failingCall "e1" 0 ++ Gate.failingCall "e2" 0) = some g :=
    Option.isSome_iff_exists.mp (by decide +kernel)
  have seen : (Trace.run (Gate.step "acme")
      (Gate.start (Gate.servingRuntime "acme" { maxTotalPerMinute := 1 } 100 10) 0)
      (Gate.failingCall "e1" 0 ++ Gate.failingCall "e2" 0)).all (fun g =>
        2 ≤ g.admitted.countP fun time => (0 : ℚ) ≤ time ∧ time ≤ 0 + 60) = true := by
    decide +kernel
  rw [ran, Option.all_some, decide_eq_true_eq] at seen
  have bound := all.last ran 0
  omega

end Kitematic.QuotaWindows
