import Kitematic.Dict
import Kitematic.PyText
import Mathlib.Data.Finset.Card
import Mathlib.Algebra.Order.Field.Rat
import Mathlib.Tactic.Linarith

/-! Per-tenant token buckets and the quota manager. Times and token amounts are
exact rationals, and one synchronous operation reads the clock once. -/

namespace Kitematic.Quotas
open Dictionary

/-- Python division of floats raises on a zero divisor. -/
inductive ZeroDivisionError where
  | floatDivisionByZero
  deriving DecidableEq

structure TokenBucket where
  tokens : ℚ
  maxTokens : ℚ
  refillRate : ℚ
  lastRefill : ℚ
  deriving DecidableEq

structure TokenBucketRateLimiter where
  maxTokens : ℚ := 100
  refillRate : ℚ := 10
  buckets : Dict String TokenBucket := .empty

namespace TokenBucketRateLimiter

def getBucket (l : TokenBucketRateLimiter) (tenantId : String) (now : ℚ) : TokenBucket :=
  (l.buckets.get tenantId).getD
    { tokens := l.maxTokens, maxTokens := l.maxTokens, refillRate := l.refillRate
      lastRefill := now }

def refill (bucket : TokenBucket) (now : ℚ) : TokenBucket :=
  { bucket with
    tokens := min bucket.maxTokens
      (bucket.tokens + (now - bucket.lastRefill) * bucket.refillRate)
    lastRefill := now }

def consume (l : TokenBucketRateLimiter) (tenantId : String) (now : ℚ) (tokens : ℚ := 1) :
    TokenBucketRateLimiter × Bool :=
  let bucket := refill (l.getBucket tenantId now) now
  if tokens ≤ bucket.tokens then
    ({ l with buckets := l.buckets.set tenantId { bucket with tokens := bucket.tokens - tokens } },
      true)
  else ({ l with buckets := l.buckets.set tenantId bucket }, false)

def retryAfter (l : TokenBucketRateLimiter) (tenantId : String) (now : ℚ) :
    TokenBucketRateLimiter × Except ZeroDivisionError ℚ :=
  let bucket := refill (l.getBucket tenantId now) now
  let deficit := 1 - bucket.tokens
  ({ l with buckets := l.buckets.set tenantId bucket },
    if deficit ≤ 0 then .ok 0
    else if bucket.refillRate = 0 then .error .floatDivisionByZero
    else .ok (deficit / bucket.refillRate))

def reset (l : TokenBucketRateLimiter) (tenantId : String) : TokenBucketRateLimiter :=
  { l with buckets := l.buckets.erase tenantId }

def available (l : TokenBucketRateLimiter) (tenantId : String) (now : ℚ) : ℚ :=
  (refill (l.getBucket tenantId now) now).tokens

theorem refill_tokens_le (bucket : TokenBucket) (now : ℚ) :
    (refill bucket now).tokens ≤ bucket.maxTokens :=
  min_le_left _ _

theorem refill_refill (bucket : TokenBucket) (now : ℚ) :
    refill (refill bucket now) now = refill bucket now := by
  simp [refill]

theorem getBucket_set (l : TokenBucketRateLimiter) (t t' : String) (bucket : TokenBucket)
    (now : ℚ) : ({ l with buckets := l.buckets.set t bucket } : TokenBucketRateLimiter).getBucket
      t' now = if t' = t then bucket else l.getBucket t' now := by
  simp only [getBucket, Dict.get_set]
  by_cases h : t' = t <;> simp [h]

theorem available_consume (l : TokenBucketRateLimiter) (t t' : String) (now amount : ℚ)
    (positive : 0 ≤ amount) : (l.consume t now amount).1.available t' now =
      if t' = t ∧ (l.consume t now amount).2 = true then l.available t' now - amount
      else l.available t' now := by
  unfold consume
  by_cases enough : amount ≤ (refill (l.getBucket t now) now).tokens
  · simp only [enough, if_true, and_true, available, getBucket_set]
    by_cases h : t' = t
    · subst h
      have cap := refill_tokens_le (l.getBucket t' now) now
      rw [if_pos rfl, if_pos rfl]
      have fits : (refill (l.getBucket t' now) now).tokens - amount ≤
          (l.getBucket t' now).maxTokens := by linarith
      simpa [refill] using fits
    · simp [h]
  · simp only [enough, if_false, available, getBucket_set]
    by_cases h : t' = t <;> simp [h, refill_refill]

@[simp] theorem available_retryAfter (l : TokenBucketRateLimiter) (t t' : String) (now : ℚ) :
    (l.retryAfter t now).1.available t' now = l.available t' now := by
  simp only [retryAfter, available, getBucket_set]
  by_cases h : t' = t <;> simp [h, refill_refill]

end TokenBucketRateLimiter

structure TenantQuotaConfig where
  maxConcurrent : Int := 5
  maxTotalPerMinute : Int := 60
  maxStepsPerExecution : Int := 10
  deriving DecidableEq

/-- `concurrent` holds the ids of a tenant's running executions. -/
structure QuotaManager where
  rateLimiter : TokenBucketRateLimiter := {}
  concurrent : Dict String (Finset String) := .empty
  configs : Dict String TenantQuotaConfig := .empty

namespace QuotaManager

def configure (q : QuotaManager) (tenantId : String) (config : TenantQuotaConfig) :
    QuotaManager :=
  { q with configs := q.configs.set tenantId config }

def getConfig (q : QuotaManager) (tenantId : String) : TenantQuotaConfig :=
  (q.configs.get tenantId).getD {}

def active (q : QuotaManager) (tenantId : String) : Finset String :=
  (q.concurrent.get tenantId).getD ∅

def checkConcurrent (q : QuotaManager) (tenantId : String) : Bool :=
  (q.active tenantId).card < (q.getConfig tenantId).maxConcurrent

def startExecution (q : QuotaManager) (tenantId executionId : String) : QuotaManager :=
  { q with concurrent := q.concurrent.set tenantId (insert executionId (q.active tenantId)) }

/-- The discard is skipped for a missing tenant and for an empty set. -/
def endExecution (q : QuotaManager) (tenantId executionId : String) : QuotaManager :=
  match q.concurrent.get tenantId with
  | none => q
  | some execs =>
      if execs = ∅ then q
      else { q with concurrent := q.concurrent.set tenantId (execs.erase executionId) }

def concurrentCount (q : QuotaManager) (tenantId : String) : Nat := (q.active tenantId).card

def checkAndConsumeRate (q : QuotaManager) (tenantId : String) (now : ℚ) :
    QuotaManager × Bool :=
  let (limiter, allowed) := q.rateLimiter.consume tenantId now
  ({ q with rateLimiter := limiter }, allowed)

def retryAfter (q : QuotaManager) (tenantId : String) (now : ℚ) :
    QuotaManager × Except ZeroDivisionError ℚ :=
  let (limiter, answer) := q.rateLimiter.retryAfter tenantId now
  ({ q with rateLimiter := limiter }, answer)

def cleanup (q : QuotaManager) (tenantId : String) : QuotaManager :=
  { q with
    concurrent := q.concurrent.erase tenantId
    rateLimiter := q.rateLimiter.reset tenantId }

@[simp] theorem active_checkAndConsumeRate (q : QuotaManager) (t t' : String) (now : ℚ) :
    (q.checkAndConsumeRate t now).1.active t' = q.active t' := by
  simp [checkAndConsumeRate, active]

@[simp] theorem active_retryAfter (q : QuotaManager) (t t' : String) (now : ℚ) :
    (q.retryAfter t now).1.active t' = q.active t' := by
  simp [retryAfter, active]

@[simp] theorem rateLimiter_endExecution (q : QuotaManager) (t id : String) :
    (q.endExecution t id).rateLimiter = q.rateLimiter := by
  unfold endExecution
  split
  · rfl
  · split <;> rfl

@[simp] theorem active_startExecution (q : QuotaManager) (t t' id : String) :
    (q.startExecution t id).active t' =
      if t' = t then insert id (q.active t') else q.active t' := by
  simp only [startExecution, active, Dict.get_set]
  by_cases h : t' = t <;> simp [h]

@[simp] theorem active_endExecution (q : QuotaManager) (t t' id : String) :
    (q.endExecution t id).active t' = if t' = t then (q.active t').erase id else q.active t' := by
  unfold endExecution
  cases stored : q.concurrent.get t with
  | none =>
    by_cases h : t' = t
    · subst h
      simp [active, stored]
    · simp [h]
  | some execs =>
    by_cases empty : execs = ∅
    · by_cases h : t' = t
      · subst h
        simp [active, stored, empty]
      · simp [h, empty]
    · simp only [empty, if_false, active, Dict.get_set]
      by_cases h : t' = t
      · subst h
        simp [stored]
      · simp [h]

end QuotaManager
end Kitematic.Quotas
