import Kitematic.Quotas
import Kitematic.Trace

/-! Tenants of one quota manager do not see each other. What an operation answers and
what it leaves for its tenant depends on the parameters of the limiter and on the
tenant's own entries in the three maps, and no operation touches another tenant's. -/

namespace Kitematic.QuotaIsolation
open Dictionary Quotas

inductive Operation where
  | configure (tenantId : String) (config : TenantQuotaConfig)
  | getConfig (tenantId : String)
  | checkConcurrent (tenantId : String)
  | startExecution (tenantId executionId : String)
  | endExecution (tenantId executionId : String)
  | concurrentCount (tenantId : String)
  | checkAndConsumeRate (tenantId : String) (now : ℚ)
  | consume (tenantId : String) (tokens now : ℚ)
  | retryAfter (tenantId : String) (now : ℚ)
  | reset (tenantId : String)
  | cleanup (tenantId : String)

def Operation.tenantId : Operation → String
  | .configure tenantId _ | .getConfig tenantId | .checkConcurrent tenantId
  | .startExecution tenantId _ | .endExecution tenantId _ | .concurrentCount tenantId
  | .checkAndConsumeRate tenantId _ | .consume tenantId _ _ | .retryAfter tenantId _
  | .reset tenantId | .cleanup tenantId => tenantId

inductive Answer where
  | done
  | config (config : TenantQuotaConfig)
  | allowed (allowed : Bool)
  | count (count : Nat)
  | seconds (seconds : Except ZeroDivisionError ℚ)

def handle (q : QuotaManager) : Operation → QuotaManager × Answer
  | .configure tenantId config => (q.configure tenantId config, .done)
  | .getConfig tenantId => (q, .config (q.getConfig tenantId))
  | .checkConcurrent tenantId => (q, .allowed (q.checkConcurrent tenantId))
  | .startExecution tenantId executionId => (q.startExecution tenantId executionId, .done)
  | .endExecution tenantId executionId => (q.endExecution tenantId executionId, .done)
  | .concurrentCount tenantId => (q, .count (q.concurrentCount tenantId))
  | .checkAndConsumeRate tenantId now =>
      let (q, allowed) := q.checkAndConsumeRate tenantId now
      (q, .allowed allowed)
  | .consume tenantId tokens now =>
      let (limiter, allowed) := q.rateLimiter.consume tenantId now tokens
      ({ q with rateLimiter := limiter }, .allowed allowed)
  | .retryAfter tenantId now =>
      let (q, seconds) := q.retryAfter tenantId now
      (q, .seconds seconds)
  | .reset tenantId => ({ q with rateLimiter := q.rateLimiter.reset tenantId }, .done)
  | .cleanup tenantId => (q.cleanup tenantId, .done)

structure SameBucket (t : String) (l l' : TokenBucketRateLimiter) : Prop where
  maxTokens : l.maxTokens = l'.maxTokens
  refillRate : l.refillRate = l'.refillRate
  bucket : l.buckets.get t = l'.buckets.get t

/-- Two managers that a tenant cannot tell apart. -/
structure SameView (t : String) (q q' : QuotaManager) : Prop where
  limiter : SameBucket t q.rateLimiter q'.rateLimiter
  concurrent : q.concurrent.get t = q'.concurrent.get t
  config : q.configs.get t = q'.configs.get t

section bucket
variable {t : String} {l l' : TokenBucketRateLimiter}

theorem SameBucket.refl (t : String) (l : TokenBucketRateLimiter) : SameBucket t l l :=
  ⟨rfl, rfl, rfl⟩

theorem SameBucket.getBucket (same : SameBucket t l l') (now : ℚ) :
    l.getBucket t now = l'.getBucket t now := by
  simp only [TokenBucketRateLimiter.getBucket, same.maxTokens, same.refillRate, same.bucket]

theorem SameBucket.consume (same : SameBucket t l l') (now tokens : ℚ) :
    (l.consume t now tokens).2 = (l'.consume t now tokens).2 ∧
      SameBucket t (l.consume t now tokens).1 (l'.consume t now tokens).1 := by
  unfold TokenBucketRateLimiter.consume
  simp only [same.getBucket now]
  split
  · exact ⟨rfl, same.maxTokens, same.refillRate, by simp⟩
  · exact ⟨rfl, same.maxTokens, same.refillRate, by simp⟩

theorem SameBucket.retryAfter (same : SameBucket t l l') (now : ℚ) :
    (l.retryAfter t now).2 = (l'.retryAfter t now).2 ∧
      SameBucket t (l.retryAfter t now).1 (l'.retryAfter t now).1 := by
  unfold TokenBucketRateLimiter.retryAfter
  simp only [same.getBucket now]
  exact ⟨trivial, same.maxTokens, same.refillRate, by simp⟩

theorem SameBucket.reset (same : SameBucket t l l') (t' : String) :
    SameBucket t (l.reset t') (l'.reset t') := by
  refine ⟨same.maxTokens, same.refillRate, ?_⟩
  simp [TokenBucketRateLimiter.reset, Dict.get_erase, same.bucket]

theorem consume_other {t' : String} (other : t' ≠ t) (l : TokenBucketRateLimiter)
    (now tokens : ℚ) : SameBucket t (l.consume t' now tokens).1 l := by
  unfold TokenBucketRateLimiter.consume
  simp only
  split
  · exact ⟨rfl, rfl, by simp [Dict.get_set, Ne.symm other]⟩
  · exact ⟨rfl, rfl, by simp [Dict.get_set, Ne.symm other]⟩

end bucket
section view
variable {t : String} {q q' : QuotaManager}

theorem SameView.refl (t : String) (q : QuotaManager) : SameView t q q :=
  ⟨.refl t q.rateLimiter, rfl, rfl⟩

theorem SameView.active (same : SameView t q q') : q.active t = q'.active t := by
  simp only [QuotaManager.active, same.concurrent]

theorem SameView.getConfig (same : SameView t q q') : q.getConfig t = q'.getConfig t := by
  simp only [QuotaManager.getConfig, same.config]

theorem SameView.endExecution (same : SameView t q q') (id : String) :
    SameView t (q.endExecution t id) (q'.endExecution t id) := by
  unfold QuotaManager.endExecution
  rw [← same.concurrent]
  cases q.concurrent.get t with
  | none => exact same
  | some execs =>
    by_cases empty : execs = ∅
    · simpa [empty] using same
    · simp only [empty, if_false]
      exact ⟨same.limiter, by simp, same.config⟩

theorem handle_alike (q q' : QuotaManager) (op : Operation) (same : SameView t q q')
    (own : op.tenantId = t) :
    (handle q op).2 = (handle q' op).2 ∧ SameView t (handle q op).1 (handle q' op).1 := by
  subst own
  cases op with
  | configure tenantId config =>
    exact ⟨rfl, same.limiter, same.concurrent, by simp [handle, QuotaManager.configure,
      Operation.tenantId]⟩
  | getConfig tenantId => exact ⟨congrArg Answer.config same.getConfig, same⟩
  | checkConcurrent tenantId =>
    refine ⟨congrArg Answer.allowed ?_, same⟩
    have active := same.active
    have config := same.getConfig
    simp only [Operation.tenantId] at active config
    simp only [QuotaManager.checkConcurrent, active, config]
  | startExecution tenantId executionId =>
    have active := same.active
    simp only [Operation.tenantId] at active
    refine ⟨rfl, same.limiter, ?_, same.config⟩
    simp [handle, QuotaManager.startExecution, Operation.tenantId, active]
  | endExecution tenantId executionId => exact ⟨rfl, same.endExecution executionId⟩
  | concurrentCount tenantId =>
    have active := same.active
    simp only [Operation.tenantId] at active
    refine ⟨congrArg Answer.count ?_, same⟩
    simp only [QuotaManager.concurrentCount, active]
  | checkAndConsumeRate tenantId now =>
    obtain ⟨answer, limiter⟩ := same.limiter.consume now 1
    exact ⟨congrArg Answer.allowed answer, limiter, same.concurrent, same.config⟩
  | consume tenantId tokens now =>
    obtain ⟨answer, limiter⟩ := same.limiter.consume now tokens
    exact ⟨congrArg Answer.allowed answer, limiter, same.concurrent, same.config⟩
  | retryAfter tenantId now =>
    obtain ⟨answer, limiter⟩ := same.limiter.retryAfter now
    exact ⟨congrArg Answer.seconds answer, limiter, same.concurrent, same.config⟩
  | reset tenantId => exact ⟨rfl, same.limiter.reset tenantId, same.concurrent, same.config⟩
  | cleanup tenantId =>
    refine ⟨rfl, same.limiter.reset tenantId, ?_, same.config⟩
    simp [handle, QuotaManager.cleanup, Dict.get_erase, same.concurrent]

theorem endExecution_other {t' : String} (other : t ≠ t') (q : QuotaManager) (id : String) :
    SameView t (q.endExecution t' id) q := by
  unfold QuotaManager.endExecution
  split
  · exact .refl t q
  · split
    · exact .refl t q
    · exact ⟨.refl t _, by simp [Dict.get_set, other], rfl⟩

theorem SameView.trans {q'' : QuotaManager} (first : SameView t q q') (second : SameView t q' q'') :
    SameView t q q'' :=
  ⟨⟨first.limiter.maxTokens.trans second.limiter.maxTokens,
      first.limiter.refillRate.trans second.limiter.refillRate,
      first.limiter.bucket.trans second.limiter.bucket⟩,
    first.concurrent.trans second.concurrent, first.config.trans second.config⟩

theorem handle_unseen (q : QuotaManager) (op : Operation) (foreign : op.tenantId ≠ t) :
    SameView t (handle q op).1 q := by
  have other := Ne.symm foreign
  cases op with
  | configure tenantId config =>
    simp only [Operation.tenantId] at other
    exact ⟨.refl t _, rfl, by simp [handle, QuotaManager.configure, Dict.get_set, other]⟩
  | getConfig tenantId => exact .refl t q
  | checkConcurrent tenantId => exact .refl t q
  | startExecution tenantId executionId =>
    simp only [Operation.tenantId] at other
    exact ⟨.refl t _, by simp [handle, QuotaManager.startExecution, Dict.get_set, other], rfl⟩
  | endExecution tenantId executionId => exact endExecution_other other q executionId
  | concurrentCount tenantId => exact .refl t q
  | checkAndConsumeRate tenantId now =>
    exact ⟨consume_other foreign q.rateLimiter now 1, rfl, rfl⟩
  | consume tenantId tokens now =>
    exact ⟨consume_other foreign q.rateLimiter now tokens, rfl, rfl⟩
  | retryAfter tenantId now =>
    simp only [Operation.tenantId] at other
    refine ⟨⟨rfl, rfl, ?_⟩, rfl, rfl⟩
    simp [handle, QuotaManager.retryAfter, TokenBucketRateLimiter.retryAfter, Dict.get_set, other]
  | reset tenantId =>
    simp only [Operation.tenantId] at other
    refine ⟨⟨rfl, rfl, ?_⟩, rfl, rfl⟩
    simp [handle, TokenBucketRateLimiter.reset, Dict.get_erase, other]
  | cleanup tenantId =>
    simp only [Operation.tenantId] at other
    refine ⟨⟨rfl, rfl, ?_⟩, ?_, rfl⟩
    · simp [handle, QuotaManager.cleanup, TokenBucketRateLimiter.reset, Dict.get_erase, other]
    · simp [handle, QuotaManager.cleanup, Dict.get_erase, other]

end view

/-- The answers a tenant gets in a history of operations. -/
def answersTo (t : String) (q : QuotaManager) (ops : List Operation) : List Answer :=
  Trace.observed handle (fun op => op.tenantId = t) q ops

/-- Histories that agree on the operations of a tenant and their times answer them alike,
whatever the other tenants do. -/
theorem answersTo_eq {t : String} {ops ops' : List Operation}
    (agree : (ops.filter fun op => op.tenantId = t) = ops'.filter fun op => op.tenantId = t)
    (q : QuotaManager) : answersTo t q ops = answersTo t q ops' := by
  refine Trace.observed_eq (R := SameView t) ?_ ?_ (.refl t q) (.refl t q) agree
  · exact fun q q' op same own => handle_alike q q' op same (of_decide_eq_true own)
  · exact fun q q' op same foreign =>
      (handle_unseen q op (of_decide_eq_false foreign)).trans same

theorem answersTo_eq_flooded :
    answersTo "acme" {} [.checkAndConsumeRate "acme" 0, .retryAfter "acme" 1] =
      answersTo "acme" {} [.consume "globex" 100 0, .checkAndConsumeRate "acme" 0,
        .cleanup "globex", .retryAfter "acme" 1] :=
  answersTo_eq (t := "acme") (by simp [Operation.tenantId]) {}

end Kitematic.QuotaIsolation
