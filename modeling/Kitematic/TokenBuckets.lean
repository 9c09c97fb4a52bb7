import Kitematic.Quotas
import Kitematic.Trace
import Kitematic.Windows

/-! What a token bucket grants over time. The tokens a tenant would find are a credit
in the sense of a window: time refills them at the rate, up to the cap, and a grant
takes its amount from them. Requests of any number of tenants come in turn. -/

namespace Kitematic.Quotas.TokenBucketRateLimiter
open Dictionary Windows

/-- Every bucket has the parameters of its limiter. -/
def Uniform (l : TokenBucketRateLimiter) : Prop :=
  ∀ tenantId bucket, l.buckets.get tenantId = some bucket →
    bucket.maxTokens = l.maxTokens ∧ bucket.refillRate = l.refillRate

theorem Uniform.set {l : TokenBucketRateLimiter} (uniform : l.Uniform) (tenantId : String)
    {bucket : TokenBucket} (cap : bucket.maxTokens = l.maxTokens)
    (rate : bucket.refillRate = l.refillRate) :
    Uniform { l with buckets := l.buckets.set tenantId bucket } :=
  Dict.forall_set uniform ⟨cap, rate⟩

theorem Uniform.getBucket {l : TokenBucketRateLimiter} (uniform : l.Uniform) (tenantId : String)
    (now : ℚ) : (l.getBucket tenantId now).maxTokens = l.maxTokens ∧
      (l.getBucket tenantId now).refillRate = l.refillRate := by
  unfold TokenBucketRateLimiter.getBucket
  cases stored : l.buckets.get tenantId with
  | none => exact ⟨rfl, rfl⟩
  | some bucket => exact uniform tenantId bucket stored

def spent (l : TokenBucketRateLimiter) (tenantId : String) (now amount : ℚ) : TokenBucket :=
  let bucket := refill (l.getBucket tenantId now) now
  { bucket with tokens := bucket.tokens - if amount ≤ bucket.tokens then amount else 0 }

theorem consume_eq (l : TokenBucketRateLimiter) (tenantId : String) (now amount : ℚ) :
    l.consume tenantId now amount =
      ({ l with buckets := l.buckets.set tenantId (l.spent tenantId now amount) },
        decide (amount ≤ l.available tenantId now)) := by
  by_cases enough : amount ≤ (refill (l.getBucket tenantId now) now).tokens <;>
    simp [consume, spent, available, enough]

theorem Uniform.consume {l : TokenBucketRateLimiter} (uniform : l.Uniform) (tenantId : String)
    (now amount : ℚ) : (l.consume tenantId now amount).1.Uniform := by
  obtain ⟨cap, rate⟩ := uniform.getBucket tenantId now
  rw [consume_eq]
  exact uniform.set tenantId cap rate

theorem Uniform.retryAfter {l : TokenBucketRateLimiter} (uniform : l.Uniform) (tenantId : String)
    (now : ℚ) : (l.retryAfter tenantId now).1.Uniform := by
  obtain ⟨cap, rate⟩ := uniform.getBucket tenantId now
  exact uniform.set tenantId cap rate

@[simp] theorem consume_maxTokens (l : TokenBucketRateLimiter) (tenantId : String)
    (now amount : ℚ) : (l.consume tenantId now amount).1.maxTokens = l.maxTokens := by
  rw [consume_eq]

@[simp] theorem consume_refillRate (l : TokenBucketRateLimiter) (tenantId : String)
    (now amount : ℚ) : (l.consume tenantId now amount).1.refillRate = l.refillRate := by
  rw [consume_eq]

theorem consume_granted (l : TokenBucketRateLimiter) (tenantId : String) (now amount : ℚ) :
    (l.consume tenantId now amount).2 = true ↔ amount ≤ l.available tenantId now := by
  simp [consume_eq]

theorem available_le {l : TokenBucketRateLimiter} (uniform : l.Uniform) (tenantId : String)
    (now : ℚ) : l.available tenantId now ≤ l.maxTokens := by
  rw [← (uniform.getBucket tenantId now).1]
  exact refill_tokens_le _ _

theorem available_advance {l : TokenBucketRateLimiter} (uniform : l.Uniform) (tenantId : String)
    {now later : ℚ} (ordered : now ≤ later) : l.available tenantId later ≤
      l.available tenantId now + max 0 l.refillRate * (later - now) := by
  have elapsed : 0 ≤ later - now := sub_nonneg.mpr ordered
  have gained : 0 ≤ max 0 l.refillRate * (later - now) := mul_nonneg (le_max_left _ _) elapsed
  have bounded : l.refillRate * (later - now) ≤ max 0 l.refillRate * (later - now) :=
    mul_le_mul_of_nonneg_right (le_max_right _ _) elapsed
  unfold available getBucket
  cases stored : l.buckets.get tenantId with
  | none => simpa [refill] using gained
  | some bucket =>
    obtain ⟨_, rate⟩ := uniform tenantId bucket stored
    simp only [refill, Option.getD_some, rate]
    have split : bucket.tokens + (later - bucket.lastRefill) * l.refillRate =
        bucket.tokens + (now - bucket.lastRefill) * l.refillRate +
          l.refillRate * (later - now) := by ring
    rw [split, ← min_add_add_right]
    exact min_le_min (le_add_of_nonneg_right gained) (add_le_add_right bounded _)

theorem available_grown {l : TokenBucketRateLimiter} (uniform : l.Uniform)
    (refills : 0 ≤ l.refillRate) (tenantId : String) {now later : ℚ} (ordered : now ≤ later) :
    l.available tenantId later =
      min l.maxTokens (l.available tenantId now + l.refillRate * (later - now)) := by
  have gained : 0 ≤ l.refillRate * (later - now) :=
    mul_nonneg refills (sub_nonneg.mpr ordered)
  unfold available getBucket
  cases stored : l.buckets.get tenantId with
  | none => simpa [refill] using gained
  | some bucket =>
    obtain ⟨cap, rate⟩ := uniform tenantId bucket stored
    simp only [refill, Option.getD_some, rate, cap]
    have split : bucket.tokens + (later - bucket.lastRefill) * l.refillRate =
        bucket.tokens + (now - bucket.lastRefill) * l.refillRate +
          l.refillRate * (later - now) := by ring
    rw [split, ← min_add_add_right, ← min_assoc,
      min_eq_left (le_add_of_nonneg_right gained)]

def credit (l : TokenBucketRateLimiter) (tenantId : String) (now : ℚ) : ℚ :=
  max 0 (l.available tenantId now)

section covered
variable {l : TokenBucketRateLimiter} {t : String} {clock now : ℚ} {grants : List (Grant ℚ)}

/-- The grants of a tenant are covered by the cap, the refill and the tokens left. -/
def Covers (l : TokenBucketRateLimiter) (t : String) (clock : ℚ) (grants : List (Grant ℚ)) : Prop :=
  Covered l.maxTokens (max 0 l.refillRate) clock (l.credit t clock) grants

theorem covers_fresh (full : 0 ≤ l.maxTokens) (fresh : l.buckets.get t = none) (clock : ℚ) :
    l.Covers t clock [] := by
  have credit : l.credit t clock = l.maxTokens := by
    simpa [TokenBucketRateLimiter.credit, available, refill, getBucket, fresh] using full
  unfold Covers
  rw [credit]
  exact .start full (le_max_left _ _) clock

theorem Covers.advance (covers : l.Covers t clock grants) (uniform : l.Uniform)
    (full : 0 ≤ l.maxTokens) (ordered : clock ≤ now) : l.Covers t now grants := by
  refine Covered.advance covers (le_max_left _ _) ordered (le_max_left _ _)
    (max_le full (available_le uniform t now)) ?_
  have gained : 0 ≤ max 0 l.refillRate * (now - clock) :=
    mul_nonneg (le_max_left _ _) (sub_nonneg.mpr ordered)
  have grown := available_advance uniform t ordered
  unfold credit
  rw [← max_add_add_right]
  exact max_le_max (by linarith) grown

theorem Covers.consume (covers : l.Covers t clock grants) (tenantId : String) {amount : ℚ}
    (positive : 0 ≤ amount) : (l.consume tenantId clock amount).1.Covers t clock
      (if t = tenantId ∧ (l.consume tenantId clock amount).2 = true then
        grants ++ [⟨clock, amount⟩] else grants) := by
  have left := l.available_consume tenantId t clock amount positive
  unfold Covers credit
  rw [left, consume_maxTokens, consume_refillRate]
  by_cases taken : t = tenantId ∧ (l.consume tenantId clock amount).2 = true
  · obtain ⟨rfl, granted⟩ := taken
    rw [consume_granted] at granted
    have paid : l.credit t clock = l.available t clock := max_eq_right (positive.trans granted)
    have rest : max 0 (l.available t clock - amount) = l.credit t clock - amount := by
      rw [paid]
      exact max_eq_right (sub_nonneg.mpr granted)
    rw [if_pos ⟨rfl, (l.consume_granted t clock amount).mpr granted⟩,
      if_pos ⟨rfl, (l.consume_granted t clock amount).mpr granted⟩, rest]
    exact Covered.grant covers (le_max_left _ _) positive (paid ▸ granted)
  · rw [if_neg taken, if_neg taken]
    exact covers

theorem Covers.retryAfter (covers : l.Covers t clock grants) (tenantId : String) :
    (l.retryAfter tenantId clock).1.Covers t clock grants := by
  unfold Covers credit
  rw [available_retryAfter]
  exact covers

end covered
end Kitematic.Quotas.TokenBucketRateLimiter

namespace Kitematic.TokenBuckets
open Dictionary Quotas Windows

inductive Request where
  | consume (tenantId : String) (amount now : ℚ)
  | retryAfter (tenantId : String) (now : ℚ)

structure Meter where
  limiter : TokenBucketRateLimiter
  clock : ℚ
  grants : List (String × Grant ℚ) := []

namespace Meter

def start (maxTokens refillRate clock : ℚ) : Meter where
  limiter := { maxTokens := maxTokens, refillRate := refillRate }
  clock := clock

def step (m : Meter) : Request → Option Meter
  | .consume tenantId amount now =>
      if m.clock ≤ now ∧ 0 ≤ amount then
        let (limiter, granted) := m.limiter.consume tenantId now amount
        some
          { limiter := limiter
            clock := now
            grants := if granted then m.grants ++ [(tenantId, ⟨now, amount⟩)] else m.grants }
      else none
  | .retryAfter tenantId now =>
      if m.clock ≤ now then
        some { m with limiter := (m.limiter.retryAfter tenantId now).1, clock := now }
      else none

def grantsTo (grants : List (String × Grant ℚ)) (tenantId : String) : List (Grant ℚ) :=
  (grants.filter fun e => e.1 = tenantId).map Prod.snd

theorem grantsTo_append (grants : List (String × Grant ℚ)) (tenantId owner : String)
    (g : Grant ℚ) : grantsTo (grants ++ [(owner, g)]) tenantId =
      if tenantId = owner then grantsTo grants tenantId ++ [g] else grantsTo grants tenantId := by
  by_cases own : tenantId = owner
  · simp [grantsTo, own]
  · simp [grantsTo, own, Ne.symm own]

/-- Every bucket holds between nothing and the cap. -/
def Bounded (m : Meter) : Prop :=
  ∀ tenantId bucket, m.limiter.buckets.get tenantId = some bucket →
    0 ≤ bucket.tokens ∧ bucket.tokens ≤ m.limiter.maxTokens

structure Filled (cap clock : ℚ) (bucket : TokenBucket) : Prop where
  nonneg : 0 ≤ bucket.tokens
  capped : bucket.tokens ≤ cap
  dated : bucket.lastRefill ≤ clock

structure Sound (m : Meter) : Prop where
  full : 0 ≤ m.limiter.maxTokens
  refills : 0 ≤ m.limiter.refillRate
  uniform : m.limiter.Uniform
  filled : ∀ tenantId bucket, m.limiter.buckets.get tenantId = some bucket →
    Filled m.limiter.maxTokens m.clock bucket
  covers : ∀ tenantId, m.limiter.Covers tenantId m.clock (grantsTo m.grants tenantId)

theorem start_sound {maxTokens refillRate : ℚ} (full : 0 ≤ maxTokens) (refills : 0 ≤ refillRate)
    (clock : ℚ) : (start maxTokens refillRate clock).Sound := by
  refine ⟨full, refills, by simp [start, TokenBucketRateLimiter.Uniform], by simp [start], ?_⟩
  exact fun tenantId => TokenBucketRateLimiter.covers_fresh full rfl clock

theorem Sound.refilled {m : Meter} (sound : m.Sound) (tenantId : String) {now : ℚ}
    (ordered : m.clock ≤ now) : Filled m.limiter.maxTokens now
      (TokenBucketRateLimiter.refill (m.limiter.getBucket tenantId now) now) := by
  obtain ⟨cap, rate⟩ := sound.uniform.getBucket tenantId now
  have found : Filled m.limiter.maxTokens now (m.limiter.getBucket tenantId now) := by
    unfold TokenBucketRateLimiter.getBucket
    cases stored : m.limiter.buckets.get tenantId with
    | none => exact ⟨sound.full, le_rfl, le_rfl⟩
    | some bucket =>
      have before := sound.filled tenantId bucket stored
      exact ⟨before.nonneg, before.capped, before.dated.trans ordered⟩
  have gained : 0 ≤ (now - (m.limiter.getBucket tenantId now).lastRefill) *
      (m.limiter.getBucket tenantId now).refillRate :=
    mul_nonneg (sub_nonneg.mpr found.dated) (rate ▸ sound.refills)
  refine ⟨le_min (cap ▸ sound.full) (add_nonneg found.nonneg gained), ?_, le_rfl⟩
  exact cap ▸ TokenBucketRateLimiter.refill_tokens_le _ _

theorem Sound.set {m : Meter} (sound : m.Sound) (tenantId : String) {now : ℚ}
    (ordered : m.clock ≤ now) {bucket : TokenBucket}
    (left : Filled m.limiter.maxTokens now bucket) :
    ∀ t b, (m.limiter.buckets.set tenantId bucket).get t = some b →
      Filled m.limiter.maxTokens now b := by
  refine Dict.forall_set (fun t b stored => ?_) left
  have before := sound.filled t b stored
  exact ⟨before.nonneg, before.capped, before.dated.trans ordered⟩

theorem step_sound {m m' : Meter} {request : Request} (sound : m.Sound)
    (stepped : m.step request = some m') : m'.Sound := by
  cases request with
  | consume tenantId amount now =>
    simp only [step, Option.ite_none_right_eq_some, Option.some.injEq] at stepped
    obtain ⟨⟨ordered, positive⟩, rfl⟩ := stepped
    have refilled := sound.refilled tenantId ordered
    have left : Filled m.limiter.maxTokens now (m.limiter.spent tenantId now amount) := by
      unfold TokenBucketRateLimiter.spent
      refine ⟨?_, ?_, refilled.dated⟩
      · by_cases enough : amount ≤
            (TokenBucketRateLimiter.refill (m.limiter.getBucket tenantId now) now).tokens
        · simp [enough]
        · simpa [enough] using refilled.nonneg
      · refine (sub_le_self _ ?_).trans refilled.capped
        split
        · exact positive
        · exact le_rfl
    refine ⟨by simpa using sound.full, by simpa using sound.refills,
      sound.uniform.consume tenantId now amount, ?_, fun t => ?_⟩
    · simp only [TokenBucketRateLimiter.consume_eq]
      exact sound.set tenantId ordered left
    · have later := (sound.covers t).advance sound.uniform sound.full ordered
      have paid := later.consume tenantId positive
      cases granted : (m.limiter.consume tenantId now amount).2 with
      | true => simpa [granted, grantsTo_append] using paid
      | false => simpa [granted] using paid
  | retryAfter tenantId now =>
    simp only [step, Option.ite_none_right_eq_some, Option.some.injEq] at stepped
    obtain ⟨ordered, rfl⟩ := stepped
    refine ⟨sound.full, sound.refills, sound.uniform.retryAfter tenantId now, ?_, fun t => ?_⟩
    · exact sound.set tenantId ordered (sound.refilled tenantId ordered)
    · have later := (sound.covers t).advance sound.uniform sound.full ordered
      exact later.retryAfter tenantId

theorem step_parameters {m m' : Meter} {request : Request}
    (stepped : m.step request = some m') :
    m'.limiter.maxTokens = m.limiter.maxTokens ∧
      m'.limiter.refillRate = m.limiter.refillRate := by
  cases request with
  | consume tenantId amount now =>
    simp only [step, Option.ite_none_right_eq_some, Option.some.injEq] at stepped
    obtain ⟨_, rfl⟩ := stepped
    simp
  | retryAfter tenantId now =>
    simp only [step, Option.ite_none_right_eq_some, Option.some.injEq] at stepped
    obtain ⟨_, rfl⟩ := stepped
    exact ⟨rfl, rfl⟩

/-- In every run the buckets stay between nothing and the cap, and what a tenant is
granted in a window is at most the cap and the refill of that window. -/
theorem bounded_and_window {maxTokens refillRate clock : ℚ} {requests : List Request} {m : Meter}
    (full : 0 ≤ maxTokens) (refills : 0 ≤ refillRate)
    (ran : Trace.run step (start maxTokens refillRate clock) requests = some m) :
    Trace.AllStates step Bounded (start maxTokens refillRate clock) requests ∧
      ∀ tenantId s t, s ≤ t →
        within (grantsTo m.grants tenantId) s t ≤ maxTokens + refillRate * (t - s) := by
  have all : Trace.AllStates step Sound (start maxTokens refillRate clock) requests := by
    refine Trace.allStates_of_keeps ?_ (start_sound full refills clock)
    exact fun _ _ _ _ sound stepped => step_sound sound stepped
  constructor
  · refine all.mono fun m sound tenantId bucket stored => ?_
    have filled := sound.filled tenantId bucket stored
    exact ⟨filled.nonneg, filled.capped⟩
  · intro tenantId s t ordered
    have parameters : m.limiter.maxTokens = maxTokens ∧ m.limiter.refillRate = refillRate := by
      refine Trace.run_invariant (I := fun m => m.limiter.maxTokens = maxTokens ∧
        m.limiter.refillRate = refillRate) ?_ ⟨rfl, rfl⟩ ran
      rintro request _ m m' ⟨cap, rate⟩ stepped
      obtain ⟨cap', rate'⟩ := step_parameters stepped
      exact ⟨cap'.trans cap, rate'.trans rate⟩
    have window := ((all.last ran).covers tenantId).window s t ordered
    rwa [parameters.1, parameters.2, max_eq_right refills] at window

/-- Two of three requests pass a bucket of two tokens, one of them after a refusal. -/
theorem bounded_and_window_burst :
    ∃ m, Trace.run step (start 2 1 0) [.consume "acme" 2 0, .consume "acme" 1 (1 / 2),
        .retryAfter "acme" 1, .consume "acme" 1 1] = some m ∧
      Trace.AllStates step Bounded (start 2 1 0) [.consume "acme" 2 0, .consume "acme" 1 (1 / 2),
        .retryAfter "acme" 1, .consume "acme" 1 1] ∧
      ∀ tenantId s t, s ≤ t → within (grantsTo m.grants tenantId) s t ≤ 2 + 1 * (t - s) := by
  obtain ⟨m, ran⟩ : ∃ m, Trace.run step (start 2 1 0) [.consume "acme" 2 0,
      .consume "acme" 1 (1 / 2), .retryAfter "acme" 1, .consume "acme" 1 1] = some m :=
    Option.isSome_iff_exists.mp (by decide +kernel)
  exact ⟨m, ran, bounded_and_window (by decide) (by decide) ran⟩

end Meter
end Kitematic.TokenBuckets
