import Kitematic.TokenBuckets

/-! The delay that `retry_after` reports. A bucket below one token divides what is missing by
the rate, which nothing keeps from being zero, and a bucket too small for a token never
gets one. -/

namespace Kitematic.RetryDelays
open Dictionary Quotas

inductive Operation where
  | consume (tenantId : String) (tokens now : ℚ)
  | retryAfter (tenantId : String) (now : ℚ)
  | reset (tenantId : String)

structure Session where
  limiter : TokenBucketRateLimiter
  clock : ℚ

namespace Session

def start (maxTokens refillRate clock : ℚ) : Session where
  limiter := { maxTokens, refillRate }
  clock := clock

def step (s : Session) : Operation → Option Session
  | .consume tenantId tokens now =>
      if s.clock ≤ now then some ⟨(s.limiter.consume tenantId now tokens).1, now⟩ else none
  | .retryAfter tenantId now =>
      if s.clock ≤ now then some ⟨(s.limiter.retryAfter tenantId now).1, now⟩ else none
  | .reset tenantId => some { s with limiter := s.limiter.reset tenantId }

end Session

/-- A delay is returned, and after it, but not before, a token can be had. -/
def DelayRight (l : TokenBucketRateLimiter) (tenantId : String) (now : ℚ) : Prop :=
  ∃ delay, (l.retryAfter tenantId now).2 = .ok delay ∧ 0 ≤ delay ∧
    ((l.retryAfter tenantId now).1.consume tenantId (now + delay)).2 = true ∧
    ∀ earlier, now ≤ earlier → earlier < now + delay →
      ((l.retryAfter tenantId now).1.consume tenantId earlier).2 = false

section limiter
variable {l : TokenBucketRateLimiter} (uniform : l.Uniform) (refills : 0 ≤ l.refillRate)
  (tenantId : String) (now : ℚ)

include uniform in
theorem retryAfter_answer : (l.retryAfter tenantId now).2 =
    if 1 ≤ l.available tenantId now then .ok 0
    else if l.refillRate = 0 then .error .floatDivisionByZero
    else .ok ((1 - l.available tenantId now) / l.refillRate) := by
  have rate : (TokenBucketRateLimiter.refill (l.getBucket tenantId now) now).refillRate =
      l.refillRate := (uniform.getBucket tenantId now).2
  simp only [TokenBucketRateLimiter.retryAfter, sub_nonpos, rate]
  rfl

include uniform refills

theorem consume_later {later : ℚ} (ordered : now ≤ later) :
    ((l.retryAfter tenantId now).1.consume tenantId later).2 = true ↔
      1 ≤ l.maxTokens ∧ 1 ≤ l.available tenantId now + l.refillRate * (later - now) := by
  have grown := TokenBucketRateLimiter.available_grown (uniform.retryAfter tenantId now) refills
    tenantId ordered
  rw [TokenBucketRateLimiter.available_retryAfter] at grown
  rw [TokenBucketRateLimiter.consume_granted, grown]
  exact le_min_iff

theorem delayRight_of_uniform : DelayRight l tenantId now ↔
    1 ≤ l.available tenantId now ∨ 0 < l.refillRate ∧ 1 ≤ l.maxTokens := by
  have later := fun later (ordered : now ≤ later) =>
    consume_later uniform refills tenantId now ordered
  have capped := TokenBucketRateLimiter.available_le uniform tenantId now
  unfold DelayRight
  rw [retryAfter_answer uniform]
  by_cases full : 1 ≤ l.available tenantId now
  · simp only [full, if_true, true_or, iff_true]
    refine ⟨0, rfl, le_rfl, ?_, fun earlier after before => ?_⟩
    · rw [later _ (by simp)]
      exact ⟨full.trans capped, by simpa using full⟩
    · linarith
  · have missing : 0 < 1 - l.available tenantId now := by linarith
    rcases refills.eq_or_lt with stopped | flowing
    · simp [full, ← stopped]
    · have delay : 0 < (1 - l.available tenantId now) / l.refillRate := div_pos missing flowing
      have refilled : l.refillRate * ((1 - l.available tenantId now) / l.refillRate) =
          1 - l.available tenantId now := mul_div_cancel₀ _ flowing.ne'
      simp only [full, if_false, flowing.ne', false_or, flowing, true_and]
      constructor
      · rintro ⟨_, ⟨⟩, _, granted, _⟩
        exact ((later _ (by linarith)).mp granted).1
      · intro holds
        refine ⟨_, rfl, delay.le, ?_, fun earlier after before => ?_⟩
        · rw [later _ (by linarith)]
          exact ⟨holds, by rw [add_sub_cancel_left, refilled]; linarith⟩
        · have short : l.refillRate * (earlier - now) < 1 - l.available tenantId now := by
            rw [← refilled]
            exact mul_lt_mul_of_pos_left (by linarith) flowing
          rw [← Bool.not_eq_true, later earlier after]
          rintro ⟨_, enough⟩
          linarith

end limiter

namespace Session

structure Sound (maxTokens refillRate : ℚ) (s : Session) : Prop where
  maxTokens : s.limiter.maxTokens = maxTokens
  refillRate : s.limiter.refillRate = refillRate
  uniform : s.limiter.Uniform

theorem step_sound {maxTokens refillRate : ℚ} {s t : Session} {operation : Operation}
    (sound : Sound maxTokens refillRate s) (stepped : s.step operation = some t) :
    Sound maxTokens refillRate t := by
  cases operation with
  | consume tenantId tokens now =>
    simp only [step, Option.ite_none_right_eq_some, Option.some.injEq] at stepped
    obtain ⟨_, rfl⟩ := stepped
    exact ⟨by simpa using sound.maxTokens, by simpa using sound.refillRate,
      sound.uniform.consume tenantId now tokens⟩
  | retryAfter tenantId now =>
    simp only [step, Option.ite_none_right_eq_some, Option.some.injEq] at stepped
    obtain ⟨_, rfl⟩ := stepped
    exact ⟨sound.maxTokens, sound.refillRate, sound.uniform.retryAfter tenantId now⟩
  | reset tenantId =>
    cases stepped
    exact ⟨sound.maxTokens, sound.refillRate, Dict.forall_erase sound.uniform tenantId⟩

/-- In every state a limiter can reach the delay of a tenant is right exactly when the
tenant finds a token already, or tokens flow and a bucket can hold one. -/
theorem delayRight_iff {maxTokens refillRate clock : ℚ} {operations : List Operation}
    {s : Session} (refills : 0 ≤ refillRate)
    (ran : Trace.run step (start maxTokens refillRate clock) operations = some s)
    (tenantId : String) (now : ℚ) : DelayRight s.limiter tenantId now ↔
      1 ≤ s.limiter.available tenantId now ∨ 0 < refillRate ∧ 1 ≤ maxTokens := by
  have fresh : Sound maxTokens refillRate (start maxTokens refillRate clock) :=
    ⟨rfl, rfl, by simp [start, TokenBucketRateLimiter.Uniform]⟩
  have sound : Sound maxTokens refillRate s :=
    Trace.run_invariant (fun _ _ _ _ sound stepped => step_sound sound stepped) fresh ran
  have flows : 0 ≤ s.limiter.refillRate := sound.refillRate ▸ refills
  rw [delayRight_of_uniform sound.uniform flows, sound.refillRate, sound.maxTokens]

/-- The third request of a burst of two has to wait for half a second. -/
theorem delayRight_iff_burst :
    ∃ s, Trace.run step (start 2 2 0) [.consume "acme" 1 0, .consume "acme" 1 0] = some s ∧
      (DelayRight s.limiter "acme" 0 ↔
        1 ≤ s.limiter.available "acme" 0 ∨ (0 : ℚ) < 2 ∧ (1 : ℚ) ≤ 2) := by
  obtain ⟨s, ran⟩ : ∃ s, Trace.run step (start 2 2 0)
      [.consume "acme" 1 0, .consume "acme" 1 0] = some s :=
    Option.isSome_iff_exists.mp (by decide +kernel)
  exact ⟨s, ran, delayRight_iff (by decide) ran "acme" 0⟩

/-- An empty bucket without refill makes the call divide by zero. -/
theorem divided_by_zero :
    ∃ s, Trace.run step (start 1 0 0) [.consume "acme" 1 0] = some s ∧
      (s.limiter.retryAfter "acme" 0).2 = .error .floatDivisionByZero ∧
      ¬ DelayRight s.limiter "acme" 0 := by
  obtain ⟨s, ran⟩ : ∃ s, Trace.run step (start 1 0 0) [.consume "acme" 1 0] = some s :=
    Option.isSome_iff_exists.mp (by decide +kernel)
  have raised : (s.limiter.retryAfter "acme" 0).2 = .error .floatDivisionByZero := by
    cases ran
    decide +kernel
  refine ⟨s, ran, raised, ?_⟩
  rintro ⟨delay, answered, _⟩
  cases raised.symm.trans answered

end Session
end Kitematic.RetryDelays
