import Mathlib

/-!
# Token buckets

A `TokenBucket` counts in microseconds of capacity, with saturating 64-bit arithmetic and
an elapsed time cut off to whole microseconds. Instants are in nanoseconds. The attempts
in an interval are one block of the attempts on a bucket, which may be in any state when
the block begins.

The buckets of a media session move from a connection to its grace entry and on to the
connection that resumes it, so a chain of connections shares one set of buckets.
-/

namespace SimplestChat.Rates

open List

/-- `TOKEN_US`. -/
def tokenUs : ℕ := 1000000

def maxU64 : ℕ := 2 ^ 64 - 1

/-- A bucket that counts in millionths of a token. -/
structure TokenBucket where
  tokensUs : ℕ
  capacityUs : ℕ
  refillRate : ℕ
  lastRefill : ℕ
  bounded : capacityUs ≤ maxU64

namespace TokenBucket

def full (now refillRate capacityUs : ℕ) (h : capacityUs ≤ maxU64) : TokenBucket :=
  ⟨capacityUs, capacityUs, refillRate, now, h⟩

def refilled (b : TokenBucket) (now : ℕ) : ℕ :=
  let elapsedUs := min ((now - b.lastRefill) / 1000) maxU64
  min (min (b.tokensUs + min (elapsedUs * b.refillRate) maxU64) maxU64) b.capacityUs

def tryConsume (b : TokenBucket) (now : ℕ) : TokenBucket × Bool :=
  if b.refilled now < tokenUs then
    ({ b with tokensUs := b.refilled now, lastRefill := now }, false)
  else ({ b with tokensUs := b.refilled now - tokenUs, lastRefill := now }, true)

/-- The answers to attempts at the instants. -/
def answers (b : TokenBucket) : List ℕ → List Bool
  | [] => []
  | now :: rest => (b.tryConsume now).2 :: (b.tryConsume now).1.answers rest

variable {b : TokenBucket} {now start stop : ℕ} {rest : List ℕ}

/-- The saturating operations never show. -/
theorem refilled_eq (b : TokenBucket) (now : ℕ) : b.refilled now =
    min (b.tokensUs + (now - b.lastRefill) / 1000 * b.refillRate) b.capacityUs := by
  have hbounded := b.bounded
  unfold refilled
  dsimp only
  rcases le_total ((now - b.lastRefill) / 1000) maxU64 with hshort | hlong
  · rw [min_eq_left hshort]
    omega
  rw [min_eq_right hlong]
  rcases Nat.eq_zero_or_pos b.refillRate with hzero | hpos
  · simp [hzero]
    omega
  have hover : maxU64 ≤ maxU64 * b.refillRate := Nat.le_mul_of_pos_right _ hpos
  have hmore := Nat.mul_le_mul_right b.refillRate hlong
  omega

theorem refilled_le (b : TokenBucket) (now : ℕ) : 1000 * b.refilled now ≤
    1000 * b.tokensUs + b.refillRate * (now - b.lastRefill) := by
  have hle := (refilled_eq b now).le.trans (min_le_left _ _)
  have hdiv := Nat.mul_le_mul_right b.refillRate (Nat.mul_div_le (now - b.lastRefill) 1000)
  nlinarith

theorem tryConsume_spec (b : TokenBucket) (now : ℕ) :
    (b.tryConsume now).1.tokensUs + tokenUs * (b.tryConsume now).2.toNat = b.refilled now ∧
      (b.tryConsume now).1.lastRefill = now ∧
      (b.tryConsume now).1.refillRate = b.refillRate := by
  by_cases hless : b.refilled now < tokenUs
  · simp only [tryConsume, if_pos hless, Bool.toNat_false, mul_zero, add_zero, and_self]
  · simp only [tryConsume, if_neg hless, Bool.toNat_true, mul_one,
      Nat.sub_add_cancel (not_lt.mp hless), and_self]

/-- An attempt and what comes after it take no more than is in the bucket at the attempt
and is refilled since. -/
theorem count_cons_le {refill : ℕ}
    (hrest : 1000 * tokenUs * ((b.tryConsume now).1.answers rest).count true ≤
      1000 * (b.tryConsume now).1.tokensUs + refill) :
    1000 * tokenUs * (b.answers (now :: rest)).count true ≤ 1000 * b.refilled now + refill := by
  have hcount : (b.answers (now :: rest)).count true =
      ((b.tryConsume now).1.answers rest).count true + (b.tryConsume now).2.toNat := by
    rw [answers, count_cons]
    cases (b.tryConsume now).2 <;> rfl
  rw [hcount, ← (tryConsume_spec b now).1]
  calc
    _ = 1000 * tokenUs * ((b.tryConsume now).1.answers rest).count true +
        1000 * (tokenUs * (b.tryConsume now).2.toNat) := by ring
    _ ≤ 1000 * (b.tryConsume now).1.tokensUs + refill +
        1000 * (tokenUs * (b.tryConsume now).2.toNat) := Nat.add_le_add_right hrest _
    _ = _ := by ring

theorem count_le_tokens (b : TokenBucket) {instants : List ℕ}
    (hsorted : (b.lastRefill :: instants).Pairwise (· ≤ ·))
    (hstop : ∀ now ∈ instants, now ≤ stop) :
    1000 * tokenUs * (b.answers instants).count true ≤
      1000 * b.tokensUs + b.refillRate * (stop - b.lastRefill) := by
  induction instants generalizing b with
  | nil => simp [answers]
  | cons now rest ih =>
    obtain ⟨hlast, hlater⟩ := pairwise_cons.mp hsorted
    obtain ⟨-, hnext, hrate⟩ := tryConsume_spec b now
    have hrest := ih (b.tryConsume now).1 (hnext.symm ▸ hlater)
      fun later hmem => hstop later (mem_cons_of_mem _ hmem)
    rw [hnext, hrate] at hrest
    have hsplit : stop - b.lastRefill = now - b.lastRefill + (stop - now) := by
      have := hlast now mem_cons_self
      have := hstop now mem_cons_self
      omega
    have hrefill := refilled_le b now
    rw [hsplit, mul_add]
    linarith [count_cons_le hrest]

/-- In an interval no more is admitted than the capacity and what is refilled in it. -/
theorem count_le_capacity (b : TokenBucket) {instants : List ℕ}
    (hsorted : (b.lastRefill :: instants).Pairwise (· ≤ ·))
    (hinside : ∀ now ∈ instants, start ≤ now ∧ now ≤ stop) :
    1000 * tokenUs * (b.answers instants).count true ≤
      1000 * b.capacityUs + b.refillRate * (stop - start) := by
  cases instants with
  | nil => simp [answers]
  | cons now rest =>
    obtain ⟨-, hlater⟩ := pairwise_cons.mp hsorted
    obtain ⟨-, hnext, hrate⟩ := tryConsume_spec b now
    have hrest := count_le_tokens (b.tryConsume now).1 (hnext.symm ▸ hlater)
      fun later hmem => (hinside later (mem_cons_of_mem _ hmem)).2
    rw [hnext, hrate] at hrest
    refine (count_cons_le hrest).trans (Nat.add_le_add ?_ ?_)
    · exact Nat.mul_le_mul_left _ (min_le_right _ _)
    · exact Nat.mul_le_mul_left _ (Nat.sub_le_sub_left (hinside now mem_cons_self).1 _)

/-- The answers of the fluid bucket, which is counted in billionths of a token. -/
def fluidAnswers (capacity rate : ℕ) : ℕ → ℕ → List ℕ → List Bool
  | _, _, [] => []
  | level, last, now :: rest =>
    let filled := min (level + rate * (now - last)) capacity
    if filled < 1000 * tokenUs then false :: fluidAnswers capacity rate filled now rest
    else true :: fluidAnswers capacity rate (filled - 1000 * tokenUs) now rest

theorem answers_eq_fluid (b : TokenBucket) {instants : List ℕ}
    (hwhole : ∀ now ∈ b.lastRefill :: instants, 1000 ∣ now) :
    b.answers instants = fluidAnswers (1000 * b.capacityUs) b.refillRate
      (1000 * b.tokensUs) b.lastRefill instants := by
  induction instants generalizing b with
  | nil => rfl
  | cons now rest ih =>
    have hfilled : min (1000 * b.tokensUs + b.refillRate * (now - b.lastRefill))
        (1000 * b.capacityUs) = 1000 * b.refilled now := by
      obtain ⟨elapsed, helapsed⟩ :=
        Nat.dvd_sub (hwhole now (by simp)) (hwhole b.lastRefill (by simp))
      rw [refilled_eq, helapsed, Nat.mul_div_cancel_left _ (by decide), ← Nat.mul_min_mul_left]
      congr 1
      ring
    have hrest := ih (b.tryConsume now).1 ?_
    · rw [answers, fluidAnswers, hrest, hfilled]
      unfold tryConsume
      by_cases hless : b.refilled now < tokenUs
      · rw [if_pos hless, if_pos (Nat.mul_lt_mul_of_pos_left hless (by decide))]
      · simp only [if_neg hless, if_neg fun h => hless (Nat.lt_of_mul_lt_mul_left h), Nat.mul_sub]
    · rw [(tryConsume_spec b now).2.1]
      exact fun later hlater => hwhole later (mem_cons_of_mem _ hlater)

end TokenBucket

/-! ## Media sessions -/

/-- The messages that `is_media_mutation`, `is_transport_mutation` and
`is_consumer_mutation` recognise. -/
inductive Mutation where
  | media | transport | consumer
deriving DecidableEq

/-- The buckets of a `MediaSessionRateState`. -/
abbrev MediaSessionRateState := Mutation → TokenBucket

def withConsumerLimit (now consumerLimit : ℕ) : MediaSessionRateState
  | .media => .full now 2 (8 * tokenUs) (by decide)
  | .transport => .full now 1 (6 * tokenUs) (by decide)
  | .consumer =>
    .full now 4 (min (min consumerLimit maxU64 * (3 * tokenUs)) maxU64) (min_le_right _ _)

/-- Who has the rate state of a session: a connection, or the grace entry of a lost one. -/
inductive Carrier where
  | connection (rates : MediaSessionRateState)
  | grace (rates : MediaSessionRateState)

inductive ChainAction where
  | message (m : Mutation) (now : ℕ)
  | disconnect
  | reconnect

/-- The mutations of a chain of connections, each with whether it was admitted. -/
def chain : Carrier → List ChainAction → List (Mutation × ℕ × Bool)
  | .connection rates, .message m now :: rest =>
    (m, now, ((rates m).tryConsume now).2) ::
      chain (.connection (Function.update rates m ((rates m).tryConsume now).1)) rest
  | .connection rates, .disconnect :: rest => chain (.grace rates) rest
  | .grace rates, .reconnect :: rest => chain (.connection rates) rest
  | _, _ => []

def Carrier.rates : Carrier → MediaSessionRateState
  | .connection rates | .grace rates => rates

def attemptsOn (m : Mutation) (c : Carrier) (actions : List ChainAction) : List (ℕ × Bool) :=
  ((chain c actions).filter fun entry => entry.1 = m).map Prod.snd

/-- To each bucket a chain of connections is one sequence of attempts. -/
theorem attemptsOn_answers (m : Mutation) (c : Carrier) (actions : List ChainAction) :
    (attemptsOn m c actions).map Prod.snd =
      (c.rates m).answers ((attemptsOn m c actions).map Prod.fst) := by
  unfold attemptsOn
  fun_induction chain c actions with
  | case1 rates other now rest ih =>
    unfold Carrier.rates at ih ⊢
    dsimp only at ih ⊢
    by_cases hm : other = m
    · subst hm
      rw [Function.update_self] at ih
      rw [filter_cons_of_pos (by simp)]
      exact congrArg _ ih
    · rw [Function.update_of_ne (Ne.symm hm)] at ih
      rw [filter_cons_of_neg (by simpa using hm)]
      exact ih
  | case2 rates rest ih | case3 rates rest ih => exact ih
  | case4 => rfl

/-- In an interval no more is admitted than the capacity and the refill of its length, in
billionths of a token, on one bucket or along a chain of connections; no saturating
operation shows; and at whole microseconds the bucket answers as the fluid one. -/
theorem token_buckets : (∀ (b : TokenBucket) instants start stop,
      (b.lastRefill :: instants).Pairwise (· ≤ ·) →
      (∀ now ∈ instants, start ≤ now ∧ now ≤ stop) →
        1000 * tokenUs * (b.answers instants).count true ≤
          1000 * b.capacityUs + b.refillRate * (stop - start)) ∧
    (∀ (b : TokenBucket) now, b.refilled now =
      min (b.tokensUs + (now - b.lastRefill) / 1000 * b.refillRate) b.capacityUs) ∧
    (∀ (b : TokenBucket) instants, (∀ now ∈ b.lastRefill :: instants, 1000 ∣ now) →
      b.answers instants = TokenBucket.fluidAnswers (1000 * b.capacityUs) b.refillRate
        (1000 * b.tokensUs) b.lastRefill instants) ∧
    ∀ m (c : Carrier) actions start stop,
      ((c.rates m).lastRefill :: (attemptsOn m c actions).map Prod.fst).Pairwise (· ≤ ·) →
      (∀ entry ∈ attemptsOn m c actions, start ≤ entry.1 ∧ entry.1 ≤ stop) →
        1000 * tokenUs * ((attemptsOn m c actions).map Prod.snd).count true ≤
          1000 * (c.rates m).capacityUs + (c.rates m).refillRate * (stop - start) := by
  refine ⟨fun b _ _ _ => b.count_le_capacity, TokenBucket.refilled_eq,
    fun b _ => b.answers_eq_fluid, fun m c actions start stop hsorted hinside => ?_⟩
  rw [attemptsOn_answers]
  refine (c.rates m).count_le_capacity hsorted fun now hnow => ?_
  obtain ⟨entry, hentry, rfl⟩ := List.mem_map.mp hnow
  exact hinside entry hentry

/-- A reconnect does not refill the buckets of a session. -/
example : (attemptsOn .transport (.connection (withConsumerLimit 0 10))
    (List.replicate 4 (.message .transport 0) ++ .disconnect :: .reconnect ::
      List.replicate 4 (.message .transport 0))).map Prod.snd =
    List.replicate 6 true ++ List.replicate 2 false := by
  decide +kernel

end SimplestChat.Rates
