import SimplestChat.Support.LruCache

/-!
# Delays after failed sign-ins

Failures are counted for a pair of an address cohort and an account. The table is any LRU
map, so a pair is forgotten once enough others were used since; until then the wait for it
depends on its own history alone. Histories are lists, the latest call first.
-/

namespace SimplestChat.FailureDelays

/-- The unit of instants and durations is the nanosecond. -/
def second : ℕ := 1000000000

def freePairFailures : ℕ := 3

def maxPairDelay : ℕ := 300 * second

def failureMemory : ℕ := 3600 * second

def maxTrackedKeys : ℕ := 10000

/-- `1u64.checked_shl(n).unwrap_or(u64::MAX)`. -/
def shifted (n : ℕ) : ℕ :=
  if n < 64 then 2 ^ n else 2 ^ 64 - 1

def delayAfter (failures free ceiling : ℕ) : ℕ :=
  if failures - free = 0 then 0
  else min (shifted (failures - free - 1) * second) ceiling

structure Failures where
  count : ℕ
  blockedUntil : ℕ
  lastFailure : ℕ
deriving DecidableEq

variable {κ : Type*} [DecidableEq κ] {M : LruMap κ Failures}

structure FailureTable (M : LruMap κ Failures) where
  entries : M.Map
  free : ℕ
  ceiling : ℕ

namespace FailureTable

def new (free ceiling : ℕ) : FailureTable M :=
  ⟨M.new maxTrackedKeys (by decide), free, ceiling⟩

variable (table : FailureTable M) (key : κ) (now : ℕ)

def wait : ℕ × FailureTable M :=
  (((M.get table.entries key).1.filter fun e => now - e.lastFailure < failureMemory).elim 0
      fun e => e.blockedUntil - now,
    { table with entries := (M.get table.entries key).2 })

/-- The count saturates at `u32::MAX`. -/
def recordFailure : FailureTable M :=
  { table with
    entries := M.getOrInsertMut table.entries key fun found =>
      let entry := found.getD ⟨0, now, now⟩
      let count := if failureMemory ≤ now - entry.lastFailure then 0 else entry.count
      let count := min (count + 1) (2 ^ 32 - 1)
      ⟨count, now + delayAfter count table.free table.ceiling, now⟩ }

def clear : FailureTable M := { table with entries := M.pop table.entries key }

/-- What the table's map stands for. -/
def cache : LruCache κ Failures := M.cache table.entries

end FailureTable

/-- Whole seconds, rounded up; `none` is no wait. -/
def wholeSeconds (wait : ℕ) : Option ℕ :=
  if wait = 0 then none
  else some (if 0 < wait % second then wait / second + 1 else wait / second)

/-- The calls of the limiter, for a pair. -/
inductive Call (κ : Type*) where
  | failure (key : κ) (now : ℕ)
  | success (key : κ)
  | wait (key : κ) (now : ℕ)

def Call.key : Call κ → κ
  | failure key _ | success key | wait key _ => key

/-- The limiter after a history. The pairs are address cohorts with accounts. -/
def limiter (M : LruMap κ Failures) : List (Call κ) → FailureTable M
  | [] => .new freePairFailures maxPairDelay
  | .failure key now :: before => (limiter M before).recordFailure key now
  | .success key :: before => (limiter M before).clear key
  | .wait key now :: before => ((limiter M before).wait key now).2

/-- What a request for the pair is told to wait. -/
def waitAt (M : LruMap κ Failures) (history : List (Call κ)) (key : κ) (now : ℕ) : Option ℕ :=
  wholeSeconds ((limiter M history).wait key now).1

/-! ## What a pair's own history says -/

def continued (now : ℕ) (streak : List ℕ) : List ℕ :=
  if streak.head?.all fun last => now - last < failureMemory then streak else []

/-- The instants of a pair's failures since its last success or hour-long gap, the latest
first. -/
def streak (key : κ) : List (Call κ) → List ℕ
  | [] => []
  | .failure k now :: before =>
    if k = key then now :: continued now (streak key before) else streak key before
  | .success k :: before => if k = key then [] else streak key before
  | .wait _ _ :: before => streak key before

/-- Three failures are free; then one second, doubling up to 300. -/
def delay (failures : ℕ) : ℕ :=
  if failures ≤ 3 then 0 else min (2 ^ (failures - 4)) 300 * second

/-- The wait that the failures themselves call for. -/
def expectedWait (streak : List ℕ) (now : ℕ) : Option ℕ :=
  match streak with
  | [] => none
  | last :: _ => wholeSeconds (last + delay streak.length - now)

theorem delayAfter_eq (n : ℕ) :
    delayAfter (min n (2 ^ 32 - 1)) freePairFailures maxPairDelay = delay n := by
  have hlarge : ∀ m, 9 ≤ m → 512 ≤ 2 ^ m := fun m hm => Nat.pow_le_pow_right Nat.two_pos hm
  unfold delayAfter delay maxPairDelay freePairFailures
  by_cases hfree : n ≤ 3
  · rw [if_pos (by omega), if_pos hfree]
  rw [if_neg (by omega), if_neg hfree, ← Nat.mul_min_mul_right]
  by_cases hsmall : n < 13
  · have hcount : min n (2 ^ 32 - 1) - 3 - 1 = n - 4 := by omega
    rw [hcount, shifted, if_pos (by omega)]
  have hshift : 300 ≤ shifted (min n (2 ^ 32 - 1) - 3 - 1) := by
    unfold shifted
    split
    · exact Nat.le_trans (by decide) (hlarge _ (by omega))
    · decide
  rw [Nat.min_eq_right (Nat.mul_le_mul_right _ hshift), Nat.min_eq_right]
  exact Nat.mul_le_mul_right _ (Nat.le_trans (by decide) (hlarge (n - 4) (by omega)))

theorem delay_le (n : ℕ) : delay n ≤ maxPairDelay := by
  unfold delay maxPairDelay
  split
  · exact Nat.zero_le _
  · exact Nat.mul_le_mul_right _ (Nat.min_le_right _ _)

/-! ## What the table knows -/

def others (key : κ) (history : List (Call κ)) : Finset κ :=
  ((history.takeWhile fun call => call.key ≠ key).map Call.key).toFinset

/-- At every moment after the pair was first touched, fewer than `maxTrackedKeys` others
had been touched since its last touch. -/
def Remembered (key : κ) : List (Call κ) → Prop
  | [] => True
  | call :: before => Remembered key before ∧
      (key ∈ before.map Call.key → (others key (call :: before)).card < maxTrackedKeys)

instance (key : κ) : ∀ history, Decidable (Remembered key history)
  | [] => isTrue trivial
  | _ :: before =>
    have := instDecidableRemembered key before
    inferInstanceAs (Decidable (_ ∧ _))

def entryOf (last : ℕ) (failures : ℕ) : Failures :=
  ⟨min failures (2 ^ 32 - 1), last + delay failures, last⟩

def Agrees (key : κ) (history : List (Call κ)) (entries : LruCache κ Failures) : Prop :=
  match streak key history with
  | [] => entries.peek key = none
  | last :: rest => key ∈ history.map Call.key ∧
      entries.Holds key (entryOf last (rest.length + 1)) (others key history)

variable {key : κ} {call : Call κ} {before : List (Call κ)} {entries : LruCache κ Failures}

theorem others_cons (hne : call.key ≠ key) :
    others key (call :: before) = insert call.key (others key before) := by
  simp [others, hne]

theorem Agrees.other (h : Agrees key before entries) (hne : call.key ≠ key)
    (hstreak : streak key (call :: before) = streak key before)
    (hfew : key ∈ before.map Call.key →
      (others key (call :: before)).card < entries.cap) {after : LruCache κ Failures}
    (hafter : after = entries ∨ after = entries.pop call.key ∨
      ∃ v, after = entries.put call.key v) : Agrees key (call :: before) after := by
  unfold Agrees at h ⊢
  rw [hstreak]
  split at h
  · rw [Option.eq_none_iff_forall_ne_some] at h ⊢
    intro v hv
    rw [LruCache.peek_eq_some] at hv
    refine h v (LruCache.peek_eq_some.mpr ?_)
    rcases hafter with rfl | rfl | ⟨w, rfl⟩
    · exact hv
    · exact (LruCache.mem_pop.mp hv).1
    · rcases LruCache.mem_of_mem_put hv with hv | hv
      · exact absurd (congrArg Prod.fst hv).symm hne
      · exact hv.1
  · obtain ⟨hmem, hholds⟩ := h
    refine ⟨List.mem_cons_of_mem _ hmem, ?_⟩
    rw [others_cons hne]
    rcases hafter with rfl | rfl | ⟨w, rfl⟩
    · exact hholds.mono (Finset.subset_insert _ _)
    · exact (hholds.pop hne.symm).mono (Finset.subset_insert _ _)
    · exact hholds.put hne.symm (by simpa only [others_cons hne] using hfew hmem)

theorem agrees_put {last : ℕ} {rest : List ℕ} (hkey : call.key = key)
    (hstreak : streak key (call :: before) = last :: rest) :
    Agrees key (call :: before) (entries.put key (entryOf last (rest.length + 1))) := by
  unfold Agrees
  rw [hstreak]
  have hnone : others key (call :: before) = ∅ := by simp [others, hkey]
  exact ⟨by simp [hkey], hnone ▸ LruCache.Holds.put_self⟩

theorem agrees_of_none (hstreak : streak key before = [])
    (hnone : entries.peek key = none) : Agrees key before entries := by
  unfold Agrees
  rw [hstreak]
  exact hnone

theorem cache_clear {table : FailureTable M} : (table.clear key).cache = table.cache.pop key :=
  M.cache_pop _ _

theorem cache_wait {table : FailureTable M} {now : ℕ} :
    (table.wait key now).2.cache = table.cache.touch key := M.cache_get _ _

theorem cap_limiter (M : LruMap κ Failures) (history : List (Call κ)) :
    (limiter M history).cache.cap = maxTrackedKeys ∧
      (limiter M history).free = freePairFailures ∧
      (limiter M history).ceiling = maxPairDelay := by
  induction history with
  | nil => exact ⟨congrArg LruCache.cap (M.cache_new _ _), rfl, rfl⟩
  | cons call before ih =>
    refine ⟨?_, by cases call <;> exact ih.2⟩
    cases call with
    | failure k now => exact (congrArg LruCache.cap (M.cache_getOrInsertMut _ _ _)).trans ih.1
    | success k => exact (congrArg LruCache.cap cache_clear).trans ih.1
    | wait k now =>
      refine (congrArg LruCache.cap cache_wait).trans ?_
      unfold LruCache.touch
      split <;> exact ih.1

theorem cache_recordFailure (h : Agrees key before (limiter M before).cache) (now : ℕ) :
    ((limiter M before).recordFailure key now).cache = (limiter M before).cache.put key
      (entryOf now ((continued now (streak key before)).length + 1)) := by
  obtain ⟨-, hfree, hceiling⟩ := cap_limiter M before
  have hcount : (let entry := ((limiter M before).cache.peek key).getD ⟨0, now, now⟩
      if failureMemory ≤ now - entry.lastFailure then 0 else entry.count) =
        min (continued now (streak key before)).length (2 ^ 32 - 1) := by
    unfold Agrees at h
    split at h
    · rename_i hnil
      simp [h, hnil, continued]
    rename_i last rest hstreak
    rw [h.2.peek, hstreak]
    by_cases hgap : failureMemory ≤ now - last
    · simp [continued, entryOf, hgap, Nat.not_lt.mpr hgap]
    · simp [continued, entryOf, hgap, Nat.not_le.mp hgap]
  refine (M.cache_getOrInsertMut _ _ _).trans ?_
  unfold entryOf
  dsimp only [FailureTable.cache] at hcount ⊢
  rw [hcount, hfree, hceiling, ← delayAfter_eq]
  have hsaturates : ∀ n, min (min n (2 ^ 32 - 1) + 1) (2 ^ 32 - 1) = min (n + 1) (2 ^ 32 - 1) := by
    omega
  rw [hsaturates]

theorem limiter_agrees (history : List (Call κ)) (hremembered : Remembered key history) :
    Agrees key history (limiter M history).cache := by
  induction history with
  | nil =>
    refine agrees_of_none rfl ?_
    rw [limiter, FailureTable.cache, FailureTable.new, M.cache_new]
    rfl
  | cons call before ih =>
    have hbefore := ih hremembered.1
    have hfew := hremembered.2
    rw [← (cap_limiter M before).1] at hfew
    by_cases hkey : call.key = key
    · cases call with
      | failure k now =>
        obtain rfl : k = key := hkey
        have hstreak : streak k (.failure k now :: before) =
            now :: continued now (streak k before) := by simp [streak]
        rw [limiter, cache_recordFailure hbefore]
        exact agrees_put rfl hstreak
      | success k =>
        obtain rfl : k = key := hkey
        refine agrees_of_none (if_pos rfl) ?_
        rw [limiter, cache_clear]
        exact LruCache.peek_pop_self
      | wait k now =>
        obtain rfl : k = key := hkey
        rw [limiter, cache_wait, LruCache.touch]
        cases hstreak : streak k before with
        | nil =>
          have hnone : (limiter M before).cache.peek k = none := by
            simpa [Agrees, hstreak] using hbefore
          rw [hnone]
          exact agrees_of_none hstreak hnone
        | cons last rest =>
          have hholds := hbefore
          simp only [Agrees, hstreak] at hholds
          rw [hholds.2.peek]
          exact agrees_put rfl hstreak
    · cases call with
      | failure k now =>
        have hput := M.cache_getOrInsertMut (limiter M before).entries k
        exact hbefore.other hkey (if_neg hkey) hfew (.inr (.inr ⟨_, hput _⟩))
      | success k => exact hbefore.other hkey (if_neg hkey) hfew (.inr (.inl cache_clear))
      | wait k now =>
        refine hbefore.other hkey rfl hfew ?_
        rw [limiter, cache_wait, LruCache.touch]
        split
        · exact .inr (.inr ⟨_, rfl⟩)
        · exact .inl rfl

/-- While a pair is remembered, the wait for it is what its own history says; the table
stays within its bound whatever happens. -/
theorem waits_of_own_history (M : LruMap κ Failures) (history : List (Call κ)) :
    (limiter M history).cache.entries.length ≤ maxTrackedKeys ∧
      ∀ key, Remembered key history → ∀ now,
        waitAt M history key now = expectedWait (streak key history) now := by
  refine ⟨(cap_limiter M history).1 ▸ (limiter M history).cache.bounded, ?_⟩
  intro key hremembered now
  have hagrees := limiter_agrees (M := M) history hremembered
  rw [waitAt, FailureTable.wait, M.get_value, ← FailureTable.cache]
  cases hstreak : streak key history with
  | nil =>
    simp only [Agrees, hstreak] at hagrees
    rw [hagrees]
    rfl
  | cons last rest =>
    simp only [Agrees, hstreak] at hagrees
    rw [hagrees.2.peek]
    by_cases hrecent : now - last < failureMemory
    · simp [Option.filter, entryOf, expectedWait, hrecent]
    -- an hour after the failure the longest delay is over
    have hover : last + delay (rest.length + 1) ≤ now := by
      have hdelay := delay_le (rest.length + 1)
      have hmemory : maxPairDelay < failureMemory := by decide
      omega
    simp [Option.filter, entryOf, expectedWait, hrecent, Nat.sub_eq_zero_of_le hover]

/-- A fifth failure makes the pair wait for two seconds, whatever happens elsewhere. -/
theorem fifth_failure_waits :
    waitAt LruCache.asMap ([.failure (2, 0) 5, .failure (1, 0) 4, .failure (1, 0) 3, .failure (1, 0) 2,
      .failure (1, 0) 1, .failure (1, 0) 0] : List (Call (ℕ × ℕ))) (1, 0) 5 = some 2 := by
  rw [(waits_of_own_history _ _).2 (1, 0) (by decide +kernel)]
  decide +kernel

end SimplestChat.FailureDelays
