import SimplestChat.Support.Runs

/-!
# The queue of push notifications

One row per subscription stands for any number of messages: each enqueued message takes
the next generation, the pending mark keeps the instant at which it was first set, and a
claim carries the generation and the attempt that it found. Instants are in seconds.

The mark outlives the message that set it, so `still_unread_at`, which finds a mark of one
hour stale, also suppresses a message that came in a minute ago.
-/

namespace SimplestChat.Push

open List Option Transition

structure Subscription where
  generation : ℕ
  attempts : ℕ
  pendingSince : Option ℕ
  nextAttemptAt : ℕ
deriving DecidableEq

structure Pending where
  generation : ℕ
  attempts : ℕ
deriving DecidableEq

inductive Delivery where
  | accepted | expired | retry | rejected
deriving DecidableEq

def Subscription.enqueue (row : Subscription) (now : ℕ) : Subscription where
  generation := row.generation + 1
  attempts := if row.pendingSince.isNone then 0 else row.attempts
  nextAttemptAt :=
    if row.pendingSince.isNone then max row.nextAttemptAt (now + 3) else row.nextAttemptAt
  pendingSince := some (row.pendingSince.getD now)

/-- `claim_pending` on a row that is due. -/
def Subscription.claimPending (row : Subscription) (now : ℕ) : Subscription :=
  { row with nextAttemptAt := now + 60, attempts := min 5 (row.attempts + 1) }

def Subscription.due (row : Subscription) (now : ℕ) : Bool :=
  row.pendingSince.isSome && row.nextAttemptAt ≤ now

/-- `finish_delivery`; a provider that knows the endpoint no longer ends the
subscription. -/
def Subscription.finishDelivery (row : Subscription) (now : ℕ) (p : Pending) :
    Delivery → Option Subscription
  | .expired => none
  | outcome =>
    if outcome = .retry ∧ p.attempts < 5 then
      some { row with nextAttemptAt := now + 30 * 2 ^ min p.attempts 5 }
    else
      some { row with
        pendingSince := if row.generation = p.generation then none else row.pendingSince
        attempts := 0
        nextAttemptAt := now + 15 }

theorem Subscription.finishDelivery_cases {row row' : Subscription} {now : ℕ} {p : Pending}
    {outcome : Delivery} (h : row.finishDelivery now p outcome = some row') :
    row'.generation = row.generation ∧
      (row'.pendingSince = row.pendingSince ∧ row'.attempts = row.attempts ∧ p.attempts < 5 ∨
        row'.attempts = 0 ∧ row'.pendingSince =
            if row.generation = p.generation then none else row.pendingSince) := by
  unfold finishDelivery at h
  split at h
  · cases h
  split at h
  · rename_i hretry
    cases h
    exact ⟨rfl, .inl ⟨rfl, rfl, hretry.2⟩⟩
  · cases h
    exact ⟨rfl, .inr ⟨rfl, rfl⟩⟩

/-- The row, the deliveries under way, the generations claimed so far and the instant of
the latest message. -/
structure Queue where
  now : ℕ
  row : Option Subscription
  inFlight : List Pending
  claimed : List ℕ
  enqueued : Option ℕ
deriving DecidableEq

inductive Action where
  | enqueue
  | claim
  | finish (p : Pending) (outcome : Delivery)
  | restart
  | tick (elapsed : ℕ)
deriving DecidableEq

namespace Queue

variable {q q' : Queue} {action : Action} {row row' : Subscription} {p : Pending}

/-- One statement of the queue, or the passing of time. -/
def step (q : Queue) : Action → Option Queue
  | .enqueue =>
    q.row.map fun row => { q with row := some (row.enqueue q.now), enqueued := some q.now }
  | .claim =>
    (q.row.filter fun row => row.due q.now).map fun row =>
      { q with
        row := some (row.claimPending q.now)
        inFlight := ⟨row.generation, (row.claimPending q.now).attempts⟩ :: q.inFlight
        claimed := row.generation :: q.claimed }
  | .finish p outcome =>
    if p ∈ q.inFlight then
      some { q with
        row := q.row.bind fun row => row.finishDelivery q.now p outcome
        inFlight := q.inFlight.erase p }
    else none
  -- whatever was in flight is not completed
  | .restart => some { q with inFlight := [] }
  | .tick elapsed => some { q with now := q.now + elapsed }

/-- `still_unread_at` finds the mark too old. -/
def Suppresses (q : Queue) : Prop :=
  ∃ row since, q.row = some row ∧ row.pendingSince = some since ∧ since + 3600 ≤ q.now

/-- The mark is cleared only for the newest generation. -/
theorem cleared_by_newest (h : q.step action = some q') (hrow : q.row = some row)
    (hrow' : q'.row = some row') (hpending : row.pendingSince ≠ none)
    (hcleared : row'.pendingSince = none) :
    ∃ p outcome, action = .finish p outcome ∧ p ∈ q.inFlight ∧ p.generation = row.generation := by
  cases action with
  | enqueue =>
    simp only [step, hrow, map_some, Option.some.injEq] at h
    subst h
    cases hrow'
    cases hcleared
  | claim =>
    obtain ⟨row₀, hfound, rfl⟩ := map_eq_some_iff.mp h
    rw [hrow, filter_eq_some_iff] at hfound
    cases hfound.1
    cases hrow'
    exact absurd hcleared hpending
  | restart | tick =>
    cases h
    rw [hrow] at hrow'
    cases hrow'
    exact absurd hcleared hpending
  | finish p outcome =>
    obtain ⟨hmem, ⟨⟩⟩ := ite_none_right_eq_some.mp h
    refine ⟨p, outcome, rfl, hmem, ?_⟩
    simp only [hrow, bind_some] at hrow'
    obtain ⟨-, ⟨hkept, -, -⟩ | ⟨-, hmark⟩⟩ := Subscription.finishDelivery_cases hrow'
    · exact absurd (hkept ▸ hcleared) hpending
    by_contra hne
    rw [hmark, if_neg (Ne.symm hne)] at hcleared
    exact hpending hcleared

/-! ## The latest message -/

/-- No message is enqueued while an earlier one is pending. -/
def Uncoalesced (q : Queue) (action : Action) : Prop :=
  action = .enqueue → ∀ row ∈ q.row, row.pendingSince = none
deriving Decidable

/-- The mark was set by the latest message. -/
def Marked (q : Queue) : Prop :=
  ∀ row ∈ q.row, ∀ since ∈ row.pendingSince, q.enqueued = some since

theorem Marked.step (hq : q.Marked) (huncoalesced : q.Uncoalesced action)
    (h : q.step action = some q') : q'.Marked := by
  intro row' hrow' since hsince
  cases action with
  | enqueue =>
    obtain ⟨row, hrow, rfl⟩ := map_eq_some_iff.mp h
    cases hrow'
    unfold Subscription.enqueue at hsince
    rw [huncoalesced rfl row hrow] at hsince
    exact hsince
  | claim =>
    obtain ⟨row, hfound, rfl⟩ := map_eq_some_iff.mp h
    cases hrow'
    exact hq row (filter_eq_some_iff.mp hfound).1 since hsince
  | restart | tick =>
    cases h
    exact hq row' hrow' since hsince
  | finish p outcome =>
    obtain ⟨hmem, ⟨⟩⟩ := ite_none_right_eq_some.mp h
    obtain ⟨row, hrow, hfinish⟩ := bind_eq_some_iff.mp hrow'
    refine hq row hrow since ?_
    obtain ⟨-, ⟨hkept, -, -⟩ | ⟨-, hmark⟩⟩ := Subscription.finishDelivery_cases hfinish
    · exact hkept ▸ hsince
    rw [hmark] at hsince
    split at hsince
    · cases hsince
    · exact hsince

/-! ## Attempts -/

/-- Deliveries are completed before the next claim and before the process ends. -/
def Completed (q : Queue) (action : Action) : Prop :=
  action = .claim ∨ action = .restart → q.inFlight = []
deriving Decidable

/-- What the row knows of the claims for its generation. -/
structure Counted (row : Subscription) (inFlight : List Pending) (claimed : List ℕ) : Prop where
  newest : ∀ g ∈ claimed, g ≤ row.generation
  counted : row.pendingSince ≠ none → claimed.count row.generation ≤ row.attempts
  spare : row.pendingSince ≠ none → inFlight = [] → row.attempts < 5
  flying : ∀ p ∈ inFlight, row.pendingSince ≠ none ∧ p.attempts = row.attempts ∧
    (p.generation ≠ row.generation → claimed.count row.generation = 0)

structure Tried (q : Queue) : Prop where
  single : q.inFlight.length ≤ 1
  tries : ∀ g, q.claimed.count g ≤ 5
  row : ∀ row ∈ q.row, Counted row q.inFlight q.claimed

theorem Tried.step (hq : q.Tried) (hcompleted : q.Completed action)
    (h : q.step action = some q') : q'.Tried := by
  cases action with
  | enqueue =>
    obtain ⟨row, hrow, rfl⟩ := map_eq_some_iff.mp h
    have hc := hq.row row hrow
    have hfresh : q.claimed.count (row.generation + 1) = 0 :=
      count_eq_zero.mpr fun hmem => absurd (hc.newest _ hmem) (by omega)
    refine ⟨hq.single, hq.tries, ?_⟩
    rintro row' ⟨⟩
    refine ⟨fun g hg => (hc.newest g hg).trans (Nat.le_succ _), ?_, ?_, ?_⟩
    · intro _
      exact hfresh.le.trans (Nat.zero_le _)
    · intro _ hidle
      unfold Subscription.enqueue
      dsimp only
      split
      · omega
      · rename_i hset
        exact hc.spare (fun hnone => hset (by rw [hnone]; rfl)) hidle
    · intro p hp
      obtain ⟨hpending, hattempts, -⟩ := hc.flying p hp
      refine ⟨by simp [Subscription.enqueue], ?_, fun _ => hfresh⟩
      simpa [Subscription.enqueue, hpending] using hattempts
  | claim =>
    obtain ⟨row, hfound, rfl⟩ := map_eq_some_iff.mp h
    obtain ⟨hrow, hdue⟩ := filter_eq_some_iff.mp hfound
    have hc := hq.row row hrow
    have hidle : q.inFlight = [] := hcompleted (.inl rfl)
    have hpending : row.pendingSince ≠ none := by
      simp only [Subscription.due, Bool.and_eq_true, isSome_iff_ne_none] at hdue
      exact hdue.1
    have hcount := hc.counted hpending
    have hspare := hc.spare hpending hidle
    have hattempts : (row.claimPending q.now).attempts = row.attempts + 1 := by
      unfold Subscription.claimPending
      dsimp only
      omega
    refine ⟨by simp [hidle], fun g => ?_, ?_⟩
    · rw [count_cons]
      have := hq.tries g
      split
      · rename_i heq
        rw [← eq_of_beq heq]
        omega
      · omega
    · rintro row' ⟨⟩
      refine ⟨?_, fun _ => ?_, fun _ => nofun, ?_⟩
      · intro g hg
        rcases mem_cons.mp hg with rfl | hg
        · exact le_rfl
        · exact hc.newest g hg
      · rw [hattempts]
        change (row.generation :: q.claimed).count row.generation ≤ _
        rw [count_cons_self]
        omega
      · intro p hp
        rw [hidle] at hp
        rw [mem_singleton.mp hp]
        exact ⟨hpending, rfl, fun hne => absurd rfl hne⟩
  | restart =>
    cases h
    rw [← hcompleted (.inr rfl)]
    exact hq
  | tick =>
    cases h
    exact ⟨hq.single, hq.tries, hq.row⟩
  | finish p outcome =>
    obtain ⟨hmem, ⟨⟩⟩ := ite_none_right_eq_some.mp h
    have hlanded : q.inFlight.erase p = [] := by
      have hsingle := hq.single
      have hlength := length_erase_of_mem hmem
      exact length_eq_zero_iff.mp (by omega)
    refine ⟨by simp [hlanded], hq.tries, ?_⟩
    intro row' hrow'
    obtain ⟨row, hrow, hfinish⟩ := bind_eq_some_iff.mp hrow'
    have hc := hq.row row hrow
    obtain ⟨hpending, hattempts, hother⟩ := hc.flying p hmem
    simp only [hlanded]
    obtain ⟨hgeneration, ⟨hkept, hsame, hfew⟩ | ⟨hreset, hmark⟩⟩ :=
      Subscription.finishDelivery_cases hfinish
    · refine ⟨hgeneration ▸ hc.newest, ?_, fun _ _ => ?_, nofun⟩
      · rw [hkept, hgeneration, hsame]
        exact hc.counted
      · omega
    refine ⟨hgeneration ▸ hc.newest, fun hset => ?_, fun _ _ => by omega, nofun⟩
    rw [hmark] at hset
    rw [hgeneration]
    split at hset
    · exact absurd rfl hset
    · exact (hother (Ne.symm ‹_›)).le.trans (Nat.zero_le _)

def idle (now : ℕ) (row : Subscription) : Queue :=
  ⟨now, some { row with pendingSince := none }, [], [], none⟩

/-- The mark is cleared only by a completion for the newest generation. While messages
are not coalesced, a stale mark means that no message came within the hour. While
deliveries are completed, no generation is claimed more than five times. -/
theorem push_queue {now : ℕ} {row : Subscription} {actions : List Action}
    (hrun : run step (idle now row) actions = some q) :
    (∀ action q' row row', q.step action = some q' → q.row = some row →
      q'.row = some row' → row.pendingSince ≠ none → row'.pendingSince = none →
        ∃ p outcome, action = .finish p outcome ∧ p ∈ q.inFlight ∧ p.generation = row.generation) ∧
    (RunMeets step Uncoalesced (idle now row) actions → q.Suppresses →
      ∀ time ∈ q.enqueued, time + 3600 ≤ q.now) ∧
    (RunMeets step Completed (idle now row) actions → ∀ g, q.claimed.count g ≤ 5) := by
  refine ⟨fun _ _ _ _ => cleared_by_newest, fun hmeets hsuppresses => ?_, fun hmeets => ?_⟩
  · have hmarked : q.Marked := run_invariant (fun _ _ _ h hu hstep => h.step hu hstep)
      (by rintro row ⟨⟩; exact nofun) hmeets hrun
    obtain ⟨row, since, hrow, hsince, hold⟩ := hsuppresses
    rintro time htime
    rw [hmarked row hrow since hsince] at htime
    cases htime
    exact hold
  · have htried : q.Tried := run_invariant (fun _ _ _ h hu hstep => h.step hu hstep)
      ⟨by simp [idle], by simp [idle], by
        rintro row ⟨⟩
        exact ⟨nofun, fun h => absurd rfl h, fun h => absurd rfl h, nofun⟩⟩ hmeets hrun
    exact htried.tries

def quiet : Subscription := ⟨0, 0, none, 0⟩

/-- One generation is retried to the last attempt, and a message that comes in meanwhile is
claimed afterwards. -/
def retries : List Action :=
  [.enqueue, .tick 3, .claim, .finish ⟨1, 1⟩ .retry, .tick 60, .claim, .finish ⟨1, 2⟩ .retry,
    .tick 120, .claim, .finish ⟨1, 3⟩ .retry, .tick 240, .claim, .finish ⟨1, 4⟩ .retry,
    .tick 480, .claim, .enqueue, .finish ⟨1, 5⟩ .retry, .tick 15, .claim]

/-- The process is away for an hour. -/
def expires : List Action := [.enqueue, .restart, .tick 3600, .claim]

/-- After the retries the completion of the newest generation clears the mark, and the first
one was claimed five times; a message that waited an hour is suppressed. -/
theorem retried_and_stale : (∃ q, (run step (idle 0 quiet) retries = some q ∧
      q.inFlight = [⟨2, 1⟩] ∧ q.claimed.count 1 = 5) ∧
      (∀ q' row row', q.step (.finish ⟨2, 1⟩ .accepted) = some q' → q.row = some row →
        q'.row = some row' → row.pendingSince ≠ none → row'.pendingSince = none →
          row.generation = 2) ∧
      ∀ g, q.claimed.count g ≤ 5) ∧
    ∃ q, (run step (idle 0 quiet) expires = some q ∧ q.Suppresses) ∧
      ∀ time ∈ q.enqueued, time + 3600 ≤ q.now := by
  constructor
  · refine (exists_of_any (by decide : ((run step (idle 0 quiet) retries).any fun q =>
      decide (q.inFlight = [⟨2, 1⟩] ∧ q.claimed.count 1 = 5)) = true)).imp
        fun q h => ⟨h, fun q' row row' hstep hrow hrow' hset hcleared => ?_, ?_⟩
    · obtain ⟨p, outcome, ⟨⟩, -, hgeneration⟩ :=
        (push_queue h.1).1 _ q' row row' hstep hrow hrow' hset hcleared
      exact hgeneration.symm
    · exact (push_queue h.1).2.2 (by decide)
  · obtain ⟨q, hrun, hstale⟩ : ∃ q, run step (idle 0 quiet) expires = some q ∧ q.Suppresses :=
      ⟨_, rfl, _, _, rfl, rfl, le_rfl⟩
    exact ⟨q, ⟨hrun, hstale⟩, (push_queue hrun).2.1 (by decide) hstale⟩

/-- The process ends before the first message is claimed and is back after an hour; the
second message, which came in a second ago, is suppressed with the first. -/
theorem fresh_message_suppressed : ∃ q, run step (idle 0 quiet)
      [.enqueue, .restart, .tick 3599, .enqueue, .tick 1, .claim] = some q ∧
    q.Suppresses ∧ q.now = 3600 ∧ q.enqueued = some 3599 :=
  ⟨_, rfl, ⟨_, _, rfl, rfl, le_rfl⟩, rfl, rfl⟩

end Queue

end SimplestChat.Push
