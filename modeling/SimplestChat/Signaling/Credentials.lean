import SimplestChat.Support.Runs

/-!
# Credential continuity

An authenticated connection re-checks its account while it stays open. When
the account database cannot answer, the connection may keep the claims it has
already accepted for one short window. `CredentialContinuity` is the policy:
it is owned by the connection and copied into the reconnect grace when the
socket goes away.

Instants and durations are counted in nanoseconds. A history lists what has
been observed with the latest observation first.
-/

namespace SimplestChat.Credentials

open List Option

/-! ## The policy -/

inductive CredentialStatus where
  | current
  | revoked
  | unavailable
deriving DecidableEq

/-- `CREDENTIAL_UNAVAILABLE_WINDOW`: fifteen seconds. -/
def credentialUnavailableWindow : Nat := 15000000000

structure CredentialContinuity where
  unavailableDeadline : Option Nat := none
  revalidationRequired : Bool := false
  terminal : Bool := false
deriving DecidableEq

namespace CredentialContinuity

/-- Whether the accepted credentials can no longer be retained at `now`. -/
def expired (c : CredentialContinuity) (now : Nat) : Bool :=
  c.terminal || c.unavailableDeadline.any fun deadline => decide (deadline ≤ now)

/-- Apply one result. The first component permits retaining the claims. -/
def observe (c : CredentialContinuity) (status : CredentialStatus) (now : Nat) :
    Bool × CredentialContinuity :=
  if c.expired now then (false, { c with terminal := true })
  else
    match status with
    | .current => (true, { c with unavailableDeadline := none, revalidationRequired := false })
    | .revoked => (false, { c with terminal := true })
    | .unavailable =>
      -- lost notices require proof, not the ordinary allowance
      if c.revalidationRequired then (false, { c with terminal := true })
      else
        (true, { c with
          unavailableDeadline :=
            some (c.unavailableDeadline.getD (now + credentialUnavailableWindow)) })

def deadline (c : CredentialContinuity) : Option Nat :=
  c.unavailableDeadline

/-- Notices were lost: the next result must establish current credentials. -/
def requireRevalidation (c : CredentialContinuity) : CredentialContinuity :=
  { c with revalidationRequired := true }

end CredentialContinuity

/-! ## Histories -/

inductive Event where
  | result (status : CredentialStatus)
  | lost
deriving DecidableEq

structure Observation where
  instant : Nat
  event : Event
deriving DecidableEq

abbrev History := List Observation

def CredentialContinuity.apply (c : CredentialContinuity) (o : Observation) :
    CredentialContinuity :=
  match o.event with
  | .result status => (c.observe status o.instant).2
  | .lost => c.requireRevalidation

def replay : History → CredentialContinuity
  | [] => {}
  | o :: older => (replay older).apply o

def sinceCurrent (history : History) : History :=
  history.takeWhile fun o => decide (o.event ≠ .result .current)

def firstUnavailable (history : History) : Option Nat := ((sinceCurrent history).filter fun o =>
    decide (o.event = .result .unavailable)).getLast?.map Observation.instant

/-- `P` holds of every observation and what preceded it. -/
def Throughout (P : Observation → History → Prop) (history : History) : Prop :=
  ∀ newer o older, history = newer ++ o :: older → P o older

def NeverRevoked (history : History) : Prop :=
  ∀ o ∈ history, o.event ≠ .result .revoked

/-- Between a loss of notices and a later unavailable result there was a
current one. -/
def LossesProved (history : History) : Prop :=
  ∀ newer unavailable between lost older,
    history = newer ++ unavailable :: (between ++ lost :: older) →
    unavailable.event = .result .unavailable → lost.event = .lost →
    ∃ o ∈ between, o.event = .result .current

/-- Less than the window has passed since the first unavailable result after
the most recent current one. -/
def InWindow (history : History) (instant : Nat) : Prop :=
  ∀ first, firstUnavailable history = some first → instant < first + credentialUnavailableWindow

/-- Every result arrived while the window open at that time, if any, had not
passed. -/
def Timely (history : History) : Prop :=
  Throughout (fun o older => o.event ≠ .lost → InWindow older o.instant) history

def LostSince (history : History) : Prop :=
  ∃ o ∈ sinceCurrent history, o.event = .lost

section Histories

variable {o : Observation} {history : History}

theorem throughout_cons {P : Observation → History → Prop} :
    Throughout P (o :: history) ↔ P o history ∧ Throughout P history := by
  constructor
  · intro h
    constructor
    · exact h [] o history rfl
    intro newer other older heq
    apply h (o :: newer) other older
    rw [heq, cons_append]
  · rintro ⟨hhead, htail⟩ newer other older heq
    cases newer with
    | nil =>
      obtain ⟨rfl, rfl⟩ := List.cons.inj heq
      exact hhead
    | cons first newer =>
      have hrest : history = newer ++ other :: older := (List.cons.inj heq).2
      exact htail newer other older hrest

theorem sinceCurrent_of_current (h : o.event = .result .current) :
    sinceCurrent (o :: history) = [] := by
  simp [sinceCurrent, h]

theorem sinceCurrent_of_ne (h : o.event ≠ .result .current) :
    sinceCurrent (o :: history) = o :: sinceCurrent history := by
  simp [sinceCurrent, h]

theorem firstUnavailable_of_current (h : o.event = .result .current) :
    firstUnavailable (o :: history) = none := by
  simp [firstUnavailable, sinceCurrent_of_current h]

theorem firstUnavailable_of_unavailable (h : o.event = .result .unavailable) :
    firstUnavailable (o :: history) = some ((firstUnavailable history).getD o.instant) := by
  have hne : o.event ≠ .result .current := by simp [h]
  rw [firstUnavailable, sinceCurrent_of_ne hne, filter_cons_of_pos (by simp [h]),
    List.getLast?_cons, firstUnavailable]
  cases (List.filter _ (sinceCurrent history)).getLast? <;> rfl

theorem firstUnavailable_of_lost (h : o.event = .lost) :
    firstUnavailable (o :: history) = firstUnavailable history := by
  have hne : o.event ≠ .result .current := by simp [h]
  rw [firstUnavailable, sinceCurrent_of_ne hne, filter_cons_of_neg (by simp [h]), firstUnavailable]

theorem not_current_of_mem_sinceCurrent (h : o ∈ sinceCurrent history) :
    o.event ≠ .result .current := by
  simpa using mem_takeWhile_imp h

/-- Losses are proved in a history exactly if no unavailable result of it
finds a loss that is still unproved. -/
theorem lossesProved_iff : LossesProved history ↔ Throughout
        (fun o older => o.event = .result .unavailable → ¬ LostSince older)
        history := by
  constructor
  · rintro h newer o older rfl hunavailable ⟨lost, hmem, hlost⟩
    obtain ⟨between, rest, hsplit⟩ := append_of_mem hmem
    have holder : older = between ++ lost ::
        (rest ++ older.dropWhile fun o => decide (o.event ≠ .result .current)) := by
      calc
        older = sinceCurrent older ++
            older.dropWhile fun o => decide (o.event ≠ .result .current) :=
          (takeWhile_append_dropWhile).symm
        _ = _ := by rw [hsplit, append_assoc, cons_append]
    obtain ⟨proof, hproof, hcurrent⟩ :=
      h newer o between lost _ (congrArg (fun l => newer ++ o :: l) holder)
        hunavailable hlost
    have hsince : proof ∈ sinceCurrent older := by
      rw [hsplit]
      exact mem_append_left _ hproof
    exact not_current_of_mem_sinceCurrent hsince hcurrent
  · intro h newer unavailable between lost older heq hunavailable hlost
    by_contra hnone
    apply h newer unavailable _ heq hunavailable
    refine ⟨lost, ?_, hlost⟩
    have hbetween : ∀ o ∈ between, decide (o.event ≠ .result .current) = true := by
      intro o ho
      simpa using fun hcurrent => hnone ⟨o, ho, hcurrent⟩
    rw [sinceCurrent, takeWhile_append_of_pos hbetween]
    simp [hlost]

theorem neverRevoked_cons : NeverRevoked (o :: history) ↔
      o.event ≠ .result .revoked ∧ NeverRevoked history := by
  simp [NeverRevoked]

end Histories

/-! ## What a continuity knows of its history -/

/-- The three conditions on a whole history. -/
structure Retained (history : History) : Prop where
  unrevoked : NeverRevoked history
  proved : LossesProved history
  timely : Timely history

theorem retained_cons {o : Observation} {history : History} : Retained (o :: history) ↔
      Retained history ∧ o.event ≠ .result .revoked ∧
        (o.event = .result .unavailable → ¬ LostSince history) ∧
        (o.event ≠ .lost → InWindow history o.instant) := by
  constructor
  · rintro ⟨hrevoked, hproved, htimely⟩
    rw [neverRevoked_cons] at hrevoked
    rw [lossesProved_iff, throughout_cons] at hproved
    rw [Timely, throughout_cons] at htimely
    exact ⟨⟨hrevoked.2, lossesProved_iff.mpr hproved.2, htimely.2⟩,
      hrevoked.1, hproved.1, htimely.1⟩
  · rintro ⟨h, hrevoked, hproved, htimely⟩
    constructor
    · exact neverRevoked_cons.mpr ⟨hrevoked, h.unrevoked⟩
    · rw [lossesProved_iff, throughout_cons]
      exact ⟨hproved, lossesProved_iff.mp h.proved⟩
    · rw [Timely, throughout_cons]
      exact ⟨htimely, h.timely⟩

structure Reflects (history : History) (c : CredentialContinuity) : Prop where
  terminal : c.terminal = false ↔ Retained history
  deadline : c.terminal = false → c.unavailableDeadline =
      (firstUnavailable history).map (· + credentialUnavailableWindow)
  required : c.terminal = false → (c.revalidationRequired = true ↔ LostSince history)

section Reflects

variable {history : History} {c : CredentialContinuity} {o : Observation}

theorem Reflects.expired_iff (h : Reflects history c) (instant : Nat) :
    c.expired instant = false ↔ Retained history ∧ InWindow history instant := by
  rw [CredentialContinuity.expired, Bool.or_eq_false_iff, h.terminal]
  apply and_congr_right
  intro hretained
  rw [h.deadline (h.terminal.mpr hretained), InWindow]
  cases firstUnavailable history with
  | none => simp
  | some first =>
    rw [map_some, any_some, decide_eq_false_iff_not, Nat.not_le]
    constructor
    · intro hlt other heq
      rw [← Option.some.inj heq]
      exact hlt
    · intro h
      exact h first rfl

theorem CredentialContinuity.observe_of_expired (status : CredentialStatus)
    {now : Nat} (h : c.expired now = true) :
    c.observe status now = (false, { c with terminal := true }) := by
  simp [observe, h]

theorem Reflects.of_terminal (hterminal : c.terminal = true) (h : ¬ Retained history) :
    Reflects history c := by
  constructor
  · exact iff_of_false (by simp [hterminal]) h
  · intro hf
    simp [hterminal] at hf
  · intro hf
    simp [hterminal] at hf

theorem Reflects.lost (h : Reflects history c) (hevent : o.event = .lost) :
    Reflects (o :: history) c.requireRevalidation := by
  have hretained : Retained (o :: history) ↔ Retained history := by
    rw [retained_cons]
    simp [hevent]
  constructor
  · rw [hretained]
    exact h.terminal
  · intro hterminal
    rw [firstUnavailable_of_lost hevent]
    exact h.deadline hterminal
  · intro _
    have hne : o.event ≠ .result .current := by simp [hevent]
    simp [CredentialContinuity.requireRevalidation, LostSince, sinceCurrent_of_ne hne, hevent]

theorem Reflects.result (h : Reflects history c) {status : CredentialStatus}
    (hevent : o.event = .result status) :
    Reflects (o :: history) (c.observe status o.instant).2 := by
  cases hexpired : c.expired o.instant with
  | true =>
    rw [CredentialContinuity.observe_of_expired status hexpired]
    apply Reflects.of_terminal rfl
    intro hretained
    obtain ⟨hbefore, -, -, hwindow⟩ := retained_cons.mp hretained
    have hnot : c.expired o.instant = false :=
      (h.expired_iff _).mpr ⟨hbefore, hwindow (by simp [hevent])⟩
    simp [hexpired] at hnot
  | false =>
    obtain ⟨hretained, hwindow⟩ := (h.expired_iff _).mp hexpired
    have hterminal := h.terminal.mpr hretained
    cases status with
    | current =>
      constructor
      · refine iff_of_true (by simp [CredentialContinuity.observe, hexpired,
          hterminal]) (retained_cons.mpr ⟨hretained, ?_, ?_, fun _ => hwindow⟩)
        · simp [hevent]
        · simp [hevent]
      · intro _
        rw [firstUnavailable_of_current hevent]
        simp [CredentialContinuity.observe, hexpired]
      · intro _
        simp [CredentialContinuity.observe, hexpired, LostSince, sinceCurrent_of_current hevent]
    | revoked =>
      apply Reflects.of_terminal
      · simp [CredentialContinuity.observe, hexpired]
      · intro hcons
        exact (retained_cons.mp hcons).2.1 hevent
    | unavailable =>
      have hne : o.event ≠ .result .current := by simp [hevent]
      cases hrequired : c.revalidationRequired with
      | true =>
        apply Reflects.of_terminal
        · simp [CredentialContinuity.observe, hexpired, hrequired]
        intro hcons
        exact (retained_cons.mp hcons).2.2.1 hevent ((h.required hterminal).mp hrequired)
      | false =>
        have hunlost : ¬ LostSince history := by
          intro hlost
          have htrue := (h.required hterminal).mpr hlost
          simp [hrequired] at htrue
        constructor
        · refine iff_of_true (by simp [CredentialContinuity.observe, hexpired,
            hterminal, hrequired])
            (retained_cons.mpr ⟨hretained, ?_, fun _ => hunlost, fun _ => hwindow⟩)
          simp [hevent]
        · intro _
          rw [firstUnavailable_of_unavailable hevent]
          simp only [CredentialContinuity.observe, hexpired, hrequired,
            h.deadline hterminal, Bool.false_eq_true, if_false, map_some]
          cases firstUnavailable history with
          | none => rw [map_none, getD_none, getD_none]
          | some => rw [map_some, getD_some, getD_some]
        · intro _
          have hsince : ¬ LostSince (o :: history) := by
            rintro ⟨other, hmem, hlost⟩
            rw [sinceCurrent_of_ne hne, mem_cons] at hmem
            rcases hmem with rfl | hmem
            · simp [hevent] at hlost
            · exact hunlost ⟨other, hmem, hlost⟩
          simp [CredentialContinuity.observe, hexpired, hrequired, hsince]

theorem replay_reflects (history : History) : Reflects history (replay history) := by
  induction history with
  | nil =>
    constructor
    · refine iff_of_true rfl ⟨?_, ?_, ?_⟩
      · simp [NeverRevoked]
      · intro newer unavailable between lost older heq
        simp at heq
      · intro newer o older heq
        simp at heq
    · intro _
      rfl
    · intro _
      simp [replay, LostSince, sinceCurrent]
  | cons o older ih =>
    rw [replay, CredentialContinuity.apply]
    cases hevent : o.event with
    | result => exact ih.result hevent
    | lost => exact ih.lost hevent

end Reflects

/-! ## Refusal is final -/

/-- A result permits retaining the claims exactly if the continuity it leaves
has not expired at that instant. -/
theorem CredentialContinuity.observe_accepts (c : CredentialContinuity)
    (status : CredentialStatus) (now : Nat) :
    (c.observe status now).1 = !(c.observe status now).2.expired now := by
  cases hexpired : c.expired now with
  | true => simp [observe_of_expired status hexpired, expired]
  | false =>
    obtain ⟨hterminal, hdeadline⟩ := Bool.or_eq_false_iff.mp hexpired
    cases status with
    | current =>
      simp only [observe, hexpired, Bool.false_eq_true, if_false]
      simp [expired, hterminal]
    | revoked =>
      simp only [observe, hexpired, Bool.false_eq_true, if_false]
      simp [expired]
    | unavailable =>
      cases hrequired : c.revalidationRequired with
      | true =>
        simp only [observe, hexpired, hrequired, Bool.false_eq_true, if_false, if_true]
        simp [expired]
      | false =>
        have hopen : now < c.unavailableDeadline.getD
            (now + credentialUnavailableWindow) := by
          cases hsome : c.unavailableDeadline with
          | none =>
            rw [getD_none]
            exact Nat.lt_add_of_pos_right (by decide)
          | some =>
            rw [hsome, any_some, decide_eq_false_iff_not] at hdeadline
            exact Nat.lt_of_not_le hdeadline
        simp only [observe, hexpired, hrequired, Bool.false_eq_true, if_false]
        simp [expired, hterminal, hopen]

section Refusal

variable {history newer : History} {instant : Nat}

theorem CredentialContinuity.expired_mono {c : CredentialContinuity} {now later : Nat}
    (h : c.expired now = true) (hle : now ≤ later) : c.expired later = true := by
  rw [expired, Bool.or_eq_true] at h ⊢
  rcases h with hterminal | hdeadline
  · exact Or.inl hterminal
  right
  obtain ⟨deadline, hsome, hpassed⟩ := (Option.any_eq_true _ _).mp hdeadline
  rw [hsome]
  simp only [any_some, decide_eq_true_eq] at hpassed ⊢
  omega

/-- Once expired, a continuity stays expired through every later observation. -/
theorem CredentialContinuity.apply_expired {c : CredentialContinuity}
    {o : Observation} (h : c.expired instant = true) (hle : instant ≤ o.instant) :
    (c.apply o).expired instant = true := by
  rw [apply]
  cases o.event with
  | result status => simp [observe_of_expired status (expired_mono h hle), expired]
  | lost => exact h

theorem replay_append_expired (h : (replay history).expired instant = true)
    (hlater : ∀ o ∈ newer, instant ≤ o.instant) :
    (replay (newer ++ history)).expired instant = true := by
  induction newer with
  | nil => exact h
  | cons o newer ih =>
    apply CredentialContinuity.apply_expired
    · exact ih fun other hmem => hlater other (mem_cons_of_mem _ hmem)
    · exact hlater o mem_cons_self

/-- Without a current result inside the window, the first unavailable result
stays the one that counts, or the continuity has become terminal. -/
theorem replay_append_window {first : Nat} (h : firstUnavailable history = some first)
    (hlate : ∀ o ∈ newer, o.event = .result .current →
      first + credentialUnavailableWindow ≤ o.instant) :
    (replay (newer ++ history)).terminal = true ∨
      firstUnavailable (newer ++ history) = some first := by
  induction newer with
  | nil => exact Or.inr h
  | cons o newer ih =>
    have hold := ih fun other hmem => hlate other (mem_cons_of_mem _ hmem)
    by_cases hretained : Retained (o :: (newer ++ history))
    · right
      obtain ⟨hbefore, -, -, hwindow⟩ := retained_cons.mp hretained
      have hterminal := (replay_reflects (newer ++ history)).terminal.mpr hbefore
      have hfirst : firstUnavailable (newer ++ history) = some first := by
        simpa [hterminal] using hold
      rw [cons_append]
      cases hevent : o.event with
      | lost => rw [firstUnavailable_of_lost hevent, hfirst]
      | result status =>
        cases status with
        | current =>
          have hin := hwindow (by simp [hevent]) first hfirst
          have hafter := hlate o mem_cons_self hevent
          omega
        | revoked => exact absurd hevent (retained_cons.mp hretained).2.1
        | unavailable => rw [firstUnavailable_of_unavailable hevent, hfirst, getD_some]
    · left
      have hiff := (replay_reflects (o :: newer ++ history)).terminal
      rw [cons_append] at hiff ⊢
      simpa [hretained] using hiff

end Refusal

/-! ## Copies

A disconnected member hands a copy of its continuity to its reconnect grace.
The pool holds the continuity a connection starts with and every copy made
since; each carries the history it has observed, the part before the copy
included. -/

structure Holder where
  continuity : CredentialContinuity := {}
  history : History := []
deriving DecidableEq

/-- The holders of a credential; a copy takes its history along. -/
structure Pool where
  now : Nat := 0
  holders : List Holder := [{}]
deriving DecidableEq

inductive PoolAction where
  /-- the holder at the index observes something -/
  | observe (index : Nat) (observation : Observation)
  /-- the holder at the index is copied -/
  | copy (index : Nat)
deriving DecidableEq

def Holder.observes (holder : Holder) (o : Observation) : Holder where
  continuity := holder.continuity.apply o
  history := o :: holder.history

def Pool.step (pool : Pool) : PoolAction → Option Pool
  | .observe index o =>
    if pool.now ≤ o.instant then
      pool.holders[index]?.map fun holder =>
        { now := o.instant, holders := pool.holders.set index (holder.observes o) }
    else none
  | .copy index =>
    pool.holders[index]?.map fun holder =>
      { pool with holders := pool.holders ++ [holder] }

def Pool.run (pool : Pool) (actions : List PoolAction) : Option Pool :=
  Transition.run Pool.step pool actions

def Pool.Replayed (pool : Pool) : Prop :=
  ∀ holder ∈ pool.holders, holder.continuity = replay holder.history

theorem Pool.Replayed.step {pool next : Pool} {action : PoolAction}
    (h : pool.Replayed) (hstep : pool.step action = some next) : next.Replayed := by
  cases action with
  | observe index o =>
    by_cases hnow : pool.now ≤ o.instant
    · simp only [Pool.step, if_pos hnow, map_eq_some_iff] at hstep
      obtain ⟨observer, hget, rfl⟩ := hstep
      intro holder hmem
      rcases mem_or_eq_of_mem_set hmem with hold | rfl
      · exact h holder hold
      · have hobserver := h observer (mem_of_getElem? hget)
        rw [Holder.observes, replay, hobserver]
    · simp [Pool.step, hnow] at hstep
  | copy =>
    simp only [Pool.step, map_eq_some_iff] at hstep
    obtain ⟨source, hget, rfl⟩ := hstep
    intro holder hmem
    rcases mem_append.mp hmem with hold | hnew
    · exact h holder hold
    · rw [mem_singleton.mp hnew]
      exact h source (mem_of_getElem? hget)

theorem Pool.replayed_of_run {actions : List PoolAction} {pool : Pool}
    (hrun : Pool.run {} actions = some pool) : pool.Replayed := by
  have hinit : Pool.Replayed {} := by
    intro holder hmem
    rw [mem_singleton.mp hmem]
    rfl
  exact Transition.run_kept (fun _ _ _ h hstep => h.step hstep) hinit hrun

/-- What every holder's continuity guarantees, over every sequence of results,
losses of notices and copies: its answers agree with its state, it retains the
claims only under the three conditions, a refusal is final, and nothing but a
current result inside the window moves the window. A holder that has observed `newer` on top of
another holder's history is that holder or a copy of it, later on. -/
theorem credentials_bounded {actions : List PoolAction} {pool : Pool}
    (hrun : Pool.run {} actions = some pool) {holder : Holder}
    (hholder : holder ∈ pool.holders) :
    (∀ status instant, (holder.continuity.observe status instant).1 =
      !(holder.continuity.observe status instant).2.expired instant) ∧
    (∀ instant, holder.continuity.expired instant = false →
      NeverRevoked holder.history ∧ LossesProved holder.history ∧ InWindow holder.history instant) ∧
    ∀ more later, pool.run more = some later → ∀ successor ∈ later.holders, ∀ newer,
        successor.history = newer ++ holder.history →
        (∀ instant, holder.continuity.expired instant = true → (∀ o ∈ newer, instant ≤ o.instant) →
          ∀ t, instant ≤ t → successor.continuity.expired t = true) ∧
        (∀ first, firstUnavailable holder.history = some first →
          (∀ o ∈ newer, o.event = .result .current →
            first + credentialUnavailableWindow ≤ o.instant) →
          ∀ t, first + credentialUnavailableWindow ≤ t →
            successor.continuity.expired t = true) := by
  have hreplay := Pool.replayed_of_run hrun holder hholder
  refine ⟨holder.continuity.observe_accepts, ?_, ?_⟩
  · intro instant hexpired
    rw [hreplay] at hexpired
    obtain ⟨hretained, hwindow⟩ :=
      ((replay_reflects holder.history).expired_iff instant).mp hexpired
    exact ⟨hretained.unrevoked, hretained.proved, hwindow⟩
  · intro more later hmore successor hsuccessor newer hhistory
    have hlater : Pool.run {} (actions ++ more) = some later := Transition.run_trans hrun hmore
    have hcontinuity := Pool.replayed_of_run hlater successor hsuccessor
    rw [hhistory] at hcontinuity
    rw [hcontinuity]
    constructor
    · intro instant hexpired hinstants t hle
      rw [hreplay] at hexpired
      exact CredentialContinuity.expired_mono (replay_append_expired hexpired hinstants) hle
    intro first hfirst hlate t hpassed
    rcases replay_append_window hfirst hlate with hterminal | hstill
    · simp [CredentialContinuity.expired, hterminal]
    by_contra hnot
    have hexpired : (replay (newer ++ holder.history)).expired t = false := by
      simpa using hnot
    have hin := ((replay_reflects _).expired_iff t).mp hexpired |>.2 first hstill
    omega

def transferred : List PoolAction := [.observe 0 ⟨1, .result .unavailable⟩, .copy 0,
    .observe 1 ⟨9, .result .unavailable⟩]

/-- After the transfer a current result that comes fifteen seconds after the
first unavailable one no longer helps. -/
theorem transferred_bounded : ∃ pool, Pool.run {} transferred = some pool ∧
      ∃ holder ∈ pool.holders, firstUnavailable holder.history = some 1 ∧
        ∀ more later, pool.run more = some later → ∀ successor ∈ later.holders, successor.history =
                [⟨1 + credentialUnavailableWindow, .result .current⟩] ++ holder.history →
            successor.continuity.expired (1 + credentialUnavailableWindow) = true := by
  have hrun : ((Pool.run {} transferred).any fun pool =>
      pool.holders.any fun holder =>
        decide (firstUnavailable holder.history = some 1)) = true := by
    decide
  obtain ⟨pool, hpool, hholders⟩ := (Option.any_eq_true _ _).mp hrun
  obtain ⟨holder, hholder, hfirst⟩ := List.any_eq_true.mp hholders
  simp only [decide_eq_true_eq] at hfirst
  refine ⟨pool, hpool, holder, hholder, hfirst, ?_⟩
  intro more later hmore successor hsuccessor hhistory
  have hbounded := (credentials_bounded hpool hholder).2.2 more later hmore
    successor hsuccessor _ hhistory
  apply hbounded.2 1 hfirst
  · intro o hmem _
    rw [mem_singleton.mp hmem]
  · exact Nat.le_refl _

end SimplestChat.Credentials
