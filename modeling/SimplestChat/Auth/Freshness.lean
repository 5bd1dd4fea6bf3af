import SimplestChat.Auth.Updates

/-!
# Streams deliver only what a fresh validation covers

Between the read of its generation and its last comparison a stream validates
the account without holding any lock. What it knows is how many `revalidate`
calls the log shows since that read; the shared counter has moved by exactly
that number, modulo `2 ^ 64`, because the stream's lease keeps the entry it
subscribed to.
-/

namespace SimplestChat.Updates

open List Option Function Transition Connection Hub HubAction Logged UInt64

/-! ## Validations in the log -/

def HubAction.isOf (s : Nat) : HubAction → Bool
  | .stream t _ => decide (t = s)
  | .drop t => decide (t = s)
  | _ => false

/-- The `revalidate` calls for the account in a part of the log. -/
def revalidations (account : AccountId) (log : List HubAction) : Nat :=
  log.countP fun action => decide (action = .revalidate account)

/-- Only allowed actions came after the last `mark`, what preceded it is
described by `Before`, and `n` counts the account's `revalidate` calls, those
`Before` has counted included. -/
def Since (account : AccountId) (Allowed : HubAction → Prop) (mark : HubAction)
    (Before : List HubAction → Nat → Prop) (log : List HubAction) (n : Nat) : Prop :=
  ∃ newer older m, log = newer ++ mark :: older ∧ (∀ action ∈ newer, Allowed action) ∧
    Before older m ∧ n = revalidations account newer + m

/-- The stream has just read its generation; `n` calls have followed. -/
def ReadSince (s : Nat) (account : AccountId) : List HubAction → Nat → Prop :=
  Since account (fun action => action.isOf s = false) (.stream s .readGeneration)
    fun _ m => m = 0

def BegunSince (s : Nat) (account : AccountId) : List HubAction → Nat → Prop :=
  Since account (fun action => action.isOf s = false) (.stream s .startValidation)
    (ReadSince s account)

/-- The stream's last successful validation, from the read of its generation
on: `n` calls have followed that read. -/
def ValidatedSince (s : Nat) (account : AccountId) : List HubAction → Nat → Prop :=
  Since account (· ≠ .stream s (.finishValidation true))
    (.stream s (.finishValidation true)) (BegunSince s account)

/-- A validation of the stream succeeded, and it was started after the last
`revalidate` call for the account. -/
def FreshlyValidated (s : Nat) (account : AccountId) (log : List HubAction) : Prop :=
  ∃ newer during older, log = newer ++ .stream s (.finishValidation true) ::
      (during ++ .stream s .startValidation :: older) ∧
    (∀ action ∈ during, action.isOf s = false) ∧
    .revalidate account ∉ newer ∧ .revalidate account ∉ during

section Since

variable {account : AccountId} {Allowed : HubAction → Prop} {mark : HubAction}
  {Before : List HubAction → Nat → Prop} {log : List HubAction} {n m : Nat}

theorem Since.last (h : Before log n) : Since account Allowed mark Before (mark :: log) n :=
  ⟨[], log, n, rfl, fun _ hmem => (not_mem_nil hmem).elim, h, by
    simp [revalidations]⟩

theorem Since.cons (h : Since account Allowed mark Before log n)
    {action : HubAction} (hallowed : Allowed action) :
    Since account Allowed mark Before (action :: log)
      (n + if action = .revalidate account then 1 else 0) := by
  obtain ⟨newer, older, m, rfl, hnewer, hbefore, rfl⟩ := h
  refine ⟨action :: newer, older, m, rfl, ?_, hbefore, ?_⟩
  · intro other hmem
    rcases mem_cons.mp hmem with rfl | hmem
    · exact hallowed
    · exact hnewer other hmem
  · rw [revalidations, revalidations, countP_cons]
    simp only [decide_eq_true_eq]
    omega

theorem append_mark_inj {newer newer' older older' : List HubAction}
    (hnewer : mark ∉ newer) (hnewer' : mark ∉ newer')
    (heq : newer ++ mark :: older = newer' ++ mark :: older') :
    newer = newer' ∧ older = older' := by
  induction newer generalizing newer' with
  | nil =>
    cases newer' with
    | nil => exact ⟨rfl, (cons.inj heq).2⟩
    | cons first =>
      have hfirst : mark = first := (cons.inj heq).1
      exact absurd (hfirst ▸ mem_cons_self) hnewer'
  | cons first rest ih =>
    cases newer' with
    | nil =>
      have hfirst : first = mark := (cons.inj heq).1
      exact absurd (hfirst ▸ mem_cons_self) hnewer
    | cons =>
      obtain ⟨hfirst, hrest⟩ := cons.inj heq
      obtain ⟨rfl, holder⟩ := ih (not_mem_of_not_mem_cons hnewer)
        (not_mem_of_not_mem_cons hnewer') hrest
      exact ⟨by rw [hfirst], holder⟩

theorem Since.unique (hmark : ¬ Allowed mark)
    (hbefore : ∀ {older n m}, Before older n → Before older m → n = m)
    (h : Since account Allowed mark Before log n)
    (h' : Since account Allowed mark Before log m) : n = m := by
  obtain ⟨newer, older, k, rfl, hnewer, hk, rfl⟩ := h
  obtain ⟨newer', older', k', heq, hnewer', hk', rfl⟩ := h'
  obtain ⟨rfl, rfl⟩ := append_mark_inj (fun hmem => hmark (hnewer _ hmem))
    (fun hmem => hmark (hnewer' _ hmem)) heq
  rw [hbefore hk hk']

end Since

section Validations

variable {s : Nat} {account : AccountId} {log : List HubAction} {n m : Nat}

theorem ReadSince.unique (h : ReadSince s account log n)
    (h' : ReadSince s account log m) : n = m := by
  apply Since.unique _ _ h h'
  · simp [isOf]
  · rintro older k k' rfl rfl
    rfl

theorem BegunSince.unique (h : BegunSince s account log n)
    (h' : BegunSince s account log m) : n = m := by
  apply Since.unique _ _ h h'
  · simp [isOf]
  · intro older k k'
    exact ReadSince.unique

theorem ValidatedSince.unique (h : ValidatedSince s account log n)
    (h' : ValidatedSince s account log m) : n = m := by
  apply Since.unique _ _ h h'
  · simp
  · intro older k k'
    exact BegunSince.unique

theorem ValidatedSince.fresh (h : ValidatedSince s account log 0) :
    FreshlyValidated s account log := by
  obtain ⟨newer, older, m, rfl, -, hbegun, hcount⟩ := h
  obtain ⟨during, before, k, rfl, hduring, -, hm⟩ := hbegun
  have hnone : ∀ part, revalidations account part = 0 → .revalidate account ∉ part := by
    intro part hzero hmem
    have hnot := countP_eq_zero.mp hzero _ hmem
    simp at hnot
  refine ⟨newer, during, before, rfl, hduring, hnone newer ?_, hnone during ?_⟩
  · omega
  · omega

end Validations

/-! ## What a stream's point says about the log -/

section Traced

variable (generation : UInt64) (now : Nat) (log : List HubAction) (s : Nat)

/-- The stream has validated its account, and its channel's counter has moved
from the generation it validated by the calls made since. -/
def Connection.Fresh (c : Connection) : Prop :=
  ∃ n, ValidatedSince s c.account log n ∧ generation = c.validatedGeneration + UInt64.ofNat n

def Connection.Traced (c : Connection) : Prop :=
  match c.point with
  | .start _ => c.Fresh generation log s ∨ c.nextValidation ≤ now
  | .loaded _ loaded =>
    (c.Fresh generation log s ∨ c.nextValidation ≤ now) ∧
      ∃ n, ReadSince s c.account log n ∧ generation = loaded + UInt64.ofNat n
  | .validating _ loaded =>
    ∃ n, BegunSince s c.account log n ∧ generation = loaded + UInt64.ofNat n
  | .recheck _ => c.Fresh generation log s
  | .waiting => c.Fresh generation log s
  | .ended => True

end Traced

section Own

variable {generation : UInt64} {now : Nat} {draining : Bool} {log : List HubAction}
  {s : Nat} {c d : Connection}

theorem Connection.Fresh.own (h : c.Fresh generation log s) {action : StreamAction}
    (hne : action ≠ .finishValidation true) (haccount : d.account = c.account)
    (hvalidated : d.validatedGeneration = c.validatedGeneration) :
    d.Fresh generation (.stream s action :: log) s := by
  obtain ⟨n, hn, hgeneration⟩ := h
  refine ⟨n, ?_, ?_⟩
  · rw [haccount]
    exact hn.cons (by simpa using hne)
  · rw [hvalidated]
    exact hgeneration

theorem Connection.Traced.own (h : c.Traced generation now log s)
    {action : StreamAction} (hstep : c.step generation now draining action = some d) :
    d.Traced generation now (.stream s action :: log) s := by
  cases action with
  | readGeneration =>
    cases hpoint : c.point with
    | start =>
      simp only [step, hpoint] at hstep
      simp only [Traced, hpoint] at h
      split at hstep
      · cases hstep
        trivial
      cases hstep
      refine ⟨h.imp_left fun hfresh => hfresh.own (by simp) rfl rfl, 0, ?_, ?_⟩
      · exact Since.last rfl
      · simp
    | _ => simp [step, hpoint] at hstep
  | startValidation =>
    cases hpoint : c.point with
    | loaded purpose loaded =>
      simp only [step, hpoint] at hstep
      simp only [Traced, hpoint] at h
      obtain ⟨hfresh, n, hread, hgeneration⟩ := h
      by_cases hdue : c.nextValidation ≤ now ∨ loaded ≠ c.validatedGeneration
      · rw [if_pos hdue] at hstep
        cases hstep
        exact ⟨n, Since.last hread, hgeneration⟩
      rw [if_neg hdue] at hstep
      cases hstep
      have hvalidated : c.Fresh generation log s := by
        apply hfresh.resolve_right
        exact fun hnow => hdue (Or.inl hnow)
      exact hvalidated.own (by simp) rfl rfl
    | _ => simp [step, hpoint] at hstep
  | finishValidation ok =>
    cases hpoint : c.point with
    | validating =>
      simp only [step, hpoint] at hstep
      simp only [Traced, hpoint] at h
      obtain ⟨n, hbegun, hgeneration⟩ := h
      cases ok with
      | true =>
        cases hstep
        exact ⟨n, Since.last hbegun, hgeneration⟩
      | false =>
        cases hstep
        trivial
    | _ => simp [step, hpoint] at hstep
  | recheck =>
    cases hpoint : c.point with
    | recheck purpose =>
      simp only [step, hpoint] at hstep
      simp only [Traced, hpoint] at h
      split at hstep
      · cases hstep
        trivial
      cases hstep
      cases purpose with
      | loop =>
        rw [proceed]
        split
        · exact Or.inl (h.own (by simp) rfl rfl)
        · exact h.own (by simp) rfl rfl
      | deliver => exact Or.inl (h.own (by simp) rfl rfl)
    | _ => simp [step, hpoint] at hstep
  | wake wake =>
    cases hpoint : c.point with
    | waiting =>
      simp only [step, hpoint] at hstep
      simp only [Traced, hpoint] at h
      cases wake with
      | close =>
        cases hstep
        trivial
      | due =>
        simp only at hstep
        split at hstep
        · cases hstep
          exact Or.inl (h.own (by simp) rfl rfl)
        · cases hstep
      | receive =>
        simp only [receive] at hstep
        split at hstep
        · cases hstep
          trivial
        split at hstep
        · cases hstep
        · cases hstep
          exact Or.inl (h.own (by simp) rfl rfl)
        · cases hstep
          exact Or.inl (h.own (by simp) rfl rfl)
    | _ => simp [step, hpoint] at hstep

end Own

section Other

variable {generation generation' : UInt64} {now now' : Nat} {log : List HubAction}
  {s : Nat} {c : Connection} {action : HubAction}

theorem counter_moves {base : UInt64} {n : Nat} {account : AccountId}
    (h : generation = base + UInt64.ofNat n) (hmoves : generation' =
      generation + if action = .revalidate account then 1 else 0) :
    generation' = base +
      UInt64.ofNat (n + if action = .revalidate account then 1 else 0) := by
  rw [hmoves, h]
  split
  · rw [ofNat_add, ← add_assoc]
    rfl
  · simp

theorem Connection.Fresh.other (h : c.Fresh generation log s)
    (haction : action.isOf s = false) (hmoves : generation' =
      generation + if action = .revalidate c.account then 1 else 0) :
    c.Fresh generation' (action :: log) s := by
  obtain ⟨n, hn, hgeneration⟩ := h
  refine ⟨_, hn.cons ?_, counter_moves hgeneration hmoves⟩
  rintro rfl
  simp [isOf] at haction

theorem Connection.Traced.other (h : c.Traced generation now log s)
    (haction : action.isOf s = false) (hnow : now ≤ now') (hmoves : generation' =
      generation + if action = .revalidate c.account then 1 else 0) :
    c.Traced generation' now' (action :: log) s := by
  have hstart : c.Fresh generation log s ∨ c.nextValidation ≤ now →
      c.Fresh generation' (action :: log) s ∨ c.nextValidation ≤ now' := by
    rintro (hfresh | hdue)
    · exact Or.inl (hfresh.other haction hmoves)
    · exact Or.inr (Nat.le_trans hdue hnow)
  cases hpoint : c.point with
  | start =>
    simp only [Traced, hpoint] at h ⊢
    exact hstart h
  | loaded =>
    simp only [Traced, hpoint] at h ⊢
    obtain ⟨hfresh, n, hread, hgeneration⟩ := h
    exact ⟨hstart hfresh, _, hread.cons haction, counter_moves hgeneration hmoves⟩
  | validating =>
    simp only [Traced, hpoint] at h ⊢
    obtain ⟨n, hbegun, hgeneration⟩ := h
    exact ⟨_, hbegun.cons haction, counter_moves hgeneration hmoves⟩
  | recheck | waiting =>
    simp only [Traced, hpoint] at h ⊢
    exact h.other haction hmoves
  | ended => simp [Traced, hpoint]

end Other

/-! ## Every stream of a hub -/

/-- What an action can have done to an open stream: a step of its own, a step
of another that at most queues a notice, or its subscription. -/
inductive StreamChange (hub next : Hub) (action : HubAction) (s : Nat)
    (d : Connection) : Prop where
  | own (c : Connection) (step : StreamAction)
      (before : hub.connection s = some c) (action_eq : action = .stream s step)
      (result : c.step (hub.generation c.channel) hub.now hub.draining step = some d)
      (generation : next.generation = hub.generation)
      (now : next.now = hub.now)
  | other (c : Connection) (queue : List Notice)
      (before : hub.connection s = some c) (notOf : action.isOf s = false)
      (result : d = { c with queue := queue })
      (generation : next.generation c.channel = hub.generation c.channel +
        if action = .revalidate c.account then 1 else 0)
      (now : hub.now ≤ next.now)
  | opened (before : hub.connection s = none) (point : d.point = .start .loop)
      (due : d.nextValidation ≤ next.now)

section Hubs

variable {hub next : Hub} {action : HubAction} {s : Nat} {d : Connection}

theorem StreamChange.idle (hd : next.connection s = some d) (hstreams : next.streams = hub.streams)
    (hgeneration : next.generation = hub.generation) (hnow : hub.now ≤ next.now)
    (hisOf : action.isOf s = false) (hrevalidate : ∀ a, action ≠ .revalidate a) :
    StreamChange hub next action s d := by
  have hbefore : hub.connection s = some d := by
    rw [connection, ← hstreams]
    exact hd
  refine .other d d.queue hbefore hisOf rfl ?_ hnow
  rw [hgeneration, if_neg (hrevalidate _)]
  simp

theorem Hub.Leased.generation_new (h : hub.Leased) (hd : hub.connection s = some d) :
    update hub.generation hub.nextChannel 0 d.channel = hub.generation d.channel := by
  obtain ⟨entry, hentry, hchannel⟩ := h.listed s d hd
  have hlt := h.fresh _ entry hentry
  apply update_of_ne
  omega

theorem Hub.Leased.subscribe_change (h : hub.Leased) {account : AccountId}
    {expiry : Nat} (hstep : hub.subscribe account expiry = some next)
    (hd : next.connection s = some d) :
    StreamChange hub next (.subscribe account expiry) s d := by
  rw [Hub.subscribe] at hstep
  by_cases hfull : hub.capacity ≤ hub.total
  · simp [hfull] at hstep
  rw [if_neg hfull] at hstep
  cases hentry : hub.accounts account with
  | some =>
    simp only [hentry] at hstep
    split at hstep
    · cases hstep
    cases hstep
    rcases Hub.connection_lease hd with hold | ⟨hnone, rfl⟩
    · exact .other d d.queue hold rfl rfl (by simp [Hub.lease]) (Nat.le_refl _)
    · exact .opened hnone rfl (Nat.le_refl _)
  | none =>
    simp only [hentry] at hstep
    cases hstep
    rcases Hub.connection_lease hd with hold | ⟨hnone, rfl⟩
    · have hbefore : hub.connection s = some d := hold
      refine .other d d.queue hbefore rfl rfl ?_ (Nat.le_refl _)
      simp [Hub.lease, h.generation_new hbefore]
    · exact .opened hnone rfl (Nat.le_refl _)

theorem Hub.Leased.revalidate_change (h : hub.Leased) {account : AccountId}
    (hd : (hub.revalidate account).connection s = some d) :
    StreamChange hub (hub.revalidate account) (.revalidate account) s d := by
  rw [Hub.revalidate] at hd ⊢
  cases hentry : hub.accounts account with
  | none =>
    simp only [hentry] at hd ⊢
    refine .other d d.queue hd rfl rfl ?_ (Nat.le_refl _)
    obtain ⟨other, hother, -⟩ := h.listed s d hd
    have hne : account ≠ d.account := by
      rintro rfl
      rw [hentry] at hother
      cases hother
    simp [hne]
  | some entry =>
    simp only [hentry] at hd ⊢
    rw [Hub.connection_notify, map_eq_some_iff] at hd
    obtain ⟨c, hc, rfl⟩ := hd
    have hbefore : hub.connection s = some c := hc
    refine .other c _ hbefore rfl (Connection.notify_eq _ _ _) ?_ (Nat.le_refl _)
    obtain ⟨other, hother, hchannel⟩ := h.listed s c hbefore
    by_cases heq : account = c.account
    · subst heq
      rw [hentry] at hother
      cases hother
      simp [Hub.notify, hchannel]
    · have hne : c.channel ≠ entry.channel := by
        intro hsame
        exact heq (h.apart account c.account entry other hentry hother
          (by rw [hchannel, hsame]))
      simp [Hub.notify, update_of_ne hne, heq]

theorem Hub.Leased.change (h : hub.Leased) (hstep : hub.step action = some next)
    (hd : next.connection s = some d) : StreamChange hub next action s d := by
  cases action with
  | subscribe => exact h.subscribe_change hstep hd
  | drop t =>
    obtain ⟨c, hc, rfl⟩ := map_eq_some_iff.mp hstep
    by_cases hst : t = s
    · subst hst
      have hgone : Hub.connection { hub with streams := hub.streams.set t none } t =
          none := Hub.connection_set_self hc
      have hthere : Hub.connection { hub with streams := hub.streams.set t none } t = some d := hd
      rw [hgone] at hthere
      cases hthere
    · have hbefore : hub.connection s = some d := by
        rw [← Hub.connection_set_other hst]
        exact hd
      exact .other d d.queue hbefore (by simp [HubAction.isOf, hst]) rfl
        (by simp [Hub.release]) (Nat.le_refl _)
  | lookUp =>
    obtain ⟨entry, -, rfl⟩ := map_eq_some_iff.mp hstep
    exact .idle hd rfl rfl (Nat.le_refl _) rfl (by simp)
  | send =>
    obtain ⟨sent, -, rfl⟩ := map_eq_some_iff.mp hstep
    rw [Hub.connection_notify, map_eq_some_iff] at hd
    obtain ⟨c, hc, rfl⟩ := hd
    exact .other c _ hc rfl (Connection.notify_eq _ _ _) (by simp [Hub.notify]) (Nat.le_refl _)
  | revalidate =>
    cases hstep
    exact h.revalidate_change hd
  | stream t step =>
    obtain ⟨c, hc, hstream⟩ := bind_eq_some_iff.mp hstep
    obtain ⟨e, he, rfl⟩ := map_eq_some_iff.mp hstream
    by_cases hst : t = s
    · subst hst
      rw [Hub.connection_set_self hc] at hd
      cases hd
      exact .own c step hc rfl he rfl rfl
    · rw [Hub.connection_set_other hst] at hd
      exact .other d d.queue hd (by simp [HubAction.isOf, hst]) rfl (by simp) (Nat.le_refl _)
  | tick =>
    cases hstep
    exact .idle hd rfl rfl (Nat.le_add_right _ _) rfl (by simp)
  | drain =>
    cases hstep
    exact .idle hd rfl rfl (Nat.le_refl _) rfl (by simp)

end Hubs

structure Logged.Inv (c : Logged) : Prop where
  leased : c.hub.Leased
  traced : ∀ s d, c.hub.connection s = some d →
    d.Traced (c.hub.generation d.channel) c.hub.now c.log s

theorem Logged.Inv.step {c next : Logged} {action : HubAction} (h : c.Inv)
    (hstep : c.step action = some next) : next.Inv := by
  obtain ⟨hub, hhub, rfl⟩ := map_eq_some_iff.mp hstep
  constructor
  · exact h.leased.step hhub
  intro s d hd
  cases h.leased.change hhub hd with
  | own before step hbefore haction hresult hgeneration hnow =>
    have hown := (h.traced s before hbefore).own hresult
    subst haction
    rw [(step_advances hresult).channel]
    dsimp only
    rw [hgeneration, hnow]
    exact hown
  | other before queue hbefore hisOf hresult hgeneration hnow =>
    subst hresult
    exact (h.traced s before hbefore).other hisOf hnow hgeneration
  | opened hnone hpoint hdue =>
    rw [Connection.Traced, hpoint]
    exact Or.inr hdue

def Logged.empty (capacity : Nat) : Logged where
  hub := { capacity := capacity }

theorem Logged.inv_of_run {capacity : Nat} {actions : List HubAction} {c : Logged}
    (hrun : (Logged.empty capacity).run actions = some c) : c.Inv := by
  have hinit : (empty capacity).Inv := by
    constructor
    · constructor
      · intro s d hd
        simp [empty, connection] at hd
      · intro account entry hentry
        cases hentry
      · intro a b entry other hentry
        cases hentry
      · intro account entry hentry
        cases hentry
    · intro s d hd
      simp [empty, connection] at hd
  exact run_kept (fun _ _ _ h hstep => h.step hstep) hinit hrun

/-! ## Deliveries -/

section Deliveries

variable {generation : UInt64} {now : Nat} {draining : Bool} {c d : Connection}

theorem Connection.recheck_ends (hne : generation ≠ c.validatedGeneration)
    (hstep : c.step generation now draining .recheck = some d) :
    d.point = .ended ∧ d.delivered = c.delivered := by
  cases hpoint : c.point with
  | recheck =>
    simp only [step, hpoint, hne, ne_eq, not_false_eq_true, decide_true,
      Bool.or_true, if_true] at hstep
    cases hstep
    exact ⟨rfl, rfl⟩
  | _ => simp [step, hpoint] at hstep

end Deliveries

theorem calls_eq_zero {base : UInt64} {n : Nat} (h : base = base + UInt64.ofNat n)
    (hlt : n < 2 ^ 64) : n = 0 := by
  have hzero : ofNat n = 0 := by
    have hadd : base + ofNat n = base + 0 := by rw [← h, add_zero]
    exact (add_right_inj base).mp hadd
  have hnat : (ofNat n).toNat = 0 := by
    rw [hzero]
    rfl
  rw [toNat_ofNat'] at hnat
  omega

/-- Every event a stream delivers is covered by a validation of its account
that was started after the last `revalidate` call made before the stream's
last comparison, and a comparison that follows a call since the generation was
read ends the stream, as long as fewer than `2 ^ 64` calls separate the two
reads of the counter. -/
theorem deliveries_validated {capacity : Nat} {actions : List HubAction}
    {c next : Logged} (hrun : (Logged.empty capacity).run actions = some c)
    {action : HubAction} (hstep : c.step action = some next) {s : Nat}
    {before after : Connection} (hbefore : c.hub.connection s = some before)
    (hafter : next.hub.connection s = some after) :
    (after.delivered ≠ before.delivered → action = .stream s .recheck ∧
        ∃ n, ValidatedSince s before.account c.log n ∧
          (n < 2 ^ 64 → FreshlyValidated s before.account c.log)) ∧
    (action = .stream s .recheck →
      ∀ n, ValidatedSince s before.account c.log n → 0 < n → n < 2 ^ 64 →
        after.point = .ended ∧ after.delivered = before.delivered) := by
  have hinv := Logged.inv_of_run hrun
  obtain ⟨hub, hhub, rfl⟩ := map_eq_some_iff.mp hstep
  have htraced := hinv.traced s before hbefore
  cases hinv.leased.change hhub hafter with
  | own old step hold haction hresult =>
    rw [hbefore] at hold
    cases hold
    constructor
    · intro hdelivered
      obtain ⟨rfl, ⟨purpose, hpoint⟩, hsame⟩ :=
        (Connection.step_advances hresult).delivered.resolve_left hdelivered
      rw [Connection.Traced, hpoint] at htraced
      obtain ⟨n, hn, hcounter⟩ := htraced
      rw [hsame] at hcounter
      refine ⟨haction, n, hn, ?_⟩
      intro hlt
      rw [calls_eq_zero hcounter hlt] at hn
      exact hn.fresh
    · intro hrecheck n hn hpos hlt
      rw [haction] at hrecheck
      obtain rfl : step = .recheck := by simpa using hrecheck
      apply Connection.recheck_ends _ hresult
      intro hsame
      cases hpoint : before.point with
      | recheck =>
        rw [Connection.Traced, hpoint] at htraced
        obtain ⟨m, hm, hcounter⟩ := htraced
        rw [hsame] at hcounter
        obtain rfl := hn.unique hm
        have hzero := calls_eq_zero hcounter hlt
        omega
      | _ => simp [Connection.step, hpoint] at hresult
  | other old queue hold hisOf hresult =>
    rw [hbefore] at hold
    cases hold
    constructor
    · intro hdelivered
      rw [hresult] at hdelivered
      exact absurd rfl hdelivered
    · rintro rfl
      simp [HubAction.isOf] at hisOf
  | opened hnone =>
    rw [hbefore] at hnone
    cases hnone

/-! ### A stream during a validation -/

def startsValidation : List HubAction :=
  [.subscribe 1 1000, .stream 0 .readGeneration, .stream 0 .startValidation]

def validatingStream (queue : List Notice) : Connection where
  account := 1
  channel := 0
  queue := queue
  nextValidation := 0
  deadline := lifetime
  expiry := 1000
  point := .validating .loop 0

def validatedStream (queue : List Notice) : Connection := { validatingStream queue with
    nextValidation := 0 + revalidateInterval
    point := .recheck .loop }

def readyStream (queue : List Notice) : Connection := { validatedStream queue with
    ready := false
    delivered := [.ready]
    point := .start .loop }

def streamHub (generation : Nat → UInt64) (stream : Connection) : Hub where
  accounts := update (fun _ => none) 1 (some ⟨0, 1⟩)
  total := 1
  capacity := 8
  generation := generation
  nextChannel := 1
  streams := [some stream]

section Race

variable {generation : Nat → UInt64} {queue : List Notice} {log : List HubAction}

theorem run_startsValidation : (Logged.empty 8).run startsValidation =
      some ⟨streamHub (update (fun _ => 0) 0 0) (validatingStream []),
        startsValidation.reverse⟩ := rfl

theorem finishValidation_step : Logged.step ⟨streamHub generation (validatingStream queue), log⟩
        (.stream 0 (.finishValidation true)) =
      some ⟨streamHub generation (validatedStream queue),
        .stream 0 (.finishValidation true) :: log⟩ := rfl

theorem recheck_step (h : generation 0 = 0) :
    Logged.step ⟨streamHub generation (validatedStream queue), log⟩
        (.stream 0 .recheck) =
      some ⟨streamHub generation (readyStream queue), .stream 0 .recheck :: log⟩ := by
  have hconnection : (streamHub generation (validatedStream queue)).connection 0 =
      some (validatedStream queue) := rfl
  rw [Logged.step, Hub.step, hconnection, bind_some]
  have hgeneration : (streamHub generation (validatedStream queue)).generation
      (validatedStream queue).channel = 0 := h
  rw [hgeneration]
  rfl

theorem run_revalidate (n : Nat) : Logged.run ⟨streamHub generation (validatingStream queue), log⟩
        (List.replicate n (.revalidate 1)) =
      some ⟨streamHub
        (update generation 0 (generation 0 + UInt64.ofNat n))
        (validatingStream (queue ++ List.replicate n .revalidate)),
        List.replicate n (.revalidate 1) ++ log⟩ := by
  induction n generalizing generation queue log with
  | zero => simp [Logged.run]
  | succ n ih =>
    have hcall : Logged.step ⟨streamHub generation (validatingStream queue), log⟩ (.revalidate 1) =
        some ⟨streamHub (update generation 0 (generation 0 + 1))
          (validatingStream (queue ++ [.revalidate])), .revalidate 1 :: log⟩ := rfl
    have hcounter : generation 0 + 1 + UInt64.ofNat n = generation 0 + UInt64.ofNat (n + 1) := by
      rw [Nat.add_comm n 1, UInt64.ofNat_add, UInt64.add_assoc]
      rfl
    have hrest : Logged.run ⟨streamHub (update generation 0 (generation 0 + 1))
        (validatingStream (queue ++ [.revalidate])), .revalidate 1 :: log⟩
        (List.replicate n (.revalidate 1)) = _ := ih
    have hlog : List.replicate n (HubAction.revalidate 1) ++ .revalidate 1 :: log =
        List.replicate (n + 1) (.revalidate 1) ++ log := by
      rw [replicate_succ', append_assoc, singleton_append]
    have hqueue : queue ++ [.revalidate] ++ List.replicate n Notice.revalidate =
        queue ++ List.replicate (n + 1) .revalidate := by
      rw [replicate_succ, append_assoc, singleton_append]
    rw [update_idem, update_self, hcounter, hlog, hqueue] at hrest
    rw [replicate_succ]
    exact run_cons_eq_some.mpr ⟨_, hcall, hrest⟩

end Race

/-- Without a call in between, the first event is delivered and covered. -/
theorem startsValidation_delivers : ∃ c next before after, (Logged.empty 8).run
        (startsValidation ++ [.stream 0 (.finishValidation true)]) = some c ∧
      c.step (.stream 0 .recheck) = some next ∧
      c.hub.connection 0 = some before ∧ next.hub.connection 0 = some after ∧
      after.delivered ≠ before.delivered ∧
      ∃ n, ValidatedSince 0 before.account c.log n ∧
        (n < 2 ^ 64 → FreshlyValidated 0 before.account c.log) := by
  have hrun : (empty 8).run (startsValidation ++ [.stream 0 (.finishValidation true)]) = some _ :=
    run_trans run_startsValidation
      (run_cons_eq_some.mpr ⟨_, finishValidation_step, rfl⟩)
  have hstep : step ⟨streamHub (update (fun _ => 0) 0 0) (validatedStream []),
        .stream 0 (.finishValidation true) :: startsValidation.reverse⟩
      (.stream 0 .recheck) = some _ := recheck_step rfl
  have hne : (readyStream []).delivered ≠ (validatedStream []).delivered := by decide
  exact ⟨_, _, validatedStream [], readyStream [], hrun, hstep, rfl, rfl, hne,
    ((deliveries_validated hrun hstep rfl rfl).1 hne).2⟩

/-- `2 ^ 64` calls during one validation bring the counter back: the event is
delivered although the validation was started before all of them. -/
theorem startsValidation_wrapped : ∃ actions c next before after,
      (Logged.empty 8).run actions = some c ∧
      c.step (.stream 0 .recheck) = some next ∧
      c.hub.connection 0 = some before ∧ next.hub.connection 0 = some after ∧
      after.delivered ≠ before.delivered ∧
      ¬ FreshlyValidated 0 before.account c.log := by
  obtain ⟨calls, hcalls⟩ : ∃ n : Nat, n = 2 ^ 64 := ⟨_, rfl⟩
  have hpos : 0 < calls := by
    rw [hcalls]
    exact Nat.two_pow_pos 64
  have hcounter : ofNat calls = 0 := by
    rw [hcalls]
    decide
  have hrun : (empty 8).run (startsValidation ++ (replicate calls (.revalidate 1) ++
        [.stream 0 (.finishValidation true)])) = some _ :=
    run_trans run_startsValidation
      (run_trans (run_revalidate calls)
        (run_cons_eq_some.mpr ⟨_, finishValidation_step, rfl⟩))
  refine ⟨_, _, _, _, _, hrun, recheck_step ?_, rfl, rfl, ?_, ?_⟩
  · rw [hcounter]
    rfl
  · simp [readyStream, validatedStream, validatingStream]
  · rintro ⟨newer, during, older, heq, -, hnewer, hduring⟩
    cases newer with
    | cons =>
      -- the log shows a single finished validation
      have hrest := (cons.inj heq).2
      have hmem : stream 0 (.finishValidation true) ∈
          replicate calls (revalidate 1) ++ startsValidation.reverse := by
        rw [hrest]
        exact mem_append_right _ mem_cons_self
      simp [mem_append, startsValidation] at hmem
    | nil =>
      have hrest := (cons.inj heq).2
      obtain ⟨rest, hcons⟩ : ∃ rest, replicate calls (revalidate 1) ++
          startsValidation.reverse = .revalidate 1 :: rest := by
        obtain ⟨k, rfl⟩ := Nat.exists_eq_succ_of_ne_zero (Nat.pos_iff_ne_zero.mp hpos)
        exact ⟨_, rfl⟩
      rw [hcons] at hrest
      cases during with
      | nil => cases (cons.inj hrest).1
      | cons =>
        obtain rfl := (cons.inj hrest).1
        exact hduring mem_cons_self

end SimplestChat.Updates
