import SimplestChat.Support.Runs

/-!
# Account update streams

The hub keeps one entry for each account that has open update streams: a
broadcast channel, the number of its subscribers and a generation that every
`revalidate` call advances. A stream reads the generation, validates the
account when a validation is due or the generation has moved, and compares the
generation once more before it delivers anything. The entry goes away with
the last lease on it.

A stream's `next` and `valid` are cut at every read of shared state and at every
await; `Point` lists the places in between. `Logged` records the actions taken
so far, the latest first.
-/

namespace SimplestChat.Updates

open List Option Function

abbrev AccountId := Nat

/-! ## The hub -/

inductive Scope where
  | inbox
  | contacts
  | preferences
  | notifications
deriving DecidableEq

inductive Update where
  | ready
  | change (scope : Scope) (peer : Option AccountId)
deriving DecidableEq

inductive Notice where
  | change (update : Update)
  | revalidate
deriving DecidableEq

/-- An account's entry. The channel stands for the shared broadcast sender
and generation counter that streams keep after they have subscribed. -/
structure Account where
  channel : Nat
  subscribers : Nat
deriving DecidableEq

/-- `ACCOUNT_STREAMS` -/
def accountStreams : Nat := 8

/-- `QUEUE`: how many notices a receiver may be behind. -/
def queueCapacity : Nat := 64

/-- `REVALIDATE`: five seconds, in milliseconds. -/
def revalidateInterval : Nat := 5000

/-- `LIFETIME`: five minutes. -/
def lifetime : Nat := 300000

/-! ## Streams -/

/-- What `valid` is called for. -/
inductive Purpose where
  /-- the top of the loop of `next` -/
  | loop
  /-- a change that has been received -/
  | deliver (update : Update)
deriving DecidableEq

inductive Point where
  /-- `valid` is about to be entered -/
  | start (purpose : Purpose)
  /-- the generation has been read -/
  | loaded (purpose : Purpose) (generation : UInt64)
  /-- the account is being validated -/
  | validating (purpose : Purpose) (generation : UInt64)
  /-- the last comparison of `valid` -/
  | recheck (purpose : Purpose)
  /-- `next` waits for a notice or a deadline -/
  | waiting
  | ended
deriving DecidableEq

structure Connection where
  account : AccountId
  channel : Nat
  /-- notices sent and not yet received -/
  queue : List Notice := []
  nextValidation : Nat
  deadline : Nat
  /-- when the claims expire -/
  expiry : Nat
  validatedGeneration : UInt64 := 0
  ready : Bool := true
  point : Point := .start .loop
  delivered : List Update := []
deriving DecidableEq

/-- What ends the wait of `next`. -/
inductive Wake where
  /-- drain, the stream's deadline or the expiry of its claims -/
  | close
  /-- the next validation is due -/
  | due
  | receive
deriving DecidableEq

inductive StreamAction where
  | readGeneration
  | startValidation
  | finishValidation (ok : Bool)
  | recheck
  | wake (wake : Wake)
deriving DecidableEq

namespace Connection

def pastEnd (c : Connection) (now : Nat) (draining : Bool) : Bool :=
  draining || decide (c.deadline ≤ now) || decide (c.expiry ≤ now)

/-- Both comparisons have passed: `next` returns an event or starts to wait. -/
def proceed (c : Connection) : Purpose → Connection
  | .loop =>
    if c.ready then
      { c with
        ready := false
        delivered := c.delivered ++ [.ready]
        point := .start .loop }
    else { c with point := .waiting }
  | .deliver update => { c with delivered := c.delivered ++ [update], point := .start .loop }

def receive (c : Connection) (now : Nat) : Option Connection :=
  -- a receiver that has fallen behind gets an error and the stream ends
  if queueCapacity < c.queue.length then some { c with point := .ended }
  else
    match c.queue with
    | [] => none
    | .change update :: rest => some { c with queue := rest, point := .start (.deliver update) }
    | .revalidate :: rest =>
      some { c with queue := rest, nextValidation := now, point := .start .loop }

/-- One step of the stream's task; `generation` is its channel's counter. -/
def step (c : Connection) (generation : UInt64) (now : Nat) (draining : Bool) :
    StreamAction → Option Connection
  | .readGeneration =>
    match c.point with
    | .start purpose =>
      if c.pastEnd now draining then some { c with point := .ended }
      else some { c with point := .loaded purpose generation }
    | _ => none
  | .startValidation =>
    match c.point with
    | .loaded purpose loaded =>
      if c.nextValidation ≤ now ∨ loaded ≠ c.validatedGeneration then
        some { c with point := .validating purpose loaded }
      else some { c with point := .recheck purpose }
    | _ => none
  | .finishValidation ok =>
    match c.point with
    | .validating purpose loaded =>
      if ok then
        some { c with
          nextValidation := now + revalidateInterval
          validatedGeneration := loaded
          point := .recheck purpose }
      else some { c with point := .ended }
    | _ => none
  | .recheck =>
    match c.point with
    | .recheck purpose =>
      if c.pastEnd now draining || decide (generation ≠ c.validatedGeneration) then
        some { c with point := .ended }
      else some (c.proceed purpose)
    | _ => none
  | .wake wake =>
    match c.point with
    | .waiting =>
      match wake with
      | .close => some { c with point := .ended }
      | .due =>
        if c.nextValidation ≤ now then some { c with point := .start .loop }
        else none
      | .receive => c.receive now
    | _ => none

/-- Queue a notice that was sent on `channel`. -/
def notify (channel : Nat) (notice : Notice) (c : Connection) : Connection :=
  if c.channel = channel then { c with queue := c.queue ++ [notice] } else c

end Connection

/-! ## The hub and its streams -/

structure Hub where
  accounts : AccountId → Option Account := fun _ => none
  total : Nat := 0
  capacity : Nat
  /-- the generation counter of each channel -/
  generation : Nat → UInt64 := fun _ => 0
  nextChannel : Nat := 0
  /-- the streams by number; a dropped stream leaves `none` -/
  streams : List (Option Connection) := []
  /-- changes whose sender has been looked up and not yet used -/
  sends : List (Nat × Update) := []
  now : Nat := 0
  draining : Bool := false

inductive HubAction where
  | subscribe (account : AccountId) (expiry : Nat)
  /-- the stream and its lease are dropped -/
  | drop (stream : Nat)
  /-- `changed` takes the account's sender -/
  | lookUp (account : AccountId) (update : Update)
  /-- a sender that was taken is used -/
  | send (index : Nat)
  | revalidate (account : AccountId)
  | stream (stream : Nat) (action : StreamAction)
  | tick (elapsed : Nat)
  | drain
deriving DecidableEq

namespace Hub

def connection (hub : Hub) (s : Nat) : Option Connection :=
  hub.streams[s]?.join

def opened (account : AccountId) (channel expiry : Nat) (hub : Hub) : Connection where
  account := account
  channel := channel
  nextValidation := hub.now
  deadline := hub.now + lifetime
  expiry := expiry

def lease (hub : Hub) (account : AccountId) (entry : Account) (expiry : Nat) : Hub := { hub with
    accounts := update hub.accounts account
      (some { entry with subscribers := entry.subscribers + 1 })
    total := hub.total + 1
    streams := hub.streams ++ [some (opened account entry.channel expiry hub)] }

def subscribe (hub : Hub) (account : AccountId) (expiry : Nat) : Option Hub :=
  if hub.capacity ≤ hub.total then none
  else
    match hub.accounts account with
    | some entry =>
      if accountStreams ≤ entry.subscribers then none
      else some (hub.lease account entry expiry)
    | none =>
      some (lease
        { hub with
          nextChannel := hub.nextChannel + 1
          generation := update hub.generation hub.nextChannel 0 }
        account ⟨hub.nextChannel, 0⟩ expiry)

/-- `Lease::drop`: the last subscriber removes the entry. -/
def release (hub : Hub) (account : AccountId) : Hub := { hub with
    total := hub.total - 1
    accounts :=
      match hub.accounts account with
      | none => hub.accounts
      | some entry =>
        update hub.accounts account
          (if entry.subscribers - 1 = 0 then none
           else some { entry with subscribers := entry.subscribers - 1 }) }

def notify (hub : Hub) (channel : Nat) (notice : Notice) : Hub := { hub with
    streams := hub.streams.map (Option.map (Connection.notify channel notice)) }

def revalidate (hub : Hub) (account : AccountId) : Hub :=
  match hub.accounts account with
  | none => hub
  | some entry =>
    notify
      { hub with
        generation := update hub.generation entry.channel
          (hub.generation entry.channel + 1) }
      entry.channel .revalidate

def step (hub : Hub) : HubAction → Option Hub
  | .subscribe account expiry => hub.subscribe account expiry
  | .drop s =>
    (hub.connection s).map fun c =>
      { hub.release c.account with streams := hub.streams.set s none }
  | .lookUp account update =>
    (hub.accounts account).map fun entry =>
      { hub with sends := hub.sends ++ [(entry.channel, update)] }
  | .send index =>
    hub.sends[index]?.map fun sent =>
      notify { hub with sends := hub.sends.eraseIdx index } sent.1 (.change sent.2)
  | .revalidate account => some (hub.revalidate account)
  | .stream s action =>
    (hub.connection s).bind fun c =>
      (c.step (hub.generation c.channel) hub.now hub.draining action).map fun c =>
        { hub with streams := hub.streams.set s (some c) }
  | .tick elapsed => some { hub with now := hub.now + elapsed }
  | .drain => some { hub with draining := true }

end Hub

/-- A hub and what happened to it, latest first. -/
structure Logged where
  hub : Hub
  log : List HubAction := []

def Logged.step (c : Logged) (action : HubAction) : Option Logged :=
  (c.hub.step action).map fun hub => { hub := hub, log := action :: c.log }

def Logged.run (c : Logged) (actions : List HubAction) : Option Logged :=
  Transition.run Logged.step c actions

/-! ## Leases -/

def Hub.live (hub : Hub) (account : AccountId) : Nat :=
  hub.streams.countP fun stream => stream.any fun c => decide (c.account = account)

structure Hub.Leased (hub : Hub) : Prop where
  listed : ∀ s c, hub.connection s = some c →
    ∃ entry, hub.accounts c.account = some entry ∧ entry.channel = c.channel
  counted : ∀ account entry, hub.accounts account = some entry →
    entry.subscribers = hub.live account
  apart : ∀ a b entry other, hub.accounts a = some entry →
    hub.accounts b = some other → entry.channel = other.channel → a = b
  fresh : ∀ account entry, hub.accounts account = some entry → entry.channel < hub.nextChannel

section Connections

variable {hub : Hub} {s t : Nat} {c : Connection}

theorem Hub.connection_eq_some : hub.connection s = some c ↔ hub.streams[s]? = some (some c) := by
  rw [connection, join_eq_some_iff]

theorem Hub.connection_set_self {value : Option Connection} (h : hub.connection s = some c) :
    connection { hub with streams := hub.streams.set s value } s = value := by
  have hlt : s < hub.streams.length := by
    obtain ⟨hlt, -⟩ := List.getElem?_eq_some_iff.mp (connection_eq_some.mp h)
    exact hlt
  rw [connection, List.getElem?_set_self hlt]
  cases value with
  | none | some => rfl

theorem Hub.connection_set_other {value : Option Connection} (h : s ≠ t) :
    connection { hub with streams := hub.streams.set s value } t = hub.connection t := by
  rw [connection, getElem?_set_ne h, connection]

theorem Hub.connection_notify (channel : Nat) (notice : Notice) :
    (hub.notify channel notice).connection s =
      (hub.connection s).map (Connection.notify channel notice) := by
  rw [connection, notify, connection, getElem?_map]
  cases hub.streams[s]? with
  | none | some => rfl

theorem Hub.connection_lease {account : AccountId} {entry : Account} {expiry : Nat}
    (h : (hub.lease account entry expiry).connection s = some c) :
    hub.connection s = some c ∨
      hub.connection s = none ∧ c = opened account entry.channel expiry hub := by
  rw [connection_eq_some, lease, getElem?_append] at h
  by_cases hlt : s < hub.streams.length
  · rw [if_pos hlt] at h
    exact Or.inl (connection_eq_some.mpr h)
  rw [if_neg hlt] at h
  right
  constructor
  · rw [connection, getElem?_eq_none (Nat.le_of_not_lt hlt)]
    rfl
  · have hmem := mem_of_getElem? h
    exact some.inj (mem_singleton.mp hmem)

theorem Connection.notify_eq (channel : Nat) (notice : Notice) (c : Connection) :
    c.notify channel notice = { c with queue := (c.notify channel notice).queue } := by
  rw [notify]
  by_cases h : c.channel = channel
  · rw [if_pos h]
  · rw [if_neg h]

theorem Hub.live_pos (h : hub.connection s = some c) : 0 < hub.live c.account := by
  apply countP_pos_iff.mpr
  refine ⟨some c, mem_of_getElem? (connection_eq_some.mp h), ?_⟩
  simp

theorem Hub.Leased.live_eq_zero (h : hub.Leased) {account : AccountId}
    (hnone : hub.accounts account = none) : hub.live account = 0 := by
  apply countP_eq_zero.mpr
  intro stream hmem hopen
  obtain ⟨c, rfl, haccount⟩ := (any_eq_true _ _).mp hopen
  obtain ⟨s, hs⟩ := getElem?_of_mem hmem
  obtain ⟨entry, hentry, -⟩ := h.listed s c (connection_eq_some.mpr hs)
  rw [of_decide_eq_true haccount, hnone] at hentry
  cases hentry

theorem Hub.live_lease (account other : AccountId) (entry : Account) (expiry : Nat) :
    (hub.lease account entry expiry).live other =
      hub.live other + if account = other then 1 else 0 := by
  rw [live, lease, countP_append, live]
  congr 1
  by_cases h : account = other <;> simp [opened, h]

theorem Hub.live_notify (channel : Nat) (notice : Notice) (account : AccountId) :
    (hub.notify channel notice).live account = hub.live account := by
  rw [live, notify, countP_map, live]
  congr 1
  funext stream
  cases stream with
  | none => rfl
  | some =>
    simp only [comp_apply, map_some, any_some]
    rw [Connection.notify_eq]

theorem Hub.live_set {value : Option Connection} (h : hub.connection s = some c)
    (account : AccountId) :
    live { hub with streams := hub.streams.set s value } account =
      (hub.live account - if c.account = account then 1 else 0) +
        if value.any (fun v => decide (v.account = account)) then 1 else 0 := by
  obtain ⟨hlt, hget⟩ := List.getElem?_eq_some_iff.mp (connection_eq_some.mp h)
  rw [live, countP_set hlt, hget, live]
  simp

end Connections

/-! ### Every action keeps the leases -/

section Leased

variable {hub next : Hub}

theorem Hub.Leased.lease (h : hub.Leased) {account : AccountId} {entry : Account}
    (expiry : Nat) (hcount : entry.subscribers = hub.live account)
    (hfresh : entry.channel < hub.nextChannel)
    (hsame : ∀ other, hub.accounts account = some other → other.channel = entry.channel)
    (hnew : ∀ a other, hub.accounts a = some other → other.channel = entry.channel → a = account) :
    (hub.lease account entry expiry).Leased := by
  constructor
  · intro s c hc
    rcases connection_lease hc with hold | ⟨-, rfl⟩
    · obtain ⟨other, hother, hchannel⟩ := h.listed s c hold
      by_cases haccount : c.account = account
      · refine ⟨{ entry with subscribers := entry.subscribers + 1 }, ?_, ?_⟩
        · simp [Hub.lease, haccount]
        · rw [haccount] at hother
          rw [← hchannel, hsame other hother]
      · refine ⟨other, ?_, hchannel⟩
        simp [Hub.lease, update_of_ne haccount, hother]
    · exact ⟨{ entry with subscribers := entry.subscribers + 1 }, by simp [Hub.lease, opened], rfl⟩
  · intro other found hfound
    rw [live_lease]
    by_cases heq : other = account
    · subst heq
      simp only [Hub.lease, update_self, some.injEq] at hfound
      rw [← hfound, if_pos rfl, hcount]
    · simp only [Hub.lease, update_of_ne heq] at hfound
      rw [if_neg (Ne.symm heq), h.counted other found hfound, Nat.add_zero]
  · intro a b left right ha hb hchannel
    by_cases haccount : a = account
    · by_cases hbaccount : b = account
      · rw [haccount, hbaccount]
      subst haccount
      simp only [Hub.lease, update_self, some.injEq, update_of_ne hbaccount] at ha hb
      rw [← ha] at hchannel
      exact (hnew b right hb hchannel.symm).symm
    · by_cases hbaccount : b = account
      · subst hbaccount
        simp only [Hub.lease, update_self, some.injEq, update_of_ne haccount] at ha hb
        rw [← hb] at hchannel
        exact hnew a left ha hchannel
      · simp only [Hub.lease, update_of_ne haccount, update_of_ne hbaccount] at ha hb
        exact h.apart a b left right ha hb hchannel
  · intro other found hfound
    by_cases heq : other = account
    · subst heq
      simp only [Hub.lease, update_self, some.injEq] at hfound
      rw [← hfound]
      exact hfresh
    · simp only [Hub.lease, update_of_ne heq] at hfound
      exact h.fresh other found hfound

theorem Hub.Leased.subscribe (h : hub.Leased) {account : AccountId} {expiry : Nat}
    (hstep : hub.subscribe account expiry = some next) : next.Leased := by
  rw [Hub.subscribe] at hstep
  by_cases hfull : hub.capacity ≤ hub.total
  · simp [hfull] at hstep
  rw [if_neg hfull] at hstep
  cases hentry : hub.accounts account with
  | some entry =>
    simp only [hentry] at hstep
    split at hstep
    · cases hstep
    cases hstep
    apply h.lease
    · exact h.counted account entry hentry
    · exact h.fresh account entry hentry
    · intro other hother
      rw [hentry] at hother
      rw [some.inj hother]
    · intro a other hother hchannel
      exact h.apart a account other entry hother hentry hchannel
  | none =>
    simp only [hentry] at hstep
    cases hstep
    have hgrown : Hub.Leased { hub with
          nextChannel := hub.nextChannel + 1
          generation := update hub.generation hub.nextChannel 0 } := by
      refine ⟨h.listed, h.counted, h.apart, ?_⟩
      intro a other hother
      exact Nat.lt_succ_of_lt (h.fresh a other hother)
    apply hgrown.lease
    · exact (h.live_eq_zero hentry).symm
    · exact Nat.lt_succ_self _
    · intro other hother
      rw [hentry] at hother
      cases hother
    · intro a other hother hchannel
      have hlt := h.fresh a other hother
      dsimp only at hchannel
      omega

theorem Hub.Leased.drop (h : hub.Leased) {s : Nat} {c : Connection}
    (hc : hub.connection s = some c) :
    Hub.Leased { hub.release c.account with streams := hub.streams.set s none } := by
  obtain ⟨entry, hentry, hchannel⟩ := h.listed s c hc
  have hcount := h.counted c.account entry hentry
  have hlive : ∀ account,
      Hub.live { hub.release c.account with streams := hub.streams.set s none } account =
        hub.live account - if c.account = account then 1 else 0 := by
    intro account
    calc
      _ = Hub.live { hub with streams := hub.streams.set s none } account := rfl
      _ = _ := by
        rw [live_set hc]
        simp
  -- an account found afterwards is the same, with one subscriber less if it is `c`'s
  have hfound : ∀ account found, (hub.release c.account).accounts account = some found →
      ∃ old, hub.accounts account = some old ∧ old.channel = found.channel ∧ found.subscribers =
          old.subscribers - if c.account = account then 1 else 0 := by
    intro account found hfound
    rw [release, hentry] at hfound
    by_cases heq : account = c.account
    · subst heq
      simp only [update_self] at hfound
      split at hfound
      · cases hfound
      · cases hfound
        exact ⟨entry, hentry, rfl, by simp⟩
    · simp only [update_of_ne heq] at hfound
      exact ⟨found, hfound, rfl, by simp [Ne.symm heq]⟩
  constructor
  · intro t d hd
    have hst : s ≠ t := by
      rintro rfl
      rw [connection_eq_some] at hd
      have hlt : s < hub.streams.length :=
        (List.getElem?_eq_some_iff.mp (connection_eq_some.mp hc)).1
      simp [List.getElem?_set_self hlt] at hd
    have hold : hub.connection t = some d := by
      calc
        hub.connection t = Hub.connection { hub with streams := hub.streams.set s none } t :=
          (connection_set_other hst).symm
        _ = some d := hd
    obtain ⟨other, hother, hsame⟩ := h.listed t d hold
    by_cases heq : d.account = c.account
    · rw [heq, hentry] at hother
      cases hother
      have hleft : 0 < hub.live d.account - 1 := by
        have hpos := Hub.live_pos hd
        rw [hlive, if_pos heq.symm] at hpos
        exact hpos
      refine ⟨{ entry with subscribers := entry.subscribers - 1 }, ?_, hsame⟩
      rw [heq, ← hcount] at hleft
      simp [release, hentry, heq, Nat.pos_iff_ne_zero.mp hleft]
    · refine ⟨other, ?_, hsame⟩
      simp [release, hentry, update_of_ne heq, hother]
  · intro account found hf
    obtain ⟨old, hold, -, hsubs⟩ := hfound account found hf
    rw [hlive, hsubs, h.counted account old hold]
  · intro a b left right ha hb hsame
    obtain ⟨oldA, holdA, hchA, -⟩ := hfound a left ha
    obtain ⟨oldB, holdB, hchB, -⟩ := hfound b right hb
    apply h.apart a b oldA oldB holdA holdB
    rw [hchA, hchB, hsame]
  · intro account found hf
    obtain ⟨old, hold, hch, -⟩ := hfound account found hf
    rw [← hch]
    exact h.fresh account old hold

theorem Hub.Leased.notify (h : hub.Leased) (channel : Nat) (notice : Notice) :
    (hub.notify channel notice).Leased := by
  refine ⟨?_, ?_, h.apart, h.fresh⟩
  · intro s c hc
    rw [connection_notify, map_eq_some_iff] at hc
    obtain ⟨old, hold, rfl⟩ := hc
    rw [Connection.notify_eq]
    exact h.listed s old hold
  · intro account entry hentry
    rw [live_notify]
    exact h.counted account entry hentry

/-- What a step of a stream can do: it stays with its account and channel, and
it delivers only at the last comparison of `valid`, when the generation is the
one it has validated. -/
structure Connection.Advances (c d : Connection) (generation : UInt64)
    (action : StreamAction) : Prop where
  account : d.account = c.account
  channel : d.channel = c.channel
  delivered : d.delivered = c.delivered ∨
    action = .recheck ∧ (∃ purpose, c.point = .recheck purpose) ∧ generation = c.validatedGeneration

theorem Connection.step_advances {c d : Connection} {generation : UInt64} {now : Nat}
    {draining : Bool} {action : StreamAction}
    (h : c.step generation now draining action = some d) :
    c.Advances d generation action := by
  cases action with
  | readGeneration | startValidation | finishValidation =>
    simp only [step] at h
    split at h
    · split at h
      · cases h
        exact ⟨rfl, rfl, Or.inl rfl⟩
      · cases h
        exact ⟨rfl, rfl, Or.inl rfl⟩
    · cases h
  | recheck =>
    simp only [step] at h
    split at h
    · rename_i purpose hpoint
      split at h
      · cases h
        exact ⟨rfl, rfl, Or.inl rfl⟩
      rename_i hchecks
      have hsame : generation = c.validatedGeneration := by
        by_contra hne
        simp [hne] at hchecks
      cases h
      cases purpose with
      | loop =>
        rw [proceed]
        split
        · exact ⟨rfl, rfl, Or.inr ⟨rfl, ⟨_, hpoint⟩, hsame⟩⟩
        · exact ⟨rfl, rfl, Or.inl rfl⟩
      | deliver => exact ⟨rfl, rfl, Or.inr ⟨rfl, ⟨_, hpoint⟩, hsame⟩⟩
    · cases h
  | wake wake =>
    simp only [step] at h
    split at h
    · cases wake with
      | close =>
        cases h
        exact ⟨rfl, rfl, Or.inl rfl⟩
      | due =>
        simp only at h
        split at h
        · cases h
          exact ⟨rfl, rfl, Or.inl rfl⟩
        · cases h
      | receive =>
        simp only [receive] at h
        split at h
        · cases h
          exact ⟨rfl, rfl, Or.inl rfl⟩
        split at h
        · cases h
        · cases h
          exact ⟨rfl, rfl, Or.inl rfl⟩
        · cases h
          exact ⟨rfl, rfl, Or.inl rfl⟩
    · cases h

theorem Hub.Leased.stream (h : hub.Leased) {s : Nat} {c d : Connection}
    (hc : hub.connection s = some c) (haccount : d.account = c.account)
    (hchannel : d.channel = c.channel) :
    Hub.Leased { hub with streams := hub.streams.set s (some d) } := by
  refine ⟨?_, ?_, h.apart, h.fresh⟩
  · intro t e he
    by_cases hst : s = t
    · subst hst
      rw [connection_set_self hc] at he
      cases he
      rw [haccount, hchannel]
      exact h.listed s c hc
    · rw [connection_set_other hst] at he
      exact h.listed t e he
  · intro account entry hentry
    rw [live_set hc, any_some, haccount, h.counted account entry hentry]
    by_cases heq : c.account = account
    · have hpos := Hub.live_pos hc
      rw [heq] at hpos
      simp only [heq, if_true, decide_true]
      omega
    · simp [heq]

theorem Hub.Leased.step (h : hub.Leased) {action : HubAction}
    (hstep : hub.step action = some next) : next.Leased := by
  cases action with
  | subscribe => exact h.subscribe hstep
  | drop =>
    obtain ⟨c, hc, rfl⟩ := map_eq_some_iff.mp hstep
    exact h.drop hc
  | lookUp =>
    obtain ⟨entry, -, rfl⟩ := map_eq_some_iff.mp hstep
    exact ⟨h.listed, h.counted, h.apart, h.fresh⟩
  | send =>
    obtain ⟨sent, -, rfl⟩ := map_eq_some_iff.mp hstep
    apply Hub.Leased.notify
    exact ⟨h.listed, h.counted, h.apart, h.fresh⟩
  | revalidate =>
    cases hstep
    rw [Hub.revalidate]
    split
    · exact h
    · apply Hub.Leased.notify
      exact ⟨h.listed, h.counted, h.apart, h.fresh⟩
  | stream =>
    obtain ⟨c, hc, hstream⟩ := bind_eq_some_iff.mp hstep
    obtain ⟨d, hd, rfl⟩ := map_eq_some_iff.mp hstream
    have hadvances := Connection.step_advances hd
    exact h.stream hc hadvances.account hadvances.channel
  | tick | drain =>
    cases hstep
    exact ⟨h.listed, h.counted, h.apart, h.fresh⟩

end Leased

end SimplestChat.Updates
