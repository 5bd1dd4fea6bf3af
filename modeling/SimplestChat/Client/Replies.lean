import SimplestChat.Support.Runs

/-!
# Requests of the web client

A request waits under its number until its reply comes in on the client's socket, its timer
fires or the client gives the socket up.  Sockets are numbered as they are opened.
-/

namespace SimplestChat.Client

open Transition List

/-- The message types that are told apart; `event` is every other one. -/
inductive MessageType
  | routerRtpCapabilities | transportCreated | transportConnected | producerCreated
  | consumerCreated | roomControlApplied | reconnectResult
  | consumerResumed | consumerPaused | producerResumed | producerPaused
  | mediaControlApplied | iceRestarted
  | authenticationRenewed | authenticationRenewalFailed | authenticationRenewalDeferred
  | socialResponse | socialError | error | serverRestarting | event
deriving DecidableEq

namespace MessageType

/-- The three answers to a renewal, which has its own numbers. -/
def renews : MessageType → Bool
  | authenticationRenewed | authenticationRenewalFailed | authenticationRenewalDeferred => true
  | _ => false

/-- Types that only ever answer a request. -/
def replyOnly : MessageType → Bool
  | routerRtpCapabilities | transportCreated | transportConnected | producerCreated
  | consumerCreated | roomControlApplied | reconnectResult => true
  | _ => false

end MessageType

/-- The ID `request-n` is `n`; no request has the number 0, which is any other text. -/
structure ServerMessage where
  type : MessageType
  requestId : Option ℕ
deriving DecidableEq

/-- An entry of `pendingRequests`.  The socket is the one that the request was sent on, which
the client does not store. -/
structure Pending where
  id : ℕ
  responseType : MessageType
  deadline : ℕ
  socket : ℕ
deriving DecidableEq

/-- How a request's promise ends: with a message that came in on a socket, or with an error. -/
inductive Outcome
  | resolved (message : ServerMessage) (socket now : ℕ)
  | rejected
deriving DecidableEq

inductive ReadyState
  | connecting | opened | closing
deriving DecidableEq

/-- The client's own socket and requests, with the clock and what has been settled and handled.
A ticket that is fetched before a socket is opened is no state here: meanwhile the owned socket
can only close. -/
structure SignalingClient where
  ws : Option ℕ := none
  readyState : ReadyState := .connecting
  sockets : ℕ := 0
  requestSequence : ℕ := 0
  pendingRequests : List Pending := []
  now : ℕ := 0
  settled : List (Pending × Outcome) := []
  /-- what `onMessage` was called with -/
  handled : List ServerMessage := []
deriving DecidableEq

namespace SignalingClient

def settle (c : SignalingClient) (p : Pending) (outcome : Outcome) : SignalingClient :=
  { c with
    pendingRequests := c.pendingRequests.eraseP fun q => q.id = p.id
    settled := c.settled ++ [(p, outcome)] }

def rejectAllPending (c : SignalingClient) : SignalingClient :=
  { c with
    pendingRequests := []
    settled := c.settled ++ c.pendingRequests.map fun p => (p, .rejected) }

/-- A request without an open socket or with an invalid timeout is refused before it has a
number. -/
def request (c : SignalingClient) (responseType : MessageType) (timeoutMs : ℕ) (throws : Bool) :
    SignalingClient :=
  match c.ws with
  | some socket =>
    if c.readyState = .opened ∧ 0 < timeoutMs ∧ timeoutMs ≤ 2147483647 then
      let id := c.requestSequence + 1
      let p : Pending := ⟨id, responseType, c.now + timeoutMs, socket⟩
      -- a `send` that throws takes the entry back at once
      if throws then { c with requestSequence := id, settled := c.settled ++ [(p, .rejected)] }
      else { c with requestSequence := id, pendingRequests := c.pendingRequests ++ [p] }
    else c
  | none => c

/-- A message with a request's number; unknown, duplicate and late ones change nothing. -/
def reply (c : SignalingClient) (socket id : ℕ) (msg : ServerMessage) : SignalingClient :=
  match c.pendingRequests.find? fun q => q.id = id with
  | none => c
  | some p =>
    if msg.type ≠ p.responseType ∧ msg.type ≠ .error then c
    else if p.deadline ≤ c.now ∨ msg.type = .error then c.settle p .rejected
    else c.settle p (.resolved msg socket c.now)

def dispatch (c : SignalingClient) (socket : ℕ) (msg : ServerMessage) : SignalingClient :=
  match msg.requestId with
  | some id =>
    if msg.type = .socialResponse ∨ msg.type = .socialError then
      { c with handled := c.handled ++ [msg] }
    else c.reply socket id msg
  | none => if msg.type.replyOnly then c else { c with handled := c.handled ++ [msg] }

def onmessage (c : SignalingClient) (socket : ℕ) (msg : ServerMessage) : SignalingClient :=
  if c.ws ≠ some socket ∨ msg.type.renews then c
  else if msg.type = .serverRestarting then c.rejectAllPending.dispatch socket msg
  else c.dispatch socket msg

/-- Opens a socket unless the owned one is open or about to be. -/
def connect (c : SignalingClient) : SignalingClient :=
  if c.ws.isSome ∧ c.readyState ≠ .closing then c
  else { c with ws := some c.sockets, readyState := .connecting, sockets := c.sockets + 1 }

/-- What happens to the client. -/
inductive Action
  | wait (ms : ℕ)
  | connect
  | onopen (socket : ℕ)
  | request (responseType : MessageType) (timeoutMs : ℕ) (throws : Bool)
  | onmessage (socket : ℕ) (msg : ServerMessage)
  | expire (id : ℕ)
  /-- the socket begins to close: a failed renewal, or the server -/
  | closing
  | onclose (socket : ℕ)
  /-- `disconnect`, or the deadline of a reconnection -/
  | disconnect
  /-- a connection ticket is refused -/
  | refused

def step (c : SignalingClient) : Action → Option SignalingClient
  | .wait ms => some { c with now := c.now + ms }
  | .connect => some c.connect
  | .onopen socket =>
    some (if c.ws = some socket ∧ c.readyState = .connecting then { c with readyState := .opened }
      else c)
  | .request responseType timeoutMs throws => some (c.request responseType timeoutMs throws)
  | .onmessage socket msg => some (c.onmessage socket msg)
  | .expire id =>
    match c.pendingRequests.find? fun q => q.id = id with
    | none => some c
    | some p => if p.deadline ≤ c.now then some (c.settle p .rejected) else none
  | .closing => some { c with readyState := .closing }
  | .onclose socket =>
    some (if c.ws = some socket then { c.rejectAllPending with ws := none } else c)
  | .disconnect => some { c.rejectAllPending with ws := none }
  | .refused => some c.rejectAllPending

/-- No socket is replaced while it closes with requests pending on it. -/
def StrandsNone (c : SignalingClient) : Action → Prop
  | .connect => c.readyState = .closing → c.pendingRequests = []
  | _ => True

instance (c : SignalingClient) (a : Action) : Decidable (c.StrandsNone a) := by
  cases a <;> unfold StrandsNone <;> infer_instance

/-! ## The invariant -/

/-- Every request that was given a number. -/
def requests (c : SignalingClient) : List Pending := c.settled.map Prod.fst ++ c.pendingRequests

/-- A request resolves with its own answer, in time and on its own socket. -/
def Answers (p : Pending) : Outcome → Prop
  | .resolved msg socket now => msg.type = p.responseType ∧ msg.requestId = some p.id ∧
      now < p.deadline ∧ socket = p.socket
  | .rejected => True

/-- What holds in every run that strands no request. -/
structure Inv (c : SignalingClient) : Prop where
  /-- every request sent is pending or settled, and that once -/
  once : (c.requests.map Pending.id).Perm (range' 1 c.requestSequence)
  answered : ∀ s ∈ c.settled, Answers s.1 s.2
  owned : ∀ p ∈ c.pendingRequests, c.ws = some p.socket
  handled : ∀ msg ∈ c.handled, msg.type.replyOnly = false

variable {c d : SignalingClient} {p : Pending} {id socket : ℕ} {msg : ServerMessage}

theorem perm_of_find (h : (c.pendingRequests.find? fun q => q.id = id) = some p) :
    (p :: c.pendingRequests.eraseP fun q => q.id = p.id).Perm c.pendingRequests := by
  obtain ⟨hid, before, after, hsplit, hbefore⟩ := find?_eq_some_iff_append.mp h
  have hid : p.id = id := by simpa using hid
  have hothers : ∀ q ∈ before, ¬ decide (q.id = p.id) = true := by
    simpa [hid] using hbefore
  rw [hsplit, eraseP_append_right _ hothers, eraseP_cons_of_pos (by simp)]
  exact perm_middle.symm

theorem requests_settle (h : (c.pendingRequests.find? fun q => q.id = id) = some p)
    (outcome : Outcome) : (c.settle p outcome).requests.Perm c.requests := by
  have hperm := (perm_of_find h).append_left (c.settled.map Prod.fst)
  simpa [requests, settle] using hperm

theorem requests_rejectAllPending : c.rejectAllPending.requests = c.requests := by
  have hfst : (Prod.fst ∘ fun p : Pending => (p, Outcome.rejected)) = fun p => p := rfl
  simp [requests, rejectAllPending, hfst]

namespace Inv

section

variable (h : Inv c)
include h

theorem settle (hfind : (c.pendingRequests.find? fun q => q.id = id) = some p)
    {outcome : Outcome} (ho : Answers p outcome) : Inv (c.settle p outcome) where
  once := ((requests_settle hfind outcome).map _).trans h.once
  answered s hs := by
    rcases mem_append.mp hs with hs | hs
    · exact h.answered s hs
    · obtain rfl := mem_singleton.mp hs
      exact ho
  owned q hq := h.owned q (mem_of_mem_eraseP hq)
  handled := h.handled

theorem rejectAllPending (ws : Option ℕ) : Inv { c.rejectAllPending with ws } where
  once := requests_rejectAllPending (c := c) ▸ h.once
  answered s hs := by
    rcases mem_append.mp hs with hs | hs
    · exact h.answered s hs
    · obtain ⟨p, -, rfl⟩ := mem_map.mp hs
      trivial
  owned _ hq := absurd hq not_mem_nil
  handled := h.handled

theorem handle (hmsg : msg.type.replyOnly = false) :
    Inv { c with handled := c.handled ++ [msg] } where
  once := h.once
  answered := h.answered
  owned := h.owned
  handled m hm := by
    rcases mem_append.mp hm with hm | hm
    · exact h.handled m hm
    · obtain rfl := mem_singleton.mp hm
      exact hmsg

theorem reply (hws : c.ws = some socket) (hid : msg.requestId = some id) :
    Inv (c.reply socket id msg) := by
  unfold SignalingClient.reply
  split
  · exact h
  · rename_i p hfind
    split_ifs with htype hlate
    · exact h
    · exact h.settle hfind trivial
    · rw [not_or, not_le] at hlate
      have hp : p.id = id := by simpa using find?_some hfind
      have howned := h.owned p (mem_of_find?_eq_some hfind)
      refine h.settle hfind ⟨?_, by rw [hid, hp], hlate.1, ?_⟩
      · by_contra hne
        exact htype ⟨hne, hlate.2⟩
      · rw [hws] at howned
        exact Option.some.inj howned

theorem dispatch (hws : c.ws = some socket) : Inv (c.dispatch socket msg) := by
  unfold SignalingClient.dispatch
  split
  · rename_i id hid
    split_ifs with hsocial
    · refine h.handle ?_
      rcases hsocial with hsocial | hsocial <;> rw [hsocial] <;> rfl
    · exact h.reply hws hid
  · split_ifs with honly
    · exact h
    · exact h.handle (by simpa using honly)

theorem onmessage : Inv (c.onmessage socket msg) := by
  unfold SignalingClient.onmessage
  split_ifs with hforeign
  · exact h
  · rw [not_or, not_not] at hforeign
    exact (h.rejectAllPending c.ws).dispatch hforeign.1
  · rw [not_or, not_not] at hforeign
    exact h.dispatch hforeign.1

theorem request (responseType : MessageType) (timeoutMs : ℕ) (throws : Bool) :
    Inv (c.request responseType timeoutMs throws) := by
  unfold SignalingClient.request
  have hnext : (c.requests.map Pending.id ++ [c.requestSequence + 1]).Perm
      (range' 1 (c.requestSequence + 1)) := by
    rw [range'_concat, Nat.one_mul, Nat.add_comm 1]
    exact h.once.append_right _
  split
  · rename_i socket hws
    split_ifs
    · refine ⟨Perm.trans ?_ hnext, fun s hs => ?_, h.owned, h.handled⟩
      · have hlast := (perm_append_singleton (c.requestSequence + 1)
          (c.pendingRequests.map Pending.id)).symm
        simpa [requests] using hlast.append_left _
      · rcases mem_append.mp hs with hs | hs
        · exact h.answered s hs
        · obtain rfl := mem_singleton.mp hs
          trivial
    · refine ⟨by simpa [requests] using hnext, h.answered, fun q hq => ?_, h.handled⟩
      rcases mem_append.mp hq with hq | hq
      · exact h.owned q hq
      · obtain rfl := mem_singleton.mp hq
        exact hws
    · exact h
  · exact h

theorem connect (hnone : c.readyState = .closing → c.pendingRequests = []) : Inv c.connect := by
  unfold SignalingClient.connect
  split_ifs with hkeep
  · exact h
  · refine ⟨h.once, h.answered, fun p hp => ?_, h.handled⟩
    have hp : p ∈ c.pendingRequests := hp
    have hws := h.owned p hp
    rw [hnone (by simpa [hws] using hkeep)] at hp
    cases hp

end

theorem step {a : Action} (h : Inv c) (ha : c.StrandsNone a) (hstep : c.step a = some d) :
    Inv d := by
  cases a with
  | expire id =>
    simp only [SignalingClient.step] at hstep
    split at hstep
    · cases hstep
      exact h
    · split_ifs at hstep
      cases hstep
      exact h.settle ‹_› trivial
  | onopen =>
    cases hstep
    split_ifs
    · exact ⟨h.once, h.answered, h.owned, h.handled⟩
    · exact h
  | onclose =>
    cases hstep
    split_ifs
    · exact h.rejectAllPending none
    · exact h
  | connect =>
    cases hstep
    exact h.connect ha
  | request =>
    cases hstep
    exact h.request _ _ _
  | onmessage =>
    cases hstep
    exact h.onmessage
  | disconnect =>
    cases hstep
    exact h.rejectAllPending none
  | refused =>
    cases hstep
    exact h.rejectAllPending c.ws
  | wait | closing =>
    cases hstep
    exact ⟨h.once, h.answered, h.owned, h.handled⟩

end Inv

end SignalingClient

end SimplestChat.Client
