import SimplestChat.Chat.EditOrder

/-!
# Two ways to react to a private message

A message between two accounts can be reacted to over HTTP and from any room
that retains it. An HTTP request changes the locked row and then schedules a
completion in every room. A socket request toggles on the room's own copy,
gives the room's lock up, and overwrites the whole saved list with the result.

The saved list is the serial outcome of all accepted requests as long as every
socket request still finds the list that it has toggled on. Otherwise it
erases what others have committed in between.
-/

namespace SimplestChat

open Transition Transaction Transaction.Tx

/-! ## Requests -/

inductive ReactionRequest where
  /-- over a socket -/
  | toggle (reactor : ParticipantId) (emoji : String)
  /-- over HTTP, with the wanted presence -/
  | set (reactor : ParticipantId) (emoji : String) (present : Bool)
deriving DecidableEq

namespace ReactionRequest

def reactor : ReactionRequest → ParticipantId
  | toggle reactor _ | set reactor _ _ => reactor

def apply (current : List ChatReaction) : ReactionRequest → Except String (List ChatReaction)
  | toggle reactor emoji => toggleReactions current reactor emoji
  | set reactor emoji present => setReaction current reactor emoji present

/-- Apply the requests one after the other; each must be accepted. -/
def applyAll : List ChatReaction → List ReactionRequest → Except String (List ChatReaction)
  | current, [] => .ok current
  | current, request :: rest =>
    match request.apply current with
    | .error text => .error text
    | .ok next => applyAll next rest

end ReactionRequest

open ReactionRequest

/-- The list is what the accepted requests make of the first one in some
serial order. -/
def Serial (first : List ChatReaction) (accepted : List ReactionRequest)
    (last : List ChatReaction) : Prop :=
  ∃ order, order.Perm accepted ∧ applyAll first order = .ok last

variable {current : List ChatReaction}

theorem applyAll_append {before after : List ReactionRequest} : applyAll current (before ++ after) =
      match applyAll current before with
      | .error text => .error text
      | .ok next => applyAll next after := by
  induction before generalizing current with
  | nil => rfl
  | cons request rest ih =>
    simp only [List.cons_append, applyAll]
    cases request.apply current with
    | error => rfl
    | ok => exact ih

/-! ## Nobody loses a reaction to somebody else -/

theorem hasReaction_cons (r : ChatReaction) (rest : List ChatReaction)
    (reactor : ParticipantId) (emoji : String) :
    hasReaction (r :: rest) reactor emoji =
      ((r.emoji = emoji && r.participantIds.contains reactor) ||
        hasReaction rest reactor emoji) := rfl

variable {actor reactor : ParticipantId}

theorem hasReaction_withdraw (hne : reactor ≠ actor) (emoji other : String)
    (current : List ChatReaction) :
    hasReaction (withdrawReaction actor emoji current) reactor other =
      hasReaction current reactor other := by
  induction current with
  | nil => rfl
  | cons r rest ih =>
    unfold withdrawReaction
    have hkept : (r.participantIds.filter fun id => id ≠ actor).contains reactor =
        r.participantIds.contains reactor := by
      simp [List.contains_eq_mem, List.mem_filter, hne]
    split
    · simp only
      split
      · rename_i hempty
        have hnone : r.participantIds.contains reactor = false := by
          rw [← hkept, List.isEmpty_iff.mp hempty]
          rfl
        rw [hasReaction_cons, hnone, Bool.and_false, Bool.false_or]
      · rw [hasReaction_cons, hasReaction_cons, hkept]
    · rw [hasReaction_cons, hasReaction_cons, ih]

theorem hasReaction_add (hne : reactor ≠ actor)
    (emoji other : String) (current : List ChatReaction) :
    hasReaction (addReaction actor emoji current) reactor other =
      hasReaction current reactor other := by
  induction current with
  | nil => simp [addReaction, hasReaction, hne]
  | cons r rest ih =>
    unfold addReaction
    split
    · rw [hasReaction_cons, hasReaction_cons]
      simp [hne]
    · rw [hasReaction_cons, hasReaction_cons, ih]

theorem hasReaction_toggle {next : List ChatReaction} {emoji : String}
    (h : toggleReactions current actor emoji = .ok next)
    (hne : reactor ≠ actor) (other : String) :
    hasReaction next reactor other = hasReaction current reactor other := by
  unfold toggleReactions at h
  split at h
  · cases h
  split at h
  · split at h
    · cases h
      exact hasReaction_withdraw hne emoji other current
    split at h
    · cases h
    · cases h
      exact hasReaction_add hne emoji other current
  · split at h
    · cases h
    · cases h
      exact hasReaction_add hne emoji other current

theorem hasReaction_apply {next : List ChatReaction}
    {request : ReactionRequest} (h : request.apply current = .ok next)
    (hne : request.reactor ≠ reactor) (emoji : String) :
    hasReaction next reactor emoji = hasReaction current reactor emoji := by
  cases request with
  | toggle => exact hasReaction_toggle h (Ne.symm hne) emoji
  | set =>
    simp only [ReactionRequest.apply, setReaction] at h
    split at h
    · cases h
    split at h
    · cases h
      rfl
    · exact hasReaction_toggle h (Ne.symm hne) emoji

theorem hasReaction_applyAll {last : List ChatReaction}
    {requests : List ReactionRequest} (h : applyAll current requests = .ok last)
    (hne : ∀ r ∈ requests, r.reactor ≠ reactor) (emoji : String) :
    hasReaction last reactor emoji = hasReaction current reactor emoji := by
  induction requests generalizing current with
  | nil =>
    cases h
    rfl
  | cons request rest ih =>
    unfold applyAll at h
    split at h
    · cases h
    rename_i hnext
    rw [ih h fun r hr => hne r (List.mem_cons_of_mem _ hr)]
    exact hasReaction_apply hnext (hne request List.mem_cons_self) emoji

/-! ## Rooms over one saved row -/

inductive ReactionHolder where
  /-- toggled on the room's copy, which showed `base` -/
  | saving (requester : Requester) (emoji : String)
      (base reactions : List ChatReaction)
  | saved (requester : Requester) (reactions : List ChatReaction)
  /-- a completion that has read the saved message again -/
  | completing (message : ChatEntry)
deriving DecidableEq

structure ReactionRoom where
  room : ChatRoom
  holder : Option ReactionHolder
  /-- scheduled completions -/
  updates : ℕ

/-- One account message in the database and in the rooms of both accounts. -/
structure ReactionNet where
  database : Database
  rooms : RoomId → ReactionRoom
  /-- the accepted requests in the order of their commits -/
  accepted : List ReactionRequest

inductive ReactionAction where
  | http (own peer : ParticipantId) (emoji : String) (present : Bool)
  | react (place : RoomId) (requester : Requester) (emoji : String)
  | save (place : RoomId)
  /-- the save fails and leaves nothing behind -/
  | abandon (place : RoomId)
  | publish (place : RoomId)
  | complete (place : RoomId)
  | finish (place : RoomId)
  /-- whatever else happens to the room -/
  | change (place : RoomId) (room : ChatRoom)

def ChatRoom.shownReactions (room : ChatRoom) (participant : ParticipantId)
    (id : MessageId) : List ChatReaction :=
  (((room.member participant).bind fun actor =>
    room.social.history.find? fun entry =>
      entry.message.messageId = id && visible entry actor).map
        fun entry => entry.message.reactions).getD []

namespace ReactionNet

variable (size : ChatEntry → ℕ) (m : MessageId) (author peer : ParticipantId)

def setRoom (n : ReactionNet) (place : RoomId) (room : ReactionRoom) : ReactionNet :=
  { n with rooms := fun other => if other = place then room else n.rooms other }

/-- Reactions to message `m`, which `author` has sent to `peer`. -/
def step (n : ReactionNet) : ReactionAction → Option ReactionNet
  | .http own other emoji present =>
    match savePrivateReaction own other m emoji present
        ⟨n.database, n.database, []⟩ with
    | (.ok _, conn) =>
      some
        { database := conn.saved
          rooms := fun place =>
            { n.rooms place with updates := (n.rooms place).updates + 1 }
          accepted := n.accepted ++ [.set own emoji present] }
    | (.error _, conn) => some { n with database := conn.saved }
  | .react place requester emoji =>
    let r := n.rooms place
    if r.holder.isSome then none
    else
      match r.room.participantForSender requester with
      | .error _ => some n
      | .ok _ =>
        match r.room.prepareReaction requester.participant m emoji with
        | .error _ => some n
        | .ok reactions =>
          some (n.setRoom place { r with
            holder := some (.saving requester emoji
              (r.room.shownReactions requester.participant m) reactions) })
  | .save place =>
    let r := n.rooms place
    match r.holder with
    | some (.saving requester emoji _ reactions) =>
      match saveReactions m reactions ⟨n.database, n.database, []⟩ with
      | (.ok _, conn) =>
        some { (n.setRoom place
            { r with holder := some (.saved requester reactions) }) with
          database := conn.saved
          accepted := n.accepted ++ [.toggle requester.participant emoji] }
      | (.error _, _) => none
    | _ => none
  | .abandon place =>
    let r := n.rooms place
    match r.holder with
    | some (.saving _ _ _ _) => some (n.setRoom place { r with holder := none })
    | _ => none
  | .publish place =>
    let r := n.rooms place
    match r.holder with
    | some (.saved requester reactions) =>
      let room :=
        match r.room.participantForSender requester with
        | .error _ => r.room
        | .ok _ =>
          match r.room.publishReaction size m reactions with
          | .error _ => r.room
          | .ok (published, _) => published
      some (n.setRoom place { r with room, holder := none })
    | _ => none
  | .complete place =>
    let r := n.rooms place
    if r.holder.isSome || r.updates = 0 then none
    else
      match privateMessage author peer m ⟨n.database, n.database, []⟩ with
      | (.ok (some message), _) =>
        some (n.setRoom place { r with
          holder := some (.completing message), updates := r.updates - 1 })
      | _ => some (n.setRoom place { r with updates := r.updates - 1 })
  | .finish place =>
    let r := n.rooms place
    match r.holder with
    | some (.completing message) =>
      some (n.setRoom place { r with
        room := (r.room.completeUpdate size ⟨message, true⟩).1
        holder := none })
    | _ => none
  | .change place room => some (n.setRoom place { n.rooms place with room })

end ReactionNet

/-- The message has one saved row, which is neither expired nor removed and
has these reactions. -/
def Database.SavedLive (db : Database) (m : MessageId) (reactions : List ChatReaction) : Prop :=
  ∃ row, (db.messages.filter fun row => row.body.messageId = m) = [row] ∧
    row.expired = false ∧ row.body.removedAt = none ∧
    row.body.reactions = reactions

instance (db : Database) (m : MessageId) (reactions : List ChatReaction) :
    Decidable (db.SavedLive m reactions) :=
  match h : db.messages.filter fun row => row.body.messageId = m with
  | [row] =>
    decidable_of_iff
      (row.expired = false ∧ row.body.removedAt = none ∧ row.body.reactions = reactions)
      (by simp [Database.SavedLive, h])
  | [] => isFalse (by simp [Database.SavedLive, h])
  | _ :: _ :: _ => isFalse (by simp [Database.SavedLive, h])

namespace Database

variable {db : Database} {m : MessageId} {l l' : List ChatReaction}

section

variable (h : db.SavedLive m l)
include h

theorem SavedLive.unique (h' : db.SavedLive m l') : l = l' := by
  obtain ⟨row, hrow, -, -, rfl⟩ := h
  obtain ⟨row', hrow', -, -, rfl⟩ := h'
  rw [hrow] at hrow'
  cases hrow'
  rfl

theorem SavedLive.map {g : MessageRow → MessageRow}
    (hid : ∀ row, (g row).body.messageId = row.body.messageId)
    (hrow : ∀ row, row.body.messageId = m → row.expired = false →
      row.body.removedAt = none → (g row).expired = false ∧
        (g row).body.removedAt = none ∧ (g row).body.reactions = l') :
    ({ db with messages := db.messages.map g } : Database).SavedLive m l' := by
  obtain ⟨row, hfilter, hexpired, hlive, -⟩ := h
  have hown : row.body.messageId = m := by
    have hmem : row ∈ db.messages.filter fun row => row.body.messageId = m := by
      rw [hfilter]
      exact List.mem_singleton_self row
    simpa using (List.mem_filter.mp hmem).2
  refine ⟨g row, ?_, hrow row hown hexpired hlive⟩
  have htest : ((fun row : MessageRow => decide (row.body.messageId = m)) ∘ g) =
      fun row => decide (row.body.messageId = m) := by
    funext row
    simp only [Function.comp_apply, hid]
  simp only [List.filter_map, htest, hfilter, List.map_cons, List.map_nil]

theorem SavedLive.find {test : MessageRow → Bool} {row : MessageRow}
    (hrow : db.messages.find? test = some row) (hown : row.body.messageId = m) :
    row.body.reactions = l := by
  obtain ⟨only, hfilter, -, -, rfl⟩ := h
  have hmem : row ∈ db.messages.filter fun row => row.body.messageId = m :=
    List.mem_filter.mpr ⟨List.mem_of_find?_eq_some hrow, by simpa using hown⟩
  rw [hfilter] at hmem
  rw [List.mem_singleton.mp hmem]

theorem SavedLive.saveReactions :
    (SimplestChat.saveReactions m l' ⟨db, db, []⟩).2.saved.SavedLive m l' := by
  refine h.map (fun row => ?_) fun row hown hexpired hlive => ?_
  · split <;> rfl
  · rw [if_pos ⟨hown, hexpired, hlive⟩]
    exact ⟨hexpired, hlive, rfl⟩

theorem SavedLive.updateReactions :
    (db.updateMessage m fun body => { body with reactions := l' }).SavedLive
      m l' := by
  refine h.map (fun row => ?_) fun row hown hexpired hlive => ?_
  · split <;> rfl
  · rw [if_pos hown]
    exact ⟨hexpired, hlive, rfl⟩

end

end Database

theorem beginPrivateWrite_quiet (db : Database) (own peer : ParticipantId) :
    beginPrivateWrite own peer ⟨db, db, []⟩ = (.ok (), ⟨db, db, []⟩) ∨
      ∃ stop, beginPrivateWrite own peer ⟨db, db, []⟩ = (.error stop, ⟨db, db, []⟩) := by
  simp only [beginPrivateWrite, bind_apply, begin_quiet, query_quiet]
  split
  · exact .inl rfl
  · exact .inr ⟨_, rfl⟩

theorem requireAllowed_quiet (db : Database) (own peer : ParticipantId) :
    requireAllowed own peer ⟨db, db, []⟩ = (.ok (), ⟨db, db, []⟩) ∨
      ∃ stop, requireAllowed own peer ⟨db, db, []⟩ = (.error stop, ⟨db, db, []⟩) := by
  simp only [requireAllowed, bind_apply, query_quiet]
  split
  · exact .inl rfl
  · exact .inr ⟨_, rfl⟩

/-- What an undisturbed HTTP reaction does: it changes the locked row as asked,
or it stops and leaves the database alone. -/
theorem savePrivateReaction_cases (db : Database) (own peer : ParticipantId)
    (m : MessageId) (emoji : String) (present : Bool) :
    (∃ row message l, db.conversationRow (privateConversation own peer) m = some row ∧
      setReaction row.body.reactions own emoji present = .ok l ∧
      savePrivateReaction own peer m emoji present ⟨db, db, []⟩ =
        (.ok message, ⟨db.updateMessage m fun body => { body with reactions := l },
          db.updateMessage m fun body => { body with reactions := l }, []⟩)) ∨
      ∃ stop, savePrivateReaction own peer m emoji present ⟨db, db, []⟩ =
        (.error stop, ⟨db, db, []⟩) := by
  simp only [savePrivateReaction, bind_apply]
  rcases beginPrivateWrite_quiet db own peer with hbegin | ⟨stop, hbegin⟩
  · rcases requireAllowed_quiet db own peer with hallowed | ⟨stop, hallowed⟩
    · simp only [hbegin, hallowed, update_quiet, query_quiet]
      cases hfound : (db.conversationRow (privateConversation own peer) m).filter
          fun row => row.body.removedAt.isNone with
      | none => exact .inr ⟨_, rfl⟩
      | some row =>
        have hrow := (Option.mem_filter_iff.mp hfound).1
        have hid : row.body.messageId = m := by
          have htest := List.find?_some hrow
          simp only [Bool.and_eq_true, decide_eq_true_eq] at htest
          exact htest.1.2
        subst hid
        simp only [setSavedReaction, conversationMessage]
        cases hset : setReaction row.body.reactions own emoji present with
        | error => exact .inr ⟨_, rfl⟩
        | ok l =>
          exact .inl ⟨row, { conversationMessage
            (privateConversation own peer) row.body with reactions := l }, l,
            hrow, hset, rfl⟩
    · rw [hbegin]
      simp only [hallowed]
      exact .inr ⟨stop, rfl⟩
  · rw [hbegin]
    exact .inr ⟨stop, rfl⟩

/-! ## Fresh saves -/

namespace ReactionNet

variable {size : ChatEntry → ℕ} {m : MessageId} {author peer : ParticipantId}

/-- A socket request saves its list only if the saved one is still the list
that it has toggled on. -/
def FreshSave (m : MessageId) (n : ReactionNet) : ReactionAction → Prop
  | .save place => ∀ requester emoji base reactions,
      (n.rooms place).holder = some (.saving requester emoji base reactions) →
        n.database.SavedLive m base
  | _ => True

instance (m : MessageId) (n : ReactionNet) (action : ReactionAction) :
    Decidable (n.FreshSave m action) :=
  match action with
  | .save place =>
    match h : (n.rooms place).holder with
    | some (.saving _ _ base _) =>
      decidable_of_iff (n.database.SavedLive m base) (by
        simp only [FreshSave, h]
        exact ⟨fun hbase _ _ _ _ heq => by cases heq; exact hbase, fun hall => hall _ _ _ _ rfl⟩)
    | some (.saved _ _) => isTrue (by simp [FreshSave, h])
    | some (.completing _) => isTrue (by simp [FreshSave, h])
    | none => isTrue (by simp [FreshSave, h])
  | .http _ _ _ _ | .react _ _ _ | .abandon _ | .publish _ | .complete _
  | .finish _ | .change _ _ => isTrue trivial

/-- The saved list is the outcome of the accepted requests in commit order,
and every waiting list is a toggle of its base. -/
structure InSerial (m : MessageId) (first : List ChatReaction)
    (n : ReactionNet) : Prop where
  saved : ∃ l, n.database.SavedLive m l ∧ applyAll first n.accepted = .ok l
  waiting : ∀ place requester emoji base reactions,
    (n.rooms place).holder = some (.saving requester emoji base reactions) →
      toggleReactions base requester.participant emoji = .ok reactions

theorem prepareReaction_toggles {room : ChatRoom} {participant : ParticipantId}
    {emoji : String} {reactions : List ChatReaction}
    (h : room.prepareReaction participant m emoji = .ok reactions) :
    toggleReactions (room.shownReactions participant m) participant emoji = .ok reactions := by
  unfold ChatRoom.prepareReaction at h
  split at h
  · cases h
  rename_i hactor
  split at h
  · cases h
  rename_i entry hentry
  have hshown : room.shownReactions participant m = entry.message.reactions := by
    simp only [ChatRoom.shownReactions, hactor, Option.bind_some, hentry,
      Option.map_some, Option.getD_some]
  rw [hshown]
  split at h
  · cases h
  split at h
  · cases h
  rename_i hnext
  cases h
  exact hnext

variable {n : ReactionNet}

theorem InSerial.setRoom {first : List ChatReaction} (h : n.InSerial m first)
    {place : RoomId} {r : ReactionRoom} (hr : ∀ requester emoji base reactions,
      r.holder = some (.saving requester emoji base reactions) →
        toggleReactions base requester.participant emoji = .ok reactions) :
    (n.setRoom place r).InSerial m first := by
  refine ⟨h.saved, fun other requester emoji base reactions hholder => ?_⟩
  simp only [ReactionNet.setRoom] at hholder
  split at hholder
  · exact hr requester emoji base reactions hholder
  · exact h.waiting other requester emoji base reactions hholder

variable {n' : ReactionNet}

theorem InSerial.step {first : List ChatReaction} {action : ReactionAction}
    (h : n.InSerial m first) (hfresh : n.FreshSave m action)
    (hstep : n.step size m author peer action = some n') : n'.InSerial m first := by
  cases action with
  | http own other emoji present =>
    obtain ⟨l, hsaved, hserial⟩ := h.saved
    simp only [ReactionNet.step] at hstep
    rcases savePrivateReaction_cases n.database own other m emoji present with
      ⟨row, message, l', hrow, hset, hwork⟩ | ⟨stop, hwork⟩
    · rw [hwork] at hstep
      cases hstep
      refine ⟨⟨l', hsaved.updateReactions, ?_⟩, h.waiting⟩
      have hid : row.body.messageId = m := by
        have htest := List.find?_some hrow
        simp only [Bool.and_eq_true, decide_eq_true_eq] at htest
        exact htest.1.2
      rw [hsaved.find hrow hid] at hset
      rw [applyAll_append, hserial]
      simp only [applyAll, ReactionRequest.apply, hset]
    · rw [hwork] at hstep
      cases hstep
      exact h
  | react place requester emoji =>
    simp only [ReactionNet.step] at hstep
    split at hstep
    · cases hstep
    split at hstep
    · cases hstep
      exact h
    split at hstep
    · cases hstep
      exact h
    rename_i reactions hprepare
    cases hstep
    refine h.setRoom fun requester' emoji' base reactions' hholder => ?_
    cases hholder
    exact prepareReaction_toggles hprepare
  | save place =>
    simp only [ReactionNet.step] at hstep
    split at hstep
    · rename_i requester emoji base reactions hholder
      have hbase := hfresh requester emoji base reactions hholder
      have htoggle := h.waiting place requester emoji base reactions hholder
      obtain ⟨l, hsaved, hserial⟩ := h.saved
      have hl : l = base := hsaved.unique hbase
      cases hstep
      refine ⟨⟨reactions, hbase.saveReactions, ?_⟩, ?_⟩
      · rw [applyAll_append, hserial, hl]
        simp only [applyAll, ReactionRequest.apply, htoggle]
      have hother : (n.setRoom place { n.rooms place with
          holder := some (.saved requester reactions) }).InSerial m first :=
        h.setRoom fun _ _ _ _ hholder' => by cases hholder'
      exact hother.waiting
    · cases hstep
  | abandon | publish | finish =>
    simp only [ReactionNet.step] at hstep
    split at hstep
    · cases hstep
      exact h.setRoom fun _ _ _ _ hholder => by cases hholder
    · cases hstep
  | complete place =>
    simp only [ReactionNet.step] at hstep
    split at hstep
    · cases hstep
    split at hstep
    · cases hstep
      exact h.setRoom fun _ _ _ _ hholder => by cases hholder
    cases hstep
    exact h.setRoom fun requester emoji base reactions hholder =>
      h.waiting place requester emoji base reactions hholder
  | change place =>
    cases hstep
    exact h.setRoom fun requester emoji base reactions hholder =>
      h.waiting place requester emoji base reactions hholder

theorem step_accepted {action : ReactionAction}
    (hstep : n.step size m author peer action = some n') :
    n.accepted <+: n'.accepted := by
  cases action with
  | http =>
    simp only [ReactionNet.step] at hstep
    split at hstep
    · cases hstep
      exact List.prefix_append _ _
    · cases hstep
      exact List.prefix_rfl
  | react =>
    simp only [ReactionNet.step] at hstep
    split at hstep
    · cases hstep
    split at hstep
    · cases hstep
      exact List.prefix_rfl
    split at hstep <;> cases hstep <;> exact List.prefix_rfl
  | save =>
    simp only [ReactionNet.step] at hstep
    split at hstep
    · cases hstep
      exact List.prefix_append _ _
    · cases hstep
  | complete =>
    simp only [ReactionNet.step] at hstep
    split at hstep
    · cases hstep
    split at hstep <;> cases hstep <;> exact List.prefix_rfl
  | abandon | publish | finish =>
    simp only [ReactionNet.step] at hstep
    split at hstep <;> cases hstep
    exact List.prefix_rfl
  | change =>
    cases hstep
    exact List.prefix_rfl

theorem run_accepted {actions : List ReactionAction}
    (h : run (step size m author peer) n actions = some n') :
    n.accepted <+: n'.accepted := by
  have hkeeps : ∀ (x : ReactionNet) (a : ReactionAction) (y : ReactionNet),
      n.accepted <+: x.accepted → x.step size m author peer a = some y →
        n.accepted <+: y.accepted :=
    fun _ _ _ hprefix hstep => hprefix.trans (step_accepted hstep)
  exact run_kept hkeeps List.prefix_rfl h

/-- In every run in which each socket request saves a toggle of the list that
is still saved, the saved list is a serial outcome of all accepted requests,
and between any two moments nobody's reactions change without a request of
their own. -/
theorem saved_reactions_serial {net mid last : ReactionNet} {first : List ChatReaction}
    (hfirst : net.database.SavedLive m first) (hnone : net.accepted = [])
    (hidle : ∀ place, (net.rooms place).holder = none)
    {before after : List ReactionAction}
    (hmeets : RunMeets (step size m author peer) (FreshSave m) net (before ++ after))
    (hbefore : run (step size m author peer) net before = some mid)
    (hafter : run (step size m author peer) mid after = some last) :
    ∃ l₁ l₂, mid.database.SavedLive m l₁ ∧ last.database.SavedLive m l₂ ∧
      Serial first last.accepted l₂ ∧
      ∀ reactor, (∀ r ∈ last.accepted.drop mid.accepted.length, r.reactor ≠ reactor) →
          ∀ emoji, hasReaction l₂ reactor emoji = hasReaction l₁ reactor emoji := by
  have hstart : net.InSerial m first := by
    refine ⟨⟨first, hfirst, ?_⟩, fun place _ _ _ _ hholder => ?_⟩
    · rw [hnone]
      rfl
    · rw [hidle place] at hholder
      cases hholder
  obtain ⟨hmeetsBefore, hmeetsAfter⟩ := runMeets_append hmeets hbefore
  have hmid : mid.InSerial m first :=
    run_invariant (fun _ _ _ hn hfresh hstep => hn.step hfresh hstep) hstart
      hmeetsBefore hbefore
  have hlast : last.InSerial m first :=
    run_invariant (fun _ _ _ hn hfresh hstep => hn.step hfresh hstep) hmid
      hmeetsAfter hafter
  obtain ⟨l₁, hsaved₁, hserial₁⟩ := hmid.saved
  obtain ⟨l₂, hsaved₂, hserial₂⟩ := hlast.saved
  refine ⟨l₁, l₂, hsaved₁, hsaved₂, ⟨last.accepted, List.Perm.refl _, hserial₂⟩, ?_⟩
  intro reactor hothers emoji
  obtain ⟨later, hlater⟩ := run_accepted hafter
  rw [← hlater, applyAll_append, hserial₁] at hserial₂
  rw [← hlater, List.drop_left] at hothers
  exact hasReaction_applyAll hserial₂ hothers emoji

/-! ### Two people react -/

def privateHello : List ChatAction := [.join ⟨1, "Al", .member, true, 10, false, true, []⟩,
    .join ⟨2, "Bo", .member, true, 20, false, true, []⟩,
    .request ⟨1, 10⟩ (tell "one" "a" 2 none) ChatSystem.plainSurroundings,
    .work ChatSystem.plainSurroundings [], .resume ChatSystem.plainSurroundings]

def helloNet : Option ReactionNet := (run (ChatSystem.step ChatSystem.sampleSize)
    (.start ChatSystem.plainRoom (some twoAccounts)) privateHello).bind fun c =>
      c.database.map fun db => ⟨db, fun _ => ⟨c.room, none, 0⟩, []⟩

theorem helloNet_idle {net : ReactionNet} (h : helloNet = some net) :
    net.accepted = [] ∧ ∀ place, (net.rooms place).holder = none := by
  obtain ⟨c, -, hc⟩ := Option.bind_eq_some_iff.mp h
  obtain ⟨db, -, rfl⟩ := Option.map_eq_some_iff.mp hc
  exact ⟨rfl, fun _ => rfl⟩

/-- One after the other, both reactions are saved. -/
theorem both_reactions_saved : ∃ net last l, helloNet = some net ∧
      run (step ChatSystem.sampleSize 0 1 2) net
        [.react 1 ⟨2, 20⟩ "❤️", .save 1, .publish 1, .http 1 2 "👍" true] = some last ∧
      last.accepted = [.toggle 2 "❤️", .set 1 "👍" true] ∧
      last.database.SavedLive 0 l ∧ Serial [] last.accepted l := by
  have h : helloNet.any (fun net => net.database.SavedLive 0 [] ∧
      RunMeets (step ChatSystem.sampleSize 0 1 2) (FreshSave 0) net
        ([.react 1 ⟨2, 20⟩ "❤️", .save 1, .publish 1, .http 1 2 "👍" true] ++ []) ∧
      (run (step ChatSystem.sampleSize 0 1 2) net
        [.react 1 ⟨2, 20⟩ "❤️", .save 1, .publish 1, .http 1 2 "👍" true]).any
          fun last => last.accepted = [.toggle 2 "❤️", .set 1 "👍" true]) := by
    decide +kernel
  obtain ⟨net, hnet, hprops⟩ := Option.any_eq_true _ _ |>.mp h
  obtain ⟨hsaved, hmeets, hlast⟩ := of_decide_eq_true hprops
  obtain ⟨last, hrun, haccepted⟩ := Option.any_eq_true _ _ |>.mp hlast
  obtain ⟨hnone, hidle⟩ := helloNet_idle hnet
  obtain ⟨_, l, _, hl, hserial, _⟩ := saved_reactions_serial hsaved hnone hidle hmeets hrun rfl
  exact ⟨net, last, l, hnet, hrun, of_decide_eq_true haccepted, hl, hserial⟩

/-- The second person toggles on a copy that has not been completed yet, and
erases the reaction that the first has committed. -/
theorem socket_reaction_erases_http_reaction : ∃ net last,
    helloNet = some net ∧ net.database.SavedLive 0 [] ∧
      run (step ChatSystem.sampleSize 0 1 2) net
        [.http 1 2 "👍" true, .react 1 ⟨2, 20⟩ "❤️", .save 1, .publish 1,
          .complete 1, .finish 1] = some last ∧
      last.accepted = [.set 1 "👍" true, .toggle 2 "❤️"] ∧
      last.database.SavedLive 0 [⟨"❤️", [2]⟩] ∧
      ¬∃ l, last.database.SavedLive 0 l ∧ Serial [] last.accepted l := by
  have h : helloNet.any (fun net => net.database.SavedLive 0 [] ∧
      (run (step ChatSystem.sampleSize 0 1 2) net
        [.http 1 2 "👍" true, .react 1 ⟨2, 20⟩ "❤️", .save 1, .publish 1,
          .complete 1, .finish 1]).any fun last =>
            last.accepted = [.set 1 "👍" true, .toggle 2 "❤️"] ∧
            last.database.SavedLive 0 [⟨"❤️", [2]⟩]) := by
    decide +kernel
  obtain ⟨net, hnet, hprops⟩ := Option.any_eq_true _ _ |>.mp h
  obtain ⟨hsaved, hlast⟩ := of_decide_eq_true hprops
  obtain ⟨last, hrun, hfinal⟩ := Option.any_eq_true _ _ |>.mp hlast
  obtain ⟨haccepted, herased⟩ := of_decide_eq_true hfinal
  refine ⟨net, last, hnet, hsaved, hrun, haccepted, herased, ?_⟩
  rintro ⟨l, hl, order, hperm, happly⟩
  rw [hl.unique herased] at happly
  rw [haccepted] at hperm
  rcases List.perm_pair.mp hperm with rfl | rfl <;> exact absurd happly (by decide)

end ReactionNet

end SimplestChat
