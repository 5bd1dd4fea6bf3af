import SimplestChat.Chat.Attempt

/-!
# Chat requests and what they wait for

A chat request runs in turns under the room's lock. Where it needs the
database it gives the lock up, keeps the room's control, and takes the lock
back when the answer is there: `Waiting` names what it waits for, `Returning`
what it comes back with. `begin` is the first turn of a request and `resume`
every later one.
-/

namespace SimplestChat

open Transaction Transaction.Tx

inductive SocialRequest where
  | snapshot
  | edit (id : MessageId) (request : EditRequest)
  | pinned (change : Option (MessageId × Bool))
  | remove (id : MessageId)
  | react (id : MessageId) (emoji : String)
  | setHistory (days : ℕ)
deriving DecidableEq

inductive ChatRequest where
  | chat (attempt : ChatAttempt)
  | social (request : SocialRequest)
deriving DecidableEq

/-! ## Database waits -/

inductive Waiting where
  | replyLookup (attempt : ChatAttempt) (id : MessageId)
  | persistChat (chat : PreparedChat)
  | attachFiles (chat : PreparedChat)
  | editLookup (id : MessageId) (request : EditRequest)
  | persistEdit (original : ChatEntry) (request : EditRequest)
      (guestSession : Option SessionId)
  | removalLookup (id : MessageId)
  | persistRemoval (id : MessageId) (removedAt : Time) (keepsHistory : Bool)
      (event : ModerationEvent)
  /-- the files of a message in a room that is not saved -/
  | dropFiles (id : MessageId) (removedAt : Time)
  | setPin (id : MessageId) (pinned : Bool)
  | readPins (changed : Bool)
  | reactPublic (id : MessageId) (emoji : String) (ignored : List ParticipantId)
  | saveReactions (id : MessageId) (reactions : List ChatReaction)
  | retention (days : ℕ)
deriving DecidableEq

inductive Returning where
  | replyFound (attempt : ChatAttempt) (saved : Option ChatEntry)
  /-- the message is saved, or its files are bound -/
  | chatSaved (chat : PreparedChat)
  | editFound (request : EditRequest) (found : Option ChatEntry)
  | editSaved (message : ChatEntry)
  | removalFound (id : MessageId) (found : Option (ChatEntry × Bool))
  | removalSaved (id : MessageId) (removedAt : Time)
  | pinSet
  | pinsRead (changed : Bool) (pins : List ChatEntry)
  | reactedPublic (id : MessageId) (emoji : String) (message : Option ChatEntry)
  | reactionsSaved (id : MessageId) (reactions : List ChatReaction)
  | retentionSet (days : ℕ)
deriving DecidableEq

def PreparedChat.saved (size : ChatEntry → ℕ) (chat : PreparedChat)
    (message : ChatEntry) : PreparedChat :=
  { chat with message, receiptBytes := size message, durable := true }

def PreparedChat.attach (size : ChatEntry → ℕ) (chat : PreparedChat)
    (attachments : List ChatAttachment) : PreparedChat :=
  let message := { chat.message with attachments }
  { chat with message, receiptBytes := size message }

def sentBefore (now : Time) (days : ℕ) (row : MessageRow) : Bool :=
  row.body.sentAt + days * (24 * 60 * 60 * 1000) ≤ now

namespace Waiting

/-- The work runs through `persist_room`, which quarantines the room when its
outcome is unknown; the plain lookups do not. -/
def persists : Waiting → Bool
  | replyLookup _ _ | editLookup _ _ | removalLookup _ | readPins _ => false
  | _ => true

def work (size : ChatEntry → ℕ) (room : RoomId) (actor : ParticipantId)
    (around : Surroundings) : Waiting → Sql Returning
  | replyLookup attempt id => do
      let found ← lookupPublic room id
      pure (.replyFound attempt (found.map Prod.fst))
  | persistChat chat => do
      let message ← persistMessage
        (if chat.message.recipientId.isNone then some room else none)
        chat.senderSession chat.senderAuthenticated around.now around.uploads
        chat.message chat.attachmentIds
      pure (.chatSaved (chat.saved size message))
  | attachFiles chat => do
      let files ← bindEphemeral around.uploads chat.attachmentIds
      pure (.chatSaved (chat.attach size files))
  | editLookup id request => do
      let found ← lookupPublic room id
      pure (.editFound request (found.map Prod.fst))
  | persistEdit original request guestSession => do
      let message ← SimplestChat.editSaved room actor guestSession original
        around.now request
      pure (.editSaved message)
  | removalLookup id => do
      let found ← lookupPublic room id
      pure (.removalFound id found)
  | persistRemoval id removedAt keepsHistory event => do
      SimplestChat.persistRemoval room keepsHistory id removedAt event
      pure (.removalSaved id removedAt)
  | dropFiles id removedAt => do
      -- attachments are not part of the model
      autocommit fun db => (db, ())
      pure (.removalSaved id removedAt)
  | setPin id pinned => do
      SimplestChat.setPin room id pinned
      pure .pinSet
  | readPins changed => do
      let pins ← autocommit fun db => (db, db.pinnedMessages room)
      pure (.pinsRead changed pins)
  | reactPublic id emoji ignored => do
      let message ← SimplestChat.reactPublic room id actor ignored emoji
      pure (.reactedPublic id emoji message)
  | saveReactions id reactions => do
      SimplestChat.saveReactions id reactions
      pure (.reactionsSaved id reactions)
  | retention days => do
      setRetention room days (sentBefore around.now days)
      pure (.retentionSet days)

end Waiting

/-! ## Turns -/

structure Acceptance where
  session : SessionId
  sequence : Option ℕ
  message : MessageId
deriving DecidableEq

/-- What a turn under the room's lock comes to: the room, the frames it
queues, what the request waits for next, the committed private edit that other
rooms must complete, and the message it accepts. -/
structure Turn where
  room : ChatRoom
  frames : List Frame := []
  next : Option Waiting := none
  edited : Option ChatEntry := none
  accepted : Option Acceptance := none
deriving DecidableEq

namespace Turn

def fail (room : ChatRoom) (requester : Requester) (failure : SocialFailure) : Turn :=
  { room, frames := [requester.frame (.socialError failure)] }

def respond (room : ChatRoom) (requester : Requester) (published : List Frame)
    (response : SocialResponse) : Turn :=
  { room, frames := published ++ [requester.frame (.socialResponse response)] }

def await (room : ChatRoom) (requester : Requester) (pool : Bool)
    (missing : String) (next : Waiting) : Turn :=
  if pool then { room, next := some next }
  else fail room requester (.refused (.unavailable missing))

end Turn

namespace ChatRoom

section Sized

variable (size : ChatEntry → ℕ) (room : ChatRoom) (requester : Requester)
  (pool : Bool) (around : Surroundings)

/-! ### Sending -/

def finishTurn (chat : PreparedChat) : Turn :=
  match room.finishChatAttempt size requester chat around.delivered with
  | .error failure => .fail room requester failure
  | .ok (finished, frames) =>
    { room := finished
      frames
      accepted :=
        some ⟨chat.senderSession, chat.sequence, chat.message.messageId⟩ }

def preparedTurn (chat : PreparedChat) : Turn :=
  if chat.persist then
    .await room requester pool "History unavailable" (.persistChat chat)
  else if chat.attachmentIds ≠ [] then
    .await room requester pool "Attachments unavailable" (.attachFiles chat)
  else room.finishTurn size requester around chat

/-- Prepare the attempt and go on with `proceed`. -/
def attemptTurn (attempt : ChatAttempt) (saved : Option ChatEntry)
    (fresh : MessageId) (proceed : ChatRoom → PreparedChat → Turn) : Turn :=
  match room.prepareChatAttempt size requester attempt saved fresh around with
  | (pruned, .error failure) => .fail pruned requester failure
  | (pruned, .ok (.answered message)) => { room := pruned, frames := [requester.frame message] }
  | (pruned, .ok (.prepared chat)) => proceed pruned chat

/-- Whether the attempt is saved, which `submit_chat_attempt` decides first. -/
def isDurable (attempt : ChatAttempt) : Bool :=
  pool &&
    match attempt.recipientId with
    | some recipient =>
      (room.member requester.participant).any Member.authenticated &&
        (room.member recipient).any Member.authenticated
    | none => room.persisted && room.keepsHistory

/-- An attempt that is not saved and has no files is prepared and finished in
one turn, without the room's control. -/
def isImmediate (attempt : ChatAttempt) : Bool :=
  !room.isDurable requester pool attempt && attempt.attachmentIds.isEmpty

def immediateTurn (attempt : ChatAttempt) (fresh : MessageId) : Turn :=
  room.attemptTurn size requester around attempt none fresh fun room chat =>
    room.finishTurn size requester around chat

def controlledTurn (attempt : ChatAttempt) (saved : Option ChatEntry) (fresh : MessageId) : Turn :=
  room.attemptTurn size requester around attempt saved fresh fun room chat =>
    room.preparedTurn size requester pool around chat

def submitTurn (attempt : ChatAttempt) (fresh : MessageId) : Turn :=
  match attempt.replyTo.filter fun _ =>
      attempt.recipientId.isNone && room.persisted && room.keepsHistory with
  | none => room.controlledTurn size requester pool around attempt none fresh
  | some id =>
    match room.participantForSender requester with
    | .error failure => .fail room requester failure
    | .ok actor =>
      match quoteReply room.social.history actor none id with
      | .ok _ => room.controlledTurn size requester pool around attempt none fresh
      | .error _ =>
        .await room requester pool "History unavailable"
          (.replyLookup attempt id)

/-! ### Edits -/

def publishEditTurn (message : ChatEntry) : Turn :=
  let published := room.publishEdit size message
  { Turn.respond published.1 requester published.2 (.editChatMessage message) with
    edited := some message }

def editIsDurable (actor : Member) (edited : ChatEntry) : Bool :=
  pool &&
    match edited.recipientId with
    | some peer => actor.authenticated && (room.member peer).any Member.authenticated
    | none => room.persisted && room.keepsHistory

def editTurn (actor : Member) (edited : ChatEntry) (request : EditRequest) : Turn :=
  if edited.participantId ≠ requester.participant then
    .fail room requester
      (.refused (.forbidden "Only the author can edit this message"))
  else if room.editIsDurable pool actor edited then
    { room
      next := some (.persistEdit edited request
        (if actor.authenticated then none else some actor.mediaSessionId)) }
  else
    match applyEdit around.now edited request with
    | .error text => .fail room requester (.refused (.invalid text))
    | .ok edited => room.publishEditTurn size requester edited

def beginEdit (actor : Member) (id : MessageId) (request : EditRequest) : Turn :=
  match room.prepareEdit actor id request around.now with
  | .error failure => .fail room requester failure
  | .ok (some edited) => room.editTurn size requester pool around actor edited request
  | .ok none =>
    if room.persisted && room.keepsHistory then
      .await room requester pool "History unavailable" (.editLookup id request)
    else .fail room requester (.refused (.unavailable "Message unavailable"))

/-! ### Pins -/

def changePins (change : MessageId × Bool) : Except SocialFailure (List ChatEntry) :=
  let pins := room.social.pins
  if change.2 then
    if pins.any fun pin => pin.messageId = change.1 then .ok pins
    else if 3 ≤ pins.length then
      .error (.refused (.forbidden
        "Unpin a message before pinning another; rooms keep up to three"))
    else
      match room.social.history.find? fun entry =>
          entry.message.messageId = change.1 &&
            entry.message.recipientId.isNone && entry.message.removedAt.isNone with
      | none => .error (.refused (.unavailable "Public message unavailable"))
      | some entry => .ok (entry.message :: pins)
  else .ok (pins.filter fun pin => pin.messageId ≠ change.1)

def setPins (pins : List ChatEntry) : ChatRoom :=
  room.setSocial { room.social with pins }

def pinsTurn (actor : Member) (changed : Bool) (pins : List ChatEntry) : Turn :=
  let room := room.setPins pins
  let messages := pins.filter fun pin => !actor.ignores pin.participantId
  if changed then
    .respond room requester room.publishPins (.setPinnedMessage messages)
  else .respond room requester [] (.getPinnedMessages messages)

def beginPins (actor : Member) (change : Option (MessageId × Bool)) : Turn :=
  if change.isSome && actor.role.rank < Role.moderator.rank then
    .fail room requester
      (.refused (.forbidden "This action requires a room moderator"))
  else if room.persisted && room.keepsHistory then
    .await room requester pool "History unavailable"
      (match change with
        | some (id, pinned) => .setPin id pinned
        | none => .readPins false)
  else
    match change with
    | none => room.pinsTurn requester actor false room.social.pins
    | some change =>
      match room.changePins change with
      | .error failure => .fail room requester failure
      | .ok pins => room.pinsTurn requester actor true pins

/-! ### Removal -/

def removalTurn (id : MessageId) (removedAt : Time) : Turn :=
  let room := room.setSocial (room.social.removeMessage size id removedAt)
  .respond room requester
    (room.broadcast (fun _ => true) (.chatMessageRemoved id removedAt) ++ room.publishPins)
    (.removeChatMessage id removedAt)

/-- Remove a message that was found. The moderation history that an unsaved
room keeps in memory is not part of the model. -/
def removeFound (actor : Member) (id : MessageId) (original : ChatEntry)
    (authenticated : Bool) (eventId : ℕ) : Turn :=
  match original.removedAt with
  | some removedAt => room.removalTurn size requester id removedAt
  | none =>
    if room.persisted then
      .await room requester pool "Moderation unavailable"
        (.persistRemoval id around.now room.keepsHistory
          (.new ⟨eventId, around.now⟩ .messageRemoved ⟨actor.id, actor.name⟩
            ⟨.participant original.participantId, original.participantName, authenticated, none⟩
            (some ("Message " ++ toString id)) none none))
    else if pool then { room, next := some (.dropFiles id around.now) }
    else room.removalTurn size requester id around.now

def beginRemoval (actor : Member) (id : MessageId) (eventId : ℕ) : Turn :=
  if actor.role.rank < Role.moderator.rank then
    .fail room requester
      (.refused (.forbidden "This action requires a room moderator"))
  else
    match room.social.history.find? fun entry =>
        entry.message.messageId = id && entry.message.recipientId.isNone with
    | some entry =>
      room.removeFound size requester pool around actor id entry.message
        entry.senderAuthenticated eventId
    | none =>
      if room.persisted && room.keepsHistory then
        .await room requester pool "Chat history unavailable" (.removalLookup id)
      else .fail room requester (.refused (.notFound "Message not found"))

/-! ### Reactions -/

def publishReactionTurn (id : MessageId) (reactions : List ChatReaction) : Turn :=
  match room.publishReaction size id reactions with
  | .error failure => .fail room requester failure
  | .ok (published, frames) =>
    .respond published requester frames (.reactToMessage id reactions)

def reactsSaved (id : MessageId) : Bool :=
  room.persisted && room.keepsHistory &&
    (room.historyEntry id).all fun entry => entry.message.recipientId.isNone

/-- Toggle on the retained copy; the list is saved unless the saved row has
just been asked. -/
def reactTurn (id : MessageId) (emoji : String) (save : Bool) : Turn :=
  match room.prepareReaction requester.participant id emoji with
  | .error failure => .fail room requester failure
  | .ok reactions =>
    if save then { room, next := some (.saveReactions id reactions) }
    else room.publishReactionTurn size requester id reactions

def beginReaction (actor : Member) (id : MessageId) (emoji : String) : Turn :=
  if room.reactsSaved id then
    .await room requester pool "History unavailable"
      (.reactPublic id emoji actor.social.ignored)
  else room.reactTurn size requester id emoji pool

/-! ### Retention -/

def beginRetention (actor : Member) (days : ℕ) : Turn :=
  if actor.role.rank < Role.owner.rank then
    .fail room requester
      (.refused (.forbidden "This action requires a room moderator"))
  else if !room.persisted then
    .fail room requester
      (.refused (.forbidden "Only saved rooms can keep chat history"))
  else if days ∉ roomHistoryRetentionDays then
    .fail room requester
      (.refused (.invalid "Choose off, 1, 7, 30 or 90 days"))
  else .await room requester pool "History unavailable" (.retention days)

def retentionTurn (days : ℕ) : Turn :=
  match room.settings with
  | none => .fail room requester (.refused (.unavailable "Room settings unavailable"))
  | some settings =>
    let settings := { settings with historyRetentionDays := days }
    let social :=
      if days = 0 then { room.social with pins := [] } else room.social
    let room := { room with settings := some settings, social }
    .respond room requester
      (room.broadcast (fun _ => true) (.roomSettingsChanged settings) ++ room.publishPins)
      (.setRoomHistory days)

/-! ### The first turn -/

def snapshotTurn (actor : Member) : Turn :=
  .respond room requester []
    (.roomSnapshot ((room.social.history.filter fun entry =>
      visible entry actor).map HistoryEntry.message))

def rateRefusal : SocialRequest → Option Refusal
  | .snapshot | .pinned none => none
  | .edit _ _ | .react _ _ => some (.rateLimited "Room chat rate limit exceeded")
  | .pinned (some _) | .remove _ | .setHistory _ =>
    some (.rateLimited "Room requests are rate limited")

def socialTurn (actor : Member) (eventId : ℕ) : SocialRequest → Turn
  | .snapshot => room.snapshotTurn requester actor
  | .edit id request => room.beginEdit size requester pool around actor id request
  | .pinned change => room.beginPins requester pool actor change
  | .remove id => room.beginRemoval size requester pool around actor id eventId
  | .react id emoji => room.beginReaction size requester pool actor id emoji
  | .setHistory days => room.beginRetention requester pool actor days

def beginSocial (eventId : ℕ) (request : SocialRequest) : Turn :=
  match room.participantForSender requester with
  | .error failure => .fail room requester failure
  | .ok actor =>
    match (rateRefusal request).filter fun _ => !around.withinRate with
    | some refusal => .fail room requester (.refused refusal)
    | none => room.socialTurn size requester pool around actor eventId request

/-- The first turn of a request. `fresh` is the random ID it may use. -/
def beginTurn (fresh : MessageId) : ChatRequest → Turn
  | .chat attempt =>
    if room.isImmediate requester pool attempt then
      room.immediateTurn size requester around attempt fresh
    else room.submitTurn size requester pool around attempt fresh
  | .social request => room.beginSocial size requester pool around fresh request

/-! ### Later turns -/

/-- The turn after the database has answered, for the member that the
connection still owns. -/
def resumeFor (actor : Member) (fresh : MessageId) : Returning → Turn
  | .replyFound attempt saved =>
    room.controlledTurn size requester pool around attempt saved fresh
  | .chatSaved chat => room.finishTurn size requester around chat
  | .editFound request found =>
    match found with
    | none => .fail room requester (.refused (.unavailable "Message unavailable"))
    | some message => room.editTurn size requester pool around actor message request
  | .editSaved message => room.publishEditTurn size requester message
  | .removalFound id found =>
    match found with
    | none => .fail room requester (.refused (.notFound "Message not found"))
    | some (original, authenticated) =>
      room.removeFound size requester pool around actor id original
        authenticated fresh
  | .removalSaved id removedAt => room.removalTurn size requester id removedAt
  | .pinSet => { room, next := some (.readPins true) }
  | .pinsRead changed pins => room.pinsTurn requester actor changed pins
  | .reactedPublic id emoji message =>
    match message with
    | none => room.reactTurn size requester id emoji false
    | some message =>
      match room.publishSavedReaction size message with
      | .error failure => .fail room requester failure
      | .ok (published, frames) =>
        .respond published requester frames
          (.reactToMessage id message.reactions)
  | .reactionsSaved id reactions => room.publishReactionTurn size requester id reactions
  | .retentionSet days => room.retentionTurn requester days

/-- Take the room back: it must be live and the connection still own its
member. Between the two statements of a pin change the room is not looked at. -/
def resumeTurn (fresh : MessageId) (returning : Returning) : Turn :=
  match returning with
  | .pinSet => { room, next := some (.readPins true) }
  | returning =>
    match room.participantForSender requester with
    | .error failure => .fail room requester failure
    | .ok actor => room.resumeFor size requester pool around actor fresh returning

end Sized

end ChatRoom

end SimplestChat
