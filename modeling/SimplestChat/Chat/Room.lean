import SimplestChat.Chat.Social

/-!
# Chat in a runtime room

What chat reads and changes while it holds the room's lock: who may see an
entry, how a reply is quoted, how an attempt to send is checked, and what is
published to the members. Every function here is one turn under the lock or a
part of one; what happens between two turns is in `Chat.System`.

A frame is labelled with the participant and the connection it is queued for.
Queues may be full: a lost frame is not told apart from a queued one, except
where the server itself asks.
-/

namespace SimplestChat

/-! ## Members -/

structure ParticipantSocial where
  connected : Bool
  chatSessionId : ℕ
  chatHighWater : ℕ
  joinedSequence : ℕ
  allowPrivateMessages : Bool
  ignored : List ParticipantId
deriving DecidableEq

structure Member where
  id : ParticipantId
  name : String
  role : Role
  authenticated : Bool
  sender : SenderId
  mediaSessionId : SessionId
  textMuted : Bool
  social : ParticipantSocial
deriving DecidableEq

structure ChatSettings where
  allowChat : Bool
  moderated : Bool
  historyRetentionDays : ℕ
deriving DecidableEq

/-- What the chat reads of a live room. -/
structure ChatRoom where
  id : RoomId
  deleting : Bool
  persisted : Bool
  settings : Option ChatSettings
  participants : List Member
  social : RoomSocial
deriving DecidableEq

structure Requester where
  participant : ParticipantId
  sender : SenderId
deriving DecidableEq

/-! ## Answers -/

inductive SocialFailure where
  | refused (refusal : Refusal)
  /-- `RequestFailed` -/
  | failed (message : String)
  /-- an error without a code of its own -/
  | other (message : String)
  | database (error : SqlxError)
deriving DecidableEq

def SocialFailure.ofRoomError : RoomError → SocialFailure
  | .refused refusal => .refused refusal
  | .database error => .database error

inductive ChatRetryReason where
  | sessionChanged | conflict | receiptExpired | sequenceSuperseded
  | recipientUnconfirmed | capacity | storageUnconfirmed
deriving DecidableEq

inductive SocialResponse where
  /-- the messages of a `RoomSnapshot` -/
  | roomSnapshot (messages : List ChatEntry)
  | editChatMessage (message : ChatEntry)
  | getPinnedMessages (messages : List ChatEntry)
  | setPinnedMessage (messages : List ChatEntry)
  | removeChatMessage (message : MessageId) (removedAt : Time)
  | reactToMessage (message : MessageId) (reactions : List ChatReaction)
  | setRoomHistory (retentionDays : ℕ)
deriving DecidableEq

inductive ServerMessage where
  | chatReceived (participantId : ParticipantId) (participantName : String)
      (content : Text) (attachments : List ChatAttachment)
      (messageId : MessageId) (clientMessageId : String) (sentAt : Time)
      (removedAt : Option Time) (revision : ℕ) (editedAt : Option Time)
      (replyTo : Option ChatReplyRef)
  | privateMessageReceived (message : ChatEntry)
  | messageAck (clientMessageId : String) (message : ChatEntry)
  /-- the outcome of such a retry is always `Unknown` -/
  | messageRetryResult (clientMessageId : String) (reason : ChatRetryReason)
  | messageReactions (message : MessageId) (reactions : List ChatReaction)
  | chatMessageEdited (message : ChatEntry)
  | chatMessageRemoved (message : MessageId) (removedAt : Time)
  | pinnedMessagesChanged (messages : List ChatEntry)
  | roomSettingsChanged (settings : ChatSettings)
  | socialResponse (response : SocialResponse)
  | socialError (failure : SocialFailure)
deriving DecidableEq

structure Frame where
  participant : ParticipantId
  sender : SenderId
  message : ServerMessage
deriving DecidableEq

def Member.frame (member : Member) (message : ServerMessage) : Frame :=
  ⟨member.id, member.sender, message⟩

def Requester.frame (requester : Requester) (message : ServerMessage) : Frame :=
  ⟨requester.participant, requester.sender, message⟩

/-- `ChatReceived` for a public message. -/
def ChatEntry.received (message : ChatEntry) : ServerMessage :=
  .chatReceived message.participantId message.participantName message.content
    message.attachments message.messageId message.clientMessageId message.sentAt
    message.removedAt message.revision message.editedAt message.replyTo

def ChatEntry.ack (message : ChatEntry) : ServerMessage :=
  .messageAck message.clientMessageId message

/-! ## Who sees what -/

namespace Member

def ignores (member : Member) (id : ParticipantId) : Bool :=
  id ∈ member.social.ignored

/-- `accepts_inbox_from`. -/
def acceptsInboxFrom (member : Member) (peer : ParticipantId) : Bool :=
  member.social.connected && member.social.allowPrivateMessages &&
    !member.ignores peer

end Member

def visible (entry : HistoryEntry) (viewer : Member) : Bool :=
  if entry.sequence < viewer.social.joinedSequence then false
  else if entry.message.recipientId.isSome then
    entry.senderSession = viewer.mediaSessionId ||
      entry.recipientSession = some viewer.mediaSessionId
  else !viewer.ignores entry.message.participantId

def canPrivateMessage (sender recipient : Member) : Bool :=
  sender.id ≠ recipient.id && recipient.social.allowPrivateMessages &&
    !recipient.ignores sender.id && !sender.ignores recipient.id

/-! ## Quotes -/

def sameConversation (message : ChatEntry) (sender : ParticipantId) : Option ParticipantId → Bool
  | none => message.recipientId.isNone
  | some recipient =>
    match message.recipientId with
    | none => false
    | some other =>
      recipient ∈ [message.participantId, other] &&
        sender ∈ [message.participantId, other]

def replyReference (message : ChatEntry) (sender : Member)
    (recipientId : Option ParticipantId) : Except SocialFailure ChatReplyRef :=
  if message.removedAt.isSome then
    .error (.refused (.notFound "That message has been removed"))
  else if sameConversation message sender.id recipientId then
    .ok ⟨message.messageId, message.participantId, message.participantName,
      Text.quoteExcerpt message.content⟩
  else
    .error (.refused (.invalid
      "Reply within the conversation the message belongs to"))

def quoteReply (history : List HistoryEntry) (sender : Member)
    (recipientId : Option ParticipantId) (id : MessageId) :
    Except SocialFailure ChatReplyRef :=
  match history.reverse.find? fun entry =>
      entry.message.messageId = id && visible entry sender with
  | none =>
    .error (.refused (.notFound
      "That message is no longer available to reply to"))
  | some original => replyReference original.message sender recipientId

def savedPublicReply (message : ChatEntry) (sender : Member) : Except SocialFailure ChatReplyRef :=
  if message.recipientId.isSome || sender.ignores message.participantId then
    .error (.refused (.notFound
      "That message is no longer available to reply to"))
  else replyReference message sender none

namespace ChatRoom

def member (room : ChatRoom) (id : ParticipantId) : Option Member :=
  room.participants.find? fun p => p.id = id

def participantForSender (room : ChatRoom) (requester : Requester) : Except SocialFailure Member :=
  if room.deleting then .error (.other "Room is being deleted")
  else
    match room.member requester.participant with
    | none => .error (.other "Participant is not an active member of this room")
    | some member =>
      if member.sender = requester.sender then .ok member
      else
        .error (.other "This connection no longer owns the participant session")

def keepsHistory (room : ChatRoom) : Bool :=
  room.settings.any fun settings => 0 < settings.historyRetentionDays

def canChat (room : ChatRoom) (member : Member) : Bool :=
  let moderated := room.settings.any ChatSettings.moderated
  !(room.settings.any fun settings => !settings.allowChat) &&
    !member.textMuted && (!moderated || Role.member.rank ≤ member.role.rank)

def broadcast (room : ChatRoom) (test : Member → Bool) (message : ServerMessage) : List Frame :=
  (room.participants.filter test).map fun member => member.frame message

def historyEntry (room : ChatRoom) (id : MessageId) : Option HistoryEntry :=
  room.social.history.find? fun entry => entry.message.messageId = id

/-! ## Pins and edits -/

def publishPins (room : ChatRoom) : List Frame :=
  room.participants.map fun viewer =>
    viewer.frame (.pinnedMessagesChanged
      (room.social.pins.filter fun pin => !viewer.ignores pin.participantId))

/-- Only the author edits, and a guest only in the session that sent it. -/
def mayEdit (actor : Member) (entry : HistoryEntry) : Bool :=
  entry.message.participantId = actor.id &&
    (actor.authenticated || entry.senderSession = actor.mediaSessionId) &&
    (entry.message.recipientId.isNone || visible entry actor)

/-- A private message is edited while its recipient is here and agrees. -/
def editReaches (room : ChatRoom) (actor : Member) (message : ChatEntry) :
    Except SocialFailure Unit :=
  match message.recipientId with
  | none => .ok ()
  | some peer =>
    match room.member peer with
    | none => .error (.refused (.forbidden "Edit this saved conversation in Messages"))
    | some recipient =>
      if canPrivateMessage actor recipient then .ok ()
      else .error (.refused (.unavailable "Private message unavailable"))

/-- The author's edit of a retained message; `none` if it is not retained. -/
def prepareEdit (room : ChatRoom) (actor : Member) (id : MessageId)
    (request : EditRequest) (now : Time) :
    Except SocialFailure (Option ChatEntry) :=
  if !room.canChat actor then
    .error (.refused (.forbidden "You are not allowed to chat"))
  else
    match room.historyEntry id with
    | none => .ok none
    | some entry =>
      if !mayEdit actor entry then
        .error (.refused (.forbidden "Only the author can edit this message"))
      else
        match room.editReaches actor entry.message with
        | .error failure => .error failure
        | .ok () =>
          match applyEdit now entry.message request with
          | .error text => .error (.refused (.invalid text))
          | .ok edited => .ok (some edited)

/-- Who is told about an edit: whoever sees the retained private entry, or
every member that does not ignore the author. -/
def editViewers (room : ChatRoom) (message : ChatEntry) : Member → Bool :=
  fun viewer =>
    if message.recipientId.isSome then
      (room.historyEntry message.messageId).any fun entry => visible entry viewer
    else !viewer.ignores message.participantId

section Sized

variable (size : ChatEntry → ℕ)

def setSocial (room : ChatRoom) (social : RoomSocial) : ChatRoom := { room with social }

def publishEdit (room : ChatRoom) (message : ChatEntry) : ChatRoom × List Frame :=
  (room.setSocial (room.social.editMessage size message),
    room.broadcast (room.editViewers message) (.chatMessageEdited message))

/-! ## Reactions -/

def prepareReaction (room : ChatRoom) (participant : ParticipantId)
    (id : MessageId) (emoji : String) :
    Except SocialFailure (List ChatReaction) :=
  match room.member participant with
  | none => .error (.refused (.notFound "Participant not found"))
  | some actor =>
    match room.social.history.find? fun entry =>
        entry.message.messageId = id && visible entry actor with
    | none => .error (.refused (.notFound "That message is no longer available"))
    | some entry =>
      if entry.message.removedAt.isSome then
        .error (.refused (.notFound "That message has been removed"))
      else
        match toggleReactions entry.message.reactions participant emoji with
        | .error text => .error (.refused (.invalid text))
        | .ok reactions => .ok reactions

def publishReaction (room : ChatRoom) (id : MessageId) (reactions : List ChatReaction) :
    Except SocialFailure (ChatRoom × List Frame) :=
  match room.historyEntry id with
  | none => .error (.refused (.notFound "That message is no longer available"))
  | some entry =>
    if entry.message.removedAt.isSome then
      .error (.refused (.notFound "That message has been removed"))
    else
      .ok (room.setSocial (room.social.setReactions size id reactions),
        room.broadcast (visible entry) (.messageReactions id reactions))

def publishSavedReaction (room : ChatRoom) (message : ChatEntry) :
    Except SocialFailure (ChatRoom × List Frame) :=
  if message.recipientId.isSome || message.removedAt.isSome then
    .error (.refused (.unavailable "Public message unavailable"))
  else
    .ok (room.setSocial
        ((room.social.reconcileReactions size message).setPinReactions message),
      room.broadcast
        (fun viewer =>
          viewer.social.connected && !viewer.ignores message.participantId)
        (.messageReactions message.messageId message.reactions))

end Sized

end ChatRoom

end SimplestChat
