import SimplestChat.Room.Work

/-!
# Saved chat

The rest of the database work that chat asks for: saving a message, looking up
a public message, removing one, reading the pins, and the three writes that
arrive over HTTP for an account conversation (a message, an edit, a reaction).

Uploaded files have no table here. Where the server reads the metadata of the
attached uploads, the work takes as a parameter what it finds; the inbox
summaries of `chat_inbox` are left out, since no chat operation reads them.
-/

namespace SimplestChat

open Transaction Transaction.Tx

/-- `PRIVATE_MESSAGES_PER_MINUTE`. -/
def privateMessagesPerMinute : ℕ := 30

/-- `MAX_MESSAGE_FILES`. -/
def maxMessageFiles : ℕ := 4

def validIds (ids : List ℕ) : Bool :=
  ids.length ≤ maxMessageFiles && ids.Nodup

/-! ## Queries -/

namespace Database

def attemptRow (db : Database) (conversation : Conversation)
    (session : SessionId) (clientMessageId : String) : Option MessageRow :=
  db.messages.find? fun row =>
    row.conversation = conversation && row.senderSession = session &&
      row.body.clientMessageId = clientMessageId

def roomRow (db : Database) (room : RoomId) (id : MessageId) :
    Option MessageRow :=
  db.messages.find? fun row =>
    row.room = some room && row.body.messageId = id && !row.expired

def conversationRow (db : Database) (conversation : Conversation)
    (id : MessageId) : Option MessageRow :=
  db.messages.find? fun row =>
    row.conversation = conversation && row.body.messageId = id && !row.expired

def recentPrivateMessages (db : Database) (sender : ParticipantId)
    (now : Time) : ℕ :=
  db.messages.countP fun row =>
    row.senderAccount = some sender && row.body.recipientId.isSome &&
      now < row.body.sentAt + 60 * 1000

def pinnedMessages (db : Database) (room : RoomId) : List ChatEntry :=
  ((db.pins.reverse.filter fun pin => pin.room = room).filterMap fun pin =>
    (db.publicMessage room pin.message).map MessageRow.body).take 3

/-- `remove_public` on the rows: the message itself and every quote of it. -/
def redactPublic (room : RoomId) (id : MessageId) (removedAt : Time)
    (db : Database) : Database :=
  { db with
    messages := db.messages.map fun row =>
      if row.room = some room ∧ row.body.messageId = id ∧ row.expired = false then
        { row with body := row.body.erase (row.body.removedAt.getD removedAt) }
      else row }

def redactQuotes (room : RoomId) (id : MessageId) (db : Database) : Database :=
  { db with
    messages := db.messages.map fun row =>
      if row.room = some room then
        { row with body := row.body.requote id removedExcerpt }
      else row }

end Database

/-- `lookup_public`: the message and whether an account sent it. -/
def lookupPublic (room : RoomId) (id : MessageId) :
    Sql (Option (ChatEntry × Bool)) :=
  autocommit fun db =>
    (db, (db.roomRow room id).map fun row =>
      (row.body, row.senderAccount.isSome))

/-! ## Saving a message -/

/-- The conversation a message is saved under. A private message has no room
and needs an account. -/
def savedConversation (room : Option RoomId) (senderAuthenticated : Bool)
    (message : ChatEntry) : Option Conversation :=
  match room, message.recipientId with
  | some room, none => some (.room room)
  | none, some recipient =>
    if senderAuthenticated then
      some (privateConversation message.participantId recipient)
    else none
  | _, _ => none

def answerSaved (conversation : Conversation) (existing message : ChatEntry)
    (attachmentIds : List ℕ) : Sql ChatEntry :=
  if existing.removedAt.isNone &&
      (existing.attachments.map ChatAttachment.id ≠ attachmentIds ||
        (existing.editedAt.isNone &&
          (existing.content ≠ message.content ||
            existing.replyTo.map ChatReplyRef.messageId ≠
              message.replyTo.map ChatReplyRef.messageId))) then
    raise (.refused (.conflict "Message ID was already used"))
  else pure (conversationMessage conversation existing)

def reservePrivateMessage (message : ChatEntry) (now : Time) : Sql Unit :=
  if message.recipientId.isNone then pure ()
  else do
    -- the sender's advisory lock
    update fun db => db
    let recent ← query fun db =>
      db.recentPrivateMessages message.participantId now
    if privateMessagesPerMinute ≤ recent then
      raise (.refused (.rateLimited
        "Private messages are rate limited; wait a moment"))
    else pure ()

/-- `pending_metadata`, where `found` are the sender's pending uploads. -/
def pendingMetadata (found : List ChatAttachment) (ids : List ℕ) :
    Sql (List ChatAttachment) :=
  if !validIds ids then
    raise (.refused (.notFound "Attachment unavailable"))
  else if ids = [] then pure []
  else do
    let metadata ← query fun _ => found.filter fun file => file.id ∈ ids
    if metadata.length ≠ ids.length then
      raise (.refused (.notFound "Attachment unavailable"))
    else pure (ids.filterMap fun id => metadata.find? fun file => file.id = id)

def refreshReply (original : Option ChatEntry) (message : ChatEntry) :
    ChatEntry :=
  match original with
  | none => message
  | some original =>
    message.requote original.messageId
      (if original.removedAt.isSome then removedExcerpt
      else Text.quoteExcerpt original.content)

def refreshQuote (conversation : Conversation) (message : ChatEntry) :
    Sql ChatEntry :=
  match message.replyTo with
  | none => pure message
  | some reply => do
      let original ← query fun db => db.conversationRow conversation reply.messageId
      pure (refreshReply (original.map MessageRow.body) message)

/-- Insert the row. The conversation's advisory lock is held since the lookup
that found no row of this attempt, so its key is free. -/
def insertRow (room : Option RoomId) (conversation : Conversation)
    (senderSession : SessionId) (senderAuthenticated : Bool)
    (message : ChatEntry) : Sql ChatEntry := do
  update fun db =>
    { db with
      messages := db.messages ++
        [{ conversation
           room
           senderAccount :=
             if senderAuthenticated then some message.participantId else none
           senderSession
           expired := false
           body := message }] }
  pure message

/-- The branch of `insert_message` for an attempt without a saved row. -/
def insertNew (room : Option RoomId) (conversation : Conversation)
    (senderSession : SessionId) (senderAuthenticated : Bool) (now : Time)
    (found : List ChatAttachment) (message : ChatEntry)
    (attachmentIds : List ℕ) : Sql ChatEntry := do
  reservePrivateMessage message now
  if attachmentIds ≠ [] ∧ senderAuthenticated = false then
    raise (.refused (.forbidden "Sign in to attach files"))
  else do
    let attachments ← pendingMetadata found attachmentIds
    let quoted ← refreshQuote conversation { message with attachments }
    insertRow room conversation senderSession senderAuthenticated quoted

def insertMessage (room : Option RoomId) (senderSession : SessionId)
    (senderAuthenticated : Bool) (now : Time) (found : List ChatAttachment)
    (message : ChatEntry) (attachmentIds : List ℕ) : Sql ChatEntry :=
  match savedConversation room senderAuthenticated message with
  | none => raise (.refused (.invalid "Invalid saved conversation"))
  | some conversation => do
      -- the conversation's advisory lock
      update fun db => db
      let existing ← query fun db =>
        db.attemptRow conversation senderSession message.clientMessageId
      match existing with
      | some row => answerSaved conversation row.body message attachmentIds
      | none =>
        insertNew room conversation senderSession senderAuthenticated now found
          (conversationMessage conversation message) attachmentIds

/-- Both accounts of a private message must accept each other. -/
def admitPrivate (senderAuthenticated : Bool) (message : ChatEntry) :
    Sql Unit :=
  match message.recipientId with
  | none => pure ()
  | some recipient =>
    if message.participantId = recipient then
      raise (.refused (.unavailable "Private message unavailable"))
    else do
      let allowed ← query fun db =>
        db.privateAccountsAllow message.participantId recipient
      if !senderAuthenticated || !allowed then
        raise (.refused (.unavailable "Private message unavailable"))
      else pure ()

def persistMessage (room : Option RoomId) (senderSession : SessionId)
    (senderAuthenticated : Bool) (now : Time) (found : List ChatAttachment)
    (message : ChatEntry) (attachmentIds : List ℕ) : Sql ChatEntry := do
  begin
  admitPrivate senderAuthenticated message
  let saved ← insertMessage room senderSession senderAuthenticated now found
    message attachmentIds
  commit
  pure saved

/-- `bind_ephemeral`: the files of a message that is not saved. -/
def bindEphemeral (found : List ChatAttachment) (ids : List ℕ) :
    Sql (List ChatAttachment) := do
  begin
  let metadata ← pendingMetadata found ids
  -- attachments are not part of the model
  update fun db => db
  commit
  pure metadata

/-! ## Removal -/

/-- The statements that erase a saved message; a room that keeps no history
has none. -/
def removePublic (room : RoomId) (keepsHistory : Bool) (id : MessageId)
    (removedAt : Time) : Sql Unit :=
  if keepsHistory then do
    -- the conversation's advisory lock
    update fun db => db
    update (Database.redactPublic room id removedAt)
    -- attachments are not part of the model
    update fun db => db
    update (Database.redactQuotes room id)
    update (Database.deletePin room id)
  else pure ()

/-- The transaction of `remove_chat_message` in a saved room. -/
def persistRemoval (room : RoomId) (keepsHistory : Bool) (id : MessageId)
    (removedAt : Time) (event : ModerationEvent) : Sql Unit := do
  begin
  removePublic room keepsHistory id removedAt
  -- attachments are not part of the model
  update fun db => db
  recordEvent room event maxModerationEvents
  commit

/-! ## Account conversations over HTTP -/

/-- `private_message`: the latest saved copy of an account message. -/
def privateMessage (own peer : ParticipantId) (id : MessageId) :
    Sql (Option ChatEntry) :=
  autocommit fun db =>
    (db, ((db.conversationRow (privateConversation own peer) id).filter
      fun row => row.body.removedAt.isNone).map fun row =>
        conversationMessage (privateConversation own peer) row.body)

/-- `PrivateWrite::begin`: two accounts that exist. The checks of the
request's own session come with it and touch no chat row. -/
def beginPrivateWrite (own peer : ParticipantId) : Sql Unit := do
  begin
  let present ← query fun db =>
    own ≠ peer && (db.account own).isSome && (db.account peer).isSome
  if present then pure ()
  else raise (.refused (.unavailable "Private message unavailable"))

def requireAllowed (own peer : ParticipantId) : Sql Unit := do
  let allowed ← query fun db => db.privateAccountsAllow own peer
  if allowed then pure ()
  else raise (.refused (.unavailable "Private message unavailable"))

def savePrivateEdit (own peer : ParticipantId) (id : MessageId) (now : Time)
    (request : EditRequest) : Sql ChatEntry := do
  beginPrivateWrite own peer
  requireAllowed own peer
  -- the conversation's advisory lock
  update fun db => db
  editAndCommit (privateConversation own peer) own none id now request

def setSavedReaction (message : ChatEntry) (reactor : ParticipantId)
    (emoji : String) (present : Bool) : Sql ChatEntry :=
  match setReaction message.reactions reactor emoji present with
  | .error text => raise (.refused (.invalid text))
  | .ok reactions => do
      update (Database.updateMessage message.messageId fun body =>
        { body with reactions })
      commit
      pure { message with reactions }

def savePrivateReaction (own peer : ParticipantId) (id : MessageId)
    (emoji : String) (present : Bool) : Sql ChatEntry := do
  beginPrivateWrite own peer
  requireAllowed own peer
  -- the conversation's advisory lock, twice
  update fun db => db
  update fun db => db
  let saved ← query fun db =>
    (db.conversationRow (privateConversation own peer) id).filter fun row =>
      row.body.removedAt.isNone
  match saved with
  | none => raise (.database .rowNotFound)
  | some row =>
    setSavedReaction (conversationMessage (privateConversation own peer) row.body)
      own emoji present

def quoteSaved (conversation : Conversation) :
    Option MessageId → Sql (Option ChatReplyRef)
  | none => pure none
  | some id => do
      let original ← query fun db =>
        (db.conversationRow conversation id).filter fun row =>
          row.body.removedAt.isNone
      match original with
      | none => raise (.database .rowNotFound)
      | some row =>
        pure (some ⟨id, row.body.participantId, row.body.participantName,
          Text.quoteExcerpt row.body.content⟩)

structure SendRequest where
  clientMessageId : String
  content : Text
  attachmentIds : List ℕ
  replyTo : Option MessageId
deriving DecidableEq

/-- The entry of an HTTP message; `names` are the two display names. -/
def SendRequest.entry (request : SendRequest) (own peer : ParticipantId)
    (names : Option String × Option String) (replyTo : Option ChatReplyRef)
    (fresh : MessageId) (now : Time) : ChatEntry where
  messageId := fresh
  clientMessageId := request.clientMessageId
  participantId := own
  participantName := names.1.getD ""
  recipientId := some peer
  recipientName := names.2
  accountConversation := some true
  content := request.content
  attachments := []
  sentAt := now
  removedAt := none
  revision := 0
  editedAt := none
  replyTo
  reactions := []

def answerSent (conversation : Conversation) (request : SendRequest)
    (existing : ChatEntry) : Sql (ChatEntry × Bool) :=
  if (existing.editedAt.isNone && existing.content ≠ request.content) ||
      existing.replyTo.map ChatReplyRef.messageId ≠ request.replyTo ||
      existing.attachments.map ChatAttachment.id ≠ request.attachmentIds then
    raise (.refused (.invalid "Message ID was already used"))
  else pure (conversationMessage conversation existing, false)

def sendNew (own peer : ParticipantId) (request : SendRequest)
    (fresh : MessageId) (now : Time) (found : List ChatAttachment) :
    Sql (ChatEntry × Bool) := do
  requireAllowed own peer
  let replyTo ← quoteSaved (privateConversation own peer) request.replyTo
  let names ← query fun db =>
    ((db.account own).map AccountRow.displayName,
      (db.account peer).map AccountRow.displayName)
  let saved ← insertMessage none (.account own) true now found
    (request.entry own peer names replyTo fresh now) request.attachmentIds
  commit
  pure (saved, true)

/-- `save_private_message`: an HTTP message between two accounts. `fresh` is
its random message ID; the flag tells a new message from a repeated one. -/
def savePrivateMessage (own peer : ParticipantId) (request : SendRequest)
    (fresh : MessageId) (now : Time) (found : List ChatAttachment) :
    Sql (ChatEntry × Bool) := do
  beginPrivateWrite own peer
  -- the conversation's advisory lock
  update fun db => db
  let existing ← query fun db =>
    (db.attemptRow (privateConversation own peer) (.account own)
      request.clientMessageId).filter fun row => !row.expired
  match existing with
  | some row => answerSent (privateConversation own peer) request row.body
  | none => sendNew own peer request fresh now found

end SimplestChat
