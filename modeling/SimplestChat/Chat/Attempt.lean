import SimplestChat.Chat.Room
import SimplestChat.Chat.Saved

/-!
# Sending a chat message

An attempt is prepared in one turn under the room's lock: it is checked, told
apart from a repeated attempt, and turned into an entry. Another turn finishes
it: the entry is delivered, kept as a receipt and in the history, and the
membership's high-water mark moves to the attempt's sequence. A message that
is saved is written to the database between the two turns.
-/

namespace SimplestChat

/-- `MAX_CHAT_SEQUENCE`. -/
def maxChatSequence : ℕ := 9007199254740991

/-- 1 to 64 ASCII letters, digits, hyphens and underscores. -/
def validCorrelationId (value : String) : Bool :=
  value ≠ "" && value.utf8ByteSize ≤ 64 &&
    value.toList.all fun c => c.isAlphanum || c = '-' || c = '_'

/-- What a client asks to send. A missing client ID has been replaced by a
random one; a retry names the chat session it belongs to. -/
structure ChatAttempt where
  content : Text
  attachmentIds : List ℕ
  clientMessageId : String
  recipientId : Option ParticipantId
  sequence : Option ℕ
  retrySession : Option ℕ
  replyTo : Option MessageId
deriving DecidableEq

structure Recipient where
  id : ParticipantId
  name : String
  session : SessionId
  sender : SenderId
deriving DecidableEq

structure PreparedChat where
  message : ChatEntry
  attachmentIds : List ℕ
  senderSession : SessionId
  senderAuthenticated : Bool
  recipient : Option Recipient
  sequence : Option ℕ
  receiptBytes : ℕ
  now : Time
  persist : Bool
  durable : Bool
deriving DecidableEq

inductive Preparation where
  | answered (message : ServerMessage)
  | prepared (chat : PreparedChat)
deriving DecidableEq

/-- What the outside contributes to a turn: the clock, the room's rate window,
whether the recipient's queue takes a private message, and the sender's pending
uploads. -/
structure Surroundings where
  now : Time
  withinRate : Bool
  delivered : Bool
  uploads : List ChatAttachment
deriving DecidableEq

namespace ChatAttempt

def check (attempt : ChatAttempt) : Except SocialFailure Unit :=
  if (Text.isBlank attempt.content && attempt.attachmentIds.isEmpty) ||
      4096 < Text.byteLength attempt.content then
    .error (.refused (.invalid "Message must contain 1–4096 bytes of text"))
  else if !Text.isPlainText attempt.content then
    .error (.refused (.invalid "Message contains hidden formatting characters"))
  else if !validIds attempt.attachmentIds then
    .error (.refused (.invalid "Attach at most four different files"))
  else if !validCorrelationId attempt.clientMessageId then
    .error (.refused (.invalid "Invalid message ID"))
  else if attempt.sequence.any fun n => n = 0 || maxChatSequence < n then
    .error (.refused (.invalid "Invalid chat attempt"))
  else .ok ()

def conflictsWith (attempt : ChatAttempt) (existing : ChatEntry) : Bool :=
  (existing.removedAt.isNone && existing.editedAt.isNone &&
    (existing.content ≠ attempt.content ||
      existing.replyTo.map ChatReplyRef.messageId ≠ attempt.replyTo)) ||
  (existing.removedAt.isNone &&
    existing.attachments.map ChatAttachment.id ≠ attempt.attachmentIds) ||
  existing.recipientId ≠ attempt.recipientId

def unknown (attempt : ChatAttempt) (reason : ChatRetryReason) : Preparation :=
  .answered (.messageRetryResult attempt.clientMessageId reason)

def answerReceipt (attempt : ChatAttempt) (receipt : ChatReceipt) :
    Except SocialFailure Preparation :=
  if attempt.conflictsWith receipt.message ||
      receipt.sequence ≠ attempt.sequence then
    if attempt.retrySession.isNone then
      .error (.refused (.invalid "Message ID was already used"))
    else .ok (attempt.unknown .conflict)
  else .ok (.answered receipt.message.ack)

def answerRetained (attempt : ChatAttempt) (entry : HistoryEntry) :
    Except SocialFailure Preparation :=
  if attempt.conflictsWith entry.message then
    .error (.refused (.invalid "Message ID was already used"))
  else .ok (.answered entry.message.ack)

def supersededBy (attempt : ChatAttempt) (highWater : ℕ) : Option ChatRetryReason :=
  attempt.sequence.bind fun sequence =>
    if sequence ≤ highWater then
      some (if sequence = highWater then .receiptExpired else .sequenceSuperseded)
    else none

end ChatAttempt

namespace ChatRoom

/-! ## Preparing -/

def receiptOf (room : ChatRoom) (session : SessionId)
    (clientMessageId : String) : Option ChatReceipt :=
  room.social.receipts.find? fun entry =>
    entry.senderSession = session &&
      entry.message.clientMessageId = clientMessageId

def retainedOf (room : ChatRoom) (session : SessionId)
    (clientMessageId : String) : Option HistoryEntry :=
  room.social.history.find? fun entry =>
    entry.senderSession = session &&
      entry.message.clientMessageId = clientMessageId

def resolveRecipient (room : ChatRoom) (sender : Member) :
    Option ParticipantId → Except SocialFailure (Option Recipient)
  | none => .ok none
  | some id =>
    match room.member id with
    | none => .error (.refused (.unavailable "Private message unavailable"))
    | some recipient =>
      if canPrivateMessage sender recipient then
        .ok (some ⟨recipient.id, recipient.name, recipient.mediaSessionId, recipient.sender⟩)
      else .error (.refused (.unavailable "Private message unavailable"))

def resolveReply (room : ChatRoom) (sender : Member)
    (recipientId : Option ParticipantId) (saved : Option ChatEntry) :
    Option MessageId → Except SocialFailure (Option ChatReplyRef)
  | none => .ok none
  | some id =>
    match quoteReply room.social.history sender recipientId id with
    | .ok reply => .ok (some reply)
    | .error failure =>
      match saved.filter fun original =>
          recipientId.isNone && original.messageId = id with
      | none => .error failure
      | some original =>
        match savedPublicReply original sender with
        | .ok reply => .ok (some reply)
        | .error failure => .error failure

def persists (room : ChatRoom) (sender : Member) (recipientId : Option ParticipantId) : Bool :=
  match recipientId with
  | some id => sender.authenticated && (room.member id).any Member.authenticated
  | none => room.persisted && room.keepsHistory

def newEntry (attempt : ChatAttempt) (sender : Member)
    (recipient : Option Recipient) (replyTo : Option ChatReplyRef)
    (fresh : MessageId) (sentAt : Time) : ChatEntry where
  messageId := fresh
  clientMessageId := attempt.clientMessageId
  participantId := sender.id
  participantName := sender.name
  recipientId := attempt.recipientId
  recipientName := recipient.map Recipient.name
  accountConversation := none
  content := attempt.content
  attachments := []
  sentAt
  removedAt := none
  revision := 0
  editedAt := none
  replyTo
  reactions := []

section Sized

variable (size : ChatEntry → ℕ)

/-- Turn an admitted attempt into an entry with the random ID `fresh`. -/
def composeChat (room : ChatRoom) (sender : Member) (attempt : ChatAttempt)
    (saved : Option ChatEntry) (fresh : MessageId) (around : Surroundings) :
    Except SocialFailure Preparation :=
  match room.resolveRecipient sender attempt.recipientId with
  | .error failure => .error failure
  | .ok recipient =>
    match room.resolveReply sender attempt.recipientId saved attempt.replyTo with
    | .error failure => .error failure
    | .ok replyTo =>
      let message :=
        newEntry attempt sender recipient replyTo fresh around.now
      if chatReceiptByteLimit < size message then
        if attempt.retrySession.isSome then .ok (attempt.unknown .capacity)
        else
          .error (.refused (.invalid
            "Chat confirmation exceeds its size limit"))
      else if recipient.isNone && !around.withinRate then
        .error (.refused (.rateLimited "Room chat rate limit exceeded"))
      else
        .ok (.prepared
          { message
            attachmentIds := attempt.attachmentIds
            senderSession := sender.mediaSessionId
            senderAuthenticated := sender.authenticated
            recipient
            sequence := attempt.sequence
            receiptBytes := size message
            now := around.now
            persist := room.persists sender attempt.recipientId
            durable := false })

def admitAttempt (room : ChatRoom) (sender : Member) (attempt : ChatAttempt)
    (saved : Option ChatEntry) (fresh : MessageId) (around : Surroundings) :
    Except SocialFailure Preparation :=
  match attempt.supersededBy sender.social.chatHighWater with
  | some reason => .ok (attempt.unknown reason)
  | none =>
    -- without a receipt the recipient's original membership is not known
    if attempt.retrySession.isSome && attempt.recipientId.isSome then
      .ok (attempt.unknown .recipientUnconfirmed)
    else if !room.canChat sender then
      .error (.refused (.forbidden "You are not allowed to chat"))
    else
      match room.retainedOf sender.mediaSessionId attempt.clientMessageId with
      | some entry => attempt.answerRetained entry
      | none => room.composeChat size sender attempt saved fresh around

def prepareFor (room : ChatRoom) (sender : Member) (attempt : ChatAttempt)
    (saved : Option ChatEntry) (fresh : MessageId) (around : Surroundings) :
    Except SocialFailure Preparation :=
  if attempt.attachmentIds ≠ [] ∧ sender.authenticated = false then
    .error (.refused (.forbidden "Sign in to attach files"))
  else if attempt.retrySession.any fun session =>
      session ≠ sender.social.chatSessionId then
    .ok (attempt.unknown .sessionChanged)
  else
    match room.receiptOf sender.mediaSessionId attempt.clientMessageId with
    | some receipt => attempt.answerReceipt receipt
    | none => room.admitAttempt size sender attempt saved fresh around

/-- `prepare_chat_attempt_with_saved_reply`. Expired receipts are dropped even
when the attempt is refused after that. -/
def prepareChatAttempt (room : ChatRoom) (requester : Requester)
    (attempt : ChatAttempt) (saved : Option ChatEntry) (fresh : MessageId)
    (around : Surroundings) : ChatRoom × Except SocialFailure Preparation :=
  match attempt.check with
  | .error failure => (room, .error failure)
  | .ok () =>
    if room.deleting then (room, .error (.other "Room is being deleted"))
    else
      let pruned := room.setSocial (room.social.pruneReceipts around.now)
      match pruned.participantForSender requester with
      | .error failure => (pruned, .error failure)
      | .ok sender => (pruned, pruned.prepareFor size sender attempt saved fresh around)

/-! ## Finishing -/

def delivery (room : ChatRoom) (chat : PreparedChat) (sender : ParticipantId)
    (delivered : Bool) : List Frame :=
  match chat.recipient with
  | some recipient =>
    if delivered then
      [⟨recipient.id, recipient.sender, .privateMessageReceived chat.message⟩]
    else []
  | none =>
    room.broadcast (fun p => p.id ≠ sender && !p.ignores sender)
      chat.message.received

def advanceHighWater (room : ChatRoom) (id : ParticipantId) (sequence : Option ℕ) : ChatRoom :=
  match sequence with
  | none => room
  | some sequence =>
    { room with
      participants := room.participants.map fun p =>
        if p.id = id then
          { p with social := { p.social with chatHighWater := sequence } }
        else p }

def keepMessage (chat : PreparedChat) (s : RoomSocial) : RoomSocial :=
  ((s.makeReceiptRoom chat.senderSession chat.receiptBytes).pushReceipt
      ⟨chat.senderSession, chat.sequence, chat.now, chat.receiptBytes,
        chat.message⟩).remember size chat.senderSession
    (chat.recipient.map Recipient.session) chat.senderAuthenticated chat.message

def finishChatAttempt (room : ChatRoom) (requester : Requester)
    (chat : PreparedChat) (delivered : Bool) :
    Except SocialFailure (ChatRoom × List Frame) :=
  if chat.recipient.isSome && !chat.durable && !delivered then
    .error (.refused (.rateLimited "Connection is busy; please retry"))
  else
    .ok ((room.setSocial (keepMessage size chat room.social)).advanceHighWater
        requester.participant chat.sequence,
      room.delivery chat requester.participant delivered ++ [requester.frame chat.message.ack])

end Sized

end ChatRoom

end SimplestChat
