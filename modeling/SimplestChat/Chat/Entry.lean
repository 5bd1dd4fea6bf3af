import SimplestChat.Chat.Text
import SimplestChat.Room.State

/-!
# Chat entries

A `ChatEntry` is the one record of a message: the bounded history, the
deduplication receipts, the pins and the saved rows all hold copies of it.
This file has the pure functions that change one copy: an edit, a moderator's
removal, a toggled or requested reaction.
-/

namespace SimplestChat

abbrev MessageId := ℕ

/-- Milliseconds of the server clock. -/
abbrev Time := ℕ

structure ChatAttachment where
  id : ℕ
  name : String
  contentType : String
  size : ℕ
deriving DecidableEq

structure ChatReplyRef where
  messageId : MessageId
  participantId : ParticipantId
  participantName : String
  excerpt : Text
deriving DecidableEq

structure ChatReaction where
  emoji : String
  participantIds : List ParticipantId
deriving DecidableEq

structure ChatEntry where
  messageId : MessageId
  clientMessageId : String
  participantId : ParticipantId
  participantName : String
  recipientId : Option ParticipantId
  recipientName : Option String
  accountConversation : Option Bool
  content : Text
  attachments : List ChatAttachment
  sentAt : Time
  removedAt : Option Time
  revision : ℕ
  editedAt : Option Time
  replyTo : Option ChatReplyRef
  reactions : List ChatReaction
deriving DecidableEq

def removedExcerpt : Text := "Message removed".toList

def ChatEntry.requote (id : MessageId) (excerpt : Text) (message : ChatEntry) : ChatEntry :=
  { message with
    replyTo := message.replyTo.map fun reply =>
      if reply.messageId = id then { reply with excerpt } else reply }

/-! ## Edits -/

structure EditRequest where
  content : Text
  expectedRevision : ℕ
deriving DecidableEq

/-- Editing never changes identity, order, delivery receipts or conversation.
A retry of an edit that has already been applied is accepted unchanged. -/
def applyEdit (now : Time) (message : ChatEntry) (request : EditRequest) :
    Except String ChatEntry :=
  if (Text.isBlank request.content && message.attachments.isEmpty) ||
      4096 < Text.byteLength request.content then
    .error "Message must contain 1–4096 bytes of text"
  else if !Text.isPlainText request.content then
    .error "Message contains hidden formatting characters"
  else if message.removedAt.isSome then
    .error "That message has been removed"
  else if message.revision ≠ request.expectedRevision then
    -- The previous attempt committed but its response was lost.
    if request.expectedRevision + 1 < 2 ^ 32 ∧ request.expectedRevision + 1 = message.revision ∧
        message.content = request.content then
      .ok message
    else .error "This message changed. Reload it before editing again"
  else if message.content = request.content then .ok message
  else if message.revision + 1 < 2 ^ 32 then
    .ok { message with
      revision := message.revision + 1
      content := request.content
      editedAt := some now }
  else .error "This message cannot be edited again"

/-! ## Reactions -/

def offeredReactions : List String := ["👍", "❤️", "😂", "😮", "😢", "🎉", "🔥", "👏"]

/-- `MESSAGE_REACTIONS`. -/
def messageReactions : ℕ := 64

def reactionTotal (reactions : List ChatReaction) : ℕ :=
  (reactions.map fun r => r.participantIds.length).sum

def hasReaction (reactions : List ChatReaction) (reactor : ParticipantId) (emoji : String) : Bool :=
  reactions.any fun r => r.emoji = emoji && r.participantIds.contains reactor

/-- Take back one person's reaction from the first record of this emoji; a
record without people goes away. -/
def withdrawReaction (reactor : ParticipantId) (emoji : String) :
    List ChatReaction → List ChatReaction
  | [] => []
  | r :: rest =>
    if r.emoji = emoji then
      let people := r.participantIds.filter fun id => id ≠ reactor
      if people.isEmpty then rest else { r with participantIds := people } :: rest
    else r :: withdrawReaction reactor emoji rest

/-- Add one person's reaction to the first record of this emoji, or start a
record at the end. -/
def addReaction (reactor : ParticipantId) (emoji : String) : List ChatReaction → List ChatReaction
  | [] => [⟨emoji, [reactor]⟩]
  | r :: rest =>
    if r.emoji = emoji then
      { r with participantIds := r.participantIds ++ [reactor] } :: rest
    else r :: addReaction reactor emoji rest

def toggleReactions (current : List ChatReaction) (reactor : ParticipantId) (emoji : String) :
    Except String (List ChatReaction) :=
  if emoji ∉ offeredReactions then .error "Choose one of the offered reactions"
  else
    match current.find? fun r => r.emoji = emoji with
    | some r =>
      if r.participantIds.contains reactor then
        .ok (withdrawReaction reactor emoji current)
      else if messageReactions ≤ reactionTotal current then
        .error "This message has all the reactions it can hold"
      else .ok (addReaction reactor emoji current)
    | none =>
      if messageReactions ≤ reactionTotal current then
        .error "This message has all the reactions it can hold"
      else .ok (addReaction reactor emoji current)

/-- HTTP requests state the wanted presence, so a retry changes nothing. -/
def setReaction (current : List ChatReaction)
    (reactor : ParticipantId) (emoji : String) (present : Bool) :
    Except String (List ChatReaction) :=
  if emoji ∉ offeredReactions then .error "Choose one of the offered reactions"
  else if hasReaction current reactor emoji = present then .ok current
  else toggleReactions current reactor emoji

/-! ## Removal -/

def ChatEntry.erase (removedAt : Time) (message : ChatEntry) : ChatEntry := { message with
    content := []
    attachments := []
    replyTo := none
    reactions := []
    removedAt := some removedAt }

/-- Erase message text and references without keeping a second copy. Private
messages are left alone. -/
def redactMessage (id : MessageId) (removedAt : Time) (message : ChatEntry) : ChatEntry :=
  if message.recipientId.isSome then message
  else if message.messageId = id then message.erase removedAt
  else message.requote id removedExcerpt

end SimplestChat
