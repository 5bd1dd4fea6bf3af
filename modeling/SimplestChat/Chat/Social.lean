import SimplestChat.Room.Database
import SimplestChat.Support.BoundedQueue

/-!
# The chat memory of a room

A runtime room remembers chat in three places: a bounded history for replay,
the receipts that answer retries, and the pins. All three hold copies of chat
entries, and a reply quotes its original inside its own entry.

`size` stands for the length of an entry's JSON text, which the history and
the receipts are charged for.
-/

namespace SimplestChat

open BoundedQueue

/-! ## Limits -/

/-- `HISTORY_MESSAGES`. -/
def historyMessages : ℕ := 300

/-- `HISTORY_BYTES`. -/
def historyByteLimit : ℕ := 256 * 1024

/-- `CHAT_RECEIPT_TTL`, in milliseconds. -/
def chatReceiptTtl : ℕ := 300 * 1000

/-- `CHAT_RECEIPTS`. -/
def chatReceipts : ℕ := 512

/-- `CHAT_RECEIPT_BYTES`. -/
def chatReceiptByteLimit : ℕ := 512 * 1024

/-- `CHAT_RECEIPTS_PER_MEMBER`. -/
def chatReceiptsPerMember : ℕ := 128

/-! ## Records -/

structure HistoryEntry where
  sequence : ℕ
  senderSession : SessionId
  recipientSession : Option SessionId
  senderAuthenticated : Bool
  message : ChatEntry
  bytes : ℕ
deriving DecidableEq

structure ChatReceipt where
  senderSession : SessionId
  sequence : Option ℕ
  acceptedAt : Time
  bytes : ℕ
  message : ChatEntry
deriving DecidableEq

/-- The chat memory of a room. -/
structure RoomSocial where
  nextSequence : ℕ
  history : List HistoryEntry
  historyBytes : ℕ
  pins : List ChatEntry
  receipts : List ChatReceipt
  receiptBytes : ℕ
deriving DecidableEq

/-- `RoomSocial::default()`. -/
def RoomSocial.empty : RoomSocial := ⟨0, [], 0, [], [], 0⟩

/-- What an edit makes of one copy of an entry: the edited message itself
takes the new text unless it is newer, and a reply to it quotes that text.
Removed entries stay as they are. -/
def editEntry (edited message : ChatEntry) : ChatEntry :=
  if message.removedAt.isSome then message
  else
    let updated :=
      if message.messageId = edited.messageId ∧ message.revision ≤ edited.revision then
        { message with
          content := edited.content
          revision := edited.revision
          editedAt := edited.editedAt }
      else message
    updated.requote edited.messageId (Text.quoteExcerpt edited.content)

namespace RoomSocial

section Sized

variable (size : ChatEntry → ℕ)

/-! ## Trimming -/

def trimHistory (s : RoomSocial) : RoomSocial :=
  let kept := popWhile
    (fun _ count bytes => historyMessages < count || historyByteLimit < bytes)
    HistoryEntry.bytes s.history s.historyBytes
  { s with history := kept.1, historyBytes := kept.2 }

def trimReceipts (s : RoomSocial) : RoomSocial :=
  let kept := popWhile (fun _ _ bytes => chatReceiptByteLimit < bytes)
    ChatReceipt.bytes s.receipts s.receiptBytes
  { s with receipts := kept.1, receiptBytes := kept.2 }

def pruneReceipts (now : Time) (s : RoomSocial) : RoomSocial :=
  let kept := popWhile
    (fun (entry : ChatReceipt) _ _ => chatReceiptTtl ≤ now - entry.acceptedAt)
    ChatReceipt.bytes s.receipts s.receiptBytes
  { s with receipts := kept.1, receiptBytes := kept.2 }

/-- Drop the `excess` oldest receipts of one membership. -/
def dropMemberReceipts (session : SessionId) : ℕ → List ChatReceipt → ℕ → List ChatReceipt × ℕ
  | 0, receipts, bytes => (receipts, bytes)
  | _ + 1, [], bytes => ([], bytes)
  | excess + 1, entry :: rest, bytes =>
    if entry.senderSession = session then
      dropMemberReceipts session excess rest (bytes - entry.bytes)
    else
      let kept := dropMemberReceipts session (excess + 1) rest bytes
      (entry :: kept.1, kept.2)

def makeReceiptRoom (session : SessionId) (bytes : ℕ) (s : RoomSocial) : RoomSocial :=
  let own := s.receipts.countP fun entry => entry.senderSession = session
  let fair := dropMemberReceipts session (own + 1 - chatReceiptsPerMember)
    s.receipts s.receiptBytes
  let kept := popWhile
    (fun _ count total =>
      chatReceipts ≤ count || chatReceiptByteLimit - total < bytes)
    ChatReceipt.bytes fair.1 fair.2
  { s with receipts := kept.1, receiptBytes := kept.2 }

/-! ## Changes -/

def pushReceipt (receipt : ChatReceipt) (s : RoomSocial) : RoomSocial := { s with
    receipts := s.receipts ++ [receipt]
    receiptBytes := s.receiptBytes + receipt.bytes }

/-- `saturating_add(1)` on a `u64`. -/
def successor (sequence : ℕ) : ℕ :=
  min (sequence + 1) (2 ^ 64 - 1)

def remember (senderSession : SessionId) (recipientSession : Option SessionId)
    (senderAuthenticated : Bool) (message : ChatEntry) (s : RoomSocial) :
    RoomSocial :=
  trimHistory
    { s with
      history := s.history ++ [⟨s.nextSequence, senderSession,
        recipientSession, senderAuthenticated, message, size message⟩]
      historyBytes := s.historyBytes + size message
      nextSequence := successor s.nextSequence }

def changedEntry (f : ChatEntry → ChatEntry) (entry : HistoryEntry) : HistoryEntry :=
  { entry with message := f entry.message, bytes := size (f entry.message) }

/-- Apply a change to every entry of the history and the receipts and charge
each for its new size. -/
def rewrite (f : ChatEntry → ChatEntry) (s : RoomSocial) : RoomSocial :=
  let history := s.history.map (changedEntry size f)
  let receipts := s.receipts.map fun entry =>
    { entry with message := f entry.message, bytes := size (f entry.message) }
  { s with
    history
    historyBytes := (history.map HistoryEntry.bytes).sum
    receipts
    receiptBytes := (receipts.map ChatReceipt.bytes).sum }

def removeMessage (id : MessageId) (removedAt : Time) (s : RoomSocial) : RoomSocial :=
  let unpinned := { s with pins := s.pins.filter fun pin => pin.messageId ≠ id }
  (rewrite size (redactMessage id removedAt) unpinned).trimHistory.trimReceipts

def entries (s : RoomSocial) : List ChatEntry :=
  s.history.map HistoryEntry.message ++ (s.receipts.map ChatReceipt.message ++ s.pins)

def isStale (edited : ChatEntry) (s : RoomSocial) : Bool :=
  s.entries.any fun message =>
    message.messageId = edited.messageId &&
      (message.removedAt.isSome || edited.revision < message.revision)

def editMessage (edited : ChatEntry) (s : RoomSocial) : RoomSocial :=
  if s.isStale edited then s
  else
    let repinned := { s with pins := s.pins.map (editEntry edited) }
    (rewrite size (editEntry edited) repinned).trimHistory.trimReceipts

/-- Change the first history entry that passes the test, count it again and
trim. -/
def changeFirst (test : HistoryEntry → Bool) (f : ChatEntry → ChatEntry)
    (s : RoomSocial) : RoomSocial :=
  match s.history.find? test with
  | none => s
  | some entry =>
    trimHistory
      { s with
        history := s.history.replaceF fun entry =>
          if test entry then some (changedEntry size f entry) else none
        historyBytes :=
          s.historyBytes - entry.bytes + size (f entry.message) }

/-- `publish_reaction` on the history: the first copy of the message. -/
def setReactions (id : MessageId) (reactions : List ChatReaction) (s : RoomSocial) : RoomSocial :=
  changeFirst size (fun entry => entry.message.messageId = id)
    (fun message => { message with reactions }) s

def reconcileReactions (message : ChatEntry) (s : RoomSocial) : RoomSocial :=
  changeFirst size
    (fun entry =>
      entry.message.messageId = message.messageId &&
        entry.message.removedAt.isNone)
    (fun copy => { copy with reactions := message.reactions }) s

end Sized

/-- `publish_saved_reaction` on the pins. -/
def setPinReactions (message : ChatEntry) (s : RoomSocial) : RoomSocial := { s with
    pins := s.pins.map fun pin =>
      if pin.messageId = message.messageId ∧ pin.removedAt = none then
        { pin with reactions := message.reactions }
      else pin }

end RoomSocial

end SimplestChat
