import SimplestChat.Chat.Requests
import SimplestChat.Room.Control
import SimplestChat.Support.Runs

/-!
# One room's chat as a transition system

The state is a runtime room, the database, the operation that holds the room's
control, and the completions that committed HTTP edits and reactions have
scheduled for this room. `sent` records every queued frame and `accepted`
every accepted message, oldest first.

Members come, go and change at any time; so do saved rows of other origin: HTTP
writes to account conversations, and rows that expire or are cleaned up. Other
rooms' public rows are never read here. A connection handles one message at a
time, so a connection whose request is waiting does nothing else.
-/

namespace SimplestChat

open Transaction Transaction.Tx

/-! ## State -/

structure InboxUpdate where
  message : ChatEntry
  reactions : Bool
deriving DecidableEq

inductive Holder where
  | waiting (requester : Requester) (next : Waiting)
  | returning (requester : Requester) (answer : Returning)
  /-- a completion that has read the saved reactions again -/
  | completing (message : ChatEntry)
deriving DecidableEq

/-- A room, its database and the request that holds the room's control. -/
structure ChatSystem where
  room : ChatRoom
  database : Option Database
  holder : Option Holder
  updates : List InboxUpdate
  nextMessage : MessageId
  nextSession : ℕ
  sent : List Frame
  accepted : List Acceptance

inductive MemberChange where
  | rename (name : String)
  | role (role : Role)
  | mute (textMuted : Bool)
  | connected (connected : Bool)
  | preferences (allowPrivateMessages : Bool) (ignored : List ParticipantId)
  /-- a reconnecting socket takes the membership over -/
  | rebind (sender : SenderId)
deriving DecidableEq

/-- A member as its join describes it; the room adds the sessions. -/
structure Newcomer where
  id : ParticipantId
  name : String
  role : Role
  authenticated : Bool
  sender : SenderId
  textMuted : Bool
  allowPrivateMessages : Bool
  ignored : List ParticipantId
deriving DecidableEq

abbrev Faults := List (Option (Fault DriverError))

/-- The steps of the chat: one for each turn, and one for each work of the database. -/
inductive ChatAction where
  | join (newcomer : Newcomer)
  | leave (id : ParticipantId)
  | change (id : ParticipantId) (change : MemberChange)
  | settings (allowChat moderated : Bool)
  /-- the room is evicted and created again -/
  | recreate (persisted : Bool) (settings : Option ChatSettings)
  | request (requester : Requester) (request : ChatRequest)
      (around : Surroundings)
  /-- the database does the work that the holder waits for -/
  | work (around : Surroundings) (faults : Faults)
  /-- the holder takes the room back -/
  | resume (around : Surroundings)
  /-- a scheduled completion takes the room's control -/
  | complete (index : ℕ) (faults : Faults)
  | httpSend (own peer : ParticipantId) (request : SendRequest)
      (around : Surroundings) (faults : Faults)
  | httpEdit (own peer : ParticipantId) (id : MessageId) (request : EditRequest)
      (now : Time) (faults : Faults)
  | httpReact (own peer : ParticipantId) (id : MessageId) (emoji : String)
      (present : Bool) (faults : Faults)
  | expire (ids : List MessageId)
  | cleanUp (ids : List MessageId)
  | account (row : AccountRow)

/-! ## Members -/

namespace MemberChange

def apply (member : Member) : MemberChange → Member
  | .rename name => { member with name }
  | .role newRole => { member with role := newRole }
  | .mute textMuted => { member with textMuted }
  | .connected isConnected =>
    { member with social := { member.social with connected := isConnected } }
  | .preferences allowPrivateMessages ignored =>
    { member with
      social := { member.social with allowPrivateMessages, ignored } }
  | .rebind sender => { member with sender }

def sender? : MemberChange → Option SenderId
  | rebind sender => some sender
  | _ => none

end MemberChange

def Newcomer.member (newcomer : Newcomer) (session sequence : ℕ) : Member where
  id := newcomer.id
  name := newcomer.name
  role := newcomer.role
  authenticated := newcomer.authenticated
  sender := newcomer.sender
  mediaSessionId := .media session
  textMuted := newcomer.textMuted
  social :=
    { connected := true
      chatSessionId := session
      chatHighWater := 0
      joinedSequence := sequence
      allowPrivateMessages := newcomer.allowPrivateMessages
      ignored := newcomer.ignored }

namespace ChatRoom

def changeMember (room : ChatRoom) (id : ParticipantId) (change : MemberChange) : ChatRoom :=
  { room with
    participants := room.participants.map fun p =>
      if p.id = id then change.apply p else p }

def changeSettings (room : ChatRoom) (allowChat moderated : Bool) : ChatRoom := { room with
    settings := room.settings.map fun settings =>
      { settings with allowChat, moderated } }

def inboxReaders (room : ChatRoom) (message : ChatEntry)
    (recipient : ParticipantId) (notice : ServerMessage) : List Frame :=
  room.broadcast
    (fun p =>
      p.authenticated && (p.id = message.participantId || p.id = recipient) &&
        p.acceptsInboxFrom
          (if p.id = recipient then message.participantId else recipient))
    notice

/-- One room's part of `schedule_inbox_update`. -/
def completeUpdate (size : ChatEntry → ℕ) (room : ChatRoom)
    (update : InboxUpdate) : ChatRoom × List Frame :=
  let message := update.message
  match message.recipientId with
  | none => (room, [])
  | some recipient =>
    if room.deleting ||
        ((room.member message.participantId).isNone &&
          (room.member recipient).isNone) then
      (room, [])
    else if update.reactions then
      (room.setSocial (room.social.reconcileReactions size message),
        room.inboxReaders message recipient
          (.messageReactions message.messageId message.reactions))
    else
      (room.setSocial (room.social.editMessage size message),
        room.inboxReaders message recipient (.chatMessageEdited message))

/-- `deliver_inbox_message` for a message that arrived over HTTP. -/
def deliverInbox (room : ChatRoom) (message : ChatEntry) : List Frame :=
  match message.recipientId with
  | none => []
  | some recipient =>
    if room.deleting then []
    else room.inboxReaders message recipient (.privateMessageReceived message)

end ChatRoom

namespace Database

def expire (ids : List MessageId) (db : Database) : Database := { db with
    messages := db.messages.map fun row =>
      if row.body.messageId ∈ ids then { row with expired := true } else row }

/-- `spawn_retention` deletes expired rows in batches. -/
def cleanUp (ids : List MessageId) (db : Database) : Database :=
  db.deleteMessages fun row => row.expired && row.body.messageId ∈ ids

def setAccount (row : AccountRow) (db : Database) : Database :=
  { db with accounts := row :: db.accounts.filter fun other => other.id ≠ row.id }

end Database

/-! ## Steps -/

namespace ChatSystem

def idle (c : ChatSystem) (sender : SenderId) : Bool :=
  match c.holder with
  | some (.waiting requester _) | some (.returning requester _) => requester.sender ≠ sender
  | _ => true

def needsControl (c : ChatSystem) (requester : Requester) : ChatRequest → Bool
  | .chat attempt => !c.room.isImmediate requester c.database.isSome attempt
  | .social .snapshot => false
  | .social _ => true

/-- Record what a turn has done. A committed private edit is completed in
every room, this one included. -/
def settle (c : ChatSystem) (turn : Turn) (holder : Option Holder) : ChatSystem := { c with
    room := turn.room
    holder
    updates := c.updates ++
      (turn.edited.filter fun message => message.recipientId.isSome).toList.map
        fun message => ⟨message, false⟩
    nextMessage := c.nextMessage + 1
    sent := c.sent ++ turn.frames
    accepted := c.accepted ++ turn.accepted.toList }

def connection (db : Database) (faults : Faults) : Transaction.Connection Database DriverError :=
  ⟨db, db, faults⟩

/-- How a request is told that its database work failed. A message whose
outcome is unknown is answered as unconfirmed. -/
def failureFrame (requester : Requester) (next : Waiting) (error : RoomError) : Frame :=
  match next, error with
  | .persistChat chat, .database _ | .attachFiles chat, .database _ =>
    if persistenceIsIndeterminate error then
      requester.frame (.messageRetryResult chat.message.clientMessageId
        .storageUnconfirmed)
    else
      requester.frame (.socialError
        (.failed "Message could not be saved; try again"))
  | _, error => requester.frame (.socialError (.ofRoomError error))

section Sized

variable (size : ChatEntry → ℕ)

def requestStep (c : ChatSystem) (requester : Requester)
    (request : ChatRequest) (around : Surroundings) : Option ChatSystem :=
  if !c.idle requester.sender then none
  else
    let turn := c.room.beginTurn size requester c.database.isSome around
      c.nextMessage request
    if c.needsControl requester request then
      if c.holder.isSome then none
      else some (c.settle turn (turn.next.map (.waiting requester)))
    else some (c.settle turn c.holder)

def workStep (c : ChatSystem) (around : Surroundings) (faults : Faults) : Option ChatSystem :=
  match c.holder, c.database with
  | some (.waiting requester next), some db =>
    match next.work size c.room.id requester.participant around
        (connection db faults) with
    | (.ok answer, conn) =>
      some { c with
        database := some conn.saved
        holder := some (.returning requester answer) }
    | (.error stop, conn) =>
      let error := RoomError.ofStop stop
      some { c with
        database := some conn.saved
        room :=
          if next.persists && persistenceIsIndeterminate error then
            { c.room with deleting := true }
          else c.room
        holder := none
        sent := c.sent ++ [failureFrame requester next error] }
  | _, _ => none

def resumeStep (c : ChatSystem) (around : Surroundings) : Option ChatSystem :=
  match c.holder with
  | some (.returning requester answer) =>
    let turn := c.room.resumeTurn size requester c.database.isSome around
      c.nextMessage answer
    some (c.settle turn (turn.next.map (.waiting requester)))
  | some (.completing message) =>
    let done := c.room.completeUpdate size ⟨message, true⟩
    some { c with room := done.1, holder := none, sent := c.sent ++ done.2 }
  | _ => none

/-- A completion takes the control. A reaction is read again under it. -/
def completeStep (c : ChatSystem) (index : ℕ) (faults : Faults) : Option ChatSystem :=
  match c.holder, c.updates[index]? with
  | none, some update =>
    let c := { c with updates := c.updates.eraseIdx index }
    if update.reactions then
      match c.database, update.message.recipientId with
      | some db, some recipient =>
        match privateMessage update.message.participantId recipient
            update.message.messageId (connection db faults) with
        | (.ok (some saved), _) => some { c with holder := some (.completing saved) }
        | _ => some c
      | _, _ => some c
    else
      let done := c.room.completeUpdate size update
      some { c with room := done.1, sent := c.sent ++ done.2 }
  | _, _ => none

def httpStep (c : ChatSystem) (write : Sql ChatEntry) (reactions : Bool)
    (faults : Faults) : Option ChatSystem :=
  match c.database with
  | none => none
  | some db =>
    match write (connection db faults) with
    | (.ok message, conn) =>
      some { c with
        database := some conn.saved
        updates := c.updates ++ [⟨message, reactions⟩] }
    | (.error _, conn) => some { c with database := some conn.saved }

def httpSendStep (c : ChatSystem) (own peer : ParticipantId)
    (request : SendRequest) (around : Surroundings) (faults : Faults) :
    Option ChatSystem :=
  match c.database with
  | none => none
  | some db =>
    match savePrivateMessage own peer request c.nextMessage around.now
        around.uploads (connection db faults) with
    | (.ok (message, new), conn) =>
      some { c with
        database := some conn.saved
        nextMessage := c.nextMessage + 1
        sent := c.sent ++ if new && around.delivered then c.room.deliverInbox message else [] }
    | (.error _, conn) =>
      some { c with
        database := some conn.saved
        nextMessage := c.nextMessage + 1 }

def joinStep (c : ChatSystem) (newcomer : Newcomer) : Option ChatSystem :=
  if c.idle newcomer.sender && (c.room.member newcomer.id).isNone then
    some { c with
      room := { c.room with
        participants := c.room.participants ++
          [newcomer.member c.nextSession c.room.social.nextSequence] }
      nextSession := c.nextSession + 1 }
  else none

def recreateStep (c : ChatSystem) (persisted : Bool)
    (settings : Option ChatSettings) : Option ChatSystem :=
  if c.holder.isSome then none
  else
    some { c with
      room :=
        ⟨c.room.id, false, persisted, settings, [], RoomSocial.empty⟩ }

def changeStep (c : ChatSystem) (id : ParticipantId) (change : MemberChange) : Option ChatSystem :=
  if change.sender?.all c.idle then
    some { c with room := c.room.changeMember id change }
  else none

def step (c : ChatSystem) : ChatAction → Option ChatSystem
  | .join newcomer => c.joinStep newcomer
  | .leave id =>
    some { c with
      room := { c.room with
        participants := c.room.participants.filter fun p => p.id ≠ id } }
  | .change id change => c.changeStep id change
  | .settings allowChat moderated =>
    some { c with room := c.room.changeSettings allowChat moderated }
  | .recreate persisted settings => c.recreateStep persisted settings
  | .request requester request around => c.requestStep size requester request around
  | .work around faults => c.workStep size around faults
  | .resume around => c.resumeStep size around
  | .complete index faults => c.completeStep size index faults
  | .httpSend own peer request around faults => c.httpSendStep own peer request around faults
  | .httpEdit own peer id request now faults =>
    c.httpStep (savePrivateEdit own peer id now request) false faults
  | .httpReact own peer id emoji present faults =>
    c.httpStep (savePrivateReaction own peer id emoji present) true faults
  | .expire ids => some { c with database := c.database.map (Database.expire ids) }
  | .cleanUp ids => some { c with database := c.database.map (Database.cleanUp ids) }
  | .account row => some { c with database := c.database.map (Database.setAccount row) }

end Sized

def start (room : ChatRoom) (database : Option Database) : ChatSystem where
  room := { room with deleting := false, participants := [], social := .empty }
  database := database.map fun db => { db with messages := [], pins := [] }
  holder := none
  updates := []
  nextMessage := 0
  nextSession := 0
  sent := []
  accepted := []

/-- The size of a sample's JSON object: its text, in which quotes, backslashes and
line breaks are escaped, and constants for the other fields, files and reactions. -/
def sampleSize (e : ChatEntry) : ℕ :=
  320 + (e.content.map fun c => if c.toNat ∈ [9, 10, 34, 92] then 2 else c.utf8Size).sum +
    160 * e.attachments.length + 40 * reactionTotal e.reactions

def plainRoom : ChatRoom := ⟨1, false, false, none, [], .empty⟩

def plainSurroundings : Surroundings := ⟨1000, true, true, []⟩

def weekRoom : ChatRoom :=
  ⟨1, false, true, some ⟨true, false, 7⟩, [], .empty⟩

def weekDatabase : Database where
  rooms := [⟨1, ⟨false, false, true, true, none, none, true, true, true, false,
    false, false, false⟩, none, none, 7⟩]
  reports := []
  events := []
  states := []
  roles := []
  messages := []
  pins := []
  accounts := []
  sessions := []
  nextId := 0

/-- The frames that the steps after `c` have queued. -/
def sentSince (c d : ChatSystem) : List Frame :=
  d.sent.drop c.sent.length

theorem sentSince_eq {c d : ChatSystem} {frames : List Frame}
    (h : d.sent = c.sent ++ frames) : c.sentSince d = frames := by
  rw [sentSince, h, List.drop_left]

end ChatSystem

end SimplestChat
