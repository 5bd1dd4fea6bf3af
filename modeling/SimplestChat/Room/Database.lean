import SimplestChat.Chat.Entry
import SimplestChat.Support.Transaction

/-!
# Saved rows and the errors of database work

The tables that controlled room operations read and write, the errors that
database work can end with, and a moderation history entry. `expired` stands
for `expires_at <= now()` at the time of the statement.
-/

namespace SimplestChat

/-! ## Errors -/

/-- A refusal the client can act on; the message is safe to show. -/
inductive Refusal where
  | notFound (message : String)
  | unauthorized (message : String)
  | forbidden (message : String)
  | invalid (message : String)
  | conflict (message : String)
  | rateLimited (message : String)
  | unavailable (message : String)
  | timedOut (message : String)
deriving DecidableEq

/-- The variants of `sqlx::Error` that the driver, the pool or the server
raise. `RowNotFound` is raised by code that looked for a row. -/
inductive DriverError where
  | database (code : Option String)
  | poolTimedOut
  | poolClosed
  | invalidArgument
  | protocol (message : String)
  | io
  | tls
  | decode
  | workerCrashed
  | other
deriving DecidableEq

inductive SqlxError where
  | driver (error : DriverError)
  | rowNotFound
deriving DecidableEq

inductive RoomError where
  | refused (refusal : Refusal)
  | database (error : SqlxError)
deriving DecidableEq

/-! ## Moderation entries -/

inductive PunitiveKind where
  | camBanned | muted
deriving DecidableEq

inductive ModerationAction where
  | kick | ban | unban | camBan | camUnban | textMute | textUnmute
  | reportResolved | reportDismissed | messageRemoved
deriving DecidableEq

def ModerationAction.forPunitive : PunitiveKind → Bool → ModerationAction
  | .camBanned, true => .camBan
  | .camBanned, false => .camUnban
  | .muted, true => .textMute
  | .muted, false => .textUnmute

inductive ModerationTargetId where
  | participant (id : ParticipantId)
  | ban (id : ℕ)
deriving DecidableEq

structure Actor where
  id : ParticipantId
  name : String
deriving DecidableEq

structure Target where
  id : ModerationTargetId
  name : String
  authenticated : Bool
  ip : Option Cohort
deriving DecidableEq

structure ModerationEvent where
  eventId : ℕ
  action : ModerationAction
  actor : Actor
  target : Target
  reason : Option String
  expiresAt : Option Time
  reportId : Option ℕ
  createdAt : Time
deriving DecidableEq

/-- Whom a saved sanction binds: an account or a guest's address cohort. -/
inductive SanctionIdentity where
  | user (id : ParticipantId) (ip : Option Cohort)
  | guest (ip : Cohort)
deriving DecidableEq

structure Sanction where
  identity : SanctionIdentity
  reason : Option String
  appliedBy : ParticipantId
deriving DecidableEq

/-! ## Rows -/

structure RoomSettings where
  moderated : Bool
  lobbyEnabled : Bool
  guestsAllowed : Bool
  guestsCanBroadcast : Bool
  maxBroadcasters : Option ℕ
  maxParticipants : Option ℕ
  allowScreenSharing : Bool
  allowChat : Bool
  allowVideo : Bool
  requireRegistration : Bool
  inviteOnly : Bool
  pushToTalk : Bool
  secret : Bool
deriving DecidableEq

/-- One optional assignment per column; a limit can also be cleared. -/
structure SettingsPatch where
  moderated : Option Bool := none
  lobbyEnabled : Option Bool := none
  guestsAllowed : Option Bool := none
  guestsCanBroadcast : Option Bool := none
  maxBroadcasters : Option (Option ℕ) := none
  maxParticipants : Option (Option ℕ) := none
  allowScreenSharing : Option Bool := none
  allowChat : Option Bool := none
  allowVideo : Option Bool := none
  requireRegistration : Option Bool := none
  inviteOnly : Option Bool := none
  pushToTalk : Option Bool := none
  secret : Option Bool := none
deriving DecidableEq

structure RoomRow where
  id : RoomId
  settings : RoomSettings
  passwordHash : Option String
  topic : Option Text
  historyRetentionDays : ℕ
deriving DecidableEq

inductive ReportStatus where
  | opened | resolved | dismissed
deriving DecidableEq

structure ReportRow where
  id : ℕ
  room : RoomId
  target : ParticipantId
  targetName : String
  status : ReportStatus
  resolvedBy : Option ParticipantId
deriving DecidableEq

structure EventRow where
  room : RoomId
  event : ModerationEvent
deriving DecidableEq

inductive SavedState where
  | banned
  | punitive (kind : PunitiveKind)
deriving DecidableEq

/-- A row of `room_states`. -/
structure StateRow where
  id : ℕ
  room : RoomId
  state : SavedState
  sanction : Sanction
  expiresAt : Option Time
deriving DecidableEq

structure RoleRow where
  room : RoomId
  user : ParticipantId
  role : Role
  grantedBy : ParticipantId
deriving DecidableEq

/-- Who sent a saved message: a membership's random media session, or the
account itself when it sent over HTTP. -/
inductive SessionId where
  | media (number : ℕ)
  | account (id : ParticipantId)
deriving DecidableEq

/-- A conversation's key: a room's public chat, or two accounts in order. -/
inductive Conversation where
  | room (id : RoomId)
  | pm (lower upper : ParticipantId)
deriving DecidableEq

def privateConversation (a b : ParticipantId) : Conversation :=
  if a < b then .pm a b else .pm b a

/-- A row of `chat_messages`. -/
structure MessageRow where
  conversation : Conversation
  room : Option RoomId
  senderAccount : Option ParticipantId
  senderSession : SessionId
  expired : Bool
  body : ChatEntry
deriving DecidableEq

structure PinRow where
  room : RoomId
  message : MessageId
  slot : ℕ
deriving DecidableEq

/-- A row of `users`, with its decoded chat preferences. -/
structure AccountRow where
  id : ParticipantId
  displayName : String
  allowPrivateMessages : Bool
  ignored : List ParticipantId
deriving DecidableEq

structure SessionRow where
  id : ℕ
  user : ParticipantId
  expired : Bool
deriving DecidableEq

structure Database where
  rooms : List RoomRow
  reports : List ReportRow
  events : List EventRow
  states : List StateRow
  roles : List RoleRow
  messages : List MessageRow
  pins : List PinRow
  accounts : List AccountRow
  sessions : List SessionRow
  nextId : ℕ
deriving DecidableEq

namespace Database

def hasRoom (db : Database) (room : RoomId) : Bool :=
  (db.rooms.filter fun row => row.id = room).length = 1

/-- `SELECT target_participant_id FROM room_reports`. -/
def reportTarget (db : Database) (room : RoomId) (report : ℕ) : Option ParticipantId :=
  (db.reports.find? fun row => row.room = room && row.id = report).map
    (·.target)

def publicMessage (db : Database) (room : RoomId) (id : MessageId) : Option MessageRow :=
  db.messages.find? fun row =>
    row.room = some room && row.body.messageId = id && !row.expired &&
      row.body.removedAt.isNone

def authoredMessage (db : Database) (conversation : Conversation)
    (actor : ParticipantId) (guestSession : Option SessionId) (id : MessageId) :
    Option MessageRow :=
  db.messages.find? fun row =>
    row.conversation = conversation && row.body.messageId = id &&
      !row.expired &&
      (row.senderAccount = some actor ||
        (row.senderAccount.isNone && some row.senderSession = guestSession))

def account (db : Database) (id : ParticipantId) : Option AccountRow :=
  db.accounts.find? fun row => row.id = id

end Database

end SimplestChat
