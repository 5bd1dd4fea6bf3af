import SimplestChat.Room.Work

/-!
# Controlled persistence and quarantine

A controlled operation runs its database work through `persistRoom`. When the
work fails and the failure does not prove that nothing was committed, the room
is quarantined: it is tombstoned, closed for everyone and its ID reserved.

The classifier reads `RowNotFound` as a sign that the room's own row is gone.
Three helpers raise it for another row, one that the request names: a report,
a message to pin, a message to edit.
-/

namespace SimplestChat

open Transaction Transaction.Tx

/-! ## The classifier -/

/-- SQLSTATEs that prove the statement was rejected. -/
def postgresRejectionIsDefinite : Option String → Bool
  | none => false
  | some code =>
    code.utf8ByteSize = 5 &&
      ("22".isPrefixOf code || "23".isPrefixOf code || "42".isPrefixOf code ||
        code ∈ ["40000", "40001", "40002", "40P01", "55P03", "57014"])

/-- A driver error after which nothing can have been committed. -/
def DriverError.provesRollback : DriverError → Bool
  | .database code => postgresRejectionIsDefinite code
  | .poolTimedOut | .poolClosed | .invalidArgument => true
  | _ => false

def persistenceIsIndeterminate : RoomError → Bool
  | .refused _ => false
  | .database (.driver error) => !error.provesRollback
  | .database .rowNotFound => true

def RoomError.ofStop : Stop DriverError RoomError → RoomError
  | .fault error _ => .database (.driver error)
  | .raised error => error

def persistenceDeadline : DriverError :=
  .protocol "Room persistence deadline exceeded; commit status is unknown"

/-- Run the database work of an operation that holds the room's control. A
deadline that passes while a statement is out strikes that statement as the
fault `persistenceDeadline`. -/
def persistRoom {α : Type} (s : Slot) (i : Incarnation) (work : Sql α)
    (c : Transaction.Connection Database DriverError) :
    Slot × Transaction.Connection Database DriverError × Except RoomError α :=
  match work c with
  | (.ok a, c') => (s, c', .ok a)
  | (.error stop, c') =>
    let error := RoomError.ofStop stop
    (if persistenceIsIndeterminate error then s.quarantineRoom i else s, c', .error error)

/-! ## Controlled operations -/

inductive ControlWork where
  | kick (stamp : Stamp) (actor : Actor) (target : Target)
      (reason : Option String) (report : Option ℕ)
  | ban (stamp : Stamp) (actor : Actor) (target : Target)
      (reason : Option String) (report : Option ℕ) (sanction : Sanction)
      (expiresAt : Option Time)
  | sanction (stamp : Stamp) (actor : Actor) (target : Target)
      (reason : Option String) (sanction : Sanction) (kind : PunitiveKind)
      (enabled : Bool)
  | unban (stamp : Stamp) (actor : Actor) (user : ParticipantId)
  | pin (message : MessageId) (pinned : Bool)
  | edit (actor : ParticipantId) (guestSession : Option SessionId)
      (original : ChatEntry) (now : Time) (request : EditRequest)
  | reactPublic (message : MessageId) (reactor : ParticipantId)
      (ignored : List ParticipantId) (emoji : String)
  | saveReactions (message : MessageId) (reactions : List ChatReaction)
  | role (user : ParticipantId) (role : Role) (grantedBy : ParticipantId)
  | settings (patch : SettingsPatch) (passwordHash : Option (Option String))
  | topic (topic : Text)
  | retention (days : ℕ) (isOlder : MessageRow → Bool)
  | administration (admin : Administrator) (stamp : Stamp)
      (command : AdministrationCommand)

inductive ControlAnswer where
  | saved
  | removed (any : Bool)
  | edited (message : ChatEntry)
  | reacted (message : Option ChatEntry)
deriving DecidableEq

namespace ControlWork

def run (room : RoomId) : ControlWork → Sql ControlAnswer
  | .kick stamp actor target reason report => do
      persistEvent room (.new stamp .kick actor target reason none report)
      pure .saved
  | .ban stamp actor target reason report penalty expiresAt => do
      persistBan room penalty expiresAt
        (.new stamp .ban actor target reason expiresAt report)
      pure .saved
  | .sanction stamp actor target reason penalty kind enabled => do
      setPunitiveState room penalty kind enabled
        (.new stamp (.forPunitive kind enabled) actor target reason none none)
      pure .saved
  | .unban stamp actor user => do
      let any ← removeUserBan room user actor stamp
      pure (.removed any)
  | .pin message pinned => do
      setPin room message pinned
      pure .saved
  | .edit actor guestSession original now request => do
      let message ← editSaved room actor guestSession original now request
      pure (.edited message)
  | .reactPublic message reactor ignored emoji => do
      let message ← SimplestChat.reactPublic room message reactor ignored emoji
      pure (.reacted message)
  | .saveReactions message reactions => do
      SimplestChat.saveReactions message reactions
      pure .saved
  | .role user newRole grantedBy => do
      autocommit fun db => (setRole room user newRole grantedBy db, ())
      pure .saved
  | .settings patch passwordHash => do
      updateRoomSettings room patch passwordHash
      pure .saved
  | .topic text => do
      updateTopic room text
      pure .saved
  | .retention days isOlder => do
      setRetention room days isOlder
      pure .saved
  | .administration admin stamp command => do
      administer room admin stamp command
      pure .saved

end ControlWork

end SimplestChat
