import SimplestChat.Room.Lifecycle
import SimplestChat.Support.Runs

/-!
# Connections and their in-lobby flag

Every socket has a connection task that dispatches one client message at a
time. The task keeps the room it has joined and a flag that says whether it
waits in that room's lobby. The flag is shared: a lobby entry carries it, and
the admission that turns the entry into a participant clears it.

A program point of a connection is a place where its task awaits while it
handles a message. `ready` is the point between two messages. Rooms are
changed by the connections themselves, by moderators (`publish`), by the timers
of closed sockets (`expire`), and they come and go (`openRoom`, `closeRoom`).
-/

namespace SimplestChat

/-! ## Client messages -/

inductive ClientMessage where
  | joinRoom (room : RoomId)
  | leaveRoom
  | chatMessage
  | reconnect (id : ParticipantId) (room : RoomId)
  /-- every media, moderation and social command -/
  | roomCommand
deriving DecidableEq

namespace ClientMessage

def allowedInLobby : ClientMessage → Bool
  | joinRoom _ | leaveRoom | chatMessage | reconnect _ _ => true
  | roomCommand => false

def rechecksMembership : ClientMessage → Bool
  | joinRoom _ | leaveRoom | reconnect _ _ => false
  | chatMessage | roomCommand => true

end ClientMessage

inductive DispatchRefusal where
  | waitingInLobby
  | noLongerInRoom
deriving DecidableEq

/-! ## Connections -/

inductive ConnectionPoint where
  /-- between two messages -/
  | ready
  /-- `JoinRoom` is removing the membership of the room it leaves -/
  | leaveOld (old target : RoomId)
  /-- `add_participant` is about to reserve its join -/
  | reserve (target : RoomId)
  /-- `add_participant` is about to commit -/
  | commit (target : RoomId)
  /-- `add_participant` has returned `Joined` -/
  | joined (target : RoomId)
  /-- `add_participant` has returned `Lobbied` -/
  | lobbied (target : RoomId)
  /-- `LeaveRoom` is removing the membership -/
  | leave (room : RoomId)
  | left
  /-- `handle_reconnect` is about to rebind the membership -/
  | reconnect (id : ParticipantId) (room : RoomId)
  | reconnected (id : ParticipantId) (room : RoomId)
deriving DecidableEq

structure Connection where
  identity : ParticipantId
  authenticated : Bool
  ip : Option Cohort
  currentRoom : Option RoomId
  inLobby : Bool
  point : ConnectionPoint
deriving DecidableEq

namespace Connection

def reconnectAttemptAllowed (conn : Connection) : Bool :=
  conn.currentRoom.isNone && !conn.inLobby

def begin (conn : Connection) : ClientMessage → Connection
  | .joinRoom target =>
    match conn.currentRoom with
    | some old => { conn with currentRoom := none, point := .leaveOld old target }
    | none => { conn with point := .reserve target }
  | .leaveRoom =>
    match conn.currentRoom with
    | some room => { conn with currentRoom := none, point := .leave room }
    | none => conn
  | .reconnect id room =>
    if conn.reconnectAttemptAllowed then
      { conn with point := .reconnect id room }
    else conn
  | .chatMessage | .roomCommand => conn

def participant (conn : Connection) (sender : SenderId) (role : Role) : Participant :=
  ⟨conn.identity, sender, role, conn.authenticated, conn.ip⟩

def lobbyEntry (conn : Connection) (sender : SenderId) (role : Role) : LobbyEntry :=
  ⟨conn.identity, sender, role, conn.authenticated, conn.ip⟩

end Connection

/-! ## The signaling state -/

def Room.binds (room : Room) (id : ParticipantId) (sender : SenderId) : Bool :=
  (room.participant id).any fun p => p.sender = sender

/-- The live rooms and the connections to them. -/
structure Signaling where
  rooms : RoomId → Option Room
  connections : SenderId → Option Connection

namespace Signaling

def setRoom (s : Signaling) (r : RoomId) (room : Room) : Signaling :=
  { s with rooms := Function.update s.rooms r (some room) }

def setConnection (s : Signaling) (sender : SenderId) (conn : Connection) : Signaling :=
  { s with connections := Function.update s.connections sender (some conn) }

/-- `in_lobby_flag.store(false)` through a lobby entry. -/
def clearLobbyFlag (s : Signaling) (sender : SenderId) : Signaling := { s with
    connections := Function.update s.connections sender
      ((s.connections sender).map fun conn => { conn with inLobby := false }) }

/-- `remove_participant_for_sender`. -/
def removeForSender (s : Signaling) (r : RoomId) (id : ParticipantId)
    (sender : SenderId) : Signaling :=
  match s.rooms r with
  | some room =>
    if room.senderMatches id sender then s.setRoom r (room.removeMember id)
    else s
  | none => s

def releaseJoin (s : Signaling) (r : RoomId) : Signaling :=
  match s.rooms r with
  | some room => s.setRoom r room.releaseJoinReservation.1
  | none => s

def isMember (s : Signaling) (r : RoomId) (id : ParticipantId) (sender : SenderId) : Bool :=
  (s.rooms r).any fun room => room.binds id sender

/-- `is_bound_participant`. -/
def isBoundParticipant (s : Signaling) (r : RoomId) (id : ParticipantId)
    (sender : SenderId) : Bool :=
  (s.rooms r).any fun room => !room.deleting && room.senderMatches id sender

/-- Why a command of a connection is refused, if it is. -/
def refusal (s : Signaling) (sender : SenderId) (conn : Connection)
    (message : ClientMessage) : Option DispatchRefusal :=
  if conn.inLobby && !message.allowedInLobby then some .waitingInLobby
  else if message.rechecksMembership && conn.currentRoom.any (fun r =>
      !s.isBoundParticipant r conn.identity sender) then some .noLongerInRoom
  else none

end Signaling

/-! ## Steps -/

inductive ConnectionChoice where
  | proceed
  | refuse
  | enter (role : Role)
  | enterLobby (role : Role)
  | rebind (expected : SenderId)
deriving DecidableEq

inductive SignalingAction where
  | accept (sender : SenderId) (identity : ParticipantId)
      (authenticated : Bool) (ip : Option Cohort)
  | command (sender : SenderId) (message : ClientMessage)
  | advance (sender : SenderId) (choice : ConnectionChoice)
  | publish (room : RoomId) (authority : Authority) (change : Change)
  /-- a grace timer ends, or a join replaces a membership whose socket closed -/
  | expire (room : RoomId) (id : ParticipantId) (sender : SenderId)
  | openRoom (room : RoomId) (persisted : Bool)
  /-- the room is evicted, deleted, quarantined or recovered -/
  | closeRoom (room : RoomId)
deriving DecidableEq

namespace Signaling

def joinable (s : Signaling) (r : RoomId) (id : ParticipantId) : Option Room :=
  (s.rooms r).filter fun room =>
    !room.deleting && (room.participant id).isNone &&
      (room.lobbyEntry id).isNone

def advance (s : Signaling) (sender : SenderId) (conn : Connection) :
    ConnectionPoint → ConnectionChoice → Option Signaling
  | .leaveOld old target, .proceed =>
    some ((s.removeForSender old conn.identity sender).setConnection sender
      { conn with point := .reserve target })
  | .reserve target, .proceed =>
    (s.rooms target).bind fun room =>
      if room.deleting then none
      else
        some ((s.setRoom target room.reserveJoin).setConnection sender
          { conn with point := .commit target })
  | .reserve _, .refuse => some (s.setConnection sender
      { conn with point := .ready })
  | .commit target, .enter role =>
    (s.joinable target conn.identity).map fun room =>
      (s.setRoom target
          (room.enter (conn.participant sender role))).setConnection sender
        { conn with point := .joined target }
  | .commit target, .enterLobby role =>
    (s.joinable target conn.identity).map fun room =>
      (s.setRoom target
          (room.enterLobby (conn.lobbyEntry sender role))).setConnection
        sender { conn with point := .lobbied target }
  | .commit target, .refuse =>
    some ((s.releaseJoin target).setConnection sender
      { conn with point := .ready })
  | .joined target, .proceed =>
    some (s.setConnection sender
      { conn with
        currentRoom := some target, inLobby := false, point := .ready })
  | .lobbied target, .proceed =>
    some (s.setConnection sender
      { conn with
        currentRoom := some target, inLobby := true, point := .ready })
  | .leave room, .proceed =>
    some ((s.removeForSender room conn.identity sender).setConnection sender
      { conn with point := .left })
  | .left, .proceed =>
    some (s.setConnection sender
      { conn with inLobby := false, point := .ready })
  | .reconnect id r, .rebind expected =>
    (s.rooms r).bind fun room =>
      (room.participantForSender id expected).map fun _ =>
        (s.setRoom r (room.rebindSender id sender)).setConnection sender
          { conn with point := .reconnected id r }
  | .reconnect _ _, .refuse => some (s.setConnection sender { conn with point := .ready })
  | .reconnected id r, .proceed =>
    some (s.setConnection sender
      { conn with identity := id, currentRoom := some r, point := .ready })
  | _, _ => none

/-- A moderator's change of a room. Admission clears the flag of the admitted
connection before it lets go of the room. -/
def publish (s : Signaling) (r : RoomId) (authority : Authority) : Change → Option Signaling
  | .rebind _ => none
  | .admitFromLobby target =>
    (s.rooms r).bind fun room =>
      (room.lobbyEntry target).bind fun entry =>
        (room.publish authority (.admitFromLobby target)).map fun left =>
          (s.setRoom r left).clearLobbyFlag entry.sender
  | change =>
    (s.rooms r).bind fun room =>
      (room.publish authority change).map fun left => s.setRoom r left

def step (s : Signaling) : SignalingAction → Option Signaling
  | .accept sender identity authenticated ip =>
    if (s.connections sender).isSome then none
    else some (s.setConnection sender
      ⟨identity, authenticated, ip, none, false, .ready⟩)
  | .command sender message =>
    (s.connections sender).bind fun conn =>
      if conn.point = .ready then
        some (s.setConnection sender (conn.begin message))
      else none
  | .advance sender choice =>
    (s.connections sender).bind fun conn =>
      s.advance sender conn conn.point choice
  | .publish r authority change => s.publish r authority change
  | .expire r id sender => some (s.removeForSender r id sender)
  | .openRoom r persisted =>
    if (s.rooms r).isSome then none
    else some (s.setRoom r
      { participants := [], lobby := [], persisted, pendingJoins := 0,
        policyRevision := 0, deleting := false })
  | .closeRoom r => some { s with rooms := Function.update s.rooms r none }

def start : Signaling where
  rooms := fun _ => none
  connections := fun _ => none

end Signaling

end SimplestChat
