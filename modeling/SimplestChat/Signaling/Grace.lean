import SimplestChat.Room.State
import SimplestChat.Support.Roster
import SimplestChat.Support.Runs

/-!
# Reconnect grace

A room member whose socket closes is retained for a while: the connection puts
an entry under its reconnect token into a shared map and leaves a timer behind
that removes the member when nothing has reconnected. A reconnecting socket
takes the entry and binds the membership to itself; a revocation or the
shutdown takes entries too. The membership and the entry live behind different
locks and are tied only by the token and by the identity of the socket's
channel, so the steps below are cut wherever one of them is released.

Removing a participant is a job of its own here: it looks the room up and later
removes the member under the room's locks. Callers that await it are thereby
allowed to run ahead, which only adds interleavings. A token is drawn from a
counter where the source draws a random UUID, and an aborted timer may still
reach its removal, since an abort only takes effect at the timer's next await.
-/

namespace SimplestChat.Grace

abbrev ReconnectToken := ℕ

abbrev TimerId := ℕ

/-! ## The map -/

/-- A membership that is kept for a reconnect. -/
structure GraceEntry where
  room : RoomId
  participant : ParticipantId
  reconnectToken : ReconnectToken
  authenticatedSubject : Option ParticipantId
  authenticatedVersion : Option Int
  /-- the channel that owned the membership when it was disconnected -/
  sender : SenderId
  timer : TimerId
deriving DecidableEq

def GraceEntry.key (e : GraceEntry) : RoomId × ParticipantId × ReconnectToken :=
  (e.room, e.participant, e.reconnectToken)

structure GracePeriodMap where
  inner : Roster GraceEntry.key
  maxEntries : ℕ
  closed : Bool

namespace GracePeriodMap

def withCapacity (maxEntries : ℕ) : GracePeriodMap where
  inner := .empty
  maxEntries := max maxEntries 1
  closed := false

def close (m : GracePeriodMap) : GracePeriodMap := { m with inner := .empty, closed := true }

def revokes (userId : ParticipantId) (minimumVersion : Int) (e : GraceEntry) : Bool :=
  decide (e.authenticatedSubject = some userId) &&
    e.authenticatedVersion.all fun version => decide (version < minimumVersion)

def takeRevoked (m : GracePeriodMap) (userId : ParticipantId) (minimumVersion : Int) :
    List GraceEntry × GracePeriodMap :=
  (m.inner.entries.filter (revokes userId minimumVersion),
    { m with inner := m.inner.filter fun e => !revokes userId minimumVersion e })

/-- Retain an entry without evicting another. -/
def insert (m : GracePeriodMap) (e : GraceEntry) : Bool × GracePeriodMap :=
  if m.closed || (decide (m.maxEntries ≤ m.inner.entries.length) &&
      !m.inner.contains e.key) then (false, m)
  else (true, { m with inner := m.inner.insert e })

def removeIfTokenMatches (m : GracePeriodMap) (room : RoomId)
    (participant : ParticipantId) (token : ReconnectToken)
    (subject : Option ParticipantId) : Option GraceEntry × GracePeriodMap :=
  match m.inner.get (room, participant, token) with
  | none => (none, m)
  | some e =>
    if e.authenticatedSubject = subject then
      (some e, { m with inner := m.inner.erase (room, participant, token) })
    else (none, m)

end GracePeriodMap

/-! ## Memberships -/

structure Member where
  id : ParticipantId
  sender : SenderId
  authenticated : Bool
deriving DecidableEq

def Member.identityMatches (m : Member) (subject : Option ParticipantId) : Bool :=
  match m.authenticated, subject with
  | true, some account => decide (account = m.id)
  | false, none => true
  | _, _ => false

structure GraceRoom where
  participants : Roster Member.id
  lobby : Roster Member.id
  live : Bool

namespace GraceRoom

def fresh : GraceRoom where
  participants := .empty
  lobby := .empty
  live := true

def boundTo (r : Roster Member.id) (id : ParticipantId) (sender : SenderId) : Bool :=
  (r.get id).any fun m => decide (m.sender = sender)

/-- `remove_participant_inner` under the room's locks. -/
def removeForSender (room : GraceRoom) (id : ParticipantId) (sender : SenderId) : GraceRoom :=
  if boundTo room.participants id sender || boundTo room.lobby id sender then
    { room with
      lobby := room.lobby.erase id
      participants := room.participants.erase id }
  else room

/-- `rebind_participant_sender` under the room's locks. -/
def rebind (room : GraceRoom) (id : ParticipantId) (subject : Option ParticipantId)
    (expected sender : SenderId) : Bool × GraceRoom :=
  match room.participants.get id with
  | none => (false, room)
  | some m =>
    if m.sender ≠ expected then (false, room)
    else if !m.identityMatches subject then (false, room)
    else
      (true, { room with
        participants := room.participants.update id
          (fun m => { m with sender := sender }) fun _ => rfl })

end GraceRoom

/-! ## Sockets, timers and removals -/

inductive SocketPoint where
  | ready
  /-- `JoinRoom` is about to reserve its join -/
  | joining (room : RoomId)
  /-- the join is about to look for a membership that a closed socket has left -/
  | replacing (room : RoomId) (incarnation : Incarnation)
  /-- the join is about to be committed -/
  | committing (room : RoomId) (incarnation : Incarnation)
  /-- `handle_reconnect` has taken the entry found under the presented token -/
  | rebinding (entry : GraceEntry) (presented : ReconnectToken)
      (incarnation : Option Incarnation)
  /-- the connection's loop has ended -/
  | closing (invalidated : Bool)
  /-- the member is about to be retained -/
  | retaining (room : RoomId)
  | closed
deriving DecidableEq

structure Socket where
  participant : ParticipantId
  subject : Option ParticipantId
  currentRoom : Option RoomId := none
  reconnectToken : ℕ
  inLobby : Bool := false
  /-- the writer still holds the receiver of the socket's channel -/
  writing : Bool := true
  point : SocketPoint := .ready
deriving DecidableEq

def Socket.member (socket : Socket) (s : SenderId) : Member where
  id := socket.participant
  sender := s
  authenticated := socket.subject.isSome

structure Timer where
  room : RoomId
  participant : ParticipantId
  token : ReconnectToken
  subject : Option ParticipantId
  sender : SenderId
deriving DecidableEq

/-- A removal for a sender; `incarnation` is the room it has found. -/
structure Removal where
  room : RoomId
  participant : ParticipantId
  sender : SenderId
  incarnation : Option Incarnation := none
deriving DecidableEq

/-- The sockets, rooms, retained memberships and timers of the server. -/
structure System where
  /-- the sockets by the number of their channel -/
  sockets : List Socket := []
  timers : List Timer := []
  /-- the timers that were never activated or have ended -/
  finished : List TimerId := []
  grace : GracePeriodMap
  rooms : RoomId → Option Incarnation := fun _ => none
  room : Incarnation → GraceRoom := fun _ => .fresh
  nextIncarnation : Incarnation := 0
  removals : List Removal := []
  nextToken : ℕ := 0
  draining : Bool := false

inductive Action where
  /-- a socket opens, with its account's ID or a random one -/
  | connect (subject : Option ParticipantId) (guest : ParticipantId)
  | join (s : SenderId) (room : RoomId)
  | reserve (s : SenderId)
  | replace (s : SenderId)
  /-- the join is committed, into the lobby or as a participant, or refused -/
  | commit (s : SenderId) (waits accepted : Bool)
  | leave (s : SenderId)
  | reconnect (s : SenderId) (room : RoomId) (participant : ParticipantId)
      (token : ReconnectToken)
  | lookUpRebind (s : SenderId)
  /-- `queued` says whether the answer with the fresh token could be queued -/
  | finishRebind (s : SenderId) (queued : Bool)
  /-- the writer task ends and drops its receiver, maybe before the loop does -/
  | writerEnds (s : SenderId)
  | hangUp (s : SenderId) (invalidated : Bool)
  | disconnect (s : SenderId)
  | retain (s : SenderId) (version : Int)
  | timerFires (t : TimerId)
  | revoke (userId : ParticipantId) (minimumVersion : Int)
  | beginDraining
  | closeMap
  | lookUpRemoval (job : ℕ)
  | remove (job : ℕ)
  | openRoom (room : RoomId)
  /-- a room is deleted, evicted or closed for rejoin -/
  | closeRoom (room : RoomId)
  /-- a moderator admits from the lobby -/
  | admission (incarnation : Incarnation) (id : ParticipantId)
  /-- a moderator kicks, bans or denies -/
  | expel (incarnation : Incarnation) (id : ParticipantId)
deriving DecidableEq

namespace System

variable (c : System)

def setSocket (s : SenderId) (socket : Socket) : System :=
  { c with sockets := c.sockets.set s socket }

def setRoom (i : Incarnation) (room : GraceRoom) : System :=
  { c with room := Function.update c.room i room }

def removes (room : RoomId) (participant : ParticipantId) (sender : SenderId) : System :=
  { c with removals := c.removals ++ [⟨room, participant, sender, none⟩] }

def connect (subject : Option ParticipantId) (guest : ParticipantId) : System := { c with
    sockets := c.sockets ++ [{
      participant := subject.getD guest
      subject := subject
      reconnectToken := c.nextToken }]
    nextToken := c.nextToken + 1 }

/-- `JoinRoom` rotates the token and leaves the current room first. -/
def join (s : SenderId) (socket : Socket) (room : RoomId) : System :=
  let c := { c with nextToken := c.nextToken + 1 }.setSocket s
    { socket with
      reconnectToken := c.nextToken
      currentRoom := none
      point := .joining room }
  match socket.currentRoom with
  | none => c
  | some old => c.removes old socket.participant s

/-- `sender.is_closed()`. -/
def isClosed (s : SenderId) : Bool := c.sockets[s]?.any fun socket => !socket.writing

/-- `add_participant` asks for the removal of a membership of the same identity
whose channel has closed. -/
def replace (s : SenderId) (socket : Socket) (room : RoomId) (i : Incarnation) : System :=
  let c' := c.setSocket s { socket with point := .committing room i }
  match ((c.room i).participants.get socket.participant).filter fun m => c.isClosed m.sender with
  | none => c'
  | some stale => c'.removes room socket.participant stale.sender

def commit (s : SenderId) (socket : Socket) (room : RoomId) (i : Incarnation)
    (waits accepted : Bool) : System :=
  let target := c.room i
  if accepted && target.live && !target.participants.contains socket.participant &&
      !target.lobby.contains socket.participant then
    (c.setRoom i
      (if waits then { target with lobby := target.lobby.insert (socket.member s) }
       else { target with
         participants := target.participants.insert (socket.member s) })).setSocket s
      { socket with currentRoom := some room, inLobby := waits, point := .ready }
  else c.setSocket s { socket with point := .ready }

def leave (s : SenderId) (socket : Socket) : System :=
  match socket.currentRoom with
  | none => c
  | some room =>
    (c.setSocket s { socket with currentRoom := none, inLobby := false }).removes
      room socket.participant s

def reconnect (s : SenderId) (socket : Socket) (room : RoomId)
    (participant : ParticipantId) (token : ReconnectToken) : System :=
  -- a socket with an active room session is refused
  if socket.currentRoom.isSome || socket.inLobby then c
  else
    let taken := c.grace.removeIfTokenMatches room participant token socket.subject
    match taken.1 with
    | none => c
    | some entry =>
      { c with grace := taken.2 }.setSocket s
        { socket with point := .rebinding entry token none }

def failRebind (s : SenderId) (socket : Socket) (entry : GraceEntry) : System :=
  (c.setSocket s { socket with point := .ready }).removes
    entry.room entry.participant entry.sender

def lookUpRebind (s : SenderId) (socket : Socket) (entry : GraceEntry)
    (presented : ReconnectToken) : System :=
  match c.rooms entry.room with
  | none => c.failRebind s socket entry
  | some i => c.setSocket s { socket with point := .rebinding entry presented (some i) }

def finishRebind (s : SenderId) (socket : Socket) (entry : GraceEntry)
    (i : Incarnation) (queued : Bool) : System :=
  let result := (c.room i).rebind entry.participant socket.subject entry.sender s
  if !c.draining && (c.room i).live && result.1 then
    { c.setRoom i result.2 with nextToken := c.nextToken + 1 }.setSocket s
      { socket with
        participant := entry.participant
        currentRoom := some entry.room
        reconnectToken := if queued then c.nextToken else socket.reconnectToken
        point := .ready }
  else c.failRebind s socket entry

/-- A closed socket's membership is left to the drain, removed at once, or
retained. -/
def disconnect (s : SenderId) (socket : Socket) (invalidated : Bool) : System :=
  match socket.currentRoom with
  | none => c.setSocket s { socket with point := .closed }
  | some room =>
    if c.draining then c.setSocket s { socket with point := .closed }
    else if socket.inLobby || invalidated then
      (c.setSocket s { socket with point := .closed }).removes
        room socket.participant s
    else c.setSocket s { socket with point := .retaining room }

def entryOf (s : SenderId) (socket : Socket) (room : RoomId) (version : Int) : GraceEntry where
  room := room
  participant := socket.participant
  reconnectToken := socket.reconnectToken
  authenticatedSubject := socket.subject
  authenticatedVersion := socket.subject.map fun _ => version
  sender := s
  timer := c.timers.length

def timerOf (s : SenderId) (socket : Socket) (room : RoomId) : Timer where
  room := room
  participant := socket.participant
  token := socket.reconnectToken
  subject := socket.subject
  sender := s

/-- `retain_for_reconnect`: the timer is activated once its entry is stored;
without a free place the member is removed at once. -/
def retain (s : SenderId) (socket : Socket) (room : RoomId) (version : Int) : System :=
  let inserted := c.grace.insert (c.entryOf s socket room version)
  let c := { c with
    timers := c.timers ++ [timerOf s socket room]
    grace := inserted.2 }.setSocket s { socket with point := .closed }
  if inserted.1 then c
  else
    { c with finished := c.finished ++ [c.timers.length - 1] }.removes
      room socket.participant s

def timerFires (t : TimerId) (timer : Timer) : System :=
  let taken := c.grace.removeIfTokenMatches timer.room timer.participant timer.token
    timer.subject
  let c := { c with finished := c.finished ++ [t] }
  match taken.1 with
  | none => c
  | some _ => { c with grace := taken.2 }.removes timer.room timer.participant timer.sender

def revoke (userId : ParticipantId) (minimumVersion : Int) : System :=
  let taken := c.grace.takeRevoked userId minimumVersion
  { c with
    grace := taken.2
    removals := c.removals ++ taken.1.map fun e => ⟨e.room, e.participant, e.sender, none⟩ }

def lookUpRemoval (job : ℕ) (removal : Removal) : System :=
  match c.rooms removal.room with
  | none => { c with removals := c.removals.eraseIdx job }
  | some i => { c with removals := c.removals.set job { removal with incarnation := some i } }

def remove (job : ℕ) (removal : Removal) (i : Incarnation) : System :=
  { c with removals := c.removals.eraseIdx job }.setRoom i
    ((c.room i).removeForSender removal.participant removal.sender)

def admission (i : Incarnation) (member : Member) : System :=
  let room := c.room i
  { c.setRoom i { room with
      lobby := room.lobby.erase member.id
      participants := room.participants.insert member } with
    sockets := c.sockets.modify member.sender fun socket =>
      { socket with inLobby := false } }

def expel (i : Incarnation) (id : ParticipantId) : System :=
  let room := c.room i
  c.setRoom i { room with
    lobby := room.lobby.erase id
    participants := room.participants.erase id }

def step : Action → Option System
  | .connect subject guest => some (c.connect subject guest)
  | .join s room =>
    c.sockets[s]?.bind fun socket =>
      if socket.point = .ready then some (c.join s socket room) else none
  | .reserve s =>
    c.sockets[s]?.bind fun socket =>
      match socket.point with
      | .joining room =>
        match c.rooms room with
        | none => some (c.setSocket s { socket with point := .ready })
        | some i => some (c.setSocket s { socket with point := .replacing room i })
      | _ => none
  | .replace s =>
    c.sockets[s]?.bind fun socket =>
      match socket.point with
      | .replacing room i => some (c.replace s socket room i)
      | _ => none
  | .commit s waits accepted =>
    c.sockets[s]?.bind fun socket =>
      match socket.point with
      | .committing room i => some (c.commit s socket room i waits accepted)
      | _ => none
  | .leave s =>
    c.sockets[s]?.bind fun socket =>
      if socket.point = .ready then some (c.leave s socket) else none
  | .reconnect s room participant token =>
    c.sockets[s]?.bind fun socket =>
      if socket.point = .ready then
        some (c.reconnect s socket room participant token)
      else none
  | .lookUpRebind s =>
    c.sockets[s]?.bind fun socket =>
      match socket.point with
      | .rebinding entry presented none => some (c.lookUpRebind s socket entry presented)
      | _ => none
  | .finishRebind s queued =>
    c.sockets[s]?.bind fun socket =>
      match socket.point with
      | .rebinding entry _ (some i) => some (c.finishRebind s socket entry i queued)
      | _ => none
  | .writerEnds s => some { c with
      sockets := c.sockets.modify s fun socket => { socket with writing := false } }
  | .hangUp s invalidated =>
    c.sockets[s]?.bind fun socket =>
      if socket.point = .ready then
        some (c.setSocket s { socket with point := .closing invalidated })
      else none
  | .disconnect s =>
    c.sockets[s]?.bind fun socket =>
      match socket.point with
      | .closing invalidated => some (c.disconnect s socket invalidated)
      | _ => none
  | .retain s version =>
    c.sockets[s]?.bind fun socket =>
      match socket.point with
      | .retaining room => some (c.retain s socket room version)
      | _ => none
  | .timerFires t =>
    c.timers[t]?.bind fun timer =>
      if t ∈ c.finished then none else some (c.timerFires t timer)
  | .revoke userId minimumVersion => some (c.revoke userId minimumVersion)
  | .beginDraining => some { c with draining := true }
  | .closeMap => some { c with grace := c.grace.close }
  | .lookUpRemoval job =>
    c.removals[job]?.bind fun removal =>
      if removal.incarnation.isNone then some (c.lookUpRemoval job removal) else none
  | .remove job =>
    c.removals[job]?.bind fun removal =>
      removal.incarnation.map fun i => c.remove job removal i
  | .openRoom room =>
    match c.rooms room with
    | some _ => none
    | none => some { c with
        rooms := Function.update c.rooms room (some c.nextIncarnation)
        nextIncarnation := c.nextIncarnation + 1 }
  | .closeRoom room =>
    (c.rooms room).map fun i =>
      { c with rooms := Function.update c.rooms room none }.setRoom i
        { GraceRoom.fresh with live := false }
  | .admission i id => ((c.room i).lobby.get id).map (c.admission i)
  | .expel i id => some (c.expel i id)

def run (actions : List Action) : Option System :=
  Transition.run System.step c actions

def opened (capacity : ℕ) : System where
  grace := .withCapacity capacity

end System

end SimplestChat.Grace
