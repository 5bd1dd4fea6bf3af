import SimplestChat.Policy.Requests
import SimplestChat.Support.Runs

/-!
# Joins, policy changes and producers, interleaved

One room, its saved rows, and everything that is in progress on it. A step is
one turn under the room's lock, one database answer, or one reading of the clock.

Control orders the operations that change policy or membership. At most one of
them is between its turns at a time, `System.control`; a step that needs control
for a single turn needs it to be free. Joins read their facts without control,
and streams are set up without it.
-/

namespace SimplestChat.Policy

open Transaction

/-! ## Joins -/

structure JoinRequest where
  id : ParticipantId
  sender : SenderId
  authenticated : Bool
  address : Option IpAddr
  password : Option String
deriving DecidableEq

namespace JoinRequest

def ip (request : JoinRequest) : Option IpAddr :=
  if request.authenticated then request.address else request.address.map cohort

def key (request : JoinRequest) : SanctionKey :=
  .forIdentity request.id request.authenticated request.ip

end JoinRequest

structure Snapshot where
  lobbyEnabled : Bool
  inviteOnly : Bool
  ownerId : Option ParticipantId
  passwordProtected : Bool
  passwordHash : Option PasswordHash
  persisted : Bool
  revision : ℕ
deriving DecidableEq

def Room.snapshot (room : Room) : Snapshot where
  lobbyEnabled := room.settings.any (·.lobbyEnabled)
  inviteOnly := room.settings.any (·.inviteOnly)
  ownerId := room.settings.map (·.ownerId)
  passwordProtected := room.settings.any (·.passwordProtected)
  passwordHash := room.passwordHash
  persisted := room.persisted
  revision := room.policyRevision

/-- Where a join stands: each point names the database answers so far. -/
inductive JoinPoint where
  | checkBan
  | readRole
  | readPunitive (role : Option Role)
  | verify (role : Option Role) (punitive : PunitiveState)
  | commit (role : Option Role) (punitive : PunitiveState)
deriving DecidableEq

structure Join where
  request : JoinRequest
  snapshot : Snapshot
  point : JoinPoint
deriving DecidableEq

def resolvedRole (saved : Saved) (request : JoinRequest) (snapshot : Snapshot) : Option Role :=
  if snapshot.persisted then
    snapshot.ownerId.map fun owner =>
      saved.resolveRole owner request.id request.authenticated
  else none

def persistedPunitive (saved : Saved) (request : JoinRequest) (snapshot : Snapshot) :
    PunitiveState :=
  if snapshot.persisted then saved.loadPunitiveState request.key else {}

/-- Everyone below admin must present the room's password. -/
def passwordAccepted (request : JoinRequest) (snapshot : Snapshot) (role : Option Role) : Bool :=
  !snapshot.passwordProtected || role.any (fun r => Role.admin.rank ≤ r.rank) ||
    snapshot.passwordHash.any fun hash => request.password.any hash.verify

/-- One step of a join without the room; `none` refuses it. -/
def Join.advance (saved : Saved) (now : Instant) (join : Join) : Option Join :=
  match join.point with
  | .checkBan =>
    if join.snapshot.persisted && saved.isBanned join.request.key now then none
    else some { join with point := .readRole }
  | .readRole =>
    let role := resolvedRole saved join.request join.snapshot
    if join.snapshot.persisted && role.isNone then none
    else some { join with point := .readPunitive role }
  | .readPunitive role =>
    some { join with
      point := .verify role (persistedPunitive saved join.request join.snapshot) }
  | .verify role punitive =>
    if passwordAccepted join.request join.snapshot role then
      some { join with point := .commit role punitive }
    else none
  | .commit _ _ => none

/-! ## Committing a join -/

def selectJoinRole (persisted isFirst : Bool) (resolved : Option Role)
    (authenticated : Bool) : Option Role :=
  if persisted then resolved
  else if isFirst then some .owner
  else if authenticated then some .user
  else some .guest

/-- `ensure_room_has_space`. -/
def Room.isFull (room : Room) (maxParticipantsPerRoom : Option ℕ) : Bool :=
  ((room.settings.bind (·.maxParticipants)).any fun maximum =>
      maximum = 0 || maximum ≤ room.participants.entries.length) ||
    maxParticipantsPerRoom.any fun ceiling =>
      ceiling ≤ room.participants.entries.length

def Room.joinRefusal (room : Room) (maxParticipantsPerRoom : Option ℕ)
    (request : JoinRequest) : Option String :=
  if room.identityIsBanned request.id request.authenticated request.ip then
    some "You are banned from this room"
  else if room.participants.contains request.id || room.lobby.contains request.id then
    some "This participant already has an active room session"
  else if room.settings.any (·.requireRegistration) && !request.authenticated then
    some "This room requires registration"
  else if room.settings.any (!·.guestsAllowed) && !request.authenticated then
    some "Guests are not allowed in this room"
  else if room.isFull maxParticipantsPerRoom then
    some "Room is full"
  else if 1000 ≤ room.lobby.entries.length then
    some "Room lobby is full"
  else none

structure Placement where
  lobbied : Bool
  role : Role
  punitive : PunitiveState
deriving DecidableEq

def Snapshot.waits (snapshot : Snapshot) (isFirst : Bool) (role : Role) : Bool :=
  (snapshot.inviteOnly && role.rank < Role.member.rank) ||
    (snapshot.lobbyEnabled && !isFirst && role.rank < Role.moderator.rank)

def Room.place (room : Room) (request : JoinRequest) (session : MediaSession)
    (placement : Placement) : Room :=
  let remembered : Room :=
    if placement.punitive = {} then room
    else
      { room with
        sanctions := Function.update room.sanctions request.key
          (some placement.punitive) }
  let entry : LobbyEntry :=
    ⟨request.id, request.sender, session, request.authenticated, request.ip,
      placement.role, placement.punitive⟩
  if placement.lobbied then { remembered with lobby := remembered.lobby.insert entry }
  else
    { remembered with
      participants := remembered.participants.insert { entry with producers := [] } }

def Room.decideJoin (room : Room) (maxParticipantsPerRoom : Option ℕ)
    (request : JoinRequest) (snapshot : Snapshot) (resolved : Option Role)
    (persisted : PunitiveState) : Except String Placement :=
  match room.joinRefusal maxParticipantsPerRoom request with
  | some message => .error message
  | none =>
    let isFirst := room.participants.isEmpty && room.lobby.isEmpty
    match selectJoinRole snapshot.persisted isFirst resolved
        request.authenticated with
    | none => .error "Room access could not be verified"
    | some role =>
      .ok ⟨snapshot.waits isFirst role, role, persisted.merge (room.sanctions request.key)⟩

/-- The commit of `add_participant`. -/
def Room.commitJoin (room : Room) (maxParticipantsPerRoom : Option ℕ)
    (now : Instant) (request : JoinRequest) (snapshot : Snapshot)
    (resolved : Option Role) (persisted : PunitiveState) (session : MediaSession) :
    Room × Except String Placement :=
  if room.policySnapshotMatches snapshot.revision then
    let pruned := room.pruneExpiredBans now
    match pruned.decideJoin maxParticipantsPerRoom request snapshot resolved
        persisted with
    | .error message => (pruned, .error message)
    | .ok placement => (pruned.place request session placement, .ok placement)
  else (room, .error "Room policy changed while joining; retry")

/-! ## Membership -/

/-- `remove_participant_inner`, for the connection that owns the membership. -/
def Room.removeForSender (room : Room) (id : ParticipantId) (sender : SenderId) : Room :=
  if (room.participants.get id).any (fun p => p.sender = sender) ||
      (room.lobby.get id).any (fun e => e.sender = sender) then
    (room.removeFromLobby [id]).removeParticipants [id]
  else room

def Participant.identityMatches (p : Participant) (subject : Option ParticipantId) : Bool :=
  match p.authenticated, subject with
  | true, some subject => subject = p.id
  | false, none => true
  | _, _ => false

def Room.rebind (room : Room) (id : ParticipantId) (subject : Option ParticipantId)
    (old new : SenderId) : Room :=
  if (room.participantForSender id old).any fun p => p.identityMatches subject then
    { room with
      participants := room.participants.update id (fun p => { p with sender := new })
        fun _ => rfl }
  else room

/-- `lobby_admission_state` and the move into the room. -/
def Room.admitEntry (room : Room) (entry : LobbyEntry) : Room := { room with
    lobby := room.lobby.erase entry.id
    participants := room.participants.insert
      { entry with
        punitive := entry.punitive.merge (room.sanctions entry.key)
        producers := [] } }

/-! ## Streams -/

/-- A `create_producer` between its turns. -/
inductive Production where
  | checked (id : ParticipantId) (sender : SenderId) (kind : MediaKind)
      (source : MediaSource)
  | created (id : ParticipantId) (sender : SenderId) (session : MediaSession)
      (producer : ProducerId) (kind : MediaKind) (source : MediaSource)
deriving DecidableEq

/-- A `close_producer` or `close_cam` after the streams were closed in the media
server. A member closing its own stream is known by its connection, a moderator
by the role that authorized it. -/
structure Closing where
  participant : ParticipantId
  session : MediaSession
  producers : List ProducerId
  owner : Option SenderId
  moderator : Option Role
deriving DecidableEq

def Room.recordProducer (room : Room) (id : ParticipantId) (record : Producer) : Room := { room with
    participants := room.participants.update id
      (fun p =>
        { p with producers := (p.producers.filter fun r => r.id ≠ record.id) ++ [record] })
      fun _ => rfl
    producerToParticipant :=
      Function.update room.producerToParticipant record.id (some id) }

/-- The last check of `create_producer`, under the lock. -/
def Room.mayRecord (room : Room) (id : ParticipantId) (sender : SenderId)
    (session : MediaSession) (kind : MediaKind) (source : MediaSource) : Bool :=
  (room.participantForSender id sender).any fun p =>
    p.session = session && room.participantCanProduce p kind source

def Room.closingCurrent (room : Room) (closing : Closing) : Bool :=
  !room.deleting &&
    (room.participants.get closing.participant).any fun p =>
      p.session = closing.session && closing.owner.all (p.sender = ·)

def Room.finishClosing (room : Room) (closing : Closing) : Room :=
  if room.closingCurrent closing then
    room.dropProducers (closing.producers.map fun producer =>
      (closing.participant, producer))
  else room

/-! ## The system -/

inductive Held where
  | saving (operation : Operation)
  | publishing (operation : Operation) (answer : Answer)
  | admitting (target : ParticipantId)
  | deleting
deriving DecidableEq

/-- A live room, its saved policy and the requests in progress. -/
structure System where
  room : Room
  saved : Saved
  control : Option Held
  joins : List Join
  productions : List Production
  closings : List Closing
  nextProducer : ProducerId
  nextSession : MediaSession
  now : Instant
  /-- the room's ID is kept from reuse until the server restarts -/
  reserved : Bool
  maxParticipantsPerRoom : Option ℕ
  /-- The IDs of accounts. A guest's ID is drawn at random and is none of them. -/
  accounts : ParticipantId → Bool

def Room.create (id : String) (loaded : Option (Settings × Option PasswordHash))
    (broadcasterCeiling : Option ℕ) : Room where
  id := id
  participants := .empty
  lobby := .empty
  settings := loaded.map (·.1)
  persisted := loaded.isSome
  passwordHash := loaded.bind (·.2)
  broadcasterCeiling := broadcasterCeiling
  producerToParticipant := fun _ => none
  bannedParticipants := fun _ => none
  bannedGuestIps := fun _ => none
  bannedGuestParticipants := fun _ => false
  bans := []
  nextBan := 0
  sanctions := fun _ => none
  policyRevision := 0
  deleting := false

def Saved.load (saved : Saved) : Option (Settings × Option PasswordHash) :=
  if saved.present then some (saved.settings, saved.passwordHash) else none

/-- `redeem_room_invite`: an invitation never lowers a role. -/
def Saved.grant (saved : Saved) (user : ParticipantId) (role : Role) : Saved :=
  if user = saved.settings.ownerId then saved
  else
    { saved with
      roles := Function.update saved.roles user
        (some (match saved.roles user with
          | none => role
          | some current => if current.rank < role.rank then role else current)) }

/-- Only the issuer's present role lets an invitation be redeemed. -/
def Saved.mayGrant (saved : Saved) (issuer : ParticipantId) (role : Role) : Bool :=
  let current := (saved.currentRole issuer).getD .user
  saved.present && role.isStored && Role.admin.rank ≤ current.rank &&
    role.rank < current.rank

/-! ### Actions -/

inductive JoinAction where
  | start (request : JoinRequest)
  | advance (join : Join)
  | commit (join : Join)
  | abandon (join : Join)
deriving DecidableEq

inductive MemberAction where
  | leave (id : ParticipantId) (sender : SenderId)
  | rebind (id : ParticipantId) (subject : Option ParticipantId) (old new : SenderId)
  | startAdmission (requester : Requester) (target : ParticipantId)
  | finishAdmission
  | cancelAdmission
  | deny (requester : Requester) (target : ParticipantId)
deriving DecidableEq

inductive PolicyAction where
  | authorize (requester : Requester) (request : Request)
  | save (fault : Option (Fault DriverError))
  | publish (listedAt : Instant)
  | refuseReport
  | listBans (requester : Requester)
  | redeemInvite (issuer user : ParticipantId) (role : Role)
deriving DecidableEq

inductive StreamAction where
  | check (id : ParticipantId) (sender : SenderId) (kind : MediaKind)
      (source : MediaSource)
  | create (production : Production)
  | record (production : Production)
  | close (id : ParticipantId) (sender : SenderId) (producer : ProducerId)
  | closeCam (id : ParticipantId) (sender : SenderId) (target : ParticipantId)
  | finishClosing (closing : Closing)
deriving DecidableEq

/-- How the deletion of the saved row ended; an unknown end may have been a
deletion. -/
inductive DeleteOutcome where
  | deleted
  | rejected
  | unknown (applied : Bool)
deriving DecidableEq

inductive LifeAction where
  | startDelete (user : ParticipantId)
  | finishDelete (outcome : DeleteOutcome)
  | closeForRejoin
  | evict
  | reopen
deriving DecidableEq

/-- The steps of a policy room: the clock, and the turns of each kind of request. -/
inductive Action where
  | tick (time : Instant)
  | join (action : JoinAction)
  | member (action : MemberAction)
  | policy (action : PolicyAction)
  | stream (action : StreamAction)
  | life (action : LifeAction)
deriving DecidableEq

namespace System

/-! ### Joins -/

def startJoin (c : System) (request : JoinRequest) : Option System :=
  if c.control = none ∧ request.authenticated = c.accounts request.id then
    some { c with joins := ⟨request, c.room.snapshot, .checkBan⟩ :: c.joins }
  else none

def advanceJoin (c : System) (join : Join) : Option System :=
  if join ∈ c.joins then
    some { c with
      joins := (join.advance c.saved c.now).toList ++ c.joins.erase join }
  else none

def commitJoin (c : System) (join : Join) : Option System :=
  match join.point with
  | .commit role punitive =>
    if c.control = none ∧ join ∈ c.joins then
      some { c with
        room := (c.room.commitJoin c.maxParticipantsPerRoom c.now join.request
          join.snapshot role punitive c.nextSession).1
        joins := c.joins.erase join
        nextSession := c.nextSession + 1 }
    else none
  | _ => none

def joinStep (c : System) : JoinAction → Option System
  | .start request => c.startJoin request
  | .advance join => c.advanceJoin join
  | .commit join => c.commitJoin join
  | .abandon join => some { c with joins := c.joins.erase join }

/-! ### Membership -/

/-- The first turn of an admission: space and the ban gate. -/
def startAdmission (c : System) (requester : Requester) (target : ParticipantId) : Option System :=
  match authority c.room c.saved requester, c.room.lobby.get target with
  | some actor, some entry =>
    if c.control = none ∧ actor.role.canAdmitLobby ∧ c.room.deleting = false ∧
        c.room.isFull c.maxParticipantsPerRoom = false then
      let pruned := c.room.pruneExpiredBans c.now
      some { c with
        room := pruned
        control :=
          if pruned.identityIsBanned entry.id entry.authenticated entry.ip then none
          else some (.admitting target) }
    else none
  | _, _ => none

def finishAdmission (c : System) : Option System :=
  match c.control with
  | some (.admitting target) =>
    some { c with
      control := none
      room :=
        match c.room.lobby.get target with
        | some entry => if c.room.deleting then c.room else c.room.admitEntry entry
        | none => c.room }
  | _ => none

def cancelAdmission (c : System) : Option System :=
  match c.control with
  | some (.admitting _) => some { c with control := none }
  | _ => none

/-- A refusal at the door. The entry's own role is not looked at. -/
def deny (c : System) (requester : Requester) (target : ParticipantId) : Option System :=
  match authority c.room c.saved requester with
  | some actor =>
    if c.control = none ∧ actor.role.canAdmitLobby ∧ c.room.deleting = false then
      some { c with room := c.room.removeFromLobby [target] }
    else none
  | none => none

def memberStep (c : System) : MemberAction → Option System
  | .leave id sender =>
    if c.control = none then some { c with room := c.room.removeForSender id sender }
    else none
  | .rebind id subject old new =>
    if c.control = none then some { c with room := c.room.rebind id subject old new }
    else none
  | .startAdmission requester target => c.startAdmission requester target
  | .finishAdmission => c.finishAdmission
  | .cancelAdmission => c.cancelAdmission
  | .deny requester target => c.deny requester target

/-! ### Policy -/

/-- The first turn of a policy change. A refused request may still have dropped
expired bans. -/
def authorize (c : System) (requester : Requester) (request : Request) : Option System :=
  if c.control = none then
    let pruned := prunedFor c.room c.now request
    match planOperation pruned c.saved c.now requester request with
    | none => some { c with room := pruned }
    | some operation =>
      if pruned.persisted then
        some { c with room := pruned, control := some (.saving operation) }
      else if operation.change.immediate then
        some { c with room := operation.change.publish pruned .saved c.now c.now }
      else
        some { c with room := pruned, control := some (.publishing operation .saved) }
  else none

/-- The database work. A commit in doubt takes the room down for good. -/
def save (c : System) (fault : Option (Fault DriverError)) : Option System :=
  match c.control with
  | some (.saving operation) =>
    let (saved, result) := operation.change.persist c.saved fault
    match result with
    | .ok answer => some { c with saved, control := some (.publishing operation answer) }
    | .error error =>
      if persistenceIsIndeterminate error then
        some { c with
          saved
          control := none
          room := c.room.tombstone.clearMembers
          reserved := true }
      else some { c with saved, control := none }
  | _ => none

/-- The second turn. The clock is read again when a ban is listed. -/
def publish (c : System) (listedAt : Instant) : Option System :=
  match c.control with
  | some (.publishing operation answer) =>
    if c.now ≤ listedAt then
      some { c with
        control := none
        now := listedAt
        room :=
          if operation.mayPublish c.room then
            operation.change.publish c.room answer c.now listedAt
          else c.room }
    else none
  | _ => none

/-- A room without rows finds out in the second turn that the report a ban
answers is none of its own. -/
def refuseReport (c : System) : Option System :=
  match c.control with
  | some (.publishing ⟨_, _, .removal _ _ (some _) _⟩ _) =>
    if c.room.persisted then none else some { c with control := none }
  | _ => none

def listBans (c : System) (requester : Requester) : Option System :=
  match authority c.room c.saved requester with
  | some actor =>
    if c.control = none ∧ actor.role.canChangeSettings ∧ c.room.persisted = false then
      some { c with room := c.room.pruneListedBans c.now }
    else none
  | none => none

def policyStep (c : System) : PolicyAction → Option System
  | .authorize requester request => c.authorize requester request
  | .save fault => c.save fault
  | .publish listedAt => c.publish listedAt
  | .refuseReport => c.refuseReport
  | .listBans requester => c.listBans requester
  | .redeemInvite issuer user role =>
    if c.saved.mayGrant issuer role then
      some { c with saved := c.saved.grant user role }
    else none

/-! ### Streams -/

def createProducer (c : System) (production : Production) : Option System :=
  match production with
  | .checked id sender kind source =>
    match c.room.participantForSender id sender with
    | some p =>
      if production ∈ c.productions then
        some { c with
          productions :=
            .created id sender p.session c.nextProducer kind source ::
              c.productions.erase production
          nextProducer := c.nextProducer + 1 }
      else none
    | none => none
  | .created _ _ _ _ _ _ => none

/-- The last turn of `create_producer`. -/
def recordProducer (c : System) (production : Production) : Option System :=
  match production with
  | .created id sender session producer kind source =>
    if production ∈ c.productions then
      some { c with
        productions := c.productions.erase production
        room :=
          if c.room.mayRecord id sender session kind source then
            c.room.recordProducer id ⟨producer, kind, some source⟩
          else c.room }
    else none
  | .checked _ _ _ _ => none

def closeProducer (c : System) (id : ParticipantId) (sender : SenderId)
    (producer : ProducerId) : Option System :=
  match c.room.participantForSender id sender with
  | some p =>
    if p.producers.any fun record => record.id = producer then
      some { c with
        closings := ⟨id, p.session, [producer], some sender, none⟩ :: c.closings }
    else none
  | none => none

def closeCam (c : System) (id : ParticipantId) (sender : SenderId)
    (target : ParticipantId) : Option System :=
  match c.room.participantForSender id sender, c.room.participants.get target with
  | some moderator, some p =>
    if c.control = none ∧ moderator.role.canModerate p.role then
      some { c with
        closings :=
          ⟨target, p.session,
            (p.producers.filter fun record => record.kind = .video).map (·.id), none,
            some moderator.role⟩ :: c.closings }
    else none
  | _, _ => none

def streamStep (c : System) : StreamAction → Option System
  | .check id sender kind source =>
    if (c.room.participantForSender id sender).any fun p =>
        c.room.participantCanProduce p kind source then
      some { c with productions := .checked id sender kind source :: c.productions }
    else none
  | .create production => c.createProducer production
  | .record production => c.recordProducer production
  | .close id sender producer => c.closeProducer id sender producer
  | .closeCam id sender target => c.closeCam id sender target
  | .finishClosing closing =>
    if closing ∈ c.closings then
      some { c with
        closings := c.closings.erase closing
        room := c.room.finishClosing closing }
    else none

/-! ### Lifecycle -/

def startDelete (c : System) (user : ParticipantId) : Option System :=
  if c.control = none ∧ c.room.deleting = false ∧ c.room.persisted ∧
      c.saved.present ∧ c.saved.settings.ownerId = user then
    some { c with room := c.room.tombstone, control := some .deleting }
  else none

def finishDelete (c : System) (outcome : DeleteOutcome) : Option System :=
  match c.control with
  | some .deleting =>
    match outcome with
    | .deleted =>
      some { c with
        control := none
        room := c.room.clearMembers
        saved := { c.saved with present := false } }
    | .rejected => some { c with control := none, room := c.room.restore }
    | .unknown applied =>
      some { c with
        control := none
        reserved := true
        saved := { c.saved with present := c.saved.present && !applied } }
  | _ => none

def evict (c : System) : Option System :=
  if c.control = none ∧ c.room.deleting = false ∧ c.joins = [] ∧
      c.room.participants.isEmpty ∧ c.room.lobby.isEmpty then
    some { c with room := c.room.tombstone }
  else none

/-- The next join of a room that is gone creates it anew. Joins of the old room
hold on to it; streams find the new one by its ID. -/
def reopen (c : System) : Option System :=
  if c.control = none ∧ c.room.deleting ∧ c.reserved = false then
    some { c with
      room := Room.create c.room.id c.saved.load c.room.broadcasterCeiling
      joins := [] }
  else none

def lifeStep (c : System) : LifeAction → Option System
  | .startDelete user => c.startDelete user
  | .finishDelete outcome => c.finishDelete outcome
  | .closeForRejoin =>
    if c.control = none then some { c with room := c.room.tombstone.clearMembers }
    else none
  | .evict => c.evict
  | .reopen => c.reopen

def step (c : System) : Action → Option System
  | .tick time => if c.now ≤ time then some { c with now := time } else none
  | .join action => c.joinStep action
  | .member action => c.memberStep action
  | .policy action => c.policyStep action
  | .stream action => c.streamStep action
  | .life action => c.lifeStep action

abbrev run : System → List Action → Option System :=
  Transition.run step

/-- A room that was just created, with nothing in progress. -/
structure Initial (c : System) : Prop where
  room : ∃ id ceiling, c.room = Room.create id c.saved.load ceiling
  control : c.control = none
  joins : c.joins = []
  productions : c.productions = []
  closings : c.closings = []

end System

/-! ## Sample rooms -/

def Saved.absent : Saved where
  present := false
  settings := .defaults "lounge"
  passwordHash := none
  roles := fun _ => none
  punitive := fun _ => {}
  bans := []
  nextBan := 0
  reports := []

def Saved.lounge : Saved := { Saved.absent with
    present := true
    settings := { Settings.defaults "lounge" with ownerId := 1 } }

/-- A room that was just created. Accounts have the IDs below 10. -/
def System.opened (saved : Saved) : System where
  room := Room.create "lounge" saved.load none
  saved := saved
  control := none
  joins := []
  productions := []
  closings := []
  nextProducer := 0
  nextSession := 0
  now := 0
  reserved := false
  maxParticipantsPerRoom := none
  accounts := fun id => id < 10

theorem System.opened_initial (saved : Saved) : (System.opened saved).Initial :=
  ⟨⟨_, _, rfl⟩, rfl, rfl, rfl, rfl⟩

def Join.reads (request : JoinRequest) (snapshot : Snapshot) (role : Option Role)
    (punitive : PunitiveState) : List Action :=
  [.join (.start request), .join (.advance ⟨request, snapshot, .checkBan⟩),
    .join (.advance ⟨request, snapshot, .readRole⟩),
    .join (.advance ⟨request, snapshot, .readPunitive role⟩),
    .join (.advance ⟨request, snapshot, .verify role punitive⟩)]

def Join.enters (request : JoinRequest) (snapshot : Snapshot) (role : Option Role)
    (punitive : PunitiveState) : List Action :=
  Join.reads request snapshot role punitive ++
    [.join (.commit ⟨request, snapshot, .commit role punitive⟩)]

end SimplestChat.Policy
