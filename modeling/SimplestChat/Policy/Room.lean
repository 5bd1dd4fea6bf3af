import SimplestChat.Room.Database
import SimplestChat.Support.Roster

/-!
# The policy of a runtime room

Who is in a room, who waits for it, what each of them may do, and what the room
remembers about people who left: restrictions and bans. The definitions follow
the room's own functions; each is one turn under the room's lock, or a part of
one.

The two member maps are rosters, so a participant is in the room at most once by
type. Maps that are only read at a key are functions. The clock is a count of
nanoseconds.
-/

namespace SimplestChat.Policy

/-! ## Addresses -/

inductive IpAddr where
  | v4 (bits : BitVec 32)
  | v6 (network host : BitVec 64)
deriving DecidableEq

/-- The identity an address is limited, banned and muted by: the exact IPv4
address, a mapped one as that IPv4 address, any other IPv6 address as its /64. -/
def cohort : IpAddr → IpAddr
  | .v4 bits => .v4 bits
  | .v6 network host =>
    if network = 0 ∧ host >>> 32 = 0xffff then .v4 (host.truncate 32)
    else .v6 network 0

/-! ## Restrictions -/

structure PunitiveState where
  camBanned : Bool := false
  textMuted : Bool := false
deriving DecidableEq

namespace PunitiveState

/-- `punitive_value`. -/
def value (state : PunitiveState) : PunitiveKind → Bool
  | .camBanned => state.camBanned
  | .muted => state.textMuted

def set (state : PunitiveState) (kind : PunitiveKind) (enabled : Bool) :
    PunitiveState :=
  match kind with
  | .camBanned => { state with camBanned := enabled }
  | .muted => { state with textMuted := enabled }

/-- `merge_punitive_state`: restrictions only add up. -/
def merge (resolved : PunitiveState) (inMemory : Option PunitiveState) :
    PunitiveState :=
  match inMemory with
  | none => resolved
  | some state => ⟨resolved.camBanned || state.camBanned, resolved.textMuted || state.textMuted⟩

end PunitiveState

/-- What a restriction is kept under: an identity that outlives a connection. -/
inductive SanctionKey where
  | user (id : ParticipantId)
  | guestIp (ip : IpAddr)
  | connection (id : ParticipantId)
deriving DecidableEq

def SanctionKey.forIdentity (id : ParticipantId) (authenticated : Bool)
    (ip : Option IpAddr) : SanctionKey :=
  if authenticated then .user id
  else
    match ip with
    | some ip => .guestIp (cohort ip)
    | none => .connection id

/-! ## People -/

abbrev MediaSession := ℕ

abbrev ProducerId := ℕ

inductive MediaKind where
  | audio | video
deriving DecidableEq

inductive MediaSource where
  | microphone | screenAudio | camera | screen
  | other (label : String)
deriving DecidableEq

def validMediaSource : MediaKind → MediaSource → Bool
  | .audio, .microphone | .audio, .screenAudio => true
  | .video, .camera | .video, .screen => true
  | _, _ => false

/-- A `ProducerRecord` under its ID. -/
structure Producer where
  id : ProducerId
  kind : MediaKind
  source : Option MediaSource
deriving DecidableEq

structure LobbyEntry where
  id : ParticipantId
  sender : SenderId
  session : MediaSession
  authenticated : Bool
  ip : Option IpAddr
  role : Role
  punitive : PunitiveState
deriving DecidableEq

def LobbyEntry.key (entry : LobbyEntry) : SanctionKey :=
  .forIdentity entry.id entry.authenticated entry.ip

/-- A member keeps everything a lobby entry carries, and has producers. -/
structure Participant extends LobbyEntry where
  producers : List Producer
deriving DecidableEq

/-! ## Bans -/

/-- Nanoseconds of the server's clock. -/
abbrev Instant := ℕ

/-- When a ban ends; `none` never ends. -/
abbrev Expiry := Option Instant

/-- `expiry.is_none_or(|expiry| expiry > now)`. -/
def Expiry.live (expiry : Expiry) (now : Instant) : Bool :=
  expiry.all fun time => now < time

def expiryAfter (now : Instant) (duration : Option ℕ) : Expiry :=
  duration.map fun seconds => now + seconds * 10 ^ 9

structure RuntimeBan where
  banId : ℕ
  authenticated : Bool
  participantIds : List ParticipantId
  guestIp : Option IpAddr
  expiry : Expiry
deriving DecidableEq

/-! ## Settings -/

/-- `RoomSettings` with the columns that are not in a settings patch. -/
structure Settings extends RoomSettings where
  ownerId : ParticipantId
  displayName : String
  passwordProtected : Bool
  topic : Option String
  historyRetentionDays : ℕ
deriving DecidableEq

/-- The settings of a room that has none stored: open, unmoderated, unowned.
The nil UUID is `0`. -/
def Settings.defaults (roomId : String) : Settings where
  moderated := false
  lobbyEnabled := false
  guestsAllowed := true
  guestsCanBroadcast := true
  maxBroadcasters := none
  maxParticipants := none
  allowScreenSharing := true
  allowChat := true
  allowVideo := true
  requireRegistration := false
  inviteOnly := false
  pushToTalk := false
  secret := false
  ownerId := 0
  displayName := roomId
  passwordProtected := false
  topic := none
  historyRetentionDays := 0

/-- What is drawn for a new hash: the salt, and which texts besides the password itself will
verify against the hash. Normalization and Argon2 decide that; it is left open here. -/
structure Salt where
  value : ℕ
  spellings : List String := []
deriving DecidableEq

/-- A stored hash, with the texts that verify against it. Two hashes of one password differ
in their salt. -/
structure PasswordHash where
  salt : ℕ
  accepted : List String
deriving DecidableEq

def PasswordHash.verify (hash : PasswordHash) (supplied : String) : Bool :=
  supplied ∈ hash.accepted

/-! ## Rooms -/

structure Room where
  id : String
  participants : Roster fun p : Participant => p.id
  lobby : Roster LobbyEntry.id
  settings : Option Settings
  persisted : Bool
  passwordHash : Option PasswordHash
  broadcasterCeiling : Option ℕ
  producerToParticipant : ProducerId → Option ParticipantId
  bannedParticipants : ParticipantId → Option Expiry
  bannedGuestIps : IpAddr → Option Expiry
  bannedGuestParticipants : ParticipantId → Bool
  /-- the listed bans, `social.bans` -/
  bans : List RuntimeBan
  /-- the next listed ban's random ID -/
  nextBan : ℕ
  sanctions : SanctionKey → Option PunitiveState
  /-- The publications so far. The server keeps this number modulo `2 ^ 64`,
  which is all that `policySnapshotMatches` looks at. -/
  policyRevision : ℕ
  deleting : Bool

namespace Room

/-- Everyone the room knows: the participants, then the waiting. -/
def people (room : Room) : List LobbyEntry :=
  room.participants.entries.map (·.toLobbyEntry) ++ room.lobby.entries

def bumpPolicy (room : Room) : Room :=
  { room with policyRevision := room.policyRevision + 1 }

def policySnapshotMatches (room : Room) (revision : ℕ) : Bool :=
  !room.deleting && room.policyRevision % 2 ^ 64 = revision % 2 ^ 64

/-- The participant that this connection still owns in a live room. -/
def participantForSender (room : Room) (id : ParticipantId) (sender : SenderId) :
    Option Participant :=
  if room.deleting then none
  else (room.participants.get id).filter fun p => p.sender = sender

/-! ### Bans -/

def pruneExpiredBans (room : Room) (now : Instant) : Room :=
  let bannedParticipants := fun id =>
    (room.bannedParticipants id).filter fun expiry => expiry.live now
  { room with
    bannedParticipants := bannedParticipants
    bannedGuestIps := fun ip =>
      (room.bannedGuestIps ip).filter fun expiry => expiry.live now
    bannedGuestParticipants := fun id =>
      room.bannedGuestParticipants id && (bannedParticipants id).isSome }

def identityIsBanned (room : Room) (id : ParticipantId) (authenticated : Bool)
    (ip : Option IpAddr) : Bool :=
  (room.bannedParticipants id).isSome ||
    (!authenticated &&
      ip.any fun address => (room.bannedGuestIps (cohort address)).isSome)

def recordBannedCohort (room : Room) (ids : List ParticipantId)
    (authenticated : Bool) (ip : Option IpAddr) (expiry : Expiry) : Room :=
  { room with
    bannedParticipants := fun id =>
      if id ∈ ids then some expiry else room.bannedParticipants id
    bannedGuestParticipants := fun id =>
      room.bannedGuestParticipants id || (!authenticated && id ∈ ids)
    bannedGuestIps := fun address =>
      if !authenticated ∧ ip.map cohort = some address then some expiry
      else room.bannedGuestIps address }

def pruneListedBans (room : Room) (now : Instant) : Room :=
  { room with bans := room.bans.filter fun ban => ban.expiry.live now }

def recordBan (room : Room) (authenticated : Bool) (ids : List ParticipantId)
    (ip : Option IpAddr) (expiry : Expiry) : Room :=
  { room with
    bans := room.bans ++
      [{ banId := room.nextBan
         authenticated := authenticated
         participantIds := ids
         guestIp := if authenticated then none else ip.map cohort
         expiry := expiry }]
    nextBan := room.nextBan + 1 }

/-- `MAX_RUNTIME_BANS`. -/
def maxRuntimeBans : ℕ := 2000

def forgetUserBan (room : Room) (id : ParticipantId) : Room :=
  { room with
    bans := room.bans.filter fun ban =>
      !(ban.authenticated && id ∈ ban.participantIds) }

def RuntimeBan.matches (ban : RuntimeBan) (user : Option ParticipantId)
    (guestIp : Option IpAddr) : Bool :=
  user.any (fun id => id ∈ ban.participantIds) ||
    guestIp.any fun ip => ban.guestIp = some ip

def publishUnban (room : Room) (user : Option ParticipantId)
    (guestIp : Option IpAddr) (released : List ParticipantId) : Room :=
  let affected := released ++
    (room.bans.filter fun ban => RuntimeBan.matches ban user guestIp).flatMap
      (·.participantIds)
  { room.bumpPolicy with
    bans := room.bans.filter fun ban => !RuntimeBan.matches ban user guestIp
    bannedParticipants := fun id =>
      if user = some id ∨ id ∈ affected then none else room.bannedParticipants id
    bannedGuestIps := fun ip =>
      if guestIp = some ip then none else room.bannedGuestIps ip
    bannedGuestParticipants := fun id =>
      room.bannedGuestParticipants id && id ∉ affected }

/-! ### Cohorts -/

/-- A guest of this address cohort. -/
def isGuestOf (authenticated : Bool) (ip : Option IpAddr) (address : IpAddr) :
    Bool :=
  !authenticated && ip.map cohort = some (cohort address)

/-- The participants that a sanction of this one reaches: a guest with an address
stands for all guests of that address. -/
def reach (room : Room) (person : Participant) : List ParticipantId :=
  match person.authenticated, person.ip with
  | false, some ip =>
    (room.participants.entries.filter fun (p : Participant) =>
      isGuestOf p.authenticated p.ip ip).map fun p => p.id
  | _, _ => [person.id]

def lobbyReach (room : Room) (authenticated : Bool) (ip : Option IpAddr) :
    List ParticipantId :=
  match authenticated, ip with
  | false, some ip =>
    (room.lobby.entries.filter fun (e : LobbyEntry) =>
      isGuestOf e.authenticated e.ip ip).map fun e => e.id
  | _, _ => []

/-- Everyone in the room that a sanction of the target reaches; the actor must
outrank all of them. -/
def moderationCohort (room : Room) (target : ParticipantId) (role : Role) :
    Option (List ParticipantId) :=
  (room.participants.get target).bind fun person =>
    if (room.reach person).all fun id =>
        (room.participants.get id).any fun p => role.canModerate p.role then
      some ((room.reach person).insertionSort (· ≤ ·))
    else none

def guestIpLobbyCohort (room : Room) (authenticated : Bool) (ip : Option IpAddr)
    (role : Role) : Option (List ParticipantId) :=
  if (room.lobbyReach authenticated ip).all fun id =>
      (room.lobby.get id).any fun e => role.canModerate e.role then
    some ((room.lobbyReach authenticated ip).insertionSort (· ≤ ·))
  else none

/-! ### Producers -/

/-- `moderation::can_produce`: a camera ban is about the media kind, whatever
source the client declares. -/
def canProduce (state : PunitiveState) (role : Role) (moderated : Bool)
    (kind : MediaKind) : Bool :=
  !(state.camBanned && kind = .video) && !(moderated && !role.canBroadcast true)

def settingsPermit (settings : Settings) (role : Role) (kind : MediaKind)
    (source : MediaSource) : Bool :=
  !(role = .guest && !settings.guestsCanBroadcast) &&
    !(!settings.allowScreenSharing && (source = .screen || source = .screenAudio)) &&
    !(!settings.allowVideo && kind = .video && source = .camera)

def producerAllowedWithoutCapacity (room : Room) (participant : Participant)
    (kind : MediaKind) (source : MediaSource) : Bool :=
  validMediaSource kind source &&
    room.settings.all (fun s => settingsPermit s participant.role kind source) &&
    canProduce participant.punitive participant.role
      (room.settings.any (·.moderated)) kind

def permits (room : Room) (participant : Participant) (record : Producer) : Bool :=
  record.source.any fun source =>
    room.producerAllowedWithoutCapacity participant record.kind source

/-- The smaller of the room's own limit and the deployment's ceiling. -/
def broadcasterLimit (room : Room) : Option ℕ :=
  match room.settings.bind (·.maxBroadcasters), room.broadcasterCeiling with
  | some own, some ceiling => some (min own ceiling)
  | own, ceiling => own.or ceiling

def broadcasterCount (room : Room) : ℕ :=
  room.participants.count fun p => !p.producers.isEmpty

def participantCanProduce (room : Room) (participant : Participant)
    (kind : MediaKind) (source : MediaSource) : Bool :=
  room.producerAllowedWithoutCapacity participant kind source &&
    room.broadcasterLimit.all fun limit =>
      !(participant.producers.isEmpty && limit ≤ room.broadcasterCount)

def dropProducers (room : Room) (dropped : List (ParticipantId × ProducerId)) :
    Room :=
  { room with
    participants := room.participants.map
      (fun p => { p with producers := p.producers.filter fun r => (p.id, r.id) ∉ dropped })
      fun _ => rfl
    producerToParticipant := fun producer =>
      if producer ∈ dropped.map Prod.snd then none
      else room.producerToParticipant producer }

/-- More privileged roles first, then the smaller ID. -/
def broadcastsBefore (p q : Participant) : Prop :=
  q.role.rank < p.role.rank ∨ (q.role.rank = p.role.rank ∧ p.id ≤ q.id)

instance (p q : Participant) : Decidable (broadcastsBefore p q) :=
  inferInstanceAs (Decidable (_ ∨ _))

def overCapacity (room : Room) : List ParticipantId :=
  match room.broadcasterLimit with
  | none => []
  | some limit =>
    let candidates :=
      room.participants.entries.filter fun p => p.producers.any (room.permits p)
    ((candidates.insertionSort broadcastsBefore).drop limit).map (·.id)

def unauthorizedProducers (room : Room) (only : Option ParticipantId) :
    List (ParticipantId × ProducerId) :=
  (room.participants.entries.filter fun p => only.all (p.id = ·)).flatMap fun p =>
    (p.producers.filter fun record =>
      !room.permits p record || p.id ∈ room.overCapacity).map fun record =>
        (p.id, record.id)

def revokeUnauthorizedProducers (room : Room) (only : Option ParticipantId) : Room :=
  room.dropProducers (room.unauthorizedProducers only)

/-! ### Publications -/

structure SanctionPublication where
  target : ParticipantId
  participants : List ParticipantId
  lobby : List ParticipantId
  authenticated : Bool
  ip : Option IpAddr
  kind : PunitiveKind
  enabled : Bool
deriving DecidableEq

def SanctionPublication.key (publication : SanctionPublication) : SanctionKey :=
  .forIdentity publication.target publication.authenticated publication.ip

structure RemovalPublication where
  ban : Bool
  participants : List ParticipantId
  lobby : List ParticipantId
  authenticated : Bool
  ip : Option IpAddr
  duration : Option ℕ
deriving DecidableEq

def punitiveCohortMatches (room : Room) (participants lobby : List ParticipantId)
    (key : SanctionKey) (kind : PunitiveKind) (enabled : Bool) : Bool :=
  (room.sanctions key).any (fun state => state.value kind) = enabled &&
    participants.all (fun id =>
      (room.participants.get id).any fun p => p.punitive.value kind = enabled) &&
    lobby.all fun id =>
      (room.lobby.get id).any fun e => e.punitive.value kind = enabled

def cohortPunitive (room : Room) (participants lobby : List ParticipantId)
    (key : SanctionKey) : PunitiveState :=
  let stored := (room.sanctions key).getD {}
  let inside := participants.foldl
    (fun state id => state.merge ((room.participants.get id).map (·.punitive))) stored
  lobby.foldl
    (fun state id => state.merge ((room.lobby.get id).map (·.punitive))) inside

def applyPunitiveToCohort (room : Room) (participants lobby : List ParticipantId)
    (key : SanctionKey) (kind : PunitiveKind) (enabled : Bool) : Room :=
  let punitive := (room.cohortPunitive participants lobby key).set kind enabled
  { room with
    participants := room.participants.map
      (fun p => if p.id ∈ participants then { p with punitive } else p)
      fun p => by split <;> rfl
    lobby := room.lobby.map
      (fun e => if e.id ∈ lobby then { e with punitive } else e)
      fun e => by split <;> rfl
    sanctions := Function.update room.sanctions key
      (if punitive = {} then none else some punitive) }

def publishSanction (room : Room) (publication : SanctionPublication) : Room :=
  let applied := room.applyPunitiveToCohort publication.participants
    publication.lobby publication.key publication.kind publication.enabled
  let revoked :=
    if publication.kind = .camBanned ∧ publication.enabled then
      publication.participants.foldl
        (fun room id => room.revokeUnauthorizedProducers (some id)) applied
    else applied
  revoked.bumpPolicy

def removeParticipants (room : Room) (ids : List ParticipantId) : Room :=
  { room with
    participants := room.participants.filter fun p => p.id ∉ ids
    producerToParticipant := fun producer =>
      if (room.participants.entries.any fun p =>
          p.id ∈ ids && p.producers.any fun record => record.id = producer) then none
      else room.producerToParticipant producer }

def removeFromLobby (room : Room) (ids : List ParticipantId) : Room :=
  { room with lobby := room.lobby.filter fun e => e.id ∉ ids }

/-- Remove a kicked or banned cohort and remember a ban. The clock is read once
for the gate and once more for the list. -/
def publishRemoval (room : Room) (publication : RemovalPublication)
    (now listedAt : Instant) : Room :=
  let ids := publication.participants ++ publication.lobby
  let remembered :=
    if publication.ban then
      (room.recordBannedCohort ids publication.authenticated publication.ip
          (expiryAfter now publication.duration)).recordBan
        publication.authenticated ids publication.ip
        (expiryAfter listedAt publication.duration)
    else room
  let removed := remembered.removeParticipants publication.participants
  let denied :=
    if publication.ban then removed.removeFromLobby publication.lobby else removed
  denied.bumpPolicy

def publishRole (room : Room) (target : ParticipantId) (role : Role) : Room :=
  let changed : Room :=
    { room with
      participants := room.participants.update target
        (fun p => { p with role }) fun _ => rfl
      lobby := room.lobby.update target (fun e => { e with role }) fun _ => rfl }
  changed.bumpPolicy.revokeUnauthorizedProducers (some target)

def publishSettings (room : Room) (settings : Settings)
    (passwordHash : Option (Option PasswordHash)) : Room :=
  let changed : Room :=
    { room with
      settings := some settings
      passwordHash := passwordHash.getD room.passwordHash }
  changed.bumpPolicy.revokeUnauthorizedProducers none

/-! ### Closing -/

def tombstone (room : Room) : Room :=
  { room.bumpPolicy with deleting := true }

def restore (room : Room) : Room :=
  { room.bumpPolicy with deleting := false }

def clearMembers (room : Room) : Room :=
  { room with
    participants := .empty
    lobby := .empty
    producerToParticipant := fun _ => none }

end Room

end SimplestChat.Policy
