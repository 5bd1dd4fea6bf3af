import Mathlib

/-!
# Runtime rooms and the manager's entry for one room ID

`Room` carries the fields of a runtime room that admission, membership and
teardown read. Maps keyed by participant become lists of records, and the
channel of a connection is a number, so that `same_channel` is equality.

All maps of the room manager are keyed by room ID and every operation touches
only its own ID. `Slot` is therefore the manager as one room ID sees it: the
mapped incarnation, the heap of incarnations ever created under the ID, the
deletion reservation and the router. The locks that order the operations are
not part of the slot; they belong to the tasks that hold them.
-/

namespace SimplestChat

/-! ## Identities -/

abbrev RoomId := ℕ

/-- A participant's UUID; for a registered person this is the account's. -/
abbrev ParticipantId := ℕ

abbrev SenderId := ℕ

/-- One `Arc` of a runtime room: two incarnations of a room ID differ here. -/
abbrev Incarnation := ℕ

/-- The random token of one deletion reservation. -/
abbrev Token := ℕ

abbrev WorkerId := ℕ

/-- An address cohort, as `net::cohort` groups guest addresses. -/
abbrev Cohort := ℕ

/-! ## Roles -/

/-- A participant's standing in a room, from least to most trusted. -/
inductive Role where
  | guest | user | member | moderator | admin | owner
deriving DecidableEq

namespace Role

/-- The stored discriminant, which is also the order. -/
def rank : Role → ℕ
  | guest => 0
  | user => 1
  | member => 2
  | moderator => 3
  | admin => 4
  | owner => 5

def isStored : Role → Bool
  | member | moderator | admin => true
  | guest | user | owner => false

def canModerate (role target : Role) : Bool :=
  moderator.rank ≤ role.rank && target.rank < role.rank

def canSetRole (role target newRole : Role) : Bool :=
  moderator.rank ≤ role.rank && target.rank < role.rank &&
    newRole.rank < role.rank && newRole ≠ owner

def canAdmitLobby (role : Role) : Bool :=
  moderator.rank ≤ role.rank

def canBroadcast (role : Role) (moderated : Bool) : Bool :=
  !moderated || member.rank ≤ role.rank

def canChangeSettings (role : Role) : Bool :=
  admin.rank ≤ role.rank

theorem not_canModerate_self (role : Role) : role.canModerate role = false := by
  simp [canModerate]

end Role

/-! ## Rooms -/

structure Participant where
  id : ParticipantId
  sender : SenderId
  role : Role
  authenticated : Bool
  ip : Option Cohort
deriving DecidableEq

structure LobbyEntry where
  id : ParticipantId
  sender : SenderId
  role : Role
  authenticated : Bool
  ip : Option Cohort
deriving DecidableEq

structure Room where
  participants : List Participant
  lobby : List LobbyEntry
  persisted : Bool
  pendingJoins : ℕ
  policyRevision : ℕ
  deleting : Bool
deriving DecidableEq

namespace Room

def participant (room : Room) (id : ParticipantId) : Option Participant :=
  room.participants.find? fun p => p.id = id

def lobbyEntry (room : Room) (id : ParticipantId) : Option LobbyEntry :=
  room.lobby.find? fun e => e.id = id

def isEmpty (room : Room) : Bool :=
  room.participants.isEmpty && room.lobby.isEmpty

/-- `policy_revision` is a wrapping `u64`. -/
def bumpPolicy (room : Room) : Room :=
  { room with policyRevision := (room.policyRevision + 1) % 2 ^ 64 }

/-- Set the tombstone that rejects later commits. -/
def tombstone (room : Room) : Room := { room.bumpPolicy with deleting := true }

def restore (room : Room) : Room := { room.bumpPolicy with deleting := false }

def clearMembers (room : Room) : Room := { room with participants := [], lobby := [] }

def policySnapshotMatches (room : Room) (revision : ℕ) : Bool :=
  !room.deleting && room.policyRevision = revision

def participantForSender (room : Room) (id : ParticipantId)
    (sender : SenderId) : Option Participant :=
  if room.deleting then none
  else (room.participant id).filter fun p => p.sender = sender

def senderMatches (room : Room) (id : ParticipantId) (sender : SenderId) : Bool :=
  (room.participant id).any (fun p => p.sender = sender) ||
    (room.lobbyEntry id).any fun e => e.sender = sender

def removeMember (room : Room) (id : ParticipantId) : Room := { room with
    participants := room.participants.filter fun p => p.id ≠ id
    lobby := room.lobby.filter fun e => e.id ≠ id }

def enter (room : Room) (p : Participant) : Room := { room with
    participants := room.participants ++ [p]
    pendingJoins := room.pendingJoins - 1 }

def enterLobby (room : Room) (e : LobbyEntry) : Room := { room with
    lobby := room.lobby ++ [e]
    pendingJoins := room.pendingJoins - 1 }

/-! ### Moderation -/

/-- Everyone a ban of the target removes: a guest with an address stands for
all guests of that address. -/
def moderationCohort (room : Room) (target : ParticipantId) (role : Role) :
    Option (List ParticipantId) := do
  let person ← room.participant target
  let ids :=
    match person.authenticated, person.ip with
    | false, some ip =>
      (room.participants.filter fun p => !p.authenticated && p.ip = some ip).map
        Participant.id
    | _, _ => [target]
  guard (ids.all fun id =>
    (room.participant id).any fun p => role.canModerate p.role)
  return ids

def guestIpLobbyCohort (room : Room) (authenticated : Bool)
    (ip : Option Cohort) (role : Role) : Option (List ParticipantId) :=
  match authenticated, ip with
  | false, some ip => do
      let ids :=
        (room.lobby.filter fun e => !e.authenticated && e.ip = some ip).map
          LobbyEntry.id
      guard (ids.all fun id =>
        (room.lobbyEntry id).any fun e => role.canModerate e.role)
      return ids
  | _, _ => some []

/-- `publish_removal` on the two membership maps. -/
def publishRemoval (room : Room) (participants lobby : List ParticipantId) : Room :=
  { room.bumpPolicy with
    participants := room.participants.filter fun p => p.id ∉ participants
    lobby := room.lobby.filter fun e => e.id ∉ lobby }

def publishRole (room : Room) (target : ParticipantId) (role : Role) : Room :=
  { room.bumpPolicy with
    participants := room.participants.map fun p =>
      if p.id = target then { p with role } else p
    lobby := room.lobby.map fun e =>
      if e.id = target then { e with role } else e }

def kick (room : Room) (role : Role) (target : ParticipantId) : Option Room := do
  let person ← room.participant target
  guard (role.canModerate person.role)
  return room.publishRemoval [target] []

def ban (room : Room) (role : Role) (target : ParticipantId) : Option Room := do
  let person ← room.participant target
  guard (role.canModerate person.role)
  let ids ← room.moderationCohort target role
  let waiting ← room.guestIpLobbyCohort person.authenticated person.ip role
  return room.publishRemoval ids waiting

def setRole (room : Room) (role : Role) (target : ParticipantId)
    (newRole : Role) : Option Room := do
  let person ← room.participant target
  guard (role.canSetRole person.role newRole)
  guard !(person.authenticated && newRole = .guest)
  return room.publishRole target newRole

def admitFromLobby (room : Room) (role : Role) (target : ParticipantId) : Option Room := do
  guard role.canAdmitLobby
  let entry ← room.lobbyEntry target
  return { room with
    participants := room.participants ++
      [⟨entry.id, entry.sender, entry.role, entry.authenticated, entry.ip⟩]
    lobby := room.lobby.filter fun e => e.id ≠ target }

def denyFromLobby (room : Room) (role : Role) (target : ParticipantId) : Option Room := do
  guard role.canAdmitLobby
  let _ ← room.lobbyEntry target
  return { room with lobby := room.lobby.filter fun e => e.id ≠ target }

def rebindSender (room : Room) (id : ParticipantId) (sender : SenderId) : Room := { room with
    participants := room.participants.map fun p =>
      if p.id = id then { p with sender } else p }

end Room

/-! ## The manager's entry for one room ID -/

/-- The room manager as one room ID sees it. -/
structure Slot where
  /-- `rooms` -/
  mapped : Option Incarnation
  /-- every incarnation the ID has had; a task keeps its own `Arc` alive -/
  room : Incarnation → Room
  /-- `deleting_rooms` -/
  reservation : Option Token
  /-- the worker of the ID's router, while the router exists -/
  router : Option WorkerId
  nextIncarnation : Incarnation
  nextToken : Token

namespace Slot

def Live (s : Slot) (i : Incarnation) : Prop :=
  s.mapped = some i ∧ (s.room i).deleting = false

instance (s : Slot) (i : Incarnation) : Decidable (s.Live i) :=
  inferInstanceAs (Decidable (_ ∧ _))

def modifyRoom (s : Slot) (i : Incarnation) (f : Room → Room) : Slot :=
  { s with room := Function.update s.room i (f (s.room i)) }

/-- `deleting_rooms.insert` with a fresh token: an older one is overwritten. -/
def insertReservation (s : Slot) : Slot :=
  { s with reservation := some s.nextToken, nextToken := s.nextToken + 1 }

/-- `deleting_rooms.entry(..).or_insert_with(Uuid::new_v4)`. -/
def orInsertReservation (s : Slot) : Slot :=
  if s.reservation.isSome then s else s.insertReservation

theorem orInsertReservation_of_none {s : Slot} (h : s.reservation = none) :
    s.orInsertReservation = s.insertReservation := by
  simp [orInsertReservation, h]

theorem orInsertReservation_of_some {s : Slot} {token : Token}
    (h : s.reservation = some token) : s.orInsertReservation = s := by
  simp [orInsertReservation, h]

@[simp] theorem orInsertReservation_room (s : Slot) : s.orInsertReservation.room = s.room := by
  unfold orInsertReservation
  split <;> rfl

/-- Remove the reservation only while it still carries this token. -/
def releaseDeletionReservation (s : Slot) (token : Token) : Slot :=
  if s.reservation = some token then { s with reservation := none } else s

/-- Tombstone a live mapped room whose saved state is uncertain, reserve its
ID and close it for everyone. The room stays mapped. -/
def quarantineRoom (s : Slot) (i : Incarnation) : Slot :=
  if s.mapped ≠ some i ∨ (s.room i).deleting then s
  else (s.modifyRoom i fun room => room.tombstone.clearMembers).orInsertReservation

end Slot

end SimplestChat
