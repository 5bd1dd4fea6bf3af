import SimplestChat.Room.State
import SimplestChat.Support.Interleaving

/-!
# The life of a room ID

Every operation that creates, empties, deletes, quarantines or recovers the
runtime room of one ID is a task of the protocol `lifecycle`. A program point
is a place where the source awaits; between two points a task runs one
critical section. A lock that is taken for one section only is required to be
free by that section; a guard that outlives a section is named by the program
points it spans.

A `Choice` is what the surroundings decide: whether a bounded wait timed out,
what the database answered, whether the media server could serve. Operations
on other room IDs matter only through the process-wide creation mutex and
appear as the task `elsewhere`.
-/

namespace SimplestChat

open Interleaving

/-! ## Membership changes under a room's control -/

/-- Who asks for a change: a connection of the room, or a registered moderator
over HTTP. -/
inductive Authority where
  | member (id : ParticipantId) (sender : SenderId)
  | administrator (role : Role)
deriving DecidableEq

inductive Change where
  /-- settings, sanctions and lifted bans keep the membership -/
  | policy
  | kick (target : ParticipantId)
  | ban (target : ParticipantId)
  | setRole (target : ParticipantId) (role : Role)
  | admitFromLobby (target : ParticipantId)
  | denyFromLobby (target : ParticipantId)
  | rebind (sender : SenderId)
deriving DecidableEq

def Authority.role (room : Room) : Authority → Option Role
  | .member id sender => (room.participantForSender id sender).map (·.role)
  | .administrator role => if room.deleting then none else some role

namespace Room

def publish (room : Room) (authority : Authority) (change : Change) : Option Room :=
  (authority.role room).bind fun role =>
    match change with
    | .policy => some room.bumpPolicy
    | .kick target => room.kick role target
    | .ban target => room.ban role target
    | .setRole target newRole => room.setRole role target newRole
    | .admitFromLobby target => room.admitFromLobby role target
    | .denyFromLobby target => room.denyFromLobby role target
    | .rebind sender =>
      match authority with
      | .member id _ => some (room.rebindSender id sender)
      | .administrator _ => none

/-- `checked_add` on the number of reserved joins; exhaustion is a refusal. -/
def reserveJoin (room : Room) : Room := { room with pendingJoins := room.pendingJoins + 1 }

/-- Give a failed join's reservation back; the answer says whether that left
a live room with nobody in it. -/
def releaseJoinReservation (room : Room) : Room × Bool :=
  if room.pendingJoins = 0 then (room, false)
  else
    let released := { room with pendingJoins := room.pendingJoins - 1 }
    (released, !released.deleting && released.pendingJoins = 0 && released.isEmpty)

def abandoned (room : Room) : Bool :=
  !room.deleting && room.pendingJoins = 0 && room.isEmpty

end Room

/-! ## Slot operations -/

namespace Slot

def publishRoom (s : Slot) (persisted : Bool) : Slot := { s with
    mapped := some s.nextIncarnation
    room := Function.update s.room s.nextIncarnation
      { participants := [], lobby := [], persisted, pendingJoins := 1,
        policyRevision := 0, deleting := false }
    nextIncarnation := s.nextIncarnation + 1 }

/-- `rooms.remove` if the map still holds this incarnation. -/
def unmap (s : Slot) (i : Incarnation) : Slot :=
  if s.mapped = some i then { s with mapped := none } else s

def evictRoom (s : Slot) (i : Incarnation) : Slot :=
  ((s.modifyRoom i Room.tombstone).insertReservation).unmap i

end Slot

/-! ## Tasks -/

inductive Lock where
  /-- `room_creation_lock`, one for all room IDs -/
  | creation
  /-- the control mutex of one incarnation -/
  | control (i : Incarnation)
  /-- the ID's entry in `identity_updates` -/
  | identityUpdate
deriving DecidableEq

/-- `get_or_create_room`, `add_participant` and `release_failed_join`. -/
inductive JoinPoint where
  | start
  | lookup
  | reserve (i : Incarnation)
  | waitCreation
  | checkMarker
  | remap
  | load
  | media (persisted : Bool)
  | publish (persisted : Bool)
  | rollback
  | pending (i : Incarnation)
  | verified (i : Incarnation) (revision : ℕ)
  | failed (i : Incarnation)
deriving DecidableEq

/-- `remove_participant_inner`. -/
inductive LeavePoint where
  | start (id : ParticipantId) (sender : SenderId)
  | room (i : Incarnation) (id : ParticipantId) (sender : SenderId)
  | evict (i : Incarnation)
deriving DecidableEq

/-- `remove_router` under a reservation, and the release after it. -/
inductive TeardownPoint where
  | router (token : Token)
  | viewers (token : Token) (found : Bool)
  | release (token : Token)
deriving DecidableEq

/-- `delete_persisted_room` and `restore_failed_deletion`. -/
inductive DeletePoint where
  | start
  | reserve
  | waitControl (i : Incarnation)
  | tombstone (i : Incarnation) (token : Token)
  | sql (runtime : Option Incarnation) (token : Token)
  | drain (i : Incarnation) (token : Token)
  | unmap (i : Incarnation) (token : Token)
  | restore (i : Incarnation) (token : Token)
  | release (runtime : Option Incarnation) (token : Token)
  /-- the restore that a busy room left to a spawned task -/
  | delayedRestore (i : Incarnation) (token : Token)
  | delayedRelease (token : Token)
deriving DecidableEq

inductive ControlPoint where
  | start
  | wait (i : Incarnation)
  | work (i : Incarnation)
deriving DecidableEq

/-- HTTP administration and `update_room_identity`. -/
inductive AdminPoint where
  | start
  | mark
  | wait (i : Incarnation)
  | work (runtime : Option Incarnation)
  | finish
  | identity
  | identityMark
  | identityLookup
deriving DecidableEq

/-- `close_room_for_rejoin`. -/
inductive RecoverPoint where
  | start (worker : WorkerId)
  | waitCreation (i : Incarnation) (worker : WorkerId)
  | checkWorker (i : Incarnation) (worker : WorkerId)
  | waitControl (i : Incarnation)
  | unmap (i : Incarnation)
  | reserve (i : Incarnation)
deriving DecidableEq

/-- The cleanup that `quarantine_room` spawns: the media of the participants,
then `remove_router`. -/
inductive CleanupPoint where
  | sessions
  | router
  | viewers
deriving DecidableEq

inductive ElsewherePoint where
  | wait
  | holding
deriving DecidableEq

inductive Task where
  | join (k : JoinPoint)
  | leave (k : LeavePoint)
  | teardown (k : TeardownPoint)
  | delete (k : DeletePoint)
  | control (k : ControlPoint)
  | admin (k : AdminPoint)
  | recover (k : RecoverPoint)
  | cleanup (k : CleanupPoint)
  | elsewhere (k : ElsewherePoint)
deriving DecidableEq

inductive Choice where
  | proceed
  | timeout
  | refuse
  /-- the outcome of a write cannot be known -/
  | unknown
  | deleted
  | kept
  | loaded (persisted : Bool)
  /-- a router was made; `ready` tells whether the rest of the setup finished -/
  | media (worker : WorkerId) (ready : Bool)
  | enter (p : Participant)
  | enterLobby (e : LobbyEntry)
  | publish (authority : Authority) (change : Change)
deriving DecidableEq

namespace Task

def guards : Task → List Lock
  | join .checkMarker | join .remap | join .load | join (.media _)
  | join (.publish _) | join .rollback => [.creation]
  | delete .reserve | delete (.waitControl _) | delete (.sql none _) => [.creation]
  | delete (.tombstone i _) | delete (.sql (some i) _) => [.creation, .control i]
  | delete (.drain i _) | delete (.unmap i _) | delete (.restore i _)
  | delete (.release (some i) _) => [.control i]
  | control (.work i) => [.control i]
  | admin .mark | admin .identityMark => [.creation]
  | admin (.wait _) | admin (.work none) | admin .finish
  | admin .identityLookup => [.identityUpdate]
  | admin (.work (some i)) => [.identityUpdate, .control i]
  | recover (.checkWorker _ _) | recover (.waitControl _) => [.creation]
  | recover (.unmap i) | recover (.reserve i) => [.creation, .control i]
  | elsewhere .holding => [.creation]
  | _ => []

def initial : Task → Bool
  | join .start | leave (.start _ _) | delete .start | control .start
  | admin .start | admin .identity | recover (.start _)
  | elsewhere .wait => true
  | _ => false

def token : Task → Option Token
  | teardown (.router token) | teardown (.viewers token _)
  | teardown (.release token) => some token
  | delete (.tombstone _ token) | delete (.sql _ token)
  | delete (.drain _ token) | delete (.unmap _ token)
  | delete (.restore _ token) | delete (.release _ token)
  | delete (.delayedRestore _ token) | delete (.delayedRelease token) => some token
  | _ => none

end Task

/-! ## Critical sections -/

def finish (s : Slot) : Option (Outcome Slot Task) :=
  some ⟨s, none, none⟩

def goTo (s : Slot) (k : Task) : Option (Outcome Slot Task) :=
  some ⟨s, some k, none⟩

/-- The committing section of `add_participant`. -/
def commitJoin (s : Slot) (i : Incarnation) (revision : ℕ)
    (commit : Room → Room) : Option (Outcome Slot Task) :=
  if (s.room i).policySnapshotMatches revision then
    finish (s.modifyRoom i commit)
  else goTo s (.join (.failed i))

/-- The section of `release_failed_join`. -/
def failedJoinSection (s : Slot) (i : Incarnation) : Option (Outcome Slot Task) :=
  let released := (s.room i).releaseJoinReservation
  let t := s.modifyRoom i fun _ => released.1
  if released.2 ∧ s.mapped = some i then
    goTo (t.evictRoom i) (.teardown (.router s.nextToken))
  else finish t

def joinAct (s : Slot) (free : Lock → Bool) : JoinPoint → Choice → Option (Outcome Slot Task)
  | .start, .proceed => if s.reservation.isSome then finish s else goTo s (.join .lookup)
  | .start, .refuse => finish s
  | .lookup, .proceed =>
    match s.mapped with
    | some i => goTo s (.join (.reserve i))
    | none => goTo s (.join .waitCreation)
  | .lookup, .refuse => finish s
  | .reserve i, .proceed =>
    if (s.room i).deleting then finish s
    else goTo (s.modifyRoom i Room.reserveJoin) (.join (.pending i))
  | .reserve _, .timeout => finish s
  | .reserve _, .refuse => finish s
  | .waitCreation, .proceed =>
    if !free .creation then none
    else if s.reservation.isSome then finish s
    else goTo s (.join .checkMarker)
  | .waitCreation, .timeout => finish s
  | .checkMarker, .proceed => if !free .identityUpdate then finish s else goTo s (.join .remap)
  | .remap, .proceed =>
    match s.mapped with
    | some i => goTo s (.join (.reserve i))
    | none => goTo s (.join .load)
  | .remap, .refuse => finish s
  | .load, .loaded persisted => goTo s (.join (.media persisted))
  | .load, .refuse => finish s
  | .media persisted, .media worker ready =>
    if s.router.isSome then goTo s (.join .rollback)
    else
      goTo { s with router := some worker }
        (.join (if ready then .publish persisted else .rollback))
  | .media _, .refuse => goTo s (.join .rollback)
  | .publish persisted, .proceed =>
    goTo (s.publishRoom persisted) (.join (.pending s.nextIncarnation))
  | .publish _, .refuse => goTo s (.join .rollback)
  | .rollback, .proceed => finish { s with router := none }
  | .rollback, .timeout => finish s
  | .pending i, .proceed =>
    if !free (.control i) then none
    else goTo s (.join (.verified i (s.room i).policyRevision))
  | .pending i, .timeout => goTo s (.join (.failed i))
  | .pending i, .refuse => goTo s (.join (.failed i))
  | .verified i revision, .enter p =>
    if !free (.control i) then none
    else commitJoin s i revision (·.enter p)
  | .verified i revision, .enterLobby e =>
    if !free (.control i) then none
    else commitJoin s i revision (·.enterLobby e)
  | .verified i _, .timeout => goTo s (.join (.failed i))
  | .verified i _, .refuse => goTo s (.join (.failed i))
  | .failed i, .proceed =>
    if !free .creation || !free (.control i) then none
    else failedJoinSection s i
  | _, _ => none

def leaveSection (s : Slot) (i : Incarnation) (id : ParticipantId)
    (sender : SenderId) : Option (Outcome Slot Task) :=
  if (s.room i).senderMatches id sender then
    let left := (s.room i).removeMember id
    let t := s.modifyRoom i fun _ => left
    if left.isEmpty then goTo t (.leave (.evict i)) else finish t
  else finish s

def evictSection (s : Slot) (i : Incarnation) : Option (Outcome Slot Task) :=
  if s.mapped = some i ∧ (s.room i).abandoned then
    goTo (s.evictRoom i) (.teardown (.router s.nextToken))
  else finish s

def leaveAct (s : Slot) (free : Lock → Bool) : LeavePoint → Choice → Option (Outcome Slot Task)
  | .start id sender, .proceed =>
    match s.mapped with
    | some i => goTo s (.leave (.room i id sender))
    | none => finish s
  | .room i id sender, .proceed =>
    if !free (.control i) then none else leaveSection s i id sender
  | .evict i, .proceed =>
    if !free .creation || !free (.control i) then none
    else evictSection s i
  | .evict _, .timeout => finish s
  | _, _ => none

def teardownAct (s : Slot) : TeardownPoint → Choice → Option (Outcome Slot Task)
  | .router token, .proceed =>
    goTo { s with router := none }
      (.teardown (.viewers token s.router.isSome))
  | .router _, .timeout => finish s
  | .viewers token found, .proceed =>
    if found then goTo s (.teardown (.release token)) else finish s
  | .viewers _ _, .timeout => finish s
  | .release token, .proceed => finish (s.releaseDeletionReservation token)
  | _, _ => none

def deleteAct (s : Slot) (free : Lock → Bool) : DeletePoint → Choice → Option (Outcome Slot Task)
  | .start, .proceed =>
    match s.mapped with
    | some i => goTo s (.delete (.waitControl i))
    | none => goTo s (.delete .reserve)
  | .start, .timeout => finish s
  | .start, .refuse => finish s
  | .reserve, .proceed =>
    if s.reservation.isSome then finish s
    else goTo s.insertReservation (.delete (.sql none s.nextToken))
  | .waitControl i, .proceed =>
    if !free (.control i) then none
    else if s.reservation.isSome then finish s
    else goTo s.insertReservation (.delete (.tombstone i s.nextToken))
  | .waitControl _, .timeout => finish s
  | .tombstone i token, .proceed =>
    goTo (s.modifyRoom i Room.tombstone) (.delete (.sql (some i) token))
  | .tombstone _ token, .timeout => finish (s.releaseDeletionReservation token)
  | .sql (some i) token, .deleted => goTo s (.delete (.drain i token))
  | .sql none token, .deleted => goTo s (.teardown (.release token))
  | .sql (some i) token, .kept => goTo s (.delete (.restore i token))
  | .sql none token, .kept => goTo s (.delete (.release none token))
  | .sql _ _, .unknown => finish s
  | .drain i token, .proceed =>
    goTo (s.modifyRoom i Room.clearMembers) (.delete (.unmap i token))
  | .drain _ _, .timeout => finish s
  | .unmap i token, .proceed => goTo (s.unmap i) (.teardown (.router token))
  | .restore i token, .proceed =>
    goTo (s.modifyRoom i Room.restore) (.delete (.release (some i) token))
  | .restore i token, .timeout => some ⟨s, none, some (.delete (.delayedRestore i token))⟩
  | .release _ token, .proceed => finish (s.releaseDeletionReservation token)
  | .delayedRestore i token, .proceed =>
    goTo (s.modifyRoom i Room.restore) (.delete (.delayedRelease token))
  | .delayedRelease token, .proceed => finish (s.releaseDeletionReservation token)
  | _, _ => none

/-- A controlled write with an unknown outcome quarantines its live room and
spawns the media cleanup. -/
def quarantineSection (s : Slot) (i : Incarnation) (self : Option Task) :
    Option (Outcome Slot Task) :=
  if s.Live i then some ⟨s.quarantineRoom i, self, some (.cleanup .sessions)⟩
  else some ⟨s, self, none⟩

def publishSection (s : Slot) (i : Incarnation) (authority : Authority)
    (change : Change) (self : Option Task) : Option (Outcome Slot Task) :=
  match (s.room i).publish authority change with
  | some room => some ⟨s.modifyRoom i fun _ => room, self, none⟩
  | none => none

def controlAct (s : Slot) (free : Lock → Bool) : ControlPoint → Choice → Option (Outcome Slot Task)
  | .start, .proceed =>
    match s.mapped with
    | some i => goTo s (.control (.wait i))
    | none => finish s
  | .wait i, .proceed =>
    if !free (.control i) then none
    else if (s.room i).deleting then finish s
    else goTo s (.control (.work i))
  | .wait _, .timeout => finish s
  | .work i, .publish (.member id sender) change =>
    publishSection s i (.member id sender) change none
  | .work _, .refuse => finish s
  | .work i, .unknown => if (s.room i).persisted then quarantineSection s i none else none
  | _, _ => none

def adminAct (s : Slot) (free : Lock → Bool) : AdminPoint → Choice → Option (Outcome Slot Task)
  | .start, .proceed =>
    if !free .creation then none
    else if s.reservation.isSome then finish s
    else goTo s (.admin .mark)
  | .start, .timeout => finish s
  | .mark, .proceed =>
    if !free .identityUpdate then finish s
    else
      match s.mapped with
      | some i => goTo s (.admin (.wait i))
      | none => goTo s (.admin (.work none))
  | .wait i, .proceed =>
    if !free (.control i) then none
    else if (s.room i).deleting || !(s.room i).persisted then
      goTo s (.admin .finish)
    else goTo s (.admin (.work (some i)))
  | .wait _, .timeout => goTo s (.admin .finish)
  | .work (some i), .publish (.administrator role) change =>
    publishSection s i (.administrator role) change (some (.admin .finish))
  | .work (some i), .unknown => quarantineSection s i (some (.admin .finish))
  | .work (some _), .refuse => goTo s (.admin .finish)
  | .work none, .proceed => goTo s (.admin .finish)
  | .work none, .unknown => goTo s.orInsertReservation (.admin .finish)
  | .work none, .refuse => goTo s (.admin .finish)
  | .finish, .proceed => finish s
  | .identity, .proceed =>
    if !free .creation then none
    else if s.reservation.isSome then finish s
    else goTo s (.admin .identityMark)
  | .identity, .timeout => finish s
  | .identityMark, .proceed =>
    if !free .identityUpdate then finish s
    else goTo s (.admin .identityLookup)
  | .identityLookup, .proceed =>
    match s.mapped with
    | some i => goTo s (.admin (.wait i))
    | none => goTo s (.admin (.work none))
  | _, _ => none

def recoverAct (s : Slot) (free : Lock → Bool) : RecoverPoint → Choice → Option (Outcome Slot Task)
  | .start worker, .proceed =>
    match s.mapped with
    | some i => goTo s (.recover (.waitCreation i worker))
    | none => finish s
  | .waitCreation i worker, .proceed =>
    if !free .creation then none
    else if s.mapped = some i then goTo s (.recover (.checkWorker i worker))
    else finish s
  | .waitCreation _ _, .timeout => finish s
  | .checkWorker i worker, .proceed =>
    if s.router = some worker then goTo s (.recover (.waitControl i))
    else finish s
  | .waitControl i, .proceed =>
    goTo (s.modifyRoom i fun room => room.tombstone.clearMembers)
      (.recover (.unmap i))
  | .waitControl _, .timeout => finish s
  | .unmap i, .proceed => goTo (s.unmap i) (.recover (.reserve i))
  | .reserve _, .proceed => goTo s.insertReservation (.teardown (.router s.nextToken))
  | _, _ => none

def cleanupAct (s : Slot) : CleanupPoint → Choice → Option (Outcome Slot Task)
  | .sessions, .proceed => goTo s (.cleanup .router)
  | .sessions, .timeout => goTo s (.cleanup .router)
  | .router, .proceed => goTo { s with router := none } (.cleanup .viewers)
  | .router, .timeout => finish s
  | .viewers, .proceed => finish s
  | .viewers, .timeout => finish s
  | _, _ => none

def elsewhereAct (s : Slot) : ElsewherePoint → Choice → Option (Outcome Slot Task)
  | .wait, .proceed => goTo s (.elsewhere .holding)
  | .wait, .timeout => finish s
  | .holding, .proceed => finish s
  | _, _ => none

def act (s : Slot) (free : Lock → Bool) : Task → Choice → Option (Outcome Slot Task)
  | .join k => joinAct s free k
  | .leave k => leaveAct s free k
  | .teardown k => teardownAct s k
  | .delete k => deleteAct s free k
  | .control k => controlAct s free k
  | .admin k => adminAct s free k
  | .recover k => recoverAct s free k
  | .cleanup k => cleanupAct s k
  | .elsewhere k => elsewhereAct s k

/-- The operations of the source; eviction, deletion and recovery all end in
a teardown. -/
inductive Family where
  | join | leave | teardown | delete | control | admin | recover | cleanup
  | elsewhere
deriving DecidableEq

def Task.family : Task → Family
  | .join _ => .join
  | .leave _ => .leave
  | .teardown _ => .teardown
  | .delete _ => .delete
  | .control _ => .control
  | .admin _ => .admin
  | .recover _ => .recover
  | .cleanup _ => .cleanup
  | .elsewhere _ => .elsewhere

/-- A task goes on in its own operation or as a teardown, and only two
points spawn another task. -/
theorem act_outcome {s : Slot} {free : Lock → Bool} {choice : Choice} {o : Outcome Slot Task}
    {k k' : Task} (h : act s free k choice = some o) :
    (o.self = some k' → k'.family = k.family ∨ k'.family = .teardown) ∧
    (o.spawned = some k' → (∃ i, k' = .cleanup .sessions ∧
        (k = .control (.work i) ∨ k = .admin (.work (some i))) ∧
        choice = .unknown ∧ s.Live i ∧ o.shared = s.quarantineRoom i) ∨
      ∃ i token, k' = .delete (.delayedRestore i token) ∧
        k = .delete (.restore i token) ∧ o.shared = s ∧ o.self = none) := by
  revert h
  cases k with
  | join k =>
    simp only [act]
    fun_cases joinAct s free k choice <;>
      grind [finish, goTo, commitJoin, failedJoinSection, Task.family]
  | leave k =>
    simp only [act]
    fun_cases leaveAct s free k choice <;>
      grind [finish, goTo, leaveSection, evictSection, Task.family]
  | teardown k =>
    simp only [act]
    fun_cases teardownAct s k choice <;> grind [finish, goTo, Task.family]
  | delete k =>
    simp only [act]
    fun_cases deleteAct s free k choice <;> grind [finish, goTo, Task.family]
  | control k =>
    simp only [act]
    fun_cases controlAct s free k choice <;>
      grind [finish, goTo, publishSection, quarantineSection, Task.family]
  | admin k =>
    simp only [act]
    fun_cases adminAct s free k choice <;>
      grind [finish, goTo, publishSection, quarantineSection, Task.family]
  | recover k =>
    simp only [act]
    fun_cases recoverAct s free k choice <;> grind [finish, goTo, Task.family]
  | cleanup k =>
    simp only [act]
    fun_cases cleanupAct s k choice <;> grind [finish, goTo, Task.family]
  | elsewhere k =>
    simp only [act]
    fun_cases elsewhereAct s k choice <;> grind [finish, goTo, Task.family]

/-! ## The protocol -/

def lifecycle : Protocol Slot Task Lock Choice where
  guards := Task.guards
  initial := Task.initial
  act := act
  guards_initial k hk := by
    revert hk
    fun_cases Task.initial k <;> simp [Task.guards]
  guards_spawned s free k choice o k' h hspawned := by
    rcases (act_outcome h).2 hspawned with ⟨i, rfl, -⟩ | ⟨i, token, rfl, -⟩ <;> rfl

/-- A room ID that has never been used. -/
def Slot.unused : Slot where
  mapped := none
  room := fun _ =>
    { participants := [], lobby := [], persisted := false, pendingJoins := 0,
      policyRevision := 0, deleting := true }
  reservation := none
  router := none
  nextIncarnation := 0
  nextToken := 0

def lifecycleStart : Config Slot Task Lock where
  shared := .unused
  task := fun _ => none
  owner := fun _ => none
  next := 0

theorem lifecycleStart_coherent : lifecycle.Coherent lifecycleStart where
  owner_iff l t := by simp [lifecycleStart]
  fresh t _ := rfl

end SimplestChat
