import SimplestChat.Policy.Room
import SimplestChat.Room.Control

/-!
# Policy changes: authorization, database work, publication

A policy change takes two turns under the room's lock. The first finds out who
asks, whom the change covers and whether it is allowed. The second publishes it.
In between, a saved room writes its rows, with the lock released and the room's
control held.

The socket and the HTTP administration reach the same publications through their
own authorization: a socket speaks for a participant of the room, an HTTP request
for an account with a saved role.
-/

namespace SimplestChat.Policy

open Transaction

/-! ## Saved policy -/

/-- A `banned` row of `room_states`. -/
structure SavedBan where
  id : ℕ
  key : SanctionKey
  expiresAt : Expiry
deriving DecidableEq

structure SavedReport where
  id : ℕ
  target : ParticipantId
deriving DecidableEq

/-- The rows of one saved room that admission and moderation read. `present`
says that the room's own row is there. -/
structure Saved where
  present : Bool
  settings : Settings
  passwordHash : Option PasswordHash
  roles : ParticipantId → Option Role
  punitive : SanctionKey → PunitiveState
  bans : List SavedBan
  nextBan : ℕ
  reports : List SavedReport

namespace Saved

def resolveRole (saved : Saved) (owner id : ParticipantId) (authenticated : Bool) : Role :=
  if !authenticated then .guest
  else if id = owner then .owner
  else (saved.roles id).getD .user

def currentRole (saved : Saved) (user : ParticipantId) : Option Role :=
  if user = saved.settings.ownerId then some .owner else saved.roles user

def isBanned (saved : Saved) (key : SanctionKey) (now : Instant) : Bool :=
  saved.bans.any fun row => row.key = key && row.expiresAt.live now

def loadPunitiveState (saved : Saved) : SanctionKey → PunitiveState
  | .connection _ => {}
  | key => saved.punitive key

def setRole (saved : Saved) (user : ParticipantId) (role : Role) : Saved := { saved with
    roles := Function.update saved.roles user
      (if role.isStored then some role else none) }

def writePunitiveState (saved : Saved) (key : SanctionKey) (kind : PunitiveKind)
    (enabled : Bool) : Saved :=
  { saved with
    punitive := Function.update saved.punitive key
      ((saved.punitive key).set kind enabled) }

def writeBan (saved : Saved) (key : SanctionKey) (expiresAt : Expiry) : Saved :=
  if saved.bans.any fun row => row.key = key then
    { saved with
      bans := saved.bans.map fun row =>
        if row.key = key then { row with expiresAt } else row }
  else
    { saved with
      bans := saved.bans ++ [⟨saved.nextBan, key, expiresAt⟩]
      nextBan := saved.nextBan + 1 }

def removeUserBan (saved : Saved) (user : ParticipantId) : Saved :=
  { saved with bans := saved.bans.filter fun row => row.key ≠ .user user }

def removeBan (saved : Saved) (ban : ℕ) : Saved :=
  { saved with bans := saved.bans.filter fun row => row.id ≠ ban }

end Saved

/-! ## Settings -/

/-- `settings::apply_settings_update`; of the password only its presence is a
setting. -/
def applySettingsUpdate (settings : Settings) (patch : SettingsPatch)
    (password : Option (Option String)) : Settings :=
  { settings with
    toRoomSettings := patch.applyTo settings.toRoomSettings
    passwordProtected :=
      match password with
      | none => settings.passwordProtected
      | some value => value.isSome }

/-- `char::is_control`. -/
def isControl (c : Char) : Bool :=
  c.toNat < 0x20 || (0x7f ≤ c.toNat && c.toNat ≤ 0x9f)

def validNewRoomPassword (password : String) : Bool :=
  8 ≤ password.utf8ByteSize && password.utf8ByteSize ≤ 256 &&
    !password.toList.any isControl

def validTopic (topic : String) : Bool :=
  topic.utf8ByteSize ≤ 512 && !topic.toList.any isControl

/-- `validate_capacity`. -/
def validCapacity (value : Option (Option ℕ)) (maximum : ℕ) : Bool :=
  value.join.all fun limit => 1 ≤ limit && limit ≤ maximum

/-- No more broadcasters than people, where both are limited. -/
def capacitiesAgree (settings : Settings) : Bool :=
  settings.maxBroadcasters.all fun broadcasters =>
    settings.maxParticipants.all fun participants => broadcasters ≤ participants

def validUpdate (current : Settings) (patch : SettingsPatch)
    (password : Option (Option String)) : Bool :=
  validCapacity patch.maxParticipants 10000 &&
    validCapacity patch.maxBroadcasters 1000 &&
    password.join.all validNewRoomPassword &&
    capacitiesAgree (applySettingsUpdate current patch password)

def hashRoomPassword (password : Option (Option String)) (salt : Salt) :
    Option (Option PasswordHash) :=
  password.map fun value => value.map fun text => ⟨salt.value, text :: salt.spellings⟩

/-! ## Who asks -/

inductive Requester where
  | socket (id : ParticipantId) (sender : SenderId)
  | account (user : ParticipantId)
deriving DecidableEq

structure Authority where
  role : Role
  registered : Bool
deriving DecidableEq

/-- A socket speaks for the participant it owns; over HTTP an account needs a
saved role of at least moderator in a saved room. -/
def authority (room : Room) (saved : Saved) : Requester → Option Authority
  | .socket id sender =>
    (room.participantForSender id sender).map fun p => ⟨p.role, p.authenticated⟩
  | .account user =>
    let role := (saved.currentRole user).getD .user
    if room.deleting || !room.persisted || !saved.present ||
        role.rank < Role.moderator.rank then none
    else some ⟨role, true⟩

/-! ## Requests and changes -/

inductive Request where
  | sanction (target : ParticipantId) (kind : PunitiveKind) (enabled : Bool)
  | kick (target : ParticipantId) (report : Option ℕ)
  | ban (target : ParticipantId) (duration : Option ℕ) (report : Option ℕ)
  | role (target : ParticipantId) (role : Role)
  | memberRole (target : ParticipantId) (role : Role)
  | settings (patch : SettingsPatch) (password : Option (Option String)) (salt : Salt)
  | topic (text : String)
  | identity (displayName : String) (topic : Option String)
  | history (days : ℕ)
  | unban (user : ParticipantId)
  | removeBan (ban : ℕ)
deriving DecidableEq

inductive Change where
  | sanction (publication : Room.SanctionPublication)
  | removal (publication : Room.RemovalPublication) (target : ParticipantId)
      (report : Option ℕ) (expiresAt : Expiry)
  | role (target : ParticipantId) (role : Role)
  | memberRole (target : ParticipantId) (role : Role)
  | settings (updated : Settings) (patch : SettingsPatch)
      (password : Option (Option String)) (passwordHash : Option (Option PasswordHash))
  | topic (text : String)
  | identity (published : Settings) (displayName : String) (topic : Option String)
  | history (days : ℕ)
  | unban (user : ParticipantId)
  | removeBan (ban : ℕ)
deriving DecidableEq

structure Operation where
  requester : Requester
  role : Role
  change : Change
deriving DecidableEq

/-! ## The first turn -/

section Planning

variable (room : Room) (saved : Saved) (actor : Authority)

def savable (person : Participant) : Bool :=
  !room.persisted ||
    (actor.registered && (person.authenticated || person.ip.isSome))

/-- `update_punitive_state_controlled`, and `Context::sanction`. -/
def planSanction (target : ParticipantId) (kind : PunitiveKind) (enabled : Bool) : Option Change :=
  (room.participants.get target).bind fun person =>
  (room.moderationCohort target actor.role).bind fun participants =>
  (room.guestIpLobbyCohort person.authenticated person.ip actor.role).bind fun lobby =>
    let publication : Room.SanctionPublication :=
      ⟨target, participants, lobby, person.authenticated, person.ip, kind, enabled⟩
    if room.punitiveCohortMatches participants lobby publication.key kind enabled ||
        !savable room actor person then none
    else some (.sanction publication)

def planKick (target : ParticipantId) (report : Option ℕ) : Option Change :=
  (room.participants.get target).bind fun person =>
    if actor.role.canModerate person.role then
      some (.removal ⟨false, [target], [], person.authenticated, person.ip, none⟩
        target report none)
    else none

/-- `MAX_BAN_DURATION_SECS`. -/
def maxBanDuration : ℕ := 10 * 365 * 24 * 60 * 60

/-- `ban_participant_controlled`, and the ban of `Context::moderate`, on a room
whose expired bans were just taken off the list. -/
def planBan (target : ParticipantId) (duration report : Option ℕ) (now : Instant) : Option Change :=
  (room.participants.get target).bind fun person =>
  (room.moderationCohort target actor.role).bind fun participants =>
  (room.guestIpLobbyCohort person.authenticated person.ip actor.role).bind fun lobby =>
    if (duration.all fun seconds => 1 ≤ seconds && seconds ≤ maxBanDuration) &&
        room.bans.length < Room.maxRuntimeBans && savable room actor person then
      some (.removal
        ⟨true, participants, lobby, person.authenticated, person.ip, duration⟩ target
        report (expiryAfter now duration))
    else none

/-- `set_participant_role_controlled`. -/
def planRole (target : ParticipantId) (role : Role) : Option Change :=
  (room.participants.get target).bind fun person =>
    if actor.role.canSetRole person.role role &&
        !(person.authenticated && role = .guest) && person.role ≠ role &&
        (!room.persisted || (actor.registered && person.authenticated)) then
      some (.role target role)
    else none

/-- `Context::role_change`: the saved role counts, and only without one the role
of an account that is in the room. -/
def planRoleChange (target : ParticipantId) (role : Role) : Option Change :=
  let online := ((room.participants.get target).filter (·.authenticated)).map (·.role)
  ((saved.currentRole target).or online).bind fun current =>
    if Role.user.rank ≤ role.rank && actor.role.canSetRole current role then
      some (.role target role)
    else none

/-- `set_member_role`: a participant is handled as such, anybody else by the
saved roster. -/
def planMemberRole (target : ParticipantId) (role : Role) : Option Change :=
  if room.participants.contains target then planRole room actor target role
  else if !room.persisted || !actor.registered || role.rank < Role.user.rank ||
      actor.role.rank < Role.moderator.rank then none
  else
    (saved.currentRole target).bind fun current =>
      if actor.role.canSetRole current role then some (.memberRole target role)
      else none

/-- `update_room_settings_controlled`. -/
def planSettings (patch : SettingsPatch) (password : Option (Option String))
    (salt : Salt) : Option Change :=
  let current := room.settings.getD (.defaults room.id)
  let updated := applySettingsUpdate current patch password
  let passwordChanged :=
    match password with
    | none => false
    | some none => room.passwordHash.isSome || current.passwordProtected
    | some (some _) => true
  if actor.role.canChangeSettings && validUpdate current patch password &&
      (passwordChanged || updated ≠ current) then
    some (.settings updated patch password (hashRoomPassword password salt))
  else none

/-- `Context::settings_change`, from the row that admission read. -/
def planSettingsChange (patch : SettingsPatch) (password : Option (Option String))
    (salt : Salt) : Option Change :=
  if actor.role.canChangeSettings && validUpdate saved.settings patch password then
    some (.settings (applySettingsUpdate saved.settings patch password) patch password
      (hashRoomPassword password salt))
  else none

def planTopic (text : String) : Option Change :=
  if actor.role.canChangeSettings && validTopic text &&
      (room.settings.bind (·.topic)) ≠ some text then
    some (.topic text)
  else none

/-- `update_room_identity`, by the room's owner. -/
def planIdentity (user : ParticipantId) (displayName : String)
    (topic : Option String) : Option Change :=
  room.settings.bind fun settings =>
    if settings.ownerId = user then
      some (.identity { settings with displayName, topic } displayName topic)
    else none

def planHistory (days : ℕ) : Option Change :=
  if actor.role = .owner && room.persisted && days ∈ roomHistoryRetentionDays then
    some (.history days)
  else none

/-- `unban_participant_controlled`, on a room whose expired bans were just
dropped. -/
def planUnban (user : ParticipantId) : Option Change :=
  if actor.role.canChangeSettings && !room.bannedGuestParticipants user &&
      ((room.bannedParticipants user).isSome || room.persisted) then
    some (.unban user)
  else none

/-- `remove_room_ban`, and `Context::unban`. -/
def planRemoveBan (ban : ℕ) : Option Change :=
  if actor.role.canChangeSettings &&
      (room.persisted || room.bans.any fun entry => entry.banId = ban) then
    some (.removeBan ban)
  else none

end Planning

def planFor (room : Room) (saved : Saved) (now : Instant) (actor : Authority) :
    Requester → Request → Option Change
  | _, .sanction target kind enabled => planSanction room actor target kind enabled
  | _, .kick target report => planKick room actor target report
  | _, .ban target duration report => planBan room actor target duration report now
  | .socket _ _, .role target role => planRole room actor target role
  | .account _, .role target role => planRoleChange room saved actor target role
  | .socket _ _, .memberRole target role => planMemberRole room saved actor target role
  | .socket _ _, .settings patch password salt => planSettings room actor patch password salt
  | .account _, .settings patch password salt =>
    planSettingsChange saved actor patch password salt
  | .socket _ _, .topic text => planTopic room actor text
  | .account user, .identity displayName topic => planIdentity room user displayName topic
  | .socket _ _, .history days => planHistory room actor days
  | .socket _ _, .unban user => planUnban room actor user
  | _, .removeBan ban => planRemoveBan room actor ban
  | _, _ => none

/-- What the first turn drops before it decides: a ban its expired listings, an
account's unban the expired gates. -/
def prunedFor (room : Room) (now : Instant) : Request → Room
  | .ban _ _ _ => room.pruneListedBans now
  | .unban _ => room.pruneExpiredBans now
  | _ => room

def planOperation (room : Room) (saved : Saved) (now : Instant)
    (requester : Requester) (request : Request) : Option Operation :=
  (authority room saved requester).bind fun actor =>
    (planFor room saved now actor requester request).map fun change =>
      ⟨requester, actor.role, change⟩

/-! ## Database work -/

inductive Answer where
  | saved
  | userBan (removed : Bool)
  | ban (removed : Option SanctionKey)
deriving DecidableEq

/-- `link_report`: the report an event answers must be one of this room about
the same participant. -/
def linkSavedReport (saved : Saved) (target : ParticipantId) : Option ℕ → Except RoomError Unit
  | none => .ok ()
  | some report =>
    match saved.reports.find? fun row => row.id = report with
    | none => .error (.database .rowNotFound)
    | some row =>
      if row.target = target then .ok ()
      else .error (.refused (.invalid "Open report does not match this participant"))

def Change.work (saved : Saved) : Change → Except RoomError (Saved × Answer)
  | .sanction publication =>
    .ok (saved.writePunitiveState publication.key publication.kind
      publication.enabled, .saved)
  | .removal publication target report expiresAt =>
    (linkSavedReport saved target report).map fun _ =>
      (if publication.ban then
          saved.writeBan
            (.forIdentity target publication.authenticated publication.ip) expiresAt
        else saved, .saved)
  | .role target newRole | .memberRole target newRole =>
    .ok (saved.setRole target newRole, .saved)
  | .settings _ patch password passwordHash =>
    .ok ({ saved with
      settings := applySettingsUpdate saved.settings patch password
      passwordHash := passwordHash.getD saved.passwordHash }, .saved)
  | .topic text =>
    .ok ({ saved with settings := { saved.settings with topic := some text } }, .saved)
  | .identity _ displayName text =>
    .ok ({ saved with
      settings := { saved.settings with displayName, topic := text } }, .saved)
  | .history days =>
    .ok ({ saved with
      settings := { saved.settings with historyRetentionDays := days } }, .saved)
  | .unban user =>
    .ok (saved.removeUserBan user, .userBan (saved.bans.any fun row => row.key = .user user))
  | .removeBan ban =>
    .ok (saved.removeBan ban, .ban ((saved.bans.find? fun row => row.id = ban).map (·.key)))

/-- Run the work. A fault of the environment ends it with a driver error; unless
that error proves a rollback, a commit in flight may have been applied. -/
def Change.persist (saved : Saved) (fault : Option (Fault DriverError))
    (change : Change) : Saved × Except RoomError Answer :=
  match fault, change.work saved with
  | none, .ok (written, answer) => (written, .ok answer)
  | none, .error error => (saved, .error error)
  | some fault, .ok (written, _) =>
    (if fault.applied && !fault.error.provesRollback then written else saved,
      .error (.database (.driver fault.error)))
  | some fault, .error _ => (saved, .error (.database (.driver fault.error)))

theorem Change.persist_cases (change : Change) (saved : Saved)
    (fault : Option (Fault DriverError)) :
    (change.persist saved fault).1 = saved ∨ fault.any (fun f => !f.applied) = false ∧
        ∃ answer, change.work saved = .ok ((change.persist saved fault).1, answer) := by
  unfold Change.persist
  split
  · rename_i written answer hwork
    exact .inr ⟨rfl, answer, hwork⟩
  · exact .inl rfl
  · rename_i fault written answer hwork
    by_cases happlied : (fault.applied && !fault.error.provesRollback) = true
    · rw [Bool.and_eq_true] at happlied
      refine .inr ⟨by simp [happlied.1], answer, ?_⟩
      simp [hwork, happlied.1, happlied.2]
    · exact .inl (if_neg happlied)
  · exact .inl rfl

/-! ## The second turn -/

def unbanInMemory (room : Room) (user : ParticipantId) (removed : Bool) : Room :=
  if (room.bannedParticipants user).isSome || removed then
    { room.forgetUserBan user with
      bannedParticipants := Function.update room.bannedParticipants user none }
  else room

def removeListedBan (room : Room) (ban : ℕ) : Room :=
  match room.bans.find? fun entry => entry.banId = ban with
  | none => room
  | some entry =>
    let unlisted : Room :=
      { room with bans := room.bans.filter fun other => other.banId ≠ ban }
    unlisted.publishUnban
      (if entry.authenticated then entry.participantIds.head? else none)
      entry.guestIp entry.participantIds

def publishRemovedBan (room : Room) : Option SanctionKey → Room
  | some (.user user) => room.publishUnban (some user) none []
  | some (.guestIp ip) => room.publishUnban none (some ip) []
  | _ => room

def Change.publish (room : Room) (answer : Answer) (now listedAt : Instant) : Change → Room
  | .sanction publication => room.publishSanction publication
  | .removal publication target _ _ =>
    if publication.ban || room.participants.contains target then
      room.publishRemoval publication now listedAt
    else room
  | .role target newRole => room.publishRole target newRole
  | .memberRole _ _ => room.bumpPolicy
  | .settings updated _ _ passwordHash => room.publishSettings updated passwordHash
  | .topic text =>
    { room with
      settings := some { room.settings.getD (.defaults room.id) with topic := some text } }
  | .identity published _ _ => { room.bumpPolicy with settings := some published }
  | .history days =>
    { room with
      settings := room.settings.map fun s => { s with historyRetentionDays := days } }
  | .unban user => unbanInMemory room user (answer = .userBan true)
  | .removeBan ban =>
    match answer with
    | .ban removed => publishRemovedBan room removed
    | _ => removeListedBan room ban

def Change.immediate : Change → Bool
  | .removal publication _ _ _ => !publication.ban
  | .removeBan _ => true
  | _ => false

def Operation.reacquires (operation : Operation) : Bool :=
  match operation.requester, operation.change with
  | .socket _ _, .memberRole _ _ | .socket _ _, .history _
  | .socket _ _, .removeBan _ => true
  | _, _ => false

def Operation.mayPublish (operation : Operation) (room : Room) : Bool :=
  match operation.requester with
  | .account _ => true
  | .socket id sender =>
    if operation.reacquires then (room.participantForSender id sender).isSome
    else !room.deleting

end SimplestChat.Policy
