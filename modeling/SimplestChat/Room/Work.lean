import SimplestChat.Room.Database

/-!
# The database work of controlled room operations

Each definition is one persistence helper of the server: the statements it
sends, in order, and the errors it raises by itself. A helper on the pool
commits each statement by itself; the others run in one transaction.
-/

namespace SimplestChat

open Transaction Transaction.Tx

abbrev Sql := Tx Database DriverError RoomError

/-! ## Statements -/

namespace Database

def resolveReport (db : Database) (room : RoomId) (report : ℕ)
    (status : ReportStatus) (actor : ParticipantId) : Database :=
  { db with
    reports := db.reports.map fun row =>
      if row.room = room ∧ row.id = report ∧ row.status = .opened then
        { row with status, resolvedBy := some actor }
      else row }

def insertEvent (db : Database) (room : RoomId) (event : ModerationEvent) : Database :=
  { db with events := db.events ++ [⟨room, event⟩] }

/-- Whether `a` comes before `b` in `ORDER BY created_at DESC, id DESC`. -/
def newerEvent (a b : ModerationEvent) : Bool :=
  b.createdAt < a.createdAt ||
    (a.createdAt = b.createdAt && b.eventId < a.eventId)

/-- Keep the newest `cap` entries of the room. -/
def dropOldEvents (db : Database) (room : RoomId) (cap : ℕ) : Database := { db with
    events := db.events.filter fun row =>
      row.room ≠ room ||
        (db.events.filter fun other =>
          other.room = room && newerEvent other.event row.event).length < cap }

def upsertState (db : Database) (room : RoomId) (state : SavedState)
    (sanction : Sanction) (expiresAt : Option Time) : Database :=
  let same (row : StateRow) : Bool :=
    row.room = room && row.state = state &&
      match row.sanction.identity, sanction.identity with
      | .user a _, .user b _ => a = b
      | .guest a, .guest b => a = b
      | _, _ => false
  if db.states.any same then
    { db with
      states := db.states.map fun row =>
        if same row then { row with sanction, expiresAt } else row }
  else
    { db with
      states := db.states ++ [⟨db.nextId, room, state, sanction, expiresAt⟩]
      nextId := db.nextId + 1 }

def deleteState (db : Database) (room : RoomId) (state : SavedState)
    (identity : SanctionIdentity) : Database :=
  { db with
    states := db.states.filter fun row =>
      !(row.room = room && row.state = state &&
        match row.sanction.identity, identity with
        | .user a _, .user b _ => a = b
        | .guest a, .guest b => a = b
        | _, _ => false) }

def bannedUser (db : Database) (room : RoomId) (user : ParticipantId) : Bool :=
  db.states.any fun row =>
    row.room = room && row.state = .banned &&
      match row.sanction.identity with
      | .user id _ => id = user
      | .guest _ => false

def banRow (db : Database) (room : RoomId) (ban : ℕ) : Option StateRow :=
  db.states.find? fun row =>
    row.room = room && row.id = ban && row.state = .banned

def savedRole (db : Database) (room : RoomId) (user : ParticipantId) : Option Role :=
  (db.roles.find? fun row => row.room = room && row.user = user).map (·.role)

def deleteRole (db : Database) (room : RoomId) (user : ParticipantId) : Database := { db with
    roles := db.roles.filter fun row => !(row.room = room && row.user = user) }

def upsertRole (db : Database) (row : RoleRow) : Database := { db with
    roles := row :: (db.deleteRole row.room row.user).roles }

/-- An `UPDATE rooms ... WHERE id = $1` and its `rows_affected`. -/
def updateRoom (room : RoomId) (f : RoomRow → RoomRow) (db : Database) : Database × ℕ :=
  ({ db with rooms := db.rooms.map fun row => if row.id = room then f row else row },
    (db.rooms.filter fun row => row.id = room).length)

def updateMessage (id : MessageId) (f : ChatEntry → ChatEntry) (db : Database) : Database :=
  { db with
    messages := db.messages.map fun row =>
      if row.body.messageId = id then { row with body := f row.body } else row }

def updateQuotes (conversation : Conversation) (id : MessageId)
    (excerpt : Text) (db : Database) : Database :=
  { db with
    messages := db.messages.map fun row =>
      if row.conversation = conversation ∧ row.expired = false then
        { row with body := row.body.requote id excerpt }
      else row }

def dropDeadPins (room : RoomId) (db : Database) : Database := { db with
    pins := db.pins.filter fun pin =>
      pin.room ≠ room ||
        !(db.messages.any fun row =>
          row.body.messageId = pin.message &&
            (row.expired || row.body.removedAt.isSome)) }

def hasPin (db : Database) (room : RoomId) (message : MessageId) : Bool :=
  db.pins.any fun pin => pin.room = room && pin.message = message

def freePinSlot (db : Database) (room : RoomId) : Option ℕ := [1, 2, 3].find? fun slot =>
    !(db.pins.any fun pin => pin.room = room && pin.slot = slot)

def deletePin (room : RoomId) (message : MessageId) (db : Database) : Database := { db with
    pins := db.pins.filter fun pin =>
      !(pin.room = room && pin.message = message) }

end Database

/-! ## Moderation -/

/-- `MAX_MODERATION_EVENTS`. -/
def maxModerationEvents : ℕ := 1000

/-- The report an event answers: it must be a report of this room about the
same participant, and it is resolved if it is still open. -/
def linkReport (room : RoomId) (event : ModerationEvent) : Sql Unit :=
  match event.reportId with
  | none => pure ()
  | some report => do
      let target ← query fun db => db.reportTarget room report
      match target with
      | none => raise (.database .rowNotFound)
      | some target =>
        if .participant target ≠ event.target.id then
          raise (.refused (.invalid "Open report does not match this participant"))
        else
          update fun db => db.resolveReport room report .resolved event.actor.id

/-- Append an event and keep the newest `cap` of the room. -/
def recordEvent (room : RoomId) (event : ModerationEvent) (cap : ℕ) : Sql Unit := do
  linkReport room event
  update fun db => db.insertEvent room event
  update fun db => db.dropOldEvents room cap

def persistEvent (room : RoomId) (event : ModerationEvent) : Sql Unit := do
  begin
  recordEvent room event maxModerationEvents
  commit

def writeBan (room : RoomId) (sanction : Sanction) (expiresAt : Option Time) : Sql Unit :=
  update fun db => db.upsertState room .banned sanction expiresAt

def persistBan (room : RoomId) (sanction : Sanction) (expiresAt : Option Time)
    (event : ModerationEvent) : Sql Unit := do
  begin
  writeBan room sanction expiresAt
  recordEvent room event maxModerationEvents
  commit

def writePunitiveState (room : RoomId) (sanction : Sanction)
    (kind : PunitiveKind) (enabled : Bool) : Sql Unit :=
  if enabled then
    update fun db => db.upsertState room (.punitive kind) sanction none
  else
    update fun db => db.deleteState room (.punitive kind) sanction.identity

def setPunitiveState (room : RoomId) (sanction : Sanction)
    (kind : PunitiveKind) (enabled : Bool) (event : ModerationEvent) :
    Sql Unit := do
  begin
  writePunitiveState room sanction kind enabled
  recordEvent room event maxModerationEvents
  commit

structure Stamp where
  eventId : ℕ
  now : Time
deriving DecidableEq

/-- `ModerationEvent::new`. -/
def ModerationEvent.new (stamp : Stamp) (action : ModerationAction)
    (actor : Actor) (target : Target) (reason : Option String)
    (expiresAt : Option Time) (reportId : Option ℕ) : ModerationEvent where
  eventId := stamp.eventId
  action := action
  actor := actor
  target := target
  reason := reason
  expiresAt := expiresAt
  reportId := reportId
  createdAt := stamp.now

def recordUserUnban (room : RoomId) (user : ParticipantId) (actor : Actor)
    (stamp : Stamp) : Sql Bool := do
  let name ← query fun db => (db.account user).map (·.displayName)
  recordEvent room
    (.new stamp .unban actor
      ⟨.participant user, name.getD "Removed account", true, none⟩ none none none)
    maxModerationEvents
  commit
  pure true

def removeUserBan (room : RoomId) (user : ParticipantId) (actor : Actor)
    (stamp : Stamp) : Sql Bool := do
  begin
  let deleted ← statement fun db =>
    (db.deleteState room .banned (.user user none), db.bannedUser room user)
  if deleted then recordUserUnban room user actor stamp else pure false

def removeBan (room : RoomId) (ban : ℕ) (actor : Actor) (stamp : Stamp) : Sql Unit := do
  let removed ← statement fun db =>
    ({ db with
        states := db.states.filter fun row =>
          !(row.room = room && row.id = ban && row.state = .banned) },
      (db.banRow room ban).map fun row =>
        match row.sanction.identity with
        | .user id _ =>
          ⟨.participant id, ((db.account id).map (·.displayName)).getD "Removed account", true,
            none⟩
        | .guest ip => ⟨.ban ban, "Guest", false, some ip⟩)
  match removed with
  | none => raise (.refused (.notFound "Ban not found in this room"))
  | some target =>
    recordEvent room (.new stamp .unban actor target none none none)
      maxModerationEvents

def closeReport (room : RoomId) (report : ℕ) (dismissed : Bool) (actor : Actor)
    (stamp : Stamp) : Sql Unit := do
  let opened ← statement fun db =>
    (db.resolveReport room report (if dismissed then .dismissed else .resolved)
        actor.id,
      (db.reports.find? fun row =>
        row.room = room && row.id = report && row.status = .opened).map fun row =>
          (⟨.participant row.target, row.targetName,
            (db.account row.target).isSome, none⟩ : Target))
  match opened with
  | none => raise (.refused (.notFound "Open report not found in this room"))
  | some target =>
    recordEvent room
      (.new stamp (if dismissed then .reportDismissed else .reportResolved) actor
        target none none (some report))
      maxModerationEvents

/-! ## Roles and settings -/

def setRole (room : RoomId) (user : ParticipantId) (role : Role)
    (grantedBy : ParticipantId) (db : Database) : Database :=
  if role.isStored then db.upsertRole ⟨room, user, role, grantedBy⟩
  else db.deleteRole room user

namespace SettingsPatch

def changesAny (patch : SettingsPatch) : Bool :=
  patch ≠ {}

def applyTo (patch : SettingsPatch) (settings : RoomSettings) : RoomSettings where
  moderated := patch.moderated.getD settings.moderated
  lobbyEnabled := patch.lobbyEnabled.getD settings.lobbyEnabled
  guestsAllowed := patch.guestsAllowed.getD settings.guestsAllowed
  guestsCanBroadcast := patch.guestsCanBroadcast.getD settings.guestsCanBroadcast
  maxBroadcasters := patch.maxBroadcasters.getD settings.maxBroadcasters
  maxParticipants := patch.maxParticipants.getD settings.maxParticipants
  allowScreenSharing := patch.allowScreenSharing.getD settings.allowScreenSharing
  allowChat := patch.allowChat.getD settings.allowChat
  allowVideo := patch.allowVideo.getD settings.allowVideo
  requireRegistration :=
    patch.requireRegistration.getD settings.requireRegistration
  inviteOnly := patch.inviteOnly.getD settings.inviteOnly
  pushToTalk := patch.pushToTalk.getD settings.pushToTalk
  secret := patch.secret.getD settings.secret

/-- The assignments of one `UPDATE rooms`. -/
def assign (patch : SettingsPatch) (passwordHash : Option (Option String))
    (row : RoomRow) : RoomRow :=
  { row with
    settings := patch.applyTo row.settings
    passwordHash := passwordHash.getD row.passwordHash }

end SettingsPatch

def updateOwnRow (room : RoomId) (f : RoomRow → RoomRow) : Sql Unit := do
  let affected ← autocommit fun db => db.updateRoom room f
  if affected = 1 then pure () else raise (.database .rowNotFound)

def updateRoomSettings (room : RoomId) (patch : SettingsPatch)
    (passwordHash : Option (Option String)) : Sql Unit :=
  if patch.changesAny || passwordHash.isSome then
    updateOwnRow room (patch.assign passwordHash)
  else pure ()

def updateTopic (room : RoomId) (topic : Text) : Sql Unit :=
  updateOwnRow room fun row => { row with topic := some topic }

/-- `ROOM_HISTORY_RETENTION_DAYS`. -/
def roomHistoryRetentionDays : List ℕ := [0, 1, 7, 30, 90]

/-- Read cursors are not part of the model. -/
def dropReadCursors (days : ℕ) : Sql Unit :=
  if days = 0 then update fun db => db else pure ()

/-- `DELETE FROM chat_messages`, which cascades to the pins of the deleted rows. -/
def Database.deleteMessages (gone : MessageRow → Bool) (db : Database) : Database := { db with
    messages := db.messages.filter fun row => !gone row
    pins := db.pins.filter fun pin =>
      !db.messages.any fun row => gone row && row.body.messageId = pin.message }

/-- The statements that shorten or erase what is already saved. `isOlder`
says which messages were sent before the new period began. -/
def applyRetention (room : RoomId) (days : ℕ) (isOlder : MessageRow → Bool) : Sql Unit := do
  update (Database.deleteMessages fun row =>
    row.room = some room && (days = 0 || isOlder row))
  -- the expiry of what stays only moves to a later time than now
  update fun db => db
  -- attachments are not part of the model
  update fun db => db
  dropReadCursors days
  commit

def setRetention (room : RoomId) (days : ℕ) (isOlder : MessageRow → Bool) : Sql Unit :=
  if days ∉ roomHistoryRetentionDays then
    raise (.refused (.invalid "Invalid history retention"))
  else do
    begin
    let affected ← statement fun db =>
      db.updateRoom room fun row => { row with historyRetentionDays := days }
    if affected = 1 then applyRetention room days isOlder
    else raise (.database .rowNotFound)

/-! ## Saved chat -/

def takePinSlot (room : RoomId) (message : MessageId) : Sql Unit := do
  let existing ← query fun db => db.hasPin room message
  if existing then pure ()
  else do
    let slot ← query fun db => db.freePinSlot room
    match slot with
    | none =>
      raise (.refused (.conflict
        "Unpin a message before pinning another; rooms keep up to three"))
    | some slot => update fun db => { db with pins := db.pins ++ [⟨room, message, slot⟩] }

def pinAvailable (room : RoomId) (message : MessageId) : Sql Unit := do
  let available ← query fun db => (db.publicMessage room message).isSome
  if available then takePinSlot room message
  else raise (.database .rowNotFound)

def changePin (room : RoomId) (message : MessageId) (pinned : Bool) : Sql Unit :=
  if pinned then pinAvailable room message
  else update fun db => db.deletePin room message

def setPin (room : RoomId) (message : MessageId) (pinned : Bool) : Sql Unit := do
  begin
  -- `SELECT id FROM rooms WHERE id=$1 FOR UPDATE`
  update fun db => db
  update fun db => db.dropDeadPins room
  changePin room message pinned
  commit

def saveReactions (message : MessageId) (reactions : List ChatReaction) : Sql Unit :=
  autocommit fun db =>
    ({ db with
        messages := db.messages.map fun row =>
          if row.body.messageId = message ∧ row.expired = false ∧ row.body.removedAt = none then
            { row with body := { row.body with reactions } }
          else row },
      ())

def toggleSavedReaction (message : ChatEntry) (reactor : ParticipantId)
    (emoji : String) : Sql (Option ChatEntry) :=
  match toggleReactions message.reactions reactor emoji with
  | .error text => raise (.refused (.invalid text))
  | .ok reactions => do
      update (Database.updateMessage message.messageId fun body =>
        { body with reactions })
      commit
      pure (some { message with reactions })

def reactPublic (room : RoomId) (message : MessageId) (reactor : ParticipantId)
    (ignored : List ParticipantId) (emoji : String) :
    Sql (Option ChatEntry) := do
  begin
  -- the conversation's advisory lock
  update fun db => db
  let saved ← query fun db =>
    (db.publicMessage room message).filter fun row =>
      row.body.participantId ∉ ignored
  match saved with
  | none => pure none
  | some row => toggleSavedReaction row.body reactor emoji

def saveEdit (conversation : Conversation) (now : Time) (saved : ChatEntry)
    (request : EditRequest) : Sql ChatEntry :=
  match applyEdit now saved request with
  | .error text => raise (.refused (.invalid text))
  | .ok edited =>
    if saved.revision = edited.revision then pure edited
    else do
      update (Database.updateMessage saved.messageId fun _ => edited)
      update (Database.updateQuotes conversation saved.messageId
        (Text.quoteExcerpt edited.content))
      pure edited

/-- `conversation_message`: the server marks account conversations itself. -/
def conversationMessage (conversation : Conversation) (message : ChatEntry) : ChatEntry :=
  { message with
    accountConversation :=
      match conversation with
      | .pm _ _ => some true
      | .room _ => none }

def editInTransaction (conversation : Conversation) (actor : ParticipantId)
    (guestSession : Option SessionId) (message : MessageId) (now : Time)
    (request : EditRequest) : Sql ChatEntry := do
  -- the conversation's advisory lock
  update fun db => db
  let saved ← query fun db =>
    db.authoredMessage conversation actor guestSession message
  match saved with
  | none => raise (.database .rowNotFound)
  | some row => saveEdit conversation now (conversationMessage conversation row.body) request

def AccountRow.allowsPrivateMessagesFrom (account : AccountRow) (peer : ParticipantId) : Bool :=
  account.allowPrivateMessages && peer ∉ account.ignored

/-- Both accounts exist, differ, and accept each other's messages. -/
def Database.privateAccountsAllow (db : Database) (sender recipient : ParticipantId) : Bool :=
  sender ≠ recipient &&
    match db.account sender, db.account recipient with
    | some a, some b =>
      a.allowsPrivateMessagesFrom recipient && b.allowsPrivateMessagesFrom sender
    | _, _ => false

def editAndCommit (conversation : Conversation) (actor : ParticipantId)
    (guestSession : Option SessionId) (message : MessageId) (now : Time)
    (request : EditRequest) : Sql ChatEntry := do
  let edited ← editInTransaction conversation actor guestSession message now request
  commit
  pure edited

/-- The private branch of `edit_saved`. `lock_private_accounts` asks nothing
of the database when the actor is its own peer. -/
def editPrivate (actor peer : ParticipantId) (guestSession : Option SessionId)
    (message : MessageId) (now : Time) (request : EditRequest) :
    Sql ChatEntry :=
  if actor = peer then
    raise (.refused (.unavailable "Private message unavailable"))
  else do
    let allowed ← query fun db => db.privateAccountsAllow actor peer
    if guestSession.isSome || !allowed then
      raise (.refused (.unavailable "Private message unavailable"))
    else
      editAndCommit (privateConversation actor peer) actor guestSession message
        now request

def editSaved (room : RoomId) (actor : ParticipantId) (guestSession : Option SessionId)
    (original : ChatEntry) (now : Time) (request : EditRequest) :
    Sql ChatEntry := do
  begin
  match original.recipientId with
  | some peer => editPrivate actor peer guestSession original.messageId now request
  | none => editAndCommit (.room room) actor guestSession original.messageId now request

/-! ## Administration over HTTP -/

/-- What `Context::prepare` writes for each command, after the checks on the
runtime room, which refuse without any statement. -/
inductive AdministrationCommand where
  | settings (patch : SettingsPatch) (passwordHash : Option (Option String))
  | role (target : ParticipantId) (online : Option Role) (role : Role)
  | unban (ban : ℕ)
  | report (report : ℕ) (dismissed : Bool)
  | moderate (ban : Option (Sanction × Option Time)) (target : Target)
      (reason : Option String) (report : Option ℕ)
  | sanction (sanction : Sanction) (kind : PunitiveKind) (enabled : Bool)
      (target : Target) (reason : Option String)
deriving DecidableEq

structure Administrator where
  actor : Actor
  role : Role
  session : ℕ
deriving DecidableEq

def roleChange (room : RoomId) (admin : Administrator) (target : ParticipantId)
    (online : Option Role) (newRole : Role) : Sql Unit := do
  let current ← query fun db => db.savedRole room target
  match current.or online with
  | none => raise (.refused (.notFound "Member not found in this room"))
  | some current =>
    if newRole.rank < Role.user.rank || !admin.role.canSetRole current newRole then
      raise (.refused (.forbidden "Insufficient room permissions"))
    else update (setRole room target newRole admin.actor.id)

/-- The transaction is already open: admission locked its rows in it. -/
def prepare (room : RoomId) (admin : Administrator) (stamp : Stamp) :
    AdministrationCommand → Sql Unit
  | .settings patch passwordHash =>
    if admin.role.rank < Role.admin.rank then
      raise (.refused (.forbidden "Insufficient room permissions"))
    else
      update fun db => (db.updateRoom room (patch.assign passwordHash)).1
  | .role target online role => roleChange room admin target online role
  | .unban ban =>
    if admin.role.rank < Role.admin.rank then
      raise (.refused (.forbidden "Insufficient room permissions"))
    else removeBan room ban admin.actor stamp
  | .report report dismissed => closeReport room report dismissed admin.actor stamp
  | .moderate none target reason report =>
    recordEvent room
      (.new stamp .kick admin.actor target reason none report)
      maxModerationEvents
  | .moderate (some (sanction, expiresAt)) target reason report => do
      writeBan room sanction expiresAt
      recordEvent room
        (.new stamp .ban admin.actor target reason expiresAt report)
        maxModerationEvents
  | .sanction sanction kind enabled target reason => do
      writePunitiveState room sanction kind enabled
      recordEvent room
        (.new stamp (.forPunitive kind enabled) admin.actor target reason none none)
        maxModerationEvents

def recheckExpiry (admin : Administrator) : Sql Unit := do
  let live ← query fun db =>
    db.sessions.any fun row =>
      row.id = admin.session && row.user = admin.actor.id && !row.expired
  if live then pure ()
  else raise (.refused (.unauthorized "Sign-in expired; sign in again"))

def administer (room : RoomId) (admin : Administrator) (stamp : Stamp)
    (command : AdministrationCommand) : Sql Unit := do
  prepare room admin stamp command
  recheckExpiry admin
  commit

end SimplestChat
