import SimplestChat.Support.Rows

/-!
# The account tables

Accounts, passkeys, refresh sessions and invitations live in four tables. This
module has the rows that sign-in and credential changes read and write, and the
statements of each transaction in the order the server sends them. A transaction
is a function on the tables: it either returns the tables it would commit or the
error it stops with, and then nothing of it is committed.

Row IDs and random secrets are numbers. They are handed out in order by the caller,
which is all that is used of them: none is drawn twice. Instants and durations are
counted in microseconds. A digest is known by the text it was computed from, so
different texts have different digests.
-/

namespace SimplestChat.Accounts

open Rows (require)

/-! ## Values -/

abbrev Email := String

def second : ℕ := 1000000

def day : ℕ := 86400 * second

/-- `MAX_ACTIVE_SESSIONS_PER_USER` -/
def maxActiveSessionsPerUser : ℕ := 32

/-- `CONCURRENT_REFRESH_GRACE_SECONDS` -/
def concurrentRefreshGrace : ℕ := 2 * second

def sessionLifetime : ℕ := 7 * day

/-- `SESSION_ABSOLUTE_LIFETIME_DAYS` -/
def sessionAbsoluteLifetime : ℕ := 30 * day

/-- `MAX_PASSKEYS` -/
def maxPasskeys : ℕ := 10

/-- `MAX_LIVE_REGISTRATION_INVITES` -/
def maxLiveRegistrationInvites : ℕ := 5

/-- `REGISTRATION_INVITE_DAYS` -/
def registrationInviteDays : ℕ := 7

/-- `MAX_LIVE_ROOM_INVITES` -/
def maxLiveRoomInvites : ℕ := 20

/-- `MAX_INVITE_USES` -/
def maxInviteUses : ℕ := 100

/-- `MAX_INVITE_DAYS` -/
def maxInviteDays : ℕ := 30

/-- `INVITE_RECEIPT_RETENTION_DAYS` -/
def inviteReceiptRetentionDays : ℕ := 7

def maxAuthVersion : ℕ := 2 ^ 63 - 1

/-- `statement_timeout` and `idle_in_transaction_session_timeout` bound what one
statement of a transaction and the wait before it can take. -/
def statementLimit : ℕ := (10 + 15) * second

/-- No transaction sends more than six statements up to the one that inserts a
session. -/
def signInLimit : ℕ := 6 * statementLimit

structure RefreshToken where
  generation : ℕ
  family : ℕ
deriving DecidableEq

/-- The SHA-256 digests of secrets. Two secrets are assumed to have different digests, so the
constructors are free. -/
inductive Digest where
  | refreshToken (token : RefreshToken)
  | family (secret : ℕ)
  | recoveryKey (secret : ℕ)
  | inviteCode (code : ℕ)
deriving DecidableEq

/-- A stored hash, with the texts that verify against it: which ones is up to normalization
and Argon2. -/
structure PasswordHash where
  accepted : List String
  salt : ℕ
deriving DecidableEq

inductive AuthError where
  | registrationDisabled
  | inviteRequired
  | invalidInput (message : String)
  | emailAlreadyExists
  | invalidCredentials
  | invalidToken
  | invalidPasskey
  | webAuthnError (message : String)
  | databaseError
deriving DecidableEq

/-- `REGISTRATION_ENABLED` and `MAX_USERS` -/
structure AuthConfig where
  registrationEnabled : Bool
  maxUsers : ℕ

/-! ## Rows -/

structure User where
  id : ℕ
  email : Email
  passwordHash : Option PasswordHash
  recoveryKeyHash : Option Digest
  authVersion : ℕ
  invitedBy : Option ℕ
deriving DecidableEq

/-- A row of `webauthn_credentials`. -/
structure Passkey where
  id : ℕ
  userId : ℕ
  credentialId : ℕ
deriving DecidableEq

structure Session where
  id : ℕ
  userId : ℕ
  refreshTokenHash : Digest
  familyHash : Digest
  previousHash : Option Digest
  rotatedAt : Option ℕ
  createdAt : ℕ
  expiresAt : ℕ
  /-- not a column: the account version the sign-in was authenticated with -/
  basis : ℕ
deriving DecidableEq

inductive InviteKind where
  | registration
  | room (room : ℕ)
deriving DecidableEq

structure Invite where
  id : ℕ
  codeHash : Digest
  kind : InviteKind
  createdBy : ℕ
  usesLeft : ℕ
  expiresAt : ℕ
  /-- not a column: the account version its request was authenticated with -/
  basis : ℕ
deriving DecidableEq

structure Database where
  users : List User := []
  passkeys : List Passkey := []
  sessions : List Session := []
  invites : List Invite := []
deriving DecidableEq

namespace Database

def user (db : Database) (id : ℕ) : Option User :=
  db.users.find? fun u => u.id = id

def updateUser (db : Database) (id : ℕ) (f : User → User) : Database :=
  { db with users := Rows.update (fun u => u.id = id) f db.users }

end Database

/-! ## Sessions -/

/-- What the insertion of a session row takes from outside: `now()` is the start of
the transaction and `clock_timestamp()` the instant of the statement. -/
structure NewSession where
  now : ℕ
  clock : ℕ
  id : ℕ
  token : RefreshToken
deriving DecidableEq

def NewSession.row (new : NewSession) (user : ℕ) (basis : ℕ) : Session where
  id := new.id
  userId := user
  refreshTokenHash := .refreshToken new.token
  familyHash := .family new.token.family
  previousHash := none
  rotatedAt := none
  createdAt := new.now
  expiresAt := new.clock + sessionLifetime
  basis := basis

namespace Session

/-- `expires_at > clock` -/
def live (r : Session) (clock : ℕ) : Bool :=
  clock < r.expiresAt

/-- `ORDER BY created_at DESC, id DESC` -/
def precedes (a b : Session) : Bool :=
  b.createdAt < a.createdAt || (a.createdAt = b.createdAt && b.id ≤ a.id)

def rotate (r : Session) (successor presented : RefreshToken) (clock : ℕ) : Session := { r with
    refreshTokenHash := .refreshToken successor
    familyHash := .family successor.family
    previousHash := some (.refreshToken presented)
    rotatedAt := some clock
    expiresAt := min (clock + sessionLifetime) (r.createdAt + sessionAbsoluteLifetime) }

/-- `exact_predecessor_in_grace` -/
def inGrace (r : Session) (presented : RefreshToken) (clock : ℕ) : Bool :=
  r.previousHash = some (.refreshToken presented) &&
    r.rotatedAt.any fun rotated => clock < rotated + concurrentRefreshGrace

end Session

/-- The live sessions of the account, other than the new one, past the newest ones
that are kept. -/
def surplusSessions (now : ℕ) (user : ℕ) (new : ℕ) (rows : List Session) : List Session :=
  ((rows.filter fun r => r.userId = user && r.id ≠ new && r.live now).insertionSort
    fun a b => a.precedes b).drop (maxActiveSessionsPerUser - 1)

/-- The `DELETE` that keeps the session cap. -/
def trimSessions (now : ℕ) (user : ℕ) (new : ℕ) (rows : List Session) : List Session :=
  rows.filter fun r =>
    !(r.userId = user && r.id ≠ new &&
      (!r.live now || (surplusSessions now user new rows).any fun x => x.id = r.id))

def createSessionWith (new : NewSession) (user : ℕ) (basis : ℕ) (db : Database) :
    Except AuthError Database :=
  if (db.user user).isSome then
    .ok { db with
      sessions := trimSessions new.now user new.id (new.row user basis :: db.sessions) }
  else .error .databaseError

inductive RefreshRotation where
  | rotated (user : ℕ) (session : ℕ) (token : RefreshToken)
  | concurrentRequest
  | reuseDetected
deriving DecidableEq

def candidateUser (clock : ℕ) (token : RefreshToken) (db : Database) : Option ℕ :=
  let live := db.sessions.filter fun r => r.live clock
  ((live.find? fun r => r.refreshTokenHash = .refreshToken token).or
    (live.find? fun r => r.familyHash = .family token.family)).map Session.userId

/-- `clock_timestamp()` in the three statements of a rotation that read it. -/
structure RotationClocks where
  current : ℕ
  update : ℕ
  family : ℕ
deriving DecidableEq

def Database.currentSession (db : Database) (clock : ℕ) (token : RefreshToken)
    (user : ℕ) : Option Session :=
  db.sessions.find? fun r =>
    r.refreshTokenHash = .refreshToken token && r.userId = user && r.live clock

def Database.familySession (db : Database) (clock : ℕ) (token : RefreshToken)
    (user : ℕ) : Option Session :=
  db.sessions.find? fun r =>
    r.familyHash = .family token.family && r.userId = user && r.live clock

def Database.deleteSessions (db : Database) (p : Session → Bool) : Database :=
  { db with sessions := db.sessions.filter fun r => !p r }

/-- `rotate_refresh_token_with` after the account was resolved: everything below is
done with the account row locked. -/
def rotateRefreshTokenWith (t : RotationClocks) (generation : ℕ)
    (token : RefreshToken) (candidate : ℕ) (db : Database) :
    Except AuthError (RefreshRotation × Database) :=
  match db.user candidate with
  | none => .error .invalidToken
  | some _ =>
    match db.currentSession t.current token candidate with
    | some r =>
      if r.familyHash ≠ .family token.family then .error .invalidToken
      else if r.createdAt + sessionAbsoluteLifetime ≤ t.update then
        .error .invalidToken
      else
        let successor : RefreshToken := ⟨generation, token.family⟩
        .ok (.rotated candidate r.id successor, { db with
            sessions := Rows.update (fun x => x.id = r.id)
              (fun x => x.rotate successor token t.update) db.sessions })
    | none =>
      match db.familySession t.family token candidate with
      | none => .error .invalidToken
      | some r =>
        if r.inGrace token t.family then .ok (.concurrentRequest, db)
        else .ok (.reuseDetected, db.deleteSessions fun x => x.id = r.id)

def deleteSessionByToken (token : RefreshToken) (db : Database) : Database :=
  db.deleteSessions fun r =>
    r.refreshTokenHash = .refreshToken token || r.familyHash = .family token.family

/-- One sweep of expired sessions; `batch` are the rows it got to. -/
def cleanupExpired (now : ℕ) (batch : List ℕ) (db : Database) : Database :=
  db.deleteSessions fun r => r.expiresAt < now && batch.contains r.id

/-! ## Claims -/

structure Claims where
  sub : ℕ
  authVersion : ℕ
  sid : ℕ
deriving DecidableEq

def Database.hasSession (db : Database) (clock : ℕ) (claims : Claims) : Bool :=
  db.sessions.any fun r => r.id = claims.sid && r.userId = claims.sub && r.live clock

def validateCurrentClaims (clock : ℕ) (claims : Claims) (db : Database) : Bool :=
  (db.user claims.sub).any fun u =>
    db.hasSession clock claims && u.authVersion = claims.authVersion

/-- `revoke_sessions`: one session of the caller, or all but the caller's. -/
def revokeSessions (clock : ℕ) (claims : Claims) (target : Option ℕ)
    (db : Database) : Except AuthError Database :=
  if validateCurrentClaims clock claims db then
    match target with
    | some id => .ok (db.deleteSessions fun r => r.userId = claims.sub && r.id = id)
    | none => .ok (db.deleteSessions fun r => r.userId = claims.sub && r.id ≠ claims.sid)
  else .error .invalidToken

/-! ## Invitations -/

namespace Invite

def opensRegistration (i : Invite) (now : ℕ) (code : Digest) : Bool :=
  i.codeHash = code && i.kind = .registration && 0 < i.usesLeft && now < i.expiresAt

def liveRegistration (i : Invite) (now : ℕ) (user : ℕ) : Bool :=
  i.kind = .registration && i.createdBy = user && 0 < i.usesLeft && now < i.expiresAt

def liveRoom (i : Invite) (now : ℕ) (room : ℕ) : Bool :=
  i.kind = .room room && 0 < i.usesLeft && now < i.expiresAt

def spend (i : Invite) : Invite := { i with usesLeft := i.usesLeft - 1 }

end Invite

def Database.spendCode (db : Database) (now : ℕ) (code : ℕ) : Database := { db with
    invites := Rows.update (fun j => j.opensRegistration now (.inviteCode code))
      Invite.spend db.invites }

def consumeRegistrationInvite (now : ℕ) (code : ℕ) (db : Database) : Option (ℕ × Database) :=
  (db.invites.find? fun i => i.opensRegistration now (.inviteCode code)).map fun i =>
    (i.createdBy, db.spendCode now code)

def createInvite (now : ℕ) (user : ℕ) (id : ℕ) (code : ℕ) (basis : ℕ)
    (db : Database) : Except AuthError Database :=
  if maxLiveRegistrationInvites ≤ db.invites.countP fun i => i.liveRegistration now user then
    .error (.invalidInput "You already hold five unused invite codes")
  else if (db.user user).isNone then .error .databaseError
  else
    .ok { db with
      invites := ⟨id, .inviteCode code, .registration, user, 1,
        now + registrationInviteDays * day, basis⟩ :: db.invites }

/-- `create` of a room code; `authorized` are the codes whose issuers could still
mint them, which is read from the tables of the rooms. -/
def createRoomInvite (now : ℕ) (authorized : Invite → Bool) (room : ℕ)
    (uses days : ℕ) (user : ℕ) (id : ℕ) (code : ℕ) (basis : ℕ)
    (db : Database) : Except AuthError Database :=
  if uses < 1 ∨ maxInviteUses < uses ∨ days < 1 ∨ maxInviteDays < days then
    .error (.invalidInput "Uses must be 1–100 and validity 1–30 days")
  else if maxLiveRoomInvites ≤ db.invites.countP fun i => i.liveRoom now room && authorized i then
    .error (.invalidInput "This room already has 20 unused invitations")
  else if (db.user user).isNone then .error .databaseError
  else
    .ok { db with
      invites := ⟨id, .inviteCode code, .room room, user, uses, now + days * day,
        basis⟩ :: db.invites }

def Database.deleteInvites (db : Database) (p : Invite → Bool) : Database :=
  { db with invites := db.invites.filter fun i => !p i }

/-- The invitations `revoke_issued_invites` finds. -/
def Database.issuedInvites (db : Database) (user : ℕ) : List ℕ :=
  (db.invites.filter fun i => i.createdBy = user).map Invite.id

def redeemRoomInvite (clock : ℕ) (code : ℕ) (db : Database) : Option Database :=
  let redeemable (i : Invite) : Bool :=
    i.codeHash = .inviteCode code && i.kind ≠ .registration && clock < i.expiresAt &&
      i.usesLeft ≠ 0
  if db.invites.any redeemable then
    some { db with
      invites := Rows.update (fun i => i.codeHash = .inviteCode code) Invite.spend
        db.invites }
  else none

/-! ## Registration and sign-in -/

def enforceUserCapacity (maxUsers : ℕ) (db : Database) : Except AuthError Unit :=
  if maxUsers ≤ (db.users.take maxUsers).length then .error .registrationDisabled
  else .ok ()

/-- Addresses and account IDs are unique. -/
def insertUser (u : User) (db : Database) : Except AuthError Database :=
  if db.users.any fun v => v.email = u.email || v.id = u.id then
    .error .emailAlreadyExists
  else .ok { db with users := db.users ++ [u] }

/-- Credential IDs are unique over all accounts. -/
def insertPasskey (p : Passkey) (db : Database) : Except AuthError Database :=
  if db.passkeys.any fun q => q.credentialId = p.credentialId then
    .error (.webAuthnError "Credential already registered")
  else .ok { db with passkeys := db.passkeys ++ [p] }

def spendInviteCode (now : ℕ) (code : Option ℕ) (db : Database) :
    Except AuthError (Option ℕ × Database) :=
  match code with
  | none => .ok (none, db)
  | some code =>
    match consumeRegistrationInvite now code db with
    | some (inviter, db) => .ok (some inviter, db)
    | none => .error (.invalidInput "This invite code is invalid, used up or expired")

def register (cfg : AuthConfig) (new : NewSession) (id : ℕ) (email : Email)
    (hash : PasswordHash) (code : Option ℕ) (db : Database) :
    Except AuthError Database := do
  require (cfg.registrationEnabled || code.isSome) .inviteRequired
  enforceUserCapacity cfg.maxUsers db
  let (inviter, db) ← spendInviteCode new.now code db
  let db ← insertUser ⟨id, email, some hash, none, 0, inviter⟩ db
  createSessionWith new id 0 db

def passkeyRegisterFinish (cfg : AuthConfig) (new : NewSession) (id : ℕ)
    (email : Email) (record : ℕ) (credential : ℕ) (db : Database) :
    Except AuthError Database := do
  require cfg.registrationEnabled .registrationDisabled
  enforceUserCapacity cfg.maxUsers db
  let db ← insertUser ⟨id, email, none, none, 0, none⟩ db
  let db ← insertPasskey ⟨record, id, credential⟩ db
  createSessionWith new id 0 db

/-- The transaction of `login`, after the password was checked against the hash and
version read before it. -/
def loginFinish (new : NewSession) (user : ℕ) (hash : PasswordHash)
    (version : ℕ) (db : Database) : Except AuthError Database :=
  if (db.user user).any fun u =>
      u.passwordHash = some hash && u.authVersion = version then
    createSessionWith new user version db
  else .error .invalidCredentials

def Database.hasPasskey (db : Database) (user : ℕ) (credential : ℕ) : Bool :=
  db.passkeys.any fun p => p.userId = user && p.credentialId = credential

def passkeyLoginFinish (new : NewSession) (user : ℕ) (credential : ℕ)
    (verified : Bool) (db : Database) : Except AuthError (ℕ × Database) :=
  match db.user user with
  | none => .error .invalidPasskey
  | some u =>
    if db.hasPasskey user credential && verified then do
      let db ← createSessionWith new user u.authVersion db
      return (u.authVersion, db)
    else .error .invalidPasskey

/-! ## Credential changes -/

/-- `locked_account`: the account, if it still has the version. -/
def lockedAccount (user : ℕ) (version : ℕ) (db : Database) : Except AuthError User :=
  match db.user user with
  | some u => if u.authVersion = version then .ok u else .error .invalidToken
  | none => .error .invalidToken

def Database.credentials (db : Database) (user : ℕ) : List Passkey :=
  (db.passkeys.filter fun p => p.userId = user).take (maxPasskeys + 1)

/-- `version.checked_add(1)` -/
def nextVersion (version : ℕ) : Except AuthError ℕ :=
  if version < maxAuthVersion then .ok (version + 1) else .error .invalidToken

/-- `verified_password_hash`: the stored hash the password matched. -/
def verifiedPasswordHash (claims : Claims) (password : String) (db : Database) :
    Except AuthError PasswordHash :=
  match (db.user claims.sub).filter fun u => u.authVersion = claims.authVersion with
  | some u =>
    match u.passwordHash with
    | some hash => if password ∈ hash.accepted then .ok hash else .error .invalidCredentials
    | none => .error .invalidCredentials
  | none => .error .invalidCredentials

/-- The conditional update of `create_recovery_key`. -/
def createRecoveryKey (claims : Claims) (old : PasswordHash) (key : ℕ)
    (db : Database) : Except AuthError Database :=
  if (db.user claims.sub).any fun u =>
      u.passwordHash = some old && u.authVersion = claims.authVersion then
    .ok (db.updateUser claims.sub fun u =>
      { u with recoveryKeyHash := some (.recoveryKey key) })
  else .error .invalidCredentials

/-- The conditional update of `change_password`. -/
def changePassword (user : ℕ) (version : ℕ) (old new : PasswordHash)
    (db : Database) : Except AuthError Database :=
  if (db.user user).any fun u =>
      u.passwordHash = some old && u.authVersion = version then
    if version < maxAuthVersion then
      .ok (db.updateUser user fun u =>
        { u with passwordHash := some new, authVersion := u.authVersion + 1 })
    else .error .databaseError
  else .error .invalidCredentials

def Database.recoverable (db : Database) (email : Email) (key : ℕ) : Option User :=
  db.users.find? fun u =>
    u.email = email && u.recoveryKeyHash = some (.recoveryKey key)

/-- The conditional update of `consume_recovery`. -/
def consumeRecovery (user : ℕ) (email : Email) (key : ℕ) (new : PasswordHash)
    (db : Database) : Except AuthError Database :=
  if (db.recoverable email key).any fun u => u.id = user then
    if (db.user user).any fun u => u.authVersion < maxAuthVersion then
      .ok (db.updateUser user fun u =>
        { u with
          passwordHash := some new
          recoveryKeyHash := none
          authVersion := u.authVersion + 1 })
    else .error .databaseError
  else .error .invalidCredentials

/-- The replacement an enrolment was prepared for, with the digest of the recovery
key issued for it. -/
structure ReplacementRegistration where
  target : ℕ
  recoveryHash : Digest
deriving DecidableEq

def passkeyUnavailable : AuthError :=
  .invalidInput "Passkey is no longer available"

def Database.dropPasskey (db : Database) (user : ℕ) (passkey : ℕ) : Database :=
  { db with passkeys := db.passkeys.filter fun p => !(p.userId = user && p.id = passkey) }

/-- `replace_credential` up to the version it sets. -/
def replaceCredential (user : ℕ) (version : ℕ) (replacement : ReplacementRegistration) (record : ℕ)
    (credential : ℕ) (db : Database) : Except AuthError Database := do
  let owner ← lockedAccount user version db
  require (owner.recoveryKeyHash = some replacement.recoveryHash)
    (.invalidInput
      "The saved recovery key changed; reload and use the latest recovery key")
  require ((db.credentials user).any fun p => p.id = replacement.target)
    passkeyUnavailable
  let next ← nextVersion version
  let db ← insertPasskey ⟨record, user, credential⟩ db
  require ((db.passkeys.countP fun p =>
    p.userId = user && p.id = replacement.target) = 1) .invalidPasskey
  return (db.dropPasskey user replacement.target).updateUser user fun u =>
    { u with authVersion := next }

/-- `remove_credential` up to the version it sets. -/
def removeCredential (user : ℕ) (version : ℕ) (passkey : ℕ)
    (passwordEnabled : Bool) (db : Database) : Except AuthError Database := do
  let records := db.credentials user
  require (records.any fun p => p.id = passkey) passkeyUnavailable
  -- a recovery key is a recovery path, not a directly usable sign-in method
  require (1 < records.length || passwordEnabled)
    (.invalidInput "Add another passkey before removing your last sign-in method")
  let next ← nextVersion version
  return (db.dropPasskey user passkey).updateUser user fun u =>
    { u with authVersion := next }

def tooManyPasskeys : AuthError :=
  .invalidInput "This account already has the maximum number of passkeys"

/-- What `prepare_registration` writes: a replacement has a recovery key issued for
it before the provider is asked for a credential. -/
def prepareRegistration (user : ℕ) (target : Option ℕ) (key : ℕ) (db : Database) :
    Except AuthError (Option ReplacementRegistration × Database) := do
  let records := db.credentials user
  match target with
  | some target =>
    require (records.any fun p => p.id = target) passkeyUnavailable
    return (some ⟨target, .recoveryKey key⟩, db.updateUser user fun u =>
      { u with recoveryKeyHash := some (.recoveryKey key) })
  | none =>
    require (records.length < maxPasskeys) tooManyPasskeys
    return (none, db)

/-- `enroll` without a replacement. -/
def addPasskey (user : ℕ) (version : ℕ) (record : ℕ)
    (credential : ℕ) (db : Database) : Except AuthError Database := do
  let _ ← lockedAccount user version db
  require ((db.credentials user).length < maxPasskeys) tooManyPasskeys
  insertPasskey ⟨record, user, credential⟩ db

/-- The four transactions that cut an account off from what was issued before. -/
inductive Cut where
  | password (version : ℕ) (old new : PasswordHash)
  | recovery (email : Email) (key : ℕ) (new : PasswordHash)
  | removal (version : ℕ) (passkey : ℕ)
  | replacement (version : ℕ) (data : ReplacementRegistration)
      (credential : ℕ)
deriving DecidableEq

def Cut.change (cut : Cut) (user : ℕ) (record : ℕ) (db : Database) : Except AuthError Database :=
  match cut with
  | .password version old new => changePassword user version old new db
  | .recovery email key new => consumeRecovery user email key new db
  | .removal version passkey => do
      let owner ← lockedAccount user version db
      removeCredential user version passkey owner.passwordHash.isSome db
  | .replacement version data credential =>
    replaceCredential user version data record credential db

/-- What a cut revokes besides: every session of the account, and the invitations
its `DELETE` found. -/
def Database.revokeIssued (db : Database) (user : ℕ) (revoked : List ℕ) : Database :=
  (db.deleteSessions fun r => r.userId = user).deleteInvites fun i =>
    revoked.contains i.id

end SimplestChat.Accounts
