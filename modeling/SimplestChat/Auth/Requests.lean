import SimplestChat.Auth.Transactions
import SimplestChat.Support.Interleaving
import SimplestChat.Support.Runs

/-!
# Requests on the account tables

A request authenticates, reads what it needs and then writes in one transaction.
Between these points other requests run. A request is a task here, and a program
point is a place where it has read something that another request may change before
it goes on.

A transaction that locks the account row runs in one step, which waits while another
transaction holds the row. The transactions that cut an account off take two: the
`DELETE` of the account's invitations sees what is committed when it runs, and
creating an invitation does not wait for the account row, so the moment of the
statement and the moment of the commit are told apart. What a cut changes is computed
when it commits, from rows that its lock on the account has kept; if its checks failed
there, it would end without effect.

Registration, and the creation of an invitation, take an advisory lock before they
count and keep it until they commit. Each is one step, so these locks are not
represented.

A `Choice` is what the surroundings decide: whether the request goes on (a refused
permit, a dropped connection or a failing statement ends it, and rolls its
transaction back), the clocks its statements read, and whether a passkey signature
was good.
-/

namespace SimplestChat.Accounts

open Option Interleaving

/-! ## Requests -/

inductive PasskeyAction where
  | add
  | remove (passkey : ℕ)
  | replace (passkey : ℕ)
  | recoveryKey
deriving DecidableEq

inductive AccountChallenge where
  | authentication (action : PasskeyAction)
  | registration (replacement : Option ReplacementRegistration)
deriving DecidableEq

structure PendingChallenge where
  id : ℕ
  user : ℕ
  authVersion : ℕ
  challenge : AccountChallenge
deriving DecidableEq

inductive Operation where
  | changePassword (current new : String)
  | createRecoveryKey (current : String)
  | passkey (action : PasskeyAction) (password : Option String)
  | authorize (ceremony : ℕ) (credential : ℕ)
  | enroll (ceremony : ℕ) (credential : ℕ)
  | createInvite
  | createRoomInvite (room : ℕ) (uses days : ℕ)
  | revokeInvite (id : ℕ)
  | revokeRoomInvite (room : ℕ) (id : ℕ)
  | revokeSessions (target : Option ℕ)
deriving DecidableEq

inductive Request where
  | register (email : Email) (password : String) (inviteCode : Option ℕ)
  | passkeyRegister (email : Email) (credential : ℕ)
  | login (email : Email) (password : String)
  /-- the password matched the hash that was read with the version -/
  | loginVerified (user : ℕ) (hash : PasswordHash) (version : ℕ)
  | passkeyLogin (user : ℕ) (credential : ℕ)
  | refresh (token : RefreshToken)
  /-- the presented token was found to belong to the account -/
  | rotating (token : RefreshToken) (candidate : ℕ)
  | logout (token : RefreshToken)
  | redeemRecovery (email : Email) (key : ℕ) (password : String)
  | account (token : Claims) (operation : Operation)
  /-- the claims were current when they were checked -/
  | authenticated (claims : Claims) (operation : Operation)
  | passwordVerified (claims : Claims) (operation : Operation) (hash : PasswordHash)
  /-- a pending authentication was taken -/
  | authorized (claims : Claims) (action : PasskeyAction) (credential : ℕ)
  /-- a pending registration was taken -/
  | enrolling (claims : Claims) (replacement : Option ReplacementRegistration)
      (credential : ℕ)
  /-- the statements of a cut have run and the account row is locked -/
  | cutting (user : ℕ) (cut : Cut) (revoked : List ℕ)
  | redeemRoom (code : ℕ)
  | cleanup (batch : List ℕ)
  | retention (batch : List ℕ)
  | deleteRoom (room : ℕ)
deriving DecidableEq

namespace Request

def guards : Request → List ℕ
  | cutting user _ _ => [user]
  | _ => []

def initial : Request → Bool
  | register .. | passkeyRegister .. | login .. | passkeyLogin .. | refresh _
  | logout _ | redeemRecovery .. | account .. | redeemRoom _ | cleanup _
  | retention _ | deleteRoom _ => true
  | _ => false

end Request

/-! ## The server -/

structure AccessToken where
  claims : Claims
  basis : ℕ
deriving DecidableEq

/-- A refresh token that was presented, what came of it, and the instant of the statement
that rotates. -/
structure Presentation where
  token : RefreshToken
  outcome : RefreshRotation
  clock : ℕ
deriving DecidableEq

/-- The tables, with what was issued and presented so far. -/
structure AuthServer where
  db : Database := {}
  challenges : List PendingChallenge := []
  issued : List AccessToken := []
  /-- the next row ID and random value -/
  fresh : ℕ := 0
  /-- the refresh tokens presented so far, latest first -/
  presentations : List Presentation := []
  /-- the recovery keys redeemed so far -/
  redeemed : List ℕ := []
  /-- the accounts admitted by a code, with the code -/
  admissions : List (ℕ × ℕ) := []
  /-- the latest start of a transaction that created a registration code -/
  latestMint : ℕ := 0
deriving DecidableEq

structure Choice where
  proceeds : Bool := true
  verified : Bool := true
  /-- whether the commit that ends a preparation takes effect, and whether the
  ceremony stored before it is kept -/
  applied : Bool := true
  kept : Bool := true
  /-- the other texts that verify against a hash made in this step -/
  spellings : List String := []
  /-- the codes of the room whose issuers could still mint them -/
  authorized : Invite → Bool := fun _ => true
  now : ℕ := 0
  clock : ℕ := 0
  updateClock : ℕ := 0
  familyClock : ℕ := 0

def Choice.timely (ch : Choice) : Bool :=
  ch.now ≤ ch.clock && ch.clock ≤ ch.now + signInLimit

def Choice.ordered (ch : Choice) : Bool :=
  ch.clock ≤ ch.updateClock && ch.clock ≤ ch.familyClock

def Choice.rotation (ch : Choice) : RotationClocks :=
  ⟨ch.clock, ch.updateClock, ch.familyClock⟩

namespace AuthServer

variable (s : AuthServer)

def newSession (ch : Choice) : NewSession :=
  ⟨ch.now, ch.clock, s.fresh, ⟨s.fresh + 1, s.fresh + 2⟩⟩

def newUser : ℕ := s.fresh + 3

def signIn (user : ℕ) (version : ℕ) (db : Database) : AuthServer := { s with
    db := db
    fresh := s.fresh + 5
    issued := ⟨⟨user, version, s.fresh⟩, version⟩ :: s.issued }

def admitted (code : Option ℕ) (db : Database) : AuthServer := { s.signIn s.newUser 0 db with
    admissions := (code.map fun c => (s.newUser, c)).toList ++ s.admissions }

def rotationToken (rotation : RefreshRotation) : Option AccessToken :=
  match rotation with
  | .rotated user session _ =>
    (s.db.user user).bind fun u =>
      (s.db.sessions.find? fun r => r.id = session).map fun r =>
        ⟨⟨user, u.authVersion, session⟩, r.basis⟩
  | _ => none

def present (token : RefreshToken) (rotation : RefreshRotation) (clock : ℕ) (db : Database) :
    AuthServer :=
  { s with
    db := db
    fresh := s.fresh + 1
    issued := (s.rotationToken rotation).toList ++ s.issued
    presentations := ⟨token, rotation, clock⟩ :: s.presentations }

def withDb (db : Database) : AuthServer := { s with db := db }

def write (db : Database) : AuthServer := { s with db := db, fresh := s.fresh + 1 }

def storeChallenge (user : ℕ) (version : ℕ) (challenge : AccountChallenge) : AuthServer := { s with
    challenges := ⟨s.fresh, user, version, challenge⟩ :: s.challenges
    fresh := s.fresh + 1 }

/-- A registration ceremony was prepared: its transaction left `db`. -/
def prepared (claims : Claims) (replacement : Option ReplacementRegistration)
    (db : Database) (kept : Bool) : AuthServer :=
  if kept then
    (s.write db).storeChallenge claims.sub claims.authVersion
    (.registration replacement)
  else s.write db

/-- `take_account`: a ceremony of the account and version, used up. -/
def takeAccount (id : ℕ) (user : ℕ) (version : ℕ) : Option (AccountChallenge × AuthServer) :=
  ((s.challenges.find? fun x => x.id = id).filter fun x =>
    x.user = user && x.authVersion = version).map fun x =>
      (x.challenge, { s with challenges := s.challenges.filter fun y => y.id ≠ id })

def mint (now : ℕ) (db : Database) : AuthServer :=
  { s with db := db, fresh := s.fresh + 2, latestMint := max s.latestMint now }

def commitCut (user : ℕ) (cut : Cut) (revoked : List ℕ) (db : Database) : AuthServer := { s with
    db := db.revokeIssued user revoked
    fresh := s.fresh + 1
    redeemed :=
      match cut with
      | .recovery _ key _ => key :: s.redeemed
      | _ => s.redeemed }

end AuthServer

/-! ## What a request does next -/

abbrev Answer := Outcome AuthServer Request

def done (s : AuthServer) : Option Answer :=
  some ⟨s, none, none⟩

def goOn (s : AuthServer) (k : Request) : Option Answer :=
  some ⟨s, some k, none⟩

def settle {α : Type} (s : AuthServer) (result : Except AuthError α)
    (f : α → AuthServer) : Option Answer :=
  match result with
  | .ok a => done (f a)
  | .error _ => done s

def openCut (s : AuthServer) (user : ℕ) (cut : Cut) : Option Answer :=
  match cut.change user s.fresh s.db with
  | .ok _ => goOn s (.cutting user cut (s.db.issuedInvites user))
  | .error _ => done s

/-- `prepare_registration` and `commit_registration`: the ceremony is stored before
the transaction commits. -/
def prepare (s : AuthServer) (ch : Choice) (claims : Claims) (target : Option ℕ) : Option Answer :=
  match prepareRegistration claims.sub target s.fresh s.db with
  | .error _ => done s
  | .ok (replacement, db) =>
    done (s.prepared claims replacement (if ch.applied then db else s.db) ch.kept)

/-- `apply_action`, with the account row locked and fresh proof of ownership. -/
def applyAction (s : AuthServer) (ch : Choice) (claims : Claims) : PasskeyAction → Option Answer
  | .add => prepare s ch claims none
  | .replace target => prepare s ch claims (some target)
  | .recoveryKey =>
    done (s.write (s.db.updateUser claims.sub fun u =>
      { u with recoveryKeyHash := some (.recoveryKey s.fresh) }))
  | .remove passkey => openCut s claims.sub (.removal claims.authVersion passkey)

def verifyPassword (s : AuthServer) (claims : Claims) (operation : Operation)
    (current : String) : Option Answer :=
  match verifiedPasswordHash claims current s.db with
  | .ok hash => goOn s (.passwordVerified claims operation hash)
  | .error _ => done s

def operate (s : AuthServer) (free : ℕ → Bool) (ch : Choice) (claims : Claims)
    (operation : Operation) : Option Answer :=
  match operation with
  | .changePassword current _ => verifyPassword s claims operation current
  | .createRecoveryKey current => verifyPassword s claims operation current
  | .passkey _ (some current) => verifyPassword s claims operation current
  | .passkey action none =>
    done (s.storeChallenge claims.sub claims.authVersion (.authentication action))
  | .authorize ceremony credential =>
    match s.takeAccount ceremony claims.sub claims.authVersion with
    | some (.authentication action, s') => goOn s' (.authorized claims action credential)
    | some (.registration _, s') => done s'
    | none => done s
  | .enroll ceremony credential =>
    match s.takeAccount ceremony claims.sub claims.authVersion with
    | some (.registration replacement, s') => goOn s' (.enrolling claims replacement credential)
    | some (.authentication _, s') => done s'
    | none => done s
  | .createInvite =>
    settle s (createInvite ch.now claims.sub s.fresh (s.fresh + 1)
      claims.authVersion s.db) (s.mint ch.now)
  | .createRoomInvite room uses days =>
    settle s (createRoomInvite ch.now ch.authorized room uses days claims.sub s.fresh
      (s.fresh + 1) claims.authVersion s.db) (s.mint ch.now)
  | .revokeInvite id =>
    done (s.withDb (s.db.deleteInvites fun i =>
      i.id = id && i.kind = .registration && i.createdBy = claims.sub))
  | .revokeRoomInvite room id =>
    done (s.withDb (s.db.deleteInvites fun i => i.id = id && i.kind = .room room))
  | .revokeSessions target =>
    if free claims.sub then
      settle s (revokeSessions ch.clock claims target s.db) s.withDb
    else none

def operateVerified (s : AuthServer) (ch : Choice) (claims : Claims)
    (operation : Operation) (hash : PasswordHash) : Option Answer :=
  match operation with
  | .changePassword _ new =>
    openCut s claims.sub (.password claims.authVersion hash ⟨new :: ch.spellings, s.fresh⟩)
  | .createRecoveryKey _ => settle s (createRecoveryKey claims hash s.fresh s.db) s.write
  | .passkey action _ =>
    match lockedAccount claims.sub claims.authVersion s.db with
    | .ok owner =>
      if owner.passwordHash = some hash then applyAction s ch claims action
      else done s
    | .error _ => done s
  | _ => none

def serve (cfg : AuthConfig) (s : AuthServer) (free : ℕ → Bool) (ch : Choice) :
    Request → Option Answer
  | .register email password code =>
    if ch.timely then
      settle s (register cfg (s.newSession ch) s.newUser email
          ⟨password :: ch.spellings, s.fresh⟩ code
        s.db) (s.admitted code)
    else none
  | .passkeyRegister email credential =>
    if ch.timely then
      settle s (passkeyRegisterFinish cfg (s.newSession ch) s.newUser email
        (s.fresh + 4) credential s.db) (s.admitted none)
    else none
  | .login email password =>
    match s.db.users.find? fun u => u.email = email with
    | none => done s
    | some u =>
      match u.passwordHash with
      | none => done s
      | some hash =>
        if password ∈ hash.accepted then
          goOn s (.loginVerified u.id hash u.authVersion)
        else done s
  | .loginVerified user hash version =>
    if free user && ch.timely then
      settle s (loginFinish (s.newSession ch) user hash version s.db)
        (s.signIn user version)
    else none
  | .passkeyLogin user credential =>
    if free user && ch.timely then
      settle s (passkeyLoginFinish (s.newSession ch) user credential ch.verified s.db)
        fun x => s.signIn user x.1 x.2
    else none
  | .refresh token =>
    match candidateUser ch.clock token s.db with
    | none => done s
    | some user => goOn s (.rotating token user)
  | .rotating token user =>
    if free user && ch.ordered then
      settle s (rotateRefreshTokenWith ch.rotation s.fresh token user s.db)
        fun x => s.present token x.1 ch.updateClock x.2
    else none
  | .logout token => done (s.withDb (deleteSessionByToken token s.db))
  | .redeemRecovery email key password =>
    match s.db.recoverable email key with
    | none => done s
    | some u =>
      if free u.id then
        openCut s u.id (.recovery email key ⟨password :: ch.spellings, s.fresh⟩)
      else none
  | .account token operation =>
    if (s.issued.any fun x => x.claims = token) &&
        validateCurrentClaims ch.clock token s.db then
      goOn s (.authenticated token operation)
    else done s
  | .authenticated claims operation => operate s free ch claims operation
  | .passwordVerified claims operation hash =>
    if free claims.sub then operateVerified s ch claims operation hash else none
  | .authorized claims action credential =>
    if free claims.sub then
      match lockedAccount claims.sub claims.authVersion s.db with
      | .ok _ =>
        if s.db.hasPasskey claims.sub credential && ch.verified then
          applyAction s ch claims action
        else done s
      | .error _ => done s
    else none
  | .enrolling claims replacement credential =>
    if free claims.sub then
      if ch.verified then
        match replacement with
        | some data => openCut s claims.sub (.replacement claims.authVersion data credential)
        | none =>
          settle s (addPasskey claims.sub claims.authVersion s.fresh credential s.db)
            s.write
      else done s
    else none
  | .cutting user cut revoked =>
    settle s (cut.change user s.fresh s.db) (s.commitCut user cut revoked)
  | .redeemRoom code =>
    match redeemRoomInvite ch.clock code s.db with
    | some db => done (s.withDb db)
    | none => done s
  | .cleanup batch => done (s.withDb (cleanupExpired ch.now batch s.db))
  | .retention batch =>
    done (s.withDb (s.db.deleteInvites fun i =>
      i.expiresAt + inviteReceiptRetentionDays * day < ch.now && batch.contains i.id))
  | .deleteRoom room => done (s.withDb (s.db.deleteInvites fun i => i.kind = .room room))

def Request.registers : Request → Bool
  | .register _ _ _ | .passkeyRegister _ _ => true
  | _ => false

def act (cfg : AuthConfig) (s : AuthServer) (free : ℕ → Bool) (k : Request)
    (ch : Choice) : Option Answer :=
  if ch.proceeds then serve cfg s free ch k else done s

/-! ## Every step of a request -/

inductive Serves (cfg : AuthConfig) (s : AuthServer) (free : ℕ → Bool)
    (ch : Choice) : Request → AuthServer → Option Request → Prop
  | stays {k : Request} (next : Option Request) (hnext : ∀ k' ∈ next, k'.guards = []) :
      Serves cfg s free ch k s next
  | registered {email : Email} {password : String} {code : Option ℕ}
      {db : Database} (htimely : ch.timely = true)
      (h : register cfg (s.newSession ch) s.newUser email ⟨password :: ch.spellings, s.fresh⟩
        code s.db = .ok db) :
      Serves cfg s free ch (.register email password code) (s.admitted code db) none
  | passkeyRegistered {email : Email} {credential : ℕ} {db : Database}
      (htimely : ch.timely = true)
      (h : passkeyRegisterFinish cfg (s.newSession ch) s.newUser email (s.fresh + 4)
        credential s.db = .ok db) :
      Serves cfg s free ch (.passkeyRegister email credential) (s.admitted none db) none
  | loggedIn {user : ℕ} {hash : PasswordHash} {version : ℕ} {db : Database}
      (hfree : free user = true) (htimely : ch.timely = true)
      (h : loginFinish (s.newSession ch) user hash version s.db = .ok db) :
      Serves cfg s free ch (.loginVerified user hash version) (s.signIn user version db)
        none
  | passkeyLoggedIn {user : ℕ} {credential : ℕ} {version : ℕ}
      {db : Database} (hfree : free user = true) (htimely : ch.timely = true)
      (h : passkeyLoginFinish (s.newSession ch) user credential ch.verified s.db =
        .ok (version, db)) :
      Serves cfg s free ch (.passkeyLogin user credential) (s.signIn user version db) none
  | presented {token : RefreshToken} {user : ℕ} {rotation : RefreshRotation}
      {db : Database} (hfree : free user = true) (hordered : ch.ordered = true)
      (h : rotateRefreshTokenWith ch.rotation s.fresh token user s.db = .ok (rotation, db)) :
      Serves cfg s free ch (.rotating token user) (s.present token rotation ch.updateClock db)
        none
  | sessionsDeleted {k : Request} (p : Session → Bool) :
      Serves cfg s free ch k (s.withDb (s.db.deleteSessions p)) none
  | invitesDeleted {k : Request} (p : Invite → Bool) :
      Serves cfg s free ch k (s.withDb (s.db.deleteInvites p)) none
  | roomRedeemed {code : ℕ} {db : Database}
      (h : redeemRoomInvite ch.clock code s.db = some db) :
      Serves cfg s free ch (.redeemRoom code) (s.withDb db) none
  | opened {k : Request} {user : ℕ} {cut : Cut} {db : Database}
      (hk : k.guards = []) (hfree : free user = true)
      (h : cut.change user s.fresh s.db = .ok db) :
      Serves cfg s free ch k s (some (.cutting user cut (s.db.issuedInvites user)))
  | committed {user : ℕ} {cut : Cut} {revoked : List ℕ} {db : Database}
      (h : cut.change user s.fresh s.db = .ok db) :
      Serves cfg s free ch (.cutting user cut revoked) (s.commitCut user cut revoked db)
        none
  | recoveryKeyCreated {k : Request} {user : ℕ} (hfree : free user = true) : Serves cfg s free ch k
        (s.write (s.db.updateUser user fun u =>
          { u with recoveryKeyHash := some (.recoveryKey s.fresh) })) none
  | challengeStored {k : Request} (user : ℕ) (version : ℕ)
      (challenge : AccountChallenge) :
      Serves cfg s free ch k (s.storeChallenge user version challenge) none
  | challengeTaken {k : Request} (challenges : List PendingChallenge)
      (next : Option Request) (hnext : ∀ k' ∈ next, k'.guards = []) :
      Serves cfg s free ch k { s with challenges := challenges } next
  | prepared {k : Request} {claims : Claims} {target : Option ℕ}
      {replacement : Option ReplacementRegistration} {db : Database}
      (hfree : free claims.sub = true)
      (h : prepareRegistration claims.sub target s.fresh s.db = .ok (replacement, db)) :
      Serves cfg s free ch k
        (s.prepared claims replacement (if ch.applied then db else s.db) ch.kept) none
  | passkeyAdded {claims : Claims} {credential : ℕ} {db : Database}
      (hfree : free claims.sub = true)
      (h : addPasskey claims.sub claims.authVersion s.fresh credential s.db = .ok db) :
      Serves cfg s free ch (.enrolling claims none credential) (s.write db) none
  | minted {claims : Claims} {db : Database}
      (h : createInvite ch.now claims.sub s.fresh (s.fresh + 1) claims.authVersion s.db = .ok db) :
      Serves cfg s free ch (.authenticated claims .createInvite) (s.mint ch.now db) none
  | roomMinted {claims : Claims} {room : ℕ} {uses days : ℕ} {db : Database}
      (h : createRoomInvite ch.now ch.authorized room uses days claims.sub s.fresh
        (s.fresh + 1) claims.authVersion s.db = .ok db) :
      Serves cfg s free ch (.authenticated claims (.createRoomInvite room uses days))
        (s.mint ch.now db) none

section Inversion

variable {cfg : AuthConfig} {s : AuthServer} {free : ℕ → Bool} {ch : Choice}
  {k : Request} {o : Answer}

/-- The outcome of a step is one that `Serves` lists. -/
def Served (cfg : AuthConfig) (s : AuthServer) (free : ℕ → Bool) (ch : Choice)
    (k : Request) (o : Answer) : Prop :=
  o.spawned = none ∧ Serves cfg s free ch k o.shared o.self

variable {s' : AuthServer}

theorem done_served (hs : Serves cfg s free ch k s' none)
    (h : done s' = some o) : Served cfg s free ch k o := by
  cases h
  exact ⟨rfl, hs⟩

theorem refused_served (h : done s = some o) : Served cfg s free ch k o :=
  done_served (.stays none (by simp)) h

theorem goOn_served {k' : Request} (hk' : k'.guards = []) (h : goOn s k' = some o) :
    Served cfg s free ch k o := by
  cases h
  refine ⟨rfl, .stays (some k') ?_⟩
  rintro k'' hk''
  cases hk''
  exact hk'

theorem settle_served {α : Type} {result : Except AuthError α} {f : α → AuthServer}
    (hs : ∀ a, result = .ok a → Serves cfg s free ch k (f a) none)
    (h : settle s result f = some o) : Served cfg s free ch k o := by
  unfold settle at h
  split at h
  · rename_i a
    exact done_served (hs a rfl) h
  · exact refused_served h

variable {user : ℕ}

theorem openCut_served {cut : Cut} (hk : k.guards = [])
    (hfree : free user = true) (h : openCut s user cut = some o) :
    Served cfg s free ch k o := by
  unfold openCut at h
  split at h
  · rename_i hchange
    cases h
    exact ⟨rfl, .opened hk hfree hchange⟩
  · exact refused_served h

variable {claims : Claims}

theorem prepare_served {target : Option ℕ}
    (hfree : free claims.sub = true) (h : prepare s ch claims target = some o) :
    Served cfg s free ch k o := by
  unfold prepare at h
  split at h
  · exact refused_served h
  · rename_i hprepare
    exact done_served (.prepared hfree hprepare) h

theorem applyAction_served {action : PasskeyAction}
    (hk : k.guards = []) (hfree : free claims.sub = true)
    (h : applyAction s ch claims action = some o) : Served cfg s free ch k o := by
  cases action with
  | add | replace => exact prepare_served hfree h
  | recoveryKey => exact done_served (.recoveryKeyCreated hfree) h
  | remove => exact openCut_served hk hfree h

variable {operation : Operation}

theorem verifyPassword_served
    {current : String} (h : verifyPassword s claims operation current = some o) :
    Served cfg s free ch k o := by
  unfold verifyPassword at h
  split at h
  · exact goOn_served rfl h
  · exact refused_served h

theorem takeAccount_eq_some {id : ℕ} {version : ℕ} {challenge : AccountChallenge}
    (h : s.takeAccount id user version = some (challenge, s')) :
    ∃ challenges, s' = { s with challenges := challenges } := by
  obtain ⟨x, -, heq⟩ := map_eq_some_iff.mp h
  cases heq
  exact ⟨_, rfl⟩

theorem taken_served {id : ℕ} {version : ℕ} {challenge : AccountChallenge} {next : Option Request}
    (htake : s.takeAccount id user version = some (challenge, s'))
    (hnext : ∀ k' ∈ next, k'.guards = []) (h : some ⟨s', next, none⟩ = some o) :
    Served cfg s free ch k o := by
  obtain ⟨challenges, rfl⟩ := takeAccount_eq_some htake
  cases h
  exact ⟨rfl, .challengeTaken challenges next hnext⟩

theorem operate_served (h : operate s free ch claims operation = some o) :
    Served cfg s free ch (.authenticated claims operation) o := by
  unfold operate at h
  split at h
  · exact verifyPassword_served h
  · exact verifyPassword_served h
  · exact verifyPassword_served h
  · exact done_served (.challengeStored _ _ _) h
  · split at h
    · rename_i action s' htake
      exact taken_served htake (by simp [Request.guards]) h
    · rename_i replacement s' htake
      exact taken_served htake (by simp) h
    · exact refused_served h
  · split at h
    · rename_i s' htake
      exact taken_served htake (by simp [Request.guards]) h
    · rename_i htake
      exact taken_served htake (by simp) h
    · exact refused_served h
  · exact settle_served (fun db hdb => .minted hdb) h
  · exact settle_served (fun db hdb => .roomMinted hdb) h
  · exact done_served (.invitesDeleted _) h
  · exact done_served (.invitesDeleted _) h
  · rename_i target
    split at h
    · refine settle_served (fun db hdb => ?_) h
      unfold revokeSessions at hdb
      split at hdb
      · split at hdb
        · cases hdb
          exact .sessionsDeleted _
        · cases hdb
          exact .sessionsDeleted _
      · cases hdb
    · cases h

theorem operateVerified_served
    {hash : PasswordHash} (hk : k.guards = []) (hfree : free claims.sub = true)
    (h : operateVerified s ch claims operation hash = some o) :
    Served cfg s free ch k o := by
  unfold operateVerified at h
  split at h
  · exact openCut_served hk hfree h
  · refine settle_served (fun db hdb => ?_) h
    unfold createRecoveryKey at hdb
    split at hdb
    · cases hdb
      exact .recoveryKeyCreated hfree
    · cases hdb
  · split at h
    · split at h
      · exact applyAction_served hk hfree h
      · exact refused_served h
    · exact refused_served h
  · cases h

theorem and_free {p q : Bool} (h : (p && q) = true) : p = true ∧ q = true := by simpa using h

theorem serve_served (h : serve cfg s free ch k = some o) : Served cfg s free ch k o := by
  cases k with
  | register =>
    obtain ⟨htimely, h⟩ := ite_none_right_eq_some.mp h
    exact settle_served (fun db hdb => .registered htimely hdb) h
  | passkeyRegister =>
    obtain ⟨htimely, h⟩ := ite_none_right_eq_some.mp h
    exact settle_served (fun db hdb => .passkeyRegistered htimely hdb) h
  | login =>
    simp only [serve] at h
    split at h
    · exact refused_served h
    split at h
    · exact refused_served h
    split at h
    · exact goOn_served rfl h
    · exact refused_served h
  | loginVerified =>
    obtain ⟨hwait, h⟩ := ite_none_right_eq_some.mp h
    obtain ⟨hfree, htimely⟩ := and_free hwait
    exact settle_served (fun db hdb => .loggedIn hfree htimely hdb) h
  | passkeyLogin =>
    obtain ⟨hwait, h⟩ := ite_none_right_eq_some.mp h
    obtain ⟨hfree, htimely⟩ := and_free hwait
    exact settle_served (fun x hx => .passkeyLoggedIn hfree htimely hx) h
  | refresh =>
    simp only [serve] at h
    split at h
    · exact refused_served h
    · exact goOn_served rfl h
  | rotating =>
    obtain ⟨hwait, h⟩ := ite_none_right_eq_some.mp h
    obtain ⟨hfree, hordered⟩ := and_free hwait
    exact settle_served (fun x hx => .presented hfree hordered hx) h
  | logout | cleanup => exact done_served (.sessionsDeleted _) h
  | redeemRecovery =>
    simp only [serve] at h
    split at h
    · exact refused_served h
    · obtain ⟨hfree, h⟩ := ite_none_right_eq_some.mp h
      exact openCut_served rfl hfree h
  | account =>
    simp only [serve] at h
    split at h
    · exact goOn_served rfl h
    · exact refused_served h
  | authenticated => exact operate_served h
  | passwordVerified =>
    obtain ⟨hfree, h⟩ := ite_none_right_eq_some.mp h
    exact operateVerified_served rfl hfree h
  | authorized =>
    obtain ⟨hfree, h⟩ := ite_none_right_eq_some.mp h
    split at h
    · split at h
      · exact applyAction_served rfl hfree h
      · exact refused_served h
    · exact refused_served h
  | enrolling claims replacement =>
    obtain ⟨hfree, h⟩ := ite_none_right_eq_some.mp h
    split at h
    · cases replacement with
      | some => exact openCut_served rfl hfree h
      | none => exact settle_served (fun db hdb => .passkeyAdded hfree hdb) h
    · exact refused_served h
  | cutting => exact settle_served (fun db hdb => .committed hdb) h
  | redeemRoom code =>
    simp only [serve] at h
    split at h
    · rename_i hredeem
      exact done_served (.roomRedeemed hredeem) h
    · exact refused_served h
  | retention | deleteRoom => exact done_served (.invitesDeleted _) h

theorem act_served (h : act cfg s free k ch = some o) : Served cfg s free ch k o := by
  unfold act at h
  split at h
  · exact serve_served h
  · exact refused_served h

end Inversion

/-! ## The protocol -/

/-- The requests on the account tables, as tasks that lock account rows. -/
def accounts (cfg : AuthConfig) : Protocol AuthServer Request ℕ Choice where
  guards := Request.guards
  initial := Request.initial
  act := act cfg
  guards_initial := by
    intro k hk
    cases k <;> first | rfl | cases hk
  guards_spawned := by
    intro s free k ch o k' h hspawned
    rw [(act_served h).1] at hspawned
    cases hspawned

abbrev AuthState := Config AuthServer Request ℕ

abbrev AuthAction := Action Request Choice

def begin (s : AuthServer) : AuthState where
  shared := s
  task := fun _ => none
  owner := fun _ => none
  next := 0

theorem begin_coherent (cfg : AuthConfig) (s : AuthServer) : (accounts cfg).Coherent (begin s) where
  owner_iff := by simp [begin]
  fresh := by simp [begin]

theorem run_served {cfg : AuthConfig} {P : AuthServer → Prop}
    (hstep : ∀ s free ch k s' next, P s → Serves cfg s free ch k s' next → P s')
    {actions : List AuthAction} {c d : AuthState} (hc : P c.shared)
    (hrun : Transition.run (accounts cfg).step c actions = some d) : P d.shared := by
  have hkept : ∀ (c : AuthState) (a : AuthAction) (d : AuthState),
      P c.shared → (accounts cfg).step c a = some d → P d.shared := by
    intro c a d hc h
    cases a with
    | start =>
      obtain ⟨-, rfl⟩ := (accounts cfg).step_start_eq_some.mp h
      exact hc
    | advance =>
      obtain ⟨k, o, ha, rfl⟩ := (accounts cfg).step_advance_eq_some.mp h
      exact hstep _ _ _ _ _ _ hc (act_served ha.acted).2
  exact Transition.run_kept hkept hc hrun

/-! ## Requests one after another -/

/-- One request, taken to its end in `n` steps under the same clocks. -/
def request (t : ℕ) (k : Request) (n : ℕ) (ch : Choice) : List AuthAction :=
  .start k :: List.replicate n (.advance t ch)

def atInstant (clock : ℕ) : Choice :=
  { now := clock, clock := clock, updateClock := clock, familyClock := clock }

def openRegistration : AuthConfig := ⟨true, 100⟩

end SimplestChat.Accounts
