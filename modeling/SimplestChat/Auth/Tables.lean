import SimplestChat.Auth.Requests

/-!
# What a step does to each table

A request changes the tables in few ways. For each table there is one relation that
lists them, and every step of every request is one of its cases. The invariants of
the following modules are kept case by case, not request by request.

The second part is about keys: row IDs and random values are handed out in order, so
no two rows of a table agree in one.
-/

namespace SimplestChat.Accounts

open List Rows

variable {cfg : AuthConfig} {s s' : AuthServer} {free : ℕ → Bool} {ch : Choice}
  {k : Request} {next : Option Request}

/-! ## Accounts -/

def User.withRecoveryKey (u : User) (key : ℕ) : User :=
  { u with recoveryKeyHash := some (.recoveryKey key) }

theorem User.withRecoveryKey_id (key : ℕ) (u : User) : (u.withRecoveryKey key).id = u.id := rfl

inductive UsersStep (cfg : AuthConfig) (s s' : AuthServer) (k : Request) : Prop
  | same (h : s'.db.users = s.db.users)
  | inserted {u : User} (h : s'.db.users = s.db.users ++ [u]) (hid : u.id = s.newUser)
      (hversion : u.authVersion = 0) (hrecovery : u.recoveryKeyHash = none)
      (hcapacity : s.db.users.length < cfg.maxUsers) (hk : k.registers = true)
      (hfresh : s'.fresh = s.fresh + 5)
  | recoveryKey {user : ℕ}
      (h : s'.db.users = update (fun u => u.id = user)
        (fun u => u.withRecoveryKey s.fresh) s.db.users)
      (hfresh : s.fresh < s'.fresh)
  | cut {user : ℕ} {cut : Cut} {revoked : List ℕ} {f : User → User}
      {u : User} (hk : k = .cutting user cut revoked)
      (h : s'.db.users = update (fun u => u.id = user) f s.db.users)
      (hkeeps : KeepsAccount f) (hu : s.db.user user = some u)
      (hversion : (f u).authVersion = u.authVersion + 1)
      (hcommitted : ∃ db, cut.change user s.fresh s.db = .ok db ∧
        s' = s.commitCut user cut revoked db)

variable {new : NewSession} {id : ℕ} {email : Email} {hash : PasswordHash}
  {code : Option ℕ} {db db' : Database}

/-- What a registration adds: the account, its passkey if it has one, and a session of its
first version. -/
structure Admits (new : NewSession) (u : User) (passkeys : List Passkey)
    (db db' : Database) : Prop where
  users : db'.users = db.users ++ [u]
  passkeys : db'.passkeys = db.passkeys ++ passkeys
  sessions : db'.sessions = trimSessions new.now u.id new.id (new.row u.id 0 :: db.sessions)
  unused : ∀ v ∈ db.users, v.id ≠ u.id

theorem Admits.user {u : User} {passkeys : List Passkey}
    (h : Admits new u passkeys db db') : db'.user u.id = some u := by
  unfold Database.user
  rw [h.users, List.find?_append, List.find?_eq_none.mpr (by simpa using h.unused)]
  simp

theorem register_admits (h : register cfg new id email hash code db = .ok db') :
    ∃ inviter, Admits new ⟨id, email, some hash, none, 0, inviter⟩ [] db db' := by
  obtain ⟨-, -, inviter, db₁, db₂, hspend, hinsert, hcreate⟩ := register_eq_ok h
  obtain ⟨hunused, rfl⟩ := insertUser_eq_ok.mp hinsert
  obtain ⟨-, rfl⟩ := createSessionWith_eq_ok.mp hcreate
  rcases spendInviteCode_eq_ok hspend with ⟨-, rfl⟩ | ⟨c, -, -, rfl⟩
  · exact ⟨inviter, rfl, (append_nil _).symm, rfl, fun v hv => (hunused v hv).2⟩
  · exact ⟨inviter, rfl, (append_nil _).symm, rfl, fun v hv => (hunused v hv).2⟩

variable {record credential : ℕ}

theorem passkeyRegisterFinish_admits
    (h : passkeyRegisterFinish cfg new id email record credential db = .ok db') :
    Admits new ⟨id, email, none, none, 0, none⟩ [⟨record, id, credential⟩] db db' := by
  obtain ⟨-, -, db₁, db₂, hinsert, hpasskey, hcreate⟩ := passkeyRegisterFinish_eq_ok h
  obtain ⟨hunused, rfl⟩ := insertUser_eq_ok.mp hinsert
  obtain ⟨-, rfl⟩ := insertPasskey_eq_ok.mp hpasskey
  obtain ⟨-, rfl⟩ := createSessionWith_eq_ok.mp hcreate
  exact ⟨rfl, rfl, rfl, fun v hv => (hunused v hv).2⟩

variable {user : ℕ}

theorem createSessionWith_users {basis : ℕ} (h : createSessionWith new user basis db = .ok db') :
    db'.users = db.users ∧ db'.passkeys = db.passkeys ∧ db'.invites = db.invites := by
  obtain ⟨-, rfl⟩ := createSessionWith_eq_ok.mp h
  exact ⟨rfl, rfl, rfl⟩

theorem Rotates.frame {t : RotationClocks} {generation : ℕ} {token : RefreshToken}
    {rotation : RefreshRotation} (h : Rotates t generation token user db rotation db') :
    db'.users = db.users ∧ db'.passkeys = db.passkeys ∧ db'.invites = db.invites := by
  cases h with
  | rotated | grace | reuse => exact ⟨rfl, rfl, rfl⟩

variable {claims : Claims} {replacement : Option ReplacementRegistration} {kept : Bool}

@[simp] theorem prepared_db : (s.prepared claims replacement db kept).db = db := by
  unfold AuthServer.prepared
  split <;> rfl

theorem fresh_lt_prepared : s.fresh < (s.prepared claims replacement db kept).fresh := by
  unfold AuthServer.prepared
  split
  · exact Nat.lt_add_of_pos_right Nat.two_pos
  · exact Nat.lt_succ_self _

theorem preparation_db {target : Option ℕ}
    (h : prepareRegistration user target s.fresh s.db = .ok (replacement, db)) :
    (if ch.applied then db else s.db) = s.db ∨ (if ch.applied then db else s.db) =
        s.db.updateUser user fun u => u.withRecoveryKey s.fresh := by
  split
  · exact prepareRegistration_eq_ok h
  · exact .inl rfl

theorem Serves.users (h : Serves cfg s free ch k s' next) : UsersStep cfg s s' k := by
  cases h with
  | registered _ h =>
    obtain ⟨inviter, hadmits⟩ := register_admits h
    exact .inserted hadmits.users rfl rfl rfl (register_eq_ok h).2.1 rfl rfl
  | passkeyRegistered _ h =>
    exact .inserted (passkeyRegisterFinish_admits h).users rfl rfl rfl
      (passkeyRegisterFinish_eq_ok h).2.1 rfl rfl
  | loggedIn _ _ h => exact .same (createSessionWith_users (loginFinish_eq_ok h).2).1
  | passkeyLoggedIn _ _ h => exact .same (createSessionWith_users (passkeyLoginFinish_eq_ok h).2).1
  | presented _ _ h => exact .same (rotateRefreshTokenWith_eq_ok h).2.frame.1
  | roomRedeemed h =>
    obtain ⟨-, rfl⟩ := redeemRoomInvite_eq_some h
    exact .same rfl
  | committed h =>
    obtain ⟨f, u, hkeeps, hu, hversion, husers⟩ := Cut.change_users h
    exact .cut rfl husers hkeeps hu hversion ⟨_, h, rfl⟩
  | recoveryKeyCreated => exact .recoveryKey rfl (Nat.lt_succ_self _)
  | @prepared _ claims _ _ _ _ h =>
    rcases preparation_db h with hdb | hdb
    · exact .same (by rw [prepared_db, hdb])
    refine @UsersStep.recoveryKey cfg s _ k claims.sub ?_ fresh_lt_prepared
    rw [prepared_db, hdb]
    rfl
  | passkeyAdded _ h =>
    obtain ⟨-, -, hinsert⟩ := addPasskey_eq_ok h
    obtain ⟨-, rfl⟩ := insertPasskey_eq_ok.mp hinsert
    exact .same rfl
  | minted h =>
    obtain ⟨-, -, rfl⟩ := createInvite_eq_ok h
    exact .same rfl
  | roomMinted h =>
    obtain ⟨-, rfl⟩ := createRoomInvite_eq_ok h
    exact .same rfl
  | _ => exact .same rfl

theorem Serves.fresh_le (h : Serves cfg s free ch k s' next) : s.fresh ≤ s'.fresh := by
  cases h with
  | prepared => exact Nat.le_of_lt fresh_lt_prepared
  | _ => first | exact Nat.le_refl _ | exact Nat.le_add_right _ _

/-! ## Sessions -/

inductive SessionsStep (s s' : AuthServer) (ch : Choice) (k : Request) : Prop
  | deleted (p : Session → Bool) (h : s'.db.sessions = s.db.sessions.filter p)
      (hpresentations : s'.presentations = s.presentations)
  | created {user : ℕ} {u : User} (htimely : ch.timely = true)
      (h : s'.db.sessions = trimSessions ch.now user s.fresh
        ((s.newSession ch).row user u.authVersion :: s.db.sessions))
      (hu : s'.db.user user = some u) (hfresh : s'.fresh = s.fresh + 5)
      (hpresentations : s'.presentations = s.presentations)
  | presented {token : RefreshToken} {user : ℕ} {rotation : RefreshRotation}
      {db : Database} (hk : k = .rotating token user)
      (h : Rotates ch.rotation s.fresh token user s.db rotation db)
      (hs' : s' = s.present token rotation ch.updateClock db)

theorem SessionsStep.same (h : s'.db.sessions = s.db.sessions)
    (hpresentations : s'.presentations = s.presentations) : SessionsStep s s' ch k :=
  .deleted (fun _ => true) (by simp [h]) hpresentations

theorem SessionsStep.signIn {version : ℕ} (htimely : ch.timely = true)
    (hu : ∃ u, s.db.user user = some u ∧ u.authVersion = version)
    (h : createSessionWith (s.newSession ch) user version s.db = .ok db) :
    SessionsStep s (s.signIn user version db) ch k := by
  obtain ⟨u, hu, rfl⟩ := hu
  obtain ⟨-, rfl⟩ := createSessionWith_eq_ok.mp h
  exact .created htimely rfl hu rfl rfl

@[simp] theorem prepared_presentations :
    (s.prepared claims replacement db kept).presentations = s.presentations := by
  unfold AuthServer.prepared
  split <;> rfl

theorem Serves.sessions (h : Serves cfg s free ch k s' next) : SessionsStep s s' ch k := by
  cases h with
  | registered htimely h =>
    obtain ⟨inviter, hadmits⟩ := register_admits h
    refine .created htimely ?_ hadmits.user rfl rfl
    exact hadmits.sessions
  | passkeyRegistered htimely h =>
    have hadmits := passkeyRegisterFinish_admits h
    refine .created htimely ?_ hadmits.user rfl rfl
    exact hadmits.sessions
  | loggedIn _ htimely h =>
    obtain ⟨hu, hcreate⟩ := loginFinish_eq_ok h
    exact .signIn htimely hu hcreate
  | passkeyLoggedIn _ htimely h =>
    obtain ⟨hu, hcreate⟩ := passkeyLoginFinish_eq_ok h
    exact .signIn htimely hu hcreate
  | presented _ _ h => exact .presented rfl (rotateRefreshTokenWith_eq_ok h).2 rfl
  | sessionsDeleted p => exact .deleted (fun r => !p r) rfl rfl
  | roomRedeemed h =>
    obtain ⟨-, rfl⟩ := redeemRoomInvite_eq_some h
    exact .same rfl rfl
  | @committed user _ _ _ h =>
    refine .deleted (fun r => !(r.userId = user : Bool)) ?_ rfl
    rw [← (Cut.change_frame h).1]
    rfl
  | prepared _ h =>
    refine .same ?_ prepared_presentations
    rcases preparation_db h with hdb | hdb
    · rw [prepared_db, hdb]
    · rw [prepared_db, hdb]
      rfl
  | passkeyAdded _ h =>
    obtain ⟨-, -, hinsert⟩ := addPasskey_eq_ok h
    obtain ⟨-, rfl⟩ := insertPasskey_eq_ok.mp hinsert
    exact .same rfl rfl
  | minted h =>
    obtain ⟨-, -, rfl⟩ := createInvite_eq_ok h
    exact .same rfl rfl
  | roomMinted h =>
    obtain ⟨-, rfl⟩ := createRoomInvite_eq_ok h
    exact .same rfl rfl
  | _ => exact .same rfl rfl

/-! ## Invitations -/

inductive InvitesStep (s s' : AuthServer) (ch : Choice) (k : Request) : Prop
  | deleted (p : Invite → Bool) (h : s'.db.invites = s.db.invites.filter p)
      (hadmissions : s'.admissions = s.admissions)
      (hmint : s'.latestMint = s.latestMint)
  | admitted {email : Email} {password : String} {code : ℕ}
      (hk : k = .register email password (some code))
      (hopen : ∃ i ∈ s.db.invites, i.opensRegistration ch.now (.inviteCode code) = true)
      (h : s'.db.invites = (s.db.spendCode ch.now code).invites)
      (hadmissions : s'.admissions = (s.newUser, code) :: s.admissions)
      (hmint : s'.latestMint = s.latestMint)
  | redeemed {code : ℕ} (hk : k = .redeemRoom code)
      (hroom : ∃ i ∈ s.db.invites, i.codeHash = .inviteCode code ∧ i.kind ≠ .registration)
      (h : s'.db.invites = update (fun i => i.codeHash = .inviteCode code)
        Invite.spend s.db.invites)
      (hadmissions : s'.admissions = s.admissions)
      (hmint : s'.latestMint = s.latestMint)
  | minted {claims : Claims} {operation : Operation} {i : Invite}
      (hk : k = .authenticated claims operation)
      (hoperation : operation = .createInvite ∨
        ∃ room uses days, operation = .createRoomInvite room uses days)
      (h : s'.db.invites = i :: s.db.invites) (hid : i.id = s.fresh)
      (hcode : i.codeHash = .inviteCode (s.fresh + 1)) (hby : i.createdBy = claims.sub)
      (hbasis : i.basis = claims.authVersion)
      (howner : ∃ u, s.db.user claims.sub = some u)
      (hlive : i.kind = .registration →
        (s.db.invites.countP fun j => j.liveRegistration ch.now claims.sub) <
          maxLiveRegistrationInvites)
      (hfresh : s'.fresh = s.fresh + 2) (hadmissions : s'.admissions = s.admissions)
      (hmint : s'.latestMint = max s.latestMint ch.now)

theorem InvitesStep.same (h : s'.db.invites = s.db.invites)
    (hadmissions : s'.admissions = s.admissions)
    (hmint : s'.latestMint = s.latestMint) :
    InvitesStep s s' ch k :=
  .deleted (fun _ => true) (by simp [h]) hadmissions hmint

@[simp] theorem prepared_admissions :
    (s.prepared claims replacement db kept).admissions = s.admissions ∧
      (s.prepared claims replacement db kept).latestMint = s.latestMint := by
  unfold AuthServer.prepared
  split <;> exact ⟨rfl, rfl⟩

theorem Serves.invites (h : Serves cfg s free ch k s' next) : InvitesStep s s' ch k := by
  cases h with
  | @registered email password code db _ h =>
    obtain ⟨-, -, inviter, db₁, db₂, hspend, hinsert, hcreate⟩ := register_eq_ok h
    obtain ⟨-, rfl⟩ := insertUser_eq_ok.mp hinsert
    obtain ⟨-, rfl⟩ := createSessionWith_eq_ok.mp hcreate
    rcases spendInviteCode_eq_ok hspend with ⟨rfl, rfl⟩ | ⟨c, rfl, hopen, rfl⟩
    · exact .same rfl rfl rfl
    · exact .admitted rfl hopen rfl rfl rfl
  | passkeyRegistered _ h =>
    obtain ⟨-, -, db₁, db₂, hinsert, hpasskey, hcreate⟩ := passkeyRegisterFinish_eq_ok h
    obtain ⟨-, rfl⟩ := insertUser_eq_ok.mp hinsert
    obtain ⟨-, rfl⟩ := insertPasskey_eq_ok.mp hpasskey
    obtain ⟨-, rfl⟩ := createSessionWith_eq_ok.mp hcreate
    exact .same rfl rfl rfl
  | loggedIn _ _ h => exact .same (createSessionWith_users (loginFinish_eq_ok h).2).2.2 rfl rfl
  | passkeyLoggedIn _ _ h =>
    exact .same (createSessionWith_users (passkeyLoginFinish_eq_ok h).2).2.2 rfl rfl
  | presented _ _ h => exact .same (rotateRefreshTokenWith_eq_ok h).2.frame.2.2 rfl rfl
  | invitesDeleted p => exact .deleted (fun i => !p i) rfl rfl rfl
  | roomRedeemed h =>
    obtain ⟨hroom, rfl⟩ := redeemRoomInvite_eq_some h
    exact .redeemed rfl hroom rfl rfl rfl
  | @committed _ _ revoked _ h =>
    refine .deleted (fun i => !revoked.contains i.id) ?_ rfl rfl
    rw [← (Cut.change_frame h).2]
    rfl
  | prepared _ h =>
    refine .same ?_ prepared_admissions.1 prepared_admissions.2
    rcases preparation_db h with hdb | hdb
    · rw [prepared_db, hdb]
    · rw [prepared_db, hdb]
      rfl
  | passkeyAdded _ h =>
    obtain ⟨-, -, hinsert⟩ := addPasskey_eq_ok h
    obtain ⟨-, rfl⟩ := insertPasskey_eq_ok.mp hinsert
    exact .same rfl rfl rfl
  | minted h =>
    obtain ⟨hlive, howner, rfl⟩ := createInvite_eq_ok h
    exact .minted rfl (.inl rfl) rfl rfl rfl rfl rfl howner (fun _ => hlive) rfl rfl rfl
  | @roomMinted _ room uses days _ h =>
    obtain ⟨howner, rfl⟩ := createRoomInvite_eq_ok h
    exact .minted rfl (.inr ⟨room, uses, days, rfl⟩) rfl rfl rfl rfl rfl howner nofun
      rfl rfl rfl
  | _ => exact .same rfl rfl rfl

/-! ## Keys of accounts -/

structure UserKeys (s : AuthServer) : Prop where
  nodup : (s.db.users.map User.id).Nodup
  fresh : ∀ u ∈ s.db.users, u.id < s.fresh

namespace UserKeys

variable {u : User}

theorem unique (h : UserKeys s) {v : User} (hu : u ∈ s.db.users) (hv : v ∈ s.db.users)
    (hid : u.id = v.id) : u = v :=
  eq_of_key h.nodup hu hv hid

theorem eq_of_user (h : UserKeys s) {user : ℕ} {v : User} (hu : s.db.user user = some u)
    (hv : v ∈ s.db.users) (hid : v.id = user) : v = u := by
  obtain ⟨hmem, huser⟩ := mem_of_user hu
  exact h.unique hv hmem (hid.trans huser.symm)

theorem update (h : UserKeys s) {p : User → Bool} {f : User → User}
    (hid : ∀ u, (f u).id = u.id) (husers : s'.db.users = update p f s.db.users)
    (hfresh : s.fresh ≤ s'.fresh) : UserKeys s' where
  nodup := by
    rw [husers, map_update fun u _ _ => hid u]
    exact h.nodup
  fresh := by
    intro u hu
    rw [husers] at hu
    rcases mem_update.mp hu with ⟨v, hv, -, rfl⟩ | ⟨hu, -⟩
    · rw [hid]
      exact Nat.lt_of_lt_of_le (h.fresh v hv) hfresh
    · exact Nat.lt_of_lt_of_le (h.fresh u hu) hfresh

theorem step (h : UserKeys s) (hserves : Serves cfg s free ch k s' next) : UserKeys s' := by
  cases hserves.users with
  | same husers =>
    refine ⟨husers ▸ h.nodup, fun u hu => ?_⟩
    exact Nat.lt_of_lt_of_le (h.fresh u (husers ▸ hu)) hserves.fresh_le
  | @inserted u husers =>
    have hnew : s.newUser = s.fresh + 3 := rfl
    have hold : ∀ v ∈ s.db.users, v.id ≠ u.id := by
      intro v hv
      have := h.fresh v hv
      omega
    refine ⟨husers ▸ nodup_append h.nodup hold, ?_⟩
    intro v hv
    rw [husers, mem_append, mem_singleton] at hv
    rcases hv with hv | rfl
    · have := h.fresh v hv
      omega
    · omega
  | recoveryKey husers hfresh =>
    exact h.update (User.withRecoveryKey_id s.fresh) husers (Nat.le_of_lt hfresh)
  | cut _ husers hkeeps => exact h.update hkeeps.id husers hserves.fresh_le

end UserKeys

theorem Serves.user_ids (h : Serves cfg s free ch k s' next)
    (hid : id ∈ s.db.users.map User.id) : id ∈ s'.db.users.map User.id := by
  cases h.users with
  | same husers => rwa [husers]
  | inserted husers =>
    rw [husers, map_append]
    exact mem_append_left _ hid
  | recoveryKey husers =>
    rw [husers, map_update fun u _ _ => User.withRecoveryKey_id s.fresh u]
    exact hid
  | cut _ husers hkeeps =>
    rw [husers, map_update fun u _ _ => hkeeps.id u]
    exact hid

end SimplestChat.Accounts
