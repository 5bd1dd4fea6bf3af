import SimplestChat.Auth.Accounts

/-!
# What a committed transaction has done

One lemma for each transaction on the account tables: if it returns tables, then the
checks it made were passed and the tables are these. The proofs about whole runs use
these lemmas and never look into a transaction.
-/

namespace SimplestChat.Accounts

open List Option Rows

variable {db db' : Database} {user : ℕ}

/-! ## Registration and sign-in -/

variable {u : User}

theorem mem_of_user (h : db.user user = some u) : u ∈ db.users ∧ u.id = user := by
  refine ⟨mem_of_find?_eq_some h, ?_⟩
  simpa using find?_some h

variable {new : NewSession} {basis : ℕ}

theorem createSessionWith_eq_ok : createSessionWith new user basis db = .ok db' ↔
      (db.user user).isSome = true ∧ db' = { db with
          sessions := trimSessions new.now user new.id
            (new.row user basis :: db.sessions) } := by
  unfold createSessionWith
  by_cases h : (db.user user).isSome = true
  · simp [h, eq_comm]
  · simp [h]

theorem enforceUserCapacity_eq_ok {maxUsers : ℕ} {u : Unit} :
    enforceUserCapacity maxUsers db = .ok u ↔ db.users.length < maxUsers := by
  unfold enforceUserCapacity
  rw [length_take]
  split
  all_goals
    simp
    omega

theorem insertUser_eq_ok : insertUser u db = .ok db' ↔
      (∀ v ∈ db.users, v.email ≠ u.email ∧ v.id ≠ u.id) ∧
        db' = { db with users := db.users ++ [u] } := by
  unfold insertUser
  split
  · rename_i h
    simp only [List.any_eq_true, Bool.or_eq_true, decide_eq_true_eq] at h
    obtain ⟨v, hv, h⟩ := h
    simp only [reduceCtorEq, false_iff, not_and]
    intro hall
    exact absurd h (not_or.mpr (hall v hv))
  · rename_i h
    simp only [List.any_eq_true, Bool.or_eq_true, decide_eq_true_eq, not_exists, not_and,
      not_or] at h
    simp only [Except.ok.injEq, eq_comm (b := db'), and_iff_right h]

theorem insertPasskey_eq_ok {p : Passkey} : insertPasskey p db = .ok db' ↔
      (∀ q ∈ db.passkeys, q.credentialId ≠ p.credentialId) ∧
        db' = { db with passkeys := db.passkeys ++ [p] } := by
  unfold insertPasskey
  split
  · rename_i h
    simp only [List.any_eq_true, decide_eq_true_eq] at h
    obtain ⟨q, hq, h⟩ := h
    simp only [reduceCtorEq, false_iff, not_and]
    intro hall
    exact absurd h (hall q hq)
  · rename_i h
    simp only [List.any_eq_true, decide_eq_true_eq, not_exists, not_and] at h
    simp only [Except.ok.injEq, eq_comm (b := db'), and_iff_right h]

variable {now : ℕ}

theorem spendInviteCode_eq_ok {code : Option ℕ} {inviter : Option ℕ}
    (h : spendInviteCode now code db = .ok (inviter, db')) :
    code = none ∧ db' = db ∨ ∃ c, code = some c ∧
        (∃ i ∈ db.invites, i.opensRegistration now (.inviteCode c) = true) ∧
        db' = db.spendCode now c := by
  unfold spendInviteCode at h
  split at h
  · cases h
    exact .inl ⟨rfl, rfl⟩
  rename_i c
  split at h
  · rename_i hconsume
    cases h
    obtain ⟨i, hi, heq⟩ := map_eq_some_iff.mp hconsume
    cases heq
    have hopens := find?_some hi
    exact .inr ⟨c, rfl, ⟨i, mem_of_find?_eq_some hi, hopens⟩, rfl⟩
  · cases h

variable {id : ℕ} {email : Email}

theorem register_eq_ok {cfg : AuthConfig} {hash : PasswordHash} {code : Option ℕ}
    (h : register cfg new id email hash code db = .ok db') :
    (cfg.registrationEnabled = true ∨ code ≠ none) ∧ db.users.length < cfg.maxUsers ∧
      ∃ inviter db₁ db₂, spendInviteCode new.now code db = .ok (inviter, db₁) ∧
        insertUser ⟨id, email, some hash, none, 0, inviter⟩ db₁ = .ok db₂ ∧
        createSessionWith new id 0 db₂ = .ok db' := by
  unfold register at h
  obtain ⟨_, hopen, h⟩ := bind_eq_ok.mp h
  obtain ⟨_, hcapacity, h⟩ := bind_eq_ok.mp h
  obtain ⟨⟨inviter, db₁⟩, hspend, h⟩ := bind_eq_ok.mp h
  obtain ⟨db₂, hinsert, h⟩ := bind_eq_ok.mp h
  refine ⟨?_, enforceUserCapacity_eq_ok.mp hcapacity, inviter, db₁, db₂, hspend, hinsert, h⟩
  cases code with
  | none => simpa using hopen
  | some => exact .inr (by simp)

variable {record credential : ℕ}

theorem passkeyRegisterFinish_eq_ok {cfg : AuthConfig}
    (h : passkeyRegisterFinish cfg new id email record credential db = .ok db') :
    cfg.registrationEnabled = true ∧ db.users.length < cfg.maxUsers ∧
      ∃ db₁ db₂, insertUser ⟨id, email, none, none, 0, none⟩ db = .ok db₁ ∧
        insertPasskey ⟨record, id, credential⟩ db₁ = .ok db₂ ∧
        createSessionWith new id 0 db₂ = .ok db' := by
  unfold passkeyRegisterFinish at h
  obtain ⟨_, hopen, h⟩ := bind_eq_ok.mp h
  obtain ⟨_, hcapacity, h⟩ := bind_eq_ok.mp h
  obtain ⟨db₁, hinsert, h⟩ := bind_eq_ok.mp h
  obtain ⟨db₂, hpasskey, h⟩ := bind_eq_ok.mp h
  exact ⟨by simpa using hopen, enforceUserCapacity_eq_ok.mp hcapacity, db₁, db₂, hinsert,
    hpasskey, h⟩

variable {version : ℕ}

theorem loginFinish_eq_ok {hash : PasswordHash}
    (h : loginFinish new user hash version db = .ok db') :
    (∃ u, db.user user = some u ∧ u.authVersion = version) ∧
      createSessionWith new user version db = .ok db' := by
  unfold loginFinish at h
  split at h
  · rename_i hcurrent
    obtain ⟨u, hu, hcurrent⟩ := (Option.any_eq_true _ _).mp hcurrent
    simp only [Bool.and_eq_true, decide_eq_true_eq] at hcurrent
    exact ⟨⟨u, hu, hcurrent.2⟩, h⟩
  · cases h

theorem passkeyLoginFinish_eq_ok {verified : Bool}
    (h : passkeyLoginFinish new user credential verified db = .ok (version, db')) :
    (∃ u, db.user user = some u ∧ u.authVersion = version) ∧
      createSessionWith new user version db = .ok db' := by
  unfold passkeyLoginFinish at h
  split at h
  · cases h
  rename_i u hu
  split at h
  · obtain ⟨db₁, hcreate, h⟩ := bind_eq_ok.mp h
    cases h
    exact ⟨⟨u, hu, rfl⟩, hcreate⟩
  · cases h

theorem lockedAccount_eq_ok : lockedAccount user version db = .ok u ↔
      db.user user = some u ∧ u.authVersion = version := by
  unfold lockedAccount
  split
  · rename_i hv
    split
    · rename_i hversion
      simp only [Except.ok.injEq, hv, Option.some.injEq]
      constructor
      · rintro rfl
        exact ⟨rfl, hversion⟩
      · exact fun h => h.1
    · rename_i hversion
      simp only [reduceCtorEq, hv, Option.some.injEq, false_iff, not_and]
      rintro rfl
      exact hversion
  · rename_i hnone
    simp [hnone]

/-! ## Invitations -/

variable {code : ℕ}

theorem createInvite_eq_ok (h : createInvite now user id code basis db = .ok db') :
    (db.invites.countP fun i => i.liveRegistration now user) < maxLiveRegistrationInvites ∧
      (∃ u, db.user user = some u) ∧
      db' = { db with
        invites := ⟨id, .inviteCode code, .registration, user, 1,
          now + registrationInviteDays * day, basis⟩ :: db.invites } := by
  unfold createInvite at h
  split at h
  · cases h
  rename_i hlive
  split at h
  · cases h
  rename_i huser
  cases h
  have huser := ne_none_iff_exists'.mp (by simpa using huser)
  exact ⟨Nat.lt_of_not_le hlive, huser, rfl⟩

theorem createRoomInvite_eq_ok {authorized : Invite → Bool} {room : ℕ} {uses days : ℕ}
    (h : createRoomInvite now authorized room uses days user id code basis db = .ok db') :
    (∃ u, db.user user = some u) ∧ db' = { db with
        invites := ⟨id, .inviteCode code, .room room, user, uses, now + days * day,
          basis⟩ :: db.invites } := by
  unfold createRoomInvite at h
  split at h
  · cases h
  split at h
  · cases h
  split at h
  · cases h
  rename_i huser
  cases h
  exact ⟨ne_none_iff_exists'.mp (by simpa using huser), rfl⟩

variable {clock : ℕ}

theorem redeemRoomInvite_eq_some (h : redeemRoomInvite clock code db = some db') :
    (∃ i ∈ db.invites, i.codeHash = .inviteCode code ∧ i.kind ≠ .registration) ∧ db' = { db with
        invites := update (fun i => i.codeHash = .inviteCode code) Invite.spend
          db.invites } := by
  obtain ⟨hany, h⟩ := ite_none_right_eq_some.mp h
  obtain ⟨i, hi, hredeemable⟩ := any_eq_true.mp hany
  simp only [ne_eq, Bool.and_eq_true, decide_eq_true_eq] at hredeemable
  cases h
  exact ⟨⟨i, hi, hredeemable.1.1.1, by simpa using hredeemable.1.1.2⟩, rfl⟩

/-! ## Rotations -/

inductive Rotates (t : RotationClocks) (generation : ℕ) (token : RefreshToken)
    (user : ℕ) (db : Database) : RefreshRotation → Database → Prop
  | rotated {r : Session} (hr : r ∈ db.sessions)
      (htoken : r.refreshTokenHash = .refreshToken token) (huser : r.userId = user)
      (hlive : r.live t.current = true) (hfamily : r.familyHash = .family token.family)
      (hage : t.update < r.createdAt + sessionAbsoluteLifetime) :
      Rotates t generation token user db (.rotated user r.id ⟨generation, token.family⟩)
        { db with
          sessions := update (fun x => x.id = r.id)
            (fun x => x.rotate ⟨generation, token.family⟩ token t.update) db.sessions }
  | grace {r : Session} (hr : r ∈ db.sessions)
      (hfamily : r.familyHash = .family token.family) (huser : r.userId = user)
      (hgrace : r.inGrace token t.family = true) :
      Rotates t generation token user db .concurrentRequest db
  | reuse {r : Session} (hr : r ∈ db.sessions)
      (hfamily : r.familyHash = .family token.family) (huser : r.userId = user)
      (hgrace : r.inGrace token t.family = false) :
      Rotates t generation token user db .reuseDetected
        (db.deleteSessions fun x => x.id = r.id)

variable {token : RefreshToken}

theorem currentSession_eq_some {r : Session} (h : db.currentSession clock token user = some r) :
    r ∈ db.sessions ∧ r.refreshTokenHash = .refreshToken token ∧ r.userId = user ∧
      r.live clock = true := by
  refine ⟨mem_of_find?_eq_some h, ?_⟩
  simpa [and_assoc] using find?_some h

theorem familySession_eq_some {r : Session} (h : db.familySession clock token user = some r) :
    r ∈ db.sessions ∧ r.familyHash = .family token.family ∧ r.userId = user ∧
      r.live clock = true := by
  refine ⟨mem_of_find?_eq_some h, ?_⟩
  simpa [and_assoc] using find?_some h

theorem rotateRefreshTokenWith_eq_ok {t : RotationClocks} {generation : ℕ}
    {rotation : RefreshRotation}
    (h : rotateRefreshTokenWith t generation token user db = .ok (rotation, db')) :
    (∃ u, db.user user = some u) ∧ Rotates t generation token user db rotation db' := by
  unfold rotateRefreshTokenWith at h
  split at h
  · cases h
  rename_i u hu
  refine ⟨⟨u, hu⟩, ?_⟩
  split at h
  · rename_i r hcurrent
    obtain ⟨hr, htoken, huser, hlive⟩ := currentSession_eq_some hcurrent
    split at h
    · cases h
    rename_i hfamily
    split at h
    · cases h
    rename_i hage
    cases h
    exact .rotated hr htoken huser hlive (not_not.mp hfamily) (Nat.lt_of_not_le hage)
  · split at h
    · cases h
    rename_i hfamily
    obtain ⟨hr, hfamily, huser, -⟩ := familySession_eq_some hfamily
    split at h
    · rename_i hgrace
      cases h
      exact .grace hr hfamily huser hgrace
    · rename_i hgrace
      cases h
      exact .reuse hr hfamily huser (by simpa using hgrace)

/-! ## Cuts -/

structure KeepsAccount (f : User → User) : Prop where
  id : ∀ u, (f u).id = u.id
  email : ∀ u, (f u).email = u.email
  password : ∀ u, u.passwordHash.isSome = true → (f u).passwordHash.isSome = true
  recovery : ∀ u, (f u).recoveryKeyHash = u.recoveryKeyHash ∨ (f u).recoveryKeyHash = none

theorem changePassword_eq_ok {old new : PasswordHash}
    (h : changePassword user version old new db = .ok db') :
    (∃ u, db.user user = some u ∧ u.authVersion = version) ∧ db' = db.updateUser user fun u =>
        { u with passwordHash := some new, authVersion := u.authVersion + 1 } := by
  unfold changePassword at h
  split at h
  · rename_i hcurrent
    obtain ⟨u, hu, hcurrent⟩ := (Option.any_eq_true _ _).mp hcurrent
    simp only [Bool.and_eq_true, decide_eq_true_eq] at hcurrent
    split at h
    · cases h
      exact ⟨⟨u, hu, hcurrent.2⟩, rfl⟩
    · cases h
  · cases h

theorem consumeRecovery_eq_ok {key : ℕ} {new : PasswordHash}
    (h : consumeRecovery user email key new db = .ok db') :
    (∃ u ∈ db.users, u.id = user ∧ u.recoveryKeyHash = some (.recoveryKey key)) ∧
      (∃ u, db.user user = some u) ∧
      db' = db.updateUser user fun u =>
        { u with
          passwordHash := some new
          recoveryKeyHash := none
          authVersion := u.authVersion + 1 } := by
  unfold consumeRecovery at h
  split at h
  · rename_i hkey
    obtain ⟨u, hu, hid⟩ := (Option.any_eq_true _ _).mp hkey
    have hkey : u.recoveryKeyHash = some (.recoveryKey key) := by
      have := find?_some hu
      simp only [Bool.and_eq_true, decide_eq_true_eq] at this
      exact this.2
    split at h
    · rename_i hversion
      obtain ⟨v, hv, -⟩ := (Option.any_eq_true _ _).mp hversion
      cases h
      exact ⟨⟨u, mem_of_find?_eq_some hu, by simpa using hid, hkey⟩, ⟨v, hv⟩, rfl⟩
    · cases h
  · cases h

theorem mem_of_credentials {p : Passkey} (h : p ∈ db.credentials user) :
    p ∈ db.passkeys ∧ p.userId = user := by
  have := mem_filter.mp (mem_of_mem_take h)
  exact ⟨this.1, by simpa using this.2⟩

theorem length_credentials : (db.credentials user).length =
      min (maxPasskeys + 1) (db.passkeys.countP fun p => p.userId = user) := by
  unfold Database.credentials
  rw [length_take, countP_eq_length_filter]

theorem nextVersion_eq_ok {next : ℕ} (h : nextVersion version = .ok next) : next = version + 1 := by
  unfold nextVersion at h
  split at h
  · cases h
    rfl
  · cases h

theorem removeCredential_eq_ok {passkey : ℕ} {passwordEnabled : Bool}
    (h : removeCredential user version passkey passwordEnabled db = .ok db') :
    (1 < (db.credentials user).length ∨ passwordEnabled = true) ∧
      db' = (db.dropPasskey user passkey).updateUser user fun u =>
        { u with authVersion := version + 1 } := by
  unfold removeCredential at h
  obtain ⟨_, -, h⟩ := bind_eq_ok.mp h
  obtain ⟨_, hmethod, h⟩ := bind_eq_ok.mp h
  obtain ⟨next, hnext, h⟩ := bind_eq_ok.mp h
  cases nextVersion_eq_ok hnext
  cases h
  exact ⟨by simpa using hmethod, rfl⟩

theorem replaceCredential_eq_ok {replacement : ReplacementRegistration}
    (h : replaceCredential user version replacement record credential db = .ok db') :
    (∃ u, db.user user = some u ∧ u.authVersion = version ∧
      u.recoveryKeyHash = some replacement.recoveryHash) ∧
      (∃ p ∈ db.passkeys, p.userId = user ∧ p.id = replacement.target) ∧
      ∃ db₁, insertPasskey ⟨record, user, credential⟩ db = .ok db₁ ∧
        (db₁.passkeys.countP fun p => p.userId = user && p.id = replacement.target) = 1 ∧
        db' = (db₁.dropPasskey user replacement.target).updateUser user fun u =>
          { u with authVersion := version + 1 } := by
  unfold replaceCredential at h
  obtain ⟨u, hlocked, h⟩ := bind_eq_ok.mp h
  obtain ⟨_, hbackup, h⟩ := bind_eq_ok.mp h
  obtain ⟨_, htarget, h⟩ := bind_eq_ok.mp h
  obtain ⟨next, hnext, h⟩ := bind_eq_ok.mp h
  obtain ⟨db₁, hinsert, h⟩ := bind_eq_ok.mp h
  obtain ⟨_, hdeleted, h⟩ := bind_eq_ok.mp h
  cases nextVersion_eq_ok hnext
  cases h
  obtain ⟨hu, hversion⟩ := lockedAccount_eq_ok.mp hlocked
  obtain ⟨p, hp, hid⟩ := any_eq_true.mp (require_eq_ok.mp htarget)
  obtain ⟨hp, huser⟩ := mem_of_credentials hp
  exact ⟨⟨u, hu, hversion, by simpa using hbackup⟩, ⟨p, hp, huser, by simpa using hid⟩,
    db₁, hinsert, by simpa using hdeleted, rfl⟩

theorem Cut.change_users {cut : Cut} (h : cut.change user record db = .ok db') :
    ∃ f u, KeepsAccount f ∧ db.user user = some u ∧ (f u).authVersion = u.authVersion + 1 ∧
      db'.users = update (fun v => v.id = user) f db.users := by
  cases cut with
  | password =>
    obtain ⟨⟨u, hu, -⟩, rfl⟩ := changePassword_eq_ok h
    refine ⟨_, u, ?_, hu, ?_, rfl⟩
    · exact ⟨fun _ => rfl, fun _ => rfl, fun _ _ => rfl, fun _ => .inl rfl⟩
    · rfl
  | recovery =>
    obtain ⟨-, ⟨u, hu⟩, rfl⟩ := consumeRecovery_eq_ok h
    refine ⟨_, u, ?_, hu, ?_, rfl⟩
    · exact ⟨fun _ => rfl, fun _ => rfl, fun _ _ => rfl, fun _ => .inr rfl⟩
    · rfl
  | removal =>
    obtain ⟨u, hlocked, h⟩ := bind_eq_ok.mp h
    obtain ⟨hu, hversion⟩ := lockedAccount_eq_ok.mp hlocked
    obtain ⟨-, rfl⟩ := removeCredential_eq_ok h
    refine ⟨_, u, ?_, hu, ?_, rfl⟩
    · exact ⟨fun _ => rfl, fun _ => rfl, fun _ hu => hu, fun _ => .inl rfl⟩
    · rw [hversion]
  | replacement =>
    obtain ⟨⟨u, hu, hversion, -⟩, -, db₁, hinsert, -, rfl⟩ := replaceCredential_eq_ok h
    obtain ⟨-, rfl⟩ := insertPasskey_eq_ok.mp hinsert
    refine ⟨_, u, ?_, hu, ?_, rfl⟩
    · exact ⟨fun _ => rfl, fun _ => rfl, fun _ hu => hu, fun _ => .inl rfl⟩
    · rw [hversion]

theorem Cut.change_frame {cut : Cut} (h : cut.change user record db = .ok db') :
    db'.sessions = db.sessions ∧ db'.invites = db.invites := by
  cases cut with
  | password =>
    obtain ⟨-, rfl⟩ := changePassword_eq_ok h
    exact ⟨rfl, rfl⟩
  | recovery =>
    obtain ⟨-, -, rfl⟩ := consumeRecovery_eq_ok h
    exact ⟨rfl, rfl⟩
  | removal =>
    obtain ⟨u, -, h⟩ := bind_eq_ok.mp h
    obtain ⟨-, rfl⟩ := removeCredential_eq_ok h
    exact ⟨rfl, rfl⟩
  | replacement =>
    obtain ⟨-, -, db₁, hinsert, -, rfl⟩ := replaceCredential_eq_ok h
    obtain ⟨-, rfl⟩ := insertPasskey_eq_ok.mp hinsert
    exact ⟨rfl, rfl⟩

/-! ## Passkeys -/

theorem addPasskey_eq_ok (h : addPasskey user version record credential db = .ok db') :
    (∃ u, db.user user = some u ∧ u.authVersion = version) ∧
      (db.credentials user).length < maxPasskeys ∧
      insertPasskey ⟨record, user, credential⟩ db = .ok db' := by
  unfold addPasskey at h
  obtain ⟨u, hlocked, h⟩ := bind_eq_ok.mp h
  obtain ⟨_, hroom, h⟩ := bind_eq_ok.mp h
  exact ⟨⟨u, lockedAccount_eq_ok.mp hlocked⟩, by simpa using hroom, h⟩

theorem prepareRegistration_eq_ok {target : Option ℕ} {key : ℕ}
    {replacement : Option ReplacementRegistration}
    (h : prepareRegistration user target key db = .ok (replacement, db')) :
    db' = db ∨ db' = db.updateUser user fun u =>
      { u with recoveryKeyHash := some (.recoveryKey key) } := by
  unfold prepareRegistration at h
  cases target with
  | some =>
    obtain ⟨_, -, h⟩ := bind_eq_ok.mp h
    cases h
    exact .inr rfl
  | none =>
    obtain ⟨_, -, h⟩ := bind_eq_ok.mp h
    cases h
    exact .inl rfl

end SimplestChat.Accounts
