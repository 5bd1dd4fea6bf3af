import SimplestChat.Auth.Tables

/-!
# Sign-in methods

An account signs in with a password or with a passkey. Passkeys are added, removed and
replaced in ceremonies that start long before they write, so each transaction locks the
account row and counts again. No committed state leaves an account without a method or
with more passkeys than the cap.
-/

namespace SimplestChat.Accounts

open List Transition Rows

variable {cfg : AuthConfig} {s s' : AuthServer} {free : ℕ → Bool} {ch : Choice}
  {k : Request} {next : Option Request}

/-! ## Steps of accounts and passkeys together -/

def PasswordsKept (s s' : AuthServer) : Prop :=
  ∀ v ∈ s'.db.users, v.passwordHash.isSome = true ∨
    ∃ u ∈ s.db.users, u.id = v.id ∧ u.passwordHash.isSome = v.passwordHash.isSome

namespace PasswordsKept

theorem refl (h : s'.db.users = s.db.users) : PasswordsKept s s' :=
  fun v hv => .inr ⟨v, h ▸ hv, rfl, rfl⟩

theorem update {p : User → Bool} {f : User → User}
    (h : s'.db.users = update p f s.db.users) (hid : ∀ u, (f u).id = u.id)
    (hpassword : ∀ u, u.passwordHash.isSome = true → (f u).passwordHash.isSome = true) :
    PasswordsKept s s' := by
  intro v hv
  rw [h] at hv
  rcases mem_update.mp hv with ⟨u, hu, -, rfl⟩ | ⟨hv, -⟩
  · by_cases hsome : (f u).passwordHash.isSome = true
    · exact .inl hsome
    refine .inr ⟨u, hu, (hid u).symm, ?_⟩
    rw [Bool.eq_iff_iff]
    exact ⟨fun h => hpassword u h, fun h => absurd h hsome⟩
  · exact .inr ⟨v, hv, rfl, rfl⟩

theorem recoveryKey {p : User → Bool} {key : ℕ}
    (h : s'.db.users = Rows.update p (fun u => u.withRecoveryKey key) s.db.users) :
    PasswordsKept s s' :=
  .update h (User.withRecoveryKey_id key) fun _ hu => hu

theorem append {u : User} (h : s'.db.users = s.db.users ++ [u])
    (hpassword : u.passwordHash.isSome = true) : PasswordsKept s s' := by
  intro v hv
  rw [h, mem_append, mem_singleton] at hv
  rcases hv with hv | rfl
  · exact .inr ⟨v, hv, rfl, rfl⟩
  · exact .inl hpassword

end PasswordsKept

inductive MethodsStep (s s' : AuthServer) (k : Request) : Prop
  | kept (hpasskeys : s'.db.passkeys = s.db.passkeys) (husers : PasswordsKept s s')
  | registered {u : User} {p : Passkey} (husers : s'.db.users = s.db.users ++ [u])
      (hid : u.id = s.newUser) (hp : p.id = s.fresh + 4) (howner : p.userId = s.newUser)
      (hpasskeys : s'.db.passkeys = s.db.passkeys ++ [p])
      (hfresh : s'.fresh = s.fresh + 5)
  | added {p : Passkey} (husers : s'.db.users = s.db.users) (hp : p.id = s.fresh)
      (howner : ∃ u, s.db.user p.userId = some u)
      (hroom : (s.db.credentials p.userId).length < maxPasskeys)
      (hpasskeys : s'.db.passkeys = s.db.passkeys ++ [p])
      (hfresh : s'.fresh = s.fresh + 1)
  | removed {user passkey version : ℕ} {revoked : List ℕ} {u : User}
      (hk : k = .cutting user (.removal version passkey) revoked)
      (husers : PasswordsKept s s') (hu : s.db.user user = some u)
      (hmethod : 1 < (s.db.credentials user).length ∨ u.passwordHash.isSome = true)
      (hpasskeys : s'.db.passkeys = s.db.passkeys.filter fun q =>
        !(q.userId = user && q.id = passkey))
  | replaced {user credential version : ℕ} {data : ReplacementRegistration}
      {revoked : List ℕ} {u : User} {p : Passkey}
      (hk : k = .cutting user (.replacement version data credential) revoked)
      (husers : PasswordsKept s s') (hu : s.db.user user = some u)
      (hbackup : u.recoveryKeyHash = some data.recoveryHash)
      (htarget : ∃ q ∈ s.db.passkeys, q.userId = user ∧ q.id = data.target)
      (hp : p = ⟨s.fresh, user, credential⟩)
      (hone : ((s.db.passkeys ++ [p]).countP fun q =>
        q.userId = user && q.id = data.target) = 1)
      (hpasskeys : s'.db.passkeys = (s.db.passkeys ++ [p]).filter fun q =>
        !(q.userId = user && q.id = data.target))
      (hfresh : s'.fresh = s.fresh + 1)

theorem committed_methods {user : ℕ} {cut : Cut} {revoked : List ℕ} {db : Database}
    (h : cut.change user s.fresh s.db = .ok db) :
    MethodsStep s (s.commitCut user cut revoked db) (.cutting user cut revoked) := by
  have husers : PasswordsKept s (s.commitCut user cut revoked db) := by
    obtain ⟨f, u, hkeeps, -, -, husers⟩ := Cut.change_users h
    exact .update husers hkeeps.id hkeeps.password
  cases cut with
  | password =>
    refine .kept ?_ husers
    obtain ⟨-, rfl⟩ := changePassword_eq_ok h
    rfl
  | recovery =>
    refine .kept ?_ husers
    obtain ⟨-, -, rfl⟩ := consumeRecovery_eq_ok h
    rfl
  | removal =>
    obtain ⟨u, hlocked, h⟩ := bind_eq_ok.mp h
    obtain ⟨hmethod, rfl⟩ := removeCredential_eq_ok h
    exact .removed rfl husers (lockedAccount_eq_ok.mp hlocked).1 hmethod rfl
  | replacement =>
    obtain ⟨⟨u, hu, -, hbackup⟩, htarget, db₁, hinsert, hone, rfl⟩ := replaceCredential_eq_ok h
    obtain ⟨-, rfl⟩ := insertPasskey_eq_ok.mp hinsert
    exact .replaced rfl husers hu hbackup htarget rfl hone rfl rfl

theorem Serves.methods (h : Serves cfg s free ch k s' next) : MethodsStep s s' k := by
  cases h with
  | registered _ h =>
    obtain ⟨inviter, hadmits⟩ := register_admits h
    exact .kept (hadmits.passkeys.trans (append_nil _)) (.append hadmits.users rfl)
  | passkeyRegistered _ h =>
    have hadmits := passkeyRegisterFinish_admits h
    exact .registered hadmits.users rfl rfl rfl hadmits.passkeys rfl
  | loggedIn _ _ h =>
    obtain ⟨husers, hpasskeys, -⟩ := createSessionWith_users (loginFinish_eq_ok h).2
    exact .kept hpasskeys (.refl husers)
  | passkeyLoggedIn _ _ h =>
    obtain ⟨husers, hpasskeys, -⟩ := createSessionWith_users (passkeyLoginFinish_eq_ok h).2
    exact .kept hpasskeys (.refl husers)
  | presented _ _ h =>
    obtain ⟨husers, hpasskeys, -⟩ := (rotateRefreshTokenWith_eq_ok h).2.frame
    exact .kept hpasskeys (.refl husers)
  | roomRedeemed h =>
    obtain ⟨-, rfl⟩ := redeemRoomInvite_eq_some h
    exact .kept rfl (.refl rfl)
  | committed h => exact committed_methods h
  | recoveryKeyCreated => exact .kept rfl (.recoveryKey rfl)
  | @prepared _ claims _ _ _ _ h =>
    rcases preparation_db h with hdb | hdb
    · exact .kept (by rw [prepared_db, hdb]) (.refl (by rw [prepared_db, hdb]))
    refine .kept ?_ (@PasswordsKept.recoveryKey s _ (fun u => u.id = claims.sub) s.fresh ?_)
    · rw [prepared_db, hdb]
      rfl
    · rw [prepared_db, hdb]
      rfl
  | passkeyAdded _ h =>
    obtain ⟨⟨u, hu, -⟩, hroom, hinsert⟩ := addPasskey_eq_ok h
    obtain ⟨-, rfl⟩ := insertPasskey_eq_ok.mp hinsert
    exact .added rfl rfl ⟨u, hu⟩ hroom rfl rfl
  | minted h =>
    obtain ⟨-, -, rfl⟩ := createInvite_eq_ok h
    exact .kept rfl (.refl rfl)
  | roomMinted h =>
    obtain ⟨-, rfl⟩ := createRoomInvite_eq_ok h
    exact .kept rfl (.refl rfl)
  | _ => exact .kept rfl (.refl rfl)

/-! ## What every step keeps -/

structure MethodsKept (s : AuthServer) : Prop where
  users : UserKeys s
  ids : (s.db.passkeys.map Passkey.id).Nodup
  below : ∀ p ∈ s.db.passkeys, p.id < s.fresh
  owned : ∀ p ∈ s.db.passkeys, p.userId < s.fresh
  capped : ∀ user, s.db.passkeys.countP (fun p => p.userId = user) ≤ maxPasskeys
  method : ∀ u ∈ s.db.users, u.passwordHash.isSome = true ∨ ∃ p ∈ s.db.passkeys, p.userId = u.id

namespace MethodsKept

theorem start : MethodsKept {} where
  users := ⟨by simp, by simp⟩
  ids := by simp
  below := by simp
  owned := by simp
  capped := fun _ => Nat.zero_le _
  method := by simp

theorem method_of_kept (h : MethodsKept s) (husers : PasswordsKept s s')
    (hpasskeys : ∀ u ∈ s.db.users, u.passwordHash.isSome = false →
      (∃ p ∈ s.db.passkeys, p.userId = u.id) → ∃ p ∈ s'.db.passkeys, p.userId = u.id) :
    ∀ v ∈ s'.db.users, v.passwordHash.isSome = true ∨ ∃ p ∈ s'.db.passkeys, p.userId = v.id := by
  intro v hv
  rcases husers v hv with hsome | ⟨u, hu, hid, hsame⟩
  · exact .inl hsome
  by_cases hsome : v.passwordHash.isSome = true
  · exact .inl hsome
  have hnone : u.passwordHash.isSome = false := by simpa [hsame] using hsome
  rcases h.method u hu with hpassword | hpasskey
  · rw [hnone] at hpassword
    cases hpassword
  · exact .inr (hid ▸ hpasskeys u hu hnone hpasskey)

theorem kept (h : MethodsKept s) (hserves : Serves cfg s free ch k s' next)
    (hpasskeys : s'.db.passkeys = s.db.passkeys) (husers : PasswordsKept s s') :
    MethodsKept s' where
  users := h.users.step hserves
  ids := hpasskeys ▸ h.ids
  below := fun p hp => Nat.lt_of_lt_of_le (h.below p (hpasskeys ▸ hp)) hserves.fresh_le
  owned := fun p hp => Nat.lt_of_lt_of_le (h.owned p (hpasskeys ▸ hp)) hserves.fresh_le
  capped := hpasskeys ▸ h.capped
  method := h.method_of_kept husers fun _ _ _ hp => hpasskeys ▸ hp

theorem append (h : MethodsKept s) (hserves : Serves cfg s free ch k s' next)
    {p : Passkey} (hpasskeys : s'.db.passkeys = s.db.passkeys ++ [p])
    (hid : s.fresh ≤ p.id) (hbelow : p.id < s'.fresh) (howner : p.userId < s'.fresh)
    (hroom : s.db.passkeys.countP (fun q => q.userId = p.userId) < maxPasskeys)
    (hmethod : ∀ u ∈ s'.db.users,
      u.passwordHash.isSome = true ∨ ∃ q ∈ s'.db.passkeys, q.userId = u.id) :
    MethodsKept s' where
  users := h.users.step hserves
  ids := by
    rw [hpasskeys]
    refine nodup_append h.ids fun q hq => ?_
    exact Nat.ne_of_lt (Nat.lt_of_lt_of_le (h.below q hq) hid)
  below := by
    intro q hq
    rw [hpasskeys, mem_append, mem_singleton] at hq
    rcases hq with hq | rfl
    · exact Nat.lt_of_lt_of_le (h.below q hq) hserves.fresh_le
    · exact hbelow
  owned := by
    intro q hq
    rw [hpasskeys, mem_append, mem_singleton] at hq
    rcases hq with hq | rfl
    · exact Nat.lt_of_lt_of_le (h.owned q hq) hserves.fresh_le
    · exact howner
  capped := by
    intro user
    rw [hpasskeys, countP_append, countP_singleton]
    by_cases huser : p.userId = user
    · subst huser
      rw [if_pos (by simp)]
      exact hroom
    · simpa [huser] using h.capped user
  method := hmethod

theorem countP_dropped (rows : List Passkey) (user passkey : ℕ) :
    rows.countP (fun q => q.userId = user) =
      (rows.filter fun q => !(q.userId = user && q.id = passkey)).countP
        (fun q => q.userId = user) +
      rows.countP fun q => q.userId = user && q.id = passkey := by
  induction rows with
  | nil => rfl
  | cons q rest ih =>
    simp only [countP_cons, filter_cons]
    by_cases huser : q.userId = user
    · by_cases hid : q.id = passkey
      · simp [huser, hid] at ih ⊢
        omega
      · simp [huser, hid] at ih ⊢
        omega
    · simp [huser] at ih ⊢
      omega

section

variable (h : MethodsKept s)
include h

theorem filter (hserves : Serves cfg s free ch k s' next) {p : Passkey → Bool}
    (hpasskeys : s'.db.passkeys = s.db.passkeys.filter p) (hmethod : ∀ u ∈ s'.db.users,
      u.passwordHash.isSome = true ∨ ∃ q ∈ s'.db.passkeys, q.userId = u.id) :
    MethodsKept s' where
  users := h.users.step hserves
  ids := hpasskeys ▸ nodup_filter h.ids
  below := by
    intro q hq
    rw [hpasskeys] at hq
    exact Nat.lt_of_lt_of_le (h.below q (mem_of_mem_filter hq)) hserves.fresh_le
  owned := by
    intro q hq
    rw [hpasskeys] at hq
    exact Nat.lt_of_lt_of_le (h.owned q (mem_of_mem_filter hq)) hserves.fresh_le
  capped := by
    intro user
    rw [hpasskeys]
    exact Nat.le_trans filter_sublist.countP_le (h.capped user)
  method := hmethod

theorem removed (hserves : Serves cfg s free ch k s' next) {user passkey : ℕ} {u : User}
    (husers : PasswordsKept s s') (hu : s.db.user user = some u)
    (hmethod : 1 < (s.db.credentials user).length ∨ u.passwordHash.isSome = true)
    (hpasskeys : s'.db.passkeys = s.db.passkeys.filter fun q =>
      !(q.userId = user && q.id = passkey)) : MethodsKept s' := by
  refine h.filter hserves hpasskeys (h.method_of_kept husers ?_)
  intro v hv hnone hpasskey
  rw [hpasskeys]
  by_cases hid : v.id = user
  · have hsame := h.users.eq_of_user hu hv hid
    have hmany : 1 < s.db.passkeys.countP fun q => q.userId = user := by
      rcases hmethod with hmany | hpassword
      · rw [length_credentials] at hmany
        exact Nat.lt_of_lt_of_le hmany (Nat.min_le_right _ _)
      · rw [← hsame, hnone] at hpassword
        cases hpassword
    have hone : s.db.passkeys.countP (fun q => q.userId = user && q.id = passkey) ≤ 1 := by
      refine Nat.le_trans (countP_mono_left fun q _ hq => ?_) (countP_key_le_one h.ids passkey)
      simp only [Bool.and_eq_true] at hq
      exact hq.2
    have hdropped := countP_dropped s.db.passkeys user passkey
    have hleft : 0 < (s.db.passkeys.filter fun q =>
        !(q.userId = user && q.id = passkey)).countP fun q => q.userId = user := by
      omega
    obtain ⟨q, hq, hquser⟩ := countP_pos_iff.mp hleft
    exact ⟨q, hq, (by simpa using hquser : q.userId = user).trans hid.symm⟩
  · obtain ⟨q, hq, hquser⟩ := hpasskey
    refine ⟨q, List.mem_filter.mpr ⟨hq, ?_⟩, hquser⟩
    simp [hquser, hid]

theorem newcomer_stays {user target : ℕ} {p : Passkey}
    (htarget : ∃ q ∈ s.db.passkeys, q.userId = user ∧ q.id = target)
    (hid : p.id = s.fresh) :
    p ∈ (s.db.passkeys ++ [p]).filter fun q => !(q.userId = user && q.id = target) := by
  obtain ⟨q, hq, -, hqid⟩ := htarget
  have hne : p.id ≠ target := by
    have := h.below q hq
    omega
  exact List.mem_filter.mpr ⟨by simp, by simp [hne]⟩

theorem replaced (hserves : Serves cfg s free ch k s' next) {user target : ℕ} {u : User}
    {p : Passkey} (husers : PasswordsKept s s') (hu : s.db.user user = some u)
    (htarget : ∃ q ∈ s.db.passkeys, q.userId = user ∧ q.id = target)
    (hid : p.id = s.fresh) (howner : p.userId = user)
    (hone : ((s.db.passkeys ++ [p]).countP fun q => q.userId = user && q.id = target) = 1)
    (hpasskeys : s'.db.passkeys = (s.db.passkeys ++ [p]).filter fun q =>
      !(q.userId = user && q.id = target)) (hfresh : s'.fresh = s.fresh + 1) :
    MethodsKept s' := by
  have hmem : ∀ q ∈ s'.db.passkeys, q ∈ s.db.passkeys ∨ q = p := by
    intro q hq
    rw [hpasskeys] at hq
    simpa using mem_of_mem_filter hq
  have huser : user < s.fresh := by
    obtain ⟨hu, huid⟩ := mem_of_user hu
    exact huid ▸ h.users.fresh u hu
  have hstays : p ∈ s'.db.passkeys := hpasskeys ▸ h.newcomer_stays htarget hid
  constructor
  · exact h.users.step hserves
  · rw [hpasskeys]
    refine nodup_filter (nodup_append h.ids fun q hq => ?_)
    exact hid ▸ Nat.ne_of_lt (h.below q hq)
  · intro q hq
    rcases hmem q hq with hq | rfl
    · have := h.below q hq
      omega
    · omega
  · intro q hq
    rcases hmem q hq with hq | rfl
    · have := h.owned q hq
      omega
    · omega
  · intro account
    by_cases haccount : account = user
    · subst haccount
      have hdropped := countP_dropped (s.db.passkeys ++ [p]) account target
      have hbefore := h.capped account
      rw [hone, countP_append, countP_singleton, if_pos (by simp [howner])]
        at hdropped
      rw [hpasskeys]
      omega
    · rw [hpasskeys]
      refine Nat.le_trans filter_sublist.countP_le ?_
      rw [countP_append, countP_singleton, if_neg]
      · exact h.capped account
      · simpa [howner] using Ne.symm haccount
  · refine h.method_of_kept husers ?_
    rintro v hv - ⟨q, hq, hquser⟩
    by_cases hvid : v.id = user
    · exact ⟨p, hstays, howner.trans hvid.symm⟩
    refine ⟨q, ?_, hquser⟩
    rw [hpasskeys]
    exact List.mem_filter.mpr ⟨by simp [hq], by simp [hquser, hvid]⟩

theorem step (hserves : Serves cfg s free ch k s' next) : MethodsKept s' := by
  have hnew : s.newUser = s.fresh + 3 := rfl
  cases hserves.methods with
  | kept hpasskeys husers => exact h.kept hserves hpasskeys husers
  | @registered u p husers hid hp howner hpasskeys =>
    refine h.append hserves hpasskeys (by omega) (by omega) (by omega) ?_ ?_
    · -- nobody has passkeys under an ID that was not handed out
      have hnone : s.db.passkeys.countP (fun q => q.userId = p.userId) = 0 := by
        rw [countP_eq_zero]
        intro q hq
        have := h.owned q hq
        simp only [decide_eq_true_eq]
        omega
      rw [hnone]
      decide
    · intro v hv
      rw [husers, mem_append, mem_singleton] at hv
      rcases hv with hv | rfl
      · rcases h.method v hv with hpassword | ⟨q, hq, hquser⟩
        · exact .inl hpassword
        · exact .inr ⟨q, hpasskeys ▸ mem_append_left _ hq, hquser⟩
      · refine .inr ⟨p, hpasskeys ▸ by simp, ?_⟩
        rw [howner, hid]
  | @added p husers hp howner hroom hpasskeys =>
    obtain ⟨u, hu⟩ := howner
    obtain ⟨hmem, huid⟩ := mem_of_user hu
    have hbelow := h.users.fresh u hmem
    refine h.append hserves hpasskeys (by omega) (by omega) (by omega) ?_ ?_
    · rw [length_credentials] at hroom
      have hcap : maxPasskeys < maxPasskeys + 1 := Nat.lt_succ_self _
      omega
    intro v hv
    rcases h.method v (husers ▸ hv) with hpassword | ⟨q, hq, hquser⟩
    · exact .inl hpassword
    · exact .inr ⟨q, hpasskeys ▸ mem_append_left _ hq, hquser⟩
  | removed _ husers hu hmethod hpasskeys => exact h.removed hserves husers hu hmethod hpasskeys
  | replaced _ husers hu _ htarget hp hone hpasskeys hfresh =>
    subst hp
    exact h.replaced hserves husers hu htarget rfl rfl hone hpasskeys hfresh

end

end MethodsKept

/-! ## The contract -/

/-- What holds of the ways to sign in in every state of every run. -/
structure SignInContract (cfg : AuthConfig) (s : AuthServer) : Prop where
  method : ∀ u ∈ s.db.users, u.passwordHash.isSome = true ∨ ∃ p ∈ s.db.passkeys, p.userId = u.id
  capped : ∀ user, s.db.passkeys.countP (fun p => p.userId = user) ≤ maxPasskeys
  /-- a replacement that takes a passkey away stores the new one, and the recovery key
  issued for it is the account's -/
  replacement : ∀ free ch user version data credential revoked o,
    act cfg s free (.cutting user (.replacement version data credential) revoked) ch = some o →
      ∀ p ∈ s.db.passkeys, p ∉ o.shared.db.passkeys →
        ⟨s.fresh, user, credential⟩ ∈ o.shared.db.passkeys ∧
          ∃ u, s.db.user user = some u ∧ u.recoveryKeyHash = some data.recoveryHash

theorem MethodsKept.replacement (h : MethodsKept s) {user version credential : ℕ}
    {data : ReplacementRegistration} {revoked : List ℕ} (hserves : Serves cfg s free ch
      (.cutting user (.replacement version data credential) revoked) s' next)
    {p : Passkey} (hp : p ∈ s.db.passkeys) (hgone : p ∉ s'.db.passkeys) :
    ⟨s.fresh, user, credential⟩ ∈ s'.db.passkeys ∧
      ∃ u, s.db.user user = some u ∧ u.recoveryKeyHash = some data.recoveryHash := by
  cases hserves.methods with
  | kept hpasskeys => exact absurd (hpasskeys ▸ hp) hgone
  | registered _ _ _ _ hpasskeys => exact absurd (hpasskeys ▸ mem_append_left _ hp) hgone
  | added _ _ _ _ hpasskeys => exact absurd (hpasskeys ▸ mem_append_left _ hp) hgone
  | removed hk => cases hk
  | replaced hk _ hu hbackup htarget hnew _ hpasskeys =>
    cases hk
    subst hnew
    exact ⟨hpasskeys ▸ h.newcomer_stays htarget rfl, _, hu, hbackup⟩

/-- In every state of every run of requests every account has a password or a passkey
and at most ten passkeys, and a passkey replacement takes the old passkey away only
together with storing the new one, while the recovery key issued for it is current. -/
theorem sign_in_methods (cfg : AuthConfig) (actions : List AuthAction) (c : AuthState)
    (hrun : run (accounts cfg).step (begin {}) actions = some c) :
    SignInContract cfg c.shared := by
  have hkept : MethodsKept c.shared :=
    run_served (fun _ _ _ _ _ _ h hserves => h.step hserves) MethodsKept.start hrun
  exact ⟨hkept.method, hkept.capped, fun _ _ _ _ _ _ _ _ hact _ hp hgone =>
    hkept.replacement (act_served hact).2 hp hgone⟩

def passkeyIsReplaced : List AuthAction :=
  request 0 (.passkeyRegister "a@b" 7) 1 (atInstant 0) ++
    request 1 (.account ⟨3, 0, 0⟩ (.passkey (.replace 4) none)) 2 (atInstant second) ++
    request 2 (.account ⟨3, 0, 0⟩ (.authorize 5 7)) 3 (atInstant second) ++
    request 3 (.account ⟨3, 0, 0⟩ (.enroll 7 8)) 4 (atInstant second)

theorem passkeyIsReplaced_methods :
    ∃ c, run (accounts openRegistration).step (begin {}) passkeyIsReplaced = some c ∧
      c.shared.db.passkeys = [⟨8, 3, 8⟩] ∧
      c.shared.db.users = [⟨3, "a@b", none, some (.recoveryKey 6), 1, none⟩] ∧
      SignInContract openRegistration c.shared := by
  obtain ⟨c, hrun, hpasskeys, husers⟩ : ∃ c,
      run (accounts openRegistration).step (begin {}) passkeyIsReplaced =
        some c ∧ c.shared.db.passkeys = [⟨8, 3, 8⟩] ∧
        c.shared.db.users = [⟨3, "a@b", none, some (.recoveryKey 6), 1, none⟩] :=
    exists_of_any (by decide +kernel)
  exact ⟨c, hrun, hpasskeys, husers, sign_in_methods _ _ c hrun⟩

end SimplestChat.Accounts
