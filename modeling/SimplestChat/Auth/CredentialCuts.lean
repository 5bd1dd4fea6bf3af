import SimplestChat.Auth.RefreshTokens

/-!
# Credential cuts

A password change, a redeemed recovery key and the removal or replacement of a passkey
raise the account's version and revoke what was issued under the old one. A request that
authenticated before the cut may still be under way: it checks the version again under the
account's row lock before it writes, unless it issues an invitation.

`basis` is the version that the request behind a row or a token was authenticated with.
-/

namespace SimplestChat.Accounts

open List Option Interleaving Transition Rows

variable {cfg : AuthConfig} {s s' : AuthServer} {free : ℕ → Bool} {ch : Choice}
  {k : Request} {next : Option Request}

/-! ## Versions -/

def AuthServer.Current (s : AuthServer) (user version : ℕ) : Prop :=
  ∀ u ∈ s.db.users, u.id = user → version = u.authVersion

variable {user version : ℕ}

theorem Serves.current (h : Serves cfg s free ch k s' next)
    (hcurrent : s.Current user version) (hold : user < s.fresh) :
    s'.Current user version ∨ ∃ cut revoked db, k = .cutting user cut revoked ∧
      cut.change user s.fresh s.db = .ok db ∧ s' = s.commitCut user cut revoked db := by
  cases h.users with
  | same husers => exact .inl fun u hu => hcurrent u (husers ▸ hu)
  | inserted husers hid =>
    refine .inl fun u hu huser => ?_
    rw [husers] at hu
    rcases mem_append.mp hu with hu | hu
    · exact hcurrent u hu huser
    · rw [mem_singleton.mp hu, hid, AuthServer.newUser] at huser
      omega
  | recoveryKey husers =>
    refine .inl fun u hu huser => ?_
    rw [husers] at hu
    rcases mem_update.mp hu with ⟨v, hv, -, rfl⟩ | ⟨hu, -⟩
    · exact hcurrent v hv huser
    · exact hcurrent u hu huser
  | @cut user' cut revoked f _ hk husers hkeeps _ _ hcommitted =>
    by_cases hsame : user' = user
    · subst hsame
      obtain ⟨db, hchange, hs'⟩ := hcommitted
      exact .inr ⟨cut, revoked, db, hk, hchange, hs'⟩
    refine .inl fun u hu huser => ?_
    rw [husers] at hu
    rcases mem_update.mp hu with ⟨v, -, hv, rfl⟩ | ⟨hu, -⟩
    · rw [hkeeps.id, of_decide_eq_true hv] at huser
      exact absurd huser hsame
    · exact hcurrent u hu huser

/-- While a cut is under way, its lock keeps the version that it has checked. -/
theorem version_kept_by_lock {c : AuthState} {t u : ℕ} {o : Answer} {cut : Cut}
    {revoked : List ℕ} (hcoherent : (accounts cfg).Coherent c)
    (hcut : c.task u = some (.cutting user cut revoked))
    (ha : (accounts cfg).Acts c t k ch o) (hother : t ≠ u) (hold : user < c.shared.fresh)
    (hcurrent : c.shared.Current user version) : o.shared.Current user version := by
  obtain hkept | ⟨_, _, _, rfl, -⟩ := (act_served ha.acted).2.current hcurrent hold
  · exact hkept
  · have hguard : user ∈ Request.guards (.cutting user cut revoked) := mem_singleton.mpr rfl
    exact absurd (hcoherent.eq_of_guard ha.running hcut hguard hguard) hother

theorem Serves.version_le (hkeys : UserKeys s) (h : Serves cfg s free ch k s' next)
    (hu : ∃ u ∈ s.db.users, u.id = user ∧ version ≤ u.authVersion) :
    ∃ u ∈ s'.db.users, u.id = user ∧ version ≤ u.authVersion := by
  obtain ⟨u, hu, hid, hversion⟩ := hu
  cases h.users with
  | same husers => exact ⟨u, husers ▸ hu, hid, hversion⟩
  | inserted husers => exact ⟨u, husers ▸ mem_append_left _ hu, hid, hversion⟩
  | @recoveryKey user' husers =>
    rw [husers]
    by_cases hsame : u.id = user'
    · exact ⟨u.withRecoveryKey s.fresh,
        mem_update.mpr (.inl ⟨u, hu, by simpa using hsame, rfl⟩), hid, hversion⟩
    · exact ⟨u, mem_update.mpr (.inr ⟨hu, by simpa using hsame⟩), hid, hversion⟩
  | @cut user' _ _ f v _ husers hkeeps hv =>
    rw [husers]
    by_cases hsame : u.id = user'
    · obtain rfl := hkeys.eq_of_user hv hu hsame
      exact ⟨f u, mem_update.mpr (.inl ⟨u, hu, by simpa using hsame, rfl⟩),
        (hkeeps.id u).trans hid, by omega⟩
    · exact ⟨u, mem_update.mpr (.inr ⟨hu, by simpa using hsame⟩), hid, hversion⟩

/-! ## Sessions and access tokens -/

theorem SessionsStep.origin (hkeys : UserKeys s') (h : SessionsStep s s' ch k) {r : Session}
    (hr : r ∈ s'.db.sessions) :
    (∃ x ∈ s.db.sessions, x.userId = r.userId ∧ x.basis = r.basis) ∨
      s'.Current r.userId r.basis := by
  cases h with
  | deleted p hsessions =>
    rw [hsessions] at hr
    exact .inl ⟨r, mem_of_mem_filter hr, rfl, rfl⟩
  | created _ hsessions hu =>
    rw [hsessions] at hr
    rcases mem_cons.mp (mem_of_mem_filter hr) with rfl | hr
    · refine .inr fun v hv huser => ?_
      rw [hkeys.eq_of_user hu hv huser]
      rfl
    · exact .inl ⟨r, hr, rfl, rfl⟩
  | presented _ hrotates hs' =>
    subst hs'
    left
    cases hrotates with
    | rotated =>
      rcases mem_update.mp hr with ⟨x, hx, -, rfl⟩ | ⟨hr, -⟩
      · exact ⟨x, hx, rfl, rfl⟩
      · exact ⟨r, hr, rfl, rfl⟩
    | grace => exact ⟨r, hr, rfl, rfl⟩
    | reuse => exact ⟨r, mem_of_mem_filter hr, rfl, rfl⟩

/-! ## Recovery keys -/

def AuthServer.KeyOf (s : AuthServer) (key user : ℕ) : Prop :=
  ∃ u ∈ s.db.users, u.id = user ∧ u.recoveryKeyHash = some (.recoveryKey key)

theorem Serves.keyOf (h : Serves cfg s free ch k s' next) : ∃ owner, ∀ key user, s'.KeyOf key user →
      s.KeyOf key user ∨ (key = s.fresh ∧ user = owner ∧ s.fresh < s'.fresh) := by
  cases h.users with
  | same husers => exact ⟨0, fun key user hkey => .inl (by rwa [AuthServer.KeyOf, husers] at hkey)⟩
  | inserted husers _ _ hrecovery =>
    refine ⟨0, fun key user ⟨u, hu, hid, hkey⟩ => .inl ?_⟩
    rw [husers] at hu
    rcases mem_append.mp hu with hu | hu
    · exact ⟨u, hu, hid, hkey⟩
    · rw [mem_singleton.mp hu, hrecovery] at hkey
      cases hkey
  | @recoveryKey owner husers hfresh =>
    refine ⟨owner, fun key user ⟨u, hu, hid, hkey⟩ => ?_⟩
    rw [husers] at hu
    rcases mem_update.mp hu with ⟨v, -, hv, rfl⟩ | ⟨hu, -⟩
    · cases hkey
      exact .inr ⟨rfl, hid.symm.trans (of_decide_eq_true hv), hfresh⟩
    · exact .inl ⟨u, hu, hid, hkey⟩
  | cut _ husers hkeeps =>
    refine ⟨0, fun key user ⟨u, hu, hid, hkey⟩ => .inl ?_⟩
    rw [husers] at hu
    rcases mem_update.mp hu with ⟨v, hv, -, rfl⟩ | ⟨hu, -⟩
    · rcases hkeeps.recovery v with hsame | hnone
      · exact ⟨v, hv, (hkeeps.id v).symm.trans hid, hsame.symm.trans hkey⟩
      · rw [hnone] at hkey
        cases hkey
    · exact ⟨u, hu, hid, hkey⟩

theorem Serves.redeemed (h : Serves cfg s free ch k s' next) :
    s'.redeemed = s.redeemed ∨ ∃ key user, s'.redeemed = key :: s.redeemed ∧
      s.KeyOf key user ∧ ¬s'.KeyOf key user := by
  cases h with
  | @committed user cut revoked db h =>
    cases cut with
    | recovery email key =>
      obtain ⟨⟨u, hu, hid, hkey⟩, -, rfl⟩ := consumeRecovery_eq_ok h
      refine .inr ⟨key, user, rfl, ⟨u, hu, hid, hkey⟩, fun ⟨v, hv, hid, hkey⟩ => ?_⟩
      rcases mem_update.mp hv with ⟨w, -, -, rfl⟩ | ⟨-, hother⟩
      · cases hkey
      · simp [hid] at hother
    | _ => exact .inl rfl
  | prepared =>
    unfold AuthServer.prepared
    split <;> exact .inl rfl
  | _ => exact .inl rfl

/-- What holds of sessions, tokens and recovery keys whatever is issued. -/
structure CutsKept (s : AuthServer) : Prop where
  sessions : SessionsKept s
  users : UserKeys s
  /-- every session was opened under its account's version -/
  current : ∀ r ∈ s.db.sessions, s.Current r.userId r.basis
  /-- every access token names the version it was issued under -/
  tokens : ∀ x ∈ s.issued, x.basis = x.claims.authVersion
  /-- a key was drawn, is not redeemed yet and is of one account -/
  keys : ∀ key user, s.KeyOf key user →
    key < s.fresh ∧ key ∉ s.redeemed ∧ ∀ other, s.KeyOf key other → other = user
  drawn : ∀ key ∈ s.redeemed, key < s.fresh
  redeemed : s.redeemed.Nodup

namespace CutsKept

theorem start : CutsKept {} :=
  ⟨.start, ⟨by simp, by simp⟩, by simp, by simp, by simp [AuthServer.KeyOf], by simp, by simp⟩

section

variable (h : CutsKept s) (hserves : Serves cfg s free ch k s' next)
include h hserves

theorem current_step : ∀ r ∈ s'.db.sessions, s'.Current r.userId r.basis := by
  intro r hr
  rcases hserves.sessions.origin (h.users.step hserves) hr with
    ⟨x, hx, huser, hbasis⟩ | hnew
  · obtain ⟨u, hu, hid⟩ := List.mem_map.mp (h.sessions.owned x hx)
    have hold : r.userId < s.fresh := by
      rw [← huser, ← hid]
      exact h.users.fresh u hu
    rcases hserves.current (huser ▸ hbasis ▸ h.current x hx) hold with
      hcurrent | ⟨cut, revoked, db, -, -, rfl⟩
    · exact hcurrent
    -- the cut has deleted every session of the account
    have hkept := List.mem_filter.mp hr
    simp at hkept
  · exact hnew

theorem tokens_step : ∀ x ∈ s'.issued, x.basis = x.claims.authVersion := by
  have hnew : ∀ user version id, ∀ x ∈ (⟨⟨user, version, id⟩, version⟩ : AccessToken) ::
      s.issued, x.basis = x.claims.authVersion := by
    intro user version id x hx
    rcases mem_cons.mp hx with rfl | hx
    · rfl
    · exact h.tokens x hx
  cases hserves with
  | registered | passkeyRegistered | loggedIn | passkeyLoggedIn => exact hnew _ _ _
  | @presented token user rotation db _ _ hrotate =>
    intro x hissued
    rcases mem_append.mp hissued with hx | hx
    · cases (rotateRefreshTokenWith_eq_ok hrotate).2 with
      | @rotated r hr _ huser =>
        simp only [AuthServer.rotationToken, mem_toList, bind_eq_some_iff, map_eq_some_iff] at hx
        obtain ⟨u, hu, row, hrow, rfl⟩ := hx
        obtain ⟨hmem, hid⟩ := mem_of_user hu
        have hsame : row = r := eq_of_key h.sessions.table.ids
          (List.mem_of_find?_eq_some hrow) hr (by simpa using List.find?_some hrow)
        exact hsame ▸ h.current r hr u hmem (hid.trans huser.symm)
      | grace | reuse => cases hx
    · exact h.tokens x hx
  | prepared =>
    unfold AuthServer.prepared
    split <;> exact h.tokens
  | _ => exact h.tokens

theorem keys_step {key user : ℕ} (hkey : s'.KeyOf key user) :
    key < s'.fresh ∧ key ∉ s'.redeemed ∧ ∀ other, s'.KeyOf key other → other = user := by
  have hle := hserves.fresh_le
  obtain ⟨owner, howner⟩ := hserves.keyOf
  have hspent : ∀ key' user', s.KeyOf key' user' → ¬s'.KeyOf key' user' → key ≠ key' := by
    rintro key' user' hold hgone rfl
    rcases howner _ _ hkey with hkey' | ⟨rfl, -⟩
    · exact hgone ((h.keys _ _ hold).2.2 _ hkey' ▸ hkey)
    · exact Nat.lt_irrefl _ (h.keys _ _ hold).1
  have hunspent : key ∉ s.redeemed → key ∉ s'.redeemed := by
    intro hnot
    rcases hserves.redeemed with hsame | ⟨key', user', hredeemed, hold, hgone⟩
    · rwa [hsame]
    · rw [hredeemed, mem_cons, not_or]
      exact ⟨hspent key' user' hold hgone, hnot⟩
  rcases howner _ _ hkey with hold | ⟨rfl, rfl, hfresh⟩
  · obtain ⟨hlt, hnot, hunique⟩ := h.keys _ _ hold
    refine ⟨by omega, hunspent hnot, fun other hother => ?_⟩
    rcases howner _ _ hother with hother | ⟨rfl, -⟩
    · exact hunique other hother
    · exact absurd hlt (Nat.lt_irrefl _)
  · refine ⟨hfresh, hunspent fun hmem => Nat.lt_irrefl _ (h.drawn _ hmem), ?_⟩
    intro other hother
    rcases howner _ _ hother with hother | ⟨-, rfl, -⟩
    · exact absurd (h.keys _ _ hother).1 (Nat.lt_irrefl _)
    · rfl

theorem step : CutsKept s' := by
  have hle := hserves.fresh_le
  refine ⟨h.sessions.step hserves, h.users.step hserves, h.current_step hserves,
    h.tokens_step hserves, fun _ _ hkey => h.keys_step hserves hkey, ?_, ?_⟩
  · intro key hmem
    rcases hserves.redeemed with hsame | ⟨key', user', hredeemed, hold, -⟩
    · have := h.drawn key (hsame ▸ hmem)
      omega
    rcases mem_cons.mp (hredeemed ▸ hmem) with rfl | hmem
    · have := (h.keys _ _ hold).1
      omega
    · have := h.drawn key hmem
      omega
  · rcases hserves.redeemed with hsame | ⟨key', user', hredeemed, hold, -⟩
    · exact hsame ▸ h.redeemed
    · rw [hredeemed]
      exact h.redeemed.cons (h.keys _ _ hold).2.1

end

end CutsKept

/-! ## Invitations -/

def Operation.issues : Operation → Bool
  | .createInvite | .createRoomInvite .. => true
  | _ => false

theorem InvitesStep.origin (h : InvitesStep s s' ch k) {i : Invite} (hi : i ∈ s'.db.invites) :
    (∃ j ∈ s.db.invites, j.id = i.id ∧ j.createdBy = i.createdBy ∧ j.basis = i.basis) ∨
      ∃ claims operation, k = .authenticated claims operation ∧
        operation.issues = true ∧ i.createdBy = claims.sub ∧
        i.basis = claims.authVersion := by
  cases h with
  | deleted p h => exact .inl ⟨i, mem_of_mem_filter (h ▸ hi), rfl, rfl, rfl⟩
  | admitted _ _ h _ _ | redeemed _ _ h _ _ =>
    rw [h] at hi
    rcases mem_update.mp hi with ⟨j, hj, -, rfl⟩ | ⟨hi, -⟩
    · exact .inl ⟨j, hj, rfl, rfl, rfl⟩
    · exact .inl ⟨i, hi, rfl, rfl, rfl⟩
  | @minted claims operation j hk hoperation h _ _ hby hbasis =>
    rcases mem_cons.mp (h ▸ hi) with rfl | hi
    · refine .inr ⟨claims, operation, hk, ?_, hby, hbasis⟩
      rcases hoperation with rfl | ⟨_, _, _, rfl⟩ <;> rfl
    · exact .inl ⟨i, hi, rfl, rfl, rfl⟩

theorem Serves.opens {cut : Cut} {revoked : List ℕ}
    (h : Serves cfg s free ch k s' (some (.cutting user cut revoked))) :
    s' = s ∧ revoked = s.db.issuedInvites user := by
  cases h with
  | stays _ hnext => exact nomatch hnext _ rfl
  | opened => exact ⟨rfl, rfl⟩
  | challengeTaken _ _ hnext => exact nomatch hnext _ rfl

/-- A step that issues an invitation, whether or not it can store one, finds the version it
authenticated with, and no cut of the account under way. -/
def issuesCurrent (c : AuthState) : AuthAction → Bool
  | .start _ => true
  | .advance t _ =>
    match c.task t with
    | some (.authenticated claims operation) =>
      !operation.issues || (c.free claims.sub &&
        (c.shared.db.user claims.sub).any fun u => u.authVersion = claims.authVersion)
    | _ => true

structure IssuesKept (cfg : AuthConfig) (c : AuthState) : Prop where
  coherent : (accounts cfg).Coherent c
  server : CutsKept c.shared
  /-- every invitation was stored under its issuer's version -/
  current : ∀ i ∈ c.shared.db.invites,
    i.createdBy < c.shared.fresh ∧ c.shared.Current i.createdBy i.basis
  /-- a cut under way will delete every invitation of its account -/
  covered : ∀ t user cut revoked, c.task t = some (.cutting user cut revoked) →
    ∀ i ∈ c.shared.db.invites, i.createdBy = user → i.id ∈ revoked

namespace IssuesKept

variable {c d : AuthState} {t : ℕ} {o : Answer}

theorem start (cfg : AuthConfig) : IssuesKept cfg (begin {}) :=
  ⟨begin_coherent cfg {}, .start, by simp [begin], by simp [begin]⟩

variable {i : Invite}

theorem origin (hallowed : issuesCurrent c (.advance t ch) = true)
    (ha : (accounts cfg).Acts c t k ch o) (hi : i ∈ o.shared.db.invites) :
    (∃ j ∈ c.shared.db.invites, j.id = i.id ∧ j.createdBy = i.createdBy ∧ j.basis = i.basis) ∨
      k.guards = [] ∧ c.free i.createdBy = true ∧
        ∃ u, c.shared.db.user i.createdBy = some u ∧ u.authVersion = i.basis := by
  rcases (act_served ha.acted).2.invites.origin hi with
    hold | ⟨claims, operation, rfl, hissues, hby, hbasis⟩
  · exact .inl hold
  rw [hby, hbasis]
  simp only [issuesCurrent, ha.running, hissues, Bool.not_true, Bool.false_or,
    Bool.and_eq_true, Option.any_eq_true, decide_eq_true_eq] at hallowed
  exact .inr ⟨rfl, hallowed⟩

theorem current_step (h : IssuesKept cfg c) (hallowed : issuesCurrent c (.advance t ch) = true)
    (ha : (accounts cfg).Acts c t k ch o) (hi : i ∈ o.shared.db.invites) :
    i.createdBy < o.shared.fresh ∧ o.shared.Current i.createdBy i.basis := by
  have hserves := (act_served ha.acted).2
  have hle := hserves.fresh_le
  rcases origin hallowed ha hi with
    ⟨j, hj, hid, hby, hbasis⟩ | ⟨hguards, -, u, hu, hversion⟩
  · obtain ⟨hlt, hcurrent⟩ := h.current j hj
    rw [← hby, ← hbasis]
    refine ⟨by omega, ?_⟩
    rcases hserves.current hcurrent hlt with hkept | ⟨cut, revoked, db, rfl, -, hs'⟩
    · exact hkept
    have hrevoked := h.covered t _ cut revoked ha.running j hj rfl
    rw [hs'] at hi
    have hkept := (List.mem_filter.mp hi).2
    simp [← hid, hrevoked] at hkept
  · obtain ⟨hmem, hid⟩ := mem_of_user hu
    have hlt := h.server.users.fresh u hmem
    refine ⟨by omega, ?_⟩
    have hcurrent : c.shared.Current i.createdBy i.basis := by
      intro v hv huser
      rw [h.server.users.eq_of_user hu hv huser, hversion]
    rcases hserves.current hcurrent (by omega) with hkept | ⟨cut, revoked, db, rfl, -⟩
    · exact hkept
    · cases hguards

theorem covered_step (h : IssuesKept cfg c) (hallowed : issuesCurrent c (.advance t ch) = true)
    (ha : (accounts cfg).Acts c t k ch o) {u user : ℕ} {cut : Cut} {revoked : List ℕ}
    (htask : ((accounts cfg).apply c t k o).task u = some (.cutting user cut revoked))
    (hi : i ∈ o.shared.db.invites) (hby : i.createdBy = user) :
    i.id ∈ revoked := by
  obtain ⟨hspawned, hserves⟩ := act_served ha.acted
  rcases ((accounts cfg).task_apply h.coherent ha.running).mp htask with
    ⟨-, hself⟩ | ⟨-, hspawn⟩ | ⟨-, hother⟩
  · rw [hself] at hserves
    obtain ⟨hsame, rfl⟩ := hserves.opens
    rw [hsame] at hi
    exact List.mem_map_of_mem (List.mem_filter.mpr ⟨hi, by simpa using hby⟩)
  · rw [hspawned] at hspawn
    cases hspawn
  · rcases origin hallowed ha hi with ⟨j, hj, hid, hissuer, -⟩ | ⟨-, hfree, -⟩
    · exact hid ▸ h.covered u user cut revoked hother j hj (hissuer.trans hby)
    -- the other cut holds the row that the issuing step found free
    have hlocked := h.coherent.not_free hother (mem_singleton.mpr hby)
    rw [hfree] at hlocked
    cases hlocked

theorem step (h : IssuesKept cfg c) {a : AuthAction} (hallowed : issuesCurrent c a = true)
    (hstep : (accounts cfg).step c a = some d) : IssuesKept cfg d := by
  have hcoherent := h.coherent.step hstep
  cases a with
  | start =>
    obtain ⟨hk, rfl⟩ := (accounts cfg).step_start_eq_some.mp hstep
    refine ⟨hcoherent, h.server, h.current, fun u user cut revoked htask => ?_⟩
    rcases ((accounts cfg).task_launch h.coherent).mp htask with ⟨-, rfl⟩ | hold
    · cases hk
    · exact h.covered u user cut revoked hold
  | advance =>
    obtain ⟨k, o, ha, rfl⟩ := (accounts cfg).step_advance_eq_some.mp hstep
    exact ⟨hcoherent, h.server.step (act_served ha.acted).2,
      fun i hi => h.current_step hallowed ha hi,
      fun u user cut revoked htask i hi => h.covered_step hallowed ha htask hi⟩

end IssuesKept

/-! ## The contract -/

def Request.ceremony : Request → Option Claims
  | .authorized claims .. | .enrolling claims .. => some claims
  | _ => none

/-- What was obtained with credentials of another version than the account's is gone or
refused. -/
structure CutContract (cfg : AuthConfig) (s : AuthServer) : Prop where
  sessions : ∀ r ∈ s.db.sessions, s.Current r.userId r.basis
  refresh : ∀ {t generation token user session successor db},
    rotateRefreshTokenWith t generation token user s.db =
        .ok (.rotated user session successor, db) →
      ∃ r ∈ s.db.sessions, r.id = session ∧ r.userId = user ∧ s.Current user r.basis
  tokens : ∀ x ∈ s.issued, ∀ clock, validateCurrentClaims clock x.claims s.db = true →
    ∃ u, s.db.user x.claims.sub = some u ∧ u.authVersion = x.basis
  taken : ∀ {id user version challenge s'}, s.takeAccount id user version = some (challenge, s') →
      ∃ x ∈ s.challenges, x.id = id ∧ x.user = user ∧ x.authVersion = version ∧
        x.challenge = challenge
  ceremonies : ∀ {free k ch o claims}, k.ceremony = some claims →
    act cfg s free k ch = some o → o = ⟨s, none, none⟩ ∨
      ∃ u, s.db.user claims.sub = some u ∧ u.authVersion = claims.authVersion
  invites : ∀ i ∈ s.db.invites, s.Current i.createdBy i.basis
  recovery : s.redeemed.Nodup

theorem takeAccount_found {id : ℕ} {challenge : AccountChallenge}
    (h : s.takeAccount id user version = some (challenge, s')) :
    ∃ x ∈ s.challenges, x.id = id ∧ x.user = user ∧ x.authVersion = version ∧
      x.challenge = challenge := by
  obtain ⟨x, hx, heq⟩ := map_eq_some_iff.mp h
  obtain ⟨hfound, hmatch⟩ := filter_eq_some_iff.mp hx
  simp only [Bool.and_eq_true, decide_eq_true_eq] at hmatch
  cases heq
  exact ⟨x, List.mem_of_find?_eq_some hfound, by simpa using List.find?_some hfound,
    hmatch.1, hmatch.2, rfl⟩

/-- Under the row lock, a ceremony whose claims are out of date changes nothing. -/
theorem ceremony_current {o : Answer} {claims : Claims} (hk : k.ceremony = some claims)
    (h : act cfg s free k ch = some o) :
    o = ⟨s, none, none⟩ ∨
      ∃ u, s.db.user claims.sub = some u ∧ u.authVersion = claims.authVersion := by
  unfold act at h
  split at h
  case isFalse => exact .inl (Option.some.inj h).symm
  cases k with
  | authorized claims' action credential =>
    cases hk
    simp only [serve] at h
    split at h
    case isFalse => cases h
    split at h
    · rename_i u hlocked
      exact .inr ⟨u, lockedAccount_eq_ok.mp hlocked⟩
    · exact .inl (Option.some.inj h).symm
  | enrolling claims' replacement credential =>
    cases hk
    simp only [serve] at h
    split at h
    case isFalse => cases h
    split at h
    case isFalse => exact .inl (Option.some.inj h).symm
    cases replacement with
    | some data =>
      simp only [openCut] at h
      split at h
      · rename_i db hchange
        obtain ⟨⟨u, hu, hversion, -⟩, -⟩ := replaceCredential_eq_ok hchange
        exact .inr ⟨u, hu, hversion⟩
      · exact .inl (Option.some.inj h).symm
    | none =>
      simp only [settle] at h
      split at h
      · rename_i hadd
        exact .inr (addPasskey_eq_ok hadd).1
      · exact .inl (Option.some.inj h).symm
  | _ => cases hk

theorem IssuesKept.contract {c : AuthState} (h : IssuesKept cfg c) : CutContract cfg c.shared where
  sessions := h.server.current
  refresh := by
    intro t generation token user session successor db hrotate
    cases (rotateRefreshTokenWith_eq_ok hrotate).2 with
    | @rotated r hr _ huser => exact ⟨r, hr, rfl, huser, huser ▸ h.server.current r hr⟩
  tokens := by
    intro x hx clock hvalid
    obtain ⟨u, hu, hcurrent⟩ := (Option.any_eq_true _ _).mp hvalid
    simp only [Bool.and_eq_true, decide_eq_true_eq] at hcurrent
    exact ⟨u, hu, hcurrent.2.trans (h.server.tokens x hx).symm⟩
  taken := takeAccount_found
  ceremonies := ceremony_current
  invites := fun i hi => (h.current i hi).2
  recovery := h.server.redeemed

/-- While invitations are stored only under the version that is current and with no cut of
their issuer under way, the contract holds in every state; versions never decrease. -/
theorem credential_cuts {actions later : List AuthAction} {c d : AuthState}
    (hmeets : RunMeets (accounts cfg).step (fun c a => issuesCurrent c a = true)
      (begin {}) actions)
    (hrun : run (accounts cfg).step (begin {}) actions = some c)
    (hlater : run (accounts cfg).step c later = some d) :
    CutContract cfg c.shared ∧ ∀ u ∈ c.shared.db.users,
      ∃ v ∈ d.shared.db.users, v.id = u.id ∧ u.authVersion ≤ v.authVersion := by
  have hkept : IssuesKept cfg c := run_invariant
    (fun _ _ _ h hallowed hstep => h.step hallowed hstep) (.start cfg) hmeets hrun
  refine ⟨hkept.contract, fun u hu => ?_⟩
  have hlast : UserKeys d.shared ∧
      ∃ v ∈ d.shared.db.users, v.id = u.id ∧ u.authVersion ≤ v.authVersion :=
    run_served (P := fun s => UserKeys s ∧
        ∃ v ∈ s.db.users, v.id = u.id ∧ u.authVersion ≤ v.authVersion)
      (fun _ _ _ _ _ _ h hserves => ⟨h.1.step hserves, hserves.version_le h.1 h.2⟩)
      ⟨hkept.server.users, u, hu, rfl, Nat.le_refl _⟩ hlater
  exact hlast.2

/-! ## A code stored across a cut -/

def joins : List AuthAction :=
  request 0 (.register "a@b" "password" none) 1 (atInstant 0)

def cuts : List AuthAction :=
  request 2 (.account ⟨3, 0, 0⟩ (.changePassword "password" "new password")) 4
    (atInstant 0)

def issuesThenCuts : List AuthAction :=
  joins ++ request 1 (.account ⟨3, 0, 0⟩ .createInvite) 2 (atInstant 0) ++ cuts

theorem issuesThenCuts_contract : ∃ c,
    run (accounts openRegistration).step (begin {}) issuesThenCuts = some c ∧
      c.shared.db.users.map User.authVersion = [1] ∧ c.shared.db.invites = [] ∧
      CutContract openRegistration c.shared := by
  obtain ⟨c, hrun, hversion, hinvites⟩ : ∃ c,
      run (accounts openRegistration).step (begin {}) issuesThenCuts = some c ∧
        c.shared.db.users.map User.authVersion = [1] ∧ c.shared.db.invites = [] :=
    exists_of_any (by decide +kernel)
  exact ⟨c, hrun, hversion, hinvites, (credential_cuts (by decide +kernel) hrun (run_nil c)).1⟩

def cutsThenIssues : List AuthAction :=
  joins ++ request 1 (.account ⟨3, 0, 0⟩ .createInvite) 1 (atInstant 0) ++ cuts ++
    [.advance 1 (atInstant 0)]

theorem cutsThenIssues_redeemable : ∃ c,
    run (accounts openRegistration).step (begin {}) cutsThenIssues = some c ∧
      c.shared.db.users.map (fun u => (u.id, u.authVersion)) = [(3, 1)] ∧
      c.shared.db.sessions = [] ∧
      (c.shared.db.invites.map fun i => (i.createdBy, i.basis)) = [(3, 0)] ∧
      ∃ i ∈ c.shared.db.invites, i.opensRegistration 0 i.codeHash = true :=
  exists_of_any (by decide +kernel)

end SimplestChat.Accounts
