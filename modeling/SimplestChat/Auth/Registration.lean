import SimplestChat.Auth.Tables

/-!
# Closed registration

While registration is closed an account is created only with an invitation code. The
account limit, the use of the code and the new account are separate statements of one
transaction: either all of them are committed or none.

The invariants hold from any tables that satisfy them, so codes with any number of uses
may be there from the start.
-/

namespace SimplestChat.Accounts

open List Transition Rows AuthServer Invite

variable {cfg : AuthConfig} {s s' : AuthServer} {free : ℕ → Bool} {ch : Choice}
  {k : Request} {next : Option Request}

/-! ## What every step keeps -/

/-- Codes are distinct, and both caps hold. A code is counted as live at any time that
is not before the start of the latest transaction that created one. -/
structure RegistrationKept (cfg : AuthConfig) (s : AuthServer) : Prop where
  users : UserKeys s
  capacity : s.db.users.length ≤ cfg.maxUsers
  codes : (s.db.invites.map Invite.codeHash).Nodup
  drawn : ∀ i ∈ s.db.invites, ∃ code < s.fresh, i.codeHash = .inviteCode code
  live : ∀ user t, s.latestMint ≤ t →
    s.db.invites.countP (fun i => i.liveRegistration t user) ≤ maxLiveRegistrationInvites

theorem Invite.opensRegistration_iff {i : Invite} {now : ℕ} {code : Digest} :
    i.opensRegistration now code = true ↔
      i.kind = .registration ∧ i.codeHash = code ∧ 0 < i.usesLeft ∧ now < i.expiresAt := by
  simp [opensRegistration, and_assoc, and_comm, and_left_comm]

theorem Invite.spend_codeHash (i : Invite) : i.spend.codeHash = i.codeHash := rfl

theorem Invite.live_of_spend_live {i : Invite} {t user : ℕ}
    (h : i.spend.liveRegistration t user = true) : i.liveRegistration t user = true := by
  unfold liveRegistration spend at *
  simp only [Bool.and_eq_true, decide_eq_true_eq] at h ⊢
  refine ⟨⟨h.1.1, ?_⟩, h.2⟩
  have := h.1.2
  omega

theorem Invite.live_of_le {i : Invite} {t t' user : ℕ} (hle : t ≤ t')
    (h : i.liveRegistration t' user = true) : i.liveRegistration t user = true := by
  unfold liveRegistration at *
  simp only [Bool.and_eq_true, decide_eq_true_eq] at h ⊢
  exact ⟨h.1, Nat.lt_of_le_of_lt hle h.2⟩

namespace RegistrationKept

section

variable (h : RegistrationKept cfg s)
include h

section

variable (hserves : Serves cfg s free ch k s' next)
include hserves

theorem capacity_step : s'.db.users.length ≤ cfg.maxUsers := by
  cases hserves.users with
  | same husers => exact husers ▸ h.capacity
  | inserted husers _ _ _ hcapacity =>
    rw [husers, length_append]
    exact hcapacity
  | recoveryKey husers =>
    rw [husers, length_update]
    exact h.capacity
  | cut _ husers =>
    rw [husers, length_update]
    exact h.capacity

theorem drawn_step {i : Invite} (hi : i ∈ s.db.invites) :
    ∃ code < s'.fresh, i.codeHash = .inviteCode code := by
  obtain ⟨code, hlt, hcode⟩ := h.drawn i hi
  exact ⟨code, Nat.lt_of_lt_of_le hlt hserves.fresh_le, hcode⟩

theorem spent {p : Invite → Bool} (hinvites : s'.db.invites = update p Invite.spend s.db.invites)
    (hmint : s'.latestMint = s.latestMint) : RegistrationKept cfg s' where
  users := h.users.step hserves
  capacity := h.capacity_step hserves
  codes := by
    rw [hinvites, map_update fun i _ _ => i.spend_codeHash]
    exact h.codes
  drawn := by
    intro i hi
    rw [hinvites] at hi
    rcases mem_update.mp hi with ⟨j, hj, -, rfl⟩ | ⟨hi, -⟩
    · exact h.drawn_step (i := j) hserves hj
    · exact h.drawn_step hserves hi
  live := by
    intro user t ht
    rw [hmint] at ht
    rw [hinvites]
    refine Nat.le_trans (countP_update_le fun i _ _ hi => ?_) (h.live user t ht)
    exact live_of_spend_live hi

theorem deleted {p : Invite → Bool} (hinvites : s'.db.invites = s.db.invites.filter p)
    (hmint : s'.latestMint = s.latestMint) : RegistrationKept cfg s' where
  users := h.users.step hserves
  capacity := h.capacity_step hserves
  codes := hinvites ▸ nodup_filter h.codes
  drawn := by
    intro i hi
    rw [hinvites] at hi
    exact h.drawn_step hserves (mem_of_mem_filter hi)
  live := by
    intro user t ht
    rw [hmint] at ht
    rw [hinvites]
    exact Nat.le_trans filter_sublist.countP_le (h.live user t ht)

theorem minted {i : Invite} {creator : ℕ} (hinvites : s'.db.invites = i :: s.db.invites)
    (hcode : i.codeHash = .inviteCode (s.fresh + 1)) (hby : i.createdBy = creator)
    (hlive : i.kind = .registration →
      (s.db.invites.countP fun j => j.liveRegistration ch.now creator) <
        maxLiveRegistrationInvites) (hfresh : s'.fresh = s.fresh + 2)
    (hmint : s'.latestMint = max s.latestMint ch.now) : RegistrationKept cfg s' where
  users := h.users.step hserves
  capacity := h.capacity_step hserves
  codes := by
    rw [hinvites]
    refine nodup_cons h.codes fun j hj heq => ?_
    obtain ⟨code, hlt, hj⟩ := h.drawn j hj
    rw [hj, hcode] at heq
    cases heq
    omega
  drawn := by
    intro j hj
    rw [hinvites] at hj
    rcases mem_cons.mp hj with rfl | hj
    · exact ⟨s.fresh + 1, by omega, hcode⟩
    · exact h.drawn_step hserves hj
  live := by
    intro user t ht
    rw [hmint] at ht
    have hold : s.latestMint ≤ t := Nat.le_trans (Nat.le_max_left _ _) ht
    have hnow : ch.now ≤ t := Nat.le_trans (Nat.le_max_right _ _) ht
    rw [hinvites, countP_cons]
    split
    · rename_i hcounted
      unfold liveRegistration at hcounted
      simp only [Bool.and_eq_true, decide_eq_true_eq] at hcounted
      obtain ⟨⟨⟨hkind, huser⟩, -⟩, -⟩ := hcounted
      refine Nat.lt_of_le_of_lt ?_ (hlive hkind)
      refine countP_mono_left fun j _ hj => ?_
      rw [← hby, huser]
      exact live_of_le hnow hj
    · exact h.live user t hold

theorem step : RegistrationKept cfg s' := by
  cases hserves.invites with
  | deleted p hinvites _ hmint => exact h.deleted hserves hinvites hmint
  | admitted _ _ hinvites _ hmint => exact h.spent hserves hinvites hmint
  | redeemed _ _ hinvites _ hmint => exact h.spent hserves hinvites hmint
  | minted _ _ hinvites _ hcode hby _ _ hlive hfresh _ hmint =>
    exact h.minted hserves hinvites hcode hby hlive hfresh hmint

end

end

end RegistrationKept

/-! ## The uses of a code -/

def AuthServer.admittedWith (s : AuthServer) (code : ℕ) : ℕ :=
  s.admissions.countP fun admission => admission.2 = code

/-- What the code has admitted and may still admit is at most `uses`. -/
structure UsesBounded (cfg : AuthConfig) (code uses : ℕ) (s : AuthServer) : Prop where
  kept : RegistrationKept cfg s
  drawn : code < s.fresh
  admitted : s.admittedWith code ≤ uses
  left : ∀ i ∈ s.db.invites, i.codeHash = .inviteCode code → s.admittedWith code + i.usesLeft ≤ uses

namespace UsesBounded

variable {code uses : ℕ}

theorem opened (h : RegistrationKept cfg s) {i : Invite} (hi : i ∈ s.db.invites)
    (hcode : i.codeHash = .inviteCode code) :
    UsesBounded cfg code (s.admittedWith code + i.usesLeft) s where
  kept := h
  drawn := by
    obtain ⟨code', hlt, hdrawn⟩ := h.drawn i hi
    rw [hcode] at hdrawn
    cases hdrawn
    exact hlt
  admitted := Nat.le_add_right _ _
  left := by
    intro j hj hcode'
    rw [eq_of_key h.codes hj hi (hcode'.trans hcode.symm)]

section

variable (h : UsesBounded cfg code uses s)
include h

theorem left_of_spent {p : Invite → Bool}
    (hinvites : s'.db.invites = update p Invite.spend s.db.invites)
    (hadmitted : s'.admittedWith code = s.admittedWith code) :
    ∀ i ∈ s'.db.invites, i.codeHash = .inviteCode code →
      s'.admittedWith code + i.usesLeft ≤ uses := by
  intro i hi hcode
  rw [hinvites] at hi
  rw [hadmitted]
  rcases mem_update.mp hi with ⟨j, hj, -, rfl⟩ | ⟨hi, -⟩
  · exact Nat.le_trans (Nat.add_le_add_left (Nat.sub_le _ _) _) (h.left j hj hcode)
  · exact h.left i hi hcode

theorem left_of_admitted
    (hopen : ∃ i ∈ s.db.invites, i.opensRegistration ch.now (.inviteCode code) = true)
    (hinvites : s'.db.invites = (s.db.spendCode ch.now code).invites)
    (hadmitted : s'.admittedWith code = s.admittedWith code + 1) :
    s'.admittedWith code ≤ uses ∧ ∀ i ∈ s'.db.invites, i.codeHash = .inviteCode code →
        s'.admittedWith code + i.usesLeft ≤ uses := by
  obtain ⟨i, hi, hopen⟩ := hopen
  obtain ⟨-, hcode, hleft, -⟩ := opensRegistration_iff.mp hopen
  have hrest := h.left i hi hcode
  refine ⟨by omega, fun j hj hcode' => ?_⟩
  rw [hinvites] at hj
  rcases mem_update.mp hj with ⟨old, hold, -, rfl⟩ | ⟨hj, hclosed⟩
  · obtain rfl := eq_of_key h.kept.codes hold hi (hcode'.trans hcode.symm)
    simp only [spend]
    omega
  · obtain rfl := eq_of_key h.kept.codes hj hi (hcode'.trans hcode.symm)
    rw [hopen] at hclosed
    cases hclosed

theorem step (hserves : Serves cfg s free ch k s' next) : UsesBounded cfg code uses s' := by
  have hkept := h.kept.step hserves
  have hdrawn := Nat.lt_of_lt_of_le h.drawn hserves.fresh_le
  cases hserves.invites with
  | deleted p hinvites hadmissions =>
    have hadmitted : s'.admittedWith code = s.admittedWith code :=
      congrArg (List.countP _) hadmissions
    refine ⟨hkept, hdrawn, hadmitted ▸ h.admitted, fun i hi hcode => ?_⟩
    rw [hinvites] at hi
    rw [hadmitted]
    exact h.left i (mem_of_mem_filter hi) hcode
  | @admitted _ _ code' _ hopen hinvites hadmissions =>
    have hadmitted : s'.admittedWith code =
        s.admittedWith code + if code' = code then 1 else 0 := by
      simp [admittedWith, hadmissions, countP_cons]
    by_cases hsame : code' = code
    · subst hsame
      rw [if_pos rfl] at hadmitted
      obtain ⟨hbound, hleft⟩ := h.left_of_admitted hopen hinvites hadmitted
      exact ⟨hkept, hdrawn, hbound, hleft⟩
    · rw [if_neg hsame] at hadmitted
      exact ⟨hkept, hdrawn, hadmitted ▸ h.admitted, h.left_of_spent hinvites hadmitted⟩
  | redeemed _ _ hinvites hadmissions =>
    have hadmitted : s'.admittedWith code = s.admittedWith code :=
      congrArg (List.countP _) hadmissions
    exact ⟨hkept, hdrawn, hadmitted ▸ h.admitted, h.left_of_spent hinvites hadmitted⟩
  | minted _ _ hinvites _ hnew _ _ _ _ _ hadmissions =>
    have hadmitted : s'.admittedWith code = s.admittedWith code :=
      congrArg (List.countP _) hadmissions
    refine ⟨hkept, hdrawn, hadmitted ▸ h.admitted, fun i hi hcode => ?_⟩
    rw [hinvites] at hi
    rw [hadmitted]
    rcases mem_cons.mp hi with rfl | hi
    · rw [hnew] at hcode
      cases hcode
      exact absurd h.drawn (by omega)
    · exact h.left i hi hcode

end

end UsesBounded

/-! ## Registrations -/

theorem act_registers {o : Answer} (hk : k.registers = true) (h : act cfg s free k ch = some o) :
    o.shared = s ∨ (cfg.registrationEnabled = true ∨ ∃ code, (∃ i ∈ s.db.invites,
            i.opensRegistration ch.now (.inviteCode code) = true) ∧
          o.shared.db.invites = (s.db.spendCode ch.now code).invites) ∧
      o.shared.db.users.length = s.db.users.length + 1 := by
  unfold act at h
  split at h
  case isFalse =>
    cases h
    exact .inl rfl
  cases k with
  | register email password code =>
    simp only [serve, settle] at h
    split at h
    case isFalse => cases h
    split at h
    case h_2 =>
      cases h
      exact .inl rfl
    rename_i db hdb
    cases h
    right
    obtain ⟨u, hadmits⟩ := register_admits hdb
    refine ⟨?_, by simp [admitted, signIn, hadmits.users]⟩
    obtain ⟨hopen, -, inviter, db₁, db₂, hspend, hinsert, hcreate⟩ := register_eq_ok hdb
    obtain ⟨-, rfl⟩ := insertUser_eq_ok.mp hinsert
    obtain ⟨-, rfl⟩ := createSessionWith_eq_ok.mp hcreate
    rcases spendInviteCode_eq_ok hspend with ⟨rfl, rfl⟩ | ⟨c, rfl, hlive, rfl⟩
    · exact .inl (by simpa using hopen)
    · exact .inr ⟨c, hlive, rfl⟩
  | passkeyRegister email credential =>
    simp only [serve, settle] at h
    split at h
    case isFalse => cases h
    split at h
    case h_2 =>
      cases h
      exact .inl rfl
    rename_i hdb
    cases h
    refine .inr ⟨.inl (passkeyRegisterFinish_eq_ok hdb).1, ?_⟩
    simp [admitted, signIn, (passkeyRegisterFinish_admits hdb).users]
  | _ => cases hk

/-! ## The contract -/

/-- What holds of registrations in every state of every run. -/
structure RegistrationContract (cfg : AuthConfig) (s : AuthServer) : Prop where
  /-- while registration is closed, a step that adds an account spends exactly one use of
  one registration code that is live in its transaction -/
  invited : ∀ {free k ch o}, act cfg s free k ch = some o →
    cfg.registrationEnabled = false → o.shared.db.users.length ≠ s.db.users.length →
    ∃ i ∈ s.db.invites, i.kind = .registration ∧ 0 < i.usesLeft ∧ ch.now < i.expiresAt ∧
      o.shared.db.invites = update (fun j => j = i) Invite.spend s.db.invites
  /-- a registration that creates no account spends no use -/
  refused : ∀ {free k ch o}, k.registers = true → act cfg s free k ch = some o →
    o.shared.db.users.length = s.db.users.length → o.shared.db.invites = s.db.invites
  capacity : s.db.users.length ≤ cfg.maxUsers
  live : ∀ user t, s.latestMint ≤ t →
    s.db.invites.countP (fun i => i.liveRegistration t user) ≤ maxLiveRegistrationInvites

theorem RegistrationKept.invited (h : RegistrationKept cfg s) {o : Answer}
    (hact : act cfg s free k ch = some o) (hclosed : cfg.registrationEnabled = false)
    (hnew : o.shared.db.users.length ≠ s.db.users.length) :
    ∃ i ∈ s.db.invites, i.kind = .registration ∧ 0 < i.usesLeft ∧ ch.now < i.expiresAt ∧
      o.shared.db.invites = update (fun j => j = i) Invite.spend s.db.invites := by
  have hk : k.registers = true := by
    cases (act_served hact).2.users with
    | same husers => exact absurd (congrArg List.length husers) hnew
    | inserted _ _ _ _ _ hk => exact hk
    | recoveryKey husers => exact absurd (by rw [husers, length_update]) hnew
    | cut _ husers => exact absurd (by rw [husers, length_update]) hnew
  rcases act_registers hk hact with hsame | ⟨hopen | ⟨code, ⟨i, hi, hlive⟩, hspent⟩, -⟩
  · exact absurd (by rw [hsame]) hnew
  · rw [hclosed] at hopen
    cases hopen
  · obtain ⟨hkind, hcode, hleft, hexpiry⟩ := opensRegistration_iff.mp hlive
    refine ⟨i, hi, hkind, hleft, hexpiry, hspent.trans ?_⟩
    refine map_congr_left fun j hj => ?_
    by_cases hsame : j = i
    · subst hsame
      simp [hlive]
    have hother : j.opensRegistration ch.now (.inviteCode code) ≠ true := fun hopen =>
      hsame (eq_of_key h.codes hj hi
        ((opensRegistration_iff.mp hopen).2.1.trans hcode.symm))
    simp [hsame, hother]

theorem RegistrationKept.contract (h : RegistrationKept cfg s) : RegistrationContract cfg s where
  invited hact hclosed hnew := h.invited hact hclosed hnew
  refused := by
    intro free k ch o hk hact hsame
    rcases act_registers hk hact with hshared | ⟨-, hgrown⟩
    · rw [hshared]
    · omega
  capacity := h.capacity
  live := h.live

/-- A server begins with empty tables. -/
theorem RegistrationKept.start (cfg : AuthConfig) : RegistrationKept cfg {} where
  users := ⟨by simp, by simp⟩
  capacity := Nat.zero_le _
  codes := by simp
  drawn := by simp
  live := by simp

/-- From any tables within the limits, with any number of uses left on their codes,
registration keeps to its contract in every state, and no code admits more accounts than
it had uses. -/
theorem closed_registration {s : AuthServer} (hstart : RegistrationKept cfg s)
    {actions later : List AuthAction} {c d : AuthState}
    (hrun : run (accounts cfg).step (begin s) actions = some c)
    (hlater : run (accounts cfg).step c later = some d) :
    RegistrationContract cfg c.shared ∧
      ∀ i ∈ c.shared.db.invites, ∀ code, i.codeHash = .inviteCode code →
        d.shared.admittedWith code ≤ c.shared.admittedWith code + i.usesLeft := by
  have hkept : RegistrationKept cfg c.shared :=
    run_served (fun _ _ _ _ _ _ h hserves => h.step hserves) hstart hrun
  refine ⟨hkept.contract, fun i hi code hcode => ?_⟩
  have hbounded : UsesBounded cfg code _ d.shared :=
    run_served (fun _ _ _ _ _ _ h hserves => h.step hserves)
      (UsesBounded.opened hkept hi hcode) hlater
  exact hbounded.admitted

/-! ## A code with two uses -/

def twoUses : AuthServer where
  db :=
    { users := [⟨0, "a@b", some ⟨["password"], 1⟩, none, 0, none⟩]
      invites := [⟨2, .inviteCode 3, .registration, 0, 2, 10 * day, 0⟩] }
  fresh := 4

theorem twoUses_kept : RegistrationKept ⟨false, 10⟩ twoUses where
  users := ⟨by decide, by decide⟩
  capacity := by decide
  codes := by decide
  drawn := by
    intro i hi
    rw [mem_singleton.mp hi]
    exact ⟨3, by decide, rfl⟩
  live := fun _ _ _ => Nat.le_trans countP_le_length (by decide)

def threePresent : List AuthAction :=
  request 0 (.register "c@d" "password" (some 3)) 1 (atInstant 0) ++
    request 1 (.register "e@f" "password" (some 3)) 1 (atInstant 0) ++
    request 2 (.register "g@h" "password" (some 3)) 1 (atInstant 0)

theorem threePresent_admitted : ∃ c, run (accounts ⟨false, 10⟩).step (begin twoUses) threePresent =
        some c ∧
      c.shared.db.users.length = 3 ∧ c.shared.admittedWith 3 = 2 ∧
      RegistrationContract ⟨false, 10⟩ c.shared ∧
      c.shared.admittedWith 3 ≤ twoUses.admittedWith 3 + 2 := by
  obtain ⟨c, hrun, husers, hadmitted⟩ : ∃ c,
      run (accounts ⟨false, 10⟩).step (begin twoUses) threePresent = some c ∧
        c.shared.db.users.length = 3 ∧ c.shared.admittedWith 3 = 2 :=
    exists_of_any (by decide +kernel)
  have hidle : ∀ c, run (accounts ⟨false, 10⟩).step c [] = some c := fun _ => rfl
  have hbound := (closed_registration twoUses_kept (hidle _) hrun).2
    ⟨2, .inviteCode 3, .registration, 0, 2, 10 * day, 0⟩ (by decide) 3 rfl
  exact ⟨c, hrun, husers, hadmitted, (closed_registration twoUses_kept hrun (hidle c)).1, hbound⟩

end SimplestChat.Accounts
