import SimplestChat.Auth.Tables

/-!
# Refresh-token rotation

A session is known to its client by one refresh token at a time. All its tokens share
the secret of their family. Presenting the current token replaces it; presenting any
other token of the family revokes the session, except for the immediate predecessor
right after its rotation.

`SessionTable` is what the rows satisfy at any time. `Chronicle` relates them to the
record of all presentations: a token that was rotated away is in no row, and neither
is a family that was revoked. Both are kept by every step of every request.
-/

namespace SimplestChat.Accounts

open List Transition Rows

/-! ## The rows -/

/-- What the session rows satisfy when every ID and secret drawn so far is below
`fresh`. -/
structure SessionTable (rows : List Session) (fresh : ℕ) : Prop where
  ids : (rows.map Session.id).Nodup
  below : ∀ r ∈ rows, r.id < fresh
  families : (rows.map Session.familyHash).Nodup
  /-- a row holds the digests of one token and of its family -/
  tokens : ∀ r ∈ rows, ∃ token : RefreshToken,
    r.refreshTokenHash = .refreshToken token ∧ r.familyHash = .family token.family ∧
      token.generation < fresh ∧ token.family < fresh
  expiry : ∀ r ∈ rows, r.expiresAt ≤ r.createdAt + sessionAbsoluteLifetime

namespace SessionTable

variable {rows : List Session} {fresh : ℕ}

theorem filter (h : SessionTable rows fresh) (p : Session → Bool) :
    SessionTable (rows.filter p) fresh where
  ids := nodup_filter h.ids
  below := fun r hr => h.below r (mem_of_mem_filter hr)
  families := nodup_filter h.families
  tokens := fun r hr => h.tokens r (mem_of_mem_filter hr)
  expiry := fun r hr => h.expiry r (mem_of_mem_filter hr)

theorem mono (h : SessionTable rows fresh) {fresh' : ℕ} (hle : fresh ≤ fresh') :
    SessionTable rows fresh' where
  ids := h.ids
  below := fun r hr => Nat.lt_of_lt_of_le (h.below r hr) hle
  families := h.families
  tokens := by
    intro r hr
    obtain ⟨token, htoken, hfamily, hgeneration, hsecret⟩ := h.tokens r hr
    exact ⟨token, htoken, hfamily, Nat.lt_of_lt_of_le hgeneration hle,
      Nat.lt_of_lt_of_le hsecret hle⟩
  expiry := h.expiry

variable {r : Session}

section

variable (h : SessionTable rows fresh)
include h

theorem family_of_token (hr : r ∈ rows) {token : RefreshToken}
    (htoken : r.refreshTokenHash = .refreshToken token) :
    r.familyHash = .family token.family ∧ token.generation < fresh ∧ token.family < fresh := by
  obtain ⟨token', htoken', hfamily, hgeneration, hsecret⟩ := h.tokens r hr
  rw [htoken] at htoken'
  cases htoken'
  exact ⟨hfamily, hgeneration, hsecret⟩

theorem family_lt (hr : r ∈ rows) {secret : ℕ} (hfamily : r.familyHash = .family secret) :
    secret < fresh := by
  obtain ⟨token, -, hfamily', -, hsecret⟩ := h.tokens r hr
  rw [hfamily] at hfamily'
  cases hfamily'
  exact hsecret

theorem eq_of_family {r' : Session} (hr : r ∈ rows) (hr' : r' ∈ rows)
    (hfamily : r.familyHash = r'.familyHash) : r = r' :=
  eq_of_key h.families hr hr' hfamily

theorem eq_of_id {r' : Session} (hr : r ∈ rows) (hr' : r' ∈ rows) (hid : r.id = r'.id) : r = r' :=
  eq_of_key h.ids hr hr' hid

theorem cons (new : NewSession) (hid : new.id = fresh)
    (htoken : new.token = ⟨fresh + 1, fresh + 2⟩) (user basis : ℕ)
    (htimely : new.clock ≤ new.now + signInLimit) :
    SessionTable (new.row user basis :: rows) (fresh + 5) where
  ids := by
    refine nodup_cons h.ids fun r hr heq => ?_
    have hbelow := h.below r hr
    rw [heq] at hbelow
    exact absurd hid (Nat.ne_of_lt hbelow)
  below := by
    intro r hr
    rcases mem_cons.mp hr with rfl | hr
    · change new.id < fresh + 5
      omega
    · exact Nat.lt_of_lt_of_le (h.below r hr) (Nat.le_add_right _ _)
  families := by
    refine nodup_cons h.families fun r hr heq => ?_
    have hlt := h.family_lt hr heq
    rw [htoken] at hlt
    exact absurd hlt (Nat.not_lt.mpr (Nat.le_add_right _ _))
  tokens := by
    intro r hr
    rcases mem_cons.mp hr with rfl | hr
    · refine ⟨new.token, rfl, rfl, ?_, ?_⟩
      · rw [htoken]
        exact Nat.add_lt_add_left (by decide) fresh
      · rw [htoken]
        exact Nat.add_lt_add_left (by decide) fresh
    · exact (h.mono (Nat.le_add_right _ _)).tokens r hr
  expiry := by
    intro r hr
    rcases mem_cons.mp hr with rfl | hr
    · have hlimit : signInLimit + sessionLifetime ≤ sessionAbsoluteLifetime := by decide
      change new.clock + sessionLifetime ≤ new.now + sessionAbsoluteLifetime
      omega
    · exact h.expiry r hr

theorem rotate (hr : r ∈ rows) {token : RefreshToken}
    (htoken : r.refreshTokenHash = .refreshToken token) (clock : ℕ) :
    SessionTable (update (fun x => x.id = r.id)
      (fun x => x.rotate ⟨fresh, token.family⟩ token clock) rows) (fresh + 1) := by
  obtain ⟨hfamily, -, hsecret⟩ := h.family_of_token hr htoken
  have hrow : ∀ x ∈ rows, decide (x.id = r.id) = true → x = r := by
    intro x hx hid
    exact h.eq_of_id hx hr (of_decide_eq_true hid)
  have hids : (update (fun x => x.id = r.id)
      (fun x => x.rotate ⟨fresh, token.family⟩ token clock) rows).map Session.id =
        rows.map Session.id :=
    map_update fun x _ _ => rfl
  have hfamilies : (update (fun x => x.id = r.id)
      (fun x => x.rotate ⟨fresh, token.family⟩ token clock) rows).map
        Session.familyHash = rows.map Session.familyHash := by
    refine map_update fun x hx hid => ?_
    rw [hrow x hx hid]
    exact hfamily.symm
  constructor
  · rw [hids]
    exact h.ids
  · intro x hx
    rcases mem_update.mp hx with ⟨y, hy, -, rfl⟩ | ⟨hx, -⟩
    · exact Nat.lt_succ_of_lt (h.below y hy)
    · exact Nat.lt_succ_of_lt (h.below x hx)
  · rw [hfamilies]
    exact h.families
  · intro x hx
    rcases mem_update.mp hx with ⟨y, hy, -, rfl⟩ | ⟨hx, -⟩
    · exact ⟨⟨fresh, token.family⟩, rfl, rfl, Nat.lt_succ_self fresh, Nat.lt_succ_of_lt hsecret⟩
    · exact (h.mono (Nat.le_succ fresh)).tokens x hx
  · intro x hx
    rcases mem_update.mp hx with ⟨y, hy, -, rfl⟩ | ⟨hx, -⟩
    · exact Nat.min_le_right _ _
    · exact h.expiry x hx

end

end SessionTable

/-! ## The session cap -/

def SessionsCapped (rows : List Session) : Prop :=
  ∀ user, rows.countP (fun r => r.userId = user) ≤ maxActiveSessionsPerUser

variable {rows : List Session}

theorem SessionsCapped.filter (h : SessionsCapped rows)
    (p : Session → Bool) : SessionsCapped (rows.filter p) :=
  fun user => Nat.le_trans (filter_sublist.countP_le) (h user)

theorem mem_trimSessions {now user new : ℕ} {r : Session}
    (hr : r ∈ rows) (hid : r.id = new) : r ∈ trimSessions now user new rows := by
  unfold trimSessions
  rw [mem_filter]
  exact ⟨hr, by simp [hid]⟩

theorem trimmed_others_le (now user new : ℕ) (rows : List Session) :
    (trimSessions now user new rows).countP
      (fun r => r.userId = user && r.id ≠ new) ≤ maxActiveSessionsPerUser - 1 := by
  let others := rows.filter fun r => r.userId = user && r.id ≠ new && r.live now
  have hkept := length_kept_le Session.id
    (perm_insertionSort (fun a b : Session => a.precedes b) others)
    (maxActiveSessionsPerUser - 1)
  refine Nat.le_trans (Nat.le_of_eq ?_) hkept
  rw [countP_eq_length_filter]
  unfold trimSessions surplusSessions
  rw [filter_filter, filter_filter]
  congr 1
  apply filter_congr
  intro r _
  by_cases huser : r.userId = user
  · by_cases hnew : r.id = new
    · simp [hnew]
    by_cases hlive : r.live now = true
    · simp [huser, hnew, hlive, others]
    · simp [huser, hnew, hlive]
  · simp [huser]

theorem trimSessions_capped {now user : ℕ} {r : Session} (h : SessionsCapped rows)
    (hids : ((r :: rows).map Session.id).Nodup) (huser : r.userId = user) :
    SessionsCapped (trimSessions now user r.id (r :: rows)) := by
  intro account
  by_cases haccount : account = user
  · subst haccount
    have hothers := trimmed_others_le now account r.id (r :: rows)
    have hnew : (trimSessions now account r.id (r :: rows)).countP (fun x => x.id = r.id) ≤ 1 :=
      countP_key_le_one (nodup_filter hids) r.id
    have hsplit : (trimSessions now account r.id (r :: rows)).countP
        (fun x => x.userId = account) ≤ (trimSessions now account r.id (r :: rows)).countP
            (fun x => x.userId = account && x.id ≠ r.id) +
          (trimSessions now account r.id (r :: rows)).countP (fun x => x.id = r.id) := by
      refine countP_le_add fun x _ hx => ?_
      by_cases hid : x.id = r.id
      · exact .inr (by simpa using hid)
      · exact .inl (by simpa [hid] using hx)
    have hcap : maxActiveSessionsPerUser - 1 + 1 = maxActiveSessionsPerUser := rfl
    omega
  · calc
      (trimSessions now user r.id (r :: rows)).countP (fun x => x.userId = account)
          ≤ (r :: rows).countP (fun x => x.userId = account) :=
        filter_sublist.countP_le
      _ = rows.countP (fun x => x.userId = account) := by
        rw [countP_cons_of_neg]
        simpa [huser] using Ne.symm haccount
      _ ≤ maxActiveSessionsPerUser := h account

/-! ## The record of presentations -/

def RefreshRotation.isRotated : RefreshRotation → Bool
  | .rotated .. => true
  | _ => false

def rotatedTokens (presentations : List Presentation) : List RefreshToken :=
  (presentations.filter fun x => x.outcome.isRotated).map Presentation.token

/-- How the rows relate to what was presented before. -/
structure Chronicle (presentations : List Presentation)
    (rows : List Session) (fresh : ℕ) : Prop where
  /-- a token that rotated its session is drawn, and no row has it -/
  spent : ∀ token ∈ rotatedTokens presentations,
    (token.generation < fresh ∧ token.family < fresh) ∧
      ∀ r ∈ rows, r.refreshTokenHash ≠ .refreshToken token
  once : (rotatedTokens presentations).Nodup
  /-- the family of a detected reuse is drawn, and no row has it -/
  revoked : ∀ x ∈ presentations, x.outcome = .reuseDetected → x.token.family < fresh ∧
    ∀ r ∈ rows, r.familyHash ≠ .family x.token.family
  /-- nothing of a family rotates after a detected reuse -/
  closed : presentations.Pairwise fun newer older =>
    older.outcome = .reuseDetected → newer.outcome.isRotated = true →
      newer.token.family ≠ older.token.family

namespace Chronicle

variable {presentations : List Presentation}
  {rows rows' : List Session} {fresh fresh' : ℕ}

theorem empty (rows : List Session) (fresh : ℕ) : Chronicle [] rows fresh where
  spent := by simp [rotatedTokens]
  once := by simp [rotatedTokens]
  revoked := by simp
  closed := List.Pairwise.nil

section

variable (h : Chronicle presentations rows fresh)
include h

theorem rows_change (hle : fresh ≤ fresh') (htoken : ∀ r ∈ rows', r ∈ rows ∨
      ∃ generation family, fresh ≤ generation ∧
        r.refreshTokenHash = .refreshToken ⟨generation, family⟩)
    (hfamily : ∀ r ∈ rows', (∃ x ∈ rows, x.familyHash = r.familyHash) ∨
      ∃ family, fresh ≤ family ∧ r.familyHash = .family family) :
    Chronicle presentations rows' fresh' where
  spent := by
    intro token htokens
    obtain ⟨⟨hgeneration, hsecret⟩, habsent⟩ := h.spent token htokens
    refine ⟨⟨Nat.lt_of_lt_of_le hgeneration hle, Nat.lt_of_lt_of_le hsecret hle⟩,
      fun r hr heq => ?_⟩
    rcases htoken r hr with hold | ⟨generation, family, hnew, hhash⟩
    · exact habsent r hold heq
    rw [heq] at hhash
    cases hhash
    exact absurd hgeneration (Nat.not_lt.mpr hnew)
  once := h.once
  revoked := by
    intro x hx hreuse
    obtain ⟨hsecret, habsent⟩ := h.revoked x hx hreuse
    refine ⟨Nat.lt_of_lt_of_le hsecret hle, fun r hr heq => ?_⟩
    rcases hfamily r hr with ⟨y, hy, hsame⟩ | ⟨family, hnew, hhash⟩
    · exact habsent y hy (hsame.trans heq)
    rw [heq] at hhash
    cases hhash
    exact absurd hsecret (Nat.not_lt.mpr hnew)
  closed := h.closed

theorem subset (hle : fresh ≤ fresh') (hrows : ∀ r ∈ rows', r ∈ rows) :
    Chronicle presentations rows' fresh' :=
  h.rows_change hle (fun r hr => .inl (hrows r hr))
    fun r hr => .inl ⟨r, hrows r hr, rfl⟩

theorem grace (token : RefreshToken) (clock : ℕ) :
    Chronicle (⟨token, .concurrentRequest, clock⟩ :: presentations) rows fresh where
  spent := h.spent
  once := h.once
  revoked := by
    intro x hx hreuse
    rcases mem_cons.mp hx with rfl | hx
    · cases hreuse
    · exact h.revoked x hx hreuse
  closed := pairwise_cons.mpr ⟨fun _ _ _ => nofun, h.closed⟩

/-- The family of the presented token has no row any more. -/
theorem reuse {token : RefreshToken} {clock : ℕ} (hsecret : token.family < fresh)
    (habsent : ∀ r ∈ rows, r.familyHash ≠ .family token.family) :
    Chronicle (⟨token, .reuseDetected, clock⟩ :: presentations) rows fresh where
  spent := h.spent
  once := h.once
  revoked := by
    intro x hx hreuse
    rcases mem_cons.mp hx with rfl | hx
    · exact ⟨hsecret, habsent⟩
    · exact h.revoked x hx hreuse
  closed := pairwise_cons.mpr ⟨fun _ _ _ => nofun, h.closed⟩

theorem rotated {token successor : RefreshToken} {user session clock : ℕ}
    (hdrawn : token.generation < fresh ∧ token.family < fresh)
    (habsent : ∀ r ∈ rows, r.refreshTokenHash ≠ .refreshToken token)
    (hfirst : token ∉ rotatedTokens presentations)
    (hopen : ∀ x ∈ presentations, x.outcome = .reuseDetected → token.family ≠ x.token.family) :
    Chronicle (⟨token, .rotated user session successor, clock⟩ :: presentations) rows fresh where
  spent := by
    intro t ht
    rcases mem_cons.mp ht with rfl | ht
    · exact ⟨hdrawn, habsent⟩
    · exact h.spent t ht
  once := nodup_cons.mpr ⟨hfirst, h.once⟩
  revoked := by
    intro x hx hreuse
    rcases mem_cons.mp hx with rfl | hx
    · cases hreuse
    · exact h.revoked x hx hreuse
  closed := pairwise_cons.mpr ⟨fun x hx hreuse _ => hopen x hx hreuse, h.closed⟩

end

end Chronicle

/-- The latest rotation of a family in the record. -/
def lastRotation (presentations : List Presentation) (family : ℕ) : Option Presentation :=
  presentations.find? fun x => x.outcome.isRotated && x.token.family = family

/-- A row knows the latest rotation of its family and when it was. -/
def Tied (presentations : List Presentation) (rows : List Session) : Prop :=
  ∀ r ∈ rows, ∀ family, r.familyHash = .family family →
    r.previousHash = (lastRotation presentations family).map (fun x => .refreshToken x.token) ∧
      r.rotatedAt = (lastRotation presentations family).map Presentation.clock

theorem lastRotation_cons (x : Presentation) (presentations : List Presentation) (family : ℕ) :
    lastRotation (x :: presentations) family =
      if x.outcome.isRotated = true ∧ x.token.family = family then some x
      else lastRotation presentations family := by
  unfold lastRotation
  rw [find?_cons]
  by_cases hx : x.outcome.isRotated = true ∧ x.token.family = family
  · simp [hx]
  · rw [if_neg hx]
    simp only [not_and] at hx
    cases hrotated : x.outcome.isRotated <;> simp_all

/-! ## What every step keeps -/

structure SessionsKept (s : AuthServer) : Prop where
  table : SessionTable s.db.sessions s.fresh
  capped : SessionsCapped s.db.sessions
  owned : ∀ r ∈ s.db.sessions, r.userId ∈ s.db.users.map User.id
  chronicle : Chronicle s.presentations s.db.sessions s.fresh
  tied : Tied s.presentations s.db.sessions

namespace SessionsKept

variable {cfg : AuthConfig} {s s' : AuthServer} {free : ℕ → Bool} {ch : Choice}
  {k : Request} {next : Option Request}

theorem start : SessionsKept {} where
  table := by constructor <;> simp
  capped := fun _ => Nat.zero_le _
  owned := by simp
  chronicle := Chronicle.empty [] 0
  tied := nofun

theorem deleted (h : SessionsKept s) (hserves : Serves cfg s free ch k s' next)
    {p : Session → Bool} (hrows : s'.db.sessions = s.db.sessions.filter p)
    (hpresentations : s'.presentations = s.presentations) : SessionsKept s' where
  table := hrows ▸ (h.table.filter p).mono hserves.fresh_le
  capped := hrows ▸ h.capped.filter p
  owned := by
    intro r hr
    rw [hrows] at hr
    exact hserves.user_ids (h.owned r (mem_of_mem_filter hr))
  chronicle := by
    rw [hpresentations, hrows]
    exact h.chronicle.subset hserves.fresh_le fun r hr => mem_of_mem_filter hr
  tied := by
    rw [hpresentations, hrows]
    exact fun r hr => h.tied r (mem_of_mem_filter hr)

theorem created (h : SessionsKept s) (hserves : Serves cfg s free ch k s' next)
    {user : ℕ} {u : User} (htimely : ch.timely = true)
    (hrows : s'.db.sessions = trimSessions ch.now user s.fresh
      ((s.newSession ch).row user u.authVersion :: s.db.sessions))
    (hu : s'.db.user user = some u) (hfresh : s'.fresh = s.fresh + 5)
    (hpresentations : s'.presentations = s.presentations) : SessionsKept s' := by
  have hlimit : ch.clock ≤ ch.now + signInLimit := by
    unfold Choice.timely at htimely
    simp only [Bool.and_eq_true, decide_eq_true_eq] at htimely
    exact htimely.2
  have htable := h.table.cons (s.newSession ch) rfl rfl user u.authVersion hlimit
  constructor
  · rw [hrows, hfresh]
    exact htable.filter _
  · rw [hrows]
    exact trimSessions_capped h.capped htable.ids rfl
  · intro r hr
    rw [hrows] at hr
    rcases mem_cons.mp (mem_of_mem_filter hr) with rfl | hr
    · obtain ⟨hmem, hid⟩ := mem_of_user hu
      exact mem_map.mpr ⟨u, hmem, hid⟩
    · exact hserves.user_ids (h.owned r hr)
  · rw [hpresentations, hrows, hfresh]
    refine h.chronicle.rows_change (Nat.le_add_right _ _) ?_ ?_
    · intro r hr
      rcases mem_cons.mp (mem_of_mem_filter hr) with rfl | hr
      · exact .inr ⟨s.fresh + 1, s.fresh + 2, Nat.le_add_right _ _, rfl⟩
      · exact .inl hr
    · intro r hr
      rcases mem_cons.mp (mem_of_mem_filter hr) with rfl | hr
      · exact .inr ⟨s.fresh + 2, Nat.le_add_right _ _, rfl⟩
      · exact .inl ⟨r, hr, rfl⟩
  · rw [hpresentations, hrows]
    intro r hr family hfamily
    rcases mem_cons.mp (mem_of_mem_filter hr) with rfl | hr
    · -- nothing of the new family was presented before
      have hnone : lastRotation s.presentations family = none := by
        refine find?_eq_none.mpr fun x hx hrotated => ?_
        simp only [Bool.and_eq_true, decide_eq_true_eq] at hrotated
        have hdrawn := (h.chronicle.spent x.token
          (mem_map.mpr ⟨x, mem_filter.mpr ⟨hx, hrotated.1⟩, rfl⟩)).1.2
        cases hfamily
        rw [hrotated.2] at hdrawn
        exact absurd hdrawn (Nat.not_lt.mpr (Nat.le_add_right _ _))
      rw [hnone]
      exact ⟨rfl, rfl⟩
    · exact h.tied r hr family hfamily

variable {token : RefreshToken}

theorem current (h : SessionsKept s) {r : Session} (hr : r ∈ s.db.sessions)
    (htoken : r.refreshTokenHash = .refreshToken token) :
    token ∉ rotatedTokens s.presentations ∧
      ∀ x ∈ s.presentations, x.outcome = .reuseDetected → token.family ≠ x.token.family := by
  constructor
  · intro hspent
    exact (h.chronicle.spent token hspent).2 r hr htoken
  intro x hx hreuse heq
  obtain ⟨hfamily, -, -⟩ := h.table.family_of_token hr htoken
  exact (h.chronicle.revoked x hx hreuse).2 r hr (heq ▸ hfamily)

theorem rotated_away {rows : List Session} {fresh : ℕ} (h : SessionTable rows fresh)
    {r : Session} (hr : r ∈ rows) (htoken : r.refreshTokenHash = .refreshToken token)
    (clock : ℕ) :
    ∀ x ∈ update (fun x => x.id = r.id)
      (fun x => x.rotate ⟨fresh, token.family⟩ token clock) rows,
      x.refreshTokenHash ≠ .refreshToken token := by
  obtain ⟨hfamily, hgeneration, -⟩ := h.family_of_token hr htoken
  intro x hx heq
  rcases mem_update.mp hx with ⟨y, -, -, rfl⟩ | ⟨hx, hid⟩
  · have hsame : (⟨fresh, token.family⟩ : RefreshToken) = token := by
      simpa [Session.rotate] using heq
    rw [← hsame] at hgeneration
    exact Nat.lt_irrefl _ hgeneration
  · have hsame := h.eq_of_family hx hr ((h.family_of_token hx heq).1.trans hfamily.symm)
    rw [hsame] at hid
    simp at hid

theorem presented (h : SessionsKept s) {user : ℕ} {rotation : RefreshRotation} {db : Database}
    (hrotates : Rotates ch.rotation s.fresh token user s.db rotation db) :
    SessionsKept (s.present token rotation ch.updateClock db) := by
  have htied : rotation.isRotated = false → Tied
      (s.present token rotation ch.updateClock db).presentations s.db.sessions := by
    intro hnot r hr family hfamily
    have hsame : lastRotation (s.present token rotation ch.updateClock db).presentations family =
        lastRotation s.presentations family :=
      (lastRotation_cons _ _ family).trans (if_neg (by simp [hnot]))
    rw [hsame]
    exact h.tied r hr family hfamily
  cases hrotates with
  | @rotated r hr htoken huser hlive hfamily =>
    obtain ⟨hfirst, hopen⟩ := h.current hr htoken
    obtain ⟨-, hgeneration, hsecret⟩ := h.table.family_of_token hr htoken
    constructor
    · exact h.table.rotate hr htoken ch.rotation.update
    · intro account
      refine Nat.le_trans (Nat.le_of_eq ?_) (h.capped account)
      exact countP_update fun x _ _ => rfl
    · intro x hx
      rcases mem_update.mp hx with ⟨y, hy, -, rfl⟩ | ⟨hx, -⟩
      · exact h.owned y hy
      · exact h.owned x hx
    · refine Chronicle.rotated ?_ ⟨Nat.lt_succ_of_lt hgeneration, Nat.lt_succ_of_lt hsecret⟩
        (rotated_away h.table hr htoken ch.rotation.update) hfirst hopen
      refine h.chronicle.rows_change (Nat.le_succ _) ?_ ?_
      · intro x hx
        rcases mem_update.mp hx with ⟨y, hy, -, rfl⟩ | ⟨hx, -⟩
        · exact .inr ⟨s.fresh, token.family, Nat.le_refl _, rfl⟩
        · exact .inl hx
      · intro x hx
        rcases mem_update.mp hx with ⟨y, hy, -, rfl⟩ | ⟨hx, -⟩
        · exact .inl ⟨r, hr, hfamily⟩
        · exact .inl ⟨x, hx, rfl⟩
    · intro x hx family hx'
      refine (lastRotation_cons _ s.presentations family).symm ▸ ?_
      rcases mem_update.mp hx with ⟨y, hy, -, rfl⟩ | ⟨hx, hid⟩
      · cases hx'
        rw [if_pos ⟨rfl, rfl⟩]
        exact ⟨rfl, rfl⟩
      · rw [if_neg]
        · exact h.tied x hx family hx'
        rintro ⟨-, rfl⟩
        rw [h.table.eq_of_family hx hr (hx'.trans hfamily.symm)] at hid
        simp at hid
  | grace hr =>
    exact ⟨h.table.mono (Nat.le_succ _), h.capped, h.owned,
      (h.chronicle.subset (Nat.le_succ _) fun _ hr => hr).grace token _, htied rfl⟩
  | @reuse r hr hfamily =>
    refine ⟨(h.table.filter _).mono (Nat.le_succ _), h.capped.filter _, ?_, ?_,
      fun x hx => htied rfl x (mem_of_mem_filter hx)⟩
    · intro x hx
      exact h.owned x (mem_of_mem_filter hx)
    refine (h.chronicle.subset (Nat.le_succ _) fun x hx =>
      mem_of_mem_filter hx).reuse
        (Nat.lt_succ_of_lt (h.table.family_lt hr hfamily)) ?_
    intro x hx heq
    obtain ⟨hx, hid⟩ := mem_filter.mp hx
    have hsame := h.table.eq_of_family hx hr (heq.trans hfamily.symm)
    simp [hsame] at hid

theorem step (h : SessionsKept s) (hserves : Serves cfg s free ch k s' next) : SessionsKept s' := by
  cases hserves.sessions with
  | deleted p hrows hpresentations => exact h.deleted hserves hrows hpresentations
  | created htimely hrows hu hfresh hpresentations =>
    exact h.created hserves htimely hrows hu hfresh hpresentations
  | presented hk hrotates hs' => exact hs' ▸ h.presented hrotates

end SessionsKept

/-! ## The contract -/

def CanRotate (db : Database) (token : RefreshToken) (session : ℕ) : Prop :=
  ∃ t generation user successor db', rotateRefreshTokenWith t generation token user db =
    .ok (.rotated user session successor, db')

/-- Another token of a live session's family is presented. -/
structure Replayed (r : Session) (token : RefreshToken) (ch : Choice) : Prop where
  family : r.familyHash = .family token.family
  other : r.refreshTokenHash ≠ .refreshToken token
  live : r.live ch.familyClock = true

/-- By the record, the token was the last of its family to be rotated away, less than two
seconds ago. -/
def JustRotated (s : AuthServer) (token : RefreshToken) (clock : ℕ) : Prop :=
  ∃ x, lastRotation s.presentations token.family = some x ∧ x.token = token ∧
    clock < x.clock + 2 * second

/-- What holds of refresh tokens in every state of every run. -/
structure RotationContract (cfg : AuthConfig) (s : AuthServer) : Prop where
  once : (rotatedTokens s.presentations).Nodup
  sole : ∀ token token' session,
    CanRotate s.db token session → CanRotate s.db token' session → token = token'
  /-- a lookup while the session is live finds its account -/
  found : ∀ r ∈ s.db.sessions, ∀ token : RefreshToken, ∀ clock,
    r.familyHash = .family token.family → r.live clock = true →
      candidateUser clock token s.db = some r.userId
  /-- once the account row is free, the session goes with the whole family, unless the
  token is the immediate predecessor in its grace -/
  replay : ∀ r ∈ s.db.sessions, ∀ token ch free, Replayed r token ch →
    ¬ JustRotated s token ch.familyClock →
    free r.userId = true → ch.proceeds = true → ch.ordered = true →
      ∃ s', act cfg s free (.rotating token r.userId) ch = some ⟨s', none, none⟩ ∧
        ∀ x ∈ s'.db.sessions, x.familyHash ≠ .family token.family
  /-- in the record, latest first, nothing of a family rotates after its reuse -/
  closed : s.presentations.Pairwise fun newer older =>
    older.outcome = .reuseDetected → newer.outcome.isRotated = true →
      newer.token.family ≠ older.token.family
  /-- the predecessor in its grace is told of the concurrent request, and nothing else -/
  grace : ∀ r ∈ s.db.sessions, ∀ token ch free, Replayed r token ch →
    JustRotated s token ch.familyClock →
    free r.userId = true → ch.proceeds = true → ch.ordered = true →
      ∃ s' x, act cfg s free (.rotating token r.userId) ch = some ⟨s', none, none⟩ ∧
        s'.presentations = x :: s.presentations ∧ x.outcome = .concurrentRequest ∧
        s'.db = s.db ∧ s'.issued = s.issued
  expiry : ∀ r ∈ s.db.sessions, r.expiresAt ≤ r.createdAt + sessionAbsoluteLifetime
  capped : ∀ user, s.db.sessions.countP (fun r => r.userId = user) ≤ maxActiveSessionsPerUser
  kept : ∀ new user basis db, createSessionWith new user basis s.db = .ok db →
    new.row user basis ∈ db.sessions

namespace SessionsKept

variable {cfg : AuthConfig} {s : AuthServer}

variable {token : RefreshToken}

theorem token_of_canRotate {session : ℕ} (h : CanRotate s.db token session) :
    ∃ r ∈ s.db.sessions, r.id = session ∧ r.refreshTokenHash = .refreshToken token := by
  obtain ⟨t, generation, user, successor, db', h⟩ := h
  cases (rotateRefreshTokenWith_eq_ok h).2 with
  | rotated hr htoken => exact ⟨_, hr, rfl, htoken⟩

theorem sole (h : SessionsKept s) {token' : RefreshToken} {session : ℕ}
    (hcan : CanRotate s.db token session) (hcan' : CanRotate s.db token' session) :
    token = token' := by
  obtain ⟨r, hr, hid, htoken⟩ := token_of_canRotate hcan
  obtain ⟨r', hr', hid', htoken'⟩ := token_of_canRotate hcan'
  have hrow := h.table.eq_of_id hr hr' (hid.trans hid'.symm)
  rw [hrow, htoken'] at htoken
  cases htoken
  rfl

variable {r : Session}

section

variable (h : SessionsKept s)
include h

theorem row_of_token {x : Session} (hr : r ∈ s.db.sessions)
    (hfamily : r.familyHash = .family token.family) (hx : x ∈ s.db.sessions)
    (htoken : x.refreshTokenHash = .refreshToken token) : x = r :=
  h.table.eq_of_family hx hr ((h.table.family_of_token hx htoken).1.trans hfamily.symm)

theorem found {clock : ℕ} (hr : r ∈ s.db.sessions)
    (hfamily : r.familyHash = .family token.family) (hlive : r.live clock = true) :
    candidateUser clock token s.db = some r.userId := by
  have hmem : r ∈ s.db.sessions.filter fun x => x.live clock := mem_filter.mpr ⟨hr, hlive⟩
  unfold candidateUser
  cases hcurrent : (s.db.sessions.filter fun x => x.live clock).find?
      (fun x => x.refreshTokenHash = .refreshToken token) with
  | some x =>
    have hx := mem_of_mem_filter (mem_of_find?_eq_some hcurrent)
    have htoken := find?_some hcurrent
    rw [h.row_of_token hr hfamily hx (by simpa using htoken)] at hcurrent
    simp [hcurrent]
  | none =>
    cases hfind : (s.db.sessions.filter fun x => x.live clock).find?
        (fun x => x.familyHash = .family token.family) with
    | none =>
      have := find?_eq_none.mp hfind r hmem
      simp [hfamily] at this
    | some x =>
      have hx := mem_of_mem_filter (mem_of_find?_eq_some hfind)
      have hsame := find?_some hfind
      have hrow := h.table.eq_of_family hx hr
        ((by simpa using hsame : x.familyHash = _).trans hfamily.symm)
      simp [hcurrent, hfind, hrow]

theorem lookups {ch : Choice} (hr : r ∈ s.db.sessions) (hreplayed : Replayed r token ch) :
    (∃ u, s.db.user r.userId = some u) ∧ s.db.currentSession ch.clock token r.userId = none ∧
      s.db.familySession ch.familyClock token r.userId = some r := by
  refine ⟨?_, ?_, ?_⟩
  · obtain ⟨u, hu, hid⟩ := mem_map.mp (h.owned r hr)
    cases hfind : s.db.user r.userId with
    | some v => exact ⟨v, rfl⟩
    | none =>
      have := find?_eq_none.mp hfind u hu
      simp [hid] at this
  · cases hfind : s.db.currentSession ch.clock token r.userId with
    | none => rfl
    | some =>
      obtain ⟨hx, htoken, -, -⟩ := currentSession_eq_some hfind
      have hrow := h.row_of_token hr hreplayed.family hx htoken
      exact absurd (hrow ▸ htoken) hreplayed.other
  · cases hfind : s.db.familySession ch.familyClock token r.userId with
    | none =>
      have := find?_eq_none.mp hfind r hr
      simp [hreplayed.family, hreplayed.live] at this
    | some =>
      obtain ⟨hx, hfamily, -, -⟩ := familySession_eq_some hfind
      rw [h.table.eq_of_family hx hr (hfamily.trans hreplayed.family.symm)]

/-- The row and the record say the same of the predecessor's age. For any grace: with the
number in place the kernel would count it down. -/
theorem previous_within_iff (hr : r ∈ s.db.sessions)
    (hfamily : r.familyHash = .family token.family) (clock grace : ℕ) :
    (r.previousHash = some (.refreshToken token) &&
      r.rotatedAt.any fun rotated => clock < rotated + grace) = true ↔
    ∃ x, lastRotation s.presentations token.family = some x ∧ x.token = token ∧
      clock < x.clock + grace := by
  obtain ⟨hprevious, hrotated⟩ := h.tied r hr token.family hfamily
  rw [hprevious, hrotated]
  cases lastRotation s.presentations token.family with
  | none => simp
  | some x => simp

theorem inGrace_iff (hr : r ∈ s.db.sessions) (hfamily : r.familyHash = .family token.family)
    (clock : ℕ) : r.inGrace token clock = true ↔ JustRotated s token clock :=
  h.previous_within_iff hr hfamily clock concurrentRefreshGrace

theorem replay {ch : Choice} {free : ℕ → Bool} (hr : r ∈ s.db.sessions)
    (hreplayed : Replayed r token ch) (hlate : ¬ JustRotated s token ch.familyClock)
    (hfree : free r.userId = true) (hproceeds : ch.proceeds = true)
    (hordered : ch.ordered = true) :
    ∃ s', act cfg s free (.rotating token r.userId) ch = some ⟨s', none, none⟩ ∧
      ∀ x ∈ s'.db.sessions, x.familyHash ≠ .family token.family := by
  obtain ⟨⟨u, hu⟩, hcurrent, hfamily⟩ := h.lookups hr hreplayed
  rw [← h.inGrace_iff hr hreplayed.family, Bool.not_eq_true] at hlate
  have hrotate : rotateRefreshTokenWith ch.rotation s.fresh token r.userId s.db =
      .ok (.reuseDetected, s.db.deleteSessions fun x => x.id = r.id) := by
    unfold rotateRefreshTokenWith
    simp [hu, Choice.rotation, hcurrent, hfamily, hlate]
  refine ⟨s.present token .reuseDetected ch.updateClock
    (s.db.deleteSessions fun x => x.id = r.id), ?_, ?_⟩
  · simp only [act, hproceeds, if_true, serve, hfree, hordered, Bool.and_self, settle,
      hrotate, done]
  intro x hx heq
  obtain ⟨hx, hid⟩ := mem_filter.mp hx
  have hrow := h.table.eq_of_family hx hr (heq.trans hreplayed.family.symm)
  simp [hrow] at hid

theorem grace {ch : Choice} {free : ℕ → Bool} (hr : r ∈ s.db.sessions)
    (hreplayed : Replayed r token ch) (hjust : JustRotated s token ch.familyClock)
    (hfree : free r.userId = true) (hproceeds : ch.proceeds = true)
    (hordered : ch.ordered = true) :
    ∃ s' x, act cfg s free (.rotating token r.userId) ch = some ⟨s', none, none⟩ ∧
      s'.presentations = x :: s.presentations ∧ x.outcome = .concurrentRequest ∧
      s'.db = s.db ∧ s'.issued = s.issued := by
  obtain ⟨⟨u, hu⟩, hcurrent, hfamily⟩ := h.lookups hr hreplayed
  rw [← h.inGrace_iff hr hreplayed.family] at hjust
  have hrotate : rotateRefreshTokenWith ch.rotation s.fresh token r.userId s.db =
      .ok (.concurrentRequest, s.db) := by
    unfold rotateRefreshTokenWith
    simp [hu, Choice.rotation, hcurrent, hfamily, hjust]
  refine ⟨s.present token .concurrentRequest ch.updateClock s.db, _, ?_, rfl, rfl, rfl, rfl⟩
  simp only [act, hproceeds, if_true, serve, hfree, hordered, Bool.and_self, settle, hrotate,
    done]

theorem contract : RotationContract cfg s where
  once := h.chronicle.once
  sole := fun _ _ _ hcan hcan' => h.sole hcan hcan'
  found := fun r hr token clock hfamily hlive => h.found hr hfamily hlive
  replay := fun r hr token ch free hreplayed hlate hfree hproceeds hordered =>
    h.replay hr hreplayed hlate hfree hproceeds hordered
  closed := h.chronicle.closed
  grace := fun r hr token ch free hreplayed hjust hfree hproceeds hordered =>
    h.grace hr hreplayed hjust hfree hproceeds hordered
  expiry := h.table.expiry
  capped := h.capped
  kept := by
    intro new user basis db hcreate
    obtain ⟨-, rfl⟩ := createSessionWith_eq_ok.mp hcreate
    exact mem_trimSessions mem_cons_self rfl

end

end SessionsKept

/-- In every state of every run of requests: each refresh token rotates its session at
most once, one token of a session can rotate it, any other token of its family revokes
it for good unless it is the predecessor in its grace, which changes nothing, no expiry
passes the absolute lifetime, and the session cap holds with the newest session kept. -/
theorem refresh_rotation (cfg : AuthConfig) (actions : List AuthAction) (c : AuthState)
    (hrun : run (accounts cfg).step (begin {}) actions = some c) :
    RotationContract cfg c.shared := by
  have hkept : SessionsKept c.shared :=
    run_served (fun _ _ _ _ _ _ h hserves => h.step hserves) SessionsKept.start hrun
  exact hkept.contract

/-! ## A session whose old token comes back -/

/-- The first token is presented a second time within the grace and a third time after
it; then its successor is presented. -/
def oldTokenReturns : List AuthAction :=
  request 0 (.register "a@b" "password" none) 1 (atInstant 0) ++
    request 1 (.refresh ⟨1, 2⟩) 2 (atInstant second) ++
    request 2 (.refresh ⟨1, 2⟩) 2 (atInstant (2 * second)) ++
    request 3 (.refresh ⟨1, 2⟩) 2 (atInstant (3 * second)) ++
    request 4 (.refresh ⟨5, 2⟩) 1 (atInstant (4 * second))

theorem oldTokenReturns_contract :
    ∃ c, run (accounts openRegistration).step (begin {}) oldTokenReturns = some c ∧
      c.shared.presentations = [⟨⟨1, 2⟩, .reuseDetected, 3 * second⟩,
          ⟨⟨1, 2⟩, .concurrentRequest, 2 * second⟩, ⟨⟨1, 2⟩, .rotated 3 0 ⟨5, 2⟩, second⟩] ∧
      c.shared.db.sessions = [] ∧ RotationContract openRegistration c.shared := by
  obtain ⟨c, hrun, hpresentations, hsessions⟩ : ∃ c,
      run (accounts openRegistration).step (begin {}) oldTokenReturns = some c ∧
        c.shared.presentations = [⟨⟨1, 2⟩, .reuseDetected, 3 * second⟩,
          ⟨⟨1, 2⟩, .concurrentRequest, 2 * second⟩, ⟨⟨1, 2⟩, .rotated 3 0 ⟨5, 2⟩, second⟩] ∧
        c.shared.db.sessions = [] :=
    exists_of_any (by decide +kernel)
  exact ⟨c, hrun, hpresentations, hsessions, refresh_rotation _ _ c hrun⟩

end SimplestChat.Accounts
