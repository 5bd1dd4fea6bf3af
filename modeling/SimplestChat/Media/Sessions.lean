import SimplestChat.Media.ViewerRouters

/-!
# Media sessions and leases

Who writes which media session, and which leases are around. A registered session
belongs to one participant; a session that is being closed is not registered any
more; the ticket of every lease has been issued. A participant has at most one
creation or replacement in progress.
-/

namespace SimplestChat.Media

open List Option Function Interleaving Server

/-! ## The operation in progress -/

def inProgress (c : MediaConfig) (m : MediaId) : Option (Purpose × Receiving) :=
  (c.owner (.dispatch m)).bind fun t =>
    match c.task t with
    | some (.receive _ purpose point) => some (purpose, point)
    | _ => none

variable {m : MediaId}

theorem dispatch_mem_guards {k : Task} : Lock.dispatch m ∈ media.guards k ↔
      ∃ purpose point, k = .receive m purpose point ∧ point ≠ .start := by
  cases k with
  | receive m' purpose point => cases point <;> simp [media, Task.guards, Receiving.guards, eq_comm]
  | pipe m' producer point => cases point <;> simp [media, Task.guards]
  | _ => simp [media, Task.guards]

theorem inProgress_eq_some {c : MediaConfig} (h : media.Coherent c)
    {purpose : Purpose} {point : Receiving} :
    inProgress c m = some (purpose, point) ↔
      point ≠ .start ∧ ∃ t, c.task t = some (.receive m purpose point) := by
  constructor
  · intro hop
    obtain ⟨t, howner, hop⟩ := bind_eq_some_iff.mp hop
    obtain ⟨k, hk, hguard⟩ := (h.owner_iff _ _).mp howner
    obtain ⟨purpose', point', rfl, hpoint⟩ := dispatch_mem_guards.mp hguard
    rw [hk] at hop
    cases hop
    exact ⟨hpoint, t, hk⟩
  · rintro ⟨hpoint, t, ht⟩
    have howner := h.owner_of_guard ht (dispatch_mem_guards.mpr ⟨_, _, rfl, hpoint⟩)
    simp [inProgress, howner, ht]

variable {s : Server}

theorem Receives.next_ne_start {s' : Server} {free : Lock → Bool}
    {purpose : Purpose} {point : Receiving} {next : Option Receiving}
    (h : Receives s free m purpose point s' next) : next ≠ some .start := by
  cases h with
  | begun _ hnext => rcases hnext with rfl | rfl <;> simp
  | @installed _ lease => cases lease <;> simp [Receiving.afterStore]
  | _ => simp

section Steps

variable {c : MediaConfig} {t : ℕ} {k : Task} {choice : Choice} {o : Result}

theorem inProgress_foreign (h : media.Coherent c) (ha : media.Acts c t k choice o)
    {m : MediaId} (hk : ∀ purpose point, k = .receive m purpose point →
      point = .start ∧ o.self = none) :
    inProgress (media.apply c t k o) m = inProgress c m := by
  obtain ⟨hspawned, hmoves⟩ := act_moves ha.acted
  apply ext
  rintro ⟨purpose, point⟩
  rw [inProgress_eq_some (h.apply ha), inProgress_eq_some h]
  refine and_congr_right fun hpoint => ?_
  constructor
  · rintro ⟨u, hu⟩
    rcases (task_moved h ha.running hspawned).mp hu with ⟨rfl, hself⟩ | ⟨-, hold⟩
    · obtain ⟨before, hbefore, -⟩ := hmoves.present hself
      rw [(hk _ _ hbefore).2] at hself
      cases hself
    · exact ⟨u, hold⟩
  · rintro ⟨u, hu⟩
    refine ⟨u, (task_moved h ha.running hspawned).mpr (.inr ⟨?_, hu⟩)⟩
    rintro rfl
    rw [ha.running] at hu
    exact hpoint (hk _ _ (some.inj hu)).1

variable {m : MediaId} {purpose : Purpose} {point : Receiving} {next : Option Receiving}

theorem inProgress_of_begun (ha : media.Acts c t (.receive m purpose .start) choice o)
    (hself : o.self = some (.receive m purpose point)) (hpoint : point ≠ .start) :
    inProgress c m = none := by
  have hheld : Lock.dispatch m ∈ media.held o.self := by
    rw [hself]
    exact dispatch_mem_guards.mpr ⟨purpose, point, rfl, hpoint⟩
  rcases ha.enters _ hheld with hmine | hfree
  · cases hmine
  · simp [inProgress, hfree]

theorem inProgress_own (h : media.Coherent c)
    (ha : media.Acts c t (.receive m purpose point) choice o)
    (hself : o.self = next.map (Task.receive m purpose)) (hnext : next ≠ some .start)
    (hpast : point ≠ .start ∨ next ≠ none) :
    inProgress (media.apply c t (.receive m purpose point) o) m =
      next.map fun point => (purpose, point) := by
  have hspawned := (act_moves (k := .receive m purpose point) ha.acted).1
  -- nobody else has an operation of the participant in progress
  have halone : ∀ {u purpose' point'}, u ≠ t →
      c.task u = some (.receive m purpose' point') → point' = .start := by
    intro u purpose' point' hne hu
    by_contra hpoint'
    have hlock : Lock.dispatch m ∈ media.guards (.receive m purpose' point') :=
      dispatch_mem_guards.mpr ⟨purpose', point', rfl, hpoint'⟩
    by_cases hpoint : point = .start
    · obtain ⟨after, rfl⟩ := ne_none_iff_exists'.mp (hpast.resolve_left (· hpoint))
      have hheld : Lock.dispatch m ∈ media.held o.self := by
        rw [hself]
        exact dispatch_mem_guards.mpr ⟨purpose, after, rfl, fun heq => hnext (heq ▸ rfl)⟩
      rcases ha.enters _ hheld with hmine | hfree
      · obtain ⟨_, _, heq, hne'⟩ := dispatch_mem_guards.mp hmine
        cases heq
        exact hne' hpoint
      · rw [h.owner_of_guard hu hlock] at hfree
        cases hfree
    · exact hne (h.eq_of_guard hu ha.running hlock
        (dispatch_mem_guards.mpr ⟨purpose, point, rfl, hpoint⟩))
  apply ext
  rintro ⟨purpose', point'⟩
  rw [inProgress_eq_some (h.apply ha)]
  constructor
  · rintro ⟨hpoint', u, hu⟩
    rcases (task_moved h ha.running hspawned).mp hu with ⟨rfl, hgoes⟩ | ⟨hne, hold⟩
    · rw [hself] at hgoes
      obtain ⟨after, rfl, heq⟩ := map_eq_some_iff.mp hgoes
      cases heq
      rfl
    · exact absurd (halone hne hold) hpoint'
  · intro hmap
    obtain ⟨after, rfl, heq⟩ := map_eq_some_iff.mp hmap
    cases heq
    refine ⟨fun heq => hnext (heq ▸ rfl), t, ?_⟩
    exact (task_moved h ha.running hspawned).mpr (.inl ⟨rfl, hself⟩)

end Steps

/-! ## What a step does to sessions, placements and leases -/

def Task.evicts : Task → Option Generation
  | .remove _ (.evict g) | .receive _ _ (.evict g) => some g
  | _ => none

def Task.lease : Task → Option Lease
  | .receive _ _ point => point.lease
  | _ => none

def Task.concerns : Task → Option MediaId
  | .receive m _ _ | .remove m .take => some m
  | _ => none

structure Server.SameSessions (s s' : Server) : Prop where
  nextLeaseTicket : s'.nextLeaseTicket = s.nextLeaseTicket
  lingering : s'.lingering = s.lingering
  participants : s'.participants = s.participants
  nextGeneration : s'.nextGeneration = s.nextGeneration
  sessions : s'.sessions = s.sessions

/-- The ways in which a task changes sessions, placements and leases. -/
inductive Change (s : Server) : Task → Server → Prop
  | nothing {k : Task} {s' : Server} (h : s.SameSessions s')
      (hplacements : s'.placements = s.placements) : Change s k s'
  | dropped {m : MediaId} {purpose : Purpose} {point : Receiving} {lease : Lease}
      (hlease : point.lease = some lease) :
      Change s (.receive m purpose point) (s.dropLease lease)
  | forgot {m : MediaId} {purpose : Purpose} {point : Receiving} :
      Change s (.receive m purpose point) (s.forgetPlacement m)
  | recorded {m : MediaId} {purpose : Purpose} {point : Receiving} {s' : Server}
      {w : WorkerId} {origin : RouterId} (h : s.SameSessions s')
      (hplacements : s'.placements = s.placements) :
      Change s (.receive m purpose point) (s'.recordPlacement m w origin)
  | opened {m : MediaId} {purpose : Purpose} {point : Receiving}
      (hpast : point ≠ .start) (hentry : s.participants m = none) :
      Change s (.receive m purpose point) (s.openSession m)
  | stored {m : MediaId} {purpose : Purpose} {point : Receiving} {g : Generation}
      {route : Route} (hentry : s.participants m = some g) :
      Change s (.receive m purpose point) (s.storeTransport g route)
  | replaced {m : MediaId} {purpose : Purpose} {point : Receiving} {g : Generation}
      {route : Route} {lease : Option Lease} (hentry : s.participants m = some g)
      (hlease : ∀ held, lease = some held → point.lease = some held) :
      Change s (.receive m purpose point) ((s.storeTransport g route).setLease g lease)
  | leased {m : MediaId} {purpose : Purpose} {point : Receiving} {g : Generation}
      {lease : Lease} (hentry : s.participants m = some g)
      (hlease : point.lease = some lease) :
      Change s (.receive m purpose point) (s.setLease g (some lease))
  | lingered {m : MediaId} {purpose : Purpose} {point : Receiving} {lease : Lease}
      (hlease : point.lease = some lease) :
      Change s (.receive m purpose point) (s.linger (some lease))
  | taken {k : Task} {m : MediaId} (hconcerns : k.concerns = some m) : Change s k (s.takeEntry m)
  | closed {k : Task} {g : Generation} (hevicts : k.evicts = some g) : Change s k (s.closeSession g)
  | released {k : Task} {lease : Lease} (hlease : lease ∈ s.lingering) :
      Change s k ({ s with lingering := s.lingering.erase lease }.dropLease lease)

section Changes

variable {s s' : Server} {free : Lock → Bool} {k : Task} {next : Option Task}

theorem Receives.change {m : MediaId} {purpose : Purpose} {point : Receiving}
    {next : Option Receiving} (h : Receives s free m purpose point s' next) :
    Change s (.receive m purpose point) s' := by
  cases h with
  | gaveUp =>
    cases hlease : point.lease with
    | none => exact .nothing ⟨rfl, rfl, rfl, rfl, rfl⟩ rfl
    | some => exact .dropped hlease
  | forgot => exact .forgot
  | shared | created => exact .recorded ⟨rfl, rfl, rfl, rfl, rfl⟩ rfl
  | opened _ hentry => exact .opened nofun hentry
  | installed _ _ hentry => exact .stored hentry
  | @replaced _ lease retain _ _ _ _ hentry =>
    cases lease with
    | some => exact .replaced hentry (fun _ h => h)
    | none =>
      cases retain with
      | true => exact .stored hentry
      | false => exact .replaced hentry (fun _ h => h)
  | detached => exact .dropped rfl
  | attached hentry => exact .leased hentry rfl
  | orphaned => exact .lingered rfl
  | evicting => exact .taken rfl
  | evicted => exact .closed rfl
  | _ => exact .nothing ⟨rfl, rfl, rfl, rfl, rfl⟩ rfl

section

variable (h : Moves s free k s' next)
include h

theorem Moves.change : Change s k s' := by
  cases h with
  | received h => exact h.change
  | taken => exact .taken rfl
  | evicted => exact .closed rfl
  | leaseDropped hlease => exact .released hlease
  | _ => exact .nothing ⟨rfl, rfl, rfl, rfl, rfl⟩ rfl

theorem Moves.next_evicts {k' : Task} (hnext : next = some k') {g : Generation}
    (hevicts : k'.evicts = some g) :
    ∃ m, s.participants m = some g ∧ s' = s.takeEntry m := by
  cases h with
  | received h =>
    obtain ⟨point, rfl, rfl⟩ := map_eq_some_iff.mp hnext
    cases h with
    | begun _ hpoint => rcases hpoint with rfl | rfl <;> cases hevicts
    | @installed _ lease => cases lease <;> cases hevicts
    | evicting _ hentry =>
      cases hevicts
      exact ⟨_, hentry, rfl⟩
    | _ => cases hevicts
  | taken _ hentry =>
    cases hnext
    cases hevicts
    exact ⟨_, hentry, rfl⟩
  | opening =>
    obtain ⟨point, -, rfl⟩ := map_eq_some_iff.mp hnext
    cases hevicts
  | _ => cases hnext <;> cases hevicts

theorem Moves.next_lease {k' : Task} (hnext : next = some k') {lease : Lease}
    (hlease : k'.lease = some lease) :
    k.lease = some lease ∨ (k.concerns = some lease.participant ∧ lease.ticket = s.ticket ∧
        s'.nextLeaseTicket = s.nextLeaseTicket + 1) := by
  cases h with
  | received h =>
    obtain ⟨point, rfl, rfl⟩ := map_eq_some_iff.mp hnext
    cases h with
    | begun _ hpoint => rcases hpoint with rfl | rfl <;> cases hlease
    | @installed _ held =>
      cases held with
      | none => cases hlease
      | some => exact .inl hlease
    | shared | created =>
      cases hlease
      exact .inr ⟨rfl, rfl, rfl⟩
    | routed | obtained | opened | locked | attaching => exact .inl hlease
    | _ => cases hlease
  | opening =>
    obtain ⟨point, -, rfl⟩ := map_eq_some_iff.mp hnext
    cases hlease
  | _ => cases hnext <;> cases hlease

end

end Changes

/-! ## Registered sessions and issued tickets -/

structure Server.Valid (s : Server) : Prop where
  distinct : ∀ {m m' g}, s.participants m = some g → s.participants m' = some g → m = m'
  bounded : ∀ {m g}, s.participants m = some g → g < s.nextGeneration
  lingering : ∀ lease ∈ s.lingering, lease.ticket < s.nextLeaseTicket
  stored : ∀ {g lease}, (s.sessions g).lease = some lease → lease.ticket < s.nextLeaseTicket

theorem Server.dropLease_sessions (s : Server) (lease : Lease) :
    s.SameSessions (s.dropLease lease) := by
  rcases s.dropLease_cases lease with h | h
  all_goals
    rw [h]
    exact ⟨rfl, rfl, rfl, rfl, rfl⟩

theorem Server.Valid.same {s' : Server} (h : s.Valid) (hsame : s.SameSessions s') : s'.Valid := by
  obtain ⟨hticket, hlingering, hparticipants, hgeneration, hsessions⟩ := hsame
  constructor
  · rw [hparticipants]
    exact h.distinct
  · rw [hparticipants, hgeneration]
    exact h.bounded
  · rw [hlingering, hticket]
    exact h.lingering
  · rw [hsessions, hticket]
    exact h.stored

variable {g : Generation}

/-- A session's lease lingers when the session is replaced. -/
theorem Server.Valid.replaceSession (h : s.Valid) {session : Session}
    (hlease : ∀ held, session.lease = some held → held.ticket < s.nextLeaseTicket) :
    ((s.setSession g session).linger (s.sessions g).lease).Valid := by
  refine ⟨h.distinct, h.bounded, ?_, ?_⟩
  · intro old hold
    rcases mem_append.mp hold with hmine | hold
    · exact h.stored (mem_toList.mp hmine)
    · exact h.lingering old hold
  intro g' held hheld
  by_cases hg : g' = g
  · subst hg
    exact hlease held (by simpa [setSession, linger] using hheld)
  · refine h.stored (g := g') ?_
    simpa [setSession, linger, hg] using hheld

theorem Server.Valid.storeTransport (h : s.Valid)
    {route : Route} : (s.storeTransport g route).Valid := by
  refine ⟨h.distinct, h.bounded, h.lingering, ?_⟩
  intro g' held hheld
  refine h.stored (g := g') ?_
  by_cases hg : g' = g
  · simpa [Server.storeTransport, Server.setSession, hg] using hheld
  · simpa [Server.storeTransport, Server.setSession, hg] using hheld

theorem Server.ticket_le (s : Server) : s.ticket ≤ s.nextLeaseTicket := Nat.mod_le _ _

section Valid

variable {s s' : Server} {k : Task}

section

variable (h : Change s k s')
include h

theorem Change.nextLeaseTicket_le : s.nextLeaseTicket ≤ s'.nextLeaseTicket := by
  cases h with
  | nothing h => exact Nat.le_of_eq h.nextLeaseTicket.symm
  | dropped => exact Nat.le_of_eq (s.dropLease_sessions _).nextLeaseTicket.symm
  | released =>
    apply Nat.le_of_eq
    rw [(dropLease_sessions _ _).nextLeaseTicket]
  | recorded h =>
    have hticket := h.nextLeaseTicket
    simp only [recordPlacement]
    omega
  | _ => exact Nat.le_refl _

theorem Change.valid (hs : s.Valid)
    (hlease : ∀ lease, k.lease = some lease → lease.ticket < s.nextLeaseTicket) :
    s'.Valid := by
  cases h with
  | nothing h => exact hs.same h
  | dropped => exact hs.same (s.dropLease_sessions _)
  | forgot => exact hs.same ⟨rfl, rfl, rfl, rfl, rfl⟩
  | recorded h =>
    have hold := hs.same h
    exact ⟨hold.distinct, hold.bounded,
      fun lease hmem => Nat.lt_succ_of_lt (hold.lingering lease hmem),
      fun hstored => Nat.lt_succ_of_lt (hold.stored hstored)⟩
  | @opened m =>
    refine ⟨?_, ?_, hs.lingering, ?_⟩
    · intro m₁ m₂ g h₁ h₂
      -- the new session's name is above all registered ones
      by_cases hm₁ : m₁ = m <;> by_cases hm₂ : m₂ = m
      · exact hm₁.trans hm₂.symm
      · simp only [openSession, hm₁, update_self, some.injEq, update_of_ne hm₂] at h₁ h₂
        exact absurd (hs.bounded h₂) (h₁ ▸ Nat.lt_irrefl _)
      · simp only [openSession, hm₂, update_self, some.injEq, update_of_ne hm₁] at h₁ h₂
        exact absurd (hs.bounded h₁) (h₂ ▸ Nat.lt_irrefl _)
      · simp only [openSession, update_of_ne hm₁, update_of_ne hm₂] at h₁ h₂
        exact hs.distinct h₁ h₂
    · intro m' g hg
      change g < s.nextGeneration + 1
      by_cases hm : m' = m
      · simp only [openSession, hm, update_self, some.injEq] at hg
        exact hg ▸ Nat.lt_succ_self _
      · simp only [openSession, update_of_ne hm] at hg
        exact Nat.lt_succ_of_lt (hs.bounded hg)
    · intro g held hheld
      by_cases hg : g = s.nextGeneration
      · simp [openSession, hg] at hheld
      · exact hs.stored (g := g) (by simpa [openSession, hg] using hheld)
  | stored => exact hs.storeTransport
  | replaced _ hheld =>
    exact (hs.storeTransport).replaceSession fun held h => hlease held (hheld held h)
  | leased _ hheld =>
    refine hs.replaceSession ?_
    rintro held ⟨⟩
    exact hlease _ hheld
  | lingered hheld =>
    refine ⟨hs.distinct, hs.bounded, ?_, hs.stored⟩
    intro old hold
    rcases mem_cons.mp hold with rfl | hold
    · exact hlease _ hheld
    · exact hs.lingering old hold
  | @taken _ m =>
    have hkept : ∀ {m' g}, (s.takeEntry m).participants m' = some g →
        s.participants m' = some g := by
      intro m' g hg
      by_cases hm : m' = m
      · simp [takeEntry, hm] at hg
      · simpa [takeEntry, hm] using hg
    exact ⟨fun h₁ h₂ => hs.distinct (hkept h₁) (hkept h₂), fun h => hs.bounded (hkept h),
      hs.lingering, hs.stored⟩
  | closed => exact hs.replaceSession (by simp)
  | released =>
    refine Server.Valid.same ?_ (dropLease_sessions _ _)
    exact ⟨hs.distinct, hs.bounded,
      fun lease hmem => hs.lingering lease (mem_of_mem_erase hmem), hs.stored⟩

theorem Change.participants {m : MediaId} {g : Generation} (hentry : s'.participants m = some g) :
    s.participants m = some g ∨
      (g = s.nextGeneration ∧ ∃ purpose point, k = .receive m purpose point ∧ point ≠ .start) := by
  cases h with
  | nothing h => exact .inl (h.participants ▸ hentry)
  | dropped =>
    rw [(s.dropLease_sessions _).participants] at hentry
    exact .inl hentry
  | recorded h => exact .inl (h.participants ▸ hentry)
  | @opened m' purpose point hpast =>
    by_cases hm : m = m'
    · subst hm
      simp only [openSession, update_self, some.injEq] at hentry
      exact .inr ⟨hentry.symm, purpose, point, rfl, hpast⟩
    · exact .inl (by simpa [openSession, hm] using hentry)
  | @taken _ m' =>
    by_cases hm : m = m'
    · simp [takeEntry, hm] at hentry
    · exact .inl (by simpa [takeEntry, hm] using hentry)
  | released =>
    rw [(dropLease_sessions _ _).participants] at hentry
    exact .inl hentry
  | _ => exact .inl hentry

theorem Change.nextGeneration_le : s.nextGeneration ≤ s'.nextGeneration := by
  cases h with
  | nothing h => exact Nat.le_of_eq h.nextGeneration.symm
  | dropped => exact Nat.le_of_eq (s.dropLease_sessions _).nextGeneration.symm
  | recorded h => exact Nat.le_of_eq h.nextGeneration.symm
  | opened => exact Nat.le_succ _
  | released =>
    apply Nat.le_of_eq
    rw [(dropLease_sessions _ _).nextGeneration]
  | _ => exact Nat.le_refl _

end

end Valid

/-! ## The configuration -/

/-- Sessions that are being closed are not registered, and the leases in the hands of
tasks are their participants' own. -/
structure Sound (c : MediaConfig) : Prop where
  coherent : media.Coherent c
  valid : c.shared.Valid
  known : ∀ {m g}, c.shared.participants m = some g → m ∈ c.shared.joined
  present : ∀ {t m purpose point}, c.task t = some (.receive m purpose point) →
    point ≠ .start → m ∈ c.shared.joined
  evicting : ∀ {t k g}, c.task t = some k → k.evicts = some g →
    g < c.shared.nextGeneration ∧ ∀ m, c.shared.participants m ≠ some g
  carried : ∀ {t k lease}, c.task t = some k → k.lease = some lease →
    k.concerns = some lease.participant ∧ lease.ticket < c.shared.nextLeaseTicket

namespace Sound

variable {c d : MediaConfig}

theorem start : Sound mediaStart where
  coherent := mediaStart_coherent
  valid := ⟨nofun, nofun, nofun, nofun⟩
  known := nofun
  present := nofun
  evicting := nofun
  carried := nofun

theorem launch (h : Sound c) {k : Task} (hk : Task.initial k = true) : Sound (c.launch k) := by
  refine ⟨h.coherent.launch hk, h.valid, h.known, ?_, ?_, ?_⟩
  · intro u m purpose point hu hpoint
    rcases h.coherent.launched hu with rfl | hold
    · cases point with
      | start => exact absurd rfl hpoint
      | _ => cases hk
    · exact h.present hold hpoint
  · intro u k' g hu hevicts
    rcases h.coherent.launched hu with rfl | hold
    · revert hk hevicts
      fun_cases Task.initial k' <;> simp [Task.evicts]
    · exact h.evicting hold hevicts
  · intro u k' lease hu hlease
    rcases h.coherent.launched hu with rfl | hold
    · revert hk hlease
      fun_cases Task.initial k' <;> simp [Task.lease, Receiving.lease]
    · exact h.carried hold hlease

theorem advance (h : Sound c) {t : ℕ} {k : Task} {choice : Choice} {o : Result}
    (ha : media.Acts c t k choice o) : Sound (media.apply c t k o) := by
  obtain ⟨hspawned, hmoves⟩ := act_moves ha.acted
  have htask : ∀ {u k'}, (media.apply c t k o).task u = some k' →
      (u = t ∧ o.self = some k') ∨ (u ≠ t ∧ c.task u = some k') :=
    (task_moved h.coherent ha.running hspawned).mp
  have hchange := hmoves.change
  have htickets := hchange.nextLeaseTicket_le
  refine ⟨h.coherent.apply ha, ?_, ?_, ?_, ?_, ?_⟩
  · exact hchange.valid h.valid fun lease hlease => (h.carried ha.running hlease).2
  · intro m g hentry
    refine hmoves.stays_joined ?_
    rcases hchange.participants hentry with hold | ⟨-, purpose, point, rfl, hpast⟩
    · exact h.known hold
    · exact h.present ha.running hpast
  · intro u m purpose point hu hpoint
    refine hmoves.stays_joined ?_
    rcases htask hu with ⟨rfl, hself⟩ | ⟨-, hold⟩
    · obtain ⟨before, rfl, hstart⟩ := hmoves.present hself
      by_cases hbefore : before = .start
      · exact hstart hbefore
      · exact h.present ha.running hbefore
    · exact h.present hold hpoint
  · intro u k' g hu hevicts
    rcases htask hu with ⟨rfl, hself⟩ | ⟨-, hold⟩
    · -- the entry has just been taken, and nobody else has the session
      obtain ⟨m, hentry, hs'⟩ := hmoves.next_evicts hself hevicts
      change g < o.shared.nextGeneration ∧ ∀ m', o.shared.participants m' ≠ some g
      rw [hs']
      refine ⟨h.valid.bounded hentry, ?_⟩
      intro m' hentry'
      by_cases hm : m' = m
      · simp [takeEntry, hm] at hentry'
      · refine hm (h.valid.distinct ?_ hentry)
        simpa [takeEntry, hm] using hentry'
    · obtain ⟨hlt, hfree⟩ := h.evicting hold hevicts
      refine ⟨Nat.lt_of_lt_of_le hlt hchange.nextGeneration_le, ?_⟩
      intro m hentry
      rcases hchange.participants hentry with hbefore | ⟨rfl, -⟩
      · exact hfree m hbefore
      · exact Nat.lt_irrefl _ hlt
  · intro u k' lease hu hlease
    rcases htask hu with ⟨rfl, hself⟩ | ⟨-, hold⟩
    · -- only a creation or replacement has a lease, and it stays its participant's
      have hconcerns : k'.concerns = k.concerns := by
        cases k' with
        | receive =>
          obtain ⟨before, rfl, -⟩ := hmoves.present hself
          rfl
        | _ => cases hlease
      rcases hmoves.next_lease hself hlease with hbefore | ⟨hmine, hticket, hnext⟩
      · obtain ⟨hmine, hlt⟩ := h.carried ha.running hbefore
        exact ⟨hconcerns.trans hmine, Nat.lt_of_lt_of_le hlt htickets⟩
      refine ⟨hconcerns.trans hmine, ?_⟩
      have hle := c.shared.ticket_le
      change lease.ticket < o.shared.nextLeaseTicket
      omega
    · obtain ⟨hmine, hlt⟩ := h.carried hold hlease
      exact ⟨hmine, Nat.lt_of_lt_of_le hlt htickets⟩

end Sound

/-! ## Steps that concern somebody else -/

structure Server.Kept (s s' : Server) (m : MediaId) : Prop where
  participants : s'.participants m = s.participants m
  session : ∀ g, s.participants m = some g → s'.sessions g = s.sessions g

structure Server.Foreign (s s' : Server) (m : MediaId) : Prop where
  placements : s'.placements m = s.placements m
  leases : ∀ g lease, (s'.sessions g).lease = some lease → lease.participant = m →
    (s.sessions g).lease = some lease
  lingering : ∀ lease ∈ s'.lingering, lease.participant = m → lease ∈ s.lingering

section Foreign

variable {s s' : Server} {k : Task} {m : MediaId}

variable {g g' : Generation}

theorem Server.setLease_session (s : Server) (lease : Option Lease)
    (hne : g' ≠ g) : (s.setLease g lease).sessions g' = s.sessions g' := by
  simp [setLease, setSession, linger, hne]

theorem Server.storeTransport_session (s : Server) (route : Route)
    (hne : g' ≠ g) : (s.storeTransport g route).sessions g' = s.sessions g' := by
  simp [storeTransport, setSession, hne]

theorem Server.closeSession_session (s : Server)
    (hne : g' ≠ g) : (s.closeSession g).sessions g' = s.sessions g' := by
  simp [closeSession, setSession, linger, hne]

theorem Change.kept (h : Change s k s') (hs : s.Valid) (hk : k.concerns ≠ some m)
    (hevicts : ∀ g, k.evicts = some g → ∀ m, s.participants m ≠ some g) :
    s.Kept s' m := by
  -- a session that somebody else has registered is another one
  have hother : ∀ {m' g g'}, Task.concerns k = some m' → s.participants m' = some g →
      s.participants m = some g' → g' ≠ g := by
    rintro m' g g' hconcerns hentry' hentry rfl
    exact hk (hs.distinct hentry hentry' ▸ hconcerns)
  cases h with
  | nothing h => exact ⟨congrFun h.participants m, fun g _ => congrFun h.sessions g⟩
  | dropped =>
    have hsame := s.dropLease_sessions
    exact ⟨congrFun (hsame _).participants m, fun g _ => congrFun (hsame _).sessions g⟩
  | forgot | lingered => exact ⟨rfl, fun _ _ => rfl⟩
  | recorded h => exact ⟨congrFun h.participants m, fun g _ => congrFun h.sessions g⟩
  | @opened m' =>
    have hne : m ≠ m' := fun heq => hk (heq ▸ rfl)
    refine ⟨by simp [openSession, hne], ?_⟩
    intro g hentry
    have hg : g ≠ s.nextGeneration := Nat.ne_of_lt (hs.bounded hentry)
    simp [openSession, hg]
  | stored hentry' =>
    exact ⟨rfl, fun g hentry => s.storeTransport_session _ (hother rfl hentry' hentry)⟩
  | replaced hentry' =>
    refine ⟨rfl, fun g hentry => ?_⟩
    have hne := hother rfl hentry' hentry
    rw [setLease_session _ _ hne, s.storeTransport_session _ hne]
  | leased hentry' => exact ⟨rfl, fun g hentry => s.setLease_session _ (hother rfl hentry' hentry)⟩
  | @taken _ m' hconcerns =>
    have hne : m ≠ m' := fun heq => hk (heq ▸ hconcerns)
    exact ⟨by simp [takeEntry, hne], fun _ _ => rfl⟩
  | closed hclosing =>
    refine ⟨rfl, fun g hentry => s.closeSession_session ?_⟩
    rintro rfl
    exact hevicts _ hclosing m hentry
  | @released _ lease =>
    have hsame := dropLease_sessions { s with lingering := s.lingering.erase lease } lease
    exact ⟨congrFun hsame.participants m, fun g _ => congrFun hsame.sessions g⟩

/-- The leases of a participant that are stored anywhere are in its own session. -/
def Server.OwnLeases (s : Server) (m : MediaId) : Prop :=
  ∀ g lease, (s.sessions g).lease = some lease → lease.participant = m → s.participants m = some g

/-- A lease that is about to be dropped is not that of the participant's placement. -/
def Server.LateDropsMiss (s : Server) (m : MediaId) : Prop :=
  ∀ lease ∈ s.lingering, lease.participant = m → ∀ placement,
    s.placements m = some placement → lease.ticket ≠ placement.ticket

theorem Server.dropLease_placements (s : Server) (lease : Lease)
    (hmiss : lease.participant = m → ∀ placement, s.placements m = some placement →
      lease.ticket ≠ placement.ticket) :
    (s.dropLease lease).placements m = s.placements m := by
  by_cases hm : lease.participant = m
  · have hnone : ((s.placements lease.participant).any (·.ticket = lease.ticket)) = false := by
      rw [hm]
      cases hplacement : s.placements m with
      | none => rfl
      | some placement =>
        have hne := hmiss hm placement hplacement
        simpa using Ne.symm hne
    simp [dropLease, hnone]
  · unfold dropLease
    split
    · simp [forgetPlacement, Ne.symm hm]
    · rfl

theorem Server.setLease_lease (s : Server) {lease : Option Lease}
    {held : Lease} (h : ((s.setLease g lease).sessions g').lease = some held) :
    (s.sessions g').lease = some held ∨ (g' = g ∧ lease = some held) := by
  by_cases hg : g' = g
  · subst hg
    exact .inr ⟨rfl, by simpa [setLease, setSession, linger] using h⟩
  · exact .inl (by rwa [s.setLease_session lease hg] at h)

theorem Server.storeTransport_lease (s : Server) (g g' : Generation) (route : Route) :
    ((s.storeTransport g route).sessions g').lease = (s.sessions g').lease := by
  by_cases hg : g' = g
  · simp [storeTransport, setSession, hg]
  · rw [s.storeTransport_session route hg]

theorem Server.mem_setLease_lingering (s : Server) {lease : Option Lease} {old : Lease}
    (h : old ∈ (s.setLease g lease).lingering) :
    (s.sessions g).lease = some old ∨ old ∈ s.lingering := by
  rcases mem_append.mp h with hmine | hold
  · exact .inl (mem_toList.mp hmine)
  · exact .inr hold

theorem Server.mem_closeSession_lingering (s : Server) {old : Lease}
    (h : old ∈ (s.closeSession g).lingering) :
    (s.sessions g).lease = some old ∨ old ∈ s.lingering := by
  rcases mem_append.mp h with hmine | hold
  · exact .inl (mem_toList.mp hmine)
  · exact .inr hold

theorem Change.foreign (h : Change s k s') (hs : s.Valid) (hk : k.concerns ≠ some m)
    (hevicts : ∀ g, k.evicts = some g → ∀ m, s.participants m ≠ some g)
    (hcarried : ∀ lease, k.lease = some lease → k.concerns = some lease.participant)
    (hown : s.OwnLeases m) (hmiss : s.LateDropsMiss m) : s.Foreign s' m := by
  -- leases in the hands of the task are not the participant's
  have hnot : ∀ {lease}, k.lease = some lease → lease.participant ≠ m := by
    intro lease hlease heq
    exact hk (heq ▸ hcarried lease hlease)
  have hsession : ∀ {m' g lease}, Task.concerns k = some m' → s.participants m' = some g →
      (s.sessions g).lease = some lease → lease.participant ≠ m := by
    intro m' g lease hconcerns hentry hlease heq
    exact hk (hs.distinct (hown g lease hlease heq) hentry ▸ hconcerns)
  cases h with
  | nothing h hplacements =>
    exact ⟨congrFun hplacements m, fun g _ hlease _ => h.sessions ▸ hlease,
      fun _ hmem _ => h.lingering ▸ hmem⟩
  | @dropped _ _ _ lease hlease =>
    have hsame := s.dropLease_sessions lease
    refine ⟨?_, fun g _ hlease _ => hsame.sessions ▸ hlease, fun _ hmem _ => hsame.lingering ▸ hmem⟩
    exact s.dropLease_placements lease fun heq => absurd heq (hnot hlease)
  | @forgot m' =>
    have hne : m ≠ m' := fun heq => hk (heq ▸ rfl)
    exact ⟨by simp [forgetPlacement, hne], fun _ _ hlease _ => hlease, fun _ hmem _ => hmem⟩
  | @recorded m' _ _ t w origin h hplacements =>
    have hne : m ≠ m' := fun heq => hk (heq ▸ rfl)
    refine ⟨?_, fun g _ hlease _ => h.sessions ▸ hlease, fun _ hmem _ => h.lingering ▸ hmem⟩
    simp [recordPlacement, hne, hplacements]
  | opened =>
    refine ⟨rfl, ?_, fun _ hmem _ => hmem⟩
    intro g lease hlease _
    by_cases hg : g = s.nextGeneration
    · simp [openSession, hg] at hlease
    · simpa [openSession, hg] using hlease
  | stored =>
    refine ⟨rfl, ?_, fun _ hmem _ => hmem⟩
    intro g lease hlease _
    rwa [s.storeTransport_lease] at hlease
  | replaced hentry hheld =>
    refine ⟨rfl, ?_, ?_⟩
    · intro g lease hlease heq
      rcases setLease_lease _ hlease with hold | ⟨-, hnew⟩
      · rwa [s.storeTransport_lease] at hold
      · exact absurd heq (hnot (hheld lease hnew))
    · intro lease hmem heq
      rcases mem_setLease_lingering _ hmem with hold | hold
      · rw [s.storeTransport_lease] at hold
        exact absurd heq (hsession rfl hentry hold)
      · exact hold
  | leased hentry hheld =>
    refine ⟨rfl, ?_, ?_⟩
    · intro g lease hlease heq
      rcases s.setLease_lease hlease with hold | ⟨-, hnew⟩
      · exact hold
      · cases hnew
        exact absurd heq (hnot hheld)
    · intro lease hmem heq
      rcases s.mem_setLease_lingering hmem with hold | hold
      · exact absurd heq (hsession rfl hentry hold)
      · exact hold
  | lingered hheld =>
    refine ⟨rfl, fun _ _ hlease _ => hlease, ?_⟩
    intro lease hmem heq
    rcases mem_cons.mp hmem with rfl | hold
    · exact absurd heq (hnot hheld)
    · exact hold
  | taken => exact ⟨rfl, fun _ _ hlease _ => hlease, fun _ hmem _ => hmem⟩
  | @closed _ closing hclosing =>
    refine ⟨rfl, ?_, ?_⟩
    · intro g lease hlease _
      by_cases hg : g = closing
      · simp [closeSession, setSession, linger, hg] at hlease
      · rwa [s.closeSession_session hg] at hlease
    · intro lease hmem heq
      rcases s.mem_closeSession_lingering hmem with hold | hold
      · exact absurd (hown closing lease hold heq) (hevicts closing hclosing m)
      · exact hold
  | @released _ lease hlease =>
    have hsame := dropLease_sessions { s with lingering := s.lingering.erase lease } lease
    refine ⟨?_, fun g _ hlease _ => hsame.sessions ▸ hlease, ?_⟩
    · exact dropLease_placements _ lease (hmiss lease hlease)
    intro other hmem _
    rw [hsame.lingering] at hmem
    exact mem_of_mem_erase hmem

end Foreign

end SimplestChat.Media
