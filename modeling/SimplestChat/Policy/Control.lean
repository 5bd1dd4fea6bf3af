import SimplestChat.Policy.People

/-!
# What was decided still holds when it is published

A policy change is decided in one turn and published in a later one, with
database work in between and the room's control held throughout.  The people in
the room, their roles and the room's settings do not change in that time, so the
facts that authorized the change are facts about the room it is published to.
-/

namespace SimplestChat.Policy

open List Option

/-! ## Cohorts -/

variable {authenticated : Bool} {ip : Option IpAddr}

theorem SanctionKey.forIdentity_user {id user : ParticipantId} :
    SanctionKey.forIdentity id authenticated ip = .user user ↔
      authenticated = true ∧ id = user := by
  unfold SanctionKey.forIdentity
  cases authenticated with
  | true => simp
  | false => cases ip <;> simp

theorem SanctionKey.forIdentity_connection {id other : ParticipantId} :
    SanctionKey.forIdentity id authenticated ip = .connection other ↔
      authenticated = false ∧ ip = none ∧ id = other := by
  unfold SanctionKey.forIdentity
  cases authenticated with
  | true => simp
  | false => cases ip <;> simp

theorem SanctionKey.forIdentity_guestIp {id : ParticipantId} {address : IpAddr} :
    SanctionKey.forIdentity id authenticated ip = .guestIp address ↔
      authenticated = false ∧ ip.map cohort = some address := by
  unfold SanctionKey.forIdentity
  cases authenticated with
  | true => simp
  | false => cases ip <;> simp

namespace Room

theorem isGuestOf_iff {e : LobbyEntry} {address : IpAddr} :
    isGuestOf e.authenticated e.ip address = true ↔ e.key = .guestIp (cohort address) := by
  unfold isGuestOf LobbyEntry.key
  rw [SanctionKey.forIdentity_guestIp]
  simp

theorem id_eq_of_key_eq {a b : LobbyEntry}
    (hown : ∀ ip, b.authenticated = false → b.ip ≠ some ip) (h : a.key = b.key) :
    a.id = b.id := by
  cases hauthenticated : b.authenticated with
  | true =>
    have hkey : b.key = .user b.id := SanctionKey.forIdentity_user.mpr ⟨hauthenticated, rfl⟩
    exact (SanctionKey.forIdentity_user.mp (h.trans hkey)).2
  | false =>
    have hip : b.ip = none := by
      cases hip : b.ip with
      | none => rfl
      | some ip => exact absurd hip (hown ip hauthenticated)
    have hkey : b.key = .connection b.id :=
      SanctionKey.forIdentity_connection.mpr ⟨hauthenticated, hip, rfl⟩
    exact (SanctionKey.forIdentity_connection.mp (h.trans hkey)).2.2

/-- The listed IDs are those of the people kept under the key, and the role
outranks all of them. -/
structure Cohort (room : Room) (role : Role) (participants lobby : List ParticipantId)
    (key : SanctionKey) : Prop where
  covers : ∀ m ∈ room.members, m.id ∈ participants ↔ m.key = key
  coversLobby : ∀ e ∈ room.lobby, e.id ∈ lobby ↔ e.key = key
  present : ∀ id ∈ participants, ∃ m ∈ room.members, m.id = id
  presentLobby : ∀ id ∈ lobby, ∃ e ∈ room.lobby, e.id = id
  outranked : ∀ m ∈ room.members, m.id ∈ participants → m.role.rank < role.rank
  outrankedLobby : ∀ e ∈ room.lobby, e.id ∈ lobby → e.role.rank < role.rank

variable {room : Room} {person : Participant}

theorem key_of_guest {ip : IpAddr} (hauthenticated : person.authenticated = false)
    (hip : person.ip = some ip) : person.key = .guestIp (cohort ip) := by
  unfold LobbyEntry.key
  rw [SanctionKey.forIdentity_guestIp, hip]
  exact ⟨hauthenticated, rfl⟩

theorem mem_reach (hperson : person ∈ room.participants) {id : ParticipantId} :
    id ∈ room.reach person ↔ ∃ m ∈ room.members, m.id = id ∧ m.key = person.key := by
  have hmember : person.toLobbyEntry ∈ room.members := mem_members.mpr ⟨person, hperson, rfl⟩
  unfold reach
  split
  · rename_i ip hauthenticated hip
    rw [key_of_guest hauthenticated hip, List.mem_map]
    constructor
    · rintro ⟨p, hp, rfl⟩
      obtain ⟨hp', hguest⟩ := List.mem_filter.mp hp
      exact ⟨p.toLobbyEntry, mem_members.mpr ⟨p, hp', rfl⟩, rfl, isGuestOf_iff.mp hguest⟩
    · rintro ⟨m, hm, rfl, hmkey⟩
      obtain ⟨p, hp, rfl⟩ := mem_members.mp hm
      exact ⟨p, List.mem_filter.mpr ⟨hp, isGuestOf_iff.mpr hmkey⟩, rfl⟩
  · rename_i hother
    rw [mem_singleton]
    constructor
    · rintro rfl
      exact ⟨_, hmember, rfl, rfl⟩
    · rintro ⟨m, -, rfl, hkey⟩
      exact id_eq_of_key_eq hother hkey

theorem mem_lobbyReach (hapart : room.Apart)
    (hperson : person ∈ room.participants) {id : ParticipantId} :
    id ∈ room.lobbyReach person.authenticated person.ip ↔
      ∃ e ∈ room.lobby, e.id = id ∧ e.key = person.key := by
  have hmember : person.toLobbyEntry ∈ room.members := mem_members.mpr ⟨person, hperson, rfl⟩
  unfold lobbyReach
  split
  · rename_i ip hauthenticated hip
    rw [key_of_guest hauthenticated hip, List.mem_map]
    constructor
    · rintro ⟨e, he, rfl⟩
      obtain ⟨he', hguest⟩ := List.mem_filter.mp he
      exact ⟨e, he', rfl, isGuestOf_iff.mp hguest⟩
    · rintro ⟨e, he, rfl, hekey⟩
      exact ⟨e, List.mem_filter.mpr ⟨he, isGuestOf_iff.mpr hekey⟩, rfl⟩
  · rename_i hother
    refine iff_of_false not_mem_nil ?_
    rintro ⟨e, he, -, hkey⟩
    -- A waiting person under the same key would be the same person.
    exact hapart e he _ hmember (id_eq_of_key_eq hother hkey).symm

theorem cohort_of_checks (hapart : room.Apart) {target : ParticipantId} {role : Role}
    {participants lobby : List ParticipantId}
    (hperson : room.participants.get target = some person)
    (hparticipants : room.moderationCohort target role = some participants)
    (hlobby : room.guestIpLobbyCohort person.authenticated person.ip role = some lobby) :
    room.Cohort role participants lobby
      (.forIdentity target person.authenticated person.ip) := by
  obtain ⟨hmem, rfl⟩ := Roster.get_eq_some.mp hperson
  unfold moderationCohort at hparticipants
  rw [hperson, bind_some] at hparticipants
  obtain ⟨hranks, hsorted⟩ := ite_none_right_eq_some.mp hparticipants
  obtain ⟨hlobbyRanks, hlobbySorted⟩ := ite_none_right_eq_some.mp hlobby
  have hin : ∀ id, id ∈ participants ↔ id ∈ room.reach person := by
    intro id
    rw [← Option.some.inj hsorted, mem_insertionSort]
  have hwait : ∀ id, id ∈ lobby ↔ id ∈ room.lobbyReach person.authenticated person.ip := by
    intro id
    rw [← Option.some.inj hlobbySorted, mem_insertionSort]
  constructor
  · intro m hm
    rw [hin, mem_reach hmem]
    constructor
    · rintro ⟨m', hm', hid, hkey⟩
      exact member_eq_of_id_eq hm' hm hid ▸ hkey
    · intro hkey
      exact ⟨m, hm, rfl, hkey⟩
  · intro e he
    rw [hwait, mem_lobbyReach hapart hmem]
    constructor
    · rintro ⟨e', he', hid, hkey⟩
      exact Roster.eq_of_key_eq he' he hid ▸ hkey
    · intro hkey
      exact ⟨e, he, rfl, hkey⟩
  · intro id hid
    obtain ⟨m, hm, hmid, -⟩ := (mem_reach hmem).mp ((hin id).mp hid)
    exact ⟨m, hm, hmid⟩
  · intro id hid
    obtain ⟨e, he, heid, -⟩ := (mem_lobbyReach hapart hmem).mp ((hwait id).mp hid)
    exact ⟨e, he, heid⟩
  · intro m hm hid
    obtain ⟨p, hp, rfl⟩ := mem_members.mp hm
    have hrank := List.all_eq_true.mp hranks _ ((hin _).mp hid)
    rw [Roster.get_of_mem hp] at hrank
    have hmoderate : role.canModerate p.role = true := by simpa using hrank
    have hboth : Role.moderator.rank ≤ role.rank ∧ p.role.rank < role.rank := by
      simpa [Role.canModerate] using hmoderate
    exact hboth.2
  · intro e he hid
    have hrank := List.all_eq_true.mp hlobbyRanks _ ((hwait _).mp hid)
    rw [Roster.get_of_mem he] at hrank
    have hmoderate : role.canModerate e.role = true := by simpa using hrank
    have hboth : Role.moderator.rank ≤ role.rank ∧ e.role.rank < role.rank := by
      simpa [Role.canModerate] using hmoderate
    exact hboth.2

end Room

/-! ## Facts that authorized a change -/

def Change.Fits (room : Room) (role : Role) : Change → Prop
  | .sanction publication =>
    room.Cohort role publication.participants publication.lobby publication.key ∧
      -- rows are kept under an account or an address
      (room.persisted = true → ∀ id, publication.key ≠ .connection id)
  | .removal publication target _ _ =>
    (∃ m ∈ room.members, m.id = target ∧ m.authenticated = publication.authenticated ∧
      m.ip = publication.ip ∧ m.role.rank < role.rank) ∧
    if publication.ban then
      room.Cohort role publication.participants publication.lobby
        (.forIdentity target publication.authenticated publication.ip)
    else publication.participants = [target] ∧ publication.lobby = []
  | .role _ newRole => newRole.rank < role.rank
  | .memberRole target newRole => newRole.rank < role.rank ∧ ∀ m ∈ room.members, m.id ≠ target
  | .identity published displayName text =>
    ∃ current, room.settings = some current ∧
      published = { current with displayName, topic := text }
  | .settings _ _ _ _ | .topic _ | .history _ | .unban _ | .removeBan _ => True

structure Operation.Fits (operation : Operation) (room : Room) : Prop where
  live : room.deleting = false
  socket : ∀ id sender, operation.requester = .socket id sender →
    ∃ m ∈ room.members, m.id = id ∧ m.sender = sender ∧ m.role = operation.role
  account : ∀ user, operation.requester = .account user → room.persisted = true
  change : operation.change.Fits room operation.role
  /-- a role change from a socket is about somebody below it in the room -/
  roleTarget : ∀ id sender target newRole,
    operation.requester = .socket id sender → operation.change = .role target newRole →
      ∃ m ∈ room.members, m.id = target ∧ m.role.rank < operation.role.rank

namespace Room

variable {before after : Room}

theorem Cohort.congr {role : Role} {participants lobby : List ParticipantId}
    {key : SanctionKey} (h : before.Cohort role participants lobby key)
    (hmembers : after.members = before.members) (hlobby : after.lobby = before.lobby) :
    after.Cohort role participants lobby key := by
  obtain ⟨h₁, h₂, h₃, h₄, h₅, h₆⟩ := h
  rw [← hmembers] at h₁ h₃ h₅
  rw [← hlobby] at h₂ h₄ h₆
  exact ⟨h₁, h₂, h₃, h₄, h₅, h₆⟩

end Room

variable {before after : Room} {role : Role}

theorem Change.Fits.congr {change : Change}
    (h : change.Fits before role) (hmembers : after.members = before.members)
    (hlobby : after.lobby = before.lobby) (hsettings : after.settings = before.settings)
    (hpersisted : after.persisted = before.persisted) : change.Fits after role := by
  cases change with
  | sanction =>
    refine ⟨Room.Cohort.congr h.1 hmembers hlobby, ?_⟩
    rw [hpersisted]
    exact h.2
  | removal publication =>
    obtain ⟨hpresent, hcohort⟩ := h
    rw [← hmembers] at hpresent
    refine ⟨hpresent, ?_⟩
    by_cases hban : publication.ban = true
    · rw [if_pos hban] at hcohort ⊢
      exact hcohort.congr hmembers hlobby
    · rw [if_neg hban] at hcohort ⊢
      exact hcohort
  | role => exact h
  | memberRole =>
    unfold Change.Fits at h ⊢
    rw [hmembers]
    exact h
  | identity =>
    unfold Change.Fits at h ⊢
    rw [hsettings]
    exact h
  | settings | topic | history | unban | removeBan => trivial

theorem Operation.Fits.congr {operation : Operation}
    (h : operation.Fits before) (hmembers : after.members = before.members)
    (hlobby : after.lobby = before.lobby) (hsettings : after.settings = before.settings)
    (hdeleting : after.deleting = before.deleting)
    (hpersisted : after.persisted = before.persisted) : operation.Fits after where
  live := hdeleting.trans h.live
  socket := by
    rw [hmembers]
    exact h.socket
  account := by
    rw [hpersisted]
    exact h.account
  change := h.change.congr hmembers hlobby hsettings hpersisted
  roleTarget := by
    rw [hmembers]
    exact h.roleTarget

theorem Operation.Fits.idle {operation : Operation}
    (h : operation.Fits before) (hidle : after.idle = before.idle) :
    operation.Fits after :=
  h.congr (Room.eq_of_idle Room.members Room.idle_members hidle)
    (Room.eq_of_idle Room.lobby (fun _ => rfl) hidle)
    (Room.eq_of_idle Room.settings (fun _ => rfl) hidle)
    (Room.eq_of_idle Room.deleting (fun _ => rfl) hidle)
    (Room.eq_of_idle Room.persisted (fun _ => rfl) hidle)

/-! ## Planning establishes them -/

theorem Role.rank_lt_of_canModerate {target : Role}
    (h : role.canModerate target = true) : target.rank < role.rank := by
  have hboth : Role.moderator.rank ≤ role.rank ∧ target.rank < role.rank := by
    simpa [Role.canModerate] using h
  exact hboth.2

theorem Role.rank_lt_of_canSetRole {target newRole : Role}
    (h : role.canSetRole target newRole = true) :
    target.rank < role.rank ∧ newRole.rank < role.rank := by
  unfold Role.canSetRole at h
  simp only [Bool.and_eq_true, decide_eq_true_eq] at h
  exact ⟨h.1.1.2, h.1.2⟩

section Planning

variable {room : Room} {saved : Saved} {actor : Authority} {change : Change}

variable {target : ParticipantId}

theorem planSanction_fits (hapart : room.Apart) {kind : PunitiveKind} {enabled : Bool}
    (h : planSanction room actor target kind enabled = some change) :
    ∃ publication, change = .sanction publication ∧ change.Fits room actor.role := by
  obtain ⟨person, hperson, h⟩ := bind_eq_some_iff.mp h
  obtain ⟨participants, hparticipants, h⟩ := bind_eq_some_iff.mp h
  obtain ⟨lobby, hlobby, h⟩ := bind_eq_some_iff.mp h
  obtain ⟨hchecks, h⟩ := ite_none_left_eq_some.mp h
  cases h
  refine ⟨_, rfl, Room.cohort_of_checks hapart hperson hparticipants hlobby, ?_⟩
  intro hpersisted id hkey
  obtain ⟨hauthenticated, hip, -⟩ := SanctionKey.forIdentity_connection.mp hkey
  have hguest : person.authenticated = false := hauthenticated
  have hnowhere : person.ip = none := hip
  have hsavable : savable room actor person = true := by
    simp only [Bool.or_eq_true, not_or, Bool.not_eq_true, Bool.not_eq_false'] at hchecks
    exact hchecks.2
  simp [savable, hpersisted, hguest, hnowhere] at hsavable

theorem planKick_fits {report : Option ℕ} (h : planKick room actor target report = some change) :
    ∃ publication, publication.ban = false ∧ change = .removal publication target report none ∧
      change.Fits room actor.role := by
  obtain ⟨person, hperson, h⟩ := bind_eq_some_iff.mp h
  obtain ⟨hrole, h⟩ := ite_none_right_eq_some.mp h
  cases h
  obtain ⟨hmem, hid⟩ := Roster.get_eq_some.mp hperson
  refine ⟨_, rfl, rfl, ⟨person.toLobbyEntry, ?_, hid, rfl, rfl, ?_⟩, rfl, rfl⟩
  · exact Room.mem_members.mpr ⟨person, hmem, rfl⟩
  · exact Role.rank_lt_of_canModerate hrole

variable {now : Instant}

theorem planBan_fits (hapart : room.Apart) {duration report : Option ℕ}
    (h : planBan room actor target duration report now = some change) :
    ∃ publication expiresAt, publication.ban = true ∧
      change = .removal publication target report expiresAt ∧
      change.Fits room actor.role := by
  obtain ⟨person, hperson, h⟩ := bind_eq_some_iff.mp h
  obtain ⟨participants, hparticipants, h⟩ := bind_eq_some_iff.mp h
  obtain ⟨lobby, hlobby, h⟩ := bind_eq_some_iff.mp h
  obtain ⟨-, h⟩ := ite_none_right_eq_some.mp h
  cases h
  obtain ⟨hmem, hid⟩ := Roster.get_eq_some.mp hperson
  have hcohort := Room.cohort_of_checks hapart hperson hparticipants hlobby
  have hmember : person.toLobbyEntry ∈ room.members := Room.mem_members.mpr ⟨person, hmem, rfl⟩
  have hlisted : person.id ∈ participants := by
    rw [hcohort.covers _ hmember, ← hid]
    rfl
  exact ⟨_, _, rfl, rfl, ⟨_, hmember, hid, rfl, rfl, hcohort.outranked _ hmember hlisted⟩, hcohort⟩

variable {newRole : Role}

theorem planRole_fits (h : planRole room actor target newRole = some change) :
    change = .role target newRole ∧ change.Fits room actor.role ∧
      ∃ m ∈ room.members, m.id = target ∧ m.role.rank < actor.role.rank := by
  obtain ⟨person, hperson, h⟩ := bind_eq_some_iff.mp h
  obtain ⟨hchecks, h⟩ := ite_none_right_eq_some.mp h
  cases h
  obtain ⟨hmem, hid⟩ := Roster.get_eq_some.mp hperson
  simp only [Bool.and_eq_true] at hchecks
  obtain ⟨hbelow, hnew⟩ := Role.rank_lt_of_canSetRole hchecks.1.1.1
  exact ⟨rfl, hnew, person.toLobbyEntry, Room.mem_members.mpr ⟨person, hmem, rfl⟩, hid, hbelow⟩

theorem planRoleChange_fits (h : planRoleChange room saved actor target newRole = some change) :
    change = .role target newRole ∧ change.Fits room actor.role := by
  obtain ⟨current, -, h⟩ := bind_eq_some_iff.mp h
  obtain ⟨hchecks, h⟩ := ite_none_right_eq_some.mp h
  cases h
  simp only [Bool.and_eq_true] at hchecks
  exact ⟨rfl, (Role.rank_lt_of_canSetRole hchecks.2).2⟩

theorem planMemberRole_fits (h : planMemberRole room saved actor target newRole = some change) :
    change.Fits room actor.role ∧ ((change = .role target newRole ∧
          ∃ m ∈ room.members, m.id = target ∧ m.role.rank < actor.role.rank) ∨
        change = .memberRole target newRole) := by
  unfold planMemberRole at h
  by_cases hinside : room.participants.contains target = true
  · rw [if_pos hinside] at h
    obtain ⟨hchange, hfits, htarget⟩ := planRole_fits h
    exact ⟨hfits, .inl ⟨hchange, htarget⟩⟩
  rw [if_neg hinside] at h
  obtain ⟨-, h⟩ := ite_none_left_eq_some.mp h
  obtain ⟨current, -, h⟩ := bind_eq_some_iff.mp h
  obtain ⟨hrole, h⟩ := ite_none_right_eq_some.mp h
  cases h
  refine ⟨⟨(Role.rank_lt_of_canSetRole hrole).2, ?_⟩, .inr rfl⟩
  intro m hm
  obtain ⟨p, hp, rfl⟩ := Room.mem_members.mp hm
  have habsent : room.participants.contains target = false := by simpa using hinside
  exact Roster.contains_eq_false.mp habsent p hp

theorem planIdentity_fits {user : ParticipantId} {displayName : String} {topic : Option String}
    (h : planIdentity room user displayName topic = some change) :
    ∃ published, change = .identity published displayName topic ∧ change.Fits room actor.role := by
  obtain ⟨settings, hsettings, h⟩ := bind_eq_some_iff.mp h
  obtain ⟨-, h⟩ := ite_none_right_eq_some.mp h
  cases h
  exact ⟨_, rfl, settings, hsettings, rfl⟩

theorem fits_of_ite {P : Prop} [Decidable P] {planned : Change} {role : Role}
    (h : (if P then some planned else none) = some change)
    (hplanned : planned.Fits room role) : change.Fits room role := by
  obtain ⟨-, h⟩ := ite_none_right_eq_some.mp h
  exact Option.some.inj h ▸ hplanned

theorem planFor_fits (hapart : room.Apart) {requester : Requester} {request : Request}
    (h : planFor room saved now actor requester request = some change) :
    change.Fits room actor.role := by
  cases request with
  | sanction =>
    obtain ⟨_, -, hfits⟩ := planSanction_fits hapart h
    exact hfits
  | kick =>
    obtain ⟨_, -, -, hfits⟩ := planKick_fits h
    exact hfits
  | ban =>
    obtain ⟨_, _, -, -, hfits⟩ := planBan_fits hapart h
    exact hfits
  | role =>
    cases requester with
    | socket => exact (planRole_fits h).2.1
    | account => exact (planRoleChange_fits h).2
  | memberRole =>
    cases requester with
    | socket => exact (planMemberRole_fits h).1
    | account => cases h
  | settings =>
    cases requester with
    | socket | account => exact fits_of_ite h trivial
  | topic | history | unban =>
    cases requester with
    | socket => exact fits_of_ite h trivial
    | account => cases h
  | identity =>
    cases requester with
    | socket => cases h
    | account =>
      obtain ⟨_, -, hfits⟩ := planIdentity_fits h
      exact hfits
  | removeBan => exact fits_of_ite h trivial

theorem planFor_roleTarget {id : ParticipantId} {sender : SenderId} {request : Request}
    (h : planFor room saved now actor (.socket id sender) request =
      some (.role target newRole)) (hapart : room.Apart) :
    ∃ m ∈ room.members, m.id = target ∧ m.role.rank < actor.role.rank := by
  cases request with
  | sanction =>
    obtain ⟨_, hchange, -⟩ := planSanction_fits hapart h
    cases hchange
  | kick =>
    obtain ⟨_, -, hchange, -⟩ := planKick_fits h
    cases hchange
  | ban =>
    obtain ⟨_, _, -, hchange, -⟩ := planBan_fits hapart h
    cases hchange
  | role =>
    obtain ⟨hchange, -, htarget⟩ := planRole_fits h
    cases hchange
    exact htarget
  | memberRole =>
    obtain ⟨-, ⟨hchange, htarget⟩ | hchange⟩ := planMemberRole_fits h
    · cases hchange
      exact htarget
    · cases hchange
  | settings | topic | history | unban | removeBan =>
    obtain ⟨-, hchange⟩ := ite_none_right_eq_some.mp h
    cases hchange
  | identity => cases h

end Planning

variable {room : Room} {saved : Saved} {requester : Requester}

theorem authority_eq_some {actor : Authority} (h : authority room saved requester = some actor) :
    room.deleting = false ∧ (∀ id sender, requester = .socket id sender →
        ∃ m ∈ room.members, m.id = id ∧ m.sender = sender ∧ m.role = actor.role) ∧
      ∀ user, requester = .account user → room.persisted = true := by
  cases requester with
  | socket =>
    obtain ⟨p, hp, rfl⟩ := map_eq_some_iff.mp h
    unfold Room.participantForSender at hp
    obtain ⟨hdeleting, hget⟩ := ite_none_left_eq_some.mp hp
    obtain ⟨hget', hsender⟩ := filter_eq_some_iff.mp hget
    obtain ⟨hmem, hid⟩ := Roster.get_eq_some.mp hget'
    refine ⟨by simpa using hdeleting, ?_, nofun⟩
    intro id' sender' heq
    cases heq
    exact ⟨p.toLobbyEntry, Room.mem_members.mpr ⟨p, hmem, rfl⟩, hid, by simpa using hsender, rfl⟩
  | account =>
    obtain ⟨hchecks, -⟩ := ite_none_left_eq_some.mp h
    simp only [Bool.or_eq_true, not_or, Bool.not_eq_true, Bool.not_eq_false'] at hchecks
    exact ⟨hchecks.1.1.1, nofun, fun _ _ => hchecks.1.1.2⟩

theorem planOperation_eq_some {now : Instant} {request : Request} {operation : Operation}
    (h : planOperation room saved now requester request = some operation) :
    ∃ actor, authority room saved requester = some actor ∧
      planFor room saved now actor requester request = some operation.change ∧
      operation.requester = requester ∧ operation.role = actor.role := by
  obtain ⟨actor, hactor, h⟩ := bind_eq_some_iff.mp h
  obtain ⟨change, hchange, rfl⟩ := map_eq_some_iff.mp h
  exact ⟨actor, hactor, hchange, rfl, rfl⟩

theorem planOperation_fits (hapart : room.Apart)
    {now : Instant} {request : Request} {operation : Operation}
    (h : planOperation room saved now requester request = some operation) :
    operation.Fits room := by
  obtain ⟨actor, hactor, hchange, hrequester, hrole⟩ := planOperation_eq_some h
  obtain ⟨hlive, hsocket, haccount⟩ := authority_eq_some hactor
  rw [← hrequester] at hsocket haccount hchange
  rw [← hrole] at hsocket
  refine ⟨hlive, hsocket, haccount, hrole ▸ planFor_fits hapart hchange, ?_⟩
  intro id sender target newRole hid hrolechange
  rw [hid, hrolechange] at hchange
  rw [hrole]
  exact planFor_roleTarget hchange hapart

/-! ## Control keeps them -/

def Held.operation : Held → Option Operation
  | .saving operation => some operation
  | .publishing operation _ => some operation
  | .admitting _ | .deleting => none

def System.operation (c : System) : Option Operation :=
  c.control.bind Held.operation

theorem System.operation_saving {c : System} {operation : Operation}
    (hheld : c.control = some (.saving operation)) : c.operation = some operation := by
  rw [System.operation, hheld]
  rfl

theorem System.operation_publishing {c : System} {operation : Operation}
    {answer : Answer} (hheld : c.control = some (.publishing operation answer)) :
    c.operation = some operation := by
  rw [System.operation, hheld]
  rfl

structure System.Steady (c : System) : Prop where
  apart : c.room.Apart
  fits : ∀ operation, c.operation = some operation → operation.Fits c.room
  /-- database work is for a room that has rows -/
  saving : ∀ operation, c.control = some (.saving operation) → c.room.persisted = true
  /-- a room without rows gets no answer from them -/
  unsaved : ∀ operation answer, c.control = some (.publishing operation answer) →
    c.room.persisted = false → answer = .saved

namespace System

variable {c d : System}

theorem Steady.free (hapart : d.room.Apart) (hcontrol : d.control = none) : d.Steady := by
  refine ⟨hapart, ?_, ?_, ?_⟩
  · intro operation hoperation
    rw [System.operation, hcontrol] at hoperation
    cases hoperation
  · intro operation hsaving
    rw [hcontrol] at hsaving
    cases hsaving
  · intro operation answer hpublishing
    rw [hcontrol] at hpublishing
    cases hpublishing

theorem Steady.other (hapart : d.room.Apart) {held : Held}
    (hcontrol : d.control = some held) (hheld : held.operation = none) : d.Steady := by
  refine ⟨hapart, ?_, ?_, ?_⟩
  · intro operation hoperation
    rw [System.operation, hcontrol, bind_some, hheld] at hoperation
    cases hoperation
  · intro operation hsaving
    rw [hcontrol] at hsaving
    cases Option.some.inj hsaving
    cases hheld
  · intro operation answer hpublishing
    rw [hcontrol] at hpublishing
    cases Option.some.inj hpublishing
    cases hheld

theorem Steady.idle (h : c.Steady) (hidle : d.room.idle = c.room.idle)
    (hcontrol : d.control = c.control) : d.Steady := by
  have hpersisted : d.room.persisted = c.room.persisted :=
    Room.eq_of_idle Room.persisted (fun _ => rfl) hidle
  refine ⟨h.apart.noNewcomers (.of_idle hidle), ?_, ?_, ?_⟩
  · intro operation hoperation
    rw [System.operation, hcontrol] at hoperation
    exact (h.fits operation hoperation).idle hidle
  · intro operation hsaving
    rw [hcontrol] at hsaving
    rw [hpersisted]
    exact h.saving operation hsaving
  · intro operation answer hpublishing
    rw [hcontrol] at hpublishing
    rw [hpersisted]
    exact h.unsaved operation answer hpublishing

theorem Steady.same (h : c.Steady) (hroom : d.room = c.room)
    (hcontrol : d.control = c.control) : d.Steady :=
  h.idle (congrArg Room.idle hroom) hcontrol

theorem Steady.step (h : c.Steady) {action : Action} (hstep : c.step action = some d) :
    d.Steady := by
  have heffect := step_effect hstep
  have hapart := heffect.apart h.apart
  cases heffect with
  | ticked | joinAdvanced | joinAbandoned | inviteRedeemed => exact h.same rfl rfl
  | joinStarted hcontrol | joinCommitted _ hcontrol _ | left hcontrol
  | rebound hcontrol | admissionRefused hcontrol _ _ | denied hcontrol
  | refused hcontrol | changedAtOnce hcontrol | bansListed hcontrol
  | closedForRejoin hcontrol | evicted hcontrol _ _ | reopened hcontrol _ _ =>
    exact .free hapart hcontrol
  | admitted | admissionDropped | rejected | quarantined | published
  | publicationLost | reportRefused | deleted | deleteRejected | deleteUnknown =>
    exact .free hapart rfl
  | admissionStarted | deleteStarted => exact .other hapart rfl rfl
  | planned hcontrol hplan hheld =>
    rename_i request operation held
    have hpruned := Room.turnLaw_noNewcomers.prunedFor c.room c.now request
    have hfits := planOperation_fits (h.apart.noNewcomers hpruned) hplan
    have hpersisted := prunedFor_persisted c.room c.now request
    obtain ⟨hsaved, rfl⟩ | ⟨hadhoc, -, rfl⟩ := hheld
    · refine ⟨hapart, ?_, ?_, ?_⟩
      · intro other hother
        cases Option.some.inj hother
        exact hfits
      · intro other _
        exact hpersisted.trans hsaved
      · intro other answer hpublishing
        cases hpublishing
    · refine ⟨hapart, ?_, ?_, ?_⟩
      · intro other hother
        cases Option.some.inj hother
        exact hfits
      · intro other hsaving
        cases hsaving
      · intro other answer hpublishing _
        cases hpublishing
        rfl
  | committed hheld hwork =>
    rename_i operation saved answer
    have hpersisted := h.saving operation hheld
    refine ⟨hapart, ?_, ?_, ?_⟩
    · intro other hother
      cases Option.some.inj hother
      exact h.fits operation (operation_saving hheld)
    · intro other hsaving
      cases hsaving
    · intro other answer' _ hadhoc
      exact absurd (hadhoc.symm.trans hpersisted) (by simp)
  | streamed hstream =>
    obtain ⟨hidle, hd⟩ := streamStep_frame hstream
    exact h.idle hidle (by rw [hd])

theorem Initial.steady (h : c.Initial) : c.Steady := .free h.apart h.control

theorem Steady.mayPublish (h : c.Steady) {operation : Operation} {answer : Answer}
    (hheld : c.control = some (.publishing operation answer)) :
    operation.mayPublish c.room = true := by
  have hfits := h.fits operation (operation_publishing hheld)
  cases hrequester : operation.requester with
  | account => simp [Operation.mayPublish, hrequester]
  | socket id sender =>
    obtain ⟨m, hm, hid, hsender, -⟩ := hfits.socket id sender hrequester
    obtain ⟨p, hp, rfl⟩ := Room.mem_members.mp hm
    have hget : c.room.participants.get id = some p := Roster.get_eq_some.mpr ⟨hp, hid⟩
    have hbound : c.room.participantForSender id sender = some p := by
      simp [Room.participantForSender, hfits.live, hget, hsender]
    simp [Operation.mayPublish, hrequester, hbound, hfits.live]

end System

/-! ## Role changes -/

/-- Every record of the account in the room has the role, and admitting the account
from the lobby gives it that role. -/
def Room.ShowsRole (room : Room) (target : ParticipantId) (role : Role) : Prop :=
  (∀ p ∈ room.participants, p.id = target → p.role = role) ∧
    ∀ e ∈ room.lobby, e.id = target → e.role = role ∧
      ∀ p ∈ (room.admitEntry e).participants, p.id = target → p.role = role

namespace Room

variable {room : Room} {target : ParticipantId} {role : Role}

theorem showsRole_iff (hinside : ∀ p ∈ room.participants, p.id = target → p.role = role) :
    room.ShowsRole target role ↔ ∀ e ∈ room.lobby, e.id = target → e.role = role := by
  constructor
  · intro h e he hid
    exact (h.2 e he hid).1
  intro h
  refine ⟨hinside, fun e he hid => ⟨h e he hid, fun p hp hpid => ?_⟩⟩
  rcases Roster.mem_insert.mp hp with ⟨hold, -⟩ | rfl
  · exact hinside p hold hpid
  · exact h e he hid

theorem publishRole_showsRole (room : Room) (target : ParticipantId) (role : Role) :
    (room.publishRole target role).ShowsRole target role := by
  have hidle := room.publishRole_idle target role
  have hmembers : (room.publishRole target role).members = _ :=
    (eq_of_idle members idle_members hidle).trans (room.members_withRole target role)
  have hlobby : (room.publishRole target role).lobby = (room.withRole target role).lobby :=
    (eq_of_idle lobby (fun _ => rfl) hidle).trans rfl
  refine (showsRole_iff fun p hp hid => ?_).mpr fun e he hid => ?_
  · have hmember := mem_members.mpr ⟨p, hp, rfl⟩
    rw [hmembers] at hmember
    obtain ⟨e, -, he⟩ := List.mem_map.mp hmember
    split at he
    · exact congrArg LobbyEntry.role he.symm
    · rename_i hother
      exact absurd ((congrArg LobbyEntry.id he).trans hid) hother
  · simp only [hlobby, withRole, Roster.mem_update] at he
    rcases he with ⟨-, hother⟩ | ⟨old, -, -, rfl⟩
    · exact absurd hid hother
    · rfl

end Room

def Change.roleChange : Change → Option (ParticipantId × Role)
  | .role target newRole | .memberRole target newRole => some (target, newRole)
  | _ => none

namespace System

variable {c d e : System} {operation : Operation} {answer : Answer} {listedAt : Instant}

theorem Steady.publish (h : c.Steady) (hheld : c.control = some (.publishing operation answer))
    (hstep : c.step (.policy (.publish listedAt)) = some d) :
    d.room = operation.change.publish c.room answer c.now listedAt := by
  simp only [System.step, policyStep, System.publish, hheld, h.mayPublish hheld, if_true]
    at hstep
  obtain ⟨-, hstep⟩ := ite_none_right_eq_some.mp hstep
  exact Option.some.inj hstep ▸ rfl

/-- A role change that completes shows in every record of the account, unless it was made
from the member list while the account waits in the lobby with another role. -/
theorem role_change_shows_iff {actions : List Action} (hinit : c.Initial)
    (hrun : c.run actions = some d)
    (hheld : d.control = some (.publishing operation answer))
    {target : ParticipantId} {role : Role}
    (hchange : operation.change.roleChange = some (target, role))
    (hstep : d.step (.policy (.publish listedAt)) = some e) :
    e.room.ShowsRole target role ↔ (operation.change = .memberRole target role →
        ∀ entry ∈ d.room.lobby, entry.id = target → entry.role = role) := by
  have hd : d.Steady := Transition.run_kept (fun _ _ _ h => h.step) hinit.steady hrun
  have hfits := (hd.fits operation (operation_publishing hheld)).change
  rw [hd.publish hheld hstep]
  cases hoperation : operation.change with
  | role =>
    rw [hoperation] at hchange
    cases hchange
    exact ⟨nofun, fun _ => Room.publishRole_showsRole _ _ _⟩
  | memberRole =>
    rw [hoperation] at hchange hfits
    cases hchange
    refine (Room.showsRole_iff fun p hp hid => ?_).trans ⟨fun h _ => h, fun h => h rfl⟩
    exact absurd hid (hfits.2 _ (Room.mem_members.mpr ⟨p, hp, rfl⟩))
  | _ =>
    rw [hoperation] at hchange
    cases hchange

def lobbyRoom : Saved := { Saved.lounge with
    settings := { Saved.lounge.settings with lobbyEnabled := true }
    roles := Function.update (fun _ => none) 2 (some .member) }

def promotes (requester : Requester) (request : Request) : List Action :=
  Join.enters ⟨1, 1, true, none, none⟩ (opened lobbyRoom).room.snapshot (some .owner) {} ++
    Join.enters ⟨2, 2, true, none, none⟩ (opened lobbyRoom).room.snapshot
      (some .member) {} ++
    [.policy (.authorize requester request), .policy (.save none)]

/-- Over HTTP the lobby is reached too. -/
theorem promotes_account_shows :
    ∃ d e, run (opened lobbyRoom) (promotes (.account 1) (.role 2 .moderator)) = some d ∧
      d.room.lobby.contains 2 = true ∧ d.step (.policy (.publish 0)) = some e ∧
      e.room.ShowsRole 2 .moderator := by
  obtain ⟨d, hrun, hheld, hwaits, hsteps⟩ :
      ∃ d, run (opened lobbyRoom) (promotes (.account 1) (.role 2 .moderator)) = some d ∧
        d.control = some (.publishing ⟨.account 1, .owner, .role 2 .moderator⟩ .saved) ∧
        d.room.lobby.contains 2 = true ∧
        (d.step (.policy (.publish 0))).isSome = true :=
    Transition.exists_of_any (by decide +kernel)
  obtain ⟨e, hstep⟩ := isSome_iff_exists.mp hsteps
  exact ⟨d, e, hrun, hwaits, hstep,
    (role_change_shows_iff (opened_initial _) hrun hheld rfl hstep).mpr nofun⟩

/-- From the member list it is not: the account is admitted with its old role. -/
theorem promotes_member_admits_old_role :
    ∃ d e, run (opened lobbyRoom) (promotes (.socket 1 1) (.memberRole 2 .moderator) ++
        [.policy (.publish 0)]) = some d ∧
      d.control = none ∧ d.saved.currentRole 2 = some .moderator ∧
      ¬d.room.ShowsRole 2 .moderator ∧
      d.run [.member (.startAdmission (.socket 1 1) 2), .member .finishAdmission] = some e ∧
      ∃ p ∈ e.room.participants, p.id = 2 ∧ p.role = .member := by
  obtain ⟨d, hrun, hcontrol, hsaved, ⟨entry, hentry, hid, hrole⟩, hlater⟩ :
      ∃ d, run (opened lobbyRoom) (promotes (.socket 1 1) (.memberRole 2 .moderator) ++
          [.policy (.publish 0)]) = some d ∧
        d.control = none ∧ d.saved.currentRole 2 = some .moderator ∧
        (∃ e ∈ d.room.lobby.entries, e.id = 2 ∧ e.role = .member) ∧
        ((d.run [.member (.startAdmission (.socket 1 1) 2), .member .finishAdmission]).any fun e =>
            decide (∃ p ∈ e.room.participants.entries, p.id = 2 ∧ p.role = .member)) = true :=
    Transition.exists_of_any (by decide +kernel)
  obtain ⟨e, he, hadmitted⟩ := Transition.exists_of_any hlater
  refine ⟨d, e, hrun, hcontrol, hsaved, fun hshows => ?_, he, hadmitted⟩
  have hnew := (hshows.2 entry hentry hid).1
  rw [hrole] at hnew
  cases hnew

end System

end SimplestChat.Policy
