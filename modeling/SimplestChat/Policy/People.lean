import SimplestChat.Policy.Effects

/-!
# Who is in the room

Most turns move nobody in: whoever is in the room or in its lobby afterwards was
there before, as the same person. The exceptions are the commit of a join and
the second turn of an admission.

Streams come and go without the room's control. `Room.idle` forgets them, so a
turn that only touches streams is an equation between idle rooms.
-/

namespace SimplestChat.Policy

open Roster Policy.Room

namespace Room

/-! ## Members -/

def members (room : Room) : List LobbyEntry :=
  room.participants.entries.map (·.toLobbyEntry)

variable {room : Room}

theorem mem_members {e : LobbyEntry} :
    e ∈ room.members ↔ ∃ p ∈ room.participants, p.toLobbyEntry = e := by
  unfold members
  rw [List.mem_map]
  exact Iff.rfl

theorem mem_people {e : LobbyEntry} : e ∈ room.people ↔ e ∈ room.members ∨ e ∈ room.lobby :=
  List.mem_append

theorem member_eq_of_id_eq {a b : LobbyEntry} (ha : a ∈ room.members)
    (hb : b ∈ room.members) (h : a.id = b.id) : a = b := by
  obtain ⟨p, hp, rfl⟩ := mem_members.mp ha
  obtain ⟨q, hq, rfl⟩ := mem_members.mp hb
  rw [eq_of_key_eq hp hq h]

/-! ## Rooms without their streams -/

def idle (room : Room) : Room := { room with
    participants := room.participants.map (fun p => { p with producers := [] })
      fun _ => rfl
    producerToParticipant := fun _ => none }

theorem idle_members (room : Room) : room.idle.members = room.members := by
  unfold members idle Roster.map
  rw [List.map_map]
  rfl

theorem eq_of_idle {β : Type*} (f : Room → β) (hf : ∀ room, f room.idle = f room)
    {before after : Room} (h : after.idle = before.idle) : f after = f before := by
  rw [← hf, h, hf]

theorem dropProducers_idle (room : Room) (dropped : List (ParticipantId × ProducerId)) :
    (room.dropProducers dropped).idle = room.idle := by
  unfold idle dropProducers Roster.map
  simp only [List.map_map]
  rfl

theorem recordProducer_idle (room : Room) (id : ParticipantId) (record : Producer) :
    (room.recordProducer id record).idle = room.idle := by
  have hentry : ∀ p : Participant, ({ (if p.id = id then
            { p with producers := (p.producers.filter fun r => r.id ≠ record.id) ++ [record] }
          else p) with producers := [] } : Participant) = { p with producers := [] } := by
    intro p
    split <;> rfl
  unfold idle recordProducer Roster.update Roster.map
  simp only [List.map_map]
  congr 2
  exact List.map_congr_left fun p _ => hentry p

theorem revokeUnauthorizedProducers_idle (room : Room) (only : Option ParticipantId) :
    (room.revokeUnauthorizedProducers only).idle = room.idle :=
  room.dropProducers_idle _

theorem finishClosing_idle (room : Room) (closing : Closing) :
    (room.finishClosing closing).idle = room.idle := by
  unfold finishClosing
  split
  · exact room.dropProducers_idle _
  · rfl

theorem revokeEach_idle (room : Room) (ids : List ParticipantId) :
    (ids.foldl (fun room id => room.revokeUnauthorizedProducers (some id)) room).idle =
      room.idle := by
  induction ids generalizing room with
  | nil => rfl
  | cons id rest ih => rw [List.foldl_cons, ih, revokeUnauthorizedProducers_idle]

theorem bumpPolicy_idle (room : Room) : room.bumpPolicy.idle = room.idle.bumpPolicy := rfl

theorem publishSanction_idle (room : Room) (publication : SanctionPublication) :
    (room.publishSanction publication).idle =
      (room.applyPunitiveToCohort publication.participants publication.lobby
        publication.key publication.kind publication.enabled).bumpPolicy.idle := by
  unfold publishSanction
  dsimp only
  rw [bumpPolicy_idle, bumpPolicy_idle]
  split
  · rw [revokeEach_idle]
  · rfl

theorem participant_id_role (role : Role) (p : Participant) : { p with role }.id = p.id := rfl

theorem lobbyEntry_id_role (role : Role) (e : LobbyEntry) : { e with role }.id = e.id := rfl

def withRole (room : Room) (target : ParticipantId) (role : Role) : Room := { room with
    participants := room.participants.update target (fun p => { p with role })
      (participant_id_role role)
    lobby := room.lobby.update target (fun e => { e with role }) (lobbyEntry_id_role role) }

theorem publishRole_idle (room : Room) (target : ParticipantId) (role : Role) :
    (room.publishRole target role).idle = (room.withRole target role).bumpPolicy.idle :=
  revokeUnauthorizedProducers_idle _ _

def withSettings (room : Room) (settings : Settings)
    (passwordHash : Option (Option PasswordHash)) : Room :=
  { room with
    settings := some settings
    passwordHash := passwordHash.getD room.passwordHash }

theorem publishSettings_idle (room : Room) (settings : Settings)
    (passwordHash : Option (Option PasswordHash)) :
    (room.publishSettings settings passwordHash).idle =
      (room.withSettings settings passwordHash).bumpPolicy.idle :=
  revokeUnauthorizedProducers_idle _ _

/-! ## Members under an update -/

theorem toLobbyEntry_map (l : List Participant) {f : Participant → Participant}
    {g : LobbyEntry → LobbyEntry} (hg : ∀ p, (f p).toLobbyEntry = g p.toLobbyEntry) :
    (l.map f).map (·.toLobbyEntry) = (l.map (·.toLobbyEntry)).map g := by
  rw [List.map_map, List.map_map]
  exact List.map_congr_left fun p _ => hg p

theorem members_applyPunitiveToCohort (room : Room)
    (participants lobby : List ParticipantId) (key : SanctionKey)
    (kind : PunitiveKind) (enabled : Bool) :
    (room.applyPunitiveToCohort participants lobby key kind enabled).members =
      room.members.map fun e =>
        if e.id ∈ participants then
          { e with punitive := (room.cohortPunitive participants lobby key).set kind enabled }
        else e := by
  refine toLobbyEntry_map room.participants.entries fun p => ?_
  split <;> rfl

theorem members_withRole (room : Room) (target : ParticipantId) (role : Role) :
    (room.withRole target role).members =
      room.members.map fun e => if e.id = target then { e with role } else e := by
  refine toLobbyEntry_map room.participants.entries fun p => ?_
  dsimp only
  split <;> rfl

theorem members_setSender (room : Room) (target : ParticipantId) (sender : SenderId)
    (hkey : ∀ p : Participant, ({ p with sender } : Participant).id = p.id) :
    ({ room with
        participants := room.participants.update target (fun p => { p with sender })
          hkey } : Room).members =
      room.members.map fun e => if e.id = target then { e with sender } else e := by
  refine toLobbyEntry_map room.participants.entries fun p => ?_
  dsimp only
  split <;> rfl

theorem members_removeParticipants (room : Room) (ids : List ParticipantId) :
    (room.removeParticipants ids).members = room.members.filter fun e => e.id ∉ ids := by
  unfold members removeParticipants Roster.filter
  rw [List.filter_map]
  rfl

/-! ## Relations that turns respect -/

/-- A preorder on rooms that contains the elementary changes, sanctions aside. -/
structure TurnLaw (R : Room → Room → Prop) : Prop where
  trans : ∀ {a b c}, R a b → R b c → R a c
  same : ∀ {a b : Room}, b.participants = a.participants → b.lobby = a.lobby →
    b.sanctions = a.sanctions → b.producerToParticipant = a.producerToParticipant → R a b
  revoke : ∀ room only, R room (room.revokeUnauthorizedProducers only)
  removeParticipants : ∀ room ids, R room (room.removeParticipants ids)
  removeFromLobby : ∀ room ids, R room (room.removeFromLobby ids)
  setSender : ∀ (room : Room) id sender, R room
    { room with
      participants := room.participants.update id (fun p => { p with sender }) fun _ => rfl }
  withRole : ∀ room target role, R room (room.withRole target role)

namespace TurnLaw

variable {R : Room → Room → Prop} (law : TurnLaw R) (room : Room)
include law

theorem refl : R room room := law.same rfl rfl rfl rfl

theorem bump : R room room.bumpPolicy := law.same rfl rfl rfl rfl

theorem removeForSender (id : ParticipantId) (sender : SenderId) :
    R room (room.removeForSender id sender) := by
  unfold Room.removeForSender
  split
  · exact law.trans (law.removeFromLobby room [id]) (law.removeParticipants _ [id])
  · exact law.refl room

theorem rebind (id : ParticipantId) (subject : Option ParticipantId)
    (old new : SenderId) : R room (room.rebind id subject old new) := by
  unfold Room.rebind
  split
  · exact law.setSender room id new
  · exact law.refl room

theorem publishRemoval (publication : RemovalPublication) (now listedAt : Instant) :
    R room (room.publishRemoval publication now listedAt) := by
  unfold Room.publishRemoval
  refine law.trans ?_ (law.bump _)
  by_cases hban : publication.ban = true
  · rw [if_pos hban, if_pos hban]
    refine law.trans (law.trans ?_ (law.removeParticipants _ _)) (law.removeFromLobby _ _)
    -- what a ban remembers touches nobody
    exact law.same rfl rfl rfl rfl
  · rw [if_neg hban, if_neg hban]
    exact law.removeParticipants _ _

theorem prunedFor (now : Instant) (request : Request) : R room (prunedFor room now request) := by
  cases request <;> exact law.same rfl rfl rfl rfl

theorem publish (answer : Answer) (now listedAt : Instant) {change : Change}
    (hsanction : ∀ publication, change = .sanction publication →
      R room (room.publishSanction publication)) :
    R room (change.publish room answer now listedAt) := by
  cases change with
  | sanction publication => exact hsanction publication rfl
  | removal publication =>
    change R room (ite _ _ _)
    split
    · exact law.publishRemoval room publication now listedAt
    · exact law.refl room
  | role target newRole =>
    exact law.trans (law.withRole room target newRole) (law.trans (law.bump _) (law.revoke _ _))
  | settings updated patch password passwordHash =>
    have hwith : R room (room.withSettings updated passwordHash).bumpPolicy :=
      law.same rfl rfl rfl rfl
    exact law.trans hwith (law.revoke _ _)
  | memberRole | topic | identity | history => exact law.same rfl rfl rfl rfl
  | unban =>
    change R room (ite _ _ _)
    split <;> exact law.same rfl rfl rfl rfl
  | removeBan ban =>
    cases answer with
    | ban removed =>
      change R room (publishRemovedBan room removed)
      unfold publishRemovedBan
      split <;> exact law.same rfl rfl rfl rfl
    | saved | userBan =>
      change R room (removeListedBan room ban)
      unfold removeListedBan
      split <;> exact law.same rfl rfl rfl rfl

end TurnLaw

/-! ## Turns that let nobody in -/

end Room

def LobbyEntry.SamePerson (a b : LobbyEntry) : Prop :=
  a.id = b.id ∧ a.session = b.session ∧ a.authenticated = b.authenticated ∧ a.ip = b.ip

theorem LobbyEntry.SamePerson.refl (a : LobbyEntry) : a.SamePerson a := ⟨rfl, rfl, rfl, rfl⟩

theorem LobbyEntry.SamePerson.trans {a b c : LobbyEntry} (hab : a.SamePerson b)
    (hbc : b.SamePerson c) : a.SamePerson c :=
  ⟨hab.1.trans hbc.1, hab.2.1.trans hbc.2.1, hab.2.2.1.trans hbc.2.2.1, hab.2.2.2.trans hbc.2.2.2⟩

theorem LobbyEntry.SamePerson.ite {a b : LobbyEntry} {P : Prop} [Decidable P]
    (h : a.SamePerson b) : a.SamePerson (if P then b else a) := by
  split
  · exact h
  · exact .refl a

namespace Room

/-- Everyone here now was here before, on the same side of the door. -/
structure NoNewcomers (before after : Room) : Prop where
  members : ∀ e ∈ after.members, ∃ e' ∈ before.members, e'.SamePerson e
  lobby : ∀ e ∈ after.lobby, ∃ e' ∈ before.lobby, e'.SamePerson e

namespace NoNewcomers

variable {before after : Room}

theorem of_eq (hmembers : after.members = before.members)
    (hlobby : after.lobby = before.lobby) : NoNewcomers before after where
  members := by
    intro e he
    exact ⟨e, hmembers ▸ he, .refl e⟩
  lobby := by
    intro e he
    exact ⟨e, hlobby ▸ he, .refl e⟩

theorem refl (room : Room) : NoNewcomers room room := of_eq rfl rfl

theorem of_idle (h : after.idle = before.idle) : NoNewcomers before after :=
  of_eq (eq_of_idle Room.members idle_members h) (eq_of_idle Room.lobby (fun _ => rfl) h)

theorem of_map {f g : LobbyEntry → LobbyEntry} (hmembers : after.members = before.members.map f)
    (hf : ∀ e : LobbyEntry, e.SamePerson (f e))
    (hlobby : after.lobby.entries = before.lobby.entries.map g)
    (hg : ∀ e : LobbyEntry, e.SamePerson (g e)) : NoNewcomers before after where
  members := by
    intro e he
    rw [hmembers] at he
    obtain ⟨e', he', rfl⟩ := List.mem_map.mp he
    exact ⟨e', he', hf e'⟩
  lobby := by
    intro e he
    rw [mem_def, hlobby] at he
    obtain ⟨e', he', rfl⟩ := List.mem_map.mp he
    exact ⟨e', he', hg e'⟩

theorem of_empty (hmembers : after.members = []) (hlobby : after.lobby.entries = []) :
    NoNewcomers before after where
  members := by
    intro e he
    rw [hmembers] at he
    cases he
  lobby := by
    intro e he
    rw [mem_def, hlobby] at he
    cases he

theorem trans {middle : Room} (hfirst : NoNewcomers before middle)
    (hsecond : NoNewcomers middle after) : NoNewcomers before after where
  members := by
    intro e he
    obtain ⟨e', he', hsame⟩ := hsecond.members e he
    obtain ⟨e'', he'', hsame'⟩ := hfirst.members e' he'
    exact ⟨e'', he'', hsame'.trans hsame⟩
  lobby := by
    intro e he
    obtain ⟨e', he', hsame⟩ := hsecond.lobby e he
    obtain ⟨e'', he'', hsame'⟩ := hfirst.lobby e' he'
    exact ⟨e'', he'', hsame'.trans hsame⟩

theorem bump (h : NoNewcomers before after) : NoNewcomers before after.bumpPolicy :=
  ⟨h.members, h.lobby⟩

theorem congr_idle {other : Room} (hother : NoNewcomers before other)
    (h : after.idle = other.bumpPolicy.idle) : NoNewcomers before after :=
  hother.bump.trans (of_idle h)

end NoNewcomers

theorem pruneExpiredBans_noNewcomers (room : Room) (now : Instant) :
    NoNewcomers room (room.pruneExpiredBans now) :=
  .of_eq rfl rfl

theorem removeParticipants_noNewcomers (room : Room) (ids : List ParticipantId) :
    NoNewcomers room (room.removeParticipants ids) where
  members := by
    intro e he
    rw [members_removeParticipants] at he
    exact ⟨e, (List.mem_filter.mp he).1, .refl e⟩
  lobby := by
    intro e he
    exact ⟨e, he, .refl e⟩

theorem removeFromLobby_noNewcomers (room : Room) (ids : List ParticipantId) :
    NoNewcomers room (room.removeFromLobby ids) where
  members := by
    intro e he
    exact ⟨e, he, .refl e⟩
  lobby := by
    intro e he
    exact ⟨e, (mem_filter.mp he).1, .refl e⟩

theorem applyPunitiveToCohort_noNewcomers (room : Room)
    (participants lobby : List ParticipantId) (key : SanctionKey)
    (kind : PunitiveKind) (enabled : Bool) :
    NoNewcomers room
      (room.applyPunitiveToCohort participants lobby key kind enabled) :=
  .of_map (room.members_applyPunitiveToCohort participants lobby key kind enabled)
    (fun _ => .ite ⟨rfl, rfl, rfl, rfl⟩) rfl (fun _ => .ite ⟨rfl, rfl, rfl, rfl⟩)

theorem turnLaw_noNewcomers : TurnLaw NoNewcomers where
  trans := .trans
  same hparticipants hlobby _ _ := .of_eq (by simp [members, hparticipants]) hlobby
  revoke room only := .of_idle (room.revokeUnauthorizedProducers_idle only)
  removeParticipants := removeParticipants_noNewcomers
  removeFromLobby := removeFromLobby_noNewcomers
  setSender room id sender := .of_map (room.members_setSender id sender _)
    (fun _ => .ite ⟨rfl, rfl, rfl, rfl⟩) (List.map_id _).symm .refl
  withRole room target role := .of_map (room.members_withRole target role)
    (fun _ => .ite ⟨rfl, rfl, rfl, rfl⟩) rfl (fun _ => .ite ⟨rfl, rfl, rfl, rfl⟩)

end Room

theorem Change.publish_noNewcomers (room : Room) (answer : Answer)
    (now listedAt : Instant) (change : Change) :
    Room.NoNewcomers room (change.publish room answer now listedAt) :=
  turnLaw_noNewcomers.publish room answer now listedAt fun publication _ =>
    (room.applyPunitiveToCohort_noNewcomers _ _ _ _ _).congr_idle
      (room.publishSanction_idle publication)

/-! ## Streams move nobody -/

variable {c d : System}

theorem System.streamStep_frame {action : StreamAction} (h : c.streamStep action = some d) :
    d.room.idle = c.room.idle ∧ d = { c with
        room := d.room
        productions := d.productions
        closings := d.closings
        nextProducer := d.nextProducer } := by
  cases action with
  | check =>
    obtain ⟨-, ⟨⟩⟩ := Option.ite_none_right_eq_some.mp h
    exact ⟨rfl, rfl⟩
  | create production =>
    change c.createProducer production = some d at h
    unfold createProducer at h
    split at h
    · split at h
      · obtain ⟨-, ⟨⟩⟩ := Option.ite_none_right_eq_some.mp h
        exact ⟨rfl, rfl⟩
      · cases h
    · cases h
  | record production =>
    change c.recordProducer production = some d at h
    unfold recordProducer at h
    split at h
    · obtain ⟨-, hd⟩ := Option.ite_none_right_eq_some.mp h
      rw [← Option.some.inj hd]
      refine ⟨?_, rfl⟩
      dsimp only
      split
      · exact recordProducer_idle _ _ _
      · rfl
    · cases h
  | close id sender producer =>
    change c.closeProducer id sender producer = some d at h
    unfold closeProducer at h
    split at h
    · obtain ⟨-, ⟨⟩⟩ := Option.ite_none_right_eq_some.mp h
      exact ⟨rfl, rfl⟩
    · cases h
  | closeCam id sender target =>
    change c.closeCam id sender target = some d at h
    unfold closeCam at h
    split at h
    · obtain ⟨-, ⟨⟩⟩ := Option.ite_none_right_eq_some.mp h
      exact ⟨rfl, rfl⟩
    · cases h
  | finishClosing =>
    obtain ⟨-, ⟨⟩⟩ := Option.ite_none_right_eq_some.mp h
    exact ⟨finishClosing_idle _ _, rfl⟩

/-! ## Who comes in -/

/-- A committed join puts one new person where its placement says. -/
structure Join.Entered (join : Join) (c d : System) (role : Option Role)
    (punitive : PunitiveState) (placement : Placement) : Prop where
  matched : c.room.policySnapshotMatches join.snapshot.revision = true
  decided : (c.room.pruneExpiredBans c.now).decideJoin c.maxParticipantsPerRoom
    join.request join.snapshot role punitive = .ok placement
  room : d.room = (c.room.pruneExpiredBans c.now).place join.request c.nextSession
    placement

theorem Room.commitJoin_cases (room : Room) (maxParticipantsPerRoom : Option ℕ)
    (now : Instant) (request : JoinRequest) (snapshot : Snapshot)
    (resolved : Option Role) (persisted : PunitiveState) (session : MediaSession) :
    let committed := room.commitJoin maxParticipantsPerRoom now request snapshot
      resolved persisted session
    committed.1 = room ∨ committed.1 = room.pruneExpiredBans now ∨
      ∃ placement, room.policySnapshotMatches snapshot.revision = true ∧
        (room.pruneExpiredBans now).decideJoin maxParticipantsPerRoom request snapshot
          resolved persisted = .ok placement ∧
        committed = ((room.pruneExpiredBans now).place request session placement,
          .ok placement) := by
  intro committed
  by_cases hmatch : room.policySnapshotMatches snapshot.revision = true
  · cases hdecide : (room.pruneExpiredBans now).decideJoin maxParticipantsPerRoom
      request snapshot resolved persisted with
    | error message =>
      refine .inr (.inl ?_)
      simp [committed, commitJoin, hmatch, hdecide]
    | ok placement =>
      refine .inr (.inr ⟨placement, hmatch, rfl, ?_⟩)
      simp [committed, commitJoin, hmatch, hdecide]
  · refine .inl ?_
    simp [committed, commitJoin, hmatch]

theorem Effect.arrivals {action : Action} (h : Effect c action d) : Room.NoNewcomers c.room d.room ∨
      (∃ target entry, c.control = some (.admitting target) ∧
        c.room.lobby.get target = some entry ∧ c.room.deleting = false ∧
        d.room = c.room.admitEntry entry) ∨
      ∃ join role punitive placement, action = .join (.commit join) ∧
        join ∈ c.joins ∧ join.point = .commit role punitive ∧ c.control = none ∧
        join.Entered c d role punitive placement := by
  cases h with
  | ticked | joinStarted | joinAdvanced | joinAbandoned | admissionDropped
  | committed | rejected | publicationLost | reportRefused | inviteRedeemed
  | deleteUnknown => exact .inl (.refl c.room)
  | joinCommitted hpoint hcontrol hjoin =>
    rename_i join role punitive
    obtain hsame | hpruned | ⟨placement, hmatch, hdecide, hcommit⟩ :=
      c.room.commitJoin_cases c.maxParticipantsPerRoom c.now join.request
        join.snapshot role punitive c.nextSession
    · exact .inl (.of_eq (congrArg members hsame) (congrArg lobby hsame))
    · refine .inl ((c.room.pruneExpiredBans_noNewcomers c.now).trans ?_)
      exact .of_eq (congrArg members hpruned) (congrArg lobby hpruned)
    · exact .inr (.inr ⟨join, role, punitive, placement, rfl, hjoin, hpoint, hcontrol,
        hmatch, hdecide, congrArg Prod.fst hcommit⟩)
  | left => exact .inl (turnLaw_noNewcomers.removeForSender _ _ _)
  | rebound => exact .inl (turnLaw_noNewcomers.rebind _ _ _ _ _)
  | admissionRefused | admissionStarted => exact .inl (c.room.pruneExpiredBans_noNewcomers _)
  | admitted hheld hentry hlive => exact .inr (.inl ⟨_, _, hheld, hentry, hlive, rfl⟩)
  | denied => exact .inl (c.room.removeFromLobby_noNewcomers _)
  | refused | planned => exact .inl (turnLaw_noNewcomers.prunedFor _ _ _)
  | changedAtOnce =>
    exact .inl ((turnLaw_noNewcomers.prunedFor _ _ _).trans (Change.publish_noNewcomers _ _ _ _ _))
  | quarantined | closedForRejoin | deleted | reopened => exact .inl (.of_empty rfl rfl)
  | published => exact .inl (Change.publish_noNewcomers _ _ _ _ _)
  | bansListed | deleteStarted | deleteRejected | evicted => exact .inl (.of_eq rfl rfl)
  | streamed hstep => exact .inl (.of_idle (System.streamStep_frame hstep).1)

/-! ## Nobody is on both sides of the door -/

namespace Room

def Apart (room : Room) : Prop :=
  ∀ e ∈ room.lobby, ∀ m ∈ room.members, m.id ≠ e.id

theorem Apart.noNewcomers {before after : Room} (h : before.Apart)
    (hnone : NoNewcomers before after) : after.Apart := by
  intro e he m hm hid
  obtain ⟨e', he', hsame⟩ := hnone.lobby e he
  obtain ⟨m', hm', hsame'⟩ := hnone.members m hm
  exact h e' he' m' hm' (by rw [hsame'.1, hsame.1, hid])

variable {room : Room} {e : LobbyEntry}

theorem mem_members_admitEntry {entry : LobbyEntry} : e ∈ (room.admitEntry entry).members ↔
      (e ∈ room.members ∧ e.id ≠ entry.id) ∨
        e = { entry with punitive := entry.punitive.merge (room.sanctions entry.key) } := by
  rw [mem_members, mem_members]
  constructor
  · rintro ⟨p, hp, rfl⟩
    obtain ⟨hp', hid⟩ | rfl := mem_insert.mp hp
    · exact .inl ⟨⟨p, hp', rfl⟩, hid⟩
    · exact .inr rfl
  · rintro (⟨⟨p, hp, rfl⟩, hid⟩ | rfl)
    · exact ⟨p, mem_insert.mpr (.inl ⟨hp, hid⟩), rfl⟩
    · exact ⟨_, mem_insert.mpr (.inr rfl), rfl⟩

theorem Apart.admitEntry (h : room.Apart) {entry : LobbyEntry} : (room.admitEntry entry).Apart := by
  intro e he m hm
  obtain ⟨he', hid⟩ := mem_erase.mp he
  obtain ⟨hm', -⟩ | rfl := mem_members_admitEntry.mp hm
  · exact h e he' m hm'
  · exact fun hsame => hid hsame.symm

def newcomer (request : JoinRequest) (session : MediaSession) (placement : Placement) :
    LobbyEntry :=
  ⟨request.id, request.sender, session, request.authenticated, request.ip,
    placement.role, placement.punitive⟩

def remembering (room : Room) (key : SanctionKey) (punitive : PunitiveState) :
    SanctionKey → Option PunitiveState :=
  if punitive = {} then room.sanctions
  else Function.update room.sanctions key (some punitive)

variable {request : JoinRequest} {session : MediaSession} {placement : Placement}

theorem place_lobbied (room : Room) (h : placement.lobbied = true) :
    room.place request session placement = { room with
        sanctions := room.remembering request.key placement.punitive
        lobby := room.lobby.insert (newcomer request session placement) } := by
  unfold place remembering
  dsimp only
  rw [if_pos h]
  by_cases hnone : placement.punitive = {}
  · rw [if_pos hnone, if_pos hnone]
    rfl
  · rw [if_neg hnone, if_neg hnone]
    rfl

theorem place_inside (room : Room) (h : ¬placement.lobbied = true) :
    room.place request session placement = { room with
        sanctions := room.remembering request.key placement.punitive
        participants := room.participants.insert
          { newcomer request session placement with producers := [] } } := by
  unfold place remembering
  dsimp only
  rw [if_neg h]
  by_cases hnone : placement.punitive = {}
  · rw [if_pos hnone, if_pos hnone]
    rfl
  · rw [if_neg hnone, if_neg hnone]
    rfl

theorem mem_members_place : e ∈ (room.place request session placement).members ↔
      if placement.lobbied then e ∈ room.members
      else (e ∈ room.members ∧ e.id ≠ request.id) ∨ e = newcomer request session placement := by
  by_cases hlobbied : placement.lobbied = true
  · rw [if_pos hlobbied, room.place_lobbied hlobbied]
    exact Iff.rfl
  rw [if_neg hlobbied, room.place_inside hlobbied, mem_members, mem_members]
  constructor
  · rintro ⟨p, hp, rfl⟩
    obtain ⟨hp', hid⟩ | rfl := mem_insert.mp hp
    · exact .inl ⟨⟨p, hp', rfl⟩, hid⟩
    · exact .inr rfl
  · rintro (⟨⟨p, hp, rfl⟩, hid⟩ | rfl)
    · exact ⟨p, mem_insert.mpr (.inl ⟨hp, hid⟩), rfl⟩
    · exact ⟨_, mem_insert.mpr (.inr rfl), rfl⟩

theorem mem_lobby_place : e ∈ (room.place request session placement).lobby ↔
      if placement.lobbied then (e ∈ room.lobby ∧ e.id ≠ request.id) ∨
        e = newcomer request session placement
      else e ∈ room.lobby := by
  by_cases hlobbied : placement.lobbied = true
  · rw [if_pos hlobbied, room.place_lobbied hlobbied]
    exact mem_insert
  · rw [if_neg hlobbied, room.place_inside hlobbied]

theorem decideJoin_absent {maximum : Option ℕ}
    {snapshot : Snapshot} {resolved : Option Role} {persisted : PunitiveState}
    (h : room.decideJoin maximum request snapshot resolved persisted = .ok placement) :
    room.joinRefusal maximum request = none ∧ room.participants.contains request.id = false ∧
      room.lobby.contains request.id = false := by
  unfold decideJoin at h
  split at h
  · cases h
  rename_i hrefusal
  refine ⟨hrefusal, ?_⟩
  unfold joinRefusal at hrefusal
  split at hrefusal
  · cases hrefusal
  split at hrefusal
  · cases hrefusal
  · rename_i hpresent
    simpa using hpresent

theorem Apart.place (h : room.Apart) (hinside : room.participants.contains request.id = false)
    (hwaiting : room.lobby.contains request.id = false) :
    (room.place request session placement).Apart := by
  intro e he m hm
  rw [mem_lobby_place] at he
  rw [mem_members_place] at hm
  by_cases hlobbied : placement.lobbied = true
  · rw [if_pos hlobbied] at he hm
    obtain ⟨he', -⟩ | rfl := he
    · exact h e he' m hm
    · obtain ⟨p, hp, rfl⟩ := mem_members.mp hm
      exact contains_eq_false.mp hinside p hp
  · rw [if_neg hlobbied] at he hm
    obtain ⟨hm', -⟩ | rfl := hm
    · exact h e he m hm'
    · exact fun hid => contains_eq_false.mp hwaiting e he hid.symm

end Room

theorem Effect.apart {action : Action} (h : Effect c action d)
    (hc : c.room.Apart) : d.room.Apart := by
  obtain hnone | ⟨target, entry, -, -, -, hroom⟩ |
    ⟨join, role, punitive, placement, -, -, -, -, hentered⟩ := h.arrivals
  · exact hc.noNewcomers hnone
  · rw [hroom]
    exact hc.admitEntry
  · obtain ⟨-, hinside, hwaiting⟩ := decideJoin_absent hentered.decided
    rw [hentered.room]
    exact (hc.noNewcomers (c.room.pruneExpiredBans_noNewcomers c.now)).place hinside hwaiting

theorem System.Initial.apart (h : c.Initial) : c.room.Apart := by
  obtain ⟨id, ceiling, hroom⟩ := h.room
  intro e he
  rw [hroom] at he
  exact absurd he mem_empty

end SimplestChat.Policy
