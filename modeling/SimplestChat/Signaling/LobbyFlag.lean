import SimplestChat.Signaling.Connection

/-!
# The in-lobby flag of a full member

A connection that `add_participant` placed in the lobby learns of it after
every lock of the room has been released, and sets its flag then. An admission
may come first: it makes the connection a full member and clears the flag, and
the connection sets the flag afterwards. When every admission finds the flag
already set, the flag of a full member between two messages is clear.
-/

namespace SimplestChat

open Option Transition Signaling

/-! ## Who is bound after a change of a room -/

namespace Room

variable {room left : Room} {id : ParticipantId} {sender : SenderId}

theorem find?_filter_id (l : List Participant) (keep : ParticipantId → Bool) (id : ParticipantId) :
    (l.filter fun p => keep p.id).find? (fun p => p.id = id) =
      if keep id then l.find? (fun p => p.id = id) else none := by
  rw [List.find?_filter]
  split
  · rename_i hkeep
    congr 1
    funext p
    by_cases hp : p.id = id
    · simp [hp, hkeep]
    · simp [hp]
  · rename_i hkeep
    rw [List.find?_eq_none]
    intro p _ hp
    simp only [decide_eq_true_eq] at hp
    rw [hp.2] at hp
    exact hkeep hp.1

theorem binds_of_filter {f : ParticipantId → Bool}
    (hleft : left.participants = room.participants.filter fun p => f p.id)
    (h : left.binds id sender) : room.binds id sender := by
  unfold binds participant at h ⊢
  rw [hleft, find?_filter_id] at h
  split at h
  · exact h
  · cases h

theorem binds_of_map {f : Participant → Participant}
    (hid : ∀ p, (f p).id = p.id) (hsender : ∀ p, (f p).sender = p.sender)
    (hleft : left.participants = room.participants.map f)
    (h : left.binds id sender) : room.binds id sender := by
  unfold binds participant at h ⊢
  rw [hleft, List.find?_map] at h
  have hcomp : (fun p : Participant => decide (p.id = id)) ∘ f = fun p => decide (p.id = id) := by
    funext p
    simp [hid]
  rw [hcomp] at h
  cases hp : room.participants.find? (fun p => p.id = id) with
  | none =>
    rw [hp] at h
    cases h
  | some =>
    rw [hp] at h
    simpa [hsender] using h

theorem binds_of_append {p : Participant}
    (hleft : left.participants = room.participants ++ [p]) (h : left.binds id sender) :
    room.binds id sender ∨ p.id = id ∧ p.sender = sender := by
  unfold binds participant at h ⊢
  rw [hleft, List.find?_append] at h
  cases hp : room.participants.find? (fun p => p.id = id) with
  | some =>
    rw [hp] at h
    exact .inl h
  | none =>
    right
    rw [hp] at h
    by_cases hid : p.id = id
    · exact ⟨hid, by simpa [hid] using h⟩
    · simp [hid] at h

theorem binds_of_rebind {u : SenderId} {target : ParticipantId}
    (hne : u ≠ sender) (h : (room.rebindSender target sender).binds id u) :
    room.binds id u := by
  unfold binds participant rebindSender at h
  unfold binds participant
  rw [List.find?_map] at h
  have hcomp : (fun p : Participant => decide (p.id = id)) ∘
      (fun p => if p.id = target then { p with sender } else p) = fun p => decide (p.id = id) := by
    funext p
    simp only [Function.comp_apply]
    split <;> rfl
  rw [hcomp] at h
  cases hp : room.participants.find? (fun p => p.id = id) with
  | none =>
    rw [hp] at h
    cases h
  | some =>
    rw [hp] at h
    simp only [map_some, any_some, decide_eq_true_eq] at h ⊢
    split at h
    · exact absurd h.symm hne
    · exact h

theorem releaseJoinReservation_participants (room : Room) :
    room.releaseJoinReservation.1.participants = room.participants := by
  unfold releaseJoinReservation
  split <;> rfl

theorem binds_of_publish {authority : Authority} {change : Change}
    (h : room.publish authority change = some left)
    (hrebind : ∀ sender, change ≠ .rebind sender) (hbinds : left.binds id sender) :
    room.binds id sender ∨ ∃ entry, change = .admitFromLobby id ∧
      room.lobbyEntry id = some entry ∧ entry.sender = sender := by
  obtain ⟨role, -, h⟩ := bind_eq_some_iff.mp h
  cases change with
  | policy =>
    cases h
    exact .inl hbinds
  | kick target =>
    simp only [kick, bind_eq_bind, bind_eq_some_iff] at h
    obtain ⟨person, -, _, -, h⟩ := h
    cases h
    exact .inl (binds_of_filter (f := fun id => id ∉ [target]) rfl hbinds)
  | ban =>
    simp only [ban, bind_eq_bind, bind_eq_some_iff] at h
    obtain ⟨person, -, _, -, ids, -, waiting, -, h⟩ := h
    cases h
    exact .inl (binds_of_filter (f := fun id => id ∉ ids) rfl hbinds)
  | setRole target newRole =>
    simp only [setRole, bind_eq_bind, bind_eq_some_iff] at h
    obtain ⟨person, -, _, -, _, -, h⟩ := h
    cases h
    left
    refine binds_of_map (f := fun p =>
      if p.id = target then { p with role := newRole } else p)
      (fun p => ?_) (fun p => ?_) rfl hbinds
    · split <;> rfl
    · split <;> rfl
  | admitFromLobby target =>
    simp only [admitFromLobby, bind_eq_bind, bind_eq_some_iff] at h
    obtain ⟨_, -, entry, hentry, h⟩ := h
    cases h
    refine (binds_of_append rfl hbinds).imp_right ?_
    rintro ⟨hid, hsender⟩
    have hfound : entry.id = target := by simpa using List.find?_some hentry
    have htarget : target = id := by rw [← hfound, ← hid]
    subst htarget
    exact ⟨entry, rfl, hentry, hsender⟩
  | denyFromLobby =>
    simp only [denyFromLobby, bind_eq_bind, bind_eq_some_iff] at h
    obtain ⟨_, -, entry, -, h⟩ := h
    cases h
    exact .inl hbinds
  | rebind sender' => exact absurd rfl (hrebind sender')

end Room

/-! ## Who is bound after a step -/

namespace Signaling

variable {s t : Signaling} {r r' : RoomId} {id : ParticipantId} {sender u : SenderId} {room : Room}

def BindsNone (s t : Signaling) (sender : SenderId) : Prop :=
  ∀ r id, t.isMember r id sender → s.isMember r id sender

theorem isMember_of_room (hroom : s.rooms r = some room) :
    s.isMember r id sender = room.binds id sender := by
  simp [isMember, hroom]

theorem isMember_setRoom : (s.setRoom r room).isMember r' id sender =
      if r' = r then room.binds id sender else s.isMember r' id sender := by
  unfold isMember setRoom
  rcases eq_or_ne r' r with rfl | hne
  · simp
  · simp [hne]

theorem bindsNone_setRoom {left : Room} (hroom : s.rooms r = some room)
    (h : ∀ id, left.binds id sender → room.binds id sender) :
    BindsNone s (s.setRoom r left) sender := by
  intro r' id hmember
  rw [isMember_setRoom] at hmember
  split at hmember
  · rename_i hr
    rw [hr, isMember_of_room hroom]
    exact h id hmember
  · exact hmember

theorem bindsNone_removeForSender : BindsNone s (s.removeForSender r id u) sender := by
  unfold removeForSender
  split
  · rename_i room hroom
    split
    · exact bindsNone_setRoom hroom fun id' =>
        Room.binds_of_filter (f := fun id' => id' ≠ id) rfl
    · exact fun _ _ h => h
  · exact fun _ _ h => h

@[simp] theorem removeForSender_connections :
    (s.removeForSender r id u).connections = s.connections := by
  unfold removeForSender
  split
  · split <;> rfl
  · rfl

@[simp] theorem releaseJoin_connections : (s.releaseJoin r).connections = s.connections := by
  unfold releaseJoin
  split <;> rfl

theorem bindsNone_releaseJoin : BindsNone s (s.releaseJoin r) sender := by
  unfold releaseJoin
  split
  · rename_i room hroom
    refine bindsNone_setRoom hroom fun id hbinds => ?_
    unfold Room.binds Room.participant at hbinds ⊢
    rwa [Room.releaseJoinReservation_participants] at hbinds
  · exact fun _ _ h => h

theorem joinable_eq_some (h : s.joinable r id = some room) :
    s.rooms r = some room ∧ room.participant id = none := by
  obtain ⟨hroom, hfree⟩ := filter_eq_some_iff.mp h
  simp only [Bool.and_eq_true, isNone_iff_eq_none] at hfree
  exact ⟨hroom, hfree.1.2⟩

end Signaling

/-! ## What a connection may rely on -/

def Connection.Promises (conn : Connection) (s : Signaling) (sender : SenderId) : Prop :=
  match conn.point with
  | .ready => ∀ r, conn.currentRoom = some r →
      s.isMember r conn.identity sender → conn.inLobby = false
  | .lobbied r => s.isMember r conn.identity sender = false
  | .joined _ => True
  | .reconnect _ _ | .reconnected _ _ => conn.inLobby = false
  | .leaveOld _ _ | .reserve _ | .commit _ | .leave _ | .left => conn.currentRoom = none

def FlagsSound (s : Signaling) : Prop :=
  ∀ sender conn, s.connections sender = some conn → conn.Promises s sender

namespace Connection.Promises

variable {s t : Signaling} {sender : SenderId} {conn : Connection}

theorem mono (h : conn.Promises s sender) (hbinds : s.BindsNone t sender) :
    conn.Promises t sender := by
  unfold Promises at h ⊢
  split
  · rename_i hpoint
    rw [hpoint] at h
    exact fun r hr hmember => h r hr (hbinds r _ hmember)
  · rename_i r hpoint
    rw [hpoint] at h
    have hnot : ¬ s.isMember r conn.identity sender := Bool.eq_false_iff.mp h
    exact Bool.eq_false_iff.mpr fun hmember => hnot (hbinds r _ hmember)
  all_goals simp_all

theorem begin (h : conn.Promises s sender) (message : ClientMessage) :
    (conn.begin message).Promises s sender := by
  cases message with
  | joinRoom =>
    unfold Connection.begin
    cases hroom : conn.currentRoom with
    | none | some => simp [Promises]
  | leaveRoom =>
    unfold Connection.begin
    cases hroom : conn.currentRoom with
    | none => exact h
    | some => simp [Promises]
  | reconnect id room =>
    unfold Connection.begin
    dsimp only
    split
    · rename_i hallowed
      simp only [reconnectAttemptAllowed, Bool.and_eq_true, Bool.not_eq_true'] at hallowed
      exact hallowed.2
    · exact h
  | chatMessage | roomCommand => exact h

end Connection.Promises

namespace Signaling

variable {s t : Signaling} {sender : SenderId} {conn : Connection}

/-- A section of a connection's handler binds nobody but its own socket, and
the connection can rely on its next program point. -/
theorem advance_spec {choice : ConnectionChoice}
    (h : s.advance sender conn conn.point choice = some t)
    (hpromises : conn.Promises s sender) :
    ∃ w conn', t = w.setConnection sender conn' ∧
      w.connections = s.connections ∧ conn'.Promises w sender ∧
      ∀ u, u ≠ sender → BindsNone s w u := by
  generalize hpoint : conn.point = point at h
  unfold Connection.Promises at hpromises
  rw [hpoint] at hpromises
  revert h
  fun_cases advance s sender conn point choice <;> intro h
  · cases h
    exact ⟨_, _, rfl, removeForSender_connections, hpromises, fun u _ => bindsNone_removeForSender⟩
  · obtain ⟨room, hroom, h⟩ := bind_eq_some_iff.mp h
    split at h
    · cases h
    · cases h
      exact ⟨_, _, rfl, rfl, hpromises, fun u _ => bindsNone_setRoom hroom fun _ hbinds => hbinds⟩
  · cases h
    refine ⟨s, _, rfl, rfl, ?_, fun _ _ _ _ h => h⟩
    intro r hr
    rw [hpromises] at hr
    cases hr
  · rename_i target role
    obtain ⟨room, hjoinable, rfl⟩ := map_eq_some_iff.mp h
    obtain ⟨hroom, -⟩ := joinable_eq_some hjoinable
    refine ⟨_, _, rfl, rfl, trivial, fun u hu => ?_⟩
    refine bindsNone_setRoom hroom fun id hbinds => ?_
    rcases Room.binds_of_append rfl hbinds with hold | ⟨-, hsender⟩
    · exact hold
    · exact absurd hsender.symm hu
  · rename_i target role
    obtain ⟨room, hjoinable, rfl⟩ := map_eq_some_iff.mp h
    obtain ⟨hroom, hfree⟩ := joinable_eq_some hjoinable
    have hnone : ∀ u, BindsNone s (s.setRoom target
        (room.enterLobby (conn.lobbyEntry sender role))) u :=
      fun u => bindsNone_setRoom hroom fun _ hbinds => hbinds
    refine ⟨_, _, rfl, rfl, ?_, fun u _ => hnone u⟩
    refine Bool.eq_false_iff.mpr fun hmember => ?_
    have hbinds := hnone sender target _ hmember
    rw [isMember_of_room hroom, Room.binds, hfree] at hbinds
    cases hbinds
  · cases h
    refine ⟨_, _, rfl, releaseJoin_connections, ?_, fun u _ => bindsNone_releaseJoin⟩
    intro r hr
    rw [hpromises] at hr
    cases hr
  · cases h
    exact ⟨s, _, rfl, rfl, fun _ _ _ => rfl, fun _ _ _ _ h => h⟩
  · cases h
    refine ⟨s, _, rfl, rfl, ?_, fun _ _ _ _ h => h⟩
    rintro r ⟨⟩ hmember
    have hfalse : s.isMember _ conn.identity sender = false := hpromises
    rw [hfalse] at hmember
    cases hmember
  · cases h
    exact ⟨_, _, rfl, removeForSender_connections, hpromises, fun u _ => bindsNone_removeForSender⟩
  · cases h
    exact ⟨s, _, rfl, rfl, fun _ _ _ => rfl, fun _ _ _ _ h => h⟩
  · obtain ⟨room, hroom, h⟩ := bind_eq_some_iff.mp h
    obtain ⟨p, -, rfl⟩ := map_eq_some_iff.mp h
    exact ⟨_, _, rfl, rfl, hpromises, fun u hu =>
      bindsNone_setRoom hroom fun _ hbinds => Room.binds_of_rebind hu hbinds⟩
  · cases h
    exact ⟨s, _, rfl, rfl, fun _ _ _ => hpromises, fun _ _ _ _ h => h⟩
  · cases h
    exact ⟨s, _, rfl, rfl, fun _ _ _ => hpromises, fun _ _ _ _ h => h⟩
  · cases h

end Signaling

/-! ## Admissions that come in time -/

def admitsSettled (s : Signaling) : SignalingAction → Bool
  | .publish r _ (.admitFromLobby target) =>
    ((s.rooms r).bind (·.lobbyEntry target)).all fun entry =>
      (s.connections entry.sender).all fun conn => conn.point ≠ .lobbied r
  | _ => true

namespace FlagsSound

variable {s t : Signaling}

theorem of_bindsNone (h : FlagsSound s) (hconnections : t.connections = s.connections)
    (hbinds : ∀ u, s.BindsNone t u) : FlagsSound t := by
  intro u conn hu
  rw [hconnections] at hu
  exact (h u conn hu).mono (hbinds u)

theorem setConnection (h : FlagsSound s) {sender : SenderId} {conn : Connection}
    (hpromises : conn.Promises t sender) (hconnections : t.connections = s.connections)
    (hbinds : ∀ u, u ≠ sender → s.BindsNone t u) :
    FlagsSound (t.setConnection sender conn) := by
  intro u conn' hu
  simp only [Signaling.setConnection, Function.update_apply] at hu
  split at hu
  · rename_i heq
    cases hu
    rw [heq]
    exact hpromises
  · rename_i hne
    rw [hconnections] at hu
    exact (h u conn' hu).mono (hbinds u hne)

theorem admits (h : FlagsSound s) {r : RoomId} {authority : Authority}
    {target : ParticipantId} {room left : Room} {entry : LobbyEntry}
    (hsettled : admitsSettled s (.publish r authority (.admitFromLobby target)))
    (hroom : s.rooms r = some room) (hentry : room.lobbyEntry target = some entry)
    (hleft : room.publish authority (.admitFromLobby target) = some left) :
    FlagsSound ((s.setRoom r left).clearLobbyFlag entry.sender) := by
  have hother (u : SenderId) (hne : u ≠ entry.sender) : s.BindsNone (s.setRoom r left) u := by
    refine bindsNone_setRoom hroom fun id hbinds => ?_
    rcases Room.binds_of_publish hleft (by simp) hbinds with
      hold | ⟨entry', heq, hentry', hsender⟩
    · exact hold
    cases heq
    rw [hentry] at hentry'
    cases hentry'
    exact absurd hsender.symm hne
  intro u conn hu
  simp only [clearLobbyFlag, Function.update_apply] at hu
  split at hu
  · rename_i heq
    subst heq
    obtain ⟨old, hold, rfl⟩ := map_eq_some_iff.mp hu
    have hold : s.connections entry.sender = some old := hold
    have hpoint : old.point ≠ .lobbied r := by
      simpa [admitsSettled, hroom, hentry, hold] using hsettled
    have hpromises := h _ old hold
    unfold Connection.Promises at hpromises ⊢
    dsimp only
    split
    · exact fun _ _ _ => rfl
    · rename_i r' hlobbied
      rw [hlobbied] at hpromises hpoint
      have hne : r' ≠ r := fun heq => hpoint (heq ▸ rfl)
      change (s.setRoom r left).isMember r' old.identity _ = false
      rw [isMember_setRoom, if_neg hne]
      exact hpromises
    · trivial
    · rfl
    · rfl
    all_goals simp_all
  · next hne => exact (h u conn hu).mono (hother u hne)

theorem publish (h : FlagsSound s) {r : RoomId} {authority : Authority}
    {change : Change} (hsettled : admitsSettled s (.publish r authority change))
    (hpublish : s.publish r authority change = some t) : FlagsSound t := by
  have hplain (hadmits : ∀ target, change ≠ .admitFromLobby target)
      (hrebind : ∀ sender, change ≠ .rebind sender)
      (hchange : ((s.rooms r).bind fun room =>
        (room.publish authority change).map fun left => s.setRoom r left) =
          some t) : FlagsSound t := by
    obtain ⟨room, hroom, hchange⟩ := bind_eq_some_iff.mp hchange
    obtain ⟨left, hleft, rfl⟩ := map_eq_some_iff.mp hchange
    refine h.of_bindsNone rfl fun u =>
      bindsNone_setRoom hroom fun id hbinds => ?_
    rcases Room.binds_of_publish hleft hrebind hbinds with
      hold | ⟨entry, heq, -⟩
    · exact hold
    · exact absurd heq (hadmits id)
  cases change with
  | rebind => cases hpublish
  | admitFromLobby =>
    obtain ⟨room, hroom, hpublish⟩ := bind_eq_some_iff.mp hpublish
    obtain ⟨entry, hentry, hpublish⟩ := bind_eq_some_iff.mp hpublish
    obtain ⟨left, hleft, rfl⟩ := map_eq_some_iff.mp hpublish
    exact h.admits hsettled hroom hentry hleft
  | _ => exact hplain (by simp) (by simp) hpublish

theorem step (h : FlagsSound s) {a : SignalingAction}
    (hsettled : admitsSettled s a) (hstep : s.step a = some t) :
    FlagsSound t := by
  cases a with
  | accept =>
    simp only [Signaling.step] at hstep
    split at hstep
    · cases hstep
    cases hstep
    refine h.setConnection (t := s) ?_ rfl fun _ _ _ _ h => h
    rintro r ⟨⟩
  | command sender message =>
    obtain ⟨conn, hconn, hstep⟩ := bind_eq_some_iff.mp hstep
    split at hstep
    · cases hstep
      exact h.setConnection (t := s) ((h _ _ hconn).begin message) rfl
        fun _ _ _ _ h => h
    · cases hstep
  | advance =>
    obtain ⟨conn, hconn, hstep⟩ := bind_eq_some_iff.mp hstep
    obtain ⟨w, conn', rfl, hconnections, hpromises, hbinds⟩ :=
      Signaling.advance_spec hstep (h _ _ hconn)
    exact h.setConnection hpromises hconnections hbinds
  | publish => exact h.publish hsettled hstep
  | expire =>
    cases hstep
    exact h.of_bindsNone Signaling.removeForSender_connections
      fun _ => Signaling.bindsNone_removeForSender
  | openRoom =>
    simp only [Signaling.step] at hstep
    split at hstep
    · cases hstep
    cases hstep
    refine h.of_bindsNone rfl fun u r' id hmember => ?_
    rw [Signaling.isMember_setRoom] at hmember
    split at hmember
    · cases hmember
    · exact hmember
  | closeRoom =>
    cases hstep
    refine h.of_bindsNone rfl fun u r' id hmember => ?_
    unfold Signaling.isMember at hmember ⊢
    simp only [Function.update_apply] at hmember
    split at hmember
    · cases hmember
    · exact hmember

end FlagsSound

/-! ## Full members -/

/-- In every run whose admissions come in time, a full member of the
connection's room is never refused as waiting in the lobby. -/
theorem member_not_held_in_lobby {actions : List SignalingAction} {s : Signaling}
    {sender : SenderId} {conn : Connection} {r : RoomId}
    (hsettled : RunMeets Signaling.step
      (fun s a => admitsSettled s a) Signaling.start actions)
    (hrun : run Signaling.step Signaling.start actions = some s)
    (hconn : s.connections sender = some conn) (hready : conn.point = .ready)
    (hroom : conn.currentRoom = some r) (hmember : s.isMember r conn.identity sender) :
    conn.inLobby = false ∧ ∀ message, s.refusal sender conn message ≠ some .waitingInLobby := by
  have hstart : FlagsSound start := nofun
  have hsound : FlagsSound s :=
    run_invariant (fun _ _ _ hs hc hstep => hs.step hc hstep)
      hstart hsettled hrun
  have hpromises := hsound sender conn hconn
  unfold Connection.Promises at hpromises
  rw [hready] at hpromises
  have hflag : conn.inLobby = false := hpromises r hroom hmember
  refine ⟨hflag, fun message hrefused => ?_⟩
  unfold refusal at hrefused
  rw [hflag] at hrefused
  simp at hrefused

def guestWaits : List SignalingAction :=
  [.openRoom 5 true, .accept 1 10 true none, .command 1 (.joinRoom 5),
    .advance 1 .proceed, .advance 1 (.enter .owner), .advance 1 .proceed,
    .accept 2 20 false none, .command 2 (.joinRoom 5), .advance 2 .proceed,
    .advance 2 (.enterLobby .guest)]

def ownerAdmits : SignalingAction :=
  .publish 5 (.member 10 1) (.admitFromLobby 20)

theorem admitted_after_store_not_held : RunMeets Signaling.step (fun s a => admitsSettled s a)
        Signaling.start (guestWaits ++ [.advance 2 .proceed, ownerAdmits]) ∧
      ∃ s conn, run Signaling.step Signaling.start
          (guestWaits ++ [.advance 2 .proceed, ownerAdmits]) = some s ∧
        s.connections 2 = some conn ∧ conn.point = .ready ∧
        conn.currentRoom = some 5 ∧ s.isMember 5 conn.identity 2 ∧
        conn.inLobby = false ∧
        ∀ message, s.refusal 2 conn message ≠ some .waitingInLobby := by
  have hsettled : RunMeets step (fun s a => admitsSettled s a) start
      (guestWaits ++ [.advance 2 .proceed, ownerAdmits]) := by decide
  have hend : (run step start (guestWaits ++ [.advance 2 .proceed, ownerAdmits])).any (fun s =>
        (s.connections 2).any fun conn => conn.point = .ready ∧
          conn.currentRoom = some 5 ∧ s.isMember 5 conn.identity 2) := by
    decide
  obtain ⟨s, hs, hend⟩ := (any_eq_true _ _).mp hend
  obtain ⟨conn, hconn, hend⟩ := (any_eq_true _ _).mp hend
  obtain ⟨hready, hroom, hmember⟩ := of_decide_eq_true hend
  obtain ⟨hflag, hrefusal⟩ := member_not_held_in_lobby hsettled hs hconn hready hroom hmember
  exact ⟨hsettled, s, conn, hs, hconn, hready, hroom, hmember, hflag, hrefusal⟩

/-- The owner admits the guest before the guest's connection sets its flag. -/
theorem member_held_in_lobby : ¬ ∀ actions s sender conn r,
      run Signaling.step Signaling.start actions = some s →
      s.connections sender = some conn → conn.point = .ready →
      conn.currentRoom = some r → s.isMember r conn.identity sender →
      conn.inLobby = false ∧ ∀ message, s.refusal sender conn message ≠ some .waitingInLobby := by
  intro hsound
  have hend : (run step start (guestWaits ++ [ownerAdmits, .advance 2 .proceed])).any (fun s =>
        (s.connections 2).any fun conn => conn.point = .ready ∧
          conn.currentRoom = some 5 ∧ s.isMember 5 conn.identity 2 ∧
          conn.inLobby = true) := by decide
  obtain ⟨s, hs, hend⟩ := (any_eq_true _ _).mp hend
  obtain ⟨conn, hconn, hend⟩ := (any_eq_true _ _).mp hend
  obtain ⟨hready, hroom, hmember, hheld⟩ := of_decide_eq_true hend
  have hflag := (hsound _ s 2 conn 5 hs hconn hready hroom hmember).1
  rw [hheld] at hflag
  cases hflag

end SimplestChat
