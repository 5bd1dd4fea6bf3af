import SimplestChat.Room.Incarnations

/-!
# Empty rooms are evicted

Whoever takes the last occupant out of a live room has to see to its eviction.
A leaving connection goes on to evict the room, a failed join evicts it at
once, and a moderator who acts over a socket is an occupant. A moderator who
acts over HTTP is not one, and nothing evicts the room that an administrative
removal empties. When no wait times out and administration always leaves
somebody behind, every live room of a quiet server is occupied.
-/

namespace SimplestChat

open Interleaving Transition Slot SimplestChat.Task

/-! ## Occupants -/

namespace Room

/-- Someone is in the room or about to be. -/
def occupied (room : Room) : Bool :=
  !room.isEmpty || 0 < room.pendingJoins

variable {room : Room} {p : Participant}

theorem occupied_of_mem (h : p ∈ room.participants) : room.occupied := by
  have hne : room.participants ≠ [] := List.ne_nil_of_mem h
  simp [occupied, isEmpty, hne]

variable {id : ParticipantId}

theorem participant_eq_some (h : room.participant id = some p) :
    p ∈ room.participants ∧ p.id = id := by
  have hfound := List.find?_some h
  exact ⟨List.mem_of_find?_eq_some h, by simpa using hfound⟩

theorem not_mem_moderationCohort {target : ParticipantId} {role : Role}
    {ids : List ParticipantId} (h : room.moderationCohort target role = some ids)
    (hid : room.participant id = some p) (hrole : role.canModerate p.role = false) :
    id ∉ ids := by
  simp only [moderationCohort, Option.bind_eq_bind, Option.bind_eq_some_iff] at h
  obtain ⟨person, -, _, hguard, h⟩ := h
  cases h
  intro hmem
  have hall := (List.all_eq_true.mp (by simpa [guard] using hguard)) id hmem
  rw [hid] at hall
  simp [hrole] at hall

theorem publish_member_occupied {left : Room} {sender : SenderId} {change : Change}
    (h : room.publish (.member id sender) change = some left) :
    left.occupied := by
  obtain ⟨role, hrole, h⟩ := Option.bind_eq_some_iff.mp h
  obtain ⟨p, hp, rfl⟩ := Option.map_eq_some_iff.mp hrole
  have hfound : room.participant id = some p := by
    unfold participantForSender at hp
    split at hp
    · cases hp
    · exact (Option.filter_eq_some_iff.mp hp).1
  obtain ⟨hmem, hid⟩ := participant_eq_some hfound
  have hself := Role.not_canModerate_self p.role
  cases change with
  | policy =>
    cases h
    exact occupied_of_mem hmem
  | kick target =>
    simp only [kick, Option.bind_eq_bind, Option.bind_eq_some_iff] at h
    obtain ⟨person, hperson, _, hguard, h⟩ := h
    cases h
    refine occupied_of_mem (p := p) (List.mem_filter.mpr ⟨hmem, ?_⟩)
    have hne : p.id ≠ target := by
      rintro rfl
      rw [hid, hfound] at hperson
      cases hperson
      simp [guard, hself] at hguard
    simpa using hne
  | ban =>
    simp only [ban, Option.bind_eq_bind, Option.bind_eq_some_iff] at h
    obtain ⟨person, -, -, -, ids, hids, waiting, -, h⟩ := h
    cases h
    refine occupied_of_mem (p := p) (List.mem_filter.mpr ⟨hmem, ?_⟩)
    have hnot := not_mem_moderationCohort hids hfound hself
    rw [← hid] at hnot
    simpa using hnot
  | setRole =>
    simp only [setRole, Option.bind_eq_bind, Option.bind_eq_some_iff] at h
    obtain ⟨person, -, -, -, -, -, h⟩ := h
    cases h
    exact occupied_of_mem (List.mem_map_of_mem hmem)
  | admitFromLobby =>
    simp only [admitFromLobby, Option.bind_eq_bind, Option.bind_eq_some_iff] at h
    obtain ⟨-, -, entry, -, h⟩ := h
    cases h
    exact occupied_of_mem (List.mem_append_left _ hmem)
  | denyFromLobby =>
    simp only [denyFromLobby, Option.bind_eq_bind, Option.bind_eq_some_iff] at h
    obtain ⟨-, -, entry, -, h⟩ := h
    cases h
    exact occupied_of_mem hmem
  | rebind =>
    cases h
    exact occupied_of_mem (List.mem_map_of_mem hmem)

end Room

/-! ## How a room loses its last occupant -/

/-- The actions after which incarnation `i` may be mapped and empty. -/
inductive Vacates (s : Slot) (free : Lock → Bool) (k : Task) (choice : Choice)
    (o : Outcome Slot Task) (i : Incarnation) : Prop
  /-- the last member left; its task goes on to evict the room -/
  | left (self : o.self = some (.leave (.evict i)))
  /-- a join failed in a room that is tombstoned anyway -/
  | failed (task : k = .join (.failed i)) (control : free (.control i))
      (tombstoned : (s.room i).deleting = true)
  | drained {token : Token} (task : k = .delete (.drain i token))
  | closed (task : k = .recover (.waitControl i))
  | quarantined (task : k = .control (.work i) ∨ k = .admin (.work (some i)))
      (tombstoned : (o.shared.room i).deleting = true)
  /-- an administrative change took the last occupant out -/
  | administered {role : Role} {change : Change} {left : Room}
      (task : k = .admin (.work (some i)))
      (published : choice = .publish (.administrator role) change)
      (change : (s.room i).publish (.administrator role) change = some left)
      (shared : o.shared.room i = left)

section Vacates

variable {s : Slot} {free : Lock → Bool} {choice : Choice}
  {o : Outcome Slot Task} {k : Task} {i : Incarnation}

variable {j : Incarnation}

theorem occupied_modifyRoom {f : Room → Room} (hbefore : (s.room i).occupied)
    (h : i = j → (f (s.room i)).occupied) :
    ((s.modifyRoom j f).room i).occupied := by
  rw [modifyRoom_room]
  split
  · rename_i hij
    subst hij
    exact h rfl
  · exact hbefore

theorem Room.enter_occupied (room : Room) (p : Participant) : (room.enter p).occupied :=
  occupied_of_mem (p := p) (by simp [enter])

theorem Room.enterLobby_occupied (room : Room) (e : LobbyEntry) : (room.enterLobby e).occupied := by
  simp [occupied, isEmpty, enterLobby]

theorem Room.releaseJoinReservation_cases (room : Room)
    (h : room.releaseJoinReservation.2 = false) :
    room.deleting = true ∨ (room.occupied → room.releaseJoinReservation.1.occupied) := by
  unfold releaseJoinReservation at h ⊢
  split at h
  · rename_i hzero
    right
    simp [hzero]
  rename_i hzero
  rw [if_neg hzero]
  cases hdeleting : room.deleting with
  | true => exact .inl rfl
  | false =>
    right
    intro _
    simp only [hdeleting, Bool.not_false, Bool.true_and,
      Bool.and_eq_false_iff, decide_eq_false_iff_not] at h
    rcases h with h | h
    · simp only [occupied, Bool.or_eq_true, decide_eq_true_eq]
      omega
    · simp only [isEmpty] at h
      simp [occupied, isEmpty, h]

theorem commitJoin_occupied {revision : ℕ} {commit : Room → Room}
    (h : commitJoin s j revision commit = some o) (hbefore : (s.room i).occupied)
    (hcommit : ∀ room, (commit room).occupied) :
    (o.shared.room i).occupied := by
  unfold commitJoin at h
  split at h <;> cases h
  · exact occupied_modifyRoom hbefore fun _ => hcommit _
  · exact hbefore

theorem failedJoinSection_vacates (hfree : free (.control j)) (h : failedJoinSection s j = some o)
    (hmapped : o.shared.mapped = some i) (hbefore : (s.room i).occupied) :
    (o.shared.room i).occupied ∨ Vacates s free (.join (.failed j)) choice o i := by
  unfold failedJoinSection at h
  dsimp only at h
  split at h
  · rename_i hevict
    cases h
    have hnone := evictRoom_mapped (s := s.modifyRoom j fun _ =>
      (s.room j).releaseJoinReservation.1) hevict.2
    rw [hnone] at hmapped
    cases hmapped
  · rename_i hkeep
    cases h
    rcases eq_or_ne i j with rfl | hne
    · rw [not_and] at hkeep
      have hleaves : (s.room i).releaseJoinReservation.2 = false := by
        simpa using fun h => hkeep h hmapped
      rcases (s.room i).releaseJoinReservation_cases hleaves with h | h
      · exact .inr (.failed rfl hfree h)
      · left
        simpa [modifyRoom_room] using h hbefore
    · left
      simpa [modifyRoom_room, hne] using hbefore

theorem joinAct_vacates {k : JoinPoint} (h : joinAct s free k choice = some o)
    (hmapped : o.shared.mapped = some i) (hbefore : (s.room i).occupied) :
    (o.shared.room i).occupied ∨ Vacates s free (.join k) choice o i := by
  revert h
  fun_cases joinAct s free k choice <;> intro h <;> try cases h
  all_goals try exact .inl hbefore
  · left
    refine occupied_modifyRoom hbefore fun _ => ?_
    simp [Room.occupied, Room.reserveJoin]
  · left
    rcases eq_or_ne i s.nextIncarnation with rfl | hne
    · simp [publishRoom, Room.occupied]
    · simpa [publishRoom, Function.update_apply, hne] using hbefore
  · exact .inl (commitJoin_occupied h hbefore fun _ => Room.enter_occupied _ _)
  · exact .inl (commitJoin_occupied h hbefore fun _ => Room.enterLobby_occupied _ _)
  · rename_i j hfree
    have hcontrol : free (.control j) := by simp_all
    exact failedJoinSection_vacates hcontrol h hmapped hbefore

theorem leaveAct_vacates {k : LeavePoint} (h : leaveAct s free k choice = some o)
    (hmapped : o.shared.mapped = some i) (hbefore : (s.room i).occupied) :
    (o.shared.room i).occupied ∨ Vacates s free (.leave k) choice o i := by
  revert h
  fun_cases leaveAct s free k choice <;> intro h <;> try cases h
  all_goals try exact .inl hbefore
  · rename_i j id sender _
    unfold leaveSection at h
    dsimp only at h
    split_ifs at h with hsender hempty
    · cases h
      rcases eq_or_ne i j with rfl | hne
      · exact .inr (.left rfl)
      · exact .inl (by simpa [modifyRoom_room, hne] using hbefore)
    · cases h
      left
      refine occupied_modifyRoom (f := fun _ => (s.room j).removeMember id) hbefore fun _ => ?_
      simp [Room.occupied, hempty]
    · cases h
      exact .inl hbefore
  · unfold evictSection at h
    split_ifs at h with hevict
    · cases h
      rw [evictRoom_mapped hevict.1] at hmapped
      cases hmapped
    · cases h
      exact .inl hbefore

theorem deleteAct_vacates {k : DeletePoint}
    (h : deleteAct s free k choice = some o) (hbefore : (s.room i).occupied) :
    (o.shared.room i).occupied ∨ Vacates s free (.delete k) choice o i := by
  revert h
  fun_cases deleteAct s free k choice <;> intro h <;> try cases h
  all_goals first
    | exact .inl hbefore
    | exact .inl (by simpa using hbefore)
    | exact .inl (occupied_modifyRoom hbefore fun _ => hbefore)
    | skip
  rename_i j token
  rcases eq_or_ne i j with rfl | hne
  · exact .inr (.drained rfl)
  · exact .inl (by simpa [modifyRoom_room, hne] using hbefore)

theorem quarantineSection_vacates {self : Option Task}
    (h : quarantineSection s j self = some o) (hbefore : (s.room i).occupied) :
    (o.shared.room i).occupied ∨ i = j ∧ (o.shared.room i).deleting = true := by
  unfold quarantineSection at h
  split at h
  · rename_i hlive
    cases h
    rw [quarantineRoom_of_live hlive, orInsertReservation_room]
    rcases eq_or_ne i j with rfl | hne
    · exact .inr ⟨rfl, by simp [modifyRoom_room, Room.clearMembers, Room.tombstone]⟩
    · exact .inl (by simpa [modifyRoom_room, hne] using hbefore)
  · cases h
    exact .inl hbefore

theorem publishSection_room {self : Option Task} {authority : Authority}
    {change : Change} (h : publishSection s j authority change self = some o) :
    ∃ left, (s.room j).publish authority change = some left ∧
      o.shared = s.modifyRoom j fun _ => left := by
  unfold publishSection at h
  split at h
  · rename_i left hleft
    cases h
    exact ⟨left, hleft, rfl⟩
  · cases h

theorem controlAct_vacates {k : ControlPoint} (h : controlAct s free k choice = some o)
    (hbefore : (s.room i).occupied) :
    (o.shared.room i).occupied ∨ Vacates s free (.control k) choice o i := by
  revert h
  fun_cases controlAct s free k choice <;> intro h <;> try cases h
  all_goals try exact .inl hbefore
  · rename_i j id sender change
    obtain ⟨left, hleft, hshared⟩ := publishSection_room h
    left
    rw [hshared]
    exact occupied_modifyRoom (f := fun _ => left) hbefore fun _ =>
      Room.publish_member_occupied hleft
  · rcases quarantineSection_vacates h hbefore with hkeeps | ⟨rfl, htomb⟩
    · exact .inl hkeeps
    · exact .inr (.quarantined (.inl rfl) htomb)

theorem adminAct_vacates {k : AdminPoint} (h : adminAct s free k choice = some o)
    (hbefore : (s.room i).occupied) :
    (o.shared.room i).occupied ∨ Vacates s free (.admin k) choice o i := by
  revert h
  fun_cases adminAct s free k choice <;> intro h <;> try cases h
  all_goals try exact .inl hbefore
  · rename_i j role change
    obtain ⟨left, hleft, hshared⟩ := publishSection_room h
    rcases eq_or_ne i j with rfl | hne
    · refine .inr (.administered rfl rfl hleft ?_)
      simp [hshared, modifyRoom_room]
    · exact .inl (by
        simpa [hshared, modifyRoom_room, hne] using hbefore)
  · rcases quarantineSection_vacates h hbefore with hkeeps | ⟨rfl, htomb⟩
    · exact .inl hkeeps
    · exact .inr (.quarantined (.inr rfl) htomb)
  · exact .inl (by simpa using hbefore)

theorem recoverAct_vacates {k : RecoverPoint} (h : recoverAct s free k choice = some o)
    (hbefore : (s.room i).occupied) :
    (o.shared.room i).occupied ∨ Vacates s free (.recover k) choice o i := by
  revert h
  fun_cases recoverAct s free k choice <;> intro h <;> try cases h
  all_goals try exact .inl hbefore
  · rename_i j
    rcases eq_or_ne i j with rfl | hne
    · exact .inr (.closed rfl)
    · exact .inl (by simpa [modifyRoom_room, hne] using hbefore)
  · exact .inl (by simpa using hbefore)

/-- A mapped room that an action leaves empty was vacated in one of the listed
ways. -/
theorem act_vacates (h : act s free k choice = some o)
    (hmapped : o.shared.mapped = some i) (hbefore : (s.room i).occupied) :
    (o.shared.room i).occupied ∨ Vacates s free k choice o i := by
  cases k with
  | join => exact joinAct_vacates h hmapped hbefore
  | leave => exact leaveAct_vacates h hmapped hbefore
  | delete => exact deleteAct_vacates h hbefore
  | control => exact controlAct_vacates h hbefore
  | admin => exact adminAct_vacates h hbefore
  | recover => exact recoverAct_vacates h hbefore
  | teardown k =>
    left
    revert h
    simp only [act]
    fun_cases teardownAct s k choice <;> intro h <;> cases h <;> simpa using hbefore
  | cleanup k =>
    left
    revert h
    simp only [act]
    fun_cases cleanupAct s k choice <;> intro h <;> cases h <;> exact hbefore
  | elsewhere k =>
    left
    revert h
    simp only [act]
    fun_cases elsewhereAct s k choice <;> intro h <;> cases h <;> exact hbefore

end Vacates

/-! ## The steps of a punctual run -/

/-- No lock wait and no router teardown times out. A cleanup that is slow to
close the media sessions goes on all the same. -/
def inTime (c : Config Slot Task Lock) : Action Task Choice → Bool
  | .advance t .timeout => c.task t = some (.cleanup .sessions)
  | _ => true

def administersOccupied (c : Config Slot Task Lock) : Action Task Choice → Bool
  | .advance t (.publish (.administrator role) change) =>
    match c.task t with
    | some (.admin (.work (some i))) =>
      ((c.shared.room i).publish (.administrator role) change).all
        Room.occupied
    | _ => true
  | _ => true

def LeavesOccupied (c : Config Slot Task Lock) (a : Action Task Choice) : Prop :=
  inTime c a ∧ administersOccupied c a

instance (c : Config Slot Task Lock) (a : Action Task Choice) : Decidable (LeavesOccupied c a) :=
  inferInstanceAs (Decidable (_ ∧ _))

namespace Task

def delayed : Task → Bool
  | delete (.delayedRestore _ _) | delete (.delayedRelease _) => true
  | _ => false

def deletes : Task → Option Incarnation
  | delete (.waitControl i) | delete (.tombstone i _)
  | delete (.sql (some i) _) | delete (.drain i _) | delete (.unmap i _)
  | delete (.restore i _) | delete (.release (some i) _) => some i
  | _ => none

def expects : Task → Option (Incarnation × Bool)
  | delete (.tombstone i _) | delete (.release (some i) _) => some (i, false)
  | delete (.sql (some i) _) | delete (.drain i _) => some (i, true)
  | _ => none

variable {k : Task} {i : Incarnation}

theorem control_of_expects {tombstoned : Bool}
    (h : k.expects = some (i, tombstoned)) : .control i ∈ k.guards := by
  revert h
  fun_cases expects k <;> simp +contextual [guards]

theorem deletes_of_expects {tombstoned : Bool}
    (h : k.expects = some (i, tombstoned)) : k.deletes = some i := by
  revert h
  fun_cases expects k <;> simp +contextual [deletes]

theorem control_of_revives (h : k.revives = some i) (hdelayed : k.delayed = false) :
    .control i ∈ k.guards := by
  revert h hdelayed
  fun_cases revives k <;> simp +contextual [guards, delayed]

end Task

section PunctualOrigins

variable {s : Slot} {free : Lock → Bool} {choice : Choice}
  {o : Outcome Slot Task} {k k' : Task} {i : Incarnation}

section

variable (h : act s free k choice = some o)
include h

theorem delayed_origin (hk' : o.self = some k' ∨ o.spawned = some k')
    (hdelayed : k'.delayed) : k.delayed ∨ choice = .timeout ∧ k.family = .delete := by
  cases k with
  | delete k =>
    revert h
    simp only [act]
    fun_cases deleteAct s free k choice <;> grind [finish, goTo, delayed, family]
  | _ =>
    exfalso
    rcases hk' with hself | hspawned
    · have hfamily := (act_outcome h).1 hself
      cases k' with
      | delete => simp [family] at hfamily
      | _ => cases hdelayed
    · rcases (act_outcome h).2 hspawned with ⟨j, rfl, -⟩ | ⟨j, token, -, hk, -⟩
      · cases hdelayed
      · cases hk

theorem deletes_origin (hself : o.self = some k') (hk' : k'.deletes = some i) :
    k.deletes = some i ∨ s.mapped = some i := by
  have hfamily := (act_outcome h).1 hself
  cases k' with
  | delete =>
    cases k with
    | delete k =>
      revert h
      simp only [act]
      fun_cases deleteAct s free k choice <;> grind [finish, goTo, deletes]
    | _ => simp [family] at hfamily
  | _ => cases hk'

/-- A deletion comes to expect what it has just seen to, or finds its room
unreserved with the control free. -/
theorem expects_origin {tombstoned : Bool} (hself : o.self = some k')
    (hk' : k'.expects = some (i, tombstoned)) :
    (k.expects = some (i, tombstoned) ∧ o.shared = s) ∨
      (tombstoned = false ∧ free (.control i) ∧ s.reservation = none ∧
        o.shared = s.insertReservation) ∨
      (o.shared.room i).deleting = tombstoned := by
  have hfamily := (act_outcome h).1 hself
  cases k' with
  | delete =>
    cases k with
    | delete k =>
      revert h
      simp only [act]
      fun_cases deleteAct s free k choice <;>
        grind [finish, goTo, expects, modifyRoom_room,
          Room.tombstone, Room.restore, Option.isSome_iff_ne_none]
    | _ => simp [family] at hfamily
  | _ => cases hk'

theorem release_origin (hbefore : s.reservation ≠ none) (hafter : o.shared.reservation = none) :
    (∃ token, k = .teardown (.release token)) ∨
      (∃ runtime token, k = .delete (.release runtime token)) ∨
      k.delayed ∨ choice = .timeout ∧ k.family = .delete := by
  have hchange : SlotChange s free k o.shared := act_change h
  have htoken : ∃ token, k.token = some token := by
    rcases hchange.reservation with ⟨hsame, -⟩ | ⟨hnew, -⟩ | ⟨token, hk, -⟩
    · rw [hsame] at hafter
      exact absurd hafter hbefore
    · rw [hnew] at hafter
      cases hafter
    · exact ⟨token, hk⟩
  obtain ⟨token, htoken⟩ := htoken
  cases k with
  | teardown k =>
    revert h
    simp only [act]
    fun_cases teardownAct s k choice <;> grind [finish, goTo]
  | delete k =>
    revert h
    simp only [act]
    fun_cases deleteAct s free k choice <;> grind [finish, goTo, delayed, family,
        insertReservation, modifyRoom_reservation,
        unmap_reservation]
  | _ => cases htoken

end

end PunctualOrigins

/-! ## What the control of a room protects -/

theorem Slot.orInsertReservation_ne_none (s : Slot) : s.orInsertReservation.reservation ≠ none := by
  cases h : s.reservation with
  | none =>
    rw [orInsertReservation_of_none h]
    simp [insertReservation]
  | some =>
    rw [orInsertReservation_of_some h, h]
    simp

namespace SlotChange

variable {s t : Slot} {free : Lock → Bool} {k : Task}

section

variable (h : SlotChange s free k t)
include h

theorem nextIncarnation_le : s.nextIncarnation ≤ t.nextIncarnation := by
  cases h with
  | still _ _ _ next => exact Nat.le_of_eq next.symm
  | published => exact Nat.le_succ _
  | evicted task creation control live => simp [evictRoom_of_mapped live.1]
  | quarantined task live =>
    rw [quarantineRoom_of_live live]
    simp
  | _ => simp [insertReservation]

/-- A tombstone changes under the control of its room, or through a spawned
restore; a new room gets its first one. -/
theorem tombstone_control (i : Incarnation) :
    (t.room i).deleting = (s.room i).deleting ∨ .control i ∈ k.guards ∨
      free (.control i) ∨ k = .recover (.waitControl i) ∨ k.delayed ∨
      i = s.nextIncarnation := by
  have hother {j : Incarnation} {f : Room → Room} (hne : i ≠ j) :
      ((s.modifyRoom j f).room i).deleting = (s.room i).deleting := by
    rw [modifyRoom_room, if_neg hne]
  cases h with
  | still _ _ _ _ tombstones => exact .inl (tombstones i)
  | published =>
    rcases eq_or_ne i s.nextIncarnation with hi | hne
    · simp [hi]
    · exact .inl (by simp [publishRoom, Function.update_of_ne hne])
  | @evicted k j left task creation control live =>
    rcases eq_or_ne i j with rfl | hne
    · simp [control]
    left
    rw [evictRoom_of_mapped live.1]
    simp [Function.update_of_ne hne]
  | tombstoned j =>
    rcases eq_or_ne i j with rfl | hne
    · simp [guards]
    · exact .inl (hother hne)
  | @restored k j token task =>
    rcases eq_or_ne i j with rfl | hne
    · rcases task with rfl | rfl <;> simp [guards, delayed]
    · exact .inl (hother hne)
  | closed j =>
    rcases eq_or_ne i j with rfl | hne
    · simp
    · exact .inl (hother hne)
  | @quarantined k j task live =>
    rcases eq_or_ne i j with rfl | hne
    · rcases task with rfl | rfl <;> simp [guards]
    left
    rw [quarantineRoom_of_live live, orInsertReservation_room]
    exact hother hne
  | _ => exact .inl (by simp [insertReservation])

theorem raises_tombstone {i : Incarnation} (hbefore : (s.room i).deleting = false)
    (hafter : (t.room i).deleting = true) :
    (∃ token, k = .delete (.tombstone i token)) ∨
      k = .recover (.waitControl i) ∨ t.reservation ≠ none := by
  have hsame {r : Incarnation → Room} (hroom : r = s.room) : (r i).deleting ≠ true := by
    rw [hroom, hbefore]
    simp
  have hindex {j : Incarnation} {f : Room → Room}
      (hraised : ((s.modifyRoom j f).room i).deleting = true) : i = j := by
    by_contra hne
    rw [modifyRoom_room, if_neg hne, hbefore] at hraised
    cases hraised
  cases h with
  | still _ _ _ _ tombstones =>
    rw [tombstones i, hbefore] at hafter
    cases hafter
  | published =>
    rcases eq_or_ne i s.nextIncarnation with rfl | hne
    · simp [publishRoom] at hafter
    · simp [publishRoom, Function.update_of_ne hne, hbefore] at hafter
  | evicted task creation control live =>
    rw [evictRoom_of_mapped live.1]
    simp
  | tombstoned j token =>
    obtain rfl := hindex hafter
    exact .inl ⟨token, rfl⟩
  | restored =>
    obtain rfl := hindex hafter
    simp [modifyRoom_room, Room.restore] at hafter
  | closed =>
    obtain rfl := hindex hafter
    exact .inr (.inl rfl)
  | quarantined task live =>
    rw [quarantineRoom_of_live live]
    exact .inr (.inr (orInsertReservation_ne_none _))
  | _ => exact absurd hafter (hsame (by simp [insertReservation]))

end

end SlotChange

/-! ## Every live room is occupied or about to be evicted -/

/-- Somebody may still join the incarnation: it is live, or its deletion may
fail. -/
def MayLive (c : Config Slot Task Lock) (i : Incarnation) : Prop :=
  (c.shared.room i).deleting = false ∨ ∃ t k, c.task t = some k ∧ k.revives = some i

/-- What holds along every punctual run whose administration leaves rooms
occupied. -/
structure Kept (c : Config Slot Task Lock) : Prop where
  orderly : Orderly c
  punctual : ∀ {t k}, c.task t = some k → k.delayed = false
  mapped_lt : ∀ {i}, c.shared.mapped = some i → i < c.shared.nextIncarnation
  deletes_lt : ∀ {t k i}, c.task t = some k → k.deletes = some i → i < c.shared.nextIncarnation
  expected : ∀ {t k i tombstoned}, c.task t = some k → k.expects = some (i, tombstoned) →
    (c.shared.room i).deleting = tombstoned ∨ c.shared.mapped ≠ some i
  /-- a tombstoned room without a reservation is being unmapped -/
  unreserved : ∀ {i}, c.shared.mapped = some i →
    (c.shared.room i).deleting = true → c.shared.reservation = none →
    ∃ t, c.task t = some (.recover (.unmap i))
  occupied : ∀ {i}, c.shared.mapped = some i → MayLive c i →
    (c.shared.room i).occupied ∨ ∃ t, c.task t = some (.leave (.evict i))

theorem lifecycleStart_kept : Kept lifecycleStart where
  orderly := lifecycleStart_orderly
  punctual h := by cases h
  mapped_lt h := by cases h
  deletes_lt h := by cases h
  expected h := by cases h
  unreserved h := by cases h
  occupied h := by cases h

namespace Kept

variable {c : Config Slot Task Lock} {t u : ℕ} {k k' : Task}
  {choice : Choice} {o : Outcome Slot Task} {i : Incarnation}

theorem nextIncarnation_le (ha : lifecycle.Acts c t k choice o) :
    c.shared.nextIncarnation ≤ o.shared.nextIncarnation := by
  have hchange := slotChange_of_acts ha
  exact hchange.nextIncarnation_le

theorem mapped_before (ha : lifecycle.Acts c t k choice o) (hmapped : o.shared.mapped = some i) :
    c.shared.mapped = some i ∨ i = c.shared.nextIncarnation ∧
      ∃ persisted, k = .join (.publish persisted) ∧ o.shared = c.shared.publishRoom persisted := by
  have hchange := slotChange_of_acts ha
  rcases hchange.mapped with h | h | ⟨persisted, hk, ho⟩
  · exact .inl (h ▸ hmapped)
  · rw [h] at hmapped
    cases hmapped
  · right
    rw [ho] at hmapped
    cases hmapped
    exact ⟨rfl, persisted, hk, ho⟩

theorem not_publish_of_mapped (h : Kept c) (hk : c.task t = some k)
    (hmapped : c.shared.mapped = some i) (persisted : Bool) :
    k ≠ .join (.publish persisted) := by
  rintro rfl
  have hnone := (h.orderly.meets hk).scope (.of_token_none rfl)
  rw [hmapped] at hnone
  cases hnone

theorem apply_mapped_lt (h : Kept c) (ha : lifecycle.Acts c t k choice o)
    (hmapped : o.shared.mapped = some i) : i < o.shared.nextIncarnation := by
  rcases mapped_before ha hmapped with hbefore | ⟨rfl, persisted, -, ho⟩
  · exact Nat.lt_of_lt_of_le (h.mapped_lt hbefore) (nextIncarnation_le ha)
  · rw [ho]
    exact Nat.lt_succ_self _

theorem apply_deletes_lt (h : Kept c) (ha : lifecycle.Acts c t k choice o)
    (hu : (lifecycle.apply c t k o).task u = some k')
    (hk' : k'.deletes = some i) : i < o.shared.nextIncarnation := by
  have hle := nextIncarnation_le ha
  rcases h.orderly.task_cases ha hu with
    ⟨-, ⟨hself, -⟩ | ⟨hspawned, -⟩⟩ | ⟨-, hu⟩
  · rcases deletes_origin ha.acted hself hk' with hk | hmapped
    · exact Nat.lt_of_lt_of_le (h.deletes_lt ha.running hk) hle
    · exact Nat.lt_of_lt_of_le (h.mapped_lt hmapped) hle
  · rcases (act_outcome ha.acted).2 hspawned with ⟨j, rfl, -⟩ | ⟨j, token, rfl, -⟩
    · cases hk'
    · cases hk'
  · exact Nat.lt_of_lt_of_le (h.deletes_lt hu hk') hle

theorem closes_under_control (ha : lifecycle.Acts c t (.recover (.waitControl i)) choice o) :
    o.shared = c.shared ∨ c.free (.control i) ∧ o.self = some (.recover (.unmap i)) ∧
        (o.shared.room i).deleting = true := by
  have hacted : recoverAct c.shared c.free (.waitControl i) choice = some o := ha.acted
  cases choice <;> cases hacted
  · right
    have henters := ha.enters (.control i) (by
      simp [Protocol.held, lifecycle, guards])
    refine ⟨?_, rfl, ?_⟩
    · simpa [lifecycle, guards, Config.free] using henters
    · simp [modifyRoom_room, Room.clearMembers, Room.tombstone]
  · exact .inl rfl

section

variable (h : Kept c) (ha : lifecycle.Acts c t k choice o)
include h ha

theorem tombstone_of_other (hne : u ≠ t) (hu : c.task u = some k')
    (hguard : .control i ∈ k'.guards) (hlt : i < c.shared.nextIncarnation) :
    (o.shared.room i).deleting = (c.shared.room i).deleting := by
  have hchange := slotChange_of_acts ha
  have hfree := h.orderly.coherent.not_free hu hguard
  rcases hchange.tombstone_control i with hsame | hk | hcontrol | rfl | hk | hi
  · exact hsame
  · exact absurd (h.orderly.coherent.eq_of_guard hu ha.running hguard hk) hne
  · rw [hfree] at hcontrol
    cases hcontrol
  · rcases closes_under_control ha with hshared | ⟨hcontrol, -⟩
    · rw [hshared]
    · rw [hfree] at hcontrol
      cases hcontrol
  · rw [h.punctual ha.running] at hk
    cases hk
  · exact absurd hi (Nat.ne_of_lt hlt)

theorem apply_expected {tombstoned : Bool} (hu : (lifecycle.apply c t k o).task u = some k')
    (hk' : k'.expects = some (i, tombstoned)) :
    (o.shared.room i).deleting = tombstoned ∨ o.shared.mapped ≠ some i := by
  rw [or_iff_not_imp_right, not_not]
  intro hmapped
  rcases h.orderly.task_cases ha hu with
    ⟨-, ⟨hself, -⟩ | ⟨hspawned, -⟩⟩ | ⟨hne, hu⟩
  · rcases expects_origin ha.acted hself hk' with
      ⟨hk, ho⟩ | ⟨rfl, hcontrol, hreservation, ho⟩ | hnow
    · rw [ho] at hmapped ⊢
      exact (h.expected ha.running hk).resolve_right (not_not.mpr hmapped)
    · -- a tombstone without a reservation is recovery's, which has the control
      rw [ho] at hmapped ⊢
      cases hdeleting : (c.shared.room i).deleting with
      | false => exact hdeleting
      | true =>
        obtain ⟨v, hv⟩ := h.unreserved hmapped hdeleting hreservation
        have hfree := h.orderly.coherent.not_free hv
          (l := .control i) (by simp [lifecycle, guards])
        rw [hfree] at hcontrol
        cases hcontrol
    · exact hnow
  · rcases (act_outcome ha.acted).2 hspawned with ⟨j, rfl, -⟩ | ⟨j, token, rfl, -⟩
    · cases hk'
    · cases hk'
  · have hguard := control_of_expects hk'
    have hlt := h.deletes_lt hu (deletes_of_expects hk')
    rw [h.tombstone_of_other ha hne hu hguard hlt]
    refine (h.expected hu hk').resolve_right (not_not.mpr ?_)
    rcases mapped_before ha hmapped with hbefore | ⟨rfl, -⟩
    · exact hbefore
    · exact absurd hlt (Nat.lt_irrefl _)

theorem running_of_other (hne : u ≠ t) (hu : c.task u = some k') :
    (lifecycle.apply c t k o).task u = some k' :=
  (Protocol.task_apply h.orderly.coherent ha.running).mpr
    (.inr (.inr ⟨hne, hu⟩))

theorem running_of_self (hself : o.self = some k') : (lifecycle.apply c t k o).task t = some k' :=
  (Protocol.task_apply h.orderly.coherent ha.running).mpr (.inl ⟨rfl, hself⟩)

end

theorem not_timeout (hin : inTime c (.advance t choice))
    (hk : c.task t = some k) (hfamily : k.family ≠ .cleanup) :
    choice ≠ .timeout := by
  rintro rfl
  have hsame : some k = some (.cleanup .sessions) := by
    rw [← hk]
    simpa [inTime] using hin
  cases hsame
  exact hfamily rfl

section

variable (h : Kept c) (ha : lifecycle.Acts c t k choice o)
include h ha

theorem not_released (hin : inTime c (.advance t choice))
    (hmapped : c.shared.mapped = some i) (hbefore : c.shared.reservation ≠ none)
    (hafter : o.shared.reservation = none) : (o.shared.room i).deleting = false := by
  have hchange := slotChange_of_acts ha
  have hinstalled : k.Installed c.shared := by
    rcases hchange.reservation with
      ⟨hsame, -⟩ | ⟨hnew, -⟩ | ⟨token, hk, hs, -⟩
    · rw [hsame] at hafter
      exact absurd hafter hbefore
    · rw [hnew] at hafter
      cases hafter
    · intro other hother
      rw [hk] at hother
      cases hother
      exact hs
  have hscope := (h.orderly.meets ha.running).scope hinstalled
  rw [hmapped] at hscope
  rcases release_origin ha.acted hbefore hafter with
    ⟨token, rfl⟩ | ⟨runtime, token, rfl⟩ | hdelayed | ⟨htimeout, hfamily⟩
  · cases hscope
  · cases runtime with
    | none => cases hscope
    | some j =>
      obtain rfl : i = j := by simpa [scope, Scope.Allows] using hscope
      have hlive := (h.expected ha.running rfl).resolve_right (not_not.mpr hmapped)
      have hacted : deleteAct c.shared c.free (.release (some i) token) choice = some o := ha.acted
      cases choice <;> cases hacted
      simpa using hlive
  · rw [h.punctual ha.running] at hdelayed
    cases hdelayed
  · refine absurd htimeout (not_timeout hin ha.running ?_)
    rw [hfamily]
    simp

theorem apply_unreserved (hin : inTime c (.advance t choice))
    (hmapped : o.shared.mapped = some i) (hdeleting : (o.shared.room i).deleting = true)
    (hreservation : o.shared.reservation = none) :
    ∃ u, (lifecycle.apply c t k o).task u = some (.recover (.unmap i)) := by
  have hchange := slotChange_of_acts ha
  rcases mapped_before ha hmapped with hbefore | ⟨rfl, persisted, -, ho⟩
  · by_cases hnone : c.shared.reservation = none
    · cases hold : (c.shared.room i).deleting with
      | true =>
        obtain ⟨v, hv⟩ := h.unreserved hbefore hold hnone
        rcases eq_or_ne v t with rfl | hne
        · have hk := ha.running
          rw [hv] at hk
          cases hk
          have hacted : recoverAct c.shared c.free (.unmap i) choice = some o := ha.acted
          cases choice <;> cases hacted
          simp [unmap_mapped, hbefore] at hmapped
        · exact ⟨v, h.running_of_other ha hne hv⟩
      | false =>
        rcases hchange.raises_tombstone hold hdeleting with
          ⟨token, rfl⟩ | rfl | hsome
        · have hinstalled := (h.orderly.meets ha.running).secured
            (by simp [guards]) token rfl
          rw [hnone] at hinstalled
          cases hinstalled
        · rcases closes_under_control ha with hshared | ⟨-, hself, -⟩
          · rw [hshared, hold] at hdeleting
            cases hdeleting
          · exact ⟨t, h.running_of_self ha hself⟩
        · exact absurd hreservation hsome
    · rw [h.not_released ha hin hbefore hnone hreservation] at hdeleting
      cases hdeleting
  · rw [ho] at hdeleting
    simp [publishRoom] at hdeleting

theorem apply_punctual (hin : inTime c (.advance t choice))
    (hu : (lifecycle.apply c t k o).task u = some k') : k'.delayed = false := by
  by_contra hdelayed
  rw [Bool.not_eq_false] at hdelayed
  have hnew (hk' : o.self = some k' ∨ o.spawned = some k') : False := by
    rcases delayed_origin ha.acted hk' hdelayed with hk | ⟨htimeout, hfamily⟩
    · rw [h.punctual ha.running] at hk
      cases hk
    refine not_timeout hin ha.running ?_ htimeout
    rw [hfamily]
    simp
  rcases h.orderly.task_cases ha hu with
    ⟨-, ⟨hself, -⟩ | ⟨hspawned, -⟩⟩ | ⟨-, hu⟩
  · exact hnew (.inl hself)
  · exact hnew (.inr hspawned)
  · rw [h.punctual hu] at hdelayed
    cases hdelayed

theorem mayLive_before (hmapped : c.shared.mapped = some i)
    (hmay : MayLive (lifecycle.apply c t k o) i) : MayLive c i := by
  have hchange := slotChange_of_acts ha
  rcases hmay with hlive | ⟨u, k', hu, hk'⟩
  · have hlive : (o.shared.room i).deleting = false := hlive
    rcases hchange.deleting i with hsame | htrue | ⟨token, hk⟩ | ⟨p, hk, -⟩
    · exact .inl (hsame ▸ hlive)
    · rw [hlive] at htrue
      cases htrue
    · exact .inr ⟨t, k, ha.running, by rcases hk with rfl | rfl <;> rfl⟩
    · exact absurd hk (h.not_publish_of_mapped ha.running hmapped p)
  · rcases h.orderly.task_cases ha hu with
      ⟨-, ⟨hself, -⟩ | ⟨hspawned, -⟩⟩ | ⟨-, hu⟩
    · rcases revives_origin ha.acted hself hk' with ⟨hk, -⟩ | ⟨token, rfl, -⟩
      · exact .inr ⟨t, k, ha.running, hk⟩
      · exact .inl ((h.expected ha.running rfl).resolve_right (not_not.mpr hmapped))
    · rcases (act_outcome ha.acted).2 hspawned with
        ⟨j, rfl, -⟩ | ⟨j, token, rfl, rfl, -⟩
      · cases hk'
      · exact .inr ⟨t, _, ha.running, hk'⟩
    · exact .inr ⟨u, k', hu, hk'⟩

theorem live_of_mayLive (hin : inTime c (.advance t choice)) (hrevives : k.revives = none)
    (htombstone : ∀ token, k ≠ .delete (.tombstone i token))
    (hcontrol : .control i ∈ k.guards ∨ c.free (.control i))
    (hmay : MayLive (lifecycle.apply c t k o) i) :
    (o.shared.room i).deleting = false := by
  rcases hmay with hlive | ⟨u, k', hu, hk'⟩
  · exact hlive
  exfalso
  have hdelayed := h.apply_punctual ha hin hu
  rcases h.orderly.task_cases ha hu with
    ⟨-, ⟨hself, -⟩ | ⟨hspawned, -⟩⟩ | ⟨hne, hu⟩
  · rcases revives_origin ha.acted hself hk' with ⟨hk, -⟩ | ⟨token, hk, -⟩
    · rw [hrevives] at hk
      cases hk
    · exact htombstone token hk
  · rcases (act_outcome ha.acted).2 hspawned with
      ⟨j, rfl, -⟩ | ⟨j, token, rfl, -⟩
    · cases hk'
    · cases hdelayed
  · have hguard := control_of_revives hk' hdelayed
    rcases hcontrol with hk | hfree
    · exact hne (h.orderly.coherent.eq_of_guard hu ha.running hguard hk)
    · rw [h.orderly.coherent.not_free hu hguard] at hfree
      cases hfree

end

/-- The last section of a leave spares its room only if somebody came, or the
room is being deleted. -/
theorem evict_spares (ha : lifecycle.Acts c t (.leave (.evict i)) choice o)
    (htime : choice ≠ .timeout) (hbefore : c.shared.mapped = some i)
    (hmapped : o.shared.mapped = some i) :
    o.shared = c.shared ∧ c.free (.control i) ∧
      ((c.shared.room i).deleting = true ∨ (c.shared.room i).occupied) := by
  have hacted : leaveAct c.shared c.free (.evict i) choice = some o := ha.acted
  cases choice with
  | proceed =>
    simp only [leaveAct, evictSection] at hacted
    split_ifs at hacted with hlocks hevict
    · cases hacted
      rw [evictRoom_mapped hbefore] at hmapped
      cases hmapped
    cases hacted
    refine ⟨rfl, by simp_all, ?_⟩
    have habandoned : (c.shared.room i).abandoned = false := by simpa [hbefore] using hevict
    cases hdeleting : (c.shared.room i).deleting with
    | true => exact .inl rfl
    | false =>
      right
      simp only [Room.abandoned, hdeleting] at habandoned
      simp only [Room.occupied, Bool.or_eq_true, decide_eq_true_eq]
      by_cases hzero : (c.shared.room i).pendingJoins = 0
      · simpa [hzero] using habandoned
      · omega
  | timeout => exact absurd rfl htime
  | _ => cases hacted

theorem occupied_of_administers {role : Role} {change : Change} {left : Room}
    (hadmin : administersOccupied c
      (.advance t (.publish (.administrator role) change)))
    (hk : c.task t = some (.admin (.work (some i))))
    (hleft : (c.shared.room i).publish (.administrator role) change = some left) :
    left.occupied := by
  simpa [administersOccupied, hk, hleft] using hadmin

section

variable (h : Kept c) (ha : lifecycle.Acts c t k choice o)
  (hleaves : LeavesOccupied c (.advance t choice))
include h ha hleaves

/-- A vacated room stays occupied after all, is about to be evicted, or can
never be live again. -/
theorem occupied_of_vacates (hbefore : c.shared.mapped = some i)
    (hoccupied : (c.shared.room i).occupied)
    (hmay : MayLive (lifecycle.apply c t k o) i)
    (hvacates : Vacates c.shared c.free k choice o i) :
    (o.shared.room i).occupied ∨
      ∃ u, (lifecycle.apply c t k o).task u = some (.leave (.evict i)) := by
  have hchange := slotChange_of_acts ha
  have hlive := h.live_of_mayLive (i := i) ha hleaves.1
  cases hvacates with
  | left self => exact .inr ⟨t, h.running_of_self ha self⟩
  | failed task control tombstoned =>
    subst task
    have hlive := hlive rfl (by simp) (.inr control) hmay
    rcases hchange.deleting i with hsame | htrue | ⟨token, hk⟩ | ⟨p, hk, -⟩
    · rw [hsame, tombstoned] at hlive
      cases hlive
    · rw [hlive] at htrue
      cases htrue
    · simp at hk
    · cases hk
  | drained task =>
    subst task
    have hlive := hlive rfl (by simp) (.inl (by simp [guards])) hmay
    have htombstoned := (h.expected ha.running rfl).resolve_right (not_not.mpr hbefore)
    rcases hchange.deleting i with hsame | htrue | ⟨token, hk⟩ | ⟨p, hk, -⟩
    · rw [hsame, htombstoned] at hlive
      cases hlive
    · rw [hlive] at htrue
      cases htrue
    · simp at hk
    · cases hk
  | closed task =>
    subst task
    rcases closes_under_control ha with hshared | ⟨hfree, -, htombstoned⟩
    · rw [hshared]
      exact .inl hoccupied
    · rw [hlive rfl (by simp) (.inr hfree) hmay] at htombstoned
      cases htombstoned
  | quarantined task tombstoned =>
    have hlive : (o.shared.room i).deleting = false := by
      rcases task with rfl | rfl
      · exact hlive rfl (by simp) (.inl (by simp [guards])) hmay
      · exact hlive rfl (by simp) (.inl (by simp [guards])) hmay
    rw [hlive] at tombstoned
    cases tombstoned
  | administered task published change shared =>
    subst task published
    left
    rw [shared]
    exact occupied_of_administers hleaves.2 ha.running change

theorem apply_occupied (hmapped : o.shared.mapped = some i)
    (hmay : MayLive (lifecycle.apply c t k o) i) :
    (o.shared.room i).occupied ∨
      ∃ u, (lifecycle.apply c t k o).task u = some (.leave (.evict i)) := by
  rcases mapped_before ha hmapped with hbefore | ⟨rfl, persisted, -, ho⟩
  · rcases h.occupied hbefore (h.mayLive_before ha hbefore hmay) with
      hoccupied | ⟨u, hu⟩
    · rcases act_vacates ha.acted hmapped hoccupied with hstill | hvacates
      · exact .inl hstill
      · exact h.occupied_of_vacates ha hleaves hbefore hoccupied hmay hvacates
    rcases eq_or_ne u t with rfl | hne
    · have hk := ha.running
      rw [hu] at hk
      cases hk
      have htime := not_timeout hleaves.1 hu (by simp [family])
      obtain ⟨hshared, hfree, hspared⟩ := evict_spares ha htime hbefore hmapped
      have hlive := h.live_of_mayLive ha hleaves.1 rfl (by simp) (.inr hfree) hmay
      rw [hshared] at hlive ⊢
      rw [hlive] at hspared
      exact .inl (hspared.resolve_left (by simp))
    · exact .inr ⟨u, h.running_of_other ha hne hu⟩
  · rw [ho]
    left
    simp [publishRoom, Room.occupied]

theorem apply : Kept (lifecycle.apply c t k o) where
  orderly := h.orderly.apply ha
  punctual hu := h.apply_punctual ha hleaves.1 hu
  mapped_lt hmapped := h.apply_mapped_lt ha hmapped
  deletes_lt hu hk' := h.apply_deletes_lt ha hu hk'
  expected hu hk' := h.apply_expected ha hu hk'
  unreserved hmapped hdeleting hreservation :=
    h.apply_unreserved ha hleaves.1 hmapped hdeleting hreservation
  occupied hmapped hmay := h.apply_occupied ha hleaves hmapped hmay

end

theorem launch (h : Kept c) (hk : k.initial) : Kept (c.launch k) := by
  have hfresh : k.delayed = false ∧ k.deletes = none ∧ k.expects = none ∧ k.revives = none := by
    revert hk
    fun_cases initial k <;> simp [delayed, deletes, expects, revives]
  obtain ⟨hdelayed, hdeletes, hexpects, hrevives⟩ := hfresh
  have hkeep {u : ℕ} {k' : Task} (hu : c.task u = some k') : (c.launch k).task u = some k' :=
    (Protocol.task_launch h.orderly.coherent).mpr (.inr hu)
  refine ⟨h.orderly.launch hk, ?_, h.mapped_lt, ?_, ?_, ?_, ?_⟩
  · intro u k' hu
    rcases h.orderly.coherent.launched hu with rfl | hu
    · exact hdelayed
    · exact h.punctual hu
  · intro u k' i hu hk'
    rcases h.orderly.coherent.launched hu with rfl | hu
    · rw [hdeletes] at hk'
      cases hk'
    · exact h.deletes_lt hu hk'
  · intro u k' i tombstoned hu hk'
    rcases h.orderly.coherent.launched hu with rfl | hu
    · rw [hexpects] at hk'
      cases hk'
    · exact h.expected hu hk'
  · intro i hmapped hdeleting hreservation
    obtain ⟨u, hu⟩ := h.unreserved hmapped hdeleting hreservation
    exact ⟨u, hkeep hu⟩
  · intro i hmapped hmay
    have hbefore : MayLive c i := by
      refine hmay.imp_right ?_
      rintro ⟨u, k', hu, hk'⟩
      rcases h.orderly.coherent.launched hu with rfl | hu
      · rw [hrevives] at hk'
        cases hk'
      · exact ⟨u, k', hu, hk'⟩
    rcases h.occupied hmapped hbefore with hoccupied | ⟨u, hu⟩
    · exact .inl hoccupied
    · exact .inr ⟨u, hkeep hu⟩

theorem step {a : Action Task Choice} {d : Config Slot Task Lock} (h : Kept c)
    (hleaves : LeavesOccupied c a) (hstep : lifecycle.step c a = some d) :
    Kept d := by
  cases a with
  | start =>
    obtain ⟨hk, rfl⟩ := lifecycle.step_start_eq_some.mp hstep
    exact h.launch hk
  | advance =>
    obtain ⟨k, o, ha, rfl⟩ := lifecycle.step_advance_eq_some.mp hstep
    exact h.apply ha hleaves

end Kept

/-! ## Quiet rooms -/

/-- In a quiescent state of a punctual run whose administration leaves rooms
occupied, every live room has a participant, a lobby entry or a pending
join. -/
theorem live_rooms_occupied {actions : List (Action Task Choice)}
    {c : Config Slot Task Lock} {i : Incarnation}
    (hleaves : RunMeets lifecycle.step LeavesOccupied lifecycleStart actions)
    (hrun : run lifecycle.step lifecycleStart actions = some c)
    (hquiet : c.Quiescent) (hlive : c.shared.Live i) :
    (c.shared.room i).occupied := by
  have hkept : Kept c :=
    run_invariant (fun _ _ _ hs hc hstep => hs.step hc hstep)
      lifecycleStart_kept hleaves hrun
  rcases hkept.occupied hlive.1 (.inl hlive.2) with hoccupied | ⟨t, ht⟩
  · exact hoccupied
  · rw [hquiet t] at ht
    cases ht

theorem quiescent_of_run {actions : List (Action Task Choice)} {c : Config Slot Task Lock}
    (hrun : run lifecycle.step lifecycleStart actions = some c)
    (hidle : ∀ t < c.next, c.task t = none) : c.Quiescent := by
  have hkeeps : ∀ (s : Config Slot Task Lock) (a : Action Task Choice) d,
      lifecycle.Coherent s → True → lifecycle.step s a = some d → lifecycle.Coherent d :=
    fun _ _ _ hs _ hstep => hs.step hstep
  have hcoherent := run_invariant hkeeps lifecycleStart_coherent
    (runMeets_of_forall (fun _ _ => trivial) actions _) hrun
  exact hcoherent.quiescent hidle

def memberJoins : List (Action Task Choice) :=
  createsRoom 0 7 ++ advances 0 1 ++ [.advance 0 (.enter ⟨10, 1, .member, true, none⟩)]

def follows (t : ℕ) (p : Participant) : List (Action Task Choice) :=
  .start (.join .start) :: advances t 4 ++ [.advance t (.enter p)]

def kicksOverHttp (t : ℕ) (id : ParticipantId) : List (Action Task Choice) :=
  .start (.admin .start) :: advances t 3 ++
    [.advance t (.publish (.administrator .owner) (.kick id))] ++ advances t 1

/-- Two more members join; one of them is kicked over HTTP and the other leaves. -/
def membersComeAndGo : List (Action Task Choice) :=
  memberJoins ++ follows 1 ⟨11, 2, .member, true, none⟩ ++
    follows 2 ⟨12, 3, .member, true, none⟩ ++ kicksOverHttp 3 11 ++
    .start (.leave (.start 12 3)) :: advances 4 2

theorem membersComeAndGo_occupied : RunMeets lifecycle.step LeavesOccupied lifecycleStart
        membersComeAndGo ∧
      ∃ c, run lifecycle.step lifecycleStart membersComeAndGo = some c ∧ c.Quiescent ∧
        c.shared.Live 0 ∧ (c.shared.room 0).occupied := by
  have hleaves : RunMeets lifecycle.step LeavesOccupied
      lifecycleStart membersComeAndGo := by decide +kernel
  have hend : (run lifecycle.step lifecycleStart
      membersComeAndGo).any (fun c => c.shared.Live 0 ∧ ∀ t < c.next, c.task t = none) := by
    decide +kernel
  obtain ⟨c, hc, hend⟩ := (Option.any_eq_true _ _).mp hend
  have hend := of_decide_eq_true hend
  have hquiet := quiescent_of_run hc hend.2
  exact ⟨hleaves, c, hc, hquiet, hend.1, live_rooms_occupied hleaves hc hquiet hend.1⟩

def kickedOverHttp : List (Action Task Choice) :=
  memberJoins ++ kicksOverHttp 1 10

/-- Nothing has timed out and nothing is in progress, yet an empty live room
is mapped. -/
theorem room_left_empty_over_http : ¬ ∀ actions c i, RunMeets lifecycle.step (fun c a => inTime c a)
        lifecycleStart actions →
      run lifecycle.step lifecycleStart actions = some c →
      c.Quiescent → c.shared.Live i → (c.shared.room i).occupied := by
  intro hoccupied
  have hend : (run lifecycle.step lifecycleStart
      kickedOverHttp).any (fun c => c.shared.Live 0 ∧ (∀ t < c.next, c.task t = none) ∧
        (c.shared.room 0).occupied = false) := by decide
  obtain ⟨c, hc, hend⟩ := (Option.any_eq_true _ _).mp hend
  obtain ⟨hlive, hidle, hempty⟩ := of_decide_eq_true hend
  have htime : RunMeets lifecycle.step (fun c a => inTime c a)
      lifecycleStart kickedOverHttp := by decide
  have hcontra := hoccupied _ c 0 htime hc (quiescent_of_run hc hidle) hlive
  rw [hempty] at hcontra
  cases hcontra

end SimplestChat
