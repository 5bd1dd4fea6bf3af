import SimplestChat.Room.Lifecycle

/-!
# What one action can do to a slot

`SlotChange` lists every way in which an action of a task changes the mapping,
the reservation or the tombstones of a room ID, with the circumstances under
which the source does it. Whatever another task relies on is then kept or
broken by one of these few changes; the program points of the acting task need
not be looked at again.
-/

namespace SimplestChat

open Option Interleaving

namespace Slot

variable (s : Slot) (i : Incarnation)

/-! ## Fields after the slot operations -/

section

variable (f : Room → Room)
include f

@[simp] theorem modifyRoom_mapped : (s.modifyRoom i f).mapped = s.mapped := rfl

@[simp] theorem modifyRoom_reservation : (s.modifyRoom i f).reservation = s.reservation := rfl

@[simp] theorem modifyRoom_router : (s.modifyRoom i f).router = s.router := rfl

@[simp] theorem modifyRoom_nextIncarnation :
    (s.modifyRoom i f).nextIncarnation = s.nextIncarnation := rfl

theorem modifyRoom_room (j : Incarnation) :
    (s.modifyRoom i f).room j = if j = i then f (s.room i) else s.room j := by
  simp [modifyRoom, Function.update_apply]

end

theorem modifyRoom_self : (s.modifyRoom i fun _ => s.room i) = s := by simp [modifyRoom]

theorem unmap_mapped : (s.unmap i).mapped = if s.mapped = some i then none else s.mapped := by
  unfold unmap
  split <;> rfl

@[simp] theorem unmap_reservation : (s.unmap i).reservation = s.reservation := by
  unfold unmap
  split <;> rfl

@[simp] theorem unmap_room : (s.unmap i).room = s.room := by
  unfold unmap
  split <;> rfl

@[simp] theorem unmap_nextToken : (s.unmap i).nextToken = s.nextToken := by
  unfold unmap
  split <;> rfl

@[simp] theorem unmap_nextIncarnation : (s.unmap i).nextIncarnation = s.nextIncarnation := by
  unfold unmap
  split <;> rfl

section

variable (token : Token)
include token

theorem releaseDeletionReservation_reservation : (s.releaseDeletionReservation token).reservation =
      if s.reservation = some token then none else s.reservation := by
  unfold releaseDeletionReservation
  split <;> rfl

@[simp] theorem releaseDeletionReservation_mapped :
    (s.releaseDeletionReservation token).mapped = s.mapped := by
  unfold releaseDeletionReservation
  split <;> rfl

@[simp] theorem releaseDeletionReservation_room :
    (s.releaseDeletionReservation token).room = s.room := by
  unfold releaseDeletionReservation
  split <;> rfl

@[simp] theorem releaseDeletionReservation_nextToken :
    (s.releaseDeletionReservation token).nextToken = s.nextToken := by
  unfold releaseDeletionReservation
  split <;> rfl

@[simp] theorem releaseDeletionReservation_nextIncarnation :
    (s.releaseDeletionReservation token).nextIncarnation = s.nextIncarnation := by
  unfold releaseDeletionReservation
  split <;> rfl

end

@[simp] theorem orInsertReservation_mapped : s.orInsertReservation.mapped = s.mapped := by
  unfold orInsertReservation
  split <;> rfl

@[simp] theorem orInsertReservation_nextIncarnation :
    s.orInsertReservation.nextIncarnation = s.nextIncarnation := by
  unfold orInsertReservation
  split <;> rfl

theorem quarantineRoom_of_live {s : Slot} {i : Incarnation} (h : s.Live i) : s.quarantineRoom i =
      (s.modifyRoom i fun room =>
        room.tombstone.clearMembers).orInsertReservation := by
  simp [quarantineRoom, h.1, h.2]

theorem evictRoom_of_mapped {s : Slot} {i : Incarnation} {left : Room} (h : s.mapped = some i) :
    (s.modifyRoom i fun _ => left).evictRoom i = { s with
        mapped := none
        room := Function.update s.room i left.tombstone
        reservation := some s.nextToken
        nextToken := s.nextToken + 1 } := by
  simp [evictRoom, modifyRoom, insertReservation, unmap, h]

theorem evictRoom_mapped {s : Slot} {i : Incarnation}
    (h : s.mapped = some i) : (s.evictRoom i).mapped = none := by
  simp [evictRoom, insertReservation, unmap_mapped, h]

end Slot

/-! ## What a published change leaves alone -/

namespace Room

theorem publish_frame {room left : Room} {authority : Authority}
    {change : Change} (h : room.publish authority change = some left) :
    left.deleting = room.deleting ∧ left.pendingJoins = room.pendingJoins := by
  obtain ⟨role, -, h⟩ := bind_eq_some_iff.mp h
  cases change with
  | policy =>
    cases h
    exact ⟨rfl, rfl⟩
  | kick =>
    simp only [kick, bind_eq_bind, bind_eq_some_iff] at h
    obtain ⟨person, -, -, -, h⟩ := h
    cases h
    exact ⟨rfl, rfl⟩
  | ban =>
    simp only [ban, bind_eq_bind, bind_eq_some_iff] at h
    obtain ⟨person, -, -, -, ids, -, waiting, -, h⟩ := h
    cases h
    exact ⟨rfl, rfl⟩
  | setRole =>
    simp only [setRole, bind_eq_bind, bind_eq_some_iff] at h
    obtain ⟨person, -, -, -, -, -, h⟩ := h
    cases h
    exact ⟨rfl, rfl⟩
  | admitFromLobby =>
    simp only [admitFromLobby, bind_eq_bind, bind_eq_some_iff] at h
    obtain ⟨-, -, entry, -, h⟩ := h
    cases h
    exact ⟨rfl, rfl⟩
  | denyFromLobby =>
    simp only [denyFromLobby, bind_eq_bind, bind_eq_some_iff] at h
    obtain ⟨-, -, entry, -, h⟩ := h
    cases h
    exact ⟨rfl, rfl⟩
  | rebind =>
    cases authority with
    | member =>
      cases h
      exact ⟨rfl, rfl⟩
    | administrator => cases h

end Room

/-! ## The changes -/

def SameTombstones (s t : Slot) : Prop :=
  ∀ i, (t.room i).deleting = (s.room i).deleting

/-- The one way a task at `k` turned the slot `s` into `t`. -/
inductive SlotChange (s : Slot) (free : Lock → Bool) : Task → Slot → Prop
  /-- membership, reserved joins and the router at most -/
  | still {k : Task} {t : Slot}
      (mapped : t.mapped = s.mapped)
      (reservation : t.reservation = s.reservation)
      (nextToken : t.nextToken = s.nextToken)
      (nextIncarnation : t.nextIncarnation = s.nextIncarnation)
      (tombstones : SameTombstones s t) : SlotChange s free k t
  | published (persisted : Bool) :
      SlotChange s free (.join (.publish persisted)) (s.publishRoom persisted)
  /-- an abandoned room is tombstoned, reserved and unmapped at once -/
  | evicted {k : Task} {i : Incarnation} {left : Room}
      (task : k = .leave (.evict i) ∨ k = .join (.failed i))
      (creation : free .creation) (control : free (.control i))
      (live : s.Live i) (left_deleting : left.deleting = false) :
      SlotChange s free k ((s.modifyRoom i fun _ => left).evictRoom i)
  | reserved {k : Task}
      (task : k = .delete .reserve ∨ ∃ i, k = .delete (.waitControl i) ∧ free (.control i))
      (unreserved : s.reservation = none) :
      SlotChange s free k s.insertReservation
  | tombstoned (i : Incarnation) (token : Token) : SlotChange s free (.delete (.tombstone i token))
        (s.modifyRoom i Room.tombstone)
  | restored {k : Task} {i : Incarnation} {token : Token}
      (task : k = .delete (.restore i token) ∨ k = .delete (.delayedRestore i token)) :
      SlotChange s free k (s.modifyRoom i Room.restore)
  | released {k : Task} {token : Token} (holder : k.token = some token) :
      SlotChange s free k (s.releaseDeletionReservation token)
  | unmapped {k : Task} {i : Incarnation}
      (task : (∃ token, k = .delete (.unmap i token)) ∨ k = .recover (.unmap i)) :
      SlotChange s free k (s.unmap i)
  /-- recovery empties and tombstones whatever room it finds -/
  | closed (i : Incarnation) : SlotChange s free (.recover (.waitControl i))
        (s.modifyRoom i fun room => room.tombstone.clearMembers)
  | recovered (i : Incarnation) : SlotChange s free (.recover (.reserve i)) s.insertReservation
  /-- a controlled write on a live room has an unknown outcome -/
  | quarantined {k : Task} {i : Incarnation}
      (task : k = .control (.work i) ∨ k = .admin (.work (some i)))
      (live : s.Live i) : SlotChange s free k (s.quarantineRoom i)
  /-- a write without a runtime room has an unknown outcome -/
  | uncertain : SlotChange s free (.admin (.work none)) s.orInsertReservation

namespace SlotChange

variable {s : Slot} {free : Lock → Bool}

theorem refl (k : Task) : SlotChange s free k s := .still rfl rfl rfl rfl fun _ => rfl

theorem router (k : Task) (router : Option WorkerId) : SlotChange s free k { s with router } :=
  .still rfl rfl rfl rfl fun _ => rfl

theorem membership (k : Task) {i : Incarnation} {f : Room → Room}
    (h : (f (s.room i)).deleting = (s.room i).deleting) :
    SlotChange s free k (s.modifyRoom i f) := by
  refine .still rfl rfl rfl rfl fun j => ?_
  rw [Slot.modifyRoom_room]
  split
  · next hj => rw [hj, h]
  · rfl

end SlotChange

/-! ## Every action makes one of the changes -/

section Changes

variable {s : Slot} {free : Lock → Bool} {choice : Choice} {o : Outcome Slot Task}

variable {k : Task} {i : Incarnation}

theorem commitJoin_change {revision : ℕ} {commit : Room → Room}
    (h : commitJoin s i revision commit = some o)
    (hcommit : ∀ room, (commit room).deleting = room.deleting) :
    SlotChange s free k o.shared := by
  unfold commitJoin at h
  split at h <;> cases h
  · exact .membership k (hcommit _)
  · exact .refl k

theorem failedJoinSection_change (hcreation : free .creation)
    (hcontrol : free (.control i)) (h : failedJoinSection s i = some o) :
    SlotChange s free (.join (.failed i)) o.shared := by
  unfold failedJoinSection at h
  have hsame : (s.room i).releaseJoinReservation.1.deleting = (s.room i).deleting := by
    unfold Room.releaseJoinReservation
    split <;> rfl
  have hleft : (s.room i).releaseJoinReservation.2 → (s.room i).deleting = false := by
    unfold Room.releaseJoinReservation
    split <;> simp +contextual
  dsimp only at h
  split at h
  · rename_i hevict
    cases h
    have hlive := hleft hevict.1
    exact .evicted (.inr rfl) hcreation hcontrol ⟨hevict.2, hlive⟩ (hsame.trans hlive)
  · cases h
    exact .membership (f := fun _ => _) _ hsame

theorem joinAct_change {k : JoinPoint} (h : joinAct s free k choice = some o) :
    SlotChange s free (.join k) o.shared := by
  revert h
  fun_cases joinAct s free k choice <;> intro h <;> try cases h
  all_goals first
    | exact .refl _
    | exact .router _ _
    | skip
  · exact .membership _ rfl
  · exact .published _
  · exact commitJoin_change h fun _ => rfl
  · exact commitJoin_change h fun _ => rfl
  · rename_i hfree
    simp only [Bool.or_eq_true, Bool.not_eq_true', not_or, Bool.not_eq_false] at hfree
    exact failedJoinSection_change hfree.1 hfree.2 h

theorem leaveSection_change {id : ParticipantId}
    {sender : SenderId} (h : leaveSection s i id sender = some o) :
    SlotChange s free k o.shared := by
  unfold leaveSection at h
  dsimp only at h
  split at h
  · split at h <;> cases h <;> exact .membership (f := fun _ => _) _ rfl
  · cases h
    exact .refl k

theorem evictSection_change (hcreation : free .creation) (hcontrol : free (.control i))
    (h : evictSection s i = some o) :
    SlotChange s free (.leave (.evict i)) o.shared := by
  unfold evictSection at h
  split at h
  · rename_i hevict
    cases h
    have hlive : (s.room i).deleting = false := by
      have := hevict.2
      simp only [Room.abandoned, Bool.and_eq_true, Bool.not_eq_true'] at this
      exact this.1.1
    have hchange := SlotChange.evicted (k := .leave (.evict i)) (.inl rfl)
      hcreation hcontrol ⟨hevict.1, hlive⟩ hlive
    rwa [s.modifyRoom_self] at hchange
  · cases h
    exact .refl _

theorem leaveAct_change {k : LeavePoint} (h : leaveAct s free k choice = some o) :
    SlotChange s free (.leave k) o.shared := by
  revert h
  fun_cases leaveAct s free k choice <;> intro h <;> try cases h
  all_goals try exact .refl _
  · exact leaveSection_change h
  · rename_i hfree
    simp only [Bool.or_eq_true, Bool.not_eq_true', not_or, Bool.not_eq_false] at hfree
    exact evictSection_change hfree.1 hfree.2 h

theorem teardownAct_change {k : TeardownPoint} (h : teardownAct s k choice = some o) :
    SlotChange s free (.teardown k) o.shared := by
  revert h
  fun_cases teardownAct s k choice <;> intro h <;> try cases h
  all_goals first
    | exact .refl _
    | exact .router _ _
    | exact .released rfl

theorem deleteAct_change {k : DeletePoint} (h : deleteAct s free k choice = some o) :
    SlotChange s free (.delete k) o.shared := by
  revert h
  fun_cases deleteAct s free k choice <;> intro h <;> try cases h
  all_goals first
    | exact .refl _
    | exact .released rfl
    | skip
  · rename_i hunreserved
    exact .reserved (.inl rfl) (by simpa using hunreserved)
  · rename_i hfree hunreserved
    exact .reserved (.inr ⟨_, rfl, by simpa using hfree⟩)
      (by simpa using hunreserved)
  · exact .tombstoned _ _
  · exact .membership _ rfl
  · exact .unmapped (.inl ⟨_, rfl⟩)
  · exact .restored (.inl rfl)
  · exact .restored (.inr rfl)

theorem quarantineSection_change {self : Option Task}
    (htask : k = .control (.work i) ∨ k = .admin (.work (some i)))
    (h : quarantineSection s i self = some o) :
    SlotChange s free k o.shared := by
  unfold quarantineSection at h
  split at h
  · rename_i hlive
    cases h
    exact .quarantined htask hlive
  · cases h
    exact .refl _

theorem publishSection_change {authority : Authority} {change : Change}
    {self : Option Task} (h : publishSection s i authority change self = some o) :
    SlotChange s free k o.shared := by
  unfold publishSection at h
  split at h
  · rename_i room hroom
    cases h
    exact .membership (f := fun _ => _) _ (Room.publish_frame hroom).1
  · cases h

theorem controlAct_change {k : ControlPoint} (h : controlAct s free k choice = some o) :
    SlotChange s free (.control k) o.shared := by
  revert h
  fun_cases controlAct s free k choice <;> intro h <;> try cases h
  all_goals try exact .refl _
  · exact publishSection_change h
  · exact quarantineSection_change (.inl rfl) h

theorem adminAct_change {k : AdminPoint} (h : adminAct s free k choice = some o) :
    SlotChange s free (.admin k) o.shared := by
  revert h
  fun_cases adminAct s free k choice <;> intro h <;> try cases h
  all_goals try exact .refl _
  · exact publishSection_change h
  · exact quarantineSection_change (.inr rfl) h
  · exact .uncertain

theorem recoverAct_change {k : RecoverPoint} (h : recoverAct s free k choice = some o) :
    SlotChange s free (.recover k) o.shared := by
  revert h
  fun_cases recoverAct s free k choice <;> intro h <;> try cases h
  all_goals try exact .refl _
  · exact .closed _
  · exact .unmapped (.inr rfl)
  · exact .recovered _

theorem act_change (h : act s free k choice = some o) : SlotChange s free k o.shared := by
  cases k with
  | join => exact joinAct_change h
  | leave => exact leaveAct_change h
  | teardown => exact teardownAct_change h
  | delete => exact deleteAct_change h
  | control => exact controlAct_change h
  | admin => exact adminAct_change h
  | recover => exact recoverAct_change h
  | cleanup k =>
    revert h
    simp only [act]
    fun_cases cleanupAct s k choice <;> intro h <;> try cases h
    all_goals first
      | exact .refl _
      | exact .router _ _
  | elsewhere k =>
    revert h
    simp only [act]
    fun_cases elsewhereAct s k choice <;> intro h <;> try cases h
    all_goals exact .refl _

theorem slotChange_of_acts {c : Config Slot Task Lock} {t : ℕ}
    (ha : lifecycle.Acts c t k choice o) : SlotChange c.shared c.free k o.shared :=
  act_change ha.acted

end Changes

end SimplestChat
