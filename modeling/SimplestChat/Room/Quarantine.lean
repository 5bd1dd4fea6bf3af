import SimplestChat.Room.WorkErrors

/-!
# Which failures quarantine a room

`SparesRoom` states what a controlled operation owes its room. If the work
ends because a row that the request names is not there, while the room's own
row is, only the requester is refused. And the room is quarantined only when
the outcome of a commit is unknown or its own row is gone.

`sparesRoom_iff` shows that an operation in a live room keeps this promise
exactly when it neither reaches the lookup of a missing row nor is cut off
before its commit by a failure that the classifier takes for an unknown outcome.
-/

namespace SimplestChat

open Transaction Transaction.Tx ModerationEvent

/-! ## The two errors of work -/

/-- What work raises by itself: a refusal, or a missing row. -/
def OwnError (error : RoomError) : Prop :=
  error = missingRow ∨ ∃ refusal, error = .refused refusal

theorem ownError_refused (refusal : Refusal) : OwnError (.refused refusal) := Or.inr ⟨refusal, rfl⟩

theorem ownError_missingRow : OwnError missingRow := Or.inl rfl

theorem recordEvent_ownError (room : RoomId) (event : ModerationEvent) (cap : ℕ) :
    (recordEvent room event cap).RaisesOnly OwnError :=
  recordEvent_raisesOnly_of_link
    (linkReport_raisesOnly ownError_refused ownError_missingRow room event) cap

theorem changePin_ownError (room : RoomId) (message : MessageId)
    (pinned : Bool) : (changePin room message pinned).RaisesOnly OwnError := by
  unfold changePin
  split
  · refine raisesOnly_statement_bind fun available => ?_
    cases available with
    | true => exact takePinSlot_raisesOnly ownError_refused room message
    | false => exact raisesOnly_raise ownError_missingRow
  · exact raisesOnly_statement _

theorem editAndCommit_ownError (conversation : Conversation)
    (actor : ParticipantId) (guestSession : Option SessionId) (message : MessageId)
    (now : Time) (request : EditRequest) :
    (editAndCommit conversation actor guestSession message now
      request).RaisesOnly OwnError := by
  refine raisesOnly_bind ?_ fun _ =>
    raisesOnly_bind raisesOnly_commit fun _ => raisesOnly_pure _
  refine raisesOnly_statement_bind fun _ =>
    raisesOnly_statement_bind fun saved => ?_
  cases saved with
  | none => exact raisesOnly_raise ownError_missingRow
  | some => exact saveEdit_raisesOnly ownError_refused _ _ _ _

theorem editSaved_ownError (room : RoomId) (actor : ParticipantId)
    (guestSession : Option SessionId) (original : ChatEntry) (now : Time)
    (request : EditRequest) :
    (editSaved room actor guestSession original now
      request).RaisesOnly OwnError := by
  refine raisesOnly_bind raisesOnly_begin fun _ => ?_
  cases original.recipientId with
  | none => exact editAndCommit_ownError _ _ _ _ _ _
  | some =>
    dsimp only [editPrivate]
    split
    · exact raisesOnly_raise (ownError_refused _)
    refine raisesOnly_statement_bind fun allowed => ?_
    split
    · exact raisesOnly_raise (ownError_refused _)
    · exact editAndCommit_ownError _ _ _ _ _ _

theorem updateOwnRow_ownError (room : RoomId) (f : RoomRow → RoomRow) :
    (updateOwnRow room f).RaisesOnly OwnError := by
  refine raisesOnly_bind (raisesOnly_autocommit _) fun affected => ?_
  split
  · exact raisesOnly_pure ()
  · exact raisesOnly_raise ownError_missingRow

theorem setRetention_ownError (room : RoomId) (days : ℕ) (isOlder : MessageRow → Bool) :
    (setRetention room days isOlder).RaisesOnly OwnError := by
  unfold setRetention
  split
  · exact raisesOnly_raise (ownError_refused _)
  refine raisesOnly_bind raisesOnly_begin fun _ =>
    raisesOnly_statement_bind fun affected => ?_
  split
  · exact applyRetention_raisesOnly _ _ _
  · exact raisesOnly_raise ownError_missingRow

theorem prepare_ownError (room : RoomId) (admin : Administrator)
    (stamp : Stamp) (command : AdministrationCommand) :
    (prepare room admin stamp command).RaisesOnly OwnError := by
  cases command with
  | settings =>
    dsimp only [prepare]
    split
    · exact raisesOnly_raise (ownError_refused _)
    · exact raisesOnly_statement _
  | role => exact roleChange_raisesOnly ownError_refused _ _ _ _ _
  | unban =>
    dsimp only [prepare]
    split
    · exact raisesOnly_raise (ownError_refused _)
    · exact removeBan_raisesOnly ownError_refused _ _ _ _
  | report =>
    refine raisesOnly_statement_bind fun opened => ?_
    cases opened with
    | none => exact raisesOnly_raise (ownError_refused _)
    | some => exact recordEvent_ownError _ _ _
  | moderate ban =>
    cases ban with
    | none => exact recordEvent_ownError _ _ _
    | some =>
      exact raisesOnly_bind (raisesOnly_statement _) fun _ =>
        recordEvent_ownError _ _ _
  | sanction =>
    exact raisesOnly_bind (writePunitiveState_raisesOnly _ _ _ _) fun _ =>
      recordEvent_ownError _ _ _

namespace ControlWork

theorem run_ownError (room : RoomId) (work : ControlWork) :
    (work.run room).RaisesOnly OwnError := by
  cases work with
  | kick =>
    exact raisesOnly_map (raisesOnly_bind raisesOnly_begin fun _ =>
        raisesOnly_bind (recordEvent_ownError _ _ _) fun _ => raisesOnly_commit)
  | ban =>
    exact raisesOnly_map (raisesOnly_bind raisesOnly_begin fun _ =>
        raisesOnly_bind (raisesOnly_statement _) fun _ =>
          raisesOnly_bind (recordEvent_ownError _ _ _) fun _ =>
            raisesOnly_commit)
  | sanction => exact raisesOnly_map (setPunitiveState_raisesOnly _ _ _ _ rfl)
  | unban => exact raisesOnly_map (removeUserBan_raisesOnly _ _ _ _)
  | pin =>
    exact raisesOnly_map (raisesOnly_bind raisesOnly_begin fun _ =>
        raisesOnly_statement_bind fun _ =>
          raisesOnly_statement_bind fun _ =>
            raisesOnly_bind (changePin_ownError _ _ _) fun _ =>
              raisesOnly_commit)
  | edit => exact raisesOnly_map (editSaved_ownError _ _ _ _ _ _)
  | reactPublic => exact raisesOnly_map (reactPublic_raisesOnly ownError_refused _ _ _ _ _)
  | saveReactions | role => exact raisesOnly_map (raisesOnly_autocommit _)
  | settings =>
    refine raisesOnly_map ?_
    unfold updateRoomSettings
    split
    · exact updateOwnRow_ownError _ _
    · exact raisesOnly_pure ()
  | topic => exact raisesOnly_map (updateOwnRow_ownError _ _)
  | retention => exact raisesOnly_map (setRetention_ownError _ _ _)
  | administration =>
    exact raisesOnly_map (raisesOnly_bind (prepare_ownError _ _ _ _) fun _ =>
        raisesOnly_bind (recheckExpiry_raisesOnly ownError_refused _) fun _ =>
          raisesOnly_commit)

/-! ## The row a request names -/

def namedRowMissing (room : RoomId) (db : Database) : ControlWork → Bool
  | .kick _ _ _ _ (some report) => (db.reportTarget room report).isNone
  | .ban _ _ _ _ (some report) _ _ => (db.reportTarget room report).isNone
  | .pin message true => (db.publicMessage room message).isNone
  | .edit actor guestSession original _ _ =>
    editAdmitted db actor guestSession original &&
      (db.authoredMessage (editConversation room actor original) actor
        guestSession original.messageId).isNone
  | .administration _ _ (.moderate _ _ _ (some report)) => (db.reportTarget room report).isNone
  | _ => false

def lookupAt : ControlWork → ℕ
  | .kick .. => 2
  | .ban .. => 3
  | .pin .. => 4
  | .edit _ _ original _ _ => editLookupAt original
  | .administration _ _ (.moderate none ..) => 1
  | .administration _ _ (.moderate (some _) ..) => 2
  | _ => 0

/-- The work reaches the lookup of a row that it names and that is not there. -/
def StopsAtMissingRow (room : RoomId) (db : Database)
    (faults : List (Option (Fault DriverError))) (work : ControlWork) : Prop :=
  work.namedRowMissing room db = true ∧
    (⟨db, db, faults⟩ : Transaction.Connection Database DriverError).Undisturbed work.lookupAt

section Administration

variable {room : RoomId} {c : Transaction.Connection Database DriverError}

theorem prepare_raises_missingRow {admin : Administrator} {stamp : Stamp}
    {command : AdministrationCommand} :
    (prepare room admin stamp command).Raises c missingRow ↔
      (ControlWork.administration admin stamp command).namedRowMissing room
          c.work = true ∧
        c.Undisturbed (ControlWork.administration admin stamp command).lookupAt := by
  cases command with
  | settings patch passwordHash =>
    have hnever : (prepare room admin stamp
        (.settings patch passwordHash)).RaisesOnly (· ≠ missingRow) := by
      dsimp only [prepare]
      split
      · exact raisesOnly_raise (refused_ne_missingRow _)
      · exact raisesOnly_statement _
    simpa [namedRowMissing] using fun h => hnever _ _ h rfl
  | role target online newRole =>
    have hnever := roleChange_raisesOnly (P := (· ≠ missingRow))
      refused_ne_missingRow room admin target online newRole
    simpa [namedRowMissing, prepare] using fun h => hnever _ _ h rfl
  | unban ban =>
    have hnever : (prepare room admin stamp
        (.unban ban)).RaisesOnly (· ≠ missingRow) := by
      dsimp only [prepare]
      split
      · exact raisesOnly_raise (refused_ne_missingRow _)
      · exact removeBan_raisesOnly refused_ne_missingRow _ _ _ _
    simpa [namedRowMissing] using fun h => hnever _ _ h rfl
  | report report dismissed =>
    have hnever : ¬ (closeReport room report dismissed admin.actor stamp).Raises c missingRow :=
      closeReport_never_missingRow report dismissed admin.actor stamp
    simpa [namedRowMissing, prepare] using hnever
  | moderate ban target reason report =>
    cases ban with
    | none =>
      rw [prepare, recordEvent_raises_missingRow]
      cases report with
      | none => simp [namedRowMissing, new]
      | some =>
        simp [namedRowMissing, lookupAt, new,
          Connection.undisturbed_succ, Connection.undisturbed_zero, and_comm]
    | some ban =>
      obtain ⟨penalty, expiresAt⟩ := ban
      rw [prepare, writeBan, raises_update_bind, recordEvent_raises_missingRow]
      cases report with
      | none => simp [namedRowMissing, new]
      | some =>
        simp only [namedRowMissing, lookupAt, new, upsertState_reportTarget,
          Option.some.injEq, exists_eq_left', Option.isNone_iff_eq_none,
          Connection.undisturbed_succ, Connection.undisturbed_zero, and_true]
        constructor
        · rintro ⟨hinsert, hselect, hnone⟩
          exact ⟨hnone, hinsert, hselect⟩
        · rintro ⟨hnone, hinsert, hselect⟩
          exact ⟨hinsert, hselect, hnone⟩
  | sanction penalty kind enabled target reason =>
    have hnever : (prepare room admin stamp
        (.sanction penalty kind enabled target reason)).RaisesOnly
        (· ≠ missingRow) :=
      raisesOnly_bind (writePunitiveState_raisesOnly _ _ _ _) fun _ =>
        recordEvent_raisesOnly_of_no_report rfl _
    simpa [namedRowMissing] using fun h => hnever _ _ h rfl

end Administration

section Runs

variable {room : RoomId} {db : Database} {faults : List (Option (Fault DriverError))}
  {work : ControlWork}

theorem raises_iff_of_unnamed (hnamed : work.namedRowMissing room db = false)
    (h : ¬(work.run room).Raises ⟨db, db, faults⟩ missingRow) :
    (work.run room).Raises ⟨db, db, faults⟩ missingRow ↔ work.StopsAtMissingRow room db faults := by
  refine iff_of_false h fun hstops => ?_
  rw [StopsAtMissingRow, hnamed] at hstops
  cases hstops.1

theorem raises_iff_of_never (hnamed : work.namedRowMissing room db = false)
    (hnever : (work.run room).RaisesOnly (· ≠ missingRow)) :
    (work.run room).Raises ⟨db, db, faults⟩ missingRow ↔ work.StopsAtMissingRow room db faults :=
  raises_iff_of_unnamed hnamed fun h => hnever _ _ h rfl

/-- Work raises `RowNotFound` while the room's row is there exactly when it
stops at a missing row that the request names. -/
theorem run_raises_missingRow (hroom : db.hasRoom room = true) :
    (work.run room).Raises ⟨db, db, faults⟩ missingRow ↔ work.StopsAtMissingRow room db faults := by
  cases work with
  | kick stamp actor target reason report =>
    rw [run, raises_map, persistEvent_raises_missingRow]
    cases report <;> simp [StopsAtMissingRow, namedRowMissing, lookupAt, new,
        and_comm]
  | ban stamp actor target reason report =>
    rw [run, raises_map, persistBan_raises_missingRow]
    cases report <;> simp [StopsAtMissingRow, namedRowMissing, lookupAt, new,
        and_comm]
  | sanction =>
    exact raises_iff_of_never rfl (raisesOnly_map (setPunitiveState_raisesOnly _ _ _ _ rfl))
  | unban => exact raises_iff_of_never rfl (raisesOnly_map (removeUserBan_raisesOnly _ _ _ _))
  | pin message pinned =>
    rw [run, raises_map, setPin_raises_missingRow]
    cases pinned <;> simp [StopsAtMissingRow, namedRowMissing, lookupAt, and_comm]
  | edit =>
    rw [run, raises_map, editSaved_raises_missingRow]
    simp only [StopsAtMissingRow, namedRowMissing, lookupAt, Bool.and_eq_true,
      Option.isNone_iff_eq_none]
    constructor
    · rintro ⟨hadmitted, hquiet, hnone⟩
      exact ⟨⟨hadmitted, hnone⟩, hquiet⟩
    · rintro ⟨⟨hadmitted, hnone⟩, hquiet⟩
      exact ⟨hadmitted, hquiet, hnone⟩
  | reactPublic =>
    exact raises_iff_of_never rfl
      (raisesOnly_map (reactPublic_raisesOnly refused_ne_missingRow _ _ _ _ _))
  | saveReactions | role => exact raises_iff_of_never rfl (raisesOnly_map (raisesOnly_autocommit _))
  | settings =>
    refine raises_iff_of_unnamed rfl fun h => ?_
    rw [run, raises_map] at h
    unfold updateRoomSettings at h
    split at h
    · simpa [hroom] using updateOwnRow_raises_missingRow h
    · simp at h
  | topic =>
    refine raises_iff_of_unnamed rfl fun h => ?_
    rw [run, raises_map] at h
    simpa [hroom] using updateOwnRow_raises_missingRow h
  | retention =>
    refine raises_iff_of_unnamed rfl fun h => ?_
    rw [run, raises_map] at h
    simpa [hroom] using setRetention_raises_missingRow h
  | administration admin =>
    have htail : ∀ _ : Unit, (do recheckExpiry admin; commit : Sql Unit).RaisesOnly
        (· ≠ missingRow) := fun _ =>
      raisesOnly_bind (recheckExpiry_raisesOnly refused_ne_missingRow _)
        fun _ => raisesOnly_commit
    rw [run, raises_map, administer,
      raises_bind_of_never htail, prepare_raises_missingRow, StopsAtMissingRow]

end Runs

end ControlWork

/-! ## What an operation owes its room -/

/-- The work was cut off at a statement that commits, so it may have been
saved all the same. -/
def OutcomeUnknown {α : Type} (work : Sql α)
    (c : Transaction.Connection Database DriverError) : Prop :=
  ∃ error : DriverError, (work c).1 = .error (.fault error true)

/-- The work was cut off before it sent its commit, so nothing was saved, by a
failure that the classifier takes for an unknown outcome. -/
def CutOffEarly {α : Type} (work : Sql α)
    (c : Transaction.Connection Database DriverError) : Prop :=
  ∃ error : DriverError, (work c).1 = .error (.fault error false) ∧ error.provesRollback = false

/-- A missing named row costs nobody but the requester anything, and only an
unknown outcome or a lost room row quarantines the room. -/
def SparesRoom (s : Slot) (i : Incarnation) (room : RoomId) (db : Database)
    (faults : List (Option (Fault DriverError))) (work : ControlWork) : Prop :=
  (work.StopsAtMissingRow room db faults → db.hasRoom room = true →
    (persistRoom s i (work.run room) ⟨db, db, faults⟩).1 = s ∧
      ∃ error, (persistRoom s i (work.run room) ⟨db, db, faults⟩).2.2 = .error error) ∧
  ((persistRoom s i (work.run room) ⟨db, db, faults⟩).1 ≠ s →
    OutcomeUnknown (work.run room) ⟨db, db, faults⟩ ∨ db.hasRoom room = false)

variable {s : Slot} {i : Incarnation}

theorem quarantineRoom_eq_self_of_not_live (h : ¬ s.Live i) : s.quarantineRoom i = s := by
  unfold Slot.quarantineRoom
  rw [if_pos]
  by_contra hcon
  push Not at hcon
  exact h ⟨hcon.1, by simpa using hcon.2⟩

theorem quarantineRoom_deleting (h : s.Live i) : ((s.quarantineRoom i).room i).deleting = true := by
  have hguard : ¬ (s.mapped ≠ some i ∨ (s.room i).deleting = true) := by simp [h.1, h.2]
  simp [Slot.quarantineRoom, if_neg hguard, Slot.modifyRoom, Room.clearMembers, Room.tombstone]

theorem quarantineRoom_ne_self (h : s.Live i) : s.quarantineRoom i ≠ s := by
  intro heq
  have hdeleting := quarantineRoom_deleting h
  rw [heq, h.2] at hdeleting
  cases hdeleting

theorem persistRoom_slot {α : Type} (s : Slot) (i : Incarnation)
    (work : Sql α) (c : Transaction.Connection Database DriverError) :
    (persistRoom s i work c).1 = match (work c).1 with
      | .ok _ => s
      | .error stop =>
        if persistenceIsIndeterminate (.ofStop stop) then s.quarantineRoom i
        else s := by
  unfold persistRoom
  rcases work c with ⟨result, c'⟩
  cases result <;> rfl

theorem persistRoom_of_raises {α : Type}
    {work : Sql α} {c : Transaction.Connection Database DriverError} {error : RoomError}
    (h : work.Raises c error) :
    (persistRoom s i work c).2.2 = .error error := by
  unfold persistRoom
  unfold Raises at h
  rcases hwork : work c with ⟨result, c'⟩
  rw [hwork] at h
  simp only at h
  subst h
  rfl

section Broken

variable {room : RoomId} {db : Database} {faults : List (Option (Fault DriverError))}
  {work : ControlWork}

theorem not_sparesRoom_of_stops (hlive : s.Live i)
    (hroom : db.hasRoom room = true) (hstops : work.StopsAtMissingRow room db faults) :
    ¬ SparesRoom s i room db faults work := by
  rintro ⟨hspared, _⟩
  have hraises := (ControlWork.run_raises_missingRow hroom).mpr hstops
  have hslot := persistRoom_slot s i (work.run room) ⟨db, db, faults⟩
  rw [show ((work.run room) ⟨db, db, faults⟩).1 = .error (.raised missingRow) from hraises] at hslot
  have hquarantined : s.quarantineRoom i = s := hslot.symm.trans (hspared hstops hroom).1
  exact quarantineRoom_ne_self hlive hquarantined

theorem not_sparesRoom_of_cutOff (hlive : s.Live i)
    (hroom : db.hasRoom room = true)
    (hcut : CutOffEarly (work.run room) ⟨db, db, faults⟩) :
    ¬ SparesRoom s i room db faults work := by
  rintro ⟨_, honly⟩
  obtain ⟨error, hend, hopen⟩ := hcut
  have hslot : (persistRoom s i (work.run room) ⟨db, db, faults⟩).1 = s.quarantineRoom i := by
    rw [persistRoom_slot, hend]
    simp [RoomError.ofStop, persistenceIsIndeterminate, hopen]
  have hchanged : (persistRoom s i (work.run room) ⟨db, db, faults⟩).1 ≠ s :=
    hslot ▸ quarantineRoom_ne_self hlive
  rcases honly hchanged with ⟨error', hend'⟩ | hgone
  · cases hend.symm.trans hend'
  · rw [hroom] at hgone
    cases hgone

end Broken

/-- A controlled operation keeps its promise exactly when, in a live room whose
row exists, it neither reaches the lookup of a missing row nor is cut off before
its commit by a failure that the classifier takes for an unknown outcome. -/
theorem sparesRoom_iff (s : Slot) (i : Incarnation) (room : RoomId) (db : Database)
    (faults : List (Option (Fault DriverError))) (work : ControlWork) :
    SparesRoom s i room db faults work ↔ ¬ (s.Live i ∧ db.hasRoom room = true ∧
        (work.StopsAtMissingRow room db faults ∨
          CutOffEarly (work.run room) ⟨db, db, faults⟩)) := by
  constructor
  · rintro hspares ⟨hlive, hroom, hstops | hcut⟩
    · exact not_sparesRoom_of_stops hlive hroom hstops hspares
    · exact not_sparesRoom_of_cutOff hlive hroom hcut hspares
  intro hsafe
  constructor
  · intro hstops hroom
    have hlive : ¬ s.Live i := fun h => hsafe ⟨h, hroom, Or.inl hstops⟩
    have hraises := (ControlWork.run_raises_missingRow hroom).mpr hstops
    refine ⟨?_, missingRow, persistRoom_of_raises hraises⟩
    rw [persistRoom_slot, quarantineRoom_eq_self_of_not_live hlive]
    split
    · rfl
    · simp
  · intro hchanged
    rw [persistRoom_slot] at hchanged
    cases hend : ((work.run room) ⟨db, db, faults⟩).1 with
    | ok => simp [hend] at hchanged
    | error stop =>
      simp only [hend] at hchanged
      have hunknown : persistenceIsIndeterminate (.ofStop stop) = true := by
        by_contra h
        simp [h] at hchanged
      by_contra hnot
      push Not at hnot
      have hroom : db.hasRoom room = true := by simpa using hnot.2
      have hlive : s.Live i := by
        by_contra h
        simp [quarantineRoom_eq_self_of_not_live h] at hchanged
      cases stop with
      | fault error committing =>
        cases committing with
        | true => exact hnot.1 ⟨error, hend⟩
        | false =>
          refine hsafe ⟨hlive, hroom, Or.inr ⟨error, hend, ?_⟩⟩
          simpa [RoomError.ofStop, persistenceIsIndeterminate] using hunknown
      | raised =>
        rcases ControlWork.run_ownError room work _ _ hend with
          rfl | ⟨refusal, rfl⟩
        · exact hsafe ⟨hlive, hroom, Or.inl ((ControlWork.run_raises_missingRow hroom).mp hend)⟩
        · simp [RoomError.ofStop, persistenceIsIndeterminate] at hunknown

/-! ## A kick that names an unknown report -/

def threeMembers : Room where
  participants :=
    [⟨10, 1, .owner, true, none⟩, ⟨11, 2, .user, true, none⟩, ⟨12, 3, .user, true, none⟩]
  lobby := []
  persisted := true
  pendingJoins := 0
  policyRevision := 0
  deleting := false

/-- The room is mapped and nothing is reserved. -/
def threeMembersSlot : Slot where
  mapped := some 0
  room := fun _ => threeMembers
  reservation := none
  router := some 0
  nextIncarnation := 1
  nextToken := 0

def databaseWithoutReports : Database where
  rooms :=
    [{ id := 5
       settings :=
        { moderated := false, lobbyEnabled := false, guestsAllowed := true
          guestsCanBroadcast := true, maxBroadcasters := none
          maxParticipants := none, allowScreenSharing := true, allowChat := true
          allowVideo := true, requireRegistration := false, inviteOnly := false
          pushToTalk := false, secret := false }
       passwordHash := none
       topic := none
       historyRetentionDays := 0 }]
  reports := []
  events := []
  states := []
  roles := []
  messages := []
  pins := []
  accounts := []
  sessions := []
  nextId := 0

def kickWithUnknownReport : ControlWork :=
  .kick ⟨1, 0⟩ ⟨10, "owner"⟩ ⟨.participant 11, "member", true, none⟩ none (some 77)

def plainKick : ControlWork :=
  .kick ⟨1, 0⟩ ⟨10, "owner"⟩ ⟨.participant 11, "member", true, none⟩ none none

/-- The kick is refused for its unknown report, and the live room is closed
for all three members and its ID reserved. The same happens to a kick without
a report whose deadline passes before its transaction has begun. -/
theorem kick_with_unknown_report_quarantines :
    ¬ SparesRoom threeMembersSlot 0 5 databaseWithoutReports []
        kickWithUnknownReport ∧
      (let out := persistRoom threeMembersSlot 0
          (kickWithUnknownReport.run 5)
          ⟨databaseWithoutReports, databaseWithoutReports, []⟩
       out.2.2 = .error missingRow ∧ (out.1.room 0).participants = [] ∧
        (out.1.room 0).deleting = true ∧ out.1.reservation = some 0) ∧
      ¬ SparesRoom threeMembersSlot 0 5 databaseWithoutReports
        [some ⟨persistenceDeadline, false⟩] plainKick ∧
      (let out := persistRoom threeMembersSlot 0 (plainKick.run 5)
          ⟨databaseWithoutReports, databaseWithoutReports, [some ⟨persistenceDeadline, false⟩]⟩
       (out.1.room 0).participants = [] ∧ out.1.reservation = some 0) := by
  refine ⟨?_, by decide, ?_, by decide⟩
  · apply not_sparesRoom_of_stops ⟨rfl, rfl⟩ (by decide)
    refine ⟨by decide, ?_⟩
    simp [Connection.Undisturbed]
  · exact not_sparesRoom_of_cutOff ⟨rfl, rfl⟩ (by decide) ⟨persistenceDeadline, rfl, rfl⟩

end SimplestChat
