import SimplestChat.Room.Control

/-!
# What database work raises by itself

Besides the faults of the environment, database work stops with an error of
its own in two ways: it refuses the request, or it raises `RowNotFound`. The
first part says which helpers can do which. The second part says, for each
helper that looks up a row named by the request, exactly when that lookup
raises `RowNotFound`.
-/

namespace SimplestChat

open Option Transaction Transaction.Tx Connection Database

abbrev missingRow : RoomError := .database .rowNotFound

/-! ## Helpers that only refuse -/

section Refusals

variable {P : RoomError → Prop} (hrefused : ∀ refusal, P (.refused refusal))

include hrefused

theorem linkReport_raisesOnly (hmissing : P missingRow) (room : RoomId) (event : ModerationEvent) :
    (linkReport room event).RaisesOnly P := by
  unfold linkReport
  cases event.reportId with
  | none => exact raisesOnly_pure ()
  | some =>
    refine raisesOnly_statement_bind fun target => ?_
    cases target with
    | none => exact raisesOnly_raise hmissing
    | some =>
      dsimp only
      split
      · exact raisesOnly_raise (hrefused _)
      · exact raisesOnly_statement _

variable {room : RoomId} {event : ModerationEvent}

omit hrefused in
theorem linkReport_raisesOnly_of_no_report (h : event.reportId = none) :
    (linkReport room event).RaisesOnly P := by
  unfold linkReport
  rw [h]
  exact raisesOnly_pure ()

omit hrefused in
theorem recordEvent_raisesOnly_of_link (h : (linkReport room event).RaisesOnly P) (cap : ℕ) :
    (recordEvent room event cap).RaisesOnly P :=
  raisesOnly_bind h fun _ =>
    raisesOnly_statement_bind fun _ => raisesOnly_statement _

omit hrefused in
theorem recordEvent_raisesOnly_of_no_report (h : event.reportId = none)
    (cap : ℕ) : (recordEvent room event cap).RaisesOnly P :=
  recordEvent_raisesOnly_of_link (linkReport_raisesOnly_of_no_report h) cap

omit hrefused in
theorem writePunitiveState_raisesOnly (room : RoomId) (sanction : Sanction)
    (kind : PunitiveKind) (enabled : Bool) :
    (writePunitiveState room sanction kind enabled).RaisesOnly P := by
  unfold writePunitiveState
  split <;> exact raisesOnly_statement _

omit hrefused in
theorem setPunitiveState_raisesOnly (room : RoomId) (sanction : Sanction)
    (kind : PunitiveKind) (enabled : Bool) (h : event.reportId = none) :
    (setPunitiveState room sanction kind enabled event).RaisesOnly P :=
  raisesOnly_bind raisesOnly_begin fun _ =>
    raisesOnly_bind (writePunitiveState_raisesOnly room sanction kind enabled)
      fun _ =>
        raisesOnly_bind (recordEvent_raisesOnly_of_no_report h _)
          fun _ => raisesOnly_commit

omit hrefused in
theorem recordUserUnban_raisesOnly (room : RoomId) (user : ParticipantId)
    (actor : Actor) (stamp : Stamp) :
    (recordUserUnban room user actor stamp).RaisesOnly P :=
  raisesOnly_statement_bind fun _ =>
    raisesOnly_bind (recordEvent_raisesOnly_of_no_report rfl _) fun _ =>
      raisesOnly_bind raisesOnly_commit fun _ => raisesOnly_pure _

omit hrefused in
theorem removeUserBan_raisesOnly (room : RoomId) (user : ParticipantId)
    (actor : Actor) (stamp : Stamp) :
    (removeUserBan room user actor stamp).RaisesOnly P := by
  refine raisesOnly_bind raisesOnly_begin fun _ =>
    raisesOnly_statement_bind fun deleted => ?_
  cases deleted with
  | false => exact raisesOnly_pure false
  | true => exact recordUserUnban_raisesOnly room user actor stamp

theorem removeBan_raisesOnly (room : RoomId) (ban : ℕ) (actor : Actor)
    (stamp : Stamp) : (removeBan room ban actor stamp).RaisesOnly P := by
  refine raisesOnly_statement_bind fun removed => ?_
  cases removed with
  | none => exact raisesOnly_raise (hrefused _)
  | some => exact recordEvent_raisesOnly_of_no_report rfl _

theorem roleChange_raisesOnly (room : RoomId) (admin : Administrator)
    (target : ParticipantId) (online : Option Role) (newRole : Role) :
    (roleChange room admin target online newRole).RaisesOnly P := by
  refine raisesOnly_statement_bind fun current => ?_
  cases current.or online with
  | none => exact raisesOnly_raise (hrefused _)
  | some =>
    dsimp only
    split
    · exact raisesOnly_raise (hrefused _)
    · exact raisesOnly_statement _

theorem recheckExpiry_raisesOnly (admin : Administrator) : (recheckExpiry admin).RaisesOnly P := by
  refine raisesOnly_statement_bind fun live => ?_
  cases live with
  | true => exact raisesOnly_pure ()
  | false => exact raisesOnly_raise (hrefused _)

theorem takePinSlot_raisesOnly (room : RoomId) (message : MessageId) :
    (takePinSlot room message).RaisesOnly P := by
  refine raisesOnly_statement_bind fun existing => ?_
  cases existing with
  | true => exact raisesOnly_pure ()
  | false =>
    refine raisesOnly_statement_bind fun slot => ?_
    cases slot with
    | none => exact raisesOnly_raise (hrefused _)
    | some => exact raisesOnly_statement _

theorem reactPublic_raisesOnly (room : RoomId) (message : MessageId)
    (reactor : ParticipantId) (ignored : List ParticipantId) (emoji : String) :
    (reactPublic room message reactor ignored emoji).RaisesOnly P := by
  refine raisesOnly_bind raisesOnly_begin fun _ =>
    raisesOnly_statement_bind fun _ =>
      raisesOnly_statement_bind fun saved => ?_
  cases saved with
  | none => exact raisesOnly_pure none
  | some =>
    dsimp only [toggleSavedReaction]
    split
    · exact raisesOnly_raise (hrefused _)
    · exact raisesOnly_statement_bind fun _ =>
        raisesOnly_bind raisesOnly_commit fun _ => raisesOnly_pure _

theorem saveEdit_raisesOnly (conversation : Conversation) (now : Time)
    (saved : ChatEntry) (request : EditRequest) :
    (saveEdit conversation now saved request).RaisesOnly P := by
  unfold saveEdit
  split
  · exact raisesOnly_raise (hrefused _)
  split
  · exact raisesOnly_pure _
  · exact raisesOnly_statement_bind fun _ =>
      raisesOnly_statement_bind fun _ => raisesOnly_pure _

omit hrefused in
theorem applyRetention_raisesOnly (room : RoomId) (days : ℕ) (isOlder : MessageRow → Bool) :
    (applyRetention room days isOlder).RaisesOnly P := by
  have hcursors : (dropReadCursors days).RaisesOnly P := by
    unfold dropReadCursors
    split
    · exact raisesOnly_statement _
    · exact raisesOnly_pure ()
  exact raisesOnly_statement_bind fun _ =>
    raisesOnly_statement_bind fun _ =>
      raisesOnly_statement_bind fun _ =>
        raisesOnly_bind hcursors fun _ => raisesOnly_commit

end Refusals

/-! ## Where the row a request names is looked up -/

section Lookups

variable {room : RoomId} {c : Transaction.Connection Database DriverError}

theorem refused_ne_missingRow (refusal : Refusal) : RoomError.refused refusal ≠ missingRow := by
  simp

variable {event : ModerationEvent}

theorem linkReport_raises_missingRow : (linkReport room event).Raises c missingRow ↔
      ∃ report, event.reportId = some report ∧ c.nextFault = none ∧
        c.work.reportTarget room report = none := by
  unfold linkReport
  cases event.reportId with
  | none => simp
  | some report =>
    dsimp only
    rw [raises_query_bind]
    cases htarget : c.work.reportTarget room report with
    | none => simp [htarget]
    | some target =>
      have hnever : (if .participant target ≠ event.target.id then
          raise (.refused (.invalid "Open report does not match this participant"))
        else
          update fun db => db.resolveReport room report .resolved
            event.actor.id : Sql Unit).RaisesOnly (· ≠ missingRow) := by
        split
        · exact raisesOnly_raise (refused_ne_missingRow _)
        · exact raisesOnly_statement _
      constructor
      · rintro ⟨_, hraises⟩
        exact absurd rfl (hnever _ _ hraises)
      rintro ⟨other, hother, _, hnone⟩
      cases hother
      simp [htarget] at hnone

theorem recordEvent_raises_missingRow {cap : ℕ} : (recordEvent room event cap).Raises c missingRow ↔
      ∃ report, event.reportId = some report ∧ c.nextFault = none ∧
        c.work.reportTarget room report = none := by
  rw [recordEvent, raises_bind_of_never, linkReport_raises_missingRow]
  intro _
  exact raisesOnly_statement_bind fun _ => raisesOnly_statement _

theorem persistEvent_raises_missingRow : (persistEvent room event).Raises c missingRow ↔
      ∃ report, event.reportId = some report ∧ c.Undisturbed 2 ∧
        c.saved.reportTarget room report = none := by
  rw [persistEvent, raises_begin_bind, raises_bind_of_never, recordEvent_raises_missingRow]
  · constructor
    · rintro ⟨hbegin, report, hreport, hselect, hnone⟩
      refine ⟨report, hreport, ?_, hnone⟩
      exact undisturbed_succ.mpr ⟨hbegin, undisturbed_succ.mpr ⟨hselect, undisturbed_zero _⟩⟩
    · rintro ⟨report, hreport, hquiet, hnone⟩
      obtain ⟨hbegin, hrest⟩ := undisturbed_succ.mp hquiet
      exact ⟨hbegin, report, hreport, (undisturbed_succ.mp hrest).1, hnone⟩
  · intro _
    exact raisesOnly_commit

theorem upsertState_reportTarget (db : Database) (state : SavedState)
    (sanction : Sanction) (expiresAt : Option Time) (report : ℕ) :
    (db.upsertState room state sanction expiresAt).reportTarget room report =
      db.reportTarget room report := by
  unfold upsertState
  dsimp only
  split <;> rfl

theorem persistBan_raises_missingRow {sanction : Sanction} {expiresAt : Option Time} :
    (persistBan room sanction expiresAt event).Raises c missingRow ↔
      ∃ report, event.reportId = some report ∧ c.Undisturbed 3 ∧
        c.saved.reportTarget room report = none := by
  rw [persistBan, raises_begin_bind, writeBan, raises_update_bind,
    raises_bind_of_never fun _ => raisesOnly_commit,
    recordEvent_raises_missingRow]
  simp only [undisturbed_succ, undisturbed_zero, upsertState_reportTarget, and_true]
  constructor
  · rintro ⟨hbegin, hinsert, report, hreport, hselect, hnone⟩
    exact ⟨report, hreport, ⟨hbegin, hinsert, hselect⟩, hnone⟩
  · rintro ⟨report, hreport, ⟨hbegin, hinsert, hselect⟩, hnone⟩
    exact ⟨hbegin, hinsert, report, hreport, hselect, hnone⟩

variable {message : MessageId}

theorem changePin_raises_missingRow {pinned : Bool} :
    (changePin room message pinned).Raises c missingRow ↔ pinned = true ∧ c.nextFault = none ∧
        c.work.publicMessage room message = none := by
  cases pinned with
  | false =>
    have hnever : (changePin room message false).RaisesOnly (· ≠ missingRow) := by
      exact raisesOnly_statement fun db : Database => (db.deletePin room message, ())
    constructor
    · intro h
      exact absurd rfl (hnever _ _ h)
    · rintro ⟨h, _⟩
      cases h
  | true =>
    have hnever := takePinSlot_raisesOnly (P := (· ≠ missingRow))
      refused_ne_missingRow room message
    simp only [changePin, if_true, pinAvailable, raises_query_bind, true_and]
    cases hmessage : c.work.publicMessage room message with
    | none => simp
    | some =>
      simp only [isSome_some, if_true, reduceCtorEq, and_false, iff_false, not_and]
      intro _ hraises
      exact hnever _ _ hraises rfl

theorem setPin_raises_missingRow {pinned : Bool} :
    (setPin room message pinned).Raises c missingRow ↔ pinned = true ∧ c.Undisturbed 4 ∧
        c.saved.publicMessage room message = none := by
  rw [setPin, raises_begin_bind, raises_update_bind, raises_update_bind,
    raises_bind_of_never fun _ => raisesOnly_commit,
    changePin_raises_missingRow]
  simp only [undisturbed_succ, undisturbed_zero, and_true]
  constructor
  · rintro ⟨hbegin, hlock, hdrop, hpinned, hselect, hnone⟩
    exact ⟨hpinned, ⟨hbegin, hlock, hdrop, hselect⟩, hnone⟩
  · rintro ⟨hpinned, ⟨hbegin, hlock, hdrop, hselect⟩, hnone⟩
    exact ⟨hbegin, hlock, hdrop, hpinned, hselect, hnone⟩

variable {actor : ParticipantId} {guestSession : Option SessionId} {now : Time}
  {request : EditRequest}

theorem editAndCommit_raises_missingRow {conversation : Conversation} :
    (editAndCommit conversation actor guestSession message now request).Raises
        c missingRow ↔
      c.Undisturbed 2 ∧ c.work.authoredMessage conversation actor guestSession message = none := by
  rw [editAndCommit, raises_bind_of_never fun _ =>
      raisesOnly_bind raisesOnly_commit fun _ => raisesOnly_pure _,
    editInTransaction, raises_update_bind, raises_query_bind]
  simp only [undisturbed_succ, undisturbed_zero, and_true, and_assoc]
  cases hsaved : c.work.authoredMessage conversation actor guestSession message with
  | none => simp [advance, nextFault]
  | some row =>
    have hnever := saveEdit_raisesOnly (P := (· ≠ missingRow))
      refused_ne_missingRow conversation now
      (conversationMessage conversation row.body) request
    simp only [reduceCtorEq, and_false, iff_false, not_and]
    intro _ _ hraises
    exact hnever _ _ hraises rfl

theorem editPrivate_raises_missingRow {peer : ParticipantId} :
    (editPrivate actor peer guestSession message now request).Raises
        c missingRow ↔
      actor ≠ peer ∧ guestSession = none ∧
        c.work.privateAccountsAllow actor peer = true ∧ c.Undisturbed 3 ∧
        c.work.authoredMessage (privateConversation actor peer) actor
          guestSession message = none := by
  by_cases hself : actor = peer
  · simp [editPrivate, hself]
  simp only [editPrivate, if_neg hself, raises_query_bind]
  by_cases hallowed : guestSession = none ∧ c.work.privateAccountsAllow actor peer = true
  · obtain ⟨rfl, hallow⟩ := hallowed
    simp only [hallow, isSome_none, Bool.not_true, Bool.or_self,
      Bool.false_eq_true, if_false, editAndCommit_raises_missingRow]
    simp only [undisturbed_succ, undisturbed_zero,
      and_true, ne_eq, hself, not_false_eq_true, true_and, and_assoc]
    exact Iff.rfl
  · have hrefuse : (guestSession.isSome ||
        !c.work.privateAccountsAllow actor peer) = true := by
      cases guestSession with
      | some => rfl
      | none =>
        have hdeny : c.work.privateAccountsAllow actor peer ≠ true := fun h => hallowed ⟨rfl, h⟩
        simpa using hdeny
    simp only [hrefuse, if_true, raises_raise, reduceCtorEq, and_false, false_iff, not_and]
    intro _ hguest hallow
    exact absurd ⟨hguest, hallow⟩ hallowed

def editConversation (room : RoomId) (actor : ParticipantId)
    (original : ChatEntry) : Conversation :=
  match original.recipientId with
  | some peer => privateConversation actor peer
  | none => .room room

/-- Whether `edit_saved` gets as far as looking for the message. -/
def editAdmitted (db : Database) (actor : ParticipantId)
    (guestSession : Option SessionId) (original : ChatEntry) : Bool :=
  match original.recipientId with
  | some peer => actor ≠ peer && guestSession.isNone && db.privateAccountsAllow actor peer
  | none => true

/-- How many statements `edit_saved` sends up to that lookup. -/
def editLookupAt (original : ChatEntry) : ℕ :=
  if original.recipientId.isSome then 4 else 3

theorem editSaved_raises_missingRow {original : ChatEntry} :
    (editSaved room actor guestSession original now request).Raises
        c missingRow ↔
      editAdmitted c.saved actor guestSession original = true ∧
        c.Undisturbed (editLookupAt original) ∧
        c.saved.authoredMessage (editConversation room actor original) actor
          guestSession original.messageId = none := by
  rw [editSaved, raises_begin_bind]
  unfold editAdmitted editLookupAt editConversation
  cases original.recipientId with
  | none =>
    dsimp only
    rw [editAndCommit_raises_missingRow]
    simp only [isSome_none, Bool.false_eq_true, if_false,
      undisturbed_succ, undisturbed_zero, and_true,
      true_and, and_assoc]
    exact Iff.rfl
  | some =>
    dsimp only
    rw [editPrivate_raises_missingRow]
    simp only [isSome_some, if_true, undisturbed_succ,
      undisturbed_zero, and_true, Bool.and_eq_true,
      decide_eq_true_eq, isNone_iff_eq_none, ne_eq]
    constructor
    · rintro ⟨hbegin, hne, hguest, hallow, hrest, hnone⟩
      exact ⟨⟨⟨hne, hguest⟩, hallow⟩, ⟨hbegin, hrest⟩, hnone⟩
    · rintro ⟨⟨⟨hne, hguest⟩, hallow⟩, ⟨hbegin, hrest⟩, hnone⟩
      exact ⟨hbegin, hne, hguest, hallow, hrest, hnone⟩

theorem updateOwnRow_raises_missingRow {f : RoomRow → RoomRow}
    (h : (updateOwnRow room f).Raises c missingRow) :
    c.saved.hasRoom room = false := by
  rw [updateOwnRow, raises_autocommit_bind] at h
  by_contra hroom
  have hone : (c.saved.rooms.filter fun row => row.id = room).length = 1 := by
    simpa [hasRoom] using hroom
  have hraises := h.2
  simp [updateRoom, hone] at hraises

theorem setRetention_raises_missingRow {days : ℕ} {isOlder : MessageRow → Bool}
    (h : (setRetention room days isOlder).Raises c missingRow) :
    c.saved.hasRoom room = false := by
  unfold setRetention at h
  split at h
  · simp at h
  rw [raises_begin_bind, raises_statement_bind] at h
  by_contra hroom
  have hone : (c.saved.rooms.filter fun row => row.id = room).length = 1 := by
    simpa [hasRoom] using hroom
  have hnever := applyRetention_raisesOnly (P := (· ≠ missingRow)) room days isOlder
  have hraises := h.2.2
  simp only [updateRoom, hone, if_true] at hraises
  exact hnever _ _ hraises rfl

theorem closeReport_never_missingRow (report : ℕ) (dismissed : Bool)
    (actor : Actor) (stamp : Stamp) :
    ¬ (closeReport room report dismissed actor stamp).Raises c missingRow := by
  intro h
  rw [closeReport, raises_statement_bind] at h
  have hraises := h.2
  cases hfind : c.work.reports.find? fun row =>
      row.room = room && row.id = report && row.status = .opened with
  | none => simp [hfind] at hraises
  | some row =>
    simp only [hfind, map_some, recordEvent_raises_missingRow] at hraises
    obtain ⟨other, hother, _, hnone⟩ := hraises
    have hreport : other = report := by simpa [ModerationEvent.new, eq_comm] using hother
    subst hreport
    have hmem := List.mem_of_find?_eq_some hfind
    have hmatch := List.find?_some hfind
    simp only [Bool.and_eq_true, decide_eq_true_eq] at hmatch
    simp only [reportTarget, resolveReport,
      map_eq_none_iff, List.find?_eq_none, List.mem_map] at hnone
    refine hnone _ ⟨row, hmem, rfl⟩ ?_
    simp [hmatch.1.1, hmatch.1.2, hmatch.2]

end Lookups

end SimplestChat
