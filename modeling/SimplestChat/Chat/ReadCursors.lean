import SimplestChat.Chat.Entry
import SimplestChat.Support.Runs

/-!
# Read cursors and inbox pointers

`mark_read` raises an account's cursor in a conversation with a conditional upsert; where
the upsert is refused, a second statement of the same transaction may still raise the
expiry. `insert_message` moves the inbox pointers of both accounts in the same way.
Either upsert locks its row, also when it changes nothing, so transactions on one row
follow one another from the upsert to the commit.
-/

/-! ## A row that transactions write in turn -/

open List Transition

/-- One row, what the transaction that has it locked will leave and answer, and the answers
that were sent. -/
structure LockedRow (ρ α : Type*) where
  row : Option ρ
  pending : Option (ρ × α)
  answers : List α
deriving DecidableEq

inductive RowAction (ρ : Type*) where
  | write (request : ρ)
  | commit
  | abort

namespace LockedRow

variable {ρ α β : Type*} [LinearOrder β] {write : Option ρ → ρ → ρ × α}

/-- A write has to wait while another transaction has the row; the answer is sent after the
commit. -/
def step (write : Option ρ → ρ → ρ × α) (s : LockedRow ρ α) :
    RowAction ρ → Option (LockedRow ρ α)
  | .write request =>
    if s.pending.isSome then none else some { s with pending := some (write s.row request) }
  | .commit => s.pending.map fun done => ⟨some done.1, none, s.answers ++ [done.2]⟩
  | .abort => some { s with pending := none }

/-- The requests that are committed, where `held` is written and not committed yet. -/
def committed : Option ρ → List (RowAction ρ) → List ρ
  | _, [] => []
  | _, .write request :: rest => committed (some request) rest
  | held, .commit :: rest => held.toList ++ committed none rest
  | _, .abort :: rest => committed none rest

/-- The row stands at the greatest value of what was applied to it. -/
def AtGreatest (proj : ρ → β) (applied : List ρ) : Option ρ → Prop
  | none => applied = []
  | some r => IsGreatest {x | ∃ m ∈ applied, proj m = x} (proj r)

theorem AtGreatest.written {proj : ρ → β} (hnone : ∀ m, proj (write none m).1 = proj m)
    (hsome : ∀ r m, proj (write (some r) m).1 = max (proj r) (proj m)) {applied : List ρ}
    {row : Option ρ} (h : AtGreatest proj applied row) (request : ρ) :
    AtGreatest proj (applied ++ [request]) (some (write row request).1) := by
  have hset : {x | ∃ m ∈ applied ++ [request], proj m = x} =
      insert (proj request) {x | ∃ m ∈ applied, proj m = x} := by
    ext x
    simp [or_and_right, exists_or, or_comm, eq_comm]
  change IsGreatest {x | ∃ m ∈ applied ++ [request], proj m = x} _
  rw [hset]
  cases row with
  | none =>
    have happlied : applied = [] := h
    rw [hnone, happlied]
    simp
  | some r =>
    rw [hsome, max_comm]
    exact IsGreatest.insert _ h

/-- Whatever the interleaving, the row joins the requests that were committed, and each of
them was answered. -/
theorem atGreatest_of_run {proj : ρ → β} (hnone : ∀ m, proj (write none m).1 = proj m)
    (hsome : ∀ r m, proj (write (some r) m).1 = max (proj r) (proj m))
    {actions : List (RowAction ρ)} : ∀ {s t : LockedRow ρ α} {held : Option ρ} {applied : List ρ},
      run (step write) s actions = some t → s.pending = held.map (write s.row) →
      AtGreatest proj applied s.row →
        AtGreatest proj (applied ++ committed held actions) t.row ∧
          t.answers.length = s.answers.length + (committed held actions).length := by
  induction actions with
  | nil =>
    rintro s t held applied ⟨⟩ - hrow
    exact ⟨by rwa [committed, append_nil], rfl⟩
  | cons action rest ih =>
    intro s t held applied hrun hheld hrow
    obtain ⟨u, hstep, hrest⟩ := run_cons_eq_some.mp hrun
    cases action with
    | write request =>
      simp only [step] at hstep
      split at hstep
      · cases hstep
      · cases hstep
        obtain ⟨hgreatest, hanswers⟩ := ih hrest (rfl : _ = (some request).map _) hrow
        exact ⟨hgreatest, hanswers⟩
    | abort =>
      cases hstep
      obtain ⟨hgreatest, hanswers⟩ := ih hrest (rfl : _ = none.map _) hrow
      exact ⟨hgreatest, hanswers⟩
    | commit =>
      obtain ⟨done, hdone, rfl⟩ := Option.map_eq_some_iff.mp hstep
      rw [hheld] at hdone
      obtain ⟨request, rfl, rfl⟩ := Option.map_eq_some_iff.mp hdone
      obtain ⟨hgreatest, hanswers⟩ := 
        ih hrest (rfl : _ = none.map _) (AtGreatest.written hnone hsome hrow request)
      refine ⟨by simpa [committed] using hgreatest, ?_⟩
      simp only [length_append, length_singleton] at hanswers
      simp only [committed, Option.toList_some, length_append, length_singleton]
      omega

theorem atGreatest_of_start {proj : ρ → β} (hnone : ∀ m, proj (write none m).1 = proj m)
    (hsome : ∀ r m, proj (write (some r) m).1 = max (proj r) (proj m)) {initial : Option ρ}
    {actions : List (RowAction ρ)} {t : LockedRow ρ α}
    (hrun : run (step write) ⟨initial, none, []⟩ actions = some t) :
    AtGreatest proj (initial.toList ++ committed none actions) t.row ∧
      t.answers.length = (committed none actions).length := by
  have hinitial : AtGreatest proj initial.toList initial := by
    cases initial with
    | none => rfl
    | some r => simp [AtGreatest, IsGreatest, upperBounds]
  simpa using atGreatest_of_run hnone hsome hrun (rfl : _ = none.map _) hinitial

end LockedRow

namespace SimplestChat

/-! ## The two tables -/

/-- Messages are ordered by the time they were sent, then by their ID. -/
abbrev Position := Time ×ₗ MessageId

/-- A message as a cursor names it. -/
structure ReadCursor where
  position : Position
  expiresAt : Time
deriving DecidableEq

structure ReadResult where
  readMessageId : MessageId
  advanced : Bool
deriving DecidableEq

/-- What `mark_read` leaves in the row and answers. -/
def markRead (row : Option ReadCursor) (message : ReadCursor) : ReadCursor × ReadResult :=
  match row with
  | none => (message, ⟨(ofLex message.position).2, true⟩)
  | some cursor =>
    if cursor.position < message.position then
      (⟨message.position, max cursor.expiresAt message.expiresAt⟩,
        ⟨(ofLex message.position).2, true⟩)
    else
      -- The refused upsert has locked the cursor, which is read again.
      (if cursor.expiresAt < message.expiresAt then
          { cursor with expiresAt := message.expiresAt }
        else cursor,
        ⟨(ofLex cursor.position).2, false⟩)

/-- The inbox row of one account and one peer after a message was inserted. -/
def movePointer (row : Option ReadCursor) (message : ReadCursor) : ReadCursor :=
  match row with
  | none => message
  | some pointer => if pointer.position < message.position then message else pointer

theorem markRead_position (cursor message : ReadCursor) :
    (markRead (some cursor) message).1.position = max cursor.position message.position := by
  unfold markRead
  dsimp only
  split
  · exact (max_eq_right_of_lt ‹_›).symm
  · rw [max_eq_left (not_lt.mp ‹_›)]
    split <;> rfl

theorem markRead_expiresAt (cursor message : ReadCursor) :
    (markRead (some cursor) message).1.expiresAt = max cursor.expiresAt message.expiresAt := by
  unfold markRead
  dsimp only
  split
  · rfl
  split
  · exact (max_eq_right_of_lt ‹_›).symm
  · exact (max_eq_left (not_lt.mp ‹_›)).symm

theorem movePointer_position (pointer message : ReadCursor) :
    (movePointer (some pointer) message).position = max pointer.position message.position := by
  unfold movePointer
  dsimp only
  split
  · exact (max_eq_right_of_lt ‹_›).symm
  · exact (max_eq_left (not_lt.mp ‹_›)).symm

/-- The answer names the cursor that the transaction leaves, and reports an advance
exactly if it raised the cursor. -/
theorem markRead_answer (row : Option ReadCursor) (message : ReadCursor) :
    (markRead row message).2.readMessageId = (ofLex (markRead row message).1.position).2 ∧
      ((markRead row message).2.advanced = true ↔
        ∀ cursor ∈ row, cursor.position < (markRead row message).1.position) := by
  unfold markRead
  split
  · exact ⟨rfl, by simp⟩
  split
  · exact ⟨rfl, by simpa using ‹_›⟩
  · split <;> exact ⟨rfl, by simp⟩

/-- An insertion answers nothing about the pointer. -/
def insertPointer (row : Option ReadCursor) (message : ReadCursor) : ReadCursor × Unit :=
  (movePointer row message, ())

open LockedRow in
/-- In every interleaving of transactions, the cursor stands at the greatest position and
the greatest expiry of what was there and what was committed, every committed request is
answered with the cursor at its commit, and an inbox pointer stands at the greatest
position inserted. -/
theorem read_state_joins : (∀ initial actions cursors,
      run (step markRead) ⟨initial, none, []⟩ actions = some cursors →
      AtGreatest ReadCursor.position (initial.toList ++ committed none actions) cursors.row ∧
      AtGreatest ReadCursor.expiresAt (initial.toList ++ committed none actions) cursors.row ∧
      cursors.answers.length = (committed none actions).length ∧
      ∀ request after, run (step markRead) cursors [.write request, .commit] = some after →
        ∃ answer cursor, after.answers = cursors.answers ++ [answer] ∧
          after.row = some cursor ∧ answer.readMessageId = (ofLex cursor.position).2 ∧
          (answer.advanced = true ↔ ∀ old ∈ cursors.row, old.position < cursor.position)) ∧
    ∀ initial actions inbox,
      run (step insertPointer) ⟨initial, none, []⟩ actions = some inbox →
      AtGreatest ReadCursor.position (initial.toList ++ committed none actions) inbox.row := by
  refine ⟨fun initial actions cursors hrun => ?_, fun initial actions inbox hrun => ?_⟩
  · obtain ⟨hposition, hanswers⟩ := atGreatest_of_start (fun _ => rfl) markRead_position hrun
    have hexpiry := (atGreatest_of_start (fun _ => rfl) markRead_expiresAt hrun).1
    refine ⟨hposition, hexpiry, hanswers, fun request after hafter => ?_⟩
    obtain ⟨u, hwrite, hcommit⟩ := run_cons_eq_some.mp hafter
    simp only [step] at hwrite
    split at hwrite
    · cases hwrite
    cases hwrite
    cases hcommit
    exact ⟨_, _, rfl, rfl, markRead_answer cursors.row request⟩
  · exact (atGreatest_of_start (fun _ => rfl) movePointer_position hrun).1

def messageAt (n expiresAt : ℕ) : ReadCursor := ⟨toLex (n, n), expiresAt⟩

/-- The second request names an older message with a later expiry, the third is aborted. -/
def devicesRead : List (RowAction ReadCursor) :=
  [.write (messageAt 5 10), .commit, .write (messageAt 3 20), .commit,
    .write (messageAt 9 30), .abort, .write (messageAt 7 15), .commit]

open LockedRow in
theorem devicesRead_joined : ∃ cursors, (run (step markRead) ⟨none, none, []⟩ devicesRead =
        some cursors ∧ cursors.row = some (messageAt 7 20) ∧
        cursors.answers = [⟨5, true⟩, ⟨5, false⟩, ⟨7, true⟩]) ∧
      AtGreatest ReadCursor.position [messageAt 5 10, messageAt 3 20, messageAt 7 15]
        cursors.row ∧
      AtGreatest ReadCursor.expiresAt [messageAt 5 10, messageAt 3 20, messageAt 7 15]
        cursors.row ∧
      cursors.answers.length = 3 :=
  (exists_of_any (by decide : ((run (step markRead) ⟨none, none, []⟩ devicesRead).any fun cursors =>
    decide (cursors.row = some (messageAt 7 20) ∧
      cursors.answers = [⟨5, true⟩, ⟨5, false⟩, ⟨7, true⟩])) = true)).imp fun cursors h =>
    have hjoins := read_state_joins.1 none devicesRead cursors h.1
    ⟨h, hjoins.1, hjoins.2.1, hjoins.2.2.1⟩

end SimplestChat
