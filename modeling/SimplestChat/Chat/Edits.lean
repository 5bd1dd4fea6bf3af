import SimplestChat.Chat.Copies

/-!
# Repeated edits of one message

A client that lost the answer to an edit sends it again, and a room that keeps no history
applies every edit twice: once to prepare it and once more to publish it.
-/

namespace SimplestChat

variable {now later : Time} {e e' : ChatEntry} {request : EditRequest}

/-- An accepted edit is accepted again, without change. -/
theorem applyEdit_again (h : applyEdit now e request = .ok e') (later : Time) :
    applyEdit later e' request = .ok e' := by
  obtain ⟨heditable, ⟨rfl, hsame⟩ | ⟨hrevision, -, hbound, rfl⟩⟩ := applyEdit_iff.mp h
  · exact applyEdit_iff.mpr ⟨heditable, .inl ⟨rfl, hsame⟩⟩
  · exact applyEdit_iff.mpr ⟨heditable, .inl ⟨rfl, rfl, .inr ⟨by rw [hrevision], hbound⟩⟩⟩

/-! ## Sequences of edits -/

/-- A message, the last request it accepted and how many have changed it. -/
structure EditRun where
  message : ChatEntry
  last : Option EditRequest
  changes : ℕ

namespace EditRun

/-- A refused request leaves the message alone. -/
def step (r : EditRun) (attempt : Time × EditRequest) : EditRun :=
  match applyEdit attempt.1 r.message attempt.2 with
  | .error _ => r
  | .ok edited =>
    ⟨edited, some attempt.2, if edited = r.message then r.changes else r.changes + 1⟩

def run (message : ChatEntry) (attempts : List (Time × EditRequest)) : EditRun :=
  attempts.foldl step ⟨message, none, 0⟩

/-- What holds of a message after any attempts to edit it. -/
structure Contract (first : ChatEntry) (r : EditRun) : Prop where
  frame : r.message = { first with
    content := r.message.content
    revision := first.revision + r.changes
    editedAt := r.message.editedAt }
  bounded : first.revision < 2 ^ 32 → r.message.revision < 2 ^ 32
  removed : first.removedAt.isSome = true → r.message = first
  /-- the last accepted request may be repeated -/
  retried : ∀ request ∈ r.last, ∀ now, applyEdit now r.message request = .ok r.message
  /-- an accepted request leaves its text, and only the current revision can be changed,
  which moves by one -/
  expected : ∀ now request edited, applyEdit now r.message request = .ok edited →
    edited.content = request.content ∧ (edited = r.message ∨
      request.expectedRevision = r.message.revision ∧ edited.revision = r.message.revision + 1)
  /-- applying a request twice is applying it once -/
  idempotent : ∀ now later request edited, applyEdit now r.message request = .ok edited →
    applyEdit later edited request = .ok edited

theorem expected_revision (h : applyEdit now e request = .ok e') :
    e'.content = request.content ∧
      (e' = e ∨ request.expectedRevision = e.revision ∧ e'.revision = e.revision + 1) := by
  obtain ⟨-, ⟨rfl, hcontent, -⟩ | ⟨hrevision, -, -, rfl⟩⟩ := applyEdit_iff.mp h
  · exact ⟨hcontent, .inl rfl⟩
  · exact ⟨rfl, .inr ⟨hrevision.symm, rfl⟩⟩

theorem Contract.step {first : ChatEntry} {r : EditRun} (h : Contract first r)
    (attempt : Time × EditRequest) : Contract first (r.step attempt) := by
  unfold EditRun.step
  split
  · exact h
  rename_i edited hedit
  have hagain := applyEdit_again hedit
  obtain ⟨heditable, ⟨rfl, -⟩ | ⟨hrevision, hcontent, hbound, hchanged⟩⟩ := applyEdit_iff.mp hedit
  · rw [if_pos rfl]
    exact { h with retried := fun request hlast now => by cases hlast; exact hagain now }
  have hne : edited ≠ r.message := fun heq => by
    rw [← heq, hchanged] at hcontent
    exact hcontent rfl
  rw [if_neg hne]
  refine
    { frame := ?_
      bounded := fun _ => by rw [hchanged]; exact hbound
      removed := fun hremoved => ?_
      retried := fun request hlast now => by cases hlast; exact hagain now
      expected := fun _ _ _ => expected_revision
      idempotent := fun _ later _ _ haccepted => applyEdit_again haccepted later }
  · dsimp only
    rw [hchanged, h.frame]
    rfl
  · have := heditable.2.2
    rw [h.removed hremoved] at this
    exact absurd hremoved this

/-- Any sequence of edits, and the two applications of a room without history. -/
theorem edits_contract (message : ChatEntry) (attempts : List (Time × EditRequest)) :
    Contract message (run message attempts) ∧ ∀ (room : ChatRoom) actor id request now edited later,
        room.prepareEdit actor id request now = .ok (some edited) →
          applyEdit later edited request = .ok edited := by
  refine ⟨?_, fun room actor id request now edited later h => ?_⟩
  · have hfirst : Contract message ⟨message, none, 0⟩ :=
      ⟨rfl, id, fun _ => rfl, nofun, fun _ _ _ => expected_revision,
        fun _ later _ _ haccepted => applyEdit_again haccepted later⟩
    unfold run
    generalize (⟨message, none, 0⟩ : EditRun) = r at hfirst ⊢
    induction attempts generalizing r with
    | nil => exact hfirst
    | cons attempt rest ih => exact ih _ (hfirst.step attempt)
  · unfold ChatRoom.prepareEdit at h
    split at h
    · cases h
    split at h
    · cases h
    split at h
    · cases h
    split at h
    · cases h
    split at h
    · cases h
    · cases h
      exact applyEdit_again ‹_› later

end EditRun

end SimplestChat
