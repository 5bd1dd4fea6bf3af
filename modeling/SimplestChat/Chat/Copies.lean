import SimplestChat.Chat.System

/-!
# What holds of every copy of an entry

Copies of entries lie in the room's memory, in the saved rows, in requests that
wait for the database, and in scheduled completions. This file has the one
induction over all of them: a property of single entries that the elementary
changes respect (`EntryLaw`) is kept by every operation of the chat, and every
frame carries only entries with that property.
-/

namespace SimplestChat

open List Transaction Transaction.Tx BoundedQueue

variable {P : ChatEntry → Prop}

/-! ## Elementary changes -/

structure ChangeLaw (P : ChatEntry → Prop) : Prop where
  setReactions : ∀ e reactions, P e → P { e with reactions }
  setAccount : ∀ e accountConversation, P e → P { e with accountConversation }
  attach : ∀ e attachments, P e → e.removedAt = none → P { e with attachments }
  edit : ∀ e content revision editedAt, P e → e.removedAt = none →
    P { e with content, revision, editedAt }
  requote : ∀ e original, P e → P original → original.removedAt = none →
    P (e.requote original.messageId (Text.quoteExcerpt original.content))
  erase : ∀ e removedAt, P e → e.recipientId = none → P (e.erase removedAt)
  unquote : ∀ e id, P e → P (e.requote id removedExcerpt)

/-- The property also ties the two ends of a message to its ID. -/
structure EntryLaw (P : ChatEntry → Prop) : Prop extends ChangeLaw P where
  same : ∀ e e', P e → P e' → e.messageId = e'.messageId →
    e.participantId = e'.participantId ∧ e.recipientId = e'.recipientId

theorem EntryLaw.and {Q : ChatEntry → Prop} (hP : EntryLaw P)
    (hQ : ChangeLaw Q) : EntryLaw fun e => P e ∧ Q e where
  setReactions e reactions h := ⟨hP.setReactions e reactions h.1, hQ.setReactions e reactions h.2⟩
  setAccount e account h := ⟨hP.setAccount e account h.1, hQ.setAccount e account h.2⟩
  attach e files h hlive := ⟨hP.attach e files h.1 hlive, hQ.attach e files h.2 hlive⟩
  edit e content revision editedAt h hlive :=
    ⟨hP.edit e content revision editedAt h.1 hlive, hQ.edit e content revision editedAt h.2 hlive⟩
  requote e original h horiginal hlive :=
    ⟨hP.requote e original h.1 horiginal.1 hlive, hQ.requote e original h.2 horiginal.2 hlive⟩
  erase e removedAt h hpublic :=
    ⟨hP.erase e removedAt h.1 hpublic, hQ.erase e removedAt h.2 hpublic⟩
  unquote e id h := ⟨hP.unquote e id h.1, hQ.unquote e id h.2⟩
  same e e' h h' hid := hP.same e e' h.1 h'.1 hid

/-- The two ends of a message: its author and, if it is private, its
recipient. -/
abbrev Ends := ParticipantId × Option ParticipantId

/-- An entry as it is composed: with a fresh ID, not removed, and quoting an
entry of the same kind of conversation. -/
structure Composed (P : ChatEntry → Prop) (fresh : MessageId) (ends : Ends)
    (e : ChatEntry) : Prop where
  messageId : e.messageId = fresh
  participantId : e.participantId = ends.1
  recipientId : e.recipientId = ends.2
  removedAt : e.removedAt = none
  quotes : ∀ reply, e.replyTo = some reply → ∃ original, P original ∧ original.removedAt = none ∧
    original.recipientId.isSome = e.recipientId.isSome ∧
    reply.messageId = original.messageId ∧
    reply.excerpt = Text.quoteExcerpt original.content

theorem Composed.mono {Q : ChatEntry → Prop} {fresh : MessageId} {ends : Ends}
    {e : ChatEntry} (h : Composed P fresh ends e) (himp : ∀ e, P e → Q e) :
    Composed Q fresh ends e where
  messageId := h.messageId
  participantId := h.participantId
  recipientId := h.recipientId
  removedAt := h.removedAt
  quotes reply hreply := by
    obtain ⟨original, horiginal, hrest⟩ := h.quotes reply hreply
    exact ⟨original, himp original horiginal, hrest⟩

/-- The checks that come before the revision is looked at. -/
def Editable (e : ChatEntry) (request : EditRequest) : Prop :=
  ¬((Text.isBlank request.content && e.attachments.isEmpty) ||
      4096 < Text.byteLength request.content) = true ∧
    ¬(!Text.isPlainText request.content) = true ∧ ¬e.removedAt.isSome = true

/-- An accepted edit finds its text in place, at the revision it expects or at the next
one, or it puts the text there. -/
theorem applyEdit_iff {now : Time} {e e' : ChatEntry} {request : EditRequest} :
    applyEdit now e request = .ok e' ↔ Editable e request ∧ (e' = e ∧ e.content = request.content ∧
            (e.revision = request.expectedRevision ∨
              request.expectedRevision + 1 = e.revision ∧ e.revision < 2 ^ 32) ∨
          e.revision = request.expectedRevision ∧ e.content ≠ request.content ∧
            e.revision + 1 < 2 ^ 32 ∧
            e' = { e with
              revision := e.revision + 1
              content := request.content
              editedAt := some now }) := by
  unfold applyEdit Editable
  split_ifs <;> grind

theorem applyEdit_eq_ok {now : Time} {e e' : ChatEntry} {request : EditRequest}
    (h : applyEdit now e request = .ok e') :
    e.removedAt = none ∧ (e' = e ∨ ∃ content revision editedAt,
        e' = { e with content, revision, editedAt }) := by
  obtain ⟨heditable, hresult⟩ := applyEdit_iff.mp h
  refine ⟨by simpa using heditable.2.2, ?_⟩
  rcases hresult with ⟨hsame, -⟩ | ⟨-, -, -, hchanged⟩
  · exact .inl hsame
  · exact .inr ⟨_, _, _, hchanged⟩

theorem editEntry_removedAt (edited e : ChatEntry) :
    (editEntry edited e).removedAt = e.removedAt := by
  unfold editEntry
  split
  · rfl
  · simp only [ChatEntry.requote]
    split <;> rfl

theorem editEntry_messageId (edited e : ChatEntry) :
    (editEntry edited e).messageId = e.messageId := by
  unfold editEntry
  split
  · rfl
  · simp only [ChatEntry.requote]
    split <;> rfl

theorem applyEdit_removedAt {now : Time} {e e' : ChatEntry}
    {request : EditRequest} (h : applyEdit now e request = .ok e') :
    e'.removedAt = none := by
  obtain ⟨hremoved, rfl | ⟨content, revision, editedAt, rfl⟩⟩ := applyEdit_eq_ok h
  · exact hremoved
  · exact hremoved

namespace ChangeLaw

variable (law : ChangeLaw P)
include law

theorem applyEdit {now : Time} {e e' : ChatEntry} {request : EditRequest}
    (he : P e) (h : SimplestChat.applyEdit now e request = .ok e') : P e' := by
  obtain ⟨hremoved, rfl | ⟨content, revision, editedAt, rfl⟩⟩ := applyEdit_eq_ok h
  · exact he
  · exact law.edit e content revision editedAt he hremoved

theorem conversationMessage {e : ChatEntry} (conversation : Conversation)
    (he : P e) : P (SimplestChat.conversationMessage conversation e) :=
  law.setAccount e _ he

end ChangeLaw

namespace EntryLaw

variable (law : EntryLaw P)
include law

theorem editEntry {edited e : ChatEntry} (hedited : P edited)
    (hremoved : edited.removedAt = none) (he : P e) :
    P (SimplestChat.editEntry edited e) := by
  unfold SimplestChat.editEntry
  split
  · exact he
  rename_i hlive
  refine law.requote _ edited ?_ hedited hremoved
  split
  · exact law.edit e _ _ _ he (by simpa using hlive)
  · exact he

theorem redactMessage {e : ChatEntry} (id : MessageId) (removedAt : Time)
    (he : P e) : P (SimplestChat.redactMessage id removedAt e) := by
  unfold SimplestChat.redactMessage
  split
  · exact he
  rename_i hpublic
  split
  · exact law.erase e removedAt he (by simpa using hpublic)
  · exact law.unquote e id he

theorem refreshReply {e : ChatEntry} {original : Option ChatEntry} (he : P e)
    (horiginal : ∀ o ∈ original, P o) :
    P (SimplestChat.refreshReply original e) := by
  cases original with
  | none => exact he
  | some o =>
    simp only [SimplestChat.refreshReply]
    by_cases hremoved : o.removedAt.isSome
    · rw [if_pos hremoved]
      exact law.unquote e _ he
    · rw [if_neg hremoved]
      exact law.requote e o he (horiginal o rfl) (by simpa using hremoved)

end EntryLaw

/-! ## The room's memory -/

structure RoomSocial.All (P : ChatEntry → Prop) (s : RoomSocial) : Prop where
  history : ∀ entry ∈ s.history, P entry.message
  receipts : ∀ entry ∈ s.receipts, P entry.message
  pins : ∀ pin ∈ s.pins, P pin

namespace RoomSocial

variable {s : RoomSocial} {size : ChatEntry → ℕ}

theorem All.mono {Q : ChatEntry → Prop} (h : s.All P) (himp : ∀ e, P e → Q e) : s.All Q where
  history entry hentry := himp _ (h.history entry hentry)
  receipts entry hentry := himp _ (h.receipts entry hentry)
  pins pin hpin := himp _ (h.pins pin hpin)

theorem all_iff_entries : s.All P ↔ ∀ e ∈ s.entries, P e := by
  constructor
  · intro h e he
    rcases mem_append.mp he with hhistory | hrest
    · obtain ⟨entry, hentry, rfl⟩ := List.mem_map.mp hhistory
      exact h.history entry hentry
    rcases mem_append.mp hrest with hreceipt | hpin
    · obtain ⟨entry, hentry, rfl⟩ := List.mem_map.mp hreceipt
      exact h.receipts entry hentry
    · exact h.pins e hpin
  · intro h
    refine ⟨fun entry hentry => h _ ?_, fun entry hentry => h _ ?_, fun pin hpin => h _ ?_⟩
    · exact mem_append_left _ (mem_map_of_mem hentry)
    · exact mem_append_right _ (mem_append_left _ (mem_map_of_mem hentry))
    · exact mem_append_right _ (mem_append_right _ hpin)

theorem all_empty : RoomSocial.empty.All P := by constructor <;> intro entry h <;> cases h

/-! ### What is dropped -/

theorem trimHistory_history_suffix (s : RoomSocial) : s.trimHistory.history <:+ s.history :=
  popWhile_suffix _ _ _ _

theorem trimReceipts_receipts_suffix (s : RoomSocial) : s.trimReceipts.receipts <:+ s.receipts :=
  popWhile_suffix _ _ _ _

theorem pruneReceipts_receipts_suffix (now : Time) (s : RoomSocial) :
    (s.pruneReceipts now).receipts <:+ s.receipts :=
  popWhile_suffix _ _ _ _

theorem dropMemberReceipts_sublist (session : SessionId) (excess : ℕ)
    (receipts : List ChatReceipt) (bytes : ℕ) :
    (dropMemberReceipts session excess receipts bytes).1.Sublist receipts := by
  induction receipts generalizing excess bytes with
  | nil => cases excess <;> exact List.Sublist.refl _
  | cons entry rest ih =>
    cases excess with
    | zero => exact List.Sublist.refl _
    | succ excess =>
      unfold dropMemberReceipts
      split
      · exact (ih excess _).cons entry
      · exact (ih (excess + 1) _).cons_cons entry

section

variable (session : SessionId) (bytes : ℕ)
include session bytes

theorem makeReceiptRoom_receipts_subset (s : RoomSocial) :
    (s.makeReceiptRoom session bytes).receipts ⊆ s.receipts := by
  intro entry hentry
  simp only [makeReceiptRoom] at hentry
  have hfair := (popWhile_suffix _ _ _ _).subset hentry
  exact (dropMemberReceipts_sublist _ _ _ _).subset hfair

@[simp] theorem makeReceiptRoom_history (s : RoomSocial) :
    (s.makeReceiptRoom session bytes).history = s.history := by
  simp only [makeReceiptRoom]

@[simp] theorem makeReceiptRoom_pins (s : RoomSocial) :
    (s.makeReceiptRoom session bytes).pins = s.pins := by
  simp only [makeReceiptRoom]

theorem All.makeReceiptRoom (h : s.All P) : (s.makeReceiptRoom session bytes).All P where
  history := by
    rw [makeReceiptRoom_history]
    exact h.history
  receipts entry hentry := h.receipts entry (s.makeReceiptRoom_receipts_subset session bytes hentry)
  pins := by
    rw [makeReceiptRoom_pins]
    exact h.pins

end

theorem All.trimHistory (h : s.All P) : s.trimHistory.All P where
  history entry hentry := h.history entry (s.trimHistory_history_suffix.subset hentry)
  receipts := h.receipts
  pins := h.pins

theorem All.trimReceipts (h : s.All P) : s.trimReceipts.All P where
  history := h.history
  receipts entry hentry := h.receipts entry (s.trimReceipts_receipts_suffix.subset hentry)
  pins := h.pins

theorem All.pruneReceipts (now : Time) (h : s.All P) : (s.pruneReceipts now).All P where
  history := h.history
  receipts entry hentry := h.receipts entry ((s.pruneReceipts_receipts_suffix now).subset hentry)
  pins := h.pins

/-! ### What is changed -/

theorem All.setPins {pins : List ChatEntry} (h : s.All P)
    (hpins : ∀ pin ∈ pins, P pin) : ({ s with pins } : RoomSocial).All P :=
  ⟨h.history, h.receipts, hpins⟩

theorem All.rewrite {f : ChatEntry → ChatEntry} (hf : ∀ e, P e → P (f e))
    (h : s.All P) : (s.rewrite size f).All P where
  history entry hentry := by
    obtain ⟨old, hold, rfl⟩ := List.mem_map.mp hentry
    exact hf _ (h.history old hold)
  receipts entry hentry := by
    obtain ⟨old, hold, rfl⟩ := List.mem_map.mp hentry
    exact hf _ (h.receipts old hold)
  pins := h.pins

theorem All.removeMessage_of {id : MessageId} {removedAt : Time}
    (hredact : ∀ e, P e → P (redactMessage id removedAt e)) (h : s.All P) :
    (s.removeMessage size id removedAt).All P := by
  have hunpinned : ({ s with
      pins := s.pins.filter fun pin => pin.messageId ≠ id } : RoomSocial).All P :=
    h.setPins fun pin hpin => h.pins pin (mem_of_mem_filter hpin)
  exact (hunpinned.rewrite hredact).trimHistory.trimReceipts

theorem All.removeMessage (law : EntryLaw P) (id : MessageId) (removedAt : Time)
    (h : s.All P) : (s.removeMessage size id removedAt).All P :=
  h.removeMessage_of fun _ he => law.redactMessage id removedAt he

theorem All.editMessage (law : EntryLaw P) {edited : ChatEntry}
    (hedited : P edited) (hremoved : edited.removedAt = none) (h : s.All P) :
    (s.editMessage size edited).All P := by
  unfold RoomSocial.editMessage
  split
  · exact h
  have hchange : ∀ e, P e → P (editEntry edited e) := fun e he => law.editEntry hedited hremoved he
  have hrepinned : ({ s with
      pins := s.pins.map (editEntry edited) } : RoomSocial).All P := by
    refine h.setPins fun pin hpin => ?_
    obtain ⟨old, hold, rfl⟩ := List.mem_map.mp hpin
    exact hchange old (h.pins old hold)
  exact (hrepinned.rewrite hchange).trimHistory.trimReceipts

theorem mem_replaceF {α : Type*} {test : α → Bool} {g : α → α} {l : List α}
    {x : α} (h : x ∈ l.replaceF fun y => if test y then some (g y) else none) :
    x ∈ l ∨ ∃ y ∈ l, test y ∧ x = g y := by
  induction l with
  | nil => exact .inl h
  | cons y rest ih =>
    rw [replaceF_cons] at h
    by_cases htest : test y
    · rw [if_pos htest] at h
      rcases mem_cons.mp h with rfl | hrest
      · exact .inr ⟨y, mem_cons_self, htest, rfl⟩
      · exact .inl (mem_cons_of_mem _ hrest)
    rw [if_neg htest] at h
    rcases mem_cons.mp h with rfl | hrest
    · exact .inl mem_cons_self
    rcases ih hrest with hmem | ⟨z, hz, hrest⟩
    · exact .inl (mem_cons_of_mem _ hmem)
    · exact .inr ⟨z, mem_cons_of_mem _ hz, hrest⟩

theorem All.changeFirst {test : HistoryEntry → Bool} {f : ChatEntry → ChatEntry}
    (hf : ∀ e, P e → P (f e)) (h : s.All P) :
    (s.changeFirst size test f).All P := by
  unfold RoomSocial.changeFirst
  split
  · exact h
  refine All.trimHistory ⟨fun entry hentry => ?_, h.receipts, h.pins⟩
  rcases mem_replaceF hentry with hold | ⟨old, hold, _, rfl⟩
  · exact h.history entry hold
  · exact hf _ (h.history old hold)

theorem All.setReactions (law : EntryLaw P) (id : MessageId)
    (reactions : List ChatReaction) (h : s.All P) :
    (s.setReactions size id reactions).All P :=
  h.changeFirst fun e he => law.setReactions e reactions he

theorem All.reconcileReactions (law : EntryLaw P) (message : ChatEntry)
    (h : s.All P) : (s.reconcileReactions size message).All P :=
  h.changeFirst fun e he => law.setReactions e message.reactions he

theorem All.setPinReactions (law : EntryLaw P) (message : ChatEntry)
    (h : s.All P) : (s.setPinReactions message).All P := by
  refine h.setPins fun pin hpin => ?_
  obtain ⟨old, hold, rfl⟩ := List.mem_map.mp hpin
  split
  · exact law.setReactions old _ (h.pins old hold)
  · exact h.pins old hold

theorem All.pushReceipt {receipt : ChatReceipt} (hreceipt : P receipt.message)
    (h : s.All P) : (s.pushReceipt receipt).All P where
  history := h.history
  receipts entry hentry := by
    rcases mem_append.mp hentry with hold | hnew
    · exact h.receipts entry hold
    · rw [mem_singleton.mp hnew]
      exact hreceipt
  pins := h.pins

theorem All.remember {message : ChatEntry} {sender : SessionId}
    {recipient : Option SessionId} {authenticated : Bool} (hmessage : P message)
    (h : s.All P) :
    (s.remember size sender recipient authenticated message).All P := by
  refine All.trimHistory ⟨fun entry hentry => ?_, h.receipts, h.pins⟩
  rcases mem_append.mp hentry with hold | hnew
  · exact h.history entry hold
  · rw [mem_singleton.mp hnew]
    exact hmessage

theorem All.keepMessage {chat : PreparedChat} (hmessage : P chat.message)
    (h : s.All P) : (ChatRoom.keepMessage size chat s).All P :=
  ((h.makeReceiptRoom _ _).pushReceipt hmessage).remember hmessage

end RoomSocial

end SimplestChat
