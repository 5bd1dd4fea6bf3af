import SimplestChat.Chat.SavedCopies
import SimplestChat.Chat.Turns

/-!
# Every copy, over whole runs

Each turn of a request keeps a lawful property of entries in the memory, hands
only such entries to the database and queues only frames that carry such
entries. `ChatSystem.Sound.step` puts the turns, the database work and the
completions together.

`R` restricts the messages whose removal may be answered, so that the same
lemmas also say which steps complete a removal.
-/

namespace SimplestChat

open List Option Transaction Transaction.Tx

variable {P : ChatEntry → Prop} {R : MessageId → Prop}

/-! ## Frames -/

def SocialResponse.Holds (P : ChatEntry → Prop) (R : MessageId → Prop) : SocialResponse → Prop
  | roomSnapshot messages | getPinnedMessages messages
  | setPinnedMessage messages => ∀ e ∈ messages, P e
  | editChatMessage message => P message
  | removeChatMessage id _ => R id
  | reactToMessage _ _ | setRoomHistory _ => True

def ServerMessage.Holds (P : ChatEntry → Prop) (R : MessageId → Prop)
    (message : ServerMessage) : Prop :=
  match message with
  | .chatReceived .. => ∃ e, P e ∧ message = e.received
  | .privateMessageReceived e | .messageAck _ e | .chatMessageEdited e => P e
  | .pinnedMessagesChanged pins => ∀ e ∈ pins, P e
  | .socialResponse response => response.Holds P R
  | .messageRetryResult .. | .messageReactions .. | .chatMessageRemoved ..
  | .roomSettingsChanged _ | .socialError _ => True

theorem ChatEntry.received_holds {e : ChatEntry} (he : P e) : e.received.Holds P R := ⟨e, he, rfl⟩

def FramesHold (P : ChatEntry → Prop) (R : MessageId → Prop) (frames : List Frame) : Prop :=
  ∀ frame ∈ frames, frame.message.Holds P R

theorem ServerMessage.Holds.mono {Q : ChatEntry → Prop} {message : ServerMessage}
    (h : message.Holds P R) (himp : ∀ e, P e → Q e) :
    message.Holds Q fun _ => True := by
  cases message with
  | chatReceived =>
    obtain ⟨e, he, heq⟩ := h
    exact ⟨e, himp e he, heq⟩
  | privateMessageReceived e => exact himp e h
  | messageAck _ e => exact himp e h
  | chatMessageEdited e => exact himp e h
  | pinnedMessagesChanged => exact fun e he => himp e (h e he)
  | socialResponse response =>
    cases response with
    | editChatMessage e => exact himp e h
    | roomSnapshot | getPinnedMessages | setPinnedMessage => exact fun e he => himp e (h e he)
    | _ => trivial
  | _ => trivial

theorem FramesHold.mono {Q : ChatEntry → Prop} {frames : List Frame}
    (h : FramesHold P R frames) (himp : ∀ e, P e → Q e) :
    FramesHold Q (fun _ => True) frames :=
  fun frame hframe => (h frame hframe).mono himp

theorem framesHold_nil : FramesHold P R [] := by
  intro frame h
  cases h

theorem FramesHold.append {fs gs : List Frame} (hf : FramesHold P R fs)
    (hg : FramesHold P R gs) : FramesHold P R (fs ++ gs) := by
  intro frame h
  rcases mem_append.mp h with h | h
  · exact hf frame h
  · exact hg frame h

theorem framesHold_singleton {frame : Frame} (h : frame.message.Holds P R) :
    FramesHold P R [frame] := by
  intro other hother
  rw [mem_singleton.mp hother]
  exact h

namespace ChatRoom

variable {room : ChatRoom}

theorem broadcast_holds (test : Member → Bool) {message : ServerMessage}
    (h : message.Holds P R) : FramesHold P R (room.broadcast test message) := by
  intro frame hframe
  obtain ⟨member, -, rfl⟩ := List.mem_map.mp hframe
  exact h

theorem publishPins_holds (hroom : room.social.All P) : FramesHold P R room.publishPins := by
  intro frame hframe
  obtain ⟨viewer, -, rfl⟩ := List.mem_map.mp hframe
  exact fun pin hpin => hroom.pins pin (mem_of_mem_filter hpin)

theorem participantForSender_eq_ok {requester : Requester} {member : Member}
    (h : room.participantForSender requester = .ok member) :
    room.deleting = false ∧ member ∈ room.participants ∧
      member.id = requester.participant ∧ member.sender = requester.sender := by
  unfold participantForSender at h
  split at h
  · cases h
  rename_i hlive
  split at h
  · cases h
  rename_i hfound
  split at h
  · rename_i hsender
    cases h
    have hid := List.find?_some hfound
    simp only [decide_eq_true_eq] at hid
    exact ⟨by simpa using hlive, List.mem_of_find?_eq_some hfound, hid, hsender⟩
  · cases h

end ChatRoom

/-! ## Turns -/

structure Turn.Sound (P : ChatEntry → Prop) (R : MessageId → Prop)
    (turn : Turn) : Prop where
  social : turn.room.social.All P
  frames : FramesHold P R turn.frames
  next : ∀ w ∈ turn.next, w.Sound P
  edited : ∀ e ∈ turn.edited, EditAnswer P e

namespace Turn

variable {room : ChatRoom} {requester : Requester}

section

variable (hroom : room.social.All P)
include hroom

theorem fail_sound (failure : SocialFailure) : (fail room requester failure).Sound P R where
  social := hroom
  frames := framesHold_singleton trivial
  next _ h := by cases h
  edited _ h := by cases h

theorem respond_sound {published : List Frame} {response : SocialResponse}
    (hpublished : FramesHold P R published) (hresponse : response.Holds P R) :
    (respond room requester published response).Sound P R where
  social := hroom
  frames := hpublished.append (framesHold_singleton hresponse)
  next _ h := by cases h
  edited _ h := by cases h

theorem wait_sound {next : Waiting} (hnext : next.Sound P) :
    ({ room, next := some next } : Turn).Sound P R where
  social := hroom
  frames := framesHold_nil
  next w h := by
    cases h
    exact hnext
  edited _ h := by cases h

theorem await_sound (pool : Bool) (missing : String) {next : Waiting}
    (hnext : next.Sound P) : (await room requester pool missing next).Sound P R := by
  unfold await
  split
  · exact wait_sound hroom hnext
  · exact fail_sound hroom _

end

end Turn

/-! ### Sending -/

def Preparation.Sound (P : ChatEntry → Prop) (R : MessageId → Prop) : Preparation → Prop
  | answered message => message.Holds P R
  | prepared chat => P chat.message ∧ chat.message.removedAt = none

/-- Every successful outcome satisfies `Q`. -/
def OnSuccess {α : Type} (x : Except SocialFailure α) (Q : α → Prop) : Prop :=
  ∀ a, x = .ok a → Q a

theorem sameConversation_kind {message : ChatEntry} {sender : ParticipantId}
    {recipientId : Option ParticipantId}
    (h : sameConversation message sender recipientId) :
    message.recipientId.isSome = recipientId.isSome := by
  unfold sameConversation at h
  cases recipientId with
  | none => simpa using h
  | some =>
    cases hother : message.recipientId with
    | none => simp [hother] at h
    | some => rfl

def QuoteOf (P : ChatEntry → Prop) (isPrivate : Bool) (reply : ChatReplyRef) : Prop :=
  ∃ original, P original ∧ original.removedAt = none ∧ original.recipientId.isSome = isPrivate ∧
    reply.messageId = original.messageId ∧
    reply.excerpt = Text.quoteExcerpt original.content

theorem replyReference_quotes {message : ChatEntry} {sender : Member}
    {recipientId : Option ParticipantId} (hmessage : P message) :
    OnSuccess (replyReference message sender recipientId)
      (QuoteOf P recipientId.isSome) := by
  intro reply h
  unfold replyReference at h
  split at h
  · cases h
  rename_i hlive
  split at h
  · rename_i hsame
    cases h
    exact ⟨message, hmessage, by simpa using hlive, sameConversation_kind hsame, rfl, rfl⟩
  · cases h

namespace ChatRoom

variable {room : ChatRoom} {size : ChatEntry → ℕ} {requester : Requester}
  {sender : Member} {attempt : ChatAttempt} {saved : Option ChatEntry}
  {fresh : MessageId} {around : Surroundings} {pool : Bool}

section

variable (hroom : room.social.All P)
include hroom

theorem resolveReply_quotes (hsaved : ∀ e ∈ saved, P e)
    {recipientId : Option ParticipantId} {replyTo : Option MessageId} :
    OnSuccess (room.resolveReply sender recipientId saved replyTo)
      fun quoted => ∀ reply ∈ quoted, QuoteOf P recipientId.isSome reply := by
  intro quoted h
  unfold resolveReply at h
  split at h
  · cases h
    simp
  split at h
  · rename_i reply hquote
    cases h
    rintro _ ⟨⟩
    unfold quoteReply at hquote
    split at hquote
    · cases hquote
    rename_i original hfound
    have hmem := mem_reverse.mp (List.mem_of_find?_eq_some hfound)
    exact replyReference_quotes (hroom.history _ hmem) _ hquote
  · split at h
    · cases h
    rename_i horiginal
    obtain ⟨hmem, hpublic⟩ := mem_filter_iff.mp horiginal
    simp only [Bool.and_eq_true] at hpublic
    split at h
    · rename_i hquote
      cases h
      rintro _ ⟨⟩
      unfold savedPublicReply at hquote
      split at hquote
      · cases hquote
      · rw [isNone_iff_eq_none.mp hpublic.1]
        exact replyReference_quotes (hsaved _ hmem) _ hquote
    · cases h

theorem preparesTo_sound (hsaved : ∀ e ∈ saved, P e)
    (hnew : ∀ e, Composed P fresh (sender.id, attempt.recipientId) e → P e) {now : Time}
    {preparation : Preparation}
    (h : room.PreparesTo size sender attempt saved fresh now preparation) :
    preparation.Sound P R := by
  cases h with
  | unknown => trivial
  | receipt receipt hreceipt => exact hroom.receipts receipt hreceipt
  | retained entry hentry => exact hroom.history entry hentry
  | prepared recipient replyTo hrecipient hreply =>
    refine ⟨hnew _ ⟨rfl, rfl, rfl, rfl, fun reply h => ?_⟩, rfl⟩
    exact resolveReply_quotes hroom hsaved replyTo hreply reply h

theorem finishTurn_sound {chat : PreparedChat} (hchat : P chat.message) :
    (room.finishTurn size requester around chat).Sound P R := by
  unfold finishTurn
  split
  · exact Turn.fail_sound hroom _
  rename_i hfinish
  unfold finishChatAttempt at hfinish
  split at hfinish
  · cases hfinish
  cases hfinish
  refine ⟨?_, ?_, (fun _ h => by cases h), (fun _ h => by cases h)⟩
  · unfold advanceHighWater
    split <;> exact hroom.keepMessage hchat
  refine FramesHold.append ?_ (framesHold_singleton hchat)
  unfold delivery
  split
  · split
    · exact framesHold_singleton hchat
    · exact framesHold_nil
  · exact broadcast_holds _ (ChatEntry.received_holds hchat)

theorem attemptTurn_sound (hsaved : ∀ e ∈ saved, P e)
    (hnew : ∀ e, Composed P fresh (requester.participant, attempt.recipientId) e → P e)
    {proceed : ChatRoom → PreparedChat → Turn}
    (hproceed : ∀ room' chat, room'.social.All P → P chat.message →
      chat.message.removedAt = none → (proceed room' chat).Sound P R) :
    (room.attemptTurn size requester around attempt saved fresh proceed).Sound
      P R := by
  have hpruned : (room.pruned around.now).social.All P := hroom.pruneReceipts around.now
  have hprepare : ∀ room' preparation,
      room.prepareChatAttempt size requester attempt saved fresh around = (room', .ok preparation) →
      room' = room.pruned around.now ∧ preparation.Sound P R := by
    intro room' preparation heq
    obtain ⟨rfl, sender, hsender, hprepares⟩ := prepareChatAttempt_eq_ok heq
    rw [← (participantForSender_eq_ok hsender).2.2.1] at hnew
    exact ⟨rfl, preparesTo_sound hpruned hsaved hnew hprepares⟩
  unfold attemptTurn
  split
  · rename_i room' failure heq
    rcases prepareChatAttempt_eq_error heq with rfl | rfl
    · exact Turn.fail_sound hroom _
    · exact Turn.fail_sound hpruned _
  · rename_i room' message heq
    obtain ⟨rfl, hmessage⟩ := hprepare _ _ heq
    exact ⟨hpruned, framesHold_singleton hmessage, (fun _ h => by cases h), (fun _ h => by cases h)⟩
  · rename_i chat heq
    obtain ⟨rfl, hmessage, hlive⟩ := hprepare _ _ heq
    exact hproceed _ chat hpruned hmessage hlive

theorem immediateTurn_sound
    (hnew : ∀ e, Composed P fresh (requester.participant, attempt.recipientId) e → P e) :
    (room.immediateTurn size requester around attempt fresh).Sound P R :=
  attemptTurn_sound hroom (by simp) hnew fun _ _ hroom' hchat _ =>
    finishTurn_sound hroom' hchat

theorem controlledTurn_sound (hsaved : ∀ e ∈ saved, P e)
    (hnew : ∀ e, Composed P fresh (requester.participant, attempt.recipientId) e → P e) :
    (room.controlledTurn size requester pool around attempt saved fresh).Sound
      P R := by
  refine attemptTurn_sound hroom hsaved hnew fun room' chat hroom' hchat hlive => ?_
  unfold preparedTurn
  split
  · exact Turn.await_sound hroom' _ _ ⟨hchat, hlive⟩
  split
  · exact Turn.await_sound hroom' _ _ ⟨hchat, hlive⟩
  · exact finishTurn_sound hroom' hchat

theorem submitTurn_sound
    (hnew : ∀ e, Composed P fresh (requester.participant, attempt.recipientId) e → P e) :
    (room.submitTurn size requester pool around attempt fresh).Sound P R := by
  unfold submitTurn
  split
  · exact controlledTurn_sound hroom (by simp) hnew
  rename_i hid
  obtain ⟨-, hpublic⟩ := mem_filter_iff.mp hid
  simp only [Bool.and_eq_true] at hpublic
  split
  · exact Turn.fail_sound hroom _
  split
  · exact controlledTurn_sound hroom (by simp) hnew
  · exact Turn.await_sound hroom _ _ (isNone_iff_eq_none.mp hpublic.1.1)

end

/-! ### Edits -/

theorem publishEditTurn_sound (law : EntryLaw P) (hroom : room.social.All P)
    {message : ChatEntry} (hmessage : EditAnswer P message) :
    (room.publishEditTurn size requester message).Sound P R where
  social := hroom.editMessage law hmessage.1 hmessage.2
  frames := FramesHold.append (broadcast_holds _ hmessage.1)
    (framesHold_singleton hmessage.1)
  next _ h := by cases h
  edited e h := by
    cases h
    exact hmessage

variable {actor : Member}

theorem editTurn_sound (law : EntryLaw P) (hroom : room.social.All P)
    {edited : ChatEntry} (hedited : P edited) (request : EditRequest) :
    (room.editTurn size requester pool around actor edited request).Sound P R := by
  unfold editTurn
  split
  · exact Turn.fail_sound hroom _
  split
  · exact Turn.wait_sound hroom hedited
  split
  · exact Turn.fail_sound hroom _
  rename_i hagain
  exact publishEditTurn_sound law hroom ⟨law.applyEdit hedited hagain, applyEdit_removedAt hagain⟩

variable {id : MessageId}

theorem prepareEdit_sound (law : EntryLaw P) (hroom : room.social.All P)
    {request : EditRequest} {now : Time} :
    OnSuccess (room.prepareEdit actor id request now)
      fun edited => ∀ e ∈ edited, P e := by
  intro edited h
  unfold prepareEdit at h
  split at h
  · cases h
  split at h
  · cases h
    simp
  rename_i entry hentry
  split at h
  · cases h
  split at h
  · cases h
  split at h
  · cases h
  rename_i hresult
  cases h
  rintro e ⟨⟩
  exact law.applyEdit (hroom.history entry (List.mem_of_find?_eq_some hentry)) hresult

theorem beginEdit_sound (law : EntryLaw P) (hroom : room.social.All P)
    (actor : Member) (id : MessageId) (request : EditRequest) :
    (room.beginEdit size requester pool around actor id request).Sound P R := by
  unfold beginEdit
  split
  · exact Turn.fail_sound hroom _
  · rename_i edited hedited
    exact editTurn_sound law hroom (prepareEdit_sound law hroom _ hedited edited rfl) request
  split
  · exact Turn.await_sound hroom _ _ trivial
  · exact Turn.fail_sound hroom _

/-! ### Pins -/

theorem pinsTurn_sound (hroom : room.social.All P) (actor : Member)
    (changed : Bool) {pins : List ChatEntry} (hpins : ∀ pin ∈ pins, P pin) :
    (room.pinsTurn requester actor changed pins).Sound P R := by
  have hset : (room.setPins pins).social.All P := hroom.setPins hpins
  have hshown : ∀ pin ∈ pins.filter (fun pin => !actor.ignores pin.participantId), P pin :=
    fun pin hpin => hpins pin (mem_of_mem_filter hpin)
  unfold pinsTurn
  simp only
  split
  · exact Turn.respond_sound hset (publishPins_holds hset) hshown
  · exact Turn.respond_sound hset framesHold_nil hshown

theorem changePins_sound (hroom : room.social.All P) (change : MessageId × Bool) :
    OnSuccess (room.changePins change) fun pins => ∀ pin ∈ pins, P pin := by
  intro pins h
  unfold changePins at h
  simp only at h
  split at h
  · split at h
    · cases h
      exact hroom.pins
    split at h
    · cases h
    split at h
    · cases h
    rename_i entry hentry
    cases h
    intro pin hpin
    rcases mem_cons.mp hpin with rfl | hold
    · exact hroom.history entry (List.mem_of_find?_eq_some hentry)
    · exact hroom.pins pin hold
  · cases h
    exact fun pin hpin => hroom.pins pin (mem_of_mem_filter hpin)

theorem beginPins_sound (hroom : room.social.All P) (actor : Member)
    (change : Option (MessageId × Bool)) :
    (room.beginPins requester pool actor change).Sound P R := by
  unfold beginPins
  split
  · exact Turn.fail_sound hroom _
  split
  · refine Turn.await_sound hroom _ _ ?_
    cases change <;> trivial
  split
  · exact pinsTurn_sound hroom actor false hroom.pins
  split
  · exact Turn.fail_sound hroom _
  · rename_i pins hpins
    exact pinsTurn_sound hroom actor true (changePins_sound hroom _ pins hpins)

/-! ### Removal -/

section

variable (law : EntryLaw P) (hroom : room.social.All P)
include law hroom

theorem removalTurn_sound (hid : R id) (removedAt : Time) :
    (room.removalTurn size requester id removedAt).Sound P R := by
  have hset : (room.setSocial (room.social.removeMessage size id removedAt)).social.All P :=
    hroom.removeMessage law id removedAt
  have hremoved : (ServerMessage.chatMessageRemoved id removedAt).Holds P R := trivial
  exact Turn.respond_sound hset ((broadcast_holds _ hremoved).append (publishPins_holds hset)) hid

theorem removeFound_sound {original : ChatEntry} (hid : R id) (hpublic : PublicId P id)
    (authenticated : Bool) (eventId : ℕ) :
    (room.removeFound size requester pool around actor id original authenticated
      eventId).Sound P R := by
  unfold removeFound
  split
  · exact removalTurn_sound law hroom hid _
  split
  · exact Turn.await_sound hroom _ _ hpublic
  split
  · exact Turn.wait_sound hroom hpublic
  · exact removalTurn_sound law hroom hid _

theorem beginRemoval_sound (actor : Member) (hid : R id) (eventId : ℕ) :
    (room.beginRemoval size requester pool around actor id eventId).Sound P R := by
  unfold beginRemoval
  split
  · exact Turn.fail_sound hroom _
  split
  · rename_i entry hentry
    have htest := List.find?_some hentry
    simp only [Bool.and_eq_true, decide_eq_true_eq] at htest
    exact removeFound_sound law hroom hid
      ⟨entry.message, hroom.history entry (List.mem_of_find?_eq_some hentry),
        htest.1, isNone_iff_eq_none.mp htest.2⟩ _ _
  split
  · exact Turn.await_sound hroom _ _ trivial
  · exact Turn.fail_sound hroom _

end

/-! ### Reactions and retention -/

section

variable (law : EntryLaw P) (hroom : room.social.All P)
include law hroom

theorem publishReactionTurn_sound (id : MessageId) (reactions : List ChatReaction) :
    (room.publishReactionTurn size requester id reactions).Sound P R := by
  unfold publishReactionTurn
  split
  · exact Turn.fail_sound hroom _
  rename_i hpublish
  unfold publishReaction at hpublish
  split at hpublish
  · cases hpublish
  split at hpublish
  · cases hpublish
  cases hpublish
  exact Turn.respond_sound (hroom.setReactions law id reactions)
    (broadcast_holds _ trivial) trivial

theorem reactTurn_sound (id : MessageId) (emoji : String) (save : Bool) :
    (room.reactTurn size requester id emoji save).Sound P R := by
  unfold reactTurn
  split
  · exact Turn.fail_sound hroom _
  split
  · exact Turn.wait_sound hroom trivial
  · exact publishReactionTurn_sound law hroom id _

theorem beginReaction_sound (actor : Member) (id : MessageId) (emoji : String) :
    (room.beginReaction size requester pool actor id emoji).Sound P R := by
  unfold beginReaction
  split
  · exact Turn.await_sound hroom _ _ trivial
  · exact reactTurn_sound law hroom id emoji pool

end

theorem beginRetention_sound (hroom : room.social.All P) (actor : Member)
    (days : ℕ) : (room.beginRetention requester pool actor days).Sound P R := by
  unfold beginRetention
  split
  · exact Turn.fail_sound hroom _
  split
  · exact Turn.fail_sound hroom _
  split
  · exact Turn.fail_sound hroom _
  · exact Turn.await_sound hroom _ _ trivial

theorem retentionTurn_sound (hroom : room.social.All P) (days : ℕ) :
    (room.retentionTurn requester days).Sound P R := by
  unfold retentionTurn
  split
  · exact Turn.fail_sound hroom _
  rename_i settings hsettings
  have hset : (if days = 0 then { room.social with pins := [] }
      else room.social).All P := by
    split
    · exact hroom.setPins (by simp)
    · exact hroom
  have hchanged : (ServerMessage.roomSettingsChanged
      { settings with historyRetentionDays := days }).Holds P R := trivial
  exact Turn.respond_sound hset
    ((broadcast_holds _ hchanged).append (publishPins_holds hset)) trivial

/-! ### Whole requests -/

theorem snapshotTurn_sound (hroom : room.social.All P) (actor : Member) :
    (room.snapshotTurn requester actor).Sound P R := by
  refine Turn.respond_sound hroom framesHold_nil fun e he => ?_
  obtain ⟨entry, hentry, rfl⟩ := List.mem_map.mp he
  exact hroom.history entry (mem_of_mem_filter hentry)

theorem socialTurn_sound (law : EntryLaw P) (hroom : room.social.All P)
    (actor : Member) (eventId : ℕ) {request : SocialRequest}
    (hremoves : ∀ id, request = .remove id → R id) :
    (room.socialTurn size requester pool around actor eventId request).Sound
      P R := by
  cases request with
  | snapshot => exact snapshotTurn_sound hroom actor
  | edit id request => exact beginEdit_sound law hroom actor id request
  | pinned change => exact beginPins_sound hroom actor change
  | remove id => exact beginRemoval_sound law hroom actor (hremoves id rfl) eventId
  | react id emoji => exact beginReaction_sound law hroom actor id emoji
  | setHistory days => exact beginRetention_sound hroom actor days

end ChatRoom

def ChatRequest.composes (requester : Requester) : ChatRequest → Option Ends
  | chat attempt => some (requester.participant, attempt.recipientId)
  | social _ => none

def Returning.composes (requester : Requester) : Returning → Option Ends
  | replyFound attempt _ => some (requester.participant, attempt.recipientId)
  | _ => none

def InboxUpdate.Sound (P : ChatEntry → Prop) (update : InboxUpdate) : Prop :=
  update.message.recipientId.isSome → P update.message ∧
    (update.reactions = false → update.message.removedAt = none)

namespace ChatRoom

variable {room : ChatRoom} {size : ChatEntry → ℕ} {requester : Requester}
  {fresh : MessageId} {around : Surroundings} {pool : Bool}

section

variable (law : EntryLaw P) (hroom : room.social.All P)
include law hroom

theorem beginTurn_sound {request : ChatRequest} (hremoves : ∀ id ∈ request.removes, R id)
    (hnew : ∀ ends ∈ request.composes requester, ∀ e, Composed P fresh ends e → P e) :
    (room.beginTurn size requester pool around fresh request).Sound P R := by
  cases request with
  | chat =>
    have hcomposed := hnew _ rfl
    unfold beginTurn
    simp only
    split
    · exact immediateTurn_sound hroom hcomposed
    · exact submitTurn_sound hroom hcomposed
  | social =>
    simp only [beginTurn]
    unfold beginSocial
    split
    · exact Turn.fail_sound hroom _
    split
    · exact Turn.fail_sound hroom _
    refine socialTurn_sound law hroom _ _ fun id hid => hremoves id ?_
    rw [hid]
    rfl

theorem resumeFor_sound {answer : Returning} (hanswer : answer.Sound P)
    (hremoves : ∀ id ∈ answer.removes, R id)
    (hnew : ∀ ends ∈ answer.composes requester, ∀ e, Composed P fresh ends e → P e)
    (actor : Member) :
    (room.resumeFor size requester pool around actor fresh answer).Sound P R := by
  cases answer with
  | replyFound => exact controlledTurn_sound hroom hanswer.2 (hnew _ rfl)
  | chatSaved => exact finishTurn_sound hroom hanswer
  | editFound request found =>
    cases found with
    | none => exact Turn.fail_sound hroom _
    | some message => exact editTurn_sound law hroom (hanswer message rfl) request
  | editSaved => exact publishEditTurn_sound law hroom hanswer
  | removalFound id found =>
    cases found with
    | none => exact Turn.fail_sound hroom _
    | some original =>
      exact removeFound_sound law hroom (hremoves id rfl) ⟨original.1, hanswer original rfl⟩ _ _
  | removalSaved id removedAt => exact removalTurn_sound law hroom (hremoves id rfl) removedAt
  | pinSet => exact Turn.wait_sound hroom trivial
  | pinsRead changed => exact pinsTurn_sound hroom actor changed hanswer
  | reactedPublic id emoji message =>
    cases message with
    | none => exact reactTurn_sound law hroom id emoji false
    | some message =>
      simp only [resumeFor, publishSavedReaction]
      split
      · exact Turn.fail_sound hroom _
      rename_i hpublish
      split at hpublish
      · cases hpublish
      cases hpublish
      have hframe : (ServerMessage.messageReactions message.messageId
          message.reactions).Holds P R := trivial
      exact Turn.respond_sound ((hroom.reconcileReactions law message).setPinReactions law message)
        (broadcast_holds _ hframe) trivial
  | reactionsSaved id reactions => exact publishReactionTurn_sound law hroom id reactions
  | retentionSet days => exact retentionTurn_sound hroom days

theorem resumeTurn_sound {answer : Returning} (hanswer : answer.Sound P)
    (hremoves : ∀ id ∈ answer.removes, R id)
    (hnew : ∀ ends ∈ answer.composes requester, ∀ e, Composed P fresh ends e → P e) :
    (room.resumeTurn size requester pool around fresh answer).Sound P R := by
  unfold resumeTurn
  split
  · exact Turn.wait_sound hroom trivial
  split
  · exact Turn.fail_sound hroom _
  · exact resumeFor_sound law hroom hanswer hremoves hnew _

end

/-! ### Completions -/

theorem completeUpdate_sound (law : EntryLaw P) (hroom : room.social.All P)
    {update : InboxUpdate} (hupdate : update.Sound P) :
    (room.completeUpdate size update).1.social.All P ∧
      FramesHold P R (room.completeUpdate size update).2 := by
  unfold completeUpdate
  simp only
  split
  · exact ⟨hroom, framesHold_nil⟩
  rename_i hrecipient
  obtain ⟨hmessage, hedit⟩ := hupdate (by rw [hrecipient]; rfl)
  split
  · exact ⟨hroom, framesHold_nil⟩
  split
  · have hframe : (ServerMessage.messageReactions update.message.messageId
        update.message.reactions).Holds P R := trivial
    exact ⟨hroom.reconcileReactions law _, broadcast_holds _ hframe⟩
  · rename_i hreactions
    exact ⟨hroom.editMessage law hmessage (hedit (by simpa using hreactions)),
      broadcast_holds _ hmessage⟩

theorem deliverInbox_holds {message : ChatEntry} (hmessage : P message) :
    FramesHold P R (room.deliverInbox message) := by
  unfold deliverInbox
  split
  · exact framesHold_nil
  split
  · exact framesHold_nil
  · exact broadcast_holds _ hmessage

end ChatRoom

/-! ## The system -/

def Holder.Sound (P : ChatEntry → Prop) : Holder → Prop
  | waiting _ next => next.Sound P
  | returning _ answer => answer.Sound P
  | completing message => P message

/-- `P` holds of every copy of a message, wherever it is kept. -/
structure ChatSystem.Sound (P : ChatEntry → Prop) (c : ChatSystem) : Prop where
  social : c.room.social.All P
  database : ∀ db ∈ c.database, db.Sound P c.room.id
  holder : ∀ holder ∈ c.holder, holder.Sound P
  updates : ∀ update ∈ c.updates, update.Sound P

namespace ChatSystem

variable {c d : ChatSystem} {size : ChatEntry → ℕ}

def removes (c : ChatSystem) : ChatAction → Option MessageId
  | .request _ request _ => request.removes
  | .resume _ =>
    match c.holder with
    | some (.returning _ answer) => answer.removes
    | _ => none
  | _ => none

def composes (c : ChatSystem) : ChatAction → Option Ends
  | .request requester request _ => request.composes requester
  | .resume _ =>
    match c.holder with
    | some (.returning requester answer) => answer.composes requester
    | _ => none
  | .httpSend own peer _ _ _ => some (own, some peer)
  | _ => none

theorem Sound.mono {Q : ChatEntry → Prop} (h : c.Sound P) (himp : ∀ e, P e → Q e) : c.Sound Q where
  social := h.social.mono himp
  database db hdb := (h.database db hdb).mono himp
  holder holder hholder := by
    have hold := h.holder holder hholder
    cases holder with
    | waiting => exact Waiting.Sound.mono hold himp
    | returning => exact Returning.Sound.mono hold himp
    | completing message => exact himp message hold
  updates update hupdate hprivate :=
    ⟨himp _ (h.updates update hupdate hprivate).1, (h.updates update hupdate hprivate).2⟩

theorem sound_start (room : ChatRoom) (database : Option Database) :
    (start room database).Sound P where
  social := RoomSocial.all_empty
  database db hdb := by
    obtain ⟨old, -, rfl⟩ := map_eq_some_iff.mp hdb
    intro row hrow
    cases hrow
  holder _ h := by cases h
  updates _ h := by cases h

structure StepSound (P : ChatEntry → Prop) (R : MessageId → Prop)
    (c d : ChatSystem) : Prop where
  sound : d.Sound P
  frames : ∃ frames, d.sent = c.sent ++ frames ∧ FramesHold P R frames

theorem StepSound.silent (h : d.Sound P) (hsent : d.sent = c.sent) : StepSound P R c d :=
  ⟨h, [], by rw [hsent, append_nil], framesHold_nil⟩

theorem Sound.of_same (hc : c.Sound P) (hid : d.room.id = c.room.id)
    (hsocial : d.room.social = c.room.social) (hdatabase : d.database = c.database)
    (hholder : d.holder = c.holder) (hupdates : d.updates = c.updates) :
    d.Sound P where
  social := by
    rw [hsocial]
    exact hc.social
  database := by
    rw [hid, hdatabase]
    exact hc.database
  holder := by
    rw [hholder]
    exact hc.holder
  updates := by
    rw [hupdates]
    exact hc.updates

theorem Sound.setDatabase (hc : c.Sound P) {g : Database → Database}
    (hg : ∀ db, db.Sound P c.room.id → (g db).Sound P c.room.id) :
    ({ c with database := c.database.map g } : ChatSystem).Sound P where
  social := hc.social
  database db hdb := by
    obtain ⟨old, hold, rfl⟩ := map_eq_some_iff.mp hdb
    exact hg old (hc.database old hold)
  holder := hc.holder
  updates := hc.updates

theorem settle_sound (hc : c.Sound P) {turn : Turn} (hturn : turn.Sound P R)
    (hid : turn.room.id = c.room.id) {holder : Option Holder}
    (hholder : ∀ h ∈ holder, h.Sound P) :
    StepSound P R c (c.settle turn holder) := by
  refine ⟨⟨hturn.social, ?_, hholder, ?_⟩, turn.frames, rfl, hturn.frames⟩
  · intro db hdb
    simp only [settle, hid]
    exact hc.database db hdb
  intro update hupdate
  rcases mem_append.mp hupdate with hold | hnew
  · exact hc.updates update hold
  obtain ⟨message, hmessage, rfl⟩ := List.mem_map.mp hnew
  have hedited := (mem_filter_iff.mp (mem_toList.mp hmessage)).1
  obtain ⟨hP, hlive⟩ := hturn.edited message hedited
  exact fun _ => ⟨hP, fun _ => hlive⟩

theorem waiting_sound {next : Option Waiting} (requester : Requester) (h : ∀ w ∈ next, w.Sound P) :
    ∀ holder ∈ next.map (Holder.waiting requester), holder.Sound P := by
  intro holder hholder
  obtain ⟨w, hw, rfl⟩ := map_eq_some_iff.mp hholder
  exact h w hw

variable {around : Surroundings}

theorem requestStep_sound (law : EntryLaw P) (hc : c.Sound P) {requester : Requester}
    {request : ChatRequest} (hremoves : ∀ id ∈ request.removes, R id)
    (hnew : ∀ ends ∈ request.composes requester, ∀ e, Composed P c.nextMessage ends e → P e)
    (h : c.requestStep size requester request around = some d) :
    StepSound P R c d := by
  have hturn : (c.room.beginTurn size requester c.database.isSome around
      c.nextMessage request).Sound P R :=
    ChatRoom.beginTurn_sound law hc.social hremoves hnew
  unfold requestStep at h
  split at h
  · cases h
  simp only at h
  split at h
  · split at h
    · cases h
    cases h
    exact settle_sound hc hturn (ChatRoom.beginTurn_id _ _) (waiting_sound requester hturn.next)
  · cases h
    exact settle_sound hc hturn (ChatRoom.beginTurn_id _ _) hc.holder

theorem failureFrame_holds (requester : Requester) (next : Waiting) (error : RoomError) :
    (failureFrame requester next error).message.Holds P R := by
  unfold failureFrame
  split
  · split <;> trivial
  · split <;> trivial
  · trivial

variable {faults : Faults}

section

variable (law : EntryLaw P) (hc : c.Sound P)
include law hc

theorem workStep_sound (h : c.workStep size around faults = some d) : StepSound P R c d := by
  unfold workStep at h
  split at h
  · rename_i requester next db hholder hdb
    have hsaved := hc.database db hdb
    obtain ⟨hsaved', -, hresult⟩ := Waiting.work_ensures law size
      requester.participant around (hc.holder _ hholder)
      (connection db faults) hsaved hsaved
    split at h
    · rename_i answer conn hwork
      rw [hwork] at hsaved' hresult
      cases h
      refine StepSound.silent ⟨hc.social, ?_, ?_, hc.updates⟩ rfl
      · rintro _ ⟨⟩
        exact hsaved'
      · rintro _ ⟨⟩
        exact hresult answer rfl
    · rename_i hwork
      rw [hwork] at hsaved'
      cases h
      refine ⟨⟨?_, ?_, (fun _ h => by cases h), hc.updates⟩, _, rfl,
        framesHold_singleton (failureFrame_holds _ _ _)⟩
      · simp only
        split <;> exact hc.social
      rintro _ ⟨⟩
      simp only
      split <;> exact hsaved'
  · cases h

theorem completed_sound {update : InboxUpdate} (hupdate : update.Sound P)
    {holder : Option Holder} (hholder : ∀ h ∈ holder, h.Sound P)
    {updates : List InboxUpdate} (hupdates : ∀ u ∈ updates, u.Sound P) :
    StepSound P R c
      { c with
        room := (c.room.completeUpdate size update).1
        holder
        updates
        sent := c.sent ++ (c.room.completeUpdate size update).2 } := by
  obtain ⟨hsocial, hframes⟩ := ChatRoom.completeUpdate_sound law hc.social hupdate
  refine ⟨⟨hsocial, fun db hdb => ?_, hholder, hupdates⟩, _, rfl, hframes⟩
  simp only [(ChatRoom.completeUpdate_members update).id]
  exact hc.database db hdb

theorem resumeStep_sound (hremoves : ∀ id ∈ c.removes (.resume around), R id)
    (hnew : ∀ ends ∈ c.composes (.resume around), ∀ e,
      Composed P c.nextMessage ends e → P e) (h : c.resumeStep size around = some d) :
    StepSound P R c d := by
  unfold resumeStep at h
  split at h
  · rename_i requester answer hholder
    simp only [removes, hholder] at hremoves
    simp only [composes, hholder] at hnew
    have hturn : (c.room.resumeTurn size requester c.database.isSome around
        c.nextMessage answer).Sound P R :=
      ChatRoom.resumeTurn_sound law hc.social (hc.holder _ hholder) hremoves hnew
    cases h
    exact settle_sound hc hturn (ChatRoom.resumeTurn_id _ _) (waiting_sound requester hturn.next)
  · rename_i message hholder
    have hupdate : (⟨message, true⟩ : InboxUpdate).Sound P :=
      fun _ => ⟨hc.holder _ hholder, by simp⟩
    cases h
    exact completed_sound law hc hupdate (fun _ h => by cases h) hc.updates
  · cases h

theorem completeStep_sound {index : ℕ} (h : c.completeStep size index faults = some d) :
    StepSound P R c d := by
  unfold completeStep at h
  split at h
  · rename_i update hholder hupdate
    have hrest : ∀ u ∈ c.updates.eraseIdx index, u.Sound P :=
      fun u hu => hc.updates u (mem_of_mem_eraseIdx hu)
    have hdropped : StepSound P R c { c with updates := c.updates.eraseIdx index } :=
      .silent ⟨hc.social, hc.database, hc.holder, hrest⟩ rfl
    simp only at h
    split at h
    · split at h
      · rename_i db recipient hdb _
        have hsaved := hc.database db hdb
        obtain ⟨-, -, hresult⟩ := privateMessage_ensures law
          update.message.participantId recipient update.message.messageId
          (connection db faults) hsaved hsaved
        split at h
        · rename_i saved conn hread
          rw [hread] at hresult
          cases h
          refine StepSound.silent ⟨hc.social, hc.database, ?_, hrest⟩ rfl
          rintro _ ⟨⟩
          exact hresult _ rfl saved rfl
        · cases h
          exact hdropped
      · cases h
        exact hdropped
    · cases h
      exact completed_sound law hc (hc.updates update (mem_of_getElem? hupdate)) hc.holder hrest
  · cases h

end

/-! ### HTTP -/

theorem httpStep_sound (hc : c.Sound P) {write : Sql ChatEntry} {reactions : Bool}
    (hwrite : write.Ensures (Database.Sound P c.room.id) fun message =>
      P message ∧ (reactions = false → message.removedAt = none))
    (h : c.httpStep write reactions faults = some d) : StepSound P R c d := by
  unfold httpStep at h
  split at h
  · cases h
  rename_i db hdb
  have hsaved := hc.database db hdb
  obtain ⟨hsaved', -, hresult⟩ := hwrite (connection db faults) hsaved hsaved
  split at h
  · rename_i message conn hdone
    rw [hdone] at hsaved' hresult
    cases h
    refine StepSound.silent ⟨hc.social, ?_, hc.holder, ?_⟩ rfl
    · rintro _ ⟨⟩
      exact hsaved'
    intro update hupdate
    rcases mem_append.mp hupdate with hold | hnew
    · exact hc.updates update hold
    · rw [mem_singleton.mp hnew]
      exact fun _ => hresult message rfl
  · rename_i hdone
    rw [hdone] at hsaved'
    cases h
    refine StepSound.silent ⟨hc.social, ?_, hc.holder, hc.updates⟩ rfl
    rintro _ ⟨⟩
    exact hsaved'

theorem httpSendStep_sound (law : EntryLaw P) (hc : c.Sound P)
    {own peer : ParticipantId} {request : SendRequest}
    (hnew : ∀ e, Composed P c.nextMessage (own, some peer) e → P e)
    (h : c.httpSendStep own peer request around faults = some d) :
    StepSound P R c d := by
  unfold httpSendStep at h
  split at h
  · cases h
  rename_i db hdb
  have hsaved := hc.database db hdb
  obtain ⟨hsaved', -, hresult⟩ := savePrivateMessage_ensures law own peer request
    around.now around.uploads hnew (connection db faults) hsaved hsaved
  split at h
  · rename_i message new conn hdone
    rw [hdone] at hsaved' hresult
    cases h
    refine ⟨⟨hc.social, ?_, hc.holder, hc.updates⟩, _, rfl, ?_⟩
    · rintro _ ⟨⟩
      exact hsaved'
    split
    · exact ChatRoom.deliverInbox_holds (hresult _ rfl)
    · exact framesHold_nil
  · rename_i hdone
    rw [hdone] at hsaved'
    cases h
    refine StepSound.silent ⟨hc.social, ?_, hc.holder, hc.updates⟩ rfl
    rintro _ ⟨⟩
    exact hsaved'

/-! ### All steps -/

theorem Sound.step (law : EntryLaw P) (hc : c.Sound P) {action : ChatAction}
    (hremoves : ∀ id ∈ c.removes action, R id)
    (hnew : ∀ ends ∈ c.composes action, ∀ e, Composed P c.nextMessage ends e → P e)
    (h : c.step size action = some d) : StepSound P R c d := by
  cases action with
  | join =>
    simp only [ChatSystem.step, joinStep] at h
    split at h
    · cases h
      exact .silent (hc.of_same rfl rfl rfl rfl rfl) rfl
    · cases h
  | leave | settings =>
    cases h
    exact .silent (hc.of_same rfl rfl rfl rfl rfl) rfl
  | change =>
    simp only [ChatSystem.step, changeStep] at h
    split at h
    · cases h
      exact .silent (hc.of_same rfl rfl rfl rfl rfl) rfl
    · cases h
  | recreate =>
    simp only [ChatSystem.step, recreateStep] at h
    split at h
    · cases h
    cases h
    exact .silent ⟨RoomSocial.all_empty, hc.database, hc.holder, hc.updates⟩ rfl
  | request => exact requestStep_sound law hc hremoves hnew h
  | work => exact workStep_sound law hc h
  | resume => exact resumeStep_sound law hc hremoves hnew h
  | complete => exact completeStep_sound law hc h
  | httpSend => exact httpSendStep_sound law hc (hnew _ rfl) h
  | httpEdit own peer id request now =>
    exact httpStep_sound hc ((savePrivateEdit_ensures law.table own peer id now
      request).mono fun message hmessage => ⟨hmessage.1, fun _ => hmessage.2⟩) h
  | httpReact own peer id emoji present =>
    exact httpStep_sound hc ((savePrivateReaction_ensures law.table own peer id emoji
      present).mono fun message hmessage => ⟨hmessage, by simp⟩) h
  | expire =>
    cases h
    refine .silent (hc.setDatabase fun db hdb => hdb.map fun row _ hrow => ?_) rfl
    split
    · exact ⟨hrow.body, hrow.conversation, hrow.room⟩
    · exact hrow
  | cleanUp =>
    cases h
    exact .silent (hc.setDatabase fun db hdb => (hdb.filter _).of_messages rfl) rfl
  | account =>
    cases h
    exact .silent (hc.setDatabase fun db hdb => hdb.of_messages rfl) rfl

end ChatSystem

end SimplestChat
