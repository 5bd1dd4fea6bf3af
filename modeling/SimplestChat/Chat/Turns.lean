import SimplestChat.Chat.System

/-!
# What a turn does and what it leaves alone

Most turns of a request change only the room's chat memory or its settings:
they are quiet. A turn of a chat attempt is quiet too, unless it hands a
prepared message to the database or accepts and delivers it. `MemoryChange`
lists what a quiet turn can do to the memory.
-/

namespace SimplestChat

open List Turn

def Waiting.chat? : Waiting → Option PreparedChat
  | persistChat chat | attachFiles chat => some chat
  | _ => none

def Returning.chat? : Returning → Option PreparedChat
  | chatSaved chat => some chat
  | _ => none

def ChatRequest.removes : ChatRequest → Option MessageId
  | social (.remove id) => some id
  | _ => none

def Returning.removes : Returning → Option MessageId
  | removalFound id _ | removalSaved id _ => some id
  | _ => none

def ServerMessage.delivers : ServerMessage → Option MessageId
  | chatReceived _ _ _ _ id .. => some id
  | privateMessageReceived message => some message.messageId
  | _ => none

def NoDelivery (frames : List Frame) : Prop :=
  ∀ frame ∈ frames, frame.message.delivers = none

theorem noDelivery_nil : NoDelivery [] := by
  intro frame h
  cases h

theorem noDelivery_singleton {frame : Frame} (h : frame.message.delivers = none) :
    NoDelivery [frame] := by
  intro other hother
  rw [mem_singleton.mp hother]
  exact h

theorem NoDelivery.append {fs gs : List Frame} (hf : NoDelivery fs)
    (hg : NoDelivery gs) : NoDelivery (fs ++ gs) := by
  intro frame h
  rcases mem_append.mp h with h | h
  · exact hf frame h
  · exact hg frame h

theorem ChatRoom.broadcast_noDelivery {room : ChatRoom} {message : ServerMessage}
    (h : message.delivers = none) (test : Member → Bool) :
    NoDelivery (room.broadcast test message) := by
  intro frame hframe
  obtain ⟨member, -, rfl⟩ := mem_map.mp hframe
  exact h

theorem ChatRoom.publishPins_noDelivery (room : ChatRoom) : NoDelivery room.publishPins := by
  intro frame hframe
  obtain ⟨viewer, -, rfl⟩ := mem_map.mp hframe
  rfl

/-! ## The chat memory -/

inductive Pruned : RoomSocial → RoomSocial → Prop where
  | refl (s : RoomSocial) : Pruned s s
  | prune {s t : RoomSocial} (now : Time) (h : Pruned (s.pruneReceipts now) t) : Pruned s t

/-- What a step can bring into the chat memory: the pins that it has read, and
the messages that it reacts to in the memory, removes or reconciles. -/
structure Sources where
  pins : Option (List ChatEntry) := none
  reacts : Option MessageId := none
  removes : Option MessageId := none
  reconciles : Option ChatEntry := none

inductive MemoryOp (size : ChatEntry → ℕ) (sources : Sources)
    (s : RoomSocial) : RoomSocial → Prop where
  | same : MemoryOp size sources s s
  | edits (edited : ChatEntry) : MemoryOp size sources s (s.editMessage size edited)
  | removes (id : MessageId) (removedAt : Time) (hid : id ∈ sources.removes) :
      MemoryOp size sources s (s.removeMessage size id removedAt)
  | reacts (id : MessageId) (reactions : List ChatReaction)
      (hid : id ∈ sources.reacts) :
      MemoryOp size sources s (s.setReactions size id reactions)
  | reactsSaved (message : ChatEntry) : MemoryOp size sources s
        ((s.reconcileReactions size message).setPinReactions message)
  | reconciles (message : ChatEntry) (hmessage : message ∈ sources.reconciles)
      (hprivate : message.recipientId.isSome) :
      MemoryOp size sources s (s.reconcileReactions size message)
  | readsPins (pins : List ChatEntry) (hpins : pins ∈ sources.pins) :
      MemoryOp size sources s { s with pins }
  | pins (entry : HistoryEntry) (hentry : entry ∈ s.history)
      (hpublic : entry.message.recipientId = none)
      (hlive : entry.message.removedAt = none)
      (hnew : ∀ pin ∈ s.pins, pin.messageId ≠ entry.message.messageId)
      (hfree : s.pins.length < 3) :
      MemoryOp size sources s { s with pins := entry.message :: s.pins }
  | unpins (keep : ChatEntry → Bool) : MemoryOp size sources s { s with pins := s.pins.filter keep }

/-- What a turn that accepts nothing does to the memory. -/
def MemoryChange (size : ChatEntry → ℕ) (sources : Sources) (s t : RoomSocial) : Prop :=
  ∃ base, Pruned s base ∧ MemoryOp size sources base t

/-- A reaction goes to the memory at once only where there is nothing to save. -/
def ChatRequest.sources (room : ChatRoom) (pool : Bool) : ChatRequest → Sources
  | social (.react id _) => { reacts := if room.reactsSaved id || pool then none else some id }
  | social (.remove id) => { removes := some id }
  | _ => {}

def Returning.sources : Returning → Sources
  | removalFound id _ | removalSaved id _ => { removes := some id }
  | pinsRead _ pins => { pins := some pins }
  | reactedPublic id _ none | reactionsSaved id _ => { reacts := some id }
  | _ => {}

theorem MemoryOp.change {size : ChatEntry → ℕ} {sources : Sources} {s t : RoomSocial}
    (h : MemoryOp size sources s t) : MemoryChange size sources s t :=
  ⟨s, .refl s, h⟩

theorem MemoryChange.refl {size : ChatEntry → ℕ} {sources : Sources}
    (s : RoomSocial) : MemoryChange size sources s s :=
  MemoryOp.same.change

theorem MemoryChange.of_pruned {size : ChatEntry → ℕ}
    {sources : Sources} {s t : RoomSocial} {now : Time}
    (h : MemoryChange size sources (s.pruneReceipts now) t) :
    MemoryChange size sources s t := by
  obtain ⟨base, hbase, hop⟩ := h
  exact ⟨base, .prune now hbase, hop⟩

/-! ## Quiet turns -/

structure SameMembers (room room' : ChatRoom) : Prop where
  id : room'.id = room.id
  deleting : room'.deleting = room.deleting
  participants : room'.participants = room.participants

theorem SameMembers.refl (room : ChatRoom) : SameMembers room room := ⟨rfl, rfl, rfl⟩

theorem SameMembers.trans {room room' room'' : ChatRoom}
    (h : SameMembers room room') (h' : SameMembers room' room'') :
    SameMembers room room'' :=
  ⟨h'.id.trans h.id, h'.deleting.trans h.deleting, h'.participants.trans h.participants⟩

theorem sameMembers_setSocial (room : ChatRoom) (social : RoomSocial) :
    SameMembers room (room.setSocial social) :=
  ⟨rfl, rfl, rfl⟩

/-- The turn accepts and delivers nothing and hands no message on. -/
structure Turn.Quiet (size : ChatEntry → ℕ) (sources : Sources)
    (room : ChatRoom) (turn : Turn) : Prop where
  members : SameMembers room turn.room
  accepted : turn.accepted = none
  frames : NoDelivery turn.frames
  next : ∀ w ∈ turn.next, w.chat? = none
  memory : MemoryChange size sources room.social turn.room.social

namespace Turn

variable {size : ChatEntry → ℕ} {sources : Sources} {room room' : ChatRoom} {requester : Requester}

theorem fail_quiet (failure : SocialFailure) :
    (fail room requester failure).Quiet size sources room :=
  ⟨.refl room, rfl, noDelivery_singleton rfl, (fun _ h => by cases h), .refl _⟩

theorem respond_quiet (h : SameMembers room room')
    (hmemory : MemoryOp size sources room.social room'.social) {published : List Frame}
    (hpublished : NoDelivery published) (response : SocialResponse) :
    (respond room' requester published response).Quiet size sources room :=
  ⟨h, rfl, hpublished.append (noDelivery_singleton rfl), (fun _ h => by cases h), hmemory.change⟩

theorem wait_quiet {next : Waiting} (hnext : next.chat? = none) :
    ({ room, next := some next } : Turn).Quiet size sources room := by
  refine ⟨.refl room, rfl, noDelivery_nil, fun w h => ?_, .refl _⟩
  cases h
  exact hnext

theorem await_quiet (pool : Bool) (missing : String) {next : Waiting} (hnext : next.chat? = none) :
    (await room requester pool missing next).Quiet size sources room := by
  unfold await
  split
  · exact wait_quiet hnext
  · exact fail_quiet _

end Turn

namespace ChatRoom

variable {room : ChatRoom} {size : ChatEntry → ℕ}
  {sources : Sources} {requester : Requester} {pool : Bool} {around : Surroundings}
  {actor : Member} {fresh : MessageId} {emoji : String}

theorem publishEditTurn_quiet (message : ChatEntry) :
    (room.publishEditTurn size requester message).Quiet size sources room where
  members := sameMembers_setSocial room _
  accepted := rfl
  frames := (broadcast_noDelivery rfl _).append (noDelivery_singleton rfl)
  next _ h := by cases h
  memory := (MemoryOp.edits message).change

theorem editTurn_quiet (edited : ChatEntry) (request : EditRequest) :
    (room.editTurn size requester pool around actor edited request).Quiet size
      sources room := by
  unfold editTurn
  split
  · exact fail_quiet _
  split
  · exact wait_quiet rfl
  split
  · exact fail_quiet _
  · exact publishEditTurn_quiet _

theorem beginEdit_quiet (id : MessageId) (request : EditRequest) :
    (room.beginEdit size requester pool around actor id request).Quiet size sources
      room := by
  unfold beginEdit
  split
  · exact fail_quiet _
  · exact editTurn_quiet _ request
  split
  · exact await_quiet _ _ rfl
  · exact fail_quiet _

theorem pinsTurn_quiet (changed : Bool) {pins : List ChatEntry}
    (hpins : MemoryOp size sources room.social { room.social with pins }) :
    (room.pinsTurn requester actor changed pins).Quiet size sources room := by
  unfold pinsTurn
  simp only
  split
  · exact respond_quiet (sameMembers_setSocial room _) hpins (publishPins_noDelivery _) _
  · exact respond_quiet (sameMembers_setSocial room _) hpins noDelivery_nil _

theorem changePins_memory {change : MessageId × Bool} {pins : List ChatEntry}
    (h : room.changePins change = .ok pins) :
    MemoryOp size sources room.social { room.social with pins } := by
  unfold changePins at h
  simp only at h
  split at h
  · split at h
    · cases h
      exact .same
    rename_i hnew
    split at h
    · cases h
    rename_i hfree
    split at h
    · cases h
    rename_i entry hentry
    cases h
    have htest := find?_some hentry
    simp only [Bool.and_eq_true, decide_eq_true_eq, Option.isNone_iff_eq_none]
      at htest
    refine .pins entry (mem_of_find?_eq_some hentry) htest.1.2 htest.2 ?_ (Nat.not_le.mp hfree)
    intro pin hpin hid
    exact hnew (any_eq_true.mpr ⟨pin, hpin, by simp [hid, htest.1.1]⟩)
  · cases h
    exact .unpins _

theorem beginPins_quiet (change : Option (MessageId × Bool)) :
    (room.beginPins requester pool actor change).Quiet size sources room := by
  unfold beginPins
  split
  · exact fail_quiet _
  split
  · refine await_quiet _ _ ?_
    cases change <;> rfl
  split
  · exact pinsTurn_quiet false .same
  split
  · exact fail_quiet _
  · rename_i hpins
    exact pinsTurn_quiet true (changePins_memory hpins)

theorem removalTurn_quiet {id : MessageId} (hid : id ∈ sources.removes) (removedAt : Time) :
    (room.removalTurn size requester id removedAt).Quiet size sources room :=
  respond_quiet (sameMembers_setSocial room _) (.removes id removedAt hid)
    ((broadcast_noDelivery rfl _).append (publishPins_noDelivery _)) _

theorem removeFound_quiet {id : MessageId} (hid : id ∈ sources.removes)
    (original : ChatEntry) (authenticated : Bool) (eventId : ℕ) :
    (room.removeFound size requester pool around actor id original authenticated
      eventId).Quiet size sources room := by
  unfold removeFound
  split
  · exact removalTurn_quiet hid _
  split
  · exact await_quiet _ _ rfl
  split
  · exact wait_quiet rfl
  · exact removalTurn_quiet hid _

theorem beginRemoval_quiet {id : MessageId} (hid : id ∈ sources.removes) (eventId : ℕ) :
    (room.beginRemoval size requester pool around actor id eventId).Quiet
      size sources room := by
  unfold beginRemoval
  split
  · exact fail_quiet _
  split
  · exact removeFound_quiet hid _ _ eventId
  split
  · exact await_quiet _ _ rfl
  · exact fail_quiet _

theorem publishReactionTurn_quiet {id : MessageId} (hid : id ∈ sources.reacts)
    (reactions : List ChatReaction) :
    (room.publishReactionTurn size requester id reactions).Quiet size sources room := by
  unfold publishReactionTurn
  split
  · exact fail_quiet _
  rename_i hpublish
  unfold publishReaction at hpublish
  split at hpublish
  · cases hpublish
  split at hpublish
  · cases hpublish
  cases hpublish
  exact respond_quiet (sameMembers_setSocial room _) (.reacts id reactions hid)
    (broadcast_noDelivery rfl _) _

theorem reactTurn_quiet {id : MessageId} (emoji : String) {save : Bool}
    (hid : save = false → id ∈ sources.reacts) :
    (room.reactTurn size requester id emoji save).Quiet size sources room := by
  unfold reactTurn
  split
  · exact fail_quiet _
  split
  · exact wait_quiet rfl
  · rename_i hmemory
    exact publishReactionTurn_quiet (hid (Bool.not_eq_true _ ▸ hmemory)) _

theorem beginReaction_quiet (id : MessageId) (emoji : String) :
    (room.beginReaction size requester pool actor id emoji).Quiet size
      (ChatRequest.sources room pool (.social (.react id emoji))) room := by
  unfold beginReaction
  split
  · exact await_quiet _ _ rfl
  rename_i hmemory
  refine reactTurn_quiet emoji fun hpool => ?_
  simp only [ChatRequest.sources, hpool, hmemory]
  rfl

theorem savedReactionTurn_quiet (id : MessageId) (message : ChatEntry) :
    (room.resumeFor size requester pool around actor fresh
      (.reactedPublic id emoji (some message))).Quiet size sources room := by
  simp only [resumeFor]
  split
  · exact fail_quiet _
  rename_i hpublish
  unfold publishSavedReaction at hpublish
  split at hpublish
  · cases hpublish
  cases hpublish
  have hframe : (ServerMessage.messageReactions message.messageId
      message.reactions).delivers = none := rfl
  exact respond_quiet (sameMembers_setSocial room _) (.reactsSaved message)
    (broadcast_noDelivery hframe _) _

theorem beginRetention_quiet (days : ℕ) :
    (room.beginRetention requester pool actor days).Quiet size sources room := by
  unfold beginRetention
  split
  · exact fail_quiet _
  split
  · exact fail_quiet _
  split
  · exact fail_quiet _
  · exact await_quiet _ _ rfl

theorem retentionTurn_quiet (days : ℕ) :
    (room.retentionTurn requester days).Quiet size sources room := by
  unfold retentionTurn
  split
  · exact fail_quiet _
  rename_i settings hsettings
  have hchanged : (ServerMessage.roomSettingsChanged
      { settings with historyRetentionDays := days }).delivers = none := rfl
  refine respond_quiet ?_ ?_
    ((broadcast_noDelivery hchanged _).append (publishPins_noDelivery _)) _
  · exact ⟨rfl, rfl, rfl⟩
  simp only
  split
  · rw [← filter_false room.social.pins]
    exact .unpins _
  · exact .same

theorem beginSocial_quiet (eventId : ℕ) (request : SocialRequest) :
    (room.beginSocial size requester pool around eventId request).Quiet size
      (ChatRequest.sources room pool (.social request)) room := by
  unfold beginSocial
  split
  · exact fail_quiet _
  split
  · exact fail_quiet _
  cases request with
  | snapshot => exact respond_quiet (.refl room) .same noDelivery_nil _
  | edit id request => exact beginEdit_quiet id request
  | pinned change => exact beginPins_quiet change
  | remove => exact beginRemoval_quiet rfl eventId
  | react id emoji => exact beginReaction_quiet id emoji
  | setHistory days => exact beginRetention_quiet days

/-! ## Attempts -/

/-- What a prepared message has of the member that sends it, and of the memory
that has no copy of it. -/
structure PreparedFor (size : ChatEntry → ℕ) (room : ChatRoom)
    (requester : Requester) (attempt : ChatAttempt) (fresh : MessageId)
    (chat : PreparedChat) : Prop where
  sequence : chat.sequence = attempt.sequence
  sender : ∃ member, room.participantForSender requester = .ok member ∧
    chat.senderSession = member.mediaSessionId ∧
    ∀ n ∈ attempt.sequence, member.social.chatHighWater < n
  messageId : chat.message.messageId = fresh

structure Accepts (size : ChatEntry → ℕ) (room : ChatRoom)
    (requester : Requester) (chat : PreparedChat) (turn : Turn) : Prop where
  id : turn.room.id = room.id
  deleting : turn.room.deleting = room.deleting
  participants : turn.room.participants =
    (room.advanceHighWater requester.participant chat.sequence).participants
  accepted : turn.accepted = some ⟨chat.senderSession, chat.sequence, chat.message.messageId⟩
  frames : ∃ delivered, turn.frames = room.delivery chat requester.participant delivered ++
      [requester.frame chat.message.ack]
  next : turn.next = none
  memory : ∃ base, Pruned room.social base ∧ turn.room.social = keepMessage size chat base

/-- What becomes of a prepared message in one turn. -/
inductive Handles (size : ChatEntry → ℕ) (sources : Sources)
    (room : ChatRoom) (requester : Requester) (chat : PreparedChat) (turn : Turn) :
    Prop where
  | quiet (h : turn.Quiet size sources room)
  | saves (members : SameMembers room turn.room) (accepted : turn.accepted = none)
      (frames : turn.frames = []) (next : Waiting)
      (hnext : turn.next = some next) (hchat : next.chat? = some chat)
      (memory : Pruned room.social turn.room.social)
  | accepts (h : room.Accepts size requester chat turn)

theorem Handles.id {chat : PreparedChat} {turn : Turn}
    (h : room.Handles size sources requester chat turn) : turn.room.id = room.id := by
  cases h with
  | quiet h => exact h.members.id
  | saves members => exact members.id
  | accepts h => exact h.id

theorem finishTurn_cases (chat : PreparedChat) :
    (room.finishTurn size requester around chat).Quiet size sources room ∨
      room.Accepts size requester chat
        (room.finishTurn size requester around chat) := by
  unfold finishTurn
  split
  · exact .inl (fail_quiet _)
  rename_i hfinish
  unfold finishChatAttempt at hfinish
  split at hfinish
  · cases hfinish
  cases hfinish
  refine .inr ⟨?_, ?_, ?_, rfl, ⟨_, rfl⟩, rfl, room.social, .refl _, ?_⟩
  · unfold advanceHighWater
    split <;> rfl
  · unfold advanceHighWater
    split <;> rfl
  · unfold advanceHighWater
    cases chat.sequence <;> rfl
  · unfold advanceHighWater
    cases chat.sequence <;> rfl

theorem finishTurn_handles (chat : PreparedChat) : room.Handles size sources requester chat
      (room.finishTurn size requester around chat) :=
  (finishTurn_cases chat).elim .quiet .accepts

theorem await_handles (pool : Bool) (missing : String) {next : Waiting}
    {chat : PreparedChat} (hchat : next.chat? = some chat) :
    room.Handles size sources requester chat
      (.await room requester pool missing next) := by
  unfold await
  split
  · exact .saves (.refl room) rfl rfl next rfl hchat (.refl _)
  · exact .quiet (fail_quiet _)

theorem preparedTurn_handles (chat : PreparedChat) : room.Handles size sources requester chat
      (room.preparedTurn size requester pool around chat) := by
  unfold preparedTurn
  split
  · exact await_handles _ _ rfl
  split
  · exact await_handles _ _ rfl
  · exact finishTurn_handles chat

variable {attempt : ChatAttempt}

theorem supersededBy_none {highWater : ℕ} (h : attempt.supersededBy highWater = none) :
    ∀ n ∈ attempt.sequence, highWater < n := by
  intro n hn
  unfold ChatAttempt.supersededBy at h
  rw [hn] at h
  simp only [Option.bind_some] at h
  split at h
  · cases h
  · omega

def preparedChat (size : ChatEntry → ℕ) (room : ChatRoom) (sender : Member)
    (attempt : ChatAttempt) (recipient : Option Recipient)
    (replyTo : Option ChatReplyRef) (fresh : MessageId) (now : Time) :
    PreparedChat where
  message := newEntry attempt sender recipient replyTo fresh now
  attachmentIds := attempt.attachmentIds
  senderSession := sender.mediaSessionId
  senderAuthenticated := sender.authenticated
  recipient
  sequence := attempt.sequence
  receiptBytes := size (newEntry attempt sender recipient replyTo fresh now)
  now
  persist := room.persists sender attempt.recipientId
  durable := false

/-- What an attempt that is not refused comes to. -/
inductive PreparesTo (size : ChatEntry → ℕ) (room : ChatRoom) (sender : Member)
    (attempt : ChatAttempt) (saved : Option ChatEntry) (fresh : MessageId)
    (now : Time) : Preparation → Prop where
  | unknown (reason : ChatRetryReason) :
      PreparesTo size room sender attempt saved fresh now (attempt.unknown reason)
  | receipt (receipt : ChatReceipt) (hreceipt : receipt ∈ room.social.receipts) :
      PreparesTo size room sender attempt saved fresh now
        (.answered receipt.message.ack)
  | retained (entry : HistoryEntry) (hentry : entry ∈ room.social.history) :
      PreparesTo size room sender attempt saved fresh now
        (.answered entry.message.ack)
  | prepared (recipient : Option Recipient) (replyTo : Option ChatReplyRef)
      (hrecipient : room.resolveRecipient sender attempt.recipientId = .ok recipient)
      (hreply : room.resolveReply sender attempt.recipientId saved
        attempt.replyTo = .ok replyTo)
      (hlater : ∀ n ∈ attempt.sequence, sender.social.chatHighWater < n) :
      PreparesTo size room sender attempt saved fresh now
        (.prepared (preparedChat size room sender attempt recipient replyTo fresh
          now))

variable {saved : Option ChatEntry} {fresh : MessageId}

theorem prepareFor_preparesTo {sender : Member} {preparation : Preparation}
    (h : room.prepareFor size sender attempt saved fresh around = .ok preparation) :
    room.PreparesTo size sender attempt saved fresh around.now preparation := by
  unfold prepareFor at h
  split at h
  · cases h
  split at h
  · cases h
    exact .unknown _
  split at h
  · rename_i receipt hreceipt
    unfold ChatAttempt.answerReceipt at h
    split at h
    · split at h
      · cases h
      · cases h
        exact .unknown _
    · cases h
      exact .receipt receipt (mem_of_find?_eq_some hreceipt)
  unfold admitAttempt at h
  split at h
  · cases h
    exact .unknown _
  rename_i hsuperseded
  split at h
  · cases h
    exact .unknown _
  split at h
  · cases h
  split at h
  · rename_i entry hentry
    unfold ChatAttempt.answerRetained at h
    split at h
    · cases h
    · cases h
      exact .retained entry (mem_of_find?_eq_some hentry)
  unfold composeChat at h
  split at h
  · cases h
  rename_i recipient hrecipient
  split at h
  · cases h
  rename_i replyTo hreply
  simp only at h
  split at h
  · split at h
    · cases h
      exact .unknown _
    · cases h
  split at h
  · cases h
  cases h
  exact .prepared recipient replyTo hrecipient hreply (supersededBy_none hsuperseded)

def pruned (room : ChatRoom) (now : Time) : ChatRoom :=
  room.setSocial (room.social.pruneReceipts now)

theorem prepareChatAttempt_eq_ok {room' : ChatRoom} {preparation : Preparation}
    (h : room.prepareChatAttempt size requester attempt saved fresh around =
      (room', .ok preparation)) :
    room' = room.pruned around.now ∧ ∃ sender, room.participantForSender requester = .ok sender ∧
        (room.pruned around.now).PreparesTo size sender attempt saved fresh
          around.now preparation := by
  unfold prepareChatAttempt at h
  split at h
  · cases h
  split at h
  · cases h
  simp only at h
  split at h
  · cases h
  rename_i sender hsender
  obtain ⟨rfl, hprepare⟩ := Prod.mk.inj h
  exact ⟨rfl, sender, hsender, prepareFor_preparesTo hprepare⟩

theorem prepareChatAttempt_eq_error {room' : ChatRoom} {failure : SocialFailure}
    (h : room.prepareChatAttempt size requester attempt saved fresh around =
      (room', .error failure)) : room' = room ∨ room' = room.pruned around.now := by
  unfold prepareChatAttempt at h
  split at h
  · cases h
    exact .inl rfl
  split at h
  · cases h
    exact .inl rfl
  simp only at h
  split at h
  · cases h
    exact .inr rfl
  · exact .inr (Prod.mk.inj h).1.symm

theorem quiet_of_pruned {now : Time} {turn : Turn}
    (h : turn.Quiet size sources (room.pruned now)) : turn.Quiet size sources room :=
  ⟨(sameMembers_setSocial room _).trans h.members, h.accepted, h.frames, h.next, h.memory.of_pruned⟩

theorem Handles.of_pruned {now : Time} {chat : PreparedChat} {turn : Turn}
    (h : (room.pruned now).Handles size sources requester chat turn) :
    room.Handles size sources requester chat turn := by
  cases h with
  | quiet h => exact .quiet (quiet_of_pruned h)
  | saves members accepted frames next hnext hchat memory =>
    exact .saves ((sameMembers_setSocial room _).trans members) accepted frames
      next hnext hchat (.prune now memory)
  | accepts h =>
    obtain ⟨base, hbase, hmemory⟩ := h.memory
    refine .accepts ⟨h.id, h.deleting, ?_, h.accepted, h.frames, h.next, base,
      .prune now hbase, hmemory⟩
    rw [h.participants]
    unfold advanceHighWater
    cases chat.sequence <;> rfl

/-- The turn sends nothing, or handles a chat that was prepared for the attempt. -/
abbrev MaySend (room : ChatRoom) (size : ChatEntry → ℕ) (sources : Sources)
    (requester : Requester) (attempt : ChatAttempt) (fresh : MessageId) (turn : Turn) : Prop :=
  turn.Quiet size sources room ∨ ∃ chat, room.PreparedFor size requester attempt fresh chat ∧
    room.Handles size sources requester chat turn

theorem attemptTurn_cases {proceed : ChatRoom → PreparedChat → Turn} (hproceed : ∀ room' chat,
      Handles size sources room' requester chat (proceed room' chat)) :
    room.MaySend size sources requester attempt fresh
      (room.attemptTurn size requester around attempt saved fresh proceed) := by
  unfold attemptTurn
  split
  · rename_i room' failure heq
    rcases prepareChatAttempt_eq_error heq with rfl | rfl
    · exact .inl (fail_quiet _)
    · exact .inl (quiet_of_pruned (fail_quiet _))
  · rename_i room' message heq
    obtain ⟨rfl, sender, -, hprepares⟩ := prepareChatAttempt_eq_ok heq
    refine .inl (quiet_of_pruned ⟨.refl _, rfl, noDelivery_singleton ?_,
      (fun _ h => by cases h), .refl _⟩)
    cases hprepares <;> rfl
  · rename_i chat heq
    obtain ⟨rfl, sender, hsender, hprepares⟩ := prepareChatAttempt_eq_ok heq
    refine .inr ⟨chat, ?_, (hproceed _ chat).of_pruned⟩
    cases hprepares with
    | prepared recipient replyTo _ _ hlater =>
      exact ⟨rfl, ⟨sender, hsender, rfl, hlater⟩, rfl⟩

theorem finishTurn_next (chat : PreparedChat) :
    (room.finishTurn size requester around chat).next = none := by
  unfold finishTurn
  split <;> rfl

theorem immediateTurn_next (attempt : ChatAttempt) (fresh : MessageId) :
    (room.immediateTurn size requester around attempt fresh).next = none := by
  unfold immediateTurn attemptTurn
  split
  · rfl
  · rfl
  · exact finishTurn_next _

theorem controlledTurn_cases (attempt : ChatAttempt) (saved : Option ChatEntry)
    (fresh : MessageId) :
    room.MaySend size sources requester attempt fresh
      (room.controlledTurn size requester pool around attempt saved fresh) :=
  attemptTurn_cases fun _ chat => preparedTurn_handles chat

theorem submitTurn_cases (attempt : ChatAttempt) (fresh : MessageId) :
    room.MaySend size sources requester attempt fresh
      (room.submitTurn size requester pool around attempt fresh) := by
  unfold submitTurn
  split
  · exact controlledTurn_cases attempt none fresh
  split
  · exact .inl (fail_quiet _)
  split
  · exact controlledTurn_cases attempt none fresh
  · exact .inl (await_quiet _ _ rfl)

/-! ## Whole requests -/

theorem beginTurn_cases (fresh : MessageId) (request : ChatRequest) :
    (room.beginTurn size requester pool around fresh request).Quiet size
        (request.sources room pool) room ∨
      ∃ attempt chat, room.PreparedFor size requester attempt fresh chat ∧
        room.Handles size (request.sources room pool) requester chat
          (room.beginTurn size requester pool around fresh request) := by
  cases request with
  | chat attempt =>
    simp only [beginTurn]
    split
    · exact (attemptTurn_cases fun _ => finishTurn_handles).imp_right fun h => ⟨attempt, h⟩
    · exact (submitTurn_cases attempt fresh).imp_right fun h => ⟨attempt, h⟩
  | social request => exact .inl (beginSocial_quiet fresh request)

theorem beginTurn_id (fresh : MessageId) (request : ChatRequest) :
    (room.beginTurn size requester pool around fresh request).room.id = room.id := by
  rcases room.beginTurn_cases fresh request with
    h | ⟨_, chat, _, h⟩
  · exact h.members.id
  · exact h.id

theorem resumeTurn_cases (fresh : MessageId) (answer : Returning) :
    (room.resumeTurn size requester pool around fresh answer).Quiet size
        answer.sources room ∨
      (∃ attempt chat, room.PreparedFor size requester attempt fresh chat ∧
        room.Handles size answer.sources requester chat
          (room.resumeTurn size requester pool around fresh answer)) ∨
      ∃ chat, answer.chat? = some chat ∧
        (∃ member, room.participantForSender requester = .ok member) ∧
        room.Accepts size requester chat
          (room.resumeTurn size requester pool around fresh answer) := by
  unfold resumeTurn
  split
  · exact .inl (wait_quiet rfl)
  split
  · exact .inl (fail_quiet _)
  rename_i member hmember
  cases answer with
  | replyFound attempt saved =>
    exact (controlledTurn_cases attempt saved fresh).imp_right
      fun h => .inl ⟨attempt, h⟩
  | chatSaved chat =>
    exact (finishTurn_cases chat).imp_right
      fun h => .inr ⟨chat, rfl, ⟨member, hmember⟩, h⟩
  | editFound request found =>
    cases found with
    | none => exact .inl (fail_quiet _)
    | some message => exact .inl (editTurn_quiet message request)
  | editSaved message => exact .inl (publishEditTurn_quiet message)
  | removalFound id found =>
    cases found with
    | none => exact .inl (fail_quiet _)
    | some => exact .inl (removeFound_quiet rfl _ _ fresh)
  | removalSaved id removedAt => exact .inl (removalTurn_quiet rfl removedAt)
  | pinSet => exact .inl (wait_quiet rfl)
  | pinsRead changed pins => exact .inl (pinsTurn_quiet changed (.readsPins pins rfl))
  | reactedPublic id emoji message =>
    cases message with
    | none => exact .inl (reactTurn_quiet emoji fun _ => rfl)
    | some message => exact .inl (savedReactionTurn_quiet id message)
  | reactionsSaved id reactions => exact .inl (publishReactionTurn_quiet rfl reactions)
  | retentionSet days => exact .inl (retentionTurn_quiet days)

theorem resumeTurn_id (fresh : MessageId) (answer : Returning) :
    (room.resumeTurn size requester pool around fresh answer).room.id = room.id := by
  rcases room.resumeTurn_cases fresh answer with h | ⟨_, chat, _, h⟩ | ⟨_, _, _, h⟩
  · exact h.members.id
  · exact h.id
  · exact h.id

theorem completeUpdate_members (update : InboxUpdate) :
    SameMembers room (room.completeUpdate size update).1 := by
  unfold completeUpdate
  simp only
  split
  · exact .refl room
  split
  · exact .refl room
  split <;> exact sameMembers_setSocial room _

theorem completeUpdate_memory {update : InboxUpdate}
    (hupdate : update.message ∈ sources.reconciles) :
    MemoryOp size sources room.social (room.completeUpdate size update).1.social := by
  unfold completeUpdate
  simp only
  split
  · exact .same
  rename_i hrecipient
  split
  · exact .same
  split
  · exact .reconciles update.message hupdate (by simp [hrecipient])
  · exact .edits update.message

theorem completeUpdate_noDelivery (update : InboxUpdate) :
    NoDelivery (room.completeUpdate size update).2 := by
  unfold completeUpdate
  simp only
  split
  · exact noDelivery_nil
  split
  · exact noDelivery_nil
  split <;> exact broadcast_noDelivery rfl _

end ChatRoom

end SimplestChat
