import SimplestChat.Chat.Copies

/-!
# Every saved copy

The saved rows keep every lawful property of entries, and they lie where they
belong: a public row under this room, a private row under its two accounts.
What database work answers has the property, too.
-/

namespace SimplestChat

open List Option Transaction Transaction.Tx

variable {P : ChatEntry → Prop} {room : RoomId}

/-! ## Work that leaves the messages alone -/

section OtherTables

variable {I : Database → Prop}

def OfMessages (I : Database → Prop) : Prop :=
  ∀ db db' : Database, db'.messages = db.messages → I db → I db'

theorem ensures_update_of_messages (hI : OfMessages I)
    {g : Database → Database} (h : ∀ db, (g db).messages = db.messages) :
    (update g : Sql Unit).Ensures I fun _ => True :=
  ensures_update fun db hdb => hI db (g db) (h db) hdb

def OfChat (I : Database → Prop) : Prop :=
  ∀ db db' : Database, db'.messages = db.messages → db'.pins = db.pins → I db → I db'

theorem OfMessages.ofChat (hI : OfMessages I) : OfChat I :=
  fun db db' hmessages _ hdb => hI db db' hmessages hdb

theorem recordEvent_ensures (hI : OfChat I) (other : RoomId) (event : ModerationEvent) (cap : ℕ) :
    (recordEvent other event cap).Ensures I fun _ => True := by
  have hlink : (linkReport other event).Ensures I
      fun _ => True := by
    unfold linkReport
    split
    · exact ensures_pure trivial
    refine ensures_bind ensures_query_any fun target _ => ?_
    split
    · exact ensures_raise
    split
    · exact ensures_raise
    · exact ensures_update fun db hdb => hI db _ rfl rfl hdb
  exact ensures_seq hlink (ensures_seq (ensures_update fun db hdb => hI db _ rfl rfl hdb)
      (ensures_update fun db hdb => hI db _ rfl rfl hdb))

theorem setPin_ensures (hI : OfMessages I) (other : RoomId) (id : MessageId) (pinned : Bool) :
    (setPin other id pinned).Ensures I fun _ => True := by
  refine ensures_seq ensures_begin
    (ensures_seq (ensures_update fun _ hdb => hdb)
      (ensures_seq (ensures_update_of_messages hI fun _ => rfl)
        (ensures_seq ?_ ensures_commit)))
  unfold changePin
  split
  · refine ensures_bind ensures_query_any fun available _ => ?_
    split
    · refine ensures_bind ensures_query_any fun existing _ => ?_
      split
      · exact ensures_pure trivial
      refine ensures_bind ensures_query_any fun slot _ => ?_
      split
      · exact ensures_raise
      · exact ensures_update_of_messages hI fun _ => rfl
    · exact ensures_raise
  · exact ensures_update_of_messages hI fun _ => rfl

theorem reservePrivateMessage_ensures (message : ChatEntry) (now : Time) :
    (reservePrivateMessage message now).Ensures I
      fun _ => True := by
  unfold reservePrivateMessage
  split
  · exact ensures_pure trivial
  refine ensures_seq (ensures_update fun _ hdb => hdb) ?_
  refine ensures_bind ensures_query_any fun recent _ => ?_
  split
  · exact ensures_raise
  · exact ensures_pure trivial

theorem pendingMetadata_ensures (found : List ChatAttachment) (ids : List ℕ) :
    (pendingMetadata found ids).Ensures I
      fun _ => True := by
  unfold pendingMetadata
  split
  · exact ensures_raise
  split
  · exact ensures_pure trivial
  refine ensures_bind ensures_query_any fun metadata _ => ?_
  split
  · exact ensures_raise
  · exact ensures_pure trivial

theorem bindEphemeral_ensures (found : List ChatAttachment) (ids : List ℕ) :
    (bindEphemeral found ids).Ensures I fun _ => True :=
  ensures_seq ensures_begin
    (ensures_bind (pendingMetadata_ensures _ _) fun _ _ =>
      ensures_seq (ensures_update fun _ hdb => hdb)
        (ensures_seq ensures_commit (ensures_pure trivial)))

theorem admitPrivate_ensures (authenticated : Bool) (message : ChatEntry) :
    (admitPrivate authenticated message).Ensures I fun _ => True := by
  unfold admitPrivate
  split
  · exact ensures_pure trivial
  split
  · exact ensures_raise
  refine ensures_bind ensures_query_any fun allowed _ => ?_
  split
  · exact ensures_raise
  · exact ensures_pure trivial

theorem beginPrivateWrite_ensures (own peer : ParticipantId) :
    (beginPrivateWrite own peer).Ensures I
      fun _ => True := by
  refine ensures_seq ensures_begin ?_
  refine ensures_bind ensures_query_any fun present _ => ?_
  split
  · exact ensures_pure trivial
  · exact ensures_raise

theorem requireAllowed_ensures (own peer : ParticipantId) : (requireAllowed own peer).Ensures I
      fun _ => True := by
  refine ensures_bind ensures_query_any fun allowed _ => ?_
  split
  · exact ensures_pure trivial
  · exact ensures_raise

end OtherTables

/-! ## Rows -/

def ChatEntry.conversation (room : RoomId) (e : ChatEntry) : Conversation :=
  match e.recipientId with
  | none => .room room
  | some peer => privateConversation e.participantId peer

structure RowSound (P : ChatEntry → Prop) (room : RoomId) (row : MessageRow) : Prop where
  body : P row.body
  conversation : row.conversation = row.body.conversation room
  room : row.room = if row.body.recipientId.isNone then some room else none

/-- `P` holds of every saved message. -/
def Database.Sound (P : ChatEntry → Prop) (room : RoomId) (db : Database) : Prop :=
  ∀ row ∈ db.messages, RowSound P room row

variable {row : MessageRow}

theorem RowSound.setBody (h : RowSound P room row)
    {e : ChatEntry} (he : P e) (hauthor : e.participantId = row.body.participantId)
    (hrecipient : e.recipientId = row.body.recipientId) :
    RowSound P room { row with body := e } where
  body := he
  conversation := by
    rw [h.conversation]
    simp only [ChatEntry.conversation, hauthor, hrecipient]
  room := by rw [h.room, hrecipient]

theorem privateConversation_ne_room (a b : ParticipantId) (room : RoomId) :
    privateConversation a b ≠ .room room := by
  unfold privateConversation
  split <;> exact Conversation.noConfusion

theorem RowSound.isPrivate (h : RowSound P room row)
    {a b : ParticipantId} (hrow : row.conversation = privateConversation a b) :
    row.body.recipientId.isSome := by
  rw [h.conversation] at hrow
  unfold ChatEntry.conversation at hrow
  cases hrecipient : row.body.recipientId with
  | none =>
    rw [hrecipient] at hrow
    exact absurd hrow.symm (privateConversation_ne_room a b room)
  | some => rfl

theorem RowSound.isPublic (h : RowSound P room row)
    {other : RoomId} (hrow : row.room = some other) :
    row.body.recipientId = none := by
  rw [h.room] at hrow
  split at hrow
  · rename_i hnone
    exact isNone_iff_eq_none.mp hnone
  · cases hrow

namespace Database

variable {db : Database}

theorem Sound.map {g : MessageRow → MessageRow} (h : db.Sound P room)
    (hg : ∀ row ∈ db.messages, RowSound P room row → RowSound P room (g row)) :
    ({ db with messages := db.messages.map g } : Database).Sound P room := by
  intro row hrow
  obtain ⟨old, hold, rfl⟩ := List.mem_map.mp hrow
  exact hg old hold (h old hold)

theorem Sound.filter (test : MessageRow → Bool) (h : db.Sound P room) :
    ({ db with messages := db.messages.filter test } : Database).Sound P room :=
  fun row hrow => h row (mem_of_mem_filter hrow)

theorem Sound.mono {Q : ChatEntry → Prop} (h : db.Sound P room)
    (himp : ∀ e, P e → Q e) : db.Sound Q room :=
  fun row hrow => ⟨himp _ (h row hrow).body, (h row hrow).conversation, (h row hrow).room⟩

theorem Sound.of_messages {db' : Database} (h : db.Sound P room)
    (hmessages : db'.messages = db.messages) : db'.Sound P room := by
  intro row hrow
  rw [hmessages] at hrow
  exact h row hrow

theorem sound_ofMessages : OfMessages (Database.Sound P room) :=
  fun _ _ hmessages hdb => hdb.of_messages hmessages

theorem Sound.find {test : MessageRow → Bool} (h : db.Sound P room) :
    ∀ row ∈ db.messages.find? test, RowSound P room row :=
  fun row hrow => h row (List.mem_of_find?_eq_some hrow)

end Database

/-! ## Edits, reactions and removals -/

inductive RowChange (P : ChatEntry → Prop) (row : MessageRow) : MessageRow → Prop
  | same : RowChange P row row
  | react (reactions : List ChatReaction) :
    RowChange P row { row with body := { row.body with reactions } }
  | replace {edited : ChatEntry} (hedited : P edited)
    (hid : row.body.messageId = edited.messageId) :
    RowChange P row { row with body := edited }
  | requote {original : ChatEntry} (horiginal : P original)
    (hlive : original.removedAt = none) :
    RowChange P row { row with
      body := row.body.requote original.messageId (Text.quoteExcerpt original.content) }
  | erase {other : RoomId} (hpublic : row.room = some other) (removedAt : Time) :
    RowChange P row { row with body := row.body.erase removedAt }
  | unquote (id : MessageId) :
    RowChange P row { row with body := row.body.requote id removedExcerpt }

/-- An invariant of the database that these changes keep, while every message in it has
the property. -/
structure TableLaw (P : ChatEntry → Prop) (I : Database → Prop) : Prop
    extends ChangeLaw P where
  ofChat : OfChat I
  found : ∀ {db}, I db → ∀ row ∈ db.messages, P row.body
  map : ∀ {db g}, I db → (∀ row ∈ db.messages, RowChange P row (g row)) →
    I { db with messages := db.messages.map g }
  filter : ∀ {db} test, I db → I { db with messages := db.messages.filter test }
  unpin : ∀ {db} test, I db → I { db with pins := db.pins.filter test }

theorem RowChange.sound (law : EntryLaw P) {row' : MessageRow}
    (h : RowChange P row row') (hrow : RowSound P room row) :
    RowSound P room row' := by
  cases h with
  | same => exact hrow
  | react => exact hrow.setBody (law.setReactions _ _ hrow.body) rfl rfl
  | replace hedited hid =>
    -- the ID decides both ends
    obtain ⟨hauthor, hrecipient⟩ := law.same _ _ hedited hrow.body hid.symm
    exact hrow.setBody hedited hauthor hrecipient
  | requote horiginal hlive =>
    exact hrow.setBody (law.requote _ _ hrow.body horiginal hlive) rfl rfl
  | erase hpublic => exact hrow.setBody (law.erase _ _ hrow.body (hrow.isPublic hpublic)) rfl rfl
  | unquote => exact hrow.setBody (law.unquote _ _ hrow.body) rfl rfl

theorem EntryLaw.table (law : EntryLaw P) : TableLaw P (Database.Sound P room) where
  toChangeLaw := law.toChangeLaw
  ofChat := Database.sound_ofMessages.ofChat
  found hdb row hrow := (hdb row hrow).body
  map hdb hg := hdb.map fun row hrow => (hg row hrow).sound law
  filter test hdb := hdb.filter test
  unpin _ hdb := hdb.of_messages rfl

section Changes

variable {I : Database → Prop} (law : TableLaw P I)
include law

theorem TableLaw.find {db : Database} (hdb : I db) {test : MessageRow → Bool} :
    ∀ row ∈ db.messages.find? test, P row.body :=
  fun row hrow => law.found hdb row (List.mem_of_find?_eq_some hrow)

theorem TableLaw.updateRows {g : MessageRow → MessageRow} (hg : ∀ row, RowChange P row (g row)) :
    (update fun db => { db with messages := db.messages.map g } :
      Sql Unit).Ensures I fun _ => True :=
  ensures_update fun _ hdb => law.map hdb fun row _ => hg row

theorem saveReactions_ensures (id : MessageId) (reactions : List ChatReaction) :
    (saveReactions id reactions).Ensures I fun _ => True := by
  refine ensures_autocommit (fun _ hdb => law.map hdb fun row _ => ?_) fun _ _ => trivial
  split
  · exact .react reactions
  · exact .same

theorem toggleSavedReaction_ensures {message : ChatEntry} (hmessage : P message)
    (reactor : ParticipantId) (emoji : String) :
    (toggleSavedReaction message reactor emoji).Ensures I
      fun saved => ∀ e ∈ saved, P e := by
  unfold toggleSavedReaction
  split
  · exact ensures_raise
  refine ensures_seq (law.updateRows fun row => ?_) (ensures_seq ensures_commit (ensures_pure ?_))
  · split
    · exact .react _
    · exact .same
  · rintro e ⟨⟩
    exact law.setReactions message _ hmessage

theorem reactPublic_ensures (id : MessageId) (reactor : ParticipantId)
    (ignored : List ParticipantId) (emoji : String) :
    (reactPublic room id reactor ignored emoji).Ensures I
      fun saved => ∀ e ∈ saved, P e := by
  refine ensures_seq ensures_begin
    (ensures_seq (ensures_update fun _ hdb => hdb) ?_)
  refine ensures_bind (ensures_query (Q := fun saved => ∀ row ∈ saved, P row.body)
    fun _ hdb row hrow => law.find hdb row (mem_filter_iff.mp hrow).1)
    fun saved hsaved => ?_
  cases saved with
  | none => exact ensures_pure (by simp)
  | some row => exact toggleSavedReaction_ensures law (hsaved row rfl) _ _

def EditAnswer (P : ChatEntry → Prop) (edited : ChatEntry) : Prop :=
  P edited ∧ edited.removedAt = none

theorem saveEdit_ensures (conversation : Conversation) (now : Time)
    {saved : ChatEntry} (hsaved : P saved) (request : EditRequest) :
    (saveEdit conversation now saved request).Ensures I (EditAnswer P) := by
  unfold saveEdit
  split
  · exact ensures_raise
  rename_i edited hedit
  have hanswer : EditAnswer P edited := ⟨law.applyEdit hsaved hedit, applyEdit_removedAt hedit⟩
  have hid : saved.messageId = edited.messageId := by
    obtain ⟨_, rfl | ⟨content, revision, editedAt, rfl⟩⟩ := applyEdit_eq_ok hedit
    · rfl
    · rfl
  split
  · exact ensures_pure hanswer
  refine ensures_seq (law.updateRows fun row => ?_)
    (ensures_seq (law.updateRows fun row => ?_) (ensures_pure hanswer))
  · split
    · rename_i hsame
      exact .replace hanswer.1 (hsame.trans hid)
    · exact .same
  · rw [hid]
    split
    · exact .requote hanswer.1 hanswer.2
    · exact .same

theorem editAndCommit_ensures (conversation : Conversation)
    (actor : ParticipantId) (guestSession : Option SessionId) (id : MessageId)
    (now : Time) (request : EditRequest) :
    (editAndCommit conversation actor guestSession id now request).Ensures I
      (EditAnswer P) := by
  have hedit : (editInTransaction conversation actor guestSession id now
      request).Ensures I (EditAnswer P) := by
    refine ensures_seq (ensures_update fun _ hdb => hdb) ?_
    refine ensures_bind (ensures_query (Q := fun saved => ∀ row ∈ saved, P row.body)
      fun _ hdb => law.find hdb) fun saved hsaved => ?_
    cases saved with
    | none => exact ensures_raise
    | some row =>
      exact saveEdit_ensures law conversation now
        (law.conversationMessage conversation (hsaved row rfl)) request
  exact ensures_bind hedit fun edited hedited =>
    ensures_seq ensures_commit (ensures_pure hedited)

theorem editSaved_ensures (actor : ParticipantId) (guestSession : Option SessionId)
    (original : ChatEntry) (now : Time) (request : EditRequest) :
    (editSaved room actor guestSession original now request).Ensures I
      (EditAnswer P) := by
  refine ensures_seq ensures_begin ?_
  split
  · unfold editPrivate
    split
    · exact ensures_raise
    refine ensures_bind ensures_query_any fun allowed _ => ?_
    split
    · exact ensures_raise
    · exact editAndCommit_ensures law _ _ _ _ _ _
  · exact editAndCommit_ensures law _ _ _ _ _ _

theorem savePrivateEdit_ensures (own peer : ParticipantId) (id : MessageId) (now : Time)
    (request : EditRequest) :
    (savePrivateEdit own peer id now request).Ensures I (EditAnswer P) :=
  ensures_seq (beginPrivateWrite_ensures own peer)
    (ensures_seq (requireAllowed_ensures own peer)
      (ensures_seq (ensures_update fun _ hdb => hdb)
        (editAndCommit_ensures law _ _ _ _ _ _)))

theorem savePrivateReaction_ensures (own peer : ParticipantId) (id : MessageId)
    (emoji : String) (present : Bool) :
    (savePrivateReaction own peer id emoji present).Ensures I P := by
  refine ensures_seq (beginPrivateWrite_ensures own peer)
    (ensures_seq (requireAllowed_ensures own peer)
      (ensures_seq (ensures_update fun _ hdb => hdb)
        (ensures_seq (ensures_update fun _ hdb => hdb) ?_)))
  refine ensures_bind (ensures_query (Q := fun found => ∀ row ∈ found, P row.body)
    fun _ hdb row hrow => law.find hdb row (mem_filter_iff.mp hrow).1)
    fun found hfound => ?_
  cases found with
  | none => exact ensures_raise
  | some row =>
    have hbody := law.conversationMessage (privateConversation own peer) (hfound row rfl)
    simp only [setSavedReaction]
    split
    · exact ensures_raise
    refine ensures_seq (law.updateRows fun row => ?_)
      (ensures_seq ensures_commit (ensures_pure (law.setReactions _ _ hbody)))
    split
    · exact .react _
    · exact .same

theorem setRetention_ensures (other : RoomId) (days : ℕ) (isOlder : MessageRow → Bool) :
    (setRetention other days isOlder).Ensures I fun _ => True := by
  unfold setRetention
  split
  · exact ensures_raise
  refine ensures_seq ensures_begin ?_
  refine ensures_bind (ensures_statement (Q := fun _ => True)
    (fun db hdb => law.ofChat db _ rfl rfl hdb) fun _ _ => trivial) fun affected _ => ?_
  split
  · refine ensures_seq (ensures_update fun _ hdb => law.unpin _ (law.filter _ hdb))
      (ensures_seq (ensures_update fun _ hdb => hdb)
        (ensures_seq (ensures_update fun _ hdb => hdb)
          (ensures_seq ?_ ensures_commit)))
    unfold dropReadCursors
    split
    · exact ensures_update fun _ hdb => hdb
    · exact ensures_pure trivial
  · exact ensures_raise

theorem persistRemoval_ensures (other : RoomId) (keepsHistory : Bool)
    (id : MessageId) (removedAt : Time) (event : ModerationEvent) :
    (persistRemoval other keepsHistory id removedAt event).Ensures I
      fun _ => True := by
  have hremove : (removePublic other keepsHistory id removedAt).Ensures I
      fun _ => True := by
    unfold removePublic
    split
    · refine ensures_seq (ensures_update fun _ hdb => hdb)
        (ensures_seq (law.updateRows fun row => ?_)
          (ensures_seq (ensures_update fun _ hdb => hdb)
            (ensures_seq (law.updateRows fun row => ?_)
              (ensures_update fun _ hdb => law.unpin _ hdb))))
      · split
        · rename_i hmatch
          exact .erase hmatch.1 _
        · exact .same
      · split
        · exact .unquote id
        · exact .same
    · exact ensures_pure trivial
  exact ensures_seq ensures_begin
    (ensures_seq hremove
      (ensures_seq (ensures_update fun _ hdb => hdb)
        (ensures_seq (recordEvent_ensures law.ofChat other event _) ensures_commit)))

end Changes

/-! ## Messages -/

structure Unsaved (P : ChatEntry → Prop) (message e : ChatEntry) : Prop where
  lawful : P e
  removedAt : e.removedAt = none
  participantId : e.participantId = message.participantId
  recipientId : e.recipientId = message.recipientId

section Messages

variable (law : EntryLaw P)

variable {place : Option RoomId} {message : ChatEntry}

section

variable (hplace : place = if message.recipientId.isNone then some room else none)
include hplace

theorem savedConversation_eq_some {authenticated : Bool} {conversation : Conversation}
    (h : savedConversation place authenticated message = some conversation) :
    conversation = message.conversation room := by
  unfold savedConversation at h
  unfold ChatEntry.conversation
  cases hrecipient : message.recipientId with
  | none =>
    rw [hrecipient] at hplace h
    subst hplace
    simpa using h.symm
  | some =>
    rw [hrecipient] at hplace h
    subst hplace
    cases authenticated with
    | false => cases h
    | true => simpa using h.symm

theorem insertRow_ensures {e : ChatEntry} (session : SessionId) (authenticated : Bool)
    (he : Unsaved P message e) :
    (insertRow place (message.conversation room) session authenticated e).Ensures
      (Database.Sound P room) P := by
  refine ensures_seq (ensures_update fun db hdb row hrow => ?_) (ensures_pure he.lawful)
  rcases mem_append.mp hrow with hold | hnew
  · exact hdb row hold
  rw [mem_singleton.mp hnew]
  refine ⟨he.lawful, ?_, ?_⟩
  · simp only [ChatEntry.conversation, he.participantId, he.recipientId]
  · rw [he.recipientId]
    exact hplace

end

theorem answerSaved_ensures (law : EntryLaw P) (conversation : Conversation)
    {existing : ChatEntry} (message : ChatEntry) (ids : List ℕ)
    (hexisting : P existing) :
    (answerSaved conversation existing message ids).Ensures
      (Database.Sound P room) P := by
  unfold answerSaved
  split
  · exact ensures_raise
  · exact ensures_pure (law.conversationMessage conversation hexisting)

include law

theorem refreshQuote_ensures (conversation : Conversation)
    {e : ChatEntry} (he : Unsaved P message e) :
    (refreshQuote conversation e).Ensures (Database.Sound P room)
      (Unsaved P message) := by
  unfold refreshQuote
  split
  · exact ensures_pure he
  refine ensures_bind (ensures_query (Q := fun original => ∀ row ∈ original, RowSound P room row)
    fun _ hdb => Database.Sound.find hdb) fun original horiginal => ?_
  refine ensures_pure ⟨law.refreshReply he.lawful fun o ho => ?_, ?_, ?_, ?_⟩
  · obtain ⟨row, hrow, rfl⟩ := map_eq_some_iff.mp ho
    exact (horiginal row hrow).body
  · cases original <;> exact he.removedAt
  · cases original <;> exact he.participantId
  · cases original <;> exact he.recipientId

section

variable (hplace : place = if message.recipientId.isNone then some room else none)
include hplace

theorem insertNew_ensures (session : SessionId) (authenticated : Bool) (now : Time)
    (found : List ChatAttachment) (ids : List ℕ) (hmessage : P message)
    (hremoved : message.removedAt = none) :
    (insertNew place (message.conversation room) session authenticated now found
      (conversationMessage (message.conversation room) message) ids).Ensures
      (Database.Sound P room) P := by
  have hstart := law.conversationMessage (message.conversation room) hmessage
  refine ensures_seq (reservePrivateMessage_ensures _ now) ?_
  split
  · exact ensures_raise
  refine ensures_bind (pendingMetadata_ensures found ids) fun files _ => ?_
  have hready : Unsaved P message { conversationMessage (message.conversation room) message with
        attachments := files } :=
    ⟨law.attach _ files hstart hremoved, hremoved, rfl, rfl⟩
  exact ensures_bind (refreshQuote_ensures law _ hready) fun quoted hquoted =>
    insertRow_ensures hplace session authenticated hquoted

theorem insertMessage_ensures (session : SessionId) (authenticated : Bool) (now : Time)
    (found : List ChatAttachment) (ids : List ℕ) (hmessage : P message)
    (hremoved : message.removedAt = none) :
    (insertMessage place session authenticated now found message ids).Ensures
      (Database.Sound P room) P := by
  unfold insertMessage
  split
  · exact ensures_raise
  rename_i hconversation
  have hwhere := savedConversation_eq_some hplace hconversation
  subst hwhere
  refine ensures_seq (ensures_update fun _ hdb => hdb) ?_
  refine ensures_bind (ensures_query (Q := fun existing => ∀ row ∈ existing, RowSound P room row)
    fun _ hdb => Database.Sound.find hdb) fun existing hexisting => ?_
  cases existing with
  | some row => exact answerSaved_ensures law _ message ids (hexisting row rfl).body
  | none => exact insertNew_ensures law hplace session authenticated now found ids hmessage hremoved

end

theorem persistMessage_ensures (session : SessionId)
    (authenticated : Bool) (now : Time) (found : List ChatAttachment)
    (ids : List ℕ) (hmessage : P message) (hremoved : message.removedAt = none) :
    (persistMessage (if message.recipientId.isNone then some room else none)
      session authenticated now found message ids).Ensures
      (Database.Sound P room) P := by
  refine ensures_seq ensures_begin
    (ensures_seq (admitPrivate_ensures authenticated message) ?_)
  exact ensures_bind (insertMessage_ensures law rfl session authenticated now found ids hmessage
      hremoved)
    fun saved hsaved => ensures_seq ensures_commit (ensures_pure hsaved)

end Messages

/-! ## HTTP writes -/

section Http

variable (law : EntryLaw P)

def LiveRow (P : ChatEntry → Prop) (row : MessageRow) : Prop :=
  P row.body ∧ row.body.removedAt = none ∧ row.body.recipientId.isSome

theorem liveRow_of_conversationRow {db : Database} (hdb : db.Sound P room)
    {own peer : ParticipantId} {id : MessageId} :
    ∀ row ∈ (db.conversationRow (privateConversation own peer) id).filter
      (fun row => row.body.removedAt.isNone),
      LiveRow P row ∧ row.body.messageId = id := by
  intro row hrow
  obtain ⟨hfound, hlive⟩ := mem_filter_iff.mp hrow
  have hsound := hdb.find row hfound
  have htest := List.find?_some hfound
  simp only [Bool.and_eq_true, decide_eq_true_eq, Bool.not_eq_true'] at htest
  exact ⟨⟨hsound.body, isNone_iff_eq_none.mp hlive, hsound.isPrivate htest.1.1⟩, htest.1.2⟩

theorem quoteSaved_ensures (own peer : ParticipantId) (replyTo : Option MessageId) :
    (quoteSaved (privateConversation own peer) replyTo).Ensures
      (Database.Sound P room) fun quoted => ∀ reply ∈ quoted,
        ∃ original, P original ∧ original.removedAt = none ∧ original.recipientId.isSome ∧
          reply.messageId = original.messageId ∧
          reply.excerpt = Text.quoteExcerpt original.content := by
  cases replyTo with
  | none => exact ensures_pure (by simp)
  | some id =>
    refine ensures_bind (ensures_query
      (Q := fun found => ∀ row ∈ found, LiveRow P row ∧ row.body.messageId = id)
      fun _ hdb => liveRow_of_conversationRow hdb) fun found hfound => ?_
    cases found with
    | none => exact ensures_raise
    | some row =>
      obtain ⟨⟨hbody, hlive, hprivate⟩, hid⟩ := hfound row rfl
      refine ensures_pure ?_
      rintro reply ⟨⟩
      exact ⟨row.body, hbody, hlive, hprivate, hid.symm, rfl⟩

include law

section

variable (own peer : ParticipantId)
include own peer

theorem privateMessage_ensures (id : MessageId) :
    (privateMessage own peer id).Ensures (Database.Sound P room) fun found =>
      ∀ e ∈ found, P e := by
  refine ensures_autocommit (fun _ hdb => hdb) fun db hdb e he => ?_
  obtain ⟨row, hrow, rfl⟩ := map_eq_some_iff.mp he
  exact law.conversationMessage _ (hdb.find row (mem_filter_iff.mp hrow).1).body

theorem savePrivateMessage_ensures (request : SendRequest) {fresh : MessageId}
    (now : Time) (found : List ChatAttachment)
    (hnew : ∀ e, Composed P fresh (own, some peer) e → P e) :
    (savePrivateMessage own peer request fresh now found).Ensures
      (Database.Sound P room) fun saved => P saved.1 := by
  refine ensures_seq (beginPrivateWrite_ensures own peer)
    (ensures_seq (ensures_update fun _ hdb => hdb) ?_)
  refine ensures_bind (ensures_query (Q := fun existing => ∀ row ∈ existing, RowSound P room row)
    fun _ hdb row hrow => hdb.find row (mem_filter_iff.mp hrow).1)
    fun existing hexisting => ?_
  cases existing with
  | some row =>
    simp only [answerSent]
    split
    · exact ensures_raise
    · exact ensures_pure (law.conversationMessage _ (hexisting row rfl).body)
  | none =>
    refine ensures_seq (requireAllowed_ensures own peer) ?_
    refine ensures_bind (quoteSaved_ensures own peer request.replyTo)
      fun replyTo hreply => ?_
    refine ensures_bind ensures_query_any fun names _ => ?_
    have hmessage : P (request.entry own peer names replyTo fresh now) :=
      hnew _ ⟨rfl, rfl, rfl, rfl, fun reply h => by
        obtain ⟨original, horiginal, hlive, hprivate, hrest⟩ := hreply reply h
        exact ⟨original, horiginal, hlive, hprivate, hrest⟩⟩
    exact ensures_bind (insertMessage_ensures law rfl _ true now found _ hmessage rfl)
      fun saved hsaved => ensures_seq ensures_commit (ensures_pure hsaved)

end

end Http

/-! ## Waits -/

def PublicId (P : ChatEntry → Prop) (id : MessageId) : Prop :=
  ∃ e, P e ∧ e.messageId = id ∧ e.recipientId = none

def Waiting.Sound (P : ChatEntry → Prop) : Waiting → Prop
  | replyLookup attempt _ => attempt.recipientId = none
  | persistChat chat | attachFiles chat => P chat.message ∧ chat.message.removedAt = none
  | persistEdit original _ _ => P original
  | persistRemoval id _ _ _ | dropFiles id _ => PublicId P id
  | _ => True

def Returning.Sound (P : ChatEntry → Prop) : Returning → Prop
  | replyFound attempt saved => attempt.recipientId = none ∧ ∀ e ∈ saved, P e
  | chatSaved chat => P chat.message
  | editFound _ found => ∀ e ∈ found, P e
  | editSaved message => EditAnswer P message
  | removalFound id found =>
    ∀ original ∈ found, P original.1 ∧ original.1.messageId = id ∧ original.1.recipientId = none
  | removalSaved id _ => PublicId P id
  | pinsRead _ pins => ∀ pin ∈ pins, P pin
  | reactedPublic _ _ message => ∀ e ∈ message, P e
  | _ => True

variable {Q : ChatEntry → Prop}

theorem PublicId.mono {id : MessageId}
    (h : PublicId P id) (himp : ∀ e, P e → Q e) : PublicId Q id := by
  obtain ⟨e, he, hrest⟩ := h
  exact ⟨e, himp e he, hrest⟩

theorem Waiting.Sound.mono {w : Waiting} (h : w.Sound P) (himp : ∀ e, P e → Q e) : w.Sound Q := by
  cases w with
  | persistChat | attachFiles => exact ⟨himp _ h.1, h.2⟩
  | persistEdit => exact himp _ h
  | persistRemoval | dropFiles => exact PublicId.mono h himp
  | _ => exact h

theorem Returning.Sound.mono {answer : Returning}
    (h : answer.Sound P) (himp : ∀ e, P e → Q e) : answer.Sound Q := by
  cases answer with
  | replyFound => exact ⟨h.1, fun e he => himp e (h.2 e he)⟩
  | chatSaved => exact himp _ h
  | editFound | pinsRead | reactedPublic => exact fun e he => himp e (h e he)
  | editSaved => exact ⟨himp _ h.1, h.2⟩
  | removalFound => exact fun original ho => ⟨himp _ (h original ho).1, (h original ho).2⟩
  | removalSaved => exact PublicId.mono h himp
  | _ => exact h

theorem lookupPublic_ensures (id : MessageId) :
    (lookupPublic room id).Ensures (Database.Sound P room) fun found =>
      ∀ original ∈ found, P original.1 ∧ original.1.messageId = id ∧
        original.1.recipientId = none := by
  refine ensures_autocommit (fun _ hdb => hdb) fun db hdb original h => ?_
  obtain ⟨row, hrow, rfl⟩ := map_eq_some_iff.mp h
  have hsound := hdb.find row hrow
  have htest := List.find?_some hrow
  simp only [Bool.and_eq_true, decide_eq_true_eq] at htest
  exact ⟨hsound.body, htest.1.2, hsound.isPublic htest.1.1⟩

theorem lookup_entries {found : Option (ChatEntry × Bool)}
    (h : ∀ original ∈ found, P original.1) : ∀ e ∈ found.map Prod.fst, P e := by
  intro e he
  obtain ⟨original, horiginal, rfl⟩ := map_eq_some_iff.mp he
  exact h original horiginal

theorem pinnedMessages_sound {db : Database} (hdb : db.Sound P room) :
    ∀ pin ∈ db.pinnedMessages room, P pin := by
  intro pin hpin
  obtain ⟨row, -, hrow⟩ := mem_filterMap.mp (mem_of_mem_take hpin)
  obtain ⟨found, hfound, rfl⟩ := map_eq_some_iff.mp hrow
  exact (hdb.find found hfound).body

theorem Waiting.work_ensures (law : EntryLaw P) (size : ChatEntry → ℕ)
    (actor : ParticipantId) (around : Surroundings) {next : Waiting}
    (hnext : next.Sound P) :
    (next.work size room actor around).Ensures (Database.Sound P room)
      (Returning.Sound P) := by
  cases next with
  | replyLookup attempt id =>
    exact ensures_bind (lookupPublic_ensures id) fun found hfound =>
      ensures_pure
        ⟨hnext, lookup_entries fun original h => (hfound original h).1⟩
  | persistChat =>
    exact ensures_bind (persistMessage_ensures law _ _ _ _ _ hnext.1 hnext.2)
      fun message hmessage => ensures_pure hmessage
  | attachFiles chat =>
    exact ensures_bind (bindEphemeral_ensures _ _) fun files _ =>
      ensures_pure (law.attach chat.message files hnext.1 hnext.2)
  | editLookup id =>
    exact ensures_bind (lookupPublic_ensures id) fun found hfound =>
      ensures_pure (lookup_entries fun original h => (hfound original h).1)
  | persistEdit =>
    exact ensures_bind (editSaved_ensures law.table _ _ _ _ _) fun message hmessage =>
      ensures_pure hmessage
  | removalLookup id =>
    exact ensures_bind (lookupPublic_ensures id) fun found hfound =>
      ensures_pure hfound
  | persistRemoval =>
    exact ensures_bind (persistRemoval_ensures law.table _ _ _ _ _) fun _ _ =>
      ensures_pure hnext
  | dropFiles =>
    exact ensures_bind (ensures_autocommit (Q := fun _ => True) (fun _ hdb => hdb)
        fun _ _ => trivial)
      fun _ _ => ensures_pure hnext
  | setPin =>
    exact ensures_bind (setPin_ensures Database.sound_ofMessages _ _ _)
      fun _ _ => ensures_pure trivial
  | readPins =>
    exact ensures_bind (ensures_autocommit (Q := fun pins => ∀ pin ∈ pins, P pin)
        (fun _ hdb => hdb) fun _ hdb => pinnedMessages_sound hdb)
      fun pins hpins => ensures_pure hpins
  | reactPublic =>
    exact ensures_bind (reactPublic_ensures law.table _ _ _ _) fun message hmessage =>
      ensures_pure hmessage
  | saveReactions =>
    exact ensures_bind (saveReactions_ensures law.table _ _) fun _ _ =>
      ensures_pure trivial
  | retention =>
    exact ensures_bind (setRetention_ensures law.table _ _ _) fun _ _ =>
      ensures_pure trivial

end SimplestChat
