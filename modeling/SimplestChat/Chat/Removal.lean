import SimplestChat.Chat.Identity

/-!
# Removed messages stay removed

A moderator's removal erases a public message in the history and the receipts
and drops its own pin. The replies to it that are pinned keep their quotes:
the pins are the one place where a removal does not rewrite what others quote.

`Hides m` says of one entry that it shows nothing of the removed message `m`.
It is a lawful property, so once every copy has it, every later copy and every
later frame has it too.
-/

namespace SimplestChat

open List Option Transition Transaction Transaction.Tx

/-- The entry shows nothing of the text and the files of message `m`: a copy
of `m` is erased, and a quote of `m` says that it was removed. -/
structure Hides (m : MessageId) (e : ChatEntry) : Prop where
  erased : e.messageId = m → e.content = [] ∧ e.attachments = [] ∧ e.removedAt.isSome
  quotes : ∀ reply, e.replyTo = some reply → reply.messageId = m → reply.excerpt = removedExcerpt

instance (m : MessageId) (e : ChatEntry) : Decidable (Hides m e) :=
  decidable_of_iff ((e.messageId = m → e.content = [] ∧ e.attachments = [] ∧ e.removedAt.isSome) ∧
    ∀ reply ∈ e.replyTo, reply.messageId = m → reply.excerpt = removedExcerpt)
    ⟨fun h => ⟨h.1, h.2⟩, fun h => ⟨h.erased, h.quotes⟩⟩

/-- Every copy in the room's memory hides `m`. -/
def RoomSocial.Scrubbed (m : MessageId) (s : RoomSocial) : Prop :=
  ∀ e ∈ s.entries, Hides m e

variable {m : MessageId}

/-! ## A lawful property -/

variable {e : ChatEntry}

theorem Hides.ne_of_live (h : Hides m e) (hlive : e.removedAt = none) : e.messageId ≠ m := by
  intro hid
  have hremoved := (h.erased hid).2.2
  rw [hlive] at hremoved
  cases hremoved

theorem hides_law (m : MessageId) : ChangeLaw (Hides m) where
  setReactions _ _ h := ⟨h.erased, h.quotes⟩
  setAccount _ _ h := ⟨h.erased, h.quotes⟩
  attach _ _ h hlive := ⟨fun hid => absurd hid (h.ne_of_live hlive), h.quotes⟩
  edit _ _ _ _ h hlive := ⟨fun hid => absurd hid (h.ne_of_live hlive), h.quotes⟩
  requote e original h horiginal hlive := by
    refine ⟨h.erased, fun reply hreply hid => ?_⟩
    obtain ⟨old, hold, hsame, hexcerpt⟩ := requote_eq_some hreply
    rw [hsame] at hid
    have hne : old.messageId ≠ original.messageId := by
      rw [hid]
      exact (horiginal.ne_of_live hlive).symm
    rw [if_neg hne] at hexcerpt
    rw [hexcerpt]
    exact h.quotes old hold hid
  erase _ _ _ _ := ⟨fun _ => ⟨rfl, rfl, rfl⟩, (fun _ h => by cases h)⟩
  unquote e id h := by
    refine ⟨h.erased, fun reply hreply hid => ?_⟩
    obtain ⟨old, hold, hsame, hexcerpt⟩ := requote_eq_some hreply
    rw [hexcerpt]
    split
    · rfl
    · exact h.quotes old hold (hsame ▸ hid)

theorem Composed.hides {fresh : MessageId} {ends : Ends}
    (h : Composed (Hides m) fresh ends e) (hm : m < fresh) : Hides m e where
  erased hid := by
    rw [h.messageId] at hid
    exact absurd hid (Nat.ne_of_gt hm)
  quotes reply hreply hid := by
    obtain ⟨original, horiginal, hlive, -, hsame, -⟩ := h.quotes reply hreply
    rw [hsame] at hid
    exact absurd hid (horiginal.ne_of_live hlive)

/-! ## The memory after a removal -/

/-- The entry is a copy or a quote of `m`. -/
def About (m : MessageId) (e : ChatEntry) : Prop :=
  e.messageId = m ∨ ∃ reply, e.replyTo = some reply ∧ reply.messageId = m

theorem hides_of_not_about (h : ¬About m e) : Hides m e where
  erased hid := absurd (.inl hid) h
  quotes reply hreply hid := absurd (.inr ⟨reply, hreply, hid⟩) h

theorem Known.isPublic {ends : MessageId → Ends} {next : MessageId}
    (h : Known ends next e) (hpublic : (ends m).2 = none)
    (habout : About m e) : e.recipientId = none := by
  rcases habout with hid | ⟨reply, hreply, hid⟩
  · have hends := h.own
    rw [hid] at hends
    rw [hends] at hpublic
    exact hpublic
  · have hkind := (h.quotes reply hreply).2
    rw [hid, hpublic] at hkind
    exact isNone_iff_eq_none.mp (isSome_eq_false_iff.mp hkind.symm)

theorem hides_requote
    (h : e.messageId = m → e.content = [] ∧ e.attachments = [] ∧ e.removedAt.isSome) :
    Hides m (e.requote m removedExcerpt) := by
  refine ⟨h, fun reply hreply hid => ?_⟩
  obtain ⟨old, -, hsame, hexcerpt⟩ := requote_eq_some hreply
  rw [hexcerpt, if_pos (hsame ▸ hid)]

theorem redactMessage_hides (hpublic : About m e → e.recipientId = none) (removedAt : Time) :
    Hides m (redactMessage m removedAt e) := by
  unfold redactMessage
  split
  · rename_i hprivate
    refine hides_of_not_about fun habout => ?_
    rw [hpublic habout] at hprivate
    cases hprivate
  split
  · exact ⟨fun _ => ⟨rfl, rfl, rfl⟩, (fun _ h => by cases h)⟩
  rename_i hother
  exact hides_requote fun hid => absurd hid hother

/-! ## The rows after a removal -/

/-- The expired rows of `m` show nothing of it. -/
def Database.ExpiredHide (m : MessageId) (db : Database) : Prop :=
  ∀ row ∈ db.messages, row.body.messageId = m → row.expired = true → Hides m row.body

theorem Database.redact_hides {db : Database} {room : RoomId} {removedAt : Time}
    (hrooms : ∀ row ∈ db.messages, About m row.body → row.room = some room)
    (hexpired : db.ExpiredHide m) :
    ∀ row ∈ ((db.redactPublic room m removedAt).redactQuotes room m).messages,
      Hides m row.body := by
  intro row hrow
  obtain ⟨redacted, hredacted, rfl⟩ := List.mem_map.mp hrow
  obtain ⟨old, hold, rfl⟩ := List.mem_map.mp hredacted
  by_cases herased : old.room = some room ∧ old.body.messageId = m ∧ old.expired = false
  · simp only [if_pos herased, if_pos herased.1]
    exact hides_requote fun _ => ⟨rfl, rfl, rfl⟩
  simp only [if_neg herased]
  by_cases hroom : old.room = some room
  · rw [if_pos hroom]
    refine hides_requote fun hid => (hexpired old hold hid ?_).erased hid
    by_contra hlive
    exact herased ⟨hroom, hid, Bool.eq_false_iff.mpr hlive⟩
  · rw [if_neg hroom]
    exact hides_of_not_about fun habout => hroom (hrooms old hold habout)

section

variable {room : RoomId} {event : ModerationEvent}
  {conn conn' : Transaction.Connection Database DriverError}

theorem linkReport_messages {u : Unit} (h : linkReport room event conn = (.ok u, conn')) :
    conn'.work.messages = conn.work.messages := by
  unfold linkReport at h
  cases hreport : event.reportId with
  | none =>
    simp only [hreport] at h
    cases h
    rfl
  | some report =>
    simp only [hreport] at h
    obtain ⟨target, c₁, hquery, h⟩ := bind_eq_ok.mp h
    have hsame : c₁.work = conn.work := (statement_eq_ok hquery).2.2
    cases target with
    | none => cases h
    | some target =>
      dsimp only at h
      split_ifs at h
      · cases h
      · rw [(update_eq_ok h).2, hsame]
        rfl

theorem persistRemoval_messages {removedAt : Time} {u : Unit}
    (h : persistRemoval room true m removedAt event conn = (.ok u, conn')) :
    conn'.saved.messages =
      ((conn.saved.redactPublic room m removedAt).redactQuotes room m).messages := by
  unfold persistRemoval removePublic recordEvent at h
  obtain ⟨_, c₁, hbegin, h⟩ := bind_eq_ok.mp h
  obtain ⟨_, c₂, hremove, h⟩ := bind_eq_ok.mp h
  obtain ⟨_, c₃, hfiles, h⟩ := bind_eq_ok.mp h
  obtain ⟨_, c₄, hrecord, h⟩ := bind_eq_ok.mp h
  obtain ⟨_, d₁, hlink, hrecord⟩ := bind_eq_ok.mp hrecord
  obtain ⟨_, d₂, hinsert, hdrop⟩ := bind_eq_ok.mp hrecord
  have hevents : c₄.work.messages = c₃.work.messages := by
    rw [(update_eq_ok hdrop).2, (update_eq_ok hinsert).2]
    exact linkReport_messages hlink
  rw [if_pos rfl] at hremove
  obtain ⟨_, e₁, hlock, hremove⟩ := bind_eq_ok.mp hremove
  obtain ⟨_, e₂, hredact, hremove⟩ := bind_eq_ok.mp hremove
  obtain ⟨_, e₃, hattached, hremove⟩ := bind_eq_ok.mp hremove
  obtain ⟨_, e₄, hquotes, hpin⟩ := bind_eq_ok.mp hremove
  rw [commit_eq_ok h, hevents, (update_eq_ok hfiles).2, (update_eq_ok hpin).2, Database.deletePin,
    (update_eq_ok hquotes).2, (update_eq_ok hattached).2, (update_eq_ok hredact).2,
    (update_eq_ok hlock).2, (begin_eq_ok hbegin).2]

end

namespace RoomSocial

variable {s : RoomSocial} {size : ChatEntry → ℕ}

theorem scrubbed_iff_all : s.Scrubbed m ↔ s.All (Hides m) := all_iff_entries.symm

/-- No pin quotes the text of `m`, except for a pin of `m` itself. -/
def PinsHide (m : MessageId) (s : RoomSocial) : Prop :=
  ∀ pin ∈ s.pins, pin.messageId ≠ m → ∀ reply, pin.replyTo = some reply →
    reply.messageId = m → reply.excerpt = removedExcerpt

instance (m : MessageId) (s : RoomSocial) : Decidable (s.PinsHide m) :=
  inferInstanceAs (Decidable (∀ pin ∈ s.pins, pin.messageId ≠ m → ∀ reply ∈ pin.replyTo,
    reply.messageId = m → reply.excerpt = removedExcerpt))

/-- The removal of a public message scrubs the memory exactly if no other pin
quotes it. -/
theorem removeMessage_scrubbed_iff
    (hpublic : s.All fun e => About m e → e.recipientId = none) (removedAt : Time) :
    (s.removeMessage size m removedAt).Scrubbed m ↔ s.PinsHide m := by
  rw [scrubbed_iff_all]
  constructor
  · intro h pin hpin hother reply hreply hid
    have hkept : pin ∈ (s.removeMessage size m removedAt).pins :=
      List.mem_filter.mpr ⟨hpin, by simpa using hother⟩
    exact (h.pins pin hkept).quotes reply hreply hid
  intro hpins
  have hscrub : (rewrite size (redactMessage m removedAt) { s with
      pins := s.pins.filter fun pin => pin.messageId ≠ m }).All (Hides m) := by
    refine ⟨fun entry hentry => ?_, fun entry hentry => ?_, fun pin hpin => ?_⟩
    · obtain ⟨old, hold, rfl⟩ := List.mem_map.mp hentry
      exact redactMessage_hides (hpublic.history old hold) removedAt
    · obtain ⟨old, hold, rfl⟩ := List.mem_map.mp hentry
      exact redactMessage_hides (hpublic.receipts old hold) removedAt
    · obtain ⟨hmem, hother⟩ := List.mem_filter.mp hpin
      have hne : pin.messageId ≠ m := by simpa using hother
      exact ⟨fun hid => absurd hid hne, hpins pin hmem hne⟩
  exact hscrub.trimHistory.trimReceipts

end RoomSocial

/-! ## The step that completes a removal -/

/-- One of the frames answers the request that removed `m`. -/
def AnswersRemoval (m : MessageId) (frames : List Frame) : Prop :=
  ∃ frame ∈ frames, ∃ removedAt, frame.message = .socialResponse (.removeChatMessage m removedAt)

theorem not_answersRemoval_nil : ¬AnswersRemoval m [] := by
  rintro ⟨frame, hframe, -⟩
  cases hframe

theorem not_answersRemoval_fail {room : ChatRoom} {requester : Requester}
    {failure : SocialFailure} :
    ¬AnswersRemoval m (Turn.fail room requester failure).frames := by
  rintro ⟨frame, hframe, removedAt, hmessage⟩
  rw [mem_singleton.mp hframe] at hmessage
  cases hmessage

theorem not_answersRemoval_await {room : ChatRoom} {requester : Requester}
    {pool : Bool} {missing : String} {next : Waiting} :
    ¬AnswersRemoval m (Turn.await room requester pool missing next).frames := by
  unfold Turn.await
  split
  · exact not_answersRemoval_nil
  · exact not_answersRemoval_fail

theorem ChatRequest.eq_of_removes {request : ChatRequest}
    (h : request.removes = some m) : request = .social (.remove m) := by
  cases request with
  | chat => cases h
  | social request =>
    cases request with
    | remove =>
      cases h
      rfl
    | _ => cases h

namespace ChatRoom

variable {room : ChatRoom} {size : ChatEntry → ℕ} {requester : Requester}
  {pool : Bool} {around : Surroundings} {actor : Member}
  {P : ChatEntry → Prop}

theorem removeFound_answers {id : MessageId} {original : ChatEntry}
    {authenticated : Bool} {eventId : ℕ}
    (h : AnswersRemoval m (room.removeFound size requester pool around actor id
      original authenticated eventId).frames) :
    ∃ removedAt, room.removeFound size requester pool around actor id original
      authenticated eventId = room.removalTurn size requester id removedAt := by
  unfold removeFound at h ⊢
  split at h
  · exact ⟨_, rfl⟩
  split at h
  · exact absurd h not_answersRemoval_await
  split at h
  · exact absurd h not_answersRemoval_nil
  rename_i hpersisted hpool
  rw [if_neg hpersisted, if_neg hpool]
  exact ⟨_, rfl⟩

theorem beginRemoval_answers (hroom : room.social.All P) {id : MessageId} {eventId : ℕ}
    (h : AnswersRemoval m (room.beginRemoval size requester pool around actor id
      eventId).frames) :
    PublicId P id ∧ ∃ removedAt, room.beginRemoval size requester pool around actor id eventId =
        room.removalTurn size requester id removedAt := by
  unfold beginRemoval at h ⊢
  split at h
  · exact absurd h not_answersRemoval_fail
  rename_i hmoderator
  rw [if_neg hmoderator]
  split at h
  · rename_i entry hentry
    have htest := List.find?_some hentry
    simp only [Bool.and_eq_true, decide_eq_true_eq] at htest
    refine ⟨⟨entry.message, hroom.history entry (List.mem_of_find?_eq_some hentry),
      htest.1, isNone_iff_eq_none.mp htest.2⟩, ?_⟩
    exact removeFound_answers h
  split at h
  · exact absurd h not_answersRemoval_await
  · exact absurd h not_answersRemoval_fail

theorem beginTurn_answers (hroom : room.social.All P) {fresh : MessageId}
    (h : AnswersRemoval m (room.beginTurn size requester pool around fresh
      (.social (.remove m))).frames) :
    PublicId P m ∧ ∃ removedAt,
      room.beginTurn size requester pool around fresh (.social (.remove m)) =
        room.removalTurn size requester m removedAt := by
  simp only [beginTurn] at h ⊢
  unfold beginSocial at h ⊢
  split at h
  · exact absurd h not_answersRemoval_fail
  split at h
  · exact absurd h not_answersRemoval_fail
  · exact beginRemoval_answers hroom h

theorem resumeTurn_answers {answer : Returning} (hanswer : answer.Sound P)
    (hremoves : answer.removes = some m) {fresh : MessageId}
    (h : AnswersRemoval m (room.resumeTurn size requester pool around fresh
      answer).frames) :
    PublicId P m ∧ ∃ removedAt, room.resumeTurn size requester pool around fresh answer =
        room.removalTurn size requester m removedAt := by
  unfold resumeTurn at h ⊢
  split at h
  · cases hremoves
  split at h
  · exact absurd h not_answersRemoval_fail
  cases answer with
  | removalFound id found =>
    cases hremoves
    cases found with
    | none => exact absurd h not_answersRemoval_fail
    | some original => exact ⟨⟨original.1, hanswer original rfl⟩, removeFound_answers h⟩
  | removalSaved id removedAt =>
    cases hremoves
    exact ⟨hanswer, removedAt, rfl⟩
  | _ => cases hremoves

end ChatRoom

namespace ChatSystem

variable {c d : ChatSystem} {size : ChatEntry → ℕ} {action : ChatAction} {P : ChatEntry → Prop}

theorem step_answers (hc : c.Sound P)
    (hstep : StepSound P (fun id => c.removes action = some id) c d)
    (h : c.step size action = some d) (hanswer : AnswersRemoval m (c.sentSince d)) :
    PublicId P m ∧ ∃ requester removedAt,
      d = c.settle (c.room.removalTurn size requester m removedAt) none := by
  obtain ⟨frames, hsent, hframes⟩ := hstep.frames
  have hremoves : c.removes action = some m := by
    rw [sentSince_eq hsent] at hanswer
    obtain ⟨frame, hframe, removedAt, hmessage⟩ := hanswer
    have hholds := hframes frame hframe
    rw [hmessage] at hholds
    exact hholds
  cases action with
  | request requester =>
    obtain rfl := ChatRequest.eq_of_removes hremoves
    simp only [step, requestStep, needsControl, if_true] at h
    split at h
    · cases h
    split at h
    · cases h
    cases h
    rw [sentSince_eq rfl] at hanswer
    obtain ⟨hpublic, removedAt, hturn⟩ := ChatRoom.beginTurn_answers hc.social hanswer
    refine ⟨hpublic, requester, removedAt, ?_⟩
    rw [hturn]
    rfl
  | resume around =>
    simp only [step, resumeStep] at h
    split at h
    · rename_i requester answer hholder
      simp only [removes, hholder] at hremoves
      cases h
      rw [sentSince_eq rfl] at hanswer
      obtain ⟨hpublic, removedAt, hturn⟩ :=
        ChatRoom.resumeTurn_answers (hc.holder _ hholder) hremoves hanswer
      refine ⟨hpublic, requester, removedAt, ?_⟩
      rw [hturn]
      rfl
    · rename_i hholder
      simp [removes, hholder] at hremoves
    · cases h
  | _ => cases hremoves

/-! ## Whole runs -/

theorem Identified.step_known (hc : c.Identified fun _ => True) (h : c.step size action = some d) :
    ∃ ends, c.Sound (fun e => Known ends d.nextMessage e ∧ True) ∧
      StepSound (fun e => Known ends d.nextMessage e ∧ True)
        (fun id => c.removes action = some id) c d := by
  obtain ⟨ends, hsound⟩ := hc
  obtain ⟨ends', hsame, hstep⟩ := hsound.step_known true_law (fun _ hid => hid)
    (fun _ _ _ => trivial) h
  have hle := (step_nextMessage h).1
  exact ⟨ends', hsound.mono fun e he => ⟨he.1.mono hle hsame, trivial⟩, hstep⟩

/-- Every copy hides `m`, so every later one will. -/
structure Removed (m : MessageId) (c : ChatSystem) : Prop where
  used : m < c.nextMessage
  sound : c.Identified (Hides m)

theorem Removed.social (h : c.Removed m) : c.room.social.Scrubbed m := by
  obtain ⟨ends, hsound⟩ := h.sound
  exact RoomSocial.scrubbed_iff_all.mpr (hsound.social.mono fun e he => he.2)

/-- The frames hide `m` whatever they answer. -/
abbrev FramesHide (m : MessageId) (frames : List Frame) : Prop :=
  FramesHold (Hides m) (fun _ => True) frames

theorem Removed.step (hc : c.Removed m) (h : c.step size action = some d) :
    d.Removed m ∧ ∃ frames, d.sent = c.sent ++ frames ∧ FramesHide m frames := by
  obtain ⟨ends, hsound⟩ := hc.sound
  obtain ⟨ends', -, hstep⟩ := hsound.step_known (R := fun _ => True)
    (hides_law m) (fun _ _ => trivial) (fun _ _ he => he.hides hc.used) h
  obtain ⟨frames, hsent, hframes⟩ := hstep.frames
  have hused := Nat.lt_of_lt_of_le hc.used (step_nextMessage h).1
  exact ⟨⟨hused, ends', hstep.sound⟩, frames, hsent, hframes.mono fun e he => he.2⟩

/-- Once every copy hides `m`, no later copy and no later frame shows it. -/
theorem Removed.run (hc : c.Removed m) {actions : List ChatAction}
    (h : Transition.run (ChatSystem.step size) c actions = some d) :
    d.Removed m ∧ ∃ frames, d.sent = c.sent ++ frames ∧ FramesHide m frames := by
  induction actions generalizing c with
  | nil =>
    cases h
    exact ⟨hc, [], (append_nil _).symm, framesHold_nil⟩
  | cons action rest ih =>
    obtain ⟨e, hstep, hrest⟩ := run_cons_eq_some.mp h
    obtain ⟨he, frames, hsent, hframes⟩ := hc.step hstep
    obtain ⟨hd, later, hlater, hhide⟩ := ih he hrest
    refine ⟨hd, frames ++ later, ?_, hframes.append hhide⟩
    rw [hlater, hsent, append_assoc]

/-! ## The removal -/

/-- No saved row shows anything of `m`. -/
def SavedHides (m : MessageId) (c : ChatSystem) : Prop :=
  ∀ db ∈ c.database, ∀ row ∈ db.messages, Hides m row.body

instance (m : MessageId) (c : ChatSystem) : Decidable (c.SavedHides m) :=
  inferInstanceAs (Decidable (∀ db ∈ c.database, ∀ row ∈ db.messages, Hides m row.body))

/-- The removal's own transaction sees to it that the saved rows hide `m`, apart from expired
rows of `m`, which its update leaves alone. -/
theorem savedHides_of_work {room : ChatRoom} {database : Option Database}
    {actions : List ChatAction} {requester : Requester} {removedAt : Time}
    {event : ModerationEvent} {around : Surroundings} {faults : Faults}
    (hrun : run (step size) (start room database) actions = some c)
    (hholder : c.holder = some (.waiting requester (.persistRemoval m removedAt true event)))
    (hexpired : ∀ db ∈ c.database, db.ExpiredHide m)
    (hstep : c.step size (.work around faults) = some d) (hdone : d.holder.isSome) :
    d.SavedHides m := by
  obtain ⟨ends, hsound⟩ : c.Identified fun _ => True :=
    identified_of_run true_law (fun _ _ _ _ => trivial) hrun
  obtain ⟨e, ⟨he, -⟩, rfl, hrecipient⟩ := hsound.holder _ hholder
  have hends : (ends e.messageId).2 = none := by
    rw [he.own]
    exact hrecipient
  simp only [step, workStep, hholder] at hstep
  split at hstep
  · rename_i requester' next db heq hdb
    cases heq
    split at hstep
    · rename_i answer conn hwork
      cases hstep
      obtain ⟨_, conn', hpersist, hpure⟩ := bind_eq_ok.mp hwork
      cases hpure
      rintro _ ⟨⟩ row hrow
      rw [persistRemoval_messages hpersist] at hrow
      refine Database.redact_hides (fun row hrow habout => ?_) (hexpired db hdb) row hrow
      have hrow := hsound.database db hdb row hrow
      rw [hrow.room, hrow.body.1.isPublic hends habout]
      rfl
    · cases hstep
      cases hdone
  · cases hstep

/-- The last turn of a removal leaves no copy and shows none, if no other pin
quotes the message and the saved rows have been erased. -/
theorem removed_of_removalTurn {ends : MessageId → Ends} {requester : Requester}
    {removedAt : Time} (hc : c.Sound (Known ends (c.nextMessage + 1)))
    (hpublic : PublicId (Known ends (c.nextMessage + 1)) m)
    (hpins : c.room.social.PinsHide m) (hsaved : c.SavedHides m) :
    (c.settle (c.room.removalTurn size requester m removedAt) none).Removed m ∧
      FramesHide m (c.room.removalTurn size requester m removedAt).frames := by
  obtain ⟨e, he, rfl, hrecipient⟩ := hpublic
  have hends : (ends e.messageId).2 = none := by
    rw [he.own]
    exact hrecipient
  have hscrubbed : (c.room.social.removeMessage size e.messageId removedAt).All
      (Hides e.messageId) :=
    RoomSocial.scrubbed_iff_all.mp
      ((RoomSocial.removeMessage_scrubbed_iff
        (hc.social.mono fun _ he => he.isPublic hends) removedAt).mpr hpins)
  have hknown : (c.room.social.removeMessage size e.messageId removedAt).All
      (Known ends (c.nextMessage + 1)) :=
    hc.social.removeMessage known_law e.messageId removedAt
  have hdatabase : ∀ db ∈ c.database, db.Sound (fun e' =>
      Known ends (c.nextMessage + 1) e' ∧ Hides e.messageId e') c.room.id := by
    intro db hdb row hrow
    have hsound := hc.database db hdb row hrow
    exact ⟨⟨hsound.body, hsaved db hdb row hrow⟩, hsound.conversation, hsound.room⟩
  refine ⟨⟨he.id, ends, ⟨?_, hdatabase, (fun _ h => by cases h), ?_⟩⟩, ?_⟩
  · exact ⟨fun entry h => ⟨hknown.history entry h, hscrubbed.history entry h⟩,
      fun entry h => ⟨hknown.receipts entry h, hscrubbed.receipts entry h⟩,
      fun pin h => ⟨hknown.pins pin h, hscrubbed.pins pin h⟩⟩
  · intro update hupdate hprivate
    have hold : update ∈ c.updates := by
      simpa [settle, ChatRoom.removalTurn, Turn.respond] using hupdate
    obtain ⟨hmessage, hedit⟩ := hc.updates update hold hprivate
    refine ⟨⟨hmessage, hides_of_not_about fun habout => ?_⟩, hedit⟩
    rw [hmessage.isPublic hends habout] at hprivate
    cases hprivate
  · have hremoved : (ServerMessage.chatMessageRemoved e.messageId removedAt).Holds
        (Hides e.messageId) fun _ => True := trivial
    refine ((ChatRoom.broadcast_holds _ hremoved).append
      (ChatRoom.publishPins_holds ?_)).append (framesHold_singleton trivial)
    exact hscrubbed

/-- Once the removal of `m` has been answered, the room's memory is scrubbed of
`m` exactly if, before the last turn, no other pin quoted the text of `m`. If
the saved rows show nothing of `m` either, then from that turn on no copy and
no frame shows anything of it, in any run. -/
theorem removal_scrubs_iff_pins_hide {room : ChatRoom} {database : Option Database}
    {actions : List ChatAction}
    (hrun : run (step size) (start room database) actions = some c)
    (hstep : c.step size action = some d) (hanswer : AnswersRemoval m (c.sentSince d)) :
    (d.room.social.Scrubbed m ↔ c.room.social.PinsHide m) ∧
      (c.room.social.PinsHide m → c.SavedHides m → ∀ later e, run (step size) d later = some e →
          e.room.social.Scrubbed m ∧ FramesHide m (c.sentSince e)) := by
  have hidentified : c.Identified fun _ => True :=
    identified_of_run true_law (fun _ _ _ _ => trivial) hrun
  obtain ⟨ends, hsound, hd⟩ := hidentified.step_known hstep
  obtain ⟨hpublic, requester, removedAt, rfl⟩ := step_answers hsound hd hstep hanswer
  have hc : c.Sound (Known ends (c.nextMessage + 1)) := hsound.mono fun e he => he.1
  have hpublic' : PublicId (Known ends (c.nextMessage + 1)) m := hpublic.mono fun e he => he.1
  refine ⟨?_, fun hpins hsaved later e hlater => ?_⟩
  · obtain ⟨e, he, rfl, hrecipient⟩ := hpublic'
    have hends : (ends e.messageId).2 = none := by
      rw [he.own]
      exact hrecipient
    exact RoomSocial.removeMessage_scrubbed_iff
      (hc.social.mono fun _ he => he.isPublic hends) removedAt
  · obtain ⟨hremoved, hframes⟩ :=
      removed_of_removalTurn hc hpublic' hpins hsaved
    obtain ⟨he, frames, hsent, hhide⟩ := hremoved.run hlater
    refine ⟨he.social, ?_⟩
    have hsince : e.sent = c.sent ++
        ((c.room.removalTurn size requester m removedAt).frames ++ frames) := by
      rw [hsent, ← append_assoc]
      rfl
    rw [sentSince_eq hsince]
    exact hframes.append hhide

/-! ### Two rooms -/

def say (text clientMessageId : String) (replyTo : Option MessageId) : ChatRequest :=
  .chat ⟨text.toList, [], clientMessageId, none, none, none, replyTo⟩

def guestReplies : List ChatAction := [.join ⟨1, "Mo", .moderator, true, 10, false, true, []⟩,
    .join ⟨2, "Bo", .guest, false, 20, false, true, []⟩,
    .request ⟨2, 20⟩ (say "my secret" "a" none) plainSurroundings,
    .request ⟨2, 20⟩ (say "I said that" "b" (some 0)) plainSurroundings]

def pinReply : ChatAction :=
  .request ⟨1, 10⟩ (.social (.pinned (some (1, true)))) plainSurroundings

def removeSecret : ChatAction :=
  .request ⟨1, 10⟩ (.social (.remove 0)) plainSurroundings

def removalAnswer : Frame :=
  ⟨1, 10, .socialResponse (.removeChatMessage 0 1000)⟩

theorem answersRemoval_of_getLast {frames : List Frame}
    (h : frames.getLast? = some removalAnswer) : AnswersRemoval 0 frames :=
  ⟨removalAnswer, mem_of_getLast? h, 1000, rfl⟩

def awaited (request : ChatAction) : List ChatAction :=
  [request, .work plainSurroundings [], .resume plainSurroundings]

/-- In a saved room the guest's message is quoted, the moderator pins a message of their own and
the removal has been committed. -/
def removesSaved : List ChatAction :=
  guestReplies.take 2 ++ (guestReplies.drop 2).flatMap awaited ++
    awaited (.request ⟨1, 10⟩ (say "welcome" "c" none) plainSurroundings) ++
    awaited (.request ⟨1, 10⟩ (.social (.pinned (some (4, true)))) plainSurroundings) ++
    [.work plainSurroundings [], .resume plainSurroundings, removeSecret,
      .work plainSurroundings []]

theorem removal_scrubs_saved : ∃ c d,
    run (step sampleSize) (start weekRoom (some weekDatabase)) removesSaved = some c ∧
      c.step sampleSize (.resume plainSurroundings) = some d ∧
      c.room.social.pins.map ChatEntry.messageId = [4] ∧
      (c.database.map fun db => db.messages.map fun row => row.body.content) =
        some [[], "I said that".toList, "welcome".toList] ∧
      (¬c.room.social.Scrubbed 0 ∧ d.room.social.Scrubbed 0) ∧
      ∀ later e, run (step sampleSize) d later = some e →
        e.room.social.Scrubbed 0 ∧ FramesHide 0 (c.sentSince e) := by
  have h : (run (step sampleSize) (start weekRoom (some weekDatabase)) removesSaved).any fun c =>
      (c.step sampleSize (.resume plainSurroundings)).any fun d => decide (
        c.room.social.pins.map ChatEntry.messageId = [4] ∧
        (c.database.map fun db => db.messages.map fun row => row.body.content) =
          some [[], "I said that".toList, "welcome".toList] ∧
        (∃ e ∈ c.room.social.entries, ¬Hides 0 e) ∧ c.room.social.PinsHide 0 ∧
        c.SavedHides 0 ∧ (c.sentSince d).getLast? = some removalAnswer) := by
    decide +kernel
  obtain ⟨c, hrun, h⟩ := (any_eq_true _ _).mp h
  obtain ⟨d, hstep, h⟩ := (any_eq_true _ _).mp h
  obtain ⟨hids, hrows, ⟨e, he, hshows⟩, hpins, hsaved, hlast⟩ := of_decide_eq_true h
  obtain ⟨hiff, hlater⟩ :=
    removal_scrubs_iff_pins_hide hrun hstep (answersRemoval_of_getLast hlast)
  exact ⟨c, d, hrun, hstep, hids, hrows, ⟨fun hscrubbed => hshows (hscrubbed e he),
    hiff.mpr hpins⟩, hlater hpins hsaved⟩

/-- The pinned answer goes on quoting the removed message. -/
theorem removal_leaves_pinned_quote : ∃ c d,
    run (step sampleSize) (start plainRoom none) (guestReplies ++ [pinReply]) = some c ∧
      c.step sampleSize removeSecret = some d ∧
      AnswersRemoval 0 (c.sentSince d) ∧
      (∃ pin ∈ d.room.social.pins, pin.replyTo = some ⟨0, 2, "Bo", "my secret".toList⟩) ∧
      ¬d.room.social.Scrubbed 0 := by
  have h : ((run (step sampleSize) (start plainRoom none)
      (guestReplies ++ [pinReply])).bind fun c =>
        (c.step sampleSize removeSecret).map fun d =>
          (d.room.social.pins.map ChatEntry.replyTo, (c.sentSince d).getLast?)) =
      some ([some ⟨0, 2, "Bo", "my secret".toList⟩], some removalAnswer) := by
    decide +kernel
  obtain ⟨c, hrun, hc⟩ := bind_eq_some_iff.mp h
  obtain ⟨d, hstep, hd⟩ := map_eq_some_iff.mp hc
  obtain ⟨hreplies, hlast⟩ := Prod.mk.inj hd
  have hmem : some (⟨0, 2, "Bo", "my secret".toList⟩ : ChatReplyRef) ∈
      d.room.social.pins.map ChatEntry.replyTo := by
    rw [hreplies]
    exact mem_singleton_self _
  obtain ⟨pin, hpin, hreply⟩ := List.mem_map.mp hmem
  refine ⟨c, d, hrun, hstep, answersRemoval_of_getLast hlast,
    ⟨pin, hpin, hreply⟩, fun hscrubbed => ?_⟩
  have hhides := (RoomSocial.scrubbed_iff_all.mp hscrubbed).pins pin hpin
  have hexcerpt := hhides.quotes _ hreply rfl
  revert hexcerpt
  decide

end ChatSystem

end SimplestChat
