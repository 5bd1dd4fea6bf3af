import SimplestChat.Chat.Copies
import SimplestChat.Chat.Turns

/-!
# Pins after a change of retention

A change of a saved room's retention erases, in one transaction, every public
message older than the new period, or all of them when history is turned off.
The room's pins are copies in memory: turning history off clears them, and any
other change publishes them as they are.
-/

namespace SimplestChat

open List Transition Transaction Transaction.Tx ChatRoom Option

/-- Saved history shows the message. -/
def Database.Readable (db : Database) (room : RoomId) (id : MessageId) : Prop :=
  ∃ row ∈ db.messages, row.room = some room ∧ row.body.messageId = id ∧ row.expired = false

/-- Saved history shows the message, which was sent within the last `days` days. -/
def Database.Outlasts (db : Database) (room : RoomId) (id : MessageId)
    (days : ℕ) (now : Time) : Prop :=
  ∃ row ∈ db.messages, row.room = some room ∧ row.body.messageId = id ∧
    row.expired = false ∧ sentBefore now days row = false

instance (db : Database) (room : RoomId) (id : MessageId) : Decidable (db.Readable room id) :=
  inferInstanceAs (Decidable (∃ row ∈ db.messages, _))

instance (db : Database) (room : RoomId) (id : MessageId) (days : ℕ)
    (now : Time) : Decidable (db.Outlasts room id days now) :=
  inferInstanceAs (Decidable (∃ row ∈ db.messages, _))

/-! ## The transaction -/

theorem updateRoom_messages (db : Database) (room : RoomId)
    (f : RoomRow → RoomRow) : (db.updateRoom room f).1.messages = db.messages :=
  rfl

variable {room : RoomId} {days : ℕ} {conn conn' : Transaction.Connection Database DriverError}

theorem applyRetention_saved {isOlder : MessageRow → Bool}
    (h : applyRetention room days isOlder conn = (.ok (), conn')) :
    conn'.saved.messages = conn.work.messages.filter fun row =>
      !(row.room = some room && (days = 0 || isOlder row)) := by
  unfold applyRetention at h
  obtain ⟨_, c₁, hdelete, h⟩ := bind_eq_ok.mp h
  obtain ⟨_, c₂, hexpiry, h⟩ := bind_eq_ok.mp h
  obtain ⟨_, c₃, hfiles, h⟩ := bind_eq_ok.mp h
  obtain ⟨_, c₄, hcursors, h⟩ := bind_eq_ok.mp h
  have hwork : c₄.work = c₃.work := by
    unfold dropReadCursors at hcursors
    split at hcursors
    · exact (update_eq_ok hcursors).2
    · cases hcursors
      rfl
  rw [commit_eq_ok h, hwork, (update_eq_ok hfiles).2, (update_eq_ok hexpiry).2,
    (update_eq_ok hdelete).2]
  rfl

theorem setRetention_saved {isOlder : MessageRow → Bool}
    (h : setRetention room days isOlder conn = (.ok (), conn')) :
    conn'.saved.messages = conn.saved.messages.filter fun row =>
      !(row.room = some room && (days = 0 || isOlder row)) := by
  unfold setRetention at h
  split at h
  · cases h
  obtain ⟨_, c₁, hbegin, h⟩ := bind_eq_ok.mp h
  obtain ⟨affected, c₂, hupdate, h⟩ := bind_eq_ok.mp h
  split at h
  · rw [applyRetention_saved h, (statement_eq_ok hupdate).2.2,
      updateRoom_messages, (begin_eq_ok hbegin).2]
  · cases h

theorem readable_setRetention_iff {now : Time}
    (h : setRetention room days (sentBefore now days) conn = (.ok (), conn'))
    (id : MessageId) :
    conn'.saved.Readable room id ↔ days ≠ 0 ∧ conn.saved.Outlasts room id days now := by
  unfold Database.Readable Database.Outlasts
  rw [setRetention_saved h]
  constructor
  · rintro ⟨row, hrow, hroom, hid, hexpired⟩
    obtain ⟨hmem, hkept⟩ := List.mem_filter.mp hrow
    simp only [hroom, decide_true, Bool.true_and, Bool.not_eq_true',
      Bool.or_eq_false_iff, decide_eq_false_iff_not] at hkept
    exact ⟨hkept.1, row, hmem, hroom, hid, hexpired, hkept.2⟩
  · rintro ⟨hdays, row, hmem, hroom, hid, hexpired, hkept⟩
    refine ⟨row, List.mem_filter.mpr ⟨hmem, ?_⟩, hroom, hid, hexpired⟩
    simp [hdays, hkept]

/-! ## While the change has the control -/

namespace ChatRoom

variable {room : ChatRoom} {size : ChatEntry → ℕ} {requester : Requester} {around : Surroundings}

theorem finishTurn_pins (chat : PreparedChat) :
    (room.finishTurn size requester around chat).room.social.pins = room.social.pins := by
  unfold finishTurn finishChatAttempt
  split
  · rfl
  rename_i hfinish
  split at hfinish
  · cases hfinish
  cases hfinish
  unfold advanceHighWater
  split <;> simp [setSocial, keepMessage, RoomSocial.remember,
    RoomSocial.trimHistory, RoomSocial.pushReceipt]

theorem immediateTurn_pins (attempt : ChatAttempt) (fresh : MessageId) :
    (room.immediateTurn size requester around attempt fresh).room.social.pins =
      room.social.pins := by
  unfold immediateTurn attemptTurn
  have hpruned : (room.prepareChatAttempt size requester attempt none fresh
      around).1.social.pins = room.social.pins := by
    unfold prepareChatAttempt
    split
    · rfl
    split
    · rfl
    simp only
    split <;> rfl
  split
  · rename_i heq
    rw [heq] at hpruned
    exact hpruned
  · rename_i heq
    rw [heq] at hpruned
    exact hpruned
  · rename_i heq
    rw [heq] at hpruned
    rw [finishTurn_pins]
    exact hpruned

end ChatRoom

namespace ChatSystem

variable {c d : ChatSystem} {size : ChatEntry → ℕ}

structure Held (c d : ChatSystem) : Prop where
  holder : d.holder = c.holder
  id : d.room.id = c.room.id
  pins : d.room.social.pins = c.room.social.pins

theorem held_of_room (hholder : d.holder = c.holder) (hroom : d.room = c.room) : Held c d :=
  ⟨hholder, by rw [hroom], by rw [hroom]⟩

theorem httpStep_held {write : Sql ChatEntry} {reactions : Bool}
    {faults : Faults} (h : c.httpStep write reactions faults = some d) :
    Held c d := by
  unfold httpStep at h
  split at h
  · cases h
  · split at h <;> cases h <;> exact held_of_room rfl rfl

variable {requester : Requester}

theorem requestStep_held {request : ChatRequest} {around : Surroundings}
    (hheld : c.holder.isSome) (h : c.requestStep size requester request around = some d) :
    Held c d := by
  unfold requestStep at h
  split at h
  · cases h
  simp only at h
  split at h
  · cases h
  rename_i hfree
  cases h
  refine ⟨rfl, beginTurn_id c.nextMessage request, ?_⟩
  cases request with
  | chat attempt =>
    simp only [needsControl, Bool.not_eq_true, Bool.not_eq_false'] at hfree
    simp only [settle, beginTurn, if_pos hfree]
    exact immediateTurn_pins attempt _
  | social request =>
    cases request with
    | snapshot =>
      simp only [settle, beginTurn, beginSocial]
      split <;> rfl
    | _ => exact absurd rfl hfree

theorem step_held {answer : Returning} {action : ChatAction}
    (hholder : c.holder = some (.returning requester answer))
    (hwaits : ∀ around, action ≠ .resume around) (h : c.step size action = some d) :
    Held c d := by
  cases action with
  | join =>
    simp only [step, joinStep] at h
    split at h <;> cases h
    exact ⟨rfl, rfl, rfl⟩
  | change =>
    simp only [step, changeStep] at h
    split at h <;> cases h
    exact ⟨rfl, rfl, rfl⟩
  | recreate => simp [step, recreateStep, hholder] at h
  | request => exact requestStep_held (by rw [hholder]; rfl) h
  | work => simp [step, workStep, hholder] at h
  | resume around => exact absurd rfl (hwaits around)
  | complete => simp [step, completeStep, hholder] at h
  | httpSend =>
    simp only [step, httpSendStep] at h
    split at h
    · cases h
    · split at h <;> cases h <;> exact held_of_room rfl rfl
  | httpEdit | httpReact => exact httpStep_held h
  | leave | settings => cases h; exact ⟨rfl, rfl, rfl⟩
  | _ => cases h; exact held_of_room rfl rfl

theorem run_held {answer : Returning} {actions : List ChatAction}
    (hholder : c.holder = some (.returning requester answer))
    (hwaits : ∀ action ∈ actions, ∀ around, action ≠ .resume around)
    (hrun : run (step size) c actions = some d) : Held c d := by
  induction actions generalizing c with
  | nil =>
    cases hrun
    exact ⟨rfl, rfl, rfl⟩
  | cons action rest ih =>
    obtain ⟨e, hstep, hrest⟩ := run_cons_eq_some.mp hrun
    have hfirst := step_held hholder (hwaits action mem_cons_self) hstep
    have hlater := ih (hfirst.holder.trans hholder)
      (fun a ha => hwaits a (mem_cons_of_mem action ha)) hrest
    exact ⟨hlater.holder.trans hfirst.holder, hlater.id.trans hfirst.id,
      hlater.pins.trans hfirst.pins⟩

/-! ## The completed change -/

/-- The kept pins are those of `pins` that the saved rows still show, every
published list has only such messages, and every participant is sent the kept
pins of those they do not ignore. -/
structure PinsReadable (pins : List ChatEntry) (rows : Option Database) (frames : List Frame)
    (d : ChatSystem) : Prop where
  kept : ∀ pin, pin ∈ d.room.social.pins ↔ pin ∈ pins ∧
    ∀ db ∈ rows, db.Readable d.room.id pin.messageId
  published : ∀ frame ∈ frames, ∀ messages, frame.message = .pinnedMessagesChanged messages →
      ∀ pin ∈ messages, ∀ db ∈ rows, db.Readable d.room.id pin.messageId
  broadcast : ∀ viewer ∈ d.room.participants, viewer.frame (.pinnedMessagesChanged
    (d.room.social.pins.filter fun pin => !viewer.ignores pin.participantId)) ∈ frames

def AnswersRetention (days : ℕ) (frames : List Frame) : Prop :=
  ∃ frame ∈ frames, frame.message = .socialResponse (.setRoomHistory days)

theorem retentionTurn_answered {room : ChatRoom} {days : ℕ}
    (h : AnswersRetention days (room.retentionTurn requester days).frames) :
    ∃ settings, room.settings = some settings ∧
      (room.retentionTurn requester days).room.id = room.id ∧
      (room.retentionTurn requester days).room.social.pins =
        (if days = 0 then [] else room.social.pins) := by
  unfold retentionTurn at h ⊢
  split at h
  · obtain ⟨frame, hframe, hanswer⟩ := h
    rw [mem_singleton.mp hframe] at hanswer
    cases hanswer
  rename_i settings hsettings
  refine ⟨settings, hsettings, rfl, ?_⟩
  simp only [Turn.respond]
  split <;> rfl

theorem retentionTurn_published {room : ChatRoom} {days : ℕ} {frame : Frame}
    {messages : List ChatEntry} (h : frame ∈ (room.retentionTurn requester days).frames)
    (hmessage : frame.message = .pinnedMessagesChanged messages) :
    messages ⊆ (room.retentionTurn requester days).room.social.pins := by
  unfold retentionTurn at h ⊢
  split at h
  · rw [mem_singleton.mp h] at hmessage
    cases hmessage
  rename_i settings hsettings
  simp only [Turn.respond] at h ⊢
  rcases mem_append.mp h with h | h
  · rcases mem_append.mp h with h | h
    · obtain ⟨member, -, rfl⟩ := List.mem_map.mp h
      cases hmessage
    obtain ⟨viewer, -, rfl⟩ := List.mem_map.mp h
    cases hmessage
    exact filter_subset_self _
  · rw [mem_singleton.mp h] at hmessage
    cases hmessage

theorem retentionTurn_broadcast {room : ChatRoom} {days : ℕ}
    (h : AnswersRetention days (room.retentionTurn requester days).frames) :
    ∀ viewer ∈ (room.retentionTurn requester days).room.participants,
      viewer.frame (.pinnedMessagesChanged
        ((room.retentionTurn requester days).room.social.pins.filter
          fun pin => !viewer.ignores pin.participantId)) ∈
        (room.retentionTurn requester days).frames := by
  obtain ⟨settings, hsettings, -⟩ := retentionTurn_answered h
  intro viewer hviewer
  simp only [retentionTurn, hsettings, Turn.respond] at hviewer ⊢
  exact mem_append_left _ (mem_append_right _ (mem_map_of_mem hviewer))

variable {c₁ c₂ : ChatSystem} {requester : Requester} {days : ℕ}
  {around around' : Surroundings} {faults : Faults} {db : Database}

theorem workStep_retention (hdb : c.database = some db)
    (hholder : c.holder = some (.waiting requester (.retention days)))
    (hwork : c.step size (.work around faults) = some c₁)
    (hset : c₁.holder = some (.returning requester (.retentionSet days))) :
    c₁.room = c.room ∧ ∃ db₁, c₁.database = some db₁ ∧ ∀ id, db₁.Readable c.room.id id ↔
        days ≠ 0 ∧ db.Outlasts c.room.id id days around.now := by
  simp only [step, workStep, hholder, hdb] at hwork
  split at hwork
  · rename_i conn hrun
    cases hwork
    refine ⟨rfl, conn.saved, rfl, fun id => ?_⟩
    simp only [Waiting.work] at hrun
    obtain ⟨u, conn', hretention, hpure⟩ := bind_eq_ok.mp hrun
    cases hpure
    exact readable_setRetention_iff hretention id
  · cases hwork
    cases hset

/-- A completed change keeps and publishes exactly the pins that saved history
shows after its transaction, if and only if history was turned off or every pin
is a saved message of the new period. -/
theorem retention_pins_readable_iff {between : List ChatAction} (hdb : c.database = some db)
    (hholder : c.holder = some (.waiting requester (.retention days)))
    (hwork : c.step size (.work around faults) = some c₁)
    (hset : c₁.holder = some (.returning requester (.retentionSet days)))
    (hbetween : run (step size) c₁ between = some c₂)
    (hwaits : ∀ action ∈ between, ∀ around, action ≠ .resume around)
    (hresume : c₂.step size (.resume around') = some d)
    (hanswered : AnswersRetention days (c₂.sentSince d)) :
    PinsReadable c.room.social.pins c₁.database (c₂.sentSince d) d ↔ days = 0 ∨ ∀ pin ∈ c.room.social.pins,
        db.Outlasts c.room.id pin.messageId days around.now := by
  obtain ⟨hroom, db₁, hdb₁, hreadable⟩ := workStep_retention hdb hholder hwork hset
  have hheld := run_held hset hwaits hbetween
  have hid : c₂.room.id = c.room.id := by rw [hheld.id, hroom]
  have hpins : c₂.room.social.pins = c.room.social.pins := by rw [hheld.pins, hroom]
  simp only [step, resumeStep, hheld.holder, hset, some.injEq] at hresume
  subst hresume
  rw [sentSince_eq rfl] at hanswered ⊢
  -- the connection still owns its member, or the turn would not have answered
  have hturn : c₂.room.resumeTurn size requester c₂.database.isSome around'
      c₂.nextMessage (.retentionSet days) = c₂.room.retentionTurn requester days := by
    unfold resumeTurn at hanswered ⊢
    simp only at hanswered ⊢
    split at hanswered
    · obtain ⟨frame, hframe, hanswer⟩ := hanswered
      rw [mem_singleton.mp hframe] at hanswer
      cases hanswer
    · rfl
  rw [hturn] at hanswered ⊢
  obtain ⟨settings, -, hturnId, hturnPins⟩ := retentionTurn_answered hanswered
  have hafter : ∀ pin : ChatEntry, (∀ db ∈ c₁.database, db.Readable (c₂.settle (c₂.room.retentionTurn requester days)
          ((c₂.room.retentionTurn requester days).next.map
            (.waiting requester))).room.id pin.messageId) ↔
        days ≠ 0 ∧ db.Outlasts c.room.id pin.messageId days around.now := by
    intro pin
    simp only [settle, hturnId, hid, hdb₁, mem_def, some.injEq, forall_eq']
    exact hreadable pin.messageId
  have hkept : (c₂.settle (c₂.room.retentionTurn requester days)
      ((c₂.room.retentionTurn requester days).next.map
        (.waiting requester))).room.social.pins =
      if days = 0 then [] else c.room.social.pins := by
    simp only [settle, hturnPins, hpins]
  constructor
  · intro h
    by_cases hdays : days = 0
    · exact .inl hdays
    refine .inr fun pin hpin => ?_
    have hmem := (h.kept pin).mp (by rw [hkept, if_neg hdays]; exact hpin)
    exact ((hafter pin).mp hmem.2).2
  · intro h
    have hall : ∀ pin, pin ∈ (if days = 0 then [] else c.room.social.pins) ↔
        pin ∈ c.room.social.pins ∧
          days ≠ 0 ∧ db.Outlasts c.room.id pin.messageId days around.now := by
      intro pin
      by_cases hdays : days = 0
      · simp [hdays]
      · rw [if_neg hdays]
        exact ⟨fun hpin => ⟨hpin, hdays, (h.resolve_left hdays) pin hpin⟩, And.left⟩
    constructor
    · intro pin
      rw [hkept, hafter pin]
      exact hall pin
    · intro frame hframe messages hmessage pin hpin
      have hmem := retentionTurn_published hframe hmessage hpin
      rw [hturnPins, hpins] at hmem
      exact (hafter pin).mpr ((hall pin).mp hmem).2
    · exact retentionTurn_broadcast hanswered

/-! ### A saved room -/

def dayMillis : Time := 24 * 60 * 60 * 1000

def daysLater (days : ℕ) : Surroundings :=
  { plainSurroundings with now := plainSurroundings.now + days * dayMillis }

def pinsThenRetains (days : ℕ) : List ChatAction :=
  [.join ⟨1, "Ow", .owner, true, 10, false, true, []⟩,
    .request ⟨1, 10⟩ (.chat ⟨"hello".toList, [], "a", none, none, none, none⟩)
      plainSurroundings,
    .work plainSurroundings [], .resume plainSurroundings,
    .request ⟨1, 10⟩ (.social (.pinned (some (0, true)))) plainSurroundings,
    .work plainSurroundings [], .resume plainSurroundings,
    .work plainSurroundings [], .resume plainSurroundings,
    .request ⟨1, 10⟩ (.social (.setHistory days)) (daysLater 3)]

/-- What the change in `pinsThenRetains` comes to: the room before the work,
after the work and after the last turn. -/
def Completes (days : ℕ) (c c₁ d : ChatSystem) : Prop :=
  c.holder = some (.waiting ⟨1, 10⟩ (.retention days)) ∧
    c₁.holder = some (.returning ⟨1, 10⟩ (.retentionSet days)) ∧
    (c₁.sentSince d).getLast? = some ⟨1, 10, .socialResponse (.setRoomHistory days)⟩

instance (days : ℕ) (c c₁ d : ChatSystem) : Decidable (Completes days c c₁ d) :=
  inferInstanceAs (Decidable (_ ∧ _))

theorem Completes.answers {c c₁ d : ChatSystem} {days : ℕ}
    (h : Completes days c c₁ d) : AnswersRetention days (c₁.sentSince d) :=
  ⟨_, mem_of_getLast? h.2.2, rfl⟩

/-- A longer retention keeps the pinned message readable. -/
theorem retention_month_pins_readable : ∃ c c₁ d,
    run (step sampleSize) (start weekRoom (some weekDatabase))
        (pinsThenRetains 30) = some c ∧
      c.step sampleSize (.work (daysLater 3) []) = some c₁ ∧
      c₁.step sampleSize (.resume (daysLater 3)) = some d ∧
      c.room.social.pins.map ChatEntry.messageId = [0] ∧
      PinsReadable c.room.social.pins c₁.database (c₁.sentSince d) d := by
  have h : (run (step sampleSize) (start weekRoom (some weekDatabase))
      (pinsThenRetains 30)).any fun c =>
        (c.step sampleSize (.work (daysLater 3) [])).any fun c₁ =>
          (c₁.step sampleSize (.resume (daysLater 3))).any fun d =>
            c.database.any fun db => decide (Completes 30 c c₁ d ∧
              c.room.social.pins.map ChatEntry.messageId = [0] ∧
              ∀ pin ∈ c.room.social.pins,
                db.Outlasts c.room.id pin.messageId 30 (daysLater 3).now) := by
    decide +kernel
  obtain ⟨c, hrun, h⟩ := (any_eq_true _ _).mp h
  obtain ⟨c₁, hwork, h⟩ := (any_eq_true _ _).mp h
  obtain ⟨d, hresume, h⟩ := (any_eq_true _ _).mp h
  obtain ⟨db, hdb, h⟩ := (any_eq_true _ _).mp h
  obtain ⟨hdone, hpins, houtlasts⟩ := of_decide_eq_true h
  refine ⟨c, c₁, d, hrun, hwork, hresume, hpins, ?_⟩
  exact (retention_pins_readable_iff hdb hdone.1 hwork hdone.2.1 (run_nil c₁)
    (fun _ h => by cases h) hresume hdone.answers).mpr (.inr houtlasts)

/-- A shorter retention erases the message and publishes its pin again. -/
theorem retention_day_publishes_erased_pin : ∃ c c₁ d,
    run (step sampleSize) (start weekRoom (some weekDatabase))
        (pinsThenRetains 1) = some c ∧
      c.step sampleSize (.work (daysLater 3) []) = some c₁ ∧
      c₁.step sampleSize (.resume (daysLater 3)) = some d ∧
      AnswersRetention 1 (c₁.sentSince d) ∧
      (∃ frame ∈ c₁.sentSince d, ∃ pin,
        frame.message = .pinnedMessagesChanged [pin] ∧ pin.messageId = 0) ∧
      ¬PinsReadable c.room.social.pins c₁.database (c₁.sentSince d) d := by
  have h : (run (step sampleSize) (start weekRoom (some weekDatabase))
      (pinsThenRetains 1)).any fun c =>
        (c.step sampleSize (.work (daysLater 3) [])).any fun c₁ =>
          (c₁.step sampleSize (.resume (daysLater 3))).any fun d =>
            c₁.database.any fun db => d.room.social.pins.head?.any fun pin =>
              decide (Completes 1 c c₁ d ∧ pin.messageId = 0 ∧
                ¬db.Readable d.room.id pin.messageId ∧
                ⟨1, 10, .pinnedMessagesChanged [pin]⟩ ∈ c₁.sentSince d) := by
    decide +kernel
  obtain ⟨c, hrun, h⟩ := (any_eq_true _ _).mp h
  obtain ⟨c₁, hwork, h⟩ := (any_eq_true _ _).mp h
  obtain ⟨d, hresume, h⟩ := (any_eq_true _ _).mp h
  obtain ⟨db, hdb, h⟩ := (any_eq_true _ _).mp h
  obtain ⟨pin, hpin, h⟩ := (any_eq_true _ _).mp h
  obtain ⟨hdone, hid, hgone, hsent⟩ := of_decide_eq_true h
  refine ⟨c, c₁, d, hrun, hwork, hresume, hdone.answers,
    ⟨_, hsent, pin, rfl, hid⟩, fun hreadable => ?_⟩
  exact hgone (((hreadable.kept pin).mp (mem_of_head? hpin)).2 db hdb)

end ChatSystem

end SimplestChat
