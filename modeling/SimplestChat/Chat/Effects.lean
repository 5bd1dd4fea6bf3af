import SimplestChat.Chat.Turns

/-!
# What a step of the chat does

`Effect` says once what a step does to the members, to the chat memory, to the
message that waits to be accepted and to the accepted ones. The invariants of
the chat follow from it.
-/

namespace SimplestChat

open List Option Transition Transaction Transaction.Tx ChatRoom

/-! ## The waiting message -/

structure SameAttempt (chat chat' : PreparedChat) : Prop where
  senderSession : chat'.senderSession = chat.senderSession
  sequence : chat'.sequence = chat.sequence

theorem Waiting.work_chat (next : Waiting) (size : ChatEntry → ℕ)
    (room : RoomId) (actor : ParticipantId) (around : Surroundings) :
    (next.work size room actor around).Ensures (fun _ => True) fun answer =>
      ∀ chat' ∈ answer.chat?, ∃ chat ∈ next.chat?, SameAttempt chat chat' := by
  have hquiet : ∀ {α : Type} (x : Sql α) (f : α → Returning), (∀ a, (f a).chat? = none) →
      (x >>= fun a => pure (f a)).Ensures (fun _ => True) fun answer =>
        ∀ chat' ∈ answer.chat?, ∃ chat ∈ next.chat?, SameAttempt chat chat' := by
    intro α x f hf
    refine ensures_bind (ensures_true x) fun a _ => ensures_pure fun chat' h => ?_
    rw [hf a] at h
    cases h
  cases next with
  | persistChat chat =>
    refine ensures_bind (ensures_true _) fun message _ => ensures_pure ?_
    rintro _ ⟨⟩
    exact ⟨chat, rfl, rfl, rfl⟩
  | attachFiles chat =>
    refine ensures_bind (ensures_true _) fun files _ => ensures_pure ?_
    rintro _ ⟨⟩
    exact ⟨chat, rfl, rfl, rfl⟩
  | _ => exact hquiet _ _ fun _ => rfl

namespace ChatSystem

def pendingChat (c : ChatSystem) : Option (Requester × PreparedChat) :=
  match c.holder with
  | some (.waiting requester next) => next.chat?.map fun chat => (requester, chat)
  | some (.returning requester answer) => answer.chat?.map fun chat => (requester, chat)
  | _ => none

def Unanswered (c : ChatSystem) : Prop :=
  ∀ requester answer, c.holder ≠ some (.returning requester answer)

/-- The holder of `d` is that of `c`, or it has neither a message nor an
answer. -/
def SamePending (c d : ChatSystem) : Prop :=
  d.holder = c.holder ∨ (d.pendingChat = none ∧ d.Unanswered)

theorem SamePending.pendingChat {c d : ChatSystem} (h : SamePending c d) :
    d.pendingChat = none ∨ d.pendingChat = c.pendingChat := by
  rcases h with hsame | ⟨hnone, -⟩
  · exact .inr (by simp only [ChatSystem.pendingChat, hsame])
  · exact .inl hnone

theorem samePending_of_free {c d : ChatSystem} (h : d.holder = none) : SamePending c d := by
  refine .inr ⟨by simp only [pendingChat, h], fun _ _ heq => ?_⟩
  rw [h] at heq
  cases heq

def WaitsFor (c : ChatSystem) (requester : Requester) (chat : PreparedChat) : Prop :=
  ∃ next, c.holder = some (.waiting requester next) ∧ next.chat? = some chat

variable {requester : Requester} {chat : PreparedChat}

theorem WaitsFor.pendingChat {c : ChatSystem} (h : c.WaitsFor requester chat) :
    c.pendingChat = some (requester, chat) := by
  obtain ⟨next, hholder, hchat⟩ := h
  simp only [ChatSystem.pendingChat, hholder, hchat, map_some]

/-! ## What a step does -/

def Offers (size : ChatEntry → ℕ) (c : ChatSystem) (requester : Requester)
    (chat : PreparedChat) : Prop :=
  (∃ attempt, c.room.PreparedFor size requester attempt c.nextMessage chat) ∨
    ((∃ member, c.room.participantForSender requester = .ok member) ∧
      c.pendingChat = some (requester, chat))

def sources (c : ChatSystem) : ChatAction → Sources
  | .request _ request _ => request.sources c.room c.database.isSome
  | .resume _ =>
    match c.holder with
    | some (.returning _ answer) => answer.sources
    | some (.completing message) => { reconciles := some message }
    | _ => {}
  | .complete index _ => { reconciles := c.updates[index]?.map InboxUpdate.message }
  | _ => {}

def Worked (size : ChatEntry → ℕ) (c : ChatSystem) (requester : Requester)
    (next : Waiting) (answer : Returning) : Prop :=
  ∃ around faults, ∃ db ∈ c.database, (next.work size c.room.id
    requester.participant around (connection db faults)).1 = .ok answer

theorem Worked.ensures {size : ChatEntry → ℕ} {c : ChatSystem} {next : Waiting}
    {answer : Returning} (h : c.Worked size requester next answer) {I : Database → Prop}
    {Q : Returning → Prop} (hI : ∀ db ∈ c.database, I db)
    (hwork : ∀ around, (next.work size c.room.id requester.participant
      around).Ensures I Q) : Q answer := by
  obtain ⟨around, faults, db, hdb, hanswer⟩ := h
  exact (hwork around _ (hI db hdb) (hI db hdb)).2.2 answer hanswer

/-- What a step does to the members, the memory and the accepted messages. -/
inductive Effect (size : ChatEntry → ℕ) (c d : ChatSystem) (action : ChatAction) : Prop where
  /-- members may leave, nothing is accepted or delivered -/
  | quiet (members : d.room.participants.Sublist c.room.participants)
      (accepted : d.accepted = c.accepted) (sessions : d.nextSession = c.nextSession)
      (pending : SamePending c d) (frames : NoDelivery (c.sentSince d))
      (memory : MemoryChange size (c.sources action) c.room.social d.room.social)
  /-- the database has done what the holder waits for -/
  | works (requester : Requester) (next : Waiting) (answer : Returning)
      (waiting : c.holder = some (.waiting requester next))
      (returning : d.holder = some (.returning requester answer))
      (room : d.room = c.room) (accepted : d.accepted = c.accepted)
      (sessions : d.nextSession = c.nextSession) (frames : d.sent = c.sent)
      (worked : c.Worked size requester next answer)
  | recreates (members : d.room.participants = [])
      (accepted : d.accepted = c.accepted) (sessions : d.nextSession = c.nextSession)
      (holder : d.holder = c.holder) (frames : d.sent = c.sent)
      (memory : d.room.social = .empty)
  /-- an HTTP message may be delivered to the two accounts -/
  | http (room : d.room = c.room)
      (accepted : d.accepted = c.accepted) (sessions : d.nextSession = c.nextSession)
      (holder : d.holder = c.holder)
      (send : ∃ own peer request around faults, action = .httpSend own peer request around faults)
  | joins (newcomer : Newcomer) (sequence : ℕ)
      (idle : c.idle newcomer.sender)
      (absent : ∀ p ∈ c.room.participants, p.id ≠ newcomer.id)
      (members : d.room.participants =
        c.room.participants ++ [newcomer.member c.nextSession sequence])
      (accepted : d.accepted = c.accepted)
      (sessions : d.nextSession = c.nextSession + 1) (holder : d.holder = c.holder)
      (frames : d.sent = c.sent) (memory : d.room.social = c.room.social)
  | changes (id : ParticipantId) (change : MemberChange)
      (idle : change.sender?.all c.idle)
      (members : d.room.participants = c.room.participants.map fun p =>
        if p.id = id then change.apply p else p)
      (accepted : d.accepted = c.accepted) (sessions : d.nextSession = c.nextSession)
      (holder : d.holder = c.holder) (frames : d.sent = c.sent)
      (memory : d.room.social = c.room.social)
  /-- a prepared message goes to the database -/
  | saves (requester : Requester) (attempt : ChatAttempt) (chat : PreparedChat)
      (prepared : c.room.PreparedFor size requester attempt c.nextMessage chat)
      (members : d.room.participants = c.room.participants)
      (accepted : d.accepted = c.accepted) (sessions : d.nextSession = c.nextSession)
      (pending : d.WaitsFor requester chat)
      (frames : NoDelivery (c.sentSince d))
      (memory : Pruned c.room.social d.room.social)
  /-- a message is accepted, either just prepared or saved before -/
  | accepts (requester : Requester) (chat : PreparedChat)
      (origin : c.Offers size requester chat)
      (members : d.room.participants =
        (c.room.advanceHighWater requester.participant chat.sequence).participants)
      (accepted : d.accepted = c.accepted ++
        [⟨chat.senderSession, chat.sequence, chat.message.messageId⟩])
      (sessions : d.nextSession = c.nextSession)
      (holder : (d.holder = c.holder ∧ c.idle requester.sender) ∨ d.holder = none)
      (frames : ∃ delivered, c.sentSince d = c.room.delivery chat requester.participant delivered ++
          [requester.frame chat.message.ack])
      (memory : ∃ base, Pruned c.room.social base ∧
        d.room.social = ChatRoom.keepMessage size chat base)

variable {c d : ChatSystem} {size : ChatEntry → ℕ} {action : ChatAction}

variable {turn : Turn}

theorem settle_quiet (hturn : turn.Quiet size (c.sources action) c.room)
    {holder : Option Holder} (hholder : holder = c.holder ∨
      ∃ requester, holder = turn.next.map (.waiting requester)) :
    Effect size c (c.settle turn holder) action := by
  refine .quiet ?_ ?_ rfl ?_ ?_ hturn.memory
  · simp only [settle, hturn.members.participants]
    exact List.Sublist.refl _
  · simp only [settle, hturn.accepted, toList_none, append_nil]
  · rcases hholder with rfl | ⟨requester, rfl⟩
    · exact .inl rfl
    cases hnext : turn.next with
    | none => exact samePending_of_free rfl
    | some next =>
      refine .inr ⟨?_, fun _ _ heq => by cases heq⟩
      simp [pendingChat, settle, hturn.next next hnext]
  · rw [sentSince_eq rfl]
    exact hturn.frames

theorem settle_accepts (hturn : c.room.Accepts size requester chat turn)
    (horigin : c.Offers size requester chat) {holder : Option Holder}
    (hholder : (holder = c.holder ∧ c.idle requester.sender) ∨
      holder = turn.next.map (.waiting requester)) :
    Effect size c (c.settle turn holder) action := by
  obtain ⟨delivered, hframes⟩ := hturn.frames
  refine .accepts requester chat horigin hturn.participants ?_ rfl ?_ ⟨delivered, ?_⟩ hturn.memory
  · simp only [settle, hturn.accepted, toList_some]
  · rcases hholder with ⟨rfl, hidle⟩ | rfl
    · exact .inl ⟨rfl, hidle⟩
    · refine .inr ?_
      simp only [settle, hturn.next, map_none]
  · rw [sentSince_eq (d := c.settle turn holder) rfl, hframes]

theorem settle_handles {attempt : ChatAttempt}
    (hprepared : c.room.PreparedFor size requester attempt c.nextMessage chat)
    (hturn : c.room.Handles size (c.sources action) requester chat turn) :
    Effect size c (c.settle turn (turn.next.map (.waiting requester))) action := by
  cases hturn with
  | quiet h => exact settle_quiet h (.inr ⟨requester, rfl⟩)
  | saves members accepted frames next hnext hchat memory =>
    refine .saves requester attempt chat hprepared members.participants ?_ rfl ?_ ?_ memory
    · simp only [settle, accepted, toList_none, append_nil]
    · exact ⟨next, by simp only [settle, hnext, map_some], hchat⟩
    · rw [sentSince_eq rfl, frames]
      exact noDelivery_nil
  | accepts h => exact settle_accepts h (.inl ⟨attempt, hprepared⟩) (.inr rfl)

theorem effect_of_same (hmembers : d.room.participants = c.room.participants)
    (haccepted : d.accepted = c.accepted) (hsessions : d.nextSession = c.nextSession)
    (hpending : SamePending c d) {frames : List Frame}
    (hsent : d.sent = c.sent ++ frames) (hframes : NoDelivery frames)
    (hmemory : MemoryOp size (c.sources action) c.room.social d.room.social) :
    Effect size c d action := by
  refine .quiet ?_ haccepted hsessions hpending ?_ hmemory.change
  · rw [hmembers]
  · rw [sentSince_eq hsent]
    exact hframes

theorem noDelivery_of_sent (h : d.sent = c.sent) : NoDelivery (c.sentSince d) := by
  rw [sentSince_eq (h.trans (append_nil _).symm)]
  exact noDelivery_nil

variable {around : Surroundings}

theorem beginTurn_next_of_free {request : ChatRequest} {fresh : MessageId}
    (h : c.needsControl requester request = false) :
    (c.room.beginTurn size requester c.database.isSome around fresh
      request).next = none := by
  cases request with
  | chat attempt =>
    simp only [needsControl, Bool.not_eq_false'] at h
    simp only [beginTurn, if_pos h]
    exact immediateTurn_next attempt fresh
  | social request =>
    cases request with
    | snapshot =>
      simp only [beginTurn, beginSocial]
      split <;> rfl
    | _ => cases h

theorem requestStep_effect {request : ChatRequest}
    (h : c.requestStep size requester request around = some d) :
    Effect size c d (.request requester request around) := by
  unfold requestStep at h
  split at h
  · cases h
  rename_i hidle
  simp only [Bool.not_eq_true, Bool.not_eq_false'] at hidle
  simp only at h
  split at h
  · split at h
    · cases h
    cases h
    rcases c.room.beginTurn_cases c.nextMessage request with
      hquiet | ⟨attempt, chat, hprepared, hhandles⟩
    · exact settle_quiet hquiet (.inr ⟨requester, rfl⟩)
    · exact settle_handles hprepared hhandles
  · rename_i hfree
    cases h
    rcases c.room.beginTurn_cases c.nextMessage request with
      hquiet | ⟨attempt, chat, hprepared, hhandles⟩
    · exact settle_quiet hquiet (.inl rfl)
    cases hhandles with
    | quiet h => exact settle_quiet h (.inl rfl)
    | saves _ _ _ next hnext =>
      rw [beginTurn_next_of_free (by simpa using hfree)] at hnext
      cases hnext
    | accepts h => exact settle_accepts h (.inl ⟨attempt, hprepared⟩) (.inl ⟨rfl, hidle⟩)

theorem failureFrame_noDelivery (requester : Requester) (next : Waiting)
    (error : RoomError) : NoDelivery [failureFrame requester next error] := by
  refine noDelivery_singleton ?_
  unfold failureFrame
  split
  · split <;> rfl
  · split <;> rfl
  · rfl

variable {faults : Faults}

theorem workStep_effect (h : c.workStep size around faults = some d) : Effect size c d action := by
  unfold workStep at h
  split at h
  · rename_i requester next db hholder hdb
    split at h
    · rename_i answer conn hwork
      cases h
      exact .works requester next answer hholder rfl rfl rfl rfl rfl
        ⟨around, faults, db, hdb, by rw [hwork]⟩
    rename_i stop conn hwork
    cases h
    refine effect_of_same ?_ rfl rfl (samePending_of_free rfl) rfl
      (failureFrame_noDelivery _ _ _) ?_
    · simp only
      split <;> rfl
    simp only
    split
    · exact .same
    · exact .same
  · cases h

theorem resumeStep_effect (h : c.resumeStep size around = some d) :
    Effect size c d (.resume around) := by
  unfold resumeStep at h
  split at h
  · rename_i requester answer hholder
    cases h
    have hsources : c.sources (.resume around) = answer.sources := by
      simp only [sources, hholder]
    rcases c.room.resumeTurn_cases c.nextMessage answer with
      hquiet | ⟨attempt, chat, hprepared, hhandles⟩ | ⟨chat, hchat, hmember, haccepts⟩
    · exact settle_quiet (hsources ▸ hquiet) (.inr ⟨requester, rfl⟩)
    · exact settle_handles hprepared (hsources ▸ hhandles)
    · refine settle_accepts haccepts (.inr ⟨hmember, ?_⟩) (.inr rfl)
      simp only [pendingChat, hholder, hchat, map_some]
  · rename_i hholder
    cases h
    exact effect_of_same (completeUpdate_members _).participants rfl rfl
      (samePending_of_free rfl) rfl (completeUpdate_noDelivery _)
      (completeUpdate_memory (by simp only [sources, hholder]; rfl))
  · cases h

theorem completeStep_effect {index : ℕ} (h : c.completeStep size index faults = some d) :
    Effect size c d (.complete index faults) := by
  unfold completeStep at h
  split at h
  · rename_i hupdate
    have hdropped : Effect size c { c with updates := c.updates.eraseIdx index }
        (.complete index faults) :=
      effect_of_same rfl rfl rfl (.inl rfl)
        (append_nil _).symm noDelivery_nil .same
    simp only at h
    split at h
    · split at h
      · split at h
        · cases h
          exact effect_of_same rfl rfl rfl
            (.inr ⟨rfl, fun _ _ heq => by cases heq⟩)
            (append_nil _).symm noDelivery_nil .same
        · cases h
          exact hdropped
      · cases h
        exact hdropped
    · cases h
      exact effect_of_same (completeUpdate_members _).participants rfl rfl
        (.inl rfl) rfl (completeUpdate_noDelivery _)
        (completeUpdate_memory (by simp only [sources, hupdate]; rfl))
  · cases h

theorem httpStep_effect {write : Sql ChatEntry} {reactions : Bool}
    (h : c.httpStep write reactions faults = some d) :
    Effect size c d action := by
  unfold httpStep at h
  split at h
  · cases h
  · split at h <;> cases h <;> exact effect_of_same rfl rfl rfl (.inl rfl)
        (append_nil _).symm noDelivery_nil .same

theorem step_effect (h : c.step size action = some d) : Effect size c d action := by
  cases action with
  | join newcomer =>
    simp only [step, joinStep] at h
    split at h
    · rename_i hjoins
      simp only [Bool.and_eq_true] at hjoins
      cases h
      refine .joins newcomer _ hjoins.1 (fun p hp hid => ?_) rfl rfl rfl rfl rfl rfl
      have hnone := isNone_iff_eq_none.mp hjoins.2
      exact absurd (decide_eq_true hid) (List.find?_eq_none.mp hnone p hp)
    · cases h
  | leave =>
    cases h
    exact .quiet filter_sublist rfl rfl (.inl rfl) (noDelivery_of_sent rfl) (.refl _)
  | change id change =>
    simp only [step, changeStep] at h
    split at h
    · rename_i hidle
      cases h
      exact .changes id change hidle rfl rfl rfl rfl rfl rfl
    · cases h
  | settings | expire | cleanUp | account =>
    cases h
    exact effect_of_same rfl rfl rfl (.inl rfl) (append_nil _).symm noDelivery_nil .same
  | recreate =>
    simp only [step, recreateStep] at h
    split at h
    · cases h
    · cases h
      exact .recreates rfl rfl rfl rfl rfl rfl
  | request => exact requestStep_effect h
  | work => exact workStep_effect h
  | resume => exact resumeStep_effect h
  | complete => exact completeStep_effect h
  | httpSend own peer request around faults =>
    simp only [step, httpSendStep] at h
    split at h
    · cases h
    · split at h <;> cases h <;>
        exact .http rfl rfl rfl rfl ⟨own, peer, request, around, faults, rfl⟩
  | httpEdit | httpReact => exact httpStep_effect h

end ChatSystem

end SimplestChat
