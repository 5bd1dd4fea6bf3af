import SimplestChat.Chat.Effects

/-!
# Accepting each sequenced message once

A membership numbers its chat attempts. A repeated attempt is answered from
its receipt, from the history, or by the membership's high-water mark, which
moves to the sequence of each accepted attempt. The mark outlives receipts
and history entries, so it alone must keep a sequence from being accepted
twice.
-/

namespace SimplestChat

open List Option Transition

/-! ## Changes of a member -/

structure MemberChange.Keeps (change : MemberChange) (p q : Member) : Prop where
  id : q.id = p.id
  session : q.mediaSessionId = p.mediaSessionId
  highWater : q.social.chatHighWater = p.social.chatHighWater
  sender : q.sender = p.sender ∨ change.sender? = some q.sender

theorem MemberChange.keeps (change : MemberChange) (id : ParticipantId)
    (p : Member) : change.Keeps p (if p.id = id then change.apply p else p) := by
  split
  · cases change with
    | rebind => exact ⟨rfl, rfl, rfl, .inr rfl⟩
    | _ => exact ⟨rfl, rfl, rfl, .inl rfl⟩
  · exact ⟨rfl, rfl, rfl, .inl rfl⟩

def Acceptance.Before (a b : Acceptance) : Prop :=
  a.session = b.session → ∀ m ∈ a.sequence, ∀ n ∈ b.sequence, m < n

namespace ChatSystem

variable {c d : ChatSystem} {size : ChatEntry → ℕ} {action : ChatAction}

/-! ## The invariant -/

/-- Sessions are new at each join, the high-water mark covers what has been
accepted, and the waiting message is above it. -/
structure Sequenced (c : ChatSystem) : Prop where
  ids : c.room.participants.Pairwise fun p q => p.id ≠ q.id
  distinct : c.room.participants.Pairwise fun p q =>
    p.mediaSessionId ≠ q.mediaSessionId
  used : ∀ p ∈ c.room.participants, ∃ n < c.nextSession, p.mediaSessionId = .media n
  past : ∀ a ∈ c.accepted, ∃ n < c.nextSession, a.session = .media n
  reached : ∀ p ∈ c.room.participants, ∀ a ∈ c.accepted,
    a.session = p.mediaSessionId → ∀ n ∈ a.sequence, n ≤ p.social.chatHighWater
  increasing : c.accepted.Pairwise Acceptance.Before
  pending : ∀ requester chat, c.pendingChat = some (requester, chat) →
    ∀ p ∈ c.room.participants, p.id = requester.participant →
      p.sender = requester.sender → chat.senderSession = p.mediaSessionId ∧
        ∀ n ∈ chat.sequence, p.social.chatHighWater < n

theorem sequenced_start (room : ChatRoom) (database : Option Database) :
    (start room database).Sequenced where
  ids := List.Pairwise.nil
  distinct := List.Pairwise.nil
  used _ h := by cases h
  past _ h := by cases h
  reached _ h := by cases h
  increasing := List.Pairwise.nil
  pending _ _ h := by cases h

variable {requester : Requester}

theorem pending_ne_of_idle {sender : SenderId} (hidle : c.idle sender) {chat : PreparedChat}
    (h : c.pendingChat = some (requester, chat)) : requester.sender ≠ sender := by
  unfold pendingChat at h
  unfold idle at hidle
  split at h
  · rename_i requester' next hholder
    obtain ⟨chat', -, heq⟩ := map_eq_some_iff.mp h
    cases heq
    simpa [hholder] using hidle
  · rename_i hholder
    obtain ⟨chat', -, heq⟩ := map_eq_some_iff.mp h
    cases heq
    simpa [hholder] using hidle
  · cases h

theorem mem_of_participantForSender {room : ChatRoom}
    {member : Member} (h : room.participantForSender requester = .ok member) :
    member ∈ room.participants ∧ member.id = requester.participant ∧
      member.sender = requester.sender := by
  unfold ChatRoom.participantForSender at h
  split at h
  · cases h
  split at h
  · cases h
  split at h
  · rename_i hfound hsender
    cases h
    unfold ChatRoom.member at hfound
    have hid := List.find?_some hfound
    exact ⟨List.mem_of_find?_eq_some hfound, of_decide_eq_true hid, hsender⟩
  · cases h

namespace Sequenced

variable {p : Member}

section

variable (hc : c.Sequenced)
include hc

theorem eq_of_id {q : Member} (hp : p ∈ c.room.participants)
    (hq : q ∈ c.room.participants) (hid : p.id = q.id) : p = q :=
  inj_on_of_nodup_map (pairwise_map.mpr hc.ids) hp hq hid

theorem eq_of_session {q : Member} (hp : p ∈ c.room.participants)
    (hq : q ∈ c.room.participants) (hsession : p.mediaSessionId = q.mediaSessionId) :
    p = q :=
  inj_on_of_nodup_map (pairwise_map.mpr hc.distinct) hp hq hsession

theorem of_sublist (members : d.room.participants.Sublist c.room.participants)
    (accepted : d.accepted = c.accepted) (sessions : d.nextSession = c.nextSession)
    (pending : ∀ requester chat', d.pendingChat = some (requester, chat') →
      ∃ chat, c.pendingChat = some (requester, chat) ∧ SameAttempt chat chat') :
    d.Sequenced where
  ids := hc.ids.sublist members
  distinct := hc.distinct.sublist members
  used p hp := sessions ▸ hc.used p (members.subset hp)
  past a ha := sessions ▸ hc.past a (accepted ▸ ha)
  reached p hp a ha := hc.reached p (members.subset hp) a (accepted ▸ ha)
  increasing := accepted ▸ hc.increasing
  pending requester chat' h p hp hid hsender := by
    obtain ⟨chat, hchat, hsame⟩ := pending requester chat' h
    rw [hsame.senderSession, hsame.sequence]
    exact hc.pending requester chat hchat p (members.subset hp) hid hsender

theorem joins (newcomer : Newcomer) (sequence : ℕ) (idle : c.idle newcomer.sender)
    (absent : ∀ p ∈ c.room.participants, p.id ≠ newcomer.id)
    (members : d.room.participants =
      c.room.participants ++ [newcomer.member c.nextSession sequence])
    (accepted : d.accepted = c.accepted) (sessions : d.nextSession = c.nextSession + 1)
    (holder : d.holder = c.holder) : d.Sequenced where
  ids := by
    rw [members]
    refine pairwise_append.mpr ⟨hc.ids, pairwise_singleton _ _, ?_⟩
    intro p hp q hq
    rw [mem_singleton.mp hq]
    exact absent p hp
  distinct := by
    rw [members]
    refine pairwise_append.mpr ⟨hc.distinct, pairwise_singleton _ _, ?_⟩
    intro p hp q hq heq
    obtain ⟨n, hn, hsession⟩ := hc.used p hp
    rw [mem_singleton.mp hq, hsession] at heq
    cases heq
    exact Nat.lt_irrefl _ hn
  used p hp := by
    rw [members] at hp
    rw [sessions]
    rcases mem_append.mp hp with hp | hp
    · obtain ⟨n, hn, hsession⟩ := hc.used p hp
      exact ⟨n, Nat.lt_succ_of_lt hn, hsession⟩
    · rw [mem_singleton.mp hp]
      exact ⟨c.nextSession, Nat.lt_succ_self _, rfl⟩
  past a ha := by
    obtain ⟨n, hn, hsession⟩ := hc.past a (accepted ▸ ha)
    exact ⟨n, sessions ▸ Nat.lt_succ_of_lt hn, hsession⟩
  reached p hp a ha hsession := by
    rw [members] at hp
    rw [accepted] at ha
    rcases mem_append.mp hp with hp | hp
    · exact hc.reached p hp a ha hsession
    -- nothing has been accepted in a session that is not yet used
    obtain ⟨n, hn, hpast⟩ := hc.past a ha
    rw [mem_singleton.mp hp, hpast] at hsession
    cases hsession
    exact absurd hn (Nat.lt_irrefl _)
  increasing := accepted ▸ hc.increasing
  pending requester chat h p hp hid hsender := by
    have hwas : c.pendingChat = some (requester, chat) := by
      simpa only [pendingChat, holder] using h
    rw [members] at hp
    rcases mem_append.mp hp with hp | hp
    · exact hc.pending requester chat hwas p hp hid hsender
    · rw [mem_singleton.mp hp] at hsender
      exact absurd hsender.symm (pending_ne_of_idle idle hwas)

theorem changes (id : ParticipantId) (change : MemberChange) (idle : change.sender?.all c.idle)
    (members : d.room.participants = c.room.participants.map fun p =>
      if p.id = id then change.apply p else p) (accepted : d.accepted = c.accepted)
    (sessions : d.nextSession = c.nextSession) (holder : d.holder = c.holder) :
    d.Sequenced := by
  have hkept := change.keeps id
  constructor
  · rw [members, pairwise_map]
    simp only [(hkept _).id]
    exact hc.ids
  · rw [members, pairwise_map]
    simp only [(hkept _).session]
    exact hc.distinct
  · intro p hp
    rw [members] at hp
    obtain ⟨q, hq, rfl⟩ := List.mem_map.mp hp
    rw [(hkept q).session, sessions]
    exact hc.used q hq
  · intro a ha
    rw [sessions]
    exact hc.past a (accepted ▸ ha)
  · intro p hp
    rw [members] at hp
    obtain ⟨q, hq, rfl⟩ := List.mem_map.mp hp
    rw [(hkept q).session, (hkept q).highWater, accepted]
    exact hc.reached q hq
  · rw [accepted]
    exact hc.increasing
  · intro requester chat h p hp hid hsender
    have hwas : c.pendingChat = some (requester, chat) := by
      simpa only [pendingChat, holder] using h
    rw [members] at hp
    obtain ⟨q, hq, rfl⟩ := List.mem_map.mp hp
    rw [(hkept q).id] at hid
    rw [(hkept q).session, (hkept q).highWater]
    rcases (hkept q).sender with hsame | hown
    · rw [hsame] at hsender
      exact hc.pending requester chat hwas q hq hid hsender
    · rw [hown, hsender] at idle
      exact absurd rfl (pending_ne_of_idle (by simpa using idle) hwas)

theorem prepared {requester : Requester} {attempt : ChatAttempt} {chat : PreparedChat}
    (h : c.room.PreparedFor size requester attempt c.nextMessage chat)
    (hp : p ∈ c.room.participants) (hid : p.id = requester.participant) :
    chat.senderSession = p.mediaSessionId ∧ ∀ n ∈ chat.sequence, p.social.chatHighWater < n := by
  obtain ⟨member, hmember, hsession, hlater⟩ := h.sender
  obtain ⟨hmem, hmid, -⟩ := mem_of_participantForSender hmember
  rw [hc.eq_of_id hp hmem (hid.trans hmid.symm), h.sequence]
  exact ⟨hsession, hlater⟩

theorem sender_of_accepts {requester : Requester} {chat : PreparedChat}
    (origin : c.Offers size requester chat) :
    ∃ member ∈ c.room.participants, member.id = requester.participant ∧
      member.sender = requester.sender ∧
      chat.senderSession = member.mediaSessionId ∧
      ∀ n ∈ chat.sequence, member.social.chatHighWater < n := by
  rcases origin with ⟨attempt, h⟩ | ⟨⟨member, hmember⟩, hpending⟩
  · obtain ⟨member, hmember, -⟩ := h.sender
    obtain ⟨hmem, hid, hsender⟩ := mem_of_participantForSender hmember
    exact ⟨member, hmem, hid, hsender, hc.prepared h hmem hid⟩
  · obtain ⟨hmem, hid, hsender⟩ := mem_of_participantForSender hmember
    exact ⟨member, hmem, hid, hsender, hc.pending requester chat hpending member hmem hid hsender⟩

theorem saves (requester : Requester) (attempt : ChatAttempt) (chat : PreparedChat)
    (prepared : c.room.PreparedFor size requester attempt c.nextMessage chat)
    (members : d.room.participants = c.room.participants)
    (accepted : d.accepted = c.accepted) (sessions : d.nextSession = c.nextSession)
    (pending : d.pendingChat = some (requester, chat)) : d.Sequenced where
  ids := members ▸ hc.ids
  distinct := members ▸ hc.distinct
  used p hp := sessions ▸ hc.used p (members ▸ hp)
  past a ha := sessions ▸ hc.past a (accepted ▸ ha)
  reached p hp a ha := hc.reached p (members ▸ hp) a (accepted ▸ ha)
  increasing := accepted ▸ hc.increasing
  pending requester' chat' h p hp hid _ := by
    rw [pending] at h
    cases h
    exact hc.prepared prepared (members ▸ hp) hid

end

end Sequenced

/-- What the mark of a member becomes when a message of `id` is accepted. -/
def advanced (id : ParticipantId) (sequence : Option ℕ) (p : Member) : Member :=
  match sequence with
  | none => p
  | some n =>
    if p.id = id then { p with social := { p.social with chatHighWater := n } }
    else p

theorem advanceHighWater_participants (room : ChatRoom) (id : ParticipantId) (sequence : Option ℕ) :
    (room.advanceHighWater id sequence).participants =
      room.participants.map (advanced id sequence) := by
  cases sequence with
  | none => exact (List.map_id _).symm
  | some => rfl

@[simp] theorem advanced_id (id : ParticipantId) (sequence : Option ℕ)
    (p : Member) : (advanced id sequence p).id = p.id := by
  unfold advanced
  split
  · rfl
  · split <;> rfl

@[simp] theorem advanced_session (id : ParticipantId) (sequence : Option ℕ)
    (p : Member) : (advanced id sequence p).mediaSessionId = p.mediaSessionId := by
  unfold advanced
  split
  · rfl
  · split <;> rfl

@[simp] theorem advanced_sender (id : ParticipantId) (sequence : Option ℕ)
    (p : Member) : (advanced id sequence p).sender = p.sender := by
  unfold advanced
  split
  · rfl
  · split <;> rfl

theorem advanced_of_ne {id : ParticipantId} {p : Member} (h : p.id ≠ id)
    (sequence : Option ℕ) : advanced id sequence p = p := by
  unfold advanced
  split
  · rfl
  · exact if_neg h

theorem Sequenced.accepts (hc : c.Sequenced) {chat : PreparedChat}
    (origin : c.Offers size requester chat) (members : d.room.participants =
      (c.room.advanceHighWater requester.participant chat.sequence).participants)
    (accepted : d.accepted = c.accepted ++
      [⟨chat.senderSession, chat.sequence, chat.message.messageId⟩])
    (sessions : d.nextSession = c.nextSession)
    (holder : (d.holder = c.holder ∧ c.idle requester.sender) ∨ d.holder = none) :
    d.Sequenced := by
  obtain ⟨member, hmem, hmid, hmsender, hsession, hlater⟩ := hc.sender_of_accepts origin
  rw [advanceHighWater_participants] at members
  constructor
  · rw [members, pairwise_map]
    simpa only [advanced_id] using hc.ids
  · rw [members, pairwise_map]
    simpa only [advanced_session] using hc.distinct
  · intro p hp
    rw [members] at hp
    obtain ⟨q, hq, rfl⟩ := List.mem_map.mp hp
    rw [advanced_session, sessions]
    exact hc.used q hq
  · intro a ha
    rw [accepted] at ha
    rw [sessions]
    rcases mem_append.mp ha with ha | ha
    · exact hc.past a ha
    · rw [mem_singleton.mp ha]
      simpa only [hsession] using hc.used member hmem
  · intro p hp a ha hown n hn
    rw [members] at hp
    obtain ⟨q, hq, rfl⟩ := List.mem_map.mp hp
    rw [advanced_session] at hown
    rw [accepted] at ha
    by_cases hqid : q.id = requester.participant
    · obtain rfl := hc.eq_of_id hq hmem (hqid.trans hmid.symm)
      rcases mem_append.mp ha with ha | ha
      · have hwas := hc.reached q hq a ha hown n hn
        cases hseq : chat.sequence with
        | none => exact hwas
        | some m =>
          have hm : q.social.chatHighWater < m := hlater m hseq
          simp only [advanced, if_pos hqid]
          exact Nat.le_of_lt (Nat.lt_of_le_of_lt hwas hm)
      · rw [mem_singleton.mp ha] at hn
        have hseq : chat.sequence = some n := hn
        simp only [advanced, hseq, if_pos hqid]
        exact Nat.le_refl n
    · rw [advanced_of_ne hqid]
      rcases mem_append.mp ha with ha | ha
      · exact hc.reached q hq a ha hown n hn
      rw [mem_singleton.mp ha] at hown
      obtain rfl := hc.eq_of_session hmem hq (hsession.symm.trans hown)
      exact absurd hmid hqid
  · rw [accepted]
    refine pairwise_append.mpr ⟨hc.increasing, pairwise_singleton _ _, ?_⟩
    intro a ha b hb hsame m hm n hn
    rw [mem_singleton.mp hb] at hsame hn
    exact Nat.lt_of_le_of_lt
      (hc.reached member hmem a ha (hsame.trans hsession) m hm) (hlater n hn)
  · intro requester' chat' hpending p hp hid hsender
    rcases holder with ⟨hholder, hidle⟩ | hholder
    · have hwas : c.pendingChat = some (requester', chat') := by
        simpa only [pendingChat, hholder] using hpending
      rw [members] at hp
      obtain ⟨q, hq, rfl⟩ := List.mem_map.mp hp
      rw [advanced_id] at hid
      rw [advanced_sender] at hsender
      -- the waiting message is another connection's, so of another member
      have hqid : q.id ≠ requester.participant := by
        intro hqid
        obtain rfl := hc.eq_of_id hq hmem (hqid.trans hmid.symm)
        exact pending_ne_of_idle hidle hwas (hsender.symm.trans hmsender)
      rw [advanced_of_ne hqid]
      exact hc.pending requester' chat' hwas q hq hid hsender
    · simp only [pendingChat, hholder] at hpending
      cases hpending

theorem pending_of_same (h : SamePending c d) (requester : Requester)
    (chat' : PreparedChat) (hpending : d.pendingChat = some (requester, chat')) :
    ∃ chat, c.pendingChat = some (requester, chat) ∧ SameAttempt chat chat' := by
  rcases h.pendingChat with hnone | hsame
  · rw [hnone] at hpending
    cases hpending
  · exact ⟨chat', hsame ▸ hpending, rfl, rfl⟩

theorem Sequenced.step (hc : c.Sequenced) (h : c.step size action = some d) : d.Sequenced := by
  cases step_effect h with
  | quiet members accepted sessions pending =>
    exact hc.of_sublist members accepted sessions (pending_of_same pending)
  | works requester next answer waiting returning room accepted sessions _ worked =>
    refine hc.of_sublist (room ▸ List.Sublist.refl _) accepted sessions ?_
    intro requester' chat' hpending
    simp only [pendingChat, returning] at hpending
    obtain ⟨chat'', hanswer, heq⟩ := map_eq_some_iff.mp hpending
    cases heq
    obtain ⟨chat, hnext, hsame⟩ := worked.ensures (fun _ _ => trivial)
      (next.work_chat size _ _) chat' hanswer
    refine ⟨chat, ?_, hsame⟩
    simp only [pendingChat, waiting, Option.mem_def.mp hnext, map_some]
  | recreates members accepted sessions holder =>
    exact hc.of_sublist (members ▸ nil_sublist _) accepted sessions (pending_of_same (.inl holder))
  | http room accepted sessions holder =>
    exact hc.of_sublist (room ▸ List.Sublist.refl _) accepted sessions
      (pending_of_same (.inl holder))
  | joins newcomer sequence idle absent members accepted sessions holder =>
    exact hc.joins newcomer sequence idle absent members accepted sessions holder
  | changes id change idle members accepted sessions holder =>
    exact hc.changes id change idle members accepted sessions holder
  | saves requester attempt chat prepared members accepted sessions pending =>
    exact hc.saves requester attempt chat prepared members accepted sessions pending.pendingChat
  | accepts requester chat origin members accepted sessions holder =>
    exact hc.accepts origin members accepted sessions holder

theorem sequenced_of_run {room : ChatRoom} {database : Option Database} {actions : List ChatAction}
    (hrun : run (step size) (start room database) actions = some c) :
    c.Sequenced :=
  run_kept (fun _ _ _ hs h => hs.step h) (sequenced_start room database) hrun

/-! ## Deliveries -/

/-- The frames deliver this message and no other, at most once to each
participant. -/
structure DeliversOnce (id : MessageId) (frames : List Frame) : Prop where
  message : ∀ frame ∈ frames, ∀ other ∈ frame.message.delivers, other = id
  once : (frames.filter fun frame => frame.message.delivers.isSome).Pairwise
    fun f g => f.participant ≠ g.participant

theorem Sequenced.delivers (hc : c.Sequenced) (chat : PreparedChat) (delivered : Bool) :
    DeliversOnce chat.message.messageId
      (c.room.delivery chat requester.participant delivered ++
        [requester.frame chat.message.ack]) := by
  have hack : ([requester.frame chat.message.ack].filter
      fun frame => frame.message.delivers.isSome) = [] := rfl
  constructor
  · intro frame hframe other hother
    rcases mem_append.mp hframe with hframe | hframe
    · unfold ChatRoom.delivery at hframe
      split at hframe
      · split at hframe
        · rw [mem_singleton.mp hframe] at hother
          exact (Option.some.inj hother).symm
        · cases hframe
      · obtain ⟨member, -, rfl⟩ := List.mem_map.mp hframe
        exact (Option.some.inj hother).symm
    · rw [mem_singleton.mp hframe] at hother
      cases hother
  · rw [filter_append, hack, append_nil]
    refine List.Pairwise.filter _ ?_
    unfold ChatRoom.delivery
    split
    · split
      · exact pairwise_singleton _ _
      · exact List.Pairwise.nil
    · exact pairwise_map.mpr (hc.ids.filter _)

theorem Sequenced.highWater_mono (hc : c.Sequenced) (h : c.step size action = some d)
    {p q : Member} (hp : p ∈ c.room.participants) (hq : q ∈ d.room.participants)
    (hsession : q.mediaSessionId = p.mediaSessionId) :
    p.social.chatHighWater ≤ q.social.chatHighWater := by
  have hsame : ∀ q ∈ c.room.participants, q.mediaSessionId = p.mediaSessionId →
      p.social.chatHighWater ≤ q.social.chatHighWater := by
    intro q hq hsession
    exact Nat.le_of_eq (by rw [hc.eq_of_session hq hp hsession])
  cases step_effect h with
  | quiet members => exact hsame q (members.subset hq) hsession
  | works _ _ _ _ _ room => exact hsame q (room ▸ hq) hsession
  | recreates members =>
    rw [members] at hq
    cases hq
  | http room => exact hsame q (room ▸ hq) hsession
  | joins newcomer sequence _ _ members =>
    rw [members] at hq
    rcases mem_append.mp hq with hq | hq
    · exact hsame q hq hsession
    obtain ⟨n, hn, hused⟩ := hc.used p hp
    rw [mem_singleton.mp hq, hused] at hsession
    cases hsession
    exact absurd hn (Nat.lt_irrefl _)
  | changes id change _ members =>
    rw [members] at hq
    obtain ⟨r, hr, rfl⟩ := List.mem_map.mp hq
    have hkept := change.keeps id r
    rw [hkept.session] at hsession
    rw [hkept.highWater]
    exact hsame r hr hsession
  | saves _ _ _ _ members => exact hsame q (members ▸ hq) hsession
  | accepts requester chat origin members =>
    obtain ⟨member, hmem, hmid, -, -, hlater⟩ := hc.sender_of_accepts origin
    rw [members, advanceHighWater_participants] at hq
    obtain ⟨r, hr, rfl⟩ := List.mem_map.mp hq
    rw [advanced_session] at hsession
    obtain rfl := hc.eq_of_session hr hp hsession
    by_cases hid : r.id = requester.participant
    · obtain rfl := hc.eq_of_id hr hmem (hid.trans hmid.symm)
      cases hseq : chat.sequence with
      | none => exact Nat.le_refl _
      | some m =>
        simp only [advanced, if_pos hid]
        exact Nat.le_of_lt (hlater m hseq)
    · exact Nat.le_of_eq (by rw [advanced_of_ne hid])

/-- What a step delivers it has just accepted, unless it came over HTTP, which
has neither memberships nor sequences. -/
theorem Sequenced.step_delivers (hc : c.Sequenced) (h : c.step size action = some d) :
    (NoDelivery (c.sentSince d) ∧ d.accepted = c.accepted) ∨ (∃ own peer request around faults,
        action = .httpSend own peer request around faults ∧ d.accepted = c.accepted) ∨
      ∃ a, d.accepted = c.accepted ++ [a] ∧ DeliversOnce a.message (c.sentSince d) := by
  cases step_effect h with
  | quiet _ accepted _ _ frames => exact .inl ⟨frames, accepted⟩
  | works _ _ _ _ _ _ accepted _ frames => exact .inl ⟨noDelivery_of_sent frames, accepted⟩
  | recreates _ accepted _ _ frames => exact .inl ⟨noDelivery_of_sent frames, accepted⟩
  | http _ accepted _ _ send =>
    obtain ⟨own, peer, request, around, faults, haction⟩ := send
    exact .inr (.inl ⟨own, peer, request, around, faults, haction, accepted⟩)
  | joins _ _ _ _ _ accepted _ _ frames => exact .inl ⟨noDelivery_of_sent frames, accepted⟩
  | changes _ _ _ _ accepted _ _ frames => exact .inl ⟨noDelivery_of_sent frames, accepted⟩
  | saves _ _ _ _ _ accepted _ _ frames => exact .inl ⟨frames, accepted⟩
  | accepts requester chat _ _ accepted _ _ frames =>
    obtain ⟨delivered, hframes⟩ := frames
    refine .inr (.inr ⟨_, accepted, ?_⟩)
    rw [hframes]
    exact hc.delivers chat delivered

/-- In every run, each membership's sequences are accepted in strictly
increasing order, its mark never moves back, and only what a step accepts is
delivered, once to each participant. So no sequence of a membership is
delivered again, however receipts and history entries are dropped. -/
theorem sequenced_attempts_delivered_once {room : ChatRoom}
    {database : Option Database} {actions : List ChatAction}
    (hrun : run (step size) (start room database) actions = some c) :
    c.accepted.Pairwise Acceptance.Before ∧ ∀ action d, c.step size action = some d →
        (∀ p ∈ c.room.participants, ∀ q ∈ d.room.participants, q.mediaSessionId = p.mediaSessionId →
            p.social.chatHighWater ≤ q.social.chatHighWater) ∧
        ((NoDelivery (c.sentSince d) ∧ d.accepted = c.accepted) ∨ (∃ own peer request around faults,
            action = .httpSend own peer request around faults ∧ d.accepted = c.accepted) ∨
          ∃ a, d.accepted = c.accepted ++ [a] ∧ DeliversOnce a.message (c.sentSince d)) := by
  have hc := sequenced_of_run hrun
  refine ⟨hc.increasing, fun action d hstep => ⟨?_, hc.step_delivers hstep⟩⟩
  intro p hp q hq hsession
  exact hc.highWater_mono hstep hp hq hsession

def sequenced (text clientMessageId : String) (sequence : ℕ) : ChatRequest :=
  .chat ⟨text.toList, [], clientMessageId, none, some sequence, some 0, none⟩

def retriesLate : List ChatAction := [.join ⟨1, "Al", .member, true, 10, false, true, []⟩,
    .join ⟨2, "Bo", .guest, false, 20, false, true, []⟩,
    .request ⟨1, 10⟩ (sequenced "one" "a" 4) plainSurroundings,
    .request ⟨1, 10⟩ (sequenced "two" "b" 7) plainSurroundings,
    .request ⟨1, 10⟩ (sequenced "one" "a" 4)
      { plainSurroundings with now := 1000000 }]

theorem retriesLate_delivered_once : ∃ c,
    run (step sampleSize) (start plainRoom none) retriesLate = some c ∧
      c.accepted = [⟨.media 0, some 4, 0⟩, ⟨.media 0, some 7, 1⟩] ∧
      c.sent.getLast? = some ⟨1, 10, .messageRetryResult "a" .sequenceSuperseded⟩ ∧
      c.accepted.Pairwise Acceptance.Before := by
  obtain ⟨c, hrun, haccepted, hlast⟩ : ∃ c,
      run (step sampleSize) (start plainRoom none) retriesLate = some c ∧
        c.accepted = [⟨.media 0, some 4, 0⟩, ⟨.media 0, some 7, 1⟩] ∧
        c.sent.getLast? = some ⟨1, 10, .messageRetryResult "a" .sequenceSuperseded⟩ :=
    exists_of_any (by decide +kernel)
  exact ⟨c, hrun, haccepted, hlast, (sequenced_attempts_delivered_once hrun).1⟩

end ChatSystem

end SimplestChat
