import SimplestChat.Chat.CopiesKept

/-!
# What a message ID decides

Message IDs are never used twice, so an ID decides who wrote the message and
to whom, and a reply is of the same kind, public or private, as the message it
quotes. `ends` assigns its two ends to each ID below `next`.
-/

namespace SimplestChat

/-- The entry has an ID in use, its author and recipient, and quotes of its own kind. -/
structure Known (ends : MessageId → Ends) (next : MessageId) (e : ChatEntry) : Prop where
  id : e.messageId < next
  own : ends e.messageId = (e.participantId, e.recipientId)
  quotes : ∀ reply, e.replyTo = some reply → reply.messageId < next ∧
    (ends reply.messageId).2.isSome = e.recipientId.isSome

variable {ends ends' : MessageId → Ends} {next next' : MessageId}

variable {e : ChatEntry}

theorem requote_eq_some {id : MessageId} {excerpt : Text}
    {reply : ChatReplyRef} (h : (e.requote id excerpt).replyTo = some reply) :
    ∃ old, e.replyTo = some old ∧ reply.messageId = old.messageId ∧
      reply.excerpt = if old.messageId = id then excerpt else old.excerpt := by
  obtain ⟨old, hold, rfl⟩ := Option.map_eq_some_iff.mp h
  refine ⟨old, hold, ?_⟩
  split <;> exact ⟨rfl, rfl⟩

theorem Known.requote (h : Known ends next e) (id : MessageId)
    (excerpt : Text) : Known ends next (e.requote id excerpt) where
  id := h.id
  own := h.own
  quotes reply hreply := by
    obtain ⟨old, hold, hid, -⟩ := requote_eq_some hreply
    rw [hid]
    exact h.quotes old hold

theorem known_law : EntryLaw (Known ends next) where
  setReactions _ _ h := ⟨h.id, h.own, h.quotes⟩
  setAccount _ _ h := ⟨h.id, h.own, h.quotes⟩
  attach _ _ h _ := ⟨h.id, h.own, h.quotes⟩
  edit _ _ _ _ h _ := ⟨h.id, h.own, h.quotes⟩
  requote _ _ h _ _ := h.requote _ _
  erase _ _ h _ := ⟨h.id, h.own, nofun⟩
  unquote _ _ h := h.requote _ _
  same e e' h h' hid := by
    have heq := h.own
    rw [hid, h'.own] at heq
    obtain ⟨hauthor, hrecipient⟩ := Prod.mk.inj heq
    exact ⟨hauthor.symm, hrecipient.symm⟩

theorem Known.mono (h : Known ends next e) (hnext : next ≤ next')
    (hends : ∀ id < next, ends' id = ends id) : Known ends' next' e where
  id := Nat.lt_of_lt_of_le h.id hnext
  own := by rw [hends _ h.id, h.own]
  quotes reply hreply := by
    obtain ⟨hlt, hkind⟩ := h.quotes reply hreply
    rw [hends _ hlt]
    exact ⟨Nat.lt_of_lt_of_le hlt hnext, hkind⟩

theorem Composed.known {P : ChatEntry → Prop} {fresh : MessageId}
    (h : Composed P fresh (ends fresh) e) (hfresh : fresh < next)
    (hP : ∀ o, P o → Known ends next o) : Known ends next e where
  id := by
    rw [h.messageId]
    exact hfresh
  own := by rw [h.messageId, h.participantId, h.recipientId]
  quotes reply hreply := by
    obtain ⟨original, horiginal, -, hkind, hid, -⟩ := h.quotes reply hreply
    have hknown := hP original horiginal
    rw [hid, hknown.own]
    exact ⟨hknown.id, hkind⟩

namespace ChatSystem

variable {c d : ChatSystem} {size : ChatEntry → ℕ} {action : ChatAction}

theorem httpStep_nextMessage {write : Sql ChatEntry} {reactions : Bool}
    {faults : Faults} (h : c.httpStep write reactions faults = some d) :
    c.nextMessage ≤ d.nextMessage := by
  unfold httpStep at h
  split at h
  · cases h
  · split at h <;> cases h <;> exact Nat.le_refl _

/-- IDs are handed out in order, and a step that may compose uses one up. -/
theorem step_nextMessage (h : c.step size action = some d) : c.nextMessage ≤ d.nextMessage ∧
      ∀ ends ∈ c.composes action, d.nextMessage = c.nextMessage + 1 := by
  cases action with
  | join =>
    simp only [step, joinStep] at h
    split at h <;> cases h
    exact ⟨Nat.le_refl _, by rintro _ ⟨⟩⟩
  | change =>
    simp only [step, changeStep] at h
    split at h <;> cases h
    exact ⟨Nat.le_refl _, by rintro _ ⟨⟩⟩
  | recreate =>
    simp only [step, recreateStep] at h
    split at h <;> cases h
    exact ⟨Nat.le_refl _, by rintro _ ⟨⟩⟩
  | request =>
    simp only [step, requestStep] at h
    split at h
    · cases h
    split at h
    · split at h <;> cases h
      exact ⟨Nat.le_succ _, fun _ _ => rfl⟩
    · cases h
      exact ⟨Nat.le_succ _, fun _ _ => rfl⟩
  | work =>
    simp only [step, workStep] at h
    split at h
    · split at h <;> cases h <;> exact ⟨Nat.le_refl _, by rintro _ ⟨⟩⟩
    · cases h
  | resume around =>
    simp only [step, resumeStep] at h
    split at h
    · cases h
      exact ⟨Nat.le_succ _, fun _ _ => rfl⟩
    · rename_i hholder
      cases h
      refine ⟨Nat.le_refl _, fun _ h => ?_⟩
      simp [composes, hholder] at h
    · cases h
  | complete =>
    refine ⟨?_, by rintro _ ⟨⟩⟩
    simp only [step, completeStep] at h
    split at h
    · split at h
      · split at h
        · split at h <;> cases h <;> exact Nat.le_refl _
        · cases h
          exact Nat.le_refl _
      · cases h
        exact Nat.le_refl _
    · cases h
  | httpSend =>
    simp only [step, httpSendStep] at h
    split at h
    · cases h
    · split at h <;> cases h <;> exact ⟨Nat.le_succ _, fun _ _ => rfl⟩
  | httpEdit | httpReact => exact ⟨httpStep_nextMessage h, by rintro _ ⟨⟩⟩
  | settings =>
    cases h
    exact ⟨Nat.le_refl _, by rintro _ ⟨⟩⟩
  | _ => cases h; exact ⟨Nat.le_refl _, by rintro _ ⟨⟩⟩

variable {Q : ChatEntry → Prop}

theorem Sound.step_known {R : MessageId → Prop} (law : ChangeLaw Q)
    (hc : c.Sound fun e => Known ends c.nextMessage e ∧ Q e)
    (hremoves : ∀ id ∈ c.removes action, R id)
    (hfresh : ∀ ends e, Composed Q c.nextMessage ends e → Q e)
    (h : c.step size action = some d) :
    ∃ ends', (∀ id < c.nextMessage, ends' id = ends id) ∧
      StepSound (fun e => Known ends' d.nextMessage e ∧ Q e) R c d := by
  obtain ⟨hle, hnext⟩ := step_nextMessage h
  cases hcomposes : c.composes action with
  | none =>
    refine ⟨ends, fun _ _ => rfl, ?_⟩
    have hlater : c.Sound fun e => Known ends d.nextMessage e ∧ Q e :=
      hc.mono fun e he => ⟨he.1.mono hle fun _ _ => rfl, he.2⟩
    refine hlater.step (known_law.and law) hremoves (fun ends₀ h₀ => ?_) h
    rw [hcomposes] at h₀
    cases h₀
  | some ends₀ =>
    -- the step may compose a message under the next ID, so assign that first
    have hfreshEnds : ∀ id < c.nextMessage, Function.update ends c.nextMessage ends₀ id = ends id :=
      fun id hid => Function.update_of_ne (Nat.ne_of_lt hid) _ _
    refine ⟨Function.update ends c.nextMessage ends₀, hfreshEnds, ?_⟩
    have hlater : c.Sound fun e =>
        Known (Function.update ends c.nextMessage ends₀) d.nextMessage e ∧ Q e :=
      hc.mono fun e he => ⟨he.1.mono hle hfreshEnds, he.2⟩
    refine hlater.step (known_law.and law) hremoves (fun ends₁ h₁ e he => ?_) h
    rw [hcomposes] at h₁
    cases h₁
    generalize hends' : Function.update ends c.nextMessage ends₀ = ends' at *
    have hassigned : ends' c.nextMessage = ends₀ := by rw [← hends', Function.update_self]
    rw [← hassigned] at he
    have hlt : c.nextMessage < d.nextMessage := by
      rw [hnext ends₀ hcomposes]
      exact Nat.lt_succ_self _
    exact ⟨he.known hlt fun o ho => ho.1, hfresh _ e (he.mono fun o ho => ho.2)⟩

def Identified (Q : ChatEntry → Prop) (c : ChatSystem) : Prop :=
  ∃ ends, c.Sound fun e => Known ends c.nextMessage e ∧ Q e

theorem identified_start (room : ChatRoom)
    (database : Option Database) : (start room database).Identified Q :=
  ⟨fun _ => (0, none), sound_start room database⟩

theorem Identified.step (law : ChangeLaw Q) (hfresh : ∀ fresh ends e, Composed Q fresh ends e → Q e)
    (hc : c.Identified Q) (h : c.step size action = some d) : d.Identified Q := by
  obtain ⟨ends, hsound⟩ := hc
  obtain ⟨ends', -, hd⟩ := hsound.step_known (R := fun _ => True) law
    (fun _ _ => trivial) (hfresh _) h
  exact ⟨ends', hd.sound⟩

/-- A lawful property that new messages have holds of every copy in every
reachable state. -/
theorem identified_of_run (law : ChangeLaw Q)
    (hfresh : ∀ fresh ends e, Composed Q fresh ends e → Q e) {room : ChatRoom}
    {database : Option Database} {actions : List ChatAction}
    (h : Transition.run (step size) (start room database) actions = some c) :
    c.Identified Q :=
  Transition.run_kept (fun _ _ _ hc hstep => hc.step law hfresh hstep)
    (identified_start room database) h

theorem true_law : ChangeLaw fun _ => True := by constructor <;> intros <;> trivial

theorem Sound.run_known (hc : c.Sound (Known ends c.nextMessage)) (actions : List ChatAction) :
    ∃ ends', (∀ id < c.nextMessage, ends' id = ends id) ∧
      ∀ earlier before, earlier <+: actions →
        Transition.run (ChatSystem.step size) c earlier = some before →
        before.Sound (Known ends' before.nextMessage) := by
  induction actions generalizing c ends with
  | nil =>
    refine ⟨ends, fun _ _ => rfl, fun earlier before hearlier hrun => ?_⟩
    obtain rfl := List.prefix_nil.mp hearlier
    cases hrun
    exact hc
  | cons action rest ih =>
    cases hstep : c.step size action with
    | none =>
      -- the action is refused, so only the empty run ends
      refine ⟨ends, fun _ _ => rfl, fun earlier before hearlier hrun => ?_⟩
      cases earlier with
      | nil =>
        cases hrun
        exact hc
      | cons first tail =>
        obtain ⟨rfl, -⟩ := List.cons_prefix_cons.mp hearlier
        obtain ⟨d, hd, -⟩ := Transition.run_cons_eq_some.mp hrun
        rw [hstep] at hd
        cases hd
    | some d =>
      obtain ⟨ends₁, hsame, hd⟩ := Sound.step_known (R := fun _ => True) true_law
        (hc.mono fun _ he => ⟨he, trivial⟩) (fun _ _ => trivial) (fun _ _ _ => trivial) hstep
      obtain ⟨ends₂, hlater, hall⟩ := ih (hd.sound.mono fun _ he => he.1)
      have hle := (step_nextMessage hstep).1
      have hkept : ∀ id < c.nextMessage, ends₂ id = ends id := fun id hid =>
        (hlater id (Nat.lt_of_lt_of_le hid hle)).trans (hsame id hid)
      refine ⟨ends₂, hkept, fun earlier before hearlier hrun => ?_⟩
      cases earlier with
      | nil =>
        cases hrun
        exact hc.mono fun _ he => he.mono (Nat.le_refl _) hkept
      | cons first tail =>
        obtain ⟨rfl, htail⟩ := List.cons_prefix_cons.mp hearlier
        obtain ⟨d', hd', hrest⟩ := Transition.run_cons_eq_some.mp hrun
        obtain rfl := Option.some.inj (hstep.symm.trans hd')
        exact hall tail before htail hrest

/-- Over a whole run one assignment gives each ID its author and its recipient: in every
state on the way, every copy (in memory, in the saved rows, in what waits for the database
and in the scheduled completions) has the two ends of its ID and quotes only a message of
its kind. -/
theorem messages_attributed (size : ChatEntry → ℕ) (room : ChatRoom)
    (database : Option Database) (actions : List ChatAction) :
    ∃ ends, ∀ earlier before, earlier <+: actions →
      Transition.run (step size) (start room database) earlier = some before →
      before.Sound (Known ends before.nextMessage) := by
  have hstart : (start room database).Sound
      (Known (fun _ => (0, none)) (start room database).nextMessage) := sound_start room database
  obtain ⟨ends, -, hall⟩ := hstart.run_known actions
  exact ⟨ends, hall⟩

/-- A guest is answered in public, an account writes to another, which answers, and the
guest's message is edited. -/
def twoConversations : List ChatAction :=
  [.join ⟨1, "Al", .member, true, 10, false, true, []⟩,
    .join ⟨2, "Bo", .member, true, 20, false, true, []⟩,
    .join ⟨3, "Cy", .guest, false, 30, false, true, []⟩,
    .request ⟨3, 30⟩ (.chat ⟨"hello".toList, [], "a", none, none, none, none⟩) plainSurroundings,
    .request ⟨1, 10⟩ (.chat ⟨"hi".toList, [], "b", none, none, none, some 0⟩) plainSurroundings,
    .request ⟨1, 10⟩ (.chat ⟨"psst".toList, [], "c", some 2, none, none, none⟩)
      plainSurroundings,
    .request ⟨2, 20⟩ (.chat ⟨"yes".toList, [], "d", some 1, none, none, some 2⟩)
      plainSurroundings,
    .request ⟨3, 30⟩ (.social (.edit 0 ⟨"hello you".toList, 0⟩)) plainSurroundings]

def sentIn : List (MessageId × ℕ × Ends) :=
  [(0, 1, 3, none), (1, 0, 1, none), (2, 0, 1, some 2), (3, 0, 2, some 1)]

theorem twoConversations_attributed : ∃ c ends,
    Transition.run (step sampleSize) (start plainRoom none) twoConversations = some c ∧
      c.Sound (Known ends c.nextMessage) ∧
      (c.room.social.history.map fun entry => (entry.message.messageId, entry.message.revision,
        entry.message.participantId, entry.message.recipientId)) = sentIn ∧
      ∀ message ∈ sentIn, ends message.1 = message.2.2 := by
  obtain ⟨c, hrun, hsent⟩ : ∃ c,
      Transition.run (step sampleSize) (start plainRoom none) twoConversations = some c ∧
      (c.room.social.history.map fun entry => (entry.message.messageId, entry.message.revision,
        entry.message.participantId, entry.message.recipientId)) = sentIn :=
    Transition.exists_of_any (by decide +kernel)
  obtain ⟨ends, hall⟩ := messages_attributed sampleSize plainRoom none twoConversations
  have hsound := hall _ c (List.prefix_refl _) hrun
  refine ⟨c, ends, hrun, hsound, hsent, fun message hmessage => ?_⟩
  rw [← hsent] at hmessage
  obtain ⟨entry, hentry, rfl⟩ := List.mem_map.mp hmessage
  exact (hsound.social.history entry hentry).own

end ChatSystem

end SimplestChat
