import SimplestChat.Chat.Removal

/-!
# Edits that arrive out of order

Completions of committed edits reach a room in any order. `edit_message`
drops an edit that a retained copy of the message outdates, and otherwise
rewrites the copies and every quote of the message. Without a retained copy
nothing tells an old edit from a new one, so the quotes follow whichever edit
comes last, and come back after a removal.

A run here applies edits of one message `m`, its removal, and whatever makes
the memory forget: accepted messages that push old ones out, expiring receipts
and unpinning. Beside the memory it tracks the version that the copies should
show.
-/

namespace SimplestChat

open List Transition RoomSocial

/-- What should be shown of a message: its newest applied version, or that it
has been removed. -/
inductive Version where
  | current (message : ChatEntry)
  | removed

/-- What happens to a message in memory after it was accepted. -/
inductive Retouch where
  | edit (message : ChatEntry)
  | remove (removedAt : Time)
  /-- another message is accepted, and the oldest make room for it -/
  | keep (chat : PreparedChat)
  /-- receipts expire -/
  | prune (now : Time)
  | unpin (id : MessageId)

namespace Retouch

def apply (size : ChatEntry → ℕ) (m : MessageId) (s : RoomSocial) : Retouch → RoomSocial
  | edit message => s.editMessage size message
  | remove removedAt => s.removeMessage size m removedAt
  | keep chat => ChatRoom.keepMessage size chat s
  | prune now => s.pruneReceipts now
  | unpin id => { s with pins := s.pins.filter fun pin => pin.messageId ≠ id }

def next : Version → Retouch → Version
  | .current v, edit message =>
    if v.revision ≤ message.revision then .current message else .current v
  | _, remove _ => .removed
  | version, _ => version

/-- The edit of `m` that is applied, if it is one. -/
def edited : Retouch → Option ChatEntry
  | edit message => some message
  | _ => none

def isRemoval : Retouch → Bool
  | remove _ => true
  | _ => false

end Retouch

abbrev Retouched := RoomSocial × Version

def retouch (size : ChatEntry → ℕ) (m : MessageId) (r : Retouched)
    (change : Retouch) : Option Retouched :=
  some (change.apply size m r.1, Retouch.next r.2 change)

/-! ## What copies show -/

/-- The entry shows version `v` of message `m`: in its text if it is a copy of
`m`, in its excerpt if it is a reply. -/
structure Shows (m : MessageId) (v e : ChatEntry) : Prop where
  own : e.messageId = m → e.removedAt = none ∧ e.content = v.content ∧ e.revision = v.revision
  quotes : ∀ reply, e.replyTo = some reply → reply.messageId = m →
    reply.excerpt = Text.quoteExcerpt v.content

instance (m : MessageId) (v e : ChatEntry) : Decidable (Shows m v e) :=
  decidable_of_iff
    ((e.messageId = m → e.removedAt = none ∧ e.content = v.content ∧ e.revision = v.revision) ∧
      ∀ reply ∈ e.replyTo, reply.messageId = m → reply.excerpt = Text.quoteExcerpt v.content)
    ⟨fun h => ⟨h.1, h.2⟩, fun h => ⟨h.own, h.quotes⟩⟩

def Agrees (m : MessageId) : Version → ChatEntry → Prop
  | .current v, e => Shows m v e
  | .removed, e => Hides m e

/-- Some copy of `m` is retained. -/
def RoomSocial.Retains (m : MessageId) (s : RoomSocial) : Prop :=
  ∃ e ∈ s.entries, e.messageId = m

/-- Some reply to `m` is retained. -/
def RoomSocial.Quotes (m : MessageId) (s : RoomSocial) : Prop :=
  ∃ e ∈ s.entries, ∃ reply, e.replyTo = some reply ∧ reply.messageId = m

/-- The change concerns `m` as it should: the edits are edits of `m`, it is
removed only if it is public, and what is kept meanwhile is something else. -/
def Retouch.Concerns (m : MessageId) (r : Retouched) : Retouch → Prop
  | edit message => message.messageId = m ∧ message.removedAt = none
  | remove _ => ∀ e ∈ r.1.entries, About m e → e.recipientId = none
  | keep chat => ¬About m chat.message
  | _ => True

/-- An edit meets a retained copy of `m`, or no quote of `m`, or it is the
newest so far of a message that is not removed. At a removal no pinned reply
quotes the text of `m`. -/
def Retouch.InOrder (m : MessageId) (r : Retouched) : Retouch → Prop
  | edit message => r.1.Retains m ∨ ¬r.1.Quotes m ∨
      ∃ v, r.2 = .current v ∧ v.revision ≤ message.revision
  | remove _ => r.1.PinsHide m
  | _ => True

variable {m : MessageId} {v : ChatEntry} {size : ChatEntry → ℕ}

variable {e : ChatEntry}

theorem agrees_of_not_about (h : ¬About m e) (version : Version) : Agrees m version e := by
  cases version with
  | current =>
    exact ⟨fun hid => absurd (.inl hid) h,
      fun reply hreply hid => absurd (.inr ⟨reply, hreply, hid⟩) h⟩
  | removed => exact hides_of_not_about h

/-! ## Removed entries quote nothing -/

def Tidy (e : ChatEntry) : Prop :=
  e.removedAt.isSome → e.replyTo = none

theorem tidy_of_live (h : e.removedAt = none) : Tidy e := by
  intro hremoved
  rw [h] at hremoved
  cases hremoved

theorem Tidy.requote (h : Tidy e) (id : MessageId)
    (excerpt : Text) : Tidy (e.requote id excerpt) := by
  intro hremoved
  simp only [ChatEntry.requote, h hremoved, Option.map_none]

theorem tidy_law : ChangeLaw Tidy where
  setReactions _ _ h := h
  setAccount _ _ h := h
  attach _ _ _ hlive := tidy_of_live hlive
  edit _ _ _ _ _ hlive := tidy_of_live hlive
  requote _ _ h _ _ := h.requote _ _
  erase _ _ _ _ _ := rfl
  unquote _ _ h := h.requote _ _

theorem ChatSystem.tidy_of_run {c : ChatSystem} {room : ChatRoom}
    {database : Option Database} {actions : List ChatAction}
    (h : run (step size) (start room database) actions = some c) :
    c.room.social.All Tidy := by
  obtain ⟨ends, hc⟩ := identified_of_run tidy_law (fun _ _ _ he => tidy_of_live he.removedAt) h
  exact hc.social.mono fun e he => he.2

/-! ## One change -/

/-- A removed entry has no quote of `m` left. -/
def TidyFor (m : MessageId) (e : ChatEntry) : Prop :=
  e.removedAt.isSome → ∀ reply, e.replyTo = some reply → reply.messageId ≠ m

theorem Tidy.tidyFor (h : Tidy e) : TidyFor m e := by
  intro hremoved reply hreply
  rw [h hremoved] at hreply
  cases hreply

def InStep (m : MessageId) (version : Version) (e : ChatEntry) : Prop :=
  TidyFor m e ∧ Agrees m version e

theorem inStep_of_not_about (h : ¬About m e) (version : Version) : InStep m version e :=
  ⟨fun _ reply hreply hid => h (.inr ⟨reply, hreply, hid⟩), agrees_of_not_about h version⟩

variable {edited : ChatEntry}

theorem editEntry_replyTo {reply : ChatReplyRef} (h : (editEntry edited e).replyTo = some reply) :
    ∃ old, e.replyTo = some old ∧ reply.messageId = old.messageId ∧
      (e.removedAt = none → old.messageId = edited.messageId →
        reply.excerpt = Text.quoteExcerpt edited.content) := by
  unfold editEntry at h
  split at h
  · rename_i hremoved
    refine ⟨reply, h, rfl, fun hlive => ?_⟩
    rw [hlive] at hremoved
    cases hremoved
  · obtain ⟨old, hold, hid, hexcerpt⟩ := requote_eq_some h
    have hsame : e.replyTo = some old := by split at hold <;> exact hold
    refine ⟨old, hsame, hid, fun _ hown => ?_⟩
    rw [hexcerpt, if_pos hown]

theorem editEntry_text (hlive : e.removedAt = none)
    (hid : e.messageId = edited.messageId) (hrevision : e.revision ≤ edited.revision) :
    (editEntry edited e).content = edited.content ∧
      (editEntry edited e).revision = edited.revision := by
  unfold editEntry
  rw [if_neg (by simp [hlive])]
  simp only [ChatEntry.requote, if_pos (And.intro hid hrevision), and_self]

theorem TidyFor.editEntry (h : TidyFor m e) : TidyFor m (editEntry edited e) := by
  intro hremoved reply hreply
  rw [editEntry_removedAt] at hremoved
  obtain ⟨old, hold, hid, -⟩ := editEntry_replyTo hreply
  rw [hid]
  exact h hremoved old hold

theorem InStep.editEntry (h : InStep m (.current v) e)
    (hid : edited.messageId = m) (hnewer : v.revision ≤ edited.revision) :
    InStep m (.current edited) (editEntry edited e) := by
  obtain ⟨htidy, hshows⟩ := h
  refine ⟨htidy.editEntry, fun hown => ?_, fun reply hreply hquote => ?_⟩
  · rw [editEntry_messageId] at hown
    obtain ⟨hlive, -, hrevision⟩ := hshows.own hown
    rw [editEntry_removedAt]
    refine ⟨hlive, editEntry_text hlive (hown.trans hid.symm) ?_⟩
    rw [hrevision]
    exact hnewer
  · obtain ⟨old, hold, hsame, hexcerpt⟩ := editEntry_replyTo hreply
    rw [hsame] at hquote
    refine hexcerpt ?_ (hquote.trans hid.symm)
    by_contra hremoved
    exact htidy (Option.isSome_iff_ne_none.mpr hremoved) old hold hquote

theorem editEntry_not_about (h : ¬About m e) : ¬About m (editEntry edited e) := by
  rintro (hid | ⟨reply, hreply, hid⟩)
  · rw [editEntry_messageId] at hid
    exact h (.inl hid)
  · obtain ⟨old, hold, hsame, -⟩ := editEntry_replyTo hreply
    exact h (.inr ⟨old, hold, hsame ▸ hid⟩)

namespace RoomSocial

variable {s : RoomSocial}

variable {edited : ChatEntry}

theorem All.editMessage_of {P Q : ChatEntry → Prop} (hfresh : s.isStale edited = false)
    (hchange : ∀ e, P e → Q (editEntry edited e)) (h : s.All P) :
    (s.editMessage size edited).All Q := by
  unfold RoomSocial.editMessage
  rw [if_neg (by simp [hfresh])]
  refine All.trimReceipts (All.trimHistory ⟨fun entry hentry => ?_,
    fun entry hentry => ?_, fun pin hpin => ?_⟩)
  · obtain ⟨old, hold, rfl⟩ := List.mem_map.mp hentry
    exact hchange _ (h.history old hold)
  · obtain ⟨old, hold, rfl⟩ := List.mem_map.mp hentry
    exact hchange _ (h.receipts old hold)
  · obtain ⟨old, hold, rfl⟩ := List.mem_map.mp hpin
    exact hchange _ (h.pins old hold)

theorem not_about_of_not_retains (hcopies : ¬s.Retains m) (hquotes : ¬s.Quotes m) :
    s.All fun e => ¬About m e := by
  rw [all_iff_entries]
  rintro e he (hid | hreply)
  · exact hcopies ⟨e, he, hid⟩
  · exact hquotes ⟨e, he, hreply⟩

theorem isStale_iff (h : s.All (InStep m (.current v))) (hid : edited.messageId = m) :
    s.isStale edited ↔ s.Retains m ∧ edited.revision < v.revision := by
  rw [all_iff_entries] at h
  simp only [isStale, any_eq_true, Bool.and_eq_true, Bool.or_eq_true, decide_eq_true_eq]
  constructor
  · rintro ⟨e, he, hown, hold⟩
    obtain ⟨hlive, -, hrevision⟩ := (h e he).2.own (hown.trans hid)
    rw [hlive, hrevision] at hold
    exact ⟨⟨e, he, hown.trans hid⟩, by simpa using hold⟩
  · rintro ⟨⟨e, he, hown⟩, hlt⟩
    obtain ⟨-, -, hrevision⟩ := (h e he).2.own hown
    exact ⟨e, he, hown.trans hid.symm, .inr (hrevision ▸ hlt)⟩

theorem isStale_of_removed (h : s.All (InStep m .removed))
    (hid : edited.messageId = m) (hcopy : s.Retains m) : s.isStale edited := by
  rw [all_iff_entries] at h
  obtain ⟨e, he, hown⟩ := hcopy
  simp only [isStale, any_eq_true, Bool.and_eq_true, Bool.or_eq_true, decide_eq_true_eq]
  exact ⟨e, he, hown.trans hid.symm, .inl ((h e he).2.erased hown).2.2⟩

theorem editMessage_of_stale (h : s.isStale edited) : s.editMessage size edited = s := by
  unfold editMessage
  rw [if_pos h]

theorem editMessage_not_about (h : s.All fun e => ¬About m e) :
    (s.editMessage size edited).All fun e => ¬About m e := by
  by_cases hstale : s.isStale edited
  · rw [editMessage_of_stale hstale]
    exact h
  · exact h.editMessage_of (by simpa using hstale) fun e he => editEntry_not_about he

end RoomSocial

variable {s : RoomSocial} {version : Version}

theorem inStep_edit (h : s.All (InStep m version)) (hid : edited.messageId = m)
    (horder : Retouch.InOrder m (s, version) (.edit edited)) :
    (s.editMessage size edited).All
      (InStep m (Retouch.next version (.edit edited))) := by
  cases version with
  | removed =>
    by_cases hcopy : s.Retains m
    · rw [editMessage_of_stale (isStale_of_removed h hid hcopy)]
      exact h
    have hquotes : ¬s.Quotes m := by
      rcases horder with hretains | hquotes | ⟨v, hv, -⟩
      · exact absurd hretains hcopy
      · exact hquotes
      · cases hv
    have hnone := not_about_of_not_retains hcopy hquotes
    exact (editMessage_not_about hnone).mono fun e he =>
      inStep_of_not_about he _
  | current v =>
    by_cases hnewer : v.revision ≤ edited.revision
    · have hfresh : s.isStale edited = false := by
        rw [Bool.eq_false_iff]
        intro hstale
        have hlt := ((isStale_iff h hid).mp hstale).2
        omega
      simp only [Retouch.next, if_pos hnewer]
      exact h.editMessage_of hfresh fun e he => he.editEntry hid hnewer
    · simp only [Retouch.next, if_neg hnewer]
      by_cases hcopy : s.Retains m
      · have hstale : s.isStale edited :=
          (isStale_iff h hid).mpr ⟨hcopy, by omega⟩
        rw [editMessage_of_stale hstale]
        exact h
      have hquotes : ¬s.Quotes m := by
        rcases horder with hretains | hquotes | ⟨w, hw, hle⟩
        · exact absurd hretains hcopy
        · exact hquotes
        · cases hw
          exact absurd hle hnewer
      have hnone := not_about_of_not_retains hcopy hquotes
      exact (editMessage_not_about hnone).mono fun e he =>
        inStep_of_not_about he _

theorem redactMessage_tidyFor (h : TidyFor m e)
    (removedAt : Time) : TidyFor m (redactMessage m removedAt e) := by
  unfold redactMessage
  split
  · exact h
  split
  · intro _ reply hreply
    cases hreply
  intro hremoved reply hreply
  obtain ⟨old, hold, hid, -⟩ := requote_eq_some hreply
  rw [hid]
  exact h hremoved old hold

/-- The removal of a public message brings the memory to the removed marker, if
no pinned reply quotes its text. -/
theorem inStep_remove {removedAt : Time} (h : s.All (InStep m version))
    (hpublic : ∀ e ∈ s.entries, About m e → e.recipientId = none)
    (hpins : s.PinsHide m) :
    (s.removeMessage size m removedAt).All (InStep m .removed) := by
  have hhides : (s.removeMessage size m removedAt).All (Hides m) :=
    scrubbed_iff_all.mp ((removeMessage_scrubbed_iff
      (all_iff_entries.mpr hpublic) removedAt).mpr hpins)
  have hall : s.All (TidyFor m) := h.mono fun e he => he.1
  have htidy : (s.removeMessage size m removedAt).All (TidyFor m) :=
    hall.removeMessage_of fun e he => redactMessage_tidyFor he removedAt
  exact ⟨fun entry he => ⟨htidy.history entry he, hhides.history entry he⟩,
    fun entry he => ⟨htidy.receipts entry he, hhides.receipts entry he⟩,
    fun pin he => ⟨htidy.pins pin he, hhides.pins pin he⟩⟩

theorem inStep_retouch {r r' : Retouched} {change : Retouch}
    (h : r.1.All (InStep m r.2)) (hconcerns : change.Concerns m r)
    (horder : change.InOrder m r) (hstep : retouch size m r change = some r') :
    r'.1.All (InStep m r'.2) := by
  cases hstep
  cases change with
  | edit => exact inStep_edit h hconcerns.1 horder
  | remove removedAt =>
    have hnext : Retouch.next r.2 (.remove removedAt) = .removed := by cases r.2 <;> rfl
    simp only [hnext]
    exact inStep_remove h hconcerns horder
  | keep chat =>
    have hnext : Retouch.next r.2 (.keep chat) = r.2 := by cases r.2 <;> rfl
    simp only [hnext]
    exact h.keepMessage (inStep_of_not_about hconcerns r.2)
  | prune now =>
    have hnext : Retouch.next r.2 (.prune now) = r.2 := by cases r.2 <;> rfl
    simp only [hnext]
    exact h.pruneReceipts now
  | unpin id =>
    have hnext : Retouch.next r.2 (.unpin id) = r.2 := by cases r.2 <;> rfl
    simp only [hnext]
    exact h.setPins fun pin hpin => h.pins pin (mem_of_mem_filter hpin)

/-! ## Whole runs -/

/-- Among the versions, `v` has the highest revision. -/
def Highest (v : ChatEntry) (versions : List ChatEntry) : Prop :=
  v ∈ versions ∧ ∀ w ∈ versions, w.revision ≤ v.revision

theorem run_version_removed {s' : RoomSocial} {changes : List Retouch}
    (h : run (retouch size m) (s, .removed) changes = some (s', version)) :
    version = .removed := by
  induction changes generalizing s with
  | nil =>
    cases h
    rfl
  | cons change rest ih =>
    obtain ⟨r, hstep, hrest⟩ := run_cons_eq_some.mp h
    cases hstep
    have hnext : Retouch.next .removed change = .removed := by cases change <;> rfl
    rw [hnext] at hrest
    exact ih hrest

/-- The winner of two versions is the highest of all if it is among what comes
after them. -/
theorem Highest.of_winner {w : ChatEntry} {rest : List ChatEntry}
    (h : Highest w ((if v.revision ≤ edited.revision then edited else v) :: rest)) :
    Highest w (v :: edited :: rest) := by
  obtain ⟨hmem, hmax⟩ := h
  have hrest : ∀ x ∈ rest, x.revision ≤ w.revision := fun x hx => hmax x (mem_cons_of_mem _ hx)
  have hwinner := hmax _ mem_cons_self
  by_cases hnewer : v.revision ≤ edited.revision
  · rw [if_pos hnewer] at hmem hwinner
    refine ⟨mem_cons_of_mem _ hmem, fun x hx => ?_⟩
    rcases mem_cons.mp hx with rfl | hx
    · omega
    rcases mem_cons.mp hx with rfl | hx
    · exact hwinner
    · exact hrest x hx
  · rw [if_neg hnewer] at hmem hwinner
    refine ⟨?_, fun x hx => ?_⟩
    · rcases mem_cons.mp hmem with rfl | hmem
      · exact mem_cons_self
      · exact mem_cons_of_mem _ (mem_cons_of_mem _ hmem)
    rcases mem_cons.mp hx with rfl | hx
    · exact hwinner
    rcases mem_cons.mp hx with rfl | hx
    · omega
    · exact hrest x hx

/-- Without a removal the tracked version is the highest that was applied; a
removal is final. -/
theorem run_version {s' : RoomSocial} {changes : List Retouch}
    (h : run (retouch size m) (s, .current v) changes = some (s', version)) :
    if changes.any Retouch.isRemoval then version = .removed
    else ∃ w, version = .current w ∧ Highest w (v :: changes.filterMap Retouch.edited) := by
  induction changes generalizing s v with
  | nil =>
    cases h
    refine ⟨v, rfl, mem_singleton_self v, fun w hw => ?_⟩
    exact Nat.le_of_eq (congrArg ChatEntry.revision (mem_singleton.mp hw))
  | cons change rest ih =>
    obtain ⟨r, hstep, hrest⟩ := run_cons_eq_some.mp h
    cases hstep
    cases change with
    | edit edited =>
      have hnext : Retouch.next (.current v) (.edit edited) = .current
          (if v.revision ≤ edited.revision then edited else v) := by
        simp only [Retouch.next]
        split <;> rfl
      rw [hnext] at hrest
      have hind := ih hrest
      simp only [any_cons, Retouch.isRemoval, Bool.false_or, filterMap_cons, Retouch.edited]
      split at hind
      · rename_i hremoval
        rw [if_pos hremoval]
        exact hind
      rename_i hremoval
      rw [if_neg hremoval]
      obtain ⟨w, hw, hhighest⟩ := hind
      exact ⟨w, hw, hhighest.of_winner⟩
    | remove =>
      simp only [any_cons, Retouch.isRemoval, Bool.true_or, if_true]
      exact run_version_removed hrest
    | _ => exact ih hrest

/-- Start from a reachable memory whose copies and quotes of `m` show one
version of it. If every edit and removal of `m` comes in order, then at the
end all copies and quotes that are still retained show the highest revision
applied, or the removal. -/
theorem retained_copies_show_highest {c : ChatSystem} {room : ChatRoom}
    {database : Option Database} {actions : List ChatAction}
    (hreach : run (ChatSystem.step size) (.start room database) actions = some c)
    (hstart : ∀ e ∈ c.room.social.entries, Shows m v e) {changes : List Retouch}
    {s : RoomSocial} {version : Version} (hmeets : RunMeets (retouch size m)
      (fun r change => change.Concerns m r ∧ change.InOrder m r)
      (c.room.social, .current v) changes)
    (hrun : run (retouch size m) (c.room.social, .current v) changes = some (s, version)) :
    if changes.any Retouch.isRemoval then ∀ e ∈ s.entries, Hides m e
    else ∃ w, Highest w (v :: changes.filterMap Retouch.edited) ∧ ∀ e ∈ s.entries, Shows m w e := by
  have htidy := ChatSystem.tidy_of_run hreach
  have hfirst : c.room.social.All (InStep m (.current v)) := by
    rw [all_iff_entries] at htidy ⊢
    exact fun e he => ⟨(htidy e he).tidyFor, hstart e he⟩
  have hlast : s.All (InStep m version) :=
    run_invariant
      (fun r change r' hr hallowed hstep =>
        inStep_retouch hr hallowed.1 hallowed.2 hstep)
      hfirst hmeets hrun
  rw [all_iff_entries] at hlast
  have hversion := run_version hrun
  split at hversion
  · rename_i hremoval
    rw [if_pos hremoval]
    subst hversion
    exact fun e he => (hlast e he).2
  · rename_i hremoval
    rw [if_neg hremoval]
    obtain ⟨w, rfl, hhighest⟩ := hversion
    exact ⟨w, hhighest, fun e he => (hlast e he).2⟩

/-! ### A quote that outlives its original -/

section Example

open ChatSystem

def twoAccounts : Database :=
  ⟨[], [], [], [], [], [], [], [⟨1, "Al", true, []⟩, ⟨2, "Bo", true, []⟩], [], 0⟩

def tell (text clientMessageId : String) (peer : ParticipantId)
    (replyTo : Option MessageId) : ChatRequest :=
  .chat ⟨text.toList, [], clientMessageId, some peer, none, none, replyTo⟩

/-- A message of quotation marks. -/
def chatter (now : Time) (length n : ℕ) : ChatAction :=
  .request ⟨1, 10⟩
    (.chat ⟨List.replicate length (Char.ofNat 34), [], String.ofList (List.replicate n 'f'),
      none, none, none, none⟩)
    { plainSurroundings with now }

/-- One account writes to the other and is answered; public messages push the
first one out of the history and its receipt expires; then it is edited twice
over HTTP. -/
def quoteOutlivesOriginal : List ChatAction := [.join ⟨1, "Al", .member, true, 10, false, true, []⟩,
    .join ⟨2, "Bo", .member, true, 20, false, true, []⟩,
    .request ⟨1, 10⟩ (tell "one" "a" 2 none) plainSurroundings,
    .work plainSurroundings [], .resume plainSurroundings,
    .request ⟨2, 20⟩ (tell "yes" "b" 1 (some 0)) plainSurroundings,
    .work plainSurroundings [], .resume plainSurroundings] ++
  (List.range' 1 30).map (chatter 1000 4096) ++
  [chatter 400000 3000 31, .httpEdit 1 2 0 ⟨"two".toList, 0⟩ 400001 [],
    .httpEdit 1 2 0 ⟨"three".toList, 1⟩ 400002 []]

def firstVersion : ChatEntry :=
  ⟨0, "a", 1, "Al", some 2, some "Bo", some true, "one".toList, [], 1000, none, 0, none, none, []⟩

def secondVersion : ChatEntry := { firstVersion with
    content := "two".toList, revision := 1, editedAt := some 400001 }

def thirdVersion : ChatEntry := { firstVersion with
    content := "three".toList, revision := 2, editedAt := some 400002 }

/-- With both completions still to come, the quote shows the first version. -/
theorem quoteOutlivesOriginal_reached : ∃ c,
    run (step sampleSize) (start plainRoom (some twoAccounts))
        quoteOutlivesOriginal = some c ∧
      c.updates = [⟨secondVersion, false⟩, ⟨thirdVersion, false⟩] ∧
      (∀ e ∈ c.room.social.entries, Shows 0 firstVersion e) ∧
      ∃ e ∈ ((c.room.social.editMessage sampleSize thirdVersion).editMessage
        sampleSize secondVersion).entries, ¬Shows 0 thirdVersion e := by
  exact exists_of_any (by decide +kernel)

/-- In the order in which they were made, the edits bring the quote to the
newest version. -/
theorem edits_in_order_show_third : ∃ c s version,
    run (step sampleSize) (start plainRoom (some twoAccounts))
        quoteOutlivesOriginal = some c ∧
      run (retouch sampleSize 0) (c.room.social, .current firstVersion)
        [.edit secondVersion, .edit thirdVersion] = some (s, version) ∧
      ∃ w, Highest w [firstVersion, secondVersion, thirdVersion] ∧
        ∀ e ∈ s.entries, Shows 0 w e := by
  obtain ⟨c, hrun, -, hshows, -⟩ := quoteOutlivesOriginal_reached
  have hmeets : RunMeets (retouch sampleSize 0)
      (fun r change => change.Concerns 0 r ∧ change.InOrder 0 r)
      (c.room.social, .current firstVersion)
      [.edit secondVersion, .edit thirdVersion] := by
    refine ⟨⟨⟨rfl, rfl⟩, .inr (.inr ⟨firstVersion, rfl, by decide⟩)⟩, ?_⟩
    rintro _ ⟨⟩
    refine ⟨⟨⟨rfl, rfl⟩, .inr (.inr ⟨secondVersion, rfl, by decide⟩)⟩, ?_⟩
    exact fun _ _ => trivial
  exact ⟨c, _, _, hrun, rfl, retained_copies_show_highest hrun hshows hmeets rfl⟩

/-- The completions in the other order leave the quote at an older version. -/
theorem late_edit_reverts_quote : ∃ c s version,
    run (step sampleSize) (start plainRoom (some twoAccounts))
        quoteOutlivesOriginal = some c ∧
      c.updates = [⟨secondVersion, false⟩, ⟨thirdVersion, false⟩] ∧
      (∀ e ∈ c.room.social.entries, Shows 0 firstVersion e) ∧
      run (retouch sampleSize 0) (c.room.social, .current firstVersion)
        [.edit thirdVersion, .edit secondVersion] = some (s, version) ∧
      ¬∃ w, Highest w [firstVersion, thirdVersion, secondVersion] ∧
        ∀ e ∈ s.entries, Shows 0 w e := by
  obtain ⟨c, hrun, hupdates, hshows, e, he, hstale⟩ := quoteOutlivesOriginal_reached
  refine ⟨c, _, _, hrun, hupdates, hshows, rfl, ?_⟩
  rintro ⟨w, ⟨hmem, hmax⟩, hall⟩
  have hthird : w = thirdVersion := by
    have hle : 2 ≤ w.revision := hmax thirdVersion (by decide)
    simp only [mem_cons, not_mem_nil, or_false] at hmem
    rcases hmem with rfl | rfl | rfl
    · exact absurd hle (by decide)
    · rfl
    · exact absurd hle (by decide)
  subst hthird
  exact hstale (hall e he)

end Example

end SimplestChat
