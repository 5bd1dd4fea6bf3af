import SimplestChat.Signaling.GraceSteps

/-!
# Who may consume an entry and who owns a membership

Every retained entry belongs to one timer and, through the token that timer was
started with, to one closed socket. From this follow the four ways in which an
entry can leave the map, and that a removal or a rebinding only ever reaches a
membership that is still bound to the socket it acts for.
-/

namespace SimplestChat.Grace

open Roster

variable {c d : System} {action : Action}

/-! ## The invariant -/

def System.Closed (c : System) (s : SenderId) : Prop :=
  ∃ a : Socket, c.sockets[s]? = some a ∧ a.point = .closed

structure System.Inv (c : System) : Prop where
  bound : ∀ (s : ℕ) (a : Socket), c.sockets[s]? = some a → a.reconnectToken < c.nextToken
  unique : ∀ (s t : ℕ) (a b : Socket), c.sockets[s]? = some a →
    c.sockets[t]? = some b → a.reconnectToken = b.reconnectToken → s = t
  /-- a timer carries the last token of a closed socket -/
  started : ∀ (t : ℕ) (timer : Timer), c.timers[t]? = some timer →
    ∃ a : Socket, c.sockets[timer.sender]? = some a ∧ a.point = .closed ∧
      a.reconnectToken = timer.token
  alone : ∀ (t u : ℕ) (timer other : Timer), c.timers[t]? = some timer →
    c.timers[u]? = some other → timer.sender = other.sender → t = u
  /-- an entry's timer was started with the entry's own data -/
  kept : ∀ e ∈ c.grace.inner, ∃ timer : Timer, c.timers[e.timer]? = some timer ∧
    (timer.room, timer.participant, timer.token) = e.key ∧ timer.sender = e.sender
  size : c.grace.inner.entries.length ≤ c.grace.maxEntries
  apart : ∀ i, ∀ m ∈ (c.room i).participants, ∀ l ∈ (c.room i).lobby, m.id ≠ l.id
  /-- a reconnecting socket has taken the entry it presented the token of -/
  rebinding : ∀ (s : ℕ) (a : Socket) (e : GraceEntry) (presented : ReconnectToken)
    (i : Option Incarnation), c.sockets[s]? = some a →
    a.point = .rebinding e presented i →
    e.reconnectToken = presented ∧ e.authenticatedSubject = a.subject ∧ c.Closed e.sender

section Preserved

theorem System.Closed.advance {s : SenderId} (h : c.Closed s)
    (hadvance : SocketsAdvance c d) : d.Closed s := by
  obtain ⟨a, hget, hclosed⟩ := h
  obtain ⟨b, hget', hclosed', -⟩ := hadvance.closed s a hget hclosed
  exact ⟨b, hget', hclosed'⟩

theorem System.Inv.tokens (h : c.Inv) (hadvance : SocketsAdvance c d) :
    (∀ (s : ℕ) (b : Socket), d.sockets[s]? = some b → b.reconnectToken < d.nextToken) ∧
    ∀ (s t : ℕ) (a b : Socket), d.sockets[s]? = some a → d.sockets[t]? = some b →
      a.reconnectToken = b.reconnectToken → s = t := by
  have hnext := hadvance.next
  constructor
  · intro s b hb
    rcases hadvance.tokens s b hb with ⟨a, ha, htoken⟩ | ⟨htoken, hlt, -⟩
    · have hbound := h.bound s a ha
      omega
    · omega
  · intro s t a b ha hb heq
    rcases hadvance.tokens s a ha with ⟨a', ha', htoken⟩ | ⟨htoken, -, hothers⟩
    · rcases hadvance.tokens t b hb with ⟨b', hb', htoken'⟩ | ⟨htoken', -, hothers'⟩
      · apply h.unique s t a' b' ha' hb'
        rw [← htoken, ← htoken', heq]
      by_contra hne
      have hbound := h.bound s a' ha'
      omega
    · by_contra hne
      obtain ⟨b', hb', htoken'⟩ := hothers t b hb (Ne.symm hne)
      have hbound := h.bound t b' hb'
      omega

theorem Steps.timers_mono (hsteps : Steps c action d) {t : ℕ} {timer : Timer}
    (hget : c.timers[t]? = some timer) : d.timers[t]? = some timer := by
  rcases hsteps.timersChange with htimers | ⟨s, a, room, version, -, -, -, htimers, -⟩
  · rw [htimers, hget]
  · have hlt : t < c.timers.length := (List.getElem?_eq_some_iff.mp hget).1
    rw [htimers, List.getElem?_append_left hlt, hget]

theorem System.Inv.timers (h : c.Inv) (hsteps : Steps c action d) :
    (∀ (t : ℕ) (timer : Timer), d.timers[t]? = some timer →
      ∃ a : Socket, d.sockets[timer.sender]? = some a ∧ a.point = .closed ∧
        a.reconnectToken = timer.token) ∧
    ∀ (t u : ℕ) (timer other : Timer), d.timers[t]? = some timer →
      d.timers[u]? = some other → timer.sender = other.sender → t = u := by
  have hadvance := hsteps.socketsAdvance
  have hstill : ∀ (t : ℕ) (timer : Timer), c.timers[t]? = some timer →
      ∃ a : Socket, d.sockets[timer.sender]? = some a ∧ a.point = .closed ∧
        a.reconnectToken = timer.token := by
    intro t timer hget
    obtain ⟨a, ha, hclosed, htoken⟩ := h.started t timer hget
    obtain ⟨b, hb, hclosed', htoken'⟩ := hadvance.closed _ a ha hclosed
    exact ⟨b, hb, hclosed', htoken'.trans htoken⟩
  rcases hsteps.timersChange with
    htimers | ⟨s, a, room, version, -, hget, hretaining, htimers, hsockets⟩
  · rw [htimers]
    exact ⟨hstill, h.alone⟩
  -- the new timer is the last one, and no older timer has its sender
  have hsource : ∀ (t : ℕ) (timer : Timer), d.timers[t]? = some timer →
      c.timers[t]? = some timer ∨ t = c.timers.length ∧ timer = System.timerOf s a room := by
    intro t timer ht
    rw [htimers, List.getElem?_append] at ht
    by_cases hlt : t < c.timers.length
    · rw [if_pos hlt] at ht
      exact Or.inl ht
    rw [if_neg hlt] at ht
    have hlast := (List.getElem?_eq_some_iff.mp ht).1
    rw [List.length_singleton] at hlast
    exact Or.inr ⟨by omega, List.mem_singleton.mp (List.mem_of_getElem? ht)⟩
  have hnew : ∀ (t : ℕ) (timer : Timer), c.timers[t]? = some timer → timer.sender ≠ s := by
    rintro t timer ht rfl
    obtain ⟨b, hb, hclosed, -⟩ := h.started t timer ht
    rw [hget] at hb
    cases hb
    rw [hretaining] at hclosed
    cases hclosed
  constructor
  · intro t timer ht
    rcases hsource t timer ht with hold | ⟨-, rfl⟩
    · exact hstill t timer hold
    have hlt : s < c.sockets.length := (List.getElem?_eq_some_iff.mp hget).1
    refine ⟨{ a with point := .closed }, ?_, rfl, rfl⟩
    rw [hsockets]
    exact List.getElem?_set_self hlt
  · intro t u timer other ht hu hsender
    rcases hsource t timer ht with hold | ⟨rfl, rfl⟩
    · rcases hsource u other hu with hold' | ⟨rfl, rfl⟩
      · exact h.alone t u timer other hold hold' hsender
      · exact absurd hsender (hnew t timer hold)
    · rcases hsource u other hu with hold' | ⟨rfl, rfl⟩
      · exact absurd hsender.symm (hnew u other hold')
      · rfl

theorem System.Inv.timer_of_key (h : c.Inv) {e : GraceEntry} (he : e ∈ c.grace.inner)
    {t : ℕ} {timer : Timer} (ht : c.timers[t]? = some timer)
    (htoken : timer.token = e.reconnectToken) : e.timer = t := by
  obtain ⟨own, hown, hkey, -⟩ := h.kept e he
  obtain ⟨a, ha, -, hatoken⟩ := h.started _ own hown
  obtain ⟨b, hb, -, hbtoken⟩ := h.started t timer ht
  have hsame : own.token = e.reconnectToken := congrArg (fun key => key.2.2) hkey
  have hsender : own.sender = timer.sender := by
    apply h.unique _ _ a b ha hb
    rw [hatoken, hbtoken, hsame, htoken]
  exact h.alone _ t own timer hown ht hsender

theorem System.Inv.key_absent (h : c.Inv) {s : ℕ} {a : Socket}
    (ha : c.sockets[s]? = some a) (hopen : a.point ≠ .closed) {e : GraceEntry}
    (he : e ∈ c.grace.inner) : e.reconnectToken ≠ a.reconnectToken := by
  intro htoken
  obtain ⟨own, hown, hkey, -⟩ := h.kept e he
  obtain ⟨b, hb, hclosed, hbtoken⟩ := h.started _ own hown
  have hsame : own.token = e.reconnectToken := congrArg (fun key => key.2.2) hkey
  have hs : own.sender = s := by
    apply h.unique _ _ b a hb ha
    rw [hbtoken, hsame, htoken]
  rw [hs, ha] at hb
  cases hb
  exact hopen hclosed

theorem mem_insert_cases {m : GracePeriodMap} {e new : GraceEntry}
    (h : e ∈ (m.insert new).2.inner) : e ∈ m.inner ∨ e = new := by
  rw [GracePeriodMap.insert] at h
  split at h
  · exact Or.inl h
  rcases mem_insert.mp h with ⟨hmem, -⟩ | rfl
  · exact Or.inl hmem
  · exact Or.inr rfl

theorem Steps.mem_grace (hsteps : Steps c action d) {e : GraceEntry} (he : e ∈ d.grace.inner) :
    e ∈ c.grace.inner ∨ ∃ (s : SenderId) (a : Socket) (room : RoomId) (version : Int),
        c.sockets[s]? = some a ∧ a.point = .retaining room ∧
        e = c.entryOf s a room version ∧
        d.timers = c.timers ++ [System.timerOf s a room] := by
  cases hsteps.mapChange with
  | same action hgrace =>
    rw [hgrace] at he
    exact Or.inl he
  | @inserted s a room version hget hpoint hgrace htimers =>
    rw [hgrace] at he
    rcases mem_insert_cases he with hmem | rfl
    · exact Or.inl hmem
    · exact Or.inr ⟨s, a, room, version, hget, hpoint, rfl, htimers⟩
  | reconnected hget htaken hsubject hgrace =>
    rw [hgrace] at he
    exact Or.inl (mem_erase.mp he).1
  | fired hget htaken hgrace =>
    rw [hgrace] at he
    exact Or.inl (mem_erase.mp he).1
  | revoked userId minimumVersion hgrace =>
    rw [hgrace] at he
    exact Or.inl (mem_filter.mp he).1
  | closed hgrace =>
    rw [hgrace] at he
    exact absurd he mem_empty

theorem System.Inv.kept_step (h : c.Inv) (hsteps : Steps c action d) :
    ∀ e ∈ d.grace.inner, ∃ timer : Timer, d.timers[e.timer]? = some timer ∧
      (timer.room, timer.participant, timer.token) = e.key ∧
      timer.sender = e.sender := by
  intro e he
  rcases hsteps.mem_grace he with hold | ⟨s, a, room, version, -, -, rfl, htimers⟩
  · obtain ⟨timer, hget, hkey, hsender⟩ := h.kept e hold
    exact ⟨timer, hsteps.timers_mono hget, hkey, hsender⟩
  refine ⟨System.timerOf s a room, ?_, rfl, rfl⟩
  rw [htimers]
  exact List.getElem?_concat_length

theorem System.Inv.size_step (h : c.Inv) (hsteps : Steps c action d) :
    d.grace.inner.entries.length ≤ d.grace.maxEntries := by
  have hsize := h.size
  cases hsteps.mapChange with
  | same action hgrace =>
    rw [hgrace]
    exact hsize
  | @inserted s a room version hget hpoint hgrace htimers =>
    rw [hgrace, GracePeriodMap.insert]
    -- the key is new, so the entry was stored because there was room for it
    have habsent : c.grace.inner.contains (c.entryOf s a room version).key = false := by
      apply contains_eq_false.mpr
      intro e he hkey
      apply h.key_absent hget (by simp [hpoint]) he
      exact congrArg (fun key => key.2.2) hkey
    split
    · exact hsize
    rename_i hfree
    simp only [habsent, Bool.not_false, Bool.and_true, Bool.or_eq_true,
      decide_eq_true_eq, not_or] at hfree
    have herase : (c.grace.inner.erase (c.entryOf s a room version).key).entries.length ≤
        c.grace.inner.entries.length := List.length_filter_le _ _
    have hinsert : (c.grace.inner.insert (c.entryOf s a room version)).entries.length =
        (c.grace.inner.erase (c.entryOf s a room version).key).entries.length + 1 := by
      rw [Roster.insert, List.length_append, List.length_singleton]
    dsimp only
    omega
  | reconnected hget htaken hsubject hgrace =>
    rw [hgrace]
    exact Nat.le_trans (List.length_filter_le _ _) hsize
  | fired hget htaken hgrace =>
    rw [hgrace]
    exact Nat.le_trans (List.length_filter_le _ _) hsize
  | revoked userId minimumVersion hgrace =>
    rw [hgrace]
    exact Nat.le_trans (List.length_filter_le _ _) hsize
  | closed hgrace =>
    rw [hgrace]
    exact Nat.zero_le _

theorem removeForSender_cases (room : GraceRoom) (id : ParticipantId) (sender : SenderId) :
    room.removeForSender id sender = room ∨ (GraceRoom.boundTo room.participants id sender = true ∨
        GraceRoom.boundTo room.lobby id sender = true) ∧
      room.removeForSender id sender = { room with
        lobby := room.lobby.erase id
        participants := room.participants.erase id } := by
  rw [GraceRoom.removeForSender]
  split
  · rename_i hbound
    exact Or.inr ⟨(Bool.or_eq_true _ _).mp hbound, rfl⟩
  · exact Or.inl rfl

theorem mem_rebound {r : Roster Member.id} {id : ParticipantId} {s : SenderId} {m : Member} :
    m ∈ r.update id (fun m => { m with sender := s }) (fun _ => rfl) ↔
      m ∈ r ∧ m.id ≠ id ∨ ∃ old ∈ r, old.id = id ∧ { old with sender := s } = m :=
  @mem_update _ _ _ _ r id (fun m => { m with sender := s }) (fun _ => rfl) m

theorem System.Inv.apart_step (h : c.Inv) (hsteps : Steps c action d) (i : Incarnation) :
    ∀ m ∈ (d.room i).participants, ∀ l ∈ (d.room i).lobby, m.id ≠ l.id := by
  have hapart := h.apart i
  intro m hm l hl
  cases hsteps.roomChange i with
  | same action hroom =>
    rw [hroom] at hm hl
    exact hapart m hm l hl
  | @committed s a waits accepted habsent hroom =>
    rw [hroom] at hm hl
    cases waits with
    | true =>
      rcases mem_insert.mp hl with ⟨hl, -⟩ | rfl
      · exact hapart m hm l hl
      · exact contains_eq_false.mp habsent.1 m hm
    | false =>
      rcases mem_insert.mp hm with ⟨hm, -⟩ | rfl
      · exact hapart m hm l hl
      · exact (contains_eq_false.mp habsent.2 l hl).symm
  | rebound hget hpoint hfound hsender hidentity hroom =>
    rw [hroom] at hm hl
    rcases mem_rebound.mp hm with ⟨hm, -⟩ | ⟨old, hold, -, rfl⟩
    · exact hapart m hm l hl
    · exact hapart old hold l hl
  | @removed job removal hget hroom =>
    rcases removeForSender_cases (c.room i) removal.participant removal.sender with
      heq | ⟨-, heq⟩
    · rw [hroom, heq] at hm hl
      exact hapart m hm l hl
    · rw [hroom, heq] at hm hl
      exact hapart m (mem_erase.mp hm).1 l (mem_erase.mp hl).1
  | closed hroom =>
    rw [hroom] at hm
    exact absurd hm mem_empty
  | admitted hfound hroom =>
    rw [hroom] at hm hl
    obtain ⟨hl, hne⟩ := mem_erase.mp hl
    rcases mem_insert.mp hm with ⟨hm, -⟩ | rfl
    · exact hapart m hm l hl
    · exact hne.symm
  | expelled id hroom =>
    rw [hroom] at hm hl
    exact hapart m (mem_erase.mp hm).1 l (mem_erase.mp hl).1

theorem System.Inv.step (h : c.Inv) (hstep : c.step action = some d) : d.Inv := by
  have hsteps := steps_of_step hstep
  have hadvance := hsteps.socketsAdvance
  obtain ⟨hbound, hunique⟩ := h.tokens hadvance
  obtain ⟨hstarted, halone⟩ := h.timers hsteps
  refine ⟨hbound, hunique, hstarted, halone, h.kept_step hsteps, h.size_step hsteps,
    h.apart_step hsteps, ?_⟩
  intro s b e presented i hb hpoint
  rcases hsteps.rebinding hb hpoint with
    ⟨a, j, ha, hbefore, hsubject⟩ | ⟨hmem, htoken, hsubject⟩
  · obtain ⟨htoken, hown, hclosed⟩ := h.rebinding s a e presented j ha hbefore
    exact ⟨htoken, hown.trans hsubject, hclosed.advance hadvance⟩
  obtain ⟨timer, hget, -, hsender⟩ := h.kept e hmem
  obtain ⟨a, ha, hclosed, -⟩ := h.started _ timer hget
  rw [hsender] at ha
  have hclosedBefore : c.Closed e.sender := ⟨a, ha, hclosed⟩
  exact ⟨htoken, hsubject, hclosedBefore.advance hadvance⟩

theorem inv_of_run {capacity : ℕ} {actions : List Action}
    (hrun : (System.opened capacity).run actions = some c) : c.Inv := by
  have hinit : (System.opened capacity).Inv := by
    constructor
    · intro s a hget
      simp [System.opened] at hget
    · intro s t a b hget
      simp [System.opened] at hget
    · intro t timer hget
      simp [System.opened] at hget
    · intro t u timer other hget
      simp [System.opened] at hget
    · intro e he
      exact absurd he mem_empty
    · exact Nat.zero_le _
    · intro i m hm
      exact absurd hm mem_empty
    · intro s a e presented i hget
      simp [System.opened] at hget
  exact Transition.run_kept (fun _ _ _ h hstep => h.step hstep) hinit hrun

end Preserved

/-! ## Consumption -/

/-- The action is a reconnect that may take the entry. -/
def Consumes (c : System) (e : GraceEntry) : Action → Prop
  | .reconnect s room participant token =>
    e.key = (room, participant, token) ∧
      ∃ a : Socket, c.sockets[s]? = some a ∧ e.authenticatedSubject = a.subject
  | .timerFires t => t = e.timer
  | .revoke userId minimumVersion => GracePeriodMap.revokes userId minimumVersion e = true
  | .closeMap => True
  | _ => False

section Consumption

variable {e : GraceEntry}

theorem System.Inv.consumes (h : c.Inv) (hsteps : Steps c action d)
    (he : e ∈ c.grace.inner) (hgone : ¬ e ∈ d.grace.inner) : Consumes c e action := by
  cases hsteps.mapChange with
  | same action hgrace =>
    rw [hgrace] at hgone
    exact absurd he hgone
  | @inserted s a room version hget hpoint hgrace =>
    exfalso
    apply hgone
    rw [hgrace, GracePeriodMap.insert]
    split
    · exact he
    refine mem_insert.mpr (Or.inl ⟨he, ?_⟩)
    intro hkey
    exact h.key_absent hget (by simp [hpoint]) he (congrArg (fun key => key.2.2) hkey)
  | @reconnected s a room participant token entry hget htaken hsubject hgrace =>
    obtain ⟨hentry, hkey⟩ := get_eq_some.mp htaken
    have hsame : e.key = (room, participant, token) := by
      by_contra hne
      apply hgone
      rw [hgrace]
      exact mem_erase.mpr ⟨he, hne⟩
    obtain rfl : e = entry := eq_of_key_eq he hentry (by rw [hsame, hkey])
    exact ⟨hsame, a, hget, hsubject⟩
  | @fired t timer entry hget htaken hgrace =>
    have hsame : e.key = (timer.room, timer.participant, timer.token) := by
      by_contra hne
      apply hgone
      rw [hgrace]
      exact mem_erase.mpr ⟨he, hne⟩
    exact (h.timer_of_key he hget (congrArg (fun key => key.2.2) hsame).symm).symm
  | revoked userId minimumVersion hgrace =>
    show GracePeriodMap.revokes userId minimumVersion e = true
    by_contra hnot
    apply hgone
    rw [hgrace]
    exact mem_filter.mpr ⟨he, by simpa using hnot⟩
  | closed => trivial

def System.Gone (c : System) (t : TimerId) : Prop :=
  t < c.timers.length ∧ ∀ e ∈ c.grace.inner, e.timer ≠ t

theorem System.Gone.step {t : ℕ} (h : c.Gone t) (hsteps : Steps c action d) : d.Gone t := by
  obtain ⟨hlt, hnone⟩ := h
  constructor
  · rcases hsteps.timersChange with htimers | ⟨s, a, room, version, -, -, -, htimers, -⟩
    · rw [htimers]
      exact hlt
    · rw [htimers, List.length_append]
      exact Nat.lt_add_right _ hlt
  · intro e he
    rcases hsteps.mem_grace he with hold | ⟨s, a, room, version, -, -, rfl, -⟩
    · exact hnone e hold
    · exact (Nat.ne_of_lt hlt).symm

theorem System.Inv.gone (h : c.Inv) (hsteps : Steps c action d)
    (he : e ∈ c.grace.inner) (hgone : ¬ e ∈ d.grace.inner) : d.Gone e.timer := by
  obtain ⟨timer, hget, hkey, -⟩ := h.kept e he
  have hget' := hsteps.timers_mono hget
  refine ⟨(List.getElem?_eq_some_iff.mp hget').1, ?_⟩
  intro other hother hsame
  -- an entry with the same timer has the same key, and a new one has a new timer
  rcases hsteps.mem_grace hother with hmem | ⟨s, a, room, version, -, -, rfl, -⟩
  · obtain ⟨timer', hget'', hkey', -⟩ := h.kept other hmem
    rw [hsame, hget] at hget''
    obtain rfl := Option.some.inj hget''
    obtain rfl : e = other := eq_of_key_eq he hmem (by rw [← hkey, ← hkey'])
    exact hgone hother
  · have hlt := (List.getElem?_eq_some_iff.mp hget).1
    exact absurd hsame (Nat.ne_of_lt hlt).symm

theorem System.Gone.run {t : ℕ} {actions : List Action} (h : c.Gone t)
    (hrun : c.run actions = some d) : d.Gone t := by
  have hkeeps : ∀ (x : System) (action : Action) (y : System),
      x.Gone t → x.step action = some y → y.Gone t :=
    fun _ _ _ hgone hstep => hgone.step (steps_of_step hstep)
  exact Transition.run_kept hkeeps h hrun

end Consumption

/-! ## Ownership of memberships -/

/-- `m` is a membership of the incarnation, in its room or in its lobby. -/
def System.Holds (c : System) (i : Incarnation) (m : Member) : Prop :=
  m ∈ (c.room i).participants ∨ m ∈ (c.room i).lobby

/-- The removal is one that the action asks for. -/
def Requests (c : System) (removal : Removal) : Action → Prop
  | .join s _ => removal.sender = s
  | .replace s =>
    ∃ (a : Socket) (room : RoomId) (i : Incarnation), c.sockets[s]? = some a ∧
      a.point = .replacing room i ∧ removal.participant = a.participant ∧
      c.isClosed removal.sender = true ∧
      ∃ m ∈ (c.room i).participants, m.id = a.participant ∧ removal.sender = m.sender
  | .leave s => removal.sender = s
  | .disconnect s => removal.sender = s
  | .retain s _ => removal.sender = s
  | .timerFires t => ∃ timer : Timer, c.timers[t]? = some timer ∧ removal.sender = timer.sender
  | .revoke userId minimumVersion =>
    ∃ e ∈ c.grace.inner, GracePeriodMap.revokes userId minimumVersion e = true ∧
      removal.sender = e.sender
  | .lookUpRebind s =>
    ∃ (a : Socket) (e : GraceEntry) (presented : ReconnectToken),
      c.sockets[s]? = some a ∧ a.point = .rebinding e presented none ∧ removal.sender = e.sender
  | .finishRebind s _ =>
    ∃ (a : Socket) (e : GraceEntry) (presented : ReconnectToken) (i : Incarnation),
      c.sockets[s]? = some a ∧ a.point = .rebinding e presented (some i) ∧ removal.sender = e.sender
  | .lookUpRemoval job =>
    ∃ old : Removal, c.removals[job]? = some old ∧
      removal.participant = old.participant ∧ removal.sender = old.sender
  | _ => False

/-- The ways in which a membership ends or changes hands: a removal for its own
socket, a reconnect that presents the token its own socket left, or a decision
of the room. -/
def Releases (c d : System) (i : Incarnation) (m : Member) : Action → Prop
  | .remove job =>
    ∃ removal : Removal, c.removals[job]? = some removal ∧
      removal.participant = m.id ∧ removal.sender = m.sender
  | .finishRebind s _ =>
    ∃ (a : Socket) (e : GraceEntry), c.sockets[s]? = some a ∧
      a.point = .rebinding e e.reconnectToken (some i) ∧
      e.participant = m.id ∧ e.sender = m.sender ∧ c.Closed m.sender ∧
      d.Holds i { m with sender := s }
  | .closeRoom _ => True
  | .expel _ _ => True
  | _ => False

theorem boundTo_iff {r : Roster Member.id} {id : ParticipantId} {sender : SenderId} :
    GraceRoom.boundTo r id sender = true ↔ ∃ m ∈ r, m.id = id ∧ m.sender = sender := by
  rw [GraceRoom.boundTo, Option.any_eq_true]
  constructor
  · rintro ⟨m, hget, hsender⟩
    obtain ⟨hmem, hid⟩ := get_eq_some.mp hget
    exact ⟨m, hmem, hid, of_decide_eq_true hsender⟩
  · rintro ⟨m, hmem, hid, hsender⟩
    exact ⟨m, get_eq_some.mpr ⟨hmem, hid⟩, decide_eq_true hsender⟩

theorem System.Inv.removal_owner (h : c.Inv) {i : Incarnation} {m : Member}
    {sender : SenderId} (hm : c.Holds i m)
    (hbound : GraceRoom.boundTo (c.room i).participants m.id sender = true ∨
      GraceRoom.boundTo (c.room i).lobby m.id sender = true) : m.sender = sender := by
  have hapart := h.apart i
  rcases hbound with hbound | hbound
  · obtain ⟨owner, howner, hid, hsender⟩ := boundTo_iff.mp hbound
    rcases hm with hm | hm
    · rw [eq_of_key_eq hm howner hid.symm]
      exact hsender
    · exact absurd hid (hapart owner howner m hm)
  · obtain ⟨owner, howner, hid, hsender⟩ := boundTo_iff.mp hbound
    rcases hm with hm | hm
    · exact absurd hid.symm (hapart m hm owner howner)
    · rw [eq_of_key_eq hm howner hid.symm]
      exact hsender

theorem System.Inv.releases (h : c.Inv) (hsteps : Steps c action d) {i : Incarnation}
    {m : Member} (hm : c.Holds i m) (hgone : ¬ d.Holds i m) :
    Releases c d i m action := by
  cases hsteps.roomChange i with
  | same action hroom =>
    rw [System.Holds, hroom] at hgone
    exact absurd hm hgone
  | @committed s a waits accepted habsent hroom =>
    exfalso
    apply hgone
    rw [System.Holds, hroom]
    cases waits with
    | true =>
      rcases hm with hm | hm
      · exact Or.inl hm
      right
      refine mem_insert.mpr (Or.inl ⟨hm, ?_⟩)
      exact contains_eq_false.mp habsent.2 m hm
    | false =>
      rcases hm with hm | hm
      · left
        refine mem_insert.mpr (Or.inl ⟨hm, ?_⟩)
        exact contains_eq_false.mp habsent.1 m hm
      · exact Or.inr hm
  | @rebound s a entry presented queued member hget hpoint hfound hsender hidentity hroom =>
    obtain ⟨hmember, hid⟩ := get_eq_some.mp hfound
    have hsame : m = member := by
      by_contra hne
      apply hgone
      rw [System.Holds, hroom]
      rcases hm with hm | hm
      · refine Or.inl (mem_rebound.mpr (Or.inl ⟨hm, ?_⟩))
        intro hmid
        exact hne (eq_of_key_eq hm hmember (by rw [hmid, hid]))
      · exact Or.inr hm
    subst hsame
    obtain ⟨htoken, hsubject, hclosed⟩ := h.rebinding s a entry presented _ hget hpoint
    subst htoken
    refine ⟨a, entry, hget, hpoint, hid.symm, hsender.symm, ?_, ?_⟩
    · rw [hsender]
      exact hclosed
    · rw [System.Holds, hroom]
      exact Or.inl (mem_rebound.mpr (Or.inr ⟨m, hmember, hid, rfl⟩))
  | @removed job removal hget hroom =>
    rcases removeForSender_cases (c.room i) removal.participant removal.sender with
      heq | ⟨hbound, heq⟩
    · rw [System.Holds, hroom, heq] at hgone
      exact absurd hm hgone
    have hid : m.id = removal.participant := by
      by_contra hne
      apply hgone
      rw [System.Holds, hroom, heq]
      exact hm.imp (fun hm => mem_erase.mpr ⟨hm, hne⟩) (fun hm => mem_erase.mpr ⟨hm, hne⟩)
    rw [← hid] at hbound
    exact ⟨removal, hget, hid.symm, (h.removal_owner hm hbound).symm⟩
  | closed | expelled => trivial
  | @admitted id member hfound hroom =>
    exfalso
    apply hgone
    obtain ⟨hmember, -⟩ := get_eq_some.mp hfound
    rw [System.Holds, hroom]
    by_cases hid : m.id = member.id
    · left
      rcases hm with hm | hm
      · exact absurd hid (h.apart i m hm member hmember)
      · rw [eq_of_key_eq hm hmember hid]
        exact mem_insert.mpr (Or.inr rfl)
    · exact hm.imp (fun hm => mem_insert.mpr (Or.inl ⟨hm, hid⟩))
        (fun hm => mem_erase.mpr ⟨hm, hid⟩)

theorem Steps.requests (hsteps : Steps c action d) {removal : Removal}
    (hmem : removal ∈ d.removals) (hnew : removal ∉ c.removals) :
    Requests c removal action := by
  -- one removal is appended to what was there
  have happended : ∀ {new : Removal}, removal ∈ c.removals ++ [new] → removal = new := by
    intro new h
    rcases List.mem_append.mp h with hold | hlast
    · exact absurd hold hnew
    · exact List.mem_singleton.mp hlast
  cases hsteps with
  | @join s a =>
    rw [System.join] at hmem
    cases hroom : a.currentRoom with
    | none =>
      simp only [hroom] at hmem
      exact absurd hmem hnew
    | some =>
      simp only [hroom] at hmem
      rw [happended hmem]
      rfl
  | @replace s a room i hget hpoint =>
    rcases replace_cases c s a room i with heq | ⟨stale, hstale, hid, hclosed, heq⟩
    · rw [heq] at hmem
      exact absurd hmem hnew
    · rw [heq] at hmem
      rw [happended hmem]
      exact ⟨a, room, i, hget, hpoint, rfl, hclosed, stale, hstale, hid, rfl⟩
  | @commit =>
    rw [System.commit] at hmem
    split at hmem <;> exact absurd hmem hnew
  | @leave s a =>
    rw [System.leave] at hmem
    cases hroom : a.currentRoom with
    | none =>
      simp only [hroom] at hmem
      exact absurd hmem hnew
    | some =>
      simp only [hroom] at hmem
      rw [happended hmem]
      rfl
  | @reconnect s a room participant token =>
    rcases reconnect_cases c s a room participant token with heq | ⟨e, -, -, heq⟩
    all_goals
      rw [heq] at hmem
      exact absurd hmem hnew
  | @lookUpRebind s a entry presented hget hpoint =>
    rcases lookUpRebind_cases c s a entry presented with heq | ⟨i, heq⟩
    · rw [heq] at hmem
      rw [happended hmem]
      exact ⟨a, entry, presented, hget, hpoint, rfl⟩
    · rw [heq] at hmem
      exact absurd hmem hnew
  | @finishRebind s a entry presented i queued hget hpoint =>
    rcases finishRebind_cases c s a entry i queued with heq | ⟨m, -, -, -, heq⟩
    · rw [heq] at hmem
      rw [happended hmem]
      exact ⟨a, entry, presented, i, hget, hpoint, rfl⟩
    · rw [heq] at hmem
      exact absurd hmem hnew
  | @disconnect =>
    rw [System.disconnect] at hmem
    split at hmem
    · exact absurd hmem hnew
    split at hmem
    · exact absurd hmem hnew
    split at hmem
    · rw [happended hmem]
      rfl
    · exact absurd hmem hnew
  | @retain =>
    rw [System.retain] at hmem
    split at hmem
    · exact absurd hmem hnew
    · rw [happended hmem]
      rfl
  | @timerFires t timer hget =>
    rw [System.timerFires] at hmem
    dsimp only at hmem
    split at hmem
    · exact absurd hmem hnew
    · rw [happended hmem]
      exact ⟨timer, hget, rfl⟩
  | revoke =>
    rcases List.mem_append.mp hmem with hold | hrevoked
    · exact absurd hold hnew
    obtain ⟨e, he, rfl⟩ := List.mem_map.mp hrevoked
    obtain ⟨hmem, hrevokes⟩ := List.mem_filter.mp he
    exact ⟨e, hmem, hrevokes, rfl⟩
  | @lookUpRemoval job old hget =>
    rw [System.lookUpRemoval] at hmem
    split at hmem
    · exact absurd (List.mem_of_mem_eraseIdx hmem) hnew
    rcases List.mem_or_eq_of_mem_set hmem with hold | rfl
    · exact absurd hold hnew
    · exact ⟨old, hget, rfl, rfl⟩
  | remove => exact absurd (List.mem_of_mem_eraseIdx hmem) hnew
  | _ => exact absurd hmem hnew

/-- A reconnect that succeeds has presented the token and the identity of an
entry whose membership is still bound to the socket that left it. -/
theorem System.Inv.reconnects (h : c.Inv) {s : SenderId} {queued : Bool}
    (hsteps : Steps c (.finishRebind s queued) d) {a b : Socket}
    (ha : c.sockets[s]? = some a) (hb : d.sockets[s]? = some b)
    (hroom : b.currentRoom ≠ a.currentRoom) :
    ∃ (e : GraceEntry) (i : Incarnation) (m : Member),
      a.point = .rebinding e e.reconnectToken (some i) ∧
      e.authenticatedSubject = a.subject ∧ c.Closed e.sender ∧
      m ∈ (c.room i).participants ∧ m.id = e.participant ∧ m.sender = e.sender ∧
      m.identityMatches a.subject = true ∧ b.currentRoom = some e.room := by
  cases hsteps with
  | @finishRebind _ a' entry presented i _ hget hpoint =>
    rw [ha] at hget
    cases hget
    obtain ⟨rfl, hsubject, hclosed⟩ := h.rebinding s a entry presented _ ha hpoint
    have hlt : s < c.sockets.length := (List.getElem?_eq_some_iff.mp ha).1
    rcases finishRebind_cases c s a entry i queued with
      heq | ⟨m, hfound, hsender, hidentity, heq⟩
    · rw [heq, System.failRebind] at hb
      have hsame : b = { a with point := .ready } := by
        have hself : (c.sockets.set s { a with point := .ready })[s]? =
            some { a with point := .ready } := List.getElem?_set_self hlt
        exact Option.some.inj (hb.symm.trans hself)
      exact absurd (congrArg Socket.currentRoom hsame) hroom
    · obtain ⟨hm, hid⟩ := get_eq_some.mp hfound
      refine ⟨entry, i, m, hpoint, hsubject, hclosed, hm, hid, hsender, hidentity, ?_⟩
      rw [heq] at hb
      rcases point_of_set hb with hold | ⟨-, rfl⟩
      · have hsame : a = b := Option.some.inj (ha.symm.trans hold)
        exact absurd (congrArg Socket.currentRoom hsame.symm) hroom
      · rfl

theorem maxEntries_of_run {capacity : ℕ} {actions : List Action}
    (hrun : (System.opened capacity).run actions = some c) :
    c.grace.maxEntries = max capacity 1 := by
  have hkeeps : ∀ (x : System) (action : Action) (y : System),
      x.grace.maxEntries = max capacity 1 → x.step action = some y →
        y.grace.maxEntries = max capacity 1 := by
    intro x action y hx hstep
    rw [← hx]
    cases (steps_of_step hstep).mapChange with
    | same action hgrace => rw [hgrace]
    | inserted hget hpoint hgrace =>
      rw [hgrace, GracePeriodMap.insert]
      split <;> rfl
    | reconnected hget htaken hsubject hgrace => rw [hgrace]
    | fired hget htaken hgrace => rw [hgrace]
    | revoked userId minimumVersion hgrace =>
      rw [hgrace]
      rfl
    | closed hgrace =>
      rw [hgrace]
      rfl
  exact Transition.run_kept hkeeps rfl hrun

/-- Over every interleaving of sockets, timers, revocations, moderation and
shutdown: an entry leaves the map for good and in one of four ways, a membership
ends or changes hands only for its own socket, a reconnect succeeds only with
the token and identity left by the socket the membership is still bound to, and
the map keeps within its size. -/
theorem grace_exclusive {capacity : ℕ} {actions : List Action}
    (hrun : (System.opened capacity).run actions = some c)
    (hstep : c.step action = some d) :
    (∀ e ∈ c.grace.inner, ¬ e ∈ d.grace.inner → Consumes c e action ∧
        ∀ more later, d.run more = some later →
          ∀ other ∈ later.grace.inner, other.timer ≠ e.timer) ∧
    (∀ i m, c.Holds i m → ¬ d.Holds i m → Releases c d i m action) ∧
    (∀ removal ∈ d.removals, removal ∉ c.removals → Requests c removal action) ∧
    (∀ (s : SenderId) (queued : Bool) (a b : Socket), action = .finishRebind s queued →
      c.sockets[s]? = some a → d.sockets[s]? = some b →
      b.currentRoom ≠ a.currentRoom →
      ∃ (e : GraceEntry) (i : Incarnation) (m : Member),
        a.point = .rebinding e e.reconnectToken (some i) ∧
        e.authenticatedSubject = a.subject ∧ c.Closed e.sender ∧
        m ∈ (c.room i).participants ∧ m.id = e.participant ∧ m.sender = e.sender ∧
        m.identityMatches a.subject = true ∧ b.currentRoom = some e.room) ∧
    c.grace.inner.entries.length ≤ max capacity 1 := by
  have hinv := inv_of_run hrun
  have hsteps := steps_of_step hstep
  refine ⟨?_, ?_, ?_, ?_, ?_⟩
  · intro e he hgone
    refine ⟨hinv.consumes hsteps he hgone, ?_⟩
    intro more later hmore other hother
    exact ((hinv.gone hsteps he hgone).run hmore).2 other hother
  · intro i m hm hgone
    exact hinv.releases hsteps hm hgone
  · intro removal hmem hnew
    exact hsteps.requests hmem hnew
  · rintro s queued a b rfl ha hb hroom
    exact hinv.reconnects hsteps ha hb hroom
  · rw [← maxEntries_of_run hrun]
    exact hinv.size

/-- An account loses its connection and joins again on a fresh socket, which
replaces the retained membership. -/
def reloadsPage : List Action :=
  [.connect (some 7) 0, .openRoom 1, .join 0 1, .reserve 0, .replace 0, .commit 0 false true,
    .hangUp 0 false, .disconnect 0, .retain 0 0, .writerEnds 0,
    .connect (some 7) 0, .join 1 1, .reserve 1, .replace 1, .lookUpRemoval 0, .remove 0,
    .commit 1 false true]

/-- The timer of the first socket then consumes the entry for good and asks
for a removal, which leaves the newer membership alone. -/
theorem reloadsPage_consumed : ∃ c d, (System.opened 4).run reloadsPage = some c ∧
      c.step (.timerFires 0) = some d ∧
      (∃ e ∈ c.grace.inner, ¬ e ∈ d.grace.inner ∧ Consumes c e (.timerFires 0) ∧
        ∀ more later, d.run more = some later →
          ∀ other ∈ later.grace.inner, other.timer ≠ e.timer) ∧
      d.removals = [⟨1, 7, 0, none⟩] ∧
      (d.run [.lookUpRemoval 0, .remove 0]).any (fun later =>
        later.removals = [] ∧ (later.room 0).participants.entries = [⟨7, 1, true⟩]) = true := by
  have hrun : (((System.opened 4).run reloadsPage).any fun c =>
      (c.step (.timerFires 0)).any fun d =>
        (c.grace.inner.entries.any fun e => decide (e ∉ d.grace.inner.entries)) &&
        (decide (d.removals = [⟨1, 7, 0, none⟩]) &&
          (d.run [.lookUpRemoval 0, .remove 0]).any fun later =>
            later.removals = [] ∧ (later.room 0).participants.entries = [⟨7, 1, true⟩])) =
      true := by
    decide +kernel
  obtain ⟨c, hc, hany⟩ := (Option.any_eq_true _ _).mp hrun
  obtain ⟨d, hd, hend⟩ := (Option.any_eq_true _ _).mp hany
  simp only [Bool.and_eq_true] at hend
  obtain ⟨hentries, hremovals, hlate⟩ := hend
  obtain ⟨e, he, hgone⟩ := List.any_eq_true.mp hentries
  have hnot : ¬ e ∈ d.grace.inner := of_decide_eq_true hgone
  obtain ⟨hconsumes, hlater⟩ := (grace_exclusive hc hd).1 e he hnot
  exact ⟨c, d, hc, hd, ⟨e, he, hnot, hconsumes, hlater⟩, of_decide_eq_true hremovals, hlate⟩

end SimplestChat.Grace
