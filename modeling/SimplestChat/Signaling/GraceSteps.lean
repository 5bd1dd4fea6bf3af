import SimplestChat.Signaling.Grace

/-!
# What a step of the reconnect grace does

The guards of every step, and what a step can do to the sockets and their
tokens, to the timers, to the map and to the members of a room.
-/

namespace SimplestChat.Grace

open List Option Grace.System

variable {c d : System} {action : Action}

/-! ## What a step does -/

inductive Steps (c : System) : Action → System → Prop where
  | connect (subject : Option ParticipantId) (guest : ParticipantId) :
      Steps c (.connect subject guest) (c.connect subject guest)
  | join {s : SenderId} {a : Socket} (room : RoomId)
      (get : c.sockets[s]? = some a) (point : a.point = .ready) :
      Steps c (.join s room) (c.join s a room)
  | reserve {s : SenderId} {a : Socket} {room : RoomId} (next : SocketPoint)
      (get : c.sockets[s]? = some a) (point : a.point = .joining room)
      (nextPoint : next = .ready ∨ ∃ i, next = .replacing room i) :
      Steps c (.reserve s) (c.setSocket s { a with point := next })
  | replace {s : SenderId} {a : Socket} {room : RoomId} {i : Incarnation}
      (get : c.sockets[s]? = some a) (point : a.point = .replacing room i) :
      Steps c (.replace s) (c.replace s a room i)
  | commit {s : SenderId} {a : Socket} {room : RoomId} {i : Incarnation}
      (waits accepted : Bool)
      (get : c.sockets[s]? = some a) (point : a.point = .committing room i) :
      Steps c (.commit s waits accepted) (c.commit s a room i waits accepted)
  | leave {s : SenderId} {a : Socket}
      (get : c.sockets[s]? = some a) (point : a.point = .ready) :
      Steps c (.leave s) (c.leave s a)
  | reconnect {s : SenderId} {a : Socket} (room : RoomId)
      (participant : ParticipantId) (token : ReconnectToken)
      (get : c.sockets[s]? = some a) (point : a.point = .ready) :
      Steps c (.reconnect s room participant token)
        (c.reconnect s a room participant token)
  | lookUpRebind {s : SenderId} {a : Socket} {entry : GraceEntry}
      {presented : ReconnectToken}
      (get : c.sockets[s]? = some a) (point : a.point = .rebinding entry presented none) :
      Steps c (.lookUpRebind s) (c.lookUpRebind s a entry presented)
  | finishRebind {s : SenderId} {a : Socket} {entry : GraceEntry}
      {presented : ReconnectToken} {i : Incarnation} (queued : Bool)
      (get : c.sockets[s]? = some a)
      (point : a.point = .rebinding entry presented (some i)) :
      Steps c (.finishRebind s queued) (c.finishRebind s a entry i queued)
  | writerEnds (s : SenderId) : Steps c (.writerEnds s) { c with
        sockets := c.sockets.modify s fun a => { a with writing := false } }
  | hangUp {s : SenderId} {a : Socket} (invalidated : Bool)
      (get : c.sockets[s]? = some a) (point : a.point = .ready) :
      Steps c (.hangUp s invalidated)
        (c.setSocket s { a with point := .closing invalidated })
  | disconnect {s : SenderId} {a : Socket} {invalidated : Bool}
      (get : c.sockets[s]? = some a) (point : a.point = .closing invalidated) :
      Steps c (.disconnect s) (c.disconnect s a invalidated)
  | retain {s : SenderId} {a : Socket} {room : RoomId} (version : Int)
      (get : c.sockets[s]? = some a) (point : a.point = .retaining room) :
      Steps c (.retain s version) (c.retain s a room version)
  | timerFires {t : TimerId} {timer : Timer} (get : c.timers[t]? = some timer) :
      Steps c (.timerFires t) (c.timerFires t timer)
  | revoke (userId : ParticipantId) (minimumVersion : Int) :
      Steps c (.revoke userId minimumVersion) (c.revoke userId minimumVersion)
  | beginDraining : Steps c .beginDraining { c with draining := true }
  | closeMap : Steps c .closeMap { c with grace := c.grace.close }
  | lookUpRemoval {job : ℕ} {removal : Removal}
      (get : c.removals[job]? = some removal) :
      Steps c (.lookUpRemoval job) (c.lookUpRemoval job removal)
  | remove {job : ℕ} {removal : Removal} {i : Incarnation}
      (get : c.removals[job]? = some removal)
      (found : removal.incarnation = some i) :
      Steps c (.remove job) (c.remove job removal i)
  | openRoom {room : RoomId} (absent : c.rooms room = none) : Steps c (.openRoom room) { c with
        rooms := Function.update c.rooms room (some c.nextIncarnation)
        nextIncarnation := c.nextIncarnation + 1 }
  | closeRoom {room : RoomId} {i : Incarnation} (mapped : c.rooms room = some i) :
      Steps c (.closeRoom room)
        ({ c with rooms := Function.update c.rooms room none }.setRoom i
          { GraceRoom.fresh with live := false })
  | admission {i : Incarnation} {id : ParticipantId} {member : Member}
      (get : (c.room i).lobby.get id = some member) :
      Steps c (.admission i id) (c.admission i member)
  | expel (i : Incarnation) (id : ParticipantId) : Steps c (.expel i id) (c.expel i id)

theorem steps_of_step (h : c.step action = some d) : Steps c action d := by
  cases action with
  | connect subject guest =>
    cases h
    exact .connect subject guest
  | join s room =>
    obtain ⟨a, hget, hstep⟩ := bind_eq_some_iff.mp h
    obtain ⟨hpoint, ⟨⟩⟩ := ite_none_right_eq_some.mp hstep
    exact .join room hget hpoint
  | reserve s =>
    obtain ⟨a, hget, hstep⟩ := bind_eq_some_iff.mp h
    split at hstep
    · rename_i room hpoint
      split at hstep
      · cases hstep
        exact .reserve _ hget hpoint (Or.inl rfl)
      · cases hstep
        exact .reserve _ hget hpoint (Or.inr ⟨_, rfl⟩)
    · cases hstep
  | replace s =>
    obtain ⟨a, hget, hstep⟩ := bind_eq_some_iff.mp h
    split at hstep
    · cases hstep
      exact .replace hget ‹_›
    · cases hstep
  | commit s waits accepted =>
    obtain ⟨a, hget, hstep⟩ := bind_eq_some_iff.mp h
    split at hstep
    · cases hstep
      exact .commit waits accepted hget ‹_›
    · cases hstep
  | leave =>
    obtain ⟨a, hget, hstep⟩ := bind_eq_some_iff.mp h
    obtain ⟨hpoint, ⟨⟩⟩ := ite_none_right_eq_some.mp hstep
    exact .leave hget hpoint
  | reconnect s room participant token =>
    obtain ⟨a, hget, hstep⟩ := bind_eq_some_iff.mp h
    obtain ⟨hpoint, ⟨⟩⟩ := ite_none_right_eq_some.mp hstep
    exact .reconnect room participant token hget hpoint
  | lookUpRebind s =>
    obtain ⟨a, hget, hstep⟩ := bind_eq_some_iff.mp h
    split at hstep
    · cases hstep
      exact .lookUpRebind hget ‹_›
    · cases hstep
  | finishRebind s queued =>
    obtain ⟨a, hget, hstep⟩ := bind_eq_some_iff.mp h
    split at hstep
    · cases hstep
      exact .finishRebind queued hget ‹_›
    · cases hstep
  | writerEnds s =>
    cases h
    exact .writerEnds s
  | hangUp s invalidated =>
    obtain ⟨a, hget, hstep⟩ := bind_eq_some_iff.mp h
    obtain ⟨hpoint, ⟨⟩⟩ := ite_none_right_eq_some.mp hstep
    exact .hangUp invalidated hget hpoint
  | disconnect s =>
    obtain ⟨a, hget, hstep⟩ := bind_eq_some_iff.mp h
    split at hstep
    · cases hstep
      exact .disconnect hget ‹_›
    · cases hstep
  | retain s version =>
    obtain ⟨a, hget, hstep⟩ := bind_eq_some_iff.mp h
    split at hstep
    · cases hstep
      exact .retain version hget ‹_›
    · cases hstep
  | timerFires =>
    obtain ⟨timer, hget, hstep⟩ := bind_eq_some_iff.mp h
    split at hstep
    · cases hstep
    · cases hstep
      exact .timerFires hget
  | revoke userId minimumVersion =>
    cases h
    exact .revoke userId minimumVersion
  | beginDraining =>
    cases h
    exact .beginDraining
  | closeMap =>
    cases h
    exact .closeMap
  | lookUpRemoval =>
    obtain ⟨removal, hget, hstep⟩ := bind_eq_some_iff.mp h
    split at hstep
    · cases hstep
      exact .lookUpRemoval hget
    · cases hstep
  | remove =>
    obtain ⟨removal, hget, hstep⟩ := bind_eq_some_iff.mp h
    obtain ⟨i, hfound, rfl⟩ := map_eq_some_iff.mp hstep
    exact .remove hget hfound
  | openRoom room =>
    rw [step] at h
    split at h
    · cases h
    · cases h
      exact .openRoom ‹_›
  | closeRoom =>
    obtain ⟨i, hmapped, rfl⟩ := map_eq_some_iff.mp h
    exact .closeRoom hmapped
  | admission =>
    obtain ⟨member, hget, rfl⟩ := map_eq_some_iff.mp h
    exact .admission hget
  | expel i id =>
    cases h
    exact .expel i id

/-! ## Sockets -/

/-- How sockets change: a closed one stays closed, and at most one socket draws
the next token. -/
structure SocketsAdvance (c d : System) : Prop where
  next : c.nextToken ≤ d.nextToken
  closed : ∀ (s : ℕ) (a : Socket), c.sockets[s]? = some a → a.point = .closed →
    ∃ b : Socket, d.sockets[s]? = some b ∧ b.point = .closed ∧ b.reconnectToken = a.reconnectToken
  tokens : ∀ (s : ℕ) (b : Socket), d.sockets[s]? = some b →
    (∃ a : Socket, c.sockets[s]? = some a ∧ b.reconnectToken = a.reconnectToken) ∨
    (b.reconnectToken = c.nextToken ∧ c.nextToken < d.nextToken ∧
      ∀ (t : ℕ) (b' : Socket), d.sockets[t]? = some b' → t ≠ s →
        ∃ a' : Socket, c.sockets[t]? = some a' ∧ b'.reconnectToken = a'.reconnectToken)

section Advance

theorem SocketsAdvance.same (hsockets : d.sockets = c.sockets)
    (hnext : c.nextToken ≤ d.nextToken) : SocketsAdvance c d := by
  constructor
  · exact hnext
  · intro s a hget hclosed
    exact ⟨a, by rw [hsockets, hget], hclosed, rfl⟩
  · intro s b hget
    rw [hsockets] at hget
    exact Or.inl ⟨b, hget, rfl⟩

theorem SocketsAdvance.set {s : ℕ} {a b : Socket} (hget : c.sockets[s]? = some a)
    (hopen : a.point ≠ .closed) (hsockets : d.sockets = c.sockets.set s b)
    (htoken : b.reconnectToken = a.reconnectToken ∧ c.nextToken ≤ d.nextToken ∨
      b.reconnectToken = c.nextToken ∧ d.nextToken = c.nextToken + 1) :
    SocketsAdvance c d := by
  have hlt : s < c.sockets.length := (List.getElem?_eq_some_iff.mp hget).1
  have hself : d.sockets[s]? = some b := by rw [hsockets, List.getElem?_set_self hlt]
  have hother : ∀ t, t ≠ s → d.sockets[t]? = c.sockets[t]? := by
    intro t ht
    rw [hsockets, List.getElem?_set_ne (Ne.symm ht)]
  constructor
  · omega
  · intro t a' hget' hclosed
    have hts : t ≠ s := by
      rintro rfl
      rw [hget] at hget'
      obtain rfl := Option.some.inj hget'
      exact hopen hclosed
    exact ⟨a', by rw [hother t hts, hget'], hclosed, rfl⟩
  · intro t b' hget'
    by_cases hts : t = s
    · subst hts
      rw [hself] at hget'
      obtain rfl := Option.some.inj hget'
      rcases htoken with ⟨hkept, -⟩ | ⟨hfresh, hnext⟩
      · exact Or.inl ⟨a, hget, hkept⟩
      refine Or.inr ⟨hfresh, by omega, ?_⟩
      intro u b'' hu hne
      rw [hother u hne] at hu
      exact ⟨b'', hu, rfl⟩
    · rw [hother t hts] at hget'
      exact Or.inl ⟨b', hget', rfl⟩

theorem SocketsAdvance.push {b : Socket} (hsockets : d.sockets = c.sockets ++ [b])
    (htoken : b.reconnectToken = c.nextToken) (hnext : d.nextToken = c.nextToken + 1) :
    SocketsAdvance c d := by
  constructor
  · omega
  · intro s a hget hclosed
    refine ⟨a, ?_, hclosed, rfl⟩
    have hlt : s < c.sockets.length := (List.getElem?_eq_some_iff.mp hget).1
    rw [hsockets, List.getElem?_append_left hlt, hget]
  · intro s b' hget
    rw [hsockets, List.getElem?_append] at hget
    by_cases hlt : s < c.sockets.length
    · rw [if_pos hlt] at hget
      exact Or.inl ⟨b', hget, rfl⟩
    rw [if_neg hlt] at hget
    have hb : b' = b := mem_singleton.mp (mem_of_getElem? hget)
    subst hb
    refine Or.inr ⟨htoken, by omega, ?_⟩
    intro t b'' ht hne
    rw [hsockets, List.getElem?_append] at ht
    by_cases htlt : t < c.sockets.length
    · rw [if_pos htlt] at ht
      exact ⟨b'', ht, rfl⟩
    rw [if_neg htlt] at ht
    have hs := (List.getElem?_eq_some_iff.mp hget).1
    have ht' := (List.getElem?_eq_some_iff.mp ht).1
    simp only [length_singleton] at hs ht'
    omega

theorem SocketsAdvance.modify {s : ℕ} {f : Socket → Socket}
    (hsockets : d.sockets = c.sockets.modify s f)
    (hpoint : ∀ a, (f a).point = a.point)
    (htoken : ∀ a, (f a).reconnectToken = a.reconnectToken)
    (hnext : c.nextToken ≤ d.nextToken) : SocketsAdvance c d := by
  constructor
  · exact hnext
  · intro t a hget hclosed
    rw [hsockets, getElem?_modify, hget]
    by_cases hst : s = t
    · exact ⟨f a, by simp [hst], (hpoint a).trans hclosed, htoken a⟩
    · exact ⟨a, by simp [hst], hclosed, rfl⟩
  · intro t b hget
    rw [hsockets, getElem?_modify, Option.map_eq_map, map_eq_some_iff] at hget
    obtain ⟨a, ha, rfl⟩ := hget
    refine Or.inl ⟨a, ha, ?_⟩
    by_cases hst : s = t
    · rw [if_pos hst, htoken]
    · rw [if_neg hst]

end Advance

section Frame

variable (c : System) (s : SenderId) (a : Socket)

theorem join_sockets (room : RoomId) : (c.join s a room).sockets = c.sockets.set s { a with
        reconnectToken := c.nextToken
        currentRoom := none
        point := .joining room } := by
  rw [System.join]
  cases a.currentRoom with
  | none | some => rfl

theorem join_rest (room : RoomId) :
    (c.join s a room).grace = c.grace ∧ (c.join s a room).timers = c.timers ∧
      (c.join s a room).room = c.room ∧
      (c.join s a room).nextToken = c.nextToken + 1 := by
  rw [System.join]
  cases a.currentRoom with
  | none | some => exact ⟨rfl, rfl, rfl, rfl⟩

theorem replace_cases (room : RoomId) (i : Incarnation) :
    c.replace s a room i = c.setSocket s { a with point := .committing room i } ∨
      ∃ stale ∈ (c.room i).participants, stale.id = a.participant ∧
        c.isClosed stale.sender = true ∧
        c.replace s a room i = (c.setSocket s { a with point := .committing room i }).removes
          room a.participant stale.sender := by
  rw [System.replace]
  split
  · exact Or.inl rfl
  rename_i stale hstale
  obtain ⟨hget, hclosed⟩ := Option.filter_eq_some_iff.mp hstale
  obtain ⟨hmem, hid⟩ := Roster.get_eq_some.mp hget
  exact Or.inr ⟨stale, hmem, hid, hclosed, rfl⟩

theorem replace_rest (room : RoomId) (i : Incarnation) :
    (c.replace s a room i).sockets =
        c.sockets.set s { a with point := .committing room i } ∧
      (c.replace s a room i).grace = c.grace ∧ (c.replace s a room i).timers = c.timers ∧
      (c.replace s a room i).room = c.room ∧
      (c.replace s a room i).nextToken = c.nextToken := by
  rcases replace_cases c s a room i with heq | ⟨stale, -, -, -, heq⟩
  all_goals
    rw [heq]
    exact ⟨rfl, rfl, rfl, rfl, rfl⟩

theorem commit_cases (room : RoomId) (i : Incarnation) (waits accepted : Bool) :
    (∃ currentRoom inLobby, (c.commit s a room i waits accepted).sockets = c.sockets.set s { a with
        currentRoom := currentRoom, inLobby := inLobby, point := .ready }) ∧
    (c.commit s a room i waits accepted).grace = c.grace ∧
    (c.commit s a room i waits accepted).timers = c.timers ∧
    (c.commit s a room i waits accepted).nextToken = c.nextToken ∧
    ((c.commit s a room i waits accepted).room = c.room ∨
      (c.room i).participants.contains a.participant = false ∧
      (c.room i).lobby.contains a.participant = false ∧
      (c.commit s a room i waits accepted).room = Function.update c.room i
        (if waits then { c.room i with lobby := (c.room i).lobby.insert (a.member s) }
         else { c.room i with
           participants := (c.room i).participants.insert (a.member s) })) := by
  rw [commit]
  dsimp only
  split
  · rename_i hcond
    simp only [Bool.and_eq_true, Bool.not_eq_true'] at hcond
    exact ⟨⟨_, _, rfl⟩, rfl, rfl, rfl, Or.inr ⟨hcond.1.2, hcond.2, rfl⟩⟩
  · exact ⟨⟨_, _, rfl⟩, rfl, rfl, rfl, Or.inl rfl⟩

theorem leave_cases : ((c.leave s a).sockets = c.sockets ∨ (c.leave s a).sockets =
        c.sockets.set s { a with currentRoom := none, inLobby := false }) ∧
    (c.leave s a).grace = c.grace ∧ (c.leave s a).timers = c.timers ∧
    (c.leave s a).room = c.room ∧ (c.leave s a).nextToken = c.nextToken := by
  rw [leave]
  cases a.currentRoom with
  | none => exact ⟨Or.inl rfl, rfl, rfl, rfl, rfl⟩
  | some => exact ⟨Or.inr rfl, rfl, rfl, rfl, rfl⟩

theorem reconnect_cases (room : RoomId) (participant : ParticipantId) (token : ReconnectToken) :
    c.reconnect s a room participant token = c ∨
      ∃ entry, c.grace.inner.get (room, participant, token) = some entry ∧
        entry.authenticatedSubject = a.subject ∧
        c.reconnect s a room participant token = { c with grace := { c.grace with
              inner := c.grace.inner.erase (room, participant, token) } }.setSocket s
            { a with point := .rebinding entry token none } := by
  rw [reconnect]
  split
  · exact Or.inl rfl
  dsimp only
  rw [GracePeriodMap.removeIfTokenMatches]
  cases hget : c.grace.inner.get (room, participant, token) with
  | none => exact Or.inl rfl
  | some entry =>
    dsimp only
    by_cases hsubject : entry.authenticatedSubject = a.subject
    · rw [if_pos hsubject]
      exact Or.inr ⟨entry, rfl, hsubject, rfl⟩
    · rw [if_neg hsubject]
      exact Or.inl rfl

theorem lookUpRebind_cases (entry : GraceEntry) (presented : ReconnectToken) :
    c.lookUpRebind s a entry presented = c.failRebind s a entry ∨
      ∃ i, c.lookUpRebind s a entry presented =
        c.setSocket s { a with point := .rebinding entry presented (some i) } := by
  rw [lookUpRebind]
  cases c.rooms entry.room with
  | none => exact Or.inl rfl
  | some i => exact Or.inr ⟨i, rfl⟩

theorem lookUpRebind_rest (entry : GraceEntry) (presented : ReconnectToken) :
    (c.lookUpRebind s a entry presented).grace = c.grace ∧
      (c.lookUpRebind s a entry presented).timers = c.timers ∧
      (c.lookUpRebind s a entry presented).room = c.room := by
  rcases lookUpRebind_cases c s a entry presented with heq | ⟨i, heq⟩
  all_goals
    rw [heq]
    exact ⟨rfl, rfl, rfl⟩

theorem rebind_cases (room : GraceRoom) (id : ParticipantId)
    (subject : Option ParticipantId) (expected : SenderId) :
    (room.rebind id subject expected s).1 = false ∨
      ∃ member, room.participants.get id = some member ∧
        member.sender = expected ∧ member.identityMatches subject = true ∧
        room.rebind id subject expected s = (true, { room with
          participants := room.participants.update id
            (fun m => { m with sender := s }) fun _ => rfl }) := by
  rw [GraceRoom.rebind]
  cases hget : room.participants.get id with
  | none => exact Or.inl rfl
  | some member =>
    dsimp only
    by_cases hsender : member.sender ≠ expected
    · rw [if_pos hsender]
      exact Or.inl rfl
    rw [if_neg hsender]
    cases hidentity : member.identityMatches subject with
    | false => exact Or.inl rfl
    | true => exact Or.inr ⟨member, rfl, not_not.mp hsender, hidentity, rfl⟩

theorem finishRebind_cases (entry : GraceEntry) (i : Incarnation) (queued : Bool) :
    c.finishRebind s a entry i queued = c.failRebind s a entry ∨
      ∃ member, (c.room i).participants.get entry.participant = some member ∧
        member.sender = entry.sender ∧ member.identityMatches a.subject = true ∧
        c.finishRebind s a entry i queued = { c.setRoom i { c.room i with
              participants := (c.room i).participants.update entry.participant
                (fun m => { m with sender := s }) fun _ => rfl } with
            nextToken := c.nextToken + 1 }.setSocket s
          { a with
            participant := entry.participant
            currentRoom := some entry.room
            reconnectToken := if queued then c.nextToken else a.reconnectToken
            point := .ready } := by
  rw [finishRebind]
  rcases rebind_cases s (c.room i) entry.participant a.subject entry.sender with
    hfailed | ⟨member, hget, hsender, hidentity, hrebind⟩
  · left
    simp [hfailed]
  by_cases hlive : (!c.draining && (c.room i).live) = true
  · right
    refine ⟨member, hget, hsender, hidentity, ?_⟩
    simp only [hrebind, hlive, Bool.and_true, if_true]
  · left
    simp only [hrebind, Bool.and_true]
    rw [if_neg hlive]

theorem finishRebind_rest (entry : GraceEntry) (i : Incarnation) (queued : Bool) :
    (c.finishRebind s a entry i queued).grace = c.grace ∧
      (c.finishRebind s a entry i queued).timers = c.timers := by
  rcases finishRebind_cases c s a entry i queued with heq | ⟨m, -, -, -, heq⟩
  all_goals
    rw [heq]
    exact ⟨rfl, rfl⟩

theorem disconnect_cases (invalidated : Bool) : (∃ point, (∀ e p i, point ≠ .rebinding e p i) ∧
      (c.disconnect s a invalidated).sockets = c.sockets.set s { a with point := point }) ∧
    (c.disconnect s a invalidated).grace = c.grace ∧
    (c.disconnect s a invalidated).timers = c.timers ∧
    (c.disconnect s a invalidated).room = c.room ∧
    (c.disconnect s a invalidated).nextToken = c.nextToken := by
  rw [disconnect]
  split
  · exact ⟨⟨_, by simp, rfl⟩, rfl, rfl, rfl, rfl⟩
  by_cases hdraining : c.draining = true
  · rw [if_pos hdraining]
    exact ⟨⟨.closed, by simp, rfl⟩, rfl, rfl, rfl, rfl⟩
  rw [if_neg hdraining]
  split
  · exact ⟨⟨.closed, by simp, rfl⟩, rfl, rfl, rfl, rfl⟩
  · exact ⟨⟨.retaining _, by simp, rfl⟩, rfl, rfl, rfl, rfl⟩

theorem retain_eq (room : RoomId) (version : Int) :
    (c.retain s a room version).sockets = c.sockets.set s { a with point := .closed } ∧
    (c.retain s a room version).grace = (c.grace.insert (c.entryOf s a room version)).2 ∧
    (c.retain s a room version).timers = c.timers ++ [System.timerOf s a room] ∧
    (c.retain s a room version).room = c.room ∧
    (c.retain s a room version).nextToken = c.nextToken := by
  rw [retain]
  split <;> exact ⟨rfl, rfl, rfl, rfl, rfl⟩

theorem timerFires_cases (t : TimerId) (timer : Timer) :
    (c.timerFires t timer).sockets = c.sockets ∧
    (c.timerFires t timer).timers = c.timers ∧
    (c.timerFires t timer).room = c.room ∧
    (c.timerFires t timer).nextToken = c.nextToken ∧
    ((c.timerFires t timer).grace = c.grace ∨
      ∃ entry, c.grace.inner.get (timer.room, timer.participant, timer.token) = some entry ∧
        (c.timerFires t timer).grace = { c.grace with
          inner := c.grace.inner.erase
            (timer.room, timer.participant, timer.token) }) := by
  rw [timerFires]
  dsimp only
  rw [GracePeriodMap.removeIfTokenMatches]
  cases hget : c.grace.inner.get (timer.room, timer.participant, timer.token) with
  | none => exact ⟨rfl, rfl, rfl, rfl, Or.inl rfl⟩
  | some entry =>
    dsimp only
    by_cases hsubject : entry.authenticatedSubject = timer.subject
    · rw [if_pos hsubject]
      exact ⟨rfl, rfl, rfl, rfl, Or.inr ⟨entry, rfl, rfl⟩⟩
    · rw [if_neg hsubject]
      exact ⟨rfl, rfl, rfl, rfl, Or.inl rfl⟩

theorem lookUpRemoval_rest (job : ℕ) (removal : Removal) :
    (c.lookUpRemoval job removal).sockets = c.sockets ∧
    (c.lookUpRemoval job removal).grace = c.grace ∧
    (c.lookUpRemoval job removal).timers = c.timers ∧
    (c.lookUpRemoval job removal).room = c.room ∧
    (c.lookUpRemoval job removal).nextToken = c.nextToken := by
  rw [lookUpRemoval]
  cases c.rooms removal.room with
  | none | some => exact ⟨rfl, rfl, rfl, rfl, rfl⟩

end Frame

theorem Steps.socketsAdvance (h : Steps c action d) : SocketsAdvance c d := by
  cases h with
  | connect => exact .push rfl rfl rfl
  | join room hget hpoint =>
    refine .set hget (by simp [hpoint]) (join_sockets _ _ _ _) (Or.inr ⟨rfl, ?_⟩)
    exact (join_rest _ _ _ _).2.2.2
  | reserve next hget hpoint => exact .set hget (by simp [hpoint]) rfl (Or.inl ⟨rfl, Nat.le_refl _⟩)
  | @replace s a room i hget hpoint =>
    obtain ⟨hsockets, -, -, -, hnext⟩ := replace_rest c s a room i
    exact .set hget (by simp [hpoint]) hsockets (Or.inl ⟨rfl, by omega⟩)
  | @commit s a room i waits accepted hget hpoint =>
    obtain ⟨⟨currentRoom, inLobby, hsockets⟩, -, -, hnext, -⟩ :=
      commit_cases c s a room i waits accepted
    exact .set hget (by simp [hpoint]) hsockets (Or.inl ⟨rfl, by omega⟩)
  | @leave s a hget hpoint =>
    obtain ⟨hsockets, -, -, -, hnext⟩ := leave_cases c s a
    rcases hsockets with hsame | hset
    · exact .same hsame (by omega)
    · exact .set hget (by simp [hpoint]) hset (Or.inl ⟨rfl, by omega⟩)
  | @reconnect s a room participant token hget hpoint =>
    rcases reconnect_cases c s a room participant token with heq | ⟨e, -, -, heq⟩
    · rw [heq]
      exact .same rfl (Nat.le_refl _)
    · rw [heq]
      exact .set hget (by simp [hpoint]) rfl (Or.inl ⟨rfl, Nat.le_refl _⟩)
  | @lookUpRebind s a entry presented hget hpoint =>
    rcases lookUpRebind_cases c s a entry presented with heq | ⟨i, heq⟩
    all_goals
      rw [heq]
      exact .set hget (by simp [hpoint]) rfl (Or.inl ⟨rfl, Nat.le_refl _⟩)
  | @finishRebind s a entry presented i queued hget hpoint =>
    rcases finishRebind_cases c s a entry i queued with heq | ⟨m, -, -, -, heq⟩
    · rw [heq]
      exact .set hget (by simp [hpoint]) rfl (Or.inl ⟨rfl, Nat.le_refl _⟩)
    rw [heq]
    refine .set hget (by simp [hpoint]) rfl ?_
    cases queued with
    | true => exact Or.inr ⟨rfl, rfl⟩
    | false => exact Or.inl ⟨rfl, Nat.le_succ _⟩
  | hangUp invalidated hget hpoint =>
    exact .set hget (by simp [hpoint]) rfl (Or.inl ⟨rfl, Nat.le_refl _⟩)
  | @disconnect s a invalidated hget hpoint =>
    obtain ⟨⟨point, -, hsockets⟩, -, -, -, hnext⟩ := disconnect_cases c s a invalidated
    exact .set hget (by simp [hpoint]) hsockets (Or.inl ⟨rfl, by omega⟩)
  | @retain s a room version hget hpoint =>
    obtain ⟨hsockets, -, -, -, hnext⟩ := retain_eq c s a room version
    exact .set hget (by simp [hpoint]) hsockets (Or.inl ⟨rfl, by omega⟩)
  | @timerFires t timer =>
    obtain ⟨hsockets, -, -, hnext, -⟩ := timerFires_cases c t timer
    exact .same hsockets (by omega)
  | @lookUpRemoval job removal =>
    obtain ⟨hsockets, -, -, -, hnext⟩ := lookUpRemoval_rest c job removal
    exact .same hsockets (by omega)
  | writerEnds | admission =>
    exact .modify rfl (fun _ => rfl) (fun _ => rfl) (Nat.le_refl _)
  | _ => exact .same rfl (Nat.le_refl _)

/-! ## The map and the rooms -/

inductive MapChange (c d : System) : Action → Prop where
  | same (action : Action) (grace : d.grace = c.grace) : MapChange c d action
  | inserted {s : SenderId} {a : Socket} {room : RoomId} {version : Int}
      (get : c.sockets[s]? = some a) (point : a.point = .retaining room)
      (grace : d.grace = (c.grace.insert (c.entryOf s a room version)).2)
      (timers : d.timers = c.timers ++ [System.timerOf s a room]) :
      MapChange c d (.retain s version)
  | reconnected {s : SenderId} {a : Socket} {room : RoomId}
      {participant : ParticipantId} {token : ReconnectToken} {entry : GraceEntry}
      (get : c.sockets[s]? = some a)
      (taken : c.grace.inner.get (room, participant, token) = some entry)
      (subject : entry.authenticatedSubject = a.subject)
      (grace : d.grace = { c.grace with
        inner := c.grace.inner.erase (room, participant, token) }) :
      MapChange c d (.reconnect s room participant token)
  | fired {t : TimerId} {timer : Timer} {entry : GraceEntry}
      (get : c.timers[t]? = some timer)
      (taken : c.grace.inner.get (timer.room, timer.participant, timer.token) = some entry)
      (grace : d.grace = { c.grace with
        inner := c.grace.inner.erase
          (timer.room, timer.participant, timer.token) }) :
      MapChange c d (.timerFires t)
  | revoked (userId : ParticipantId) (minimumVersion : Int)
      (grace : d.grace = (c.grace.takeRevoked userId minimumVersion).2) :
      MapChange c d (.revoke userId minimumVersion)
  | closed (grace : d.grace = c.grace.close) : MapChange c d .closeMap

theorem Steps.mapChange (h : Steps c action d) : MapChange c d action := by
  cases h with
  | join => exact .same _ (join_rest _ _ _ _).1
  | replace => exact .same _ (replace_rest _ _ _ _ _).2.1
  | commit => exact .same _ (commit_cases _ _ _ _ _ _ _).2.1
  | leave => exact .same _ (leave_cases _ _ _).2.1
  | @reconnect s a room participant token hget =>
    rcases reconnect_cases c s a room participant token with
      heq | ⟨entry, htaken, hsubject, heq⟩
    · rw [heq]
      exact .same _ rfl
    · rw [heq]
      exact .reconnected hget htaken hsubject rfl
  | lookUpRebind => exact .same _ (lookUpRebind_rest _ _ _ _ _).1
  | finishRebind => exact .same _ (finishRebind_rest _ _ _ _ _ _).1
  | disconnect => exact .same _ (disconnect_cases _ _ _ _).2.1
  | @retain s a room version hget hpoint =>
    obtain ⟨-, hgrace, htimers, -, -⟩ := retain_eq c s a room version
    exact .inserted hget hpoint hgrace htimers
  | @timerFires t timer hget =>
    obtain ⟨-, -, -, -, hsame | ⟨entry, htaken, hgrace⟩⟩ := timerFires_cases c t timer
    · exact .same _ hsame
    · exact .fired hget htaken hgrace
  | revoke userId minimumVersion => exact .revoked userId minimumVersion rfl
  | closeMap => exact .closed rfl
  | lookUpRemoval => exact .same _ (lookUpRemoval_rest _ _ _).2.1
  | _ => exact .same _ rfl

/-- What a step can do to the members of an incarnation. -/
inductive RoomChange (c d : System) (i : Incarnation) : Action → Prop where
  | same (action : Action) (room : d.room i = c.room i) : RoomChange c d i action
  | committed {s : SenderId} {a : Socket} {waits accepted : Bool}
      (absent : (c.room i).participants.contains a.participant = false ∧
        (c.room i).lobby.contains a.participant = false)
      (room : d.room i =
        if waits then { c.room i with lobby := (c.room i).lobby.insert (a.member s) }
        else { c.room i with
          participants := (c.room i).participants.insert (a.member s) }) :
      RoomChange c d i (.commit s waits accepted)
  | rebound {s : SenderId} {a : Socket} {entry : GraceEntry}
      {presented : ReconnectToken} {queued : Bool} {member : Member}
      (get : c.sockets[s]? = some a)
      (point : a.point = .rebinding entry presented (some i))
      (found : (c.room i).participants.get entry.participant = some member)
      (sender : member.sender = entry.sender)
      (identity : member.identityMatches a.subject = true)
      (room : d.room i = { c.room i with
        participants := (c.room i).participants.update entry.participant
          (fun m => { m with sender := s }) fun _ => rfl }) :
      RoomChange c d i (.finishRebind s queued)
  | removed {job : ℕ} {removal : Removal} (get : c.removals[job]? = some removal)
      (room : d.room i = (c.room i).removeForSender removal.participant removal.sender) :
      RoomChange c d i (.remove job)
  | closed {room : RoomId}
      (room_eq : d.room i = { GraceRoom.fresh with live := false }) :
      RoomChange c d i (.closeRoom room)
  | admitted {id : ParticipantId} {member : Member}
      (found : (c.room i).lobby.get id = some member)
      (room : d.room i = { c.room i with
        lobby := (c.room i).lobby.erase member.id
        participants := (c.room i).participants.insert member }) :
      RoomChange c d i (.admission i id)
  | expelled (id : ParticipantId)
      (room : d.room i = { c.room i with
        lobby := (c.room i).lobby.erase id
        participants := (c.room i).participants.erase id }) :
      RoomChange c d i (.expel i id)

theorem RoomChange.update {i j : Incarnation} {room : GraceRoom}
    (hroom : d.room = Function.update c.room i room)
    (h : j = i → d.room j = room → RoomChange c d j action) : RoomChange c d j action := by
  by_cases hij : j = i
  · exact h hij (by rw [hroom, hij, Function.update_self])
  · exact .same _ (by rw [hroom, Function.update_of_ne hij])

theorem Steps.roomChange (h : Steps c action d) (j : Incarnation) : RoomChange c d j action := by
  cases h with
  | join => exact .same _ (congrFun (join_rest _ _ _ _).2.2.1 j)
  | replace => exact .same _ (congrFun (replace_rest _ _ _ _ _).2.2.2.1 j)
  | @commit s a room i waits accepted =>
    obtain ⟨-, -, -, -, hsame | ⟨hparticipants, hlobby, hroom⟩⟩ :=
      commit_cases c s a room i waits accepted
    · exact .same _ (congrFun hsame j)
    refine .update hroom ?_
    rintro rfl
    exact .committed ⟨hparticipants, hlobby⟩
  | leave => exact .same _ (congrFun (leave_cases _ _ _).2.2.2.1 j)
  | @reconnect s a room participant token =>
    rcases reconnect_cases c s a room participant token with heq | ⟨e, -, -, heq⟩
    all_goals
      rw [heq]
      exact .same _ rfl
  | lookUpRebind => exact .same _ (congrFun (lookUpRebind_rest _ _ _ _ _).2.2 j)
  | @finishRebind s a entry presented i queued hget hpoint =>
    rcases finishRebind_cases c s a entry i queued with
      heq | ⟨m, hfound, hsender, hidentity, heq⟩
    · rw [heq]
      exact .same _ rfl
    rw [heq]
    refine .update rfl ?_
    rintro rfl
    exact .rebound hget hpoint hfound hsender hidentity
  | disconnect => exact .same _ (congrFun (disconnect_cases _ _ _ _).2.2.2.1 j)
  | retain => exact .same _ (congrFun (retain_eq _ _ _ _ _).2.2.2.1 j)
  | timerFires => exact .same _ (congrFun (timerFires_cases _ _ _).2.2.1 j)
  | lookUpRemoval => exact .same _ (congrFun (lookUpRemoval_rest _ _ _).2.2.2.1 j)
  | remove hget =>
    refine .update rfl ?_
    rintro rfl
    exact .removed hget
  | closeRoom => exact .update rfl fun _ => .closed
  | admission hget =>
    refine .update rfl ?_
    rintro rfl
    exact .admitted hget
  | expel i id =>
    refine .update rfl ?_
    rintro rfl
    exact .expelled id
  | _ => exact .same _ rfl

theorem Steps.timersChange (h : Steps c action d) : d.timers = c.timers ∨
      ∃ (s : SenderId) (a : Socket) (room : RoomId) (version : Int),
        action = .retain s version ∧ c.sockets[s]? = some a ∧
        a.point = .retaining room ∧ d.timers = c.timers ++ [System.timerOf s a room] ∧
        d.sockets = c.sockets.set s { a with point := .closed } := by
  cases h with
  | join => exact Or.inl (join_rest _ _ _ _).2.1
  | replace => exact Or.inl (replace_rest _ _ _ _ _).2.2.1
  | commit => exact Or.inl (commit_cases _ _ _ _ _ _ _).2.2.1
  | leave => exact Or.inl (leave_cases _ _ _).2.2.1
  | @reconnect s a room participant token =>
    rcases reconnect_cases c s a room participant token with heq | ⟨e, -, -, heq⟩
    all_goals
      rw [heq]
      exact Or.inl rfl
  | lookUpRebind => exact Or.inl (lookUpRebind_rest _ _ _ _ _).2.1
  | finishRebind => exact Or.inl (finishRebind_rest _ _ _ _ _ _).2
  | disconnect => exact Or.inl (disconnect_cases _ _ _ _).2.2.1
  | @retain s a room version hget hpoint =>
    obtain ⟨hsockets, -, htimers, -, -⟩ := retain_eq c s a room version
    exact Or.inr ⟨s, a, room, version, rfl, hget, hpoint, htimers, hsockets⟩
  | timerFires => exact Or.inl (timerFires_cases _ _ _).2.1
  | lookUpRemoval => exact Or.inl (lookUpRemoval_rest _ _ _).2.2.1
  | _ => exact Or.inl rfl

theorem point_of_set {s t : ℕ} {a b : Socket} {sockets : List Socket}
    (hb : (sockets.set s a)[t]? = some b) : sockets[t]? = some b ∨ s = t ∧ b = a := by
  by_cases hst : s = t
  · subst hst
    right
    by_cases hlt : s < sockets.length
    · rw [getElem?_set_self hlt] at hb
      exact ⟨rfl, (Option.some.inj hb).symm⟩
    · rw [getElem?_eq_none (by simpa using hlt)] at hb
      cases hb
  · left
    rw [getElem?_set_ne hst] at hb
    exact hb

theorem Steps.rebinding (h : Steps c action d) {s : ℕ} {b : Socket} {e : GraceEntry}
    {presented : ReconnectToken} {i : Option Incarnation}
    (hb : d.sockets[s]? = some b) (hpoint : b.point = .rebinding e presented i) :
    (∃ (a : Socket) (j : Option Incarnation), c.sockets[s]? = some a ∧
      a.point = .rebinding e presented j ∧ a.subject = b.subject) ∨
    e ∈ c.grace.inner ∧ e.reconnectToken = presented ∧ e.authenticatedSubject = b.subject := by
  -- a socket the step has left alone
  have hold : c.sockets[s]? = some b →
      (∃ (a : Socket) (j : Option Incarnation), c.sockets[s]? = some a ∧
        a.point = .rebinding e presented j ∧ a.subject = b.subject) ∨
      e ∈ c.grace.inner ∧ e.reconnectToken = presented ∧ e.authenticatedSubject = b.subject :=
    fun hget => Or.inl ⟨b, i, hget, hpoint, rfl⟩
  -- a socket the step has set to a point where nothing is rebound
  have hset : ∀ {t : ℕ} {a : Socket}, (∀ e p i, a.point ≠ .rebinding e p i) →
      (c.sockets.set t a)[s]? = some b →
      (∃ (a : Socket) (j : Option Incarnation), c.sockets[s]? = some a ∧
        a.point = .rebinding e presented j ∧ a.subject = b.subject) ∨
      e ∈ c.grace.inner ∧ e.reconnectToken = presented ∧ e.authenticatedSubject = b.subject := by
    intro t a hidle hset
    rcases point_of_set hset with hget | ⟨-, rfl⟩
    · exact hold hget
    · exact absurd hpoint (hidle _ _ _)
  -- a socket of which the step has changed neither the point nor the subject
  have hmodify : ∀ {t : ℕ} {f : Socket → Socket}, (c.sockets.modify t f)[s]? = some b →
      (∀ a, (f a).point = a.point) → (∀ a, (f a).subject = a.subject) →
      (∃ (a : Socket) (j : Option Incarnation), c.sockets[s]? = some a ∧
        a.point = .rebinding e presented j ∧ a.subject = b.subject) ∨
      e ∈ c.grace.inner ∧ e.reconnectToken = presented ∧ e.authenticatedSubject = b.subject := by
    intro t f hget hkeeps hsubject
    rw [List.getElem?_modify, Option.map_eq_map, map_eq_some_iff] at hget
    obtain ⟨a, ha, rfl⟩ := hget
    left
    by_cases hts : t = s
    · rw [if_pos hts] at hpoint ⊢
      exact ⟨a, i, ha, hkeeps a ▸ hpoint, (hsubject a).symm⟩
    · rw [if_neg hts] at hpoint ⊢
      exact ⟨a, i, ha, hpoint, rfl⟩
  cases h with
  | connect =>
    rw [System.connect, List.getElem?_append] at hb
    by_cases hlt : s < c.sockets.length
    · rw [if_pos hlt] at hb
      exact hold hb
    rw [if_neg hlt] at hb
    have hnew := mem_singleton.mp (mem_of_getElem? hb)
    rw [hnew] at hpoint
    cases hpoint
  | join room => exact hset (by simp) (join_sockets c _ _ room ▸ hb)
  | reserve next hget hjoining hnext =>
    refine hset ?_ hb
    rcases hnext with rfl | ⟨i, rfl⟩ <;> simp
  | @replace s' a room i' => exact hset (by simp) ((replace_rest c s' a room i').1 ▸ hb)
  | @commit s' a room i' waits accepted =>
    obtain ⟨⟨currentRoom, inLobby, hsockets⟩, -⟩ := commit_cases c s' a room i' waits accepted
    exact hset (by simp) (hsockets ▸ hb)
  | @leave s' a hget hready =>
    rcases (leave_cases c s' a).1 with hsockets | hsockets
    · exact hold (hsockets ▸ hb)
    · exact hset (by simp [hready]) (hsockets ▸ hb)
  | @reconnect s' a room participant token =>
    rcases reconnect_cases c s' a room participant token with
      heq | ⟨entry, htaken, hsubject, heq⟩
    · rw [heq] at hb
      exact hold hb
    rw [heq] at hb
    rcases point_of_set hb with hget' | ⟨-, rfl⟩
    · exact hold hget'
    obtain ⟨rfl, rfl, -⟩ : entry = e ∧ token = presented ∧ none = i := by simpa using hpoint
    obtain ⟨hmem, hkey⟩ := Roster.get_eq_some.mp htaken
    refine Or.inr ⟨hmem, ?_, hsubject⟩
    exact congrArg (fun key => key.2.2) hkey
  | @lookUpRebind s' a entry presented' hget hrebinding =>
    rcases lookUpRebind_cases c s' a entry presented' with heq | ⟨i', heq⟩
    · rw [heq] at hb
      exact hset (by simp) hb
    rw [heq] at hb
    rcases point_of_set hb with hget' | ⟨rfl, rfl⟩
    · exact hold hget'
    obtain ⟨rfl, rfl, -⟩ : entry = e ∧ presented' = presented ∧ some i' = i := by
      simpa using hpoint
    exact Or.inl ⟨a, none, hget, hrebinding, rfl⟩
  | @finishRebind s' a entry presented' i' queued =>
    rcases finishRebind_cases c s' a entry i' queued with heq | ⟨m, -, -, -, heq⟩
    all_goals
      rw [heq] at hb
      exact hset (by simp) hb
  | hangUp => exact hset (by simp) hb
  | @disconnect s' a invalidated =>
    obtain ⟨⟨point, hne, hsockets⟩, -⟩ := disconnect_cases c s' a invalidated
    exact hset hne (hsockets ▸ hb)
  | @retain s' a room version => exact hset (by simp) ((retain_eq c s' a room version).1 ▸ hb)
  | @timerFires t timer => exact hold ((timerFires_cases c t timer).1 ▸ hb)
  | @lookUpRemoval job removal => exact hold ((lookUpRemoval_rest c job removal).1 ▸ hb)
  | writerEnds | admission => exact hmodify hb (fun _ => rfl) fun _ => rfl
  | _ => exact hold hb

end SimplestChat.Grace
