import SimplestChat.Policy.People

/-!
# Capacity

A participant is inserted by the commit of a join, which checks for space in the
same turn, or by the second turn of an admission, which does not check again.
Between the two turns the admission holds the room's control, and nothing that
inserts a participant or changes the limit runs without control.
-/

namespace SimplestChat.Policy

namespace Room

/-- The smaller of the room's limit and the deployment's ceiling. -/
def participantLimit (room : Room) (maxParticipantsPerRoom : Option ℕ) : Option ℕ :=
  match room.settings.bind (·.maxParticipants), maxParticipantsPerRoom with
  | some own, some ceiling => some (min own ceiling)
  | own, ceiling => own.or ceiling

variable {room : Room} {ceiling : Option ℕ}

theorem lt_participantLimit (h : room.isFull ceiling = false) {limit : ℕ}
    (hlimit : room.participantLimit ceiling = some limit) :
    room.participants.entries.length < limit := by
  unfold isFull at h
  unfold participantLimit at hlimit
  rw [Bool.or_eq_false_iff] at h
  obtain ⟨hown, hceiling⟩ := h
  cases hsettings : room.settings.bind (·.maxParticipants) with
  | none =>
    cases ceiling with
    | none =>
      rw [hsettings] at hlimit
      cases hlimit
    | some =>
      rw [hsettings] at hlimit
      cases hlimit
      simpa using hceiling
  | some own =>
    have hlt : room.participants.entries.length < own := by
      rw [hsettings] at hown
      simp only [Option.any_some, Bool.or_eq_false_iff, decide_eq_false_iff_not] at hown
      omega
    cases ceiling with
    | none =>
      rw [hsettings] at hlimit
      cases hlimit
      exact hlt
    | some maximum =>
      rw [hsettings] at hlimit
      cases hlimit
      have hbelow : room.participants.entries.length < maximum := by simpa using hceiling
      exact Nat.lt_min.mpr ⟨hlt, hbelow⟩

theorem isFull_idle (room : Room) (ceiling : Option ℕ) :
    room.idle.isFull ceiling = room.isFull ceiling := by
  unfold isFull idle Roster.map
  simp only [List.length_map]

/-! ## What the checks of a join establish -/

theorem joinRefusal_eq_none {request : JoinRequest} (h : room.joinRefusal ceiling request = none) :
    room.isFull ceiling = false ∧ room.lobby.entries.length < 1000 := by
  unfold joinRefusal at h
  split at h
  · cases h
  split at h
  · cases h
  split at h
  · cases h
  split at h
  · cases h
  split at h
  · cases h
  split at h
  · cases h
  · rename_i hfull hlobby
    exact ⟨by simpa using hfull, by omega⟩

/-! ## The length of the lobby -/

theorem NoNewcomers.lobby_length_le {before after : Room} (h : NoNewcomers before after) :
    after.lobby.entries.length ≤ before.lobby.entries.length := by
  refine Roster.length_le_of_keys fun e he => ?_
  obtain ⟨e', he', hsame⟩ := h.lobby e he
  exact ⟨e', he', hsame.1⟩

theorem lobby_length_place_le (room : Room) (request : JoinRequest)
    (session : MediaSession) (placement : Placement) :
    (room.place request session placement).lobby.entries.length ≤
      room.lobby.entries.length + 1 := by
  by_cases hlobbied : placement.lobbied = true
  · rw [room.place_lobbied hlobbied]
    exact Roster.length_insert_le _ _
  · rw [room.place_inside hlobbied]
    exact Nat.le_succ _

theorem NoNewcomers.contains {before after : Room} (h : NoNewcomers before after)
    {p : Participant} (hp : p ∈ after.participants) :
    before.participants.contains p.id = true := by
  obtain ⟨e, he, hsame⟩ := h.members p.toLobbyEntry (mem_members.mpr ⟨p, hp, rfl⟩)
  obtain ⟨q, hq, rfl⟩ := mem_members.mp he
  exact Roster.contains_iff.mpr ⟨q, hq, hsame.1⟩

end Room

/-! ## The admission's two turns -/

theorem Effect.admitting {c d : System} {action : Action} (h : Effect c action d)
    {target : ParticipantId} (hheld : d.control = some (.admitting target)) :
    (c.control = some (.admitting target) ∧ d.room.idle = c.room.idle ∧
        d.maxParticipantsPerRoom = c.maxParticipantsPerRoom) ∨
      ∃ requester, action = .member (.startAdmission requester target) ∧
        d.room = c.room.pruneExpiredBans c.now ∧
        d.maxParticipantsPerRoom = c.maxParticipantsPerRoom := by
  cases h with
  | ticked | joinStarted | joinAdvanced | joinAbandoned | inviteRedeemed =>
    exact .inl ⟨hheld, rfl, rfl⟩
  | streamed hstep =>
    obtain ⟨hidle, hframe⟩ := System.streamStep_frame hstep
    rw [hframe] at hheld
    exact .inl ⟨hheld, hidle, by rw [hframe]⟩
  | admissionStarted =>
    cases hheld
    exact .inr ⟨_, rfl, rfl, rfl⟩
  | planned hcontrol hplan hwork =>
    -- A planned operation holds the control to save or to publish.
    obtain ⟨-, rfl⟩ | ⟨-, -, rfl⟩ := hwork <;> cases hheld
  | joinCommitted _ hcontrol | left hcontrol | rebound hcontrol
  | admissionRefused hcontrol | denied hcontrol | refused hcontrol
  | changedAtOnce hcontrol | bansListed hcontrol | closedForRejoin hcontrol
  | evicted hcontrol | reopened hcontrol => exact absurd hheld (by simp [hcontrol])
  | _ => cases hheld

namespace System

variable {c d : System}

theorem startAdmission_space {requester : Requester}
    {target : ParticipantId} (h : c.startAdmission requester target = some d) :
    c.room.isFull c.maxParticipantsPerRoom = false := by
  unfold startAdmission at h
  split at h
  · obtain ⟨⟨-, -, -, hspace⟩, -⟩ := Option.ite_none_right_eq_some.mp h
    exact hspace
  · cases h

structure Spacious (c : System) : Prop where
  space : ∀ target, c.control = some (.admitting target) →
    c.room.isFull c.maxParticipantsPerRoom = false
  lobby : c.room.lobby.entries.length ≤ 1000

theorem Initial.spacious (h : c.Initial) : c.Spacious where
  space := by
    intro target hheld
    rw [h.control] at hheld
    cases hheld
  lobby := by
    obtain ⟨id, ceiling, hroom⟩ := h.room
    rw [hroom]
    exact Nat.zero_le _

theorem Spacious.step (hc : c.Spacious) {action : Action}
    (h : c.step action = some d) : d.Spacious where
  space := by
    intro target hheld
    obtain ⟨hbefore, hidle, hmaximum⟩ | ⟨requester, rfl, hroom, hmaximum⟩ :=
      (step_effect h).admitting hheld
    · have hsame := Room.eq_of_idle (fun room => room.isFull c.maxParticipantsPerRoom)
        (fun room => room.isFull_idle _) hidle
      rw [hmaximum]
      exact hsame.trans (hc.space target hbefore)
    · rw [hmaximum, hroom]
      exact startAdmission_space h
  lobby := by
    have hlobby := hc.lobby
    obtain hnone | ⟨target, entry, -, -, -, hroom⟩ |
      ⟨join, role, punitive, placement, -, -, -, -, hentered⟩ := (step_effect h).arrivals
    · exact hnone.lobby_length_le.trans hlobby
    · rw [hroom]
      exact (List.length_filter_le _ _).trans hlobby
    · have hshort : c.room.lobby.entries.length < 1000 :=
        (Room.joinRefusal_eq_none (Room.decideJoin_absent hentered.decided).1).2
      have hplace : d.room.lobby.entries.length ≤ c.room.lobby.entries.length + 1 := by
        rw [hentered.room]
        exact Room.lobby_length_place_le _ _ _ _
      omega

theorem Spacious.arrival (hc : c.Spacious) {action : Action}
    (h : c.step action = some d) {p : Participant} (hp : p ∈ d.room.participants)
    (hnew : c.room.participants.contains p.id = false) :
    c.room.isFull c.maxParticipantsPerRoom = false := by
  obtain hnone | ⟨target, entry, hheld, -, -, -⟩ |
    ⟨join, role, punitive, placement, -, -, -, -, hentered⟩ := (step_effect h).arrivals
  · rw [hnone.contains hp] at hnew
    cases hnew
  · exact hc.space target hheld
  · exact (Room.joinRefusal_eq_none (Room.decideJoin_absent hentered.decided).1).1

/-- In every run of joins, admissions, leaves, settings changes and removals, the
lobby holds at most 1000 entries and a participant is inserted only while the
room is below the smaller of its own limit and the deployment's ceiling. -/
theorem insertions_within_limit {c d : System} {actions : List Action}
    (hinit : c.Initial) (hrun : c.run actions = some d) :
    d.room.lobby.entries.length ≤ 1000 ∧
      ∀ action e, d.step action = some e → ∀ p ∈ e.room.participants,
        d.room.participants.contains p.id = false →
        ∀ limit, d.room.participantLimit d.maxParticipantsPerRoom = some limit →
          d.room.participants.entries.length < limit := by
  have hkeeps : ∀ (x : System) a y, x.Spacious → x.step a = some y → y.Spacious :=
    fun _ _ _ hx hstep => hx.step hstep
  have hd := Transition.run_kept hkeeps hinit.spacious hrun
  refine ⟨hd.lobby, ?_⟩
  intro action e hstep p hp hnew limit hlimit
  exact Room.lt_participantLimit (hd.arrival hstep hp hnew) hlimit

def pairRoom : Saved := { Saved.lounge with
    settings :=
      { Saved.lounge.settings with lobbyEnabled := true, maxParticipants := some 2 } }

def admissionUnderWay : List Action :=
  Join.enters ⟨1, 1, true, none, none⟩ (opened pairRoom).room.snapshot
      (some .owner) {} ++
    Join.enters ⟨10, 2, false, some (.v4 5), none⟩ (opened pairRoom).room.snapshot
      (some .guest) {} ++
    [.member (.startAdmission (.socket 1 1) 10)]

theorem admissionUnderWay_within_limit : ∃ d e, run (opened pairRoom) admissionUnderWay = some d ∧
      d.step (.member .finishAdmission) = some e ∧
      e.room.participants.contains 10 = true ∧
      d.room.participantLimit d.maxParticipantsPerRoom = some 2 ∧
      d.room.participants.entries.length < 2 := by
  have h : ((run (opened pairRoom) admissionUnderWay).any fun d =>
      !d.room.participants.contains 10 &&
        d.room.participantLimit d.maxParticipantsPerRoom = some 2 &&
        (d.step (.member .finishAdmission)).any fun e =>
          e.room.participants.contains 10) = true := by
    decide +kernel
  obtain ⟨d, hrun, hd⟩ := (Option.any_eq_true _ _).mp h
  simp only [Bool.and_eq_true, Bool.not_eq_true', decide_eq_true_eq] at hd
  obtain ⟨⟨hnew, hlimit⟩, hstep⟩ := hd
  obtain ⟨e, he, hinside⟩ := (Option.any_eq_true _ _).mp hstep
  obtain ⟨p, hp, hid⟩ := Roster.contains_iff.mp hinside
  have hwithin := (insertions_within_limit (opened_initial pairRoom) hrun).2
  exact ⟨d, e, hrun, he, hinside, hlimit, hwithin _ e he p hp (by rw [hid]; exact hnew) 2 hlimit⟩

end System

end SimplestChat.Policy
