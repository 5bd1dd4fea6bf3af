import SimplestChat.Support.Runs

/-!
# Following the speaker

The view turns to a speaker who has settled, and keeps them for a while. Times are in
milliseconds; a delay is waited for as it was asked for, without the browser's rounding.
-/

namespace SimplestChat.Client

open List Transition

structure FollowTimer where
  handle : ℕ
  participantId : String
  due : ℚ
deriving DecidableEq

/-- The fields of the class, with the clock and the timers that the browser keeps for it. A
focus that never changed was changed at `none`, which is `-Infinity`. -/
structure SpeakerFollow where
  focused : Option String := none
  candidate : Option String := none
  changedAt : Option ℚ := none
  timer : Option ℕ := none
  now : ℚ := 0
  pending : List FollowTimer := []
  handles : ℕ := 0
deriving DecidableEq

/-- What happens to the follower: its methods are called, a timer fires, time passes. -/
inductive FollowAct
  | note (participantId : Option String)
  | forget (participantId : String)
  | reset
  | fire (timer : FollowTimer)
  | wait (time : ℚ)

namespace SpeakerFollow

/-- `clearTimeout` takes the timer of the handle off the browser's list. -/
def cancelPending (s : SpeakerFollow) : SpeakerFollow :=
  { s with
    pending := s.pending.filter fun t => s.timer ≠ some t.handle
    timer := none
    candidate := none }

def settleDelay (s : SpeakerFollow) : ℚ :=
  s.changedAt.elim 1500 fun changedAt => max 1500 (changedAt + 5000 - s.now)

def note (s : SpeakerFollow) (participantId : Option String) : SpeakerFollow :=
  if participantId ≠ none ∧ participantId = s.candidate then s
  else
    match participantId with
    | none => s.cancelPending
    | some p =>
      if s.focused = some p then s.cancelPending
      else
        { s.cancelPending with
          candidate := some p
          timer := some s.handles
          handles := s.handles + 1
          pending := s.cancelPending.pending ++ [⟨s.handles, p, s.now + s.settleDelay⟩] }

def reset (s : SpeakerFollow) : SpeakerFollow :=
  { s.cancelPending with changedAt := none, focused := none }

def forget (s : SpeakerFollow) (participantId : String) : SpeakerFollow :=
  if s.focused = some participantId then s.reset
  else if s.candidate = some participantId then s.cancelPending
  else s

/-- A timer fires when it is due or later. -/
def step (s : SpeakerFollow) : FollowAct → Option SpeakerFollow
  | .note participantId => some (s.note participantId)
  | .forget participantId => some (s.forget participantId)
  | .reset => some s.reset
  | .fire timer =>
    if timer ∈ s.pending ∧ timer.due ≤ s.now then
      some { s with
        pending := s.pending.erase timer
        timer := none
        candidate := none
        focused := some timer.participantId
        changedAt := some s.now }
    else none
  | .wait time => if 0 ≤ time then some { s with now := s.now + time } else none

end SpeakerFollow

namespace FollowAct

def time : FollowAct → ℚ
  | wait time => time
  | _ => 0

/-- Neither withdraws the candidate nor names another. -/
def Leaves (p : String) : FollowAct → Prop
  | note participantId => participantId = some p
  | forget participantId => participantId ≠ p
  | wait _ => True
  | reset | fire _ => False

/-- Neither `forget` nor `reset`. -/
def KeepsFocus : FollowAct → Prop
  | forget _ | reset => False
  | _ => True

end FollowAct

/-- The time that passes in a history. -/
def elapsed (history : List FollowAct) : ℚ := (history.map FollowAct.time).sum

namespace SpeakerFollow

variable {s t : SpeakerFollow} {a : FollowAct} {history : List FollowAct}

/-- The candidate `p` was noted after `before` and has been the candidate ever since. -/
structure CandidateSince (before : List FollowAct) (p : String) (during : List FollowAct) :
    Prop where
  leaves : ∀ a ∈ during, a.Leaves p
  candidate : ∀ part, part <+: during →
    ∃ s, run step {} (before ++ .note (some p) :: part) = some s ∧ s.candidate = some p

/-- The state after `history`. -/
structure Settles (history : List FollowAct) (s : SpeakerFollow) : Prop where
  reached : run step {} history = some s
  now : s.now = elapsed history
  timers : s.pending.map FollowTimer.handle = s.timer.toList
  candidates : s.pending.map FollowTimer.participantId = s.candidate.toList
  noted : ∀ t ∈ s.pending, ∃ before during,
    history = before ++ .note (some t.participantId) :: during ∧
    CandidateSince before t.participantId during ∧ elapsed before + 1500 ≤ t.due
  due : ∀ t ∈ s.pending, ∀ c, s.changedAt = some c → c + 5000 ≤ t.due
  past : ∀ c, s.changedAt = some c → c ≤ s.now
  changed : ∀ before timer between, history = before ++ .fire timer :: between →
    (∀ a ∈ between, a.KeepsFocus) → ∃ c, s.changedAt = some c ∧ elapsed before ≤ c

theorem Settles.timer_eq (h : Settles history s) {timer : FollowTimer} (ht : timer ∈ s.pending) :
    s.timer = some timer.handle := by
  have hhandle := mem_map_of_mem (f := FollowTimer.handle) ht
  rwa [h.timers, Option.mem_toList] at hhandle

theorem Settles.candidate_eq (h : Settles history s) {timer : FollowTimer}
    (ht : timer ∈ s.pending) : s.candidate = some timer.participantId := by
  have hid := mem_map_of_mem (f := FollowTimer.participantId) ht
  rwa [h.candidates, Option.mem_toList] at hid

theorem Settles.length_pending (h : Settles history s) : s.pending.length ≤ 1 := by
  rw [← length_map (f := FollowTimer.handle), h.timers]
  cases s.timer <;> simp

theorem Settles.cancelPending_pending (h : Settles history s) : s.cancelPending.pending = [] :=
  filter_eq_nil_iff.mpr fun _ ht => by simp [h.timer_eq ht]

/-- A step leaves the candidate, ends it, or names one. -/
theorem Settles.step_cases (h : Settles history s) (hstep : step s a = some t) :
    (t = { s with now := s.now + a.time } ∧ ∀ p, s.candidate = some p → a.Leaves p) ∨
    (t.timer = none ∧ t.candidate = none ∧ t.pending = []) ∨
    ∃ p, a = .note (some p) ∧ t = { s with
      candidate := some p
      timer := some s.handles
      handles := s.handles + 1
      pending := [⟨s.handles, p, s.now + s.settleDelay⟩] } := by
  have hcancel := h.cancelPending_pending
  cases a with
  | note participantId =>
    cases hstep
    unfold note
    split_ifs with hsame
    · refine .inl ⟨by simp [FollowAct.time], fun p hp => ?_⟩
      rw [FollowAct.Leaves, hsame.2, hp]
    · split
      · exact .inr (.inl ⟨rfl, rfl, hcancel⟩)
      · next p =>
        split_ifs with hfocused
        · exact .inr (.inl ⟨rfl, rfl, hcancel⟩)
        · exact .inr (.inr ⟨p, rfl, by rw [hcancel]; rfl⟩)
  | forget participantId =>
    cases hstep
    unfold forget
    split_ifs with hfocused hcandidate
    · exact .inr (.inl ⟨rfl, rfl, hcancel⟩)
    · exact .inr (.inl ⟨rfl, rfl, hcancel⟩)
    · refine .inl ⟨by simp [FollowAct.time], fun p hp heq => hcandidate ?_⟩
      rw [hp, heq]
  | reset =>
    cases hstep
    exact .inr (.inl ⟨rfl, rfl, hcancel⟩)
  | fire timer =>
    rw [step] at hstep
    split_ifs at hstep with hfire
    cases hstep
    refine .inr (.inl ⟨rfl, rfl, length_eq_zero_iff.mp ?_⟩)
    rw [length_erase_of_mem hfire.1]
    have hone := h.length_pending
    omega
  | wait time =>
    rw [step] at hstep
    split_ifs at hstep
    cases hstep
    exact .inl ⟨rfl, fun _ _ => trivial⟩

/-- A timer that fires sets the time of the change; otherwise only `forget` and `reset` do. -/
theorem step_changedAt (hstep : step s a = some t) :
    t.now = s.now + a.time ∧ 0 ≤ a.time ∧
    ((∃ timer ∈ s.pending, a = .fire timer ∧ timer.due ≤ s.now ∧ t.changedAt = some s.now ∧
        t.focused = some timer.participantId) ∨
      (∀ timer, a ≠ .fire timer) ∧ (t.focused = s.focused ∨ t.focused = none) ∧
        (t.changedAt = s.changedAt ∨ t.changedAt = none ∧ ¬ a.KeepsFocus)) := by
  cases a with
  | note participantId =>
    cases hstep
    unfold note
    split_ifs
    · simp [FollowAct.time]
    · split
      · simp [FollowAct.time, cancelPending]
      · split_ifs <;> simp [FollowAct.time, cancelPending]
  | forget participantId =>
    cases hstep
    unfold forget
    split_ifs <;> simp [FollowAct.time, FollowAct.KeepsFocus, reset, cancelPending]
  | reset =>
    cases hstep
    simp [FollowAct.time, FollowAct.KeepsFocus, reset, cancelPending]
  | fire timer =>
    rw [step] at hstep
    split_ifs at hstep with hfire
    cases hstep
    exact ⟨by simp [FollowAct.time], le_rfl, .inl ⟨timer, hfire.1, rfl, hfire.2, rfl, rfl⟩⟩
  | wait time =>
    rw [step] at hstep
    split_ifs at hstep with htime
    cases hstep
    exact ⟨rfl, htime, .inr ⟨by simp, .inl rfl, .inl rfl⟩⟩

theorem settleDelay_ge (s : SpeakerFollow) : 1500 ≤ s.settleDelay := by
  unfold settleDelay
  cases s.changedAt with
  | none => exact le_rfl
  | some c => exact le_max_left _ _

theorem settleDelay_after {c : ℚ} (hc : s.changedAt = some c) :
    c + 5000 ≤ s.now + s.settleDelay := by
  rw [settleDelay, hc, Option.elim_some]
  linarith [le_max_right 1500 (c + 5000 - s.now)]

theorem CandidateSince.concat {before during : List FollowAct} {p : String}
    (h : CandidateSince before p during) (hleaves : a.Leaves p)
    (hrun : run step {} (before ++ .note (some p) :: (during ++ [a])) = some t)
    (hcandidate : t.candidate = some p) : CandidateSince before p (during ++ [a]) := by
  refine ⟨fun b hb => ?_, fun part hpart => ?_⟩
  · rcases mem_append.mp hb with hb | hb
    · exact h.leaves b hb
    · rwa [mem_singleton.mp hb]
  · rcases prefix_concat_iff.mp hpart with rfl | hpart
    · exact ⟨t, hrun, hcandidate⟩
    · exact h.candidate part hpart

theorem Settles.step (h : Settles history s) (hstep : step s a = some t) :
    Settles (history ++ [a]) t := by
  have hreached : run SpeakerFollow.step {} (history ++ [a]) = some t :=
    run_trans h.reached (by simp [run, hstep])
  obtain ⟨hnow, htime, hchange⟩ := step_changedAt hstep
  have hpast : ∀ c, t.changedAt = some c → c ≤ s.now := by
    intro c hc
    rcases hchange with ⟨_, _, _, _, hset, _⟩ | ⟨_, _, hkept | ⟨hnone, _⟩⟩
    · rw [hset] at hc
      cases hc
      exact le_rfl
    · exact h.past c (hkept ▸ hc)
    · simp [hnone] at hc
  have hchanged : ∀ before timer between, history ++ [a] = before ++ .fire timer :: between →
      (∀ b ∈ between, b.KeepsFocus) → ∃ c, t.changedAt = some c ∧ elapsed before ≤ c := by
    intro before timer between heq hkeeps
    rcases eq_nil_or_concat' between with rfl | ⟨between, b, rfl⟩
    · obtain ⟨rfl, rfl⟩ : history = before ∧ a = .fire timer := by simpa using heq
      rcases hchange with ⟨_, _, _, _, hset, _⟩ | ⟨hother, _⟩
      · exact ⟨s.now, hset, h.now.ge⟩
      · exact absurd rfl (hother timer)
    · rw [← cons_append, ← append_assoc] at heq
      obtain ⟨hbefore, hab⟩ := append_inj' heq rfl
      cases hab
      obtain ⟨c, hc, hle⟩ := h.changed before timer between hbefore fun b hb =>
        hkeeps b (mem_append_left _ hb)
      rcases hchange with ⟨_, _, _, _, hset, _⟩ | ⟨_, _, hkept | ⟨_, hleft⟩⟩
      · exact ⟨s.now, hset, hle.trans (h.past c hc)⟩
      · exact ⟨c, hkept.trans hc, hle⟩
      · exact absurd (hkeeps _ (by simp)) hleft
  have hclock : t.now = elapsed (history ++ [a]) := by
    rw [hnow, h.now]
    simp [elapsed]
  have hlater : ∀ c, t.changedAt = some c → c ≤ t.now := fun c hc =>
    (hpast c hc).trans (by linarith)
  rcases h.step_cases hstep with ⟨rfl, hleaves⟩ | ⟨htimer, hcandidate, hpending⟩ | ⟨p, rfl, rfl⟩
  · refine ⟨hreached, hclock, h.timers, h.candidates, fun timer htimer => ?_, h.due, hlater, hchanged⟩
    obtain ⟨before, during, hhistory, hsince, hdue⟩ := h.noted timer htimer
    have hcandidate := h.candidate_eq htimer
    refine ⟨before, during ++ [a], by rw [hhistory]; simp, ?_, hdue⟩
    rw [hhistory, append_assoc, cons_append] at hreached
    exact hsince.concat (hleaves _ hcandidate) hreached hcandidate
  · exact ⟨hreached, hclock, by simp [htimer, hpending], by simp [hcandidate, hpending],
      by simp [hpending], by simp [hpending], hlater, hchanged⟩
  · refine ⟨hreached, hclock, rfl, rfl, ?_, ?_, hlater, hchanged⟩
    · rintro timer htimer
      cases mem_singleton.mp htimer
      refine ⟨history, [], rfl, ⟨by simp, fun part hpart => ?_⟩, ?_⟩
      · rw [prefix_nil.mp hpart]
        exact ⟨_, hreached, rfl⟩
      · rw [← h.now]
        exact add_le_add le_rfl s.settleDelay_ge
    · rintro timer htimer c hc
      cases mem_singleton.mp htimer
      exact settleDelay_after hc

theorem Settles.run {actions : List FollowAct} (h : Settles history s)
    (hrun : run SpeakerFollow.step s actions = some t) : Settles (history ++ actions) t := by
  induction actions generalizing history s with
  | nil =>
    cases hrun
    rwa [append_nil]
  | cons a rest ih =>
    obtain ⟨u, hstep, hrest⟩ := run_cons_eq_some.mp hrun
    rw [append_cons]
    exact ih (h.step hstep) hrest

end SpeakerFollow

end SimplestChat.Client
