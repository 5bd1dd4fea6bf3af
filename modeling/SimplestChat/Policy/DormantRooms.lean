import SimplestChat.Policy.System

/-!
# Joining a room that is saved but not live

A room that is not live costs a router to join, so `dormant_room_precheck` refuses from
the saved rows what the live admission would refuse anyway. A password it has verified is
handed on with its hash, and the live admission does not verify it again.
-/

namespace SimplestChat.Policy

open Option

inductive JoinError where
  | message (text : String)
  | roomPasswordRequired
deriving DecidableEq

section Definitions

-- whether a password verifies against a hash, always with the same answer
variable (verify : PasswordHash → String → Bool)

/-- How both gates check a password. -/
def provePassword (stored : Option PasswordHash) (password : Option String) :
    Except JoinError PasswordHash :=
  match stored, password with
  | none, _ => .error (.message "Room password is unavailable")
  | some _, none => .error .roomPasswordRequired
  | some hash, some supplied =>
    if verify hash supplied then .ok hash
    else .error (.message "Incorrect room password")

/-- `dormant_room_precheck`, of a room that is not live. -/
def dormantRoomPrecheck (saved : Saved) (now : Instant) (request : JoinRequest) :
    Except JoinError (Option PasswordHash) :=
  match saved.load with
  | none => .ok none
  | some (settings, stored) =>
    if saved.isBanned request.key now then
      .error (.message "You are banned from this room")
    else if settings.requireRegistration && !request.authenticated then
      .error (.message "This room requires registration")
    else if !settings.guestsAllowed && !request.authenticated then
      .error (.message "Guests are not allowed in this room")
    else if !settings.passwordProtected || Role.admin.rank ≤
        (saved.resolveRole settings.ownerId request.id request.authenticated).rank then
      .ok none
    else (provePassword verify stored request.password).map some

/-- The password gate of `add_participant`. -/
def passwordGate (request : JoinRequest) (snapshot : Snapshot) (role : Option Role)
    (prechecked : Option PasswordHash) : Except JoinError Unit :=
  if snapshot.passwordProtected && !role.any (fun r => Role.admin.rank ≤ r.rank) &&
      !(prechecked.isSome && prechecked = snapshot.passwordHash) then
    (provePassword verify snapshot.passwordHash request.password).map fun _ => ()
  else .ok ()

/-- What `add_participant` finds out before it takes the room for its commit. -/
def liveGate (saved : Saved) (now : Instant) (request : JoinRequest)
    (snapshot : Snapshot) (prechecked : Option PasswordHash) :
    Except JoinError (Option Role × PunitiveState) :=
  let role := resolvedRole saved request snapshot
  if snapshot.persisted && saved.isBanned request.key now then
    .error (.message "You are banned from this room")
  else if snapshot.persisted && role.isNone then
    .error (.message "Room access could not be verified")
  else
    (passwordGate verify request snapshot role prechecked).map fun _ =>
      (role, persistedPunitive saved request snapshot)

def liveAdmission (saved : Saved) (now : Instant) (room : Room)
    (maxParticipantsPerRoom : Option ℕ) (request : JoinRequest)
    (prechecked : Option PasswordHash) : Except JoinError Placement :=
  (liveGate verify saved now request room.snapshot prechecked).bind fun facts =>
    ((room.commitJoin maxParticipantsPerRoom now request room.snapshot facts.1 facts.2
      0).2).mapError .message

end Definitions

variable {verify : PasswordHash → String → Bool} {saved : Saved} {now : Instant}
  {request : JoinRequest} {snapshot : Snapshot}
  {stored : Option PasswordHash} {hash : PasswordHash} {error : JoinError}

theorem passwordGate_of_accepted {role : Option Role}
    (h : passwordAccepted request snapshot role = true) :
    passwordGate PasswordHash.verify request snapshot role none = .ok () := by
  cases hstored : snapshot.passwordHash <;> cases hsupplied : request.password <;>
    grind [passwordAccepted, passwordGate, provePassword, Except.map]

/-! ## A hash that was proved -/

theorem provePassword_eq_ok {password : Option String}
    (h : provePassword verify stored password = .ok hash) : stored = some hash := by
  unfold provePassword at h
  split at h
  · cases h
  · cases h
  · split at h <;> cases h
    rfl

theorem proved_of_precheck (h : dormantRoomPrecheck verify saved now request = .ok (some hash)) :
    provePassword verify (some hash) request.password = .ok hash := by
  unfold dormantRoomPrecheck at h
  split at h
  · cases h
  rename_i settings stored _
  iterate 4
    split at h
    · cases h
  cases hproved : provePassword verify stored request.password with
  | error error =>
    rw [hproved] at h
    cases h
  | ok proved =>
    rw [hproved] at h
    cases h
    rw [← provePassword_eq_ok hproved]
    exact hproved

theorem passwordGate_proved (role : Option Role)
    (h : provePassword verify (some hash) request.password = .ok hash) :
    passwordGate verify request snapshot role (some hash) =
      passwordGate verify request snapshot role none := by
  unfold passwordGate
  by_cases hsame : snapshot.passwordHash = some hash
  · simp [hsame, h, Except.map]
  · simp [Ne.symm hsame]

/-! ## What the precheck refuses -/

variable {room : Room} {maxParticipantsPerRoom : Option ℕ}

theorem liveAdmission_gate_error {prechecked : Option PasswordHash}
    (h : liveGate verify saved now request room.snapshot prechecked = .error error) :
    liveAdmission verify saved now room maxParticipantsPerRoom request prechecked =
      .error error := by
  rw [liveAdmission, h]
  rfl

theorem liveAdmission_closed (hguest : request.authenticated = false)
    {settings : Settings} (hsettings : room.settings = some settings)
    (hclosed : settings.requireRegistration = true ∨ settings.guestsAllowed = false) :
    ∃ error, liveAdmission verify saved now room maxParticipantsPerRoom request none =
      .error error := by
  cases hgate : liveGate verify saved now request room.snapshot none with
  | error error => exact ⟨error, liveAdmission_gate_error hgate⟩
  | ok facts =>
    have hrefusal : ((room.pruneExpiredBans now).joinRefusal maxParticipantsPerRoom
        request).isSome = true := by
      have hpruned : (room.pruneExpiredBans now).settings = some settings := hsettings
      rcases hclosed with hclosed | hclosed
      all_goals
        simp only [Room.joinRefusal, hpruned, hguest, any_some, hclosed]
        grind
    obtain ⟨text, htext⟩ := isSome_iff_exists.mp hrefusal
    rw [liveAdmission, hgate]
    simp only [Except.bind, Room.commitJoin, Room.decideJoin, htext]
    split <;> exact ⟨_, rfl⟩

theorem passwordGate_refused {role : Option Role} (hprotected : snapshot.passwordProtected = true)
    (hrole : role.any (fun r => Role.admin.rank ≤ r.rank) = false)
    (h : provePassword verify snapshot.passwordHash request.password = .error error) :
    passwordGate verify request snapshot role none = .error error := by
  simp [passwordGate, hprotected, hrole, h, Except.map]

theorem liveAdmission_of_precheck_error
    (h : dormantRoomPrecheck verify saved now request = .error error) (id : String)
    (ceiling maxParticipantsPerRoom : Option ℕ) :
    ∃ error', liveAdmission verify saved now (Room.create id saved.load ceiling)
      maxParticipantsPerRoom request none = .error error' := by
  unfold dormantRoomPrecheck at h
  cases hload : saved.load with
  | none =>
    rw [hload] at h
    cases h
  | some loaded =>
    rw [hload] at h
    dsimp only at h
    split at h
    case isTrue hbanned =>
      refine ⟨_, liveAdmission_gate_error (if_pos ?_)⟩
      simpa [Room.create, Room.snapshot] using hbanned
    case isFalse hbanned =>
    split at h
    case isTrue hclosed =>
      simp only [Bool.and_eq_true, Bool.not_eq_true'] at hclosed
      exact liveAdmission_closed hclosed.2 rfl (.inl hclosed.1)
    split at h
    case isTrue hclosed =>
      simp only [Bool.and_eq_true, Bool.not_eq_true'] at hclosed
      exact liveAdmission_closed hclosed.2 rfl (.inr hclosed.1)
    split at h
    case isTrue => cases h
    case isFalse hgated =>
    simp only [Bool.or_eq_true, Bool.not_eq_true', decide_eq_true_eq, not_or,
      Bool.not_eq_false] at hgated
    cases hproved : provePassword verify loaded.2 request.password with
    | ok proved =>
      rw [hproved] at h
      cases h
    | error refused =>
      have hgate : passwordGate verify request (Room.create id (some loaded) ceiling).snapshot
          (some (saved.resolveRole loaded.1.ownerId request.id request.authenticated))
          none = .error refused :=
        passwordGate_refused hgated.1 (by simpa using hgated.2) hproved
      refine ⟨refused, liveAdmission_gate_error ?_⟩
      rw [liveGate, if_neg (by simpa [Room.create, Room.snapshot] using hbanned)]
      exact congrArg (Except.map _) hgate

/-- The precheck of a dormant room refuses only what the room, created from the same rows,
would refuse; and the hash that it hands on changes no later admission, whatever the rows
and the room are by then. -/
theorem dormant_precheck_faithful (verify : PasswordHash → String → Bool) (saved : Saved)
    (now : Instant) (request : JoinRequest) :
    (∀ error, dormantRoomPrecheck verify saved now request = .error error →
      ∀ id ceiling maxParticipantsPerRoom, ∃ error',
        liveAdmission verify saved now (Room.create id saved.load ceiling)
          maxParticipantsPerRoom request none = .error error') ∧
    ∀ prechecked, dormantRoomPrecheck verify saved now request = .ok prechecked →
      ∀ saved' later room maxParticipantsPerRoom,
        liveAdmission verify saved' later room maxParticipantsPerRoom request prechecked =
          liveAdmission verify saved' later room maxParticipantsPerRoom request none := by
  refine ⟨fun error h => liveAdmission_of_precheck_error h, ?_⟩
  intro prechecked h saved' later room maximum
  cases prechecked with
  | none => rfl
  | some hash => simp only [liveAdmission, liveGate, passwordGate_proved _ (proved_of_precheck h)]

end SimplestChat.Policy
