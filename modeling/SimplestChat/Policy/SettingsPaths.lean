import SimplestChat.Policy.Requests

/-!
# Two ways to change a saved room's settings

A socket of the room and the HTTP administration each check a patch in their own
words, write the room's row with their own SQL and publish what they computed in
memory. The socket starts from the runtime room and assigns the columns that the
patch names; the administration starts from the row it has locked and writes every
column back.

Both checks come down to `validUpdate`. From there on the two paths do the same,
and loading the row that either leaves gives what it publishes.
-/

namespace SimplestChat.Policy

/-! ## Patches as they arrive -/

/-- `SettingsPatch`. A limit is any 32-bit integer until it has been checked. -/
structure WirePatch where
  moderated : Option Bool := none
  lobbyEnabled : Option Bool := none
  guestsAllowed : Option Bool := none
  guestsCanBroadcast : Option Bool := none
  maxBroadcasters : Option (Option Int) := none
  maxParticipants : Option (Option Int) := none
  allowScreenSharing : Option Bool := none
  allowChat : Option Bool := none
  allowVideo : Option Bool := none
  requireRegistration : Option Bool := none
  inviteOnly : Option Bool := none
  pushToTalk : Option Bool := none
  secret : Option Bool := none
  password : Option (Option String) := none
deriving DecidableEq

/-- The patch with its limits as numbers; one that passed the checks is positive. -/
def WirePatch.toPatch (patch : WirePatch) : SettingsPatch where
  moderated := patch.moderated
  lobbyEnabled := patch.lobbyEnabled
  guestsAllowed := patch.guestsAllowed
  guestsCanBroadcast := patch.guestsCanBroadcast
  maxBroadcasters := patch.maxBroadcasters.map (·.map Int.toNat)
  maxParticipants := patch.maxParticipants.map (·.map Int.toNat)
  allowScreenSharing := patch.allowScreenSharing
  allowChat := patch.allowChat
  allowVideo := patch.allowVideo
  requireRegistration := patch.requireRegistration
  inviteOnly := patch.inviteOnly
  pushToTalk := patch.pushToTalk
  secret := patch.secret

/-! ## The row -/

def meetsChecks (columns : RoomSettings) : Bool :=
  (columns.maxParticipants.all fun value => 1 ≤ value && value ≤ 10000) &&
    (columns.maxBroadcasters.all fun value => 1 ≤ value && value ≤ 1000) &&
    columns.maxBroadcasters.all fun broadcasters =>
      columns.maxParticipants.all fun participants => broadcasters ≤ participants

/-- A row of `rooms`. It has no column that says the room has a password. -/
structure RoomRow where
  ownerId : ParticipantId
  displayName : String
  passwordHash : Option PasswordHash
  columns : RoomSettings
  topic : Option String
  historyRetentionDays : ℕ
  checks : meetsChecks columns = true

/-- `load_room`. -/
def loadRoom (row : RoomRow) : Settings × Option PasswordHash := ({ row.columns with
      ownerId := row.ownerId
      displayName := row.displayName
      passwordProtected := row.passwordHash.isSome
      topic := row.topic
      historyRetentionDays := row.historyRetentionDays },
    row.passwordHash)

namespace RoomRow

/-- An `UPDATE` of the settings' columns, refused if the row would break a
constraint. -/
def write (row : RoomRow) (columns : RoomSettings)
    (passwordHash : Option PasswordHash) : Option RoomRow :=
  if h : meetsChecks columns = true then some { row with columns, passwordHash, checks := h }
  else none

/-- `update_room_settings`: the columns that the patch names. -/
def updateRoomSettings (row : RoomRow) (patch : SettingsPatch)
    (passwordHash : Option (Option PasswordHash)) : Option RoomRow :=
  row.write
    { moderated := patch.moderated.getD row.columns.moderated
      lobbyEnabled := patch.lobbyEnabled.getD row.columns.lobbyEnabled
      guestsAllowed := patch.guestsAllowed.getD row.columns.guestsAllowed
      guestsCanBroadcast := patch.guestsCanBroadcast.getD row.columns.guestsCanBroadcast
      maxBroadcasters := patch.maxBroadcasters.getD row.columns.maxBroadcasters
      maxParticipants := patch.maxParticipants.getD row.columns.maxParticipants
      allowScreenSharing := patch.allowScreenSharing.getD row.columns.allowScreenSharing
      allowChat := patch.allowChat.getD row.columns.allowChat
      allowVideo := patch.allowVideo.getD row.columns.allowVideo
      requireRegistration :=
        patch.requireRegistration.getD row.columns.requireRegistration
      inviteOnly := patch.inviteOnly.getD row.columns.inviteOnly
      pushToTalk := patch.pushToTalk.getD row.columns.pushToTalk
      secret := patch.secret.getD row.columns.secret }
    (passwordHash.getD row.passwordHash)

/-- The `UPDATE` of `Context::settings_change`: every column, and the hash when
there is one to replace it. -/
def overwriteSettings (row : RoomRow) (updated : Settings)
    (passwordHash : Option (Option PasswordHash)) : Option RoomRow :=
  row.write
    { moderated := updated.moderated
      lobbyEnabled := updated.lobbyEnabled
      guestsAllowed := updated.guestsAllowed
      guestsCanBroadcast := updated.guestsCanBroadcast
      maxBroadcasters := updated.maxBroadcasters
      maxParticipants := updated.maxParticipants
      allowScreenSharing := updated.allowScreenSharing
      allowChat := updated.allowChat
      allowVideo := updated.allowVideo
      requireRegistration := updated.requireRegistration
      inviteOnly := updated.inviteOnly
      pushToTalk := updated.pushToTalk
      secret := updated.secret }
    (if passwordHash.isSome then passwordHash.join else row.passwordHash)

end RoomRow

/-! ## The two paths -/

/-- An `if` that bails out. -/
def refuseIf (refused : Bool) (message : String) : Except String Unit :=
  if refused then .error message else .ok ()

/-- `validate_capacity`. -/
def validateCapacity (label : String) (value : Option (Option Int)) (maximum : ℕ) :
    Except String Unit :=
  match value with
  | some (some value) =>
    if 1 ≤ value ∧ value ≤ maximum then .ok ()
    else .error s!"{label} must be between 1 and {maximum}"
  | _ => .ok ()

abbrev SettingsPublication := Settings × Option (Option PasswordHash)

def passwordChanges (current : Settings) (stored : Option PasswordHash) :
    Option (Option String) → Bool
  | none => false
  | some none => stored.isSome || current.passwordProtected
  | some (some _) => true

/-- `update_room_settings_controlled` on a room with these settings and this hash.
A patch that changes nothing is accepted and publishes nothing. -/
def updateRoomSettingsControlled (current : Settings) (stored : Option PasswordHash)
    (patch : WirePatch) (salt : Salt) : Except String (Option SettingsPublication) := do
  validateCapacity "max participants" patch.maxParticipants 10000
  validateCapacity "max broadcasters" patch.maxBroadcasters 1000
  refuseIf (patch.password.join.any fun value => !validNewRoomPassword value)
    "Room password must be 8-256 bytes without control characters"
  let passwordHash := hashRoomPassword patch.password salt
  let updated := applySettingsUpdate current patch.toPatch patch.password
  refuseIf (!capacitiesAgree updated)
    "Maximum broadcasters cannot exceed maximum participants"
  return if !passwordChanges current stored patch.password && updated = current then none
    else some (updated, passwordHash)

/-- `SettingsPatch::apply`. -/
def WirePatch.apply (patch : WirePatch) (current : Settings) : Except String Settings := do
  refuseIf
    ([(patch.maxParticipants, (10000 : ℕ)), (patch.maxBroadcasters, 1000)].any
      fun limit => limit.1.join.any fun value : Int => !(1 ≤ value && value ≤ limit.2))
    "Room limits must be positive and within server bounds"
  refuseIf (patch.password.join.any fun value => !validNewRoomPassword value)
    "Room password must be 8–256 bytes without control characters"
  let updated := applySettingsUpdate current patch.toPatch patch.password
  refuseIf (!capacitiesAgree updated)
    "Maximum broadcasters cannot exceed maximum participants"
  return updated

/-- `Context::settings_change` on the settings it has loaded. -/
def settingsChange (current : Settings) (patch : WirePatch) (salt : Salt) :
    Except String SettingsPublication := do
  let updated ← patch.apply current
  return (updated, hashRoomPassword patch.password salt)

def publishOnto (terms : Settings × Option PasswordHash) :
    Option SettingsPublication → Settings × Option PasswordHash
  | none => terms
  | some (updated, passwordHash) => (updated, passwordHash.getD terms.2)

/-! ## Both checks are one predicate -/

variable {maximum : ℕ}

theorem validateCapacity_eq_ok {label : String} {value : Option (Option Int)} :
    validateCapacity label value maximum = .ok () ↔
      validCapacity (value.map (·.map Int.toNat)) maximum = true := by
  match value with
  | none => exact iff_of_true rfl rfl
  | some none => exact iff_of_true rfl rfl
  | some (some limit) =>
    have hrange : (1 ≤ limit ∧ limit ≤ maximum) ↔
        (1 ≤ limit.toNat ∧ limit.toNat ≤ maximum) := by omega
    by_cases hlimit : 1 ≤ limit ∧ limit ≤ maximum
    · simp [validateCapacity, validCapacity, hlimit, hrange.mp hlimit]
    have hout := mt hrange.mpr hlimit
    rw [not_and] at hout
    simp only [validateCapacity, if_neg hlimit, validCapacity, Option.map_some,
      Option.join_some, Option.all_some, Bool.and_eq_true, decide_eq_true_eq]
    constructor
    · intro h
      cases h
    · intro h
      exact absurd h.2 (hout h.1)

theorem limits_refused_iff {value : Option (Option Int)} :
    (value.join.any fun value : Int => !(1 ≤ value && value ≤ maximum)) = false ↔
      validCapacity (value.map (·.map Int.toNat)) maximum = true := by
  match value with
  | none => exact iff_of_true rfl rfl
  | some none => exact iff_of_true rfl rfl
  | some (some limit) =>
    simp only [Option.join_some, Option.any_some, Bool.not_eq_false', Bool.and_eq_true,
      decide_eq_true_eq, validCapacity, Option.map_some, Option.all_some]
    omega

variable {password : Option (Option String)}

theorem password_refused_iff :
    (password.join.any fun value => !validNewRoomPassword value) = false ↔
      password.join.all validNewRoomPassword = true := by
  cases password.join <;> simp

theorem check_bind_eq_ok {α : Type} {check : Except String Unit}
    {rest : Unit → Except String α} {a : α} :
    (check >>= rest) = .ok a ↔ check = .ok () ∧ rest () = .ok a := by
  cases check with
  | error | ok => simp [bind, Except.bind]

theorem refuseIf_eq_ok {refused : Bool} {message : String} :
    refuseIf refused message = .ok () ↔ refused = false := by
  cases refused <;> simp [refuseIf]

variable {patch : WirePatch} {salt : Salt}

theorem updateRoomSettingsControlled_eq_ok {current : Settings}
    {stored : Option PasswordHash} {outcome : Option SettingsPublication} :
    updateRoomSettingsControlled current stored patch salt = .ok outcome ↔
      validUpdate current patch.toPatch patch.password = true ∧ outcome =
          if !passwordChanges current stored patch.password &&
              applySettingsUpdate current patch.toPatch patch.password = current then none
          else some (applySettingsUpdate current patch.toPatch patch.password,
            hashRoomPassword patch.password salt) := by
  unfold validUpdate updateRoomSettingsControlled
  simp only [check_bind_eq_ok, refuseIf_eq_ok, validateCapacity_eq_ok,
    password_refused_iff, Bool.not_eq_false', Bool.and_eq_true, and_assoc]
  refine and_congr_right fun _ => and_congr_right fun _ => and_congr_right fun _ =>
    and_congr_right fun _ => ?_
  exact ⟨fun h => (Except.ok.inj h).symm, fun h => h ▸ rfl⟩

theorem settingsChange_eq_ok {current : Settings} {outcome : SettingsPublication} :
    settingsChange current patch salt = .ok outcome ↔
      validUpdate current patch.toPatch patch.password = true ∧
        outcome = (applySettingsUpdate current patch.toPatch patch.password,
          hashRoomPassword patch.password salt) := by
  unfold validUpdate settingsChange WirePatch.apply
  simp only [bind_assoc, pure_bind, check_bind_eq_ok, refuseIf_eq_ok,
    password_refused_iff, List.any_cons, List.any_nil, Bool.or_false,
    Bool.or_eq_false_iff, limits_refused_iff, Bool.not_eq_false', Bool.and_eq_true, and_assoc]
  refine and_congr_right fun _ => and_congr_right fun _ => and_congr_right fun _ =>
    and_congr_right fun _ => ?_
  exact ⟨fun h => (Except.ok.inj h).symm, fun h => h ▸ rfl⟩

/-! ## Settings that a row can hold -/

/-- Settings within the table's constraints, marked as protected exactly when there
is a hash. -/
structure Storable (settings : Settings) (passwordHash : Option PasswordHash) : Prop where
  checks : meetsChecks settings.toRoomSettings = true
  protection : settings.passwordProtected = passwordHash.isSome

theorem storable_loadRoom (row : RoomRow) : Storable (loadRoom row).1 (loadRoom row).2 :=
  ⟨row.checks, rfl⟩

theorem storable_iff {settings : Settings} {passwordHash : Option PasswordHash} :
    Storable settings passwordHash ↔ ∃ row, loadRoom row = (settings, passwordHash) := by
  constructor
  · intro h
    refine ⟨⟨settings.ownerId, settings.displayName, passwordHash, settings.toRoomSettings,
      settings.topic, settings.historyRetentionDays, h.checks⟩, ?_⟩
    unfold loadRoom
    rw [← h.protection]
  · rintro ⟨row, hrow⟩
    have hstorable := storable_loadRoom row
    rw [hrow] at hstorable
    exact hstorable

theorem patched_in_range {current : Option ℕ} {patch : Option (Option ℕ)}
    (hcurrent : (current.all fun value => 1 ≤ value && value ≤ maximum) = true)
    (hpatch : validCapacity patch maximum = true) :
    ((patch.getD current).all fun value => 1 ≤ value && value ≤ maximum) = true := by
  match patch with
  | none => exact hcurrent
  | some none => rfl
  | some (some limit) => exact hpatch

theorem Storable.update {settings : Settings} {passwordHash : Option PasswordHash}
    (h : Storable settings passwordHash) {patch : SettingsPatch}
    (hvalid : validUpdate settings patch password = true) (salt : Salt) :
    Storable (applySettingsUpdate settings patch password)
      ((hashRoomPassword password salt).getD passwordHash) := by
  simp only [validUpdate, Bool.and_eq_true] at hvalid
  obtain ⟨⟨⟨hparticipants, hbroadcasters⟩, -⟩, hagree⟩ := hvalid
  have hchecks := h.checks
  simp only [meetsChecks, Bool.and_eq_true] at hchecks
  constructor
  · simp only [meetsChecks, Bool.and_eq_true]
    exact ⟨⟨patched_in_range hchecks.1.1 hparticipants,
      patched_in_range hchecks.1.2 hbroadcasters⟩, hagree⟩
  match password with
  | none => exact h.protection
  | some none => rfl
  | some (some _) => rfl

/-! ## Each path publishes what it stores -/

namespace RoomRow

theorem write_eq_some (row : RoomRow) {columns : RoomSettings}
    (h : meetsChecks columns = true) (passwordHash : Option PasswordHash) :
    ∃ row', row.write columns passwordHash = some row' ∧ loadRoom row' = ({ (loadRoom row).1 with
            toRoomSettings := columns
            passwordProtected := passwordHash.isSome },
          passwordHash) := by
  unfold write
  rw [dif_pos h]
  exact ⟨_, rfl, rfl⟩

theorem load_write {row : RoomRow} {patch : SettingsPatch}
    {password : Option (Option String)} {salt : Salt}
    (hvalid : validUpdate (loadRoom row).1 patch password = true) :
    ∃ row', row.write (patch.applyTo row.columns)
        ((hashRoomPassword password salt).getD row.passwordHash) = some row' ∧
      loadRoom row' = (applySettingsUpdate (loadRoom row).1 patch password,
        (hashRoomPassword password salt).getD row.passwordHash) := by
  have hstorable := (storable_loadRoom row).update hvalid salt
  obtain ⟨row', hwrite, hload⟩ := row.write_eq_some hstorable.checks
    ((hashRoomPassword password salt).getD row.passwordHash)
  refine ⟨row', hwrite, ?_⟩
  have hprotection : (applySettingsUpdate (loadRoom row).1 patch password).passwordProtected =
      ((hashRoomPassword password salt).getD row.passwordHash).isSome :=
    hstorable.protection
  rw [hload, ← hprotection]
  rfl

theorem overwriteSettings_eq (row : RoomRow) (patch : SettingsPatch)
    (password : Option (Option String)) (passwordHash : Option (Option PasswordHash)) :
    row.overwriteSettings (applySettingsUpdate (loadRoom row).1 patch password)
        passwordHash =
      row.write (patch.applyTo row.columns) (passwordHash.getD row.passwordHash) := by
  cases passwordHash <;> rfl

end RoomRow

theorem updateRoomSettings_refines (row : RoomRow) {publication : SettingsPublication}
    (h : updateRoomSettingsControlled (loadRoom row).1 (loadRoom row).2 patch salt =
      .ok (some publication)) :
    ∃ row', row.updateRoomSettings patch.toPatch publication.2 = some row' ∧
      loadRoom row' = publishOnto (loadRoom row) (some publication) := by
  obtain ⟨hvalid, hpublication⟩ := updateRoomSettingsControlled_eq_ok.mp h
  obtain ⟨-, hpublication⟩ := Option.ite_none_left_eq_some.mp hpublication.symm
  cases hpublication
  exact RoomRow.load_write hvalid

theorem overwriteSettings_refines (row : RoomRow) {publication : SettingsPublication}
    (h : settingsChange (loadRoom row).1 patch salt = .ok publication) :
    ∃ row', row.overwriteSettings publication.1 publication.2 = some row' ∧
      loadRoom row' = publishOnto (loadRoom row) (some publication) := by
  obtain ⟨hvalid, rfl⟩ := settingsChange_eq_ok.mp h
  rw [RoomRow.overwriteSettings_eq]
  exact RoomRow.load_write hvalid

/-! ## The two agree -/

/-- A patch that the socket finds to change nothing is one that the administration
publishes to no effect. -/
theorem publishOnto_unchanged {terms : Settings × Option PasswordHash}
    {patch : SettingsPatch} (h : (!passwordChanges terms.1 terms.2 password &&
      applySettingsUpdate terms.1 patch password = terms.1) = true) :
    publishOnto terms (some (applySettingsUpdate terms.1 patch password,
      hashRoomPassword password salt)) = terms := by
  simp only [Bool.and_eq_true, Bool.not_eq_true', decide_eq_true_eq] at h
  obtain ⟨hpassword, hsame⟩ := h
  unfold publishOnto
  dsimp only
  rw [hsame]
  match password with
  | none => rfl
  | some none =>
    have hnone : terms.2 = none := by
      unfold passwordChanges at hpassword
      rw [Bool.or_eq_false_iff] at hpassword
      simpa using hpassword.1
    exact Prod.ext rfl hnone.symm
  | some (some _) => cases hpassword

/-- The two paths accept the same patches, and leave a room with the same settings
and the same hash. -/
theorem paths_agree (terms : Settings × Option PasswordHash) (patch : WirePatch) (salt : Salt) :
    (updateRoomSettingsControlled terms.1 terms.2 patch salt).toOption.map
        (publishOnto terms) =
      (settingsChange terms.1 patch salt).toOption.map fun publication =>
        publishOnto terms (some publication) := by
  by_cases hvalid : validUpdate terms.1 patch.toPatch patch.password = true
  · rw [updateRoomSettingsControlled_eq_ok.mpr ⟨hvalid, rfl⟩,
      settingsChange_eq_ok.mpr ⟨hvalid, rfl⟩]
    refine congrArg some ?_
    by_cases hsame : (!passwordChanges terms.1 terms.2 patch.password &&
        applySettingsUpdate terms.1 patch.toPatch patch.password = terms.1) = true
    · rw [if_pos hsame]
      exact (publishOnto_unchanged hsame).symm
    · rw [if_neg hsame]
  · cases hsocket : updateRoomSettingsControlled terms.1 terms.2 patch salt with
    | ok => exact absurd (updateRoomSettingsControlled_eq_ok.mp hsocket).1 hvalid
    | error =>
      cases hhttp : settingsChange terms.1 patch salt with
      | ok => exact absurd (settingsChange_eq_ok.mp hhttp).1 hvalid
      | error => rfl

/-! ## The runs' requests are these paths -/

theorem planSettings_eq_some {room : Room} {actor : Authority} {change : Change} :
    planSettings room actor patch.toPatch patch.password salt = some change ↔
      actor.role.canChangeSettings = true ∧ ∃ publication : SettingsPublication,
        updateRoomSettingsControlled (room.settings.getD (.defaults room.id))
          room.passwordHash patch salt = .ok (some publication) ∧
        change = .settings publication.1 patch.toPatch patch.password publication.2 := by
  change (if actor.role.canChangeSettings && validUpdate _ _ _ &&
    (passwordChanges _ room.passwordHash patch.password || _) then some _ else none) = _ ↔ _
  simp only [updateRoomSettingsControlled_eq_ok]
  generalize room.settings.getD (.defaults room.id) = current
  constructor
  · intro h
    obtain ⟨hchecks, h⟩ := Option.ite_none_right_eq_some.mp h
    simp only [Bool.and_eq_true, Bool.or_eq_true, decide_eq_true_eq] at hchecks
    obtain ⟨⟨hrole, hvalid⟩, hdiffers⟩ := hchecks
    refine ⟨hrole, (applySettingsUpdate current patch.toPatch patch.password,
      hashRoomPassword patch.password salt), ⟨hvalid, ?_⟩, (Option.some.inj h).symm⟩
    symm
    apply if_neg
    simp only [Bool.and_eq_true, Bool.not_eq_true', decide_eq_true_eq, not_and]
    intro hsame
    exact hdiffers.resolve_left (by simp [hsame])
  · rintro ⟨hrole, publication, ⟨hvalid, hpublication⟩, rfl⟩
    by_cases hsame : (!passwordChanges current room.passwordHash patch.password &&
        applySettingsUpdate current patch.toPatch patch.password = current) = true
    · rw [if_pos hsame] at hpublication
      cases hpublication
    rw [if_neg hsame] at hpublication
    cases hpublication
    simp only [Bool.and_eq_true, Bool.not_eq_true', decide_eq_true_eq, not_and] at hsame
    rw [if_pos]
    simp only [Bool.and_eq_true, Bool.or_eq_true, decide_eq_true_eq]
    refine ⟨⟨hrole, hvalid⟩, ?_⟩
    by_cases hpassword : passwordChanges current room.passwordHash patch.password = true
    · exact .inl hpassword
    · exact .inr (hsame (by simpa using hpassword))

theorem planSettingsChange_eq_some {saved : Saved} {actor : Authority} {change : Change} :
    planSettingsChange saved actor patch.toPatch patch.password salt = some change ↔
      actor.role.canChangeSettings = true ∧ ∃ publication : SettingsPublication,
        settingsChange saved.settings patch salt = .ok publication ∧
        change = .settings publication.1 patch.toPatch patch.password publication.2 := by
  unfold planSettingsChange
  simp only [settingsChange_eq_ok]
  constructor
  · intro h
    obtain ⟨hchecks, h⟩ := Option.ite_none_right_eq_some.mp h
    obtain ⟨hrole, hvalid⟩ := Bool.and_eq_true_iff.mp hchecks
    exact ⟨hrole, _, ⟨hvalid, rfl⟩, (Option.some.inj h).symm⟩
  · rintro ⟨hrole, publication, ⟨hvalid, rfl⟩, rfl⟩
    rw [if_pos (Bool.and_eq_true_iff.mpr ⟨hrole, hvalid⟩)]

end SimplestChat.Policy
