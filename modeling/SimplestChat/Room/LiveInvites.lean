import SimplestChat.Room.State
import SimplestChat.Support.Runs

/-!
# Live invitations of a room

`create_room_invite` counts the codes that are unused, unexpired and issued by somebody
who could issue them now, and stores another while there are fewer than twenty. The codes
of a demoted issuer are not counted, but they stay in the table, and a promotion restores
them.
-/

namespace SimplestChat.Invitations

open List Transition

/-- `MAX_LIVE_ROOM_INVITES`. -/
def maxLiveRoomInvites : ℕ := 20

structure RoomInvite where
  id : ℕ
  role : Role
  createdBy : ℕ
  usesLeft : ℕ
  expiresAt : ℕ
deriving DecidableEq

/-- The rows about one room. -/
structure InviteTables where
  now : ℕ
  ownerId : ℕ
  roles : ℕ → Option Role
  invites : List RoomInvite

inductive InviteAction where
  | create (invite : RoomInvite)
  | redeem (id user : ℕ)
  /-- by ID, with the issuer's credentials, or when the codes are purged -/
  | revoke (gone : RoomInvite → Bool)
  | setRole (user : ℕ) (role : Option Role)
  | transfer (owner : ℕ)
  | tick (now : ℕ)

namespace InviteTables

variable (db : InviteTables)

/-- The role is enough to issue such a code. -/
def mayIssue (i : RoomInvite) (role : Role) : Bool :=
  Role.admin.rank ≤ role.rank && i.role.rank < role.rank

def issuerStillAuthorized (i : RoomInvite) : Bool :=
  db.ownerId = i.createdBy || (db.roles i.createdBy).any (mayIssue i)

/-- The code counts against the limit, and can be redeemed. -/
def redeemable (i : RoomInvite) : Bool :=
  0 < i.usesLeft && db.now < i.expiresAt && db.issuerStillAuthorized i

def live : ℕ := db.invites.countP db.redeemable

/-- A redemption grants the offered role to whoever has a lower one. -/
def grant (user : ℕ) (role : Role) : ℕ → Option Role :=
  if db.ownerId = user then db.roles
  else Function.update db.roles user
    (some ((db.roles user).elim role fun stored =>
      if role.rank < stored.rank then stored else role))

def spend (id : ℕ) (i : RoomInvite) : RoomInvite :=
  if i.id = id then { i with usesLeft := i.usesLeft - 1 } else i

def step : InviteAction → Option InviteTables
  | .create invite =>
    if db.live < maxLiveRoomInvites then some { db with invites := invite :: db.invites }
    else none
  | .redeem id user =>
    (db.invites.find? fun i => i.id = id && db.redeemable i).map fun i =>
      { db with roles := db.grant user i.role, invites := db.invites.map (spend id) }
  | .revoke gone => some { db with invites := db.invites.filter fun i => !gone i }
  | .setRole user role => some { db with roles := Function.update db.roles user role }
  | .transfer owner => some { db with ownerId := owner }
  | .tick now => if db.now ≤ now then some { db with now } else none

/-- The unused and unexpired codes of an account that may not issue them now. -/
def suspended (user : ℕ) : List RoomInvite :=
  db.invites.filter fun i =>
    i.createdBy = user && 0 < i.usesLeft && db.now < i.expiresAt && !db.issuerStillAuthorized i

/-- Nobody gets a role, or the room, with which their suspended codes could be redeemed. -/
def restoresNone : InviteAction → Prop
  | .redeem id user =>
    ∀ code ∈ db.invites, code.id = id → ∀ i ∈ db.suspended user, mayIssue i code.role = false
  | .setRole user role => ∀ i ∈ db.suspended user, role.any (mayIssue i) = false
  | .transfer owner => db.suspended owner = []
  | _ => True

instance (action : InviteAction) : Decidable (db.restoresNone action) := by
  cases action <;> unfold restoresNone <;> infer_instance

variable {db} {after : InviteTables}

theorem mem_suspended {i : RoomInvite} : i ∈ db.suspended i.createdBy ↔
    i ∈ db.invites ∧ 0 < i.usesLeft ∧ db.now < i.expiresAt ∧
      db.issuerStillAuthorized i = false := by
  simp [suspended, and_assoc]

/-- What a redemption grants is enough for a code only if the offered or the stored role
was. -/
theorem mayIssue_grant {user : ℕ} {role : Role} {i : RoomInvite}
    (hoffer : user = i.createdBy → mayIssue i role = false)
    (hstored : (db.roles i.createdBy).any (mayIssue i) = false) :
    (db.grant user role i.createdBy).any (mayIssue i) = false := by
  unfold grant
  split
  · exact hstored
  by_cases huser : i.createdBy = user
  · subst huser
    have hoffer := hoffer rfl
    rw [Function.update_self]
    cases hrole : db.roles i.createdBy with
    | none => simpa using hoffer
    | some stored =>
      rw [hrole] at hstored
      simp only [Option.elim_some, Option.any_some] at hstored ⊢
      split
      · exact hstored
      · exact hoffer
  · rw [Function.update_of_ne huser]
    exact hstored

/-- A step that restores no code gives no issuer of one their authority back. -/
theorem authorized_of_step {action : InviteAction} (h : db.step action = some after)
    (hnone : db.restoresNone action) {i : RoomInvite} (hi : i ∈ db.invites)
    (huses : 0 < i.usesLeft) (hlive : db.now < i.expiresAt)
    (hissuer : after.issuerStillAuthorized i = true) : db.issuerStillAuthorized i = true := by
  by_contra hlost
  rw [Bool.not_eq_true] at hlost
  have hmem : i ∈ db.suspended i.createdBy := mem_suspended.mpr ⟨hi, huses, hlive, hlost⟩
  obtain ⟨howner, hrole⟩ := Bool.or_eq_false_iff.mp hlost
  suffices hafter : after.issuerStillAuthorized i = false by
    rw [hafter] at hissuer
    cases hissuer
  cases action with
  | create | tick =>
    simp only [step] at h
    split at h <;> cases h
    exact hlost
  | revoke =>
    cases h
    exact hlost
  | redeem id user =>
    obtain ⟨code, hfound, rfl⟩ := Option.map_eq_some_iff.mp h
    have hid := find?_some hfound
    simp only [Bool.and_eq_true, decide_eq_true_eq] at hid
    refine Bool.or_eq_false_iff.mpr ⟨howner, mayIssue_grant ?_ hrole⟩
    rintro rfl
    exact hnone code (mem_of_find?_eq_some hfound) hid.1 i hmem
  | setRole user role =>
    cases h
    refine Bool.or_eq_false_iff.mpr ⟨howner, ?_⟩
    dsimp only
    by_cases huser : i.createdBy = user
    · subst huser
      rw [Function.update_self]
      exact hnone i hmem
    · rw [Function.update_of_ne huser]
      exact hrole
  | transfer owner =>
    cases h
    refine Bool.or_eq_false_iff.mpr ⟨decide_eq_false ?_, hrole⟩
    rintro rfl
    have hempty : db.suspended i.createdBy = [] := hnone
    rw [hempty] at hmem
    cases hmem

theorem live_step {action : InviteAction} (h : db.step action = some after)
    (hle : db.live ≤ maxLiveRoomInvites) (hnone : db.restoresNone action) :
    after.live ≤ maxLiveRoomInvites := by
  have hsame : ∀ {i}, i ∈ db.invites → db.now ≤ after.now →
      after.redeemable i = true → db.redeemable i = true := by
    intro i hi hnow hcounts
    simp only [redeemable, Bool.and_eq_true, decide_eq_true_eq] at hcounts ⊢
    obtain ⟨⟨huses, hlive⟩, hissuer⟩ := hcounts
    have hunexpired := lt_of_le_of_lt hnow hlive
    exact ⟨⟨huses, hunexpired⟩, authorized_of_step h hnone hi huses hunexpired hissuer⟩
  have hkept : after.invites = db.invites → db.now ≤ after.now → after.live ≤ db.live := by
    intro hinvites hnow
    unfold live
    rw [hinvites]
    exact countP_mono_left fun i hi => hsame hi hnow
  cases action with
  | create invite =>
    simp only [step] at h
    split at h
    · cases h
      change (invite :: db.invites).countP db.redeemable ≤ _
      rw [countP_cons]
      have : db.invites.countP db.redeemable < maxLiveRoomInvites := ‹_›
      split <;> omega
    · cases h
  | redeem id user =>
    obtain ⟨i, -, rfl⟩ := Option.map_eq_some_iff.mp h
    refine le_trans ?_ hle
    unfold live
    rw [countP_map]
    refine countP_mono_left fun i hi hcounts => hsame hi le_rfl ?_
    -- A spent use leaves no code redeemable that was not.
    unfold Function.comp spend at hcounts
    split at hcounts
    · simp only [redeemable, Bool.and_eq_true, decide_eq_true_eq] at hcounts ⊢
      exact ⟨⟨by omega, hcounts.1.2⟩, hcounts.2⟩
    · exact hcounts
  | revoke gone =>
    cases h
    exact filter_sublist.countP_le.trans hle
  | setRole | transfer =>
    cases h
    exact (hkept rfl le_rfl).trans hle
  | tick now =>
    simp only [step] at h
    split at h
    · cases h
      exact (hkept rfl ‹_›).trans hle
    · cases h

/-- A room that starts within the limit stays within it as long as no step gives the issuer
of suspended codes their authority back. -/
theorem live_invites_bounded {actions : List InviteAction} (hstart : db.live ≤ maxLiveRoomInvites)
    (hmeets : RunMeets step restoresNone db actions)
    (hrun : run step db actions = some after) : after.live ≤ maxLiveRoomInvites :=
  run_invariant (fun _ _ _ hle hnone hstep => live_step hstep hle hnone) hstart hmeets hrun

/-- Account 1 owns the room, account 2 is an admin. -/
def ownedRoom : InviteTables := ⟨0, 1, fun user => if user = 2 then some .admin else none, []⟩

def codes (issuer first : ℕ) : List InviteAction :=
  (List.range 20).map fun n => .create ⟨first + n, .member, issuer, 1, 7⟩

/-- The admin fills the limit and is demoted to member, and the owner fills it again. -/
def demotesIssuer : List InviteAction :=
  codes 2 0 ++ .setRole 2 (some .member) :: codes 1 20 ++
    [.redeem 20 3, .create ⟨40, .member, 1, 1, 7⟩]

/-- A demotion restores nothing: the codes of the admin stay suspended. -/
theorem demotion_stays_within_limit : ∃ after,
    (run step ownedRoom demotesIssuer = some after ∧ after.live = maxLiveRoomInvites ∧
      (after.suspended 2).length = 20) ∧ after.live ≤ maxLiveRoomInvites := by
  have hmeets : RunMeets step restoresNone ownedRoom demotesIssuer := by decide +kernel
  refine (exists_of_any (by decide +kernel :
    ((run step ownedRoom demotesIssuer).any fun after => decide (after.live = maxLiveRoomInvites ∧
      (after.suspended 2).length = 20)) = true)).imp fun after h => ⟨h, ?_⟩
  exact live_invites_bounded (by decide : ownedRoom.live ≤ _) hmeets h.1

/-- The admin fills the limit and is demoted, the owner fills it again, and the admin is
promoted: forty codes can be redeemed. -/
theorem promotion_restores_codes : ∃ after,
    run step ownedRoom (codes 2 0 ++ .setRole 2 none :: codes 1 20 ++
      [.setRole 2 (some .admin)]) = some after ∧ after.live = 40 :=
  exists_of_any (by decide)

end InviteTables

end SimplestChat.Invitations
