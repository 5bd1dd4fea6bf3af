import SimplestChat.Policy.Control
import SimplestChat.Policy.DormantRooms

/-!
# What a revision vouches for

A join reads its facts in several steps without control, and commits only if the
room's revision is still the one it started from. This module says what that
comparison is worth: as long as the revision has not moved, the room is live and
no committed change waits for its publication, the terms a join read, the
restrictions it read and the absence of a ban are what they were.

The saved roles are the exception. An invitation changes them without control
and without a revision.
-/

namespace SimplestChat.Policy

open List Option SimplestChat.Policy.System

/-! ## Terms -/

/-- The second snapshot offers a join the terms of the first, its revision aside.
An owner that the first does not name may be named by the second: a topic gives a
room without settings the default ones. -/
structure Snapshot.SameTerms (before after : Snapshot) : Prop where
  lobbyEnabled : after.lobbyEnabled = before.lobbyEnabled
  inviteOnly : after.inviteOnly = before.inviteOnly
  ownerId : ∀ owner, before.ownerId = some owner → after.ownerId = some owner
  passwordProtected : after.passwordProtected = before.passwordProtected
  passwordHash : after.passwordHash = before.passwordHash
  persisted : after.persisted = before.persisted

theorem Snapshot.SameTerms.refl (snapshot : Snapshot) : snapshot.SameTerms snapshot :=
  ⟨rfl, rfl, fun _ h => h, rfl, rfl, rfl⟩

theorem Snapshot.SameTerms.trans {a b c : Snapshot} (hab : a.SameTerms b)
    (hbc : b.SameTerms c) : a.SameTerms c where
  lobbyEnabled := hbc.lobbyEnabled.trans hab.lobbyEnabled
  inviteOnly := hbc.inviteOnly.trans hab.inviteOnly
  ownerId := fun owner h => hbc.ownerId owner (hab.ownerId owner h)
  passwordProtected := hbc.passwordProtected.trans hab.passwordProtected
  passwordHash := hbc.passwordHash.trans hab.passwordHash
  persisted := hbc.persisted.trans hab.persisted

/-! ## Publications -/

def Change.affectsJoins : Change → Bool
  | .sanction _ | .role _ _ | .memberRole _ _ | .settings _ _ _ _ => true
  | .removal publication _ _ _ => publication.ban
  | .topic _ | .identity _ _ _ | .history _ | .unban _ | .removeBan _ => false

/-- A publication keeps the room's place, and either counts as a revision or
leaves the terms alone. -/
structure Room.Republished (before after : Room) (change : Change) : Prop where
  persisted : after.persisted = before.persisted
  deleting : after.deleting = before.deleting
  revision : after.policyRevision = before.policyRevision + 1 ∨
    (after.policyRevision = before.policyRevision ∧ change.affectsJoins = false ∧
      before.snapshot.SameTerms after.snapshot)

namespace Room.Republished

variable {before after : Room} {change : Change}

theorem bumped (hpersisted : after.persisted = before.persisted)
    (hdeleting : after.deleting = before.deleting)
    (hrevision : after.policyRevision = before.policyRevision + 1) :
    Republished before after change :=
  ⟨hpersisted, hdeleting, .inl hrevision⟩

theorem of_idle {middle : Room} (hidle : after.idle = middle.bumpPolicy.idle)
    (hpersisted : middle.persisted = before.persisted)
    (hdeleting : middle.deleting = before.deleting)
    (hrevision : middle.policyRevision = before.policyRevision) :
    Republished before after change :=
  .bumped ((eq_of_idle Room.persisted (fun _ => rfl) hidle).trans hpersisted)
    ((eq_of_idle Room.deleting (fun _ => rfl) hidle).trans hdeleting)
    ((eq_of_idle Room.policyRevision (fun _ => rfl) hidle).trans (by rw [← hrevision]; rfl))

theorem still (hsnapshot : after.snapshot = before.snapshot)
    (hdeleting : after.deleting = before.deleting)
    (hchange : change.affectsJoins = false) : Republished before after change :=
  ⟨congrArg Snapshot.persisted hsnapshot, hdeleting,
    .inr ⟨congrArg Snapshot.revision hsnapshot, hchange, hsnapshot ▸ .refl _⟩⟩

end Room.Republished

theorem Room.publishRemoval_republished (room : Room) (publication : RemovalPublication)
    (now listedAt : Instant) (change : Change) :
    Room.Republished room (room.publishRemoval publication now listedAt) change := by
  unfold publishRemoval
  dsimp only
  by_cases hban : publication.ban = true
  · rw [if_pos hban, if_pos hban]
    exact .bumped rfl rfl rfl
  · rw [if_neg hban, if_neg hban]
    exact .bumped rfl rfl rfl

variable {change : Change}

theorem publishRemovedBan_republished (room : Room) (removed : Option SanctionKey)
    (hchange : change.affectsJoins = false) :
    Room.Republished room (publishRemovedBan room removed) change := by
  unfold publishRemovedBan
  split
  · exact .bumped rfl rfl rfl
  · exact .bumped rfl rfl rfl
  · exact .still rfl rfl hchange

theorem removeListedBan_republished (room : Room) (ban : ℕ)
    (hchange : change.affectsJoins = false) :
    Room.Republished room (removeListedBan room ban) change := by
  unfold removeListedBan
  split
  · exact .still rfl rfl hchange
  · exact .bumped rfl rfl rfl

theorem Change.publish_republished (room : Room) (answer : Answer)
    (now listedAt : Instant) (change : Change) :
    Room.Republished room (change.publish room answer now listedAt) change := by
  cases change with
  | sanction publication => exact .of_idle (room.publishSanction_idle publication) rfl rfl rfl
  | removal publication target =>
    change Room.Republished room (ite _ _ _) _
    by_cases hban : (publication.ban || room.participants.contains target) = true
    · rw [if_pos hban]
      exact room.publishRemoval_republished publication now listedAt _
    rw [if_neg hban]
    rw [Bool.or_eq_true, not_or] at hban
    exact .still rfl rfl (by simpa [affectsJoins] using hban.1)
  | role target newRole => exact .of_idle (room.publishRole_idle target newRole) rfl rfl rfl
  | memberRole | identity => exact .bumped rfl rfl rfl
  | settings updated patch password passwordHash =>
    exact .of_idle (room.publishSettings_idle updated passwordHash) rfl rfl rfl
  | topic =>
    refine ⟨rfl, rfl, .inr ⟨rfl, rfl, ?_⟩⟩
    cases hsettings : room.settings with
    | none =>
      refine ⟨?_, ?_, ?_, ?_, rfl, rfl⟩ <;>
        simp [Room.snapshot, hsettings, publish, Settings.defaults]
    | some => refine ⟨?_, ?_, ?_, ?_, rfl, rfl⟩ <;> simp [Room.snapshot, hsettings, publish]
  | history =>
    refine .still ?_ rfl rfl
    cases hsettings : room.settings <;> simp [Room.snapshot, hsettings, publish]
  | unban =>
    change Room.Republished room (ite _ _ _) _
    split <;> exact .still rfl rfl rfl
  | removeBan ban =>
    cases answer with
    | ban removed => exact publishRemovedBan_republished room removed rfl
    | saved | userBan => exact removeListedBan_republished room ban rfl

variable {saved : Saved}

theorem Change.removal_work {written : Saved} {answer : Answer}
    {publication : Room.RemovalPublication} {target : ParticipantId} {report : Option ℕ}
    {expiresAt : Option Instant}
    (hwork : (Change.removal publication target report expiresAt).work saved =
      .ok (written, answer)) :
    written = if publication.ban then
        saved.writeBan (.forIdentity target publication.authenticated publication.ip)
          expiresAt
      else saved := by
  change (linkSavedReport saved target report).map _ = _ at hwork
  cases hlink : linkSavedReport saved target report with
  | error =>
    rw [hlink] at hwork
    cases hwork
  | ok =>
    rw [hlink] at hwork
    cases hwork
    rfl

theorem Change.work_unaffected {written : Saved} {answer : Answer}
    (hchange : change.affectsJoins = false)
    (hwork : change.work saved = .ok (written, answer)) :
    written.punitive = saved.punitive ∧ written.roles = saved.roles ∧
      ∀ key now, written.isBanned key now = true → saved.isBanned key now = true := by
  have hfilter : ∀ (p : SavedBan → Bool) key now,
      ((saved.bans.filter p).any fun row => row.key = key && row.expiresAt.live now) =
        true → saved.isBanned key now = true := by
    intro p key now hbanned
    obtain ⟨row, hrow, hmatch⟩ := List.any_eq_true.mp hbanned
    exact List.any_eq_true.mpr ⟨row, mem_of_mem_filter hrow, hmatch⟩
  cases change with
  | sanction | role | memberRole | settings => cases hchange
  | removal publication =>
    have hban : publication.ban = false := hchange
    obtain rfl := Change.removal_work hwork
    rw [hban]
    exact ⟨rfl, rfl, fun _ _ h => h⟩
  | topic | identity | history =>
    cases hwork
    exact ⟨rfl, rfl, fun _ _ h => h⟩
  | unban | removeBan =>
    cases hwork
    exact ⟨rfl, rfl, hfilter _⟩

/-! ## Steps -/

def System.unpublished (c : System) : Bool :=
  match c.control with
  | some (.publishing operation _) => c.room.persisted && operation.change.affectsJoins
  | _ => false

structure Unrevised (c : System) (action : Action) (d : System) : Prop where
  terms : c.room.snapshot.SameTerms d.room.snapshot
  punitive : d.saved.punitive = c.saved.punitive
  bans : ∀ key now, d.saved.isBanned key now = true → c.saved.isBanned key now = true
  roles : ∀ user, d.saved.roles user ≠ c.saved.roles user →
    ∃ issuer role, action = .policy (.redeemInvite issuer user role)

/-- What a step on one runtime room does about revisions. -/
structure Revises (c : System) (action : Action) (d : System) : Prop where
  persisted : d.room.persisted = c.room.persisted
  monotone : c.room.policyRevision ≤ d.room.policyRevision
  clock : c.now ≤ d.now
  unrevised : d.room.policyRevision = c.room.policyRevision → d.room.deleting = false →
    d.unpublished = false → c.room.deleting = false ∧ c.unpublished = false ∧ Unrevised c action d

namespace Revises

variable {c d : System} {action : Action}

theorem bumped (hpersisted : d.room.persisted = c.room.persisted)
    (hrevision : d.room.policyRevision = c.room.policyRevision + 1)
    (hclock : c.now ≤ d.now) : Revises c action d := by
  refine ⟨hpersisted, by omega, hclock, fun hsame => ?_⟩
  omega

theorem still (hsnapshot : d.room.snapshot = c.room.snapshot)
    (hdeleting : d.room.deleting = c.room.deleting) (hsaved : d.saved = c.saved)
    (hcontrol : d.unpublished = false → c.unpublished = false)
    (hclock : c.now ≤ d.now) :
    Revises c action d := by
  have hrevision : d.room.policyRevision = c.room.policyRevision :=
    congrArg Snapshot.revision hsnapshot
  refine ⟨congrArg Snapshot.persisted hsnapshot, hrevision.ge, hclock, ?_⟩
  intro _ hlive hpublished
  refine ⟨hdeleting ▸ hlive, hcontrol hpublished, hsnapshot ▸ .refl _, ?_, ?_, ?_⟩
  · rw [hsaved]
  · rw [hsaved]
    exact fun _ _ h => h
  · intro user hdiffers
    rw [hsaved] at hdiffers
    exact absurd rfl hdiffers

end Revises

namespace System

variable {c d : System}

theorem unpublished_of_control (h : ∀ operation answer,
    c.control ≠ some (.publishing operation answer)) : c.unpublished = false := by
  unfold unpublished
  split
  · rename_i operation answer hcontrol
    exact absurd hcontrol (h operation answer)
  · rfl

theorem unpublished_of_free (h : c.control = none) : c.unpublished = false :=
  unpublished_of_control fun operation answer hheld => by
    rw [h] at hheld
    cases hheld

theorem unpublished_publishing {operation : Operation} {answer : Answer}
    (h : c.control = some (.publishing operation answer)) :
    c.unpublished = (c.room.persisted && operation.change.affectsJoins) := by
  unfold unpublished
  rw [h]

end System

theorem Room.snapshot_commitJoin (room : Room) (maxParticipantsPerRoom : Option ℕ)
    (now : Instant) (request : JoinRequest) (snapshot : Snapshot)
    (resolved : Option Role) (persisted : PunitiveState) (session : MediaSession) :
    let committed := room.commitJoin maxParticipantsPerRoom now request snapshot
      resolved persisted session
    committed.1.snapshot = room.snapshot ∧ committed.1.deleting = room.deleting := by
  intro committed
  obtain hsame | hpruned | ⟨placement, -, -, hcommit⟩ :=
    room.commitJoin_cases maxParticipantsPerRoom now request snapshot resolved persisted
      session
  · rw [hsame]
    exact ⟨rfl, rfl⟩
  · rw [hpruned]
    exact ⟨rfl, rfl⟩
  · have hplaced := congrArg Prod.fst hcommit
    change committed.1 = (room.pruneExpiredBans now).place request session placement
      at hplaced
    rw [hplaced]
    by_cases hlobbied : placement.lobbied = true
    · rw [Room.place_lobbied _ hlobbied]
      exact ⟨rfl, rfl⟩
    · rw [Room.place_inside _ hlobbied]
      exact ⟨rfl, rfl⟩

theorem prunedFor_snapshot (room : Room) (now : Instant) (request : Request) :
    (prunedFor room now request).snapshot = room.snapshot ∧
      (prunedFor room now request).deleting = room.deleting := by
  cases request <;> exact ⟨rfl, rfl⟩

variable {c d : System} {action : Action}

theorem Effect.revises (h : Effect c action d)
    (hsteady : c.Steady) : Revises c action d ∨ action = .life .reopen := by
  cases h with
  | ticked htime => exact .inl (.still rfl rfl rfl id htime)
  | joinStarted | joinAdvanced | joinAbandoned => exact .inl (.still rfl rfl rfl id le_rfl)
  | joinCommitted hpoint hcontrol =>
    obtain ⟨hsnapshot, hdeleting⟩ := c.room.snapshot_commitJoin
      c.maxParticipantsPerRoom c.now _ _ _ _ c.nextSession
    exact .inl (.still hsnapshot hdeleting rfl (fun _ => unpublished_of_free hcontrol) le_rfl)
  | left hcontrol =>
    refine .inl (.still ?_ ?_ rfl (fun _ => unpublished_of_free hcontrol) le_rfl)
    all_goals
      dsimp only
      unfold Room.removeForSender
      split <;> rfl
  | rebound hcontrol =>
    refine .inl (.still ?_ ?_ rfl (fun _ => unpublished_of_free hcontrol) le_rfl)
    all_goals
      dsimp only
      unfold Room.rebind
      split <;> rfl
  | admissionRefused hcontrol | admissionStarted hcontrol | denied hcontrol
  | bansListed hcontrol =>
    exact .inl (.still rfl rfl rfl (fun _ => unpublished_of_free hcontrol) le_rfl)
  | admitted hheld | admissionDropped hheld =>
    refine .inl (.still rfl rfl rfl (fun _ => ?_) le_rfl)
    exact unpublished_of_control fun _ _ hpublishing => by
      rw [hheld] at hpublishing
      cases hpublishing
  | refused hcontrol | planned hcontrol =>
    obtain ⟨hsnapshot, hdeleting⟩ := prunedFor_snapshot c.room c.now ‹Request›
    exact .inl (.still hsnapshot hdeleting rfl (fun _ => unpublished_of_free hcontrol) le_rfl)
  | changedAtOnce hcontrol hpersisted hplan himmediate =>
    rename_i request operation
    obtain ⟨hsnapshot, hdeleting⟩ := prunedFor_snapshot c.room c.now request
    have hpublish := operation.change.publish_republished
      (prunedFor c.room c.now request) .saved c.now c.now
    have hrevision : (prunedFor c.room c.now request).policyRevision =
        c.room.policyRevision := congrArg Snapshot.revision hsnapshot
    have hplace : (prunedFor c.room c.now request).persisted = c.room.persisted :=
      congrArg Snapshot.persisted hsnapshot
    obtain hbumped | ⟨hsame, -, hterms⟩ := hpublish.revision
    · exact .inl (.bumped (hpublish.persisted.trans hplace) (hrevision ▸ hbumped) le_rfl)
    refine .inl ⟨hpublish.persisted.trans hplace, (hsame.trans hrevision).ge, le_rfl, ?_⟩
    intro _ hlive _
    refine ⟨(hpublish.deleting.trans hdeleting) ▸ hlive,
      unpublished_of_free hcontrol, hsnapshot ▸ hterms, rfl, fun _ _ h => h, ?_⟩
    intro user hdiffers
    exact absurd rfl hdiffers
  | committed hheld hwork =>
    rename_i operation saved answer
    refine .inl ⟨rfl, le_rfl, le_rfl, fun _ hlive hpublished => ?_⟩
    have hunaffected : operation.change.affectsJoins = false := by
      rw [unpublished_publishing rfl, Bool.and_eq_false_iff] at hpublished
      obtain hadhoc | hunaffected := hpublished
      · rw [hsteady.saving operation hheld] at hadhoc
        cases hadhoc
      · exact hunaffected
    obtain ⟨hpunitive, hroles, hbans⟩ := Change.work_unaffected hunaffected hwork
    refine ⟨hlive, ?_, .refl _, hpunitive, hbans, ?_⟩
    · exact unpublished_of_control fun _ _ hpublishing => by
        rw [hheld] at hpublishing
        cases hpublishing
    · intro user hdiffers
      exact absurd (congrFun hroles user) hdiffers
  | rejected hheld | deleteStarted hheld | deleteRejected hheld =>
    first
    | exact .inl (.bumped rfl rfl le_rfl)
    | refine .inl (.still rfl rfl rfl (fun _ => ?_) le_rfl)
      exact unpublished_of_control fun _ _ hpublishing => by
        rw [hheld] at hpublishing
        cases hpublishing
  | quarantined | closedForRejoin | evicted => exact .inl (.bumped rfl rfl le_rfl)
  | published hheld htime hmay =>
    rename_i operation answer listedAt
    have hpublish := operation.change.publish_republished c.room answer c.now listedAt
    obtain hbumped | ⟨hsame, hunaffected, hterms⟩ := hpublish.revision
    · exact .inl (.bumped hpublish.persisted hbumped htime)
    refine .inl ⟨hpublish.persisted, hsame.ge, htime, fun _ hlive _ => ?_⟩
    refine ⟨hpublish.deleting ▸ hlive, ?_, hterms, rfl, fun _ _ h => h, ?_⟩
    · rw [unpublished_publishing hheld, hunaffected, Bool.and_false]
    · intro user hdiffers
      exact absurd rfl hdiffers
  | publicationLost hheld htime hmay =>
    rw [hsteady.mayPublish hheld] at hmay
    cases hmay
  | reportRefused hheld hpersisted =>
    refine .inl (.still rfl rfl rfl (fun _ => ?_) le_rfl)
    rw [unpublished_publishing hheld, hpersisted, Bool.false_and]
  | inviteRedeemed hmay =>
    rename_i issuer user role
    refine .inl ⟨rfl, le_rfl, le_rfl, fun _ hlive hpublished => ?_⟩
    have hother : ∀ other, (c.saved.grant user role).roles other ≠ c.saved.roles other →
        other = user := by
      intro other hdiffers
      by_contra hne
      refine hdiffers ?_
      unfold Saved.grant
      split
      · rfl
      · exact Function.update_of_ne hne _ _
    refine ⟨hlive, hpublished, .refl _, ?_, ?_, ?_⟩
    · dsimp only
      unfold Saved.grant
      split <;> rfl
    · intro key now hbanned
      unfold Saved.isBanned Saved.grant at hbanned
      dsimp only at hbanned
      split at hbanned <;> exact hbanned
    · intro other hdiffers
      exact ⟨issuer, role, by rw [hother other hdiffers]⟩
  | streamed hstep =>
    obtain ⟨hidle, hd⟩ := streamStep_frame hstep
    have hcontrol : d.control = c.control := by rw [hd]
    have hpersisted : d.room.persisted = c.room.persisted :=
      Room.eq_of_idle Room.persisted (fun _ => rfl) hidle
    refine .inl (.still (Room.eq_of_idle Room.snapshot (fun _ => rfl) hidle)
      (Room.eq_of_idle Room.deleting (fun _ => rfl) hidle) (by rw [hd]) ?_ (by rw [hd]))
    unfold System.unpublished
    rw [hcontrol, hpersisted]
    exact id
  | deleted hheld | deleteUnknown hheld =>
    refine .inl ⟨rfl, le_rfl, le_rfl, fun _ hlive _ => ⟨hlive, ?_, .refl _, rfl,
      fun _ _ h => h, fun _ hdiffers => absurd rfl hdiffers⟩⟩
    exact unpublished_of_control fun _ _ hpublishing => by
      rw [hheld] at hpublishing
      cases hpublishing
  | reopened => exact .inr rfl

/-! ## Joins under way -/

def JoinPoint.banChecked : JoinPoint → Bool
  | .checkBan => false
  | _ => true

def JoinPoint.punitive : JoinPoint → Option PunitiveState
  | .verify _ punitive | .commit _ punitive => some punitive
  | _ => none

/-- What a join has read is what it would read now. -/
structure Join.Vouched (join : Join) (c : System) : Prop where
  terms : join.snapshot.SameTerms c.room.snapshot
  unbanned : join.point.banChecked = true → join.snapshot.persisted = true →
    c.saved.isBanned join.request.key c.now = false
  punitive : ∀ punitive, join.point.punitive = some punitive →
    punitive = persistedPunitive c.saved join.request join.snapshot

structure Join.Current (join : Join) (c : System) : Prop where
  persisted : c.room.persisted = join.snapshot.persisted
  bounded : join.snapshot.revision ≤ c.room.policyRevision
  account : join.request.authenticated = c.accounts join.request.id
  password : ∀ role punitive, join.point = .commit role punitive →
    passwordAccepted join.request join.snapshot role = true
  vouched : join.snapshot.revision = c.room.policyRevision → c.room.deleting = false →
    c.unpublished = false → join.Vouched c

theorem Expiry.live_of_le {expiry : Expiry} {now later : Instant} (hle : now ≤ later)
    (hlive : expiry.live later = true) : expiry.live now = true := by
  cases expiry with
  | none => rfl
  | some time =>
    have hlater : later < time := by simpa [Expiry.live] using hlive
    simpa [Expiry.live] using lt_of_le_of_lt hle hlater

theorem Saved.isBanned_of_le {key : SanctionKey} {now later : Instant}
    (hle : now ≤ later) (hbanned : saved.isBanned key later = true) :
    saved.isBanned key now = true := by
  obtain ⟨row, hrow, hmatch⟩ := List.any_eq_true.mp hbanned
  rw [Bool.and_eq_true] at hmatch
  refine List.any_eq_true.mpr ⟨row, hrow, ?_⟩
  rw [Bool.and_eq_true]
  exact ⟨hmatch.1, Expiry.live_of_le hle hmatch.2⟩

theorem Saved.loadPunitiveState_congr {written : Saved} (h : written.punitive = saved.punitive) :
    written.loadPunitiveState = saved.loadPunitiveState := by
  funext key
  cases key with
  | connection => rfl
  | user | guestIp => exact congrFun h _

variable {join : Join}

theorem Join.Current.revises (h : join.Current c) (hrevises : Revises c action d)
    (haccounts : d.accounts = c.accounts) : join.Current d := by
  refine ⟨hrevises.persisted.trans h.persisted, h.bounded.trans hrevises.monotone, ?_,
    h.password, ?_⟩
  · rw [haccounts]
    exact h.account
  intro hrevision hlive hpublished
  have hbounded := h.bounded
  have hmonotone := hrevises.monotone
  have hsame : d.room.policyRevision = c.room.policyRevision := by omega
  obtain ⟨hlive', hpublished', hunrevised⟩ := hrevises.unrevised hsame hlive hpublished
  have hvouched := h.vouched (hrevision.trans hsame) hlive' hpublished'
  refine ⟨hvouched.terms.trans hunrevised.terms, ?_, ?_⟩
  · intro hchecked hpersisted
    by_contra hbanned
    have hbanned' : d.saved.isBanned join.request.key d.now = true := by simpa using hbanned
    have hearlier := Saved.isBanned_of_le hrevises.clock (hunrevised.bans _ _ hbanned')
    rw [hvouched.unbanned hchecked hpersisted] at hearlier
    cases hearlier
  · intro punitive hread
    rw [hvouched.punitive punitive hread, persistedPunitive, persistedPunitive,
      Saved.loadPunitiveState_congr hunrevised.punitive]

theorem Join.Current.withJoins (h : join.Current c)
    (joins : List Join) : join.Current { c with joins } := by
  have hstill : Revises c (.tick c.now) { c with joins } := .still rfl rfl rfl id le_rfl
  exact h.revises hstill rfl

theorem Join.Current.started {request : JoinRequest}
    (haccount : request.authenticated = c.accounts request.id) :
    Join.Current ⟨request, c.room.snapshot, .checkBan⟩ c where
  persisted := rfl
  bounded := le_rfl
  account := haccount
  password := nofun
  vouched := fun _ _ _ =>
    ⟨.refl _, nofun, nofun⟩

theorem Join.Current.advance {next : Join} (h : join.Current c)
    (hnext : join.advance c.saved c.now = some next) : next.Current c := by
  obtain ⟨request, snapshot, point⟩ := join
  cases point with
  | checkBan =>
    obtain ⟨hgate, hnext⟩ := ite_none_left_eq_some.mp hnext
    cases hnext
    refine ⟨h.persisted, h.bounded, h.account, nofun, ?_⟩
    intro hrevision hlive hpublished
    have hvouched := h.vouched hrevision hlive hpublished
    refine ⟨hvouched.terms, fun _ hpersisted => ?_, nofun⟩
    have hpersisted' : snapshot.persisted = true := hpersisted
    simpa [hpersisted'] using hgate
  | readRole =>
    obtain ⟨-, hnext⟩ := ite_none_left_eq_some.mp hnext
    cases hnext
    refine ⟨h.persisted, h.bounded, h.account, nofun, ?_⟩
    intro hrevision hlive hpublished
    have hvouched := h.vouched hrevision hlive hpublished
    exact ⟨hvouched.terms, hvouched.unbanned, nofun⟩
  | readPunitive =>
    cases hnext
    refine ⟨h.persisted, h.bounded, h.account, nofun, ?_⟩
    intro hrevision hlive hpublished
    have hvouched := h.vouched hrevision hlive hpublished
    refine ⟨hvouched.terms, hvouched.unbanned, fun punitive hread => ?_⟩
    exact (Option.some.inj hread).symm
  | verify =>
    obtain ⟨haccepted, hnext⟩ := ite_none_right_eq_some.mp hnext
    cases hnext
    refine ⟨h.persisted, h.bounded, h.account, ?_, ?_⟩
    · intro role' punitive' hpoint
      cases hpoint
      exact haccepted
    · intro hrevision hlive hpublished
      have hvouched := h.vouched hrevision hlive hpublished
      exact ⟨hvouched.terms, hvouched.unbanned, hvouched.punitive⟩
  | commit => cases hnext

theorem Effect.joins (h : Effect c action d) (hjoin : join ∈ d.joins) :
    (join ∈ c.joins ∧ action ≠ .life .reopen) ∨ (∃ request joins, c.control = none ∧
        request.authenticated = c.accounts request.id ∧
        join = ⟨request, c.room.snapshot, .checkBan⟩ ∧ d = { c with joins }) ∨
      ∃ old joins, old ∈ c.joins ∧ old.advance c.saved c.now = some join ∧
        d = { c with joins } := by
  cases h with
  | joinStarted hcontrol haccount =>
    obtain rfl | hold := mem_cons.mp hjoin
    · exact .inr (.inl ⟨_, _, hcontrol, haccount, rfl, rfl⟩)
    · exact .inl ⟨hold, by simp⟩
  | joinAdvanced hmem =>
    obtain hnew | hold := mem_append.mp hjoin
    · exact .inr (.inr ⟨_, _, hmem, mem_toList.mp hnew, rfl⟩)
    · exact .inl ⟨mem_of_mem_erase hold, by simp⟩
  | joinCommitted | joinAbandoned => exact .inl ⟨mem_of_mem_erase hjoin, by simp⟩
  | reopened => cases hjoin
  | streamed hstep =>
    obtain ⟨-, hd⟩ := streamStep_frame hstep
    rw [hd] at hjoin
    exact .inl ⟨hjoin, by simp⟩
  | _ => exact .inl ⟨hjoin, by simp⟩

theorem Effect.accounts (h : Effect c action d) : d.accounts = c.accounts := by
  cases h with
  | streamed hstep => rw [(streamStep_frame hstep).2]
  | _ => rfl

namespace System

variable {c d : System}

/-- Control is steady, and every join under way knows what its revision vouches
for. -/
structure Reading (c : System) : Prop where
  steady : c.Steady
  joins : ∀ join ∈ c.joins, join.Current c

theorem Reading.step (h : c.Reading) {action : Action} (hstep : c.step action = some d) :
    d.Reading := by
  have heffect := step_effect hstep
  refine ⟨h.steady.step hstep, fun join hjoin => ?_⟩
  obtain ⟨hold, hreopen⟩ | ⟨request, joins, hcontrol, haccount, rfl, rfl⟩ |
    ⟨old, joins, hold, hadvance, rfl⟩ := heffect.joins hjoin
  · obtain hrevises | hreopened := heffect.revises h.steady
    · exact (h.joins join hold).revises hrevises heffect.accounts
    · exact absurd hreopened hreopen
  · exact (Join.Current.started haccount).withJoins joins
  · exact ((h.joins old hold).advance hadvance).withJoins joins

theorem Initial.reading (h : c.Initial) : c.Reading :=
  ⟨h.steady, fun join hjoin => by rw [h.joins] at hjoin; cases hjoin⟩

/-! ## Committing -/

/-- A commit finds its snapshot fewer than 2^64 revisions old. -/
def NoWrap (c : System) : Action → Prop
  | .join (.commit join) => c.room.policyRevision < join.snapshot.revision + 2 ^ 64
  | _ => True

instance (c : System) (action : Action) : Decidable (c.NoWrap action) := by
  unfold NoWrap
  split <;> infer_instance

theorem Reading.vouched (h : c.Reading) {join : Join} (hjoin : join ∈ c.joins)
    (hcontrol : c.control = none)
    (hmatch : c.room.policySnapshotMatches join.snapshot.revision = true)
    (hwrap : c.room.policyRevision < join.snapshot.revision + 2 ^ 64) :
    join.Vouched c := by
  have hbounded := (h.joins join hjoin).bounded
  unfold Room.policySnapshotMatches at hmatch
  rw [Bool.and_eq_true, decide_eq_true_eq] at hmatch
  obtain ⟨hlive, hmod⟩ := hmatch
  refine (h.joins join hjoin).vouched ?_ (by simpa using hlive) (unpublished_of_free hcontrol)
  omega

variable {join : Join} {role : Option Role} {punitive : PunitiveState} {e : System}

theorem liveGate_of_vouched (h : join.Vouched c) (hcurrent : join.Current c)
    (hpoint : join.point = .commit role punitive)
    (hrole : resolvedRole c.saved join.request c.room.snapshot = role)
    (hknown : ¬ (join.snapshot.persisted && role.isNone) = true) :
    liveGate PasswordHash.verify c.saved c.now join.request c.room.snapshot none =
      .ok (role, punitive) := by
  have haccepted : passwordAccepted join.request c.room.snapshot role = true := by
    rw [← hcurrent.password _ _ hpoint, passwordAccepted, passwordAccepted,
      h.terms.passwordProtected, h.terms.passwordHash]
  rw [liveGate, hrole, h.terms.persisted,
    if_neg (by simpa using h.unbanned (by rw [hpoint]; rfl)), if_neg hknown,
    passwordGate_of_accepted haccepted, h.punitive punitive (by rw [hpoint]; rfl),
    persistedPunitive, persistedPunitive, h.terms.persisted]
  rfl

/-- The commit does what that of a join would do which read everything now, unless its saved
role has changed: it is placed alike, or refused and leaves no more than pruned bans. Where
the terms have changed, the commit does nothing. -/
def Atomic (join : Join) (c d : System) : Prop :=
  ∃ role punitive, join.point = .commit role punitive ∧
    (c.room.policySnapshotMatches join.snapshot.revision = false → d.room = c.room) ∧
    (c.room.policySnapshotMatches join.snapshot.revision = true →
      resolvedRole c.saved join.request c.room.snapshot = role →
      d.room = match liveAdmission PasswordHash.verify c.saved c.now c.room
          c.maxParticipantsPerRoom join.request none with
        | .ok placement =>
          (c.room.pruneExpiredBans c.now).place join.request c.nextSession placement
        | .error _ => c.room.pruneExpiredBans c.now)

/-- What a commit decides, it decides on terms that are still the room's. -/
theorem decideJoin_of_vouched (h : join.Vouched c) (room : Room) (maximum : Option ℕ) :
    room.decideJoin maximum join.request join.snapshot role punitive =
      room.decideJoin maximum join.request c.room.snapshot role punitive := by
  simp only [Room.decideJoin, Snapshot.waits, h.terms.persisted, h.terms.lobbyEnabled,
    h.terms.inviteOnly]

theorem commitJoin_of_vouched (h : join.Vouched c)
    (hmatch : c.room.policySnapshotMatches join.snapshot.revision = true) :
    (c.room.commitJoin c.maxParticipantsPerRoom c.now join.request join.snapshot role punitive
      c.nextSession).1 =
        match (c.room.pruneExpiredBans c.now).decideJoin c.maxParticipantsPerRoom join.request
          c.room.snapshot role punitive with
        | .ok placement =>
          (c.room.pruneExpiredBans c.now).place join.request c.nextSession placement
        | .error _ => c.room.pruneExpiredBans c.now := by
  rw [Room.commitJoin, if_pos hmatch]
  dsimp only
  rw [decideJoin_of_vouched h]
  cases (c.room.pruneExpiredBans c.now).decideJoin c.maxParticipantsPerRoom join.request
    c.room.snapshot role punitive <;> rfl

/-- In every run, a commit fewer than 2^64 revisions after its reading is atomic. -/
theorem joins_atomic {actions} (hinit : c.Initial) (hrun : run c actions = some d)
    (hwrap : d.NoWrap (.join (.commit join))) (hstep : d.step (.join (.commit join)) = some e) :
    Atomic join d e := by
  have hreading : d.Reading :=
    Transition.run_kept (fun _ _ _ h hstep => h.step hstep) hinit.reading hrun
  cases step_effect hstep with
  | @joinCommitted _ role punitive hpoint hcontrol hjoin =>
    refine ⟨role, punitive, hpoint, fun hmatch => by simp [Room.commitJoin, hmatch], ?_⟩
    intro hmatch hrole
    have hvouched := hreading.vouched hjoin hcontrol hmatch hwrap
    have hsnapshot : d.room.policySnapshotMatches d.room.snapshot.revision = true := by
      simp_all [Room.policySnapshotMatches, Room.snapshot]
    refine (commitJoin_of_vouched hvouched hmatch).trans ?_
    by_cases hknown : (join.snapshot.persisted && role.isNone) = true
    · -- neither knows a role
      have hrefused : ∃ text, (d.room.pruneExpiredBans d.now).decideJoin d.maxParticipantsPerRoom
          join.request d.room.snapshot role punitive = .error text := by
        simp only [Bool.and_eq_true, isNone_iff_eq_none] at hknown
        rw [hknown.2]
        unfold Room.decideJoin
        split
        · exact ⟨_, rfl⟩
        · simp [selectJoinRole, hvouched.terms.persisted, hknown.1]
      have hgate : ∃ error, liveGate PasswordHash.verify d.saved d.now join.request
          d.room.snapshot none = .error error := by
        rw [liveGate, hrole, hvouched.terms.persisted, if_pos hknown]
        split <;> exact ⟨_, rfl⟩
      obtain ⟨text, htext⟩ := hrefused
      obtain ⟨error, herror⟩ := hgate
      rw [htext, liveAdmission_gate_error herror]
    · rw [liveAdmission, liveGate_of_vouched hvouched (hreading.joins _ hjoin) hpoint hrole hknown]
      simp only [Except.bind, Room.commitJoin, hsnapshot, if_true]
      cases (d.room.pruneExpiredBans d.now).decideJoin d.maxParticipantsPerRoom join.request
        d.room.snapshot role punitive <;> rfl

/-- A guest reads the terms and the owner joins in between. -/
def guestJoin : Join :=
  ⟨⟨10, 2, false, some (.v4 5), none⟩, (opened .lounge).room.snapshot, .commit (some .guest) {}⟩

def ownerOvertakes : List Action :=
  Join.reads guestJoin.request guestJoin.snapshot (some .guest) {} ++
    Join.enters ⟨1, 1, true, none, none⟩ (opened .lounge).room.snapshot (some .owner) {}

/-- The guest is placed behind the owner, as if they had read everything now. -/
theorem guest_atomic : ∃ d e, (run (opened .lounge) ownerOvertakes = some d ∧
      d.step (.join (.commit guestJoin)) = some e ∧
      e.room.participants.entries.map (·.id) = [1, 10]) ∧ Atomic guestJoin d e := by
  obtain ⟨d, hrun, hwrap, hsome⟩ : ∃ d, run (opened .lounge) ownerOvertakes = some d ∧
      d.NoWrap (.join (.commit guestJoin)) ∧
      ((d.step (.join (.commit guestJoin))).any fun e =>
        decide (e.room.participants.entries.map (·.id) = [1, 10])) = true :=
    Transition.exists_of_any (by decide +kernel)
  obtain ⟨e, hstep, hplaced⟩ := Transition.exists_of_any hsome
  exact ⟨d, e, ⟨hrun, hstep, hplaced⟩, joins_atomic (opened_initial _) hrun hwrap hstep⟩

/-! ## The counter comes round -/

def revised (c : System) (n : ℕ) : System :=
  { c with room := { c.room with policyRevision := c.room.policyRevision + n } }

def restate (settings : Settings) (now : Instant) : List Action :=
  [.policy (.authorize (.account settings.ownerId)
      (.identity settings.displayName settings.topic)),
    .policy (.save none), .policy (.publish now)]

structure Quiet (c : System) : Prop where
  control : c.control = none
  live : c.room.deleting = false
  persisted : c.room.persisted = true
  present : c.saved.present = true
  settings : c.room.settings = some c.saved.settings

instance (c : System) : Decidable c.Quiet :=
  decidable_of_iff (c.control = none ∧ c.room.deleting = false ∧
      c.room.persisted = true ∧ c.saved.present = true ∧
      c.room.settings = some c.saved.settings)
    ⟨fun h => ⟨h.1, h.2.1, h.2.2.1, h.2.2.2.1, h.2.2.2.2⟩,
      fun h => ⟨h.control, h.live, h.persisted, h.present, h.settings⟩⟩

theorem Quiet.restate (h : c.Quiet) :
    run c (restate c.saved.settings c.now) = some (c.revised 1) := by
  let settings := c.saved.settings
  let operation : Operation :=
    ⟨.account settings.ownerId, .owner, .identity settings settings.displayName settings.topic⟩
  have hactor : authority c.room c.saved (.account settings.ownerId) = some ⟨.owner, true⟩ := by
    simp [authority, Saved.currentRole, settings, h.live, h.persisted, h.present]
    decide
  have hplan : planOperation c.room c.saved c.now (.account settings.ownerId)
      (.identity settings.displayName settings.topic) = some operation := by
    simp [planOperation, hactor, planFor, planIdentity, h.settings, settings, operation]
  have hauthorize : c.step (.policy (.authorize (.account settings.ownerId)
      (.identity settings.displayName settings.topic))) =
        some { c with control := some (.saving operation) } := by
    simp [step, policyStep, authorize, h.control, prunedFor, hplan, h.persisted]
  have hsave : { c with control := some (.saving operation) }.step
      (.policy (.save none)) = some { c with control := some (.publishing operation .saved) } := rfl
  have hpublish : { c with control := some (.publishing operation .saved) }.step
      (.policy (.publish c.now)) = some (c.revised 1) := by
    simp [step, policyStep, publish, operation, Operation.mayPublish, Change.publish,
      revised, Room.bumpPolicy, h.control, settings, ← h.settings]
  simp only [run, Transition.run, System.restate]
  rw [hauthorize, bind_some, hsave, bind_some, hpublish, bind_some]

theorem Quiet.revised (h : c.Quiet) (n : ℕ) : (c.revised n).Quiet :=
  ⟨h.control, h.live, h.persisted, h.present, h.settings⟩

/-- Revisions alone bring the counter anywhere. -/
theorem Quiet.run_revised (h : c.Quiet) (n : ℕ) :
    ∃ actions, run c actions = some (c.revised n) := by
  induction n with
  | zero => exact ⟨[], rfl⟩
  | succ n ih =>
    obtain ⟨actions, hactions⟩ := ih
    exact ⟨actions ++ System.restate c.saved.settings c.now,
      Transition.run_trans hactions (h.revised n).restate⟩

end System

end SimplestChat.Policy
