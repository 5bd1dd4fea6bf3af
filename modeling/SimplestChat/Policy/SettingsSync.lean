import SimplestChat.Policy.SettingsPaths
import SimplestChat.Policy.Revisions

/-!
# Runtime settings and saved settings

The runtime room of a saved room keeps a copy of the row's settings and of its
password hash. Between the database work of a change and its publication the copy
is behind, by exactly what the publication is going to do. At rest the two are
the same, which is what the socket's change of the settings relies on: it computes
from the copy and assigns to the row.
-/

namespace SimplestChat.Policy

open Option Transaction Policy.Change Policy.Room

/-! ## What a change does to the settings and the hash -/

structure Terms where
  settings : Option Settings
  passwordHash : Option PasswordHash

def Room.terms (room : Room) : Terms := ⟨room.settings, room.passwordHash⟩

def Saved.terms (saved : Saved) : Terms := ⟨some saved.settings, saved.passwordHash⟩

def Change.republish (roomId : String) (terms : Terms) : Change → Terms
  | .settings updated _ _ passwordHash => ⟨some updated, passwordHash.getD terms.passwordHash⟩
  | .topic text =>
    { terms with
      settings :=
        some { terms.settings.getD (.defaults roomId) with topic := some text } }
  | .identity published _ _ => { terms with settings := some published }
  | .history days =>
    { terms with
      settings := terms.settings.map fun s => { s with historyRetentionDays := days } }
  | _ => terms

def Change.Prepared (current : Settings) : Change → Prop
  | .settings updated patch password passwordHash =>
    validUpdate current patch password = true ∧
      updated = applySettingsUpdate current patch password ∧
      ∃ salt, passwordHash = hashRoomPassword password salt
  | .identity published displayName text =>
    published = { current with displayName, topic := text }
  | _ => True

theorem Room.terms_of_idle {before after : Room} (h : after.idle = before.idle) :
    after.terms = before.terms :=
  eq_of_idle terms (fun _ => rfl) h

theorem prunedFor_terms (room : Room) (now : Instant) (request : Request) :
    (prunedFor room now request).terms = room.terms := by
  cases request <;> rfl

variable {change : Change} {terms : Terms}

theorem Change.republish_immediate (h : change.immediate = true)
    {roomId : String} : change.republish roomId terms = terms := by
  cases change with
  | removal | removeBan => rfl
  | sanction | role | memberRole | settings | topic | identity | history | unban => cases h

theorem Change.publish_terms (room : Room) (answer : Answer) (now listedAt : Instant)
    (change : Change) :
    (change.publish room answer now listedAt).terms = change.republish room.id room.terms := by
  cases change with
  | sanction publication => exact (terms_of_idle (room.publishSanction_idle publication)).trans rfl
  | removal publication =>
    change (ite _ _ _ : Room).terms = room.terms
    split
    · unfold publishRemoval
      dsimp only
      by_cases hban : publication.ban = true
      · rw [if_pos hban, if_pos hban]
        rfl
      · rw [if_neg hban, if_neg hban]
        rfl
    · rfl
  | role target newRole => exact (terms_of_idle (room.publishRole_idle target newRole)).trans rfl
  | settings updated patch password passwordHash =>
    exact terms_of_idle (room.publishSettings_idle updated passwordHash)
  | memberRole | topic | identity | history => rfl
  | unban user =>
    change (unbanInMemory room user _).terms = room.terms
    unfold unbanInMemory
    split <;> rfl
  | removeBan ban =>
    cases answer with
    | ban removed =>
      change (publishRemovedBan room removed).terms = room.terms
      unfold publishRemovedBan
      split <;> rfl
    | saved | userBan =>
      change (removeListedBan room ban).terms = room.terms
      unfold removeListedBan
      split <;> rfl

variable {saved : Saved}

/-- The work does to the row what the publication does to the room. -/
theorem Change.work_terms {written : Saved} {answer : Answer}
    (hwork : change.work saved = .ok (written, answer))
    (hprepared : change.Prepared saved.settings) (roomId : String) :
    written.present = saved.present ∧ written.terms = change.republish roomId saved.terms := by
  cases change with
  | removal publication =>
    obtain rfl := removal_work hwork
    by_cases hban : publication.ban = true
    · rw [if_pos hban]
      unfold Saved.writeBan
      split <;> exact ⟨rfl, rfl⟩
    · rw [if_neg hban]
      exact ⟨rfl, rfl⟩
  | settings =>
    obtain ⟨-, rfl, -⟩ := hprepared
    cases hwork
    exact ⟨rfl, rfl⟩
  | identity =>
    cases hwork
    rw [hprepared]
    exact ⟨rfl, rfl⟩
  | sanction | role | memberRole | topic | history | unban | removeBan =>
    cases hwork
    exact ⟨rfl, rfl⟩

/-- Settings that a row can hold; a room without settings has no password. -/
structure Terms.Proper (terms : Terms) : Prop where
  settings : ∀ settings, terms.settings = some settings → Storable settings terms.passwordHash
  unset : terms.settings = none → terms.passwordHash = none

theorem Terms.Proper.of_storable {settings : Settings} {passwordHash : Option PasswordHash}
    (h : Storable settings passwordHash) : Proper ⟨some settings, passwordHash⟩ where
  settings := by
    rintro _ ⟨⟩
    exact h
  unset := by
    intro hnone
    cases hnone

theorem Terms.Proper.current (h : terms.Proper) (roomId : String) :
    Storable (terms.settings.getD (.defaults roomId)) terms.passwordHash := by
  cases hsettings : terms.settings with
  | none =>
    rw [h.unset hsettings]
    exact ⟨rfl, rfl⟩
  | some settings => exact h.settings settings hsettings

theorem Terms.Proper.republish (h : terms.Proper) {roomId : String}
    (hprepared : change.Prepared (terms.settings.getD (.defaults roomId))) :
    (change.republish roomId terms).Proper := by
  have hcurrent := h.current roomId
  cases change with
  | settings =>
    obtain ⟨hvalid, rfl, salt, rfl⟩ := hprepared
    exact .of_storable (hcurrent.update hvalid salt)
  | topic => exact .of_storable ⟨hcurrent.checks, hcurrent.protection⟩
  | identity published displayName text =>
    have hpublished : published = { terms.settings.getD (.defaults roomId) with
      displayName, topic := text } := hprepared
    rw [hpublished]
    exact .of_storable ⟨hcurrent.checks, hcurrent.protection⟩
  | history =>
    constructor
    · intro settings hsettings
      obtain ⟨before, hbefore, rfl⟩ := map_eq_some_iff.mp hsettings
      have hstorable := h.settings before hbefore
      exact ⟨hstorable.checks, hstorable.protection⟩
    · intro hnone
      exact h.unset (map_eq_none_iff.mp hnone)
  | sanction | removal | role | memberRole | unban | removeBan => exact h

theorem Terms.Proper.written {written : Saved} {answer : Answer}
    (h : saved.terms.Proper) (hprepared : change.Prepared saved.settings)
    (hwork : change.work saved = .ok (written, answer)) : written.terms.Proper := by
  rw [(work_terms hwork hprepared "").2]
  exact h.republish hprepared

/-! ## Planning prepares -/

theorem WirePatch.toPatch_surjective (patch : SettingsPatch) (password : Option (Option String)) :
    ∃ wire : WirePatch, wire.toPatch = patch ∧ wire.password = password := by
  have hlimit : ∀ limit : Option (Option ℕ),
      (limit.map (·.map Int.ofNat)).map (·.map Int.toNat) = limit := by
    intro limit
    match limit with
    | none => rfl
    | some none => rfl
    | some (some n) => rfl
  refine ⟨⟨patch.moderated, patch.lobbyEnabled, patch.guestsAllowed,
    patch.guestsCanBroadcast, patch.maxBroadcasters.map (·.map Int.ofNat),
    patch.maxParticipants.map (·.map Int.ofNat), patch.allowScreenSharing,
    patch.allowChat, patch.allowVideo, patch.requireRegistration, patch.inviteOnly,
    patch.pushToTalk, patch.secret, password⟩, ?_, rfl⟩
  unfold WirePatch.toPatch
  rw [hlimit, hlimit]

variable {room : Room} {actor : Authority} {patch : SettingsPatch}
  {password : Option (Option String)}

theorem planSettings_prepared {salt : Salt}
    (h : planSettings room actor patch password salt = some change) :
    change.Prepared (room.settings.getD (.defaults room.id)) := by
  obtain ⟨wire, rfl, rfl⟩ := WirePatch.toPatch_surjective patch password
  obtain ⟨-, publication, hpath, rfl⟩ := planSettings_eq_some.mp h
  obtain ⟨hvalid, hpublication⟩ := updateRoomSettingsControlled_eq_ok.mp hpath
  obtain ⟨-, hpublication⟩ := ite_none_left_eq_some.mp hpublication.symm
  cases hpublication
  exact ⟨hvalid, rfl, salt, rfl⟩

theorem planSettingsChange_prepared {salt : Salt}
    (h : planSettingsChange saved actor patch password salt = some change) :
    change.Prepared saved.settings := by
  obtain ⟨wire, rfl, rfl⟩ := WirePatch.toPatch_surjective patch password
  obtain ⟨-, publication, hpath, rfl⟩ := planSettingsChange_eq_some.mp h
  obtain ⟨hvalid, rfl⟩ := settingsChange_eq_ok.mp hpath
  exact ⟨hvalid, rfl, salt, rfl⟩

theorem planFor_settings (hapart : room.Apart) {now : Instant} {requester : Requester}
    {request : Request} {updated : Settings}
    {passwordHash : Option (Option PasswordHash)}
    (h : planFor room saved now actor requester request =
      some (.settings updated patch password passwordHash)) :
    ∃ patch password salt, request = .settings patch password salt := by
  cases request with
  | settings patch password salt => exact ⟨patch, password, salt, rfl⟩
  | sanction =>
    obtain ⟨_, hchange, -⟩ := planSanction_fits hapart h
    cases hchange
  | kick =>
    obtain ⟨_, -, hchange, -⟩ := planKick_fits h
    cases hchange
  | ban =>
    obtain ⟨_, _, -, hchange, -⟩ := planBan_fits hapart h
    cases hchange
  | role =>
    cases requester with
    | socket => cases (planRole_fits h).1
    | account => cases (planRoleChange_fits h).1
  | memberRole =>
    cases requester with
    | socket =>
      obtain ⟨-, ⟨hchange, -⟩ | hchange⟩ := planMemberRole_fits h
      · cases hchange
      · cases hchange
    | account => cases h
  | identity =>
    cases requester with
    | socket => cases h
    | account =>
      obtain ⟨settings, -, h⟩ := bind_eq_some_iff.mp h
      cases (ite_none_right_eq_some.mp h).2
  | topic | history | unban =>
    cases requester with
    | socket => cases (ite_none_right_eq_some.mp h).2
    | account => cases h
  | removeBan => cases (ite_none_right_eq_some.mp h).2

/-- Whatever is planned is computed from the room's settings; the administration
computes from the row, which says the same. -/
theorem planOperation_prepared (hapart : room.Apart)
    {now : Instant} {requester : Requester} {request : Request} {operation : Operation}
    (h : planOperation room saved now requester request = some operation)
    (hsynced : room.persisted = true → room.deleting = false → saved.terms = room.terms) :
    operation.change.Prepared (room.settings.getD (.defaults room.id)) := by
  have hfits := planOperation_fits hapart h
  obtain ⟨actor, hactor, hchange, hrequester, -⟩ := planOperation_eq_some h
  cases hkind : operation.change with
  | settings updated patch password =>
    rw [hkind] at hchange
    obtain ⟨patch, password, salt, rfl⟩ := planFor_settings hapart hchange
    cases requester with
    | socket => exact planSettings_prepared hchange
    | account user =>
      have hterms := hsynced (hfits.account user hrequester) hfits.live
      have hsettings : room.settings = some saved.settings := (congrArg Terms.settings hterms).symm
      rw [hsettings]
      exact planSettingsChange_prepared hchange
  | identity =>
    have hidentity := hfits.change
    rw [hkind] at hidentity
    obtain ⟨current, hcurrent, rfl⟩ := hidentity
    rw [hcurrent]
    rfl
  | sanction | removal | role | memberRole | topic | history | unban | removeBan => trivial

/-! ## Row and room along a run -/

namespace System

def promised (c : System) : Terms :=
  match c.control with
  | some (.publishing operation _) => operation.change.republish c.room.id c.room.terms
  | _ => c.room.terms

theorem promised_of_control {c : System}
    (h : ∀ operation answer, c.control ≠ some (.publishing operation answer)) :
    c.promised = c.room.terms := by
  unfold promised
  split
  · rename_i hcontrol
    exact absurd hcontrol (h _ _)
  · rfl

structure Synced (c : System) : Prop where
  room : c.room.terms.Proper
  row : c.saved.present = true → c.saved.terms.Proper
  prepared : ∀ operation, c.operation = some operation →
    operation.change.Prepared (c.room.settings.getD (.defaults c.room.id))
  /-- a room that is being deleted may come back -/
  synced : c.room.persisted = true →
    c.room.deleting = false ∨ c.control = some .deleting → c.saved.terms = c.promised

variable {c d : System}

theorem Synced.same (h : c.Synced) (hid : d.room.id = c.room.id)
    (hterms : d.room.terms = c.room.terms)
    (hpersisted : d.room.persisted = c.room.persisted)
    (hdeleting : d.room.deleting = c.room.deleting)
    (hpresent : d.saved.present = c.saved.present)
    (hsaved : d.saved.terms = c.saved.terms) (hcontrol : d.control = c.control) :
    d.Synced where
  room := hterms ▸ h.room
  row := by
    rw [hpresent, hsaved]
    exact h.row
  prepared := by
    have hsettings : d.room.settings = c.room.settings := congrArg Terms.settings hterms
    unfold operation
    rw [hcontrol, hid, hsettings]
    exact h.prepared
  synced := by
    have hpromised : d.promised = c.promised := by
      unfold promised
      rw [hcontrol, hid, hterms]
    rw [hpersisted, hdeleting, hcontrol, hsaved, hpromised]
    exact h.synced

theorem Synced.rest (h : c.Synced) (hterms : d.room.terms = c.room.terms)
    (hpersisted : d.room.persisted = c.room.persisted)
    (hpresent : d.saved.present = true → c.saved.present = true)
    (hsaved : d.saved.terms = c.saved.terms) (hoperation : d.operation = none)
    (hbefore : c.room.persisted = true → d.room.deleting = false ∨ d.control = some .deleting →
      (c.room.deleting = false ∨ c.control = some .deleting) ∧
        ∀ operation answer, c.control ≠ some (.publishing operation answer)) :
    d.Synced where
  room := hterms ▸ h.room
  row := by
    intro hd
    rw [hsaved]
    exact h.row (hpresent hd)
  prepared := by
    intro operation hd
    rw [hoperation] at hd
    cases hd
  synced := by
    intro hd hlive
    rw [hpersisted] at hd
    obtain ⟨hlive', hquiet⟩ := hbefore hd hlive
    have hpromised : d.promised = d.room.terms := by
      refine promised_of_control fun operation answer hcontrol => ?_
      rw [operation_publishing hcontrol] at hoperation
      cases hoperation
    rw [hpromised, hsaved, hterms, h.synced hd hlive', promised_of_control hquiet]

theorem created_terms (saved : Saved) (id : String) (ceiling : Option ℕ) :
    (saved.present = true ∧ (Room.create id saved.load ceiling).terms = saved.terms) ∨
      (Room.create id saved.load ceiling).persisted = false ∧
        (Room.create id saved.load ceiling).terms = ⟨none, none⟩ := by
  unfold Saved.load
  by_cases hpresent : saved.present = true
  · rw [if_pos hpresent]
    exact .inl ⟨hpresent, rfl⟩
  · rw [if_neg hpresent]
    exact .inr ⟨rfl, rfl⟩

theorem Synced.created {ceiling : Option ℕ} {id : String}
    (hrow : d.saved.present = true → d.saved.terms.Proper)
    (hroom : d.room = Room.create id d.saved.load ceiling)
    (hcontrol : d.control = none) :
    d.Synced := by
  refine ⟨?_, hrow, ?_, ?_⟩
  · rw [hroom]
    obtain ⟨hpresent, hterms⟩ | ⟨-, hterms⟩ := created_terms d.saved id ceiling
    · rw [hterms]
      exact hrow hpresent
    rw [hterms]
    refine ⟨fun settings hsome => ?_, fun _ => rfl⟩
    cases hsome
  · intro operation hd
    rw [System.operation, hcontrol] at hd
    cases hd
  · intro hpersisted _
    rw [promised_of_control fun operation answer => by simp [hcontrol]]
    obtain ⟨-, hterms⟩ | ⟨hadhoc, -⟩ := created_terms d.saved id ceiling
    · rw [hroom, hterms]
    · rw [hroom, hadhoc] at hpersisted
      cases hpersisted

variable {operation : Operation}

theorem Synced.saving (h : c.Synced) (hsteady : c.Steady)
    (hheld : c.control = some (.saving operation)) :
    c.saved.terms = c.room.terms ∧ operation.change.Prepared c.saved.settings := by
  have hfits := hsteady.fits operation (operation_saving hheld)
  have hterms := h.synced (hsteady.saving operation hheld) (.inl hfits.live)
  rw [promised_of_control fun operation answer => by simp [hheld]] at hterms
  refine ⟨hterms, ?_⟩
  have hprepared := h.prepared operation (operation_saving hheld)
  have hsettings : c.room.settings = some c.saved.settings := (congrArg Terms.settings hterms).symm
  rw [hsettings] at hprepared
  exact hprepared

theorem Synced.planned (h : c.Synced) (hapart : c.room.Apart) (hcontrol : c.control = none)
    {requester : Requester} {request : Request} {held : Held}
    (hplan : planOperation (prunedFor c.room c.now request) c.saved c.now requester
      request = some operation)
    (hheld : (c.room.persisted = true ∧ held = .saving operation) ∨
      (c.room.persisted = false ∧ operation.change.immediate = false ∧
        held = .publishing operation .saved)) :
    ({ c with room := prunedFor c.room c.now request, control := some held } : System).Synced := by
  have hterms := prunedFor_terms c.room c.now request
  have hpersisted := prunedFor_persisted c.room c.now request
  have hquiet : c.promised = c.room.terms :=
    promised_of_control fun operation answer => by simp [hcontrol]
  have hprepared := planOperation_prepared
    (hapart.noNewcomers (turnLaw_noNewcomers.prunedFor c.room c.now request)) hplan (by
      intro hsaved hlive
      rw [hterms, ← hquiet]
      refine h.synced (hpersisted ▸ hsaved) (.inl ?_)
      rw [← hlive]
      cases request <;> rfl)
  refine ⟨hterms ▸ h.room, h.row, ?_, ?_⟩
  · intro other hother
    have hsame : other = operation := by
      obtain ⟨-, rfl⟩ | ⟨-, -, rfl⟩ := hheld <;> exact (Option.some.inj hother).symm
    exact hsame ▸ hprepared
  intro hsaved hlive
  have hsaved' : c.room.persisted = true := hpersisted ▸ hsaved
  obtain ⟨-, rfl⟩ | ⟨hadhoc, -, -⟩ := hheld
  · refine (h.synced hsaved' ?_).trans (hquiet.trans hterms.symm)
    have hlive' := hlive.resolve_right nofun
    refine .inl ?_
    rw [← hlive']
    cases request <;> rfl
  · rw [hadhoc] at hsaved'
    cases hsaved'

theorem Synced.committed (h : c.Synced) (hsteady : c.Steady)
    (hheld : c.control = some (.saving operation)) {written : Saved} {answer : Answer}
    (hwork : operation.change.work c.saved = .ok (written, answer)) :
    ({ c with saved := written, control := some (.publishing operation answer) } :
      System).Synced := by
  obtain ⟨hterms, hprepared⟩ := h.saving hsteady hheld
  obtain ⟨hpresent, hwritten⟩ := work_terms hwork hprepared c.room.id
  refine ⟨h.room, ?_, ?_, ?_⟩
  · intro hthere
    exact (h.row (hpresent ▸ hthere)).written hprepared hwork
  · intro other hother
    cases Option.some.inj hother
    exact h.prepared operation (operation_saving hheld)
  · intro _ _
    rw [hterms] at hwritten
    exact hwritten

theorem Synced.quarantined (h : c.Synced) (hsteady : c.Steady)
    (hheld : c.control = some (.saving operation)) {fault : Option (Fault DriverError)}
    (hsaved : d.saved = (operation.change.persist c.saved fault).1)
    (hroom : d.room = c.room.tombstone.clearMembers) (hcontrol : d.control = none) :
    d.Synced := by
  obtain ⟨-, hprepared⟩ := h.saving hsteady hheld
  refine ⟨hroom ▸ h.room, ?_, ?_, ?_⟩
  · intro hthere
    rw [hsaved] at hthere ⊢
    obtain hsame | ⟨-, answer, hwork⟩ := operation.change.persist_cases c.saved fault
    · rw [hsame] at hthere ⊢
      exact h.row hthere
    · have hpresent := (work_terms hwork hprepared "").1
      exact (h.row (hpresent ▸ hthere)).written hprepared hwork
  · intro other hother
    rw [System.operation, hcontrol] at hother
    cases hother
  · intro _ hlive
    rw [hroom, hcontrol] at hlive
    cases hlive.resolve_right (by simp)

theorem Synced.published (h : c.Synced) (hsteady : c.Steady) {answer : Answer}
    (hheld : c.control = some (.publishing operation answer)) {now listedAt : Instant}
    (hroom : d.room = operation.change.publish c.room answer now listedAt)
    (hsaved : d.saved = c.saved) (hcontrol : d.control = none) : d.Synced := by
  have hoperation := operation_publishing hheld
  have hterms : d.room.terms = operation.change.republish c.room.id c.room.terms := by
    rw [hroom]
    exact publish_terms _ _ _ _ _
  refine ⟨?_, hsaved ▸ h.row, ?_, ?_⟩
  · rw [hterms]
    exact h.room.republish (h.prepared operation hoperation)
  · intro other hother
    rw [System.operation, hcontrol] at hother
    cases hother
  · intro hpersisted _
    rw [promised_of_control fun operation answer => by simp [hcontrol], hterms, hsaved]
    have hrepublished := operation.change.publish_republished c.room answer now listedAt
    rw [hroom, hrepublished.persisted] at hpersisted
    have hpromised := h.synced hpersisted (.inl (hsteady.fits operation hoperation).live)
    rw [hpromised, promised, hheld]

theorem commitJoin_terms (room : Room) (maximum : Option ℕ) (now : Instant)
    (request : JoinRequest) (snapshot : Snapshot) (resolved : Option Role)
    (persisted : PunitiveState) (session : MediaSession) :
    let committed := (room.commitJoin maximum now request snapshot resolved persisted
      session).1
    committed.id = room.id ∧ committed.terms = room.terms ∧
      committed.persisted = room.persisted ∧ committed.deleting = room.deleting := by
  intro committed
  obtain hsame | hpruned | ⟨placement, -, -, hcommit⟩ :=
    room.commitJoin_cases maximum now request snapshot resolved persisted session
  · rw [show committed = room from hsame]
    exact ⟨rfl, rfl, rfl, rfl⟩
  · rw [show committed = room.pruneExpiredBans now from hpruned]
    exact ⟨rfl, rfl, rfl, rfl⟩
  · rw [show committed = _ from congrArg Prod.fst hcommit]
    by_cases hlobbied : placement.lobbied = true
    · rw [place_lobbied _ hlobbied]
      exact ⟨rfl, rfl, rfl, rfl⟩
    · rw [place_inside _ hlobbied]
      exact ⟨rfl, rfl, rfl, rfl⟩

theorem Synced.step (h : c.Synced) (hsteady : c.Steady) {action : Action}
    (hstep : c.step action = some d) : d.Synced := by
  cases step_effect hstep with
  | ticked | joinStarted | joinAdvanced | joinAbandoned | admissionRefused | denied
  | bansListed => exact h.same rfl rfl rfl rfl rfl rfl rfl
  | inviteRedeemed =>
    rename_i role hmay
    refine h.same rfl rfl rfl rfl ?_ ?_ rfl <;> unfold Saved.grant <;> split <;> rfl
  | joinCommitted =>
    rename_i join role punitive hpoint hcontrol hjoin
    obtain ⟨hid, hterms, hpersisted, hdeleting⟩ := commitJoin_terms c.room
      c.maxParticipantsPerRoom c.now join.request join.snapshot role punitive c.nextSession
    exact h.same hid hterms hpersisted hdeleting rfl rfl rfl
  | left => refine h.same ?_ ?_ ?_ ?_ rfl rfl rfl <;> unfold Room.removeForSender <;> split <;> rfl
  | rebound => refine h.same ?_ ?_ ?_ ?_ rfl rfl rfl <;> unfold Room.rebind <;> split <;> rfl
  | refused =>
    rename_i requester request hcontrol
    refine h.same ?_ ?_ ?_ ?_ rfl rfl rfl <;> cases request <;> rfl
  | streamed hstream =>
    obtain ⟨hidle, hd⟩ := streamStep_frame hstream
    refine h.same (Room.eq_of_idle Room.id (fun _ => rfl) hidle)
      (Room.terms_of_idle hidle) (Room.eq_of_idle Room.persisted (fun _ => rfl) hidle)
      (Room.eq_of_idle Room.deleting (fun _ => rfl) hidle) ?_ ?_ ?_ <;> rw [hd]
  | changedAtOnce =>
    rename_i request operation hcontrol hadhoc hplan himmediate
    have hrepublished := Change.publish_republished (prunedFor c.room c.now request)
      .saved c.now c.now operation.change
    refine h.rest ?_ ?_ id rfl ?_ fun hpersisted => by simp [hadhoc] at hpersisted
    · rw [Change.publish_terms, Change.republish_immediate himmediate]
      exact prunedFor_terms c.room c.now request
    · exact hrepublished.persisted.trans (prunedFor_persisted c.room c.now request)
    · rw [System.operation, hcontrol]
      rfl
  | admissionStarted hcontrol =>
    exact h.rest rfl rfl id rfl rfl fun _ hlive =>
      ⟨.inl (hlive.resolve_right (by simp)), by simp [hcontrol]⟩
  | admitted hheld | admissionDropped hheld | rejected hheld =>
    exact h.rest rfl rfl id rfl rfl fun _ hlive =>
      ⟨.inl (hlive.resolve_right (by simp)), by simp [hheld]⟩
  | reportRefused hheld hadhoc =>
    exact h.rest rfl rfl id rfl rfl fun hpersisted => by simp [hadhoc] at hpersisted
  | publicationLost hheld htime hmay =>
    rw [hsteady.mayPublish hheld] at hmay
    cases hmay
  | deleteStarted hcontrol hlive =>
    exact h.rest rfl rfl id rfl rfl fun _ _ => ⟨.inl hlive, by simp [hcontrol]⟩
  | deleteRejected hheld => exact h.rest rfl rfl id rfl rfl fun _ _ => ⟨.inr hheld, by simp [hheld]⟩
  | deleted hheld => exact h.rest rfl rfl (by simp) rfl rfl fun _ _ => ⟨.inr hheld, by simp [hheld]⟩
  | deleteUnknown hheld =>
    refine h.rest rfl rfl (fun hpresent => ?_) rfl rfl fun _ _ =>
      ⟨.inr hheld, by simp [hheld]⟩
    exact (Bool.and_eq_true_iff.mp hpresent).1
  | closedForRejoin hcontrol | evicted hcontrol =>
    refine h.rest rfl rfl id rfl ?_ fun _ hlive => ?_
    · rw [System.operation, hcontrol]
      rfl
    · rw [hcontrol] at hlive
      cases hlive.resolve_right (by simp)
  | reopened hcontrol => exact .created h.row rfl hcontrol
  | planned hcontrol hplan hheld => exact h.planned hsteady.apart hcontrol hplan hheld
  | committed hheld hwork => exact h.committed hsteady hheld hwork
  | quarantined hheld => exact h.quarantined hsteady hheld rfl rfl rfl
  | published hheld => exact h.published hsteady hheld rfl rfl rfl

/-- Row and room along a run whose row meets the table's constraints. -/
theorem synced_of_run {actions : List Action} (hinit : c.Initial) (hrow : c.saved.present = true →
      ∃ row, loadRoom row = (c.saved.settings, c.saved.passwordHash))
    (hrun : run c actions = some d) : d.Synced := by
  have hproper : c.saved.present = true → c.saved.terms.Proper :=
    fun hpresent => .of_storable (storable_iff.mpr (hrow hpresent))
  obtain ⟨id, ceiling, hroom⟩ := hinit.room
  have hkeeps : ∀ (x : System) a y, x.Steady ∧ x.Synced → x.step a = some y → y.Steady ∧ y.Synced :=
    fun _ _ _ hx hstep => ⟨hx.1.step hstep, hx.2.step hx.1 hstep⟩
  have hstart : c.Steady ∧ c.Synced := ⟨hinit.steady, .created hproper hroom hinit.control⟩
  exact (Transition.run_kept hkeeps hstart hrun).2

theorem Synced.loaded (h : d.Synced) (hpersisted : d.room.persisted = true)
    (hlive : d.room.deleting = false) (hcontrol : d.control = none) :
    ∃ row, loadRoom row = (d.saved.settings, d.saved.passwordHash) ∧
      d.room.settings = some (loadRoom row).1 ∧
      d.room.passwordHash = (loadRoom row).2 := by
  have hterms := h.synced hpersisted (.inl hlive)
  rw [promised_of_control fun operation answer => by simp [hcontrol]] at hterms
  have hsettings : d.room.settings = some d.saved.settings := (congrArg Terms.settings hterms).symm
  have hhash : d.room.passwordHash = d.saved.passwordHash :=
    (congrArg Terms.passwordHash hterms).symm
  have hstorable := h.room.settings d.saved.settings hsettings
  obtain ⟨row, hrow⟩ := storable_iff.mp hstorable
  rw [show d.room.terms.passwordHash = d.saved.passwordHash from hhash] at hrow
  exact ⟨row, hrow, by rw [hsettings, hrow], by rw [hhash, hrow]⟩

/-- Each path stores what it publishes, the two agree, and along every run the
runtime settings stay within the constraints, marked as protected exactly when a
hash is stored, and at rest equal to what loading the row gives. -/
theorem settings_refine_rows {actions : List Action} (hinit : c.Initial)
    (hrow : c.saved.present = true → ∃ row, loadRoom row = (c.saved.settings, c.saved.passwordHash))
    (hrun : run c actions = some d) :
    (∀ (row : RoomRow) (patch : WirePatch) (salt : Salt) (publication : SettingsPublication),
      (updateRoomSettingsControlled (loadRoom row).1 (loadRoom row).2 patch salt =
          .ok (some publication) →
        ∃ row', row.updateRoomSettings patch.toPatch publication.2 = some row' ∧
          loadRoom row' = publishOnto (loadRoom row) (some publication)) ∧
      (settingsChange (loadRoom row).1 patch salt = .ok publication →
        ∃ row', row.overwriteSettings publication.1 publication.2 = some row' ∧
          loadRoom row' = publishOnto (loadRoom row) (some publication))) ∧
    (∀ (terms : Settings × Option PasswordHash) (patch : WirePatch) (salt : Salt),
      (updateRoomSettingsControlled terms.1 terms.2 patch salt).toOption.map
          (publishOnto terms) =
        (settingsChange terms.1 patch salt).toOption.map fun publication =>
          publishOnto terms (some publication)) ∧
    (∀ settings, d.room.settings = some settings → capacitiesAgree settings = true ∧
        (settings.passwordProtected = true ↔ d.room.passwordHash.isSome = true)) ∧
    (d.room.settings = none → d.room.passwordHash = none) ∧
    (d.room.persisted = true → d.room.deleting = false → d.control = none →
      ∃ row, loadRoom row = (d.saved.settings, d.saved.passwordHash) ∧
        d.room.settings = some (loadRoom row).1 ∧
        d.room.passwordHash = (loadRoom row).2) := by
  have hd := synced_of_run hinit hrow hrun
  refine ⟨?_, paths_agree, ?_, hd.room.unset, hd.loaded⟩
  · intro row patch salt publication
    exact ⟨updateRoomSettings_refines row, overwriteSettings_refines row⟩
  intro settings hsettings
  have hstorable := hd.room.settings settings hsettings
  have hchecks := hstorable.checks
  simp only [meetsChecks, Bool.and_eq_true] at hchecks
  refine ⟨hchecks.2, ?_⟩
  rw [hstorable.protection]
  exact Iff.rfl

def limitsAndProtects : List Action :=
  Join.enters ⟨1, 1, true, none, none⟩ (opened .lounge).room.snapshot (some .owner) {} ++
    [.policy (.authorize (.socket 1 1)
        (.settings { maxParticipants := some (some 8), maxBroadcasters := some (some 2) }
          none ⟨0, []⟩)),
      .policy (.save none), .policy (.publish 0),
      .policy (.authorize (.account 1) (.settings {} (some (some "correct horse")) ⟨5, []⟩)),
      .policy (.save none), .policy (.publish 0)]

theorem limitsAndProtects_refines : ∃ d, run (opened .lounge) limitsAndProtects = some d ∧
      ∃ row, loadRoom row = (d.saved.settings, d.saved.passwordHash) ∧
        d.room.settings = some (loadRoom row).1 ∧
        (loadRoom row).1.passwordProtected = true ∧
        (loadRoom row).2 = some ⟨5, ["correct horse"]⟩ := by
  have h : ((run (opened .lounge) limitsAndProtects).any fun d =>
      d.room.persisted && !d.room.deleting && d.control = none &&
        d.room.passwordHash = some ⟨5, ["correct horse"]⟩) = true := by
    decide +kernel
  obtain ⟨d, hrun, hd⟩ := (any_eq_true _ _).mp h
  simp only [Bool.and_eq_true, Bool.not_eq_true', decide_eq_true_eq] at hd
  obtain ⟨⟨⟨hpersisted, hlive⟩, hcontrol⟩, hhash⟩ := hd
  have hrow : ∃ row, loadRoom row = (Saved.lounge.settings, Saved.lounge.passwordHash) :=
    storable_iff.mp ⟨rfl, rfl⟩
  obtain ⟨-, -, hproper, -, hloaded⟩ :=
    settings_refine_rows (opened_initial .lounge) (fun _ => hrow) hrun
  obtain ⟨row, hrow, hsettings, hstored⟩ := hloaded hpersisted hlive hcontrol
  refine ⟨d, hrun, row, hrow, hsettings, ?_, hstored.symm.trans hhash⟩
  exact (hproper _ hsettings).2.mpr (by rw [hhash]; rfl)

end System

end SimplestChat.Policy
