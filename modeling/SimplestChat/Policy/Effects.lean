import SimplestChat.Policy.System

/-!
# What a step can do

One inversion of the step function. Later modules argue from its cases and do
not look at the step function again.
-/

namespace SimplestChat.Policy

open Option Transaction

/-! ## Database work -/

theorem Change.persist_rejected {saved : Saved} {fault : Option (Fault DriverError)}
    {change : Change} {error : RoomError}
    (herror : (change.persist saved fault).2 = .error error)
    (hdefinite : persistenceIsIndeterminate error = false) :
    (change.persist saved fault).1 = saved := by
  unfold Change.persist at herror ⊢
  split at herror
  · cases herror
  · rfl
  · rename_i fault written answer hwork
    have herror' : RoomError.database (.driver fault.error) = error := by simpa using herror
    have hrollback : fault.error.provesRollback = true := by
      simpa [← herror', persistenceIsIndeterminate] using hdefinite
    simp [hrollback]
  · rfl

theorem Change.persist_committed {saved : Saved} {fault : Option (Fault DriverError)}
    {change : Change} {answer : Answer}
    (hanswer : (change.persist saved fault).2 = .ok answer) :
    fault = none ∧ change.work saved = .ok ((change.persist saved fault).1, answer) := by
  unfold Change.persist at hanswer ⊢
  split at hanswer
  · rename_i answer' hwork
    have hanswer' : answer' = answer := by simpa using hanswer
    exact ⟨rfl, by rw [hwork, hanswer']⟩
  all_goals cases hanswer

/-! ## The cases -/

/-- The steps of the system, each with what its guards established. -/
inductive Effect (c : System) : Action → System → Prop
  | ticked {time : Instant} (htime : c.now ≤ time) : Effect c (.tick time) { c with now := time }
  | joinStarted {request : JoinRequest} (hcontrol : c.control = none)
      (haccount : request.authenticated = c.accounts request.id) :
      Effect c (.join (.start request))
        { c with joins := ⟨request, c.room.snapshot, .checkBan⟩ :: c.joins }
  | joinAdvanced {join : Join} (hjoin : join ∈ c.joins) : Effect c (.join (.advance join))
        { c with joins := (join.advance c.saved c.now).toList ++ c.joins.erase join }
  | joinCommitted {join : Join} {role : Option Role} {punitive : PunitiveState}
      (hpoint : join.point = .commit role punitive) (hcontrol : c.control = none)
      (hjoin : join ∈ c.joins) :
      Effect c (.join (.commit join))
        { c with
          room := (c.room.commitJoin c.maxParticipantsPerRoom c.now join.request
            join.snapshot role punitive c.nextSession).1
          joins := c.joins.erase join
          nextSession := c.nextSession + 1 }
  | joinAbandoned {join : Join} :
      Effect c (.join (.abandon join)) { c with joins := c.joins.erase join }
  | left {id : ParticipantId} {sender : SenderId} (hcontrol : c.control = none) :
      Effect c (.member (.leave id sender))
        { c with room := c.room.removeForSender id sender }
  | rebound {id : ParticipantId} {subject : Option ParticipantId} {old new : SenderId}
      (hcontrol : c.control = none) :
      Effect c (.member (.rebind id subject old new))
        { c with room := c.room.rebind id subject old new }
  | admissionRefused {requester : Requester} {target : ParticipantId}
      {entry : LobbyEntry} (hcontrol : c.control = none)
      (hentry : c.room.lobby.get target = some entry)
      (hbanned : (c.room.pruneExpiredBans c.now).identityIsBanned entry.id
        entry.authenticated entry.ip = true) :
      Effect c (.member (.startAdmission requester target))
        { c with room := c.room.pruneExpiredBans c.now }
  | admissionStarted {requester : Requester} {target : ParticipantId}
      {entry : LobbyEntry} (hcontrol : c.control = none)
      (hentry : c.room.lobby.get target = some entry)
      (hlive : c.room.deleting = false)
      (hgate : (c.room.pruneExpiredBans c.now).identityIsBanned entry.id
        entry.authenticated entry.ip = false) :
      Effect c (.member (.startAdmission requester target))
        { c with
          room := c.room.pruneExpiredBans c.now
          control := some (.admitting target) }
  | admitted {target : ParticipantId} {entry : LobbyEntry}
      (hheld : c.control = some (.admitting target))
      (hentry : c.room.lobby.get target = some entry)
      (hlive : c.room.deleting = false) :
      Effect c (.member .finishAdmission)
        { c with control := none, room := c.room.admitEntry entry }
  | admissionDropped {target : ParticipantId} {action : MemberAction}
      (hheld : c.control = some (.admitting target)) :
      Effect c (.member action) { c with control := none }
  | denied {requester : Requester} {target : ParticipantId} {actor : Authority}
      (hcontrol : c.control = none)
      (hactor : authority c.room c.saved requester = some actor)
      (hrole : actor.role.canAdmitLobby = true) :
      Effect c (.member (.deny requester target))
        { c with room := c.room.removeFromLobby [target] }
  | refused {requester : Requester} {request : Request} (hcontrol : c.control = none) :
      Effect c (.policy (.authorize requester request))
        { c with room := prunedFor c.room c.now request }
  | planned {requester : Requester} {request : Request} {operation : Operation}
      {held : Held} (hcontrol : c.control = none)
      (hplan : planOperation (prunedFor c.room c.now request) c.saved c.now requester
        request = some operation)
      (hheld : (c.room.persisted = true ∧ held = .saving operation) ∨
        (c.room.persisted = false ∧ operation.change.immediate = false ∧
          held = .publishing operation .saved)) :
      Effect c (.policy (.authorize requester request))
        { c with room := prunedFor c.room c.now request, control := some held }
  | changedAtOnce {requester : Requester} {request : Request} {operation : Operation}
      (hcontrol : c.control = none) (hpersisted : c.room.persisted = false)
      (hplan : planOperation (prunedFor c.room c.now request) c.saved c.now requester
        request = some operation)
      (himmediate : operation.change.immediate = true) :
      Effect c (.policy (.authorize requester request))
        { c with
          room := operation.change.publish (prunedFor c.room c.now request) .saved
            c.now c.now }
  | committed {operation : Operation} {saved : Saved} {answer : Answer}
      (hheld : c.control = some (.saving operation))
      (hwork : operation.change.work c.saved = .ok (saved, answer)) :
      Effect c (.policy (.save none))
        { c with saved, control := some (.publishing operation answer) }
  | rejected {fault : Option (Fault DriverError)} {operation : Operation}
      {error : RoomError} (hheld : c.control = some (.saving operation))
      (herror : (operation.change.persist c.saved fault).2 = .error error)
      (hdefinite : persistenceIsIndeterminate error = false) :
      Effect c (.policy (.save fault)) { c with control := none }
  | quarantined {fault : Option (Fault DriverError)} {operation : Operation}
      {error : RoomError} (hheld : c.control = some (.saving operation))
      (herror : (operation.change.persist c.saved fault).2 = .error error)
      (hunknown : persistenceIsIndeterminate error = true) :
      Effect c (.policy (.save fault))
        { c with
          saved := (operation.change.persist c.saved fault).1
          control := none
          room := c.room.tombstone.clearMembers
          reserved := true }
  | published {operation : Operation} {answer : Answer} {listedAt : Instant}
      (hheld : c.control = some (.publishing operation answer))
      (htime : c.now ≤ listedAt) (hmay : operation.mayPublish c.room = true) :
      Effect c (.policy (.publish listedAt))
        { c with
          control := none
          now := listedAt
          room := operation.change.publish c.room answer c.now listedAt }
  | publicationLost {operation : Operation} {answer : Answer} {listedAt : Instant}
      (hheld : c.control = some (.publishing operation answer))
      (htime : c.now ≤ listedAt) (hmay : operation.mayPublish c.room = false) :
      Effect c (.policy (.publish listedAt))
        { c with control := none, now := listedAt }
  | reportRefused {requester : Requester} {role : Role}
      {publication : Room.RemovalPublication} {target : ParticipantId} {report : ℕ}
      {expiresAt : Expiry} {answer : Answer}
      (hheld : c.control = some (.publishing
        ⟨requester, role, .removal publication target (some report) expiresAt⟩ answer))
      (hpersisted : c.room.persisted = false) :
      Effect c (.policy .refuseReport) { c with control := none }
  | bansListed {requester : Requester} (hcontrol : c.control = none)
      (hpersisted : c.room.persisted = false) :
      Effect c (.policy (.listBans requester))
        { c with room := c.room.pruneListedBans c.now }
  | inviteRedeemed {issuer user : ParticipantId} {role : Role}
      (hmay : c.saved.mayGrant issuer role = true) :
      Effect c (.policy (.redeemInvite issuer user role))
        { c with saved := c.saved.grant user role }
  | streamed {action : StreamAction} {d : System} (hstep : c.streamStep action = some d) :
      Effect c (.stream action) d
  | deleteStarted {user : ParticipantId} (hcontrol : c.control = none)
      (hlive : c.room.deleting = false) :
      Effect c (.life (.startDelete user))
        { c with room := c.room.tombstone, control := some .deleting }
  | deleted (hheld : c.control = some .deleting) : Effect c (.life (.finishDelete .deleted))
        { c with
          control := none
          room := c.room.clearMembers
          saved := { c.saved with present := false } }
  | deleteRejected (hheld : c.control = some .deleting) : Effect c (.life (.finishDelete .rejected))
        { c with control := none, room := c.room.restore }
  | deleteUnknown {applied : Bool} (hheld : c.control = some .deleting) :
      Effect c (.life (.finishDelete (.unknown applied)))
        { c with
          control := none
          reserved := true
          saved := { c.saved with present := c.saved.present && !applied } }
  | closedForRejoin (hcontrol : c.control = none) :
      Effect c (.life .closeForRejoin) { c with room := c.room.tombstone.clearMembers }
  | evicted (hcontrol : c.control = none) (hparticipants : c.room.participants.isEmpty)
      (hlobby : c.room.lobby.isEmpty) :
      Effect c (.life .evict) { c with room := c.room.tombstone }
  | reopened (hcontrol : c.control = none) (hgone : c.room.deleting = true)
      (hreserved : c.reserved = false) :
      Effect c (.life .reopen)
        { c with
          room := Room.create c.room.id c.saved.load c.room.broadcasterCeiling
          joins := [] }

/-! ## The inversion -/

namespace System

variable {c d : System}

theorem joinStep_effect {action : JoinAction} (h : c.joinStep action = some d) :
    Effect c (.join action) d := by
  cases action with
  | start =>
    obtain ⟨⟨hcontrol, haccount⟩, ⟨⟩⟩ := ite_none_right_eq_some.mp h
    exact .joinStarted hcontrol haccount
  | advance =>
    obtain ⟨hjoin, ⟨⟩⟩ := ite_none_right_eq_some.mp h
    exact .joinAdvanced hjoin
  | commit join =>
    change c.commitJoin join = some d at h
    unfold commitJoin at h
    split at h
    · rename_i hpoint
      obtain ⟨⟨hcontrol, hjoin⟩, ⟨⟩⟩ := ite_none_right_eq_some.mp h
      exact .joinCommitted hpoint hcontrol hjoin
    · cases h
  | abandon => exact some.inj h ▸ .joinAbandoned

theorem startAdmission_effect {requester : Requester} {target : ParticipantId}
    (h : c.startAdmission requester target = some d) :
    Effect c (.member (.startAdmission requester target)) d := by
  unfold startAdmission at h
  split at h
  · rename_i entry hactor hentry
    obtain ⟨⟨hcontrol, hrole, hlive, hspace⟩, hd⟩ := ite_none_right_eq_some.mp h
    have hd' := some.inj hd
    by_cases hbanned : (c.room.pruneExpiredBans c.now).identityIsBanned entry.id
        entry.authenticated entry.ip = true
    · rw [if_pos hbanned, ← hcontrol] at hd'
      exact hd' ▸ .admissionRefused hcontrol hentry hbanned
    · rw [if_neg hbanned] at hd'
      exact hd' ▸ .admissionStarted hcontrol hentry hlive (by simpa using hbanned)
  · cases h

theorem finishAdmission_effect (h : c.finishAdmission = some d) :
    Effect c (.member .finishAdmission) d := by
  unfold finishAdmission at h
  split at h
  · rename_i hheld
    have hd := some.inj h
    split at hd
    · rename_i hentry
      by_cases hdeleting : c.room.deleting = true
      · rw [if_pos hdeleting] at hd
        exact hd ▸ .admissionDropped hheld
      · rw [if_neg hdeleting] at hd
        exact hd ▸ .admitted hheld hentry (by simpa using hdeleting)
    · exact hd ▸ .admissionDropped hheld
  · cases h

theorem memberStep_effect {action : MemberAction} (h : c.memberStep action = some d) :
    Effect c (.member action) d := by
  cases action with
  | leave =>
    obtain ⟨hcontrol, ⟨⟩⟩ := ite_none_right_eq_some.mp h
    exact .left hcontrol
  | rebind =>
    obtain ⟨hcontrol, ⟨⟩⟩ := ite_none_right_eq_some.mp h
    exact .rebound hcontrol
  | startAdmission => exact startAdmission_effect h
  | finishAdmission => exact finishAdmission_effect h
  | cancelAdmission =>
    change c.cancelAdmission = some d at h
    unfold cancelAdmission at h
    split at h
    · rename_i target hheld
      exact some.inj h ▸ .admissionDropped hheld
    · cases h
  | deny requester target =>
    change c.deny requester target = some d at h
    unfold deny at h
    split at h
    · rename_i hactor
      obtain ⟨⟨hcontrol, hrole, hlive⟩, ⟨⟩⟩ := ite_none_right_eq_some.mp h
      exact .denied hcontrol hactor hrole
    · cases h

@[simp] theorem prunedFor_persisted (room : Room) (now : Instant) (request : Request) :
    (prunedFor room now request).persisted = room.persisted := by
  cases request <;> rfl

theorem authorize_effect {requester : Requester} {request : Request}
    (h : c.authorize requester request = some d) :
    Effect c (.policy (.authorize requester request)) d := by
  obtain ⟨hcontrol, h⟩ := ite_none_right_eq_some.mp h
  dsimp only at h
  split at h
  · exact some.inj h ▸ .refused hcontrol
  rename_i operation hplan
  by_cases hpersisted : c.room.persisted = true
  · rw [if_pos (by simpa using hpersisted)] at h
    exact some.inj h ▸ .planned hcontrol hplan (.inl ⟨hpersisted, rfl⟩)
  have hadhoc : c.room.persisted = false := by simpa using hpersisted
  rw [if_neg (by simpa using hpersisted)] at h
  by_cases himmediate : operation.change.immediate = true
  · rw [if_pos himmediate] at h
    exact some.inj h ▸ .changedAtOnce hcontrol hadhoc hplan himmediate
  rw [if_neg himmediate] at h
  exact some.inj h ▸
    .planned hcontrol hplan (.inr ⟨hadhoc, by simpa using himmediate, rfl⟩)

theorem save_effect {fault : Option (Fault DriverError)} (h : c.save fault = some d) :
    Effect c (.policy (.save fault)) d := by
  unfold save at h
  split at h
  · rename_i operation hheld
    cases hresult : (operation.change.persist c.saved fault).2 with
    | ok =>
      obtain ⟨rfl, hwork⟩ := Change.persist_committed hresult
      simp only [hresult] at h
      exact some.inj h ▸ .committed hheld hwork
    | error error =>
      simp only [hresult] at h
      by_cases hunknown : persistenceIsIndeterminate error = true
      · rw [if_pos hunknown] at h
        exact some.inj h ▸ .quarantined hheld hresult hunknown
      have hdefinite : persistenceIsIndeterminate error = false := by simpa using hunknown
      rw [if_neg hunknown, Change.persist_rejected hresult hdefinite] at h
      exact some.inj h ▸ .rejected hheld hresult hdefinite
  · cases h

theorem publish_effect {listedAt : Instant} (h : c.publish listedAt = some d) :
    Effect c (.policy (.publish listedAt)) d := by
  unfold publish at h
  split at h
  · rename_i operation answer hheld
    obtain ⟨htime, hd⟩ := ite_none_right_eq_some.mp h
    have hd' := some.inj hd
    by_cases hmay : operation.mayPublish c.room = true
    · rw [if_pos hmay] at hd'
      exact hd' ▸ .published hheld htime hmay
    · rw [if_neg hmay] at hd'
      exact hd' ▸ .publicationLost hheld htime (by simpa using hmay)
  · cases h

theorem policyStep_effect {action : PolicyAction} (h : c.policyStep action = some d) :
    Effect c (.policy action) d := by
  cases action with
  | authorize => exact authorize_effect h
  | save => exact save_effect h
  | publish => exact publish_effect h
  | refuseReport =>
    change c.refuseReport = some d at h
    unfold refuseReport at h
    split at h
    · rename_i hheld
      by_cases hpersisted : c.room.persisted = true
      · rw [if_pos hpersisted] at h
        cases h
      · rw [if_neg hpersisted] at h
        exact some.inj h ▸ .reportRefused hheld (by simpa using hpersisted)
    · cases h
  | listBans requester =>
    change c.listBans requester = some d at h
    unfold listBans at h
    split at h
    · obtain ⟨⟨hcontrol, -, hpersisted⟩, ⟨⟩⟩ := ite_none_right_eq_some.mp h
      exact .bansListed hcontrol hpersisted
    · cases h
  | redeemInvite =>
    obtain ⟨hmay, ⟨⟩⟩ := ite_none_right_eq_some.mp h
    exact .inviteRedeemed hmay

theorem lifeStep_effect {action : LifeAction} (h : c.lifeStep action = some d) :
    Effect c (.life action) d := by
  cases action with
  | startDelete =>
    obtain ⟨⟨hcontrol, hlive, -⟩, ⟨⟩⟩ := ite_none_right_eq_some.mp h
    exact .deleteStarted hcontrol hlive
  | finishDelete outcome =>
    change c.finishDelete outcome = some d at h
    unfold finishDelete at h
    split at h
    · rename_i hheld
      cases outcome with
      | deleted => exact some.inj h ▸ .deleted hheld
      | rejected => exact some.inj h ▸ .deleteRejected hheld
      | unknown => exact some.inj h ▸ .deleteUnknown hheld
    · cases h
  | closeForRejoin =>
    obtain ⟨hcontrol, ⟨⟩⟩ := ite_none_right_eq_some.mp h
    exact .closedForRejoin hcontrol
  | evict =>
    obtain ⟨⟨hcontrol, -, -, hparticipants, hlobby⟩, ⟨⟩⟩ := ite_none_right_eq_some.mp h
    exact .evicted hcontrol hparticipants hlobby
  | reopen =>
    obtain ⟨⟨hcontrol, hgone, hreserved⟩, ⟨⟩⟩ := ite_none_right_eq_some.mp h
    exact .reopened hcontrol hgone hreserved

theorem step_effect {action : Action} (h : c.step action = some d) : Effect c action d := by
  cases action with
  | tick =>
    obtain ⟨htime, ⟨⟩⟩ := ite_none_right_eq_some.mp h
    exact .ticked htime
  | join => exact joinStep_effect h
  | member => exact memberStep_effect h
  | policy => exact policyStep_effect h
  | stream => exact .streamed h
  | life => exact lifeStep_effect h

end System

end SimplestChat.Policy
