import SimplestChat.Policy.Revisions

/-!
# Restrictions and what changes them

A camera ban or a mute is stored under a sanction key, and everybody in the room
or the lobby carries a copy of what is stored under their own key. In a saved
room the rows are a third place.

Most steps keep all three. The others are few: the database work of a sanction
and its publication, a join that brings restrictions along, an admission, and the
end of a room. This module finds them and says what each does.
-/

namespace SimplestChat.Policy

open Policy.System Function PunitiveState Policy.Room Roster

/-! ## Restrictions as sets of kinds -/

namespace PunitiveState

theorem ext_value {a b : PunitiveState} (h : ∀ kind, a.value kind = b.value kind) : a = b := by
  obtain ⟨camBanned, textMuted⟩ := a
  obtain ⟨camBanned', textMuted'⟩ := b
  have hcamera : camBanned = camBanned' := h .camBanned
  have htext : textMuted = textMuted' := h .muted
  rw [hcamera, htext]

@[simp] theorem value_default (kind : PunitiveKind) : ({} : PunitiveState).value kind = false := by
  cases kind <;> rfl

theorem value_set (a : PunitiveState) (kind other : PunitiveKind) (enabled : Bool) :
    (a.set kind enabled).value other = if other = kind then enabled else a.value other := by
  cases kind <;> cases other <;> rfl

theorem value_merge (a : PunitiveState) (stored : Option PunitiveState) (kind : PunitiveKind) :
    (a.merge stored).value kind = (a.value kind || (stored.getD {}).value kind) := by
  cases stored with
  | none => simp [merge]
  | some => cases kind <;> rfl

theorem merge_getD (stored : Option PunitiveState) :
    (stored.getD {}).merge stored = stored.getD {} :=
  ext_value fun kind => by simp [value_merge]

/-- Every restriction of the first is one of the second. -/
def Within (a b : PunitiveState) : Prop :=
  ∀ kind, a.value kind = true → b.value kind = true

theorem Within.refl (a : PunitiveState) : a.Within a := fun _ h => h

theorem Within.set {a b : PunitiveState} (h : a.Within b) (kind : PunitiveKind)
    (enabled : Bool) : (a.set kind enabled).Within (b.set kind enabled) := by
  intro other
  rw [value_set, value_set]
  by_cases hother : other = kind
  · rw [if_pos hother, if_pos hother]
    exact id
  · rw [if_neg hother, if_neg hother]
    exact h other

theorem default_within (a : PunitiveState) : ({} : PunitiveState).Within a := by
  intro kind h
  rw [value_default] at h
  cases h

theorem foldl_merge {ι : Type*} (ids : List ι) (copy : ι → Option PunitiveState)
    (a : PunitiveState) (h : ∀ id ∈ ids, ∀ b, copy id = some b → b = a) :
    ids.foldl (fun state id => state.merge (copy id)) a = a := by
  have hsame : ∀ id ∈ ids, a.merge (copy id) = a := by
    intro id hid
    cases hcopy : copy id with
    | none => rfl
    | some b =>
      rw [h id hid b hcopy]
      exact merge_getD (some a)
  induction ids with
  | nil => rfl
  | cons id rest ih =>
    rw [List.foldl_cons, hsame id (by simp)]
    exact ih (fun other hother => h other (by simp [hother]))
      fun other hother => hsame other (by simp [hother])

end PunitiveState

/-! ## Copies and the store -/

namespace Room

def stored (room : Room) (key : SanctionKey) : PunitiveState := (room.sanctions key).getD {}

/-- Everyone carries what is stored under their key. -/
def Coherent (room : Room) : Prop :=
  ∀ e ∈ room.people, e.punitive = room.stored e.key

/-- The store is the same, and nobody's restrictions changed. -/
structure KeepsRestrictions (before after : Room) : Prop where
  sanctions : after.sanctions = before.sanctions
  people : ∀ e ∈ after.people, ∃ e' ∈ before.people, e'.key = e.key ∧ e'.punitive = e.punitive

namespace KeepsRestrictions

variable {before middle after : Room}

theorem of_parts (hsanctions : after.sanctions = before.sanctions) (hmembers : ∀ e ∈ after.members,
      ∃ e' ∈ before.members, e'.key = e.key ∧ e'.punitive = e.punitive)
    (hlobby : ∀ e ∈ after.lobby, ∃ e' ∈ before.lobby, e'.key = e.key ∧ e'.punitive = e.punitive) :
    KeepsRestrictions before after := by
  refine ⟨hsanctions, fun e he => ?_⟩
  obtain hinside | hwaiting := mem_people.mp he
  · obtain ⟨e', he', hsame⟩ := hmembers e hinside
    exact ⟨e', mem_people.mpr (.inl he'), hsame⟩
  · obtain ⟨e', he', hsame⟩ := hlobby e hwaiting
    exact ⟨e', mem_people.mpr (.inr he'), hsame⟩

theorem of_eq (hmembers : after.members = before.members) (hlobby : after.lobby = before.lobby)
    (hsanctions : after.sanctions = before.sanctions) :
    KeepsRestrictions before after := by
  refine .of_parts hsanctions ?_ ?_
  · intro e he
    exact ⟨e, hmembers ▸ he, rfl, rfl⟩
  · intro e he
    exact ⟨e, hlobby ▸ he, rfl, rfl⟩

theorem refl (room : Room) : KeepsRestrictions room room := of_eq rfl rfl rfl

theorem of_idle (h : after.idle = before.idle) : KeepsRestrictions before after :=
  of_eq (eq_of_idle Room.members idle_members h) (eq_of_idle Room.lobby (fun _ => rfl) h)
    (eq_of_idle Room.sanctions (fun _ => rfl) h)

theorem trans (hfirst : KeepsRestrictions before middle)
    (hsecond : KeepsRestrictions middle after) : KeepsRestrictions before after := by
  refine ⟨hsecond.sanctions.trans hfirst.sanctions, fun e he => ?_⟩
  obtain ⟨e', he', hkey, hpunitive⟩ := hsecond.people e he
  obtain ⟨e'', he'', hkey', hpunitive'⟩ := hfirst.people e' he'
  exact ⟨e'', he'', hkey'.trans hkey, hpunitive'.trans hpunitive⟩

theorem of_map {f g : LobbyEntry → LobbyEntry} (hsanctions : after.sanctions = before.sanctions)
    (hmembers : after.members = before.members.map f)
    (hf : ∀ e : LobbyEntry, e.key = (f e).key ∧ e.punitive = (f e).punitive)
    (hlobby : after.lobby.entries = before.lobby.entries.map g)
    (hg : ∀ e : LobbyEntry, e.key = (g e).key ∧ e.punitive = (g e).punitive) :
    KeepsRestrictions before after := by
  refine .of_parts hsanctions ?_ ?_
  · intro e he
    rw [hmembers] at he
    obtain ⟨e', he', rfl⟩ := List.mem_map.mp he
    exact ⟨e', he', hf e'⟩
  · intro e he
    rw [mem_def, hlobby] at he
    obtain ⟨e', he', rfl⟩ := List.mem_map.mp he
    exact ⟨e', he', hg e'⟩

theorem of_empty (hsanctions : after.sanctions = before.sanctions)
    (hmembers : after.members = []) (hlobby : after.lobby.entries = []) :
    KeepsRestrictions before after := by
  refine .of_parts hsanctions ?_ ?_
  · intro e he
    rw [hmembers] at he
    cases he
  · intro e he
    rw [mem_def, hlobby] at he
    cases he

theorem coherent (h : KeepsRestrictions before after) (hbefore : before.Coherent) :
    after.Coherent := by
  intro e he
  obtain ⟨e', he', hkey, hpunitive⟩ := h.people e he
  rw [← hpunitive, hbefore e' he', hkey, stored, stored, h.sanctions]

end KeepsRestrictions

section

variable (room : Room)
include room

theorem removeParticipants_keepsRestrictions (ids : List ParticipantId) :
    KeepsRestrictions room (room.removeParticipants ids) := by
  refine .of_parts rfl ?_ fun e he => ⟨e, he, rfl, rfl⟩
  intro e he
  rw [members_removeParticipants] at he
  exact ⟨e, (List.mem_filter.mp he).1, rfl, rfl⟩

theorem removeFromLobby_keepsRestrictions (ids : List ParticipantId) :
    KeepsRestrictions room (room.removeFromLobby ids) := by
  refine .of_parts rfl (fun e he => ⟨e, he, rfl, rfl⟩) ?_
  intro e he
  exact ⟨e, (mem_filter.mp he).1, rfl, rfl⟩

end

theorem turnLaw_keepsRestrictions : TurnLaw KeepsRestrictions where
  trans := .trans
  same hparticipants hlobby hsanctions _ :=
    .of_eq (by simp [members, hparticipants]) hlobby hsanctions
  revoke room only := .of_idle (room.revokeUnauthorizedProducers_idle only)
  removeParticipants := removeParticipants_keepsRestrictions
  removeFromLobby := removeFromLobby_keepsRestrictions
  setSender room id sender := by
    refine .of_map rfl (room.members_setSender id sender _) (fun e => ?_)
      (List.map_id _).symm fun e => ⟨rfl, rfl⟩
    split <;> exact ⟨rfl, rfl⟩
  withRole room target role := by
    refine .of_map rfl (room.members_withRole target role) (fun e => ?_) rfl fun e => ?_
    · split <;> exact ⟨rfl, rfl⟩
    · split <;> exact ⟨rfl, rfl⟩

end Room

theorem Change.publish_keepsRestrictions (room : Room) (answer : Answer)
    (now listedAt : Instant) {change : Change}
    (hchange : ∀ publication, change ≠ .sanction publication) :
    Room.KeepsRestrictions room (change.publish room answer now listedAt) :=
  turnLaw_keepsRestrictions.publish room answer now listedAt
    fun publication h => absurd h (hchange publication)

/-! ## Rows -/

namespace System

def pendingSanction (c : System) : Option Room.SanctionPublication :=
  match c.control with
  | some (.publishing ⟨_, _, .sanction publication⟩ _) => some publication
  | _ => none

def expected (c : System) (key : SanctionKey) : PunitiveState :=
  match c.pendingSanction with
  | none => c.room.stored key
  | some publication =>
    if key = publication.key then
      (c.room.stored key).set publication.kind publication.enabled
    else c.room.stored key

def Live (c : System) : Prop :=
  c.room.deleting = false ∨ c.control = some .deleting

structure SameRows (c d : System) : Prop where
  punitive : d.saved.punitive = c.saved.punitive
  pending : d.pendingSanction = c.pendingSanction
  live : d.Live → c.Live

variable {c d : System}

theorem pendingSanction_publishing {operation : Operation} {answer : Answer}
    {publication : Room.SanctionPublication}
    (hheld : c.control = some (.publishing operation answer))
    (hchange : operation.change = .sanction publication) :
    c.pendingSanction = some publication := by
  obtain ⟨requester, role, change⟩ := operation
  cases hchange
  unfold pendingSanction
  rw [hheld]

theorem pendingSanction_eq_none (h : ∀ operation answer publication,
    c.control = some (.publishing operation answer) →
      operation.change ≠ .sanction publication) : c.pendingSanction = none := by
  unfold pendingSanction
  split
  · rename_i publication answer hcontrol
    exact absurd rfl (h _ _ publication hcontrol)
  · rfl

theorem pendingSanction_of_free (h : c.control = none) : c.pendingSanction = none :=
  pendingSanction_eq_none fun _ _ _ hheld => by
    rw [h] at hheld
    cases hheld

theorem pendingSanction_of_held {held : Held} (h : c.control = some held)
    (hheld : ∀ operation answer, held ≠ .publishing operation answer) :
    c.pendingSanction = none :=
  pendingSanction_eq_none fun operation answer _ hpublishing => by
    rw [h] at hpublishing
    exact absurd (Option.some.inj hpublishing) (hheld operation answer)

theorem expected_of_none (h : c.pendingSanction = none) : c.expected = c.room.stored := by
  funext key
  unfold expected
  rw [h]

theorem expected_of_some {publication : Room.SanctionPublication}
    (h : c.pendingSanction = some publication) (key : SanctionKey) :
    c.expected key = if key = publication.key then
        (c.room.stored key).set publication.kind publication.enabled
      else c.room.stored key := by
  unfold expected
  rw [h]

theorem expected_congr (hsanctions : d.room.sanctions = c.room.sanctions)
    (hpending : d.pendingSanction = c.pendingSanction) : d.expected = c.expected := by
  funext key
  unfold expected stored
  rw [hpending, hsanctions]

end System

theorem Saved.loadPunitiveState_write (saved : Saved) {key : SanctionKey}
    (hkey : ∀ id, key ≠ .connection id) (kind : PunitiveKind) (enabled : Bool)
    (other : SanctionKey) :
    (saved.writePunitiveState key kind enabled).loadPunitiveState other =
      if other = key then (saved.loadPunitiveState other).set kind enabled
      else saved.loadPunitiveState other := by
  have hrow : (saved.writePunitiveState key kind enabled).punitive other =
      if other = key then (saved.punitive other).set kind enabled
      else saved.punitive other := by
    change update saved.punitive key _ other = _
    by_cases hother : other = key
    · subst hother
      rw [update_self, if_pos rfl]
    · rw [update_of_ne hother, if_neg hother]
  cases other with
  | connection id => rw [if_neg fun h => hkey id h.symm]; rfl
  | user | guestIp => exact hrow

theorem Change.work_punitive {saved written : Saved} {answer : Answer} {change : Change}
    (hchange : ∀ publication, change ≠ .sanction publication)
    (hwork : change.work saved = .ok (written, answer)) :
    written.punitive = saved.punitive := by
  cases change with
  | sanction publication => exact absurd rfl (hchange publication)
  | removal =>
    obtain rfl := Change.removal_work hwork
    split
    · unfold Saved.writeBan
      split <;> rfl
    · rfl
  | _ =>
    cases hwork
    rfl

/-! ## Steps -/

inductive Restricts (c : System) (action : Action) (d : System) : Prop
  | keeps (hreopen : action ≠ .life .reopen)
      (hroom : Room.KeepsRestrictions c.room d.room) (hrows : c.SameRows d)
  /-- a room without rows takes a sanction up, or drops one -/
  | plans (hreopen : action ≠ .life .reopen)
      (hroom : Room.KeepsRestrictions c.room d.room) (hpersisted : c.room.persisted = false)
  | writes {operation : Operation} {publication : Room.SanctionPublication}
      (haction : action = .policy (.save none))
      (hheld : c.control = some (.saving operation))
      (hchange : operation.change = .sanction publication)
      (hroom : d.room = c.room)
      (hcontrol : d.control = some (.publishing operation .saved))
      (hsaved : d.saved = c.saved.writePunitiveState publication.key publication.kind
        publication.enabled)
  | quarantines {operation : Operation} {fault : Option (Transaction.Fault DriverError)}
      (haction : action = .policy (.save fault))
      (hheld : c.control = some (.saving operation))
      (hroom : d.room = c.room.tombstone.clearMembers) (hcontrol : d.control = none)
      (hsaved : d.saved = (operation.change.persist c.saved fault).1)
  | admits {entry : LobbyEntry} (hreopen : action ≠ .life .reopen)
      (hentry : entry ∈ c.room.lobby) (hroom : d.room = c.room.admitEntry entry)
      (hrows : c.SameRows d)
  | enters {join : Join} {role : Option Role} {punitive : PunitiveState}
      {placement : Placement} (haction : action = .join (.commit join))
      (hjoin : join ∈ c.joins) (hpoint : join.point = .commit role punitive)
      (hcontrol : c.control = none)
      (hentered : join.Entered c d role punitive placement) (hrows : c.SameRows d)
  | sanctions {operation : Operation} {answer : Answer} {listedAt : Instant}
      {publication : Room.SanctionPublication}
      (haction : action = .policy (.publish listedAt))
      (hheld : c.control = some (.publishing operation answer))
      (hchange : operation.change = .sanction publication)
      (hroom : d.room = c.room.publishSanction publication) (hcontrol : d.control = none)
      (hsaved : d.saved = c.saved)
  | reopens (haction : action = .life .reopen) (hcontrol : d.control = none)
      (hsaved : d.saved = c.saved)
      (hroom : ∃ id ceiling, d.room = Room.create id c.saved.load ceiling)

variable {c d : System}

/-- Neither the rows nor control matter to a step that needs control to be free
and leaves it so. -/
theorem System.SameRows.of_free (hfree : c.control = none)
    (hcontrol : d.control = none) (hsaved : d.saved = c.saved)
    (hlive : d.room.deleting = false → c.room.deleting = false) : c.SameRows d := by
  refine ⟨by rw [hsaved], ?_, ?_⟩
  · rw [pendingSanction_of_free hfree, pendingSanction_of_free hcontrol]
  rintro (hdeleting | hheld)
  · exact .inl (hlive hdeleting)
  · rw [hcontrol] at hheld
    cases hheld

theorem System.SameRows.of_pending (hsaved : d.saved.punitive = c.saved.punitive)
    (hbefore : c.pendingSanction = none) (hafter : d.pendingSanction = none)
    (hlive : d.Live → c.Live) : c.SameRows d :=
  ⟨hsaved, hafter.trans hbefore.symm, hlive⟩

theorem Effect.restricts {action : Action} (h : Effect c action d)
    (hsteady : c.Steady) : Restricts c action d := by
  cases h with
  | ticked | joinStarted | joinAdvanced | joinAbandoned =>
    exact .keeps (by simp) (.refl c.room) ⟨rfl, rfl, id⟩
  | inviteRedeemed =>
    refine .keeps (by simp) (.refl c.room) ⟨?_, rfl, id⟩
    dsimp only
    unfold Saved.grant
    split <;> rfl
  | joinCommitted hpoint hcontrol hjoin =>
    rename_i join role punitive
    have hsnapshot := c.room.snapshot_commitJoin c.maxParticipantsPerRoom c.now
      join.request join.snapshot role punitive c.nextSession
    have hrows : c.SameRows { c with
          room := (c.room.commitJoin c.maxParticipantsPerRoom c.now join.request
            join.snapshot role punitive c.nextSession).1
          joins := c.joins.erase join
          nextSession := c.nextSession + 1 } :=
      .of_free hcontrol hcontrol rfl fun hlive => hsnapshot.2 ▸ hlive
    obtain hsame | hpruned | ⟨placement, hmatch, hdecide, hcommit⟩ :=
      c.room.commitJoin_cases c.maxParticipantsPerRoom c.now join.request
        join.snapshot role punitive c.nextSession
    · refine .keeps (by simp) ?_ hrows
      change Room.KeepsRestrictions c.room (Prod.fst _)
      rw [hsame]
      exact .refl c.room
    · refine .keeps (by simp) ?_ hrows
      change Room.KeepsRestrictions c.room (Prod.fst _)
      rw [hpruned]
      exact .of_eq rfl rfl rfl
    · exact .enters rfl hjoin hpoint hcontrol ⟨hmatch, hdecide, congrArg Prod.fst hcommit⟩ hrows
  | left hcontrol =>
    refine .keeps (by simp) (turnLaw_keepsRestrictions.removeForSender _ _ _)
      (.of_free hcontrol hcontrol rfl fun hlive => ?_)
    dsimp only at hlive
    unfold removeForSender at hlive
    split at hlive <;> exact hlive
  | rebound hcontrol =>
    refine .keeps (by simp) (turnLaw_keepsRestrictions.rebind _ _ _ _ _)
      (.of_free hcontrol hcontrol rfl fun hlive => ?_)
    dsimp only at hlive
    unfold rebind at hlive
    split at hlive <;> exact hlive
  | admissionRefused hcontrol | bansListed hcontrol =>
    exact .keeps (by simp) (.of_eq rfl rfl rfl) (.of_free hcontrol hcontrol rfl id)
  | admissionStarted hcontrol hentry hlive =>
    refine .keeps (by simp) (.of_eq rfl rfl rfl) (.of_pending rfl
      (pendingSanction_of_free hcontrol)
      (pendingSanction_of_held rfl fun _ _ h => by cases h) fun _ => .inl hlive)
  | admitted hheld hentry hlive =>
    refine .admits (by simp) (get_eq_some.mp hentry).1 rfl (.of_pending rfl
      (pendingSanction_of_held hheld fun _ _ h => by cases h)
      (pendingSanction_of_free rfl) fun _ => .inl hlive)
  | admissionDropped hheld =>
    refine .keeps (by simp) (.refl c.room) (.of_pending rfl
      (pendingSanction_of_held hheld fun _ _ h => by cases h)
      (pendingSanction_of_free rfl) ?_)
    rintro (hlive | hdeleting)
    · exact .inl hlive
    · cases hdeleting
  | denied hcontrol =>
    exact .keeps (by simp) (c.room.removeFromLobby_keepsRestrictions _)
      (.of_free hcontrol hcontrol rfl id)
  | refused hcontrol =>
    rename_i requester request
    have hpruned := prunedFor_snapshot c.room c.now request
    exact .keeps (by simp) (turnLaw_keepsRestrictions.prunedFor c.room c.now request)
      (.of_free hcontrol hcontrol rfl fun hlive => hpruned.2 ▸ hlive)
  | planned hcontrol hplan hheld =>
    rename_i requester request operation held
    have hpruned := prunedFor_snapshot c.room c.now request
    obtain ⟨-, rfl⟩ | ⟨hadhoc, -, rfl⟩ := hheld
    · refine .keeps (by simp)
        (turnLaw_keepsRestrictions.prunedFor c.room c.now request) (.of_pending rfl
        (pendingSanction_of_free hcontrol)
        (pendingSanction_of_held rfl fun _ _ h => by cases h) ?_)
      rintro (hlive | hdeleting)
      · exact .inl (hpruned.2 ▸ hlive)
      · cases hdeleting
    · exact .plans (by simp) (turnLaw_keepsRestrictions.prunedFor c.room c.now request) hadhoc
  | changedAtOnce hcontrol hpersisted hplan himmediate =>
    rename_i request operation
    have hpruned := prunedFor_snapshot c.room c.now request
    have hpublish := operation.change.publish_republished
      (prunedFor c.room c.now request) .saved c.now c.now
    refine .keeps (by simp) ((turnLaw_keepsRestrictions.prunedFor c.room c.now request).trans
      (Change.publish_keepsRestrictions _ _ _ _ ?_))
      (.of_free hcontrol hcontrol rfl fun hlive => ?_)
    · intro publication hchange
      rw [hchange] at himmediate
      cases himmediate
    · rw [← hpruned.2, ← hpublish.deleting]
      exact hlive
  | committed hheld hwork =>
    rename_i operation saved answer
    by_cases hsanction : ∃ publication, operation.change = .sanction publication
    · obtain ⟨publication, hchange⟩ := hsanction
      rw [hchange] at hwork
      cases hwork
      exact .writes rfl hheld hchange rfl rfl rfl
    have hother : ∀ publication, operation.change ≠ .sanction publication :=
      fun publication hchange => hsanction ⟨publication, hchange⟩
    refine .keeps (by simp) (.refl c.room) (.of_pending (Change.work_punitive hother hwork)
      (pendingSanction_of_held hheld fun _ _ h => by cases h)
      (pendingSanction_eq_none ?_) ?_)
    · intro other answer' publication hpublishing
      cases hpublishing
      exact hother publication
    · rintro (hlive | hdeleting)
      · exact .inl hlive
      · cases hdeleting
  | rejected hheld =>
    refine .keeps (by simp) (.refl c.room) (.of_pending rfl
      (pendingSanction_of_held hheld fun _ _ h => by cases h)
      (pendingSanction_of_free rfl) ?_)
    rintro (hlive | hdeleting)
    · exact .inl hlive
    · cases hdeleting
  | quarantined hheld => exact .quarantines rfl hheld rfl rfl rfl
  | published hheld htime hmay =>
    rename_i operation answer listedAt
    by_cases hsanction : ∃ publication, operation.change = .sanction publication
    · obtain ⟨publication, hchange⟩ := hsanction
      refine .sanctions rfl hheld hchange ?_ rfl rfl
      change operation.change.publish _ _ _ _ = _
      rw [hchange]
      rfl
    · have hother : ∀ publication, operation.change ≠ .sanction publication :=
        fun publication hchange => hsanction ⟨publication, hchange⟩
      have hpublish := operation.change.publish_republished c.room answer c.now listedAt
      refine .keeps (by simp) (Change.publish_keepsRestrictions _ _ _ _ hother)
        (.of_pending rfl (pendingSanction_eq_none ?_) (pendingSanction_of_free rfl) ?_)
      · intro other answer' publication hpublishing
        rw [hheld] at hpublishing
        cases hpublishing
        exact hother publication
      · rintro (hlive | hdeleting)
        · exact .inl (hpublish.deleting ▸ hlive)
        · cases hdeleting
  | publicationLost hheld htime hmay =>
    rw [hsteady.mayPublish hheld] at hmay
    cases hmay
  | reportRefused hheld hpersisted => exact .plans (by simp) (.refl c.room) hpersisted
  | streamed hstep =>
    obtain ⟨hidle, hd⟩ := streamStep_frame hstep
    have hcontrol : d.control = c.control := by rw [hd]
    have hdeleting : d.room.deleting = c.room.deleting := eq_of_idle deleting (fun _ => rfl) hidle
    refine .keeps (by simp) (.of_idle hidle) ⟨by rw [hd], ?_, ?_⟩
    · unfold System.pendingSanction
      rw [hcontrol]
    unfold System.Live
    rw [hcontrol, hdeleting]
    exact id
  | deleteStarted hcontrol hlive =>
    exact .keeps (by simp) (.of_eq rfl rfl rfl) (.of_pending rfl (pendingSanction_of_free hcontrol)
      (pendingSanction_of_held rfl fun _ _ h => by cases h) fun _ => .inl hlive)
  | deleted hheld =>
    exact .keeps (by simp) (.of_empty rfl rfl rfl) (.of_pending rfl
      (pendingSanction_of_held hheld fun _ _ h => by cases h)
      (pendingSanction_of_free rfl) fun _ => .inr hheld)
  | deleteRejected hheld | deleteUnknown hheld =>
    exact .keeps (by simp) (.of_eq rfl rfl rfl) (.of_pending rfl
      (pendingSanction_of_held hheld fun _ _ h => by cases h)
      (pendingSanction_of_free rfl) fun _ => .inr hheld)
  | closedForRejoin hcontrol =>
    exact .keeps (by simp) (.of_empty rfl rfl rfl)
      (.of_free hcontrol hcontrol rfl fun hlive => by cases hlive)
  | evicted hcontrol =>
    exact .keeps (by simp) (.of_eq rfl rfl rfl)
      (.of_free hcontrol hcontrol rfl fun hlive => by cases hlive)
  | reopened hcontrol => exact .reopens rfl hcontrol rfl ⟨_, _, rfl⟩

/-! ## What each of them keeps -/

namespace Room

variable {room : Room} {role : Role}

theorem cohortPunitive_eq (hcoherent : room.Coherent)
    {participants lobby : List ParticipantId} {key : SanctionKey}
    (hcohort : room.Cohort role participants lobby key) :
    room.cohortPunitive participants lobby key = room.stored key := by
  have hinside : participants.foldl
      (fun state id => state.merge ((room.participants.get id).map (·.punitive)))
      (room.stored key) = room.stored key := by
    refine foldl_merge participants _ _ fun id hid b hb => ?_
    obtain ⟨p, hp, rfl⟩ := Option.map_eq_some_iff.mp hb
    obtain ⟨hmem, rfl⟩ := get_eq_some.mp hp
    have hmember : p.toLobbyEntry ∈ room.members := mem_members.mpr ⟨p, hmem, rfl⟩
    rw [hcoherent _ (mem_people.mpr (.inl hmember)), (hcohort.covers _ hmember).mp hid]
  have hwaiting : lobby.foldl (fun state id => state.merge ((room.lobby.get id).map (·.punitive)))
      (room.stored key) = room.stored key := by
    refine foldl_merge lobby _ _ fun id hid b hb => ?_
    obtain ⟨e, he, rfl⟩ := Option.map_eq_some_iff.mp hb
    obtain ⟨hmem, rfl⟩ := get_eq_some.mp he
    rw [hcoherent _ (mem_people.mpr (.inr hmem)), (hcohort.coversLobby _ hmem).mp hid]
  unfold cohortPunitive
  dsimp only
  change lobby.foldl _ (participants.foldl _ (room.stored key)) = _
  rw [hinside, hwaiting]

variable {publication : SanctionPublication}

theorem stored_publishSanction (hcoherent : room.Coherent)
    (hcohort : room.Cohort role publication.participants publication.lobby
      publication.key) (key : SanctionKey) :
    (room.publishSanction publication).stored key = if key = publication.key then
        (room.stored key).set publication.kind publication.enabled
      else room.stored key := by
  have hsanctions : (room.publishSanction publication).sanctions =
      update room.sanctions publication.key
        (if (room.cohortPunitive publication.participants publication.lobby
            publication.key).set publication.kind publication.enabled = {} then none
          else some ((room.cohortPunitive publication.participants publication.lobby
            publication.key).set publication.kind publication.enabled)) :=
    eq_of_idle sanctions (fun _ => rfl) (room.publishSanction_idle publication)
  rw [cohortPunitive_eq hcoherent hcohort] at hsanctions
  rw [stored, hsanctions]
  by_cases hkey : key = publication.key
  · subst hkey
    rw [update_self, if_pos rfl]
    split
    · rename_i hnone
      exact hnone.symm
    · rfl
  · rw [update_of_ne hkey, if_neg hkey]
    rfl

variable {e : LobbyEntry}

section

variable (hcoherent : room.Coherent)
include hcoherent

theorem people_publishSanction
    (hcohort : room.Cohort role publication.participants publication.lobby
      publication.key) (he : e ∈ (room.publishSanction publication).people) :
    ∃ e' ∈ room.people, e'.key = e.key ∧ e.punitive = if e.key = publication.key then
          (room.stored e.key).set publication.kind publication.enabled
        else e'.punitive := by
  have hidle := room.publishSanction_idle publication
  have hmembers := (eq_of_idle members idle_members hidle).trans
    (room.members_applyPunitiveToCohort _ _ _ _ _)
  have hlobby : (room.publishSanction publication).lobby = _ :=
    eq_of_idle lobby (fun _ => rfl) hidle
  rw [cohortPunitive_eq hcoherent hcohort] at hmembers
  obtain hinside | hwaiting := mem_people.mp he
  · rw [hmembers] at hinside
    obtain ⟨m, hm, rfl⟩ := List.mem_map.mp hinside
    refine ⟨m, mem_people.mpr (.inl hm), ?_⟩
    by_cases hlisted : m.id ∈ publication.participants
    · have hkey := (hcohort.covers m hm).mp hlisted
      rw [if_pos hlisted]
      refine ⟨rfl, ?_⟩
      change _ = if m.key = _ then _ else _
      rw [if_pos hkey]
      change _ = (room.stored m.key).set _ _
      rw [hkey]
    · rw [if_neg hlisted]
      refine ⟨rfl, ?_⟩
      rw [if_neg fun hkey => hlisted ((hcohort.covers m hm).mpr hkey)]
  · rw [hlobby] at hwaiting
    obtain ⟨w, hw, heq⟩ := List.mem_map.mp hwaiting
    refine ⟨w, mem_people.mpr (.inr hw), ?_⟩
    by_cases hlisted : w.id ∈ publication.lobby
    · have hkey := (hcohort.coversLobby w hw).mp hlisted
      rw [if_pos hlisted, cohortPunitive_eq hcoherent hcohort] at heq
      subst heq
      refine ⟨rfl, ?_⟩
      change _ = if w.key = _ then _ else _
      rw [if_pos hkey]
      change _ = (room.stored w.key).set _ _
      rw [hkey]
    · rw [if_neg hlisted] at heq
      subst heq
      refine ⟨rfl, ?_⟩
      rw [if_neg fun hkey => hlisted ((hcohort.coversLobby w hw).mpr hkey)]

theorem Coherent.publishSanction
    (hcohort : room.Cohort role publication.participants publication.lobby
      publication.key) : (room.publishSanction publication).Coherent := by
  intro e he
  obtain ⟨e', he', hkey, hpunitive⟩ := people_publishSanction hcoherent hcohort he
  rw [hpunitive, stored_publishSanction hcoherent hcohort]
  by_cases hmatch : e.key = publication.key
  · rw [if_pos hmatch, if_pos hmatch]
  · rw [if_neg hmatch, if_neg hmatch, hcoherent e' he', hkey]

theorem people_admitEntry {entry : LobbyEntry} (hentry : entry ∈ room.lobby)
    (he : e ∈ (room.admitEntry entry).people) : e ∈ room.people := by
  have hsame : entry.punitive.merge (room.sanctions entry.key) = entry.punitive := by
    rw [hcoherent entry (mem_people.mpr (.inr hentry))]
    exact merge_getD _
  obtain hinside | hwaiting := mem_people.mp he
  · obtain ⟨hm, -⟩ | rfl := mem_members_admitEntry.mp hinside
    · exact mem_people.mpr (.inl hm)
    · rw [hsame]
      exact mem_people.mpr (.inr hentry)
  · exact mem_people.mpr (.inr (mem_erase.mp hwaiting).1)

theorem admitEntry_keepsRestrictions {entry : LobbyEntry} (hentry : entry ∈ room.lobby) :
    KeepsRestrictions room (room.admitEntry entry) :=
  ⟨rfl, fun e he => ⟨e, people_admitEntry hcoherent hentry he, rfl, rfl⟩⟩

end

variable {request : JoinRequest} {placement : Placement}

theorem stored_place {session : MediaSession} {persisted : PunitiveState}
    (hpunitive : placement.punitive = persisted.merge (room.sanctions request.key))
    (key : SanctionKey) :
    (room.place request session placement).stored key =
      if key = request.key then placement.punitive else room.stored key := by
  have hsanctions : (room.place request session placement).sanctions =
      room.remembering request.key placement.punitive := by
    by_cases hlobbied : placement.lobbied = true
    · rw [room.place_lobbied hlobbied]
    · rw [room.place_inside hlobbied]
  unfold stored
  rw [hsanctions]
  unfold remembering
  by_cases hnone : placement.punitive = {}
  · rw [if_pos hnone]
    by_cases hkey : key = request.key
    · subst hkey
      rw [if_pos rfl, hnone]
      refine ext_value fun kind => ?_
      have hmerged : (placement.punitive).value kind = false := by rw [hnone]; simp
      rw [hpunitive, value_merge, Bool.or_eq_false_iff] at hmerged
      rw [hmerged.2, value_default]
    · rw [if_neg hkey]
  · rw [if_neg hnone]
    by_cases hkey : key = request.key
    · subst hkey
      rw [update_self, if_pos rfl]
      rfl
    · rw [update_of_ne hkey, if_neg hkey]

theorem newcomer_key (request : JoinRequest) (session : MediaSession)
    (placement : Placement) : (newcomer request session placement).key = request.key :=
  rfl

theorem mem_people_place {session : MediaSession}
    (he : e ∈ (room.place request session placement).people) :
    e ∈ room.people ∨ e = newcomer request session placement := by
  rw [mem_people, mem_members_place, mem_lobby_place] at he
  rw [mem_people]
  by_cases hlobbied : placement.lobbied = true
  · rw [if_pos hlobbied, if_pos hlobbied] at he
    obtain hm | ⟨hw, -⟩ | hnew := he
    · exact .inl (.inl hm)
    · exact .inl (.inr hw)
    · exact .inr hnew
  · rw [if_neg hlobbied, if_neg hlobbied] at he
    obtain (⟨hm, -⟩ | hnew) | hw := he
    · exact .inl (.inl hm)
    · exact .inr hnew
    · exact .inl (.inr hw)

theorem decideJoin_punitive {maximum : Option ℕ}
    {snapshot : Snapshot} {resolved : Option Role} {persisted : PunitiveState}
    (h : room.decideJoin maximum request snapshot resolved persisted = .ok placement) :
    placement.punitive = persisted.merge (room.sanctions request.key) := by
  unfold decideJoin at h
  split at h
  · cases h
  dsimp only at h
  split at h
  · cases h
  · cases h
    rfl

end Room

end SimplestChat.Policy
