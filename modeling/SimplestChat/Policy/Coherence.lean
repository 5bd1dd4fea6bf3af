import SimplestChat.Policy.Sanctions

/-!
# Restrictions follow the identity

The copies that people carry agree with the room's store in every state, as long
as no join takes a revision for the one it read: revisions are compared modulo
`2 ^ 64`.

In a saved room the rows know every stored restriction, and for people who are
present no other, up to a sanction that is committed and not yet published. That
is what lets a join merge the restrictions it read with the stored ones without
disagreeing with anybody who is there.
-/

namespace SimplestChat.Policy

open Transition PunitiveState Policy.Room Saved

/-! ## The invariant -/

namespace System

variable {c d : System} {action : Action}

structure Coherence (c : System) : Prop where
  reading : c.Reading
  copies : c.room.Coherent
  /-- the rows know every stored restriction -/
  within : c.room.persisted = true → c.Live →
    ∀ key, (c.expected key).Within (c.saved.loadPunitiveState key)
  /-- for people who are here, they know no other -/
  rows : c.room.persisted = true →
    ∀ e ∈ c.room.people, c.saved.loadPunitiveState e.key = c.expected e.key

theorem Coherence.kept (h : c.Coherence) (hreading : d.Reading)
    (hpersisted : d.room.persisted = c.room.persisted)
    (hroom : Room.KeepsRestrictions c.room d.room) (hrows : c.SameRows d) :
    d.Coherence := by
  have hexpected := expected_congr hroom.sanctions hrows.pending
  have hload := loadPunitiveState_congr hrows.punitive
  refine ⟨hreading, hroom.coherent h.copies, ?_, ?_⟩
  · intro hsaved hlive key
    rw [hexpected, hload]
    exact h.within (hpersisted ▸ hsaved) (hrows.live hlive) key
  intro hsaved e he
  obtain ⟨e', he', hkey, -⟩ := hroom.people e he
  rw [hexpected, hload, ← hkey]
  exact h.rows (hpersisted ▸ hsaved) e' he'

variable {operation : Operation} {publication : Room.SanctionPublication}

section

variable (h : c.Coherence)
include h

theorem Coherence.cohort (hoperation : c.operation = some operation)
    (hchange : operation.change = .sanction publication) :
    c.room.Cohort operation.role publication.participants publication.lobby
        publication.key ∧
      (c.room.persisted = true → ∀ id, publication.key ≠ .connection id) := by
  have hfits := (h.reading.steady.fits operation hoperation).change
  rw [hchange] at hfits
  exact hfits

theorem Coherence.writes (hreading : d.Reading) (hheld : c.control = some (.saving operation))
    (hchange : operation.change = .sanction publication) (hroom : d.room = c.room)
    (hcontrol : d.control = some (.publishing operation .saved))
    (hsaved : d.saved = c.saved.writePunitiveState publication.key publication.kind
      publication.enabled) : d.Coherence := by
  have hoperation := operation_saving hheld
  have hbefore : c.expected = c.room.stored :=
    expected_of_none (pendingSanction_of_held hheld fun _ _ h => by cases h)
  have hafter := expected_of_some (pendingSanction_publishing hcontrol hchange)
  refine ⟨hreading, hroom ▸ h.copies, ?_, ?_⟩
  · intro hpersisted hlive key
    rw [hroom] at hpersisted
    have hlive' : c.Live := by
      obtain hlive | hdeleting := hlive
      · exact .inl (hroom ▸ hlive)
      · rw [hcontrol] at hdeleting
        cases hdeleting
    have hwithin := h.within hpersisted hlive' key
    rw [hafter, hsaved, loadPunitiveState_write _
      ((h.cohort hoperation hchange).2 hpersisted), hroom]
    rw [hbefore] at hwithin
    by_cases hkey : key = publication.key
    · rw [if_pos hkey, if_pos hkey]
      exact hwithin.set _ _
    · rw [if_neg hkey, if_neg hkey]
      exact hwithin
  · intro hpersisted e he
    rw [hroom] at hpersisted he
    have hrow := h.rows hpersisted e he
    rw [hafter, hsaved, loadPunitiveState_write _
      ((h.cohort hoperation hchange).2 hpersisted), hroom, hrow, hbefore]

theorem Coherence.sanctions (hreading : d.Reading) {answer : Answer}
    (hpersisted : d.room.persisted = c.room.persisted)
    (hheld : c.control = some (.publishing operation answer))
    (hchange : operation.change = .sanction publication)
    (hroom : d.room = c.room.publishSanction publication) (hcontrol : d.control = none)
    (hsaved : d.saved = c.saved) (hlive : d.Live → c.Live) : d.Coherence := by
  have hoperation := operation_publishing hheld
  have hcohort := (h.cohort hoperation hchange).1
  have hexpected : d.expected = c.expected := by
    funext key
    rw [expected_of_none (pendingSanction_of_free hcontrol), hroom,
      stored_publishSanction h.copies hcohort,
      expected_of_some (pendingSanction_publishing hheld hchange)]
  refine ⟨hreading, hroom ▸ h.copies.publishSanction hcohort, ?_, ?_⟩
  · intro hsaved' hlive' key
    rw [hexpected, hsaved]
    exact h.within (hpersisted ▸ hsaved') (hlive hlive') key
  intro hsaved' e he
  rw [hroom] at he
  obtain ⟨e', he', hkey, -⟩ := people_publishSanction h.copies hcohort he
  rw [hexpected, hsaved, ← hkey]
  exact h.rows (hpersisted ▸ hsaved') e' he'

theorem Coherence.placement {join : Join} {role : Option Role}
    {punitive : PunitiveState} {placement : Placement} (hjoin : join ∈ c.joins)
    (hpoint : join.point = .commit role punitive) (hcontrol : c.control = none)
    (hwrap : c.room.policyRevision < join.snapshot.revision + 2 ^ 64)
    (hentered : join.Entered c d role punitive placement) :
    placement.punitive = if c.room.persisted then c.saved.loadPunitiveState join.request.key
      else c.room.stored join.request.key := by
  have hvouched := h.reading.vouched hjoin hcontrol hentered.matched hwrap
  have hread := hvouched.punitive punitive (by rw [hpoint]; rfl)
  have hmerged := decideJoin_punitive hentered.decided
  have hpersisted := (h.reading.joins join hjoin).persisted
  change _ = punitive.merge (c.room.sanctions join.request.key) at hmerged
  rw [hmerged, hread, persistedPunitive, ← hpersisted]
  by_cases hsaved : c.room.persisted = true
  · rw [if_pos hsaved, if_pos hsaved]
    have hlive : c.Live := by
      have hmatched := hentered.matched
      rw [policySnapshotMatches, Bool.and_eq_true] at hmatched
      exact .inl (by simpa using hmatched.1)
    have hwithin := h.within hsaved hlive join.request.key
    rw [expected_of_none (pendingSanction_of_free hcontrol)] at hwithin
    refine ext_value fun kind => ?_
    rw [value_merge, Bool.or_eq_left_iff_imp]
    exact hwithin kind
  · rw [if_neg hsaved, if_neg hsaved]
    refine ext_value fun kind => ?_
    rw [value_merge, value_default, Bool.false_or]
    rfl

theorem Coherence.enters (hreading : d.Reading) {join : Join} {role : Option Role}
    {punitive : PunitiveState} {placement : Placement}
    (hpersisted : d.room.persisted = c.room.persisted) (hjoin : join ∈ c.joins)
    (hpoint : join.point = .commit role punitive) (hcontrol : c.control = none)
    (hwrap : c.room.policyRevision < join.snapshot.revision + 2 ^ 64)
    (hentered : join.Entered c d role punitive placement) (hrows : c.SameRows d) :
    d.Coherence := by
  have hplaced := h.placement hjoin hpoint hcontrol hwrap hentered
  have hbefore : c.expected = c.room.stored := expected_of_none (pendingSanction_of_free hcontrol)
  have hafter : d.expected = d.room.stored :=
    expected_of_none (hrows.pending.trans (pendingSanction_of_free hcontrol))
  have hload := loadPunitiveState_congr hrows.punitive
  have hstored : ∀ key, d.room.stored key =
      if key = join.request.key then placement.punitive else c.room.stored key := by
    intro key
    rw [hentered.room]
    exact stored_place (decideJoin_punitive hentered.decided) key
  -- whoever was here under the joiner's key carries the same already
  have hsame : ∀ e ∈ c.room.people, d.room.stored e.key = c.room.stored e.key := by
    intro e he
    rw [hstored]
    by_cases hkey : e.key = join.request.key
    · rw [if_pos hkey, hplaced, ← hkey]
      by_cases hsaved : c.room.persisted = true
      · rw [if_pos hsaved, h.rows hsaved e he, hbefore]
      · rw [if_neg hsaved]
    · rw [if_neg hkey]
  refine ⟨hreading, ?_, ?_, ?_⟩
  · intro e he
    rw [hentered.room] at he
    obtain hold | rfl := mem_people_place he
    · rw [hsame e hold]
      exact h.copies e hold
    · rw [hstored, newcomer_key, if_pos rfl]
      rfl
  · intro hsaved hlive key
    rw [hpersisted] at hsaved
    have hwithin := h.within hsaved (hrows.live hlive) key
    rw [hafter, hload, hstored]
    by_cases hkey : key = join.request.key
    · rw [if_pos hkey, hplaced, if_pos hsaved, hkey]
      exact .refl _
    · rw [if_neg hkey, ← hbefore]
      exact hwithin
  · intro hsaved e he
    rw [hpersisted] at hsaved
    rw [hentered.room] at he
    rw [hafter, hload]
    obtain hold | rfl := mem_people_place he
    · rw [hsame e hold, ← hbefore]
      exact h.rows hsaved e hold
    · rw [hstored, newcomer_key, if_pos rfl, hplaced, if_pos hsaved]

end

theorem Coherence.created (hreading : d.Reading) (hcontrol : d.control = none)
    (hroom : ∃ id loaded ceiling, d.room = Room.create id loaded ceiling) :
    d.Coherence := by
  obtain ⟨id, loaded, ceiling, hroom⟩ := hroom
  have hnobody : d.room.people = [] := by rw [hroom]; rfl
  have hstored : d.room.stored = fun _ => {} := by rw [hroom]; rfl
  refine ⟨hreading, ?_, ?_, ?_⟩
  · intro e he
    rw [hnobody] at he
    cases he
  · intro _ _ key
    rw [expected_of_none (pendingSanction_of_free hcontrol), hstored]
    exact default_within _
  · intro _ e he
    rw [hnobody] at he
    cases he

theorem Coherence.gone (hreading : d.Reading) (hcontrol : d.control = none)
    (hnobody : d.room.people = []) (hdeleting : d.room.deleting = true) :
    d.Coherence := by
  have hgone : ¬d.Live := by
    rintro (hlive | hheld)
    · rw [hdeleting] at hlive
      cases hlive
    · rw [hcontrol] at hheld
      cases hheld
  refine ⟨hreading, ?_, fun _ hlive => absurd hlive hgone, ?_⟩
  · intro e he
    rw [hnobody] at he
    cases he
  · intro _ e he
    rw [hnobody] at he
    cases he

theorem Coherence.step (h : c.Coherence) (hwrap : c.NoWrap action)
    (hstep : c.step action = some d) : d.Coherence := by
  have heffect := step_effect hstep
  have hreading := h.reading.step hstep
  have hsteady := h.reading.steady
  have hplace : action ≠ .life .reopen → d.room.persisted = c.room.persisted :=
    fun hreopen => ((heffect.revises hsteady).resolve_right hreopen).persisted
  cases heffect.restricts hsteady with
  | keeps hreopen hroom hrows => exact h.kept hreading (hplace hreopen) hroom hrows
  | plans hreopen hroom hpersisted =>
    refine ⟨hreading, hroom.coherent h.copies, ?_, ?_⟩
    all_goals
      intro hsaved
      rw [hplace hreopen, hpersisted] at hsaved
      cases hsaved
  | writes haction hheld hchange hroom hcontrol hsaved =>
    exact h.writes hreading hheld hchange hroom hcontrol hsaved
  | quarantines haction hheld hroom hcontrol =>
    exact .gone hreading hcontrol (by rw [hroom]; rfl) (by rw [hroom]; rfl)
  | admits hreopen hentry hroom hrows =>
    refine h.kept hreading (hplace hreopen) ?_ hrows
    rw [hroom]
    exact admitEntry_keepsRestrictions h.copies hentry
  | enters haction hjoin hpoint hcontrol hentered hrows =>
    subst haction
    exact h.enters hreading (hplace (by simp)) hjoin hpoint hcontrol hwrap hentered hrows
  | sanctions haction hheld hchange hroom hcontrol hsaved =>
    subst haction
    refine h.sanctions hreading (hplace (by simp)) hheld hchange hroom hcontrol hsaved ?_
    rintro (hlive | hheld')
    · rw [hroom] at hlive
      exact .inl ((eq_of_idle deleting (fun _ => rfl)
        (c.room.publishSanction_idle _)).symm.trans hlive)
    · rw [hcontrol] at hheld'
      cases hheld'
  | reopens haction hcontrol hsaved hroom =>
    obtain ⟨id, ceiling, hroom⟩ := hroom
    exact .created hreading hcontrol ⟨id, _, ceiling, hroom⟩

theorem Initial.coherence (h : c.Initial) : c.Coherence := by
  obtain ⟨id, ceiling, hroom⟩ := h.room
  exact .created h.reading h.control ⟨id, _, ceiling, hroom⟩

theorem coherence_of_run {actions : List Action} (hinit : c.Initial)
    (hwrap : RunMeets step NoWrap c actions)
    (hrun : run c actions = some d) : d.Coherence := by
  have hkeeps : ∀ (c : System) action d, c.Coherence → c.NoWrap action →
      c.step action = some d → d.Coherence :=
    fun _ _ _ h hwrap hstep => h.step hwrap hstep
  exact run_invariant hkeeps hinit.coherence hwrap hrun

/-! ## Restrictions outlive memberships -/

end System

def Change.lifts (key : SanctionKey) (kind : PunitiveKind) : Change → Bool
  | .sanction publication =>
    publication.key = key && publication.kind = kind && !publication.enabled
  | _ => false

namespace System

variable {c d : System} {action : Action} {key : SanctionKey} {kind : PunitiveKind}

def lifting (c : System) (key : SanctionKey) (kind : PunitiveKind) : Bool :=
  c.operation.any fun operation => operation.change.lifts key kind

/-- The step is no moderator's lifting of the restriction, neither in the rows nor
in the room. A room may be created again from its own row. -/
def Unlifted (key : SanctionKey) (kind : PunitiveKind) (c : System) : Action → Prop
  | .policy (.save fault) => c.lifting key kind = false ∨ fault.any (fun f => !f.applied) = true
  | .policy (.publish _) => c.lifting key kind = false
  | .life .reopen => c.room.persisted = true ∧ c.saved.present = true
  | _ => True

instance (key : SanctionKey) (kind : PunitiveKind) (c : System) (action : Action) :
    Decidable (Unlifted key kind c action) := by
  unfold Unlifted
  split <;> infer_instance

/-- Where the restriction is kept for good, and everyone it is about. -/
structure Restricted (key : SanctionKey) (kind : PunitiveKind) (c : System) : Prop where
  kept : (if c.room.persisted then c.saved.loadPunitiveState key
    else c.room.stored key).value kind = true
  people : ∀ e ∈ c.room.people, e.key = key → e.punitive.value kind = true

theorem value_of_not_lifts {publication : Room.SanctionPublication}
    {state : PunitiveState} (hstate : state.value kind = true)
    (hlifts : (Change.sanction publication).lifts key kind = false) :
    (if key = publication.key then state.set publication.kind publication.enabled
      else state).value kind = true := by
  by_cases hkey : key = publication.key
  · rw [if_pos hkey, value_set]
    by_cases hkind : kind = publication.kind
    · rw [if_pos hkind]
      simpa [Change.lifts, hkey, hkind] using hlifts
    · rw [if_neg hkind]
      exact hstate
  · rw [if_neg hkey]
    exact hstate

theorem lifts_of_lifting {operation : Operation} (hoperation : c.operation = some operation)
    (hlifting : c.lifting key kind = false) : operation.change.lifts key kind = false := by
  rw [lifting, hoperation] at hlifting
  exact hlifting

end System

namespace System

variable {c d : System} {action : Action} {key : SanctionKey} {kind : PunitiveKind}

section

variable (h : Restricted key kind c)
include h

theorem Restricted.keeps (hpersisted : d.room.persisted = c.room.persisted)
    (hroom : Room.KeepsRestrictions c.room d.room) (hload : c.room.persisted = true →
      (d.saved.loadPunitiveState key).value kind = true) : Restricted key kind d := by
  constructor
  · have hkept := h.kept
    rw [hpersisted]
    by_cases hsaved : c.room.persisted = true
    · rw [if_pos hsaved]
      exact hload hsaved
    rw [if_neg hsaved] at hkept ⊢
    rw [stored, hroom.sanctions]
    exact hkept
  · intro e he hkey
    obtain ⟨e', he', hkey', hpunitive⟩ := hroom.people e he
    rw [← hpunitive]
    exact h.people e' he' (hkey'.trans hkey)

section

variable (hcoherence : c.Coherence) (hplace : d.room.persisted = c.room.persisted)
include hcoherence hplace

theorem Restricted.writes (hroom : Room.KeepsRestrictions c.room d.room)
    {operation : Operation} {publication : Room.SanctionPublication}
    (hoperation : c.operation = some operation)
    (hchange : operation.change = .sanction publication)
    (hlifting : c.lifting key kind = false)
    (hsaved : d.saved = c.saved.writePunitiveState publication.key publication.kind
      publication.enabled) : Restricted key kind d := by
  have hlifts := lifts_of_lifting hoperation hlifting
  rw [hchange] at hlifts
  refine h.keeps hplace hroom fun hpersisted => ?_
  have hkept := h.kept
  rw [if_pos hpersisted] at hkept
  rw [hsaved, loadPunitiveState_write _ ((hcoherence.cohort hoperation hchange).2 hpersisted)]
  exact value_of_not_lifts hkept hlifts

theorem Restricted.enters {join : Join} {role : Option Role} {punitive : PunitiveState}
    {placement : Placement} (hjoin : join ∈ c.joins)
    (hpoint : join.point = .commit role punitive) (hcontrol : c.control = none)
    (hwrap : c.room.policyRevision < join.snapshot.revision + 2 ^ 64)
    (hentered : join.Entered c d role punitive placement)
    (hpunitive : d.saved.punitive = c.saved.punitive) : Restricted key kind d := by
  have hkept := h.kept
  have hplaced := hcoherence.placement hjoin hpoint hcontrol hwrap hentered
  constructor
  · rw [hplace]
    by_cases hsaved : c.room.persisted = true
    · rw [if_pos hsaved] at hkept ⊢
      rw [loadPunitiveState_congr hpunitive]
      exact hkept
    rw [if_neg hsaved] at hkept hplaced ⊢
    rw [hentered.room, stored_place (decideJoin_punitive hentered.decided), hplaced]
    by_cases hkey : key = join.request.key
    · rw [if_pos hkey, ← hkey]
      exact hkept
    · rw [if_neg hkey]
      exact hkept
  · intro e he hkey
    rw [hentered.room] at he
    obtain hold | rfl := mem_people_place he
    · exact h.people e hold hkey
    rw [newcomer_key] at hkey
    change placement.punitive.value kind = true
    rw [hplaced, hkey]
    exact hkept

theorem Restricted.sanctions {operation : Operation}
    {publication : Room.SanctionPublication} (hoperation : c.operation = some operation)
    (hchange : operation.change = .sanction publication)
    (hlifting : c.lifting key kind = false)
    (hroom : d.room = c.room.publishSanction publication) (hsaved : d.saved = c.saved) :
    Restricted key kind d := by
  have hkept := h.kept
  have hlifts := lifts_of_lifting hoperation hlifting
  rw [hchange] at hlifts
  have hcohort := (hcoherence.cohort hoperation hchange).1
  constructor
  · rw [hplace]
    by_cases hpersisted : c.room.persisted = true
    · rw [if_pos hpersisted] at hkept ⊢
      rw [hsaved]
      exact hkept
    · rw [if_neg hpersisted] at hkept ⊢
      rw [hroom, stored_publishSanction hcoherence.copies hcohort]
      exact value_of_not_lifts hkept hlifts
  · intro e he hkey
    rw [hroom] at he
    obtain ⟨e', he', hkey', hpunitive⟩ := people_publishSanction hcoherence.copies hcohort he
    have hcarried := h.people e' he' (hkey'.trans hkey)
    rw [hcoherence.copies e' he', hkey', hkey] at hcarried
    rw [hpunitive, hcoherence.copies e' he', hkey', hkey]
    exact value_of_not_lifts hcarried hlifts

end

theorem Restricted.reopens (hunlifted : c.room.persisted = true ∧ c.saved.present = true)
    (hsaved : d.saved = c.saved)
    (hroom : ∃ id ceiling, d.room = Room.create id c.saved.load ceiling) :
    Restricted key kind d := by
  obtain ⟨id, ceiling, hroom⟩ := hroom
  have hkept := h.kept
  rw [if_pos hunlifted.1] at hkept
  have hloaded : d.room.persisted = true := by
    rw [hroom]
    change c.saved.load.isSome = true
    rw [load, if_pos hunlifted.2]
    rfl
  constructor
  · rw [if_pos hloaded, hsaved]
    exact hkept
  intro e he
  rw [hroom] at he
  cases he

theorem Restricted.step (hcoherence : c.Coherence) (hwrap : c.NoWrap action)
    (hunlifted : Unlifted key kind c action) (hstep : c.step action = some d) :
    Restricted key kind d := by
  have heffect := step_effect hstep
  have hsteady := hcoherence.reading.steady
  have hplace : action ≠ .life .reopen → d.room.persisted = c.room.persisted :=
    fun hreopen => ((heffect.revises hsteady).resolve_right hreopen).persisted
  -- the rows of a saved room, unless they are written
  have hload : d.saved.punitive = c.saved.punitive → c.room.persisted = true →
      (d.saved.loadPunitiveState key).value kind = true := by
    intro hpunitive hsaved
    have hkept := h.kept
    rw [if_pos hsaved] at hkept
    rw [loadPunitiveState_congr hpunitive]
    exact hkept
  cases heffect.restricts hsteady with
  | keeps hreopen hroom hrows => exact h.keeps (hplace hreopen) hroom (hload hrows.punitive)
  | plans hreopen hroom hadhoc =>
    refine h.keeps (hplace hreopen) hroom fun hsaved => ?_
    rw [hadhoc] at hsaved
    cases hsaved
  | writes haction hheld hchange hroom hcontrol hsaved =>
    subst haction
    refine h.writes hcoherence (congrArg persisted hroom) (hroom ▸ .refl _)
      (operation_saving hheld) hchange ?_ hsaved
    obtain hlifting | hfault := hunlifted
    · exact hlifting
    · cases hfault
  | quarantines haction hheld hroom hcontrol hsaved =>
    rename_i operation fault
    subst haction
    have hplace' := hplace (by simp)
    have hkeeps : Room.KeepsRestrictions c.room d.room := hroom ▸ .of_empty rfl rfl rfl
    obtain hsame | ⟨hfault, answer, hwork⟩ := operation.change.persist_cases c.saved fault
    · exact h.keeps hplace' hkeeps (hload (by rw [hsaved, hsame]))
    by_cases hsanction : ∃ publication, operation.change = .sanction publication
    · obtain ⟨publication, hchange⟩ := hsanction
      have hwritten := hwork
      rw [hchange] at hwritten
      have hsaved' := congrArg Prod.fst (Except.ok.inj hwritten)
      refine h.writes hcoherence hplace' hkeeps (operation_saving hheld) hchange ?_
        (hsaved.trans (by rw [hchange]; exact hsaved'.symm))
      obtain hlifting | happlied := hunlifted
      · exact hlifting
      · rw [hfault] at happlied
        cases happlied
    · refine h.keeps hplace' hkeeps (hload ?_)
      rw [hsaved]
      exact Change.work_punitive (fun publication hchange =>
        hsanction ⟨publication, hchange⟩) hwork
  | admits hreopen hentry hroom hrows =>
    refine h.keeps (hplace hreopen) ?_ (hload hrows.punitive)
    rw [hroom]
    exact admitEntry_keepsRestrictions hcoherence.copies hentry
  | enters haction hjoin hpoint hcontrol hentered hrows =>
    subst haction
    exact h.enters hcoherence (hplace (by simp)) hjoin hpoint hcontrol hwrap hentered
      hrows.punitive
  | sanctions haction hheld hchange hroom hcontrol hsaved =>
    subst haction
    exact h.sanctions hcoherence (hplace (by simp)) (operation_publishing hheld) hchange
      hunlifted hroom hsaved
  | reopens haction hcontrol hsaved hroom =>
    subst haction
    exact h.reopens hunlifted hsaved hroom

end

theorem Coherence.restricted (h : c.Coherence) {e : LobbyEntry} (he : e ∈ c.room.people)
    (hkind : e.punitive.value kind = true) (hlifting : c.lifting e.key kind = false) :
    Restricted e.key kind c := by
  rw [h.copies e he] at hkind
  constructor
  · by_cases hpersisted : c.room.persisted = true
    · rw [if_pos hpersisted, h.rows hpersisted e he]
      cases hpending : c.pendingSanction with
      | none =>
        rw [expected_of_none hpending]
        exact hkind
      | some publication =>
        rw [expected_of_some hpending]
        refine value_of_not_lifts hkind ?_
        unfold pendingSanction at hpending
        split at hpending
        · rename_i requester role waiting answer hcontrol
          cases hpending
          have hoperation : c.operation = some ⟨requester, role, .sanction publication⟩ := by
            rw [System.operation, hcontrol]
            rfl
          exact lifts_of_lifting hoperation hlifting
        · cases hpending
    · rw [if_neg hpersisted]
      exact hkind
  · intro e' he' hkey
    rw [h.copies e' he', hkey]
    exact hkind

/-- Everyone in the room and in the lobby carries exactly what the room stores
under their sanction key, and a restriction stays until a moderator lifts it:
whoever has that key later, under whatever ID, carries it. -/
theorem sanctions_coherent {actions : List Action} (hinit : c.Initial)
    (hwrap : RunMeets step NoWrap c actions)
    (hrun : run c actions = some d) :
    (∀ e ∈ d.room.people, e.punitive = (d.room.sanctions e.key).getD {}) ∧
      (∀ e ∈ d.room.people, ∀ e' ∈ d.room.people, e.key = e'.key → e.punitive = e'.punitive) ∧
      ∀ e ∈ d.room.people, ∀ kind, e.punitive.value kind = true →
        d.lifting e.key kind = false → ∀ later f, RunMeets step
            (fun c action => c.NoWrap action ∧ Unlifted e.key kind c action) d later →
          run d later = some f →
            ∀ e' ∈ f.room.people, e'.key = e.key → e'.punitive.value kind = true := by
  have hcoherence := coherence_of_run hinit hwrap hrun
  refine ⟨hcoherence.copies, ?_, ?_⟩
  · intro e he e' he' hkey
    rw [hcoherence.copies e he, hcoherence.copies e' he', hkey]
  intro e he kind hkind hlifting later f hmeets hlater
  have hkeeps : ∀ (c : System) action d, c.Coherence ∧ Restricted e.key kind c →
      c.NoWrap action ∧ Unlifted e.key kind c action → c.step action = some d →
        d.Coherence ∧ Restricted e.key kind d :=
    fun _ _ _ h hallowed hstep =>
      ⟨h.1.step hallowed.1 hstep, h.2.step h.1 hallowed.1 hallowed.2 hstep⟩
  have hend := run_invariant hkeeps
    ⟨hcoherence, hcoherence.restricted he hkind hlifting⟩ hmeets hlater
  exact hend.2.people

/-! ## Sample runs -/

/-- A participant of `opened` asks for a sanction, and the room saves and
publishes it. -/
def sanctioned (requester : Requester) (target : ParticipantId) (kind : PunitiveKind)
    (enabled : Bool) : List Action :=
  [.policy (.authorize requester (.sanction target kind enabled)),
    .policy (.save none), .policy (.publish 0)]

def loungeTerms (revision : ℕ) : Snapshot := { (opened .lounge).room.snapshot with revision }

def cameraBanned : List Action :=
  Join.enters ⟨1, 1, true, none, none⟩ (loungeTerms 0) (some .owner) {} ++
    Join.enters ⟨10, 2, false, some (.v4 5), none⟩ (loungeTerms 0) (some .guest) {} ++
    sanctioned (.socket 1 1) 10 .camBanned true

def guestReturns : List Action :=
  .member (.leave 10 2) ::
    Join.enters ⟨11, 3, false, some (.v4 5), none⟩ (loungeTerms 1) (some .guest)
      ⟨true, false⟩

/-- A second guest of the address reads the ban; then the owner lifts it. -/
def staleReading : List Action :=
  cameraBanned ++ Join.reads ⟨11, 3, false, some (.v4 5), none⟩ (loungeTerms 1) (some .guest)
      ⟨true, false⟩ ++
    sanctioned (.socket 1 1) 10 .camBanned false

def staleJoin : Join :=
  ⟨⟨11, 3, false, some (.v4 5), none⟩, loungeTerms 1, .commit (some .guest) ⟨true, false⟩⟩

/-- The ban follows the guest's address to the new ID. -/
theorem guestReturns_banned :
    ∃ d f, run (opened .lounge) cameraBanned = some d ∧ run d guestReturns = some f ∧
      ∃ e ∈ f.room.people, e.id = 11 ∧ e.punitive.value .camBanned = true := by
  have hruns : ((run (opened .lounge) cameraBanned).any fun d =>
      (d.room.people.any fun e =>
        e.id = 10 && e.key = .guestIp (.v4 5) && e.punitive.value .camBanned) &&
        d.lifting (.guestIp (.v4 5)) .camBanned = false &&
        decide (RunMeets step (fun c action =>
          c.NoWrap action ∧ Unlifted (.guestIp (.v4 5)) .camBanned c action) d
            guestReturns) &&
        (run d guestReturns).any fun f => f.room.people.any fun e =>
          e.id = 11 && e.key = .guestIp (.v4 5)) := by
    decide +kernel
  have hwrap : RunMeets step NoWrap (opened .lounge) cameraBanned := by decide +kernel
  obtain ⟨d, hrun, hd⟩ := (Option.any_eq_true _ _).mp hruns
  simp only [Bool.and_eq_true, decide_eq_true_eq] at hd
  obtain ⟨⟨⟨hguest, hlifting⟩, hmeets⟩, hreturn⟩ := hd
  obtain ⟨f, hlater, hf⟩ := (Option.any_eq_true _ _).mp hreturn
  obtain ⟨e, he, hbanned⟩ := List.any_eq_true.mp hguest
  obtain ⟨e', he', hreturned⟩ := List.any_eq_true.mp hf
  simp only [Bool.and_eq_true, decide_eq_true_eq] at hbanned hreturned
  obtain ⟨⟨-, hkey⟩, hkind⟩ := hbanned
  have hcoherent := sanctions_coherent (opened_initial .lounge) hwrap hrun
  have hkept := hcoherent.2.2 e he .camBanned hkind (hkey ▸ hlifting) guestReturns f
    (hkey ▸ hmeets) hlater e' he' (hreturned.2.trans hkey.symm)
  exact ⟨d, f, hrun, hlater, e', he', hreturned.1, hkept⟩

/-- Once the counter came round, the join of the second guest puts the ban back
into the store, and the first guest does not carry it. -/
theorem staleReading_incoherent : ∃ actions d, run (opened .lounge) actions = some d ∧
      ∃ e ∈ d.room.people, e.punitive ≠ (d.room.sanctions e.key).getD {} := by
  have hruns : ((run (opened .lounge) staleReading).any fun c =>
      decide c.Quiet && ((c.revised (2 ^ 64 - 1)).step (.join (.commit staleJoin))).any
        fun d => d.room.people.any fun e =>
          decide (e.punitive ≠ (d.room.sanctions e.key).getD {})) := by
    decide +kernel
  obtain ⟨c, hbefore, hc⟩ := (Option.any_eq_true _ _).mp hruns
  simp only [Bool.and_eq_true, decide_eq_true_eq] at hc
  obtain ⟨hquiet, hcommit⟩ := hc
  obtain ⟨d, hstep, hd⟩ := (Option.any_eq_true _ _).mp hcommit
  obtain ⟨e, he, hdiffers⟩ := List.any_eq_true.mp hd
  obtain ⟨revisions, hrevised⟩ := hquiet.run_revised (2 ^ 64 - 1)
  have hlast : run (c.revised (2 ^ 64 - 1)) [.join (.commit staleJoin)] = some d :=
    run_cons_eq_some.mpr ⟨d, hstep, rfl⟩
  exact ⟨_, d, run_trans hbefore (run_trans hrevised hlast), e, he, of_decide_eq_true hdiffers⟩

end System

end SimplestChat.Policy
