import SimplestChat.Room.Reservations
import SimplestChat.Support.Runs

/-!
# Successive incarnations of a room ID

A new runtime room may be built only when the router of the old one is gone.
The invariant of `Reservations` is not enough for that, because two paths can
take a reservation away from the task that relies on it: recovery overwrites
whatever is reserved, and a quarantine adopts a reservation that someone else
is about to release. `CleanTeardown` excludes exactly these two steps. Under
it a reservation that records an unknown outcome is never given up (`Sealed`),
and no router is created while another one is being removed.
-/

namespace SimplestChat

open Interleaving Transition Slot SimplestChat.Task

/-! ## The steps that keep teardown and creation apart -/

/-- Recovery closes only a room that is still mapped and not tombstoned. -/
def recoversLive (c : Config Slot Task Lock) : Action Task Choice → Bool
  | .advance t .proceed =>
    match c.task t with
    | some (.recover (.waitControl i)) => c.shared.Live i
    | _ => true
  | _ => true

def quarantinesUnreserved (c : Config Slot Task Lock) : Action Task Choice → Bool
  | .advance t .unknown =>
    match c.task t with
    | some (.control (.work _)) | some (.admin (.work (some _))) => c.shared.reservation.isNone
    | _ => true
  | _ => true

/-- Recovery finds the room live, and a quarantine finds no other reservation. -/
def CleanTeardown (c : Config Slot Task Lock) (a : Action Task Choice) : Prop :=
  recoversLive c a ∧ quarantinesUnreserved c a

instance (c : Config Slot Task Lock) (a : Action Task Choice) : Decidable (CleanTeardown c a) :=
  inferInstanceAs (Decidable (_ ∧ _))

variable {c : Config Slot Task Lock} {t : ℕ}

theorem live_of_recoversLive {i : Incarnation} (h : recoversLive c (.advance t .proceed))
    (ht : c.task t = some (.recover (.waitControl i))) : c.shared.Live i := by
  simpa [recoversLive, ht] using h

variable {k : Task}

theorem unreserved_of_quarantinesUnreserved {i : Incarnation}
    (h : quarantinesUnreserved c (.advance t .unknown)) (ht : c.task t = some k)
    (hk : k = .control (.work i) ∨ k = .admin (.work (some i))) :
    c.shared.reservation = none := by
  rcases hk with rfl | rfl <;> simpa [quarantinesUnreserved, ht] using h

namespace Task

/-- A spawned restore that has already lifted the tombstone: from here on its
token may be stale. -/
def lingering : Task → Bool
  | delete (.delayedRelease _) => true
  | _ => false

def recovering : Task → Bool
  | recover (.unmap _) | recover (.reserve _) => true
  | _ => false

def revives : Task → Option Incarnation
  | delete (.sql (some i) _) | delete (.restore i _)
  | delete (.delayedRestore i _) => some i
  | _ => none

/-- A `remove_router` for an earlier incarnation is running. -/
def tearsDown : Task → Bool
  | teardown (.router _) | teardown (.viewers _ _) | cleanup .router
  | cleanup .viewers => true
  | _ => false

variable {k : Task}

theorem guards_of_recovering (h : k.recovering) : .creation ∈ k.guards := by
  revert h
  fun_cases recovering k <;> simp [guards]

theorem token_of_recovering (h : k.recovering) : k.token = none := by
  revert h
  fun_cases recovering k <;> simp [token]

variable {i : Incarnation}

theorem control_of_recovering (h : k.recovering) (hscope : k.scope.Allows (some i)) :
    .control i ∈ k.guards := by
  revert h hscope
  fun_cases recovering k <;> simp [scope, Scope.Allows, guards]

theorem token_of_revives (h : k.revives = some i) :
    ∃ token, k.token = some token ∧ k.lingering = false := by
  revert h
  fun_cases revives k <;> simp [token, lingering]

theorem control_of_scope {token : Token} (htoken : k.token = some token)
    (hlingering : k.lingering = false) (hscope : k.scope.Allows (some i)) :
    .control i ∈ k.guards ∨ k.revives = some i := by
  cases k with
  | teardown k => cases k <;> cases hscope
  | delete k =>
    cases k with
    | sql runtime =>
      cases runtime with
      | none => cases hscope
      | some => simp_all [scope, Scope.Allows, guards]
    | release runtime =>
      cases runtime with
      | none => cases hscope
      | some => simp_all [scope, Scope.Allows, guards]
    | _ => simp_all [Task.token, scope, Scope.Allows, guards, revives, lingering]
  | _ => cases htoken

end Task

/-! ## Where critical program points come from -/

section Origins

variable {s : Slot} {free : Lock → Bool} {choice : Choice} {o : Outcome Slot Task} {k k' : Task}

section

variable (h : act s free k choice = some o)
include h

theorem recovering_origin (hself : o.self = some k') (hk' : k'.recovering) :
    k.recovering ∨ ∃ i, k = .recover (.waitControl i) ∧ choice = .proceed ∧
      k' = .recover (.unmap i) := by
  have hfamily := (act_outcome h).1 hself
  cases k' with
  | recover =>
    cases k with
    | recover k =>
      revert h
      simp only [act]
      fun_cases recoverAct s free k choice <;> grind [finish, goTo, recovering]
    | _ => simp [family] at hfamily
  | _ => cases hk'

theorem revives_origin (hself : o.self = some k') {i : Incarnation} (hk' : k'.revives = some i) :
    (k.revives = some i ∧ o.shared = s) ∨ ∃ token, k = .delete (.tombstone i token) ∧
        o.shared = s.modifyRoom i Room.tombstone := by
  have hfamily := (act_outcome h).1 hself
  cases k' with
  | delete =>
    cases k with
    | delete k =>
      revert h
      simp only [act]
      fun_cases deleteAct s free k choice <;> grind [finish, goTo, revives]
    | _ => simp [family] at hfamily
  | _ => cases hk'

theorem cleanup_origin_self {k' : CleanupPoint} (hself : o.self = some (.cleanup k')) :
    ∃ k'', k = .cleanup k'' := by
  have hfamily := (act_outcome h).1 hself
  cases k with
  | cleanup k => exact ⟨k, rfl⟩
  | _ => simp [family] at hfamily

end

theorem quarantine_continues {i : Incarnation} (h : act s free k .unknown = some o)
    (htask : k = .control (.work i) ∨ k = .admin (.work (some i)))
    (hk' : o.self = some k' ∨ o.spawned = some k') :
    k'.token = none ∧ k'.recovering = false := by
  rcases htask with rfl | rfl <;> simp only [act, controlAct, adminAct, quarantineSection] at h <;>
    grind [token, recovering]

theorem not_lingering_of_continues (h : act s free k choice = some o)
    (hk' : o.self = some k' ∨ o.spawned = some k') : k.lingering = false := by
  cases k with
  | delete k =>
    revert h
    simp only [act]
    fun_cases deleteAct s free k choice <;> grind [finish, goTo, lingering]
  | _ => rfl

end Origins

/-! ## Reservations that are never given up -/

/-- The ID is reserved by a token that no task can release, and the room that
is still mapped, if any, is tombstoned. -/
structure Sealed (c : Config Slot Task Lock) (token : Token) : Prop where
  reserved : c.shared.reservation = some token
  unowned : ∀ {t k}, c.task t = some k → k.token ≠ some token
  tombstoned : ∀ {i}, c.shared.mapped = some i → (c.shared.room i).deleting = true
  recovered : ∀ {t k}, c.task t = some k → k.recovering = false
  /-- when nothing is mapped, nobody is about to create a room either -/
  vacant : ∀ {t k}, c.task t = some k → c.shared.mapped = none → k.admitted = false

/-- What holds along every run of clean steps. -/
structure Settled (c : Config Slot Task Lock) : Prop where
  orderly : Orderly c
  /-- every token that a task relies on is still installed -/
  installed : ∀ {t k}, c.task t = some k → k.lingering = false → k.Installed c.shared
  /-- recovery overwrites nobody's reservation -/
  exclusive : ∀ {t u k k'}, c.task t = some k → c.task u = some k' →
    k.recovering → k'.lingering = false → k'.token = none
  revivable : ∀ {t k i}, c.task t = some k → k.revives = some i → (c.shared.room i).deleting = true
  /-- the router of a quarantined room is removed under a sealed ID -/
  cleaned : ∀ {t k}, c.task t = some (.cleanup k) → c.shared.mapped ≠ none ∧ ∃ token, Sealed c token

section Sealed

variable {c : Config Slot Task Lock} {t u : ℕ} {k k' : Task}
  {choice : Choice} {o : Outcome Slot Task} {token : Token}

theorem Sealed.token_none (hs : Settled c) (h : Sealed c token)
    (hk : c.task t = some k) (hlingering : k.lingering = false) :
    k.token = none := by
  cases hother : k.token with
  | none => rfl
  | some other =>
    have hinstalled := hs.installed hk hlingering other hother
    rw [h.reserved] at hinstalled
    cases hinstalled
    exact absurd hother (h.unowned hk)

theorem Sealed.slot (hs : Settled c) (h : Sealed c token) (ha : lifecycle.Acts c t k choice o) :
    o.shared.reservation = some token ∧ o.shared.mapped = c.shared.mapped ∧
      o.shared.nextIncarnation = c.shared.nextIncarnation := by
  have hchange := slotChange_of_acts ha
  have hrunning := ha.running
  generalize hshared : o.shared = d at hchange
  cases hchange with
  | still mapped reservation _ nextIncarnation =>
    rw [reservation]
    exact ⟨h.reserved, mapped, nextIncarnation⟩
  | published =>
    have hmapped : c.shared.mapped = none := (hs.orderly.meets hrunning).scope (.of_token_none rfl)
    have := h.vacant hrunning hmapped
    cases this
  | evicted task creation control live =>
    have := h.tombstoned live.1
    rw [live.2] at this
    cases this
  | reserved task unreserved =>
    rw [h.reserved] at unreserved
    cases unreserved
  | @released k other holder =>
    have hne : ¬ c.shared.reservation = some other := by
      rw [h.reserved]
      rintro ⟨⟩
      exact h.unowned hrunning holder
    rw [releaseDeletionReservation_reservation, if_neg hne]
    exact ⟨h.reserved, by simp, by simp⟩
  | unmapped task =>
    rcases task with ⟨other, rfl⟩ | rfl
    · have := h.token_none hs hrunning rfl
      cases this
    · have := h.recovered hrunning
      cases this
  | recovered =>
    have := h.recovered hrunning
    cases this
  | quarantined task live =>
    have := h.tombstoned live.1
    rw [live.2] at this
    cases this
  | uncertain =>
    rw [orInsertReservation_of_some h.reserved]
    exact ⟨h.reserved, rfl, rfl⟩
  | _ => exact ⟨h.reserved, rfl, rfl⟩

theorem Sealed.apply (hs : Settled c) (h : Sealed c token)
    (ha : lifecycle.Acts c t k choice o) (hclean : recoversLive c (.advance t choice)) :
    Sealed (lifecycle.apply c t k o) token := by
  have hchange := slotChange_of_acts ha
  obtain ⟨hreservation, hmapped, -⟩ := h.slot hs ha
  refine ⟨hreservation, ?_, ?_, ?_, ?_⟩
  · intro u k' hu htoken
    rcases hs.orderly.task_cases ha hu with ⟨hfollows, -⟩ | ⟨-, hu⟩
    · rcases hfollows.token with hnone | ⟨hsame, -⟩ | ⟨hfresh, -⟩
      · rw [hnone] at htoken
        cases htoken
      · rw [hsame] at htoken
        exact h.unowned ha.running htoken
      · rw [hfresh] at htoken
        cases htoken
        exact absurd (hs.orderly.reservation_lt h.reserved) (Nat.lt_irrefl _)
    · exact h.unowned hu htoken
  · intro i hi
    change o.shared.mapped = some i at hi
    change (o.shared.room i).deleting = true
    rw [hmapped] at hi
    have hbefore := h.tombstoned hi
    rcases hchange.deleting i with
      heq | heq | ⟨other, htask⟩ | ⟨persisted, rfl, -⟩
    · rw [heq, hbefore]
    · exact heq
    · rcases htask with rfl | rfl
      all_goals
        have := h.token_none hs ha.running rfl
        cases this
    · have hnone : c.shared.mapped = none :=
        (hs.orderly.meets ha.running).scope (.of_token_none rfl)
      rw [hnone] at hi
      cases hi
  · intro u k' hu
    rcases hs.orderly.task_cases ha hu with ⟨-, horigin⟩ | ⟨-, hu⟩
    · by_contra hk'
      rw [Bool.not_eq_false] at hk'
      rcases horigin with ⟨hself, -⟩ | ⟨hspawned, -⟩
      · rcases recovering_origin ha.acted hself hk' with
          hk | ⟨i, rfl, rfl, -⟩
        · rw [h.recovered ha.running] at hk
          cases hk
        have hlive := live_of_recoversLive hclean ha.running
        have := h.tombstoned hlive.1
        rw [hlive.2] at this
        cases this
      · rcases (act_outcome ha.acted).2 hspawned with
          ⟨i, rfl, -⟩ | ⟨i, other, rfl, -⟩ <;> cases hk'
    · exact h.recovered hu
  · intro u k' hu hnone
    change o.shared.mapped = none at hnone
    rw [hmapped] at hnone
    rcases hs.orderly.task_cases ha hu with ⟨hfollows, -⟩ | ⟨-, hu⟩
    · by_contra hk'
      rw [Bool.not_eq_false] at hk'
      rcases (hfollows.admitted hk').2 with hk | hunreserved
      · rw [h.vacant ha.running hnone] at hk
        cases hk
      · rw [h.reserved] at hunreserved
        cases hunreserved
    · exact h.vacant hu hnone

theorem Task.initial_recovering {k : Task} (h : k.initial) :
    k.recovering = false ∧ k.revives = none ∧ k.family ≠ .cleanup := by
  revert h
  fun_cases initial k <;> simp [recovering, revives, family]

theorem Sealed.launch (hc : Orderly c) (h : Sealed c token)
    (hk : k.initial) : Sealed (c.launch k) token := by
  obtain ⟨htoken, -, hadmitted⟩ := initial_token hk
  refine ⟨h.reserved, ?_, h.tombstoned, ?_, ?_⟩
  · intro u k' hu
    rcases hc.coherent.launched hu with rfl | hu
    · rw [htoken]
      rintro ⟨⟩
    · exact h.unowned hu
  · intro u k' hu
    rcases hc.coherent.launched hu with rfl | hu
    · exact (initial_recovering hk).1
    · exact h.recovered hu
  · intro u k' hu hnone
    rcases hc.coherent.launched hu with rfl | hu
    · exact hadmitted
    · exact h.vacant hu hnone

end Sealed

/-! ## Clean runs stay settled -/

namespace Settled

variable {c : Config Slot Task Lock} {t u : ℕ} {k k' : Task}
  {choice : Choice} {o : Outcome Slot Task}

variable {i : Incarnation}

section

variable (h : Settled c)
include h

theorem token_none_of_live (hu : c.task u = some k') (hlingering : k'.lingering = false)
    (hlive : c.shared.Live i) (hcontrol : .control i ∉ k'.guards) :
    k'.token = none := by
  cases htoken : k'.token with
  | none => rfl
  | some =>
    have hscope := (h.orderly.meets hu).scope (h.installed hu hlingering)
    rw [hlive.1] at hscope
    rcases control_of_scope htoken hlingering hscope with hk | hk
    · exact absurd hk hcontrol
    have := h.revivable hu hk
    rw [hlive.2] at this
    cases this

theorem control_of_free (hu : c.task u = some k') (hfree : c.free (.control i)) :
    .control i ∉ k'.guards := by
  intro hguard
  rw [h.orderly.coherent.not_free hu hguard] at hfree
  cases hfree

section

variable (ha : lifecycle.Acts c t k choice o)
include ha

theorem installed_of_other (hne : u ≠ t) (hu : c.task u = some k')
    (hlingering : k'.lingering = false) : k'.Installed o.shared := by
  intro token htoken
  have hinstalled := h.installed hu hlingering token htoken
  have hchange := slotChange_of_acts ha
  have hrunning := ha.running
  generalize hshared : o.shared = d at hchange
  cases hchange with
  | still _ reservation => rw [reservation, hinstalled]
  | evicted task creation control live =>
    have := h.token_none_of_live hu hlingering live (h.control_of_free hu control)
    rw [this] at htoken
    cases htoken
  | reserved task unreserved =>
    rw [hinstalled] at unreserved
    cases unreserved
  | @released k other holder =>
    have hother : ¬ c.shared.reservation = some other := by
      rw [hinstalled]
      rintro ⟨⟩
      exact hne (h.orderly.token_unique hu hrunning htoken holder)
    rw [releaseDeletionReservation_reservation, if_neg hother]
    exact hinstalled
  | unmapped => simpa using hinstalled
  | recovered =>
    have := h.exclusive hrunning hu rfl hlingering
    rw [this] at htoken
    cases htoken
  | @quarantined k i task live =>
    have hmodified : (c.shared.modifyRoom i fun room =>
        room.tombstone.clearMembers).reservation = some token := hinstalled
    rw [quarantineRoom_of_live live, orInsertReservation_of_some hmodified]
    exact hinstalled
  | uncertain =>
    rw [orInsertReservation_of_some hinstalled]
    exact hinstalled
  | _ => exact hinstalled

theorem apply_installed (hu : (lifecycle.apply c t k o).task u = some k')
    (hlingering : k'.lingering = false) : k'.Installed o.shared := by
  rcases h.orderly.task_cases ha hu with ⟨hfollows, horigin⟩ | ⟨hne, hu⟩
  · intro token htoken
    rcases hfollows.token with hnone | ⟨hsame, heq⟩ | ⟨hfresh, heq, -⟩
    · rw [hnone] at htoken
      cases htoken
    · have hk := not_lingering_of_continues ha.acted (horigin.imp And.left And.left)
      rw [hsame] at htoken
      rw [heq]
      exact h.installed ha.running hk token htoken
    · rw [heq, ← hfresh, htoken]
  · exact h.installed_of_other ha hne hu hlingering

/-- When recovery closes a live room, nobody relies on a token. -/
theorem exclusive_of_origin (hclean : recoversLive c (.advance t choice)) {k₁ k₂ : Task}
    (hself : o.self = some k₁) (h₁ : k₁.recovering) (hu : c.task u = some k₂)
    (h₂ : k₂.lingering = false) : k₂.token = none := by
  rcases recovering_origin ha.acted hself h₁ with hk | ⟨i, rfl, rfl, rfl⟩
  · exact h.exclusive ha.running hu hk h₂
  have henters := ha.enters (.control i) (by
    rw [hself]
    simp [Protocol.held, lifecycle, guards])
  have hfree : c.free (.control i) := by
    rcases henters with hguard | hnone
    · simp [lifecycle, guards] at hguard
    · simp [Config.free, hnone]
  exact h.token_none_of_live hu h₂ (live_of_recoversLive hclean ha.running)
    (h.control_of_free hu hfree)

theorem apply_exclusive (hclean : recoversLive c (.advance t choice)) {v : ℕ}
    {k₁ k₂ : Task} (hu : (lifecycle.apply c t k o).task u = some k₁)
    (hv : (lifecycle.apply c t k o).task v = some k₂) (h₁ : k₁.recovering)
    (h₂ : k₂.lingering = false) : k₂.token = none := by
  have hspawned {k' : Task} (hk' : o.spawned = some k') : k'.recovering = false := by
    rcases (act_outcome ha.acted).2 hk' with
      ⟨i, rfl, -⟩ | ⟨i, other, rfl, -⟩ <;> rfl
  rcases h.orderly.task_cases ha hv with ⟨hfollows, horigin⟩ | ⟨-, hv⟩
  · rcases hfollows.token with hnone | ⟨hsame, -⟩ | ⟨-, -, -, hcreation⟩
    · exact hnone
    · have hk := not_lingering_of_continues ha.acted (horigin.imp And.left And.left)
      rw [hsame]
      rcases h.orderly.task_cases ha hu with ⟨-, hu⟩ | ⟨-, hu⟩
      · rcases hu with ⟨hself, -⟩ | ⟨hsp, -⟩
        · exact h.exclusive_of_origin ha hclean hself h₁ ha.running hk
        · rw [hspawned hsp] at h₁
          cases h₁
      · exact h.exclusive hu ha.running h₁ hk
    · rcases h.orderly.task_cases ha hu with ⟨-, hu⟩ | ⟨hne, hu⟩
      · -- recovery spawns nothing, so both continuations are the same
        rcases hu with ⟨hself, -⟩ | ⟨hsp, -⟩
        · rcases horigin with ⟨hself₂, -⟩ | ⟨hsp, -⟩
          · rw [hself] at hself₂
            cases hself₂
            exact token_of_recovering h₁
          rcases (act_outcome ha.acted).2 hsp with
            ⟨i, rfl, -⟩ | ⟨i, other, rfl, -, -, hnone⟩
          · rfl
          · rw [hnone] at hself
            cases hself
        · rw [hspawned hsp] at h₁
          cases h₁
      · exact absurd hcreation (h.orderly.creation_of_other ha hne hu (guards_of_recovering h₁))
  · rcases h.orderly.task_cases ha hu with ⟨-, hu⟩ | ⟨-, hu⟩
    · rcases hu with ⟨hself, -⟩ | ⟨hsp, -⟩
      · exact h.exclusive_of_origin ha hclean hself h₁ hv h₂
      · rw [hspawned hsp] at h₁
        cases h₁
    · exact h.exclusive hu hv h₁ h₂

theorem apply_revivable (hu : (lifecycle.apply c t k o).task u = some k')
    (hk' : k'.revives = some i) : (o.shared.room i).deleting = true := by
  rcases h.orderly.task_cases ha hu with ⟨-, horigin⟩ | ⟨hne, hold⟩
  · rcases horigin with ⟨hself, -⟩ | ⟨hspawned, -⟩
    · rcases revives_origin ha.acted hself hk' with
        ⟨hk, heq⟩ | ⟨token, -, heq⟩
      · rw [heq]
        exact h.revivable ha.running hk
      · rw [heq, modifyRoom_room, if_pos rfl]
        rfl
    · rcases (act_outcome ha.acted).2 hspawned with
        ⟨j, rfl, -⟩ | ⟨j, token, rfl, rfl, heq, -⟩
      · cases hk'
      cases hk'
      rw [heq]
      exact h.revivable ha.running rfl
  · have hbefore := h.revivable hold hk'
    have hchange := slotChange_of_acts ha
    obtain ⟨token, htoken, hlingering⟩ := token_of_revives hk'
    have hinstalled := h.installed hold hlingering token htoken
    rcases hchange.deleting i with
      heq | heq | ⟨other, htask⟩ | ⟨persisted, rfl, -⟩
    · rw [heq, hbefore]
    · exact heq
    · -- two tasks that may revive one room would hold the same token
      have hother : k.token = some other ∧ k.lingering = false := by
        rcases htask with rfl | rfl <;> exact ⟨rfl, rfl⟩
      have hsame := h.installed ha.running hother.2 other hother.1
      rw [hinstalled] at hsame
      cases hsame
      exact absurd (h.orderly.token_unique hold ha.running htoken hother.1) hne
    · exact absurd hinstalled (h.orderly.admitted ha.running hold rfl htoken)

end

theorem sealed_of_quarantine (ha : lifecycle.Acts c t k .unknown o)
    (htask : k = .control (.work i) ∨ k = .admin (.work (some i)))
    (hlive : c.shared.Live i) (heq : o.shared = c.shared.quarantineRoom i)
    (hunreserved : c.shared.reservation = none) :
    Sealed (lifecycle.apply c t k o) c.shared.nextToken := by
  have hmodified : (c.shared.modifyRoom i fun room =>
      room.tombstone.clearMembers).reservation = none := hunreserved
  rw [quarantineRoom_of_live hlive, orInsertReservation_of_none hmodified] at heq
  have hmapped : o.shared.mapped = some i := by
    rw [heq]
    exact hlive.1
  refine ⟨?_, ?_, ?_, ?_, ?_⟩
  · change o.shared.reservation = _
    rw [heq]
    rfl
  · intro u k' hu htoken
    rcases h.orderly.task_cases ha hu with ⟨-, horigin⟩ | ⟨-, hu⟩
    · rw [(quarantine_continues ha.acted htask (horigin.imp And.left And.left)).1] at htoken
      cases htoken
    · exact absurd (h.orderly.token_lt hu htoken) (Nat.lt_irrefl _)
  · intro j hj
    change o.shared.mapped = some j at hj
    rw [hmapped] at hj
    cases hj
    change (o.shared.room i).deleting = true
    rw [heq]
    simp [insertReservation, modifyRoom_room, Room.clearMembers, Room.tombstone]
  · intro u k' hu
    rcases h.orderly.task_cases ha hu with ⟨-, horigin⟩ | ⟨hne, hu⟩
    · exact (quarantine_continues ha.acted htask (horigin.imp And.left And.left)).2
    by_contra hk'
    rw [Bool.not_eq_false] at hk'
    have hscope := (h.orderly.meets hu).scope (.of_token_none (token_of_recovering hk'))
    rw [hlive.1] at hscope
    have hguard := control_of_recovering hk' hscope
    refine hne (h.orderly.coherent.eq_of_guard hu ha.running hguard ?_)
    rcases htask with rfl | rfl <;> simp [lifecycle, guards]
  · intro u k' hu hnone
    change o.shared.mapped = none at hnone
    rw [hmapped] at hnone
    cases hnone

theorem apply_cleaned (ha : lifecycle.Acts c t k choice o)
    (hclean : CleanTeardown c (.advance t choice)) {k' : CleanupPoint}
    (hu : (lifecycle.apply c t k o).task u = some (.cleanup k')) :
    o.shared.mapped ≠ none ∧ ∃ token, Sealed (lifecycle.apply c t k o) token := by
  have hkeeps {v : ℕ} {k'' : CleanupPoint} (hv : c.task v = some (.cleanup k'')) :
      o.shared.mapped ≠ none ∧ ∃ token, Sealed (lifecycle.apply c t k o) token := by
    obtain ⟨hmapped, token, hsealed⟩ := h.cleaned hv
    rw [(hsealed.slot h ha).2.1]
    exact ⟨hmapped, token, hsealed.apply h ha hclean.1⟩
  rcases h.orderly.task_cases ha hu with ⟨-, horigin⟩ | ⟨-, hold⟩
  · rcases horigin with ⟨hself, -⟩ | ⟨hspawned, -⟩
    · obtain ⟨k'', rfl⟩ := cleanup_origin_self ha.acted hself
      exact hkeeps ha.running
    rcases (act_outcome ha.acted).2 hspawned with
      ⟨i, -, htask, rfl, hlive, heq⟩ | ⟨i, token, hcontra, -⟩
    · have hunreserved := unreserved_of_quarantinesUnreserved hclean.2 ha.running htask
      have hsealed := h.sealed_of_quarantine ha htask hlive heq hunreserved
      refine ⟨?_, _, hsealed⟩
      rw [heq, quarantineRoom_of_live hlive]
      simp [hlive.1]
    · cases hcontra
  · exact hkeeps hold

theorem launch (hk : k.initial) : Settled (c.launch k) := by
  obtain ⟨htoken, -, -⟩ := initial_token hk
  obtain ⟨hrecovering, hrevives, hfamily⟩ := initial_recovering hk
  refine ⟨h.orderly.launch hk, ?_, ?_, ?_, ?_⟩
  · intro u k' hu hlingering
    rcases h.orderly.coherent.launched hu with rfl | hu
    · exact .of_token_none htoken
    · exact h.installed hu hlingering
  · intro u v k₁ k₂ hu hv h₁ h₂
    rcases h.orderly.coherent.launched hv with rfl | hv
    · exact htoken
    rcases h.orderly.coherent.launched hu with rfl | hu
    · rw [hrecovering] at h₁
      cases h₁
    · exact h.exclusive hu hv h₁ h₂
  · intro u k' i hu hk'
    rcases h.orderly.coherent.launched hu with rfl | hu
    · rw [hrevives] at hk'
      cases hk'
    · exact h.revivable hu hk'
  · intro u k' hu
    rcases h.orderly.coherent.launched hu with rfl | hu
    · exact absurd rfl hfamily
    · obtain ⟨hmapped, token, hsealed⟩ := h.cleaned hu
      exact ⟨hmapped, token, hsealed.launch h.orderly hk⟩

theorem step {a : Action Task Choice} {d : Config Slot Task Lock}
    (hclean : CleanTeardown c a) (hstep : lifecycle.step c a = some d) : Settled d := by
  cases a with
  | start =>
    obtain ⟨hk, rfl⟩ := lifecycle.step_start_eq_some.mp hstep
    exact h.launch hk
  | advance =>
    obtain ⟨k, o, ha, rfl⟩ := lifecycle.step_advance_eq_some.mp hstep
    exact {
      orderly := h.orderly.apply ha
      installed := h.apply_installed ha
      exclusive := h.apply_exclusive ha hclean.1
      revivable := fun hu hk' => h.apply_revivable ha hu hk'
      cleaned := h.apply_cleaned ha hclean }

end

end Settled

theorem lifecycleStart_settled : Settled lifecycleStart where
  orderly := lifecycleStart_orderly
  installed h := by cases h
  exclusive h := by cases h
  revivable h := by cases h
  cleaned h := by cases h

/-! ## Incarnations follow one another -/

/-- Incarnations of one ID never overlap and old tokens never remove newer
reservations. -/
structure IncarnationsOrdered (c : Config Slot Task Lock) : Prop where
  /-- a creator that publishes its room replaces none -/
  single : ∀ {t persisted}, c.task t = some (.join (.publish persisted)) → c.shared.mapped = none
  /-- `create_router` never runs beside a `remove_router` -/
  apart : ∀ {t u persisted k}, c.task t = some (.join (.media persisted)) →
    c.task u = some k → k.tearsDown = false
  /-- a reservation is installed under a token that nobody holds yet -/
  fresh : ∀ {a d token t k}, lifecycle.step c a = some d → d.shared.reservation = some token →
    c.shared.reservation ≠ some token → c.task t = some k →
    k.token ≠ some token
  /-- whoever holds a token leaves a reservation by another token alone -/
  releases : ∀ {t k token other choice d}, c.task t = some k →
    k.token = some token → c.shared.reservation = some other →
    other ≠ token → lifecycle.step c (.advance t choice) = some d →
    d.shared.reservation = some other

variable {token : Token}

theorem SlotChange.reservation_of_holder {s t : Slot} {free : Lock → Bool}
    {other : Token} (h : SlotChange s free k t)
    (htoken : k.token = some token) (hother : s.reservation = some other)
    (hne : other ≠ token) : t.reservation = some other := by
  cases h with
  | still _ reservation => rw [reservation, hother]
  | evicted task => rcases task with rfl | rfl <;> cases htoken
  | reserved task => rcases task with rfl | ⟨i, rfl, -⟩ <;> cases htoken
  | tombstoned | restored | closed => exact hother
  | released holder =>
    rw [htoken] at holder
    cases holder
    rw [releaseDeletionReservation_reservation, if_neg, hother]
    rw [hother]
    rintro ⟨⟩
    exact hne rfl
  | unmapped => simpa using hother
  | quarantined task => rcases task with rfl | rfl <;> cases htoken
  | _ => cases htoken

theorem reservation_of_holder_step {d : Config Slot Task Lock} {other : Token}
    {choice : Choice} (hk : c.task t = some k) (htoken : k.token = some token)
    (hother : c.shared.reservation = some other) (hne : other ≠ token)
    (hstep : lifecycle.step c (.advance t choice) = some d) :
    d.shared.reservation = some other := by
  obtain ⟨k', o, ha, rfl⟩ := lifecycle.step_advance_eq_some.mp hstep
  have hsame := ha.running
  rw [hk] at hsame
  cases hsame
  have hchange := slotChange_of_acts ha
  exact hchange.reservation_of_holder htoken hother hne

theorem Orderly.token_fresh {d : Config Slot Task Lock} {a : Action Task Choice}
    (h : Orderly c) (hstep : lifecycle.step c a = some d)
    (hnew : d.shared.reservation = some token)
    (hold : c.shared.reservation ≠ some token) (hk : c.task t = some k) :
    k.token ≠ some token := by
  intro htoken
  cases a with
  | start =>
    obtain ⟨-, rfl⟩ := lifecycle.step_start_eq_some.mp hstep
    exact hold hnew
  | advance =>
    obtain ⟨k', o, ha, rfl⟩ := lifecycle.step_advance_eq_some.mp hstep
    have hchange : SlotChange c.shared c.free k' o.shared := act_change ha.acted
    change o.shared.reservation = some token at hnew
    rcases hchange.reservation with ⟨heq, -⟩ | ⟨heq, -⟩ | ⟨-, -, -, heq, -⟩
    · rw [heq] at hnew
      exact hold hnew
    · rw [heq] at hnew
      cases hnew
      exact absurd (h.token_lt hk htoken) (Nat.lt_irrefl _)
    · rw [heq] at hnew
      cases hnew

theorem Settled.incarnationsOrdered (h : Settled c) : IncarnationsOrdered c where
  single ht := (h.orderly.meets ht).scope (.of_token_none rfl)
  apart := by
    intro t u persisted k ht hu
    have hmapped : c.shared.mapped = none := (h.orderly.meets ht).scope (.of_token_none rfl)
    cases k with
    | teardown k =>
      by_contra hk
      obtain ⟨token, htoken⟩ : ∃ token, (teardown k).token = some token := by
        cases k <;> exact ⟨_, rfl⟩
      exact h.orderly.admitted ht hu rfl htoken (h.installed hu rfl token htoken)
    | cleanup => exact absurd hmapped (h.cleaned hu).1
    | _ => rfl
  fresh := h.orderly.token_fresh
  releases := reservation_of_holder_step

/-- In every run in which recovery closes only live rooms and quarantines find
their ID unreserved, incarnations follow one another. -/
theorem incarnations_ordered_of_cleanTeardown {actions : List (Action Task Choice)}
    {c : Config Slot Task Lock}
    (hclean : RunMeets lifecycle.step CleanTeardown lifecycleStart actions)
    (hrun : run lifecycle.step lifecycleStart actions = some c) :
    IncarnationsOrdered c := by
  have hsettled : Settled c :=
    run_invariant (fun _ _ _ hs hc hstep => hs.step hc hstep)
      lifecycleStart_settled hclean hrun
  exact hsettled.incarnationsOrdered

/-! ## Two runs -/

/-- `n` undisturbed actions of task `t`. -/
def advances (t n : ℕ) : List (Action Task Choice) :=
  List.replicate n (.advance t .proceed)

/-- Task `t` creates a persisted room with a router on worker `worker`. -/
def createsRoom (t : ℕ) (worker : WorkerId) : List (Action Task Choice) :=
  .start (.join .start) :: advances t 5 ++
    [.advance t (.loaded true), .advance t (.media worker true), .advance t .proceed]

def ownerJoins : List (Action Task Choice) :=
  createsRoom 0 7 ++ advances 0 1 ++ [.advance 0 (.enter ⟨10, 1, .owner, true, none⟩)]

def ownerReturns : List (Action Task Choice) :=
  ownerJoins ++ .start (.leave (.start 10 1)) :: advances 1 6 ++ createsRoom 2 7

theorem ownerReturns_incarnations : RunMeets lifecycle.step CleanTeardown lifecycleStart
        ownerReturns ∧
      ∃ c, run lifecycle.step lifecycleStart ownerReturns = some c ∧ IncarnationsOrdered c := by
  have hclean : RunMeets lifecycle.step CleanTeardown
      lifecycleStart ownerReturns := by decide
  have hsome : (run lifecycle.step lifecycleStart
      ownerReturns).isSome := by decide
  obtain ⟨c, hc⟩ := Option.isSome_iff_exists.mp hsome
  exact ⟨hclean, c, hc, incarnations_ordered_of_cleanTeardown hclean hc⟩

/-- A controlled write of the owner ends with an unknown outcome and the room
is quarantined. Before the spawned cleanup reaches the router, its worker
dies: recovery tears the room down and releases the ID. The next join is
creating a router when the old cleanup begins to remove one. -/
def quarantineThenWorkerDeath : List (Action Task Choice) :=
  ownerJoins ++ .start (.control .start) :: advances 1 2 ++
    [.advance 1 .unknown, .start (.recover (.start 7))] ++ advances 3 9 ++
    .start (.join .start) :: advances 4 5 ++
    [.advance 4 (.loaded true), .advance 2 .proceed]

theorem router_created_during_removal : ¬ ∀ actions c,
      run lifecycle.step lifecycleStart actions = some c → IncarnationsOrdered c := by
  intro hordered
  have htasks : (run lifecycle.step lifecycleStart
      quarantineThenWorkerDeath).map (fun c => (c.task 2, c.task 4)) =
        some (some (.cleanup .router), some (.join (.media true))) := by
    decide
  obtain ⟨c, hc, htasks⟩ := Option.map_eq_some_iff.mp htasks
  obtain ⟨hcleanup, hmedia⟩ := Prod.mk.inj htasks
  have hapart := (hordered _ c hc).apart hmedia hcleanup
  cases hapart

end SimplestChat
