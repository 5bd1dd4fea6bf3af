import SimplestChat.Room.SlotChanges

/-!
# The reservation protocol

A room ID is torn down outside every lock, so teardown and recreation are
ordered by the reservation alone. This file proves what holds of it in every
interleaving whatsoever: tokens are fresh and belong to one task, a task whose
token is still installed knows what is mapped under the ID, and a creator past
its checks meets neither the owner of the installed token nor a pending
administrative write.
-/

namespace SimplestChat

open Interleaving Slot SimplestChat.Task

/-! ## What a program point relies on -/

/-- What may be mapped under the ID. -/
inductive Scope where
  | anything
  | only (i : Incarnation)
  | nothing

def Scope.Allows : Scope → Option Incarnation → Prop
  | anything, _ => True
  | only i, mapped => mapped = none ∨ mapped = some i
  | nothing, mapped => mapped = none

@[simp] theorem Scope.allows_none (scope : Scope) : scope.Allows none := by
  cases scope <;> simp [Allows]

namespace Task

def scope : Task → Scope
  | join .load | join (.media _) | join (.publish _) | join .rollback => .nothing
  | teardown (.router _) | teardown (.viewers _ _) | teardown (.release _) => .nothing
  | delete .reserve | delete (.sql none _) | delete (.release none _) => .nothing
  | delete (.waitControl i) | delete (.tombstone i _)
  | delete (.sql (some i) _) | delete (.drain i _) | delete (.unmap i _)
  | delete (.restore i _) | delete (.release (some i) _)
  | delete (.delayedRestore i _) => .only i
  | admin (.work none) => .nothing
  | recover (.checkWorker i _) | recover (.waitControl i)
  | recover (.unmap i) => .only i
  | recover (.reserve _) => .nothing
  | _ => .anything

/-- A creator that has seen no reservation under the creation lock. -/
def admitted : Task → Bool
  | join .checkMarker | join .remap | join .load | join (.media _)
  | join (.publish _) | join .rollback => true
  | _ => false

/-- A creator that has also seen no identity update. -/
def unmarked : Task → Bool
  | join .remap | join .load | join (.media _) | join (.publish _)
  | join .rollback => true
  | _ => false

def Installed (k : Task) (s : Slot) : Prop :=
  ∀ token, k.token = some token → s.reservation = some token

structure Meets (k : Task) (s : Slot) : Prop where
  scope : k.Installed s → k.scope.Allows s.mapped
  secured : .creation ∈ k.guards → k.Installed s

variable {k : Task}

theorem guard_of_scope (htoken : k.token = none) (hscope : k.scope ≠ .anything) :
    .creation ∈ k.guards ∨ .identityUpdate ∈ k.guards := by
  revert htoken hscope
  fun_cases scope k <;> simp [token, guards]

theorem guards_of_admitted (h : k.admitted) : .creation ∈ k.guards := by
  revert h
  fun_cases admitted k <;> simp [guards]

theorem admitted_of_unmarked (h : k.unmarked) : k.admitted := by
  revert h
  fun_cases unmarked k <;> simp [admitted]

theorem not_marks_of_unmarked (h : k.unmarked) : .identityUpdate ∉ k.guards := by
  revert h
  fun_cases unmarked k <;> simp [guards]

end Task

/-! ## Fields after a change -/

namespace SlotChange

variable {s t : Slot} {free : Lock → Bool} {k : Task}

theorem orInsert_reservation (s : Slot) {k : Task} :
    (s.orInsertReservation.reservation = s.reservation ∧
        s.orInsertReservation.nextToken = s.nextToken) ∨
      (s.orInsertReservation.reservation = some s.nextToken ∧
        s.orInsertReservation.nextToken = s.nextToken + 1 ∧
        (.creation ∈ k.guards ∨ free .creation ∨ s.reservation = none)) := by
  cases hreservation : s.reservation with
  | none =>
    rw [orInsertReservation_of_none hreservation]
    exact .inr ⟨rfl, rfl, .inr (.inr rfl)⟩
  | some =>
    rw [orInsertReservation_of_some hreservation]
    exact .inl ⟨hreservation, rfl⟩

theorem mapped (h : SlotChange s free k t) : t.mapped = s.mapped ∨ t.mapped = none ∨
      ∃ persisted, k = .join (.publish persisted) ∧ t = s.publishRoom persisted := by
  cases h with
  | still mapped => exact .inl mapped
  | published persisted => exact .inr (.inr ⟨persisted, rfl, rfl⟩)
  | evicted task creation control live =>
    rw [evictRoom_of_mapped live.1]
    exact .inr (.inl rfl)
  | released | uncertain => exact .inl (by simp)
  | unmapped =>
    rw [unmap_mapped]
    split
    · exact .inr (.inl rfl)
    · exact .inl rfl
  | quarantined task live =>
    rw [quarantineRoom_of_live live]
    exact .inl (by simp)
  | _ => exact .inl rfl

theorem reservation (h : SlotChange s free k t) :
    (t.reservation = s.reservation ∧ t.nextToken = s.nextToken) ∨
      (t.reservation = some s.nextToken ∧ t.nextToken = s.nextToken + 1 ∧
        (.creation ∈ k.guards ∨ free .creation ∨ s.reservation = none)) ∨
      ∃ token, k.token = some token ∧ s.reservation = some token ∧
        t.reservation = none ∧ t.nextToken = s.nextToken := by
  cases h with
  | still _ reservation nextToken => exact .inl ⟨reservation, nextToken⟩
  | evicted task creation control live =>
    rw [evictRoom_of_mapped live.1]
    exact .inr (.inl ⟨rfl, rfl, .inr (.inl creation)⟩)
  | reserved task =>
    refine .inr (.inl ⟨rfl, rfl, .inl ?_⟩)
    rcases task with rfl | ⟨i, rfl, -⟩ <;> simp [guards]
  | released holder =>
    rw [releaseDeletionReservation_reservation]
    split
    · rename_i hinstalled
      exact .inr (.inr ⟨_, holder, hinstalled, rfl, by simp⟩)
    · exact .inl ⟨rfl, by simp⟩
  | unmapped => exact .inl ⟨by simp, by simp⟩
  | recovered => exact .inr (.inl ⟨rfl, rfl, .inl (by simp [guards])⟩)
  | quarantined task live =>
    rw [quarantineRoom_of_live live]
    exact (orInsert_reservation _).imp_right .inl
  | uncertain => exact (orInsert_reservation s).imp_right .inl
  | _ => exact .inl ⟨rfl, rfl⟩

theorem deleting (h : SlotChange s free k t) (i : Incarnation) :
    (t.room i).deleting = (s.room i).deleting ∨ (t.room i).deleting = true ∨
      (∃ token, k = .delete (.restore i token) ∨ k = .delete (.delayedRestore i token)) ∨
      ∃ persisted, k = .join (.publish persisted) ∧ i = s.nextIncarnation := by
  have htombstone {j : Incarnation} {f : Room → Room} (hf : (f (s.room j)).deleting = true) :
      ((s.modifyRoom j f).room i).deleting = (s.room i).deleting ∨
        ((s.modifyRoom j f).room i).deleting = true := by
    rw [modifyRoom_room]
    split
    · exact .inr hf
    · exact .inl rfl
  cases h with
  | still _ _ _ _ tombstones => exact .inl (tombstones i)
  | published persisted =>
    rcases eq_or_ne i s.nextIncarnation with rfl | hne
    · exact .inr (.inr (.inr ⟨persisted, rfl, rfl⟩))
    · exact .inl (by simp [publishRoom, Function.update_of_ne hne])
  | evicted task creation control live =>
    rw [evictRoom_of_mapped live.1]
    simp only [Function.update_apply]
    split
    · exact .inr (.inl rfl)
    · exact .inl rfl
  | reserved | recovered => exact .inl rfl
  | tombstoned | closed => exact (htombstone rfl).imp_right .inl
  | @restored k j token task =>
    rcases eq_or_ne i j with rfl | hne
    · exact .inr (.inr (.inl ⟨token, task⟩))
    · exact .inl (by rw [modifyRoom_room, if_neg hne])
  | quarantined task live =>
    rw [quarantineRoom_of_live live, orInsertReservation_room]
    exact (htombstone rfl).imp_right .inl
  | _ => exact .inl (by simp)

end SlotChange

/-! ## Where the acting task continues -/

/-- What a task at `k'` inherits from the point `k` it comes from. -/
structure Follows (s : Slot) (free : Lock → Bool) (k k' : Task) (t : Slot) : Prop where
  meets : k.Meets s → k'.Meets t
  token : k'.token = none ∨ (k'.token = k.token ∧ t.reservation = s.reservation) ∨
    (k'.token = some s.nextToken ∧ t.reservation = some s.nextToken ∧
      t.nextToken = s.nextToken + 1 ∧ (.creation ∈ k.guards ∨ free .creation))
  admitted : k'.admitted → t.reservation = s.reservation ∧ (k.admitted ∨ s.reservation = none)
  unmarked : k'.unmarked → k.unmarked ∨ k.admitted ∧ free .identityUpdate
  marks : .identityUpdate ∈ k'.guards → .identityUpdate ∈ k.guards ∨ .creation ∈ k.guards

section Follows

variable {s t : Slot} {free : Lock → Bool} {choice : Choice} {o : Outcome Slot Task} {k k' : Task}

theorem Task.Installed.of_token_none (h : k.token = none) : k.Installed s := by
  intro token htoken
  rw [h] at htoken
  cases htoken

theorem Task.Meets.of_token_none (htoken : k.token = none)
    (hscope : k.scope.Allows s.mapped) : k.Meets s where
  scope _ := hscope
  secured _ := .of_token_none htoken

theorem Follows.tokenless (htoken : k'.token = none)
    (hscope : k.Meets s → k'.scope.Allows t.mapped) (hadmitted : k'.admitted = false)
    (hmark : .identityUpdate ∈ k'.guards → .identityUpdate ∈ k.guards ∨ .creation ∈ k.guards) :
    Follows s free k k' t where
  meets h := .of_token_none htoken (hscope h)
  token := .inl htoken
  admitted h := by
    rw [hadmitted] at h
    cases h
  unmarked h := by
    have := admitted_of_unmarked h
    rw [hadmitted] at this
    cases this
  marks := hmark

theorem Follows.plain (htoken : k'.token = none) (hscope : k'.scope = .anything)
    (hadmitted : k'.admitted = false) (hmark : .identityUpdate ∈ k'.guards →
      .identityUpdate ∈ k.guards ∨ .creation ∈ k.guards) :
    Follows s free k k' t :=
  .tokenless htoken (fun _ => by rw [hscope]; trivial) hadmitted hmark

theorem Follows.keeps (htoken : k'.token = k.token)
    (hscope : k'.scope = k.scope ∨ k'.scope = .anything)
    (hcreation : .creation ∈ k'.guards → .creation ∈ k.guards)
    (hadmitted : k'.admitted → k.admitted) (hunmarked : k'.unmarked → k.unmarked)
    (hmark : .identityUpdate ∉ k'.guards) (hmapped : t.mapped = s.mapped)
    (hreservation : t.reservation = s.reservation) :
    Follows s free k k' t where
  meets h := by
    have hinstalled : k'.Installed t ↔ k.Installed s := by
      simp only [Task.Installed, htoken, hreservation]
    constructor
    · intro hk'
      rcases hscope with hscope | hscope
      · rw [hscope, hmapped]
        exact h.scope (hinstalled.mp hk')
      · rw [hscope]
        trivial
    · intro hk'
      exact hinstalled.mpr (h.secured (hcreation hk'))
  token := .inr (.inl ⟨htoken, hreservation⟩)
  admitted h := ⟨hreservation, .inl (hadmitted h)⟩
  unmarked h := .inl (hunmarked h)
  marks h := absurd h hmark

theorem Follows.installs (hktoken : k.token = none)
    (htoken : k'.token = some s.nextToken) (hscope : k'.scope = k.scope)
    (hcreation : .creation ∈ k.guards) (hadmitted : k'.admitted = false)
    (hmark : .identityUpdate ∉ k'.guards) :
    Follows s free k k' s.insertReservation where
  meets h := {
    scope := fun _ => by
      rw [hscope]
      exact h.scope (.of_token_none hktoken)
    secured := fun _ token h => by
      rw [htoken] at h
      exact h }
  token := .inr (.inr ⟨htoken, rfl, rfl, .inl hcreation⟩)
  admitted h := by
    rw [hadmitted] at h
    cases h
  unmarked h := by
    have := admitted_of_unmarked h
    rw [hadmitted] at this
    cases this
  marks h := absurd h hmark

variable {i : Incarnation}

theorem evictRoom_follows {left : Room} (hcreation : free .creation) (hmapped : s.mapped = some i) :
    Follows s free k (.teardown (.router s.nextToken))
      ((s.modifyRoom i fun _ => left).evictRoom i) where
  meets _ := {
    scope := fun _ => by
      rw [Slot.evictRoom_of_mapped hmapped]
      exact Scope.allows_none _
    secured := by simp [guards] }
  token := by
    rw [evictRoom_of_mapped hmapped]
    exact .inr (.inr ⟨rfl, rfl, rfl, .inr hcreation⟩)
  admitted h := by cases h
  unmarked h := by cases h
  marks h := by simp [guards] at h

theorem joinAct_follows {k : JoinPoint} (h : joinAct s free k choice = some o)
    (hself : o.self = some k') : Follows s free (.join k) k' o.shared := by
  revert h
  fun_cases joinAct s free k choice <;> intro h <;> try cases h <;> try cases hself
  all_goals first
    | exact .plain rfl rfl rfl (by simp [guards])
    | exact .keeps rfl (.inl rfl) (by simp [guards]) (fun _ => rfl) (fun _ => rfl)
        (by simp [guards]) rfl rfl
    | skip
  · rename_i hreservation
    exact {
      meets := fun _ => .of_token_none rfl trivial
      token := .inl rfl
      admitted := fun _ => ⟨rfl, .inr (by simpa using hreservation)⟩
      unmarked := by rintro ⟨⟩
      marks := by simp [guards] }
  · rename_i hfree
    exact {
      meets := fun _ => .of_token_none rfl trivial
      token := .inl rfl
      admitted := fun _ => ⟨rfl, .inl rfl⟩
      unmarked := fun _ => .inr ⟨rfl, by simpa using hfree⟩
      marks := by simp [guards] }
  · rename_i hmapped
    exact {
      meets := fun _ => .of_token_none rfl hmapped
      token := .inl rfl
      admitted := fun _ => ⟨rfl, .inl rfl⟩
      unmarked := fun _ => .inl rfl
      marks := by simp [guards] }
  · rename_i ready _
    cases ready <;> exact .keeps rfl (.inl rfl) (by simp [guards]) (fun _ => rfl)
        (fun _ => rfl) (by simp [guards]) rfl rfl
  · unfold commitJoin at h
    split at h <;> cases h <;> cases hself
    exact .plain rfl rfl rfl (by simp [guards])
  · unfold commitJoin at h
    split at h <;> cases h <;> cases hself
    exact .plain rfl rfl rfl (by simp [guards])
  · rename_i hfree
    simp only [Bool.or_eq_true, Bool.not_eq_true', not_or, Bool.not_eq_false] at hfree
    unfold failedJoinSection at h
    dsimp only at h
    split at h
    · rename_i hevict
      cases h
      cases hself
      exact evictRoom_follows hfree.1 hevict.2
    · cases h
      cases hself

theorem evictSection_follows (hcreation : free .creation)
    (h : evictSection s i = some o) (hself : o.self = some k') :
    Follows s free k k' o.shared := by
  unfold evictSection at h
  split at h
  · rename_i hevict
    cases h
    cases hself
    have hfollows : Follows s free k (.teardown (.router s.nextToken))
        ((s.modifyRoom i fun _ => s.room i).evictRoom i) :=
      evictRoom_follows hcreation hevict.1
    rwa [s.modifyRoom_self] at hfollows
  · cases h
    cases hself

theorem leaveAct_follows {k : LeavePoint}
    (h : leaveAct s free k choice = some o) (hself : o.self = some k') :
    Follows s free (.leave k) k' o.shared := by
  revert h
  fun_cases leaveAct s free k choice <;> intro h <;> try cases h <;> try cases hself
  all_goals try exact .plain rfl rfl rfl (by simp [guards])
  · unfold leaveSection at h
    dsimp only at h
    split at h
    · split at h <;> cases h <;> cases hself
      exact .plain rfl rfl rfl (by simp [guards])
    · cases h
      cases hself
  · rename_i hfree
    simp only [Bool.or_eq_true, Bool.not_eq_true', not_or, Bool.not_eq_false] at hfree
    exact evictSection_follows hfree.1 h hself

theorem teardownAct_follows {k : TeardownPoint}
    (h : teardownAct s k choice = some o) (hself : o.self = some k') :
    Follows s free (.teardown k) k' o.shared := by
  revert h
  fun_cases teardownAct s k choice <;> intro h <;> try cases h <;> try cases hself
  all_goals exact .keeps rfl (.inl rfl) (by simp [guards]) id id (by simp [guards]) rfl rfl

theorem Scope.allows_unmap (h : (Scope.only i).Allows s.mapped) : (s.unmap i).mapped = none := by
  rw [unmap_mapped]
  rcases h with h | h <;> simp [h]

theorem deleteAct_follows {k : DeletePoint}
    (h : deleteAct s free k choice = some o) (hself : o.self = some k') :
    Follows s free (.delete k) k' o.shared := by
  revert h
  fun_cases deleteAct s free k choice <;> intro h <;> try cases h <;> try cases hself
  all_goals first
    | exact .keeps rfl (.inl rfl) (by simp [guards]) id id (by simp [guards]) rfl rfl
    | exact .installs rfl rfl rfl (by simp [guards]) rfl (by simp [guards])
    | skip
  · rename_i hmapped
    exact .tokenless rfl (fun _ => .inr hmapped) rfl (by simp [guards])
  · rename_i hmapped
    exact .tokenless rfl (fun _ => hmapped) rfl (by simp [guards])
  · rename_i i token
    have hinstalled (hk : Task.Installed (.teardown (.router token))
        (s.unmap i)) : Task.Installed (.delete (.unmap i token)) s := by
      intro other hother
      rw [← s.unmap_reservation i]
      exact hk other hother
    exact {
      meets := fun hmeets => {
        scope := fun hk => Scope.allows_unmap (hmeets.scope (hinstalled hk))
        secured := by simp [guards] }
      token := .inr (.inl ⟨rfl, s.unmap_reservation i⟩)
      admitted := by rintro ⟨⟩
      unmarked := by rintro ⟨⟩
      marks := by simp [guards] }
  · exact .keeps rfl (.inr rfl) (by simp [guards]) id id
      (by simp [guards]) rfl rfl

theorem controlAct_follows {k : ControlPoint}
    (h : controlAct s free k choice = some o) (hself : o.self = some k') :
    Follows s free (.control k) k' o.shared := by
  revert h
  fun_cases controlAct s free k choice <;> intro h <;> try cases h <;> try cases hself
  all_goals try exact .plain rfl rfl rfl (by simp [guards])
  · unfold publishSection at h
    split at h <;> cases h
    cases hself
  · unfold quarantineSection at h
    split at h <;> cases h <;> cases hself

theorem adminAct_follows {k : AdminPoint}
    (h : adminAct s free k choice = some o) (hself : o.self = some k') :
    Follows s free (.admin k) k' o.shared := by
  revert h
  fun_cases adminAct s free k choice <;> intro h <;> try cases h <;> try cases hself
  all_goals try exact .plain rfl rfl rfl (by simp [guards])
  · rename_i hmapped
    exact .tokenless rfl (fun _ => hmapped) rfl (by simp [guards])
  · unfold publishSection at h
    split at h <;> cases h
    cases hself
    exact .plain rfl rfl rfl (by simp [guards])
  · unfold quarantineSection at h
    split at h <;> cases h <;> cases hself <;> exact .plain rfl rfl rfl (by simp [guards])
  · rename_i hmapped
    exact .tokenless rfl (fun _ => hmapped) rfl (by simp [guards])

theorem recoverAct_follows {k : RecoverPoint}
    (h : recoverAct s free k choice = some o) (hself : o.self = some k') :
    Follows s free (.recover k) k' o.shared := by
  revert h
  fun_cases recoverAct s free k choice <;> intro h <;> try cases h <;> try cases hself
  all_goals first
    | exact .plain rfl rfl rfl (by simp [guards])
    | exact .keeps rfl (.inl rfl) (by simp [guards]) id id (by simp [guards]) rfl rfl
    | exact .installs rfl rfl rfl (by simp [guards]) rfl (by simp [guards])
    | skip
  · rename_i hmapped
    exact .tokenless rfl (fun _ => .inr hmapped) rfl (by simp [guards])
  exact .tokenless rfl (fun hmeets => Scope.allows_unmap (hmeets.scope (.of_token_none rfl)))
    rfl (by simp [guards])

theorem act_follows (h : act s free k choice = some o)
    (hself : o.self = some k') : Follows s free k k' o.shared := by
  cases k with
  | join => exact joinAct_follows h hself
  | leave => exact leaveAct_follows h hself
  | teardown => exact teardownAct_follows h hself
  | delete => exact deleteAct_follows h hself
  | control => exact controlAct_follows h hself
  | admin => exact adminAct_follows h hself
  | recover => exact recoverAct_follows h hself
  | cleanup k =>
    revert h
    simp only [act]
    fun_cases cleanupAct s k choice <;> intro h <;> try cases h <;> try cases hself
    all_goals exact .plain rfl rfl rfl (by simp [guards])
  | elsewhere k =>
    revert h
    simp only [act]
    fun_cases elsewhereAct s k choice <;> intro h <;> try cases h <;> try cases hself
    all_goals exact .plain rfl rfl rfl (by simp [guards])

theorem act_follows_spawned (h : act s free k choice = some o)
    (hspawned : o.spawned = some k') : Follows s free k k' o.shared := by
  rcases (act_outcome h).2 hspawned with
    ⟨i, rfl, -⟩ | ⟨i, token, rfl, rfl, hshared, -⟩
  · exact .plain rfl rfl rfl (by simp [guards])
  rw [hshared]
  exact .keeps rfl (.inl rfl) (by simp [guards]) id id
    (by simp [guards]) rfl rfl

end Follows

/-! ## The invariant -/

/-- What holds in every interleaving. -/
structure Orderly (c : Config Slot Task Lock) : Prop where
  coherent : lifecycle.Coherent c
  meets : ∀ {t k}, c.task t = some k → k.Meets c.shared
  token_lt : ∀ {t k token}, c.task t = some k → k.token = some token → token < c.shared.nextToken
  reservation_lt : ∀ {token}, c.shared.reservation = some token → token < c.shared.nextToken
  /-- a token belongs to one task -/
  token_unique : ∀ {t u k k' token}, c.task t = some k →
    c.task u = some k' → k.token = some token → k'.token = some token → t = u
  /-- an admitted creator meets no owner of the installed token -/
  admitted : ∀ {t u k k' token}, c.task t = some k → c.task u = some k' →
    k.admitted → k'.token = some token →
    c.shared.reservation ≠ some token
  /-- nor a pending administrative write once it has looked for one -/
  unmarked : ∀ {t u k k'}, c.task t = some k → c.task u = some k' →
    k.unmarked → .identityUpdate ∉ k'.guards

theorem lifecycleStart_orderly : Orderly lifecycleStart where
  coherent := lifecycleStart_coherent
  meets h := by cases h
  token_lt h := by cases h
  reservation_lt h := by cases h
  token_unique h := by cases h
  admitted h := by cases h
  unmarked h := by cases h

theorem Task.initial_token {k : Task} (h : k.initial) :
    k.token = none ∧ k.scope = .anything ∧ k.admitted = false := by
  revert h
  fun_cases initial k <;> simp [token, scope, admitted]

namespace Orderly

variable {c : Config Slot Task Lock} {t u : ℕ} {k k' : Task}
  {choice : Choice} {o : Outcome Slot Task}

theorem launch (h : Orderly c) (hk : k.initial) : Orderly (c.launch k) := by
  obtain ⟨htoken, hscope, hadmitted⟩ := initial_token hk
  have hguards : k.guards = [] := lifecycle.guards_initial k hk
  have hunmarked : ¬ k.unmarked := by
    intro hk'
    have := admitted_of_unmarked hk'
    rw [hadmitted] at this
    cases this
  refine ⟨h.coherent.launch hk, ?_, ?_, h.reservation_lt, ?_, ?_, ?_⟩
  · intro u k' hu
    rcases h.coherent.launched hu with rfl | hu
    · exact .of_token_none htoken (by rw [hscope]; trivial)
    · exact h.meets hu
  · intro u k' token hu hk'
    rcases h.coherent.launched hu with rfl | hu
    · rw [htoken] at hk'
      cases hk'
    · exact h.token_lt hu hk'
  · intro u v k₁ k₂ token hu hv h₁ h₂
    rcases h.coherent.launched hu with rfl | hu
    · rw [htoken] at h₁
      cases h₁
    rcases h.coherent.launched hv with rfl | hv
    · rw [htoken] at h₂
      cases h₂
    exact h.token_unique hu hv h₁ h₂
  · intro u v k₁ k₂ token hu hv h₁ h₂
    rcases h.coherent.launched hu with rfl | hu
    · rw [hadmitted] at h₁
      cases h₁
    rcases h.coherent.launched hv with rfl | hv
    · rw [htoken] at h₂
      cases h₂
    exact h.admitted hu hv h₁ h₂
  · intro u v k₁ k₂ hu hv h₁
    rcases h.coherent.launched hu with rfl | hu
    · exact absurd h₁ hunmarked
    rcases h.coherent.launched hv with rfl | hv
    · rw [hguards]
      exact List.not_mem_nil
    exact h.unmarked hu hv h₁

theorem task_cases (h : Orderly c) (ha : lifecycle.Acts c t k choice o)
    (hu : (lifecycle.apply c t k o).task u = some k') :
    (Follows c.shared c.free k k' o.shared ∧
        (o.self = some k' ∧ u = t ∨ o.spawned = some k' ∧ u = c.next)) ∨
      u ≠ t ∧ c.task u = some k' := by
  rcases (Protocol.task_apply h.coherent ha.running).mp hu with
    ⟨rfl, hself⟩ | ⟨rfl, hspawned⟩ | hother
  · exact .inl ⟨act_follows ha.acted hself, .inl ⟨hself, rfl⟩⟩
  · exact .inl ⟨act_follows_spawned ha.acted hspawned, .inr ⟨hspawned, rfl⟩⟩
  · exact .inr hother

theorem creation_of_other (h : Orderly c) (ha : lifecycle.Acts c t k choice o)
    (hne : u ≠ t) (hu : c.task u = some k') (hguard : .creation ∈ k'.guards) :
    ¬ (.creation ∈ k.guards ∨ c.free .creation) := by
  rintro (hk | hfree)
  · exact hne (h.coherent.eq_of_guard hu ha.running hguard hk)
  · rw [h.coherent.not_free hu hguard] at hfree
    cases hfree

theorem nextToken_le (h : SlotChange c.shared c.free k o.shared) :
    c.shared.nextToken ≤ o.shared.nextToken := by
  rcases h.reservation with ⟨-, h⟩ | ⟨-, h, -⟩ | ⟨token, -, -, -, h⟩
  · exact Nat.le_of_eq h.symm
  · rw [h]
    exact Nat.le_succ _
  · exact Nat.le_of_eq h.symm

theorem meets_of_other (h : Orderly c) (ha : lifecycle.Acts c t k choice o)
    (hne : u ≠ t) (hu : c.task u = some k') : k'.Meets o.shared := by
  have hchange := slotChange_of_acts ha
  have hmeets := h.meets hu
  have hbefore : k'.Installed o.shared → k'.Installed c.shared := by
    intro hinstalled token htoken
    have hnew := hinstalled token htoken
    rcases hchange.reservation with ⟨heq, -⟩ | ⟨heq, -⟩ | ⟨other, -, -, heq, -⟩
    · rwa [heq] at hnew
    · rw [heq] at hnew
      cases hnew
      exact absurd (h.token_lt hu htoken) (Nat.lt_irrefl _)
    · rw [heq] at hnew
      cases hnew
  constructor
  · intro hinstalled
    have hallows := hmeets.scope (hbefore hinstalled)
    rcases hchange.mapped with hmapped | hmapped | ⟨persisted, rfl, heq⟩
    · rwa [hmapped]
    · rw [hmapped]
      exact Scope.allows_none _
    · -- publication: nobody who restricts the mapping can be around
      by_cases hscope : k'.scope = .anything
      · rw [hscope]
        trivial
      cases htoken : k'.token with
      | none =>
        rcases guard_of_scope htoken hscope with hguard | hguard
        · exact absurd (.inl (by simp [guards])) (h.creation_of_other ha hne hu hguard)
        · exact absurd hguard (h.unmarked ha.running hu rfl)
      | some token =>
        exact absurd (hbefore hinstalled token htoken) (h.admitted ha.running hu rfl htoken)
  · intro hguard token htoken
    have hold := hmeets.secured hguard token htoken
    have hfree := h.creation_of_other ha hne hu hguard
    rcases hchange.reservation with
      ⟨heq, -⟩ | ⟨-, -, hk | hk | hk⟩ | ⟨other, hother, heq, -⟩
    · rw [heq, hold]
    · exact absurd (.inl hk) hfree
    · exact absurd (.inr hk) hfree
    · rw [hold] at hk
      cases hk
    · rw [hold] at heq
      cases heq
      exact absurd (h.token_unique hu ha.running htoken hother) hne

variable {token : Token}

theorem apply_token_lt (h : Orderly c) (ha : lifecycle.Acts c t k choice o)
    (hu : (lifecycle.apply c t k o).task u = some k')
    (htoken : k'.token = some token) : token < o.shared.nextToken := by
  have hchange := slotChange_of_acts ha
  have hle := nextToken_le hchange
  rcases h.task_cases ha hu with ⟨hfollows, -⟩ | ⟨-, hu⟩
  · rcases hfollows.token with hnone | ⟨hsame, -⟩ | ⟨hfresh, -, hnext, -⟩
    · rw [hnone] at htoken
      cases htoken
    · rw [hsame] at htoken
      exact Nat.lt_of_lt_of_le (h.token_lt ha.running htoken) hle
    · rw [hfresh] at htoken
      cases htoken
      rw [hnext]
      exact Nat.lt_succ_self _
  · exact Nat.lt_of_lt_of_le (h.token_lt hu htoken) hle

theorem apply_reservation_lt (h : Orderly c) (ha : lifecycle.Acts c t k choice o)
    (htoken : o.shared.reservation = some token) :
    token < o.shared.nextToken := by
  have hchange := slotChange_of_acts ha
  rcases hchange.reservation with ⟨heq, hnext⟩ | ⟨heq, hnext, -⟩ | ⟨-, -, -, heq, -⟩
  · rw [heq] at htoken
    rw [hnext]
    exact h.reservation_lt htoken
  · rw [heq] at htoken
    cases htoken
    rw [hnext]
    exact Nat.lt_succ_self _
  · rw [heq] at htoken
    cases htoken

variable {k₁ k₂ : Task}

theorem token_of_other (h : Orderly c) (ha : lifecycle.Acts c t k choice o)
    (hfollows : Follows c.shared c.free k k₁ o.shared)
    (hne : u ≠ t) (hu : c.task u = some k₂)
    (h₁ : k₁.token = some token) (h₂ : k₂.token = some token) : False := by
  rcases hfollows.token with hnone | ⟨hsame, -⟩ | ⟨hfresh, -⟩
  · rw [hnone] at h₁
    cases h₁
  · rw [hsame] at h₁
    exact hne (h.token_unique hu ha.running h₂ h₁)
  · rw [hfresh] at h₁
    cases h₁
    exact absurd (h.token_lt hu h₂) (Nat.lt_irrefl _)

variable {v : ℕ}

theorem apply_token_unique (h : Orderly c) (ha : lifecycle.Acts c t k choice o)
    (hu : (lifecycle.apply c t k o).task u = some k₁)
    (hv : (lifecycle.apply c t k o).task v = some k₂) (h₁ : k₁.token = some token)
    (h₂ : k₂.token = some token) : u = v := by
  -- a spawned task with a token leaves nothing behind at its parent
  have hspawned {k' : Task} (hk' : o.spawned = some k')
      (htoken : k'.token = some token) : o.self = none := by
    rcases (act_outcome ha.acted).2 hk' with ⟨-, rfl, -⟩ | ⟨-, -, -, -, -, hself⟩
    · cases htoken
    · exact hself
  rcases h.task_cases ha hu with ⟨hf₁, hu⟩ | ⟨hne, hu⟩
  · rcases h.task_cases ha hv with ⟨hf₂, hv⟩ | ⟨hne, hv⟩
    · rcases hu with ⟨hself, rfl⟩ | ⟨hsp, rfl⟩
      · rcases hv with ⟨-, rfl⟩ | ⟨hsp, rfl⟩
        · rfl
        · rw [hspawned hsp h₂] at hself
          cases hself
      · rcases hv with ⟨hself, rfl⟩ | ⟨-, rfl⟩
        · rw [hspawned hsp h₁] at hself
          cases hself
        · rfl
    · exact absurd (h.token_of_other ha hf₁ hne hv h₁ h₂) id
  · rcases h.task_cases ha hv with ⟨hf₂, -⟩ | ⟨-, hv⟩
    · exact absurd (h.token_of_other ha hf₂ hne hu h₂ h₁) id
    · exact h.token_unique hu hv h₁ h₂

theorem apply_admitted (h : Orderly c) (ha : lifecycle.Acts c t k choice o)
    (hu : (lifecycle.apply c t k o).task u = some k₁)
    (hv : (lifecycle.apply c t k o).task v = some k₂)
    (h₁ : k₁.admitted) (h₂ : k₂.token = some token) :
    o.shared.reservation ≠ some token := by
  have hchange := slotChange_of_acts ha
  intro hinstalled
  rcases h.task_cases ha hu with ⟨hf₁, -⟩ | ⟨hne, hu⟩
  · obtain ⟨heq, hk⟩ := hf₁.admitted h₁
    rw [heq] at hinstalled
    have hadmitted : k.admitted := by
      rcases hk with hk | hnone
      · exact hk
      · rw [hnone] at hinstalled
        cases hinstalled
    rcases h.task_cases ha hv with ⟨hf₂, -⟩ | ⟨-, hv⟩
    · rcases hf₂.token with hnone | ⟨hsame, -⟩ | ⟨hfresh, -⟩
      · rw [hnone] at h₂
        cases h₂
      · rw [hsame] at h₂
        exact h.admitted ha.running ha.running hadmitted h₂ hinstalled
      · rw [hfresh] at h₂
        cases h₂
        exact absurd (h.reservation_lt hinstalled) (Nat.lt_irrefl _)
    · exact h.admitted ha.running hv hadmitted h₂ hinstalled
  · have hfree :=
      h.creation_of_other ha hne hu (guards_of_admitted h₁)
    rcases hchange.reservation with
      ⟨heq, -⟩ | ⟨heq, -⟩ | ⟨other, -, -, heq, -⟩
    · rw [heq] at hinstalled
      rcases h.task_cases ha hv with ⟨hf₂, -⟩ | ⟨-, hv⟩
      · rcases hf₂.token with hnone | ⟨hsame, -⟩ | ⟨-, -, -, hcreation⟩
        · rw [hnone] at h₂
          cases h₂
        · rw [hsame] at h₂
          exact h.admitted hu ha.running h₁ h₂ hinstalled
        · exact hfree hcreation
      · exact h.admitted hu hv h₁ h₂ hinstalled
    · rw [heq] at hinstalled
      cases hinstalled
      rcases h.task_cases ha hv with ⟨hf₂, -⟩ | ⟨-, hv⟩
      · rcases hf₂.token with hnone | ⟨hsame, -⟩ | ⟨-, -, -, hcreation⟩
        · rw [hnone] at h₂
          cases h₂
        · rw [hsame] at h₂
          exact absurd (h.token_lt ha.running h₂) (Nat.lt_irrefl _)
        · exact hfree hcreation
      · exact absurd (h.token_lt hv h₂) (Nat.lt_irrefl _)
    · rw [heq] at hinstalled
      cases hinstalled

theorem apply_unmarked (h : Orderly c) (ha : lifecycle.Acts c t k choice o)
    (hu : (lifecycle.apply c t k o).task u = some k₁)
    (hv : (lifecycle.apply c t k o).task v = some k₂)
    (h₁ : k₁.unmarked) : .identityUpdate ∉ k₂.guards := by
  intro h₂
  rcases h.task_cases ha hu with ⟨hf₁, hu'⟩ | ⟨hne, hu'⟩
  · rcases h.task_cases ha hv with ⟨hf₂, hv'⟩ | ⟨hne, hv'⟩
    · have hspawned {k' : Task} (hk' : o.spawned = some k') : k'.guards = [] :=
        lifecycle.guards_spawned _ _ _ _ _ _ ha.acted hk'
      rcases hv' with ⟨hself₂, -⟩ | ⟨hsp, -⟩
      · rcases hu' with ⟨hself₁, -⟩ | ⟨hsp, -⟩
        · rw [hself₁] at hself₂
          cases hself₂
          exact not_marks_of_unmarked h₁ h₂
        · have := guards_of_admitted (admitted_of_unmarked h₁)
          rw [hspawned hsp] at this
          cases this
      · rw [hspawned hsp] at h₂
        cases h₂
    · rcases hf₁.unmarked h₁ with hk | ⟨-, hfree⟩
      · exact h.unmarked ha.running hv' hk h₂
      · rw [h.coherent.not_free hv' h₂] at hfree
        cases hfree
  · rcases h.task_cases ha hv with ⟨hf₂, -⟩ | ⟨-, hv'⟩
    · rcases hf₂.marks h₂ with hk | hk
      · exact h.unmarked hu' ha.running h₁ hk
      · exact h.creation_of_other ha hne hu'
          (guards_of_admitted (admitted_of_unmarked h₁)) (.inl hk)
    · exact h.unmarked hu' hv' h₁ h₂

theorem apply (h : Orderly c) (ha : lifecycle.Acts c t k choice o) :
    Orderly (lifecycle.apply c t k o) where
  coherent := h.coherent.apply ha
  meets hu := by
    rcases h.task_cases ha hu with ⟨hfollows, -⟩ | ⟨hne, hu⟩
    · exact hfollows.meets (h.meets ha.running)
    · exact h.meets_of_other ha hne hu
  token_lt := h.apply_token_lt ha
  reservation_lt := h.apply_reservation_lt ha
  token_unique := h.apply_token_unique ha
  admitted := h.apply_admitted ha
  unmarked := h.apply_unmarked ha

end Orderly

end SimplestChat
