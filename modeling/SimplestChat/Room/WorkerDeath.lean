import SimplestChat.Room.Incarnations

/-!
# Worker death and its recovery, as one room ID sees it

A room creation reserves a live media worker, has it make a router, registers the
router and publishes the room; only the last two steps are visible to others.
The worker may die at any point. Its recovery reads the registered routers once
and then closes every room it found there.

`Server` is the lifecycle of one room ID together with the workers: which are
dead, on which worker a creation holds a router that is not registered yet, and
how far the recovery of each worker has come with this room.
-/

namespace SimplestChat

open Option Function Interleaving Protocol

/-! ## Routers after the slot operations -/

namespace Slot

variable (s : Slot) (i : Incarnation)

@[simp] theorem unmap_router : (s.unmap i).router = s.router := by
  unfold unmap
  split <;> rfl

@[simp] theorem releaseDeletionReservation_router (token : Token) :
    (s.releaseDeletionReservation token).router = s.router := by
  unfold releaseDeletionReservation
  split <;> rfl

@[simp] theorem orInsertReservation_router : s.orInsertReservation.router = s.router := by
  unfold orInsertReservation
  split <;> rfl

@[simp] theorem insertReservation_router : s.insertReservation.router = s.router := rfl

@[simp] theorem evictRoom_router : (s.evictRoom i).router = s.router := by simp [evictRoom]

@[simp] theorem quarantineRoom_router : (s.quarantineRoom i).router = s.router := by
  unfold quarantineRoom
  split
  · rfl
  · simp

end Slot

section Router

variable {s : Slot} {free : Lock → Bool} {choice : Choice} {o : Outcome Slot Task} {k : Task}

theorem act_router (h : act s free k choice = some o) :
    o.shared.router = s.router ∨ o.shared.router = none ∨
      ∃ persisted worker ready, k = .join (.media persisted) ∧
        choice = .media worker ready ∧ o.shared.router = some worker := by
  revert h
  cases k with
  | join k =>
    simp only [act]
    fun_cases joinAct s free k choice <;> intro h <;> try cases h
    all_goals first
      | exact .inl rfl
      | exact .inr (.inl rfl)
      | exact .inr (.inr ⟨_, _, _, rfl, rfl, rfl⟩)
      | skip
    · unfold commitJoin at h
      split at h <;> cases h <;> exact .inl rfl
    · unfold commitJoin at h
      split at h <;> cases h <;> exact .inl rfl
    · unfold failedJoinSection at h
      dsimp only at h
      split at h <;> cases h <;> exact .inl (by simp)
  | leave k =>
    simp only [act]
    fun_cases leaveAct s free k choice <;> intro h <;> try cases h
    all_goals try exact .inl rfl
    · unfold leaveSection at h
      dsimp only at h
      split at h
      · split at h <;> cases h <;> exact .inl rfl
      · cases h
        exact .inl rfl
    · unfold evictSection at h
      split at h <;> cases h <;> exact .inl (by simp)
  | teardown k =>
    simp only [act]
    fun_cases teardownAct s k choice <;> intro h <;> try cases h
    all_goals first
      | exact .inr (.inl rfl)
      | exact .inl (by simp)
  | delete k =>
    simp only [act]
    fun_cases deleteAct s free k choice <;> intro h <;> try cases h
    all_goals exact .inl (by simp)
  | control k =>
    simp only [act]
    fun_cases controlAct s free k choice <;> intro h <;> try cases h
    all_goals try exact .inl rfl
    · unfold publishSection at h
      split at h
      · cases h
        exact .inl rfl
      · cases h
    · unfold quarantineSection at h
      split at h <;> cases h <;> exact .inl (by simp)
  | admin k =>
    simp only [act]
    fun_cases adminAct s free k choice <;> intro h <;> try cases h
    all_goals try exact .inl (by simp)
    · unfold publishSection at h
      split at h
      · cases h
        exact .inl rfl
      · cases h
    · unfold quarantineSection at h
      split at h <;> cases h <;> exact .inl (by simp)
  | recover k =>
    simp only [act]
    fun_cases recoverAct s free k choice <;> intro h <;> try cases h
    all_goals exact .inl (by simp)
  | cleanup k =>
    simp only [act]
    fun_cases cleanupAct s k choice <;> intro h <;> try cases h
    all_goals first
      | exact .inl rfl
      | exact .inr (.inl rfl)
  | elsewhere k =>
    simp only [act]
    fun_cases elsewhereAct s k choice <;> intro h <;> try cases h
    all_goals exact .inl rfl

theorem publish_origin {persisted : Bool} (h : act s free k choice = some o)
    (hself : o.self = some (.join (.publish persisted))) :
    ∃ worker ready, k = .join (.media persisted) ∧ choice = .media worker ready ∧
      o.shared.router = some worker := by
  have hfamily := (act_outcome h).1 hself
  cases k with
  | join k =>
    revert h
    simp only [act]
    fun_cases joinAct s free k choice <;> intro h <;> try cases h <;> try cases hself
    · split at hself <;> cases hself
      exact ⟨_, _, rfl, rfl, rfl⟩
    · unfold commitJoin at h
      split at h <;> cases h <;> cases hself
    · unfold commitJoin at h
      split at h <;> cases h <;> cases hself
    · unfold failedJoinSection at h
      dsimp only at h
      split at h <;> cases h <;> cases hself
  | _ => simp [Task.family] at hfamily

end Router

/-! ## The server -/

namespace WorkerDeath

/-- How far the recovery of a dead worker has come with the room ID. -/
inductive Stage where
  /-- the router was on the worker; the room is still to be closed -/
  | waiting
  /-- `close_room_for_rejoin` runs as this task -/
  | closing (t : ℕ)
  /-- there was nothing to do, or closing returned without an error -/
  | recovered
  | failed
deriving DecidableEq

/-- The lifecycle of a room with the workers that serve it. -/
structure Server where
  config : Config Slot Task Lock
  /-- the worker that made a creation's router, before it is registered -/
  granted : ℕ → Option WorkerId
  dead : WorkerId → Bool
  stage : WorkerId → Option Stage

inductive Event where
  | life (a : Action Task Choice)
  /-- a creation reserved a worker and got its router -/
  | grant (t : ℕ) (worker : WorkerId)
  | die (worker : WorkerId)
  /-- `rooms_on_worker` -/
  | snapshot (worker : WorkerId)
  /-- the recovery's loop arrives at the room -/
  | close (worker : WorkerId)

/-- Whether a closing that ends in this action reports an error: a wait that
timed out, or a teardown that did not get to release its reservation. -/
def reportsFailure : Option Task → Choice → Bool
  | some (.teardown (.release _)), _ => false
  | some (.teardown _), _ => true
  | _, choice => choice = .timeout

/-- The stage after task `t` acted. -/
def Stage.after (c d : Config Slot Task Lock) (t : ℕ) (choice : Choice) : Stage → Stage
  | .closing u =>
    if u = t ∧ (d.task t).isNone then
      if reportsFailure (c.task t) choice then .failed else .recovered
    else .closing u
  | stage => stage

def mayRegister (granted : Option WorkerId) : Choice → Bool
  | .media worker _ => granted = some worker
  | _ => true

def startsRecovery : Task → Bool
  | .recover _ => true
  | _ => false

namespace Server

def life (s : Server) : Action Task Choice → Option Server
  | .start k =>
    if startsRecovery k then none
    else (lifecycle.step s.config (.start k)).map fun d => { s with config := d }
  | .advance t choice =>
    if mayRegister (s.granted t) choice then
      (lifecycle.step s.config (.advance t choice)).map fun d =>
        { s with
          config := d
          granted := update s.granted t none
          stage := fun w => (s.stage w).map (.after s.config d t choice) }
    else none

def step (s : Server) : Event → Option Server
  | .life a => s.life a
  | .grant t worker =>
    match s.config.task t with
    | some (.join (.media _)) =>
      if s.dead worker then none
      else some { s with granted := update s.granted t (some worker) }
    | _ => none
  | .die worker => some { s with dead := update s.dead worker true }
  | .snapshot worker =>
    if s.dead worker && (s.stage worker).isNone then
      some { s with
        stage := update s.stage worker
          (some (if s.config.shared.router = some worker then .waiting
            else .recovered)) }
    else none
  | .close worker =>
    if s.stage worker = some .waiting then
      some { s with
        config := s.config.launch (.recover (.start worker))
        stage := update s.stage worker (some (.closing s.config.next)) }
    else none

def start : Server where
  config := lifecycleStart
  granted := fun _ => none
  dead := fun _ => false
  stage := fun _ => none

end Server

/-! ## What recovery has established -/

/-- The room ID maps nothing, the excepted incarnation, or a room whose router is
not on the worker. -/
def ClearExcept (slot : Slot) (worker : WorkerId) (except : Option Incarnation) : Prop :=
  slot.mapped ≠ none → slot.mapped ≠ except → slot.router ≠ some worker

/-- What a closing knows at its program points: until it has unmapped the
incarnation it found, only that one may still be on the worker. -/
def Progress (slot : Slot) (worker : WorkerId) : Task → Prop
  | .recover (.start w) => w = worker
  | .recover (.waitCreation i w) | .recover (.checkWorker i w) =>
    w = worker ∧ ClearExcept slot worker (some i)
  | .recover (.waitControl i) | .recover (.unmap i) => ClearExcept slot worker (some i)
  | .recover (.reserve _) | .teardown _ => ClearExcept slot worker none
  | _ => False

section Slots

variable {slot : Slot} {free : Lock → Bool} {choice : Choice} {o : Outcome Slot Task}
  {k : Task} {worker : WorkerId} {except : Option Incarnation}

section

variable (h : act slot free k choice = some o)
  (hregisters : ∀ w ready, choice = .media w ready → w ≠ worker)
include h hregisters

theorem router_kept (hrouter : slot.router ≠ some worker) : o.shared.router ≠ some worker := by
  rcases act_router h with hsame | hnone | ⟨_, w, ready, -, hchoice, hnew⟩
  · rw [hsame]
    exact hrouter
  · rw [hnone]
    exact some_ne_none _ |>.symm
  · rw [hnew]
    exact fun hw => hregisters w ready hchoice (Option.some.inj hw)

theorem clearExcept_kept
    (hpublish : ∀ persisted, k = .join (.publish persisted) → slot.router ≠ some worker)
    (hclear : ClearExcept slot worker except) : ClearExcept o.shared worker except := by
  intro hmapped hexcept
  have hchange : SlotChange slot free k o.shared := act_change h
  rcases hchange.mapped with hsame | hnone | ⟨persisted, hk, -⟩
  · rw [hsame] at hmapped hexcept
    exact router_kept h hregisters (hclear hmapped hexcept)
  · exact absurd hnone hmapped
  · exact router_kept h hregisters (hpublish persisted hk)

theorem progress_kept {j : Task}
    (hpublish : ∀ persisted, k = .join (.publish persisted) → slot.router ≠ some worker)
    (hprogress : Progress slot worker j) : Progress o.shared worker j := by
  revert hprogress
  fun_cases Progress slot worker j <;> intro hprogress
  · exact hprogress
  · exact ⟨hprogress.1, clearExcept_kept h hregisters hpublish hprogress.2⟩
  · exact ⟨hprogress.1, clearExcept_kept h hregisters hpublish hprogress.2⟩
  · exact clearExcept_kept h hregisters hpublish hprogress
  · exact clearExcept_kept h hregisters hpublish hprogress
  · exact clearExcept_kept h hregisters hpublish hprogress
  · exact clearExcept_kept h hregisters hpublish hprogress
  · exact hprogress.elim

end

theorem clearExcept_of_router (h : slot.router ≠ some worker) : ClearExcept slot worker except :=
  fun _ _ => h

def Establishes (worker : WorkerId) (k : Task) (choice : Choice) (o : Outcome Slot Task) : Prop :=
  (∀ k', o.self = some k' → Progress o.shared worker k') ∧
    (o.self = none → reportsFailure (some k) choice = false → ClearExcept o.shared worker none)

theorem establishes_goTo {t : Slot} {k' : Task} (hprogress : Progress t worker k') :
    Establishes worker k choice ⟨t, some k', none⟩ := by
  refine ⟨?_, nofun⟩
  intro j hj
  cases hj
  exact hprogress

theorem establishes_finish
    (hclear : reportsFailure (some k) choice = false → ClearExcept slot worker none) :
    Establishes worker k choice ⟨slot, none, none⟩ := by
  refine ⟨?_, fun _ => hclear⟩
  intro k' hself
  cases hself

theorem recoverAct_establishes {k : RecoverPoint} (h : recoverAct slot free k choice = some o)
    (hprogress : Progress slot worker (.recover k)) :
    Establishes worker (.recover k) choice o := by
  revert h hprogress
  fun_cases recoverAct slot free k choice <;> intro h hprogress <;> cases h
  · -- the room is mapped: it is the one that may still be on the worker
    next w i hmapped =>
      exact establishes_goTo ⟨hprogress, fun _ hne => absurd hmapped hne⟩
  · rename_i w hmapped
    exact establishes_finish fun _ hne => absurd hmapped hne
  · exact establishes_goTo hprogress
  · rename_i i w hfree hmapped
    exact establishes_finish fun _ hne _ => hprogress.2 hne hmapped
  · exact establishes_finish (by rintro ⟨⟩)
  · exact establishes_goTo hprogress.2
  · rename_i i w hrouter
    exact establishes_finish fun _ => clearExcept_of_router (hprogress.1 ▸ hrouter)
  · exact establishes_goTo fun hne => hprogress hne
  · exact establishes_finish (by rintro ⟨⟩)
  · rename_i i
    refine establishes_goTo ?_
    intro hne _
    rw [Slot.unmap_mapped] at hne
    split at hne
    · exact absurd rfl hne
    rename_i hother
    rw [Slot.unmap_router]
    exact hprogress hne hother
  · exact establishes_goTo fun hne => hprogress hne

theorem progress_step (h : act slot free k choice = some o)
    (hprogress : Progress slot worker k) : Establishes worker k choice o := by
  cases k with
  | recover => exact recoverAct_establishes h hprogress
  | teardown k =>
    have hclear : ClearExcept o.shared worker none := by
      refine clearExcept_kept h ?_ nofun hprogress
      rintro w ready rfl
      cases k <;> cases h
    refine ⟨?_, fun _ _ => hclear⟩
    intro k' hself
    have hfamily := (act_outcome h).1 hself
    cases k' with
    | teardown => exact hclear
    | _ => simp [Task.family] at hfamily
  | _ => exact hprogress.elim

end Slots

/-! ## Every run whose recoveries see the creations -/

def aboutToPublish : Option Task → Bool
  | some (.join (.publish _)) => true
  | _ => false

/-- No creation stands between its router on the worker and its publication. -/
def NoCreationOn (s : Server) (worker : WorkerId) : Prop :=
  ∀ t < s.config.next, s.granted t ≠ some worker ∧
    (aboutToPublish (s.config.task t) = true → s.config.shared.router ≠ some worker)

instance (s : Server) (worker : WorkerId) : Decidable (NoCreationOn s worker) :=
  inferInstanceAs (Decidable (∀ t < s.config.next, _))

/-- Recovery reads the routers of a worker while no creation is under way on it. -/
def CoversCreations (s : Server) : Event → Prop
  | .snapshot worker => NoCreationOn s worker
  | _ => True

instance (s : Server) : ∀ e, Decidable (CoversCreations s e)
  | .snapshot worker => inferInstanceAs (Decidable (NoCreationOn s worker))
  | .life _ | .grant .. | .die _ | .close _ => isTrue trivial

structure Covered (s : Server) (worker : WorkerId) (stage : Stage) : Prop where
  dead : s.dead worker = true
  ungranted : ∀ t, s.granted t ≠ some worker
  unpublished : ∀ {t persisted}, s.config.task t = some (.join (.publish persisted)) →
      s.config.shared.router ≠ some worker
  closing : ∀ {t}, stage = .closing t →
    ∃ k, s.config.task t = some k ∧ Progress s.config.shared worker k
  recovered : stage = .recovered → ClearExcept s.config.shared worker none

structure Inv (s : Server) : Prop where
  coherent : lifecycle.Coherent s.config
  granted_lt : ∀ {t worker}, s.granted t = some worker → t < s.config.next
  covered : ∀ {worker stage}, s.stage worker = some stage → Covered s worker stage

namespace Inv

variable {s s' : Server}

theorem start : Inv Server.start where
  coherent := lifecycleStart_coherent
  granted_lt h := by cases h
  covered h := by cases h

theorem launch {k : Task} (h : Inv s) (hk : k.initial)
    (hpublish : ∀ persisted, k ≠ .join (.publish persisted)) :
    Inv { s with config := s.config.launch k } where
  coherent := h.coherent.launch hk
  granted_lt ht := Nat.lt_succ_of_lt (h.granted_lt ht)
  covered hstage := by
    have hold := h.covered hstage
    refine ⟨hold.dead, hold.ungranted, ?_, ?_, hold.recovered⟩
    · intro t persisted ht
      rcases (task_launch h.coherent).mp ht with ⟨-, hnew⟩ | ht
      · exact absurd hnew.symm (hpublish persisted)
      · exact hold.unpublished ht
    · intro t ht
      obtain ⟨j, hj, hprogress⟩ := hold.closing ht
      exact ⟨j, (task_launch h.coherent).mpr (.inr hj), hprogress⟩

theorem after_closing {c d : Config Slot Task Lock} {t u : ℕ} {choice : Choice}
    {stage : Stage} (h : stage.after c d t choice = .closing u) :
    stage = .closing u ∧ (u = t → d.task t ≠ none) := by
  cases stage with
  | closing v =>
    simp only [Stage.after] at h
    split at h
    · split at h <;> cases h
    rename_i hrunning
    cases h
    refine ⟨rfl, fun ht hnone => hrunning ⟨ht, ?_⟩⟩
    rw [hnone]
    rfl
  | _ => cases h

theorem after_recovered {c d : Config Slot Task Lock} {t : ℕ} {choice : Choice}
    {stage : Stage} (h : stage.after c d t choice = .recovered) :
    stage = .recovered ∨ stage = .closing t ∧ d.task t = none ∧
        reportsFailure (c.task t) choice = false := by
  cases stage with
  | recovered => exact .inl rfl
  | closing v =>
    simp only [Stage.after] at h
    split at h
    · rename_i hended
      split at h
      · cases h
      rename_i hok
      refine .inr ⟨by rw [hended.1], isNone_iff_eq_none.mp hended.2, ?_⟩
      exact Bool.eq_false_iff.mpr hok
    · cases h
  | _ => cases h

section Advance

variable {t : ℕ} {k : Task} {choice : Choice} {o : Outcome Slot Task}
  {worker : WorkerId} {stage : Stage}

theorem covered_advance (h : Inv s) (hold : Covered s worker stage)
    (hmay : mayRegister (s.granted t) choice = true)
    (ha : lifecycle.Acts s.config t k choice o) :
    Covered
      { s with
        config := lifecycle.apply s.config t k o
        granted := update s.granted t none
        stage := fun w => (s.stage w).map
          (.after s.config (lifecycle.apply s.config t k o) t choice) }
      worker (stage.after s.config (lifecycle.apply s.config t k o) t choice) := by
  have hregisters : ∀ w ready, choice = .media w ready → w ≠ worker := by
    rintro w ready rfl rfl
    exact hold.ungranted t (of_decide_eq_true hmay)
  have hpublish : ∀ persisted, k = .join (.publish persisted) →
      s.config.shared.router ≠ some worker := by
    rintro persisted rfl
    exact hold.unpublished ha.running
  refine ⟨hold.dead, ?_, ?_, ?_, ?_⟩
  · intro u
    simp only [update_apply]
    split
    · exact nofun
    · exact hold.ungranted u
  · intro u persisted hu
    rcases (task_apply h.coherent ha.running).mp hu with
      ⟨-, hself⟩ | ⟨-, hspawned⟩ | ⟨-, hother⟩
    · obtain ⟨w, ready, -, hchoice, hrouter⟩ := publish_origin ha.acted hself
      intro hon
      exact hregisters w ready hchoice (Option.some.inj (hrouter.symm.trans hon))
    · rcases (act_outcome ha.acted).2 hspawned with ⟨_, hk', -⟩ | ⟨_, _, hk', -⟩
      · cases hk'
      · cases hk'
    · exact router_kept ha.acted hregisters (hold.unpublished hother)
  · intro u hu
    obtain ⟨hclosing, hrunning⟩ := after_closing hu
    obtain ⟨j, hj, hprogress⟩ := hold.closing hclosing
    by_cases hut : u = t
    · subst hut
      obtain ⟨k', hk'⟩ := ne_none_iff_exists'.mp (hrunning rfl)
      have hself : o.self = some k' := by
        rcases (task_apply h.coherent ha.running).mp hk' with
          ⟨-, hself⟩ | ⟨hnew, -⟩ | ⟨hne, -⟩
        · exact hself
        · exact absurd hnew (Nat.ne_of_lt (h.coherent.lt_next ha.running))
        · exact absurd rfl hne
      rw [ha.running] at hj
      cases hj
      exact ⟨k', hk', (progress_step ha.acted hprogress).1 k' hself⟩
    · exact ⟨j, (task_apply h.coherent ha.running).mpr (.inr (.inr ⟨hut, hj⟩)),
        progress_kept ha.acted hregisters hpublish hprogress⟩
  · intro hdone
    rcases after_recovered hdone with hbefore | ⟨hclosing, hended, hok⟩
    · exact clearExcept_kept ha.acted hregisters hpublish (hold.recovered hbefore)
    obtain ⟨j, hj, hprogress⟩ := hold.closing hclosing
    rw [ha.running] at hj hok
    cases hj
    refine (progress_step ha.acted hprogress).2 ?_ hok
    rw [eq_none_iff_forall_ne_some]
    intro k' hself
    have hk' := (task_apply h.coherent ha.running).mpr (.inl ⟨rfl, hself⟩)
    rw [hended] at hk'
    cases hk'

end Advance

theorem life (h : Inv s) {a : Action Task Choice} (hstep : s.life a = some s') : Inv s' := by
  cases a with
  | start =>
    simp only [Server.life] at hstep
    split at hstep
    · cases hstep
    obtain ⟨d, hd, rfl⟩ := map_eq_some_iff.mp hstep
    obtain ⟨hk, rfl⟩ := lifecycle.step_start_eq_some.mp hd
    refine h.launch hk ?_
    rintro persisted rfl
    cases hk
  | advance t choice =>
    simp only [Server.life] at hstep
    split at hstep
    · rename_i hmay
      obtain ⟨d, hd, rfl⟩ := map_eq_some_iff.mp hstep
      obtain ⟨k, o, ha, rfl⟩ := lifecycle.step_advance_eq_some.mp hd
      refine ⟨h.coherent.apply ha, ?_, ?_⟩
      · intro u w hu
        have hgranted : s.granted u = some w := by
          simp only [update_apply] at hu
          split at hu
          · cases hu
          · exact hu
        have hlt := h.granted_lt hgranted
        simp only [apply]
        split
        · exact Nat.lt_succ_of_lt hlt
        · exact hlt
      · intro w stage' hstage
        obtain ⟨stage, hold, rfl⟩ := map_eq_some_iff.mp hstage
        exact h.covered_advance (h.covered hold) hmay ha
    · cases hstep

theorem grant (h : Inv s) {t : ℕ} {worker : WorkerId}
    (hstep : s.step (.grant t worker) = some s') : Inv s' := by
  simp only [Server.step] at hstep
  split at hstep
  · rename_i persisted htask
    split at hstep
    · cases hstep
    rename_i halive
    cases hstep
    refine ⟨h.coherent, ?_, ?_⟩
    · intro u w hu
      simp only [update_apply] at hu
      split at hu
      · rename_i ht
        rw [ht]
        exact h.coherent.lt_next htask
      · exact h.granted_lt hu
    · intro w stage hstage
      have hold := h.covered hstage
      refine ⟨hold.dead, ?_, hold.unpublished, hold.closing, hold.recovered⟩
      intro u
      simp only [update_apply]
      split
      · -- a dead worker makes no more routers
        intro hw
        cases hw
        exact halive hold.dead
      · exact hold.ungranted u
  · cases hstep

theorem snapshot (h : Inv s) {worker : WorkerId} (hcovers : NoCreationOn s worker)
    (hstep : s.step (.snapshot worker) = some s') : Inv s' := by
  simp only [Server.step] at hstep
  split at hstep
  · rename_i hdead
    cases hstep
    rw [Bool.and_eq_true] at hdead
    refine ⟨h.coherent, h.granted_lt, ?_⟩
    intro w stage hstage
    simp only [update_apply] at hstage
    split at hstage
    · rename_i hw
      subst hw
      refine ⟨hdead.1, ?_, ?_, ?_, ?_⟩
      · intro t ht
        exact (hcovers t (h.granted_lt ht)).1 ht
      · intro t persisted ht
        exact (hcovers t (h.coherent.lt_next ht)).2 (by rw [ht]; rfl)
      · rintro t rfl
        split at hstage <;> cases hstage
      · rintro rfl
        split at hstage
        · cases hstage
        · next hrouter => exact clearExcept_of_router hrouter
    · have hold := h.covered hstage
      exact ⟨hold.dead, hold.ungranted, hold.unpublished, hold.closing, hold.recovered⟩
  · cases hstep

theorem close (h : Inv s) {worker : WorkerId}
    (hstep : s.step (.close worker) = some s') : Inv s' := by
  simp only [Server.step] at hstep
  split at hstep
  · rename_i hwaiting
    cases hstep
    have hlaunched := h.launch (k := .recover (.start worker)) rfl nofun
    refine ⟨hlaunched.coherent, hlaunched.granted_lt, ?_⟩
    intro w stage hstage
    simp only [update_apply] at hstage
    split at hstage
    · rename_i hw
      subst hw
      cases hstage
      have hold := hlaunched.covered hwaiting
      refine ⟨hold.dead, hold.ungranted, hold.unpublished, ?_, nofun⟩
      intro t ht
      cases ht
      exact ⟨_, (task_launch h.coherent).mpr (.inl ⟨rfl, rfl⟩), rfl⟩
    · have hold := hlaunched.covered hstage
      exact ⟨hold.dead, hold.ungranted, hold.unpublished, hold.closing, hold.recovered⟩
  · cases hstep

theorem step {e : Event} (h : Inv s) (hcovers : CoversCreations s e)
    (hstep : s.step e = some s') : Inv s' := by
  cases e with
  | life => exact h.life hstep
  | grant => exact h.grant hstep
  | die worker =>
    cases hstep
    refine ⟨h.coherent, h.granted_lt, ?_⟩
    intro w stage hstage
    have hold := h.covered hstage
    refine ⟨?_, hold.ungranted, hold.unpublished, hold.closing, hold.recovered⟩
    by_cases hw : w = worker
    · simp [hw]
    · simpa [hw] using hold.dead
  | snapshot => exact h.snapshot hcovers hstep
  | close => exact h.close hstep

end Inv

def Server.run (s : Server) (events : List Event) : Option Server :=
  Transition.run Server.step s events

/-- In every run in which no creation is under way on a worker when its recovery
reads the routers: as soon as the recovery is through with the room without an
error, and from then on, no room of the ID is mapped with its router on that
worker. -/
theorem recovery_complete {events : List Event} {s : Server}
    (hcovers : Transition.RunMeets Server.step CoversCreations Server.start events)
    (hrun : Server.start.run events = some s) {worker : WorkerId}
    (hrecovered : s.stage worker = some .recovered) {i : Incarnation}
    (hmapped : s.config.shared.mapped = some i) :
    s.config.shared.router ≠ some worker := by
  have hkeeps : ∀ (x : Server) e y, Inv x → CoversCreations x e → x.step e = some y →
      Inv y := fun _ _ _ hx he hstep => hx.step he hstep
  have hinv : Inv s := Transition.run_invariant hkeeps Inv.start hcovers hrun
  refine (hinv.covered hrecovered).recovered rfl ?_ ?_
  · exact hmapped ▸ some_ne_none i
  · exact hmapped ▸ some_ne_none i

/-! ### Samples -/

def approachesMedia : List Event :=
  .life (.start (.join .start)) :: (advances 0 5).map .life ++ [.life (.advance 0 (.loaded true))]

def diesLater : List Event :=
  approachesMedia ++ [.grant 0 7, .life (.advance 0 (.media 7 true)), .life (.advance 0 .proceed),
      .die 7, .snapshot 7, .close 7] ++
    (advances 1 9).map .life

def diesUnregistered : List Event :=
  approachesMedia ++ [.grant 0 7, .die 7, .snapshot 7, .life (.advance 0 (.media 7 true)),
      .life (.advance 0 .proceed)]

def diesUnpublished : List Event :=
  approachesMedia ++ [.grant 0 7, .life (.advance 0 (.media 7 true)), .die 7, .snapshot 7, .close 7,
      .life (.advance 1 .proceed), .life (.advance 0 .proceed)]

theorem diesLater_recovered :
    ∃ s, Server.start.run diesLater = some s ∧ s.stage 7 = some .recovered ∧
      ∀ i, s.config.shared.mapped = some i → s.config.shared.router ≠ some 7 := by
  have h : ((Server.start.run diesLater).any fun s =>
      decide (s.stage 7 = some .recovered)) = true := by
    decide +kernel
  obtain ⟨s, hrun, hstage⟩ := (any_eq_true _ _).mp h
  have hcovers : Transition.RunMeets Server.step CoversCreations Server.start
      diesLater := by
    decide +kernel
  have hrecovered := of_decide_eq_true hstage
  exact ⟨s, hrun, hrecovered, fun _ => recovery_complete hcovers hrun hrecovered⟩

def Stranded (s : Server) (worker : WorkerId) : Bool :=
  s.dead worker && decide (s.stage worker = some .recovered) &&
    s.config.shared.mapped.isSome && decide (s.config.shared.router = some worker)

theorem dies_stranded : (∃ s, Server.start.run diesUnregistered = some s ∧ Stranded s 7 = true) ∧
      ∃ s, Server.start.run diesUnpublished = some s ∧ Stranded s 7 = true :=
  ⟨Transition.exists_of_any (by decide +kernel), Transition.exists_of_any (by decide +kernel)⟩

end WorkerDeath

end SimplestChat
