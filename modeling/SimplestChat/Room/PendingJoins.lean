import SimplestChat.Room.Eviction

/-!
# Pending joins

A join owns one count of `pending_joins` from the moment it may rely on the
room: a `PendingRoomJoin` while it waits and verifies, and the cleanup task after
it was dropped. The counter of every incarnation is the number of these owners.
A ledger records which task raised and which task lowered a counter, as seen from
the counters alone; every entry on one side is met by one entry on the other as
soon as the owner is gone.
-/

namespace SimplestChat

open Function Interleaving Transition List Protocol Slot SimplestChat.Task

/-! ## Owners of a count -/

namespace Task

def reserves : Task → Option Incarnation
  | join (.pending i) | join (.verified i _) | join (.failed i) => some i
  | _ => none

def joins : Task → Option Incarnation
  | join (.reserve i) | join (.pending i) | join (.verified i _)
  | join (.failed i) => some i
  | _ => none

variable {k : Task}

theorem joins_of_reserves {i : Incarnation} (h : k.reserves = some i) : k.joins = some i := by
  revert h
  fun_cases reserves k <;> simp [joins]

theorem family_of_reserves {i : Incarnation} (h : k.reserves = some i) : k.family = .join := by
  revert h
  fun_cases reserves k <;> simp [family]

theorem initial_reserves (h : k.initial) : k.reserves = none ∧ k.joins = none := by
  revert h
  fun_cases initial k <;> simp [reserves, joins]

end Task

/-- How many tasks hold a reservation. -/
def outstanding (c : Config Slot Task Lock) (i : Incarnation) : ℕ :=
  c.tally fun k => decide (k.reserves = some i)

/-- The `pending_joins` of every incarnation. -/
def Slot.counters (s : Slot) : Incarnation → ℕ :=
  fun i => (s.room i).pendingJoins

/-! ## What an action does to the counters -/

/-- The one way an action treats counters and owners. -/
inductive JoinEffect (s : Slot) (k : Task) (o : Outcome Slot Task) : Prop
  | kept (counters : o.shared.counters = s.counters)
      (owner : o.self.bind Task.reserves = k.reserves)
  | reserved (i : Incarnation) (task : k = .join (.reserve i))
      (counters : o.shared.counters = update s.counters i (s.counters i + 1))
      (owner : o.self = some (.join (.pending i)))
  | published (persisted : Bool) (task : k = .join (.publish persisted))
      (counters : o.shared.counters = update s.counters s.nextIncarnation 1)
      (next : o.shared.nextIncarnation = s.nextIncarnation + 1)
      (owner : o.self = some (.join (.pending s.nextIncarnation)))
  | released (i : Incarnation) (task : k.reserves = some i)
      (counters : o.shared.counters = update s.counters i (s.counters i - 1))
      (ended : ∀ k', o.self = some k' → k'.family = .teardown)

section Effects

variable {s : Slot} {free : Lock → Bool} {choice : Choice}
  {o : Outcome Slot Task} {k : Task} {i : Incarnation}

namespace Slot

theorem counters_modifyRoom (f : Room → Room) : (s.modifyRoom i f).counters =
      update s.counters i (f (s.room i)).pendingJoins := by
  funext j
  by_cases hj : j = i <;> simp [counters, modifyRoom_room, hj]

theorem counters_modifyRoom_same {f : Room → Room}
    (h : (f (s.room i)).pendingJoins = (s.room i).pendingJoins) :
    (s.modifyRoom i f).counters = s.counters := by
  rw [counters_modifyRoom, h]
  exact update_eq_self i s.counters

theorem counters_of_room {t : Slot} (h : t.room = s.room) : t.counters = s.counters := by
  unfold counters
  rw [h]

theorem counters_evictRoom : (s.evictRoom i).counters = s.counters := by
  have hroom : (s.evictRoom i).room = (s.modifyRoom i Room.tombstone).room := by
    simp [evictRoom, insertReservation]
  rw [counters_of_room hroom]
  exact counters_modifyRoom_same rfl

theorem counters_quarantineRoom : (s.quarantineRoom i).counters = s.counters := by
  unfold quarantineRoom
  split
  · rfl
  · rw [counters_of_room (orInsertReservation_room _)]
    exact counters_modifyRoom_same rfl

end Slot

theorem commitJoin_effect {revision : ℕ} {commit : Room → Room}
    (h : commitJoin s i revision commit = some o)
    (hcommit : ∀ room, (commit room).pendingJoins = room.pendingJoins - 1) :
    JoinEffect s (.join (.verified i revision)) o := by
  unfold commitJoin at h
  split at h
  · cases h
    refine .released i rfl ?_ (by simp)
    rw [counters_modifyRoom, hcommit]
    rfl
  · cases h
    exact .kept rfl rfl

theorem Room.releaseJoinReservation_pendingJoins (room : Room) :
    room.releaseJoinReservation.1.pendingJoins = room.pendingJoins - 1 := by
  unfold releaseJoinReservation
  split
  · next hzero => simp [hzero]
  · rfl

theorem failedJoinSection_effect (h : failedJoinSection s i = some o) :
    JoinEffect s (.join (.failed i)) o := by
  have hcounters : (s.modifyRoom i fun _ =>
      (s.room i).releaseJoinReservation.1).counters = update s.counters i (s.counters i - 1) := by
    rw [counters_modifyRoom, Room.releaseJoinReservation_pendingJoins]
    rfl
  unfold failedJoinSection at h
  dsimp only at h
  split at h
  · cases h
    refine .released i rfl (counters_evictRoom.trans hcounters) ?_
    intro k' hk'
    cases hk'
    rfl
  · cases h
    exact .released i rfl hcounters (by simp)

theorem joinAct_effect {k : JoinPoint} (h : joinAct s free k choice = some o) :
    JoinEffect s (.join k) o := by
  revert h
  fun_cases joinAct s free k choice <;> intro h <;> try cases h
  all_goals try exact .kept rfl rfl
  · refine .reserved _ rfl ?_ rfl
    rw [counters_modifyRoom]
    rfl
  · refine .kept rfl ?_
    split <;> rfl
  · refine .published _ rfl ?_ rfl rfl
    funext j
    by_cases hj : j = s.nextIncarnation <;> simp [counters, publishRoom, hj]
  · exact commitJoin_effect h fun _ => rfl
  · exact commitJoin_effect h fun _ => rfl
  · exact failedJoinSection_effect h

theorem publishSection_counters {authority : Authority} {change : Change}
    {self : Option Task} (h : publishSection s i authority change self = some o) :
    o.shared.counters = s.counters := by
  unfold publishSection at h
  split at h
  · rename_i room hroom
    cases h
    exact counters_modifyRoom_same (f := fun _ => room) (Room.publish_frame hroom).2
  · cases h

theorem quarantineSection_counters {self : Option Task}
    (h : quarantineSection s i self = some o) : o.shared.counters = s.counters := by
  unfold quarantineSection at h
  split at h <;> cases h
  · exact counters_quarantineRoom
  · rfl

theorem act_counters (h : act s free k choice = some o) (hk : k.family ≠ .join) :
    o.shared.counters = s.counters := by
  revert h
  cases k with
  | join => exact absurd rfl hk
  | leave k =>
    simp only [act]
    fun_cases leaveAct s free k choice <;> intro h <;> try cases h
    all_goals try rfl
    · unfold leaveSection at h
      dsimp only at h
      split at h
      · split at h <;> cases h <;> exact counters_modifyRoom_same (f := fun _ => _) rfl
      · cases h
        rfl
    · unfold evictSection at h
      split at h <;> cases h
      · exact counters_evictRoom
      · rfl
  | teardown k =>
    simp only [act]
    fun_cases teardownAct s k choice <;> intro h <;> try cases h
    all_goals first
      | rfl
      | exact counters_of_room (by simp)
  | delete k =>
    simp only [act]
    fun_cases deleteAct s free k choice <;> intro h <;> try cases h
    all_goals first
      | rfl
      | exact counters_modifyRoom_same rfl
      | exact counters_of_room (by simp)
  | control k =>
    simp only [act]
    fun_cases controlAct s free k choice <;> intro h <;> try cases h
    all_goals try rfl
    · exact publishSection_counters h
    · exact quarantineSection_counters h
  | admin k =>
    simp only [act]
    fun_cases adminAct s free k choice <;> intro h <;> try cases h
    all_goals first
      | rfl
      | exact counters_of_room (by simp)
      | skip
    · exact publishSection_counters h
    · exact quarantineSection_counters h
  | recover k =>
    simp only [act]
    fun_cases recoverAct s free k choice <;> intro h <;> try cases h
    all_goals first
      | rfl
      | exact counters_modifyRoom_same (f := fun _ => _) rfl
      | exact counters_of_room (by simp)
  | cleanup k =>
    simp only [act]
    fun_cases cleanupAct s k choice <;> intro h <;> try cases h
    all_goals rfl
  | elsewhere k =>
    simp only [act]
    fun_cases elsewhereAct s k choice <;> intro h <;> try cases h
    all_goals rfl

theorem Task.reserves_of_family {k : Task} (h : k.family ≠ .join) : k.reserves = none := by
  cases hk : k.reserves with
  | none => rfl
  | some => exact absurd (family_of_reserves hk) h

theorem reserves_of_ended (h : ∀ k', o.self = some k' → k'.family = .teardown) :
    o.self.bind Task.reserves = none := by
  rw [Option.bind_eq_none_iff]
  intro k' hk'
  apply reserves_of_family
  rw [h k' hk']
  decide

section

variable (h : act s free k choice = some o)
include h

theorem act_effect : JoinEffect s k o := by
  by_cases hjoin : k.family = .join
  · cases k with
    | join => exact joinAct_effect h
    | _ => cases hjoin
  refine .kept (act_counters h hjoin) ?_
  rw [reserves_of_family hjoin]
  cases hself : o.self with
  | none => rfl
  | some =>
    apply reserves_of_family
    rcases (act_outcome h).1 hself with hsame | hteardown
    · rw [hsame]
      exact hjoin
    · rw [hteardown]
      decide

theorem joins_origin {k' : Task} (hself : o.self = some k') (hk' : k'.joins = some i) :
    k.joins = some i ∨ s.mapped = some i ∨
      i = s.nextIncarnation ∧ o.shared.nextIncarnation = i + 1 := by
  have hfamily := (act_outcome h).1 hself
  cases k' with
  | join =>
    cases k with
    | join k =>
      revert h
      simp only [act]
      fun_cases joinAct s free k choice <;> intro h <;> try cases h <;> try cases hself
      all_goals first
        | grind [finish, goTo, commitJoin, failedJoinSection, joins, publishRoom]
        | split at hk' <;> cases hk'
    | _ => simp [family] at hfamily
  | _ => cases hk'

theorem spawned_reserves {k' : Task} (hspawned : o.spawned = some k') :
    k'.reserves = none ∧ k'.joins = none ∧ k'.family ≠ .join := by
  rcases (act_outcome h).2 hspawned with ⟨i, rfl, -⟩ | ⟨i, token, rfl, -⟩
  · exact ⟨rfl, rfl, by decide⟩
  · exact ⟨rfl, rfl, by simp [family]⟩

end

end Effects

/-! ## The ledger -/

def raised (c d : Config Slot Task Lock) : List Incarnation :=
  (List.range d.shared.nextIncarnation).filter fun i =>
    c.shared.counters i < d.shared.counters i

def lowered (c d : Config Slot Task Lock) : List Incarnation :=
  (List.range d.shared.nextIncarnation).filter fun i =>
    d.shared.counters i < c.shared.counters i

structure Ledger where
  config : Config Slot Task Lock
  taken : List (ℕ × Incarnation)
  released : List (ℕ × Incarnation)

namespace Ledger

def record (l : Ledger) (d : Config Slot Task Lock) : Action Task Choice → Ledger
  | .start _ => { l with config := d }
  | .advance t _ =>
    { config := d
      taken := l.taken ++ (raised l.config d).map fun i => (t, i)
      released := l.released ++ (lowered l.config d).map fun i => (t, i) }

def step (l : Ledger) (a : Action Task Choice) : Option Ledger :=
  (lifecycle.step l.config a).map fun d => l.record d a

def start : Ledger where
  config := lifecycleStart
  taken := []
  released := []

/-- The task holds a reservation of the incarnation. -/
def Owns (c : Config Slot Task Lock) (t : ℕ) (i : Incarnation) : Prop :=
  ∃ k, c.task t = some k ∧ k.reserves = some i

structure Books (taken released : List (ℕ × Incarnation))
    (owns : ℕ → Incarnation → Prop) : Prop where
  taken_iff : ∀ t i, (t, i) ∈ taken ↔ (t, i) ∈ released ∨ owns t i
  exclusive : ∀ {t i}, owns t i → (t, i) ∉ released
  taken_nodup : taken.Nodup
  released_nodup : released.Nodup

section Books

variable {taken released : List (ℕ × Incarnation)} {owns owns' : ℕ → Incarnation → Prop}
  {t : ℕ} {i : Incarnation}

section

variable (h : Books taken released owns)
include h

theorem Books.congr (howns : ∀ u j, owns' u j ↔ owns u j) : Books taken released owns' where
  taken_iff u j := by rw [howns, h.taken_iff]
  exclusive hj := h.exclusive ((howns _ _).mp hj)
  taken_nodup := h.taken_nodup
  released_nodup := h.released_nodup

theorem Books.take (hfresh : (t, i) ∉ taken)
    (howns : ∀ u j, owns' u j ↔ owns u j ∨ (u, j) = (t, i)) :
    Books (taken ++ [(t, i)]) released owns' where
  taken_iff u j := by rw [howns, mem_append, mem_singleton, h.taken_iff, or_assoc]
  exclusive {u j} hj := by
    rcases (howns u j).mp hj with hold | hnew
    · exact h.exclusive hold
    · rw [hnew]
      exact fun hreleased => hfresh ((h.taken_iff t i).mpr (.inl hreleased))
  taken_nodup := by
    rw [← concat_eq_append]
    exact h.taken_nodup.concat hfresh
  released_nodup := h.released_nodup

theorem Books.release (howned : owns t i) (howns : ∀ u j, owns' u j ↔ owns u j ∧ (u, j) ≠ (t, i)) :
    Books taken (released ++ [(t, i)]) owns' where
  taken_iff u j := by
    rw [howns, mem_append, mem_singleton, h.taken_iff]
    by_cases hsame : (u, j) = (t, i)
    · obtain ⟨rfl, rfl⟩ := Prod.mk.inj hsame
      simp [howned]
    · simp [hsame]
  exclusive {u j} hj := by
    obtain ⟨hold, hne⟩ := (howns u j).mp hj
    rw [mem_append, mem_singleton]
    rintro (hreleased | hsame)
    · exact h.exclusive hold hreleased
    · exact hne hsame
  taken_nodup := h.taken_nodup
  released_nodup := by
    rw [← concat_eq_append]
    exact h.released_nodup.concat (h.exclusive howned)

end

end Books

structure Balanced (l : Ledger) : Prop where
  coherent : lifecycle.Coherent l.config
  counted : ∀ i, l.config.shared.counters i = outstanding l.config i
  mapped_lt : ∀ {i}, l.config.shared.mapped = some i → i < l.config.shared.nextIncarnation
  joins_lt : ∀ {t k i}, l.config.task t = some k → k.joins = some i →
    i < l.config.shared.nextIncarnation
  named : ∀ {t i}, (t, i) ∈ l.taken → t < l.config.next
  unspent : ∀ {t k i}, l.config.task t = some k → k.family = .join →
    k.reserves = none → (t, i) ∉ l.taken
  settled : Books l.taken l.released (Owns l.config)

/-! ### One entry per reservation -/

section Entries

variable {l : Ledger} {t : ℕ} {k : Task} {choice : Choice} {o : Outcome Slot Task}

theorem filter_range_eq_singleton {n i : ℕ} {q : ℕ → Bool} (hi : i < n)
    (hq : ∀ j, q j = true ↔ j = i) : (List.range n).filter q = [i] := by
  have hcongr : (range n).filter q = (range n).filter (· == i) := by
    apply filter_congr
    intro j _
    by_cases hj : j = i
    · simp [hj, (hq i).mpr rfl]
    · have hnot : ¬q j = true := fun hqj => hj ((hq j).mp hqj)
      simp [hj, hnot]
  have hcount : (range n).count i = 1 := count_eq_one_of_mem nodup_range (mem_range.mpr hi)
  rw [hcongr, filter_beq, hcount]
  rfl

variable {d : Config Slot Task Lock}

theorem raised_nil {c : Config Slot Task Lock}
    (h : ∀ i, d.shared.counters i ≤ c.shared.counters i) : raised c d = [] := by
  apply filter_eq_nil_iff.mpr
  intro i _
  have hle := h i
  simp only [decide_eq_true_eq]
  omega

theorem lowered_nil {c : Config Slot Task Lock}
    (h : ∀ i, c.shared.counters i ≤ d.shared.counters i) : lowered c d = [] := by
  apply filter_eq_nil_iff.mpr
  intro i _
  have hle := h i
  simp only [decide_eq_true_eq]
  omega

theorem owns_apply (hcoherent : lifecycle.Coherent l.config)
    (ha : lifecycle.Acts l.config t k choice o) (u : ℕ) (i : Incarnation) :
    Owns (lifecycle.apply l.config t k o) u i ↔
      u = t ∧ o.self.bind Task.reserves = some i ∨ u ≠ t ∧ Owns l.config u i := by
  constructor
  · rintro ⟨k', hk', hreserves⟩
    rcases (task_apply hcoherent ha.running).mp hk' with
      ⟨hu, hself⟩ | ⟨-, hspawned⟩ | ⟨hne, hk'⟩
    · exact .inl ⟨hu, by rw [hself]; exact hreserves⟩
    · rw [(spawned_reserves ha.acted hspawned).1] at hreserves
      cases hreserves
    · exact .inr ⟨hne, k', hk', hreserves⟩
  · rintro (⟨hu, hself⟩ | ⟨hne, k', hk', hreserves⟩)
    · obtain ⟨k', hk', hreserves⟩ := Option.bind_eq_some_iff.mp hself
      exact ⟨k', (task_apply hcoherent ha.running).mpr (.inl ⟨hu, hk'⟩), hreserves⟩
    · exact ⟨k', (task_apply hcoherent ha.running).mpr (.inr (.inr ⟨hne, hk'⟩)), hreserves⟩

theorem owns_actor (ha : lifecycle.Acts l.config t k choice o) (i : Incarnation) :
    Owns l.config t i ↔ k.reserves = some i := by
  constructor
  · rintro ⟨k', hk', hreserves⟩
    rw [ha.running] at hk'
    cases hk'
    exact hreserves
  · exact fun h => ⟨k, ha.running, h⟩

/-- The entry that an action of task `t` makes. -/
inductive Entry (c d : Config Slot Task Lock) (t : ℕ) : Prop
  | kept (raises : raised c d = []) (lowers : lowered c d = [])
      (owners : ∀ u i, Owns d u i ↔ Owns c u i)
  | takes (i : Incarnation) (raises : raised c d = [i]) (lowers : lowered c d = [])
      (unowned : ∃ k, c.task t = some k ∧ k.family = .join ∧ k.reserves = none)
      (owners : ∀ u j, Owns d u j ↔ Owns c u j ∨ (u, j) = (t, i))
  | releases (i : Incarnation) (raises : raised c d = []) (lowers : lowered c d = [i])
      (owned : Owns c t i) (owners : ∀ u j, Owns d u j ↔ Owns c u j ∧ (u, j) ≠ (t, i))
      (ended : ∀ k, d.task t = some k → k.family = .teardown)

variable {i : Incarnation}

theorem Balanced.counter_pos (h : Balanced l)
    (howns : Owns l.config t i) : 0 < l.config.shared.counters i := by
  obtain ⟨k, hk, hreserves⟩ := howns
  rw [h.counted i]
  exact tally_pos h.coherent hk (decide_eq_true hreserves)

theorem Balanced.counter_next (h : Balanced l) :
    l.config.shared.counters l.config.shared.nextIncarnation = 0 := by
  rw [h.counted]
  apply tally_eq_zero
  intro u k hk
  apply decide_eq_false
  intro hreserves
  exact Nat.lt_irrefl _ (h.joins_lt hk (joins_of_reserves hreserves))

theorem takes_entry (hcoherent : lifecycle.Coherent l.config)
    (ha : lifecycle.Acts l.config t k choice o) {n : ℕ}
    (hlt : i < o.shared.nextIncarnation) (hn : l.config.shared.counters i < n)
    (hcounters : o.shared.counters = update l.config.shared.counters i n)
    (hfamily : k.family = .join) (hnone : k.reserves = none)
    (howner : o.self = some (.join (.pending i))) :
    Entry l.config (lifecycle.apply l.config t k o) t := by
  have hshared : (lifecycle.apply l.config t k o).shared = o.shared := rfl
  refine .takes i ?_ (lowered_nil ?_) ⟨k, ha.running, hfamily, hnone⟩ ?_
  · refine filter_range_eq_singleton hlt fun j => ?_
    rw [hshared, hcounters, decide_eq_true_eq, update_apply]
    split
    · next hj => simp [hj, hn]
    · next hj => simp [hj]
  · intro j
    rw [hshared, hcounters, update_apply]
    split
    · rename_i hj
      rw [hj]
      exact Nat.le_of_lt hn
    · exact Nat.le_refl _
  · intro u j
    have hunowned : ¬Owns l.config t j := by
      rw [owns_actor ha, hnone]
      exact nofun
    rw [owns_apply hcoherent ha, howner]
    by_cases hu : u = t
    · simp [hu, hunowned, reserves, eq_comm]
    · simp [hu]

theorem Balanced.entry (h : Balanced l) (ha : lifecycle.Acts l.config t k choice o) :
    Entry l.config (lifecycle.apply l.config t k o) t := by
  have howns := owns_apply h.coherent ha
  have hactor := owns_actor ha
  have hshared : (lifecycle.apply l.config t k o).shared = o.shared := rfl
  have hnext := Kept.nextIncarnation_le ha
  cases act_effect ha.acted with
  | kept hcounters howner =>
    refine .kept (raised_nil ?_) (lowered_nil ?_) ?_
    · rw [hshared, hcounters]
      exact fun _ => Nat.le_refl _
    · rw [hshared, hcounters]
      exact fun _ => Nat.le_refl _
    · intro u i
      rw [howns, howner]
      by_cases hu : u = t
      · simp [hu, hactor]
      · simp [hu]
  | reserved i htask hcounters howner =>
    have hlt := h.joins_lt ha.running (htask ▸ rfl : k.joins = some i)
    exact takes_entry h.coherent ha (Nat.lt_of_lt_of_le hlt hnext)
      (Nat.lt_succ_self _) hcounters (htask ▸ rfl) (htask ▸ rfl) howner
  | published persisted htask hcounters hincarnation howner =>
    have hzero := h.counter_next
    exact takes_entry h.coherent ha (hincarnation ▸ Nat.lt_succ_self _)
      (hzero ▸ Nat.zero_lt_one) hcounters (htask ▸ rfl) (htask ▸ rfl) howner
  | released i htask hcounters hended =>
    have hpos : 0 < l.config.shared.counters i := h.counter_pos ((hactor i).mpr htask)
    have hlt := h.joins_lt ha.running (joins_of_reserves htask)
    have hself := reserves_of_ended hended
    refine .releases i (raised_nil ?_) ?_ ((hactor i).mpr htask) ?_ ?_
    · intro j
      rw [hshared, hcounters, update_apply]
      split
      · rename_i hj
        rw [hj]
        exact Nat.sub_le _ _
      · exact Nat.le_refl _
    · refine filter_range_eq_singleton (Nat.lt_of_lt_of_le hlt hnext) fun j => ?_
      rw [hshared, hcounters, decide_eq_true_eq, update_apply]
      split
      · rename_i hj
        rw [hj]
        simp only [iff_true]
        omega
      · next hj => simp [hj]
    · intro u j
      rw [howns, hself]
      by_cases hu : u = t
      · rw [hu, hactor, htask]
        simp [eq_comm]
      · simp [hu]
    · intro k' hk'
      rcases (task_apply h.coherent ha.running).mp hk' with
        ⟨-, hk'⟩ | ⟨hnew, -⟩ | ⟨hne, -⟩
      · exact hended k' hk'
      · exact absurd hnew (Nat.ne_of_lt (h.coherent.lt_next ha.running))
      · exact absurd rfl hne

/-! ### The balance is kept -/

theorem Balanced.counted_apply (h : Balanced l)
    (ha : lifecycle.Acts l.config t k choice o) (i : Incarnation) :
    o.shared.counters i = outstanding (lifecycle.apply l.config t k o) i := by
  have htally := tally_apply h.coherent ha.running (o := o)
    fun k => decide (k.reserves = some i)
  have hspawned : (o.spawned.any fun k => decide (k.reserves = some i)) = false := by
    cases hs : o.spawned with
    | none => rfl
    | some => simp [(spawned_reserves ha.acted hs).1]
  have hself : (o.self.any fun k => decide (k.reserves = some i)) =
      decide (o.self.bind reserves = some i) := by
    cases o.self <;> rfl
  rw [hspawned, hself, ← outstanding, ← outstanding, ← h.counted i, Bool.toNat_false,
    Nat.add_zero] at htally
  generalize outstanding (lifecycle.apply l.config t k o) i = owners at htally ⊢
  cases act_effect ha.acted with
  | kept hcounters howner =>
    rw [howner] at htally
    rw [hcounters]
    omega
  | reserved j htask hcounters howner =>
    rw [hcounters, update_apply]
    rw [howner, htask] at htally
    by_cases hj : i = j
    · simp [hj, reserves] at htally ⊢
      omega
    · simp [hj, Ne.symm hj, reserves] at htally ⊢
      omega
  | published persisted htask hcounters hincarnation howner =>
    have hzero := h.counter_next
    rw [hcounters, update_apply]
    rw [howner, htask] at htally
    by_cases hj : i = l.config.shared.nextIncarnation
    · simp [hj, hzero, reserves] at htally ⊢
      omega
    · simp [hj, Ne.symm hj, reserves] at htally ⊢
      omega
  | released j htask hcounters hended =>
    have hpos := h.counter_pos ((owns_actor ha j).mpr htask)
    rw [hcounters, update_apply]
    rw [reserves_of_ended hended, htask] at htally
    by_cases hj : i = j
    · simp [hj] at htally ⊢
      omega
    · simp [hj, Ne.symm hj] at htally ⊢
      omega

theorem Balanced.mapped_lt_apply (h : Balanced l) (ha : lifecycle.Acts l.config t k choice o)
    (hi : o.shared.mapped = some i) : i < o.shared.nextIncarnation := by
  have hnext := Kept.nextIncarnation_le ha
  rcases Kept.mapped_before ha hi with hold | ⟨rfl, persisted, -, ho⟩
  · exact Nat.lt_of_lt_of_le (h.mapped_lt hold) hnext
  · rw [ho]
    exact Nat.lt_succ_self _

variable {u : ℕ}

theorem Balanced.joins_lt_apply (h : Balanced l)
    (ha : lifecycle.Acts l.config t k choice o) {k' : Task}
    (hu : (lifecycle.apply l.config t k o).task u = some k')
    (hi : k'.joins = some i) : i < o.shared.nextIncarnation := by
  have hnext := Kept.nextIncarnation_le ha
  rcases (task_apply h.coherent ha.running).mp hu with
    ⟨-, hself⟩ | ⟨-, hspawned⟩ | ⟨-, hold⟩
  · rcases joins_origin ha.acted hself hi with hk | hmapped | ⟨-, hnew⟩
    · exact Nat.lt_of_lt_of_le (h.joins_lt ha.running hk) hnext
    · exact Nat.lt_of_lt_of_le (h.mapped_lt hmapped) hnext
    · rw [hnew]
      exact Nat.lt_succ_self i
  · rw [(spawned_reserves ha.acted hspawned).2.1] at hi
    cases hi
  · exact Nat.lt_of_lt_of_le (h.joins_lt hold hi) hnext

theorem mem_record_taken (hi : (u, i) ∈ (l.record d (.advance t choice)).taken) :
    (u, i) ∈ l.taken ∨ u = t := by
  rcases mem_append.mp hi with hold | hnew
  · exact .inl hold
  · obtain ⟨j, -, hj⟩ := mem_map.mp hnew
    exact .inr (congrArg Prod.fst hj).symm

section

variable (h : Balanced l)
include h

section

variable (ha : lifecycle.Acts l.config t k choice o)
include ha

theorem Balanced.named_apply (hi : (u, i) ∈
      (l.record (lifecycle.apply l.config t k o) (.advance t choice)).taken) :
    u < (lifecycle.apply l.config t k o).next := by
  have hle : l.config.next ≤ (lifecycle.apply l.config t k o).next := by
    simp only [apply]
    split
    · exact Nat.le_succ _
    · exact Nat.le_refl _
  rcases mem_record_taken hi with hold | rfl
  · exact Nat.lt_of_lt_of_le (h.named hold) hle
  · exact Nat.lt_of_lt_of_le (h.coherent.lt_next ha.running) hle

theorem Balanced.unspent_apply {k' : Task} (hu : (lifecycle.apply l.config t k o).task u = some k')
    (hfamily : k'.family = .join) (hnone : k'.reserves = none) :
    (u, i) ∉ (l.record (lifecycle.apply l.config t k o) (.advance t choice)).taken := by
  intro hi
  have hunowned : ∀ j, ¬Owns (lifecycle.apply l.config t k o) u j := by
    rintro j ⟨k'', hk'', hreserves⟩
    rw [hu] at hk''
    cases hk''
    rw [hnone] at hreserves
    cases hreserves
  rcases (task_apply h.coherent ha.running).mp hu with
    ⟨rfl, hself⟩ | ⟨-, hspawned⟩ | ⟨hne, hold⟩
  · -- the actor has not reserved before either, and this action took nothing
    have hbefore : k.family = .join := by
      rcases (act_outcome ha.acted).1 hself with hsame | hteardown
      · rw [← hsame, hfamily]
      · rw [hteardown] at hfamily
        cases hfamily
    cases h.entry ha with
    | kept hraises hlowers howners =>
      have hreserves : k.reserves = none := by
        rw [Option.eq_none_iff_forall_ne_some]
        intro j hj
        exact hunowned j ((howners u j).mpr ((owns_actor ha j).mpr hj))
      refine h.unspent ha.running hbefore hreserves (i := i) ?_
      simpa [record, hraises] using hi
    | takes j hraises hlowers hfresh howners => exact hunowned j ((howners u j).mpr (.inr rfl))
    | releases j hraises hlowers howned howners hended =>
      rw [hended k' hu] at hfamily
      cases hfamily
  · exact (spawned_reserves ha.acted hspawned).2.2 hfamily
  · rcases mem_record_taken hi with htaken | hactor
    · exact h.unspent hold hfamily hnone htaken
    · exact hne hactor

theorem Balanced.settled_apply :
    Books (l.record (lifecycle.apply l.config t k o) (.advance t choice)).taken
      (l.record (lifecycle.apply l.config t k o) (.advance t choice)).released
      (Owns (lifecycle.apply l.config t k o)) := by
  cases h.entry ha with
  | kept hraises hlowers howners => simpa [record, hraises, hlowers] using h.settled.congr howners
  | takes i hraises hlowers hfresh howners =>
    obtain ⟨k', hk', hfamily, hnone⟩ := hfresh
    have hunspent : (t, i) ∉ l.taken := h.unspent hk' hfamily hnone
    simpa [record, hraises, hlowers] using h.settled.take hunspent howners
  | releases i hraises hlowers howned howners =>
    simpa [record, hraises, hlowers] using h.settled.release howned howners

theorem Balanced.apply :
    Balanced (l.record (lifecycle.apply l.config t k o) (.advance t choice)) where
  coherent := h.coherent.apply ha
  counted := h.counted_apply ha
  mapped_lt := h.mapped_lt_apply ha
  joins_lt := h.joins_lt_apply ha
  named := h.named_apply ha
  unspent := h.unspent_apply ha
  settled := h.settled_apply ha

end

theorem Balanced.launch (hk : k.initial) : Balanced { l with config := l.config.launch k } := by
  obtain ⟨hreserves, hjoins⟩ := initial_reserves hk
  have htask {u : ℕ} {k' : Task} (hu : (l.config.launch k).task u = some k') :
      (u = l.config.next ∧ k' = k) ∨ l.config.task u = some k' :=
    (task_launch h.coherent).mp hu
  have howns (u : ℕ) (i : Incarnation) : Owns (l.config.launch k) u i ↔ Owns l.config u i := by
    constructor
    · rintro ⟨k', hk', hi⟩
      rcases htask hk' with ⟨-, rfl⟩ | hold
      · rw [hreserves] at hi
        cases hi
      · exact ⟨k', hold, hi⟩
    · rintro ⟨k', hold, hi⟩
      exact ⟨k', (task_launch h.coherent).mpr (.inr hold), hi⟩
  exact
    { coherent := h.coherent.launch hk
      counted := by
        intro i
        rw [outstanding, tally_launch h.coherent, hreserves]
        exact h.counted i
      mapped_lt := h.mapped_lt
      joins_lt := by
        intro u k' i hu hi
        rcases htask hu with ⟨-, rfl⟩ | hold
        · rw [hjoins] at hi
          cases hi
        · exact h.joins_lt hold hi
      named := fun hi => Nat.lt_succ_of_lt (h.named hi)
      unspent := by
        intro u k' i hu hfamily hnone hi
        rcases htask hu with ⟨rfl, -⟩ | hold
        · exact Nat.lt_irrefl _ (h.named hi)
        · exact h.unspent hold hfamily hnone hi
      settled := h.settled.congr howns }

theorem Balanced.step {l' : Ledger} {a : Action Task Choice}
    (hstep : l.step a = some l') : Balanced l' := by
  obtain ⟨d, hd, rfl⟩ := Option.map_eq_some_iff.mp hstep
  cases a with
  | start =>
    obtain ⟨hk, rfl⟩ := lifecycle.step_start_eq_some.mp hd
    exact h.launch hk
  | advance =>
    obtain ⟨k, o, ha, rfl⟩ := lifecycle.step_advance_eq_some.mp hd
    exact h.apply ha

end

theorem start_balanced : Balanced start where
  coherent := lifecycleStart_coherent
  counted i := rfl
  mapped_lt h := by cases h
  joins_lt h := by cases h
  named h := by cases h
  unspent h := by cases h
  settled :=
    { taken_iff := by simp [start, Owns, lifecycleStart]
      exclusive := by simp [start]
      taken_nodup := nodup_nil
      released_nodup := nodup_nil }

end Entries

variable {l : Ledger}

theorem run_of_lifecycle {actions : List (Action Task Choice)} {d : Config Slot Task Lock}
    (h : run lifecycle.step l.config actions = some d) :
    ∃ l', run step l actions = some l' ∧ l'.config = d := by
  induction actions generalizing l with
  | nil => exact ⟨l, rfl, Option.some.inj h⟩
  | cons a rest ih =>
    obtain ⟨c, hc, hrest⟩ := run_cons_eq_some.mp h
    have hconfig : (l.record c a).config = c := by cases a <;> rfl
    rw [← hconfig] at hrest
    obtain ⟨l', hl', hd⟩ := ih hrest
    refine ⟨l', run_cons_eq_some.mpr ⟨l.record c a, ?_, hl'⟩, hd⟩
    simp [step, hc]

theorem taken_of_run {actions : List (Action Task Choice)} {l' : Ledger}
    (h : run step l actions = some l') {e : ℕ × Incarnation}
    (he : e ∈ l.taken) : e ∈ l'.taken := by
  have hkeeps : ∀ (m : Ledger) a m', e ∈ m.taken → m.step a = some m' → e ∈ m'.taken := by
    intro m a m' hm hstep
    obtain ⟨d, -, rfl⟩ := Option.map_eq_some_iff.mp hstep
    cases a with
    | start => exact hm
    | advance => exact mem_append_left _ hm
  exact run_kept hkeeps he h

/-! ## Release is possible, eviction needs an empty room -/

section Release

variable {c : Config Slot Task Lock} {t : ℕ} {i : Incarnation}

theorem failed_releases (hcoherent : lifecycle.Coherent c)
    (hk : c.task t = some (.join (.failed i)))
    (hcreation : c.free .creation = true) (hcontrol : c.free (.control i) = true) :
    ∃ d, lifecycle.step c (.advance t .proceed) = some d ∧ ¬Owns d t i := by
  have hsection : ∃ o, failedJoinSection c.shared i = some o ∧
      ∀ k, o.self = some k → k.family = .teardown ∧ k.guards = [] := by
    unfold failedJoinSection
    dsimp only
    split
    · exact ⟨_, rfl, by rintro k ⟨⟩; exact ⟨rfl, rfl⟩⟩
    · exact ⟨_, rfl, by rintro k ⟨⟩⟩
  obtain ⟨o, ho, hself⟩ := hsection
  have ha : lifecycle.Acts c t (.join (.failed i)) .proceed o := by
    refine ⟨hk, ?_, ?_⟩
    · simpa [lifecycle, act, joinAct, hcreation, hcontrol] using ho
    intro lock hlock
    cases hs : o.self with
    | none => simp [hs, held] at hlock
    | some k =>
      have hguards : lifecycle.guards k = [] := (hself k hs).2
      simp [hs, held, hguards] at hlock
  refine ⟨_, lifecycle.step_advance_eq_some.mpr ⟨_, o, ha, rfl⟩, ?_⟩
  rintro ⟨k, htask, hreserves⟩
  rcases (task_apply hcoherent hk).mp htask with
    ⟨-, hs⟩ | ⟨hnew, -⟩ | ⟨hne, -⟩
  · have hfamily := family_of_reserves hreserves
    rw [(hself k hs).1] at hfamily
    cases hfamily
  · exact absurd hnew (Nat.ne_of_lt (hcoherent.lt_next hk))
  · exact absurd rfl hne

/-- A join in progress can be cancelled at any time; its cleanup takes over. -/
theorem cancels (hcoherent : lifecycle.Coherent c) (howns : Owns c t i) :
    c.task t = some (.join (.failed i)) ∨ ∃ d, lifecycle.step c (.advance t .timeout) = some d ∧
        d.task t = some (.join (.failed i)) ∧ d.owner = c.owner := by
  obtain ⟨k, hk, hreserves⟩ := howns
  have hcancel (hguards : k.guards = [])
      (hact : act c.shared c.free k .timeout = goTo c.shared (.join (.failed i))) :
      ∃ d, lifecycle.step c (.advance t .timeout) = some d ∧
        d.task t = some (.join (.failed i)) ∧ d.owner = c.owner := by
    have ha : lifecycle.Acts c t k .timeout ⟨c.shared, some (.join (.failed i)), none⟩ :=
      ⟨hk, hact, by simp [Protocol.held, lifecycle, Task.guards]⟩
    refine ⟨_, lifecycle.step_advance_eq_some.mpr ⟨k, _, ha, rfl⟩, ?_, ?_⟩
    · exact (Protocol.task_apply hcoherent hk).mpr (.inl ⟨rfl, rfl⟩)
    funext lock
    have hheld : lifecycle.guards k = [] := hguards
    simp [Protocol.apply, Protocol.handOver, Protocol.held, hheld,
      show lifecycle.guards (.join (.failed i)) = [] from rfl]
  revert hreserves
  fun_cases Task.reserves k <;> intro hreserves <;> cases hreserves
  · exact .inr (hcancel rfl rfl)
  · exact .inr (hcancel rfl rfl)
  · exact .inl hk

variable {s : Slot} {o : Outcome Slot Task}

theorem evictSection_counter (h : evictSection s i = some o) (hbefore : s.mapped = some i)
    (hafter : o.shared.mapped ≠ some i) : o.shared.counters i = 0 := by
  unfold evictSection at h
  split at h
  · rename_i hevict
    cases h
    have habandoned := hevict.2
    simp only [Room.abandoned, Bool.and_eq_true, decide_eq_true_eq] at habandoned
    exact (congrFun counters_evictRoom i).trans habandoned.1.2
  · cases h
    exact absurd hbefore hafter

theorem failedJoinSection_counter (h : failedJoinSection s i = some o) (hbefore : s.mapped = some i)
    (hafter : o.shared.mapped ≠ some i) : o.shared.counters i = 0 := by
  unfold failedJoinSection at h
  dsimp only at h
  split at h
  · rename_i hevict
    cases h
    have hlast : (s.room i).releaseJoinReservation.1.pendingJoins = 0 := by
      have hleft := hevict.1
      revert hleft
      unfold Room.releaseJoinReservation
      split
      · simp
      · simp only [Bool.and_eq_true, decide_eq_true_eq]
        exact fun hleft => hleft.1.2
    have hcounters := congrFun (counters_evictRoom
      (s := s.modifyRoom i fun _ => (s.room i).releaseJoinReservation.1) (i := i)) i
    rw [hcounters, counters_modifyRoom, update_self]
    exact hlast
  · cases h
    exact absurd hbefore hafter

theorem evicts_counter {free : Lock → Bool} {k : Task} {choice : Choice}
    (h : act s free k choice = some o)
    (hk : k = .leave (.evict i) ∨ k = .join (.failed i))
    (hbefore : s.mapped = some i) (hafter : o.shared.mapped ≠ some i) :
    o.shared.counters i = 0 := by
  rcases hk with rfl | rfl
  · cases choice with
    | proceed =>
      simp only [act, leaveAct] at h
      split at h
      · cases h
      · exact evictSection_counter h hbefore hafter
    | timeout =>
      cases h
      exact absurd hbefore hafter
    | _ => cases h
  · cases choice with
    | proceed =>
      simp only [act, joinAct] at h
      split at h
      · cases h
      · exact failedJoinSection_counter h hbefore hafter
    | _ => cases h

end Release

/-- A room is evicted for being empty: by the last leave or by the cleanup of a
failed join. -/
structure Evicts (c d : Config Slot Task Lock) (a : Action Task Choice)
    (i : Incarnation) : Prop where
  actor : ∃ t choice, a = .advance t choice ∧
    (c.task t = some (.leave (.evict i)) ∨ c.task t = some (.join (.failed i)))
  mapped : c.shared.mapped = some i
  unmapped : d.shared.mapped ≠ some i

theorem Balanced.unowned_of_evicts (h : Balanced l)
    {a : Action Task Choice} {d : Config Slot Task Lock} {i : Incarnation}
    (hstep : lifecycle.step l.config a = some d) (hevicts : Evicts l.config d a i) :
    outstanding d i = 0 := by
  obtain ⟨⟨t, choice, rfl, htask⟩, hmapped, hunmapped⟩ := hevicts
  obtain ⟨k, o, ha, rfl⟩ := lifecycle.step_advance_eq_some.mp hstep
  have hk : k = .leave (.evict i) ∨ k = .join (.failed i) := by
    rw [ha.running] at htask
    exact htask.imp Option.some.inj Option.some.inj
  rw [← h.counted_apply ha]
  exact evicts_counter ha.acted hk hmapped hunmapped

theorem Balanced.releasable (h : Balanced l) {t : ℕ} {i : Incarnation}
    (howns : Owns l.config t i) (hcreation : l.config.free .creation = true)
    (hcontrol : l.config.free (.control i) = true) :
    ∃ actions l', run Ledger.step l actions = some l' ∧ (t, i) ∈ l'.released := by
  -- it is enough to reach a configuration in which the task owns nothing
  have hfinish {actions : List (Action Task Choice)} {d : Config Slot Task Lock}
      (hrun : run lifecycle.step l.config actions = some d)
      (hgone : ¬Owns d t i) :
      ∃ actions l', run Ledger.step l actions = some l' ∧ (t, i) ∈ l'.released := by
    obtain ⟨l', hl', rfl⟩ := run_of_lifecycle hrun
    have hbalanced : Balanced l' := run_kept (fun _ _ _ hm hstep => Balanced.step hm hstep) h hl'
    have htaken := taken_of_run hl' ((h.settled.taken_iff t i).mpr (.inr howns))
    refine ⟨actions, l', hl', ?_⟩
    exact ((hbalanced.settled.taken_iff t i).mp htaken).resolve_right hgone
  rcases cancels h.coherent howns with hfailed | ⟨c, hc, hfailed, howner⟩
  · obtain ⟨d, hd, hgone⟩ := failed_releases h.coherent hfailed hcreation hcontrol
    exact hfinish (run_cons_eq_some.mpr ⟨d, hd, run_nil d⟩) hgone
  have hfree : c.free = l.config.free := by
    funext lock
    simp [Config.free, howner]
  obtain ⟨d, hd, hgone⟩ := failed_releases (h.coherent.step hc) hfailed
    (hfree ▸ hcreation) (hfree ▸ hcontrol)
  exact hfinish (run_cons_eq_some.mpr ⟨c, hc, run_cons_eq_some.mpr ⟨d, hd, run_nil d⟩⟩) hgone

/-! ## Pending joins in every run -/

/-- In every run the counter of every incarnation is the number of outstanding
reservations on it and no owner finds it at zero. Each reservation was taken
once by one task, which either still owns it or released it, once; an owner can
always come to release it when the locks are free. A room is not evicted for
being empty while a reservation is outstanding. -/
theorem pendingJoins_accounted {actions : List (Action Task Choice)} {c : Config Slot Task Lock}
    (hrun : run lifecycle.step lifecycleStart actions = some c) :
    (∀ i, (c.shared.room i).pendingJoins = outstanding c i) ∧
    (∀ t i, Owns c t i → 0 < (c.shared.room i).pendingJoins) ∧
    (∃ l, run step start actions = some l ∧ l.config = c ∧ l.taken.Nodup ∧ l.released.Nodup ∧
      (∀ t i, (t, i) ∈ l.taken ↔ ((t, i) ∈ l.released ∨ Owns c t i)) ∧
      (∀ t i, Owns c t i → (t, i) ∉ l.released) ∧
      (∀ t i, Owns c t i → c.free .creation = true → c.free (.control i) = true →
        ∃ later l', run step l later = some l' ∧ (t, i) ∈ l'.released)) ∧
    (∀ a d i, lifecycle.step c a = some d → Evicts c d a i → outstanding d i = 0) := by
  obtain ⟨l, hl, rfl⟩ := run_of_lifecycle (l := start) hrun
  have hbalanced : Balanced l :=
    run_kept (fun _ _ _ hm hstep => Balanced.step hm hstep) start_balanced hl
  have hbooks := hbalanced.settled
  exact ⟨hbalanced.counted, fun _ _ => hbalanced.counter_pos,
    ⟨l, hl, rfl, hbooks.taken_nodup, hbooks.released_nodup, hbooks.taken_iff,
      fun _ _ => hbooks.exclusive, fun _ _ => hbalanced.releasable⟩,
    fun _ _ _ => hbalanced.unowned_of_evicts⟩

def joinCancelled : List (Action Task Choice) :=
  ownerJoins ++ .start (.join .start) :: advances 1 3 ++ [.advance 1 .timeout, .advance 1 .proceed]

theorem joinCancelled_accounted : ∃ c, run lifecycle.step lifecycleStart joinCancelled = some c ∧
      (c.shared.room 0).pendingJoins = outstanding c 0 ∧
      ∃ l, run step start joinCancelled = some l ∧
        l.taken = [(0, 0), (1, 0)] ∧ l.released = [(0, 0), (1, 0)] := by
  have h : ((run lifecycle.step lifecycleStart joinCancelled).any fun _ =>
      true) = true := by
    decide +kernel
  obtain ⟨c, hrun, -⟩ := (Option.any_eq_true _ _).mp h
  exact ⟨c, hrun, (pendingJoins_accounted hrun).1 0, exists_of_any (by decide +kernel)⟩

end Ledger

end SimplestChat
