import Mathlib

/-!
# Interleaved tasks with scoped guards

A protocol runs any number of tasks over one shared state. A task is known by
its program point, and the program point determines which guards the task
holds: entering a point that names a new guard acquires it, leaving the last
point that names it releases it. This is the discipline of guards whose
lifetime is a lexical scope.

`Coherent` says that the owner recorded for a lock is exactly the task whose
program point names it. Every step keeps it, so two tasks never stand at
points that name the same lock.
-/

namespace Interleaving

open List Option Function

/-! ## Protocols and configurations -/

/-- What one atomic action of a task leaves behind. -/
structure Outcome (Shared Task : Type*) where
  shared : Shared
  /-- where the task continues, or nothing when it has ended -/
  self : Option Task
  spawned : Option Task

/-- A family of tasks over a shared state. An action reads which locks are
free; waiting for a lock is an action that is not enabled yet. -/
structure Protocol (Shared Task Lock Choice : Type*) where
  guards : Task → List Lock
  /-- program points at which a task may start -/
  initial : Task → Bool
  act : Shared → (Lock → Bool) → Task → Choice → Option (Outcome Shared Task)
  guards_initial : ∀ k, initial k → guards k = []
  guards_spawned : ∀ s free k choice o k',
    act s free k choice = some o → o.spawned = some k' → guards k' = []

structure Config (Shared Task Lock : Type*) where
  shared : Shared
  task : ℕ → Option Task
  owner : Lock → Option ℕ
  /-- the name of the next task -/
  next : ℕ

inductive Action (Task Choice : Type*) where
  | start (k : Task)
  | advance (t : ℕ) (choice : Choice)

variable {Shared Task Lock Choice : Type*}

namespace Config

def free (c : Config Shared Task Lock) (l : Lock) : Bool := (c.owner l).isNone

def launch (c : Config Shared Task Lock) (k : Task) : Config Shared Task Lock :=
  { c with task := update c.task c.next (some k), next := c.next + 1 }

def tally (c : Config Shared Task Lock) (q : Task → Bool) : ℕ :=
  (List.range c.next).countP fun t => (c.task t).any q

def Quiescent (c : Config Shared Task Lock) : Prop :=
  ∀ t, c.task t = none

end Config

namespace Protocol

variable (p : Protocol Shared Task Lock Choice)

def held : Option Task → List Lock
  | none => []
  | some k => p.guards k

section Steps

variable [DecidableEq Lock]

/-- The owners after task `t` moved from `k` to `self`. -/
def handOver (owner : Lock → Option ℕ) (t : ℕ) (k : Task)
    (self : Option Task) (l : Lock) : Option ℕ :=
  if l ∈ p.held self then some t
  else if l ∈ p.guards k then none
  else owner l

/-- The configuration after task `t` at `k` acted with outcome `o`. -/
def apply (c : Config Shared Task Lock) (t : ℕ) (k : Task)
    (o : Outcome Shared Task) : Config Shared Task Lock where
  shared := o.shared
  task := update (update c.task t o.self) c.next o.spawned
  owner := p.handOver c.owner t k o.self
  next := if o.spawned.isSome then c.next + 1 else c.next

def canEnter (c : Config Shared Task Lock) (k : Task) (self : Option Task) : Bool :=
  (p.held self).all fun l => l ∈ p.guards k || c.free l

def step (c : Config Shared Task Lock) : Action Task Choice → Option (Config Shared Task Lock)
  | .start k => if p.initial k then some (c.launch k) else none
  | .advance t choice =>
    (c.task t).bind fun k =>
      (p.act c.shared c.free k choice).bind fun o =>
        if p.canEnter c k o.self then some (p.apply c t k o) else none

/-! ## What a step does -/

/-- A task `t` at `k` acts with outcome `o`. -/
structure Acts (c : Config Shared Task Lock) (t : ℕ) (k : Task)
    (choice : Choice) (o : Outcome Shared Task) : Prop where
  running : c.task t = some k
  acted : p.act c.shared c.free k choice = some o
  enters : ∀ l ∈ p.held o.self, l ∈ p.guards k ∨ c.owner l = none

theorem step_start_eq_some {c d : Config Shared Task Lock} {k : Task} :
    p.step c (.start k) = some d ↔ p.initial k ∧ d = c.launch k := by
  by_cases hk : p.initial k
  · simp [step, hk, eq_comm (a := d)]
  · simp [step, hk]

theorem step_advance_eq_some {c d : Config Shared Task Lock} {t : ℕ} {choice : Choice} :
    p.step c (.advance t choice) = some d ↔ ∃ k o, p.Acts c t k choice o ∧ d = p.apply c t k o := by
  constructor
  · intro h
    obtain ⟨k, hk, h⟩ := bind_eq_some_iff.mp h
    obtain ⟨o, ho, h⟩ := bind_eq_some_iff.mp h
    by_cases hcan : p.canEnter c k o.self
    · rw [if_pos hcan] at h
      refine ⟨k, o, ⟨hk, ho, ?_⟩, (Option.some.inj h).symm⟩
      simpa [canEnter, Config.free] using hcan
    · rw [if_neg hcan] at h
      cases h
  · rintro ⟨k, o, ⟨hk, ho, henters⟩, rfl⟩
    have hcan : p.canEnter c k o.self := by simpa [canEnter, Config.free] using henters
    simp [step, hk, ho, hcan]

end Steps

/-! ## Coherent ownership -/

/-- Locks are owned by the tasks whose program points name them, and task
names are fresh. -/
structure Coherent (c : Config Shared Task Lock) : Prop where
  owner_iff : ∀ l t, c.owner l = some t ↔ ∃ k, c.task t = some k ∧ l ∈ p.guards k
  fresh : ∀ t, c.next ≤ t → c.task t = none

variable {p} {c d : Config Shared Task Lock} {t u : ℕ} {k : Task}
  {choice : Choice} {o : Outcome Shared Task}

section

variable (h : p.Coherent c)
include h

theorem Coherent.lt_next (hk : c.task t = some k) : t < c.next := by
  by_contra hle
  have := h.fresh t (Nat.le_of_not_lt hle)
  rw [hk] at this
  cases this

theorem Coherent.quiescent (hidle : ∀ t < c.next, c.task t = none) : c.Quiescent := by
  intro t
  rcases Nat.lt_or_ge t c.next with hlt | hge
  · exact hidle t hlt
  · exact h.fresh t hge

theorem Coherent.owner_of_guard (hk : c.task t = some k) {l : Lock}
    (hl : l ∈ p.guards k) : c.owner l = some t :=
  (h.owner_iff l t).mpr ⟨k, hk, hl⟩

theorem Coherent.not_free (hk : c.task t = some k) {l : Lock} (hl : l ∈ p.guards k) :
    c.free l = false := by
  simp [Config.free, h.owner_of_guard hk hl]

theorem Coherent.eq_of_guard {k' : Task} (hk : c.task t = some k)
    (hk' : c.task u = some k') {l : Lock} (hl : l ∈ p.guards k) (hl' : l ∈ p.guards k') :
    t = u := by
  have ht := h.owner_of_guard hk hl
  have hu := h.owner_of_guard hk' hl'
  rw [ht] at hu
  exact Option.some.inj hu

theorem task_launch {k' : Task} : (c.launch k).task u = some k' ↔
      (u = c.next ∧ k' = k) ∨ c.task u = some k' := by
  simp only [Config.launch]
  rcases eq_or_ne u c.next with rfl | hnext
  · have hnone := h.fresh c.next (Nat.le_refl _)
    simp [hnone, eq_comm]
  · simp [hnext]

theorem Coherent.launched {k' : Task} (hu : (c.launch k).task u = some k') :
    k' = k ∨ c.task u = some k' :=
  ((task_launch h).mp hu).imp_left And.right

theorem Coherent.launch (hk : p.initial k) : p.Coherent (c.launch k) where
  owner_iff l u := by
    have hguards := p.guards_initial k hk
    simp only [task_launch h]
    constructor
    · intro howner
      obtain ⟨k', hk', hl⟩ := (h.owner_iff l u).mp howner
      exact ⟨k', .inr hk', hl⟩
    rintro ⟨k', ⟨-, rfl⟩ | hk', hl⟩
    · rw [hguards] at hl
      cases hl
    · exact (h.owner_iff l u).mpr ⟨k', hk', hl⟩
  fresh u hu := by
    have hu' : c.next + 1 ≤ u := hu
    have hne : u ≠ c.next := by omega
    simp [Config.launch, update_of_ne hne, h.fresh u (by omega)]

end

variable [DecidableEq Lock]

theorem task_apply (h : p.Coherent c) (hk : c.task t = some k) {k' : Task} :
    (p.apply c t k o).task u = some k' ↔
      (u = t ∧ o.self = some k') ∨ (u = c.next ∧ o.spawned = some k') ∨
        (u ≠ t ∧ c.task u = some k') := by
  have hlt := h.lt_next hk
  simp only [apply]
  rcases eq_or_ne u c.next with rfl | hnext
  · have hnone := h.fresh c.next (Nat.le_refl _)
    have hne : c.next ≠ t := by omega
    simp [hnone, hne]
  · rcases eq_or_ne u t with rfl | hne
    · simp [hnext]
    · simp [hnext, hne]

theorem Coherent.apply (h : p.Coherent c) (ha : p.Acts c t k choice o) :
    p.Coherent (p.apply c t k o) where
  owner_iff l u := by
    have hlt := h.lt_next ha.running
    have hspawned : ∀ k', o.spawned = some k' → l ∉ p.guards k' := by
      intro k' hk'
      simp [p.guards_spawned _ _ _ _ _ _ ha.acted hk']
    simp only [task_apply h ha.running]
    change p.handOver c.owner t k o.self l = some u ↔ _
    unfold handOver
    by_cases hself : l ∈ p.held o.self
    · -- the lock is the actor's now: nobody else can have named it
      rw [if_pos hself]
      have hmine : ∀ k', c.task u = some k' → l ∈ p.guards k' → u = t := by
        intro k' hk' hl
        rcases ha.enters l hself with hold | hfree
        · exact h.eq_of_guard hk' ha.running hl hold
        · rw [h.owner_of_guard hk' hl] at hfree
          cases hfree
      constructor
      · rintro ⟨⟩
        cases hs : o.self with
        | none => simp [hs, held] at hself
        | some k' => exact ⟨k', .inl ⟨rfl, rfl⟩, by simpa [hs, held] using hself⟩
      · rintro ⟨k', ⟨rfl, -⟩ | ⟨-, hk'⟩ | ⟨hne, hk'⟩, hl⟩
        · rfl
        · exact absurd hl (hspawned k' hk')
        · exact absurd (hmine k' hk' hl) hne
    · rw [if_neg hself]
      have hnotself : ∀ k', o.self = some k' → l ∉ p.guards k' := by
        intro k' hk' hl
        exact hself (by simpa [hk', held] using hl)
      by_cases hold : l ∈ p.guards k
      · -- the actor dropped the lock
        rw [if_pos hold]
        constructor
        · rintro ⟨⟩
        rintro ⟨k', ⟨-, hk'⟩ | ⟨-, hk'⟩ | ⟨hne, hk'⟩, hl⟩
        · exact absurd hl (hnotself k' hk')
        · exact absurd hl (hspawned k' hk')
        · exact absurd (h.eq_of_guard hk' ha.running hl hold) hne
      · rw [if_neg hold]
        constructor
        · intro howner
          obtain ⟨k', hk', hl⟩ := (h.owner_iff l u).mp howner
          refine ⟨k', .inr (.inr ⟨?_, hk'⟩), hl⟩
          rintro rfl
          rw [ha.running] at hk'
          cases hk'
          exact hold hl
        · rintro ⟨k', ⟨-, hk'⟩ | ⟨-, hk'⟩ | ⟨-, hk'⟩, hl⟩
          · exact absurd hl (hnotself k' hk')
          · exact absurd hl (hspawned k' hk')
          · exact (h.owner_iff l u).mpr ⟨k', hk', hl⟩
  fresh u hu := by
    have hlt := h.lt_next ha.running
    have hnext : c.next ≤ u ∧ (u = c.next → o.spawned = none) := by
      simp only [Protocol.apply] at hu
      split at hu
      · exact ⟨by omega, by omega⟩
      · next hnone => exact ⟨hu, fun _ => by simpa using hnone⟩
    have hne : u ≠ t := by omega
    simp only [Protocol.apply, update_apply, if_neg hne]
    split
    · next heq => exact hnext.2 heq
    · exact h.fresh u hnext.1

theorem Coherent.step {a : Action Task Choice} (h : p.Coherent c)
    (hstep : p.step c a = some d) : p.Coherent d := by
  cases a with
  | start =>
    obtain ⟨hk, rfl⟩ := p.step_start_eq_some.mp hstep
    exact h.launch hk
  | advance =>
    obtain ⟨k, o, ha, rfl⟩ := p.step_advance_eq_some.mp hstep
    exact h.apply ha

/-! ## Counting tasks -/

omit [DecidableEq Lock] in
theorem countP_range_update (f : ℕ → Bool) {t n : ℕ} (ht : t < n) (b : Bool) :
    (List.range n).countP (update f t b) + (f t).toNat = (List.range n).countP f + b.toNat := by
  induction n with
  | zero => omega
  | succ n ih =>
    simp only [range_succ, countP_append, countP_singleton]
    by_cases hlast : t = n
    · have hfront : (List.range n).countP (update f t b) = (List.range n).countP f := by
        apply countP_congr
        intro m hm
        have hne : m ≠ t := by
          have hlt := mem_range.mp hm
          omega
        rw [update_of_ne hne]
      rw [hfront, hlast, update_self]
      cases f n <;> cases b <;> simp
    · rw [update_of_ne (Ne.symm hlast)]
      have hfront := ih (by omega)
      omega

omit [DecidableEq Lock] in
theorem tally_launch (h : p.Coherent c) (q : Task → Bool) :
    (c.launch k).tally q = c.tally q + (q k).toNat := by
  have hnone := h.fresh c.next (Nat.le_refl _)
  have hupdate : (fun u => ((c.launch k).task u).any q) =
      update (fun u => (c.task u).any q) c.next (q k) := by
    funext u
    by_cases hu : u = c.next <;> simp [Config.launch, hu]
  have hcount := countP_range_update (fun u => (c.task u).any q) (Nat.lt_succ_self c.next) (q k)
  simp only [hnone, any_none, Bool.toNat_false, Nat.add_zero, range_succ,
    countP_append, countP_singleton] at hcount
  simp only [Config.tally, hupdate]
  simpa [Config.launch, range_succ, countP_append] using hcount

theorem tally_apply (h : p.Coherent c) (hk : c.task t = some k) (q : Task → Bool) :
    (p.apply c t k o).tally q + (q k).toNat =
      c.tally q + (o.self.any q).toNat + (o.spawned.any q).toNat := by
  have hlt := h.lt_next hk
  have hnone := h.fresh c.next (Nat.le_refl _)
  have hself := countP_range_update (fun u => (c.task u).any q) hlt (o.self.any q)
  simp only [hk, any_some] at hself
  have hfront : (List.range c.next).countP (fun u => ((p.apply c t k o).task u).any q) =
      (List.range c.next).countP
        (update (fun u => (c.task u).any q) t (o.self.any q)) := by
    apply countP_congr
    intro u hu
    have hne : u ≠ c.next := by
      have := mem_range.mp hu
      omega
    by_cases hactor : u = t
    · simp [Protocol.apply, hactor, Nat.ne_of_lt hlt]
    · simp [Protocol.apply, hne, hactor]
  cases hspawned : o.spawned with
  | none =>
    have hnext : (p.apply c t k o).next = c.next := by simp [Protocol.apply, hspawned]
    rw [Config.tally, hnext, hfront, hself]
    rfl
  | some k' =>
    have hnext : (p.apply c t k o).next = c.next + 1 := by simp [Protocol.apply, hspawned]
    have hlast : (p.apply c t k o).task c.next = some k' := by simp [Protocol.apply, hspawned]
    rw [Config.tally, hnext, range_succ, countP_append, hfront, countP_singleton, hlast]
    simp only [any_some]
    have hcount : (if q k' = true then 1 else 0) = (q k').toNat := by cases q k' <;> rfl
    rw [hcount]
    simp only [Config.tally]
    omega

omit [DecidableEq Lock] in
theorem tally_pos (h : p.Coherent c) {q : Task → Bool} (hk : c.task t = some k)
    (hq : q k = true) : 0 < c.tally q := by
  rw [Config.tally, countP_pos_iff]
  exact ⟨t, mem_range.mpr (h.lt_next hk), by simp [hk, hq]⟩

omit [DecidableEq Lock] in
theorem tally_eq_zero {q : Task → Bool}
    (h : ∀ t k, c.task t = some k → q k = false) : c.tally q = 0 := by
  rw [Config.tally, countP_eq_zero]
  intro t _
  cases hk : c.task t with
  | none => simp
  | some k => simp [h t k hk]

end Protocol

end Interleaving
