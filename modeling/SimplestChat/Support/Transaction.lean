import Mathlib

/-!
# Database work whose statements may fail

A client runs statements against a database, one answer at a time. Each
statement may be struck by a fault of the environment, which hides from the
client whether a commit in flight was applied. The work may also stop by
itself, by raising an error of its own.

`Raises` describes the second kind of stop. The `simp` lemmas below push it
through a sequence of statements, so that it becomes a condition on the
database and on the faults before the raising point.
-/

namespace Transaction

/-- What strikes a statement: the error the client sees, and whether a commit
in flight was applied all the same. -/
structure Fault (F : Type*) where
  error : F
  applied : Bool
deriving DecidableEq

/-- Why database work stopped without a result. A fault is `committing` if it
struck a statement that commits: only then may the work be saved all the same. -/
inductive Stop (F E : Type*) where
  | fault (error : F) (committing : Bool)
  | raised (error : E)
deriving DecidableEq

/-- The committed database, the open transaction's view of it, and the faults
that will strike the next statements. -/
structure Connection (D F : Type*) where
  saved : D
  work : D
  faults : List (Option (Fault F))

variable {D F E : Type*} {α β : Type}

namespace Connection

def nextFault (c : Connection D F) : Option (Fault F) :=
  c.faults.head?.join

def advance (c : Connection D F) : Connection D F := { c with faults := c.faults.tail }

/-- None of the next `n` statements is struck. -/
def Undisturbed (c : Connection D F) (n : ℕ) : Prop :=
  ∀ fault ∈ c.faults.take n, fault = none

theorem undisturbed_zero (c : Connection D F) : c.Undisturbed 0 := by simp [Undisturbed]

theorem undisturbed_succ {c : Connection D F} {n : ℕ} :
    c.Undisturbed (n + 1) ↔ c.nextFault = none ∧ c.advance.Undisturbed n := by
  unfold Undisturbed nextFault advance
  cases c.faults with
  | nil => simp
  | cons fault => cases fault <;> simp

end Connection

/-- Database work: it ends with a result or a stop, and leaves a connection. -/
def Tx (D F E : Type*) (α : Type) :=
  Connection D F → Except (Stop F E) α × Connection D F

namespace Tx

instance : Monad (Tx D F E) where
  pure a := fun c => (.ok a, c)
  bind x f := fun c =>
    match x c with
    | (.ok a, c') => f a c'
    | (.error stop, c') => (.error stop, c')

def raise (error : E) : Tx D F E α :=
  fun c => (.error (.raised error), c)

def begin : Tx D F E Unit :=
  fun c =>
    match c.nextFault with
    | some fault => (.error (.fault fault.error false), c.advance)
    | none => (.ok (), { c.advance with work := c.saved })

def statement (f : D → D × α) : Tx D F E α :=
  fun c =>
    match c.nextFault with
    | some fault => (.error (.fault fault.error false), c.advance)
    | none => (.ok (f c.work).2, { c.advance with work := (f c.work).1 })

def query (f : D → α) : Tx D F E α :=
  statement fun d => (d, f d)

def update (f : D → D) : Tx D F E Unit :=
  statement fun d => (f d, ())

def commit : Tx D F E Unit :=
  fun c =>
    match c.nextFault with
    | some fault =>
      (.error (.fault fault.error true),
        { c.advance with saved := if fault.applied then c.work else c.saved })
    | none => (.ok (), { c.advance with saved := c.work })

def autocommit (f : D → D × α) : Tx D F E α :=
  fun c =>
    match c.nextFault with
    | some fault =>
      (.error (.fault fault.error true),
        { c.advance with saved := if fault.applied then (f c.saved).1 else c.saved })
    | none => (.ok (f c.saved).2, { c.advance with saved := (f c.saved).1 })

/-- The work stops at this connection by raising `error`. -/
def Raises (x : Tx D F E α) (c : Connection D F) (error : E) : Prop :=
  (x c).1 = .error (.raised error)

/-- Every error the work raises satisfies `P`. -/
def RaisesOnly (P : E → Prop) (x : Tx D F E α) : Prop :=
  ∀ c error, x.Raises c error → P error

/-! ## Where a sequence of statements raises -/

variable {c : Connection D F} {error : E}

@[simp] theorem raises_pure (a : α) : (pure a : Tx D F E α).Raises c error ↔ False := by
  simp [Raises, pure]

@[simp] theorem raises_raise {raised : E} :
    (raise raised : Tx D F E α).Raises c error ↔ raised = error := by
  simp [Raises, raise]

theorem raises_bind {x : Tx D F E α} {f : α → Tx D F E β} : (x >>= f).Raises c error ↔
      x.Raises c error ∨ ∃ a, (x c).1 = .ok a ∧ (f a).Raises (x c).2 error := by
  simp only [Raises, bind]
  rcases x c with ⟨result, c'⟩
  cases result <;> simp

theorem raises_begin_bind (f : Unit → Tx D F E β) : (begin >>= f).Raises c error ↔
      c.nextFault = none ∧ (f ()).Raises { c.advance with work := c.saved } error := by
  simp only [Raises, bind, begin]
  cases c.nextFault <;> simp

theorem raises_statement_bind (g : D → D × α) (f : α → Tx D F E β) :
    (statement g >>= f).Raises c error ↔ c.nextFault = none ∧
        (f (g c.work).2).Raises { c.advance with work := (g c.work).1 } error := by
  simp only [Raises, bind, statement]
  cases c.nextFault <;> simp

theorem raises_query_bind (g : D → α) (f : α → Tx D F E β) : (query g >>= f).Raises c error ↔
      c.nextFault = none ∧ (f (g c.work)).Raises c.advance error :=
  raises_statement_bind _ f

theorem raises_update_bind (g : D → D) (f : Unit → Tx D F E β) : (update g >>= f).Raises c error ↔
      c.nextFault = none ∧ (f ()).Raises { c.advance with work := g c.work } error :=
  raises_statement_bind _ f

theorem raises_autocommit_bind (g : D → D × α) (f : α → Tx D F E β) :
    (autocommit g >>= f).Raises c error ↔ c.nextFault = none ∧ (f (g c.saved).2).Raises
          { c.advance with saved := (g c.saved).1 } error := by
  simp only [Raises, bind, autocommit]
  cases c.nextFault <;> simp

/-! ## What a sequence of statements can raise -/

variable {P : E → Prop}

theorem raisesOnly_pure (a : α) : (pure a : Tx D F E α).RaisesOnly P := by
  intro c error h
  simp at h

theorem raisesOnly_raise {raised : E} (h : P raised) :
    (raise raised : Tx D F E α).RaisesOnly P := by
  intro c error hraises
  exact raises_raise.mp hraises ▸ h

theorem raisesOnly_begin : (begin : Tx D F E Unit).RaisesOnly P := by
  intro c error h
  simp only [Raises, begin] at h
  cases hf : c.nextFault <;> simp [hf] at h

theorem raisesOnly_statement (g : D → D × α) : (statement g : Tx D F E α).RaisesOnly P := by
  intro c error h
  simp only [Raises, statement] at h
  cases hf : c.nextFault <;> simp [hf] at h

theorem raisesOnly_commit : (commit : Tx D F E Unit).RaisesOnly P := by
  intro c error h
  simp only [Raises, commit] at h
  cases hf : c.nextFault <;> simp [hf] at h

theorem raisesOnly_autocommit (g : D → D × α) : (autocommit g : Tx D F E α).RaisesOnly P := by
  intro c error h
  simp only [Raises, autocommit] at h
  cases hf : c.nextFault <;> simp [hf] at h

theorem raisesOnly_bind {x : Tx D F E α} {f : α → Tx D F E β}
    (hx : x.RaisesOnly P) (hf : ∀ a, (f a).RaisesOnly P) :
    (x >>= f).RaisesOnly P := by
  intro c error h
  rcases raises_bind.mp h with hraises | ⟨a, _, hraises⟩
  · exact hx c error hraises
  · exact hf a _ error hraises

theorem raises_bind_of_never {x : Tx D F E α} {f : α → Tx D F E β}
    (hf : ∀ a, (f a).RaisesOnly fun other => other ≠ error) :
    (x >>= f).Raises c error ↔ x.Raises c error := by
  rw [raises_bind]
  constructor
  · rintro (h | ⟨a, _, h⟩)
    · exact h
    · exact absurd rfl (hf a _ error h)
  · exact Or.inl

theorem raisesOnly_map {x : Tx D F E α} {g : α → β} (hx : x.RaisesOnly P) :
    (x >>= fun a => pure (g a)).RaisesOnly P :=
  raisesOnly_bind hx fun _ => raisesOnly_pure _

theorem raises_map {x : Tx D F E α} {g : α → β} :
    (x >>= fun a => pure (g a)).Raises c error ↔ x.Raises c error :=
  raises_bind_of_never fun _ => raisesOnly_pure _

theorem raisesOnly_statement_bind {g : D → D × α} {f : α → Tx D F E β}
    (hf : ∀ a, (f a).RaisesOnly P) : (statement g >>= f).RaisesOnly P :=
  raisesOnly_bind (raisesOnly_statement g) hf

/-! ## Without faults -/

section Quiet

variable (saved work : D)

@[simp] theorem begin_quiet :
    (begin : Tx D F E Unit) ⟨saved, work, []⟩ = (.ok (), ⟨saved, saved, []⟩) := rfl

@[simp] theorem query_quiet (f : D → α) : (query f : Tx D F E α) ⟨saved, work, []⟩ =
      (.ok (f work), ⟨saved, work, []⟩) := rfl

@[simp] theorem update_quiet (f : D → D) : (update f : Tx D F E Unit) ⟨saved, work, []⟩ =
      (.ok (), ⟨saved, f work, []⟩) := rfl

theorem bind_apply (x : Tx D F E α) (f : α → Tx D F E β) : (x >>= f) c = match x c with
      | (.ok a, c') => f a c'
      | (.error stop, c') => (.error stop, c') := rfl

end Quiet

/-! ## Work that completes -/

section Completed

variable {c' : Connection D F}

theorem bind_eq_ok {x : Tx D F E α} {f : α → Tx D F E β} {b : β} : (x >>= f) c = (.ok b, c') ↔
      ∃ a d, x c = (.ok a, d) ∧ f a d = (.ok b, c') := by
  rw [bind_apply]
  rcases hx : x c with ⟨result, d⟩
  cases result with
  | ok a =>
    constructor
    · exact fun h => ⟨a, d, rfl, h⟩
    rintro ⟨a', d', heq, h⟩
    cases heq
    exact h
  | error =>
    constructor
    · intro h
      cases h
    · rintro ⟨a', d', heq, -⟩
      cases heq

theorem begin_eq_ok {u : Unit} (h : (begin : Tx D F E Unit) c = (.ok u, c')) :
    c'.saved = c.saved ∧ c'.work = c.saved := by
  unfold begin at h
  split at h
  · cases h
  · cases h
    exact ⟨rfl, rfl⟩

theorem statement_eq_ok {g : D → D × α} {a : α} (h : (statement g : Tx D F E α) c = (.ok a, c')) :
    a = (g c.work).2 ∧ c'.saved = c.saved ∧ c'.work = (g c.work).1 := by
  unfold statement at h
  split at h
  · cases h
  · cases h
    exact ⟨rfl, rfl, rfl⟩

theorem update_eq_ok {g : D → D} {u : Unit} (h : (update g : Tx D F E Unit) c = (.ok u, c')) :
    c'.saved = c.saved ∧ c'.work = g c.work :=
  (statement_eq_ok h).2

theorem commit_eq_ok {u : Unit} (h : (commit : Tx D F E Unit) c = (.ok u, c')) :
    c'.saved = c.work := by
  unfold commit at h
  split at h
  · cases h
  · cases h
    rfl

end Completed

/-! ## What work keeps -/

section Ensures

variable {I : D → Prop} {Q : α → Prop}

/-- The work keeps `I` on the committed database and on the transaction's view,
whatever strikes it, and every result it ends with satisfies `Q`. -/
def Ensures (I : D → Prop) (x : Tx D F E α) (Q : α → Prop) : Prop :=
  ∀ c, I c.saved → I c.work → I (x c).2.saved ∧ I (x c).2.work ∧ ∀ a, (x c).1 = .ok a → Q a

variable {x : Tx D F E α}

theorem Ensures.mono {R : α → Prop} (h : x.Ensures I Q) (himp : ∀ a, Q a → R a) :
    x.Ensures I R := by
  intro c hsaved hwork
  obtain ⟨hsaved', hwork', hresult⟩ := h c hsaved hwork
  exact ⟨hsaved', hwork', fun a ha => himp a (hresult a ha)⟩

theorem ensures_true (x : Tx D F E α) : x.Ensures (fun _ => True) fun _ => True :=
  fun _ _ _ => ⟨trivial, trivial, fun _ _ => trivial⟩

theorem ensures_pure {a : α} (h : Q a) : (pure a : Tx D F E α).Ensures I Q := by
  intro c hsaved hwork
  refine ⟨hsaved, hwork, fun b hb => ?_⟩
  cases hb
  exact h

theorem ensures_raise {raised : E} : (raise raised : Tx D F E α).Ensures I Q := by
  intro c hsaved hwork
  exact ⟨hsaved, hwork, nofun⟩

theorem ensures_begin : (begin : Tx D F E Unit).Ensures I fun _ => True := by
  intro c hsaved hwork
  unfold begin
  cases c.nextFault with
  | none => exact ⟨hsaved, hsaved, fun _ _ => trivial⟩
  | some => exact ⟨hsaved, hwork, fun _ _ => trivial⟩

theorem ensures_statement {g : D → D × α}
    (hkeep : ∀ d, I d → I (g d).1) (hresult : ∀ d, I d → Q (g d).2) :
    (statement g : Tx D F E α).Ensures I Q := by
  intro c hsaved hwork
  unfold statement
  cases c.nextFault with
  | none =>
    refine ⟨hsaved, hkeep _ hwork, fun a ha => ?_⟩
    cases ha
    exact hresult _ hwork
  | some => exact ⟨hsaved, hwork, nofun⟩

theorem ensures_query {g : D → α} (h : ∀ d, I d → Q (g d)) : (query g : Tx D F E α).Ensures I Q :=
  ensures_statement (fun _ hd => hd) h

theorem ensures_query_any {g : D → α} : (query g : Tx D F E α).Ensures I fun _ => True :=
  ensures_query fun _ _ => trivial

theorem ensures_update {g : D → D} (h : ∀ d, I d → I (g d)) :
    (update g : Tx D F E Unit).Ensures I fun _ => True :=
  ensures_statement h fun _ _ => trivial

theorem ensures_commit : (commit : Tx D F E Unit).Ensures I fun _ => True := by
  intro c hsaved hwork
  unfold commit
  cases c.nextFault with
  | none => exact ⟨hwork, hwork, fun _ _ => trivial⟩
  | some fault =>
    refine ⟨?_, hwork, fun _ _ => trivial⟩
    change I (if fault.applied then c.work else c.saved)
    split
    · exact hwork
    · exact hsaved

theorem ensures_autocommit {g : D → D × α}
    (hkeep : ∀ d, I d → I (g d).1) (hresult : ∀ d, I d → Q (g d).2) :
    (autocommit g : Tx D F E α).Ensures I Q := by
  intro c hsaved hwork
  unfold autocommit
  cases c.nextFault with
  | none =>
    refine ⟨hkeep _ hsaved, hwork, fun a ha => ?_⟩
    cases ha
    exact hresult _ hsaved
  | some fault =>
    refine ⟨?_, hwork, nofun⟩
    change I (if fault.applied then (g c.saved).1 else c.saved)
    split
    · exact hkeep _ hsaved
    · exact hsaved

theorem ensures_bind {f : α → Tx D F E β} {R : β → Prop} (hx : x.Ensures I Q)
    (hf : ∀ a, Q a → (f a).Ensures I R) : (x >>= f).Ensures I R := by
  intro c hsaved hwork
  obtain ⟨hsaved', hwork', hresult⟩ := hx c hsaved hwork
  simp only [bind]
  rcases hxc : x c with ⟨result, c'⟩
  rw [hxc] at hsaved' hwork' hresult
  cases result with
  | error => exact ⟨hsaved', hwork', nofun⟩
  | ok a => exact hf a (hresult a rfl) c' hsaved' hwork'

theorem ensures_seq {x : Tx D F E Unit} {y : Tx D F E β} {R : β → Prop}
    (hx : x.Ensures I fun _ => True) (hy : y.Ensures I R) :
    (x >>= fun _ => y).Ensures I R :=
  ensures_bind hx fun _ _ => hy

end Ensures

end Tx

end Transaction
