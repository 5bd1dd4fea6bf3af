import Mathlib

/-!
# Finite runs of a partial step function

A system is given by a step function that either refuses an action or returns
the next state. A run is a finite list of actions executed from a state, and
it is undefined as soon as one action is refused.

Safety arguments use two rules. An invariant kept by every allowed step holds
in every state reached by a run of allowed steps. A property established in
the middle of a run holds at its end when it is stable under the remaining
steps.
-/

namespace Transition

variable {State Action : Type*} {step : State → Action → Option State}

def run (step : State → Action → Option State) : State → List Action → Option State
  | s, [] => some s
  | s, a :: rest => (step s a).bind fun t => run step t rest

def RunMeets (step : State → Action → Option State)
    (Allowed : State → Action → Prop) : State → List Action → Prop
  | _, [] => True
  | s, a :: rest => Allowed s a ∧ ∀ t, step s a = some t → RunMeets step Allowed t rest

instance decidableRunMeets {Allowed : State → Action → Prop}
    [∀ s a, Decidable (Allowed s a)] :
    ∀ s actions, Decidable (RunMeets step Allowed s actions)
  | _, [] => isTrue trivial
  | s, a :: rest =>
    match h : step s a with
    | none => decidable_of_iff (Allowed s a) (by simp [RunMeets, h])
    | some t =>
      have : Decidable (RunMeets step Allowed t rest) :=
        decidableRunMeets t rest
      decidable_of_iff (Allowed s a ∧ RunMeets step Allowed t rest)
        (by simp [RunMeets, h])

@[simp] theorem run_nil (s : State) : run step s [] = some s := rfl

theorem run_cons_eq_some {s t : State} {a : Action} {rest : List Action} :
    run step s (a :: rest) = some t ↔ ∃ u, step s a = some u ∧ run step u rest = some t := by
  simp [run, Option.bind_eq_some_iff]

theorem run_trans {before after : List Action} {s t u : State}
    (hbefore : run step s before = some t) (hafter : run step t after = some u) :
    run step s (before ++ after) = some u := by
  induction before generalizing s with
  | nil =>
    simp only [run_nil, Option.some.injEq] at hbefore
    exact hbefore ▸ hafter
  | cons a rest ih =>
    obtain ⟨v, hv, hrest⟩ := run_cons_eq_some.mp hbefore
    exact run_cons_eq_some.mpr ⟨v, hv, ih hrest⟩

theorem runMeets_append {Allowed : State → Action → Prop} {before after : List Action}
    {s t : State} (hmeets : RunMeets step Allowed s (before ++ after))
    (hrun : run step s before = some t) :
    RunMeets step Allowed s before ∧ RunMeets step Allowed t after := by
  induction before generalizing s with
  | nil =>
    simp only [run_nil, Option.some.injEq] at hrun
    exact ⟨trivial, hrun ▸ hmeets⟩
  | cons a rest ih =>
    obtain ⟨u, hu, hrest⟩ := run_cons_eq_some.mp hrun
    have htail := hmeets.2 u hu
    refine ⟨⟨hmeets.1, fun v hv => ?_⟩, (ih htail hrest).2⟩
    rw [hu] at hv
    cases hv
    exact (ih htail hrest).1

theorem runMeets_of_forall {Allowed : State → Action → Prop}
    (h : ∀ s a, Allowed s a) (actions : List Action) (s : State) :
    RunMeets step Allowed s actions := by
  induction actions generalizing s with
  | nil => trivial
  | cons a rest ih => exact ⟨h s a, fun t _ => ih t⟩

/-- An invariant kept by every allowed step holds at the end of every run of
allowed steps. -/
theorem run_invariant {Allowed : State → Action → Prop} {Inv : State → Prop}
    (hstep : ∀ s a t, Inv s → Allowed s a → step s a = some t → Inv t)
    {actions : List Action} :
    ∀ {s t : State}, Inv s → RunMeets step Allowed s actions →
      run step s actions = some t → Inv t := by
  induction actions with
  | nil =>
    intro s t hs _ hrun
    simp only [run_nil, Option.some.injEq] at hrun
    exact hrun ▸ hs
  | cons a rest ih =>
    intro s t hs hmeets hrun
    obtain ⟨u, hu, hrest⟩ := run_cons_eq_some.mp hrun
    exact ih (hstep s a u hs hmeets.1 hu) (hmeets.2 u hu) hrest

theorem run_kept {Inv : State → Prop}
    (hstep : ∀ s a t, Inv s → step s a = some t → Inv t) {actions : List Action}
    {s t : State} (hs : Inv s) (hrun : run step s actions = some t) : Inv t :=
  run_invariant (fun s a t hs _ h => hstep s a t hs h) hs
    (runMeets_of_forall (fun _ _ => trivial) actions s) hrun

/-- A decidable property of the state that a concrete run reaches. -/
theorem exists_of_any {α : Type*} {o : Option α} {p : α → Prop} [DecidablePred p]
    (h : (o.any fun a => decide (p a)) = true) : ∃ a, o = some a ∧ p a := by
  obtain ⟨a, ha, hp⟩ := (Option.any_eq_true _ _).mp h
  exact ⟨a, ha, of_decide_eq_true hp⟩

end Transition
